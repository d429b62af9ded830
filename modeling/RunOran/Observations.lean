import RunOran.Assembly
import RunOran.TimingAdvance

/-!
# Timing advances, from the MAC to the snapshots

A timing advance travels on its own subscription. The service sends the records that it holds in
one message, the xApp files each observation under its identifier, and a snapshot takes what is
filed under its RNTI when it is completed.

At the xApp, what is filed is the last observation that has arrived (`lastFiled`), so the timing
advance of a snapshot is named by its place among the observations and never older than that of
an earlier snapshot of the UE (`snapshot_timing_advances`). At the DU, what arrives is a
subsequence of what was pushed, without repetition, even where records are lost
(`arrived_sublist`). The two meet in `timing_advance_path`.
-/

namespace RunOran

open Protobuf History

/-! ## At the xApp -/

/-- The observation that arrives, if one does. -/
def XappArrival.observation : XappArrival → Option TaObservation
  | .stream _ => none
  | .timingAdvance observation => some observation

/-- The observations among some arrivals, in order. -/
def observations (arrivals : List XappArrival) : List TaObservation :=
  arrivals.filterMap XappArrival.observation

/-- The last observation that is filed under an identifier. -/
def lastFiled (identifier : UInt32) (filed : List TaObservation) : Option TaObservation :=
  (latest (fun observation => observation.rnti = identifier) filed).map Prod.fst

theorem observations_append (arrivals arrivals' : List XappArrival) :
    observations (arrivals ++ arrivals') = observations arrivals ++ observations arrivals' :=
  List.filterMap_append ..

theorem lastFiled_concat (identifier : UInt32) (filed : List TaObservation)
    (observation : TaObservation) : lastFiled identifier (filed ++ [observation]) =
      if observation.rnti = identifier then some observation
      else lastFiled identifier filed := by
  rw [lastFiled, latest_concat, lastFiled]
  simp only [decide_eq_true_eq]
  split <;> rfl

/-- What was filed last is filed under the identifier. -/
theorem of_lastFiled {identifier : UInt32} {filed : List TaObservation}
    {observation : TaObservation} (h : lastFiled identifier filed = some observation) :
    observation ∈ filed ∧ observation.rnti = identifier := by
  obtain ⟨⟨o, i⟩, hlatest, rfl⟩ := Option.map_eq_some_iff.mp h
  obtain ⟨hget, hkind, -⟩ := latest_eq_some_iff.mp hlatest
  exact ⟨List.mem_of_getElem? hget, of_decide_eq_true hkind⟩

/-- The last one filed later is no older. -/
theorem lastFiled_append {identifier : UInt32} {filed : List TaObservation}
    {observation : TaObservation} (h : lastFiled identifier filed = some observation)
    (more : List TaObservation) :
    ∃ (i j : Nat) (later : TaObservation), i ≤ j ∧ lastFiled identifier (filed ++ more) = some later ∧
      (filed ++ more)[i]? = some observation ∧ (filed ++ more)[j]? = some later := by
  obtain ⟨⟨o, i⟩, hlatest, rfl⟩ := Option.map_eq_some_iff.mp h
  obtain ⟨hget, hkind, -⟩ := latest_eq_some_iff.mp hlatest
  have hi : (filed ++ more)[i]? = some o := by
    rw [List.getElem?_append_left (lt_length_of_latest hlatest), hget]
  have hsome : (latest (fun o => o.rnti = identifier) (filed ++ more)).isSome :=
    isSome_latest (List.mem_of_getElem? hi) hkind
  obtain ⟨⟨later, j⟩, hlater⟩ := Option.isSome_iff_exists.mp hsome
  refine ⟨i, j, later, le_of_latest hlater hi hkind, ?_, hi, (latest_eq_some_iff.mp hlater).1⟩
  rw [lastFiled, hlater, Option.map_some]

namespace SimpleRunOranXapp

/-- **What is filed under an identifier is the last observation that has arrived for it.** -/
theorem latestTimingAdvance_run (n : ℤ) (arrivals : List XappArrival) (identifier : UInt32) :
    ((init n).run arrivals).latestTimingAdvance[identifier]? =
      lastFiled identifier (observations arrivals) := by
  induction arrivals using List.reverseRecOn with
  | nil => exact Std.ExtTreeMap.getElem?_empty
  | append_singleton arrivals arrival ih =>
    rw [run, Mealy.exec_concat, observations_append]
    cases arrival with
    | stream item =>
      rw [step, latestTimingAdvance_onItem]
      exact ih.trans (congrArg _ (List.append_nil _).symm)
    | timingAdvance observation =>
      have hone : observations [.timingAdvance observation] = [observation] := rfl
      rw [hone, lastFiled_concat, ← ih]
      simp only [step, storeTimingAdvance, Std.ExtTreeMap.getElem?_insert,
        Std.LawfulEqCmp.compare_eq_iff_eq]

/-- A snapshot takes what is filed under its RNTI when it is completed. -/
theorem timingAdvance_of_history {n : ℤ} {arrivals : List XappArrival} {k : Nat}
    {arrival : XappArrival} {s : Snapshot}
    (hget : ((init n).history arrivals)[k]? = some (arrival, some s)) :
    s.timingAdvance = lastFiled s.rnti (observations (arrivals.take k)) := by
  obtain ⟨item, -, hs⟩ := exists_item_of_history hget
  rw [combined_eq] at hs
  split at hs
  · rw [← Option.some.inj hs]
    exact latestTimingAdvance_run n _ item.rnti
  · cases hs

/-- **Timing advances of snapshots.** The timing advance of a snapshot is the last observation
under its RNTI that had arrived when it was completed. Among the snapshots of a UE, one that
comes after a snapshot with a timing advance has one too, which did not arrive before that one. -/
theorem snapshot_timing_advances (numRxAntennas : ℤ) (events : List XappEvent) :
    let arrivals := events.flatMap XappEvent.arrivals
    let h := (init numRxAntennas).history arrivals
    (∀ k arrival s, h[k]? = some (arrival, some s) →
      s.timingAdvance = lastFiled s.rnti (observations (arrivals.take k))) ∧
    (∀ (k k' : Nat) (arrival arrival' : XappArrival) (s s' : Snapshot) (observation : TaObservation),
      k ≤ k' → h[k]? = some (arrival, some s) → h[k']? = some (arrival', some s') →
      s.rnti = s'.rnti → s.timingAdvance = some observation →
      ∃ (i j : Nat) (later : TaObservation), i ≤ j ∧ s'.timingAdvance = some later ∧
        (observations arrivals)[i]? = some observation ∧
        (observations arrivals)[j]? = some later) ∧
    ∀ identifier, ((init numRxAntennas).onEvents events).latestTimingAdvance[identifier]? =
      lastFiled identifier (observations arrivals) := by
  intro arrivals h
  refine ⟨fun k arrival s => timingAdvance_of_history, ?_, fun identifier => ?_⟩
  · intro k k' arrival arrival' s s' observation hk hs hs' hrnti hta
    rw [timingAdvance_of_history hs] at hta
    -- what had arrived by then is a part of what had arrived later, and that of everything
    obtain ⟨more, hmore⟩ := List.take_prefix_take_left (l := arrivals) hk
    obtain ⟨i, j, later, hij, hlater, hi, hj⟩ := lastFiled_append hta (observations more)
    rw [← observations_append, hmore] at hlater hi hj
    have hall : observations arrivals =
        observations (arrivals.take k') ++ observations (arrivals.drop k') := by
      rw [← observations_append, List.take_append_drop]
    have hleft : ∀ {i : Nat} {o : TaObservation},
        (observations (arrivals.take k'))[i]? = some o →
          (observations arrivals)[i]? = some o := by
      intro i o hget
      rw [hall, List.getElem?_append_left (List.getElem?_eq_some_iff.mp hget).1, hget]
    refine ⟨i, j, later, hij, ?_, hleft hi, hleft hj⟩
    rw [timingAdvance_of_history hs', ← hrnti, hlater]
  · rw [onEvents_eq]
    exact latestTimingAdvance_run _ _ _

end SimpleRunOranXapp

/-! ## At the DU -/

/-- The observation that the xApp makes of a record, if the source has a name. -/
def TaIndicationRecord.observation (record : TaIndicationRecord) : Option TaObservation :=
  taObservation record.toData

/-- A record whose source is one of the enum. -/
def TaIndicationRecord.HasNamedSource (record : TaIndicationRecord) : Prop :=
  (TimingAdvanceSource.ofValue? record.source.toInt32).isSome

namespace TaReporting

/-- The messages of a run, in order. -/
def messages (calls : List TaCall) : List Bytes :=
  Mealy.observe step (fun _ result => result.messages) init calls

/-- **At most once and in order**: the records that have arrived, then those on their way, are a
subsequence of those that were pushed. -/
theorem arrived_sublist (calls : List TaCall) :
    ∃ arrived, decoded calls = arrived.map TaIndicationRecord.toData ∧
      (arrived ++ (run calls).inFlight).Sublist (pushed calls) := by
  induction calls using List.reverseRecOn with
  | nil => exact ⟨[], rfl, List.Sublist.refl _⟩
  | append_singleton calls call ih =>
    obtain ⟨arrived, hdecoded, hsub⟩ := ih
    rw [decoded_concat, run_concat, pushed_concat, hdecoded]
    rw [inFlight] at hsub
    cases call with
    | pushTaIndication record =>
      refine ⟨arrived, List.append_nil _, ?_⟩
      rw [step, inFlight, ← List.append_assoc, ← List.append_assoc, List.append_assoc arrived]
      exact hsub.append (List.Sublist.refl [record])
    | collectMeasurements =>
      -- what the service held is dropped
      refine ⟨arrived, List.append_nil _, ?_⟩
      rw [step, inFlight]
      simp only [TaReportService.collectMeasurements, List.append_nil]
      exact (((List.sublist_append_right _ _).append_left arrived).trans hsub).trans
        (List.sublist_append_left _ _)
    | isIndMsgReady =>
      exact ⟨arrived, List.append_nil _, hsub.trans (List.sublist_append_left _ _)⟩
    | getIndicationMessage appendOk =>
      cases appendOk with
      | false =>
        exact ⟨arrived, List.append_nil _, hsub.trans (List.sublist_append_left _ _)⟩
      | true =>
        refine ⟨arrived ++ (run calls).service.records, ?_, ?_⟩
        · simp [step, TaReportService.getIndicationMessage]
        · rw [List.append_assoc]
          exact hsub.trans (List.sublist_append_left _ _)

/-- A message of a run carries records that were pushed. -/
theorem exists_records_of_mem_messages {calls : List TaCall} {message : Bytes}
    (h : message ∈ messages calls) :
    ∃ records, message = serializeTaIndication records ∧ ∀ r ∈ records, r ∈ pushed calls := by
  obtain ⟨before, call, after, rfl, hmem⟩ := Mealy.mem_observe.mp h
  cases call with
  | getIndicationMessage appendOk =>
    cases appendOk with
    | false => exact ⟨[], List.mem_singleton.mp hmem, fun r hr => by cases hr⟩
    | true =>
      refine ⟨(run before).service.records, List.mem_singleton.mp hmem, fun r hr => ?_⟩
      obtain ⟨arrived, -, hsub⟩ := arrived_sublist before
      rw [pushed, List.filterMap_append]
      refine List.mem_append_left _ (hsub.subset ?_)
      exact List.mem_append_right _ (List.mem_append_left _ hr)
  | _ => cases hmem

end TaReporting

/-! ## From end to end -/

/-- The timing-advance messages among some events, in order. -/
def taMessages (events : List XappEvent) : List Bytes :=
  events.filterMap fun
    | .timingAdvanceIndication msg => some msg
    | .srsIndication _ => none

theorem observations_arrivals (events : List XappEvent) :
    observations (events.flatMap XappEvent.arrivals) =
      (taMessages events).flatMap parseTimingAdvanceMessage := by
  induction events with
  | nil => rfl
  | cons event events ih =>
    rw [List.flatMap_cons, observations_append, ih]
    cases event with
    | srsIndication msg =>
      have hnone : observations (XappEvent.srsIndication msg).arrivals = [] := by
        rw [XappEvent.arrivals, observations, List.filterMap_map]
        exact List.filterMap_eq_nil_iff.mpr fun _ _ => rfl
      rw [hnone]
      rfl
    | timingAdvanceIndication msg =>
      have hall : observations (XappEvent.timingAdvanceIndication msg).arrivals =
          parseTimingAdvanceMessage msg := by
        rw [XappEvent.arrivals, observations, List.filterMap_map]
        exact List.filterMap_some
      rw [hall]
      rfl

/-- No observation of a message is discarded if all sources have names. -/
theorem mapM_eq_filterMap {α β : Type} {f : α → Option β} {as : List α}
    (h : ∀ a ∈ as, (f a).isSome) : as.mapM f = some (as.filterMap f) := by
  induction as with
  | nil => rfl
  | cons a as ih =>
    obtain ⟨b, hb⟩ := Option.isSome_iff_exists.mp (h a List.mem_cons_self)
    rw [List.mapM_cons, hb, ih fun a' ha' => h a' (List.mem_cons_of_mem _ ha'),
      List.filterMap_cons_some hb]
    rfl

theorem parseTimingAdvanceMessage_serializeTaIndication {records : List TaIndicationRecord}
    (h : ∀ record ∈ records, record.HasNamedSource) :
    parseTimingAdvanceMessage (serializeTaIndication records) =
      (decodeTaIndication (serializeTaIndication records)).filterMap taObservation := by
  have hnamed : ∀ ta ∈ records.map TaIndicationRecord.toData, (taObservation ta).isSome := by
    intro ta hta
    obtain ⟨record, hrecord, rfl⟩ := List.mem_map.mp hta
    rw [taObservation, Option.isSome_map]
    exact h record hrecord
  rw [parseTimingAdvanceMessage_eq (parse_serializeTaIndication records), mapM_eq_filterMap hnamed,
    Option.getD_some, decodeTaIndication_serializeTaIndication]

/-- What the xApp gets out of the messages of a run. -/
theorem observations_eq {calls : List TaCall}
    (hnamed : ∀ record ∈ TaReporting.pushed calls, record.HasNamedSource)
    {events : List XappEvent} (hevents : taMessages events = TaReporting.messages calls) :
    observations (events.flatMap XappEvent.arrivals) =
      (TaReporting.decoded calls).filterMap taObservation := by
  have hparse : ∀ message ∈ TaReporting.messages calls, parseTimingAdvanceMessage message =
      (decodeTaIndication message).filterMap taObservation := by
    intro message hmessage
    obtain ⟨records, rfl, hrecords⟩ := TaReporting.exists_records_of_mem_messages hmessage
    exact parseTimingAdvanceMessage_serializeTaIndication fun r hr => hnamed r (hrecords r hr)
  rw [observations_arrivals, hevents, List.flatMap_congr hparse, ← List.filterMap_flatMap]
  rfl

/-- The timing advance of a snapshot was filed under its RNTI at some time. -/
theorem SimpleRunOranXapp.mem_observations_of_completed {n : ℤ} {events : List XappEvent}
    {s : Snapshot} (hs : s ∈ ((init n).onEvents events).completedSrsMessages)
    {observation : TaObservation} (hta : s.timingAdvance = some observation) :
    observation ∈ observations (events.flatMap XappEvent.arrivals) ∧
      observation.rnti = s.rnti := by
  have hcompleted := completed_run (init n) (events.flatMap XappEvent.arrivals)
  rw [← onEvents_eq] at hcompleted
  rw [hcompleted] at hs
  obtain ⟨⟨arrival, completes⟩, hentry, rfl⟩ := List.mem_filterMap.mp hs
  obtain ⟨k, hk⟩ := List.getElem?_of_mem hentry
  rw [timingAdvance_of_history hk] at hta
  obtain ⟨hmem, hrnti⟩ := of_lastFiled hta
  exact ⟨List.filterMap_subset _ (List.take_subset _ _) hmem, hrnti⟩

/-- **The path of a timing advance.** Let all records have named sources, and the xApp handle the
messages of a run of the service, in order, among any SRS messages. The records that arrive, then
those on their way, are a subsequence of those pushed, and all of them if no collection found the
service holding any; what is filed at the end is the last record that arrived; and the timing
advance of a snapshot comes from a record that arrived and is filed under the RNTI. -/
theorem timing_advance_path (numRxAntennas : ℤ) {calls : List TaCall}
    (hnamed : ∀ record ∈ TaReporting.pushed calls, record.HasNamedSource)
    {events : List XappEvent} (hevents : taMessages events = TaReporting.messages calls) :
    let x := (SimpleRunOranXapp.init numRxAntennas).onEvents events
    ∃ arrived, TaReporting.decoded calls = arrived.map TaIndicationRecord.toData ∧
      (arrived ++ (TaReporting.run calls).inFlight).Sublist (TaReporting.pushed calls) ∧
      (TaReporting.CollectsWhenEmpty calls →
        arrived ++ (TaReporting.run calls).inFlight = TaReporting.pushed calls) ∧
      (∀ identifier, x.latestTimingAdvance[identifier]? =
        lastFiled identifier (arrived.filterMap TaIndicationRecord.observation)) ∧
      ∀ s ∈ x.completedSrsMessages, ∀ observation, s.timingAdvance = some observation →
        observation.rnti = s.rnti ∧
          ∃ record ∈ arrived, record.observation = some observation := by
  intro x
  obtain ⟨arrived, hdecoded, hsub⟩ := TaReporting.arrived_sublist calls
  have hobservations : observations (events.flatMap XappEvent.arrivals) =
      arrived.filterMap TaIndicationRecord.observation := by
    rw [observations_eq hnamed hevents, hdecoded]
    exact List.filterMap_map
  refine ⟨arrived, hdecoded, hsub, fun hempty => ?_, fun identifier => ?_, ?_⟩
  · have hconserved := (TaReporting.conserved_or_missing calls).1 hempty
    rw [TaReporting.Conserved, TaReporting.accounted, hdecoded, ← List.map_append] at hconserved
    exact List.map_injective_iff.mpr TaIndicationRecord.toData_injective hconserved
  · rw [← hobservations, ← SimpleRunOranXapp.latestTimingAdvance_run numRxAntennas,
      ← SimpleRunOranXapp.onEvents_eq]
  · intro s hs observation hta
    obtain ⟨hmem, hrnti⟩ := SimpleRunOranXapp.mem_observations_of_completed hs hta
    rw [hobservations] at hmem
    exact ⟨hrnti, List.mem_filterMap.mp hmem⟩

/-- Two UEs, of which the second has no RNTI, an SRS message, and a record still on its way. -/
theorem timing_advance_path_two_ues :
    let first : TaIndicationRecord := ⟨1, 17, 1000, 5, 1, true⟩
    let second : TaIndicationRecord := ⟨4, 0, 1001, 7, 2, false⟩
    let third : TaIndicationRecord := ⟨1, 17, 2000, 6, 2, true⟩
    let calls := [TaCall.pushTaIndication first, .pushTaIndication second, .collectMeasurements,
      .getIndicationMessage true, .pushTaIndication third]
    let events := [XappEvent.timingAdvanceIndication (serializeTaIndication [first, second]),
      .srsIndication (serializeSrsIndication
        [⟨17, 1500, 0, true, []⟩, ⟨17, 1500, 0, false, [⟨.finite 1, .finite 0⟩]⟩])]
    let x := (SimpleRunOranXapp.init 1).onEvents events
    TaReporting.pushed calls = [first, second] ++ (TaReporting.run calls).inFlight ∧
      x.latestTimingAdvance[(17 : UInt32)]? = some ⟨17, 1, 1000, 5, .rar, true⟩ ∧
      x.latestTimingAdvance[(4 : UInt32)]? = some ⟨4, 4, 1001, 7, .connectedUe, false⟩ ∧
      x.completedSrsMessages = [⟨17, 1500, [⟨0, [], [⟨.finite 1, .finite 0⟩]⟩],
        some ⟨17, 1, 1000, 5, .rar, true⟩⟩] := by
  intro first second third calls events x
  have hnamed : ∀ record ∈ TaReporting.pushed calls, record.HasNamedSource := by
    intro record hrecord
    simp only [TaReporting.pushed, calls, List.filterMap_cons, List.filterMap_nil, List.mem_cons,
      List.not_mem_nil, or_false] at hrecord
    rcases hrecord with rfl | rfl | rfl <;> rfl
  have hevents : taMessages events = TaReporting.messages calls := by decide +kernel
  obtain ⟨arrived, hdecoded, -, -, hfiled, -⟩ := timing_advance_path 1 hnamed hevents
  have hboth : TaReporting.decoded calls = [first, second].map TaIndicationRecord.toData := by
    decide +kernel
  obtain rfl : arrived = [first, second] :=
    List.map_injective_iff.mpr TaIndicationRecord.toData_injective (hdecoded.symm.trans hboth)
  exact ⟨by decide +kernel, (hfiled 17).trans (by decide +kernel),
    (hfiled 4).trans (by decide +kernel), by decide +kernel⟩

end RunOran
