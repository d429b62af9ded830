import RunOran.Recovery
import RunOran.Reporting
import Mathlib.Data.Finset.Prod

/-!
# The backlog of a report service

The agent calls a service at its report ticks: a collection, and then one indication if there
is something to indicate. Between two ticks, `U` UEs with `n` antennas bring at most `U * n`
received streams, and references once; an indication takes away one stream at least, but not
more than one if two do not fit the payload together. So the backlog is bounded only if
`U * n ≤ 1`, and otherwise it may grow by `U * n - 1` streams with every tick
(`backlog_bounded_iff`).

The upper bound (`backlog_le`) counts the references by the keys that the service remembers.
The lower bound (`exists_backlog_ge`) is attained by sweeps of streams of the maximum length,
after each of which the collector is empty again.
-/

namespace RunOran

open SrsReportService

/-! ## Ticks -/

/-- `max_seq_length`: `272 * NRE / 2`. -/
def maxSeqLength : Nat := 1632

/-- A report tick: the additions since the last one, and whether the append succeeds. -/
structure Tick where
  adds : List AddCall
  appendOk : Bool
  deriving DecidableEq

/-- The additions are for these UEs and antennas, with sequences that the estimator makes. -/
def Tick.Within (ues ports : Finset UInt32) (t : Tick) : Prop :=
  ∀ call ∈ t.adds, call.rnti ∈ ues ∧ call.antennaId ∈ ports ∧
    call.generatedSrs.length ≤ maxSeqLength ∧ call.receivedSrs.length ≤ maxSeqLength

/-- How many times some additions complete the entry of a UE. -/
def completions (r : UInt32) : SrsDataCollector → List AddCall → Nat
  | _, [] => 0
  | c, call :: calls =>
    (if call.rnti = r ∧ (c.addSrsData call).isComplete r = true then 1 else 0) +
      completions r (c.addSrsData call) calls

namespace Du

/-- A tick: `collect_measurements`, and `get_indication_message` if `is_ind_msg_ready`. -/
def tick (d : Du) (t : Tick) : Du :=
  let collected := d.run (t.adds.map .addSrsData ++ [.collectMeasurements])
  if collected.service.isIndMsgReady then
    (collected.step (.getIndicationMessage t.appendOk)).1
  else collected

/-- Tick after tick. -/
def ticks (d : Du) (ts : List Tick) : Du := ts.foldl tick d

theorem ticks_concat (d : Du) (ts : List Tick) (t : Tick) :
    d.ticks (ts ++ [t]) = (d.ticks ts).tick t := List.foldl_concat ..

end Du

/-- The runs the bound is about: `ues` and `ports` as given, and no UE completes more than
one snapshot between two ticks. -/
def Admissible (config : GnbSrsConfig) (ues ports : Finset UInt32) (ts : List Tick) : Prop :=
  (∀ t ∈ ts, t.Within ues ports) ∧
    ∀ before t after, ts = before ++ t :: after →
      ∀ r, completions r ((Du.init config).ticks before).collector t.adds ≤ 1

/-- The number of streams that are queued after some ticks. -/
def backlog (config : GnbSrsConfig) (ts : List Tick) : Nat :=
  ((Du.init config).ticks ts).service.pendingItems.length

/-! ## What a tick does -/

namespace Du

/-- Additions reach the collector only. -/
theorem run_addSrsData (calls : List AddCall) :
    ∀ d : Du, d.run (calls.map .addSrsData) =
      ⟨d.collector.run (calls.map .addSrsData), d.service⟩ := by
  induction calls with
  | nil => exact fun _ => rfl
  | cons call calls ih => exact fun d => ih (d.step (.addSrsData call)).1

/-- The collector after the additions of a tick. -/
def filled (d : Du) (t : Tick) : SrsDataCollector := d.collector.run (t.adds.map .addSrsData)

/-- Without anything to indicate, an indication would change nothing. -/
theorem tick_eq (d : Du) (t : Tick) :
    d.tick t = ((step ⟨d.filled t, d.service⟩ .collectMeasurements).1.step
      (.getIndicationMessage t.appendOk)).1 := by
  have hcollected : d.run (t.adds.map .addSrsData ++ [.collectMeasurements]) =
      (step ⟨d.filled t, d.service⟩ .collectMeasurements).1 := by
    rw [run, Mealy.exec_concat, ← run, run_addSrsData, filled]
  rw [tick, hcollected]
  generalize (step ⟨d.filled t, d.service⟩ .collectMeasurements).1 = collected
  by_cases hready : collected.service.isIndMsgReady = true
  · rw [if_pos hready]
  · have hnil : collected.service.pendingItems = [] := by
      simpa [isIndMsgReady] using hready
    have hsame : (collected.step (.getIndicationMessage t.appendOk)).1 =
        ⟨collected.collector, ⟨(nextBatch collected.service.pendingItems).2,
          collected.service.generatedSentKeys⟩⟩ := by
      simp only [step, getIndicationMessage_eq]
    have hrest : (nextBatch []).2 = [] := rfl
    rw [if_neg hready, hsame, hnil, hrest, ← hnil]

/-- The complete entries leave the collector. -/
theorem collector_tick (d : Du) (t : Tick) :
    (d.tick t).collector = (d.filled t).getAllCompleteUeData.2 := by
  rw [tick_eq]
  rfl

/-- Their items join the queue, and the next batch leaves it. -/
theorem service_tick {d : Du} (hd : d.collector.WellFormed) (t : Tick) :
    (d.tick t).service =
      ⟨(nextBatch (d.service.pendingItems ++
          recordsItems d.service.generatedSentKeys (d.filled t).getAllCompleteUeData.1)).2,
        keysAfter d.service.generatedSentKeys (d.filled t).getAllCompleteUeData.1⟩ := by
  have hfilled : (d.filled t).WellFormed := hd.run _
  have hcollect := @step_collectMeasurements ⟨d.filled t, d.service⟩ hfilled
  rw [tick_eq]
  generalize (step ⟨d.filled t, d.service⟩ .collectMeasurements).1 = collected at hcollect
  have hindicate : (collected.step (.getIndicationMessage t.appendOk)).1.service =
      ⟨(nextBatch collected.service.pendingItems).2, collected.service.generatedSentKeys⟩ := by
    simp only [step, getIndicationMessage_eq]
  rw [hindicate, hcollect]

theorem wellFormed_ticks {d : Du} (hd : d.collector.WellFormed) (ts : List Tick) :
    (d.ticks ts).collector.WellFormed ∧
      (d.ticks ts).collector.numRxAntennas = d.collector.numRxAntennas := by
  induction ts using List.reverseRecOn with
  | nil => exact ⟨hd, rfl⟩
  | append_singleton ts t ih =>
    obtain ⟨hwell, hn⟩ := ih
    have hfilled : ((d.ticks ts).filled t).WellFormed := hwell.run _
    rw [ticks_concat, collector_tick]
    refine ⟨hfilled.step .getAllCompleteUeData, ?_⟩
    rw [← hn, SrsDataCollector.numRxAntennas, SrsDataCollector.config_getAllCompleteUeData]
    exact SrsDataCollector.numRxAntennas_run ..

end Du

/-! ## At most so many streams -/

/-- The entries are of these UEs and antennas. -/
def EntriesWithin (ues ports : Finset UInt32) (c : SrsDataCollector) : Prop :=
  ∀ r ue, c.entry r = some ue → r ∈ ues ∧ ∀ id ∈ antennaIds ue.antennaData, id ∈ ports

theorem EntriesWithin.addSrsData {ues ports : Finset UInt32} {c : SrsDataCollector}
    (h : EntriesWithin ues ports c) {call : AddCall} (hr : call.rnti ∈ ues)
    (hport : call.antennaId ∈ ports) : EntriesWithin ues ports (c.addSrsData call) := by
  intro r ue hue
  rw [SrsDataCollector.entry_addSrsData] at hue
  split at hue
  · rename_i heq
    obtain rfl := Option.some.inj hue
    refine ⟨heq ▸ hr, fun id hid => ?_⟩
    rcases mem_antennaIds_assignAntenna.mp hid with hold | rfl
    · split at hold
      · cases hold
      · cases hentry : c.entry r with
        | none =>
          rw [hentry] at hold
          cases hold
        | some u =>
          rw [hentry] at hold
          exact (h r u hentry).2 id hold
    · exact hport
  · exact h r ue hue

theorem EntriesWithin.run {ues ports : Finset UInt32} {calls : List AddCall} :
    ∀ {c : SrsDataCollector}, EntriesWithin ues ports c →
      (∀ call ∈ calls, call.rnti ∈ ues ∧ call.antennaId ∈ ports) →
        EntriesWithin ues ports (c.run (calls.map .addSrsData)) := by
  induction calls with
  | nil => exact fun h _ => h
  | cons call calls ih =>
    intro c h hcalls
    obtain ⟨hr, hport⟩ := hcalls call List.mem_cons_self
    exact ih (h.addSrsData hr hport) fun call' hcall' =>
      hcalls call' (List.mem_cons_of_mem _ hcall')

theorem EntriesWithin.getAllCompleteUeData {ues ports : Finset UInt32} {c : SrsDataCollector}
    (h : EntriesWithin ues ports c) : EntriesWithin ues ports c.getAllCompleteUeData.2 := by
  intro r ue hue
  rw [SrsDataCollector.entry_getAllCompleteUeData, Option.filter_eq_some_iff] at hue
  obtain ⟨hbefore, -⟩ := hue
  exact h r ue hbefore

/-- A collection returns one record per UE at most, with one stream per antenna at most. -/
theorem EntriesWithin.sum_length_le {ues ports : Finset UInt32} {c : SrsDataCollector}
    (hwell : c.WellFormed) (h : EntriesWithin ues ports c) :
    (c.getAllCompleteUeData.1.map fun ue => ue.antennaData.length).sum ≤ ues.card * ports.card := by
  have hrecord : ∀ ue ∈ c.getAllCompleteUeData.1, ue.rnti ∈ ues ∧
      ue.antennaData.length ≤ ports.card := by
    intro ue hue
    obtain ⟨r, hentry, -⟩ := SrsDataCollector.mem_getAllCompleteUeData.mp hue
    obtain ⟨hr, hports⟩ := h r ue hentry
    have hue := hwell r ue hentry
    refine ⟨hue.rnti_eq ▸ hr, ?_⟩
    rw [← length_antennaIds, ← List.toFinset_card_of_nodup hue.nodup]
    exact Finset.card_le_card fun id hid => hports id (List.mem_toFinset.mp hid)
  have hdistinct := hwell.nodup_rntis
  have hcount : c.getAllCompleteUeData.1.length ≤ ues.card := by
    rw [← List.length_map UeSrsData.rnti, ← List.toFinset_card_of_nodup hdistinct]
    apply Finset.card_le_card
    intro r hr
    obtain ⟨ue, hue, rfl⟩ := List.mem_map.mp (List.mem_toFinset.mp hr)
    exact (hrecord ue hue).1
  calc (c.getAllCompleteUeData.1.map fun ue => ue.antennaData.length).sum
      ≤ (c.getAllCompleteUeData.1.map fun ue => ue.antennaData.length).length • ports.card :=
        List.sum_le_card_nsmul _ _ fun len hlen => by
          obtain ⟨ue, hue, rfl⟩ := List.mem_map.mp hlen
          exact (hrecord ue hue).2
    _ = c.getAllCompleteUeData.1.length * ports.card := by
        rw [List.length_map]
        rfl
    _ ≤ ues.card * ports.card := Nat.mul_le_mul_right _ hcount

namespace SrsReportService

/-- The references of a record are as many as its keys are new. -/
theorem length_recordItems (sent : Finset UInt64) {ue : UeSrsData}
    (h : (antennaIds ue.antennaData).Nodup) :
    (recordItems sent ue).length + sent.card =
      (sent ∪ recordKeys ue).card + ue.antennaData.length := by
  have hkeys : ((unsent sent ue.rnti (sortedAntennas ue.antennaData)).map
      fun a => antennaKey ue.rnti a.antennaId).toFinset = recordKeys ue \ sent := by
    ext key
    simp only [List.mem_toFinset, List.mem_map, unsent, List.mem_filter, decide_eq_true_eq,
      (sortedAntennas_perm ue.antennaData).mem_iff, Finset.mem_sdiff, mem_recordKeys]
    refine ⟨?_, ?_⟩
    · rintro ⟨a, ⟨ha, hkey⟩, rfl⟩
      exact ⟨⟨a, ha, rfl⟩, hkey⟩
    · rintro ⟨⟨a, ha, rfl⟩, hkey⟩
      exact ⟨a, ⟨ha, hkey⟩, rfl⟩
  have hdistinct : ((unsent sent ue.rnti (sortedAntennas ue.antennaData)).map
      fun a => antennaKey ue.rnti a.antennaId).Nodup := by
    have hids := (nodup_antennaIds_sortedAntennas h).sublist
      ((List.filter_sublist (p := fun a => antennaKey ue.rnti a.antennaId ∉ sent)
        (l := sortedAntennas ue.antennaData)).map SrsAntennaData.antennaId)
    rw [List.Nodup, List.pairwise_map] at hids ⊢
    exact hids.imp fun hne heq => hne (antennaKey_inj.mp heq).2
  have hcard := Finset.card_sdiff_add_card (recordKeys ue) sent
  rw [← hkeys, List.toFinset_card_of_nodup hdistinct, List.length_map, Finset.union_comm] at hcard
  rw [recordItems, List.length_append, List.length_map, List.length_map, ← hcard,
    (sortedAntennas_perm ue.antennaData).length_eq]
  omega

theorem length_recordsItems {records : List UeSrsData} :
    (∀ ue ∈ records, (antennaIds ue.antennaData).Nodup) → ∀ sent : Finset UInt64,
      (recordsItems sent records).length + sent.card =
        (keysAfter sent records).card + (records.map fun ue => ue.antennaData.length).sum := by
  induction records with
  | nil =>
    intro _ sent
    simp [recordsItems, keysAfter]
  | cons ue records ih =>
    intro h sent
    have hfirst := length_recordItems sent (h ue List.mem_cons_self)
    have hrest := ih (fun ue' hue' => h ue' (List.mem_cons_of_mem _ hue')) (sent ∪ recordKeys ue)
    have hkeys : keysAfter sent (ue :: records) = keysAfter (sent ∪ recordKeys ue) records := rfl
    rw [recordsItems, List.length_append, hkeys, List.map_cons, List.sum_cons]
    omega

/-- Every key is one of the UEs and antennas. -/
def KeysWithin (ues ports : Finset UInt32) (sent : Finset UInt64) : Prop :=
  ∀ key ∈ sent, ∃ r ∈ ues, ∃ id ∈ ports, antennaKey r id = key

theorem KeysWithin.card_le {ues ports : Finset UInt32} {sent : Finset UInt64}
    (h : KeysWithin ues ports sent) : sent.card ≤ ues.card * ports.card := by
  have hsub : sent ⊆ (ues ×ˢ ports).image fun p => antennaKey p.1 p.2 := by
    intro key hkey
    obtain ⟨r, hr, id, hid, rfl⟩ := h key hkey
    exact Finset.mem_image.mpr ⟨(r, id), Finset.mk_mem_product hr hid, rfl⟩
  calc sent.card ≤ ((ues ×ˢ ports).image fun p => antennaKey p.1 p.2).card :=
        Finset.card_le_card hsub
    _ ≤ (ues ×ˢ ports).card := Finset.card_image_le
    _ = ues.card * ports.card := Finset.card_product ..

theorem subset_keysAfter (records : List UeSrsData) :
    ∀ sent : Finset UInt64, sent ⊆ keysAfter sent records := by
  induction records with
  | nil => exact fun _ => Finset.Subset.refl _
  | cons ue records ih => exact fun sent => Finset.subset_union_left.trans (ih _)

theorem KeysWithin.keysAfter {ues ports : Finset UInt32} {records : List UeSrsData} :
    (∀ ue ∈ records, ue.rnti ∈ ues ∧ ∀ id ∈ antennaIds ue.antennaData, id ∈ ports) →
      ∀ {sent : Finset UInt64}, KeysWithin ues ports sent →
        KeysWithin ues ports (keysAfter sent records) := by
  induction records with
  | nil => exact fun _ _ h => h
  | cons ue records ih =>
    intro hrecords sent h
    refine ih (fun ue' hue' => hrecords ue' (List.mem_cons_of_mem _ hue')) fun key hkey => ?_
    rcases Finset.mem_union.mp hkey with hold | hnew
    · exact h key hold
    · obtain ⟨a, ha, rfl⟩ := mem_recordKeys.mp hnew
      obtain ⟨hr, hports⟩ := hrecords ue List.mem_cons_self
      exact ⟨ue.rnti, hr, a.antennaId, hports _ (List.mem_map_of_mem ha), rfl⟩

/-- An indication leaves nothing or takes at least one item away. -/
theorem length_nextBatch_le (items : List SrsStreamItem) :
    (nextBatch items).2 = [] ∨ (nextBatch items).2.length + 1 ≤ items.length := by
  by_cases hnil : items = []
  · rw [hnil]
    exact Or.inl rfl
  · have hlen := congrArg List.length (nextBatch_append items)
    have hpos := List.length_pos_of_ne_nil (nextBatch_ne_nil hnil)
    rw [List.length_append] at hlen
    exact Or.inr (by omega)

end SrsReportService

/-- What a tick adds to the queue: its new references, and the streams of its records but one. -/
theorem length_tick_le {ues ports : Finset UInt32} {d : Du} {t : Tick}
    (hd : d.collector.WellFormed) (hentries : EntriesWithin ues ports (d.filled t)) :
    (d.tick t).service.pendingItems.length + d.service.generatedSentKeys.card ≤
      d.service.pendingItems.length + (d.tick t).service.generatedSentKeys.card +
        (ues.card * ports.card - 1) := by
  have hwell : (d.filled t).WellFormed := hd.run _
  have hdistinct : ∀ ue ∈ (d.filled t).getAllCompleteUeData.1,
      (antennaIds ue.antennaData).Nodup := fun ue hue =>
    (Du.wellFormed_of_mem_getAllCompleteUeData hwell hue).1.nodup
  rw [Du.service_tick hd]
  have hkeys := Finset.card_le_card
    (subset_keysAfter (d.filled t).getAllCompleteUeData.1 d.service.generatedSentKeys)
  have hstreams := hentries.sum_length_le hwell
  -- what arrives, and what leaves
  have harrive := length_recordsItems hdistinct d.service.generatedSentKeys
  have hleave := length_nextBatch_le (d.service.pendingItems ++
    recordsItems d.service.generatedSentKeys (d.filled t).getAllCompleteUeData.1)
  simp only
  rcases hleave with hnone | hless
  · rw [hnone, List.length_nil]
    omega
  · rw [List.length_append] at hless
    omega

/-- **The upper bound.** -/
theorem backlog_le_card (config : GnbSrsConfig) {ues ports : Finset UInt32} {ts : List Tick} :
    (∀ t ∈ ts, t.Within ues ports) →
      let d := (Du.init config).ticks ts
      EntriesWithin ues ports d.collector ∧ KeysWithin ues ports d.service.generatedSentKeys ∧
        d.service.pendingItems.length ≤
          d.service.generatedSentKeys.card + ts.length * (ues.card * ports.card - 1) := by
  induction ts using List.reverseRecOn with
  | nil =>
    refine fun _ => ⟨fun r ue hue => ?_, fun key hkey => ?_, ?_⟩
    · have hnone := SrsDataCollector.entry_init config r
      exact absurd (hnone.symm.trans hue) nofun
    · exact absurd hkey (Finset.notMem_empty _)
    · simp [Du.ticks, Du.init, SrsReportService.init]
  | append_singleton ts t ih =>
    intro hts d
    have hd : d = ((Du.init config).ticks ts).tick t := Du.ticks_concat ..
    obtain ⟨hentries, hkeys, hlen⟩ := ih fun t' ht' => hts t' (List.mem_append_left _ ht')
    obtain ⟨hwell, -⟩ := @Du.wellFormed_ticks (Du.init config)
      (SrsDataCollector.wellFormed_init config) ts
    have hfilledWell : (((Du.init config).ticks ts).filled t).WellFormed := hwell.run _
    have hfilled : EntriesWithin ues ports (((Du.init config).ticks ts).filled t) := by
      apply hentries.run
      intro call hcall
      obtain ⟨hr, hport, -⟩ := hts t (by simp) call hcall
      exact ⟨hr, hport⟩
    have hrecords : ∀ ue ∈ (((Du.init config).ticks ts).filled t).getAllCompleteUeData.1,
        ue.rnti ∈ ues ∧ ∀ id ∈ antennaIds ue.antennaData, id ∈ ports := by
      intro ue hue
      obtain ⟨r, hentry, -⟩ := SrsDataCollector.mem_getAllCompleteUeData.mp hue
      rw [(hfilledWell r ue hentry).rnti_eq]
      exact hfilled r ue hentry
    have hgrow := length_tick_le hwell hfilled
    rw [hd]
    refine ⟨?_, ?_, ?_⟩
    · rw [Du.collector_tick]
      exact hfilled.getAllCompleteUeData
    · rw [Du.service_tick hwell]
      exact hkeys.keysAfter hrecords
    · rw [List.length_append, List.length_singleton, Nat.add_mul, Nat.one_mul]
      omega

/-! ## And no fewer -/

/-- The additions of one UE. -/
def callsOf (r : UInt32) (calls : List AddCall) : List AddCall :=
  calls.filter fun call => call.rnti = r

theorem callsOf_nil (r : UInt32) : callsOf r [] = [] := rfl

theorem callsOf_cons (r : UInt32) (call : AddCall) (calls : List AddCall) :
    callsOf r (call :: calls) =
      if call.rnti = r then call :: callsOf r calls else callsOf r calls := by
  simp only [callsOf, List.filter_cons, decide_eq_true_eq]

theorem callsOf_append (r : UInt32) (calls calls' : List AddCall) :
    callsOf r (calls ++ calls') = callsOf r calls ++ callsOf r calls' := List.filter_append ..

/-- The antennas that an entry has gathered towards its next completion. -/
def gathered (n : Nat) (e : Option UeSrsData) : Nat :=
  match e with
  | none => 0
  | some ue => if ue.isFull n then 0 else ue.antennaData.length

theorem length_add_le (n : Nat) (e : Option UeSrsData) (call : AddCall) :
    ((e.getD UeSrsData.zero).add n call).antennaData.length ≤ gathered n e + 1 := by
  refine le_trans (length_assignAntenna_le _ _) (Nat.add_le_add_right ?_ 1)
  cases e with
  | none =>
    have hzero : UeSrsData.zero.antennaData = [] := rfl
    rw [Option.getD_none, hzero, ite_self]
    exact Nat.zero_le _
  | some ue =>
    rw [Option.getD_some, gathered]
    split
    · exact Nat.le_refl 0
    · exact Nat.le_refl _

/-- Every completion was paid for by as many additions as there are antennas. -/
theorem completions_mul_le (r : UInt32) (calls : List AddCall) :
    ∀ c : SrsDataCollector, completions r c calls * c.numRxAntennas ≤
      gathered c.numRxAntennas (c.entry r) + (callsOf r calls).length := by
  induction calls with
  | nil =>
    intro c
    rw [completions, Nat.zero_mul]
    exact Nat.zero_le _
  | cons call calls ih =>
    intro c
    have hrest : completions r (c.addSrsData call) calls * c.numRxAntennas ≤
        gathered c.numRxAntennas ((c.addSrsData call).entry r) +
          (callsOf r calls).length := ih (c.addSrsData call)
    rw [completions, Nat.add_mul]
    rw [SrsDataCollector.entry_addSrsData] at hrest
    by_cases hr : call.rnti = r
    · have hlen := length_add_le c.numRxAntennas (c.entry r) call
      have hcomplete : (c.addSrsData call).isComplete r =
          ((c.entry r).getD UeSrsData.zero |>.add c.numRxAntennas call).isFull c.numRxAntennas := by
        have hentry := SrsDataCollector.entry_addSrsData c call r
        rw [if_pos hr, SrsDataCollector.entry] at hentry
        rw [SrsDataCollector.isComplete, hentry]
        rfl
      rw [if_pos hr, gathered] at hrest
      rw [hcomplete, callsOf_cons, if_pos hr, List.length_cons]
      cases hfull : ((c.entry r).getD UeSrsData.zero |>.add c.numRxAntennas call).isFull
          c.numRxAntennas with
      | true =>
        rw [hfull, if_pos rfl] at hrest
        have henough : c.numRxAntennas ≤ _ := of_decide_eq_true hfull
        rw [if_pos ⟨hr, rfl⟩, Nat.one_mul]
        omega
      | false =>
        rw [hfull, if_neg Bool.false_ne_true] at hrest
        rw [if_neg fun h => Bool.false_ne_true h.2, Nat.zero_mul]
        omega
    · rw [if_neg hr] at hrest
      rw [if_neg fun h => hr h.1, Nat.zero_mul, Nat.zero_add, callsOf_cons, if_neg hr]
      exact hrest

/-- What becomes of a UE depends on its own additions. -/
theorem entry_run_callsOf (c : SrsDataCollector) (calls : List AddCall) (r : UInt32) :
    (c.run (calls.map .addSrsData)).entry r =
      (c.run ((callsOf r calls).map .addSrsData)).entry r := by
  induction calls using List.reverseRecOn with
  | nil => rfl
  | append_singleton calls call ih =>
    rw [List.map_append, List.map_singleton, SrsDataCollector.entry_run_concat, ih,
      callsOf_append, callsOf_cons]
    by_cases hr : call.rnti = r
    · rw [if_pos hr, List.map_append, callsOf_nil, List.map_singleton,
        SrsDataCollector.entry_run_concat]
    · rw [if_neg hr, callsOf_nil, List.append_nil]
      exact if_neg hr

/-- A sweep of each UE. -/
def sweeps (samples : List Cf) (ues ports : List UInt32) : List AddCall :=
  ues.flatMap fun r => sweep r samples ports

theorem callsOf_sweep (samples : List Cf) (ports : List UInt32) (r r' : UInt32) :
    callsOf r (sweep r' samples ports) =
      if r' = r then sweep r' samples ports else [] := by
  split
  · rename_i hr
    apply List.filter_eq_self.mpr
    intro call hcall
    rw [(of_mem_sweep hcall).1]
    exact decide_eq_true hr
  · rename_i hr
    apply List.filter_eq_nil_iff.mpr
    intro call hcall
    rw [(of_mem_sweep hcall).1, decide_eq_true_eq]
    exact hr

theorem callsOf_sweeps (samples : List Cf) {ues : List UInt32} (ports : List UInt32)
    (r : UInt32) :
    ues.Nodup → callsOf r (sweeps samples ues ports) =
      if r ∈ ues then sweep r samples ports else [] := by
  induction ues with
  | nil => exact fun _ => rfl
  | cons r' ues ih =>
    intro hnodup
    rw [List.nodup_cons] at hnodup
    rw [sweeps, List.flatMap_cons, ← sweeps, callsOf_append, callsOf_sweep, ih hnodup.2]
    by_cases hr : r' = r
    · subst hr
      rw [if_pos rfl, if_neg hnodup.1, if_pos List.mem_cons_self, List.append_nil]
    · rw [if_neg hr, List.nil_append]
      simp only [List.mem_cons, Ne.symm hr, false_or]

/-- Streams of the maximum length leave the queue one by one. -/
theorem length_le_nextBatch {items : List SrsStreamItem}
    (h : ∀ item ∈ items, item.srs.length = maxSeqLength) :
    items.length ≤ (nextBatch items).2.length + 1 := by
  match items with
  | [] => exact Nat.zero_le _
  | [a] => exact Nat.le_refl _
  | a :: b :: rest =>
    have hbytes := four_mul_samples_le_length [a, b]
    have ha := h a (by simp)
    have hb := h b (by simp)
    simp only [List.map_cons, List.map_nil, List.sum_cons, List.sum_nil, ha, hb,
      maxSeqLength] at hbytes
    -- the second item would make the message too long
    have hlong : ¬ (sameBatch a b = true ∧
        (serializeSrsIndication [a]).length < maxIndicationPayloadBytes ∧
        (serializeSrsIndication [a, b]).length ≤ maxIndicationPayloadBytes) := by
      rintro ⟨-, -, hfit⟩
      rw [length_serializeSrsIndication, maxIndicationPayloadBytes] at hfit
      omega
    rw [nextBatch, if_neg hlong]
    exact Nat.le_refl _

/-- Between two ticks of sweeps: no entries, and only long streams in the queue. -/
structure Idle (n : Nat) (d : Du) : Prop where
  wellFormed : d.collector.WellFormed
  numRxAntennas_eq : d.collector.numRxAntennas = n
  entry_eq : ∀ r, d.collector.entry r = none
  long : ∀ item ∈ d.service.pendingItems, item.srs.length = maxSeqLength

section Sweeps

variable (samples : List Cf) {ues ports : List UInt32} {d : Du}

/-- The entries after the additions of a tick. -/
theorem Idle.entry_filled (h : Idle ports.length d) (hues : ues.Nodup) (hports : ports.Nodup)
    (hne : ports ≠ []) (appendOk : Bool) (r : UInt32) :
    (d.filled ⟨sweeps samples ues ports, appendOk⟩).entry r =
      if r ∈ ues then some (passRecord r (sweep r samples ports)) else none := by
  rw [Du.filled, entry_run_callsOf, callsOf_sweeps samples ports r hues]
  by_cases hr : r ∈ ues
  · rw [if_pos hr, if_pos hr]
    refine entry_run_pass ?_ ?_ (fun call hcall => (of_mem_sweep hcall).1) ?_ ?_
    · rw [h.entry_eq r]
      rintro ue ⟨⟩
    · intro hnil
      have hlen := congrArg List.length hnil
      rw [length_sweep] at hlen
      exact hne (List.length_eq_zero_iff.mp hlen)
    · rw [antennaId_sweep]
      exact hports
    · rw [length_sweep, h.numRxAntennas_eq]
  · rw [if_neg hr, if_neg hr]
    exact h.entry_eq r

theorem isFull_passRecord_sweep (r : UInt32) :
    (passRecord r (sweep r samples ports)).isFull ports.length = true := by
  rw [isFull_passRecord, length_sweep]
  exact decide_eq_true (Nat.le_refl _)

section Collected

variable (h : Idle ports.length d) (hues : ues.Nodup) (hports : ports.Nodup) (hne : ports ≠ [])
  (appendOk : Bool)

include h hues hports hne

/-- The collection returns the sweep of every UE. -/
theorem Idle.mem_collected (ue : UeSrsData) :
    ue ∈ (d.filled ⟨sweeps samples ues ports, appendOk⟩).getAllCompleteUeData.1 ↔
      ∃ r ∈ ues, passRecord r (sweep r samples ports) = ue := by
  have hn : (d.filled ⟨sweeps samples ues ports, appendOk⟩).numRxAntennas = ports.length := by
    rw [← h.numRxAntennas_eq]
    exact SrsDataCollector.numRxAntennas_run ..
  have hentry := h.entry_filled samples hues hports hne appendOk
  rw [SrsDataCollector.mem_getAllCompleteUeData, hn]
  refine ⟨?_, ?_⟩
  · rintro ⟨r, hr, -⟩
    rw [hentry r] at hr
    split at hr
    · rename_i hmem
      exact ⟨r, hmem, Option.some.inj hr⟩
    · cases hr
  · rintro ⟨r, hr, rfl⟩
    exact ⟨r, (hentry r).trans (if_pos hr), isFull_passRecord_sweep samples r⟩

/-- So there are as many streams as UEs and ports, and each of them is enqueued. -/
theorem Idle.length_enqueued :
    d.service.pendingItems.length + ues.length * ports.length ≤
      (d.service.pendingItems ++ recordsItems d.service.generatedSentKeys
        (d.filled ⟨sweeps samples ues ports, appendOk⟩).getAllCompleteUeData.1).length := by
  have hmem := h.mem_collected samples hues hports hne appendOk
  have hwell : (d.filled ⟨sweeps samples ues ports, appendOk⟩).WellFormed := h.wellFormed.run _
  have hdistinct : ∀ ue ∈ (d.filled ⟨sweeps samples ues ports, appendOk⟩).getAllCompleteUeData.1,
      (antennaIds ue.antennaData).Nodup := fun ue hue =>
    (Du.wellFormed_of_mem_getAllCompleteUeData hwell hue).1.nodup
  generalize (d.filled ⟨sweeps samples ues ports, appendOk⟩).getAllCompleteUeData.1 = records
    at hmem hdistinct ⊢
  have hcount : ues.length ≤ records.length := by
    have hnodup : (ues.map fun r => passRecord r (sweep r samples ports)).Nodup :=
      hues.map fun r r' heq => congrArg UeSrsData.rnti heq
    rw [← List.length_map fun r => passRecord r (sweep r samples ports)]
    apply hnodup.length_le_of_subset
    intro ue hue
    obtain ⟨r, hr, rfl⟩ := List.mem_map.mp hue
    exact (hmem _).mpr ⟨r, hr, rfl⟩
  have hwidth : ∀ ue ∈ records, ue.antennaData.length = ports.length := by
    intro ue hue
    obtain ⟨r, -, rfl⟩ := (hmem ue).mp hue
    rw [passRecord, List.length_map, length_sweep]
  have hsum : (records.map fun ue => ue.antennaData.length).sum =
      records.length * ports.length := by
    rw [List.map_congr_left hwidth, List.map_const', List.sum_replicate]
    rfl
  have harrive := length_recordsItems hdistinct d.service.generatedSentKeys
  have hkeys : d.service.generatedSentKeys.card ≤
      (keysAfter d.service.generatedSentKeys records).card :=
    Finset.card_le_card (subset_keysAfter records _)
  have hmul := Nat.mul_le_mul_right ports.length hcount
  rw [List.length_append]
  omega

variable (hsamples : samples.length = maxSeqLength)

include hsamples

/-- All of them are long. -/
theorem Idle.long_enqueued :
    ∀ item ∈ d.service.pendingItems ++ recordsItems d.service.generatedSentKeys
      (d.filled ⟨sweeps samples ues ports, appendOk⟩).getAllCompleteUeData.1,
      item.srs.length = maxSeqLength := by
  intro item hitem
  rcases List.mem_append.mp hitem with hold | hnew
  · exact h.long item hold
  · obtain ⟨ue, hue, a, ha, hitem⟩ := exists_of_mem_recordsItems hnew
    obtain ⟨r, -, rfl⟩ := (h.mem_collected samples hues hports hne appendOk ue).mp hue
    obtain ⟨call, hcall, rfl⟩ := List.mem_map.mp ha
    obtain ⟨-, -, hgenerated, hreceived⟩ := of_mem_sweep hcall
    rcases hitem with rfl | rfl
    · exact (congrArg List.length hgenerated).trans hsamples
    · exact (congrArg List.length hreceived).trans hsamples

/-- A tick of sweeps: every UE is collected, and at most one stream leaves. -/
theorem Idle.tick :
    let d' := d.tick ⟨sweeps samples ues ports, appendOk⟩
    Idle ports.length d' ∧
      d.service.pendingItems.length + ues.length * ports.length ≤
        d'.service.pendingItems.length + 1 := by
  intro d'
  have hlong := h.long_enqueued samples hues hports hne appendOk hsamples
  have hlength := h.length_enqueued samples hues hports hne appendOk
  have hqueue : d'.service.pendingItems =
      (nextBatch (d.service.pendingItems ++ recordsItems d.service.generatedSentKeys
        (d.filled ⟨sweeps samples ues ports, appendOk⟩).getAllCompleteUeData.1)).2 := by
    rw [Du.service_tick h.wellFormed]
  have hn : (d.filled ⟨sweeps samples ues ports, appendOk⟩).numRxAntennas = ports.length := by
    rw [← h.numRxAntennas_eq]
    exact SrsDataCollector.numRxAntennas_run ..
  refine ⟨?_, ?_⟩
  · refine ⟨?_, ?_, fun r => ?_, fun item hitem => ?_⟩
    · rw [Du.collector_tick]
      exact (h.wellFormed.run _).step .getAllCompleteUeData
    · rw [Du.collector_tick, ← hn]
      rfl
    · rw [Du.collector_tick, SrsDataCollector.entry_getAllCompleteUeData,
        h.entry_filled samples hues hports hne appendOk r, hn]
      split
      · rw [Option.filter_some, isFull_passRecord_sweep]
        rfl
      · rfl
    · apply hlong item
      rw [hqueue] at hitem
      rw [← nextBatch_append (d.service.pendingItems ++ _)]
      exact List.mem_append_right _ hitem
  · have hleave := length_le_nextBatch hlong
    rw [hqueue]
    omega

end Collected

end Sweeps

/-! ## The bound -/

/-- Samples for a sequence of the maximum length. -/
def longSequence : List Cf := List.replicate maxSeqLength ⟨.finite 0, .finite 0⟩

/-- A tick in which every UE sweeps over the ports with sequences of the maximum length. -/
def sweepTick (ues ports : List UInt32) : Tick := ⟨sweeps longSequence ues ports, true⟩

section Sweeping

variable {config : GnbSrsConfig} (ues : Finset UInt32) {ports : Finset UInt32}
  (hports : ports.card = config.numRxAntennas.toNat) (hne : ports.Nonempty)

theorem within_sweepTick : (sweepTick ues.toList ports.toList).Within ues ports := by
  intro call hcall
  obtain ⟨r, hr, hmem⟩ := List.mem_flatMap.mp hcall
  obtain ⟨hrnti, hport, hgenerated, hreceived⟩ := of_mem_sweep hmem
  refine ⟨hrnti ▸ Finset.mem_toList.mp hr, Finset.mem_toList.mp hport, ?_, ?_⟩
  · rw [hgenerated, longSequence, List.length_replicate]
  · rw [hreceived, longSequence, List.length_replicate]

include hports hne

/-- Tick by tick, all streams but one stay in the queue. -/
theorem idle_sweepTicks {ts : List Tick} :
    (∀ t ∈ ts, t = sweepTick ues.toList ports.toList) →
      Idle ports.toList.length ((Du.init config).ticks ts) ∧
        ts.length * (ues.card * ports.card - 1) ≤ backlog config ts := by
  induction ts using List.reverseRecOn with
  | nil =>
    refine fun _ => ⟨⟨SrsDataCollector.wellFormed_init config, ?_,
      SrsDataCollector.entry_init config, fun item hitem => ?_⟩, ?_⟩
    · rw [Finset.length_toList, hports]
      rfl
    · cases hitem
    · rw [List.length_nil, Nat.zero_mul]
      exact Nat.zero_le _
  | append_singleton ts t ih =>
    intro hts
    obtain ⟨hidle, hlen⟩ := ih fun t' ht' => hts t' (List.mem_append_left _ ht')
    have hnil : ports.toList ≠ [] := mt Finset.toList_eq_nil.mp hne.ne_empty
    obtain ⟨hidle', hgrow⟩ := hidle.tick longSequence ues.nodup_toList
      ports.nodup_toList hnil true List.length_replicate
    have hlast : (Du.init config).ticks (ts ++ [t]) =
        ((Du.init config).ticks ts).tick ⟨sweeps longSequence ues.toList ports.toList, true⟩ := by
      rw [Du.ticks_concat, hts t (by simp), sweepTick]
    rw [backlog] at hlen ⊢
    rw [Finset.length_toList, Finset.length_toList] at hgrow
    rw [hlast, List.length_append, List.length_singleton, Nat.add_mul, Nat.one_mul]
    refine ⟨hidle', ?_⟩
    generalize ues.card * ports.card = streams at hlen hgrow ⊢
    rcases Nat.eq_zero_or_pos streams with rfl | hpos
    · rw [Nat.zero_sub, Nat.mul_zero, Nat.add_zero]
      exact Nat.zero_le _
    · omega

/-- In none of them does a UE complete two snapshots. -/
theorem admissible_sweepTicks (k : Nat) :
    Admissible config ues ports (List.replicate k (sweepTick ues.toList ports.toList)) := by
  refine ⟨fun t ht => List.eq_of_mem_replicate ht ▸ within_sweepTick ues, ?_⟩
  intro before t after heq r
  have hall : ∀ t' ∈ before ++ t :: after, t' = sweepTick ues.toList ports.toList := by
    intro t' ht'
    rw [← heq] at ht'
    exact List.eq_of_mem_replicate ht'
  obtain ⟨hidle, -⟩ := idle_sweepTicks ues hports hne
    fun t' ht' => hall t' (List.mem_append_left _ ht')
  have hpaid := completions_mul_le r t.adds ((Du.init config).ticks before).collector
  have hcalls : (callsOf r t.adds).length ≤ ports.card := by
    rw [hall t (by simp), sweepTick, callsOf_sweeps _ _ _ ues.nodup_toList]
    split
    · rw [length_sweep, Finset.length_toList]
    · exact Nat.zero_le _
  rw [hidle.entry_eq r, hidle.numRxAntennas_eq, Finset.length_toList, gathered, Nat.zero_add]
    at hpaid
  have hpos := hne.card_pos
  -- two snapshots take twice as many additions as a sweep has
  by_contra hmany
  have htwo : 2 * ports.card ≤ completions r ((Du.init config).ticks before).collector t.adds *
      ports.card := Nat.mul_le_mul_right _ (by omega)
  omega

end Sweeping

section Bound

variable (config : GnbSrsConfig) (ues : Finset UInt32) {ports : Finset UInt32}

/-- **Upper bound**: the references, and all but one of the streams of each tick. -/
theorem backlog_le {ts : List Tick} (hts : Admissible config ues ports ts) :
    backlog config ts ≤
      ues.card * ports.card + ts.length * (ues.card * ports.card - 1) := by
  obtain ⟨-, hkeys, hlen⟩ := backlog_le_card config hts.1
  exact hlen.trans (Nat.add_le_add_right hkeys.card_le _)

/-- **Lower bound**: there are runs of any length that attain the growth. -/
theorem exists_backlog_ge (hports : ports.card = config.numRxAntennas.toNat) (k : Nat) :
    ∃ ts, Admissible config ues ports ts ∧ ts.length = k ∧
      k * (ues.card * ports.card - 1) ≤ backlog config ts := by
  rcases ports.eq_empty_or_nonempty with rfl | hne
  · -- no antennas, no streams
    refine ⟨List.replicate k ⟨[], true⟩, ⟨fun t ht => ?_, fun before t after heq r => ?_⟩,
      List.length_replicate, ?_⟩
    · rw [List.eq_of_mem_replicate ht]
      exact fun call hcall => by cases hcall
    · have ht : t ∈ List.replicate k (⟨[], true⟩ : Tick) := heq ▸ by simp
      rw [List.eq_of_mem_replicate ht]
      exact Nat.zero_le _
    · rw [Finset.card_empty, Nat.mul_zero, Nat.zero_sub, Nat.mul_zero]
      exact Nat.zero_le _
  · have hall : ∀ t ∈ List.replicate k (sweepTick ues.toList ports.toList),
        t = sweepTick ues.toList ports.toList := fun t ht => List.eq_of_mem_replicate ht
    obtain ⟨-, hlen⟩ := idle_sweepTicks ues hports hne hall
    rw [List.length_replicate] at hlen
    exact ⟨_, admissible_sweepTicks ues hports hne k, List.length_replicate, hlen⟩

/-- With two streams or more per tick there is no bound. -/
theorem not_bounded (hports : ports.card = config.numRxAntennas.toNat)
    (hmany : 1 < ues.card * ports.card) :
    ¬ ∃ bound, ∀ ts, Admissible config ues ports ts → backlog config ts ≤ bound := by
  rintro ⟨bound, hbound⟩
  obtain ⟨ts, hts, -, hlen⟩ := exists_backlog_ge config ues hports (bound + 1)
  have hgrow : bound + 1 ≤ (bound + 1) * (ues.card * ports.card - 1) :=
    Nat.le_mul_of_pos_right _ (by omega)
  exact absurd (hbound ts hts) (by omega)

end Bound

/-- **The backlog is bounded over all runs exactly if there is at most one stream per tick**;
in general it is at most `U * n` and `U * n - 1` for each tick, and this growth is attained. -/
theorem backlog_bounded_iff (config : GnbSrsConfig) (ues ports : Finset UInt32)
    (hports : ports.card = config.numRxAntennas.toNat) :
    ((∃ bound, ∀ ts, Admissible config ues ports ts → backlog config ts ≤ bound) ↔
      ues.card * ports.card ≤ 1) ∧
    (∀ ts, Admissible config ues ports ts →
      backlog config ts ≤ ues.card * ports.card + ts.length * (ues.card * ports.card - 1)) ∧
    ∀ k, ∃ ts, Admissible config ues ports ts ∧ ts.length = k ∧
      k * (ues.card * ports.card - 1) ≤ backlog config ts := by
  refine ⟨⟨fun hbounded => ?_, fun hfew => ⟨1, fun ts hts => ?_⟩⟩, fun _ => backlog_le config ues,
    exists_backlog_ge config ues hports⟩
  · by_contra hmany
    exact not_bounded config ues hports (Nat.lt_of_not_le hmany) hbounded
  · have hle := backlog_le config ues hts
    rw [Nat.sub_eq_zero_of_le hfew, Nat.mul_zero] at hle
    omega

/-- One UE with one antenna. -/
theorem backlog_bounded_one_ue :
    ∃ bound, ∀ ts, Admissible ⟨1, 0, 0, ⟨0⟩, ⟨0⟩, ⟨0⟩⟩ {17} {0} ts →
      backlog ⟨1, 0, 0, ⟨0⟩, ⟨0⟩, ⟨0⟩⟩ ts ≤ bound :=
  (backlog_bounded_iff ⟨1, 0, 0, ⟨0⟩, ⟨0⟩, ⟨0⟩⟩ {17} {0} rfl).1.mpr (by decide)

/-- Two UEs with one antenna each outrun the service. -/
theorem backlog_of_two_ues_is_unbounded :
    ¬ ∀ U n : Nat, ∃ bound, ∀ (config : GnbSrsConfig) (ues ports : Finset UInt32),
      ues.card = U → ports.card = n → config.numRxAntennas.toNat = n →
        ∀ ts, Admissible config ues ports ts → backlog config ts ≤ bound := by
  intro hall
  obtain ⟨bound, hbound⟩ := hall 2 1
  exact not_bounded ⟨1, 0, 0, ⟨0⟩, ⟨0⟩, ⟨0⟩⟩ {17, 18} (Finset.card_singleton 0) (by decide)
    ⟨bound, hbound _ _ _ rfl rfl rfl⟩

end RunOran
