import RunOran.Delivery
import RunOran.Freshness
import RunOran.Reporting

/-!
# Which reference a received stream is paired with

An estimate hands its reference and its received stream to the collector in one call, and
they part there: the service sends the reference of an antenna once, with the first record
that has it, and the xApp keeps it. So a received stream of a later record is paired with the
reference of the first (`reference_pairing`). That is the reference it was added with exactly
as long as the references of an antenna do not change.

The proof follows a snapshot back to the additions: its streams are items that the messages
decode to (`completed_traced`), those were enqueued (`exists_sent`), what is enqueued is a
function of the records (`firstReference_of_mem_recordsItems`), and the records hold what was
added (`fromAdditions_of_mem_records`).
-/

namespace RunOran

/-! ## From the snapshots to the items -/

/-- The streams of a snapshot are streams of these items, for the same antennas. -/
def Traced (items : List SrsStreamItem) (s : Snapshot) : Prop :=
  ∀ a ∈ s.antennaData,
    (∃ g ∈ items, g.IsReferenceOf s.rnti a.antennaId ∧ g.srs = a.generatedSrs) ∧
      ∃ item ∈ receivedOf s.ueKey items, item.antennaId = a.antennaId ∧ item.srs = a.receivedSrs

theorem Traced.append {items : List SrsStreamItem} {s : Snapshot} (h : Traced items s)
    (more : List SrsStreamItem) : Traced (items ++ more) s := by
  intro a ha
  obtain ⟨⟨g, hg, href⟩, item, hitem, hstream⟩ := h a ha
  refine ⟨⟨g, List.mem_append_left _ hg, href⟩, item, ?_, hstream⟩
  rw [receivedOf_append]
  exact List.mem_append_left _ hitem

theorem exists_of_referenceOf {rnti antennaId : UInt32} {items : List SrsStreamItem}
    {srs : List Cf} : referenceOf rnti antennaId items = some srs →
      ∃ g ∈ items, g.IsReferenceOf rnti antennaId ∧ g.srs = srs := by
  induction items using List.reverseRecOn with
  | nil =>
    intro h
    cases h
  | append_singleton items item ih =>
    intro h
    rw [referenceOf_concat] at h
    rw [exists_mem_concat]
    by_cases hitem : item.IsReferenceOf rnti antennaId
    · rw [if_pos hitem, Option.some_inj] at h
      exact Or.inr ⟨hitem, h⟩
    · rw [if_neg hitem] at h
      exact Or.inl (ih h)

namespace SimpleRunOranXapp

/-- The streams under the key of a received item, if those that waited are of its occasion. -/
theorem exists_of_arrived {x : SimpleRunOranXapp} {items : List SrsStreamItem}
    {item : SrsStreamItem} (hgen : item.generated = false)
    (hwaits : ∀ {a srs}, (x.receivedStreams item.ueKey)[a]? = some srs →
      ∃ i ∈ receivedOf item.ueKey items, i.antennaId = a ∧ i.srs = srs)
    {a : UInt32} {srs : List Cf} (h : (x.arrived item)[a]? = some srs) :
    ∃ i ∈ receivedOf item.ueKey (items ++ [item]), i.antennaId = a ∧ i.srs = srs := by
  rw [receivedOf_append, receivedOf_singleton, if_pos ⟨hgen, rfl⟩, exists_mem_concat]
  rw [arrived, Std.ExtTreeMap.getElem?_insert] at h
  split at h
  · rename_i ha
    exact Or.inr ⟨Std.LawfulEqCmp.compare_eq_iff_eq.mp ha, Option.some.inj h⟩
  · exact Or.inl (hwaits h)

/-- A stream that waits is one of its occasion. -/
theorem exists_of_receivedStreams {n : ℤ} {items : List SrsStreamItem} {key : UInt32 × UInt64}
    {a : UInt32} {srs : List Cf} :
    (((init n).onItems items).receivedStreams key)[a]? = some srs →
      ∃ item ∈ receivedOf key items, item.antennaId = a ∧ item.srs = srs := by
  induction items using List.reverseRecOn generalizing a srs with
  | nil =>
    intro h
    rw [onItems_nil, receivedStreams_init, Std.ExtTreeMap.getElem?_empty] at h
    cases h
  | append_singleton items item ih =>
    intro h
    rw [onItems_concat] at h
    by_cases hitem : item.generated = false ∧ item.ueKey = key
    · obtain ⟨hgen, rfl⟩ := hitem
      rw [receivedStreams_onItem_received _ hgen, if_pos rfl] at h
      split at h
      · rw [Std.ExtTreeMap.getElem?_empty] at h
        cases h
      · exact exists_of_arrived hgen ih h
    · rw [(occasion_onItem_of_ne _ hitem).1] at h
      rw [receivedOf_append, receivedOf_singleton, if_neg hitem, List.append_nil]
      exact ih h

/-- What is assembled on the arrival of a received item is traced. -/
theorem assembled_traced {n : ℤ} {items : List SrsStreamItem} {item : SrsStreamItem}
    (hgen : item.generated = false)
    (hready : ((init n).onItems items).Ready item.rnti (((init n).onItems items).arrived item))
    (ta : Option TaObservation) :
    Traced (items ++ [item]) ⟨item.rnti, item.timestamp,
      ((init n).onItems items).assembled item.rnti (((init n).onItems items).arrived item), ta⟩ := by
  intro a ha
  obtain ⟨id, hid, rfl⟩ := List.mem_map.mp ha
  obtain ⟨-, hcached⟩ := hready
  -- the reference is in the cache, the received stream waits or has just arrived
  obtain ⟨generated, hgenerated⟩ := Option.isSome_iff_exists.mp (hcached id hid)
  obtain ⟨received, hreceived⟩ : ∃ received,
      (((init n).onItems items).arrived item)[id]? = some received :=
    ⟨_, Std.ExtTreeMap.getElem?_eq_some_getElem
      (Std.ExtTreeMap.mem_keys.mp (List.mem_of_mem_take hid))⟩
  refine ⟨?_, ?_⟩
  · have href := hgenerated
    rw [generatedStream_onItems] at href
    obtain ⟨g, hg, hisref, hsrs⟩ := exists_of_referenceOf href
    refine ⟨g, List.mem_append_left _ hg, hisref, ?_⟩
    rw [hsrs, hgenerated, Option.getD_some]
  · obtain ⟨i, hi, hid, hsrs⟩ := exists_of_arrived hgen exists_of_receivedStreams hreceived
    refine ⟨i, hi, hid, ?_⟩
    rw [hsrs, Std.ExtTreeMap.getD_eq_getD_getElem?, hreceived, Option.getD_some]

/-- **Every snapshot is traced back to items that have arrived.** -/
theorem completed_traced (n : ℤ) (items : List SrsStreamItem) :
    ∀ s ∈ ((init n).onItems items).completedSrsMessages, Traced items s := by
  induction items using List.reverseRecOn with
  | nil =>
    intro s hs
    cases hs
  | append_singleton items item ih =>
    intro s hs
    rw [onItems_concat] at hs
    cases hgen : item.generated with
    | true =>
      rw [completedSrsMessages_onItem_generated _ hgen] at hs
      exact (ih s hs).append [item]
    | false =>
      rw [completedSrsMessages_onItem_received _ hgen] at hs
      split at hs
      · rename_i hready
        rcases List.mem_append.mp hs with hold | hnew
        · exact (ih s hold).append [item]
        · obtain rfl := List.mem_singleton.mp hnew
          exact assembled_traced hgen hready _
      · exact (ih s hs).append [item]

end SimpleRunOranXapp

/-! ## From the items to the records -/

/-- The reference of an antenna in a record, if the record is of this UE and has one. -/
def UeSrsData.reference (ue : UeSrsData) (rnti antennaId : UInt32) : Option (List Cf) :=
  if ue.rnti = rnti then
    (ue.antennaData.find? fun a => a.antennaId = antennaId).map SrsAntennaData.generatedSrs
  else none

/-- The reference of an antenna in the first of some records that has one. -/
def firstReference (records : List UeSrsData) (rnti antennaId : UInt32) : Option (List Cf) :=
  records.findSome? fun ue => ue.reference rnti antennaId

/-- Antenna ids are distinct, so an antenna is found by its id. -/
theorem find?_antennaId {as : List SrsAntennaData} {b : SrsAntennaData} :
    (antennaIds as).Nodup → b ∈ as → as.find? (fun a => a.antennaId = b.antennaId) = some b := by
  induction as with
  | nil =>
    intro _ hb
    cases hb
  | cons a as ih =>
    intro hnodup hb
    rw [antennaIds_cons, List.nodup_cons] at hnodup
    rcases List.mem_cons.mp hb with rfl | hb
    · exact List.find?_cons_of_pos (decide_eq_true rfl)
    · have hne : a.antennaId ≠ b.antennaId := by
        intro heq
        apply hnodup.1
        rw [heq]
        exact List.mem_map_of_mem hb
      rw [List.find?_cons_of_neg (by simpa using hne)]
      exact ih hnodup.2 hb

theorem UeSrsData.reference_of_mem {ue : UeSrsData} (hnodup : (antennaIds ue.antennaData).Nodup)
    {a : SrsAntennaData} (ha : a ∈ ue.antennaData) :
    ue.reference ue.rnti a.antennaId = some a.generatedSrs := by
  rw [reference, if_pos rfl, find?_antennaId hnodup ha]
  rfl

theorem UeSrsData.exists_of_reference {ue : UeSrsData} {rnti antennaId : UInt32} {srs : List Cf}
    (h : ue.reference rnti antennaId = some srs) :
    ue.rnti = rnti ∧ ∃ a ∈ ue.antennaData, a.antennaId = antennaId ∧ a.generatedSrs = srs := by
  by_cases hr : ue.rnti = rnti
  · rw [reference, if_pos hr] at h
    obtain ⟨a, ha, hsrs⟩ := Option.map_eq_some_iff.mp h
    have hid := List.find?_some ha
    rw [decide_eq_true_eq] at hid
    exact ⟨hr, a, List.mem_of_find?_eq_some ha, hid, hsrs⟩
  · rw [reference, if_neg hr] at h
    cases h

theorem exists_of_firstReference {records : List UeSrsData} {rnti antennaId : UInt32}
    {srs : List Cf} (h : firstReference records rnti antennaId = some srs) :
    ∃ ue ∈ records, ue.rnti = rnti ∧
      ∃ a ∈ ue.antennaData, a.antennaId = antennaId ∧ a.generatedSrs = srs := by
  obtain ⟨ue, hue, hfound⟩ := List.exists_of_findSome?_eq_some h
  exact ⟨ue, hue, UeSrsData.exists_of_reference hfound⟩

namespace SrsReportService

/-- A record without the key of an antenna has no reference of it. -/
theorem reference_eq_none {ue : UeSrsData} {rnti antennaId : UInt32}
    (h : antennaKey rnti antennaId ∉ recordKeys ue) : ue.reference rnti antennaId = none := by
  rw [Option.eq_none_iff_forall_ne_some]
  intro srs hsrs
  obtain ⟨rfl, a, ha, rfl, -⟩ := UeSrsData.exists_of_reference hsrs
  exact h (mem_recordKeys.mpr ⟨a, ha, rfl⟩)

/-- **The only reference that is enqueued for an antenna is that of the first record.** -/
theorem firstReference_of_mem_recordsItems {records : List UeSrsData} {g : SrsStreamItem}
    {rnti antennaId : UInt32} (href : g.IsReferenceOf rnti antennaId) :
    (∀ ue ∈ records, (antennaIds ue.antennaData).Nodup) → ∀ sent : Finset UInt64,
      g ∈ recordsItems sent records →
        firstReference records rnti antennaId = some g.srs ∧ antennaKey rnti antennaId ∉ sent := by
  induction records with
  | nil =>
    intro _ _ hg
    cases hg
  | cons ue records ih =>
    intro hnodup sent hg
    rw [recordsItems, List.mem_append, mem_recordItems] at hg
    rw [firstReference, List.findSome?_cons]
    rcases hg with (⟨a, ha, hkey, rfl⟩ | ⟨a, -, rfl⟩) | hrest
    · -- the reference was enqueued with this record
      obtain ⟨-, rfl, rfl⟩ := href
      have hfound : ue.reference (ue.generatedItem a).rnti (ue.generatedItem a).antennaId =
          some a.generatedSrs :=
        UeSrsData.reference_of_mem (hnodup ue List.mem_cons_self) ha
      rw [hfound]
      exact ⟨rfl, hkey⟩
    · exact absurd href.1 Bool.false_ne_true
    · -- it was enqueued later, so this record does not have the antenna
      obtain ⟨hfirst, hkey⟩ :=
        ih (fun ue' hue' => hnodup ue' (List.mem_cons_of_mem _ hue')) _ hrest
      rw [Finset.mem_union, not_or] at hkey
      obtain ⟨hsent, hnot⟩ := hkey
      rw [reference_eq_none hnot]
      exact ⟨hfirst, hsent⟩

/-- A received stream is enqueued with its record. -/
theorem exists_of_received_mem_recordsItems {records : List UeSrsData} {item : SrsStreamItem}
    (hgen : item.generated = false) {sent : Finset UInt64}
    (hitem : item ∈ recordsItems sent records) :
    ∃ ue ∈ records, ∃ a ∈ ue.antennaData, ue.receivedItem a = item := by
  obtain ⟨ue, hue, a, ha, rfl | rfl⟩ := exists_of_mem_recordsItems hitem
  · cases hgen
  · exact ⟨ue, hue, a, ha, rfl⟩

end SrsReportService

/-! ## From the records to the additions -/

theorem addSrsData_mem_collectorOps {events : List DuEvent} {call : AddCall} :
    .addSrsData call ∈ events.flatMap DuEvent.collectorOps ↔ call ∈ additions events := by
  rw [additions, List.mem_flatMap, List.mem_filterMap]
  refine exists_congr fun e => and_congr_right fun _ => ?_
  cases e with
  | addSrsData call' => simp [DuEvent.collectorOps, eq_comm]
  | collectMeasurements => simp [DuEvent.collectorOps]
  | getIndicationMessage appendOk => simp [DuEvent.collectorOps]

/-- **Each antenna of a record was added in one call**, reference and received stream. -/
theorem fromAdditions_of_mem_records {config : GnbSrsConfig} {events : List DuEvent}
    {ue : UeSrsData} (hue : ue ∈ (Du.init config).records events) :
    ∀ a ∈ ue.antennaData, ∃ call ∈ additions events, call.rnti = ue.rnti ∧ call.antenna = a := by
  obtain ⟨before, after, rfl, hmem⟩ := Du.mem_records.mp hue
  rw [Du.collector_run] at hmem
  intro a ha
  have hentry := (entry_of_mem_getAllCompleteUeData hmem).1
  obtain ⟨call, hop, hr, hantenna⟩ :=
    (SrsDataCollector.fresh_run config _ hentry).exists_addition ha
  refine ⟨call, ?_, hr, hantenna⟩
  rw [additions_append]
  exact List.mem_append_left _ (addSrsData_mem_collectorOps.mp hop)

/-! ## Reference pairing -/

/-- Whatever the messages decode to was enqueued. -/
theorem exists_enqueued_of_mem_decoded {config : GnbSrsConfig} {events : List DuEvent}
    {item : SrsStreamItem}
    (hitem : item ∈ (Du.init config).service.decoded ((Du.init config).serviceCalls events)) :
    ∃ source ∈ SrsReportService.recordsItems ∅ ((Du.init config).records events),
      source.quantised = item := by
  obtain ⟨sent, hsent, hdecoded⟩ := (Du.init config).service.exists_sent
    ((Du.init config).serviceCalls events)
  have henqueued := Du.enqueued_eq events (Du.init config)
    (SrsDataCollector.wellFormed_init config)
  obtain ⟨source, hsource, rfl⟩ := List.mem_map.mp (hdecoded.subset hitem)
  have hall : SrsReportService.recordsItems ∅ ((Du.init config).records events) =
      sent ++ ((Du.init config).service.run ((Du.init config).serviceCalls events)).pendingItems :=
    henqueued.symm.trans hsent
  refine ⟨source, ?_, rfl⟩
  rw [hall]
  exact List.mem_append_left _ hsource

/-- The streams of a snapshot in terms of the records. -/
theorem streams_of_completed {config : GnbSrsConfig} {n : ℤ} {events : List DuEvent}
    {s : Snapshot}
    (hs : s ∈ ((SimpleRunOranXapp.init n).onMessages
      ((Du.init config).messages events)).completedSrsMessages)
    {a : SrsAntennaData} (ha : a ∈ s.antennaData) :
    (∃ srs, firstReference ((Du.init config).records events) s.rnti a.antennaId = some srs ∧
        a.generatedSrs = quantiseAll srs) ∧
      ∃ ue ∈ (Du.init config).records events, ue.rnti = s.rnti ∧ ue.timestamp = s.timestamp ∧
        ∃ b ∈ ue.antennaData, b.antennaId = a.antennaId ∧
          a.receivedSrs = quantiseAll b.receivedSrs := by
  rw [Du.onMessages_messages] at hs
  obtain ⟨⟨g, hg, href, hgenerated⟩, item, hitem, hid, hreceived⟩ :=
    SimpleRunOranXapp.completed_traced n _ s hs a ha
  obtain ⟨hitem, hgen, hkey⟩ := mem_receivedOf.mp hitem
  obtain ⟨source, hsource, rfl⟩ := exists_enqueued_of_mem_decoded hg
  obtain ⟨source', hsource', rfl⟩ := exists_enqueued_of_mem_decoded hitem
  refine ⟨?_, ?_⟩
  · have hnodup : ∀ ue ∈ (Du.init config).records events, (antennaIds ue.antennaData).Nodup :=
      fun ue hue => (Du.wellFormed_of_mem_records
        (SrsDataCollector.wellFormed_init config) hue).1.nodup
    exact ⟨source.srs, (SrsReportService.firstReference_of_mem_recordsItems (g := source) href
      hnodup ∅ hsource).1, hgenerated.symm⟩
  · have hreceivedItem : source'.generated = false := hgen
    obtain ⟨ue, hue, b, hb, rfl⟩ :=
      SrsReportService.exists_of_received_mem_recordsItems hreceivedItem hsource'
    obtain ⟨hr, ht⟩ := Prod.mk.inj hkey
    exact ⟨ue, hue, hr, ht, b, hb, hid, hreceived.symm⟩

/-- **Reference pairing.** Each antenna of a snapshot has the reference of the first record
with that antenna, and the received stream of a record with the timestamp of the snapshot;
in a record, both were added in one call. So if the references that are added for the
antenna are the same once quantised, one call has added what the snapshot pairs. -/
theorem reference_pairing (config : GnbSrsConfig) (numRxAntennas : ℤ) (events : List DuEvent) :
    let records := (Du.init config).records events
    let x := (SimpleRunOranXapp.init numRxAntennas).onMessages ((Du.init config).messages events)
    (∀ ue ∈ records, ∀ a ∈ ue.antennaData,
      ∃ call ∈ additions events, call.rnti = ue.rnti ∧ call.antenna = a) ∧
    ∀ s ∈ x.completedSrsMessages, ∀ a ∈ s.antennaData,
      (∃ srs, firstReference records s.rnti a.antennaId = some srs ∧
        a.generatedSrs = quantiseAll srs) ∧
      (∃ ue ∈ records, ue.rnti = s.rnti ∧ ue.timestamp = s.timestamp ∧
        ∃ b ∈ ue.antennaData, b.antennaId = a.antennaId ∧
          a.receivedSrs = quantiseAll b.receivedSrs) ∧
      ((∀ call ∈ additions events, ∀ call' ∈ additions events,
          call.rnti = s.rnti → call.antennaId = a.antennaId →
          call'.rnti = s.rnti → call'.antennaId = a.antennaId →
            quantiseAll call.generatedSrs = quantiseAll call'.generatedSrs) →
        ∃ call ∈ additions events, call.rnti = s.rnti ∧ call.antennaId = a.antennaId ∧
          a.generatedSrs = quantiseAll call.generatedSrs ∧
          a.receivedSrs = quantiseAll call.receivedSrs) := by
  intro records x
  refine ⟨fun ue => fromAdditions_of_mem_records, fun s hs a ha => ?_⟩
  obtain ⟨⟨srs, hfirst, hgenerated⟩, ue, hue, hr, ht, b, hb, hid, hreceived⟩ :=
    streams_of_completed hs ha
  refine ⟨⟨srs, hfirst, hgenerated⟩, ⟨ue, hue, hr, ht, b, hb, hid, hreceived⟩, fun hsame => ?_⟩
  -- the calls behind the reference and behind the received stream
  obtain ⟨first, hfirst, hr', b', hb', hid', hsrs⟩ := exists_of_firstReference hfirst
  obtain ⟨call, hcall, hrnti, hantenna⟩ := fromAdditions_of_mem_records hue b hb
  obtain ⟨call', hcall', hrnti', hantenna'⟩ := fromAdditions_of_mem_records hfirst b' hb'
  subst hantenna hantenna' hsrs
  refine ⟨call, hcall, hrnti.trans hr, hid, ?_, hreceived⟩
  rw [hgenerated]
  exact hsame call' hcall' call hcall (hrnti'.trans hr') hid' (hrnti.trans hr) hid

/-- UE 17 is reported twice with different references; the second snapshot has the received
stream of the second report and the reference of the first. -/
theorem stale_reference_is_paired :
    let events := [DuEvent.addSrsData ⟨17, 0, [⟨.finite 1, .finite 0⟩], [], 1000⟩,
      .collectMeasurements, .getIndicationMessage true, .getIndicationMessage true,
      .addSrsData ⟨17, 0, [⟨.finite 2, .finite 0⟩], [⟨.finite 3, .finite 0⟩], 2000⟩,
      .collectMeasurements, .getIndicationMessage true]
    ∃ s ∈ ((SimpleRunOranXapp.init 1).onMessages
        ((Du.init ⟨1, 0, 0, ⟨0⟩, ⟨0⟩, ⟨0⟩⟩).messages events)).completedSrsMessages,
      ∃ a ∈ s.antennaData, ¬ ∃ call ∈ additions events,
        call.rnti = s.rnti ∧ call.antennaId = a.antennaId ∧
          a.generatedSrs = quantiseAll call.generatedSrs ∧
          a.receivedSrs = quantiseAll call.receivedSrs := by
  decide +kernel

end RunOran
