import RunOran.EndToEnd
import Mathlib.Data.Finset.SDiff

/-!
# References in the stream of items

What an SRS service emits over a run is one list of items: those that its messages decode to,
followed by its queue. The key set makes the references of the list unique, and the order
within a record puts each of them before the received streams that need it. Both are facts
about `recordsItems` (`countP_recordsItems_le`, `reference_precedes`), proved by induction on
the records; `references_announced_once` carries them to the output, which is what was
enqueued as long as no item is too large for protobuf.
-/

namespace RunOran

open StableSort

/-! ## Announced once, and first -/

/-- Each received item has exactly one reference in the list, before it. -/
def Announced (items : List SrsStreamItem) : Prop :=
  ∀ before item after, items = before ++ item :: after → item.generated = false →
    items.countP (fun g => g.IsReferenceOf item.rnti item.antennaId) = 1 ∧
      ∃ g ∈ before, g.IsReferenceOf item.rnti item.antennaId

/-- It does not matter what the samples are. -/
theorem Announced.of_map {f : SrsStreamItem → SrsStreamItem}
    (hf : ∀ item, (f item).rnti = item.rnti ∧ (f item).antennaId = item.antennaId ∧
      (f item).generated = item.generated)
    {items items' : List SrsStreamItem} (h : Announced items) (hmap : items.map f = items'.map f) :
    Announced items' := by
  have href : ∀ (g : SrsStreamItem) (r a : UInt32),
      (f g).IsReferenceOf r a ↔ g.IsReferenceOf r a := by
    intro g r a
    obtain ⟨hrnti, hid, hgen⟩ := hf g
    rw [SrsStreamItem.IsReferenceOf, SrsStreamItem.IsReferenceOf, hrnti, hid, hgen]
  have hcount : ∀ (l : List SrsStreamItem) (r a : UInt32),
      (l.map f).countP (fun g => g.IsReferenceOf r a) = l.countP fun g => g.IsReferenceOf r a := by
    intro l r a
    rw [List.countP_map]
    exact List.countP_congr fun g _ => by simpa using href g r a
  intro before item after hsplit hgen
  have hsplit' := hmap
  rw [hsplit, List.map_append, List.map_cons, List.map_eq_append_iff] at hsplit'
  obtain ⟨before', rest', hitems, hbefore, hrest⟩ := hsplit'
  obtain ⟨item', after', rfl, hitem, -⟩ := List.map_eq_cons_iff.mp hrest
  obtain ⟨hrnti, hid, hkind⟩ := hf item
  obtain ⟨hrnti', hid', hkind'⟩ := hf item'
  rw [hitem] at hrnti' hid' hkind'
  obtain ⟨hone, g, hg, hisRef⟩ :=
    h before' item' after' hitems (hkind'.symm.trans (hkind.trans hgen))
  rw [← hrnti', ← hid', hrnti, hid] at hone hisRef
  refine ⟨?_, ?_⟩
  · rw [← hcount, ← hmap, hcount]
    exact hone
  · have hmem : f g ∈ before.map f := hbefore ▸ List.mem_map_of_mem hg
    obtain ⟨g', hg', heq⟩ := List.mem_map.mp hmem
    exact ⟨g', hg', (href g' _ _).mp (heq ▸ (href g _ _).mpr hisRef)⟩

theorem exists_append_of_not_mem {α : Type*} {l₁ l₂ before after : List α} {a : α}
    (h : l₁ ++ l₂ = before ++ a :: after) (ha : a ∉ l₁) :
    ∃ rest, before = l₁ ++ rest ∧ l₂ = rest ++ a :: after := by
  rcases List.append_eq_append_iff.mp h with hrest | ⟨_ | ⟨b, bs⟩, hl₁, hsplit⟩
  · exact hrest
  · exact ⟨[], by rw [hl₁, List.append_nil, List.append_nil], hsplit.symm⟩
  · obtain ⟨rfl, -⟩ := List.cons.inj hsplit
    exact absurd (hl₁ ▸ List.mem_append_right _ List.mem_cons_self) ha

namespace SrsReportService

/-! ## What records add -/

/-- A record adds at most one reference of an antenna, and none if it is known. -/
theorem countP_recordItems_le {ue : UeSrsData} (hnodup : (antennaIds ue.antennaData).Nodup)
    (sent : Finset UInt64) (r a : UInt32) :
    (recordItems sent ue).countP (fun g => g.IsReferenceOf r a) ≤
      if antennaKey r a ∈ recordKeys ue \ sent then 1 else 0 := by
  have hreceived : ((sortedAntennas ue.antennaData).map ue.receivedItem).countP
      (fun g => g.IsReferenceOf r a) = 0 := by
    rw [List.countP_eq_zero]
    intro g hg
    obtain ⟨b, -, rfl⟩ := List.mem_map.mp hg
    simp [SrsStreamItem.IsReferenceOf, UeSrsData.receivedItem]
  rw [recordItems, List.countP_append, hreceived, Nat.add_zero]
  split
  · -- the ids of a record are distinct
    have hids : (antennaIds (unsent sent ue.rnti (sortedAntennas ue.antennaData))).Nodup :=
      (nodup_antennaIds_sortedAntennas hnodup).sublist (List.filter_sublist.map _)
    refine le_trans ?_ (List.nodup_iff_count_le_one.mp hids a)
    rw [List.countP_map, antennaIds, List.count, List.countP_map]
    refine List.countP_mono_left fun b _ hb => ?_
    have hb' : b.antennaId = a := (of_decide_eq_true hb).2.2
    simpa using hb'
  · rename_i hkey
    rw [Nat.le_zero, List.countP_eq_zero]
    intro g hg hisRef
    obtain ⟨b, hb, rfl⟩ := List.mem_map.mp hg
    obtain ⟨hmem, hunsent⟩ := List.mem_filter.mp hb
    obtain ⟨-, rfl, rfl⟩ := of_decide_eq_true hisRef
    apply hkey
    rw [Finset.mem_sdiff, mem_recordKeys]
    exact ⟨⟨b, (sortedAntennas_perm _).mem_iff.mp hmem, rfl⟩, of_decide_eq_true hunsent⟩

/-- **A reference is enqueued at most once**, and not at all if its key is known. -/
theorem countP_recordsItems_le {records : List UeSrsData} (r a : UInt32) :
    (∀ ue ∈ records, (antennaIds ue.antennaData).Nodup) → ∀ sent : Finset UInt64,
      (recordsItems sent records).countP (fun g => g.IsReferenceOf r a) ≤
        if antennaKey r a ∈ sent then 0 else 1 := by
  induction records with
  | nil => exact fun _ _ => Nat.zero_le _
  | cons ue records ih =>
    intro hnodup sent
    have hfirst := countP_recordItems_le (hnodup ue List.mem_cons_self) sent r a
    have hrest := ih (fun ue' hue' => hnodup ue' (List.mem_cons_of_mem _ hue'))
      (sent ∪ recordKeys ue)
    rw [recordsItems, List.countP_append]
    by_cases hsent : antennaKey r a ∈ sent
    · rw [if_neg (by simp [hsent])] at hfirst
      rw [if_pos (Finset.mem_union_left _ hsent)] at hrest
      rw [if_pos hsent]
      omega
    · rw [if_neg hsent]
      by_cases hkey : antennaKey r a ∈ recordKeys ue
      · rw [if_pos (Finset.mem_sdiff.mpr ⟨hkey, hsent⟩)] at hfirst
        rw [if_pos (Finset.mem_union_right _ hkey)] at hrest
        omega
      · rw [if_neg (by simp [hkey])] at hfirst
        rw [if_neg (by simp [hkey, hsent])] at hrest
        omega

theorem recordItems_of_generated {sent : Finset UInt64} {ue : UeSrsData} {item : SrsStreamItem}
    (hgen : item.generated = false) (hkey : antennaKey item.rnti item.antennaId ∉ recordKeys ue) :
    item ∉ recordItems sent ue := by
  intro hitem
  rcases mem_recordItems.mp hitem with ⟨a, -, -, rfl⟩ | ⟨a, ha, rfl⟩
  · cases hgen
  · exact hkey (mem_recordKeys.mpr ⟨a, ha, rfl⟩)

/-- **A received stream follows the reference of its antenna**, unless that was known before. -/
theorem reference_precedes {records : List UeSrsData} :
    ∀ {sent : Finset UInt64} {before : List SrsStreamItem} {item : SrsStreamItem}
      {after : List SrsStreamItem}, recordsItems sent records = before ++ item :: after →
      item.generated = false → antennaKey item.rnti item.antennaId ∉ sent →
        ∃ g ∈ before, g.IsReferenceOf item.rnti item.antennaId := by
  induction records with
  | nil =>
    intro sent before item after hsplit _ _
    cases (List.append_eq_nil_iff.mp hsplit.symm).2
  | cons ue records ih =>
    intro sent before item after hsplit hgen hsent
    by_cases hkey : antennaKey item.rnti item.antennaId ∈ recordKeys ue
    · -- the item comes after the references of this record, and its own is one of them
      obtain ⟨a, ha, heq⟩ := mem_recordKeys.mp hkey
      obtain ⟨hrnti, hid⟩ := antennaKey_inj.mp heq
      have hunsent : a ∈ unsent sent ue.rnti (sortedAntennas ue.antennaData) := by
        refine List.mem_filter.mpr ⟨(sortedAntennas_perm _).mem_iff.mpr ha, decide_eq_true ?_⟩
        rw [heq]
        exact hsent
      have hnotMem : item ∉
          (unsent sent ue.rnti (sortedAntennas ue.antennaData)).map ue.generatedItem := by
        intro hmem
        obtain ⟨b, -, rfl⟩ := List.mem_map.mp hmem
        cases hgen
      rw [recordsItems, recordItems, List.append_assoc] at hsplit
      obtain ⟨rest, rfl, -⟩ := exists_append_of_not_mem hsplit hnotMem
      exact ⟨ue.generatedItem a, List.mem_append_left _ (List.mem_map_of_mem hunsent),
        rfl, hrnti, hid⟩
    · -- it comes after this record
      obtain ⟨rest, rfl, hrest⟩ :=
        exists_append_of_not_mem hsplit (recordItems_of_generated hgen hkey)
      have hsent' : antennaKey item.rnti item.antennaId ∉ sent ∪ recordKeys ue := by
        rw [Finset.mem_union, not_or]
        exact ⟨hsent, hkey⟩
      obtain ⟨g, hg, hisRef⟩ := ih hrest hgen hsent'
      exact ⟨g, List.mem_append_right _ hg, hisRef⟩

/-- **What a new service enqueues is announced once and first.** -/
theorem announced_recordsItems {records : List UeSrsData}
    (hnodup : ∀ ue ∈ records, (antennaIds ue.antennaData).Nodup) :
    Announced (recordsItems ∅ records) := by
  intro before item after hsplit hgen
  obtain ⟨g, hg, hisRef⟩ := reference_precedes hsplit hgen (Finset.notMem_empty _)
  refine ⟨le_antisymm ?_ ?_, g, hg, hisRef⟩
  · have hle := countP_recordsItems_le item.rnti item.antennaId hnodup ∅
    rwa [if_neg (Finset.notMem_empty _)] at hle
  · apply List.countP_pos_iff.mpr
    refine ⟨g, ?_, decide_eq_true hisRef⟩
    rw [hsplit]
    exact List.mem_append_left _ hg

/-- A record is queued as its references and its received streams, both in ascending order. -/
theorem enqueueRecord_ascending (s : SrsReportService) {ue : UeSrsData}
    (hnodup : (antennaIds ue.antennaData).Nodup) :
    ∃ references received,
      (s.enqueueRecord ue).pendingItems = s.pendingItems ++ (references ++ received) ∧
        (∀ g ∈ references, g.generated = true) ∧ (∀ item ∈ received, item.generated = false) ∧
        (references.map SrsStreamItem.antennaId).Pairwise (· < ·) ∧
        (received.map SrsStreamItem.antennaId).Pairwise (· < ·) := by
  have hascending := ascending_sortedAntennas hnodup
  refine ⟨(unsent s.generatedSentKeys ue.rnti (sortedAntennas ue.antennaData)).map
    ue.generatedItem, (sortedAntennas ue.antennaData).map ue.receivedItem, ?_, ?_, ?_, ?_, ?_⟩
  · rw [enqueueRecord_eq s hnodup]
    rfl
  · intro g hg
    obtain ⟨a, -, rfl⟩ := List.mem_map.mp hg
    rfl
  · intro item hitem
    obtain ⟨a, -, rfl⟩ := List.mem_map.mp hitem
    rfl
  · rw [List.map_map]
    exact hascending.sublist (List.filter_sublist.map SrsAntennaData.antennaId)
  · rw [List.map_map]
    exact hascending

/-- The order in which the antennas of a record were added does not matter. -/
theorem enqueueRecord_perm (s : SrsReportService) {rnti : UInt32} {timestamp : UInt64}
    {as as' : List SrsAntennaData} (hnodup : (antennaIds as).Nodup) (hperm : as.Perm as') :
    s.enqueueRecord ⟨rnti, timestamp, as⟩ = s.enqueueRecord ⟨rnti, timestamp, as'⟩ := by
  have hsorted : sortedAntennas as = sortedAntennas as' := by
    refine sortByKey_congr hperm fun a ha b hb hab => ?_
    exact List.inj_on_of_nodup_map hnodup ha hb (UInt32.toNat_inj.mp hab)
  rw [enqueueRecord, enqueueRecord, hsorted]
  rfl

end SrsReportService

/-! ## The output of a run -/

/-- The messages decode to a first part of what was enqueued, and the rest is in the queue. -/
theorem quantised_output {config : GnbSrsConfig} {events : List DuEvent}
    (hok : AllAppendsSucceed events)
    (hfits : ∀ item ∈ (Du.init config).service.enqueued ((Du.init config).serviceCalls events),
      (encodeSrsIndication [item]).length < 2 ^ 31) :
    (SrsReportService.recordsItems ∅ ((Du.init config).records events)).map
        SrsStreamItem.quantised =
      ((Du.init config).service.decoded ((Du.init config).serviceCalls events) ++
        ((Du.init config).run events).service.pendingItems).map SrsStreamItem.quantised := by
  obtain ⟨sent, hsent, hdecoded⟩ := SrsReportService.exists_sent_of_fits
    (Du.init config).service _ ((Du.init config).appendsSucceed_serviceCalls hok) hfits
  have henqueued := Du.enqueued_eq events (Du.init config)
    (SrsDataCollector.wellFormed_init config)
  have hitems : SrsReportService.recordsItems ∅ ((Du.init config).records events) =
      sent ++ ((Du.init config).run events).service.pendingItems := by
    rw [Du.service_run, ← hsent]
    exact henqueued.symm
  rw [hitems, hdecoded, List.map_append, List.map_append, List.map_map]
  refine congrArg (· ++ _) (List.map_congr_left fun item _ => ?_)
  exact (SrsStreamItem.quantised_quantised item).symm

/-- **References are announced once and first.** If the appends succeed and each item fits in a
protobuf message, then in what the messages of a run decode to, followed by the queue, a pair
with a received item has exactly one generated item, before all its received items; no two pairs
share a key; and each record is enqueued as references and then received streams, in ascending
antenna order, whatever the order in which its antennas were added. -/
theorem references_announced_once (config : GnbSrsConfig) (events : List DuEvent)
    (hok : AllAppendsSucceed events)
    (hfits : ∀ item ∈ (Du.init config).service.enqueued ((Du.init config).serviceCalls events),
      (encodeSrsIndication [item]).length < 2 ^ 31) :
    let d := Du.init config
    Announced (d.service.decoded (d.serviceCalls events) ++
        (d.run events).service.pendingItems) ∧
      (∀ r a r' a', antennaKey r a = antennaKey r' a' → r = r' ∧ a = a') ∧
      ∀ ue ∈ d.records events, ∀ s : SrsReportService,
        (∃ references received,
          (s.enqueueRecord ue).pendingItems = s.pendingItems ++ (references ++ received) ∧
            (∀ g ∈ references, g.generated = true) ∧
            (∀ item ∈ received, item.generated = false) ∧
            (references.map SrsStreamItem.antennaId).Pairwise (· < ·) ∧
            (received.map SrsStreamItem.antennaId).Pairwise (· < ·)) ∧
          ∀ as, ue.antennaData.Perm as →
            s.enqueueRecord ⟨ue.rnti, ue.timestamp, as⟩ = s.enqueueRecord ue := by
  intro d
  have hnodup : ∀ ue ∈ d.records events, (antennaIds ue.antennaData).Nodup := fun ue hue =>
    (Du.wellFormed_of_mem_records (SrsDataCollector.wellFormed_init config) hue).1.nodup
  refine ⟨?_, fun _ _ _ _ => antennaKey_inj.mp, fun ue hue s => ⟨?_, fun as hperm => ?_⟩⟩
  · exact (SrsReportService.announced_recordsItems hnodup).of_map (f := SrsStreamItem.quantised)
      (fun item => ⟨rfl, rfl, rfl⟩) (quantised_output hok hfits)
  · exact s.enqueueRecord_ascending (hnodup ue hue)
  · exact (s.enqueueRecord_perm (hnodup ue hue) hperm).symm

/-- Two records of a UE, added in different antenna orders, one of them still queued. -/
theorem references_announced_once_two_records :
    let config : GnbSrsConfig := ⟨2, 0, 0, ⟨0⟩, ⟨0⟩, ⟨0⟩⟩
    let events := [DuEvent.addSrsData ⟨17, 1, [], [], 1000⟩, .addSrsData ⟨17, 0, [], [], 1001⟩,
      .collectMeasurements, .getIndicationMessage true, .addSrsData ⟨17, 0, [], [], 2000⟩,
      .addSrsData ⟨17, 1, [], [], 2001⟩, .collectMeasurements, .getIndicationMessage true]
    Announced ((Du.init config).service.decoded ((Du.init config).serviceCalls events) ++
        ((Du.init config).run events).service.pendingItems) ∧
      (Du.init config).service.decoded ((Du.init config).serviceCalls events) ++
          ((Du.init config).run events).service.pendingItems =
        [⟨17, 1001, 0, true, []⟩, ⟨17, 1001, 1, true, []⟩, ⟨17, 1001, 0, false, []⟩,
          ⟨17, 1001, 1, false, []⟩, ⟨17, 2001, 0, false, []⟩, ⟨17, 2001, 1, false, []⟩] := by
  intro config events
  have h := references_announced_once config events (by decide) (by decide +kernel)
  refine ⟨h.1, ?_⟩
  decide +kernel

/-! ## A reference too large for protobuf -/

theorem not_announced_of_oversized {generated : List Cf} (h : 2 ^ 29 ≤ generated.length) :
    let d := Du.init ⟨1, 0, 0, ⟨0⟩, ⟨0⟩, ⟨0⟩⟩
    let events := [DuEvent.addSrsData ⟨17, 0, generated, [], 1000⟩, .collectMeasurements,
      .getIndicationMessage true, .getIndicationMessage true]
    AllAppendsSucceed events ∧
      ¬ Announced (d.service.decoded (d.serviceCalls events) ++
        (d.run events).service.pendingItems) := by
  intro d events
  have hcalls : d.serviceCalls events =
      [.collectMeasurements (SrsReportService.oneUeCollector generated []),
        .getIndicationMessage true, .getIndicationMessage true] := rfl
  have hlost := deserializeSrsIndication_of_long_stream
    (List.mem_singleton_self ⟨17, 1000, 0, true, generated⟩) h
  have hreceived : deserializeSrsIndication (serializeSrsIndication [⟨17, 1000, 0, false, []⟩]) =
      [⟨17, 1000, 0, false, []⟩] := by decide +kernel
  obtain ⟨hdecoded, -⟩ := SrsReportService.decoded_oneUeCollector generated []
  rw [hlost, hreceived, List.nil_append, ← hcalls] at hdecoded
  have hservice : d.service = SrsReportService.init := rfl
  refine ⟨by simp [AllAppendsSucceed, events], fun hannounced => ?_⟩
  rw [hservice, hdecoded] at hannounced
  obtain ⟨-, g, hg, -⟩ := hannounced [] ⟨17, 1000, 0, false, []⟩ _ rfl rfl
  cases hg

/-- A reference of `2 ^ 29` samples is not announced, but its received stream arrives. -/
theorem oversized_reference_is_not_announced :
    let d := Du.init ⟨1, 0, 0, ⟨0⟩, ⟨0⟩, ⟨0⟩⟩
    let events := [DuEvent.addSrsData ⟨17, 0, List.replicate (2 ^ 29) ⟨.finite 0, .finite 0⟩, [],
        1000⟩, .collectMeasurements, .getIndicationMessage true, .getIndicationMessage true]
    AllAppendsSucceed events ∧
      ¬ Announced (d.service.decoded (d.serviceCalls events) ++
        (d.run events).service.pendingItems) :=
  not_announced_of_oversized (Nat.le_of_eq List.length_replicate.symm)

end RunOran
