import RunOran.Pairing

/-!
# Every record becomes a snapshot, once

With one subscription, an xApp that expects as many antennas as the collector has, and
references that stay the same, the whole chain is the identity up to quantisation: the xApp
completes one snapshot for each record that the collections return, in the same order, and
when the queue is empty nothing waits at the xApp (`exactly_once`).

`InSync` is the simulation relation between the keys that the service remembers and the
xApp's cache, at the boundaries between records. The items of one record are the missing
references, which only fill the cache (`onItems_references`), and as many received streams
as are expected, of which the last one completes the snapshot (`onItems_received`);
`InSync.record` puts them together, and `InSync.records` follows by induction. Timestamps
play no role: nothing of a record is left when the next one begins.
-/

namespace RunOran

open StableSort

/-! ## What a record is delivered as -/

/-- An antenna as it arrives. -/
def SrsAntennaData.quantised (a : SrsAntennaData) : SrsAntennaData :=
  ⟨a.antennaId, quantiseAll a.generatedSrs, quantiseAll a.receivedSrs⟩

/-- The snapshot that a record becomes: its antennas in ascending order, quantised. -/
def UeSrsData.delivered (ue : UeSrsData) : Snapshot :=
  ⟨ue.rnti, ue.timestamp, (sortedAntennas ue.antennaData).map SrsAntennaData.quantised, none⟩

theorem sorted_antennaIds_sortedAntennas (as : List SrsAntennaData) :
    (antennaIds (sortedAntennas as)).Pairwise fun a b => a.toNat ≤ b.toNat :=
  List.pairwise_map.mpr (sorted_sortByKey as)

theorem ascending_sortedAntennas {as : List SrsAntennaData} (hnodup : (antennaIds as).Nodup) :
    (antennaIds (sortedAntennas as)).Pairwise (· < ·) := by
  have hdistinct := SrsReportService.nodup_antennaIds_sortedAntennas hnodup
  refine (sorted_antennaIds_sortedAntennas as).imp₂ (fun a b hle hne => ?_) hdistinct
  have hne' : a.toNat ≠ b.toNat := fun heq => hne (UInt32.toNat_inj.mp heq)
  exact UInt32.lt_iff_toNat_lt.mpr (Nat.lt_of_le_of_ne hle hne')

/-- The antennas of a snapshot ascend, and they are those of the record. -/
theorem delivered_ascending {ue : UeSrsData} (hnodup : (antennaIds ue.antennaData).Nodup) :
    (antennaIds ue.delivered.antennaData).Pairwise (· < ·) ∧
      ue.delivered.antennaData.Perm (ue.antennaData.map SrsAntennaData.quantised) := by
  refine ⟨?_, ?_⟩
  · have hids :
        antennaIds ue.delivered.antennaData = antennaIds (sortedAntennas ue.antennaData) := by
      simp only [UeSrsData.delivered, antennaIds, List.map_map]
      rfl
    rw [hids]
    exact ascending_sortedAntennas hnodup
  · exact (SrsReportService.sortedAntennas_perm ue.antennaData).map _

/-- Streams that were stored under distinct antennas are listed in ascending order. -/
theorem keys_streamsOf {items : List SrsStreamItem}
    (h : (items.map SrsStreamItem.antennaId).Nodup)
    (hsorted : (items.map SrsStreamItem.antennaId).Pairwise fun a b => a.toNat ≤ b.toNat) :
    (streamsOf items).keys = items.map SrsStreamItem.antennaId := by
  have hantisymm : ∀ a b : UInt32, a.toNat ≤ b.toNat → b.toNat ≤ a.toNat → a = b :=
    fun a b hab hba => UInt32.toNat_inj.mp (Nat.le_antisymm hab hba)
  refine List.Perm.eq_of_pairwise (fun a b _ _ => hantisymm a b) ?_ hsorted ?_
  · apply Std.ExtTreeMap.ordered_keys.imp
    intro a b hlt
    exact Nat.le_of_lt (UInt32.lt_iff_toNat_lt.mp (compareOfLessAndEq_eq_lt.mp hlt))
  · apply (List.perm_ext_iff_of_nodup Std.ExtTreeMap.nodup_keys h).mpr
    intro a
    rw [Std.ExtTreeMap.mem_keys, mem_streamsOf, List.mem_map]

namespace SimpleRunOranXapp

/-! ## References -/

/-- References only fill the cache. -/
theorem onItems_references {items : List SrsStreamItem} (x : SimpleRunOranXapp) :
    (∀ g ∈ items, g.generated = true) →
      (x.onItems items).pendingReceivedSrs = x.pendingReceivedSrs ∧
        (x.onItems items).completedSrsMessages = x.completedSrsMessages := by
  induction items using List.reverseRecOn with
  | nil => exact fun _ => ⟨rfl, rfl⟩
  | append_singleton items item ih =>
    intro h
    have hgen : item.generated = true := h item (by simp)
    obtain ⟨hpending, hcompleted⟩ := ih fun g hg => h g (List.mem_append_left _ hg)
    rw [onItems_concat, pendingReceivedSrs_onItem_generated _ hgen,
      completedSrsMessages_onItem_generated _ hgen]
    exact ⟨hpending, hcompleted⟩

/-- A cache that holds the right references goes on to do so as long as only right ones
arrive, and it has those that do. -/
theorem generatedStream_onItems_of_right {F : UInt32 → UInt32 → List Cf}
    {items : List SrsStreamItem} (x : SimpleRunOranXapp) {rnti antennaId : UInt32} :
    (∀ g ∈ items, g.generated = true → g.srs = F g.rnti g.antennaId) →
      (x.generatedStream rnti antennaId = some (F rnti antennaId) ∨
        ∃ g ∈ items, g.IsReferenceOf rnti antennaId) →
      (x.onItems items).generatedStream rnti antennaId = some (F rnti antennaId) := by
  induction items using List.reverseRecOn with
  | nil =>
    rintro - (hcached | ⟨g, hg, -⟩)
    · exact hcached
    · cases hg
  | append_singleton items item ih =>
    intro hright hknown
    rw [exists_mem_concat, ← or_assoc] at hknown
    rw [onItems_concat]
    refine (generatedStream_onItem _ item rnti antennaId).trans ?_
    by_cases hitem : item.IsReferenceOf rnti antennaId
    · obtain ⟨hgen, rfl, rfl⟩ := hitem
      rw [if_pos ⟨hgen, rfl, rfl⟩, hright item (by simp) hgen]
    · refine (if_neg hitem).trans ?_
      exact ih (fun g hg => hright g (List.mem_append_left _ hg)) (hknown.resolve_right hitem)

/-! ## Received streams -/

section Received

variable {x : SimpleRunOranXapp} {key : UInt32 × UInt64}

theorem generatedStream_onItems_received {items : List SrsStreamItem} (rnti antennaId : UInt32) :
    (∀ item ∈ items, item.generated = false) →
      (x.onItems items).generatedStream rnti antennaId = x.generatedStream rnti antennaId := by
  induction items using List.reverseRecOn with
  | nil => exact fun _ => rfl
  | append_singleton items item ih =>
    intro h
    have hgen : item.generated = false := h item (by simp)
    rw [onItems_concat, generatedStream_onItem, hgen,
      if_neg fun hitem => Bool.false_ne_true hitem.1]
    exact ih fun item' hitem' => h item' (List.mem_append_left _ hitem')

/-- Where nothing waits, too few received streams of an occasion all wait. -/
theorem onItems_received_few (hpending : x.pendingReceivedSrs = ∅) {items : List SrsStreamItem} :
    (∀ item ∈ items, item.generated = false ∧ item.ueKey = key) →
      items.length < x.expectedRxAntennas →
        (x.onItems items).completedSrsMessages = x.completedSrsMessages ∧
          (x.onItems items).receivedStreams key = streamsOf items ∧
          ∀ k, k ≠ key → (x.onItems items).pendingReceivedSrs[k]? = none := by
  induction items using List.reverseRecOn with
  | nil =>
    intro _ _
    refine ⟨rfl, ?_, fun k _ => ?_⟩
    · rw [onItems_nil, receivedStreams, hpending, Std.ExtTreeMap.getD_empty]
      rfl
    · rw [onItems_nil, hpending, Std.ExtTreeMap.getElem?_empty]
  | append_singleton items item ih =>
    intro h hfew
    obtain ⟨hgen, rfl⟩ := h item (by simp)
    have hlen : (items ++ [item]).length = items.length + 1 := by simp
    obtain ⟨hcompleted, hstreams, hothers⟩ :=
      ih (fun item' hitem' => h item' (List.mem_append_left _ hitem')) (by omega)
    have harrived : (x.onItems items).arrived item = streamsOf (items ++ [item]) :=
      arrived_of_receivedStreams hstreams
    have hnot : ¬ (x.onItems items).Ready item.rnti ((x.onItems items).arrived item) := by
      rw [harrived]
      apply not_ready_of_few
      rw [expectedRxAntennas_onItems]
      exact hfew
    rw [onItems_concat, onItem_received _ hgen, if_neg hnot]
    refine ⟨hcompleted, ?_, fun k hk => ?_⟩
    · rw [receivedStreams, Std.ExtTreeMap.getD_insert_self, harrived]
    · rw [Std.ExtTreeMap.getElem?_insert,
        if_neg (mt Std.LawfulEqCmp.compare_eq_iff_eq.mp (Ne.symm hk))]
      exact hothers k hk

/-- As many as are expected complete one snapshot, and nothing waits any more. -/
theorem onItems_occasion {items : List SrsStreamItem} (hpending : x.pendingReceivedSrs = ∅)
    (h : ∀ item ∈ items, item.generated = false ∧ item.ueKey = key)
    (hlen : items.length = x.expectedRxAntennas)
    (hids : (items.map SrsStreamItem.antennaId).Nodup)
    (hrefs : ∀ item ∈ items, (x.generatedStream key.1 item.antennaId).isSome) :
    (x.onItems items).pendingReceivedSrs = ∅ ∧
      (x.onItems items).completedSrsMessages = x.completedSrsMessages ++
        [⟨key.1, key.2, x.assembled key.1 (streamsOf items), x.latestTimingAdvance[key.1]?⟩] := by
  rcases List.eq_nil_or_concat' items with rfl | ⟨front, last, rfl⟩
  · exact absurd x.expected_pos (by simp [← hlen])
  -- all but the last stream wait, and the last one completes the snapshot
  obtain ⟨hgen, rfl⟩ := h last (by simp)
  have hshort : front.length < x.expectedRxAntennas := by
    rw [← hlen]
    simp
  have hfront : ∀ item ∈ front, item.generated = false ∧ item.ueKey = last.ueKey :=
    fun item hitem => h item (by simp [hitem])
  obtain ⟨hcompleted, hstreams, hothers⟩ := onItems_received_few hpending hfront hshort
  have harrived : (x.onItems front).arrived last = streamsOf (front ++ [last]) :=
    arrived_of_receivedStreams hstreams
  have hcache : ∀ a, (x.onItems front).generatedStream last.rnti a =
      x.generatedStream last.rnti a := fun a =>
    generatedStream_onItems_received _ _ fun item hitem => (hfront item hitem).1
  have hlength : (front ++ [last]).length = (x.onItems front).expectedRxAntennas := by
    rw [expectedRxAntennas_onItems, hlen]
  have hready : (x.onItems front).Ready last.rnti ((x.onItems front).arrived last) := by
    rw [harrived, ready_streamsOf hids hlength]
    intro item hitem
    rw [hcache]
    exact hrefs item hitem
  have hassembled : (x.onItems front).assembled last.rnti ((x.onItems front).arrived last) =
      x.assembled last.rnti (streamsOf (front ++ [last])) := by
    rw [harrived]
    simp only [assembled, hcache, expectedRxAntennas_onItems]
  rw [onItems_concat, onItem_received _ hgen, if_pos hready]
  refine ⟨?_, ?_⟩
  · refine Std.ExtTreeMap.ext_getElem? fun k => ?_
    rw [Std.ExtTreeMap.getElem?_erase, Std.ExtTreeMap.getElem?_empty]
    split
    · rfl
    · rename_i hk
      exact hothers k fun heq => hk (Std.LawfulEqCmp.compare_eq_iff_eq.mpr heq.symm)
  · simp only [hcompleted, hassembled, latestTimingAdvance_onItems]
    rfl

/-- **In ascending order, they make up the snapshot as they are.** -/
theorem onItems_received {items : List SrsStreamItem} (hpending : x.pendingReceivedSrs = ∅)
    (h : ∀ item ∈ items, item.generated = false ∧ item.ueKey = key)
    (hlen : items.length = x.expectedRxAntennas)
    (hids : (items.map SrsStreamItem.antennaId).Nodup)
    (hsorted : (items.map SrsStreamItem.antennaId).Pairwise fun a b => a.toNat ≤ b.toNat)
    (hrefs : ∀ item ∈ items, (x.generatedStream key.1 item.antennaId).isSome) :
    (x.onItems items).pendingReceivedSrs = ∅ ∧
      (x.onItems items).completedSrsMessages = x.completedSrsMessages ++
        [⟨key.1, key.2, items.map fun item => ⟨item.antennaId,
          (x.generatedStream key.1 item.antennaId).getD [], item.srs⟩,
          x.latestTimingAdvance[key.1]?⟩] := by
  obtain ⟨hempty, hcompleted⟩ := onItems_occasion hpending h hlen hids hrefs
  refine ⟨hempty, ?_⟩
  rw [hcompleted, assembled_streamsOf hids hlen, keys_streamsOf hids hsorted, List.map_map]
  have hdata : ∀ item ∈ items, ((fun antennaId => SrsAntennaData.mk antennaId
      ((x.generatedStream key.1 antennaId).getD []) ((streamsOf items).getD antennaId [])) ∘
        SrsStreamItem.antennaId) item =
      ⟨item.antennaId, (x.generatedStream key.1 item.antennaId).getD [], item.srs⟩ := by
    intro item hitem
    have hstream : (streamsOf items)[item.antennaId]? = some item.srs :=
      (getElem?_streamsOf hids).mpr ⟨item, hitem, rfl, rfl⟩
    simp only [Function.comp_apply, Std.ExtTreeMap.getD_eq_getD_getElem?, hstream,
      Option.getD_some]
  rw [List.map_congr_left hdata]

end Received

end SimpleRunOranXapp

/-! ## The items of a record -/

/-- The missing references of a record, as they arrive. -/
def UeSrsData.referencesSent (sent : Finset UInt64) (ue : UeSrsData) : List SrsStreamItem :=
  (SrsReportService.unsent sent ue.rnti (sortedAntennas ue.antennaData)).map fun a =>
    (ue.generatedItem a).quantised

/-- The received streams of a record, as they arrive. -/
def UeSrsData.receivedSent (ue : UeSrsData) : List SrsStreamItem :=
  (sortedAntennas ue.antennaData).map fun a => (ue.receivedItem a).quantised

theorem quantised_recordItems (sent : Finset UInt64) (ue : UeSrsData) :
    (SrsReportService.recordItems sent ue).map SrsStreamItem.quantised =
      ue.referencesSent sent ++ ue.receivedSent := by
  rw [SrsReportService.recordItems, List.map_append, List.map_map, List.map_map]
  rfl

theorem mem_sortedAntennas {as : List SrsAntennaData} {a : SrsAntennaData} :
    a ∈ sortedAntennas as ↔ a ∈ as := (SrsReportService.sortedAntennas_perm as).mem_iff

theorem mem_referencesSent {sent : Finset UInt64} {ue : UeSrsData} {g : SrsStreamItem} :
    g ∈ ue.referencesSent sent ↔ ∃ a ∈ ue.antennaData,
      antennaKey ue.rnti a.antennaId ∉ sent ∧ (ue.generatedItem a).quantised = g := by
  simp only [UeSrsData.referencesSent, SrsReportService.unsent, List.mem_map, List.mem_filter,
    decide_eq_true_eq, mem_sortedAntennas, and_assoc]

theorem mem_receivedSent {ue : UeSrsData} {item : SrsStreamItem} :
    item ∈ ue.receivedSent ↔ ∃ a ∈ ue.antennaData, (ue.receivedItem a).quantised = item := by
  simp only [UeSrsData.receivedSent, List.mem_map, mem_sortedAntennas]

theorem antennaId_receivedSent (ue : UeSrsData) :
    ue.receivedSent.map SrsStreamItem.antennaId = antennaIds (sortedAntennas ue.antennaData) := by
  rw [UeSrsData.receivedSent, List.map_map]
  rfl

theorem length_receivedSent (ue : UeSrsData) :
    ue.receivedSent.length = ue.antennaData.length := by
  rw [UeSrsData.receivedSent, List.length_map]
  exact (SrsReportService.sortedAntennas_perm ue.antennaData).length_eq

/-- The received streams are one occasion. -/
theorem occasion_of_mem_receivedSent {ue : UeSrsData} {item : SrsStreamItem}
    (h : item ∈ ue.receivedSent) :
    item.generated = false ∧ item.ueKey = (ue.rnti, ue.timestamp) := by
  obtain ⟨a, -, rfl⟩ := mem_receivedSent.mp h
  exact ⟨rfl, rfl⟩

/-! ## Records -/

/-- At the boundary between two records: nothing waits, and every key that the service
remembers has its reference, `F`, in the cache. -/
structure InSync (F : UInt32 → UInt32 → List Cf) (sent : Finset UInt64)
    (x : SimpleRunOranXapp) : Prop where
  pending_eq : x.pendingReceivedSrs = ∅
  timingAdvance_eq : x.latestTimingAdvance = ∅
  cached : ∀ rnti antennaId, antennaKey rnti antennaId ∈ sent →
    x.generatedStream rnti antennaId = some (quantiseAll (F rnti antennaId))

theorem inSync_init (F : UInt32 → UInt32 → List Cf) (n : ℤ) :
    InSync F ∅ (SimpleRunOranXapp.init n) :=
  ⟨rfl, rfl, fun _ _ hkey => absurd hkey (Finset.notMem_empty _)⟩

section Record

variable {F : UInt32 → UInt32 → List Cf} {sent : Finset UInt64} {x : SimpleRunOranXapp}
  {ue : UeSrsData} (hF : ∀ a ∈ ue.antennaData, a.generatedSrs = F ue.rnti a.antennaId)

include hF

/-- The references of a record fill the cache up to its keys. -/
theorem InSync.references (h : InSync F sent x) :
    InSync F (sent ∪ SrsReportService.recordKeys ue) (x.onItems (ue.referencesSent sent)) ∧
      (x.onItems (ue.referencesSent sent)).completedSrsMessages = x.completedSrsMessages := by
  have hgenerated : ∀ g ∈ ue.referencesSent sent, g.generated = true ∧
      g.srs = quantiseAll (F g.rnti g.antennaId) := by
    intro g hg
    obtain ⟨a, ha, -, rfl⟩ := mem_referencesSent.mp hg
    exact ⟨rfl, congrArg quantiseAll (hF a ha)⟩
  obtain ⟨hpending, hcompleted⟩ := x.onItems_references fun g hg => (hgenerated g hg).1
  refine ⟨⟨hpending.trans h.pending_eq, ?_, fun rnti antennaId hkey => ?_⟩, hcompleted⟩
  · rw [SimpleRunOranXapp.latestTimingAdvance_onItems, h.timingAdvance_eq]
  · have hright : ∀ g ∈ ue.referencesSent sent, g.generated = true →
        g.srs = (fun r a => quantiseAll (F r a)) g.rnti g.antennaId :=
      fun g hg _ => (hgenerated g hg).2
    apply SimpleRunOranXapp.generatedStream_onItems_of_right x hright
    by_cases hsent : antennaKey rnti antennaId ∈ sent
    · exact Or.inl (h.cached rnti antennaId hsent)
    · -- a new key is one of the record, whose reference is among the items
      obtain ⟨a, ha, hakey⟩ := SrsReportService.mem_recordKeys.mp
        ((Finset.mem_union.mp hkey).resolve_left hsent)
      obtain ⟨rfl, rfl⟩ := antennaKey_inj.mp hakey
      exact Or.inr ⟨_, mem_referencesSent.mpr ⟨a, ha, hsent, rfl⟩, rfl, rfl, rfl⟩

/-- Its received streams complete its snapshot, once the references are there. -/
theorem InSync.received (h : InSync F sent x) (hnodup : (antennaIds ue.antennaData).Nodup)
    (hlen : ue.antennaData.length = x.expectedRxAntennas)
    (hkeys : SrsReportService.recordKeys ue ⊆ sent) :
    InSync F sent (x.onItems ue.receivedSent) ∧
      (x.onItems ue.receivedSent).completedSrsMessages =
        x.completedSrsMessages ++ [ue.delivered] := by
  have hcached : ∀ a ∈ ue.antennaData,
      x.generatedStream ue.rnti a.antennaId = some (quantiseAll a.generatedSrs) := by
    intro a ha
    rw [hF a ha]
    exact h.cached _ _ (hkeys (SrsReportService.mem_recordKeys.mpr ⟨a, ha, rfl⟩))
  have hrefs : ∀ item ∈ ue.receivedSent, (x.generatedStream ue.rnti item.antennaId).isSome := by
    intro item hitem
    obtain ⟨a, ha, rfl⟩ := mem_receivedSent.mp hitem
    exact Option.isSome_iff_exists.mpr ⟨_, hcached a ha⟩
  have hids : (ue.receivedSent.map SrsStreamItem.antennaId).Nodup := by
    rw [antennaId_receivedSent]
    exact SrsReportService.nodup_antennaIds_sortedAntennas hnodup
  have hsorted : (ue.receivedSent.map SrsStreamItem.antennaId).Pairwise
      fun a b => a.toNat ≤ b.toNat := by
    rw [antennaId_receivedSent]
    exact sorted_antennaIds_sortedAntennas ue.antennaData
  have hlength : ue.receivedSent.length = x.expectedRxAntennas :=
    (length_receivedSent ue).trans hlen
  obtain ⟨hempty, hsnapshot⟩ := SimpleRunOranXapp.onItems_received h.pending_eq
    (fun _ => occasion_of_mem_receivedSent) hlength hids hsorted hrefs
  refine ⟨⟨hempty, ?_, fun rnti antennaId hkey => ?_⟩, ?_⟩
  · rw [SimpleRunOranXapp.latestTimingAdvance_onItems, h.timingAdvance_eq]
  · rw [SimpleRunOranXapp.generatedStream_onItems_received _ _ fun item hitem =>
      (occasion_of_mem_receivedSent hitem).1]
    exact h.cached rnti antennaId hkey
  · have hdata : (ue.receivedSent.map fun item => SrsAntennaData.mk item.antennaId
        ((x.generatedStream ue.rnti item.antennaId).getD []) item.srs) =
          ue.delivered.antennaData := by
      rw [UeSrsData.receivedSent, List.map_map]
      apply List.map_congr_left
      intro a ha
      have hstream := hcached a (mem_sortedAntennas.mp ha)
      simp only [Function.comp_apply, SrsStreamItem.quantised, UeSrsData.receivedItem, hstream,
        Option.getD_some, SrsAntennaData.quantised]
    rw [hsnapshot, hdata, h.timingAdvance_eq, Std.ExtTreeMap.getElem?_empty]
    rfl

/-- **A record**: its snapshot is completed, and its keys are cached. -/
theorem InSync.record (h : InSync F sent x) (hnodup : (antennaIds ue.antennaData).Nodup)
    (hlen : ue.antennaData.length = x.expectedRxAntennas) :
    let y := x.onItems ((SrsReportService.recordItems sent ue).map SrsStreamItem.quantised)
    InSync F (sent ∪ SrsReportService.recordKeys ue) y ∧
      y.completedSrsMessages = x.completedSrsMessages ++ [ue.delivered] := by
  intro y
  obtain ⟨hsync, hsame⟩ := h.references hF
  have hlen' : ue.antennaData.length =
      (x.onItems (ue.referencesSent sent)).expectedRxAntennas := by
    rw [SimpleRunOranXapp.expectedRxAntennas_onItems, hlen]
  obtain ⟨hsync', hcompleted⟩ := hsync.received hF hnodup hlen' Finset.subset_union_right
  have hy : y = (x.onItems (ue.referencesSent sent)).onItems ue.receivedSent := by
    rw [← SimpleRunOranXapp.onItems_append, ← quantised_recordItems]
  rw [hy, hcompleted, hsame]
  exact ⟨hsync', rfl⟩

end Record

/-- **The items of any number of records.** -/
theorem InSync.records {F : UInt32 → UInt32 → List Cf} {records : List UeSrsData} :
    ∀ {sent : Finset UInt64} {x : SimpleRunOranXapp}, InSync F sent x →
      (∀ ue ∈ records, (antennaIds ue.antennaData).Nodup ∧
        ue.antennaData.length = x.expectedRxAntennas ∧
        ∀ a ∈ ue.antennaData, a.generatedSrs = F ue.rnti a.antennaId) →
      let y := x.onItems ((SrsReportService.recordsItems sent records).map SrsStreamItem.quantised)
      y.pendingReceivedSrs = ∅ ∧
        y.completedSrsMessages = x.completedSrsMessages ++ records.map UeSrsData.delivered := by
  induction records with
  | nil => exact fun h _ => ⟨h.pending_eq, (List.append_nil _).symm⟩
  | cons ue records ih =>
    intro sent x h hrecords y
    obtain ⟨hnodup, hlen, hF⟩ := hrecords ue List.mem_cons_self
    obtain ⟨hsync, hcompleted⟩ := h.record hF hnodup hlen
    obtain ⟨hpending, hrest⟩ := ih hsync fun ue' hue' => by
      rw [SimpleRunOranXapp.expectedRxAntennas_onItems]
      exact hrecords ue' (List.mem_cons_of_mem _ hue')
    have hy : y = (x.onItems ((SrsReportService.recordItems sent ue).map
        SrsStreamItem.quantised)).onItems ((SrsReportService.recordsItems
          (sent ∪ SrsReportService.recordKeys ue) records).map SrsStreamItem.quantised) := by
      rw [← SimpleRunOranXapp.onItems_append, ← List.map_append]
      rfl
    rw [hy]
    refine ⟨hpending, ?_⟩
    rw [hrest, hcompleted, List.append_assoc]
    rfl

/-! ## Exactly once -/

/-- Each antenna of each UE always has the same reference. -/
def ConstantReferences (events : List DuEvent) : Prop :=
  ∀ call ∈ additions events, ∀ call' ∈ additions events, call.rnti = call'.rnti →
    call.antennaId = call'.antennaId → call.generatedSrs = call'.generatedSrs

instance (events : List DuEvent) : Decidable (ConstantReferences events) :=
  inferInstanceAs (Decidable (∀ call ∈ additions events, ∀ call' ∈ additions events, _ → _ → _))

/-- The references as a function of UE and antenna. -/
theorem ConstantReferences.exists_function {events : List DuEvent} (h : ConstantReferences events) :
    ∃ F : UInt32 → UInt32 → List Cf, ∀ call ∈ additions events,
      call.generatedSrs = F call.rnti call.antennaId := by
  refine ⟨fun rnti antennaId => (((additions events).find? fun call =>
    call.rnti = rnti ∧ call.antennaId = antennaId).map AddCall.generatedSrs).getD [], ?_⟩
  intro call hcall
  obtain ⟨first, hfirst⟩ : ∃ first, (additions events).find? (fun call' =>
      call'.rnti = call.rnti ∧ call'.antennaId = call.antennaId) = some first := by
    refine Option.isSome_iff_exists.mp (List.find?_isSome.mpr ⟨call, hcall, ?_⟩)
    simp
  have hsame := List.find?_some hfirst
  rw [decide_eq_true_eq] at hsame
  obtain ⟨hrnti, hid⟩ := hsame
  simp only [hfirst, Option.map_some, Option.getD_some]
  exact h call hcall first (List.mem_of_find?_eq_some hfirst) hrnti.symm hid.symm

/-- Indications take no records from the collector. -/
theorem Du.records_replicate (k : Nat) (appendOk : Bool) :
    ∀ d : Du, d.records (List.replicate k (.getIndicationMessage appendOk)) = [] := by
  induction k with
  | zero => exact fun _ => rfl
  | succ k ih =>
    intro d
    rw [List.replicate_succ, records_cons, ih]
    rfl

/-- To the service, indications are indications. -/
theorem Du.serviceCalls_replicate (k : Nat) (appendOk : Bool) :
    ∀ d : Du, d.serviceCalls (List.replicate k (.getIndicationMessage appendOk)) =
      List.replicate k (.getIndicationMessage appendOk) := by
  induction k with
  | zero => exact fun _ => rfl
  | succ k ih =>
    intro d
    rw [List.replicate_succ, List.replicate_succ, serviceCalls, ih]
    rfl

/-- Enough indications drain the service. -/
theorem Du.exists_drained (d : Du) :
    ∃ k, (d.run (List.replicate k (.getIndicationMessage true))).service.isIndMsgReady = false := by
  refine ⟨d.service.pendingItems.length, ?_⟩
  have hdrain := SrsReportService.drain_pendingItems _ d.service (Nat.le_refl _)
  rw [Du.service_run, Du.serviceCalls_replicate, SrsReportService.isIndMsgReady, hdrain]
  rfl

/-- When the queue is empty, the messages decode to everything that was enqueued. -/
theorem decoded_of_drained {config : GnbSrsConfig} {events : List DuEvent}
    (hok : AllAppendsSucceed events)
    (hfits : ∀ item ∈ SrsReportService.recordsItems ∅ ((Du.init config).records events),
      (encodeSrsIndication [item]).length < 2 ^ 31)
    (hdrained : ((Du.init config).run events).service.isIndMsgReady = false) :
    (Du.init config).service.decoded ((Du.init config).serviceCalls events) =
      (SrsReportService.recordsItems ∅ ((Du.init config).records events)).map
        SrsStreamItem.quantised := by
  have henqueued : (Du.init config).service.enqueued ((Du.init config).serviceCalls events) =
      SrsReportService.recordsItems ∅ ((Du.init config).records events) :=
    Du.enqueued_eq events (Du.init config) (SrsDataCollector.wellFormed_init config)
  have hall : ∀ item ∈ (Du.init config).service.pendingItems ++
      (Du.init config).service.enqueued ((Du.init config).serviceCalls events),
      (encodeSrsIndication [item]).length < 2 ^ 31 := by
    rw [henqueued]
    exact hfits
  -- what was enqueued was sent, as nothing is left
  obtain ⟨sent, hsent, hdecoded⟩ := (Du.init config).service.exists_sent_of_fits _
    (Du.appendsSucceed_serviceCalls _ hok) hall
  have hempty : ((Du.init config).service.run
      ((Du.init config).serviceCalls events)).pendingItems = [] := by
    rw [← Du.service_run]
    simpa [SrsReportService.isIndMsgReady] using hdrained
  rw [henqueued, hempty, List.append_nil] at hsent
  rw [hdecoded, ← hsent]
  rfl

/-- What a drained run leaves at the xApp. -/
theorem onMessages_of_drained {config : GnbSrsConfig} (hn : 1 ≤ config.numRxAntennas.toNat)
    {events : List DuEvent} (hok : AllAppendsSucceed events) (hrefs : ConstantReferences events)
    (hfits : ∀ item ∈ SrsReportService.recordsItems ∅ ((Du.init config).records events),
      (encodeSrsIndication [item]).length < 2 ^ 31)
    (hdrained : ((Du.init config).run events).service.isIndMsgReady = false) :
    let x := (SimpleRunOranXapp.init config.numRxAntennas.toNat).onMessages
      ((Du.init config).messages events)
    x.pendingReceivedSrs = ∅ ∧ x.completedSrsMessages =
      ((Du.init config).records events).map UeSrsData.delivered := by
  obtain ⟨F, hF⟩ := hrefs.exists_function
  simp only [Du.onMessages_messages, decoded_of_drained hok hfits hdrained]
  have hexpected : (SimpleRunOranXapp.init config.numRxAntennas.toNat).expectedRxAntennas =
      config.numRxAntennas.toNat := by
    simp only [SimpleRunOranXapp.init]
    omega
  -- one record after the other, from one boundary to the next
  apply (inSync_init F config.numRxAntennas.toNat).records
  intro ue hue
  obtain ⟨hwell, hfull⟩ := Du.wellFormed_of_mem_records
    (SrsDataCollector.wellFormed_init config) hue
  refine ⟨hwell.nodup, ?_, fun a ha => ?_⟩
  · rw [hexpected]
    exact hwell.length_eq hn hfull
  · obtain ⟨call, hcall, hr, rfl⟩ := fromAdditions_of_mem_records hue a ha
    rw [← hr]
    exact hF call hcall

/-- **Exactly once.** If the appends succeed, each antenna has one reference and each stream
fits in a protobuf message, then enough indications drain the service, and once it is
drained, the xApp has completed one snapshot for each record that the collections returned,
in the same order, with the same `n` antennas, ascending and quantised; and nothing waits. -/
theorem exactly_once (config : GnbSrsConfig) (hn : 1 ≤ config.numRxAntennas.toNat)
    (events : List DuEvent) (hok : AllAppendsSucceed events) (hrefs : ConstantReferences events)
    (hfits : ∀ item ∈ SrsReportService.recordsItems ∅ ((Du.init config).records events),
      (encodeSrsIndication [item]).length < 2 ^ 31) :
    let records := (Du.init config).records events
    let drained := fun k => events ++ List.replicate k (.getIndicationMessage true)
    (∃ k, ((Du.init config).run (drained k)).service.isIndMsgReady = false) ∧
    (∀ k, ((Du.init config).run (drained k)).service.isIndMsgReady = false →
      let x := (SimpleRunOranXapp.init config.numRxAntennas.toNat).onMessages
        ((Du.init config).messages (drained k))
      x.completedSrsMessages = records.map UeSrsData.delivered ∧ x.pendingReceivedSrs = ∅) ∧
    ∀ ue ∈ records, ue.antennaData.length = config.numRxAntennas.toNat ∧
      (antennaIds ue.delivered.antennaData).Pairwise (· < ·) ∧
      ue.delivered.antennaData.Perm (ue.antennaData.map SrsAntennaData.quantised) := by
  intro records drained
  refine ⟨?_, fun k hdrained => ?_, fun ue hue => ?_⟩
  · obtain ⟨k, hk⟩ := ((Du.init config).run events).exists_drained
    refine ⟨k, ?_⟩
    rw [Du.run, Mealy.exec_append]
    exact hk
  · -- the indications at the end change neither the additions nor the records
    have hrecords : (Du.init config).records (drained k) = records := by
      rw [Du.records_append, Du.records_replicate, List.append_nil]
    have hadditions : additions (drained k) = additions events := by
      rw [additions_append, additions, additions, List.append_right_eq_self,
        List.filterMap_eq_nil_iff]
      intro e he
      rw [List.eq_of_mem_replicate he]
    have hok' : AllAppendsSucceed (drained k) := by
      rw [AllAppendsSucceed, List.mem_append, not_or]
      exact ⟨hok, fun hmem => by cases List.eq_of_mem_replicate hmem⟩
    have hrefs' : ConstantReferences (drained k) := by
      rw [ConstantReferences, hadditions]
      exact hrefs
    obtain ⟨hpending, hcompleted⟩ :=
      onMessages_of_drained hn hok' hrefs' (by rw [hrecords]; exact hfits) hdrained
    rw [hrecords] at hcompleted
    exact ⟨hcompleted, hpending⟩
  · obtain ⟨hwell, hfull⟩ := Du.wellFormed_of_mem_records
      (SrsDataCollector.wellFormed_init config) hue
    exact ⟨hwell.length_eq hn hfull, delivered_ascending hwell.nodup⟩

/-- Two antennas, two records of one UE with one timestamp, and an indication in between. -/
theorem exactly_once_equal_timestamps :
    let config : GnbSrsConfig := ⟨2, 0, 0, ⟨0⟩, ⟨0⟩, ⟨0⟩⟩
    let events := [DuEvent.addSrsData ⟨17, 1, [], [⟨.finite 1, .finite 0⟩], 1000⟩,
      .addSrsData ⟨17, 0, [], [], 1000⟩, .collectMeasurements, .getIndicationMessage true,
      .addSrsData ⟨17, 0, [], [⟨.finite 2, .finite 0⟩], 1000⟩,
      .addSrsData ⟨17, 1, [], [], 1000⟩, .collectMeasurements]
    ((SimpleRunOranXapp.init 2).onMessages ((Du.init config).messages
        (events ++ List.replicate 3 (.getIndicationMessage true)))).completedSrsMessages =
      [⟨17, 1000, [⟨0, [], []⟩, ⟨1, [], [⟨.finite 1, .finite 0⟩]⟩], none⟩,
        ⟨17, 1000, [⟨0, [], [⟨.finite 2, .finite 0⟩]⟩, ⟨1, [], []⟩], none⟩] := by
  intro config events
  have h := exactly_once config (by decide) events (by decide) (by decide +kernel)
    (by decide +kernel)
  refine (h.2.1 3 (by decide +kernel)).1.trans ?_
  decide +kernel

/-! ## A stream too large for protobuf -/

theorem lost_of_oversized {received : List Cf} (h : 2 ^ 29 ≤ received.length) :
    let config : GnbSrsConfig := ⟨1, 0, 0, ⟨0⟩, ⟨0⟩, ⟨0⟩⟩
    let events := [DuEvent.addSrsData ⟨17, 0, [], received, 1000⟩, .collectMeasurements,
      .getIndicationMessage true, .getIndicationMessage true]
    AllAppendsSucceed events ∧ ConstantReferences events ∧
      ((Du.init config).run events).service.isIndMsgReady = false ∧
      ((Du.init config).records events).length = 1 ∧
      ((SimpleRunOranXapp.init 1).onMessages
        ((Du.init config).messages events)).completedSrsMessages = [] := by
  intro config events
  have hcalls : (Du.init config).serviceCalls events =
      [.collectMeasurements (SrsReportService.oneUeCollector [] received),
        .getIndicationMessage true, .getIndicationMessage true] := rfl
  have hservice : (Du.init config).service = SrsReportService.init := rfl
  obtain ⟨hdecoded, hpending⟩ := SrsReportService.decoded_of_oversized h
  refine ⟨by simp [AllAppendsSucceed, events], ?_, ?_, ?_, ?_⟩
  · intro call hcall call' hcall' _ _
    rw [List.mem_singleton.mp hcall, List.mem_singleton.mp hcall']
  · rw [Du.service_run, hcalls, hservice, SrsReportService.isIndMsgReady, hpending]
    rfl
  · with_unfolding_all rfl
  · rw [Du.onMessages_messages, hcalls, hservice, hdecoded]
    rfl

/-- A received stream of `2 ^ 29` samples never arrives, so its record is not delivered. -/
theorem oversized_record_is_not_delivered :
    let config : GnbSrsConfig := ⟨1, 0, 0, ⟨0⟩, ⟨0⟩, ⟨0⟩⟩
    let events := [DuEvent.addSrsData ⟨17, 0, [],
        List.replicate (2 ^ 29) ⟨.finite 0, .finite 0⟩, 1000⟩, .collectMeasurements,
      .getIndicationMessage true, .getIndicationMessage true]
    AllAppendsSucceed events ∧ ConstantReferences events ∧
      ((Du.init config).run events).service.isIndMsgReady = false ∧
      ((Du.init config).records events).length = 1 ∧
      ((SimpleRunOranXapp.init 1).onMessages
        ((Du.init config).messages events)).completedSrsMessages = [] :=
  lost_of_oversized (Nat.le_of_eq List.length_replicate.symm)

end RunOran
