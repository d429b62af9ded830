import RunOran.EndToEnd

/-!
# Two numbers of antennas

The number of antennas of a record is configured at the DU, and that of a snapshot at the xApp; no
message carries either. If they differ, the xApp cuts the received streams of a record into chunks
of the size it expects, in the order in which they arrive, and what does not fill a chunk waits
(`onItems_chunks`). So a run delivers every record as a number of snapshots that depends on the
two numbers alone (`mismatched_antennas`), and with too few antennas none at all.
-/

namespace RunOran

open StableSort

/-! ## Chunks -/

section Chunk

variable {α : Type*}

/-- The `k`-th chunk of `m` elements. -/
def chunk (m k : Nat) (as : List α) : List α := (as.drop (k * m)).take m

/-- What is left over behind the whole chunks. -/
def leftover (m : Nat) (as : List α) : List α := as.drop (as.length / m * m)

/-- A whole chunk stays what it is. -/
theorem chunk_append {m k : Nat} {as : List α} (h : (k + 1) * m ≤ as.length) (more : List α) :
    chunk m k (as ++ more) = chunk m k as := by
  rw [Nat.add_mul, Nat.one_mul] at h
  rw [chunk, chunk, List.drop_append_of_le_length (by omega), List.take_append_of_le_length]
  rw [List.length_drop]
  omega

theorem chunk_map {β : Type*} (f : α → β) (m k : Nat) (as : List α) :
    chunk m k (as.map f) = (chunk m k as).map f := by
  rw [chunk, chunk, ← List.map_drop, List.map_take]

theorem leftover_map {β : Type*} (f : α → β) (m : Nat) (as : List α) :
    leftover m (as.map f) = (leftover m as).map f := by
  rw [leftover, leftover, List.length_map, List.map_drop]

theorem leftover_sublist (m : Nat) (as : List α) : (leftover m as).Sublist as :=
  List.drop_sublist _ _

theorem length_chunk {m k : Nat} {as : List α} (h : (k + 1) * m ≤ as.length) :
    (chunk m k as).length = m := by
  rw [Nat.add_mul, Nat.one_mul] at h
  rw [chunk, List.length_take, List.length_drop]
  omega

theorem length_leftover (m : Nat) (as : List α) : (leftover m as).length = as.length % m := by
  rw [leftover, List.length_drop, Nat.mod_eq_sub_div_mul]

theorem chunk_concat {m k : Nat} {as : List α} (hk : k < as.length / m) (a : α) :
    chunk m k (as ++ [a]) = chunk m k as :=
  chunk_append ((Nat.mul_le_mul_right m hk).trans (Nat.div_mul_le_self _ _)) [a]

/-- An element that does not fill a chunk joins what is left over. -/
theorem concat_of_few {m : Nat} {as : List α} (h : (leftover m as).length + 1 < m) (a : α) :
    (as ++ [a]).length / m = as.length / m ∧ leftover m (as ++ [a]) = leftover m as ++ [a] := by
  rw [length_leftover] at h
  have hlen : as.length / m * m + as.length % m = as.length := Nat.div_add_mod' _ _
  have hdiv : (as ++ [a]).length / m = as.length / m := by
    apply Nat.div_eq_of_lt_le
    · rw [List.length_append]
      omega
    · rw [List.length_append, List.length_singleton, Nat.add_mul]
      omega
  refine ⟨hdiv, ?_⟩
  rw [leftover, hdiv, leftover, List.drop_append_of_le_length (Nat.div_mul_le_self _ _)]

/-- One that does makes up another chunk with what is left over. -/
theorem concat_of_whole {m : Nat} {as : List α} (h : (leftover m as).length + 1 = m) (a : α) :
    (as ++ [a]).length / m = as.length / m + 1 ∧ leftover m (as ++ [a]) = [] ∧
      chunk m (as.length / m) (as ++ [a]) = leftover m as ++ [a] := by
  have hrest := h
  rw [length_leftover] at h
  have hlen : as.length / m * m + as.length % m = as.length := Nat.div_add_mod' _ _
  have hall : (as ++ [a]).length = (as.length / m + 1) * m := by
    rw [List.length_append, List.length_singleton, Nat.add_mul]
    omega
  have hdiv : (as ++ [a]).length / m = as.length / m + 1 := by
    rw [hall, Nat.mul_div_cancel _ (by omega)]
  refine ⟨hdiv, ?_, ?_⟩
  · rw [leftover, hdiv, ← hall, List.drop_length]
  · rw [chunk, List.drop_append_of_le_length (Nat.div_mul_le_self _ _), ← leftover,
      List.take_of_length_le]
    rw [List.length_append, List.length_singleton, hrest]

end Chunk

namespace SimpleRunOranXapp

/-! ## The streams of an occasion, in chunks -/

section Received

variable {x : SimpleRunOranXapp} {key : UInt32 × UInt64}

/-- Streams in ascending order are assembled as they are. -/
theorem assembled_of_sorted {items : List SrsStreamItem}
    (hids : (items.map SrsStreamItem.antennaId).Nodup)
    (hsorted : (items.map SrsStreamItem.antennaId).Pairwise fun a b => a.toNat ≤ b.toNat)
    (hlen : items.length = x.expectedRxAntennas) (rnti : UInt32) :
    x.assembled rnti (streamsOf items) = items.map fun item =>
      ⟨item.antennaId, (x.generatedStream rnti item.antennaId).getD [], item.srs⟩ := by
  rw [assembled_streamsOf hids hlen, keys_streamsOf hids hsorted, List.map_map]
  apply List.map_congr_left
  intro item hitem
  have hstream : (streamsOf items)[item.antennaId]? = some item.srs :=
    (getElem?_streamsOf hids).mpr ⟨item, hitem, rfl, rfl⟩
  simp only [Function.comp_apply, Std.ExtTreeMap.getD_eq_getD_getElem?, hstream, Option.getD_some]

/-- The snapshot that some streams of an occasion make up. -/
def chunkSnapshot (x : SimpleRunOranXapp) (key : UInt32 × UInt64) (items : List SrsStreamItem) :
    Snapshot :=
  ⟨key.1, key.2, items.map fun item =>
    ⟨item.antennaId, (x.generatedStream key.1 item.antennaId).getD [], item.srs⟩,
    x.latestTimingAdvance[key.1]?⟩

/-- **The streams of an occasion, in ascending order, are cut into chunks.** -/
theorem onItems_chunks (hempty : x.receivedStreams key = ∅) {items : List SrsStreamItem} :
    (∀ item ∈ items, item.generated = false ∧ item.ueKey = key) →
      (items.map SrsStreamItem.antennaId).Nodup →
      (items.map SrsStreamItem.antennaId).Pairwise (fun a b => a.toNat ≤ b.toNat) →
      (∀ item ∈ items, (x.generatedStream key.1 item.antennaId).isSome) →
      (x.onItems items).completedSrsMessages = x.completedSrsMessages ++
          (List.range (items.length / x.expectedRxAntennas)).map (fun k =>
            x.chunkSnapshot key (chunk x.expectedRxAntennas k items)) ∧
        (x.onItems items).receivedStreams key = streamsOf (leftover x.expectedRxAntennas items) ∧
        ∀ k, k ≠ key → (x.onItems items).receivedStreams k = x.receivedStreams k := by
  induction items using List.reverseRecOn with
  | nil =>
    intro _ _ _ _
    rw [List.length_nil, Nat.zero_div, leftover, List.drop_nil]
    exact ⟨(List.append_nil _).symm, hempty, fun k _ => rfl⟩
  | append_singleton items item ih =>
    intro h hids hsorted hrefs
    obtain ⟨hgen, rfl⟩ := h item (by simp)
    have hbefore : ∀ item' ∈ items, item'.generated = false ∧ item'.ueKey = item.ueKey :=
      fun item' hitem' => h item' (List.mem_append_left _ hitem')
    have hids' := hids
    have hsorted' := hsorted
    rw [List.map_append, List.nodup_append] at hids'
    rw [List.map_append, List.pairwise_append] at hsorted'
    obtain ⟨hcompleted, hstreams, hothers⟩ := ih hbefore hids'.1 hsorted'.1
      fun item' hitem' => hrefs item' (List.mem_append_left _ hitem')
    have harrived := arrived_of_receivedStreams hstreams
    have hcache : ∀ a, (x.onItems items).generatedStream item.rnti a =
        x.generatedStream item.rnti a := fun a =>
      generatedStream_onItems_received _ _ fun item' hitem' => (hbefore item' hitem').1
    -- what waits is the last part of what has arrived
    have hlast : (leftover x.expectedRxAntennas items ++ [item]).Sublist (items ++ [item]) :=
      (leftover_sublist _ _).append (List.Sublist.refl _)
    have hchunks : ∀ k ∈ List.range (items.length / x.expectedRxAntennas),
        x.chunkSnapshot item.ueKey (chunk x.expectedRxAntennas k (items ++ [item])) =
          x.chunkSnapshot item.ueKey (chunk x.expectedRxAntennas k items) := fun k hk => by
      rw [chunk_concat (List.mem_range.mp hk)]
    have hsize : (leftover x.expectedRxAntennas items).length < x.expectedRxAntennas := by
      rw [length_leftover]
      exact Nat.mod_lt _ x.expected_pos
    have hlength : (leftover x.expectedRxAntennas items ++ [item]).length =
        (leftover x.expectedRxAntennas items).length + 1 := by simp
    rw [onItems_concat, completedSrsMessages_onItem_received _ hgen, hcompleted]
    simp only [receivedStreams_onItem_received _ hgen, harrived]
    rcases Nat.lt_or_eq_of_le hsize with hfew | hwhole
    · have hnot : ¬ (x.onItems items).Ready item.rnti
          (streamsOf (leftover x.expectedRxAntennas items ++ [item])) := by
        apply not_ready_of_few
        rw [expectedRxAntennas_onItems, hlength]
        exact hfew
      obtain ⟨hdiv, hleft⟩ := concat_of_few hfew item
      rw [if_neg hnot, if_true, if_neg hnot, hdiv, hleft, List.map_congr_left hchunks]
      exact ⟨rfl, rfl, fun k hk => (if_neg (Ne.symm hk)).trans (hothers k hk)⟩
    · have hlen : (leftover x.expectedRxAntennas items ++ [item]).length =
          (x.onItems items).expectedRxAntennas := by
        rw [expectedRxAntennas_onItems, hlength]
        exact hwhole
      have hready : (x.onItems items).Ready item.rnti
          (streamsOf (leftover x.expectedRxAntennas items ++ [item])) := by
        rw [ready_streamsOf (hids.sublist (hlast.map _)) hlen]
        intro item' hitem'
        rw [hcache]
        exact hrefs item' (hlast.subset hitem')
      obtain ⟨hdiv, hleft, hchunk⟩ := concat_of_whole hwhole item
      rw [if_pos hready, if_true, if_pos hready, hdiv, hleft, List.range_succ, List.map_append,
        List.map_singleton, hchunk, List.map_congr_left hchunks,
        assembled_of_sorted (hids.sublist (hlast.map _)) (hsorted.sublist (hlast.map _)) hlen,
        latestTimingAdvance_onItems, List.append_assoc]
      simp only [hcache]
      exact ⟨rfl, rfl, fun k hk => (if_neg (Ne.symm hk)).trans (hothers k hk)⟩

end Received

end SimpleRunOranXapp

/-! ## Records -/

/-- What an xApp that expects `m` antennas makes of a record. -/
def UeSrsData.deliveredInChunks (m : Nat) (ue : UeSrsData) : List Snapshot :=
  (List.range (ue.antennaData.length / m)).map fun k =>
    { ue.delivered with antennaData := chunk m k ue.delivered.antennaData }

theorem antennaIds_delivered (ue : UeSrsData) :
    antennaIds ue.delivered.antennaData = antennaIds (sortedAntennas ue.antennaData) := by
  rw [UeSrsData.delivered, antennaIds, List.map_map]
  rfl

theorem length_of_mem_deliveredInChunks {m : Nat} {ue : UeSrsData} {s : Snapshot}
    (hs : s ∈ ue.deliveredInChunks m) : s.antennaData.length = m := by
  obtain ⟨k, hk, rfl⟩ := List.mem_map.mp hs
  apply length_chunk
  have hlen : ue.delivered.antennaData.length = ue.antennaData.length := by
    rw [UeSrsData.delivered, List.length_map]
    exact (SrsReportService.sortedAntennas_perm ue.antennaData).length_eq
  rw [hlen]
  exact (Nat.mul_le_mul_right m (List.mem_range.mp hk)).trans (Nat.div_mul_le_self _ _)

/-- Where a record is filed. -/
def UeSrsData.ueKey (ue : UeSrsData) : UInt32 × UInt64 := (ue.rnti, ue.timestamp)

/-- Every key that the service remembers has its reference, `F`, in the cache. Something may
wait. -/
structure Fed (F : UInt32 → UInt32 → List Cf) (sent : Finset UInt64)
    (x : SimpleRunOranXapp) : Prop where
  timingAdvance_eq : x.latestTimingAdvance = ∅
  cached : ∀ rnti antennaId, antennaKey rnti antennaId ∈ sent →
    x.generatedStream rnti antennaId = some (quantiseAll (F rnti antennaId))

theorem fed_init (F : UInt32 → UInt32 → List Cf) (n : ℤ) : Fed F ∅ (SimpleRunOranXapp.init n) :=
  ⟨rfl, fun _ _ hkey => absurd hkey (Finset.notMem_empty _)⟩

section Record

variable {F : UInt32 → UInt32 → List Cf} {sent : Finset UInt64} {x : SimpleRunOranXapp}
  {ue : UeSrsData} (hF : ∀ a ∈ ue.antennaData, a.generatedSrs = F ue.rnti a.antennaId)

include hF

/-- The references of a record fill the cache up to its keys, and change nothing else. -/
theorem Fed.references (h : Fed F sent x) :
    let y := x.onItems (ue.referencesSent sent)
    Fed F (sent ∪ SrsReportService.recordKeys ue) y ∧
      y.completedSrsMessages = x.completedSrsMessages ∧
      ∀ key, y.receivedStreams key = x.receivedStreams key := by
  intro y
  have hgenerated : ∀ g ∈ ue.referencesSent sent, g.generated = true ∧
      g.srs = quantiseAll (F g.rnti g.antennaId) := by
    intro g hg
    obtain ⟨a, ha, -, rfl⟩ := mem_referencesSent.mp hg
    exact ⟨rfl, congrArg quantiseAll (hF a ha)⟩
  have hright : ∀ g ∈ ue.referencesSent sent, g.generated = true →
      g.srs = (fun r a => quantiseAll (F r a)) g.rnti g.antennaId :=
    fun g hg _ => (hgenerated g hg).2
  obtain ⟨hpending, hcompleted⟩ := x.onItems_references fun g hg => (hgenerated g hg).1
  refine ⟨⟨?_, fun rnti antennaId hkey => ?_⟩, hcompleted, fun key => ?_⟩
  · rw [SimpleRunOranXapp.latestTimingAdvance_onItems, h.timingAdvance_eq]
  · apply SimpleRunOranXapp.generatedStream_onItems_of_right x hright
    by_cases hsent : antennaKey rnti antennaId ∈ sent
    · exact Or.inl (h.cached rnti antennaId hsent)
    · -- the reference of a new key is among the items
      obtain ⟨a, ha, hakey⟩ := SrsReportService.mem_recordKeys.mp
        ((Finset.mem_union.mp hkey).resolve_left hsent)
      obtain ⟨rfl, rfl⟩ := antennaKey_inj.mp hakey
      exact Or.inr ⟨_, mem_referencesSent.mpr ⟨a, ha, hsent, rfl⟩, rfl, rfl, rfl⟩
  · rw [SimpleRunOranXapp.receivedStreams, hpending, SimpleRunOranXapp.receivedStreams]

/-- Its received streams are delivered in chunks, and the rest waits. -/
theorem Fed.received (h : Fed F sent x) (hnodup : (antennaIds ue.antennaData).Nodup)
    (hkeys : SrsReportService.recordKeys ue ⊆ sent) (hempty : x.receivedStreams ue.ueKey = ∅) :
    let y := x.onItems ue.receivedSent
    Fed F sent y ∧
      y.completedSrsMessages =
        x.completedSrsMessages ++ ue.deliveredInChunks x.expectedRxAntennas ∧
      y.receivedStreams ue.ueKey = streamsOf (leftover x.expectedRxAntennas ue.receivedSent) ∧
      ∀ key, key ≠ ue.ueKey → y.receivedStreams key = x.receivedStreams key := by
  intro y
  have hcached : ∀ a ∈ sortedAntennas ue.antennaData,
      x.generatedStream ue.rnti a.antennaId = some (quantiseAll a.generatedSrs) := by
    intro a ha
    rw [hF a (mem_sortedAntennas.mp ha)]
    refine h.cached _ _ (hkeys (SrsReportService.mem_recordKeys.mpr ?_))
    exact ⟨a, mem_sortedAntennas.mp ha, rfl⟩
  have hids : (ue.receivedSent.map SrsStreamItem.antennaId).Nodup := by
    rw [antennaId_receivedSent]
    exact SrsReportService.nodup_antennaIds_sortedAntennas hnodup
  have hsorted : (ue.receivedSent.map SrsStreamItem.antennaId).Pairwise
      fun a b => a.toNat ≤ b.toNat := by
    rw [antennaId_receivedSent]
    exact sorted_antennaIds_sortedAntennas ue.antennaData
  have hrefs : ∀ item ∈ ue.receivedSent, (x.generatedStream ue.rnti item.antennaId).isSome := by
    intro item hitem
    obtain ⟨a, ha, rfl⟩ := mem_receivedSent.mp hitem
    exact Option.isSome_iff_exists.mpr ⟨_, hcached a (mem_sortedAntennas.mpr ha)⟩
  obtain ⟨hcompleted, hstreams, hothers⟩ := SimpleRunOranXapp.onItems_chunks hempty
    (fun _ => occasion_of_mem_receivedSent) hids hsorted hrefs
  refine ⟨⟨?_, fun rnti antennaId hkey => ?_⟩, ?_, hstreams, hothers⟩
  · rw [SimpleRunOranXapp.latestTimingAdvance_onItems, h.timingAdvance_eq]
  · rw [SimpleRunOranXapp.generatedStream_onItems_received _ _ fun item hitem =>
      (occasion_of_mem_receivedSent hitem).1]
    exact h.cached rnti antennaId hkey
  · rw [hcompleted, length_receivedSent]
    refine congrArg (x.completedSrsMessages ++ ·) (List.map_congr_left fun k _ => ?_)
    have hdata : ((chunk x.expectedRxAntennas k ue.receivedSent).map fun item =>
        SrsAntennaData.mk item.antennaId ((x.generatedStream ue.rnti item.antennaId).getD [])
          item.srs) = chunk x.expectedRxAntennas k ue.delivered.antennaData := by
      rw [UeSrsData.receivedSent, UeSrsData.delivered, chunk_map, chunk_map, List.map_map]
      apply List.map_congr_left
      intro a ha
      have hstream := hcached a (List.mem_of_mem_drop (List.mem_of_mem_take ha))
      simp only [Function.comp_apply, SrsStreamItem.quantised, UeSrsData.receivedItem, hstream,
        Option.getD_some, SrsAntennaData.quantised]
    refine Eq.trans ?_ (congrArg (Snapshot.mk ue.rnti ue.timestamp · none) hdata)
    rw [SimpleRunOranXapp.chunkSnapshot, h.timingAdvance_eq, Std.ExtTreeMap.getElem?_empty]
    rfl

/-- **A record**: it is delivered in chunks, and its keys are cached. -/
theorem Fed.record (h : Fed F sent x) (hnodup : (antennaIds ue.antennaData).Nodup)
    (hempty : x.receivedStreams ue.ueKey = ∅) :
    let y := x.onItems ((SrsReportService.recordItems sent ue).map SrsStreamItem.quantised)
    Fed F (sent ∪ SrsReportService.recordKeys ue) y ∧
      y.completedSrsMessages =
        x.completedSrsMessages ++ ue.deliveredInChunks x.expectedRxAntennas ∧
      y.receivedStreams ue.ueKey = streamsOf (leftover x.expectedRxAntennas ue.receivedSent) ∧
      ∀ key, key ≠ ue.ueKey → y.receivedStreams key = x.receivedStreams key := by
  intro y
  obtain ⟨hfed, hsame, hwaits⟩ := h.references hF
  obtain ⟨hfed', hcompleted, hstreams, hothers⟩ :=
    hfed.received hF hnodup Finset.subset_union_right ((hwaits ue.ueKey).trans hempty)
  have hy : y = (x.onItems (ue.referencesSent sent)).onItems ue.receivedSent := by
    rw [← SimpleRunOranXapp.onItems_append, ← quantised_recordItems]
  rw [SimpleRunOranXapp.expectedRxAntennas_onItems] at hcompleted hstreams
  rw [hy, hcompleted, hsame]
  exact ⟨hfed', rfl, hstreams, fun key hkey => (hothers key hkey).trans (hwaits key)⟩

end Record

/-- **The items of records under different keys.** -/
theorem Fed.records {F : UInt32 → UInt32 → List Cf} {records : List UeSrsData} :
    ∀ {sent : Finset UInt64} {x : SimpleRunOranXapp}, Fed F sent x →
      (∀ ue ∈ records, (antennaIds ue.antennaData).Nodup ∧
        (∀ a ∈ ue.antennaData, a.generatedSrs = F ue.rnti a.antennaId) ∧
        x.receivedStreams ue.ueKey = ∅) →
      (records.map UeSrsData.ueKey).Nodup →
      let y := x.onItems ((SrsReportService.recordsItems sent records).map SrsStreamItem.quantised)
      y.completedSrsMessages = x.completedSrsMessages ++
          records.flatMap (UeSrsData.deliveredInChunks x.expectedRxAntennas) ∧
        (∀ ue ∈ records, y.receivedStreams ue.ueKey =
          streamsOf (leftover x.expectedRxAntennas ue.receivedSent)) ∧
        ∀ key, key ∉ records.map UeSrsData.ueKey →
          y.receivedStreams key = x.receivedStreams key := by
  induction records with
  | nil =>
    intro sent x _ _ _
    exact ⟨(List.append_nil _).symm, fun _ hue => (List.not_mem_nil hue).elim, fun _ _ => rfl⟩
  | cons ue records ih =>
    intro sent x h hrecords hkeys y
    rw [List.map_cons, List.nodup_cons] at hkeys
    obtain ⟨hnodup, hF, hempty⟩ := hrecords ue List.mem_cons_self
    obtain ⟨hfed, hcompleted, hstreams, hothers⟩ := h.record hF hnodup hempty
    obtain ⟨hrest, hwaiting, hstays⟩ := ih hfed (fun ue' hue' => by
      have hne : ue'.ueKey ≠ ue.ueKey := fun heq => hkeys.1 (heq ▸ List.mem_map_of_mem hue')
      obtain ⟨hnodup', hF', hempty'⟩ := hrecords ue' (List.mem_cons_of_mem _ hue')
      exact ⟨hnodup', hF', (hothers _ hne).trans hempty'⟩) hkeys.2
    have hy : y = (x.onItems ((SrsReportService.recordItems sent ue).map
        SrsStreamItem.quantised)).onItems ((SrsReportService.recordsItems
          (sent ∪ SrsReportService.recordKeys ue) records).map SrsStreamItem.quantised) := by
      rw [← SimpleRunOranXapp.onItems_append, ← List.map_append]
      rfl
    rw [SimpleRunOranXapp.expectedRxAntennas_onItems] at hrest hwaiting
    rw [hy]
    refine ⟨?_, fun ue' hue' => ?_, fun key hkey => ?_⟩
    · rw [hrest, hcompleted, List.append_assoc, List.flatMap_cons]
    · rcases List.mem_cons.mp hue' with rfl | hue'
      · rw [hstays _ hkeys.1, hstreams]
      · exact hwaiting ue' hue'
    · rw [List.map_cons, List.mem_cons, not_or] at hkey
      rw [hstays key hkey.2, hothers key hkey.1]

/-- **Two numbers of antennas.** Let the DU make records of `n` antennas, under different keys and
with constant references, no append fail and each stream fit, and let the xApp expect `m`. Once
the service is drained, each record has become `n / m` snapshots of `m` antennas, one chunk after
the other in ascending order; the streams of the `n % m` highest antennas wait; and nothing else
does. -/
theorem mismatched_antennas (config : GnbSrsConfig) (hn : 1 ≤ config.numRxAntennas.toNat)
    (numRxAntennas : ℤ) (events : List DuEvent) (hok : AllAppendsSucceed events)
    (hrefs : ConstantReferences events)
    (hkeys : (((Du.init config).records events).map UeSrsData.ueKey).Nodup)
    (hfits : ∀ item ∈ SrsReportService.recordsItems ∅ ((Du.init config).records events),
      (encodeSrsIndication [item]).length < 2 ^ 31)
    (hdrained : ((Du.init config).run events).service.isIndMsgReady = false) :
    let n := config.numRxAntennas.toNat
    let m := (SimpleRunOranXapp.init numRxAntennas).expectedRxAntennas
    let records := (Du.init config).records events
    let x := (SimpleRunOranXapp.init numRxAntennas).onMessages ((Du.init config).messages events)
    x.completedSrsMessages = records.flatMap (UeSrsData.deliveredInChunks m) ∧
      (∀ ue ∈ records, (ue.deliveredInChunks m).length = n / m ∧
        (∀ s ∈ ue.deliveredInChunks m, s.antennaData.length = m) ∧
        (x.receivedStreams ue.ueKey).keys = leftover m (antennaIds ue.delivered.antennaData) ∧
        (x.receivedStreams ue.ueKey).size = n % m) ∧
      ∀ key, key ∉ records.map UeSrsData.ueKey → x.receivedStreams key = ∅ := by
  intro n m records x
  obtain ⟨F, hF⟩ := hrefs.exists_function
  have hrecords : ∀ ue ∈ records, (antennaIds ue.antennaData).Nodup ∧
      (∀ a ∈ ue.antennaData, a.generatedSrs = F ue.rnti a.antennaId) ∧
      (SimpleRunOranXapp.init numRxAntennas).receivedStreams ue.ueKey = ∅ := by
    intro ue hue
    obtain ⟨hwell, -⟩ := Du.wellFormed_of_mem_records
      (SrsDataCollector.wellFormed_init config) hue
    refine ⟨hwell.nodup, fun a ha => ?_, SimpleRunOranXapp.receivedStreams_init _ _⟩
    obtain ⟨call, hcall, hr, rfl⟩ := fromAdditions_of_mem_records hue a ha
    rw [← hr]
    exact hF call hcall
  obtain ⟨hcompleted, hwaiting, hothers⟩ := (fed_init F numRxAntennas).records hrecords hkeys
  have hx : x = (SimpleRunOranXapp.init numRxAntennas).onItems
      ((SrsReportService.recordsItems ∅ records).map SrsStreamItem.quantised) := by
    rw [← decoded_of_drained hok hfits hdrained]
    exact Du.onMessages_messages ..
  rw [hx]
  refine ⟨hcompleted, fun ue hue => ?_, fun key hkey => ?_⟩
  · obtain ⟨hwell, hfull⟩ := Du.wellFormed_of_mem_records
      (SrsDataCollector.wellFormed_init config) hue
    have hlen : ue.antennaData.length = n := hwell.length_eq hn hfull
    have hleft := (leftover_sublist m ue.receivedSent).map SrsStreamItem.antennaId
    have hids : ((leftover m ue.receivedSent).map SrsStreamItem.antennaId).Nodup := by
      refine List.Nodup.sublist hleft ?_
      rw [antennaId_receivedSent]
      exact SrsReportService.nodup_antennaIds_sortedAntennas hwell.nodup
    refine ⟨?_, fun s hs => ?_, ?_, ?_⟩
    · rw [UeSrsData.deliveredInChunks, List.length_map, List.length_range, hlen]
    · exact length_of_mem_deliveredInChunks hs
    · rw [hwaiting ue hue, keys_streamsOf hids, ← leftover_map, antennaId_receivedSent,
        antennaIds_delivered]
      · refine List.Pairwise.sublist hleft ?_
        rw [antennaId_receivedSent]
        exact sorted_antennaIds_sortedAntennas ue.antennaData
    · rw [hwaiting ue hue, size_streamsOf hids, length_leftover, length_receivedSent, hlen]
  · rw [hothers key hkey]
    exact SimpleRunOranXapp.receivedStreams_init _ _

/-- Three antennas at the DU and two at the xApp, as by default: of each record the third antenna
is left over. -/
theorem mismatched_antennas_three_and_two :
    let events := [DuEvent.addSrsData ⟨17, 2, [], [⟨.finite 1, .finite 0⟩], 1000⟩,
      .addSrsData ⟨17, 0, [], [], 1000⟩, .addSrsData ⟨17, 1, [], [], 1000⟩, .collectMeasurements,
      .getIndicationMessage true, .getIndicationMessage true, .getIndicationMessage true,
      .getIndicationMessage true]
    let x := (SimpleRunOranXapp.init 2).onMessages
      ((Du.init ⟨3, 0, 0, ⟨0⟩, ⟨0⟩, ⟨0⟩⟩).messages events)
    x.completedSrsMessages = [⟨17, 1000, [⟨0, [], []⟩, ⟨1, [], []⟩], none⟩] ∧
      (x.receivedStreams (17, 1000)).keys = [2] := by
  intro events x
  obtain ⟨hcompleted, hwaiting, -⟩ := mismatched_antennas ⟨3, 0, 0, ⟨0⟩, ⟨0⟩, ⟨0⟩⟩ (by decide) 2
    events (by decide) (by decide +kernel) (by decide +kernel) (by decide +kernel)
    (by decide +kernel)
  have hone : (Du.init ⟨3, 0, 0, ⟨0⟩, ⟨0⟩, ⟨0⟩⟩).records events =
      [⟨17, 1000, [⟨2, [], [⟨.finite 1, .finite 0⟩]⟩, ⟨0, [], []⟩, ⟨1, [], []⟩]⟩] := by
    decide +kernel
  rw [hone] at hcompleted hwaiting
  exact ⟨hcompleted, (hwaiting _ List.mem_cons_self).2.2.1⟩

end RunOran
