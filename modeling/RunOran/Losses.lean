import RunOran.Mismatch
import Mathlib.Data.List.Flatten

/-!
# Messages that are lost

An indication may be lost on three ways: its append fails, protobuf refuses it, or nothing becomes
of the message behind the DU. Whatever the reason, what arrives at the xApp is a subsequence of
what was enqueued. The service does not notice and sends nothing again, so the loss is final; and
as it sends the reference of an antenna once, with the first record that has it, the loss of a
reference is also one for the records behind.

`losses` says that this is all the harm there is. A record is delivered exactly if all its streams
have arrived, each received stream and the one reference of each antenna, and it is delivered as if
nothing had been lost; what has arrived of any other record waits at the xApp for ever. The proof
is an induction over the records from the front, with what has arrived cut at the same place.
-/

namespace RunOran

open Protobuf StableSort

/-! ## What waits -/

namespace SimpleRunOranXapp

variable {x : SimpleRunOranXapp} {key : UInt32 × UInt64}

/-- **Streams of an occasion wait** as long as one is missing, or a reference. -/
theorem onItems_waiting (hempty : x.receivedStreams key = ∅) {items : List SrsStreamItem} :
    (∀ item ∈ items, item.generated = false ∧ item.ueKey = key) →
      (items.map SrsStreamItem.antennaId).Nodup → items.length ≤ x.expectedRxAntennas →
      (items.length = x.expectedRxAntennas →
        ∃ item ∈ items, (x.generatedStream key.1 item.antennaId).isSome = false) →
      (x.onItems items).completedSrsMessages = x.completedSrsMessages ∧
        (x.onItems items).receivedStreams key = streamsOf items ∧
        ∀ k, k ≠ key → (x.onItems items).receivedStreams k = x.receivedStreams k := by
  induction items using List.reverseRecOn with
  | nil => exact fun _ _ _ _ => ⟨rfl, hempty, fun k _ => rfl⟩
  | append_singleton items item ih =>
    intro h hids hle hmissing
    obtain ⟨hgen, rfl⟩ := h item (by simp)
    have hbefore : ∀ item' ∈ items, item'.generated = false ∧ item'.ueKey = item.ueKey :=
      fun item' hitem' => h item' (List.mem_append_left _ hitem')
    have hids' : (items.map SrsStreamItem.antennaId).Nodup :=
      hids.sublist ((List.sublist_append_left items [item]).map _)
    have hlen : (items ++ [item]).length = items.length + 1 := by simp
    obtain ⟨hcompleted, hstreams, hothers⟩ := ih hbefore hids' (by omega) (by omega)
    have harrived : (x.onItems items).arrived item = streamsOf (items ++ [item]) :=
      arrived_of_receivedStreams hstreams
    have hnot : ¬ (x.onItems items).Ready item.rnti (streamsOf (items ++ [item])) := by
      rcases Nat.lt_or_eq_of_le hle with hfew | hfull
      · apply not_ready_of_few
        rw [expectedRxAntennas_onItems]
        exact hfew
      · -- all are there, and the reference of one is not
        obtain ⟨item', hitem', hnone⟩ := hmissing hfull
        have hlength : (items ++ [item]).length = (x.onItems items).expectedRxAntennas := by
          rw [expectedRxAntennas_onItems, hfull]
        rw [ready_streamsOf hids hlength]
        intro hall
        have hsome := hall item' hitem'
        rw [generatedStream_onItems_received _ _ fun i hi => (hbefore i hi).1] at hsome
        exact Bool.false_ne_true (hnone.symm.trans hsome)
    rw [onItems_concat, completedSrsMessages_onItem_received _ hgen, harrived, if_neg hnot]
    simp only [receivedStreams_onItem_received _ hgen, harrived, if_neg hnot, if_true]
    exact ⟨hcompleted, trivial, fun k hk => (if_neg (Ne.symm hk)).trans (hothers k hk)⟩

end SimpleRunOranXapp

/-! ## What arrives of a record -/

/-- All streams of a record are among these items: its received streams, and a reference of each
of its antennas. -/
def UeSrsData.HasArrived (items : List SrsStreamItem) (ue : UeSrsData) : Prop :=
  ∀ a ∈ ue.antennaData, (ue.receivedItem a).quantised ∈ items ∧
    ∃ g ∈ items, g.IsReferenceOf ue.rnti a.antennaId

instance (items : List SrsStreamItem) (ue : UeSrsData) : Decidable (ue.HasArrived items) :=
  inferInstanceAs (Decidable (∀ a ∈ ue.antennaData, _ ∧ _))

namespace SrsReportService

/-- The keys of a record are known after it. -/
theorem recordKeys_subset_keysAfter {records : List UeSrsData} {ue : UeSrsData}
    (hue : ue ∈ records) (sent : Finset UInt64) : recordKeys ue ⊆ keysAfter sent records := by
  induction records using List.reverseRecOn with
  | nil => cases hue
  | append_singleton records ue' ih =>
    have hlast : keysAfter sent (records ++ [ue']) = keysAfter sent records ∪ recordKeys ue' :=
      List.foldl_concat ..
    rw [hlast]
    rcases List.mem_append.mp hue with hbefore | hlast
    · exact (ih hbefore).trans Finset.subset_union_left
    · obtain rfl := List.mem_singleton.mp hlast
      exact Finset.subset_union_right

end SrsReportService

section Arrival

variable {records : List UeSrsData} {arrived : List SrsStreamItem}
  (h : arrived.Sublist ((SrsReportService.recordsItems ∅ records).map SrsStreamItem.quantised))

include h

/-- A received stream that has arrived is one of a record. -/
theorem ueKey_mem_of_sublist {item : SrsStreamItem} (hitem : item ∈ arrived)
    (hgen : item.generated = false) : item.ueKey ∈ records.map UeSrsData.ueKey := by
  obtain ⟨sent, hsent, rfl⟩ := List.mem_map.mp (h.subset hitem)
  obtain ⟨ue, hue, a, -, rfl | rfl⟩ := SrsReportService.exists_of_mem_recordsItems hsent
  · cases hgen
  · exact List.mem_map_of_mem hue

/-- A reference that has arrived is the right one. -/
theorem srs_eq_of_sublist {F : UInt32 → UInt32 → List Cf}
    (hF : ∀ ue ∈ records, ∀ a ∈ ue.antennaData, a.generatedSrs = F ue.rnti a.antennaId)
    {rnti antennaId : UInt32} {srs : List Cf} (hsrs : referenceOf rnti antennaId arrived = some srs) :
    srs = quantiseAll (F rnti antennaId) := by
  obtain ⟨g, hg, ⟨hgen, rfl, rfl⟩, rfl⟩ := exists_of_referenceOf hsrs
  obtain ⟨sent, hsent, rfl⟩ := List.mem_map.mp (h.subset hg)
  obtain ⟨ue, hue, a, ha, rfl | rfl⟩ := SrsReportService.exists_of_mem_recordsItems hsent
  · exact congrArg quantiseAll (hF ue hue a ha)
  · cases hgen

end Arrival

section Record

variable {ue : UeSrsData}

/-- A record with as many antennas as the xApp expects is delivered in one chunk. -/
theorem deliveredInChunks_length (hpos : 0 < ue.antennaData.length) :
    ue.deliveredInChunks ue.antennaData.length = [ue.delivered] := by
  have hlen : ue.delivered.antennaData.length = ue.antennaData.length := by
    rw [UeSrsData.delivered, List.length_map]
    exact (SrsReportService.sortedAntennas_perm ue.antennaData).length_eq
  have hchunk : chunk ue.antennaData.length 0 ue.delivered.antennaData =
      ue.delivered.antennaData := by
    rw [chunk, Nat.zero_mul, List.drop_zero, ← hlen, List.take_length]
  rw [UeSrsData.deliveredInChunks, Nat.div_self hpos, List.range_one, List.map_singleton, hchunk]

theorem nodup_receivedSent (hnodup : (antennaIds ue.antennaData).Nodup) :
    (ue.receivedSent.map SrsStreamItem.antennaId).Nodup := by
  rw [antennaId_receivedSent]
  exact SrsReportService.nodup_antennaIds_sortedAntennas hnodup

/-- Whether a record has arrived is decided when its last items have. -/
theorem hasArrived_iff {before references received : List SrsStreamItem}
    (hnodup : (antennaIds ue.antennaData).Nodup)
    (hbefore : ∀ item ∈ before, item.generated = false → item.ueKey ≠ ue.ueKey)
    (hreferences : ∀ g ∈ references, g.generated = true)
    (hreceived : received.Sublist ue.receivedSent) :
    ue.HasArrived (before ++ (references ++ received)) ↔
      received = ue.receivedSent ∧
        ∀ a ∈ ue.antennaData, ∃ g ∈ before ++ references, g.IsReferenceOf ue.rnti a.antennaId := by
  refine ⟨fun h => ⟨?_, fun a ha => ?_⟩, ?_⟩
  · -- a received stream of the record can only be among the last items
    have hsubset : ue.receivedSent ⊆ received := by
      intro item hitem
      obtain ⟨a, ha, rfl⟩ := mem_receivedSent.mp hitem
      rcases List.mem_append.mp (h a ha).1 with hold | hnew
      · exact absurd rfl (hbefore _ hold rfl)
      · rcases List.mem_append.mp hnew with hreference | hlast
        · exact absurd (hreferences _ hreference) Bool.false_ne_true
        · exact hlast
    apply hreceived.eq_of_length_le
    exact ((nodup_receivedSent hnodup).of_map _).subperm hsubset |>.length_le
  · obtain ⟨g, hg, hisref⟩ := (h a ha).2
    refine ⟨g, ?_, hisref⟩
    rw [← List.append_assoc] at hg
    refine (List.mem_append.mp hg).resolve_right fun hlast => ?_
    obtain ⟨hgen, -⟩ := occasion_of_mem_receivedSent (hreceived.subset hlast)
    exact Bool.false_ne_true (hgen.symm.trans hisref.1)
  · rintro ⟨rfl, hrefs⟩ a ha
    obtain ⟨g, hg, hisref⟩ := hrefs a ha
    refine ⟨?_, g, ?_, hisref⟩
    · refine List.mem_append_right _ (List.mem_append_right _ ?_)
      exact mem_receivedSent.mpr ⟨a, ha, rfl⟩
    · rw [← List.append_assoc]
      exact List.mem_append_left _ hg

/-- Later items change nothing, if they are of other records and bring no references of its
antennas. -/
theorem hasArrived_append {before after : List SrsStreamItem}
    (hreceived : ∀ item ∈ after, item.generated = false → item.ueKey ≠ ue.ueKey)
    (hreferences : ∀ g ∈ after, ∀ a ∈ ue.antennaData, ¬ g.IsReferenceOf ue.rnti a.antennaId) :
    ue.HasArrived (before ++ after) ↔ ue.HasArrived before := by
  refine forall₂_congr fun a ha => and_congr ?_ ?_
  · rw [List.mem_append, or_iff_left]
    exact fun hitem => hreceived _ hitem rfl rfl
  · refine ⟨?_, ?_⟩
    · rintro ⟨g, hg, hisref⟩
      exact ⟨g, (List.mem_append.mp hg).resolve_right fun h => hreferences g h a ha hisref, hisref⟩
    · rintro ⟨g, hg, hisref⟩
      exact ⟨g, List.mem_append_left _ hg, hisref⟩

/-- Its received streams, or some of them, where the references are as they should be: the record
is delivered if nothing is missing, and otherwise what has arrived waits. -/
theorem onItems_received_sublist {F : UInt32 → UInt32 → List Cf} {x : SimpleRunOranXapp}
    {received : List SrsStreamItem}
    (hF : ∀ a ∈ ue.antennaData, a.generatedSrs = F ue.rnti a.antennaId)
    (hnodup : (antennaIds ue.antennaData).Nodup)
    (hlen : ue.antennaData.length = x.expectedRxAntennas) (hta : x.latestTimingAdvance = ∅)
    (hempty : x.receivedStreams ue.ueKey = ∅)
    (hright : ∀ antennaId srs, x.generatedStream ue.rnti antennaId = some srs →
      srs = quantiseAll (F ue.rnti antennaId))
    (hreceived : received.Sublist ue.receivedSent) :
    let whole := received = ue.receivedSent ∧
      ∀ a ∈ ue.antennaData, (x.generatedStream ue.rnti a.antennaId).isSome
    let y := x.onItems received
    (whole → y.completedSrsMessages = x.completedSrsMessages ++ [ue.delivered] ∧
        y.receivedStreams ue.ueKey = ∅) ∧
      (¬ whole → y.completedSrsMessages = x.completedSrsMessages ∧
        y.receivedStreams ue.ueKey = streamsOf received) ∧
      ∀ key, key ≠ ue.ueKey → y.receivedStreams key = x.receivedStreams key := by
  intro whole y
  by_cases hwhole : whole
  · obtain ⟨rfl, hrefs⟩ := hwhole
    have hfed : Fed F (SrsReportService.recordKeys ue) x := by
      refine ⟨hta, fun rnti antennaId hkey => ?_⟩
      obtain ⟨a, ha, hakey⟩ := SrsReportService.mem_recordKeys.mp hkey
      obtain ⟨rfl, rfl⟩ := antennaKey_inj.mp hakey
      obtain ⟨srs, hsrs⟩ := Option.isSome_iff_exists.mp (hrefs a ha)
      rw [hsrs, hright _ _ hsrs]
    obtain ⟨-, hcompleted, hstreams, hothers⟩ :=
      hfed.received hF hnodup (Finset.Subset.refl _) hempty
    have hpos : 0 < ue.antennaData.length := hlen ▸ x.expected_pos
    have hleft : leftover ue.antennaData.length ue.receivedSent = [] := by
      rw [← List.length_eq_zero_iff, length_leftover, length_receivedSent, Nat.mod_self]
    rw [← hlen, deliveredInChunks_length hpos] at hcompleted
    rw [← hlen, hleft] at hstreams
    exact ⟨fun _ => ⟨hcompleted, hstreams⟩, fun h => absurd ⟨rfl, hrefs⟩ h, hothers⟩
  · have hids : (received.map SrsStreamItem.antennaId).Nodup :=
      (nodup_receivedSent hnodup).sublist (hreceived.map _)
    have hle : received.length ≤ x.expectedRxAntennas := by
      rw [← hlen, ← length_receivedSent]
      exact hreceived.length_le
    obtain ⟨hcompleted, hstreams, hothers⟩ := x.onItems_waiting hempty
      (fun item hitem => occasion_of_mem_receivedSent (hreceived.subset hitem)) hids hle
      fun hfull => by
        -- all streams are there, so it is a reference that is missing
        have hall : received = ue.receivedSent := by
          apply hreceived.eq_of_length
          rw [hfull, length_receivedSent, hlen]
        by_contra hnone
        refine hwhole ⟨hall, fun a ha => ?_⟩
        by_contra hmissing
        refine hnone ⟨(ue.receivedItem a).quantised, ?_, Bool.eq_false_of_not_eq_true hmissing⟩
        rw [hall]
        exact mem_receivedSent.mpr ⟨a, ha, rfl⟩
    exact ⟨fun h => absurd h hwhole, fun _ => ⟨hcompleted, hstreams⟩, hothers⟩

end Record

/-! ## Records -/

/-- What an xApp that expects `n` antennas makes of what has arrived of some records. -/
structure Accounted (n : ℤ) (records : List UeSrsData) (arrived : List SrsStreamItem) : Prop where
  completed : ((SimpleRunOranXapp.init n).onItems arrived).completedSrsMessages =
    (records.filter fun ue => ue.HasArrived arrived).map UeSrsData.delivered
  waiting : ∀ ue ∈ records, ((SimpleRunOranXapp.init n).onItems arrived).receivedStreams ue.ueKey =
    if ue.HasArrived arrived then ∅ else streamsOf (receivedOf ue.ueKey arrived)
  others : ∀ key, key ∉ records.map UeSrsData.ueKey →
    ((SimpleRunOranXapp.init n).onItems arrived).receivedStreams key = ∅

theorem receivedOf_eq_nil {key : UInt32 × UInt64} {items : List SrsStreamItem}
    (h : ∀ item ∈ items, item.generated = false → item.ueKey ≠ key) : receivedOf key items = [] :=
  List.filter_eq_nil_iff.mpr fun item hitem hof => by
    obtain ⟨hgen, hkey⟩ := of_decide_eq_true hof
    exact h item hitem hgen hkey

/-- The items of a record are enqueued behind those of the records before it. -/
theorem quantised_recordsItems_concat (records : List UeSrsData) (ue : UeSrsData) :
    (SrsReportService.recordsItems ∅ (records ++ [ue])).map SrsStreamItem.quantised =
      (SrsReportService.recordsItems ∅ records).map SrsStreamItem.quantised ++
        (ue.referencesSent (SrsReportService.keysAfter ∅ records) ++ ue.receivedSent) := by
  have hone : SrsReportService.recordsItems (SrsReportService.keysAfter ∅ records) [ue] =
      SrsReportService.recordItems (SrsReportService.keysAfter ∅ records) ue := List.append_nil _
  rw [SrsReportService.recordsItems_append, List.map_append, hone, quantised_recordItems]

section Last

variable {F : UInt32 → UInt32 → List Cf} {n : ℤ} {records : List UeSrsData} {ue : UeSrsData}
  {before references received : List SrsStreamItem}
  (hbefore : before.Sublist ((SrsReportService.recordsItems ∅ records).map
    SrsStreamItem.quantised))
  (hreferences : references.Sublist
    (ue.referencesSent (SrsReportService.keysAfter ∅ records)))
  (hreceived : received.Sublist ue.receivedSent) (hkey : ue.ueKey ∉ records.map UeSrsData.ueKey)

include hreferences

theorem generated_of_sublist : ∀ g ∈ references, g.generated = true := by
  intro g hg
  obtain ⟨a, -, -, rfl⟩ := mem_referencesSent.mp (hreferences.subset hg)
  rfl

include hbefore in
/-- The references only fill the cache, and with the right streams. -/
theorem onItems_references_sublist
    (hF : ∀ ue' ∈ records ++ [ue], ∀ a ∈ ue'.antennaData,
      a.generatedSrs = F ue'.rnti a.antennaId) :
    let x := (SimpleRunOranXapp.init n).onItems before
    let y := (SimpleRunOranXapp.init n).onItems (before ++ references)
    y.completedSrsMessages = x.completedSrsMessages ∧
      (∀ key, y.receivedStreams key = x.receivedStreams key) ∧
      ∀ rnti antennaId srs, y.generatedStream rnti antennaId = some srs →
        srs = quantiseAll (F rnti antennaId) := by
  intro x y
  have hy : y = x.onItems references := SimpleRunOranXapp.onItems_append ..
  obtain ⟨hpending, hcompleted⟩ := x.onItems_references (generated_of_sublist hreferences)
  refine ⟨by rw [hy, hcompleted], fun key => ?_, fun rnti antennaId srs hsrs => ?_⟩
  · rw [SimpleRunOranXapp.receivedStreams, hy, hpending, SimpleRunOranXapp.receivedStreams]
  · rw [SimpleRunOranXapp.generatedStream_onItems] at hsrs
    refine @srs_eq_of_sublist (records ++ [ue]) _ ?_ F hF _ _ _ hsrs
    rw [quantised_recordsItems_concat]
    exact hbefore.append (hreferences.trans (List.sublist_append_left _ _))

include hreceived hkey

/-- What arrives of a record is not of those before it. -/
theorem not_of_before {ue' : UeSrsData} (hue' : ue' ∈ records) {item : SrsStreamItem}
    (hitem : item ∈ references ++ received) :
    (item.generated = false → item.ueKey ≠ ue'.ueKey) ∧
      ∀ a ∈ ue'.antennaData, ¬ item.IsReferenceOf ue'.rnti a.antennaId := by
  rcases List.mem_append.mp hitem with href | hrec
  · obtain ⟨a, -, hnew, rfl⟩ := mem_referencesSent.mp (hreferences.subset href)
    refine ⟨fun hgen => (Bool.false_ne_true hgen.symm).elim, fun a' ha' hisref => hnew ?_⟩
    -- its key would have been known
    obtain ⟨-, hrnti, hid⟩ := hisref
    apply SrsReportService.recordKeys_subset_keysAfter hue'
    exact SrsReportService.mem_recordKeys.mpr ⟨a', ha', by rw [← hrnti, ← hid]; rfl⟩
  · obtain ⟨hgen, hof⟩ := occasion_of_mem_receivedSent (hreceived.subset hrec)
    refine ⟨fun _ hsame => hkey ?_, fun a' _ hisref => ?_⟩
    · have heq : ue.ueKey = ue'.ueKey := hof.symm.trans hsame
      exact heq ▸ List.mem_map_of_mem hue'
    · exact Bool.false_ne_true (hgen.symm.trans hisref.1)

include hbefore

/-- And what has arrived before is not of the record. -/
theorem receivedOf_last :
    receivedOf ue.ueKey (before ++ (references ++ received)) = received := by
  have hnone : receivedOf ue.ueKey before = [] := receivedOf_eq_nil fun item hitem hgen hsame =>
    hkey (hsame ▸ ueKey_mem_of_sublist hbefore hitem hgen)
  have hreference : receivedOf ue.ueKey references = [] :=
    receivedOf_eq_nil fun g hg hgen =>
      absurd (hgen.symm.trans (generated_of_sublist hreferences g hg)) Bool.false_ne_true
  have hself : receivedOf ue.ueKey received = received :=
    List.filter_eq_self.mpr fun item hitem =>
      decide_eq_true (occasion_of_mem_receivedSent (hreceived.subset hitem))
  rw [receivedOf_append, receivedOf_append, hnone, hreference, hself, List.nil_append,
    List.nil_append]

/-- **The next record.** -/
theorem Accounted.record (h : Accounted n records before)
    (hF : ∀ ue' ∈ records ++ [ue], ∀ a ∈ ue'.antennaData,
      a.generatedSrs = F ue'.rnti a.antennaId)
    (hnodup : (antennaIds ue.antennaData).Nodup)
    (hlen : ue.antennaData.length = (SimpleRunOranXapp.init n).expectedRxAntennas) :
    Accounted n (records ++ [ue]) (before ++ (references ++ received)) := by
  obtain ⟨hsame, hstreams, hright⟩ := @onItems_references_sublist F n _ _ _ _ hbefore hreferences hF
  obtain ⟨hwhole, hpart, hothers⟩ := onItems_received_sublist
    (hF ue (by simp)) hnodup (hlen.trans (SimpleRunOranXapp.expectedRxAntennas_onItems ..).symm)
    (SimpleRunOranXapp.latestTimingAdvance_onItems ..) ((hstreams _).trans (h.others _ hkey))
    (hright ue.rnti) hreceived
  have harrived := hasArrived_iff hnodup
    (fun item hitem hgen hof => hkey (hof ▸ ueKey_mem_of_sublist hbefore hitem hgen))
    (generated_of_sublist hreferences) hreceived
  simp only [SimpleRunOranXapp.generatedStream_onItems, isSome_referenceOf] at hwhole hpart
  rw [← harrived] at hwhole hpart
  have hall : (SimpleRunOranXapp.init n).onItems (before ++ (references ++ received)) =
      ((SimpleRunOranXapp.init n).onItems (before ++ references)).onItems received := by
    rw [← SimpleRunOranXapp.onItems_append, List.append_assoc]
  -- nothing changes for the records before
  have hold : ∀ ue' ∈ records, ue'.HasArrived (before ++ (references ++ received)) ↔
      ue'.HasArrived before := fun ue' hue' =>
    hasArrived_append
      (fun item hitem => (not_of_before hreferences hreceived hkey hue' hitem).1)
      (fun g hg => (not_of_before hreferences hreceived hkey hue' hg).2)
  refine ⟨?_, fun ue' hue' => ?_, fun key hkey' => ?_⟩
  · have hfilter : records.filter (fun ue' =>
        ue'.HasArrived (before ++ (references ++ received))) =
        records.filter fun ue' => ue'.HasArrived before :=
      List.filter_congr fun ue' hue' => decide_eq_decide.mpr (hold ue' hue')
    rw [hall, List.filter_append, hfilter, List.map_append, ← h.completed, ← hsame]
    by_cases hue : ue.HasArrived (before ++ (references ++ received))
    · rw [(hwhole hue).1, List.filter_cons, if_pos (decide_eq_true hue)]
      rfl
    · rw [(hpart hue).1, List.filter_cons, if_neg (mt of_decide_eq_true hue)]
      exact (List.append_nil _).symm
  · rw [hall]
    rcases List.mem_append.mp hue' with hold' | hlast
    · have hne : ue'.ueKey ≠ ue.ueKey := fun heq => hkey (heq ▸ List.mem_map_of_mem hold')
      have hnone : receivedOf ue'.ueKey (references ++ received) = [] :=
        receivedOf_eq_nil fun item hitem =>
          (not_of_before hreferences hreceived hkey hold' hitem).1
      rw [hothers _ hne, hstreams, h.waiting ue' hold', receivedOf_append, hnone, List.append_nil]
      exact if_congr (hold ue' hold').symm rfl rfl
    · obtain rfl := List.mem_singleton.mp hlast
      rw [receivedOf_last hbefore hreferences hreceived hkey]
      split
      · rename_i hue
        exact (hwhole hue).2
      · rename_i hue
        exact (hpart hue).2
  · rw [List.map_append, List.mem_append, not_or] at hkey'
    have hnot : key ≠ ue.ueKey := fun heq => hkey'.2 (heq ▸ List.mem_singleton_self _)
    rw [hall, hothers key hnot, hstreams, h.others key hkey'.1]

end Last

/-- **The items of records under different keys, some of them lost.** -/
theorem accounted_of_sublist {F : UInt32 → UInt32 → List Cf} {n : ℤ} {records : List UeSrsData} :
    (∀ ue ∈ records, (antennaIds ue.antennaData).Nodup ∧
      ue.antennaData.length = (SimpleRunOranXapp.init n).expectedRxAntennas ∧
      ∀ a ∈ ue.antennaData, a.generatedSrs = F ue.rnti a.antennaId) →
    (records.map UeSrsData.ueKey).Nodup → ∀ {arrived : List SrsStreamItem},
      arrived.Sublist ((SrsReportService.recordsItems ∅ records).map SrsStreamItem.quantised) →
      Accounted n records arrived := by
  induction records using List.reverseRecOn with
  | nil =>
    intro _ _ arrived harrived
    obtain rfl := List.sublist_nil.mp harrived
    exact ⟨rfl, fun ue hue => (List.not_mem_nil hue).elim, fun key _ =>
      SimpleRunOranXapp.receivedStreams_init n key⟩
  | append_singleton records ue ih =>
    intro hrecords hkeys arrived harrived
    rw [quantised_recordsItems_concat] at harrived
    obtain ⟨before, rest, rfl, hbefore, hrest⟩ := List.sublist_append_iff.mp harrived
    obtain ⟨references, received, rfl, hreferences, hreceived⟩ := List.sublist_append_iff.mp hrest
    rw [List.map_append, List.nodup_append] at hkeys
    have hkey : ue.ueKey ∉ records.map UeSrsData.ueKey := fun hmem =>
      hkeys.2.2 _ hmem _ (List.mem_singleton_self _) rfl
    obtain ⟨hnodup, hlen, -⟩ := hrecords ue (by simp)
    have h := ih (fun ue' hue' => hrecords ue' (List.mem_append_left _ hue')) hkeys.1 hbefore
    exact h.record hbefore hreferences hreceived hkey (fun ue' hue' => (hrecords ue' hue').2.2)
      hnodup hlen

/-! ## From end to end -/

/-- What arrives is a subsequence of what was enqueued. -/
theorem arrived_sublist {config : GnbSrsConfig} {events : List DuEvent} {messages : List Bytes}
    (hlost : messages.Sublist ((Du.init config).messages events)) :
    (messages.flatMap indicationItems).Sublist
      ((SrsReportService.recordsItems ∅ ((Du.init config).records events)).map
        SrsStreamItem.quantised) := by
  obtain ⟨sent, hsent, hdecoded⟩ :=
    (Du.init config).service.exists_sent ((Du.init config).serviceCalls events)
  have henqueued : (Du.init config).service.enqueued ((Du.init config).serviceCalls events) =
      SrsReportService.recordsItems ∅ ((Du.init config).records events) :=
    Du.enqueued_eq events (Du.init config) (SrsDataCollector.wellFormed_init config)
  have hall : SrsReportService.recordsItems ∅ ((Du.init config).records events) =
      sent ++ ((Du.init config).service.run
        ((Du.init config).serviceCalls events)).pendingItems := by
    rw [← henqueued]
    exact hsent
  rw [hall, List.map_append]
  refine List.Sublist.trans ?_ (List.sublist_append_left _ _)
  refine (hlost.flatMap indicationItems).trans ?_
  rw [Du.messages_eq, indicationItems_messages]
  exact hdecoded

/-- **Losses.** Let the records of a run have different keys and each antenna one reference, and
let any of its messages be lost, whether their appends failed or they never reached the xApp,
which expects the DU's number of antennas. The snapshots are the records, in order, of which all
streams have arrived; what has arrived of any other record waits; and nothing else does. An
antenna whose reference is lost is in no snapshot. -/
theorem losses (config : GnbSrsConfig) (hn : 1 ≤ config.numRxAntennas.toNat)
    (events : List DuEvent) (hrefs : ConstantReferences events)
    (hkeys : (((Du.init config).records events).map UeSrsData.ueKey).Nodup)
    {messages : List Bytes} (hlost : messages.Sublist ((Du.init config).messages events)) :
    let records := (Du.init config).records events
    let arrived := messages.flatMap indicationItems
    let x := (SimpleRunOranXapp.init config.numRxAntennas.toNat).onMessages messages
    x.completedSrsMessages =
        (records.filter fun ue => ue.HasArrived arrived).map UeSrsData.delivered ∧
      (∀ ue ∈ records, x.receivedStreams ue.ueKey =
        if ue.HasArrived arrived then ∅ else streamsOf (receivedOf ue.ueKey arrived)) ∧
      (∀ key, key ∉ records.map UeSrsData.ueKey → x.receivedStreams key = ∅) ∧
      ∀ rnti antennaId, (∀ g ∈ arrived, ¬ g.IsReferenceOf rnti antennaId) →
        ∀ s ∈ x.completedSrsMessages, s.rnti = rnti → antennaId ∉ antennaIds s.antennaData := by
  intro records arrived x
  obtain ⟨F, hF⟩ := hrefs.exists_function
  have hexpected : (SimpleRunOranXapp.init config.numRxAntennas.toNat).expectedRxAntennas =
      config.numRxAntennas.toNat := by
    simp only [SimpleRunOranXapp.init]
    omega
  have hrecords : ∀ ue ∈ records, (antennaIds ue.antennaData).Nodup ∧
      ue.antennaData.length =
        (SimpleRunOranXapp.init config.numRxAntennas.toNat).expectedRxAntennas ∧
      ∀ a ∈ ue.antennaData, a.generatedSrs = F ue.rnti a.antennaId := by
    intro ue hue
    obtain ⟨hwell, hfull⟩ := Du.wellFormed_of_mem_records
      (SrsDataCollector.wellFormed_init config) hue
    refine ⟨hwell.nodup, ?_, fun a ha => ?_⟩
    · rw [hexpected]
      exact hwell.length_eq hn hfull
    · obtain ⟨call, hcall, hr, rfl⟩ := fromAdditions_of_mem_records hue a ha
      rw [← hr]
      exact hF call hcall
  have hx : x = (SimpleRunOranXapp.init config.numRxAntennas.toNat).onItems arrived :=
    SimpleRunOranXapp.onMessages_eq ..
  obtain ⟨hcompleted, hwaiting, hothers⟩ :=
    accounted_of_sublist hrecords hkeys (arrived_sublist hlost)
  rw [hx]
  refine ⟨hcompleted, hwaiting, hothers, fun rnti antennaId hnone s hs hrnti hid => ?_⟩
  rw [hcompleted] at hs
  obtain ⟨ue, hue, rfl⟩ := List.mem_map.mp hs
  obtain ⟨-, harrived⟩ := List.mem_filter.mp hue
  rw [antennaIds_delivered] at hid
  obtain ⟨a, ha, rfl⟩ := List.mem_map.mp hid
  obtain ⟨-, g, hg, hisref⟩ := of_decide_eq_true harrived a (mem_sortedAntennas.mp ha)
  exact hnone g hg (hrnti ▸ hisref)

/-- Two UEs with one antenna. The append of the first reference fails, and with it the UE 17 is
lost for good; the UE 18 is delivered. -/
theorem losses_failed_append :
    let events := [DuEvent.addSrsData ⟨17, 0, [], [], 1000⟩, .collectMeasurements,
      .getIndicationMessage false, .getIndicationMessage true,
      .addSrsData ⟨18, 0, [], [⟨.finite 1, .finite 0⟩], 1500⟩, .addSrsData ⟨17, 0, [], [], 2000⟩,
      .collectMeasurements, .getIndicationMessage true, .getIndicationMessage true,
      .getIndicationMessage true]
    let messages := (Du.init ⟨1, 0, 0, ⟨0⟩, ⟨0⟩, ⟨0⟩⟩).messages events
    let x := (SimpleRunOranXapp.init 1).onMessages messages
    x.completedSrsMessages = [⟨18, 1500, [⟨0, [], [⟨.finite 1, .finite 0⟩]⟩], none⟩] ∧
      (x.receivedStreams (17, 1000)).keys = [0] ∧ (x.receivedStreams (17, 2000)).keys = [0] := by
  intro events messages x
  obtain ⟨hcompleted, hwaiting, -, -⟩ := losses ⟨1, 0, 0, ⟨0⟩, ⟨0⟩, ⟨0⟩⟩ (by decide) events
    (by decide) (by decide +kernel) (List.Sublist.refl _)
  have hfirst := hwaiting ⟨17, 1000, [⟨0, [], []⟩]⟩ (by decide +kernel)
  have hsecond := hwaiting ⟨17, 2000, [⟨0, [], []⟩]⟩ (by decide +kernel)
  refine ⟨hcompleted.trans ?_, (congrArg Std.ExtTreeMap.keys hfirst).trans ?_,
    (congrArg Std.ExtTreeMap.keys hsecond).trans ?_⟩ <;> decide +kernel

end RunOran
