import RunOran.Merging

/-!
# Indications under the other subscription

An indication carries no tag. The two kinds nest alike, RNTI and time have the same numbers in
both, and where they differ a field of another wire type is skipped as unknown; so each kind is
well formed as the other, and it is the subscription alone that tells them apart.

A timing-advance indication has no antennas to the parser of SRS indications and changes nothing.
The other way round, each group of an SRS indication is an observation of a timing advance of zero
(`parseTimingAdvanceMessage_serializeSrsIndication`), and the xApp files it in place of what it
knows. As the groups are in ascending order, the one that stays is the latest.
-/

namespace RunOran

open Protobuf History

/-! ## A timing-advance indication as SRS -/

/-- What the parser of SRS indications takes a record for. -/
def TaIndicationRecord.asUe (record : TaIndicationRecord) : Pb.UeSrsData :=
  ⟨record.rnti, record.timestampUs, []⟩

/-- An entry has no antennas: its third field is a number. -/
theorem parse_taEntry_asUe (record : TaIndicationRecord) :
    Pb.UeSrsData.schema.parse (taEntry record) = (record.asUe, true) := by
  simp only [Schema.parse, Schema.parseInto, readFields_taEntry, taFields, Schema.mergeFields,
    Pb.UeSrsData.schema, UInt32.ofNat_toNat, UInt64.ofNat_toNat, Bool.and_self,
    TaIndicationRecord.asUe]

theorem parse_serializeTaIndication_asUe (records : List TaIndicationRecord) :
    Pb.SrsIndicationMessage.schema.parse (serializeTaIndication records) =
      (⟨records.map TaIndicationRecord.asUe⟩, true) := by
  have hmerge : Pb.SrsIndicationMessage.schema.mergeFields
      ⟨([] : List TaIndicationRecord).map TaIndicationRecord.asUe⟩
      (records.map fun record => ⟨1, .len (taEntry record)⟩) =
      (⟨([] ++ records).map TaIndicationRecord.asUe⟩, true) := by
    apply Schema.mergeFields_map fun held : List TaIndicationRecord =>
      (⟨held.map TaIndicationRecord.asUe⟩ : Pb.SrsIndicationMessage)
    intro done record _
    simp only [Pb.SrsIndicationMessage.schema, parse_taEntry_asUe, List.map_append, List.map_cons,
      List.map_nil]
  have hempty : Pb.SrsIndicationMessage.schema.empty =
      ⟨([] : List TaIndicationRecord).map TaIndicationRecord.asUe⟩ := rfl
  rw [Schema.parse, Schema.parseInto, readFields_serializeTaIndication, hempty, hmerge]
  rfl

theorem deserializeSrsIndication_serializeTaIndication (records : List TaIndicationRecord) :
    deserializeSrsIndication (serializeTaIndication records) = [] := by
  rw [deserializeSrsIndication, parse_serializeTaIndication_asUe, List.flatMap_eq_nil_iff]
  intro ue hue
  obtain ⟨record, -, rfl⟩ := List.mem_map.mp hue
  rfl

theorem SimpleRunOranXapp.srsIndicationCallback_serializeTaIndication (x : SimpleRunOranXapp)
    (records : List TaIndicationRecord) :
    x.srsIndicationCallback (serializeTaIndication records) = x := by
  have hok : IsSrsIndication (serializeTaIndication records) := by
    rw [IsSrsIndication, parse_serializeTaIndication_asUe]
  rw [srsIndicationCallback_eq, indicationItems_of_isSrsIndication hok,
    deserializeSrsIndication_serializeTaIndication, List.foldl_nil]

/-! ## An SRS indication as timing advances -/

/-- What the parser of timing advances takes a UE for. -/
def asTimingAdvance (ue : Pb.UeSrsData) : Pb.TimingAdvanceData :=
  ⟨ue.rnti, ue.timestamp, 0, 0, false, 0⟩

/-- The antennas of a UE are unknown fields: where they begin, a number is expected. -/
theorem mergeFields_antennaFields (m : Pb.TimingAdvanceData) (ants : List Pb.SrsAntennaData) :
    Pb.TimingAdvanceData.schema.mergeFields m
      (ants.map fun ant => ⟨3, .len (Pb.SrsAntennaData.schema.encode ant)⟩) = (m, true) := by
  induction ants with
  | nil => rfl
  | cons ant ants ih =>
    have hskipped : Pb.TimingAdvanceData.schema.merge m
        ⟨3, .len (Pb.SrsAntennaData.schema.encode ant)⟩ = (m, true) := rfl
    rw [List.map_cons, Schema.mergeFields_cons hskipped, ih]

theorem parse_encode_asTimingAdvance {ue : Pb.UeSrsData} (h : Pb.Short Pb.UeSrsData.schema ue) :
    Pb.TimingAdvanceData.schema.parse (Pb.UeSrsData.schema.encode ue) =
      (asTimingAdvance ue, true) := by
  have hrnti : Pb.TimingAdvanceData.schema.mergeFields Pb.TimingAdvanceData.schema.empty
      (Pb.uintField 1 ue.rnti.toNat) = (⟨ue.rnti, 0, 0, 0, false, 0⟩, true) :=
    Pb.mergeFields_uint32 (fun r => Pb.TimingAdvanceData.mk r 0 0 0 false 0) (fun _ => rfl) ue.rnti
  have htimestamp : Pb.TimingAdvanceData.schema.mergeFields ⟨ue.rnti, 0, 0, 0, false, 0⟩
      (Pb.uintField 2 ue.timestamp.toNat) = (asTimingAdvance ue, true) :=
    Pb.mergeFields_uint64 (fun t => Pb.TimingAdvanceData.mk ue.rnti t 0 0 false 0) (fun _ => rfl)
      ue.timestamp
  have hfields : Pb.TimingAdvanceData.schema.mergeFields Pb.TimingAdvanceData.schema.empty
      (Pb.UeSrsData.schema.fields ue) = (asTimingAdvance ue, true) := by
    simp only [Pb.UeSrsData.schema, List.append_assoc]
    rw [Schema.mergeFields_append _ hrnti, Schema.mergeFields_append _ htimestamp,
      mergeFields_antennaFields]
  simp only [Schema.parse, Schema.parseInto, Schema.encode,
    readFields_encodeFields (Pb.UeSrsData.merges.fits ue h), hfields, Bool.and_self]

theorem parse_encodeSrsIndication_asTimingAdvance {items : List SrsStreamItem}
    (h : (encodeSrsIndication items).length < 2 ^ 31) :
    Pb.TimingAdvanceIndicationMessage.schema.parse (encodeSrsIndication items) =
      (⟨(indicationMessage items).ueSrsData.map asTimingAdvance⟩, true) := by
  have hshort : ∀ ue ∈ (indicationMessage items).ueSrsData, Pb.Short Pb.UeSrsData.schema ue := by
    intro ue hue
    refine lt_of_le_of_lt (length_payload_le_encodeFields 1 ?_) h
    exact List.mem_map_of_mem hue
  have hmerge : Pb.TimingAdvanceIndicationMessage.schema.mergeFields
      ⟨([] : List Pb.UeSrsData).map asTimingAdvance⟩
      ((indicationMessage items).ueSrsData.map fun ue =>
        ⟨1, .len (Pb.UeSrsData.schema.encode ue)⟩) =
      (⟨([] ++ (indicationMessage items).ueSrsData).map asTimingAdvance⟩, true) := by
    apply Schema.mergeFields_map fun held : List Pb.UeSrsData =>
      (⟨held.map asTimingAdvance⟩ : Pb.TimingAdvanceIndicationMessage)
    intro done ue hue
    simp only [Pb.TimingAdvanceIndicationMessage.schema,
      parse_encode_asTimingAdvance (hshort ue hue), List.map_append, List.map_cons, List.map_nil]
  have hempty : Pb.TimingAdvanceIndicationMessage.schema.empty =
      ⟨([] : List Pb.UeSrsData).map asTimingAdvance⟩ := rfl
  rw [Schema.parse, Schema.parseInto, encodeSrsIndication, Schema.encode,
    readFields_encodeFields (Pb.SrsIndicationMessage.merges.fits _ h), hempty]
  exact congrArg (fun p => (p.1, p.2 && true)) hmerge

/-- An observation without a timing advance. -/
def blankObservation (k : UInt32 × UInt64) : TaObservation := ⟨k.1, 0, k.2, 0, .unknown, false⟩

theorem taObservation_asTimingAdvance (ue : Pb.UeSrsData) :
    taObservation (asTimingAdvance ue) = some (blankObservation (ue.rnti, ue.timestamp)) := by
  have hidentifier : taIdentifier (asTimingAdvance ue) = ue.rnti := by
    rw [taIdentifier]
    split
    · rename_i hzero
      exact hzero.symm
    · rfl
  rw [taObservation, hidentifier]
  rfl

/-- The keys of the groups, in ascending order. -/
def groupKeys (items : List SrsStreamItem) : List (UInt32 × UInt64) :=
  (groupItems items).toList.map Prod.fst

theorem mem_groupKeys {items : List SrsStreamItem} {k : UInt32 × UInt64} :
    k ∈ groupKeys items ↔ ∃ item ∈ items, item.ueKey = k := by
  rw [groupKeys, Std.ExtTreeMap.map_fst_toList_eq_keys, Std.ExtTreeMap.mem_keys, groupItems,
    StableSort.mem_groupBy]

theorem groupKeys_ascending (items : List SrsStreamItem) :
    (groupKeys items).Pairwise fun k k' => ueKeyRank k < ueKeyRank k' := by
  rw [groupKeys, List.pairwise_map]
  exact Std.ExtTreeMap.ordered_keys_toList.imp fun h => ueKeyRank_lt h

/-- **An SRS indication is an observation a group** to the parser of timing advances. -/
theorem parseTimingAdvanceMessage_serializeSrsIndication {items : List SrsStreamItem}
    (h : (encodeSrsIndication items).length < 2 ^ 31) :
    parseTimingAdvanceMessage (serializeSrsIndication items) =
      (groupKeys items).map blankObservation := by
  have hnamed : ∀ ta ∈ (indicationMessage items).ueSrsData.map asTimingAdvance,
      (taObservation ta).isSome := by
    intro ta hta
    obtain ⟨ue, -, rfl⟩ := List.mem_map.mp hta
    rw [taObservation_asTimingAdvance]
    rfl
  rw [serializeSrsIndication_of_lt h,
    parseTimingAdvanceMessage_eq (parse_encodeSrsIndication_asTimingAdvance h),
    mapM_eq_filterMap hnamed, Option.getD_some, List.filterMap_map, groupKeys, List.map_map,
    indicationMessage, List.filterMap_map, ← List.filterMap_eq_map]
  exact List.filterMap_congr fun group _ => taObservation_asTimingAdvance (ueMessage group)

/-- One of 2 GiB or more is sent as zeros, and nothing at all to it. -/
theorem parseTimingAdvanceMessage_of_oversized {items : List SrsStreamItem}
    (h : 2 ^ 31 ≤ (encodeSrsIndication items).length) :
    parseTimingAdvanceMessage (serializeSrsIndication items) = [] := by
  obtain ⟨len, hlen⟩ : ∃ len, (encodeSrsIndication items).length = len + 1 :=
    ⟨(encodeSrsIndication items).length - 1, by omega⟩
  rw [serializeSrsIndication, serializeToArray, if_neg (by omega), hlen, List.replicate_succ,
    parseTimingAdvanceMessage, Schema.parse_zero_cons]
  rfl

/-! ## What is filed -/

/-- Observations of ascending keys: the one that stays is the latest of the UE. -/
theorem lastFiled_blankObservation {keys : List (UInt32 × UInt64)} {k : UInt32 × UInt64}
    (hkeys : keys.Pairwise fun k k' => ueKeyRank k < ueKeyRank k') (hk : k ∈ keys) :
    ∃ t, lastFiled k.1 (keys.map blankObservation) = some (blankObservation (k.1, t)) ∧
      k.2 ≤ t ∧ (k.1, t) ∈ keys := by
  induction keys using List.reverseRecOn with
  | nil => cases hk
  | append_singleton keys last ih =>
    obtain ⟨hinit, -, hlast⟩ := List.pairwise_append.mp hkeys
    have hconcat : lastFiled k.1 (keys.map blankObservation ++ [blankObservation last]) =
        if last.1 = k.1 then some (blankObservation last)
        else lastFiled k.1 (keys.map blankObservation) := lastFiled_concat ..
    rw [List.map_append, List.map_singleton, hconcat]
    by_cases hsame : last.1 = k.1
    · refine ⟨last.2, ?_, ?_, ?_⟩
      · rw [if_pos hsame, ← hsame]
      · rcases List.mem_append.mp hk with hk | hk
        · have hlt := hlast k hk last List.mem_cons_self
          rw [ueKeyRank, ueKeyRank, Prod.Lex.toLex_lt_toLex, hsame] at hlt
          obtain hlt | ⟨-, hlt⟩ := hlt
          · exact absurd hlt (lt_irrefl _)
          · exact UInt64.le_iff_toNat_le.mpr hlt.le
        · rw [List.mem_singleton.mp hk]
          exact UInt64.le_refl _
      · rw [← hsame]
        exact List.mem_append_right _ List.mem_cons_self
    · have hmem : k ∈ keys := by
        rcases List.mem_append.mp hk with hk | hk
        · exact hk
        · exact absurd (congrArg Prod.fst (List.mem_singleton.mp hk)).symm hsame
      obtain ⟨t, hfiled, hle, ht⟩ := ih hinit hmem
      refine ⟨t, ?_, hle, List.mem_append_left _ ht⟩
      rw [if_neg hsame, hfiled]

namespace SimpleRunOranXapp

theorem foldl_storeTimingAdvance (x : SimpleRunOranXapp) (filed : List TaObservation) :
    filed.foldl storeTimingAdvance x =
      { x with latestTimingAdvance :=
          (filed.foldl storeTimingAdvance x).latestTimingAdvance } := by
  induction filed generalizing x with
  | nil => rfl
  | cons observation filed ih => rw [List.foldl_cons, ih, storeTimingAdvance]

theorem latestTimingAdvance_foldl (x : SimpleRunOranXapp) (filed : List TaObservation)
    (identifier : UInt32) :
    (filed.foldl storeTimingAdvance x).latestTimingAdvance[identifier]? =
      (lastFiled identifier filed).or x.latestTimingAdvance[identifier]? := by
  induction filed using List.reverseRecOn with
  | nil => rfl
  | append_singleton filed observation ih =>
    rw [List.foldl_append, List.foldl_cons, List.foldl_nil, lastFiled_concat, storeTimingAdvance,
      Std.ExtTreeMap.getElem?_insert, ih]
    simp only [Std.LawfulEqCmp.compare_eq_iff_eq]
    split <;> rfl

/-- **Indications under the other subscription.** A timing-advance indication handed to the SRS
callback changes nothing. An SRS indication handed to the timing-advance callback leaves the
streams alone, but replaces the timing advance of each UE in it by a zero, as of the latest time
that the indication has for the UE; unless it was too long to be sent. -/
theorem other_subscription (x : SimpleRunOranXapp) :
    (∀ records, x.srsIndicationCallback (serializeTaIndication records) = x ∧
      deserializeSrsIndication (serializeTaIndication records) = []) ∧
    ∀ items : List SrsStreamItem,
      let x' := x.timingAdvanceIndicationCallback (serializeSrsIndication items)
      x' = { x with latestTimingAdvance := x'.latestTimingAdvance } ∧
      ((encodeSrsIndication items).length < 2 ^ 31 → ∀ item ∈ items, ∃ t,
        x'.latestTimingAdvance[item.rnti]? = some ⟨item.rnti, 0, t, 0, .unknown, false⟩ ∧
          item.timestamp ≤ t ∧ ∃ latest ∈ items, latest.ueKey = (item.rnti, t)) ∧
      ∀ identifier, (2 ^ 31 ≤ (encodeSrsIndication items).length ∨
          ∀ item ∈ items, item.rnti ≠ identifier) →
        x'.latestTimingAdvance[identifier]? = x.latestTimingAdvance[identifier]? := by
  refine ⟨fun records => ⟨x.srsIndicationCallback_serializeTaIndication records,
    deserializeSrsIndication_serializeTaIndication records⟩, fun items => ?_⟩
  intro x'
  have hfiled : ∀ identifier, x'.latestTimingAdvance[identifier]? =
      (lastFiled identifier (parseTimingAdvanceMessage (serializeSrsIndication items))).or
        x.latestTimingAdvance[identifier]? :=
    latestTimingAdvance_foldl x (parseTimingAdvanceMessage (serializeSrsIndication items))
  refine ⟨foldl_storeTimingAdvance x _, fun hlt item hitem => ?_, fun identifier hother => ?_⟩
  · have hkey : item.ueKey ∈ groupKeys items := mem_groupKeys.mpr ⟨item, hitem, rfl⟩
    obtain ⟨t, hlast, hle, ht⟩ := lastFiled_blankObservation (groupKeys_ascending items) hkey
    refine ⟨t, ?_, hle, mem_groupKeys.mp ht⟩
    rw [hfiled, parseTimingAdvanceMessage_serializeSrsIndication hlt]
    exact congrArg (Option.or · _) hlast
  · have hnone : lastFiled identifier
        (parseTimingAdvanceMessage (serializeSrsIndication items)) = none := by
      by_contra hsome
      obtain ⟨observation, hobservation⟩ := Option.ne_none_iff_exists'.mp hsome
      obtain ⟨hmem, hrnti⟩ := of_lastFiled hobservation
      rcases Nat.lt_or_ge (encodeSrsIndication items).length (2 ^ 31) with hlt | hle
      · rw [parseTimingAdvanceMessage_serializeSrsIndication hlt] at hmem
        obtain ⟨k, hk, rfl⟩ := List.mem_map.mp hmem
        obtain ⟨item, hitem, rfl⟩ := mem_groupKeys.mp hk
        exact hother.elim (Nat.not_le.mpr hlt) fun hnot => hnot item hitem hrnti
      · rw [parseTimingAdvanceMessage_of_oversized hle] at hmem
        cases hmem
    rw [hfiled, hnone, Option.none_or]

end SimpleRunOranXapp

end RunOran
