import RunOran.IqSample
import RunOran.SrsMessages
import RunOran.StableSort
import Mathlib.Data.Prod.Lex

/-!
# The SRS indication codec

`srs_e2_serializer::serialize_srs_indication` and `deserialize_srs_indication`. The
serializer groups the stream items by UE and timestamp in a `std::map` and writes one
`UeSrsData` a group; the deserializer flattens the message again. What comes back is
therefore not the list that was written, but its stable sort by UE and timestamp, with
the samples quantised: `deserializeSrsIndication_serializeSrsIndication`.

Protobuf does not write messages of 2 GiB and more. `SerializeToArray` then fails and
leaves the array as it was allocated, filled with zeros, and since nobody looks at its
result those zeros are sent (`deserializeSrsIndication_of_oversized`).
-/

namespace RunOran

open Protobuf StableSort

/-! ## Stream items -/

/-- `srs_stream_item`: one stream of one antenna, reference (`generated`) or received. -/
structure SrsStreamItem where
  rnti : UInt32
  timestamp : UInt64
  antennaId : UInt32
  generated : Bool
  srs : List Cf
  deriving DecidableEq

/-- The key of `grouped_items`. -/
def SrsStreamItem.ueKey (item : SrsStreamItem) : UInt32 × UInt64 := (item.rnti, item.timestamp)

/-- The order of `std::pair`. -/
def compareUeKey : UInt32 × UInt64 → UInt32 × UInt64 → Ordering :=
  compareLex (compareOn Prod.fst) (compareOn Prod.snd)

instance : Std.TransCmp compareUeKey :=
  inferInstanceAs (Std.TransCmp (compareLex (compareOn Prod.fst) (compareOn Prod.snd)))

instance : Std.LawfulEqCmp compareUeKey where
  eq_of_compare {a b} h := by
    simp only [compareUeKey, compareLex_eq_eq, compareOn,
      Std.LawfulEqCmp.compare_eq_iff_eq] at h
    exact Prod.ext h.1 h.2

/-- The place of a key in the order of the map. -/
def ueKeyRank (k : UInt32 × UInt64) : ℕ ×ₗ ℕ := toLex (k.1.toNat, k.2.toNat)

theorem ueKeyRank_injective : Function.Injective ueKeyRank := by
  rintro ⟨r₁, t₁⟩ ⟨r₂, t₂⟩ h
  simp only [ueKeyRank, toLex_inj, Prod.mk.injEq] at h
  rw [UInt32.toNat_inj.mp h.1, UInt64.toNat_inj.mp h.2]

theorem ueKeyRank_lt {a b : UInt32 × UInt64} (h : compareUeKey a b = .lt) :
    ueKeyRank a < ueKeyRank b := by
  simp only [compareUeKey, compareLex, compareOn, Ordering.then_eq_lt,
    Std.LawfulEqCmp.compare_eq_iff_eq] at h
  rw [ueKeyRank, ueKeyRank, Prod.Lex.toLex_lt_toLex]
  rcases h with h | ⟨h₁, h₂⟩
  · exact Or.inl (UInt32.lt_iff_toNat_lt.mp (compareOfLessAndEq_eq_lt.mp h))
  · refine Or.inr ⟨congrArg UInt32.toNat h₁, ?_⟩
    exact UInt64.lt_iff_toNat_lt.mp (compareOfLessAndEq_eq_lt.mp h₂)

/-- Stable sort by UE and timestamp. -/
def sortItems (items : List SrsStreamItem) : List SrsStreamItem :=
  sortByKey (fun item => ueKeyRank item.ueKey) items

/-- An item as it arrives: its samples quantised, everything else unchanged. -/
def SrsStreamItem.quantised (item : SrsStreamItem) : SrsStreamItem :=
  { item with srs := quantiseAll item.srs }

@[simp] theorem SrsStreamItem.ueKey_quantised (item : SrsStreamItem) :
    item.quantised.ueKey = item.ueKey := rfl

@[simp] theorem SrsStreamItem.quantised_quantised (item : SrsStreamItem) :
    item.quantised.quantised = item.quantised := by
  simp only [quantised, quantiseAll_quantiseAll]

/-! ## Serializer -/

/-- `grouped_items`. -/
def groupItems (items : List SrsStreamItem) :
    Std.ExtTreeMap (UInt32 × UInt64) (List SrsStreamItem) compareUeKey :=
  groupBy compareUeKey SrsStreamItem.ueKey items

/-- `ant_msg`; `mutable_srs` makes the payload present even when it has no samples. -/
def antennaMessage (item : SrsStreamItem) : Pb.SrsAntennaData :=
  ⟨item.antennaId, item.generated, some ⟨item.srs.map packIqSample⟩⟩

/-- `ue_msg`. -/
def ueMessage (group : (UInt32 × UInt64) × List SrsStreamItem) : Pb.UeSrsData :=
  ⟨group.1.1, group.1.2, group.2.map antennaMessage⟩

/-- `msg`. -/
def indicationMessage (items : List SrsStreamItem) : Pb.SrsIndicationMessage :=
  ⟨(groupItems items).toList.map ueMessage⟩

/-- The encoding of the message, whatever its length. -/
def encodeSrsIndication (items : List SrsStreamItem) : Bytes :=
  Pb.SrsIndicationMessage.schema.encode (indicationMessage items)

/-- `SerializeToArray` into a zero-filled array of `ByteSizeLong()` bytes. It refuses a
message longer than `INT_MAX` bytes. -/
def serializeToArray (encoding : Bytes) : Bytes :=
  if encoding.length < 2 ^ 31 then encoding else List.replicate encoding.length 0

/-- `serialize_srs_indication`. -/
def serializeSrsIndication (items : List SrsStreamItem) : Bytes :=
  serializeToArray (encodeSrsIndication items)

/-! ## Deserializer -/

/-- The items of one `ue_msg`. -/
def ueItems (ue : Pb.UeSrsData) : List SrsStreamItem :=
  ue.antennaData.map fun ant =>
    ⟨ue.rnti, ue.timestamp, ant.antennaId, ant.generated,
      (ant.srs.getD ⟨[]⟩).iqSamples.map unpackIqSample⟩

/-- `deserialize_srs_indication`. The result of `ParseFromArray` is not looked at, so a
malformed message yields the items before the defect. -/
def deserializeSrsIndication (data : Bytes) : List SrsStreamItem :=
  (Pb.SrsIndicationMessage.schema.parse data).1.ueSrsData.flatMap ueItems

/-! ## Round trip -/

/-- A group is flattened to its items, quantised. -/
theorem ueItems_ueMessage {group : (UInt32 × UInt64) × List SrsStreamItem}
    (h : ∀ item ∈ group.2, item.ueKey = group.1) :
    ueItems (ueMessage group) = group.2.map SrsStreamItem.quantised := by
  simp only [ueItems, ueMessage, List.map_map]
  apply List.map_congr_left
  intro item hitem
  have hkey := h item hitem
  simp only [Function.comp_apply, antennaMessage, ← hkey, SrsStreamItem.ueKey,
    Option.getD_some, List.map_map, SrsStreamItem.quantised, quantiseAll, SrsStreamItem.mk.injEq,
    true_and]
  rfl

/-- Flattening the message sorts the items. -/
theorem flatMap_ueItems_indicationMessage (items : List SrsStreamItem) :
    (indicationMessage items).ueSrsData.flatMap ueItems =
      (sortItems items).map SrsStreamItem.quantised := by
  have hgroup : ∀ group ∈ (groupItems items).toList,
      ueItems (ueMessage group) = group.2.map SrsStreamItem.quantised := by
    rintro ⟨k, group⟩ hmem
    apply ueItems_ueMessage
    intro item hitem
    rw [groupItems, Std.ExtTreeMap.mem_toList_iff_getElem?_eq_some, getElem?_groupBy] at hmem
    split at hmem
    · rw [← Option.some.inj hmem, List.mem_filter] at hitem
      exact of_decide_eq_true hitem.2
    · cases hmem
  have hsort := flatMap_toList_groupBy compareUeKey ueKeyRank_injective
    (fun a b => ueKeyRank_lt) SrsStreamItem.ueKey items
  rw [indicationMessage, List.flatMap_map, List.flatMap_congr hgroup, sortItems, ← hsort,
    List.map_flatMap, groupItems]

/-- The message does not depend on the order of the groups, nor on what packing drops. -/
theorem indicationMessage_sort_quantised (items : List SrsStreamItem) :
    indicationMessage ((sortItems items).map SrsStreamItem.quantised) =
      indicationMessage items := by
  have hsort : groupItems (sortItems items) = groupItems items := by
    apply groupBy_congr
    intro k
    have h := withKey_sortByKey (fun item : SrsStreamItem => ueKeyRank item.ueKey)
      (ueKeyRank k) items
    simpa only [sortItems, withKey, ueKeyRank_injective.eq_iff] using h
  have hmap : groupItems ((sortItems items).map SrsStreamItem.quantised) =
      (groupItems items).map fun _ => List.map SrsStreamItem.quantised := by
    rw [groupItems, groupBy_map _ SrsStreamItem.ueKey_quantised]
    exact congrArg (fun m => Std.ExtTreeMap.map (fun _ => List.map SrsStreamItem.quantised) m) hsort
  -- packing undoes what unpacking did to the samples
  have hpack : ∀ item : SrsStreamItem, antennaMessage item.quantised = antennaMessage item := by
    intro item
    simp only [antennaMessage, SrsStreamItem.quantised, quantiseAll, List.map_map,
      Function.comp_def, packIqSample_unpackIqSample]
  simp only [indicationMessage, hmap, Std.ExtTreeMap.toList_map, List.map_map]
  congr 1
  apply List.map_congr_left
  intro group _
  simp only [Function.comp_apply, ueMessage, List.map_map, Function.comp_def, hpack]

theorem serializeSrsIndication_of_lt {items : List SrsStreamItem}
    (h : (encodeSrsIndication items).length < 2 ^ 31) :
    serializeSrsIndication items = encodeSrsIndication items := if_pos h

@[simp] theorem length_serializeSrsIndication (items : List SrsStreamItem) :
    (serializeSrsIndication items).length = (encodeSrsIndication items).length := by
  unfold serializeSrsIndication serializeToArray
  split
  · rfl
  · exact List.length_replicate

/-- **What is deserialized is the stable sort of what was serialized, quantised.** -/
theorem deserializeSrsIndication_serializeSrsIndication {items : List SrsStreamItem}
    (h : (encodeSrsIndication items).length < 2 ^ 31) :
    deserializeSrsIndication (serializeSrsIndication items) =
      (sortItems items).map SrsStreamItem.quantised := by
  have hparse : Pb.SrsIndicationMessage.schema.parse (encodeSrsIndication items) =
      (indicationMessage items, true) :=
    Pb.SrsIndicationMessage.parse_encode h
  rw [serializeSrsIndication_of_lt h, deserializeSrsIndication, hparse,
    flatMap_ueItems_indicationMessage]

/-- Every list of stream items whose encoding is below 2 GiB is read back as its stable
sort by UE and timestamp, quantised; and what is read back has the same encoding,
because every packed word is a fixed point of unpacking and packing. -/
theorem srs_indication_round_trip (items : List SrsStreamItem)
    (h : (encodeSrsIndication items).length < 2 ^ 31) :
    deserializeSrsIndication (serializeSrsIndication items) =
        (sortItems items).map SrsStreamItem.quantised ∧
      serializeSrsIndication (deserializeSrsIndication (serializeSrsIndication items)) =
        serializeSrsIndication items ∧
      ∀ w, packIqSample (unpackIqSample w) = w := by
  have hback := deserializeSrsIndication_serializeSrsIndication h
  refine ⟨hback, ?_, packIqSample_unpackIqSample⟩
  rw [hback, serializeSrsIndication, serializeSrsIndication, encodeSrsIndication,
    encodeSrsIndication, indicationMessage_sort_quantised]

/-- Two UEs interleaved, an empty stream, an antenna 0. -/
theorem srs_indication_round_trip_interleaved :
    let items : List SrsStreamItem :=
      [⟨2, 7, 0, false, [⟨.finite (1 / 3), .finite (-9)⟩]⟩, ⟨1, 7, 300, true, []⟩,
        ⟨2, 7, 1, false, [⟨.finite 0, .nonFinite⟩]⟩]
    deserializeSrsIndication (serializeSrsIndication items) =
        [⟨1, 7, 300, true, []⟩,
          ⟨2, 7, 0, false, [⟨.finite (2731 / 8192), .finite (-4)⟩]⟩,
          ⟨2, 7, 1, false, [⟨.finite 0, .finite 0⟩]⟩] ∧
      serializeSrsIndication (deserializeSrsIndication (serializeSrsIndication items)) =
        serializeSrsIndication items := by
  intro items
  have h := srs_indication_round_trip items (by decide +kernel)
  refine ⟨h.1.trans ?_, h.2.1⟩
  decide +kernel

/-! ## One UE and timestamp -/

/-- Items of one UE and timestamp come back in the order in which they were written. -/
theorem sortItems_of_ueKey_eq {items : List SrsStreamItem} {k : UInt32 × UInt64}
    (h : ∀ item ∈ items, item.ueKey = k) : sortItems items = items := by
  refine sortByKey_of_sorted (List.pairwise_of_forall_mem_list fun a ha b hb => ?_)
  rw [h a ha, h b hb]

/-- The group of an item. -/
theorem mem_toList_groupItems {items : List SrsStreamItem} {item : SrsStreamItem}
    (h : item ∈ items) :
    (item.ueKey, items.filter fun other => other.ueKey = item.ueKey) ∈
      (groupItems items).toList := by
  rw [Std.ExtTreeMap.mem_toList_iff_getElem?_eq_some, groupItems, getElem?_groupBy,
    if_pos ⟨item, h, rfl⟩]

/-- They make up one group. -/
theorem toList_groupItems_of_ueKey_eq {items : List SrsStreamItem} {k : UInt32 × UInt64}
    (hne : items ≠ []) (h : ∀ item ∈ items, item.ueKey = k) :
    (groupItems items).toList = [(k, items)] := by
  have hall : (items.filter fun item => item.ueKey = k) = items :=
    List.filter_eq_self.mpr fun item hitem => decide_eq_true (h item hitem)
  have hmem : ∀ p, p ∈ (groupItems items).toList ↔ p ∈ [(k, items)] := by
    rintro ⟨k', group⟩
    rw [Std.ExtTreeMap.mem_toList_iff_getElem?_eq_some, groupItems, getElem?_groupBy,
      List.mem_singleton, Prod.mk.injEq]
    obtain ⟨first, hfirst⟩ := List.exists_mem_of_ne_nil items hne
    refine ⟨?_, ?_⟩
    · intro hgroup
      split at hgroup
      · rename_i hex
        obtain ⟨item, hitem, rfl⟩ := hex
        have hk := h item hitem
        rw [hk, hall] at hgroup
        exact ⟨hk, (Option.some.inj hgroup).symm⟩
      · cases hgroup
    · rintro ⟨rfl, rfl⟩
      rw [if_pos ⟨first, hfirst, h first hfirst⟩, hall]
  have hnodup : (groupItems items).toList.Nodup := by
    apply Std.ExtTreeMap.ordered_keys_toList.imp
    rintro p q hlt rfl
    have heq : compareUeKey p.1 p.1 = .eq := Std.ReflCmp.compare_self
    rw [heq] at hlt
    cases hlt
  exact List.perm_singleton.mp ((List.perm_ext_iff_of_nodup hnodup (List.nodup_singleton _)).mpr hmem)

theorem indicationMessage_of_ueKey_eq {items : List SrsStreamItem} {k : UInt32 × UInt64}
    (hne : items ≠ []) (h : ∀ item ∈ items, item.ueKey = k) :
    indicationMessage items = ⟨[ueMessage (k, items)]⟩ := by
  rw [indicationMessage, toList_groupItems_of_ueKey_eq hne h]
  rfl

/-! ## Lengths -/

/-- The bytes of a UE. -/
def ueEncoding (group : (UInt32 × UInt64) × List SrsStreamItem) : Bytes :=
  Pb.UeSrsData.schema.encode (ueMessage group)

theorem encodeSrsIndication_of_ueKey_eq {items : List SrsStreamItem} {k : UInt32 × UInt64}
    (hne : items ≠ []) (h : ∀ item ∈ items, item.ueKey = k) :
    encodeSrsIndication items = Field.encode ⟨1, .len (ueEncoding (k, items))⟩ := by
  rw [encodeSrsIndication, indicationMessage_of_ueKey_eq hne h]
  exact List.append_nil _

/-- The fields of a UE before its antennas. -/
def ueHeader (k : UInt32 × UInt64) : Bytes :=
  encodeFields (Pb.uintField 1 k.1.toNat ++ Pb.uintField 2 k.2.toNat)

theorem ueEncoding_eq (group : (UInt32 × UInt64) × List SrsStreamItem) :
    ueEncoding group = ueHeader group.1 ++ encodeFields (group.2.map fun item =>
      ⟨3, .len (Pb.SrsAntennaData.schema.encode (antennaMessage item))⟩) := by
  have hfields : Pb.UeSrsData.schema.fields (ueMessage group) =
      Pb.uintField 1 group.1.1.toNat ++ Pb.uintField 2 group.1.2.toNat ++
        group.2.map fun item =>
          ⟨3, .len (Pb.SrsAntennaData.schema.encode (antennaMessage item))⟩ := by
    simp only [Pb.UeSrsData.schema, ueMessage, List.map_map, Function.comp_def]
  rw [ueEncoding, Schema.encode, hfields, encodeFields_append, ueHeader]

/-- An item by itself takes no more bytes than among others. -/
theorem length_encodeSrsIndication_singleton_le {items : List SrsStreamItem}
    {item : SrsStreamItem} (h : item ∈ items) :
    (encodeSrsIndication [item]).length ≤ (encodeSrsIndication items).length := by
  have hgroup := mem_toList_groupItems h
  have hself : item ∈ items.filter fun other => other.ueKey = item.ueKey :=
    List.mem_filter.mpr ⟨h, decide_eq_true rfl⟩
  have hue : (ueEncoding (item.ueKey, [item])).length ≤
      (ueEncoding (item.ueKey, items.filter fun other => other.ueKey = item.ueKey)).length := by
    have hfield := length_encode_le_encodeFields (List.mem_map_of_mem
      (f := fun item => (⟨3, .len (Pb.SrsAntennaData.schema.encode (antennaMessage item))⟩ : Field))
      hself)
    rw [ueEncoding_eq, ueEncoding_eq, List.length_append, List.length_append]
    simp only [List.map_cons, List.map_nil, encodeFields, List.flatMap_cons, List.flatMap_nil,
      List.append_nil] at hfield ⊢
    omega
  have hmessage : (⟨1, .len (ueEncoding (item.ueKey,
      items.filter fun other => other.ueKey = item.ueKey))⟩ : Field) ∈
      Pb.SrsIndicationMessage.schema.fields (indicationMessage items) := by
    simp only [indicationMessage, Pb.SrsIndicationMessage.schema, List.map_map]
    exact List.mem_map_of_mem
      (f := fun group => (⟨1, .len (ueEncoding group)⟩ : Field)) hgroup
  rw [encodeSrsIndication_of_ueKey_eq (List.cons_ne_nil _ _) fun other hother => by
    rw [List.mem_singleton.mp hother]]
  exact le_trans (length_encode_len_mono 1 hue) (length_encode_le_encodeFields hmessage)

/-- A second item of the same UE and timestamp takes some bytes. -/
theorem length_encodeSrsIndication_singleton_lt {a b : SrsStreamItem} (h : b.ueKey = a.ueKey) :
    (encodeSrsIndication [a]).length < (encodeSrsIndication [a, b]).length := by
  have hboth : ∀ item ∈ [a, b], item.ueKey = a.ueKey := by
    simp [h]
  have hlen : 1 ≤ (encodeFields
      [⟨3, .len (Pb.SrsAntennaData.schema.encode (antennaMessage b))⟩]).length :=
    length_le_encodeFields [_]
  rw [encodeSrsIndication_of_ueKey_eq (List.cons_ne_nil _ _) hboth,
    encodeSrsIndication_of_ueKey_eq (List.cons_ne_nil _ _) fun item hitem =>
      hboth item (List.mem_cons.mpr (Or.inl (List.mem_singleton.mp hitem)))]
  refine length_encode_len_strictMono 1 ?_
  have hfields : ∀ f g : Field, encodeFields [f, g] = encodeFields [f] ++ encodeFields [g] :=
    fun f g => encodeFields_append [f] [g]
  rw [ueEncoding_eq, ueEncoding_eq, List.length_append, List.length_append]
  simp only [List.map_cons, List.map_nil, hfields, List.length_append]
  omega

theorem length_ueHeader_le (k : UInt32 × UInt64) : (ueHeader k).length ≤ 17 := by
  have hrnti : (encodeFields (Pb.uintField 1 k.1.toNat)).length ≤ 6 :=
    Pb.length_uintField_le (by decide) 4 (k.1.toNat_lt.trans (by norm_num))
  have htimestamp : (encodeFields (Pb.uintField 2 k.2.toNat)).length ≤ 11 :=
    Pb.length_uintField_le (by decide) 9 (k.2.toNat_lt.trans (by norm_num))
  rw [ueHeader, encodeFields_append, List.length_append]
  omega

/-- The widest ids and timestamp take 37 bytes besides the samples. -/
theorem length_encodeSrsIndication_singleton_le_of_samples {item : SrsStreamItem} {n : Nat}
    (hlen : item.srs.length ≤ n) (hn : 4 * n + 34 < 128 ^ 2) :
    (encodeSrsIndication [item]).length ≤ 4 * n + 37 := by
  have hantenna : (Pb.SrsAntennaData.schema.encode (antennaMessage item)).length ≤ 4 * n + 14 :=
    Pb.SrsAntennaData.length_encode_le rfl ((List.length_map ..).trans_le hlen) (by omega)
  have hfield := length_encode_len_le (by decide : 3 < 16) 1 hantenna (by omega)
  have hheader := length_ueHeader_le item.ueKey
  have hue : (ueEncoding (item.ueKey, [item])).length ≤ 4 * n + 34 := by
    rw [ueEncoding_eq, List.length_append, List.map_singleton, encodeFields_singleton]
    exact (Nat.add_le_add hheader hfield).trans (by omega)
  rw [encodeSrsIndication_of_ueKey_eq (List.cons_ne_nil _ _) fun other hother => by
    rw [List.mem_singleton.mp hother]]
  exact length_encode_len_le (by decide : 1 < 16) 1 hue hn

theorem sum_samples_indicationMessage (items : List SrsStreamItem) :
    (((indicationMessage items).ueSrsData.flatMap Pb.UeSrsData.antennaData).map
        fun ant => ant.samples.length).sum = (items.map fun item => item.srs.length).sum := by
  have hflat := congrArg (List.map fun item => item.srs.length)
    (flatMap_ueItems_indicationMessage items)
  have hperm : ((sortItems items).map fun item => item.srs.length).sum =
      (items.map fun item => item.srs.length).sum :=
    ((sortByKey_perm _ items).map _).sum_eq
  rw [← hperm, List.map_flatMap]
  simp only [List.map_flatMap, ueItems, List.map_map, Function.comp_def, List.length_map,
    SrsStreamItem.quantised, length_quantiseAll] at hflat
  rw [← hflat]
  rfl

/-- Every sample takes four bytes. -/
theorem four_mul_samples_le_length (items : List SrsStreamItem) :
    4 * (items.map fun item => item.srs.length).sum ≤ (encodeSrsIndication items).length := by
  rw [← sum_samples_indicationMessage]
  exact Pb.SrsIndicationMessage.four_mul_length_le _

theorem encodeSrsIndication_ne_nil {items : List SrsStreamItem} (h : items ≠ []) :
    encodeSrsIndication items ≠ [] := by
  have hue : (indicationMessage items).ueSrsData ≠ [] := by
    intro hnil
    have hflat := flatMap_ueItems_indicationMessage items
    -- every item comes out of some group
    rw [hnil, List.flatMap_nil] at hflat
    have hlen := (sortByKey_perm (fun item : SrsStreamItem => ueKeyRank item.ueKey)
      items).length_eq
    rw [← sortItems, List.map_eq_nil_iff.mp hflat.symm] at hlen
    exact h (List.length_eq_zero_iff.mp hlen.symm)
  have hlen := length_le_encodeFields
    (Pb.SrsIndicationMessage.schema.fields (indicationMessage items))
  intro hnil
  rw [encodeSrsIndication, Schema.encode] at hnil
  rw [hnil, Pb.SrsIndicationMessage.schema, List.length_map, List.length_nil] at hlen
  exact hue (List.length_eq_zero_iff.mp (Nat.le_zero.mp hlen))

theorem serializeSrsIndication_ne_nil {items : List SrsStreamItem} (h : items ≠ []) :
    serializeSrsIndication items ≠ [] := by
  intro hnil
  have hlen := length_serializeSrsIndication items
  rw [hnil, List.length_nil] at hlen
  exact encodeSrsIndication_ne_nil h (List.length_eq_zero_iff.mp hlen.symm)

/-- A message of 2 GiB or more is sent as zeros, and nothing comes out of it. -/
theorem deserializeSrsIndication_of_oversized {items : List SrsStreamItem}
    (h : 2 ^ 31 ≤ (encodeSrsIndication items).length) :
    deserializeSrsIndication (serializeSrsIndication items) = [] := by
  obtain ⟨len, hlen⟩ : ∃ len, (encodeSrsIndication items).length = len + 1 :=
    ⟨(encodeSrsIndication items).length - 1, by omega⟩
  rw [serializeSrsIndication, serializeToArray, if_neg (by omega), hlen, List.replicate_succ,
    deserializeSrsIndication, Schema.parse_zero_cons]
  rfl

/-- A stream of `2 ^ 29` samples makes it that long. -/
theorem deserializeSrsIndication_of_long_stream {items : List SrsStreamItem}
    {item : SrsStreamItem} (hitem : item ∈ items) (h : 2 ^ 29 ≤ item.srs.length) :
    deserializeSrsIndication (serializeSrsIndication items) = [] := by
  have hone := four_mul_samples_le_length [item]
  have hall := length_encodeSrsIndication_singleton_le hitem
  rw [List.map_singleton, List.sum_singleton] at hone
  exact deserializeSrsIndication_of_oversized (by omega)

end RunOran
