import RunOran.WireFormat
import Mathlib.Algebra.Order.BigOperators.Group.List
import Mathlib.Algebra.BigOperators.Ring.List

/-!
# The messages of `srs_messages.proto`

The generated classes, one `Protobuf.Schema` each: `fields` is `_InternalSerialize`
(fields in number order, zero scalars omitted, as proto3 prescribes) and `merge` is
the `switch` of `_InternalParse` (a known number with another wire type is an unknown
field, and so is skipped; a repeated sub-message is appended, a singular one merged
into what is there).

Each SRS message is read back from its own bytes, up to the 2 GiB limit of a length;
`SrsIndicationMessage.parse_encode` is the one the codec uses.
-/

namespace RunOran.Pb

open Protobuf

/-! ## Message classes -/

/-- A proto3 scalar: written unless it is zero. -/
def uintField (number v : Nat) : List Field := if v = 0 then [] else [⟨number, .varint v⟩]

/-- A sequence of packed IQ words. -/
structure SrsSymbol where
  iqSamples : List UInt32
  deriving DecidableEq

/-- The stream of one antenna, reference or received. -/
structure SrsAntennaData where
  antennaId : UInt32
  generated : Bool
  srs : Option SrsSymbol
  deriving DecidableEq

/-- The streams of one UE at one timestamp. -/
structure UeSrsData where
  rnti : UInt32
  timestamp : UInt64
  antennaData : List SrsAntennaData
  deriving DecidableEq

/-- An SRS indication. -/
structure SrsIndicationMessage where
  ueSrsData : List UeSrsData
  deriving DecidableEq

/-- A timing-advance observation. The source is an open enum, so any 32-bit value. -/
structure TimingAdvanceData where
  rnti : UInt32
  timestamp : UInt64
  timingAdvance : UInt32
  source : Int32
  attached : Bool
  ueIndex : UInt32
  deriving DecidableEq

/-- A timing-advance indication. -/
structure TimingAdvanceIndicationMessage where
  timingAdvanceData : List TimingAdvanceData
  deriving DecidableEq

def SrsSymbol.schema : Schema SrsSymbol where
  empty := ⟨[]⟩
  fields m :=
    if m.iqSamples = [] then []
    else [⟨1, .len ((m.iqSamples.map UInt32.toNat).flatMap (toLe 4))⟩]
  merge m f :=
    match f with
    | ⟨1, .len payload⟩ =>
      (⟨m.iqSamples ++ (words payload).map UInt32.ofNat⟩, payload.length % 4 == 0)
    | ⟨1, .fixed32 v⟩ => (⟨m.iqSamples ++ [UInt32.ofNat v]⟩, true)
    | _ => (m, true)

def SrsAntennaData.schema : Schema SrsAntennaData where
  empty := ⟨0, false, none⟩
  fields m :=
    uintField 1 m.antennaId.toNat ++ uintField 2 m.generated.toNat ++
      (m.srs.map fun srs => ⟨3, .len (SrsSymbol.schema.encode srs)⟩).toList
  merge m f :=
    match f with
    | ⟨1, .varint v⟩ => ({ m with antennaId := UInt32.ofNat v }, true)
    | ⟨2, .varint v⟩ => ({ m with generated := v != 0 }, true)
    | ⟨3, .len payload⟩ =>
      let srs := SrsSymbol.schema.parseInto (m.srs.getD SrsSymbol.schema.empty) payload
      ({ m with srs := some srs.1 }, srs.2)
    | _ => (m, true)

def UeSrsData.schema : Schema UeSrsData where
  empty := ⟨0, 0, []⟩
  fields m :=
    uintField 1 m.rnti.toNat ++ uintField 2 m.timestamp.toNat ++
      m.antennaData.map fun ant => ⟨3, .len (SrsAntennaData.schema.encode ant)⟩
  merge m f :=
    match f with
    | ⟨1, .varint v⟩ => ({ m with rnti := UInt32.ofNat v }, true)
    | ⟨2, .varint v⟩ => ({ m with timestamp := UInt64.ofNat v }, true)
    | ⟨3, .len payload⟩ =>
      let ant := SrsAntennaData.schema.parse payload
      ({ m with antennaData := m.antennaData ++ [ant.1] }, ant.2)
    | _ => (m, true)

def SrsIndicationMessage.schema : Schema SrsIndicationMessage where
  empty := ⟨[]⟩
  fields m := m.ueSrsData.map fun ue => ⟨1, .len (UeSrsData.schema.encode ue)⟩
  merge m f :=
    match f with
    | ⟨1, .len payload⟩ =>
      let ue := UeSrsData.schema.parse payload
      (⟨m.ueSrsData ++ [ue.1]⟩, ue.2)
    | _ => (m, true)

def TimingAdvanceData.schema : Schema TimingAdvanceData where
  empty := ⟨0, 0, 0, 0, false, 0⟩
  fields m :=
    uintField 1 m.rnti.toNat ++ uintField 2 m.timestamp.toNat ++
      uintField 3 m.timingAdvance.toNat ++ uintField 4 (m.source.toInt % 2 ^ 64).toNat ++
      uintField 5 m.attached.toNat ++ uintField 6 m.ueIndex.toNat
  merge m f :=
    match f with
    | ⟨1, .varint v⟩ => ({ m with rnti := UInt32.ofNat v }, true)
    | ⟨2, .varint v⟩ => ({ m with timestamp := UInt64.ofNat v }, true)
    | ⟨3, .varint v⟩ => ({ m with timingAdvance := UInt32.ofNat v }, true)
    | ⟨4, .varint v⟩ => ({ m with source := Int32.ofNat v }, true)
    | ⟨5, .varint v⟩ => ({ m with attached := v != 0 }, true)
    | ⟨6, .varint v⟩ => ({ m with ueIndex := UInt32.ofNat v }, true)
    | _ => (m, true)

def TimingAdvanceIndicationMessage.schema : Schema TimingAdvanceIndicationMessage where
  empty := ⟨[]⟩
  fields m := m.timingAdvanceData.map fun ta => ⟨1, .len (TimingAdvanceData.schema.encode ta)⟩
  merge m f :=
    match f with
    | ⟨1, .len payload⟩ =>
      let ta := TimingAdvanceData.schema.parse payload
      (⟨m.timingAdvanceData ++ [ta.1]⟩, ta.2)
    | _ => (m, true)

/-! ## Lengths -/

theorem length_uintField_le {number v : Nat} (hnumber : number < 16) (j : Nat)
    (hv : v < 128 ^ (j + 1)) : (encodeFields (uintField number v)).length ≤ j + 2 := by
  unfold uintField
  split
  · exact Nat.zero_le _
  · rw [encodeFields_singleton]
    exact length_encode_varint_le hnumber j hv

/-- Four bytes a sample, a tag and a length. -/
theorem SrsSymbol.length_encode_le {m : SrsSymbol} {n : Nat} (hlen : m.iqSamples.length ≤ n)
    (hn : 4 * n < 128 ^ 2) : (schema.encode m).length ≤ 4 * n + 3 := by
  by_cases hm : m.iqSamples = []
  · simp [Schema.encode, schema, hm, encodeFields]
  · have hpayload : ((m.iqSamples.map UInt32.toNat).flatMap (toLe 4)).length ≤ 4 * n := by
      rw [length_flatMap_toLe, List.length_map]
      exact Nat.mul_le_mul_left 4 hlen
    have hfield := length_encode_len_le (by decide : 1 < 16) 1 hpayload hn
    simp only [Schema.encode, schema, if_neg hm, encodeFields_singleton]
    omega

/-- The widest antenna id, the flag, and the samples. -/
theorem SrsAntennaData.length_encode_le {m : SrsAntennaData} {srs : SrsSymbol} {n : Nat}
    (hsrs : m.srs = some srs) (hlen : srs.iqSamples.length ≤ n) (hn : 4 * n + 3 < 128 ^ 2) :
    (schema.encode m).length ≤ 4 * n + 14 := by
  have hid : (encodeFields (uintField 1 m.antennaId.toNat)).length ≤ 6 :=
    length_uintField_le (by decide) 4 (m.antennaId.toNat_lt.trans (by norm_num))
  have hgenerated : (encodeFields (uintField 2 m.generated.toNat)).length ≤ 2 :=
    length_uintField_le (by decide) 0 ((Bool.toNat_lt _).trans (by norm_num))
  have hsymbol := SrsSymbol.length_encode_le hlen (by omega)
  have hfield := length_encode_len_le (by decide : 3 < 16) 1 hsymbol hn
  have hfields : schema.fields m = uintField 1 m.antennaId.toNat ++
      uintField 2 m.generated.toNat ++ [⟨3, .len (SrsSymbol.schema.encode srs)⟩] := by
    simp only [schema, hsrs]
    rfl
  rw [Schema.encode, hfields, encodeFields_append, encodeFields_append, List.length_append,
    List.length_append, encodeFields_singleton]
  omega

/-! ## Round trips -/

theorem fits_of_mem_uintField {number v : Nat} {f : Field} (hpos : 0 < number)
    (hlt : number < 2 ^ 29) (hv : v < 2 ^ 64) (h : f ∈ uintField number v) : f.Fits := by
  unfold uintField at h
  split at h
  · cases h
  · obtain rfl := List.mem_singleton.mp h
    exact ⟨hpos, hlt, hv⟩

/-- Reading a scalar back into a message whose field still holds its default, zero. -/
theorem mergeFields_uintField {M : Type} {S : Schema M} {m m' : M} {number v : Nat}
    (hzero : v = 0 → m = m') (hmerge : S.merge m ⟨number, .varint v⟩ = (m', true)) :
    S.mergeFields m (uintField number v) = (m', true) := by
  unfold uintField
  split
  · rename_i hv
    rw [hzero hv, Schema.mergeFields_nil]
  · rw [Schema.mergeFields_cons hmerge, Schema.mergeFields_nil]

section Scalars

variable {M : Type} {S : Schema M} {number : Nat}

/-- A `uint32` is read back. The message with the value `v` in its field is `holding v`. -/
theorem mergeFields_uint32 (holding : UInt32 → M)
    (hmerge : ∀ v, S.merge (holding 0) ⟨number, .varint v⟩ = (holding (UInt32.ofNat v), true))
    (v : UInt32) : S.mergeFields (holding 0) (uintField number v.toNat) = (holding v, true) := by
  refine mergeFields_uintField (fun hv => ?_) ?_
  · rw [UInt32.toNat_inj.mp (hv.trans UInt32.toNat_zero.symm)]
  · rw [hmerge, UInt32.ofNat_toNat]

theorem mergeFields_uint64 (holding : UInt64 → M)
    (hmerge : ∀ v, S.merge (holding 0) ⟨number, .varint v⟩ = (holding (UInt64.ofNat v), true))
    (v : UInt64) : S.mergeFields (holding 0) (uintField number v.toNat) = (holding v, true) := by
  refine mergeFields_uintField (fun hv => ?_) ?_
  · rw [UInt64.toNat_inj.mp (hv.trans UInt64.toNat_zero.symm)]
  · rw [hmerge, UInt64.ofNat_toNat]

theorem mergeFields_bool (holding : Bool → M)
    (hmerge : ∀ v, S.merge (holding false) ⟨number, .varint v⟩ = (holding (v != 0), true))
    (b : Bool) : S.mergeFields (holding false) (uintField number b.toNat) = (holding b, true) := by
  refine mergeFields_uintField (fun hb => ?_) ?_
  · cases b
    · rfl
    · cases hb
  · rw [hmerge]
    cases b <;> rfl

end Scalars

theorem toNat_bool_lt (b : Bool) : b.toNat < 2 ^ 64 := by
  cases b <;> decide

theorem SrsSymbol.parse_encode {m : SrsSymbol} (h : (schema.encode m).length < 2 ^ 31) :
    schema.parse (schema.encode m) = (m, true) := by
  refine Schema.parse_encode ?_ ?_
  · intro f hf
    by_cases hm : m.iqSamples = []
    · simp [schema, hm] at hf
    · simp only [schema, if_neg hm, List.mem_singleton] at hf
      subst hf
      refine Field.fits_len (by decide) (by norm_num) (lt_of_le_of_lt ?_ h)
      exact length_payload_le_encodeFields 1
        (by simp only [schema, if_neg hm]; exact List.mem_singleton_self _)
  · by_cases hm : m.iqSamples = []
    · have hnil : schema.fields m = [] := if_pos hm
      have hempty : schema.empty = m := congrArg SrsSymbol.mk hm.symm
      rw [hnil, hempty, Schema.mergeFields_nil]
    · have hback : words ((m.iqSamples.map UInt32.toNat).flatMap (toLe 4)) =
          m.iqSamples.map UInt32.toNat := by
        apply words_flatMap_toLe
        intro w hw
        obtain ⟨v, -, rfl⟩ := List.mem_map.mp hw
        exact v.toNat_lt
      have hlen : ((m.iqSamples.map UInt32.toNat).flatMap (toLe 4)).length % 4 = 0 := by
        rw [length_flatMap_toLe]
        exact Nat.mul_mod_right 4 _
      have hwords : (m.iqSamples.map UInt32.toNat).map UInt32.ofNat = m.iqSamples := by
        rw [List.map_map]
        exact List.map_id'' (fun _ => UInt32.ofNat_toNat) _
      have hmerge : schema.merge schema.empty
          ⟨1, .len ((m.iqSamples.map UInt32.toNat).flatMap (toLe 4))⟩ = (m, true) := by
        simp only [schema, hback, hwords, List.nil_append, hlen, beq_self_eq_true]
      have hfields : schema.fields m =
          [⟨1, .len ((m.iqSamples.map UInt32.toNat).flatMap (toLe 4))⟩] := if_neg hm
      rw [hfields, Schema.mergeFields_cons hmerge, Schema.mergeFields_nil]

theorem SrsAntennaData.parse_encode {m : SrsAntennaData}
    (h : (schema.encode m).length < 2 ^ 31) : schema.parse (schema.encode m) = (m, true) := by
  obtain ⟨antennaId, generated, srs⟩ := m
  have hpayload : ∀ s, srs = some s → (SrsSymbol.schema.encode s).length < 2 ^ 31 := by
    rintro s rfl
    exact lt_of_le_of_lt (length_payload_le_encodeFields 3 (by simp [schema])) h
  refine Schema.parse_encode ?_ ?_
  · intro f hf
    simp only [schema, List.mem_append, Option.mem_toList, Option.map_eq_some_iff] at hf
    rcases hf with (hf | hf) | ⟨s, hs, rfl⟩
    · exact fits_of_mem_uintField (by decide) (by norm_num)
        (lt_of_lt_of_le antennaId.toNat_lt (by norm_num)) hf
    · exact fits_of_mem_uintField (by decide) (by norm_num) (toNat_bool_lt generated) hf
    · exact Field.fits_len (by decide) (by norm_num) (hpayload s hs)
  · -- the parser takes the fields in one by one; a zero was not written, and is the default
    have h₁ : schema.mergeFields schema.empty (uintField 1 antennaId.toNat) =
        (⟨antennaId, false, none⟩, true) :=
      mergeFields_uint32 (fun id => SrsAntennaData.mk id false none) (fun _ => rfl) antennaId
    have h₂ : schema.mergeFields ⟨antennaId, false, none⟩ (uintField 2 generated.toNat) =
        (⟨antennaId, generated, none⟩, true) :=
      mergeFields_bool (fun b => SrsAntennaData.mk antennaId b none) (fun _ => rfl) generated
    simp only [schema, List.append_assoc] at h₁ h₂ ⊢
    rw [Schema.mergeFields_append _ h₁, Schema.mergeFields_append _ h₂]
    cases srs with
    | none => rfl
    | some s =>
      have hs := SrsSymbol.parse_encode (hpayload s rfl)
      rw [Schema.parse] at hs
      have hmerge : schema.merge ⟨antennaId, generated, none⟩
          ⟨3, .len (SrsSymbol.schema.encode s)⟩ = (⟨antennaId, generated, some s⟩, true) := by
        simp only [schema, Option.getD_none, hs]
      exact Schema.mergeFields_cons hmerge

theorem UeSrsData.parse_encode {m : UeSrsData} (h : (schema.encode m).length < 2 ^ 31) :
    schema.parse (schema.encode m) = (m, true) := by
  obtain ⟨rnti, timestamp, antennaData⟩ := m
  have hpayload : ∀ ant ∈ antennaData, (SrsAntennaData.schema.encode ant).length < 2 ^ 31 := by
    intro ant hant
    refine lt_of_le_of_lt (length_payload_le_encodeFields 3 ?_) h
    simp only [schema, List.mem_append]
    exact Or.inr (List.mem_map_of_mem hant)
  refine Schema.parse_encode ?_ ?_
  · intro f hf
    simp only [schema, List.mem_append, List.mem_map] at hf
    rcases hf with (hf | hf) | ⟨ant, hant, rfl⟩
    · exact fits_of_mem_uintField (by decide) (by norm_num)
        (lt_of_lt_of_le rnti.toNat_lt (by norm_num)) hf
    · exact fits_of_mem_uintField (by decide) (by norm_num) timestamp.toNat_lt hf
    · exact Field.fits_len (by decide) (by norm_num) (hpayload ant hant)
  · have h₁ : schema.mergeFields schema.empty (uintField 1 rnti.toNat) =
        (⟨rnti, 0, []⟩, true) :=
      mergeFields_uint32 (fun r => UeSrsData.mk r 0 []) (fun _ => rfl) rnti
    have h₂ : schema.mergeFields ⟨rnti, 0, []⟩ (uintField 2 timestamp.toNat) =
        (⟨rnti, timestamp, []⟩, true) :=
      mergeFields_uint64 (fun t => UeSrsData.mk rnti t []) (fun _ => rfl) timestamp
    have h₃ : schema.mergeFields ⟨rnti, timestamp, []⟩
        (antennaData.map fun ant => ⟨3, .len (SrsAntennaData.schema.encode ant)⟩) =
        (⟨rnti, timestamp, [] ++ antennaData⟩, true) := by
      apply Schema.mergeFields_map (UeSrsData.mk rnti timestamp)
      intro done ant hant
      simp [schema, SrsAntennaData.parse_encode (hpayload ant hant)]
    simp only [schema, List.append_assoc] at h₁ h₂ h₃ ⊢
    rw [Schema.mergeFields_append _ h₁, Schema.mergeFields_append _ h₂, h₃, List.nil_append]

/-- **An SRS indication is read back from its bytes.** -/
theorem SrsIndicationMessage.parse_encode {m : SrsIndicationMessage}
    (h : (schema.encode m).length < 2 ^ 31) : schema.parse (schema.encode m) = (m, true) := by
  obtain ⟨ueSrsData⟩ := m
  have hpayload : ∀ ue ∈ ueSrsData, (UeSrsData.schema.encode ue).length < 2 ^ 31 := by
    intro ue hue
    refine lt_of_le_of_lt (length_payload_le_encodeFields 1 ?_) h
    exact List.mem_map_of_mem hue
  refine Schema.parse_encode ?_ ?_
  · intro f hf
    simp only [schema, List.mem_map] at hf
    obtain ⟨ue, hue, rfl⟩ := hf
    exact Field.fits_len (by decide) (by norm_num) (hpayload ue hue)
  · have hmap : schema.mergeFields schema.empty
        (ueSrsData.map fun ue => ⟨1, .len (UeSrsData.schema.encode ue)⟩) =
        (⟨[] ++ ueSrsData⟩, true) := by
      apply Schema.mergeFields_map SrsIndicationMessage.mk
      intro done ue hue
      simp [schema, UeSrsData.parse_encode (hpayload ue hue)]
    simpa [schema] using hmap

/-! ## Lengths

A packed sample takes four bytes, so a message is at least four times as long as it has
samples. -/

def SrsAntennaData.samples (m : SrsAntennaData) : List UInt32 := (m.srs.getD ⟨[]⟩).iqSamples

theorem SrsSymbol.four_mul_length_le (m : SrsSymbol) :
    4 * m.iqSamples.length ≤ (schema.encode m).length := by
  by_cases hm : m.iqSamples = []
  · simp [hm]
  · have hfield : (⟨1, .len ((m.iqSamples.map UInt32.toNat).flatMap (toLe 4))⟩ : Field) ∈
        schema.fields m := by
      simp only [schema, if_neg hm]
      exact List.mem_singleton_self _
    have hlen := length_payload_le_encodeFields _ hfield
    rwa [length_flatMap_toLe, List.length_map] at hlen

theorem SrsAntennaData.four_mul_length_le (m : SrsAntennaData) :
    4 * m.samples.length ≤ (schema.encode m).length := by
  obtain ⟨antennaId, generated, srs⟩ := m
  cases srs with
  | none => exact Nat.zero_le _
  | some s =>
    have hfield : (⟨3, .len (SrsSymbol.schema.encode s)⟩ : Field) ∈
        schema.fields ⟨antennaId, generated, some s⟩ := by
      simp [schema]
    exact le_trans (SrsSymbol.four_mul_length_le s) (length_payload_le_encodeFields _ hfield)

theorem UeSrsData.four_mul_length_le (m : UeSrsData) :
    4 * (m.antennaData.map fun ant => ant.samples.length).sum ≤ (schema.encode m).length := by
  have hsum := sum_length_payload_le_encodeFields 3
    (fun ant => SrsAntennaData.schema.encode ant) m.antennaData
  have hle : (m.antennaData.map fun ant => 4 * ant.samples.length).sum ≤
      (m.antennaData.map fun ant => (SrsAntennaData.schema.encode ant).length).sum :=
    List.sum_le_sum fun ant _ => SrsAntennaData.four_mul_length_le ant
  rw [← List.sum_map_mul_left]
  apply le_trans (le_trans hle hsum)
  simp only [Schema.encode, schema, encodeFields, List.flatMap_append, List.length_append]
  omega

theorem SrsIndicationMessage.four_mul_length_le (m : SrsIndicationMessage) :
    4 * ((m.ueSrsData.flatMap UeSrsData.antennaData).map fun ant => ant.samples.length).sum ≤
      (schema.encode m).length := by
  have hsum := sum_length_payload_le_encodeFields 1
    (fun ue => UeSrsData.schema.encode ue) m.ueSrsData
  have hle : (m.ueSrsData.map fun ue =>
        4 * (ue.antennaData.map fun ant => ant.samples.length).sum).sum ≤
      (m.ueSrsData.map fun ue => (UeSrsData.schema.encode ue).length).sum :=
    List.sum_le_sum fun ue _ => UeSrsData.four_mul_length_le ue
  rw [List.map_flatMap, List.flatMap, List.sum_flatten, List.map_map, ← List.sum_map_mul_left]
  exact le_trans hle hsum

end RunOran.Pb
