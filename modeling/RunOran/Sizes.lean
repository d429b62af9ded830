import RunOran.GnbConfig

/-!
# The sizes of messages

`serialize_srs_indication` and `serialize_gnb_config` make an array of `ByteSizeLong()` bytes and
serialize into it, and a sub-message is preceded by the length that its own `ByteSizeLong()` has
cached. These sizes are computed apart from the serializer, field by field and in an order of their
own, with a length that is cast to 32 bits on the way. Below the 2 GiB that protobuf accepts they
are the number of bytes that are written, and a message is above that limit by its size if and only
if it is by its bytes (`byteSizes_agree`).
-/

namespace RunOran.Pb

open Protobuf

/-! ## Sizes of fields -/

/-- `UInt32Size`. -/
def uint32Size (v : UInt32) : Nat := varintSize v.toNat

/-- `UInt64Size`. -/
def uint64Size (v : UInt64) : Nat := varintSize v.toNat

/-- `Int32Size` and `EnumSize`: the sign is extended to 64 bits. -/
def int32Size (v : Int32) : Nat := varintSize (v.toInt % 2 ^ 64).toNat

/-- `LengthDelimitedSize`, for `MessageSize` and `StringSize`. -/
def lengthDelimitedSize (length : Nat) : Nat := length + uint32Size (UInt32.ofNat length)

theorem length_encodeTag {number wireType : Nat} (hnumber : number < 16)
    (hwireType : wireType < 8) : (encodeTag number wireType).length = 1 := by
  rw [encodeTag, length_encodeVarint (by omega), varintSize, Nat.log_of_lt (by omega)]

theorem length_encodeFields_uintField {number v : Nat} (hnumber : number < 16) (hv : v < 2 ^ 64) :
    (encodeFields (uintField number v)).length = if v ≠ 0 then 1 + varintSize v else 0 := by
  unfold uintField
  split
  · rename_i hzero
    rw [if_neg (not_not.mpr hzero)]
    rfl
  · have htag : (encodeTag number 0).length = 1 := length_encodeTag hnumber (by decide)
    rw [encodeFields_singleton, Field.encode, List.length_append, WireValue.encode,
      length_encodeVarint hv, WireValue.wireType, htag]

section Scalars

variable {number : Nat} (hnumber : number < 16)

include hnumber

theorem length_uint32Field (v : UInt32) : (encodeFields (uintField number v.toNat)).length =
    if v ≠ 0 then 1 + uint32Size v else 0 := by
  rw [length_encodeFields_uintField hnumber (lt_of_lt_of_le v.toNat_lt (by norm_num))]
  have hzero : v.toNat = 0 ↔ v = 0 := @UInt32.toNat_inj v 0
  exact if_congr (not_congr hzero) rfl rfl

theorem length_uint64Field (v : UInt64) : (encodeFields (uintField number v.toNat)).length =
    if v ≠ 0 then 1 + uint64Size v else 0 := by
  rw [length_encodeFields_uintField hnumber v.toNat_lt]
  have hzero : v.toNat = 0 ↔ v = 0 := @UInt64.toNat_inj v 0
  exact if_congr (not_congr hzero) rfl rfl

theorem length_boolField (b : Bool) : (encodeFields (uintField number b.toNat)).length =
    if b then 1 + 1 else 0 := by
  rw [length_encodeFields_uintField hnumber (toNat_bool_lt b)]
  cases b
  · rfl
  · rw [if_pos (by decide), if_pos rfl, Bool.toNat_true, varintSize, Nat.log_of_lt (by decide)]

theorem length_doubleField (x : Double) : (encodeFields (doubleField number x)).length =
    if x.isZero then 0 else 1 + 8 := by
  unfold doubleField
  split
  · rfl
  · have htag : (encodeTag number 1).length = 1 := length_encodeTag hnumber (by decide)
    rw [encodeFields_singleton, Field.encode, List.length_append, WireValue.encode, length_toLe,
      WireValue.wireType, htag]

end Scalars

theorem length_enumField {number : Nat} (hnumber : number < 16) (v : Int32) :
    (encodeFields (uintField number (v.toInt % 2 ^ 64).toNat)).length =
      if v ≠ 0 then 1 + int32Size v else 0 := by
  have hzero : (v.toInt % 2 ^ 64).toNat = 0 ↔ v = 0 := by
    have hlow := v.le_toInt
    have hhigh := v.toInt_lt
    have hzero : (0 : Int32).toInt = 0 := rfl
    rw [← Int32.toInt_inj]
    omega
  rw [length_encodeFields_uintField hnumber (by omega)]
  exact if_congr (not_congr hzero) rfl rfl

/-! ## Sizes that agree -/

/-- Two sizes agree if one of them is below 2 GiB. -/
def SameSize (size size' : Nat) : Prop := size < 2 ^ 31 ∨ size' < 2 ^ 31 → size = size'

namespace SameSize

theorem of_eq {size size' : Nat} (h : size = size') : SameSize size size' := fun _ => h

/-- A part of a short message is short. -/
theorem add {a a' b b' : Nat} (ha : SameSize a a') (hb : SameSize b b') :
    SameSize (a + b) (a' + b') := by
  intro h
  have hsum := ha (by omega)
  have hsum' := hb (by omega)
  omega

/-- A field with a payload: the size of the payload is cast to 32 bits. -/
theorem lengthDelimited {number size : Nat} {payload : Bytes} (hnumber : number < 16)
    (h : SameSize size payload.length) :
    SameSize (1 + lengthDelimitedSize size) (Field.encode ⟨number, .len payload⟩).length := by
  intro hshort
  have hfield := length_encode_len number payload
  have hsize : size = payload.length := by
    refine h ?_
    rw [hfield, lengthDelimitedSize] at hshort
    omega
  have hpayload : payload.length < 2 ^ 31 := by
    rw [hfield, lengthDelimitedSize] at hshort
    omega
  have hword : (UInt32.ofNat payload.length).toNat = payload.length := by
    rw [UInt32.toNat_ofNat']
    omega
  rw [hfield, length_encodeTag hnumber (by decide), length_encodeVarint (by omega), hsize,
    lengthDelimitedSize, uint32Size, hword]
  omega

/-- A repeated sub-message. -/
theorem repeated {N : Type} {T : Schema N} {number : Nat} (hnumber : number < 16) {size : N → Nat}
    (h : ∀ n, SameSize (size n) (T.encode n).length) (ns : List N) :
    SameSize (ns.length + (ns.map fun n => lengthDelimitedSize (size n)).sum)
      (encodeFields (ns.map fun n => ⟨number, .len (T.encode n)⟩)).length := by
  induction ns with
  | nil => exact of_eq rfl
  | cons n ns ih =>
    have hcons : encodeFields ((n :: ns).map fun n => ⟨number, .len (T.encode n)⟩) =
        Field.encode ⟨number, .len (T.encode n)⟩ ++
          encodeFields (ns.map fun n => ⟨number, .len (T.encode n)⟩) := rfl
    have hsum := (lengthDelimited hnumber (h n)).add ih
    rw [hcons, List.length_append, List.length_cons, List.map_cons, List.sum_cons]
    convert hsum using 1
    omega

end SameSize

/-- `byteSizeLong` is the number of bytes of the encoding, below 2 GiB. -/
def Sized {M : Type} (S : Schema M) (byteSizeLong : M → Nat) : Prop :=
  ∀ m, SameSize (byteSizeLong m) (S.encode m).length

/-! ## `ByteSizeLong` -/

def SrsSymbol.byteSizeLong (m : SrsSymbol) : Nat :=
  let dataSize := 4 * m.iqSamples.length
  (if dataSize > 0 then 1 + int32Size (Int32.ofNat dataSize) else 0) + dataSize

def SrsAntennaData.byteSizeLong (m : SrsAntennaData) : Nat :=
  (match m.srs with
    | some srs => 1 + lengthDelimitedSize srs.byteSizeLong
    | none => 0) +
    (if m.antennaId ≠ 0 then 1 + uint32Size m.antennaId else 0) +
    (if m.generated then 1 + 1 else 0)

def UeSrsData.byteSizeLong (m : UeSrsData) : Nat :=
  m.antennaData.length + (m.antennaData.map fun msg => lengthDelimitedSize msg.byteSizeLong).sum +
    (if m.timestamp ≠ 0 then 1 + uint64Size m.timestamp else 0) +
    (if m.rnti ≠ 0 then 1 + uint32Size m.rnti else 0)

def SrsIndicationMessage.byteSizeLong (m : SrsIndicationMessage) : Nat :=
  m.ueSrsData.length + (m.ueSrsData.map fun msg => lengthDelimitedSize msg.byteSizeLong).sum

def TimingAdvanceData.byteSizeLong (m : TimingAdvanceData) : Nat :=
  (if m.timestamp ≠ 0 then 1 + uint64Size m.timestamp else 0) +
    (if m.rnti ≠ 0 then 1 + uint32Size m.rnti else 0) +
    (if m.timingAdvance ≠ 0 then 1 + uint32Size m.timingAdvance else 0) +
    (if m.source ≠ 0 then 1 + int32Size m.source else 0) +
    (if m.attached then 1 + 1 else 0) +
    (if m.ueIndex ≠ 0 then 1 + uint32Size m.ueIndex else 0)

def TimingAdvanceIndicationMessage.byteSizeLong (m : TimingAdvanceIndicationMessage) : Nat :=
  m.timingAdvanceData.length +
    (m.timingAdvanceData.map fun msg => lengthDelimitedSize msg.byteSizeLong).sum

def GnbConfigRequest.byteSizeLong (m : GnbConfigRequest) : Nat :=
  (if m.xappId.length > 0 then 1 + lengthDelimitedSize m.xappId.length else 0) +
    (if m.requestId ≠ 0 then 1 + uint64Size m.requestId else 0)

def GnbConfigMessage.byteSizeLong (m : GnbConfigMessage) : Nat :=
  (if m.requestId ≠ 0 then 1 + uint64Size m.requestId else 0) +
    (if m.numRxAntennas ≠ 0 then 1 + uint32Size m.numRxAntennas else 0) +
    (if m.srsBandwidthPrb ≠ 0 then 1 + uint32Size m.srsBandwidthPrb else 0) +
    (if m.samplingFrequencyHz.isZero then 0 else 1 + 8) +
    (if m.numSrsSymbols ≠ 0 then 1 + uint32Size m.numSrsSymbols else 0) +
    (if m.success then 1 + 1 else 0) +
    (if m.subcarrierSpacingKhz.isZero then 0 else 1 + 8) +
    (if m.carrierFrequencyHz.isZero then 0 else 1 + 8) +
    (if m.ulBandwidthPrb ≠ 0 then 1 + uint32Size m.ulBandwidthPrb else 0)

/-! ## Agreement with the serializer -/

/-- A number of samples whose bytes do not fit an `int32` is above the limit either way. -/
theorem SrsSymbol.sized : Sized schema byteSizeLong := by
  intro m
  by_cases hm : m.iqSamples = []
  · apply SameSize.of_eq
    simp [byteSizeLong, Schema.encode, schema, hm, encodeFields]
  · have hpos : 0 < m.iqSamples.length := List.length_pos_iff.mpr hm
    have hpayload : ((m.iqSamples.map UInt32.toNat).flatMap (toLe 4)).length =
        4 * m.iqSamples.length := by
      rw [length_flatMap_toLe, List.length_map]
    have hfield := length_encode_len 1 ((m.iqSamples.map UInt32.toNat).flatMap (toLe 4))
    have hencode : schema.encode m =
        Field.encode ⟨1, .len ((m.iqSamples.map UInt32.toNat).flatMap (toLe 4))⟩ := by
      simp only [Schema.encode, schema, if_neg hm, encodeFields_singleton]
    rw [hencode, byteSizeLong, hfield, hpayload, if_pos (by omega)]
    intro hshort
    have hlen : 4 * m.iqSamples.length < 2 ^ 31 := by omega
    have hword : ((Int32.ofNat (4 * m.iqSamples.length)).toInt % 2 ^ 64).toNat =
        4 * m.iqSamples.length := by
      rw [Int32.toInt_ofNat_of_lt hlen]
      omega
    rw [int32Size, hword, length_encodeTag (by decide) (by decide),
      length_encodeVarint (by omega)]

theorem SrsAntennaData.sized : Sized schema byteSizeLong := by
  intro m
  have hscalars : SameSize ((if m.antennaId ≠ 0 then 1 + uint32Size m.antennaId else 0) +
      (if m.generated then 1 + 1 else 0))
      ((encodeFields (uintField 1 m.antennaId.toNat)).length +
        (encodeFields (uintField 2 m.generated.toNat)).length) := by
    apply SameSize.of_eq
    rw [length_uint32Field (by decide), length_boolField (by decide)]
  have hencode : schema.encode m = encodeFields (uintField 1 m.antennaId.toNat) ++
      encodeFields (uintField 2 m.generated.toNat) ++ encodeFields
        (m.srs.map fun s => (⟨3, .len (SrsSymbol.schema.encode s)⟩ : Field)).toList := by
    rw [Schema.encode, schema, encodeFields_append, encodeFields_append]
  rw [hencode, List.length_append, List.length_append, byteSizeLong, add_assoc, add_comm]
  refine hscalars.add ?_
  cases m.srs with
  | none => exact SameSize.of_eq rfl
  | some s =>
    rw [Option.map_some, Option.toList_some, encodeFields_singleton]
    exact SameSize.lengthDelimited (by decide) (SrsSymbol.sized s)

theorem UeSrsData.sized : Sized schema byteSizeLong := by
  intro m
  have hscalars : SameSize ((if m.rnti ≠ 0 then 1 + uint32Size m.rnti else 0) +
      (if m.timestamp ≠ 0 then 1 + uint64Size m.timestamp else 0))
      ((encodeFields (uintField 1 m.rnti.toNat)).length +
        (encodeFields (uintField 2 m.timestamp.toNat)).length) := by
    apply SameSize.of_eq
    rw [length_uint32Field (by decide), length_uint64Field (by decide)]
  have hencode : schema.encode m = encodeFields (uintField 1 m.rnti.toNat) ++
      encodeFields (uintField 2 m.timestamp.toNat) ++ encodeFields
        (m.antennaData.map fun ant => ⟨3, .len (SrsAntennaData.schema.encode ant)⟩) := by
    rw [Schema.encode, schema, encodeFields_append, encodeFields_append]
  have hsum := hscalars.add
    (SameSize.repeated (by decide : 3 < 16) SrsAntennaData.sized m.antennaData)
  rw [hencode, List.length_append, List.length_append, byteSizeLong]
  convert hsum using 1
  omega

theorem SrsIndicationMessage.sized : Sized schema byteSizeLong := fun m =>
  SameSize.repeated (by decide) UeSrsData.sized m.ueSrsData

/-- Only scalars, so there is no limit. -/
theorem TimingAdvanceData.byteSizeLong_eq (m : TimingAdvanceData) :
    m.byteSizeLong = (schema.encode m).length := by
  simp only [Schema.encode, schema, encodeFields_append, List.length_append, byteSizeLong,
    length_uint32Field (by decide : 1 < 16), length_uint64Field (by decide : 2 < 16),
    length_uint32Field (by decide : 3 < 16), length_enumField (by decide : 4 < 16),
    length_boolField (by decide : 5 < 16), length_uint32Field (by decide : 6 < 16)]
  omega

theorem TimingAdvanceIndicationMessage.sized : Sized schema byteSizeLong := fun m =>
  SameSize.repeated (by decide) (fun ta => SameSize.of_eq ta.byteSizeLong_eq) m.timingAdvanceData

theorem GnbConfigRequest.sized : Sized schema byteSizeLong := by
  intro m
  have hid := length_uint64Field (by decide : 1 < 16) m.requestId
  rw [byteSizeLong, Schema.encode, schema, encodeFields_append, List.length_append, add_comm, hid]
  refine (SameSize.of_eq rfl).add ?_
  by_cases hname : m.xappId = []
  · rw [if_pos hname, if_neg (by simp [hname])]
    exact SameSize.of_eq rfl
  · rw [if_neg hname, if_pos (List.length_pos_iff.mpr hname), encodeFields_singleton]
    exact SameSize.lengthDelimited (by decide) (SameSize.of_eq rfl)

theorem GnbConfigMessage.byteSizeLong_eq (m : GnbConfigMessage) :
    m.byteSizeLong = (schema.encode m).length := by
  simp only [Schema.encode, schema, encodeFields_append, List.length_append, byteSizeLong,
    length_uint64Field (by decide : 1 < 16), length_uint32Field (by decide : 2 < 16),
    length_uint32Field (by decide : 3 < 16), length_uint32Field (by decide : 4 < 16),
    length_doubleField (by decide : 5 < 16), length_doubleField (by decide : 6 < 16),
    length_boolField (by decide : 7 < 16), length_uint32Field (by decide : 8 < 16),
    length_doubleField (by decide : 9 < 16)]
  omega

/-- **The sizes agree with the serializer.** -/
theorem byteSizes_agree :
    Sized SrsSymbol.schema SrsSymbol.byteSizeLong ∧
      Sized SrsAntennaData.schema SrsAntennaData.byteSizeLong ∧
      Sized UeSrsData.schema UeSrsData.byteSizeLong ∧
      Sized SrsIndicationMessage.schema SrsIndicationMessage.byteSizeLong ∧
      Sized TimingAdvanceData.schema TimingAdvanceData.byteSizeLong ∧
      Sized TimingAdvanceIndicationMessage.schema TimingAdvanceIndicationMessage.byteSizeLong ∧
      Sized GnbConfigRequest.schema GnbConfigRequest.byteSizeLong ∧
      Sized GnbConfigMessage.schema GnbConfigMessage.byteSizeLong := by
  refine ⟨SrsSymbol.sized, SrsAntennaData.sized, UeSrsData.sized, SrsIndicationMessage.sized,
    fun m => ?_, TimingAdvanceIndicationMessage.sized, GnbConfigRequest.sized, fun m => ?_⟩
  · exact SameSize.of_eq m.byteSizeLong_eq
  · exact SameSize.of_eq m.byteSizeLong_eq

end RunOran.Pb
