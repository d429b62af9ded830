import RunOran.Concatenation
import RunOran.GnbConfig
import RunOran.Observations

/-!
# Merging messages

`MergeFrom` of the generated classes: the scalars of the other message that are not zero replace
one's own, its repeated fields are appended, and its singular sub-message is merged in turn. A
parser does the same with the fields of a second message that follow the first, so each class has
the law that makes protobuf messages extensible: **the bytes of messages in a row are those of their
merge** (`messages_concatenate`).

For the indications this means that it makes no difference how a sequence of streams is cut into
messages, or whether two of them arrive as one (`indications_concatenate`).
-/

namespace RunOran

open Protobuf

namespace Pb

/-! ## Scalars -/

section Scalars

variable {M : Type} {S : Schema M} {number : Nat}

/-- A scalar that is not zero replaces the one that is there. -/
theorem mergeFields_uintField_onto {m m' : M} {v : Nat} (hzero : v = 0 → m = m')
    (hmerge : v ≠ 0 → S.merge m ⟨number, .varint v⟩ = (m', true)) :
    S.mergeFields m (uintField number v) = (m', true) := by
  unfold uintField
  split
  · rename_i hv
    rw [hzero hv, Schema.mergeFields_nil]
  · rename_i hv
    rw [Schema.mergeFields_cons (hmerge hv), Schema.mergeFields_nil]

/-- The field is read by `get` and written by `set`. -/
theorem mergeFields_uint32_onto {m : M} (get : M → UInt32) (set : M → UInt32 → M)
    (hset : set m (get m) = m)
    (hmerge : ∀ v, S.merge m ⟨number, .varint v⟩ = (set m (UInt32.ofNat v), true)) (v : UInt32) :
    S.mergeFields m (uintField number v.toNat) = (set m (if v ≠ 0 then v else get m), true) := by
  refine mergeFields_uintField_onto (fun hv => ?_) (fun hv => ?_)
  · rw [if_neg (not_not.mpr (UInt32.toNat_inj.mp hv)), hset]
  · rw [hmerge, UInt32.ofNat_toNat, if_pos fun h => hv (congrArg UInt32.toNat h)]

theorem mergeFields_uint64_onto {m : M} (get : M → UInt64) (set : M → UInt64 → M)
    (hset : set m (get m) = m)
    (hmerge : ∀ v, S.merge m ⟨number, .varint v⟩ = (set m (UInt64.ofNat v), true)) (v : UInt64) :
    S.mergeFields m (uintField number v.toNat) = (set m (if v ≠ 0 then v else get m), true) := by
  refine mergeFields_uintField_onto (fun hv => ?_) (fun hv => ?_)
  · rw [if_neg (not_not.mpr (UInt64.toNat_inj.mp hv)), hset]
  · rw [hmerge, UInt64.ofNat_toNat, if_pos fun h => hv (congrArg UInt64.toNat h)]

theorem mergeFields_bool_onto {m : M} (get : M → Bool) (set : M → Bool → M)
    (hset : set m (get m) = m)
    (hmerge : ∀ v, S.merge m ⟨number, .varint v⟩ = (set m (v != 0), true)) (b : Bool) :
    S.mergeFields m (uintField number b.toNat) = (set m (if b then b else get m), true) := by
  refine mergeFields_uintField_onto (fun hb => ?_) (fun hb => ?_)
  · cases b
    · exact hset.symm
    · cases hb
  · rw [hmerge]
    cases b
    · exact absurd rfl hb
    · rfl

/-- An enum is written with the sign extended to 64 bits, and read back modulo `2 ^ 32`. -/
theorem int32_ofNat_signExtended (x : Int32) : Int32.ofNat (x.toInt % 2 ^ 64).toNat = x := by
  apply Int32.toInt_inj.mp
  have hlow := x.le_toInt
  have hhigh := x.toInt_lt
  rw [Int32.toInt_ofNat', Int.toNat_of_nonneg (Int.emod_nonneg _ (by decide)), Int.bmod_def]
  have hsize : Int32.size = 4294967296 := rfl
  rw [hsize]
  split <;> omega

theorem mergeFields_enum_onto {m : M} (get : M → Int32) (set : M → Int32 → M)
    (hset : set m (get m) = m)
    (hmerge : ∀ v, S.merge m ⟨number, .varint v⟩ = (set m (Int32.ofNat v), true)) (x : Int32) :
    S.mergeFields m (uintField number (x.toInt % 2 ^ 64).toNat) =
      (set m (if x ≠ 0 then x else get m), true) := by
  have hback := int32_ofNat_signExtended x
  refine mergeFields_uintField_onto (fun hx => ?_) (fun hx => ?_)
  · rw [hx] at hback
    have hzero : x = 0 := hback.symm
    rw [if_neg (not_not.mpr hzero), hset]
  · rw [hmerge, hback, if_pos]
    rintro rfl
    exact hx rfl

theorem mergeFields_double_onto {m : M} (get : M → Double) (set : M → Double → M)
    (hset : set m (get m) = m)
    (hmerge : ∀ v, S.merge m ⟨number, .fixed64 v⟩ = (set m ⟨UInt64.ofNat v⟩, true)) (x : Double) :
    S.mergeFields m (doubleField number x) = (set m (if x.isZero then get m else x), true) := by
  unfold doubleField
  split
  · rw [Schema.mergeFields_nil, hset]
  · rw [Schema.mergeFields_cons (hmerge _), Schema.mergeFields_nil, UInt64.ofNat_toNat]

end Scalars

/-! ## `MergeFrom` -/

/-- A message that can be a field of another: below 2 GiB. -/
def Short {M : Type} (S : Schema M) (m : M) : Prop := (S.encode m).length < 2 ^ 31

def SrsSymbol.mergeFrom (m source : SrsSymbol) : SrsSymbol := ⟨m.iqSamples ++ source.iqSamples⟩

def SrsAntennaData.mergeFrom (m source : SrsAntennaData) : SrsAntennaData where
  antennaId := if source.antennaId ≠ 0 then source.antennaId else m.antennaId
  generated := if source.generated then source.generated else m.generated
  srs :=
    match source.srs with
    -- `_internal_mutable_srs()` creates a missing one
    | some srs => some ((m.srs.getD SrsSymbol.schema.empty).mergeFrom srs)
    | none => m.srs

def UeSrsData.mergeFrom (m source : UeSrsData) : UeSrsData where
  rnti := if source.rnti ≠ 0 then source.rnti else m.rnti
  timestamp := if source.timestamp ≠ 0 then source.timestamp else m.timestamp
  antennaData := m.antennaData ++ source.antennaData

def SrsIndicationMessage.mergeFrom (m source : SrsIndicationMessage) : SrsIndicationMessage :=
  ⟨m.ueSrsData ++ source.ueSrsData⟩

def TimingAdvanceData.mergeFrom (m source : TimingAdvanceData) : TimingAdvanceData where
  rnti := if source.rnti ≠ 0 then source.rnti else m.rnti
  timestamp := if source.timestamp ≠ 0 then source.timestamp else m.timestamp
  timingAdvance := if source.timingAdvance ≠ 0 then source.timingAdvance else m.timingAdvance
  source := if source.source ≠ 0 then source.source else m.source
  attached := if source.attached then source.attached else m.attached
  ueIndex := if source.ueIndex ≠ 0 then source.ueIndex else m.ueIndex

def TimingAdvanceIndicationMessage.mergeFrom (m source : TimingAdvanceIndicationMessage) :
    TimingAdvanceIndicationMessage := ⟨m.timingAdvanceData ++ source.timingAdvanceData⟩

def GnbConfigRequest.mergeFrom (m source : GnbConfigRequest) : GnbConfigRequest where
  requestId := if source.requestId ≠ 0 then source.requestId else m.requestId
  xappId := if source.xappId.length > 0 then source.xappId else m.xappId

def GnbConfigMessage.mergeFrom (m source : GnbConfigMessage) : GnbConfigMessage where
  requestId := if source.requestId ≠ 0 then source.requestId else m.requestId
  numRxAntennas := if source.numRxAntennas ≠ 0 then source.numRxAntennas else m.numRxAntennas
  srsBandwidthPrb :=
    if source.srsBandwidthPrb ≠ 0 then source.srsBandwidthPrb else m.srsBandwidthPrb
  numSrsSymbols := if source.numSrsSymbols ≠ 0 then source.numSrsSymbols else m.numSrsSymbols
  samplingFrequencyHz :=
    if source.samplingFrequencyHz.isZero then m.samplingFrequencyHz else source.samplingFrequencyHz
  subcarrierSpacingKhz :=
    if source.subcarrierSpacingKhz.isZero then m.subcarrierSpacingKhz
    else source.subcarrierSpacingKhz
  success := if source.success then source.success else m.success
  ulBandwidthPrb := if source.ulBandwidthPrb ≠ 0 then source.ulBandwidthPrb else m.ulBandwidthPrb
  carrierFrequencyHz :=
    if source.carrierFrequencyHz.isZero then m.carrierFrequencyHz else source.carrierFrequencyHz

/-! ## The fields of one message on top of another -/

theorem uint32_lt (v : UInt32) : v.toNat < 2 ^ 64 := lt_of_lt_of_le v.toNat_lt (by norm_num)

theorem signExtended_lt (x : Int32) : (x.toInt % 2 ^ 64).toNat < 2 ^ 64 := by
  have h := Int.emod_lt_of_pos x.toInt (show (0 : Int) < 2 ^ 64 by decide)
  omega

/-- A field of a short message with a short number. -/
theorem fits_len_of_short {M : Type} {S : Schema M} {m : M} {number : Nat} {payload : Bytes}
    (hm : Short S m) (hpos : 0 < number) (hlt : number < 2 ^ 29)
    (h : ⟨number, .len payload⟩ ∈ S.fields m) : Field.Fits ⟨number, .len payload⟩ :=
  Field.fits_len hpos hlt (lt_of_le_of_lt (length_payload_le_encodeFields number h) hm)

theorem SrsSymbol.merges : schema.Merges mergeFrom (Short schema) where
  fits m hm f hf := by
    have hf' := hf
    simp only [schema] at hf
    split at hf
    · cases hf
    · obtain rfl := List.mem_singleton.mp hf
      exact fits_len_of_short hm (by decide) (by norm_num) hf'
  mergeFields_eq m₁ m₂ _ := by
    have hback : words ((m₂.iqSamples.map UInt32.toNat).flatMap (toLe 4)) =
        m₂.iqSamples.map UInt32.toNat := by
      apply words_flatMap_toLe
      intro w hw
      obtain ⟨v, -, rfl⟩ := List.mem_map.mp hw
      exact v.toNat_lt
    have hwords : (m₂.iqSamples.map UInt32.toNat).map UInt32.ofNat = m₂.iqSamples := by
      rw [List.map_map]
      exact List.map_id'' (fun _ => UInt32.ofNat_toNat) _
    have hlen : ((m₂.iqSamples.map UInt32.toNat).flatMap (toLe 4)).length % 4 = 0 := by
      rw [length_flatMap_toLe]
      exact Nat.mul_mod_right 4 _
    by_cases hm : m₂.iqSamples = []
    · have hnil : schema.fields m₂ = [] := if_pos hm
      rw [hnil, Schema.mergeFields_nil, mergeFrom, hm, List.append_nil]
    · have hfields : schema.fields m₂ =
          [⟨1, .len ((m₂.iqSamples.map UInt32.toNat).flatMap (toLe 4))⟩] := if_neg hm
      have hmerge : schema.merge m₁
          ⟨1, .len ((m₂.iqSamples.map UInt32.toNat).flatMap (toLe 4))⟩ =
          (mergeFrom m₁ m₂, true) := by
        simp only [schema, hback, hwords, hlen, beq_self_eq_true, mergeFrom]
      rw [hfields, Schema.mergeFields_cons hmerge, Schema.mergeFields_nil]

theorem SrsAntennaData.merges : schema.Merges mergeFrom (Short schema) where
  fits m hm f hf := by
    have hf' := hf
    simp only [schema, List.mem_append, Option.mem_toList, Option.map_eq_some_iff] at hf
    rcases hf with (hf | hf) | ⟨s, -, rfl⟩
    · exact fits_of_mem_uintField (by decide) (by norm_num) (uint32_lt _) hf
    · exact fits_of_mem_uintField (by decide) (by norm_num) (toNat_bool_lt _) hf
    · exact fits_len_of_short hm (by decide) (by norm_num) hf'
  mergeFields_eq m₁ m₂ hm := by
    obtain ⟨id, generated, srs⟩ := m₁
    obtain ⟨id', generated', srs'⟩ := m₂
    have hpayload : ∀ s, srs' = some s → Short SrsSymbol.schema s := by
      rintro s rfl
      exact lt_of_le_of_lt (length_payload_le_encodeFields 3 (by simp [schema])) hm
    simp only [schema, List.append_assoc, mergeFrom]
    refine Eq.trans (Schema.mergeFields_append _ (mergeFields_uint32_onto SrsAntennaData.antennaId
      (fun m v => { m with antennaId := v }) rfl (fun _ => rfl) _)) ?_
    refine Eq.trans (Schema.mergeFields_append _ (mergeFields_bool_onto SrsAntennaData.generated
      (fun m v => { m with generated := v }) rfl (fun _ => rfl) _)) ?_
    cases srs' with
    | none => rfl
    | some s =>
      have hs := SrsSymbol.merges.parseInto_encode (srs.getD SrsSymbol.schema.empty)
        (hpayload s rfl)
      refine Eq.trans (Schema.mergeFields_cons ?_) (Schema.mergeFields_nil _ _)
      simp only [hs]

/-- A field that repeats a sub-message: the messages are appended. -/
theorem mergeFields_repeated {M N : Type} {S : Schema M} {T : Schema N} (number : Nat)
    (holding : List N → M) {done ns : List N}
    (hmerge : ∀ ns payload, S.merge (holding ns) ⟨number, .len payload⟩ =
      (holding (ns ++ [(T.parse payload).1]), (T.parse payload).2))
    (hparse : ∀ n ∈ ns, T.parse (T.encode n) = (n, true)) :
    S.mergeFields (holding done) (ns.map fun n => ⟨number, .len (T.encode n)⟩) =
      (holding (done ++ ns), true) := by
  apply Schema.mergeFields_map holding
  intro done n hn
  rw [hmerge, hparse n hn]

theorem UeSrsData.merges : schema.Merges mergeFrom (Short schema) where
  fits m hm f hf := by
    have hf' := hf
    simp only [schema, List.mem_append, List.mem_map] at hf
    rcases hf with (hf | hf) | ⟨ant, -, rfl⟩
    · exact fits_of_mem_uintField (by decide) (by norm_num) (uint32_lt _) hf
    · exact fits_of_mem_uintField (by decide) (by norm_num) m.timestamp.toNat_lt hf
    · exact fits_len_of_short hm (by decide) (by norm_num) hf'
  mergeFields_eq m₁ m₂ hm := by
    obtain ⟨rnti, timestamp, antennaData⟩ := m₁
    obtain ⟨rnti', timestamp', antennaData'⟩ := m₂
    have hparse : ∀ ant ∈ antennaData',
        SrsAntennaData.schema.parse (SrsAntennaData.schema.encode ant) = (ant, true) := by
      intro ant hant
      apply SrsAntennaData.parse_encode
      refine lt_of_le_of_lt (length_payload_le_encodeFields 3 ?_) hm
      simp only [schema, List.mem_append]
      exact Or.inr (List.mem_map_of_mem hant)
    simp only [schema, List.append_assoc, mergeFrom]
    refine Eq.trans (Schema.mergeFields_append _ (mergeFields_uint32_onto UeSrsData.rnti
      (fun m v => { m with rnti := v }) rfl (fun _ => rfl) _)) ?_
    refine Eq.trans (Schema.mergeFields_append _ (mergeFields_uint64_onto UeSrsData.timestamp
      (fun m v => { m with timestamp := v }) rfl (fun _ => rfl) _)) ?_
    exact mergeFields_repeated 3 (UeSrsData.mk _ _) (fun _ _ => rfl) hparse

theorem SrsIndicationMessage.merges : schema.Merges mergeFrom (Short schema) where
  fits m hm f hf := by
    obtain ⟨ue, -, rfl⟩ := List.mem_map.mp hf
    exact fits_len_of_short hm (by decide) (by norm_num) hf
  mergeFields_eq m₁ m₂ hm := by
    refine mergeFields_repeated 1 SrsIndicationMessage.mk (fun _ _ => rfl) fun ue hue => ?_
    apply UeSrsData.parse_encode
    refine lt_of_le_of_lt (length_payload_le_encodeFields 1 ?_) hm
    exact List.mem_map_of_mem hue

theorem TimingAdvanceData.merges : schema.Merges mergeFrom (fun _ => True) where
  fits m _ f hf := by
    simp only [schema, List.mem_append, or_assoc] at hf
    rcases hf with hf | hf | hf | hf | hf | hf
    · exact fits_of_mem_uintField (by decide) (by norm_num) (uint32_lt _) hf
    · exact fits_of_mem_uintField (by decide) (by norm_num) m.timestamp.toNat_lt hf
    · exact fits_of_mem_uintField (by decide) (by norm_num) (uint32_lt _) hf
    · exact fits_of_mem_uintField (by decide) (by norm_num) (signExtended_lt _) hf
    · exact fits_of_mem_uintField (by decide) (by norm_num) (toNat_bool_lt _) hf
    · exact fits_of_mem_uintField (by decide) (by norm_num) (uint32_lt _) hf
  mergeFields_eq m₁ m₂ _ := by
    simp only [schema, List.append_assoc, mergeFrom]
    refine Eq.trans (Schema.mergeFields_append _
      (mergeFields_uint32_onto TimingAdvanceData.rnti
        (fun m v => { m with rnti := v }) rfl (fun _ => rfl) _)) ?_
    refine Eq.trans (Schema.mergeFields_append _
      (mergeFields_uint64_onto TimingAdvanceData.timestamp
        (fun m v => { m with timestamp := v }) rfl (fun _ => rfl) _)) ?_
    refine Eq.trans (Schema.mergeFields_append _
      (mergeFields_uint32_onto TimingAdvanceData.timingAdvance
        (fun m v => { m with timingAdvance := v }) rfl (fun _ => rfl) _)) ?_
    refine Eq.trans (Schema.mergeFields_append _
      (mergeFields_enum_onto TimingAdvanceData.source
        (fun m v => { m with source := v }) rfl (fun _ => rfl) _)) ?_
    refine Eq.trans (Schema.mergeFields_append _
      (mergeFields_bool_onto TimingAdvanceData.attached
        (fun m v => { m with attached := v }) rfl (fun _ => rfl) _)) ?_
    exact mergeFields_uint32_onto TimingAdvanceData.ueIndex
      (fun m v => { m with ueIndex := v }) rfl (fun _ => rfl) _

theorem ite_ne_self {α : Type} [DecidableEq α] (v zero : α) :
    (if v ≠ zero then v else zero) = v := by
  split
  · rfl
  · rename_i hv
    exact (not_not.mp hv).symm

/-- **A timing-advance observation is read back from its bytes.** -/
theorem TimingAdvanceData.parse_encode (m : TimingAdvanceData) :
    schema.parse (schema.encode m) = (m, true) := by
  refine (merges.parseInto_encode schema.empty trivial).trans ?_
  obtain ⟨rnti, timestamp, advance, source, attached, index⟩ := m
  have hattached : (if attached = true then attached else false) = attached := by
    cases attached <;> rfl
  simp only [mergeFrom, schema, ite_ne_self, hattached]

theorem TimingAdvanceIndicationMessage.merges : schema.Merges mergeFrom (Short schema) where
  fits m hm f hf := by
    obtain ⟨ta, -, rfl⟩ := List.mem_map.mp hf
    exact fits_len_of_short hm (by decide) (by norm_num) hf
  mergeFields_eq _ _ _ :=
    mergeFields_repeated 1 TimingAdvanceIndicationMessage.mk (fun _ _ => rfl)
      fun ta _ => TimingAdvanceData.parse_encode ta

/-- The name of the xApp is UTF-8. -/
def GnbConfigRequest.IsUtf8 (m : GnbConfigRequest) : Prop :=
  ByteArray.validateUTF8 ⟨m.xappId.toArray⟩ = true

theorem GnbConfigRequest.merges :
    schema.Merges mergeFrom (fun m => Short schema m ∧ m.IsUtf8) where
  fits m hm f hf := by
    have hf' := hf
    rcases List.mem_append.mp hf with hf | hf
    · exact fits_of_mem_uintField (by decide) (by norm_num) m.requestId.toNat_lt hf
    · split at hf
      · cases hf
      · obtain rfl := List.mem_singleton.mp hf
        exact fits_len_of_short hm.1 (by decide) (by norm_num) hf'
  mergeFields_eq m₁ m₂ hm := by
    simp only [schema, mergeFrom]
    refine Eq.trans (Schema.mergeFields_append _ (mergeFields_uint64_onto GnbConfigRequest.requestId
      (fun m v => { m with requestId := v }) rfl (fun _ => rfl) _)) ?_
    by_cases hname : m₂.xappId = []
    · rw [if_pos hname, Schema.mergeFields_nil, hname]
      rfl
    · rw [if_neg hname, if_pos (List.length_pos_iff.mpr hname)]
      exact Schema.mergeFields_cons (Prod.ext rfl hm.2)

theorem GnbConfigMessage.merges : schema.Merges mergeFrom (fun _ => True) where
  fits _ _ _ hf := GnbConfigMessage.fits hf
  mergeFields_eq m₁ m₂ _ := by
    simp only [schema, List.append_assoc, mergeFrom]
    refine Eq.trans (Schema.mergeFields_append _
      (mergeFields_uint64_onto GnbConfigMessage.requestId
        (fun m v => { m with requestId := v }) rfl (fun _ => rfl) _)) ?_
    refine Eq.trans (Schema.mergeFields_append _
      (mergeFields_uint32_onto GnbConfigMessage.numRxAntennas
        (fun m v => { m with numRxAntennas := v }) rfl (fun _ => rfl) _)) ?_
    refine Eq.trans (Schema.mergeFields_append _
      (mergeFields_uint32_onto GnbConfigMessage.srsBandwidthPrb
        (fun m v => { m with srsBandwidthPrb := v }) rfl (fun _ => rfl) _)) ?_
    refine Eq.trans (Schema.mergeFields_append _
      (mergeFields_uint32_onto GnbConfigMessage.numSrsSymbols
        (fun m v => { m with numSrsSymbols := v }) rfl (fun _ => rfl) _)) ?_
    refine Eq.trans (Schema.mergeFields_append _
      (mergeFields_double_onto GnbConfigMessage.samplingFrequencyHz
        (fun m v => { m with samplingFrequencyHz := v }) rfl (fun _ => rfl) _)) ?_
    refine Eq.trans (Schema.mergeFields_append _
      (mergeFields_double_onto GnbConfigMessage.subcarrierSpacingKhz
        (fun m v => { m with subcarrierSpacingKhz := v }) rfl (fun _ => rfl) _)) ?_
    refine Eq.trans (Schema.mergeFields_append _
      (mergeFields_bool_onto GnbConfigMessage.success
        (fun m v => { m with success := v }) rfl (fun _ => rfl) _)) ?_
    refine Eq.trans (Schema.mergeFields_append _
      (mergeFields_uint32_onto GnbConfigMessage.ulBandwidthPrb
        (fun m v => { m with ulBandwidthPrb := v }) rfl (fun _ => rfl) _)) ?_
    exact mergeFields_double_onto GnbConfigMessage.carrierFrequencyHz
      (fun m v => { m with carrierFrequencyHz := v }) rfl (fun _ => rfl) _

/-! ## Messages in a row -/

/-- The bytes of messages in a row, below 2 GiB together, are those of their merge. The messages
are those of which `P` holds. -/
def Concatenates {M : Type} (S : Schema M) (mergeFrom : M → M → M) (P : M → Prop) : Prop :=
  ∀ ms : List M, (ms.flatMap S.encode).length < 2 ^ 31 → (∀ m ∈ ms, P m) →
    S.parse (ms.flatMap S.encode) = (ms.foldl mergeFrom S.empty, true)

theorem concatenates {M : Type} {S : Schema M} {mergeFrom : M → M → M} {P Q : M → Prop}
    (h : S.Merges mergeFrom P) (hPQ : ∀ m, Short S m → Q m → P m) : Concatenates S mergeFrom Q := by
  intro ms hlen hms
  refine h.parse_flatMap fun m hm => hPQ m ?_ (hms m hm)
  obtain ⟨before, after, rfl⟩ := List.append_of_mem hm
  simp only [List.flatMap_append, List.flatMap_cons, List.length_append] at hlen
  rw [Short]
  omega

/-! ## A message that is one repeated field -/

/-- What the fields add does not depend on what is there. -/
theorem mergeFields_added {M N : Type} {S : Schema M} (holding : List N → M)
    (hmerge : ∀ f, ∃ new ok, ∀ ns, S.merge (holding ns) f = (holding (ns ++ new), ok))
    (fs : List Field) :
    ∃ new ok, ∀ ns, S.mergeFields (holding ns) fs = (holding (ns ++ new), ok) := by
  induction fs with
  | nil => exact ⟨[], true, fun ns => by rw [List.append_nil, Schema.mergeFields_nil]⟩
  | cons f fs ih =>
    obtain ⟨new, ok, hf⟩ := hmerge f
    obtain ⟨new', ok', hfs⟩ := ih
    cases ok with
    | true =>
      refine ⟨new ++ new', ok', fun ns => ?_⟩
      rw [Schema.mergeFields_cons (hf ns), hfs, List.append_assoc]
    | false =>
      refine ⟨new, false, fun ns => ?_⟩
      rw [Schema.mergeFields, hf]

/-- So it may as well be parsed by itself and merged then. -/
theorem parseInto_added {M N : Type} {S : Schema M} (holding : List N → M)
    (hempty : S.empty = holding [])
    (hmerge : ∀ f, ∃ new ok, ∀ ns, S.merge (holding ns) f = (holding (ns ++ new), ok))
    (bs : Bytes) : ∃ new ok, S.parse bs = (holding new, ok) ∧
      ∀ ns, S.parseInto (holding ns) bs = (holding (ns ++ new), ok) := by
  obtain ⟨new, ok, h⟩ := mergeFields_added holding hmerge (readFields bs).1
  refine ⟨new, ok && (readFields bs).2, ?_, fun ns => ?_⟩
  · simp only [Schema.parse, Schema.parseInto, hempty, h, List.nil_append]
  · simp only [Schema.parseInto, h]

theorem SrsIndicationMessage.parseInto_eq (m : SrsIndicationMessage) (bs : Bytes) :
    schema.parseInto m bs = (m.mergeFrom (schema.parse bs).1, (schema.parse bs).2) := by
  have hmerge : ∀ f, ∃ new ok, ∀ ns, schema.merge (mk ns) f = (mk (ns ++ new), ok) := by
    intro f
    simp only [schema]
    split
    · exact ⟨_, _, fun ns => rfl⟩
    · exact ⟨[], true, fun ns => by rw [List.append_nil]⟩
  obtain ⟨new, ok, hparse, hinto⟩ := parseInto_added mk rfl hmerge bs
  rw [hparse, hinto m.ueSrsData, mergeFrom]

theorem TimingAdvanceIndicationMessage.parseInto_eq (m : TimingAdvanceIndicationMessage)
    (bs : Bytes) :
    schema.parseInto m bs = (m.mergeFrom (schema.parse bs).1, (schema.parse bs).2) := by
  have hmerge : ∀ f, ∃ new ok, ∀ ns, schema.merge (mk ns) f = (mk (ns ++ new), ok) := by
    intro f
    simp only [schema]
    split
    · exact ⟨_, _, fun ns => rfl⟩
    · exact ⟨[], true, fun ns => by rw [List.append_nil]⟩
  obtain ⟨new, ok, hparse, hinto⟩ := parseInto_added mk rfl hmerge bs
  rw [hparse, hinto m.timingAdvanceData, mergeFrom]

/-- **The bytes of messages in a row are those of their merge**, for each class. -/
theorem messages_concatenate :
    Concatenates SrsSymbol.schema SrsSymbol.mergeFrom (fun _ => True) ∧
    Concatenates SrsAntennaData.schema SrsAntennaData.mergeFrom (fun _ => True) ∧
    Concatenates UeSrsData.schema UeSrsData.mergeFrom (fun _ => True) ∧
    Concatenates SrsIndicationMessage.schema SrsIndicationMessage.mergeFrom (fun _ => True) ∧
    Concatenates TimingAdvanceData.schema TimingAdvanceData.mergeFrom (fun _ => True) ∧
    Concatenates TimingAdvanceIndicationMessage.schema TimingAdvanceIndicationMessage.mergeFrom
      (fun _ => True) ∧
    Concatenates GnbConfigRequest.schema GnbConfigRequest.mergeFrom GnbConfigRequest.IsUtf8 ∧
    Concatenates GnbConfigMessage.schema GnbConfigMessage.mergeFrom (fun _ => True) :=
  ⟨concatenates SrsSymbol.merges fun _ hm _ => hm,
    concatenates SrsAntennaData.merges fun _ hm _ => hm,
    concatenates UeSrsData.merges fun _ hm _ => hm,
    concatenates SrsIndicationMessage.merges fun _ hm _ => hm,
    concatenates TimingAdvanceData.merges fun _ _ _ => trivial,
    concatenates TimingAdvanceIndicationMessage.merges fun _ hm _ => hm,
    concatenates GnbConfigRequest.merges fun _ hm hutf8 => ⟨hm, hutf8⟩,
    concatenates GnbConfigMessage.merges fun _ _ _ => trivial⟩

end Pb

/-! ## Indications in a row -/

/-- The message parses as an SRS indication. -/
def IsSrsIndication (msg : Bytes) : Prop := (Pb.SrsIndicationMessage.schema.parse msg).2 = true

instance (msg : Bytes) : Decidable (IsSrsIndication msg) := inferInstanceAs (Decidable (_ = true))

/-- The message parses as a timing-advance indication. -/
def IsTimingAdvanceIndication (msg : Bytes) : Prop :=
  (Pb.TimingAdvanceIndicationMessage.schema.parse msg).2 = true

instance (msg : Bytes) : Decidable (IsTimingAdvanceIndication msg) :=
  inferInstanceAs (Decidable (_ = true))

theorem parse_append_of_isSrsIndication {a : Bytes} (ha : IsSrsIndication a) (b : Bytes) :
    Pb.SrsIndicationMessage.schema.parse (a ++ b) =
      ((Pb.SrsIndicationMessage.schema.parse a).1.mergeFrom
        (Pb.SrsIndicationMessage.schema.parse b).1,
        (Pb.SrsIndicationMessage.schema.parse b).2) := by
  rw [Schema.parse_append (Prod.ext rfl ha), Pb.SrsIndicationMessage.parseInto_eq]

/-- Behind well-formed indications everything is read as by itself. -/
theorem isSrsIndication_flatten_append {msgs : List Bytes} (last : Bytes) :
    (∀ msg ∈ msgs, IsSrsIndication msg) →
      (IsSrsIndication (msgs.flatten ++ last) ↔ IsSrsIndication last) := by
  induction msgs with
  | nil => exact fun _ => Iff.rfl
  | cons msg msgs ih =>
    intro hmsgs
    rw [List.flatten_cons, List.append_assoc, IsSrsIndication,
      parse_append_of_isSrsIndication (hmsgs msg List.mem_cons_self)]
    exact ih fun msg' hmsg' => hmsgs msg' (List.mem_cons_of_mem _ hmsg')

theorem deserializeSrsIndication_flatten_append {msgs : List Bytes} (last : Bytes) :
    (∀ msg ∈ msgs, IsSrsIndication msg) →
      deserializeSrsIndication (msgs.flatten ++ last) =
        msgs.flatMap deserializeSrsIndication ++ deserializeSrsIndication last := by
  induction msgs with
  | nil => exact fun _ => rfl
  | cons msg msgs ih =>
    intro hmsgs
    have hrest := ih fun msg' hmsg' => hmsgs msg' (List.mem_cons_of_mem _ hmsg')
    rw [List.flatten_cons, List.append_assoc, deserializeSrsIndication,
      parse_append_of_isSrsIndication (hmsgs msg List.mem_cons_self),
      Pb.SrsIndicationMessage.mergeFrom, List.flatMap_append, List.flatMap_cons, List.append_assoc,
      ← hrest]
    rfl

/-- The xApp makes the same items of a well-formed indication. -/
theorem indicationItems_of_isSrsIndication {msg : Bytes} (h : IsSrsIndication msg) :
    indicationItems msg = deserializeSrsIndication msg := if_pos h

theorem isSrsIndication_nil : IsSrsIndication [] := rfl

/-- The observations of a timing-advance indication all have a source with a name. -/
def HasNamedSources (msg : Bytes) : Prop :=
  ∀ ta ∈ (Pb.TimingAdvanceIndicationMessage.schema.parse msg).1.timingAdvanceData,
    (taObservation ta).isSome

instance (msg : Bytes) : Decidable (HasNamedSources msg) :=
  inferInstanceAs (Decidable (∀ ta ∈ _, _))

/-- Such an indication is filed, observation by observation. -/
theorem parseTimingAdvanceMessage_of_named {msg : Bytes} (hok : IsTimingAdvanceIndication msg)
    (hnamed : HasNamedSources msg) : parseTimingAdvanceMessage msg =
      (Pb.TimingAdvanceIndicationMessage.schema.parse msg).1.timingAdvanceData.filterMap
        taObservation := by
  rw [parseTimingAdvanceMessage_eq (Prod.ext rfl hok), mapM_eq_filterMap hnamed, Option.getD_some]

/-- Such indications in a row are one of them. -/
theorem parseTimingAdvanceMessage_flatten {msgs : List Bytes} :
    (∀ msg ∈ msgs, IsTimingAdvanceIndication msg ∧ HasNamedSources msg) →
      (IsTimingAdvanceIndication msgs.flatten ∧ HasNamedSources msgs.flatten) ∧
        parseTimingAdvanceMessage msgs.flatten = msgs.flatMap parseTimingAdvanceMessage := by
  induction msgs with
  | nil =>
    intro _
    refine ⟨⟨rfl, fun ta hta => ?_⟩, rfl⟩
    cases hta
  | cons msg msgs ih =>
    intro hmsgs
    obtain ⟨hok, hnamed⟩ := hmsgs msg List.mem_cons_self
    obtain ⟨⟨hok', hnamed'⟩, hrest⟩ := ih fun msg' hmsg' =>
      hmsgs msg' (List.mem_cons_of_mem _ hmsg')
    have hparse : Pb.TimingAdvanceIndicationMessage.schema.parse (msg ++ msgs.flatten) = _ :=
      (Schema.parse_append (Prod.ext rfl hok) msgs.flatten).trans
        (Pb.TimingAdvanceIndicationMessage.parseInto_eq _ _)
    have hall : IsTimingAdvanceIndication (msg ++ msgs.flatten) ∧
        HasNamedSources (msg ++ msgs.flatten) := by
      refine ⟨?_, ?_⟩
      · rw [IsTimingAdvanceIndication, hparse]
        exact hok'
      · rw [HasNamedSources, hparse]
        intro ta hta
        rcases List.mem_append.mp hta with hta | hta
        · exact hnamed ta hta
        · exact hnamed' ta hta
    refine ⟨hall, ?_⟩
    rw [List.flatten_cons, List.flatMap_cons, ← hrest,
      parseTimingAdvanceMessage_of_named hall.1 hall.2, hparse,
      Pb.TimingAdvanceIndicationMessage.mergeFrom, List.filterMap_append,
      parseTimingAdvanceMessage_of_named hok hnamed,
      parseTimingAdvanceMessage_of_named hok' hnamed']

/-- **It makes no difference how indications are cut into messages.** Well-formed SRS indications
in a row are, to the xApp and to the decoder of the DU, what they are one after the other; a
malformed one at their end loses all of them at the xApp, and none at the DU. So are timing-advance
indications whose sources have names. Together they are below 2 GiB. -/
theorem indications_concatenate (x : SimpleRunOranXapp) (msgs : List Bytes) :
    ((∀ msg ∈ msgs, IsSrsIndication msg) → msgs.flatten.length < 2 ^ 31 →
      x.srsIndicationCallback msgs.flatten = x.onMessages msgs ∧
      deserializeSrsIndication msgs.flatten = msgs.flatMap deserializeSrsIndication ∧
      ∀ last, ¬ IsSrsIndication last → (msgs.flatten ++ last).length < 2 ^ 31 →
        x.srsIndicationCallback (msgs.flatten ++ last) = x ∧
        deserializeSrsIndication (msgs.flatten ++ last) =
          msgs.flatMap deserializeSrsIndication ++ deserializeSrsIndication last) ∧
    ((∀ msg ∈ msgs, IsTimingAdvanceIndication msg ∧ HasNamedSources msg) →
      msgs.flatten.length < 2 ^ 31 →
      x.timingAdvanceIndicationCallback msgs.flatten =
        msgs.foldl SimpleRunOranXapp.timingAdvanceIndicationCallback x) := by
  refine ⟨fun hmsgs _ => ?_, fun hmsgs _ => ?_⟩
  · have hwhole := (isSrsIndication_flatten_append [] hmsgs).mpr isSrsIndication_nil
    have hitems := deserializeSrsIndication_flatten_append [] hmsgs
    have hnil : deserializeSrsIndication [] = [] := rfl
    rw [hnil, List.append_nil] at hitems
    rw [List.append_nil] at hwhole hitems
    refine ⟨?_, hitems,
      fun last hlast _ => ⟨?_, deserializeSrsIndication_flatten_append last hmsgs⟩⟩
    · have hsame : msgs.flatMap indicationItems = msgs.flatMap deserializeSrsIndication :=
        congrArg List.flatten (List.map_congr_left fun msg hmsg =>
          indicationItems_of_isSrsIndication (hmsgs msg hmsg))
      rw [SimpleRunOranXapp.srsIndicationCallback_eq, indicationItems_of_isSrsIndication hwhole,
        hitems, SimpleRunOranXapp.onMessages_eq, hsame]
      rfl
    · have hbad : ¬ IsSrsIndication (msgs.flatten ++ last) := by
        rw [isSrsIndication_flatten_append last hmsgs]
        exact hlast
      have hnone : indicationItems (msgs.flatten ++ last) = [] := if_neg hbad
      rw [SimpleRunOranXapp.srsIndicationCallback_eq, hnone, List.foldl_nil]
  · rw [SimpleRunOranXapp.timingAdvanceIndicationCallback,
      (parseTimingAdvanceMessage_flatten hmsgs).2, List.foldl_flatMap]
    rfl

/-- The streams of two antennas, once in two messages and once in one; behind them the beginning
of a third. -/
theorem indications_concatenate_two_antennas :
    let first := Pb.SrsIndicationMessage.schema.encode ⟨[⟨17921, 5, [⟨0, false, some ⟨[7]⟩⟩]⟩]⟩
    let second := Pb.SrsIndicationMessage.schema.encode ⟨[⟨17921, 5, [⟨1, false, some ⟨[8]⟩⟩]⟩]⟩
    let x := SimpleRunOranXapp.init 2
    x.srsIndicationCallback (first ++ second) =
        (x.srsIndicationCallback first).srsIndicationCallback second ∧
      x.srsIndicationCallback (first ++ second ++ [0x0a, 5]) = x := by
  intro first second x
  obtain ⟨hwell, hlast⟩ : (∀ msg ∈ [first, second], IsSrsIndication msg) ∧
      ¬ IsSrsIndication [0x0a, 5] := by decide +kernel
  have hflatten : [first, second].flatten = first ++ second := by simp
  obtain ⟨hone, -, hmalformed⟩ :=
    (indications_concatenate x [first, second]).1 hwell (by decide +kernel)
  rw [hflatten] at hone hmalformed
  exact ⟨hone, (hmalformed _ hlast (by decide +kernel)).1⟩

end RunOran
