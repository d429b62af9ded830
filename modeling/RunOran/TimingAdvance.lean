import RunOran.Mealy
import RunOran.ReportService

/-!
# Timing-advance indications

`serialize_ta_indication` writes its message by hand, byte by byte, and writes scalars
that a generated serializer would omit. `serializeTaIndication_eq` says that it writes
fields of the schema all the same: an entry is the encoding of six varint fields, and the
message is one length-delimited field an entry. What a parser makes of it follows.

The second part follows the records from the producer to the messages: the global store,
the service, the message. `collect_measurements` overwrites what the service holds, so the
records arrive if and only if no collection finds the service holding any
(`records_conserved_iff`).
-/

namespace RunOran

open Protobuf

/-! ## The encoder -/

theorem toUInt8_eq_ofNat (value : UInt64) : value.toUInt8 = UInt8.ofNat value.toNat := by
  apply UInt8.toNat_inj.mp
  rw [UInt64.toNat_toUInt8, UInt8.toNat_ofNat']

/-- Setting the top bit of a byte. -/
theorem toNat_or_0x80 (b : UInt8) : (b ||| 0x80).toNat = b.toNat % 128 + 128 := by
  have hbyte : ∀ n : Fin 256, (UInt8.ofNat n.val ||| 0x80).toNat = n.val % 128 + 128 := by
    decide +kernel
  have h := hbyte ⟨b.toNat, b.toNat_lt⟩
  rwa [UInt8.ofNat_toNat] at h

/-- `append_varint` appends the varint, if it has rounds enough. By induction on the
rounds: each writes one group and shifts it out. -/
theorem appendVarintLoop_eq {rounds : Nat} :
    ∀ {bytes : Bytes} {value : UInt64}, value.toNat < 128 ^ (rounds + 1) →
      appendVarintLoop rounds bytes value = bytes ++ encodeGroups rounds value.toNat := by
  induction rounds with
  | zero =>
    intro bytes value _
    rw [appendVarintLoop, toUInt8_eq_ofNat, encodeGroups]
  | succ rounds ih =>
    intro bytes value hvalue
    have hle : 0x80 ≤ value ↔ ¬ value.toNat < 128 := by
      rw [UInt64.le_iff_toNat_le, Nat.not_lt]
      rfl
    rw [appendVarintLoop, encodeGroups]
    by_cases hsmall : value.toNat < 128
    · rw [if_neg (mt hle.mp (not_not.mpr hsmall)), if_pos hsmall, toUInt8_eq_ofNat]
    · have hshift : (value >>> 7).toNat = value.toNat / 128 := by
        rw [UInt64.toNat_shiftRight, Nat.shiftRight_eq_div_pow]
        rfl
      have hdiv : value.toNat / 128 < 128 ^ (rounds + 1) :=
        Nat.div_lt_of_lt_mul (by rw [Nat.mul_comm, ← Nat.pow_succ]; exact hvalue)
      have hbyte : value.toUInt8 ||| 0x80 = UInt8.ofNat (value.toNat % 128 + 128) := by
        apply UInt8.toNat_inj.mp
        rw [toNat_or_0x80, UInt64.toNat_toUInt8, toNat_ofNat_byte (by omega)]
        omega
      rw [if_pos (hle.mpr hsmall), if_neg hsmall, ih (by rw [hshift]; exact hdiv), hshift, hbyte,
        List.append_assoc, List.singleton_append]

theorem appendVarint_eq (bytes : Bytes) (value : UInt64) :
    appendVarint bytes value = bytes ++ encodeVarint value.toNat :=
  appendVarintLoop_eq (lt_trans value.toNat_lt (by norm_num))

/-- `append_key` appends a tag. -/
theorem appendKey_eq (bytes : Bytes) (fieldNumber : UInt32) {wireType : UInt32}
    (h : wireType.toNat < 8) :
    appendKey bytes fieldNumber wireType =
      bytes ++ encodeTag fieldNumber.toNat wireType.toNat := by
  have hlt := fieldNumber.toNat_lt
  have hshift : (fieldNumber.toUInt64 <<< 3).toNat = fieldNumber.toNat * 2 ^ 3 := by
    have hcount : (3 : UInt64).toNat % 64 = 3 := rfl
    rw [UInt64.toNat_shiftLeft, UInt32.toNat_toUInt64, hcount, Nat.shiftLeft_eq]
    exact Nat.mod_eq_of_lt (by omega)
  rw [appendKey, appendVarint_eq, encodeTag, UInt64.toNat_or, hshift, UInt32.toNat_toUInt64,
    Nat.mul_comm, ← Nat.two_pow_add_eq_or_of_lt h]

/-- A scalar is a varint field. -/
theorem appendScalar_eq (entry : Bytes) (fieldNumber : UInt32) (value : UInt64) :
    appendScalar entry fieldNumber value =
      entry ++ Field.encode ⟨fieldNumber.toNat, .varint value.toNat⟩ := by
  rw [appendScalar, appendVarint_eq, appendKey_eq _ _ (by decide), List.append_assoc]
  rfl

/-- The six fields of an entry, zeros included. -/
def taFields (record : TaIndicationRecord) : List Field :=
  [⟨1, .varint record.rnti.toNat⟩, ⟨2, .varint record.timestampUs.toNat⟩,
    ⟨3, .varint record.timingAdvance.toNat⟩, ⟨4, .varint record.source.toNat⟩,
    ⟨5, .varint record.attached.toNat⟩, ⟨6, .varint record.ueIndex.toNat⟩]

theorem taEntry_eq (record : TaIndicationRecord) : taEntry record = encodeFields (taFields record) := by
  have hattached : (if record.attached then (1 : UInt64) else 0).toNat = record.attached.toNat := by
    cases record.attached <;> rfl
  simp only [taEntry, appendScalar_eq, hattached, List.nil_append, List.append_assoc, taFields,
    encodeFields, List.flatMap_cons, List.flatMap_nil, List.append_nil]
  rfl

theorem number_of_mem_taFields {record : TaIndicationRecord} {f : Field} (hf : f ∈ taFields record) :
    1 ≤ f.number ∧ f.number ≤ 6 ∧ ∃ v, v < 2 ^ 64 ∧ f.value = .varint v := by
  have h₁ := record.rnti.toNat_lt
  have h₂ := record.timestampUs.toNat_lt
  have h₃ := record.timingAdvance.toNat_lt
  have h₄ := record.source.toNat_lt
  have h₅ := Pb.toNat_bool_lt record.attached
  have h₆ := record.ueIndex.toNat_lt
  simp only [taFields, List.mem_cons, List.not_mem_nil, or_false] at hf
  rcases hf with rfl | rfl | rfl | rfl | rfl | rfl <;>
    exact ⟨by simp, by simp, _, by omega, rfl⟩

theorem fits_of_mem_taFields {record : TaIndicationRecord} {f : Field} (hf : f ∈ taFields record) :
    f.Fits := by
  obtain ⟨hpos, hle, v, hv, hvalue⟩ := number_of_mem_taFields hf
  refine ⟨hpos, lt_of_le_of_lt hle (by norm_num), ?_⟩
  rw [hvalue]
  exact hv

/-- At most 20 bytes a field. -/
theorem length_taEntry_le (record : TaIndicationRecord) : (taEntry record).length ≤ 120 := by
  have hfield : ∀ f ∈ taFields record, f.encode.length ≤ 20 := by
    intro f hf
    obtain ⟨-, hle, v, hv, hvalue⟩ := number_of_mem_taFields hf
    have htag := length_encodeVarint_le 9 (n := 8 * f.number + f.value.wireType)
      (by have := f.value.wireType_lt; omega)
    have hval := length_encodeVarint_le 9 (n := v) (lt_trans hv (by norm_num))
    rw [Field.encode, List.length_append, encodeTag, hvalue, WireValue.encode]
    rw [hvalue] at htag
    omega
  rw [taEntry_eq, encodeFields, List.length_flatMap]
  have hsum := List.sum_le_card_nsmul ((taFields record).map fun f => f.encode.length) 20
    (by simpa using hfield)
  rw [List.length_map] at hsum
  exact hsum

/-- **The message is written as its schema prescribes: one length-delimited field a
record.** -/
theorem serializeTaIndication_eq (records : List TaIndicationRecord) :
    serializeTaIndication records =
      encodeFields (records.map fun record => ⟨1, .len (taEntry record)⟩) := by
  have hfold : ∀ (records : List TaIndicationRecord) (bytes : Bytes),
      records.foldl (fun bytes record =>
        appendVarint (appendKey bytes 1 2) (UInt64.ofNat (taEntry record).length) ++
          taEntry record) bytes =
      bytes ++ encodeFields (records.map fun record => ⟨1, .len (taEntry record)⟩) := by
    intro records
    induction records with
    | nil => exact fun bytes => (List.append_nil bytes).symm
    | cons record records ih =>
      intro bytes
      have hlen : (UInt64.ofNat (taEntry record).length).toNat = (taEntry record).length := by
        rw [UInt64.toNat_ofNat']
        exact Nat.mod_eq_of_lt (lt_of_le_of_lt (length_taEntry_le record) (by norm_num))
      rw [List.foldl_cons, ih, appendVarint_eq, appendKey_eq _ _ (by decide), hlen, List.map_cons,
        encodeFields, encodeFields, List.flatMap_cons]
      simp only [Field.encode, WireValue.encode, WireValue.wireType, List.append_assoc]
      rfl
  exact hfold records []

/-! ## What a parser makes of it -/

/-- The message of a record. -/
def TaIndicationRecord.toData (record : TaIndicationRecord) : Pb.TimingAdvanceData :=
  ⟨record.rnti, record.timestampUs, record.timingAdvance, record.source.toInt32, record.attached,
    record.ueIndex.toUInt32⟩

theorem TaIndicationRecord.toData_injective : Function.Injective TaIndicationRecord.toData := by
  intro a b h
  simp only [toData, Pb.TimingAdvanceData.mk.injEq] at h
  obtain ⟨hrnti, htimestamp, hta, hsource, hattached, hindex⟩ := h
  have hsource' : a.source = b.source := congrArg Int32.toUInt32 hsource
  have hindex' : a.ueIndex = b.ueIndex := by
    apply UInt16.toNat_inj.mp
    rw [← UInt16.toNat_toUInt32, hindex, UInt16.toNat_toUInt32]
  cases a
  cases b
  simp_all

theorem readFields_taEntry (record : TaIndicationRecord) :
    readFields (taEntry record) = (taFields record, true) := by
  rw [taEntry_eq]
  exact readFields_encodeFields fun f hf => fits_of_mem_taFields hf

theorem parse_taEntry (record : TaIndicationRecord) :
    Pb.TimingAdvanceData.schema.parse (taEntry record) = (record.toData, true) := by
  have hsource : Int32.ofNat record.source.toNat = record.source.toInt32 :=
    congrArg UInt32.toInt32 UInt32.ofNat_toNat
  have hattached : (record.attached.toNat != 0) = record.attached := by
    cases record.attached <;> rfl
  have hindex : UInt32.ofNat record.ueIndex.toNat = record.ueIndex.toUInt32 := by
    rw [← UInt16.toNat_toUInt32, UInt32.ofNat_toNat]
  simp only [Schema.parse, Schema.parseInto, readFields_taEntry, taFields, Schema.mergeFields,
    Pb.TimingAdvanceData.schema, UInt32.ofNat_toNat, UInt64.ofNat_toNat, hsource, hattached,
    hindex, Bool.and_self]
  rfl

/-- A field that the parser of an entry knows. -/
def KnownTaField (f : Field) : Prop := 1 ≤ f.number ∧ f.number ≤ 6 ∧ ∃ v, f.value = .varint v

/-- A field that the parser of the message knows, and so are the fields of its entry. -/
def KnownTaEntry (f : Field) : Prop :=
  ∃ payload, f = ⟨1, .len payload⟩ ∧ (readFields payload).2 = true ∧
    ∀ g ∈ (readFields payload).1, KnownTaField g

theorem readFields_serializeTaIndication (records : List TaIndicationRecord) :
    readFields (serializeTaIndication records) =
      (records.map fun record => ⟨1, .len (taEntry record)⟩, true) := by
  rw [serializeTaIndication_eq]
  apply readFields_encodeFields
  intro f hf
  obtain ⟨record, -, rfl⟩ := List.mem_map.mp hf
  exact Field.fits_len (by decide) (by norm_num)
    (lt_of_le_of_lt (length_taEntry_le record) (by norm_num))

theorem parse_serializeTaIndication (records : List TaIndicationRecord) :
    Pb.TimingAdvanceIndicationMessage.schema.parse (serializeTaIndication records) =
      (⟨records.map TaIndicationRecord.toData⟩, true) := by
  have hempty : Pb.TimingAdvanceIndicationMessage.schema.empty =
      ⟨([] : List TaIndicationRecord).map TaIndicationRecord.toData⟩ := rfl
  have hmerge : Pb.TimingAdvanceIndicationMessage.schema.mergeFields
      ⟨([] : List TaIndicationRecord).map TaIndicationRecord.toData⟩
      (records.map fun record => ⟨1, .len (taEntry record)⟩) =
      (⟨([] ++ records).map TaIndicationRecord.toData⟩, true) := by
    apply Schema.mergeFields_map fun held : List TaIndicationRecord =>
      (⟨held.map TaIndicationRecord.toData⟩ : Pb.TimingAdvanceIndicationMessage)
    intro done record _
    simp only [Pb.TimingAdvanceIndicationMessage.schema, parse_taEntry, List.map_append,
      List.map_cons, List.map_nil]
  rw [Schema.parse, Schema.parseInto, readFields_serializeTaIndication, hempty, hmerge]
  rfl

theorem serializeTaIndication_injective : Function.Injective serializeTaIndication := by
  intro records records' h
  have hparse := parse_serializeTaIndication records
  rw [h, parse_serializeTaIndication] at hparse
  have hdata := congrArg (fun p => p.1.timingAdvanceData) hparse
  exact (List.map_injective_iff.mpr TaIndicationRecord.toData_injective hdata).symm

/-- **The encoder speaks the schema.** For every list of records the bytes parse as a
`TimingAdvanceIndicationMessage` to the end, without an unknown field at either level, and
yield the records one by one; so different lists have different encodings. -/
theorem ta_indication_parses :
    (∀ records, Pb.TimingAdvanceIndicationMessage.schema.parse (serializeTaIndication records) =
        (⟨records.map TaIndicationRecord.toData⟩, true) ∧
      (readFields (serializeTaIndication records)).2 = true ∧
      ∀ f ∈ (readFields (serializeTaIndication records)).1, KnownTaEntry f) ∧
    Function.Injective serializeTaIndication := by
  refine ⟨fun records => ⟨parse_serializeTaIndication records, ?_, ?_⟩,
    serializeTaIndication_injective⟩
  · rw [readFields_serializeTaIndication]
  · intro f hf
    rw [readFields_serializeTaIndication] at hf
    obtain ⟨record, -, rfl⟩ := List.mem_map.mp hf
    refine ⟨taEntry record, rfl, ?_, ?_⟩
    · rw [readFields_taEntry]
    · intro g hg
      rw [readFields_taEntry] at hg
      obtain ⟨hpos, hle, v, -, hvalue⟩ := number_of_mem_taFields hg
      exact ⟨hpos, hle, v, hvalue⟩

/-! ## From the producer to the messages -/

/-- The global store and the service that drains it. -/
structure TaReporting where
  service : TaReportService
  taRecords : List TaIndicationRecord
  deriving DecidableEq

/-- A call of the producer, or on the service. -/
inductive TaCall where
  | pushTaIndication (record : TaIndicationRecord)
  | collectMeasurements
  | isIndMsgReady
  | getIndicationMessage (appendOk : Bool)
  deriving DecidableEq

/-- What a call returns: a truth value, a message. -/
structure TaCallResult where
  answer : Bool := false
  messages : List Bytes := []

/-- What a receiver gets out of a message. -/
def decodeTaIndication (message : Bytes) : List Pb.TimingAdvanceData :=
  (Pb.TimingAdvanceIndicationMessage.schema.parse message).1.timingAdvanceData

@[simp] theorem decodeTaIndication_nil : decodeTaIndication [] = [] := rfl

@[simp] theorem decodeTaIndication_serializeTaIndication (records : List TaIndicationRecord) :
    decodeTaIndication (serializeTaIndication records) =
      records.map TaIndicationRecord.toData := by
  rw [decodeTaIndication, parse_serializeTaIndication]

namespace TaReporting

/-- Before anything was pushed or collected. -/
def init : TaReporting := ⟨⟨[]⟩, []⟩

/-- One call. -/
def step (s : TaReporting) : TaCall → TaReporting × TaCallResult
  | .pushTaIndication record => ({ s with taRecords := s.taRecords ++ [record] }, {})
  | .collectMeasurements =>
    let collected := TaReportService.collectMeasurements s.taRecords
    (⟨collected.2.1, collected.2.2⟩, { answer := collected.1 })
  | .isIndMsgReady => (s, { answer := s.service.isIndMsgReady })
  | .getIndicationMessage appendOk =>
    ({ s with service := (s.service.getIndicationMessage appendOk).2 },
      { messages := [(s.service.getIndicationMessage appendOk).1] })

/-- The state after a sequence of calls. -/
abbrev run (calls : List TaCall) : TaReporting := Mealy.exec step init calls

/-- What a receiver gets out of the messages of a run. -/
def decoded (calls : List TaCall) : List Pb.TimingAdvanceData :=
  (Mealy.observe step (fun _ result => result.messages) init calls).flatMap decodeTaIndication

/-- The records that the producer pushed. -/
def pushed (calls : List TaCall) : List TaIndicationRecord :=
  calls.filterMap fun
    | .pushTaIndication record => some record
    | _ => none

/-- The records on their way: those the service holds, then those in the store. -/
def inFlight (s : TaReporting) : List TaIndicationRecord := s.service.records ++ s.taRecords

/-- Where the records are after a run: in the messages, then on their way. -/
def accounted (calls : List TaCall) : List Pb.TimingAdvanceData :=
  decoded calls ++ (run calls).inFlight.map TaIndicationRecord.toData

/-- Each record pushed is accounted for once, in order. -/
def Conserved (calls : List TaCall) : Prop :=
  accounted calls = (pushed calls).map TaIndicationRecord.toData

/-- No collection is made while the service holds records. -/
def CollectsWhenEmpty (calls : List TaCall) : Prop :=
  ∀ before after, calls = before ++ .collectMeasurements :: after →
    (run before).service.isIndMsgReady = false

theorem run_concat (calls : List TaCall) (call : TaCall) :
    run (calls ++ [call]) = ((run calls).step call).1 := Mealy.exec_concat ..

theorem pushed_concat (calls : List TaCall) (call : TaCall) :
    pushed (calls ++ [call]) = pushed calls ++ pushed [call] := List.filterMap_append ..

theorem decoded_concat (calls : List TaCall) (call : TaCall) :
    decoded (calls ++ [call]) =
      decoded calls ++ ((run calls).step call).2.messages.flatMap decodeTaIndication := by
  rw [decoded, Mealy.observe_concat, List.flatMap_append, decoded]

theorem collectsWhenEmpty_concat {calls : List TaCall} {call : TaCall} :
    CollectsWhenEmpty (calls ++ [call]) ↔
      CollectsWhenEmpty calls ∧
        (call = .collectMeasurements → (run calls).service.isIndMsgReady = false) := by
  refine ⟨?_, ?_⟩
  · intro h
    refine ⟨fun before after heq => h before (after ++ [call]) ?_, fun hcall => h calls [] ?_⟩
    · rw [heq, List.append_assoc, List.cons_append]
    · rw [hcall]
  · rintro ⟨hcalls, hlast⟩ before after heq
    rcases List.eq_nil_or_concat after with rfl | ⟨after, last, rfl⟩
    · obtain ⟨rfl, hcall⟩ := List.append_inj' heq rfl
      exact hlast (List.singleton_inj.mp hcall)
    · rw [List.concat_eq_append, ← List.cons_append, ← List.append_assoc] at heq
      exact hcalls before after (List.append_inj' heq rfl).1

/-- A collection that finds the service empty, like every other call, accounts for what it
did before and for what it pushed. -/
theorem accounted_concat {calls : List TaCall} {call : TaCall}
    (h : call = .collectMeasurements → (run calls).service.isIndMsgReady = false) :
    accounted (calls ++ [call]) =
      accounted calls ++ (pushed [call]).map TaIndicationRecord.toData := by
  rw [accounted, decoded_concat, run_concat, accounted]
  cases call with
  | pushTaIndication record => simp [step, inFlight, pushed]
  | collectMeasurements =>
    have hempty : (run calls).service.records = [] := by
      simpa [TaReportService.isIndMsgReady] using h rfl
    simp [step, inFlight, pushed, TaReportService.collectMeasurements, hempty]
  | isIndMsgReady => simp [step, pushed]
  | getIndicationMessage appendOk =>
    cases appendOk <;> simp [step, inFlight, pushed, TaReportService.getIndicationMessage]

/-- A collection that finds records in the service drops them. -/
theorem length_accounted_collect_lt {calls : List TaCall}
    (h : (run calls).service.isIndMsgReady = true) :
    (accounted (calls ++ [.collectMeasurements])).length < (accounted calls).length := by
  have hheld : (run calls).service.records ≠ [] := by
    simpa [TaReportService.isIndMsgReady] using h
  have hpos := List.length_pos_of_ne_nil hheld
  rw [accounted, decoded_concat, run_concat, accounted]
  simp only [step, inFlight, TaReportService.collectMeasurements, List.flatMap_nil,
    List.append_nil, List.length_append, List.length_map]
  omega

/-- By induction on the run: as long as every collection finds the service empty, all
records are accounted for; after the first that does not, some are missing for good. -/
theorem conserved_or_missing (calls : List TaCall) :
    (CollectsWhenEmpty calls → Conserved calls) ∧
      (accounted calls).length ≤ (pushed calls).length ∧
      (¬ CollectsWhenEmpty calls → (accounted calls).length < (pushed calls).length) := by
  induction calls using List.reverseRecOn with
  | nil =>
    refine ⟨fun _ => rfl, Nat.le_refl _, fun h => absurd ?_ h⟩
    intro before after heq
    simp at heq
  | append_singleton calls call ih =>
    obtain ⟨hall, hle, hlt⟩ := ih
    rw [collectsWhenEmpty_concat]
    by_cases hcall : call = .collectMeasurements → (run calls).service.isIndMsgReady = false
    · have hstep := accounted_concat hcall
      refine ⟨fun h => ?_, ?_, fun h => ?_⟩
      · rw [Conserved, hstep, hall h.1, pushed_concat, List.map_append]
      · rw [hstep, pushed_concat, List.length_append, List.length_append, List.length_map]
        omega
      · have hmissing := hlt fun hempty => h ⟨hempty, hcall⟩
        rw [hstep, pushed_concat, List.length_append, List.length_append, List.length_map]
        omega
    · simp only [Classical.not_imp, Bool.not_eq_false] at hcall
      obtain ⟨rfl, hready⟩ := hcall
      have hdrop := length_accounted_collect_lt hready
      have hsame : pushed (calls ++ [.collectMeasurements]) = pushed calls := by
        simp [pushed]
      refine ⟨fun h => absurd (h.2 rfl) (by simp [hready]), ?_, fun _ => ?_⟩ <;>
        · rw [hsame]
          omega

/-- **The records decoded from the messages of a run, then those held by the service, then
those in the store are the records pushed, each once and in order, if and only if no
collection was made while the service held records.** -/
theorem records_conserved_iff (calls : List TaCall) :
    Conserved calls ↔ CollectsWhenEmpty calls := by
  obtain ⟨hall, -, hlt⟩ := conserved_or_missing calls
  refine ⟨fun h => ?_, hall⟩
  by_contra hcollects
  have hmissing := hlt hcollects
  rw [h, List.length_map] at hmissing
  exact lt_irrefl _ hmissing

/-- Two collections before an indication: the first record is overwritten. -/
theorem first_record_overwritten :
    let calls := [.pushTaIndication ⟨1, 17, 1000, 5, 1, true⟩, .collectMeasurements,
      .pushTaIndication ⟨1, 17, 2000, 6, 2, true⟩, .collectMeasurements,
      .getIndicationMessage true]
    accounted calls = [⟨17, 2000, 6, 2, true, 1⟩] ∧ ¬ Conserved calls := by
  intro calls
  have hlost : accounted calls = [⟨17, 2000, 6, 2, true, 1⟩] := by
    decide +kernel
  refine ⟨hlost, fun h => ?_⟩
  rw [Conserved, hlost] at h
  exact absurd (congrArg List.length h) (by decide)

end TaReporting

end RunOran
