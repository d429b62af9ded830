import RunOran.Agent
import RunOran.Serializer

/-!
# The gNB configuration reply

An xApp asks for the radio parameters with a `GnbConfigRequest`, and the DU answers with a
`GnbConfigMessage`. On the way a parameter is copied three times: from the radio configuration
of the agent to that of the collector (`srsCfg`), from there to the message
(`gnbConfigMessage`), and from the message to the configuration that
`deserialize_gnb_config` returns.

Both messages are read back from their bytes, a double up to the sign of zero. So the reply
says what `gnbConfigMessage` says, and that has no value for the uplink bandwidth: the
collector's configuration has no field for it, and the message's own stays at its default
(`replyCarries_iff`).
-/

namespace RunOran

open Protobuf

/-! ## Doubles on the wire -/

/-- `x <= 0 && x >= 0`: a zero of either sign. -/
def Double.isZero (x : Double) : Bool := x.bits = 0 ∨ x.bits = 0x8000000000000000

/-- A double as it arrives: a zero is not written, so it loses its sign. -/
def Double.onWire (x : Double) : Double := if x.isZero then ⟨0⟩ else x

theorem Double.onWire_of_isPositive {x : Double} (h : x.isPositive = true) : x.onWire = x := by
  have hzero : x.isZero = false := by
    rw [isPositive, Bool.and_eq_true, decide_eq_true_eq, decide_eq_true_eq, UInt64.lt_iff_toNat_lt,
      UInt64.le_iff_toNat_le] at h
    refine decide_eq_false ?_
    rintro (hbits | hbits)
    · rw [hbits] at h
      exact absurd h.1 (by decide)
    · rw [hbits] at h
      exact absurd h.2 (by decide)
  rw [onWire, hzero, if_neg Bool.false_ne_true]

namespace Pb

/-- A proto3 `double`. -/
def doubleField (number : Nat) (x : Double) : List Field :=
  if x.isZero then [] else [⟨number, .fixed64 x.bits.toNat⟩]

theorem fits_of_mem_doubleField {number : Nat} {x : Double} {f : Field} (hpos : 0 < number)
    (hlt : number < 2 ^ 29) (h : f ∈ doubleField number x) : f.Fits := by
  unfold doubleField at h
  split at h
  · cases h
  · obtain rfl := List.mem_singleton.mp h
    exact ⟨hpos, hlt, x.bits.toNat_lt⟩

theorem mergeFields_double {M : Type} {S : Schema M} {number : Nat} (holding : Double → M)
    (hmerge : ∀ v, S.merge (holding ⟨0⟩) ⟨number, .fixed64 v⟩ =
      (holding ⟨UInt64.ofNat v⟩, true)) (x : Double) :
    S.mergeFields (holding ⟨0⟩) (doubleField number x) = (holding x.onWire, true) := by
  unfold doubleField Double.onWire
  split
  · rw [Schema.mergeFields_nil]
  · rw [Schema.mergeFields_cons (hmerge _), Schema.mergeFields_nil, UInt64.ofNat_toNat]

theorem length_doubleField_le {number : Nat} (hnumber : number < 16) (x : Double) :
    (encodeFields (doubleField number x)).length ≤ 9 := by
  unfold doubleField
  split
  · exact Nat.zero_le _
  · have htag : (encodeTag number 1).length ≤ 1 := length_encodeTag_le hnumber (by decide)
    rw [encodeFields_singleton, Field.encode, List.length_append, WireValue.encode, length_toLe]
    exact Nat.add_le_add_right htag 8

/-! ## Messages -/

/-- A request for the configuration. The name of the xApp is kept as the bytes of its UTF-8. -/
structure GnbConfigRequest where
  requestId : UInt64
  xappId : Bytes
  deriving DecidableEq

/-- The reply. -/
structure GnbConfigMessage where
  requestId : UInt64
  numRxAntennas : UInt32
  srsBandwidthPrb : UInt32
  numSrsSymbols : UInt32
  samplingFrequencyHz : Double
  subcarrierSpacingKhz : Double
  success : Bool
  ulBandwidthPrb : UInt32
  carrierFrequencyHz : Double
  deriving DecidableEq

def GnbConfigRequest.schema : Schema GnbConfigRequest where
  empty := ⟨0, []⟩
  fields m :=
    uintField 1 m.requestId.toNat ++ if m.xappId = [] then [] else [⟨2, .len m.xappId⟩]
  merge m f :=
    match f with
    | ⟨1, .varint v⟩ => ({ m with requestId := UInt64.ofNat v }, true)
    -- a `string` has to be UTF-8
    | ⟨2, .len payload⟩ =>
      ({ m with xappId := payload }, ByteArray.validateUTF8 ⟨payload.toArray⟩)
    | _ => (m, true)

/-- A parser that meets the end of the input within a double has stored it already; that the
message then holds such a value is left out here, the parse fails in any case. -/
def GnbConfigMessage.schema : Schema GnbConfigMessage where
  empty := ⟨0, 0, 0, 0, ⟨0⟩, ⟨0⟩, false, 0, ⟨0⟩⟩
  fields m :=
    uintField 1 m.requestId.toNat ++ uintField 2 m.numRxAntennas.toNat ++
      uintField 3 m.srsBandwidthPrb.toNat ++ uintField 4 m.numSrsSymbols.toNat ++
      doubleField 5 m.samplingFrequencyHz ++ doubleField 6 m.subcarrierSpacingKhz ++
      uintField 7 m.success.toNat ++ uintField 8 m.ulBandwidthPrb.toNat ++
      doubleField 9 m.carrierFrequencyHz
  merge m f :=
    match f with
    | ⟨1, .varint v⟩ => ({ m with requestId := UInt64.ofNat v }, true)
    | ⟨2, .varint v⟩ => ({ m with numRxAntennas := UInt32.ofNat v }, true)
    | ⟨3, .varint v⟩ => ({ m with srsBandwidthPrb := UInt32.ofNat v }, true)
    | ⟨4, .varint v⟩ => ({ m with numSrsSymbols := UInt32.ofNat v }, true)
    | ⟨5, .fixed64 v⟩ => ({ m with samplingFrequencyHz := ⟨UInt64.ofNat v⟩ }, true)
    | ⟨6, .fixed64 v⟩ => ({ m with subcarrierSpacingKhz := ⟨UInt64.ofNat v⟩ }, true)
    | ⟨7, .varint v⟩ => ({ m with success := v != 0 }, true)
    | ⟨8, .varint v⟩ => ({ m with ulBandwidthPrb := UInt32.ofNat v }, true)
    | ⟨9, .fixed64 v⟩ => ({ m with carrierFrequencyHz := ⟨UInt64.ofNat v⟩ }, true)
    | _ => (m, true)

/-- The message as it arrives. -/
def GnbConfigMessage.onWire (m : GnbConfigMessage) : GnbConfigMessage :=
  { m with
    samplingFrequencyHz := m.samplingFrequencyHz.onWire
    subcarrierSpacingKhz := m.subcarrierSpacingKhz.onWire
    carrierFrequencyHz := m.carrierFrequencyHz.onWire }

/-- **A request is read back from its bytes**, if the name is UTF-8. -/
theorem GnbConfigRequest.parse_encode {m : GnbConfigRequest} (hlen : m.xappId.length < 2 ^ 31)
    (hutf8 : ByteArray.validateUTF8 ⟨m.xappId.toArray⟩ = true) :
    schema.parse (schema.encode m) = (m, true) := by
  obtain ⟨requestId, xappId⟩ := m
  refine Schema.parse_encode ?_ ?_
  · intro f hf
    rcases List.mem_append.mp hf with hf | hf
    · exact fits_of_mem_uintField (by decide) (by norm_num) requestId.toNat_lt hf
    · split at hf
      · cases hf
      · obtain rfl := List.mem_singleton.mp hf
        exact Field.fits_len (by decide) (by norm_num) hlen
  · have h₁ : schema.mergeFields schema.empty (uintField 1 requestId.toNat) =
        (⟨requestId, []⟩, true) :=
      mergeFields_uint64 (fun v => GnbConfigRequest.mk v []) (fun _ => rfl) requestId
    simp only [schema] at h₁ ⊢
    rw [Schema.mergeFields_append _ h₁]
    split
    · rename_i hnil
      rw [Schema.mergeFields_nil, hnil]
    · refine Schema.mergeFields_cons (Prod.ext rfl ?_)
      exact hutf8

theorem GnbConfigMessage.fits {m : GnbConfigMessage} {f : Field} (hf : f ∈ schema.fields m) :
    f.Fits := by
  simp only [schema, List.mem_append, or_assoc] at hf
  have huint32 : ∀ v : UInt32, v.toNat < 2 ^ 64 :=
    fun v => lt_of_lt_of_le v.toNat_lt (by norm_num)
  rcases hf with hf | hf | hf | hf | hf | hf | hf | hf | hf
  · exact fits_of_mem_uintField (by decide) (by norm_num) m.requestId.toNat_lt hf
  · exact fits_of_mem_uintField (by decide) (by norm_num) (huint32 _) hf
  · exact fits_of_mem_uintField (by decide) (by norm_num) (huint32 _) hf
  · exact fits_of_mem_uintField (by decide) (by norm_num) (huint32 _) hf
  · exact fits_of_mem_doubleField (by decide) (by norm_num) hf
  · exact fits_of_mem_doubleField (by decide) (by norm_num) hf
  · exact fits_of_mem_uintField (by decide) (by norm_num) (toNat_bool_lt _) hf
  · exact fits_of_mem_uintField (by decide) (by norm_num) (huint32 _) hf
  · exact fits_of_mem_doubleField (by decide) (by norm_num) hf

/-- **A reply is read back from its bytes.** -/
theorem GnbConfigMessage.parse_encode (m : GnbConfigMessage) :
    schema.parse (schema.encode m) = (m.onWire, true) := by
  obtain ⟨id, antennas, prb, symbols, sampling, spacing, success, ul, carrier⟩ := m
  refine Schema.parse_encode_eq (fun f => fits) ?_
  simp only [schema, List.append_assoc]
  -- the fields are taken in one by one, each by a message that holds the ones before it
  refine Eq.trans (Schema.mergeFields_append _ (mergeFields_uint64
    (fun v => GnbConfigMessage.mk v 0 0 0 ⟨0⟩ ⟨0⟩ false 0 ⟨0⟩) (fun _ => rfl) id)) ?_
  refine Eq.trans (Schema.mergeFields_append _ (mergeFields_uint32
    (fun v => GnbConfigMessage.mk id v 0 0 ⟨0⟩ ⟨0⟩ false 0 ⟨0⟩) (fun _ => rfl) antennas)) ?_
  refine Eq.trans (Schema.mergeFields_append _ (mergeFields_uint32
    (fun v => GnbConfigMessage.mk id antennas v 0 ⟨0⟩ ⟨0⟩ false 0 ⟨0⟩) (fun _ => rfl) prb)) ?_
  refine Eq.trans (Schema.mergeFields_append _ (mergeFields_uint32
    (fun v => GnbConfigMessage.mk id antennas prb v ⟨0⟩ ⟨0⟩ false 0 ⟨0⟩) (fun _ => rfl)
    symbols)) ?_
  refine Eq.trans (Schema.mergeFields_append _ (mergeFields_double
    (fun x => GnbConfigMessage.mk id antennas prb symbols x ⟨0⟩ false 0 ⟨0⟩) (fun _ => rfl)
    sampling)) ?_
  refine Eq.trans (Schema.mergeFields_append _ (mergeFields_double
    (fun x => GnbConfigMessage.mk id antennas prb symbols sampling.onWire x false 0 ⟨0⟩)
    (fun _ => rfl) spacing)) ?_
  refine Eq.trans (Schema.mergeFields_append _ (mergeFields_bool
    (fun b => GnbConfigMessage.mk id antennas prb symbols sampling.onWire spacing.onWire b 0 ⟨0⟩)
    (fun _ => rfl) success)) ?_
  refine Eq.trans (Schema.mergeFields_append _ (mergeFields_uint32
    (fun v => GnbConfigMessage.mk id antennas prb symbols sampling.onWire spacing.onWire success v
      ⟨0⟩) (fun _ => rfl) ul)) ?_
  exact mergeFields_double
    (fun x => GnbConfigMessage.mk id antennas prb symbols sampling.onWire spacing.onWire success ul
      x) (fun _ => rfl) carrier

/-- Nine fields with small numbers. -/
theorem GnbConfigMessage.length_encode_le (m : GnbConfigMessage) :
    (schema.encode m).length ≤ 64 := by
  have huint32 : ∀ {number : Nat}, number < 16 → ∀ v : UInt32,
      (encodeFields (uintField number v.toNat)).length ≤ 6 :=
    fun hnumber v => length_uintField_le hnumber 4 (v.toNat_lt.trans (by norm_num))
  have hid : (encodeFields (uintField 1 m.requestId.toNat)).length ≤ 11 :=
    length_uintField_le (by decide) 9 (m.requestId.toNat_lt.trans (by norm_num))
  have hsuccess : (encodeFields (uintField 7 m.success.toNat)).length ≤ 2 :=
    length_uintField_le (by decide) 0 ((Bool.toNat_lt _).trans (by norm_num))
  have hantennas := huint32 (by decide : 2 < 16) m.numRxAntennas
  have hprb := huint32 (by decide : 3 < 16) m.srsBandwidthPrb
  have hsymbols := huint32 (by decide : 4 < 16) m.numSrsSymbols
  have hul := huint32 (by decide : 8 < 16) m.ulBandwidthPrb
  have hsampling := length_doubleField_le (by decide : 5 < 16) m.samplingFrequencyHz
  have hspacing := length_doubleField_le (by decide : 6 < 16) m.subcarrierSpacingKhz
  have hcarrier := length_doubleField_le (by decide : 9 < 16) m.carrierFrequencyHz
  simp only [Schema.encode, schema, encodeFields_append, List.length_append]
  omega

end Pb

/-! ## Serializer -/

/-- `msg` of `serialize_gnb_config`. -/
def gnbConfigMessage (config : GnbSrsConfig) (requestId : UInt64) (success : Bool) :
    Pb.GnbConfigMessage where
  requestId := requestId
  numRxAntennas := config.numRxAntennas
  srsBandwidthPrb := config.srsBandwidthPrb
  numSrsSymbols := config.numSrsSymbols
  samplingFrequencyHz := config.samplingFrequencyHz
  subcarrierSpacingKhz := config.subcarrierSpacingKhz
  success := success
  -- `serialize_gnb_config` has no value for it
  ulBandwidthPrb := 0
  carrierFrequencyHz := config.carrierFrequencyHz

/-- `serialize_gnb_config`. -/
def serializeGnbConfig (config : GnbSrsConfig) (requestId : UInt64) (success : Bool) : Bytes :=
  serializeToArray (Pb.GnbConfigMessage.schema.encode (gnbConfigMessage config requestId success))

/-- `deserialize_gnb_config_request`. -/
def deserializeGnbConfigRequest (data : Bytes) : UInt64 × Bytes :=
  match Pb.GnbConfigRequest.schema.parse data with
  | (msg, true) => (msg.requestId, msg.xappId)
  | (_, false) => (0, [])

/-- `deserialize_gnb_config`. The result of `ParseFromArray` is not looked at, and without a
positive carrier frequency it is 3.5e9. -/
def deserializeGnbConfig (data : Bytes) : GnbSrsConfig :=
  let msg := (Pb.GnbConfigMessage.schema.parse data).1
  { numRxAntennas := msg.numRxAntennas
    srsBandwidthPrb := msg.srsBandwidthPrb
    numSrsSymbols := msg.numSrsSymbols
    samplingFrequencyHz := msg.samplingFrequencyHz
    subcarrierSpacingKhz := msg.subcarrierSpacingKhz
    carrierFrequencyHz :=
      if msg.carrierFrequencyHz.isPositive then msg.carrierFrequencyHz
      else ⟨0x41EA13B860000000⟩ }

/-- `handle_gnb_config_request`. -/
def SrsDataCollector.handleGnbConfigRequest (c : SrsDataCollector) (requestData : Bytes)
    (appendOk : Bool) : Bytes :=
  let (requestId, _) := deserializeGnbConfigRequest requestData
  let response := serializeGnbConfig c.config requestId true
  if appendOk then response else []

/-! ## Round trip -/

theorem serializeGnbConfig_eq (config : GnbSrsConfig) (requestId : UInt64) (success : Bool) :
    serializeGnbConfig config requestId success =
      Pb.GnbConfigMessage.schema.encode (gnbConfigMessage config requestId success) := by
  have hlen := Pb.GnbConfigMessage.length_encode_le (gnbConfigMessage config requestId success)
  rw [serializeGnbConfig, serializeToArray, if_pos (lt_of_le_of_lt hlen (by norm_num))]

/-- A configuration whose doubles survive the wire. -/
structure GnbSrsConfig.IsPositive (config : GnbSrsConfig) : Prop where
  samplingFrequencyHz : config.samplingFrequencyHz.isPositive = true
  subcarrierSpacingKhz : config.subcarrierSpacingKhz.isPositive = true
  carrierFrequencyHz : config.carrierFrequencyHz.isPositive = true

theorem GnbSrsConfig.IsPositive.onWire {config : GnbSrsConfig} (h : config.IsPositive)
    (requestId : UInt64) (success : Bool) :
    (gnbConfigMessage config requestId success).onWire =
      gnbConfigMessage config requestId success := by
  simp only [Pb.GnbConfigMessage.onWire, gnbConfigMessage,
    Double.onWire_of_isPositive h.samplingFrequencyHz,
    Double.onWire_of_isPositive h.subcarrierSpacingKhz,
    Double.onWire_of_isPositive h.carrierFrequencyHz]

/-- **The reply says what the message says.** -/
theorem parse_serializeGnbConfig {config : GnbSrsConfig} (h : config.IsPositive)
    (requestId : UInt64) (success : Bool) :
    Pb.GnbConfigMessage.schema.parse (serializeGnbConfig config requestId success) =
      (gnbConfigMessage config requestId success, true) := by
  rw [serializeGnbConfig_eq, Pb.GnbConfigMessage.parse_encode, h.onWire]

/-- **A configuration is read back.** -/
theorem deserializeGnbConfig_serializeGnbConfig {config : GnbSrsConfig} (h : config.IsPositive)
    (requestId : UInt64) (success : Bool) :
    deserializeGnbConfig (serializeGnbConfig config requestId success) = config := by
  rw [deserializeGnbConfig, parse_serializeGnbConfig h]
  exact congrArg (GnbSrsConfig.mk _ _ _ _ _) (if_pos h.carrierFrequencyHz)

theorem isPositive_positiveOr {fallback : Double} (hfallback : fallback.isPositive = true)
    (field : E2DuRadioConfig → Double) (radioCfg : Option E2DuRadioConfig) :
    (positiveOr fallback field radioCfg).isPositive = true := by
  cases radioCfg with
  | none => exact hfallback
  | some r =>
    rw [positiveOr]
    split
    · assumption
    · exact hfallback

/-- What the agent derives from a radio configuration is such a configuration, whether the
fields are set or not. -/
theorem isPositive_srsCfg (radioCfg : Option E2DuRadioConfig) : (srsCfg radioCfg).IsPositive :=
  ⟨isPositive_positiveOr (by decide) _ radioCfg, isPositive_positiveOr (by decide) _ radioCfg,
    isPositive_positiveOr (by decide) _ radioCfg⟩

/-! ## What the reply carries -/

/-- The radio parameters are set, all but the uplink bandwidth. -/
structure E2DuRadioConfig.IsPositive (radioCfg : E2DuRadioConfig) : Prop where
  numRxAntennas : radioCfg.numRxAntennas ≠ 0
  samplingFrequencyHz : radioCfg.samplingFrequencyHz.isPositive = true
  subcarrierSpacingKhz : radioCfg.subcarrierSpacingKhz.isPositive = true
  carrierFrequencyHz : radioCfg.carrierFrequencyHz.isPositive = true

/-- They are then the parameters of the collector. -/
theorem E2DuRadioConfig.IsPositive.srsCfg_eq {radioCfg : E2DuRadioConfig}
    (h : radioCfg.IsPositive) :
    srsCfg (some radioCfg) =
      ⟨radioCfg.numRxAntennas.toUInt32, 52, 1, radioCfg.samplingFrequencyHz,
        radioCfg.subcarrierSpacingKhz, radioCfg.carrierFrequencyHz⟩ := by
  simp only [srsCfg, positiveOr, if_pos h.numRxAntennas, if_pos h.samplingFrequencyHz,
    if_pos h.subcarrierSpacingKhz, if_pos h.carrierFrequencyHz]

/-- The message answers the request with the radio configuration. -/
structure Pb.GnbConfigMessage.Carries (msg : Pb.GnbConfigMessage) (radioCfg : E2DuRadioConfig)
    (requestId : UInt64) : Prop where
  success : msg.success = true
  requestId : msg.requestId = requestId
  numRxAntennas : msg.numRxAntennas.toNat = radioCfg.numRxAntennas.toNat
  ulBandwidthPrb : msg.ulBandwidthPrb.toNat = radioCfg.ulBandwidthPrb.toNat
  samplingFrequencyHz : msg.samplingFrequencyHz = radioCfg.samplingFrequencyHz
  subcarrierSpacingKhz : msg.subcarrierSpacingKhz = radioCfg.subcarrierSpacingKhz
  carrierFrequencyHz : msg.carrierFrequencyHz = radioCfg.carrierFrequencyHz

/-- The bytes are such a message, and `deserialize_gnb_config` makes `config` of them. -/
def ReplyCarries (radioCfg : E2DuRadioConfig) (requestId : UInt64) (config : GnbSrsConfig)
    (reply : Bytes) : Prop :=
  (∃ msg, Pb.GnbConfigMessage.schema.parse reply = (msg, true) ∧ msg.Carries radioCfg requestId) ∧
    deserializeGnbConfig reply = config

theorem handleGnbConfigRequest_eq (c : SrsDataCollector) {request : Bytes}
    {msg : Pb.GnbConfigRequest} (h : Pb.GnbConfigRequest.schema.parse request = (msg, true)) :
    c.handleGnbConfigRequest request true = serializeGnbConfig c.config msg.requestId true := by
  rw [SrsDataCollector.handleGnbConfigRequest, deserializeGnbConfigRequest, h]
  exact if_pos rfl

section Reply

variable {c : SrsDataCollector} {radioCfg : E2DuRadioConfig} {request : Bytes}
  {msg : Pb.GnbConfigRequest}

/-- The reply of a collector that was configured by the agent. -/
theorem parse_handleGnbConfigRequest (hconfig : c.config = srsCfg (some radioCfg))
    (hpositive : radioCfg.IsPositive)
    (hrequest : Pb.GnbConfigRequest.schema.parse request = (msg, true)) :
    Pb.GnbConfigMessage.schema.parse (c.handleGnbConfigRequest request true) =
        (⟨msg.requestId, radioCfg.numRxAntennas.toUInt32, 52, 1, radioCfg.samplingFrequencyHz,
          radioCfg.subcarrierSpacingKhz, true, 0, radioCfg.carrierFrequencyHz⟩, true) ∧
      deserializeGnbConfig (c.handleGnbConfigRequest request true) = c.config := by
  have hwire : c.config.IsPositive := hconfig ▸ isPositive_srsCfg (some radioCfg)
  rw [handleGnbConfigRequest_eq c hrequest, parse_serializeGnbConfig hwire,
    deserializeGnbConfig_serializeGnbConfig hwire, hconfig, hpositive.srsCfg_eq]
  exact ⟨rfl, rfl⟩

/-- **The reply carries the radio configuration** exactly if there is no uplink bandwidth to
carry. -/
theorem replyCarries_iff (hconfig : c.config = srsCfg (some radioCfg))
    (hpositive : radioCfg.IsPositive)
    (hrequest : Pb.GnbConfigRequest.schema.parse request = (msg, true)) :
    ReplyCarries radioCfg msg.requestId c.config (c.handleGnbConfigRequest request true) ↔
      radioCfg.ulBandwidthPrb = 0 := by
  obtain ⟨hparse, hback⟩ := parse_handleGnbConfigRequest hconfig hpositive hrequest
  refine ⟨?_, fun hul => ⟨⟨_, hparse, ?_⟩, hback⟩⟩
  · rintro ⟨⟨reply, hreply, hcarries⟩, -⟩
    rw [hparse, Prod.mk.injEq] at hreply
    have hul := hcarries.ulBandwidthPrb
    rw [← hreply.1] at hul
    exact UInt16.toNat_inj.mp hul.symm
  · exact {
      success := rfl
      requestId := rfl
      numRxAntennas := UInt16.toNat_toUInt32 _
      ulBandwidthPrb := by rw [hul]; rfl
      samplingFrequencyHz := rfl
      subcarrierSpacingKhz := rfl
      carrierFrequencyHz := rfl }

end Reply

/-- **No reply carries the uplink bandwidth.** Whatever the agent was first created with and
whatever has happened since, the other parameters, the request id and the collector's
configuration arrive, and the uplink bandwidth arrives as zero. -/
theorem gnb_config_reply_never_carries {events : List DuProcessEvent}
    {radioCfg : E2DuRadioConfig} (hfirst : (radioConfigs events).head? = some (some radioCfg))
    (hpositive : radioCfg.IsPositive) (hul : 0 < radioCfg.ulBandwidthPrb) {request : Bytes}
    {msg : Pb.GnbConfigRequest}
    (hrequest : Pb.GnbConfigRequest.schema.parse request = (msg, true)) :
    ∃ c, (DuProcess.run events).srsCollector = some c ∧
      ¬ ReplyCarries radioCfg msg.requestId c.config (c.handleGnbConfigRequest request true) ∧
      Pb.GnbConfigMessage.schema.parse (c.handleGnbConfigRequest request true) =
        (⟨msg.requestId, radioCfg.numRxAntennas.toUInt32, 52, 1, radioCfg.samplingFrequencyHz,
          radioCfg.subcarrierSpacingKhz, true, 0, radioCfg.carrierFrequencyHz⟩, true) ∧
      deserializeGnbConfig (c.handleGnbConfigRequest request true) = c.config := by
  have hstatic := DuProcess.srsCollector_run events
  rw [hfirst, Option.map_some, Option.map_eq_some_iff] at hstatic
  obtain ⟨c, hc, hconfig⟩ := hstatic
  refine ⟨c, hc, ?_, parse_handleGnbConfigRequest hconfig hpositive hrequest⟩
  rw [replyCarries_iff hconfig hpositive hrequest]
  intro hzero
  rw [hzero] at hul
  exact absurd hul (by decide)

/-- A request with the id 7 and a field that the DU does not know, after a second agent. -/
theorem gnb_config_reply_never_carries_second_agent :
    let radioCfg : E2DuRadioConfig :=
      ⟨4, 106, ⟨0x417D4C0000000000⟩, ⟨0x403E000000000000⟩, ⟨0x41EA13B860000000⟩⟩
    ∃ c, (DuProcess.run [.createE2DuAgent true (some radioCfg), .createE2DuAgent true none]
        ).srsCollector = some c ∧
      Pb.GnbConfigMessage.schema.parse (c.handleGnbConfigRequest [8, 7, 24, 1] true) =
        (⟨7, 4, 52, 1, ⟨0x417D4C0000000000⟩, ⟨0x403E000000000000⟩, true, 0,
          ⟨0x41EA13B860000000⟩⟩, true) := by
  intro radioCfg
  have hrequest : Pb.GnbConfigRequest.schema.parse [8, 7, 24, 1] = (⟨7, []⟩, true) := by
    decide +kernel
  have hfirst : (radioConfigs [.createE2DuAgent true (some radioCfg),
      .createE2DuAgent true none]).head? = some (some radioCfg) := rfl
  obtain ⟨c, hc, -, hparse, -⟩ := gnb_config_reply_never_carries hfirst
    ⟨by decide, by decide, by decide, by decide⟩ (by decide) hrequest
  exact ⟨c, hc, hparse⟩

/-- A DU with an uplink bandwidth of 106 PRBs. -/
theorem gnb_config_reply_loses_ul_bandwidth :
    let radioCfg : E2DuRadioConfig :=
      ⟨2, 106, ⟨0x417D4C0000000000⟩, ⟨0x403E000000000000⟩, ⟨0x41EA13B860000000⟩⟩
    let s := DuProcess.run [.createE2DuAgent true (some radioCfg)]
    s.srsCollector.map (fun c => (Pb.GnbConfigMessage.schema.parse
        (c.handleGnbConfigRequest [8, 7] true)).1.ulBandwidthPrb) = some 0 ∧
      ∀ c, s.srsCollector = some c →
        ¬ ReplyCarries radioCfg 7 c.config (c.handleGnbConfigRequest [8, 7] true) := by
  intro radioCfg s
  have hzero : s.srsCollector.map (fun c => (Pb.GnbConfigMessage.schema.parse
      (c.handleGnbConfigRequest [8, 7] true)).1.ulBandwidthPrb) = some 0 := by decide +kernel
  refine ⟨hzero, ?_⟩
  rintro c hc ⟨⟨msg, hparse, hcarries⟩, -⟩
  rw [hc, Option.map_some, hparse, Option.some_inj] at hzero
  have hul := hcarries.ulBandwidthPrb
  rw [hzero] at hul
  exact absurd hul (by decide)

end RunOran
