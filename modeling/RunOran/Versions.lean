import RunOran.GnbConfig
import RunOran.Isolation

/-!
# Messages of later versions

The schema may grow by fields with new numbers, and the two ends of the interface need not grow
together. A message of a later version has the fields of one of this version in their order, its
sub-messages may be of later versions themselves, and the fields this version has no number for
may be anywhere in it.

No class of this version keeps what it has no number for, so each reads the later message as the
one it extends (`readsAlike`). `later_versions` carries that to whoever reads: the callbacks of the
xApp over a whole run, the decoder of the DU, and both ends of the configuration exchange.
-/

namespace RunOran

open Protobuf

/-! ## The message classes -/

namespace Pb

def SrsSymbol.Extends : Bytes → Bytes → Prop := Protobuf.Extends 1 Eq

def SrsAntennaData.Extends : Bytes → Bytes → Prop :=
  Protobuf.Extends 3 (Field.Nested 3 SrsSymbol.Extends)

def UeSrsData.Extends : Bytes → Bytes → Prop :=
  Protobuf.Extends 3 (Field.Nested 3 SrsAntennaData.Extends)

def SrsIndicationMessage.Extends : Bytes → Bytes → Prop :=
  Protobuf.Extends 1 (Field.Nested 1 UeSrsData.Extends)

def TimingAdvanceData.Extends : Bytes → Bytes → Prop := Protobuf.Extends 6 Eq

def TimingAdvanceIndicationMessage.Extends : Bytes → Bytes → Prop :=
  Protobuf.Extends 1 (Field.Nested 1 TimingAdvanceData.Extends)

def GnbConfigRequest.Extends : Bytes → Bytes → Prop := Protobuf.Extends 2 Eq

def GnbConfigMessage.Extends : Bytes → Bytes → Prop := Protobuf.Extends 9 Eq

theorem SrsSymbol.readsAlike : schema.ReadsAlike SrsSymbol.Extends := by
  refine Schema.readsAlike_extends (fun m f hf => ?_) Schema.respects_eq
  simp only [schema]
  split <;> first | rfl | exact absurd hf (by simp)

theorem SrsAntennaData.readsAlike : schema.ReadsAlike SrsAntennaData.Extends := by
  refine Schema.readsAlike_extends (fun m f hf => ?_)
    (Schema.respects_nested SrsSymbol.readsAlike fun m payload payload' h => ?_)
  · simp only [schema]
    split <;> first | rfl | exact absurd hf (by simp)
  · simp only [schema, h]

theorem UeSrsData.readsAlike : schema.ReadsAlike UeSrsData.Extends := by
  refine Schema.readsAlike_extends (fun m f hf => ?_)
    (Schema.respects_nested SrsAntennaData.readsAlike fun m payload payload' h => ?_)
  · simp only [schema]
    split <;> first | rfl | exact absurd hf (by simp)
  · simp only [schema, Schema.parse, h]

theorem SrsIndicationMessage.readsAlike : schema.ReadsAlike SrsIndicationMessage.Extends := by
  refine Schema.readsAlike_extends (fun m f hf => ?_)
    (Schema.respects_nested UeSrsData.readsAlike fun m payload payload' h => ?_)
  · simp only [schema]
    split <;> first | rfl | exact absurd hf (by simp)
  · simp only [schema, Schema.parse, h]

theorem TimingAdvanceData.readsAlike : schema.ReadsAlike TimingAdvanceData.Extends := by
  refine Schema.readsAlike_extends (fun m f hf => ?_) Schema.respects_eq
  simp only [schema]
  split <;> first | rfl | exact absurd hf (by simp)

theorem TimingAdvanceIndicationMessage.readsAlike :
    schema.ReadsAlike TimingAdvanceIndicationMessage.Extends := by
  refine Schema.readsAlike_extends (fun m f hf => ?_)
    (Schema.respects_nested TimingAdvanceData.readsAlike fun m payload payload' h => ?_)
  · simp only [schema]
    split <;> first | rfl | exact absurd hf (by simp)
  · simp only [schema, Schema.parse, h]

theorem GnbConfigRequest.readsAlike : schema.ReadsAlike GnbConfigRequest.Extends := by
  refine Schema.readsAlike_extends (fun m f hf => ?_) Schema.respects_eq
  simp only [schema]
  split <;> first | rfl | exact absurd hf (by simp)

theorem GnbConfigMessage.readsAlike : schema.ReadsAlike GnbConfigMessage.Extends := by
  refine Schema.readsAlike_extends (fun m f hf => ?_) Schema.respects_eq
  simp only [schema]
  split <;> first | rfl | exact absurd hf (by simp)

end Pb

/-! ## The readers -/

/-- The message `e'` is a later version of the message `e`. -/
def XappEvent.Extends : XappEvent → XappEvent → Prop
  | .srsIndication msg, .srsIndication msg' => Pb.SrsIndicationMessage.Extends msg msg'
  | .timingAdvanceIndication msg, .timingAdvanceIndication msg' =>
    Pb.TimingAdvanceIndicationMessage.Extends msg msg'
  | _, _ => False

namespace SimpleRunOranXapp

theorem onEvent_of_extends (x : SimpleRunOranXapp) {e e' : XappEvent} (h : e.Extends e') :
    x.onEvent e' = x.onEvent e := by
  cases e <;> cases e'
  · have hparse := Pb.SrsIndicationMessage.readsAlike.parse_eq h
    rw [onEvent, onEvent, srsIndicationCallback, parseSrsMessage, hparse]
    rfl
  · exact h.elim
  · exact h.elim
  · have hparse := Pb.TimingAdvanceIndicationMessage.readsAlike.parse_eq h
    rw [onEvent, onEvent, timingAdvanceIndicationCallback, parseTimingAdvanceMessage, hparse]
    rfl

theorem onEvents_of_extends {events events' : List XappEvent}
    (h : List.Forall₂ XappEvent.Extends events events') :
    ∀ x : SimpleRunOranXapp, x.onEvents events' = x.onEvents events := by
  induction h with
  | nil => exact fun _ => rfl
  | @cons e e' events events' he _ ih =>
    intro x
    calc x.onEvents (e' :: events')
        = (x.onEvent e').onEvents events' := rfl
      _ = (x.onEvent e).onEvents events' := by rw [x.onEvent_of_extends he]
      _ = x.onEvents (e :: events) := ih _

end SimpleRunOranXapp

/-- **Later versions.** From whatever state it starts, the xApp does with messages of later versions
what it does with the messages they extend; the decoder of the DU reads the same items; the DU
replies to a later request as to the request; and a later reply is read as the reply. -/
theorem later_versions :
    (∀ (x : SimpleRunOranXapp) (events events' : List XappEvent),
      List.Forall₂ XappEvent.Extends events events' → x.onEvents events' = x.onEvents events) ∧
    (∀ data data', Pb.SrsIndicationMessage.Extends data data' →
      deserializeSrsIndication data' = deserializeSrsIndication data) ∧
    (∀ (c : SrsDataCollector) (request request' : Bytes) (appendOk : Bool),
      Pb.GnbConfigRequest.Extends request request' →
      c.handleGnbConfigRequest request' appendOk = c.handleGnbConfigRequest request appendOk) ∧
    ∀ reply reply', Pb.GnbConfigMessage.Extends reply reply' →
      deserializeGnbConfig reply' = deserializeGnbConfig reply := by
  refine ⟨fun x _ _ h => SimpleRunOranXapp.onEvents_of_extends h x, fun data data' h => ?_,
    fun c request request' appendOk h => ?_, fun reply reply' h => ?_⟩
  · rw [deserializeSrsIndication, deserializeSrsIndication,
      Pb.SrsIndicationMessage.readsAlike.parse_eq h]
  · have hrequest : deserializeGnbConfigRequest request' = deserializeGnbConfigRequest request := by
      rw [deserializeGnbConfigRequest, deserializeGnbConfigRequest,
        Pb.GnbConfigRequest.readsAlike.parse_eq h]
    rw [SrsDataCollector.handleGnbConfigRequest, SrsDataCollector.handleGnbConfigRequest, hrequest]
  · rw [deserializeGnbConfig, deserializeGnbConfig, Pb.GnbConfigMessage.readsAlike.parse_eq h]

/-- Fields of a later version: behind the flag of the antenna, in front of the identifier of the
UE, and at the end of the message. -/
theorem later_versions_three_levels :
    let antenna := encodeFields [⟨2, .varint 1⟩, ⟨3, .len [10, 4, 7, 0, 1, 0]⟩]
    let antenna' := encodeFields [⟨2, .varint 1⟩, ⟨4, .fixed32 9⟩, ⟨3, .len [10, 4, 7, 0, 1, 0]⟩]
    let ue := encodeFields [⟨1, .varint 17⟩, ⟨3, .len antenna⟩]
    let ue' := encodeFields [⟨12, .len [255]⟩, ⟨1, .varint 17⟩, ⟨3, .len antenna'⟩]
    let msg := encodeFields [⟨1, .len ue⟩]
    let msg' := encodeFields [⟨1, .len ue'⟩, ⟨7, .fixed64 3⟩]
    deserializeSrsIndication msg' = deserializeSrsIndication msg ∧
      (SimpleRunOranXapp.init 1).onEvents [.srsIndication msg'] =
        (SimpleRunOranXapp.init 1).onEvents [.srsIndication msg] := by
  intro antenna antenna' ue ue' msg msg'
  have hantenna : Pb.SrsAntennaData.Extends antenna antenna' :=
    ⟨by decide +kernel, by decide +kernel, [⟨2, .varint 1⟩, ⟨3, .len [10, 4, 7, 0, 1, 0]⟩],
      [⟨2, .varint 1⟩, ⟨4, .fixed32 9⟩, ⟨3, .len [10, 4, 7, 0, 1, 0]⟩],
      by decide +kernel, by decide +kernel, by simp, .cons (.inl rfl) (.cons (.inl rfl) .nil)⟩
  have hue : Pb.UeSrsData.Extends ue ue' :=
    ⟨by decide +kernel, by decide +kernel, [⟨1, .varint 17⟩, ⟨3, .len antenna⟩],
      [⟨12, .len [255]⟩, ⟨1, .varint 17⟩, ⟨3, .len antenna'⟩],
      by decide +kernel, by decide +kernel, by simp,
      .cons (.inl rfl) (.cons (.inr ⟨antenna, antenna', rfl, rfl, hantenna⟩) .nil)⟩
  have hmsg : Pb.SrsIndicationMessage.Extends msg msg' :=
    ⟨by decide +kernel, by decide +kernel, [⟨1, .len ue⟩], [⟨1, .len ue'⟩, ⟨7, .fixed64 3⟩],
      by decide +kernel, by decide +kernel, by simp, .cons (.inr ⟨ue, ue', rfl, rfl, hue⟩) .nil⟩
  exact ⟨later_versions.2.1 msg msg' hmsg, later_versions.1 _ _ _ (.cons hmsg .nil)⟩

end RunOran
