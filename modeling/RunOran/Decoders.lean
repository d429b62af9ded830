import RunOran.Xapp

/-!
# The two SRS decoders

The DU has a deserializer of its own, `deserialize_srs_indication`, beside the parser of
the xApp. They unpack samples alike (`unpackIqSamples_eq`), and on a well-formed message
they yield the same items. They part on malformed ones: `ParseFromString` raises and the
xApp drops the message, while the DU does not look at the result of `ParseFromArray` and
hands out what was read before the defect.

`decoders_agree` says on which byte strings that makes a difference: those in which an
`antenna_data` field begins before the defect. It leaves one case open. The generated
`_InternalParse` asks for the end of its payload between two fields only, so a tag that the
end of a `ue_srs_data` payload cuts off is read on into the bytes behind it, and may turn out
to be that of an `antenna_data` field.
-/

namespace RunOran

open Protobuf

/-! ## Agreement -/

/-- The items of a parsed message, in the order in which the xApp's callback visits them. -/
def parsedItems (parsed : List ParsedUe) : List SrsStreamItem :=
  parsed.flatMap fun ue => ue.antennaData.map fun ant =>
    ⟨ue.rnti, ue.timestamp, ant.antennaId, ant.generated, ant.srs⟩

theorem parsedItems_parseSrsMessage (data : Bytes) :
    parsedItems (parseSrsMessage data) = indicationItems data := by
  simp only [parsedItems, parseSrsMessage, indicationItems]
  split
  · rw [List.flatMap_map]
    simp only [List.map_map, Function.comp_def, unpackIqSamples_eq]
    rfl
  · rfl

/-- The decoders yield the same items, and nothing at all from a malformed message. -/
def DecodersAgree (data : Bytes) : Prop :=
  deserializeSrsIndication data = parsedItems (parseSrsMessage data) ∧
    ((Pb.SrsIndicationMessage.schema.parse data).2 = false →
      deserializeSrsIndication data = [] ∧ parseSrsMessage data = [])

/-- An `antenna_data` field begins in this payload of a `ue_srs_data` field. -/
def BeginsAntenna (payload : Bytes) : Prop := ∃ p, ⟨3, .len p⟩ ∈ (readFields payload).1

/-- A payload that ends within a tag, of which at most five bytes are read. -/
def BreaksOffInTag (payload : Bytes) : Prop :=
  ∃ front tag, payload = front ++ tag ∧ (readFields front).2 = true ∧
    tag ≠ [] ∧ tag.length < 5 ∧ decodeGroups 5 tag = none

/-- A payload in which the parser of the DU may come upon an `antenna_data` field. -/
def MayBeginAntenna (payload : Bytes) : Prop := BeginsAntenna payload ∨ BreaksOffInTag payload

/-- One of these fields of an indication is a `ue_srs_data` field with such a payload, and
those before it are well formed, so that it is read. -/
def Reaches (p : Bytes → Prop) (fs : List Field) : Prop :=
  ∃ before payload after, fs = before ++ ⟨1, .len payload⟩ :: after ∧
    (∀ q, ⟨1, .len q⟩ ∈ before → (Pb.UeSrsData.schema.parse q).2 = true) ∧ p payload

/-- An `antenna_data` field begins in this byte string before its first defect. -/
def AntennaBeforeDefect (data : Bytes) : Prop := Reaches BeginsAntenna (readFields data).1

/-- The levels of groups in a value. -/
def groupDepth : WireValue → Nat
  | .group depth => depth
  | _ => 0

/-- The length that a value announces. -/
def announced : WireValue → Nat
  | .len payload => payload.length
  | _ => 0

/-- The payloads of the length-delimited fields of this number. -/
def payloadsOf (number : Nat) (bs : Bytes) : List Bytes :=
  (readFields bs).1.filterMap fun f =>
    match f with
    | ⟨n, .len payload⟩ => if n = number then some payload else none
    | _ => none

/-- The messages to which these field numbers lead, one level down with each. -/
def messagesAt : List Nat → Bytes → List Bytes
  | [], bs => [bs]
  | number :: path, bs => (payloadsOf number bs).flatMap (messagesAt path)

/-- What both parsers take: the size fits the `int` of `ParseFromArray`, no length comes
within the slop of the buffer of 2 GiB, and messages (`ue_srs_data`, `antenna_data` and `srs`)
and groups together nest at most a hundred levels deep. -/
structure WithinLimits (data : Bytes) : Prop where
  size : data.length < 2 ^ 31
  lengths : ∀ f ∈ (readFields data).1, announced f.value < 2 ^ 31 - 16
  levels : ∀ path ∈ [[], [1], [1, 3], [1, 3, 3]], ∀ message ∈ messagesAt path data,
    ∀ f ∈ (readFields message).1, path.length + groupDepth f.value ≤ 100

instance (data : Bytes) : Decidable (WithinLimits data) :=
  decidable_of_iff
    (data.length < 2 ^ 31 ∧ (∀ f ∈ (readFields data).1, announced f.value < 2 ^ 31 - 16) ∧
      ∀ path ∈ [[], [1], [1, 3], [1, 3, 3]], ∀ message ∈ messagesAt path data,
        ∀ f ∈ (readFields message).1, path.length + groupDepth f.value ≤ 100)
    ⟨fun h => ⟨h.1, h.2.1, h.2.2⟩, fun h => ⟨h.size, h.lengths, h.levels⟩⟩

/-! ## What a partial parse holds -/

/-- Antennas appear in a UE through `antenna_data` fields, well formed or not. -/
theorem antennaData_mergeFields_ne_nil {fs : List Field} :
    ∀ {m : Pb.UeSrsData}, (Pb.UeSrsData.schema.mergeFields m fs).1.antennaData ≠ [] ↔
      m.antennaData ≠ [] ∨ ∃ p, ⟨3, .len p⟩ ∈ fs := by
  induction fs with
  | nil => simp
  | cons f fs ih =>
    intro m
    by_cases hf : ∃ p, f = ⟨3, .len p⟩
    · obtain ⟨p, rfl⟩ := hf
      have hright : m.antennaData ≠ [] ∨ ∃ q, (⟨3, .len q⟩ : Field) ∈ ⟨3, .len p⟩ :: fs :=
        Or.inr ⟨p, List.mem_cons_self ..⟩
      rw [iff_true_right hright]
      rcases hant : Pb.SrsAntennaData.schema.parse p with ⟨ant, ok⟩
      have hmerge : Pb.UeSrsData.schema.merge m ⟨3, .len p⟩ =
          ({ m with antennaData := m.antennaData ++ [ant] }, ok) := by
        simp only [Pb.UeSrsData.schema, hant]
      cases ok with
      | true =>
        rw [Schema.mergeFields_cons hmerge, ih]
        exact Or.inl (by simp)
      | false =>
        rw [Schema.mergeFields, hmerge]
        simp
    · -- the other fields leave the antennas alone and are never malformed
      have hmerge : ∃ m', Pb.UeSrsData.schema.merge m f = (m', true) ∧
          m'.antennaData = m.antennaData := by
        simp only [Pb.UeSrsData.schema]
        split
        · exact ⟨_, rfl, rfl⟩
        · exact ⟨_, rfl, rfl⟩
        · exact absurd ⟨_, rfl⟩ hf
        · exact ⟨_, rfl, rfl⟩
      obtain ⟨m', hmerge, hsame⟩ := hmerge
      have hne : ∀ p, ¬ (⟨3, .len p⟩ : Field) = f := fun p hp => hf ⟨p, hp.symm⟩
      rw [Schema.mergeFields_cons hmerge, ih, hsame]
      simp only [List.mem_cons, hne, false_or]

/-- So a UE has antennas once one of them has begun. -/
theorem antennaData_parse_ne_nil (payload : Bytes) :
    (Pb.UeSrsData.schema.parse payload).1.antennaData ≠ [] ↔ BeginsAntenna payload := by
  simp only [Schema.parse, Schema.parseInto, antennaData_mergeFields_ne_nil, BeginsAntenna]
  simp [Pb.UeSrsData.schema]

@[simp] theorem not_reaches_nil (p : Bytes → Prop) : ¬ Reaches p [] := by
  rintro ⟨before, payload, after, h, -⟩
  simp at h

theorem Reaches.mono {p p' : Bytes → Prop} (hp : ∀ payload, p payload → p' payload)
    {fs : List Field} : Reaches p fs → Reaches p' fs := by
  rintro ⟨before, payload, after, hfs, hbefore, hpayload⟩
  exact ⟨before, payload, after, hfs, hbefore, hp payload hpayload⟩

theorem reaches_cons_ue {p : Bytes → Prop} {payload : Bytes} {fs : List Field} :
    Reaches p (⟨1, .len payload⟩ :: fs) ↔
      p payload ∨ (Pb.UeSrsData.schema.parse payload).2 = true ∧ Reaches p fs := by
  refine ⟨?_, ?_⟩
  · rintro ⟨_ | ⟨f, before⟩, q, after, h, hbefore, hq⟩
    · obtain ⟨hhead, -⟩ := List.cons.inj h
      cases hhead
      exact Or.inl hq
    · obtain ⟨rfl, rfl⟩ := List.cons.inj h
      exact Or.inr ⟨hbefore payload (List.mem_cons_self ..), before, q, after, rfl,
        fun p hp => hbefore p (List.mem_cons_of_mem _ hp), hq⟩
  · rintro (hhere | ⟨hok, before, q, after, rfl, hbefore, hq⟩)
    · exact ⟨[], payload, fs, rfl, by simp, hhere⟩
    · refine ⟨⟨1, .len payload⟩ :: before, q, after, rfl, fun p hp => ?_, hq⟩
      rcases List.mem_cons.mp hp with hp | hp
      · cases hp
        exact hok
      · exact hbefore p hp

theorem reaches_cons_other {p : Bytes → Prop} {f : Field} {fs : List Field}
    (hf : ∀ payload, f ≠ ⟨1, .len payload⟩) : Reaches p (f :: fs) ↔ Reaches p fs := by
  refine ⟨?_, ?_⟩
  · rintro ⟨_ | ⟨g, before⟩, q, after, h, hbefore, hq⟩
    · exact absurd (List.cons.inj h).1 (hf q)
    · obtain ⟨rfl, rfl⟩ := List.cons.inj h
      exact ⟨before, q, after, rfl, fun p hp => hbefore p (List.mem_cons_of_mem _ hp), hq⟩
  · rintro ⟨before, q, after, rfl, hbefore, hq⟩
    refine ⟨f :: before, q, after, rfl, fun p hp => ?_, hq⟩
    rcases List.mem_cons.mp hp with hp | hp
    · exact absurd hp.symm (hf p)
    · exact hbefore p hp

/-- A message holds an antenna if it did before, or one of the fields begins one. By
induction on the fields; a malformed UE is kept but ends the parse. -/
theorem exists_antenna_mergeFields {fs : List Field} :
    ∀ {m : Pb.SrsIndicationMessage},
      (∃ ue ∈ (Pb.SrsIndicationMessage.schema.mergeFields m fs).1.ueSrsData,
          ue.antennaData ≠ []) ↔
        (∃ ue ∈ m.ueSrsData, ue.antennaData ≠ []) ∨ Reaches BeginsAntenna fs := by
  induction fs with
  | nil => simp
  | cons f fs ih =>
    intro m
    by_cases hf : ∃ payload, f = ⟨1, .len payload⟩
    · obtain ⟨payload, rfl⟩ := hf
      rcases hue : Pb.UeSrsData.schema.parse payload with ⟨ue, ok⟩
      have hmerge : Pb.SrsIndicationMessage.schema.merge m ⟨1, .len payload⟩ =
          (⟨m.ueSrsData ++ [ue]⟩, ok) := by
        simp only [Pb.SrsIndicationMessage.schema, hue]
      have hbegins : BeginsAntenna payload ↔ ue.antennaData ≠ [] := by
        rw [← antennaData_parse_ne_nil, hue]
      have hheld : (∃ u ∈ m.ueSrsData ++ [ue], u.antennaData ≠ []) ↔
          (∃ u ∈ m.ueSrsData, u.antennaData ≠ []) ∨ ue.antennaData ≠ [] := by
        simp only [List.mem_append, List.mem_singleton, or_and_right, exists_or, exists_eq_left]
      rw [reaches_cons_ue, hbegins, hue]
      cases ok with
      | true => rw [Schema.mergeFields_cons hmerge, ih, hheld, or_assoc, eq_self, true_and]
      | false =>
        rw [Schema.mergeFields, hmerge, hheld]
        simp only [Bool.false_eq_true, false_and, or_false]
    · have hother : ∀ payload, f ≠ ⟨1, .len payload⟩ := fun payload h => hf ⟨payload, h⟩
      have hmerge : Pb.SrsIndicationMessage.schema.merge m f = (m, true) := by
        simp only [Pb.SrsIndicationMessage.schema]
      rw [Schema.mergeFields_cons hmerge, ih, reaches_cons_other hother]

/-- The DU gets something out of a byte string when an antenna begins in it in time. -/
theorem deserializeSrsIndication_ne_nil {data : Bytes} :
    deserializeSrsIndication data ≠ [] ↔ AntennaBeforeDefect data := by
  have hitems : deserializeSrsIndication data ≠ [] ↔
      ∃ ue ∈ (Pb.SrsIndicationMessage.schema.parse data).1.ueSrsData, ue.antennaData ≠ [] := by
    simp only [deserializeSrsIndication, ne_eq, List.flatMap_eq_nil_iff, ueItems,
      List.map_eq_nil_iff, not_forall, exists_prop]
  rw [hitems, Schema.parse, Schema.parseInto, exists_antenna_mergeFields, AntennaBeforeDefect]
  simp [Pb.SrsIndicationMessage.schema]

/-! ## When the decoders agree -/

/-- A well-formed indication is decoded alike. -/
theorem decodersAgree_of_parse {data : Bytes}
    (h : (Pb.SrsIndicationMessage.schema.parse data).2 = true) : DecodersAgree data := by
  rw [DecodersAgree, parsedItems_parseSrsMessage]
  simp [indicationItems, deserializeSrsIndication, h]

/-- The xApp drops a malformed one, so the decoders agree on it if the DU has nothing either. -/
theorem decodersAgree_iff_of_malformed {data : Bytes}
    (h : (Pb.SrsIndicationMessage.schema.parse data).2 = false) :
    DecodersAgree data ↔ ¬ AntennaBeforeDefect data := by
  have hnone : parseSrsMessage data = [] := by
    simp [parseSrsMessage, h]
  rw [← deserializeSrsIndication_ne_nil, not_not, DecodersAgree, hnone]
  simp [parsedItems, h]

/-- **When the decoders agree.** They do on every well-formed indication, and on a malformed
one if no `antenna_data` field begins before the first defect and no payload of a `ue_srs_data`
field breaks off within a tag. On a malformed one where such a field begins they do not. -/
theorem decoders_agree (data : Bytes) :
    (WithinLimits data ∧ ((Pb.SrsIndicationMessage.schema.parse data).2 = true ∨
        ¬ Reaches MayBeginAntenna (readFields data).1) → DecodersAgree data) ∧
      (WithinLimits data ∧ (Pb.SrsIndicationMessage.schema.parse data).2 = false ∧
        AntennaBeforeDefect data → ¬ DecodersAgree data) := by
  refine ⟨?_, ?_⟩
  · rintro ⟨-, hok | hreaches⟩
    · exact decodersAgree_of_parse hok
    · cases hok : (Pb.SrsIndicationMessage.schema.parse data).2 with
      | true => exact decodersAgree_of_parse hok
      | false =>
        rw [decodersAgree_iff_of_malformed hok]
        exact fun hantenna => hreaches (hantenna.mono fun _ => Or.inl)
  · rintro ⟨-, hmalformed, hantenna⟩
    rw [decodersAgree_iff_of_malformed hmalformed]
    exact not_not_intro hantenna

/-- On a well-formed indication they agree, on a malformed one without antennas too, and on one
with antennas they do not. -/
theorem decoders_agree_two_ues :
    let data := serializeSrsIndication
      [⟨17, 1000, 0, false, [⟨.finite 1, .finite (-1)⟩]⟩,
        ⟨18, 1000, 1, true, [⟨.finite 0, .finite 2⟩]⟩]
    DecodersAgree data ∧ DecodersAgree [10, 0, 0] ∧ ¬ DecodersAgree (data ++ [0]) := by
  intro data
  have hfields : (readFields [10, 0, 0]).1 = [⟨1, .len []⟩] := by decide +kernel
  have hnone : ¬ MayBeginAntenna [] := by
    rintro (⟨p, hp⟩ | ⟨front, tag, h, -, htag, -⟩)
    · exact absurd hp List.not_mem_nil
    · exact htag (List.append_eq_nil_iff.mp h.symm).2
  have hreaches : ¬ Reaches MayBeginAntenna (readFields [10, 0, 0]).1 := by
    rw [hfields, reaches_cons_ue]
    rintro (h | ⟨-, h⟩)
    · exact hnone h
    · exact not_reaches_nil _ h
  have hantenna : AntennaBeforeDefect (data ++ [0]) := by
    rw [← deserializeSrsIndication_ne_nil]
    decide +kernel
  exact ⟨(decoders_agree data).1 ⟨by decide +kernel, Or.inl (by decide +kernel)⟩,
    (decoders_agree [10, 0, 0]).1 ⟨by decide +kernel, Or.inr hreaches⟩,
    (decoders_agree (data ++ [0])).2 ⟨by decide +kernel, by decide +kernel, hantenna⟩⟩

/-- Two UEs and a zero byte, which is no tag: the DU hands out both, and the xApp drops the
message. -/
theorem decoders_disagree_on_trailing_zero :
    let data := serializeSrsIndication
      [⟨17, 1000, 0, false, [⟨.finite 1, .finite (-1)⟩]⟩,
        ⟨18, 1000, 1, true, [⟨.finite 0, .finite 2⟩]⟩] ++ [0]
    deserializeSrsIndication data =
        [⟨17, 1000, 0, false, [⟨.finite 1, .finite (-1)⟩]⟩,
          ⟨18, 1000, 1, true, [⟨.finite 0, .finite 2⟩]⟩] ∧
      parseSrsMessage data = [] ∧ ¬ DecodersAgree data := by
  intro data
  have hdu : deserializeSrsIndication data =
      [⟨17, 1000, 0, false, [⟨.finite 1, .finite (-1)⟩]⟩,
        ⟨18, 1000, 1, true, [⟨.finite 0, .finite 2⟩]⟩] := by
    decide +kernel
  have hxapp : parseSrsMessage data = [] := by
    decide +kernel
  refine ⟨hdu, hxapp, fun h => ?_⟩
  have hagree := h.1
  rw [hdu, hxapp] at hagree
  cases hagree

end RunOran
