import RunOran.Varint

/-!
# The protocol-buffer wire format

A message on the wire is a sequence of *fields*, each a tag (field number and wire
type) and a payload. `readFields` cuts a byte string into fields: it returns the
fields read before the first defect together with a flag saying whether the whole
string was consumed without one. `Schema` is then what a generated message class
contributes: the fields its serializer writes, and how its parser takes one field
in. Unknown fields are the schema's business (it ignores them); malformed ones are
not, they stop the reading for every schema.

A length-delimited field may announce more bytes than are left, or its length may be
unreadable. The reader then hands out what is there, or nothing, and reports failure:
a generated parser creates the sub-message before it reads the length. Of any other
field that the end of the string cuts off the reader knows nothing. (In a sub-message a
generated parser reads it on, into the bytes behind the end, before it reports failure.)

The main result is `Schema.parse_encode`: a schema whose parser undoes its own
fields undoes its own bytes. With new field numbers a schema may grow: `readsAlike_extends`
says that the fields of a later version change nothing for a parser of an earlier one.
-/

namespace Protobuf

/-! ## Fields -/

/-- The payload of a field, by wire type. Of a group only the depth is kept, the levels
of groups it nests: no proto3 message has one, but a parser has to skip it. -/
inductive WireValue where
  | varint (v : Nat)
  | fixed64 (v : Nat)
  | len (payload : Bytes)
  | group (depth : Nat)
  | fixed32 (v : Nat)
  deriving DecidableEq

/-- One field as it stands on the wire. -/
structure Field where
  number : Nat
  value : WireValue
  deriving DecidableEq

/-- The three bits that announce the payload. -/
def WireValue.wireType : WireValue → Nat
  | .varint _ => 0
  | .fixed64 _ => 1
  | .len _ => 2
  | .group _ => 3
  | .fixed32 _ => 5

/-- The bytes of a payload. (A group has none to write; no schema writes one.) -/
def WireValue.encode : WireValue → Bytes
  | .varint v => encodeVarint v
  | .fixed64 v => toLe 8 v
  | .len payload => encodeVarint payload.length ++ payload
  | .group _ => []
  | .fixed32 v => toLe 4 v

/-- Values that fit their wire type. -/
def WireValue.Fits : WireValue → Prop
  | .varint v => v < 2 ^ 64
  | .fixed64 v => v < 2 ^ 64
  | .len payload => payload.length < 2 ^ 31
  | .group _ => False
  | .fixed32 v => v < 2 ^ 32

/-- Fields a serializer may write. -/
structure Field.Fits (f : Field) : Prop where
  number_pos : 0 < f.number
  number_lt : f.number < 2 ^ 29
  value_fits : f.value.Fits

theorem Field.fits_len {number : Nat} {payload : Bytes} (hpos : 0 < number)
    (hlt : number < 2 ^ 29) (h : payload.length < 2 ^ 31) :
    Field.Fits ⟨number, .len payload⟩ := ⟨hpos, hlt, h⟩

/-- A tag is the varint of `8 * number + wire type`. -/
def encodeTag (number wireType : Nat) : Bytes := encodeVarint (8 * number + wireType)

def Field.encode (f : Field) : Bytes := encodeTag f.number f.value.wireType ++ f.value.encode

def encodeFields (fs : List Field) : Bytes := fs.flatMap Field.encode

/-! ## Reading -/

/-- Read a tag: a varint of at most five bytes, taken modulo `2 ^ 32`, whose field
number is not zero. -/
def readTag (bs : Bytes) : Option (Nat × Nat × Bytes) :=
  (decodeGroups 5 bs).bind fun p =>
    let tag := p.1 % 2 ^ 32
    if tag / 8 = 0 then none else some (tag / 8, tag % 8, p.2)

/-- What follows a tag: a complete field, one whose announced length runs past the
end of the input, or nothing that can be read. -/
inductive ReadResult where
  | field (value : WireValue) (rest : Bytes)
  | cut (value : WireValue)
  | bad

/-- Read a little-endian word of `k` bytes. -/
def readLe (k : Nat) (mk : Nat → WireValue) (bs : Bytes) : ReadResult :=
  if k ≤ bs.length then .field (mk (ofLe (bs.take k))) (bs.drop k) else .bad

/-- Read a length: a varint of at most five bytes, below 2 GiB. -/
def readSize (bs : Bytes) : Option (Nat × Bytes) :=
  (decodeGroups 5 bs).filter fun p => p.1 < 2 ^ 31

/-- Read a length and that many bytes. Without a length the field has begun, but nothing
of its payload is read; nor is it for a length closer to 2 GiB than the slop of the
parser's buffer. -/
def readLen (bs : Bytes) : ReadResult :=
  match readSize bs with
  | none => .cut (.len [])
  | some (n, rest) =>
    if n ≤ rest.length then .field (.len (rest.take n)) (rest.drop n)
    else .cut (.len (if n < 2 ^ 31 - 16 then rest else []))

/-- Read a payload of a wire type other than the two group markers. -/
def readScalar (wireType : Nat) (bs : Bytes) : ReadResult :=
  match wireType with
  | 0 =>
    match decodeVarint bs with
    | none => .bad
    | some (v, rest) => .field (.varint v) rest
  | 1 => readLe 8 .fixed64 bs
  | 2 => readLen bs
  | 5 => readLe 4 .fixed32 bs
  | _ => .bad

/-- Skip to the end of the innermost open group, and so on outwards; the stack
holds the field numbers of the open groups, and the depth is the most there were. -/
def skipGroup : Nat → Nat → List Nat → Bytes → Option (Nat × Bytes)
  | _, depth, [], bs => some (depth, bs)
  | 0, _, _ :: _, _ => none
  | fuel + 1, depth, open₀ :: rest₀, bs =>
    match readTag bs with
    | none => none
    | some (number, wireType, rest) =>
      if wireType = 3 then
        skipGroup fuel (max depth (rest₀.length + 2)) (number :: open₀ :: rest₀) rest
      else if wireType = 4 then
        -- an end marker has to close the innermost group
        if number = open₀ then skipGroup fuel depth rest₀ rest else none
      else
        match readScalar wireType rest with
        | .field _ rest' => skipGroup fuel depth (open₀ :: rest₀) rest'
        | _ => none

/-- Read the payload announced by a tag. An end-group marker with no open group
(wire type 4) is malformed, as are the unassigned wire types. -/
def readValue (number wireType : Nat) (bs : Bytes) : ReadResult :=
  if wireType = 3 then
    match skipGroup bs.length 1 [number] bs with
    | some (depth, rest) => .field (.group depth) rest
    | none => .bad
  else readScalar wireType bs

/-- Read fields until the input ends or a defect is met. Every field takes at least
its tag's byte, so the length of the input is fuel enough. -/
def readFieldsFrom : Nat → Bytes → List Field × Bool
  | _, [] => ([], true)
  | 0, _ :: _ => ([], false)
  | fuel + 1, b :: bs =>
    match readTag (b :: bs) with
    | none => ([], false)
    | some (number, wireType, rest) =>
      match readValue number wireType rest with
      | .bad => ([], false)
      | .cut v => ([⟨number, v⟩], false)
      | .field v rest' =>
        let tail := readFieldsFrom fuel rest'
        (⟨number, v⟩ :: tail.1, tail.2)

/-- The fields of a byte string up to the first defect, and whether there was none. -/
def readFields (bs : Bytes) : List Field × Bool := readFieldsFrom bs.length bs

/-! ### Reading back what was written -/

theorem readTag_encodeTag {number wireType : Nat} (hpos : 0 < number)
    (hlt : number < 2 ^ 29) (hwt : wireType < 8) (rest : Bytes) :
    readTag (encodeTag number wireType ++ rest) = some (number, wireType, rest) := by
  have htag : 8 * number + wireType < 2 ^ 32 := by omega
  have hback : decodeGroups (4 + 1) (encodeGroups 9 (8 * number + wireType) ++ rest) =
      some (8 * number + wireType, rest) :=
    decodeGroups_encodeGroups 4 9 _ rest (lt_of_lt_of_le htag (by norm_num))
      (lt_of_lt_of_le htag (by norm_num))
  rw [readTag, encodeTag, encodeVarint, hback, Option.bind_some]
  have hdiv : (8 * number + wireType) % 2 ^ 32 / 8 = number := by omega
  have hmod : (8 * number + wireType) % 2 ^ 32 % 8 = wireType := by omega
  simp only [hdiv, hmod]
  rw [if_neg (by omega)]

theorem readLe_toLe {k v : Nat} (mk : Nat → WireValue) (hv : v < 256 ^ k) (rest : Bytes) :
    readLe k mk (toLe k v ++ rest) = .field (mk v) rest := by
  have hlen : (toLe k v).length = k := length_toLe k v
  rw [readLe, if_pos (by rw [List.length_append, hlen]; omega)]
  rw [List.take_left' hlen, List.drop_left' hlen, ofLe_toLe hv]

theorem readSize_encodeVarint {n : Nat} (h : n < 2 ^ 31) (rest : Bytes) :
    readSize (encodeVarint n ++ rest) = some (n, rest) := by
  have hback : decodeGroups (4 + 1) (encodeGroups 9 n ++ rest) = some (n, rest) :=
    decodeGroups_encodeGroups 4 9 n rest (lt_trans h (by norm_num)) (lt_trans h (by norm_num))
  rw [readSize, encodeVarint, hback, Option.filter_some, if_pos (decide_eq_true h)]

theorem readLen_encode {payload : Bytes} (h : payload.length < 2 ^ 31) (rest : Bytes) :
    readLen (encodeVarint payload.length ++ (payload ++ rest)) =
      .field (.len payload) rest := by
  rw [readLen, readSize_encodeVarint h]
  simp only [List.length_append]
  rw [if_pos (by omega), List.take_left, List.drop_left]

/-- A payload is read back under the wire type it was announced with. -/
theorem readValue_encode (number : Nat) {v : WireValue} (h : v.Fits) (rest : Bytes) :
    readValue number v.wireType (v.encode ++ rest) = .field v rest := by
  cases v with
  | varint v =>
    simp only [readValue, WireValue.wireType, WireValue.encode, readScalar]
    rw [if_neg (by decide), decodeVarint_encodeVarint h]
  | fixed64 v =>
    simp only [readValue, WireValue.wireType, WireValue.encode, readScalar]
    rw [if_neg (by decide), readLe_toLe _ (lt_of_lt_of_le h (by norm_num))]
  | len payload =>
    simp only [readValue, WireValue.wireType, WireValue.encode, readScalar]
    rw [if_neg (by decide), List.append_assoc, readLen_encode h]
  | group => exact h.elim
  | fixed32 v =>
    simp only [readValue, WireValue.wireType, WireValue.encode, readScalar]
    rw [if_neg (by decide), readLe_toLe _ (lt_of_lt_of_le h (by norm_num))]

theorem WireValue.wireType_lt (v : WireValue) : v.wireType < 8 := by
  cases v <;> simp [WireValue.wireType]

/-- A tag is not empty, so neither is a field. -/
theorem Field.encode_eq_cons (f : Field) : ∃ b bs, f.encode = b :: bs := by
  have hne : encodeTag f.number f.value.wireType ≠ [] := encodeGroups_ne_nil 9 _
  obtain ⟨b, bs, hb⟩ := List.exists_cons_of_ne_nil hne
  exact ⟨b, bs ++ f.value.encode, by rw [Field.encode, hb, List.cons_append]⟩

/-- The fields of a serialized message are read back, given one unit of fuel each. -/
theorem readFieldsFrom_encodeFields {fs : List Field} (h : ∀ f ∈ fs, f.Fits) :
    ∀ {fuel : Nat}, fs.length ≤ fuel → readFieldsFrom fuel (encodeFields fs) = (fs, true) := by
  induction fs with
  | nil =>
    intro fuel _
    cases fuel <;> rfl
  | cons f fs ih =>
    intro fuel hfuel
    obtain ⟨fuel, rfl⟩ : ∃ n, fuel = n + 1 := ⟨fuel - 1, by simp at hfuel; omega⟩
    have hf : f.Fits := h f (List.mem_cons_self ..)
    have hrest : readFieldsFrom fuel (encodeFields fs) = (fs, true) :=
      ih (fun g hg => h g (List.mem_cons_of_mem _ hg)) (by simpa using hfuel)
    have hcons : encodeFields (f :: fs) = f.encode ++ encodeFields fs := List.flatMap_cons ..
    have htag : readTag (f.encode ++ encodeFields fs) =
        some (f.number, f.value.wireType, f.value.encode ++ encodeFields fs) := by
      rw [Field.encode, List.append_assoc]
      exact readTag_encodeTag hf.number_pos hf.number_lt f.value.wireType_lt _
    -- the reader looks at the first byte before it reads the tag
    obtain ⟨b, bs, hb⟩ := f.encode_eq_cons
    rw [hcons, hb, List.cons_append, readFieldsFrom, ← List.cons_append, ← hb, htag]
    simp only [readValue_encode f.number hf.value_fits, hrest]

theorem length_le_encodeFields (fs : List Field) : fs.length ≤ (encodeFields fs).length := by
  induction fs with
  | nil => exact Nat.le_refl _
  | cons f fs ih =>
    obtain ⟨b, bs, hb⟩ := f.encode_eq_cons
    rw [encodeFields, List.flatMap_cons, hb, List.length_cons, List.length_append,
      List.length_cons]
    have : fs.length ≤ (fs.flatMap Field.encode).length := ih
    omega

/-- **The fields of a serialized message are read back.** -/
theorem readFields_encodeFields {fs : List Field} (h : ∀ f ∈ fs, f.Fits) :
    readFields (encodeFields fs) = (fs, true) :=
  readFieldsFrom_encodeFields h (length_le_encodeFields fs)

/-! ### Lengths -/

theorem encodeFields_append (fs gs : List Field) :
    encodeFields (fs ++ gs) = encodeFields fs ++ encodeFields gs := List.flatMap_append ..

theorem encodeFields_singleton (f : Field) : encodeFields [f] = f.encode :=
  List.flatMap_singleton ..

theorem length_encode_len (number : Nat) (payload : Bytes) :
    (Field.encode ⟨number, .len payload⟩).length =
      (encodeTag number 2).length + (encodeVarint payload.length).length + payload.length := by
  rw [Field.encode, List.length_append, WireValue.encode, List.length_append, Nat.add_assoc]
  rfl

/-- A longer payload makes a longer field. -/
theorem length_encode_len_mono (number : Nat) {payload payload' : Bytes}
    (h : payload.length ≤ payload'.length) :
    (Field.encode ⟨number, .len payload⟩).length ≤
      (Field.encode ⟨number, .len payload'⟩).length := by
  have hvarint := length_encodeVarint_mono h
  rw [length_encode_len, length_encode_len]
  omega

/-- A strictly longer one makes it strictly longer. -/
theorem length_encode_len_strictMono (number : Nat) {payload payload' : Bytes}
    (h : payload.length < payload'.length) :
    (Field.encode ⟨number, .len payload⟩).length <
      (Field.encode ⟨number, .len payload'⟩).length := by
  have hvarint := length_encodeVarint_mono h.le
  rw [length_encode_len, length_encode_len]
  omega

theorem length_encodeTag_le {number wireType : Nat} (hnumber : number < 16)
    (hwireType : wireType < 8) : (encodeTag number wireType).length ≤ 1 :=
  length_encodeVarint_le 0 (by omega)

/-- A field with a small number takes one byte more than its varint. -/
theorem length_encode_varint_le {number v : Nat} (hnumber : number < 16) (j : Nat)
    (hv : v < 128 ^ (j + 1)) : (Field.encode ⟨number, .varint v⟩).length ≤ j + 2 := by
  have htag : (encodeTag number 0).length ≤ 1 := length_encodeTag_le hnumber (by decide)
  have hvalue := length_encodeVarint_le j hv
  rw [Field.encode, List.length_append, WireValue.encode]
  exact (Nat.add_le_add htag hvalue).trans (by omega)

/-- And a payload takes its length besides. -/
theorem length_encode_len_le {number n : Nat} {payload : Bytes} (hnumber : number < 16) (j : Nat)
    (hpayload : payload.length ≤ n) (hn : n < 128 ^ (j + 1)) :
    (Field.encode ⟨number, .len payload⟩).length ≤ n + j + 2 := by
  have htag : (encodeTag number 2).length ≤ 1 := length_encodeTag_le hnumber (by decide)
  have hlen := length_encodeVarint_le j (lt_of_le_of_lt hpayload hn)
  rw [length_encode_len]
  omega

/-- A field is no longer than the message it is part of. -/
theorem length_encode_le_encodeFields {fs : List Field} {f : Field} (h : f ∈ fs) :
    f.encode.length ≤ (encodeFields fs).length := by
  obtain ⟨before, after, rfl⟩ := List.append_of_mem h
  rw [encodeFields_append, List.length_append, encodeFields, encodeFields, List.flatMap_cons,
    List.length_append]
  omega

/-- A payload is shorter than the message it is part of. -/
theorem length_payload_le_encodeFields (number : Nat) {fs : List Field} {payload : Bytes}
    (h : ⟨number, .len payload⟩ ∈ fs) : payload.length ≤ (encodeFields fs).length := by
  obtain ⟨before, after, rfl⟩ := List.append_of_mem h
  simp only [encodeFields, List.flatMap_append, List.flatMap_cons, List.length_append,
    Field.encode, WireValue.encode]
  omega

/-- So are the payloads of a repeated field together. -/
theorem sum_length_payload_le_encodeFields {α : Type} (number : Nat) (payload : α → Bytes)
    (as : List α) :
    (as.map fun a => (payload a).length).sum ≤
      (encodeFields (as.map fun a => ⟨number, .len (payload a)⟩)).length := by
  induction as with
  | nil => exact Nat.le_refl _
  | cons a as ih =>
    simp only [encodeFields, List.map_cons, List.flatMap_cons, List.sum_cons,
      List.length_append, Field.encode, WireValue.encode] at ih ⊢
    omega

/-- A string that starts with a zero byte has no first field. -/
theorem readFields_zero_cons (bs : Bytes) : readFields (0 :: bs) = ([], false) := by
  have htag : readTag (0 :: bs) = none := by simp [readTag, decodeGroups]
  rw [readFields, List.length_cons, readFieldsFrom, htag]

/-! ## Messages -/

/-- What a generated message class knows: the message before any field is read,
the fields its serializer writes, and how its parser takes in one field (with
`false` when that field's payload is malformed). -/
structure Schema (M : Type) where
  empty : M
  fields : M → List Field
  merge : M → Field → M × Bool

namespace Schema

variable {M : Type} (S : Schema M)

/-- Take in fields one after the other, up to the first malformed one. -/
def mergeFields : M → List Field → M × Bool
  | m, [] => (m, true)
  | m, f :: fs =>
    match S.merge m f with
    | (m', true) => mergeFields m' fs
    | (m', false) => (m', false)

/-- The bytes of a message. -/
def encode (m : M) : Bytes := encodeFields (S.fields m)

/-- Parse into a message that may already hold fields. The message returned holds
what was read before the failure, if there was one. -/
def parseInto (m : M) (bs : Bytes) : M × Bool :=
  let read := readFields bs
  let merged := S.mergeFields m read.1
  (merged.1, merged.2 && read.2)

/-- Parse a byte string as a message. -/
def parse (bs : Bytes) : M × Bool := S.parseInto S.empty bs

@[simp] theorem mergeFields_nil (m : M) : S.mergeFields m [] = (m, true) := rfl

variable {S}

theorem mergeFields_cons {m m' : M} {f : Field} {fs : List Field}
    (h : S.merge m f = (m', true)) : S.mergeFields m (f :: fs) = S.mergeFields m' fs := by
  rw [mergeFields, h]

/-- Fields taken in without failure can be followed by more. -/
theorem mergeFields_append :
    ∀ {fs : List Field} {m m' : M} (gs : List Field), S.mergeFields m fs = (m', true) →
      S.mergeFields m (fs ++ gs) = S.mergeFields m' gs := by
  intro fs
  induction fs with
  | nil =>
    intro m m' gs h
    obtain rfl : m = m' := congrArg Prod.fst h
    rfl
  | cons f fs ih =>
    intro m m' gs h
    rcases hf : S.merge m f with ⟨m₁, ok⟩
    cases ok with
    | false =>
      rw [mergeFields, hf] at h
      cases h
    | true =>
      rw [mergeFields_cons hf] at h
      rw [List.cons_append, mergeFields_cons hf]
      exact ih gs h

/-- A repeated field: each element is appended in turn. The message that holds the
elements `as` besides its other fields is `holding as`. -/
theorem mergeFields_map {α : Type} {mk : α → Field} (holding : List α → M) :
    ∀ {as done : List α},
      (∀ done, ∀ a ∈ as, S.merge (holding done) (mk a) = (holding (done ++ [a]), true)) →
      S.mergeFields (holding done) (as.map mk) = (holding (done ++ as), true) := by
  intro as
  induction as with
  | nil =>
    intro done _
    rw [List.append_nil]
    rfl
  | cons a as ih =>
    intro done h
    rw [List.map_cons, mergeFields_cons (h done a (List.mem_cons_self ..)),
      ih fun done b hb => h done b (List.mem_cons_of_mem _ hb), List.append_assoc,
      List.singleton_append]

/-- What the parser makes of the fields of `m` it makes of the bytes. -/
theorem parse_encode_eq {m m' : M} (hfits : ∀ f ∈ S.fields m, f.Fits)
    (hmerge : S.mergeFields S.empty (S.fields m) = (m', true)) :
    S.parse (S.encode m) = (m', true) := by
  simp only [parse, parseInto, encode, readFields_encodeFields hfits, hmerge, Bool.and_self]

/-- **Round trip.** If the parser undoes the fields of `m`, it undoes the bytes. -/
theorem parse_encode {m : M} (hfits : ∀ f ∈ S.fields m, f.Fits)
    (hmerge : S.mergeFields S.empty (S.fields m) = (m, true)) :
    S.parse (S.encode m) = (m, true) := parse_encode_eq hfits hmerge

/-- A string that starts with a zero byte parses as no message of any schema. -/
theorem parse_zero_cons (bs : Bytes) : S.parse (0 :: bs) = (S.empty, false) := by
  simp only [parse, parseInto, readFields_zero_cons, mergeFields_nil, Bool.and_false]

end Schema

/-! ## Messages of later versions -/

/-- The fields are equal, or they have this number and payloads that `E` relates. -/
def Field.Nested (number : Nat) (E : Bytes → Bytes → Prop) (f f' : Field) : Prop :=
  f = f' ∨ ∃ payload payload', f = ⟨number, .len payload⟩ ∧ f' = ⟨number, .len payload'⟩ ∧
    E payload payload'

/-- The well-formed string `bs'` has the fields of the well-formed string `bs` in their order,
each as `R` relates them, and anywhere besides them fields with numbers above `last`. There are
no groups among them, as in any proto3 message, and both strings are below 2 GiB. -/
def Extends (last : Nat) (R : Field → Field → Prop) (bs bs' : Bytes) : Prop :=
  bs.length < 2 ^ 31 ∧ bs'.length < 2 ^ 31 ∧
    ∃ fs fs', readFields bs = (fs, true) ∧ readFields bs' = (fs', true) ∧
      (∀ f ∈ fs', ∀ depth, f.value ≠ .group depth) ∧
      List.Forall₂ R fs (fs'.filter fun f => f.number ≤ last)

namespace Schema

variable {M : Type} {S : Schema M}

/-- The parser skips all fields with numbers above `last`. -/
def EndsAt (S : Schema M) (last : Nat) : Prop :=
  ∀ m f, last < f.number → S.merge m f = (m, true)

/-- The parser takes in alike the fields that `R` relates. -/
def Respects (S : Schema M) (R : Field → Field → Prop) : Prop :=
  ∀ m f f', R f f' → S.merge m f' = S.merge m f

/-- The parser reads alike the strings that `E` relates. -/
def ReadsAlike (S : Schema M) (E : Bytes → Bytes → Prop) : Prop :=
  ∀ m bs bs', E bs bs' → S.parseInto m bs' = S.parseInto m bs

theorem ReadsAlike.parse_eq {E : Bytes → Bytes → Prop} (h : S.ReadsAlike E) {bs bs' : Bytes}
    (hE : E bs bs') : S.parse bs' = S.parse bs := h S.empty bs bs' hE

theorem respects_eq : S.Respects Eq := by
  rintro m f _ rfl
  rfl

/-- A sub-message may be any that its own parser reads alike. -/
theorem respects_nested {N : Type} {T : Schema N} {number : Nat} {E : Bytes → Bytes → Prop}
    (hT : T.ReadsAlike E)
    (hmerge : ∀ m payload payload',
      (∀ n, T.parseInto n payload' = T.parseInto n payload) →
      S.merge m ⟨number, .len payload'⟩ = S.merge m ⟨number, .len payload⟩) :
    S.Respects (Field.Nested number E) := by
  rintro m f f' (rfl | ⟨payload, payload', rfl, rfl, hE⟩)
  · rfl
  · exact hmerge m payload payload' fun n => hT n payload payload' hE

/-- Skipped fields might as well not be there. -/
theorem mergeFields_filter {last : Nat} (h : S.EndsAt last) {fs : List Field} :
    ∀ m, S.mergeFields m (fs.filter fun f => f.number ≤ last) = S.mergeFields m fs := by
  induction fs with
  | nil => exact fun _ => rfl
  | cons f fs ih =>
    intro m
    by_cases hf : f.number ≤ last
    · rw [List.filter_cons, if_pos (decide_eq_true hf), mergeFields, mergeFields]
      rcases S.merge m f with ⟨m', _ | _⟩
      · rfl
      · exact ih m'
    · rw [List.filter_cons, if_neg (mt of_decide_eq_true hf), ih m,
        mergeFields_cons (h m f (Nat.lt_of_not_le hf))]

theorem mergeFields_of_respects {R : Field → Field → Prop} (h : S.Respects R)
    {fs fs' : List Field} (hfs : List.Forall₂ R fs fs') :
    ∀ m, S.mergeFields m fs' = S.mergeFields m fs := by
  induction hfs with
  | nil => exact fun _ => rfl
  | cons hf _ ih =>
    intro m
    rw [mergeFields, mergeFields, h m _ _ hf]
    split
    · exact ih _
    · rfl

/-- **A parser reads a later version of a message as the message itself.** -/
theorem readsAlike_extends {last : Nat} {R : Field → Field → Prop} (hlast : S.EndsAt last)
    (hR : S.Respects R) : S.ReadsAlike (Extends last R) := by
  rintro m bs bs' ⟨-, -, fs, fs', hread, hread', -, hfs⟩
  have hmerged : S.mergeFields m fs' = S.mergeFields m fs := by
    rw [← mergeFields_filter hlast m, mergeFields_of_respects hR hfs m]
  simp only [parseInto, hread, hread', hmerged]

end Schema

end Protobuf
