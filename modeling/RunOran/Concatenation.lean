import RunOran.WireFormat

/-!
# Concatenated messages

What is in front of a byte string decides what is read from it: a reader that takes some bytes off
the front takes them off whatever else follows. From the varint up, each reader is shown to *take*
in this sense (`Takes`), and for a well-formed string `readFields_append` follows: its fields are
those in front of the fields of any other.

For messages that is `parseInto_append`: to parse two strings in a row is to parse their
concatenation. So the bytes of two messages are those of one, and which one is decided by what the
class makes of the fields of the second on top of the first (`Schema.Merges`).
-/

namespace Protobuf

/-! ## Readers that take bytes off the front -/

/-- `read` reads `bs` by taking some bytes off its front, and reads these bytes alike in front of
any others; `result rest` is what it returns if `rest` is left. -/
def Takes {α : Type*} (read : Bytes → α) (result : Bytes → α) (bs rest : Bytes) : Prop :=
  ∃ used, bs = used ++ rest ∧ ∀ more, read (used ++ more) = result more

theorem Takes.append {α : Type*} {read result : Bytes → α} {bs rest : Bytes}
    (h : Takes read result bs rest) (more : Bytes) : read (bs ++ more) = result (rest ++ more) := by
  obtain ⟨used, rfl, hread⟩ := h
  rw [List.append_assoc, hread]

theorem Takes.length_le {α : Type*} {read result : Bytes → α} {bs rest : Bytes}
    (h : Takes read result bs rest) : rest.length ≤ bs.length := by
  obtain ⟨used, rfl, -⟩ := h
  rw [List.length_append]
  exact Nat.le_add_left _ _

theorem takes_decodeGroups {k : Nat} :
    ∀ {bs rest : Bytes} {n : Nat}, decodeGroups k bs = some (n, rest) →
      rest.length < bs.length ∧ Takes (decodeGroups k) (fun rest => some (n, rest)) bs rest := by
  induction k with
  | zero =>
    intro bs rest n h
    cases h
  | succ k ih =>
    intro bs rest n h
    cases bs with
    | nil => cases h
    | cons b bs =>
      rw [decodeGroups] at h
      split at h
      · rename_i hb
        obtain ⟨rfl, rfl⟩ := Prod.mk.inj (Option.some.inj h)
        refine ⟨Nat.lt_succ_self _, [b], rfl, fun more => ?_⟩
        rw [List.singleton_append, decodeGroups, if_pos hb]
      · rename_i hb
        obtain ⟨⟨m, rest'⟩, hm, hp⟩ := Option.map_eq_some_iff.mp h
        obtain ⟨rfl, rfl⟩ := Prod.mk.inj hp
        obtain ⟨hlt, used, rfl, hread⟩ := ih hm
        refine ⟨Nat.lt_succ_of_lt hlt, b :: used, rfl, fun more => ?_⟩
        rw [List.cons_append, decodeGroups, if_neg hb, hread, Option.map_some]

theorem takes_decodeVarint {bs rest : Bytes} {v : Nat} (h : decodeVarint bs = some (v, rest)) :
    Takes decodeVarint (fun rest => some (v, rest)) bs rest := by
  obtain ⟨⟨n, rest'⟩, hn, hp⟩ := Option.map_eq_some_iff.mp h
  obtain ⟨rfl, rfl⟩ := Prod.mk.inj hp
  obtain ⟨-, used, rfl, hread⟩ := takes_decodeGroups hn
  refine ⟨used, rfl, fun more => ?_⟩
  rw [decodeVarint, hread, Option.map_some]

/-- A tag takes a byte at least. -/
theorem takes_readTag {bs rest : Bytes} {number wireType : Nat}
    (h : readTag bs = some (number, wireType, rest)) :
    rest.length < bs.length ∧
      Takes readTag (fun rest => some (number, wireType, rest)) bs rest := by
  obtain ⟨⟨n, rest'⟩, hn, hp⟩ := Option.bind_eq_some_iff.mp h
  obtain ⟨hlt, used, rfl, hread⟩ := takes_decodeGroups hn
  simp only at hp
  split at hp
  · cases hp
  · rename_i hnumber
    obtain ⟨rfl, htype⟩ := Prod.mk.inj (Option.some.inj hp)
    obtain ⟨rfl, rfl⟩ := Prod.mk.inj htype
    refine ⟨hlt, used, rfl, fun more => ?_⟩
    rw [readTag, hread, Option.bind_some]
    exact if_neg hnumber

theorem takes_readLe {k : Nat} {mk : Nat → WireValue} {bs rest : Bytes} {v : WireValue}
    (h : readLe k mk bs = .field v rest) : Takes (readLe k mk) (.field v) bs rest := by
  rw [readLe] at h
  split at h
  · rename_i hk
    obtain ⟨rfl, rfl⟩ := ReadResult.field.inj h
    have hlen : (bs.take k).length = k := List.length_take_of_le hk
    refine ⟨bs.take k, (List.take_append_drop k bs).symm, fun more => ?_⟩
    rw [readLe, if_pos (by rw [List.length_append, hlen]; exact Nat.le_add_right _ _),
      List.take_left' hlen, List.drop_left' hlen]
  · cases h

theorem takes_readSize {bs rest : Bytes} {n : Nat} (h : readSize bs = some (n, rest)) :
    Takes readSize (fun rest => some (n, rest)) bs rest := by
  obtain ⟨hn, hlt⟩ := Option.filter_eq_some_iff.mp h
  obtain ⟨-, used, rfl, hread⟩ := takes_decodeGroups hn
  refine ⟨used, rfl, fun more => ?_⟩
  rw [readSize, hread, Option.filter_some, if_pos hlt]

theorem takes_readLen {bs rest : Bytes} {v : WireValue} (h : readLen bs = .field v rest) :
    Takes readLen (.field v) bs rest := by
  unfold readLen at h
  split at h
  · cases h
  · rename_i n rest' hsize
    split at h
    · rename_i hn
      obtain ⟨rfl, rfl⟩ := ReadResult.field.inj h
      obtain ⟨used, rfl, hread⟩ := takes_readSize hsize
      have hlen : (rest'.take n).length = n := List.length_take_of_le hn
      refine ⟨used ++ rest'.take n, ?_, fun more => ?_⟩
      · rw [List.append_assoc, List.take_append_drop]
      · simp only [readLen, List.append_assoc, hread]
        rw [if_pos (by rw [List.length_append, hlen]; exact Nat.le_add_right _ _),
          List.take_left' hlen, List.drop_left' hlen]
    · cases h

theorem takes_readScalar {wireType : Nat} {bs rest : Bytes} {v : WireValue}
    (h : readScalar wireType bs = .field v rest) :
    Takes (readScalar wireType) (.field v) bs rest := by
  unfold readScalar at h
  split at h
  · split at h
    · cases h
    · rename_i n rest' hn
      obtain ⟨rfl, rfl⟩ := ReadResult.field.inj h
      obtain ⟨used, rfl, hread⟩ := takes_decodeVarint hn
      refine ⟨used, rfl, fun more => ?_⟩
      simp only [readScalar, hread]
  · exact takes_readLe h
  · exact takes_readLen h
  · exact takes_readLe h
  · cases h

/-! ## Groups -/

/-- Skipping to the end of a group needs no more fuel than there are bytes to skip. -/
theorem takes_skipGroup {fuel : Nat} :
    ∀ {depth deepest : Nat} {open₀ : List Nat} {bs rest : Bytes},
      skipGroup fuel depth open₀ bs = some (deepest, rest) →
        ∃ used, bs = used ++ rest ∧ ∀ more fuel', used.length ≤ fuel' →
          skipGroup fuel' depth open₀ (used ++ more) = some (deepest, more) := by
  induction fuel with
  | zero =>
    intro depth deepest open₀ bs rest h
    cases open₀ with
    | nil =>
      obtain ⟨rfl, rfl⟩ := Prod.mk.inj (Option.some.inj h)
      exact ⟨[], rfl, fun more fuel' _ => by rw [skipGroup]; rfl⟩
    | cons number open₀ => cases h
  | succ fuel ih =>
    intro depth deepest open₀ bs rest h
    cases open₀ with
    | nil =>
      obtain ⟨rfl, rfl⟩ := Prod.mk.inj (Option.some.inj h)
      exact ⟨[], rfl, fun more fuel' _ => by rw [skipGroup]; rfl⟩
    | cons number₀ open₀ =>
      rw [skipGroup] at h
      split at h
      · cases h
      · rename_i number wireType rest₁ htag
        obtain ⟨hlt, tag, rfl, hread⟩ := takes_readTag htag
        have hpos : 1 ≤ tag.length := by
          rw [List.length_append] at hlt
          omega
        -- each of the three cases goes on behind the tag with one unit of fuel less
        have hnext : ∀ {depth₁ : Nat} {open₁ : List Nat} {front : Bytes},
            (∃ used, rest₁ = front ++ (used ++ rest) ∧ ∀ more fuel', used.length ≤ fuel' →
              skipGroup (fuel' + 1) depth (number₀ :: open₀) (tag ++ (front ++ (used ++ more))) =
                skipGroup fuel' depth₁ open₁ (used ++ more) ∧
              skipGroup fuel' depth₁ open₁ (used ++ more) = some (deepest, more)) →
            ∃ used, tag ++ rest₁ = used ++ rest ∧ ∀ more fuel', used.length ≤ fuel' →
              skipGroup fuel' depth (number₀ :: open₀) (used ++ more) = some (deepest, more) := by
          rintro depth₁ open₁ front ⟨used, rfl, hskip⟩
          refine ⟨tag ++ (front ++ used), by simp, fun more fuel' hfuel => ?_⟩
          obtain ⟨fuel', rfl⟩ : ∃ n, fuel' = n + 1 :=
            ⟨fuel' - 1, by simp only [List.length_append] at hfuel; omega⟩
          obtain ⟨hstep, hrest⟩ := hskip more fuel' (by
            simp only [List.length_append] at hfuel
            omega)
          rw [List.append_assoc, List.append_assoc, hstep, hrest]
        split at h
        · rename_i hstart
          obtain ⟨used, rfl, hskip⟩ := ih h
          refine @hnext (max depth (open₀.length + 2)) (number :: number₀ :: open₀) []
            ⟨used, rfl, fun more fuel' hfuel => ?_⟩
          refine ⟨?_, hskip more fuel' hfuel⟩
          rw [skipGroup, List.nil_append, hread]
          exact if_pos hstart
        · rename_i hstart
          split at h
          · rename_i hend
            split at h
            · rename_i hnumber
              obtain ⟨used, rfl, hskip⟩ := ih h
              refine @hnext depth open₀ [] ⟨used, rfl, fun more fuel' hfuel => ?_⟩
              refine ⟨?_, hskip more fuel' hfuel⟩
              rw [skipGroup, List.nil_append, hread]
              simp only [if_neg hstart, if_pos hend, if_pos hnumber]
            · cases h
          · rename_i hend
            split at h
            · rename_i v rest₂ hscalar
              obtain ⟨front, rfl, hvalue⟩ := takes_readScalar hscalar
              obtain ⟨used, rfl, hskip⟩ := ih h
              refine @hnext depth (number₀ :: open₀) front ⟨used, rfl, fun more fuel' hfuel => ?_⟩
              refine ⟨?_, hskip more fuel' hfuel⟩
              rw [skipGroup, hread]
              simp only [if_neg hstart, if_neg hend, hvalue]
            · cases h

theorem takes_readValue {number wireType : Nat} {bs rest : Bytes} {v : WireValue}
    (h : readValue number wireType bs = .field v rest) :
    Takes (readValue number wireType) (.field v) bs rest := by
  unfold readValue at h
  split at h
  · rename_i hgroup
    split at h
    · rename_i deepest rest' hskip
      obtain ⟨rfl, rfl⟩ := ReadResult.field.inj h
      obtain ⟨used, rfl, hread⟩ := takes_skipGroup hskip
      refine ⟨used, rfl, fun more => ?_⟩
      rw [readValue, if_pos hgroup,
        hread more _ (by rw [List.length_append]; exact Nat.le_add_right _ _)]
    · cases h
  · rename_i hscalar
    obtain ⟨used, rfl, hread⟩ := takes_readScalar h
    refine ⟨used, rfl, fun more => ?_⟩
    rw [readValue, if_neg hscalar, hread]

/-! ## Fields -/

/-- Fuel beyond the length of the input makes no difference. -/
theorem readFieldsFrom_of_le {k : Nat} :
    ∀ {fuel fuel' : Nat} {bs : Bytes}, bs.length ≤ k → bs.length ≤ fuel → bs.length ≤ fuel' →
      readFieldsFrom fuel bs = readFieldsFrom fuel' bs := by
  induction k with
  | zero =>
    intro fuel fuel' bs hk _ _
    obtain rfl := List.length_eq_zero_iff.mp (Nat.le_zero.mp hk)
    rw [readFieldsFrom, readFieldsFrom]
  | succ k ih =>
    intro fuel fuel' bs hk hfuel hfuel'
    cases bs with
    | nil => rw [readFieldsFrom, readFieldsFrom]
    | cons b bs =>
      obtain ⟨fuel, rfl⟩ : ∃ n, fuel = n + 1 := ⟨fuel - 1, by simp at hfuel; omega⟩
      obtain ⟨fuel', rfl⟩ : ∃ n, fuel' = n + 1 := ⟨fuel' - 1, by simp at hfuel'; omega⟩
      rw [readFieldsFrom, readFieldsFrom]
      cases htag : readTag (b :: bs) with
      | none => rfl
      | some p =>
        obtain ⟨number, wireType, rest⟩ := p
        have hlt := (takes_readTag htag).1
        cases hvalue : readValue number wireType rest with
        | bad => simp only [hvalue]
        | cut v => simp only [hvalue]
        | field v rest' =>
          have hle := (takes_readValue hvalue).length_le
          simp only [List.length_cons] at hlt hk hfuel hfuel'
          have hrest : readFieldsFrom fuel rest' = readFieldsFrom fuel' rest' :=
            ih (by omega) (by omega) (by omega)
          simp only [hvalue, hrest]

theorem readFieldsFrom_append {fuel : Nat} (more : Bytes) :
    ∀ {bs : Bytes} {fs : List Field}, readFieldsFrom fuel bs = (fs, true) →
      ∀ fuel', bs.length + more.length ≤ fuel' →
        readFieldsFrom fuel' (bs ++ more) = (fs ++ (readFields more).1, (readFields more).2) := by
  induction fuel with
  | zero =>
    intro bs fs h fuel' hfuel
    cases bs with
    | nil =>
      rw [readFieldsFrom] at h
      obtain rfl := congrArg Prod.fst h
      exact readFieldsFrom_of_le (Nat.le_refl _) (by simpa using hfuel) (Nat.le_refl _)
    | cons b bs => cases h
  | succ fuel ih =>
    intro bs fs h fuel' hfuel
    cases bs with
    | nil =>
      rw [readFieldsFrom] at h
      obtain rfl := congrArg Prod.fst h
      exact readFieldsFrom_of_le (Nat.le_refl _) (by simpa using hfuel) (Nat.le_refl _)
    | cons b bs =>
      obtain ⟨fuel', rfl⟩ : ∃ n, fuel' = n + 1 := ⟨fuel' - 1, by simp at hfuel; omega⟩
      rw [readFieldsFrom] at h
      split at h
      · cases h
      · rename_i number wireType rest htag
        obtain ⟨hlt, htagTakes⟩ := takes_readTag htag
        split at h
        · cases h
        · cases h
        · rename_i v rest' hvalue
          obtain ⟨hfields, hok⟩ := Prod.mk.inj h
          have hle := (takes_readValue hvalue).length_le
          have hrest := ih (Prod.ext rfl hok) fuel' (by
            simp only [List.length_cons] at hlt hfuel
            omega)
          have htag' := htagTakes.append more
          have hvalue' := (takes_readValue hvalue).append more
          rw [List.cons_append] at htag' ⊢
          rw [readFieldsFrom, htag']
          simp only [hvalue', hrest, ← hfields, List.cons_append]

/-- **The fields of a well-formed string come in front of those of any other.** -/
theorem readFields_append {bs : Bytes} {fs : List Field} (h : readFields bs = (fs, true))
    (more : Bytes) :
    readFields (bs ++ more) = (fs ++ (readFields more).1, (readFields more).2) :=
  readFieldsFrom_append more h _ (by rw [List.length_append])

/-! ## Messages -/

namespace Schema

variable {M : Type} {S : Schema M}

/-- **To parse two strings in a row is to parse their concatenation**, if the first is well
formed. -/
theorem parseInto_append {m m' : M} {bs : Bytes} (h : S.parseInto m bs = (m', true))
    (more : Bytes) : S.parseInto m (bs ++ more) = S.parseInto m' more := by
  obtain ⟨hm, hok⟩ := Prod.mk.inj h
  rw [Bool.and_eq_true] at hok
  have hread : readFields bs = ((readFields bs).1, true) := Prod.ext rfl hok.2
  have hmerged : S.mergeFields m (readFields bs).1 = (m', true) := Prod.ext hm hok.1
  simp only [parseInto, readFields_append hread, mergeFields_append _ hmerged]

theorem parse_append {m : M} {bs : Bytes} (h : S.parse bs = (m, true)) (more : Bytes) :
    S.parse (bs ++ more) = S.parseInto m more := parseInto_append h more

/-- The class merges messages: the fields of `m₂` turn `m₁` into `mergeFrom m₁ m₂`. The messages
are those of which `P` holds. -/
structure Merges (S : Schema M) (mergeFrom : M → M → M) (P : M → Prop) : Prop where
  fits : ∀ m, P m → ∀ f ∈ S.fields m, f.Fits
  mergeFields_eq : ∀ m₁ m₂, P m₂ → S.mergeFields m₁ (S.fields m₂) = (mergeFrom m₁ m₂, true)

namespace Merges

variable {mergeFrom : M → M → M} {P : M → Prop} (h : S.Merges mergeFrom P)

include h

theorem parseInto_encode (m₁ : M) {m₂ : M} (hm : P m₂) :
    S.parseInto m₁ (S.encode m₂) = (mergeFrom m₁ m₂, true) := by
  simp only [parseInto, encode, readFields_encodeFields (h.fits m₂ hm), h.mergeFields_eq m₁ m₂ hm,
    Bool.and_self]

theorem parseInto_flatMap {ms : List M} :
    ∀ {m : M}, (∀ m' ∈ ms, P m') →
      S.parseInto m (ms.flatMap S.encode) = (ms.foldl mergeFrom m, true) := by
  induction ms with
  | nil => exact fun _ => rfl
  | cons m₁ ms ih =>
    intro m hms
    rw [List.flatMap_cons, List.foldl_cons,
      parseInto_append (h.parseInto_encode m (hms m₁ List.mem_cons_self)),
      ih fun m' hm' => hms m' (List.mem_cons_of_mem _ hm')]

/-- **The bytes of some messages in a row are those of their merge.** -/
theorem parse_flatMap {ms : List M} (hms : ∀ m ∈ ms, P m) :
    S.parse (ms.flatMap S.encode) = (ms.foldl mergeFrom S.empty, true) := h.parseInto_flatMap hms

end Merges

end Schema

end Protobuf
