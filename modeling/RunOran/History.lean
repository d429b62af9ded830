import Mathlib.Data.List.Induction

/-!
# The latest event of a kind

A history is a list of events, the oldest one first. Where a store keeps what was written last,
its content is a function of the history: `latest p es` is the last event of `es` of the kind
`p`, with its position, and `latestSince stop p es` is the last one of those after the last
event of the kind `stop`. Each follows a history event by event (`latest_concat`,
`latestSince_concat`), which is how an invariant about it goes through a run; the positions
tell when two stores hold the same event (`latest_eq_some_iff`).
-/

namespace History

variable {ε : Type*}

/-- The last event of the kind `p`, and its position. -/
def latest (p : ε → Bool) (es : List ε) : Option (ε × Nat) :=
  es.zipIdx.reverse.find? fun q => p q.1

/-- The last event of the kind `p` after the last one of the kind `stop`. An event of both
kinds counts as a stop. -/
def latestSince (stop p : ε → Bool) (es : List ε) : Option (ε × Nat) :=
  (latest (fun e => stop e || p e) es).filter fun q => !stop q.1

@[simp] theorem latest_nil (p : ε → Bool) : latest p [] = none := rfl

@[simp] theorem latestSince_nil (stop p : ε → Bool) : latestSince stop p [] = none := rfl

theorem latest_concat (p : ε → Bool) (es : List ε) (e : ε) :
    latest p (es ++ [e]) = if p e then some (e, es.length) else latest p es := by
  rw [latest, List.zipIdx_append, List.reverse_append, List.zipIdx_singleton,
    List.reverse_singleton, List.singleton_append, List.find?_cons, Nat.zero_add, latest]
  cases p e <;> rfl

theorem latestSince_concat (stop p : ε → Bool) (es : List ε) (e : ε) :
    latestSince stop p (es ++ [e]) =
      if stop e then none else if p e then some (e, es.length) else latestSince stop p es := by
  rw [latestSince, latest_concat]
  cases hstop : stop e with
  | true => simp [hstop]
  | false =>
    cases p e with
    | true => simp [hstop]
    | false => simp [latestSince]

theorem getElem?_concat_eq_some {es : List ε} {last e : ε} {i : Nat} :
    (es ++ [last])[i]? = some e ↔ es[i]? = some e ∨ i = es.length ∧ last = e := by
  rcases Nat.lt_trichotomy i es.length with hlt | rfl | hgt
  · rw [List.getElem?_append_left hlt]
    exact ⟨Or.inl, fun h => h.resolve_right fun hlast => Nat.ne_of_lt hlt hlast.1⟩
  · simp
  · have hnone : es[i]? = none := List.getElem?_eq_none (Nat.le_of_lt hgt)
    have hnone' : (es ++ [last])[i]? = none := List.getElem?_eq_none (by simp; omega)
    rw [hnone, hnone']
    refine ⟨Or.inl, ?_⟩
    rintro (h | ⟨hi, -⟩)
    · cases h
    · exact absurd hi (Nat.ne_of_gt hgt)

/-- There is a latest event of a kind as soon as there is one. -/
theorem isSome_latest {p : ε → Bool} {es : List ε} {e : ε} (he : e ∈ es) (hp : p e = true) :
    (latest p es).isSome := by
  rw [latest, List.find?_isSome]
  obtain ⟨i, hi⟩ := List.getElem?_of_mem he
  refine ⟨(e, i), ?_, hp⟩
  rw [List.mem_reverse]
  exact List.mk_mem_zipIdx_iff_getElem?.mpr hi

/-- **What is latest** is of the kind, and nothing of the kind comes after it. -/
theorem latest_eq_some_iff {p : ε → Bool} {es : List ε} {e : ε} {i : Nat} :
    latest p es = some (e, i) ↔
      es[i]? = some e ∧ p e = true ∧ ∀ j f, i < j → es[j]? = some f → p f = false := by
  induction es using List.reverseRecOn generalizing e i with
  | nil => simp
  | append_singleton es last ih =>
    rw [latest_concat, getElem?_concat_eq_some]
    simp only [getElem?_concat_eq_some]
    cases hlast : p last with
    | true =>
      rw [if_pos rfl, Option.some_inj, Prod.mk.injEq]
      refine ⟨?_, ?_⟩
      · rintro ⟨rfl, rfl⟩
        refine ⟨Or.inr ⟨rfl, rfl⟩, hlast, fun j f hj h => ?_⟩
        rcases h with h | ⟨rfl, -⟩
        · rw [List.getElem?_eq_none (Nat.le_of_lt hj)] at h
          cases h
        · exact absurd hj (Nat.lt_irrefl _)
      · rintro ⟨h | ⟨rfl, rfl⟩, -, hafter⟩
        · -- the last event would come after it
          have hlt := (List.getElem?_eq_some_iff.mp h).1
          rw [hafter es.length last hlt (Or.inr ⟨rfl, rfl⟩)] at hlast
          cases hlast
        · exact ⟨rfl, rfl⟩
    | false =>
      rw [if_neg Bool.false_ne_true, ih]
      refine ⟨?_, ?_⟩
      · rintro ⟨h, hp, hafter⟩
        refine ⟨Or.inl h, hp, fun j f hj hf => ?_⟩
        rcases hf with hf | ⟨-, rfl⟩
        · exact hafter j f hj hf
        · exact hlast
      · rintro ⟨h | ⟨-, rfl⟩, hp, hafter⟩
        · exact ⟨h, hp, fun j f hj hf => hafter j f hj (Or.inl hf)⟩
        · rw [hlast] at hp
          cases hp

theorem lt_length_of_latest {p : ε → Bool} {es : List ε} {e : ε} {i : Nat}
    (h : latest p es = some (e, i)) : i < es.length :=
  (List.getElem?_eq_some_iff.mp (latest_eq_some_iff.mp h).1).1

/-- An event of the kind is not after the latest one. -/
theorem le_of_latest {p : ε → Bool} {es : List ε} {e f : ε} {i j : Nat}
    (h : latest p es = some (e, i)) (hf : es[j]? = some f) (hp : p f = true) : j ≤ i := by
  by_contra hlt
  rw [(latest_eq_some_iff.mp h).2.2 j f (Nat.not_le.mp hlt) hf] at hp
  cases hp

/-- If one has happened since, the latest event is not from before. -/
theorem length_le_of_latest_append {p : ε → Bool} {es fs : List ε} {e f : ε} {i : Nat}
    (h : latest p (es ++ fs) = some (e, i)) (hf : f ∈ fs) (hp : p f = true) : es.length ≤ i := by
  obtain ⟨j, hj⟩ := List.getElem?_of_mem hf
  have hf' : (es ++ fs)[es.length + j]? = some f := by
    rw [List.getElem?_append_right (Nat.le_add_right _ _), Nat.add_sub_cancel_left, hj]
  exact Nat.le_trans (Nat.le_add_right _ _) (le_of_latest h hf' hp)

/-- What is latest since a stop is of the kind. -/
theorem of_latestSince {stop p : ε → Bool} {es : List ε} {e : ε} {i : Nat}
    (h : latestSince stop p es = some (e, i)) : es[i]? = some e ∧ p e = true := by
  rw [latestSince, Option.filter_eq_some_iff] at h
  obtain ⟨hlatest, hkeep⟩ := h
  obtain ⟨hget, hkind, -⟩ := latest_eq_some_iff.mp hlatest
  simp only [Bool.not_eq_true'] at hkeep
  rw [hkeep, Bool.false_or] at hkind
  exact ⟨hget, hkind⟩

/-- And it comes after every stop. -/
theorem lt_of_latestSince {stop p : ε → Bool} {es : List ε} {e f : ε} {i j : Nat}
    (h : latestSince stop p es = some (e, i)) (hf : es[j]? = some f) (hstop : stop f = true) :
    j < i := by
  rw [latestSince, Option.filter_eq_some_iff] at h
  obtain ⟨hlatest, hkeep⟩ := h
  refine Nat.lt_of_le_of_ne (le_of_latest hlatest hf (by simp [hstop])) ?_
  rintro rfl
  -- the event itself is no stop
  have heq : e = f := by
    rw [(latest_eq_some_iff.mp hlatest).1] at hf
    exact Option.some.inj hf
  rw [heq, hstop] at hkeep
  cases hkeep

end History
