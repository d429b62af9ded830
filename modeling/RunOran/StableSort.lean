import Mathlib.Data.List.Sort
import Mathlib.Data.List.Nodup
import Mathlib.Data.List.Induction

/-!
# Stable sorting by a key

`sortByKey` sorts a list by a key and keeps elements with equal keys in their order.
It is determined by two properties, being sorted and having, for every key, the same
elements with that key as before (`eq_of_sorted_of_filter_eq`), so a program that
groups by key and concatenates the groups in key order has computed it: `flatMap_groups`.

`groupBy` is such a program, with an ordered map from names to groups
(`grouped[name].push_back(element)` for each element), and `flatMap_toList_groupBy` is
the result for it.
-/

namespace StableSort

variable {α κ : Type*} [LinearOrder κ] (key : α → κ)

/-- The elements with a given key, in order. -/
def withKey (k : κ) (l : List α) : List α := l.filter fun a => key a = k

/-- Stable sort by key. -/
def sortByKey (l : List α) : List α := l.insertionSort fun a b => key a ≤ key b

variable {key}

theorem key_of_mem_withKey {k : κ} {l : List α} {a : α} (h : a ∈ withKey key k l) :
    key a = k := by
  simpa using (List.mem_filter.mp h).2

@[simp] theorem withKey_cons_self (a : α) (l : List α) :
    withKey key (key a) (a :: l) = a :: withKey key (key a) l :=
  List.filter_cons_of_pos (by simp)

theorem withKey_cons_ne {a : α} {k : κ} (l : List α) (h : key a ≠ k) :
    withKey key k (a :: l) = withKey key k l :=
  List.filter_cons_of_neg (by simpa using h)

@[simp] theorem withKey_append (k : κ) (l₁ l₂ : List α) :
    withKey key k (l₁ ++ l₂) = withKey key k l₁ ++ withKey key k l₂ := List.filter_append ..

theorem withKey_eq_self {k : κ} {l : List α} (h : ∀ a ∈ l, key a = k) : withKey key k l = l :=
  List.filter_eq_self.mpr fun a ha => by simpa using h a ha

theorem withKey_eq_nil {k : κ} {l : List α} (h : ∀ a ∈ l, key a ≠ k) : withKey key k l = [] :=
  List.filter_eq_nil_iff.mpr fun a ha => by simpa using h a ha

/-- A sorted list whose head key is larger than `k` holds nothing with key `k`. -/
theorem withKey_eq_nil_of_lt {k : κ} {a : α} {l : List α}
    (hsorted : (a :: l).Pairwise fun x y => key x ≤ key y) (h : k < key a) :
    withKey key k (a :: l) = [] := by
  apply withKey_eq_nil
  intro b hb
  rcases List.mem_cons.mp hb with rfl | hb
  · exact h.ne'
  · exact (lt_of_lt_of_le h ((List.pairwise_cons.mp hsorted).1 b hb)).ne'

/-- A sorted list is determined by its elements under each key, in order. By
induction on one list: its head has the least key, so it heads the other one too. -/
theorem eq_of_sorted_of_filter_eq :
    ∀ {l₁ l₂ : List α}, l₁.Pairwise (fun x y => key x ≤ key y) →
      l₂.Pairwise (fun x y => key x ≤ key y) →
      (∀ k, withKey key k l₁ = withKey key k l₂) → l₁ = l₂ := by
  intro l₁
  induction l₁ with
  | nil =>
    intro l₂ _ _ h
    cases l₂ with
    | nil => rfl
    | cons b l₂ =>
      have hb := h (key b)
      rw [withKey_cons_self] at hb
      cases hb
  | cons a l₁ ih =>
    intro l₂ h₁ h₂ h
    cases l₂ with
    | nil =>
      have ha := h (key a)
      rw [withKey_cons_self] at ha
      cases ha
    | cons b l₂ =>
      -- a smaller head would have a key that the other list does not have
      have hkey : key a = key b := by
        rcases lt_trichotomy (key a) (key b) with hlt | heq | hgt
        · have ha := h (key a)
          rw [withKey_cons_self, withKey_eq_nil_of_lt h₂ hlt] at ha
          cases ha
        · exact heq
        · have hb := h (key b)
          rw [withKey_cons_self, withKey_eq_nil_of_lt h₁ hgt] at hb
          cases hb
      have hhead := h (key a)
      rw [withKey_cons_self, hkey, withKey_cons_self] at hhead
      obtain ⟨rfl, -⟩ := List.cons.inj hhead
      refine congrArg (a :: ·) (ih h₁.of_cons h₂.of_cons fun k => ?_)
      by_cases hk : key a = k
      · have hcons := h k
        rw [← hk, withKey_cons_self, withKey_cons_self] at hcons
        rw [← hk]
        exact (List.cons.inj hcons).2
      · have hcons := h k
        rwa [withKey_cons_ne l₁ hk, withKey_cons_ne l₂ hk] at hcons

theorem total_key (key : α → κ) : Std.Total fun a b : α => key a ≤ key b :=
  ⟨fun a b => le_total (key a) (key b)⟩

theorem trans_key (key : α → κ) : IsTrans α fun a b => key a ≤ key b :=
  ⟨fun _ _ _ => le_trans⟩

theorem sorted_sortByKey (l : List α) :
    (sortByKey key l).Pairwise fun x y => key x ≤ key y := by
  have := total_key key
  have := trans_key key
  exact List.pairwise_insertionSort _ l

variable (key) in
/-- Sorting permutes. -/
theorem sortByKey_perm (l : List α) : (sortByKey key l).Perm l := List.perm_insertionSort _ l

variable (key) in
/-- Stability: under each key, sorting changes nothing. -/
@[simp] theorem withKey_sortByKey (k : κ) (l : List α) :
    withKey key k (sortByKey key l) = withKey key k l := by
  have := total_key key
  have := trans_key key
  have hsub : (withKey key k l).Sublist (sortByKey key l) := by
    refine List.sublist_insertionSort ?_ List.filter_sublist
    apply List.pairwise_of_forall_mem_list
    intro a ha b hb
    rw [key_of_mem_withKey ha, key_of_mem_withKey hb]
  have hsub' := hsub.filter fun a => key a = k
  have hself : (withKey key k l).filter (fun a => key a = k) = withKey key k l :=
    withKey_eq_self fun a ha => key_of_mem_withKey ha
  have hlen : (withKey key k (sortByKey key l)).length = (withKey key k l).length :=
    ((sortByKey_perm key l).filter _).length_eq
  rw [hself] at hsub'
  exact (hsub'.eq_of_length hlen.symm).symm

/-- With distinct keys the result does not depend on the order of the list. -/
theorem sortByKey_congr {l l' : List α} (hperm : l.Perm l')
    (hinj : ∀ a ∈ l, ∀ b ∈ l, key a = key b → a = b) : sortByKey key l = sortByKey key l' := by
  have hsorted := (sortByKey_perm key l).trans (hperm.trans (sortByKey_perm key l').symm)
  refine hsorted.eq_of_pairwise (fun a b ha hb hab hba => ?_) (sorted_sortByKey l)
    (sorted_sortByKey l')
  have ha' : a ∈ l := (sortByKey_perm key l).mem_iff.mp ha
  have hb' : b ∈ l := hperm.mem_iff.mpr ((sortByKey_perm key l').mem_iff.mp hb)
  exact hinj a ha' b hb' (le_antisymm hab hba)

/-- A list that is already sorted is left alone. -/
theorem sortByKey_of_sorted {l : List α} (h : l.Pairwise fun x y => key x ≤ key y) :
    sortByKey key l = l :=
  eq_of_sorted_of_filter_eq (sorted_sortByKey l) h fun k => withKey_sortByKey key k l

/-- From the concatenation of groups under distinct keys, each group is recovered. -/
theorem withKey_flatMap_groups {groups : List (κ × List α)} {p : κ × List α}
    (hkeys : groups.Pairwise fun p q => p.1 < q.1)
    (hmem : ∀ p ∈ groups, ∀ a ∈ p.2, key a = p.1) (hp : p ∈ groups) :
    withKey key p.1 (groups.flatMap Prod.snd) = p.2 := by
  induction groups with
  | nil => cases hp
  | cons g gs ih =>
    obtain ⟨hhead, htail⟩ := List.pairwise_cons.mp hkeys
    rw [List.flatMap_cons, withKey_append]
    rcases List.mem_cons.mp hp with rfl | hp
    · rw [withKey_eq_self (hmem p (List.mem_cons_self ..)), withKey_eq_nil, List.append_nil]
      intro a ha
      obtain ⟨q, hq, haq⟩ := List.mem_flatMap.mp ha
      rw [hmem q (List.mem_cons_of_mem _ hq) a haq]
      exact (hhead q hq).ne'
    · rw [withKey_eq_nil (l := g.2), List.nil_append,
        ih htail (fun q hq => hmem q (List.mem_cons_of_mem _ hq)) hp]
      intro a ha
      rw [hmem g (List.mem_cons_self ..) a ha]
      exact (hhead p hp).ne

/-- **Grouping sorts.** Groups under strictly ascending keys, each holding the
elements of `l` with its key and none missing, concatenate to the stable sort of `l`. -/
theorem flatMap_groups {l : List α} {groups : List (κ × List α)}
    (hkeys : groups.Pairwise fun p q => p.1 < q.1)
    (hgroup : ∀ p ∈ groups, p.2 = withKey key p.1 l)
    (hcover : ∀ a ∈ l, ∃ p ∈ groups, p.1 = key a) :
    groups.flatMap Prod.snd = sortByKey key l := by
  have hmem : ∀ p ∈ groups, ∀ a ∈ p.2, key a = p.1 := by
    intro p hp a ha
    rw [hgroup p hp] at ha
    exact key_of_mem_withKey ha
  have hsorted : (groups.flatMap Prod.snd).Pairwise fun x y => key x ≤ key y := by
    rw [List.pairwise_flatMap]
    refine ⟨fun p hp => List.pairwise_of_forall_mem_list fun a ha b hb => ?_,
      hkeys.imp_of_mem fun {p q} hp hq hlt a ha b hb => ?_⟩
    · rw [hmem p hp a ha, hmem p hp b hb]
    · rw [hmem p hp a ha, hmem q hq b hb]
      exact hlt.le
  apply eq_of_sorted_of_filter_eq hsorted (sorted_sortByKey l)
  intro k
  rw [withKey_sortByKey]
  by_cases hk : ∃ p ∈ groups, p.1 = k
  · obtain ⟨p, hp, rfl⟩ := hk
    rw [withKey_flatMap_groups hkeys hmem hp, ← hgroup p hp]
  · rw [withKey_eq_nil, withKey_eq_nil]
    · rintro a ha rfl
      exact hk (hcover a ha)
    · intro a ha hak
      obtain ⟨p, hp, hap⟩ := List.mem_flatMap.mp ha
      exact hk ⟨p, hp, (hmem p hp a hap).symm.trans hak⟩

/-! ## Grouping in an ordered map -/

section Grouping

variable {β : Type*} {cmp : β → β → Ordering} [Std.TransCmp cmp]

variable (cmp) in
/-- Append each element to the group of its name. -/
def groupBy (name : α → β) (l : List α) : Std.ExtTreeMap β (List α) cmp :=
  l.foldl (fun groups a => groups.insert (name a) (groups.getD (name a) [] ++ [a])) ∅

theorem groupBy_concat (name : α → β) (l : List α) (a : α) :
    groupBy cmp name (l ++ [a]) =
      (groupBy cmp name l).insert (name a) ((groupBy cmp name l).getD (name a) [] ++ [a]) := by
  rw [groupBy, List.foldl_append, List.foldl_cons, List.foldl_nil, groupBy]

variable [Std.LawfulEqCmp cmp]

theorem mem_groupBy {name : α → β} {l : List α} {k : β} :
    k ∈ groupBy cmp name l ↔ ∃ a ∈ l, name a = k := by
  induction l using List.reverseRecOn with
  | nil => simp [groupBy]
  | append_singleton l a ih =>
    rw [groupBy_concat, Std.ExtTreeMap.mem_insert, Std.LawfulEqCmp.compare_eq_iff_eq, ih]
    refine ⟨?_, ?_⟩
    · rintro (rfl | ⟨b, hb, rfl⟩)
      · exact ⟨a, by simp, rfl⟩
      · exact ⟨b, by simp [hb], rfl⟩
    · rintro ⟨b, hb, rfl⟩
      rcases List.mem_append.mp hb with hb | hb
      · exact Or.inr ⟨b, hb, rfl⟩
      · rw [List.mem_singleton.mp hb]
        exact Or.inl rfl

variable [DecidableEq β]

theorem getD_groupBy (name : α → β) (l : List α) (k : β) :
    (groupBy cmp name l).getD k [] = l.filter fun a => name a = k := by
  induction l using List.reverseRecOn with
  | nil => simp [groupBy]
  | append_singleton l a ih =>
    rw [groupBy_concat, Std.ExtTreeMap.getD_insert, List.filter_append]
    by_cases h : name a = k
    · subst h
      rw [if_pos (Std.LawfulEqCmp.compare_eq_iff_eq.mpr rfl), ih]
      simp
    · rw [if_neg (mt Std.LawfulEqCmp.compare_eq_iff_eq.mp h), ih]
      simp [h]

/-- The group of a name, if there is one: the elements with that name, in order. -/
theorem getElem?_groupBy (name : α → β) (l : List α) (k : β) :
    (groupBy cmp name l)[k]? =
      if ∃ a ∈ l, name a = k then some (l.filter fun a => name a = k) else none := by
  split
  · rename_i h
    have hmem : k ∈ groupBy cmp name l := mem_groupBy.mpr h
    rw [Std.ExtTreeMap.getElem?_eq_some_getElem hmem, Std.ExtTreeMap.getElem_eq_getD [],
      getD_groupBy]
  · rename_i h
    exact Std.ExtTreeMap.getElem?_eq_none (mt mem_groupBy.mp h)

/-- The groups only depend on the elements under each name. -/
theorem groupBy_congr {name : α → β} {l l' : List α}
    (h : ∀ k, (l.filter fun a => name a = k) = l'.filter fun a => name a = k) :
    groupBy cmp name l = groupBy cmp name l' := by
  have hmem : ∀ k, (∃ a ∈ l, name a = k) ↔ ∃ a ∈ l', name a = k := by
    intro k
    have hex : ∀ m : List α, (∃ a ∈ m, name a = k) ↔ (m.filter fun a => name a = k) ≠ [] := by
      simp [List.filter_eq_nil_iff]
    rw [hex, hex, h]
  refine Std.ExtTreeMap.ext_getElem? fun k => ?_
  rw [getElem?_groupBy, getElem?_groupBy, h k]
  simp only [hmem k]

/-- Changing the elements but not their names changes the elements of the groups. -/
theorem groupBy_map {α' : Type*} {name : α → β} {name' : α' → β} {f : α → α'} (l : List α)
    (hname : ∀ a, name' (f a) = name a) :
    groupBy cmp name' (l.map f) = (groupBy cmp name l).map fun _ => List.map f := by
  have hfilter : ∀ k, ((l.map f).filter fun a => name' a = k) =
      (l.filter fun a => name a = k).map f := by
    intro k
    rw [List.filter_map]
    simp only [Function.comp_def, hname]
  refine Std.ExtTreeMap.ext_getElem? fun k => ?_
  rw [Std.ExtTreeMap.getElem?_map, getElem?_groupBy, getElem?_groupBy, hfilter]
  have hex : (∃ a ∈ l.map f, name' a = k) ↔ ∃ a ∈ l, name a = k := by
    simp only [List.mem_map, exists_exists_and_eq_and, hname]
  simp only [hex]
  split <;> rfl

variable (cmp) in
/-- **Concatenating the groups in map order sorts**, where `rank` is the order of the
map as a linear order. -/
theorem flatMap_toList_groupBy {rank : β → κ} (hinj : Function.Injective rank)
    (hrank : ∀ a b, cmp a b = .lt → rank a < rank b) (name : α → β) (l : List α) :
    (groupBy cmp name l).toList.flatMap Prod.snd = sortByKey (fun a => rank (name a)) l := by
  have hgroup : ∀ p ∈ (groupBy cmp name l).toList,
      p.2 = l.filter (fun a => name a = p.1) ∧ ∃ a ∈ l, name a = p.1 := by
    rintro ⟨k, group⟩ hp
    rw [Std.ExtTreeMap.mem_toList_iff_getElem?_eq_some, getElem?_groupBy] at hp
    split at hp
    · rename_i h
      exact ⟨(Option.some.inj hp).symm, h⟩
    · cases hp
  have hflat : ((groupBy cmp name l).toList.map fun p => (rank p.1, p.2)).flatMap Prod.snd =
      sortByKey (fun a => rank (name a)) l := by
    refine flatMap_groups ?_ ?_ ?_
    · rw [List.pairwise_map]
      exact Std.ExtTreeMap.ordered_keys_toList.imp fun {p q} h => hrank p.1 q.1 h
    · intro p hp
      obtain ⟨q, hq, rfl⟩ := List.mem_map.mp hp
      rw [(hgroup q hq).1, withKey]
      simp only [hinj.eq_iff]
    · intro a ha
      refine ⟨(rank (name a), (l.filter fun b => name b = name a)),
        List.mem_map.mpr ⟨(name a, l.filter fun b => name b = name a), ?_, rfl⟩, rfl⟩
      rw [Std.ExtTreeMap.mem_toList_iff_getElem?_eq_some, getElem?_groupBy, if_pos ⟨a, ha, rfl⟩]
  rw [← hflat, List.flatMap_map]

end Grouping

end StableSort
