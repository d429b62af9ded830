import RunOran.Xapp

/-!
# Assembly at the xApp, over any sequence of messages

A received stream is what triggers an assembly; a reference only waits in the cache. So
what becomes of an occasion, a `(rnti, timestamp)` key, is decided when its last received
stream arrives: if all references are there by then, the snapshot is assembled, and if one
is missing, the streams wait for ever (`occasion_outcome`). The order of the messages
matters in this one respect only, and to each occasion by itself (`delivery_order`).

An occasion is forgotten when its snapshot is assembled. Streams that keep arriving start
it again, so `k` snapshots of an occasion are what `k` times the expected number of
streams can bring about (`snapshots_per_occasion`).
-/

namespace RunOran

open Protobuf

/-! ## Occasions -/

/-- The occasion of a snapshot. -/
def Snapshot.ueKey (s : Snapshot) : UInt32 × UInt64 := (s.rnti, s.timestamp)

/-- The received items of an occasion, in order of arrival. -/
def receivedOf (key : UInt32 × UInt64) (items : List SrsStreamItem) : List SrsStreamItem :=
  items.filter fun item => item.generated = false ∧ item.ueKey = key

/-- Received items as the xApp stores them: by antenna, the last one counts. -/
def streamsOf (items : List SrsStreamItem) : Streams :=
  items.foldl (fun streams item => streams.insert item.antennaId item.srs) ∅

theorem mem_receivedOf {key : UInt32 × UInt64} {items : List SrsStreamItem}
    {item : SrsStreamItem} :
    item ∈ receivedOf key items ↔ item ∈ items ∧ item.generated = false ∧ item.ueKey = key := by
  rw [receivedOf, List.mem_filter, decide_eq_true_eq]

@[simp] theorem receivedOf_append (key : UInt32 × UInt64) (items items' : List SrsStreamItem) :
    receivedOf key (items ++ items') = receivedOf key items ++ receivedOf key items' :=
  List.filter_append ..

theorem receivedOf_singleton (key : UInt32 × UInt64) (item : SrsStreamItem) :
    receivedOf key [item] = if item.generated = false ∧ item.ueKey = key then [item] else [] := by
  simp only [receivedOf, List.filter_cons, List.filter_nil, decide_eq_true_eq]

theorem streamsOf_concat (items : List SrsStreamItem) (item : SrsStreamItem) :
    streamsOf (items ++ [item]) = (streamsOf items).insert item.antennaId item.srs := by
  rw [streamsOf, List.foldl_append, List.foldl_cons, List.foldl_nil, streamsOf]

namespace SimpleRunOranXapp

/-- The completed snapshots of an occasion. -/
def snapshotsOf (x : SimpleRunOranXapp) (key : UInt32 × UInt64) : List Snapshot :=
  x.completedSrsMessages.filter fun s => s.ueKey = key

@[simp] theorem snapshotsOf_init (n : ℤ) (key : UInt32 × UInt64) :
    (init n).snapshotsOf key = [] := rfl

@[simp] theorem receivedStreams_init (n : ℤ) (key : UInt32 × UInt64) :
    (init n).receivedStreams key = ∅ := Std.ExtTreeMap.getD_empty

/-- A new snapshot counts for its own occasion. -/
theorem snapshotsOf_of_completed {x y : SimpleRunOranXapp} {s : Snapshot}
    (h : y.completedSrsMessages = x.completedSrsMessages ++ [s]) (key : UInt32 × UInt64) :
    y.snapshotsOf key = if s.ueKey = key then x.snapshotsOf key ++ [s] else x.snapshotsOf key := by
  rw [snapshotsOf, h, List.filter_append, ← snapshotsOf]
  simp only [List.filter_cons, List.filter_nil, decide_eq_true_eq]
  split
  · rfl
  · exact List.append_nil _

/-- An item that is not a received one of the occasion does not touch it. -/
theorem occasion_onItem_of_ne (x : SimpleRunOranXapp) {item : SrsStreamItem}
    {key : UInt32 × UInt64} (h : ¬ (item.generated = false ∧ item.ueKey = key)) :
    (x.onItem item).receivedStreams key = x.receivedStreams key ∧
      (x.onItem item).snapshotsOf key = x.snapshotsOf key := by
  cases hgen : item.generated with
  | true =>
    refine ⟨receivedStreams_onItem_generated x hgen key, ?_⟩
    rw [snapshotsOf, completedSrsMessages_onItem_generated x hgen, snapshotsOf]
  | false =>
    have hkey : item.ueKey ≠ key := fun hkey => h ⟨hgen, hkey⟩
    have hcompleted := completedSrsMessages_onItem_received x hgen
    refine ⟨?_, ?_⟩
    · rw [receivedStreams_onItem_received x hgen, if_neg hkey]
    · by_cases hready : x.Ready item.rnti (x.arrived item)
      · rw [if_pos hready] at hcompleted
        exact (snapshotsOf_of_completed hcompleted key).trans (if_neg hkey)
      · rw [if_neg hready] at hcompleted
        rw [snapshotsOf, hcompleted, snapshotsOf]

/-- A received item of the occasion joins the others or completes a snapshot. -/
theorem occasion_onItem_of_eq (x : SimpleRunOranXapp) {item : SrsStreamItem}
    (h : item.generated = false) :
    ((x.onItem item).receivedStreams item.ueKey, (x.onItem item).snapshotsOf item.ueKey) =
      if x.Ready item.rnti (x.arrived item) then
        (∅, x.snapshotsOf item.ueKey ++ [⟨item.rnti, item.timestamp,
          x.assembled item.rnti (x.arrived item), x.latestTimingAdvance[item.rnti]?⟩])
      else (x.arrived item, x.snapshotsOf item.ueKey) := by
  have hcompleted := completedSrsMessages_onItem_received x h
  rw [receivedStreams_onItem_received x h, if_pos rfl]
  by_cases hready : x.Ready item.rnti (x.arrived item)
  · rw [if_pos hready] at hcompleted
    rw [if_pos hready, if_pos hready, snapshotsOf_of_completed hcompleted item.ueKey]
    exact congrArg (Prod.mk _) (if_pos rfl)
  · rw [if_neg hready] at hcompleted
    rw [if_neg hready, if_neg hready, snapshotsOf, hcompleted, snapshotsOf]

/-! ## How many snapshots -/

/-- One item: it can bring about a snapshot only by consuming the streams that wait. -/
theorem snapshots_onItem_le (x : SimpleRunOranXapp) (item : SrsStreamItem)
    (key : UInt32 × UInt64) :
    ((x.onItem item).snapshotsOf key).length * x.expectedRxAntennas +
        ((x.onItem item).receivedStreams key).size ≤
      (x.snapshotsOf key).length * x.expectedRxAntennas + (x.receivedStreams key).size +
        (receivedOf key [item]).length := by
  rw [receivedOf_singleton]
  by_cases h : item.generated = false ∧ item.ueKey = key
  · obtain ⟨hgen, rfl⟩ := h
    have hstep := occasion_onItem_of_eq x hgen
    have hsize : (x.arrived item).size ≤ (x.receivedStreams item.ueKey).size + 1 :=
      Std.ExtTreeMap.size_insert_le
    rw [if_pos ⟨hgen, rfl⟩]
    by_cases hready : x.Ready item.rnti (x.arrived item)
    · rw [if_pos hready] at hstep
      obtain ⟨hreceived, hsnapshots⟩ := Prod.mk.inj hstep
      -- the new snapshot is paid for by the streams that no longer wait
      obtain ⟨henough, -⟩ := hready
      rw [hreceived, hsnapshots, List.length_append, List.length_singleton, Nat.add_mul,
        Std.ExtTreeMap.size_empty, List.length_singleton]
      omega
    · rw [if_neg hready] at hstep
      obtain ⟨hreceived, hsnapshots⟩ := Prod.mk.inj hstep
      rw [hreceived, hsnapshots, List.length_singleton]
      omega
  · obtain ⟨hreceived, hsnapshots⟩ := occasion_onItem_of_ne x h
    rw [hreceived, hsnapshots]
    omega

/-- Over a run: every snapshot, and every stream that waits, was paid for by a received item. -/
theorem snapshots_onItems_le (n : ℤ) (items : List SrsStreamItem) (key : UInt32 × UInt64) :
    (((init n).onItems items).snapshotsOf key).length * (init n).expectedRxAntennas +
        (((init n).onItems items).receivedStreams key).size ≤ (receivedOf key items).length := by
  induction items using List.reverseRecOn with
  | nil => simp [receivedOf]
  | append_singleton items item ih =>
    have hstep := snapshots_onItem_le ((init n).onItems items) item key
    rw [expectedRxAntennas_onItems] at hstep
    rw [onItems_concat, receivedOf_append, List.length_append]
    omega

/-- **The snapshots of an occasion**, times the expected number of antennas, are at most
as many as its received items; so there is at most one as long as fewer than twice the
expected number have been received. -/
theorem snapshots_per_occasion (numRxAntennas : ℤ) (messages : List Bytes)
    (key : UInt32 × UInt64) :
    let snapshots := ((init numRxAntennas).onMessages messages).snapshotsOf key
    let received := receivedOf key (messages.flatMap indicationItems)
    snapshots.length * (max 1 numRxAntennas).toNat ≤ received.length ∧
      (received.length < 2 * (max 1 numRxAntennas).toNat → snapshots.length ≤ 1) := by
  intro snapshots received
  have hle : snapshots.length * (max 1 numRxAntennas).toNat ≤ received.length := by
    have h := snapshots_onItems_le numRxAntennas (messages.flatMap indicationItems) key
    rw [← onMessages_eq] at h
    exact le_trans (Nat.le_add_right _ _) h
  refine ⟨hle, fun hlt => ?_⟩
  by_contra hmany
  have htwo : 2 * (max 1 numRxAntennas).toNat ≤ snapshots.length * (max 1 numRxAntennas).toNat :=
    Nat.mul_le_mul_right _ (by omega)
  omega

/-- Four antennas where two are expected: the occasion is reported twice. -/
theorem two_snapshots_of_one_occasion :
    let references := serializeSrsIndication
      [⟨17, 1000, 0, true, []⟩, ⟨17, 1000, 1, true, []⟩, ⟨17, 1000, 2, true, []⟩,
        ⟨17, 1000, 3, true, []⟩]
    let received := serializeSrsIndication
      [⟨17, 1000, 0, false, []⟩, ⟨17, 1000, 1, false, []⟩, ⟨17, 1000, 2, false, []⟩,
        ⟨17, 1000, 3, false, []⟩]
    (((init 2).onMessages [references, received]).snapshotsOf (17, 1000)).length = 2 := by
  decide +kernel

end SimpleRunOranXapp

/-! ## Streams by antenna -/

theorem exists_mem_concat {items : List SrsStreamItem} {item : SrsStreamItem}
    {p : SrsStreamItem → Prop} :
    (∃ item' ∈ items ++ [item], p item') ↔ (∃ item' ∈ items, p item') ∨ p item := by
  refine ⟨?_, ?_⟩
  · rintro ⟨item', hmem, hp⟩
    rcases List.mem_append.mp hmem with hold | hlast
    · exact Or.inl ⟨item', hold, hp⟩
    · exact Or.inr (List.mem_singleton.mp hlast ▸ hp)
  · rintro (⟨item', hmem, hp⟩ | hp)
    · exact ⟨item', List.mem_append_left _ hmem, hp⟩
    · exact ⟨item, List.mem_append_right _ (List.mem_singleton_self _), hp⟩

/-- Among items of different antennas, each antenna has the stream of its item. -/
theorem getElem?_streamsOf {items : List SrsStreamItem}
    (h : (items.map SrsStreamItem.antennaId).Nodup) {a : UInt32} {srs : List Cf} :
    (streamsOf items)[a]? = some srs ↔ ∃ item ∈ items, item.antennaId = a ∧ item.srs = srs := by
  induction items using List.reverseRecOn with
  | nil => simp [streamsOf]
  | append_singleton items item ih =>
    rw [List.map_append, List.nodup_append] at h
    obtain ⟨hinit, -, hnew⟩ := h
    rw [streamsOf_concat, Std.ExtTreeMap.getElem?_insert, exists_mem_concat, ← ih hinit]
    by_cases ha : item.antennaId = a
    · -- no earlier item has the antenna
      subst ha
      have habsent : (streamsOf items)[item.antennaId]? ≠ some srs := by
        intro hsome
        obtain ⟨item', hitem', ha', -⟩ := (ih hinit).mp hsome
        exact hnew _ (List.mem_map_of_mem hitem') _ (by simp) ha'
      rw [if_pos (Std.LawfulEqCmp.compare_eq_iff_eq.mpr rfl), Option.some_inj]
      exact ⟨fun hsrs => Or.inr ⟨rfl, hsrs⟩, fun hor => (hor.resolve_left habsent).2⟩
    · rw [if_neg (mt Std.LawfulEqCmp.compare_eq_iff_eq.mp ha)]
      exact ⟨Or.inl, fun hor => hor.resolve_right fun hitem => ha hitem.1⟩

theorem mem_streamsOf {items : List SrsStreamItem} {a : UInt32} :
    a ∈ streamsOf items ↔ ∃ item ∈ items, item.antennaId = a := by
  induction items using List.reverseRecOn with
  | nil => simp [streamsOf]
  | append_singleton items item ih =>
    rw [streamsOf_concat, Std.ExtTreeMap.mem_insert, Std.LawfulEqCmp.compare_eq_iff_eq, ih,
      exists_mem_concat, or_comm]

theorem size_streamsOf_le (items : List SrsStreamItem) :
    (streamsOf items).size ≤ items.length := by
  induction items using List.reverseRecOn with
  | nil => exact Nat.le_of_eq Std.ExtTreeMap.size_empty
  | append_singleton items item ih =>
    rw [streamsOf_concat, List.length_append, List.length_singleton]
    exact le_trans Std.ExtTreeMap.size_insert_le (Nat.add_le_add_right ih 1)

theorem size_streamsOf {items : List SrsStreamItem}
    (h : (items.map SrsStreamItem.antennaId).Nodup) : (streamsOf items).size = items.length := by
  induction items using List.reverseRecOn with
  | nil => exact Std.ExtTreeMap.size_empty
  | append_singleton items item ih =>
    rw [List.map_append, List.nodup_append] at h
    obtain ⟨hinit, -, hnew⟩ := h
    have habsent : ¬ (streamsOf items).contains item.antennaId = true := by
      intro hmem
      obtain ⟨item', hitem', ha⟩ := mem_streamsOf.mp (Std.ExtTreeMap.mem_iff_contains.mpr hmem)
      exact hnew _ (List.mem_map_of_mem hitem') _ (by simp) ha
    rw [streamsOf_concat, Std.ExtTreeMap.size_insert, if_neg habsent, ih hinit,
      List.length_append, List.length_singleton]

/-- The order in which the streams of different antennas arrive does not matter. -/
theorem streamsOf_perm {items items' : List SrsStreamItem} (hperm : items.Perm items')
    (h : (items.map SrsStreamItem.antennaId).Nodup) : streamsOf items = streamsOf items' := by
  have h' : (items'.map SrsStreamItem.antennaId).Nodup := (hperm.map _).nodup_iff.mp h
  refine Std.ExtTreeMap.ext_getElem? fun a => Option.ext fun srs => ?_
  rw [getElem?_streamsOf h, getElem?_streamsOf h']
  simp only [hperm.mem_iff]

/-- The item is the reference of the antenna. -/
def SrsStreamItem.IsReferenceOf (item : SrsStreamItem) (rnti antennaId : UInt32) : Prop :=
  item.generated = true ∧ item.rnti = rnti ∧ item.antennaId = antennaId

instance (item : SrsStreamItem) (rnti antennaId : UInt32) :
    Decidable (item.IsReferenceOf rnti antennaId) :=
  inferInstanceAs (Decidable (_ ∧ _))

/-- The reference of an antenna among some items: the last one that arrived. -/
def referenceOf (rnti antennaId : UInt32) (items : List SrsStreamItem) : Option (List Cf) :=
  items.foldl (fun reference item =>
    if item.IsReferenceOf rnti antennaId then some item.srs else reference) none

theorem referenceOf_concat (rnti antennaId : UInt32) (items : List SrsStreamItem)
    (item : SrsStreamItem) :
    referenceOf rnti antennaId (items ++ [item]) =
      if item.IsReferenceOf rnti antennaId then some item.srs
      else referenceOf rnti antennaId items := by
  rw [referenceOf, List.foldl_append, List.foldl_cons, List.foldl_nil, referenceOf]

theorem isSome_referenceOf {rnti antennaId : UInt32} {items : List SrsStreamItem} :
    (referenceOf rnti antennaId items).isSome ↔
      ∃ item ∈ items, item.IsReferenceOf rnti antennaId := by
  induction items using List.reverseRecOn with
  | nil => simp [referenceOf]
  | append_singleton items item ih =>
    rw [referenceOf_concat, exists_mem_concat, ← ih]
    by_cases hitem : item.IsReferenceOf rnti antennaId
    · rw [if_pos hitem]
      exact iff_of_true rfl (Or.inr hitem)
    · rw [if_neg hitem, or_iff_left hitem]

/-- There is at most one reference per antenna. -/
def GeneratedOnce (items : List SrsStreamItem) : Prop :=
  ((items.filter SrsStreamItem.generated).map fun item => (item.rnti, item.antennaId)).Nodup

instance (items : List SrsStreamItem) : Decidable (GeneratedOnce items) :=
  inferInstanceAs (Decidable (List.Nodup _))

/-- What the reference is, when there is only one. -/
theorem referenceOf_eq_some {rnti antennaId : UInt32} {items : List SrsStreamItem}
    (h : GeneratedOnce items) {srs : List Cf} :
    referenceOf rnti antennaId items = some srs ↔
      ∃ item ∈ items, item.IsReferenceOf rnti antennaId ∧ item.srs = srs := by
  induction items using List.reverseRecOn with
  | nil => simp [referenceOf]
  | append_singleton items item ih =>
    rw [GeneratedOnce, List.filter_append, List.map_append, List.nodup_append] at h
    obtain ⟨hinit, -, hnew⟩ := h
    rw [referenceOf_concat, exists_mem_concat, ← ih hinit]
    by_cases hitem : item.IsReferenceOf rnti antennaId
    · have habsent : referenceOf rnti antennaId items ≠ some srs := by
        intro hsome
        obtain ⟨item', hitem', ⟨hgen', hrnti', hid'⟩, -⟩ := (ih hinit).mp hsome
        obtain ⟨hgen, hrnti, hid⟩ := hitem
        refine hnew (item'.rnti, item'.antennaId) ?_ (item.rnti, item.antennaId) ?_ ?_
        · exact List.mem_map.mpr ⟨item', List.mem_filter.mpr ⟨hitem', hgen'⟩, rfl⟩
        · exact List.mem_map.mpr ⟨item, List.mem_filter.mpr ⟨by simp, hgen⟩, rfl⟩
        · rw [hrnti', hid', hrnti, hid]
      rw [if_pos hitem, Option.some_inj]
      exact ⟨fun hsrs => Or.inr ⟨hitem, hsrs⟩, fun hor => (hor.resolve_left habsent).2⟩
    · rw [if_neg hitem]
      exact ⟨Or.inl, fun hor => hor.resolve_right fun hlast => hitem hlast.1⟩

theorem GeneratedOnce.perm {items items' : List SrsStreamItem} (h : GeneratedOnce items)
    (hperm : items.Perm items') : GeneratedOnce items' :=
  ((hperm.filter _).map _).nodup_iff.mp h

theorem referenceOf_perm {items items' : List SrsStreamItem} (hperm : items.Perm items')
    (h : GeneratedOnce items) (rnti antennaId : UInt32) :
    referenceOf rnti antennaId items = referenceOf rnti antennaId items' := by
  apply Option.ext
  intro srs
  rw [referenceOf_eq_some h, referenceOf_eq_some (h.perm hperm)]
  simp only [hperm.mem_iff]

/-- A reference that has arrived stays the reference. -/
theorem referenceOf_append {rnti antennaId : UInt32} {before rest : List SrsStreamItem}
    (h : GeneratedOnce (before ++ rest)) (harrived : (referenceOf rnti antennaId before).isSome) :
    referenceOf rnti antennaId (before ++ rest) = referenceOf rnti antennaId before := by
  have hbefore : GeneratedOnce before := by
    rw [GeneratedOnce, List.filter_append, List.map_append] at h
    exact h.of_append_left
  obtain ⟨srs, hsrs⟩ := Option.isSome_iff_exists.mp harrived
  obtain ⟨item, hitem, href⟩ := (referenceOf_eq_some hbefore).mp hsrs
  rw [hsrs, referenceOf_eq_some h]
  exact ⟨item, List.mem_append_left _ hitem, href⟩

/-! ## The outcome of an occasion -/

/-- All references of an occasion's antennas arrive before its last received stream. -/
def ReferencesInTime (key : UInt32 × UInt64) (items : List SrsStreamItem) : Prop :=
  ∀ before last after, items = before ++ last :: after → last.generated = false →
    last.ueKey = key → receivedOf key after = [] →
      ∀ item ∈ receivedOf key items, ∃ g ∈ before, g.IsReferenceOf key.1 item.antennaId

/-- Complete occasions of `n` antennas: every received stream is one of `n` in its occasion,
no antenna is received twice in one, and no antenna has two references. -/
structure Occasions (n : Nat) (items : List SrsStreamItem) : Prop where
  received_once : ((items.filter fun item => !item.generated).map fun item =>
    (item.ueKey, item.antennaId)).Nodup
  generated_once : GeneratedOnce items
  full : ∀ item ∈ items, item.generated = false → (receivedOf item.ueKey items).length = n

instance (n : Nat) (items : List SrsStreamItem) : Decidable (Occasions n items) :=
  decidable_of_iff
    (((items.filter fun item => !item.generated).map fun item =>
        (item.ueKey, item.antennaId)).Nodup ∧ GeneratedOnce items ∧
      ∀ item ∈ items, item.generated = false → (receivedOf item.ueKey items).length = n)
    ⟨fun h => ⟨h.1, h.2.1, h.2.2⟩, fun h => ⟨h.received_once, h.generated_once, h.full⟩⟩

/-- The snapshot that an occasion amounts to. -/
def occasionSnapshot (key : UInt32 × UInt64) (items : List SrsStreamItem) : Snapshot :=
  ⟨key.1, key.2, (streamsOf (receivedOf key items)).keys.map fun antennaId =>
    ⟨antennaId, (referenceOf key.1 antennaId items).getD [],
      (streamsOf (receivedOf key items)).getD antennaId []⟩, none⟩

theorem receivedOf_eq_nil_or (key : UInt32 × UInt64) (items : List SrsStreamItem) :
    receivedOf key items = [] ∨ ∃ before last after, items = before ++ last :: after ∧
      last.generated = false ∧ last.ueKey = key ∧ receivedOf key after = [] := by
  induction items using List.reverseRecOn with
  | nil => exact Or.inl rfl
  | append_singleton items item ih =>
    by_cases hitem : item.generated = false ∧ item.ueKey = key
    · obtain ⟨hgen, hkey⟩ := hitem
      exact Or.inr ⟨items, item, [], rfl, hgen, hkey, rfl⟩
    · have hone : receivedOf key [item] = [] := (receivedOf_singleton key item).trans (if_neg hitem)
      rcases ih with hnil | ⟨before, last, after, rfl, hgen, hkey, hafter⟩
      · exact Or.inl (by rw [receivedOf_append, hnil, hone, List.append_nil])
      · refine Or.inr ⟨before, last, after ++ [item], by simp, hgen, hkey, ?_⟩
        rw [receivedOf_append, hafter, hone, List.append_nil]

/-- There is only one last received stream. -/
theorem last_received_unique {key : UInt32 × UInt64}
    {before before' after after' : List SrsStreamItem} {last last' : SrsStreamItem}
    (heq : before ++ last :: after = before' ++ last' :: after')
    (hlast : last.generated = false ∧ last.ueKey = key) (hafter : receivedOf key after = [])
    (hlast' : last'.generated = false ∧ last'.ueKey = key) (hafter' : receivedOf key after' = []) :
    before = before' := by
  -- if one split came later than the other, its last stream would be after the other's
  have hnone : ∀ {c l : List SrsStreamItem} {item : SrsStreamItem},
      item.generated = false ∧ item.ueKey = key → receivedOf key (c ++ item :: l) ≠ [] := by
    intro c l item hitem hnil
    have hmem : item ∈ receivedOf key (c ++ item :: l) :=
      mem_receivedOf.mpr ⟨by simp, hitem⟩
    rw [hnil] at hmem
    cases hmem
  rcases List.append_eq_append_iff.mp heq with ⟨c, hbefore, hc⟩ | ⟨c, hbefore, hc⟩
  · cases c with
    | nil => rw [hbefore, List.append_nil]
    | cons _ c =>
      obtain ⟨rfl, rfl⟩ := List.cons.inj hc
      exact absurd hafter (hnone hlast')
  · cases c with
    | nil => rw [hbefore, List.append_nil]
    | cons _ c =>
      obtain ⟨rfl, rfl⟩ := List.cons.inj hc
      exact absurd hafter' (hnone hlast)

namespace Occasions

variable {n : Nat} {items : List SrsStreamItem} (h : Occasions n items)

include h

theorem nodup_receivedOf (key : UInt32 × UInt64) :
    ((receivedOf key items).map SrsStreamItem.antennaId).Nodup := by
  have hsub : (receivedOf key items).Sublist (items.filter fun item => !item.generated) := by
    have hfilter : receivedOf key items =
        (items.filter fun item => !item.generated).filter fun item => item.ueKey = key := by
      rw [List.filter_filter, receivedOf]
      apply List.filter_congr
      intro item _
      cases item.generated <;> simp
    rw [hfilter]
    exact List.filter_sublist
  have hpairs := h.received_once.sublist (hsub.map fun item => (item.ueKey, item.antennaId))
  rw [List.Nodup, List.pairwise_map] at hpairs ⊢
  refine hpairs.imp_of_mem fun {a b} ha hb hne hid => hne ?_
  rw [(mem_receivedOf.mp ha).2.2, (mem_receivedOf.mp hb).2.2, hid]

theorem perm {items' : List SrsStreamItem} (hperm : items.Perm items') : Occasions n items' where
  received_once := ((hperm.filter _).map _).nodup_iff.mp h.received_once
  generated_once := h.generated_once.perm hperm
  full item hitem hgen := by
    rw [← h.full item (hperm.mem_iff.mpr hitem) hgen]
    exact (hperm.filter _).length_eq.symm

theorem occasionSnapshot_perm {items' : List SrsStreamItem} (hperm : items.Perm items')
    (key : UInt32 × UInt64) : occasionSnapshot key items = occasionSnapshot key items' := by
  have hstreams : streamsOf (receivedOf key items) = streamsOf (receivedOf key items') :=
    streamsOf_perm (hperm.filter _) (h.nodup_receivedOf key)
  simp only [occasionSnapshot, hstreams, referenceOf_perm hperm h.generated_once]

end Occasions

namespace SimpleRunOranXapp

/-- The cache holds the references that have arrived. -/
theorem generatedStream_onItems (n : ℤ) (items : List SrsStreamItem) (rnti antennaId : UInt32) :
    ((init n).onItems items).generatedStream rnti antennaId = referenceOf rnti antennaId items := by
  induction items using List.reverseRecOn with
  | nil =>
    simp only [onItems_nil, generatedStream, init, Std.ExtTreeMap.getD_empty,
      Std.ExtTreeMap.getElem?_empty]
    rfl
  | append_singleton items item ih =>
    rw [onItems_concat, generatedStream_onItem, ih, referenceOf_concat]
    rfl

/-- An item arrives where the streams of some items wait. -/
theorem arrived_of_receivedStreams {x : SimpleRunOranXapp} {items : List SrsStreamItem}
    {item : SrsStreamItem} (h : x.receivedStreams item.ueKey = streamsOf items) :
    x.arrived item = streamsOf (items ++ [item]) := by
  rw [arrived, h, streamsOf_concat]

/-- Too few streams are not ready. -/
theorem not_ready_of_few {x : SimpleRunOranXapp} {items : List SrsStreamItem}
    (hfew : items.length < x.expectedRxAntennas) (rnti : UInt32) :
    ¬ x.Ready rnti (streamsOf items) := by
  rintro ⟨henough, -⟩
  have hsize := size_streamsOf_le items
  omega

/-- Until enough streams of an occasion have been received, they wait. -/
theorem occasion_of_few (n : ℤ) (items : List SrsStreamItem) (key : UInt32 × UInt64) :
    (receivedOf key items).length < (init n).expectedRxAntennas →
      ((init n).onItems items).receivedStreams key = streamsOf (receivedOf key items) ∧
        ((init n).onItems items).snapshotsOf key = [] := by
  induction items using List.reverseRecOn with
  | nil => exact fun _ => ⟨receivedStreams_init n key, rfl⟩
  | append_singleton items item ih =>
    intro hfew
    rw [receivedOf_append, receivedOf_singleton] at hfew ⊢
    rw [onItems_concat]
    by_cases hitem : item.generated = false ∧ item.ueKey = key
    · obtain ⟨hgen, rfl⟩ := hitem
      rw [if_pos ⟨hgen, rfl⟩, List.length_append, List.length_singleton] at hfew
      obtain ⟨hstreams, hsnapshots⟩ := ih (by omega)
      have harrived : ((init n).onItems items).arrived item =
          streamsOf (receivedOf item.ueKey items ++ [item]) :=
        arrived_of_receivedStreams hstreams
      have hnot : ¬ ((init n).onItems items).Ready item.rnti
          (((init n).onItems items).arrived item) := by
        rw [harrived]
        apply not_ready_of_few
        rw [expectedRxAntennas_onItems, List.length_append, List.length_singleton]
        exact hfew
      have hstep := occasion_onItem_of_eq ((init n).onItems items) hgen
      rw [if_neg hnot, harrived, hsnapshots] at hstep
      rw [if_pos ⟨hgen, rfl⟩]
      exact Prod.mk.inj hstep
    · rw [if_neg hitem, List.append_nil] at hfew ⊢
      obtain ⟨hstreams, hsnapshots⟩ := occasion_onItem_of_ne ((init n).onItems items) hitem
      rw [hstreams, hsnapshots]
      exact ih hfew

/-- Items of other occasions, and references, do not change the outcome. -/
theorem occasion_of_rest (items : List SrsStreamItem) {key : UInt32 × UInt64} :
    ∀ x : SimpleRunOranXapp, receivedOf key items = [] →
      (x.onItems items).receivedStreams key = x.receivedStreams key ∧
        (x.onItems items).snapshotsOf key = x.snapshotsOf key := by
  induction items using List.reverseRecOn with
  | nil => exact fun x _ => ⟨rfl, rfl⟩
  | append_singleton items item ih =>
    intro x hnone
    rw [receivedOf_append, List.append_eq_nil_iff, receivedOf_singleton] at hnone
    obtain ⟨hbefore, hlast⟩ := hnone
    have hitem : ¬ (item.generated = false ∧ item.ueKey = key) := by
      intro hitem
      rw [if_pos hitem] at hlast
      cases hlast
    obtain ⟨hstreams, hsnapshots⟩ := occasion_onItem_of_ne (x.onItems items) hitem
    rw [onItems_concat, hstreams, hsnapshots]
    exact ih x hbefore

/-- Streams of as many different antennas as are expected are ready exactly if all their
references are there. -/
theorem ready_streamsOf {x : SimpleRunOranXapp} {items : List SrsStreamItem}
    (hids : (items.map SrsStreamItem.antennaId).Nodup) (hlen : items.length = x.expectedRxAntennas)
    (rnti : UInt32) :
    x.Ready rnti (streamsOf items) ↔
      ∀ item ∈ items, (x.generatedStream rnti item.antennaId).isSome := by
  have hsize := (size_streamsOf hids).trans hlen
  have hkeys : (streamsOf items).keys.take x.expectedRxAntennas = (streamsOf items).keys :=
    List.take_of_length_le (Nat.le_of_eq (Std.ExtTreeMap.length_keys.trans hsize))
  rw [Ready, hkeys, hsize]
  refine ⟨?_, ?_⟩
  · rintro ⟨-, hall⟩ item hitem
    exact hall _ (Std.ExtTreeMap.mem_keys.mpr (mem_streamsOf.mpr ⟨item, hitem, rfl⟩))
  · intro hall
    refine ⟨Nat.le_refl _, fun a ha => ?_⟩
    obtain ⟨item, hitem, rfl⟩ := mem_streamsOf.mp (Std.ExtTreeMap.mem_keys.mp ha)
    exact hall item hitem

/-- The snapshot then takes all of them, in ascending order. -/
theorem assembled_streamsOf {x : SimpleRunOranXapp} {items : List SrsStreamItem}
    (hids : (items.map SrsStreamItem.antennaId).Nodup) (hlen : items.length = x.expectedRxAntennas)
    (rnti : UInt32) :
    x.assembled rnti (streamsOf items) = (streamsOf items).keys.map fun a =>
      ⟨a, (x.generatedStream rnti a).getD [], (streamsOf items).getD a []⟩ := by
  have hsize := (size_streamsOf hids).trans hlen
  rw [assembled, List.take_of_length_le]
  exact Nat.le_of_eq (Std.ExtTreeMap.length_keys.trans hsize)

/-- When the last stream of an occasion is received, a snapshot is assembled exactly if all
references have arrived. -/
theorem occasion_at_last {n : ℤ} {before after : List SrsStreamItem} {last : SrsStreamItem}
    (h : Occasions (init n).expectedRxAntennas (before ++ last :: after))
    (hgen : last.generated = false) (hafter : receivedOf last.ueKey after = []) :
    let items := before ++ last :: after
    let x := (init n).onItems items
    (x.receivedStreams last.ueKey, x.snapshotsOf last.ueKey) =
      if ∀ item ∈ receivedOf last.ueKey items,
          (referenceOf last.rnti item.antennaId before).isSome then
        (∅, [occasionSnapshot last.ueKey items])
      else (streamsOf (receivedOf last.ueKey items), []) := by
  intro items x
  have hreceived : receivedOf last.ueKey items = receivedOf last.ueKey before ++ [last] := by
    have hsplit : items = before ++ ([last] ++ after) := rfl
    rw [hsplit, receivedOf_append, receivedOf_append, receivedOf_singleton,
      if_pos ⟨hgen, rfl⟩, hafter, List.append_nil]
  have hnodup : ((receivedOf last.ueKey items).map SrsStreamItem.antennaId).Nodup :=
    h.nodup_receivedOf last.ueKey
  have hlength : (receivedOf last.ueKey items).length =
      ((init n).onItems before).expectedRxAntennas := by
    rw [expectedRxAntennas_onItems]
    exact h.full last (by simp) hgen
  obtain ⟨hstreams, hsnapshots⟩ := occasion_of_few n before last.ueKey <| by
    rw [hreceived, List.length_append, List.length_singleton, expectedRxAntennas_onItems]
      at hlength
    omega
  have harrived : ((init n).onItems before).arrived last =
      streamsOf (receivedOf last.ueKey items) := by
    rw [hreceived]
    exact arrived_of_receivedStreams hstreams
  have hready : ((init n).onItems before).Ready last.rnti (((init n).onItems before).arrived last) ↔
      ∀ item ∈ receivedOf last.ueKey items,
        (referenceOf last.rnti item.antennaId before).isSome := by
    rw [harrived, ready_streamsOf hnodup hlength]
    simp only [generatedStream_onItems]
  have hstep := occasion_onItem_of_eq ((init n).onItems before) hgen
  have hsplit : x = (((init n).onItems before).onItem last).onItems after := by
    have hitems : items = (before ++ [last]) ++ after := by simp [items]
    rw [← onItems_concat, ← onItems_append, ← hitems]
  obtain ⟨hrest, hrest'⟩ :=
    occasion_of_rest after (((init n).onItems before).onItem last) hafter
  rw [hsplit, hrest, hrest', hstep]
  have hnone : (init n).latestTimingAdvance[last.rnti]? = none := Std.ExtTreeMap.getElem?_empty
  by_cases hall : ∀ item ∈ receivedOf last.ueKey items,
      (referenceOf last.rnti item.antennaId before).isSome
  · -- later references are the same ones, as each arrives once
    rw [if_pos (hready.mpr hall), if_pos hall, hsnapshots, List.nil_append, harrived,
      assembled_streamsOf hnodup hlength, latestTimingAdvance_onItems, hnone]
    refine congrArg (fun antennaData => (∅, [Snapshot.mk _ _ antennaData none]))
      (List.map_congr_left fun a ha => ?_)
    obtain ⟨item, hitem, rfl⟩ := mem_streamsOf.mp (Std.ExtTreeMap.mem_keys.mp ha)
    rw [generatedStream_onItems, ← referenceOf_append h.generated_once (hall item hitem)]
    rfl
  · rw [if_neg (mt hready.mp hall), if_neg hall, hsnapshots, harrived]

/-- An occasion that has received streams ends in one of two ways. -/
theorem occasion_outcome {n : ℤ} {items : List SrsStreamItem}
    (h : Occasions (init n).expectedRxAntennas items) {key : UInt32 × UInt64}
    (hkey : receivedOf key items ≠ []) :
    (ReferencesInTime key items ∧ ((init n).onItems items).receivedStreams key = ∅ ∧
        ((init n).onItems items).snapshotsOf key = [occasionSnapshot key items]) ∨
      (¬ ReferencesInTime key items ∧
        ((init n).onItems items).receivedStreams key = streamsOf (receivedOf key items) ∧
        ((init n).onItems items).snapshotsOf key = []) := by
  rcases receivedOf_eq_nil_or key items with hnil | ⟨before, last, after, rfl, hgen, rfl, hafter⟩
  · exact absurd hnil hkey
  have hstep := occasion_at_last h hgen hafter
  simp only at hstep
  by_cases hall : ∀ item ∈ receivedOf last.ueKey (before ++ last :: after),
      (referenceOf last.rnti item.antennaId before).isSome
  · rw [if_pos hall] at hstep
    refine Or.inl ⟨?_, Prod.mk.inj hstep⟩
    intro before' last' after' heq hgen' hkey' hafter' item hitem
    rw [← last_received_unique heq ⟨hgen, rfl⟩ hafter ⟨hgen', hkey'⟩ hafter']
    exact isSome_referenceOf.mp (hall item hitem)
  · rw [if_neg hall] at hstep
    refine Or.inr ⟨fun htime => hall fun item hitem => ?_, Prod.mk.inj hstep⟩
    exact isSome_referenceOf.mpr (htime before last after rfl hgen rfl hafter item hitem)

theorem mem_snapshotsOf {x : SimpleRunOranXapp} {s : Snapshot} :
    s ∈ x.snapshotsOf s.ueKey ↔ s ∈ x.completedSrsMessages := by
  rw [snapshotsOf, List.mem_filter, decide_eq_true_eq, and_iff_left rfl]

/-- A completed snapshot is what its occasion amounts to, and its references came in time. -/
theorem mem_completed_iff {n : ℤ} {items : List SrsStreamItem}
    (h : Occasions (init n).expectedRxAntennas items) {s : Snapshot} :
    s ∈ ((init n).onItems items).completedSrsMessages ↔
      receivedOf s.ueKey items ≠ [] ∧ ReferencesInTime s.ueKey items ∧
        s = occasionSnapshot s.ueKey items := by
  rw [← mem_snapshotsOf]
  by_cases hkey : receivedOf s.ueKey items = []
  · obtain ⟨-, hnone⟩ := occasion_of_rest items (init n) hkey
    rw [hnone, snapshotsOf_init]
    simp [hkey]
  · rcases occasion_outcome h hkey with ⟨htime, -, hone⟩ | ⟨hlate, -, hnone⟩
    · rw [hone, List.mem_singleton]
      exact ⟨fun hs => ⟨hkey, htime, hs⟩, fun hs => hs.2.2⟩
    · rw [hnone]
      exact ⟨fun hs => (List.not_mem_nil hs).elim, fun hs => absurd hs.2.1 hlate⟩

theorem referencesInTime_of_none {key : UInt32 × UInt64} {items : List SrsStreamItem}
    (h : receivedOf key items = []) : ReferencesInTime key items := by
  intro _ _ _ _ _ _ _ item hitem
  rw [h] at hitem
  cases hitem

/-- Two orders report an occasion alike if its references are in time in both or in neither,
and only then. -/
theorem same_snapshots_iff {n : ℤ} {items items' : List SrsStreamItem}
    (h : Occasions (init n).expectedRxAntennas items) (hperm : items.Perm items')
    {key : UInt32 × UInt64} :
    (∀ s, s.ueKey = key → (s ∈ ((init n).onItems items).completedSrsMessages ↔
        s ∈ ((init n).onItems items').completedSrsMessages)) ↔
      (ReferencesInTime key items ↔ ReferencesInTime key items') := by
  have hreceived : receivedOf key items = [] ↔ receivedOf key items' = [] := by
    have hlength := (hperm.filter fun item =>
      decide (item.generated = false ∧ item.ueKey = key)).length_eq
    rw [← List.length_eq_zero_iff, ← List.length_eq_zero_iff, receivedOf, receivedOf, hlength]
  refine ⟨?_, ?_⟩
  · intro halike
    by_cases hnone : receivedOf key items = []
    · exact iff_of_true (referencesInTime_of_none hnone)
        (referencesInTime_of_none (hreceived.mp hnone))
    · -- the snapshot of the occasion is in both orders or in neither
      have hone := halike (occasionSnapshot key items) rfl
      rw [mem_completed_iff h, mem_completed_iff (h.perm hperm),
        ← h.occasionSnapshot_perm hperm] at hone
      have hkey : (occasionSnapshot key items).ueKey = key := rfl
      simpa only [hkey, hnone, mt hreceived.mpr hnone, ne_eq, not_false_eq_true, true_and,
        and_true] using hone
  · rintro htime s rfl
    rw [mem_completed_iff h, mem_completed_iff (h.perm hperm), ← h.occasionSnapshot_perm hperm,
      Ne, hreceived, htime]

/-- **Delivery order.** Over complete occasions, in any packing and order, the snapshots
assembled are those of the occasions whose references all arrive before their last received
stream, and the streams of the others wait in full. So of two orders, each occasion is
reported alike exactly if its references are in time in both or in neither. -/
theorem delivery_order (numRxAntennas : ℤ) (messages : List Bytes)
    (h : Occasions (max 1 numRxAntennas).toNat (messages.flatMap indicationItems)) :
    let x := (init numRxAntennas).onMessages messages
    let items := messages.flatMap indicationItems
    (∀ s, s ∈ x.completedSrsMessages ↔
      receivedOf s.ueKey items ≠ [] ∧ ReferencesInTime s.ueKey items ∧
        s = occasionSnapshot s.ueKey items) ∧
    (∀ key, receivedOf key items ≠ [] →
      ((∃ s ∈ x.completedSrsMessages, s.ueKey = key) ↔ ReferencesInTime key items) ∧
      x.receivedStreams key =
        if ∃ s ∈ x.completedSrsMessages, s.ueKey = key then ∅
        else streamsOf (receivedOf key items)) ∧
    ∀ messages' : List Bytes, messages'.Perm messages → ∀ key,
      let y := (init numRxAntennas).onMessages messages'
      let items' := messages'.flatMap indicationItems
      (∀ s, s.ueKey = key → (s ∈ x.completedSrsMessages ↔ s ∈ y.completedSrsMessages)) ↔
        (ReferencesInTime key items ↔ ReferencesInTime key items') := by
  intro x items
  have hx : x = (init numRxAntennas).onItems items := onMessages_eq ..
  refine ⟨?_, ?_, ?_⟩
  · intro s
    rw [hx]
    exact mem_completed_iff h
  · intro key hkey
    have hsome : (∃ s ∈ x.completedSrsMessages, s.ueKey = key) ↔ x.snapshotsOf key ≠ [] := by
      rw [snapshotsOf, Ne, List.filter_eq_nil_iff]
      simp only [decide_eq_true_eq, not_forall, not_not, exists_prop]
    rw [hx] at hsome ⊢
    rcases occasion_outcome h hkey with ⟨htime, hstreams, hone⟩ | ⟨hlate, hstreams, hnone⟩
    · have hdone := hsome.mpr (by rw [hone]; exact List.cons_ne_nil _ _)
      exact ⟨iff_of_true hdone htime, by rw [hstreams, if_pos hdone]⟩
    · have hopen := mt hsome.mp (not_not.mpr hnone)
      exact ⟨iff_of_false hopen hlate, by rw [hstreams, if_neg hopen]⟩
  · intro messages' hperm key y items'
    have hitems : items.Perm items' := (hperm.flatMap_right _).symm
    have hy : y = (init numRxAntennas).onItems items' := onMessages_eq ..
    rw [hx, hy]
    exact same_snapshots_iff h hitems

/-- Two UEs. The references of the first come early in both orders, and it is reported alike;
one of the second comes early in the first order only. -/
theorem delivery_order_two_ues :
    let early := serializeSrsIndication
      [⟨1, 7, 0, true, [⟨.finite 1, .finite 0⟩]⟩, ⟨2, 7, 0, true, []⟩,
        ⟨1, 7, 1, true, [⟨.finite 0, .finite 1⟩]⟩]
    let reference := serializeSrsIndication [⟨2, 7, 1, true, []⟩]
    let received := serializeSrsIndication
      [⟨1, 7, 1, false, [⟨.finite 2, .finite 0⟩]⟩, ⟨2, 7, 0, false, []⟩,
        ⟨1, 7, 0, false, [⟨.finite 0, .finite 2⟩]⟩, ⟨2, 7, 1, false, []⟩]
    let x := (init 2).onMessages [early, reference, received]
    let y := (init 2).onMessages [early, received, reference]
    (∀ s, s.ueKey = (1, 7) → (s ∈ x.completedSrsMessages ↔ s ∈ y.completedSrsMessages)) ∧
      ¬ (∀ s, s.ueKey = (2, 7) → (s ∈ x.completedSrsMessages ↔ s ∈ y.completedSrsMessages)) ∧
      y.completedSrsMessages =
        [⟨1, 7, [⟨0, [⟨.finite 1, .finite 0⟩], [⟨.finite 0, .finite 2⟩]⟩,
          ⟨1, [⟨.finite 0, .finite 1⟩], [⟨.finite 2, .finite 0⟩]⟩], none⟩] := by
  intro early reference received x y
  have hperm : [early, received, reference].Perm [early, reference, received] :=
    (List.Perm.swap _ _ _).cons _
  have hx := delivery_order 2 [early, reference, received] (by decide +kernel)
  have hy := delivery_order 2 [early, received, reference] (by decide +kernel)
  have horders := hx.2.2 _ hperm
  refine ⟨(horders (1, 7)).mpr (iff_of_true ?_ ?_), mt (horders (2, 7)).mp fun halike => ?_,
    by decide +kernel⟩
  · exact (hx.2.1 (1, 7) (by decide +kernel)).1.mp (by decide +kernel)
  · exact (hy.2.1 (1, 7) (by decide +kernel)).1.mp (by decide +kernel)
  · -- in time in the first order, late in the second
    have htime := (hx.2.1 (2, 7) (by decide +kernel)).1.mp (by decide +kernel)
    have hlate := mt (hy.2.1 (2, 7) (by decide +kernel)).1.mpr (by decide +kernel)
    exact hlate (halike.mp htime)

/-- With the reference last, the same two messages do not complete the snapshot. -/
theorem late_reference_leaves_snapshot_pending :
    let reference := serializeSrsIndication [⟨17, 1000, 0, true, []⟩]
    let received := serializeSrsIndication [⟨17, 1000, 0, false, []⟩]
    Occasions 1 ([reference, received].flatMap indicationItems) ∧
      ((init 1).onMessages [reference, received]).completedSrsMessages.length = 1 ∧
      ((init 1).onMessages [received, reference]).completedSrsMessages.length = 0 := by
  decide +kernel

end SimpleRunOranXapp

end RunOran
