import RunOran.Occasion

/-!
# Recovery after an interrupted pass

A collector that begins out of step holds a *leftover* of an interrupted pass. The passes
that follow go through the ports in a fixed order, and what they make of the leftover
depends on which ports it covers.

* If it covers none but ports before the last one, the entry becomes full with the last
  addition of the pass, which has overwritten all of it by then. The collector is in step
  from there on (`Realigning`).
* If it covers the last port, or a port the passes do not visit, the entry becomes full
  before the pass is over. The next addition clears it, the rest of the pass is a leftover
  with the last port again, and the first additions of the next pass complete it:
  the snapshot is of two passes (`entry_after_sweeps`).

`recovers_iff` puts the two together.
-/

namespace RunOran

/-! ## Passes in port order -/

/-- The additions go through the ports in order, pass after pass. -/
def InPortOrder (ports : List UInt32) (calls : List AddCall) : Prop :=
  ∀ k, (passOf ports.length k calls).map AddCall.antennaId <+: ports

/-- The antennas of a record were all added in one pass. -/
def OfOnePass (n : Nat) (calls : List AddCall) (ue : UeSrsData) : Prop :=
  ∃ k, ∀ a ∈ ue.antennaData, a ∈ (passOf n k calls).map AddCall.antenna

/-- Once the UE has gone through a full pass, each of its snapshots is of one pass, as long
as its passes go on. -/
def Recovers (c : SrsDataCollector) (r : UInt32) (ports : List UInt32) : Prop :=
  ∀ ops : List CollectorOp, (∀ op ∈ ops, op.IsReporting) → InPortOrder ports (addsOf r ops) →
    ports.length ≤ (addsOf r ops).length →
      ∀ ue ∈ (c.run ops).getAllCompleteUeData.1, ue.rnti = r →
        OfOnePass ports.length (addsOf r ops) ue

/-- The entry is at a boundary, or a leftover of ports before the last one. -/
def Resynchronises (ports : List UInt32) (e : Option UeSrsData) : Prop :=
  ∀ ue, e = some ue → ue.isFull ports.length = true ∨
    antennaIds ue.antennaData ⊆ ports.dropLast

instance (ports : List UInt32) (e : Option UeSrsData) : Decidable (Resynchronises ports e) :=
  inferInstanceAs (Decidable (∀ ue ∈ e, _))

theorem InPortOrder.of_append {ports : List UInt32} {calls more : List AddCall}
    (h : InPortOrder ports (calls ++ more)) : InPortOrder ports calls := fun k =>
  ((isPrefix_passOf ports.length k calls more).map AddCall.antennaId).trans (h k)

theorem InPortOrder.distinctPasses {ports : List UInt32} (hnodup : ports.Nodup)
    {calls : List AddCall} (h : InPortOrder ports calls) : DistinctPasses ports.length calls :=
  fun k => hnodup.sublist (h k).sublist

/-- Up to the end of the first pass, the additions are the first ports. -/
theorem InPortOrder.prefix_of_length_le {ports : List UInt32} {calls : List AddCall}
    (h : InPortOrder ports calls) (hle : calls.length ≤ ports.length) :
    calls.map AddCall.antennaId <+: ports := by
  have hfirst := h 0
  rwa [passOf, Nat.zero_mul, List.drop_zero, List.take_of_length_le hle] at hfirst

/-- The passes after the first are passes of their own. -/
theorem passOf_drop (n k : Nat) (calls : List AddCall) :
    passOf n k (calls.drop n) = passOf n (k + 1) calls := by
  rw [passOf, passOf, List.drop_drop, Nat.add_mul, Nat.one_mul, Nat.add_comm]

theorem InPortOrder.drop {ports : List UInt32} {calls : List AddCall}
    (h : InPortOrder ports calls) : InPortOrder ports (calls.drop ports.length) := fun k =>
  passOf_drop ports.length k calls ▸ h (k + 1)

/-- A proper prefix has none but elements before the last. -/
theorem subset_dropLast_of_prefix {α : Type*} {as bs : List α} (h : as <+: bs)
    (hlt : as.length < bs.length) : as ⊆ bs.dropLast := by
  have hle : as.length ≤ bs.dropLast.length := by
    rw [List.length_dropLast]
    omega
  exact (List.prefix_of_prefix_length_le h (List.dropLast_prefix bs) hle).subset

/-! ## A leftover that is overwritten -/

/-- The record is what the additions have made of a leftover: it has their antennas, and
what it has under their ids is theirs. -/
structure Overlay (calls : List AddCall) (ue : UeSrsData) : Prop where
  nodup : (antennaIds ue.antennaData).Nodup
  covers : calls.map AddCall.antennaId ⊆ antennaIds ue.antennaData
  origin : ∀ a ∈ ue.antennaData,
    a ∈ calls.map AddCall.antenna ∨ a.antennaId ∉ calls.map AddCall.antennaId

theorem Overlay.nil {ue : UeSrsData} (h : (antennaIds ue.antennaData).Nodup) : Overlay [] ue :=
  ⟨h, List.nil_subset _, fun _ _ => Or.inr List.not_mem_nil⟩

/-- An addition to a record that is not full overlays it further. -/
theorem Overlay.add {n : Nat} {calls : List AddCall} {ue : UeSrsData} (h : Overlay calls ue)
    (hfull : ue.isFull n = false) (call : AddCall) :
    Overlay (calls ++ [call]) (ue.add n call) ∧
      ∀ id, id ∈ antennaIds (ue.add n call).antennaData ↔
        id ∈ antennaIds ue.antennaData ∨ id = call.antennaId := by
  have hdata : (ue.add n call).antennaData = assignAntenna ue.antennaData call.antenna := by
    rw [UeSrsData.add, hfull]
    rfl
  rw [hdata]
  refine ⟨⟨?_, ?_, ?_⟩, fun id => mem_antennaIds_assignAntenna⟩
  · rw [hdata]
    exact nodup_antennaIds_assignAntenna _ h.nodup
  · rw [hdata, List.map_append]
    intro id hid
    apply mem_antennaIds_assignAntenna.mpr
    rcases List.mem_append.mp hid with hold | hnew
    · exact Or.inl (h.covers hold)
    · exact Or.inr (List.mem_singleton.mp hnew)
  · rw [hdata, List.map_append, List.map_append]
    intro a ha
    rcases mem_assignAntenna h.nodup ha with rfl | ⟨hold, hne⟩
    · exact Or.inl (List.mem_append_right _ (List.mem_singleton_self _))
    · rcases h.origin a hold with horigin | hfree
      · exact Or.inl (List.mem_append_left _ horigin)
      · apply Or.inr
        intro hmem
        rcases List.mem_append.mp hmem with hmem | hmem
        · exact hfree hmem
        · exact hne (List.mem_singleton.mp hmem)

/-- Once the additions cover all its ids, nothing is left of the leftover. -/
theorem Overlay.all_of_subset {calls : List AddCall} {ue : UeSrsData} (h : Overlay calls ue)
    (hsub : antennaIds ue.antennaData ⊆ calls.map AddCall.antennaId) :
    ∀ a ∈ ue.antennaData, a ∈ calls.map AddCall.antenna := by
  intro a ha
  have hid : a.antennaId ∈ antennaIds ue.antennaData := List.mem_map_of_mem ha
  exact (h.origin a ha).resolve_right (not_not.mpr (hsub hid))

/-- The entry while the first pass overwrites a leftover, and after that: in step, from a
boundary where it was the record of the first pass, or gone. -/
def Realigning (ports : List UInt32) (r : UInt32) (calls : List AddCall)
    (e : Option UeSrsData) : Prop :=
  (calls.length < ports.length ∧ ∃ ue, e = some ue ∧ Overlay calls ue ∧
    antennaIds ue.antennaData ⊆ ports.dropLast) ∨
  (ports.length ≤ calls.length ∧ ∃ e₀, AtBoundary ports.length e₀ ∧
    (∀ ue, e₀ = some ue →
      ∀ a ∈ ue.antennaData, a ∈ (passOf ports.length 0 calls).map AddCall.antenna) ∧
    InStep ports.length r e₀ (calls.drop ports.length) e)

/-- A record of ports before the last one is not full. -/
theorem not_isFull_of_subset_dropLast {ports : List UInt32} (hports : ports ≠ [])
    {ue : UeSrsData} (hnodup : (antennaIds ue.antennaData).Nodup)
    (hsub : antennaIds ue.antennaData ⊆ ports.dropLast) :
    ue.isFull ports.length = false := by
  have hle := hnodup.length_le_of_subset hsub
  have hpos := List.length_pos_of_ne_nil hports
  rw [length_antennaIds, List.length_dropLast] at hle
  exact decide_eq_false (by omega)

/-- The last addition of the first pass: the entry is full, and of that pass alone. -/
theorem Overlay.last {ports : List UInt32} (hnodup : ports.Nodup) {calls : List AddCall}
    {ue : UeSrsData} (h : Overlay calls ue)
    (hsub : antennaIds ue.antennaData ⊆ ports) (hcalls : calls.map AddCall.antennaId = ports) :
    ue.isFull ports.length = true ∧
      ∀ a ∈ ue.antennaData, a ∈ calls.map AddCall.antenna := by
  have hle := (hcalls ▸ hnodup).length_le_of_subset h.covers
  rw [hcalls, length_antennaIds] at hle
  exact ⟨decide_eq_true hle, h.all_of_subset (hcalls ▸ hsub)⟩

/-- So it is a boundary to go on from. -/
theorem Overlay.realigning {ports : List UInt32} (hnodup : ports.Nodup) {r : UInt32}
    {calls : List AddCall} {ue : UeSrsData} (h : Overlay calls ue)
    (hsub : antennaIds ue.antennaData ⊆ ports) (hcalls : calls.map AddCall.antennaId = ports) :
    Realigning ports r calls (some ue) := by
  obtain ⟨hfull, hpass⟩ := h.last hnodup hsub hcalls
  have hlength : calls.length = ports.length := by
    rw [← hcalls, List.length_map]
  refine Or.inr ⟨hlength.ge, some ue, ?_, ?_, Or.inl ⟨?_, rfl⟩⟩
  · rintro u ⟨⟩
    exact hfull
  · rintro u ⟨⟩
    rw [passOf, Nat.zero_mul, List.drop_zero, List.take_of_length_le hlength.le]
    exact hpass
  · exact List.drop_eq_nil_of_le hlength.le

/-- An addition of the UE. -/
theorem Realigning.add {ports : List UInt32} (hnodup : ports.Nodup) (hports : ports ≠ [])
    {calls : List AddCall} {call : AddCall} {e : Option UeSrsData}
    (h : Realigning ports call.rnti calls e) (horder : InPortOrder ports (calls ++ [call])) :
    Realigning ports call.rnti (calls ++ [call])
      (some ((e.getD UeSrsData.zero).add ports.length call)) := by
  have hlen : (calls ++ [call]).length = calls.length + 1 := by simp
  rcases h with ⟨hlt, ue, rfl, hover, hsub⟩ | ⟨hle, e₀, hboundary, hfirst, hstep⟩
  · have hfull := not_isFull_of_subset_dropLast hports hover.nodup hsub
    obtain ⟨hover', hids⟩ := hover.add hfull call
    have hpre := horder.prefix_of_length_le (by omega)
    have hcall : call.antennaId ∈ (calls ++ [call]).map AddCall.antennaId := by simp
    rcases Nat.lt_or_ge (calls ++ [call]).length ports.length with hmore | hend
    · -- the pass goes on
      refine Or.inl ⟨hmore, _, rfl, hover', fun id hid => ?_⟩
      rcases (hids id).mp hid with hold | rfl
      · exact hsub hold
      · exact subset_dropLast_of_prefix hpre (by rwa [List.length_map]) hcall
    · -- the pass is over
      have hall : (calls ++ [call]).map AddCall.antennaId = ports := by
        apply hpre.eq_of_length_le
        rwa [List.length_map]
      have hsub' : antennaIds (ue.add ports.length call).antennaData ⊆ ports := by
        intro id hid
        rcases (hids id).mp hid with hold | rfl
        · exact List.dropLast_subset ports (hsub hold)
        · exact hall ▸ hcall
      exact hover'.realigning hnodup hsub' hall
  · -- the first pass is over, and the entry is in step
    have hdrop : (calls ++ [call]).drop ports.length = calls.drop ports.length ++ [call] :=
      List.drop_append_of_le_length hle
    have hdistinct := horder.drop.distinctPasses hnodup
    rw [hdrop] at hdistinct
    refine Or.inr ⟨by omega, e₀, hboundary, ?_, ?_⟩
    · rw [passOf_append (by omega)]
      exact hfirst
    · rw [hdrop]
      exact hstep.add (List.length_pos_of_ne_nil hports) hboundary hdistinct

/-- A collection. -/
theorem Realigning.collect {ports : List UInt32} (hports : ports ≠ []) {r : UInt32}
    {calls : List AddCall} {e : Option UeSrsData} (h : Realigning ports r calls e) :
    Realigning ports r calls (e.filter fun ue => !ue.isFull ports.length) := by
  rcases h with ⟨hlt, ue, rfl, hover, hsub⟩ | ⟨hle, e₀, hboundary, hfirst, hstep⟩
  · refine Or.inl ⟨hlt, ue, ?_, hover, hsub⟩
    rw [Option.filter_some, not_isFull_of_subset_dropLast hports hover.nodup hsub]
    rfl
  · exact Or.inr ⟨hle, e₀, hboundary, hfirst,
      hstep.collect (List.length_pos_of_ne_nil hports) hboundary⟩

/-- A full entry is of one pass, once the first pass is over. -/
theorem Realigning.ofOnePass {ports : List UInt32} {r : UInt32}
    {calls : List AddCall} {ue : UeSrsData} (h : Realigning ports r calls (some ue))
    (hfull : ue.isFull ports.length = true) (hcalls : ports.length ≤ calls.length) :
    OfOnePass ports.length calls ue := by
  rcases h with ⟨hlt, -⟩ | ⟨-, e₀, hboundary, hfirst, hstep⟩
  · exact absurd hcalls (Nat.not_le.mpr hlt)
  · by_cases hnil : calls.drop ports.length = []
    · rcases hstep with ⟨-, hue⟩ | ⟨k, hlow, hhigh, ⟨-, hnone⟩ | ⟨hlt, -⟩⟩
      · exact ⟨0, hfirst ue hue.symm⟩
      · cases hnone
      · rw [hnil] at hlt
        exact absurd hlt (Nat.not_lt_zero _)
    · obtain ⟨k, -, hrecord⟩ := hstep.eq_passRecord hfull hnil
      refine ⟨k + 1, ?_⟩
      rw [← passOf_drop, hrecord]
      exact fun a ha => ha

/-! ## A leftover that shifts the passes -/

/-- A sweep of a UE over these ports, each of which is given the same samples. -/
def sweep (r : UInt32) (samples : List Cf) (ports : List UInt32) : List AddCall :=
  ports.map fun port => ⟨r, port, samples, samples, 0⟩

@[simp] theorem length_sweep (r : UInt32) (samples : List Cf) (ports : List UInt32) :
    (sweep r samples ports).length = ports.length := List.length_map ..

@[simp] theorem antennaId_sweep (r : UInt32) (samples : List Cf) (ports : List UInt32) :
    (sweep r samples ports).map AddCall.antennaId = ports := by
  simp [sweep, Function.comp_def]

theorem sweep_append (r : UInt32) (samples : List Cf) (ports more : List UInt32) :
    sweep r samples (ports ++ more) = sweep r samples ports ++ sweep r samples more :=
  List.map_append

theorem of_mem_sweep {r : UInt32} {samples : List Cf} {ports : List UInt32} {call : AddCall}
    (h : call ∈ sweep r samples ports) : call.rnti = r ∧ call.antennaId ∈ ports ∧
      call.generatedSrs = samples ∧ call.receivedSrs = samples := by
  obtain ⟨port, hport, rfl⟩ := List.mem_map.mp h
  exact ⟨rfl, hport, rfl, rfl⟩

theorem rnti_of_mem_sweeps {r : UInt32} {samples samples' : List Cf} {ports ports' : List UInt32}
    {call : AddCall} (h : call ∈ sweep r samples ports ++ sweep r samples' ports') :
    call.rnti = r :=
  (List.mem_append.mp h).elim (fun hmem => (of_mem_sweep hmem).1) fun hmem => (of_mem_sweep hmem).1

/-- Nothing but additions of one UE. -/
theorem addsOf_map {r : UInt32} {calls : List AddCall} :
    (∀ call ∈ calls, call.rnti = r) → addsOf r (calls.map .addSrsData) = calls := by
  induction calls with
  | nil => exact fun _ => rfl
  | cons call calls ih =>
    intro h
    have hr : call.rnti = r := h call List.mem_cons_self
    have hrest := ih fun call' hcall' => h call' (List.mem_cons_of_mem _ hcall')
    rw [List.map_cons, ← List.singleton_append, addsOf_append, hrest, ← hr,
      addsOf_addSrsData, List.singleton_append]

theorem entry_run_addSrsData_concat (c : SrsDataCollector) (calls : List AddCall)
    (call : AddCall) :
    (c.run ((calls ++ [call]).map .addSrsData)).entry call.rnti =
      some ((((c.run (calls.map .addSrsData)).entry call.rnti).getD UeSrsData.zero).add
        c.numRxAntennas call) := by
  rw [List.map_append, List.map_singleton, SrsDataCollector.entry_run_concat]
  exact if_pos rfl

/-- As long as there is room, additions of new antennas extend a record. -/
theorem entry_run_extend {c : SrsDataCollector} {r : UInt32} {pass : List AddCall}
    (hc : c.entry r = some (passRecord r pass)) (more : List AddCall) :
    (∀ call ∈ more, call.rnti = r) → ((pass ++ more).map AddCall.antennaId).Nodup →
      (pass ++ more).length ≤ c.numRxAntennas →
        (c.run (more.map .addSrsData)).entry r = some (passRecord r (pass ++ more)) := by
  induction more using List.reverseRecOn with
  | nil =>
    intro _ _ _
    rw [List.append_nil]
    exact hc
  | append_singleton more call ih =>
    intro hr hnodup hroom
    have hcall : call.rnti = r := hr call (by simp)
    rw [← List.append_assoc] at hnodup hroom ⊢
    rw [List.length_append, List.length_singleton] at hroom
    have hbefore := ih (fun call' hcall' => hr call' (List.mem_append_left _ hcall'))
      (hnodup.sublist ((List.sublist_append_left _ _).map _)) (by omega)
    subst hcall
    rw [entry_run_addSrsData_concat, hbefore, Option.getD_some, add_passRecord hroom hnodup]

/-- After a boundary, additions of different antennas make a record of their own. -/
theorem entry_run_pass {c : SrsDataCollector} {r : UInt32} {calls : List AddCall}
    (hc : AtBoundary c.numRxAntennas (c.entry r)) (hne : calls ≠ [])
    (hr : ∀ call ∈ calls, call.rnti = r) (hnodup : (calls.map AddCall.antennaId).Nodup)
    (hroom : calls.length ≤ c.numRxAntennas) :
    (c.run (calls.map .addSrsData)).entry r = some (passRecord r calls) := by
  obtain ⟨call, rest, rfl⟩ := List.exists_cons_of_ne_nil hne
  obtain rfl : call.rnti = r := hr call List.mem_cons_self
  have hpos : 1 ≤ c.numRxAntennas := le_trans (by simp) hroom
  have hfirst : (c.addSrsData call).entry call.rnti = some (passRecord call.rnti [call]) := by
    rw [SrsDataCollector.entry_addSrsData, if_pos rfl, add_of_atBoundary hpos hc]
  exact entry_run_extend hfirst rest (fun call' hcall' => hr call' (List.mem_cons_of_mem _ hcall'))
    hnodup hroom

/-- Additions overlay a leftover until the entry is full. -/
theorem full_or_overlay {c : SrsDataCollector} {r : UInt32} {ue : UeSrsData}
    (hc : c.entry r = some ue) (hnodup : (antennaIds ue.antennaData).Nodup)
    (hroom : ue.isFull c.numRxAntennas = false) (calls : List AddCall) :
    (∀ call ∈ calls, call.rnti = r) →
      (∃ old new ue', calls = old ++ new ∧ old ≠ [] ∧
        (c.run (old.map .addSrsData)).entry r = some ue' ∧
        ue'.isFull c.numRxAntennas = true) ∨
      ∃ ue', (c.run (calls.map .addSrsData)).entry r = some ue' ∧ Overlay calls ue' ∧
        ue'.isFull c.numRxAntennas = false ∧
        antennaIds ue.antennaData ⊆ antennaIds ue'.antennaData := by
  induction calls using List.reverseRecOn with
  | nil => exact fun _ => Or.inr ⟨ue, hc, Overlay.nil hnodup, hroom, fun _ hid => hid⟩
  | append_singleton calls call ih =>
    intro hr
    have hcall : call.rnti = r := hr call (by simp)
    rcases ih fun call' hcall' => hr call' (List.mem_append_left _ hcall') with
      ⟨old, new, ue', rfl, hold, hentry, hfull⟩ | ⟨ue', hentry, hover, hroom', hsub⟩
    · exact Or.inl ⟨old, new ++ [call], ue', List.append_assoc .., hold, hentry, hfull⟩
    · obtain ⟨hover', hids⟩ := hover.add hroom' call
      have hafter : (c.run ((calls ++ [call]).map .addSrsData)).entry r =
          some (ue'.add c.numRxAntennas call) := by
        subst hcall
        rw [entry_run_addSrsData_concat, hentry, Option.getD_some]
      cases hfull : (ue'.add c.numRxAntennas call).isFull c.numRxAntennas with
      | true => exact Or.inl ⟨calls ++ [call], [], _, by simp, by simp, hafter, hfull⟩
      | false =>
        exact Or.inr ⟨_, hafter, hover', hfull, fun id hid => (hids id).mpr (Or.inl (hsub hid))⟩

section Sweeps

variable {c : SrsDataCollector} {r : UInt32} {ports : List UInt32} {ue : UeSrsData}
  (hports : ports.Nodup) (hn : c.numRxAntennas = ports.length)
  (hc : c.entry r = some ue) (hnodup : (antennaIds ue.antennaData).Nodup)
  (hroom : ue.isFull ports.length = false)
  (hsub : ¬ antennaIds ue.antennaData ⊆ ports.dropLast)

include hports hn hc hnodup hroom hsub

/-- The sweep finds the entry full before the last port. -/
theorem full_within_sweep (received : List Cf) :
    ∃ old new ue', ports = old ++ new ∧ old ≠ [] ∧ new ≠ [] ∧
      (c.run ((sweep r received old).map .addSrsData)).entry r = some ue' ∧
      ue'.isFull ports.length = true := by
  have hne : ports ≠ [] := by
    rintro rfl
    exact absurd hroom (by simp [UeSrsData.isFull])
  obtain ⟨last, hlast⟩ : ∃ last, ports = ports.dropLast ++ [last] :=
    ⟨_, (List.dropLast_concat_getLast hne).symm⟩
  rw [← hn] at hroom ⊢
  rcases full_or_overlay hc hnodup hroom (sweep r received ports.dropLast)
      fun _ hcall => (of_mem_sweep hcall).1 with
    ⟨old, new, ue', hsplit, hold, hentry, hfull⟩ | ⟨ue', -, hover, hroom', hids⟩
  · obtain ⟨oldPorts, newPorts, hfront, rfl, -⟩ := List.map_eq_append_iff.mp hsplit
    refine ⟨oldPorts, newPorts ++ [last], ue', ?_, ?_, by simp, hentry, hfull⟩
    · rw [← List.append_assoc, ← hfront]
      exact hlast
    · rintro rfl
      exact hold rfl
  · -- an id outside the front and the front itself make the entry full
    obtain ⟨id, hid, hout⟩ : ∃ id ∈ antennaIds ue.antennaData, id ∉ ports.dropLast := by
      by_contra hall
      push Not at hall
      exact hsub hall
    have hfront : (id :: ports.dropLast).Nodup :=
      List.nodup_cons.mpr ⟨hout, hports.sublist (List.dropLast_sublist ports)⟩
    have hcover : id :: ports.dropLast ⊆ antennaIds ue'.antennaData := by
      refine List.cons_subset.mpr ⟨hids hid, ?_⟩
      have hcovers := hover.covers
      rwa [antennaId_sweep] at hcovers
    have hle := hfront.length_le_of_subset hcover
    have hpos := List.length_pos_of_ne_nil hne
    rw [length_antennaIds, List.length_cons, List.length_dropLast] at hle
    have hfull : ue'.isFull c.numRxAntennas = true := decide_eq_true (by omega)
    rw [hroom'] at hfull
    cases hfull

/-- **After a sweep and the beginning of another, the entry is full with ports of both.** -/
theorem entry_after_sweeps (received received' : List Cf) :
    ∃ old new, ports = old ++ new ∧ old ≠ [] ∧ new ≠ [] ∧
      (c.run ((sweep r received ports ++ sweep r received' old).map .addSrsData)).entry r =
        some (passRecord r (sweep r received new ++ sweep r received' old)) := by
  obtain ⟨old, new, ue', hsplit, hold, hnew, hentry, hfull⟩ :=
    full_within_sweep hports hn hc hnodup hroom hsub received
  refine ⟨old, new, hsplit, hold, hnew, ?_⟩
  have hrun : (sweep r received ports ++ sweep r received' old).map CollectorOp.addSrsData =
      (sweep r received old).map .addSrsData ++
        (sweep r received new ++ sweep r received' old).map .addSrsData := by
    rw [hsplit, sweep_append, ← List.map_append, List.append_assoc]
  have hreached :
      (c.run ((sweep r received old).map .addSrsData)).numRxAntennas = ports.length := by
    rw [SrsDataCollector.numRxAntennas_run, hn]
  -- the full entry is cleared, so what follows is a pass of its own
  rw [hrun, SrsDataCollector.run, Mealy.exec_append]
  refine entry_run_pass ?_ ?_ (fun _ => rnti_of_mem_sweeps) ?_ ?_
  · rw [hreached, hentry]
    rintro u ⟨⟩
    exact hfull
  · intro hnil
    have hlen := congrArg List.length (List.append_eq_nil_iff.mp hnil).1
    rw [length_sweep] at hlen
    exact hnew (List.length_eq_zero_iff.mp hlen)
  · rw [List.map_append, antennaId_sweep, antennaId_sweep]
    exact (List.perm_append_comm.nodup_iff).mp (hsplit ▸ hports)
  · rw [hreached, List.length_append, length_sweep, length_sweep, hsplit, List.length_append,
      Nat.add_comm]

end Sweeps

/-! ## Exactly when a collector recovers -/

/-- The first pass of two sweeps is the first sweep, and no pass mixes them. -/
theorem passOf_sweeps {r : UInt32} {ports old : List UInt32} (hle : old.length ≤ ports.length)
    (received received' : List Cf) (k : Nat) :
    passOf ports.length k (sweep r received ports ++ sweep r received' old) =
        sweep r received ports ∨
      passOf ports.length k (sweep r received ports ++ sweep r received' old) <+:
        sweep r received' old := by
  have hfirst : (sweep r received ports).length = ports.length := length_sweep ..
  cases k with
  | zero =>
    left
    rw [passOf, Nat.zero_mul, List.drop_zero, ← hfirst, List.take_left]
  | succ k =>
    right
    have hrest : (sweep r received ports ++ sweep r received' old).drop ports.length =
        sweep r received' old := by
      rw [← hfirst, List.drop_left]
    rw [← passOf_drop, hrest, passOf]
    rcases Nat.eq_zero_or_pos k with rfl | hk
    · rw [Nat.zero_mul, List.drop_zero]
      exact List.take_prefix _ _
    · have hnil : (sweep r received' old).drop (k * ports.length) = [] := by
        apply List.drop_eq_nil_of_le
        rw [length_sweep]
        exact hle.trans (Nat.le_mul_of_pos_left _ hk)
      rw [hnil, List.take_nil]
      exact List.nil_prefix

theorem inPortOrder_sweeps {r : UInt32} {ports old : List UInt32} (hold : old <+: ports)
    (received received' : List Cf) :
    InPortOrder ports (sweep r received ports ++ sweep r received' old) := by
  intro k
  rcases passOf_sweeps (r := r) hold.length_le received received' k with heq | hpre
  · exact ⟨[], by rw [heq, antennaId_sweep, List.append_nil]⟩
  · have hids := hpre.map AddCall.antennaId
    rw [antennaId_sweep] at hids
    exact hids.trans hold

/-- A record with antennas of both sweeps is not of one pass. -/
theorem not_ofOnePass_of_sweeps {r : UInt32} {ports old new : List UInt32}
    (hle : old.length ≤ ports.length) (hold : old ≠ []) (hnew : new ≠ [])
    {received received' : List Cf} (hne : received ≠ received') :
    ¬ OfOnePass ports.length (sweep r received ports ++ sweep r received' old)
      (passRecord r (sweep r received new ++ sweep r received' old)) := by
  rintro ⟨k, hall⟩
  obtain ⟨port, rest, rfl⟩ := List.exists_cons_of_ne_nil hold
  obtain ⟨port', rest', rfl⟩ := List.exists_cons_of_ne_nil hnew
  -- one antenna of each sweep
  have hfirst := hall ⟨port', received, received⟩ (by simp [passRecord, sweep, AddCall.antenna])
  have hsecond := hall ⟨port, received', received'⟩ (by simp [passRecord, sweep, AddCall.antenna])
  obtain ⟨call, hcall, hantenna⟩ := List.mem_map.mp hfirst
  obtain ⟨call', hcall', hantenna'⟩ := List.mem_map.mp hsecond
  have hreceived : call.receivedSrs = received :=
    congrArg SrsAntennaData.receivedSrs hantenna
  have hreceived' : call'.receivedSrs = received' :=
    congrArg SrsAntennaData.receivedSrs hantenna'
  rcases passOf_sweeps (r := r) hle received received' k with heq | hpre
  · rw [heq] at hcall'
    exact hne ((of_mem_sweep hcall').2.2.2.symm.trans hreceived')
  · exact hne (hreceived.symm.trans (of_mem_sweep (hpre.subset hcall)).2.2.2)

section Reachable

variable {config : GnbSrsConfig} {ops₀ : List CollectorOp} {r : UInt32} {ports : List UInt32}
  (hports : ports.Nodup) (hne : ports ≠ []) (hn : config.numRxAntennas.toNat = ports.length)

include hn

omit hn in
/-- The calls go on from the state they have led to. -/
theorem run_run (ops : List CollectorOp) :
    ((SrsDataCollector.init config).run ops₀).run ops =
      (SrsDataCollector.init config).run (ops₀ ++ ops) :=
  (Mealy.exec_append ..).symm

theorem numRxAntennas_reached :
    ((SrsDataCollector.init config).run ops₀).numRxAntennas = ports.length := by
  rw [SrsDataCollector.numRxAntennas_run]
  exact hn

include hports hne

/-- A leftover of ports before the last one is realigned by what follows. -/
theorem realigning_run {ue : UeSrsData} {ops : List CollectorOp}
    (hue : ((SrsDataCollector.init config).run ops₀).entry r = some ue)
    (hsub : antennaIds ue.antennaData ⊆ ports.dropLast)
    (hops : ∀ op ∈ ops, op.IsReporting) (horder : InPortOrder ports (addsOf r ops)) :
    Realigning ports r (addsOf r ops)
      ((((SrsDataCollector.init config).run ops₀).run ops).entry r) := by
  have hreached := @numRxAntennas_reached config ops₀ ports hn
  have hwell := (SrsDataCollector.wellFormed_init config).run ops₀ r ue hue
  apply entry_run_induction (r := r) (P := InPortOrder ports)
    (Realigning ports r) (fun _ _ => InPortOrder.of_append)
  · exact Or.inl ⟨List.length_pos_of_ne_nil hne, ue, hue, Overlay.nil hwell.nodup, hsub⟩
  · rintro calls call e rfl hcalls hinv
    rw [hreached]
    exact hinv.add hports hne hcalls
  · intro calls e hinv
    rw [hreached]
    exact hinv.collect hne
  · exact hops
  · exact horder

/-- A collector that resynchronises recovers. -/
theorem recovers_of_resynchronises
    (h : Resynchronises ports (((SrsDataCollector.init config).run ops₀).entry r)) :
    Recovers ((SrsDataCollector.init config).run ops₀) r ports := by
  intro ops hops horder hlen ue hue hr
  have hreached := @numRxAntennas_reached config ops₀ ports hn
  rw [run_run] at hue
  obtain ⟨hentry, hfull⟩ := entry_of_mem_getAllCompleteUeData hue
  rw [hr, ← run_run] at hentry
  rw [hn] at hfull
  have hpos := List.length_pos_of_ne_nil hne
  by_cases hboundary :
      AtBoundary ports.length (((SrsDataCollector.init config).run ops₀).entry r)
  · -- in step from the start
    have hstep := inStep_run (r := r) (by rw [hreached]; exact hpos)
      (by rw [hreached]; exact hboundary) hops
      (by rw [hreached]; exact horder.distinctPasses hports)
    rw [hreached, hentry] at hstep
    obtain ⟨k, -, hrecord⟩ := hstep.eq_passRecord hfull (List.ne_nil_of_length_pos (by omega))
    refine ⟨k, ?_⟩
    rw [hrecord]
    exact fun a ha => ha
  · -- a leftover of ports before the last one
    obtain ⟨u, hu, hroom⟩ : ∃ u, ((SrsDataCollector.init config).run ops₀).entry r = some u ∧
        u.isFull ports.length ≠ true := by
      by_contra hall
      push Not at hall
      exact hboundary hall
    have hsub := (h u hu).resolve_left hroom
    have hrealigning := realigning_run hports hne hn hu hsub hops horder
    rw [hentry] at hrealigning
    exact hrealigning.ofOnePass hfull hlen

omit hne in
/-- One that does not, does not. -/
theorem not_recovers_of_not_resynchronises
    (h : ¬ Resynchronises ports (((SrsDataCollector.init config).run ops₀).entry r)) :
    ¬ Recovers ((SrsDataCollector.init config).run ops₀) r ports := by
  intro hrecovers
  obtain ⟨ue, hue, hroom, hsub⟩ : ∃ ue,
      ((SrsDataCollector.init config).run ops₀).entry r = some ue ∧
      ue.isFull ports.length ≠ true ∧ ¬ antennaIds ue.antennaData ⊆ ports.dropLast := by
    by_contra hall
    push Not at hall
    exact h fun ue hue => or_iff_not_imp_left.mpr (hall ue hue)
  have hwell := (SrsDataCollector.wellFormed_init config).run ops₀ r ue hue
  have hsome : [(⟨.finite 0, .finite 0⟩ : Cf)] ≠ [] := List.cons_ne_nil _ _
  obtain ⟨old, new, hsplit, hold, hnew, hentry⟩ := entry_after_sweeps hports
    (numRxAntennas_reached hn) hue hwell.nodup (Bool.eq_false_of_not_eq_true hroom) hsub
    [⟨.finite 0, .finite 0⟩] []
  have hpre : old <+: ports := ⟨new, hsplit.symm⟩
  have hcalls : addsOf r ((sweep r [⟨.finite 0, .finite 0⟩] ports ++ sweep r [] old).map
      .addSrsData) = sweep r [⟨.finite 0, .finite 0⟩] ports ++ sweep r [] old :=
    addsOf_map fun _ => rnti_of_mem_sweeps
  have hmixed := hrecovers _ ?_ (by rw [hcalls]; exact inPortOrder_sweeps hpre _ _)
    (by rw [hcalls, List.length_append, length_sweep]; exact Nat.le_add_right _ _)
    _ (SrsDataCollector.mem_getAllCompleteUeData.mpr ⟨r, hentry, ?_⟩) rfl
  · rw [hcalls] at hmixed
    exact not_ofOnePass_of_sweeps hpre.length_le hold hnew hsome hmixed
  · intro op hop
    obtain ⟨call, -, rfl⟩ := List.mem_map.mp hop
    trivial
  · rw [SrsDataCollector.numRxAntennas_run, numRxAntennas_reached hn, isFull_passRecord, hsplit]
    simp
    omega

end Reachable

/-- **A collector recovers from an interrupted pass of a UE exactly if what is left of it
are ports before the last one**, or nothing, or a full entry. -/
theorem recovers_iff (config : GnbSrsConfig) (ops₀ : List CollectorOp) (r : UInt32)
    (ports : List UInt32) (hports : ports.Nodup) (hne : ports ≠ [])
    (hn : config.numRxAntennas.toNat = ports.length) :
    Recovers ((SrsDataCollector.init config).run ops₀) r ports ↔
      Resynchronises ports (((SrsDataCollector.init config).run ops₀).entry r) := by
  refine ⟨?_, ?_⟩
  · intro hrecovers
    by_contra hnot
    exact not_recovers_of_not_resynchronises hports hn hnot hrecovers
  · exact recovers_of_resynchronises hports hne hn

/-- Three ports; the entry was removed before the first of them, and the pass was interrupted
after the second. -/
theorem recovers_after_cleanup :
    Recovers ((SrsDataCollector.init ⟨3, 0, 0, ⟨0⟩, ⟨0⟩, ⟨0⟩⟩).run
      [.addSrsData ⟨17, 2, [], [], 1000⟩, .cleanupOldData 5000 100,
        .addSrsData ⟨17, 0, [], [], 6000⟩, .addSrsData ⟨17, 1, [], [], 6000⟩]) 17 [0, 1, 2] :=
  (recovers_iff ⟨3, 0, 0, ⟨0⟩, ⟨0⟩, ⟨0⟩⟩ _ 17 [0, 1, 2] (by decide) (by decide) rfl).mpr
    (by decide +kernel)

/-- Two ports; the collector was registered between the two additions of a pass. -/
theorem last_port_left_over :
    ¬ Recovers ((SrsDataCollector.init ⟨2, 0, 0, ⟨0⟩, ⟨0⟩, ⟨0⟩⟩).run
      [.addSrsData ⟨17, 1, [], [], 1000⟩]) 17 [0, 1] :=
  not_recovers_of_not_resynchronises (by decide) rfl (by decide +kernel)

end RunOran
