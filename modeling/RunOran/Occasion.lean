import RunOran.Collector

/-!
# Passes and snapshots

A *pass* of a UE is what one estimate makes of it: one `add_srs_data` per receive port. The
collector is not told where a pass begins. It relies on the size test alone, which clears
a full entry at the next addition, and on collection, which erases it; so it stays in step
with the passes as long as it begins in step (`inStep_run`). `InStep` is the invariant: the
entry of the UE is the record of the current pass so far, or that of the pass that ended,
or gone.
-/

namespace RunOran

/-! ## Additions of one UE -/

/-- The additions of a UE in a sequence of calls. -/
def addsOf (r : UInt32) (ops : List CollectorOp) : List AddCall :=
  ops.filterMap fun op =>
    match op with
    | .addSrsData call => if call.rnti = r then some call else none
    | _ => none

/-- The calls that are made while the passes go on: additions, queries and collections. -/
def CollectorOp.IsReporting : CollectorOp → Prop
  | .addSrsData _ => True
  | .isComplete _ => True
  | .getAllCompleteUeData => True
  | _ => False

instance : DecidablePred CollectorOp.IsReporting
  | .addSrsData _ => isTrue trivial
  | .isComplete _ => isTrue trivial
  | .getAllCompleteUeData => isTrue trivial
  | .getAndClearUeData _ => isFalse id
  | .cleanupOldData _ _ => isFalse id

/-- The `k`-th pass among the additions of a UE, if passes have `n` additions. The last one
may be cut short by the end of the run. -/
def passOf (n k : Nat) (calls : List AddCall) : List AddCall := (calls.drop (k * n)).take n

/-- In each pass the antenna ids are distinct. -/
def DistinctPasses (n : Nat) (calls : List AddCall) : Prop :=
  ∀ k, ((passOf n k calls).map AddCall.antennaId).Nodup

/-- The record of a pass: all its samples, under the time of its last addition. -/
def passRecord (r : UInt32) (pass : List AddCall) : UeSrsData :=
  ⟨r, (pass.getLast?.map AddCall.timestamp).getD 0, pass.map AddCall.antenna⟩

/-- There are no more passes than additions. -/
theorem distinctPasses_iff {n : Nat} {calls : List AddCall} :
    DistinctPasses n calls ↔
      ∀ k < calls.length, ((passOf n k calls).map AddCall.antennaId).Nodup := by
  refine ⟨?_, ?_⟩
  · exact fun h k _ => h k
  · intro h k
    rcases Nat.lt_or_ge k calls.length with hk | hk
    · exact h k hk
    · have hnil : passOf n k calls = [] := by
        rcases Nat.eq_zero_or_pos n with rfl | hn
        · exact List.take_zero
        · rw [passOf, List.drop_eq_nil_of_le (hk.trans (Nat.le_mul_of_pos_right k hn)),
            List.take_nil]
      rw [hnil]
      exact List.nodup_nil

instance (n : Nat) (calls : List AddCall) : Decidable (DistinctPasses n calls) :=
  decidable_of_iff _ distinctPasses_iff.symm

@[simp] theorem addsOf_nil (r : UInt32) : addsOf r [] = [] := rfl

theorem addsOf_append (r : UInt32) (ops ops' : List CollectorOp) :
    addsOf r (ops ++ ops') = addsOf r ops ++ addsOf r ops' := List.filterMap_append ..

theorem addsOf_addSrsData (call : AddCall) : addsOf call.rnti [.addSrsData call] = [call] := by
  simp [addsOf]

theorem addsOf_addSrsData_of_ne {r : UInt32} {call : AddCall} (h : call.rnti ≠ r) :
    addsOf r [.addSrsData call] = [] := by
  simp [addsOf, h]

theorem mem_addsOf {r : UInt32} {ops : List CollectorOp} {call : AddCall} :
    call ∈ addsOf r ops ↔ .addSrsData call ∈ ops ∧ call.rnti = r := by
  rw [addsOf, List.mem_filterMap]
  refine ⟨?_, ?_⟩
  · rintro ⟨op, hop, hcall⟩
    cases op with
    | addSrsData call' =>
      by_cases hr : call'.rnti = r
      · simp only [if_pos hr, Option.some_inj] at hcall
        subst hcall
        exact ⟨hop, hr⟩
      · simp only [if_neg hr, reduceCtorEq] at hcall
    | _ => cases hcall
  · rintro ⟨hop, hr⟩
    exact ⟨_, hop, if_pos hr⟩

theorem passRecord_concat (pass : List AddCall) (call : AddCall) :
    passRecord call.rnti (pass ++ [call]) =
      ⟨call.rnti, call.timestamp, pass.map AddCall.antenna ++ [call.antenna]⟩ := by
  simp [passRecord]

theorem antennaIds_passRecord (r : UInt32) (pass : List AddCall) :
    antennaIds (passRecord r pass).antennaData = pass.map AddCall.antennaId := by
  simp [antennaIds, passRecord, Function.comp_def]

theorem isFull_passRecord (n : Nat) (r : UInt32) (pass : List AddCall) :
    (passRecord r pass).isFull n = decide (n ≤ pass.length) := by
  simp [UeSrsData.isFull, passRecord]

/-! ## In step with the passes -/

/-- An entry at the boundary between two passes: gone, or full and about to be cleared. -/
def AtBoundary (n : Nat) (e : Option UeSrsData) : Prop := ∀ ue, e = some ue → ue.isFull n = true

/-- The entry `e` of a UE is in step with its additions `calls`, counted from a boundary
where it was `e₀`: with the additions from the `k`-th pass on as the current pass, it is
the record of the current pass, or gone if that has not begun, or still `e₀`. -/
def InStep (n : Nat) (r : UInt32) (e₀ : Option UeSrsData) (calls : List AddCall)
    (e : Option UeSrsData) : Prop :=
  (calls = [] ∧ e = e₀) ∨
    ∃ k, k * n ≤ calls.length ∧ calls.length ≤ (k + 1) * n ∧
      ((calls.length = k * n ∧ e = none) ∨
        (k * n < calls.length ∧ e = some (passRecord r (calls.drop (k * n)))))

/-- The first addition after a boundary begins a record of its own. -/
theorem add_of_atBoundary {n : Nat} (hn : 1 ≤ n) {e : Option UeSrsData} (he : AtBoundary n e)
    (call : AddCall) : (e.getD UeSrsData.zero).add n call = passRecord call.rnti [call] := by
  cases e with
  | none =>
    have hzero : UeSrsData.zero.isFull n = false := decide_eq_false (Nat.not_le.mpr hn)
    rw [Option.getD_none, UeSrsData.add, hzero]
    rfl
  | some ue =>
    rw [Option.getD_some, UeSrsData.add, he ue rfl]
    rfl

/-- An addition to the record of an unfinished pass continues it. -/
theorem add_passRecord {n : Nat} {pass : List AddCall} {call : AddCall}
    (hlt : pass.length < n) (hnodup : ((pass ++ [call]).map AddCall.antennaId).Nodup) :
    (passRecord call.rnti pass).add n call = passRecord call.rnti (pass ++ [call]) := by
  have hnot : (passRecord call.rnti pass).isFull n = false := by
    rw [isFull_passRecord]
    exact decide_eq_false (Nat.not_le.mpr hlt)
  have hnew : call.antenna.antennaId ∉ antennaIds (pass.map AddCall.antenna) := by
    rw [List.map_append, List.nodup_append] at hnodup
    intro hmem
    have hids : antennaIds (pass.map AddCall.antenna) = pass.map AddCall.antennaId :=
      antennaIds_passRecord call.rnti pass
    rw [hids] at hmem
    exact hnodup.2.2 _ hmem _ (by simp) rfl
  rw [passRecord_concat, UeSrsData.add, hnot]
  simp only [Bool.false_eq_true, if_false]
  exact congrArg (UeSrsData.mk _ _) (assignAntenna_of_not_mem hnew)

/-- A collection leaves nothing at a boundary. -/
theorem filter_of_atBoundary {n : Nat} {e : Option UeSrsData} (he : AtBoundary n e) :
    (e.filter fun ue => !ue.isFull n) = none := by
  rw [Option.filter_eq_none_iff]
  intro ue hue
  rw [he ue hue]
  exact Bool.false_ne_true

/-- An addition of the UE keeps its entry in step. -/
theorem InStep.add {n : Nat} (hn : 1 ≤ n) {e₀ e : Option UeSrsData} (he₀ : AtBoundary n e₀)
    {calls : List AddCall} {call : AddCall} (h : InStep n call.rnti e₀ calls e)
    (hdistinct : DistinctPasses n (calls ++ [call])) :
    InStep n call.rnti e₀ (calls ++ [call]) (some ((e.getD UeSrsData.zero).add n call)) := by
  have hlen : (calls ++ [call]).length = calls.length + 1 := by simp
  rcases h with ⟨rfl, rfl⟩ | ⟨k, hlow, hhigh, ⟨heq, rfl⟩ | ⟨hlt, rfl⟩⟩
  · -- the first addition since the boundary
    refine Or.inr ⟨0, by simp, by simpa using hn, Or.inr ⟨by simp, ?_⟩⟩
    rw [add_of_atBoundary hn he₀, Nat.zero_mul, List.drop_zero, List.nil_append]
  · -- the last pass was collected
    refine Or.inr ⟨k, by omega, by rw [Nat.add_mul] at hhigh ⊢; omega, Or.inr ⟨by omega, ?_⟩⟩
    rw [add_of_atBoundary hn (fun ue hue => by cases hue), ← heq, List.drop_left]
  · by_cases hfull : calls.length = (k + 1) * n
    · -- the last pass is full and not collected: it is cleared
      have hboundary : AtBoundary n (some (passRecord call.rnti (calls.drop (k * n)))) := by
        intro ue hue
        rw [← Option.some.inj hue, isFull_passRecord, List.length_drop, decide_eq_true_eq]
        rw [Nat.add_mul] at hfull
        omega
      refine Or.inr ⟨k + 1, by omega, ?_, Or.inr ⟨by omega, ?_⟩⟩
      · rw [Nat.add_mul (k + 1)]
        omega
      · rw [add_of_atBoundary hn hboundary, ← hfull, List.drop_left]
    · -- the current pass goes on
      have hdrop : (calls ++ [call]).drop (k * n) = calls.drop (k * n) ++ [call] :=
        List.drop_append_of_le_length hlow
      have hshort : (calls.drop (k * n)).length < n := by
        rw [List.length_drop]
        rw [Nat.add_mul] at hhigh hfull
        omega
      have hpass := hdistinct k
      rw [passOf, hdrop, List.take_of_length_le (by rw [List.length_append]; exact hshort)] at hpass
      refine Or.inr ⟨k, by omega, by omega, Or.inr ⟨by omega, ?_⟩⟩
      rw [Option.getD_some, add_passRecord hshort hpass, hdrop]

/-- So does a collection. -/
theorem InStep.collect {n : Nat} (hn : 1 ≤ n) {r : UInt32} {e₀ e : Option UeSrsData}
    (he₀ : AtBoundary n e₀) {calls : List AddCall} (h : InStep n r e₀ calls e) :
    InStep n r e₀ calls (e.filter fun ue => !ue.isFull n) := by
  rcases h with ⟨rfl, rfl⟩ | ⟨k, hlow, hhigh, ⟨heq, rfl⟩ | ⟨hlt, rfl⟩⟩
  · exact Or.inr ⟨0, by simp, by simp, Or.inl ⟨by simp, filter_of_atBoundary he₀⟩⟩
  · exact Or.inr ⟨k, hlow, hhigh, Or.inl ⟨heq, rfl⟩⟩
  · have hfull := isFull_passRecord n r (calls.drop (k * n))
    rw [List.length_drop] at hfull
    by_cases hend : calls.length = (k + 1) * n
    · -- the pass is over, so its record is full and leaves
      have hnone : (some (passRecord r (calls.drop (k * n)))).filter (fun ue => !ue.isFull n) =
          none := by
        apply filter_of_atBoundary
        intro ue hue
        rw [← Option.some.inj hue, hfull, decide_eq_true_eq]
        rw [Nat.add_mul] at hend
        omega
      rw [hnone]
      refine Or.inr ⟨k + 1, by omega, ?_, Or.inl ⟨hend, rfl⟩⟩
      rw [Nat.add_mul (k + 1)]
      omega
    · -- the pass goes on, so its record stays
      have hsome : (some (passRecord r (calls.drop (k * n)))).filter (fun ue => !ue.isFull n) =
          some (passRecord r (calls.drop (k * n))) := by
        rw [Option.filter_some, hfull, decide_eq_false (by rw [Nat.add_mul] at hhigh hend; omega)]
        rfl
      rw [hsome]
      exact Or.inr ⟨k, hlow, hhigh, Or.inr ⟨hlt, rfl⟩⟩

theorem isPrefix_passOf (n k : Nat) (calls more : List AddCall) :
    passOf n k calls <+: passOf n k (calls ++ more) := by
  rw [passOf, passOf, List.drop_append, List.take_append]
  exact List.prefix_append _ _

theorem DistinctPasses.of_append {n : Nat} {calls more : List AddCall}
    (h : DistinctPasses n (calls ++ more)) : DistinctPasses n calls := fun k =>
  (h k).sublist ((isPrefix_passOf n k calls more).sublist.map _)

/-- A full pass stays what it is as additions follow. -/
theorem passOf_append {n k : Nat} {calls : List AddCall} (h : (k + 1) * n ≤ calls.length)
    (more : List AddCall) : passOf n k (calls ++ more) = passOf n k calls := by
  rw [Nat.add_mul, Nat.one_mul] at h
  rw [passOf, passOf, List.drop_append_of_le_length (by omega), List.take_append_of_le_length]
  rw [List.length_drop]
  omega

theorem length_passOf {n k : Nat} {calls : List AddCall} (h : (k + 1) * n ≤ calls.length) :
    (passOf n k calls).length = n := by
  rw [Nat.add_mul, Nat.one_mul] at h
  rw [passOf, List.length_take, List.length_drop]
  omega

/-- The invariant rule for the entry of a UE while its passes go on: `P` is what is known of
its additions, and `Inv` relates them to the entry. -/
theorem entry_run_induction {c : SrsDataCollector} {r : UInt32} {P : List AddCall → Prop}
    (Inv : List AddCall → Option UeSrsData → Prop)
    (hP : ∀ calls more, P (calls ++ more) → P calls) (h₀ : Inv [] (c.entry r))
    (hadd : ∀ calls call e, call.rnti = r → P (calls ++ [call]) → Inv calls e →
      Inv (calls ++ [call]) (some ((e.getD UeSrsData.zero).add c.numRxAntennas call)))
    (hcollect : ∀ calls e, Inv calls e →
      Inv calls (e.filter fun ue => !ue.isFull c.numRxAntennas)) {ops : List CollectorOp} :
    (∀ op ∈ ops, op.IsReporting) → P (addsOf r ops) →
      Inv (addsOf r ops) ((c.run ops).entry r) := by
  induction ops using List.reverseRecOn with
  | nil => exact fun _ _ => h₀
  | append_singleton ops op ih =>
    intro hops hadds
    rw [addsOf_append] at hadds ⊢
    have hbefore := ih (fun op' hop' => hops op' (List.mem_append_left _ hop')) (hP _ _ hadds)
    rw [SrsDataCollector.entry_run_concat]
    cases op with
    | addSrsData call =>
      rw [SrsDataCollector.entryStep]
      by_cases hr : call.rnti = r
      · have hone : addsOf r [.addSrsData call] = [call] := hr ▸ addsOf_addSrsData call
        rw [if_pos hr]
        rw [hone] at hadds ⊢
        exact hadd _ call _ hr hadds hbefore
      · rw [if_neg hr, addsOf_addSrsData_of_ne hr, List.append_nil]
        exact hbefore
    | isComplete rnti =>
      have hnone : addsOf r [.isComplete rnti] = [] := rfl
      rw [hnone, List.append_nil]
      exact hbefore
    | getAllCompleteUeData =>
      have hnone : addsOf r [.getAllCompleteUeData] = [] := rfl
      rw [hnone, List.append_nil]
      exact hcollect _ _ hbefore
    -- the other two calls are not reporting calls
    | getAndClearUeData rnti => exact (hops (.getAndClearUeData rnti) (by simp)).elim
    | cleanupOldData now timeoutUs => exact (hops (.cleanupOldData now timeoutUs) (by simp)).elim

/-- **A collector that begins at a boundary stays in step** with the passes of a UE, wherever
the collections and the other UEs' additions fall between their additions. -/
theorem inStep_run {c : SrsDataCollector} {r : UInt32} (hn : 1 ≤ c.numRxAntennas)
    (hc : AtBoundary c.numRxAntennas (c.entry r)) {ops : List CollectorOp}
    (hops : ∀ op ∈ ops, op.IsReporting)
    (hdistinct : DistinctPasses c.numRxAntennas (addsOf r ops)) :
    InStep c.numRxAntennas r (c.entry r) (addsOf r ops) ((c.run ops).entry r) := by
  refine entry_run_induction (InStep c.numRxAntennas r (c.entry r))
    (fun _ _ => DistinctPasses.of_append) (Or.inl ⟨rfl, rfl⟩) ?_ ?_ hops hdistinct
  · rintro calls call e rfl hcalls h
    exact h.add hn hc hcalls
  · exact fun _ _ h => h.collect hn hc

/-- An entry in step that is full is the record of the pass that has just ended. -/
theorem InStep.eq_passRecord {n : Nat} {r : UInt32} {e₀ : Option UeSrsData}
    {calls : List AddCall} {ue : UeSrsData} (h : InStep n r e₀ calls (some ue))
    (hfull : ue.isFull n = true) (hcalls : calls ≠ []) :
    ∃ k, calls.length = (k + 1) * n ∧ ue = passRecord r (passOf n k calls) := by
  rcases h with ⟨hnil, -⟩ | ⟨k, hlow, hhigh, ⟨-, hnone⟩ | ⟨hlt, hue⟩⟩
  · exact absurd hnil hcalls
  · cases hnone
  · obtain rfl := Option.some.inj hue
    rw [isFull_passRecord, List.length_drop, decide_eq_true_eq] at hfull
    have hend : calls.length = (k + 1) * n := by
      rw [Nat.add_mul] at hhigh ⊢
      omega
    refine ⟨k, hend, ?_⟩
    rw [passOf, List.take_of_length_le]
    rw [Nat.add_mul, Nat.one_mul] at hend
    rw [List.length_drop]
    omega

/-! ## What happens to an entry without additions -/

/-- A UE that is gone stays gone until its next addition. -/
theorem entry_run_of_none {c : SrsDataCollector} {r : UInt32} (hc : c.entry r = none)
    {ops : List CollectorOp} : addsOf r ops = [] → (c.run ops).entry r = none := by
  induction ops using List.reverseRecOn with
  | nil => exact fun _ => hc
  | append_singleton ops op ih =>
    intro hnone
    rw [addsOf_append, List.append_eq_nil_iff] at hnone
    obtain ⟨hbefore, hlast⟩ := hnone
    rw [SrsDataCollector.entry_run_concat, ih hbefore]
    cases op with
    | addSrsData call =>
      apply if_neg
      intro hr
      rw [← hr, addsOf_addSrsData] at hlast
      cases hlast
    | getAndClearUeData rnti => exact ite_self _
    | _ => rfl

/-- An entry stays as it is until the next addition or collection. -/
theorem entry_run_of_quiet {c : SrsDataCollector} {r : UInt32} {ops : List CollectorOp} :
    (∀ op ∈ ops, op.IsReporting) → addsOf r ops = [] → .getAllCompleteUeData ∉ ops →
      (c.run ops).entry r = c.entry r := by
  induction ops using List.reverseRecOn with
  | nil => exact fun _ _ _ => rfl
  | append_singleton ops op ih =>
    intro hops hnone hquiet
    rw [addsOf_append, List.append_eq_nil_iff] at hnone
    rw [List.mem_append, not_or, List.mem_singleton] at hquiet
    obtain ⟨hbefore, hlast⟩ := hnone
    obtain ⟨hquiet, hop⟩ := hquiet
    rw [SrsDataCollector.entry_run_concat,
      ih (fun op' hop' => hops op' (List.mem_append_left _ hop')) hbefore hquiet]
    cases op with
    | addSrsData call =>
      apply if_neg
      intro hr
      rw [← hr, addsOf_addSrsData] at hlast
      cases hlast
    | isComplete rnti => rfl
    | getAllCompleteUeData => exact absurd rfl hop
    | getAndClearUeData rnti => exact (hops (.getAndClearUeData rnti) (by simp)).elim
    | cleanupOldData now timeoutUs => exact (hops (.cleanupOldData now timeoutUs) (by simp)).elim

/-! ## Single-occasion snapshots -/

section Fresh

variable {config : GnbSrsConfig} (hn : 1 ≤ config.numRxAntennas.toNat)

/-- A record that a collection returns is the full entry of its UE. -/
theorem entry_of_mem_getAllCompleteUeData {ops : List CollectorOp} {ue : UeSrsData}
    (h : ue ∈ ((SrsDataCollector.init config).run ops).getAllCompleteUeData.1) :
    ((SrsDataCollector.init config).run ops).entry ue.rnti = some ue ∧
      ue.isFull config.numRxAntennas.toNat = true := by
  have hc := (SrsDataCollector.wellFormed_init config).run ops
  rwa [hc.mem_getAllCompleteUeData_iff, SrsDataCollector.numRxAntennas_run] at h

include hn

/-- A fresh collector is in step. -/
theorem inStep_run_init {r : UInt32} {ops : List CollectorOp}
    (hops : ∀ op ∈ ops, op.IsReporting)
    (hdistinct : DistinctPasses config.numRxAntennas.toNat (addsOf r ops)) :
    InStep config.numRxAntennas.toNat r none (addsOf r ops)
      (((SrsDataCollector.init config).run ops).entry r) := by
  have hboundary : AtBoundary config.numRxAntennas.toNat
      ((SrsDataCollector.init config).entry r) := fun ue hue => by
    rw [SrsDataCollector.entry_init] at hue
    cases hue
  have hrun := @inStep_run (SrsDataCollector.init config) r hn hboundary ops hops hdistinct
  rwa [SrsDataCollector.entry_init] at hrun

/-- What a collection returns for a UE is the pass that its additions have completed. -/
theorem returned_eq_passRecord {before after : List CollectorOp} {ue : UeSrsData}
    (hops : ∀ op ∈ before, op.IsReporting)
    (hdistinct : DistinctPasses config.numRxAntennas.toNat (addsOf ue.rnti (before ++ after)))
    (hue : ue ∈ ((SrsDataCollector.init config).run before).getAllCompleteUeData.1) :
    ∃ k, (addsOf ue.rnti before).length = (k + 1) * config.numRxAntennas.toNat ∧
      (passOf config.numRxAntennas.toNat k (addsOf ue.rnti (before ++ after))).length =
        config.numRxAntennas.toNat ∧
      ue = passRecord ue.rnti
        (passOf config.numRxAntennas.toNat k (addsOf ue.rnti (before ++ after))) := by
  obtain ⟨hentry, hfull⟩ := entry_of_mem_getAllCompleteUeData hue
  rw [addsOf_append] at hdistinct ⊢
  have hstep := inStep_run_init hn hops hdistinct.of_append
  have hcalls : addsOf ue.rnti before ≠ [] := by
    intro hnil
    have hnone := entry_run_of_none (SrsDataCollector.entry_init config ue.rnti) hnil
    rw [hnone] at hentry
    cases hentry
  rw [hentry] at hstep
  obtain ⟨k, hlen, hrecord⟩ := hstep.eq_passRecord hfull hcalls
  refine ⟨k, hlen, ?_⟩
  rw [passOf_append (Nat.le_of_eq hlen.symm)]
  exact ⟨length_passOf (Nat.le_of_eq hlen.symm), hrecord⟩

omit hn in
/-- A later collection that returns the UE again returns a later pass. -/
theorem returned_later {before mid : List CollectorOp} {ue ue' : UeSrsData}
    (hue : ue ∈ ((SrsDataCollector.init config).run before).getAllCompleteUeData.1)
    (hue' : ue' ∈ ((SrsDataCollector.init config).run
      (before ++ .getAllCompleteUeData :: mid)).getAllCompleteUeData.1)
    (hrnti : ue.rnti = ue'.rnti) :
    (addsOf ue.rnti before).length <
      (addsOf ue.rnti (before ++ .getAllCompleteUeData :: mid)).length := by
  obtain ⟨hentry, hfull⟩ := entry_of_mem_getAllCompleteUeData hue
  obtain ⟨hentry', -⟩ := entry_of_mem_getAllCompleteUeData hue'
  rw [addsOf_append, List.length_append, Nat.lt_add_right_iff_pos, List.length_pos_iff]
  intro hnil
  -- nothing was added in between, so the entry that was erased is still gone
  have hgone : ((SrsDataCollector.init config).run
      (before ++ [.getAllCompleteUeData])).entry ue.rnti = none := by
    rw [SrsDataCollector.entry_run_concat, hentry]
    show ((some ue).filter fun u => !u.isFull config.numRxAntennas.toNat) = none
    apply filter_of_atBoundary
    intro u hu
    rw [← Option.some.inj hu]
    exact hfull
  have hmid : addsOf ue.rnti mid = [] := hnil
  have hstill := entry_run_of_none hgone hmid
  rw [SrsDataCollector.run, ← Mealy.exec_append, List.append_assoc, List.singleton_append] at hstill
  rw [← hrnti, SrsDataCollector.run, hstill] at hentry'
  cases hentry'

/-- After an addition that completes a pass, the entry of the UE is the record of that pass. -/
theorem entry_after_pass {ops : List CollectorOp} {call : AddCall} {k : Nat}
    (hops : ∀ op ∈ ops ++ [.addSrsData call], op.IsReporting)
    (hdistinct : DistinctPasses config.numRxAntennas.toNat
      (addsOf call.rnti (ops ++ [.addSrsData call])))
    (hend : (addsOf call.rnti (ops ++ [.addSrsData call])).length =
      (k + 1) * config.numRxAntennas.toNat) :
    ((SrsDataCollector.init config).run (ops ++ [.addSrsData call])).entry call.rnti =
      some (passRecord call.rnti (passOf config.numRxAntennas.toNat k
        (addsOf call.rnti (ops ++ [.addSrsData call])))) := by
  have hstep := inStep_run_init hn hops hdistinct
  obtain ⟨ue, hue⟩ : ∃ ue, ((SrsDataCollector.init config).run
      (ops ++ [.addSrsData call])).entry call.rnti = some ue := by
    rw [SrsDataCollector.entry_run_concat, SrsDataCollector.entryStep, if_pos rfl]
    exact ⟨_, rfl⟩
  rcases hstep with ⟨hnil, -⟩ | ⟨k', hlow, hhigh, ⟨-, hnone⟩ | ⟨hlt, hrecord⟩⟩
  · rw [hnil, List.length_nil, Nat.add_mul] at hend
    omega
  · rw [hnone] at hue
    cases hue
  · -- the current pass is the one that the addition has completed
    have hk : k' = k := by
      rw [hend] at hlt hhigh
      have h₁ := Nat.lt_of_mul_lt_mul_right hlt
      have h₂ := Nat.le_of_mul_le_mul_right hhigh hn
      omega
    subst hk
    rw [hrecord, passOf, List.take_of_length_le]
    rw [List.length_drop, hend, Nat.add_mul]
    omega

/-- A completed pass waits to be collected until the next addition of the UE. -/
theorem completed_waits {before mid after : List CollectorOp} {call : AddCall} {k : Nat}
    (hops : ∀ op ∈ before ++ .addSrsData call :: mid, op.IsReporting)
    (hdistinct : DistinctPasses config.numRxAntennas.toNat
      (addsOf call.rnti (before ++ .addSrsData call :: mid ++ after)))
    (hend : (addsOf call.rnti (before ++ [.addSrsData call])).length =
      (k + 1) * config.numRxAntennas.toNat)
    (hmid : addsOf call.rnti mid = []) (hquiet : .getAllCompleteUeData ∉ mid) :
    passRecord call.rnti (passOf config.numRxAntennas.toNat k
        (addsOf call.rnti (before ++ .addSrsData call :: mid ++ after))) ∈
      ((SrsDataCollector.init config).run
        (before ++ .addSrsData call :: mid)).getAllCompleteUeData.1 := by
  have hsplit : before ++ .addSrsData call :: mid = (before ++ [.addSrsData call]) ++ mid := by simp
  rw [hsplit] at hops hdistinct ⊢
  rw [List.append_assoc, addsOf_append] at hdistinct
  have hentry := entry_after_pass hn (fun op hop => hops op (List.mem_append_left _ hop))
    hdistinct.of_append hend
  have hstays : ((SrsDataCollector.init config).run
      ((before ++ [.addSrsData call]) ++ mid)).entry call.rnti =
      ((SrsDataCollector.init config).run (before ++ [.addSrsData call])).entry call.rnti := by
    rw [SrsDataCollector.run, Mealy.exec_append]
    exact entry_run_of_quiet (fun op hop => hops op (List.mem_append_right _ hop)) hmid hquiet
  have hfull := length_passOf (Nat.le_of_eq hend.symm)
  rw [List.append_assoc (before ++ [CollectorOp.addSrsData call]) mid after,
    addsOf_append call.rnti (before ++ [CollectorOp.addSrsData call]),
    passOf_append (Nat.le_of_eq hend.symm)]
  refine SrsDataCollector.mem_getAllCompleteUeData.mpr ⟨call.rnti, hstays.trans hentry, ?_⟩
  rw [SrsDataCollector.numRxAntennas_run, isFull_passRecord, hfull]
  exact decide_eq_true (Nat.le_refl _)

end Fresh

/-- **Single-occasion snapshots.** In a run of a fresh collector in which each UE's additions
fall into passes, a collection returns for a UE the record of the pass that its additions
have just completed; it does so once, in one collection and over all; and a completed pass
is there to be collected until the UE's next addition or the next collection. -/
theorem single_occasion (config : GnbSrsConfig) (hn : 1 ≤ config.numRxAntennas.toNat)
    (ops : List CollectorOp) (hops : ∀ op ∈ ops, op.IsReporting)
    (hpasses : ∀ r, DistinctPasses config.numRxAntennas.toNat (addsOf r ops)) :
    let n := config.numRxAntennas.toNat
    let returned := fun before =>
      ((SrsDataCollector.init config).run before).getAllCompleteUeData.1
    (∀ before after, ops = before ++ .getAllCompleteUeData :: after → ∀ ue ∈ returned before,
      ∃ k, (addsOf ue.rnti before).length = (k + 1) * n ∧
        (passOf n k (addsOf ue.rnti ops)).length = n ∧
        ue = passRecord ue.rnti (passOf n k (addsOf ue.rnti ops))) ∧
    (∀ before, ((returned before).map UeSrsData.rnti).Nodup) ∧
    (∀ before mid after,
      ops = before ++ .getAllCompleteUeData :: mid ++ .getAllCompleteUeData :: after →
      ∀ ue ∈ returned before, ∀ ue' ∈ returned (before ++ .getAllCompleteUeData :: mid),
        ue.rnti = ue'.rnti →
        (addsOf ue.rnti before).length <
          (addsOf ue.rnti (before ++ .getAllCompleteUeData :: mid)).length) ∧
    ∀ before call mid after k, ops = before ++ .addSrsData call :: mid ++ after →
      (addsOf call.rnti (before ++ [.addSrsData call])).length = (k + 1) * n →
      addsOf call.rnti mid = [] → .getAllCompleteUeData ∉ mid →
      passRecord call.rnti (passOf n k (addsOf call.rnti ops)) ∈
        returned (before ++ .addSrsData call :: mid) := by
  refine ⟨?_, ?_, ?_, ?_⟩
  · rintro before after rfl ue hue
    exact returned_eq_passRecord hn (fun op hop => hops op (List.mem_append_left _ hop))
      (hpasses ue.rnti) hue
  · intro before
    exact ((SrsDataCollector.wellFormed_init config).run before).nodup_rntis
  · rintro before mid after - ue hue ue' hue' hrnti
    exact returned_later hue hue' hrnti
  · rintro before call mid after k rfl hend hmid hquiet
    exact completed_waits hn (fun op hop => hops op (List.mem_append_left _ hop))
      (hpasses call.rnti) hend hmid hquiet

/-- Two antennas; UE 17 goes through two passes, in different orders, and the first collection
falls into the pass of UE 18. -/
theorem single_occasion_two_ues :
    let config : GnbSrsConfig := ⟨2, 0, 0, ⟨0⟩, ⟨0⟩, ⟨0⟩⟩
    let before := [CollectorOp.addSrsData ⟨17, 0, [], [⟨.finite 1, .finite 0⟩], 1000⟩,
      .addSrsData ⟨18, 1, [], [], 1000⟩, .addSrsData ⟨17, 1, [], [], 1001⟩]
    let mid := [CollectorOp.addSrsData ⟨18, 0, [], [], 1002⟩, .isComplete 17,
      .addSrsData ⟨17, 1, [], [], 2000⟩, .addSrsData ⟨17, 0, [], [], 2001⟩]
    let ops := before ++ .getAllCompleteUeData :: mid ++ [.getAllCompleteUeData]
    let returned := fun before =>
      ((SrsDataCollector.init config).run before).getAllCompleteUeData.1
    returned before = [⟨17, 1001, [⟨0, [], [⟨.finite 1, .finite 0⟩]⟩, ⟨1, [], []⟩]⟩] ∧
      returned (before ++ .getAllCompleteUeData :: mid) =
        [⟨17, 2001, [⟨1, [], []⟩, ⟨0, [], []⟩]⟩, ⟨18, 1002, [⟨1, [], []⟩, ⟨0, [], []⟩]⟩] ∧
      ∀ ue ∈ returned (before ++ .getAllCompleteUeData :: mid),
        ∃ k, (addsOf ue.rnti (before ++ .getAllCompleteUeData :: mid)).length = (k + 1) * 2 ∧
          (passOf 2 k (addsOf ue.rnti ops)).length = 2 ∧
          ue = passRecord ue.rnti (passOf 2 k (addsOf ue.rnti ops)) := by
  intro config before mid ops returned
  have hpasses : ∀ r, DistinctPasses config.numRxAntennas.toNat (addsOf r ops) := by
    intro r
    by_cases h17 : r = 17
    · subst h17
      decide +kernel
    · by_cases h18 : r = 18
      · subst h18
        decide +kernel
      · have hnone : addsOf r ops = [] := by
          simp [addsOf, ops, before, mid, Ne.symm h17, Ne.symm h18]
        rw [hnone]
        decide
  have hops : ∀ op ∈ ops, op.IsReporting := by
    decide
  refine ⟨by decide +kernel, by decide +kernel, ?_⟩
  exact (single_occasion config (by decide) ops hops hpasses).1
    (before ++ .getAllCompleteUeData :: mid) [] rfl

end RunOran
