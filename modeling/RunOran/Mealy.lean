import Mathlib.Data.List.Induction

/-!
# Runs of deterministic machines

A machine is a step function `σ → ε → σ × ο`: from a state, an event leads to a new
state and an output. This module has what every run of one shares:

* `exec` and `trace`, the state reached and the events with their outputs, and how
  they split along a concatenation;
* `exec_induction`, the invariant rule in its general form, where the invariant may
  speak about the events so far, and `exec_invariant` for the plain one;
* `observe`, what is seen of a run from outside, and `observe_filter`, unwinding: if a
  relation between states survives the events to be deleted on one side only, and the
  kept ones on both sides, then deleting them from a run does not change what is
  observed of it. `foldl_filter` is the same for a step without outputs;
* `exec_simulation` and `observe_simulation`: a machine whose events are sequences of events
  of another one reaches related states and shows the same.
-/

namespace Mealy

variable {σ ε ο : Type*} (step : σ → ε → σ × ο)

/-! ## Runs -/

/-- The state after a run. -/
def exec : σ → List ε → σ
  | s, [] => s
  | s, e :: es => exec (step s e).1 es

/-- The events of a run, each with its output. -/
def trace : σ → List ε → List (ε × ο)
  | _, [] => []
  | s, e :: es => (e, (step s e).2) :: trace (step s e).1 es

@[simp] theorem exec_nil (s : σ) : exec step s [] = s := rfl

@[simp] theorem exec_cons (s : σ) (e : ε) (es : List ε) :
    exec step s (e :: es) = exec step (step s e).1 es := rfl

@[simp] theorem trace_nil (s : σ) : trace step s [] = [] := rfl

@[simp] theorem trace_cons (s : σ) (e : ε) (es : List ε) :
    trace step s (e :: es) = (e, (step s e).2) :: trace step (step s e).1 es := rfl

theorem exec_append (s : σ) (es fs : List ε) :
    exec step s (es ++ fs) = exec step (exec step s es) fs := by
  induction es generalizing s with
  | nil => rfl
  | cons e es ih => exact ih (step s e).1

theorem trace_append (s : σ) (es fs : List ε) :
    trace step s (es ++ fs) = trace step s es ++ trace step (exec step s es) fs := by
  induction es generalizing s with
  | nil => rfl
  | cons e es ih => exact congrArg ((e, (step s e).2) :: ·) (ih (step s e).1)

theorem exec_concat (s : σ) (es : List ε) (e : ε) :
    exec step s (es ++ [e]) = (step (exec step s es) e).1 := exec_append step s es [e]

theorem trace_concat (s : σ) (es : List ε) (e : ε) :
    trace step s (es ++ [e]) = trace step s es ++ [(e, (step (exec step s es) e).2)] :=
  trace_append step s es [e]

theorem take_trace (s : σ) (es : List ε) (k : Nat) :
    (trace step s es).take k = trace step s (es.take k) := by
  induction es generalizing s k with
  | nil => rw [trace_nil, List.take_nil, List.take_nil, trace_nil]
  | cons e es ih =>
    cases k with
    | zero => rfl
    | succ k => rw [trace_cons, List.take_succ_cons, List.take_succ_cons, trace_cons, ih]

/-- The output beside an event is that of the step from the state its predecessors led to. -/
theorem getElem?_trace (s : σ) (es : List ε) (k : Nat) :
    (trace step s es)[k]? = es[k]?.map fun e => (e, (step (exec step s (es.take k)) e).2) := by
  induction es generalizing s k with
  | nil => rfl
  | cons e es ih =>
    cases k with
    | zero => rfl
    | succ k =>
      rw [trace_cons, List.getElem?_cons_succ, List.getElem?_cons_succ, List.take_succ_cons,
        exec_cons, ih]

/-! ## Invariants -/

variable {step}

/-- **The invariant rule.** `Inv es s` relates the events so far to the state they
led to; it holds of the empty run and each event preserves it. -/
theorem exec_induction {s : σ} (Inv : List ε → σ → Prop) {P : ε → Prop} (h₀ : Inv [] s)
    (hstep : ∀ es t e, P e → Inv es t → Inv (es ++ [e]) (step t e).1) :
    ∀ es, (∀ e ∈ es, P e) → Inv es (exec step s es) := by
  intro es
  induction es using List.reverseRecOn with
  | nil => exact fun _ => h₀
  | append_singleton es e ih =>
    intro hP
    rw [exec_concat]
    refine hstep es _ e (hP e (by simp)) (ih fun f hf => hP f (by simp [hf]))

/-- An invariant of the state alone. -/
theorem exec_invariant {s : σ} (Inv : σ → Prop) (h₀ : Inv s)
    (hstep : ∀ t e, Inv t → Inv (step t e).1) (es : List ε) : Inv (exec step s es) :=
  exec_induction (P := fun _ => True) (fun _ t => Inv t) h₀
    (fun _ t e _ ht => hstep t e ht) es fun _ _ => trivial

/-! ## Unwinding -/

variable (step) in
/-- What is seen of a run: `view` picks the visible part of each event's output. -/
def observe {α : Type*} (view : ε → ο → List α) (s : σ) (es : List ε) : List α :=
  (trace step s es).flatMap fun p => view p.1 p.2

@[simp] theorem observe_nil {α : Type*} (view : ε → ο → List α) (s : σ) :
    observe step view s [] = [] := rfl

theorem observe_cons {α : Type*} (view : ε → ο → List α) (s : σ) (e : ε) (es : List ε) :
    observe step view s (e :: es) =
      view e (step s e).2 ++ observe step view (step s e).1 es := List.flatMap_cons ..

theorem observe_append {α : Type*} (view : ε → ο → List α) (s : σ) (es fs : List ε) :
    observe step view s (es ++ fs) =
      observe step view s es ++ observe step view (exec step s es) fs := by
  rw [observe, trace_append, List.flatMap_append, observe, observe]

theorem observe_concat {α : Type*} (view : ε → ο → List α) (s : σ) (es : List ε) (e : ε) :
    observe step view s (es ++ [e]) =
      observe step view s es ++ view e (step (exec step s es) e).2 := by
  rw [observe_append, observe_cons, observe_nil, List.append_nil]

/-- What is seen was seen at some event of the run. -/
theorem mem_observe {α : Type*} {view : ε → ο → List α} {s : σ} {es : List ε} {a : α} :
    a ∈ observe step view s es ↔
      ∃ before e after, es = before ++ e :: after ∧ a ∈ view e (step (exec step s before) e).2 := by
  induction es generalizing s with
  | nil => simp
  | cons e es ih =>
    rw [observe_cons, List.mem_append, ih]
    refine ⟨?_, ?_⟩
    · rintro (hnow | ⟨before, f, after, rfl, hlater⟩)
      · exact ⟨[], e, es, rfl, hnow⟩
      · exact ⟨e :: before, f, after, rfl, hlater⟩
    · rintro ⟨_ | ⟨e', before⟩, f, after, heq, hmem⟩
      · obtain ⟨rfl, rfl⟩ := List.cons.inj heq
        exact Or.inl hmem
      · obtain ⟨rfl, rfl⟩ := List.cons.inj heq
        exact Or.inr ⟨before, f, after, rfl, hmem⟩

/-- **Unwinding.** Deleting the events outside `keep` does not change the
observation, if they are invisible and keep related states related when taken on one
side, and the kept ones look the same from related states and keep them related. -/
theorem observe_filter {α : Type*} {view : ε → ο → List α} {keep : ε → Bool}
    {R : σ → σ → Prop}
    (hdrop : ∀ s t e, keep e = false → R s t → R (step s e).1 t ∧ view e (step s e).2 = [])
    (hkeep : ∀ s t e, keep e = true → R s t →
      R (step s e).1 (step t e).1 ∧ view e (step s e).2 = view e (step t e).2) :
    ∀ {s t : σ} (es : List ε), R s t →
      observe step view s es = observe step view t (es.filter keep) := by
  intro s t es
  induction es generalizing s t with
  | nil => exact fun _ => rfl
  | cons e es ih =>
    intro hR
    cases he : keep e with
    | true =>
      obtain ⟨hR', hview⟩ := hkeep s t e he hR
      rw [List.filter_cons_of_pos he, observe_cons, observe_cons, hview, ih hR']
    | false =>
      obtain ⟨hR', hview⟩ := hdrop s t e he hR
      rw [List.filter_cons_of_neg (by rw [he]; exact Bool.false_ne_true), observe_cons, hview,
        List.nil_append, ih hR']

/-- Unwinding for a step without outputs. -/
theorem foldl_filter {f : σ → ε → σ} {keep : ε → Bool} {R : σ → σ → Prop}
    (hdrop : ∀ s t e, keep e = false → R s t → R (f s e) t)
    (hkeep : ∀ s t e, keep e = true → R s t → R (f s e) (f t e)) :
    ∀ {s t : σ} (es : List ε), R s t → R (es.foldl f s) ((es.filter keep).foldl f t) := by
  intro s t es
  induction es generalizing s t with
  | nil => exact id
  | cons e es ih =>
    intro hR
    cases he : keep e with
    | true =>
      rw [List.filter_cons_of_pos he, List.foldl_cons, List.foldl_cons]
      exact ih (hkeep s t e he hR)
    | false =>
      rw [List.filter_cons_of_neg (by rw [he]; exact Bool.false_ne_true), List.foldl_cons]
      exact ih (hdrop s t e he hR)

/-! ## Simulation -/

section Simulation

variable {σ' ε' ο' : Type*} {step' : σ' → ε' → σ' × ο'} {R : σ → σ' → Prop} {calls : ε → List ε'}
  (hstep : ∀ s t e, R s t → R (step s e).1 (exec step' t (calls e)))

include hstep

/-- **Simulation.** If an event keeps related states related when the other machine goes through
the events that it stands for, then so does a run. -/
theorem exec_simulation (es : List ε) :
    ∀ {s : σ} {t : σ'}, R s t → R (exec step s es) (exec step' t (es.flatMap calls)) := by
  induction es with
  | nil => exact fun h => h
  | cons e es ih =>
    intro s t h
    rw [List.flatMap_cons, exec_append]
    exact ih (hstep s t e h)

/-- And if an event shows what these events show, then so does a run. -/
theorem observe_simulation {α : Type*} {view : ε → ο → List α} {view' : ε' → ο' → List α}
    (hview : ∀ s t e, R s t → view e (step s e).2 = observe step' view' t (calls e))
    (es : List ε) : ∀ {s : σ} {t : σ'}, R s t →
      observe step view s es = observe step' view' t (es.flatMap calls) := by
  induction es with
  | nil => exact fun _ => rfl
  | cons e es ih =>
    intro s t h
    rw [observe_cons, List.flatMap_cons, observe_append, hview s t e h, ih (hstep s t e h)]

end Simulation

end Mealy
