import Mathlib.Algebra.BigOperators.Ring.Finset
import Mathlib.Algebra.Star.BigOperators
import Mathlib.Algebra.Order.Chebyshev
import Mathlib.Analysis.Complex.Basic
import Mathlib.Data.Complex.BigOperators

/-!
# Orthogonal pilots

Sequences that are orthogonal to each other can be told apart in their sum: correlating it with one
of them gives the coefficient of that one (`mean_superposition_mul_star`), and its average power is
the sum of the powers of the coefficients (`averagePower_superposition`).

Of a sequence that is no such sum, the correlations give the part that is, and what is left has the
rest of the power (`sum_normSq_sub_superposition`).
-/

namespace Pilots

open Finset Complex

variable {ι κ : Type} [DecidableEq ι] [Fintype κ]

/-- The sequences have unit power and are orthogonal. -/
def Orthogonal (ports : Finset ι) (sequence : ι → κ → ℂ) : Prop :=
  ∀ a ∈ ports, ∀ b ∈ ports,
    ∑ k, sequence b k * star (sequence a k) = if b = a then (Fintype.card κ : ℂ) else 0

/-- The sum of the sequences, each with its coefficient. -/
def superposition (ports : Finset ι) (sequence : ι → κ → ℂ) (h : ι → ℂ) (k : κ) : ℂ :=
  ∑ b ∈ ports, h b * sequence b k

variable {ports : Finset ι} {sequence : ι → κ → ℂ}

/-- Correlation with a sequence singles out its coefficient. -/
theorem sum_superposition_mul_star (horthogonal : Orthogonal ports sequence) (h : ι → ℂ) {a : ι}
    (ha : a ∈ ports) :
    ∑ k, superposition ports sequence h k * star (sequence a k) = Fintype.card κ * h a := by
  calc ∑ k, superposition ports sequence h k * star (sequence a k)
      = ∑ k, ∑ b ∈ ports, h b * (sequence b k * star (sequence a k)) := by
        refine sum_congr rfl fun k _ => ?_
        rw [superposition, sum_mul]
        exact sum_congr rfl fun b _ => mul_assoc ..
    _ = ∑ b ∈ ports, h b * ∑ k, sequence b k * star (sequence a k) := by
        rw [sum_comm]
        exact sum_congr rfl fun b _ => (mul_sum ..).symm
    _ = ∑ b ∈ ports, if b = a then Fintype.card κ * h b else 0 := by
        refine sum_congr rfl fun b hb => ?_
        rw [horthogonal a ha b hb, mul_ite, mul_zero, mul_comm]
    _ = Fintype.card κ * h a := by rw [sum_ite_eq' ports a, if_pos ha]

/-- The power of the sum is that of the coefficients. -/
theorem sum_normSq_superposition (horthogonal : Orthogonal ports sequence) (h : ι → ℂ) :
    ∑ k, normSq (superposition ports sequence h k) =
      Fintype.card κ * ∑ a ∈ ports, normSq (h a) := by
  have hpower : ∀ k, (normSq (superposition ports sequence h k) : ℂ) =
      ∑ a ∈ ports, superposition ports sequence h k * star (sequence a k) * star (h a) := by
    intro k
    have hstar : star (superposition ports sequence h k) =
        ∑ a ∈ ports, star (sequence a k) * star (h a) := by
      rw [superposition, star_sum]
      exact sum_congr rfl fun a _ => star_mul ..
    rw [← mul_conj, starRingEnd_apply, hstar, mul_sum]
    exact sum_congr rfl fun a _ => (mul_assoc ..).symm
  apply ofReal_injective
  rw [ofReal_sum, ofReal_mul, ofReal_sum, ofReal_natCast]
  calc ∑ k, (normSq (superposition ports sequence h k) : ℂ)
      = ∑ a ∈ ports,
          (∑ k, superposition ports sequence h k * star (sequence a k)) * star (h a) := by
        simp only [hpower]
        rw [sum_comm]
        exact sum_congr rfl fun a _ => (sum_mul ..).symm
    _ = ∑ a ∈ ports, (Fintype.card κ : ℂ) * (normSq (h a) : ℂ) := by
        refine sum_congr rfl fun a ha => ?_
        rw [sum_superposition_mul_star horthogonal h ha, mul_assoc, ← mul_conj, starRingEnd_apply]
    _ = Fintype.card κ * ∑ a ∈ ports, (normSq (h a) : ℂ) := (mul_sum ..).symm

/-! ## What is left -/

/-- The correlation of a sequence with that of a port. -/
noncomputable def correlation (sequence : ι → κ → ℂ) (v : κ → ℂ) (a : ι) : ℂ :=
  (∑ k, v k * star (sequence a k)) / Fintype.card κ

/-- The power of a sum, by those of its terms. -/
theorem normSq_sum_le {α : Type} (s : Finset α) (z : α → ℂ) :
    normSq (∑ x ∈ s, z x) ≤ s.card * ∑ x ∈ s, normSq (z x) := by
  have htriangle : ‖∑ x ∈ s, z x‖ ≤ ∑ x ∈ s, ‖z x‖ := norm_sum_le s z
  calc normSq (∑ x ∈ s, z x)
      = ‖∑ x ∈ s, z x‖ ^ 2 := normSq_eq_norm_sq _
    _ ≤ (∑ x ∈ s, ‖z x‖) ^ 2 := pow_le_pow_left₀ (norm_nonneg _) htriangle 2
    _ ≤ s.card * ∑ x ∈ s, ‖z x‖ ^ 2 := sq_sum_le_card_mul_sum_sq
    _ = s.card * ∑ x ∈ s, normSq (z x) := by simp only [normSq_eq_norm_sq]

variable [Nonempty κ]

omit [DecidableEq ι] in
theorem card_mul_correlation (v : κ → ℂ) (a : ι) :
    Fintype.card κ * correlation sequence v a = ∑ k, v k * star (sequence a k) := by
  have hcard : (Fintype.card κ : ℂ) ≠ 0 := Nat.cast_ne_zero.mpr Fintype.card_ne_zero
  exact mul_div_cancel₀ _ hcard

/-- **The correlations and what is left share out the power.** -/
theorem sum_normSq_sub_superposition (horthogonal : Orthogonal ports sequence) (v : κ → ℂ) :
    ∑ k, normSq (v k - superposition ports sequence (correlation sequence v) k) =
      ∑ k, normSq (v k) -
        Fintype.card κ * ∑ a ∈ ports, normSq (correlation sequence v a) := by
  have hcross : ∑ k, v k * star (superposition ports sequence (correlation sequence v) k) =
      ((Fintype.card κ * ∑ a ∈ ports, normSq (correlation sequence v a) : ℝ) : ℂ) := by
    calc ∑ k, v k * star (superposition ports sequence (correlation sequence v) k)
        = ∑ a ∈ ports, (∑ k, v k * star (sequence a k)) * star (correlation sequence v a) := by
          simp only [superposition, star_sum, star_mul, mul_sum, sum_mul]
          rw [sum_comm]
          exact sum_congr rfl fun a _ => sum_congr rfl fun k _ => (mul_assoc ..).symm
      _ = ∑ a ∈ ports, (Fintype.card κ : ℂ) * (normSq (correlation sequence v a) : ℂ) := by
          refine sum_congr rfl fun a _ => ?_
          rw [← card_mul_correlation, mul_assoc, ← mul_conj, starRingEnd_apply]
      _ = ((Fintype.card κ * ∑ a ∈ ports, normSq (correlation sequence v a) : ℝ) : ℂ) := by
          rw [← mul_sum, ofReal_mul, ofReal_sum, ofReal_natCast]
  have hsplit : ∑ k, normSq (v k - superposition ports sequence (correlation sequence v) k) =
      ∑ k, normSq (v k) +
        ∑ k, normSq (superposition ports sequence (correlation sequence v) k) -
        2 * (∑ k, v k * star (superposition ports sequence (correlation sequence v) k)).re := by
    simp only [normSq_sub, starRingEnd_apply, sum_sub_distrib, sum_add_distrib, re_sum, mul_sum]
  rw [hsplit, hcross, ofReal_re, sum_normSq_superposition horthogonal]
  ring

theorem mean_superposition_mul_star (horthogonal : Orthogonal ports sequence) (h : ι → ℂ) {a : ι}
    (ha : a ∈ ports) :
    (∑ k, superposition ports sequence h k * star (sequence a k)) / Fintype.card κ = h a := by
  have hcard : (Fintype.card κ : ℂ) ≠ 0 := Nat.cast_ne_zero.mpr Fintype.card_ne_zero
  rw [sum_superposition_mul_star horthogonal h ha, mul_div_cancel_left₀ _ hcard]

theorem averagePower_superposition (horthogonal : Orthogonal ports sequence) (h : ι → ℂ) :
    (∑ k, normSq (superposition ports sequence h k)) / Fintype.card κ =
      ∑ a ∈ ports, normSq (h a) := by
  have hcard : (Fintype.card κ : ℝ) ≠ 0 := Nat.cast_ne_zero.mpr Fintype.card_ne_zero
  rw [sum_normSq_superposition horthogonal h, mul_div_cancel_left₀ _ hcard]

end Pilots
