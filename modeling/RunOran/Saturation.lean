import RunOran.IqSample
import Mathlib.Tactic.Linarith

/-!
# Saturation of the IQ samples

What `pack_iq_sample` sends of a component should be the rounded component, or the nearer end
of the sixteen-bit range: that is what its `std::clamp` is for. The clamp gets an `int32_t`,
though, and the rounded component is a 64-bit `long`, which the `static_cast` reduces modulo
`2 ^ 32` first. Within `int32_t` that changes nothing. Beyond it the clamp finds the end of the
range only if what is left after the reduction still lies beyond the same end
(`clamp_staticCastInt32_eq_iff`), so a strong sample can arrive as zero or with the opposite
sign (`strong_samples_wrap`).
-/

namespace RunOran

/-! ## Rounding -/

/-- The rounded value is nearest, and even if there are two nearest ones. -/
theorem roundHalfEven_spec (q : ℚ) :
    (roundHalfEven q : ℚ) - 1 / 2 ≤ q ∧ q ≤ roundHalfEven q + 1 / 2 ∧
      (q = roundHalfEven q - 1 / 2 ∨ q = roundHalfEven q + 1 / 2 → roundHalfEven q % 2 = 0) := by
  have hle := Int.floor_le q
  have hlt := Int.lt_floor_add_one q
  unfold roundHalfEven
  split
  · -- below the middle
    refine ⟨by linarith, by linarith, ?_⟩
    rintro (h | h) <;> linarith
  · split
    · -- above the middle
      push_cast
      refine ⟨by linarith, by linarith, ?_⟩
      rintro (h | h) <;> linarith
    · split
      · rename_i heven
        exact ⟨by linarith, by linarith, fun _ => heven⟩
      · push_cast
        refine ⟨by linarith, by linarith, fun _ => ?_⟩
        omega

theorem le_roundHalfEven_of_even {n : ℤ} (hn : n % 2 = 0) (q : ℚ) :
    n ≤ roundHalfEven q ↔ (n : ℚ) - 1 / 2 ≤ q := by
  obtain ⟨hlow, hhigh, htie⟩ := roundHalfEven_spec q
  refine ⟨fun h => ?_, fun h => ?_⟩
  · have hcast : (n : ℚ) ≤ roundHalfEven q := by exact_mod_cast h
    linarith
  · by_contra hlt
    have hcast : (roundHalfEven q : ℚ) + 1 ≤ n := by exact_mod_cast Int.not_le.mp hlt
    -- `q` is in the middle between `n - 1` and `n`
    have heq : q = roundHalfEven q + 1 / 2 := by linarith
    have hpred : (roundHalfEven q : ℚ) + 1 = n := by linarith
    have heven := htie (Or.inr heq)
    have hpred' : roundHalfEven q + 1 = n := by exact_mod_cast hpred
    omega

theorem le_roundHalfEven_of_odd {n : ℤ} (hn : n % 2 = 1) (q : ℚ) :
    n ≤ roundHalfEven q ↔ (n : ℚ) - 1 / 2 < q := by
  obtain ⟨hlow, hhigh, htie⟩ := roundHalfEven_spec q
  refine ⟨fun h => ?_, fun h => ?_⟩
  · have hcast : (n : ℚ) ≤ roundHalfEven q := by exact_mod_cast h
    by_contra hle
    have heq : q = roundHalfEven q - 1 / 2 := by linarith
    have hround : (roundHalfEven q : ℚ) = n := by linarith
    have heven := htie (Or.inl heq)
    have hround' : roundHalfEven q = n := by exact_mod_cast hround
    omega
  · by_contra hlt
    have hcast : (roundHalfEven q : ℚ) + 1 ≤ n := by exact_mod_cast Int.not_le.mp hlt
    linarith

theorem roundHalfEven_mono {p q : ℚ} (h : p ≤ q) : roundHalfEven p ≤ roundHalfEven q := by
  rcases Int.emod_two_eq_zero_or_one (roundHalfEven p) with heven | hodd
  · rw [le_roundHalfEven_of_even heven]
    exact ((le_roundHalfEven_of_even heven p).mp le_rfl).trans h
  · rw [le_roundHalfEven_of_odd hodd]
    exact ((le_roundHalfEven_of_odd hodd p).mp le_rfl).trans_le h

/-- An integer bound of a number bounds the rounded number. -/
theorem le_roundHalfEven_of_le {n : ℤ} {q : ℚ} (h : (n : ℚ) ≤ q) : n ≤ roundHalfEven q :=
  calc n = roundHalfEven (n : ℚ) := (roundHalfEven_intCast n).symm
    _ ≤ roundHalfEven q := roundHalfEven_mono h

theorem roundHalfEven_le_of_le {n : ℤ} {q : ℚ} (h : q ≤ n) : roundHalfEven q ≤ n :=
  calc roundHalfEven q ≤ roundHalfEven (n : ℚ) := roundHalfEven_mono h
    _ = n := roundHalfEven_intCast n

theorem clamp_mono {v w lo hi : ℤ} (h : lo ≤ hi) (hvw : v ≤ w) : clamp v lo hi ≤ clamp w lo hi := by
  simp only [clamp]
  split <;> split <;> omega

theorem clamp_of_le {v lo hi : ℤ} (h : v ≤ lo) (hlohi : lo ≤ hi) : clamp v lo hi = lo := by
  rw [clamp, if_neg (by omega : ¬ hi < v)]
  split <;> omega

theorem clamp_of_ge {v lo hi : ℤ} (h : hi ≤ v) (hlohi : lo ≤ hi) : clamp v lo hi = hi := by
  rw [clamp, if_neg (by omega : ¬ v < lo)]
  split <;> omega

/-! ## Narrowing before the clamp -/

/-- The integer keeps its side of the sixteen-bit range when it is reduced to 32 bits: it is
an `int32_t` already, or a multiple of `2 ^ 32` away from one beyond the same end. -/
def IntKeepsSide (n : ℤ) : Prop :=
  (-2 ^ 31 ≤ n ∧ n < 2 ^ 31) ∨
    ∃ k : ℤ, 1 ≤ k ∧
      ((32767 + k * 2 ^ 32 ≤ n ∧ n < 2 ^ 31 + k * 2 ^ 32) ∨
        (-2 ^ 31 - k * 2 ^ 32 ≤ n ∧ n ≤ -32768 - k * 2 ^ 32))

/-- **Narrowing before the clamp is harmless exactly if the integer keeps its side.** -/
theorem clamp_staticCastInt32_eq_iff (n : ℤ) :
    clamp (staticCastInt32 n) (-32768) 32767 = clamp n (-32768) 32767 ↔ IntKeepsSide n := by
  simp only [clamp, staticCastInt32, Int.bmod_def, IntKeepsSide]
  refine ⟨fun h => ?_, ?_⟩
  · by_cases hin : -2 ^ 31 ≤ n ∧ n < 2 ^ 31
    · exact Or.inl hin
    · -- `k` counts the turns, away from zero
      rcases Int.lt_or_le n 0 with hneg | hpos
      · refine Or.inr ⟨-((n + 2 ^ 31) / 2 ^ 32), ?_, Or.inr ?_⟩ <;> omega
      · refine Or.inr ⟨(n + 2 ^ 31) / 2 ^ 32, ?_, Or.inl ?_⟩ <;> omega
  · rintro (hin | ⟨k, hk, hside⟩)
    · omega
    · omega

/-- `lrint` is in range for a component below `2 ^ 50`, or wraps to the same 32 bits. -/
theorem quantise_of_abs_lt {x : ℚ} (hx : |x| < 2 ^ 50) :
    quantise (.finite x) = clamp (staticCastInt32 (roundHalfEven (8192 * x))) (-32768) 32767 := by
  obtain ⟨hlow, hhigh⟩ := abs_lt.mp hx
  have hge : -2 ^ 63 ≤ roundHalfEven (8192 * x) := by
    apply le_roundHalfEven_of_le
    push_cast
    linarith
  have hle : roundHalfEven (8192 * x) ≤ 2 ^ 63 := by
    apply roundHalfEven_le_of_le
    push_cast
    linarith
  have hnarrow : staticCastInt32 (lrint (.finite (8192 * x))) =
      staticCastInt32 (roundHalfEven (8192 * x)) := by
    simp only [lrint, staticCastInt32]
    split
    · rfl
    · -- the one value left is `2 ^ 63`
      have heq : roundHalfEven (8192 * x) = 2 ^ 63 := by omega
      rw [heq]
      decide
  rw [quantise, FloatValue.scale, mul_comm, hnarrow]

/-- The component keeps its side of the range: it is below `2 ^ 18` in magnitude (up to
rounding), or `k` times `2 ^ 19` away, on its own side, from a component below `2 ^ 18` that
lies beyond the same end of the range. -/
def KeepsSide (x : ℚ) : Prop :=
  (-2 ^ 31 - 1 / 2 ≤ 8192 * x ∧ 8192 * x < 2 ^ 31 - 1 / 2) ∨
    ∃ k : ℤ, 1 ≤ k ∧
      ((32767 - 1 / 2 < 8192 * (x - k * 2 ^ 19) ∧ 8192 * (x - k * 2 ^ 19) < 2 ^ 31 - 1 / 2) ∨
        (-2 ^ 31 - 1 / 2 ≤ 8192 * (x + k * 2 ^ 19) ∧ 8192 * (x + k * 2 ^ 19) ≤ -32768 + 1 / 2))

/-- A component keeps its side if its rounded value does. -/
theorem intKeepsSide_roundHalfEven (x : ℚ) :
    IntKeepsSide (roundHalfEven (8192 * x)) ↔ KeepsSide x := by
  have hlt : ∀ n : ℤ, n % 2 = 0 → (roundHalfEven (8192 * x) < n ↔ 8192 * x < n - 1 / 2) := by
    intro n hn
    rw [← not_le, le_roundHalfEven_of_even hn, not_le]
  have hle : ∀ n : ℤ, n % 2 = 0 → (roundHalfEven (8192 * x) ≤ n ↔ 8192 * x ≤ n + 1 / 2) := by
    intro n hn
    have hodd := le_roundHalfEven_of_odd (n := n + 1) (by omega) (8192 * x)
    rw [Int.add_one_le_iff] at hodd
    rw [← not_lt, hodd, not_lt]
    push_cast
    exact ⟨fun h => by linarith, fun h => by linarith⟩
  have hint : ∀ k : ℤ, (8192 : ℚ) * (x - k * 2 ^ 19) = 8192 * x - k * 2 ^ 32 ∧
      (8192 : ℚ) * (x + k * 2 ^ 19) = 8192 * x + k * 2 ^ 32 := by
    intro k
    refine ⟨?_, ?_⟩ <;> ring
  have hturn : ∀ k : ℤ,
      (32767 + k * 2 ^ 32 ≤ roundHalfEven (8192 * x) ∧
          roundHalfEven (8192 * x) < 2 ^ 31 + k * 2 ^ 32 ↔
        32767 - 1 / 2 < 8192 * (x - k * 2 ^ 19) ∧ 8192 * (x - k * 2 ^ 19) < 2 ^ 31 - 1 / 2) ∧
      (-2 ^ 31 - k * 2 ^ 32 ≤ roundHalfEven (8192 * x) ∧
          roundHalfEven (8192 * x) ≤ -32768 - k * 2 ^ 32 ↔
        -2 ^ 31 - 1 / 2 ≤ 8192 * (x + k * 2 ^ 19) ∧
          8192 * (x + k * 2 ^ 19) ≤ -32768 + 1 / 2) := by
    intro k
    rw [(hint k).1, (hint k).2, le_roundHalfEven_of_odd (by omega), hlt _ (by omega),
      le_roundHalfEven_of_even (by omega), hle _ (by omega)]
    push_cast
    refine ⟨⟨?_, ?_⟩, ⟨?_, ?_⟩⟩ <;>
      · rintro ⟨h₁, h₂⟩
        refine ⟨?_, ?_⟩ <;> linarith
  have hmiddle : -2 ^ 31 ≤ roundHalfEven (8192 * x) ∧ roundHalfEven (8192 * x) < 2 ^ 31 ↔
      -2 ^ 31 - 1 / 2 ≤ 8192 * x ∧ 8192 * x < 2 ^ 31 - 1 / 2 := by
    rw [le_roundHalfEven_of_even (by norm_num), hlt _ (by norm_num)]
    push_cast
    rfl
  simp only [IntKeepsSide, KeepsSide, hmiddle, (hturn _).1, (hturn _).2]

/-! ## What arrives -/

/-- A component as it arrives. -/
def receivedComponent (x : ℚ) : ℚ := quantise (.finite x) / 8192

/-- What should arrive of a component: the rounded component, clamped, which has the sign of
the component, is near it if it is in range and the nearer end of the range otherwise. -/
structure Saturates (x y : ℚ) : Prop where
  eq_clamp : y = clamp (roundHalfEven (8192 * x)) (-32768) 32767 / 8192
  nonneg : 0 ≤ x → 0 ≤ y
  nonpos : x ≤ 0 → y ≤ 0
  near : -4 ≤ x → x ≤ 32767 / 8192 → |y - x| ≤ 1 / 2 ^ 14
  above : 32767 / 8192 < x → y = 32767 / 8192
  below : x < -4 → y = -4

/-- The rest follows from the equation. -/
theorem saturates_iff {x y : ℚ} :
    Saturates x y ↔ y = clamp (roundHalfEven (8192 * x)) (-32768) 32767 / 8192 := by
  refine ⟨Saturates.eq_clamp, ?_⟩
  rintro rfl
  refine ⟨rfl, fun hx => ?_, fun hx => ?_, fun hlow hhigh => ?_, fun hx => ?_, fun hx => ?_⟩
  · have hround : 0 ≤ roundHalfEven (8192 * x) := by
      apply le_roundHalfEven_of_le
      push_cast
      linarith
    have hclamp : (0 : ℤ) ≤ clamp (roundHalfEven (8192 * x)) (-32768) 32767 :=
      clamp_mono (by norm_num) hround
    have hcast : (0 : ℚ) ≤ clamp (roundHalfEven (8192 * x)) (-32768) 32767 := by
      exact_mod_cast hclamp
    positivity
  · have hround : roundHalfEven (8192 * x) ≤ 0 := by
      apply roundHalfEven_le_of_le
      push_cast
      linarith
    have hclamp : clamp (roundHalfEven (8192 * x)) (-32768) 32767 ≤ (0 : ℤ) :=
      clamp_mono (by norm_num) hround
    have hcast : (clamp (roundHalfEven (8192 * x)) (-32768) 32767 : ℚ) ≤ 0 := by
      exact_mod_cast hclamp
    linarith
  · -- in range the clamp does nothing
    have hge : -32768 ≤ roundHalfEven (8192 * x) := by
      apply le_roundHalfEven_of_le
      push_cast
      linarith
    have hle : roundHalfEven (8192 * x) ≤ 32767 := by
      apply roundHalfEven_le_of_le
      push_cast
      linarith
    obtain ⟨hbelow, habove, -⟩ := roundHalfEven_spec (8192 * x)
    rw [clamp_of_mem hge hle, abs_le]
    refine ⟨?_, ?_⟩ <;> linarith
  · have hround : 32767 ≤ roundHalfEven (8192 * x) := by
      apply le_roundHalfEven_of_le
      push_cast
      linarith
    rw [clamp_of_ge hround (by norm_num)]
    norm_num
  · have hround : roundHalfEven (8192 * x) ≤ -32768 := by
      apply roundHalfEven_le_of_le
      push_cast
      linarith
    rw [clamp_of_le hround (by norm_num)]
    norm_num

/-- A component arrives saturated exactly if it keeps its side. -/
theorem saturates_receivedComponent_iff {x : ℚ} (hx : |x| < 2 ^ 50) :
    Saturates x (receivedComponent x) ↔ KeepsSide x := by
  rw [saturates_iff, receivedComponent, quantise_of_abs_lt hx, ← intKeepsSide_roundHalfEven,
    ← clamp_staticCastInt32_eq_iff, div_left_inj' (by norm_num), Int.cast_inj]

/-- On the components that keep their side, what arrives is monotone. -/
theorem monotoneOn_receivedComponent :
    MonotoneOn receivedComponent {x | |x| < 2 ^ 50 ∧ KeepsSide x} := by
  rintro x ⟨hx, hside⟩ y ⟨hy, hside'⟩ hxy
  rw [((saturates_receivedComponent_iff hx).mpr hside).eq_clamp,
    ((saturates_receivedComponent_iff hy).mpr hside').eq_clamp]
  have hround : roundHalfEven (8192 * x) ≤ roundHalfEven (8192 * y) :=
    roundHalfEven_mono (by linarith)
  have hclamp : clamp (roundHalfEven (8192 * x)) (-32768) 32767 ≤
      clamp (roundHalfEven (8192 * y)) (-32768) 32767 := clamp_mono (by norm_num) hround
  have hcast : (clamp (roundHalfEven (8192 * x)) (-32768) 32767 : ℚ) ≤
      clamp (roundHalfEven (8192 * y)) (-32768) 32767 := by
    exact_mod_cast hclamp
  linarith

/-- **Saturation.** Of each component of a sample below `2 ^ 50` arrives what should, exactly
if it keeps its side of the range; and on the components that do, what arrives is monotone. -/
theorem iq_samples_saturate_iff {re im : ℚ} (hre : |re| < 2 ^ 50) (him : |im| < 2 ^ 50) :
    unpackIqSample (packIqSample ⟨.finite re, .finite im⟩) =
        ⟨.finite (receivedComponent re), .finite (receivedComponent im)⟩ ∧
      (Saturates re (receivedComponent re) ↔ KeepsSide re) ∧
      (Saturates im (receivedComponent im) ↔ KeepsSide im) ∧
      MonotoneOn receivedComponent {x | |x| < 2 ^ 50 ∧ KeepsSide x} :=
  ⟨unpackIqSample_packIqSample _, saturates_receivedComponent_iff hre,
    saturates_receivedComponent_iff him, monotoneOn_receivedComponent⟩

/-- A component that is too large, and one that is `2 ^ 19` larger than such a one. -/
theorem iq_samples_saturate_five :
    unpackIqSample (packIqSample ⟨.finite 5, .finite (5 + 2 ^ 19)⟩) =
      ⟨.finite (32767 / 8192), .finite (32767 / 8192)⟩ := by
  have hre : |(5 : ℚ)| < 2 ^ 50 := by
    rw [abs_lt]
    norm_num
  have him : |(5 + 2 ^ 19 : ℚ)| < 2 ^ 50 := by
    rw [abs_lt]
    norm_num
  obtain ⟨heq, hsaturates, hsaturates', -⟩ := iq_samples_saturate_iff hre him
  have hfive : KeepsSide 5 := Or.inl (by norm_num)
  have hturn : KeepsSide (5 + 2 ^ 19) := Or.inr ⟨1, le_refl 1, Or.inl (by norm_num)⟩
  rw [heq, (hsaturates.mpr hfive).above (by norm_num),
    (hsaturates'.mpr hturn).above (by norm_num)]

/-- A component of `2 ^ 19` arrives as zero, and one of `2 ^ 18` as the negative end of the
range. -/
theorem strong_samples_wrap :
    unpackIqSample (packIqSample ⟨.finite (2 ^ 19), .finite (2 ^ 18)⟩) =
        ⟨.finite 0, .finite (-4)⟩ ∧
      ¬ Saturates (2 ^ 19) 0 ∧ ¬ Saturates (2 ^ 18) (-4) := by
  refine ⟨by decide +kernel, fun h => ?_, fun h => ?_⟩
  · have habove := h.above (by norm_num)
    norm_num at habove
  · have hnonneg := h.nonneg (by norm_num)
    norm_num at hnonneg

end RunOran
