import Mathlib.Data.Rat.Floor
import Mathlib.Tactic.NormNum
import Mathlib.Tactic.Ring

/-!
# IQ samples and their 32-bit packing

A complex baseband sample travels as one 32-bit word, the in-phase component in the
upper half and the quadrature component in the lower one, each a signed 16-bit
integer in units of `1 / 8192`.

A component is a `float`, so a rational unless it is an infinity or NaN. Scaling by
`8192 = 2 ^ 13` is exact on the rationals (a product too large for a `float` is out of
the range of `lrint` in any case), and so is the division on the way back. What is not
exact is the rounding in between, and it is modelled step by step as the code does it:
`lrint` into a 64-bit integer, narrowing to 32 bits, clamping to 16.

The two facts the codec rests on are `packIqSample_unpackIqSample` (every word is the
packing of what it unpacks to) and `unpackIqSample_packIqSample` (what is sent is the
quantised sample).
-/

namespace RunOran

/-- A `float`: a number, or an infinity or NaN. -/
inductive FloatValue where
  | finite (x : ℚ)
  | nonFinite
  deriving DecidableEq

/-- A complex sample (`cf_t`). -/
structure Cf where
  re : FloatValue
  im : FloatValue
  deriving DecidableEq

/-! ## Quantisation -/

/-- Round to the nearest integer, ties to the even one. -/
def roundHalfEven (x : ℚ) : ℤ :=
  if x - ⌊x⌋ < 1 / 2 then ⌊x⌋
  else if 1 / 2 < x - ⌊x⌋ then ⌊x⌋ + 1
  else if ⌊x⌋ % 2 = 0 then ⌊x⌋ else ⌊x⌋ + 1

/-- Multiplication by `iq_quant_scale`, which is `8192`. -/
def FloatValue.scale : FloatValue → FloatValue
  | .finite x => .finite (x * 8192)
  | .nonFinite => .nonFinite

/-- `std::lrint` with a 64-bit `long`. Out of range the result is unspecified; x86-64
returns the least `long` there. -/
def lrint : FloatValue → ℤ
  | .finite x =>
    if -2 ^ 63 ≤ roundHalfEven x ∧ roundHalfEven x < 2 ^ 63 then roundHalfEven x else -2 ^ 63
  | .nonFinite => -2 ^ 63

/-- `static_cast<int32_t>` of a `long`: reduction modulo `2 ^ 32`. -/
def staticCastInt32 (n : ℤ) : ℤ := n.bmod (2 ^ 32)

/-- `std::clamp`. -/
def clamp (v lo hi : ℤ) : ℤ := if v < lo then lo else if hi < v then hi else v

/-- One component as `pack_iq_sample` quantises it. -/
def quantise (x : FloatValue) : ℤ := clamp (staticCastInt32 (lrint x.scale)) (-32768) 32767

theorem clamp_mem (v : ℤ) {lo hi : ℤ} (h : lo ≤ hi) : lo ≤ clamp v lo hi ∧ clamp v lo hi ≤ hi := by
  unfold clamp
  split
  · exact ⟨le_refl lo, h⟩
  · split <;> omega

theorem clamp_of_mem {v lo hi : ℤ} (h₁ : lo ≤ v) (h₂ : v ≤ hi) : clamp v lo hi = v := by
  rw [clamp, if_neg (by omega), if_neg (by omega)]

theorem roundHalfEven_intCast (n : ℤ) : roundHalfEven (n : ℚ) = n := by
  rw [roundHalfEven, Int.floor_intCast, if_pos (by norm_num)]

/-- A sixteen-bit integer survives scaling, rounding, narrowing and clamping. -/
theorem quantise_div {n : ℤ} (h₁ : -32768 ≤ n) (h₂ : n ≤ 32767) :
    quantise (.finite (n / 8192)) = n := by
  have hscale : (n / 8192 : ℚ) * 8192 = (n : ℚ) := by ring
  have hlrint : lrint (FloatValue.scale (.finite (n / 8192))) = n := by
    rw [FloatValue.scale, hscale, lrint, roundHalfEven_intCast, if_pos (by omega)]
  -- the value is far inside `int32_t`
  have hnarrow : staticCastInt32 n = n := by
    unfold staticCastInt32
    rw [Int.bmod_eq_of_le] <;> omega
  rw [quantise, hlrint, hnarrow, clamp_of_mem h₁ h₂]

/-! ## Packing -/

/-- The packed word of two sixteen-bit halves. -/
def joinHalves (hi lo : BitVec 16) : UInt32 :=
  UInt32.ofBitVec (hi.setWidth 32 <<< 16 ||| lo.setWidth 32)

/-- `(packed >> 16) & 0xffff`, as a sixteen-bit value. -/
def highHalf (w : UInt32) : BitVec 16 := ((w.toBitVec >>> 16) &&& 0xffff#32).setWidth 16

/-- `packed & 0xffff`, as a sixteen-bit value. -/
def lowHalf (w : UInt32) : BitVec 16 := (w.toBitVec &&& 0xffff#32).setWidth 16

/-- `pack_iq_sample`. -/
def packIqSample (sample : Cf) : UInt32 :=
  joinHalves (BitVec.ofInt 16 (quantise sample.re)) (BitVec.ofInt 16 (quantise sample.im))

/-- `unpack_iq_sample`. -/
def unpackIqSample (packed : UInt32) : Cf :=
  ⟨.finite ((highHalf packed).toInt / 8192), .finite ((lowHalf packed).toInt / 8192)⟩

theorem toNat_setWidth_and_mask (w : BitVec 32) :
    ((w &&& 0xffff#32).setWidth 16).toNat = w.toNat % 2 ^ 16 := by
  rw [BitVec.toNat_setWidth, BitVec.toNat_and, show (0xffff#32).toNat = 2 ^ 16 - 1 from rfl,
    Nat.and_two_pow_sub_one_eq_mod, Nat.mod_mod]

theorem toNat_lowHalf (w : UInt32) : (lowHalf w).toNat = w.toNat % 2 ^ 16 :=
  toNat_setWidth_and_mask w.toBitVec

theorem toNat_highHalf (w : UInt32) : (highHalf w).toNat = w.toNat / 2 ^ 16 := by
  have hw : w.toNat < 2 ^ 32 := w.toNat_lt
  rw [highHalf, toNat_setWidth_and_mask, BitVec.toNat_ushiftRight, Nat.shiftRight_eq_div_pow,
    UInt32.toNat_toBitVec]
  exact Nat.mod_eq_of_lt (by omega)

theorem toNat_joinHalves (hi lo : BitVec 16) :
    (joinHalves hi lo).toNat = hi.toNat * 2 ^ 16 + lo.toNat := by
  have hhi := hi.isLt
  have hlo := lo.isLt
  rw [joinHalves, UInt32.toNat_ofBitVec, BitVec.toNat_or, BitVec.toNat_shiftLeft,
    BitVec.toNat_setWidth, BitVec.toNat_setWidth,
    Nat.mod_eq_of_lt (show hi.toNat < 2 ^ 32 by omega),
    Nat.mod_eq_of_lt (show lo.toNat < 2 ^ 32 by omega), Nat.shiftLeft_eq,
    Nat.mod_eq_of_lt (show hi.toNat * 2 ^ 16 < 2 ^ 32 by omega), Nat.mul_comm,
    ← Nat.two_pow_add_eq_or_of_lt hlo]

@[simp] theorem highHalf_joinHalves (hi lo : BitVec 16) : highHalf (joinHalves hi lo) = hi := by
  have hlo := lo.isLt
  apply BitVec.eq_of_toNat_eq
  rw [toNat_highHalf, toNat_joinHalves]
  omega

@[simp] theorem lowHalf_joinHalves (hi lo : BitVec 16) : lowHalf (joinHalves hi lo) = lo := by
  have hlo := lo.isLt
  apply BitVec.eq_of_toNat_eq
  rw [toNat_lowHalf, toNat_joinHalves]
  omega

@[simp] theorem joinHalves_halves (w : UInt32) : joinHalves (highHalf w) (lowHalf w) = w := by
  apply UInt32.toNat_inj.mp
  rw [toNat_joinHalves, toNat_highHalf, toNat_lowHalf]
  omega

theorem toInt_mem (b : BitVec 16) : -32768 ≤ b.toInt ∧ b.toInt ≤ 32767 := by
  have h₁ := BitVec.le_toInt b
  have h₂ := BitVec.toInt_lt (x := b)
  omega

/-- **Every word is the packing of the sample it unpacks to.** -/
theorem packIqSample_unpackIqSample (w : UInt32) : packIqSample (unpackIqSample w) = w := by
  have hhi : quantise (unpackIqSample w).re = (highHalf w).toInt :=
    quantise_div (toInt_mem _).1 (toInt_mem _).2
  have hlo : quantise (unpackIqSample w).im = (lowHalf w).toInt :=
    quantise_div (toInt_mem _).1 (toInt_mem _).2
  rw [packIqSample, hhi, hlo, BitVec.ofInt_toInt, BitVec.ofInt_toInt, joinHalves_halves]

theorem toInt_ofInt_quantise (x : FloatValue) :
    (BitVec.ofInt 16 (quantise x)).toInt = quantise x := by
  obtain ⟨h₁, h₂⟩ := clamp_mem (staticCastInt32 (lrint x.scale))
    (show (-32768 : ℤ) ≤ 32767 by decide)
  rw [BitVec.toInt_ofInt]
  unfold quantise at *
  rw [Int.bmod_eq_of_le] <;> omega

/-- A sample as it arrives: each component rounded to a multiple of `1 / 8192`. -/
theorem unpackIqSample_packIqSample (s : Cf) :
    unpackIqSample (packIqSample s) =
      ⟨.finite (quantise s.re / 8192), .finite (quantise s.im / 8192)⟩ := by
  rw [unpackIqSample, packIqSample, highHalf_joinHalves, lowHalf_joinHalves,
    toInt_ofInt_quantise, toInt_ofInt_quantise]

/-! ## Sequences -/

/-- A sequence of samples as it arrives at the other end of a link. -/
def quantiseAll (samples : List Cf) : List Cf :=
  samples.map fun s => unpackIqSample (packIqSample s)

@[simp] theorem length_quantiseAll (samples : List Cf) :
    (quantiseAll samples).length = samples.length := List.length_map ..

/-- Quantising once is enough. -/
@[simp] theorem quantiseAll_quantiseAll (samples : List Cf) :
    quantiseAll (quantiseAll samples) = quantiseAll samples := by
  simp only [quantiseAll, List.map_map, List.map_inj_left, Function.comp_apply]
  intro s _
  rw [packIqSample_unpackIqSample]

/-- What is below the resolution of `1 / 8192` is lost, and so is what exceeds the range. -/
example : quantiseAll [⟨.finite (1 / 2), .finite (-1)⟩, ⟨.finite (1 / 20000), .finite 5⟩] =
    [⟨.finite (1 / 2), .finite (-1)⟩, ⟨.finite 0, .finite (32767 / 8192)⟩] := by
  decide +kernel

end RunOran
