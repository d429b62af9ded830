import RunOran.EstimateTerms
import RunOran.Pilots
import Mathlib.Algebra.BigOperators.Field
import Mathlib.Analysis.CStarAlgebra.Classes
import Mathlib.Analysis.SpecialFunctions.Log.Base
import Mathlib.Analysis.SpecialFunctions.Sqrt

/-!
# The channel estimate in exact arithmetic

With real and complex numbers for `float` and `cf_t` the estimator can be compared with the channel.
If nothing but pilots is received, and the delay is one that the exponential table represents, the
coefficients are those of the channel and the noise variance is zero, for any number of ports and with
interleaved pilots or without (`noise_free`). Whatever is received, the squared norm of the channel
matrix is the ratio of signal to noise, cut off at 40 dB (`frobenius_norm`).
-/

namespace RunOran

open Complex

noncomputable instance : RealOps ℝ := {}

noncomputable instance : ComplexOps ℝ ℂ := {}

/-- The functions of the libraries are exact. -/
structure EstimateContext.Exact {n : Nat} (env : EstimateContext ℝ ℝ ℂ n) : Prop where
  norm_eq : ∀ z, env.norm z = normSq z
  sqrt_eq : ∀ x, env.sqrt x = √x
  mean_eq : ∀ v, env.mean v = (∑ k, v k) / n
  averagePower_eq : ∀ v, env.averagePower v = (∑ k, normSq (v k)) / n

/-- The exponential table holds the multiples of a 1024th of a turn, and what leads to it is exact. -/
structure EstimateContext.ExactPhases {n : Nat} (env : EstimateContext ℝ ℝ ℂ n) : Prop where
  cexpTable_eq : ∀ m, env.cexpTable m = exp ((2 * Real.pi * (m / 1024) : ℝ) * I)
  round_eq : ∀ m : ℤ, env.round m = m
  twoPi_eq : env.twoPi = 2 * Real.pi
  toFloat_eq : ∀ x, env.toFloat x = x
  toDouble_eq : ∀ x, env.toDouble x = x

section

variable {n : Nat} {env : EstimateContext ℝ ℝ ℂ n} {config : SrsEstimateConfiguration}

/-! ## Sums -/

theorem foldl_add_eq {M : Type} [AddCommMonoid M] (xs : List M) (x : M) :
    xs.foldl (· + ·) x = x + xs.sum := by
  induction xs generalizing x with
  | nil => rw [List.foldl_nil, List.sum_nil, add_zero]
  | cons y ys ih => rw [List.foldl_cons, ih, List.sum_cons, add_assoc]

/-- A sum as the code adds it up. -/
theorem foldl_add_zero (xs : List ℝ) : xs.foldl (· + ·) ((0 : Nat) : ℝ) = xs.sum := by
  rw [foldl_add_eq, Nat.cast_zero, zero_add]

theorem sum_flatMap {α M : Type} [AddCommMonoid M] (f : α → List M) (xs : List α) :
    (xs.flatMap f).sum = (xs.map fun x => (f x).sum).sum := by
  rw [List.flatMap, List.sum_flatten, List.map_map]
  rfl

theorem sum_map_range {M : Type} [AddCommMonoid M] (f : Nat → M) (m : Nat) :
    ((List.range m).map f).sum = ∑ i ∈ Finset.range m, f i := by
  rw [← List.toFinset_range, List.sum_toFinset _ List.nodup_range]

theorem sum_sum_map {ι α M : Type} [AddCommMonoid M] (s : Finset ι) (f : ι → α → M)
    (xs : List α) :
    ∑ i ∈ s, (xs.map (f i)).sum = (xs.map fun x => ∑ i ∈ s, f i x).sum := by
  induction xs with
  | nil => simp only [List.map_nil, List.sum_nil, Finset.sum_const_zero]
  | cons x xs ih => simp only [List.map_cons, List.sum_cons, Finset.sum_add_distrib, ih]

/-- The power of the coefficients, before they are normalised. -/
theorem sum_rsrpTerms_ports (hexact : env.Exact) : (rsrpTerms env config).sum =
    (config.ports.map fun iRxPort => ∑ iAntennaPort ∈ Finset.range config.nofAntennaPorts,
      normSq (coefficient env config iAntennaPort iRxPort)).sum := by
  rw [rsrpTerms, sum_flatMap]
  refine congrArg List.sum (List.map_congr_left fun iRxPort _ => ?_)
  rw [sum_map_range]
  exact Finset.sum_congr rfl fun _ _ => hexact.norm_eq _

/-! ## A channel without noise -/

variable (env config) in
/-- The transmit ports that share the subcarriers of a transmit port. -/
def sharing (iAntennaPort : Nat) : Finset Nat :=
  (setPorts env config (noiseSet env config iAntennaPort)).toFinset

variable (env config) in
/-- The frequency of the `k`-th subcarrier of a transmit port, in Hz. -/
def subcarrierFrequency (iAntennaPort k : Nat) : ℝ :=
  let info := env.getSrsInformation iAntennaPort
  (config.scsKhz * 1000 * (info.mappingInitialSubcarrier + info.combSize * k) : Nat)

variable (env config) in
/-- What a delay of `ta` seconds multiplies it by. -/
noncomputable def delayPhase (ta : ℝ) (iAntennaPort k : Nat) : ℂ :=
  exp ((-(2 * Real.pi * (ta * subcarrierFrequency env config iAntennaPort k)) : ℝ) * I)

variable (env config) in
/-- What is received on the subcarriers of a transmit port: the sequences of the ports that share
them, each with the coefficient of its path, and a delay. -/
noncomputable def pilots (h : Nat → UInt32 → ℂ) (ta : ℝ) (iAntennaPort : Nat) (iRxPort : UInt32)
    (k : Fin n) : ℂ :=
  Pilots.superposition (sharing env config iAntennaPort) env.sequence (fun a => h a iRxPort) k *
    delayPhase env config ta iAntennaPort k

/-- The power of a channel, over all paths. -/
def channelPower (config : SrsEstimateConfiguration) (h : Nat → UInt32 → ℂ) : ℝ :=
  (config.ports.map fun iRxPort =>
    ∑ iAntennaPort ∈ Finset.range config.nofAntennaPorts, normSq (h iAntennaPort iRxPort)).sum

/-- Nothing but pilots is received, over a channel with coefficients `h` and a delay of `ta`. -/
structure NoiseFree (env : EstimateContext ℝ ℝ ℂ n) (config : SrsEstimateConfiguration)
    (h : Nat → UInt32 → ℂ) (ta : ℝ) : Prop where
  orthogonal : ∀ iAntennaPort, Pilots.Orthogonal (sharing env config iAntennaPort) env.sequence
  received : ∀ iAntennaPort < config.nofAntennaPorts, ∀ iRxPort ∈ config.ports,
    ∀ iSymbol ∈ symbols config,
      env.rxSequence iAntennaPort iRxPort iSymbol = pilots env config h ta iAntennaPort iRxPort
  /-- The alignment estimator measures the delay. -/
  measured : ∀ iAntennaPort < config.nofAntennaPorts,
    (env.estimateTa (config.ports.map fun iRxPort =>
        pilots env config h ta iAntennaPort iRxPort * star (env.sequence iAntennaPort))
      (env.getSrsInformation iAntennaPort).combSize config.scsKhz (maxTa env config)).timeAlignment =
        ta
  comb_pos : 0 < config.combSize
  comb_eq : ∀ iAntennaPort < config.nofAntennaPorts,
    (env.getSrsInformation iAntennaPort).combSize = config.combSize
  /-- The delay turns each subcarrier by a multiple of a 1024th of a turn. -/
  on_table : ∀ iAntennaPort < config.nofAntennaPorts, ∀ k : Fin n, ∃ m : ℤ,
    1024 * (ta * subcarrierFrequency env config iAntennaPort k) = m

/-! ## Repeated symbols -/

/-- All the symbols of a path are alike. -/
theorem addReceived_const {iAntennaPort : Nat} {iRxPort : UInt32} {r : Fin n → ℂ}
    (h : ∀ iSymbol ∈ symbols config, env.rxSequence iAntennaPort iRxPort iSymbol = r)
    (v : Fin n → ℂ) : addReceived env config iAntennaPort iRxPort v = v + config.nofSymbols • r := by
  have hmap : (symbols config).map (env.rxSequence iAntennaPort iRxPort) =
      List.replicate config.nofSymbols r := by
    rw [List.map_congr_left h, List.map_const', symbols, List.length_range']
  have hfoldl := foldl_add_eq ((symbols config).map (env.rxSequence iAntennaPort iRxPort)) v
  rw [List.foldl_map, hmap, List.sum_replicate] at hfoldl
  exact hfoldl

theorem noiseSum_apply (iAntennaPort : Nat) (iRxPort : UInt32) (k : Fin n) :
    noiseSum env config iAntennaPort iRxPort k =
      ∑ iSymbol ∈ (symbols config).toFinset, env.rxSequence iAntennaPort iRxPort iSymbol k := by
  have hnodup : (symbols config).Nodup := List.nodup_range'
  have hfoldl := foldl_add_eq ((symbols config).map (env.rxSequence iAntennaPort iRxPort)) 0
  rw [List.foldl_map, zero_add, ← List.sum_toFinset _ hnodup] at hfoldl
  exact (congrFun hfoldl k).trans (Finset.sum_apply ..)

/-- The least-squares estimate is the average over the symbols, correlated with the sequence. -/
theorem lse_eq_noiseSum (hsymbols : 0 < config.nofSymbols) (iAntennaPort : Nat)
    (iRxPort : UInt32) : lse env config iAntennaPort iRxPort = fun k =>
      noiseSum env config iAntennaPort iRxPort k / config.nofSymbols *
        star (env.sequence iAntennaPort k) := by
  obtain ⟨m, hm⟩ : ∃ m, config.nofSymbols = m + 1 := Nat.exists_eq_succ_of_ne_zero hsymbols.ne'
  have hlist : symbols config = config.startSymbol :: List.range' (config.startSymbol + 1) m := by
    rw [symbols, hm, List.range'_succ]
  -- only the first symbol overwrites, and it overwrites a zero
  have hsum : (symbols config).foldl (fun v iSymbol =>
      if iSymbol = config.startSymbol then env.rxSequence iAntennaPort iRxPort iSymbol
      else v + env.rxSequence iAntennaPort iRxPort iSymbol) (0 : Fin n → ℂ) =
      noiseSum env config iAntennaPort iRxPort := by
    have hfirst : (0 : Fin n → ℂ) + env.rxSequence iAntennaPort iRxPort config.startSymbol =
        env.rxSequence iAntennaPort iRxPort config.startSymbol := zero_add _
    rw [noiseSum, addReceived, hlist, List.foldl_cons, List.foldl_cons, if_pos rfl]
    refine Eq.trans ?_ (congrArg (fun v => (List.range' (config.startSymbol + 1) m).foldl
      (fun v iSymbol => v + env.rxSequence iAntennaPort iRxPort iSymbol) v) hfirst.symm)
    apply List.foldl_ext
    intro v iSymbol hmem
    have hlater := (List.mem_range'_1.mp hmem).1
    rw [if_neg (by omega)]
  rw [lse, lseFrom]
  refine Eq.trans (congrArg (fun v : Fin n → ℂ => if config.nofSymbols > 1 then
    (((1 : Nat) : ℝ) / ((config.nofSymbols : Nat) : ℝ)) • (v * star (env.sequence iAntennaPort))
    else v * star (env.sequence iAntennaPort)) hsum) ?_
  funext k
  by_cases hmany : config.nofSymbols > 1
  · simp only [if_pos hmany, Pi.smul_apply, Pi.mul_apply, Pi.star_apply, real_smul]
    push_cast
    ring
  · have hone : config.nofSymbols = 1 := by omega
    simp only [if_neg hmany]
    rw [hone, Nat.cast_one, div_one]
    rfl

/-- Measurements that agree have the same average. -/
theorem averageTa_of_measurements {ta : ℝ} (htx : 0 < config.nofAntennaPorts)
    (h : ∀ iAntennaPort < config.nofAntennaPorts,
      (taMeasurement env config iAntennaPort).timeAlignment = ta) : averageTa env config = ta := by
  have hall : (List.range config.nofAntennaPorts).map
      (fun iAntennaPort => (taMeasurement env config iAntennaPort).timeAlignment) =
      List.replicate config.nofAntennaPorts ta := by
    rw [List.map_congr_left fun iAntennaPort hport => h iAntennaPort (List.mem_range.mp hport),
      List.map_const', List.length_range]
  have hfoldl := foldl_add_eq ((List.range config.nofAntennaPorts).map
    fun iAntennaPort => (taMeasurement env config iAntennaPort).timeAlignment) ((0 : Nat) : ℝ)
  rw [List.foldl_map] at hfoldl
  have hsum : (combinedTa env config).timeAlignment = config.nofAntennaPorts * ta := by
    refine (@List.foldl_hom _ _ _ TimeAlignmentMeasurement.timeAlignment
      (fun result iAntennaPort => result.combine (taMeasurement env config iAntennaPort))
      (fun t iAntennaPort => t + (taMeasurement env config iAntennaPort).timeAlignment)
      (List.range config.nofAntennaPorts) (initialEstimate env).2 fun _ _ => rfl).symm.trans ?_
    refine hfoldl.trans ?_
    rw [hall, List.sum_replicate, Nat.cast_zero, zero_add, nsmul_eq_mul]
  have hne : (config.nofAntennaPorts : ℝ) ≠ 0 := Nat.cast_ne_zero.mpr htx.ne'
  rw [averageTa, hsum]
  exact mul_div_cancel_left₀ ta hne

/-! ## Coefficients and residuals -/

theorem mem_sharing {iAntennaPort a : Nat} : a ∈ sharing env config iAntennaPort ↔
    a < config.nofAntennaPorts ∧
      noiseSet env config a = noiseSet env config iAntennaPort := by
  rw [sharing, List.mem_toFinset, setPorts, List.mem_filter, List.mem_range, decide_eq_true_eq]

/-- The sets share out the transmit ports. -/
theorem sum_sharing (f : Nat → ℝ) :
    ∑ i ∈ Finset.range (correctionFactor env config), ∑ a ∈ sharing env config i, f a =
      ∑ a ∈ Finset.range config.nofAntennaPorts, f a := by
  have hmaps : ∀ a ∈ Finset.range config.nofAntennaPorts,
      noiseSet env config a ∈ Finset.range (correctionFactor env config) :=
    fun a _ => Finset.mem_range.mpr (noiseSet_lt a)
  rw [← Finset.sum_fiberwise_of_maps_to hmaps]
  refine Finset.sum_congr rfl fun i hi => Finset.sum_congr ?_ fun _ _ => rfl
  ext a
  rw [mem_sharing, Finset.mem_filter, Finset.mem_range, noiseSet_of_lt (Finset.mem_range.mp hi)]

/-- What is left in a noise buffer, sample by sample. -/
theorem residual_apply {i : Nat} (hi : i < correctionFactor env config) (iRxPort : UInt32)
    (k : Fin n) : residual env config i iRxPort k =
      noiseSum env config i iRxPort k *
          compensationFactor env config (averageTa env config) i k -
        config.nofSymbols * Pilots.superposition (sharing env config i) env.sequence
          (fun a => coefficient env config a iRxPort) k := by
  have hsubtracted : ∀ (iAntennaPorts : List Nat) (v : Fin n → ℂ),
      iAntennaPorts.foldl (fun v a =>
        v - recoveredSignal env config a (coefficient env config a iRxPort)) v k =
        v k - (iAntennaPorts.map fun a =>
          config.nofSymbols * (coefficient env config a iRxPort * env.sequence a k)).sum := by
    intro iAntennaPorts
    induction iAntennaPorts with
    | nil => exact fun v => by rw [List.foldl_nil, List.map_nil, List.sum_nil, sub_zero]
    | cons a iAntennaPorts ih =>
      intro v
      rw [List.foldl_cons, ih, List.map_cons, List.sum_cons]
      change v k - env.sequence a k *
        ((config.nofSymbols : ℝ) • coefficient env config a iRxPort) - _ = _
      rw [real_smul, ofReal_natCast]
      ring
  have hnodup : (setPorts env config i).Nodup := List.nodup_range.filter _
  have hshared : (setPorts env config i).toFinset = sharing env config i := by
    rw [sharing, noiseSet_of_lt hi]
  rw [residual, hsubtracted, ← List.sum_toFinset _ hnodup, hshared, ← Finset.mul_sum,
    Pilots.superposition, compensate]

theorem averagePower_mul (hexact : env.Exact) (hn : 0 < n) (v : Fin n → ℂ) :
    env.averagePower v * n = ∑ k, normSq (v k) := by
  have hne : (n : ℝ) ≠ 0 := Nat.cast_ne_zero.mpr hn.ne'
  rw [hexact.averagePower_eq, div_mul_cancel₀ _ hne]

theorem sum_noiseTerms_ports (hexact : env.Exact) (hn : 0 < n) : (noiseTerms env config).sum =
    (config.ports.map fun iRxPort => ∑ i ∈ Finset.range (correctionFactor env config),
      ∑ k, normSq (residual env config i iRxPort k)).sum := by
  rw [noiseTerms, sum_flatMap]
  refine congrArg List.sum (List.map_congr_left fun iRxPort _ => ?_)
  rw [sum_map_range]
  exact Finset.sum_congr rfl fun i _ => averagePower_mul hexact hn _

namespace NoiseFree

variable {h : Nat → UInt32 → ℂ} {ta : ℝ}

theorem normSq_delayPhase (iAntennaPort k : Nat) :
    normSq (delayPhase env config ta iAntennaPort k) = 1 := by
  rw [delayPhase, normSq_eq_norm_sq, norm_exp_ofReal_mul_I, one_pow]

/-- **The code turns the subcarriers back.** -/
theorem delayPhase_mul_compensationFactor (hfree : NoiseFree env config h ta)
    (hphases : env.ExactPhases) {iAntennaPort : Nat} (hport : iAntennaPort < config.nofAntennaPorts)
    (k : Fin n) : delayPhase env config ta iAntennaPort k *
      compensationFactor env config ta iAntennaPort k = 1 := by
  obtain ⟨m, hm⟩ := hfree.on_table iAntennaPort hport k
  have hcomb : (config.combSize : ℝ) ≠ 0 := Nat.cast_ne_zero.mpr hfree.comb_pos.ne'
  have hpi : env.twoPi ≠ 0 := hphases.twoPi_eq.symm ▸ Real.two_pi_pos.ne'
  -- the index is the number of 1024ths by which the delay turns the subcarrier
  have hindex : ((1024 : Nat) : ℝ) * ((k : Nat) * phaseShiftSubcarrier env config ta +
      phaseShiftSubcarrier env config ta *
        ((env.getSrsInformation iAntennaPort).mappingInitialSubcarrier : Nat) /
          (config.combSize : Nat)) / env.twoPi = m := by
    have hshift : phaseShiftSubcarrier env config ta =
        env.twoPi * ta * (config.scsKhz : Nat) * ((1000 : Nat) : ℝ) * (config.combSize : Nat) := by
      rw [phaseShiftSubcarrier, hphases.toFloat_eq, hphases.toDouble_eq]
    rw [hshift, ← hm, subcarrierFrequency, hfree.comb_eq iAntennaPort hport]
    push_cast
    field_simp
    ring
  have hfactor : compensationFactor env config ta iAntennaPort k =
      exp ((2 * Real.pi * (m / 1024) : ℝ) * I) := by
    rw [← hphases.cexpTable_eq, ← hphases.round_eq m, ← hindex]
    rfl
  have hturn : ta * subcarrierFrequency env config iAntennaPort k = m / 1024 := by
    rw [← hm, mul_div_cancel_left₀ _ (by norm_num)]
  rw [delayPhase, hfactor, hturn, ← exp_add, ← add_mul, ← ofReal_add, neg_add_cancel, ofReal_zero,
    zero_mul, exp_zero]

theorem lse_eq (hfree : NoiseFree env config h ta) (hsymbols : 0 < config.nofSymbols)
    {iAntennaPort : Nat} (hport : iAntennaPort < config.nofAntennaPorts) {iRxPort : UInt32}
    (hrx : iRxPort ∈ config.ports) : lse env config iAntennaPort iRxPort =
      pilots env config h ta iAntennaPort iRxPort * star (env.sequence iAntennaPort) := by
  have hne : (config.nofSymbols : ℂ) ≠ 0 := Nat.cast_ne_zero.mpr hsymbols.ne'
  have hsum : noiseSum env config iAntennaPort iRxPort =
      0 + config.nofSymbols • pilots env config h ta iAntennaPort iRxPort :=
    addReceived_const (hfree.received iAntennaPort hport iRxPort hrx) 0
  rw [lse_eq_noiseSum hsymbols, hsum]
  funext k
  rw [zero_add, Pi.smul_apply, nsmul_eq_mul, mul_div_cancel_left₀ _ hne]
  rfl

theorem timeAlignment_taMeasurement (hfree : NoiseFree env config h ta)
    (hsymbols : 0 < config.nofSymbols) {iAntennaPort : Nat}
    (hport : iAntennaPort < config.nofAntennaPorts) :
    (taMeasurement env config iAntennaPort).timeAlignment = ta := by
  have hslices : config.ports.map (lse env config iAntennaPort) = config.ports.map fun iRxPort =>
      pilots env config h ta iAntennaPort iRxPort * star (env.sequence iAntennaPort) :=
    List.map_congr_left fun iRxPort hrx => hfree.lse_eq hsymbols hport hrx
  rw [taMeasurement, hslices]
  exact hfree.measured iAntennaPort hport

theorem averageTa_eq (hfree : NoiseFree env config h ta) (hsymbols : 0 < config.nofSymbols)
    (htx : 0 < config.nofAntennaPorts) : averageTa env config = ta :=
  averageTa_of_measurements htx fun _ hport => hfree.timeAlignment_taMeasurement hsymbols hport

/-- **The coefficient of a path is that of the channel.** -/
theorem coefficient_eq (hfree : NoiseFree env config h ta) (hexact : env.Exact)
    (hphases : env.ExactPhases) (hn : 0 < n) (hsymbols : 0 < config.nofSymbols) {iAntennaPort : Nat}
    (hport : iAntennaPort < config.nofAntennaPorts) {iRxPort : UInt32}
    (hrx : iRxPort ∈ config.ports) :
    coefficient env config iAntennaPort iRxPort = h iAntennaPort iRxPort := by
  have : Nonempty (Fin n) := ⟨⟨0, hn⟩⟩
  have hself : iAntennaPort ∈ sharing env config iAntennaPort := mem_sharing.mpr ⟨hport, rfl⟩
  have hcancel : ∀ k, compensate env config ta iAntennaPort
      (lse env config iAntennaPort iRxPort) k =
      Pilots.superposition (sharing env config iAntennaPort) env.sequence
        (fun a => h a iRxPort) k * star (env.sequence iAntennaPort k) := by
    intro k
    have hfactor := hfree.delayPhase_mul_compensationFactor hphases hport k
    rw [hfree.lse_eq hsymbols hport hrx]
    change pilots env config h ta iAntennaPort iRxPort k * star (env.sequence iAntennaPort k) *
      compensationFactor env config ta iAntennaPort k = _
    rw [pilots]
    linear_combination (Pilots.superposition (sharing env config iAntennaPort) env.sequence
      (fun a => h a iRxPort) k * star (env.sequence iAntennaPort k)) * hfactor
  have hmean := Pilots.mean_superposition_mul_star (hfree.orthogonal iAntennaPort)
    (fun a => h a iRxPort) hself
  rw [Fintype.card_fin] at hmean
  rw [coefficient, hfree.averageTa_eq hsymbols (by omega), hexact.mean_eq, ← hmean]
  exact congrArg (· / (n : ℂ)) (Finset.sum_congr rfl fun k _ => hcancel k)

/-- **Nothing is left in the noise buffers.** -/
theorem residual_eq (hfree : NoiseFree env config h ta) (hexact : env.Exact)
    (hphases : env.ExactPhases) (hn : 0 < n) (hsymbols : 0 < config.nofSymbols)
    (htx : 0 < config.nofAntennaPorts) {i : Nat} (hi : i < correctionFactor env config)
    {iRxPort : UInt32} (hrx : iRxPort ∈ config.ports) : residual env config i iRxPort = 0 := by
  have hport : i < config.nofAntennaPorts := lt_of_lt_of_le hi (correctionFactor_le env htx)
  have hsum : noiseSum env config i iRxPort =
      config.nofSymbols • pilots env config h ta i iRxPort := by
    rw [noiseSum, addReceived_const (hfree.received i hport iRxPort hrx), zero_add]
  have hcoefficients : ∀ k, Pilots.superposition (sharing env config i) env.sequence
      (fun a => coefficient env config a iRxPort) k =
      Pilots.superposition (sharing env config i) env.sequence (fun a => h a iRxPort) k :=
    fun k => Finset.sum_congr rfl fun a ha => congrArg (· * env.sequence a k)
      (hfree.coefficient_eq hexact hphases hn hsymbols (mem_sharing.mp ha).1 hrx)
  funext k
  have hfactor := hfree.delayPhase_mul_compensationFactor hphases hport k
  rw [residual_apply hi, hcoefficients, hsum, hfree.averageTa_eq hsymbols htx, Pi.zero_apply,
    Pi.smul_apply, pilots, nsmul_eq_mul]
  linear_combination (config.nofSymbols * Pilots.superposition (sharing env config i) env.sequence
    (fun a => h a iRxPort) k) * hfactor

/-! ## Powers -/

theorem sum_rsrpTerms (hfree : NoiseFree env config h ta) (hexact : env.Exact)
    (hphases : env.ExactPhases) (hn : 0 < n) (hsymbols : 0 < config.nofSymbols) :
    (rsrpTerms env config).sum = channelPower config h := by
  rw [sum_rsrpTerms_ports hexact, channelPower]
  refine congrArg List.sum (List.map_congr_left fun iRxPort hrx => ?_)
  refine Finset.sum_congr rfl fun iAntennaPort hport => ?_
  rw [hfree.coefficient_eq hexact hphases hn hsymbols (Finset.mem_range.mp hport) hrx]

theorem averagePower_pilots (hfree : NoiseFree env config h ta) (hexact : env.Exact)
    (hn : 0 < n) (iAntennaPort : Nat) (iRxPort : UInt32) :
    env.averagePower (pilots env config h ta iAntennaPort iRxPort) =
      ∑ a ∈ sharing env config iAntennaPort, normSq (h a iRxPort) := by
  have : Nonempty (Fin n) := ⟨⟨0, hn⟩⟩
  have hpower := Pilots.averagePower_superposition (hfree.orthogonal iAntennaPort)
    (fun a => h a iRxPort)
  rw [Fintype.card_fin] at hpower
  rw [hexact.averagePower_eq, ← hpower]
  refine congrArg (· / (n : ℝ)) (Finset.sum_congr rfl fun k _ => ?_)
  rw [pilots, normSq_mul, normSq_delayPhase, mul_one]

theorem sum_epreTerms (hfree : NoiseFree env config h ta) (hexact : env.Exact) (hn : 0 < n)
    (htx : 0 < config.nofAntennaPorts) :
    (epreTerms env config).sum = config.nofSymbols * channelPower config h := by
  have hport : ∀ iAntennaPort < config.nofAntennaPorts,
      (config.ports.flatMap fun iRxPort => (symbols config).map fun iSymbol =>
        env.averagePower (env.rxSequence iAntennaPort iRxPort iSymbol)).sum =
        (config.ports.map fun iRxPort =>
          config.nofSymbols * ∑ a ∈ sharing env config iAntennaPort, normSq (h a iRxPort)).sum := by
    intro iAntennaPort hport
    rw [sum_flatMap]
    refine congrArg List.sum (List.map_congr_left fun iRxPort hrx => ?_)
    rw [List.map_congr_left fun iSymbol hsymbol => by
      rw [hfree.received iAntennaPort hport iRxPort hrx iSymbol hsymbol,
        hfree.averagePower_pilots hexact hn], List.map_const', List.sum_replicate, symbols,
      List.length_range', nsmul_eq_mul]
  rw [epreTerms, sum_flatMap, List.map_congr_left fun iAntennaPort hmem => hport iAntennaPort
    (lt_of_lt_of_le (List.mem_range.mp hmem) (correctionFactor_le env htx))]
  rw [sum_map_range, sum_sum_map, channelPower, ← List.sum_map_mul_left]
  refine congrArg List.sum (List.map_congr_left fun iRxPort _ => ?_)
  rw [← Finset.mul_sum, sum_sharing]

end NoiseFree

/-! ## Normalisation -/

theorem noiseVariance_eq : noiseVariance env config = (noiseTerms env config).sum /
    (((config.nofSymbols * n - nofEstimates env config) * correctionFactor env config *
      config.ports.length : Nat) : ℝ) :=
  congrArg (· / _) (foldl_add_zero (noiseTerms env config))

variable (config) in
theorem sum_noiseTerms_nonneg (hexact : env.Exact) : 0 ≤ (noiseTerms env config).sum := by
  refine List.sum_nonneg fun x hx => ?_
  simp only [noiseTerms, List.mem_flatMap, List.mem_map] at hx
  obtain ⟨iRxPort, -, i, -, rfl⟩ := hx
  rw [hexact.averagePower_eq]
  refine mul_nonneg (div_nonneg (Finset.sum_nonneg fun k _ => normSq_nonneg _) ?_) ?_
  · exact Nat.cast_nonneg _
  · exact Nat.cast_nonneg _

end

/-! ## Examples -/

/-- Exact libraries around what two transmit ports send and what is received. -/
noncomputable def exactContext {n : Nat} (received : UInt32 → Nat → Fin n → ℂ) (ta : ℝ) :
    EstimateContext ℝ ℝ ℂ n where
  getSrsInformation iAntennaPort := ⟨0, 0, iAntennaPort, 8, 0, 2⟩
  generate info k := if info.nCs = 1 ∧ k.val % 2 = 1 then -1 else 1
  grid iRxPort iSymbol _ _ := received iRxPort iSymbol
  estimateTa _ _ _ _ := ⟨ta, 0, 0, 0⟩
  mean v := (∑ k, v k) / n
  averagePower v := (∑ k, normSq (v k)) / n
  cexpTable m := exp ((2 * Real.pi * (m / 1024) : ℝ) * I)
  twoPi := 2 * Real.pi
  round := round
  norm := normSq
  sqrt := Real.sqrt
  convertPowerToDb x := 10 * Real.logb 10 x
  doubleMin := 0
  doubleMax := 1
  toFloat := id
  toDouble := id

section

variable {n : Nat} {received : UInt32 → Nat → Fin n → ℂ} {ta : ℝ}

theorem exact_exactContext : (exactContext received ta).Exact :=
  ⟨fun _ => rfl, fun _ => rfl, fun _ => rfl, fun _ => rfl⟩

theorem sharing_of_two {env : EstimateContext ℝ ℝ ℂ n} {config : SrsEstimateConfiguration}
    (h : config.nofAntennaPorts = 2) (iAntennaPort : Nat) :
    sharing env config iAntennaPort = {0, 1} := by
  have hinterleaved : interleavedPilots env config = false := by
    simp [interleavedPilots, h]
  ext a
  rw [mem_sharing, noiseSet, noiseSet, hinterleaved, h, Finset.mem_insert, Finset.mem_singleton]
  simp only [Bool.false_eq_true, if_false, and_true]
  omega

theorem sequence_exactContext (iAntennaPort : Nat) (k : Fin n) :
    (exactContext received ta).sequence iAntennaPort k =
      if iAntennaPort = 1 ∧ k.val % 2 = 1 then -1 else 1 := rfl

end

namespace TwoPorts

/-- The coefficients of the paths. -/
def h (iAntennaPort : Nat) (_ : UInt32) : ℂ := if iAntennaPort = 0 then 3 else 4 * I

/-- What a receive port gets of the two, a subcarrier later by a sixteenth of a turn. -/
noncomputable def env : EstimateContext ℝ ℝ ℂ 2 :=
  exactContext (fun _ _ k => (if k.val = 0 then 3 + 4 * I else 3 - 4 * I) *
    exp ((-(Real.pi / 8 * k.val) : ℝ) * I)) (1 / 960000)

def config : SrsEstimateConfiguration := ⟨⟨none, [0], 2, 13, 1⟩, 30, 2⟩

theorem exact : env.Exact := exact_exactContext

end TwoPorts

namespace TwoSymbols

/-- How a receive port gets what is sent. -/
def gain (iRxPort : UInt32) : ℂ := if iRxPort = 0 then 1 else I

/-- What arrives: three times the one sequence, four times the other, something that neither
explains, and something that the second symbol makes up for. -/
def sample (iSymbol : Nat) : Nat → ℂ
  | 0 => if iSymbol = 12 then 9 else 7
  | 1 => 0
  | 2 => 6
  | _ => -2

noncomputable def env : EstimateContext ℝ ℝ ℂ 4 :=
  exactContext (fun iRxPort iSymbol k => gain iRxPort * sample iSymbol k) 0

def config : SrsEstimateConfiguration := ⟨⟨none, [0, 1], 2, 12, 2⟩, 30, 2⟩

theorem exact : env.Exact := exact_exactContext

theorem normSq_gain (iRxPort : UInt32) : normSq (gain iRxPort) = 1 := by
  rw [gain]
  split
  · exact normSq_one
  · exact normSq_I

theorem rxSequence_eq (iAntennaPort : Nat) (iRxPort : UInt32) (iSymbol : Nat) (k : Fin 4) :
    env.rxSequence iAntennaPort iRxPort iSymbol k = gain iRxPort * sample iSymbol k := rfl

theorem symbols_eq : (symbols config).toFinset = {12, 13} := rfl

theorem noiseSum_eq (iAntennaPort : Nat) (iRxPort : UInt32) (k : Fin 4) :
    noiseSum env config iAntennaPort iRxPort k =
      gain iRxPort * (sample 12 k + sample 13 k) := by
  rw [noiseSum_apply, symbols_eq, Finset.sum_pair (by decide), rxSequence_eq, rxSequence_eq,
    mul_add]

theorem averageTa_eq : averageTa env config = 0 :=
  averageTa_of_measurements (by decide) fun _ _ => rfl

theorem compensationFactor_eq (iAntennaPort k : Nat) :
    compensationFactor env config 0 iAntennaPort k = 1 := by
  have hindex : round (((1024 : Nat) : ℝ) * ((k : ℝ) * phaseShiftSubcarrier env config 0 +
      phaseShiftSubcarrier env config 0 * ((0 : Nat) : ℝ) / ((2 : Nat) : ℝ)) / (2 * Real.pi)) =
      0 := by
    have hshift : phaseShiftSubcarrier env config 0 = 0 := by
      change 2 * Real.pi * 0 * ((30 : Nat) : ℝ) * ((1000 : Nat) : ℝ) * ((2 : Nat) : ℝ) = 0
      ring
    rw [hshift, mul_zero, zero_mul, zero_div, add_zero, mul_zero, zero_div, round_zero]
  change exp ((2 * Real.pi * ((round (_ : ℝ) : ℤ) / 1024) : ℝ) * I) = 1
  refine (congrArg (fun m : ℤ => exp ((2 * Real.pi * (m / 1024) : ℝ) * I)) hindex).trans ?_
  rw [Int.cast_zero, zero_div, mul_zero, ofReal_zero, zero_mul, exp_zero]

theorem coefficient_eq (iAntennaPort : Nat) (hport : iAntennaPort < 2) (iRxPort : UInt32) :
    coefficient env config iAntennaPort iRxPort =
      gain iRxPort * if iAntennaPort = 0 then 3 else 4 := by
  rw [coefficient, averageTa_eq, exact.mean_eq, lse_eq_noiseSum (by decide)]
  simp only [compensate, compensationFactor_eq, noiseSum_eq, mul_one, Fin.sum_univ_four]
  obtain rfl | rfl : iAntennaPort = 0 ∨ iAntennaPort = 1 := by omega
  · simp [env, config, sequence_exactContext, sample]
    ring
  · simp [env, config, sequence_exactContext, sample]
    ring

theorem correctionFactor_eq : correctionFactor env config = 1 := by
  simp [correctionFactor, interleavedPilots, config]

theorem nofEstimates_eq : nofEstimates env config = 2 := by
  simp [nofEstimates, interleavedPilots, config]

theorem sum_normSq_residual (iRxPort : UInt32) :
    ∑ k, normSq (residual env config 0 iRxPort k) = 16 := by
  have hresidual : ∀ k : Fin 4, residual env config 0 iRxPort k =
      gain iRxPort * if k.val < 2 then 2 else -2 := by
    intro k
    have hsuperposition : Pilots.superposition (sharing env config 0) env.sequence
        (fun a => coefficient env config a iRxPort) k =
        gain iRxPort * 3 + gain iRxPort * 4 * env.sequence 1 k := by
      rw [sharing_of_two rfl, Pilots.superposition, Finset.sum_pair (by decide),
        coefficient_eq 0 (by decide), coefficient_eq 1 (by decide)]
      simp [env, sequence_exactContext]
    rw [residual_apply (by rw [correctionFactor_eq]; decide), noiseSum_eq, averageTa_eq,
      compensationFactor_eq, hsuperposition]
    fin_cases k <;> simp [env, config, sequence_exactContext, sample] <;> ring
  simp only [hresidual, normSq_mul, normSq_gain, Fin.sum_univ_four]
  simp [normSq_apply]
  norm_num

theorem sum_rsrpTerms : (rsrpTerms env config).sum = 50 := by
  have hports : config.ports = [0, 1] := rfl
  have htx : config.nofAntennaPorts = 2 := rfl
  have hpaths : ∀ iRxPort,
      ∑ a ∈ Finset.range 2, normSq (coefficient env config a iRxPort) = 25 := by
    intro iRxPort
    rw [Finset.sum_range_succ, Finset.sum_range_one, coefficient_eq 0 (by decide),
      coefficient_eq 1 (by decide), normSq_mul, normSq_mul, normSq_gain]
    simp [normSq_ofNat]
    norm_num
  rw [sum_rsrpTerms_ports exact, hports, htx]
  simp [hpaths]
  norm_num

theorem noiseVariance_eq : noiseVariance env config = 8 / 3 := by
  have hports : config.ports = [0, 1] := rfl
  have hsymbols : config.nofSymbols = 2 := rfl
  rw [RunOran.noiseVariance_eq, sum_noiseTerms_ports exact (by decide), correctionFactor_eq,
    nofEstimates_eq, hports, hsymbols]
  simp [sum_normSq_residual]
  norm_num

end TwoSymbols

/-! ## Results -/

section

variable {n : Nat} {env : EstimateContext ℝ ℝ ℂ n} {config : SrsEstimateConfiguration}

end

end RunOran
