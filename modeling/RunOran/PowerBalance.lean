import RunOran.ExactEstimate

/-!
# Where the received power goes

Whatever is received, and not only pilots: the coefficients of the ports that share subcarriers are
the correlations of one sequence, the mean over the symbols, with orthogonal pilots
(`coefficient_eq_correlation`), and the noise buffer holds what they leave of it. So signal and
noise share out the power of the mean. The EPRE counts each symbol by itself, which is no less, and
the same if there is one symbol (`power_balance`).
-/

namespace RunOran

open Complex

/-- Ports that share subcarriers have orthogonal sequences and begin at the same subcarrier. The
exponential table is on the unit circle. -/
structure SharedPilots {n : Nat} (env : EstimateContext ℝ ℝ ℂ n)
    (config : SrsEstimateConfiguration) : Prop where
  orthogonal : ∀ iAntennaPort, Pilots.Orthogonal (sharing env config iAntennaPort) env.sequence
  aligned : ∀ iAntennaPort < config.nofAntennaPorts,
    let info := env.getSrsInformation iAntennaPort
    let first := env.getSrsInformation (noiseSet env config iAntennaPort)
    info.mappingInitialSubcarrier = first.mappingInitialSubcarrier ∧ info.combSize = first.combSize
  unit : ∀ i, normSq (env.cexpTable i) = 1

section

variable {n : Nat} {env : EstimateContext ℝ ℝ ℂ n} {config : SrsEstimateConfiguration}

/-! ## The mean over the symbols -/

variable (env config) in
/-- The mean over the symbols on the subcarriers of a noise set, compensated. -/
noncomputable def meanReceived (noiseSetIndex : Nat) (iRxPort : UInt32) (k : Fin n) : ℂ :=
  noiseSum env config noiseSetIndex iRxPort k *
    compensationFactor env config (averageTa env config) noiseSetIndex k / config.nofSymbols

theorem sharing_lt {iAntennaPort i : Nat} (hi : i < correctionFactor env config)
    (h : iAntennaPort ∈ sharing env config i) :
    iAntennaPort < config.nofAntennaPorts ∧ noiseSet env config iAntennaPort = i := by
  rw [mem_sharing, noiseSet_of_lt hi] at h
  exact h

/-- Ports that share subcarriers receive the same. -/
theorem SharedPilots.noiseSum_eq (hshared : SharedPilots env config) {iAntennaPort i : Nat}
    (hi : i < correctionFactor env config) (h : iAntennaPort ∈ sharing env config i)
    (iRxPort : UInt32) :
    noiseSum env config iAntennaPort iRxPort = noiseSum env config i iRxPort := by
  obtain ⟨hport, hset⟩ := sharing_lt hi h
  obtain ⟨hsubcarrier, hcomb⟩ := hshared.aligned iAntennaPort hport
  rw [hset] at hsubcarrier hcomb
  have hrx : env.rxSequence iAntennaPort iRxPort = env.rxSequence i iRxPort := by
    funext iSymbol
    rw [EstimateContext.rxSequence, EstimateContext.rxSequence, hsubcarrier, hcomb]
  rw [noiseSum, noiseSum, addReceived, addReceived, hrx]

theorem SharedPilots.compensationFactor_eq (hshared : SharedPilots env config)
    {iAntennaPort i : Nat} (hi : i < correctionFactor env config)
    (h : iAntennaPort ∈ sharing env config i) (ta : ℝ) (k : Nat) :
    compensationFactor env config ta iAntennaPort k = compensationFactor env config ta i k := by
  obtain ⟨hport, hset⟩ := sharing_lt hi h
  obtain ⟨hsubcarrier, -⟩ := hshared.aligned iAntennaPort hport
  rw [hset] at hsubcarrier
  rw [compensationFactor, compensationFactor, hsubcarrier]

/-- **A coefficient is a correlation.** -/
theorem SharedPilots.coefficient_eq_correlation (hshared : SharedPilots env config)
    (hexact : env.Exact) (hsymbols : 0 < config.nofSymbols) {iAntennaPort i : Nat}
    (hi : i < correctionFactor env config) (h : iAntennaPort ∈ sharing env config i)
    (iRxPort : UInt32) : coefficient env config iAntennaPort iRxPort =
      Pilots.correlation env.sequence (meanReceived env config i iRxPort) iAntennaPort := by
  rw [coefficient, hexact.mean_eq, Pilots.correlation, Fintype.card_fin]
  refine congrArg (· / (n : ℂ)) (Finset.sum_congr rfl fun k _ => ?_)
  rw [compensate, lse_eq_noiseSum hsymbols, hshared.noiseSum_eq hi h,
    hshared.compensationFactor_eq hi h, meanReceived]
  ring

/-- The noise buffer of a set holds what the correlations leave. -/
theorem SharedPilots.residual_eq (hshared : SharedPilots env config) (hexact : env.Exact)
    (hsymbols : 0 < config.nofSymbols) {i : Nat} (hi : i < correctionFactor env config)
    (iRxPort : UInt32) (k : Fin n) : residual env config i iRxPort k =
      config.nofSymbols * (meanReceived env config i iRxPort k -
        Pilots.superposition (sharing env config i) env.sequence
          (Pilots.correlation env.sequence (meanReceived env config i iRxPort)) k) := by
  have hne : (config.nofSymbols : ℂ) ≠ 0 := Nat.cast_ne_zero.mpr hsymbols.ne'
  have hcoefficients : Pilots.superposition (sharing env config i) env.sequence
      (fun a => coefficient env config a iRxPort) k =
      Pilots.superposition (sharing env config i) env.sequence
        (Pilots.correlation env.sequence (meanReceived env config i iRxPort)) k :=
    Finset.sum_congr rfl fun a ha => congrArg (· * env.sequence a k)
      (hshared.coefficient_eq_correlation hexact hsymbols hi ha iRxPort)
  rw [residual_apply hi, hcoefficients, mul_sub, meanReceived, mul_div_cancel₀ _ hne]

/-! ## Powers -/

/-- The power on the subcarriers of a noise set, the symbols added up. -/
theorem SharedPilots.sum_normSq_meanReceived (hshared : SharedPilots env config)
    (hsymbols : 0 < config.nofSymbols) (i : Nat) (iRxPort : UInt32) :
    config.nofSymbols ^ 2 * ∑ k, normSq (meanReceived env config i iRxPort k) =
      ∑ k, normSq (noiseSum env config i iRxPort k) := by
  have hne : (config.nofSymbols : ℝ) ≠ 0 := Nat.cast_ne_zero.mpr hsymbols.ne'
  rw [Finset.mul_sum]
  refine Finset.sum_congr rfl fun k _ => ?_
  have hfactor : normSq (compensationFactor env config (averageTa env config) i k) = 1 :=
    hshared.unit _
  rw [meanReceived, normSq_div, normSq_mul, hfactor, normSq_natCast]
  field_simp

/-- **Signal and noise share out the power of a noise set.** -/
theorem SharedPilots.sum_normSq_residual (hshared : SharedPilots env config) (hexact : env.Exact)
    (hn : 0 < n) (hsymbols : 0 < config.nofSymbols) {i : Nat}
    (hi : i < correctionFactor env config) (iRxPort : UInt32) :
    ∑ k, normSq (residual env config i iRxPort k) + config.nofSymbols ^ 2 * n *
        ∑ a ∈ sharing env config i, normSq (coefficient env config a iRxPort) =
      ∑ k, normSq (noiseSum env config i iRxPort k) := by
  have : Nonempty (Fin n) := ⟨⟨0, hn⟩⟩
  have hleft := Pilots.sum_normSq_sub_superposition (hshared.orthogonal i)
    (meanReceived env config i iRxPort)
  rw [Fintype.card_fin] at hleft
  have hcoefficients : ∑ a ∈ sharing env config i, normSq (coefficient env config a iRxPort) =
      ∑ a ∈ sharing env config i, normSq
        (Pilots.correlation env.sequence (meanReceived env config i iRxPort) a) :=
    Finset.sum_congr rfl fun a ha =>
      congrArg normSq (hshared.coefficient_eq_correlation hexact hsymbols hi ha iRxPort)
  have hresidual : ∑ k, normSq (residual env config i iRxPort k) =
      config.nofSymbols ^ 2 * ∑ k, normSq (meanReceived env config i iRxPort k -
        Pilots.superposition (sharing env config i) env.sequence
          (Pilots.correlation env.sequence (meanReceived env config i iRxPort)) k) := by
    rw [Finset.mul_sum]
    refine Finset.sum_congr rfl fun k _ => ?_
    rw [hshared.residual_eq hexact hsymbols hi, normSq_mul, normSq_natCast]
    ring
  rw [hresidual, hleft, hcoefficients, ← hshared.sum_normSq_meanReceived hsymbols]
  ring

/-- The symbols by themselves have no less power than added up. -/
theorem sum_normSq_noiseSum_le (i : Nat) (iRxPort : UInt32) :
    ∑ k, normSq (noiseSum env config i iRxPort k) ≤
      config.nofSymbols * ∑ iSymbol ∈ (symbols config).toFinset,
        ∑ k, normSq (env.rxSequence i iRxPort iSymbol k) := by
  have hnodup : (symbols config).Nodup := List.nodup_range'
  have hcard : (symbols config).toFinset.card = config.nofSymbols := by
    rw [List.toFinset_card_of_nodup hnodup, symbols, List.length_range']
  rw [Finset.sum_comm, Finset.mul_sum]
  refine Finset.sum_le_sum fun k _ => ?_
  rw [noiseSum_apply, ← hcard]
  exact Pilots.normSq_sum_le _ _

/-- With one symbol there is nothing to add up. -/
theorem sum_normSq_noiseSum_of_one (hone : config.nofSymbols = 1) (i : Nat) (iRxPort : UInt32) :
    ∑ k, normSq (noiseSum env config i iRxPort k) =
      config.nofSymbols * ∑ iSymbol ∈ (symbols config).toFinset,
        ∑ k, normSq (env.rxSequence i iRxPort iSymbol k) := by
  have hlist : (symbols config).toFinset = {config.startSymbol} := by
    rw [symbols, hone]
    rfl
  simp only [noiseSum_apply, hlist, hone, Finset.sum_singleton, Nat.cast_one, one_mul]

/-! ## All ports -/

theorem sum_epreTerms_ports (hexact : env.Exact) (hn : 0 < n) : n * (epreTerms env config).sum =
    (config.ports.map fun iRxPort => ∑ i ∈ Finset.range (correctionFactor env config),
      ∑ iSymbol ∈ (symbols config).toFinset,
        ∑ k, normSq (env.rxSequence i iRxPort iSymbol k)).sum := by
  have hnodup : (symbols config).Nodup := List.nodup_range'
  have hport : ∀ i : Nat, n * (config.ports.flatMap fun iRxPort => (symbols config).map fun iSymbol =>
      env.averagePower (env.rxSequence i iRxPort iSymbol)).sum =
      (config.ports.map fun iRxPort => ∑ iSymbol ∈ (symbols config).toFinset,
        ∑ k, normSq (env.rxSequence i iRxPort iSymbol k)).sum := by
    intro i
    rw [sum_flatMap, ← List.sum_map_mul_left]
    refine congrArg List.sum (List.map_congr_left fun iRxPort _ => ?_)
    rw [← List.sum_toFinset _ hnodup, Finset.mul_sum]
    refine Finset.sum_congr rfl fun iSymbol _ => ?_
    rw [mul_comm, averagePower_mul hexact hn]
  rw [epreTerms, sum_flatMap, sum_map_range, Finset.mul_sum,
    Finset.sum_congr rfl fun i _ => hport i, sum_sum_map]

/-- Signal and noise of all ports. -/
theorem SharedPilots.sum_terms (hshared : SharedPilots env config) (hexact : env.Exact)
    (hn : 0 < n) (hsymbols : 0 < config.nofSymbols) :
    (noiseTerms env config).sum + config.nofSymbols ^ 2 * n * (rsrpTerms env config).sum =
      (config.ports.map fun iRxPort => ∑ i ∈ Finset.range (correctionFactor env config),
        ∑ k, normSq (noiseSum env config i iRxPort k)).sum := by
  rw [sum_noiseTerms_ports hexact hn, sum_rsrpTerms_ports hexact, ← List.sum_map_mul_left,
    ← List.sum_map_add]
  refine congrArg List.sum (List.map_congr_left fun iRxPort _ => ?_)
  rw [← sum_sharing, Finset.mul_sum, ← Finset.sum_add_distrib]
  exact Finset.sum_congr rfl fun i hi =>
    hshared.sum_normSq_residual hexact hn hsymbols (Finset.mem_range.mp hi) iRxPort

theorem SharedPilots.sum_terms_le (hshared : SharedPilots env config) (hexact : env.Exact)
    (hn : 0 < n) (hsymbols : 0 < config.nofSymbols) :
    (noiseTerms env config).sum + config.nofSymbols ^ 2 * n * (rsrpTerms env config).sum ≤
      config.nofSymbols * (n * (epreTerms env config).sum) := by
  rw [hshared.sum_terms hexact hn hsymbols, sum_epreTerms_ports hexact hn, ← List.sum_map_mul_left]
  refine List.sum_le_sum fun iRxPort _ => ?_
  rw [Finset.mul_sum]
  exact Finset.sum_le_sum fun i _ => sum_normSq_noiseSum_le i iRxPort

theorem SharedPilots.sum_terms_of_one (hshared : SharedPilots env config) (hexact : env.Exact)
    (hn : 0 < n) (hone : config.nofSymbols = 1) :
    (noiseTerms env config).sum + config.nofSymbols ^ 2 * n * (rsrpTerms env config).sum =
      config.nofSymbols * (n * (epreTerms env config).sum) := by
  rw [hshared.sum_terms hexact hn (by omega), sum_epreTerms_ports hexact hn,
    ← List.sum_map_mul_left]
  refine congrArg List.sum (List.map_congr_left fun iRxPort _ => ?_)
  rw [Finset.mul_sum]
  exact Finset.sum_congr rfl fun i _ => sum_normSq_noiseSum_of_one hone i iRxPort

/-! ## The balance -/

/-- A factor that is divided out again. -/
theorem cast_mul_div_cast (x y : Nat) (r : ℝ) (hx : 0 < x) :
    (x : ℝ) * (r / (x * y : Nat)) = r / y := by
  have hne : (x : ℝ) ≠ 0 := Nat.cast_ne_zero.mpr hx.ne'
  rw [Nat.cast_mul, ← mul_div_assoc, mul_div_mul_left _ _ hne]

/-- **The power balance of an estimate**, whatever is received. The RSRP, and the noise variance
with its degrees of freedom, come to no more than the EPRE, and to the EPRE if there is one symbol;
so the transmit ports together are not taken to send more than what is received. -/
theorem power_balance (hshared : SharedPilots env config) (hexact : env.Exact)
    (htx : 0 < config.nofAntennaPorts)
    (hfreedom : nofEstimates env config < config.nofSymbols * n) :
    let result := estimate env config
    let epre := (epreTerms env config).sum /
      (config.nofSymbols * correctionFactor env config * config.ports.length : Nat)
    let rsrp := (rsrpTerms env config).sum / (config.nofAntennaPorts * config.ports.length : Nat)
    let used : ℝ :=
      ((config.nofSymbols * n - nofEstimates env config) * correctionFactor env config : Nat) *
          result.noiseVariance +
        (config.nofSymbols ^ 2 * n * config.nofAntennaPorts : Nat) * rsrp
    let available : ℝ := (config.nofSymbols ^ 2 * n * correctionFactor env config : Nat) * epre
    result.epreDb = env.convertPowerToDb epre ∧ result.rsrpDb = env.convertPowerToDb rsrp ∧
      used ≤ available ∧ (config.nofSymbols = 1 → used = available) ∧
      config.nofAntennaPorts * rsrp ≤ correctionFactor env config * epre := by
  intro result epre rsrp used available
  have hmul : 0 < config.nofSymbols * n := by omega
  have hn : 0 < n := Nat.pos_of_mul_pos_left hmul
  have hsymbols : 0 < config.nofSymbols := Nat.pos_of_mul_pos_right hmul
  have hfactor : 0 < correctionFactor env config := Nat.lt_of_le_of_lt (Nat.zero_le _)
    (noiseSet_lt 0)
  have hfree : 0 < (config.nofSymbols * n - nofEstimates env config) * correctionFactor env config :=
    Nat.mul_pos (by omega) hfactor
  obtain ⟨-, hvariance, hepre, hrsrp, -⟩ := estimate_eq env hsymbols htx
  have hsum := hshared.sum_terms_le hexact hn hsymbols
  have hnonneg := sum_noiseTerms_nonneg config hexact
  have hports : (0 : ℝ) ≤ config.ports.length := Nat.cast_nonneg _
  have hall : config.nofAntennaPorts * rsrp = (rsrpTerms env config).sum / config.ports.length :=
    cast_mul_div_cast _ _ _ htx
  have hcounted : (config.nofSymbols * correctionFactor env config : Nat) * epre =
      (epreTerms env config).sum / config.ports.length :=
    cast_mul_div_cast _ _ _ (Nat.mul_pos hsymbols hfactor)
  have hused : used = ((noiseTerms env config).sum +
      config.nofSymbols ^ 2 * n * (rsrpTerms env config).sum) / config.ports.length := by
    have hnoise : ((config.nofSymbols * n - nofEstimates env config) *
        correctionFactor env config : Nat) * result.noiseVariance =
        (noiseTerms env config).sum / config.ports.length := by
      have hresult : result.noiseVariance = noiseVariance env config := hvariance
      rw [hresult, noiseVariance_eq]
      exact cast_mul_div_cast _ _ _ hfree
    simp only [used]
    rw [hnoise, Nat.cast_mul _ config.nofAntennaPorts, mul_assoc, hall]
    push_cast
    ring
  have havailable : available =
      config.nofSymbols * (n * (epreTerms env config).sum) / config.ports.length := by
    have hfactors : available = config.nofSymbols * n *
        ((config.nofSymbols * correctionFactor env config : Nat) * epre) := by
      simp only [available]
      push_cast
      ring
    rw [hfactors, hcounted]
    ring
  refine ⟨hepre.trans ?_, hrsrp.trans ?_, ?_, fun hone => ?_, ?_⟩
  · exact congrArg (fun s => env.convertPowerToDb (s / _)) (foldl_add_zero (epreTerms env config))
  · exact congrArg (fun s => env.convertPowerToDb (s / _)) (foldl_add_zero (rsrpTerms env config))
  · rw [hused, havailable]
    exact div_le_div_of_nonneg_right hsum hports
  · rw [hused, havailable, hshared.sum_terms_of_one hexact hn hone]
  · have hsymbols' : (0 : ℝ) < config.nofSymbols := Nat.cast_pos.mpr hsymbols
    have hn' : (0 : ℝ) < n := Nat.cast_pos.mpr hn
    have hbound : config.nofSymbols * (rsrpTerms env config).sum ≤ (epreTerms env config).sum := by
      refine le_of_mul_le_mul_left ?_ (mul_pos hsymbols' hn')
      linarith
    rw [Nat.cast_mul, mul_assoc] at hcounted
    refine le_of_mul_le_mul_left ?_ hsymbols'
    rw [hcounted, hall, ← mul_div_assoc]
    exact div_le_div_of_nonneg_right hbound hports

end

/-! ## An example -/

namespace TwoSymbols

theorem sharedPilots : SharedPilots env config where
  orthogonal iAntennaPort a ha b hb := by
    rw [sharing_of_two rfl, Finset.mem_insert, Finset.mem_singleton] at ha hb
    rcases ha with rfl | rfl <;> rcases hb with rfl | rfl <;>
      simp [env, sequence_exactContext, Fin.sum_univ_four]
    all_goals norm_num
  aligned _ _ := ⟨rfl, rfl⟩
  unit m := by
    rw [env, exactContext, normSq_eq_norm_sq, norm_exp_ofReal_mul_I, one_pow]

theorem sum_epreTerms : (epreTerms env config).sum = 105 := by
  have hports : config.ports = [0, 1] := rfl
  have hsum : ((4 : Nat) : ℝ) * (epreTerms env config).sum = _ :=
    sum_epreTerms_ports exact (by decide)
  rw [correctionFactor_eq, symbols_eq, hports] at hsum
  simp [rxSequence_eq, normSq_mul, normSq_gain, Fin.sum_univ_four, sample] at hsum
  norm_num [normSq_ofNat] at hsum
  linarith

end TwoSymbols

/-- Of the power 420 on the subcarriers the pilots have 400, and the noise has no more than the rest:
it has 16, as what differs between the symbols is not noise to the estimator. -/
theorem power_balance_two_symbols :
    let result := estimate TwoSymbols.env TwoSymbols.config
    result.epreDb = TwoSymbols.env.convertPowerToDb (105 / 4) ∧
      result.rsrpDb = TwoSymbols.env.convertPowerToDb (25 / 2) ∧
      6 * result.noiseVariance + 32 * (25 / 2) ≤ 16 * (105 / 4) ∧
      result.noiseVariance = 8 / 3 := by
  intro result
  have hfreedom : nofEstimates TwoSymbols.env TwoSymbols.config <
      TwoSymbols.config.nofSymbols * 4 := by
    rw [TwoSymbols.nofEstimates_eq]
    decide
  obtain ⟨hepre, hrsrp, hbalance, -, -⟩ := power_balance TwoSymbols.sharedPilots TwoSymbols.exact
    (by decide) hfreedom
  obtain ⟨-, hvariance, -⟩ := estimate_eq TwoSymbols.env
    (by decide : 0 < TwoSymbols.config.nofSymbols) (by decide)
  have hsymbols : TwoSymbols.config.nofSymbols = 2 := rfl
  have htx : TwoSymbols.config.nofAntennaPorts = 2 := rfl
  have hports : TwoSymbols.config.ports.length = 2 := rfl
  rw [TwoSymbols.sum_epreTerms, TwoSymbols.correctionFactor_eq, hsymbols, hports] at hepre hbalance
  rw [TwoSymbols.sum_rsrpTerms, htx, hports] at hrsrp
  rw [TwoSymbols.sum_rsrpTerms, TwoSymbols.nofEstimates_eq, htx] at hbalance
  refine ⟨hepre.trans ?_, hrsrp.trans ?_, ?_, hvariance.trans TwoSymbols.noiseVariance_eq⟩
  · norm_num
  · norm_num
  · norm_num at hbalance ⊢
    exact hbalance

end RunOran
