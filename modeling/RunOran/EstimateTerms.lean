import RunOran.Cells
import RunOran.ChannelEstimate
import Mathlib.Algebra.Star.Rat

/-!
# What the channel estimate is made of

The loops of `estimate` write into buffers that are indexed by ports and shared between them. Each
cell of a buffer is the fold of the visits to it, so the estimate can be written down without the loops:
`lse` and `coefficient` for a path, `residual` for a noise buffer, and the lists of the terms that the
EPRE, the RSRP and the noise variance add up (`estimate_eq`). As the terms are lists, they can be counted
(`estimate_accounts`).
-/

namespace RunOran

/-! ## What the buffers hold -/

section Buffers

variable {D F C : Type} {n : Nat} [RealOps F] [ComplexOps F C]
variable (env : EstimateContext D F C n) (config : SrsEstimateConfiguration)

/-- The symbols of an occasion. -/
def symbols : List Nat := List.range' config.startSymbol config.nofSymbols

/-- The paths in the order of the loops: a transmit port, and a receive port with its index. -/
def estimatePaths : List (Nat × UInt32 × Nat) :=
  (List.range config.nofAntennaPorts).flatMap fun iAntennaPort =>
    config.ports.zipIdx.map fun port => (iAntennaPort, port)

/-- The received sequences of a path, on top of `v`. -/
def addReceived (iAntennaPort : Nat) (iRxPort : UInt32) (v : Fin n → C) : Fin n → C :=
  (symbols config).foldl (fun v iSymbol => v + env.rxSequence iAntennaPort iRxPort iSymbol) v

/-- Their powers, on top of `e`. -/
def addPowers (iAntennaPort : Nat) (iRxPort : UInt32) (e : F) : F :=
  (symbols config).foldl
    (fun e iSymbol => e + env.averagePower (env.rxSequence iAntennaPort iRxPort iSymbol)) e

/-- The least-squares estimate that the symbols leave in a buffer with content `v`. -/
def lseFrom (iAntennaPort : Nat) (iRxPort : UInt32) (v : Fin n → C) : Fin n → C :=
  let lse := (symbols config).foldl (fun v iSymbol =>
    if iSymbol = config.startSymbol then env.rxSequence iAntennaPort iRxPort iSymbol
    else v + env.rxSequence iAntennaPort iRxPort iSymbol) v * star (env.sequence iAntennaPort)
  if config.nofSymbols > 1 then (((1 : Nat) : F) / ((config.nofSymbols : Nat) : F)) • lse else lse

theorem foldl_symbolStep (iAntennaPort : Nat) (iRxPort : UInt32) (views : SymbolViews F C n)
    (iSymbols : List Nat) :
    iSymbols.foldl (symbolStep env config iAntennaPort iRxPort) views =
      { meanLse := iSymbols.foldl (fun v iSymbol =>
          if iSymbol = config.startSymbol then env.rxSequence iAntennaPort iRxPort iSymbol
          else v + env.rxSequence iAntennaPort iRxPort iSymbol) views.meanLse
        noiseHelp := if countsForNoise env config iAntennaPort then iSymbols.foldl (fun v iSymbol =>
          v + env.rxSequence iAntennaPort iRxPort iSymbol) views.noiseHelp else views.noiseHelp
        epre := if countsForNoise env config iAntennaPort then iSymbols.foldl (fun e iSymbol =>
          e + env.averagePower (env.rxSequence iAntennaPort iRxPort iSymbol)) views.epre
          else views.epre } := by
  induction iSymbols generalizing views with
  | nil =>
    simp only [List.foldl_nil, ite_self]
  | cons iSymbol iSymbols ih =>
    rw [List.foldl_cons, ih]
    simp only [symbolStep, List.foldl_cons]
    by_cases hcounts : countsForNoise env config iAntennaPort
    · simp only [if_pos hcounts]
    · simp only [if_neg hcounts]

/-- A step of the loop visits two cells. -/
theorem rxPortStep_eq (iAntennaPort : Nat) (buffers : EstimateBuffers F C n)
    (port : UInt32 × Nat) :
    rxPortStep env config iAntennaPort buffers port =
      { tempLse := Function.update buffers.tempLse (port.2, iAntennaPort)
          (lseFrom env config iAntennaPort port.1 (buffers.tempLse (port.2, iAntennaPort)))
        tempNoise :=
          Function.update buffers.tempNoise (noiseSet env config iAntennaPort, port.2)
            (if countsForNoise env config iAntennaPort then
              addReceived env config iAntennaPort port.1
                (buffers.tempNoise (noiseSet env config iAntennaPort, port.2))
            else buffers.tempNoise (noiseSet env config iAntennaPort, port.2))
        epre :=
          if countsForNoise env config iAntennaPort then
            addPowers env config iAntennaPort port.1 buffers.epre
          else buffers.epre } := by
  simp only [rxPortStep, foldl_symbolStep]
  rfl

/-- The buffers after a sequence of paths. -/
def visitPaths (buffers : EstimateBuffers F C n) (paths : List (Nat × UInt32 × Nat)) :
    EstimateBuffers F C n :=
  paths.foldl (fun buffers path => rxPortStep env config path.1 buffers path.2) buffers

theorem tempLse_visitPaths (buffers : EstimateBuffers F C n)
    (paths : List (Nat × UInt32 × Nat)) :
    (visitPaths env config buffers paths).tempLse =
      Cells.visit (fun path => (path.2.2, path.1))
        (fun path => lseFrom env config path.1 path.2.1) buffers.tempLse paths :=
  (List.foldl_hom EstimateBuffers.tempLse fun buffers path => by rw [rxPortStep_eq]).symm

theorem tempNoise_visitPaths (buffers : EstimateBuffers F C n)
    (paths : List (Nat × UInt32 × Nat)) :
    (visitPaths env config buffers paths).tempNoise =
      Cells.visit (fun path => (noiseSet env config path.1, path.2.2))
        (fun path v => if countsForNoise env config path.1 then
          addReceived env config path.1 path.2.1 v else v) buffers.tempNoise paths :=
  (List.foldl_hom EstimateBuffers.tempNoise fun buffers path => by rw [rxPortStep_eq]).symm

theorem epre_visitPaths (buffers : EstimateBuffers F C n) (paths : List (Nat × UInt32 × Nat)) :
    (visitPaths env config buffers paths).epre =
      paths.foldl (fun e path => if countsForNoise env config path.1 then
        addPowers env config path.1 path.2.1 e else e) buffers.epre :=
  (List.foldl_hom EstimateBuffers.epre fun buffers path => by rw [rxPortStep_eq]).symm

omit [RealOps F] [ComplexOps F C] in
theorem filter_range_eq {a m : Nat} (h : a < m) :
    ((List.range m).filter fun a' => a' = a) = [a] := by
  rw [List.filter_eq, List.count_eq_one_of_mem List.nodup_range (List.mem_range.mpr h),
    List.replicate_one]

omit [RealOps F] [ComplexOps F C] in
/-- Of the receive ports one has a given index. -/
theorem filter_zipIdx {ports : List UInt32} {iRxPort : UInt32} (start : Nat) {i : Nat}
    (h : ports[i]? = some iRxPort) :
    ((ports.zipIdx start).filter fun port => port.2 = start + i) = [(iRxPort, start + i)] := by
  induction ports generalizing start i with
  | nil => cases h
  | cons port ports ih =>
    rw [List.zipIdx_cons]
    cases i with
    | zero =>
      obtain rfl : port = iRxPort := by simpa using h
      have hrest : ((ports.zipIdx (start + 1)).filter fun port => port.2 = start + 0) = [] := by
        rw [List.filter_eq_nil_iff]
        intro port' hport'
        have hle := List.le_snd_of_mem_zipIdx hport'
        simp only [decide_eq_true_eq]
        omega
      rw [List.filter_cons_of_pos (by simp), hrest, Nat.add_zero]
    | succ i =>
      rw [List.filter_cons_of_neg (by simp)]
      have hshift : start + (i + 1) = start + 1 + i := by omega
      rw [hshift]
      exact ih (start + 1) (by simpa using h)

/-- The visits to the cells of a receive port, by transmit port. -/
theorem filter_estimatePaths {config : SrsEstimateConfiguration} {iRxPort : UInt32} {i : Nat}
    (h : config.ports[i]? = some iRxPort) (p : Nat → Bool) :
    ((estimatePaths config).filter fun path => p path.1 && path.2.2 = i) =
      ((List.range config.nofAntennaPorts).filter p).map fun iAntennaPort =>
        (iAntennaPort, iRxPort, i) := by
  have hport := filter_zipIdx 0 h
  simp only [Nat.zero_add] at hport
  rw [estimatePaths, List.filter_flatMap]
  induction List.range config.nofAntennaPorts with
  | nil => rfl
  | cons iAntennaPort iAntennaPorts ih =>
    rw [List.flatMap_cons, ih, List.filter_map]
    by_cases hp : p iAntennaPort = true
    · rw [List.filter_cons_of_pos hp, List.map_cons]
      simp only [Function.comp_def, hp, Bool.true_and, hport]
      rfl
    · rw [List.filter_cons_of_neg hp]
      simp [Function.comp_def, hp]

/-! ## Noise sets -/

/-- The transmit ports of a noise set. -/
def setPorts (noiseSetIndex : Nat) : List Nat :=
  (List.range config.nofAntennaPorts).filter fun iAntennaPort =>
    noiseSet env config iAntennaPort = noiseSetIndex

variable {env config}

omit [RealOps F] [ComplexOps F C] in
/-- Pilots are interleaved with four transmit ports only. -/
theorem nofAntennaPorts_of_interleaved (h : interleavedPilots env config = true) :
    config.nofAntennaPorts = 4 :=
  (of_decide_eq_true h).1

omit [RealOps F] [ComplexOps F C] in
theorem countsForNoise_iff {iAntennaPort : Nat} :
    countsForNoise env config iAntennaPort = true ↔ iAntennaPort < correctionFactor env config := by
  rw [countsForNoise, correctionFactor, decide_eq_true_eq]
  split
  · rename_i hinterleaved
    simp only [hinterleaved, true_and]
    omega
  · rename_i hinterleaved
    rw [eq_false hinterleaved, false_and, or_false]
    omega

omit [RealOps F] [ComplexOps F C] in
theorem noiseSet_lt (iAntennaPort : Nat) :
    noiseSet env config iAntennaPort < correctionFactor env config := by
  rw [noiseSet, correctionFactor]
  split
  · exact Nat.mod_lt _ (by decide)
  · exact Nat.zero_lt_one

omit [RealOps F] [ComplexOps F C] in
/-- A set is named after its first port. -/
theorem noiseSet_of_lt {i : Nat} (hi : i < correctionFactor env config) :
    noiseSet env config i = i := by
  rw [correctionFactor] at hi
  rw [noiseSet]
  split at hi
  · rename_i hinterleaved
    rw [if_pos hinterleaved]
    omega
  · rename_i hinterleaved
    rw [if_neg hinterleaved]
    omega

omit [RealOps F] [ComplexOps F C] in
/-- Each set has one port whose sequences count, the first one. -/
theorem setPorts_eq (htx : 0 < config.nofAntennaPorts) {i : Nat}
    (hi : i < correctionFactor env config) :
    ∃ rest, setPorts env config i = i :: rest ∧
      (∀ iAntennaPort ∈ rest, countsForNoise env config iAntennaPort = false) ∧
      (setPorts env config i).length = nofEstimates env config := by
  by_cases hinterleaved : interleavedPilots env config = true
  · have hfour := nofAntennaPorts_of_interleaved hinterleaved
    rw [correctionFactor, if_pos hinterleaved] at hi
    have hset : setPorts env config i = [i, i + 2] := by
      simp only [setPorts, noiseSet, hinterleaved, if_true, hfour]
      obtain rfl | rfl : i = 0 ∨ i = 1 := by omega
      · rfl
      · rfl
    refine ⟨[i + 2], hset, ?_, ?_⟩
    · intro iAntennaPort hport
      rw [List.mem_singleton.mp hport, Bool.eq_false_iff, Ne, countsForNoise_iff,
        correctionFactor, if_pos hinterleaved]
      omega
    · rw [hset, nofEstimates, if_pos hinterleaved]
      rfl
  · rw [correctionFactor, if_neg hinterleaved] at hi
    obtain rfl : i = 0 := by omega
    obtain ⟨m, hm⟩ : ∃ m, config.nofAntennaPorts = m + 1 := Nat.exists_eq_succ_of_ne_zero htx.ne'
    have hset : setPorts env config 0 = List.range config.nofAntennaPorts := by
      rw [setPorts, List.filter_eq_self]
      intro iAntennaPort _
      rw [noiseSet, if_neg hinterleaved, decide_eq_true rfl]
    refine ⟨List.range' 1 m, ?_, ?_, ?_⟩
    · rw [hset, hm, List.range_eq_range', List.range'_succ]
    · intro iAntennaPort hport
      have hle := (List.mem_range'_1.mp hport).1
      rw [Bool.eq_false_iff, Ne, countsForNoise_iff, correctionFactor, if_neg hinterleaved]
      omega
    · rw [hset, List.length_range, nofEstimates, if_neg hinterleaved]

/-! ## The buffers after the first nest of loops -/

variable (env config)

/-- The least-squares estimate of a path. -/
def lse (iAntennaPort : Nat) (iRxPort : UInt32) : Fin n → C :=
  lseFrom env config iAntennaPort iRxPort 0

/-- The received sequences of a path, added up. -/
def noiseSum (iAntennaPort : Nat) (iRxPort : UInt32) : Fin n → C :=
  addReceived env config iAntennaPort iRxPort 0

/-- The powers that the EPRE is made of. -/
def epreTerms : List F :=
  (List.range (correctionFactor env config)).flatMap fun iAntennaPort =>
    config.ports.flatMap fun iRxPort =>
      (symbols config).map fun iSymbol =>
        env.averagePower (env.rxSequence iAntennaPort iRxPort iSymbol)

variable {env config}

/-- The first symbol overwrites what was in the buffer. -/
theorem lseFrom_eq (hsymbols : 0 < config.nofSymbols) (iAntennaPort : Nat) (iRxPort : UInt32)
    (v : Fin n → C) : lseFrom env config iAntennaPort iRxPort v =
      lse env config iAntennaPort iRxPort := by
  obtain ⟨m, hm⟩ : ∃ m, config.nofSymbols = m + 1 := Nat.exists_eq_succ_of_ne_zero hsymbols.ne'
  simp only [lse, lseFrom, symbols, hm, List.range'_succ, List.foldl_cons, if_pos]

theorem tempLse_visitPaths_eq (hsymbols : 0 < config.nofSymbols)
    (buffers : EstimateBuffers F C n) {paths : List (Nat × UInt32 × Nat)} {iAntennaPort i : Nat}
    {iRxPort : UInt32}
    (h : (paths.filter fun path => path.1 = iAntennaPort && path.2.2 = i) =
      [(iAntennaPort, iRxPort, i)]) :
    (visitPaths env config buffers paths).tempLse (i, iAntennaPort) =
      lse env config iAntennaPort iRxPort := by
  have hfilter : (paths.filter fun path => (path.2.2, path.1) = (i, iAntennaPort)) =
      [(iAntennaPort, iRxPort, i)] := by
    refine Eq.trans (List.filter_congr fun path _ => ?_) h
    rw [← Bool.decide_and, decide_eq_decide, Prod.mk.injEq, and_comm]
  rw [tempLse_visitPaths, Cells.visit_of_filter_eq _ _ _ hfilter, lseFrom_eq hsymbols]

/-- Each path leaves its estimate. -/
theorem tempLse_estimatePaths (hsymbols : 0 < config.nofSymbols)
    (buffers : EstimateBuffers F C n) {iAntennaPort i : Nat} {iRxPort : UInt32}
    (hi : config.ports[i]? = some iRxPort) (hport : iAntennaPort < config.nofAntennaPorts) :
    (visitPaths env config buffers (estimatePaths config)).tempLse (i, iAntennaPort) =
      lse env config iAntennaPort iRxPort := by
  apply tempLse_visitPaths_eq hsymbols
  refine (filter_estimatePaths hi fun a => a = iAntennaPort).trans ?_
  rw [filter_range_eq hport, List.map_singleton]

/-- A noise buffer gets the sequences of one transmit port. -/
theorem tempNoise_estimatePaths (htx : 0 < config.nofAntennaPorts)
    (buffers : EstimateBuffers F C n) {i k : Nat} {iRxPort : UInt32}
    (hi : config.ports[i]? = some iRxPort) (hk : k < correctionFactor env config) :
    (visitPaths env config buffers (estimatePaths config)).tempNoise (k, i) =
      addReceived env config k iRxPort (buffers.tempNoise (k, i)) := by
  obtain ⟨rest, hset, hrest, -⟩ := setPorts_eq htx hk
  have hfilter : ((estimatePaths config).filter fun path =>
      (noiseSet env config path.1, path.2.2) = (k, i)) =
      (setPorts env config k).map fun iAntennaPort => (iAntennaPort, iRxPort, i) := by
    rw [setPorts, ← filter_estimatePaths hi]
    refine List.filter_congr fun path _ => ?_
    rw [← Bool.decide_and, decide_eq_decide, Prod.mk.injEq]
  have hcounts : ((setPorts env config k).filter (countsForNoise env config)) = [k] := by
    rw [hset, List.filter_cons_of_pos (countsForNoise_iff.mpr hk), List.cons_inj_right,
      List.filter_eq_nil_iff]
    intro iAntennaPort hport
    rw [hrest iAntennaPort hport]
    exact Bool.false_ne_true
  rw [tempNoise_visitPaths, Cells.visit_apply, hfilter, List.foldl_map, ← List.foldl_filter,
    hcounts, List.foldl_cons, List.foldl_nil]

variable (env) in
omit [RealOps F] [ComplexOps F C] in
theorem correctionFactor_le (htx : 0 < config.nofAntennaPorts) :
    correctionFactor env config ≤ config.nofAntennaPorts := by
  rw [correctionFactor]
  split
  · rename_i hinterleaved
    rw [nofAntennaPorts_of_interleaved hinterleaved]
    omega
  · exact htx

omit [RealOps F] [ComplexOps F C] in
theorem filter_countsForNoise (htx : 0 < config.nofAntennaPorts) :
    (List.range config.nofAntennaPorts).filter (countsForNoise env config) =
      List.range (correctionFactor env config) := by
  obtain ⟨m, hm⟩ := Nat.exists_eq_add_of_le (correctionFactor_le env htx)
  have hall : (List.range (correctionFactor env config)).filter (countsForNoise env config) =
      List.range (correctionFactor env config) := by
    rw [List.filter_eq_self]
    exact fun a ha => countsForNoise_iff.mpr (List.mem_range.mp ha)
  have hnone : ((List.range m).map (correctionFactor env config + ·)).filter
      (countsForNoise env config) = [] := by
    rw [List.filter_eq_nil_iff]
    intro a ha
    obtain ⟨b, -, rfl⟩ := List.mem_map.mp ha
    rw [countsForNoise_iff]
    omega
  rw [hm, List.range_add, List.filter_append, hall, hnone, List.append_nil]

omit [RealOps F] [ComplexOps F C] in
/-- The EPRE is made of as many powers as it is divided by. -/
theorem length_epreTerms : (epreTerms env config).length =
    config.nofSymbols * correctionFactor env config * config.ports.length := by
  have hsymbols : (symbols config).length = config.nofSymbols := List.length_range'
  simp only [epreTerms, List.length_flatMap, List.length_map, hsymbols, List.map_const',
    List.sum_replicate_nat, List.length_range]
  ring

theorem epre_estimatePaths (htx : 0 < config.nofAntennaPorts)
    (buffers : EstimateBuffers F C n) :
    (visitPaths env config buffers (estimatePaths config)).epre =
      (epreTerms env config).foldl (· + ·) buffers.epre := by
  have hport : ∀ (e : F) (iAntennaPort : Nat),
      (config.ports.zipIdx.map fun port => (iAntennaPort, port)).foldl (fun e path =>
        if countsForNoise env config path.1 then addPowers env config path.1 path.2.1 e else e) e =
        if countsForNoise env config iAntennaPort then
          config.ports.foldl (fun e iRxPort => addPowers env config iAntennaPort iRxPort e) e
        else e := by
    intro e iAntennaPort
    rw [List.foldl_map]
    split
    · conv_rhs => rw [← List.zipIdx_map_fst 0 config.ports, List.foldl_map]
    · exact List.foldl_fixed _
  rw [epre_visitPaths, estimatePaths, List.foldl_flatMap]
  simp only [hport]
  rw [← List.foldl_filter, filter_countsForNoise htx, epreTerms, List.foldl_flatMap]
  simp only [List.foldl_flatMap, List.foldl_map, addPowers]

end Buffers

/-! ## What the estimate is made of -/

section Result

variable {D F C : Type} {n : Nat} [RealOps D] [RealOps F] [ComplexOps F C]
variable (env : EstimateContext D F C n) (config : SrsEstimateConfiguration)

/-- The measurement of a transmit port. -/
def taMeasurement (iAntennaPort : Nat) : TimeAlignmentMeasurement D :=
  env.estimateTa (config.ports.map (lse env config iAntennaPort))
    (env.getSrsInformation iAntennaPort).combSize config.scsKhz (maxTa env config)

/-- The measurements of all transmit ports, combined and not yet averaged. -/
def combinedTa : TimeAlignmentMeasurement D :=
  (List.range config.nofAntennaPorts).foldl
    (fun result iAntennaPort => result.combine (taMeasurement env config iAntennaPort))
    (initialEstimate env).2

/-- The time alignment, averaged. -/
def averageTa : D :=
  (combinedTa env config).timeAlignment / ((config.nofAntennaPorts : Nat) : D)

/-- The wideband coefficient of a path. -/
def coefficient (iAntennaPort : Nat) (iRxPort : UInt32) : C :=
  env.mean (compensate env config (averageTa env config) iAntennaPort
    (lse env config iAntennaPort iRxPort))

/-- What is left in a noise buffer: the sequences of one transmit port, less what the coefficients
make of the sequences of the whole set. -/
def residual (noiseSetIndex : Nat) (iRxPort : UInt32) : Fin n → C :=
  (setPorts env config noiseSetIndex).foldl (fun v iAntennaPort =>
      v - recoveredSignal env config iAntennaPort (coefficient env config iAntennaPort iRxPort))
    (compensate env config (averageTa env config) noiseSetIndex
      (noiseSum env config noiseSetIndex iRxPort))

/-- The powers that the RSRP is made of. -/
def rsrpTerms : List F :=
  config.ports.flatMap fun iRxPort =>
    (List.range config.nofAntennaPorts).map fun iAntennaPort =>
      env.norm (coefficient env config iAntennaPort iRxPort)

/-- The squared errors that the noise variance is made of. -/
def noiseTerms : List F :=
  config.ports.flatMap fun iRxPort =>
    (List.range (correctionFactor env config)).map fun noiseSetIndex =>
      env.averagePower (residual env config noiseSetIndex iRxPort) * ((n : Nat) : F)

/-- The noise variance: the squared errors, divided by the degrees of freedom. -/
def noiseVariance : F :=
  (noiseTerms env config).foldl (· + ·) ((0 : Nat) : F) /
    (((config.nofSymbols * n - nofEstimates env config) * correctionFactor env config *
      config.ports.length : Nat) : F)

/-- The standard deviation that the channel matrix is normalised with. -/
def noiseStd : F :=
  Max.max (env.sqrt (noiseVariance env config))
    (env.sqrt ((rsrpTerms env config).foldl (· + ·) ((0 : Nat) : F)) *
      (((1 : Nat) : F) / ((100 : Nat) : F)))

/-- What the second nest does with a path, if the first one has left its estimate. -/
def visitCoefficient (i : Nat) (iRxPort : UInt32) (s : ChannelBuffers F C n) (iAntennaPort : Nat) :
    ChannelBuffers F C n :=
  let noise := (noiseSet env config iAntennaPort, i)
  let value := coefficient env config iAntennaPort iRxPort
  let noiseHelp :=
    if countsForNoise env config iAntennaPort then
      compensate env config (averageTa env config) iAntennaPort (s.tempNoise noise)
    else s.tempNoise noise
  { s with
    tempNoise := Function.update s.tempNoise noise
      (noiseHelp - recoveredSignal env config iAntennaPort value)
    channelMatrix := Function.update s.channelMatrix (i, iAntennaPort) value
    rsrp := s.rsrp + env.norm value }

/-- The paths to a receive port. -/
def visitCoefficients (i : Nat) (iRxPort : UInt32) (s : ChannelBuffers F C n)
    (iAntennaPorts : List Nat) : ChannelBuffers F C n :=
  iAntennaPorts.foldl (visitCoefficient env config i iRxPort) s

variable {env config}

theorem antennaPortStep_fst (s : EstimateBuffers F C n × TimeAlignmentMeasurement D)
    (iAntennaPort : Nat) : (antennaPortStep env config s iAntennaPort).1 =
      visitPaths env config s.1 (config.ports.zipIdx.map fun port => (iAntennaPort, port)) := by
  rw [antennaPortStep, visitPaths, List.foldl_map]

theorem receive_fst : (receive env config).1 =
    visitPaths env config (initialEstimate env).1 (estimatePaths config) := by
  have hfst := @List.foldl_hom _ _ _ Prod.fst (antennaPortStep env config)
    (fun buffers iAntennaPort => visitPaths env config buffers
      (config.ports.zipIdx.map fun port => (iAntennaPort, port)))
    (List.range config.nofAntennaPorts) (initialEstimate env)
    (fun s iAntennaPort => (antennaPortStep_fst s iAntennaPort).symm)
  rw [receive, ← hfst, visitPaths, estimatePaths, List.foldl_flatMap]
  rfl

/-- The slices that a measurement is made from. -/
theorem antennaPortStep_snd (hsymbols : 0 < config.nofSymbols)
    (s : EstimateBuffers F C n × TimeAlignmentMeasurement D) (iAntennaPort : Nat) :
    (antennaPortStep env config s iAntennaPort).2 =
      s.2.combine (taMeasurement env config iAntennaPort) := by
  have hslices : ((List.range config.ports.length).map fun i =>
      (antennaPortStep env config s iAntennaPort).1.tempLse (i, iAntennaPort)) =
      config.ports.map (lse env config iAntennaPort) := by
    apply List.ext_getElem
    · simp only [List.length_map, List.length_range]
    · intro i hi hi'
      rw [List.length_map] at hi'
      have hfilter := filter_zipIdx 0 (List.getElem?_eq_getElem hi')
      simp only [Nat.zero_add] at hfilter
      rw [List.getElem_map, List.getElem_map, List.getElem_range, antennaPortStep_fst]
      apply tempLse_visitPaths_eq hsymbols
      rw [List.filter_map]
      simp only [Function.comp_def, decide_true, Bool.true_and, hfilter]
      rfl
  exact congrArg (fun slices => s.2.combine (env.estimateTa slices
    (env.getSrsInformation iAntennaPort).combSize config.scsKhz (maxTa env config))) hslices

theorem receive_snd (hsymbols : 0 < config.nofSymbols) :
    (receive env config).2 = combinedTa env config := by
  rw [receive, combinedTa]
  exact (List.foldl_hom Prod.snd fun s a => (antennaPortStep_snd hsymbols s a).symm).symm

/-! ## The second nest of loops, path by path -/

theorem foldl_pathStep (hsymbols : 0 < config.nofSymbols) {i : Nat} {iRxPort : UInt32}
    (hi : config.ports[i]? = some iRxPort) (s : ChannelBuffers F C n) :
    (List.range config.nofAntennaPorts).foldl
      (pathStep env config (receive env config).1.tempLse (averageTa env config) i) s =
      visitCoefficients env config i iRxPort s (List.range config.nofAntennaPorts) := by
  apply List.foldl_ext
  intro s iAntennaPort hport
  rw [pathStep, receive_fst,
    tempLse_estimatePaths hsymbols _ hi (List.mem_range.mp hport)]
  rfl

section Paths

variable {i : Nat} {iRxPort : UInt32} (s : ChannelBuffers F C n) (iAntennaPorts : List Nat)

theorem tempNoise_visitCoefficients :
    (visitCoefficients env config i iRxPort s iAntennaPorts).tempNoise =
      Cells.visit (fun iAntennaPort => (noiseSet env config iAntennaPort, i))
        (fun iAntennaPort v => (if countsForNoise env config iAntennaPort then
            compensate env config (averageTa env config) iAntennaPort v else v) -
          recoveredSignal env config iAntennaPort (coefficient env config iAntennaPort iRxPort))
        s.tempNoise iAntennaPorts :=
  (List.foldl_hom ChannelBuffers.tempNoise fun _ _ => rfl).symm

theorem channelMatrix_visitCoefficients :
    (visitCoefficients env config i iRxPort s iAntennaPorts).channelMatrix =
      Cells.visit (fun iAntennaPort => (i, iAntennaPort))
        (fun iAntennaPort _ => coefficient env config iAntennaPort iRxPort)
        s.channelMatrix iAntennaPorts :=
  (List.foldl_hom ChannelBuffers.channelMatrix fun _ _ => rfl).symm

theorem rsrp_visitCoefficients :
    (visitCoefficients env config i iRxPort s iAntennaPorts).rsrp =
      (iAntennaPorts.map fun iAntennaPort =>
        env.norm (coefficient env config iAntennaPort iRxPort)).foldl (· + ·) s.rsrp := by
  rw [List.foldl_map]
  exact (List.foldl_hom ChannelBuffers.rsrp fun _ _ => rfl).symm

theorem noiseVar_visitCoefficients :
    (visitCoefficients env config i iRxPort s iAntennaPorts).noiseVar = s.noiseVar := by
  rw [visitCoefficients]
  induction iAntennaPorts generalizing s with
  | nil => rfl
  | cons iAntennaPort iAntennaPorts ih => rw [List.foldl_cons, ih, visitCoefficient]

/-- What is left in a noise buffer. -/
theorem tempNoise_residual (htx : 0 < config.nofAntennaPorts) {k : Nat}
    (hk : k < correctionFactor env config)
    (hnoise : s.tempNoise (k, i) = noiseSum env config k iRxPort) :
    (visitCoefficients env config i iRxPort s (List.range config.nofAntennaPorts)).tempNoise
      (k, i) = residual env config k iRxPort := by
  obtain ⟨rest, hset, hrest, -⟩ := setPorts_eq htx hk
  have hfilter : ((List.range config.nofAntennaPorts).filter fun iAntennaPort =>
      (noiseSet env config iAntennaPort, i) = (k, i)) = setPorts env config k := by
    refine List.filter_congr fun a _ => ?_
    rw [decide_eq_decide, Prod.mk.injEq, and_iff_left rfl]
  rw [tempNoise_visitCoefficients, Cells.visit_apply, hfilter, hnoise, residual, hset,
    List.foldl_cons, List.foldl_cons, if_pos (countsForNoise_iff.mpr hk)]
  apply List.foldl_ext
  intro v iAntennaPort hport
  rw [hrest iAntennaPort hport, if_neg Bool.false_ne_true]

end Paths

/-! ## The second nest of loops, port by port -/

/-- A receive port, if the first nest has left its noise buffers. -/
theorem channelRxPortStep_eq (hsymbols : 0 < config.nofSymbols)
    (htx : 0 < config.nofAntennaPorts) {i : Nat} {iRxPort : UInt32}
    (hi : config.ports[i]? = some iRxPort) {s : ChannelBuffers F C n}
    (hnoise : ∀ k < correctionFactor env config,
      s.tempNoise (k, i) = noiseSum env config k iRxPort) :
    channelRxPortStep env config (receive env config).1.tempLse (averageTa env config) s i =
      { visitCoefficients env config i iRxPort s (List.range config.nofAntennaPorts) with
        noiseVar := ((List.range (correctionFactor env config)).map fun k =>
          env.averagePower (residual env config k iRxPort) * ((n : Nat) : F)).foldl (· + ·)
            s.noiseVar } := by
  have hresidual : ∀ k < correctionFactor env config,
      (visitCoefficients env config i iRxPort s (List.range config.nofAntennaPorts)).tempNoise
        (k, i) = residual env config k iRxPort :=
    fun k hk => tempNoise_residual s htx hk (hnoise k hk)
  rw [channelRxPortStep, foldl_pathStep hsymbols hi]
  by_cases hinterleaved : interleavedPilots env config = true
  · rw [correctionFactor, if_pos hinterleaved] at hresidual ⊢
    simp only [hinterleaved, if_true, hresidual 0 (by decide), hresidual 1 (by decide),
      noiseVar_visitCoefficients]
    rfl
  · rw [correctionFactor, if_neg hinterleaved] at hresidual ⊢
    simp only [hinterleaved, hresidual 0 (by decide), noiseVar_visitCoefficients]
    rfl

/-- The receive port of an index. -/
theorem getElem?_ports {i : Nat} (hi : i < config.ports.length) :
    config.ports[i]? = some (config.ports.getD i 0) := by
  rw [List.getD_eq_getElem?_getD, List.getElem?_eq_getElem hi, Option.getD_some]

/-- The loops over the other receive ports leave the buffers of a port alone. -/
theorem foldl_channelRxPortStep (hsymbols : 0 < config.nofSymbols)
    (htx : 0 < config.nofAntennaPorts) {is : List Nat} (hnodup : is.Nodup)
    (his : ∀ i ∈ is, i < config.ports.length) {s : ChannelBuffers F C n}
    (hnoise : ∀ i ∈ is, ∀ k < correctionFactor env config,
      s.tempNoise (k, i) = noiseSum env config k (config.ports.getD i 0)) :
    let s' := is.foldl
      (channelRxPortStep env config (receive env config).1.tempLse (averageTa env config)) s
    s'.noiseVar = (is.flatMap fun i => (List.range (correctionFactor env config)).map fun k =>
        env.averagePower (residual env config k (config.ports.getD i 0)) * ((n : Nat) : F)).foldl
          (· + ·) s.noiseVar ∧
      s'.rsrp = (is.flatMap fun i => (List.range config.nofAntennaPorts).map fun iAntennaPort =>
        env.norm (coefficient env config iAntennaPort (config.ports.getD i 0))).foldl
          (· + ·) s.rsrp ∧
      (∀ i iAntennaPort, i ∈ is → iAntennaPort < config.nofAntennaPorts →
        s'.channelMatrix (i, iAntennaPort) =
          coefficient env config iAntennaPort (config.ports.getD i 0)) ∧
      ∀ i iAntennaPort, i ∉ is →
        s'.channelMatrix (i, iAntennaPort) = s.channelMatrix (i, iAntennaPort) := by
  induction is generalizing s with
  | nil =>
    refine ⟨rfl, rfl, fun i _ hi => ?_, fun _ _ _ => rfl⟩
    cases hi
  | cons i is ih =>
    obtain ⟨hne, hnodup⟩ := List.nodup_cons.mp hnodup
    have hport := getElem?_ports (his i List.mem_cons_self)
    have hstep := channelRxPortStep_eq hsymbols htx hport (hnoise i List.mem_cons_self)
    have hother : ∀ i' k, i' ≠ i → (channelRxPortStep env config (receive env config).1.tempLse
        (averageTa env config) s i).tempNoise (k, i') = s.tempNoise (k, i') := by
      intro i' k hi'
      rw [hstep, tempNoise_visitCoefficients]
      apply Cells.visit_of_forall_ne
      intro a _ heq
      exact hi' (Prod.mk.inj heq).2.symm
    obtain ⟨hnoiseVar, hrsrp, hmatrix, hframe⟩ := ih hnodup
      (fun i' hi' => his i' (List.mem_cons_of_mem i hi')) (fun i' hi' k hk => by
        rw [hother i' k fun heq => hne (heq ▸ hi')]
        exact hnoise i' (List.mem_cons_of_mem i hi') k hk)
    refine ⟨?_, ?_, fun i' a hi' ha => ?_, fun i' a hi' => ?_⟩
    · rw [List.foldl_cons, hnoiseVar, List.flatMap_cons, List.foldl_append, hstep]
    · rw [List.foldl_cons, hrsrp, List.flatMap_cons, List.foldl_append, hstep,
        rsrp_visitCoefficients]
    · rcases List.mem_cons.mp hi' with rfl | hi'
      · rw [List.foldl_cons, hframe i' a hne, hstep, channelMatrix_visitCoefficients]
        have hfilter : ((List.range config.nofAntennaPorts).filter fun a' => (i', a') = (i', a)) =
            [a] := by
          refine (List.filter_congr fun a' _ => ?_).trans (filter_range_eq ha)
          rw [decide_eq_decide, Prod.mk.injEq, eq_self, true_and]
        exact Cells.visit_of_filter_eq _ _ _ hfilter
      · exact hmatrix i' a hi' ha
    · rw [List.mem_cons, not_or] at hi'
      rw [List.foldl_cons, hframe i' a hi'.2, hstep, channelMatrix_visitCoefficients]
      apply Cells.visit_of_forall_ne
      intro a' _ heq
      exact hi'.1 (Prod.mk.inj heq).1.symm

/-! ## The result -/

omit [RealOps D] [RealOps F] [ComplexOps F C] in
theorem map_getD_range (ports : List UInt32) :
    (List.range ports.length).map (fun i => ports.getD i 0) = ports := by
  apply List.ext_getElem
  · rw [List.length_map, List.length_range]
  · intro i hi hi'
    rw [List.getElem_map, List.getElem_range, List.getD_eq_getElem?_getD,
      List.getElem?_eq_getElem hi', Option.getD_some]

variable (env) in
/-- The buffers after the second nest. -/
theorem foldl_channelRxPortStep_range (hsymbols : 0 < config.nofSymbols)
    (htx : 0 < config.nofAntennaPorts) :
    let s := (List.range config.ports.length).foldl
      (channelRxPortStep env config (receive env config).1.tempLse (averageTa env config))
      ⟨(receive env config).1.tempNoise, fun _ => 0, ((0 : Nat) : F), ((0 : Nat) : F)⟩
    s.noiseVar = (noiseTerms env config).foldl (· + ·) ((0 : Nat) : F) ∧
      s.rsrp = (rsrpTerms env config).foldl (· + ·) ((0 : Nat) : F) ∧
      ∀ i iAntennaPort, i < config.ports.length → iAntennaPort < config.nofAntennaPorts →
        s.channelMatrix (i, iAntennaPort) =
          coefficient env config iAntennaPort (config.ports.getD i 0) := by
  have hnoise : ∀ i ∈ List.range config.ports.length, ∀ k < correctionFactor env config,
      (⟨(receive env config).1.tempNoise, fun _ => 0, ((0 : Nat) : F), ((0 : Nat) : F)⟩ :
        ChannelBuffers F C n).tempNoise (k, i) =
        noiseSum env config k (config.ports.getD i 0) := by
    intro i hi k hk
    have hport := getElem?_ports (List.mem_range.mp hi)
    exact (congrFun (congrArg EstimateBuffers.tempNoise receive_fst) (k, i)).trans
      (tempNoise_estimatePaths htx _ hport hk)
  obtain ⟨hnoiseVar, hrsrp, hmatrix, -⟩ := foldl_channelRxPortStep hsymbols htx
    List.nodup_range (fun i hi => List.mem_range.mp hi) hnoise
  have hports : ∀ f : UInt32 → List F, ((List.range config.ports.length).flatMap fun i =>
      f (config.ports.getD i 0)) = config.ports.flatMap f := by
    intro f
    conv_rhs => rw [← map_getD_range config.ports, List.flatMap_map]
  refine ⟨hnoiseVar.trans ?_, hrsrp.trans ?_, fun i a hi ha =>
    hmatrix i a (List.mem_range.mpr hi) ha⟩
  · rw [noiseTerms, ← hports]
  · rw [rsrpTerms, ← hports]

variable (env) in
/-- What the estimate is made of, whatever the arithmetic. -/
theorem estimate_eq (hsymbols : 0 < config.nofSymbols) (htx : 0 < config.nofAntennaPorts) :
    let result := estimate env config
    result.timeAlignment = { combinedTa env config with timeAlignment := averageTa env config } ∧
      result.noiseVariance = noiseVariance env config ∧
      result.epreDb = env.convertPowerToDb ((epreTerms env config).foldl (· + ·) ((0 : Nat) : F) /
        ((config.nofSymbols * correctionFactor env config * config.ports.length : Nat) : F)) ∧
      result.rsrpDb = env.convertPowerToDb ((rsrpTerms env config).foldl (· + ·) ((0 : Nat) : F) /
        ((config.nofAntennaPorts * config.ports.length : Nat) : F)) ∧
      ∀ i iAntennaPort, i < config.ports.length → iAntennaPort < config.nofAntennaPorts →
        result.channelMatrix (i, iAntennaPort) = (((1 : Nat) : F) / noiseStd env config) •
          coefficient env config iAntennaPort (config.ports.getD i 0) := by
  obtain ⟨hnoiseVar, hrsrp, hmatrix⟩ :=
    foldl_channelRxPortStep_range env hsymbols htx
  have hta : (receive env config).2 = combinedTa env config := receive_snd hsymbols
  have hepre : (receive env config).1.epre =
      (epreTerms env config).foldl (· + ·) ((0 : Nat) : F) := by
    rw [receive_fst, epre_estimatePaths htx]
    rfl
  have haverage : (receive env config).2.timeAlignment / ((config.nofAntennaPorts : Nat) : D) =
      averageTa env config := by rw [hta, averageTa]
  have hvariance : (estimate env config).noiseVariance = noiseVariance env config := by
    simp only [estimate, haverage, hnoiseVar, noiseVariance]
  refine ⟨?_, hvariance, ?_, ?_, fun i a hi ha => ?_⟩
  · simp only [estimate, hta]
    rfl
  · simp only [estimate, hepre]
  · simp only [estimate, haverage, hrsrp]
  · simp only [estimate, haverage, hnoiseVar, hrsrp, hmatrix i a hi ha, noiseStd, noiseVariance]

theorem length_rsrpTerms : (rsrpTerms env config).length =
    config.nofAntennaPorts * config.ports.length := by
  simp only [rsrpTerms, List.length_flatMap, List.length_map, List.length_range, List.map_const',
    List.sum_replicate_nat]
  ring

theorem length_noiseTerms : (noiseTerms env config).length =
    correctionFactor env config * config.ports.length := by
  simp only [noiseTerms, List.length_flatMap, List.length_map, List.length_range, List.map_const',
    List.sum_replicate_nat]
  ring

/-- **What the estimate is made of, and that it is counted right.** In any arithmetic, the EPRE and the
RSRP are averages of as many powers as they are divided by. Each of the noise buffers that the noise
variance adds up holds the sequences of one transmit port, over all symbols, less the signals of
`nof_estimates` transmit ports. -/
theorem estimate_accounts (env : EstimateContext D F C n) (config : SrsEstimateConfiguration)
    (hsymbols : 0 < config.nofSymbols) (htx : 0 < config.nofAntennaPorts) :
    let result := estimate env config
    result.timeAlignment = { combinedTa env config with timeAlignment := averageTa env config } ∧
      result.noiseVariance = noiseVariance env config ∧
      result.epreDb = env.convertPowerToDb ((epreTerms env config).foldl (· + ·) ((0 : Nat) : F) /
        (((epreTerms env config).length : Nat) : F)) ∧
      result.rsrpDb = env.convertPowerToDb ((rsrpTerms env config).foldl (· + ·) ((0 : Nat) : F) /
        (((rsrpTerms env config).length : Nat) : F)) ∧
      (∀ i iAntennaPort, i < config.ports.length → iAntennaPort < config.nofAntennaPorts →
        result.channelMatrix (i, iAntennaPort) = (((1 : Nat) : F) / noiseStd env config) •
          coefficient env config iAntennaPort (config.ports.getD i 0)) ∧
      (noiseTerms env config).length = correctionFactor env config * config.ports.length ∧
      ∀ k < correctionFactor env config,
        (setPorts env config k).length = nofEstimates env config := by
  intro result
  obtain ⟨hta, hvariance, hepre, hrsrp, hmatrix⟩ := estimate_eq env hsymbols htx
  refine ⟨hta, hvariance, ?_, ?_, hmatrix, length_noiseTerms, fun k hk => ?_⟩
  · rw [length_epreTerms]
    exact hepre
  · rw [length_rsrpTerms]
    exact hrsrp
  · obtain ⟨-, -, -, hlength⟩ := setPorts_eq htx hk
    exact hlength

end Result

instance : RealOps ℚ := {}

instance : ComplexOps ℚ ℚ := {}

/-- Four interleaved ports, two receive ports and two symbols, with rational numbers. -/
theorem estimate_accounts_interleaved :
    let env : EstimateContext ℚ ℚ ℚ 2 :=
      { getSrsInformation := fun iAntennaPort =>
          ⟨0, 0, 4 + iAntennaPort, 8, iAntennaPort % 2, 2⟩
        generate := fun info k => if 5 < info.nCs ∧ k = 1 then -1 else 1
        grid := fun iRxPort iSymbol initialSubcarrier _ k =>
          iRxPort.toNat + iSymbol + initialSubcarrier + k
        estimateTa := fun slices _ _ _ => ⟨slices.length, 0, 0, 0⟩
        mean := fun v => (v 0 + v 1) / 2
        averagePower := fun v => (v 0 * v 0 + v 1 * v 1) / 2
        cexpTable := fun _ => 1
        twoPi := 6
        round := Rat.floor
        norm := fun x => x * x
        sqrt := fun _ => 1
        convertPowerToDb := id
        doubleMin := 0
        doubleMax := 1
        toFloat := id
        toDouble := id }
    let config : SrsEstimateConfiguration := ⟨⟨none, [0, 1], 4, 12, 2⟩, 30, 2⟩
    (estimate env config).timeAlignment.timeAlignment = 2 ∧
      (estimate env config).noiseVariance = noiseVariance env config ∧
      (epreTerms env config).length = 8 := by
  intro env config
  obtain ⟨hta, hvariance, -⟩ := estimate_accounts env config (by decide) (by decide)
  refine ⟨?_, hvariance, by decide +kernel⟩
  rw [hta]
  decide +kernel

end RunOran
