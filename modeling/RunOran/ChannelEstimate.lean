import RunOran.Estimator
import Mathlib.Algebra.Group.Action.Pi
import Mathlib.Algebra.Star.Pi

/-!
# The channel estimate

What `srs_estimator_generic_impl::estimate` returns: time alignment, channel matrix, noise variance,
EPRE and RSRP. Two nests of loops fill and then use buffers that several ports share, so that the
question is which of the received sequences, and how many of them, each figure is made of.

The arithmetic is left open: `D`, `F` and `C` are `double`, `float` and `cf_t`, with the operations of
the code and no laws. So are the mean and the average power of a sequence.
-/

namespace RunOran

/-! ## Arithmetic -/

/-- The operations of `float` and `double`. -/
class RealOps (R : Type) extends Add R, Mul R, Div R, NatCast R, Max R, Min R

/-- The operations of `cf_t`, with those that take a `float`. -/
class ComplexOps (F : outParam Type) (C : Type) extends
  Zero C, Add C, Sub C, Mul C, Star C, SMul F C

/-! ## What the estimator is given -/

/-- What `get_srs_information` says about a transmit port. -/
structure SrsInformation where
  sequenceGroup : Nat
  sequenceNumber : Nat
  nCs : Nat
  nCsMax : Nat
  mappingInitialSubcarrier : Nat
  combSize : Nat
  deriving DecidableEq

/-- `time_alignment_measurement`. -/
structure TimeAlignmentMeasurement (D : Type) where
  timeAlignment : D
  resolution : D
  min : D
  max : D
  deriving DecidableEq

/-- What `estimate` reads of its configuration, the subcarrier spacing in kHz. -/
structure SrsEstimateConfiguration extends SrsEstimatorConfiguration where
  scsKhz : Nat
  combSize : Nat

/-- What surrounds `estimate`: the resource grid, the components it calls, and the functions and
constants of the libraries. A sequence has `n` samples, "common for all ports and symbols". -/
structure EstimateContext (D F C : Type) (n : Nat) where
  getSrsInformation : Nat → SrsInformation
  generate : SrsInformation → Fin n → C
  /-- `grid.get`, by receive port, symbol, initial subcarrier and comb size. -/
  grid : UInt32 → Nat → Nat → Nat → Fin n → C
  /-- `ta_estimator->estimate`, by the slices of the receive ports, comb size, subcarrier spacing and
  maximum delay. -/
  estimateTa : List (Fin n → C) → Nat → Nat → D → TimeAlignmentMeasurement D
  /-- `srsvec::mean`. -/
  mean : (Fin n → C) → C
  /-- `srsvec::average_power`. -/
  averagePower : (Fin n → C) → F
  cexpTable : Int → C
  twoPi : F
  round : F → Int
  norm : C → F
  sqrt : F → F
  convertPowerToDb : F → F
  doubleMin : D
  doubleMax : D
  toFloat : D → F
  toDouble : F → D

/-- `srs_estimator_result`. -/
structure SrsEstimatorResult (D F C : Type) where
  timeAlignment : TimeAlignmentMeasurement D
  channelMatrix : Nat × Nat → C
  noiseVariance : F
  epreDb : F
  rsrpDb : F

section Estimate

variable {D F C : Type} {n : Nat} [RealOps F] [ComplexOps F C]

namespace EstimateContext

variable (env : EstimateContext D F C n)

/-- The sequence of a transmit port. -/
def sequence (iAntennaPort : Nat) : Fin n → C := env.generate (env.getSrsInformation iAntennaPort)

/-- `rx_sequence`. -/
def rxSequence (iAntennaPort : Nat) (iRxPort : UInt32) (iSymbol : Nat) : Fin n → C :=
  let info := env.getSrsInformation iAntennaPort
  env.grid iRxPort iSymbol info.mappingInitialSubcarrier info.combSize

/-- The factor by which `compensate_phase_shift` multiplies the `k`-th sample. -/
def phaseFactor (phaseShiftSubcarrier phaseShiftOffset : F) (k : Nat) : C :=
  env.cexpTable (env.round (((1024 : Nat) : F) *
    ((k : F) * phaseShiftSubcarrier + phaseShiftOffset) / env.twoPi))

end EstimateContext

/-! ## The first nest of loops -/

variable (env : EstimateContext D F C n) (config : SrsEstimateConfiguration)

/-- `interleaved_pilots`. -/
def interleavedPilots : Bool :=
  config.nofAntennaPorts = 4 ∧
    (env.getSrsInformation 0).nCs ≥ (env.getSrsInformation 0).nCsMax / 2

/-- Which of the two noise buffers of a receive port a transmit port uses. -/
def noiseSet (iAntennaPort : Nat) : Nat :=
  if interleavedPilots env config then iAntennaPort % 2 else 0

/-- The transmit ports whose received sequences go to the noise buffers and the EPRE. -/
def countsForNoise (iAntennaPort : Nat) : Bool :=
  iAntennaPort = 0 ∨ (interleavedPilots env config ∧ iAntennaPort = 1)

/-- The buffers: `temp_lse` by receive and transmit port, `temp_noise` by set and receive port. -/
structure EstimateBuffers (F C : Type) (n : Nat) where
  tempLse : Nat × Nat → Fin n → C
  tempNoise : Nat × Nat → Fin n → C
  epre : F

/-- The views that the loop over the symbols works on. -/
structure SymbolViews (F C : Type) (n : Nat) where
  meanLse : Fin n → C
  noiseHelp : Fin n → C
  epre : F

/-- One symbol. -/
def symbolStep (iAntennaPort : Nat) (iRxPort : UInt32) (views : SymbolViews F C n)
    (iSymbol : Nat) : SymbolViews F C n :=
  let rx := env.rxSequence iAntennaPort iRxPort iSymbol
  let counts := countsForNoise env config iAntennaPort
  { noiseHelp := if counts then views.noiseHelp + rx else views.noiseHelp
    epre := if counts then views.epre + env.averagePower rx else views.epre
    meanLse := if iSymbol = config.startSymbol then rx else views.meanLse + rx }

/-- One receive port, given with its index: the symbols, and then the least-squares estimate. -/
def rxPortStep (iAntennaPort : Nat) (buffers : EstimateBuffers F C n) (port : UInt32 × Nat) :
    EstimateBuffers F C n :=
  let path := (port.2, iAntennaPort)
  let noise := (noiseSet env config iAntennaPort, port.2)
  let views := (List.range' config.startSymbol config.nofSymbols).foldl
    (symbolStep env config iAntennaPort port.1)
    ⟨buffers.tempLse path, buffers.tempNoise noise, buffers.epre⟩
  let lse := views.meanLse * star (env.sequence iAntennaPort)
  { tempLse := Function.update buffers.tempLse path
      (if config.nofSymbols > 1 then
        (((1 : Nat) : F) / ((config.nofSymbols : Nat) : F)) • lse
      else lse)
    tempNoise := Function.update buffers.tempNoise noise views.noiseHelp
    epre := views.epre }

variable [RealOps D]

/-- `max_ta`. -/
def maxTa : D :=
  ((1 : Nat) : D) /
    (((env.getSrsInformation 0).nCsMax * config.scsKhz * 1000 * config.combSize : Nat) : D)

/-- "Combine time alignment measurements." -/
def TimeAlignmentMeasurement.combine (result taMeas : TimeAlignmentMeasurement D) :
    TimeAlignmentMeasurement D where
  timeAlignment := result.timeAlignment + taMeas.timeAlignment
  min := Max.max result.min taMeas.min
  max := Min.min result.max taMeas.max
  resolution := Max.max result.resolution taMeas.resolution

/-- One transmit port. -/
def antennaPortStep (s : EstimateBuffers F C n × TimeAlignmentMeasurement D)
    (iAntennaPort : Nat) : EstimateBuffers F C n × TimeAlignmentMeasurement D :=
  let buffers := config.ports.zipIdx.foldl (rxPortStep env config iAntennaPort) s.1
  let portLse := (List.range config.ports.length).map fun i => buffers.tempLse (i, iAntennaPort)
  let taMeas := env.estimateTa portLse (env.getSrsInformation iAntennaPort).combSize config.scsKhz
    (maxTa env config)
  (buffers, s.2.combine taMeas)

/-- The buffers and the alignment before the loops. -/
def initialEstimate : EstimateBuffers F C n × TimeAlignmentMeasurement D :=
  (⟨fun _ => 0, fun _ => 0, ((0 : Nat) : F)⟩,
    ⟨((0 : Nat) : D), ((0 : Nat) : D), env.doubleMin, env.doubleMax⟩)

/-- The first nest of loops. -/
def receive : EstimateBuffers F C n × TimeAlignmentMeasurement D :=
  (List.range config.nofAntennaPorts).foldl (antennaPortStep env config) (initialEstimate env)

/-! ## The second nest of loops -/

/-- What the second nest of loops changes. -/
structure ChannelBuffers (F C : Type) (n : Nat) where
  tempNoise : Nat × Nat → Fin n → C
  channelMatrix : Nat × Nat → C
  rsrp : F
  noiseVar : F

/-- `phase_shift_subcarrier`. -/
def phaseShiftSubcarrier (timeAlignment : D) : F :=
  env.toFloat (env.toDouble env.twoPi * timeAlignment * ((config.scsKhz : Nat) : D) *
    ((1000 : Nat) : D) * ((config.combSize : Nat) : D))

/-- The factor by which the samples of a transmit port are compensated. -/
def compensationFactor (timeAlignment : D) (iAntennaPort k : Nat) : C :=
  let shift := phaseShiftSubcarrier env config timeAlignment
  let info := env.getSrsInformation iAntennaPort
  env.phaseFactor shift
    (shift * ((info.mappingInitialSubcarrier : Nat) : F) / ((config.combSize : Nat) : F)) k

/-- `compensate_phase_shift`, for a transmit port. -/
def compensate (timeAlignment : D) (iAntennaPort : Nat) (v : Fin n → C) : Fin n → C :=
  fun k => v k * compensationFactor env config timeAlignment iAntennaPort k

/-- `recovered_signal`: the sequence of a transmit port, "counted nof_symbols times". -/
def recoveredSignal (iAntennaPort : Nat) (coefficient : C) : Fin n → C :=
  fun k => env.sequence iAntennaPort k * (((config.nofSymbols : Nat) : F) • coefficient)

/-- One path, from a transmit to a receive port. -/
def pathStep (tempLse : Nat × Nat → Fin n → C) (timeAlignment : D) (iRxPort : Nat)
    (s : ChannelBuffers F C n) (iAntennaPort : Nat) : ChannelBuffers F C n :=
  let noise := (noiseSet env config iAntennaPort, iRxPort)
  let coefficient := env.mean (compensate env config timeAlignment iAntennaPort
    (tempLse (iRxPort, iAntennaPort)))
  let noiseHelp :=
    if countsForNoise env config iAntennaPort then
      compensate env config timeAlignment iAntennaPort (s.tempNoise noise)
    else s.tempNoise noise
  { s with
    tempNoise := Function.update s.tempNoise noise
      (noiseHelp - recoveredSignal env config iAntennaPort coefficient)
    channelMatrix := Function.update s.channelMatrix (iRxPort, iAntennaPort) coefficient
    rsrp := s.rsrp + env.norm coefficient }

/-- One receive port. -/
def channelRxPortStep (tempLse : Nat × Nat → Fin n → C) (timeAlignment : D)
    (s : ChannelBuffers F C n) (iRxPort : Nat) : ChannelBuffers F C n :=
  let s := (List.range config.nofAntennaPorts).foldl
    (pathStep env config tempLse timeAlignment iRxPort) s
  let noiseVar := s.noiseVar + env.averagePower (s.tempNoise (0, iRxPort)) * ((n : Nat) : F)
  { s with
    noiseVar :=
      if interleavedPilots env config then
        noiseVar + env.averagePower (s.tempNoise (1, iRxPort)) * ((n : Nat) : F)
      else noiseVar }

/-- `nof_estimates`. -/
def nofEstimates : Nat := if interleavedPilots env config then 2 else config.nofAntennaPorts

/-- `correction_factor`. -/
def correctionFactor : Nat := if interleavedPilots env config then 2 else 1

/-- `estimate`, without what it forwards to the collector. -/
def estimate : SrsEstimatorResult D F C :=
  let received := receive env config
  let timeAlignment := received.2.timeAlignment / ((config.nofAntennaPorts : Nat) : D)
  let channel := (List.range config.ports.length).foldl
    (channelRxPortStep env config received.1.tempLse timeAlignment)
    ⟨received.1.tempNoise, fun _ => 0, ((0 : Nat) : F), ((0 : Nat) : F)⟩
  let noiseVar := channel.noiseVar / (((config.nofSymbols * n - nofEstimates env config) *
    correctionFactor env config * config.ports.length : Nat) : F)
  -- "keep SNR <= 40 dB"
  let noiseStd := Max.max (env.sqrt noiseVar)
    (env.sqrt channel.rsrp * (((1 : Nat) : F) / ((100 : Nat) : F)))
  let epre := received.1.epre /
    ((config.nofSymbols * correctionFactor env config * config.ports.length : Nat) : F)
  let rsrp := channel.rsrp / ((config.nofAntennaPorts * config.ports.length : Nat) : F)
  { timeAlignment := { received.2 with timeAlignment := timeAlignment }
    channelMatrix := fun path => (((1 : Nat) : F) / noiseStd) • channel.channelMatrix path
    noiseVariance := noiseVar
    epreDb := env.convertPowerToDb epre
    rsrpDb := env.convertPowerToDb rsrp }

end Estimate

end RunOran
