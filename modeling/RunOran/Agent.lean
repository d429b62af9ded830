import RunOran.Collector

/-!
# The agent's radio configuration

`create_e2_du_agent` derives an SRS configuration from the radio configuration it is given and
puts it in two places: the runtime defaults, a global that each call overwrites, and the
collector. The collector is a function-local `static`, so it is constructed by the first call
and keeps that call's configuration (`srsCollector_run`), while the runtime defaults follow the
latest call (`runtimeDefaults_run`). The two agree, and agree with the latest call, as long as
all calls amount to the same parameters: `collector_follows_agent_iff`.
-/

namespace RunOran

/-! ## Configurations -/

/-- `x > 0.0`: the sign bit is clear, and it is neither zero nor a NaN. -/
def Double.isPositive (x : Double) : Bool := 0 < x.bits && x.bits ≤ 0x7FF0000000000000

/-- `e2_du_radio_config`. -/
structure E2DuRadioConfig where
  numRxAntennas : UInt16 := 0
  ulBandwidthPrb : UInt16 := 0
  samplingFrequencyHz : Double := ⟨0⟩
  subcarrierSpacingKhz : Double := ⟨0⟩
  carrierFrequencyHz : Double := ⟨0⟩
  deriving DecidableEq

/-- `srs_runtime_defaults`, as far as `create_e2_du_agent` writes it. The three doubles are
30.72e6, 30.0 and 3.5e9. -/
structure SrsRuntimeDefaults where
  numRxAntennas : UInt16 := 2
  samplingFrequencyHz : Double := ⟨0x417D4C0000000000⟩
  subcarrierSpacingKhz : Double := ⟨0x403E000000000000⟩
  carrierFrequencyHz : Double := ⟨0x41EA13B860000000⟩
  ulBandwidthPrb : UInt16 := 0
  deriving DecidableEq

/-- A double of the radio configuration, or its fallback. -/
def positiveOr (fallback : Double) (field : E2DuRadioConfig → Double) :
    Option E2DuRadioConfig → Double
  | some radioCfg => if (field radioCfg).isPositive then field radioCfg else fallback
  | none => fallback

/-- `srs_cfg`. -/
def srsCfg (radioCfg : Option E2DuRadioConfig) : GnbSrsConfig where
  numRxAntennas :=
    match radioCfg with
    | some radioCfg => if radioCfg.numRxAntennas ≠ 0 then radioCfg.numRxAntennas.toUInt32 else 2
    | none => 2
  srsBandwidthPrb := 52
  numSrsSymbols := 1
  samplingFrequencyHz :=
    positiveOr ⟨0x417D4C0000000000⟩ E2DuRadioConfig.samplingFrequencyHz radioCfg
  subcarrierSpacingKhz :=
    positiveOr ⟨0x403E000000000000⟩ E2DuRadioConfig.subcarrierSpacingKhz radioCfg
  carrierFrequencyHz :=
    positiveOr ⟨0x41EA13B860000000⟩ E2DuRadioConfig.carrierFrequencyHz radioCfg

/-- The assignments to `runtime_cfg`. -/
def SrsRuntimeDefaults.assign (runtimeCfg : SrsRuntimeDefaults) (srsCfg : GnbSrsConfig)
    (radioCfg : Option E2DuRadioConfig) : SrsRuntimeDefaults where
  numRxAntennas := srsCfg.numRxAntennas.toUInt16
  samplingFrequencyHz := srsCfg.samplingFrequencyHz
  subcarrierSpacingKhz := srsCfg.subcarrierSpacingKhz
  carrierFrequencyHz := srsCfg.carrierFrequencyHz
  ulBandwidthPrb :=
    -- what an earlier call has set is kept
    let kept := if runtimeCfg.ulBandwidthPrb ≠ 0 then runtimeCfg.ulBandwidthPrb
      else srsCfg.srsBandwidthPrb.toUInt16
    match radioCfg with
    | some radioCfg => if radioCfg.ulBandwidthPrb ≠ 0 then radioCfg.ulBandwidthPrb else kept
    | none => kept

/-! ## The process -/

/-- The variables that outlive a call: the runtime defaults, the `static` collector once it is
constructed, and whether `srs_e2_collector` points to it. -/
structure DuProcess where
  runtimeDefaults : SrsRuntimeDefaults
  srsCollector : Option SrsDataCollector
  registered : Bool

namespace DuProcess

/-- The process at its start. -/
def init : DuProcess := ⟨{}, none, false⟩

/-- `get_srs_e2_data_collector`. -/
def getSrsE2DataCollector (s : DuProcess) : Option SrsDataCollector :=
  if s.registered then s.srsCollector else none

/-- `create_e2_du_agent`, as far as these variables go. -/
def createE2DuAgent (s : DuProcess) (e2smSrsEnabled : Bool)
    (radioCfg : Option E2DuRadioConfig) : DuProcess :=
  if e2smSrsEnabled then
    { runtimeDefaults := s.runtimeDefaults.assign (srsCfg radioCfg) radioCfg
      -- the initialiser of a `static` runs once
      srsCollector := some (s.srsCollector.getD (SrsDataCollector.init (srsCfg radioCfg)))
      registered := true }
  else s

end DuProcess

/-- What happens to the process: an agent is created, or the registered collector is called. -/
inductive DuProcessEvent where
  | createE2DuAgent (e2smSrsEnabled : Bool) (radioCfg : Option E2DuRadioConfig)
  | collector (op : CollectorOp)
  deriving DecidableEq

/-- One event; without a registered collector nothing is called. -/
def DuProcess.step (s : DuProcess) : DuProcessEvent → DuProcess × CollectorResult
  | .createE2DuAgent e2smSrsEnabled radioCfg => (s.createE2DuAgent e2smSrsEnabled radioCfg, {})
  | .collector op =>
    match s.getSrsE2DataCollector with
    | some c => ({ s with srsCollector := some (c.step op).1 }, (c.step op).2)
    | none => (s, {})

/-- The process after a sequence of events. -/
abbrev DuProcess.run (events : List DuProcessEvent) : DuProcess :=
  Mealy.exec DuProcess.step DuProcess.init events

/-- The radio configurations with which agents were created, SRS being enabled. -/
def radioConfigs (events : List DuProcessEvent) : List (Option E2DuRadioConfig) :=
  events.filterMap fun event =>
    match event with
    | .createE2DuAgent true radioCfg => some radioCfg
    | _ => none

/-! ## Parameters -/

/-- The four parameters that are kept twice. -/
structure RadioParameters where
  numRxAntennas : Nat
  samplingFrequencyHz : Double
  subcarrierSpacingKhz : Double
  carrierFrequencyHz : Double
  deriving DecidableEq

/-- What a radio configuration amounts to: each parameter, or its fallback if it is absent or
not positive. -/
def radioParameters (radioCfg : Option E2DuRadioConfig) : RadioParameters where
  numRxAntennas :=
    ((radioCfg.map fun r => r.numRxAntennas.toNat).filter fun n => 0 < n).getD 2
  samplingFrequencyHz :=
    ((radioCfg.map E2DuRadioConfig.samplingFrequencyHz).filter Double.isPositive).getD
      ⟨0x417D4C0000000000⟩
  subcarrierSpacingKhz :=
    ((radioCfg.map E2DuRadioConfig.subcarrierSpacingKhz).filter Double.isPositive).getD
      ⟨0x403E000000000000⟩
  carrierFrequencyHz :=
    ((radioCfg.map E2DuRadioConfig.carrierFrequencyHz).filter Double.isPositive).getD
      ⟨0x41EA13B860000000⟩

/-- The parameters of the collector's configuration. -/
def GnbSrsConfig.parameters (config : GnbSrsConfig) : RadioParameters :=
  ⟨config.numRxAntennas.toNat, config.samplingFrequencyHz, config.subcarrierSpacingKhz,
    config.carrierFrequencyHz⟩

/-- The parameters of the runtime defaults. -/
def SrsRuntimeDefaults.parameters (runtimeCfg : SrsRuntimeDefaults) : RadioParameters :=
  ⟨runtimeCfg.numRxAntennas.toNat, runtimeCfg.samplingFrequencyHz,
    runtimeCfg.subcarrierSpacingKhz, runtimeCfg.carrierFrequencyHz⟩

theorem positiveOr_eq (fallback : Double) (field : E2DuRadioConfig → Double)
    (radioCfg : Option E2DuRadioConfig) :
    positiveOr fallback field radioCfg =
      ((radioCfg.map field).filter Double.isPositive).getD fallback := by
  cases radioCfg with
  | none => rfl
  | some r =>
    rw [positiveOr, Option.map_some, Option.filter_some]
    split <;> rfl

/-- The antenna count is that of a 16-bit field. -/
theorem numRxAntennas_srsCfg (radioCfg : Option E2DuRadioConfig) :
    (srsCfg radioCfg).numRxAntennas.toNat = (radioParameters radioCfg).numRxAntennas ∧
      (srsCfg radioCfg).numRxAntennas.toUInt16.toNat = (srsCfg radioCfg).numRxAntennas.toNat := by
  cases radioCfg with
  | none => exact ⟨rfl, rfl⟩
  | some r =>
    have hlt := r.numRxAntennas.toNat_lt
    simp only [srsCfg, radioParameters, Option.map_some, Option.filter_some]
    by_cases hzero : r.numRxAntennas = 0
    · rw [if_neg (not_not_intro hzero), hzero]
      exact ⟨rfl, rfl⟩
    · have hpos : 0 < r.numRxAntennas.toNat := by
        rw [Nat.pos_iff_ne_zero]
        exact fun h => hzero (UInt16.toNat_inj.mp h)
      rw [if_pos hzero, if_pos (decide_eq_true hpos)]
      simp

theorem parameters_srsCfg (radioCfg : Option E2DuRadioConfig) :
    (srsCfg radioCfg).parameters = radioParameters radioCfg := by
  rw [GnbSrsConfig.parameters, (numRxAntennas_srsCfg radioCfg).1]
  simp only [srsCfg, positiveOr_eq]
  rfl

theorem parameters_assign (runtimeCfg : SrsRuntimeDefaults) (radioCfg : Option E2DuRadioConfig) :
    (runtimeCfg.assign (srsCfg radioCfg) radioCfg).parameters = radioParameters radioCfg := by
  rw [← parameters_srsCfg, SrsRuntimeDefaults.parameters, GnbSrsConfig.parameters,
    ← (numRxAntennas_srsCfg radioCfg).2]
  rfl

/-! ## What a run leaves -/

theorem radioConfigs_append (events more : List DuProcessEvent) :
    radioConfigs (events ++ more) = radioConfigs events ++ radioConfigs more :=
  List.filterMap_append ..

theorem mem_radioConfigs {events : List DuProcessEvent} {radioCfg : Option E2DuRadioConfig} :
    radioCfg ∈ radioConfigs events ↔ .createE2DuAgent true radioCfg ∈ events := by
  rw [radioConfigs, List.mem_filterMap]
  refine ⟨?_, ?_⟩
  · rintro ⟨event, hevent, hsome⟩
    split at hsome
    · rw [← Option.some.inj hsome]
      exact hevent
    · cases hsome
  · exact fun h => ⟨_, h, rfl⟩

namespace DuProcess

/-- The configurations that the collector and the runtime defaults have after an event, from
those before it. -/
theorem step_configs (s : DuProcess) (event : DuProcessEvent) :
    (s.step event).1.srsCollector.map SrsDataCollector.config =
        (s.srsCollector.map SrsDataCollector.config).or ((radioConfigs [event]).head?.map srsCfg) ∧
      (s.step event).1.runtimeDefaults.parameters =
        ((radioConfigs [event]).getLast?.map radioParameters).getD s.runtimeDefaults.parameters ∧
      (s.registered = s.srsCollector.isSome →
        (s.step event).1.registered = (s.step event).1.srsCollector.isSome) := by
  cases event with
  | createE2DuAgent e2smSrsEnabled radioCfg =>
    cases e2smSrsEnabled with
    | false => exact ⟨(Option.or_none ..).symm, rfl, id⟩
    | true =>
      refine ⟨?_, parameters_assign s.runtimeDefaults radioCfg, fun _ => rfl⟩
      cases hstatic : s.srsCollector with
      | none =>
        simp only [step, createE2DuAgent, hstatic]
        rfl
      | some c =>
        simp only [step, createE2DuAgent, hstatic]
        rfl
  | collector op =>
    simp only [step]
    split
    · -- the collector keeps its configuration
      rename_i c hc
      have hstatic : s.srsCollector = some c := by
        rw [getSrsE2DataCollector] at hc
        split at hc
        · exact hc
        · cases hc
      refine ⟨?_, rfl, fun h => ?_⟩
      · rw [hstatic, Option.map_some, SrsDataCollector.config_step]
        rfl
      · rw [h, hstatic]
        rfl
    · exact ⟨(Option.or_none ..).symm, rfl, id⟩

/-- **The collector keeps the configuration of the first call.** -/
theorem srsCollector_run (events : List DuProcessEvent) :
    (run events).srsCollector.map SrsDataCollector.config =
      (radioConfigs events).head?.map srsCfg := by
  induction events using List.reverseRecOn with
  | nil => rfl
  | append_singleton events event ih =>
    rw [run, Mealy.exec_concat, (step_configs _ event).1, ih, radioConfigs_append, List.head?_append]
    cases (radioConfigs events).head? <;> rfl

/-- **The runtime defaults follow the latest call.** -/
theorem runtimeDefaults_run (events : List DuProcessEvent) :
    (run events).runtimeDefaults.parameters =
      ((radioConfigs events).getLast?.map radioParameters).getD (radioParameters none) := by
  induction events using List.reverseRecOn with
  | nil => rfl
  | append_singleton events event ih =>
    rw [run, Mealy.exec_concat, (step_configs _ event).2.1, ih, radioConfigs_append,
      List.getLast?_append]
    cases (radioConfigs [event]).getLast? <;> rfl

/-- As soon as there is a collector it is the registered one. -/
theorem registered_run (events : List DuProcessEvent) :
    (run events).getSrsE2DataCollector = (run events).srsCollector := by
  have hregistered : (run events).registered = (run events).srsCollector.isSome :=
    Mealy.exec_invariant (fun s => s.registered = s.srsCollector.isSome) rfl
      (fun s event hs => (step_configs s event).2.2 hs) events
  rw [getSrsE2DataCollector, hregistered]
  cases (run events).srsCollector <;> rfl

/-- The collector follows the call: there is a registered one, its parameters are those of the
call and of the runtime defaults, and its threshold is the antenna count of the call. -/
def Follows (s : DuProcess) (radioCfg : Option E2DuRadioConfig) : Prop :=
  s.getSrsE2DataCollector.map (fun c => c.config.parameters) = some (radioParameters radioCfg) ∧
    s.runtimeDefaults.parameters = radioParameters radioCfg ∧
    s.getSrsE2DataCollector.map SrsDataCollector.numRxAntennas =
      some (radioParameters radioCfg).numRxAntennas

instance (s : DuProcess) (radioCfg : Option E2DuRadioConfig) : Decidable (s.Follows radioCfg) :=
  inferInstanceAs (Decidable (_ ∧ _ ∧ _))

/-- After a run the collector follows the latest call if that amounts to what the first call
did. -/
theorem follows_run_iff {events : List DuProcessEvent} {first latest : Option E2DuRadioConfig}
    (hfirst : (radioConfigs events).head? = some first)
    (hlatest : (radioConfigs events).getLast? = some latest) :
    (run events).Follows latest ↔ radioParameters first = radioParameters latest := by
  have hstatic := srsCollector_run events
  rw [hfirst, Option.map_some, Option.map_eq_some_iff] at hstatic
  obtain ⟨c, hc, hconfig⟩ := hstatic
  have hparameters : c.config.parameters = radioParameters first := by
    rw [hconfig, parameters_srsCfg]
  have hthreshold : c.numRxAntennas = (radioParameters first).numRxAntennas :=
    congrArg RadioParameters.numRxAntennas hparameters
  rw [Follows, registered_run, hc, runtimeDefaults_run, hlatest, Option.map_some, Option.map_some,
    Option.map_some, hparameters, hthreshold]
  refine ⟨?_, ?_⟩
  · exact fun h => Option.some.inj h.1
  · intro h
    rw [h]
    exact ⟨rfl, rfl, rfl⟩

/-- A call that is followed amounts to what the first one did. -/
theorem radioParameters_of_follows {events : List DuProcessEvent}
    (hfollows : ∀ before after, events = before ++ after →
      ∀ latest, (radioConfigs before).getLast? = some latest → (run before).Follows latest)
    {first radioCfg : Option E2DuRadioConfig} (hfirst : (radioConfigs events).head? = some first)
    (hmem : radioCfg ∈ radioConfigs events) : radioParameters first = radioParameters radioCfg := by
  obtain ⟨before, after, rfl⟩ := List.append_of_mem (mem_radioConfigs.mp hmem)
  have hsplit : before ++ .createE2DuAgent true radioCfg :: after =
      (before ++ [.createE2DuAgent true radioCfg]) ++ after := by simp
  have hcalls : radioConfigs (before ++ [.createE2DuAgent true radioCfg]) =
      radioConfigs before ++ [radioCfg] := radioConfigs_append before _
  have hlatest : (radioConfigs (before ++ [.createE2DuAgent true radioCfg])).getLast? =
      some radioCfg := by
    rw [hcalls, List.getLast?_concat]
  -- the first call of the run is the first one up to here
  have hhead : (radioConfigs (before ++ [.createE2DuAgent true radioCfg])).head? =
      some first := by
    rw [hsplit, radioConfigs_append, hcalls, List.head?_append_of_ne_nil _ (by simp)] at hfirst
    rw [hcalls, hfirst]
  exact (follows_run_iff hhead hlatest).mp (hfollows _ after hsplit radioCfg hlatest)

/-- **The collector follows the latest agent configuration**, at any time after a call, exactly
in the runs in which all the calls amount to the same parameters. -/
theorem collector_follows_agent_iff (events : List DuProcessEvent) :
    (∀ before after, events = before ++ after →
        ∀ latest, (radioConfigs before).getLast? = some latest → (run before).Follows latest) ↔
      ∀ radioCfg ∈ radioConfigs events, ∀ radioCfg' ∈ radioConfigs events,
        radioParameters radioCfg = radioParameters radioCfg' := by
  refine ⟨?_, ?_⟩
  · intro hfollows radioCfg hmem radioCfg' hmem'
    have hhead := List.head?_eq_some_head (List.ne_nil_of_mem hmem)
    exact (radioParameters_of_follows hfollows hhead hmem).symm.trans
      (radioParameters_of_follows hfollows hhead hmem')
  · rintro hsame before after rfl latest hlatest
    have hmem := List.mem_of_getLast? hlatest
    have hhead := List.head?_eq_some_head (List.ne_nil_of_mem hmem)
    rw [radioConfigs_append] at hsame
    exact (follows_run_iff hhead hlatest).mpr
      (hsame _ (List.mem_append_left _ (List.mem_of_head? hhead)) latest
        (List.mem_append_left _ hmem))

/-- A second agent with four antennas: the runtime defaults say four, but two antennas still
make an entry of the collector complete. -/
theorem second_agent_is_not_followed :
    let first : Option E2DuRadioConfig := some { numRxAntennas := 2 }
    let second : Option E2DuRadioConfig := some { numRxAntennas := 4 }
    let s := run [.createE2DuAgent true first, .createE2DuAgent true second]
    ¬ s.Follows second ∧ s.runtimeDefaults.numRxAntennas = 4 ∧
      s.getSrsE2DataCollector.map SrsDataCollector.numRxAntennas = some 2 ∧
      ((s.step (.collector (.addSrsData ⟨17, 0, [], [], 1⟩))).1.step
        (.collector (.addSrsData ⟨17, 1, [], [], 1⟩))).1.getSrsE2DataCollector.map
          (fun c => c.isComplete 17) = some true := by
  decide +kernel

end DuProcess

end RunOran
