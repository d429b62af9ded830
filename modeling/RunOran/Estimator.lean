import RunOran.Occasion
import Mathlib.Data.List.Count

/-!
# What the estimator forwards

`srs_estimator_generic_impl::estimate` hands SRS samples to the collector from inside three
nested loops, over transmit ports, receive ports and symbols. A guard on the symbol keeps it
from forwarding the other symbols of an occasion, but there is none on the transmit port: each
receive port is forwarded once for every transmit port (`count_estimateCalls`), each time as
if it were an occasion of its own.

With one transmit port the calls are one pass, and a pass becomes one snapshot wherever
collections fall between its additions (`snapshots_of_single_port`). Together that is
`one_estimate_one_snapshot_iff`.
-/

namespace RunOran

/-! ## The loops -/

/-- What `estimate` reads of `srs_estimator_configuration`: the RNTI of the context, if there
is one, the receive ports, and of the SRS resource its numbers of transmit ports and symbols. -/
structure SrsEstimatorConfiguration where
  context : Option UInt32
  ports : List UInt32
  nofAntennaPorts : Nat
  startSymbol : Nat
  nofSymbols : Nat

/-- What surrounds an estimate: the sequence generator, the resource grid as read for each
transmit port, and the clock when it is read for each transmit and receive port. -/
structure EstimatorInputs where
  sequence : Nat → List Cf
  rxSequence : Nat → UInt32 → Nat → List Cf
  timestampUs : Nat → Nat → UInt64

/-- The body of the innermost loop, as far as it calls `add_srs_data`. -/
def forwardSrs (inputs : EstimatorInputs) (config : SrsEstimatorConfiguration)
    (iAntennaPort : Nat) (iRxPort : UInt32) (iRxPortIndex iSymbol : Nat) : List AddCall :=
  match config.context with
  | some rnti =>
    -- on the first SRS symbol only, "to avoid duplicates"
    if iSymbol = config.startSymbol then
      [⟨rnti, iRxPort, inputs.sequence iAntennaPort,
        inputs.rxSequence iAntennaPort iRxPort iSymbol,
        inputs.timestampUs iAntennaPort iRxPortIndex⟩]
    else []
  | none => []

/-- The calls of `add_srs_data` that one `estimate` makes. -/
def estimateCalls (inputs : EstimatorInputs) (config : SrsEstimatorConfiguration) :
    List AddCall :=
  (List.range config.nofAntennaPorts).flatMap fun iAntennaPort =>
    config.ports.zipIdx.flatMap fun port =>
      (List.range' config.startSymbol config.nofSymbols).flatMap fun iSymbol =>
        forwardSrs inputs config iAntennaPort port.1 port.2 iSymbol

/-! ## How often a port is forwarded -/

section Calls

variable {inputs : EstimatorInputs} {config : SrsEstimatorConfiguration} {rnti : UInt32}

/-- Of all symbols the first one is forwarded, if there is one. -/
theorem symbolLoop_eq (hcontext : config.context = some rnti) (iAntennaPort : Nat)
    (port : UInt32 × Nat) :
    ((List.range' config.startSymbol config.nofSymbols).flatMap fun iSymbol =>
        forwardSrs inputs config iAntennaPort port.1 port.2 iSymbol) =
      if 0 < config.nofSymbols then
        [⟨rnti, port.1, inputs.sequence iAntennaPort,
          inputs.rxSequence iAntennaPort port.1 config.startSymbol,
          inputs.timestampUs iAntennaPort port.2⟩]
      else [] := by
  cases hsymbols : config.nofSymbols with
  | zero => rfl
  | succ n =>
    have hrest : ((List.range' (config.startSymbol + 1) n).flatMap fun iSymbol =>
        forwardSrs inputs config iAntennaPort port.1 port.2 iSymbol) = [] := by
      rw [List.flatMap_eq_nil_iff]
      intro iSymbol hmem
      have hlater := (List.mem_range'_1.mp hmem).1
      simp only [forwardSrs, hcontext]
      rw [if_neg (by omega)]
    rw [List.range'_succ, List.flatMap_cons, hrest, if_pos (Nat.succ_pos n)]
    simp only [forwardSrs, hcontext, if_pos, List.append_nil]

/-- The calls for one transmit port. -/
theorem portLoop_eq (hcontext : config.context = some rnti) (hsymbols : 0 < config.nofSymbols)
    (iAntennaPort : Nat) :
    (config.ports.zipIdx.flatMap fun port =>
        (List.range' config.startSymbol config.nofSymbols).flatMap fun iSymbol =>
          forwardSrs inputs config iAntennaPort port.1 port.2 iSymbol) =
      config.ports.zipIdx.map fun port => ⟨rnti, port.1, inputs.sequence iAntennaPort,
        inputs.rxSequence iAntennaPort port.1 config.startSymbol,
        inputs.timestampUs iAntennaPort port.2⟩ := by
  simp only [symbolLoop_eq hcontext, if_pos hsymbols]
  exact List.map_eq_flatMap.symm

/-- Each transmit port goes through all the receive ports. -/
theorem antennaIds_estimateCalls (hcontext : config.context = some rnti)
    (hsymbols : 0 < config.nofSymbols) :
    (estimateCalls inputs config).map AddCall.antennaId =
      (List.range config.nofAntennaPorts).flatMap fun _ => config.ports := by
  simp only [estimateCalls, portLoop_eq hcontext hsymbols, List.map_flatMap, List.map_map]
  have hports : ∀ iAntennaPort, config.ports.zipIdx.map (AddCall.antennaId ∘ fun port =>
      ⟨rnti, port.1, inputs.sequence iAntennaPort,
        inputs.rxSequence iAntennaPort port.1 config.startSymbol,
        inputs.timestampUs iAntennaPort port.2⟩) = config.ports :=
    fun _ => List.zipIdx_map_fst 0 config.ports
  simp only [hports]

theorem estimateCalls_of_no_symbols (hsymbols : config.nofSymbols = 0) :
    estimateCalls inputs config = [] := by
  simp [estimateCalls, hsymbols]

/-- All the calls are for the UE of the context. -/
theorem rnti_of_mem_estimateCalls (hcontext : config.context = some rnti) {call : AddCall}
    (hcall : call ∈ estimateCalls inputs config) : call.rnti = rnti := by
  simp only [estimateCalls, List.mem_flatMap, forwardSrs, hcontext] at hcall
  obtain ⟨iAntennaPort, -, port, -, iSymbol, -, hcall⟩ := hcall
  split at hcall
  · rw [List.mem_singleton.mp hcall]
  · cases hcall

/-- **A receive port is forwarded once for every transmit port.** -/
theorem count_estimateCalls (hcontext : config.context = some rnti)
    (hports : config.ports.Nodup) {port : UInt32} (hport : port ∈ config.ports) :
    ((estimateCalls inputs config).map AddCall.antennaId).count port =
      if 0 < config.nofSymbols then config.nofAntennaPorts else 0 := by
  split
  · rename_i hsymbols
    have honce : config.ports.count port = 1 := List.count_eq_one_of_mem hports hport
    rw [antennaIds_estimateCalls hcontext hsymbols, List.count_flatMap]
    simp only [Function.comp_def, honce, List.map_const', List.length_range,
      List.sum_replicate_nat, Nat.mul_one]
  · rename_i hsymbols
    rw [estimateCalls_of_no_symbols (Nat.eq_zero_of_not_pos hsymbols)]
    rfl

end Calls

/-! ## Snapshots -/

namespace SrsDataCollector

/-- The records that the collections of a run return. -/
def returned (c : SrsDataCollector) (ops : List CollectorOp) : List UeSrsData :=
  Mealy.observe step (fun _ result => result.records) c ops

/-- How many complete snapshots of a UE result from a run: those that were returned, and the
one that is left complete. -/
def snapshots (c : SrsDataCollector) (ops : List CollectorOp) (r : UInt32) : Nat :=
  ((c.returned ops).map UeSrsData.rnti).count r + if (c.run ops).isComplete r then 1 else 0

theorem returned_concat (c : SrsDataCollector) (ops : List CollectorOp) (op : CollectorOp) :
    c.returned (ops ++ [op]) = c.returned ops ++ ((c.run ops).step op).2.records :=
  Mealy.observe_concat ..

/-- A collection returns the entry of a UE if it is complete. -/
theorem WellFormed.count_getAllCompleteUeData {c : SrsDataCollector} (hc : c.WellFormed)
    (r : UInt32) :
    (c.getAllCompleteUeData.1.map UeSrsData.rnti).count r = if c.isComplete r then 1 else 0 := by
  have hmem : r ∈ c.getAllCompleteUeData.1.map UeSrsData.rnti ↔ c.isComplete r = true := by
    refine ⟨?_, ?_⟩
    · intro hr
      obtain ⟨ue, hue, rfl⟩ := List.mem_map.mp hr
      obtain ⟨hentry, hfull⟩ := hc.mem_getAllCompleteUeData_iff.mp hue
      rw [isComplete_eq, hentry]
      exact hfull
    · intro hr
      obtain ⟨ue, hue, hentry⟩ := exists_mem_of_isComplete hr
      exact List.mem_map.mpr ⟨ue, hue, (hc r ue hentry).rnti_eq⟩
  rw [hc.nodup_rntis.count, if_congr hmem rfl rfl]

/-- The other calls of a report run return no records. -/
theorem snapshots_concat {c : SrsDataCollector} {ops : List CollectorOp} {op : CollectorOp}
    (r : UInt32) (hrecords : ((c.run ops).step op).2.records = []) :
    c.snapshots (ops ++ [op]) r = ((c.returned ops).map UeSrsData.rnti).count r +
      if (c.run (ops ++ [op])).isComplete r then 1 else 0 := by
  rw [snapshots, returned_concat, hrecords, List.append_nil]

/-- The number of snapshots of a UE changes with its additions only: a collection moves a
complete entry to the records that it returns. -/
theorem WellFormed.snapshots_concat_of_no_add {c : SrsDataCollector} (hc : c.WellFormed)
    {ops : List CollectorOp} {op : CollectorOp} {r : UInt32} (hop : op.IsReporting)
    (hadds : addsOf r [op] = []) : c.snapshots (ops ++ [op]) r = c.snapshots ops r := by
  cases op with
  | addSrsData call =>
    have hr : call.rnti ≠ r := by
      rintro rfl
      rw [addsOf_addSrsData] at hadds
      cases hadds
    have hsame : (c.run (ops ++ [.addSrsData call])).isComplete r = (c.run ops).isComplete r := by
      rw [isComplete_eq, isComplete_eq, entry_run_concat, entryStep, if_neg hr,
        numRxAntennas_run, numRxAntennas_run]
    rw [snapshots_concat r rfl, hsame, snapshots]
  | isComplete rnti =>
    have hsame : c.run (ops ++ [.isComplete rnti]) = c.run ops := Mealy.exec_concat ..
    rw [snapshots_concat r rfl, hsame, snapshots]
  | getAllCompleteUeData =>
    have hafter : (c.run (ops ++ [.getAllCompleteUeData])).isComplete r = false := by
      rw [SrsDataCollector.run, Mealy.exec_concat]
      exact isComplete_getAllCompleteUeData (c.run ops) r
    have hrecords : ((c.run ops).step .getAllCompleteUeData).2.records =
        (c.run ops).getAllCompleteUeData.1 := rfl
    rw [snapshots, snapshots, hafter, returned_concat, List.map_append, List.count_append,
      hrecords, (hc.run ops).count_getAllCompleteUeData]
    rfl
  | getAndClearUeData rnti => exact hop.elim
  | cleanupOldData now timeoutUs => exact hop.elim

end SrsDataCollector

section FirstPass

variable {c : SrsDataCollector} {r : UInt32} (hc : c.WellFormed) (hnone : c.entry r = none)

include hnone in
/-- Without an addition of the UE it is not complete. -/
theorem isComplete_of_no_add {ops : List CollectorOp} (hadds : addsOf r ops = []) :
    (c.run ops).isComplete r = false := by
  rw [SrsDataCollector.isComplete_eq, entry_run_of_none hnone hadds]
  rfl

include hc hnone in
/-- Without an addition of the UE there is no snapshot of it. -/
theorem snapshots_of_no_add {ops : List CollectorOp} :
    (∀ op ∈ ops, op.IsReporting) → addsOf r ops = [] → c.snapshots ops r = 0 := by
  induction ops using List.reverseRecOn with
  | nil =>
    intro _ hadds
    rw [SrsDataCollector.snapshots, isComplete_of_no_add hnone hadds]
    rfl
  | append_singleton ops op ih =>
    intro hops hadds
    rw [addsOf_append, List.append_eq_nil_iff] at hadds
    rw [hc.snapshots_concat_of_no_add (hops op (by simp)) hadds.2]
    exact ih (fun op' hop' => hops op' (List.mem_append_left _ hop')) hadds.1

include hnone in
/-- While the first pass of a UE goes on, an addition leaves the record of the pass so far. -/
theorem entry_after_add (hn : 1 ≤ c.numRxAntennas) {ops : List CollectorOp} {call : AddCall}
    (hops : ∀ op ∈ ops ++ [.addSrsData call], op.IsReporting)
    (hdistinct : ((addsOf call.rnti (ops ++ [.addSrsData call])).map AddCall.antennaId).Nodup)
    (hlen : (addsOf call.rnti (ops ++ [.addSrsData call])).length ≤ c.numRxAntennas)
    (hr : call.rnti = r) :
    (c.run (ops ++ [.addSrsData call])).entry r =
      some (passRecord r (addsOf r (ops ++ [.addSrsData call]))) := by
  subst hr
  have hpasses : DistinctPasses c.numRxAntennas (addsOf call.rnti (ops ++ [.addSrsData call])) :=
    fun k => hdistinct.sublist
      (((List.take_sublist _ _).trans (List.drop_sublist _ _)).map _)
  have hboundary : AtBoundary c.numRxAntennas (c.entry call.rnti) := by
    intro ue hue
    rw [hnone] at hue
    cases hue
  have hpos : 0 < (addsOf call.rnti (ops ++ [.addSrsData call])).length := by
    rw [addsOf_append, addsOf_addSrsData, List.length_append]
    exact Nat.succ_pos _
  obtain ⟨ue, hue⟩ : ∃ ue, (c.run (ops ++ [.addSrsData call])).entry call.rnti = some ue := by
    rw [SrsDataCollector.entry_run_concat, SrsDataCollector.entryStep, if_pos rfl]
    exact ⟨_, rfl⟩
  rcases inStep_run hn hboundary hops hpasses with
    ⟨hnil, -⟩ | ⟨k, hlow, hhigh, ⟨-, hgone⟩ | ⟨hlt, hrecord⟩⟩
  · rw [hnil] at hpos
    cases hpos
  · rw [hgone] at hue
    cases hue
  · -- the current pass is the first one
    have hk : k = 0 := by
      have hlt' : k * c.numRxAntennas < 1 * c.numRxAntennas := by omega
      exact Nat.lt_one_iff.mp (Nat.lt_of_mul_lt_mul_right hlt')
    rw [hrecord, hk, Nat.zero_mul, List.drop_zero]

include hnone in
/-- The addition that ends the first pass makes a snapshot, if there was none. -/
theorem snapshots_concat_add (hn : 1 ≤ c.numRxAntennas) {ops : List CollectorOp} {call : AddCall}
    (hr : call.rnti = r) (hops : ∀ op ∈ ops ++ [.addSrsData call], op.IsReporting)
    (hdistinct : ((addsOf r (ops ++ [.addSrsData call])).map AddCall.antennaId).Nodup)
    (hlen : (addsOf r (ops ++ [.addSrsData call])).length ≤ c.numRxAntennas)
    (hbefore : c.snapshots ops r = 0) :
    c.snapshots (ops ++ [.addSrsData call]) r =
      if (addsOf r (ops ++ [.addSrsData call])).length = c.numRxAntennas then 1 else 0 := by
  have hzero : ((c.returned ops).map UeSrsData.rnti).count r = 0 :=
    (Nat.add_eq_zero_iff.mp hbefore).1
  have hfull : (c.run (ops ++ [.addSrsData call])).isComplete r =
      decide (c.numRxAntennas ≤ (addsOf r (ops ++ [.addSrsData call])).length) := by
    rw [SrsDataCollector.isComplete_eq, SrsDataCollector.numRxAntennas_run,
      entry_after_add hnone hn hops (hr ▸ hdistinct) (hr ▸ hlen) hr]
    exact isFull_passRecord _ _ _
  rw [SrsDataCollector.snapshots_concat r rfl, hzero, Nat.zero_add, hfull]
  simp only [decide_eq_true_eq]
  exact if_congr ⟨fun hle => hlen.antisymm hle, fun heq => heq.ge⟩ rfl rfl

include hc hnone in
/-- **One pass, one snapshot**: once the additions of a UE are a whole pass there is one
snapshot of it, wherever the collections fall, and before there is none. -/
theorem snapshots_of_first_pass (hn : 1 ≤ c.numRxAntennas) {ops : List CollectorOp} :
    (∀ op ∈ ops, op.IsReporting) → ((addsOf r ops).map AddCall.antennaId).Nodup →
      (addsOf r ops).length ≤ c.numRxAntennas →
      c.snapshots ops r = if (addsOf r ops).length = c.numRxAntennas then 1 else 0 := by
  induction ops using List.reverseRecOn with
  | nil =>
    intro _ _ _
    have hnotOver : ¬ (addsOf r []).length = c.numRxAntennas := by
      rw [addsOf_nil, List.length_nil]
      omega
    rw [if_neg hnotOver]
    exact snapshots_of_no_add hc hnone (fun op hop => by cases hop) (addsOf_nil r)
  | append_singleton ops op ih =>
    intro hops hdistinct hlen
    have happend := addsOf_append r ops [op]
    have hprevious := ih (fun op' hop' => hops op' (List.mem_append_left _ hop'))
      (by rw [happend, List.map_append] at hdistinct; exact hdistinct.of_append_left)
      (by rw [happend, List.length_append] at hlen; omega)
    cases hadd : addsOf r [op] with
    | nil =>
      rw [hc.snapshots_concat_of_no_add (hops op (by simp)) hadd, hprevious, happend, hadd,
        List.append_nil]
    | cons call adds =>
      obtain ⟨hmem, hr⟩ := mem_addsOf.mp (hadd ▸ List.mem_cons_self : call ∈ addsOf r [op])
      obtain rfl := List.mem_singleton.mp hmem
      refine snapshots_concat_add hnone hn hr hops hdistinct hlen ?_
      -- the pass was not over before
      rw [happend, hadd, List.length_append, List.length_cons] at hlen
      rw [hprevious, if_neg (by omega)]

end FirstPass

/-! ## One estimate, one snapshot -/

/-- The collector calls of a run in which an estimate is interleaved with collections are
those of the estimate. -/
theorem addsOf_of_filter {rnti : UInt32} {calls : List AddCall} {ops : List CollectorOp}
    (hcalls : ∀ call ∈ calls, call.rnti = rnti)
    (hops : ops.filter (· ≠ .getAllCompleteUeData) = calls.map .addSrsData) :
    (∀ op ∈ ops, op.IsReporting) ∧ addsOf rnti ops = calls := by
  have hall : ∀ op ∈ ops, op = .getAllCompleteUeData ∨ ∃ call ∈ calls, op = .addSrsData call := by
    intro op hop
    rw [or_iff_not_imp_left]
    intro hne
    have hmem : op ∈ ops.filter (· ≠ .getAllCompleteUeData) :=
      List.mem_filter.mpr ⟨hop, decide_eq_true hne⟩
    rw [hops, List.mem_map] at hmem
    obtain ⟨call, hcall, rfl⟩ := hmem
    exact ⟨call, hcall, rfl⟩
  refine ⟨?_, ?_⟩
  · intro op hop
    rcases hall op hop with rfl | ⟨call, -, rfl⟩
    · trivial
    · trivial
  · have hfilter : addsOf rnti (ops.filter (· ≠ .getAllCompleteUeData)) = addsOf rnti ops := by
      rw [addsOf, List.filterMap_filter, addsOf]
      apply List.filterMap_congr
      intro op _
      cases op <;> simp
    rw [← hfilter, hops, addsOf, List.filterMap_map]
    conv_rhs => rw [← List.filterMap_some (l := calls)]
    apply List.filterMap_congr
    intro call hcall
    exact if_pos (hcalls call hcall)

/-- An estimate whose calls are one pass leaves one snapshot. -/
theorem snapshots_of_single_port {inputs : EstimatorInputs} {config : SrsEstimatorConfiguration}
    {rnti : UInt32} {c : SrsDataCollector} {ops : List CollectorOp} (hc : c.WellFormed)
    (hentry : c.entry rnti = none) (hcontext : config.context = some rnti)
    (hnodup : config.ports.Nodup) (hnum : c.numRxAntennas = config.ports.length)
    (hops : ops.filter (· ≠ .getAllCompleteUeData) =
      (estimateCalls inputs config).map .addSrsData)
    (hport : config.nofAntennaPorts = 1) (hsymbols : 0 < config.nofSymbols)
    (hne : config.ports ≠ []) : c.snapshots ops rnti = 1 := by
  obtain ⟨hreporting, hadds⟩ := addsOf_of_filter
    (fun call hcall => rnti_of_mem_estimateCalls hcontext hcall) hops
  have hids : (estimateCalls inputs config).map AddCall.antennaId = config.ports := by
    rw [antennaIds_estimateCalls hcontext hsymbols, hport]
    exact List.append_nil config.ports
  have hlen : (addsOf rnti ops).length = c.numRxAntennas := by
    rw [hadds, hnum, ← hids, List.length_map]
  have hn : 1 ≤ c.numRxAntennas := by
    rw [hnum]
    exact List.length_pos_iff.mpr hne
  rw [snapshots_of_first_pass hc hentry hn hreporting (by rw [hadds, hids]; exact hnodup)
    hlen.le, if_pos hlen]

/-- An estimate without receive ports leaves no snapshot. -/
theorem snapshots_of_no_ports {inputs : EstimatorInputs} {config : SrsEstimatorConfiguration}
    {rnti : UInt32} {c : SrsDataCollector} {ops : List CollectorOp} (hc : c.WellFormed)
    (hentry : c.entry rnti = none) (hcontext : config.context = some rnti)
    (hops : ops.filter (· ≠ .getAllCompleteUeData) =
      (estimateCalls inputs config).map .addSrsData)
    (hnil : config.ports = []) : c.snapshots ops rnti = 0 := by
  obtain ⟨hreporting, hadds⟩ := addsOf_of_filter
    (fun call hcall => rnti_of_mem_estimateCalls hcontext hcall) hops
  have hcalls : estimateCalls inputs config = [] := by
    simp [estimateCalls, hnil]
  rw [hcalls] at hadds
  exact snapshots_of_no_add hc hentry hreporting hadds

/-- **One estimate, one snapshot.** In every collector state without an entry for the UE, and
wherever collections fall between the calls of one estimate, each receive port is forwarded
once and one complete snapshot of the UE results exactly if there is a single transmit port
(and a symbol and a receive port at all). -/
theorem one_estimate_one_snapshot_iff (inputs : EstimatorInputs)
    (config : SrsEstimatorConfiguration) (rnti : UInt32) (gnbConfig : GnbSrsConfig)
    (earlier ops : List CollectorOp) (hcontext : config.context = some rnti)
    (hnodup : config.ports.Nodup)
    (hnum : gnbConfig.numRxAntennas.toNat = config.ports.length)
    (hentry : ((SrsDataCollector.init gnbConfig).run earlier).entry rnti = none)
    (hops : ops.filter (· ≠ .getAllCompleteUeData) =
      (estimateCalls inputs config).map .addSrsData) :
    ((∀ port ∈ config.ports,
        ((estimateCalls inputs config).map AddCall.antennaId).count port = 1) ∧
      ((SrsDataCollector.init gnbConfig).run earlier).snapshots ops rnti = 1) ↔
      config.nofAntennaPorts = 1 ∧ 0 < config.nofSymbols ∧ config.ports ≠ [] := by
  have hc := (SrsDataCollector.wellFormed_init gnbConfig).run earlier
  have hnum' : ((SrsDataCollector.init gnbConfig).run earlier).numRxAntennas =
      config.ports.length := by
    rw [SrsDataCollector.numRxAntennas_run]
    exact hnum
  refine ⟨?_, ?_⟩
  · rintro ⟨honce, hone⟩
    have hne : config.ports ≠ [] := by
      intro hnil
      rw [snapshots_of_no_ports hc hentry hcontext hops hnil] at hone
      cases hone
    obtain ⟨port, hport⟩ := List.exists_mem_of_ne_nil _ hne
    have hcount := honce port hport
    rw [count_estimateCalls hcontext hnodup hport] at hcount
    split at hcount
    · rename_i hsymbols
      exact ⟨hcount, hsymbols, hne⟩
    · cases hcount
  · rintro ⟨hport, hsymbols, hne⟩
    refine ⟨?_, ?_⟩
    · intro port hmem
      rw [count_estimateCalls hcontext hnodup hmem, if_pos hsymbols, hport]
    · exact snapshots_of_single_port hc hentry hcontext hnodup hnum' hops hport hsymbols hne

/-- Two receive ports; the collection falls between their additions, and another one follows. -/
theorem one_estimate_one_snapshot_two_ports :
    let inputs : EstimatorInputs := ⟨fun _ => [], fun _ _ _ => [], fun _ _ => 1000⟩
    let config : SrsEstimatorConfiguration := ⟨some 17, [0, 1], 1, 12, 2⟩
    let calls := [CollectorOp.addSrsData ⟨17, 0, [], [], 1000⟩, .getAllCompleteUeData,
      .addSrsData ⟨17, 1, [], [], 1000⟩, .getAllCompleteUeData]
    (∀ port ∈ config.ports,
        ((estimateCalls inputs config).map AddCall.antennaId).count port = 1) ∧
      ((SrsDataCollector.init ⟨2, 0, 0, ⟨0⟩, ⟨0⟩, ⟨0⟩⟩).run []).snapshots calls 17 = 1 := by
  intro inputs config calls
  exact (one_estimate_one_snapshot_iff inputs config 17 ⟨2, 0, 0, ⟨0⟩, ⟨0⟩, ⟨0⟩⟩ [] calls rfl
    (by decide) rfl (SrsDataCollector.entry_init _ _) (by decide)).mpr (by decide)

/-- With two transmit ports the same receive ports are forwarded twice, and two snapshots
result if a collection falls between the transmit ports. -/
theorem two_snapshots_of_one_estimate :
    let inputs : EstimatorInputs := ⟨fun _ => [], fun _ _ _ => [], fun _ _ => 1000⟩
    let config : SrsEstimatorConfiguration := ⟨some 17, [0, 1], 2, 12, 1⟩
    let calls := [CollectorOp.addSrsData ⟨17, 0, [], [], 1000⟩,
      .addSrsData ⟨17, 1, [], [], 1000⟩, .getAllCompleteUeData,
      .addSrsData ⟨17, 0, [], [], 1000⟩, .addSrsData ⟨17, 1, [], [], 1000⟩]
    let c := SrsDataCollector.init ⟨2, 0, 0, ⟨0⟩, ⟨0⟩, ⟨0⟩⟩
    c.entry 17 = none ∧
      calls.filter (· ≠ .getAllCompleteUeData) =
        (estimateCalls inputs config).map .addSrsData ∧
      (estimateCalls inputs config).map AddCall.antennaId = [0, 1, 0, 1] ∧
      c.snapshots calls 17 = 2 := by
  decide +kernel

end RunOran
