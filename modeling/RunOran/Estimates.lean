import RunOran.EndToEnd
import RunOran.Estimator

/-!
# From estimates to snapshots

The estimator tells the collector neither where an estimate begins nor where it ends, and the
indications do not say which estimate a snapshot stands for. Which snapshots arrive is
nevertheless decided by one thing: a pass of a UE is returned exactly if a collection falls
between its last addition and the UE's next one, and then once (`returned_passes`). With one
transmit port a pass is an estimate (`Estimate.IsPass.passOf_flatMap`), so behind a drained
service the snapshots of the xApp are estimates, each at most once and each UE's in order, and
those that are left out are the ones that no collection has met (`estimates_delivered`).
-/

namespace RunOran

/-! ## Which passes are returned -/

/-- A collection falls after the last addition of the `k`-th pass of `r` and before the UE's
next addition. -/
def Met (n : Nat) (ops : List CollectorOp) (r : UInt32) (k : Nat) : Prop :=
  ∃ before after, ops = before ++ .getAllCompleteUeData :: after ∧
    (addsOf r before).length = (k + 1) * n

theorem Met.append {n : Nat} {ops : List CollectorOp} {r : UInt32} {k : Nat}
    (h : Met n ops r k) (more : List CollectorOp) : Met n (ops ++ more) r k := by
  obtain ⟨before, after, rfl, hlen⟩ := h
  exact ⟨before, after ++ more, by simp, hlen⟩

theorem Met.concat_iff {n : Nat} {ops : List CollectorOp} {op : CollectorOp} {r : UInt32}
    {k : Nat} : Met n (ops ++ [op]) r k ↔
      Met n ops r k ∨ op = .getAllCompleteUeData ∧ (addsOf r ops).length = (k + 1) * n := by
  refine ⟨?_, ?_⟩
  · rintro ⟨before, after, heq, hlen⟩
    rcases List.eq_nil_or_concat after with rfl | ⟨after, op', rfl⟩
    · obtain ⟨rfl, hop⟩ := List.append_inj' heq rfl
      exact Or.inr ⟨(List.cons.inj hop).1, hlen⟩
    · rw [List.concat_eq_append, ← List.cons_append, ← List.append_assoc] at heq
      obtain ⟨rfl, -⟩ := List.append_inj' heq rfl
      exact Or.inl ⟨before, after, rfl, hlen⟩
  · rintro (h | ⟨rfl, hlen⟩)
    · exact h.append [op]
    · exact ⟨ops, [], rfl, hlen⟩

/-- A pass that was met is a whole one. -/
theorem Met.le_length {n : Nat} {ops : List CollectorOp} {r : UInt32} {k : Nat}
    (h : Met n ops r k) : (k + 1) * n ≤ (addsOf r ops).length := by
  obtain ⟨before, after, rfl, hlen⟩ := h
  rw [addsOf_append, List.length_append, hlen]
  exact Nat.le_add_right _ _

/-- The last addition of a UE, if it has one. -/
theorem exists_last_addition {r : UInt32} {ops : List CollectorOp} :
    addsOf r ops ≠ [] → ∃ before call mid, ops = before ++ .addSrsData call :: mid ∧
      call.rnti = r ∧ addsOf r mid = [] := by
  induction ops using List.reverseRecOn with
  | nil => exact fun h => absurd (addsOf_nil r) h
  | append_singleton ops op ih =>
    intro hne
    cases hadd : addsOf r [op] with
    | nil =>
      rw [addsOf_append, hadd, List.append_nil] at hne
      obtain ⟨before, call, mid, rfl, hr, hmid⟩ := ih hne
      refine ⟨before, call, mid ++ [op], by simp, hr, ?_⟩
      rw [addsOf_append, hmid, hadd, List.append_nil]
    | cons call adds =>
      obtain ⟨hmem, hr⟩ := mem_addsOf.mp (hadd ▸ List.mem_cons_self : call ∈ addsOf r [op])
      obtain rfl := List.mem_singleton.mp hmem
      exact ⟨ops, call, [], rfl, hr, rfl⟩

/-- An entry in step is at a boundary when the additions are whole passes. -/
theorem InStep.atBoundary {n : Nat} (hn : 1 ≤ n) {r : UInt32} {calls : List AddCall}
    {e : Option UeSrsData} (h : InStep n r none calls e) {k : Nat}
    (hlen : calls.length = (k + 1) * n) : AtBoundary n e := by
  intro ue hue
  rcases h with ⟨-, rfl⟩ | ⟨k', hlow, hhigh, ⟨-, rfl⟩ | ⟨hlt, rfl⟩⟩
  · cases hue
  · cases hue
  · obtain rfl := Option.some.inj hue
    rw [hlen] at hlt hhigh
    have h₁ := Nat.lt_of_mul_lt_mul_right hlt
    have h₂ := Nat.le_of_mul_le_mul_right hhigh hn
    obtain rfl : k' = k := by omega
    rw [isFull_passRecord, List.length_drop, hlen, decide_eq_true_eq, Nat.add_mul]
    omega

section Fresh

variable {config : GnbSrsConfig} (hn : 1 ≤ config.numRxAntennas.toNat)

include hn

/-- A pass that was met is gone until the UE's next addition. -/
theorem entry_of_met {ops : List CollectorOp} {r : UInt32} {k : Nat}
    (hops : ∀ op ∈ ops, op.IsReporting)
    (hpasses : DistinctPasses config.numRxAntennas.toNat (addsOf r ops))
    (hmet : Met config.numRxAntennas.toNat ops r k)
    (hlen : (addsOf r ops).length = (k + 1) * config.numRxAntennas.toNat) :
    ((SrsDataCollector.init config).run ops).entry r = none := by
  obtain ⟨before, after, rfl, hbefore⟩ := hmet
  rw [addsOf_append] at hpasses
  have hboundary := (inStep_run_init hn (fun op hop => hops op (List.mem_append_left _ hop))
    hpasses.of_append).atBoundary hn hbefore
  -- the collection leaves nothing, and nothing is added afterwards
  have hgone : ((SrsDataCollector.init config).run
      (before ++ [.getAllCompleteUeData])).entry r = none := by
    rw [SrsDataCollector.entry_run_concat]
    exact filter_of_atBoundary hboundary
  have hafter : addsOf r after = [] := by
    rw [addsOf_append, List.length_append, hbefore] at hlen
    exact List.length_eq_zero_iff.mp (Nat.left_eq_add.mp hlen.symm)
  have hstill := entry_run_of_none hgone hafter
  rwa [SrsDataCollector.run, ← Mealy.exec_append, List.append_assoc, List.singleton_append]
    at hstill

/-- A pass that is over and that no collection has met yet is the next one to be returned. -/
theorem mem_of_not_met {ops : List CollectorOp} {r : UInt32} {k : Nat}
    (hops : ∀ op ∈ ops, op.IsReporting)
    (hpasses : DistinctPasses config.numRxAntennas.toNat (addsOf r ops))
    (hnot : ¬ Met config.numRxAntennas.toNat ops r k)
    (hlen : (addsOf r ops).length = (k + 1) * config.numRxAntennas.toNat) :
    passRecord r (passOf config.numRxAntennas.toNat k (addsOf r ops)) ∈
      ((SrsDataCollector.init config).run ops).getAllCompleteUeData.1 := by
  have hne : addsOf r ops ≠ [] := by
    intro hnil
    rw [hnil, List.length_nil, Nat.add_mul] at hlen
    omega
  obtain ⟨before, call, mid, rfl, rfl, hmid⟩ := exists_last_addition hne
  have hend : (addsOf call.rnti (before ++ [.addSrsData call])).length =
      (k + 1) * config.numRxAntennas.toNat := by
    rw [← hlen, List.append_cons before _ mid, addsOf_append _ _ mid, hmid, List.append_nil]
  have hquiet : .getAllCompleteUeData ∉ mid := by
    intro hmem
    obtain ⟨quiet, rest, rfl⟩ := List.append_of_mem hmem
    rw [addsOf_append, List.append_eq_nil_iff] at hmid
    refine hnot ⟨before ++ .addSrsData call :: quiet, rest, by simp, ?_⟩
    rw [← hend, List.append_cons before _ quiet, addsOf_append _ _ quiet, hmid.1,
      List.append_nil]
  have hpasses' : DistinctPasses config.numRxAntennas.toNat
      (addsOf call.rnti (before ++ .addSrsData call :: mid ++ [])) := by
    rwa [List.append_nil]
  have hwaits := completed_waits hn hops hpasses' hend hmid hquiet
  rwa [List.append_nil] at hwaits

/-- What the next collection returns: the passes that are over and were not met. -/
theorem collected_passes {ops : List CollectorOp} (hops : ∀ op ∈ ops, op.IsReporting)
    (hpasses : ∀ r, DistinctPasses config.numRxAntennas.toNat (addsOf r ops)) :
    ∃ taken : List (UInt32 × Nat),
      ((SrsDataCollector.init config).run ops).getAllCompleteUeData.1 = taken.map (fun p =>
        passRecord p.1 (passOf config.numRxAntennas.toNat p.2 (addsOf p.1 ops))) ∧
      (taken.map Prod.fst).Nodup ∧
      ∀ r k, (r, k) ∈ taken ↔ ¬ Met config.numRxAntennas.toNat ops r k ∧
        (addsOf r ops).length = (k + 1) * config.numRxAntennas.toNat := by
  have hc := (SrsDataCollector.wellFormed_init config).run ops
  -- the pass of a record is read off the number of additions
  have hrecord : ∀ ue ∈ ((SrsDataCollector.init config).run ops).getAllCompleteUeData.1,
      (addsOf ue.rnti ops).length =
        ((addsOf ue.rnti ops).length / config.numRxAntennas.toNat - 1 + 1) *
          config.numRxAntennas.toNat ∧
      passRecord ue.rnti (passOf config.numRxAntennas.toNat
        ((addsOf ue.rnti ops).length / config.numRxAntennas.toNat - 1) (addsOf ue.rnti ops)) =
          ue := by
    intro ue hue
    obtain ⟨k, hlen, -, hpass⟩ := @returned_eq_passRecord config hn ops [] ue hops
      (by rw [List.append_nil]; exact hpasses ue.rnti) hue
    have hk : (addsOf ue.rnti ops).length / config.numRxAntennas.toNat - 1 = k := by
      rw [hlen, Nat.mul_div_cancel _ hn, Nat.add_sub_cancel]
    rw [List.append_nil] at hpass
    rw [hk]
    exact ⟨hlen, hpass.symm⟩
  refine ⟨((SrsDataCollector.init config).run ops).getAllCompleteUeData.1.map fun ue =>
    (ue.rnti, (addsOf ue.rnti ops).length / config.numRxAntennas.toNat - 1), ?_, ?_, ?_⟩
  · rw [List.map_map]
    refine Eq.trans (List.map_id _).symm (List.map_congr_left fun ue hue => ?_)
    exact (hrecord ue hue).2.symm
  · rw [List.map_map]
    exact hc.nodup_rntis
  · intro r k
    rw [List.mem_map]
    refine ⟨?_, ?_⟩
    · rintro ⟨ue, hue, hp⟩
      obtain ⟨rfl, rfl⟩ := Prod.mk.inj hp
      refine ⟨fun hmet => ?_, (hrecord ue hue).1⟩
      have hnone := entry_of_met hn hops (hpasses ue.rnti) hmet (hrecord ue hue).1
      rw [(entry_of_mem_getAllCompleteUeData hue).1] at hnone
      cases hnone
    · rintro ⟨hnot, hlen⟩
      refine ⟨_, mem_of_not_met hn hops (hpasses r) hnot hlen, ?_⟩
      show (r, (addsOf r ops).length / config.numRxAntennas.toNat - 1) = (r, k)
      rw [hlen, Nat.mul_div_cancel _ hn, Nat.add_sub_cancel]

/-- **Which passes the collections of a run return.** Each pass that was met is returned, once,
and nothing else; and the passes of a UE are returned in order. -/
theorem returned_passes {ops : List CollectorOp} :
    (∀ op ∈ ops, op.IsReporting) →
      (∀ r, DistinctPasses config.numRxAntennas.toNat (addsOf r ops)) →
      ∃ taken : List (UInt32 × Nat),
        (SrsDataCollector.init config).returned ops = taken.map (fun p =>
          passRecord p.1 (passOf config.numRxAntennas.toNat p.2 (addsOf p.1 ops))) ∧
        taken.Pairwise (fun p q => p.1 = q.1 → p.2 < q.2) ∧
        ∀ r k, (r, k) ∈ taken ↔ Met config.numRxAntennas.toNat ops r k := by
  induction ops using List.reverseRecOn with
  | nil =>
    intro _ _
    refine ⟨[], rfl, List.Pairwise.nil, fun r k => ⟨fun h => (List.not_mem_nil h).elim, ?_⟩⟩
    rintro ⟨before, after, heq, -⟩
    cases (List.append_eq_nil_iff.mp heq.symm).2
  | append_singleton ops op ih =>
    intro hops hpasses
    have hops' := fun op' hop' => hops op' (List.mem_append_left _ hop')
    have hpasses' := fun r => (addsOf_append r ops [op] ▸ hpasses r).of_append
    obtain ⟨taken, hreturned, hpairwise, hmet⟩ := ih hops' hpasses'
    -- the passes that were returned stay what they are
    have hstable : (SrsDataCollector.init config).returned ops = taken.map (fun p =>
        passRecord p.1 (passOf config.numRxAntennas.toNat p.2 (addsOf p.1 (ops ++ [op])))) := by
      rw [hreturned]
      apply List.map_congr_left
      intro p hp
      rw [addsOf_append, passOf_append ((hmet p.1 p.2).mp hp).le_length]
    rw [SrsDataCollector.returned_concat, hstable]
    by_cases hop : op = .getAllCompleteUeData
    · subst hop
      obtain ⟨newly, hnewly, hnodup, hmem⟩ := collected_passes hn hops' hpasses'
      have hsame : ∀ r, addsOf r (ops ++ [.getAllCompleteUeData]) = addsOf r ops := by
        intro r
        rw [addsOf_append]
        exact List.append_nil _
      refine ⟨taken ++ newly, ?_, ?_, fun r k => ?_⟩
      · simp only [hsame, List.map_append, ← hnewly]
        rfl
      · rw [List.pairwise_append]
        refine ⟨hpairwise, (List.pairwise_map.mp hnodup).imp fun hne heq => (hne heq).elim, ?_⟩
        rintro ⟨r, k⟩ hp ⟨r', k'⟩ hq (rfl : r = r')
        obtain ⟨hnot, hlen⟩ := (hmem r k').mp hq
        have hle := ((hmet r k).mp hp).le_length
        rw [hlen] at hle
        -- an earlier pass, since this one was met
        refine Nat.lt_of_le_of_ne (Nat.le_of_succ_le_succ (Nat.le_of_mul_le_mul_right hle hn)) ?_
        rintro rfl
        exact hnot ((hmet r k).mp hp)
      · rw [List.mem_append, hmet, hmem, Met.concat_iff]
        by_cases h : Met config.numRxAntennas.toNat ops r k <;> simp [h]
    · have hnone : (((SrsDataCollector.init config).run ops).step op).2.records = [] := by
        have hreporting := hops op (by simp)
        cases op with
        | getAllCompleteUeData => exact absurd rfl hop
        | getAndClearUeData rnti => exact hreporting.elim
        | _ => rfl
      refine ⟨taken, by rw [hnone, List.append_nil], hpairwise, fun r k => ?_⟩
      rw [hmet, Met.concat_iff, or_iff_left (fun h => hop h.1)]

end Fresh

/-! ## Estimates as passes -/

/-- One call of `estimate`. -/
structure Estimate where
  inputs : EstimatorInputs
  config : SrsEstimatorConfiguration

namespace Estimate

/-- Its additions. -/
def calls (e : Estimate) : List AddCall := estimateCalls e.inputs e.config

/-- The additions of the estimate are one pass of the UE: it has a context, one transmit port, a
symbol, and `n` receive ports. -/
structure IsPass (n : Nat) (r : UInt32) (e : Estimate) : Prop where
  context : e.config.context = some r
  onePort : e.config.nofAntennaPorts = 1
  symbols : 0 < e.config.nofSymbols
  nodup : e.config.ports.Nodup
  length : e.config.ports.length = n

/-- What the xApp is to make of the estimate: for each receive port the samples of the sequence
and of the resource grid, under the time of the last addition. -/
def snapshot (r : UInt32) (e : Estimate) : Snapshot := (passRecord r e.calls).delivered

namespace IsPass

variable {n : Nat} {r : UInt32} {e : Estimate} (h : e.IsPass n r)

include h

theorem antennaIds_calls : e.calls.map AddCall.antennaId = e.config.ports := by
  rw [calls, antennaIds_estimateCalls h.context h.symbols, h.onePort]
  exact List.append_nil e.config.ports

theorem length_calls : e.calls.length = n := by
  rw [← h.length, ← h.antennaIds_calls, List.length_map]

/-- All of them carry the sequence of the only transmit port. -/
theorem generatedSrs_of_mem {call : AddCall} (hcall : call ∈ e.calls) :
    call.generatedSrs = e.inputs.sequence 0 := by
  rw [calls, estimateCalls, h.onePort, List.range_one, List.flatMap_cons, List.flatMap_nil,
    List.append_nil, portLoop_eq h.context h.symbols, List.mem_map] at hcall
  obtain ⟨port, -, rfl⟩ := hcall
  rfl

end IsPass

/-- **The passes of a UE are its estimates.** -/
theorem passOf_flatMap {n : Nat} {es : List Estimate} :
    ∀ {k : Nat}, (∀ e ∈ es, e.calls.length = n) →
      passOf n k (es.flatMap calls) = (es[k]?.map calls).getD [] := by
  induction es with
  | nil =>
    intro k _
    simp [passOf]
  | cons e es ih =>
    intro k hlen
    have he := hlen e List.mem_cons_self
    cases k with
    | zero =>
      rw [passOf, Nat.zero_mul, List.drop_zero, List.flatMap_cons, ← he, List.take_left]
      rfl
    | succ k =>
      have hrest := ih (fun e' he' => hlen e' (List.mem_cons_of_mem _ he')) (k := k)
      rw [passOf] at hrest
      rw [passOf, Nat.add_mul, Nat.one_mul, Nat.add_comm, ← List.drop_drop, List.flatMap_cons,
        ← he, List.drop_left, he, hrest]
      rfl

/-- So in a run that has come to some point in the estimates of the UE the passes are distinct. -/
theorem distinctPasses {n : Nat} {r : UInt32} {es : List Estimate} {calls' : List AddCall}
    (hes : ∀ e ∈ es, e.IsPass n r) (hcalls : calls' <+: es.flatMap calls) :
    DistinctPasses n calls' := by
  obtain ⟨more, hmore⟩ := hcalls
  refine @DistinctPasses.of_append n calls' more fun k => ?_
  rw [hmore, passOf_flatMap (fun e he => (hes e he).length_calls)]
  cases hk : es[k]? with
  | none => exact List.nodup_nil
  | some e =>
    have he := hes e (List.mem_of_getElem? hk)
    show (e.calls.map AddCall.antennaId).Nodup
    rw [he.antennaIds_calls]
    exact he.nodup

/-- A whole pass of such a run is the record of an estimate. -/
theorem passRecord_of_prefix {n : Nat} {r : UInt32} {es : List Estimate} {calls' : List AddCall}
    (hes : ∀ e ∈ es, e.IsPass n r) (hcalls : calls' <+: es.flatMap calls) (hn : 1 ≤ n) {k : Nat}
    (hk : (k + 1) * n ≤ calls'.length) :
    some (passRecord r (passOf n k calls')).delivered = es[k]?.map (snapshot r) := by
  obtain ⟨more, hmore⟩ := hcalls
  have hpass := passOf_append hk more
  rw [hmore, passOf_flatMap (fun e he => (hes e he).length_calls)] at hpass
  have hlen := length_passOf hk
  rw [← hpass] at hlen ⊢
  cases hes' : es[k]? with
  | none =>
    rw [hes'] at hlen
    exact absurd hlen.symm (Nat.ne_of_gt hn)
  | some e => rfl

end Estimate

/-! ## From the estimates to the xApp -/

/-- The records of a run are those that its collections return. -/
theorem Du.records_eq_returned (events : List DuEvent) :
    ∀ d : Du, d.records events = d.collector.returned (events.flatMap DuEvent.collectorOps) := by
  induction events with
  | nil => exact fun _ => rfl
  | cons event events ih =>
    intro d
    have hcollector : (d.step event).1.collector = d.collector.run event.collectorOps := by
      cases event <;> rfl
    have hrecords : (d.step event).2.records = d.collector.returned event.collectorOps := by
      cases event with
      | collectMeasurements => exact (List.append_nil _).symm
      | _ => rfl
    rw [Du.records_cons, ih, hcollector, hrecords, List.flatMap_cons]
    exact (Mealy.observe_append ..).symm

theorem isReporting_of_mem_collectorOps {events : List DuEvent} {op : CollectorOp}
    (hop : op ∈ events.flatMap DuEvent.collectorOps) : op.IsReporting := by
  obtain ⟨event, -, hmem⟩ := List.mem_flatMap.mp hop
  cases event with
  | getIndicationMessage appendOk => cases hmem
  | _ => rw [List.mem_singleton.mp hmem]; trivial

/-- **The snapshots are estimates.** Let the estimates of each UE follow one another, of one
transmit port and with one sequence, those of different UEs interleave, and the collections and
indications fall anywhere. If no append fails and each stream fits, then once the service is
drained, the snapshots of the xApp are those of the estimates that a collection has met, each of
them once, and each UE's in the order in which they were made; and nothing waits. -/
theorem estimates_delivered (config : GnbSrsConfig) (hn : 1 ≤ config.numRxAntennas.toNat)
    (estimates : UInt32 → List Estimate) (sequence : UInt32 → List Cf) (events : List DuEvent)
    (hpass : ∀ r, ∀ e ∈ estimates r, e.IsPass config.numRxAntennas.toNat r)
    (hsequence : ∀ r, ∀ e ∈ estimates r, e.inputs.sequence 0 = sequence r)
    (hadds : ∀ r, addsOf r (events.flatMap DuEvent.collectorOps) <+:
      (estimates r).flatMap Estimate.calls)
    (hok : AllAppendsSucceed events)
    (hfits : ∀ item ∈ SrsReportService.recordsItems ∅ ((Du.init config).records events),
      (encodeSrsIndication [item]).length < 2 ^ 31)
    (hdrained : ((Du.init config).run events).service.isIndMsgReady = false) :
    let x := (SimpleRunOranXapp.init config.numRxAntennas.toNat).onMessages
      ((Du.init config).messages events)
    ∃ taken : List (UInt32 × Nat),
      x.completedSrsMessages.map some =
        taken.map (fun p => (estimates p.1)[p.2]?.map (Estimate.snapshot p.1)) ∧
      taken.Pairwise (fun p q => p.1 = q.1 → p.2 < q.2) ∧
      (∀ r k, (r, k) ∈ taken ↔
        Met config.numRxAntennas.toNat (events.flatMap DuEvent.collectorOps) r k) ∧
      x.pendingReceivedSrs = ∅ := by
  intro x
  have hrefs : ConstantReferences events := by
    have hone : ∀ call ∈ additions events, call.generatedSrs = sequence call.rnti := by
      intro call hcall
      have hmem := mem_addsOf.mpr ⟨addSrsData_mem_collectorOps.mpr hcall, rfl⟩
      obtain ⟨e, he, hcall'⟩ := List.mem_flatMap.mp ((hadds call.rnti).subset hmem)
      rw [(hpass call.rnti e he).generatedSrs_of_mem hcall', hsequence call.rnti e he]
    intro call hcall call' hcall' hr _
    rw [hone call hcall, hone call' hcall', hr]
  obtain ⟨hpending, hcompleted⟩ := onMessages_of_drained hn hok hrefs hfits hdrained
  obtain ⟨taken, hreturned, hpairwise, hmet⟩ := returned_passes hn
    (fun _ => isReporting_of_mem_collectorOps)
    (fun r => Estimate.distinctPasses (hpass r) (hadds r))
  refine ⟨taken, ?_, hpairwise, hmet, hpending⟩
  have hrecords : (Du.init config).records events = _ :=
    (Du.records_eq_returned events (Du.init config)).trans hreturned
  rw [hcompleted, hrecords, List.map_map, List.map_map]
  apply List.map_congr_left
  intro p hp
  exact Estimate.passRecord_of_prefix (hpass p.1) (hadds p.1) hn ((hmet p.1 p.2).mp hp).le_length

/-- Two receive ports and two UEs. UE 17 has three estimates, of which the second is not met by a
collection. -/
theorem estimates_delivered_two_ues :
    let config : GnbSrsConfig := ⟨2, 0, 0, ⟨0⟩, ⟨0⟩, ⟨0⟩⟩
    let estimate := fun (r : UInt32) (us : UInt64) => (⟨⟨fun _ => [], fun _ _ _ => [],
      fun _ port => us + UInt64.ofNat port⟩, ⟨some r, [1, 0], 1, 13, 1⟩⟩ : Estimate)
    let estimates := fun r => if r = 17 then [estimate 17 1000, estimate 17 2000, estimate 17 3000]
      else if r = 18 then [estimate 18 5000] else []
    let events := [DuEvent.addSrsData ⟨17, 1, [], [], 1000⟩, .addSrsData ⟨18, 1, [], [], 5000⟩,
      .addSrsData ⟨17, 0, [], [], 1001⟩, .collectMeasurements, .addSrsData ⟨18, 0, [], [], 5001⟩,
      .addSrsData ⟨17, 1, [], [], 2000⟩, .addSrsData ⟨17, 0, [], [], 2001⟩,
      .addSrsData ⟨17, 1, [], [], 3000⟩, .addSrsData ⟨17, 0, [], [], 3001⟩, .collectMeasurements,
      .getIndicationMessage true, .getIndicationMessage true, .getIndicationMessage true,
      .getIndicationMessage true, .getIndicationMessage true, .getIndicationMessage true]
    let x := (SimpleRunOranXapp.init config.numRxAntennas.toNat).onMessages
      ((Du.init config).messages events)
    ∃ taken : List (UInt32 × Nat), x.completedSrsMessages.map some =
        taken.map (fun p => (estimates p.1)[p.2]?.map (Estimate.snapshot p.1)) ∧
      taken.Pairwise (fun p q => p.1 = q.1 → p.2 < q.2) ∧
      (∀ r k, (r, k) ∈ taken ↔ Met 2 (events.flatMap DuEvent.collectorOps) r k) ∧
      x.pendingReceivedSrs = ∅ := by
  intro config estimate estimates events x
  have hall : ∀ r, (∀ e ∈ estimates r, e.IsPass 2 r ∧ e.inputs.sequence 0 = []) ∧
      addsOf r (events.flatMap DuEvent.collectorOps) <+: (estimates r).flatMap Estimate.calls := by
    intro r
    by_cases h17 : r = 17
    · subst h17
      refine ⟨fun e he => ?_, by decide +kernel⟩
      rcases he with _ | ⟨_, _ | ⟨_, _ | ⟨_, _ | _⟩⟩⟩ <;>
        exact ⟨⟨rfl, rfl, by decide, by decide, rfl⟩, rfl⟩
    · by_cases h18 : r = 18
      · subst h18
        refine ⟨fun e he => ?_, by decide +kernel⟩
        rcases he with _ | ⟨_, _ | _⟩
        exact ⟨⟨rfl, rfl, by decide, by decide, rfl⟩, rfl⟩
      · have hnone : addsOf r (events.flatMap DuEvent.collectorOps) = [] := by
          simp [addsOf, events, DuEvent.collectorOps, Ne.symm h17, Ne.symm h18]
        rw [hnone]
        refine ⟨fun e he => ?_, List.nil_prefix⟩
        simp only [estimates, h17, h18, if_false] at he
        cases he
  exact estimates_delivered config (by decide) estimates (fun _ => []) events
    (fun r e he => ((hall r).1 e he).1) (fun r e he => ((hall r).1 e he).2)
    (fun r => (hall r).2) (by decide) (by decide +kernel) (by decide +kernel)

end RunOran
