import RunOran.MessageHandler
import RunOran.TimingAdvance

/-!
# Appends that fail

Three functions end in a `byte_buffer::append` and return an empty buffer when the buffer
pool cannot serve it. The timing-advance service clears its records after the append, so a
failure leaves it as it was. The SRS service has taken the batch off its queue by then, and
the message handler has taken the entries out of the collector: what they were about to
send is gone, and where it was a reference it stays gone, since its key counts as sent.

`failed_append_iff` says when a failure does no harm: when there was nothing to send. Runs
whose failures are all of that kind are the runs without them.
-/

namespace RunOran

open Protobuf

/-! ## The three senders -/

/-- What the DU reports from: the collector, the SRS service on it, and the
timing-advance service with the store it drains. -/
structure DuReporting where
  collector : SrsDataCollector
  srs : SrsReportService
  ta : TaReporting

/-- The functions that end in an append. -/
inductive Sender where
  | taIndication
  | srsIndication
  | createSrsIndication
  deriving DecidableEq

/-- A call. -/
inductive ReportingCall where
  | addSrsData (call : AddCall)
  | pushTaIndication (record : TaIndicationRecord)
  | collectSrs
  | collectTa
  | send (sender : Sender) (appendOk : Bool)
  deriving DecidableEq

/-- A call whose append fails. -/
def ReportingCall.isFailure : ReportingCall → Bool
  | .send _ appendOk => !appendOk
  | _ => false

namespace DuReporting

def init (config : GnbSrsConfig) : DuReporting :=
  ⟨SrsDataCollector.init config, SrsReportService.init, TaReporting.init⟩

/-- A call of one of the senders: the buffer it returns, and what it leaves. -/
def send (s : DuReporting) (sender : Sender) (appendOk : Bool) : Bytes × DuReporting :=
  match sender with
  | .taIndication =>
    let sent := s.ta.service.getIndicationMessage appendOk
    (sent.1, { s with ta := { s.ta with service := sent.2 } })
  | .srsIndication =>
    let sent := s.srs.getIndicationMessage appendOk
    (sent.1, { s with srs := sent.2 })
  | .createSrsIndication =>
    let sent := RunOran.createSrsIndication s.collector appendOk
    (sent.1, { s with collector := sent.2 })

/-- One call, and the buffer it returns. -/
def step (s : DuReporting) : ReportingCall → DuReporting × Bytes
  | .addSrsData call => ({ s with collector := s.collector.addSrsData call }, [])
  | .pushTaIndication record => ({ s with ta := (s.ta.step (.pushTaIndication record)).1 }, [])
  | .collectSrs =>
    let collected := s.srs.collectMeasurements s.collector
    ({ s with srs := collected.2.1, collector := collected.2.2 }, [])
  | .collectTa => ({ s with ta := (s.ta.step .collectMeasurements).1 }, [])
  | .send sender appendOk => ((s.send sender appendOk).2, (s.send sender appendOk).1)

/-- The state after a sequence of calls. -/
abbrev run (config : GnbSrsConfig) (calls : List ReportingCall) : DuReporting :=
  Mealy.exec step (init config) calls

/-- The messages that a sequence of calls sent: the buffers that were not empty. -/
def sent (config : GnbSrsConfig) (calls : List ReportingCall) : List Bytes :=
  Mealy.observe step (fun _ buffer => if buffer = [] then [] else [buffer]) (init config) calls

/-- After a failed append, the same call with the append succeeding does what it would
have done in the first place: it returns that message and leaves that state. -/
def LosesNothing (s : DuReporting) (sender : Sender) : Prop :=
  (s.send sender false).2.send sender true = s.send sender true

/-- Nothing that a failure could lose: the timing-advance service never loses its records,
the SRS service has nothing queued, no entry of the collector is complete. -/
def NothingAtRisk (s : DuReporting) : Sender → Prop
  | .taIndication => True
  | .srsIndication => s.srs.isIndMsgReady = false
  | .createSrsIndication => ∀ rnti, s.collector.isComplete rnti = false

/-! ## One failure -/

theorem wellFormed_run (config : GnbSrsConfig) (calls : List ReportingCall) :
    (run config calls).collector.WellFormed := by
  apply Mealy.exec_invariant (fun s : DuReporting => s.collector.WellFormed)
    (SrsDataCollector.wellFormed_init config)
  intro s call hs
  cases call with
  | addSrsData add => exact hs.addSrsData add
  | collectSrs => exact hs.step .getAllCompleteUeData
  | send sender appendOk =>
    cases sender with
    | createSrsIndication =>
      simp only [step, send, createSrsIndication]
      split <;> exact hs.step .getAllCompleteUeData
    | _ => exact hs
  | _ => exact hs

/-- A failure with nothing at risk changes nothing, and returns nothing. -/
theorem send_false_of_nothingAtRisk {s : DuReporting} {sender : Sender}
    (h : s.NothingAtRisk sender) : s.send sender false = ([], s) := by
  cases sender with
  | taIndication => rfl
  | srsIndication =>
    have hempty : s.srs.pendingItems = [] := by
      simpa [NothingAtRisk, SrsReportService.isIndMsgReady] using h
    simp [send, SrsReportService.getIndicationMessage, hempty]
  | createSrsIndication =>
    simp [send, createSrsIndication, SrsDataCollector.getAllCompleteUeData_of_none h]

/-- A batch that is lost stays lost: the queue is shorter than it would be, unless it is
empty, and then so is the message. -/
theorem isIndMsgReady_of_losesNothing {s : DuReporting} (h : s.LosesNothing .srsIndication) :
    s.srs.isIndMsgReady = false := by
  simp only [LosesNothing, send, SrsReportService.getIndicationMessage_eq, if_pos,
    Prod.mk.injEq, DuReporting.mk.injEq, SrsReportService.mk.injEq, true_and, and_true] at h
  obtain ⟨hmessage, hqueue⟩ := h
  by_contra hready
  have hne : s.srs.pendingItems ≠ [] := by
    simpa [SrsReportService.isIndMsgReady] using hready
  have hsent := serializeSrsIndication_ne_nil (SrsReportService.nextBatch_ne_nil hne)
  by_cases hrest : (SrsReportService.nextBatch s.srs.pendingItems).2 = []
  · rw [hrest] at hmessage
    exact hsent hmessage.symm
  · have hsplit := congrArg List.length
      (SrsReportService.nextBatch_append (SrsReportService.nextBatch s.srs.pendingItems).2)
    have hpos := List.length_pos_of_ne_nil (SrsReportService.nextBatch_ne_nil hrest)
    rw [List.length_append, hqueue] at hsplit
    omega

/-- Entries that are lost are not reported by the next call. -/
theorem isComplete_of_losesNothing {s : DuReporting} (hs : s.collector.WellFormed)
    (h : s.LosesNothing .createSrsIndication) (rnti : UInt32) :
    s.collector.isComplete rnti = false := by
  by_contra hcomplete
  rw [Bool.not_eq_false] at hcomplete
  obtain ⟨ue, hue, hentry⟩ := SrsDataCollector.exists_mem_of_isComplete hcomplete
  have hne : s.collector.getAllCompleteUeData.1 ≠ [] := List.ne_nil_of_mem hue
  have hitems : s.collector.getAllCompleteUeData.1.flatMap UeSrsData.streamItems ≠ [] := by
    obtain ⟨antenna, hantenna⟩ := List.exists_mem_of_ne_nil _ (hs rnti ue hentry).ne_nil
    apply List.ne_nil_of_mem (a := ue.generatedItem antenna)
    exact List.mem_flatMap.mpr ⟨ue, hue, List.mem_flatMap.mpr ⟨antenna, hantenna, by simp⟩⟩
  have hagain := SrsDataCollector.getAllCompleteUeData_of_none
    s.collector.isComplete_getAllCompleteUeData
  have hmessage := congrArg Prod.fst h
  simp only [send, createSrsIndication, if_neg hne, hagain, if_pos] at hmessage
  exact serializeSrsIndication_ne_nil hitems hmessage.symm

/-- **In every reachable state a failed append loses nothing if and only if nothing was at
risk.** -/
theorem losesNothing_iff (config : GnbSrsConfig) (calls : List ReportingCall) (sender : Sender) :
    (run config calls).LosesNothing sender ↔ (run config calls).NothingAtRisk sender := by
  refine ⟨?_, ?_⟩
  · intro h
    cases sender with
    | taIndication => trivial
    | srsIndication => exact isIndMsgReady_of_losesNothing h
    | createSrsIndication => exact isComplete_of_losesNothing (wellFormed_run config calls) h
  · intro h
    rw [LosesNothing, send_false_of_nothingAtRisk h]

/-! ## Runs -/

/-- Every failed append of a run finds nothing at risk. -/
def FailuresHarmless (config : GnbSrsConfig) (calls : List ReportingCall) : Prop :=
  ∀ before sender after, calls = before ++ .send sender false :: after →
    (run config before).NothingAtRisk sender

theorem run_concat (config : GnbSrsConfig) (calls : List ReportingCall) (call : ReportingCall) :
    run config (calls ++ [call]) = ((run config calls).step call).1 := Mealy.exec_concat ..

theorem sent_concat (config : GnbSrsConfig) (calls : List ReportingCall) (call : ReportingCall) :
    sent config (calls ++ [call]) = sent config calls ++
      if ((run config calls).step call).2 = [] then [] else [((run config calls).step call).2] :=
  Mealy.observe_concat ..

/-- A run whose failures are harmless is the run without them. -/
theorem run_filter_isFailure {config : GnbSrsConfig} {calls : List ReportingCall} :
    FailuresHarmless config calls →
      run config (calls.filter fun call => !call.isFailure) = run config calls ∧
        sent config (calls.filter fun call => !call.isFailure) = sent config calls := by
  induction calls using List.reverseRecOn with
  | nil => exact fun _ => ⟨rfl, rfl⟩
  | append_singleton calls call ih =>
    intro h
    have hcalls : FailuresHarmless config calls := by
      intro before sender after heq
      apply h before sender (after ++ [call])
      rw [heq, List.append_assoc, List.cons_append]
    obtain ⟨hrun, hsent⟩ := ih hcalls
    rw [List.filter_append, run_concat, sent_concat]
    cases hcall : call.isFailure with
    | false =>
      rw [List.filter_cons_of_pos (by rw [hcall]; rfl), List.filter_nil, run_concat, sent_concat,
        hrun, hsent]
      exact ⟨rfl, rfl⟩
    | true =>
      obtain ⟨sender, rfl⟩ : ∃ sender, call = .send sender false := by
        cases call with
        | send sender appendOk =>
          cases appendOk with
          | false => exact ⟨sender, rfl⟩
          | true => cases hcall
        | _ => cases hcall
      have hstep := send_false_of_nothingAtRisk (h calls sender [] rfl)
      rw [List.filter_cons_of_neg (by rw [hcall]; exact Bool.false_ne_true), List.filter_nil,
        List.append_nil, hrun, hsent]
      simp only [step, hstep, if_pos, List.append_nil, and_self]

/-- **A failed append loses nothing, in any reachable state, if and only if its sender had
nothing at risk.** In a run whose failures are all of that kind, every message is sent that
would have been sent without them, references included. -/
theorem failed_append_iff (config : GnbSrsConfig) (calls : List ReportingCall) :
    (∀ sender, (run config calls).LosesNothing sender ↔
        (run config calls).NothingAtRisk sender) ∧
      (FailuresHarmless config calls →
        run config (calls.filter fun call => !call.isFailure) = run config calls ∧
          sent config (calls.filter fun call => !call.isFailure) = sent config calls) :=
  ⟨losesNothing_iff config calls, run_filter_isFailure⟩

/-- One receive antenna, so that every addition completes a snapshot. -/
def oneAntenna : GnbSrsConfig := ⟨1, 52, 1, ⟨0⟩, ⟨0⟩, ⟨0⟩⟩

/-- A snapshot at time `t` goes through the SRS service, its first append failing or not. -/
def snapshotCalls (t : UInt64) (appendOk : Bool) : List ReportingCall :=
  [.addSrsData ⟨17, 0, [⟨.finite 1, .finite 0⟩], [⟨.finite 0, .finite 1⟩], t⟩, .collectSrs,
    .send .srsIndication appendOk, .send .srsIndication true]

/-- The append of a reference fails: the reference is lost, its key counts as sent, and no
later snapshot of the UE is assembled. Had the append succeeded, both would have been. -/
theorem failed_append_loses_reference :
    let calls := snapshotCalls 1000 false ++ snapshotCalls 2000 true
    ¬ (run oneAntenna ((snapshotCalls 1000 false).take 2)).LosesNothing .srsIndication ∧
      antennaKey 17 0 ∈ (run oneAntenna calls).srs.generatedSentKeys ∧
      ((SimpleRunOranXapp.init 1).onMessages (sent oneAntenna calls)).completedSrsMessages = [] ∧
      ((SimpleRunOranXapp.init 1).onMessages (sent oneAntenna
        (snapshotCalls 1000 true ++ snapshotCalls 2000 true))).completedSrsMessages.map
          Snapshot.timestamp = [1000, 2000] := by
  refine ⟨fun h => ?_, ?_, ?_, ?_⟩
  · rw [LosesNothing] at h
    have hmessage := congrArg (fun p => p.1.length) h
    revert hmessage
    decide +kernel
  · decide +kernel
  · decide +kernel
  · decide +kernel

end DuReporting

end RunOran
