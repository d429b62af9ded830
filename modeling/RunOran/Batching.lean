import RunOran.ReportService

/-!
# The queue of the SRS service

One `srs_report_service` over a whole run of its two operations, with arbitrary
collectors behind the collections. `enqueued` lists what the collections pushed to the
back of the queue and `messages` what the indications took from its front; between
them, nothing is lost, duplicated or reordered:

* `exists_sent`: the queue is always a suffix of what was enqueued, and what the messages
  decode to is a subsequence of the rest, quantised;
* `exists_sent_of_fits`: it is all of the rest if the appends succeed and no stream is
  too large for protobuf by itself.

A batch of two is within the budget of 8000 bytes, so the limit of protobuf can only
strike a stream that travels alone. It does strike there (`oversized_stream_is_lost`).
-/

namespace RunOran

open Protobuf

/-! ## Runs of one service -/

/-- A call on an SRS service. -/
inductive ServiceCall where
  | collectMeasurements (c : SrsDataCollector)
  | getIndicationMessage (appendOk : Bool)
  deriving DecidableEq

/-- What a call leaves behind: the items it pushed to the queue and the message it returned. -/
structure ServiceResult where
  pushed : List SrsStreamItem := []
  messages : List Bytes := []

namespace SrsReportService

/-- One call on a service. -/
def step (s : SrsReportService) : ServiceCall → SrsReportService × ServiceResult
  | .collectMeasurements c =>
    let s' := (s.collectMeasurements c).2.1
    (s', { pushed := s'.pendingItems.drop s.pendingItems.length })
  | .getIndicationMessage appendOk =>
    ((s.getIndicationMessage appendOk).2, { messages := [(s.getIndicationMessage appendOk).1] })

/-- The service after a sequence of calls. -/
abbrev run (s : SrsReportService) (calls : List ServiceCall) : SrsReportService :=
  Mealy.exec step s calls

/-- All items that the collections of a run pushed, in order. -/
def enqueued (s : SrsReportService) (calls : List ServiceCall) : List SrsStreamItem :=
  Mealy.observe step (fun _ result => result.pushed) s calls

/-- The messages of a run, in order. -/
def messages (s : SrsReportService) (calls : List ServiceCall) : List Bytes :=
  Mealy.observe step (fun _ result => result.messages) s calls

/-- What a receiver gets out of the messages of a run. -/
def decoded (s : SrsReportService) (calls : List ServiceCall) : List SrsStreamItem :=
  (s.messages calls).flatMap deserializeSrsIndication

/-- The calls of a run in which every append succeeds. -/
def AppendsSucceed (calls : List ServiceCall) : Prop :=
  ServiceCall.getIndicationMessage false ∉ calls

instance (calls : List ServiceCall) : Decidable (AppendsSucceed calls) :=
  inferInstanceAs (Decidable (_ ∉ calls))

/-! ## What one call does -/

/-- A collection pushes to the back of the queue and leaves the rest alone. -/
theorem enqueueRecord_prefix (s : SrsReportService) (ue : UeSrsData) :
    s.pendingItems <+: (s.enqueueRecord ue).pendingItems := by
  have hgenerated : ∀ (as : List SrsAntennaData) (t : SrsReportService),
      t.pendingItems <+: (as.foldl (enqueueGenerated ue) t).pendingItems := by
    intro as
    induction as with
    | nil => exact fun t => List.prefix_refl _
    | cons a as ih =>
      intro t
      refine List.IsPrefix.trans ?_ (ih _)
      simp only [enqueueGenerated]
      split
      · exact List.prefix_refl _
      · exact List.prefix_append _ _
  rw [enqueueRecord, foldl_enqueueReceived]
  exact (hgenerated _ s).trans (List.prefix_append _ _)

theorem enqueueRecords_prefix (records : List UeSrsData) :
    ∀ s : SrsReportService, s.pendingItems <+: (s.enqueueRecords records).pendingItems := by
  induction records with
  | nil => exact fun s => List.prefix_refl _
  | cons ue records ih => exact fun s => (s.enqueueRecord_prefix ue).trans (ih _)

theorem pendingItems_step_collect (s : SrsReportService) (c : SrsDataCollector) :
    (s.step (.collectMeasurements c)).1.pendingItems =
      s.pendingItems ++ (s.step (.collectMeasurements c)).2.pushed := by
  obtain ⟨pushed, hpushed⟩ := s.enqueueRecords_prefix c.getAllCompleteUeData.1
  simp only [step, collectMeasurements, ← hpushed, List.drop_left]

/-- A batch that fits is decoded to its items, in order. -/
theorem deserialize_nextBatch {items : List SrsStreamItem}
    (h : ∀ item ∈ items, (encodeSrsIndication [item]).length < 2 ^ 31) :
    deserializeSrsIndication (serializeSrsIndication (nextBatch items).1) =
      (nextBatch items).1.map SrsStreamItem.quantised := by
  obtain ⟨k, generated, hbatch⟩ := nextBatch_uniform items
  have hfits : (encodeSrsIndication (nextBatch items).1).length < 2 ^ 31 := by
    rcases length_nextBatch items with hlen | ⟨item, hitem, hone⟩
    · rw [length_serializeSrsIndication] at hlen
      exact lt_of_le_of_lt hlen (by decide)
    · rw [hone]
      exact h item hitem
  rw [deserializeSrsIndication_serializeSrsIndication hfits,
    sortItems_of_ueKey_eq fun item hitem => (hbatch item hitem).1]

/-- Whatever the batch, nothing else is decoded from it. -/
theorem deserialize_nextBatch_sublist (items : List SrsStreamItem) :
    (deserializeSrsIndication (serializeSrsIndication (nextBatch items).1)).Sublist
      ((nextBatch items).1.map SrsStreamItem.quantised) := by
  obtain ⟨k, generated, hbatch⟩ := nextBatch_uniform items
  rcases Nat.lt_or_ge (encodeSrsIndication (nextBatch items).1).length (2 ^ 31) with hlt | hge
  · rw [deserializeSrsIndication_serializeSrsIndication hlt,
      sortItems_of_ueKey_eq fun item hitem => (hbatch item hitem).1]
  · rw [deserializeSrsIndication_of_oversized hge]
    exact List.nil_sublist _

@[simp] theorem deserializeSrsIndication_nil : deserializeSrsIndication [] = [] := rfl

/-- An indication takes the next batch off the queue and decodes to part of it. -/
theorem decoded_step_get (s : SrsReportService) (appendOk : Bool) :
    ∃ batch, s.pendingItems = batch ++ (s.step (.getIndicationMessage appendOk)).1.pendingItems ∧
      ((s.step (.getIndicationMessage appendOk)).2.messages.flatMap
        deserializeSrsIndication).Sublist (batch.map SrsStreamItem.quantised) := by
  refine ⟨(nextBatch s.pendingItems).1, ?_, ?_⟩
  · simp only [step, getIndicationMessage_eq, nextBatch_append]
  · simp only [step, getIndicationMessage_eq, List.flatMap_cons, List.flatMap_nil, List.append_nil]
    split
    · exact deserialize_nextBatch_sublist _
    · exact List.nil_sublist _

/-! ## The run -/

/-- **The messages decode to a subsequence of what was enqueued and has left the queue**,
whatever the appends do and however large the streams are. -/
theorem exists_sent (s : SrsReportService) (calls : List ServiceCall) :
    ∃ sent, s.pendingItems ++ s.enqueued calls = sent ++ (s.run calls).pendingItems ∧
      (s.decoded calls).Sublist (sent.map SrsStreamItem.quantised) := by
  induction calls using List.reverseRecOn with
  | nil => exact ⟨[], by simp [enqueued], by simp [decoded, messages]⟩
  | append_singleton calls call ih =>
    obtain ⟨sent, hsent, hdecoded⟩ := ih
    simp only [enqueued, decoded, messages, Mealy.observe_concat, run, Mealy.exec_concat,
      List.flatMap_append] at hsent hdecoded ⊢
    cases call with
    | collectMeasurements c =>
      refine ⟨sent, ?_, ?_⟩
      · rw [pendingItems_step_collect, ← List.append_assoc, hsent, List.append_assoc]
      · simpa [step] using hdecoded
    | getIndicationMessage appendOk =>
      obtain ⟨batch, hbatch, hsub⟩ := decoded_step_get (Mealy.exec step s calls) appendOk
      refine ⟨sent ++ batch, ?_, ?_⟩
      · rw [List.append_assoc, ← hbatch, ← hsent]
        simp [step]
      · rw [List.map_append]
        exact hdecoded.append hsub

/-- **They decode to all of it**, if the appends succeed and each stream fits by itself. -/
theorem exists_sent_of_fits (s : SrsReportService) (calls : List ServiceCall)
    (hok : AppendsSucceed calls)
    (hfits : ∀ item ∈ s.pendingItems ++ s.enqueued calls,
      (encodeSrsIndication [item]).length < 2 ^ 31) :
    ∃ sent, s.pendingItems ++ s.enqueued calls = sent ++ (s.run calls).pendingItems ∧
      s.decoded calls = sent.map SrsStreamItem.quantised := by
  induction calls using List.reverseRecOn with
  | nil => exact ⟨[], by simp [enqueued], by simp [decoded, messages]⟩
  | append_singleton calls call ih =>
    rw [AppendsSucceed, List.mem_append, not_or] at hok
    obtain ⟨hok, hlast⟩ := hok
    have hbefore : s.enqueued (calls ++ [call]) = s.enqueued calls ++
        ((s.run calls).step call).2.pushed := Mealy.observe_concat ..
    obtain ⟨sent, hsent, hdecoded⟩ := ih hok fun item hitem => hfits item <| by
      rw [hbefore, ← List.append_assoc]
      exact List.mem_append_left _ hitem
    simp only [enqueued, decoded, messages, Mealy.observe_concat, run, Mealy.exec_concat,
      List.flatMap_append] at hsent hdecoded hfits ⊢
    cases call with
    | collectMeasurements c =>
      refine ⟨sent, ?_, ?_⟩
      · rw [pendingItems_step_collect, ← List.append_assoc, hsent, List.append_assoc]
      · simpa [step] using hdecoded
    | getIndicationMessage appendOk =>
      -- what is still queued was enqueued, so it fits
      have hpending : ∀ item ∈ (Mealy.exec step s calls).pendingItems,
          (encodeSrsIndication [item]).length < 2 ^ 31 := by
        intro item hitem
        apply hfits item
        rw [← List.append_assoc, hsent]
        exact List.mem_append_left _ (List.mem_append_right _ hitem)
      have happend : appendOk = true := by
        cases appendOk with
        | true => rfl
        | false => exact absurd (List.mem_singleton_self _) hlast
      have hmessage := deserialize_nextBatch hpending
      have hqueue := nextBatch_append (Mealy.exec step s calls).pendingItems
      refine ⟨sent ++ (nextBatch (Mealy.exec step s calls).pendingItems).1, ?_, ?_⟩
      · simp only [step, getIndicationMessage_eq, List.append_nil, List.append_assoc, hqueue,
          hsent]
      · simp only [step, getIndicationMessage_eq, happend, if_pos, List.flatMap_cons,
          List.flatMap_nil, List.append_nil, hmessage, hdecoded, List.map_append]

/-! ## Draining -/

/-- An indication on a nonempty queue is not empty and takes something off the queue. -/
theorem getIndicationMessage_progress (s : SrsReportService) (h : s.pendingItems ≠ []) :
    (s.getIndicationMessage true).1 ≠ [] ∧
      ∃ batch, batch ≠ [] ∧
        s.pendingItems = batch ++ (s.getIndicationMessage true).2.pendingItems := by
  rw [getIndicationMessage_eq]
  exact ⟨serializeSrsIndication_ne_nil (nextBatch_ne_nil h), _, nextBatch_ne_nil h,
    (nextBatch_append _).symm⟩

/-- As many indications as there are items empty the queue. -/
theorem drain_pendingItems (k : Nat) :
    ∀ s : SrsReportService, s.pendingItems.length ≤ k →
      (s.run (List.replicate k (.getIndicationMessage true))).pendingItems = [] := by
  induction k with
  | zero => exact fun s hs => List.length_eq_zero_iff.mp (Nat.le_zero.mp hs)
  | succ k ih =>
    intro s hs
    rw [List.replicate_succ, run, Mealy.exec_cons]
    apply ih
    simp only [step]
    by_cases hnil : s.pendingItems = []
    · -- an indication on an empty queue leaves it empty
      have hempty : (s.getIndicationMessage true).2.pendingItems = [] := by
        rw [getIndicationMessage_eq, hnil]
        rfl
      rw [hempty]
      exact Nat.zero_le _
    · obtain ⟨-, batch, hbatch, hsplit⟩ := s.getIndicationMessage_progress hnil
      have hlen := congrArg List.length hsplit
      have hpos := List.length_pos_of_ne_nil hbatch
      rw [List.length_append] at hlen
      omega

/-- **Lossless batching.** In a run whose appends succeed and whose streams each fit in a
protobuf message, what the messages decode to, followed by the queue, is what was
enqueued, in order; an indication on a nonempty queue is not empty and takes at least one
item; and `k` indications empty a queue of `k` items. -/
theorem lossless_batching (calls : List ServiceCall) (hok : AppendsSucceed calls)
    (hfits : ∀ item ∈ init.enqueued calls, (encodeSrsIndication [item]).length < 2 ^ 31) :
    init.decoded calls ++ (init.run calls).pendingItems.map SrsStreamItem.quantised =
        (init.enqueued calls).map SrsStreamItem.quantised ∧
      (∀ s : SrsReportService, s.pendingItems ≠ [] →
        (s.getIndicationMessage true).1 ≠ [] ∧
          ∃ batch, batch ≠ [] ∧
            s.pendingItems = batch ++ (s.getIndicationMessage true).2.pendingItems) ∧
      ∀ s : SrsReportService,
        (s.run (List.replicate s.pendingItems.length
          (.getIndicationMessage true))).pendingItems = [] := by
  refine ⟨?_, getIndicationMessage_progress, fun s => drain_pendingItems _ s (Nat.le_refl _)⟩
  obtain ⟨sent, hsent, hdecoded⟩ := exists_sent_of_fits init calls hok hfits
  have hall : init.enqueued calls = sent ++ (init.run calls).pendingItems := hsent
  rw [hdecoded, hall, List.map_append]

/-- A collector that holds one complete UE with one antenna. -/
def oneUeCollector (generated received : List Cf) : SrsDataCollector :=
  (SrsDataCollector.init ⟨1, 0, 0, ⟨0⟩, ⟨0⟩, ⟨0⟩⟩).addSrsData ⟨17, 0, generated, received, 1000⟩

/-- A reference, two received streams, one of them empty, and one indication. -/
theorem lossless_batching_three_streams :
    let calls := [.collectMeasurements (oneUeCollector [⟨.finite 1, .finite 0⟩] []),
      .collectMeasurements (oneUeCollector [] [⟨.finite 3, .finite (-7)⟩]),
      .getIndicationMessage true]
    init.decoded calls ++ (init.run calls).pendingItems.map SrsStreamItem.quantised =
      [⟨17, 1000, 0, true, [⟨.finite 1, .finite 0⟩]⟩, ⟨17, 1000, 0, false, []⟩,
        ⟨17, 1000, 0, false, [⟨.finite 3, .finite (-4)⟩]⟩] := by
  intro calls
  have h := lossless_batching calls (by decide +kernel) (by decide +kernel)
  refine h.1.trans ?_
  decide +kernel

/-! ## Streams too large for protobuf -/

theorem step_oneUeCollector (generated received : List Cf) :
    init.step (.collectMeasurements (oneUeCollector generated received)) =
      (⟨[⟨17, 1000, 0, true, generated⟩, ⟨17, 1000, 0, false, received⟩], {antennaKey 17 0}⟩,
        { pushed := [⟨17, 1000, 0, true, generated⟩, ⟨17, 1000, 0, false, received⟩] }) := by
  with_unfolding_all rfl

/-- The reference and the received stream of one antenna leave the queue one by one. -/
theorem decoded_oneUeCollector (generated received : List Cf) :
    let calls := [.collectMeasurements (oneUeCollector generated received),
      .getIndicationMessage true, .getIndicationMessage true]
    init.decoded calls =
        deserializeSrsIndication (serializeSrsIndication [⟨17, 1000, 0, true, generated⟩]) ++
          deserializeSrsIndication (serializeSrsIndication [⟨17, 1000, 0, false, received⟩]) ∧
      (init.run calls).pendingItems = [] := by
  intro calls
  have hfirst : nextBatch [⟨17, 1000, 0, true, generated⟩, ⟨17, 1000, 0, false, received⟩] =
      ([⟨17, 1000, 0, true, generated⟩], [⟨17, 1000, 0, false, received⟩]) := by
    simp [nextBatch, sameBatch]
  have hsecond : nextBatch [⟨17, 1000, 0, false, received⟩] =
      ([⟨17, 1000, 0, false, received⟩], []) := rfl
  refine ⟨?_, ?_⟩
  · simp only [calls, decoded, messages, Mealy.observe_cons, Mealy.observe_nil,
      step_oneUeCollector]
    simp only [step, getIndicationMessage_eq, hfirst, hsecond, if_pos, List.nil_append,
      List.append_nil, List.singleton_append, List.flatMap_cons, List.flatMap_nil]
  · simp only [calls, run, Mealy.exec_cons, Mealy.exec_nil, step_oneUeCollector]
    simp only [step, getIndicationMessage_eq, hfirst]
    rfl

/-- A stream of `2 ^ 29` samples leaves the queue but is not decoded. -/
theorem decoded_of_oversized {received : List Cf} (h : 2 ^ 29 ≤ received.length) :
    let calls := [.collectMeasurements (oneUeCollector [] received), .getIndicationMessage true,
      .getIndicationMessage true]
    init.decoded calls = [⟨17, 1000, 0, true, []⟩] ∧ (init.run calls).pendingItems = [] := by
  intro calls
  obtain ⟨hdecoded, hpending⟩ := decoded_oneUeCollector [] received
  have hlost := deserializeSrsIndication_of_long_stream
    (List.mem_singleton_self ⟨17, 1000, 0, false, received⟩) h
  have href : deserializeSrsIndication (serializeSrsIndication [⟨17, 1000, 0, true, []⟩]) =
      [⟨17, 1000, 0, true, []⟩] := by decide +kernel
  rw [hlost, href, List.append_nil] at hdecoded
  exact ⟨hdecoded, hpending⟩

theorem not_lossless_of_oversized {received : List Cf} (h : 2 ^ 29 ≤ received.length) :
    let calls := [.collectMeasurements (oneUeCollector [] received), .getIndicationMessage true,
      .getIndicationMessage true]
    AppendsSucceed calls ∧
      init.decoded calls ++ (init.run calls).pendingItems.map SrsStreamItem.quantised ≠
        (init.enqueued calls).map SrsStreamItem.quantised := by
  intro calls
  obtain ⟨hdecoded, hpending⟩ := decoded_of_oversized h
  refine ⟨by simp [AppendsSucceed, calls], fun heq => ?_⟩
  rw [hdecoded, hpending] at heq
  have hlen := congrArg List.length heq
  simp only [calls, enqueued, Mealy.observe_cons, step_oneUeCollector, List.map_append,
    List.length_append, List.length_map, List.length_cons, List.length_nil, List.map_nil] at hlen
  omega

/-- Batching is not lossless for a stream of `2 ^ 29` samples, whose encoding exceeds the
2 GiB limit of protobuf. -/
theorem oversized_stream_is_lost :
    let calls := [.collectMeasurements (oneUeCollector []
        (List.replicate (2 ^ 29) ⟨.finite 0, .finite 0⟩)),
      .getIndicationMessage true, .getIndicationMessage true]
    AppendsSucceed calls ∧
      init.decoded calls ++ (init.run calls).pendingItems.map SrsStreamItem.quantised ≠
        (init.enqueued calls).map SrsStreamItem.quantised :=
  not_lossless_of_oversized (Nat.le_of_eq List.length_replicate.symm)

end SrsReportService

end RunOran
