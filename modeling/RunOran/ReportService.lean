import RunOran.Collector
import RunOran.Serializer
import Mathlib.Data.Finset.Lattice.Lemmas

/-!
# The report services

The three `e2sm_report_service` implementations behind a subscription. The timing-advance
service drains a store that the whole process shares; the SRS service drains the collector
and queues one item per antenna stream, references first and once per antenna for the life
of the service, and cuts the queue into indications of at most two streams; the null
service does nothing.

A call that writes to a `byte_buffer` takes `appendOk`, whether the buffer pool could
serve the append.

Two lemmas say what later modules need of the SRS service: `enqueueRecord_eq`
(what a record adds to the queue) and `getIndicationMessage_eq` (the loop of
`get_indication_message` takes `nextBatch` off the queue and sends its serialization).
-/

namespace RunOran

open Protobuf StableSort

/-! ## The timing-advance service -/

/-- `ta_indication_record`. -/
structure TaIndicationRecord where
  ueIndex : UInt16
  rnti : UInt32
  timestampUs : UInt64
  timingAdvance : UInt32
  source : UInt32
  attached : Bool
  deriving DecidableEq

/-- The loop of `append_varint`; a 64-bit value takes at most nine rounds. -/
def appendVarintLoop : Nat → Bytes → UInt64 → Bytes
  | 0, bytes, value => bytes ++ [value.toUInt8]
  | rounds + 1, bytes, value =>
    if 0x80 ≤ value then
      appendVarintLoop rounds (bytes ++ [value.toUInt8 ||| 0x80]) (value >>> 7)
    else bytes ++ [value.toUInt8]

/-- `append_varint`. -/
def appendVarint (bytes : Bytes) (value : UInt64) : Bytes := appendVarintLoop 9 bytes value

/-- `append_key`. -/
def appendKey (bytes : Bytes) (fieldNumber wireType : UInt32) : Bytes :=
  appendVarint bytes ((fieldNumber.toUInt64 <<< 3) ||| wireType.toUInt64)

/-- One scalar of an entry: its key and its value, written even when it is zero. -/
def appendScalar (entry : Bytes) (fieldNumber : UInt32) (value : UInt64) : Bytes :=
  appendVarint (appendKey entry fieldNumber 0) value

/-- The `entry` of one record. -/
def taEntry (record : TaIndicationRecord) : Bytes :=
  let entry := appendScalar [] 1 record.rnti.toUInt64
  let entry := appendScalar entry 2 record.timestampUs
  let entry := appendScalar entry 3 record.timingAdvance.toUInt64
  let entry := appendScalar entry 4 record.source.toUInt64
  let entry := appendScalar entry 5 (if record.attached then 1 else 0)
  appendScalar entry 6 record.ueIndex.toUInt64

/-- `serialize_ta_indication`. -/
def serializeTaIndication (records : List TaIndicationRecord) : Bytes :=
  records.foldl (fun bytes record =>
    let entry := taEntry record
    appendVarint (appendKey bytes 1 2) (UInt64.ofNat entry.length) ++ entry) []

/-- `ta_report_service`. -/
structure TaReportService where
  records : List TaIndicationRecord
  deriving DecidableEq

namespace TaReportService

/-- `collect_measurements`: `drain_ta_indications` empties the store into the service,
whose own records are overwritten. -/
def collectMeasurements (taRecords : List TaIndicationRecord) :
    Bool × TaReportService × List TaIndicationRecord :=
  (!taRecords.isEmpty, ⟨taRecords⟩, [])

/-- `is_ind_msg_ready`. -/
def isIndMsgReady (s : TaReportService) : Bool := !s.records.isEmpty

/-- `get_indication_message`. -/
def getIndicationMessage (s : TaReportService) (appendOk : Bool) : Bytes × TaReportService :=
  if appendOk then (serializeTaIndication s.records, ⟨[]⟩) else ([], s)

end TaReportService

/-! ## The SRS service -/

/-- `srs_report_service`. -/
structure SrsReportService where
  pendingItems : List SrsStreamItem
  generatedSentKeys : Finset UInt64
  deriving DecidableEq

/-- The key of an antenna in `generated_sent_keys`. -/
def antennaKey (rnti antennaId : UInt32) : UInt64 :=
  (rnti.toUInt64 <<< 32) ||| antennaId.toUInt64

/-- `sorted_antennas`. The ids of a record are distinct, so a stable sort is any sort. -/
def sortedAntennas (antennas : List SrsAntennaData) : List SrsAntennaData :=
  sortByKey (fun antenna => antenna.antennaId.toNat) antennas

/-- The reference stream of an antenna. -/
def UeSrsData.generatedItem (ue : UeSrsData) (antenna : SrsAntennaData) : SrsStreamItem :=
  ⟨ue.rnti, ue.timestamp, antenna.antennaId, true, antenna.generatedSrs⟩

/-- The received stream of an antenna. -/
def UeSrsData.receivedItem (ue : UeSrsData) (antenna : SrsAntennaData) : SrsStreamItem :=
  ⟨ue.rnti, ue.timestamp, antenna.antennaId, false, antenna.receivedSrs⟩

/-- `max_indication_payload_bytes`. -/
def maxIndicationPayloadBytes : Nat := 8000

/-- `max_streams_per_pdu`. -/
def maxStreamsPerPdu : Nat := 2

namespace SrsReportService

/-- A service as it is constructed. -/
def init : SrsReportService := ⟨[], ∅⟩

/-- The first loop body of `collect_measurements`: queue the reference, unless its key
was inserted before. -/
def enqueueGenerated (ue : UeSrsData) (s : SrsReportService) (antenna : SrsAntennaData) :
    SrsReportService :=
  let key := antennaKey ue.rnti antenna.antennaId
  if key ∈ s.generatedSentKeys then s
  else ⟨s.pendingItems ++ [ue.generatedItem antenna], insert key s.generatedSentKeys⟩

/-- The second loop body: queue the received stream. -/
def enqueueReceived (ue : UeSrsData) (s : SrsReportService) (antenna : SrsAntennaData) :
    SrsReportService :=
  { s with pendingItems := s.pendingItems ++ [ue.receivedItem antenna] }

/-- What `collect_measurements` does with one record. -/
def enqueueRecord (s : SrsReportService) (ue : UeSrsData) : SrsReportService :=
  let sorted := sortedAntennas ue.antennaData
  sorted.foldl (enqueueReceived ue) (sorted.foldl (enqueueGenerated ue) s)

/-- What `collect_measurements` does with the records it got from the collector. -/
def enqueueRecords (s : SrsReportService) (records : List UeSrsData) : SrsReportService :=
  records.foldl enqueueRecord s

/-- `is_ind_msg_ready`. -/
def isIndMsgReady (s : SrsReportService) : Bool := !s.pendingItems.isEmpty

/-- `collect_measurements`. -/
def collectMeasurements (s : SrsReportService) (c : SrsDataCollector) :
    Bool × SrsReportService × SrsDataCollector :=
  let collected := c.getAllCompleteUeData
  let s' := s.enqueueRecords collected.1
  (s'.isIndMsgReady, s', collected.2)

/-- The loop condition on the front item: it belongs to the batch that `first` began. -/
def sameBatch (first item : SrsStreamItem) : Bool :=
  item.rnti = first.rnti ∧ item.timestamp = first.timestamp ∧ item.generated = first.generated

/-- The `while` loop of `get_indication_message`, on the queue it still has. It returns
the batch, its serialization and the rest of the queue. -/
def fillBatch (first : SrsStreamItem) :
    List SrsStreamItem → List SrsStreamItem → Bytes →
      List SrsStreamItem × Bytes × List SrsStreamItem
  | [], batch, serialized => (batch, serialized, [])
  | item :: rest, batch, serialized =>
    if sameBatch first item ∧ batch.length < maxStreamsPerPdu then
      let batch' := batch ++ [item]
      let candidate := serializeSrsIndication batch'
      if maxIndicationPayloadBytes < candidate.length ∧ 1 < batch'.length then
        -- the item goes back: `batch.pop_back()`
        (batch, serialized, item :: rest)
      -- a single item of this length is kept
      else if maxIndicationPayloadBytes ≤ candidate.length then (batch', candidate, rest)
      else fillBatch first rest batch' candidate
    else (batch, serialized, item :: rest)

/-- `get_indication_message`. -/
def getIndicationMessage (s : SrsReportService) (appendOk : Bool) : Bytes × SrsReportService :=
  match s.pendingItems with
  | [] => ([], s)
  | first :: _ =>
    let filled := fillBatch first s.pendingItems [] []
    -- `if (serialized.empty() && !batch.empty())`
    let serialized :=
      if filled.2.1 = [] ∧ filled.1 ≠ [] then serializeSrsIndication filled.1 else filled.2.1
    -- the items have left the queue, also where the append fails
    (if appendOk then serialized else [], { s with pendingItems := filled.2.2 })

/-! ### What a record adds to the queue -/

theorem foldl_enqueueReceived (ue : UeSrsData) (as : List SrsAntennaData) :
    ∀ s : SrsReportService, as.foldl (enqueueReceived ue) s =
      ⟨s.pendingItems ++ as.map ue.receivedItem, s.generatedSentKeys⟩ := by
  induction as with
  | nil => simp
  | cons a as ih =>
    intro s
    rw [List.foldl_cons, ih, enqueueReceived, List.append_assoc, List.map_cons,
      List.singleton_append]

end SrsReportService

theorem antennaKey_toNat (rnti antennaId : UInt32) :
    (antennaKey rnti antennaId).toNat = rnti.toNat * 2 ^ 32 + antennaId.toNat := by
  have hr := rnti.toNat_lt
  have ha := antennaId.toNat_lt
  have hshift : (rnti.toUInt64 <<< 32).toNat = rnti.toNat * 2 ^ 32 := by
    have hcount : (32 : UInt64).toNat % 64 = 32 := rfl
    rw [UInt64.toNat_shiftLeft, UInt32.toNat_toUInt64, hcount, Nat.shiftLeft_eq]
    exact Nat.mod_eq_of_lt (by omega)
  rw [antennaKey, UInt64.toNat_or, hshift, UInt32.toNat_toUInt64, Nat.mul_comm,
    ← Nat.two_pow_add_eq_or_of_lt ha]

/-- Keys of different antennas differ. -/
theorem antennaKey_inj {r r' a a' : UInt32} :
    antennaKey r a = antennaKey r' a' ↔ r = r' ∧ a = a' := by
  refine ⟨?_, ?_⟩
  · intro h
    have hnat := congrArg UInt64.toNat h
    rw [antennaKey_toNat, antennaKey_toNat] at hnat
    have ha := a.toNat_lt
    have ha' := a'.toNat_lt
    exact ⟨UInt32.toNat_inj.mp (by omega), UInt32.toNat_inj.mp (by omega)⟩
  · rintro ⟨rfl, rfl⟩
    rfl

namespace SrsReportService

/-- The antennas of a record whose reference has not been sent. -/
def unsent (sent : Finset UInt64) (rnti : UInt32) (as : List SrsAntennaData) :
    List SrsAntennaData :=
  as.filter fun a => antennaKey rnti a.antennaId ∉ sent

theorem foldl_enqueueGenerated (ue : UeSrsData) {as : List SrsAntennaData} :
    (antennaIds as).Nodup → ∀ s : SrsReportService, as.foldl (enqueueGenerated ue) s =
      ⟨s.pendingItems ++ (unsent s.generatedSentKeys ue.rnti as).map ue.generatedItem,
        s.generatedSentKeys ∪ (as.map fun a => antennaKey ue.rnti a.antennaId).toFinset⟩ := by
  induction as with
  | nil =>
    intro _ s
    simp [unsent]
  | cons a as ih =>
    intro hnodup s
    rw [antennaIds_cons, List.nodup_cons] at hnodup
    rw [List.foldl_cons, ih hnodup.2]
    by_cases hkey : antennaKey ue.rnti a.antennaId ∈ s.generatedSentKeys
    · have hsame : enqueueGenerated ue s a = s := if_pos hkey
      rw [hsame, List.map_cons, List.toFinset_cons, Finset.union_insert,
        Finset.insert_eq_of_mem (Finset.mem_union_left _ hkey)]
      simp only [unsent, List.filter_cons, hkey, not_true, decide_false, Bool.false_eq_true]
      rfl
    · have hnew : enqueueGenerated ue s a = ⟨s.pendingItems ++ [ue.generatedItem a],
          insert (antennaKey ue.rnti a.antennaId) s.generatedSentKeys⟩ := if_neg hkey
      -- the key of `a` is in the set now, but no later antenna has it
      have hrest : unsent (insert (antennaKey ue.rnti a.antennaId) s.generatedSentKeys) ue.rnti as =
          unsent s.generatedSentKeys ue.rnti as := by
        apply List.filter_congr
        intro b hb
        have hne : antennaKey ue.rnti b.antennaId ≠ antennaKey ue.rnti a.antennaId := by
          intro heq
          apply hnodup.1
          rw [← (antennaKey_inj.mp heq).2]
          exact List.mem_map_of_mem hb
        simp only [Finset.mem_insert, hne, false_or]
      have hfilter : unsent s.generatedSentKeys ue.rnti (a :: as) =
          a :: unsent s.generatedSentKeys ue.rnti as :=
        List.filter_cons_of_pos (decide_eq_true hkey)
      rw [hnew, hrest, hfilter, List.map_cons, List.map_cons, List.toFinset_cons,
        Finset.insert_union, Finset.union_insert, List.append_assoc, List.singleton_append]

theorem sortedAntennas_perm (as : List SrsAntennaData) : (sortedAntennas as).Perm as :=
  sortByKey_perm _ as

theorem nodup_antennaIds_sortedAntennas {as : List SrsAntennaData} (h : (antennaIds as).Nodup) :
    (antennaIds (sortedAntennas as)).Nodup :=
  (((sortedAntennas_perm as).map _).nodup_iff).mpr h

/-- What a record adds to the queue when the keys `sent` have been announced: the missing
references, then the received streams, each in ascending antenna order. -/
def recordItems (sent : Finset UInt64) (ue : UeSrsData) : List SrsStreamItem :=
  (unsent sent ue.rnti (sortedAntennas ue.antennaData)).map ue.generatedItem ++
    (sortedAntennas ue.antennaData).map ue.receivedItem

/-- The keys of the antennas of a record. -/
def recordKeys (ue : UeSrsData) : Finset UInt64 :=
  (ue.antennaData.map fun a => antennaKey ue.rnti a.antennaId).toFinset

/-- **A record is queued as `recordItems`, and its keys are remembered.** -/
theorem enqueueRecord_eq (s : SrsReportService) {ue : UeSrsData}
    (h : (antennaIds ue.antennaData).Nodup) :
    s.enqueueRecord ue = ⟨s.pendingItems ++ recordItems s.generatedSentKeys ue,
      s.generatedSentKeys ∪ recordKeys ue⟩ := by
  have hkeys : ((sortedAntennas ue.antennaData).map
      fun a => antennaKey ue.rnti a.antennaId).toFinset = recordKeys ue :=
    List.toFinset_eq_of_perm _ _ ((sortedAntennas_perm _).map _)
  rw [enqueueRecord, foldl_enqueueGenerated ue (nodup_antennaIds_sortedAntennas h),
    foldl_enqueueReceived, hkeys, recordItems, List.append_assoc]

/-! ### What an indication takes off the queue -/

/-- The streams of the next indication and the queue it leaves: two streams if the second
belongs to the batch of the first, the first alone leaves room, and both together are
within the budget; otherwise one. -/
def nextBatch : List SrsStreamItem → List SrsStreamItem × List SrsStreamItem
  | a :: b :: rest =>
    if sameBatch a b ∧ (serializeSrsIndication [a]).length < maxIndicationPayloadBytes ∧
        (serializeSrsIndication [a, b]).length ≤ maxIndicationPayloadBytes then
      ([a, b], rest)
    else ([a], b :: rest)
  | items => (items, [])

@[simp] theorem sameBatch_self (a : SrsStreamItem) : sameBatch a a = true := by
  simp [sameBatch]

/-- A full batch ends the loop. -/
theorem fillBatch_of_full (first : SrsStreamItem) (items batch : List SrsStreamItem)
    (serialized : Bytes) (h : maxStreamsPerPdu ≤ batch.length) :
    fillBatch first items batch serialized = (batch, serialized, items) := by
  cases items with
  | nil => rfl
  | cons item rest => rw [fillBatch, if_neg (by omega)]

/-- The first round takes the front item whatever its length. -/
theorem fillBatch_first (a : SrsStreamItem) (rest : List SrsStreamItem) :
    fillBatch a (a :: rest) [] [] =
      if maxIndicationPayloadBytes ≤ (serializeSrsIndication [a]).length then
        ([a], serializeSrsIndication [a], rest)
      else fillBatch a rest [a] (serializeSrsIndication [a]) := by
  rw [fillBatch, if_pos ⟨sameBatch_self a, by decide⟩, List.nil_append]
  exact if_neg fun h => absurd h.2 (by simp)

/-- The second round takes the next item if it belongs to the batch and fits. -/
theorem fillBatch_second (a b : SrsStreamItem) (rest : List SrsStreamItem) (serialized : Bytes) :
    fillBatch a (b :: rest) [a] serialized =
      if sameBatch a b ∧
          (serializeSrsIndication [a, b]).length ≤ maxIndicationPayloadBytes then
        ([a, b], serializeSrsIndication [a, b], rest)
      else ([a], serialized, b :: rest) := by
  rw [fillBatch]
  by_cases hsame : sameBatch a b = true
  · have hround : sameBatch a b = true ∧ [a].length < maxStreamsPerPdu :=
      ⟨hsame, by simp [maxStreamsPerPdu]⟩
    rw [if_pos hround, List.singleton_append]
    by_cases hfit : (serializeSrsIndication [a, b]).length ≤ maxIndicationPayloadBytes
    · have hkeep : ¬ (maxIndicationPayloadBytes < (serializeSrsIndication [a, b]).length ∧
          1 < [a, b].length) := fun h => absurd h.1 (Nat.not_lt.mpr hfit)
      have htake : sameBatch a b = true ∧
          (serializeSrsIndication [a, b]).length ≤ maxIndicationPayloadBytes := ⟨hsame, hfit⟩
      simp only [if_neg hkeep, if_pos htake, fillBatch_of_full a rest [a, b] _ (Nat.le_refl 2),
        ite_self]
    · have hback : maxIndicationPayloadBytes < (serializeSrsIndication [a, b]).length ∧
          1 < [a, b].length := ⟨Nat.lt_of_not_le hfit, by simp⟩
      have hdrop : ¬ (sameBatch a b = true ∧
          (serializeSrsIndication [a, b]).length ≤ maxIndicationPayloadBytes) :=
        fun h => hfit h.2
      simp only [if_pos hback, if_neg hdrop]
  · rw [if_neg fun h => hsame h.1, if_neg fun h => hsame h.1]

/-- The loop takes `nextBatch` and leaves its serialization behind. -/
theorem fillBatch_eq (a : SrsStreamItem) (rest : List SrsStreamItem) :
    fillBatch a (a :: rest) [] [] =
      ((nextBatch (a :: rest)).1, serializeSrsIndication (nextBatch (a :: rest)).1,
        (nextBatch (a :: rest)).2) := by
  rw [fillBatch_first]
  cases rest with
  | nil => simp only [fillBatch, nextBatch, ite_self]
  | cons b rest =>
    rw [fillBatch_second, nextBatch]
    by_cases hroom : maxIndicationPayloadBytes ≤ (serializeSrsIndication [a]).length
    · rw [if_pos hroom, if_neg fun h => absurd h.2.1 (Nat.not_lt.mpr hroom)]
    · rw [if_neg hroom]
      by_cases hfit : sameBatch a b = true ∧
          (serializeSrsIndication [a, b]).length ≤ maxIndicationPayloadBytes
      · rw [if_pos hfit, if_pos ⟨hfit.1, Nat.lt_of_not_le hroom, hfit.2⟩]
      · rw [if_neg hfit, if_neg fun h => hfit ⟨h.1, h.2.2⟩]

theorem nextBatch_append (items : List SrsStreamItem) :
    (nextBatch items).1 ++ (nextBatch items).2 = items := by
  unfold nextBatch
  split
  · split <;> rfl
  · exact List.append_nil _

theorem nextBatch_ne_nil {items : List SrsStreamItem} (h : items ≠ []) :
    (nextBatch items).1 ≠ [] := by
  unfold nextBatch
  split
  · split <;> simp
  · exact h

@[simp] theorem serializeSrsIndication_nil : serializeSrsIndication [] = [] := rfl

/-- **An indication is the serialization of the next batch, which leaves the queue** (and
is lost if the append fails). -/
theorem getIndicationMessage_eq (s : SrsReportService) (appendOk : Bool) :
    s.getIndicationMessage appendOk =
      (if appendOk then serializeSrsIndication (nextBatch s.pendingItems).1 else [],
        { s with pendingItems := (nextBatch s.pendingItems).2 }) := by
  obtain ⟨items, sent⟩ := s
  cases items with
  | nil => simp [getIndicationMessage, nextBatch]
  | cons a rest =>
    have hne : serializeSrsIndication (nextBatch (a :: rest)).1 ≠ [] :=
      serializeSrsIndication_ne_nil (nextBatch_ne_nil (List.cons_ne_nil _ _))
    have hdone : ¬ (serializeSrsIndication (nextBatch (a :: rest)).1 = [] ∧
        (nextBatch (a :: rest)).1 ≠ []) := fun h => hne h.1
    simp only [getIndicationMessage, fillBatch_eq, if_neg hdone]

/-- All streams of a batch have one UE, one timestamp and one kind. -/
theorem nextBatch_uniform (items : List SrsStreamItem) :
    ∃ k generated, ∀ item ∈ (nextBatch items).1, item.ueKey = k ∧ item.generated = generated := by
  unfold nextBatch
  split
  · rename_i a b rest
    refine ⟨a.ueKey, a.generated, fun item hitem => ?_⟩
    split at hitem
    · rename_i h
      obtain ⟨hsame, -⟩ := h
      simp only [sameBatch, decide_eq_true_eq] at hsame
      obtain ⟨hrnti, htimestamp, hgen⟩ := hsame
      rcases List.mem_cons.mp hitem with rfl | hitem
      · exact ⟨rfl, rfl⟩
      · rw [List.mem_singleton.mp hitem]
        exact ⟨Prod.ext hrnti htimestamp, hgen⟩
    · rw [List.mem_singleton.mp hitem]
      exact ⟨rfl, rfl⟩
  · rename_i h
    match items with
    | [] => exact ⟨(0, 0), false, fun item hitem => by cases hitem⟩
    | [a] =>
      refine ⟨a.ueKey, a.generated, fun item hitem => ?_⟩
      rw [List.mem_singleton.mp hitem]
      exact ⟨rfl, rfl⟩
    | a :: b :: rest => exact absurd rfl (h a b rest)

/-- A batch is within the budget or a single stream. -/
theorem length_nextBatch (items : List SrsStreamItem) :
    (serializeSrsIndication (nextBatch items).1).length ≤ maxIndicationPayloadBytes ∨
      ∃ item ∈ items, (nextBatch items).1 = [item] := by
  unfold nextBatch
  split
  · split
    · rename_i h
      obtain ⟨-, -, hfit⟩ := h
      exact Or.inl hfit
    · exact Or.inr ⟨_, List.mem_cons_self .., rfl⟩
  · rename_i h
    match items with
    | [] => exact Or.inl (by simp)
    | [a] => exact Or.inr ⟨a, List.mem_cons_self .., rfl⟩
    | a :: b :: rest => exact absurd rfl (h a b rest)

end SrsReportService

end RunOran
