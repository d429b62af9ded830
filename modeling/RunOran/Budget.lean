import RunOran.Backlog

/-!
# The budget of an indication

An indication carries one or two streams of one UE, one timestamp and one kind. Two of them
together never exceed `max_indication_payload_bytes`; one goes out by itself whatever its
length, but only if the next one does not belong to it or does not fit. The loop looks at the
budget in two ways, `>` where it puts an item back and `>=` where it stops, and the second
makes no difference: an item that fills the budget by itself leaves no room for another.

The streams of the estimator are short enough for the budget. In the worst case such a message
has 4 * 1632 bytes of samples and 37 of headers.
-/

namespace RunOran

open Protobuf

namespace SrsReportService

/-! ## Packing -/

/-- How the batch that a call takes off the queue is packed, given the queue that it leaves and
the message that it returns. -/
structure Packed (batch rest : List SrsStreamItem) (message : Bytes) : Prop where
  one_or_two : batch.length = 1 ∨ batch.length = 2
  uniform : ∀ a ∈ batch, ∀ b ∈ batch,
    a.rnti = b.rnti ∧ a.timestamp = b.timestamp ∧ a.generated = b.generated
  budget : message.length ≤ maxIndicationPayloadBytes ∨ batch.length = 1
  greedy : batch.length = 1 → ∀ a ∈ batch, ∀ next ∈ rest.head?,
    ¬ (next.rnti = a.rnti ∧ next.timestamp = a.timestamp ∧ next.generated = a.generated) ∨
      maxIndicationPayloadBytes < (serializeSrsIndication [a, next]).length

theorem sameBatch_iff {a b : SrsStreamItem} : sameBatch a b = true ↔
    b.rnti = a.rnti ∧ b.timestamp = a.timestamp ∧ b.generated = a.generated := by
  rw [sameBatch, decide_eq_true_eq]

theorem length_nextBatch_eq {items : List SrsStreamItem} (hne : items ≠ []) :
    (nextBatch items).1.length = 1 ∨ (nextBatch items).1.length = 2 := by
  unfold nextBatch
  split
  · split
    · exact Or.inr rfl
    · exact Or.inl rfl
  · rename_i h
    match items with
    | [] => exact absurd rfl hne
    | [a] => exact Or.inl rfl
    | a :: b :: rest => exact absurd rfl (h a b rest)

/-- **An item goes out by itself only if the next one does not belong to it or does not fit.** -/
theorem nextBatch_greedy {items : List SrsStreamItem} (hone : (nextBatch items).1.length = 1) :
    ∀ a ∈ (nextBatch items).1, ∀ next ∈ (nextBatch items).2.head?, sameBatch a next = true →
      maxIndicationPayloadBytes < (serializeSrsIndication [a, next]).length := by
  match items with
  | [] => cases hone
  | [a] =>
    intro _ _ next hnext
    cases hnext
  | a :: b :: rest =>
    rw [nextBatch] at hone ⊢
    split at hone
    · cases hone
    · rename_i hpair
      rw [if_neg hpair]
      intro a' ha next hnext hsame
      obtain rfl := List.mem_singleton.mp ha
      obtain rfl := Option.some.inj hnext
      obtain ⟨hrnti, htimestamp, -⟩ := sameBatch_iff.mp hsame
      have hmore := length_encodeSrsIndication_singleton_lt (Prod.ext hrnti htimestamp :
        b.ueKey = a'.ueKey)
      rw [length_serializeSrsIndication, length_serializeSrsIndication] at hpair
      rw [length_serializeSrsIndication]
      -- an item that fills the budget leaves no room
      by_contra hle
      exact hpair ⟨hsame, by omega, by omega⟩

/-- **Packing**, for every content of the queue. -/
theorem packed_nextBatch {items : List SrsStreamItem} (hne : items ≠ []) :
    Packed (nextBatch items).1 (nextBatch items).2
      (serializeSrsIndication (nextBatch items).1) where
  one_or_two := length_nextBatch_eq hne
  uniform := by
    obtain ⟨k, generated, hbatch⟩ := nextBatch_uniform items
    intro a ha b hb
    obtain ⟨hka, hga⟩ := hbatch a ha
    obtain ⟨hkb, hgb⟩ := hbatch b hb
    have hkey : a.ueKey = b.ueKey := hka.trans hkb.symm
    exact ⟨congrArg Prod.fst hkey, congrArg Prod.snd hkey, hga.trans hgb.symm⟩
  budget := by
    refine (length_nextBatch items).imp id ?_
    rintro ⟨item, -, hone⟩
    rw [hone]
    rfl
  greedy := by
    intro hone a ha next hnext
    rw [or_iff_not_imp_left, not_not]
    exact fun hsame => nextBatch_greedy hone a ha next hnext (sameBatch_iff.mpr hsame)

/-! ## Streams of the estimator -/

/-- A message of streams that the estimator makes is within the budget. -/
theorem length_nextBatch_le_of_samples {items : List SrsStreamItem}
    (h : ∀ item ∈ items, item.srs.length ≤ maxSeqLength) :
    (serializeSrsIndication (nextBatch items).1).length ≤ maxIndicationPayloadBytes := by
  rcases length_nextBatch items with hbudget | ⟨item, hitem, hone⟩
  · exact hbudget
  · have hlen := length_encodeSrsIndication_singleton_le_of_samples (h item hitem) (by decide)
    rw [hone, length_serializeSrsIndication]
    exact hlen.trans (by decide)

/-- **Message budget and greedy packing.** On a nonempty queue a call takes one or two items
off the queue, which the message carries if they are not too large for protobuf; they agree,
they fit the budget or are one, and they are one only if the next one differs, is missing or
does not fit. With the sequences of the estimator every message fits the budget. -/
theorem message_budget (s : SrsReportService) (hne : s.pendingItems ≠ []) :
    let message := (s.getIndicationMessage true).1
    let rest := (s.getIndicationMessage true).2.pendingItems
    (∃ batch, s.pendingItems = batch ++ rest ∧ Packed batch rest message ∧
        ((∀ item ∈ s.pendingItems, (encodeSrsIndication [item]).length < 2 ^ 31) →
          deserializeSrsIndication message = batch.map SrsStreamItem.quantised)) ∧
      ((∀ item ∈ s.pendingItems, item.srs.length ≤ maxSeqLength) →
        message.length ≤ maxIndicationPayloadBytes) := by
  simp only [getIndicationMessage_eq, if_pos]
  refine ⟨⟨(nextBatch s.pendingItems).1, (nextBatch_append _).symm, packed_nextBatch hne, ?_⟩, ?_⟩
  · exact deserialize_nextBatch
  · exact length_nextBatch_le_of_samples

/-- The widest ids and timestamp: a pair that fits, and the next item has another kind. -/
theorem message_budget_pair :
    let s : SrsReportService := ⟨[⟨0xFFFFFFFF, 0xFFFFFFFFFFFFFFFF, 0, true, []⟩,
      ⟨0xFFFFFFFF, 0xFFFFFFFFFFFFFFFF, 0xFFFFFFFF, true, [⟨.finite 1, .finite 0⟩]⟩,
      ⟨0xFFFFFFFF, 0xFFFFFFFFFFFFFFFF, 0, false, []⟩], ∅⟩
    deserializeSrsIndication (s.getIndicationMessage true).1 =
        [⟨0xFFFFFFFF, 0xFFFFFFFFFFFFFFFF, 0, true, []⟩,
          ⟨0xFFFFFFFF, 0xFFFFFFFFFFFFFFFF, 0xFFFFFFFF, true, [⟨.finite 1, .finite 0⟩]⟩] ∧
      (s.getIndicationMessage true).1.length ≤ maxIndicationPayloadBytes := by
  intro s
  have h := message_budget s (List.cons_ne_nil _ _)
  exact ⟨by decide +kernel, h.2 (by decide)⟩

/-! ## A stream too large for protobuf -/

theorem message_of_oversized {samples : List Cf} (h : 2 ^ 29 ≤ samples.length) :
    let s : SrsReportService := ⟨[⟨17, 1000, 0, false, samples⟩], ∅⟩
    s.pendingItems ≠ [] ∧ deserializeSrsIndication (s.getIndicationMessage true).1 = [] := by
  intro s
  have hbatch : (nextBatch s.pendingItems).1 = [⟨17, 1000, 0, false, samples⟩] := rfl
  refine ⟨List.cons_ne_nil _ _, ?_⟩
  simp only [getIndicationMessage_eq, if_pos, hbatch]
  exact deserializeSrsIndication_of_long_stream (List.mem_singleton_self _) h

/-- The message for a stream of `2 ^ 29` samples carries no item. -/
theorem oversized_message_carries_nothing :
    let s : SrsReportService :=
      ⟨[⟨17, 1000, 0, false, List.replicate (2 ^ 29) ⟨.finite 0, .finite 0⟩⟩], ∅⟩
    s.pendingItems ≠ [] ∧ deserializeSrsIndication (s.getIndicationMessage true).1 = [] :=
  message_of_oversized (Nat.le_of_eq List.length_replicate.symm)

end SrsReportService

end RunOran
