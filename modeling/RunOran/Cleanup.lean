import RunOran.Collector

/-!
# The timeout

`cleanup_old_data` is declared as the timeout of old incomplete data. It looks at the age of an
entry only, and takes it as a difference of unsigned 64-bit times. So it removes complete
entries that nobody has collected in time, and since an entry that is stamped after the current
time (the clock may be set back) has an age close to `2 ^ 64`, it removes such an entry as soon
as it sees it. `cleanup_removes_stale_iff` says when neither happens.
-/

namespace RunOran

/-- The entry is old incomplete data: its timestamp lies more than the timeout before the
current time. -/
def UeSrsData.IsStale (n : Nat) (now timeoutUs : UInt64) (ue : UeSrsData) : Prop :=
  ue.isFull n = false ∧ ue.timestamp.toNat + timeoutUs.toNat < now.toNat

instance (n : Nat) (now timeoutUs : UInt64) (ue : UeSrsData) :
    Decidable (ue.IsStale n now timeoutUs) :=
  inferInstanceAs (Decidable (_ ∧ _))

/-- The test on the age does no harm to the entry: if it is complete it is not older than the
timeout, and if it is stamped after the current time it is stamped so late, or the timeout is
so long, that they make up `2 ^ 64`. -/
def UeSrsData.AgesSafely (n : Nat) (now timeoutUs : UInt64) (ue : UeSrsData) : Prop :=
  (ue.isFull n = true → now.toNat ≤ ue.timestamp.toNat + timeoutUs.toNat) ∧
    (now.toNat < ue.timestamp.toNat →
      2 ^ 64 ≤ ue.timestamp.toNat - now.toNat + timeoutUs.toNat)

/-- The cleanup removes the old incomplete entries and leaves all others unchanged. -/
def SrsDataCollector.RemovesStale (c : SrsDataCollector) (now timeoutUs : UInt64) : Prop :=
  ∀ r, (c.cleanupOldData now timeoutUs).entry r =
    (c.entry r).filter fun ue => ¬ ue.IsStale c.numRxAntennas now timeoutUs

/-- The age of an entry on either side of the current time. -/
theorem lt_age_iff (now timestamp timeoutUs : UInt64) :
    timeoutUs < now - timestamp ↔
      (timestamp.toNat ≤ now.toNat ∧ timestamp.toNat + timeoutUs.toNat < now.toNat) ∨
        (now.toNat < timestamp.toNat ∧
          timestamp.toNat - now.toNat + timeoutUs.toNat < 2 ^ 64) := by
  have hnow := now.toNat_lt
  have htimestamp := timestamp.toNat_lt
  rw [UInt64.lt_iff_toNat_lt, UInt64.toNat_sub]
  omega

/-- One entry is treated as it should be exactly if its age does it no harm. -/
theorem UeSrsData.kept_iff (n : Nat) (now timeoutUs : UInt64) (ue : UeSrsData) :
    (!decide (timeoutUs < now - ue.timestamp)) = decide (¬ ue.IsStale n now timeoutUs) ↔
      ue.AgesSafely n now timeoutUs := by
  rw [← decide_not, decide_eq_decide, not_iff_not, lt_age_iff, IsStale, AgesSafely]
  cases ue.isFull n with
  | true =>
    simp only [reduceCtorEq, false_and, iff_false, true_imp_iff]
    omega
  | false =>
    simp only [reduceCtorEq, true_and, false_imp_iff]
    omega

/-- **The timeout removes old incomplete data and nothing else** exactly if no complete entry is
older than the timeout and no entry is stamped after the current time, or so far after it that
its age is small again. -/
theorem cleanup_removes_stale_iff (c : SrsDataCollector) (now timeoutUs : UInt64) :
    c.RemovesStale now timeoutUs ↔
      ∀ r ue, c.entry r = some ue → ue.AgesSafely c.numRxAntennas now timeoutUs := by
  simp only [SrsDataCollector.RemovesStale, SrsDataCollector.entry_cleanupOldData]
  refine forall_congr' fun r => ?_
  cases hentry : c.entry r with
  | none => simp
  | some ue =>
    simp only [Option.some.injEq, forall_eq', ← UeSrsData.kept_iff, Option.filter_some]
    cases hkept : !decide (timeoutUs < now - ue.timestamp) <;>
      cases hstale : decide (¬ ue.IsStale c.numRxAntennas now timeoutUs) <;> simp

/-- The snapshot of a UE is complete but has waited too long; the first antenna of another UE
is stamped a microsecond after the current time. Both are removed. -/
theorem cleanup_removes_others :
    let complete := (SrsDataCollector.init ⟨1, 52, 1, ⟨0⟩, ⟨0⟩, ⟨0⟩⟩).run
      [.addSrsData ⟨17, 0, [], [], 1000⟩]
    let incomplete := (SrsDataCollector.init ⟨2, 52, 1, ⟨0⟩, ⟨0⟩, ⟨0⟩⟩).run
      [.addSrsData ⟨18, 0, [], [], 1000⟩]
    (complete.isComplete 17 = true ∧ (complete.cleanupOldData 101001 100000).entry 17 = none ∧
        ¬ complete.RemovesStale 101001 100000) ∧
      incomplete.entry 18 = some ⟨18, 1000, [⟨0, [], []⟩]⟩ ∧
        (incomplete.cleanupOldData 999 100000).entry 18 = none ∧
        ¬ incomplete.RemovesStale 999 100000 := by
  intro complete incomplete
  refine ⟨⟨by decide +kernel, by decide +kernel, fun h => ?_⟩, by decide +kernel,
    by decide +kernel, fun h => ?_⟩
  · have hentry := h 17
    revert hentry
    decide +kernel
  · have hentry := h 18
    revert hentry
    decide +kernel

end RunOran
