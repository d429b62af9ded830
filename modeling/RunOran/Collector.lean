import RunOran.IqSample
import RunOran.Mealy
import Mathlib.Data.List.Sort
import Mathlib.Tactic.Linarith

/-!
# The SRS data collector

`srs_data_collector`: one entry per UE in an ordered map, filled one antenna at a time
by the PHY callback and emptied by the report tick. The five public operations are
translated one by one, and `SrsDataCollector.step` bundles them as the machine that the
interleavings are runs of. Every operation holds the collector's mutex from start to
end, so an interleaving of whole operations is all that concurrency can produce.

An operation acts on one entry (`add_srs_data`, `get_and_clear_ue_data`) or on each
entry by itself (the two sweeps), and the lemmas say exactly that: `entry_addSrsData`
and its companions give the entry of every UE after an operation from the entry of
that UE before it. `SrsDataCollector.WellFormed` is the invariant of the map.
-/

namespace RunOran

/-! ## Data -/

/-- A `double`, by its bit pattern. -/
structure Double where
  bits : UInt64
  deriving DecidableEq

/-- `gnb_srs_config`. -/
structure GnbSrsConfig where
  numRxAntennas : UInt32
  srsBandwidthPrb : UInt32
  numSrsSymbols : UInt32
  samplingFrequencyHz : Double
  subcarrierSpacingKhz : Double
  carrierFrequencyHz : Double
  deriving DecidableEq

/-- `srs_antenna_data`: what one receive antenna saw, and what was sent. -/
structure SrsAntennaData where
  antennaId : UInt32
  generatedSrs : List Cf
  receivedSrs : List Cf
  deriving DecidableEq

/-- `ue_srs_data`. -/
structure UeSrsData where
  rnti : UInt32
  timestamp : UInt64
  antennaData : List SrsAntennaData
  deriving DecidableEq

/-- `srs_data_collector`; `pendingData` is the `std::map`, in ascending RNTI order. -/
structure SrsDataCollector where
  config : GnbSrsConfig
  pendingData : Std.ExtTreeMap UInt32 UeSrsData compare
  deriving DecidableEq

/-- The arguments of one `add_srs_data` call. -/
structure AddCall where
  rnti : UInt32
  antennaId : UInt32
  generatedSrs : List Cf
  receivedSrs : List Cf
  timestamp : UInt64
  deriving DecidableEq

/-- What the call stores for its antenna. -/
def AddCall.antenna (call : AddCall) : SrsAntennaData :=
  ⟨call.antennaId, call.generatedSrs, call.receivedSrs⟩

/-- A value-initialised `ue_srs_data`. -/
def UeSrsData.zero : UeSrsData := ⟨0, 0, []⟩

/-- The size test of the collector: as many antennas as the configuration names. -/
def UeSrsData.isFull (n : Nat) (ue : UeSrsData) : Bool := n ≤ ue.antennaData.length

/-! ## Operations -/

/-- Find the antenna by its id and overwrite it, or append it. -/
def assignAntenna : List SrsAntennaData → SrsAntennaData → List SrsAntennaData
  | [], a => [a]
  | x :: xs, a => if x.antennaId = a.antennaId then a :: xs else x :: assignAntenna xs a

/-- What `add_srs_data` does to the entry of its UE: clear it if it is full, then
stamp it and store the antenna. -/
def UeSrsData.add (n : Nat) (ue : UeSrsData) (call : AddCall) : UeSrsData :=
  let kept := if ue.isFull n then [] else ue.antennaData
  ⟨call.rnti, call.timestamp, assignAntenna kept call.antenna⟩

namespace SrsDataCollector

/-- A collector as it is constructed. -/
def init (config : GnbSrsConfig) : SrsDataCollector := ⟨config, ∅⟩

/-- The number of antennas that makes an entry complete. -/
def numRxAntennas (c : SrsDataCollector) : Nat := c.config.numRxAntennas.toNat

/-- `add_srs_data`; `pending_data_[rnti]` creates the entry if it is not there. -/
def addSrsData (c : SrsDataCollector) (call : AddCall) : SrsDataCollector :=
  let ueData := c.pendingData.getD call.rnti UeSrsData.zero
  { c with pendingData := c.pendingData.insert call.rnti (ueData.add c.numRxAntennas call) }

/-- `is_complete`. -/
def isComplete (c : SrsDataCollector) (rnti : UInt32) : Bool :=
  match c.pendingData[rnti]? with
  | none => false
  | some ue => ue.isFull c.numRxAntennas

/-- `get_and_clear_ue_data`. -/
def getAndClearUeData (c : SrsDataCollector) (rnti : UInt32) : UeSrsData × SrsDataCollector :=
  match c.pendingData[rnti]? with
  | none => (UeSrsData.zero, c)
  | some ue => (ue, { c with pendingData := c.pendingData.erase rnti })

/-- `get_all_complete_ue_data`: the complete entries in map order, which are erased. -/
def getAllCompleteUeData (c : SrsDataCollector) : List UeSrsData × SrsDataCollector :=
  ((c.pendingData.filter fun _ ue => ue.isFull c.numRxAntennas).toList.map Prod.snd,
    { c with pendingData := c.pendingData.filter fun _ ue => !ue.isFull c.numRxAntennas })

/-- `cleanup_old_data`, the clock reading `now`; the age wraps around at `2 ^ 64`. -/
def cleanupOldData (c : SrsDataCollector) (now timeoutUs : UInt64) : SrsDataCollector :=
  { c with pendingData := c.pendingData.filter fun _ ue => !(timeoutUs < now - ue.timestamp) }

end SrsDataCollector

/-- A call of a public operation. -/
inductive CollectorOp where
  | addSrsData (call : AddCall)
  | isComplete (rnti : UInt32)
  | getAndClearUeData (rnti : UInt32)
  | getAllCompleteUeData
  | cleanupOldData (now timeoutUs : UInt64)
  deriving DecidableEq

/-- What a call returns: the records it hands out, and the truth value. -/
structure CollectorResult where
  records : List UeSrsData := []
  answer : Bool := false
  deriving DecidableEq

/-- One call on the collector. -/
def SrsDataCollector.step (c : SrsDataCollector) : CollectorOp → SrsDataCollector × CollectorResult
  | .addSrsData call => (c.addSrsData call, {})
  | .isComplete rnti => (c, { answer := c.isComplete rnti })
  | .getAndClearUeData rnti =>
    ((c.getAndClearUeData rnti).2, ⟨[(c.getAndClearUeData rnti).1], false⟩)
  | .getAllCompleteUeData => (c.getAllCompleteUeData.2, { records := c.getAllCompleteUeData.1 })
  | .cleanupOldData now timeoutUs => (c.cleanupOldData now timeoutUs, {})

/-- The collector after a sequence of calls. -/
abbrev SrsDataCollector.run (c : SrsDataCollector) (ops : List CollectorOp) : SrsDataCollector :=
  Mealy.exec SrsDataCollector.step c ops

/-! ## Antenna lists -/

/-- The antenna ids of a record, in the order in which they were stored. -/
def antennaIds (antennas : List SrsAntennaData) : List UInt32 :=
  antennas.map SrsAntennaData.antennaId

@[simp] theorem antennaIds_nil : antennaIds [] = [] := rfl

@[simp] theorem antennaIds_cons (a : SrsAntennaData) (as : List SrsAntennaData) :
    antennaIds (a :: as) = a.antennaId :: antennaIds as := rfl

@[simp] theorem antennaIds_append (as bs : List SrsAntennaData) :
    antennaIds (as ++ bs) = antennaIds as ++ antennaIds bs := List.map_append ..

@[simp] theorem length_antennaIds (as : List SrsAntennaData) :
    (antennaIds as).length = as.length := List.length_map ..

@[simp] theorem AddCall.antenna_antennaId (call : AddCall) :
    call.antenna.antennaId = call.antennaId := rfl

/-- A new antenna goes to the end. -/
theorem assignAntenna_of_not_mem {as : List SrsAntennaData} {a : SrsAntennaData}
    (h : a.antennaId ∉ antennaIds as) : assignAntenna as a = as ++ [a] := by
  induction as with
  | nil => rfl
  | cons x xs ih =>
    rw [antennaIds_cons, List.mem_cons, not_or] at h
    obtain ⟨hx, hxs⟩ := h
    rw [assignAntenna, if_neg (Ne.symm hx), ih hxs, List.cons_append]

/-- A known antenna keeps its place. -/
theorem antennaIds_assignAntenna_of_mem {as : List SrsAntennaData} {a : SrsAntennaData}
    (h : a.antennaId ∈ antennaIds as) : antennaIds (assignAntenna as a) = antennaIds as := by
  induction as with
  | nil => cases h
  | cons x xs ih =>
    rw [assignAntenna]
    split
    · rename_i hx
      rw [antennaIds_cons, antennaIds_cons, hx]
    · rename_i hx
      rw [antennaIds_cons, List.mem_cons] at h
      rw [antennaIds_cons, antennaIds_cons, ih (h.resolve_left (Ne.symm hx))]

theorem mem_antennaIds_assignAntenna {as : List SrsAntennaData} {a : SrsAntennaData}
    {id : UInt32} :
    id ∈ antennaIds (assignAntenna as a) ↔ id ∈ antennaIds as ∨ id = a.antennaId := by
  by_cases h : a.antennaId ∈ antennaIds as
  · rw [antennaIds_assignAntenna_of_mem h]
    refine ⟨?_, ?_⟩
    · exact Or.inl
    · rintro (hid | rfl)
      · exact hid
      · exact h
  · rw [assignAntenna_of_not_mem h, antennaIds_append, List.mem_append, antennaIds_cons,
      antennaIds_nil, List.mem_singleton]

theorem nodup_antennaIds_assignAntenna {as : List SrsAntennaData} (a : SrsAntennaData)
    (h : (antennaIds as).Nodup) : (antennaIds (assignAntenna as a)).Nodup := by
  by_cases ha : a.antennaId ∈ antennaIds as
  · rw [antennaIds_assignAntenna_of_mem ha]
    exact h
  · rw [assignAntenna_of_not_mem ha, antennaIds_append]
    exact h.append (List.nodup_singleton _) (by simpa using ha)

theorem length_assignAntenna_le (as : List SrsAntennaData) (a : SrsAntennaData) :
    (assignAntenna as a).length ≤ as.length + 1 := by
  induction as with
  | nil => exact Nat.le_refl _
  | cons x xs ih =>
    rw [assignAntenna]
    split
    · simp
    · simpa using ih

theorem assignAntenna_ne_nil (as : List SrsAntennaData) (a : SrsAntennaData) :
    assignAntenna as a ≠ [] := by
  cases as with
  | nil => simp [assignAntenna]
  | cons x xs =>
    rw [assignAntenna]
    split <;> simp

/-- What is stored afterwards is the new antenna or was there. -/
theorem eq_or_mem_of_mem_assignAntenna {as : List SrsAntennaData} {a d : SrsAntennaData}
    (hd : d ∈ assignAntenna as a) : d = a ∨ d ∈ as := by
  induction as with
  | nil => exact Or.inl (List.mem_singleton.mp hd)
  | cons x xs ih =>
    rw [assignAntenna] at hd
    split at hd
    · exact (List.mem_cons.mp hd).imp id (List.mem_cons_of_mem _)
    · rcases List.mem_cons.mp hd with rfl | hd
      · exact Or.inr List.mem_cons_self
      · exact (ih hd).imp id (List.mem_cons_of_mem _)

/-- It was there under another id, provided the ids were distinct. -/
theorem mem_assignAntenna {as : List SrsAntennaData} {a d : SrsAntennaData}
    (h : (antennaIds as).Nodup) (hd : d ∈ assignAntenna as a) :
    d = a ∨ d ∈ as ∧ d.antennaId ≠ a.antennaId := by
  induction as with
  | nil => exact Or.inl (List.mem_singleton.mp hd)
  | cons x xs ih =>
    rw [antennaIds_cons, List.nodup_cons] at h
    obtain ⟨hnotMem, hxs⟩ := h
    rw [assignAntenna] at hd
    split at hd
    · -- the antenna was in front, and no other has its id
      rename_i hx
      rcases List.mem_cons.mp hd with hd | hd
      · exact Or.inl hd
      · refine Or.inr ⟨List.mem_cons_of_mem _ hd, fun hid => hnotMem ?_⟩
        rw [hx, ← hid]
        exact List.mem_map_of_mem hd
    · rename_i hx
      rcases List.mem_cons.mp hd with rfl | hd
      · exact Or.inr ⟨List.mem_cons_self .., hx⟩
      · rcases ih hxs hd with hd | ⟨hd, hid⟩
        · exact Or.inl hd
        · exact Or.inr ⟨List.mem_cons_of_mem _ hd, hid⟩

/-- What an addition makes of a record: the new antenna joins antennas that were there. -/
theorem UeSrsData.eq_or_mem_of_mem_add {n : Nat} {ue : UeSrsData} {call : AddCall}
    {a : SrsAntennaData} (ha : a ∈ (ue.add n call).antennaData) :
    a = call.antenna ∨ a ∈ ue.antennaData := by
  apply (eq_or_mem_of_mem_assignAntenna ha).imp id
  intro hkept
  split at hkept
  · cases hkept
  · exact hkept

/-- They were there under other ids, provided the ids were distinct. -/
theorem UeSrsData.mem_add {n : Nat} {ue : UeSrsData} {call : AddCall} {a : SrsAntennaData}
    (hnodup : (antennaIds ue.antennaData).Nodup) (ha : a ∈ (ue.add n call).antennaData) :
    a = call.antenna ∨ a ∈ ue.antennaData ∧ a.antennaId ≠ call.antennaId := by
  rw [UeSrsData.add] at ha
  cases hfull : ue.isFull n with
  | true =>
    -- it was cleared
    rw [hfull] at ha
    exact Or.inl (List.mem_singleton.mp ha)
  | false =>
    rw [hfull] at ha
    exact mem_assignAntenna hnodup ha

/-! ## The entry of a UE after an operation -/

namespace SrsDataCollector

/-- The entry of a UE. -/
def entry (c : SrsDataCollector) (rnti : UInt32) : Option UeSrsData := c.pendingData[rnti]?

@[simp] theorem entry_init (config : GnbSrsConfig) (r : UInt32) :
    (init config).entry r = none := Std.ExtTreeMap.getElem?_empty

@[simp] theorem config_addSrsData (c : SrsDataCollector) (call : AddCall) :
    (c.addSrsData call).config = c.config := rfl

@[simp] theorem config_getAllCompleteUeData (c : SrsDataCollector) :
    c.getAllCompleteUeData.2.config = c.config := rfl

theorem config_step (c : SrsDataCollector) (op : CollectorOp) :
    (c.step op).1.config = c.config := by
  cases op with
  | getAndClearUeData rnti =>
    simp only [step, getAndClearUeData]
    split <;> rfl
  | _ => rfl

/-- No operation changes the configuration. -/
@[simp] theorem config_run (c : SrsDataCollector) (ops : List CollectorOp) :
    (c.run ops).config = c.config :=
  Mealy.exec_invariant (fun d => d.config = c.config) rfl
    (fun d op hd => (config_step d op).trans hd) ops

@[simp] theorem numRxAntennas_run (c : SrsDataCollector) (ops : List CollectorOp) :
    (c.run ops).numRxAntennas = c.numRxAntennas := by
  rw [numRxAntennas, config_run, numRxAntennas]

/-- An addition changes the entry of its own UE only. -/
theorem entry_addSrsData (c : SrsDataCollector) (call : AddCall) (r : UInt32) :
    (c.addSrsData call).entry r =
      if call.rnti = r then
        some (((c.entry r).getD UeSrsData.zero).add c.numRxAntennas call)
      else c.entry r := by
  simp only [entry, addSrsData, Std.ExtTreeMap.getElem?_insert, Std.LawfulEqCmp.compare_eq_iff_eq]
  split
  · -- `pending_data_[rnti]` is the entry, or a new one
    rename_i h
    subst h
    rw [Std.ExtTreeMap.getD_eq_getD_getElem?]
  · rfl

/-- A collection erases the complete entries and leaves the others alone. -/
theorem entry_getAllCompleteUeData (c : SrsDataCollector) (r : UInt32) :
    c.getAllCompleteUeData.2.entry r =
      (c.entry r).filter fun ue => !ue.isFull c.numRxAntennas := by
  simp only [entry, getAllCompleteUeData, Std.ExtTreeMap.getElem?_filter']

/-- A collection returns exactly the complete entries. -/
theorem mem_getAllCompleteUeData {c : SrsDataCollector} {ue : UeSrsData} :
    ue ∈ c.getAllCompleteUeData.1 ↔
      ∃ r, c.entry r = some ue ∧ ue.isFull c.numRxAntennas = true := by
  simp only [getAllCompleteUeData, Std.ExtTreeMap.toList_filter, List.mem_map, List.mem_filter,
    Prod.exists, Std.ExtTreeMap.mem_toList_iff_getElem?_eq_some, entry]
  refine ⟨?_, ?_⟩
  · rintro ⟨r, u, ⟨hu, hfull⟩, rfl⟩
    exact ⟨r, hu, hfull⟩
  · rintro ⟨r, hu, hfull⟩
    exact ⟨r, ue, ⟨hu, hfull⟩, rfl⟩

theorem entry_getAndClearUeData (c : SrsDataCollector) (rnti r : UInt32) :
    (c.getAndClearUeData rnti).2.entry r = if rnti = r then none else c.entry r := by
  unfold getAndClearUeData entry
  split
  · rename_i h
    split
    · rename_i hr
      rw [← hr, h]
    · rfl
  · simp only [Std.ExtTreeMap.getElem?_erase, Std.LawfulEqCmp.compare_eq_iff_eq]

theorem entry_cleanupOldData (c : SrsDataCollector) (now timeoutUs : UInt64) (r : UInt32) :
    (c.cleanupOldData now timeoutUs).entry r =
      (c.entry r).filter fun ue => !(timeoutUs < now - ue.timestamp) := by
  simp only [entry, cleanupOldData, Std.ExtTreeMap.getElem?_filter']

/-! ### Complete entries -/

theorem isComplete_eq (c : SrsDataCollector) (r : UInt32) :
    c.isComplete r = (c.entry r).any fun ue => ue.isFull c.numRxAntennas := by
  rw [isComplete, entry]
  cases c.pendingData[r]? <;> rfl

/-- Without a complete entry a collection does nothing. -/
theorem getAllCompleteUeData_of_none {c : SrsDataCollector} (h : ∀ r, c.isComplete r = false) :
    c.getAllCompleteUeData = ([], c) := by
  have hfull : ∀ r ue, c.entry r = some ue → ue.isFull c.numRxAntennas = false := by
    intro r ue hue
    have hr := h r
    rwa [isComplete_eq, hue] at hr
  have hrecords : c.getAllCompleteUeData.1 = [] := by
    rw [List.eq_nil_iff_forall_not_mem]
    intro ue hue
    obtain ⟨r, hentry, hue⟩ := mem_getAllCompleteUeData.mp hue
    rw [hfull r ue hentry] at hue
    cases hue
  have hentries : c.getAllCompleteUeData.2.pendingData = c.pendingData := by
    refine Std.ExtTreeMap.ext_getElem? fun r => ?_
    have hr := entry_getAllCompleteUeData c r
    rw [entry, entry] at hr
    rw [hr]
    change (c.entry r).filter _ = c.entry r
    cases hue : c.entry r with
    | none => rfl
    | some ue => rw [Option.filter_some, hfull r ue hue, Bool.not_false, if_pos rfl]
  have hcollector : c.getAllCompleteUeData.2 = c := by
    rw [getAllCompleteUeData] at hentries ⊢
    exact congrArg (SrsDataCollector.mk c.config) hentries
  exact Prod.ext hrecords hcollector

/-- After a collection no entry is complete. -/
theorem isComplete_getAllCompleteUeData (c : SrsDataCollector) (r : UInt32) :
    c.getAllCompleteUeData.2.isComplete r = false := by
  rw [isComplete_eq, entry_getAllCompleteUeData, numRxAntennas, config_getAllCompleteUeData,
    ← numRxAntennas]
  cases h : c.entry r with
  | none => rfl
  | some ue =>
    rw [Option.filter_some]
    cases hfull : ue.isFull c.numRxAntennas
    · exact hfull
    · rfl

theorem exists_mem_of_isComplete {c : SrsDataCollector} {r : UInt32} (h : c.isComplete r = true) :
    ∃ ue, ue ∈ c.getAllCompleteUeData.1 ∧ c.entry r = some ue := by
  rw [isComplete_eq, Option.any_eq_true] at h
  obtain ⟨ue, hue, hfull⟩ := h
  exact ⟨ue, mem_getAllCompleteUeData.mpr ⟨r, hue, hfull⟩, hue⟩

/-! ### One operation -/

/-- What an operation makes of the entry of a UE. -/
def entryStep (n : Nat) (r : UInt32) (e : Option UeSrsData) : CollectorOp → Option UeSrsData
  | .addSrsData call =>
    if call.rnti = r then some ((e.getD UeSrsData.zero).add n call) else e
  | .isComplete _ => e
  | .getAndClearUeData rnti => if rnti = r then none else e
  | .getAllCompleteUeData => e.filter fun ue => !ue.isFull n
  | .cleanupOldData now timeoutUs => e.filter fun ue => !(timeoutUs < now - ue.timestamp)

/-- **The entry of a UE is a machine of its own.** -/
theorem entry_step (c : SrsDataCollector) (op : CollectorOp) (r : UInt32) :
    (c.step op).1.entry r = entryStep c.numRxAntennas r (c.entry r) op := by
  cases op with
  | addSrsData call => exact entry_addSrsData c call r
  | isComplete rnti => rfl
  | getAndClearUeData rnti => exact entry_getAndClearUeData c rnti r
  | getAllCompleteUeData => exact entry_getAllCompleteUeData c r
  | cleanupOldData now timeoutUs => exact entry_cleanupOldData c now timeoutUs r

theorem entry_run_concat (c : SrsDataCollector) (ops : List CollectorOp) (op : CollectorOp)
    (r : UInt32) :
    (c.run (ops ++ [op])).entry r = entryStep c.numRxAntennas r ((c.run ops).entry r) op := by
  rw [run, Mealy.exec_concat, entry_step, ← run, numRxAntennas_run]

end SrsDataCollector

/-! ## The invariant of the map -/

/-- What holds of an entry at any time: it is stored under its own RNTI, and its
antennas are distinct, at least one, and no more than the threshold. (With a threshold
of zero every entry is full and holds the last antenna alone.) -/
structure UeSrsData.WellFormed (n : Nat) (r : UInt32) (ue : UeSrsData) : Prop where
  rnti_eq : ue.rnti = r
  ne_nil : ue.antennaData ≠ []
  nodup : (antennaIds ue.antennaData).Nodup
  length_le : ue.antennaData.length ≤ max n 1

/-- Whatever the entry was, after an addition it is well formed again: only the
distinctness of its ids is needed. -/
theorem UeSrsData.add_wellFormed {n : Nat} {ue : UeSrsData} (call : AddCall)
    (h : (antennaIds ue.antennaData).Nodup) : (ue.add n call).WellFormed n call.rnti := by
  refine ⟨rfl, assignAntenna_ne_nil _ _, ?_, ?_⟩
  · apply nodup_antennaIds_assignAntenna
    split
    · exact List.nodup_nil
    · exact h
  · apply le_trans (length_assignAntenna_le _ _)
    split
    · simp
    · rename_i hfull
      simp only [isFull, decide_eq_true_eq] at hfull
      omega

/-- A full entry holds exactly the configured number of antennas. -/
theorem UeSrsData.WellFormed.length_eq {n : Nat} {r : UInt32} {ue : UeSrsData}
    (h : ue.WellFormed n r) (hn : 1 ≤ n) (hfull : ue.isFull n = true) :
    ue.antennaData.length = n := by
  have hle := h.length_le
  simp only [isFull, decide_eq_true_eq] at hfull
  omega

namespace SrsDataCollector

/-- Every entry is well formed. -/
def WellFormed (c : SrsDataCollector) : Prop :=
  ∀ r ue, c.entry r = some ue → ue.WellFormed c.numRxAntennas r

theorem wellFormed_init (config : GnbSrsConfig) : (init config).WellFormed := by
  intro r ue h
  rw [entry_init] at h
  cases h

/-- Dropping entries keeps the map well formed. -/
theorem WellFormed.of_entry_filter {c d : SrsDataCollector} {keep : UeSrsData → Bool}
    (hc : c.WellFormed) (hconf : d.config = c.config)
    (hentry : ∀ r, d.entry r = (c.entry r).filter keep) : d.WellFormed := by
  intro r ue h
  rw [hentry, Option.filter_eq_some_iff] at h
  obtain ⟨hbefore, -⟩ := h
  rw [numRxAntennas, hconf]
  exact hc r ue hbefore

theorem WellFormed.addSrsData {c : SrsDataCollector} (hc : c.WellFormed) (call : AddCall) :
    (c.addSrsData call).WellFormed := by
  intro r ue h
  rw [entry_addSrsData] at h
  split at h
  · rename_i hr
    obtain rfl := Option.some.inj h
    rw [← hr]
    apply UeSrsData.add_wellFormed call
    cases hentry : c.entry call.rnti with
    | none => exact List.nodup_nil
    | some u => exact (hc _ u hentry).nodup
  · exact hc r ue h

/-- Every operation keeps the map well formed. -/
theorem WellFormed.step {c : SrsDataCollector} (hc : c.WellFormed) (op : CollectorOp) :
    (c.step op).1.WellFormed := by
  cases op with
  | addSrsData call => exact hc.addSrsData call
  | isComplete rnti => exact hc
  | getAndClearUeData rnti =>
    intro r ue h
    simp only [SrsDataCollector.step] at h
    rw [entry_getAndClearUeData] at h
    split at h
    · cases h
    · rw [numRxAntennas, config_step]
      exact hc r ue h
  | getAllCompleteUeData => exact hc.of_entry_filter rfl (entry_getAllCompleteUeData c)
  | cleanupOldData now timeoutUs =>
    exact hc.of_entry_filter rfl (entry_cleanupOldData c now timeoutUs)

/-- **The map is well formed at any time.** -/
theorem WellFormed.run {c : SrsDataCollector} (hc : c.WellFormed) (ops : List CollectorOp) :
    (c.run ops).WellFormed :=
  Mealy.exec_invariant WellFormed hc (fun _ op hd => hd.step op) ops

/-- A record that a collection returns is the full entry of its UE. -/
theorem WellFormed.mem_getAllCompleteUeData_iff {c : SrsDataCollector} (hc : c.WellFormed)
    {ue : UeSrsData} :
    ue ∈ c.getAllCompleteUeData.1 ↔
      c.entry ue.rnti = some ue ∧ ue.isFull c.numRxAntennas = true := by
  rw [mem_getAllCompleteUeData]
  refine ⟨?_, ?_⟩
  · rintro ⟨r, hentry, hfull⟩
    obtain rfl := (hc r ue hentry).rnti_eq
    exact ⟨hentry, hfull⟩
  · exact fun h => ⟨ue.rnti, h⟩

/-- The records of a collection are in strictly ascending RNTI order. -/
theorem WellFormed.sorted_getAllCompleteUeData {c : SrsDataCollector} (hc : c.WellFormed) :
    (c.getAllCompleteUeData.1.map UeSrsData.rnti).Pairwise (· < ·) := by
  have hmap : ∀ p ∈ (c.pendingData.filter fun _ ue => ue.isFull c.numRxAntennas).toList,
      (UeSrsData.rnti ∘ Prod.snd) p = p.1 := by
    rintro ⟨r, ue⟩ hp
    rw [Std.ExtTreeMap.toList_filter, List.mem_filter,
      Std.ExtTreeMap.mem_toList_iff_getElem?_eq_some] at hp
    exact (hc r ue hp.1).rnti_eq
  have hkeys := Std.ExtTreeMap.ordered_keys_toList
    (t := c.pendingData.filter fun _ ue => ue.isFull c.numRxAntennas)
  rw [getAllCompleteUeData, List.map_map, List.map_congr_left hmap, List.pairwise_map]
  apply hkeys.imp
  intro p q h
  exact compareOfLessAndEq_eq_lt.mp h

/-- So a collection returns one record per UE. -/
theorem WellFormed.nodup_rntis {c : SrsDataCollector} (hc : c.WellFormed) :
    (c.getAllCompleteUeData.1.map UeSrsData.rnti).Nodup :=
  hc.sorted_getAllCompleteUeData.imp fun hlt => UInt32.ne_of_lt hlt

end SrsDataCollector

end RunOran
