import RunOran.Collector
import RunOran.History

/-!
# What the collector holds

The map of the collector is a function of the calls so far in this sense: what an entry holds
under an antenna id is the data of the latest addition for that UE and antenna, and its
timestamp is that of the latest addition for the UE (`UeSrsData.Represents`). The bound on
the number of antennas and the distinctness of their ids are `WellFormed`; distinctness is also
what freshness needs, since `add_srs_data` overwrites the first antenna with the id only.

An entry that is returned is gone, so what a later record holds was added in between
(`exists_add_since`). Hence the data of an addition is in one returned record at most.
-/

namespace RunOran

open History

/-! ## Additions in a sequence of calls -/

/-- An addition for the UE `r`. -/
def CollectorOp.isAddOf (r : UInt32) : CollectorOp → Bool
  | .addSrsData call => call.rnti = r
  | _ => false

/-- An addition for the antenna `antennaId` of the UE `r`. -/
def CollectorOp.isAddOfAntenna (r antennaId : UInt32) : CollectorOp → Bool
  | .addSrsData call => call.rnti = r ∧ call.antennaId = antennaId
  | _ => false

theorem CollectorOp.isAddOfAntenna_eq_false {r : UInt32} {op : CollectorOp}
    (h : op.isAddOf r = false) (antennaId : UInt32) : op.isAddOfAntenna r antennaId = false := by
  cases op with
  | addSrsData call =>
    have hr : call.rnti ≠ r := of_decide_eq_false h
    exact decide_eq_false fun hboth => hr hboth.1
  | _ => rfl

/-- The entry holds the data of the latest additions. -/
structure UeSrsData.Fresh (r : UInt32) (ops : List CollectorOp) (ue : UeSrsData) : Prop where
  samples : ∀ a ∈ ue.antennaData, ∃ call i,
    latest (CollectorOp.isAddOfAntenna r a.antennaId) ops = some (.addSrsData call, i) ∧
      call.antenna = a
  timestamp : ∃ call i,
    latest (CollectorOp.isAddOf r) ops = some (.addSrsData call, i) ∧
      call.timestamp = ue.timestamp

/-- What holds of an entry of the UE `r` after the calls `ops`, with `n` receive antennas. -/
structure UeSrsData.Represents (n : Nat) (r : UInt32) (ops : List CollectorOp)
    (ue : UeSrsData) : Prop extends ue.Fresh r ops where
  rnti_eq : ue.rnti = r
  length_pos : 1 ≤ ue.antennaData.length
  length_le : ue.antennaData.length ≤ n
  nodup : (antennaIds ue.antennaData).Nodup

/-! ## Freshness -/

/-- A call that adds nothing to the UE does not make its entry any older. -/
theorem UeSrsData.Fresh.concat {r : UInt32} {ops : List CollectorOp} {ue : UeSrsData}
    (h : ue.Fresh r ops) {op : CollectorOp} (hop : op.isAddOf r = false) :
    ue.Fresh r (ops ++ [op]) := by
  refine ⟨fun a ha => ?_, ?_⟩
  · rw [latest_concat, CollectorOp.isAddOfAntenna_eq_false hop, if_neg Bool.false_ne_true]
    exact h.samples a ha
  · rw [latest_concat, hop, if_neg Bool.false_ne_true]
    exact h.timestamp

/-- What a fresh entry holds was added in one call, reference and received stream. -/
theorem UeSrsData.Fresh.exists_addition {r : UInt32} {ops : List CollectorOp} {ue : UeSrsData}
    (h : ue.Fresh r ops) {a : SrsAntennaData} (ha : a ∈ ue.antennaData) :
    ∃ call, .addSrsData call ∈ ops ∧ call.rnti = r ∧ call.antenna = a := by
  obtain ⟨call, i, hlatest, hantenna⟩ := h.samples a ha
  obtain ⟨hget, hadd, -⟩ := latest_eq_some_iff.mp hlatest
  exact ⟨call, List.mem_of_getElem? hget, (of_decide_eq_true hadd).1, hantenna⟩

/-- After an addition the entry is fresh, if it was before and its ids are distinct. -/
theorem UeSrsData.Fresh.add {n : Nat} {ops : List CollectorOp} {e : Option UeSrsData}
    {call : AddCall} (hfresh : ∀ ue, e = some ue → ue.Fresh call.rnti ops)
    (hnodup : ∀ ue, e = some ue → (antennaIds ue.antennaData).Nodup) :
    ((e.getD UeSrsData.zero).add n call).Fresh call.rnti (ops ++ [.addSrsData call]) := by
  have hdistinct : (antennaIds (e.getD UeSrsData.zero).antennaData).Nodup := by
    cases e with
    | none => exact List.nodup_nil
    | some ue => exact hnodup ue rfl
  refine ⟨fun a ha => ?_, call, ops.length, ?_, rfl⟩
  · rw [latest_concat]
    rcases UeSrsData.mem_add hdistinct ha with rfl | ⟨hold, hid⟩
    · refine ⟨call, ops.length, if_pos ?_, rfl⟩
      exact decide_eq_true ⟨rfl, rfl⟩
    · -- the addition is for another antenna
      have hother : CollectorOp.isAddOfAntenna call.rnti a.antennaId (.addSrsData call) = false :=
        decide_eq_false fun hadd => hid hadd.2.symm
      rw [hother, if_neg Bool.false_ne_true]
      cases e with
      | none => exact absurd hold List.not_mem_nil
      | some ue => exact (hfresh ue rfl).samples a hold
  · rw [latest_concat, if_pos]
    exact decide_eq_true rfl

namespace SrsDataCollector

/-- An entry after a call is the one before, or the call is an addition for its UE. -/
theorem entryStep_cases {n : Nat} {r : UInt32} {e : Option UeSrsData} {op : CollectorOp}
    {ue : UeSrsData} (h : entryStep n r e op = some ue) :
    (e = some ue ∧ op.isAddOf r = false) ∨
      ∃ call, op = .addSrsData call ∧ call.rnti = r ∧
        ue = (e.getD UeSrsData.zero).add n call := by
  cases op with
  | addSrsData call =>
    rw [entryStep] at h
    split at h
    · rename_i hr
      exact Or.inr ⟨call, rfl, hr, (Option.some.inj h).symm⟩
    · rename_i hr
      exact Or.inl ⟨h, decide_eq_false hr⟩
  | isComplete rnti => exact Or.inl ⟨h, rfl⟩
  | getAndClearUeData rnti =>
    rw [entryStep] at h
    split at h
    · cases h
    · exact Or.inl ⟨h, rfl⟩
  | getAllCompleteUeData => exact Or.inl ⟨(Option.filter_eq_some_iff.mp h).1, rfl⟩
  | cleanupOldData now timeoutUs => exact Or.inl ⟨(Option.filter_eq_some_iff.mp h).1, rfl⟩

/-- **Every entry is fresh at any time.** -/
theorem fresh_run (config : GnbSrsConfig) (ops : List CollectorOp) {r : UInt32} {ue : UeSrsData}
    (h : ((init config).run ops).entry r = some ue) : ue.Fresh r ops := by
  induction ops using List.reverseRecOn generalizing ue with
  | nil =>
    rw [run, Mealy.exec_nil, entry_init] at h
    cases h
  | append_singleton ops op ih =>
    rw [entry_run_concat] at h
    rcases entryStep_cases h with ⟨hbefore, hop⟩ | ⟨call, rfl, rfl, rfl⟩
    · exact (ih hbefore).concat hop
    · have hwell := (wellFormed_init config).run ops
      exact UeSrsData.Fresh.add (fun ue hue => ih hue) fun ue hue => (hwell _ ue hue).nodup

theorem represents_run {config : GnbSrsConfig} (hn : 1 ≤ config.numRxAntennas.toNat)
    (ops : List CollectorOp) {r : UInt32} {ue : UeSrsData}
    (h : ((init config).run ops).entry r = some ue) :
    ue.Represents config.numRxAntennas.toNat r ops := by
  have hwell := (wellFormed_init config).run ops r ue h
  have hle := hwell.length_le
  rw [numRxAntennas_run] at hle
  exact ⟨fresh_run config ops h, hwell.rnti_eq, List.length_pos_iff.mpr hwell.ne_nil,
    hle.trans (max_eq_left hn).le, hwell.nodup⟩

/-! ## What is returned -/

/-- The records that the call at position `k` returns. -/
def returnedAt (config : GnbSrsConfig) (ops : List CollectorOp) (k : Nat) : List UeSrsData :=
  match ops[k]? with
  | some op => (((init config).run (ops.take k)).step op).2.records
  | none => []

/-- The data of the addition at position `i` is in the record `ue`, which the call at position
`k` returns. -/
def Contributes (config : GnbSrsConfig) (ops : List CollectorOp) (i k : Nat) (ue : UeSrsData) :
    Prop :=
  ue ∈ returnedAt config ops k ∧ ∃ a ∈ ue.antennaData, ∃ call,
    latest (CollectorOp.isAddOfAntenna ue.rnti a.antennaId) (ops.take k) =
        some (.addSrsData call, i) ∧ call.antenna = a

theorem getAndClearUeData_of_none {c : SrsDataCollector} {rnti : UInt32}
    (h : c.entry rnti = none) : (c.getAndClearUeData rnti).1 = UeSrsData.zero := by
  rw [entry] at h
  rw [getAndClearUeData, h]

theorem getAndClearUeData_of_some {c : SrsDataCollector} {rnti : UInt32} {ue : UeSrsData}
    (h : c.entry rnti = some ue) : (c.getAndClearUeData rnti).1 = ue := by
  rw [entry] at h
  rw [getAndClearUeData, h]

/-- A record that a call returns was the entry of its UE and is not any more, unless it is the
empty one that stands for a missing entry. -/
theorem WellFormed.entry_of_mem_records {c : SrsDataCollector} (hc : c.WellFormed)
    {op : CollectorOp} {ue : UeSrsData} (hue : ue ∈ (c.step op).2.records)
    (hne : ue.antennaData ≠ []) :
    c.entry ue.rnti = some ue ∧ (c.step op).1.entry ue.rnti = none := by
  cases op with
  | getAndClearUeData rnti =>
    have hgone := entry_getAndClearUeData c rnti rnti
    rw [if_pos rfl] at hgone
    obtain rfl := List.mem_singleton.mp hue
    cases hentry : c.entry rnti with
    | none =>
      rw [getAndClearUeData_of_none hentry] at hne
      exact absurd rfl hne
    | some u =>
      have hrnti := (hc rnti u hentry).rnti_eq
      rw [getAndClearUeData_of_some hentry, hrnti]
      exact ⟨hentry, hgone⟩
  | getAllCompleteUeData =>
    obtain ⟨hentry, hfull⟩ := hc.mem_getAllCompleteUeData_iff.mp hue
    refine ⟨hentry, ?_⟩
    simp only [SrsDataCollector.step]
    rw [entry_getAllCompleteUeData, hentry, Option.filter_some, hfull]
    rfl
  | _ => exact absurd hue List.not_mem_nil

/-- An entry that was not there before holds what was added since. -/
theorem exists_add_since {c : SrsDataCollector} {r : UInt32} (hc : c.entry r = none)
    {ops : List CollectorOp} {ue : UeSrsData} (hue : (c.run ops).entry r = some ue)
    {id : UInt32} (hid : id ∈ antennaIds ue.antennaData) :
    ∃ op ∈ ops, op.isAddOfAntenna r id = true := by
  induction ops using List.reverseRecOn generalizing ue with
  | nil =>
    rw [run, Mealy.exec_nil, hc] at hue
    cases hue
  | append_singleton ops op ih =>
    rw [entry_run_concat] at hue
    have hbefore : ∀ u, (c.run ops).entry r = some u → id ∈ antennaIds u.antennaData →
        ∃ op' ∈ ops ++ [op], op'.isAddOfAntenna r id = true := by
      intro u hu hidu
      obtain ⟨op', hop', hadd⟩ := ih hu hidu
      exact ⟨op', List.mem_append_left _ hop', hadd⟩
    rcases entryStep_cases hue with ⟨hsame, -⟩ | ⟨call, rfl, rfl, rfl⟩
    · exact hbefore ue hsame hid
    · -- the id is that of the new antenna, or was there
      obtain ⟨a, ha, rfl⟩ := List.mem_map.mp hid
      rcases UeSrsData.eq_or_mem_of_mem_add ha with rfl | hold
      · exact ⟨_, List.mem_append_right _ (List.mem_singleton_self _), decide_eq_true ⟨rfl, rfl⟩⟩
      · cases hentry : (c.run ops).entry call.rnti with
        | none =>
          rw [hentry] at hold
          exact absurd hold List.not_mem_nil
        | some u =>
          rw [hentry] at hold
          exact hbefore u hentry (List.mem_map_of_mem hold)

section Contributions

variable {config : GnbSrsConfig} {ops : List CollectorOp} {i k k' : Nat} {ue ue' : UeSrsData}

theorem exists_of_mem_returnedAt (hue : ue ∈ returnedAt config ops k) :
    ∃ op, ops[k]? = some op ∧ ue ∈ (((init config).run (ops.take k)).step op).2.records := by
  rw [returnedAt] at hue
  cases hop : ops[k]? with
  | none =>
    rw [hop] at hue
    exact absurd hue List.not_mem_nil
  | some op =>
    rw [hop] at hue
    exact ⟨op, rfl, hue⟩

/-- A record that is returned at position `k` is an entry there, and gone afterwards. -/
theorem entry_of_mem_returnedAt (hue : ue ∈ returnedAt config ops k) (hne : ue.antennaData ≠ []) :
    k < ops.length ∧ ((init config).run (ops.take k)).entry ue.rnti = some ue ∧
      ((init config).run (ops.take (k + 1))).entry ue.rnti = none := by
  obtain ⟨op, hop, hrecords⟩ := exists_of_mem_returnedAt hue
  have hwell := (wellFormed_init config).run (ops.take k)
  have hafter : (init config).run (ops.take (k + 1)) =
      (((init config).run (ops.take k)).step op).1 := by
    rw [List.take_add_one, hop, Option.toList_some, run, Mealy.exec_concat]
  rw [hafter]
  exact ⟨(List.getElem?_eq_some_iff.mp hop).1, hwell.entry_of_mem_records hrecords hne⟩

/-- The addition that contributes to a record is one of its UE. -/
theorem Contributes.addition (h : Contributes config ops i k ue) :
    ∃ call, ops[i]? = some (.addSrsData call) ∧ i < k ∧ call.rnti = ue.rnti := by
  obtain ⟨-, a, -, call, hlatest, -⟩ := h
  obtain ⟨hget, hadd, -⟩ := latest_eq_some_iff.mp hlatest
  have hlt := lt_length_of_latest hlatest
  rw [List.length_take] at hlt
  rw [List.getElem?_take_of_lt (by omega)] at hget
  exact ⟨call, hget, by omega, (of_decide_eq_true hadd).1⟩

theorem Contributes.ne_nil (h : Contributes config ops i k ue) : ue.antennaData ≠ [] := by
  obtain ⟨-, a, ha, -⟩ := h
  exact List.ne_nil_of_mem ha

theorem Contributes.rnti_eq (h : Contributes config ops i k ue)
    (h' : Contributes config ops i k' ue') : ue.rnti = ue'.rnti := by
  obtain ⟨call, hcall, -, hrnti⟩ := h.addition
  obtain ⟨call', hcall', -, hrnti'⟩ := h'.addition
  rw [hcall, Option.some_inj] at hcall'
  rw [← hrnti, ← hrnti', CollectorOp.addSrsData.inj hcall']

/-- What a later record holds was added after the earlier one was returned. -/
theorem Contributes.not_lt (h : Contributes config ops i k ue)
    (h' : Contributes config ops i k' ue') : ¬ k < k' := by
  intro hlt
  obtain ⟨hk, -, hgone⟩ := entry_of_mem_returnedAt h.1 h.ne_nil
  obtain ⟨-, hentry, -⟩ := entry_of_mem_returnedAt h'.1 h'.ne_nil
  have hsplit : ops.take k' = ops.take (k + 1) ++ (ops.take k').drop (k + 1) := by
    have htake := List.take_append_drop (k + 1) (ops.take k')
    rw [List.take_take, Nat.min_eq_left hlt] at htake
    exact htake.symm
  rw [h.rnti_eq h'] at hgone
  obtain ⟨-, a, ha, call, hlatest, -⟩ := h'
  rw [hsplit, run, Mealy.exec_append, ← run] at hentry
  obtain ⟨op, hop, hadd⟩ := exists_add_since hgone hentry (List.mem_map_of_mem ha)
  rw [hsplit] at hlatest
  have hlate := length_le_of_latest_append hlatest hop hadd
  obtain ⟨-, -, hearly, -⟩ := h.addition
  rw [List.length_take] at hlate
  omega

/-- **The data of an addition is in one returned record at most.** -/
theorem Contributes.unique (h : Contributes config ops i k ue)
    (h' : Contributes config ops i k' ue') : k = k' ∧ ue = ue' := by
  obtain rfl : k = k' := Nat.le_antisymm (Nat.not_lt.mp (h'.not_lt h)) (Nat.not_lt.mp (h.not_lt h'))
  obtain ⟨-, hentry, -⟩ := entry_of_mem_returnedAt h.1 h.ne_nil
  obtain ⟨-, hentry', -⟩ := entry_of_mem_returnedAt h'.1 h'.ne_nil
  rw [h.rnti_eq h', hentry'] at hentry
  exact ⟨rfl, (Option.some.inj hentry).symm⟩

/-- And every antenna of a returned record holds the data of an addition. -/
theorem exists_contributes (hue : ue ∈ returnedAt config ops k) {a : SrsAntennaData}
    (ha : a ∈ ue.antennaData) :
    ∃ i call, Contributes config ops i k ue ∧ ops[i]? = some (.addSrsData call) ∧
      call.antenna = a := by
  obtain ⟨-, hentry, -⟩ := entry_of_mem_returnedAt hue (List.ne_nil_of_mem ha)
  obtain ⟨call, i, hlatest, hdata⟩ := (fresh_run config _ hentry).samples a ha
  have hcontributes : Contributes config ops i k ue := ⟨hue, a, ha, call, hlatest, hdata⟩
  refine ⟨i, call, hcontributes, ?_, hdata⟩
  have hget := (latest_eq_some_iff.mp hlatest).1
  obtain ⟨-, -, hlt, -⟩ := hcontributes.addition
  rwa [List.getElem?_take_of_lt hlt] at hget

end Contributions

/-! ## Collection -/

/-- A collection returns exactly the entries that are complete, in ascending order of their
UEs, and leaves exactly the others. -/
structure CollectsComplete (c : SrsDataCollector) : Prop where
  mem_iff : ∀ ue, ue ∈ c.getAllCompleteUeData.1 ↔
    c.entry ue.rnti = some ue ∧ c.isComplete ue.rnti = true
  ascending : (c.getAllCompleteUeData.1.map UeSrsData.rnti).Pairwise (· < ·)
  entry_eq : ∀ r, c.getAllCompleteUeData.2.entry r = if c.isComplete r then none else c.entry r

theorem WellFormed.collectsComplete {c : SrsDataCollector} (hc : c.WellFormed) :
    c.CollectsComplete := by
  refine ⟨fun ue => ?_, hc.sorted_getAllCompleteUeData, fun r => ?_⟩
  · rw [hc.mem_getAllCompleteUeData_iff, isComplete_eq]
    refine and_congr_right fun hentry => ?_
    rw [hentry, Option.any_some]
  · rw [entry_getAllCompleteUeData, isComplete_eq]
    cases hentry : c.entry r with
    | none => rfl
    | some ue =>
      rw [Option.filter_some, Option.any_some]
      cases ue.isFull c.numRxAntennas <;> rfl

/-- **The representation invariant of the collector.** After any sequence of calls each entry
represents the latest additions of its UE, a collection returns the complete entries, what a
returned record holds is the data of additions, that of an addition goes into one returned
record at most, and additions for other UEs leave an entry as it is. -/
theorem collector_represents (config : GnbSrsConfig) (hn : 1 ≤ config.numRxAntennas.toNat)
    (ops : List CollectorOp) :
    let c := (init config).run ops
    (∀ r ue, c.entry r = some ue → ue.Represents config.numRxAntennas.toNat r ops) ∧
      c.CollectsComplete ∧
      (∀ k, ∀ ue ∈ returnedAt config ops k, ∀ a ∈ ue.antennaData, ∃ i call,
        Contributes config ops i k ue ∧ ops[i]? = some (.addSrsData call) ∧ call.antenna = a) ∧
      (∀ i k k' ue ue', Contributes config ops i k ue → Contributes config ops i k' ue' →
        k = k' ∧ ue = ue') ∧
      ∀ (call : AddCall) (r : UInt32), call.rnti ≠ r → (c.addSrsData call).entry r = c.entry r := by
  intro c
  refine ⟨fun r ue => represents_run hn ops, ?_, fun k ue hue a => exists_contributes hue,
    fun i k k' ue ue' => Contributes.unique, ?_⟩
  · exact ((wellFormed_init config).run ops).collectsComplete
  · intro call r hr
    rw [entry_addSrsData, if_neg hr]

/-- The first antenna of a UE is measured again before its second one and after another UE is
done. -/
theorem collector_represents_two_ues :
    let config : GnbSrsConfig := ⟨2, 52, 1, ⟨0⟩, ⟨0⟩, ⟨0⟩⟩
    let ops : List CollectorOp :=
      [.addSrsData ⟨17, 0, [], [⟨.finite 1, .finite 0⟩], 1000⟩, .addSrsData ⟨18, 0, [], [], 1000⟩,
        .addSrsData ⟨18, 1, [], [], 1000⟩, .addSrsData ⟨17, 0, [], [⟨.finite 2, .finite 0⟩], 2000⟩,
        .getAllCompleteUeData, .addSrsData ⟨17, 1, [], [], 2000⟩]
    ∃ ue, ((init config).run ops).entry 17 = some ue ∧ ue.Represents 2 17 ops ∧
      ∃ i call, Contributes config ops i 4 ⟨18, 1000, [⟨0, [], []⟩, ⟨1, [], []⟩]⟩ ∧
        ops[i]? = some (.addSrsData call) ∧ call.antenna = ⟨1, [], []⟩ := by
  intro config ops
  obtain ⟨hrepresents, -, hreturned, -⟩ := collector_represents config (by decide) ops
  have hentry : ((init config).run ops).entry 17 =
      some ⟨17, 2000, [⟨0, [], [⟨.finite 2, .finite 0⟩]⟩, ⟨1, [], []⟩]⟩ := by decide +kernel
  exact ⟨_, hentry, hrepresents 17 _ hentry,
    hreturned 4 _ (by decide +kernel) _ (List.mem_cons_of_mem _ (List.mem_singleton_self _))⟩

end SrsDataCollector

end RunOran
