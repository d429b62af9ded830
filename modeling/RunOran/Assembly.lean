import RunOran.Delivery
import RunOran.History
import RunOran.Isolation

/-!
# What a snapshot is assembled from

To the xApp a run is a sequence of arrivals: the stream items of the SRS indications and the
observations of the timing-advance indications, one at a time. An arrival completes at most one
snapshot, and `history` lists the arrivals with the snapshots they complete.

The two caches are functions of the history. The reference of an antenna is the latest one that
has arrived, and what waits for an antenna of an occasion is the latest received stream since
the last assembly of that occasion (`generatedStream_run`, `receivedStreams_run`). So the
streams of a snapshot can be named by their place in the history, and as an assembly is a stop
for all that come after it, no received stream goes into two snapshots.
-/

namespace RunOran

open History

/-! ## Arrivals -/

/-- What the xApp handles in one step. -/
inductive XappArrival where
  | stream (item : SrsStreamItem)
  | timingAdvance (observation : TaObservation)
  deriving DecidableEq

/-- The arrivals of a message, none if it is malformed. -/
def XappEvent.arrivals : XappEvent → List XappArrival
  | .srsIndication msg => (indicationItems msg).map .stream
  | .timingAdvanceIndication msg => (parseTimingAdvanceMessage msg).map .timingAdvance

/-- The samples of a stream. -/
def XappArrival.srs : XappArrival → List Cf
  | .stream item => item.srs
  | .timingAdvance _ => []

/-- A received stream of the occasion `key` and the antenna. -/
def XappArrival.isReceived (key : UInt32 × UInt64) (antennaId : UInt32) : XappArrival → Bool
  | .stream item => item.generated = false ∧ item.ueKey = key ∧ item.antennaId = antennaId
  | .timingAdvance _ => false

/-- A reference of the antenna. -/
def XappArrival.isReference (rnti antennaId : UInt32) : XappArrival → Bool
  | .stream item => item.IsReferenceOf rnti antennaId
  | .timingAdvance _ => false

/-- An arrival, and the snapshot that it completes. -/
abbrev HistoryEntry := XappArrival × Option Snapshot

/-- The entry is an assembly of the occasion `key`. -/
def HistoryEntry.assembles (key : UInt32 × UInt64) (entry : HistoryEntry) : Bool :=
  entry.2.any fun s => s.ueKey = key

namespace SimpleRunOranXapp

/-- `combined`, as the loop body gets it for an item: the snapshot that it completes. -/
def combined (x : SimpleRunOranXapp) (item : SrsStreamItem) : Option Snapshot :=
  if item.generated then none
  else ((x.storeReceivedSrs item.ueKey item.antennaId item.srs).tryAssembleSnapshot item.rnti
    item.timestamp).1

/-- One arrival. -/
def step (x : SimpleRunOranXapp) : XappArrival → SimpleRunOranXapp × Option Snapshot
  | .stream item => (x.onItem item, x.combined item)
  | .timingAdvance observation => (x.storeTimingAdvance observation, none)

/-- The xApp after a sequence of arrivals. -/
abbrev run (x : SimpleRunOranXapp) (arrivals : List XappArrival) : SimpleRunOranXapp :=
  Mealy.exec step x arrivals

/-- The arrivals of a run, each with the snapshot that it completes. -/
abbrev history (x : SimpleRunOranXapp) (arrivals : List XappArrival) : List HistoryEntry :=
  Mealy.trace step x arrivals

/-- A message is handled as its arrivals one after the other. -/
theorem onEvent_eq (x : SimpleRunOranXapp) (event : XappEvent) :
    x.onEvent event = x.run event.arrivals := by
  have hexec : ∀ (arrivals : List XappArrival) (y : SimpleRunOranXapp),
      y.run arrivals = arrivals.foldl (fun y arrival => (y.step arrival).1) y := by
    intro arrivals
    induction arrivals with
    | nil => exact fun y => rfl
    | cons arrival arrivals ih => exact fun y => ih _
  rw [hexec]
  cases event with
  | srsIndication msg =>
    rw [onEvent, srsIndicationCallback_eq, XappEvent.arrivals, List.foldl_map]
    rfl
  | timingAdvanceIndication msg =>
    rw [onEvent, XappEvent.arrivals, List.foldl_map]
    rfl

theorem onEvents_eq (x : SimpleRunOranXapp) (events : List XappEvent) :
    x.onEvents events = x.run (events.flatMap XappEvent.arrivals) := by
  induction events generalizing x with
  | nil => rfl
  | cons event events ih =>
    rw [List.flatMap_cons, run, Mealy.exec_append, ← run, ← run, ← onEvent_eq]
    exact ih _

/-! ## What an arrival completes -/

/-- The snapshot that an assembly returns is the one that it appends. -/
theorem completed_tryAssembleSnapshot (x : SimpleRunOranXapp) (rnti : UInt32)
    (timestamp : UInt64) :
    (x.tryAssembleSnapshot rnti timestamp).2.completedSrsMessages =
      x.completedSrsMessages ++ (x.tryAssembleSnapshot rnti timestamp).1.toList := by
  unfold tryAssembleSnapshot
  split
  · exact (List.append_nil _).symm
  · dsimp only
    split
    · exact (List.append_nil _).symm
    · split
      · exact (List.append_nil _).symm
      · split
        · exact (List.append_nil _).symm
        · rfl

theorem completed_onItem (x : SimpleRunOranXapp) (item : SrsStreamItem) :
    (x.onItem item).completedSrsMessages =
      x.completedSrsMessages ++ (x.combined item).toList := by
  rw [combined]
  cases hgen : item.generated with
  | true =>
    rw [completedSrsMessages_onItem_generated x hgen, if_pos rfl]
    exact (List.append_nil _).symm
  | false =>
    rw [if_neg Bool.false_ne_true, onItem, onAntenna]
    simp only [hgen, Bool.false_eq_true, if_false]
    exact completed_tryAssembleSnapshot _ _ _

/-- An item completes a snapshot if it is a received one and, with those that wait, all of
them can be assembled. -/
theorem combined_eq (x : SimpleRunOranXapp) (item : SrsStreamItem) :
    x.combined item =
      if item.generated = false ∧ x.Ready item.rnti (x.arrived item) then
        some ⟨item.rnti, item.timestamp, x.assembled item.rnti (x.arrived item),
          x.latestTimingAdvance[item.rnti]?⟩
      else none := by
  cases hgen : item.generated with
  | true =>
    rw [combined, if_pos hgen, if_neg]
    exact fun h => Bool.noConfusion h.1
  | false =>
    have hcompleted := completed_onItem x item
    rw [completedSrsMessages_onItem_received x hgen] at hcompleted
    by_cases hready : x.Ready item.rnti (x.arrived item)
    · rw [if_pos hready, List.append_cancel_left_eq] at hcompleted
      rw [if_pos ⟨rfl, hready⟩]
      exact (Option.toList_eq_singleton_iff.mp hcompleted.symm)
    · rw [if_neg hready] at hcompleted
      rw [if_neg fun h => hready h.2]
      exact Option.toList_eq_nil_iff.mp (List.self_eq_append_right.mp hcompleted)

/-- The snapshots are those that the arrivals have completed. -/
theorem completed_run (x : SimpleRunOranXapp) (arrivals : List XappArrival) :
    (x.run arrivals).completedSrsMessages =
      x.completedSrsMessages ++ (x.history arrivals).filterMap Prod.snd := by
  induction arrivals using List.reverseRecOn with
  | nil => exact (List.append_nil _).symm
  | append_singleton arrivals arrival ih =>
    rw [run, Mealy.exec_concat, history, Mealy.trace_concat, List.filterMap_append,
      ← List.append_assoc, ← ih]
    cases arrival with
    | stream item =>
      simp only [step, completed_onItem]
      cases combined _ item <;> rfl
    | timingAdvance observation => exact (List.append_nil _).symm

theorem expectedRxAntennas_run (x : SimpleRunOranXapp) (arrivals : List XappArrival) :
    (x.run arrivals).expectedRxAntennas = x.expectedRxAntennas := by
  refine Mealy.exec_invariant
    (fun y : SimpleRunOranXapp => y.expectedRxAntennas = x.expectedRxAntennas) rfl ?_ arrivals
  intro y arrival hy
  cases arrival with
  | stream item => exact (expectedRxAntennas_onItem y item).trans hy
  | timingAdvance observation => exact hy

/-! ## The caches as functions of the history -/

/-- **The cached reference of an antenna is the latest one.** -/
theorem generatedStream_run (n : ℤ) (arrivals : List XappArrival) (rnti antennaId : UInt32) :
    ((init n).run arrivals).generatedStream rnti antennaId =
      (latest (fun entry => entry.1.isReference rnti antennaId)
        ((init n).history arrivals)).map fun q => q.1.1.srs := by
  induction arrivals using List.reverseRecOn with
  | nil =>
    simp [generatedStream, init]
  | append_singleton arrivals arrival ih =>
    rw [run, Mealy.exec_concat, history, Mealy.trace_concat, latest_concat]
    cases arrival with
    | timingAdvance observation => exact ih
    | stream item =>
      simp only [step, generatedStream_onItem]
      by_cases hitem : item.generated = true ∧ item.rnti = rnti ∧ item.antennaId = antennaId
      · have hkind : (XappArrival.stream item).isReference rnti antennaId = true :=
          decide_eq_true hitem
        rw [if_pos hitem, if_pos hkind]
        rfl
      · have hkind : (XappArrival.stream item).isReference rnti antennaId = false :=
          decide_eq_false hitem
        rw [if_neg hitem, hkind, if_neg Bool.false_ne_true]
        exact ih

/-- An item is an assembly of the occasion if it completes a snapshot and is of the occasion. -/
theorem assembles_stream (x : SimpleRunOranXapp) (item : SrsStreamItem) (key : UInt32 × UInt64) :
    HistoryEntry.assembles key (.stream item, x.combined item) = true ↔
      (item.generated = false ∧ x.Ready item.rnti (x.arrived item)) ∧ item.ueKey = key := by
  rw [HistoryEntry.assembles, combined_eq]
  split
  · rename_i h
    rw [Option.any_some, decide_eq_true_eq]
    exact ⟨fun hkey => ⟨h, hkey⟩, fun hall => hall.2⟩
  · rename_i h
    exact ⟨fun hnone => Bool.noConfusion hnone, fun hall => absurd hall.1 h⟩

/-- The streams under the key of a received item, if those that waited are the latest ones. -/
theorem getElem?_arrived {x : SimpleRunOranXapp} {h : List HistoryEntry} {item : SrsStreamItem}
    (hgen : item.generated = false) {antennaId : UInt32}
    (hwaits : (x.receivedStreams item.ueKey)[antennaId]? =
      (latestSince (HistoryEntry.assembles item.ueKey)
        (fun entry => entry.1.isReceived item.ueKey antennaId) h).map fun q => q.1.1.srs)
    (completes : Option Snapshot)
    (hstop : ¬ HistoryEntry.assembles item.ueKey (.stream item, completes) = true) :
    (x.arrived item)[antennaId]? =
      (latestSince (HistoryEntry.assembles item.ueKey)
        (fun entry => entry.1.isReceived item.ueKey antennaId)
        (h ++ [(.stream item, completes)])).map fun q => q.1.1.srs := by
  rw [arrived, Std.ExtTreeMap.getElem?_insert, latestSince_concat, if_neg hstop]
  by_cases hid : item.antennaId = antennaId
  · have hkind : (XappArrival.stream item).isReceived item.ueKey antennaId = true :=
      decide_eq_true ⟨hgen, rfl, hid⟩
    rw [if_pos (Std.LawfulEqCmp.compare_eq_iff_eq.mpr hid), if_pos hkind]
    rfl
  · have hkind : (XappArrival.stream item).isReceived item.ueKey antennaId = false :=
      decide_eq_false fun h => hid h.2.2
    rw [if_neg fun h => hid (Std.LawfulEqCmp.compare_eq_iff_eq.mp h), hkind,
      if_neg Bool.false_ne_true, hwaits]

/-- **What waits for an antenna of an occasion is the latest received stream since the last
assembly of the occasion.** -/
theorem receivedStreams_run (n : ℤ) (arrivals : List XappArrival) (key : UInt32 × UInt64)
    (antennaId : UInt32) :
    (((init n).run arrivals).receivedStreams key)[antennaId]? =
      (latestSince (HistoryEntry.assembles key) (fun entry => entry.1.isReceived key antennaId)
        ((init n).history arrivals)).map fun q => q.1.1.srs := by
  induction arrivals using List.reverseRecOn with
  | nil =>
    rw [run, Mealy.exec_nil, receivedStreams_init, Std.ExtTreeMap.getElem?_empty]
    rfl
  | append_singleton arrivals arrival ih =>
    rw [run, Mealy.exec_concat, history, Mealy.trace_concat]
    cases arrival with
    | timingAdvance observation =>
      rw [latestSince_concat]
      exact ih
    | stream item =>
      have hstop := assembles_stream ((init n).run arrivals) item key
      change ((((init n).run arrivals).onItem item).receivedStreams key)[antennaId]? =
        (latestSince _ _ ((init n).history arrivals ++
          [(.stream item, ((init n).run arrivals).combined item)])).map _
      by_cases hitem : item.generated = false ∧ item.ueKey = key
      · obtain ⟨hgen, rfl⟩ := hitem
        rw [receivedStreams_onItem_received _ hgen, if_pos rfl]
        by_cases hready : ((init n).run arrivals).Ready item.rnti
            (((init n).run arrivals).arrived item)
        · rw [if_pos hready, latestSince_concat, if_pos (hstop.mpr ⟨⟨hgen, hready⟩, rfl⟩)]
          exact Std.ExtTreeMap.getElem?_empty
        · rw [if_neg hready]
          exact getElem?_arrived hgen ih _ fun h => hready (hstop.mp h).1.2
      · -- the item is not one that waits under the key
        have hkind : (XappArrival.stream item).isReceived key antennaId = false :=
          decide_eq_false fun h => hitem ⟨h.1, h.2.1⟩
        rw [(occasion_onItem_of_ne _ hitem).1, latestSince_concat,
          if_neg fun h => hitem ⟨(hstop.mp h).1.1, (hstop.mp h).2⟩, hkind,
          if_neg Bool.false_ne_true]
        exact ih

/-! ## What a snapshot holds -/

/-- What holds of the snapshot `s` that `arrival` completes after the history `h`: it has `n`
antennas in ascending order, each with the latest received stream of the occasion since its
last assembly, the arrival included, and with the latest reference. -/
structure WellAssembled (n : Nat) (h : List HistoryEntry) (arrival : XappArrival)
    (s : Snapshot) : Prop where
  length_eq : s.antennaData.length = n
  ascending : (antennaIds s.antennaData).Pairwise (· < ·)
  received : ∀ a ∈ s.antennaData,
    (latestSince (HistoryEntry.assembles s.ueKey)
      (fun entry => entry.1.isReceived s.ueKey a.antennaId) (h ++ [(arrival, none)])).map
        (fun q => q.1.1.srs) = some a.receivedSrs
  generated : ∀ a ∈ s.antennaData,
    (latest (fun entry => entry.1.isReference s.rnti a.antennaId) h).map
      (fun q => q.1.1.srs) = some a.generatedSrs

/-- The antennas of a snapshot are listed in ascending order. -/
theorem ascending_assembled (x : SimpleRunOranXapp) (rnti : UInt32) (streams : Streams) :
    (antennaIds (x.assembled rnti streams)).Pairwise (· < ·) := by
  have hids : antennaIds (x.assembled rnti streams) = streams.keys.take x.expectedRxAntennas := by
    rw [assembled, antennaIds, List.map_map]
    exact List.map_id'' (fun _ => rfl) _
  rw [hids]
  apply List.Pairwise.take
  apply Std.ExtTreeMap.ordered_keys.imp
  intro a b hlt
  exact compareOfLessAndEq_eq_lt.mp hlt

/-- **The snapshot that an arrival completes is well assembled.** -/
theorem wellAssembled_of_combined {n : ℤ} {arrivals : List XappArrival} {item : SrsStreamItem}
    {s : Snapshot} (hs : ((init n).run arrivals).combined item = some s) :
    WellAssembled ((init n).run arrivals).expectedRxAntennas ((init n).history arrivals)
      (.stream item) s := by
  rw [combined_eq] at hs
  split at hs
  · rename_i hitem
    obtain ⟨hgen, hsize, hcached⟩ := hitem
    obtain rfl := Option.some.inj hs
    refine ⟨?_, ascending_assembled _ _ _, fun a ha => ?_, fun a ha => ?_⟩
    · rw [assembled, List.length_map, List.length_take, Std.ExtTreeMap.length_keys]
      exact Nat.min_eq_left hsize
    · obtain ⟨id, hid, rfl⟩ := List.mem_map.mp ha
      have hwaits := receivedStreams_run n arrivals item.ueKey id
      have harrived := getElem?_arrived hgen hwaits none Bool.false_ne_true
      rw [SrsStreamItem.ueKey] at harrived
      rw [Snapshot.ueKey, ← harrived]
      exact Std.ExtTreeMap.getElem?_eq_some_getD
        (Std.ExtTreeMap.mem_keys.mp (List.mem_of_mem_take hid))
    · obtain ⟨id, hid, rfl⟩ := List.mem_map.mp ha
      rw [← generatedStream_run]
      obtain ⟨srs, hsrs⟩ := Option.isSome_iff_exists.mp (hcached id hid)
      rw [hsrs, Option.getD_some]
  · cases hs

/-! ## Which streams a snapshot holds -/

/-- The stream that arrived at position `i` of the history is a received stream of the snapshot
`s`, which the arrival at position `k` completes. -/
def Contributes (h : List HistoryEntry) (i k : Nat) (s : Snapshot) : Prop :=
  ∃ arrival, h[k]? = some (arrival, some s) ∧ ∃ a ∈ s.antennaData, ∃ entry,
    latestSince (HistoryEntry.assembles s.ueKey)
      (fun entry => entry.1.isReceived s.ueKey a.antennaId) (h.take k ++ [(arrival, none)]) =
        some (entry, i)

section Contributions

variable {h : List HistoryEntry} {i k k' : Nat} {s s' : Snapshot}

/-- The latest stream at position `k` arrived no later, and is one of the occasion. -/
theorem stream_of_latestSince {key : UInt32 × UInt64} {antennaId : UInt32} {arrival : XappArrival}
    {completes : Option Snapshot} {entry : HistoryEntry} (hget : h[k]? = some (arrival, completes))
    (hlatest : latestSince (HistoryEntry.assembles key)
      (fun entry => entry.1.isReceived key antennaId) (h.take k ++ [(arrival, none)]) =
        some (entry, i)) :
    i ≤ k ∧ (h.map Prod.fst)[i]? = some entry.1 ∧ ∃ item, entry.1 = .stream item ∧
      item.generated = false ∧ item.ueKey = key ∧ item.antennaId = antennaId := by
  obtain ⟨hentry, hkind⟩ := of_latestSince hlatest
  have hmap : (h.take k ++ [(arrival, none)]).map Prod.fst = (h.map Prod.fst).take (k + 1) := by
    rw [List.map_append, List.map_take, List.take_add_one, List.getElem?_map, hget]
    rfl
  have hfirst : ((h.map Prod.fst).take (k + 1))[i]? = some entry.1 := by
    rw [← hmap, List.getElem?_map, hentry, Option.map_some]
  have hi : i < k + 1 := by
    have hlt := (List.getElem?_eq_some_iff.mp hfirst).1
    rw [List.length_take] at hlt
    omega
  rw [List.getElem?_take_of_lt hi] at hfirst
  refine ⟨Nat.lt_succ_iff.mp hi, hfirst, ?_⟩
  cases harrival : entry.1 with
  | timingAdvance observation =>
    rw [harrival] at hkind
    cases hkind
  | stream item =>
    rw [harrival] at hkind
    exact ⟨item, rfl, of_decide_eq_true hkind⟩

theorem Contributes.stream (hc : Contributes h i k s) :
    i ≤ k ∧ ∃ item, (h.map Prod.fst)[i]? = some (.stream item) ∧ item.ueKey = s.ueKey := by
  obtain ⟨arrival, hget, a, -, entry, hlatest⟩ := hc
  obtain ⟨hi, hfirst, item, harrival, -, hkey, -⟩ := stream_of_latestSince hget hlatest
  rw [harrival] at hfirst
  exact ⟨hi, item, hfirst, hkey⟩

/-- An assembly is a stop for the later ones of its occasion. -/
theorem Contributes.not_lt (hc : Contributes h i k s) (hc' : Contributes h i k' s') :
    ¬ k < k' := by
  intro hlt
  obtain ⟨hle, item, hitem, hkey⟩ := hc.stream
  obtain ⟨-, item', hitem', hkey'⟩ := hc'.stream
  rw [hitem, Option.some_inj] at hitem'
  rw [← XappArrival.stream.inj hitem', hkey] at hkey'
  obtain ⟨arrival, hget, -⟩ := hc
  obtain ⟨arrival', hget', a', -, entry', hlatest'⟩ := hc'
  have hassembly : (h.take k' ++ [(arrival', none)])[k]? = some (arrival, some s) := by
    have hk' := (List.getElem?_eq_some_iff.mp hget').1
    rw [List.getElem?_append_left (by rw [List.length_take]; omega),
      List.getElem?_take_of_lt hlt, hget]
  have hlater := lt_of_latestSince hlatest' hassembly (decide_eq_true hkey')
  omega

/-- **No received stream is in two snapshots.** -/
theorem Contributes.unique (hc : Contributes h i k s) (hc' : Contributes h i k' s') :
    k = k' ∧ s = s' := by
  obtain rfl : k = k' :=
    Nat.le_antisymm (Nat.not_lt.mp (hc'.not_lt hc)) (Nat.not_lt.mp (hc.not_lt hc'))
  obtain ⟨arrival, hget, -⟩ := hc
  obtain ⟨arrival', hget', -⟩ := hc'
  rw [hget, Option.some_inj, Prod.mk.injEq, Option.some_inj] at hget'
  exact ⟨rfl, hget'.2⟩

/-- And every antenna of a snapshot holds a received stream. -/
theorem WellAssembled.exists_contributes {n : Nat} {arrival : XappArrival}
    (hs : WellAssembled n (h.take k) arrival s) (hget : h[k]? = some (arrival, some s))
    {a : SrsAntennaData} (ha : a ∈ s.antennaData) :
    ∃ i item, Contributes h i k s ∧ (h.map Prod.fst)[i]? = some (.stream item) ∧
      item.generated = false ∧ item.ueKey = s.ueKey ∧ item.antennaId = a.antennaId ∧
      item.srs = a.receivedSrs := by
  obtain ⟨⟨entry, i⟩, hlatest, hsrs⟩ := Option.map_eq_some_iff.mp (hs.received a ha)
  obtain ⟨-, hfirst, item, harrival, hgen, hkey, hid⟩ := stream_of_latestSince hget hlatest
  rw [harrival] at hfirst hsrs
  exact ⟨i, item, ⟨arrival, hget, a, ha, entry, hlatest⟩, hfirst, hgen, hkey, hid, hsrs⟩

end Contributions

/-- A snapshot in the history was completed by the item beside it. -/
theorem exists_item_of_history {n : ℤ} {arrivals : List XappArrival} {k : Nat}
    {arrival : XappArrival} {s : Snapshot}
    (hget : ((init n).history arrivals)[k]? = some (arrival, some s)) :
    ∃ item, arrival = .stream item ∧
      ((init n).run (arrivals.take k)).combined item = some s := by
  rw [history, Mealy.getElem?_trace, Option.map_eq_some_iff] at hget
  obtain ⟨arrival', -, hentry⟩ := hget
  obtain ⟨rfl, hs⟩ := Prod.mk.inj hentry
  cases arrival' with
  | stream item => exact ⟨item, rfl, hs⟩
  | timingAdvance observation => cases hs

theorem wellAssembled_history {n : ℤ} {arrivals : List XappArrival} {k : Nat}
    {arrival : XappArrival} {s : Snapshot}
    (hget : ((init n).history arrivals)[k]? = some (arrival, some s)) :
    WellAssembled (init n).expectedRxAntennas (((init n).history arrivals).take k) arrival s := by
  obtain ⟨item, rfl, hs⟩ := exists_item_of_history hget
  have hwell := wellAssembled_of_combined hs
  rw [expectedRxAntennas_run] at hwell
  rwa [history, Mealy.take_trace]

/-- **Every snapshot is well assembled and uses up its streams.** The snapshots are those of
the history, in its order; each is well assembled at its place, from received streams of which
none is in two snapshots, and later messages only append to the list. -/
theorem snapshots_well_assembled (numRxAntennas : ℤ) (events : List XappEvent) :
    let x := (init numRxAntennas).onEvents events
    let h := (init numRxAntennas).history (events.flatMap XappEvent.arrivals)
    x.completedSrsMessages = h.filterMap Prod.snd ∧
      (∀ k arrival s, h[k]? = some (arrival, some s) →
        WellAssembled (init numRxAntennas).expectedRxAntennas (h.take k) arrival s) ∧
      (∀ k arrival s, h[k]? = some (arrival, some s) → ∀ a ∈ s.antennaData, ∃ i item,
        Contributes h i k s ∧ (h.map Prod.fst)[i]? = some (.stream item) ∧
          item.generated = false ∧ item.ueKey = s.ueKey ∧ item.antennaId = a.antennaId ∧
          item.srs = a.receivedSrs) ∧
      (∀ i k k' s s', Contributes h i k s → Contributes h i k' s' → k = k' ∧ s = s') ∧
      ∀ more, x.completedSrsMessages <+:
        ((init numRxAntennas).onEvents (events ++ more)).completedSrsMessages := by
  intro x h
  refine ⟨?_, fun k arrival s => wellAssembled_history, fun k arrival s hget a => ?_,
    fun i k k' s s' => Contributes.unique, fun more => ?_⟩
  · exact (congrArg completedSrsMessages (onEvents_eq _ events)).trans (completed_run _ _)
  · exact (wellAssembled_history hget).exists_contributes hget
  · have hmore : (init numRxAntennas).onEvents (events ++ more) = x.onEvents more :=
      List.foldl_append
    rw [hmore, onEvents_eq, completed_run]
    exact List.prefix_append _ _

end SimpleRunOranXapp

end RunOran
