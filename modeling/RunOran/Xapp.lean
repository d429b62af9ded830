import RunOran.Collector
import RunOran.Serializer
import Mathlib.Data.Nat.Bitwise

/-!
# The xApp

`SimpleRunOranXapp`: a cache of reference streams that never expires, the received
streams of the snapshots under assembly, the completed snapshots and the last timing
advance of each UE. A Python `dict` whose order nobody looks at is an ordered map here;
the one place that needs an order sorts the keys itself.

A message is a sequence of stream items to the xApp: the callback's nested loops over UEs
and antennas come down to `onItem` on `indicationItems` (`srsIndicationCallback_eq`). A
reference only updates the cache. A received stream is stored and then an assembly is
tried, so `onItem_received` is the one lemma about what an item does.
-/

namespace RunOran

open Protobuf

/-! ## Data -/

/-- `TimingAdvanceSource`. -/
inductive TimingAdvanceSource where
  | unknown
  | rar
  | connectedUe
  deriving DecidableEq

/-- `TimingAdvanceSource.Name`, which raises an exception for a value without a name. -/
def TimingAdvanceSource.ofValue? (value : Int32) : Option TimingAdvanceSource :=
  if value = 0 then some .unknown
  else if value = 1 then some .rar
  else if value = 2 then some .connectedUe
  else none

/-- An element of `ta_observations`. -/
structure TaObservation where
  rnti : UInt32
  ueIndex : UInt32
  timestamp : UInt64
  timingAdvance : UInt32
  source : TimingAdvanceSource
  attached : Bool
  deriving DecidableEq

/-- `combined`: a snapshot, its antennas in ascending order. -/
structure Snapshot where
  rnti : UInt32
  timestamp : UInt64
  antennaData : List SrsAntennaData
  timingAdvance : Option TaObservation
  deriving DecidableEq

/-- The streams of one kind by antenna. -/
abbrev Streams := Std.ExtTreeMap UInt32 (List Cf) compare

/-- `SimpleRunOranXapp`. -/
structure SimpleRunOranXapp where
  expectedRxAntennas : Nat
  expected_pos : 1 ≤ expectedRxAntennas
  generatedSrsCache : Std.ExtTreeMap UInt32 Streams compare
  pendingReceivedSrs : Std.ExtTreeMap (UInt32 × UInt64) Streams compareUeKey
  completedSrsMessages : List Snapshot
  latestTimingAdvance : Std.ExtTreeMap UInt32 TaObservation compare

/-! ## Parsing -/

/-- One half of a packed word, which Python reads as an unsigned number. -/
def signedHalf (half : Nat) : ℤ :=
  if half &&& 0x8000 ≠ 0 then (half : ℤ) - 0x10000 else half

/-- `_unpack_iq_samples`. -/
def unpackIqSamples (packedSamples : List UInt32) : List Cf :=
  packedSamples.map fun packed =>
    let realQ := (packed.toNat >>> 16) &&& 0xFFFF
    let imagQ := packed.toNat &&& 0xFFFF
    ⟨.finite (signedHalf realQ / 8192), .finite (signedHalf imagQ / 8192)⟩

/-- A parsed `antenna_data` entry of an indication. -/
structure ParsedAntenna where
  antennaId : UInt32
  generated : Bool
  srs : List Cf
  deriving DecidableEq

/-- A parsed `ue_srs_data` entry of an indication. -/
structure ParsedUe where
  rnti : UInt32
  timestamp : UInt64
  antennaData : List ParsedAntenna
  deriving DecidableEq

/-- `parse_srs_message`; `ParseFromString` raises an exception on a malformed message. -/
def parseSrsMessage (indicationMsg : Bytes) : List ParsedUe :=
  let parsed := Pb.SrsIndicationMessage.schema.parse indicationMsg
  if parsed.2 then
    parsed.1.ueSrsData.map fun ue =>
      ⟨ue.rnti, ue.timestamp, ue.antennaData.map fun ant =>
        ⟨ant.antennaId, ant.generated, unpackIqSamples ant.samples⟩⟩
  else []

/-- `parse_timing_advance_message`; one source without a name discards the message. -/
def parseTimingAdvanceMessage (indicationMsg : Bytes) : List TaObservation :=
  let parsed := Pb.TimingAdvanceIndicationMessage.schema.parse indicationMsg
  if parsed.2 then
    (parsed.1.timingAdvanceData.mapM fun ta =>
      (TimingAdvanceSource.ofValue? ta.source).map fun source =>
        -- a zero RNTI is replaced by the UE index
        ⟨if ta.rnti = 0 then ta.ueIndex else ta.rnti, ta.ueIndex, ta.timestamp,
          ta.timingAdvance, source, ta.attached⟩).getD []
  else []

/-! ## State -/

namespace SimpleRunOranXapp

/-- `__init__`; `num_rx_antennas` is any Python integer. -/
def init (numRxAntennas : ℤ) : SimpleRunOranXapp where
  expectedRxAntennas := (max 1 numRxAntennas).toNat
  expected_pos := by omega
  generatedSrsCache := ∅
  pendingReceivedSrs := ∅
  completedSrsMessages := []
  latestTimingAdvance := ∅

/-- `_store_timing_advance`. -/
def storeTimingAdvance (x : SimpleRunOranXapp) (observation : TaObservation) :
    SimpleRunOranXapp :=
  { x with latestTimingAdvance := x.latestTimingAdvance.insert observation.rnti observation }

/-- `_store_generated_srs`; the cache is a `defaultdict`. -/
def storeGeneratedSrs (x : SimpleRunOranXapp) (rnti antennaId : UInt32) (samples : List Cf) :
    SimpleRunOranXapp :=
  let byAntenna := x.generatedSrsCache.getD rnti ∅
  { x with
    generatedSrsCache := x.generatedSrsCache.insert rnti (byAntenna.insert antennaId samples) }

/-- `self.pending_received_srs[(rnti, timestamp)][antenna_id] = samples`. -/
def storeReceivedSrs (x : SimpleRunOranXapp) (key : UInt32 × UInt64) (antennaId : UInt32)
    (samples : List Cf) : SimpleRunOranXapp :=
  let received := x.pendingReceivedSrs.getD key ∅
  { x with
    pendingReceivedSrs := x.pendingReceivedSrs.insert key (received.insert antennaId samples) }

/-- `_try_assemble_snapshot`. -/
def tryAssembleSnapshot (x : SimpleRunOranXapp) (rnti : UInt32) (timestamp : UInt64) :
    Option Snapshot × SimpleRunOranXapp :=
  match x.pendingReceivedSrs[(rnti, timestamp)]? with
  | none => (none, x)
  | some receivedAntennas =>
    -- an empty `dict` is falsy, like a missing one
    if receivedAntennas.isEmpty then (none, x)
    else if receivedAntennas.size < x.expectedRxAntennas then (none, x)
    else
      -- `sorted(received_antennas)[: self.expected_rx_antennas]`
      let candidateAntennas := receivedAntennas.keys.take x.expectedRxAntennas
      let generatedByAntenna := x.generatedSrsCache.getD rnti ∅
      if candidateAntennas.any fun antennaId => generatedByAntenna[antennaId]? = none then (none, x)
      else
        let antennaData := candidateAntennas.map fun antennaId =>
          ⟨antennaId, generatedByAntenna.getD antennaId [], receivedAntennas.getD antennaId []⟩
        let combined := ⟨rnti, timestamp, antennaData, x.latestTimingAdvance[rnti]?⟩
        (some combined, { x with
          completedSrsMessages := x.completedSrsMessages ++ [combined]
          pendingReceivedSrs := x.pendingReceivedSrs.erase (rnti, timestamp) })

/-- The inner loop body of `srs_indication_callback`. -/
def onAntenna (rnti : UInt32) (timestamp : UInt64) (x : SimpleRunOranXapp)
    (antennaData : ParsedAntenna) : SimpleRunOranXapp :=
  if antennaData.generated then x.storeGeneratedSrs rnti antennaData.antennaId antennaData.srs
  else
    ((x.storeReceivedSrs (rnti, timestamp) antennaData.antennaId
      antennaData.srs).tryAssembleSnapshot rnti timestamp).2

/-- `srs_indication_callback`. -/
def srsIndicationCallback (x : SimpleRunOranXapp) (indicationMsg : Bytes) : SimpleRunOranXapp :=
  (parseSrsMessage indicationMsg).foldl
    (fun x ueData => ueData.antennaData.foldl (onAntenna ueData.rnti ueData.timestamp) x) x

/-- `timing_advance_indication_callback`. -/
def timingAdvanceIndicationCallback (x : SimpleRunOranXapp) (indicationMsg : Bytes) :
    SimpleRunOranXapp :=
  (parseTimingAdvanceMessage indicationMsg).foldl storeTimingAdvance x

end SimpleRunOranXapp

/-! ## Messages as sequences of items -/

theorem signedHalf_toNat (half : BitVec 16) : signedHalf half.toNat = half.toInt := by
  have hlt := half.isLt
  have hbit : half.toNat &&& 0x8000 = (half.toNat / 2 ^ 15 % 2) * 2 ^ 15 := by
    have h := Nat.and_two_pow half.toNat 15
    rw [Nat.toNat_testBit] at h
    exact h
  rw [signedHalf, hbit, BitVec.toInt_eq_toNat_cond]
  split <;> split <;> omega

/-- The xApp unpacks a word as the DU does. -/
theorem unpackIqSamples_eq (packedSamples : List UInt32) :
    unpackIqSamples packedSamples = packedSamples.map unpackIqSample := by
  apply List.map_congr_left
  intro packed _
  have hmask : ∀ n : Nat, n &&& 0xFFFF = n % 2 ^ 16 := fun n => Nat.and_two_pow_sub_one_eq_mod n 16
  have hhigh : (packed.toNat >>> 16) &&& 0xFFFF = (highHalf packed).toNat := by
    have hlt := packed.toNat_lt
    rw [hmask, toNat_highHalf, Nat.shiftRight_eq_div_pow]
    exact Nat.mod_eq_of_lt (by omega)
  have hlow : packed.toNat &&& 0xFFFF = (lowHalf packed).toNat := by
    rw [hmask, toNat_lowHalf]
  simp only [hhigh, hlow, signedHalf_toNat, unpackIqSample]

/-- The stream items of a message, none if it is malformed. -/
def indicationItems (indicationMsg : Bytes) : List SrsStreamItem :=
  let parsed := Pb.SrsIndicationMessage.schema.parse indicationMsg
  if parsed.2 then parsed.1.ueSrsData.flatMap ueItems else []

namespace SimpleRunOranXapp

/-- The loop body on an item. -/
def onItem (x : SimpleRunOranXapp) (item : SrsStreamItem) : SimpleRunOranXapp :=
  onAntenna item.rnti item.timestamp x ⟨item.antennaId, item.generated, item.srs⟩

/-- **The callback handles the items of its message one after the other.** -/
theorem srsIndicationCallback_eq (x : SimpleRunOranXapp) (indicationMsg : Bytes) :
    x.srsIndicationCallback indicationMsg = (indicationItems indicationMsg).foldl onItem x := by
  simp only [srsIndicationCallback, parseSrsMessage, indicationItems]
  split
  · rw [List.foldl_map, List.foldl_flatMap]
    simp only [ueItems, List.foldl_map, onItem, unpackIqSamples_eq]
    rfl
  · rfl

/-! ## What an item does -/

/-- The cached reference of an antenna. -/
def generatedStream (x : SimpleRunOranXapp) (rnti antennaId : UInt32) : Option (List Cf) :=
  (x.generatedSrsCache.getD rnti ∅)[antennaId]?

/-- The received streams that wait under a key. -/
def receivedStreams (x : SimpleRunOranXapp) (key : UInt32 × UInt64) : Streams :=
  x.pendingReceivedSrs.getD key ∅

/-- A snapshot can be assembled from these streams: there are enough of them, and the
first ones have references. -/
def Ready (x : SimpleRunOranXapp) (rnti : UInt32) (received : Streams) : Prop :=
  x.expectedRxAntennas ≤ received.size ∧
    ∀ antennaId ∈ received.keys.take x.expectedRxAntennas,
      (x.generatedStream rnti antennaId).isSome

instance (x : SimpleRunOranXapp) (rnti : UInt32) (received : Streams) :
    Decidable (x.Ready rnti received) :=
  inferInstanceAs (Decidable (_ ∧ _))

/-- The antennas of the snapshot assembled from these streams. -/
def assembled (x : SimpleRunOranXapp) (rnti : UInt32) (received : Streams) :
    List SrsAntennaData :=
  (received.keys.take x.expectedRxAntennas).map fun antennaId =>
    ⟨antennaId, (x.generatedStream rnti antennaId).getD [], received.getD antennaId []⟩

theorem onItem_generated (x : SimpleRunOranXapp) {item : SrsStreamItem}
    (h : item.generated = true) :
    x.onItem item = x.storeGeneratedSrs item.rnti item.antennaId item.srs := by
  simp only [onItem, onAntenna, h, if_pos]

/-- The streams under the key of a received item once it has arrived. -/
def arrived (x : SimpleRunOranXapp) (item : SrsStreamItem) : Streams :=
  (x.receivedStreams item.ueKey).insert item.antennaId item.srs

/-- Assembly, where something waits under the key. -/
theorem tryAssembleSnapshot_eq {x : SimpleRunOranXapp} {rnti : UInt32} {timestamp : UInt64}
    {received : Streams} (h : x.pendingReceivedSrs[(rnti, timestamp)]? = some received)
    (hne : received.isEmpty = false) :
    (x.tryAssembleSnapshot rnti timestamp).2 =
      if x.Ready rnti received then
        { x with
          completedSrsMessages := x.completedSrsMessages ++
            [⟨rnti, timestamp, x.assembled rnti received, x.latestTimingAdvance[rnti]?⟩]
          pendingReceivedSrs := x.pendingReceivedSrs.erase (rnti, timestamp) }
      else x := by
  simp only [tryAssembleSnapshot, h, hne, Bool.false_eq_true, if_false]
  by_cases hsize : received.size < x.expectedRxAntennas
  · rw [if_pos hsize, if_neg fun hready => absurd hready.1 (Nat.not_le.mpr hsize)]
  · rw [if_neg hsize]
    have hcovered : ((received.keys.take x.expectedRxAntennas).any fun antennaId =>
        decide ((x.generatedSrsCache.getD rnti ∅)[antennaId]? = none)) = true ↔
        ¬ x.Ready rnti received := by
      rw [Ready, List.any_eq_true]
      simp only [generatedStream, decide_eq_true_eq, Option.isSome_iff_ne_none, ne_eq, not_and,
        Nat.le_of_not_lt hsize, true_imp_iff, not_forall, not_not, exists_prop]
    by_cases hready : x.Ready rnti received
    · rw [if_neg (mt hcovered.mp (not_not.mpr hready)), if_pos hready]
      simp only [assembled, generatedStream, Std.ExtTreeMap.getD_eq_getD_getElem?]
    · rw [if_pos (hcovered.mpr hready), if_neg hready]

/-- **A received stream joins those that wait under its key. If a snapshot can then be
assembled it is, and nothing waits under the key any more; otherwise they all wait.** -/
theorem onItem_received (x : SimpleRunOranXapp) {item : SrsStreamItem}
    (h : item.generated = false) :
    x.onItem item =
      if x.Ready item.rnti (x.arrived item) then
        { x with
          completedSrsMessages := x.completedSrsMessages ++
            [⟨item.rnti, item.timestamp, x.assembled item.rnti (x.arrived item),
              x.latestTimingAdvance[item.rnti]?⟩]
          pendingReceivedSrs := x.pendingReceivedSrs.erase item.ueKey }
      else
        { x with
          pendingReceivedSrs := x.pendingReceivedSrs.insert item.ueKey (x.arrived item) } := by
  have hstored : (x.storeReceivedSrs item.ueKey item.antennaId item.srs).pendingReceivedSrs =
      x.pendingReceivedSrs.insert item.ueKey (x.arrived item) := rfl
  have hwaits : (x.storeReceivedSrs item.ueKey item.antennaId item.srs).pendingReceivedSrs[
      (item.rnti, item.timestamp)]? = some (x.arrived item) :=
    Std.ExtTreeMap.getElem?_insert_self
  have hne : (x.arrived item).isEmpty = false :=
    Std.ExtTreeMap.isEmpty_eq_false_iff.mpr Std.ExtTreeMap.insert_ne_empty
  have herase : (x.pendingReceivedSrs.insert item.ueKey (x.arrived item)).erase item.ueKey =
      x.pendingReceivedSrs.erase item.ueKey := by
    refine Std.ExtTreeMap.ext_getElem? fun k => ?_
    simp only [Std.ExtTreeMap.getElem?_erase, Std.ExtTreeMap.getElem?_insert]
    split <;> rfl
  have hgenerated : onItem x item = ((x.storeReceivedSrs item.ueKey item.antennaId
      item.srs).tryAssembleSnapshot item.rnti item.timestamp).2 := by
    simp only [onItem, onAntenna, h, Bool.false_eq_true, if_false]
    rfl
  rw [hgenerated, tryAssembleSnapshot_eq hwaits hne]
  -- storing changes neither the cache nor the threshold
  have hready : (x.storeReceivedSrs item.ueKey item.antennaId item.srs).Ready item.rnti
      (x.arrived item) ↔ x.Ready item.rnti (x.arrived item) := Iff.rfl
  by_cases hr : x.Ready item.rnti (x.arrived item)
  · rw [if_pos (hready.mpr hr), if_pos hr, hstored]
    simp only [SrsStreamItem.ueKey] at herase ⊢
    rw [herase]
    rfl
  · rw [if_neg (mt hready.mp hr), if_neg hr]
    rfl

/-! ## Each part of the state after an item -/

@[simp] theorem expectedRxAntennas_onItem (x : SimpleRunOranXapp) (item : SrsStreamItem) :
    (x.onItem item).expectedRxAntennas = x.expectedRxAntennas := by
  cases h : item.generated with
  | true => rw [x.onItem_generated h, storeGeneratedSrs]
  | false =>
    rw [x.onItem_received h]
    split <;> rfl

@[simp] theorem latestTimingAdvance_onItem (x : SimpleRunOranXapp) (item : SrsStreamItem) :
    (x.onItem item).latestTimingAdvance = x.latestTimingAdvance := by
  cases h : item.generated with
  | true => rw [x.onItem_generated h, storeGeneratedSrs]
  | false =>
    rw [x.onItem_received h]
    split <;> rfl

/-- Only a reference changes the cache, and only for its own antenna. -/
theorem generatedStream_onItem (x : SimpleRunOranXapp) (item : SrsStreamItem)
    (rnti antennaId : UInt32) :
    (x.onItem item).generatedStream rnti antennaId =
      if item.generated = true ∧ item.rnti = rnti ∧ item.antennaId = antennaId then some item.srs
      else x.generatedStream rnti antennaId := by
  cases h : item.generated with
  | false =>
    rw [if_neg fun hitem => Bool.false_ne_true hitem.1, x.onItem_received h]
    split <;> rfl
  | true =>
    rw [x.onItem_generated h]
    simp only [generatedStream, storeGeneratedSrs, Std.ExtTreeMap.getD_insert,
      Std.LawfulEqCmp.compare_eq_iff_eq]
    by_cases hr : item.rnti = rnti
    · subst hr
      rw [if_pos rfl, Std.ExtTreeMap.getElem?_insert]
      simp only [Std.LawfulEqCmp.compare_eq_iff_eq, true_and]
    · rw [if_neg hr, if_neg fun hitem => hr hitem.2.1]

theorem pendingReceivedSrs_onItem_generated (x : SimpleRunOranXapp) {item : SrsStreamItem}
    (h : item.generated = true) :
    (x.onItem item).pendingReceivedSrs = x.pendingReceivedSrs := by
  rw [x.onItem_generated h, storeGeneratedSrs]

theorem receivedStreams_onItem_generated (x : SimpleRunOranXapp) {item : SrsStreamItem}
    (h : item.generated = true) (key : UInt32 × UInt64) :
    (x.onItem item).receivedStreams key = x.receivedStreams key := by
  rw [receivedStreams, pendingReceivedSrs_onItem_generated x h, receivedStreams]

/-- A received stream only changes what waits under its own key. -/
theorem receivedStreams_onItem_received (x : SimpleRunOranXapp) {item : SrsStreamItem}
    (h : item.generated = false) (key : UInt32 × UInt64) :
    (x.onItem item).receivedStreams key =
      if item.ueKey = key then
        if x.Ready item.rnti (x.arrived item) then ∅ else x.arrived item
      else x.receivedStreams key := by
  rw [x.onItem_received h]
  by_cases hready : x.Ready item.rnti (x.arrived item)
  · simp only [if_pos hready, receivedStreams, Std.ExtTreeMap.getD_erase,
      Std.LawfulEqCmp.compare_eq_iff_eq]
  · simp only [if_neg hready, receivedStreams, Std.ExtTreeMap.getD_insert,
      Std.LawfulEqCmp.compare_eq_iff_eq]

theorem completedSrsMessages_onItem_generated (x : SimpleRunOranXapp) {item : SrsStreamItem}
    (h : item.generated = true) :
    (x.onItem item).completedSrsMessages = x.completedSrsMessages := by
  rw [x.onItem_generated h, storeGeneratedSrs]

/-- A received stream completes at most one snapshot, under its own key. -/
theorem completedSrsMessages_onItem_received (x : SimpleRunOranXapp) {item : SrsStreamItem}
    (h : item.generated = false) :
    (x.onItem item).completedSrsMessages =
      if x.Ready item.rnti (x.arrived item) then
        x.completedSrsMessages ++ [⟨item.rnti, item.timestamp,
          x.assembled item.rnti (x.arrived item), x.latestTimingAdvance[item.rnti]?⟩]
      else x.completedSrsMessages := by
  rw [x.onItem_received h]
  split <;> rfl

/-- The xApp after a sequence of messages. -/
def onMessages (x : SimpleRunOranXapp) (messages : List Bytes) : SimpleRunOranXapp :=
  messages.foldl srsIndicationCallback x

/-- The xApp after a sequence of items. -/
def onItems (x : SimpleRunOranXapp) (items : List SrsStreamItem) : SimpleRunOranXapp :=
  items.foldl onItem x

@[simp] theorem onItems_nil (x : SimpleRunOranXapp) : x.onItems [] = x := rfl

theorem onItems_append (x : SimpleRunOranXapp) (items items' : List SrsStreamItem) :
    x.onItems (items ++ items') = (x.onItems items).onItems items' := List.foldl_append ..

theorem onItems_concat (x : SimpleRunOranXapp) (items : List SrsStreamItem)
    (item : SrsStreamItem) : x.onItems (items ++ [item]) = (x.onItems items).onItem item :=
  x.onItems_append items [item]

/-- How the items are packed into messages does not matter. -/
theorem onMessages_eq (x : SimpleRunOranXapp) (messages : List Bytes) :
    x.onMessages messages = x.onItems (messages.flatMap indicationItems) := by
  simp only [onMessages, onItems, List.foldl_flatMap, ← srsIndicationCallback_eq]

@[simp] theorem expectedRxAntennas_onItems (x : SimpleRunOranXapp) (items : List SrsStreamItem) :
    (x.onItems items).expectedRxAntennas = x.expectedRxAntennas := by
  induction items using List.reverseRecOn with
  | nil => rfl
  | append_singleton items item ih => rw [onItems_concat, expectedRxAntennas_onItem, ih]

@[simp] theorem latestTimingAdvance_onItems (x : SimpleRunOranXapp)
    (items : List SrsStreamItem) :
    (x.onItems items).latestTimingAdvance = x.latestTimingAdvance := by
  induction items using List.reverseRecOn with
  | nil => rfl
  | append_singleton items item ih => rw [onItems_concat, latestTimingAdvance_onItem, ih]

end SimpleRunOranXapp

end RunOran
