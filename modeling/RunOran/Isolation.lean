import RunOran.Mealy
import RunOran.Xapp

/-!
# Isolation of the UEs in the xApp

What the xApp keeps is keyed by C-RNTI: the references, the streams under assembly, the
timing advances. `SameFor r` relates two xApps that agree on all of it for one C-RNTI `r`.
An item of another UE preserves it when only one of them sees the item, and an item of `r`
when both do (`SameFor.onItem_left`, `SameFor.onItem`), so the snapshots of `r` do not
depend on the SRS entries of other UEs.

With timing advances there are two exceptions, both by design of the parser. An observation
without a C-RNTI is filed under its UE index, which may be `r`; and one source without a
name discards the whole message. `ue_isolation` therefore keeps these two kinds and deletes
all the rest.
-/

namespace RunOran

open Protobuf

/-! ## Messages with entries deleted -/

/-- What the xApp is called with. -/
inductive XappEvent where
  | srsIndication (msg : Bytes)
  | timingAdvanceIndication (msg : Bytes)

/-- The well-formed message `e'` is the well-formed message `e` without the SRS entries of
UEs other than `r` and without the observations outside `keep`. -/
def XappEvent.Deleting (r : UInt32) (keep : Pb.TimingAdvanceData → Bool) (e e' : XappEvent) :
    Prop :=
  match e, e' with
  | .srsIndication msg, .srsIndication msg' =>
    ∃ m, Pb.SrsIndicationMessage.schema.parse msg = (m, true) ∧
      Pb.SrsIndicationMessage.schema.parse msg' =
        (⟨m.ueSrsData.filter fun ue => ue.rnti = r⟩, true)
  | .timingAdvanceIndication msg, .timingAdvanceIndication msg' =>
    ∃ m, Pb.TimingAdvanceIndicationMessage.schema.parse msg = (m, true) ∧
      Pb.TimingAdvanceIndicationMessage.schema.parse msg' =
        (⟨m.timingAdvanceData.filter keep⟩, true)
  | _, _ => False

/-- The key under which the xApp files an observation. -/
def taIdentifier (ta : Pb.TimingAdvanceData) : UInt32 :=
  if ta.rnti = 0 then ta.ueIndex else ta.rnti

/-- An observation that is filed under `r`, or has a source without a name. -/
def concerns (r : UInt32) (ta : Pb.TimingAdvanceData) : Bool :=
  taIdentifier ta = r ∨ TimingAdvanceSource.ofValue? ta.source = none

namespace SimpleRunOranXapp

/-- The two callbacks. -/
def onEvent (x : SimpleRunOranXapp) : XappEvent → SimpleRunOranXapp
  | .srsIndication msg => x.srsIndicationCallback msg
  | .timingAdvanceIndication msg => x.timingAdvanceIndicationCallback msg

/-- The xApp after a sequence of messages of both kinds. -/
def onEvents (x : SimpleRunOranXapp) (events : List XappEvent) : SimpleRunOranXapp :=
  events.foldl onEvent x

/-- The completed snapshots of a UE. -/
def completedOf (x : SimpleRunOranXapp) (r : UInt32) : List Snapshot :=
  x.completedSrsMessages.filter fun snapshot => snapshot.rnti = r

/-! ## Agreement on one UE -/

/-- Two xApps agree on everything they keep for the UE `r`. -/
structure SameFor (r : UInt32) (x y : SimpleRunOranXapp) : Prop where
  expected : x.expectedRxAntennas = y.expectedRxAntennas
  generated : ∀ antennaId, x.generatedStream r antennaId = y.generatedStream r antennaId
  received : ∀ timestamp, x.receivedStreams (r, timestamp) = y.receivedStreams (r, timestamp)
  latest : x.latestTimingAdvance[r]? = y.latestTimingAdvance[r]?
  completed : x.completedOf r = y.completedOf r

theorem SameFor.refl (r : UInt32) (x : SimpleRunOranXapp) : SameFor r x x :=
  ⟨rfl, fun _ => rfl, fun _ => rfl, rfl, rfl⟩

theorem SameFor.ready_iff {r : UInt32} {x y : SimpleRunOranXapp} (h : SameFor r x y)
    (received : Streams) : x.Ready r received ↔ y.Ready r received := by
  simp only [Ready, h.expected, h.generated]

theorem SameFor.assembled {r : UInt32} {x y : SimpleRunOranXapp} (h : SameFor r x y)
    (received : Streams) : x.assembled r received = y.assembled r received := by
  simp only [SimpleRunOranXapp.assembled, h.expected, h.generated]

/-- An item of another UE is not noticed. -/
theorem SameFor.onItem_left {r : UInt32} {x y : SimpleRunOranXapp} (h : SameFor r x y)
    {item : SrsStreamItem} (hitem : item.rnti ≠ r) : SameFor r (x.onItem item) y := by
  have hkey : ∀ timestamp, item.ueKey ≠ (r, timestamp) :=
    fun timestamp heq => hitem (congrArg Prod.fst heq)
  refine ⟨?_, fun antennaId => ?_, fun timestamp => ?_, ?_, ?_⟩
  · rw [expectedRxAntennas_onItem, h.expected]
  · rw [generatedStream_onItem, if_neg fun hsame => hitem hsame.2.1, h.generated]
  · cases hgen : item.generated with
    | true => rw [receivedStreams_onItem_generated x hgen, h.received]
    | false => rw [receivedStreams_onItem_received x hgen, if_neg (hkey timestamp), h.received]
  · rw [latestTimingAdvance_onItem, h.latest]
  · rw [← h.completed, completedOf, completedOf]
    cases hgen : item.generated with
    | true => rw [completedSrsMessages_onItem_generated x hgen]
    | false =>
      rw [completedSrsMessages_onItem_received x hgen]
      split
      · rw [List.filter_append, List.filter_cons_of_neg (by simpa using hitem), List.filter_nil,
          List.append_nil]
      · rfl

/-- An item of the UE itself has the same effect on both. -/
theorem SameFor.onItem {r : UInt32} {x y : SimpleRunOranXapp} (h : SameFor r x y)
    {item : SrsStreamItem} (hitem : item.rnti = r) :
    SameFor r (x.onItem item) (y.onItem item) := by
  subst hitem
  have harrived : x.arrived item = y.arrived item := by
    rw [arrived, arrived, SrsStreamItem.ueKey, h.received]
  have hready := h.ready_iff (y.arrived item)
  refine ⟨?_, fun antennaId => ?_, fun timestamp => ?_, ?_, ?_⟩
  · rw [expectedRxAntennas_onItem, expectedRxAntennas_onItem, h.expected]
  · rw [generatedStream_onItem, generatedStream_onItem, h.generated]
  · cases hgen : item.generated with
    | true =>
      rw [receivedStreams_onItem_generated x hgen, receivedStreams_onItem_generated y hgen,
        h.received]
    | false =>
      simp only [receivedStreams_onItem_received _ hgen, harrived, hready, h.received]
  · rw [latestTimingAdvance_onItem, latestTimingAdvance_onItem, h.latest]
  · have hcompleted := h.completed
    cases hgen : item.generated with
    | true =>
      rw [completedOf, completedSrsMessages_onItem_generated x hgen, completedOf,
        completedSrsMessages_onItem_generated y hgen]
      exact hcompleted
    | false =>
      simp only [completedOf] at hcompleted
      simp only [completedOf, completedSrsMessages_onItem_received _ hgen, harrived, hready,
        h.assembled, h.latest]
      split
      · rw [List.filter_append, List.filter_append, hcompleted]
      · exact hcompleted

/-- So with observations: what is filed under another key is not noticed. -/
theorem SameFor.storeTimingAdvance_left {r : UInt32} {x y : SimpleRunOranXapp}
    (h : SameFor r x y) {observation : TaObservation} (hr : observation.rnti ≠ r) :
    SameFor r (x.storeTimingAdvance observation) y := by
  refine ⟨h.expected, h.generated, h.received, ?_, h.completed⟩
  rw [← h.latest, storeTimingAdvance, Std.ExtTreeMap.getElem?_insert,
    if_neg (by simpa using hr)]

theorem SameFor.storeTimingAdvance {r : UInt32} {x y : SimpleRunOranXapp} (h : SameFor r x y)
    (observation : TaObservation) :
    SameFor r (x.storeTimingAdvance observation) (y.storeTimingAdvance observation) := by
  refine ⟨h.expected, h.generated, h.received, ?_, h.completed⟩
  simp only [SimpleRunOranXapp.storeTimingAdvance, Std.ExtTreeMap.getElem?_insert, h.latest]

end SimpleRunOranXapp

/-! ## Messages -/

/-- Deleting the entries of other UEs deletes their items. -/
theorem flatMap_ueItems_filter (r : UInt32) (ues : List Pb.UeSrsData) :
    (ues.filter fun ue => ue.rnti = r).flatMap ueItems =
      (ues.flatMap ueItems).filter fun item => item.rnti = r := by
  induction ues with
  | nil => rfl
  | cons ue ues ih =>
    rw [List.flatMap_cons, List.filter_append, ← ih]
    have hrnti : ∀ item ∈ ueItems ue, item.rnti = ue.rnti := by
      intro item hitem
      obtain ⟨ant, -, rfl⟩ := List.mem_map.mp hitem
      rfl
    by_cases hue : ue.rnti = r
    · have hall : (ueItems ue).filter (fun item => item.rnti = r) = ueItems ue :=
        List.filter_eq_self.mpr fun item hitem => by simpa [hrnti item hitem] using hue
      rw [List.filter_cons_of_pos (by simpa using hue), List.flatMap_cons, hall]
    · have hnone : (ueItems ue).filter (fun item => item.rnti = r) = [] :=
        List.filter_eq_nil_iff.mpr fun item hitem => by simpa [hrnti item hitem] using hue
      rw [List.filter_cons_of_neg (by simpa using hue), hnone, List.nil_append]

/-- The observation of an entry, if its source has a name. -/
def taObservation (ta : Pb.TimingAdvanceData) : Option TaObservation :=
  (TimingAdvanceSource.ofValue? ta.source).map fun source =>
    ⟨taIdentifier ta, ta.ueIndex, ta.timestamp, ta.timingAdvance, source, ta.attached⟩

/-- A source without a name is kept, so the rest of the message stays discarded or not. -/
theorem mapM_taObservation_filter (r : UInt32) (tas : List Pb.TimingAdvanceData) :
    (tas.filter (concerns r)).mapM taObservation =
      (tas.mapM taObservation).map fun observations =>
        observations.filter fun observation => observation.rnti = r := by
  induction tas with
  | nil => rfl
  | cons ta tas ih =>
    cases hsource : TimingAdvanceSource.ofValue? ta.source with
    | none =>
      have hobservation : taObservation ta = none := by
        rw [taObservation, hsource, Option.map_none]
      rw [List.filter_cons_of_pos (by simp [concerns, hsource]), List.mapM_cons, List.mapM_cons,
        hobservation]
      rfl
    | some source =>
      have hobservation : taObservation ta = some ⟨taIdentifier ta, ta.ueIndex, ta.timestamp,
          ta.timingAdvance, source, ta.attached⟩ := by
        rw [taObservation, hsource, Option.map_some]
      by_cases hr : taIdentifier ta = r
      · rw [List.filter_cons_of_pos (by simp [concerns, hr]), List.mapM_cons, List.mapM_cons,
          hobservation, ih]
        cases tas.mapM taObservation with
        | none => rfl
        | some observations => simp [hr]
      · rw [List.filter_cons_of_neg (by simp [concerns, hr, hsource]), List.mapM_cons,
          hobservation, ih]
        cases tas.mapM taObservation with
        | none => rfl
        | some observations => simp [hr]

theorem parseTimingAdvanceMessage_eq {msg : Bytes} {m : Pb.TimingAdvanceIndicationMessage}
    (h : Pb.TimingAdvanceIndicationMessage.schema.parse msg = (m, true)) :
    parseTimingAdvanceMessage msg = (m.timingAdvanceData.mapM taObservation).getD [] := by
  simp only [parseTimingAdvanceMessage, h, if_pos]
  rfl

namespace SimpleRunOranXapp

/-- A message and the same message with entries of other UEs deleted keep two xApps in
agreement. -/
theorem SameFor.onEvent {r : UInt32} {x y : SimpleRunOranXapp} {e e' : XappEvent}
    (h : SameFor r x y) (he : e.Deleting r (concerns r) e') :
    SameFor r (x.onEvent e) (y.onEvent e') := by
  cases e with
  | srsIndication msg =>
    cases e' with
    | timingAdvanceIndication msg' => exact he.elim
    | srsIndication msg' =>
      obtain ⟨m, hmsg, hmsg'⟩ := he
      have hitems : indicationItems msg' =
          (indicationItems msg).filter fun item => item.rnti = r := by
        simp only [indicationItems, hmsg, hmsg', if_pos, flatMap_ueItems_filter]
      simp only [SimpleRunOranXapp.onEvent, srsIndicationCallback_eq, hitems]
      refine Mealy.foldl_filter (fun x y item hitem h => h.onItem_left ?_)
        (fun x y item hitem h => h.onItem ?_) _ h
      · simpa using hitem
      · simpa using hitem
  | timingAdvanceIndication msg =>
    cases e' with
    | srsIndication msg' => exact he.elim
    | timingAdvanceIndication msg' =>
      obtain ⟨m, hmsg, hmsg'⟩ := he
      have hobservations : parseTimingAdvanceMessage msg' =
          (parseTimingAdvanceMessage msg).filter fun observation => observation.rnti = r := by
        rw [parseTimingAdvanceMessage_eq hmsg, parseTimingAdvanceMessage_eq hmsg',
          mapM_taObservation_filter]
        cases m.timingAdvanceData.mapM taObservation <;> rfl
      simp only [SimpleRunOranXapp.onEvent, timingAdvanceIndicationCallback, hobservations]
      refine Mealy.foldl_filter (fun x y observation ho h => h.storeTimingAdvance_left ?_)
        (fun x y observation _ h => h.storeTimingAdvance observation) _ h
      simpa using ho

theorem SameFor.onEvents {r : UInt32} {events events' : List XappEvent}
    (hevents : List.Forall₂ (XappEvent.Deleting r (concerns r)) events events') :
    ∀ {x y : SimpleRunOranXapp}, SameFor r x y →
      SameFor r (x.onEvents events) (y.onEvents events') := by
  induction hevents with
  | nil => exact fun h => h
  | cons he _ ih => exact fun h => ih (h.onEvent he)

/-- **Isolation.** The completed snapshots of a UE, timing advances included, do not change
when the SRS entries of other UEs are deleted from the messages, and with them the
observations that have a source with a name and are filed under another identifier. -/
theorem ue_isolation (numRxAntennas : ℤ) (r : UInt32) {events events' : List XappEvent}
    (hevents : List.Forall₂ (XappEvent.Deleting r (concerns r)) events events') :
    ((init numRxAntennas).onEvents events).completedOf r =
      ((init numRxAntennas).onEvents events').completedOf r :=
  (SameFor.onEvents hevents (SameFor.refl r _)).completed

/-- A snapshot of the UE `r` with empty streams. -/
def emptySnapshot (r : UInt32) : List SrsStreamItem :=
  [⟨r, 1000, 0, true, []⟩, ⟨r, 1000, 0, false, []⟩]

/-- The messages of one antenna: observations, then stream items. -/
def taThenSrs (tas : List Pb.TimingAdvanceData) (items : List SrsStreamItem) : List XappEvent :=
  [.timingAdvanceIndication (Pb.TimingAdvanceIndicationMessage.schema.encode ⟨tas⟩),
    .srsIndication (serializeSrsIndication items)]

/-- Two UEs; the observation and the streams of the other one are deleted. -/
theorem ue_isolation_two_ues :
    ((init 1).onEvents (taThenSrs [⟨18, 5, 7, 1, true, 4⟩, ⟨17, 6, 8, 2, true, 3⟩]
        (emptySnapshot 17 ++ emptySnapshot 18))).completedOf 17 =
      [⟨17, 1000, [⟨0, [], []⟩], some ⟨17, 3, 6, 8, .connectedUe, true⟩⟩] := by
  have hsame : List.Forall₂ (XappEvent.Deleting 17 (concerns 17))
      (taThenSrs [⟨18, 5, 7, 1, true, 4⟩, ⟨17, 6, 8, 2, true, 3⟩]
        (emptySnapshot 17 ++ emptySnapshot 18))
      (taThenSrs [⟨17, 6, 8, 2, true, 3⟩] (emptySnapshot 17)) := by
    refine .cons ⟨⟨[⟨18, 5, 7, 1, true, 4⟩, ⟨17, 6, 8, 2, true, 3⟩]⟩, ?_, ?_⟩
      (.cons ⟨indicationMessage (emptySnapshot 17 ++ emptySnapshot 18), ?_, ?_⟩ .nil) <;>
      decide +kernel
  rw [ue_isolation 1 17 hsame]
  decide +kernel

/-- Other UEs do reach the snapshots of a UE in the two ways that the parser provides for: an
observation without a C-RNTI whose UE index is 17, and a source without a name, which takes
the observation of UE 17 with it. -/
theorem other_ues_reach_snapshots :
    (List.Forall₂ (XappEvent.Deleting 17 fun ta => ta.rnti = 17)
        (taThenSrs [⟨0, 5, 7, 1, true, 17⟩] (emptySnapshot 17))
        (taThenSrs [] (emptySnapshot 17)) ∧
      ((init 1).onEvents (taThenSrs [⟨0, 5, 7, 1, true, 17⟩] (emptySnapshot 17))).completedOf 17 ≠
        ((init 1).onEvents (taThenSrs [] (emptySnapshot 17))).completedOf 17) ∧
    List.Forall₂ (XappEvent.Deleting 17 fun ta => ta.rnti = 17)
        (taThenSrs [⟨17, 6, 8, 2, true, 3⟩, ⟨18, 5, 7, 9, true, 4⟩] (emptySnapshot 17))
        (taThenSrs [⟨17, 6, 8, 2, true, 3⟩] (emptySnapshot 17)) ∧
      ((init 1).onEvents (taThenSrs [⟨17, 6, 8, 2, true, 3⟩, ⟨18, 5, 7, 9, true, 4⟩]
          (emptySnapshot 17))).completedOf 17 ≠
        ((init 1).onEvents (taThenSrs [⟨17, 6, 8, 2, true, 3⟩]
          (emptySnapshot 17))).completedOf 17 := by
  refine ⟨⟨?_, ?_⟩, ?_, ?_⟩
  · refine .cons ⟨⟨[⟨0, 5, 7, 1, true, 17⟩]⟩, ?_, ?_⟩
      (.cons ⟨indicationMessage (emptySnapshot 17), ?_, ?_⟩ .nil) <;>
      decide +kernel
  · decide +kernel
  · refine .cons ⟨⟨[⟨17, 6, 8, 2, true, 3⟩, ⟨18, 5, 7, 9, true, 4⟩]⟩, ?_, ?_⟩
      (.cons ⟨indicationMessage (emptySnapshot 17), ?_, ?_⟩ .nil) <;>
      decide +kernel
  · decide +kernel

end SimpleRunOranXapp

end RunOran
