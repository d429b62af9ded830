import RunOran.Observations
import RunOran.Sharing

/-!
# The whole system

On `start` the xApp subscribes to timing advances and to SRS, so the node runs two services. They
have no source in common, and each goes through its own calls as if it were alone: the node
simulates `TaReporting` and `Du` side by side (`TaPipeline`, `DuPipeline`). The xApp gets the
messages of both, each stream in its own order and one stream anywhere between the other.

Timing advances only decorate snapshots. Erasing them commutes with everything the xApp does
(`withoutTimingAdvances_run`), so the snapshots are those of the SRS messages alone, and the chain
from the collector to the xApp stays exactly-once with timing advances in between
(`system_delivers`).
-/

namespace RunOran

open Protobuf

/-! ## Subscriptions -/

/-- What `subscribe` is called with. -/
structure SubscriptionRequest where
  ranFunctionId : Nat
  eventTriggerDef : Bytes
  actionDef : Bytes

namespace SimpleRunOranXapp

/-- `SRS_RAN_FUNCTION_ID`. -/
def srsRanFunctionId : Nat := 5

/-- `SUBSCRIPTION_REPORT_PERIOD_MS`. -/
def subscriptionReportPeriodMs : UInt8 := 20

/-- `subscribe_timing_advance_indication`. -/
def subscribeTimingAdvanceIndication : SubscriptionRequest :=
  ⟨srsRanFunctionId, [subscriptionReportPeriodMs], [1]⟩

/-- `subscribe_srs_indication`. -/
def subscribeSrsIndication : SubscriptionRequest :=
  ⟨srsRanFunctionId, [subscriptionReportPeriodMs], [2]⟩

/-- `start`: the subscriptions that it makes, in order. -/
def start : List SubscriptionRequest :=
  [subscribeTimingAdvanceIndication, subscribeSrsIndication]

end SimpleRunOranXapp

/-! ## The two pipelines of a node -/

/-- What an event is to the only timing-advance service of a node, the `i`-th. -/
def NodeEvent.taCalls (i : Nat) : NodeEvent → List TaCall
  | .pushTaIndication record => [.pushTaIndication record]
  | .collectMeasurements j => if j = i then [.collectMeasurements] else []
  | .isIndMsgReady j => if j = i then [.isIndMsgReady] else []
  | .getIndicationMessage j appendOk => if j = i then [.getIndicationMessage appendOk] else []
  | .addSrsData _ => []

/-- What an event is to the only SRS service of a node, the `i`-th. -/
def NodeEvent.duEvents (i : Nat) : NodeEvent → List DuEvent
  | .addSrsData call => [.addSrsData call]
  | .collectMeasurements j => if j = i then [.collectMeasurements] else []
  | .getIndicationMessage j appendOk => if j = i then [.getIndicationMessage appendOk] else []
  | _ => []

namespace Node

/-- The `i`-th service and the store are as `t` has them, and no other service drains the store. -/
structure TaPipeline (i : Nat) (node : Node) (t : TaReporting) : Prop where
  service : node.services[i]? = some (.ta t.service)
  taRecords : node.taRecords = t.taRecords
  only : ∀ j, node.kindOf j = some .timingAdvance → j = i

/-- The `i`-th service and the collector are as `d` has them, and no other service drains the
collector. -/
structure DuPipeline (i : Nat) (node : Node) (d : Du) : Prop where
  service : node.services[i]? = some (.srs d.service)
  collector : node.collector = d.collector
  only : ∀ j, node.kindOf j = some .srs → j = i

variable {i : Nat} {node : Node}

theorem TaPipeline.step {t : TaReporting} (h : TaPipeline i node t) (event : NodeEvent) :
    TaPipeline i (node.step event).1 (Mealy.exec TaReporting.step t (event.taCalls i)) := by
  have honly : ∀ j, (node.step event).1.kindOf j = some .timingAdvance → j = i := by
    intro j hj
    rw [kindOf_step] at hj
    exact h.only j hj
  refine ⟨?_, ?_, honly⟩
  · rw [getElem?_services_step, h.service]
    cases event with
    | collectMeasurements j =>
      by_cases hij : j = i
      · simp only [hij, if_pos, NodeEvent.taCalls, h.taRecords]
        rfl
      · simp only [hij, if_false, NodeEvent.taCalls]
        rfl
    | isIndMsgReady j =>
      simp only [NodeEvent.taCalls]
      split <;> rfl
    | getIndicationMessage j appendOk =>
      by_cases hij : j = i
      · simp only [hij, if_pos, NodeEvent.taCalls]
        rfl
      · simp only [hij, if_false, NodeEvent.taCalls]
        rfl
    | _ => rfl
  · cases event with
    | addSrsData call => exact h.taRecords
    | pushTaIndication record => exact congrArg (· ++ [record]) h.taRecords
    | collectMeasurements j =>
      by_cases hij : j = i
      · subst hij
        simp only [Node.step, collectMeasurements_of_some h.service, NodeEvent.taCalls, if_pos]
        rfl
      · obtain ⟨-, hsame⟩ := node.stores_collectMeasurements j
        rw [NodeEvent.taCalls, if_neg hij]
        exact (hsame fun hkind => hij (h.only j hkind)).trans h.taRecords
    | isIndMsgReady j =>
      simp only [NodeEvent.taCalls]
      split <;> exact h.taRecords
    | getIndicationMessage j appendOk =>
      obtain ⟨-, hsame⟩ := node.stores_getIndicationMessage j appendOk
      refine (hsame.trans h.taRecords).trans ?_
      rw [NodeEvent.taCalls]
      split <;> rfl

theorem DuPipeline.step {d : Du} (h : DuPipeline i node d) (event : NodeEvent) :
    DuPipeline i (node.step event).1 (Mealy.exec Du.step d (event.duEvents i)) := by
  have honly : ∀ j, (node.step event).1.kindOf j = some .srs → j = i := by
    intro j hj
    rw [kindOf_step] at hj
    exact h.only j hj
  refine ⟨?_, ?_, honly⟩
  · rw [getElem?_services_step, h.service]
    cases event with
    | collectMeasurements j =>
      by_cases hij : j = i
      · simp only [hij, if_pos, NodeEvent.duEvents, h.collector]
        rfl
      · simp only [hij, if_false, NodeEvent.duEvents]
        rfl
    | getIndicationMessage j appendOk =>
      by_cases hij : j = i
      · simp only [hij, if_pos, NodeEvent.duEvents]
        rfl
      · simp only [hij, if_false, NodeEvent.duEvents]
        rfl
    | _ => rfl
  · cases event with
    | addSrsData call => exact congrArg (fun c => c.addSrsData call) h.collector
    | pushTaIndication record => exact h.collector
    | collectMeasurements j =>
      by_cases hij : j = i
      · subst hij
        simp only [Node.step, collectMeasurements_of_some h.service, NodeEvent.duEvents, if_pos,
          h.collector]
        rfl
      · obtain ⟨hsame, -⟩ := node.stores_collectMeasurements j
        rw [NodeEvent.duEvents, if_neg hij]
        exact (hsame fun hkind => hij (h.only j hkind)).trans h.collector
    | isIndMsgReady j => exact h.collector
    | getIndicationMessage j appendOk =>
      obtain ⟨hsame, -⟩ := node.stores_getIndicationMessage j appendOk
      refine (hsame.trans h.collector).trans ?_
      rw [NodeEvent.duEvents]
      split <;> rfl

/-- The peer of the service sees its messages. -/
theorem TaPipeline.message {t : TaReporting} (h : TaPipeline i node t) (event : NodeEvent) :
    messageOf i event (node.step event).2 =
      Mealy.observe TaReporting.step (fun _ result => result.messages) t (event.taCalls i) := by
  cases event with
  | getIndicationMessage j appendOk =>
    by_cases hij : j = i
    · subst hij
      simp only [Node.step, getIndicationMessage, h.service, NodeEvent.taCalls, if_pos]
      exact if_pos rfl
    · simp only [NodeEvent.taCalls, if_neg hij]
      exact sentTo_of_ne hij appendOk _
  | collectMeasurements j =>
    simp only [NodeEvent.taCalls]
    split <;> rfl
  | isIndMsgReady j =>
    simp only [NodeEvent.taCalls]
    split <;> rfl
  | _ => rfl

theorem DuPipeline.message {d : Du} (h : DuPipeline i node d) (event : NodeEvent) :
    messageOf i event (node.step event).2 =
      Mealy.observe Du.step (fun _ result => result.messages) d (event.duEvents i) := by
  cases event with
  | getIndicationMessage j appendOk =>
    by_cases hij : j = i
    · subst hij
      simp only [Node.step, getIndicationMessage, h.service, NodeEvent.duEvents, if_pos]
      exact if_pos rfl
    · simp only [NodeEvent.duEvents, if_neg hij]
      exact sentTo_of_ne hij appendOk _
  | collectMeasurements j =>
    simp only [NodeEvent.duEvents]
    split <;> rfl
  | _ => rfl

/-- **The only timing-advance service of a node is one by itself.** -/
theorem TaPipeline.messagesOf {t : TaReporting} (h : TaPipeline i node t)
    (events : List NodeEvent) : node.messagesOf i events =
      Mealy.observe TaReporting.step (fun _ result => result.messages) t
        (events.flatMap (NodeEvent.taCalls i)) :=
  Mealy.observe_simulation (fun _ _ event h => h.step event) (fun _ _ event h => h.message event)
    events h

/-- **The only SRS service of a node is one by itself**, together with the collector. -/
theorem DuPipeline.run {d : Du} (h : DuPipeline i node d) (events : List NodeEvent) :
    DuPipeline i (Mealy.exec Node.step node events)
      (d.run (events.flatMap (NodeEvent.duEvents i))) :=
  Mealy.exec_simulation (fun _ _ event h => h.step event) events h

theorem DuPipeline.messagesOf {d : Du} (h : DuPipeline i node d) (events : List NodeEvent) :
    node.messagesOf i events = d.messages (events.flatMap (NodeEvent.duEvents i)) :=
  Mealy.observe_simulation (fun _ _ event h => h.step event) (fun _ _ event h => h.message event)
    events h

/-- The node to which the xApp has subscribed. -/
def started (config : GnbSrsConfig) : Node :=
  init config (SimpleRunOranXapp.start.map SubscriptionRequest.actionDef)

theorem taPipeline_started (config : GnbSrsConfig) :
    TaPipeline 0 (started config) TaReporting.init := by
  refine ⟨rfl, rfl, fun j hj => ?_⟩
  rcases j with _ | _ | j
  · rfl
  · cases hj
  · cases hj

theorem duPipeline_started (config : GnbSrsConfig) :
    DuPipeline 1 (started config) (Du.init config) := by
  refine ⟨rfl, rfl, fun j hj => ?_⟩
  rcases j with _ | _ | j
  · cases hj
  · rfl
  · cases hj

end Node

/-! ## Snapshots without timing advances -/

def Snapshot.withoutTimingAdvance (s : Snapshot) : Snapshot := { s with timingAdvance := none }

/-- The stream items among some arrivals, in order. -/
def streamItems (arrivals : List XappArrival) : List SrsStreamItem :=
  arrivals.filterMap fun
    | .stream item => some item
    | .timingAdvance _ => none

/-- The SRS messages among some events, in order. -/
def srsMessages (events : List XappEvent) : List Bytes :=
  events.filterMap fun
    | .srsIndication msg => some msg
    | .timingAdvanceIndication _ => none

namespace SimpleRunOranXapp

/-- The xApp with all timing advances erased. -/
def withoutTimingAdvances (x : SimpleRunOranXapp) : SimpleRunOranXapp :=
  { x with
    completedSrsMessages := x.completedSrsMessages.map Snapshot.withoutTimingAdvance
    latestTimingAdvance := ∅ }

theorem withoutTimingAdvances_onItem (x : SimpleRunOranXapp) (item : SrsStreamItem) :
    (x.onItem item).withoutTimingAdvances = x.withoutTimingAdvances.onItem item := by
  cases hgen : item.generated with
  | true => rw [onItem_generated _ hgen, onItem_generated _ hgen]; rfl
  | false =>
    rw [onItem_received _ hgen, onItem_received _ hgen]
    -- readiness and the streams that have arrived do not depend on timing advances
    have hready : x.withoutTimingAdvances.Ready item.rnti (x.withoutTimingAdvances.arrived item) ↔
        x.Ready item.rnti (x.arrived item) := Iff.rfl
    by_cases hr : x.Ready item.rnti (x.arrived item)
    · rw [if_pos hr, if_pos (hready.mpr hr)]
      simp only [withoutTimingAdvances, List.map_append, List.map_cons, List.map_nil,
        Std.ExtTreeMap.getElem?_empty]
      rfl
    · rw [if_neg hr, if_neg (mt hready.mp hr)]
      rfl

/-- **Without timing advances the xApp does what it does without their messages.** -/
theorem withoutTimingAdvances_run (arrivals : List XappArrival) :
    ∀ x : SimpleRunOranXapp, (x.run arrivals).withoutTimingAdvances =
      x.withoutTimingAdvances.onItems (streamItems arrivals) := by
  induction arrivals with
  | nil => exact fun _ => rfl
  | cons arrival arrivals ih =>
    intro x
    refine (ih (x.step arrival).1).trans ?_
    cases arrival with
    | stream item =>
      rw [step, withoutTimingAdvances_onItem]
      rfl
    | timingAdvance observation => rfl

theorem streamItems_arrivals (events : List XappEvent) :
    streamItems (events.flatMap XappEvent.arrivals) =
      (srsMessages events).flatMap indicationItems := by
  induction events with
  | nil => rfl
  | cons event events ih =>
    rw [List.flatMap_cons, streamItems, List.filterMap_append, ← streamItems, ← streamItems, ih]
    cases event with
    | srsIndication msg =>
      have hall : streamItems (XappEvent.srsIndication msg).arrivals = indicationItems msg := by
        rw [XappEvent.arrivals, streamItems, List.filterMap_map]
        exact List.filterMap_some
      rw [hall]
      rfl
    | timingAdvanceIndication msg =>
      have hnone : streamItems (XappEvent.timingAdvanceIndication msg).arrivals = [] := by
        rw [XappEvent.arrivals, streamItems, List.filterMap_map]
        exact List.filterMap_eq_nil_iff.mpr fun _ _ => rfl
      rw [hnone]
      rfl

theorem withoutTimingAdvances_onEvents (n : ℤ) (events : List XappEvent) :
    ((init n).onEvents events).withoutTimingAdvances =
      (init n).onMessages (srsMessages events) := by
  rw [onEvents_eq, withoutTimingAdvances_run, streamItems_arrivals, onMessages_eq]
  rfl

end SimpleRunOranXapp

/-! ## The system -/

/-- The appends of the service are its own. -/
theorem allAppendsSucceed_duEvents {i : Nat} {events : List NodeEvent}
    (h : .getIndicationMessage i false ∉ events) :
    AllAppendsSucceed (events.flatMap (NodeEvent.duEvents i)) := by
  intro hmem
  obtain ⟨event, hevent, hcall⟩ := List.mem_flatMap.mp hmem
  cases event with
  | getIndicationMessage j appendOk =>
    rw [NodeEvent.duEvents] at hcall
    split at hcall
    · rename_i hij
      rw [hij, ← DuEvent.getIndicationMessage.inj (List.mem_singleton.mp hcall)] at hevent
      exact h hevent
    · cases hcall
  | collectMeasurements j =>
    rw [NodeEvent.duEvents] at hcall
    split at hcall
    · cases List.mem_singleton.mp hcall
    · cases hcall
  | addSrsData call => cases List.mem_singleton.mp hcall
  | pushTaIndication record => cases hcall
  | isIndMsgReady j => cases hcall

/-- **The system delivers.** On a node to which the xApp has subscribed by `start`, let additions,
records and calls on both services come in any order, and let the xApp handle the messages of the
two in any order that keeps each stream. Let each antenna keep its reference, no append of the SRS
service fail, each stream fit a message, and all sources of timing advances have names. Once the
SRS service is drained, the snapshots are, timing advances apart, the records in order, each once,
and nothing waits; what is filed as timing advance is the last record that arrived; and the timing
advance of a snapshot is one that arrived and is filed under its RNTI. -/
theorem system_delivers (config : GnbSrsConfig) (hn : 1 ≤ config.numRxAntennas.toNat)
    (events : List NodeEvent) (xappEvents : List XappEvent)
    (hok : .getIndicationMessage 1 false ∉ events)
    (hrefs : ConstantReferences (events.flatMap (NodeEvent.duEvents 1)))
    (hfits : ∀ item ∈ SrsReportService.recordsItems ∅
      ((Du.init config).records (events.flatMap (NodeEvent.duEvents 1))),
      (encodeSrsIndication [item]).length < 2 ^ 31)
    (hnamed : ∀ record ∈ TaReporting.pushed (events.flatMap (NodeEvent.taCalls 0)),
      record.HasNamedSource)
    (hdrained : ((Mealy.exec Node.step (Node.started config) events).step (.isIndMsgReady 1)).2 =
      .answer false)
    (hta : taMessages xappEvents = (Node.started config).messagesOf 0 events)
    (hsrs : srsMessages xappEvents = (Node.started config).messagesOf 1 events) :
    let arrived := (TaReporting.decoded (events.flatMap (NodeEvent.taCalls 0))).filterMap
      taObservation
    let x := (SimpleRunOranXapp.init config.numRxAntennas.toNat).onEvents xappEvents
    x.completedSrsMessages.map Snapshot.withoutTimingAdvance =
        ((Du.init config).records (events.flatMap (NodeEvent.duEvents 1))).map
          UeSrsData.delivered ∧
      x.pendingReceivedSrs = ∅ ∧
      (∀ identifier, x.latestTimingAdvance[identifier]? = lastFiled identifier arrived) ∧
      ∀ s ∈ x.completedSrsMessages, ∀ observation, s.timingAdvance = some observation →
        observation ∈ arrived ∧ observation.rnti = s.rnti := by
  intro arrived x
  have hdu := Node.duPipeline_started config
  rw [(Node.taPipeline_started config).messagesOf] at hta
  rw [hdu.messagesOf] at hsrs
  have hready : ((Du.init config).run
      (events.flatMap (NodeEvent.duEvents 1))).service.isIndMsgReady = false := by
    rw [Node.step, (hdu.run events).service] at hdrained
    exact NodeResult.answer.inj hdrained
  obtain ⟨hpending, hcompleted⟩ := onMessages_of_drained hn
    (allAppendsSucceed_duEvents hok) hrefs hfits hready
  rw [← hsrs, ← SimpleRunOranXapp.withoutTimingAdvances_onEvents] at hpending hcompleted
  have harrived : observations (xappEvents.flatMap XappEvent.arrivals) = arrived :=
    observations_eq hnamed hta
  refine ⟨hcompleted, hpending, fun identifier => ?_, fun s hs observation hobservation => ?_⟩
  · rw [← harrived, ← SimpleRunOranXapp.latestTimingAdvance_run config.numRxAntennas.toNat,
      ← SimpleRunOranXapp.onEvents_eq]
  · rw [← harrived]
    exact SimpleRunOranXapp.mem_observations_of_completed hs hobservation

/-- One antenna: a timing advance arrives after the reference and before the received stream. -/
theorem system_delivers_one_antenna :
    let events : List NodeEvent := [.pushTaIndication ⟨3, 17, 900, 5, 2, true⟩,
      .addSrsData ⟨17, 0, [⟨.finite 1, .finite 0⟩], [], 1000⟩, .collectMeasurements 1,
      .collectMeasurements 0, .getIndicationMessage 1 true, .getIndicationMessage 0 true,
      .getIndicationMessage 1 true]
    let xappEvents : List XappEvent :=
      [.srsIndication (serializeSrsIndication [⟨17, 1000, 0, true, [⟨.finite 1, .finite 0⟩]⟩]),
        .timingAdvanceIndication (serializeTaIndication [⟨3, 17, 900, 5, 2, true⟩]),
        .srsIndication (serializeSrsIndication [⟨17, 1000, 0, false, []⟩])]
    let node := Node.started ⟨1, 0, 0, ⟨0⟩, ⟨0⟩, ⟨0⟩⟩
    let x := (SimpleRunOranXapp.init 1).onEvents xappEvents
    taMessages xappEvents = node.messagesOf 0 events ∧
      srsMessages xappEvents = node.messagesOf 1 events ∧
      x.completedSrsMessages.map Snapshot.withoutTimingAdvance =
        [⟨17, 1000, [⟨0, [⟨.finite 1, .finite 0⟩], []⟩], none⟩] ∧ x.pendingReceivedSrs = ∅ := by
  intro events xappEvents node x
  have hnamed : ∀ record ∈ TaReporting.pushed (events.flatMap (NodeEvent.taCalls 0)),
      record.HasNamedSource := by
    intro record hrecord
    have hone : TaReporting.pushed (events.flatMap (NodeEvent.taCalls 0)) =
        [⟨3, 17, 900, 5, 2, true⟩] := by decide +kernel
    rw [hone, List.mem_singleton] at hrecord
    rw [hrecord]
    rfl
  have hta : taMessages xappEvents = node.messagesOf 0 events := by decide +kernel
  have hsrs : srsMessages xappEvents = node.messagesOf 1 events := by decide +kernel
  obtain ⟨hcompleted, hpending, -, -⟩ := system_delivers ⟨1, 0, 0, ⟨0⟩, ⟨0⟩, ⟨0⟩⟩ (by decide)
    events xappEvents (by decide) (by decide +kernel) (by decide +kernel) hnamed
    (by decide +kernel) hta hsrs
  refine ⟨hta, hsrs, hcompleted.trans ?_, hpending⟩
  decide +kernel

end RunOran
