import RunOran.ReportService

/-!
# Several subscriptions on one node

`e2sm_runOran_impl` creates one report service per subscription, by the first byte of its
action definition. The services have private queues but common sources: all SRS services
drain the one collector, all timing-advance services drain the one store. A drain is
destructive, so what one service collects another of its kind never sees
(`second_subscription_starves`).

This is the only way in which services disturb each other: with the collections of its own
kind left in place, every other call on the other services can be deleted without a
change in what a service sends (`subscriptions_isolated`).
-/

namespace RunOran

open Protobuf

/-! ## The node -/

/-- The kinds of report service. -/
inductive ServiceKind where
  | timingAdvance
  | srs
  | null
  deriving DecidableEq

/-- The services behind `e2sm_report_service`. -/
inductive ReportService where
  | ta (s : TaReportService)
  | srs (s : SrsReportService)
  | null
  deriving DecidableEq

namespace ReportService

def kind : ReportService → ServiceKind
  | .ta _ => .timingAdvance
  | .srs _ => .srs
  | .null => .null

/-- `is_ind_msg_ready`. -/
def isIndMsgReady : ReportService → Bool
  | .ta s => s.isIndMsgReady
  | .srs s => s.isIndMsgReady
  | .null => false

/-- `collect_measurements`: what it returns, the service, and the sources it leaves behind. -/
def collectMeasurements (c : SrsDataCollector) (taRecords : List TaIndicationRecord) :
    ReportService → Bool × ReportService × SrsDataCollector × List TaIndicationRecord
  | .ta _ =>
    let collected := TaReportService.collectMeasurements taRecords
    (collected.1, .ta collected.2.1, c, collected.2.2)
  | .srs s =>
    let collected := s.collectMeasurements c
    (collected.1, .srs collected.2.1, collected.2.2, taRecords)
  | .null => (false, .null, c, taRecords)

/-- `get_indication_message`. -/
def getIndicationMessage (appendOk : Bool) : ReportService → Bytes × ReportService
  | .ta s => ((s.getIndicationMessage appendOk).1, .ta (s.getIndicationMessage appendOk).2)
  | .srs s => ((s.getIndicationMessage appendOk).1, .srs (s.getIndicationMessage appendOk).2)
  | .null => ([], .null)

end ReportService

/-- `e2sm_runOran_impl::get_e2sm_report_service`. -/
def getE2smReportService (actionDefinition : Bytes) : ReportService :=
  -- the first byte of the action definition decides
  match actionDefinition with
  | 0x01 :: _ => .ta ⟨[]⟩
  | 0x02 :: _ => .srs SrsReportService.init
  | _ => .null

/-- The collector, the timing-advance store and the services of the live subscriptions. -/
structure Node where
  collector : SrsDataCollector
  taRecords : List TaIndicationRecord
  services : List ReportService
  deriving DecidableEq

/-- What happens on a node; a service is named by its place in the list. -/
inductive NodeEvent where
  | addSrsData (call : AddCall)
  | pushTaIndication (record : TaIndicationRecord)
  | collectMeasurements (i : Nat)
  | isIndMsgReady (i : Nat)
  | getIndicationMessage (i : Nat) (appendOk : Bool)
  deriving DecidableEq

/-- What a call on a service returns. -/
inductive NodeResult where
  | none
  | answer (b : Bool)
  | message (bytes : Bytes)
  deriving DecidableEq

namespace Node

/-- A node with a service for each action definition. -/
def init (config : GnbSrsConfig) (actionDefinitions : List Bytes) : Node :=
  ⟨SrsDataCollector.init config, [], actionDefinitions.map getE2smReportService⟩

/-- `collect_measurements` on the `i`-th service. -/
def collectMeasurements (node : Node) (i : Nat) : Node × NodeResult :=
  match node.services[i]? with
  | some service =>
    let collected := service.collectMeasurements node.collector node.taRecords
    (⟨collected.2.2.1, collected.2.2.2, node.services.set i collected.2.1⟩, .answer collected.1)
  | none => (node, .none)

/-- `get_indication_message` on the `i`-th service. -/
def getIndicationMessage (node : Node) (i : Nat) (appendOk : Bool) : Node × NodeResult :=
  match node.services[i]? with
  | some service =>
    ({ node with services := node.services.set i (service.getIndicationMessage appendOk).2 },
      .message (service.getIndicationMessage appendOk).1)
  | none => (node, .none)

/-- One event. -/
def step (node : Node) : NodeEvent → Node × NodeResult
  | .addSrsData call => ({ node with collector := node.collector.addSrsData call }, .none)
  | .pushTaIndication record => ({ node with taRecords := node.taRecords ++ [record] }, .none)
  | .collectMeasurements i => node.collectMeasurements i
  | .isIndMsgReady i =>
    (node, match node.services[i]? with
      | some service => .answer service.isIndMsgReady
      | none => .none)
  | .getIndicationMessage i appendOk => node.getIndicationMessage i appendOk

/-- What the peer of the `i`-th subscription sees of an event: the messages of its service. -/
def messageOf (i : Nat) : NodeEvent → NodeResult → List Bytes
  | .getIndicationMessage j _, .message bytes => if j = i then [bytes] else []
  | _, _ => []

/-- The indication messages of the `i`-th service in a run. -/
def messagesOf (node : Node) (i : Nat) (events : List NodeEvent) : List Bytes :=
  Mealy.observe step (messageOf i) node events

/-- The kind of the `i`-th service. -/
def kindOf (node : Node) (i : Nat) : Option ServiceKind := node.services[i]?.map ReportService.kind

/-- The events left when all calls on services other than the `i`-th are deleted. -/
def ownTo (i : Nat) : NodeEvent → Bool
  | .addSrsData _ => true
  | .pushTaIndication _ => true
  | .collectMeasurements j => j = i
  | .isIndMsgReady j => j = i
  | .getIndicationMessage j _ => j = i

/-- The events left for the `i`-th service when the calls on the others are deleted, the
collections of its own kind excepted. -/
def relevantTo (node : Node) (i : Nat) : NodeEvent → Bool
  | .addSrsData _ => true
  | .pushTaIndication _ => true
  | .collectMeasurements j => j = i ∨ node.kindOf j = node.kindOf i
  | .isIndMsgReady j => j = i
  | .getIndicationMessage j _ => j = i

/-! ## Unwinding -/

/-- Two nodes look the same to the `i`-th service: it has the same state on both, and so
does the source that it drains. -/
structure SameFor (i : Nat) (s t : Node) : Prop where
  service : s.services[i]? = t.services[i]?
  kinds : ∀ j, s.kindOf j = t.kindOf j
  taRecords : s.kindOf i = some .timingAdvance → s.taRecords = t.taRecords
  collector : s.kindOf i = some .srs → s.collector = t.collector

theorem SameFor.refl (i : Nat) (s : Node) : SameFor i s s :=
  ⟨rfl, fun _ => rfl, fun _ => rfl, fun _ => rfl⟩

theorem kindOf_of_services {node : Node} {j : Nat} {service : ReportService}
    (h : node.services[j]? = some service) : node.kindOf j = some service.kind := by
  rw [kindOf, h, Option.map_some]

/-- Replacing a service by one of its kind keeps the kinds. -/
theorem map_kind_set {services : List ReportService} {j : Nat} {service service' : ReportService}
    (h : services[j]? = some service) (hkind : service'.kind = service.kind) (i : Nat) :
    (services.set j service')[i]?.map ReportService.kind = services[i]?.map ReportService.kind := by
  rw [List.getElem?_set]
  by_cases hij : j = i
  · subst hij
    have hlt : j < services.length := (List.getElem?_eq_some_iff.mp h).1
    rw [if_pos rfl, if_pos hlt, h, Option.map_some, Option.map_some, hkind]
  · rw [if_neg hij]

end Node

namespace ReportService

variable (c c' : SrsDataCollector) (taRecords taRecords' : List TaIndicationRecord)

theorem kind_collectMeasurements (service : ReportService) :
    (service.collectMeasurements c taRecords).2.1.kind = service.kind := by
  cases service <;> rfl

theorem kind_getIndicationMessage (service : ReportService) (appendOk : Bool) :
    (service.getIndicationMessage appendOk).2.kind = service.kind := by
  cases service <;> rfl

/-- Only an SRS service touches the collector. -/
theorem collector_collectMeasurements {service : ReportService} (h : service.kind ≠ .srs) :
    (service.collectMeasurements c taRecords).2.2.1 = c := by
  cases service with
  | srs s => exact absurd rfl h
  | _ => rfl

/-- Only a timing-advance service touches the store. -/
theorem taRecords_collectMeasurements {service : ReportService}
    (h : service.kind ≠ .timingAdvance) :
    (service.collectMeasurements c taRecords).2.2.2 = taRecords := by
  cases service with
  | ta s => exact absurd rfl h
  | _ => rfl

/-- What an SRS service leaves of the collector does not depend on the service. -/
theorem collector_collectMeasurements_congr {service service' : ReportService}
    (h : service.kind = .srs) (h' : service'.kind = .srs) :
    (service.collectMeasurements c taRecords).2.2.1 =
      (service'.collectMeasurements c taRecords').2.2.1 := by
  cases service with
  | srs s =>
    cases service' with
    | srs s' => rfl
    | _ => cases h'
  | _ => cases h

/-- Nor does what a timing-advance service leaves of the store, which is nothing. -/
theorem taRecords_collectMeasurements_congr {service service' : ReportService}
    (h : service.kind = .timingAdvance) (h' : service'.kind = .timingAdvance) :
    (service.collectMeasurements c taRecords).2.2.2 =
      (service'.collectMeasurements c' taRecords').2.2.2 := by
  cases service with
  | ta s =>
    cases service' with
    | ta s' => rfl
    | _ => cases h'
  | _ => cases h

/-- A service collects the same from sources that agree on its own. -/
theorem collectMeasurements_congr (service : ReportService)
    (hta : service.kind = .timingAdvance → taRecords = taRecords')
    (hsrs : service.kind = .srs → c = c') :
    (service.collectMeasurements c taRecords).2.1 =
      (service.collectMeasurements c' taRecords').2.1 := by
  cases service with
  | ta s => rw [hta rfl]; rfl
  | srs s => rw [hsrs rfl]; rfl
  | null => rfl

end ReportService

namespace Node

theorem collectMeasurements_of_some {node : Node} {j : Nat} {service : ReportService}
    (h : node.services[j]? = some service) :
    (node.collectMeasurements j).1 =
      let collected := service.collectMeasurements node.collector node.taRecords
      ⟨collected.2.2.1, collected.2.2.2, node.services.set j collected.2.1⟩ := by
  simp only [collectMeasurements, h]

theorem collectMeasurements_of_none {node : Node} {j : Nat} (h : node.services[j]? = none) :
    (node.collectMeasurements j).1 = node := by
  simp only [collectMeasurements, h]

theorem kindOf_collectMeasurements (node : Node) (j i : Nat) :
    (node.collectMeasurements j).1.kindOf i = node.kindOf i := by
  cases h : node.services[j]? with
  | none => rw [collectMeasurements_of_none h]
  | some service =>
    rw [collectMeasurements_of_some h]
    exact map_kind_set h (service.kind_collectMeasurements _ _) i

theorem kindOf_getIndicationMessage (node : Node) (j : Nat) (appendOk : Bool) (i : Nat) :
    (node.getIndicationMessage j appendOk).1.kindOf i = node.kindOf i := by
  unfold getIndicationMessage
  split
  · rename_i service h
    exact map_kind_set h (service.kind_getIndicationMessage appendOk) i
  · rfl

/-- No event changes the kind of a service. -/
theorem kindOf_step (node : Node) (event : NodeEvent) (i : Nat) :
    (node.step event).1.kindOf i = node.kindOf i := by
  cases event with
  | collectMeasurements j => exact kindOf_collectMeasurements node j i
  | getIndicationMessage j appendOk => exact kindOf_getIndicationMessage node j appendOk i
  | _ => rfl

namespace SameFor

variable {i j : Nat} {s t : Node}

/-- A collection of the same kind on both nodes. -/
theorem collect_both (h : SameFor i s t) (hj : s.kindOf j = s.kindOf i) :
    SameFor i (s.collectMeasurements j).1 (t.collectMeasurements j).1 := by
  have hkindj := h.kinds j
  cases hs : s.services[j]? with
  | none =>
    have ht : t.services[j]? = none := by
      rw [kindOf, hs, kindOf] at hkindj
      exact Option.map_eq_none_iff.mp hkindj.symm
    rw [collectMeasurements_of_none hs, collectMeasurements_of_none ht]
    exact h
  | some service =>
    obtain ⟨service', ht, hkind⟩ : ∃ service', t.services[j]? = some service' ∧
        service'.kind = service.kind := by
      rw [kindOf_of_services hs, kindOf] at hkindj
      exact Option.map_eq_some_iff.mp hkindj.symm
    have hi : s.kindOf i = some service.kind := hj.symm.trans (kindOf_of_services hs)
    refine ⟨?_, fun k => ?_, fun hta => ?_, fun hsrs => ?_⟩
    · rw [collectMeasurements_of_some hs, collectMeasurements_of_some ht]
      by_cases hij : j = i
      · -- the service itself collects the same on both nodes
        subst hij
        obtain rfl : service = service' := by
          have heq := h.service
          rw [hs, ht] at heq
          exact Option.some.inj heq
        have hcollect := service.collectMeasurements_congr s.collector t.collector s.taRecords
          t.taRecords (fun hta => h.taRecords (hi.trans (congrArg some hta)))
          (fun hsrs => h.collector (hi.trans (congrArg some hsrs)))
        simp only [List.getElem?_set_self', hs, ht, hcollect]
      · -- another service of its kind leaves this one alone
        simp only [List.getElem?_set_ne hij]
        exact h.service
    · rw [kindOf_collectMeasurements, kindOf_collectMeasurements]
      exact h.kinds k
    · rw [kindOf_collectMeasurements, hi, Option.some_inj] at hta
      rw [collectMeasurements_of_some hs, collectMeasurements_of_some ht]
      exact ReportService.taRecords_collectMeasurements_congr _ _ _ _ hta (hkind.trans hta)
    · rw [kindOf_collectMeasurements, hi, Option.some_inj] at hsrs
      rw [collectMeasurements_of_some hs, collectMeasurements_of_some ht,
        h.collector (hi.trans (congrArg some hsrs))]
      exact ReportService.collector_collectMeasurements_congr _ _ _ hsrs (hkind.trans hsrs)

/-- A collection of another kind on one node. -/
theorem collect_one (h : SameFor i s t) (hj : s.kindOf j ≠ s.kindOf i) :
    SameFor i (s.collectMeasurements j).1 t := by
  cases hs : s.services[j]? with
  | none =>
    rw [collectMeasurements_of_none hs]
    exact h
  | some service =>
    have hkind := kindOf_of_services hs
    have hij : j ≠ i := fun hij => hj (congrArg _ hij)
    refine ⟨?_, fun k => ?_, fun hta => ?_, fun hsrs => ?_⟩
    · rw [collectMeasurements_of_some hs]
      exact (List.getElem?_set_ne hij).trans h.service
    · rw [kindOf_collectMeasurements]
      exact h.kinds k
    · rw [kindOf_collectMeasurements] at hta
      rw [collectMeasurements_of_some hs]
      refine (ReportService.taRecords_collectMeasurements _ _ fun hk => hj ?_).trans
        (h.taRecords hta)
      rw [hkind, hk, hta]
    · rw [kindOf_collectMeasurements] at hsrs
      rw [collectMeasurements_of_some hs]
      refine (ReportService.collector_collectMeasurements _ _ fun hk => hj ?_).trans
        (h.collector hsrs)
      rw [hkind, hk, hsrs]

/-- A message from another service on one node. -/
theorem get_one (h : SameFor i s t) (hj : j ≠ i) (appendOk : Bool) :
    SameFor i (s.getIndicationMessage j appendOk).1 t := by
  have hkinds := kindOf_getIndicationMessage s j appendOk
  cases hs : s.services[j]? with
  | none => simpa only [getIndicationMessage, hs] using h
  | some service =>
    refine ⟨?_, fun k => (hkinds k).trans (h.kinds k), fun hta => ?_, fun hsrs => ?_⟩
    · simp only [getIndicationMessage, hs]
      exact (List.getElem?_set_ne hj).trans h.service
    · simp only [getIndicationMessage, hs]
      exact h.taRecords ((hkinds i).symm.trans hta)
    · simp only [getIndicationMessage, hs]
      exact h.collector ((hkinds i).symm.trans hsrs)

/-- A message from the service itself on both nodes: it is the same message. -/
theorem get_both (h : SameFor i s t) (appendOk : Bool) :
    SameFor i (s.getIndicationMessage i appendOk).1 (t.getIndicationMessage i appendOk).1 ∧
      (s.getIndicationMessage i appendOk).2 = (t.getIndicationMessage i appendOk).2 := by
  have hkinds := kindOf_getIndicationMessage s i appendOk
  have hkinds' := kindOf_getIndicationMessage t i appendOk
  cases hs : s.services[i]? with
  | none =>
    have ht : t.services[i]? = none := h.service.symm.trans hs
    simp only [getIndicationMessage, hs, ht]
    exact ⟨h, trivial⟩
  | some service =>
    have ht : t.services[i]? = some service := h.service.symm.trans hs
    refine ⟨?_, ?_⟩
    · refine ⟨?_, fun k => ?_, fun hta => ?_, fun hsrs => ?_⟩
      · simp only [getIndicationMessage, hs, ht, List.getElem?_set_self']
      · rw [hkinds, hkinds']
        exact h.kinds k
      · simp only [getIndicationMessage, hs, ht]
        exact h.taRecords ((hkinds i).symm.trans hta)
      · simp only [getIndicationMessage, hs, ht]
        exact h.collector ((hkinds i).symm.trans hsrs)
    · simp only [getIndicationMessage, hs, ht]

end SameFor

/-- An event that does not concern the service changes nothing for it. -/
theorem SameFor.step_one {i : Nat} {s t : Node} (h : SameFor i s t) {event : NodeEvent}
    (hevent : s.relevantTo i event = false) :
    SameFor i (s.step event).1 t ∧ messageOf i event (s.step event).2 = [] := by
  cases event with
  | addSrsData call => cases hevent
  | pushTaIndication record => cases hevent
  | collectMeasurements j =>
    simp only [relevantTo, decide_eq_false_iff_not, not_or] at hevent
    obtain ⟨-, hkind⟩ := hevent
    exact ⟨h.collect_one hkind, rfl⟩
  | isIndMsgReady j => exact ⟨h, rfl⟩
  | getIndicationMessage j appendOk =>
    have hj : j ≠ i := of_decide_eq_false hevent
    refine ⟨h.get_one hj appendOk, ?_⟩
    unfold messageOf
    split
    · rename_i heq _
      obtain ⟨rfl, -⟩ := NodeEvent.getIndicationMessage.inj heq
      exact if_neg hj
    · rfl

/-- An event that does concern it has the same effect on both nodes. -/
theorem SameFor.step_both {i : Nat} {s t : Node} (h : SameFor i s t) {event : NodeEvent}
    (hevent : s.relevantTo i event = true) :
    SameFor i (s.step event).1 (t.step event).1 ∧
      messageOf i event (s.step event).2 = messageOf i event (t.step event).2 := by
  cases event with
  | addSrsData call =>
    refine ⟨⟨h.service, h.kinds, h.taRecords, fun hsrs => ?_⟩, rfl⟩
    exact congrArg (fun c => SrsDataCollector.addSrsData c call) (h.collector hsrs)
  | pushTaIndication record =>
    refine ⟨⟨h.service, h.kinds, fun hta => ?_, h.collector⟩, rfl⟩
    exact congrArg (· ++ [record]) (h.taRecords hta)
  | collectMeasurements j =>
    have hj : s.kindOf j = s.kindOf i := by
      rcases of_decide_eq_true hevent with hij | hkind
      · rw [hij]
      · exact hkind
    exact ⟨h.collect_both hj, rfl⟩
  | isIndMsgReady j => exact ⟨h, rfl⟩
  | getIndicationMessage j appendOk =>
    obtain rfl : j = i := of_decide_eq_true hevent
    obtain ⟨hsame, hmessage⟩ := h.get_both appendOk
    exact ⟨hsame, congrArg _ hmessage⟩

/-- What is irrelevant to a service can be deleted. -/
theorem messagesOf_filter_relevantTo (node : Node) (i : Nat) (events : List NodeEvent) :
    node.messagesOf i events = node.messagesOf i (events.filter (node.relevantTo i)) := by
  -- the kinds are those of the beginning, so relevance is the same all along the run
  have hrelevant : ∀ {s : Node}, (∀ j, s.kindOf j = node.kindOf j) →
      ∀ event, s.relevantTo i event = node.relevantTo i event := by
    intro s hs event
    cases event <;> simp only [relevantTo, hs]
  refine Mealy.observe_filter (R := fun s t => SameFor i s t ∧ ∀ j, s.kindOf j = node.kindOf j)
    ?_ ?_ events ⟨SameFor.refl i node, fun _ => rfl⟩
  · rintro s t event hevent ⟨h, hkinds⟩
    obtain ⟨hsame, hview⟩ := h.step_one ((hrelevant hkinds event).trans hevent)
    exact ⟨⟨hsame, fun j => (kindOf_step s event j).trans (hkinds j)⟩, hview⟩
  · rintro s t event hevent ⟨h, hkinds⟩
    obtain ⟨hsame, hview⟩ := h.step_both ((hrelevant hkinds event).trans hevent)
    exact ⟨⟨hsame, fun j => (kindOf_step s event j).trans (hkinds j)⟩, hview⟩

/-- To the only service of its kind, all calls on the others are irrelevant. -/
theorem relevantTo_eq_ownTo {node : Node} {i : Nat}
    (h : ∀ j, node.kindOf j = node.kindOf i → j = i) (event : NodeEvent) :
    node.relevantTo i event = ownTo i event := by
  cases event with
  | collectMeasurements j =>
    have hiff : (j = i ∨ node.kindOf j = node.kindOf i) ↔ j = i :=
      ⟨fun hj => hj.elim id (h j), Or.inl⟩
    exact decide_eq_decide.mpr hiff
  | _ => rfl

/-- **Subscriptions are isolated up to their sources.** What a service sends does not change
when the calls on the other services are deleted, apart from the collections of services
of its own kind; so the only service of its kind is not disturbed at all. -/
theorem subscriptions_isolated (config : GnbSrsConfig) (actionDefinitions : List Bytes)
    (i : Nat) (events : List NodeEvent) :
    let node := init config actionDefinitions
    node.messagesOf i events = node.messagesOf i (events.filter (node.relevantTo i)) ∧
      ((∀ j, node.kindOf j = node.kindOf i → j = i) →
        node.messagesOf i events = node.messagesOf i (events.filter (ownTo i))) := by
  intro node
  refine ⟨node.messagesOf_filter_relevantTo i events, fun honly => ?_⟩
  rw [node.messagesOf_filter_relevantTo,
    List.filter_congr fun event _ => relevantTo_eq_ownTo honly event]

/-- A complete snapshot, a collection by one SRS service and one by another: the second
has nothing to send, though it would have without the first. -/
theorem second_subscription_starves :
    let node := init ⟨1, 0, 0, ⟨0⟩, ⟨0⟩, ⟨0⟩⟩ [[0x02], [0x02]]
    let events : List NodeEvent := [.addSrsData ⟨17, 0, [], [], 1000⟩, .collectMeasurements 0,
      .collectMeasurements 1, .getIndicationMessage 1 true]
    node.messagesOf 1 events ≠ node.messagesOf 1 (events.filter (ownTo 1)) := by
  decide +kernel

end Node

end RunOran
