import RunOran.EndToEnd
import RunOran.Subscriptions

/-!
# Several subscribers on one collector

`get_e2sm_report_service` is called whenever a subscription comes in, so services join a node
at any time, and all SRS services drain the one collector. A collection hands a complete record
to the service that makes it and to no other (`second_subscription_starves`).

What the services together take is nevertheless what a single one would have taken: `collected`
lists the records of a run, each with its taker, and without the takers it is the record list of
a `Du` (`map_snd_collected`). And each taker delivers what it has taken exactly once, whenever
it joined and whatever the others do (`one_subscriber_each`): it has announced no reference yet,
and its xApp has none. `Followed` is the invariant of one service in such a run.
-/

namespace RunOran

open Protobuf

/-! ## One service, from its own calls -/

namespace SrsReportService

/-- The records that the collections among some calls return. -/
def taken (calls : List ServiceCall) : List UeSrsData :=
  calls.flatMap fun
    | .collectMeasurements c => c.getAllCompleteUeData.1
    | .getIndicationMessage _ => []

/-- All collections are made from well-formed collectors with `n` antennas. -/
def CollectFrom (n : Nat) (calls : List ServiceCall) : Prop :=
  ∀ c, .collectMeasurements c ∈ calls → c.WellFormed ∧ c.numRxAntennas = n

@[simp] theorem taken_nil : taken [] = [] := rfl

theorem taken_append (calls calls' : List ServiceCall) :
    taken (calls ++ calls') = taken calls ++ taken calls' := List.flatMap_append ..

theorem mem_taken {calls : List ServiceCall} {ue : UeSrsData} :
    ue ∈ taken calls ↔
      ∃ c, .collectMeasurements c ∈ calls ∧ ue ∈ c.getAllCompleteUeData.1 := by
  rw [taken, List.mem_flatMap]
  refine ⟨?_, fun ⟨c, hc, hue⟩ => ⟨_, hc, hue⟩⟩
  rintro ⟨call, hcall, hue⟩
  cases call with
  | collectMeasurements c => exact ⟨c, hcall, hue⟩
  | getIndicationMessage appendOk => cases hue

/-- A record that was taken is a full one. -/
theorem CollectFrom.of_mem_taken {n : Nat} {calls : List ServiceCall} (h : CollectFrom n calls)
    {ue : UeSrsData} (hue : ue ∈ taken calls) :
    ue.WellFormed n ue.rnti ∧ ue.isFull n = true := by
  obtain ⟨c, hc, hmem⟩ := mem_taken.mp hue
  obtain ⟨hwell, rfl⟩ := h c hc
  exact Du.wellFormed_of_mem_getAllCompleteUeData hwell hmem

/-- A collection: the items of its records go to the back of the queue. -/
theorem step_collectMeasurements {s : SrsReportService} {c : SrsDataCollector}
    (hc : c.WellFormed) :
    s.step (.collectMeasurements c) =
      (⟨s.pendingItems ++ recordsItems s.generatedSentKeys c.getAllCompleteUeData.1,
          keysAfter s.generatedSentKeys c.getAllCompleteUeData.1⟩,
        { pushed := recordsItems s.generatedSentKeys c.getAllCompleteUeData.1 }) := by
  have hrecords := enqueueRecords_eq c.getAllCompleteUeData.1
    (fun ue hue => (Du.wellFormed_of_mem_getAllCompleteUeData hc hue).1.nodup) s
  simp only [step, collectMeasurements, hrecords, List.drop_left]

/-- **What is enqueued is a function of the records taken.** -/
theorem enqueued_eq {n : Nat} (calls : List ServiceCall) :
    ∀ s : SrsReportService, CollectFrom n calls →
      s.enqueued calls = recordsItems s.generatedSentKeys (taken calls) := by
  induction calls with
  | nil => exact fun _ _ => rfl
  | cons call calls ih =>
    intro s h
    have hrest : CollectFrom n calls := fun c hc => h c (List.mem_cons_of_mem _ hc)
    rw [enqueued, Mealy.observe_cons, ← enqueued, ih _ hrest]
    cases call with
    | collectMeasurements c =>
      rw [step_collectMeasurements (h c List.mem_cons_self).1]
      exact (recordsItems_append _ _ _).symm
    | getIndicationMessage appendOk =>
      have hsame : (s.step (.getIndicationMessage appendOk)).1.generatedSentKeys =
          s.generatedSentKeys := by
        simp only [step, getIndicationMessage_eq]
      rw [hsame]
      rfl

section Delivered

variable {n : Nat} {calls : List ServiceCall} (hok : AppendsSucceed calls)
  (hcollect : CollectFrom n calls)
  (hfits : ∀ item ∈ recordsItems ∅ (taken calls), (encodeSrsIndication [item]).length < 2 ^ 31)
  (hdrained : (init.run calls).isIndMsgReady = false)

include hok hcollect hfits hdrained

/-- Once the queue is empty, the messages decode to the items of the records taken. -/
theorem decoded_of_drained :
    init.decoded calls = (recordsItems ∅ (taken calls)).map SrsStreamItem.quantised := by
  have henqueued : init.enqueued calls = recordsItems ∅ (taken calls) :=
    enqueued_eq calls init hcollect
  have hall : ∀ item ∈ init.pendingItems ++ init.enqueued calls,
      (encodeSrsIndication [item]).length < 2 ^ 31 := by
    rw [henqueued]
    exact hfits
  obtain ⟨sent, hsent, hdecoded⟩ := init.exists_sent_of_fits calls hok hall
  have hempty : (init.run calls).pendingItems = [] := by
    simpa [isIndMsgReady] using hdrained
  rw [henqueued, hempty, List.append_nil] at hsent
  rw [hdecoded, ← hsent]
  rfl

/-- **A service that starts from nothing delivers what it takes exactly once**, to an xApp that
starts from nothing. -/
theorem onMessages_of_drained (hn : 1 ≤ n) {F : UInt32 → UInt32 → List Cf}
    (hF : ∀ ue ∈ taken calls, ∀ a ∈ ue.antennaData, a.generatedSrs = F ue.rnti a.antennaId) :
    let x := (SimpleRunOranXapp.init n).onMessages (init.messages calls)
    x.pendingReceivedSrs = ∅ ∧ x.completedSrsMessages = (taken calls).map UeSrsData.delivered := by
  simp only [SimpleRunOranXapp.onMessages_eq, indicationItems_messages,
    decoded_of_drained hok hcollect hfits hdrained]
  have hexpected : (SimpleRunOranXapp.init n).expectedRxAntennas = n := by
    simp only [SimpleRunOranXapp.init]
    omega
  apply (inSync_init F n).records
  intro ue hue
  obtain ⟨hwell, hfull⟩ := hcollect.of_mem_taken hue
  exact ⟨hwell.nodup, (hwell.length_eq hn hfull).trans hexpected.symm, hF ue hue⟩

end Delivered

end SrsReportService

/-! ## Services that join -/

/-- What happens on a node where subscriptions come in at any time. -/
inductive SubscriptionEvent where
  | subscribe (actionDefinition : Bytes)
  | node (event : NodeEvent)
  deriving DecidableEq

namespace Node

/-- One event; a new service takes the next place in the list. -/
def subscriptionStep (node : Node) : SubscriptionEvent → Node × NodeResult
  | .subscribe actionDefinition =>
    ({ node with services := node.services ++ [getE2smReportService actionDefinition] }, .none)
  | .node event => node.step event

/-- The node after a sequence of events. -/
abbrev session (node : Node) (events : List SubscriptionEvent) : Node :=
  Mealy.exec subscriptionStep node events

/-- What the peer of the `i`-th subscription sees of an event. -/
def sentTo (i : Nat) : SubscriptionEvent → NodeResult → List Bytes
  | .node event, result => messageOf i event result
  | .subscribe _, _ => []

/-- The indication messages to the peer of the `i`-th subscription. -/
def messagesTo (node : Node) (i : Nat) (events : List SubscriptionEvent) : List Bytes :=
  Mealy.observe subscriptionStep (sentTo i) node events

/-- The records that an event takes from the collector, each with the service that takes it. -/
def takes (node : Node) : SubscriptionEvent → List (Nat × UeSrsData)
  | .node (.collectMeasurements j) =>
    match node.services[j]? with
    | some (.srs _) => node.collector.getAllCompleteUeData.1.map fun ue => (j, ue)
    | _ => []
  | _ => []

/-- The records that a run takes from the collector, in order, each with its taker. -/
def collected : Node → List SubscriptionEvent → List (Nat × UeSrsData)
  | _, [] => []
  | node, event :: events => node.takes event ++ collected (node.subscriptionStep event).1 events

/-- The records that the `i`-th service takes. -/
def takenBy (node : Node) (i : Nat) (events : List SubscriptionEvent) : List UeSrsData :=
  ((node.collected events).filter fun p => p.1 = i).map Prod.snd

/-- What an event is to a `Du` whose single service makes all the collections. -/
def pooled (node : Node) : SubscriptionEvent → List DuEvent
  | .node (.addSrsData call) => [.addSrsData call]
  | .node (.collectMeasurements j) =>
    match node.services[j]? with
    | some (.srs _) => [.collectMeasurements]
    | _ => []
  | _ => []

/-- What a run is to that `Du`. -/
def pool : Node → List SubscriptionEvent → List DuEvent
  | _, [] => []
  | node, event :: events => node.pooled event ++ pool (node.subscriptionStep event).1 events

theorem collected_append (events events' : List SubscriptionEvent) :
    ∀ node : Node, node.collected (events ++ events') =
      node.collected events ++ (node.session events).collected events' := by
  induction events with
  | nil => exact fun _ => rfl
  | cons event events ih =>
    intro node
    rw [List.cons_append, collected, collected, ih, List.append_assoc]
    rfl

theorem collected_concat (node : Node) (events : List SubscriptionEvent)
    (event : SubscriptionEvent) : node.collected (events ++ [event]) =
      node.collected events ++ (node.session events).takes event := by
  rw [collected_append, collected, collected, List.append_nil]

/-! ### The stores -/

theorem stores_getIndicationMessage (node : Node) (j : Nat) (appendOk : Bool) :
    (node.getIndicationMessage j appendOk).1.collector = node.collector ∧
      (node.getIndicationMessage j appendOk).1.taRecords = node.taRecords := by
  unfold getIndicationMessage
  split <;> exact ⟨rfl, rfl⟩

/-- A collection drains the store of its kind of service, and no other. -/
theorem stores_collectMeasurements (node : Node) (j : Nat) :
    (node.kindOf j ≠ some .srs → (node.collectMeasurements j).1.collector = node.collector) ∧
      (node.kindOf j ≠ some .timingAdvance →
        (node.collectMeasurements j).1.taRecords = node.taRecords) := by
  cases hj : node.services[j]? with
  | none =>
    rw [collectMeasurements_of_none hj]
    exact ⟨fun _ => rfl, fun _ => rfl⟩
  | some service =>
    rw [collectMeasurements_of_some hj, kindOf_of_services hj]
    exact ⟨fun h => ReportService.collector_collectMeasurements _ _ (mt (congrArg some) h),
      fun h => ReportService.taRecords_collectMeasurements _ _ (mt (congrArg some) h)⟩

/-! ### All services together -/

/-- An event takes from the collector what it is to the pooled `Du`, and leaves the same. -/
theorem step_pooled (node : Node) (s : SrsReportService) (event : SubscriptionEvent) :
    ∃ s', (Du.mk node.collector s).run (node.pooled event) =
        ⟨(node.subscriptionStep event).1.collector, s'⟩ ∧
      (Du.mk node.collector s).records (node.pooled event) = (node.takes event).map Prod.snd := by
  cases event with
  | subscribe actionDefinition => exact ⟨s, rfl, rfl⟩
  | node event =>
    cases event with
    | collectMeasurements j =>
      cases hj : node.services[j]? with
      | none =>
        simp only [pooled, takes, hj, subscriptionStep, step, collectMeasurements_of_none hj]
        exact ⟨s, rfl, rfl⟩
      | some service =>
        simp only [pooled, takes, hj, subscriptionStep, step, collectMeasurements_of_some hj]
        cases service with
        | srs own =>
          refine ⟨_, rfl, ?_⟩
          rw [List.map_map]
          exact (List.append_nil _).trans (List.map_id _).symm
        | _ => exact ⟨s, rfl, rfl⟩
    | addSrsData call => exact ⟨s, rfl, rfl⟩
    | pushTaIndication record => exact ⟨s, rfl, rfl⟩
    | isIndMsgReady j => exact ⟨s, rfl, rfl⟩
    | getIndicationMessage j appendOk =>
      obtain ⟨hcollector, -⟩ := node.stores_getIndicationMessage j appendOk
      exact ⟨s, congrArg (Du.mk · s) hcollector.symm, rfl⟩

/-- **The records that the services take together are those that a single one would take.** -/
theorem map_snd_collected (events : List SubscriptionEvent) :
    ∀ (node : Node) (s : SrsReportService), (node.collected events).map Prod.snd =
      (Du.mk node.collector s).records (node.pool events) := by
  induction events with
  | nil => exact fun _ _ => rfl
  | cons event events ih =>
    intro node s
    obtain ⟨s', hrun, hrecords⟩ := node.step_pooled s event
    rw [collected, pool, List.map_append, Du.records_append, hrun, hrecords, ih _ s']

/-! ### One service among the others -/

theorem getElem?_services_step (node : Node) (event : NodeEvent) (i : Nat) :
    (node.step event).1.services[i]? =
      match event with
      | .collectMeasurements j =>
        if j = i then node.services[i]?.map fun service =>
          (service.collectMeasurements node.collector node.taRecords).2.1
        else node.services[i]?
      | .getIndicationMessage j appendOk =>
        if j = i then node.services[i]?.map fun service =>
          (service.getIndicationMessage appendOk).2
        else node.services[i]?
      | _ => node.services[i]? := by
  have hset : ∀ {j : Nat} {service service' : ReportService},
      node.services[j]? = some service → j = i →
        (node.services.set j service')[i]? = some service' := by
    rintro j service service' hj rfl
    rw [List.getElem?_set_self (List.getElem?_eq_some_iff.mp hj).1]
  cases event with
  | collectMeasurements j =>
    cases hj : node.services[j]? with
    | none =>
      simp only [step, collectMeasurements_of_none hj]
      split
      · rename_i hij
        rw [← hij, hj, Option.map_none]
      · rfl
    | some service =>
      simp only [step, collectMeasurements_of_some hj]
      split
      · rename_i hij
        rw [hset hj hij, ← hij, hj, Option.map_some]
      · rename_i hij
        exact List.getElem?_set_ne hij
  | getIndicationMessage j appendOk =>
    cases hj : node.services[j]? with
    | none =>
      simp only [step, getIndicationMessage, hj]
      split
      · rename_i hij
        rw [← hij, hj, Option.map_none]
      · rfl
    | some service =>
      simp only [step, getIndicationMessage, hj]
      split
      · rename_i hij
        rw [hset hj hij, ← hij, hj, Option.map_some]
      · rename_i hij
        exact List.getElem?_set_ne hij
  | _ => rfl

theorem getElem?_services_subscriptionStep (node : Node) (event : SubscriptionEvent) {i : Nat}
    (h : i < node.services.length) :
    (node.subscriptionStep event).1.services[i]? =
      match event with
      | .subscribe _ => node.services[i]?
      | .node event => (node.step event).1.services[i]? := by
  cases event with
  | subscribe actionDefinition => exact List.getElem?_append_left h
  | node event => rfl

/-- A place that is not taken after an event was not taken before. -/
theorem getElem?_services_of_none {node : Node} {event : SubscriptionEvent} {i : Nat}
    (h : (node.subscriptionStep event).1.services[i]? = none) : node.services[i]? = none := by
  by_contra hsome
  have hlt : i < node.services.length := by
    by_contra hge
    exact hsome (List.getElem?_eq_none (Nat.not_lt.mp hge))
  rw [getElem?_services_subscriptionStep node event hlt] at h
  cases event with
  | subscribe actionDefinition => exact hsome h
  | node event =>
    simp only [getElem?_services_step] at h
    cases event with
    | collectMeasurements j =>
      simp only at h
      split at h
      · exact hsome (Option.map_eq_none_iff.mp h)
      · exact hsome h
    | getIndicationMessage j appendOk =>
      simp only at h
      split at h
      · exact hsome (Option.map_eq_none_iff.mp h)
      · exact hsome h
    | _ => exact hsome h

theorem takenBy_concat (node : Node) (i : Nat) (events : List SubscriptionEvent)
    (event : SubscriptionEvent) : node.takenBy i (events ++ [event]) =
      node.takenBy i events ++
        (((node.session events).takes event).filter fun p => p.1 = i).map Prod.snd := by
  rw [takenBy, collected_concat, List.filter_append, List.map_append, takenBy]

theorem messagesTo_concat (node : Node) (i : Nat) (events : List SubscriptionEvent)
    (event : SubscriptionEvent) : node.messagesTo i (events ++ [event]) =
      node.messagesTo i events ++
        sentTo i event ((node.session events).subscriptionStep event).2 :=
  Mealy.observe_concat ..

/-- A collection by another service takes nothing for this one. -/
theorem filter_takes_of_ne (node : Node) {i j : Nat} (h : j ≠ i) :
    ((node.takes (.node (.collectMeasurements j))).filter fun p => p.1 = i) = [] := by
  rw [takes]
  split
  · rw [List.filter_eq_nil_iff]
    rintro p hp
    obtain ⟨ue, -, rfl⟩ := List.mem_map.mp hp
    simpa using h
  · rfl

/-- Its own takes all for it. -/
theorem map_snd_filter_takes {node : Node} {i : Nat} {s : SrsReportService}
    (h : node.services[i]? = some (.srs s)) :
    ((node.takes (.node (.collectMeasurements i))).filter fun p => p.1 = i).map Prod.snd =
      node.collector.getAllCompleteUeData.1 := by
  have hall : ((node.collector.getAllCompleteUeData.1.map fun ue => (i, ue)).filter
      fun p => p.1 = i) = node.collector.getAllCompleteUeData.1.map fun ue => (i, ue) := by
    rw [List.filter_eq_self]
    intro p hp
    obtain ⟨ue, -, rfl⟩ := List.mem_map.mp hp
    simp
  simp only [takes, h]
  rw [hall, List.map_map]
  exact List.map_id _

/-- A message of another service is not seen. -/
theorem sentTo_of_ne {i j : Nat} (h : j ≠ i) (appendOk : Bool) (result : NodeResult) :
    sentTo i (.node (.getIndicationMessage j appendOk)) result = [] := by
  cases result with
  | message bytes => exact if_neg h
  | _ => rfl

/-- Before a service is there, nothing is sent to its peer and nothing taken by it. -/
theorem nothing_before_subscription (config : GnbSrsConfig) {i : Nat}
    (events : List SubscriptionEvent) :
    ((init config []).session events).services[i]? = none →
      (init config []).messagesTo i events = [] ∧ (init config []).takenBy i events = [] := by
  induction events using List.reverseRecOn with
  | nil => exact fun _ => ⟨rfl, rfl⟩
  | append_singleton events event ih =>
    intro h
    rw [session, Mealy.exec_concat] at h
    have hnone := getElem?_services_of_none h
    obtain ⟨hmessages, htaken⟩ := ih hnone
    rw [messagesTo_concat, takenBy_concat, hmessages, htaken, List.nil_append, List.nil_append]
    cases event with
    | subscribe actionDefinition => exact ⟨rfl, rfl⟩
    | node event =>
      cases event with
      | collectMeasurements j =>
        refine ⟨rfl, ?_⟩
        by_cases hij : j = i
        · subst hij
          simp only [takes, hnone]
          rfl
        · rw [filter_takes_of_ne _ hij]
          rfl
      | getIndicationMessage j appendOk =>
        refine ⟨?_, rfl⟩
        by_cases hij : j = i
        · subst hij
          simp only [subscriptionStep, step, getIndicationMessage, hnone]
          rfl
        · exact sentTo_of_ne hij appendOk _
      | _ => exact ⟨rfl, rfl⟩

/-- The `i`-th service of a run is one that went through `calls`: what its peer has seen are
their messages, and what it took are their records. -/
structure Followed (config : GnbSrsConfig) (i : Nat) (events : List SubscriptionEvent)
    (calls : List ServiceCall) : Prop where
  messages_eq : (init config []).messagesTo i events = SrsReportService.init.messages calls
  takenBy_eq : (init config []).takenBy i events = SrsReportService.taken calls
  collectFrom : SrsReportService.CollectFrom config.numRxAntennas.toNat calls
  appends : .node (.getIndicationMessage i false) ∉ events →
    SrsReportService.AppendsSucceed calls

/-- The collector is that of the pooled `Du`. -/
theorem collector_session (events : List SubscriptionEvent) :
    ∀ (node : Node) (s : SrsReportService), (node.session events).collector =
      ((Du.mk node.collector s).run (node.pool events)).collector := by
  induction events with
  | nil => exact fun _ _ => rfl
  | cons event events ih =>
    intro node s
    obtain ⟨s', hrun, -⟩ := node.step_pooled s event
    refine (ih _ s').trans (congrArg Du.collector ?_)
    rw [pool, Du.run, Du.run, Mealy.exec_append]
    exact congrArg (fun d => Mealy.exec Du.step d _) hrun.symm

theorem collector_session_init (config : GnbSrsConfig) (events : List SubscriptionEvent) :
    ((init config []).session events).collector.WellFormed ∧
      ((init config []).session events).collector.numRxAntennas =
        config.numRxAntennas.toNat := by
  rw [collector_session events _ SrsReportService.init]
  exact ⟨Du.wellFormed_run (d := ⟨_, _⟩) (SrsDataCollector.wellFormed_init config) _,
    Du.numRxAntennas_run _ _⟩

section Followed

variable {config : GnbSrsConfig} {i : Nat} {events : List SubscriptionEvent}
  {calls : List ServiceCall}

/-- A service that has just joined has gone through no calls. -/
theorem followed_joined {actionDefinition : Bytes}
    (h : ((init config []).session events).services[i]? = none) :
    Followed config i (events ++ [.subscribe actionDefinition]) [] := by
  obtain ⟨hmessages, htaken⟩ := nothing_before_subscription config events h
  refine ⟨?_, ?_, fun c hc => ?_, fun _ => List.not_mem_nil⟩
  · rw [messagesTo_concat, hmessages]
    rfl
  · rw [takenBy_concat, htaken]
    rfl
  · cases hc

/-- An event that its peer does not see and that takes nothing for it is no call. -/
theorem Followed.quiet (h : Followed config i events calls) {event : SubscriptionEvent}
    (hsent : sentTo i event (((init config []).session events).subscriptionStep event).2 = [])
    (htakes : ((((init config []).session events).takes event).filter fun p => p.1 = i) = []) :
    Followed config i (events ++ [event]) calls := by
  refine ⟨?_, ?_, h.collectFrom, fun hok => h.appends fun hmem => ?_⟩
  · rw [messagesTo_concat, hsent, List.append_nil, h.messages_eq]
  · rw [takenBy_concat, htakes, List.map_nil, List.append_nil, h.takenBy_eq]
  · exact hok (List.mem_append_left _ hmem)

theorem Followed.collect (h : Followed config i events calls) {s : SrsReportService}
    (hservice : ((init config []).session events).services[i]? = some (.srs s)) :
    Followed config i (events ++ [.node (.collectMeasurements i)])
      (calls ++ [.collectMeasurements ((init config []).session events).collector]) := by
  refine ⟨?_, ?_, fun c hc => ?_, fun hok => ?_⟩
  · rw [messagesTo_concat, h.messages_eq, SrsReportService.messages, SrsReportService.messages,
      Mealy.observe_concat]
    rfl
  · rw [takenBy_concat, h.takenBy_eq, map_snd_filter_takes hservice,
      SrsReportService.taken_append]
    exact congrArg (_ ++ ·) (List.append_nil _).symm
  · rcases List.mem_append.mp hc with hc | hc
    · exact h.collectFrom c hc
    · rw [ServiceCall.collectMeasurements.inj (List.mem_singleton.mp hc)]
      exact collector_session_init config events
  · rw [SrsReportService.AppendsSucceed, List.mem_append, not_or]
    refine ⟨h.appends fun hmem => hok (List.mem_append_left _ hmem), fun hmem => ?_⟩
    cases List.mem_singleton.mp hmem

theorem Followed.get (h : Followed config i events calls) {appendOk : Bool}
    (hservice : ((init config []).session events).services[i]? =
      some (.srs (SrsReportService.init.run calls))) :
    Followed config i (events ++ [.node (.getIndicationMessage i appendOk)])
      (calls ++ [.getIndicationMessage appendOk]) := by
  refine ⟨?_, ?_, fun c hc => ?_, fun hok => ?_⟩
  · rw [messagesTo_concat, h.messages_eq, SrsReportService.messages, SrsReportService.messages,
      Mealy.observe_concat]
    refine congrArg (_ ++ ·) ?_
    simp only [subscriptionStep, step, getIndicationMessage, hservice]
    exact if_pos rfl
  · rw [takenBy_concat, h.takenBy_eq, SrsReportService.taken_append]
    rfl
  · rcases List.mem_append.mp hc with hc | hc
    · exact h.collectFrom c hc
    · cases List.mem_singleton.mp hc
  · rw [SrsReportService.AppendsSucceed, List.mem_append, not_or]
    refine ⟨h.appends fun hmem => hok (List.mem_append_left _ hmem), fun hmem => ?_⟩
    rw [ServiceCall.getIndicationMessage.inj (List.mem_singleton.mp hmem)] at hok
    exact hok (List.mem_append_right _ List.mem_cons_self)

end Followed

/-- An SRS service that is created starts from nothing. -/
theorem getE2smReportService_srs {actionDefinition : Bytes} {s : SrsReportService}
    (h : getE2smReportService actionDefinition = .srs s) : s = SrsReportService.init := by
  unfold getE2smReportService at h
  split at h
  · cases h
  · exact (ReportService.srs.inj h).symm
  · cases h

/-- **A service is followed by its own calls**, whenever it joined. By induction on the run: an
event either is a call on the service, or leaves it alone and is not seen by its peer. -/
theorem exists_followed (config : GnbSrsConfig) {i : Nat} (events : List SubscriptionEvent) :
    ∀ {s : SrsReportService}, ((init config []).session events).services[i]? = some (.srs s) →
      ∃ calls, s = SrsReportService.init.run calls ∧ Followed config i events calls := by
  induction events using List.reverseRecOn with
  | nil =>
    intro s h
    cases h
  | append_singleton events event ih =>
    intro s h
    rw [session, Mealy.exec_concat] at h
    cases event with
    | subscribe actionDefinition =>
      by_cases hlt : i < ((init config []).session events).services.length
      · rw [getElem?_services_subscriptionStep _ _ hlt] at h
        obtain ⟨calls, rfl, hfollowed⟩ := ih h
        exact ⟨calls, rfl, hfollowed.quiet rfl rfl⟩
      · have hnone := List.getElem?_eq_none (Nat.not_lt.mp hlt)
        rw [subscriptionStep, List.getElem?_append_right (Nat.not_lt.mp hlt)] at h
        have hnew := (List.mem_singleton.mp (List.mem_of_getElem? h)).symm
        exact ⟨[], getE2smReportService_srs hnew, followed_joined hnone⟩
    | node event =>
      rw [subscriptionStep, getElem?_services_step] at h
      cases event with
      | collectMeasurements j =>
        by_cases hij : j = i
        · subst hij
          simp only [if_true, Option.map_eq_some_iff] at h
          obtain ⟨service, hservice, hcollect⟩ := h
          cases service with
          | srs own =>
            obtain ⟨calls, rfl, hfollowed⟩ := ih hservice
            refine ⟨_, ?_, hfollowed.collect hservice⟩
            rw [SrsReportService.run, Mealy.exec_concat]
            exact (ReportService.srs.inj hcollect).symm
          | ta own => cases hcollect
          | null => cases hcollect
        · simp only [if_neg hij] at h
          obtain ⟨calls, rfl, hfollowed⟩ := ih h
          exact ⟨calls, rfl, hfollowed.quiet rfl (filter_takes_of_ne _ hij)⟩
      | getIndicationMessage j appendOk =>
        by_cases hij : j = i
        · subst hij
          simp only [if_true, Option.map_eq_some_iff] at h
          obtain ⟨service, hservice, hget⟩ := h
          cases service with
          | srs own =>
            obtain ⟨calls, rfl, hfollowed⟩ := ih hservice
            refine ⟨_, ?_, hfollowed.get hservice⟩
            rw [SrsReportService.run, Mealy.exec_concat]
            exact (ReportService.srs.inj hget).symm
          | ta own => cases hget
          | null => cases hget
        · simp only [if_neg hij] at h
          obtain ⟨calls, rfl, hfollowed⟩ := ih h
          exact ⟨calls, rfl, hfollowed.quiet (sentTo_of_ne hij appendOk _) rfl⟩
      | _ =>
        obtain ⟨calls, rfl, hfollowed⟩ := ih h
        exact ⟨calls, rfl, hfollowed.quiet rfl rfl⟩

/-- A record is taken by an SRS service that is there, and stays. -/
theorem exists_srs_of_mem_collected (config : GnbSrsConfig) {p : Nat × UeSrsData}
    (events : List SubscriptionEvent) : p ∈ (init config []).collected events →
      ∃ s, ((init config []).session events).services[p.1]? = some (.srs s) := by
  induction events using List.reverseRecOn with
  | nil =>
    intro h
    cases h
  | append_singleton events event ih =>
    intro h
    rw [session, Mealy.exec_concat]
    -- a service that was there still is
    have hstays : (∃ s, ((init config []).session events).services[p.1]? = some (.srs s)) →
        ∃ s, (((init config []).session events).subscriptionStep event).1.services[p.1]? =
          some (.srs s) := by
      rintro ⟨s, hs⟩
      have hlt := (List.getElem?_eq_some_iff.mp hs).1
      rw [getElem?_services_subscriptionStep _ event hlt]
      cases event with
      | subscribe actionDefinition => exact ⟨s, hs⟩
      | node event =>
        simp only [getElem?_services_step]
        cases event with
        | collectMeasurements j =>
          simp only [hs, Option.map_some]
          split
          · exact ⟨_, rfl⟩
          · exact ⟨s, rfl⟩
        | getIndicationMessage j appendOk =>
          simp only [hs, Option.map_some]
          split
          · exact ⟨_, rfl⟩
          · exact ⟨s, rfl⟩
        | _ => exact ⟨s, hs⟩
    rw [collected_concat, List.mem_append] at h
    rcases h with h | h
    · exact hstays (ih h)
    · apply hstays
      cases event with
      | subscribe actionDefinition => cases h
      | node event =>
        cases event with
        | collectMeasurements j =>
          rw [takes] at h
          split at h
          · rename_i s hs
            obtain ⟨ue, -, rfl⟩ := List.mem_map.mp h
            exact ⟨s, hs⟩
          · cases h
        | _ => cases h

/-! ## Exactly once, at one subscriber -/

/-- Indications to its peer are calls on the service. -/
theorem services_replicate_get {i : Nat} (k : Nat) :
    ∀ {node : Node} {s : SrsReportService}, node.services[i]? = some (.srs s) →
      (node.session (List.replicate k (.node (.getIndicationMessage i true)))).services[i]? =
        some (.srs (s.run (List.replicate k (.getIndicationMessage true)))) := by
  induction k with
  | zero => exact fun h => h
  | succ k ih =>
    intro node s h
    rw [List.replicate_succ, List.replicate_succ]
    apply ih
    rw [subscriptionStep, getElem?_services_step, h]
    exact if_pos rfl

/-- So enough of them drain it. -/
theorem exists_drained_session {node : Node} {i : Nat} {s : SrsReportService}
    (h : node.services[i]? = some (.srs s)) :
    ∃ k s', (node.session (List.replicate k (.node (.getIndicationMessage i true)))).services[i]? =
      some (.srs s') ∧ s'.isIndMsgReady = false := by
  refine ⟨_, _, services_replicate_get s.pendingItems.length h, ?_⟩
  rw [SrsReportService.isIndMsgReady,
    SrsReportService.drain_pendingItems _ s (Nat.le_refl _)]
  rfl

/-- The references of a record that was taken were added. -/
theorem reference_of_mem_takenBy {config : GnbSrsConfig} {i : Nat}
    {events : List SubscriptionEvent} {F : UInt32 → UInt32 → List Cf}
    (hF : ∀ call ∈ additions ((init config []).pool events),
      call.generatedSrs = F call.rnti call.antennaId) {ue : UeSrsData}
    (hue : ue ∈ (init config []).takenBy i events) :
    ∀ a ∈ ue.antennaData, a.generatedSrs = F ue.rnti a.antennaId := by
  intro a ha
  have hmem : ue ∈ ((init config []).collected events).map Prod.snd :=
    List.map_subset _ (List.filter_subset_self _) hue
  rw [map_snd_collected events _ SrsReportService.init] at hmem
  obtain ⟨call, hcall, hr, rfl⟩ := fromAdditions_of_mem_records hmem a ha
  rw [← hr]
  exact hF call hcall

/-- **Exactly once, at one subscriber.** Subscriptions may come in at any time, and their services
collect and indicate in any order, while each antenna keeps its reference. The records that they
take are those that a single service would take, in order; each is taken by one SRS service; and
that service, which enough indications drain, has delivered to its peer exactly one snapshot for
each record that it took, in order, once it is drained, if its own appends succeed and its streams
fit. -/
theorem one_subscriber_each (config : GnbSrsConfig) (hn : 1 ≤ config.numRxAntennas.toNat)
    (events : List SubscriptionEvent)
    (hrefs : ConstantReferences ((init config []).pool events)) :
    let node := init config []
    (node.collected events).map Prod.snd = (Du.init config).records (node.pool events) ∧
    (∀ p ∈ node.collected events,
      ∃ s, (node.session events).services[p.1]? = some (.srs s)) ∧
    ∀ i s, (node.session events).services[i]? = some (.srs s) →
      (∃ k s', (node.session (events ++ List.replicate k (.node (.getIndicationMessage i
        true)))).services[i]? = some (.srs s') ∧ s'.isIndMsgReady = false) ∧
      (s.isIndMsgReady = false → .node (.getIndicationMessage i false) ∉ events →
        (∀ item ∈ SrsReportService.recordsItems ∅ (node.takenBy i events),
          (encodeSrsIndication [item]).length < 2 ^ 31) →
        let x := (SimpleRunOranXapp.init config.numRxAntennas.toNat).onMessages
          (node.messagesTo i events)
        x.completedSrsMessages = (node.takenBy i events).map UeSrsData.delivered ∧
          x.pendingReceivedSrs = ∅) := by
  intro node
  refine ⟨map_snd_collected events _ SrsReportService.init,
    fun p => exists_srs_of_mem_collected config events, fun i s hs => ⟨?_, ?_⟩⟩
  · obtain ⟨k, s', hdrained⟩ := exists_drained_session hs
    refine ⟨k, s', ?_⟩
    rw [session, Mealy.exec_append]
    exact hdrained
  · intro hdrained hok hfits
    obtain ⟨F, hF⟩ := hrefs.exists_function
    obtain ⟨calls, rfl, hfollowed⟩ := exists_followed config events hs
    have hreferences : ∀ ue ∈ (init config []).takenBy i events,
        ∀ a ∈ ue.antennaData, a.generatedSrs = F ue.rnti a.antennaId :=
      fun _ => reference_of_mem_takenBy hF
    rw [hfollowed.takenBy_eq] at hfits hreferences
    obtain ⟨hpending, hcompleted⟩ := SrsReportService.onMessages_of_drained
      (hfollowed.appends hok) hfollowed.collectFrom hfits hdrained hn hreferences
    rw [← hfollowed.messages_eq] at hpending hcompleted
    rw [hfollowed.takenBy_eq]
    exact ⟨hcompleted, hpending⟩

/-- Two subscriptions, of which the second comes in when the first has taken a record: it takes
the next one, and gets the reference again. -/
theorem one_subscriber_each_late :
    let node := init ⟨1, 0, 0, ⟨0⟩, ⟨0⟩, ⟨0⟩⟩ []
    let events : List SubscriptionEvent := [.subscribe [0x02],
      .node (.addSrsData ⟨17, 0, [], [⟨.finite 1, .finite 0⟩], 1000⟩),
      .node (.collectMeasurements 0), .subscribe [0x02],
      .node (.addSrsData ⟨17, 0, [], [⟨.finite 2, .finite 0⟩], 2000⟩),
      .node (.collectMeasurements 1), .node (.collectMeasurements 0),
      .node (.getIndicationMessage 1 true), .node (.getIndicationMessage 0 false),
      .node (.getIndicationMessage 1 true)]
    ((SimpleRunOranXapp.init 1).onMessages (node.messagesTo 1 events)).completedSrsMessages =
      [⟨17, 2000, [⟨0, [], [⟨.finite 2, .finite 0⟩]⟩], none⟩] := by
  intro node events
  obtain ⟨s, hs, hdrained⟩ : ∃ s, (node.session events).services[1]? = some (.srs s) ∧
      s.isIndMsgReady = false := ⟨_, rfl, by decide +kernel⟩
  have h := one_subscriber_each ⟨1, 0, 0, ⟨0⟩, ⟨0⟩, ⟨0⟩⟩ (by decide) events (by decide +kernel)
  refine ((h.2.2 1 s hs).2 hdrained (by decide) (by decide +kernel)).1.trans ?_
  decide +kernel

end Node

end RunOran
