import RunOran.Batching
import RunOran.Occasion
import RunOran.Xapp

/-!
# From the estimator to the wire

`Du` puts a collector and the service of one subscription together: estimates are added to
the collector, collections move its complete records to the queue of the service, and
indications move the queue to the wire, in any order.

Three things follow a run of the `Du`. The collector is a run of its own operations
(`collector_run`), so its invariants hold of every record that is handed over. The service
is a run of its own calls (`service_run`), so what is known of its messages holds here too.
And between the two, what is enqueued is a function of the records alone (`enqueued_eq`).
`onMessages_messages` then says that the xApp receives the items that the messages decode
to, whatever the messages are.
-/

namespace RunOran

open Protobuf

/-! ## The machine -/

/-- A collector and the service of one subscription. -/
structure Du where
  collector : SrsDataCollector
  service : SrsReportService
  deriving DecidableEq

/-- A call that reaches one of the two. -/
inductive DuEvent where
  | addSrsData (call : AddCall)
  | collectMeasurements
  | getIndicationMessage (appendOk : Bool)
  deriving DecidableEq

/-- The records that a call takes from the collector and the messages that it returns. -/
structure DuResult where
  records : List UeSrsData := []
  messages : List Bytes := []

/-- The additions among some events. -/
def additions (events : List DuEvent) : List AddCall :=
  events.filterMap fun e =>
    match e with
    | .addSrsData call => some call
    | _ => none

/-- What an event is to the collector. -/
def DuEvent.collectorOps : DuEvent → List CollectorOp
  | .addSrsData call => [.addSrsData call]
  | .collectMeasurements => [.getAllCompleteUeData]
  | .getIndicationMessage _ => []

/-- The calls of a run in which every append succeeds. -/
def AllAppendsSucceed (events : List DuEvent) : Prop :=
  DuEvent.getIndicationMessage false ∉ events

instance (events : List DuEvent) : Decidable (AllAppendsSucceed events) :=
  inferInstanceAs (Decidable (_ ∉ events))

@[simp] theorem additions_nil : additions [] = [] := rfl

theorem additions_append (events events' : List DuEvent) :
    additions (events ++ events') = additions events ++ additions events' :=
  List.filterMap_append ..

namespace Du

/-- A new collector with a new service. -/
def init (config : GnbSrsConfig) : Du := ⟨SrsDataCollector.init config, SrsReportService.init⟩

/-- One call. -/
def step (d : Du) : DuEvent → Du × DuResult
  | .addSrsData call => ({ d with collector := d.collector.addSrsData call }, {})
  | .collectMeasurements =>
    let collected := d.service.collectMeasurements d.collector
    (⟨collected.2.2, collected.2.1⟩, { records := d.collector.getAllCompleteUeData.1 })
  | .getIndicationMessage appendOk =>
    let indication := d.service.getIndicationMessage appendOk
    ({ d with service := indication.2 }, { messages := [indication.1] })

/-- The state after a sequence of calls. -/
abbrev run (d : Du) (events : List DuEvent) : Du := Mealy.exec step d events

/-- The records that the collections of a run take from the collector, in order. -/
def records (d : Du) (events : List DuEvent) : List UeSrsData :=
  Mealy.observe step (fun _ result => result.records) d events

/-- The messages of a run, in order. -/
def messages (d : Du) (events : List DuEvent) : List Bytes :=
  Mealy.observe step (fun _ result => result.messages) d events

/-- What an event is to the service. -/
def serviceCall (d : Du) : DuEvent → List ServiceCall
  | .addSrsData _ => []
  | .collectMeasurements => [.collectMeasurements d.collector]
  | .getIndicationMessage appendOk => [.getIndicationMessage appendOk]

/-- What a run is to the service. -/
def serviceCalls : Du → List DuEvent → List ServiceCall
  | _, [] => []
  | d, e :: es => d.serviceCall e ++ serviceCalls (d.step e).1 es

@[simp] theorem records_nil (d : Du) : d.records [] = [] := rfl

theorem records_cons (d : Du) (e : DuEvent) (es : List DuEvent) :
    d.records (e :: es) = (d.step e).2.records ++ (d.step e).1.records es :=
  Mealy.observe_cons ..

theorem messages_cons (d : Du) (e : DuEvent) (es : List DuEvent) :
    d.messages (e :: es) = (d.step e).2.messages ++ (d.step e).1.messages es :=
  Mealy.observe_cons ..

theorem records_append (d : Du) (es fs : List DuEvent) :
    d.records (es ++ fs) = d.records es ++ (d.run es).records fs :=
  Mealy.observe_append ..

/-! ## The two components -/

/-- **The collector goes through its own operations.** -/
theorem collector_run (events : List DuEvent) :
    ∀ d : Du, (d.run events).collector = d.collector.run (events.flatMap DuEvent.collectorOps) := by
  induction events with
  | nil => exact fun _ => rfl
  | cons e es ih =>
    intro d
    have hstep : (d.step e).1.collector = d.collector.run e.collectorOps := by cases e <;> rfl
    refine (ih (d.step e).1).trans ?_
    rw [hstep, List.flatMap_cons]
    exact (Mealy.exec_append ..).symm

theorem wellFormed_run {d : Du} (hd : d.collector.WellFormed) (events : List DuEvent) :
    (d.run events).collector.WellFormed := by
  rw [collector_run]
  exact hd.run _

theorem numRxAntennas_run (d : Du) (events : List DuEvent) :
    (d.run events).collector.numRxAntennas = d.collector.numRxAntennas := by
  rw [collector_run, SrsDataCollector.numRxAntennas_run]

/-- **The service goes through its own calls.** -/
theorem service_run (events : List DuEvent) :
    ∀ d : Du, (d.run events).service = d.service.run (d.serviceCalls events) := by
  induction events with
  | nil => exact fun _ => rfl
  | cons e es ih =>
    intro d
    have hstep : (d.step e).1.service = d.service.run (d.serviceCall e) := by cases e <;> rfl
    refine (ih (d.step e).1).trans ?_
    rw [hstep, serviceCalls]
    exact (Mealy.exec_append ..).symm

theorem messages_eq (events : List DuEvent) :
    ∀ d : Du, d.messages events = d.service.messages (d.serviceCalls events) := by
  induction events with
  | nil => exact fun _ => rfl
  | cons e es ih =>
    intro d
    rw [messages_cons, ih, serviceCalls, SrsReportService.messages, SrsReportService.messages,
      Mealy.observe_append]
    cases e <;> rfl

theorem appendsSucceed_serviceCalls {events : List DuEvent} :
    ∀ d : Du, AllAppendsSucceed events →
      SrsReportService.AppendsSucceed (d.serviceCalls events) := by
  induction events with
  | nil => exact fun _ _ => List.not_mem_nil
  | cons e es ih =>
    intro d h
    rw [AllAppendsSucceed, List.mem_cons, not_or] at h
    obtain ⟨hfirst, hrest⟩ := h
    rw [SrsReportService.AppendsSucceed, serviceCalls, List.mem_append, not_or]
    refine ⟨fun hmem => hfirst ?_, ih _ hrest⟩
    cases e with
    | addSrsData call => cases hmem
    | collectMeasurements => cases List.mem_singleton.mp hmem
    | getIndicationMessage appendOk =>
      rw [ServiceCall.getIndicationMessage.inj (List.mem_singleton.mp hmem)]

end Du

/-! ## What the records add to the queue -/

namespace SrsReportService

/-- The keys known after some records. -/
def keysAfter (sent : Finset UInt64) (records : List UeSrsData) : Finset UInt64 :=
  records.foldl (fun sent ue => sent ∪ recordKeys ue) sent

/-- What some records add to the queue, one after the other. -/
def recordsItems : Finset UInt64 → List UeSrsData → List SrsStreamItem
  | _, [] => []
  | sent, ue :: records => recordItems sent ue ++ recordsItems (sent ∪ recordKeys ue) records

theorem recordsItems_append (records records' : List UeSrsData) :
    ∀ sent, recordsItems sent (records ++ records') =
      recordsItems sent records ++ recordsItems (keysAfter sent records) records' := by
  induction records with
  | nil => exact fun _ => rfl
  | cons ue records ih =>
    intro sent
    rw [List.cons_append, recordsItems, recordsItems, ih, List.append_assoc]
    rfl

theorem mem_recordItems {sent : Finset UInt64} {ue : UeSrsData} {item : SrsStreamItem} :
    item ∈ recordItems sent ue ↔
      (∃ a ∈ ue.antennaData, antennaKey ue.rnti a.antennaId ∉ sent ∧ ue.generatedItem a = item) ∨
        ∃ a ∈ ue.antennaData, ue.receivedItem a = item := by
  simp only [recordItems, unsent, List.mem_append, List.mem_map, List.mem_filter,
    decide_eq_true_eq, (sortedAntennas_perm ue.antennaData).mem_iff, and_assoc]

theorem mem_recordKeys {ue : UeSrsData} {key : UInt64} :
    key ∈ recordKeys ue ↔ ∃ a ∈ ue.antennaData, antennaKey ue.rnti a.antennaId = key := by
  rw [recordKeys, List.mem_toFinset, List.mem_map]

/-- What is enqueued comes from a record. -/
theorem exists_of_mem_recordsItems {records : List UeSrsData} {item : SrsStreamItem} :
    ∀ {sent : Finset UInt64}, item ∈ recordsItems sent records →
      ∃ ue ∈ records, ∃ a ∈ ue.antennaData,
        ue.generatedItem a = item ∨ ue.receivedItem a = item := by
  induction records with
  | nil =>
    intro _ hitem
    cases hitem
  | cons ue records ih =>
    intro sent hitem
    rw [recordsItems, List.mem_append, mem_recordItems] at hitem
    rcases hitem with (⟨a, ha, -, rfl⟩ | ⟨a, ha, rfl⟩) | hrest
    · exact ⟨ue, List.mem_cons_self, a, ha, Or.inl rfl⟩
    · exact ⟨ue, List.mem_cons_self, a, ha, Or.inr rfl⟩
    · obtain ⟨ue', hue', hex⟩ := ih hrest
      exact ⟨ue', List.mem_cons_of_mem _ hue', hex⟩

theorem enqueueRecords_eq (records : List UeSrsData) :
    (∀ ue ∈ records, (antennaIds ue.antennaData).Nodup) → ∀ s : SrsReportService,
      s.enqueueRecords records = ⟨s.pendingItems ++ recordsItems s.generatedSentKeys records,
        keysAfter s.generatedSentKeys records⟩ := by
  induction records with
  | nil =>
    intro _ s
    rw [recordsItems, List.append_nil]
    rfl
  | cons ue records ih =>
    intro h s
    have hrest := ih fun ue' hue' => h ue' (List.mem_cons_of_mem _ hue')
    rw [enqueueRecords, List.foldl_cons, ← enqueueRecords,
      enqueueRecord_eq s (h ue List.mem_cons_self), hrest, recordsItems, List.append_assoc]
    rfl

end SrsReportService

namespace Du

/-- A record that the collector hands over is well formed. -/
theorem wellFormed_of_mem_getAllCompleteUeData {c : SrsDataCollector} (hc : c.WellFormed)
    {ue : UeSrsData} (hue : ue ∈ c.getAllCompleteUeData.1) :
    ue.WellFormed c.numRxAntennas ue.rnti ∧ ue.isFull c.numRxAntennas = true := by
  obtain ⟨hentry, hfull⟩ := hc.mem_getAllCompleteUeData_iff.mp hue
  exact ⟨hc ue.rnti ue hentry, hfull⟩

/-- A record of a run was handed over by one of its collections. -/
theorem mem_records {d : Du} {events : List DuEvent} {ue : UeSrsData} :
    ue ∈ d.records events ↔ ∃ before after, events = before ++ .collectMeasurements :: after ∧
      ue ∈ (d.run before).collector.getAllCompleteUeData.1 := by
  rw [records, Mealy.mem_observe]
  refine ⟨?_, ?_⟩
  · rintro ⟨before, e, after, rfl, hue⟩
    cases e with
    | collectMeasurements => exact ⟨before, after, rfl, hue⟩
    | addSrsData call => cases hue
    | getIndicationMessage appendOk => cases hue
  · rintro ⟨before, after, rfl, hue⟩
    exact ⟨before, .collectMeasurements, after, rfl, hue⟩

theorem wellFormed_of_mem_records {d : Du} (hd : d.collector.WellFormed) {events : List DuEvent}
    {ue : UeSrsData} (hue : ue ∈ d.records events) :
    ue.WellFormed d.collector.numRxAntennas ue.rnti ∧
      ue.isFull d.collector.numRxAntennas = true := by
  obtain ⟨before, after, -, hmem⟩ := mem_records.mp hue
  have hrecord := wellFormed_of_mem_getAllCompleteUeData (wellFormed_run hd before) hmem
  rwa [numRxAntennas_run] at hrecord

/-- A collection: the queue grows by the items of the records. -/
theorem step_collectMeasurements {d : Du} (hd : d.collector.WellFormed) :
    (d.step .collectMeasurements).1.service =
      ⟨d.service.pendingItems ++ SrsReportService.recordsItems d.service.generatedSentKeys
          d.collector.getAllCompleteUeData.1,
        SrsReportService.keysAfter d.service.generatedSentKeys
          d.collector.getAllCompleteUeData.1⟩ :=
  SrsReportService.enqueueRecords_eq _
    (fun _ hue => (wellFormed_of_mem_getAllCompleteUeData hd hue).1.nodup) d.service

/-- **What is enqueued is a function of the records.** -/
theorem enqueued_eq (events : List DuEvent) :
    ∀ d : Du, d.collector.WellFormed → d.service.enqueued (d.serviceCalls events) =
      SrsReportService.recordsItems d.service.generatedSentKeys (d.records events) := by
  induction events with
  | nil => exact fun _ _ => rfl
  | cons e es ih =>
    intro d hd
    have hrest := ih (d.step e).1 (wellFormed_run hd [e])
    rw [serviceCalls, SrsReportService.enqueued, Mealy.observe_append, records_cons,
      SrsReportService.recordsItems_append]
    rw [SrsReportService.enqueued] at hrest
    cases e with
    | addSrsData call => exact hrest
    | getIndicationMessage appendOk =>
      have hsame : (d.step (.getIndicationMessage appendOk)).1.service.generatedSentKeys =
          d.service.generatedSentKeys := by
        simp only [step, SrsReportService.getIndicationMessage_eq]
      rw [hsame] at hrest
      exact hrest
    | collectMeasurements =>
      have hstep := step_collectMeasurements hd
      have hpushed : Mealy.observe SrsReportService.step (fun _ result => result.pushed) d.service
          (d.serviceCall .collectMeasurements) = SrsReportService.recordsItems
            d.service.generatedSentKeys d.collector.getAllCompleteUeData.1 := by
        have hqueue := SrsReportService.pendingItems_step_collect d.service d.collector
        have hservice : (d.service.step (.collectMeasurements d.collector)).1 =
            (d.step .collectMeasurements).1.service := rfl
        -- the queue before is a prefix of the queue after, so the rest is what was pushed
        rw [hservice, hstep] at hqueue
        refine (Mealy.observe_cons ..).trans ?_
        rw [Mealy.observe_nil, List.append_nil]
        exact (List.append_cancel_left hqueue).symm
      have hkeys : (d.step .collectMeasurements).1.service.generatedSentKeys =
          SrsReportService.keysAfter d.service.generatedSentKeys
            d.collector.getAllCompleteUeData.1 := by rw [hstep]
      rw [hkeys] at hrest
      rw [hpushed]
      exact congrArg _ hrest

end Du

/-! ## What the xApp receives -/

@[simp] theorem indicationItems_nil : indicationItems [] = [] := rfl

/-- The xApp gets out of a message what the DU's own deserializer does. -/
theorem indicationItems_serializeSrsIndication (items : List SrsStreamItem) :
    indicationItems (serializeSrsIndication items) =
      deserializeSrsIndication (serializeSrsIndication items) := by
  rcases Nat.lt_or_ge (encodeSrsIndication items).length (2 ^ 31) with hlt | hge
  · have hparse : Pb.SrsIndicationMessage.schema.parse (encodeSrsIndication items) =
        (indicationMessage items, true) :=
      Pb.SrsIndicationMessage.parse_encode hlt
    rw [serializeSrsIndication_of_lt hlt, indicationItems, deserializeSrsIndication, hparse]
    rfl
  · rw [deserializeSrsIndication_of_oversized hge]
    obtain ⟨len, hlen⟩ : ∃ len, (encodeSrsIndication items).length = len + 1 :=
      ⟨(encodeSrsIndication items).length - 1, by omega⟩
    rw [serializeSrsIndication, serializeToArray, if_neg (by omega), hlen, List.replicate_succ,
      indicationItems, Schema.parse_zero_cons]
    rfl

/-- So it is for all messages of a service. -/
theorem indicationItems_messages (s : SrsReportService) (calls : List ServiceCall) :
    (s.messages calls).flatMap indicationItems = s.decoded calls := by
  induction calls generalizing s with
  | nil => rfl
  | cons call calls ih =>
    simp only [SrsReportService.decoded, SrsReportService.messages, Mealy.observe_cons,
      List.flatMap_append] at ih ⊢
    rw [ih]
    refine congrArg (· ++ _) ?_
    cases call with
    | collectMeasurements c => rfl
    | getIndicationMessage appendOk =>
      simp only [SrsReportService.step, SrsReportService.getIndicationMessage_eq,
        List.flatMap_cons, List.flatMap_nil, List.append_nil]
      split
      · exact indicationItems_serializeSrsIndication _
      · rfl

/-- **The xApp handles the items that the messages decode to.** -/
theorem Du.onMessages_messages (d : Du) (x : SimpleRunOranXapp) (events : List DuEvent) :
    x.onMessages (d.messages events) = x.onItems (d.service.decoded (d.serviceCalls events)) := by
  rw [SimpleRunOranXapp.onMessages_eq, messages_eq, indicationItems_messages]

end RunOran
