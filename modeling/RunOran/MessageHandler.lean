import RunOran.EndToEnd

/-!
# The message handler

`e2_srs_message_handler::create_srs_indication`, the other way in which the DU can report
what the collector holds: one message for all complete UEs, each antenna with its
reference and its received stream, in the order in which the antennas were added.

The SRS service sends the same streams in another order and in many messages. The xApp ends
up in the same state (`reporting_paths_agree`): within an occasion the references may as
well come first (`onItems_references_first`), and references of different antennas can be
exchanged, as can the received streams (`onItems_references_perm`, `onItems_received_perm`).
-/

namespace RunOran

open Protobuf

/-- The stream items of a record, in the order in which its antennas were added. -/
def UeSrsData.streamItems (ue : UeSrsData) : List SrsStreamItem :=
  ue.antennaData.flatMap fun antenna => [ue.generatedItem antenna, ue.receivedItem antenna]

/-- `create_srs_indication`. -/
def createSrsIndication (c : SrsDataCollector) (appendOk : Bool) : Bytes × SrsDataCollector :=
  let collected := c.getAllCompleteUeData
  if collected.1 = [] then ([], collected.2)
  else
    let indicationVec := serializeSrsIndication (collected.1.flatMap UeSrsData.streamItems)
    -- the entries have left the collector, also where the append fails
    (if appendOk then indicationVec else [], collected.2)

/-! ## The order of the items within an occasion -/

attribute [ext] SimpleRunOranXapp

namespace SimpleRunOranXapp

variable {x : SimpleRunOranXapp} {key : UInt32 × UInt64}

/-- References of different antennas can be exchanged. -/
theorem onItem_references_comm (x : SimpleRunOranXapp) {g g' : SrsStreamItem}
    (hg : g.generated = true) (hg' : g'.generated = true) (hrnti : g.rnti = g'.rnti)
    (hne : g.antennaId ≠ g'.antennaId) : (x.onItem g).onItem g' = (x.onItem g').onItem g := by
  rw [onItem_generated _ hg, onItem_generated _ hg', onItem_generated _ hg,
    onItem_generated _ hg', ← hrnti]
  have hcomm : ∀ m : Streams, (m.insert g.antennaId g.srs).insert g'.antennaId g'.srs =
      (m.insert g'.antennaId g'.srs).insert g.antennaId g.srs := by
    intro m
    refine Std.ExtTreeMap.ext_getElem? fun a => ?_
    simp only [Std.ExtTreeMap.getElem?_insert, Std.LawfulEqCmp.compare_eq_iff_eq]
    by_cases ha : g'.antennaId = a
    · rw [if_pos ha, if_neg fun h => hne (h.trans ha.symm), if_pos ha]
    · simp only [if_neg ha]
  have hcache : ((x.storeGeneratedSrs g.rnti g.antennaId g.srs).storeGeneratedSrs g.rnti
      g'.antennaId g'.srs).generatedSrsCache =
      ((x.storeGeneratedSrs g.rnti g'.antennaId g'.srs).storeGeneratedSrs g.rnti
        g.antennaId g.srs).generatedSrsCache := by
    refine Std.ExtTreeMap.ext_getElem? fun r => ?_
    simp only [storeGeneratedSrs, Std.ExtTreeMap.getElem?_insert,
      Std.ExtTreeMap.getD_insert_self, hcomm]
    split <;> rfl
  exact SimpleRunOranXapp.ext rfl hcache rfl rfl rfl

/-- So can any number of them. -/
theorem onItems_references_perm (x : SimpleRunOranXapp) {items items' : List SrsStreamItem}
    {rnti : UInt32} (hperm : items.Perm items')
    (h : ∀ g ∈ items, g.generated = true ∧ g.rnti = rnti)
    (hids : (items.map SrsStreamItem.antennaId).Nodup) : x.onItems items = x.onItems items' := by
  apply hperm.foldl_eq'
  intro g hg g' hg' y
  by_cases heq : g = g'
  · rw [heq]
  · obtain ⟨hgen, hr⟩ := h g hg
    obtain ⟨hgen', hr'⟩ := h g' hg'
    refine onItem_references_comm y hgen hgen' (hr.trans hr'.symm) fun ha => heq ?_
    exact List.inj_on_of_nodup_map hids hg hg' ha

/-- A reference can be moved before a received stream that completes nothing. -/
theorem onItem_reference_comm {g item : SrsStreamItem} (hg : g.generated = true)
    (hitem : item.generated = false) (hfew : (x.arrived item).size < x.expectedRxAntennas) :
    (x.onItem item).onItem g = (x.onItem g).onItem item := by
  have hnot : ¬ x.Ready item.rnti (x.arrived item) :=
    fun hready => absurd hready.1 (Nat.not_le.mpr hfew)
  have harrived : (x.onItem g).arrived item = x.arrived item := by
    rw [arrived, arrived, receivedStreams_onItem_generated x hg]
  have hnot' : ¬ (x.onItem g).Ready item.rnti ((x.onItem g).arrived item) := by
    rw [harrived]
    exact fun hready => absurd hready.1 (by rw [expectedRxAntennas_onItem]; omega)
  rw [onItem_received _ hitem, if_neg hnot, onItem_generated _ hg, onItem_received _ hitem,
    if_neg hnot', harrived, onItem_generated _ hg]
  rfl

/-- And before several. -/
theorem onItems_reference_comm (hpending : x.pendingReceivedSrs = ∅) {g : SrsStreamItem}
    (hg : g.generated = true) {items : List SrsStreamItem} :
    (∀ item ∈ items, item.generated = false ∧ item.ueKey = key) →
      items.length < x.expectedRxAntennas →
        (x.onItems items).onItem g = (x.onItem g).onItems items := by
  induction items using List.reverseRecOn with
  | nil => exact fun _ _ => rfl
  | append_singleton items item ih =>
    intro h hfew
    obtain ⟨hitem, rfl⟩ := h item (by simp)
    have hlen : (items ++ [item]).length = items.length + 1 := by simp
    have hbefore : ∀ item' ∈ items, item'.generated = false ∧ item'.ueKey = item.ueKey :=
      fun item' hitem' => h item' (List.mem_append_left _ hitem')
    obtain ⟨-, hstreams, -⟩ := onItems_received_few hpending hbefore (by omega)
    have hsize : ((x.onItems items).arrived item).size < (x.onItems items).expectedRxAntennas := by
      rw [arrived_of_receivedStreams hstreams, expectedRxAntennas_onItems]
      exact lt_of_le_of_lt (size_streamsOf_le _) hfew
    rw [onItems_concat, onItems_concat, onItem_reference_comm hg hitem hsize,
      ih hbefore (by omega)]

/-- The references among some items. -/
def referencesIn (items : List SrsStreamItem) : List SrsStreamItem :=
  items.filter SrsStreamItem.generated

/-- The received streams among some items. -/
def receivedIn (items : List SrsStreamItem) : List SrsStreamItem :=
  items.filter fun item => !item.generated

/-- Where nothing waits, the references among the items of an occasion may as well come
first, as long as too few streams are received to complete it. -/
theorem onItems_references_first_few (hpending : x.pendingReceivedSrs = ∅)
    {items : List SrsStreamItem} :
    (∀ item ∈ items, item.ueKey = key) → (receivedIn items).length < x.expectedRxAntennas →
      x.onItems items = (x.onItems (referencesIn items)).onItems (receivedIn items) := by
  induction items using List.reverseRecOn with
  | nil => exact fun _ _ => rfl
  | append_singleton items item ih =>
    intro h hfew
    have hbefore : ∀ item' ∈ items, item'.ueKey = key :=
      fun item' hitem' => h item' (List.mem_append_left _ hitem')
    rw [receivedIn, List.filter_append, ← receivedIn, List.length_append] at hfew
    rw [onItems_concat, ih hbefore (by omega), referencesIn, referencesIn, receivedIn, receivedIn,
      List.filter_append, List.filter_append]
    cases hitem : item.generated with
    | false =>
      rw [List.filter_cons_of_neg (by simp [hitem]), List.filter_cons_of_pos (by simp [hitem]),
        List.filter_nil, List.filter_nil, List.append_nil, onItems_concat]
    | true =>
      rw [List.filter_cons_of_pos (by simp [hitem]), List.filter_cons_of_neg (by simp [hitem]),
        List.filter_nil, List.filter_nil, List.append_nil, onItems_concat]
      -- the reference moves before the streams received so far
      have hgenerated : ∀ g ∈ referencesIn items, g.generated = true :=
        fun g hg => (List.mem_filter.mp hg).2
      obtain ⟨hsame, -⟩ := x.onItems_references hgenerated
      have hearlier : ∀ item' ∈ receivedIn items, item'.generated = false ∧ item'.ueKey = key := by
        intro item' hitem'
        obtain ⟨hmem, hgen⟩ := List.mem_filter.mp hitem'
        exact ⟨by simpa using hgen, hbefore item' hmem⟩
      apply onItems_reference_comm (hsame.trans hpending) hitem hearlier
      rw [expectedRxAntennas_onItems]
      exact lt_of_le_of_lt (Nat.le_add_right _ _) hfew

/-- **Also if the last item, a received stream, completes the occasion.** -/
theorem onItems_references_first (hpending : x.pendingReceivedSrs = ∅)
    {front : List SrsStreamItem} {last : SrsStreamItem} (hlast : last.generated = false)
    (h : ∀ item ∈ front, item.ueKey = key) (hfew : (receivedIn front).length < x.expectedRxAntennas) :
    x.onItems (front ++ [last]) =
      (x.onItems (referencesIn (front ++ [last]))).onItems (receivedIn (front ++ [last])) := by
  rw [onItems_concat, onItems_references_first_few hpending h hfew, referencesIn, referencesIn,
    receivedIn, receivedIn, List.filter_append, List.filter_append,
    List.filter_cons_of_neg (by simp [hlast]), List.filter_cons_of_pos (by simp [hlast]),
    List.filter_nil, List.filter_nil, List.append_nil, onItems_concat]

/-- Received streams leave the cache alone. -/
theorem generatedSrsCache_onItems_received {items : List SrsStreamItem} :
    (∀ item ∈ items, item.generated = false) →
      (x.onItems items).generatedSrsCache = x.generatedSrsCache := by
  induction items using List.reverseRecOn with
  | nil => exact fun _ => rfl
  | append_singleton items item ih =>
    intro h
    have hstep : ((x.onItems items).onItem item).generatedSrsCache =
        (x.onItems items).generatedSrsCache := by
      rw [onItem_received _ (h item (by simp))]
      split <;> rfl
    rw [onItems_concat, hstep]
    exact ih fun item' hitem' => h item' (List.mem_append_left _ hitem')

/-- **The received streams that complete an occasion may come in any order.** -/
theorem onItems_received_perm {items items' : List SrsStreamItem} (hperm : items.Perm items')
    (hpending : x.pendingReceivedSrs = ∅)
    (h : ∀ item ∈ items, item.generated = false ∧ item.ueKey = key)
    (hlen : items.length = x.expectedRxAntennas)
    (hids : (items.map SrsStreamItem.antennaId).Nodup)
    (hrefs : ∀ item ∈ items, (x.generatedStream key.1 item.antennaId).isSome) :
    x.onItems items = x.onItems items' := by
  have h' : ∀ item ∈ items', item.generated = false ∧ item.ueKey = key :=
    fun item hitem => h item (hperm.mem_iff.mpr hitem)
  obtain ⟨hempty, hcompleted⟩ := onItems_occasion hpending h hlen hids hrefs
  obtain ⟨hempty', hcompleted'⟩ := onItems_occasion hpending h' (hperm.length_eq.symm.trans hlen)
    ((hperm.map _).nodup_iff.mp hids) fun item hitem => hrefs item (hperm.mem_iff.mpr hitem)
  apply SimpleRunOranXapp.ext
  · rw [expectedRxAntennas_onItems, expectedRxAntennas_onItems]
  · rw [generatedSrsCache_onItems_received fun item hitem => (h item hitem).1,
      generatedSrsCache_onItems_received fun item hitem => (h' item hitem).1]
  · rw [hempty, hempty']
  · rw [hcompleted, hcompleted', streamsOf_perm hperm hids]
  · rw [latestTimingAdvance_onItems, latestTimingAdvance_onItems]

/-- A reference that has arrived is cached. -/
theorem isSome_generatedStream_onItems {items : List SrsStreamItem} {rnti antennaId : UInt32} :
    (∃ g ∈ items, g.IsReferenceOf rnti antennaId) →
      ((x.onItems items).generatedStream rnti antennaId).isSome := by
  induction items using List.reverseRecOn with
  | nil => simp
  | append_singleton items item ih =>
    rw [exists_mem_concat, onItems_concat, generatedStream_onItem]
    rintro (hearlier | hitem)
    · split
      · rfl
      · exact ih hearlier
    · obtain ⟨hgen, hrnti, hid⟩ := hitem
      rw [if_pos ⟨hgen, hrnti, hid⟩]
      rfl

end SimpleRunOranXapp

/-! ## The items of a record, both ways -/

namespace UeSrsData

variable (ue : UeSrsData)

/-- The references of a record, as they arrive in the message of the handler. -/
def referencesWhole : List SrsStreamItem :=
  ue.antennaData.map fun a => (ue.generatedItem a).quantised

/-- The received streams of a record, as they arrive in the message of the handler. -/
def receivedWhole : List SrsStreamItem :=
  ue.antennaData.map fun a => (ue.receivedItem a).quantised

theorem referencesIn_streamItems :
    SimpleRunOranXapp.referencesIn (ue.streamItems.map SrsStreamItem.quantised) =
      ue.referencesWhole := by
  rw [streamItems, referencesWhole, SimpleRunOranXapp.referencesIn]
  induction ue.antennaData with
  | nil => rfl
  | cons a as ih =>
    rw [List.flatMap_cons, List.map_append, List.filter_append, ih]
    rfl

theorem receivedIn_streamItems :
    SimpleRunOranXapp.receivedIn (ue.streamItems.map SrsStreamItem.quantised) =
      ue.receivedWhole := by
  rw [streamItems, receivedWhole, SimpleRunOranXapp.receivedIn]
  induction ue.antennaData with
  | nil => rfl
  | cons a as ih =>
    rw [List.flatMap_cons, List.map_append, List.filter_append, ih]
    rfl

theorem ueKey_of_mem_streamItems {ue : UeSrsData} {item : SrsStreamItem}
    (h : item ∈ ue.streamItems) : item.ueKey = (ue.rnti, ue.timestamp) := by
  obtain ⟨a, -, hitem⟩ := List.mem_flatMap.mp h
  rcases List.mem_pair.mp hitem with rfl | rfl <;> rfl

/-- The last item is a received stream. -/
theorem exists_streamItems_concat {ue : UeSrsData} (h : ue.antennaData ≠ []) :
    ∃ front a, ue.streamItems = front ++ [ue.receivedItem a] := by
  obtain ⟨as, a, has⟩ := (List.eq_nil_or_concat' ue.antennaData).resolve_left h
  refine ⟨as.flatMap (fun a => [ue.generatedItem a, ue.receivedItem a]) ++ [ue.generatedItem a],
    a, ?_⟩
  rw [streamItems, has, List.flatMap_append, List.flatMap_singleton, List.append_assoc]
  rfl

/-- Without a key sent before, a record is queued with all its references. -/
theorem quantised_recordItems_of_new {ue : UeSrsData} {sent : Finset UInt64}
    (hnew : ∀ a ∈ ue.antennaData, antennaKey ue.rnti a.antennaId ∉ sent) :
    (SrsReportService.recordItems sent ue).map SrsStreamItem.quantised =
      ((sortedAntennas ue.antennaData).map fun a => (ue.generatedItem a).quantised) ++
        ue.receivedSent := by
  have hall : SrsReportService.unsent sent ue.rnti (sortedAntennas ue.antennaData) =
      sortedAntennas ue.antennaData :=
    List.filter_eq_self.mpr fun a ha => decide_eq_true (hnew a (mem_sortedAntennas.mp ha))
  rw [quantised_recordItems, referencesSent, hall]

theorem reference_of_mem_referencesWhole {ue : UeSrsData} {g : SrsStreamItem}
    (h : g ∈ ue.referencesWhole) : g.generated = true ∧ g.rnti = ue.rnti := by
  obtain ⟨a, -, rfl⟩ := List.mem_map.mp h
  exact ⟨rfl, rfl⟩

theorem occasion_of_mem_receivedWhole {ue : UeSrsData} {item : SrsStreamItem}
    (h : item ∈ ue.receivedWhole) :
    item.generated = false ∧ item.ueKey = (ue.rnti, ue.timestamp) := by
  obtain ⟨a, -, rfl⟩ := List.mem_map.mp h
  exact ⟨rfl, rfl⟩

theorem antennaId_referencesWhole (ue : UeSrsData) :
    ue.referencesWhole.map SrsStreamItem.antennaId = antennaIds ue.antennaData := by
  rw [referencesWhole, List.map_map]
  rfl

theorem antennaId_receivedWhole (ue : UeSrsData) :
    ue.receivedWhole.map SrsStreamItem.antennaId = antennaIds ue.antennaData := by
  rw [receivedWhole, List.map_map]
  rfl

end UeSrsData

section Record

variable {x : SimpleRunOranXapp} {ue : UeSrsData} (hpending : x.pendingReceivedSrs = ∅)
  (hlen : ue.antennaData.length = x.expectedRxAntennas)

include hpending hlen

/-- In the message of the handler, too, the references of a record may as well come first. -/
theorem onItems_streamItems_references_first :
    x.onItems (ue.streamItems.map SrsStreamItem.quantised) =
      (x.onItems ue.referencesWhole).onItems ue.receivedWhole := by
  have hne : ue.antennaData ≠ [] := by
    intro hnil
    have hpos := x.expected_pos
    rw [← hlen, hnil] at hpos
    exact absurd hpos (by simp)
  obtain ⟨front, a, hfront⟩ := UeSrsData.exists_streamItems_concat hne
  have hkeys : ∀ item ∈ front.map SrsStreamItem.quantised,
      item.ueKey = (ue.rnti, ue.timestamp) := by
    intro item hitem
    obtain ⟨item, hmem, rfl⟩ := List.mem_map.mp hitem
    have hmem' : item ∈ ue.streamItems := by
      rw [hfront]
      exact List.mem_append_left _ hmem
    rw [SrsStreamItem.ueKey_quantised]
    exact UeSrsData.ueKey_of_mem_streamItems hmem'
  have hsplit : ue.streamItems.map SrsStreamItem.quantised =
      front.map SrsStreamItem.quantised ++ [(ue.receivedItem a).quantised] := by
    rw [hfront, List.map_append]
    rfl
  -- one received stream fewer than expected comes before the last
  have hcount := congrArg List.length ue.receivedIn_streamItems
  rw [hsplit, SimpleRunOranXapp.receivedIn, List.filter_append, List.length_append,
    ← SimpleRunOranXapp.receivedIn, UeSrsData.receivedWhole, List.length_map, hlen] at hcount
  have hlast : ([(ue.receivedItem a).quantised].filter fun item => !item.generated).length = 1 :=
    rfl
  rw [← ue.referencesIn_streamItems, ← ue.receivedIn_streamItems, hsplit]
  exact SimpleRunOranXapp.onItems_references_first hpending rfl hkeys (by omega)

/-- **A record leaves the xApp in the same state both ways**, and nothing waits. -/
theorem onItems_streamItems {sent : Finset UInt64} (hnodup : (antennaIds ue.antennaData).Nodup)
    (hnew : ∀ a ∈ ue.antennaData, antennaKey ue.rnti a.antennaId ∉ sent) :
    x.onItems (ue.streamItems.map SrsStreamItem.quantised) =
        x.onItems ((SrsReportService.recordItems sent ue).map SrsStreamItem.quantised) ∧
      (x.onItems (ue.streamItems.map SrsStreamItem.quantised)).pendingReceivedSrs = ∅ := by
  have hperm := SrsReportService.sortedAntennas_perm ue.antennaData
  have hgenerated : ∀ g ∈ ue.referencesWhole, g.generated = true :=
    fun g hg => (UeSrsData.reference_of_mem_referencesWhole hg).1
  obtain ⟨hsame, -⟩ := x.onItems_references hgenerated
  have hcached : ∀ item ∈ ue.receivedWhole,
      ((x.onItems ue.referencesWhole).generatedStream ue.rnti item.antennaId).isSome := by
    intro item hitem
    obtain ⟨a, ha, rfl⟩ := List.mem_map.mp hitem
    exact SimpleRunOranXapp.isSome_generatedStream_onItems
      ⟨(ue.generatedItem a).quantised, List.mem_map_of_mem ha, rfl, rfl, rfl⟩
  have hcomplete : ue.receivedWhole.length =
      (x.onItems ue.referencesWhole).expectedRxAntennas := by
    rw [SimpleRunOranXapp.expectedRxAntennas_onItems, UeSrsData.receivedWhole, List.length_map,
      hlen]
  have hids : (ue.receivedWhole.map SrsStreamItem.antennaId).Nodup := by
    rw [ue.antennaId_receivedWhole]
    exact hnodup
  have hsorted : x.onItems ue.referencesWhole = x.onItems
      ((sortedAntennas ue.antennaData).map fun a => (ue.generatedItem a).quantised) := by
    have hgids : (ue.referencesWhole.map SrsStreamItem.antennaId).Nodup := by
      rw [ue.antennaId_referencesWhole]
      exact hnodup
    exact x.onItems_references_perm (hperm.symm.map _)
      (fun g => UeSrsData.reference_of_mem_referencesWhole) hgids
  rw [onItems_streamItems_references_first hpending hlen]
  refine ⟨?_, ?_⟩
  · rw [UeSrsData.quantised_recordItems_of_new hnew, SimpleRunOranXapp.onItems_append,
      ← hsorted]
    exact SimpleRunOranXapp.onItems_received_perm (hperm.symm.map _) (hsame.trans hpending)
      (fun item => UeSrsData.occasion_of_mem_receivedWhole) hcomplete hids hcached
  · exact (SimpleRunOranXapp.onItems_occasion (hsame.trans hpending)
      (fun item => UeSrsData.occasion_of_mem_receivedWhole) hcomplete hids hcached).1

end Record

/-- **So do any number of records of different UEs.** -/
theorem onItems_flatMap_streamItems {records : List UeSrsData} :
    ∀ {sent : Finset UInt64} {x : SimpleRunOranXapp}, x.pendingReceivedSrs = ∅ →
      (records.map UeSrsData.rnti).Nodup →
      (∀ ue ∈ records, (antennaIds ue.antennaData).Nodup ∧
        ue.antennaData.length = x.expectedRxAntennas ∧
        ∀ a ∈ ue.antennaData, antennaKey ue.rnti a.antennaId ∉ sent) →
      x.onItems ((records.flatMap UeSrsData.streamItems).map SrsStreamItem.quantised) =
          x.onItems ((SrsReportService.recordsItems sent records).map SrsStreamItem.quantised) ∧
        (x.onItems ((records.flatMap UeSrsData.streamItems).map
          SrsStreamItem.quantised)).pendingReceivedSrs = ∅ := by
  induction records with
  | nil => exact fun hpending _ _ => ⟨rfl, hpending⟩
  | cons ue records ih =>
    intro sent x hpending hrntis hrecords
    rw [List.map_cons, List.nodup_cons] at hrntis
    obtain ⟨hnotMem, hrest⟩ := hrntis
    obtain ⟨hnodup, hlen, hnew⟩ := hrecords ue List.mem_cons_self
    obtain ⟨hsame, hempty⟩ := onItems_streamItems hpending hlen hnodup hnew
    rw [List.flatMap_cons, List.map_append, SimpleRunOranXapp.onItems_append,
      SrsReportService.recordsItems, List.map_append, SimpleRunOranXapp.onItems_append, ← hsame]
    apply ih hempty hrest
    intro ue' hue'
    obtain ⟨hnodup', hlen', hnew'⟩ := hrecords ue' (List.mem_cons_of_mem _ hue')
    refine ⟨hnodup', ?_, fun a ha hkey => ?_⟩
    · rw [SimpleRunOranXapp.expectedRxAntennas_onItems, hlen']
    · -- the keys that this record added are keys of another UE
      rcases Finset.mem_union.mp hkey with hold | hadded
      · exact hnew' a ha hold
      · obtain ⟨b, -, heq⟩ := SrsReportService.mem_recordKeys.mp hadded
        apply hnotMem
        rw [(antennaKey_inj.mp heq).1]
        exact List.mem_map_of_mem hue'

/-! ## The two paths -/

namespace SrsReportService

/-- Indications push nothing. -/
theorem enqueued_replicate (k : Nat) (appendOk : Bool) :
    ∀ s : SrsReportService,
      s.enqueued (List.replicate k (.getIndicationMessage appendOk)) = [] := by
  induction k with
  | zero => exact fun _ => rfl
  | succ k ih =>
    intro s
    rw [List.replicate_succ, enqueued, Mealy.observe_cons]
    exact ih _

/-- One collection by a new service, then indications. -/
def collectThenSend (c : SrsDataCollector) (k : Nat) : List ServiceCall :=
  .collectMeasurements c :: List.replicate k (.getIndicationMessage true)

theorem enqueued_collectThenSend {c : SrsDataCollector} (hc : c.WellFormed) (k : Nat) :
    init.enqueued (collectThenSend c k) = recordsItems ∅ c.getAllCompleteUeData.1 := by
  have hnodup : ∀ ue ∈ c.getAllCompleteUeData.1, (antennaIds ue.antennaData).Nodup :=
    fun ue hue => (Du.wellFormed_of_mem_getAllCompleteUeData hc hue).1.nodup
  have hqueue := enqueueRecords_eq _ hnodup init
  have hcollect : (init.step (.collectMeasurements c)).2.pushed =
      recordsItems ∅ c.getAllCompleteUeData.1 := by
    simp only [step, collectMeasurements, hqueue]
    rfl
  have hrest := enqueued_replicate k true (init.step (.collectMeasurements c)).1
  rw [enqueued] at hrest
  rw [collectThenSend, enqueued, Mealy.observe_cons, hcollect, hrest, List.append_nil]

/-- What a drained service has sent, if each stream fits by itself. -/
theorem decoded_collectThenSend {c : SrsDataCollector} (hc : c.WellFormed) {k : Nat}
    (hfits : ∀ item ∈ recordsItems ∅ c.getAllCompleteUeData.1,
      (encodeSrsIndication [item]).length < 2 ^ 31)
    (hdrained : (init.run (collectThenSend c k)).isIndMsgReady = false) :
    init.decoded (collectThenSend c k) =
      (recordsItems ∅ c.getAllCompleteUeData.1).map SrsStreamItem.quantised := by
  have hok : AppendsSucceed (collectThenSend c k) := by
    rw [AppendsSucceed, collectThenSend, List.mem_cons, not_or]
    exact ⟨by simp, fun hmem => by cases List.eq_of_mem_replicate hmem⟩
  have hpending : (init.run (collectThenSend c k)).pendingItems = [] := by
    simpa [isIndMsgReady] using hdrained
  have henqueued := enqueued_collectThenSend hc k
  obtain ⟨sent, hsent, hdecoded⟩ := exists_sent_of_fits init (collectThenSend c k) hok
    (by rw [henqueued]; exact hfits)
  rw [henqueued, hpending, List.append_nil] at hsent
  rw [hdecoded, ← hsent]
  rfl

theorem exists_drained_collectThenSend (c : SrsDataCollector) :
    ∃ k, (init.run (collectThenSend c k)).isIndMsgReady = false := by
  refine ⟨(init.step (.collectMeasurements c)).1.pendingItems.length, ?_⟩
  have hdrain := drain_pendingItems _ (init.step (.collectMeasurements c)).1 (Nat.le_refl _)
  rw [collectThenSend, run, Mealy.exec_cons, isIndMsgReady, hdrain]
  rfl

end SrsReportService

/-- The items of the handler are in the order of their UEs. -/
theorem sortItems_flatMap_streamItems {records : List UeSrsData}
    (h : (records.map UeSrsData.rnti).Pairwise (· < ·)) :
    sortItems (records.flatMap UeSrsData.streamItems) =
      records.flatMap UeSrsData.streamItems := by
  apply StableSort.sortByKey_of_sorted
  rw [List.pairwise_flatMap]
  refine ⟨fun ue _ => List.pairwise_of_forall_mem_list fun a ha b hb => ?_,
    (List.pairwise_map.mp h).imp fun {ue ue'} hlt a ha b hb => ?_⟩
  · rw [UeSrsData.ueKey_of_mem_streamItems ha, UeSrsData.ueKey_of_mem_streamItems hb]
  · rw [UeSrsData.ueKey_of_mem_streamItems ha, UeSrsData.ueKey_of_mem_streamItems hb, ueKeyRank,
      ueKeyRank, Prod.Lex.toLex_le_toLex]
    exact Or.inl (UInt32.lt_iff_toNat_lt.mp hlt)

/-- What the xApp gets out of the message of the handler. -/
theorem indicationItems_createSrsIndication {c : SrsDataCollector} (hc : c.WellFormed)
    (hfits : (encodeSrsIndication
      (c.getAllCompleteUeData.1.flatMap UeSrsData.streamItems)).length < 2 ^ 31) :
    indicationItems (createSrsIndication c true).1 =
      (c.getAllCompleteUeData.1.flatMap UeSrsData.streamItems).map SrsStreamItem.quantised := by
  rw [createSrsIndication]
  by_cases hnone : c.getAllCompleteUeData.1 = []
  · simp only [hnone, List.flatMap_nil, List.map_nil]
    rfl
  · simp only [if_neg hnone, if_pos]
    rw [indicationItems_serializeSrsIndication,
      deserializeSrsIndication_serializeSrsIndication hfits,
      sortItems_flatMap_streamItems hc.sorted_getAllCompleteUeData]

/-- What the service sends one by one fits if the one message of the handler does. -/
theorem SrsReportService.fits_of_mem_recordsItems {records : List UeSrsData}
    (hfits : (encodeSrsIndication (records.flatMap UeSrsData.streamItems)).length < 2 ^ 31)
    (sent : Finset UInt64) :
    ∀ item ∈ recordsItems sent records, (encodeSrsIndication [item]).length < 2 ^ 31 := by
  intro item hitem
  obtain ⟨ue, hue, a, ha, hor⟩ := exists_of_mem_recordsItems hitem
  apply lt_of_le_of_lt (length_encodeSrsIndication_singleton_le _) hfits
  refine List.mem_flatMap.mpr ⟨ue, hue, List.mem_flatMap.mpr ⟨a, ha, ?_⟩⟩
  rcases hor with rfl | rfl <;> simp

/-- **The two reporting paths agree.** In any reachable state of the collector, if the message
of the handler is within the limit of protobuf: the xApp that gets it and the xApp that gets
all messages of a new SRS service after one collection complete the same snapshots in the same
order, cache the same references, and nothing waits at either. -/
theorem reporting_paths_agree (config : GnbSrsConfig) (hn : 1 ≤ config.numRxAntennas.toNat)
    (ops : List CollectorOp)
    (hfits : (encodeSrsIndication (((SrsDataCollector.init config).run
      ops).getAllCompleteUeData.1.flatMap UeSrsData.streamItems)).length < 2 ^ 31) :
    let c := (SrsDataCollector.init config).run ops
    let x := SimpleRunOranXapp.init config.numRxAntennas.toNat
    let service := SrsReportService.init
    (∃ k, (service.run (SrsReportService.collectThenSend c k)).isIndMsgReady = false) ∧
    ∀ k, (service.run (SrsReportService.collectThenSend c k)).isIndMsgReady = false →
      let whole := x.onMessages [(createSrsIndication c true).1]
      let batched := x.onMessages (service.messages (SrsReportService.collectThenSend c k))
      whole.completedSrsMessages = batched.completedSrsMessages ∧
        whole.generatedSrsCache = batched.generatedSrsCache ∧
        whole.pendingReceivedSrs = ∅ ∧ batched.pendingReceivedSrs = ∅ := by
  intro c x service
  refine ⟨SrsReportService.exists_drained_collectThenSend c, fun k hdrained => ?_⟩
  have hc : c.WellFormed := (SrsDataCollector.wellFormed_init config).run ops
  have hexpected : x.expectedRxAntennas = c.numRxAntennas := by
    have hconfig : c.numRxAntennas = config.numRxAntennas.toNat :=
      SrsDataCollector.numRxAntennas_run _ ops
    rw [hconfig]
    simp only [x, SimpleRunOranXapp.init]
    omega
  have hone := SrsReportService.fits_of_mem_recordsItems hfits ∅
  have hrecords : ∀ ue ∈ c.getAllCompleteUeData.1, (antennaIds ue.antennaData).Nodup ∧
      ue.antennaData.length = x.expectedRxAntennas ∧
      ∀ a ∈ ue.antennaData, antennaKey ue.rnti a.antennaId ∉ (∅ : Finset UInt64) := by
    intro ue hue
    obtain ⟨hwell, hfull⟩ := Du.wellFormed_of_mem_getAllCompleteUeData hc hue
    refine ⟨hwell.nodup, ?_, fun _ _ => Finset.notMem_empty _⟩
    rw [hexpected]
    refine hwell.length_eq ?_ hfull
    rwa [SrsDataCollector.numRxAntennas_run]
  obtain ⟨hsame, hempty⟩ := onItems_flatMap_streamItems (x := x) rfl hc.nodup_rntis hrecords
  simp only [SimpleRunOranXapp.onMessages_eq, indicationItems_messages,
    List.flatMap_cons, List.flatMap_nil, List.append_nil,
    indicationItems_createSrsIndication hc hfits,
    service, SrsReportService.decoded_collectThenSend hc hone hdrained]
  rw [← hsame]
  exact ⟨rfl, rfl, hempty, hempty⟩

/-- Two complete UEs, their antennas added in descending order, and an incomplete one. -/
theorem reporting_paths_agree_two_ues :
    let config : GnbSrsConfig := ⟨2, 0, 0, ⟨0⟩, ⟨0⟩, ⟨0⟩⟩
    let c := (SrsDataCollector.init config).run
      [.addSrsData ⟨18, 1, [], [⟨.finite 1, .finite 0⟩], 1000⟩, .addSrsData ⟨19, 0, [], [], 1000⟩,
        .addSrsData ⟨18, 0, [⟨.finite 0, .finite 1⟩], [], 1000⟩,
        .addSrsData ⟨17, 3, [], [], 2000⟩, .addSrsData ⟨17, 2, [], [], 2000⟩]
    ((SimpleRunOranXapp.init 2).onMessages (SrsReportService.init.messages
        (SrsReportService.collectThenSend c 8))).completedSrsMessages =
      [⟨17, 2000, [⟨2, [], []⟩, ⟨3, [], []⟩], none⟩,
        ⟨18, 1000, [⟨0, [⟨.finite 0, .finite 1⟩], []⟩, ⟨1, [], [⟨.finite 1, .finite 0⟩]⟩], none⟩] := by
  intro config c
  have h := reporting_paths_agree config (by decide)
    [.addSrsData ⟨18, 1, [], [⟨.finite 1, .finite 0⟩], 1000⟩, .addSrsData ⟨19, 0, [], [], 1000⟩,
      .addSrsData ⟨18, 0, [⟨.finite 0, .finite 1⟩], [], 1000⟩,
      .addSrsData ⟨17, 3, [], [], 2000⟩, .addSrsData ⟨17, 2, [], [], 2000⟩]
    (by decide +kernel)
  refine (h.2 8 (by decide +kernel)).1.symm.trans ?_
  decide +kernel

/-! ## A message too large for protobuf -/

theorem paths_differ_of_oversized {received : List Cf} (h : 2 ^ 29 ≤ received.length) :
    let c := (SrsDataCollector.init ⟨1, 0, 0, ⟨0⟩, ⟨0⟩, ⟨0⟩⟩).run
      [.addSrsData ⟨17, 0, [], received, 1000⟩]
    let calls := SrsReportService.collectThenSend c 2
    (SrsReportService.init.run calls).isIndMsgReady = false ∧
      ((SimpleRunOranXapp.init 1).onMessages
          [(createSrsIndication c true).1]).generatedSrsCache ≠
        ((SimpleRunOranXapp.init 1).onMessages
          (SrsReportService.init.messages calls)).generatedSrsCache := by
  intro c calls
  have hrecords : c.getAllCompleteUeData.1 = [⟨17, 1000, [⟨0, [], received⟩]⟩] := by
    with_unfolding_all rfl
  have hitems : List.flatMap UeSrsData.streamItems [⟨17, 1000, [⟨0, [], received⟩]⟩] =
      [⟨17, 1000, 0, true, []⟩, ⟨17, 1000, 0, false, received⟩] := rfl
  have hmessage : (createSrsIndication c true).1 = serializeSrsIndication
      [⟨17, 1000, 0, true, []⟩, ⟨17, 1000, 0, false, received⟩] := by
    simp only [createSrsIndication, hrecords, if_pos]
    rw [if_neg (List.cons_ne_nil _ _), hitems]
  have hlost : deserializeSrsIndication (serializeSrsIndication
      [⟨17, 1000, 0, true, []⟩, ⟨17, 1000, 0, false, received⟩]) = [] :=
    deserializeSrsIndication_of_long_stream
      (List.mem_cons_of_mem _ (List.mem_singleton_self _)) h
  have hcalls : calls = [.collectMeasurements (SrsReportService.oneUeCollector [] received),
      .getIndicationMessage true, .getIndicationMessage true] := rfl
  obtain ⟨hdecoded, hpending⟩ := SrsReportService.decoded_of_oversized h
  rw [← hcalls] at hdecoded hpending
  refine ⟨?_, ?_⟩
  · rw [SrsReportService.isIndMsgReady, hpending]
    rfl
  · -- only the service's own message for the reference gets through
    simp only [SimpleRunOranXapp.onMessages_eq, indicationItems_messages,
      hdecoded, List.flatMap_cons, List.flatMap_nil, List.append_nil, hmessage,
      indicationItems_serializeSrsIndication, hlost]
    decide +kernel

/-- With a received stream of `2 ^ 29` samples the one message of the handler is lost with
everything in it, while the service gets the reference through. -/
theorem oversized_message_loses_reference :
    let c := (SrsDataCollector.init ⟨1, 0, 0, ⟨0⟩, ⟨0⟩, ⟨0⟩⟩).run
      [.addSrsData ⟨17, 0, [], List.replicate (2 ^ 29) ⟨.finite 0, .finite 0⟩, 1000⟩]
    let calls := SrsReportService.collectThenSend c 2
    (SrsReportService.init.run calls).isIndMsgReady = false ∧
      ((SimpleRunOranXapp.init 1).onMessages
          [(createSrsIndication c true).1]).generatedSrsCache ≠
        ((SimpleRunOranXapp.init 1).onMessages
          (SrsReportService.init.messages calls)).generatedSrsCache :=
  paths_differ_of_oversized (Nat.le_of_eq List.length_replicate.symm)

end RunOran
