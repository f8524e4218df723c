import CoreTex.Corpus.LogicalIds

/-!
# CoreTex.Corpus.LiveUpdates

Live updates keep logical and production ids in step (`corpus/logical-delta-bridge.ts`,
`corpus/delta.ts`).

`Admissible` is what a delta must keep for the next corpus to be sound too: a record's epoch is the
one that its id spells, and what is added is new to the events that stay. One step is
`Bridged.inStep` and `Bridged.sound`, a run of them `Sound.runInStep`.
-/

namespace CoreTex.Corpus

open CoreTex.Lib

/-! ### One step -/

/-- The events that a step keeps have none of the ids it adds, an id spells the epoch of its record,
and embeddings come with added docs only. -/
structure Admissible (host : Host ProductionCorpusEvent) (corpus : ProductionCorpus)
    (update : LogicalUpdate) (removals : List JsString) : Prop where
  docs_distinct : (update.logicalDelta.addedDocs.map fun doc => doc.id).Nodup
  docs_spelled : ∀ doc ∈ update.logicalDelta.addedDocs, doc.toLogicalRef.Spelled host
  docs_new : ∀ doc ∈ update.logicalDelta.addedDocs, ∀ event ∈ corpus.remaining removals,
    ¬ DocForm host doc.id event.id
  queries_distinct : (update.logicalDelta.addedQueries.map fun query =>
    productionQueryIdForAddedQuery query.toLogicalRef).Nodup
  queries_not_memory : ∀ query ∈ update.logicalDelta.addedQueries,
    isMemoryDocumentEventId query.id = false
  queries_new : ∀ query ∈ update.logicalDelta.addedQueries, ∀ event ∈ corpus.remaining removals,
    event.id ≠ productionQueryIdForAddedQuery query.toLogicalRef
  embeddings_new : ∀ docId, (update.addedDocEmbeddings.get docId).isSome = true →
    ∃ doc ∈ update.logicalDelta.addedDocs, doc.id = docId

/-- The doc is in the delta, or in the corpus and not removed. -/
def Stays (host : Host ProductionCorpusEvent) (corpus : ProductionCorpus) (update : LogicalUpdate)
    (removals : List JsString) (docId : JsString) : Prop :=
  (∃ doc ∈ update.logicalDelta.addedDocs, doc.id = docId) ∨
    ∃ event ∈ corpus.events, DocForm host docId event.id ∧ event.id ∉ removals

/-- What the bridge takes for a doc is one event's: a relation's target, a text, an embedding. -/
structure OneSource (host : Host ProductionCorpusEvent) (corpus : ProductionCorpus)
    (update : LogicalUpdate) (docId : JsString) (event : ProductionCorpusEvent) : Prop where
  target : productionMemIdForRelationTarget host corpus update.logicalDelta.addedDocs docId =
    event.id
  text : resolveDocMeta host docId update.logicalDelta.addedDocs corpus =
    event.truthDocuments.head?.map fun truth => (truth.text, truth.isCurrent)
  embedding : resolveDocEmbeddingBytes host docId update.addedDocEmbeddings corpus =
    event.embeddings.perTruth.get docId

/-- A step keeps logical and production ids together. -/
structure InStep (host : Host ProductionCorpusEvent) (corpus : ProductionCorpus)
    (update : LogicalUpdate) (additions : List ProductionCorpusEvent) (removals : List JsString)
    (next : ProductionCorpus) : Prop where
  distinct : (additions.map fun event => event.id).Nodup
  checked : ∀ event ∈ additions, checkAddition host corpus event = .ok ()
  relations : ∀ event ∈ additions, ∀ relation ∈ event.relations,
    ∃ edge ∈ update.logicalDelta.addedRelations,
      relation.otherId = productionMemIdForRelationTarget host corpus
        update.logicalDelta.addedDocs edge.dst ∧
      (Stays host corpus update removals edge.dst → next.has relation.otherId = true)
  of_corpus : ∀ docId, ∀ event ∈ corpus.events, DocForm host docId event.id →
    ((∀ doc ∈ update.logicalDelta.addedDocs, doc.id ≠ docId) →
        OneSource host corpus update docId event) ∧
      ∀ ref : LogicalRef, ref.id = docId →
        productionEventIdForLogicalDoc host corpus ref = some event.id
  of_docs : ∀ doc ∈ update.logicalDelta.addedDocs, ∃ event ∈ additions,
    bridgeDoc host corpus update doc = .ok event ∧ OneSource host corpus update doc.id event ∧
      event ∈ next.events ∧
      productionEventIdForLogicalDoc host next doc.toLogicalRef = some event.id
  of_queries : ∀ query ∈ update.logicalDelta.addedQueries, ∃ event ∈ additions,
    bridgeQuery host corpus update query = .ok event ∧ event ∈ next.events ∧
      productionEventIdForLogicalQuery host next query.toLogicalRef = some event.id

section Steps

variable {host : Host ProductionCorpusEvent} {corpus : ProductionCorpus} {update : LogicalUpdate}
  {removals : List JsString}

theorem forall₂_of_mem_left {α β : Type} {R : α → β → Prop} {xs : List α} {ys : List β}
    (h : List.Forall₂ R xs ys) {x : α} (hx : x ∈ xs) : ∃ y ∈ ys, R x y := by
  induction h with
  | nil => cases hx
  | cons hR _ ih =>
      rcases List.mem_cons.mp hx with rfl | hx
      · exact ⟨_, List.mem_cons_self, hR⟩
      · obtain ⟨y, hy, hxy⟩ := ih hx
        exact ⟨y, List.mem_cons_of_mem _ hy, hxy⟩

theorem map_eq_of_forall₂ {α β γ : Type} {R : α → β → Prop} {f : α → γ} {g : β → γ} {xs : List α}
    {ys : List β} (h : List.Forall₂ R xs ys) (hR : ∀ x y, R x y → g y = f x) :
    ys.map g = xs.map f := by
  induction h with
  | nil => rfl
  | cons hxy _ ih => rw [List.map_cons, List.map_cons, hR _ _ hxy, ih]

theorem bridgeDoc_eq_ok {doc : LogicalDeltaDoc} {event : ProductionCorpusEvent}
    (h : bridgeDoc host corpus update doc = .ok event) :
    ∃ embedding, update.addedDocEmbeddings.get doc.id = some embedding ∧
      event = docEvent host corpus update doc embedding := by
  obtain ⟨embedding, hembedding, h⟩ := bind_eq_ok.mp h
  cases h
  exact ⟨embedding, expect_eq_ok.mp hembedding, rfl⟩

/-- What the checks read of a query's event. -/
theorem bridgeQuery_eq_ok {query : LogicalDeltaQuery} {event : ProductionCorpusEvent}
    (h : bridgeQuery host corpus update query = .ok event) :
    event.id = productionQueryIdForAddedQuery query.toLogicalRef ∧
      event.split = host.splitForRecord event.id corpus.corpusEpoch ∧ event.relations = [] ∧
      event.embeddings.modelId = update.modelId ∧ event.embeddings.revision = update.revision := by
  obtain ⟨embedding, -, h⟩ := bind_eq_ok.mp h
  obtain ⟨truths, -, h⟩ := bind_eq_ok.mp h
  obtain ⟨negatives, -, h⟩ := bind_eq_ok.mp h
  obtain ⟨perTruth, -, h⟩ := bind_eq_ok.mp h
  obtain ⟨perNegative, -, h⟩ := bind_eq_ok.mp h
  obtain ⟨qrels, -, h⟩ := bind_eq_ok.mp h
  cases h
  exact ⟨rfl, rfl, rfl, rfl, rfl⟩

/-- The events of a bridged delta: those of its docs, then those of its queries. -/
structure Bridged (host : Host ProductionCorpusEvent) (corpus : ProductionCorpus)
    (update : LogicalUpdate) (docs queries : List ProductionCorpusEvent) : Prop where
  model : update.modelId = corpus.biEncoderModelId ∧ update.revision = corpus.biEncoderRevision
  docs : List.Forall₂ (fun doc event => bridgeDoc host corpus update doc = .ok event)
    update.logicalDelta.addedDocs docs
  queries : List.Forall₂ (fun query event => bridgeQuery host corpus update query = .ok event)
    update.logicalDelta.addedQueries queries

theorem bridge_eq_ok {additions : List ProductionCorpusEvent}
    (h : bridgeLogicalDeltaToProductionEvents host corpus update = .ok additions) :
    ∃ docs queries, additions = docs ++ queries ∧ Bridged host corpus update docs queries := by
  obtain ⟨hmodel, h⟩ := refuseIf_bind_eq_ok.mp h
  obtain ⟨docs, hdocs, h⟩ := bind_eq_ok.mp h
  obtain ⟨queries, hqueries, h⟩ := bind_eq_ok.mp h
  cases h
  simp only [not_or, not_not] at hmodel
  exact ⟨docs, queries, rfl, hmodel, mapM_eq_ok.mp hdocs, mapM_eq_ok.mp hqueries⟩

variable {docs queries : List ProductionCorpusEvent}

/-- The event of a doc that was bridged. -/
theorem Bridged.doc_of_mem (h : Bridged host corpus update docs queries)
    {event : ProductionCorpusEvent} (hevent : event ∈ docs) :
    ∃ doc ∈ update.logicalDelta.addedDocs, ∃ embedding,
      update.addedDocEmbeddings.get doc.id = some embedding ∧
        event = docEvent host corpus update doc embedding := by
  obtain ⟨doc, hdoc, hbridge⟩ := forall₂_of_mem_left h.docs.flip hevent
  exact ⟨doc, hdoc, bridgeDoc_eq_ok hbridge⟩

theorem Bridged.query_of_mem (h : Bridged host corpus update docs queries)
    {event : ProductionCorpusEvent} (hevent : event ∈ queries) :
    ∃ query ∈ update.logicalDelta.addedQueries, bridgeQuery host corpus update query = .ok event :=
  forall₂_of_mem_left h.queries.flip hevent

/-- A doc's event has one of the doc's ids. -/
theorem Bridged.docForm (h : Bridged host corpus update docs queries)
    (hadmissible : Admissible host corpus update removals) {event : ProductionCorpusEvent}
    (hevent : event ∈ docs) : ∃ doc ∈ update.logicalDelta.addedDocs,
      event.id = productionMemIdForAddedDoc doc.toLogicalRef ∧ DocForm host doc.id event.id := by
  obtain ⟨doc, hdoc, embedding, -, rfl⟩ := h.doc_of_mem hevent
  exact ⟨doc, hdoc, rfl, (hadmissible.docs_spelled doc hdoc).docForm⟩

/-- A query's event is no memory document. -/
theorem Bridged.not_memory (h : Bridged host corpus update docs queries)
    (hadmissible : Admissible host corpus update removals) {event : ProductionCorpusEvent}
    (hevent : event ∈ queries) : isMemoryDocumentEventId event.id = false := by
  obtain ⟨query, hquery, hbridge⟩ := h.query_of_mem hevent
  rw [(bridgeQuery_eq_ok hbridge).1, productionQueryIdForAddedQuery]
  cases query.liveUpdateEpoch with
  | none => exact hadmissible.queries_not_memory query hquery
  | some epoch => exact isMemory_liveTailQueryId query.id epoch

/-- What is added is new to the events that stay. -/
theorem Bridged.new (h : Bridged host corpus update docs queries)
    (hadmissible : Admissible host corpus update removals) {event old : ProductionCorpusEvent}
    (hevent : event ∈ docs ++ queries) (hold : old ∈ corpus.remaining removals) :
    old.id ≠ event.id := by
  intro hsame
  rcases List.mem_append.mp hevent with hdoc | hquery
  · obtain ⟨doc, hdoc, -, hform⟩ := h.docForm hadmissible hdoc
    exact hadmissible.docs_new doc hdoc old hold (hsame ▸ hform)
  · obtain ⟨query, hquery, hbridge⟩ := h.query_of_mem hquery
    exact hadmissible.queries_new query hquery old hold
      (hsame.trans (bridgeQuery_eq_ok hbridge).1)

/-- What is added has distinct ids. -/
theorem Bridged.distinct (h : Bridged host corpus update docs queries)
    (hadmissible : Admissible host corpus update removals) :
    ((docs ++ queries).map fun event => event.id).Nodup := by
  have hdocs : docs.map (fun event => event.id) = update.logicalDelta.addedDocs.map
      fun doc => productionMemIdForAddedDoc doc.toLogicalRef := by
    refine map_eq_of_forall₂ h.docs fun doc event hbridge => ?_
    obtain ⟨embedding, -, rfl⟩ := bridgeDoc_eq_ok hbridge
    rfl
  have hqueries : queries.map (fun event => event.id) = update.logicalDelta.addedQueries.map
      fun query => productionQueryIdForAddedQuery query.toLogicalRef :=
    map_eq_of_forall₂ h.queries fun query event hbridge => (bridgeQuery_eq_ok hbridge).1
  have hdocsNodup : (docs.map fun event => event.id).Nodup := by
    rw [hdocs]
    refine List.Nodup.map_on ?_ (List.Nodup.of_map _ hadmissible.docs_distinct)
    intro a ha b hb hsame
    refine List.inj_on_of_nodup_map hadmissible.docs_distinct ha hb ?_
    have hform := (hadmissible.docs_spelled b hb).docForm
    rw [← hsame] at hform
    exact (hadmissible.docs_spelled a ha).docForm.unique hform
  rw [List.map_append]
  refine List.nodup_append.mpr ⟨hdocsNodup, hqueries ▸ hadmissible.queries_distinct, ?_⟩
  -- An id of a doc is of memory form, an id of a query is not.
  rintro a ha b hb rfl
  obtain ⟨doc, hdoc, rfl⟩ := List.mem_map.mp ha
  obtain ⟨query, hquery, hsame⟩ := List.mem_map.mp hb
  obtain ⟨_, _, -, hform⟩ := h.docForm hadmissible hdoc
  have hmemory := h.not_memory hadmissible hquery
  rw [hsame, hform.isMemory] at hmemory
  cases hmemory

/-- What is added passes the checks of split and model. -/
theorem Bridged.checked (h : Bridged host corpus update docs queries)
    (hadmissible : Admissible host corpus update removals) {event : ProductionCorpusEvent}
    (hevent : event ∈ docs ++ queries) : checkAddition host corpus event = .ok () := by
  obtain ⟨hmodel, hrevision⟩ := h.model
  have hchecks : event.split = expectedSplitForRecord host event.id corpus.corpusEpoch ∧
      event.embeddings.modelId = corpus.biEncoderModelId ∧
      event.embeddings.revision = corpus.biEncoderRevision := by
    rcases List.mem_append.mp hevent with hdoc | hquery
    · obtain ⟨_, _, -, hform⟩ := h.docForm hadmissible hdoc
      rw [expectedSplitForRecord, hform.isMemory]
      obtain ⟨doc, hdoc, embedding, -, rfl⟩ := h.doc_of_mem hdoc
      exact ⟨rfl, hmodel, hrevision⟩
    · rw [expectedSplitForRecord, h.not_memory hadmissible hquery]
      obtain ⟨query, hquery, hbridge⟩ := h.query_of_mem hquery
      obtain ⟨-, hsplit, -, hm, hr⟩ := bridgeQuery_eq_ok hbridge
      exact ⟨hsplit, hm.trans hmodel, hr.trans hrevision⟩
  obtain ⟨hsplit, hm, hr⟩ := hchecks
  refine refuseIf_bind_eq_ok.mpr ⟨not_not.mpr hsplit, ?_⟩
  exact refuseIf_eq_ok.mpr (by simp [hm, hr])

theorem checkRecord_of_checkAddition {event : ProductionCorpusEvent}
    (h : checkAddition host corpus event = .ok ()) : checkRecord host corpus event = .ok () := by
  obtain ⟨_, hsplit, hmodel⟩ := bind_eq_ok.mp h
  exact bind_eq_ok.mpr ⟨(), hmodel, hsplit⟩

/-- The corpus after a step. -/
def ProductionCorpus.after (host : Host ProductionCorpusEvent) (corpus : ProductionCorpus)
    (additions : List ProductionCorpusEvent) (removals : List JsString) : ProductionCorpus :=
  { corpus with
    events := corpus.remaining removals ++ additions
    corpusRoot := host.computeCorpusRoot (corpus.remaining removals ++ additions) }

theorem mem_remaining {event : ProductionCorpusEvent} :
    event ∈ corpus.remaining removals ↔ event ∈ corpus.events ∧ event.id ∉ removals := by
  rw [ProductionCorpus.remaining, List.mem_filter, decide_eq_true_eq]

/-- New additions are built into a delta, and the delta is applied. -/
theorem build_apply {additions : List ProductionCorpusEvent}
    (hnew : ∀ event ∈ additions, ∀ old ∈ corpus.remaining removals, old.id ≠ event.id)
    (hdistinct : (additions.map fun event => event.id).Nodup)
    (hchecked : ∀ event ∈ additions, checkAddition host corpus event = .ok ()) :
    ∃ delta, buildCorpusDelta host corpus additions removals = .ok delta ∧
      applyCorpusDelta host corpus delta = .ok (corpus.after host additions removals) := by
  have hall : additions.filter (fun event => decide
      (event.id ∉ (corpus.remaining removals).map fun e => e.id)) = additions := by
    refine List.filter_eq_self.mpr fun event hevent => decide_eq_true fun hmem => ?_
    obtain ⟨old, hold, hsame⟩ := List.mem_map.mp hmem
    exact hnew event hevent old hold hsame
  have hkept : corpus.events.filter (fun event => decide
      (event.id ∉ removals.filter corpus.has ∧ event.id ∉ additions.map fun e => e.id)) =
        corpus.remaining removals := by
    refine List.filter_congr fun event hevent => decide_eq_decide.mpr ?_
    have hhas : corpus.has event.id = true := has_iff.mpr ⟨event, hevent, rfl⟩
    have hother : event.id ∉ removals → event.id ∉ additions.map fun e => e.id := by
      intro hkept hmem
      obtain ⟨added, hadded, hsame⟩ := List.mem_map.mp hmem
      exact hnew added hadded event (mem_remaining.mpr ⟨hevent, hkept⟩) hsame.symm
    rw [List.mem_filter]
    exact ⟨fun h hmem => h.1 ⟨hmem, hhas⟩, fun h => ⟨fun hmem => h hmem.1, hother h⟩⟩
  have hforM : additions.forM (checkAddition host corpus) = .ok () := forM_eq_ok.mpr hchecked
  have hrecords : additions.forM (checkRecord host corpus) = .ok () :=
    forM_eq_ok.mpr fun event hevent => checkRecord_of_checkAddition (hchecked event hevent)
  refine ⟨_, by
    rw [buildCorpusDelta]
    simp only [hall, hforM, ok_bind]
    rfl, ?_⟩
  rw [applyCorpusDelta]
  refine refuseIf_bind_eq_ok.mpr ⟨not_not.mpr rfl, ?_⟩
  refine refuseIf_bind_eq_ok.mpr ⟨by simp, ?_⟩
  refine refuseIf_bind_eq_ok.mpr ⟨not_not.mpr hdistinct, ?_⟩
  refine refuseIf_bind_eq_ok.mpr ⟨fun ⟨id, hid, hnot⟩ => hnot hid, ?_⟩
  refine refuseIf_bind_eq_ok.mpr ⟨fun ⟨id, hid, hnot⟩ => hnot hid, ?_⟩
  simp only [hkept, hrecords, ok_bind]
  exact refuseIf_bind_eq_ok.mpr ⟨not_not.mpr rfl, rfl⟩

/-- A step keeps a corpus sound. -/
theorem Bridged.sound (h : Bridged host corpus update docs queries)
    (hadmissible : Admissible host corpus update removals) (hsound : Sound host corpus) :
    Sound host (corpus.after host (docs ++ queries) removals) where
  nodup := by
    change ((corpus.remaining removals ++ (docs ++ queries)).map fun event => event.id).Nodup
    rw [List.map_append]
    refine List.nodup_append.mpr ⟨hsound.nodup.sublist ((List.filter_sublist).map _),
      h.distinct hadmissible, ?_⟩
    rintro a ha b hb rfl
    obtain ⟨old, hold, rfl⟩ := List.mem_map.mp ha
    obtain ⟨event, hevent, hsame⟩ := List.mem_map.mp hb
    exact h.new hadmissible hevent hold hsame.symm
  memory := by
    intro event hevent hmemory
    rcases List.mem_append.mp hevent with hold | hadded
    · exact hsound.memory event (mem_remaining.mp hold).1 hmemory
    · rcases List.mem_append.mp hadded with hdoc | hquery
      · obtain ⟨doc, -, -, hform⟩ := h.docForm hadmissible hdoc
        exact ⟨doc.id, hform⟩
      · rw [h.not_memory hadmissible hquery] at hmemory
        cases hmemory
  one := by
    -- an event of a doc is an old one, or that of the delta's own doc
    have hsplit : ∀ docId, ∀ event ∈ (corpus.after host (docs ++ queries) removals).events,
        DocForm host docId event.id → event ∈ corpus.remaining removals ∨
          event ∈ docs ∧ ∃ doc ∈ update.logicalDelta.addedDocs, doc.id = docId := by
      intro docId event hevent hform
      rcases List.mem_append.mp hevent with hold | hadded
      · exact .inl hold
      · rcases List.mem_append.mp hadded with hdoc | hquery
        · obtain ⟨doc, hdoc', -, hdocForm⟩ := h.docForm hadmissible hdoc
          exact .inr ⟨hdoc, doc, hdoc', hdocForm.unique hform⟩
        · have hmemory := h.not_memory hadmissible hquery
          rw [hform.isMemory] at hmemory
          cases hmemory
    intro docId event hevent other hother hform hform'
    rcases hsplit docId event hevent hform with hold | ⟨hdoc, doc, hmem, rfl⟩
    · rcases hsplit docId other hother hform' with hold' | ⟨-, doc, hmem, rfl⟩
      · exact hsound.one docId event (mem_remaining.mp hold).1 other (mem_remaining.mp hold').1
          hform hform'
      · exact absurd hform (hadmissible.docs_new doc hmem event hold)
    · rcases hsplit doc.id other hother hform' with hold' | ⟨hdoc', -⟩
      · exact absurd hform' (hadmissible.docs_new doc hmem other hold')
      · obtain ⟨a, ha, embedding, hembedding, rfl⟩ := h.doc_of_mem hdoc
        obtain ⟨b, hb, embedding', hembedding', rfl⟩ := h.doc_of_mem hdoc'
        have hid : a.id = b.id :=
          ((hadmissible.docs_spelled a ha).docForm.unique hform).trans
            ((hadmissible.docs_spelled b hb).docForm.unique hform').symm
        obtain rfl := List.inj_on_of_nodup_map hadmissible.docs_distinct ha hb hid
        cases hembedding.symm.trans hembedding'
        rfl

theorem addedDoc_of_mem (hadmissible : Admissible host corpus update removals)
    {doc : LogicalDeltaDoc} (hdoc : doc ∈ update.logicalDelta.addedDocs) :
    addedDoc update.logicalDelta.addedDocs doc.id = some doc :=
  lastWith_of_mem hadmissible.docs_distinct hdoc

/-- A doc that is not added is looked up in the corpus. -/
theorem addedDoc_of_not_added (hadmissible : Admissible host corpus update removals)
    {docId : JsString} (hnone : ∀ doc ∈ update.logicalDelta.addedDocs, doc.id ≠ docId) :
    addedDoc update.logicalDelta.addedDocs docId = none ∧
      update.addedDocEmbeddings.get docId = none := by
  constructor
  · rw [Option.eq_none_iff_forall_not_mem]
    intro doc hdoc
    obtain ⟨hmem, hid⟩ := lastWith_eq_some hdoc
    exact hnone doc hmem hid
  · rw [← Option.not_isSome_iff_eq_none]
    intro hsome
    obtain ⟨doc, hdoc, hid⟩ := hadmissible.embeddings_new docId hsome
    exact hnone doc hdoc hid

theorem oneSource_of_corpus (hadmissible : Admissible host corpus update removals)
    (hsound : Sound host corpus) {docId : JsString} {event : ProductionCorpusEvent}
    (hevent : event ∈ corpus.events) (hform : DocForm host docId event.id)
    (hnone : ∀ doc ∈ update.logicalDelta.addedDocs, doc.id ≠ docId) :
    OneSource host corpus update docId event := by
  obtain ⟨hadded, hembedding⟩ := addedDoc_of_not_added hadmissible hnone
  have hprevious := hsound.previousMemoryEvent hevent hform
  exact {
    target := hsound.relationTarget hevent hform hadded
    text := by
      rw [resolveDocMeta, hadded, hprevious]
      rfl
    embedding := by
      rw [resolveDocEmbeddingBytes, hembedding, hprevious]
      rfl }

theorem oneSource_of_doc (hadmissible : Admissible host corpus update removals)
    {doc : LogicalDeltaDoc} (hdoc : doc ∈ update.logicalDelta.addedDocs) {embedding : Bytes}
    (hembedding : update.addedDocEmbeddings.get doc.id = some embedding) :
    OneSource host corpus update doc.id (docEvent host corpus update doc embedding) := by
  have hadded := addedDoc_of_mem hadmissible hdoc
  exact {
    target := by
      rw [productionMemIdForRelationTarget, hadded]
      rfl
    text := by
      rw [resolveDocMeta, hadded]
      rfl
    embedding := by
      rw [resolveDocEmbeddingBytes, hembedding]
      simp [docEvent, JsMap.get_cons] }

/-- A step keeps logical and production ids together. -/
theorem Bridged.inStep (h : Bridged host corpus update docs queries)
    (hadmissible : Admissible host corpus update removals) (hsound : Sound host corpus) :
    InStep host corpus update (docs ++ queries) removals
      (corpus.after host (docs ++ queries) removals) := by
  have hnext := h.sound hadmissible hsound
  have hadded : ∀ event ∈ docs ++ queries,
      event ∈ (corpus.after host (docs ++ queries) removals).events :=
    fun event hevent => List.mem_append_right _ hevent
  have hstays : ∀ docId, Stays host corpus update removals docId →
      (corpus.after host (docs ++ queries) removals).has
        (productionMemIdForRelationTarget host corpus update.logicalDelta.addedDocs docId) =
          true := by
    rintro docId (⟨doc, hdoc, rfl⟩ | ⟨event, hevent, hform, hkept⟩)
    · obtain ⟨event, hevent, hbridge⟩ := forall₂_of_mem_left h.docs hdoc
      obtain ⟨embedding, hembedding, rfl⟩ := bridgeDoc_eq_ok hbridge
      rw [(oneSource_of_doc hadmissible hdoc hembedding).target]
      exact has_iff.mpr ⟨_, hadded _ (List.mem_append_left _ hevent), rfl⟩
    -- What stays was not added again, so it is looked up in the corpus.
    · have hstays := mem_remaining.mpr ⟨hevent, hkept⟩
      have hnone : ∀ doc ∈ update.logicalDelta.addedDocs, doc.id ≠ docId := by
        rintro doc hdoc rfl
        exact hadmissible.docs_new doc hdoc event hstays hform
      rw [(oneSource_of_corpus hadmissible hsound hevent hform hnone).target]
      exact has_iff.mpr ⟨event, List.mem_append_left _ hstays, rfl⟩
  constructor
  case distinct => exact h.distinct hadmissible
  case checked => exact fun event hevent => h.checked hadmissible hevent
  case relations =>
    intro event hevent relation hrelation
    rcases List.mem_append.mp hevent with hdoc | hquery
    · obtain ⟨doc, -, embedding, -, rfl⟩ := h.doc_of_mem hdoc
      obtain ⟨edge, hedge, rfl⟩ := List.mem_map.mp hrelation
      exact ⟨edge, (List.mem_filter.mp hedge).1, rfl, hstays edge.dst⟩
    · obtain ⟨query, -, hbridge⟩ := h.query_of_mem hquery
      rw [(bridgeQuery_eq_ok hbridge).2.2.1] at hrelation
      cases hrelation
  case of_corpus =>
    intro docId event hevent hform
    refine ⟨oneSource_of_corpus hadmissible hsound hevent hform, ?_⟩
    rintro ref rfl
    exact hsound.productionEventId hevent hform
  case of_docs =>
    intro doc hdoc
    obtain ⟨event, hevent, hbridge⟩ := forall₂_of_mem_left h.docs hdoc
    obtain ⟨embedding, hembedding, rfl⟩ := bridgeDoc_eq_ok hbridge
    have hmem := List.mem_append_left queries hevent
    exact ⟨_, hmem, hbridge, oneSource_of_doc hadmissible hdoc hembedding, hadded _ hmem,
      hnext.productionEventId (hadded _ hmem) (hadmissible.docs_spelled doc hdoc).docForm⟩
  case of_queries =>
    intro query hquery
    obtain ⟨event, hevent, hbridge⟩ := forall₂_of_mem_left h.queries hquery
    have hid := (bridgeQuery_eq_ok hbridge).1
    have hmem := List.mem_append_right docs hevent
    refine ⟨event, hmem, hbridge, hadded _ hmem, ?_⟩
    rw [hid]
    exact productionEventIdForLogicalQuery_eq (has_iff.mpr ⟨event, hadded _ hmem, hid⟩)

/-- One live update of a sound corpus is built, applied and in step, and leaves a sound corpus. -/
theorem liveUpdate_inStep (hadmissible : Admissible host corpus update removals)
    (hsound : Sound host corpus) {additions : List ProductionCorpusEvent}
    (hbridge : bridgeLogicalDeltaToProductionEvents host corpus update = .ok additions)
    (hremovals : removalIds host corpus update = some removals) :
    ∃ next, liveUpdate host corpus update = .ok (additions, next) ∧ Sound host next ∧
      InStep host corpus update additions removals next := by
  obtain ⟨docs, queries, rfl, hbridged⟩ := bridge_eq_ok hbridge
  obtain ⟨delta, hbuild, happly⟩ := build_apply
    (fun event hevent old hold => hbridged.new hadmissible hevent hold)
    (hbridged.distinct hadmissible) (fun event hevent => hbridged.checked hadmissible hevent)
  refine ⟨_, ?_, hbridged.sound hadmissible hsound,
    hbridged.inStep hadmissible hsound⟩
  rw [liveUpdate, hbridge, ok_bind, expect_eq_ok.mpr hremovals, ok_bind, hbuild, ok_bind, happly]
  rfl

end Steps

/-! ### Runs of updates -/

/-- Every update of a run is built, applied and in step, as long as it and all before it are
admissible. -/
def RunInStep (host : Host ProductionCorpusEvent) : ProductionCorpus → List LogicalUpdate → Prop
  | _, [] => True
  | corpus, update :: updates => ∀ additions removals,
    bridgeLogicalDeltaToProductionEvents host corpus update = .ok additions →
    removalIds host corpus update = some removals → Admissible host corpus update removals →
    ∃ next, liveUpdate host corpus update = .ok (additions, next) ∧
      InStep host corpus update additions removals next ∧ RunInStep host next updates

theorem Sound.runInStep {host : Host ProductionCorpusEvent} {corpus : ProductionCorpus}
    (hsound : Sound host corpus) (updates : List LogicalUpdate) :
    RunInStep host corpus updates := by
  induction updates generalizing corpus with
  | nil => trivial
  | cons update updates ih =>
      -- The next corpus is sound again, which is what the rest of the run starts from.
      intro additions removals hbridge hremovals hadmissible
      obtain ⟨next, hupdate, hnext, hstep⟩ :=
        liveUpdate_inStep hadmissible hsound hbridge hremovals
      exact ⟨next, hupdate, hstep, ih hnext⟩

/-- A corpus of genesis: distinct ids, each `memId` of a doc or a query's own. -/
structure Genesis (corpus : ProductionCorpus) : Prop where
  nodup : (corpus.events.map fun event => event.id).Nodup
  ids : ∀ event ∈ corpus.events,
    (∃ docId, event.id = memId docId) ∨ isMemoryDocumentEventId event.id = false

theorem Genesis.sound {corpus : ProductionCorpus} (h : Genesis corpus)
    (host : Host ProductionCorpusEvent) : Sound host corpus where
  nodup := h.nodup
  memory := by
    intro event hevent hmemory
    rcases h.ids event hevent with ⟨docId, hid⟩ | hquery
    · exact ⟨docId, .inl hid⟩
    · rw [hquery] at hmemory
      cases hmemory
  one := by
    have hstatic : ∀ docId, ∀ event ∈ corpus.events, DocForm host docId event.id →
        event.id = memId docId := by
      intro docId event hevent hform
      rcases h.ids event hevent with ⟨other, hid⟩ | hquery
      · rw [hid] at hform ⊢
        have hother : DocForm host other (memId other) := .inl rfl
        rw [hother.unique hform]
      · rw [hform.isMemory] at hquery
        cases hquery
    intro docId event hevent other hother hform hform'
    refine List.inj_on_of_nodup_map h.nodup hevent hother ?_
    exact (hstatic docId event hevent hform).trans (hstatic docId other hother hform').symm

/-- **Live updates keep logical and production ids in step**, along every run of admissible deltas
from genesis. -/
theorem liveUpdates_inStep (host : Host ProductionCorpusEvent) (corpus : ProductionCorpus)
    (hgenesis : Genesis corpus) (updates : List LogicalUpdate) : RunInStep host corpus updates :=
  (hgenesis.sound host).runInStep updates

/-! ### Small corpora -/

/-- A host that reads epochs off ids and tells no two corpora apart. -/
def plainHost : Host ProductionCorpusEvent where
  number := fun digits => some (digitsValue digits)
  splitForRecord := fun _ _ => .calibration
  computeCorpusRoot := fun _ => []
  toLowerCase := id

/-- A corpus before anything is in it. -/
def emptyCorpus : ProductionCorpus where
  events := []
  corpusRoot := []
  corpusEpoch := 0
  biEncoderModelId := []
  biEncoderRevision := []

def deltaDoc (id : String) (epoch : Option Nat) : LogicalDeltaDoc where
  id := py id
  liveUpdateEpoch := epoch
  text := []
  currentStaleFlag := none

def deltaQuery (id : String) (epoch : Option Nat) : LogicalDeltaQuery where
  id := py id
  liveUpdateEpoch := epoch
  queryText := []
  qrels := []
  hardNegatives := []

def relationTo (src dst : String) : LogicalDeltaRelation where
  src := py src
  dst := py dst
  type := []
  label := none

/-- An update that adds some docs, relations and queries, each with an embedding. -/
def addingUpdate (docs : List LogicalDeltaDoc) (relations : List LogicalDeltaRelation)
    (queries : List LogicalDeltaQuery) (retracted : List LogicalRef) : LogicalUpdate where
  logicalDelta := ⟨docs, relations, queries, retracted, []⟩
  addedDocEmbeddings := docs.map fun doc => (doc.id, [])
  addedQueryEmbeddings := queries.map fun query => (query.id, [])
  modelId := []
  revision := []

theorem genesis_emptyCorpus : Genesis emptyCorpus where
  nodup := .nil
  ids := fun event hevent => (by cases hevent)

/-- A doc of epoch 1 with a relation to itself, added to an empty corpus. -/
theorem liveUpdates_inStep_sample :
    ∃ additions next, liveUpdate plainHost emptyCorpus
        (addingUpdate [deltaDoc "d_e1_a" (some 1)] [relationTo "d_e1_a" "d_e1_a"] [] []) =
          .ok (additions, next) ∧
      InStep plainHost emptyCorpus
        (addingUpdate [deltaDoc "d_e1_a" (some 1)] [relationTo "d_e1_a" "d_e1_a"] [] []) additions
        [] next := by
  have hadmissible : Admissible plainHost emptyCorpus
      (addingUpdate [deltaDoc "d_e1_a" (some 1)] [relationTo "d_e1_a" "d_e1_a"] [] []) [] := {
    docs_distinct := List.nodup_singleton _
    docs_spelled := by
      intro doc hdoc epoch hepoch
      obtain rfl := List.mem_singleton.mp hdoc
      obtain rfl := Option.some.inj hepoch
      decide +kernel
    docs_new := fun doc hdoc event hevent => (by cases hevent)
    queries_distinct := .nil
    queries_not_memory := fun query hquery => (by cases hquery)
    queries_new := fun query hquery => (by cases hquery)
    embeddings_new := by
      intro docId hsome
      refine ⟨_, List.mem_singleton_self _, ?_⟩
      by_contra hne
      have hnone : (JsMap.get [((deltaDoc "d_e1_a" (some 1)).id, ([] : Bytes))] docId).isSome =
          true := hsome
      rw [JsMap.get_cons, if_neg hne] at hnone
      cases hnone }
  have hrun := liveUpdates_inStep plainHost emptyCorpus genesis_emptyCorpus
    [addingUpdate [deltaDoc "d_e1_a" (some 1)] [relationTo "d_e1_a" "d_e1_a"] [] []]
  obtain ⟨next, hupdate, hstep, -⟩ := hrun _ [] rfl rfl hadmissible
  exact ⟨_, next, hupdate, hstep⟩

/-- Two updates in a row: what the second one added, and the corpus after it. -/
def twoUpdates (first second : LogicalUpdate) :
    Except BridgeError (List ProductionCorpusEvent × ProductionCorpus) := do
  let (_, corpus) ← liveUpdate plainHost emptyCorpus first
  liveUpdate plainHost corpus second

/-- Ids out of step. A relation to a doc whose id does not spell the epoch of its record dangles,
though the doc is in the corpus. A doc that is added again while it is there is dropped, and its
id resolves to the old event. A raw query id that spells a live one gives two events one id. A
relation to a doc that the delta retracts dangles. An embedding of a doc that is not added is not
its event's. -/
theorem liveUpdates_out_of_step :
    (∃ additions corpus, twoUpdates
        (addingUpdate [deltaDoc "x" (some 5)] [] [] [])
        (addingUpdate [deltaDoc "y" none] [relationTo "y" "x"] [] []) = .ok (additions, corpus) ∧
      corpus.has (liveTailMemId (py "x") 5) = true ∧
      ∃ event ∈ additions, ∃ relation ∈ event.relations, corpus.has relation.otherId = false) ∧
    (∃ additions corpus, twoUpdates
        (addingUpdate [deltaDoc "x" none] [] [] [])
        (addingUpdate [deltaDoc "y" none, { deltaDoc "x" none with text := py "new" }] [] [] []) =
          .ok (additions, corpus) ∧
      ∃ event ∈ additions, event ∉ corpus.events) ∧
    (∃ additions, bridgeLogicalDeltaToProductionEvents plainHost emptyCorpus
        (addingUpdate [] [] [deltaQuery "x" (some 5), deltaQuery "zz_e000000000005_q_x" none] []) =
          .ok additions ∧
      ¬ (additions.map fun event => event.id).Nodup) ∧
    (∃ additions corpus, twoUpdates
        (addingUpdate [deltaDoc "x" none] [] [] [])
        (addingUpdate [deltaDoc "y" none] [relationTo "y" "x"] [] [⟨py "x", none⟩]) =
          .ok (additions, corpus) ∧
      ∃ event ∈ additions, ∃ relation ∈ event.relations, corpus.has relation.otherId = false) ∧
    ∃ additions corpus, liveUpdate plainHost emptyCorpus
        (addingUpdate [deltaDoc "x" none] [] [] []) = .ok (additions, corpus) ∧
      ∃ event ∈ corpus.events, event.id = memId (py "x") ∧
        resolveDocEmbeddingBytes plainHost (py "x") [(py "x", [1])] corpus ≠
          event.embeddings.perTruth.get (py "x") := by
  refine ⟨⟨_, _, rfl, ?_, ?_⟩, ⟨_, _, rfl, ?_⟩, ⟨_, rfl, ?_⟩, ⟨_, _, rfl, ?_⟩, ⟨_, _, rfl, ?_⟩⟩
  · decide +kernel
  · decide +kernel
  · decide +kernel
  · decide +kernel
  · decide +kernel
  · decide +kernel

end CoreTex.Corpus
