import CoreTex.Corpus.RootCache
import CoreTex.Lib.JsMap
import CoreTex.Lib.JsonOrder
import Mathlib.Data.Rat.Defs

/-!
# CoreTex.Corpus.LogicalDeltaBridge

Live updates of a corpus: the ids of logical documents and queries, the bridge from a logical delta
to production events (`corpus/logical-delta-bridge.ts`), and the delta that is built of them and
applied (`corpus/delta.ts`).

What a string is hashed to, and the number a run of digits is, come from the `Host`. Fields of an
event that no lookup and no check reads are left out. An epoch is a natural number: `epochKey`
throws on anything else.
-/

namespace CoreTex.Corpus

open CoreTex.Lib

/-! ### Ids -/

/-- `CorpusSplit`. -/
inductive CorpusSplit
  | train_visible | calibration | eval_hidden | canary
  deriving DecidableEq, Repr

/-- What the host does: `Number` of decimal digits where it is an integer, `splitForRecord`,
`computeCorpusRoot` and `toLowerCase`. -/
structure Host (Event : Type) where
  number : JsString → Option Nat
  splitForRecord : JsString → Nat → CorpusSplit
  computeCorpusRoot : List Event → JsString
  toLowerCase : JsString → JsString

/-- The decimal digits of a number. -/
def decimal (n : Nat) : JsString :=
  (Nat.toDigits 10 n).map Char.toNat

/-- `epochKey`. -/
def epochKey (epoch : Nat) : JsString :=
  List.replicate (12 - (decimal epoch).length) 48 ++ decimal epoch

/-- `memId`. -/
def memId (id : JsString) : JsString :=
  py "mem_" ++ id

/-- `legacyLiveTailMemId`. -/
def legacyLiveTailMemId (id : JsString) : JsString :=
  py "zz_mem_" ++ id

/-- `liveTailMemId`. -/
def liveTailMemId (id : JsString) (epoch : Nat) : JsString :=
  py "zz_e" ++ (epochKey epoch ++ (py "_mem_" ++ id))

/-- `liveTailQueryId`. -/
def liveTailQueryId (id : JsString) (epoch : Nat) : JsString :=
  py "zz_e" ++ (epochKey epoch ++ (py "_q_" ++ id))

/-- The digits between `marker` and `tail`, where an id starts with these and one digit at least. -/
def digitsAfter (marker tail id : JsString) : Option JsString :=
  if marker <+: id then
    let rest := id.drop marker.length
    let digits := rest.takeWhile isDigit
    if digits ≠ [] ∧ tail <+: rest.dropWhile isDigit then some digits else none
  else none

/-- `isMemoryDocumentEventId`. -/
def isMemoryDocumentEventId (id : JsString) : Bool :=
  decide (py "mem_" <+: id) || decide (py "zz_mem_" <+: id) ||
    (digitsAfter (py "zz_e") (py "_mem_") id).isSome

/-! ### Records -/

/-- A logical doc or query, as a caller names it. -/
structure LogicalRef where
  id : JsString
  liveUpdateEpoch : Option Nat

/-- `LogicalDeltaDoc`. -/
structure LogicalDeltaDoc extends LogicalRef where
  text : JsString
  currentStaleFlag : Option Bool

/-- `LogicalDeltaRelation`. -/
structure LogicalDeltaRelation where
  src : JsString
  dst : JsString
  type : JsString
  label : Option JsString

/-- `LogicalDeltaQrel`. -/
structure LogicalDeltaQrel where
  docId : JsString
  relevance : ℚ

/-- `LogicalDeltaHardNeg`. -/
structure LogicalDeltaHardNeg where
  docId : JsString
  category : Option JsString

/-- `LogicalDeltaQuery`. -/
structure LogicalDeltaQuery extends LogicalRef where
  queryText : JsString
  qrels : List LogicalDeltaQrel
  hardNegatives : List LogicalDeltaHardNeg

/-- `LogicalDelta`, with the refs of what it retracts and retires. -/
structure LogicalDelta where
  addedDocs : List LogicalDeltaDoc
  addedRelations : List LogicalDeltaRelation
  addedQueries : List LogicalDeltaQuery
  retractedDocs : List LogicalRef
  retiredQueries : List LogicalRef

structure TruthDocument where
  id : JsString
  text : JsString
  isCurrent : Bool
  deriving DecidableEq

structure HardNegativeRecord where
  id : JsString
  text : JsString
  category : Option JsString
  deriving DecidableEq

structure RelationAnnotation where
  otherId : JsString
  edgeType : JsString
  label : Option JsString
  deriving DecidableEq

/-- The embeddings of an event. -/
structure EventEmbeddings where
  modelId : JsString
  revision : JsString
  query : Bytes
  perTruth : JsMap JsString Bytes
  perNegative : JsMap JsString Bytes
  deriving DecidableEq

/-- `ProductionCorpusEvent`. -/
structure ProductionCorpusEvent where
  id : JsString
  split : CorpusSplit
  queryText : JsString
  truthDocuments : List TruthDocument
  hardNegatives : List HardNegativeRecord
  qrels : List (JsString × ℚ)
  relations : List RelationAnnotation
  embeddings : EventEmbeddings
  deriving DecidableEq

/-- `ProductionCorpus`. -/
structure ProductionCorpus where
  events : List ProductionCorpusEvent
  corpusRoot : JsString
  corpusEpoch : Nat
  biEncoderModelId : JsString
  biEncoderRevision : JsString

/-- `new Map(entries).get`: the last entry of an id. -/
def lastWith {α : Type} (idOf : α → JsString) (entries : List α) (id : JsString) : Option α :=
  (entries.filter fun entry => idOf entry = id).getLast?

/-- `byId.get`. -/
def ProductionCorpus.byId (corpus : ProductionCorpus) (id : JsString) :
    Option ProductionCorpusEvent :=
  lastWith (fun event => event.id) corpus.events id

/-- `byId.has`. -/
def ProductionCorpus.has (corpus : ProductionCorpus) (id : JsString) : Bool :=
  (corpus.byId id).isSome

/-! ### Lookups -/

section Lookups

variable (host : Host ProductionCorpusEvent)

/-- `epochFromLogicalId`. -/
def epochFromLogicalId (id : JsString) : Option Nat :=
  ((digitsAfter (py "d_e") (py "_") id).orElse fun _ => digitsAfter (py "q_e") (py "_") id).bind
    host.number

/-- `possibleLiveTailMemIds`. -/
def possibleLiveTailMemIds (id : JsString) : List JsString :=
  (epochFromLogicalId host id).toList.map (liveTailMemId id) ++ [legacyLiveTailMemId id]

/-- `productionMemIdForAddedDoc`. -/
def productionMemIdForAddedDoc (doc : LogicalRef) : JsString :=
  match doc.liveUpdateEpoch with
  | some epoch => liveTailMemId doc.id epoch
  | none => memId doc.id

/-- `productionQueryIdForAddedQuery`. -/
def productionQueryIdForAddedQuery (query : LogicalRef) : JsString :=
  match query.liveUpdateEpoch with
  | some epoch => liveTailQueryId query.id epoch
  | none => query.id

/-- `previousMemoryEventForDocId`. -/
def previousMemoryEventForDocId (previousCorpus : ProductionCorpus) (docId : JsString) :
    Option ProductionCorpusEvent :=
  (previousCorpus.byId (memId docId)).orElse fun _ =>
    (possibleLiveTailMemIds host docId).findSome? previousCorpus.byId

/-- `addedDocsById.get`. -/
def addedDoc (addedDocs : List LogicalDeltaDoc) (docId : JsString) : Option LogicalDeltaDoc :=
  lastWith (fun doc => doc.id) addedDocs docId

/-- `productionMemIdForRelationTarget`. -/
def productionMemIdForRelationTarget (previousCorpus : ProductionCorpus)
    (addedDocs : List LogicalDeltaDoc) (docId : JsString) : JsString :=
  match addedDoc addedDocs docId with
  | some doc => productionMemIdForAddedDoc doc.toLogicalRef
  -- The static id comes last here, and is returned without a look in the corpus.
  | none => ((possibleLiveTailMemIds host docId).find? previousCorpus.has).getD (memId docId)

/-- The id, when the corpus has it. -/
def ProductionCorpus.present (corpus : ProductionCorpus) (id : JsString) : Option JsString :=
  if corpus.has id then some id else none

/-- `productionEventIdForLogicalDoc`. -/
def productionEventIdForLogicalDoc (previousCorpus : ProductionCorpus) (doc : LogicalRef) :
    Option JsString :=
  (doc.liveUpdateEpoch.bind fun epoch =>
      previousCorpus.present (liveTailMemId doc.id epoch)).orElse fun _ =>
    (previousCorpus.present (memId doc.id)).orElse fun _ =>
      (possibleLiveTailMemIds host doc.id).find? previousCorpus.has

/-- `productionEventIdForLogicalQuery`. -/
def productionEventIdForLogicalQuery (previousCorpus : ProductionCorpus) (query : LogicalRef) :
    Option JsString :=
  (query.liveUpdateEpoch.bind fun epoch =>
      previousCorpus.present (liveTailQueryId query.id epoch)).orElse fun _ =>
    (previousCorpus.present query.id).orElse fun _ =>
      (epochFromLogicalId host query.id).bind fun epoch =>
        previousCorpus.present (liveTailQueryId query.id epoch)

/-! ### The bridge -/

/-- What is thrown. -/
inductive BridgeError
  | biEncoder
  | missingEmbedding
  | missingTruth
  | missingHardNegative
  | missingRemoval
  | relevance
  | split
  | model
  | continuity
  | addedRecords
  | nextRoot
  deriving DecidableEq, Repr

/-- `BridgeLogicalDeltaOptions`, without the previous corpus. -/
structure LogicalUpdate where
  logicalDelta : LogicalDelta
  addedDocEmbeddings : JsMap JsString Bytes
  addedQueryEmbeddings : JsMap JsString Bytes
  modelId : JsString
  revision : JsString

/-- `currentStaleFlag === false ? false : true`. -/
def LogicalDeltaDoc.isCurrent (doc : LogicalDeltaDoc) : Bool :=
  doc.currentStaleFlag ≠ some false

/-- `resolveDocMeta`. -/
def resolveDocMeta (docId : JsString) (addedDocs : List LogicalDeltaDoc)
    (previousCorpus : ProductionCorpus) : Option (JsString × Bool) :=
  match addedDoc addedDocs docId with
  | some doc => some (doc.text, doc.isCurrent)
  | none =>
    (previousMemoryEventForDocId host previousCorpus docId).bind fun event =>
      event.truthDocuments.head?.map fun truth => (truth.text, truth.isCurrent)

/-- `resolveDocEmbeddingBytes`. -/
def resolveDocEmbeddingBytes (docId : JsString) (addedDocEmbeddings : JsMap JsString Bytes)
    (previousCorpus : ProductionCorpus) : Option Bytes :=
  (addedDocEmbeddings.get docId).orElse fun _ =>
    (previousMemoryEventForDocId host previousCorpus docId).bind fun event =>
      event.embeddings.perTruth.get docId

/-- `VALID_GRADED_RELEVANCE`. -/
def validGradedRelevance : List ℚ :=
  [0, 1 / 5, 2 / 5, 3 / 5, 4 / 5, 1]

/-- `assertGradedRelevance`. -/
def assertGradedRelevance (value : ℚ) : Except BridgeError ℚ := do
  refuseIf (value ∉ validGradedRelevance) .relevance
  return value

variable (previousCorpus : ProductionCorpus) (update : LogicalUpdate)

/-- The relations of an added doc. -/
def docRelations (doc : LogicalDeltaDoc) : List RelationAnnotation :=
  (update.logicalDelta.addedRelations.filter fun relation => relation.src = doc.id).map
    fun relation => {
      otherId := productionMemIdForRelationTarget host previousCorpus update.logicalDelta.addedDocs
        relation.dst
      edgeType := relation.type
      label := relation.label.filter fun label => label ≠ [] }

/-- The event of an added doc, with its embedding. -/
def docEvent (doc : LogicalDeltaDoc) (embedding : Bytes) : ProductionCorpusEvent where
  id := productionMemIdForAddedDoc doc.toLogicalRef
  split := .train_visible
  queryText := doc.text
  truthDocuments := [⟨doc.id, doc.text, doc.isCurrent⟩]
  hardNegatives := []
  qrels := [(doc.id, 1)]
  relations := docRelations host previousCorpus update doc
  embeddings := ⟨update.modelId, update.revision, embedding, [(doc.id, embedding)], []⟩

/-- The loop over the added docs. -/
def bridgeDoc (doc : LogicalDeltaDoc) : Except BridgeError ProductionCorpusEvent := do
  let embedding ← expect .missingEmbedding (update.addedDocEmbeddings.get doc.id)
  return docEvent host previousCorpus update doc embedding

/-- A document of a query: its text, and whether it is current. -/
def resolveTruth (docId : JsString) (e : BridgeError) : Except BridgeError (JsString × Bool) :=
  expect e (resolveDocMeta host docId update.logicalDelta.addedDocs previousCorpus)

/-- The embedding of a document of a query. -/
def resolveEntry (docId : JsString) : Except BridgeError (JsString × Bytes) := do
  let embedding ← expect .missingEmbedding
    (resolveDocEmbeddingBytes host docId update.addedDocEmbeddings previousCorpus)
  return (docId, embedding)

/-- The loop over the added queries. -/
def bridgeQuery (query : LogicalDeltaQuery) : Except BridgeError ProductionCorpusEvent := do
  let embedding ← expect .missingEmbedding (update.addedQueryEmbeddings.get query.id)
  let truths ← (query.qrels.filter fun qrel => 0 < qrel.relevance).mapM fun qrel => do
    let truth ← resolveTruth host previousCorpus update qrel.docId .missingTruth
    return TruthDocument.mk qrel.docId truth.1 truth.2
  let negatives ← query.hardNegatives.mapM fun negative => do
    let found ← resolveTruth host previousCorpus update negative.docId .missingHardNegative
    return HardNegativeRecord.mk negative.docId found.1
      (negative.category.filter fun category => category ≠ [])
  let perTruth ← truths.mapM fun truth => resolveEntry host previousCorpus update truth.id
  let perNegative ← negatives.mapM fun negative =>
    resolveEntry host previousCorpus update negative.id
  let eventId := productionQueryIdForAddedQuery query.toLogicalRef
  let qrels ← query.qrels.mapM fun qrel => do
    let relevance ← assertGradedRelevance qrel.relevance
    return (qrel.docId, relevance)
  return {
    id := eventId
    split := host.splitForRecord eventId previousCorpus.corpusEpoch
    queryText := query.queryText
    truthDocuments := truths
    hardNegatives := negatives
    qrels := qrels
    relations := []
    embeddings := {
      modelId := update.modelId
      revision := update.revision
      query := embedding
      perTruth := perTruth.foldl (fun map entry => map.set entry.1 entry.2) []
      perNegative := perNegative.foldl (fun map entry => map.set entry.1 entry.2) [] } }

/-- `bridgeLogicalDeltaToProductionEvents`. -/
def bridgeLogicalDeltaToProductionEvents : Except BridgeError (List ProductionCorpusEvent) := do
  refuseIf (update.modelId ≠ previousCorpus.biEncoderModelId ∨
    update.revision ≠ previousCorpus.biEncoderRevision) .biEncoder
  let docs ← update.logicalDelta.addedDocs.mapM (bridgeDoc host previousCorpus update)
  let queries ← update.logicalDelta.addedQueries.mapM (bridgeQuery host previousCorpus update)
  return docs ++ queries

/-- The ids that a delta removes; none where one of its refs is not in the corpus. -/
def removalIds : Option (List JsString) := do
  let docs ← update.logicalDelta.retractedDocs.mapM
    (productionEventIdForLogicalDoc host previousCorpus)
  let queries ← update.logicalDelta.retiredQueries.mapM
    (productionEventIdForLogicalQuery host previousCorpus)
  return docs ++ queries

end Lookups

/-! ### The delta -/

/-- `CorpusDelta`. -/
structure CorpusDelta where
  previousRoot : JsString
  nextRoot : JsString
  addedIds : List JsString
  addedRecords : List ProductionCorpusEvent
  removedIds : List JsString
  modelId : JsString
  revision : JsString

section Delta

variable (host : Host ProductionCorpusEvent)

/-- `expectedSplitForRecord`. -/
def expectedSplitForRecord (id : JsString) (corpusEpoch : Nat) : CorpusSplit :=
  if isMemoryDocumentEventId id then .train_visible else host.splitForRecord id corpusEpoch

/-- The split of an added record. -/
def checkSplit (corpus : ProductionCorpus) (event : ProductionCorpusEvent) :
    Except BridgeError Unit :=
  refuseIf (event.split ≠ expectedSplitForRecord host event.id corpus.corpusEpoch) .split

/-- The model of an added record. -/
def checkModel (corpus : ProductionCorpus) (event : ProductionCorpusEvent) :
    Except BridgeError Unit :=
  refuseIf (event.embeddings.modelId ≠ corpus.biEncoderModelId ∨
    event.embeddings.revision ≠ corpus.biEncoderRevision) .model

/-- The checks of one addition, as a delta is built. -/
def checkAddition (corpus : ProductionCorpus) (event : ProductionCorpusEvent) :
    Except BridgeError Unit := do
  checkSplit host corpus event
  checkModel corpus event

/-- The same checks as a delta is applied, the other way round. -/
def checkRecord (corpus : ProductionCorpus) (event : ProductionCorpusEvent) :
    Except BridgeError Unit := do
  checkModel corpus event
  checkSplit host corpus event

/-- The events that stay. -/
def ProductionCorpus.remaining (corpus : ProductionCorpus) (removals : List JsString) :
    List ProductionCorpusEvent :=
  corpus.events.filter fun event => event.id ∉ removals

/-- `buildCorpusDelta`, without a cache. -/
def buildCorpusDelta (previousCorpus : ProductionCorpus) (additions : List ProductionCorpusEvent)
    (removals : List JsString) : Except BridgeError CorpusDelta := do
  let remaining := previousCorpus.remaining removals
  -- An addition whose id stays in the corpus is left out without an error.
  let newAdditions := additions.filter fun event => event.id ∉ remaining.map fun e => e.id
  newAdditions.forM (checkAddition host previousCorpus)
  return {
    previousRoot := previousCorpus.corpusRoot
    nextRoot := host.computeCorpusRoot (remaining ++ newAdditions)
    addedIds := newAdditions.map fun event => event.id
    addedRecords := newAdditions
    removedIds := removals.filter previousCorpus.has
    modelId := previousCorpus.biEncoderModelId
    revision := previousCorpus.biEncoderRevision }

/-- `applyCorpusDelta`, without a cache. -/
def applyCorpusDelta (corpus : ProductionCorpus) (delta : CorpusDelta) :
    Except BridgeError ProductionCorpus := do
  refuseIf (host.toLowerCase delta.previousRoot ≠ host.toLowerCase corpus.corpusRoot) .continuity
  refuseIf (delta.modelId ≠ corpus.biEncoderModelId ∨
    delta.revision ≠ corpus.biEncoderRevision) .model
  let recordIds := delta.addedRecords.map fun event => event.id
  refuseIf (¬ recordIds.Nodup) .addedRecords
  refuseIf (∃ id ∈ delta.addedIds, id ∉ recordIds) .addedRecords
  refuseIf (∃ id ∈ recordIds, id ∉ delta.addedIds) .addedRecords
  let kept := corpus.events.filter fun event =>
    event.id ∉ delta.removedIds ∧ event.id ∉ delta.addedIds
  let next := kept ++ delta.addedRecords
  delta.addedRecords.forM (checkRecord host corpus)
  refuseIf (host.toLowerCase (host.computeCorpusRoot next) ≠ host.toLowerCase delta.nextRoot)
    .nextRoot
  return { corpus with events := next, corpusRoot := delta.nextRoot }

/-- One live update: bridged, built and applied with its removals. -/
def liveUpdate (corpus : ProductionCorpus) (update : LogicalUpdate) :
    Except BridgeError (List ProductionCorpusEvent × ProductionCorpus) := do
  let additions ← bridgeLogicalDeltaToProductionEvents host corpus update
  let removals ← expect .missingRemoval (removalIds host corpus update)
  let delta ← buildCorpusDelta host corpus additions removals
  let next ← applyCorpusDelta host corpus delta
  return (additions, next)

end Delta

end CoreTex.Corpus
