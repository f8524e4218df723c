import CoreTex.Corpus.LogicalDeltaBridge
import CoreTex.Lib.JsonRoundTrip

/-!
# CoreTex.Corpus.LogicalIds

The lookups of a logical id in a corpus (`corpus/logical-delta-bridge.ts`).

A logical doc has two production ids, `memId` and, where its own id spells an epoch, the live-tail
id of that epoch (`DocForm`). In a `Sound` corpus at most one event has one of them, so that lookups
in any order of preference find the same event.
-/

namespace CoreTex.Corpus

open CoreTex.Lib

/-! ### Spellings -/

theorem py_mem : py "mem_" = [109, 101, 109, 95] := by
  decide

theorem py_zz_mem : py "zz_mem_" = [122, 122, 95, 109, 101, 109, 95] := by
  decide

theorem py_zz_e : py "zz_e" = [122, 122, 95, 101] := by
  decide

theorem py_mem_mark : py "_mem_" = [95, 109, 101, 109, 95] := by
  decide

theorem py_q_mark : py "_q_" = [95, 113, 95] := by
  decide

theorem isDigit_of_mem_epochKey {epoch c : Nat} (hc : c ∈ epochKey epoch) : isDigit c = true := by
  rcases List.mem_append.mp hc with hzero | hdigit
  · rw [(List.mem_replicate.mp hzero).2]
    rfl
  · exact isDigit_of_mem_digits hdigit

theorem epochKey_ne_nil (epoch : Nat) : epochKey epoch ≠ [] := by
  intro h
  have hdecimal : decimal epoch = [] := (List.append_eq_nil_iff.mp h).2
  exact Nat.toDigits_ne_nil (List.map_eq_nil_iff.mp hdecimal)

/-- The digits of a key end where a mark begins. -/
theorem takeWhile_epochKey (epoch : Nat) (rest : JsString) :
    (epochKey epoch ++ 95 :: rest).takeWhile isDigit = epochKey epoch ∧
      (epochKey epoch ++ 95 :: rest).dropWhile isDigit = 95 :: rest := by
  have hall : ∀ c ∈ epochKey epoch, isDigit c = true := fun c hc => isDigit_of_mem_epochKey hc
  rw [List.takeWhile_append_of_pos hall, List.dropWhile_append_of_pos hall]
  simp [isDigit]

theorem digitsAfter_epochKey (tail : JsString) (epoch : Nat) (rest : JsString) :
    digitsAfter (py "zz_e") tail (py "zz_e" ++ (epochKey epoch ++ 95 :: rest)) =
      if tail <+: 95 :: rest then some (epochKey epoch) else none := by
  rw [digitsAfter, if_pos (List.prefix_append _ _), List.drop_left]
  obtain ⟨htake, hdrop⟩ := takeWhile_epochKey epoch rest
  simp only [htake, hdrop]
  simp [epochKey_ne_nil]

theorem liveTailMemId_eq (id : JsString) (epoch : Nat) : liveTailMemId id epoch =
    py "zz_e" ++ (epochKey epoch ++ 95 :: ([109, 101, 109, 95] ++ id)) := by
  rw [liveTailMemId, py_mem_mark]
  rfl

theorem liveTailQueryId_eq (id : JsString) (epoch : Nat) : liveTailQueryId id epoch =
    py "zz_e" ++ (epochKey epoch ++ 95 :: ([113, 95] ++ id)) := by
  rw [liveTailQueryId, py_q_mark]
  rfl

theorem isMemory_memId (id : JsString) : isMemoryDocumentEventId (memId id) = true := by
  simp [isMemoryDocumentEventId, memId]

theorem isMemory_legacy (id : JsString) :
    isMemoryDocumentEventId (legacyLiveTailMemId id) = true := by
  simp [isMemoryDocumentEventId, legacyLiveTailMemId]

theorem isMemory_liveTailMemId (id : JsString) (epoch : Nat) :
    isMemoryDocumentEventId (liveTailMemId id epoch) = true := by
  rw [isMemoryDocumentEventId, liveTailMemId_eq, digitsAfter_epochKey,
    if_pos (by rw [py_mem_mark]; exact List.prefix_append _ _)]
  simp

theorem isMemory_liveTailQueryId (id : JsString) (epoch : Nat) :
    isMemoryDocumentEventId (liveTailQueryId id epoch) = false := by
  rw [isMemoryDocumentEventId, liveTailQueryId_eq, digitsAfter_epochKey,
    if_neg (by rw [py_mem_mark]; simp)]
  simp [py_mem, py_zz_mem, py_zz_e]

theorem memId_injective {a b : JsString} (h : memId a = memId b) : a = b :=
  List.append_cancel_left h

theorem memId_ne_liveTailMemId (a b : JsString) (epoch : Nat) :
    memId a ≠ liveTailMemId b epoch := by
  simp [memId, liveTailMemId, py_mem, py_zz_e]

/-- A live-tail id spells its logical doc, whatever the epochs. -/
theorem liveTailMemId_injective {a b : JsString} {epoch epoch' : Nat}
    (h : liveTailMemId a epoch = liveTailMemId b epoch') : a = b := by
  rw [liveTailMemId_eq, liveTailMemId_eq] at h
  have hkeys := congrArg (List.dropWhile isDigit) (List.append_cancel_left h)
  rw [(takeWhile_epochKey _ _).2, (takeWhile_epochKey _ _).2] at hkeys
  exact List.append_cancel_left (List.cons.inj hkeys).2

/-! ### Logical docs -/

section Forms

variable {host : Host ProductionCorpusEvent}

/-- A production id of a logical doc. -/
def DocForm (host : Host ProductionCorpusEvent) (docId id : JsString) : Prop :=
  id = memId docId ∨
    ∃ epoch, epochFromLogicalId host docId = some epoch ∧ id = liveTailMemId docId epoch

/-- The epoch of a record is the one that its id spells. -/
def LogicalRef.Spelled (host : Host ProductionCorpusEvent) (ref : LogicalRef) : Prop :=
  ∀ epoch ∈ ref.liveUpdateEpoch, epochFromLogicalId host ref.id = some epoch

theorem DocForm.isMemory {docId id : JsString} (h : DocForm host docId id) :
    isMemoryDocumentEventId id = true := by
  rcases h with rfl | ⟨epoch, -, rfl⟩
  · exact isMemory_memId docId
  · exact isMemory_liveTailMemId docId epoch

/-- An id is of one logical doc. -/
theorem DocForm.unique {docId docId' id : JsString} (h : DocForm host docId id)
    (h' : DocForm host docId' id) : docId = docId' := by
  rcases h with hmem | ⟨epoch, -, hlive⟩
  · rcases h' with hmem' | ⟨epoch', -, hlive'⟩
    · exact memId_injective (hmem.symm.trans hmem')
    · exact absurd (hmem.symm.trans hlive') (memId_ne_liveTailMemId _ _ _)
  · rcases h' with hmem' | ⟨epoch', -, hlive'⟩
    · exact absurd (hmem'.symm.trans hlive) (memId_ne_liveTailMemId _ _ _)
    · exact liveTailMemId_injective (hlive.symm.trans hlive')

theorem not_docForm_legacy (docId id : JsString) :
    ¬ DocForm host docId (legacyLiveTailMemId id) := by
  rintro (hmem | ⟨epoch, -, hlive⟩)
  · simp [legacyLiveTailMemId, memId, py_mem, py_zz_mem] at hmem
  · simp [legacyLiveTailMemId, liveTailMemId, py_zz_mem, py_zz_e] at hlive

/-- A doc is added under one of its ids. -/
theorem LogicalRef.Spelled.docForm {ref : LogicalRef} (h : ref.Spelled host) :
    DocForm host ref.id (productionMemIdForAddedDoc ref) := by
  unfold productionMemIdForAddedDoc
  cases hepoch : ref.liveUpdateEpoch with
  | none => exact .inl rfl
  | some epoch => exact .inr ⟨epoch, h epoch hepoch, rfl⟩

theorem mem_possible {docId id : JsString} (h : DocForm host docId id) (hne : id ≠ memId docId) :
    id ∈ possibleLiveTailMemIds host docId := by
  rcases h with hmem | ⟨epoch, hepoch, rfl⟩
  · exact absurd hmem hne
  · simp [possibleLiveTailMemIds, hepoch]

theorem of_mem_possible {docId id : JsString} (h : id ∈ possibleLiveTailMemIds host docId) :
    DocForm host docId id ∨ id = legacyLiveTailMemId docId := by
  rcases List.mem_append.mp h with hlive | hlegacy
  · obtain ⟨epoch, hepoch, rfl⟩ := List.mem_map.mp hlive
    exact .inl (.inr ⟨epoch, Option.mem_toList.mp hepoch, rfl⟩)
  · exact .inr (List.mem_singleton.mp hlegacy)

end Forms

/-! ### Events by id -/

theorem lastWith_eq_some {α : Type} {idOf : α → JsString} {entries : List α} {id : JsString} {a : α}
    (h : lastWith idOf entries id = some a) : a ∈ entries ∧ idOf a = id := by
  obtain ⟨hmem, hid⟩ := List.mem_filter.mp (List.mem_of_getLast? h)
  exact ⟨hmem, of_decide_eq_true hid⟩

theorem lastWith_isSome {α : Type} (idOf : α → JsString) {entries : List α} {a : α}
    (h : a ∈ entries) : ∃ b, lastWith idOf entries (idOf a) = some b := by
  have hmem : a ∈ entries.filter fun entry => idOf entry = idOf a :=
    List.mem_filter.mpr ⟨h, decide_eq_true rfl⟩
  exact ⟨_, List.getLast?_eq_some_getLast (List.ne_nil_of_mem hmem)⟩

theorem lastWith_of_mem {α : Type} {idOf : α → JsString} {entries : List α}
    (hnodup : (entries.map idOf).Nodup) {a : α} (h : a ∈ entries) :
    lastWith idOf entries (idOf a) = some a := by
  obtain ⟨b, hb⟩ := lastWith_isSome idOf h
  obtain ⟨hmem, hid⟩ := lastWith_eq_some hb
  rw [hb, List.inj_on_of_nodup_map hnodup hmem h hid]

theorem has_iff {corpus : ProductionCorpus} {id : JsString} :
    corpus.has id = true ↔ ∃ event ∈ corpus.events, event.id = id := by
  rw [ProductionCorpus.has, Option.isSome_iff_exists]
  constructor
  · rintro ⟨event, hevent⟩
    exact ⟨event, lastWith_eq_some hevent⟩
  · rintro ⟨event, hevent, rfl⟩
    exact lastWith_isSome (fun event => event.id) hevent

theorem present_eq_some {corpus : ProductionCorpus} {id found : JsString} :
    corpus.present id = some found ↔ corpus.has id = true ∧ found = id := by
  unfold ProductionCorpus.present
  split
  next h => simp [h, eq_comm]
  next h => simp [h]

/-! ### Lookups -/

/-- Ids are distinct, and at most one event has a production id of a logical doc. -/
structure Sound (host : Host ProductionCorpusEvent) (corpus : ProductionCorpus) : Prop where
  nodup : (corpus.events.map fun event => event.id).Nodup
  memory : ∀ event ∈ corpus.events, isMemoryDocumentEventId event.id = true →
    ∃ docId, DocForm host docId event.id
  one : ∀ docId, ∀ event ∈ corpus.events, ∀ other ∈ corpus.events,
    DocForm host docId event.id → DocForm host docId other.id → event = other

section Lookups

variable {host : Host ProductionCorpusEvent} {corpus : ProductionCorpus}

theorem Sound.byId (h : Sound host corpus) {event : ProductionCorpusEvent}
    (hevent : event ∈ corpus.events) : corpus.byId event.id = some event :=
  lastWith_of_mem h.nodup hevent

/-- No event has a legacy id. -/
theorem Sound.not_legacy (h : Sound host corpus) (id : JsString) :
    corpus.has (legacyLiveTailMemId id) = false := by
  rw [Bool.eq_false_iff]
  intro hhas
  obtain ⟨event, hevent, hid⟩ := has_iff.mp hhas
  obtain ⟨docId, hform⟩ := h.memory event hevent (hid ▸ isMemory_legacy id)
  exact not_docForm_legacy docId id (hid ▸ hform)

/-- Whatever of a doc's ids the corpus has is the id of its event. -/
theorem Sound.only (h : Sound host corpus) {docId id : JsString} {event : ProductionCorpusEvent}
    (hevent : event ∈ corpus.events) (hform : DocForm host docId event.id)
    (hhas : corpus.has id = true) (hid : DocForm host docId id) : id = event.id := by
  obtain ⟨other, hother, rfl⟩ := has_iff.mp hhas
  rw [h.one docId event hevent other hother hform hid]

theorem Sound.only_possible (h : Sound host corpus) {docId id : JsString}
    {event : ProductionCorpusEvent} (hevent : event ∈ corpus.events)
    (hform : DocForm host docId event.id) (hhas : corpus.has id = true)
    (hid : id ∈ possibleLiveTailMemIds host docId) : id = event.id := by
  rcases of_mem_possible hid with hid | rfl
  · exact h.only hevent hform hhas hid
  · rw [h.not_legacy docId] at hhas
    cases hhas

/-- The search among the live-tail ids finds the event, unless it has the static id. -/
theorem Sound.find_possible (h : Sound host corpus) {docId : JsString}
    {event : ProductionCorpusEvent} (hevent : event ∈ corpus.events)
    (hform : DocForm host docId event.id) :
    (possibleLiveTailMemIds host docId).find? corpus.has = some event.id ∨
      (possibleLiveTailMemIds host docId).find? corpus.has = none ∧ event.id = memId docId := by
  cases hfind : (possibleLiveTailMemIds host docId).find? corpus.has with
  | some id =>
      exact .inl (congrArg some (h.only_possible hevent hform (List.find?_some hfind)
        (List.mem_of_find?_eq_some hfind)))
  | none =>
      refine .inr ⟨rfl, ?_⟩
      by_contra hne
      exact List.find?_eq_none.mp hfind event.id (mem_possible hform hne)
        (has_iff.mpr ⟨event, hevent, rfl⟩)

/-- A relation to a doc of the corpus points at its event. -/
theorem Sound.relationTarget (h : Sound host corpus) {docId : JsString}
    {event : ProductionCorpusEvent} (hevent : event ∈ corpus.events)
    (hform : DocForm host docId event.id) {addedDocs : List LogicalDeltaDoc}
    (hadded : addedDoc addedDocs docId = none) :
    productionMemIdForRelationTarget host corpus addedDocs docId = event.id := by
  rw [productionMemIdForRelationTarget, hadded]
  rcases h.find_possible hevent hform with hfind | ⟨hfind, hid⟩
  · simp [hfind]
  · simp [hfind, hid]

/-- The text and the embedding of a doc of the corpus are read off its event. -/
theorem Sound.previousMemoryEvent (h : Sound host corpus) {docId : JsString}
    {event : ProductionCorpusEvent} (hevent : event ∈ corpus.events)
    (hform : DocForm host docId event.id) :
    previousMemoryEventForDocId host corpus docId = some event := by
  unfold previousMemoryEventForDocId
  -- The static id is preferred here, the live-tail one for a relation; a doc has one of them.
  cases hstatic : corpus.byId (memId docId) with
  | some found =>
      obtain ⟨hfound, hid⟩ := lastWith_eq_some hstatic
      have hsame : found.id = event.id :=
        h.only hevent hform (has_iff.mpr ⟨found, hfound, rfl⟩) (.inl hid)
      have := h.byId hfound
      rw [hsame, h.byId hevent] at this
      exact this.symm
  | none =>
      have hne : event.id ≠ memId docId := by
        intro hid
        rw [← hid, h.byId hevent] at hstatic
        cases hstatic
      have hfirst : (possibleLiveTailMemIds host docId).findSome? corpus.byId = some event := by
        cases hfind : (possibleLiveTailMemIds host docId).findSome? corpus.byId with
        | none =>
            have := List.findSome?_eq_none_iff.mp hfind event.id (mem_possible hform hne)
            rw [h.byId hevent] at this
            cases this
        | some found =>
            obtain ⟨id, hid, hfound⟩ := List.exists_of_findSome?_eq_some hfind
            have hhas : corpus.has id = true := by
              rw [ProductionCorpus.has, hfound]
              rfl
            rw [h.only_possible hevent hform hhas hid, h.byId hevent] at hfound
            exact hfound.symm
      exact hfirst

/-- A live-tail id that the corpus has is one of its doc's. -/
theorem Sound.docForm_liveTail (h : Sound host corpus) {docId : JsString} {epoch : Nat}
    (hhas : corpus.has (liveTailMemId docId epoch) = true) :
    DocForm host docId (liveTailMemId docId epoch) := by
  obtain ⟨event, hevent, hid⟩ := has_iff.mp hhas
  obtain ⟨other, hform⟩ := h.memory event hevent (hid ▸ isMemory_liveTailMemId docId epoch)
  rw [hid] at hform
  rcases hform with hmem | ⟨epoch', hepoch, hlive⟩
  · exact absurd hmem.symm (memId_ne_liveTailMemId _ _ _)
  · obtain rfl := liveTailMemId_injective hlive
    exact .inr ⟨epoch', hepoch, hlive⟩

/-- A doc of the corpus resolves to its event, whatever the epoch of its record. -/
theorem Sound.productionEventId (h : Sound host corpus) {ref : LogicalRef}
    {event : ProductionCorpusEvent} (hevent : event ∈ corpus.events)
    (hform : DocForm host ref.id event.id) :
    productionEventIdForLogicalDoc host corpus ref = some event.id := by
  unfold productionEventIdForLogicalDoc
  -- The record's epoch need not be the one that the id spells.
  cases htail : ref.liveUpdateEpoch.bind fun epoch =>
      corpus.present (liveTailMemId ref.id epoch) with
  | some found =>
      obtain ⟨epoch, -, hpresent⟩ := Option.bind_eq_some_iff.mp htail
      obtain ⟨hhas, rfl⟩ := present_eq_some.mp hpresent
      exact congrArg some (h.only hevent hform hhas (h.docForm_liveTail hhas))
  | none =>
      cases hstatic : corpus.present (memId ref.id) with
      | some found =>
          obtain ⟨hhas, rfl⟩ := present_eq_some.mp hstatic
          exact congrArg some (h.only hevent hform hhas (.inl rfl))
      | none =>
          rcases h.find_possible hevent hform with hfind | ⟨-, hid⟩
          · exact hfind
          · have hpresent : corpus.present (memId ref.id) = some (memId ref.id) :=
              present_eq_some.mpr ⟨has_iff.mpr ⟨event, hevent, hid⟩, rfl⟩
            rw [hpresent] at hstatic
            cases hstatic

/-- A query whose event is in the corpus resolves to it. -/
theorem productionEventIdForLogicalQuery_eq {query : LogicalRef}
    (hhas : corpus.has (productionQueryIdForAddedQuery query) = true) :
    productionEventIdForLogicalQuery host corpus query =
      some (productionQueryIdForAddedQuery query) := by
  have hpresent : corpus.present (productionQueryIdForAddedQuery query) =
      some (productionQueryIdForAddedQuery query) := present_eq_some.mpr ⟨hhas, rfl⟩
  unfold productionEventIdForLogicalQuery
  unfold productionQueryIdForAddedQuery at hpresent ⊢
  cases hepoch : query.liveUpdateEpoch with
  | none =>
      rw [hepoch] at hpresent
      simp [hpresent]
  | some epoch =>
      rw [hepoch] at hpresent
      simp [hpresent]

end Lookups

end CoreTex.Corpus
