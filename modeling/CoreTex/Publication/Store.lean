import CoreTex.Lib.JsMap
import CoreTex.Publication.HashRules

/-!
# CoreTex.Publication.Store

Publishing into an `InMemoryCAS` and reading back (`publication.py`).

`Call.writes` is what a call puts, with no store in sight: a call either puts exactly
that and returns its record, or puts nothing. A record stays good as long as nobody
puts other bytes at its root: `published_stays_iff`.
-/

namespace CoreTex.Publication

open CoreTex.Lib

/-! ### The store -/

/-- `InMemoryCAS`. Every root that reaches it is well formed. -/
abbrev InMemoryCAS := JsMap Root Bytes

/-- `put`: what was there before is gone. -/
def InMemoryCAS.put (store : InMemoryCAS) (root : Root) (data : Bytes) : InMemoryCAS :=
  store.set root data

/-- `get`. -/
def InMemoryCAS.fetch (store : InMemoryCAS) (root : Root) : Except PublicationError Bytes :=
  match store.get root with
  | none => throw .objectNotFound
  | some data => pure data

theorem fetch_eq_ok {store : InMemoryCAS} {root : Root} {data : Bytes} :
    store.fetch root = .ok data ↔ store.get root = some data := by
  rw [InMemoryCAS.fetch]
  cases store.get root <;> simp

/-! ### Publishing and reading back -/

/-- One availability record. -/
structure AvailabilityItem where
  byteLength : Nat
  hashRule : HashRule
  root : Root
  deriving DecidableEq

/-- The record as the document it is. -/
def AvailabilityItem.json (item : AvailabilityItem) : Json :=
  .obj [(py "bytes", .int item.byteLength), (py "hash_rule", .str (py item.hashRule.name)),
    (py "root", item.root.json)]

section Publish

variable (reprFloat : PyStr → PyStr)

/-- What `publish_and_read_back` checks after it put the bytes. -/
def readBackChecks (rule : HashRule) (expected : Root) (data : Bytes) (store : InMemoryCAS) :
    Except PublicationError Root := do
  let fetched ← store.fetch expected
  refuseIf (fetched ≠ data) .storeIntegrity
  let actual ← rootOf reprFloat fetched rule
  refuseIf (actual ≠ expected) .readBackMismatch
  return expected

/-- `publish_and_read_back`: the outcome, and the store it leaves. -/
def publishAndReadBack (obj : Published) (rule : HashRule) (expectedRoot : Option Json)
    (store : InMemoryCAS) : Except PublicationError Root × InMemoryCAS :=
  let prepared : Except PublicationError (Root × Bytes) := do
    let data ← encode reprFloat obj rule
    let expected ← rootOf reprFloat data rule
    match expectedRoot with
    | none => pure ()
    | some value =>
      let given ← (checkRoot value "expected_root").mapError .frontier
      refuseIf (given ≠ expected) .readBackMismatch
    return (expected, data)
  match prepared with
  -- Nothing is put before the root is checked.
  | .error e => (.error e, store)
  | .ok (expected, data) =>
    let store := store.put expected data
    (readBackChecks reprFloat rule expected data store, store)

/-- `publish_item`. -/
def publishItem (obj : Published) (rule : HashRule) (store : InMemoryCAS) :
    Except PublicationError AvailabilityItem × InMemoryCAS :=
  match encode reprFloat obj rule with
  | .error e => (.error e, store)
  | .ok data =>
    match publishAndReadBack reprFloat obj rule none store with
    | (.error e, store) => (.error e, store)
    | (.ok root, store) => (.ok ⟨data.length, rule, root⟩, store)

/-- `read_back`. -/
def readBack (root : Root) (rule : HashRule) (store : InMemoryCAS)
    (expectedBytesLen : Option Nat) : Except PublicationError Bytes := do
  let data ← store.fetch root
  let actual ← rootOf reprFloat data rule
  refuseIf (actual ≠ root) .readBackMismatch
  match expectedBytesLen with
  | none => pure ()
  | some n => refuseIf (data.length ≠ n) .readBackMismatch
  return data

/-! ### Availability -/

/-- `availability_item`, of what an availability map holds. -/
def availabilityItem (item : Json) : Except PublicationError AvailabilityItem := do
  let members ← (checkClosedFields item ["bytes", "hash_rule", "root"] "availability").mapError
    fun _ => .availability
  let root ← (checkRoot (field members "root") "availability root").mapError .frontier
  match hashRules.find? fun rule => (field members "hash_rule").isStr rule.name with
  | none => throw .hashRule
  | some rule =>
    match field members "bytes" with
    | .int n => if 0 ≤ n then pure ⟨n.toNat, rule, root⟩ else throw .availability
    | _ => throw .availability

/-- `validate_availability`. -/
def validateAvailability (items : Json) :
    Except PublicationError (List (PyStr × AvailabilityItem)) :=
  match items with
  | .obj pairs => do
    refuseIf (pairs = []) .availability
    pairs.mapM fun e => do
      refuseIf (e.1 = []) .availability
      let item ← availabilityItem e.2
      return (e.1, item)
  | _ => throw .availability

/-- One record is read back; a failure of the store is one of availability. -/
def verifyItem (store : InMemoryCAS) (item : AvailabilityItem) : Except PublicationError Root :=
  match readBack reprFloat item.root item.hashRule store (some item.byteLength) with
  | .ok _ => pure item.root
  | .error (.frontier e) => throw (.frontier e)
  | .error _ => throw .availability

/-- `verify_availability`. -/
def verifyAvailability (items : Json) (store : InMemoryCAS) (required : List PyStr) :
    Except PublicationError (List (PyStr × Root)) := do
  let records ← validateAvailability items
  refuseIf (∃ name ∈ required, name ∉ records.map Prod.fst) .availability
  (sortPairs records).mapM fun e => do
    let root ← verifyItem reprFloat store e.2
    return (e.1, root)

end Publish

/-! ### What a call puts -/

/-- A call of `publish_item`. -/
structure Call where
  obj : Published
  rule : HashRule

section Calls

variable (reprFloat : PyStr → PyStr)

/-- The root and the bytes that a call puts; none when it raises. -/
def Call.writes (call : Call) : Option (Root × Bytes) :=
  (do
    let data ← encode reprFloat call.obj call.rule
    let root ← rootOf reprFloat data call.rule
    return (root, data)).toOption

/-- The store after a call, whether it raised or not. -/
def Call.run (store : InMemoryCAS) (call : Call) : InMemoryCAS :=
  (publishItem reprFloat call.obj call.rule store).2

/-- The store after some calls. -/
def runCalls (store : InMemoryCAS) (calls : List Call) : InMemoryCAS :=
  calls.foldl (Call.run reprFloat) store

variable {reprFloat}

theorem writes_eq_some {call : Call} {root : Root} {data : Bytes} :
    call.writes reprFloat = some (root, data) ↔
      encode reprFloat call.obj call.rule = .ok data ∧
        rootOf reprFloat data call.rule = .ok root := by
  rw [Call.writes, toOption_eq_some, bind_eq_ok]
  constructor
  · rintro ⟨data', hdata, hrest⟩
    obtain ⟨root', hroot, hrest⟩ := bind_eq_ok.mp hrest
    cases hrest
    exact ⟨hdata, hroot⟩
  · rintro ⟨hdata, hroot⟩
    exact ⟨data, hdata, bind_eq_ok.mpr ⟨root, hroot, rfl⟩⟩

theorem readBackChecks_put {rule : HashRule} {root : Root} {data : Bytes} (store : InMemoryCAS)
    (hroot : rootOf reprFloat data rule = .ok root) :
    readBackChecks reprFloat rule root data (store.put root data) = .ok root := by
  have hget : (store.put root data).get root = some data := by
    rw [InMemoryCAS.put, JsMap.get_set, if_pos rfl]
  rw [readBackChecks, fetch_eq_ok.mpr hget, ok_bind, refuseIf_of_not (not_not.mpr rfl), ok_bind,
    hroot, ok_bind, refuseIf_of_not (not_not.mpr rfl), ok_bind]
  rfl

/-- A call that puts returns the record of what it put. -/
theorem publishItem_of_writes {call : Call} {root : Root} {data : Bytes}
    (h : call.writes reprFloat = some (root, data)) (store : InMemoryCAS) :
    publishItem reprFloat call.obj call.rule store =
      (.ok ⟨data.length, call.rule, root⟩, store.put root data) := by
  obtain ⟨hencode, hroot⟩ := writes_eq_some.mp h
  simp only [publishItem, publishAndReadBack, hencode, ok_bind, hroot]
  simp only [pure, Except.pure]
  rw [readBackChecks_put store hroot]

/-- A call that raises leaves the store as it was. -/
theorem publishItem_of_raises {call : Call} (h : call.writes reprFloat = none)
    (store : InMemoryCAS) :
    ∃ e, publishItem reprFloat call.obj call.rule store = (.error e, store) := by
  cases hencode : encode reprFloat call.obj call.rule with
  | error e => exact ⟨e, by rw [publishItem, hencode]⟩
  | ok data =>
      cases hroot : rootOf reprFloat data call.rule with
      | error e =>
          refine ⟨e, ?_⟩
          rw [publishItem, hencode]
          simp only [publishAndReadBack, hencode, ok_bind, hroot, error_bind]
      | ok root =>
          rw [writes_eq_some.mpr ⟨hencode, hroot⟩] at h
          cases h

theorem run_of_writes {call : Call} {root : Root} {data : Bytes}
    (h : call.writes reprFloat = some (root, data)) (store : InMemoryCAS) :
    call.run reprFloat store = store.put root data := by
  rw [Call.run, publishItem_of_writes h]

theorem run_of_raises {call : Call} (h : call.writes reprFloat = none) (store : InMemoryCAS) :
    call.run reprFloat store = store := by
  obtain ⟨e, he⟩ := publishItem_of_raises h store
  rw [Call.run, he]

end Calls

/-! ### What a record needs -/

section Records

variable {reprFloat : PyStr → PyStr}

theorem readBack_eq_ok {root : Root} {rule : HashRule} {store : InMemoryCAS} {n : Nat}
    {data : Bytes} : readBack reprFloat root rule store (some n) = .ok data ↔
      store.get root = some data ∧ rootOf reprFloat data rule = .ok root ∧ data.length = n := by
  rw [readBack, bind_eq_ok]
  constructor
  · rintro ⟨found, hfound, hrest⟩
    obtain ⟨actual, hactual, hrest⟩ := bind_eq_ok.mp hrest
    obtain ⟨hsame, hrest⟩ := refuseIf_bind_eq_ok.mp hrest
    obtain ⟨hlength, hrest⟩ := refuseIf_bind_eq_ok.mp hrest
    cases hrest
    exact ⟨fetch_eq_ok.mp hfound, not_not.mp hsame ▸ hactual, not_not.mp hlength⟩
  · rintro ⟨hget, hroot, hlength⟩
    refine ⟨data, fetch_eq_ok.mpr hget, bind_eq_ok.mpr ⟨root, hroot, ?_⟩⟩
    exact refuseIf_bind_eq_ok.mpr
      ⟨not_not.mpr rfl, refuseIf_bind_eq_ok.mpr ⟨not_not.mpr hlength, rfl⟩⟩

theorem availabilityItem_json (item : AvailabilityItem) :
    availabilityItem item.json = .ok item := by
  obtain ⟨members, hmembers⟩ : ∃ members, members = [(py "bytes", Json.int item.byteLength),
    (py "hash_rule", .str (py item.hashRule.name)), (py "root", item.root.json)] := ⟨_, rfl⟩
  have hclosed : checkClosedFields item.json ["bytes", "hash_rule", "root"] "availability" =
      .ok members := by
    rw [checkClosedFields_eq_ok, hmembers]
    exact ⟨rfl, by simp [lookup], by simp⟩
  have hbytes : field members "bytes" = .int item.byteLength := by
    simp [hmembers, field, lookup]
  have hrule : field members "hash_rule" = .str (py item.hashRule.name) := by
    simp [hmembers, field, lookup]
  have hroot : field members "root" = item.root.json := by
    simp [hmembers, field, lookup]
  have hfind : hashRules.find? (fun rule => (Json.str (py item.hashRule.name)).isStr rule.name) =
      some item.hashRule := by
    cases item.hashRule <;> rfl
  rw [availabilityItem, hclosed, mapError_eq_ok.mpr rfl, ok_bind, hroot,
    mapError_eq_ok.mpr (checkRoot_eq_ok.mpr rfl), ok_bind, hrule, hfind, hbytes]
  simp

/-- A map of one record is verified by reading that record back. -/
theorem verifyAvailability_one {name : PyStr} (hname : name ≠ []) (item : AvailabilityItem)
    (store : InMemoryCAS) : verifyAvailability reprFloat (.obj [(name, item.json)]) store [] =
      (verifyItem reprFloat store item).map fun root => [(name, root)] := by
  have hvalidate : validateAvailability (.obj [(name, item.json)]) = .ok [(name, item)] := by
    rw [validateAvailability, refuseIf_of_not (List.cons_ne_nil _ _), ok_bind, List.mapM_cons,
      refuseIf_of_not hname, ok_bind, availabilityItem_json]
    rfl
  have hsort : sortPairs [(name, item)] = [(name, item)] := rfl
  rw [verifyAvailability, hvalidate, ok_bind, refuseIf_of_not (by simp), ok_bind, hsort,
    List.mapM_cons]
  cases verifyItem reprFloat store item <;> rfl

/-- A record passes, and what is read back under it is what was published. -/
def Stands (reprFloat : PyStr → PyStr) (name : PyStr) (item : AvailabilityItem) (data : Bytes)
    (store : InMemoryCAS) : Prop :=
  verifyAvailability reprFloat (.obj [(name, item.json)]) store [] = .ok [(name, item.root)] ∧
    readBack reprFloat item.root item.hashRule store (some item.byteLength) = .ok data

/-- **A record stands as long as its bytes are at its root.** -/
theorem stands_iff {name : PyStr} (hname : name ≠ []) {rule : HashRule} {root : Root} {data : Bytes}
    (hroot : rootOf reprFloat data rule = .ok root) (store : InMemoryCAS) :
    Stands reprFloat name ⟨data.length, rule, root⟩ data store ↔ store.get root = some data := by
  rw [Stands, readBack_eq_ok, verifyAvailability_one hname]
  constructor
  · intro h
    exact h.2.1
  · intro hget
    have hread : readBack reprFloat root rule store (some data.length) = .ok data :=
      readBack_eq_ok.mpr ⟨hget, hroot, rfl⟩
    have hitem : verifyItem reprFloat store ⟨data.length, rule, root⟩ = .ok root := by
      rw [verifyItem, hread]
      rfl
    rw [hitem]
    exact ⟨rfl, hget, hroot, rfl⟩

end Records

/-! ### Runs -/

section Runs

variable {reprFloat : PyStr → PyStr}

/-- What a call leaves at a root. -/
theorem get_run (call : Call) (store : InMemoryCAS) (root : Root) :
    (call.run reprFloat store).get root =
      match call.writes reprFloat with
      | some (other, data) => if other = root then some data else store.get root
      | none => store.get root := by
  cases h : call.writes reprFloat with
  | none => rw [run_of_raises h]
  | some put => rw [run_of_writes h, InMemoryCAS.put, JsMap.get_set]

/-- **The bytes stay at a root** through every stage of a run exactly when no call of it puts others
there. -/
theorem get_runCalls {root : Root} {data : Bytes} {calls : List Call} {store : InMemoryCAS}
    (hget : store.get root = some data) :
    (∀ done, done <+: calls → (runCalls reprFloat store done).get root = some data) ↔
      ∀ call ∈ calls, ∀ other, call.writes reprFloat = some (root, other) → other = data := by
  induction calls generalizing store with
  | nil =>
      refine ⟨fun _ call hcall => absurd hcall List.not_mem_nil, fun _ done hdone => ?_⟩
      rw [List.prefix_nil.mp hdone]
      exact hget
  | cons call calls ih =>
      have hcall : (call.run reprFloat store).get root = some data ↔
          ∀ other, call.writes reprFloat = some (root, other) → other = data := by
        rw [get_run]
        cases call.writes reprFloat with
        | none => exact ⟨fun _ _ h => (by cases h), fun _ => hget⟩
        | some put =>
            obtain ⟨other, bytes⟩ := put
            dsimp only
            by_cases hroot : other = root
            · rw [if_pos hroot, hroot]
              constructor
              · intro h found hfound
                cases hfound
                exact Option.some.inj h
              · intro h
                rw [h bytes rfl]
            · rw [if_neg hroot]
              refine ⟨fun _ found hfound => ?_, fun _ => hget⟩
              cases hfound
              exact absurd rfl hroot
      -- The stage after the first call, then those after it.
      constructor
      · intro h
        have hfirst : (call.run reprFloat store).get root = some data :=
          h [call] ⟨calls, rfl⟩
        refine List.forall_mem_cons.mpr ⟨hcall.mp hfirst, (ih hfirst).mp fun done hdone => ?_⟩
        exact h (call :: done) ((List.prefix_cons_inj call).mpr hdone)
      · intro h done hdone
        obtain ⟨hhead, hrest⟩ := List.forall_mem_cons.mp h
        cases done with
        | nil => exact hget
        | cons first done =>
            obtain ⟨rfl, hshorter⟩ := List.cons_prefix_cons.mp hdone
            exact (ih (hcall.mpr hhead)).mpr hrest done hshorter

end Runs

/-- A document without floats and surrogates is published as text that reads as it. -/
theorem documentOf_encode {reprFloat : PyStr → PyStr} {document : Json} {rule : HashRule}
    {data : Bytes} (hplain : document.Plain)
    (h : encode reprFloat (.json document) rule = .ok data) :
    ∃ found, documentOf data = .ok found ∧ document.Rearranged found := by
  have hdata : data = document.dumps := by
    cases rule with
    | bytes => cases h
    | frontierJson => exact (canonicalBytes_eq_ok.mp (mapError_eq_ok.mp h)).2.2
    | compatibilityLock => exact (canonicalBytes_eq_ok.mp (mapError_eq_ok.mp h)).2.2
    | benchmarkJson =>
        cases document with
        | obj pairs =>
            rw [← pure_eq_ok.mp h, benchmarkCanonicalBytes, reprFloats_plain _ hplain]
        | _ => cases h
    | manifestBody =>
        cases document with
        | obj pairs =>
            rw [← pure_eq_ok.mp h, benchmarkCanonicalBytes, reprFloats_plain _ hplain]
        | _ => cases h
  exact ⟨document.sortKeys, hdata ▸ documentOf_dumps hplain, .sortKeys document⟩

/-- **Published objects stay published** as long as nobody publishes other bytes at their root. A
record stands through every later stage exactly when each later call that puts at its root puts its
bytes. Two rules of SHA-256 put different bytes at one root only when one of them is that of
manifests, or the hash collides; and a root names one byte string, or one body. -/
theorem published_stays (reprFloat : PyStr → PyStr) (before : List Call) (call : Call)
    (after : List Call) (item : AvailabilityItem) (store : InMemoryCAS)
    (hcall : publishItem reprFloat call.obj call.rule (runCalls reprFloat [] before) =
      (.ok item, store)) (name : PyStr) (hname : name ≠ []) :
    ∃ data, encode reprFloat call.obj call.rule = .ok data ∧
      (∀ document, call.obj = .json document → document.Plain →
        ∃ found, documentOf data = .ok found ∧ document.Rearranged found) ∧
      ((∀ done, done <+: after → Stands reprFloat name item data (runCalls reprFloat store done)) ↔
        ∀ later ∈ after, ∀ other, later.writes reprFloat = some (item.root, other) →
          other = data) ∧
      (∀ later ∈ after, ∀ other, later.writes reprFloat = some (item.root, other) →
        call.rule ≠ .compatibilityLock → later.rule ≠ .compatibilityLock →
        ∃ hashed hashed', Hashes reprFloat call.rule data hashed ∧
          Hashes reprFloat later.rule other hashed' ∧
          (hashed = hashed' ∨ Collides sha256 hashed hashed')) ∧
      ∀ rule bytes bytes' root, rootOf reprFloat bytes rule = .ok root →
        rootOf reprFloat bytes' rule = .ok root →
        (rule ≠ .compatibilityLock → ∃ hashed hashed', Hashes reprFloat rule bytes hashed ∧
            Hashes reprFloat rule bytes' hashed' ∧
            (hashed = hashed' ∨ Collides sha256 hashed hashed')) ∧
          (rule = .compatibilityLock → bytes = bytes' ∨
            ∃ locks locks', bytes = lockText root locks ∧ bytes' = lockText root locks' ∧
              Collides Hash.keccak256Py (lockDomain ++ lockBody locks)
                (lockDomain ++ lockBody locks')) := by
  cases hwrites : call.writes reprFloat with
  | none =>
      obtain ⟨e, he⟩ := publishItem_of_raises hwrites (runCalls reprFloat [] before)
      rw [he] at hcall
      cases hcall
  | some put =>
      obtain ⟨root, data⟩ := put
      rw [publishItem_of_writes hwrites] at hcall
      cases hcall
      obtain ⟨hencode, hroot⟩ := writes_eq_some.mp hwrites
      have hget : JsMap.get ((runCalls reprFloat [] before).put root data) root = some data := by
        rw [InMemoryCAS.put, JsMap.get_set, if_pos rfl]
      refine ⟨data, hencode, ?_, ?_, ?_, fun rule bytes bytes' root h h' => rootOf_same h h'⟩
      · intro document hobj hplain
        rw [hobj] at hencode
        exact documentOf_encode hplain hencode
      · simp only [stands_iff hname hroot]
        exact get_runCalls hget
      · intro later _ other hlater hrule hrule'
        exact hashes_same hrule hrule' hroot (writes_eq_some.mp hlater).2

/-! ### Two manifests at one root -/

/-- A manifest that records its own hash, and nothing else. -/
def selfHashed (s : String) : Json :=
  .obj [(py "manifest_self_sha256", .str (py s))]

def publishManifest (s : String) : Call :=
  ⟨.json (selfHashed s), .manifestBody⟩

theorem composition_ne : py "composition" ≠ [] := by decide

theorem writes_publishManifest : ∀ s ∈ ["a", "bb"],
    (publishManifest s).writes id = some (sha256Hex (ascii "{}"), (selfHashed s).dumps) := by
  have hscalar : ∀ s ∈ ["a", "bb"], Scalar (py s) := by decide +kernel
  have hkey : Scalar (py "manifest_self_sha256") := by decide +kernel
  intro s hs
  have hplain : (selfHashed s).Plain := ⟨by simp, hkey, hscalar s hs, trivial⟩
  have hencode : encode id (.json (selfHashed s)) .manifestBody = .ok (selfHashed s).dumps := by
    have hrepr := @reprFloats_plain id (selfHashed s) hplain
    show Except.ok (reprFloats id (selfHashed s)).dumps = _
    rw [hrepr]
  have hbody : manifestBody (selfHashed s).sortKeys = .ok (.obj []) := by
    have hsorted : (selfHashed s).sortKeys = selfHashed s := rfl
    rw [hsorted]
    simp [manifestBody, selfHashed, without]
  have hcanonical : benchmarkCanonicalBytes id (.obj []) = ascii "{}" := by decide +kernel
  refine writes_eq_some.mpr ⟨hencode, ?_⟩
  unfold rootOf publishManifest
  dsimp only
  rw [documentOf_dumps hplain, ok_bind, hbody, ok_bind, hcanonical, pure_eq_ok]

/-- The record of a manifest stands while nothing else is published. -/
theorem published_stays_sample : ∃ item store,
    publishItem id (.json (selfHashed "a")) .manifestBody [] = (.ok item, store) ∧
      Stands id (py "composition") item (selfHashed "a").dumps
        (runCalls id store [publishManifest "a"]) := by
  have hwrites := writes_publishManifest "a" (by simp)
  have heq := publishItem_of_writes hwrites []
  obtain ⟨data, hdata, -, hstands, -⟩ := published_stays id [] (publishManifest "a")
    [publishManifest "a"] _ _ heq (py "composition") composition_ne
  have hsame : (selfHashed "a").dumps = data := by
    rw [(writes_eq_some.mp hwrites).1] at hdata
    exact Except.ok.inj hdata
  subst hsame
  refine ⟨_, _, heq, hstands.mpr ?_ _ (List.prefix_refl _)⟩
  intro later hlater other hother
  rw [List.mem_singleton.mp hlater, hwrites] at hother
  exact (Prod.mk.inj (Option.some.inj hother)).2.symm

/-- A manifest with another self hash is published at the root of the first, whose record then
fails: other bytes are there, and they have another length. -/
theorem published_overwritten : ∃ item store,
    publishItem id (.json (selfHashed "a")) .manifestBody [] = (.ok item, store) ∧
      Stands id (py "composition") item (selfHashed "a").dumps store ∧
      verifyAvailability id (.obj [(py "composition", item.json)])
        (runCalls id store [publishManifest "bb"]) [] = .error .availability := by
  have hwrites := writes_publishManifest "a" (by simp)
  have hother := writes_publishManifest "bb" (by simp)
  have heq := publishItem_of_writes hwrites []
  have hroot := (writes_eq_some.mp hwrites).2
  have hroot' := (writes_eq_some.mp hother).2
  have hlength : (selfHashed "bb").dumps.length ≠ (selfHashed "a").dumps.length := by
    decide +kernel
  generalize sha256Hex (ascii "{}") = root at *
  have hstands := (stands_iff composition_ne hroot
    (InMemoryCAS.put [] root (selfHashed "a").dumps)).mpr
      (by rw [InMemoryCAS.put, JsMap.get_set, if_pos rfl])
  have hfetch : InMemoryCAS.fetch (runCalls id (InMemoryCAS.put [] root (selfHashed "a").dumps)
      [publishManifest "bb"]) root = .ok (selfHashed "bb").dumps := by
    rw [fetch_eq_ok, runCalls, List.foldl_cons, List.foldl_nil, get_run, hother]
    exact if_pos rfl
  have hread : readBack id root .manifestBody (runCalls id (InMemoryCAS.put [] root
      (selfHashed "a").dumps) [publishManifest "bb"]) (some (selfHashed "a").dumps.length) =
        .error .readBackMismatch := by
    have hmanifest : rootOf id (selfHashed "bb").dumps .manifestBody = .ok root := hroot'
    rw [readBack, hfetch, ok_bind, hmanifest, ok_bind, refuseIf_of_not (not_not.mpr rfl), ok_bind]
    dsimp only
    rw [refuseIf_of hlength, error_bind]
  refine ⟨_, _, heq, hstands, ?_⟩
  rw [verifyAvailability_one composition_ne, verifyItem]
  have hrule : (publishManifest "a").rule = .manifestBody := rfl
  dsimp only
  rw [hrule, hread]
  rfl

end CoreTex.Publication
