import CoreTex.Frontier.Codec
import CoreTex.Hash.KeccakPy

/-!
# CoreTex.Publication.HashRules

The five hash rules of a published object (`publication.py`), and the compatibility lock
(`compat_lock.py`).

A float keeps its literal; the text that `repr` gives it is a parameter. What a rule says of two
byte strings with one root is `rootOf_same`: they are the same bytes, or their bodies have the same
canonical bytes, or a hash collided.
-/

namespace CoreTex.Publication

open CoreTex.Lib

/-! ### Rules and objects -/

/-- `HASH_RULES`. -/
inductive HashRule
  | bytes | frontierJson | benchmarkJson | manifestBody | compatibilityLock
  deriving DecidableEq, Repr

def HashRule.name : HashRule → String
  | .bytes => "sha256-bytes"
  | .frontierJson => "sha256-frontier-canonical-json"
  | .benchmarkJson => "sha256-benchmark-canonical-json"
  | .manifestBody => "sha256-manifest-body"
  | .compatibilityLock => "compatibility-lock-root"

def hashRules : List HashRule :=
  [.bytes, .frontierJson, .benchmarkJson, .manifestBody, .compatibilityLock]

/-- What is published: raw bytes, or a JSON value. -/
inductive Published
  | bytes (data : Bytes)
  | json (document : Json)

/-- The classes of exceptions that leave the module. -/
inductive PublicationError
  | hashRule
  | objectNotFound
  | readBackMismatch
  | storeIntegrity
  | availability
  | frontier (e : FrontierError)
  deriving DecidableEq

/-! ### Canonical bytes -/

section Floats

variable (reprFloat : PyStr → PyStr)

mutual

/-- A document whose floats read as `repr` prints them. -/
def reprFloats : Json → Json
  | .float literal => .float (reprFloat literal)
  | .arr items => .arr (reprItems items)
  | .obj pairs => .obj (reprPairs pairs)
  | document => document

def reprItems : List Json → List Json
  | [] => []
  | x :: items => reprFloats x :: reprItems items

def reprPairs : List (PyStr × Json) → List (PyStr × Json)
  | [] => []
  | (key, x) :: pairs => (key, reprFloats x) :: reprPairs pairs

end

/-- `benchmark_canonical_bytes`. -/
def benchmarkCanonicalBytes (document : Json) : Bytes :=
  (reprFloats reprFloat document).dumps

end Floats

/-- The members of an object without one of them. -/
def without (name : String) (pairs : List (PyStr × Json)) : List (PyStr × Json) :=
  pairs.filter fun e => e.1 ≠ py name

/-- `manifest_body`. -/
def manifestBody (document : Json) : Except PublicationError Json :=
  match document with
  | .obj pairs => pure (.obj (without "manifest_self_sha256" pairs))
  | _ => throw .hashRule

/-! ### The compatibility lock -/

/-- `FORMAT`. -/
def lockFormat : String := "coretex.compatibility-lock/v1"

/-- `DOMAIN`. -/
def lockDomain : Bytes :=
  [0x19] ++ ascii "coretex.compatibility-lock/v1" ++ [0x0a]

/-- `ROOT_RULES`. -/
def rootRules : List (String × String) := [
  ("benchmark_law_root", "sha256-bytes"),
  ("counter_resource_law_root", "sha256-frontier-canonical-json"),
  ("counter_root", "sha256-benchmark-canonical-json"),
  ("evaluation_law_root", "sha256-benchmark-canonical-json"),
  ("evaluation_law_scorer_root", "sha256-benchmark-canonical-json"),
  ("miner_module_abi_root", "sha256-frontier-canonical-json"),
  ("renderer_root", "sha256-benchmark-canonical-json"),
  ("rig_contract_authority_root", "sha256-bytes"),
  ("runtime_artifact_root", "sha256-file-tree"),
  ("runtime_protocol_abi_root", "sha256-frontier-canonical-json"),
  ("runtime_wheel_root", "sha256-bytes"),
  ("wasmtime_aarch64_wheel_root", "sha256-bytes"),
  ("wasmtime_amd64_wheel_root", "sha256-bytes")]

/-- `LITERALS`. -/
def lockLiterals : List String :=
  ["input_envelope_schema", "module_manifest_schema", "store_schema",
    "transition_descriptor_schema"]

/-- `frontier.ZERO_ROOT`. -/
def zeroRoot : PyStr :=
  List.replicate 64 48

/-- One entry of `ROOT_RULES`. -/
def checkRootEntry (locks : List (PyStr × Json)) (entry : String × String) :
    Except FrontierError Unit := do
  let members ← checkClosedFields (field locks entry.1) ["hash_rule", "kind", "root"] entry.1
  let root ← checkRoot (field members "root") entry.1
  refuseIf ((field members "kind").isStr "root" = false ∨
    (field members "hash_rule").isStr entry.2 = false ∨ root.hex = zeroRoot) (.value entry.1)

/-- One entry of `LITERALS`: a schema that is named, and a version that is a portable integer. -/
def checkLiteralEntry (locks : List (PyStr × Json)) (name : String) :
    Except FrontierError Unit := do
  let members ← checkClosedFields (field locks name) ["kind", "schema", "version"] name
  let named :=
    match field members "schema" with
    | .str schema => decide (schema ≠ [])
    | _ => false
  let portable :=
    match field members "version" with
    | .int version => decide (0 ≤ version ∧ version ≤ 2 ^ 53 - 1)
    | _ => false
  refuseIf ((field members "kind").isStr "literal" = false ∨ named = false ∨ portable = false)
    (.value name)

/-- `verify_lock`. Every refusal is a `CompatibilityLockError`; it keeps the class it stands for. -/
def verifyLock (document : Json) : Except FrontierError Root := do
  let pairs ← checkClosedFields document ["format", "lock_root", "locks"] "compatibility lock"
  refuseIf ((field pairs "format").isStr lockFormat = false) (.value "format")
  let locks ← checkClosedFields (field pairs "locks") (rootRules.map Prod.fst ++ lockLiterals)
    "locks"
  rootRules.forM (checkRootEntry locks)
  lockLiterals.forM (checkLiteralEntry locks)
  let recorded ← checkRoot (field pairs "lock_root") "lock_root"
  let canonical ← canonicalBytes (.obj (without "lock_root" pairs))
  let observed := hexText (Hash.keccak256Py (lockDomain ++ canonical))
  refuseIf (recorded.hex ≠ observed) (.value "lock_root")
  return recorded

/-! ### Encoding and roots -/

section Rules

variable (reprFloat : PyStr → PyStr)

/-- `encode`. -/
def encode (obj : Published) (rule : HashRule) : Except PublicationError Bytes :=
  match rule, obj with
  | .bytes, .bytes data => pure data
  | .bytes, .json _ => throw .hashRule
  | .frontierJson, .json document => (canonicalBytes document).mapError .frontier
  | .compatibilityLock, .json document => (canonicalBytes document).mapError .frontier
  | .frontierJson, .bytes _ => throw (.frontier .canonicalization)
  | .compatibilityLock, .bytes _ => throw (.frontier .canonicalization)
  | .benchmarkJson, .json (.obj pairs) => pure (benchmarkCanonicalBytes reprFloat (.obj pairs))
  | .manifestBody, .json (.obj pairs) => pure (benchmarkCanonicalBytes reprFloat (.obj pairs))
  | _, _ => throw .hashRule

/-- The document of published bytes. -/
def documentOf (data : Bytes) : Except PublicationError Json :=
  match decodeUtf8 data with
  | none => throw .hashRule
  | some text => (parseJson text).mapError fun _ => .hashRule

/-- The canonical bytes of a document, where the bytes must be these already. -/
def canonicalForm (document : Json) (data : Bytes) : Except PublicationError Bytes := do
  let canonical ← (canonicalBytes document).mapError fun _ => .hashRule
  refuseIf (canonical ≠ data) .hashRule
  return canonical

/-- `root_of`. -/
def rootOf (data : Bytes) (rule : HashRule) : Except PublicationError Root :=
  match rule with
  | .bytes => pure (sha256Hex data)
  | .frontierJson => do
    let document ← documentOf data
    let canonical ← canonicalForm document data
    return sha256Hex canonical
  | .benchmarkJson => do
    let document ← documentOf data
    let canonical := benchmarkCanonicalBytes reprFloat document
    refuseIf (canonical ≠ data) .hashRule
    return sha256Hex canonical
  | .manifestBody => do
    let document ← documentOf data
    let body ← manifestBody document
    return sha256Hex (benchmarkCanonicalBytes reprFloat body)
  | .compatibilityLock => do
    let document ← documentOf data
    let _ ← canonicalForm document data
    (verifyLock document).mapError fun _ => .hashRule

end Rules

/-! ### Documents are read back -/

theorem mapError_eq_ok {ε ε' α : Type} {x : Except ε α} {f : ε → ε'} {a : α} :
    x.mapError f = .ok a ↔ x = .ok a := by
  cases x <;> simp [Except.mapError]

section ReadsBack

variable {reprFloat : PyStr → PyStr}

theorem reprItems_eq_map (items : List Json) :
    reprItems reprFloat items = items.map (reprFloats reprFloat) := by
  induction items with
  | nil => rfl
  | cons x items ih => rw [reprItems, List.map_cons, ih]

theorem reprPairs_eq_map (pairs : List (PyStr × Json)) :
    reprPairs reprFloat pairs = pairs.map fun e => (e.1, reprFloats reprFloat e.2) := by
  induction pairs with
  | nil => rfl
  | cons e pairs ih => rw [reprPairs, List.map_cons, ih]

/-- A document without floats is printed as it is. -/
theorem reprFloats_plain (d : Json) (h : d.Plain) : reprFloats reprFloat d = d := by
  induction d using Json.induction with
  | null => rfl
  | bool b => rfl
  | int n => rfl
  | float l => exact h.elim
  | str s => rfl
  | arr items ih =>
      have hitems := plainItems_iff.mp h
      rw [reprFloats, reprItems_eq_map, List.map_congr_left fun x hx => ih x hx (hitems x hx),
        List.map_id']
  | obj pairs ih =>
      have hpairs := plainPairs_iff.mp h.2
      have heach : ∀ e ∈ pairs, (e.1, reprFloats reprFloat e.2) = e := by
        intro e he
        rw [ih e he (hpairs e he).2]
      rw [reprFloats, reprPairs_eq_map, List.map_congr_left heach, List.map_id']

theorem documentOf_dumps {d : Json} (h : d.Plain) : documentOf d.dumps = .ok d.sortKeys := by
  have hread := parseJsonBytes_dumps h
  obtain ⟨text, htext, hparse⟩ := bind_eq_ok.mp hread
  rw [expect_eq_ok] at htext
  rw [documentOf, htext]
  exact mapError_eq_ok.mpr hparse

end ReadsBack

/-! ### What a root says of the bytes -/

/-- Two byte strings that a hash does not tell apart. -/
def Collides (hash : Bytes → Bytes) (a b : Bytes) : Prop :=
  a ≠ b ∧ hash a = hash b

theorem eq_or_collides {hash : Bytes → Bytes} {a b : Bytes} (h : hash a = hash b) :
    a = b ∨ Collides hash a b := by
  by_cases hab : a = b
  · exact .inl hab
  · exact .inr ⟨hab, h⟩

/-- The rules that hash the published bytes themselves. -/
def HashRule.ofBytes : HashRule → Bool
  | .bytes => true
  | .frontierJson => true
  | .benchmarkJson => true
  | _ => false

section Roots

variable {reprFloat : PyStr → PyStr}

theorem canonicalForm_eq_ok {document : Json} {data bytes : Bytes} :
    canonicalForm document data = .ok bytes ↔
      bytes = data ∧ canonicalBytes document = .ok data := by
  rw [canonicalForm, bind_eq_ok]
  constructor
  · rintro ⟨canonical, hcanonical, hrest⟩
    obtain ⟨hsame, hbytes⟩ := refuseIf_bind_eq_ok.mp hrest
    rw [pure_eq_ok] at hbytes
    rw [not_not] at hsame
    exact ⟨hbytes.symm.trans hsame, hsame ▸ mapError_eq_ok.mp hcanonical⟩
  · rintro ⟨rfl, hcanonical⟩
    exact ⟨bytes, mapError_eq_ok.mpr hcanonical,
      refuseIf_bind_eq_ok.mpr ⟨not_not.mpr rfl, rfl⟩⟩

/-- Under three rules the root is the hash of the bytes. -/
theorem rootOf_ofBytes {rule : HashRule} (hrule : rule.ofBytes = true) {data : Bytes} {root : Root}
    (h : rootOf reprFloat data rule = .ok root) : root = sha256Hex data := by
  cases rule with
  | bytes => exact (pure_eq_ok.mp h).symm
  | frontierJson =>
      obtain ⟨document, -, h⟩ := bind_eq_ok.mp h
      obtain ⟨canonical, hcanonical, h⟩ := bind_eq_ok.mp h
      rw [(canonicalForm_eq_ok.mp hcanonical).1] at h
      exact (pure_eq_ok.mp h).symm
  | benchmarkJson =>
      obtain ⟨document, -, h⟩ := bind_eq_ok.mp h
      obtain ⟨hsame, h⟩ := refuseIf_bind_eq_ok.mp h
      rw [not_not.mp hsame] at h
      exact (pure_eq_ok.mp h).symm
  | manifestBody => cases hrule
  | compatibilityLock => cases hrule

/-- The canonical body of a manifest's bytes. -/
def HasBody (reprFloat : PyStr → PyStr) (data body : Bytes) : Prop :=
  ∃ pairs, documentOf data = .ok (.obj pairs) ∧
    body = benchmarkCanonicalBytes reprFloat (.obj (without "manifest_self_sha256" pairs))

theorem rootOf_manifestBody {data : Bytes} {root : Root}
    (h : rootOf reprFloat data .manifestBody = .ok root) :
    ∃ body, HasBody reprFloat data body ∧ root = sha256Hex body := by
  obtain ⟨document, hdocument, h⟩ := bind_eq_ok.mp h
  obtain ⟨body, hbody, h⟩ := bind_eq_ok.mp h
  cases document with
  | obj pairs =>
      cases hbody
      exact ⟨_, ⟨pairs, hdocument, rfl⟩, (pure_eq_ok.mp h).symm⟩
  | _ => cases hbody

/-- The bytes that a rule of SHA-256 hashes. -/
def Hashes (reprFloat : PyStr → PyStr) (rule : HashRule) (data hashed : Bytes) : Prop :=
  if rule = .manifestBody then HasBody reprFloat data hashed else hashed = data

theorem rootOf_hashes {rule : HashRule} (hrule : rule ≠ .compatibilityLock) {data : Bytes}
    {root : Root} (h : rootOf reprFloat data rule = .ok root) :
    ∃ hashed, Hashes reprFloat rule data hashed ∧ root = sha256Hex hashed := by
  by_cases hbody : rule = .manifestBody
  · subst hbody
    obtain ⟨body, hhas, hroot⟩ := rootOf_manifestBody h
    exact ⟨body, by rwa [Hashes, if_pos rfl], hroot⟩
  · have hbytes : rule.ofBytes = true := by
      cases rule with
      | manifestBody => exact absurd rfl hbody
      | compatibilityLock => exact absurd rfl hrule
      | _ => rfl
    exact ⟨data, by rw [Hashes, if_neg hbody], rootOf_ofBytes hbytes h⟩

/-- Publications under one root hashed the same bytes, whatever their rules of SHA-256, or the hash
collided. -/
theorem hashes_same {rule rule' : HashRule} (hrule : rule ≠ .compatibilityLock)
    (hrule' : rule' ≠ .compatibilityLock) {data data' : Bytes} {root : Root}
    (h : rootOf reprFloat data rule = .ok root) (h' : rootOf reprFloat data' rule' = .ok root) :
    ∃ hashed hashed', Hashes reprFloat rule data hashed ∧ Hashes reprFloat rule' data' hashed' ∧
      (hashed = hashed' ∨ Collides sha256 hashed hashed') := by
  obtain ⟨hashed, hhashes, hroot⟩ := rootOf_hashes hrule h
  obtain ⟨hashed', hhashes', hroot'⟩ := rootOf_hashes hrule' h'
  exact ⟨hashed, hashed', hhashes, hhashes',
    eq_or_collides (sha256_eq_of_sha256Hex (hroot.symm.trans hroot'))⟩

/-! ### Locks -/

/-- The bytes of a lock's body, by its locks. -/
def lockBody (locks : Json) : Bytes :=
  (Json.obj [(py "format", .str (py lockFormat)), (py "locks", locks)]).ser

/-- The bytes of a lock, by its root and its locks. -/
def lockText (root : Root) (locks : Json) : Bytes :=
  (Json.obj [(py "format", .str (py lockFormat)), (py "lock_root", root.json),
    (py "locks", locks)]).ser

theorem lockText_of_lockBody {locks locks' : Json} (h : lockBody locks = lockBody locks')
    (root : Root) : lockText root locks = lockText root locks' := by
  have hser : locks.ser = locks'.ser := by
    simp only [lockBody, Json.ser, serPairs, List.append_assoc] at h
    simpa using h
  simp only [lockText, Json.ser, serPairs, hser]

theorem lookup_without {name other : String} (hne : other ≠ name) (pairs : List (PyStr × Json)) :
    lookup (without name pairs) (py other) = lookup pairs (py other) := by
  have hkey : py other ≠ py name := fun h => hne (py_injective h)
  rw [lookup, lookup, without, List.find?_filter]
  congr 2
  funext e
  by_cases he : e.1 = py other
  · simp [he, hkey]
  · simp [he]

/-- The bytes of a lock that verifies, and of the body it hashes. -/
theorem verifyLock_ok {pairs : List (PyStr × Json)} (hwf : (Json.obj pairs).WF) {root : Root}
    (h : verifyLock (.obj pairs) = .ok root) :
    ∃ locks, (Json.obj pairs).dumps = lockText root locks ∧
      root.hex = hexText (Hash.keccak256Py (lockDomain ++ lockBody locks)) := by
  rw [verifyLock] at h
  obtain ⟨members, hclosed, h⟩ := bind_eq_ok.mp h
  obtain ⟨hobj, hrequired, hkeys⟩ := checkClosedFields_eq_ok.mp hclosed
  cases hobj
  obtain ⟨hformat, h⟩ := refuseIf_bind_eq_ok.mp h
  obtain ⟨locks, -, h⟩ := bind_eq_ok.mp h
  obtain ⟨-, -, h⟩ := bind_eq_ok.mp h
  obtain ⟨-, -, h⟩ := bind_eq_ok.mp h
  obtain ⟨recorded, hrecorded, h⟩ := bind_eq_ok.mp h
  obtain ⟨canonical, hcanonical, h⟩ := bind_eq_ok.mp h
  obtain ⟨hhash, h⟩ := refuseIf_bind_eq_ok.mp h
  cases h
  rw [Bool.not_eq_false, Json.isStr_iff] at hformat
  rw [checkRoot_eq_ok] at hrecorded
  rw [not_not] at hhash
  refine ⟨(field pairs "locks").sortKeys, ?_, ?_⟩
  · have hsorted : Ascending ["format", "lock_root", "locks"] := by decide +kernel
    rw [Json.dumps, sortKeys_obj_fields hwf.1 hsorted hrequired]
    · simp only [List.map_cons, List.map_nil, hformat, hrecorded, Root.json, Json.sortKeys,
        lockText]
    · intro k hk
      obtain ⟨e, he, rfl⟩ := List.mem_map.mp hk
      obtain ⟨f, hf, hfe⟩ := List.mem_map.mp (hkeys e he)
      exact ⟨f, hf, hfe⟩
  · have hbody : canonical = lockBody (field pairs "locks").sortKeys := by
      have hsorted : Ascending ["format", "locks"] := by decide +kernel
      have hnodup : ((without "lock_root" pairs).map Prod.fst).Nodup :=
        hwf.1.sublist ((List.filter_sublist).map Prod.fst)
      have hlookup : ∀ f ∈ ["format", "locks"],
          lookup (without "lock_root" pairs) (py f) = lookup pairs (py f) := by
        intro f hf
        refine lookup_without (fun heq => ?_) pairs
        subst heq
        simp at hf
      rw [(canonicalBytes_eq_ok.mp hcanonical).2.2, Json.dumps,
        sortKeys_obj_fields hnodup hsorted]
      · simp only [List.map_cons, List.map_nil, field, hlookup "format" (by simp),
          hlookup "locks" (by simp), lockBody]
        rw [field] at hformat
        rw [hformat]
        rfl
      · intro f hf
        rw [hlookup f hf]
        exact hrequired f (by simp at hf ⊢; tauto)
      · intro k hk
        obtain ⟨e, he, rfl⟩ := List.mem_map.mp hk
        obtain ⟨hmem, hne⟩ := List.mem_filter.mp he
        obtain ⟨f, hf, hfe⟩ := List.mem_map.mp (hkeys e hmem)
        have hother : f ≠ "lock_root" := by
          intro heq
          rw [← hfe, heq] at hne
          simp at hne
        exact ⟨f, by simp at hf ⊢; tauto, hfe⟩
    rw [← hbody]
    exact hhash

theorem rootOf_compatibilityLock {data : Bytes} {root : Root}
    (h : rootOf reprFloat data .compatibilityLock = .ok root) :
    ∃ locks, data = lockText root locks ∧
      root.hex = hexText (Hash.keccak256Py (lockDomain ++ lockBody locks)) := by
  obtain ⟨document, hdocument, h⟩ := bind_eq_ok.mp h
  obtain ⟨bytes, hbytes, h⟩ := bind_eq_ok.mp h
  have hcanonical := (canonicalForm_eq_ok.mp hbytes).2
  have hverify := mapError_eq_ok.mp h
  have hwf : document.WF := by
    unfold documentOf at hdocument
    split at hdocument
    · cases hdocument
    · exact parseJson_wf (mapError_eq_ok.mp hdocument)
  cases document with
  | obj pairs =>
      obtain ⟨locks, htext, hroot⟩ := verifyLock_ok hwf hverify
      refine ⟨locks, ?_, hroot⟩
      rw [← htext]
      exact (canonicalBytes_eq_ok.mp hcanonical).2.2
  | _ => cases hcanonical

/-- **One root, one byte string.** Under every rule but that of manifests two byte strings with one
root are the same, and two manifests with one root have one body; otherwise a hash collided. -/
theorem rootOf_same {rule : HashRule} {data data' : Bytes} {root : Root}
    (h : rootOf reprFloat data rule = .ok root) (h' : rootOf reprFloat data' rule = .ok root) :
    (rule ≠ .compatibilityLock → ∃ hashed hashed', Hashes reprFloat rule data hashed ∧
        Hashes reprFloat rule data' hashed' ∧ (hashed = hashed' ∨ Collides sha256 hashed hashed')) ∧
      (rule = .compatibilityLock → data = data' ∨
        ∃ locks locks', data = lockText root locks ∧ data' = lockText root locks' ∧
          Collides Hash.keccak256Py (lockDomain ++ lockBody locks)
            (lockDomain ++ lockBody locks')) := by
  refine ⟨fun hrule => hashes_same hrule hrule h h', fun hrule => ?_⟩
  subst hrule
  obtain ⟨locks, hdata, hroot⟩ := rootOf_compatibilityLock h
  obtain ⟨locks', hdata', hroot'⟩ := rootOf_compatibilityLock h'
  rcases eq_or_collides (hexText_injective (hroot.symm.trans hroot')) with hsame | hcollides
  · rw [hdata, hdata']
    exact .inl (lockText_of_lockBody (List.append_cancel_left hsame) root)
  · exact .inr ⟨locks, locks', hdata, hdata', hcollides⟩

end Roots

end CoreTex.Publication
