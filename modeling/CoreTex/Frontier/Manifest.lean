import CoreTex.Lib.Except
import CoreTex.Lib.JsonParse
import CoreTex.Lib.Sha256

/-!
# CoreTex.Frontier.Manifest

Frontier manifests (`frontier.py`): canonical bytes, the field validators, the closed
seven-field schema and the frontier root.

A validator returns the record it has read, so what validates is a `Manifest`, whose roots
are well-formed and whose profile map is total. `validateManifest_sortKeys` says that a
document is the record it validates as, up to the order of its keys, and
`Manifest.bytes_injective` that the canonical bytes determine the record.
-/

namespace CoreTex

open CoreTex.Lib

/-! ### Identity constants -/

/-- `MANIFEST_FORMAT`. -/
def manifestFormat : String := "coretex.memory-frontier.v1"

/-- The closed set of frontier profiles. -/
inductive ProfileId
  | convPref
  | docTool
  | eventSchema
  deriving DecidableEq

/-- The profile's id. -/
def ProfileId.id : ProfileId → String
  | .convPref => "conv.pref.v1"
  | .docTool => "doc.tool.v1"
  | .eventSchema => "event.schema.v1"

/-- `PROFILE_IDS`, in their normative order. -/
def profileIds : List ProfileId := [.convPref, .docTool, .eventSchema]

@[simp] theorem mem_profileIds (p : ProfileId) : p ∈ profileIds := by
  cases p <;> simp [profileIds]

theorem ProfileId.id_injective {p q : ProfileId} (h : p.id = q.id) : p = q := by
  revert h
  cases p <;> cases q <;> decide

/-- `MANIFEST_FIELDS`. -/
def manifestFields : List String :=
  ["benchmark_law_root", "default_composition_root", "epoch", "format", "parent_frontier_root",
    "profiles", "runtime_abi_root"]

/-- `MAX_EPOCH`. -/
def maxEpoch : Nat := 2 ^ 64 - 1

/-- `_MAX_DEPTH`. -/
def maxDepth : Nat := 32

/-- The typed refusals of the frontier law, with the field or the family they name. -/
inductive FrontierError
  | canonicalization
  | schema (family : String)
  | type (field : String)
  | value (field : String)
  | unknownProfile (field : String)
  | duplicateKey
  | transitionSize
  | staleParent
  | noOpTransition
  | compositionUnchanged
  | rootMismatch
  | epochRegression
  deriving DecidableEq

/-! ### Canonical serialization -/

mutual

/-- `_check_value`. -/
def checkValue : Json → Nat → Except FrontierError Unit
  | .null, _ => .error .canonicalization
  | .float _, _ => .error .canonicalization
  | .arr items, depth => do
      refuseIf (depth > maxDepth) .canonicalization
      checkItems items (depth + 1)
  | .obj pairs, depth => do
      refuseIf (depth > maxDepth) .canonicalization
      checkPairs pairs (depth + 1)
  | _, depth => refuseIf (depth > maxDepth) .canonicalization

def checkItems : List Json → Nat → Except FrontierError Unit
  | [], _ => .ok ()
  | x :: xs, depth => do
      checkValue x depth
      checkItems xs depth

def checkPairs : List (PyStr × Json) → Nat → Except FrontierError Unit
  | [], _ => .ok ()
  | (_, x) :: xs, depth => do
      checkValue x depth
      checkPairs xs depth

end

/-- `canonical_bytes`. -/
def canonicalBytes (document : Json) : Except FrontierError Bytes :=
  match document with
  | .obj _ => do
      checkValue document 0
      .ok document.dumps
  | _ => .error .canonicalization

theorem checkPairs_eq_ok {pairs : List (PyStr × Json)} {depth : Nat} :
    checkPairs pairs depth = .ok () ↔ ∀ e ∈ pairs, checkValue e.2 depth = .ok () := by
  induction pairs with
  | nil => simp [checkPairs]
  | cons e pairs ih =>
      obtain ⟨k, x⟩ := e
      rw [checkPairs, bind_eq_ok, List.forall_mem_cons]
      constructor
      · intro ⟨(), hx, hrest⟩
        exact ⟨hx, ih.mp hrest⟩
      · intro ⟨hx, hrest⟩
        exact ⟨(), hx, ih.mpr hrest⟩

theorem checkItems_eq_ok {items : List Json} {depth : Nat} :
    checkItems items depth = .ok () ↔ ∀ x ∈ items, checkValue x depth = .ok () := by
  induction items with
  | nil => simp [checkItems]
  | cons x items ih =>
      rw [checkItems, bind_eq_ok, List.forall_mem_cons]
      constructor
      · intro ⟨(), hx, hrest⟩
        exact ⟨hx, ih.mp hrest⟩
      · intro ⟨hx, hrest⟩
        exact ⟨(), hx, ih.mpr hrest⟩

@[simp] theorem checkValue_bool {b : Bool} {depth : Nat} (h : depth ≤ maxDepth) :
    checkValue (.bool b) depth = .ok () := by
  simp [checkValue, h]

@[simp] theorem checkValue_str {s : PyStr} {depth : Nat} (h : depth ≤ maxDepth) :
    checkValue (.str s) depth = .ok () := by
  simp [checkValue, h]

@[simp] theorem checkValue_int {n : Int} {depth : Nat} (h : depth ≤ maxDepth) :
    checkValue (.int n) depth = .ok () := by
  simp [checkValue, h]

theorem checkValue_obj {pairs : List (PyStr × Json)} {depth : Nat} (h : depth ≤ maxDepth) :
    checkValue (.obj pairs) depth = .ok () ↔
      ∀ e ∈ pairs, checkValue e.2 (depth + 1) = .ok () := by
  rw [checkValue, refuseIf_bind_eq_ok, checkPairs_eq_ok]
  exact ⟨And.right, fun hall => ⟨Nat.not_lt.mpr h, hall⟩⟩

theorem checkValue_arr {items : List Json} {depth : Nat} (h : depth ≤ maxDepth) :
    checkValue (.arr items) depth = .ok () ↔ ∀ x ∈ items, checkValue x (depth + 1) = .ok () := by
  rw [checkValue, refuseIf_bind_eq_ok, checkItems_eq_ok]
  exact ⟨And.right, fun hall => ⟨Nat.not_lt.mpr h, hall⟩⟩

/-- `_reject_duplicates`. -/
def rejectDuplicates (pairs : List (PyStr × Json)) : Except FrontierError Json :=
  if (pairs.map Prod.fst).Nodup then .ok (.obj pairs) else .error .duplicateKey

/-- `parse_json`. -/
def parseJson (text : PyStr) : Except FrontierError Json :=
  loads rejectDuplicates (.schema "json") text

/-! ### Roots -/

/-- Is `c` a lower-case hex digit? -/
def isHexDigit (c : Nat) : Bool :=
  decide (48 ≤ c ∧ c ≤ 57 ∨ 97 ≤ c ∧ c ≤ 102)

/-- `ROOT_RE`: exactly 64 lower-case hex characters. -/
def isRoot (s : PyStr) : Bool :=
  decide (s.length = 64) && s.all isHexDigit

/-- A well-formed root. -/
structure Root where
  hex : PyStr
  wellFormed : isRoot hex = true

theorem Root.ext {r r' : Root} (h : r.hex = r'.hex) : r = r' := by
  cases r
  cases r'
  cases h
  rfl

instance : DecidableEq Root := fun r r' =>
  decidable_of_iff (r.hex = r'.hex) ⟨Root.ext, congrArg Root.hex⟩

@[simp] theorem Root.length_hex (r : Root) : r.hex.length = 64 :=
  of_decide_eq_true (Bool.and_eq_true_iff.mp r.wellFormed).1

theorem Root.isHexDigit_of_mem (r : Root) {c : Nat} (hc : c ∈ r.hex) : isHexDigit c = true :=
  List.all_eq_true.mp (Bool.and_eq_true_iff.mp r.wellFormed).2 c hc

/-- The root as a document value. -/
def Root.json (r : Root) : Json :=
  .str r.hex

theorem isHexDigit_hexDigit {n : Nat} (h : n < 16) : isHexDigit (hexDigit n).toNat = true := by
  have : ∀ m : Fin 16, isHexDigit (hexDigit m).toNat = true := by decide
  exact this ⟨n, h⟩

/-- The lower-case hex text of a byte string, `bytes.hex()`. -/
def hexText (bytes : Bytes) : PyStr :=
  (hexChars bytes).map Char.toNat

theorem hexText_injective {a b : Bytes} (h : hexText a = hexText b) : a = b :=
  hexChars_injective (List.map_injective_iff.mpr (fun _ _ hcd => Char.toNat_inj.mp hcd) h)

theorem isRoot_hexText {bytes : Bytes} (h : bytes.length = 32) : isRoot (hexText bytes) = true := by
  have hlen : (hexText bytes).length = 64 := by
    rw [hexText, List.length_map, length_hexChars, h]
  have hall : (hexText bytes).all isHexDigit = true := by
    rw [List.all_eq_true]
    intro c hc
    obtain ⟨d, hd, rfl⟩ := List.mem_map.mp hc
    obtain ⟨b, _, hd⟩ := List.mem_flatMap.mp hd
    have hb : b.toNat < 256 := b.toNat_lt
    simp only [hexByte, List.mem_cons, List.not_mem_nil, or_false] at hd
    rcases hd with rfl | rfl
    · exact isHexDigit_hexDigit (by omega)
    · exact isHexDigit_hexDigit (by omega)
  rw [isRoot, hall, hlen]
  rfl

/-- `sha256_hex`. -/
def sha256Hex (data : Bytes) : Root where
  hex := hexText (sha256 data)
  wellFormed := isRoot_hexText (length_sha256 data)

theorem sha256_eq_of_sha256Hex {a b : Bytes} (h : sha256Hex a = sha256Hex b) :
    sha256 a = sha256 b :=
  hexText_injective (congrArg Root.hex h)

/-! ### Field validators -/

/-- `check_root`. The prefix, the length and the case have messages of their own, and one
class. -/
def checkRoot (value : Json) (field : String) : Except FrontierError Root :=
  match value with
  | .str s => if h : isRoot s = true then .ok ⟨s, h⟩ else .error (.value field)
  | _ => .error (.type field)

theorem checkRoot_eq_ok {value : Json} {field : String} {r : Root} :
    checkRoot value field = .ok r ↔ value = r.json := by
  constructor
  · intro h
    cases value with
    | str s =>
        by_cases hs : isRoot s = true
        · rw [checkRoot, dif_pos hs] at h
          cases h
          rfl
        · rw [checkRoot, dif_neg hs] at h
          exact nomatch h
    | _ => nomatch h
  · intro h
    subst h
    rw [Root.json, checkRoot, dif_pos r.wellFormed]

/-- The profile an id names. -/
def profileOf (s : PyStr) : Option ProfileId :=
  profileIds.find? fun p => py p.id = s

theorem profileOf_eq_some {s : PyStr} {p : ProfileId} : profileOf s = some p ↔ py p.id = s := by
  constructor
  · intro h
    rw [profileOf] at h
    have hp := List.find?_some h
    exact of_decide_eq_true hp
  · intro h
    subst h
    cases p <;> decide +kernel

/-- `check_profile_id`. -/
def checkProfileId (value : Json) (field : String) : Except FrontierError ProfileId :=
  match value with
  | .str s =>
      match profileOf s with
      | some p => .ok p
      | none => .error (.unknownProfile field)
  | _ => .error (.type field)

theorem checkProfileId_eq_ok {value : Json} {field : String} {p : ProfileId} :
    checkProfileId value field = .ok p ↔ value = .str (py p.id) := by
  constructor
  · intro h
    cases value with
    | str s =>
        cases hp : profileOf s with
        | none => simp [checkProfileId, hp] at h
        | some q =>
            rw [checkProfileId, hp] at h
            cases h
            rw [profileOf_eq_some.mp hp]
    | _ => nomatch h
  · intro h
    subst h
    rw [checkProfileId, profileOf_eq_some.mpr rfl]

/-- `check_epoch`. A boolean is not an integer here. -/
def checkEpoch (value : Json) (field : String) : Except FrontierError UInt64 :=
  match value with
  | .int n =>
      if 0 ≤ n ∧ n ≤ maxEpoch then .ok (UInt64.ofNat n.toNat) else .error (.value field)
  | _ => .error (.type field)

/-- An epoch as a document value. -/
def epochJson (epoch : UInt64) : Json :=
  .int epoch.toNat

theorem epochJson_injective {e e' : UInt64} (h : epochJson e = epochJson e') : e = e' := by
  rw [epochJson, epochJson, Json.int.injEq] at h
  exact UInt64.toNat_inj.mp (Int.ofNat_inj.mp h)

theorem checkEpoch_eq_ok {value : Json} {field : String} {epoch : UInt64} :
    checkEpoch value field = .ok epoch ↔ value = epochJson epoch := by
  have hmax : maxEpoch = 2 ^ 64 - 1 := rfl
  constructor
  · intro h
    cases value with
    | int n =>
        by_cases hn : 0 ≤ n ∧ n ≤ maxEpoch
        · rw [checkEpoch, if_pos hn] at h
          cases h
          rw [epochJson, UInt64.toNat_ofNat', Json.int.injEq]
          omega
        · rw [checkEpoch, if_neg hn] at h
          exact nomatch h
    | _ => nomatch h
  · intro h
    subst h
    have hlt := epoch.toNat_lt
    rw [epochJson, checkEpoch, if_pos (by omega), Int.toNat_natCast, UInt64.ofNat_toNat]

/-- `_check_closed_fields`: an object with these keys and no others. -/
def checkClosedFields (document : Json) (fields : List String) (family : String) :
    Except FrontierError (List (PyStr × Json)) :=
  match document with
  | .obj pairs => do
      refuseIf (∃ f ∈ fields, (lookup pairs (py f)).isNone) (.schema family)
      refuseIf (∃ e ∈ pairs, e.1 ∉ fields.map py) (.schema family)
      .ok pairs
  | _ => .error (.schema family)

theorem checkClosedFields_eq_ok {document : Json} {fields : List String} {family : String}
    {pairs : List (PyStr × Json)} :
    checkClosedFields document fields family = .ok pairs ↔
      document = .obj pairs ∧ (∀ f ∈ fields, (lookup pairs (py f)).isSome) ∧
        ∀ e ∈ pairs, e.1 ∈ fields.map py := by
  cases document with
  | obj doc =>
      rw [checkClosedFields, refuseIf_bind_eq_ok, refuseIf_bind_eq_ok]
      simp only [not_exists, not_and, Except.ok.injEq, Json.obj.injEq, Decidable.not_not,
        Option.isNone_iff_eq_none, ← ne_eq, ← Option.isSome_iff_ne_none]
      constructor
      · intro ⟨hall, honly, heq⟩
        subst heq
        exact ⟨rfl, hall, honly⟩
      · intro ⟨heq, hall, honly⟩
        subst heq
        exact ⟨hall, honly, rfl⟩
  | _ => exact ⟨fun h => (nomatch h), fun h => (nomatch h.1)⟩

/-! ### Manifests -/

instance {α : Type} [DecidableEq α] : DecidableEq (ProfileId → α) := fun f g =>
  decidable_of_iff (f .convPref = g .convPref ∧ f .docTool = g .docTool ∧
      f .eventSchema = g .eventSchema)
    ⟨fun ⟨hconv, hdoc, hevent⟩ => funext fun p => by cases p <;> assumption,
      fun h => ⟨congrFun h _, congrFun h _, congrFun h _⟩⟩

/-- A valid frontier manifest. -/
structure Manifest where
  benchmarkLawRoot : Root
  defaultCompositionRoot : Root
  epoch : UInt64
  parentFrontierRoot : Root
  profiles : ProfileId → Root
  runtimeAbiRoot : Root

theorem Manifest.ext {m m' : Manifest} (hlaw : m.benchmarkLawRoot = m'.benchmarkLawRoot)
    (hcomposition : m.defaultCompositionRoot = m'.defaultCompositionRoot)
    (hepoch : m.epoch = m'.epoch) (hparent : m.parentFrontierRoot = m'.parentFrontierRoot)
    (hprofiles : m.profiles = m'.profiles) (habi : m.runtimeAbiRoot = m'.runtimeAbiRoot) :
    m = m' := by
  cases m
  cases m'
  cases hlaw
  cases hcomposition
  cases hepoch
  cases hparent
  cases hprofiles
  cases habi
  rfl

instance : DecidableEq Manifest := fun m m' =>
  decidable_of_iff (m.benchmarkLawRoot = m'.benchmarkLawRoot ∧
      m.defaultCompositionRoot = m'.defaultCompositionRoot ∧ m.epoch = m'.epoch ∧
      m.parentFrontierRoot = m'.parentFrontierRoot ∧ m.profiles = m'.profiles ∧
      m.runtimeAbiRoot = m'.runtimeAbiRoot)
    ⟨fun ⟨hlaw, hcomposition, hepoch, hparent, hprofiles, habi⟩ =>
        Manifest.ext hlaw hcomposition hepoch hparent hprofiles habi,
      fun h => h ▸ ⟨rfl, rfl, rfl, rfl, rfl, rfl⟩⟩

/-- The profile map as a document. -/
def profilesJson (profiles : ProfileId → Root) : Json :=
  .obj (profileIds.map fun p => (py p.id, (profiles p).json))

/-- The manifest as a document. -/
def Manifest.json (m : Manifest) : Json :=
  .obj [
    (py "benchmark_law_root", m.benchmarkLawRoot.json),
    (py "default_composition_root", m.defaultCompositionRoot.json),
    (py "epoch", epochJson m.epoch),
    (py "format", .str (py manifestFormat)),
    (py "parent_frontier_root", m.parentFrontierRoot.json),
    (py "profiles", profilesJson m.profiles),
    (py "runtime_abi_root", m.runtimeAbiRoot.json)]

/-- The profile block of `validate_manifest`. -/
def checkProfiles (profiles : Json) : Except FrontierError (ProfileId → Root) :=
  match profiles with
  | .obj pairs => do
      refuseIf (∃ e ∈ pairs, profileOf e.1 = none) (.unknownProfile "profiles key")
      refuseIf (∃ p ∈ profileIds, (lookup pairs (py p.id)).isNone) (.schema "profiles")
      let convPref ← checkRoot (field pairs "conv.pref.v1") "profiles['conv.pref.v1']"
      let docTool ← checkRoot (field pairs "doc.tool.v1") "profiles['doc.tool.v1']"
      let eventSchema ← checkRoot (field pairs "event.schema.v1") "profiles['event.schema.v1']"
      .ok fun
        | .convPref => convPref
        | .docTool => docTool
        | .eventSchema => eventSchema
  | _ => .error (.type "profiles")

/-- `validate_manifest`, with the record it has read. -/
def validateManifest (manifest : Json) : Except FrontierError Manifest := do
  let doc ← checkClosedFields manifest manifestFields manifestFormat
  refuseIf ((field doc "format").isStr manifestFormat = false) (.schema manifestFormat)
  let epoch ← checkEpoch (field doc "epoch") "epoch"
  let benchmarkLawRoot ← checkRoot (field doc "benchmark_law_root") "benchmark_law_root"
  let runtimeAbiRoot ← checkRoot (field doc "runtime_abi_root") "runtime_abi_root"
  let defaultCompositionRoot ←
    checkRoot (field doc "default_composition_root") "default_composition_root"
  let parentFrontierRoot ← checkRoot (field doc "parent_frontier_root") "parent_frontier_root"
  let profiles ← checkProfiles (field doc "profiles")
  .ok {
    benchmarkLawRoot := benchmarkLawRoot
    defaultCompositionRoot := defaultCompositionRoot
    epoch := epoch
    parentFrontierRoot := parentFrontierRoot
    profiles := profiles
    runtimeAbiRoot := runtimeAbiRoot }

/-- `frontier_root`. -/
def frontierRoot (manifest : Json) : Except FrontierError Root := do
  let _ ← validateManifest manifest
  let bytes ← canonicalBytes manifest
  .ok (sha256Hex bytes)

/-- `new_manifest`. -/
def newManifest (m : Manifest) : Except FrontierError Manifest :=
  validateManifest m.json

/-! ### What validates -/

theorem checkProfiles_eq_ok {value : Json} {profiles : ProfileId → Root} :
    checkProfiles value = .ok profiles ↔
      ∃ pairs, value = .obj pairs ∧ (∀ e ∈ pairs, ∃ p, profileOf e.1 = some p) ∧
        ∀ p, lookup pairs (py p.id) = some (profiles p).json := by
  constructor
  · intro h
    cases value with
    | obj pairs =>
        rw [checkProfiles, refuseIf_bind_eq_ok, refuseIf_bind_eq_ok] at h
        obtain ⟨hkeys, hall, h⟩ := h
        obtain ⟨convPref, hconv, h⟩ := bind_eq_ok.mp h
        obtain ⟨docTool, hdoc, h⟩ := bind_eq_ok.mp h
        obtain ⟨eventSchema, hevent, h⟩ := bind_eq_ok.mp h
        cases h
        rw [checkRoot_eq_ok, field] at hconv hdoc hevent
        have hsome : ∀ p : ProfileId, ∃ x, lookup pairs (py p.id) = some x := by
          intro p
          cases hx : lookup pairs (py p.id) with
          | none => exact absurd ⟨p, mem_profileIds p, by rw [hx]; rfl⟩ hall
          | some x => exact ⟨x, rfl⟩
        refine ⟨pairs, rfl, fun e he => ?_, fun p => ?_⟩
        · cases hp : profileOf e.1 with
          | none => exact absurd ⟨e, he, hp⟩ hkeys
          | some p => exact ⟨p, rfl⟩
        · obtain ⟨x, hx⟩ := hsome p
          rw [hx]
          cases p with
          | convPref => exact congrArg some ((congrArg (·.getD .null) hx).symm.trans hconv)
          | docTool => exact congrArg some ((congrArg (·.getD .null) hx).symm.trans hdoc)
          | eventSchema => exact congrArg some ((congrArg (·.getD .null) hx).symm.trans hevent)
    | _ => cases h
  · rintro ⟨pairs, heq, hkeys, hall⟩
    subst heq
    have hroot : ∀ (p : ProfileId) (path : String),
        checkRoot (field pairs p.id) path = .ok (profiles p) := by
      intro p path
      rw [checkRoot_eq_ok, field, hall p, Option.getD_some]
    rw [checkProfiles, refuseIf_bind_eq_ok, refuseIf_bind_eq_ok]
    refine ⟨?_, ?_, ?_⟩
    · rintro ⟨e, he, hnone⟩
      obtain ⟨p, hp⟩ := hkeys e he
      rw [hnone] at hp
      cases hp
    · rintro ⟨p, _, hnone⟩
      rw [hall p] at hnone
      cases hnone
    · refine bind_eq_ok.mpr ⟨_, hroot .convPref _, bind_eq_ok.mpr ⟨_, hroot .docTool _,
        bind_eq_ok.mpr ⟨_, hroot .eventSchema _, congrArg Except.ok ?_⟩⟩⟩
      funext p
      cases p <;> rfl

/-- The object `doc` is the manifest `m`: it has the closed set of fields, and each holds
the record's value. -/
structure Manifest.Reads (doc : List (PyStr × Json)) (m : Manifest) : Prop where
  required : ∀ f ∈ manifestFields, (lookup doc (py f)).isSome
  closed : ∀ e ∈ doc, e.1 ∈ manifestFields.map py
  format : field doc "format" = .str (py manifestFormat)
  epoch : field doc "epoch" = epochJson m.epoch
  benchmarkLawRoot : field doc "benchmark_law_root" = m.benchmarkLawRoot.json
  runtimeAbiRoot : field doc "runtime_abi_root" = m.runtimeAbiRoot.json
  defaultCompositionRoot : field doc "default_composition_root" = m.defaultCompositionRoot.json
  parentFrontierRoot : field doc "parent_frontier_root" = m.parentFrontierRoot.json
  profiles : checkProfiles (field doc "profiles") = .ok m.profiles

theorem validateManifest_eq_ok {manifest : Json} {m : Manifest} :
    validateManifest manifest = .ok m ↔ ∃ doc, manifest = .obj doc ∧ Manifest.Reads doc m := by
  constructor
  · intro h
    rw [validateManifest, bind_eq_ok] at h
    obtain ⟨doc, hdoc, h⟩ := h
    obtain ⟨rfl, required, closed⟩ := checkClosedFields_eq_ok.mp hdoc
    obtain ⟨format, h⟩ := refuseIf_bind_eq_ok.mp h
    obtain ⟨epoch, hepoch, h⟩ := bind_eq_ok.mp h
    obtain ⟨benchmarkLawRoot, hlaw, h⟩ := bind_eq_ok.mp h
    obtain ⟨runtimeAbiRoot, habi, h⟩ := bind_eq_ok.mp h
    obtain ⟨defaultCompositionRoot, hcomposition, h⟩ := bind_eq_ok.mp h
    obtain ⟨parentFrontierRoot, hparent, h⟩ := bind_eq_ok.mp h
    obtain ⟨profiles, hprofiles, h⟩ := bind_eq_ok.mp h
    cases h
    rw [Bool.not_eq_false, Json.isStr_iff] at format
    exact ⟨doc, rfl, required, closed, format, checkEpoch_eq_ok.mp hepoch,
      checkRoot_eq_ok.mp hlaw, checkRoot_eq_ok.mp habi, checkRoot_eq_ok.mp hcomposition,
      checkRoot_eq_ok.mp hparent, hprofiles⟩
  · intro ⟨doc, heq, h⟩
    subst heq
    refine bind_eq_ok.mpr ⟨doc, checkClosedFields_eq_ok.mpr ⟨rfl, h.required, h.closed⟩, ?_⟩
    refine refuseIf_bind_eq_ok.mpr ⟨?_, ?_⟩
    · rw [Bool.not_eq_false, Json.isStr_iff, h.format]
    · exact bind_eq_ok.mpr ⟨_, checkEpoch_eq_ok.mpr h.epoch,
        bind_eq_ok.mpr ⟨_, checkRoot_eq_ok.mpr h.benchmarkLawRoot,
        bind_eq_ok.mpr ⟨_, checkRoot_eq_ok.mpr h.runtimeAbiRoot,
        bind_eq_ok.mpr ⟨_, checkRoot_eq_ok.mpr h.defaultCompositionRoot,
        bind_eq_ok.mpr ⟨_, checkRoot_eq_ok.mpr h.parentFrontierRoot,
        bind_eq_ok.mpr ⟨_, h.profiles, rfl⟩⟩⟩⟩⟩⟩

theorem checkProfiles_profilesJson (profiles : ProfileId → Root) :
    checkProfiles (profilesJson profiles) = .ok profiles := by
  refine checkProfiles_eq_ok.mpr ⟨_, rfl, ?_, ?_⟩
  · intro e he
    obtain ⟨p, _, rfl⟩ := List.mem_map.mp he
    exact ⟨p, profileOf_eq_some.mpr rfl⟩
  · intro p
    refine lookup_of_mem ?_ (List.mem_map_of_mem (mem_profileIds p))
    rw [List.map_map]
    exact List.Nodup.map (fun a b hab => ProfileId.id_injective (py_injective hab)) (by decide)

/-- The document of a record validates as the record. -/
theorem validateManifest_json (m : Manifest) : validateManifest m.json = .ok m := by
  refine validateManifest_eq_ok.mpr ⟨_, rfl, ?_⟩
  constructor
  case profiles =>
    have hfield : field [
        (py "benchmark_law_root", m.benchmarkLawRoot.json),
        (py "default_composition_root", m.defaultCompositionRoot.json),
        (py "epoch", epochJson m.epoch),
        (py "format", .str (py manifestFormat)),
        (py "parent_frontier_root", m.parentFrontierRoot.json),
        (py "profiles", profilesJson m.profiles),
        (py "runtime_abi_root", m.runtimeAbiRoot.json)] "profiles" = profilesJson m.profiles := by
      simp [field, lookup]
    rw [hfield, checkProfiles_profilesJson]
  all_goals simp [field, lookup, manifestFields]

@[simp] theorem newManifest_eq_ok (m : Manifest) : newManifest m = .ok m :=
  validateManifest_json m

end CoreTex
