import CoreTex.Frontier.ManifestRoot
import Mathlib.Logic.Function.Basic

/-!
# CoreTex.Frontier.Transition

One-profile transitions (`frontier.py`): the closed transition document, its application
to a parent manifest and the public replay check.

`applyTransition_eq_ok` says when an application succeeds and what it returns: the edit
moves the release and the composition, names the parent's current release, does not
regress the epoch, and adopts well-formed pins.
-/

namespace CoreTex

open CoreTex.Lib

/-- `TRANSITION_FORMAT`. -/
def transitionFormat : String := "coretex.memory-frontier-transition.v1"

/-- `TRANSITION_FIELDS`. -/
def transitionFields : List String :=
  ["expected_prior_release_root", "format", "new_release_root", "resulting_composition_root",
    "target_profile"]

/-- `MAX_TRANSITION_BYTES`. -/
def maxTransitionBytes : Nat := 384

/-! ### Transition documents -/

/-- The values of a transition document. -/
structure Transition where
  expectedPriorReleaseRoot : Root
  newReleaseRoot : Root
  resultingCompositionRoot : Root
  targetProfile : ProfileId
  deriving DecidableEq

/-- The members of a transition document. -/
def Transition.members (t : Transition) : List (PyStr × Json) := [
  (py "expected_prior_release_root", t.expectedPriorReleaseRoot.json),
  (py "format", .str (py transitionFormat)),
  (py "new_release_root", t.newReleaseRoot.json),
  (py "resulting_composition_root", t.resultingCompositionRoot.json),
  (py "target_profile", .str (py t.targetProfile.id))]

/-- The transition as a document. -/
def Transition.json (t : Transition) : Json :=
  .obj t.members

/-- `validate_transition`, with the record it has read. -/
def validateTransition (transition : Json) : Except FrontierError Transition := do
  let doc ← checkClosedFields transition transitionFields transitionFormat
  refuseIf ((field doc "format").isStr transitionFormat = false) (.schema transitionFormat)
  let targetProfile ← checkProfileId (field doc "target_profile") "target_profile"
  let expectedPriorReleaseRoot ←
    checkRoot (field doc "expected_prior_release_root") "expected_prior_release_root"
  let newReleaseRoot ← checkRoot (field doc "new_release_root") "new_release_root"
  let resultingCompositionRoot ←
    checkRoot (field doc "resulting_composition_root") "resulting_composition_root"
  refuseIf (newReleaseRoot = expectedPriorReleaseRoot) .noOpTransition
  let bytes ← canonicalBytes transition
  refuseIf (bytes.length > maxTransitionBytes) .transitionSize
  .ok {
    expectedPriorReleaseRoot := expectedPriorReleaseRoot
    newReleaseRoot := newReleaseRoot
    resultingCompositionRoot := resultingCompositionRoot
    targetProfile := targetProfile }

/-- `transition_hash`. -/
def transitionHash (transition : Json) : Except FrontierError Root := do
  let _ ← validateTransition transition
  let bytes ← canonicalBytes transition
  .ok (sha256Hex bytes)

/-! ### The state transition -/

/-- `_adopt_or_carry`: a confirmed epoch pin when one is supplied, else the parent's. -/
def adoptOrCarry (carried : Root) (epochPins : Json) (pin : String) : Except FrontierError Root :=
  match epochPins with
  | .obj pairs =>
      match lookup pairs (py pin) with
      | some (.str s) =>
          if s = [] then .ok carried else checkRoot (.str s) ("epoch pin " ++ pin)
      | _ => .ok carried
  | _ => .ok carried

/-- `apply_transition`. An omitted `epoch` or `epoch_pins` is `null`. -/
def applyTransition (manifest transition epoch epochPins : Json) :
    Except FrontierError Manifest := do
  let parent ← validateManifest manifest
  let edit ← validateTransition transition
  let childEpoch ← (match epoch with
    | .null => .ok parent.epoch
    | value => checkEpoch value "epoch")
  refuseIf (childEpoch < parent.epoch) .epochRegression
  refuseIf (edit.expectedPriorReleaseRoot ≠ parent.profiles edit.targetProfile) .staleParent
  refuseIf (edit.resultingCompositionRoot = parent.defaultCompositionRoot) .compositionUnchanged
  let parentFrontierRoot ← frontierRoot manifest
  let benchmarkLawRoot ← adoptOrCarry parent.benchmarkLawRoot epochPins "benchmark_law_root"
  let runtimeAbiRoot ← adoptOrCarry parent.runtimeAbiRoot epochPins "runtime_abi_root"
  newManifest {
    benchmarkLawRoot := benchmarkLawRoot
    defaultCompositionRoot := edit.resultingCompositionRoot
    epoch := childEpoch
    parentFrontierRoot := parentFrontierRoot
    profiles := Function.update parent.profiles edit.targetProfile edit.newReleaseRoot
    runtimeAbiRoot := runtimeAbiRoot }

/-- What `verify_transition` returns. -/
structure VerifiedTransition where
  parentRoot : Root
  newRoot : Root
  newManifest : Manifest
  transitionHash : Root
  targetProfile : ProfileId
  epoch : UInt64
  crossedEpoch : Bool

/-- `verify_transition`. -/
def verifyTransition (parentManifest transition claimedNewRoot epoch epochPins : Json) :
    Except FrontierError VerifiedTransition := do
  let claimed ← checkRoot claimedNewRoot "claimed_new_root"
  let parent ← validateManifest parentManifest
  let parentRoot ← frontierRoot parentManifest
  let child ← applyTransition parentManifest transition epoch epochPins
  let computed ← frontierRoot child.json
  refuseIf (computed ≠ claimed) .rootMismatch
  let edit ← validateTransition transition
  let hash ← transitionHash transition
  .ok {
    parentRoot := parentRoot
    newRoot := computed
    newManifest := child
    transitionHash := hash
    targetProfile := edit.targetProfile
    epoch := child.epoch
    crossedEpoch := child.epoch ≠ parent.epoch }

/-! ### When a transition validates -/

/-- The object `doc` is the transition `t`. -/
structure Transition.Reads (doc : List (PyStr × Json)) (t : Transition) : Prop where
  required : ∀ f ∈ transitionFields, (lookup doc (py f)).isSome
  closed : ∀ e ∈ doc, e.1 ∈ transitionFields.map py
  format : field doc "format" = .str (py transitionFormat)
  targetProfile : field doc "target_profile" = .str (py t.targetProfile.id)
  expectedPriorReleaseRoot :
    field doc "expected_prior_release_root" = t.expectedPriorReleaseRoot.json
  newReleaseRoot : field doc "new_release_root" = t.newReleaseRoot.json
  resultingCompositionRoot :
    field doc "resulting_composition_root" = t.resultingCompositionRoot.json
  moves : t.newReleaseRoot ≠ t.expectedPriorReleaseRoot

theorem validateTransition_eq_ok {transition : Json} {t : Transition} :
    validateTransition transition = .ok t ↔
      (∃ doc, transition = .obj doc ∧ Transition.Reads doc t) ∧
        ∃ bytes, canonicalBytes transition = .ok bytes ∧ bytes.length ≤ maxTransitionBytes := by
  constructor
  · intro h
    rw [validateTransition, bind_eq_ok] at h
    obtain ⟨doc, hdoc, h⟩ := h
    obtain ⟨heq, required, closed⟩ := checkClosedFields_eq_ok.mp hdoc
    obtain ⟨format, h⟩ := refuseIf_bind_eq_ok.mp h
    obtain ⟨targetProfile, hprofile, h⟩ := bind_eq_ok.mp h
    obtain ⟨prior, hprior, h⟩ := bind_eq_ok.mp h
    obtain ⟨new, hnew, h⟩ := bind_eq_ok.mp h
    obtain ⟨composition, hcomposition, h⟩ := bind_eq_ok.mp h
    obtain ⟨moves, h⟩ := refuseIf_bind_eq_ok.mp h
    obtain ⟨bytes, hbytes, h⟩ := bind_eq_ok.mp h
    obtain ⟨hsize, h⟩ := refuseIf_bind_eq_ok.mp h
    cases h
    rw [Bool.not_eq_false, Json.isStr_iff] at format
    exact ⟨⟨doc, heq, required, closed, format, checkProfileId_eq_ok.mp hprofile,
      checkRoot_eq_ok.mp hprior, checkRoot_eq_ok.mp hnew, checkRoot_eq_ok.mp hcomposition,
      moves⟩, bytes, hbytes, Nat.not_lt.mp hsize⟩
  · intro ⟨⟨doc, heq, h⟩, bytes, hbytes, hsize⟩
    refine bind_eq_ok.mpr ⟨doc, checkClosedFields_eq_ok.mpr ⟨heq, h.required, h.closed⟩, ?_⟩
    refine refuseIf_bind_eq_ok.mpr ⟨?_, ?_⟩
    · rw [Bool.not_eq_false, Json.isStr_iff, h.format]
    · exact bind_eq_ok.mpr ⟨_, checkProfileId_eq_ok.mpr h.targetProfile,
        bind_eq_ok.mpr ⟨_, checkRoot_eq_ok.mpr h.expectedPriorReleaseRoot,
        bind_eq_ok.mpr ⟨_, checkRoot_eq_ok.mpr h.newReleaseRoot,
        bind_eq_ok.mpr ⟨_, checkRoot_eq_ok.mpr h.resultingCompositionRoot,
        refuseIf_bind_eq_ok.mpr ⟨h.moves, bind_eq_ok.mpr ⟨bytes, hbytes,
        refuseIf_bind_eq_ok.mpr ⟨Nat.not_lt.mpr hsize, rfl⟩⟩⟩⟩⟩⟩⟩

theorem Root.length_ser_json (r : Root) : r.json.ser.length = 66 := by
  simp [Root.ser_json]

/-- The size bound never bites: the widest profile id makes 364 bytes. -/
theorem Transition.length_dumps (t : Transition) : t.json.dumps.length ≤ maxTransitionBytes := by
  have hfields : t.members = transitionFields.map fun f => (py f, field t.members f) := by
    simp [transitionFields, Transition.members, field, lookup]
  have hvalues : sortKeysPairs t.members = t.members := rfl
  have hsort : t.json.sortKeys = t.json := by
    have hascending : Ascending transitionFields := by decide +kernel
    rw [Transition.json, Json.sortKeys, hvalues, hfields, sortPairs_of_ascending hascending]
  have hprior : (serString (py "expected_prior_release_root")).length = 29 := by decide +kernel
  have hformat : (serString (py "format")).length = 8 := by decide +kernel
  have hfamily : (serString (py transitionFormat)).length = 39 := by decide +kernel
  have hnew : (serString (py "new_release_root")).length = 18 := by decide +kernel
  have hcomposition : (serString (py "resulting_composition_root")).length = 28 := by
    decide +kernel
  have htarget : (serString (py "target_profile")).length = 16 := by decide +kernel
  have hid : ∀ p : ProfileId, (serString (py p.id)).length ≤ 17 := by
    intro p
    cases p <;> decide +kernel
  have := hid t.targetProfile
  rw [Json.dumps, hsort]
  simp only [Transition.json, Transition.members, Json.ser, serPairs, List.length_append,
    List.length_singleton, Root.length_ser_json, hprior, hformat, hfamily, hnew, hcomposition,
    htarget, maxTransitionBytes]
  omega

theorem Transition.canonicalBytes_json (t : Transition) :
    canonicalBytes t.json = .ok t.json.dumps := by
  refine bind_eq_ok.mpr ⟨(), (checkValue_obj (by decide)).mpr fun e he => ?_, rfl⟩
  simp only [Transition.members, List.mem_cons, List.not_mem_nil, or_false] at he
  rcases he with rfl | rfl | rfl | rfl | rfl
  all_goals exact checkValue_str (by decide)

theorem Transition.field_members {t : Transition} {key : String} {value : Json}
    (h : (py key, value) ∈ t.members) : field t.members key = value := by
  have hnodup : (t.members.map Prod.fst).Nodup := by
    have : (transitionFields.map py).Nodup := by decide +kernel
    exact this
  rw [field, lookup_of_mem hnodup h, Option.getD_some]

theorem Root.json_injective {r r' : Root} (h : r.json = r'.json) : r = r' := by
  rw [Root.json, Root.json, Json.str.injEq] at h
  exact Root.ext h

/-- A transition document validates exactly when it moves the release. -/
theorem validateTransition_json {t t' : Transition} :
    validateTransition t.json = .ok t' ↔
      t.newReleaseRoot ≠ t.expectedPriorReleaseRoot ∧ t' = t := by
  have hprior : field t.members "expected_prior_release_root" = t.expectedPriorReleaseRoot.json :=
    Transition.field_members (by simp [Transition.members])
  have hnew : field t.members "new_release_root" = t.newReleaseRoot.json :=
    Transition.field_members (by simp [Transition.members])
  have hcomposition :
      field t.members "resulting_composition_root" = t.resultingCompositionRoot.json :=
    Transition.field_members (by simp [Transition.members])
  have htarget : field t.members "target_profile" = .str (py t.targetProfile.id) :=
    Transition.field_members (by simp [Transition.members])
  constructor
  · intro h
    obtain ⟨⟨doc, heq, hreads⟩, -⟩ := validateTransition_eq_ok.mp h
    cases heq
    have h₁ := Root.json_injective (hprior.symm.trans hreads.expectedPriorReleaseRoot)
    have h₂ := Root.json_injective (hnew.symm.trans hreads.newReleaseRoot)
    have h₃ := Root.json_injective (hcomposition.symm.trans hreads.resultingCompositionRoot)
    have h₄ : t.targetProfile = t'.targetProfile := by
      have := htarget.symm.trans hreads.targetProfile
      rw [Json.str.injEq, py_inj] at this
      exact ProfileId.id_injective this
    have hmoves := hreads.moves
    cases t
    cases t'
    cases h₁
    cases h₂
    cases h₃
    cases h₄
    exact ⟨hmoves, rfl⟩
  · intro ⟨hmoves, heq⟩
    subst heq
    refine validateTransition_eq_ok.mpr ⟨⟨t'.members, rfl, ?_⟩, _, t'.canonicalBytes_json,
      t'.length_dumps⟩
    refine ⟨?_, ?_, ?_, htarget, hprior, hnew, hcomposition, hmoves⟩
    · simp [transitionFields, Transition.members, lookup]
    · simp [transitionFields, Transition.members]
    · exact Transition.field_members (by simp [Transition.members])

/-! ### When a transition applies -/

/-- The child that an edit of a parent names, under the law pins it adopts. -/
def Manifest.child (parent : Manifest) (parentRoot : Root) (epoch : UInt64) (edit : Transition)
    (benchmarkLawRoot runtimeAbiRoot : Root) : Manifest where
  benchmarkLawRoot := benchmarkLawRoot
  defaultCompositionRoot := edit.resultingCompositionRoot
  epoch := epoch
  parentFrontierRoot := parentRoot
  profiles := Function.update parent.profiles edit.targetProfile edit.newReleaseRoot
  runtimeAbiRoot := runtimeAbiRoot

/-- When an application at an explicit epoch succeeds, and its result. -/
theorem applyTransition_eq_ok {manifest : Json} (hwf : manifest.WF) {parent : Manifest}
    (hparent : validateManifest manifest = .ok parent) {t : Transition} {epoch : UInt64}
    {epochPins : Json} {child : Manifest} :
    applyTransition manifest t.json (epochJson epoch) epochPins = .ok child ↔
      t.newReleaseRoot ≠ t.expectedPriorReleaseRoot ∧ parent.epoch ≤ epoch ∧
      t.expectedPriorReleaseRoot = parent.profiles t.targetProfile ∧
      t.resultingCompositionRoot ≠ parent.defaultCompositionRoot ∧
      ∃ law abi, adoptOrCarry parent.benchmarkLawRoot epochPins "benchmark_law_root" = .ok law ∧
        adoptOrCarry parent.runtimeAbiRoot epochPins "runtime_abi_root" = .ok abi ∧
        child = parent.child (sha256Hex parent.bytes) epoch t law abi := by
  have hepoch : checkEpoch (epochJson epoch) "epoch" = .ok epoch := checkEpoch_eq_ok.mpr rfl
  have hroot := frontierRoot_of_validateManifest hwf hparent
  rw [applyTransition, hparent, ok_bind]
  constructor
  · intro h
    rw [bind_eq_ok] at h
    obtain ⟨edit, hedit, h⟩ := h
    obtain ⟨hmoves, heq⟩ := validateTransition_json.mp hedit
    subst heq
    obtain ⟨childEpoch, hchild, h⟩ := bind_eq_ok.mp h
    cases hepoch.symm.trans hchild
    obtain ⟨hregress, h⟩ := refuseIf_bind_eq_ok.mp h
    obtain ⟨hstale, h⟩ := refuseIf_bind_eq_ok.mp h
    obtain ⟨hcomposition, h⟩ := refuseIf_bind_eq_ok.mp h
    rw [hroot, ok_bind] at h
    obtain ⟨law, hlaw, h⟩ := bind_eq_ok.mp h
    obtain ⟨abi, habi, h⟩ := bind_eq_ok.mp h
    rw [newManifest_eq_ok] at h
    cases h
    exact ⟨hmoves, UInt64.not_lt.mp hregress, Decidable.not_not.mp hstale, hcomposition, law, abi,
      hlaw, habi, rfl⟩
  · intro ⟨hmoves, hregress, hstale, hcomposition, law, abi, hlaw, habi, hchild⟩
    subst hchild
    refine bind_eq_ok.mpr ⟨t, validateTransition_json.mpr ⟨hmoves, rfl⟩, ?_⟩
    refine bind_eq_ok.mpr ⟨epoch, hepoch, ?_⟩
    refine refuseIf_bind_eq_ok.mpr ⟨UInt64.not_lt.mpr hregress, ?_⟩
    refine refuseIf_bind_eq_ok.mpr ⟨not_not_intro hstale, ?_⟩
    refine refuseIf_bind_eq_ok.mpr ⟨hcomposition, ?_⟩
    rw [hroot, ok_bind]
    exact bind_eq_ok.mpr ⟨law, hlaw, bind_eq_ok.mpr ⟨abi, habi, newManifest_eq_ok _⟩⟩

end CoreTex
