import CoreTex.Dispatch.Replay

/-!
# CoreTex.Dispatch.Determinism

What an accepted replay guarantees, over every parent, artifact, reference table and epoch
context.

`replayTransitionArtifact_frame`: only declared profiles move, the law pins move only into
a later epoch and then to the supplied pins, and the root changes.
`replayTransitionArtifact_unique`: a descriptor determines the served bytes, the parent and
the child, because every one of them is addressed by a root the descriptor carries.
-/

namespace CoreTex

open CoreTex.Lib

/-! ### Epoch pins -/

theorem readEpochPins_none {epochPins : Json} :
    readEpochPins epochPins = .ok none ↔ epochPins = .null := by
  constructor
  · intro h
    cases epochPins with
    | null => rfl
    | obj pairs =>
        rw [readEpochPins, recode_eq_ok] at h
        obtain ⟨_, _, h⟩ := bind_eq_ok.mp h
        obtain ⟨_, _, h⟩ := bind_eq_ok.mp h
        obtain ⟨_, _, h⟩ := bind_eq_ok.mp h
        obtain ⟨_, _, h⟩ := bind_eq_ok.mp h
        exact nomatch h
    | _ => nomatch h
  · intro h
    subst h
    rfl

theorem readEpochPins_some {epochPins : Json} {pins : EpochPins} :
    readEpochPins epochPins = .ok (some pins) ↔
      epochPins.get "epoch" = epochJson pins.epoch ∧
      epochPins.get "epoch_context_root" = pins.epochContextRoot.json ∧
      epochPins.get "benchmark_law_root" = pins.benchmarkLawRoot.json ∧
      epochPins.get "runtime_abi_root" = pins.runtimeAbiRoot.json := by
  cases epochPins with
  | obj pairs =>
      rw [readEpochPins, recode_eq_ok]
      constructor
      · intro h
        obtain ⟨epoch, hepoch, h⟩ := bind_eq_ok.mp h
        obtain ⟨epochContextRoot, hcontext, h⟩ := bind_eq_ok.mp h
        obtain ⟨benchmarkLawRoot, hlaw, h⟩ := bind_eq_ok.mp h
        obtain ⟨runtimeAbiRoot, habi, h⟩ := bind_eq_ok.mp h
        cases h
        exact ⟨checkEpoch_eq_ok.mp hepoch, checkRoot_eq_ok.mp hcontext, checkRoot_eq_ok.mp hlaw,
          checkRoot_eq_ok.mp habi⟩
      · intro ⟨hepoch, hcontext, hlaw, habi⟩
        exact bind_eq_ok.mpr ⟨_, checkEpoch_eq_ok.mpr hepoch,
          bind_eq_ok.mpr ⟨_, checkRoot_eq_ok.mpr hcontext,
          bind_eq_ok.mpr ⟨_, checkRoot_eq_ok.mpr hlaw,
          bind_eq_ok.mpr ⟨_, checkRoot_eq_ok.mpr habi, rfl⟩⟩⟩⟩
  | _ => exact ⟨fun h => (nomatch h), fun h => (nomatch h.1)⟩

/-! ### A sample edge -/

/-- A root of one repeated digit. -/
def repeatedRoot (c : Nat) (h : isHexDigit c = true) : Root where
  hex := List.replicate 64 c
  wellFormed := by
    rw [isRoot, List.length_replicate, List.all_replicate, h]
    rfl

/-- A manifest at epoch 5. -/
def launchManifest : Manifest where
  benchmarkLawRoot := repeatedRoot 49 rfl
  defaultCompositionRoot := repeatedRoot 50 rfl
  epoch := 5
  parentFrontierRoot := repeatedRoot 48 rfl
  profiles := fun _ => repeatedRoot 51 rfl
  runtimeAbiRoot := repeatedRoot 52 rfl

/-- Its root. -/
def launchRoot : Root where
  hex := py "5baf2b5fbf9dc61784d7ad5348ea44119896d2c2cffc774e9e48c9751bc3739f"
  wellFormed := by decide +kernel

/-- Its child with one profile's release and the composition replaced. -/
def convPrefChild (composition release : Root) : Manifest where
  benchmarkLawRoot := launchManifest.benchmarkLawRoot
  defaultCompositionRoot := composition
  epoch := 5
  parentFrontierRoot := launchRoot
  profiles := Function.update launchManifest.profiles .convPref release
  runtimeAbiRoot := launchManifest.runtimeAbiRoot

/-- The artifact of the edge to `child`, whose root is `newStateRoot`. -/
def convPrefArtifact (child : Manifest) (newStateRoot : Root) : Json :=
  .obj [
    (py "affected_profiles", .arr [.str (py "conv.pref.v1")]),
    (py "availability", .obj []),
    (py "byte_length", .int 1487),
    (py "derived_state", .obj []),
    (py "epoch", .int 5),
    (py "epoch_context_root", (repeatedRoot 55 rfl).json),
    (py "format", .str (py transitionArtifactFormat)),
    (py "new_state_root", newStateRoot.json),
    (py "parent_state_root", launchRoot.json),
    (py "profile_releases", .obj [(py "conv.pref.v1", .obj [
      (py "expected_prior_release_root", (launchManifest.profiles .convPref).json),
      (py "hooks", .arr [.str (py "m5_rank")]),
      (py "new_release_root", (child.profiles .convPref).json)])]),
    (py "resulting_composition_root", child.defaultCompositionRoot.json),
    (py "resulting_frontier_manifest", child.json),
    (py "score_delta_ppm", .int 2500),
    (py "shared_components", .arr [])]

/-- The child of the sample edge, with a new release and a new composition. -/
def advancedManifest : Manifest :=
  convPrefChild (repeatedRoot 53 rfl) (repeatedRoot 54 rfl)

def advancedRoot : Root where
  hex := py "ac41cbd689e472f86eb55a3b2a04c62847d8a962b9b651297318e2e42b3744bd"
  wellFormed := by decide +kernel

/-- The served bytes of the sample edge. -/
def advanceBytes : Bytes :=
  (convPrefArtifact advancedManifest advancedRoot).ser

def advanceBytesRoot : Root where
  hex := py "9e4c83e485cee41698867d720490e41066edd1263b1c0f1565a2364df146cb50"
  wellFormed := by decide +kernel

/-- The descriptor of the sample edge. -/
def advanceDescriptor : TransitionDescriptor where
  version := transitionDescriptorVersion
  patchArtifactHash := advanceBytesRoot.hex
  parentStateRoot := launchRoot.hex
  newStateRoot := advancedRoot.hex
  raw := [transitionDescriptorVersion] ++ bytesFromHex advanceBytesRoot.hex ++
    bytesFromHex launchRoot.hex ++ bytesFromHex advancedRoot.hex

/-- The served bytes verify and replay. -/
theorem advanceBytes_replays :
    ∃ document, verifyTransitionArtifactBytes advanceBytes advanceDescriptor none none =
        .ok document ∧
      replayTransitionArtifact launchManifest.json document none .null = .ok advancedManifest := by
  have hrun : (verifyTransitionArtifactBytes advanceBytes advanceDescriptor none none >>=
      fun document => replayTransitionArtifact launchManifest.json document none .null).toOption =
      some advancedManifest := by
    decide +kernel
  exact bind_eq_ok.mp (toOption_eq_some.mp hrun)

/-! ### The frame -/

/-- A pin that differs from the parent's was adopted from a context, in a later epoch. -/
theorem replayLawPin_moved {pinned : Option Root} {stated carried root : Root} {inherited : Bool}
    {pin : String} (h : replayLawPin pinned stated carried inherited pin = .ok root)
    (hmoved : root ≠ carried) : inherited = true ∧ pinned = some root := by
  cases pinned with
  | none => exact absurd (replayLawPin_none.mp h).2 hmoved
  | some expected =>
      obtain ⟨-, hinherited, rfl⟩ := replayLawPin_some.mp h
      exact ⟨hinherited.resolve_left hmoved.symm, rfl⟩

/-- The frame of an accepted replay. -/
theorem replayTransitionArtifact_frame {parentManifest artifact epochPins : Json}
    {componentReferences : ComponentReferences} {child : Manifest}
    (h : replayTransitionArtifact parentManifest artifact componentReferences epochPins =
      .ok child) :
    ∃ document parent, validateTransitionArtifact artifact = .ok document ∧
      validateManifest parentManifest = .ok parent ∧
      (∀ p, child.profiles p ≠ parent.profiles p →
        p ∈ document.profileReleases.map Prod.fst ∧ py p.id ∈ document.affectedProfiles.val) ∧
      (∀ cid ∈ document.sharedComponents.val, ∀ refs,
        lookup (componentReferences.getD []) cid = some (some refs) →
          ∀ pid ∈ refs, pid ∈ document.affectedProfiles.val) ∧
      (∀ p, p ∉ document.profileReleases.map Prod.fst → child.profiles p = parent.profiles p) ∧
      child.json.get "format" = parentManifest.get "format" ∧
      (child.benchmarkLawRoot ≠ parent.benchmarkLawRoot → parent.epoch < document.epoch ∧
        epochPins.get "benchmark_law_root" = child.benchmarkLawRoot.json) ∧
      (child.runtimeAbiRoot ≠ parent.runtimeAbiRoot → parent.epoch < document.epoch ∧
        epochPins.get "runtime_abi_root" = child.runtimeAbiRoot.json) ∧
      parent.epoch ≤ child.epoch ∧
      frontierRoot child.json ≠ frontierRoot parentManifest := by
  obtain ⟨document, parent, parentRoot, pinned, hvalid, hparent, hroot, hpinned, hreplays⟩ :=
    replayTransitionArtifact_eq_ok.mp h
  have hframe : ∀ p, p ∉ document.profileReleases.map Prod.fst →
      child.profiles p = parent.profiles p :=
    fun p hp => applyReleases_frame hreplays.releases hp
  have hformat : child.json.get "format" = parentManifest.get "format" := by
    obtain ⟨doc, hdoc, hreads⟩ := validateManifest_eq_ok.mp hparent
    obtain ⟨doc', hdoc', hreads'⟩ := validateManifest_eq_ok.mp (validateManifest_json child)
    rw [hdoc, hdoc']
    exact hreads'.format.trans hreads.format.symm
  refine ⟨document, parent, hvalid, hparent, ?_, hreplays.closure.fanout, hframe, hformat, ?_, ?_,
    ?_, ?_⟩
  · intro p hp
    have hmem : p ∈ document.profileReleases.map Prod.fst := by
      by_contra hnot
      exact hp (hframe p hnot)
    obtain ⟨e, he, rfl⟩ := List.mem_map.mp hmem
    exact ⟨hmem, hreplays.closure.direct e he⟩
  · intro hmoved
    obtain ⟨hlater, hsome⟩ := replayLawPin_moved hreplays.benchmarkLawRoot hmoved
    obtain ⟨pins, rfl, hpins⟩ := Option.map_eq_some_iff.mp hsome
    exact ⟨of_decide_eq_true hlater, hpins ▸ (readEpochPins_some.mp hpinned).2.2.1⟩
  · intro hmoved
    obtain ⟨hlater, hsome⟩ := replayLawPin_moved hreplays.runtimeAbiRoot hmoved
    obtain ⟨pins, rfl, hpins⟩ := Option.map_eq_some_iff.mp hsome
    exact ⟨of_decide_eq_true hlater, hpins ▸ (readEpochPins_some.mp hpinned).2.2.2⟩
  · rw [hreplays.childEpoch]
    exact hreplays.epoch
  · rw [frontierRoot_json, hroot]
    intro heq
    exact hreplays.moves (Except.ok.inj heq)

/-- `replayTransitionArtifact_frame` on the sample edge, for the profiles it does not name. -/
theorem replayTransitionArtifact_frame_convPref :
    ∃ artifact document parent, validateTransitionArtifact artifact = .ok document ∧
      validateManifest launchManifest.json = .ok parent ∧
      (∀ p, p ∉ document.profileReleases.map Prod.fst →
        advancedManifest.profiles p = parent.profiles p) ∧
      frontierRoot advancedManifest.json ≠ frontierRoot launchManifest.json := by
  obtain ⟨artifact, -, hreplay⟩ := advanceBytes_replays
  obtain ⟨document, parent, hvalid, hparent, -, -, hframe, -, -, -, -, hroot⟩ :=
    replayTransitionArtifact_frame hreplay
  exact ⟨artifact, document, parent, hvalid, hparent, hframe, hroot⟩

/-! ### Determinism -/

/-- What accepted bytes say about the descriptor that addresses them. -/
theorem verifyTransitionArtifactBytes_inv {served : Bytes} {descriptor : TransitionDescriptor}
    {scoreDeltaPpm : Option Int} {epochContextRoot : Option Json} {document : Json}
    (h : verifyTransitionArtifactBytes served descriptor scoreDeltaPpm epochContextRoot =
      .ok document) :
    (sha256Hex served).hex = descriptor.patchArtifactHash ∧ parseServed served = .ok document ∧
      ∃ artifact, validateTransitionArtifact document = .ok artifact ∧
        artifact.parentStateRoot.hex = descriptor.parentStateRoot ∧
        artifact.newStateRoot.hex = descriptor.newStateRoot := by
  rw [verifyTransitionArtifactBytes] at h
  obtain ⟨-, h⟩ := refuseIf_bind_eq_ok.mp h
  obtain ⟨-, h⟩ := refuseIf_bind_eq_ok.mp h
  obtain ⟨haddress, h⟩ := refuseIf_bind_eq_ok.mp h
  obtain ⟨parsed, hparsed, h⟩ := bind_eq_ok.mp h
  obtain ⟨artifact, hvalid, h⟩ := bind_eq_ok.mp h
  obtain ⟨bytes, -, h⟩ := bind_eq_ok.mp h
  obtain ⟨-, h⟩ := refuseIf_bind_eq_ok.mp h
  obtain ⟨-, h⟩ := refuseIf_bind_eq_ok.mp h
  obtain ⟨hparent, h⟩ := refuseIf_bind_eq_ok.mp h
  obtain ⟨hnew, h⟩ := refuseIf_bind_eq_ok.mp h
  obtain ⟨-, h⟩ := refuseIf_bind_eq_ok.mp h
  obtain ⟨_, -, h⟩ := bind_eq_ok.mp h
  obtain ⟨_, -, h⟩ := bind_eq_ok.mp h
  cases h
  exact ⟨Decidable.not_not.mp haddress, recode_eq_ok.mp hparsed, artifact, hvalid,
    Decidable.not_not.mp hparent, Decidable.not_not.mp hnew⟩

/-- A descriptor determines the bytes it addresses, the parent they replay on and the child,
when SHA-256 does not collide on the byte strings involved. -/
theorem replayTransitionArtifact_unique {keccak256 : Bytes → Bytes} {raw : Bytes}
    {parentStateRoot newStateRoot expectedPatchHash : Option PyStr}
    {transitionFormatVersion : Option Int} {descriptor : TransitionDescriptor}
    (hdescriptor : decodeTransitionDescriptor keccak256 raw parentStateRoot newStateRoot
      expectedPatchHash transitionFormatVersion = .ok descriptor)
    {s₁ s₂ : Bytes} {delta₁ delta₂ : Option Int} {context₁ context₂ : Option Json}
    {document₁ document₂ : Json}
    (hs₁ : verifyTransitionArtifactBytes s₁ descriptor delta₁ context₁ = .ok document₁)
    (hs₂ : verifyTransitionArtifactBytes s₂ descriptor delta₂ context₂ = .ok document₂)
    {p₁ p₂ : Document} {references₁ references₂ : ComponentReferences} {pins₁ pins₂ : Json}
    {child₁ child₂ : Manifest}
    (hr₁ : replayTransitionArtifact p₁ document₁ references₁ pins₁ = .ok child₁)
    (hr₂ : replayTransitionArtifact p₂ document₂ references₂ pins₂ = .ok child₂)
    (hsha : Set.InjOn sha256
      {s₁, s₂, p₁.val.dumps, p₂.val.dumps, child₁.bytes, child₂.bytes}) :
    s₁ = s₂ ∧ p₁.val.sortKeys = p₂.val.sortKeys ∧ child₁ = child₂ ∧
      (∃ root, frontierRoot child₁.json = .ok root ∧ root.hex = hexText (raw.drop 65)) ∧
      child₁.parentFrontierRoot.hex = hexText ((raw.drop 33).take 32) := by
  obtain ⟨-, -, -, -, -, hparentField, hnewField⟩ := decodeTransitionDescriptor_inv _ hdescriptor
  obtain ⟨haddress₁, hparsed₁, artifact₁, hvalid₁, hparent₁, hnew₁⟩ :=
    verifyTransitionArtifactBytes_inv hs₁
  obtain ⟨haddress₂, hparsed₂, artifact₂, hvalid₂, hparent₂, hnew₂⟩ :=
    verifyTransitionArtifactBytes_inv hs₂
  obtain ⟨_, m₁, root₁, _, hdoc₁, hm₁, hroot₁, -, hreplays₁⟩ :=
    replayTransitionArtifact_eq_ok.mp hr₁
  obtain ⟨_, m₂, root₂, _, hdoc₂, hm₂, hroot₂, -, hreplays₂⟩ :=
    replayTransitionArtifact_eq_ok.mp hr₂
  cases hvalid₁.symm.trans hdoc₁
  cases hvalid₂.symm.trans hdoc₂
  -- the artifact hash addresses the served bytes
  have hserved : s₁ = s₂ :=
    hsha (by simp) (by simp)
      (sha256_eq_of_sha256Hex (Root.ext (haddress₁.trans haddress₂.symm)))
  -- the parent root addresses the parent
  rw [frontierRoot_of_validateManifest p₁.property hm₁] at hroot₁
  rw [frontierRoot_of_validateManifest p₂.property hm₂] at hroot₂
  cases hroot₁
  cases hroot₂
  have hparents : m₁ = m₂ := by
    refine Manifest.eq_of_root hsha ?_ ?_ (Root.ext ?_)
    · rw [← dumps_of_validateManifest p₁.property hm₁]
      simp
    · rw [← dumps_of_validateManifest p₂.property hm₂]
      simp
    · rw [hreplays₁.parentState, hreplays₂.parentState, hparent₁, hparent₂]
  -- the new root addresses the child
  have hchildren : child₁ = child₂ := by
    refine Manifest.eq_of_root hsha (by simp) (by simp) (Root.ext ?_)
    rw [hreplays₁.newRoot, hreplays₂.newRoot, hnew₁, hnew₂]
  refine ⟨hserved, ?_, hchildren, ⟨_, frontierRoot_json child₁, ?_⟩, ?_⟩
  · rw [validateManifest_sortKeys p₁.property hm₁, validateManifest_sortKeys p₂.property hm₂,
      hparents]
  · rw [hreplays₁.newRoot, hnew₁, hnewField]
  · rw [hreplays₁.childParent, hreplays₁.parentState, hparent₁, hparentField]

/-- The sample parent. -/
def launchDocument : Document :=
  ⟨launchManifest.json, launchManifest.wf_json⟩

/-- The sample parent with its keys in another order. -/
def shuffledLaunch : Document where
  val := .obj [
    (py "runtime_abi_root", launchManifest.runtimeAbiRoot.json),
    (py "profiles", .obj [
      (py "event.schema.v1", (launchManifest.profiles .eventSchema).json),
      (py "doc.tool.v1", (launchManifest.profiles .docTool).json),
      (py "conv.pref.v1", (launchManifest.profiles .convPref).json)]),
    (py "format", .str (py manifestFormat)),
    (py "parent_frontier_root", launchManifest.parentFrontierRoot.json),
    (py "epoch", epochJson 5),
    (py "default_composition_root", launchManifest.defaultCompositionRoot.json),
    (py "benchmark_law_root", launchManifest.benchmarkLawRoot.json)]
  property := by
    refine ⟨by decide +kernel, trivial, ⟨by decide +kernel, ?_⟩, ?_⟩
    · exact ⟨trivial, trivial, trivial, trivial⟩
    · exact ⟨trivial, trivial, trivial, trivial, trivial, trivial⟩

/-- The three byte strings of the sample edge have three digests. -/
theorem injOn_sample (haddress : sha256Hex advanceBytes = advanceBytesRoot)
    (hlaunch : sha256Hex launchManifest.bytes = launchRoot)
    (hadvanced : sha256Hex advancedManifest.bytes = advancedRoot) :
    Set.InjOn sha256 {advanceBytes, launchManifest.bytes, advancedManifest.bytes} := by
  have hal : advanceBytesRoot ≠ launchRoot := by decide +kernel
  have han : advanceBytesRoot ≠ advancedRoot := by decide +kernel
  have hln : launchRoot ≠ advancedRoot := by decide +kernel
  intro x hx y hy hxy
  have h : sha256Hex x = sha256Hex y := Root.ext (congrArg hexText hxy)
  simp only [Set.mem_insert_iff, Set.mem_singleton_iff] at hx hy
  rcases hx with rfl | rfl | rfl
  · rcases hy with rfl | rfl | rfl
    · rfl
    · exact absurd (haddress.symm.trans (h.trans hlaunch)) hal
    · exact absurd (haddress.symm.trans (h.trans hadvanced)) han
  · rcases hy with rfl | rfl | rfl
    · exact absurd (haddress.symm.trans (h.symm.trans hlaunch)) hal
    · rfl
    · exact absurd (hlaunch.symm.trans (h.trans hadvanced)) hln
  · rcases hy with rfl | rfl | rfl
    · exact absurd (haddress.symm.trans (h.symm.trans hadvanced)) han
    · exact absurd (hlaunch.symm.trans (h.symm.trans hadvanced)) hln
    · rfl

/-- `replayTransitionArtifact_unique` on the sample edge and two spellings of its parent. -/
theorem replayTransitionArtifact_unique_shuffled :
    launchManifest.json.sortKeys = shuffledLaunch.val.sortKeys ∧
      ∃ root, frontierRoot advancedManifest.json = .ok root ∧
        root.hex = hexText (advanceDescriptor.raw.drop 65) := by
  obtain ⟨document, hverify, hreplay⟩ := advanceBytes_replays
  have hdecode : decodeTransitionDescriptor sha256 advanceDescriptor.raw none none none none =
      .ok advanceDescriptor := by
    decide +kernel
  have hshuffled : validateManifest shuffledLaunch.val = .ok launchManifest :=
    toOption_eq_some.mp (by decide +kernel)
  have hshuffledRoot := frontierRoot_of_validateManifest shuffledLaunch.property hshuffled
  obtain ⟨haddress, -, artifact, hvalid, hparent, hnew⟩ := verifyTransitionArtifactBytes_inv hverify
  obtain ⟨_, m, root, pinned, hdoc, hm, hroot, hpinned, hreplays⟩ :=
    replayTransitionArtifact_eq_ok.mp hreplay
  cases hvalid.symm.trans hdoc
  cases (validateManifest_json _).symm.trans hm
  cases (frontierRoot_json _).symm.trans hroot
  have hreplay' : replayTransitionArtifact shuffledLaunch.val document none .null =
      .ok advancedManifest :=
    replayTransitionArtifact_eq_ok.mpr
      ⟨artifact, launchManifest, _, pinned, hvalid, hshuffled, hshuffledRoot, hpinned, hreplays⟩
  have hsample := injOn_sample (Root.ext haddress)
    (Root.ext ((congrArg Root.hex hreplays.parentState).trans hparent))
    (Root.ext ((congrArg Root.hex hreplays.newRoot).trans hnew))
  have hdumps := dumps_of_validateManifest launchDocument.property hm
  have hdumps' := dumps_of_validateManifest shuffledLaunch.property hshuffled
  have hsha : Set.InjOn sha256 {advanceBytes, advanceBytes, launchDocument.val.dumps,
      shuffledLaunch.val.dumps, advancedManifest.bytes, advancedManifest.bytes} := by
    rw [hdumps, hdumps']
    refine hsample.mono fun x hx => ?_
    simpa using hx
  have hlaunch : replayTransitionArtifact launchDocument.val document none .null =
      .ok advancedManifest := hreplay
  obtain ⟨-, hparents, -, hchild, -⟩ :=
    replayTransitionArtifact_unique hdecode hverify hverify hlaunch hreplay' hsha
  exact ⟨hparents, hchild⟩

end CoreTex
