import CoreTex.Dispatch.Determinism

/-!
# CoreTex.Dispatch.Engines

The two transition engines side by side: `frontier.apply_transition` on a one-profile
edit, and `dispatch.replay_transition_artifact` on the artifact that declares the same
edit and states its child.

Both need an artifact that starts from the parent's release and states its root and its
law (`FollowsEdge`). Replay then asks that the pins are admissible and that the stated root
is the edge's; application asks that the release and the composition move, and yields the
stated child only if that is the edge's child. `replayTransitionArtifact_agrees_iff` puts
the two together.
-/

namespace CoreTex

open CoreTex.Lib

/-! ### One-profile edges -/

/-- The artifact declares one move, of one profile, and no shared component. -/
structure SingleEdge (document : TransitionArtifact) (p : ProfileId) (move : ReleaseMove) :
    Prop where
  releases : document.profileReleases = [(p, move)]
  affected : document.affectedProfiles.val = [py p.id]
  shared : document.sharedComponents.val = []

/-- The transition that makes the same edit as a move of the artifact. -/
def TransitionArtifact.transition (document : TransitionArtifact) (p : ProfileId)
    (move : ReleaseMove) : Transition where
  expectedPriorReleaseRoot := move.expectedPriorReleaseRoot
  newReleaseRoot := move.newReleaseRoot
  resultingCompositionRoot := document.resultingCompositionRoot
  targetProfile := p

/-- No pins, or a mapping whose `epoch` is this one. -/
def NamesEpoch (epochPins : Json) (epoch : UInt64) : Prop :=
  epochPins = .null ∨ (∃ pairs, epochPins = .obj pairs) ∧ epochPins.get "epoch" = epochJson epoch

/-- The move starts from the parent's release, and the artifact's child states the parent's
root and the adopted or carried law. -/
structure FollowsEdge (parent : Manifest) (document : TransitionArtifact) (epochPins : Json)
    (p : ProfileId) (move : ReleaseMove) : Prop where
  prior : move.expectedPriorReleaseRoot = parent.profiles p
  parentRoot : document.resultingFrontierManifest.parentFrontierRoot = sha256Hex parent.bytes
  benchmarkLawRoot : adoptOrCarry parent.benchmarkLawRoot epochPins "benchmark_law_root" =
    .ok document.resultingFrontierManifest.benchmarkLawRoot
  runtimeAbiRoot : adoptOrCarry parent.runtimeAbiRoot epochPins "runtime_abi_root" =
    .ok document.resultingFrontierManifest.runtimeAbiRoot

/-- The profiles after the move. -/
def profilesAfter (parent : Manifest) (p : ProfileId) (move : ReleaseMove) : ProfileId → Root :=
  Function.update parent.profiles p move.newReleaseRoot

/-- The child of the edge, under the law that the artifact states. -/
def TransitionArtifact.edgeChild (document : TransitionArtifact) (parent : Manifest)
    (p : ProfileId) (move : ReleaseMove) : Manifest :=
  parent.child (sha256Hex parent.bytes) document.epoch (document.transition p move)
    document.resultingFrontierManifest.benchmarkLawRoot
    document.resultingFrontierManifest.runtimeAbiRoot

/-- The artifact states the child of the edge. -/
def StatesEdge (parent : Manifest) (document : TransitionArtifact) (epochPins : Json)
    (p : ProfileId) (move : ReleaseMove) : Prop :=
  FollowsEdge parent document epochPins p move ∧
    document.resultingFrontierManifest.profiles = profilesAfter parent p move

/-- The artifact states other profiles than the edge's, in a manifest that collides with the
edge's child under SHA-256. -/
def CollidesWithEdge (parent : Manifest) (document : TransitionArtifact) (epochPins : Json)
    (p : ProfileId) (move : ReleaseMove) : Prop :=
  FollowsEdge parent document epochPins p move ∧
    document.resultingFrontierManifest.profiles ≠ profilesAfter parent p move ∧
    sha256 (document.edgeChild parent p move).bytes =
      sha256 document.resultingFrontierManifest.bytes

/-- No pins, or four well-formed ones that name the artifact's context and, within the
parent's epoch, the parent's own law. -/
def PinsAdmissible (parent : Manifest) (document : TransitionArtifact) (epochPins : Json) : Prop :=
  epochPins = .null ∨ ∃ pins, readEpochPins epochPins = .ok (some pins) ∧
    pins.epochContextRoot = document.epochContextRoot ∧
    (parent.epoch < document.epoch ∨
      pins.benchmarkLawRoot = parent.benchmarkLawRoot ∧ pins.runtimeAbiRoot = parent.runtimeAbiRoot)

/-- The edge replaces the release and the composition. -/
def MovesEdge (parent : Manifest) (document : TransitionArtifact) (move : ReleaseMove) : Prop :=
  move.newReleaseRoot ≠ move.expectedPriorReleaseRoot ∧
    document.resultingCompositionRoot ≠ parent.defaultCompositionRoot

/-! ### Pins under both readings -/

theorem adoptOrCarry_of_get {epochPins : Json} {carried root : Root} {pin : String}
    (h : epochPins.get pin = root.json) : adoptOrCarry carried epochPins pin = .ok root := by
  cases epochPins with
  | obj pairs =>
      have hlookup : lookup pairs (py pin) = some root.json := by
        rw [Json.get, field] at h
        cases hx : lookup pairs (py pin) with
        | none =>
            rw [hx] at h
            cases h
        | some x =>
            rw [hx] at h
            exact congrArg some h
      have hne : root.hex ≠ [] := by
        intro hnil
        have := root.length_hex
        rw [hnil] at this
        cases this
      rw [adoptOrCarry, hlookup]
      simp only [Root.json]
      rw [if_neg hne]
      exact checkRoot_eq_ok.mpr rfl
  | _ => cases h

/-! ### The two acceptance conditions -/

section Engines

variable {parentManifest : Document} {parent : Manifest} {artifact epochPins : Json}
  {document : TransitionArtifact} {p : ProfileId} {move : ReleaseMove}
  {componentReferences : ComponentReferences}

/-- The stated child is the edge's child exactly when its profiles are. -/
theorem FollowsEdge.eq_edgeChild (hself : SelfConsistent document)
    (hfollows : FollowsEdge parent document epochPins p move) :
    document.resultingFrontierManifest = document.edgeChild parent p move ↔
      document.resultingFrontierManifest.profiles = profilesAfter parent p move := by
  constructor
  · intro h
    exact congrArg Manifest.profiles h
  · intro h
    exact Manifest.ext rfl hself.composition hself.epoch hfollows.parentRoot h rfl

/-- Application yields the stated child exactly on a stated edge that moves. -/
theorem applyTransition_iff (hparent : validateManifest parentManifest.val = .ok parent)
    (hself : SelfConsistent document) (hepoch : parent.epoch ≤ document.epoch) :
    applyTransition parentManifest.val (document.transition p move).json (epochJson document.epoch)
        epochPins = .ok document.resultingFrontierManifest ↔
      StatesEdge parent document epochPins p move ∧ MovesEdge parent document move := by
  rw [applyTransition_eq_ok parentManifest.property hparent]
  constructor
  · intro ⟨hmoves, _, hprior, hcomposition, law, abi, hlaw, habi, hchild⟩
    have hlaw' : law = document.resultingFrontierManifest.benchmarkLawRoot := by
      rw [hchild]
      rfl
    have habi' : abi = document.resultingFrontierManifest.runtimeAbiRoot := by
      rw [hchild]
      rfl
    subst hlaw' habi'
    refine ⟨⟨⟨hprior, ?_, hlaw, habi⟩, ?_⟩, hmoves, hcomposition⟩
    · exact congrArg Manifest.parentFrontierRoot hchild
    · exact congrArg Manifest.profiles hchild
  · intro ⟨⟨hfollows, hprofiles⟩, hmoves, hcomposition⟩
    exact ⟨hmoves, hepoch, hfollows.prior, hcomposition, _, _, hfollows.benchmarkLawRoot,
      hfollows.runtimeAbiRoot, (hfollows.eq_edgeChild hself).mpr hprofiles⟩

/-- A single edge passes the closure check: its one profile is the one it declares. -/
theorem SingleEdge.closureDeclared (hedge : SingleEdge document p move) :
    ClosureDeclared document componentReferences := by
  refine ⟨?_, ?_, ?_, ?_⟩
  · intro pid hpid
    rw [hedge.affected, List.mem_singleton] at hpid
    exact ⟨p, hpid.symm⟩
  · intro cid hcid
    rw [hedge.shared] at hcid
    exact absurd hcid List.not_mem_nil
  · intro e he
    rw [hedge.releases, List.mem_singleton] at he
    rw [he, hedge.affected]
    exact List.mem_singleton_self _
  · intro cid hcid
    rw [hedge.shared] at hcid
    exact absurd hcid List.not_mem_nil

/-- What an accepted replay of a single edge has checked, and its child. -/
theorem replayTransitionArtifact_single_inv {child : Manifest}
    (hparent : validateManifest parentManifest.val = .ok parent)
    (hvalid : validateTransitionArtifact artifact = .ok document)
    (hedge : SingleEdge document p move)
    (h : replayTransitionArtifact parentManifest.val artifact componentReferences epochPins =
      .ok child) :
    child = document.edgeChild parent p move ∧ FollowsEdge parent document epochPins p move ∧
      PinsAdmissible parent document epochPins ∧
      sha256Hex (document.edgeChild parent p move).bytes = document.newStateRoot := by
  obtain ⟨_, _, root, pinned, hdoc, hm, hroot, hpinned, hreplays⟩ :=
    replayTransitionArtifact_eq_ok.mp h
  cases hvalid.symm.trans hdoc
  cases hparent.symm.trans hm
  cases (frontierRoot_of_validateManifest parentManifest.property hparent).symm.trans hroot
  have hreleases := hreplays.releases
  rw [hedge.releases, applyReleases_singleton] at hreleases
  have hpins : child.benchmarkLawRoot = document.resultingFrontierManifest.benchmarkLawRoot ∧
      child.runtimeAbiRoot = document.resultingFrontierManifest.runtimeAbiRoot ∧
      adoptOrCarry parent.benchmarkLawRoot epochPins "benchmark_law_root" =
        .ok document.resultingFrontierManifest.benchmarkLawRoot ∧
      adoptOrCarry parent.runtimeAbiRoot epochPins "runtime_abi_root" =
        .ok document.resultingFrontierManifest.runtimeAbiRoot ∧
      PinsAdmissible parent document epochPins := by
    cases pinned with
    | none =>
        obtain ⟨hlaw, hlawRoot⟩ := replayLawPin_none.mp hreplays.benchmarkLawRoot
        obtain ⟨habi, habiRoot⟩ := replayLawPin_none.mp hreplays.runtimeAbiRoot
        have hnull := readEpochPins_none.mp hpinned
        subst hnull
        rw [hlawRoot, habiRoot, hlaw, habi]
        exact ⟨rfl, rfl, rfl, rfl, .inl rfl⟩
    | some pins =>
        obtain ⟨hlaw, hlawSame, hlawRoot⟩ := replayLawPin_some.mp hreplays.benchmarkLawRoot
        obtain ⟨habi, habiSame, habiRoot⟩ := replayLawPin_some.mp hreplays.runtimeAbiRoot
        obtain ⟨-, -, hgetLaw, hgetAbi⟩ := readEpochPins_some.mp hpinned
        rw [hlawRoot, habiRoot, hlaw, habi]
        refine ⟨rfl, rfl, adoptOrCarry_of_get hgetLaw, adoptOrCarry_of_get hgetAbi, .inr ⟨pins,
          hpinned, hreplays.pinnedContext pins rfl, ?_⟩⟩
        by_cases hlater : parent.epoch < document.epoch
        · exact .inl hlater
        · rw [decide_eq_false hlater] at hlawSame habiSame
          exact .inr ⟨(hlawSame.resolve_right Bool.false_ne_true).symm,
            (habiSame.resolve_right Bool.false_ne_true).symm⟩
  obtain ⟨hlawRoot, habiRoot, hlaw, habi, hadmissible⟩ := hpins
  have hchild : child = document.edgeChild parent p move :=
    Manifest.ext hlawRoot hreplays.childComposition hreplays.childEpoch hreplays.childParent
      hreleases.2 habiRoot
  have hstated : document.resultingFrontierManifest.parentFrontierRoot =
      sha256Hex parent.bytes :=
    hreplays.selfConsistent.parentRoot.trans hreplays.parentState.symm
  exact ⟨hchild, ⟨hreleases.1.symm, hstated, hlaw, habi⟩, hadmissible, hchild ▸ hreplays.newRoot⟩

/-- Replay accepts an edge with admissible pins whose child has the stated root. -/
theorem replayTransitionArtifact_single
    (hparent : validateManifest parentManifest.val = .ok parent)
    (hvalid : validateTransitionArtifact artifact = .ok document) (hself : SelfConsistent document)
    (hedge : SingleEdge document p move) (hepoch : parent.epoch ≤ document.epoch)
    (hnames : NamesEpoch epochPins document.epoch)
    (hfollows : FollowsEdge parent document epochPins p move)
    (hadmissible : PinsAdmissible parent document epochPins)
    (hnewRoot : sha256Hex (document.edgeChild parent p move).bytes = document.newStateRoot) :
    replayTransitionArtifact parentManifest.val artifact componentReferences epochPins =
      .ok (document.edgeChild parent p move) := by
  have hroot := frontierRoot_of_validateManifest parentManifest.property hparent
  have hparentState : sha256Hex parent.bytes = document.parentStateRoot :=
    hfollows.parentRoot.symm.trans hself.parentRoot
  have hreleases : applyReleases parent.profiles document.profileReleases =
      .ok (document.edgeChild parent p move).profiles := by
    rw [hedge.releases, applyReleases_singleton]
    exact ⟨hfollows.prior.symm, rfl⟩
  have hmoves : sha256Hex (document.edgeChild parent p move).bytes ≠ sha256Hex parent.bytes := by
    rw [hnewRoot, hparentState]
    exact hself.moves
  have hpins : ∃ pinned, readEpochPins epochPins = .ok pinned ∧
      (∀ pins ∈ pinned, pins.epoch = document.epoch) ∧
      (∀ pins ∈ pinned, pins.epochContextRoot = document.epochContextRoot) ∧
      replayLawPin (pinned.map EpochPins.benchmarkLawRoot)
        document.resultingFrontierManifest.benchmarkLawRoot parent.benchmarkLawRoot
        (decide (parent.epoch < document.epoch)) "benchmark_law_root" =
        .ok document.resultingFrontierManifest.benchmarkLawRoot ∧
      replayLawPin (pinned.map EpochPins.runtimeAbiRoot)
        document.resultingFrontierManifest.runtimeAbiRoot parent.runtimeAbiRoot
        (decide (parent.epoch < document.epoch)) "runtime_abi_root" =
        .ok document.resultingFrontierManifest.runtimeAbiRoot := by
    have hlaw := hfollows.benchmarkLawRoot
    have habi := hfollows.runtimeAbiRoot
    rcases hadmissible with hnull | ⟨pins, hpinned, hcontext, hsame⟩
    · subst hnull
      have hlaw := Except.ok.inj hlaw
      have habi := Except.ok.inj habi
      exact ⟨none, rfl, fun _ h => (nomatch h), fun _ h => (nomatch h),
        replayLawPin_none.mpr ⟨hlaw.symm, hlaw.symm⟩, replayLawPin_none.mpr ⟨habi.symm, habi.symm⟩⟩
    · obtain ⟨hgetEpoch, -, hgetLaw, hgetAbi⟩ := readEpochPins_some.mp hpinned
      have hlaw := Except.ok.inj (hlaw.symm.trans (adoptOrCarry_of_get hgetLaw))
      have habi := Except.ok.inj (habi.symm.trans (adoptOrCarry_of_get hgetAbi))
      have hepochs : pins.epoch = document.epoch := by
        rcases hnames with rfl | ⟨-, hnames⟩
        · exact nomatch hgetEpoch
        · exact epochJson_injective (hgetEpoch.symm.trans hnames)
      have hlawSame : parent.benchmarkLawRoot = pins.benchmarkLawRoot ∨
          decide (parent.epoch < document.epoch) = true :=
        hsame.elim (fun h => .inr (decide_eq_true h)) fun h => .inl h.1.symm
      have habiSame : parent.runtimeAbiRoot = pins.runtimeAbiRoot ∨
          decide (parent.epoch < document.epoch) = true :=
        hsame.elim (fun h => .inr (decide_eq_true h)) fun h => .inl h.2.symm
      refine ⟨some pins, hpinned, ?_, ?_, replayLawPin_some.mpr ⟨hlaw, hlawSame, hlaw⟩,
        replayLawPin_some.mpr ⟨habi, habiSame, habi⟩⟩
      · intro _ h
        cases h
        exact hepochs
      · intro _ h
        cases h
        exact hcontext
  obtain ⟨pinned, hpinned, hpinnedEpoch, hpinnedContext, hlaw, habi⟩ := hpins
  exact replayTransitionArtifact_eq_ok.mpr ⟨document, parent, _, pinned, hvalid, hparent, hroot,
    hpinned, hself, hparentState, hpinnedEpoch, hpinnedContext, hedge.closureDeclared, hreleases,
    hepoch, hlaw, habi, rfl, rfl, rfl, hnewRoot, hmoves⟩

/-! ### Agreement -/

/-- The engines agree on an edge: replay of the artifact accepts exactly when application
of the transition yields the stated child, and they return one manifest. -/
def EnginesAgree (parentManifest artifact : Json) (componentReferences : ComponentReferences)
    (epochPins : Json) (document : TransitionArtifact) (p : ProfileId) (move : ReleaseMove) : Prop :=
  ((∃ child, replayTransitionArtifact parentManifest artifact componentReferences epochPins =
      .ok child) ↔
    applyTransition parentManifest (document.transition p move).json (epochJson document.epoch)
      epochPins = .ok document.resultingFrontierManifest) ∧
  ∀ child child',
    replayTransitionArtifact parentManifest artifact componentReferences epochPins = .ok child →
    applyTransition parentManifest (document.transition p move).json (epochJson document.epoch)
      epochPins = .ok child' → child = child'

/-- The engines agree exactly when the pins of an edge whose child the artifact states are
admissible just if the edge moves both roots, and the pins of an edge with whose child the
artifact's collides are not admissible. -/
theorem replayTransitionArtifact_agrees_iff
    (hparent : validateManifest parentManifest.val = .ok parent)
    (hdocument : checkTransitionArtifactSelfConsistency artifact = .ok document)
    (hedge : SingleEdge document p move) (hepoch : parent.epoch ≤ document.epoch)
    (hnames : NamesEpoch epochPins document.epoch) :
    EnginesAgree parentManifest.val artifact componentReferences epochPins document p move ↔
      (StatesEdge parent document epochPins p move →
        (PinsAdmissible parent document epochPins ↔ MovesEdge parent document move)) ∧
      (CollidesWithEdge parent document epochPins p move →
        ¬ PinsAdmissible parent document epochPins) := by
  obtain ⟨hvalid, hself⟩ := checkTransitionArtifactSelfConsistency_eq_ok.mp hdocument
  have happly : applyTransition parentManifest.val (document.transition p move).json
      (epochJson document.epoch) epochPins = .ok document.resultingFrontierManifest ↔
      StatesEdge parent document epochPins p move ∧ MovesEdge parent document move :=
    applyTransition_iff hparent hself hepoch
  -- the stated root is the edge's when the artifact states the edge or collides with it
  have hreplay : (∃ child, replayTransitionArtifact parentManifest.val artifact
      componentReferences epochPins = .ok child) ↔
      (StatesEdge parent document epochPins p move ∨
        CollidesWithEdge parent document epochPins p move) ∧
        PinsAdmissible parent document epochPins := by
    constructor
    · intro ⟨child, h⟩
      obtain ⟨-, hfollows, hadmissible, hnewRoot⟩ :=
        replayTransitionArtifact_single_inv hparent hvalid hedge h
      by_cases hprofiles : document.resultingFrontierManifest.profiles = profilesAfter parent p move
      · exact ⟨.inl ⟨hfollows, hprofiles⟩, hadmissible⟩
      · have hcollide := sha256_eq_of_sha256Hex (hnewRoot.trans hself.newRoot.symm)
        exact ⟨.inr ⟨hfollows, hprofiles, hcollide⟩, hadmissible⟩
    · intro ⟨hedges, hadmissible⟩
      rcases hedges with ⟨hfollows, hprofiles⟩ | ⟨hfollows, -, hcollide⟩
      · have hchild := (hfollows.eq_edgeChild hself).mpr hprofiles
        exact ⟨_, replayTransitionArtifact_single hparent hvalid hself hedge hepoch hnames hfollows
          hadmissible (hchild ▸ hself.newRoot)⟩
      · have hroots : sha256Hex (document.edgeChild parent p move).bytes =
            sha256Hex document.resultingFrontierManifest.bytes :=
          Root.ext (congrArg hexText hcollide)
        exact ⟨_, replayTransitionArtifact_single hparent hvalid hself hedge hepoch hnames hfollows
          hadmissible (hroots.trans hself.newRoot)⟩
  have hsame : ∀ child child',
      replayTransitionArtifact parentManifest.val artifact componentReferences epochPins =
        .ok child →
      applyTransition parentManifest.val (document.transition p move).json
        (epochJson document.epoch) epochPins = .ok child' → child = child' := by
    intro child child' hchild hchild'
    obtain ⟨heq, hfollows, -, -⟩ :=
      replayTransitionArtifact_single_inv hparent hvalid hedge hchild
    obtain ⟨-, -, -, -, law, abi, hlaw, habi, heq'⟩ :=
      (applyTransition_eq_ok parentManifest.property hparent).mp hchild'
    cases hlaw.symm.trans hfollows.benchmarkLawRoot
    cases habi.symm.trans hfollows.runtimeAbiRoot
    rw [heq, heq']
    rfl
  rw [EnginesAgree, hreplay, happly]
  constructor
  · intro ⟨hagree, _⟩
    refine ⟨fun hstates => ⟨fun hadmissible => ?_, fun hmoves => ?_⟩, fun hcollides hadmissible => ?_⟩
    · exact (hagree.mp ⟨.inl hstates, hadmissible⟩).2
    · exact (hagree.mpr ⟨hstates, hmoves⟩).2
    · exact hcollides.2.1 (hagree.mp ⟨.inr hcollides, hadmissible⟩).1.2
  · intro ⟨hstated, hcollided⟩
    refine ⟨⟨?_, ?_⟩, hsame⟩
    · intro ⟨hedges, hadmissible⟩
      rcases hedges with hstates | hcollides
      · exact ⟨hstates, (hstated hstates).mp hadmissible⟩
      · exact absurd hadmissible (hcollided hcollides)
    · intro ⟨hstates, hmoves⟩
      exact ⟨.inl hstates, (hstated hstates).mpr hmoves⟩

end Engines

/-! ### Sample edges -/

/-- The move of a sample edge. -/
def convPrefMove (release : Root) : ReleaseMove where
  expectedPriorReleaseRoot := launchManifest.profiles .convPref
  hooks := [.rank]
  newReleaseRoot := release

/-- The child of an edge that replaces the release and keeps the composition. -/
theorem isHexDigit_six : isHexDigit 54 = true :=
  rfl

def keptComposition : Manifest :=
  convPrefChild launchManifest.defaultCompositionRoot (repeatedRoot 54 isHexDigit_six)

def keptCompositionRoot : Root where
  hex := py "d937ed1c7b6b31665712680d38185f02b95777be900903528baa88df525a5771"
  wellFormed := by decide +kernel

/-- An artifact read as a sample edge. -/
def IsSample (composition release : Root) (document : TransitionArtifact) : Prop :=
  document.epoch = 5 ∧ document.resultingCompositionRoot = composition ∧
    document.profileReleases = [(.convPref, convPrefMove release)] ∧
    document.affectedProfiles.val = [py "conv.pref.v1"] ∧ document.sharedComponents.val = [] ∧
    document.resultingFrontierManifest = convPrefChild composition release

instance (composition release : Root) (document : TransitionArtifact) :
    Decidable (IsSample composition release document) :=
  inferInstanceAs (Decidable (_ ∧ _ ∧ _ ∧ _ ∧ _ ∧ _))

theorem sample_document {artifact : Json} {composition release : Root}
    (h : (checkTransitionArtifactSelfConsistency artifact).toOption.any
      (fun document => decide (IsSample composition release document)) = true) :
    ∃ document, checkTransitionArtifactSelfConsistency artifact = .ok document ∧
      IsSample composition release document := by
  obtain ⟨document, hdocument, hsample⟩ := (Option.any_eq_true _ _).mp h
  exact ⟨document, toOption_eq_some.mp hdocument, of_decide_eq_true hsample⟩

section Sample

variable {document : TransitionArtifact} {composition release : Root}

theorem IsSample.singleEdge (h : IsSample composition release document) :
    SingleEdge document .convPref (convPrefMove release) :=
  ⟨h.2.2.1, h.2.2.2.1, h.2.2.2.2.1⟩

theorem IsSample.epoch_le (h : IsSample composition release document) :
    launchManifest.epoch ≤ document.epoch := by
  rw [h.1]
  decide

theorem sha256Hex_launchManifest : sha256Hex launchManifest.bytes = launchRoot := by
  decide +kernel

/-- A sample edge starts from the sample parent, under no pins. -/
theorem IsSample.followsEdge (h : IsSample composition release document) :
    FollowsEdge launchManifest document .null .convPref (convPrefMove release) := by
  obtain ⟨-, -, -, -, -, hmanifest⟩ := h
  constructor
  case prior => rfl
  case parentRoot => rw [hmanifest, sha256Hex_launchManifest]; rfl
  all_goals rw [hmanifest]; rfl

theorem IsSample.edgeChild (h : IsSample composition release document) :
    document.edgeChild launchManifest .convPref (convPrefMove release) =
      convPrefChild composition release := by
  obtain ⟨hepoch, hcomposition, -, -, -, hmanifest⟩ := h
  refine Manifest.ext ?_ hcomposition hepoch sha256Hex_launchManifest rfl ?_
  · show document.resultingFrontierManifest.benchmarkLawRoot = _
    rw [hmanifest]
  · show document.resultingFrontierManifest.runtimeAbiRoot = _
    rw [hmanifest]

theorem IsSample.profiles (h : IsSample composition release document) :
    document.resultingFrontierManifest.profiles =
      profilesAfter launchManifest .convPref (convPrefMove release) :=
  congrArg Manifest.profiles h.2.2.2.2.2

end Sample

/-- `replayTransitionArtifact_agrees_iff` on an edge that moves both roots: they agree. -/
theorem replayTransitionArtifact_agrees_convPref :
    ∃ document, checkTransitionArtifactSelfConsistency
        (convPrefArtifact advancedManifest advancedRoot) = .ok document ∧
      EnginesAgree launchManifest.json (convPrefArtifact advancedManifest advancedRoot) none .null
        document .convPref (convPrefMove (repeatedRoot 54 rfl)) := by
  have hrun : (checkTransitionArtifactSelfConsistency
      (convPrefArtifact advancedManifest advancedRoot)).toOption.any (fun document =>
        decide (IsSample (repeatedRoot 53 rfl) (repeatedRoot 54 rfl) document)) = true := by
    decide +kernel
  obtain ⟨document, hdocument, hsample⟩ := sample_document hrun
  have hlaunch : validateManifest launchDocument.val = .ok launchManifest :=
    validateManifest_json launchManifest
  refine ⟨document, hdocument, (replayTransitionArtifact_agrees_iff hlaunch hdocument
    hsample.singleEdge hsample.epoch_le (.inl rfl)).mpr ⟨fun _ => ?_, fun hcollides => ?_⟩⟩
  · refine ⟨fun _ => ⟨by decide +kernel, ?_⟩, fun _ => .inl rfl⟩
    rw [hsample.2.1]
    decide +kernel
  · exact absurd hsample.profiles hcollides.2.1

/-- Replay accepts an edge that keeps the parent's composition, and application refuses the
same edge. -/
theorem replayTransitionArtifact_keptComposition :
    ∃ document, checkTransitionArtifactSelfConsistency
        (convPrefArtifact keptComposition keptCompositionRoot) = .ok document ∧
      SingleEdge document .convPref (convPrefMove (repeatedRoot 54 rfl)) ∧
      launchManifest.epoch ≤ document.epoch ∧
      (∃ child, replayTransitionArtifact launchManifest.json
        (convPrefArtifact keptComposition keptCompositionRoot) none .null = .ok child) ∧
      applyTransition launchManifest.json
        (document.transition .convPref (convPrefMove (repeatedRoot 54 rfl))).json
        (epochJson document.epoch) .null ≠ .ok document.resultingFrontierManifest := by
  have hrun : (checkTransitionArtifactSelfConsistency
      (convPrefArtifact keptComposition keptCompositionRoot)).toOption.any (fun document =>
        decide (IsSample launchManifest.defaultCompositionRoot (repeatedRoot 54 rfl) document)) =
      true := by
    decide +kernel
  obtain ⟨document, hdocument, hsample⟩ := sample_document hrun
  obtain ⟨hvalid, hself⟩ := checkTransitionArtifactSelfConsistency_eq_ok.mp hdocument
  have hlaunch : validateManifest launchDocument.val = .ok launchManifest :=
    validateManifest_json launchManifest
  have hnewRoot : sha256Hex (document.edgeChild launchManifest .convPref
      (convPrefMove (repeatedRoot 54 rfl))).bytes = document.newStateRoot := by
    rw [hsample.edgeChild, ← hsample.2.2.2.2.2, hself.newRoot]
  refine ⟨document, hdocument, hsample.singleEdge, hsample.epoch_le, ⟨_,
    replayTransitionArtifact_single hlaunch hvalid hself hsample.singleEdge hsample.epoch_le
      (.inl rfl) hsample.followsEdge (.inl rfl) hnewRoot⟩, fun happly => ?_⟩
  obtain ⟨-, -, hcomposition⟩ := (applyTransition_iff hlaunch hself hsample.epoch_le).mp happly
  exact hcomposition hsample.2.1

end CoreTex
