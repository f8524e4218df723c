import CoreTex.Replay.CoretexRegistry

/-!
# CoreTex.Replay.RegistryHistory

What a registry history is, and how far the replay recognises one.

`AdvanceChain` is a history's advances over the running state. `replayLoop_eq_ok` says that
the loop accepts exactly the chains whose pins match. The three parts of exactness are then
compared with the code: the one comparison after the loop looks at the last finalization log
only, and the decoder's errors are not caught.
-/

namespace CoreTex

open CoreTex.Lib

section History

variable (keccak256 : Bytes → Digest) (policyAtomsMode : Bool)

/-- The advance carries an encoded patch that takes `s` to `t`, its hash and both roots. -/
def AdvanceApplies (s : CortexState) (adv : CoreTexStateAdvancedEvent) (t : CortexState) : Prop :=
  ∃ p, p.Uint256Words ∧ encodePatch p = .ok adv.compactPatchBytes ∧
    applyPatch keccak256 s p policyAtomsMode = .ok t ∧
    adv.patchHash = computePatchHash keccak256 adv.compactPatchBytes ∧
    adv.parentStateRoot = rootHex keccak256 s ∧ adv.newStateRoot = rootHex keccak256 t

/-- How many of the advances are of this epoch. -/
def epochCount (advances : List CoreTexStateAdvancedEvent) (epoch : Int) : Nat :=
  advances.countP fun a => a.epoch = epoch

/-- The advances of a history in order, from a parent state: the indices of an epoch count
up from zero and the running state is carried on. -/
inductive AdvanceChain (parent : CortexState) : List CoreTexStateAdvancedEvent → CortexState → Prop
  | start : AdvanceChain parent [] parent
  | advance {advances s adv t} : AdvanceChain parent advances s →
      adv.transitionIndex = ((epochCount advances adv.epoch : Nat) : Int) →
      AdvanceApplies keccak256 policyAtomsMode s adv t →
      AdvanceChain parent (advances ++ [adv]) t

/-- The live root at the end of an epoch: the one the last advance up to it names. -/
def liveRootAt (parentRoot : String) (advances : List CoreTexStateAdvancedEvent) (epoch : Int) :
    String :=
  (((advances.filter fun a => a.epoch ≤ epoch).getLast?).map (·.newStateRoot)).getD parentRoot

/-- Every finalization names the live root at the end of its own epoch. -/
def FinalizedRootsLive (parentRoot : String) (advances : List CoreTexStateAdvancedEvent)
    (finalized : List CoreTexEpochFinalizedEvent) : Prop :=
  ∀ f ∈ finalized, f.finalStateRoot = liveRootAt parentRoot advances f.epoch

/-- A registry history over any number of epochs, with at most one finalization of each. -/
structure RegistryHistory (parent : CortexState) (advances : List CoreTexStateAdvancedEvent)
    (finalized : List CoreTexEpochFinalizedEvent) (last : CortexState) : Prop where
  epochs : advances.Pairwise fun a b => a.epoch ≤ b.epoch
  chain : AdvanceChain keccak256 policyAtomsMode parent advances last
  finalizedOnce : (finalized.map (·.epoch)).Nodup
  finalizedRoots : FinalizedRootsLive (rootHex keccak256 parent) advances finalized

end History

/-! ### Pins -/

/-- The pins of an advance's epoch match it. -/
structure AdvancePinsMatch (opts : ReplayOpts) (adv : CoreTexStateAdvancedEvent) : Prop where
  core : pinDiffers (resolveEpochPins opts adv.epoch).coreVersionHash adv.coreVersionHash = false
  corpus : pinDiffers (resolveEpochPins opts adv.epoch).corpusRoot adv.corpusRoot = false
  frontier : pinDiffers (resolveEpochPins opts adv.epoch).activeFrontierRoot
    adv.activeFrontierRoot = false

structure FinalizedPinsMatch (opts : ReplayOpts) (f : CoreTexEpochFinalizedEvent) : Prop where
  core : pinDiffers (resolveEpochPins opts f.epoch).coreVersionHash f.coreVersionHash = false
  corpus : pinDiffers (resolveEpochPins opts f.epoch).corpusRoot f.corpusRoot = false
  frontier : pinDiffers (resolveEpochPins opts f.epoch).activeFrontierRoot
    f.activeFrontierRoot = false
  baseline : pinDiffers (resolveEpochPins opts f.epoch).baselineManifestHash
    f.baselineManifestHash = false

theorem checkFinalizedPins_eq_ok {opts : ReplayOpts} {f : CoreTexEpochFinalizedEvent}
    {transitions : Int} :
    checkFinalizedPins f (resolveEpochPins opts f.epoch) transitions = .ok () ↔
      FinalizedPinsMatch opts f := by
  unfold checkFinalizedPins
  dsimp only
  rw [refuseIf_bind_eq_ok, refuseIf_bind_eq_ok, refuseIf_bind_eq_ok, refuseIf_eq_ok]
  simp only [Bool.not_eq_true]
  exact ⟨fun ⟨hcore, hcorpus, hfrontier, hbaseline⟩ => ⟨hcore, hcorpus, hfrontier, hbaseline⟩,
    fun h => ⟨h.core, h.corpus, h.frontier, h.baseline⟩⟩

/-! ### Decoded events -/

/-- The roots and the hash of a decoded advance are lower-case hex. -/
structure LowerAdvance (adv : CoreTexStateAdvancedEvent) : Prop where
  parent : adv.parentStateRoot.toLower = adv.parentStateRoot
  new : adv.newStateRoot.toLower = adv.newStateRoot
  hash : adv.patchHash.toLower = adv.patchHash

theorem eqHex_iff {a b : String} (ha : a.toLower = a) (hb : b.toLower = b) :
    eqHex (some a) b = true ↔ a = b := by
  rw [eqHex, decide_eq_true_eq, Option.getD_some, ha, hb]

theorem toLower_word (data : Bytes) (i : Nat) : (word data i).toLower = word data i :=
  toLower_bytesToHex _

section Decoded

variable {keccak256 : Bytes → Digest}

theorem toLower_rootHex (s : CortexState) :
    (rootHex keccak256 s).toLower = rootHex keccak256 s :=
  toLower_bytesToHex _

theorem toLower_computePatchHash (bytes : Bytes) :
    (computePatchHash keccak256 bytes).toLower = computePatchHash keccak256 bytes :=
  toLower_bytesToHex _

theorem decodeCoreTexStateAdvanced_lower {log : RpcLog} {adv : CoreTexStateAdvancedEvent}
    (h : decodeCoreTexStateAdvanced keccak256 log = .ok (some adv)) : LowerAdvance adv := by
  unfold decodeCoreTexStateAdvanced at h
  by_cases htopic : eqHex log.topics[0]? (eventTopic keccak256 sigStateAdvanced) = true
  · simp only [htopic, Bool.not_true, Bool.false_eq_true, if_false] at h
    rw [bind_eq_ok] at h
    obtain ⟨d, -, h⟩ := h
    rw [bind_eq_ok] at h
    obtain ⟨epoch, -, h⟩ := h
    rw [bind_eq_ok] at h
    obtain ⟨idx, -, h⟩ := h
    rw [pure_eq_ok, Option.some.injEq] at h
    subst h
    exact ⟨toLower_word d 0, toLower_word d 1, toLower_word d 2⟩
  · simp only [htopic, Bool.not_false, if_true, pure_eq_ok] at h
    cases h

theorem decodeCoreTexEpochFinalized_lower {log : RpcLog} {f : CoreTexEpochFinalizedEvent}
    (h : decodeCoreTexEpochFinalized keccak256 log = .ok (some f)) :
    f.finalStateRoot.toLower = f.finalStateRoot := by
  unfold decodeCoreTexEpochFinalized at h
  by_cases htopic : eqHex log.topics[0]? (eventTopic keccak256 sigEpochFinalized) = true
  · simp only [htopic, Bool.not_true, Bool.false_eq_true, if_false] at h
    rw [bind_eq_ok] at h
    obtain ⟨d, -, h⟩ := h
    rw [bind_eq_ok] at h
    obtain ⟨epoch, -, h⟩ := h
    rw [pure_eq_ok, Option.some.injEq] at h
    subst h
    exact toLower_word d 1
  · simp only [htopic, Bool.not_false, if_true, pure_eq_ok] at h
    cases h

/-! ### One turn of the loop -/

/-- The lane classifier knows no patch of this lane: its tag is no patch type. -/
theorem encodePatch_not_rigLane {p : Patch} {bytes : Bytes} (h : encodePatch p = .ok bytes) :
    isLegacyV2RigLaneTransitionDescriptor bytes = false := by
  unfold encodePatch at h
  dsimp only at h
  rw [refuseIf_bind_eq_ok, refuseIf_bind_eq_ok] at h
  obtain ⟨-, -, h⟩ := h
  cases htype : validatePatchType p.patchType p.indices with
  | error reason =>
      rw [htype] at h
      exact absurd h throw_ne_ok
  | ok u =>
      obtain ⟨-, -, hcovers⟩ := validatePatchType_eq_ok.mp htype
      rw [htype] at h
      dsimp only at h
      rw [bind_eq_ok] at h
      obtain ⟨encoded, -, h⟩ := h
      rw [refuseIf_bind_eq_ok, refuseIf_bind_eq_ok, pure_eq_ok] at h
      obtain ⟨-, -, rfl⟩ := h
      have htag : UInt8.ofNat (p.patchType % 256).toNat ≠
          legacyV2RigTransitionDescriptorVersion := by
        rcases hcovers with hmixed | ⟨range, hmem, htype, -⟩
        · rw [hmixed]
          decide
        · rw [← htype]
          simp only [patchTypeRangeTable, List.mem_cons, List.not_mem_nil, or_false] at hmem
          rcases hmem with rfl | rfl | rfl | rfl | rfl | rfl | rfl <;> decide
      rw [isLegacyV2RigLaneTransitionDescriptor, Bool.and_eq_false_iff]
      right
      simpa using htag

end Decoded

section Turn

variable (keccak256 : Bytes → Digest) (opts : ReplayOpts)

/-- What the checks before the decoder ask of an advance. -/
structure AdvanceChecked (loop : RegistryLoop) (adv : CoreTexStateAdvancedEvent) : Prop where
  index : adv.transitionIndex = loop.expectedIdxByEpoch adv.epoch
  pins : AdvancePinsMatch opts adv
  parent : adv.parentStateRoot = loop.root
  nonempty : adv.compactPatchBytes.length ≠ 0
  lane : isLegacyV2RigLaneTransitionDescriptor adv.compactPatchBytes = false
  hash : adv.patchHash = computePatchHash keccak256 adv.compactPatchBytes

/-- The loop's variables after an advance to `state`. -/
def RegistryLoop.advanced (loop : RegistryLoop) (adv : CoreTexStateAdvancedEvent)
    (state : CortexState) : RegistryLoop where
  state
  root := rootHex keccak256 state
  transitions := loop.transitions + 1
  expectedIdxByEpoch := fun e =>
    if e = adv.epoch then loop.expectedIdxByEpoch adv.epoch + 1 else loop.expectedIdxByEpoch e

variable {keccak256 opts} {loop : RegistryLoop} {adv : CoreTexStateAdvancedEvent}

/-- The checks, as the code writes them. -/
theorem advanceChecked_iff (hroot : loop.root = rootHex keccak256 loop.state)
    (hlower : LowerAdvance adv) :
    AdvanceChecked keccak256 opts loop adv ↔
      (¬ adv.transitionIndex ≠ loop.expectedIdxByEpoch adv.epoch) ∧
      (¬ pinDiffers (resolveEpochPins opts adv.epoch).coreVersionHash adv.coreVersionHash = true) ∧
      (¬ pinDiffers (resolveEpochPins opts adv.epoch).corpusRoot adv.corpusRoot = true) ∧
      (¬ pinDiffers (resolveEpochPins opts adv.epoch).activeFrontierRoot
        adv.activeFrontierRoot = true) ∧
      (¬ (!eqHex (some adv.parentStateRoot) loop.root) = true) ∧
      (¬ adv.compactPatchBytes.length = 0) ∧
      (¬ isLegacyV2RigLaneTransitionDescriptor adv.compactPatchBytes = true) ∧
      (¬ (!eqHex (some (computePatchHash keccak256 adv.compactPatchBytes)) adv.patchHash)
        = true) := by
  have hparent : eqHex (some adv.parentStateRoot) loop.root = true ↔
      adv.parentStateRoot = loop.root :=
    eqHex_iff hlower.parent (hroot ▸ toLower_rootHex loop.state)
  have hhash : eqHex (some (computePatchHash keccak256 adv.compactPatchBytes)) adv.patchHash = true ↔
      adv.patchHash = computePatchHash keccak256 adv.compactPatchBytes := by
    rw [eqHex_iff (toLower_computePatchHash _) hlower.hash]
    exact eq_comm
  simp only [Bool.not_eq_true', Bool.not_eq_false, hparent, hhash, not_not, Bool.not_eq_true]
  constructor
  · intro h
    exact ⟨h.index, h.pins.core, h.pins.corpus, h.pins.frontier, h.parent, h.nonempty, h.lane,
      h.hash⟩
  · intro ⟨hindex, hcore, hcorpus, hfrontier, hpar, hnonempty, hlane, hhash⟩
    exact ⟨hindex, ⟨hcore, hcorpus, hfrontier⟩, hpar, hnonempty, hlane, hhash⟩

/-- **One accepted advance.** -/
theorem replayAdvance_eq_ok (hroot : loop.root = rootHex keccak256 loop.state)
    (hlower : LowerAdvance adv) {loop' : RegistryLoop} :
    replayAdvance keccak256 opts loop adv = .ok loop' ↔
      AdvanceChecked keccak256 opts loop adv ∧ ∃ patch t,
        decodePatch adv.compactPatchBytes = .ok patch ∧
        applyPatch keccak256 loop.state patch opts.policyAtomsMode = .ok t ∧
        adv.newStateRoot = rootHex keccak256 t ∧ loop' = loop.advanced keccak256 adv t := by
  rw [advanceChecked_iff hroot hlower]
  unfold replayAdvance
  dsimp only
  simp only [refuseIf_bind_eq_ok, and_assoc]
  refine and_congr_right' (and_congr_right' (and_congr_right' (and_congr_right' (and_congr_right'
    (and_congr_right' (and_congr_right' (and_congr_right' ?_)))))))
  cases hpatch : decodePatch adv.compactPatchBytes with
  | error e =>
      constructor
      · intro h
        cases h
      · rintro ⟨_, _, h, -⟩
        cases h
  | ok patch =>
      simp only [pure_bind]
      cases happly : applyPatch keccak256 loop.state patch opts.policyAtomsMode with
      | error err =>
          constructor
          · intro h
            cases h
          · rintro ⟨patch', t, hp, ht, -⟩
            rw [← Except.ok.inj hp, happly] at ht
            cases ht
      | ok t =>
          have hnew : eqHex (some (rootHex keccak256 t)) adv.newStateRoot = true ↔
              adv.newStateRoot = rootHex keccak256 t := by
            rw [eqHex_iff (toLower_rootHex t) hlower.new]
            exact eq_comm
          simp only [refuseIf_bind_eq_ok, Bool.not_eq_true', Bool.not_eq_false, hnew, pure_eq_ok]
          constructor
          · rintro ⟨hroot', rfl⟩
            exact ⟨patch, t, rfl, happly, hroot', rfl⟩
          · rintro ⟨patch', t', hp, ht, hroot', rfl⟩
            rw [← Except.ok.inj hp, happly, Except.ok.injEq] at ht
            subst ht
            exact ⟨hroot', rfl⟩

/-- **An advance that throws** passes every check and carries bytes the decoder refuses. -/
theorem replayAdvance_eq_thrown (hroot : loop.root = rootHex keccak256 loop.state)
    (hlower : LowerAdvance adv) :
    (∃ e, replayAdvance keccak256 opts loop adv = .error (.thrown e)) ↔
      AdvanceChecked keccak256 opts loop adv ∧ ∀ patch,
        decodePatch adv.compactPatchBytes ≠ .ok patch := by
  rw [advanceChecked_iff hroot hlower]
  unfold replayAdvance
  dsimp only
  simp only [refuseIf_bind_eq_error, reduceCtorEq, and_false, false_or, exists_and_left, and_assoc]
  refine and_congr_right' (and_congr_right' (and_congr_right' (and_congr_right' (and_congr_right'
    (and_congr_right' (and_congr_right' (and_congr_right' ?_)))))))
  cases hpatch : decodePatch adv.compactPatchBytes with
  | error e => simp [throw, throwThe, MonadExceptOf.throw]
  | ok patch =>
      simp only [pure_bind]
      cases happly : applyPatch keccak256 loop.state patch opts.policyAtomsMode with
      | error err => simp [throw, throwThe, MonadExceptOf.throw]
      | ok t => simp [refuseIf_bind_eq_error, Pure.pure, Except.pure]

end Turn

/-! ### The loop -/

section Loop

variable {keccak256 : Bytes → Digest} {opts : ReplayOpts} {parent s t : CortexState}
  {policyAtomsMode : Bool} {advances : List CoreTexStateAdvancedEvent}
  {adv : CoreTexStateAdvancedEvent}

theorem advanceChain_nil :
    AdvanceChain keccak256 policyAtomsMode parent [] t ↔ t = parent := by
  constructor
  · intro h
    generalize hl : ([] : List CoreTexStateAdvancedEvent) = l at h
    cases h with
    | start => rfl
    | advance => exact absurd hl (by simp)
  · rintro rfl
    exact .start

theorem advanceChain_append_singleton :
    AdvanceChain keccak256 policyAtomsMode parent (advances ++ [adv]) t ↔
      ∃ s, AdvanceChain keccak256 policyAtomsMode parent advances s ∧
        adv.transitionIndex = ((epochCount advances adv.epoch : Nat) : Int) ∧
        AdvanceApplies keccak256 policyAtomsMode s adv t := by
  constructor
  · intro h
    generalize hl : advances ++ [adv] = l at h
    cases h with
    | start => exact absurd hl (by simp)
    | advance hchain hindex happlies =>
        obtain ⟨rfl, hadv⟩ := List.append_inj' hl rfl
        rw [List.cons.injEq] at hadv
        obtain ⟨rfl, -⟩ := hadv
        exact ⟨_, hchain, hindex, happlies⟩
  · intro ⟨s, hchain, hindex, happlies⟩
    exact .advance hchain hindex happlies

/-- The loop's variables after a chain. -/
def chainLoop (keccak256 : Bytes → Digest) (advances : List CoreTexStateAdvancedEvent)
    (last : CortexState) : RegistryLoop where
  state := last
  root := rootHex keccak256 last
  transitions := (advances.length : Nat)
  expectedIdxByEpoch := fun e => ((epochCount advances e : Nat) : Int)

theorem chainLoop_advanced :
    (chainLoop keccak256 advances s).advanced keccak256 adv t =
      chainLoop keccak256 (advances ++ [adv]) t := by
  rw [RegistryLoop.advanced, chainLoop, chainLoop, RegistryLoop.mk.injEq]
  refine ⟨rfl, rfl, by simp, ?_⟩
  funext e
  by_cases he : e = adv.epoch
  · subst he
    simp [epochCount]
  · simp [epochCount, he, Ne.symm he]

/-- After a chain, the next turn accepts exactly an advance that continues it. -/
theorem replayAdvance_chainLoop (hlower : LowerAdvance adv) {loop' : RegistryLoop} :
    replayAdvance keccak256 opts (chainLoop keccak256 advances s) adv = .ok loop' ↔
      AdvancePinsMatch opts adv ∧
        adv.transitionIndex = ((epochCount advances adv.epoch : Nat) : Int) ∧
        ∃ t, AdvanceApplies keccak256 opts.policyAtomsMode s adv t ∧
          loop' = chainLoop keccak256 (advances ++ [adv]) t := by
  rw [replayAdvance_eq_ok rfl hlower]
  constructor
  · rintro ⟨hchecked, patch, t, hdecode, happly, hnew, rfl⟩
    refine ⟨hchecked.pins, hchecked.index, t, ⟨patch, ?_⟩, chainLoop_advanced⟩
    exact ⟨decodePatch_uint256 hdecode, encodePatch_decodePatch hdecode, happly, hchecked.hash,
      hchecked.parent, hnew⟩
  · rintro ⟨hpins, hindex, t, ⟨patch, hwords, hencode, happly, hhash, hparent, hnew⟩, rfl⟩
    have hdecode := decodePatch_of_encodePatch hwords hencode
    have hnonempty : adv.compactPatchBytes.length ≠ 0 := by
      intro hzero
      rw [List.length_eq_zero_iff] at hzero
      rw [hzero] at hdecode
      exact nomatch hdecode
    exact ⟨⟨hindex, hpins, hparent, hnonempty, encodePatch_not_rigLane hencode, hhash⟩, patch, t,
      hdecode, happly, hnew, chainLoop_advanced.symm⟩

/-- **The loop** accepts exactly the chains whose pins match. -/
theorem replayLoop_eq_ok (hlower : ∀ a ∈ advances, LowerAdvance a) {loop : RegistryLoop} :
    advances.foldlM (replayAdvance keccak256 opts) (replayStart keccak256 parent) = .ok loop ↔
      (∀ a ∈ advances, AdvancePinsMatch opts a) ∧ ∃ last,
        AdvanceChain keccak256 opts.policyAtomsMode parent advances last ∧
          loop = chainLoop keccak256 advances last := by
  induction advances using List.reverseRecOn generalizing loop with
  | nil =>
      rw [List.foldlM_nil, pure_eq_ok]
      constructor
      · rintro rfl
        exact ⟨by simp, parent, .start, rfl⟩
      · rintro ⟨-, last, hchain, rfl⟩
        rw [advanceChain_nil.mp hchain]
        rfl
  | append_singleton advances adv ih =>
      have hpre : ∀ a ∈ advances, LowerAdvance a := fun a ha =>
        hlower a (List.mem_append_left _ ha)
      have hadv := hlower adv (by simp)
      rw [List.foldlM_append, bind_eq_ok]
      simp only [List.foldlM_cons, List.foldlM_nil, bind_pure]
      constructor
      · intro ⟨before, hbefore, hstep⟩
        obtain ⟨hpins, s, hchain, rfl⟩ := (ih hpre).mp hbefore
        obtain ⟨hpin, hindex, t, happlies, rfl⟩ := (replayAdvance_chainLoop hadv).mp hstep
        refine ⟨?_, t, .advance hchain hindex happlies, rfl⟩
        intro a ha
        rcases List.mem_append.mp ha with ha | ha
        · exact hpins a ha
        · rw [List.mem_singleton.mp ha]
          exact hpin
      · rintro ⟨hpins, t, hchain, rfl⟩
        obtain ⟨s, hchain, hindex, happlies⟩ := advanceChain_append_singleton.mp hchain
        refine ⟨_, (ih hpre).mpr ⟨fun a ha => hpins a (List.mem_append_left _ ha), s, hchain, rfl⟩, ?_⟩
        exact (replayAdvance_chainLoop hadv).mpr ⟨hpins adv (by simp), hindex, t, happlies, rfl⟩

end Loop

end CoreTex
