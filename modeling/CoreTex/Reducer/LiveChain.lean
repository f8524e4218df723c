import CoreTex.Reducer.LiveEpoch
import CoreTex.Reducer.OrderIndependence

/-!
# CoreTex.Reducer.LiveChain

The live lane's roots form a chain over the accepted patches.

`liveStep_cases` says once what a turn of the loop does: it rejects the item and touches
nothing else, or `applyPatch` accepts it on the current state and the cache becomes the
cache of the new state. `LiveInv` is what follows for a whole run, by one induction over
the arrivals (`liveRun_inv`).
-/

namespace CoreTex

open CoreTex.Lib

variable (keccak256 : Bytes → Digest) (toLowerCase : String → String)

/-! ### Valid reward options -/

/-- The reward options under which an advance is always paid: the counter spells a
non-negative integer and the work policy is valid. -/
structure LiveEpochRewardOptions.Valid (rewardOptions : LiveEpochRewardOptions) : Prop where
  counter : ∃ n, liveToBigInt
    (rewardOptions.qualifiedScreenerPassesSinceLastStateAdvance.getD (.bigint 0)) = .ok n ∧ 0 ≤ n
  policy : ∃ u, assertValidCoreTexWorkPolicy
    (rewardOptions.workPolicy.getD defaultCoretexWorkPolicy) = .ok u

/-! ### One turn of the loop -/

/-- The cache updates of a well-formed patch are its word writes. -/
theorem merkleUpdates_writes {p : Patch} (h : p.WellFormed) :
    (merkleUpdates p).map (fun u => (u.index.toNat, u.word)) = p.writes := by
  rw [h.writes_eq, merkleUpdates, List.map_map]
  have hlen : p.indices.length = p.newWords.length := by
    have := h.length_indices
    have := h.length_newWords
    omega
  apply List.ext_getElem
  · simp [hlen]
  · intro i h1 h2
    have hi : i < p.newWords.length := by simpa [hlen] using h1
    simp [hi]

theorem merkleUpdates_mem {p : Patch} {u : MerkleWordUpdate} (h : u ∈ merkleUpdates p) :
    u.index ∈ p.indices := by
  obtain ⟨⟨idx, i⟩, he, rfl⟩ := List.mem_map.mp h
  exact List.fst_mem_of_mem_zipIdx he

/-- After an application the updated cache is the cache of the new state. -/
theorem updateMerkleCache_apply {current t : CortexState} {p : Patch} {policyAtomsMode : Bool}
    (hwf : p.WellFormed) (happly : applyPatchOntoCurrent current p policyAtomsMode = .ok t) :
    updateMerkleCache keccak256 (buildMerkleCache keccak256 current) (merkleUpdates p) =
      .ok (buildMerkleCache keccak256 t) := by
  obtain ⟨hadmits, rfl, -⟩ := applyPatchOntoCurrent_iff.mp happly
  obtain ⟨u, hu⟩ := hadmits.type_ok
  rw [updateMerkleCache_build, merkleUpdates_writes hwf]
  intro v hv
  have := (validatePatchType_inv hu).1 v.index (merkleUpdates_mem hv)
  simp only [Ranges.reservedStart, Ranges.wordCount] at *
  omega

/-- What an advance over `current` to `t` records. -/
structure AdvanceRecords (current t : CortexState) (index : Nat) (item : LiveEpochInputPatch)
    (advance : StateAdvance) : Prop where
  miner_eq : advance.miner = toLowerCase item.miner
  patch_eq : advance.patch = item.patch
  patchBytes_eq : advance.patchBytes = item.patchBytes
  parentStateRoot_eq : advance.parentStateRoot = bytesToHex (merkleizeState keccak256 current).bytes
  newStateRoot_eq : advance.newStateRoot = bytesToHex (merkleizeState keccak256 t).bytes
  advanceIndex_eq : advance.advanceIndex = index

variable {threshold : Int} {rewardOptions : LiveEpochRewardOptions}

/-- A turn of the loop, whatever was rejected before: a rejection that leaves the rest
alone, or an advance by a patch that `applyPatch` accepts on the current state. -/
theorem liveStep_cases (hopts : rewardOptions.Valid) (current : CortexState)
    (advances : List StateAdvance) {item : LiveEpochInputPatch} (hwf : item.patch.WellFormed) :
    (∃ reason, ∀ rejected, liveStep keccak256 toLowerCase threshold rewardOptions
        ⟨current, buildMerkleCache keccak256 current, advances, rejected⟩ item =
          .ok (LiveLoop.reject ⟨current, buildMerkleCache keccak256 current, advances, rejected⟩
            item reason)) ∨
    (∃ t advance, applyPatch keccak256 current item.patch (policyAtomsModeOf rewardOptions) = .ok t ∧
      AdvanceRecords keccak256 toLowerCase current t advances.length item advance ∧
      ∀ rejected, liveStep keccak256 toLowerCase threshold rewardOptions
        ⟨current, buildMerkleCache keccak256 current, advances, rejected⟩ item =
          .ok ⟨t, buildMerkleCache keccak256 t, advances ++ [advance], rejected⟩) := by
  unfold liveStep
  dsimp only
  by_cases hroot : item.patch.parentStateRoot ≠ (buildMerkleCache keccak256 current).root.bytes
  · refine Or.inl ⟨.shared .R03_WRONG_PARENT_ROOT, fun rejected => ?_⟩
    rw [if_pos hroot]
  simp only [if_neg hroot]
  rw [ne_eq, not_not] at hroot
  cases heval : evaluateAndApplyOntoCurrent current item.patch item.marginalEvaluator threshold true
      (policyAtomsModeOf rewardOptions) liveCodes with
  | error reason => exact Or.inl ⟨reason, fun rejected => rfl⟩
  | ok step =>
      obtain ⟨happly, -⟩ := evaluateAndApplyOntoCurrent_inv heval
      obtain ⟨n, hn, hn0⟩ := hopts.counter
      obtain ⟨u, hu⟩ := hopts.policy
      have hcount : 0 ≤ n + (advances.length : Int) := by omega
      obtain ⟨bps, hbps⟩ := computeCoreTexWorkUnitsBps_ok hu hcount
      let advance : StateAdvance :=
        { miner := toLowerCase item.miner
          patch := item.patch
          patchBytes := item.patchBytes
          patchHash := computePatchHash keccak256 item.patchBytes
          parentStateRoot := bytesToHex (merkleizeState keccak256 current).bytes
          newStateRoot := bytesToHex (merkleizeState keccak256 step.state).bytes
          marginalGain := step.marginalGain
          workUnitsBps := bps
          creditUnits := bps
          advanceIndex := advances.length }
      refine Or.inr ⟨step.state, advance, (applyPatch_eq_ok_iff keccak256 hroot).mpr happly,
        ⟨rfl, rfl, rfl, rfl, rfl, rfl⟩, fun rejected => ?_⟩
      dsimp only
      rw [updateMerkleCache_apply keccak256 hwf happly, ok_bind, hn, ok_bind, hbps, ok_bind]
      rfl

/-! ### A whole run -/

/-- Apply patches one after the other, each on the root of the state before it. -/
def applyPatches (policyAtomsMode : Bool) (s : CortexState) (ps : List Patch) : PatchResult :=
  ps.foldlM (fun s p => applyPatch keccak256 s p policyAtomsMode) s

/-- The root hex before advance `i`: the parent's for the first, else the one the advance
before it reached. -/
def rootBefore (parentState : CortexState) (advances : List StateAdvance) : Nat → String
  | 0 => bytesToHex (merkleizeState keccak256 parentState).bytes
  | i + 1 => (advances[i]?.map StateAdvance.newStateRoot).getD ""

/-- The advances are a root chain from `parentState`: numbered from 0, each on the root
the one before it reached, and each reaching the root of the state that `applyPatch`
makes of the patches accepted so far. -/
def RootChain (policyAtomsMode : Bool) (parentState : CortexState) (advances : List StateAdvance) :
    Prop :=
  ∀ i advance, advances[i]? = some advance →
    advance.advanceIndex = i ∧
    advance.parentStateRoot = rootBefore keccak256 parentState advances i ∧
    ∃ s, applyPatches keccak256 policyAtomsMode parentState
        ((advances.take (i + 1)).map StateAdvance.patch) = .ok s ∧
      advance.newStateRoot = bytesToHex (merkleizeState keccak256 s).bytes

/-- The inputs split into those that advanced and those that were rejected, in order. -/
structure Splits (patches acc rej : List LiveEpochInputPatch) (advances : List StateAdvance)
    (rejected : List LiveRejectedPatch) : Prop where
  perm : (acc ++ rej).Perm patches
  acc_sublist : acc.Sublist patches
  rej_sublist : rej.Sublist patches
  advances_eq : advances.map (fun a => (a.miner, a.patch, a.patchBytes)) =
    acc.map fun i => (toLowerCase i.miner, i.patch, i.patchBytes)
  rejected_eq : rejected.map (fun r => (r.miner, r.patch, r.patchBytes)) =
    rej.map fun i => (i.miner, i.patch, i.patchBytes)

/-- What holds of a run over `seen`: the loop it ends in, whatever `acc` alone makes of
the start, and the chain so far. -/
structure LiveInv (threshold : Int) (rewardOptions : LiveEpochRewardOptions)
    (parentState : CortexState) (seen : List LiveEpochInputPatch) (current : CortexState)
    (advances : List StateAdvance) (rejected : List LiveRejectedPatch)
    (acc rej : List LiveEpochInputPatch) : Prop where
  run_eq : liveRun keccak256 toLowerCase parentState threshold rewardOptions seen =
    .ok ⟨current, buildMerkleCache keccak256 current, advances, rejected⟩
  replay_eq : liveRun keccak256 toLowerCase parentState threshold rewardOptions acc =
    .ok ⟨current, buildMerkleCache keccak256 current, advances, []⟩
  splits : Splits toLowerCase seen acc rej advances rejected
  applied : applyPatches keccak256 (policyAtomsModeOf rewardOptions) parentState
    (advances.map StateAdvance.patch) = .ok current
  root_eq : rootBefore keccak256 parentState advances advances.length =
    bytesToHex (merkleizeState keccak256 current).bytes
  chain : RootChain keccak256 (policyAtomsModeOf rewardOptions) parentState advances

/-- A run over one more item is the run, then a turn of the loop. -/
theorem liveRun_append_singleton (parentState : CortexState) (patches : List LiveEpochInputPatch)
    (item : LiveEpochInputPatch) :
    liveRun keccak256 toLowerCase parentState threshold rewardOptions (patches ++ [item]) =
      liveRun keccak256 toLowerCase parentState threshold rewardOptions patches >>= fun loop =>
        liveStep keccak256 toLowerCase threshold rewardOptions loop item := by
  simp [liveRun, List.foldlM_append]

theorem applyPatches_append_singleton (policyAtomsMode : Bool) (s : CortexState) (ps : List Patch)
    (p : Patch) :
    applyPatches keccak256 policyAtomsMode s (ps ++ [p]) =
      applyPatches keccak256 policyAtomsMode s ps >>= fun t =>
        applyPatch keccak256 t p policyAtomsMode := by
  simp [applyPatches, List.foldlM_append]

/-- The root before an advance that is already there does not see a later one. -/
theorem rootBefore_append (parentState : CortexState) {advances : List StateAdvance}
    (advance : StateAdvance) {i : Nat} (hi : i ≤ advances.length) :
    rootBefore keccak256 parentState (advances ++ [advance]) i =
      rootBefore keccak256 parentState advances i := by
  cases i with
  | zero => rfl
  | succ i => rw [rootBefore, rootBefore, List.getElem?_append_left (by omega)]

/-- The chain grows by an advance on the last root. -/
theorem RootChain.append {policyAtomsMode : Bool} {parentState current t : CortexState}
    {advances : List StateAdvance} {item : LiveEpochInputPatch} {advance : StateAdvance}
    (h : RootChain keccak256 policyAtomsMode parentState advances)
    (hroot : rootBefore keccak256 parentState advances advances.length =
      bytesToHex (merkleizeState keccak256 current).bytes)
    (happlied : applyPatches keccak256 policyAtomsMode parentState
      (advances.map StateAdvance.patch) = .ok current)
    (happly : applyPatch keccak256 current item.patch policyAtomsMode = .ok t)
    (hrec : AdvanceRecords keccak256 toLowerCase current t advances.length item advance) :
    RootChain keccak256 policyAtomsMode parentState (advances ++ [advance]) := by
  intro i adv hadv
  by_cases hi : i < advances.length
  · rw [List.getElem?_append_left hi] at hadv
    obtain ⟨hindex, hparent, s, hs, hnew⟩ := h i adv hadv
    rw [rootBefore_append keccak256 parentState advance (Nat.le_of_lt hi),
      List.take_append_of_le_length (by omega)]
    exact ⟨hindex, hparent, s, hs, hnew⟩
  · have hlen := (List.getElem?_eq_some_iff.mp hadv).1
    rw [List.length_append, List.length_singleton] at hlen
    obtain rfl : i = advances.length := by omega
    rw [List.getElem?_concat_length, Option.some.injEq] at hadv
    subst hadv
    rw [rootBefore_append keccak256 parentState advance (Nat.le_refl _), hroot,
      List.take_of_length_le (by simp), List.map_append, List.map_singleton,
      applyPatches_append_singleton, happlied, ok_bind, hrec.patch_eq]
    exact ⟨hrec.advanceIndex_eq, hrec.parentStateRoot_eq, t, happly, hrec.newStateRoot_eq⟩

/-- **The live loop over a whole run.** -/
theorem liveRun_inv (hopts : rewardOptions.Valid) (parentState : CortexState)
    {patches : List LiveEpochInputPatch} (hwf : ∀ item ∈ patches, item.patch.WellFormed) :
    ∃ current advances rejected acc rej, LiveInv keccak256 toLowerCase threshold rewardOptions
      parentState patches current advances rejected acc rej := by
  induction patches using List.reverseRecOn with
  | nil =>
      refine ⟨parentState, [], [], [], [], rfl, rfl, ⟨List.Perm.refl _, List.Sublist.refl _,
        List.Sublist.refl _, rfl, rfl⟩, rfl, rfl, ?_⟩
      intro i advance h
      exact absurd h (by simp)
  | append_singleton patches item ih =>
      obtain ⟨current, advances, rejected, acc, rej, h⟩ :=
        ih fun i hi => hwf i (List.mem_append_left _ hi)
      have hitem := hwf item (List.mem_append_right _ (List.mem_singleton_self item))
      have hsplits := h.splits
      have hcases := @liveStep_cases keccak256 toLowerCase threshold rewardOptions hopts current
        advances item hitem
      rcases hcases with ⟨reason, hstep⟩ | ⟨t, advance, happly, hrec, hstep⟩
      · refine ⟨current, advances, rejected ++ [⟨item.miner, item.patch, item.patchBytes, reason⟩],
          acc, rej ++ [item], ?_, h.replay_eq, ⟨?_, ?_, ?_, ?_, ?_⟩,
          h.applied, h.root_eq, h.chain⟩
        · rw [liveRun_append_singleton, h.run_eq, ok_bind, hstep]
          rfl
        · rw [← List.append_assoc]
          exact hsplits.perm.append_right [item]
        · exact hsplits.acc_sublist.trans (List.sublist_append_left patches [item])
        · exact hsplits.rej_sublist.append (List.Sublist.refl [item])
        · exact hsplits.advances_eq
        · rw [List.map_append, List.map_append, hsplits.rejected_eq]
          rfl
      · refine ⟨t, advances ++ [advance], rejected, acc ++ [item], rej, ?_, ?_,
          ⟨?_, ?_, ?_, ?_, ?_⟩, ?_, ?_, ?_⟩
        · rw [liveRun_append_singleton, h.run_eq, ok_bind, hstep]
        · rw [liveRun_append_singleton, h.replay_eq, ok_bind, hstep]
        · rw [List.append_assoc]
          refine (List.perm_append_comm.append_left acc).trans ?_
          rw [← List.append_assoc]
          exact hsplits.perm.append_right [item]
        · exact hsplits.acc_sublist.append (List.Sublist.refl [item])
        · exact hsplits.rej_sublist.trans (List.sublist_append_left patches [item])
        · rw [List.map_append, List.map_append, hsplits.advances_eq, List.map_singleton,
            List.map_singleton, hrec.miner_eq, hrec.patch_eq, hrec.patchBytes_eq]
        · exact hsplits.rejected_eq
        · rw [List.map_append, List.map_singleton, applyPatches_append_singleton, h.applied,
            ok_bind, hrec.patch_eq, happly]
        · rw [List.length_append, List.length_singleton, rootBefore, List.getElem?_concat_length,
            Option.map_some, Option.getD_some, hrec.newStateRoot_eq]
        · exact h.chain.append keccak256 toLowerCase h.root_eq h.applied happly hrec

/-- **The live lane's root chain.** Under valid reward options the call returns. Its
advances are a root chain from the parent; the final root is that of the final state,
which is what `applyPatch` makes of all accepted patches; every input is in exactly one of
advances and rejected; and the accepted inputs alone give the same advances, state and
roots, with no rejection. -/
theorem advanceEpochState_chain (hopts : rewardOptions.Valid) (parentState : CortexState)
    (threshold : Int) {patches : List LiveEpochInputPatch}
    (hwf : ∀ item ∈ patches, item.patch.WellFormed) :
    ∃ out acc rej,
      advanceEpochState keccak256 toLowerCase parentState patches threshold rewardOptions = .ok out ∧
      RootChain keccak256 (policyAtomsModeOf rewardOptions) parentState out.advances ∧
      applyPatches keccak256 (policyAtomsModeOf rewardOptions) parentState
        (out.advances.map StateAdvance.patch) = .ok out.newState ∧
      out.newStateRoot = merkleizeState keccak256 out.newState ∧
      out.newStateRootHex = bytesToHex (merkleizeState keccak256 out.newState).bytes ∧
      Splits toLowerCase patches acc rej out.advances out.rejected ∧
      advanceEpochState keccak256 toLowerCase parentState acc threshold rewardOptions =
        .ok { out with rejected := [] } := by
  obtain ⟨current, advances, rejected, acc, rej, h⟩ :=
    @liveRun_inv keccak256 toLowerCase threshold rewardOptions hopts parentState patches hwf
  refine ⟨LiveLoop.output keccak256 ⟨current, buildMerkleCache keccak256 current, advances, rejected⟩,
    acc, rej, ?_, h.chain, h.applied, rfl, rfl, h.splits, ?_⟩
  · rw [advanceEpochState, h.run_eq]
    rfl
  · rw [advanceEpochState, h.replay_eq]
    rfl

/-! ### One arrival on the zero state -/

/-- The slot patch as it arrives on the zero state's root. -/
def slotArrival : LiveEpochInputPatch where
  miner := "0xab"
  patch := slotPatch (merkleizeState tailDigest zeroState).bytes 7
  patchBytes := slotPatchBytes (merkleizeState tailDigest zeroState).bytes 7
  scoreDelta := 5
  marginalEvaluator := fun _ patch => patch.scoreDelta

theorem slotArrival_wellFormed : ∀ item ∈ [slotArrival], item.patch.WellFormed := by
  intro item hitem
  obtain rfl := List.mem_singleton.mp hitem
  exact ⟨rfl, rfl⟩

theorem slotArrival_root : slotArrival.patch.parentStateRoot =
    (buildMerkleCache tailDigest zeroState).root.bytes := by
  rw [slotArrival, slotPatch, merkleizeState]

theorem defaultRewardOptions_valid : defaultRewardOptions.Valid :=
  ⟨⟨0, rfl, Int.le_refl 0⟩, (), defaultCoretexWorkPolicy_valid⟩

/-- `advanceEpochState_chain` on that arrival, under the default options. -/
theorem advanceEpochState_slotArrival :
    ∃ out acc rej,
      advanceEpochState tailDigest id zeroState [slotArrival] 0 defaultRewardOptions = .ok out ∧
      RootChain tailDigest (policyAtomsModeOf defaultRewardOptions) zeroState out.advances ∧
      applyPatches tailDigest (policyAtomsModeOf defaultRewardOptions) zeroState
        (out.advances.map StateAdvance.patch) = .ok out.newState ∧
      out.newStateRoot = merkleizeState tailDigest out.newState ∧
      out.newStateRootHex = bytesToHex (merkleizeState tailDigest out.newState).bytes ∧
      Splits id [slotArrival] acc rej out.advances out.rejected ∧
      advanceEpochState tailDigest id zeroState acc 0 defaultRewardOptions =
        .ok { out with rejected := [] } :=
  advanceEpochState_chain tailDigest id defaultRewardOptions_valid zeroState 0 slotArrival_wellFormed

/-- Options whose counter is a negative `bigint`: well typed, and passed by the lane's own
reading of the counter. -/
def negativeCounter : LiveEpochRewardOptions := ⟨some (.bigint (-1)), none, none⟩

/-- The accept step takes the arrival. -/
theorem evaluateAndApply_slotArrival :
    evaluateAndApplyOntoCurrent zeroState slotArrival.patch slotArrival.marginalEvaluator 0 true
      (policyAtomsModeOf negativeCounter) liveCodes =
        .ok ⟨zeroState.write slotArrival.patch.writes, 5⟩ := by
  unfold evaluateAndApplyOntoCurrent
  dsimp only
  rw [refuseIf_of_not (by decide), ok_bind]
  have happly : applyPatchOntoCurrent zeroState slotArrival.patch
      (policyAtomsModeOf negativeCounter) = .ok (zeroState.write slotArrival.patch.writes) :=
    applyPatchOntoCurrent_slotPatch _ _
  rw [happly]
  rfl

/-- The work policy refuses the negative counter, so the accepted arrival makes the whole
call throw. -/
theorem advanceEpochState_negativeCounter :
    (∀ item ∈ [slotArrival], item.patch.WellFormed) ∧
      advanceEpochState tailDigest id zeroState [slotArrival] 0 negativeCounter =
        .error (rangeError "qualifiedScreenerPassesSinceLastStateAdvance must be non-negative") := by
  refine ⟨slotArrival_wellFormed, ?_⟩
  have happly := (evaluateAndApplyOntoCurrent_inv evaluateAndApply_slotArrival).1
  have hstep : liveStep tailDigest id 0 negativeCounter (liveStart tailDigest zeroState)
      slotArrival =
        .error (rangeError "qualifiedScreenerPassesSinceLastStateAdvance must be non-negative") := by
    unfold liveStep liveStart
    dsimp only
    rw [if_neg (fun h => h slotArrival_root), evaluateAndApply_slotArrival]
    dsimp only
    rw [updateMerkleCache_apply tailDigest (slotArrival_wellFormed _ (List.mem_singleton_self _))
      happly, ok_bind]
    unfold computeCoreTexWorkUnitsBps negativeCounter
    dsimp only
    rw [Option.getD_none, defaultCoretexWorkPolicy_valid]
    rfl
  rw [advanceEpochState, liveRun, List.foldlM_cons, hstep]
  rfl

end CoreTex
