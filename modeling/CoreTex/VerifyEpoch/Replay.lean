import CoreTex.Reducer.OrderIndependence
import CoreTex.Reducer.Selection
import CoreTex.VerifyEpoch.VerifyEpoch

/-!
# CoreTex.VerifyEpoch.Replay

Public replay reproduces the reducer.

The replay loop is the greedy walk of the library over the decoded events
(`foldl_replayStep`). What the reducer accepted is a selection, so over a valid parent
the walk takes exactly the accepted patches, in whatever order and however often their
events come, and ends in the reducer's state (`verifyEpoch_reduce`).
-/

namespace CoreTex

open CoreTex.Lib

variable (keccak256 : Bytes → Digest) (toLowerCase : String → String)

/-! ### The replay loop is the greedy walk -/

/-- The patch and hash the replay loop reads of an event. -/
def DecodedEvent.hashed (d : DecodedEvent) : HashedPatch :=
  (d.patch, d.computedPatchHash)

/-- The replay loop's view of a greedy walk. -/
def ReplayLoop.ofGreedy (g : GreedyState HashedPatch CortexState Int) : ReplayLoop where
  usedIndices := g.used
  currentState := g.state
  acceptedHashes := g.taken.map Prod.snd

theorem replayStep_ofGreedy (policyAtomsMode : Bool) (g : GreedyState HashedPatch CortexState Int)
    (d : DecodedEvent) :
    replayStep policyAtomsMode (ReplayLoop.ofGreedy g) d =
      ReplayLoop.ofGreedy (greedyStep (fun x : HashedPatch => x.1.indices)
        (replayApply policyAtomsMode) g d.hashed) := by
  unfold replayStep greedyStep replayApply ReplayLoop.ofGreedy DecodedEvent.hashed
  dsimp only
  split
  next => rfl
  next =>
    cases applyPatchOntoCurrent g.state d.patch policyAtomsMode with
    | error err => rfl
    | ok state => simp [Except.toOption]

theorem foldl_replayStep (policyAtomsMode : Bool) (parentState : CortexState)
    (ds : List DecodedEvent) :
    ds.foldl (replayStep policyAtomsMode) ⟨[], parentState, []⟩ =
      ReplayLoop.ofGreedy (greedy (fun x : HashedPatch => x.1.indices)
        (replayApply policyAtomsMode) parentState (ds.map DecodedEvent.hashed)) := by
  induction ds using List.reverseRecOn with
  | nil => rfl
  | append_singleton ds d ih =>
      rw [List.foldl_append, ih, List.map_append, List.map_singleton, greedy_append_singleton]
      exact replayStep_ofGreedy policyAtomsMode _ d

/-! ### Events of an accepted sequence -/

/-- The events emit exactly the accepted patches, in any order and with any repetitions:
each event carries the parent root, the hash and the bytes of an accepted patch, and each
accepted patch has an event. -/
structure EmitsAccepted (parentRoot : String) (accepted : List AcceptedPatch)
    (events : List PatchAcceptedEvent) : Prop where
  of_accepted : ∀ ev ∈ events, ∃ a ∈ accepted, ev.parentStateRoot = parentRoot ∧
    ev.patchHash = computePatchHash keccak256 a.patchBytes ∧ ev.compactPatchBytes = a.patchBytes
  emitted : ∀ a ∈ accepted, ∃ ev ∈ events, ev.compactPatchBytes = a.patchBytes

/-- An accepted patch, with its hash. -/
def AcceptedPatch.hashed (a : AcceptedPatch) : HashedPatch :=
  (a.patch, computePatchHash keccak256 a.patchBytes)

variable {keccak256 toLowerCase} {parentRoot : String} {accepted : List AcceptedPatch}
  {events : List PatchAcceptedEvent}

/-- Every emitted event is eligible and decodes to its accepted patch. -/
theorem EmitsAccepted.eligible (h : EmitsAccepted keccak256 parentRoot accepted events)
    (hdecode : ∀ a ∈ accepted, decodePatch a.patchBytes = .ok a.patch)
    (hroot : ∀ a ∈ accepted, bytesToHex a.patch.parentStateRoot = parentRoot) :
    ∀ ev ∈ events, eligibleEvent keccak256 toLowerCase parentRoot ev = true := by
  intro ev hev
  obtain ⟨a, ha, hparent, hhash, hbytes⟩ := h.of_accepted ev hev
  unfold eligibleEvent hexEq
  rw [hbytes, hdecode a ha, hparent, hhash]
  simp [hroot a ha]

theorem EmitsAccepted.decodeEvent (h : EmitsAccepted keccak256 parentRoot accepted events)
    (hdecode : ∀ a ∈ accepted, decodePatch a.patchBytes = .ok a.patch) (x : HashedPatch) :
    x ∈ (events.filterMap (decodeEvent keccak256)).map DecodedEvent.hashed ↔
      x ∈ accepted.map (AcceptedPatch.hashed keccak256) := by
  have hdec : ∀ ev a, ev.compactPatchBytes = a.patchBytes → a ∈ accepted →
      CoreTex.decodeEvent keccak256 ev =
        some ⟨ev, a.patch, computePatchHash keccak256 a.patchBytes⟩ := by
    intro ev a hbytes ha
    unfold CoreTex.decodeEvent
    rw [hbytes, hdecode a ha]
  constructor
  · intro hx
    obtain ⟨d, hd, rfl⟩ := List.mem_map.mp hx
    obtain ⟨ev, hev, hsome⟩ := List.mem_filterMap.mp hd
    obtain ⟨a, ha, -, -, hbytes⟩ := h.of_accepted ev hev
    rw [hdec ev a hbytes ha, Option.some.injEq] at hsome
    subst hsome
    exact List.mem_map.mpr ⟨a, ha, rfl⟩
  · intro hx
    obtain ⟨a, ha, rfl⟩ := List.mem_map.mp hx
    obtain ⟨ev, hev, hbytes⟩ := h.emitted a ha
    exact List.mem_map.mpr ⟨_, List.mem_filterMap.mpr ⟨ev, hev, hdec ev a hbytes ha⟩, rfl⟩

/-! ### What the reducer accepted -/

section Accepted

variable (keccak256) (S : CompareSort) (parentState : CortexState) {patches : List ReducerInputPatch}
  (threshold : Int) (policyAtomsMode : Bool)

/-- The accepted patches of a run of `reduce`: a selection over the parent, applied in
full, each decodable and on the parent's root. -/
theorem reduce_accepted (hwire : ∀ item ∈ patches, item.WireEncoded) :
    let out := reduce keccak256 S parentState patches threshold policyAtomsMode
    Selection policyAtomsMode parentState (out.accepted.map AcceptedPatch.patch) ∧
      out.newState = applyAll parentState (out.accepted.map AcceptedPatch.patch) ∧
      ∀ a ∈ out.accepted, decodePatch a.patchBytes = .ok a.patch ∧
        a.patch.parentStateRoot = (merkleizeState keccak256 parentState).bytes := by
  intro out
  have hordered : ∀ item ∈ S.sort (comparePatchPriority keccak256) (patches.filter fun item =>
      patchMatchesEpochParent item.patch (merkleizeState keccak256 parentState)),
      item.WireEncoded ∧
        item.patch.parentStateRoot = (merkleizeState keccak256 parentState).bytes := by
    intro item hitem
    obtain ⟨hmem, hparent⟩ := List.mem_filter.mp ((S.mem_sort _).mp hitem)
    exact ⟨hwire item hmem, of_decide_eq_true hparent⟩
  have hwf : ∀ item ∈ S.sort (comparePatchPriority keccak256) (patches.filter fun item =>
      patchMatchesEpochParent item.patch (merkleizeState keccak256 parentState)),
      item.patch.WellFormed := by
    intro item hitem
    obtain ⟨data, hdata⟩ := (hordered item hitem).1.decoded
    exact decodePatch_wellFormed hdata
  have hinv := @reduceLoop_inv policyAtomsMode parentState threshold
    (wrongParentRejects (merkleizeState keccak256 parentState) patches) _ hwf
  refine ⟨hinv.selection, hinv.current_eq, fun a ha => ?_⟩
  obtain ⟨item, hitem, hpatch, hbytes⟩ := hinv.source a ha
  obtain ⟨hitemwire, hroot⟩ := hordered item hitem
  rw [← hpatch, ← hbytes]
  exact ⟨hitemwire.decode, hroot⟩

end Accepted

/-- The patches of a selection are pairwise different. -/
theorem Selection.nodup {policyAtomsMode : Bool} {parent : CortexState} {ps : List Patch}
    (h : Selection policyAtomsMode parent ps) : ps.Nodup := by
  refine h.disjoint.imp_of_mem ?_
  rintro p q hp - hdisj rfl
  obtain ⟨i, hi⟩ := List.exists_mem_of_ne_nil _ ((h.admits p hp).indices_ne_nil (h.wellFormed p hp))
  exact hdisj i hi hi

/-- The writes of two different patches of a selection commute. -/
theorem Selection.write_comm {policyAtomsMode : Bool} {parent : CortexState} {ps : List Patch}
    (h : Selection policyAtomsMode parent ps) {p q : Patch} (hp : p ∈ ps) (hq : q ∈ ps)
    (hne : p ≠ q) (s : CortexState) :
    (s.write p.writes).write q.writes = (s.write q.writes).write p.writes := by
  apply CortexState.ext
  refine overwrite_comm s.words ?_
  rw [(h.wellFormed p hp).map_fst_writes, (h.wellFormed q hq).map_fst_writes]
  intro i hi hi'
  obtain ⟨a, ha, rfl⟩ := List.mem_map.mp hi
  obtain ⟨b, hb, hab⟩ := List.mem_map.mp hi'
  have ha0 := (h.admits p hp).nonneg a ha
  have hb0 := (h.admits q hq).nonneg b hb
  have heq : b = a := by omega
  exact h.disjoint_of_ne hp hq hne a ha (heq ▸ hb)

/-! ### Replay reproduces the reducer -/

/-- The input starts the replay from `parentState`: from a snapshot that unpacks to it, or
from the genesis state when there is no snapshot. -/
def StartsFrom (input : VerifyEpochInput) (parentState : CortexState) : Prop :=
  (input.snapshotEvent = none ∧ input.genesisState = some parentState) ∨
    ∃ snapshot, input.snapshotEvent = some snapshot ∧
      unpack snapshot.fullStateBytes = .ok parentState

theorem StartsFrom.startState {input : VerifyEpochInput} {parentState : CortexState}
    (h : StartsFrom input parentState) :
    ∃ source, CoreTex.startState input = .ok (parentState, source) := by
  unfold CoreTex.startState
  rcases h with ⟨hnone, hgenesis⟩ | ⟨snapshot, hsnap, hunpack⟩
  · rw [hnone, hgenesis]
    exact ⟨_, rfl⟩
  · rw [hsnap]
    dsimp only
    rw [hunpack]
    exact ⟨_, rfl⟩

/-- Two accepted patches that are equal carry one hash. -/
theorem hashed_injective (hdecode : ∀ a ∈ accepted, decodePatch a.patchBytes = .ok a.patch) :
    ∀ x ∈ accepted.map (AcceptedPatch.hashed keccak256),
      ∀ y ∈ accepted.map (AcceptedPatch.hashed keccak256), x.1 = y.1 → x = y := by
  intro x hx y hy hxy
  obtain ⟨a, ha, rfl⟩ := List.mem_map.mp hx
  obtain ⟨b, hb, rfl⟩ := List.mem_map.mp hy
  have hpatch : a.patch = b.patch := hxy
  have hbytes := encodePatch_decodePatch (hdecode a ha)
  rw [hpatch, encodePatch_decodePatch (hdecode b hb), Except.ok.injEq] at hbytes
  rw [AcceptedPatch.hashed, AcceptedPatch.hashed, hpatch, hbytes]

/-- Replaying the events of a selection takes each of its patches once and ends in the
state with all of them applied. -/
theorem runReducer_of_selection (toLowerCase : String → String) (S : CompareSort)
    {policyAtomsMode : Bool} {parentState : CortexState}
    (hvalid : StateValid policyAtomsMode parentState)
    (hsel : Selection policyAtomsMode parentState (accepted.map AcceptedPatch.patch))
    (hdecode : ∀ a ∈ accepted, decodePatch a.patchBytes = .ok a.patch)
    (hroot : ∀ a ∈ accepted, a.patch.parentStateRoot = (merkleizeState keccak256 parentState).bytes)
    (hevents : EmitsAccepted keccak256 (bytesToHex (merkleizeState keccak256 parentState).bytes)
      accepted events) :
    let loop := runReducer keccak256 toLowerCase S parentState events policyAtomsMode
    loop.currentState = applyAll parentState (accepted.map AcceptedPatch.patch) ∧
      loop.acceptedHashes.Perm (accepted.map fun a => computePatchHash keccak256 a.patchBytes) := by
  have hfilter : events.filter (eligibleEvent keccak256 toLowerCase
      (bytesToHex (merkleizeState keccak256 parentState).bytes)) = events :=
    List.filter_eq_self.mpr (hevents.eligible hdecode fun a ha => by rw [hroot a ha])
  have hfamily : (accepted.map (AcceptedPatch.hashed keccak256)).map Prod.fst =
      accepted.map AcceptedPatch.patch := by
    rw [List.map_map]
    rfl
  rw [← hfamily] at hsel
  have hinj := @hashed_injective keccak256 accepted hdecode
  -- the walk over the decoded events, whatever order the sort gave them
  have hmem : ∀ x, x ∈ (S.sort compareDecodedEvents (events.filterMap
      (decodeEvent keccak256))).map DecodedEvent.hashed ↔
        x ∈ accepted.map (AcceptedPatch.hashed keccak256) := by
    intro x
    rw [((S.perm compareDecodedEvents _).map DecodedEvent.hashed).mem_iff]
    exact hevents.decodeEvent hdecode x
  have hwalk := greedy_of_compatible (hsel.compatible hinj hvalid) fun x hx => (hmem x).mp hx
  have hperm := (List.perm_ext_iff_of_nodup hwalk.nodup (List.Nodup.of_map _ hsel.nodup)).mpr
    fun x => (hwalk.mem_taken x).trans (hmem x)
  unfold runReducer
  dsimp only
  rw [hfilter, foldl_replayStep]
  refine ⟨?_, ?_⟩
  · show GreedyState.state _ = _
    rw [hwalk.state_eq, ← hfamily, ← foldl_write_eq_applyAll]
    refine foldl_write_perm hperm (fun x hx y hy hne s => ?_) parentState
    have hx := hperm.mem_iff.mp hx
    have hy := hperm.mem_iff.mp hy
    exact hsel.write_comm (List.mem_map_of_mem hx) (List.mem_map_of_mem hy)
      (fun heq => hne (hinj x hx y hy heq)) s
  · have hhashes := hperm.map Prod.snd
    rw [List.map_map] at hhashes
    exact hhashes

/-- **Replay reproduces the reducer.** Over a parent with no reserved bit set (and, in
policy mode, clean policy regions), the events of what `reduce` accepted, in any order and
with any repetitions, replay to the finalized root, and the replay accepts exactly the
accepted patches, each once. -/
theorem verifyEpoch_reduce (keccak256 : Bytes → Digest) (toLowerCase : String → String)
    (S : CompareSort) (parentState : CortexState) (patches : List ReducerInputPatch)
    (threshold : Int) (policyAtomsMode : Bool) (input : VerifyEpochInput)
    (finalized : EpochFinalizedEvent)
    (hreserved : hasNonZeroReservedBits parentState = false)
    (hpolicy : policyAtomsMode = true → validatePolicyRegions parentState = none)
    (hwire : ∀ item ∈ patches, item.WireEncoded)
    (hstart : StartsFrom input parentState)
    (hmode : (input.policyAtomsMode == some true) = policyAtomsMode)
    (hevents : EmitsAccepted keccak256 (bytesToHex (merkleizeState keccak256 parentState).bytes)
      (reduce keccak256 S parentState patches threshold policyAtomsMode).accepted input.patchEvents)
    (hfinalized : input.finalizedEvent = some finalized)
    (hroot : finalized.newStateRoot =
      (reduce keccak256 S parentState patches threshold policyAtomsMode).newStateRootHex) :
    ∃ result, verifyEpoch keccak256 toLowerCase S input = .ok result ∧ result.match_ = true ∧
      result.acceptedPatchHashes.Perm
        ((reduce keccak256 S parentState patches threshold policyAtomsMode).accepted.map
          fun a => computePatchHash keccak256 a.patchBytes) := by
  obtain ⟨hsel, hstate, haccepted⟩ :=
    reduce_accepted keccak256 S parentState threshold policyAtomsMode hwire
  have hvalid : StateValid policyAtomsMode parentState :=
    (stateValid_iff policyAtomsMode parentState).mp ⟨hreserved, hpolicy⟩
  obtain ⟨hreplayed, hhashes⟩ := runReducer_of_selection toLowerCase S hvalid hsel
    (fun a ha => (haccepted a ha).1) (fun a ha => (haccepted a ha).2) hevents
  obtain ⟨source, hsource⟩ := hstart.startState
  unfold verifyEpoch
  rw [hfinalized, hsource, hmode]
  refine ⟨_, rfl, ?_, hhashes⟩
  dsimp only
  rw [hreplayed, ← hstate, hroot]
  exact decide_eq_true rfl

/-! ### A replay of the two competing patches -/

/-- The event the chain emits for an accepted patch. -/
def acceptedEvent (parentState : CortexState) (a : AcceptedPatch) : PatchAcceptedEvent where
  epoch := 1
  miner := "0x00"
  parentStateRoot := bytesToHex (merkleizeState tailDigest parentState).bytes
  patchHash := computePatchHash tailDigest a.patchBytes
  evalReportHash := "0x00"
  compactPatchBytes := a.patchBytes

/-- What `reduce` makes of the competing patches. -/
def competingOutput : ReducerOutput :=
  reduce tailDigest CompareSort.merge zeroState competingInputs 0 false

/-- The events of that epoch, each emitted twice. -/
def competingEpoch : VerifyEpochInput where
  epoch := 1
  finalizedEvent := some ⟨1, "0x00", "0x00", competingOutput.newStateRootHex, "0x00", "0x00"⟩
  patchEvents := (competingOutput.accepted ++ competingOutput.accepted).map (acceptedEvent zeroState)
  snapshotEvent := none
  genesisState := some zeroState
  policyAtomsMode := none

/-- `verifyEpoch_reduce` on the epoch of the competing patches. -/
theorem verifyEpoch_competingEpoch :
    ∃ result, verifyEpoch tailDigest id CompareSort.merge competingEpoch = .ok result ∧
      result.match_ = true ∧ result.acceptedPatchHashes.Perm
        (competingOutput.accepted.map fun a => computePatchHash tailDigest a.patchBytes) := by
  refine verifyEpoch_reduce tailDigest id CompareSort.merge zeroState competingInputs 0 false
    competingEpoch _ zeroState_reservedBits (fun h => nomatch h)
    (fun item hitem => (competingInputs_wireConsistent item hitem).toWireEncoded)
    (Or.inl ⟨rfl, rfl⟩) rfl ⟨?_, ?_⟩ rfl rfl
  · intro ev hev
    obtain ⟨a, ha, rfl⟩ := List.mem_map.mp hev
    exact ⟨a, (List.mem_append.mp ha).elim id id, rfl, rfl, rfl⟩
  · intro a ha
    exact ⟨acceptedEvent zeroState a, List.mem_map_of_mem (List.mem_append_left _ ha), rfl⟩

end CoreTex
