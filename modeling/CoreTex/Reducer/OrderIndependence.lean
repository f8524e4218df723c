import CoreTex.Reducer.Reducer
import CoreTex.State.PatchCodec

/-!
# CoreTex.Reducer.OrderIndependence

The reducer does not see the order of its input.

The comparator is a total preorder on items (`comparePatchPriority_consistent`), and when
the patch hash has no collision among the items it ties only equal ones
(`eq_of_comparePatchPriority_tie`). So permuted inputs are sorted to the same list, the
greedy loop runs over the same items, and only the order in which the wrong-parent items
were rejected can differ.
-/

namespace CoreTex

open CoreTex.Lib

variable (keccak256 : Bytes → Digest)

/-! ### The comparator is a total preorder -/

/-- `a` is not after `b`: higher score, or as high and fewer words, or as many and a hash
that is not higher. -/
def PriorityLe (a b : ReducerInputPatch) : Prop :=
  b.scoreDelta < a.scoreDelta ∨ (a.scoreDelta = b.scoreDelta ∧
    (a.patch.wordCount < b.patch.wordCount ∨ (a.patch.wordCount = b.patch.wordCount ∧
      computePatchHash keccak256 a.patchBytes ≤ computePatchHash keccak256 b.patchBytes)))

theorem comparePatchPriority_le_zero (a b : ReducerInputPatch) :
    comparePatchPriority keccak256 a b ≤ 0 ↔ PriorityLe keccak256 a b := by
  unfold comparePatchPriority PriorityLe
  dsimp only
  by_cases hscore : b.scoreDelta ≠ a.scoreDelta
  · rw [if_pos hscore]
    by_cases hgt : b.scoreDelta > a.scoreDelta
    · rw [if_pos hgt]
      omega
    · rw [if_neg hgt]
      omega
  · rw [if_neg hscore]
    by_cases hcount : a.patch.wordCount ≠ b.patch.wordCount
    · rw [if_pos hcount]
      omega
    · rw [if_neg hcount]
      -- the tie is left to the hashes
      have htie : a.scoreDelta = b.scoreDelta ∧ a.patch.wordCount = b.patch.wordCount := by omega
      by_cases hlt : computePatchHash keccak256 a.patchBytes < computePatchHash keccak256 b.patchBytes
      · rw [if_pos hlt]
        have hle := String.not_lt.mp (String.lt_asymm hlt)
        exact ⟨fun _ => Or.inr ⟨htie.1, Or.inr ⟨htie.2, hle⟩⟩, fun _ => by decide⟩
      · rw [if_neg hlt]
        by_cases hgt : computePatchHash keccak256 a.patchBytes > computePatchHash keccak256 b.patchBytes
        · rw [if_pos hgt]
          refine ⟨fun h => absurd h (by decide), fun h => ?_⟩
          rcases h with h | ⟨-, h | ⟨-, hle⟩⟩
          · omega
          · omega
          · exact absurd hgt (String.not_lt.mpr hle)
        · rw [if_neg hgt]
          have hle := String.not_lt.mp hgt
          exact ⟨fun _ => Or.inr ⟨htie.1, Or.inr ⟨htie.2, hle⟩⟩, fun _ => le_refl _⟩

theorem comparePatchPriority_consistent : Consistent (comparePatchPriority keccak256) where
  swap a b := by
    rw [comparePatchPriority_le_zero, comparePatchPriority_le_zero]
    unfold PriorityLe
    rcases String.le_total (computePatchHash keccak256 a.patchBytes)
      (computePatchHash keccak256 b.patchBytes) with h | h
    · simp only [h, and_true]
      omega
    · simp only [h, and_true]
      omega
  trans a b c := by
    rw [comparePatchPriority_le_zero, comparePatchPriority_le_zero, comparePatchPriority_le_zero]
    unfold PriorityLe
    intro hab hbc
    have hhash := @String.le_trans (computePatchHash keccak256 a.patchBytes)
      (computePatchHash keccak256 b.patchBytes) (computePatchHash keccak256 c.patchBytes)
    by_cases h1 : computePatchHash keccak256 a.patchBytes ≤ computePatchHash keccak256 b.patchBytes
    · by_cases h2 : computePatchHash keccak256 b.patchBytes ≤ computePatchHash keccak256 c.patchBytes
      · simp only [h1, h2, hhash h1 h2, and_true] at *
        omega
      · simp only [h2, and_false, or_false] at hbc
        omega
    · simp only [h1, and_false, or_false] at hab
      omega

/-! ### Ties are equal items -/

/-- A well-formed item: a decoded patch beside its own encoding. -/
structure ReducerInputPatch.WireEncoded (item : ReducerInputPatch) : Prop where
  decoded : ∃ data, decodePatch data = .ok item.patch
  encoded : encodePatch item.patch = .ok item.patchBytes

/-- A well-formed item that claims its wire score. -/
structure ReducerInputPatch.WireConsistent (item : ReducerInputPatch) : Prop
    extends item.WireEncoded where
  score : item.scoreDelta = item.patch.scoreDelta

/-- Such an item's patch is what its bytes decode to. -/
theorem ReducerInputPatch.WireEncoded.decode {item : ReducerInputPatch} (h : item.WireEncoded) :
    decodePatch item.patchBytes = .ok item.patch := by
  obtain ⟨data, hdata⟩ := h.decoded
  exact decodePatch_encodePatch hdata h.encoded

/-- Two items that tie have one hash, so one wire text, so they are one item. -/
theorem eq_of_comparePatchPriority_tie {a b : ReducerInputPatch} (ha : a.WireConsistent)
    (hb : b.WireConsistent)
    (heval : a.patch = b.patch → a.marginalEvaluator = b.marginalEvaluator)
    (hcoll : computePatchHash keccak256 a.patchBytes = computePatchHash keccak256 b.patchBytes →
      a.patchBytes = b.patchBytes)
    (hab : comparePatchPriority keccak256 a b ≤ 0) (hba : comparePatchPriority keccak256 b a ≤ 0) :
    a = b := by
  rw [comparePatchPriority_le_zero] at hab hba
  unfold PriorityLe at hab hba
  have hle : computePatchHash keccak256 a.patchBytes ≤ computePatchHash keccak256 b.patchBytes ∧
      computePatchHash keccak256 b.patchBytes ≤ computePatchHash keccak256 a.patchBytes := by
    rcases hab with hab | ⟨hs, hab | ⟨hc, hab⟩⟩
    · omega
    · omega
    · rcases hba with hba | ⟨-, hba | ⟨-, hba⟩⟩
      · omega
      · omega
      · exact ⟨hab, hba⟩
  have hbytes : a.patchBytes = b.patchBytes := hcoll (String.le_antisymm hle.1 hle.2)
  have hpatch : a.patch = b.patch := by
    have := ha.toWireEncoded.decode
    rw [hbytes, hb.toWireEncoded.decode, Except.ok.injEq] at this
    exact this.symm
  have hscore : a.scoreDelta = b.scoreDelta := by rw [ha.score, hb.score, hpatch]
  cases a
  cases b
  dsimp only at hbytes hpatch hscore heval
  rw [hbytes, hpatch, hscore, heval hpatch]

/-! ### The reducer forgets the order of its input -/

/-- The items rejected before the ordering come out permuted as the input is. -/
theorem wrongParentRejects_perm (root : Digest) {patches patches' : List ReducerInputPatch}
    (h : patches.Perm patches') :
    (wrongParentRejects root patches).Perm (wrongParentRejects root patches') :=
  (h.filter _).map _

/-- The loop appends to the rejects it starts with and otherwise ignores them. -/
theorem reduceLoop_rejected (parentState : CortexState) (threshold : Int)
    (policyAtomsMode : Bool) (ordered : List ReducerInputPatch) :
    ∃ loop : ReduceLoop, ∀ rejected,
      reduceLoop parentState threshold policyAtomsMode rejected ordered =
        { loop with rejected := rejected ++ loop.rejected } := by
  refine ⟨reduceLoop parentState threshold policyAtomsMode [] ordered, fun rejected => ?_⟩
  induction ordered using List.reverseRecOn with
  | nil => simp [reduceLoop]
  | append_singleton ordered item ih =>
      unfold reduceLoop at ih ⊢
      rw [List.foldl_append, List.foldl_append, List.foldl_cons, List.foldl_cons, ih]
      unfold reduceStep ReduceLoop.reject
      dsimp only [List.foldl_nil]
      split
      next => simp only [List.append_assoc]
      next =>
        split
        next => simp only [List.append_assoc]
        next => rfl

/-- **Order independence.** For wire-consistent items with no patch-hash collision among
them, permuting the input of `reduce` changes neither what is accepted, in which order
and with which gains, nor the new state, nor the roots, nor the multiset of rejections. -/
theorem reduce_perm (S : CompareSort) (parentState : CortexState) (threshold : Int)
    (policyAtomsMode : Bool) {patches patches' : List ReducerInputPatch}
    (hperm : patches.Perm patches')
    (hwire : ∀ item ∈ patches, item.WireConsistent)
    (heval : ∀ a ∈ patches, ∀ b ∈ patches, a.patch = b.patch →
      a.marginalEvaluator = b.marginalEvaluator)
    (hcoll : ∀ a ∈ patches, ∀ b ∈ patches,
      computePatchHash keccak256 a.patchBytes = computePatchHash keccak256 b.patchBytes →
        a.patchBytes = b.patchBytes) :
    let out := reduce keccak256 S parentState patches threshold policyAtomsMode
    let out' := reduce keccak256 S parentState patches' threshold policyAtomsMode
    out.accepted = out'.accepted ∧ out.newState = out'.newState ∧
      out.patchSetRoot = out'.patchSetRoot ∧ out.patchSetRootHex = out'.patchSetRootHex ∧
      out.newStateRoot = out'.newStateRoot ∧ out.newStateRootHex = out'.newStateRootHex ∧
      (out.rejected.map fun r => (r.patchBytes, r.reason)).Perm
        (out'.rejected.map fun r => (r.patchBytes, r.reason)) := by
  have hordered : S.sort (comparePatchPriority keccak256) (patches.filter fun item =>
        patchMatchesEpochParent item.patch (merkleizeState keccak256 parentState)) =
      S.sort (comparePatchPriority keccak256) (patches'.filter fun item =>
        patchMatchesEpochParent item.patch (merkleizeState keccak256 parentState)) := by
    refine S.sort_eq_of_perm (comparePatchPriority_consistent keccak256) (hperm.filter _) ?_
    intro a ha b hb
    have ha := (List.mem_filter.mp ha).1
    have hb := (List.mem_filter.mp hb).1
    exact eq_of_comparePatchPriority_tie keccak256 (hwire a ha) (hwire b hb) (heval a ha b hb)
      (hcoll a ha b hb)
  have hrejects := wrongParentRejects_perm (merkleizeState keccak256 parentState) hperm
  obtain ⟨loop, hloop⟩ := reduceLoop_rejected parentState threshold policyAtomsMode
    (S.sort (comparePatchPriority keccak256) (patches.filter fun item =>
      patchMatchesEpochParent item.patch (merkleizeState keccak256 parentState)))
  unfold reduce
  dsimp only
  rw [← hordered, hloop, hloop]
  exact ⟨rfl, rfl, rfl, rfl, rfl, rfl, (hrejects.append_right _).map _⟩

/-! ### A run with two competing patches -/

/-- The all-zero state. -/
def zeroState : CortexState :=
  ⟨List.replicate Ranges.wordCount 0, List.length_replicate⟩

theorem zeroState_word (i : Nat) : zeroState.word i = 0 := by
  unfold CortexState.word zeroState
  by_cases h : i < Ranges.wordCount
  · simp [h]
  · simp [h]

theorem zero_land (m : Int) : Int.land 0 m = 0 := by
  cases m with
  | ofNat n => simp [Int.land]
  | negSucc n => simp [Int.land, Nat.ldiff]

/-- The zero state sets no reserved bit. -/
theorem zeroState_reservedBits : hasNonZeroReservedBits zeroState = false := by
  rw [hasNonZeroReservedBits_eq_false]
  intro i _
  simp [setsReservedBit, zeroState_word, zero_land]

/-- Replaces memory word 32, on the root `parentStateRoot`. -/
def slotPatch (parentStateRoot : Bytes) (word : Int) : Patch where
  patchType := PatchType.slotReplace
  wordCount := 1
  scoreDelta := 5
  parentStateRoot
  indices := [32]
  newWords := [word]

/-- The wire bytes of `slotPatch`. -/
def slotPatchBytes (parentStateRoot : Bytes) (word : Int) : Bytes :=
  [2, 1, 0, 0, 0, 0, 0, 0, 0, 5] ++ parentStateRoot ++ [32] ++ writeBigEndian32 word

theorem zeroState_valid (policyAtomsMode : Bool) : StateValid policyAtomsMode zeroState := by
  have hbits := hasNonZeroReservedBits_eq_false zeroState
  intro i hi
  refine ⟨hbits.mp zeroState_reservedBits i hi, fun _ => ?_⟩
  rw [zeroState_word]
  exact ⟨fun _ _ _ _ => .inl rfl, fun _ _ => rfl⟩

/-- A memory word is in no policy region. -/
theorem wordValid_memory (policyAtomsMode : Bool) : WordValid policyAtomsMode 32 7 := by
  refine ⟨by decide, fun _ => ⟨?_, by decide⟩⟩
  intro family k hk hindex
  cases family <;> exact absurd hindex (by simp [policyRegions, Ranges.policyEvidenceStart,
    Ranges.policyConflictStart, Ranges.policyAbstentionStart]; omega)

/-- The slot patch applies on the zero state. -/
theorem applyPatchOntoCurrent_slotPatch (policyAtomsMode : Bool) (root : Bytes) :
    applyPatchOntoCurrent zeroState (slotPatch root 7) policyAtomsMode =
      .ok (zeroState.write (slotPatch root 7).writes) := by
  have hadmits : PatchAdmits policyAtomsMode zeroState (slotPatch root 7) := by
    refine ⟨?_, ⟨(), rfl⟩, fun _ => rfl, fun _ => rfl, ?_⟩
    · show (1 : Int) ≤ 1 ∧ (1 : Int) ≤ 4
      decide
    · show (cellChanges zeroState (some 32, 7) || false) = true
      simp [cellChanges, CortexState.wordAt, zeroState_word]
  refine applyPatchOntoCurrent_of_valid (zeroState_valid policyAtomsMode) hadmits
    (List.nodup_singleton 32) ?_
  intro w hw
  obtain rfl : w = (32, 7) := List.mem_singleton.mp hw
  exact wordValid_memory policyAtomsMode

/-- A slot patch as the reducer receives it, worth its claimed score on every state. -/
def slotInput (parentStateRoot : Bytes) (word : Int) : ReducerInputPatch where
  patch := slotPatch parentStateRoot word
  patchBytes := slotPatchBytes parentStateRoot word
  scoreDelta := 5
  marginalEvaluator := fun _ patch => patch.scoreDelta

/-- Two patches that compete for one memory word of the zero state. -/
def competingInputs : List ReducerInputPatch :=
  [slotInput (List.replicate 32 0) 7, slotInput (List.replicate 32 0) 9]

theorem competingInputs_wireConsistent :
    ∀ item ∈ competingInputs, item.WireConsistent := by
  intro item hitem
  simp only [competingInputs, List.mem_cons, List.not_mem_nil, or_false] at hitem
  rcases hitem with rfl | rfl
  · have hdecode : decodePatch (slotPatchBytes (List.replicate 32 0) 7) =
        .ok (slotPatch (List.replicate 32 0) 7) := by decide +kernel
    exact ⟨⟨⟨_, hdecode⟩, encodePatch_decodePatch hdecode⟩, rfl⟩
  · have hdecode : decodePatch (slotPatchBytes (List.replicate 32 0) 9) =
        .ok (slotPatch (List.replicate 32 0) 9) := by decide +kernel
    exact ⟨⟨⟨_, hdecode⟩, encodePatch_decodePatch hdecode⟩, rfl⟩

/-- `reduce_perm` on the two orders of the competing patches. -/
theorem reduce_competingInputs :
    (reduce tailDigest CompareSort.merge zeroState competingInputs 0 false).accepted =
      (reduce tailDigest CompareSort.merge zeroState competingInputs.reverse 0 false).accepted := by
  refine (reduce_perm tailDigest CompareSort.merge zeroState 0 false
    (List.reverse_perm competingInputs).symm competingInputs_wireConsistent ?_ ?_).1
  · intro a ha b hb _
    simp only [competingInputs, List.mem_cons, List.not_mem_nil, or_false] at ha hb
    rcases ha with rfl | rfl <;> rcases hb with rfl | rfl <;> rfl
  · decide +kernel

end CoreTex
