import CoreTex.Lib.BinaryTree
import CoreTex.State.Types

/-!
# CoreTex.State.Merkle

Merkleization of a state (`state/merkle.ts`): the full build, the incremental update of
a cache after a few word writes, and the hex text of a root.

The hash is any function from byte strings to 32-byte digests. The main result,
`updateMerkleCache_build`, is that updating the cache of a state gives the cache of the
state with the words written, so the cached root is always the root of the words.
-/

namespace CoreTex

open CoreTex.Lib

/-! ### Words, digests and hex -/

/-- `BigInt.asUintN(256, value)`. -/
def asUint256 (value : Int) : Nat :=
  (value % (2 ^ 256 : Nat)).toNat

/-- The 32 big-endian bytes of a word, taken modulo `2 ^ 256`. -/
def writeBigEndian32 (value : Int) : Bytes :=
  writeBE 32 (asUint256 value)

/-- The word that 32 big-endian bytes spell. -/
def readBigEndian32 (bytes : Bytes) : Int :=
  (readBE bytes : Nat)

@[simp] theorem length_writeBigEndian32 (value : Int) : (writeBigEndian32 value).length = 32 :=
  length_writeBE 32 _

theorem writeBigEndian32_readBigEndian32 {bytes : Bytes} (h : bytes.length = 32) :
    writeBigEndian32 (readBigEndian32 bytes) = bytes := by
  have hlt : readBE bytes < 2 ^ 256 := by
    have := readBE_lt bytes
    rw [h] at this
    exact this
  have hmod : ((readBE bytes : Nat) : Int) % ((2 ^ 256 : Nat) : Int) = (readBE bytes : Nat) :=
    Int.emod_eq_of_lt (Int.natCast_nonneg _) (Int.ofNat_lt.mpr hlt)
  rw [writeBigEndian32, readBigEndian32, asUint256, hmod, Int.toNat_natCast]
  have := writeBE_readBE bytes
  rwa [h] at this

/-- A 32-byte hash value. -/
structure Digest where
  bytes : Bytes
  length_bytes : bytes.length = 32
  deriving DecidableEq

/-- The last 32 bytes of a byte string, zero-padded on the left: a stand-in for a hash in
concrete runs, without collisions among texts that differ near their end. -/
def tailDigest (bytes : Bytes) : Digest where
  bytes := ((bytes.reverse ++ List.replicate 32 0).take 32).reverse
  length_bytes := by simp

/-- The `0x`-prefixed lower-case hex text of a byte string. -/
def bytesToHex (bytes : Bytes) : String :=
  "0x" ++ String.ofList (hexChars bytes)

theorem bytesToHex_injective {a b : Bytes} (h : bytesToHex a = bytesToHex b) : a = b := by
  have hl := congrArg String.toList h
  simp only [bytesToHex, String.toList_append, String.toList_ofList] at hl
  exact hexChars_injective (List.append_cancel_left hl)

/-! ### The full build -/

/-- Every level of the tree, leaves first, and its root. -/
structure MerkleTreeCache where
  levels : List (List Digest)
  root : Digest

structure MerkleWordUpdate where
  index : Int
  word : Int

variable (keccak256 : Bytes → Digest)

/-- `keccak256(bigEndian32(word))`. -/
def leafHash (word : Int) : Digest :=
  keccak256 (writeBigEndian32 word)

/-- `keccak256(leftChild ‖ rightChild)`. -/
def nodeHash (left right : Digest) : Digest :=
  keccak256 (left.bytes ++ right.bytes)

/-- `while (level.length > 1)`: the levels above `level`. A level halves at each turn, so
its length is fuel enough. -/
def levelsAbove : Nat → List Digest → List (List Digest)
  | 0, _ => []
  | fuel + 1, level =>
      if level.length > 1 then
        let nextLevel := pairLevel (nodeHash keccak256) level
        nextLevel :: levelsAbove fuel nextLevel
      else []

/-- `level[0]!` of the last level of a tree; the tree of a state is never empty. -/
def topNode (levels : List (List Digest)) : Digest :=
  ((levels.getLast?.bind List.head?)).getD (keccak256 [])

/-- Build and cache every level of the tree of a state. -/
def buildMerkleCache (state : CortexState) : MerkleTreeCache :=
  let level := state.words.map (leafHash keccak256)
  let levels := level :: levelsAbove keccak256 level.length level
  { levels, root := topNode keccak256 levels }

/-- The Merkle root of a state. -/
def merkleizeState (state : CortexState) : Digest :=
  (buildMerkleCache keccak256 state).root

/-! ### The incremental update -/

/-- `deduped.set(update.index, update.word)` on an insertion-ordered map. -/
def dedupSet (deduped : List (Nat × Int)) (index : Nat) (word : Int) : List (Nat × Int) :=
  if deduped.any (·.1 == index) then
    deduped.map fun e => if e.1 == index then (index, word) else e
  else deduped ++ [(index, word)]

/-- The dedup loop over the updates, refusing an index outside the tree. -/
def dedupUpdates (updates : List MerkleWordUpdate) :
    Except JsError (List (Nat × Int)) :=
  updates.foldlM
    (fun deduped update =>
      let index := update.index
      if update.index < 0 ∨ (Ranges.wordCount : Int) ≤ update.index then
        throw (rangeError s!"updateMerkleCache: index out of range {index}")
      else pure (dedupSet deduped update.index.toNat update.word))
    []

/-- Recompute the affected leaf-to-root paths. -/
def updateMerkleCache (cache : MerkleTreeCache) (updates : List MerkleWordUpdate) :
    Except JsError MerkleTreeCache := do
  match cache.levels with
  | [] => throw (typeError "updateMerkleCache: invalid cache shape")
  | leaves :: above =>
    if cache.levels.length ≠ 11 ∨ leaves.length ≠ Ranges.wordCount then
      throw (typeError "updateMerkleCache: invalid cache shape")
    if updates.isEmpty then
      return cache
    let deduped ← dedupUpdates updates
    let leaves := overwrite leaves (deduped.map fun e => (e.1, leafHash keccak256 e.2))
    let levels := leaves :: refresh (nodeHash keccak256) leaves (deduped.map Prod.fst) above
    return { levels, root := topNode keccak256 levels }

/-! ### Updating is rebuilding -/

theorem levelsAbove_eq_levels {d fuel : Nat} (hfuel : d < fuel) {level : List Digest}
    (hlen : level.length = 2 ^ d) :
    levelsAbove keccak256 fuel level = (levels (nodeHash keccak256) d level).tail := by
  induction d generalizing fuel level with
  | zero =>
      cases fuel with
      | zero => exact absurd hfuel (Nat.not_lt_zero _)
      | succ fuel => simp [levelsAbove, hlen, levels]
  | succ d ih =>
      cases fuel with
      | zero => exact absurd hfuel (Nat.not_lt_zero _)
      | succ fuel =>
          have hpos : 0 < 2 ^ d := Nat.two_pow_pos d
          have hgt : level.length > 1 := by rw [hlen, Nat.pow_succ]; omega
          have hnext : (pairLevel (nodeHash keccak256) level).length = 2 ^ d := by
            rw [length_pairLevel, hlen, Nat.pow_succ]; omega
          have htail := ih (Nat.lt_of_succ_lt_succ hfuel) hnext
          rw [levelsAbove, if_pos hgt]
          dsimp only
          rw [htail]
          cases d <;> rfl

/-- The levels of a built cache: the perfect tree of depth 10 over the leaf hashes. -/
theorem buildMerkleCache_levels (state : CortexState) :
    (buildMerkleCache keccak256 state).levels =
      levels (nodeHash keccak256) 10 (state.words.map (leafHash keccak256)) := by
  have hlen : (state.words.map (leafHash keccak256)).length = 2 ^ 10 := by
    rw [List.length_map, state.length_words]; rfl
  show _ :: levelsAbove keccak256 _ _ = _
  rw [levelsAbove_eq_levels keccak256 (by rw [hlen]; decide) hlen]
  rfl

/-- A cache whose levels are those of `state` is the cache of `state`. -/
theorem buildMerkleCache_eq (state : CortexState) :
    buildMerkleCache keccak256 state =
      { levels := (buildMerkleCache keccak256 state).levels
        root := topNode keccak256 (buildMerkleCache keccak256 state).levels } := rfl

/-- The keys of a dedup map stay distinct. -/
theorem nodup_dedupSet {deduped : List (Nat × Int)} (h : (deduped.map Prod.fst).Nodup)
    (index : Nat) (word : Int) : ((dedupSet deduped index word).map Prod.fst).Nodup := by
  unfold dedupSet
  split
  next hany =>
    have hkeys : (deduped.map fun e => if e.1 == index then (index, word) else e).map Prod.fst =
        deduped.map Prod.fst := by
      rw [List.map_map]
      refine List.map_congr_left fun e _ => ?_
      by_cases he : e.1 = index <;> simp [he]
    rwa [hkeys]
  next hany =>
    rw [List.map_append, List.nodup_append]
    refine ⟨h, List.nodup_singleton _, ?_⟩
    rintro a ha b hb rfl
    obtain rfl : a = index := by simpa using hb
    obtain ⟨e, he, rfl⟩ := List.mem_map.mp ha
    exact hany (List.any_eq_true.mpr ⟨e, he, beq_self_eq_true _⟩)

/-- Replacing the value of a key that is not there changes nothing. -/
theorem map_replace_of_not_mem {deduped : List (Nat × Int)} {index : Nat}
    (h : index ∉ deduped.map Prod.fst) (word : Int) :
    (deduped.map fun e => if e.1 == index then (index, word) else e) = deduped := by
  conv_rhs => rw [← List.map_id deduped]
  refine List.map_congr_left fun e he => ?_
  have hne : e.1 ≠ index := fun heq => h (heq ▸ List.mem_map_of_mem he)
  simp [hne]

/-- Writing a dedup map after one more `set` is writing the map, then the new value: of
two updates of one index the later one wins either way. -/
theorem overwrite_dedupSet {α : Type} (f : Int → α) (l : List α) {deduped : List (Nat × Int)}
    (h : (deduped.map Prod.fst).Nodup) (index : Nat) (word : Int) :
    overwrite l ((dedupSet deduped index word).map fun e => (e.1, f e.2)) =
      (overwrite l (deduped.map fun e => (e.1, f e.2))).set index (f word) := by
  unfold dedupSet
  split
  next hany =>
    induction deduped generalizing l with
    | nil => simp at hany
    | cons e deduped ih =>
        rw [List.map_cons, List.nodup_cons] at h
        by_cases he : e.1 = index
        · subst he
          have hkeys : e.1 ∉ (deduped.map fun e => (e.1, f e.2)).map Prod.fst := by
            rw [List.map_map]
            exact h.1
          simp only [List.map_cons, beq_self_eq_true, if_true, overwrite_cons]
          rw [map_replace_of_not_mem h.1, overwrite_set_comm _ hkeys, overwrite_set_comm _ hkeys,
            List.set_set]
        · have hany' : deduped.any (·.1 == index) = true := by simpa [he] using hany
          rw [List.map_cons, if_neg (by simpa using he), List.map_cons, List.map_cons,
            overwrite_cons, overwrite_cons]
          exact ih _ h.2 hany'
  next hany =>
    rw [List.map_append, overwrite_append]
    rfl

/-- The dedup loop over in-range updates succeeds, with distinct keys, and its writes are
those of the updates. -/
theorem dedupUpdates_spec {α : Type} (f : Int → α) {updates : List MerkleWordUpdate}
    (hrange : ∀ u ∈ updates, 0 ≤ u.index ∧ u.index < (Ranges.wordCount : Int)) (l : List α) :
    ∃ deduped, dedupUpdates updates = .ok deduped ∧
      overwrite l (deduped.map fun e => (e.1, f e.2)) =
        overwrite l (updates.map fun u => (u.index.toNat, f u.word)) := by
  have hgo : ∀ (us : List MerkleWordUpdate) (acc : List (Nat × Int)) (l : List α),
      (∀ u ∈ us, 0 ≤ u.index ∧ u.index < (Ranges.wordCount : Int)) → (acc.map Prod.fst).Nodup →
      ∃ deduped, (us.foldlM
          (fun deduped update =>
            let index := update.index
            if update.index < 0 ∨ (Ranges.wordCount : Int) ≤ update.index then
              throw (rangeError s!"updateMerkleCache: index out of range {index}")
            else pure (dedupSet deduped update.index.toNat update.word))
          acc : Except JsError _) = .ok deduped ∧
        overwrite l (deduped.map fun e => (e.1, f e.2)) =
          overwrite (overwrite l (acc.map fun e => (e.1, f e.2)))
            (us.map fun u => (u.index.toNat, f u.word)) := by
    intro us
    induction us with
    | nil => exact fun acc l _ _ => ⟨acc, rfl, rfl⟩
    | cons u us ih =>
        intro acc l hus hacc
        obtain ⟨h0, h1⟩ := hus u List.mem_cons_self
        have hok : ¬ (u.index < 0 ∨ (Ranges.wordCount : Int) ≤ u.index) := by omega
        obtain ⟨deduped, hrun, hwrites⟩ :=
          ih (dedupSet acc u.index.toNat u.word) l (fun v hv => hus v (List.mem_cons_of_mem _ hv))
            (nodup_dedupSet hacc _ _)
        refine ⟨deduped, ?_, ?_⟩
        · rw [List.foldlM_cons, if_neg hok]
          exact hrun
        · rw [hwrites, overwrite_dedupSet f l hacc, List.map_cons, overwrite_cons]
  exact hgo updates [] l hrange List.nodup_nil

/-- Writing into a level moves only the written positions. -/
theorem agreeOff_overwrite {α : Type} (l : List α) (ws : List (Nat × α)) :
    AgreeOff (ws.map Prod.fst) l (overwrite l ws) :=
  ⟨(length_overwrite l ws).symm, fun _ hi => (getElem?_overwrite_of_not_mem l hi).symm⟩

/-- **Updating is rebuilding.** Updating the cache of a state gives the cache of the state
with the words written. -/
theorem updateMerkleCache_build (state : CortexState) {updates : List MerkleWordUpdate}
    (hrange : ∀ u ∈ updates, 0 ≤ u.index ∧ u.index < (Ranges.wordCount : Int)) :
    updateMerkleCache keccak256 (buildMerkleCache keccak256 state) updates =
      .ok (buildMerkleCache keccak256
        (state.write (updates.map fun u => (u.index.toNat, u.word)))) := by
  have hlevels := buildMerkleCache_levels keccak256 state
  have hlength : (buildMerkleCache keccak256 state).levels.length = 11 := by
    rw [hlevels, length_levels]
  have hleaves : (buildMerkleCache keccak256 state).levels =
      state.words.map (leafHash keccak256) ::
        (levels (nodeHash keccak256) 10 (state.words.map (leafHash keccak256))).tail := by
    rw [hlevels]; rfl
  unfold updateMerkleCache
  rw [hleaves] at hlength ⊢
  dsimp only
  rw [if_neg (by rw [hlength, List.length_map, state.length_words]; decide)]
  cases updates with
  | nil => rfl
  | cons u us =>
      obtain ⟨deduped, hrun, hwrites⟩ := dedupUpdates_spec (leafHash keccak256) hrange
        (state.words.map (leafHash keccak256))
      have hwords : (state.write ((u :: us).map fun u => (u.index.toNat, u.word))).words.map
          (leafHash keccak256) = overwrite (state.words.map (leafHash keccak256))
            (deduped.map fun e => (e.1, leafHash keccak256 e.2)) := by
        rw [hwrites, CortexState.words_write, map_overwrite, List.map_map]
        rfl
      have hdirty := agreeOff_overwrite (state.words.map (leafHash keccak256))
        (deduped.map fun e => (e.1, leafHash keccak256 e.2))
      rw [List.map_map] at hdirty
      have hrefresh := refresh_levels (nodeHash keccak256) 10 hdirty
      rw [buildMerkleCache_eq keccak256 (state.write _), buildMerkleCache_levels, hwords,
        ← hrefresh]
      show Except.bind (dedupUpdates (u :: us)) _ = _
      rw [hrun]
      rfl

end CoreTex
