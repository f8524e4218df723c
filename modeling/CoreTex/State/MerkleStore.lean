import CoreTex.Lib.Except
import CoreTex.State.Merkle

/-!
# CoreTex.State.MerkleStore

The Merkle cache as the arrays it is made of (`state/merkle.ts`): a cache refers to its levels, and
the incremental update copies them and writes its own copies.

A store keeps the level arrays by reference. The two hash buffers are read before they are written
again and every digest is a fresh array, so digests stay values. `updateMerkleCacheIn_eq` connects
the run on a store to the update on values; `updateMerkleCacheIn_build` adds that no array that was
there moves.
-/

namespace CoreTex

open CoreTex.Lib

/-! ### Arrays by reference -/

/-- The level arrays of a heap; a reference is a position. -/
structure LevelStore where
  arrays : List (List Digest)

def LevelStore.read (h : LevelStore) (ref : Nat) : List Digest :=
  h.arrays[ref]?.getD []

/-- `levels[ref][i] = v`. -/
def LevelStore.set (h : LevelStore) (ref i : Nat) (v : Digest) : LevelStore where
  arrays := h.arrays.set ref ((h.read ref).set i v)

/-- New arrays, and the references to them. -/
def LevelStore.alloc (h : LevelStore) (levels : List (List Digest)) : LevelStore × List Nat :=
  (⟨h.arrays ++ levels⟩, List.range' h.arrays.length levels.length)

/-- A `MerkleTreeCache` whose levels are references. -/
structure CacheRef where
  levels : List Nat
  root : Digest

/-- The cache that a reference stands for. -/
def LevelStore.cache (h : LevelStore) (ref : CacheRef) : MerkleTreeCache where
  levels := ref.levels.map h.read
  root := ref.root

/-- The levels of a cache are arrays of the store. -/
def LevelStore.Holds (h : LevelStore) (ref : CacheRef) : Prop :=
  ∀ r ∈ ref.levels, r < h.arrays.length

/-- No array of `h` has moved in `h'`. -/
def LevelStore.Keeps (h h' : LevelStore) : Prop :=
  ∀ ref < h.arrays.length, h'.read ref = h.read ref

theorem LevelStore.Keeps.refl (h : LevelStore) : h.Keeps h := fun _ _ => rfl

theorem LevelStore.keeps_append (h : LevelStore) (levels : List (List Digest)) :
    h.Keeps ⟨h.arrays ++ levels⟩ := by
  intro ref href
  rw [LevelStore.read, LevelStore.read, List.getElem?_append_left href]

/-- A cache reads the same where no array has moved. -/
theorem LevelStore.Keeps.cache_eq {h h' : LevelStore} (hkeep : h.Keeps h') {ref : CacheRef}
    (hheld : h.Holds ref) : h'.cache ref = h.cache ref := by
  have hlevels : ref.levels.map h'.read = ref.levels.map h.read :=
    List.map_congr_left fun r hr => hkeep r (hheld r hr)
  rw [LevelStore.cache, LevelStore.cache, hlevels]

/-- New arrays read as what they were made of. -/
theorem LevelStore.map_read_append (old levels : List (List Digest)) :
    (List.range' old.length levels.length).map (LevelStore.read ⟨old ++ levels⟩) = levels := by
  induction levels generalizing old with
  | nil => rfl
  | cons level levels ih =>
      have hhead : LevelStore.read ⟨old ++ level :: levels⟩ old.length = level := by
        simp [LevelStore.read]
      have htail := ih (old ++ [level])
      rw [List.length_append, List.length_singleton, List.append_assoc] at htail
      rw [List.length_cons, List.range'_succ, List.map_cons, hhead]
      exact congrArg (level :: ·) htail

/-! ### The build and the update on a store -/

variable (keccak256 : Bytes → Digest)

/-- `buildMerkleCache` with fresh level arrays. -/
def buildMerkleCacheIn (h : LevelStore) (state : CortexState) : LevelStore × CacheRef :=
  let built := buildMerkleCache keccak256 state
  let (h, levels) := h.alloc built.levels
  (h, { levels, root := built.root })

/-- The loop over the deduplicated updates. -/
def writeLeaves (h : LevelStore) (leaves : Nat) (deduped : List (Nat × Int)) : LevelStore :=
  deduped.foldl (fun h e => h.set leaves e.1 (leafHash keccak256 e.2)) h

/-- The loop over the parents at one depth. -/
def writeParents (h : LevelStore) (currentLevel nextLevel : Nat) (parents : List Nat) :
    LevelStore :=
  parents.foldl
    (fun h parentIndex =>
      let level := h.read currentLevel
      match level[2 * parentIndex]?, level[2 * parentIndex + 1]? with
      | some left, some right => h.set nextLevel parentIndex (nodeHash keccak256 left right)
      | _, _ => h)
    h

/-- The loop over the depths. -/
def writeLevels (h : LevelStore) : List Nat → List Nat → LevelStore
  | currentLevel :: nextLevel :: rest, dirty =>
      let parents := parentsOf dirty
      writeLevels (writeParents keccak256 h currentLevel nextLevel parents) (nextLevel :: rest)
        parents
  | _, _ => h

/-- `updateMerkleCache`. -/
def updateMerkleCacheIn (h : LevelStore) (cache : CacheRef) (updates : List MerkleWordUpdate) :
    Except JsError (LevelStore × CacheRef) := do
  match cache.levels with
  | [] => throw (typeError "updateMerkleCache: invalid cache shape")
  | leaves :: _ =>
    if cache.levels.length ≠ 11 ∨ (h.read leaves).length ≠ Ranges.wordCount then
      throw (typeError "updateMerkleCache: invalid cache shape")
    if updates.isEmpty then
      return (h, cache)
    let deduped ← dedupUpdates updates
    -- `cache.levels.map((level) => [...level])`
    let (h, levels) := h.alloc (cache.levels.map h.read)
    let h := writeLeaves keccak256 h (levels.headD 0) deduped
    let h := writeLevels keccak256 h levels (deduped.map Prod.fst)
    return (h, { levels, root := topNode keccak256 (levels.map h.read) })

/-! ### The copies after each loop -/

/-- Writing to a copy that stands after `old`. -/
theorem LevelStore.set_append (old : List (List Digest)) (level : List Digest)
    (rest : List (List Digest)) (i : Nat) (v : Digest) :
    LevelStore.set ⟨old ++ level :: rest⟩ old.length i v = ⟨old ++ level.set i v :: rest⟩ := by
  simp [LevelStore.set, LevelStore.read]

theorem writeLeaves_append (old : List (List Digest)) (leaves : List Digest)
    (above : List (List Digest)) (deduped : List (Nat × Int)) :
    writeLeaves keccak256 ⟨old ++ leaves :: above⟩ old.length deduped =
      ⟨old ++ overwrite leaves (deduped.map fun e => (e.1, leafHash keccak256 e.2)) :: above⟩ := by
  induction deduped generalizing leaves with
  | nil => rfl
  | cons e deduped ih =>
      have hset := LevelStore.set_append old leaves above e.1 (leafHash keccak256 e.2)
      show writeLeaves keccak256 (LevelStore.set _ old.length e.1 _) old.length deduped = _
      rw [hset, ih, List.map_cons, overwrite_cons]

theorem writeParents_append (old : List (List Digest)) (current next : List Digest)
    (rest : List (List Digest)) (parents : List Nat) :
    writeParents keccak256 ⟨old ++ current :: next :: rest⟩ old.length (old.length + 1) parents =
      ⟨old ++ current :: refreshLevel (nodeHash keccak256) current parents next :: rest⟩ := by
  induction parents generalizing next with
  | nil => rfl
  | cons p parents ih =>
      have hread : LevelStore.read ⟨old ++ current :: next :: rest⟩ old.length = current := by
        simp [LevelStore.read]
      unfold writeParents at ih ⊢
      unfold refreshLevel at ih ⊢
      rw [List.foldl_cons, List.foldl_cons]
      dsimp only
      rw [hread]
      cases hleft : current[2 * p]? with
      | none => exact ih next
      | some left =>
          cases hright : current[2 * p + 1]? with
          | none => exact ih next
          | some right =>
              have hset := LevelStore.set_append (old ++ [current]) next rest p
                (nodeHash keccak256 left right)
              rw [List.length_append, List.length_singleton, List.append_assoc,
                List.append_assoc] at hset
              dsimp only
              rw [show old ++ current :: next :: rest = old ++ ([current] ++ next :: rest) from rfl,
                hset]
              exact ih _

/-- The loop over the depths leaves the refreshed levels in the copies. -/
theorem writeLevels_append (old : List (List Digest)) (current : List Digest)
    (above : List (List Digest)) (dirty : List Nat) :
    writeLevels keccak256 ⟨old ++ current :: above⟩
        (List.range' old.length (above.length + 1)) dirty =
      ⟨old ++ current :: refresh (nodeHash keccak256) current dirty above⟩ := by
  induction above generalizing old current dirty with
  | nil => rfl
  | cons next rest ih =>
      have hstep := writeParents_append keccak256 old current next rest (parentsOf dirty)
      have hrest := ih (old ++ [current])
        (refreshLevel (nodeHash keccak256) current (parentsOf dirty) next) (parentsOf dirty)
      rw [List.length_append, List.length_singleton, List.append_assoc, List.append_assoc] at hrest
      rw [List.length_cons, List.range'_succ, List.range'_succ]
      show writeLevels keccak256
        (writeParents keccak256 _ old.length (old.length + 1) (parentsOf dirty)) _ _ = _
      rw [hstep]
      exact hrest

theorem length_refresh {α : Type} (node : α → α → α) (below : List α) (dirty : List Nat)
    (above : List (List α)) : (refresh node below dirty above).length = above.length := by
  induction above generalizing below dirty with
  | nil => rfl
  | cons level above ih => rw [refresh, List.length_cons, List.length_cons, ih]

/-- What both loops leave in the copies of a cache's levels. -/
theorem writeLevels_alloc (h : LevelStore) (leaves : List Digest) (above : List (List Digest))
    (deduped : List (Nat × Int)) :
    let fresh := overwrite leaves (deduped.map fun e => (e.1, leafHash keccak256 e.2))
    let (copied, levels) := h.alloc (leaves :: above)
    writeLevels keccak256 (writeLeaves keccak256 copied (levels.headD 0) deduped) levels
        (deduped.map Prod.fst) =
      ⟨h.arrays ++ fresh :: refresh (nodeHash keccak256) fresh (deduped.map Prod.fst) above⟩ := by
  intro fresh
  have hhead : (h.alloc (leaves :: above)).2.headD 0 = h.arrays.length := rfl
  show writeLevels keccak256 (writeLeaves keccak256 _ ((h.alloc (leaves :: above)).2.headD 0) _)
    _ _ = _
  rw [hhead]
  show writeLevels keccak256 (writeLeaves keccak256 ⟨h.arrays ++ leaves :: above⟩ _ _) _ _ = _
  rw [writeLeaves_append]
  exact writeLevels_append keccak256 h.arrays fresh above (deduped.map Prod.fst)

/-- The references to the copies read whatever as many levels stand in their place. -/
theorem LevelStore.map_read_alloc (h : LevelStore) (levels fresh : List (List Digest))
    (hlen : fresh.length = levels.length) :
    (h.alloc levels).2.map (LevelStore.read ⟨h.arrays ++ fresh⟩) = fresh := by
  show (List.range' _ levels.length).map _ = _
  rw [← hlen]
  exact LevelStore.map_read_append h.arrays fresh

theorem LevelStore.holds_alloc (h : LevelStore) (levels fresh : List (List Digest))
    (hlen : fresh.length = levels.length) (root : Digest) :
    LevelStore.Holds ⟨h.arrays ++ fresh⟩ { levels := (h.alloc levels).2, root } := by
  intro r hr
  have hlt := (List.mem_range'_1.mp hr).2
  rw [List.length_append, hlen]
  exact hlt

/-! ### The store refines the values -/

/-- **The run on a store is the update on values.** It answers with the cache that the update on
values answers with, in arrays of the store, and moves no array that was there. -/
theorem updateMerkleCacheIn_eq {h : LevelStore} {ref : CacheRef} (hheld : h.Holds ref)
    {updates : List MerkleWordUpdate} {cache : MerkleTreeCache}
    (hrun : updateMerkleCache keccak256 (h.cache ref) updates = .ok cache) :
    ∃ h' ref', updateMerkleCacheIn keccak256 h ref updates = .ok (h', ref') ∧
      h'.cache ref' = cache ∧ h'.Holds ref' ∧ h.Keeps h' := by
  obtain ⟨levels, root⟩ := ref
  cases levels with
  | nil => cases hrun
  | cons leaves above =>
      unfold updateMerkleCache at hrun
      unfold updateMerkleCacheIn
      simp only [LevelStore.cache, List.map_cons, List.length_cons, List.length_map] at hrun ⊢
      by_cases hshape : above.length + 1 ≠ 11 ∨ (h.read leaves).length ≠ Ranges.wordCount
      · rw [if_pos hshape] at hrun
        cases hrun
      · rw [if_neg hshape] at hrun ⊢
        by_cases hempty : updates.isEmpty = true
        · rw [if_pos hempty] at hrun ⊢
          cases hrun
          exact ⟨h, ⟨leaves :: above, root⟩, rfl, rfl, hheld, .refl h⟩
        · rw [if_neg hempty] at hrun ⊢
          obtain ⟨deduped, hdedup, hcache⟩ := bind_eq_ok.mp hrun
          cases hcache
          have hlevels := writeLevels_alloc keccak256 h (h.read leaves) (above.map h.read) deduped
          dsimp only at hlevels
          have hlen := length_refresh (nodeHash keccak256)
            (overwrite (h.read leaves) (deduped.map fun e => (e.1, leafHash keccak256 e.2)))
            (deduped.map Prod.fst) (above.map h.read)
          generalize hfresh : overwrite (h.read leaves) (deduped.map fun e =>
            (e.1, leafHash keccak256 e.2)) :: refresh (nodeHash keccak256) _ _ _ = fresh
            at hlevels hrun ⊢
          have hlength : fresh.length = (h.read leaves :: above.map h.read).length := by
            rw [← hfresh, List.length_cons, List.length_cons, hlen]
          rw [hdedup, ok_bind, hlevels, h.map_read_alloc _ _ hlength]
          refine ⟨_, _, rfl, ?_, h.holds_alloc _ _ hlength _, h.keeps_append _⟩
          rw [h.map_read_alloc _ _ hlength]

/-! ### The cache of a state -/

/-- The build holds its levels in new arrays. -/
theorem buildMerkleCacheIn_spec (h : LevelStore) (state : CortexState) :
    let (h', ref) := buildMerkleCacheIn keccak256 h state
    h'.cache ref = buildMerkleCache keccak256 state ∧ h'.Holds ref := by
  have hread := h.map_read_alloc (buildMerkleCache keccak256 state).levels
    (buildMerkleCache keccak256 state).levels rfl
  refine ⟨?_, h.holds_alloc _ _ rfl _⟩
  show MerkleTreeCache.mk (List.map _ _) _ = _
  exact congrArg (MerkleTreeCache.mk · (buildMerkleCache keccak256 state).root) hread

/-- The words of a list of updates. -/
def wordWrites (updates : List MerkleWordUpdate) : List (Nat × Int) :=
  updates.map fun u => (u.index.toNat, u.word)

/-- Every index is inside the tree. -/
def InTree (updates : List MerkleWordUpdate) : Prop :=
  ∀ u ∈ updates, 0 ≤ u.index ∧ u.index < (Ranges.wordCount : Int)

instance (updates : List MerkleWordUpdate) : Decidable (InTree updates) := by
  unfold InTree
  infer_instance

/-- One update of the cache of a state, in a store that holds it. -/
theorem updateMerkleCacheIn_cache {h : LevelStore} {ref : CacheRef} (hheld : h.Holds ref)
    {state : CortexState} (hcache : h.cache ref = buildMerkleCache keccak256 state)
    {updates : List MerkleWordUpdate} (hupdates : InTree updates) :
    ∃ h' ref', updateMerkleCacheIn keccak256 h ref updates = .ok (h', ref') ∧
      h'.cache ref' = buildMerkleCache keccak256 (state.write (wordWrites updates)) ∧
      h'.Holds ref' ∧ h.Keeps h' := by
  apply updateMerkleCacheIn_eq keccak256 hheld
  rw [hcache]
  exact updateMerkleCache_build keccak256 state hupdates

theorem write_append (state : CortexState) (us vs : List MerkleWordUpdate) :
    state.write (wordWrites (us ++ vs)) = (state.write (wordWrites us)).write (wordWrites vs) := by
  apply CortexState.ext
  rw [CortexState.words_write, CortexState.words_write, CortexState.words_write, wordWrites,
    List.map_append, overwrite_append]
  rfl

/-- **An incremental update is a rebuild.** On the cache built of a state the update answers with
the cache of the state with the words written in order, in every node of every level. The arrays
that were there, the given cache among them, stay as they are. A second update on the answer is
one update with both lists. -/
theorem updateMerkleCacheIn_build (h : LevelStore) (state : CortexState)
    (us vs : List MerkleWordUpdate) (hus : InTree us) (hvs : InTree vs) :
    let (h₀, cache) := buildMerkleCacheIn keccak256 h state
    ∃ h₁ updated, updateMerkleCacheIn keccak256 h₀ cache us = .ok (h₁, updated) ∧
      h₁.cache updated = buildMerkleCache keccak256 (state.write (wordWrites us)) ∧
      h₀.Keeps h₁ ∧ h₁.cache cache = h₀.cache cache ∧
      ∃ h₂ twice, updateMerkleCacheIn keccak256 h₁ updated vs = .ok (h₂, twice) ∧
        ∃ h₃ once, updateMerkleCacheIn keccak256 h₀ cache (us ++ vs) = .ok (h₃, once) ∧
          h₂.cache twice = h₃.cache once := by
  obtain ⟨hcache, hheld⟩ := buildMerkleCacheIn_spec keccak256 h state
  obtain ⟨h₁, updated, hrun, hupdated, hheld₁, hkeep⟩ :=
    updateMerkleCacheIn_cache keccak256 hheld hcache hus
  obtain ⟨h₂, twice, hrun₂, htwice, -, -⟩ :=
    updateMerkleCacheIn_cache keccak256 hheld₁ hupdated hvs
  have hboth : InTree (us ++ vs) := by
    intro u hu
    rcases List.mem_append.mp hu with hu | hu
    · exact hus u hu
    · exact hvs u hu
  obtain ⟨h₃, once, hrun₃, honce, -, -⟩ :=
    updateMerkleCacheIn_cache keccak256 hheld hcache hboth
  refine ⟨h₁, updated, hrun, hupdated, hkeep, hkeep.cache_eq hheld, h₂, twice, hrun₂, h₃, once,
    hrun₃, ?_⟩
  rw [htwice, honce, write_append]

/-- Two writes of one word and one of its sibling, then one more write. -/
theorem updateMerkleCacheIn_build_sample :
    let state : CortexState := ⟨List.replicate Ranges.wordCount 0, List.length_replicate⟩
    let (h₀, cache) := buildMerkleCacheIn tailDigest ⟨[]⟩ state
    ∃ h₁ updated, updateMerkleCacheIn tailDigest h₀ cache [⟨3, 7⟩, ⟨2, 5⟩, ⟨3, 9⟩] =
        .ok (h₁, updated) ∧
      h₁.cache updated = buildMerkleCache tailDigest (state.write [(3, 7), (2, 5), (3, 9)]) ∧
      h₁.cache cache = h₀.cache cache := by
  intro state
  obtain ⟨h₁, updated, hrun, hupdated, -, hkept, -⟩ :=
    updateMerkleCacheIn_build tailDigest ⟨[]⟩ state [⟨3, 7⟩, ⟨2, 5⟩, ⟨3, 9⟩] [⟨1023, 1⟩]
      (by decide) (by decide)
  exact ⟨h₁, updated, hrun, hupdated, hkept⟩

end CoreTex
