import CoreTex.Hash.Keccak256
import CoreTex.Lib.Except
import CoreTex.Lib.Json
import CoreTex.Lib.MerkleForest
import CoreTex.Lib.Sort
import CoreTex.State.Merkle
import Mathlib.Data.List.Lex
import Mathlib.Data.Nat.Log

/-!
# CoreTex.Corpus.RootCache

The incremental corpus root (`retrieval-corpus.ts`): sorted leaves, the forest of a binary
counter over them, and the root of the forest padded with zero subtrees.

The forest is kept as a stack, the array's last node first. `targetOf` runs the loop that
doubles a 32-bit target: it never ends when there are more than `2 ^ 30` events.
-/

namespace CoreTex.Corpus

open CoreTex.Lib

/-! ### Leaves and forests -/

/-- A string, by its UTF-16 code units. -/
abbrev JsString := List Nat

/-- `CorpusRootLeaf`. -/
structure CorpusRootLeaf where
  id : JsString
  hash : Bytes
  deriving DecidableEq, Repr

/-- `codePointCompare`. -/
def codePointCompare (a b : JsString) : Int :=
  if a < b then -1 else if b < a then 1 else 0

/-- Why no root comes back. -/
inductive RootFailure
  | thrown (message : String)
  | neverReturns
  deriving DecidableEq, Repr

section Forest

variable (keccak256 : Bytes → Bytes)

/-- `combineRoots`. -/
def combineRoots (left right : Bytes) : Bytes :=
  keccak256 (left ++ right)

/-- A leaf that is not there. -/
def zeroLeaf : Bytes :=
  List.replicate 32 0

/-- `combineNodes`. -/
def combineNodes (left right : TreeNode Bytes) : Except RootFailure (TreeNode Bytes) :=
  let l := left.size
  let r := right.size
  if left.size ≠ right.size then .error (.thrown s!"combineNodes: size mismatch {l} != {r}")
  else .ok (.branch (combineRoots keccak256) left right)

/-- `appendNodeToForest`. -/
def appendNodeToForest : List (TreeNode Bytes) → TreeNode Bytes →
    Except RootFailure (List (TreeNode Bytes))
  | [], node => .ok [node]
  | top :: forest, node =>
    if top.size = node.size then do
      let node ← combineNodes keccak256 top node
      appendNodeToForest forest node
    else .ok (node :: top :: forest)

/-- Leaves appended to a forest, one by one. -/
def appendLeaves : List (TreeNode Bytes) → List CorpusRootLeaf →
    Except RootFailure (List (TreeNode Bytes))
  | forest, [] => .ok forest
  | forest, leaf :: leaves => do
    let forest ← appendNodeToForest keccak256 forest (.tip 1 leaf.hash)
    appendLeaves forest leaves

/-- `buildForestFromLeaves`. -/
def buildForestFromLeaves (leaves : List CorpusRootLeaf) :
    Except RootFailure (List (TreeNode Bytes)) :=
  appendLeaves keccak256 [] leaves

/-- `zeroNode`, of a size that is a power of two. -/
def zeroNode (size : Nat) : TreeNode Bytes :=
  if size ≤ 1 then .tip size zeroLeaf
  else
    let child := zeroNode (size / 2)
    .fork size (combineRoots keccak256 child.root child.root) child child
termination_by size

/-- The loop of `largestAlignedBlock`, which starts at 1. -/
def largestAlignedFrom (position remaining size : Nat) : Nat :=
  if 0 < size ∧ size * 2 ≤ remaining ∧ position % (size * 2) = 0 then
    largestAlignedFrom position remaining (size * 2)
  else size
termination_by remaining - size

/-- `largestAlignedBlock`. -/
def largestAlignedBlock (position remaining : Nat) : Nat :=
  largestAlignedFrom position remaining 1

/-- A block is a power of two that fits and divides the position. -/
theorem largestAlignedBlock_spec (position : Nat) {remaining : Nat} (h : 0 < remaining) :
    ∃ e, largestAlignedBlock position remaining = 2 ^ e ∧ 2 ^ e ≤ remaining ∧
      2 ^ e ∣ position := by
  suffices hfrom : ∀ e, 2 ^ e ≤ remaining → 2 ^ e ∣ position →
      ∃ e', largestAlignedFrom position remaining (2 ^ e) = 2 ^ e' ∧ 2 ^ e' ≤ remaining ∧
        2 ^ e' ∣ position from hfrom 0 h (Nat.one_dvd _)
  intro e hle hdvd
  induction hn : remaining - 2 ^ e using Nat.strong_induction_on generalizing e with
  | _ n ih =>
      have hpos := Nat.two_pow_pos e
      rw [largestAlignedFrom]
      by_cases hstep : 0 < 2 ^ e ∧ 2 ^ e * 2 ≤ remaining ∧ position % (2 ^ e * 2) = 0
      · rw [if_pos hstep, ← Nat.pow_succ]
        refine ih (remaining - 2 ^ (e + 1)) ?_ (e + 1) ?_ ?_ rfl
        · rw [Nat.pow_succ]
          omega
        · rw [Nat.pow_succ]
          exact hstep.2.1
        · rw [Nat.pow_succ]
          exact Nat.dvd_of_mod_eq_zero hstep.2.2
      · rw [if_neg hstep]
        exact ⟨e, rfl, hle, hdvd⟩

/-- The padding loop of `rootFromForest`. -/
def padForest (work : List (TreeNode Bytes)) (position remaining : Nat) :
    Except RootFailure (List (TreeNode Bytes)) :=
  if _h : 0 < remaining then
    let size := largestAlignedBlock position remaining
    match appendNodeToForest keccak256 work (zeroNode keccak256 size) with
    | .error e => .error e
    | .ok work => padForest work (position + size) (remaining - size)
  else .ok work
termination_by remaining
decreasing_by
  obtain ⟨e, hsize, -⟩ := largestAlignedBlock_spec position _h
  have := Nat.two_pow_pos e
  omega

/-- `target <<= 1`, on 32-bit integers. -/
def shiftTarget (target : Int) : Int :=
  Int.bmod (target * 2) (2 ^ 32)

/-- The target after `while (target < eventCount) target <<= 1`, if the loop ends. After 32
shifts the target is 0 and stays 0, so a loop that is still running then never ends. -/
def targetOf (eventCount : Nat) : Option Int :=
  ((List.range 33).map fun k => shiftTarget^[k] 1).find? fun target => ¬ target < eventCount

/-- `rootFromForest`. -/
def rootFromForest (forest : List (TreeNode Bytes)) (eventCount : Nat) :
    Except RootFailure String :=
  if eventCount = 0 then .ok (bytesToHex zeroLeaf)
  else
    match targetOf eventCount with
    | none => .error .neverReturns
    | some target => do
      let work ← padForest keccak256 forest eventCount (target - eventCount).toNat
      let chunks := work.length
      match work with
      | [node] => .ok (bytesToHex node.root)
      | _ => .error (.thrown (s!"rootFromForest: forest did not reduce to one root " ++
          s!"(chunks={chunks}, eventCount={eventCount})"))

/-! ### Forests and their leaves -/

variable {keccak256}

theorem appendNodeToForest_eq (forest : List (TreeNode Bytes)) (node : TreeNode Bytes) :
    appendNodeToForest keccak256 forest node =
      .ok (carry (combineRoots keccak256) forest node) := by
  induction forest generalizing node with
  | nil => rfl
  | cons top forest ih =>
      rw [appendNodeToForest, carry]
      by_cases hsize : top.size = node.size
      · rw [if_pos hsize, if_pos hsize, combineNodes, if_neg (not_not.mpr hsize), ok_bind, ih]
      · rw [if_neg hsize, if_neg hsize]

/-- A stack of trees under `combineRoots`, over a row of leaf hashes. -/
abbrev Stands (keccak256 : Bytes → Bytes) (forest : List (TreeNode Bytes))
    (hashes : List Bytes) : Prop :=
  Represents (combineRoots keccak256) zeroLeaf forest hashes

/-- Appending leaves never fails, and the forest stands over the longer row. -/
theorem appendLeaves_stands {forest : List (TreeNode Bytes)} {hashes : List Bytes}
    (h : Stands keccak256 forest hashes) (leaves : List CorpusRootLeaf) :
    ∃ forest', appendLeaves keccak256 forest leaves = .ok forest' ∧
      Stands keccak256 forest' (hashes ++ leaves.map CorpusRootLeaf.hash) := by
  induction leaves generalizing forest hashes with
  | nil => exact ⟨forest, rfl, by simpa using h⟩
  | cons leaf leaves ih =>
      have hblock : [leaf.hash].length = 2 ^ 0 := rfl
      have hnext := h.append hblock (Nat.one_dvd _)
      obtain ⟨forest', heq, hstands⟩ := ih hnext
      refine ⟨forest', ?_, ?_⟩
      · rw [appendLeaves, appendNodeToForest_eq, ok_bind]
        exact heq
      · rw [List.append_assoc] at hstands
        exact hstands

theorem zeroNode_eq (e : Nat) : zeroNode keccak256 (2 ^ e) =
    .perfect (combineRoots keccak256) zeroLeaf e (List.replicate (2 ^ e) zeroLeaf) := by
  induction e with
  | zero =>
      rw [zeroNode, if_pos (by decide)]
      rfl
  | succ e ih =>
      have hpos := Nat.two_pow_pos e
      have hhalf : 2 ^ (e + 1) / 2 = 2 ^ e := by
        rw [Nat.pow_succ]
        omega
      have hsplit : List.replicate (2 ^ (e + 1)) zeroLeaf =
          List.replicate (2 ^ e) zeroLeaf ++ List.replicate (2 ^ e) zeroLeaf := by
        rw [List.replicate_append_replicate, Nat.pow_succ, Nat.mul_two]
      rw [zeroNode, if_neg (by rw [Nat.pow_succ]; omega), hhalf, ih, hsplit,
        ← TreeNode.branch_perfect _ _ List.length_replicate, TreeNode.branch,
        TreeNode.size_perfect, Nat.pow_succ, Nat.mul_two]

/-- Padding a forest stands it over its leaves and as many zeros as were missing. -/
theorem padForest_stands {work : List (TreeNode Bytes)} {hashes : List Bytes}
    (h : Stands keccak256 work hashes) (remaining : Nat) :
    ∃ work', padForest keccak256 work hashes.length remaining = .ok work' ∧
      Stands keccak256 work' (hashes ++ List.replicate remaining zeroLeaf) := by
  induction remaining using Nat.strong_induction_on generalizing work hashes with
  | _ remaining ih =>
      by_cases hpos : 0 < remaining
      · obtain ⟨e, hsize, hle, hdvd⟩ := largestAlignedBlock_spec hashes.length hpos
        have hblock : (List.replicate (2 ^ e) zeroLeaf).length = 2 ^ e := List.length_replicate
        have hnext := h.append hblock hdvd
        rw [← zeroNode_eq] at hnext
        obtain ⟨work', heq, hstands⟩ := ih (remaining - 2 ^ e)
          (Nat.sub_lt hpos (Nat.two_pow_pos e)) hnext
        rw [List.length_append, hblock] at heq
        rw [List.append_assoc, List.replicate_append_replicate,
          Nat.add_sub_cancel' hle] at hstands
        refine ⟨work', ?_, hstands⟩
        rw [padForest, dif_pos hpos]
        simp only [hsize, appendNodeToForest_eq, heq]
      · obtain rfl : remaining = 0 := by omega
        refine ⟨work, ?_, by simpa using h⟩
        rw [padForest, dif_neg (Nat.lt_irrefl 0)]

/-! ### The target -/

/-- The values the shifted target goes through. -/
theorem targets_eq : ((List.range 33).map fun k => shiftTarget^[k] 1) =
    (List.range 31).map (fun k => ((2 ^ k : Nat) : Int)) ++ [-2147483648, 0] := by
  decide

/-- Up to `2 ^ 30` events the loop ends at the next power of two. -/
theorem targetOf_eq_some {n : Nat} (hle : n ≤ 2 ^ 30) :
    targetOf n = some ((2 ^ Nat.clog 2 n : Nat) : Int) := by
  have hfirst : (List.range 31).find? ((fun target : Int => decide ¬ target < n) ∘
      fun k => ((2 ^ k : Nat) : Int)) = some (Nat.clog 2 n) := by
    refine List.find?_range_eq_some.mpr ⟨?_, List.mem_range.mpr ?_, fun j hj => ?_⟩
    · have := Nat.le_pow_clog (b := 2) (by decide) n
      simp only [Function.comp, decide_eq_true_eq]
      omega
    · exact Nat.lt_succ_of_le (Nat.clog_le_of_le_pow hle)
    · have := Nat.pow_lt_of_lt_clog hj
      simp only [Function.comp, Bool.not_eq_true', decide_eq_false_iff_not, not_not]
      omega
  rw [targetOf, targets_eq, List.find?_append, List.find?_map, hfirst]
  rfl

/-- Beyond that it never ends. -/
theorem targetOf_eq_none {n : Nat} (h : 2 ^ 30 < n) : targetOf n = none := by
  rw [targetOf, targets_eq, List.find?_eq_none]
  intro target htarget
  rw [decide_eq_true_eq, not_not]
  rcases List.mem_append.mp htarget with hpow | hover
  · obtain ⟨k, hk, rfl⟩ := List.mem_map.mp hpow
    have hk : k ≤ 30 := Nat.le_of_lt_succ (List.mem_range.mp hk)
    exact Int.ofNat_lt.mpr ((Nat.pow_le_pow_right (by decide) hk).trans_lt h)
  · rcases List.mem_cons.mp hover with rfl | hzero
    · omega
    · rw [List.mem_singleton.mp hzero]
      omega

/-- The root of the perfect tree over a row of leaf hashes, padded with zero leaves to the
next power of two. -/
def paddedRoot (keccak256 : Bytes → Bytes) (hashes : List Bytes) : Bytes :=
  let depth := Nat.clog 2 hashes.length
  (TreeNode.perfect (combineRoots keccak256) zeroLeaf depth
    (hashes ++ List.replicate (2 ^ depth - hashes.length) zeroLeaf)).root

theorem rootFromForest_eq {forest : List (TreeNode Bytes)} {hashes : List Bytes}
    (h : Stands keccak256 forest hashes) (hpos : 0 < hashes.length)
    (hle : hashes.length ≤ 2 ^ 30) :
    rootFromForest keccak256 forest hashes.length =
      .ok (bytesToHex (paddedRoot keccak256 hashes)) := by
  have hclog : hashes.length ≤ 2 ^ Nat.clog 2 hashes.length :=
    Nat.le_pow_clog (by decide) _
  have hremaining : ((2 ^ Nat.clog 2 hashes.length : Nat) - (hashes.length : Int)).toNat =
      2 ^ Nat.clog 2 hashes.length - hashes.length := by omega
  obtain ⟨work, hwork, hstands⟩ :=
    padForest_stands h (2 ^ Nat.clog 2 hashes.length - hashes.length)
  have hroot := hstands.eq_root (D := Nat.clog 2 hashes.length) (by simp; omega)
  rw [rootFromForest, if_neg (by omega), targetOf_eq_some hle]
  simp only [hremaining, hwork, ok_bind, hroot]
  rfl

end Forest

/-! ### Caches -/

/-- `CorpusRootLeafCache`. -/
structure CorpusRootLeafCache where
  schema : String
  eventCount : Nat
  root : String
  leaves : List CorpusRootLeaf
  forest : List (TreeNode Bytes)

/-- The `schema` of every cache. -/
def cacheSchema : String :=
  "coretex.corpus-root-leaf-cache.v1"

section Cache

variable (keccak256 : Bytes → Bytes) (S : CompareSort)

/-- Leaves in id order. -/
def sortLeaves (leaves : List CorpusRootLeaf) : List CorpusRootLeaf :=
  S.sort (fun a b => codePointCompare a.id b.id) leaves

/-- `buildCorpusRootLeafCacheFromLeaves`. -/
def buildCorpusRootLeafCacheFromLeaves (inputLeaves : List CorpusRootLeaf) :
    Except RootFailure CorpusRootLeafCache := do
  let leaves := sortLeaves S inputLeaves
  let forest ← buildForestFromLeaves keccak256 leaves
  let root ← rootFromForest keccak256 forest leaves.length
  .ok { schema := cacheSchema, eventCount := leaves.length, root := root, leaves := leaves,
        forest := forest }

/-- The merge loop: old leaves that are not replaced, and the added ones, by id. -/
def mergeLeaves (replaced : JsString → Bool) (old added : List CorpusRootLeaf) :
    List CorpusRootLeaf :=
  match _h : old.dropWhile fun leaf => replaced leaf.id, added with
  | [], added => added
  | leaf :: rest, [] => (leaf :: rest).filter fun leaf => ¬ replaced leaf.id
  | leaf :: rest, new :: added =>
    if codePointCompare leaf.id new.id ≤ 0 then
      leaf :: mergeLeaves replaced rest (new :: added)
    else new :: mergeLeaves replaced (leaf :: rest) added
termination_by old.length + added.length
decreasing_by
  all_goals
    have hle : (old.dropWhile fun leaf => replaced leaf.id).length ≤ old.length :=
      (List.dropWhile_sublist _).length_le
    rw [_h] at hle
    simp only [List.length_cons] at hle ⊢
    omega

/-- An update: what is added and what is removed. -/
structure CorpusRootLeafCacheUpdate (Event : Type) where
  additions : List Event
  removals : List JsString

variable {Event : Type} (eventId : Event → JsString)
  (computeCorpusEventLeafHash : Event → Bytes)

/-- The leaf of an event. -/
def leafOf (event : Event) : CorpusRootLeaf where
  id := eventId event
  hash := computeCorpusEventLeafHash event

/-- `buildCorpusRootLeafCache`. -/
def buildCorpusRootLeafCache (events : List Event) : Except RootFailure CorpusRootLeafCache :=
  let sorted := S.sort (fun a b => codePointCompare (eventId a) (eventId b)) events
  buildCorpusRootLeafCacheFromLeaves keccak256 S
    (sorted.map (leafOf eventId computeCorpusEventLeafHash))

/-- Membership in `replacedIds`: removed, or added again. -/
def CorpusRootLeafCacheUpdate.replaces (update : CorpusRootLeafCacheUpdate Event)
    (id : JsString) : Bool :=
  decide (id ∈ update.removals ∨ id ∈ update.additions.map eventId)

/-- `updateCorpusRootLeafCache`. -/
def updateCorpusRootLeafCache (cache : CorpusRootLeafCache)
    (update : CorpusRootLeafCacheUpdate Event) : Except RootFailure CorpusRootLeafCache :=
  if update.additions.isEmpty && update.removals.isEmpty then .ok cache
  else
    let added := sortLeaves S (update.additions.map (leafOf eventId computeCorpusEventLeafHash))
    let isTailAppend := update.removals.isEmpty && (cache.leaves.getLast?).all fun last =>
      added.all fun leaf => codePointCompare last.id leaf.id < 0
    if isTailAppend then do
      let leaves := cache.leaves ++ added
      let forest ← appendLeaves keccak256 cache.forest added
      let root ← rootFromForest keccak256 forest leaves.length
      .ok { schema := cacheSchema, eventCount := leaves.length, root := root, leaves := leaves,
            forest := forest }
    else
      buildCorpusRootLeafCacheFromLeaves keccak256 S
        (mergeLeaves (update.replaces eventId) cache.leaves added)

end Cache

/-! ### Sorted leaves -/

theorem codePointCompare_le {a b : JsString} : codePointCompare a b ≤ 0 ↔ a ≤ b := by
  unfold codePointCompare
  by_cases hab : a < b
  · simp [hab, hab.le]
  · by_cases hba : b < a
    · simp [hab, hba]
    · simp [hab, hba, not_lt.mp hba]

theorem codePointCompare_lt {a b : JsString} : codePointCompare a b < 0 ↔ a < b := by
  unfold codePointCompare
  by_cases hab : a < b
  · simp [hab]
  · by_cases hba : b < a <;> simp [hab, hba]

theorem codePointCompare_consistent {α : Type} (id : α → JsString) :
    Consistent fun a b : α => codePointCompare (id a) (id b) where
  swap a b := by
    simp only [codePointCompare_le]
    exact le_total (id a) (id b)
  trans a b c := by
    simp only [codePointCompare_le]
    exact le_trans

variable {keccak256 : Bytes → Bytes} {S : CompareSort}

/-- Leaves that tie have one id. -/
theorem sortLeaves_eq_of_perm {l l' : List CorpusRootLeaf} (hperm : l.Perm l')
    (hnodup : (l.map CorpusRootLeaf.id).Nodup) : sortLeaves S l = sortLeaves S l' := by
  refine S.sort_eq_of_perm (codePointCompare_consistent CorpusRootLeaf.id) hperm ?_
  intro a ha b hb hab hba
  exact List.inj_on_of_nodup_map hnodup ha hb
    (le_antisymm (codePointCompare_le.mp hab) (codePointCompare_le.mp hba))

theorem sortLeaves_eq_self {l : List CorpusRootLeaf}
    (hsorted : (l.map CorpusRootLeaf.id).Pairwise (· < ·)) : sortLeaves S l = l := by
  rw [List.pairwise_map] at hsorted
  refine S.sort_eq_self (codePointCompare_consistent CorpusRootLeaf.id) ?_ ?_
  · exact hsorted.imp fun hab => codePointCompare_le.mpr hab.le
  · intro a ha b hb hab hba
    refine List.inj_on_of_nodup_map ?_ ha hb
      (le_antisymm (codePointCompare_le.mp hab) (codePointCompare_le.mp hba))
    exact List.pairwise_map.mpr (hsorted.imp fun hab => hab.ne)

theorem sortLeaves_perm (l : List CorpusRootLeaf) : (sortLeaves S l).Perm l :=
  S.perm _ l

theorem sortLeaves_ascending {l : List CorpusRootLeaf}
    (hnodup : (l.map CorpusRootLeaf.id).Nodup) :
    ((sortLeaves S l).map CorpusRootLeaf.id).Pairwise (· < ·) := by
  have hsorted := S.sorted _ l (codePointCompare_consistent CorpusRootLeaf.id)
  have hdistinct : ((sortLeaves S l).map CorpusRootLeaf.id).Nodup :=
    ((sortLeaves_perm l).map _).nodup_iff.mpr hnodup
  rw [List.pairwise_map]
  refine (hsorted.and (List.pairwise_map.mp hdistinct)).imp ?_
  rintro a b ⟨hab, hne⟩
  exact lt_of_le_of_ne (codePointCompare_le.mp hab) hne

theorem buildFromLeaves_perm {l l' : List CorpusRootLeaf} (hperm : l.Perm l')
    (hnodup : (l.map CorpusRootLeaf.id).Nodup) :
    buildCorpusRootLeafCacheFromLeaves keccak256 S l =
      buildCorpusRootLeafCacheFromLeaves keccak256 S l' := by
  rw [buildCorpusRootLeafCacheFromLeaves, sortLeaves_eq_of_perm hperm hnodup]
  rfl

/-! ### The merge -/

theorem filter_dropWhile {α : Type} (p : α → Bool) (l : List α) :
    (l.dropWhile p).filter (fun a => ¬ p a) = l.filter fun a => ¬ p a := by
  induction l with
  | nil => rfl
  | cons a l ih =>
      by_cases ha : p a = true
      · rw [List.dropWhile_cons_of_pos ha, ih, List.filter_cons_of_neg (by simpa using ha)]
      · rw [List.dropWhile_cons_of_neg ha]

theorem head_dropWhile {α : Type} {p : α → Bool} {l rest : List α} {a : α}
    (h : l.dropWhile p = a :: rest) : p a = false := by
  have := List.head?_dropWhile_not p l
  rw [h] at this
  simpa using this

/-- The merge keeps the old leaves that are not replaced, and all the added ones. -/
theorem mergeLeaves_perm (replaced : JsString → Bool) (old added : List CorpusRootLeaf) :
    (mergeLeaves replaced old added).Perm
      ((old.filter fun leaf => ¬ replaced leaf.id) ++ added) := by
  have hfilter := fun old : List CorpusRootLeaf =>
    filter_dropWhile (fun leaf : CorpusRootLeaf => replaced leaf.id) old
  fun_induction mergeLeaves replaced old added with
  | case1 old added h =>
      rw [← hfilter, h]
      exact .refl _
  | case2 old leaf rest h =>
      rw [← hfilter old, h, List.append_nil]
  | case3 old leaf rest new added h hcmp ih =>
      rw [← hfilter, h, List.filter_cons_of_pos (by simpa using head_dropWhile h), List.cons_append]
      exact ih.cons leaf
  | case4 old leaf rest new added h hcmp ih =>
      rw [← hfilter, h]
      exact (ih.cons new).trans List.perm_middle.symm

/-! ### Roots -/

theorem rootFromForest_neverReturns {forest : List (TreeNode Bytes)} {n : Nat} (h : 2 ^ 30 < n) :
    rootFromForest keccak256 forest n = .error .neverReturns := by
  rw [rootFromForest, if_neg (by omega), targetOf_eq_none h]

theorem buildForestFromLeaves_stands (keccak256 : Bytes → Bytes) (leaves : List CorpusRootLeaf) :
    ∃ forest, buildForestFromLeaves keccak256 leaves = .ok forest ∧
      Stands keccak256 forest (leaves.map CorpusRootLeaf.hash) :=
  appendLeaves_stands .nil leaves

theorem buildFromLeaves_neverReturns {leaves : List CorpusRootLeaf} (h : 2 ^ 30 < leaves.length) :
    buildCorpusRootLeafCacheFromLeaves keccak256 S leaves = .error .neverReturns := by
  obtain ⟨forest, hforest, -⟩ := buildForestFromLeaves_stands keccak256
    (sortLeaves S leaves)
  have hlength : 2 ^ 30 < (sortLeaves S leaves).length := by
    rwa [(sortLeaves_perm leaves).length_eq]
  rw [buildCorpusRootLeafCacheFromLeaves, hforest, ok_bind, rootFromForest_neverReturns hlength]
  rfl

/-- Up to `2 ^ 30` leaves a cache comes back, with the padded root of the sorted leaves. -/
theorem buildFromLeaves_root (keccak256 : Bytes → Bytes) (S : CompareSort)
    {leaves : List CorpusRootLeaf} (h : leaves.length ≤ 2 ^ 30) :
    ∃ cache, buildCorpusRootLeafCacheFromLeaves keccak256 S leaves = .ok cache ∧
      (leaves ≠ [] → cache.root =
        bytesToHex (paddedRoot keccak256 ((sortLeaves S leaves).map CorpusRootLeaf.hash))) := by
  obtain ⟨forest, hforest, hstands⟩ := buildForestFromLeaves_stands keccak256
    (sortLeaves S leaves)
  have hlength := (sortLeaves_perm (S := S) leaves).length_eq
  rw [buildCorpusRootLeafCacheFromLeaves, hforest, ok_bind]
  by_cases hempty : leaves = []
  · rw [hlength, hempty, List.length_nil, rootFromForest, if_pos rfl, ok_bind]
    exact ⟨_, rfl, fun hne => absurd rfl hne⟩
  · have hpos : 0 < leaves.length := List.length_pos_iff.mpr hempty
    have hroot := rootFromForest_eq hstands (by rwa [List.length_map, hlength])
      (by rwa [List.length_map, hlength])
    rw [List.length_map] at hroot
    rw [hroot, ok_bind]
    exact ⟨_, rfl, fun _ => rfl⟩

/-! ### One update -/

section Update

variable {Event : Type} {eventId : Event → JsString} {computeCorpusEventLeafHash : Event → Bytes}

/-- The events after an update. -/
def CorpusRootLeafCacheUpdate.after (update : CorpusRootLeafCacheUpdate Event)
    (eventId : Event → JsString) (events : List Event) : List Event :=
  (events.filter fun event => ¬ update.replaces eventId (eventId event)) ++ update.additions

theorem map_leafOf_id (events : List Event) :
    (events.map (leafOf eventId computeCorpusEventLeafHash)).map CorpusRootLeaf.id =
      events.map eventId := by
  rw [List.map_map]
  rfl

/-- Building from events is building from their leaves. -/
theorem buildCorpusRootLeafCache_eq (keccak256 : Bytes → Bytes) (S : CompareSort)
    (computeCorpusEventLeafHash : Event → Bytes) {events : List Event}
    (hnodup : (events.map eventId).Nodup) :
    buildCorpusRootLeafCache keccak256 S eventId computeCorpusEventLeafHash events =
      buildCorpusRootLeafCacheFromLeaves keccak256 S
        (events.map (leafOf eventId computeCorpusEventLeafHash)) := by
  have hperm := S.perm (fun a b => codePointCompare (eventId a) (eventId b)) events
  refine (buildFromLeaves_perm (hperm.map _).symm ?_).symm
  rwa [map_leafOf_id]

/-- The ids after an update are distinct again. -/
theorem nodup_after {update : CorpusRootLeafCacheUpdate Event} {events : List Event}
    (hnodup : (events.map eventId).Nodup) (hadds : (update.additions.map eventId).Nodup) :
    ((update.after eventId events).map eventId).Nodup := by
  rw [CorpusRootLeafCacheUpdate.after, List.map_append]
  refine List.nodup_append.mpr ⟨hnodup.sublist (List.filter_sublist.map _), hadds, ?_⟩
  rintro id hold _ hadd rfl
  obtain ⟨event, hevent, rfl⟩ := List.mem_map.mp hold
  have hkept := (List.mem_filter.mp hevent).2
  simp [CorpusRootLeafCacheUpdate.replaces] at hkept
  obtain ⟨added, hadded, heq⟩ := List.mem_map.mp hadd
  exact hkept.2 added hadded heq

/-- A cache that was built holds the sorted leaves and the forest over them. -/
theorem build_inv {leaves : List CorpusRootLeaf} {cache : CorpusRootLeafCache}
    (h : buildCorpusRootLeafCacheFromLeaves keccak256 S leaves = .ok cache) :
    cache.leaves = sortLeaves S leaves ∧
      appendLeaves keccak256 [] cache.leaves = .ok cache.forest := by
  obtain ⟨forest, hforest, h⟩ := bind_eq_ok.mp h
  obtain ⟨root, -, h⟩ := bind_eq_ok.mp h
  cases h
  exact ⟨rfl, hforest⟩

theorem appendLeaves_append (forest : List (TreeNode Bytes)) (l l' : List CorpusRootLeaf) :
    appendLeaves keccak256 forest (l ++ l') =
      appendLeaves keccak256 forest l >>= fun forest => appendLeaves keccak256 forest l' := by
  induction l generalizing forest with
  | nil => rfl
  | cons leaf l ih =>
      rw [List.cons_append, appendLeaves, appendLeaves, appendNodeToForest_eq, ok_bind, ok_bind, ih]

/-- The leaves after an update, when the update replaces nothing. -/
theorem after_of_tail {update : CorpusRootLeafCacheUpdate Event} {events : List Event}
    (hfresh : ∀ event ∈ events, update.replaces eventId (eventId event) = false) :
    update.after eventId events = events ++ update.additions := by
  rw [CorpusRootLeafCacheUpdate.after, List.filter_eq_self.mpr]
  intro event hevent
  simp [hfresh event hevent]

/-- In an ascending list nothing is above the last element. -/
theorem le_getLast {l : List JsString} (hl : l.Pairwise (· < ·)) {x y : JsString}
    (hy : l.getLast? = some y) (hx : x ∈ l) : x ≤ y := by
  obtain ⟨init, rfl⟩ := List.getLast?_eq_some_iff.mp hy
  rcases List.mem_append.mp hx with hx | hx
  · exact ((List.pairwise_append.mp hl).2.2 x hx y (by simp)).le
  · exact (List.mem_singleton.mp hx).le

/-- When the fast path is taken, every added leaf comes after every old one. -/
theorem old_lt_added {leaves added : List CorpusRootLeaf}
    (hleaves : (leaves.map CorpusRootLeaf.id).Pairwise (· < ·))
    (htail : (leaves.getLast?.all fun last =>
      added.all fun leaf => codePointCompare last.id leaf.id < 0) = true) :
    ∀ a ∈ leaves, ∀ b ∈ added, a.id < b.id := by
  intro a ha b hb
  cases hlast : leaves.getLast? with
  | none =>
      rw [List.getLast?_eq_none_iff.mp hlast] at ha
      exact absurd ha List.not_mem_nil
  | some last =>
      rw [hlast, Option.all_some, List.all_eq_true] at htail
      have hlt := codePointCompare_lt.mp (of_decide_eq_true (htail b hb))
      refine lt_of_le_of_lt (le_getLast hleaves ?_ (List.mem_map_of_mem ha)) hlt
      rw [List.getLast?_map, hlast, Option.map_some]

/-- **An update gives the cache that is built from the events after it.** -/
theorem updateCorpusRootLeafCache_eq {events : List Event}
    {update : CorpusRootLeafCacheUpdate Event} {cache : CorpusRootLeafCache}
    (hnodup : (events.map eventId).Nodup) (hadds : (update.additions.map eventId).Nodup)
    (hcache : buildCorpusRootLeafCache keccak256 S eventId computeCorpusEventLeafHash events =
      .ok cache) :
    updateCorpusRootLeafCache keccak256 S eventId computeCorpusEventLeafHash cache update =
      buildCorpusRootLeafCache keccak256 S eventId computeCorpusEventLeafHash
        (update.after eventId events) := by
  have hafter := nodup_after hnodup hadds
  have hbuilt := hcache
  rw [buildCorpusRootLeafCache_eq _ _ _ hnodup] at hbuilt
  obtain ⟨hleaves, hforest⟩ := build_inv hbuilt
  have hids : ((events.map (leafOf eventId computeCorpusEventLeafHash)).map
      CorpusRootLeaf.id).Nodup := by rwa [map_leafOf_id]
  have hperm := sortLeaves_perm (S := S) (events.map (leafOf eventId computeCorpusEventLeafHash))
  rw [← hleaves] at hperm
  have hadded := sortLeaves_perm (S := S)
    (update.additions.map (leafOf eventId computeCorpusEventLeafHash))
  rw [updateCorpusRootLeafCache]
  by_cases hempty : (update.additions.isEmpty && update.removals.isEmpty) = true
  · rw [if_pos hempty]
    simp only [Bool.and_eq_true, List.isEmpty_iff] at hempty
    rw [after_of_tail, hempty.1, List.append_nil, hcache]
    intro event _
    simp [CorpusRootLeafCacheUpdate.replaces, hempty]
  · rw [if_neg hempty]
    simp only
    rw [buildCorpusRootLeafCache_eq _ _ _ hafter]
    have hsorted : (cache.leaves.map CorpusRootLeaf.id).Pairwise (· < ·) :=
      hleaves ▸ sortLeaves_ascending hids
    split
    · next htail =>
        obtain ⟨hremovals, htail⟩ := Bool.and_eq_true_iff.mp htail
        have hlt := old_lt_added hsorted htail
        have hfresh : ∀ event ∈ events, update.replaces eventId (eventId event) = false := by
          intro event hevent
          have hold := hperm.mem_iff.mpr
            (List.mem_map_of_mem (f := leafOf eventId computeCorpusEventLeafHash) hevent)
          refine decide_eq_false ?_
          rw [List.isEmpty_iff.mp hremovals]
          rintro (hmem | hmem)
          · exact absurd hmem List.not_mem_nil
          · obtain ⟨new, hnew, heq⟩ := List.mem_map.mp hmem
            have hadd := hadded.mem_iff.mpr
              (List.mem_map_of_mem (f := leafOf eventId computeCorpusEventLeafHash) hnew)
            exact absurd heq (hlt _ hold _ hadd).ne'
        have hall := hperm.append hadded
        rw [← List.map_append, ← after_of_tail hfresh] at hall
        have hascending : ((cache.leaves ++ sortLeaves S (update.additions.map
            (leafOf eventId computeCorpusEventLeafHash))).map CorpusRootLeaf.id).Pairwise
              (· < ·) := by
          rw [List.map_append, List.pairwise_append]
          refine ⟨hsorted, sortLeaves_ascending (by rwa [map_leafOf_id]), ?_⟩
          intro x hx y hy
          obtain ⟨a, ha, rfl⟩ := List.mem_map.mp hx
          obtain ⟨b, hb, rfl⟩ := List.mem_map.mp hy
          exact hlt a ha b hb
        have hsort := sortLeaves_eq_of_perm (S := S) hall
          (hascending.imp fun hab => hab.ne)
        rw [sortLeaves_eq_self hascending] at hsort
        rw [buildCorpusRootLeafCacheFromLeaves, ← hsort, buildForestFromLeaves,
          appendLeaves_append, hforest, ok_bind]
    · have hmerge : (mergeLeaves (update.replaces eventId) cache.leaves (sortLeaves S
          (update.additions.map (leafOf eventId computeCorpusEventLeafHash)))).Perm
          ((update.after eventId events).map (leafOf eventId computeCorpusEventLeafHash)) := by
        refine (mergeLeaves_perm _ _ _).trans ?_
        rw [CorpusRootLeafCacheUpdate.after, List.map_append]
        refine List.Perm.append ?_ hadded
        refine (hperm.filter _).trans ?_
        rw [List.filter_map]
        exact .refl _
      refine buildFromLeaves_perm hmerge ?_
      rw [(hmerge.map _).nodup_iff, map_leafOf_id]
      exact hafter

/-! ### Runs -/

/-- The caches of a run: each update is applied to the cache before it. -/
def runUpdates (keccak256 : Bytes → Bytes) (S : CompareSort) (eventId : Event → JsString)
    (computeCorpusEventLeafHash : Event → Bytes) (events : List Event)
    (updates : List (CorpusRootLeafCacheUpdate Event)) : Except RootFailure CorpusRootLeafCache :=
  updates.foldl (fun cache update => cache >>= fun cache =>
      updateCorpusRootLeafCache keccak256 S eventId computeCorpusEventLeafHash cache update)
    (buildCorpusRootLeafCache keccak256 S eventId computeCorpusEventLeafHash events)

/-- The events of a run. -/
def eventsAfter (eventId : Event → JsString) (events : List Event)
    (updates : List (CorpusRootLeafCacheUpdate Event)) : List Event :=
  updates.foldl (fun events update => update.after eventId events) events

/-- The cache of the events, with the root of the padded tree over their leaf hashes in id
order, in whatever order they are listed. -/
def RootCacheOf (keccak256 : Bytes → Bytes) (S : CompareSort) (eventId : Event → JsString)
    (computeCorpusEventLeafHash : Event → Bytes) (events : List Event)
    (result : Except RootFailure CorpusRootLeafCache) : Prop :=
  ∃ cache, result = .ok cache ∧
    buildCorpusRootLeafCache keccak256 S eventId computeCorpusEventLeafHash events = .ok cache ∧
    ∀ sorted : List Event, sorted.Perm events → (sorted.map eventId).Pairwise (· < ·) →
      sorted ≠ [] → cache.root =
        bytesToHex (paddedRoot keccak256 (sorted.map computeCorpusEventLeafHash))

/-- What is built from at most `2 ^ 30` events is their root cache; beyond that nothing is. -/
theorem rootCacheOf_build (keccak256 : Bytes → Bytes) (S : CompareSort)
    (computeCorpusEventLeafHash : Event → Bytes) {events : List Event}
    (hnodup : (events.map eventId).Nodup) :
    RootCacheOf keccak256 S eventId computeCorpusEventLeafHash events
        (buildCorpusRootLeafCache keccak256 S eventId computeCorpusEventLeafHash events) ↔
      events.length ≤ 2 ^ 30 := by
  have hbuild := buildCorpusRootLeafCache_eq keccak256 S computeCorpusEventLeafHash hnodup
  constructor
  · rintro ⟨cache, hcache, -⟩
    by_contra hlong
    rw [hbuild, buildFromLeaves_neverReturns (by rw [List.length_map]; omega)] at hcache
    cases hcache
  · intro hle
    have hfits : (events.map (leafOf eventId computeCorpusEventLeafHash)).length ≤ 2 ^ 30 := by
      rwa [List.length_map]
    obtain ⟨cache, hcache, hroot⟩ := buildFromLeaves_root keccak256 S hfits
    rw [← hbuild] at hcache
    refine ⟨cache, hcache, hcache, fun sorted hperm hascending hne => ?_⟩
    have hsort : sortLeaves S (events.map (leafOf eventId computeCorpusEventLeafHash)) =
        sorted.map (leafOf eventId computeCorpusEventLeafHash) := by
      rw [← sortLeaves_eq_of_perm (hperm.map _) (by
          rw [map_leafOf_id]
          exact hascending.imp fun hab => hab.ne), sortLeaves_eq_self]
      rwa [map_leafOf_id]
    have hnonempty : events.map (leafOf eventId computeCorpusEventLeafHash) ≠ [] := by
      intro hnil
      rw [List.map_eq_nil_iff] at hnil
      exact hne (List.perm_nil.mp (hnil ▸ hperm))
    rw [hroot hnonempty, hsort, List.map_map]
    rfl

theorem nodup_eventsAfter {events : List Event} {updates : List (CorpusRootLeafCacheUpdate Event)}
    (hnodup : (events.map eventId).Nodup)
    (hadds : ∀ u ∈ updates, (u.additions.map eventId).Nodup) :
    ((eventsAfter eventId events updates).map eventId).Nodup := by
  induction updates using List.reverseRecOn with
  | nil => exact hnodup
  | append_singleton updates u ih =>
      rw [eventsAfter, List.foldl_append]
      exact nodup_after (ih fun v hv => hadds v (by simp [hv])) (hadds u (by simp))

/-- A run whose earlier stages fit is at the cache built from its events. -/
theorem runUpdates_eq {events : List Event} {updates : List (CorpusRootLeafCacheUpdate Event)}
    (hnodup : (events.map eventId).Nodup)
    (hadds : ∀ u ∈ updates, (u.additions.map eventId).Nodup)
    (hfits : ∀ k < updates.length,
      (eventsAfter eventId events (updates.take k)).length ≤ 2 ^ 30) :
    runUpdates keccak256 S eventId computeCorpusEventLeafHash events updates =
      buildCorpusRootLeafCache keccak256 S eventId computeCorpusEventLeafHash
        (eventsAfter eventId events updates) := by
  induction updates using List.reverseRecOn with
  | nil => rfl
  | append_singleton updates u ih =>
      have hbefore : ∀ v ∈ updates, (v.additions.map eventId).Nodup :=
        fun v hv => hadds v (by simp [hv])
      have hrun := ih hbefore fun k hk => by
        have := hfits k (by rw [List.length_append]; omega)
        rwa [List.take_append_of_le_length (by omega)] at this
      have hdistinct := nodup_eventsAfter hnodup hbefore
      have hlast := hfits updates.length (by simp)
      rw [List.take_left] at hlast
      obtain ⟨cache, -, hcache, -⟩ := (rootCacheOf_build keccak256 S computeCorpusEventLeafHash
        hdistinct).mpr hlast
      rw [runUpdates, List.foldl_append, List.foldl_cons, List.foldl_nil, eventsAfter,
        List.foldl_append, List.foldl_cons, List.foldl_nil]
      rw [runUpdates, hcache] at hrun
      rw [hrun, ok_bind]
      exact updateCorpusRootLeafCache_eq hdistinct (hadds u (by simp)) hcache

end Update

/-- The ids `0, 1, ...` up to a bound. -/
def manyEvents (n : Nat) : List Nat :=
  List.range n

theorem manyEvents_too_many {n : Nat} (h : 2 ^ 30 < n) :
    ¬ RootCacheOf Hash.keccak256Ts .merge (fun n : Nat => [n]) (fun _ => zeroLeaf) (manyEvents n)
      (runUpdates Hash.keccak256Ts .merge (fun n : Nat => [n]) (fun _ => zeroLeaf)
        (manyEvents n) []) := by
  have hnodup : ((manyEvents n).map fun n : Nat => [n]).Nodup :=
    List.nodup_range.map fun a b hab => by simpa using hab
  have hlength : (manyEvents n).length = n := List.length_range
  generalize manyEvents n = events at hnodup hlength
  intro hroot
  have := (rootCacheOf_build _ _ _ hnodup).mp hroot
  omega

end CoreTex.Corpus
