import CoreTex.Lib.Slices
import Mathlib.Data.List.Sort

/-!
# CoreTex.Reranker.LengthBucketing

Batched scoring of the reranker (`scripts/reranker_runner.py`): `_length_bucketed_order` and the
two paths of `_score_pairs`, by length buckets and in arrival order.

The tokenizer and the forward pass are parameters. A score is whatever the last step makes of a
row of the forward pass. Telemetry is left out: it goes to standard error and no score reads it.

The bucketed path clamps a batch size below one and scores every prompt in place. The kill switch
does not clamp: `range` refuses the step `0` and is empty for a negative step, so the paths agree
from batch size one on (`scorePairs_agree_iff`).
-/

namespace CoreTex.Reranker

open CoreTex.Lib

/-! ### Python ranges and slices -/

/-- What the scoring raises. -/
inductive PyError
  | valueError (message : String)
  deriving DecidableEq, Repr

/-- `range(0, stop, step)` over a length. -/
def rangeBy (stop : Nat) (step : Int) : Except PyError (List Nat) :=
  if step = 0 then .error (.valueError "range() arg 3 must not be zero")
  else if step < 0 then .ok []
  else .ok ((List.range ((stop + step.toNat - 1) / step.toNat)).map fun i => i * step.toNat)

/-- `xs[start : start + size]` for a start inside the list. -/
def sliceAt {α : Type} (xs : List α) (start : Nat) (size : Int) : List α :=
  (xs.drop start).take size.toNat

theorem rangeBy_of_pos {step : Int} (h : 1 ≤ step) (stop : Nat) :
    rangeBy stop step =
      .ok ((List.range ((stop + step.toNat - 1) / step.toNat)).map fun i => i * step.toNat) := by
  rw [rangeBy, if_neg (by omega), if_neg (by omega)]

/-- The slices at the starts of a range are the consecutive slices. -/
theorem map_sliceAt {α : Type} (xs : List α) (step : Int) :
    ((List.range ((xs.length + step.toNat - 1) / step.toNat)).map fun i => i * step.toNat).map
      (fun start => sliceAt xs start step) = slices step.toNat xs := by
  rw [List.map_map]
  rfl

/-! ### Length buckets -/

/-- The key `(lengths[i], i)` of one index is not after that of another. -/
def KeyLe (lengths : List Nat) (i j : Nat) : Prop :=
  lengths[i]! < lengths[j]! ∨ lengths[i]! = lengths[j]! ∧ i ≤ j

instance (lengths : List Nat) : DecidableRel (KeyLe lengths) := fun i j => by
  unfold KeyLe
  infer_instance

/-- `sorted(range(len(lengths)), key=lambda i: (lengths[i], i))`. -/
def sortedOrder (lengths : List Nat) : List Nat :=
  (List.range lengths.length).insertionSort (KeyLe lengths)

/-- `if inner_batch < 1: inner_batch = 1`. -/
def clampBatch (innerBatch : Int) : Int :=
  if innerBatch < 1 then 1 else innerBatch

/-- `_length_bucketed_order`. -/
def lengthBucketedOrder (lengths : List Nat) (innerBatch : Int) :
    Except PyError (List (List Nat)) := do
  let innerBatch := clampBatch innerBatch
  let order := sortedOrder lengths
  let starts ← rangeBy order.length innerBatch
  .ok (starts.map fun s => sliceAt order s innerBatch)

/-! ### Scoring -/

variable {Row Score : Type}

/-- What `_score_pairs` calls: the tokenized length of a prompt, a padded forward pass over a
chunk, and the clamped sigmoid of a row's yes and no logits. -/
structure Model (Row Score : Type) where
  tokenizedLength : String → Nat
  forward : List String → List Row
  scoreRow : Row → Score
  /-- `0.0`, what the score list is filled with. -/
  zero : Score

/-- `_score_chunk`. -/
def Model.scoreChunk (m : Model Row Score) (chunk : List String) : List Score :=
  (m.forward chunk).map m.scoreRow

/-- The kill switch: chunks in arrival order. -/
def Model.scoreInArrivalOrder (m : Model Row Score) (prompts : List String) (innerBatch : Int) :
    Except PyError (List Score) := do
  let starts ← rangeBy prompts.length innerBatch
  .ok (starts.foldl
    (fun scores start => scores ++ m.scoreChunk (sliceAt prompts start innerBatch)) [])

/-- The default: length buckets, each score put back where its prompt was. -/
def Model.scoreBucketed (m : Model Row Score) (prompts : List String) (innerBatch : Int) :
    Except PyError (List Score) := do
  let lengths := prompts.map m.tokenizedLength
  let buckets ← lengthBucketedOrder lengths innerBatch
  .ok (buckets.foldl
    (fun scores bucket =>
      overwrite scores (bucket.zip (m.scoreChunk (bucket.map fun i => prompts[i]!))))
    (List.replicate prompts.length m.zero))

/-- `_score_pairs`. -/
def Model.scorePairs (m : Model Row Score) (disableBucketing : Bool) (prompts : List String)
    (innerBatch : Int) : Except PyError (List Score) :=
  if prompts.isEmpty then .ok []
  else if disableBucketing then m.scoreInArrivalOrder prompts innerBatch
  else m.scoreBucketed prompts innerBatch

/-- The forward pass scores each prompt of a chunk independently of the others in it. -/
def Model.Independent (m : Model Row Score) (row : String → Row) : Prop :=
  ∀ chunk, chunk ≠ [] → m.forward chunk = chunk.map row

/-! ### The buckets -/

theorem keyLe_total (lengths : List Nat) (i j : Nat) :
    KeyLe lengths i j ∨ KeyLe lengths j i := by
  unfold KeyLe
  omega

theorem keyLe_trans (lengths : List Nat) {i j k : Nat} (hij : KeyLe lengths i j)
    (hjk : KeyLe lengths j k) : KeyLe lengths i k := by
  unfold KeyLe at *
  omega

theorem sortedOrder_perm (lengths : List Nat) :
    (sortedOrder lengths).Perm (List.range lengths.length) :=
  List.perm_insertionSort _ _

theorem sortedOrder_sorted (lengths : List Nat) :
    (sortedOrder lengths).Pairwise (KeyLe lengths) := by
  have : Std.Total (KeyLe lengths) := ⟨keyLe_total lengths⟩
  have : IsTrans Nat (KeyLe lengths) := ⟨fun _ _ _ => keyLe_trans lengths⟩
  exact List.pairwise_insertionSort _ _

theorem one_le_clampBatch (innerBatch : Int) : 1 ≤ clampBatch innerBatch := by
  unfold clampBatch
  split <;> omega

theorem clampBatch_eq_max (innerBatch : Int) : clampBatch innerBatch = max 1 innerBatch := by
  unfold clampBatch
  split <;> omega

/-- The buckets are the consecutive slices of the sorted order. -/
theorem lengthBucketedOrder_eq (lengths : List Nat) (innerBatch : Int) :
    lengthBucketedOrder lengths innerBatch =
      .ok (slices (clampBatch innerBatch).toNat (sortedOrder lengths)) := by
  have hstarts := rangeBy_of_pos (one_le_clampBatch innerBatch) (sortedOrder lengths).length
  rw [← map_sliceAt]
  show Except.bind (rangeBy _ _) _ = _
  rw [hstarts]
  rfl

/-- What the buckets of a list of lengths are: a partition of the indices, no bucket empty or
over size, the lengths in order from one bucket to the next and inside each. -/
structure Buckets (lengths : List Nat) (size : Int) (buckets : List (List Nat)) : Prop where
  partition : buckets.flatten.Perm (List.range lengths.length)
  nonempty : ∀ bucket ∈ buckets, bucket ≠ []
  size_le : ∀ bucket ∈ buckets, (bucket.length : Int) ≤ size
  ordered : (buckets.flatten.map fun i => lengths[i]!).Pairwise (· ≤ ·)

theorem exists_buckets (lengths : List Nat) (innerBatch : Int) :
    ∃ buckets, lengthBucketedOrder lengths innerBatch = .ok buckets ∧
      Buckets lengths (max 1 innerBatch) buckets := by
  have hone := one_le_clampBatch innerBatch
  have hpos : 0 < (clampBatch innerBatch).toNat := by omega
  have hflat := flatten_slices hpos (sortedOrder lengths)
  refine ⟨_, lengthBucketedOrder_eq lengths innerBatch, ?_, ?_, ?_, ?_⟩
  · rw [hflat]
    exact sortedOrder_perm lengths
  · intro bucket hbucket
    exact ne_nil_of_mem_slices hpos hbucket
  · intro bucket hbucket
    have hle := length_le_of_mem_slices hbucket
    rw [← clampBatch_eq_max]
    omega
  · rw [hflat, List.pairwise_map]
    refine (sortedOrder_sorted lengths).imp ?_
    intro i j hij
    rcases hij with hlt | ⟨heq, -⟩
    · exact hlt.le
    · exact heq.le

/-! ### Both paths -/

theorem Model.Independent.scoreChunk {m : Model Row Score} {row : String → Row}
    (h : m.Independent row) {chunk : List String} (hchunk : chunk ≠ []) :
    m.scoreChunk chunk = chunk.map fun p => m.scoreRow (row p) := by
  rw [Model.scoreChunk, h chunk hchunk, List.map_map]
  rfl

/-- The scores of all prompts, in input order. -/
def Model.scores (m : Model Row Score) (row : String → Row) (prompts : List String) :
    List Score :=
  prompts.map fun p => m.scoreRow (row p)

theorem Model.scoreBucketed_eq {m : Model Row Score} {row : String → Row}
    (h : m.Independent row) (prompts : List String) (innerBatch : Int) :
    m.scoreBucketed prompts innerBatch = .ok (m.scores row prompts) := by
  obtain ⟨buckets, hrun, hbuckets⟩ :=
    exists_buckets (prompts.map m.tokenizedLength) innerBatch
  have hperm := hbuckets.partition
  rw [List.length_map] at hperm
  -- every bucket is nonempty, so its chunk is scored prompt by prompt
  have hfold : buckets.foldl
      (fun scores bucket =>
        overwrite scores (bucket.zip (m.scoreChunk (bucket.map fun i => prompts[i]!))))
      (List.replicate prompts.length m.zero) =
      buckets.foldl
        (fun scores bucket => overwrite scores (bucket.zip
          ((bucket.map fun i => prompts[i]!).map fun p => m.scoreRow (row p))))
        (List.replicate prompts.length m.zero) := by
    refine List.foldl_ext _ _ _ ?_
    intro scores bucket hbucket
    have hne : (bucket.map fun i => prompts[i]!) ≠ [] := by
      simpa using hbuckets.nonempty bucket hbucket
    rw [h.scoreChunk hne]
  show Except.bind (lengthBucketedOrder _ _) _ = _
  rw [hrun]
  show Except.ok _ = _
  rw [hfold, foldl_overwrite_slices (fun p => m.scoreRow (row p)) _ _ fun i => prompts[i]!,
    overwrite_zip_perm hperm List.length_replicate]
  congr 1
  apply List.ext_getElem?
  intro i
  rw [Model.scores, List.getElem?_map, List.getElem?_map]
  by_cases hi : i < prompts.length
  · rw [List.getElem?_range hi, List.getElem?_eq_getElem hi]
    simp [hi]
  · rw [List.getElem?_eq_none (by simpa using hi), List.getElem?_eq_none (by omega)]
    rfl

theorem foldl_scoreChunk {m : Model Row Score} {row : String → Row} (h : m.Independent row)
    (chunks : List (List String)) (hne : ∀ chunk ∈ chunks, chunk ≠ []) (acc : List Score) :
    chunks.foldl (fun scores chunk => scores ++ m.scoreChunk chunk) acc =
      acc ++ m.scores row chunks.flatten := by
  induction chunks generalizing acc with
  | nil => simp [Model.scores]
  | cons chunk chunks ih =>
      obtain ⟨hchunk, hchunks⟩ := List.forall_mem_cons.mp hne
      rw [List.foldl_cons, ih hchunks, h.scoreChunk hchunk, List.flatten_cons, Model.scores,
        Model.scores, List.map_append, List.append_assoc]

theorem Model.scoreInArrivalOrder_eq {m : Model Row Score} {row : String → Row}
    (h : m.Independent row) (prompts : List String) {innerBatch : Int} (hbatch : 1 ≤ innerBatch) :
    m.scoreInArrivalOrder prompts innerBatch = .ok (m.scores row prompts) := by
  have hpos : 0 < innerBatch.toNat := by omega
  have hfold := foldl_scoreChunk h (slices innerBatch.toNat prompts)
    (fun _ hchunk => ne_nil_of_mem_slices hpos hchunk) []
  rw [← map_sliceAt, List.foldl_map, map_sliceAt, flatten_slices hpos] at hfold
  show Except.bind (rangeBy _ _) _ = _
  rw [rangeBy_of_pos hbatch]
  exact congrArg Except.ok hfold

/-- Below batch size one the kill switch scores nothing: it raises, or answers with no score. -/
theorem Model.scoreInArrivalOrder_of_lt (m : Model Row Score) (prompts : List String)
    {innerBatch : Int} (hbatch : innerBatch < 1) :
    (∃ e, m.scoreInArrivalOrder prompts innerBatch = .error e) ∨
      m.scoreInArrivalOrder prompts innerBatch = .ok [] := by
  rw [Model.scoreInArrivalOrder, rangeBy]
  split
  next => exact .inl ⟨_, rfl⟩
  next hne =>
    rw [if_pos (by omega)]
    exact .inr rfl

/-- **The two paths agree from batch size one on.** The buckets are a partition in length order
and the bucketed path scores every prompt in place, whatever the batch size; the kill switch
answers the same exactly when there is no prompt or the batch size is at least one. -/
theorem scorePairs_agree_iff (m : Model Row Score) (row : String → Row) (h : m.Independent row)
    (prompts : List String) (innerBatch : Int) :
    ((∃ buckets, lengthBucketedOrder (prompts.map m.tokenizedLength) innerBatch = .ok buckets ∧
        Buckets (prompts.map m.tokenizedLength) (max 1 innerBatch) buckets) ∧
      m.scorePairs false prompts innerBatch =
        .ok (prompts.map fun p => m.scoreRow (row p))) ∧
    (m.scorePairs false prompts innerBatch = m.scorePairs true prompts innerBatch ↔
      prompts = [] ∨ 1 ≤ innerBatch) := by
  have hbucketed : m.scorePairs false prompts innerBatch = .ok (m.scores row prompts) := by
    cases prompts with
    | nil => rfl
    | cons p ps => exact m.scoreBucketed_eq h (p :: ps) innerBatch
  refine ⟨⟨exists_buckets _ _, hbucketed⟩, ?_⟩
  constructor
  · intro hagree
    by_contra hcon
    push Not at hcon
    obtain ⟨hne, hbatch⟩ := hcon
    rw [hbucketed] at hagree
    cases prompts with
    | nil => exact hne rfl
    | cons p ps =>
        replace hagree : Except.ok (m.scores row (p :: ps)) =
          m.scoreInArrivalOrder (p :: ps) innerBatch := hagree
        rcases m.scoreInArrivalOrder_of_lt (p :: ps) hbatch with ⟨e, he⟩ | hnil
        · rw [he] at hagree
          cases hagree
        · rw [hnil] at hagree
          cases hagree
  · intro hcond
    rw [hbucketed]
    cases prompts with
    | nil => rfl
    | cons p ps =>
        have hbatch : 1 ≤ innerBatch := by
          rcases hcond with hnil | hbatch
          · cases hnil
          · exact hbatch
        exact (m.scoreInArrivalOrder_eq h (p :: ps) hbatch).symm

/-- A model that scores a prompt by its length. -/
def lengthModel : Model Nat Nat where
  tokenizedLength p := p.length
  forward chunk := chunk.map String.length
  scoreRow row := row
  zero := 0

theorem scorePairs_agree_sample :
    lengthModel.Independent String.length ∧
      (lengthModel.scorePairs false ["ccc", "a", "bb"] 2 =
          lengthModel.scorePairs true ["ccc", "a", "bb"] 2 ↔
        ["ccc", "a", "bb"] = ([] : List String) ∨ (1 : Int) ≤ 2) :=
  ⟨fun _ _ => rfl,
    (scorePairs_agree_iff lengthModel String.length (fun _ _ => rfl) ["ccc", "a", "bb"] 2).2⟩

/-- At batch size `0` the kill switch raises, below it drops every score. -/
theorem scorePairs_batchZero :
    lengthModel.Independent String.length ∧
      lengthModel.scorePairs false ["ccc", "a"] 0 = .ok [3, 1] ∧
      lengthModel.scorePairs true ["ccc", "a"] 0 =
        .error (.valueError "range() arg 3 must not be zero") ∧
      lengthModel.scorePairs false ["ccc", "a"] (-1) = .ok [3, 1] ∧
      lengthModel.scorePairs true ["ccc", "a"] (-1) = .ok [] := by
  refine ⟨fun _ _ => rfl, ?_⟩
  decide

end CoreTex.Reranker
