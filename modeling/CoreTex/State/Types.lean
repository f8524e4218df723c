import CoreTex.Lib.Bytes
import CoreTex.Lib.Overwrite

/-!
# CoreTex.State.Types

The core types of the substrate state (`state/types.ts`): 1024 words, the word ranges,
the patch object and the stable error codes.

A JavaScript `bigint` is an `Int` and a `number` used as an index, a count or a code is
an `Int`. A read past the end of an array is `undefined`, which the source turns into
`0n` with `?? 0n`; `CortexState.word` and `Patch.cells` say so.
-/

namespace CoreTex

open CoreTex.Lib

/-! ### Thrown errors -/

inductive JsErrorKind
  | RangeError | TypeError
  deriving DecidableEq, Repr

/-- What a `throw new RangeError(…)` or `throw new TypeError(…)` carries. -/
structure JsError where
  kind : JsErrorKind
  message : String
  deriving DecidableEq, Repr

def rangeError (message : String) : JsError := ⟨.RangeError, message⟩

def typeError (message : String) : JsError := ⟨.TypeError, message⟩

/-! ### Word ranges -/

namespace Ranges

def headerStart : Nat := 0
def headerEnd : Nat := 31
def memoryIndexStart : Nat := 32
def memoryIndexEnd : Nat := 383
def retrievalKeysStart : Nat := 384
def retrievalKeysEnd : Nat := 671
def relationsStart : Nat := 672
def relationsEnd : Nat := 799
def temporalStart : Nat := 800
def temporalEnd : Nat := 895
def codebookStart : Nat := 896
def codebookEnd : Nat := 991
def reservedStart : Nat := 992
def reservedEnd : Nat := 1023
def wordCount : Nat := 1024
def policyEvidenceStart : Nat := 384
def policyEvidenceEnd : Nat := 511
def policyConflictStart : Nat := 512
def policyConflictEnd : Nat := 639
def policyAbstentionStart : Nat := 640
def policyAbstentionEnd : Nat := 671
def policyReservedStart : Nat := 896
def policyReservedEnd : Nat := 991

end Ranges

/-- `lo ≤ idx ≤ hi`, the shape of every range test of the source. -/
def inRange (lo hi : Nat) (idx : Int) : Bool :=
  decide ((lo : Int) ≤ idx) && decide (idx ≤ (hi : Int))

theorem inRange_eq_true {lo hi : Nat} {idx : Int} :
    inRange lo hi idx = true ↔ (lo : Int) ≤ idx ∧ idx ≤ (hi : Int) := by
  rw [inRange, Bool.and_eq_true, decide_eq_true_eq, decide_eq_true_eq]

/-! ### State -/

/-- A `CortexState` is exactly 1024 words. -/
structure CortexState where
  words : List Int
  length_words : words.length = Ranges.wordCount
  deriving DecidableEq

@[ext] theorem CortexState.ext {s t : CortexState} (h : s.words = t.words) : s = t := by
  cases s; cases t; cases h; rfl

/-- The word at an index, `0n` where the array has none. -/
def CortexState.word (s : CortexState) (i : Nat) : Int :=
  s.words[i]?.getD 0

/-- The state after a list of word writes. -/
def CortexState.write (s : CortexState) (ws : List (Nat × Int)) : CortexState where
  words := overwrite s.words ws
  length_words := by rw [length_overwrite, s.length_words]

@[simp] theorem CortexState.words_write (s : CortexState) (ws : List (Nat × Int)) :
    (s.write ws).words = overwrite s.words ws := rfl

theorem CortexState.word_write_of_not_mem (s : CortexState) {ws : List (Nat × Int)} {i : Nat}
    (h : i ∉ ws.map Prod.fst) : (s.write ws).word i = s.word i := by
  rw [CortexState.word, CortexState.words_write, getElem?_overwrite_of_not_mem _ h]
  rfl

theorem CortexState.word_write_of_mem (s : CortexState) {ws : List (Nat × Int)}
    (hnodup : (ws.map Prod.fst).Nodup) {i : Nat} {v : Int} (h : (i, v) ∈ ws)
    (hi : i < Ranges.wordCount) : (s.write ws).word i = v := by
  rw [CortexState.word, CortexState.words_write,
    getElem?_overwrite_of_mem _ hnodup h (by rwa [s.length_words])]
  rfl

/-! ### Patches -/

/-- Stable patch error codes. -/
inductive PatchErrorCode
  | E01 | E02 | E03 | E04 | E05
  deriving DecidableEq, Repr

/-- `ERROR_NAMES`. -/
def errorNames : PatchErrorCode → String
  | .E01 => "WRONG_PARENT_ROOT"
  | .E02 => "WRONG_TYPE_FIELD"
  | .E03 => "OVER_BUDGET"
  | .E04 => "RESERVED_BIT_SET"
  | .E05 => "NOOP_PATCH"

/-- The code as it is printed. -/
def PatchErrorCode.text : PatchErrorCode → String
  | .E01 => "E01"
  | .E02 => "E02"
  | .E03 => "E03"
  | .E04 => "E04"
  | .E05 => "E05"

structure PatchError where
  code : PatchErrorCode
  message : String
  deriving DecidableEq, Repr

/-- Success carries the resulting state. -/
abbrev PatchResult := Except PatchError CortexState

namespace PatchType

def keyUpdate : Int := 0x01
def slotReplace : Int := 0x02
def temporalUpdate : Int := 0x03
def relationUpdate : Int := 0x04
def codebookUpdate : Int := 0x05
def headerUpdate : Int := 0x06
def policyUpdate : Int := 0x07
def mixed : Int := 0xFF

end PatchType

/-- A decoded patch object. -/
structure Patch where
  patchType : Int
  wordCount : Int
  scoreDelta : Int
  parentStateRoot : Bytes
  indices : List Int
  newWords : List Int
  deriving DecidableEq, Repr

/-- Indices and new words are as many as `wordCount` says. -/
structure Patch.WellFormed (p : Patch) : Prop where
  length_indices : (p.indices.length : Int) = p.wordCount
  length_newWords : (p.newWords.length : Int) = p.wordCount

instance (p : Patch) : Decidable p.WellFormed :=
  decidable_of_iff
    ((p.indices.length : Int) = p.wordCount ∧ (p.newWords.length : Int) = p.wordCount)
    ⟨fun h => ⟨h.1, h.2⟩, fun h => ⟨h.1, h.2⟩⟩

/-- What a loop `for (i = 0; i < wordCount; i++)` reads: the index, which may be
`undefined`, and the new word, `0n` where there is none. -/
def Patch.cells (p : Patch) : List (Option Int × Int) :=
  (List.range p.wordCount.toNat).map fun i => (p.indices[i]?, p.newWords[i]?.getD 0)

/-- `state.words[idx] ?? 0n` for an index that may be undefined or outside the array. -/
def CortexState.wordAt (s : CortexState) : Option Int → Int
  | some idx => if 0 ≤ idx then s.word idx.toNat else 0
  | none => 0

/-- The cells of a well-formed patch pair its indices with its new words. -/
theorem Patch.WellFormed.cells_eq {p : Patch} (h : p.WellFormed) :
    p.cells = (p.indices.zip p.newWords).map fun c => (some c.1, c.2) := by
  have hi : p.wordCount.toNat = p.indices.length := by have := h.length_indices; omega
  have hw : p.wordCount.toNat = p.newWords.length := by have := h.length_newWords; omega
  apply List.ext_getElem
  · simp [Patch.cells, List.length_zip, hi, ← hw]
  · intro i h1 h2
    have hlt : i < p.indices.length := by simpa [Patch.cells, hi] using h1
    simp [Patch.cells, hlt, (by omega : i < p.newWords.length)]

end CoreTex
