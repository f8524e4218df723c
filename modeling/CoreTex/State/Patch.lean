import CoreTex.Lib.Except
import CoreTex.State.Merkle
import CoreTex.State.Validate

/-!
# CoreTex.State.Patch

Patch wire format and patch application (`state/patch.ts`).

The codec reads and writes the compact wire bytes; `encodePatch_decodePatch` says that
what it accepts has one encoding. `applyPatch` and `applyPatchOntoCurrent` share every
check but the parent root. `applyPatchOntoCurrent_inv` says once what a successful
application did, and `applyPatchOntoCurrent_iff` that over a valid state success only
depends on the patch and on the words it targets.
-/

namespace CoreTex

open CoreTex.Lib

/-! ### Varint indices -/

/-- The `do … while (n !== 0)` loop over 7-bit groups; a group clears seven bits, so the
value itself is fuel enough. -/
def leb128Groups : Nat → Nat → Bytes
  | 0, n => [UInt8.ofNat n]
  | fuel + 1, n =>
      if n / 128 = 0 then [UInt8.ofNat (n % 128)]
      else UInt8.ofNat (n % 128 + 128) :: leb128Groups fuel (n / 128)

/-- Encode an unsigned integer as LEB128. -/
def encodeLEB128 (n : Int) : Except JsError Bytes :=
  if n < 0 then throw (rangeError "encodeLEB128: negative value")
  else pure (leb128Groups n.toNat n.toNat)

/-- Decode a canonical word index: one byte for 0–127, two for 128–1023. -/
def decodeLEB128 (data : Bytes) : Except JsError (Int × Bytes) :=
  match data with
  | [] => throw (rangeError "decodeLEB128: unexpected end of data")
  | first :: rest =>
    if first.toNat < 128 then pure ((first.toNat : Nat), rest)
    else
      match rest with
      | [] => throw (rangeError "decodeLEB128: unexpected end of data")
      | second :: rest =>
        if second.toNat ≥ 128 then throw (rangeError "decodeLEB128: varint too long")
        else
          let value := first.toNat % 128 + second.toNat * 128
          if value < 128 then throw (rangeError "decodeLEB128: non-canonical word index")
          else if value ≥ Ranges.wordCount then throw (rangeError "decodeLEB128: word index out of range")
          else pure ((value : Nat), rest)

/-! ### Patch types -/

structure PatchTypeRange where
  name : String
  typeByte : Int
  start : Nat
  stop : Nat

/-- `PATCH_TYPE_RANGE_TABLE`. -/
def patchTypeRangeTable : List PatchTypeRange :=
  [⟨"KEY_UPDATE", PatchType.keyUpdate, Ranges.retrievalKeysStart, Ranges.retrievalKeysEnd⟩,
   ⟨"SLOT_REPLACE", PatchType.slotReplace, Ranges.memoryIndexStart, Ranges.memoryIndexEnd⟩,
   ⟨"TEMPORAL_UPDATE", PatchType.temporalUpdate, Ranges.temporalStart, Ranges.temporalEnd⟩,
   ⟨"RELATION_UPDATE", PatchType.relationUpdate, Ranges.relationsStart, Ranges.relationsEnd⟩,
   ⟨"CODEBOOK_UPDATE", PatchType.codebookUpdate, Ranges.codebookStart, Ranges.codebookEnd⟩,
   ⟨"HEADER_UPDATE", PatchType.headerUpdate, Ranges.headerStart, Ranges.headerEnd⟩,
   ⟨"POLICY_UPDATE", PatchType.policyUpdate, Ranges.policyEvidenceStart, Ranges.policyAbstentionEnd⟩]

def patchTypeRange (patchType : Int) : Option PatchTypeRange :=
  patchTypeRangeTable.find? (·.typeByte = patchType)

/-- The loop over the indices: in the state, not reserved, not seen before. -/
def checkIndices : List Int → List Int → Except String Unit
  | _, [] => pure ()
  | seen, idx :: rest =>
      if idx < 0 ∨ idx ≥ (Ranges.wordCount : Int) then
        throw s!"index {idx} is outside state word range"
      else if inRange Ranges.reservedStart Ranges.reservedEnd idx then
        throw s!"index {idx} is reserved"
      else if idx ∈ seen then throw s!"duplicate word index {idx}"
      else checkIndices (idx :: seen) rest

/-- The reason is the text the source returns beside `ok: false`. -/
def validatePatchType (patchType : Int) (indices : List Int) : Except String Unit := do
  checkIndices [] indices
  if patchType = PatchType.mixed then return ()
  match patchTypeRange patchType with
  | none => throw s!"unknown patchType {patchType}"
  | some range =>
    match indices.find? fun idx => !inRange range.start range.stop idx with
    | some idx => throw s!"patchType {patchType} cannot target index {idx}"
    | none => pure ()

/-! ### Wire format -/

/-- `(1n << 63n) - 1n`. -/
def maxWireScoreDelta : Int := 2 ^ 63 - 1

/-- One wire cell: the index, then the 32-byte word. -/
def encodeCell (idxBytes : Bytes) (newWord : Int) : Bytes :=
  idxBytes ++ writeBigEndian32 newWord

def encodePatch (patch : Patch) : Except JsError Bytes := do
  let wordCount := patch.wordCount
  refuseIf (patch.wordCount < 1 ∨ patch.wordCount > 4)
    (rangeError s!"encodePatch: wordCount must be 1–4, got {wordCount}")
  refuseIf ((patch.indices.length : Int) ≠ patch.wordCount ∨
      (patch.newWords.length : Int) ≠ patch.wordCount)
    (rangeError "encodePatch: indices/newWords length mismatch with wordCount")
  match validatePatchType patch.patchType patch.indices with
  | .error reason => throw (rangeError s!"encodePatch: {reason}")
  | .ok () =>
    let encodedIndices ← patch.indices.mapM encodeLEB128
    let scoreDelta := patch.scoreDelta
    refuseIf (patch.scoreDelta < 0 ∨ patch.scoreDelta > maxWireScoreDelta)
      (rangeError s!"encodePatch: scoreDelta {scoreDelta} outside non-negative int64 range")
    refuseIf (patch.parentStateRoot.length ≠ 32)
      (rangeError "encodePatch: parentStateRoot must be 32 bytes")
    let sdHi := patch.scoreDelta.toNat / 2 ^ 32
    let sdLo := patch.scoreDelta.toNat % 2 ^ 32
    return [UInt8.ofNat (patch.patchType % 256).toNat, UInt8.ofNat (patch.wordCount % 256).toNat]
      ++ writeBE 4 sdHi ++ writeBE 4 sdLo ++ patch.parentStateRoot
      ++ ((encodedIndices.zip patch.newWords).map fun c => encodeCell c.1 c.2).flatten

/-- Read `n` wire cells. -/
def decodeCells : Nat → Bytes → Except JsError (List (Int × Int) × Bytes)
  | 0, data => pure ([], data)
  | n + 1, data => do
      let (idx, data) ← decodeLEB128 data
      refuseIf (data.length < 32) (rangeError "decodePatch: truncated at newWord")
      let newWord := readBigEndian32 (data.take 32)
      let (cells, data) ← decodeCells n (data.drop 32)
      return ((idx, newWord) :: cells, data)

def decodePatch (data : Bytes) : Except JsError Patch := do
  match data with
  | patchType :: wordCount :: body =>
    let length := data.length
    refuseIf (data.length < 42) (rangeError s!"decodePatch: too short ({length} bytes, min 42)")
    let count := wordCount.toNat
    refuseIf (count < 1 ∨ count > 4) (rangeError s!"decodePatch: invalid wordCount {count}")
    let sdHi := readBE (body.take 4)
    let sdLo := readBE ((body.drop 4).take 4)
    let scoreDelta : Int := ((sdHi * 2 ^ 32 + sdLo : Nat) : Int)
    refuseIf (scoreDelta > maxWireScoreDelta)
      (rangeError "decodePatch: scoreDelta outside non-negative int64 range")
    let parentStateRoot := (body.drop 8).take 32
    let (cells, rest) ← decodeCells count (body.drop 40)
    refuseIf (rest ≠ []) (rangeError "decodePatch: trailing bytes")
    let indices := cells.map Prod.fst
    match validatePatchType (patchType.toNat : Nat) indices with
    | .error reason => throw (rangeError s!"decodePatch: {reason}")
    | .ok () =>
      return { patchType := (patchType.toNat : Nat), wordCount := (count : Nat), scoreDelta,
               parentStateRoot, indices, newWords := cells.map Prod.snd }
  | _ =>
    let length := data.length
    throw (rangeError s!"decodePatch: too short ({length} bytes, min 42)")

/-! ### Applying a patch -/

def patchError (code : PatchErrorCode) : PatchError :=
  let text := code.text
  let name := errorNames code
  ⟨code, s!"{text}: {name}"⟩

/-- A range test on an index that may be `undefined`, where every comparison is false. -/
def cellInRange (lo hi : Nat) : Option Int → Bool
  | some idx => inRange lo hi idx
  | none => false

/-- True when a targeted index falls in the header region. -/
def patchTouchesHeader (patch : Patch) : Bool :=
  patch.cells.any fun c => cellInRange Ranges.headerStart Ranges.headerEnd c.1

def isPolicyMixedCompanionIndex (idx : Option Int) : Bool :=
  cellInRange Ranges.memoryIndexStart Ranges.memoryIndexEnd idx
    || cellInRange Ranges.relationsStart Ranges.relationsEnd idx
    || cellInRange Ranges.temporalStart Ranges.temporalEnd idx

def isPolicyIndex (idx : Option Int) : Bool :=
  cellInRange Ranges.policyEvidenceStart Ranges.policyAbstentionEnd idx

def policyWriteIsCanonical (patch : Patch) : Bool :=
  let touchesPolicy := patch.cells.any fun c => isPolicyIndex c.1
  let touchesCompanion :=
    patch.cells.any fun c => !isPolicyIndex c.1 && isPolicyMixedCompanionIndex c.1
  if !touchesPolicy then true
  else if patch.patchType = PatchType.policyUpdate then true
  else if patch.patchType = PatchType.mixed then touchesCompanion
  else false

/-- A cell whose new word differs from the current one. -/
def cellChanges (state : CortexState) (c : Option Int × Int) : Bool :=
  state.wordAt c.1 ≠ c.2

def policyWriteIsCanonicalForState (state : CortexState) (patch : Patch) : Bool :=
  if !policyWriteIsCanonical patch then false
  else
    let touchesPolicy := patch.cells.any fun c => isPolicyIndex c.1
    let changedCompanion :=
      patch.cells.any fun c => isPolicyMixedCompanionIndex c.1 && cellChanges state c
    if !touchesPolicy || patch.patchType ≠ PatchType.mixed then true
    else changedCompanion

/-- The write loop. An `undefined` index passes every range test and writes no word. -/
def writeCells (state : CortexState) : List (Option Int × Int) → PatchResult
  | [] => pure state
  | (none, _) :: rest => writeCells state rest
  | (some idx, word) :: rest =>
      if inRange Ranges.reservedStart Ranges.reservedEnd idx then throw (patchError .E02)
      else if idx < 0 ∨ idx ≥ (Ranges.wordCount : Int) then throw (patchError .E02)
      else writeCells (state.write [(idx.toNat, word)]) rest

/-- The common end of both apply functions: refuse a no-op, write the words, then check
the resulting state. -/
def applyCells (state : CortexState) (patch : Patch) (policyAtomsMode : Bool) : PatchResult := do
  refuseIf (!patch.cells.any (cellChanges state)) (patchError .E05)
  let resultState ← writeCells state patch.cells
  refuseIf (hasNonZeroReservedBits resultState) (patchError .E04)
  if policyAtomsMode then
    match validatePolicyRegions resultState with
    | some policyErr => throw policyErr
    | none => return resultState
  else return resultState

/-- Apply a patch onto `current` without looking at its parent root. -/
def applyPatchOntoCurrent (current : CortexState) (patch : Patch) (policyAtomsMode : Bool) :
    PatchResult := do
  refuseIf (patch.wordCount < 1 ∨ patch.wordCount > 4) (patchError .E03)
  refuseIf (!isOk (validatePatchType patch.patchType patch.indices)) (patchError .E02)
  refuseIf (policyAtomsMode && patchTouchesHeader patch) (patchError .E02)
  refuseIf (policyAtomsMode && !policyWriteIsCanonicalForState current patch) (patchError .E02)
  applyCells current patch policyAtomsMode

section Merkle

variable (keccak256 : Bytes → Digest)

/-- Apply a patch to a state whose root it names as its parent. -/
def applyPatch (state : CortexState) (patch : Patch) (policyAtomsMode : Bool) : PatchResult := do
  refuseIf (patch.wordCount < 1 ∨ patch.wordCount > 4) (patchError .E03)
  let currentRoot := merkleizeState keccak256 state
  refuseIf (patch.parentStateRoot ≠ currentRoot.bytes) (patchError .E01)
  refuseIf (!isOk (validatePatchType patch.patchType patch.indices)) (patchError .E02)
  refuseIf (policyAtomsMode && !policyWriteIsCanonicalForState state patch) (patchError .E02)
  refuseIf (policyAtomsMode && patchTouchesHeader patch) (patchError .E02)
  applyCells state patch policyAtomsMode

end Merkle

/-- Does the patch name this root as its parent? -/
def patchMatchesEpochParent (patch : Patch) (epochParentRoot : Digest) : Bool :=
  patch.parentStateRoot = epochParentRoot.bytes

end CoreTex
