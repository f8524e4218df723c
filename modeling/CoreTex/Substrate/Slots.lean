import CoreTex.Lib.Except
import CoreTex.Substrate.Region

/-!
# CoreTex.Substrate.Slots

The slot codecs of the substrate (`substrate/retrieval-decoder.ts`): memory index slots,
relation edges, category lenses, temporal records, codebook entries and policy atoms.

A `number` that the encoders guard and then pass to `BigInt` is an `Int`. An index that a record
carries is its position in the region.
-/

namespace CoreTex

open CoreTex.Lib

/-! ### Records -/

inductive SubstrateFamily
  | nearCollision | temporal | longHorizon | multiHopRelation
  deriving DecidableEq, Repr

inductive RelationEdgeType
  | supports | supersedes | coreferenceOf | causes | derivedFrom | coOccursWith
  deriving DecidableEq, Repr

/-- `MemoryIndexSlot`. A `policyAnchor` that is left out is false. -/
structure MemoryIndexSlot where
  slotIndex : Nat
  recordId : Int
  family : SubstrateFamily
  domainBits : Int
  valid : Bool
  revoked : Bool
  protected_ : Bool
  policyAnchor : Bool
  retrievalSlot : Int
  expiryEpoch : Int
  deriving DecidableEq

structure RelationEdge where
  entryIndex : Nat
  weight : Int
  edgeType : RelationEdgeType
  sourceSlot : Int
  targetSlot : Int
  deriving DecidableEq

structure RelationCategoryLens where
  entryIndex : Nat
  weight : Int
  edgeType : RelationEdgeType
  deriving DecidableEq

/-- An entry of the relations region. -/
inductive RelationEntry
  | edge (edge : RelationEdge)
  | categoryLens (lens : RelationCategoryLens)
  deriving DecidableEq

structure TemporalRecord where
  recordIndex : Nat
  memorySlot : Int
  supersededBy : Int
  validFromEpoch : Int
  validUntilEpoch : Int
  currentStaleFlag : Bool
  deriving DecidableEq

inductive CodeType
  | int8ScaleZero | pq
  deriving DecidableEq, Repr

structure CodebookEntry where
  entryIndex : Nat
  code : Int
  codeType : CodeType
  valid : Bool
  payload : Int
  payloadCont : Int
  deriving DecidableEq

/-! ### Codes -/

/-- `familyToBits`. -/
def familyToBits : SubstrateFamily → Int
  | .nearCollision => 0x0
  | .temporal => 0x1
  | .longHorizon => 0x2
  | .multiHopRelation => 0x3

/-- `FAMILY_BY_BITS`. -/
def familyByBits (bits : Int) : Option SubstrateFamily :=
  if bits = 0x0 then some .nearCollision
  else if bits = 0x1 then some .temporal
  else if bits = 0x2 then some .longHorizon
  else if bits = 0x3 then some .multiHopRelation
  else none

/-- `relationTypeToBits`. -/
def relationTypeToBits : RelationEdgeType → Int
  | .supports => 0x1
  | .supersedes => 0x2
  | .coreferenceOf => 0x3
  | .causes => 0x4
  | .derivedFrom => 0x5
  | .coOccursWith => 0x6

/-- `RELATION_TYPE_BY_BITS`. -/
def relationTypeByBits (bits : Int) : Option RelationEdgeType :=
  if bits = 0x1 then some .supports
  else if bits = 0x2 then some .supersedes
  else if bits = 0x3 then some .coreferenceOf
  else if bits = 0x4 then some .causes
  else if bits = 0x5 then some .derivedFrom
  else if bits = 0x6 then some .coOccursWith
  else none

/-- The codes of `encodeCodebookEntry`. -/
def codeTypeToBits : CodeType → Int
  | .int8ScaleZero => 0x1
  | .pq => 0x2

/-- `CODE_TYPE_BY_BITS`. -/
def codeTypeByBits (bits : Int) : Option CodeType :=
  if bits = 0x1 then some .int8ScaleZero else if bits = 0x2 then some .pq else none

/-- `POLICY_ACTION_TO_BITS`. -/
def policyActionToBits : PolicyAction → Int
  | .include_ => 0x1
  | .boost => 0x2
  | .suppress => 0x3
  | .bundle => 0x4
  | .abstain => 0x5

/-- `POLICY_SCOPE_TO_BITS`. -/
def policyScopeToBits : PolicyScope → Int
  | .entity => 0x1
  | .owner => 0x2
  | .relationPath => 0x3
  | .temporalChain => 0x4
  | .conflictSet => 0x5
  | .aspect => 0x6

/-! ### Region sizes -/

def memoryIndexSlotCount : Nat := 352
def memoryIndexWordsPerSlot : Nat := 1
def retrievalKeySlotCount : Int := 36
def relationsEntryCount : Nat := 128
def temporalWordsPerRecord : Nat := 1
def temporalRecordCount : Nat :=
  (Ranges.temporalEnd - Ranges.temporalStart + 1) / temporalWordsPerRecord
def codebookEntryCount : Nat := 48
def codebookWordsPerEntry : Nat := 2

/-! ### Decoders -/

/-- Are the words of a slot behind its first one empty? -/
def paddingClear (state : CortexState) (base wordsPerSlot : Nat) : Bool :=
  (List.range' 1 (wordsPerSlot - 1)).all fun off => state.word (base + off) = 0

/-- The body of `decodeMemoryIndex`. -/
def memoryIndexAt (state : CortexState) (s : Nat) : SlotOutcome MemoryIndexSlot :=
  let base := Ranges.memoryIndexStart + s * memoryIndexWordsPerSlot
  let w0 := state.word base
  if w0 = 0 then .empty
  else if paddingClear state base memoryIndexWordsPerSlot = false then .failed
  else
    let recordId := field w0 128 128
    if recordId = 0 then .failed
    else
      match familyByBits (field w0 124 4) with
      | none => .failed
      | some family =>
        let domainBits := field w0 64 60
        let flags := field w0 48 16
        let valid := decide (Int.land flags 0x0001 ≠ 0)
        let revoked := decide (Int.land flags 0x0002 ≠ 0)
        let isProtected := decide (Int.land flags 0x0004 ≠ 0)
        let policyAnchor := decide (Int.land flags 0x0008 ≠ 0)
        let retrievalSlot := field w0 40 8
        if retrievalSlot ≥ retrievalKeySlotCount then .failed
        else
          let expiryEpoch := field w0 0 40
          if ¬ valid then .inactive
          else .decoded
            { slotIndex := s, recordId, family, domainBits, valid, revoked,
              protected_ := isProtected, policyAnchor, retrievalSlot, expiryEpoch }

/-- `decodeMemoryIndex`. -/
def decodeMemoryIndex (state : CortexState) : DecodedRegion MemoryIndexSlot :=
  decodeRegion memoryIndexSlotCount (memoryIndexAt state)

/-- The body of `decodeRelations`. -/
def relationAt (state : CortexState) (i : Nat) : SlotOutcome RelationEntry :=
  let word := state.word (Ranges.relationsStart + i)
  if word = 0 then .empty
  else
    let weight := field word 240 16
    if weight = 0 then .failed
    else
      match relationTypeByBits (field word 224 16) with
      | none => .failed
      | some edgeType =>
        let reservedField208 := field word 208 16
        let isCategoryLens := decide (reservedField208 >>> (15 : Nat) = 1)
        let remainingReserved208 := Int.land reservedField208 0x7FFF
        if remainingReserved208 ≠ 0 then .failed
        else if field word 192 16 ≠ 0 then .failed
        else if isCategoryLens then
          if field word 96 96 ≠ 0 ∨ field word 0 96 ≠ 0 then .failed
          else .decoded (.categoryLens { entryIndex := i, weight, edgeType })
        else
          let sourceField := field word 96 96
          let targetField := field word 0 96
          if sourceField >>> (8 : Nat) ≠ 0 then .failed
          else if targetField >>> (8 : Nat) ≠ 0 then .failed
          else
            let sourceSlot := Int.land sourceField 0xff
            let targetSlot := Int.land targetField 0xff
            if sourceSlot ≥ memoryIndexSlotCount ∨ targetSlot ≥ memoryIndexSlotCount then .failed
            else .decoded (.edge { entryIndex := i, weight, edgeType, sourceSlot, targetSlot })

/-- `decodeRelations`: its edges and its lenses are the entries of either kind. -/
def decodeRelations (state : CortexState) : DecodedRegion RelationEntry :=
  decodeRegion relationsEntryCount (relationAt state)

/-- The body of `decodeTemporal`. -/
def temporalAt (state : CortexState) (r : Nat) : SlotOutcome TemporalRecord :=
  let base := Ranges.temporalStart + r * temporalWordsPerRecord
  let w0 := state.word base
  if w0 = 0 then .empty
  else if paddingClear state base temporalWordsPerRecord = false then .failed
  else
    let memorySlot := field w0 248 8
    let supersededBy := field w0 240 8
    let validFromEpoch := field w0 200 40
    let validUntilEpoch := field w0 160 40
    let flags := field w0 152 8
    if field w0 0 152 ≠ 0 then .failed
    else if memorySlot ≥ memoryIndexSlotCount then .failed
    else if validFromEpoch > validUntilEpoch then .failed
    else
      let currentStaleFlag := decide (Int.land flags 0x01 ≠ 0)
      .decoded
        { recordIndex := r, memorySlot, supersededBy, validFromEpoch, validUntilEpoch,
          currentStaleFlag }

/-- `decodeTemporal`. -/
def decodeTemporal (state : CortexState) : DecodedRegion TemporalRecord :=
  decodeRegion temporalRecordCount (temporalAt state)

/-- The body of `decodeCodebook`. -/
def codebookAt (state : CortexState) (i : Nat) : SlotOutcome CodebookEntry :=
  let base := Ranges.codebookStart + i * codebookWordsPerEntry
  let w0 := state.word base
  let w1 := state.word (base + 1)
  if w0 = 0 ∧ w1 = 0 then .empty
  else
    let code := field w0 240 16
    let flags := field w0 208 16
    match codeTypeByBits (field w0 224 16) with
    | none => .failed
    | some codeType =>
      if code = 0 then .failed
      else
        let valid := decide (Int.land flags 0x0001 ≠ 0)
        if ¬ valid then .failed
        else .decoded
          { entryIndex := i, code, codeType, valid, payload := field w0 0 208, payloadCont := w1 }

/-- `decodeCodebook`. -/
def decodeCodebook (state : CortexState) : DecodedRegion CodebookEntry :=
  decodeRegion codebookEntryCount (codebookAt state)

/-- The body of `decodePolicyAtomRegion`. -/
def policyAtomAt (family : PolicyAtomFamily) (state : CortexState) (k : Nat) :
    SlotOutcome PolicyAtom :=
  let w0 := state.word ((policyRegions family).start + k)
  if w0 = 0 then .empty
  else
    match decodePolicyAtom family k w0 with
    | none => .failed
    | some atom => .decoded atom

/-! ### Encoders -/

def bit (b : Bool) (mask : Int) : Int :=
  if b then mask else 0

/-- `encodeMemoryIndexSlot`. -/
def encodeMemoryIndexSlot (slot : MemoryIndexSlot) : Except String (List Int) := do
  refuseIf (slot.recordId >>> (128 : Nat) ≠ 0) "encodeMemoryIndexSlot: recordId exceeds 128 bits"
  refuseIf (slot.domainBits >>> (60 : Nat) ≠ 0) "encodeMemoryIndexSlot: domainBits exceeds 60 bits"
  let familyDomain := pack [(familyToBits slot.family, 60), (slot.domainBits, 0)]
  let flags := pack [(bit slot.valid 0x0001, 0), (bit slot.revoked 0x0002, 0),
    (bit slot.protected_ 0x0004, 0), (bit slot.policyAnchor 0x0008, 0)]
  refuseIf (slot.retrievalSlot < 0 ∨ slot.retrievalSlot ≥ retrievalKeySlotCount)
    "encodeMemoryIndexSlot: retrievalSlot out of range"
  refuseIf (slot.expiryEpoch >>> (40 : Nat) ≠ 0) "encodeMemoryIndexSlot: expiryEpoch exceeds 40 bits"
  let w0 := pack [(slot.recordId, 128), (familyDomain, 64), (flags, 48),
    (slot.retrievalSlot, 40), (slot.expiryEpoch, 0)]
  .ok [w0, 0, 0, 0, 0, 0, 0, 0]

/-- `encodeRelationEdge`. -/
def encodeRelationEdge (edge : RelationEdge) : Except String Int := do
  refuseIf (edge.weight ≤ 0 ∨ edge.weight > 0xffff) "encodeRelationEdge: weight out of range"
  refuseIf (edge.sourceSlot < 0 ∨ edge.sourceSlot ≥ memoryIndexSlotCount)
    "encodeRelationEdge: sourceSlot out of range"
  refuseIf (edge.targetSlot < 0 ∨ edge.targetSlot ≥ memoryIndexSlotCount)
    "encodeRelationEdge: targetSlot out of range"
  .ok (pack [(edge.weight, 240), (relationTypeToBits edge.edgeType, 224), (edge.sourceSlot, 96),
    (edge.targetSlot, 0)])

/-- `encodeRelationCategoryLens`. -/
def encodeRelationCategoryLens (lens : RelationCategoryLens) : Except String Int := do
  refuseIf (lens.weight ≤ 0 ∨ lens.weight > 0xffff)
    "encodeRelationCategoryLens: weight out of range"
  .ok (pack [(lens.weight, 240), (relationTypeToBits lens.edgeType, 224), (1, 223)])

/-- `encodeTemporalRecord`. -/
def encodeTemporalRecord (rec : TemporalRecord) : Except String (List Int) := do
  refuseIf (rec.memorySlot < 0 ∨ rec.memorySlot ≥ memoryIndexSlotCount)
    "encodeTemporalRecord: memorySlot out of range"
  refuseIf (rec.supersededBy < 0 ∨ rec.supersededBy > 0xff)
    "encodeTemporalRecord: supersededBy out of range"
  refuseIf (rec.validFromEpoch > rec.validUntilEpoch)
    "encodeTemporalRecord: validFromEpoch > validUntilEpoch"
  refuseIf (rec.validFromEpoch >>> (40 : Nat) ≠ 0 ∨ rec.validUntilEpoch >>> (40 : Nat) ≠ 0)
    "encodeTemporalRecord: epoch exceeds 40 bits"
  let w0 := pack [(rec.memorySlot, 248), (rec.supersededBy, 240), (rec.validFromEpoch, 200),
    (rec.validUntilEpoch, 160), (bit rec.currentStaleFlag 0x01, 152)]
  .ok [w0]

/-- `encodeCodebookEntry`. -/
def encodeCodebookEntry (entry : CodebookEntry) : Except String (List Int) := do
  refuseIf (entry.code ≤ 0 ∨ entry.code > 0xffff) "encodeCodebookEntry: code out of range"
  refuseIf (entry.payload >>> (208 : Nat) ≠ 0) "encodeCodebookEntry: payload exceeds 208 bits"
  let w0 := pack [(entry.code, 240), (codeTypeToBits entry.codeType, 224),
    (bit entry.valid 0x0001, 208), (entry.payload, 0)]
  .ok [w0, entry.payloadCont]

/-- `encodePolicyAtom`. -/
def encodePolicyAtom (atom : PolicyAtom) : Except String Int := do
  refuseIf (atom.selector ≤ 0 ∨ atom.selector > 0xff) "encodePolicyAtom: selector out of range"
  refuseIf (atom.evidenceFeature ≤ 0 ∨ atom.evidenceFeature > 0xff)
    "encodePolicyAtom: evidenceFeature out of range"
  refuseIf (atom.targetSlot ≠ policyTargetNone ∧
      (atom.targetSlot < 0 ∨ atom.targetSlot ≥ policyAnchorSlotLimit))
    "encodePolicyAtom: targetSlot out of range (0..255 or POLICY_TARGET_NONE)"
  refuseIf (atom.budget < 0 ∨ atom.budget > 0xffff) "encodePolicyAtom: budget out of range"
  refuseIf (atom.flags < 0 ∨ atom.flags > 0xff) "encodePolicyAtom: flags out of range"
  refuseIf (atom.validFromEpoch >>> (40 : Nat) ≠ 0 ∨ atom.expiryEpoch >>> (40 : Nat) ≠ 0)
    "encodePolicyAtom: epoch exceeds 40 bits"
  .ok (pack [(atom.selector, 248), (atom.evidenceFeature, 240),
    (policyActionToBits atom.action, 236), (policyScopeToBits atom.scope, 232),
    (atom.targetSlot, 216), (atom.budget, 200), (atom.flags, 192), (atom.validFromEpoch, 152),
    (atom.expiryEpoch, 112)])

end CoreTex
