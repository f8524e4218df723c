import CoreTex.Join.Join
import CoreTex.Lib.HexText
import CoreTex.Replay.RpcLog

/-!
# CoreTex.Replay.RigDispatch

The descriptor-v3 decoders of the two hosts: `decodeRigStateAdvanced` and `decodeRigEpochFinalized`
(`replay/rig-dispatch.ts`), `decode_state_advanced` and `decode_epoch_finalized` (`rig_events.py`,
with the word, topic and tail readers of `dispatch.py`).

A log is text to both. The TypeScript readers are `hexToBytes`, `BigInt` and a regular expression,
the Python readers `bytes.fromhex` and the width of the bytes it gives.
-/

namespace CoreTex

open CoreTex.Lib

namespace RigDispatch

/-! ### Signatures -/

def sigStateAdvanced : String :=
  "CoreTexStateAdvanced(uint64,uint64,address,bytes32,bytes32,bytes32,bytes32,bytes32,bytes32,uint256,uint16,bytes)"

def sigEpochFinalized : String :=
  "CoreTexEpochFinalized(uint64,bytes32,bytes32,bytes32,bytes32,bytes32,bytes32)"

/-! ### The TypeScript decoders -/

/-- `RigDispatchError` with its message, or what a callee throws. -/
inductive RigThrown
  | dispatch (message : String)
  | thrown (e : Thrown)
  deriving DecidableEq, Repr

structure RigStateAdvancedEvent where
  epoch : Int
  transitionIndex : Int
  miner : String
  parentStateRoot : String
  newStateRoot : String
  patchHash : String
  evalReportHash : String
  coreVersionHash : String
  epochContextRoot : String
  improvementCredits : Nat
  transitionFormatVersion : Nat
  compactPatchBytes : Bytes
  deriving DecidableEq, Repr

structure RigEpochFinalizedEvent where
  epoch : Int
  parentStateRoot : String
  finalStateRoot : String
  coreVersionHash : String
  epochContextRoot : String
  patchSetRoot : String
  scoreRoot : String
  deriving DecidableEq, Repr

/-- The UTF-16 units of text. A unit of a surrogate pair stands as U+FFFD: like that one it is
no digit, no blank and no sign, and nothing else is asked of it. -/
def utf16 (s : List Char) : List Char :=
  s.flatMap fun c => if c.toNat < 0x10000 then [c] else ['\uFFFD', '\uFFFD']

/-- `hexToBytes`, on the units of the text. -/
def hexToBytes (hex : String) : Except RigThrown Bytes :=
  match CoreTex.hexToBytes (String.ofList (utf16 hex.toList)) with
  | .ok bytes => pure bytes
  | .error e => throw (.thrown (.error e))

def word (data : Bytes) (index : Nat) : Except RigThrown String := do
  let start := index * 32
  refuseIf (data.length < start + 32) (.dispatch s!"ABI word {index} is out of range")
  return bytesToHex ((data.drop start).take 32)

def wordNum (data : Bytes) (index : Nat) : Except RigThrown Nat := do
  let text ← word data index
  let raw ← hexToBytes text
  return readBE raw

def topicNum (log : RpcLog) (index : Nat) : Except RigThrown Int := do
  let value := log.topics[index]?.getD ""
  -- an absent topic and an empty one are both falsy
  refuseIf (value = "") (.dispatch s!"topic {index} is absent")
  match bigInt value with
  | some n => return n
  | none => throw (.thrown (.bigIntSyntax value))

/-- The text after a leading `0x`. -/
def after0x : List Char → List Char
  | '0' :: 'x' :: rest => rest
  | cs => cs

/-- `/^0{24}[0-9a-fA-F]{40}$/` -/
def IsAddressWord (value : List Char) : Prop :=
  value.length = 64 ∧ value.take 24 = List.replicate 24 '0' ∧ ∀ c ∈ value.drop 24, IsHex c

instance IsAddressWord.decidable : DecidablePred IsAddressWord := fun value =>
  inferInstanceAs (Decidable
    (value.length = 64 ∧ value.take 24 = List.replicate 24 '0' ∧ ∀ c ∈ value.drop 24, IsHex c))

def topicAddress (log : RpcLog) (index : Nat) : Except RigThrown String := do
  let value := after0x (log.topics[index]?.getD "").toList
  refuseIf (value.length ≠ 64 ∨ ¬ IsAddressWord value)
    (.dispatch s!"topic {index} is not a canonically padded address")
  return "0x" ++ (String.ofList (value.drop 24)).toLower

def maxSafeInteger : Nat := 2 ^ 53 - 1

section Typescript

variable (keccak256 : Bytes → Digest)

/-- The decoder, or none for a log of another topic. -/
def decodeRigStateAdvanced (log : RpcLog) : Except RigThrown (Option RigStateAdvancedEvent) :=
  if (log.topics[0]?.getD "").toLower ≠ eventTopic keccak256 sigStateAdvanced then return none
  else do
    refuseIf (log.topics.length ≠ 4) (.dispatch "CoreTexStateAdvanced needs 4 topics")
    let data ← hexToBytes log.data
    let offset ← wordNum data 8
    refuseIf (offset ≠ 9 * 32) (.dispatch s!"compactPatchBytes offset {offset} is not 288")
    let length ← wordNum data (offset / 32)
    refuseIf (maxSafeInteger < length) (.dispatch "descriptor length is too large")
    let start := offset + 32
    let paddedEnd := start + (length + 31) / 32 * 32
    refuseIf (paddedEnd ≠ data.length ∨ ∃ b ∈ data.drop (start + length), b ≠ 0)
      (.dispatch "compactPatchBytes tail is truncated, padded non-zero, or has trailing data")
    let version ← wordNum data 7
    refuseIf (0xffff < version) (.dispatch "transitionFormatVersion has dirty high bits")
    let epoch ← topicNum log 1
    let transitionIndex ← topicNum log 2
    let miner ← topicAddress log 3
    let parentStateRoot ← word data 0
    let newStateRoot ← word data 1
    let patchHash ← word data 2
    let evalReportHash ← word data 3
    let coreVersionHash ← word data 4
    let epochContextRoot ← word data 5
    let improvementCredits ← wordNum data 6
    return some {
      epoch, transitionIndex, miner, parentStateRoot, newStateRoot, patchHash, evalReportHash
      coreVersionHash, epochContextRoot, improvementCredits, transitionFormatVersion := version
      compactPatchBytes := (data.drop start).take length }

def decodeRigEpochFinalized (log : RpcLog) : Except RigThrown (Option RigEpochFinalizedEvent) :=
  if (log.topics[0]?.getD "").toLower ≠ eventTopic keccak256 sigEpochFinalized then return none
  else do
    refuseIf (log.topics.length ≠ 2) (.dispatch "CoreTexEpochFinalized needs 2 topics")
    let data ← hexToBytes log.data
    refuseIf (data.length ≠ 6 * 32) (.dispatch "CoreTexEpochFinalized needs 6 data words")
    let epoch ← topicNum log 1
    let parentStateRoot ← word data 0
    let finalStateRoot ← word data 1
    let coreVersionHash ← word data 2
    let epochContextRoot ← word data 3
    let patchSetRoot ← word data 4
    let scoreRoot ← word data 5
    return some {
      epoch, parentStateRoot, finalStateRoot, coreVersionHash, epochContextRoot, patchSetRoot
      scoreRoot }

end Typescript

/-! ### The Python decoders -/

/-- `DispatchError`, by the line that raises it, with what its message names. -/
inductive DispatchError
  | oddDigits (field : String) (digits : Nat)
  | notHex (field : String)
  | topicMissing (topics : Nat) (field : String) (index : Nat)
  | topicWidth (field : String) (index bytes : Nat)
  | tooWide (field : String) (value bits : Nat)
  | dirtyAddress (field : String)
  | unaligned (bytes : Nat)
  | wordMissing (field : String) (words index : Nat)
  | offsetUnaligned (field : String) (offset : Nat)
  | offsetInHead (field : String) (offset headWords : Nat)
  | offsetPastEnd (field : String) (offset bytes : Nat)
  | truncated (field : String) (length remain : Nat)
  | trailing (field : String) (bytes length padded : Nat)
  | dirtyPadding (field : String)
  | wrongProtocol (name : String) (got : Option PyStr) (expected : PyStr)
  deriving DecidableEq, Repr

structure EpochFinalized where
  epoch : Nat
  parentStateRoot : PyStr
  finalStateRoot : PyStr
  coreVersionHash : PyStr
  epochContextRoot : PyStr
  patchSetRoot : PyStr
  scoreRoot : PyStr
  provenance : Join.LogProvenance
  deriving DecidableEq, Repr

/-- `value[2:] if value[:2] in ("0x", "0X") else value` -/
def strip0x : List Char → List Char
  | '0' :: 'x' :: rest => rest
  | '0' :: 'X' :: rest => rest
  | cs => cs

/-- `from_0x` -/
def from0x (value : String) (field : String) : Except DispatchError Bytes := do
  let text := strip0x value.toList
  refuseIf (text.length % 2 ≠ 0) (.oddDigits field text.length)
  match fromHex (codes text) with
  | some bytes => return bytes
  | none => throw (.notHex field)

/-- `_topic` -/
def topic (log : RpcLog) (index : Nat) (field : String) : Except DispatchError Bytes := do
  match log.topics[index]? with
  | none => throw (.topicMissing log.topics.length field index)
  | some value =>
    let data ← from0x value s!"topics[{index}]"
    refuseIf (data.length ≠ 32) (.topicWidth field index data.length)
    return data

/-- `_topic_uint` -/
def topicUint (log : RpcLog) (index : Nat) (field : String) (bits : Nat) :
    Except DispatchError Nat := do
  let raw ← topic log index field
  refuseIf (2 ^ bits ≤ readBE raw) (.tooWide field (readBE raw) bits)
  return readBE raw

/-- `_topic_address` -/
def pyTopicAddress (log : RpcLog) (index : Nat) (field : String) : Except DispatchError PyStr := do
  let raw ← topic log index field
  refuseIf (raw.take 12 ≠ List.replicate 12 0) (.dirtyAddress field)
  return codes ['0', 'x'] ++ hexText (raw.drop 12)

/-- `_data` -/
def logData (log : RpcLog) : Except DispatchError Bytes := do
  let raw ← from0x log.data "data"
  refuseIf (raw.length % 32 ≠ 0) (.unaligned raw.length)
  return raw

/-- `_word` -/
def pyWord (data : Bytes) (i : Nat) (field : String) : Except DispatchError PyStr := do
  refuseIf (data.length < (i + 1) * 32) (.wordMissing field (data.length / 32) i)
  return hexText ((data.drop (i * 32)).take 32)

/-- `_word_uint`; `bytes.fromhex` of the word's own text cannot fail. -/
def wordUint (data : Bytes) (i : Nat) (field : String) (bits : Nat) : Except DispatchError Nat := do
  let text ← pyWord data i field
  let value := readBE ((fromHex text).getD [])
  refuseIf (2 ^ bits ≤ value) (.tooWide field value bits)
  return value

/-- `_tail_bytes` -/
def tailBytes (data : Bytes) (offsetWord headWords : Nat) (field : String) :
    Except DispatchError Bytes := do
  let offset ← wordUint data offsetWord s!"{field} offset" 64
  refuseIf (offset % 32 ≠ 0) (.offsetUnaligned field offset)
  refuseIf (offset < headWords * 32) (.offsetInHead field offset headWords)
  refuseIf (data.length < offset + 32) (.offsetPastEnd field offset data.length)
  let length := readBE ((data.drop offset).take 32)
  let start := offset + 32
  refuseIf (data.length - start < length) (.truncated field length (data.length - start))
  let payload := (data.drop start).take length
  let padded := (length + 31) / 32 * 32
  refuseIf (data.length - start ≠ padded) (.trailing field (data.length - start) length padded)
  refuseIf (data.drop (start + length) ≠ List.replicate (padded - length) 0) (.dirtyPadding field)
  return payload

/-- The topic of a log, as `classify` reads it. -/
def classifyTopic0 (log : RpcLog) : Option PyStr :=
  match log.topics[0]? with
  | none => none
  | some value =>
    match from0x value "topics[0]" with
    | .error _ => none
    | .ok bytes => if bytes.length = 32 then some (hexText bytes) else none

/-- `_require_topic0` -/
def requireTopic0 (log : RpcLog) (expected : PyStr) (name : String) : Except DispatchError Unit :=
  refuseIf (classifyTopic0 log ≠ some expected)
    (.wrongProtocol name (classifyTopic0 log) expected)

section Python

variable (keccak256 : Bytes → Digest)

/-- `event_topic` -/
def pyEventTopic (sig : String) : PyStr :=
  hexText (keccak256 sig.toUTF8.toList).bytes

/-- `decode_state_advanced`. The provenance is what `_provenance` reads of the other fields of the
log. -/
def decodeStateAdvanced (log : RpcLog) (provenance : Join.LogProvenance) :
    Except DispatchError Join.StateAdvanced := do
  requireTopic0 log (pyEventTopic keccak256 sigStateAdvanced) "CoreTexStateAdvanced"
  let data ← logData log
  let patch ← tailBytes data 8 9 "compactPatchBytes"
  let epoch ← topicUint log 1 "epoch" 64
  let transitionIndex ← topicUint log 2 "transitionIndex" 64
  let miner ← pyTopicAddress log 3 "miner"
  let parentStateRoot ← pyWord data 0 "parentStateRoot"
  let newStateRoot ← pyWord data 1 "newStateRoot"
  let patchHash ← pyWord data 2 "patchHash"
  let evalReportHash ← pyWord data 3 "evalReportHash"
  let coreVersionHash ← pyWord data 4 "coreVersionHash"
  let epochContextRoot ← pyWord data 5 "epochContextRoot"
  let improvementCredits ← wordUint data 6 "improvementCredits" 256
  let transitionFormatVersion ← wordUint data 7 "transitionFormatVersion" 16
  return {
    epoch, transitionIndex, miner, parentStateRoot, newStateRoot, patchHash, evalReportHash
    coreVersionHash, epochContextRoot, improvementCredits, transitionFormatVersion
    compactPatchBytes := patch, provenance }

/-- `decode_epoch_finalized` -/
def decodeEpochFinalized (log : RpcLog) (provenance : Join.LogProvenance) :
    Except DispatchError EpochFinalized := do
  requireTopic0 log (pyEventTopic keccak256 sigEpochFinalized) "CoreTexEpochFinalized"
  let data ← logData log
  let parentStateRoot ← pyWord data 0 "parent_state_root"
  let finalStateRoot ← pyWord data 1 "final_state_root"
  let coreVersionHash ← pyWord data 2 "core_version_hash"
  let epochContextRoot ← pyWord data 3 "epoch_context_root"
  let patchSetRoot ← pyWord data 4 "patch_set_root"
  let scoreRoot ← pyWord data 5 "score_root"
  let epoch ← topicUint log 1 "epoch" 64
  return {
    epoch, parentStateRoot, finalStateRoot, coreVersionHash, epochContextRoot, patchSetRoot
    scoreRoot, provenance }

end Python

end RigDispatch

end CoreTex
