import CoreTex.Lib.Except
import CoreTex.Lib.JsNumber
import CoreTex.State.Merkle

/-!
# CoreTex.Replay.RpcLog

The registry's two event logs and their decoders (`replay/coretex-registry.ts`).

A log is text: topics and `0x`-hex data. `AbiAdvance` and `AbiFinalized` are the values an
ABI encoder packs into such logs, and the decoders read them back
(`decodeCoreTexStateAdvanced_toLog`, `decodeCoreTexEpochFinalized_toLog`).
-/

namespace CoreTex

open CoreTex.Lib

/-! ### Logs and their topics -/

/-- What the decoders read of an RPC log. -/
structure RpcLog where
  topics : List String
  data : String
  deriving DecidableEq, Repr

/-- What reading a log may throw: an error of the byte decoder, or the `SyntaxError` of
`BigInt` on this text. -/
inductive Thrown
  | error (e : JsError)
  | bigIntSyntax (text : String)
  deriving DecidableEq, Repr

def sigStateAdvanced : String :=
  "CoreTexStateAdvanced(uint64,uint64,address,bytes32,bytes32,bytes32,bytes32,bytes32,bytes32,bytes32,uint256,uint16,bytes)"

def sigEpochFinalized : String :=
  "CoreTexEpochFinalized(uint64,bytes32,bytes32,bytes32,bytes32,bytes32,bytes32,bytes32,bytes32)"

/-- `TextEncoder.encode`, then keccak, then hex. -/
def eventTopic (keccak256 : Bytes → Digest) (sig : String) : String :=
  bytesToHex (keccak256 sig.toUTF8.toList).bytes

/-! ### Events -/

structure CoreTexStateAdvancedEvent where
  epoch : Int
  transitionIndex : Int
  miner : String
  parentStateRoot : String
  newStateRoot : String
  patchHash : String
  evalReportHash : String
  coreVersionHash : String
  corpusRoot : String
  activeFrontierRoot : String
  improvementCredits : Nat
  wordCount : Nat
  compactPatchBytes : Bytes
  deriving DecidableEq, Repr

structure CoreTexEpochFinalizedEvent where
  epoch : Int
  parentStateRoot : String
  finalStateRoot : String
  coreVersionHash : String
  corpusRoot : String
  activeFrontierRoot : String
  patchSetRoot : String
  scoreRoot : String
  baselineManifestHash : String
  deriving DecidableEq, Repr

/-! ### Decode helpers -/

/-- One byte of hex text: `parseInt` of two characters, where `NaN` is stored as zero and
a number modulo 256. -/
def hexPairByte (a b : Char) : UInt8 :=
  match parseIntHex [a, b] with
  | some v => UInt8.ofNat (v % 256).toNat
  | none => 0

/-- The bytes of hex text, two characters each. -/
def hexPairs : List Char → Bytes
  | a :: b :: rest => hexPairByte a b :: hexPairs rest
  | _ => []

def hexToBytes (hex : String) : Except JsError Bytes :=
  let s :=
    match hex.toList with
    | '0' :: 'x' :: rest => rest
    | cs => cs
  if s.length % 2 ≠ 0 then throw (rangeError "hexToBytes: odd-length hex string")
  else pure (hexPairs s)

/-- Hex text compared without case; the texts are ASCII. -/
def eqHex (a : Option String) (b : String) : Bool :=
  (a.getD "").toLower = b.toLower

/-- The 32 bytes at word `i`, as hex; fewer where the data end. -/
def word (data : Bytes) (i : Nat) : String :=
  bytesToHex ((data.drop (i * 32)).take 32)

/-- The number of the 32 bytes from a byte offset; bytes past the end are zero. -/
def wordNumAt (data : Bytes) (offset : Nat) : Nat :=
  readBE ((List.range 32).map fun j => data[offset + j]?.getD 0)

def wordNum (data : Bytes) (i : Nat) : Nat :=
  wordNumAt data (i * 32)

/-- `BigInt(t ?? '0x0')`. -/
def topicBig (t : Option String) : Except Thrown Int :=
  let text := t.getD "0x0"
  match bigInt text with
  | some n => pure n
  | none => throw (.bigIntSyntax text)

/-- The last 40 characters of a topic, in lower case. -/
def topicAddr (t : Option String) : String :=
  let h :=
    match (t.getD ("0x" ++ String.ofList (List.replicate 64 '0'))).toList with
    | '0' :: 'x' :: rest => rest
    | cs => cs
  "0x" ++ (String.ofList (h.drop (h.length - 40))).toLower

/-- `hexToBytes`, as a step of a decoder. -/
def logBytes (log : RpcLog) : Except Thrown Bytes :=
  match hexToBytes log.data with
  | .ok data => pure data
  | .error e => throw (.error e)

section Decode

variable (keccak256 : Bytes → Digest)

/-- Decode a `CoreTexStateAdvanced` log, or none for a log of another topic. -/
def decodeCoreTexStateAdvanced (log : RpcLog) : Except Thrown (Option CoreTexStateAdvancedEvent) := do
  if !eqHex log.topics[0]? (eventTopic keccak256 sigStateAdvanced) then return none
  let d ← logBytes log
  -- head: seven bytes32, the credits, the word count, the offset of the bytes
  let off := wordNum d 9
  let len := wordNumAt d off
  let start := off + 32
  let epoch ← topicBig log.topics[1]?
  let transitionIndex ← topicBig log.topics[2]?
  return some {
    epoch, transitionIndex, miner := topicAddr log.topics[3]?
    parentStateRoot := word d 0, newStateRoot := word d 1, patchHash := word d 2
    evalReportHash := word d 3, coreVersionHash := word d 4, corpusRoot := word d 5
    activeFrontierRoot := word d 6, improvementCredits := wordNum d 7, wordCount := wordNum d 8
    compactPatchBytes := (d.drop start).take len }

/-- Decode a `CoreTexEpochFinalized` log, or none for a log of another topic. -/
def decodeCoreTexEpochFinalized (log : RpcLog) :
    Except Thrown (Option CoreTexEpochFinalizedEvent) := do
  if !eqHex log.topics[0]? (eventTopic keccak256 sigEpochFinalized) then return none
  let d ← logBytes log
  let epoch ← topicBig log.topics[1]?
  return some {
    epoch, parentStateRoot := word d 0, finalStateRoot := word d 1, coreVersionHash := word d 2
    corpusRoot := word d 3, activeFrontierRoot := word d 4, patchSetRoot := word d 5
    scoreRoot := word d 6, baselineManifestHash := word d 7 }

end Decode

/-! ### Hex text is read back -/

theorem hexPairs_hexChars (bytes : Bytes) : hexPairs (hexChars bytes) = bytes := by
  induction bytes with
  | nil => rfl
  | cons b bytes ih =>
      have hb : b.toNat < 256 := b.toNat_lt
      have hbyte : hexPairByte (hexDigit (b.toNat / 16)) (hexDigit (b.toNat % 16)) = b := by
        have hread := parseIntHex_hexByte b
        rw [hexByte] at hread
        have hmod : (((b.toNat : Nat) : Int) % 256).toNat = b.toNat := by omega
        rw [hexPairByte, hread]
        dsimp only
        rw [hmod, UInt8.ofNat_toNat]
      have hcons : hexChars (b :: bytes) =
          hexDigit (b.toNat / 16) :: hexDigit (b.toNat % 16) :: hexChars bytes := rfl
      rw [hcons, hexPairs, hbyte, ih]

theorem toList_bytesToHex (bytes : Bytes) :
    (bytesToHex bytes).toList = '0' :: 'x' :: hexChars bytes := by
  simp only [bytesToHex, String.toList_append, String.toList_ofList]
  rfl

theorem hexToBytes_bytesToHex (bytes : Bytes) : hexToBytes (bytesToHex bytes) = .ok bytes := by
  have heven : ¬ (hexChars bytes).length % 2 ≠ 0 := by
    rw [length_hexChars]
    omega
  unfold hexToBytes
  rw [toList_bytesToHex]
  show (if (hexChars bytes).length % 2 ≠ 0 then throw _ else pure (hexPairs (hexChars bytes))) = _
  rw [if_neg heven, hexPairs_hexChars]
  rfl

theorem map_toLower_hexChars (bytes : Bytes) :
    (hexChars bytes).map Char.toLower = hexChars bytes := by
  have hdigit : ∀ n : Fin 16, (hexDigit n).toLower = hexDigit n := by decide
  have hchar : ∀ c ∈ hexChars bytes, c.toLower = c := by
    intro c hc
    obtain ⟨b, -, hb⟩ := List.mem_flatMap.mp hc
    have hlt : b.toNat < 256 := b.toNat_lt
    rw [hexByte, List.mem_cons, List.mem_singleton] at hb
    rcases hb with rfl | rfl
    · exact hdigit ⟨b.toNat / 16, by omega⟩
    · exact hdigit ⟨b.toNat % 16, by omega⟩
  exact (List.map_congr_left hchar).trans (List.map_id _)

theorem toList_toLower (s : String) : s.toLower.toList = s.toList.map Char.toLower := by
  show (String.map Char.toLower s).toList = _
  rw [String.toList_map]

theorem toLower_ofList_hexChars (bytes : Bytes) :
    (String.ofList (hexChars bytes)).toLower = String.ofList (hexChars bytes) := by
  apply String.ext
  simp only [toList_toLower, String.toList_ofList, map_toLower_hexChars]

/-- Lower-case hex text stays what it is. -/
theorem toLower_bytesToHex (bytes : Bytes) : (bytesToHex bytes).toLower = bytesToHex bytes := by
  apply String.ext
  simp only [toList_toLower, bytesToHex, String.toList_append, String.toList_ofList,
    List.map_append, map_toLower_hexChars]
  rfl

/-! ### Words of packed data -/

/-- Word `i` of 32-byte words laid end to end. -/
theorem take_drop_flatten {ws : List Bytes} (h : ∀ w ∈ ws, w.length = 32) {i : Nat}
    (hi : i < ws.length) (tail : Bytes) :
    ((ws.flatten ++ tail).drop (i * 32)).take 32 = ws[i] := by
  induction ws generalizing i with
  | nil => exact absurd hi (Nat.not_lt_zero i)
  | cons w ws ih =>
      rw [List.forall_mem_cons] at h
      rw [List.flatten_cons, List.append_assoc]
      cases i with
      | zero =>
          rw [Nat.zero_mul, List.drop_zero]
          exact List.take_left' h.1
      | succ i =>
          have hlen : (i + 1) * 32 = w.length + i * 32 := by
            rw [h.1]
            omega
          rw [hlen, ← List.drop_drop, List.drop_left]
          exact ih h.2 (by simpa using hi)

theorem length_flatten_words {ws : List Bytes} (h : ∀ w ∈ ws, w.length = 32) :
    ws.flatten.length = ws.length * 32 := by
  induction ws with
  | nil => rfl
  | cons w ws ih =>
      rw [List.forall_mem_cons] at h
      rw [List.flatten_cons, List.length_append, ih h.2, h.1, List.length_cons]
      omega

/-- A number whose 32 bytes are all there. -/
theorem wordNumAt_eq {data : Bytes} {offset : Nat} (h : offset + 32 ≤ data.length) :
    wordNumAt data offset = readBE ((data.drop offset).take 32) := by
  rw [wordNumAt]
  congr 1
  apply List.ext_getElem
  · rw [List.length_map, List.length_range, List.length_take, List.length_drop]
    omega
  · intro j h1 h2
    rw [List.length_map, List.length_range] at h1
    rw [List.getElem_map, List.getElem_range, List.getElem_take, List.getElem_drop,
      List.getElem?_eq_getElem (by omega), Option.getD_some]

/-! ### ABI encoding -/

/-- The values of a `CoreTexStateAdvanced` event, of the types its signature names. -/
structure AbiAdvance where
  epoch : Nat
  transitionIndex : Nat
  miner : Bytes
  parentStateRoot : Digest
  newStateRoot : Digest
  patchHash : Digest
  evalReportHash : Digest
  coreVersionHash : Digest
  corpusRoot : Digest
  activeFrontierRoot : Digest
  improvementCredits : Nat
  wordCount : Nat
  compactPatchBytes : Bytes
  epoch_lt : epoch < 2 ^ 64
  transitionIndex_lt : transitionIndex < 2 ^ 64
  length_miner : miner.length = 20
  improvementCredits_lt : improvementCredits < 2 ^ 256
  wordCount_lt : wordCount < 2 ^ 16
  length_patch_lt : compactPatchBytes.length < 2 ^ 256

/-- The values of a `CoreTexEpochFinalized` event. -/
structure AbiFinalized where
  epoch : Nat
  parentStateRoot : Digest
  finalStateRoot : Digest
  coreVersionHash : Digest
  corpusRoot : Digest
  activeFrontierRoot : Digest
  patchSetRoot : Digest
  scoreRoot : Digest
  baselineManifestHash : Digest
  epoch_lt : epoch < 2 ^ 64

/-- The event as the decoder returns it. -/
def AbiAdvance.toEvent (a : AbiAdvance) : CoreTexStateAdvancedEvent where
  epoch := (a.epoch : Nat)
  transitionIndex := (a.transitionIndex : Nat)
  miner := bytesToHex a.miner
  parentStateRoot := bytesToHex a.parentStateRoot.bytes
  newStateRoot := bytesToHex a.newStateRoot.bytes
  patchHash := bytesToHex a.patchHash.bytes
  evalReportHash := bytesToHex a.evalReportHash.bytes
  coreVersionHash := bytesToHex a.coreVersionHash.bytes
  corpusRoot := bytesToHex a.corpusRoot.bytes
  activeFrontierRoot := bytesToHex a.activeFrontierRoot.bytes
  improvementCredits := a.improvementCredits
  wordCount := a.wordCount
  compactPatchBytes := a.compactPatchBytes

def AbiFinalized.toEvent (f : AbiFinalized) : CoreTexEpochFinalizedEvent where
  epoch := (f.epoch : Nat)
  parentStateRoot := bytesToHex f.parentStateRoot.bytes
  finalStateRoot := bytesToHex f.finalStateRoot.bytes
  coreVersionHash := bytesToHex f.coreVersionHash.bytes
  corpusRoot := bytesToHex f.corpusRoot.bytes
  activeFrontierRoot := bytesToHex f.activeFrontierRoot.bytes
  patchSetRoot := bytesToHex f.patchSetRoot.bytes
  scoreRoot := bytesToHex f.scoreRoot.bytes
  baselineManifestHash := bytesToHex f.baselineManifestHash.bytes

/-- The words of the data: the head, the offset of the bytes and their length. -/
def AbiAdvance.words (a : AbiAdvance) : List Bytes :=
  [a.parentStateRoot.bytes, a.newStateRoot.bytes, a.patchHash.bytes, a.evalReportHash.bytes,
    a.coreVersionHash.bytes, a.corpusRoot.bytes, a.activeFrontierRoot.bytes,
    writeBE 32 a.improvementCredits, writeBE 32 a.wordCount, writeBE 32 320,
    writeBE 32 a.compactPatchBytes.length]

/-- The bytes, padded with zeros to whole words. -/
def AbiAdvance.paddedPatch (a : AbiAdvance) : Bytes :=
  a.compactPatchBytes ++ List.replicate ((32 - a.compactPatchBytes.length % 32) % 32) 0

def AbiFinalized.words (f : AbiFinalized) : List Bytes :=
  [f.parentStateRoot.bytes, f.finalStateRoot.bytes, f.coreVersionHash.bytes, f.corpusRoot.bytes,
    f.activeFrontierRoot.bytes, f.patchSetRoot.bytes, f.scoreRoot.bytes,
    f.baselineManifestHash.bytes]

section Encode

variable (keccak256 : Bytes → Digest)

/-- The log a registry emits for an advance. -/
def AbiAdvance.toLog (a : AbiAdvance) : RpcLog where
  topics := [eventTopic keccak256 sigStateAdvanced, bytesToHex (writeBE 32 a.epoch),
    bytesToHex (writeBE 32 a.transitionIndex), bytesToHex (List.replicate 12 0 ++ a.miner)]
  data := bytesToHex (a.words.flatten ++ a.paddedPatch)

def AbiFinalized.toLog (f : AbiFinalized) : RpcLog where
  topics := [eventTopic keccak256 sigEpochFinalized, bytesToHex (writeBE 32 f.epoch)]
  data := bytesToHex f.words.flatten

theorem AbiAdvance.length_words (a : AbiAdvance) : ∀ w ∈ a.words, w.length = 32 := by
  simp [AbiAdvance.words, Digest.length_bytes]

theorem AbiFinalized.length_words (f : AbiFinalized) : ∀ w ∈ f.words, w.length = 32 := by
  simp [AbiFinalized.words, Digest.length_bytes]

/-- A topic that packs a number. -/
theorem topicBig_writeBE {n : Nat} (h : n < 2 ^ 256) :
    topicBig (some (bytesToHex (writeBE 32 n))) = .ok (n : Int) := by
  have hne : writeBE 32 n ≠ [] := by
    intro hnil
    have := congrArg List.length hnil
    simp at this
  have hread : bigInt (bytesToHex (writeBE 32 n)) = some (n : Int) := by
    have hmod : n % 256 ^ 32 = n := Nat.mod_eq_of_lt h
    rw [bytesToHex, bigInt_hexChars hne, readBE_writeBE, hmod]
  rw [topicBig, Option.getD_some, hread]
  rfl

/-- The last 20 bytes of a topic that packs an address. -/
theorem topicAddr_miner {miner : Bytes} (h : miner.length = 20) :
    topicAddr (some (bytesToHex (List.replicate 12 0 ++ miner))) = bytesToHex miner := by
  have hchars : (bytesToHex (List.replicate 12 0 ++ miner)).toList =
      '0' :: 'x' :: hexChars (List.replicate 12 0 ++ miner) := by
    simp only [bytesToHex, String.toList_append, String.toList_ofList]
    rfl
  have hsplit : hexChars (List.replicate 12 0 ++ miner) =
      hexChars (List.replicate 12 0) ++ hexChars miner := by
    simp [hexChars]
  have hlength : (hexChars (List.replicate 12 0 ++ miner)).length - 40 =
      (hexChars (List.replicate 12 (0 : UInt8))).length := by
    rw [length_hexChars, List.length_append, List.length_replicate, h, length_hexChars,
      List.length_replicate]
  rw [topicAddr, Option.getD_some, hchars]
  show "0x" ++ (String.ofList ((hexChars (List.replicate 12 0 ++ miner)).drop
    ((hexChars (List.replicate 12 0 ++ miner)).length - 40))).toLower = _
  rw [hlength, hsplit, List.drop_left, toLower_ofList_hexChars]
  rfl

/-- A registry's advance log is read back. -/
theorem decodeCoreTexStateAdvanced_toLog (a : AbiAdvance) :
    decodeCoreTexStateAdvanced keccak256 (a.toLog keccak256) = .ok (some a.toEvent) := by
  have htopic : eqHex (some (eventTopic keccak256 sigStateAdvanced))
      (eventTopic keccak256 sigStateAdvanced) = true := by
    simp [eqHex]
  have hepoch := topicBig_writeBE (Nat.lt_trans a.epoch_lt (by decide : 2 ^ 64 < 2 ^ 256))
  have hindex :=
    topicBig_writeBE (Nat.lt_trans a.transitionIndex_lt (by decide : 2 ^ 64 < 2 ^ 256))
  have hminer := topicAddr_miner a.length_miner
  let d : Bytes := a.words.flatten ++ a.paddedPatch
  have hdata : logBytes (a.toLog keccak256) = .ok d := by
    rw [logBytes, AbiAdvance.toLog, hexToBytes_bytesToHex]
    rfl
  have hflat : a.words.flatten.length = 352 := by
    have hwords : a.words.length = 11 := rfl
    rw [length_flatten_words a.length_words, hwords]
  have hlength : d.length = 352 + a.paddedPatch.length := by
    rw [List.length_append, hflat]
  have hword : ∀ i (hi : i < 11), (d.drop (i * 32)).take 32 = a.words[i] := fun i hi =>
    take_drop_flatten a.length_words hi a.paddedPatch
  have hnum : ∀ i (hi : i < 11), wordNum d i = readBE a.words[i] := by
    intro i hi
    rw [wordNum, wordNumAt_eq (by omega), hword i hi]
  have hcredits : wordNum d 7 = a.improvementCredits := by
    rw [hnum 7 (by omega)]
    show readBE (writeBE 32 a.improvementCredits) = _
    rw [readBE_writeBE]
    exact Nat.mod_eq_of_lt a.improvementCredits_lt
  have hcount : wordNum d 8 = a.wordCount := by
    rw [hnum 8 (by omega)]
    show readBE (writeBE 32 a.wordCount) = _
    rw [readBE_writeBE]
    exact Nat.mod_eq_of_lt (Nat.lt_trans a.wordCount_lt (by decide))
  have hoff : wordNum d 9 = 320 := by
    rw [hnum 9 (by omega)]
    show readBE (writeBE 32 320) = _
    rw [readBE_writeBE]
    norm_num
  have hlen : wordNumAt d 320 = a.compactPatchBytes.length := by
    rw [wordNumAt_eq (by omega), hword 10 (by omega)]
    show readBE (writeBE 32 a.compactPatchBytes.length) = _
    rw [readBE_writeBE]
    exact Nat.mod_eq_of_lt a.length_patch_lt
  have hbytes : (d.drop 352).take a.compactPatchBytes.length = a.compactPatchBytes := by
    rw [List.drop_left' hflat, AbiAdvance.paddedPatch, List.take_left]
  have hhex : ∀ i (hi : i < 11), word d i = bytesToHex a.words[i] := by
    intro i hi
    rw [word, hword i hi]
  unfold decodeCoreTexStateAdvanced
  rw [hdata]
  simp only [AbiAdvance.toLog, List.getElem?_cons_zero, List.getElem?_cons_succ, htopic,
    Bool.not_true, Bool.false_eq_true, if_false, ok_bind, hoff, hlen, hepoch, hindex, hminer,
    hbytes, hcredits, hcount]
  rw [hhex 0 (by omega), hhex 1 (by omega), hhex 2 (by omega), hhex 3 (by omega),
    hhex 4 (by omega), hhex 5 (by omega), hhex 6 (by omega)]
  rfl

/-- A registry's finalization log is read back. -/
theorem decodeCoreTexEpochFinalized_toLog (f : AbiFinalized) :
    decodeCoreTexEpochFinalized keccak256 (f.toLog keccak256) = .ok (some f.toEvent) := by
  have htopic : eqHex (some (eventTopic keccak256 sigEpochFinalized))
      (eventTopic keccak256 sigEpochFinalized) = true := by
    simp [eqHex]
  have hepoch := topicBig_writeBE (Nat.lt_trans f.epoch_lt (by decide : 2 ^ 64 < 2 ^ 256))
  have hdata : logBytes (f.toLog keccak256) = .ok (f.words.flatten ++ []) := by
    rw [logBytes, AbiFinalized.toLog, hexToBytes_bytesToHex, List.append_nil]
    rfl
  have hhex : ∀ i (hi : i < 8), word (f.words.flatten ++ []) i = bytesToHex f.words[i] := by
    intro i hi
    rw [word, take_drop_flatten f.length_words hi]
  unfold decodeCoreTexEpochFinalized
  rw [hdata]
  simp only [AbiFinalized.toLog, List.getElem?_cons_zero, List.getElem?_cons_succ, htopic,
    Bool.not_true, Bool.false_eq_true, if_false, ok_bind, hepoch]
  rw [hhex 0 (by omega), hhex 1 (by omega), hhex 2 (by omega), hhex 3 (by omega),
    hhex 4 (by omega), hhex 5 (by omega), hhex 6 (by omega), hhex 7 (by omega)]
  rfl

end Encode

end CoreTex
