import CoreTex.Replay.RigAgreement

/-!
# CoreTex.Replay.AdvanceEncoding

The ABI encoding of an advance, and what `decode_state_advanced` asks of the data of a log.

`_tail_bytes` bounds the offset of the payload from below only, so words may stand between the
nine of the head and the payload. `decodeStateAdvanced_canonical` says that an accepted log is
encoded canonically exactly when its offset word is 288.
-/

namespace CoreTex.RigDispatch

open CoreTex.Lib

/-! ### The encoding -/

/-- The bytes of a hash field. -/
def fieldWord (text : PyStr) : Bytes :=
  (fromHex text).getD []

/-- The eight static words and the offset word. -/
def headWords (ev : Join.StateAdvanced) : List Bytes :=
  [fieldWord ev.parentStateRoot, fieldWord ev.newStateRoot, fieldWord ev.patchHash,
    fieldWord ev.evalReportHash, fieldWord ev.coreVersionHash, fieldWord ev.epochContextRoot,
    writeBE 32 ev.improvementCredits, writeBE 32 ev.transitionFormatVersion, writeBE 32 288]

/-- The length word, the payload and its zero padding. -/
def tailWords (payload : Bytes) : Bytes :=
  writeBE 32 payload.length ++ (payload ++
    List.replicate ((payload.length + 31) / 32 * 32 - payload.length) 0)

/-- The canonical encoding of the data of an advance. -/
def encodeStateAdvanced (ev : Join.StateAdvanced) : Bytes :=
  (headWords ev).flatten ++ tailWords ev.compactPatchBytes

/-- Fields that fit their ABI types. -/
structure InRange (ev : Join.StateAdvanced) : Prop where
  hashes : ∀ text ∈ [ev.parentStateRoot, ev.newStateRoot, ev.patchHash, ev.evalReportHash,
    ev.coreVersionHash, ev.epochContextRoot], ∃ word : Bytes, word.length = 32 ∧ hexText word = text
  credits : ev.improvementCredits < 2 ^ 256
  version : ev.transitionFormatVersion < 2 ^ 16
  payload : ev.compactPatchBytes.length < 2 ^ 256

theorem fieldWord_hexText (word : Bytes) : fieldWord (hexText word) = word := by
  rw [fieldWord, hexText, fromHex_hexChars, Option.getD_some]

/-! ### Words of data -/

theorem length_slot {data : Bytes} {i : Nat} (h : i * 32 + 32 ≤ data.length) :
    (slot data i).length = 32 := by
  rw [slot, List.length_take, List.length_drop]
  omega

theorem take_eq_slots {data : Bytes} (n : Nat) (h : n * 32 ≤ data.length) :
    data.take (n * 32) = ((List.range n).map (slot data)).flatten := by
  induction n with
  | zero => rfl
  | succ n ih =>
      rw [List.range_succ, List.map_append, List.flatten_append, ← ih (by omega), Nat.add_mul,
        Nat.one_mul, List.take_add]
      simp [slot]

/-- A tail reads back: its length, its payload and its zeros. -/
theorem tailWords_eq {data : Bytes} {offset : Nat}
    (hlength : data.length = offset + 32 + (tailLength data offset + 31) / 32 * 32)
    (hpad : ∀ b ∈ data.drop (offset + 32 + tailLength data offset), b = 0) :
    data.drop offset = tailWords ((data.drop (offset + 32)).take (tailLength data offset)) := by
  have hword : ((data.drop offset).take 32).length = 32 := by
    rw [List.length_take, List.length_drop]
    omega
  have hpayload : ((data.drop (offset + 32)).take (tailLength data offset)).length =
      tailLength data offset := by
    rw [List.length_take, List.length_drop]
    omega
  have hzeros : data.drop (offset + 32 + tailLength data offset) = List.replicate
      ((tailLength data offset + 31) / 32 * 32 - tailLength data offset) 0 := by
    refine List.eq_replicate_iff.mpr ⟨?_, hpad⟩
    rw [List.length_drop]
    omega
  rw [tailWords, hpayload, ← hzeros]
  rw [← List.take_append_drop 32 (data.drop offset)]
  refine congrArg₂ (· ++ ·) ?_ ?_
  · have hread := writeBE_readBE ((data.drop offset).take 32)
    rw [hword] at hread
    exact hread.symm
  · have hsplit := List.take_append_drop (tailLength data offset) (data.drop (offset + 32))
    rw [List.drop_drop] at hsplit ⊢
    exact hsplit.symm

section Canonical

variable {keccak256 : Bytes → Digest} {log : RpcLog} {provenance : Join.LogProvenance}

/-- The head of data whose offset word is 288. -/
theorem take_eq_headWords {data : Bytes} {epoch transitionIndex : Nat} {miner : PyStr}
    (h : AdvanceData data 288) :
    data.take 288 = (headWords (pyAdvance data 288 epoch transitionIndex miner provenance)).flatten := by
  have hlen := h.length
  have hwrite : ∀ i, i * 32 + 32 ≤ data.length → writeBE 32 (readBE (slot data i)) = slot data i := by
    intro i hi
    have hread := writeBE_readBE (slot data i)
    rw [length_slot hi] at hread
    exact hread
  have hoffset : writeBE 32 288 = slot data 8 := by
    rw [← hwrite 8 (by omega), h.offset_word]
  have hcredits := hwrite 6 (by omega)
  have hversion := hwrite 7 (by omega)
  have htake : data.take 288 = ((List.range 9).map (slot data)).flatten :=
    take_eq_slots 9 (by omega)
  have hrange : List.range 9 = [0, 1, 2, 3, 4, 5, 6, 7, 8] := by decide
  rw [htake, hrange]
  simp only [headWords, pyAdvance, fieldWord_hexText, hcredits, hversion, hoffset, List.map_cons,
    List.map_nil]

theorem eq_encodeStateAdvanced {data : Bytes} {epoch transitionIndex : Nat} {miner : PyStr}
    (h : AdvanceData data 288) :
    data = encodeStateAdvanced (pyAdvance data 288 epoch transitionIndex miner provenance) := by
  rw [encodeStateAdvanced, ← take_eq_headWords h]
  conv_lhs => rw [← List.take_append_drop 288 data]
  rw [tailWords_eq h.length h.padding]
  rfl

/-! ### The encoding is read back -/

variable {ev : Join.StateAdvanced}

theorem InRange.length_headWords (h : InRange ev) : ∀ w ∈ headWords ev, w.length = 32 := by
  have hhash : ∀ text ∈ [ev.parentStateRoot, ev.newStateRoot, ev.patchHash, ev.evalReportHash,
      ev.coreVersionHash, ev.epochContextRoot], (fieldWord text).length = 32 := by
    intro text htext
    obtain ⟨word, hword, rfl⟩ := h.hashes text htext
    rw [fieldWord_hexText, hword]
  simp only [List.forall_mem_cons] at hhash
  obtain ⟨h0, h1, h2, h3, h4, h5, -⟩ := hhash
  simp only [headWords, List.forall_mem_cons, length_writeBE, h0, h1, h2, h3, h4, h5, true_and]
  exact fun w hw => absurd hw List.not_mem_nil

theorem InRange.slot_encode (h : InRange ev) {i : Nat} (hi : i < 9) :
    slot (encodeStateAdvanced ev) i = (headWords ev).get ⟨i, hi⟩ :=
  take_drop_flatten h.length_headWords hi _

theorem InRange.length_flatten (h : InRange ev) : (headWords ev).flatten.length = 288 := by
  have hsum := h.length_headWords
  simp only [headWords, List.forall_mem_cons] at hsum
  obtain ⟨h0, h1, h2, h3, h4, h5, h6, h7, h8, -⟩ := hsum
  simp only [headWords, List.flatten_cons, List.flatten_nil, List.length_append, List.length_nil,
    h0, h1, h2, h3, h4, h5, h6, h7, h8]

theorem InRange.drop_encode (h : InRange ev) :
    (encodeStateAdvanced ev).drop 288 = tailWords ev.compactPatchBytes :=
  List.drop_left' h.length_flatten

theorem readBE_word {n : Nat} (h : n < 2 ^ 256) : readBE (writeBE 32 n) = n := by
  rw [readBE_writeBE]
  exact Nat.mod_eq_of_lt h

theorem InRange.tailLength_encode (h : InRange ev) :
    tailLength (encodeStateAdvanced ev) 288 = ev.compactPatchBytes.length := by
  rw [tailLength, h.drop_encode, tailWords, List.take_left' (length_writeBE 32 _),
    readBE_word h.payload]

theorem InRange.advanceData (h : InRange ev) : AdvanceData (encodeStateAdvanced ev) 288 where
  offset_word := by
    rw [h.slot_encode (by decide : 8 < 9)]
    exact readBE_word (by decide)
  version := by
    rw [h.slot_encode (by decide : 7 < 9)]
    show readBE (writeBE 32 ev.transitionFormatVersion) < 2 ^ 16
    rw [readBE_word (Nat.lt_trans h.version (by decide))]
    exact h.version
  length := by
    rw [h.tailLength_encode, encodeStateAdvanced, List.length_append, h.length_flatten, tailWords,
      List.length_append, List.length_append, length_writeBE, List.length_replicate]
    omega
  padding := by
    rw [h.tailLength_encode]
    have hdrop : (encodeStateAdvanced ev).drop (288 + 32 + ev.compactPatchBytes.length) =
        List.replicate ((ev.compactPatchBytes.length + 31) / 32 * 32 -
          ev.compactPatchBytes.length) 0 := by
      rw [← List.drop_drop, ← List.drop_drop, h.drop_encode, tailWords,
        List.drop_left' (length_writeBE 32 _), List.drop_left' rfl]
    rw [hdrop]
    exact fun b hb => List.eq_of_mem_replicate hb

/-- The decoder reads the fields back. -/
theorem InRange.pyAdvance_encode (h : InRange ev) :
    pyAdvance (encodeStateAdvanced ev) 288 ev.epoch ev.transitionIndex ev.miner ev.provenance =
      ev := by
  have hhash : ∀ text ∈ [ev.parentStateRoot, ev.newStateRoot, ev.patchHash, ev.evalReportHash,
      ev.coreVersionHash, ev.epochContextRoot], hexText (fieldWord text) = text := by
    intro text htext
    obtain ⟨word, -, rfl⟩ := h.hashes text htext
    rw [fieldWord_hexText]
  simp only [List.forall_mem_cons] at hhash
  obtain ⟨h0, h1, h2, h3, h4, h5, -⟩ := hhash
  have hpayload : ((encodeStateAdvanced ev).drop (288 + 32)).take
      (tailLength (encodeStateAdvanced ev) 288) = ev.compactPatchBytes := by
    rw [h.tailLength_encode, ← List.drop_drop, h.drop_encode, tailWords,
      List.drop_left' (length_writeBE 32 _), List.take_left' rfl]
  have hcredits : readBE (slot (encodeStateAdvanced ev) 6) = ev.improvementCredits :=
    (congrArg readBE (h.slot_encode (by decide))).trans (readBE_word h.credits)
  have hversion : readBE (slot (encodeStateAdvanced ev) 7) = ev.transitionFormatVersion :=
    (congrArg readBE (h.slot_encode (by decide))).trans
      (readBE_word (Nat.lt_trans h.version (by decide)))
  unfold pyAdvance
  rw [(congrArg hexText (h.slot_encode (by decide : 0 < 9))).trans h0,
    (congrArg hexText (h.slot_encode (by decide : 1 < 9))).trans h1,
    (congrArg hexText (h.slot_encode (by decide : 2 < 9))).trans h2,
    (congrArg hexText (h.slot_encode (by decide : 3 < 9))).trans h3,
    (congrArg hexText (h.slot_encode (by decide : 4 < 9))).trans h4,
    (congrArg hexText (h.slot_encode (by decide : 5 < 9))).trans h5, hcredits, hversion, hpayload]

/-- Decoded fields fit their types. -/
theorem inRange_pyAdvance {data : Bytes} {offset epoch transitionIndex : Nat} {miner : PyStr}
    (h : AdvanceData data offset) (hoffset : TailOffset offset) :
    InRange (pyAdvance data offset epoch transitionIndex miner provenance) := by
  have hlen := h.length
  have hhead := hoffset.1
  have hhash : ∀ i, i < 9 → ∃ word : Bytes, word.length = 32 ∧ hexText word = hexText (slot data i) :=
    fun i hi => ⟨slot data i, length_slot (by omega), rfl⟩
  have hwide : ∀ bytes : Bytes, bytes.length = 32 → readBE bytes < 2 ^ 256 := by
    intro bytes hbytes
    have hlt := readBE_lt bytes
    rw [hbytes] at hlt
    exact hlt
  refine ⟨?_, hwide _ (length_slot (by omega)), h.version, ?_⟩
  · simp only [List.forall_mem_cons]
    exact ⟨hhash 0 (by decide), hhash 1 (by decide), hhash 2 (by decide), hhash 3 (by decide),
      hhash 4 (by decide), hhash 5 (by decide), fun text htext => absurd htext List.not_mem_nil⟩
  · show ((data.drop (offset + 32)).take (tailLength data offset)).length < 2 ^ 256
    have hword : ((data.drop offset).take 32).length = 32 := by
      rw [List.length_take, List.length_drop]
      omega
    have hlength := hwide _ hword
    rw [List.length_take]
    exact Nat.lt_of_le_of_lt (Nat.min_le_left _ _) hlength

/-! ### One encoding -/

/-- **An accepted log is encoded canonically exactly when its offset word is 288.** Two such logs
with equal fields have equal data, and every canonical encoding is read back. -/
theorem decodeStateAdvanced_canonical {data : Bytes}
    (hev : decodeStateAdvanced keccak256 log provenance = .ok ev) (hdata : PyHex log.data data) :
    (data = encodeStateAdvanced ev ↔ readBE (slot data 8) = 288) ∧
      (readBE (slot data 8) = 288 → ∀ (log' : RpcLog) (provenance' : Join.LogProvenance) (data' : Bytes),
        decodeStateAdvanced keccak256 log' provenance' =
            .ok { ev with provenance := provenance' } →
          PyHex log'.data data' → readBE (slot data' 8) = 288 → data' = data) ∧
      ∀ (log' : RpcLog) (ev' : Join.StateAdvanced), InRange ev' →
        requireTopic0 log' (pyEventTopic keccak256 sigStateAdvanced) "CoreTexStateAdvanced" =
          .ok () →
        topicUint log' 1 "epoch" 64 = .ok ev'.epoch →
        topicUint log' 2 "transitionIndex" 64 = .ok ev'.transitionIndex →
        pyTopicAddress log' 3 "miner" = .ok ev'.miner →
        PyHex log'.data (encodeStateAdvanced ev') →
          decodeStateAdvanced keccak256 log' ev'.provenance = .ok ev' := by
  have hcanonical : ∀ {log' provenance' ev' data'},
      decodeStateAdvanced keccak256 log' provenance' = .ok ev' → PyHex log'.data data' →
        (data' = encodeStateAdvanced ev' ↔ readBE (slot data' 8) = 288) := by
    intro log' provenance' ev' data' hdecode hdata'
    have htopic : requireTopic0 log' (pyEventTopic keccak256 sigStateAdvanced)
        "CoreTexStateAdvanced" = .ok () := by
      rw [decodeStateAdvanced, bind_eq_ok] at hdecode
      obtain ⟨_, htopic, -⟩ := hdecode
      exact htopic
    obtain ⟨data, offset, epoch, index, miner, hhex, -, hoffset, hadvance, -, -, -, rfl⟩ :=
      (decodeStateAdvanced_of_topic0 htopic).mp hdecode
    obtain rfl := hhex.unique hdata'
    constructor
    · intro heq
      have hrange := @inRange_pyAdvance provenance' data offset epoch index miner hadvance hoffset
      rw [heq, hrange.slot_encode (by decide : 8 < 9)]
      exact readBE_word (by decide)
    · intro hword
      obtain rfl : offset = 288 := hadvance.offset_word.symm.trans hword
      exact eq_encodeStateAdvanced hadvance
  refine ⟨hcanonical hev hdata, ?_, ?_⟩
  · intro hword log' provenance' data' hev' hdata' hword'
    rw [(hcanonical hev' hdata').mpr hword', (hcanonical hev hdata).mpr hword]
    rfl
  · intro log' ev' hrange htopic hepoch hindex hminer hhex
    refine (decodeStateAdvanced_of_topic0 htopic).mpr ⟨_, 288, _, _, _, hhex, ?_,
      ⟨by decide, by decide⟩, hrange.advanceData, hepoch, hindex, hminer, hrange.pyAdvance_encode⟩
    have hlen := hrange.advanceData.length
    omega

end Canonical

/-! ### A canonical log, and one with a gap -/

/-- An advance of epoch 0 whose topics are zero. -/
def advanceLog (data : Bytes) : RpcLog where
  topics := [eventTopic keccakDigest sigStateAdvanced, bytesToHex (List.replicate 32 0),
    bytesToHex (List.replicate 32 0), bytesToHex (List.replicate 32 0)]
  data := bytesToHex data

theorem decode_advanceLog {data : Bytes} {offset : Nat} (h : AdvanceData data offset)
    (hoffset : TailOffset offset) (hwords : data.length % 32 = 0) :
    ∃ miner, decodeStateAdvanced keccakDigest (advanceLog data) noProvenance =
      .ok (pyAdvance data offset 0 0 miner noProvenance) := by
  have htopic : ((advanceLog data).topics[0]?.getD "").toLower =
      eventTopic keccakDigest sigStateAdvanced := toLower_bytesToHex _
  have hzero : ∀ index field, (advanceLog data).topics[index]? =
      some (bytesToHex (List.replicate 32 0)) →
        topicUint (advanceLog data) index field 64 = .ok 0 :=
    fun index field htext => topicUint_eq_ok.mpr ⟨_, _, htext, pyHex_bytesToHex _,
      List.length_replicate, by decide, by decide⟩
  exact ⟨_, (decodeStateAdvanced_eq_ok htopic).mpr ⟨data, offset, 0, 0, _, pyHex_bytesToHex _,
    hwords, hoffset, h, hzero 1 _ rfl, hzero 2 _ rfl, pyTopicAddress_eq_ok.mpr ⟨_, _, rfl,
      pyHex_bytesToHex _, List.length_replicate, by decide, rfl⟩, rfl⟩⟩

/-- Eight zero words, an offset, words in between, and an empty payload. -/
def emptyPayload (offset gap : Nat) : Bytes :=
  List.replicate 256 0 ++ (writeBE 32 offset ++ List.replicate (gap * 32 + 32) 0)

theorem decodeStateAdvanced_canonical_empty :
    ∃ ev, decodeStateAdvanced keccakDigest (advanceLog (emptyPayload 288 0)) noProvenance = .ok ev ∧
      emptyPayload 288 0 = encodeStateAdvanced ev := by
  have hadvance : AdvanceData (emptyPayload 288 0) 288 := by
    refine ⟨?_, ?_, ?_, ?_⟩ <;> decide +kernel
  obtain ⟨miner, hdecode⟩ := decode_advanceLog hadvance ⟨by decide, by decide⟩ (by decide +kernel)
  exact ⟨_, hdecode, (decodeStateAdvanced_canonical hdecode (pyHex_bytesToHex _)).1.mpr
    (by decide +kernel)⟩

/-- A word between the head and the payload is accepted. -/
theorem decodeStateAdvanced_gap :
    ¬ ∀ (keccak256 : Bytes → Digest) (log : RpcLog) (provenance : Join.LogProvenance)
      (ev : Join.StateAdvanced) (data : Bytes),
      decodeStateAdvanced keccak256 log provenance = .ok ev → PyHex log.data data →
        data = encodeStateAdvanced ev := by
  intro h
  have hadvance : AdvanceData (emptyPayload 320 1) 320 := by
    refine ⟨?_, ?_, ?_, ?_⟩ <;> decide +kernel
  have hoffset : TailOffset 320 := ⟨by decide, by decide⟩
  obtain ⟨miner, hdecode⟩ := decode_advanceLog hadvance hoffset (by decide +kernel)
  have heq := h _ _ _ _ _ hdecode (pyHex_bytesToHex _)
  -- the encoding of the decoded fields has no gap
  have hlength := congrArg List.length heq
  have hrange := @inRange_pyAdvance noProvenance _ _ 0 0 miner hadvance hoffset
  have hpayload : ((emptyPayload 320 1).drop (320 + 32)).take (tailLength (emptyPayload 320 1) 320) =
      [] := by decide +kernel
  have hempty : (pyAdvance (emptyPayload 320 1) 320 0 0 miner noProvenance).compactPatchBytes =
      [] := hpayload
  rw [encodeStateAdvanced, List.length_append, hrange.length_flatten, hempty] at hlength
  exact absurd hlength (by decide +kernel)

end CoreTex.RigDispatch
