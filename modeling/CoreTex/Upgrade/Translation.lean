import CoreTex.Replay.RigText
import CoreTex.State.WireForm

/-!
# CoreTex.Upgrade.Translation

State translation patches (`upgrade/index.ts`): the wire payload of a Core upgrade, its reader and
its writer.

A payload is a head of 67 bytes and a list of patches, each behind its length in two bytes.
`parseSegments_eq_ok` says what the segment loop accepts: whole segments, and no more than one
byte after them.
-/

namespace CoreTex.Upgrade

open CoreTex.Lib

/-! ### The wire format -/

/-- `UPGRADE_MAGIC`. -/
def upgradeMagic : UInt8 := 0xF0

structure StatTranslationPatch where
  fromVersion : Int
  toVersion : Int
  fromCoreVersionHash : String
  toCoreVersionHash : String
  patches : List Patch
  deriving DecidableEq

inductive UpgradeParseCode
  | badMagic
  | tooShort
  | patchDecodeError
  deriving DecidableEq

structure UpgradeParseError where
  code : UpgradeParseCode
  message : String
  deriving DecidableEq

/-- The byte at an offset; there is none past the end. -/
def byteAt (data : Bytes) (offset : Nat) : Option UInt8 :=
  data[offset]?

/-- `data.subarray(start, stop)`, for a range that lies in the data. -/
def subarray (data : Bytes) (start stop : Nat) : Option Bytes :=
  if stop ≤ data.length then some ((data.take stop).drop start) else none

/-- The refusal of a segment that the data end in. -/
def truncatedSegment (start patchLen left : Nat) : UpgradeParseError :=
  ⟨.tooShort, s!"Patch segment truncated at offset {start}: need {patchLen} bytes, have {left}"⟩

/-- The refusal of a segment that is no patch. -/
def undecodableSegment (start : Nat) (reason : String) : UpgradeParseError :=
  ⟨.patchDecodeError, s!"Patch decode error at offset {start}: {reason}"⟩

/-- The segment loop from an offset. No result stands for a read past the end. -/
def parseSegments (data : Bytes) (offset : Nat) (patches : List Patch) :
    Option (Except UpgradeParseError (List Patch)) :=
  if _h : offset < data.length then
    if offset + 2 > data.length then some (.ok patches)
    else do
      let high ← byteAt data offset
      let low ← byteAt data (offset + 1)
      let patchLen := high.toNat * 256 + low.toNat
      let start := offset + 2
      if start + patchLen > data.length then
        some (.error (truncatedSegment start patchLen (data.length - start)))
      else do
        let patchBytes ← subarray data start (start + patchLen)
        match decodePatch patchBytes with
        | .ok patch => parseSegments data (start + patchLen) (patches ++ [patch])
        | .error err => some (.error (undecodableSegment start err.message))
  else some (.ok patches)
termination_by data.length - offset

/-- `parseStatTranslationPatch`. No result stands for a read past the end. -/
def parseStatTranslationPatch (data : Bytes) :
    Option (Except UpgradeParseError StatTranslationPatch) :=
  let length := data.length
  if length < 67 then
    some (.error ⟨.tooShort, s!"Too short: {length} bytes (min 67)"⟩)
  else do
    let magic ← byteAt data 0
    if magic ≠ upgradeMagic then
      let got := String.ofList (Nat.toDigits 16 magic.toNat)
      some (.error ⟨.badMagic, s!"Expected upgrade magic 0xf0, got 0x{got}"⟩)
    else do
      let fromVersion ← byteAt data 1
      let toVersion ← byteAt data 2
      let fromHash ← subarray data 3 35
      let toHash ← subarray data 35 67
      let patches ← parseSegments data 67 []
      match patches with
      | .ok patches =>
        some (.ok
          { fromVersion := fromVersion.toNat
            toVersion := toVersion.toNat
            fromCoreVersionHash := bytesToHex fromHash
            toCoreVersionHash := bytesToHex toHash
            patches := patches })
      | .error error => some (.error error)

/-! ### Writing -/

/-- `out.set(source, offset)`. -/
def setBytes (out : Bytes) (offset : Nat) (source : Bytes) : Except JsError Bytes := do
  refuseIf (offset + source.length > out.length) (rangeError "offset is out of bounds")
  .ok (out.take offset ++ source ++ out.drop (offset + source.length))

/-- `out[offset] = n`: the low byte. -/
def setByte (out : Bytes) (offset : Nat) (n : Int) : Bytes :=
  out.set offset (UInt8.ofNat (n % 256).toNat)

/-- One patch behind its length. -/
def writeSegment (state : Bytes × Nat) (patchBytes : Bytes) : Except JsError (Bytes × Nat) := do
  let (out, offset) := state
  let len := patchBytes.length
  let out := setByte out offset (len / 256 % 256 : Nat)
  let out := setByte out (offset + 1) (len % 256 : Nat)
  let out ← setBytes out (offset + 2) patchBytes
  .ok (out, offset + 2 + len)

/-- `encodeStatTranslationPatch`. -/
def encodeStatTranslationPatch (translation : StatTranslationPatch) : Except JsError Bytes := do
  let patchBuffers ← translation.patches.mapM encodePatch
  let patchTotalSize := patchBuffers.foldl (fun sum b => sum + 2 + b.length) 0
  let out := List.replicate (67 + patchTotalSize) 0
  let out := setByte out 0 upgradeMagic.toNat
  let out := setByte out 1 translation.fromVersion
  let out := setByte out 2 translation.toVersion
  let fromHash ← hexToBytes translation.fromCoreVersionHash
  let toHash ← hexToBytes translation.toCoreVersionHash
  let out ← setBytes out 3 fromHash
  let out ← setBytes out 35 toHash
  let (out, _) ← patchBuffers.foldlM writeSegment (out, 67)
  .ok out

/-! ### What the loop reads -/

/-- A patch behind its length in two bytes. -/
def segment (patchBytes : Bytes) : Bytes :=
  UInt8.ofNat (patchBytes.length / 256) :: UInt8.ofNat (patchBytes.length % 256) :: patchBytes

/-- Whole segments, one for each patch. -/
inductive Segments : Bytes → List Patch → Prop
  | nil : Segments [] []
  | cons {patchBytes rest : Bytes} {patch : Patch} {patches : List Patch}
      (hlength : patchBytes.length < 65536) (hdecode : decodePatch patchBytes = .ok patch)
      (h : Segments rest patches) : Segments (segment patchBytes ++ rest) (patch :: patches)

/-- Does one byte stay when the length fields are followed? -/
def leavesOddByte : Bytes → Bool
  | [] => false
  | [_] => true
  | high :: low :: rest => leavesOddByte (rest.drop (high.toNat * 256 + low.toNat))
termination_by rest => rest.length
decreasing_by
  simp only [List.length_drop, List.length_cons]
  omega

theorem length_segment (patchBytes : Bytes) : (segment patchBytes).length = patchBytes.length + 2 :=
  rfl

/-- The two length bytes, read back. -/
theorem segment_length_bytes {n : Nat} (h : n < 65536) :
    (UInt8.ofNat (n / 256)).toNat * 256 + (UInt8.ofNat (n % 256)).toNat = n := by
  rw [UInt8.toNat_ofNat', UInt8.toNat_ofNat']
  omega

/-- Bytes behind the two length bytes that name their length. -/
theorem segment_eq {patchBytes : Bytes} {high low : UInt8}
    (h : patchBytes.length = high.toNat * 256 + low.toNat) :
    segment patchBytes = high :: low :: patchBytes := by
  have hhigh := high.toNat_lt
  have hlow := low.toNat_lt
  have hdiv : patchBytes.length / 256 = high.toNat := by omega
  have hmod : patchBytes.length % 256 = low.toNat := by omega
  rw [segment, hdiv, hmod, UInt8.ofNat_toNat, UInt8.ofNat_toNat]

/-- Whole segments do not decide whether a byte stays. -/
theorem Segments.leavesOddByte_append {segments tail : Bytes} {patches : List Patch}
    (h : Segments segments patches) :
    leavesOddByte (segments ++ tail) = leavesOddByte tail := by
  induction h with
  | nil => rfl
  | @cons patchBytes rest patch patches hlength hdecode h ih =>
      have hcons : segment patchBytes ++ rest ++ tail = UInt8.ofNat (patchBytes.length / 256) ::
          UInt8.ofNat (patchBytes.length % 256) :: (patchBytes ++ (rest ++ tail)) := by
        rw [segment, List.cons_append, List.cons_append, List.cons_append, List.cons_append,
          List.append_assoc]
      rw [hcons, leavesOddByte, segment_length_bytes hlength, List.drop_left, ih]

theorem Segments.append_singleton {segments patchBytes : Bytes} {patch : Patch}
    {patches : List Patch} (h : Segments segments patches) (hlength : patchBytes.length < 65536)
    (hdecode : decodePatch patchBytes = .ok patch) :
    Segments (segments ++ segment patchBytes) (patches ++ [patch]) := by
  induction h with
  | nil =>
      have hone := Segments.cons hlength hdecode .nil
      rwa [List.append_nil] at hone
  | cons hlength' hdecode' _ ih =>
      rw [List.append_assoc]
      exact .cons hlength' hdecode' ih

section

variable {data : Bytes} {offset : Nat}

theorem byteAt_of_drop {rest : Bytes} {b : UInt8} (h : data.drop offset = b :: rest) :
    byteAt data offset = some b := by
  have hget := congrArg (fun l => l[0]?) h
  simpa [byteAt] using hget

theorem subarray_of_drop {rest : Bytes} {len : Nat} (hoffset : offset ≤ data.length)
    (h : data.drop offset = rest) (hlen : len ≤ rest.length) :
    subarray data offset (offset + len) = some (rest.take len) := by
  have hlength := congrArg List.length h
  rw [List.length_drop] at hlength
  rw [subarray, if_pos (by omega), ← h, List.drop_take]
  congr 2
  omega

/-- The end of the data, or the byte that stays. -/
theorem parseSegments_short (patches : List Patch) (h : (data.drop offset).length ≤ 1) :
    parseSegments data offset patches = some (.ok patches) := by
  rw [List.length_drop] at h
  rw [parseSegments]
  split
  · rw [if_pos (by omega)]
  · rfl

/-- One segment. -/
theorem parseSegments_cons {high low : UInt8} {rest : Bytes} (patches : List Patch)
    (h : data.drop offset = high :: low :: rest) : parseSegments data offset patches =
      if rest.length < high.toNat * 256 + low.toNat then
        some (.error (truncatedSegment (offset + 2) (high.toNat * 256 + low.toNat)
          (data.length - (offset + 2))))
      else
        match decodePatch (rest.take (high.toNat * 256 + low.toNat)) with
        | .ok patch => parseSegments data (offset + 2 + (high.toNat * 256 + low.toNat))
            (patches ++ [patch])
        | .error err => some (.error (undecodableSegment (offset + 2) err.message)) := by
  have hlength := congrArg List.length h
  rw [List.length_drop, List.length_cons, List.length_cons] at hlength
  have hnext : data.drop (offset + 1) = low :: rest := by
    rw [← List.drop_drop, h, List.drop_one, List.tail_cons]
  have hrest : data.drop (offset + 2) = rest := by
    rw [← List.drop_drop, h]
    rfl
  conv_lhs => rw [parseSegments]
  rw [dif_pos (by omega), if_neg (by omega), byteAt_of_drop h]
  simp only [Option.bind_eq_bind, Option.bind_some, byteAt_of_drop hnext]
  by_cases hshort : rest.length < high.toNat * 256 + low.toNat
  · rw [if_pos (by omega), if_pos hshort]
  · rw [if_neg (by omega), if_neg hshort, subarray_of_drop (by omega) hrest (by omega)]
    rfl

/-- **What the segment loop accepts**: whole segments, and no more than one byte after them. -/
theorem parseSegments_eq_ok {rest : Bytes} {patches patches' : List Patch}
    (h : data.drop offset = rest) : parseSegments data offset patches = some (.ok patches') ↔
      ∃ segments tail new, rest = segments ++ tail ∧ Segments segments new ∧ tail.length ≤ 1 ∧
        patches' = patches ++ new := by
  induction hn : rest.length using Nat.strong_induction_on generalizing offset rest patches with
  | _ n ih =>
      match rest with
      | [] =>
          rw [parseSegments_short patches (by rw [h]; simp)]
          constructor
          · intro heq
            cases heq
            exact ⟨[], [], [], rfl, .nil, by decide, (List.append_nil _).symm⟩
          · intro hsplit
            obtain ⟨segments, tail, new, hrest, hsegments, _, hpatches⟩ := hsplit
            cases hsegments with
            | nil => rw [hpatches, List.append_nil]
            | cons hlength hdecode hsegments => cases hrest
      | [b] =>
          rw [parseSegments_short patches (by rw [h]; simp)]
          constructor
          · intro heq
            cases heq
            exact ⟨[], [b], [], rfl, .nil, le_rfl, (List.append_nil _).symm⟩
          · intro hsplit
            obtain ⟨segments, tail, new, hrest, hsegments, _, hpatches⟩ := hsplit
            cases hsegments with
            | nil => rw [hpatches, List.append_nil]
            | cons hlength hdecode hsegments =>
                have := congrArg List.length hrest
                simp only [List.length_append, length_segment, List.length_singleton] at this
                omega
      | high :: low :: rest =>
          rw [parseSegments_cons patches h]
          have hafter : ∀ len, data.drop (offset + 2 + len) = rest.drop len := by
            intro len
            rw [← List.drop_drop, ← List.drop_drop, h]
            rfl
          have hnext := hafter (high.toNat * 256 + low.toNat)
          have hless : (rest.drop (high.toNat * 256 + low.toNat)).length < n := by
            rw [← hn, List.length_drop, List.length_cons, List.length_cons]
            omega
          have hbound : high.toNat * 256 + low.toNat < 65536 := by
            have := high.toNat_lt
            have := low.toNat_lt
            omega
          constructor
          · intro heq
            by_cases hshort : rest.length < high.toNat * 256 + low.toNat
            · rw [if_pos hshort] at heq
              cases heq
            rw [if_neg hshort] at heq
            cases hdecode : decodePatch (rest.take (high.toNat * 256 + low.toNat)) with
            | error err =>
                rw [hdecode] at heq
                cases heq
            | ok patch =>
                rw [hdecode] at heq
                obtain ⟨segments, tail, new, hrest, hsegments, htail, hpatches⟩ :=
                  (ih _ hless hnext rfl).mp heq
                have hlength : (rest.take (high.toNat * 256 + low.toNat)).length =
                    high.toNat * 256 + low.toNat := by
                  rw [List.length_take]
                  omega
                refine ⟨segment (rest.take (high.toNat * 256 + low.toNat)) ++ segments, tail,
                  patch :: new, ?_, .cons (by rw [hlength]; exact hbound) hdecode hsegments, htail, ?_⟩
                · rw [segment_eq hlength, List.append_assoc, ← hrest]
                  simp
                · rw [hpatches, List.append_assoc]
                  rfl
          · intro hsplit
            obtain ⟨segments, tail, new, hrest, hsegments, htail, hpatches⟩ := hsplit
            cases hsegments with
            | nil =>
                have := congrArg List.length hrest
                simp only [List.length_append, List.length_cons, List.length_nil] at this
                omega
            | @cons patchBytes rest' patch new' hlength hdecode hsegments =>
                rw [segment, List.cons_append, List.cons_append, List.cons_append,
                  List.cons_append, List.cons.injEq, List.cons.injEq] at hrest
                obtain ⟨rfl, rfl, rfl⟩ := hrest
                rw [segment_length_bytes hlength] at hnext hless ⊢
                rw [List.append_assoc, List.drop_left] at hnext hless
                rw [List.append_assoc, List.take_left, hdecode, if_neg (by simp)]
                refine (ih _ hless hnext rfl).mpr ⟨rest', tail, new', rfl, hsegments, htail, ?_⟩
                rw [hpatches, List.append_assoc]
                rfl

/-- The loop ends without a read past the end. -/
theorem parseSegments_total (patches : List Patch) :
    ∃ r, parseSegments data offset patches = some r := by
  induction hn : (data.drop offset).length using Nat.strong_induction_on
    generalizing offset patches with
  | _ n ih =>
      match hrest : data.drop offset with
      | [] => exact ⟨_, parseSegments_short patches (by rw [hrest]; simp)⟩
      | [b] => exact ⟨_, parseSegments_short patches (by rw [hrest]; simp)⟩
      | high :: low :: rest =>
          rw [parseSegments_cons patches hrest]
          split
          · exact ⟨_, rfl⟩
          split
          · refine ih _ ?_ _ rfl
            have hlength := congrArg List.length hrest
            simp only [List.length_drop, List.length_cons] at hlength hn ⊢
            omega
          · exact ⟨_, rfl⟩

end

/-! ### What the writer writes -/

/-- The bytes of the segments. -/
def segmentBytes (patchBuffers : List Bytes) : Bytes :=
  (patchBuffers.map segment).flatten

theorem length_segmentBytes (patchBuffers : List Bytes) : (segmentBytes patchBuffers).length =
    (patchBuffers.map fun b => 2 + b.length).sum := by
  rw [segmentBytes, List.length_flatten, List.map_map]
  congr 1
  exact List.map_congr_left fun b _ => (length_segment b).trans (Nat.add_comm _ _)

theorem foldl_size (patchBuffers : List Bytes) (size : Nat) :
    patchBuffers.foldl (fun sum b => sum + 2 + b.length) size =
      size + (segmentBytes patchBuffers).length := by
  induction patchBuffers generalizing size with
  | nil => rfl
  | cons b rest ih =>
      rw [List.foldl_cons, ih, length_segmentBytes, length_segmentBytes, List.map_cons,
        List.sum_cons]
      omega

/-- A byte behind what is written. -/
theorem setByte_append (written : Bytes) (b : UInt8) (rest : Bytes) (n : Int) :
    setByte (written ++ b :: rest) written.length n =
      written ++ UInt8.ofNat (n % 256).toNat :: rest := by
  rw [setByte, List.set_append_right _ _ le_rfl, Nat.sub_self, List.set_cons_zero]

/-- Bytes behind what is written, in the room that is left. -/
theorem setBytes_append (written source : Bytes) (room : Nat) :
    setBytes (written ++ List.replicate (source.length + room) 0) written.length source =
      .ok (written ++ source ++ List.replicate room 0) := by
  rw [setBytes, refuseIf_of_not (by simp), ok_bind, List.take_left, List.drop_append,
    List.drop_of_length_le (by omega), List.nil_append, List.drop_replicate]
  congr 3
  omega

theorem ofNat_lowByte (n : Nat) : UInt8.ofNat (((n % 256 : Nat) : Int) % 256).toNat =
    UInt8.ofNat n := by
  have hmod : (((n % 256 : Nat) : Int) % 256).toNat = n % 256 := by omega
  rw [hmod]
  apply UInt8.toNat_inj.mp
  rw [UInt8.toNat_ofNat', UInt8.toNat_ofNat']
  omega

theorem writeSegment_append (written patchBytes : Bytes) (room : Nat) :
    writeSegment (written ++ List.replicate ((segment patchBytes).length + room) 0, written.length)
      patchBytes = .ok (written ++ segment patchBytes ++ List.replicate room 0,
        (written ++ segment patchBytes).length) := by
  have hroom : List.replicate ((segment patchBytes).length + room) (0 : UInt8) =
      0 :: 0 :: List.replicate (patchBytes.length + room) 0 := by
    rw [length_segment,
      show patchBytes.length + 2 + room = patchBytes.length + room + 1 + 1 by omega]
    rfl
  have hhigh : UInt8.ofNat (((patchBytes.length / 256 % 256 : Nat) : Int) % 256).toNat =
      UInt8.ofNat (patchBytes.length / 256) := ofNat_lowByte _
  have hlow : UInt8.ofNat (((patchBytes.length % 256 : Nat) : Int) % 256).toNat =
      UInt8.ofNat (patchBytes.length % 256) := by
    rw [ofNat_lowByte]
    apply UInt8.toNat_inj.mp
    rw [UInt8.toNat_ofNat', UInt8.toNat_ofNat']
    omega
  have hsecond := setByte_append (written ++ [UInt8.ofNat (patchBytes.length / 256)]) 0
    (List.replicate (patchBytes.length + room) 0) ((patchBytes.length % 256 : Nat) : Int)
  have hthird := setBytes_append (written ++ [UInt8.ofNat (patchBytes.length / 256),
    UInt8.ofNat (patchBytes.length % 256)]) patchBytes room
  simp only [List.length_append, List.append_assoc, List.length_cons, List.length_nil,
    List.cons_append, List.nil_append] at hsecond hthird
  rw [writeSegment, hroom, setByte_append, hhigh, hsecond, hlow, hthird, ok_bind]
  simp [segment]
  omega

/-- The writing loop, from any state: the segments, in order. -/
theorem foldlM_writeSegment (patchBuffers : List Bytes) (written : Bytes) (room : Nat) :
    patchBuffers.foldlM writeSegment
      (written ++ List.replicate ((segmentBytes patchBuffers).length + room) 0, written.length) =
        .ok (written ++ segmentBytes patchBuffers ++ List.replicate room 0,
          (written ++ segmentBytes patchBuffers).length) := by
  induction patchBuffers generalizing written with
  | nil => simp [segmentBytes, pure, Except.pure]
  | cons b rest ih =>
      have hcons : segmentBytes (b :: rest) = segment b ++ segmentBytes rest := rfl
      rw [List.foldlM_cons, hcons, List.length_append, Nat.add_assoc, writeSegment_append, ok_bind,
        ih, List.append_assoc written]

/-- The head of a payload. -/
def head (fromVersion toVersion : Int) (fromHash toHash : Bytes) : Bytes :=
  upgradeMagic :: UInt8.ofNat (fromVersion % 256).toNat :: UInt8.ofNat (toVersion % 256).toNat ::
    (fromHash ++ toHash)

/-- The writer, for hashes of 32 bytes. -/
theorem encodeStatTranslationPatch_eq {t : StatTranslationPatch} {patchBuffers : List Bytes}
    {fromHash toHash : Bytes} (hpatches : t.patches.mapM encodePatch = .ok patchBuffers)
    (hfrom : hexToBytes t.fromCoreVersionHash = .ok fromHash)
    (hto : hexToBytes t.toCoreVersionHash = .ok toHash) (hfrom32 : fromHash.length = 32)
    (hto32 : toHash.length = 32) : encodeStatTranslationPatch t =
      .ok (head t.fromVersion t.toVersion fromHash toHash ++ segmentBytes patchBuffers) := by
  have hroom : List.replicate (67 + (segmentBytes patchBuffers).length) (0 : UInt8) =
      0 :: 0 :: 0 :: List.replicate (32 + (32 + (segmentBytes patchBuffers).length)) 0 := by
    rw [show 67 + (segmentBytes patchBuffers).length =
      32 + (32 + (segmentBytes patchBuffers).length) + 1 + 1 + 1 by omega]
    rfl
  let front : Bytes := [upgradeMagic, UInt8.ofNat (t.fromVersion % 256).toNat,
    UInt8.ofNat (t.toVersion % 256).toNat]
  have hlength : (front ++ fromHash).length = 35 := by
    rw [List.length_append, hfrom32]
    rfl
  have hlength' : (front ++ fromHash ++ toHash).length = 67 := by
    rw [List.length_append, hlength, hto32]
  have hfirst := setBytes_append front fromHash (32 + (segmentBytes patchBuffers).length)
  have hsecond := setBytes_append (front ++ fromHash) toHash (segmentBytes patchBuffers).length
  have hloop := foldlM_writeSegment patchBuffers (front ++ fromHash ++ toHash) 0
  rw [hfrom32, show front.length = 3 from rfl] at hfirst
  rw [hlength, hto32] at hsecond
  rw [hlength', Nat.add_zero, List.replicate_zero, List.append_nil] at hloop
  have hfront : setByte (setByte (setByte (0 :: 0 :: 0 :: List.replicate
      (32 + (32 + (segmentBytes patchBuffers).length)) 0) 0 upgradeMagic.toNat) 1 t.fromVersion)
        2 t.toVersion =
      front ++ List.replicate (32 + (32 + (segmentBytes patchBuffers).length)) 0 := rfl
  rw [encodeStatTranslationPatch, hpatches, ok_bind, foldl_size, Nat.zero_add]
  dsimp only
  rw [hroom, hfront, hfrom, ok_bind, hto, ok_bind, hfirst, ok_bind, hsecond, ok_bind, hloop,
    ok_bind]
  simp [head, front]

/-! ### Segments are encoded patches -/

/-- An encoded patch is short. -/
theorem length_encodePatch {p : Patch} {bytes : Bytes} (hwords : p.Uint256Words)
    (h : encodePatch p = .ok bytes) : bytes.length < 65536 := by
  obtain ⟨patchType, delta, root, cells, hform, rfl, -⟩ := encodePatch_wireForm hwords h
  have hcell : ∀ c ∈ cells, (wireIndex c.1 ++ c.2).length ≤ 34 := by
    intro c hc
    have hindex : (wireIndex c.1).length ≤ 2 := by
      rw [wireIndex]
      split <;> simp
    rw [List.length_append, hform.length_word c hc]
    omega
  have hcells : ((cells.map fun c => wireIndex c.1 ++ c.2).flatten).length ≤
      cells.length * 34 := by
    have hsum := List.sum_le_card_nsmul (cells.map fun c => (wireIndex c.1 ++ c.2).length) 34
      fun n hn => by
        obtain ⟨c, hc, rfl⟩ := List.mem_map.mp hn
        exact hcell c hc
    rw [List.length_map, smul_eq_mul] at hsum
    rwa [List.length_flatten, List.map_map]
  have hcount := hform.count
  have hroot := hform.length_root
  rw [wireBytes, List.length_append, List.length_append, List.length_append, length_writeBE]
  simp only [List.length_cons, List.length_nil]
  omega

/-- Encoding patches of `uint256` words gives their segments. -/
theorem segments_of_mapM {patches : List Patch} {patchBuffers : List Bytes}
    (hwords : ∀ p ∈ patches, p.Uint256Words) (h : patches.mapM encodePatch = .ok patchBuffers) :
    Segments (segmentBytes patchBuffers) patches := by
  have hall := mapM_eq_ok.mp h
  clear h
  induction hall with
  | nil => exact .nil
  | cons hb _ ih =>
      obtain ⟨hp, hpatches⟩ := List.forall_mem_cons.mp hwords
      exact .cons (length_encodePatch hp hb) (decodePatch_of_encodePatch hp hb) (ih hpatches)

/-- Segments are what encoding their patches gives. -/
theorem Segments.mapM {segments : Bytes} {patches : List Patch} (h : Segments segments patches) :
    ∃ patchBuffers, patches.mapM encodePatch = .ok patchBuffers ∧
      segments = segmentBytes patchBuffers := by
  induction h with
  | nil => exact ⟨[], rfl, rfl⟩
  | @cons patchBytes rest patch patches hlength hdecode h ih =>
      obtain ⟨patchBuffers, hpatches, rfl⟩ := ih
      refine ⟨patchBytes :: patchBuffers, mapM_eq_ok.mpr ?_, rfl⟩
      exact .cons (encodePatch_decodePatch hdecode) (mapM_eq_ok.mp hpatches)

/-! ### The codec -/

/-- A translation whose parts are in the ranges of the wire format: version bytes, hashes of 32
bytes, and patches that the patch encoder accepts. -/
structure StatTranslationPatch.Encodable (t : StatTranslationPatch) : Prop where
  fromVersion : 0 ≤ t.fromVersion ∧ t.fromVersion < 256
  toVersion : 0 ≤ t.toVersion ∧ t.toVersion < 256
  fromHash : ∃ digits, t.fromCoreVersionHash.toList = '0' :: 'x' :: digits ∧
    (∀ c ∈ digits, IsHex c) ∧ digits.length = 64
  toHash : ∃ digits, t.toCoreVersionHash.toList = '0' :: 'x' :: digits ∧
    (∀ c ∈ digits, IsHex c) ∧ digits.length = 64
  patches : ∀ p ∈ t.patches, p.Uint256Words ∧ ∃ bytes, encodePatch p = .ok bytes

/-- The same translation with its hashes in lower case. -/
def StatTranslationPatch.lower (t : StatTranslationPatch) : StatTranslationPatch :=
  { t with
    fromCoreVersionHash := t.fromCoreVersionHash.toLower
    toCoreVersionHash := t.toCoreVersionHash.toLower }

/-- A hash text spells 32 bytes, whose text is its lower case. -/
theorem hash_bytes {hash : String} (h : ∃ digits, hash.toList = '0' :: 'x' :: digits ∧
    (∀ c ∈ digits, IsHex c) ∧ digits.length = 64) :
    ∃ bytes, hexToBytes hash = .ok bytes ∧ bytes.length = 32 ∧ bytesToHex bytes = hash.toLower := by
  obtain ⟨digits, htext, hhex, hlength⟩ := h
  have heven : digits.length % 2 = 0 := by omega
  have hpairs := RigDispatch.hexPairs_eq_hexSpelled hhex heven
  have hbytes := RigDispatch.length_hexPairs heven
  refine ⟨hexPairs digits, ?_, by omega, ?_⟩
  · rw [hexToBytes, htext]
    exact if_neg (not_not_intro heven)
  · apply String.toList_inj.mp
    rw [toList_bytesToHex, toList_toLower, htext, hpairs,
      ← RigDispatch.map_toLower_digits hhex heven]
    rfl

theorem drop_head (fromVersion toVersion : Int) {fromHash toHash : Bytes}
    (hfrom : fromHash.length = 32) (hto : toHash.length = 32) (rest : Bytes) :
    (head fromVersion toVersion fromHash toHash ++ rest).drop 67 = rest := by
  refine List.drop_left' ?_
  rw [head, List.length_cons, List.length_cons, List.length_cons, List.length_append, hfrom, hto]

/-- The reader on a head and a rest. -/
theorem parseStatTranslationPatch_head (v w : UInt8) {fromHash toHash : Bytes}
    (hfrom : fromHash.length = 32) (hto : toHash.length = 32) (rest : Bytes) :
    parseStatTranslationPatch (head v.toNat w.toNat fromHash toHash ++ rest) =
      (parseSegments (head v.toNat w.toNat fromHash toHash ++ rest) 67 []).bind fun patches =>
        match patches with
        | .ok patches => some (.ok ⟨v.toNat, w.toNat, bytesToHex fromHash, bytesToHex toHash,
            patches⟩)
        | .error error => some (.error error) := by
  have hhead : head v.toNat w.toNat fromHash toHash ++ rest =
      upgradeMagic :: v :: w :: (fromHash ++ (toHash ++ rest)) := by
    rw [head, ofNat_code, ofNat_code]
    simp
  rw [hhead]
  have hlength : (upgradeMagic :: v :: w :: (fromHash ++ (toHash ++ rest))).length =
      67 + rest.length := by
    simp only [List.length_cons, List.length_append, hfrom, hto]
    omega
  generalize hdata : upgradeMagic :: v :: w :: (fromHash ++ (toHash ++ rest)) = data at hlength ⊢
  have hdrop3 : data.drop 3 = fromHash ++ (toHash ++ rest) := by rw [← hdata]; rfl
  have hdrop35 : data.drop 35 = toHash ++ rest := by
    rw [show 35 = 3 + 32 from rfl, ← List.drop_drop, hdrop3, List.drop_left' hfrom]
  have hbyte0 : byteAt data 0 = some upgradeMagic := by rw [← hdata]; rfl
  have hbyte1 : byteAt data 1 = some v := by rw [← hdata]; rfl
  have hbyte2 : byteAt data 2 = some w := by rw [← hdata]; rfl
  have hsub3 : subarray data 3 35 = some fromHash := by
    have hsub := @subarray_of_drop data 3 _ 32 (by omega) hdrop3 (by
      rw [List.length_append, hfrom]
      omega)
    rwa [List.take_left' hfrom] at hsub
  have hsub35 : subarray data 35 67 = some toHash := by
    have hsub := @subarray_of_drop data 35 _ 32 (by omega) hdrop35 (by
      rw [List.length_append, hto]
      omega)
    rwa [List.take_left' hto] at hsub
  rw [parseStatTranslationPatch]
  dsimp only
  rw [if_neg (by omega), hbyte0, hbyte1, hbyte2, hsub3, hsub35]
  rfl

/-- A payload that is long enough and starts with the magic byte has a head. -/
theorem exists_head (v w : UInt8) {body : Bytes} (h : 64 ≤ body.length) :
    ∃ fromHash toHash rest, fromHash.length = 32 ∧ toHash.length = 32 ∧
      upgradeMagic :: v :: w :: body = head v.toNat w.toNat fromHash toHash ++ rest := by
  refine ⟨body.take 32, (body.drop 32).take 32, (body.drop 32).drop 32, ?_, ?_, ?_⟩
  · rw [List.length_take]
    omega
  · rw [List.length_take, List.length_drop]
    omega
  · rw [head, ofNat_code, ofNat_code, List.cons_append, List.cons_append, List.cons_append,
      List.append_assoc, List.take_append_drop, List.take_append_drop]

theorem parseStatTranslationPatch_badMagic {magic : UInt8} {body : Bytes}
    (hlong : ¬ (magic :: body).length < 67) (hmagic : magic ≠ upgradeMagic) :
    parseStatTranslationPatch (magic :: body) = some (.error ⟨.badMagic,
      s!"Expected upgrade magic 0xf0, got 0x{String.ofList (Nat.toDigits 16 magic.toNat)}"⟩) := by
  rw [parseStatTranslationPatch]
  dsimp only
  rw [if_neg hlong, show byteAt (magic :: body) 0 = some magic from rfl]
  simp only [Option.bind_eq_bind, Option.bind_some]
  rw [if_pos hmagic]

/-- What the reader accepts: a head and whole segments, and no more than one byte after them. -/
theorem parseStatTranslationPatch_eq_ok {data : Bytes} {t : StatTranslationPatch} :
    parseStatTranslationPatch data = some (.ok t) ↔
      ∃ (v w : UInt8) (fromHash toHash segments tail : Bytes), fromHash.length = 32 ∧
        toHash.length = 32 ∧
        data = head v.toNat w.toNat fromHash toHash ++ (segments ++ tail) ∧
        Segments segments t.patches ∧ tail.length ≤ 1 ∧
        t = ⟨v.toNat, w.toNat, bytesToHex fromHash, bytesToHex toHash, t.patches⟩ := by
  constructor
  · intro h
    have hlong : ¬ data.length < 67 := by
      intro hshort
      rw [parseStatTranslationPatch] at h
      dsimp only at h
      rw [if_pos hshort] at h
      cases h
    match hdata : data with
    | [] => simp at hlong
    | [_] => simp at hlong
    | [_, _] => simp at hlong
    | magic :: v :: w :: body =>
        simp only [List.length_cons] at hlong
        by_cases hmagic : magic = upgradeMagic
        · subst hmagic
          have h64 : 64 ≤ body.length := by omega
          obtain ⟨fromHash, toHash, rest, hfrom, hto, hbody⟩ := exists_head v w h64
          rw [hbody, parseStatTranslationPatch_head v w hfrom hto] at h
          obtain ⟨r, hr⟩ := @parseSegments_total
            (head v.toNat w.toNat fromHash toHash ++ rest) 67 []
          rw [hr] at h
          cases r with
          | error error => cases h
          | ok patches =>
              cases h
              obtain ⟨segments, tail, new, hrest, hsegments, htail, hpatches⟩ :=
                (parseSegments_eq_ok (drop_head v.toNat w.toNat hfrom hto _)).mp hr
              rw [List.nil_append] at hpatches
              subst hpatches
              exact ⟨v, w, _, _, segments, tail, hfrom, hto, hbody.trans (by rw [hrest]),
                hsegments, htail, rfl⟩
        · rw [parseStatTranslationPatch_badMagic (by simpa using hlong) hmagic] at h
          cases h
  · intro h
    obtain ⟨v, w, fromHash, toHash, segments, tail, hfrom, hto, hdata, hsegments, htail, ht⟩ := h
    have hread := (@parseSegments_eq_ok data 67 (segments ++ tail) [] t.patches
      (by rw [hdata, drop_head _ _ hfrom hto])).mpr
      ⟨segments, tail, t.patches, rfl, hsegments, htail, rfl⟩
    rw [hdata, parseStatTranslationPatch_head v w hfrom hto, ← hdata, hread]
    dsimp only [Option.bind_some]
    rw [← ht]

/-- The reader ends on every input without a read past the end. -/
theorem parseStatTranslationPatch_total (data : Bytes) :
    ∃ r, parseStatTranslationPatch data = some r := by
  by_cases hshort : data.length < 67
  · rw [parseStatTranslationPatch]
    dsimp only
    rw [if_pos hshort]
    exact ⟨_, rfl⟩
  match data with
  | [] => simp at hshort
  | [_] => simp at hshort
  | [_, _] => simp at hshort
  | magic :: v :: w :: body =>
      by_cases hmagic : magic = upgradeMagic
      · subst hmagic
        simp only [List.length_cons] at hshort
        have h64 : 64 ≤ body.length := by omega
        obtain ⟨fromHash, toHash, rest, hfrom, hto, hbody⟩ := exists_head v w h64
        rw [hbody, parseStatTranslationPatch_head v w hfrom hto]
        obtain ⟨r, hr⟩ := @parseSegments_total
          (head v.toNat w.toNat fromHash toHash ++ rest) 67 []
        rw [hr]
        cases r <;> exact ⟨_, rfl⟩
      · exact ⟨_, parseStatTranslationPatch_badMagic hshort hmagic⟩

/-- **Encoding then parsing** gives the translation, with its hashes in lower case. -/
theorem parse_encodeStatTranslationPatch {t : StatTranslationPatch} (h : t.Encodable) :
    ∃ data, encodeStatTranslationPatch t = .ok data ∧
      parseStatTranslationPatch data = some (.ok t.lower) := by
  obtain ⟨fromHash, hfrom, hfrom32, hfromText⟩ := hash_bytes h.fromHash
  obtain ⟨toHash, hto, hto32, htoText⟩ := hash_bytes h.toHash
  obtain ⟨patchBuffers, hpatches⟩ := exists_mapM_eq_ok fun p hp => (h.patches p hp).2
  have hversions : ∀ n : Int, 0 ≤ n ∧ n < 256 →
      (((UInt8.ofNat n.toNat).toNat : Nat) : Int) = n := by
    intro n hn
    rw [UInt8.toNat_ofNat', Nat.mod_eq_of_lt (by omega), Int.toNat_of_nonneg hn.1]
  refine ⟨_, encodeStatTranslationPatch_eq hpatches hfrom hto hfrom32 hto32, ?_⟩
  refine parseStatTranslationPatch_eq_ok.mpr ⟨UInt8.ofNat t.fromVersion.toNat,
    UInt8.ofNat t.toVersion.toNat, fromHash, toHash, segmentBytes patchBuffers, [], hfrom32, hto32,
    ?_, segments_of_mapM (fun p hp => (h.patches p hp).1) hpatches, by decide, ?_⟩
  · rw [hversions _ h.fromVersion, hversions _ h.toVersion, List.append_nil]
  · rw [hversions _ h.fromVersion, hversions _ h.toVersion, hfromText, htoText]
    rfl

/-- What the writer makes of an accepted payload: its head and its segments. -/
theorem encode_parseStatTranslationPatch {data : Bytes} {t : StatTranslationPatch}
    (h : parseStatTranslationPatch data = some (.ok t)) :
    ∃ tail, tail.length ≤ 1 ∧ leavesOddByte (data.drop 67) = leavesOddByte tail ∧
      ∃ bytes, encodeStatTranslationPatch t = .ok bytes ∧ data = bytes ++ tail := by
  obtain ⟨v, w, fromHash, toHash, segments, tail, hfrom, hto, hdata, hsegments, htail, ht⟩ :=
    parseStatTranslationPatch_eq_ok.mp h
  obtain ⟨patchBuffers, hpatches, rfl⟩ := hsegments.mapM
  have hencode := @encodeStatTranslationPatch_eq t patchBuffers fromHash toHash hpatches
    (by rw [ht]; exact hexToBytes_bytesToHex fromHash)
    (by rw [ht]; exact hexToBytes_bytesToHex toHash) hfrom hto
  have hfromVersion : t.fromVersion = v.toNat := by rw [ht]
  have htoVersion : t.toVersion = w.toNat := by rw [ht]
  rw [hfromVersion, htoVersion] at hencode
  refine ⟨tail, htail, ?_, _, hencode, by rw [hdata, List.append_assoc]⟩
  rw [hdata, drop_head _ _ hfrom hto, hsegments.leavesOddByte_append]

/-- **The upgrade codec.** Every translation in range is read back from its encoding; an accepted
payload is the encoding of what it is read as exactly when its length fields leave no byte over,
and such payloads are told apart by what they are read as; and the reader ends on every input
without a read past its end. -/
theorem statTranslationPatch_codec (t : StatTranslationPatch) (data data' : Bytes) :
    (t.Encodable → ∃ bytes, encodeStatTranslationPatch t = .ok bytes ∧
      parseStatTranslationPatch bytes = some (.ok t.lower)) ∧
    (parseStatTranslationPatch data = some (.ok t) →
      (encodeStatTranslationPatch t = .ok data ↔ leavesOddByte (data.drop 67) = false)) ∧
    (parseStatTranslationPatch data = some (.ok t) →
      parseStatTranslationPatch data' = some (.ok t) → leavesOddByte (data.drop 67) = false →
      leavesOddByte (data'.drop 67) = false → data = data') ∧
    ∃ r, parseStatTranslationPatch data = some r := by
  have hiff : ∀ data, parseStatTranslationPatch data = some (.ok t) →
      (encodeStatTranslationPatch t = .ok data ↔ leavesOddByte (data.drop 67) = false) := by
    intro data h
    obtain ⟨tail, htail, hodd, bytes, hbytes, hdata⟩ := encode_parseStatTranslationPatch h
    rw [hodd, hbytes]
    match tail with
    | [] =>
        rw [List.append_nil] at hdata
        rw [hdata]
        exact iff_of_true rfl (by simp [leavesOddByte])
    | [b] =>
        refine iff_of_false ?_ (by simp [leavesOddByte])
        intro heq
        have hlength := congrArg List.length (hdata.trans (congrArg (· ++ [b]) (Except.ok.inj heq)))
        simp at hlength
    | _ :: _ :: _ => simp at htail
  refine ⟨parse_encodeStatTranslationPatch, hiff data, ?_, parseStatTranslationPatch_total data⟩
  intro h h' hodd hodd'
  have hdata := (hiff data h).mpr hodd
  have hdata' := (hiff data' h').mpr hodd'
  exact Except.ok.inj (hdata.symm.trans hdata')

/-- A payload without patches. -/
def emptyTranslation : Bytes :=
  head 0 1 (List.replicate 32 0x11) (List.replicate 32 0x22)

/-- One more byte is accepted, and the payload written back is one byte shorter. -/
theorem statTranslationPatch_oddByte :
    parseStatTranslationPatch (emptyTranslation ++ [0]) =
        parseStatTranslationPatch emptyTranslation ∧
      ∃ t, parseStatTranslationPatch (emptyTranslation ++ [0]) = some (.ok t) ∧
        encodeStatTranslationPatch t = .ok emptyTranslation ∧
        encodeStatTranslationPatch t ≠ .ok (emptyTranslation ++ [0]) := by
  let t : StatTranslationPatch := ⟨0, 1, bytesToHex (List.replicate 32 0x11),
    bytesToHex (List.replicate 32 0x22), []⟩
  have hread : ∀ tail : Bytes, tail.length ≤ 1 →
      parseStatTranslationPatch (emptyTranslation ++ tail) = some (.ok t) := by
    intro tail htail
    exact parseStatTranslationPatch_eq_ok.mpr ⟨0, 1, List.replicate 32 0x11,
      List.replicate 32 0x22, [], tail, rfl, rfl, rfl, .nil, htail, rfl⟩
  have hexact : parseStatTranslationPatch emptyTranslation = some (.ok t) := by
    have h := hread [] (by decide)
    rwa [List.append_nil] at h
  have hwrite : encodeStatTranslationPatch t = .ok emptyTranslation := by
    have h := @encodeStatTranslationPatch_eq t [] (List.replicate 32 0x11)
      (List.replicate 32 0x22) rfl (hexToBytes_bytesToHex _) (hexToBytes_bytesToHex _) rfl rfl
    rw [h]
    rfl
  refine ⟨(hread [0] le_rfl).trans hexact.symm, t, hread [0] le_rfl, hwrite, ?_⟩
  rw [hwrite]
  decide +kernel

end CoreTex.Upgrade
