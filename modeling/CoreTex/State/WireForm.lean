import CoreTex.State.PatchApply
import CoreTex.State.PatchCodec

/-!
# CoreTex.State.WireForm

The wire format, written out. `WireForm` is what the parts of a wire patch have to be and
`wireBytes` the bytes they make.

`decodePatch_wireBytes` decodes the bytes of a form, and `encodePatch_wireBytes` says that
an encoder's output is the bytes of a form; so the accepted byte strings are exactly those
of a form, and each decodes to one patch and back.
-/

namespace CoreTex

open CoreTex.Lib

/-! ### The parts of a wire patch -/

/-- One byte for 0–127, the canonical two-byte LEB128 for the rest. -/
def wireIndex (i : Nat) : Bytes :=
  if i < 128 then [UInt8.ofNat i] else [UInt8.ofNat (i % 128 + 128), UInt8.ofNat (i / 128)]

/-- A patch type may target these indices. -/
def TypeCovers (patchType : Int) (indices : List Int) : Prop :=
  patchType = PatchType.mixed ∨ ∃ range ∈ patchTypeRangeTable, range.typeByte = patchType ∧
    ∀ i ∈ indices, (range.start : Int) ≤ i ∧ i ≤ (range.stop : Int)

/-- The parts of a wire patch: the type byte, the score delta, the parent root, and for each
written word its index and its 32 bytes. -/
structure WireForm (patchType : UInt8) (delta : Nat) (root : Bytes)
    (cells : List (Nat × Bytes)) : Prop where
  count : 1 ≤ cells.length ∧ cells.length ≤ 4
  delta_lt : delta < 2 ^ 63
  length_root : root.length = 32
  length_word : ∀ c ∈ cells, c.2.length = 32
  index_lt : ∀ c ∈ cells, c.1 < Ranges.reservedStart
  nodup : (cells.map Prod.fst).Nodup
  covers : TypeCovers (patchType.toNat : Nat) (cells.map fun c => ((c.1 : Nat) : Int))

/-- `type | count | delta | parent root | cells`. -/
def wireBytes (patchType : UInt8) (delta : Nat) (root : Bytes) (cells : List (Nat × Bytes)) :
    Bytes :=
  [patchType, UInt8.ofNat cells.length] ++ writeBE 8 delta ++ root
    ++ (cells.map fun c => wireIndex c.1 ++ c.2).flatten

/-- The patch that the parts spell. -/
def wirePatch (patchType : UInt8) (delta : Nat) (root : Bytes) (cells : List (Nat × Bytes)) :
    Patch where
  patchType := (patchType.toNat : Nat)
  wordCount := (cells.length : Nat)
  scoreDelta := (delta : Nat)
  parentStateRoot := root
  indices := cells.map fun c => ((c.1 : Nat) : Int)
  newWords := cells.map fun c => readBigEndian32 c.2

/-! ### Types and indices -/

theorem checkIndices_eq_ok {seen indices : List Int} :
    checkIndices seen indices = .ok () ↔
      (∀ idx ∈ indices, 0 ≤ idx ∧ idx < (Ranges.reservedStart : Int)) ∧ indices.Nodup ∧
        ∀ idx ∈ indices, idx ∉ seen := by
  refine ⟨checkIndices_inv, ?_⟩
  induction indices generalizing seen with
  | nil => exact fun _ => rfl
  | cons idx rest ih =>
      intro ⟨hbounds, hnodup, hfresh⟩
      rw [List.forall_mem_cons] at hbounds hfresh
      obtain ⟨hidx, hbounds⟩ := hbounds
      obtain ⟨hseen, hfresh⟩ := hfresh
      obtain ⟨hnot, hnodup⟩ := List.nodup_cons.mp hnodup
      have hrange : ¬ (idx < 0 ∨ idx ≥ (Ranges.wordCount : Int)) := by
        simp only [Ranges.reservedStart, Ranges.wordCount] at *
        omega
      have hres : ¬ inRange Ranges.reservedStart Ranges.reservedEnd idx = true := by
        rw [inRange_eq_true]
        omega
      rw [checkIndices, if_neg hrange, if_neg hres, if_neg hseen]
      refine ih ⟨hbounds, hnodup, fun i hi hmem => ?_⟩
      rcases List.mem_cons.mp hmem with heq | hmem
      · exact hnot (heq ▸ hi)
      · exact hfresh i hi hmem

/-- The type byte picks the row of the table, so the range it finds covers the indices
exactly when some row of that type does. -/
theorem patchTypeRange_covers {patchType : Int} {indices : List Int} :
    (∃ range, patchTypeRange patchType = some range ∧
        indices.find? (fun idx => !inRange range.start range.stop idx) = none) ↔
      ∃ range ∈ patchTypeRangeTable, range.typeByte = patchType ∧
        ∀ i ∈ indices, (range.start : Int) ≤ i ∧ i ≤ (range.stop : Int) := by
  have hfind : ∀ range : PatchTypeRange,
      indices.find? (fun idx => !inRange range.start range.stop idx) = none ↔
        ∀ i ∈ indices, (range.start : Int) ≤ i ∧ i ≤ (range.stop : Int) := by
    intro range
    simp [List.find?_eq_none, inRange_eq_true]
  constructor
  · intro ⟨range, hrange, hnone⟩
    have htype := List.find?_some hrange
    exact ⟨range, List.mem_of_find?_eq_some hrange, of_decide_eq_true htype, (hfind range).mp hnone⟩
  · intro ⟨range, hmem, htype, hall⟩
    refine ⟨range, ?_, (hfind range).mpr hall⟩
    subst htype
    -- each type byte stands in one row
    simp only [patchTypeRangeTable, List.mem_cons, List.not_mem_nil, or_false] at hmem
    rcases hmem with rfl | rfl | rfl | rfl | rfl | rfl | rfl <;> rfl

/-- The indices of an accepted patch: in the state, not reserved, distinct, and covered by the
type. -/
theorem validatePatchType_eq_ok {patchType : Int} {indices : List Int} :
    validatePatchType patchType indices = .ok () ↔
      (∀ idx ∈ indices, 0 ≤ idx ∧ idx < (Ranges.reservedStart : Int)) ∧ indices.Nodup ∧
        TypeCovers patchType indices := by
  have hcheck := @checkIndices_eq_ok [] indices
  rw [TypeCovers, ← patchTypeRange_covers]
  rw [validatePatchType, bind_eq_ok]
  constructor
  · rintro ⟨_, hindices, h⟩
    obtain ⟨hbounds, hnodup, -⟩ := hcheck.mp hindices
    refine ⟨hbounds, hnodup, ?_⟩
    by_cases hmixed : patchType = PatchType.mixed
    · exact .inl hmixed
    · rw [if_neg hmixed] at h
      right
      cases hrange : patchTypeRange patchType with
      | none =>
          rw [hrange] at h
          exact absurd h throw_ne_ok
      | some range =>
          rw [hrange] at h
          cases hbad : indices.find? fun idx => !inRange range.start range.stop idx with
          | none => exact ⟨range, rfl, hbad⟩
          | some idx =>
              simp only [hbad] at h
              exact absurd h throw_ne_ok
  · rintro ⟨hbounds, hnodup, hcovers⟩
    refine ⟨(), hcheck.mpr ⟨hbounds, hnodup, fun _ _ => List.not_mem_nil⟩, ?_⟩
    rcases hcovers with hmixed | ⟨range, hrange, hnone⟩
    · rw [if_pos hmixed]
      rfl
    · by_cases hmixed : patchType = PatchType.mixed
      · rw [if_pos hmixed]
        rfl
      · rw [if_neg hmixed, hrange]
        simp only [hnone]
        rfl

/-! ### Reading a form -/

theorem wireIndex_eq_of_lt {i : Nat} (h : i < 128) : wireIndex i = [UInt8.ofNat i] := by
  rw [wireIndex, if_pos h]

theorem wireIndex_eq_of_le {i : Nat} (h : 128 ≤ i) :
    wireIndex i = [UInt8.ofNat (i % 128 + 128), UInt8.ofNat (i / 128)] := by
  rw [wireIndex, if_neg (by omega)]

/-- An index of the state is read back from its bytes, whatever follows. -/
theorem decodeLEB128_wireIndex {i : Nat} (h : i < Ranges.wordCount) (rest : Bytes) :
    decodeLEB128 (wireIndex i ++ rest) = .ok ((i : Nat), rest) := by
  rw [Ranges.wordCount] at h
  by_cases hlow : i < 128
  · have hbyte : (UInt8.ofNat i).toNat = i := by
      rw [UInt8.toNat_ofNat']
      omega
    rw [wireIndex_eq_of_lt hlow, List.singleton_append]
    simp only [decodeLEB128, hbyte]
    rw [if_pos hlow]
    rfl
  · have hfirst : (UInt8.ofNat (i % 128 + 128)).toNat = i % 128 + 128 := by
      rw [UInt8.toNat_ofNat']
      omega
    have hsecond : (UInt8.ofNat (i / 128)).toNat = i / 128 := by
      rw [UInt8.toNat_ofNat']
      omega
    have hvalue : (i % 128 + 128) % 128 + i / 128 * 128 = i := by omega
    rw [wireIndex_eq_of_le (by omega), List.cons_append, List.singleton_append]
    simp only [decodeLEB128, hfirst, hsecond, hvalue]
    rw [if_neg (by omega), if_neg (by omega), if_neg (by omega),
      if_neg (by rw [Ranges.wordCount]; omega)]
    rfl

/-- The encoder writes an index of the state as the form does. -/
theorem encodeLEB128_wireIndex {i : Nat} (h : i < Ranges.wordCount) :
    encodeLEB128 ((i : Nat) : Int) = .ok (wireIndex i) := by
  rw [Ranges.wordCount] at h
  rw [encodeLEB128, if_neg (by omega), Int.toNat_natCast]
  by_cases hlow : i < 128
  · rw [leb128Groups_of_lt _ hlow, wireIndex_eq_of_lt hlow]
    rfl
  · obtain ⟨fuel, hfuel⟩ : ∃ fuel, i = fuel + 1 := Nat.exists_eq_succ_of_ne_zero (by omega)
    have hgroups := leb128Groups_of_le fuel (not_lt.mp hlow) (by omega)
    rw [← hfuel] at hgroups
    rw [hgroups, wireIndex_eq_of_le (not_lt.mp hlow)]
    rfl

/-- The cells of a form are read back one by one. -/
theorem decodeCells_wireCells {cells : List (Nat × Bytes)} (rest : Bytes)
    (hword : ∀ c ∈ cells, c.2.length = 32) (hindex : ∀ c ∈ cells, c.1 < Ranges.wordCount) :
    decodeCells cells.length ((cells.map fun c => wireIndex c.1 ++ c.2).flatten ++ rest) =
      .ok (cells.map fun c => (((c.1 : Nat) : Int), readBigEndian32 c.2), rest) := by
  induction cells with
  | nil => rfl
  | cons c cells ih =>
      rw [List.forall_mem_cons] at hword hindex
      have hrest := ih hword.2 hindex.2
      have htake : ∀ tail : Bytes, (c.2 ++ tail).take 32 = c.2 := fun tail =>
        List.take_left' hword.1
      have hdrop : ∀ tail : Bytes, (c.2 ++ tail).drop 32 = tail := fun tail =>
        List.drop_left' hword.1
      rw [List.length_cons, List.map_cons, List.flatten_cons, List.append_assoc,
        List.append_assoc, decodeCells, decodeLEB128_wireIndex hindex.1, ok_bind]
      dsimp only
      rw [refuseIf_bind_eq_ok, htake, hdrop, hrest, ok_bind]
      refine ⟨?_, rfl⟩
      rw [List.length_append, hword.1]
      omega

section Form

variable {patchType : UInt8} {delta : Nat} {root : Bytes} {cells : List (Nat × Bytes)}

theorem WireForm.index_lt_wordCount (h : WireForm patchType delta root cells) :
    ∀ c ∈ cells, c.1 < Ranges.wordCount := by
  intro c hc
  have := h.index_lt c hc
  rw [Ranges.reservedStart] at this
  rw [Ranges.wordCount]
  omega

/-- The indices of a form pass the type check. -/
theorem WireForm.validatePatchType (h : WireForm patchType delta root cells) :
    validatePatchType (patchType.toNat : Nat) (cells.map fun c => ((c.1 : Nat) : Int)) =
      .ok () := by
  refine validatePatchType_eq_ok.mpr ⟨?_, ?_, h.covers⟩
  · intro idx hidx
    obtain ⟨c, hc, rfl⟩ := List.mem_map.mp hidx
    have := h.index_lt c hc
    omega
  · have hcast : (cells.map fun c => ((c.1 : Nat) : Int)) = (cells.map Prod.fst).map Nat.cast := by
      rw [List.map_map]
      rfl
    rw [hcast]
    exact h.nodup.map Nat.cast_injective

/-- **Reading a form** gives the patch its parts spell. -/
theorem decodePatch_wireBytes (h : WireForm patchType delta root cells) :
    decodePatch (wireBytes patchType delta root cells) =
      .ok (wirePatch patchType delta root cells) := by
  obtain ⟨hlo, hhi⟩ := h.count
  have hdelta := h.delta_lt
  have hroot := h.length_root
  have hcount : (UInt8.ofNat cells.length).toNat = cells.length := by
    rw [UInt8.toNat_ofNat']
    omega
  let body := (cells.map fun c => wireIndex c.1 ++ c.2).flatten
  -- the two halves of the score delta
  have hsplit : writeBE 8 delta = writeBE 4 (delta / 2 ^ 32) ++ writeBE 4 delta :=
    writeBE_add 4 4 delta
  have hbytes : wireBytes patchType delta root cells =
      patchType :: UInt8.ofNat cells.length ::
        (writeBE 4 (delta / 2 ^ 32) ++ (writeBE 4 delta ++ (root ++ body))) := by
    rw [wireBytes, hsplit]
    simp only [body, List.cons_append, List.nil_append, List.append_assoc]
  have hsdHi : readBE (writeBE 4 (delta / 2 ^ 32)) = delta / 2 ^ 32 := by
    rw [readBE_writeBE]
    omega
  have hsdLo : readBE (writeBE 4 delta) = delta % 2 ^ 32 := by
    rw [readBE_writeBE]
    rfl
  have htakeHi : ∀ tail, (writeBE 4 (delta / 2 ^ 32) ++ tail).take 4 =
      writeBE 4 (delta / 2 ^ 32) := fun tail => List.take_left' (length_writeBE 4 _)
  have hdropHi : ∀ tail, (writeBE 4 (delta / 2 ^ 32) ++ tail).drop 4 = tail := fun tail =>
    List.drop_left' (length_writeBE 4 _)
  have htakeLo : ∀ tail, (writeBE 4 delta ++ tail).take 4 = writeBE 4 delta := fun tail =>
    List.take_left' (length_writeBE 4 _)
  have hdropLo : ∀ tail, (writeBE 4 delta ++ tail).drop 4 = tail := fun tail =>
    List.drop_left' (length_writeBE 4 _)
  have htakeRoot : (root ++ body).take 32 = root := List.take_left' hroot
  have hdropRoot : (root ++ body).drop 32 = body := List.drop_left' hroot
  have hjoin : delta / 2 ^ 32 * 2 ^ 32 + delta % 2 ^ 32 = delta := by omega
  have hcells := decodeCells_wireCells [] h.length_word h.index_lt_wordCount
  rw [List.append_nil] at hcells
  have hfst : (cells.map fun c => (((c.1 : Nat) : Int), readBigEndian32 c.2)).map Prod.fst =
      cells.map fun c => ((c.1 : Nat) : Int) := by
    rw [List.map_map]
    rfl
  have hsnd : (cells.map fun c => (((c.1 : Nat) : Int), readBigEndian32 c.2)).map Prod.snd =
      cells.map fun c => readBigEndian32 c.2 := by
    rw [List.map_map]
    rfl
  rw [hbytes]
  unfold decodePatch
  dsimp only
  rw [hcount, refuseIf_bind_eq_ok, refuseIf_bind_eq_ok, refuseIf_bind_eq_ok]
  have hdrop8 : ∀ l : Bytes, l.drop 8 = (l.drop 4).drop 4 := fun l => by rw [List.drop_drop]
  have hdrop40 : ∀ l : Bytes, l.drop 40 = (l.drop 8).drop 32 := fun l => by rw [List.drop_drop]
  rw [hdrop40, hdrop8, htakeHi, hdropHi, htakeLo, hdropLo, htakeRoot, hdropRoot, hsdHi, hsdLo,
    hjoin, hcells, ok_bind]
  dsimp only
  rw [hfst, hsnd, refuseIf_bind_eq_ok, h.validatePatchType]
  refine ⟨?_, by omega, by rw [maxWireScoreDelta]; omega, fun hne => hne rfl, rfl⟩
  simp only [List.length_cons, List.length_append, length_writeBE, hroot]
  omega

end Form

/-! ### Writing a form -/

/-- `0 ≤ w < 2^256` for every new word. -/
def Patch.Uint256Words (p : Patch) : Prop :=
  ∀ w ∈ p.newWords, 0 ≤ w ∧ w < 2 ^ 256

theorem readBigEndian32_writeBigEndian32 {w : Int} (h : 0 ≤ w ∧ w < 2 ^ 256) :
    readBigEndian32 (writeBigEndian32 w) = w := by
  obtain ⟨n, rfl⟩ := Int.eq_ofNat_of_zero_le h.1
  have hn : n < 2 ^ 256 := by omega
  rw [readBigEndian32, writeBigEndian32, readBE_writeBE, asUint256]
  have hmod : (((n : Nat) : Int) % ((2 ^ 256 : Nat) : Int)).toNat = n := by omega
  rw [hmod]
  have : n % 256 ^ 32 = n := Nat.mod_eq_of_lt hn
  rw [this]

/-- The type byte of a table row or `MIXED`. -/
theorem TypeCovers.patchType_lt {patchType : Int} {indices : List Int}
    (h : TypeCovers patchType indices) : 0 ≤ patchType ∧ patchType < 256 := by
  rcases h with rfl | ⟨range, hmem, rfl, -⟩
  · decide
  · simp only [patchTypeRangeTable, List.mem_cons, List.not_mem_nil, or_false] at hmem
    rcases hmem with rfl | rfl | rfl | rfl | rfl | rfl | rfl <;> decide

/-- Indices of the state are encoded as the form writes them. -/
theorem mapM_encodeLEB128 {indices : List Int}
    (h : ∀ idx ∈ indices, 0 ≤ idx ∧ idx < (Ranges.wordCount : Int)) :
    indices.mapM encodeLEB128 = .ok (indices.map fun idx => wireIndex idx.toNat) := by
  induction indices with
  | nil => rfl
  | cons idx indices ih =>
      rw [List.forall_mem_cons] at h
      obtain ⟨n, rfl⟩ := Int.eq_ofNat_of_zero_le h.1.1
      have hn : n < Ranges.wordCount := Int.ofNat_lt.mp h.1.2
      rw [List.mapM_cons, encodeLEB128_wireIndex hn, ok_bind, ih h.2]
      rfl

/-- The positions of cells, from their indices as numbers. -/
theorem map_fst_eq (cells : List (Nat × Bytes)) :
    cells.map Prod.fst = (cells.map fun c => ((c.1 : Nat) : Int)).map Int.toNat := by
  rw [List.map_map]
  rfl

/-- **Writing a form.** What the encoder writes for a patch of `uint256` words is the bytes
of a form that spells this patch. -/
theorem encodePatch_wireForm {p : Patch} {bytes : Bytes} (hwords : p.Uint256Words)
    (h : encodePatch p = .ok bytes) :
    ∃ patchType delta root cells, WireForm patchType delta root cells ∧
      bytes = wireBytes patchType delta root cells ∧
      p = wirePatch patchType delta root cells := by
  unfold encodePatch at h
  dsimp only at h
  rw [refuseIf_bind_eq_ok, refuseIf_bind_eq_ok] at h
  obtain ⟨hcount, hlengths, h⟩ := h
  cases htype : validatePatchType p.patchType p.indices with
  | error reason =>
      rw [htype] at h
      exact absurd h throw_ne_ok
  | ok u =>
      obtain ⟨hbounds, hnodup, hcovers⟩ := validatePatchType_eq_ok.mp htype
      have hstate : ∀ idx ∈ p.indices, 0 ≤ idx ∧ idx < (Ranges.wordCount : Int) := by
        intro idx hidx
        have := hbounds idx hidx
        simp only [Ranges.reservedStart, Ranges.wordCount] at *
        omega
      rw [htype] at h
      dsimp only at h
      rw [mapM_encodeLEB128 hstate, ok_bind, refuseIf_bind_eq_ok, refuseIf_bind_eq_ok,
        pure_eq_ok] at h
      obtain ⟨hdelta, hroot, rfl⟩ := h
      obtain ⟨hlo, hhi⟩ := hcovers.patchType_lt
      have hlenI : (p.indices.length : Int) = p.wordCount := by omega
      have hlenW : p.newWords.length = p.indices.length := by omega
      rw [maxWireScoreDelta] at hdelta
      -- the cells of the form
      let cells : List (Nat × Bytes) :=
        (p.indices.zip p.newWords).map fun c => (c.1.toNat, writeBigEndian32 c.2)
      have hcells : ∀ c ∈ cells, c.1 < Ranges.reservedStart ∧ c.2.length = 32 := by
        intro c hc
        obtain ⟨⟨idx, w⟩, hmem, rfl⟩ := List.mem_map.mp hc
        have := hbounds idx (List.of_mem_zip hmem).1
        refine ⟨?_, length_writeBigEndian32 w⟩
        dsimp only
        omega
      have hfst : (cells.map fun c => ((c.1 : Nat) : Int)) = p.indices := by
        rw [List.map_map]
        have hidx : ∀ c ∈ p.indices.zip p.newWords, (((c.1.toNat : Nat)) : Int) = c.1 := by
          intro c hc
          exact Int.toNat_of_nonneg (hbounds c.1 (List.of_mem_zip hc).1).1
        have := List.map_congr_left hidx
        rw [List.map_fst_zip (by omega)] at this
        exact this
      have hsnd : (cells.map fun c => readBigEndian32 c.2) = p.newWords := by
        rw [List.map_map]
        have hw : ∀ c ∈ p.indices.zip p.newWords, readBigEndian32 (writeBigEndian32 c.2) = c.2 := by
          intro c hc
          exact readBigEndian32_writeBigEndian32 (hwords c.2 (List.of_mem_zip hc).2)
        have := List.map_congr_left hw
        rw [List.map_snd_zip (by omega)] at this
        exact this
      have hlength : cells.length = p.indices.length := by
        rw [List.length_map, List.length_zip]
        omega
      have htypeByte : ((UInt8.ofNat p.patchType.toNat).toNat : Int) = p.patchType := by
        rw [UInt8.toNat_ofNat']
        omega
      refine ⟨UInt8.ofNat p.patchType.toNat, p.scoreDelta.toNat, p.parentStateRoot, cells, ?_, ?_,
        ?_⟩
      · refine ⟨by omega, by omega, by omega, fun c hc => (hcells c hc).2,
          fun c hc => (hcells c hc).1, ?_, ?_⟩
        · rw [map_fst_eq cells, hfst]
          refine List.Nodup.map_on ?_ hnodup
          intro i hi j hj hij
          have := (hbounds i hi).1
          have := (hbounds j hj).1
          omega
        · rw [htypeByte, hfst]
          exact hcovers
      · have hzip : ((p.indices.map fun idx => wireIndex idx.toNat).zip p.newWords).map
            (fun c => encodeCell c.1 c.2) = cells.map fun c => wireIndex c.1 ++ c.2 := by
          rw [List.zip_map_left, List.map_map, List.map_map]
          rfl
        have hmodType : (p.patchType % 256).toNat = p.patchType.toNat := by
          rw [Int.emod_eq_of_lt hlo hhi]
        have hmodCount : (p.wordCount % 256).toNat = cells.length := by omega
        have hsplit : writeBE 8 p.scoreDelta.toNat = writeBE 4 (p.scoreDelta.toNat / 2 ^ 32) ++
            writeBE 4 (p.scoreDelta.toNat % 2 ^ 32) := by
          have hlow := writeBE_mod 4 p.scoreDelta.toNat
          rw [writeBE_add 4 4, ← hlow]
          rfl
        rw [hzip, hmodType, hmodCount, wireBytes, hsplit, List.append_assoc, List.append_assoc]
        simp only [List.append_assoc]
      · obtain ⟨patchType, wordCount, scoreDelta, parentStateRoot, indices, newWords⟩ := p
        rw [wirePatch, hfst, hsnd, htypeByte, hlength]
        dsimp only at *
        rw [Int.toNat_of_nonneg (by omega), hlenI]

/-- An encoded patch of `uint256` words decodes to itself. -/
theorem decodePatch_of_encodePatch {p : Patch} {bytes : Bytes} (hwords : p.Uint256Words)
    (h : encodePatch p = .ok bytes) : decodePatch bytes = .ok p := by
  obtain ⟨patchType, delta, root, cells, hform, rfl, rfl⟩ := encodePatch_wireForm hwords h
  exact decodePatch_wireBytes hform

/-! ### The accepted strings -/

/-- Words that were read are `uint256`. -/
theorem decodeCells_uint256 {n : Nat} {data rest : Bytes} {cells : List (Int × Int)}
    (h : decodeCells n data = .ok (cells, rest)) : ∀ c ∈ cells, 0 ≤ c.2 ∧ c.2 < 2 ^ 256 := by
  induction n generalizing data cells with
  | zero =>
      rw [decodeCells, pure_eq_ok, Prod.mk.injEq] at h
      obtain ⟨rfl, -⟩ := h
      exact fun c hc => absurd hc List.not_mem_nil
  | succ n ih =>
      rw [decodeCells, bind_eq_ok] at h
      obtain ⟨⟨idx, tail⟩, -, h⟩ := h
      dsimp only at h
      rw [refuseIf_bind_eq_ok, bind_eq_ok] at h
      obtain ⟨hlen, ⟨cells', tail'⟩, hcells, h⟩ := h
      rw [pure_eq_ok, Prod.mk.injEq] at h
      obtain ⟨rfl, rfl⟩ := h
      refine List.forall_mem_cons.mpr ⟨?_, ih hcells⟩
      have hword : (tail.take 32).length = 32 := by
        rw [List.length_take]
        omega
      have hlt := readBE_lt (tail.take 32)
      rw [hword] at hlt
      show 0 ≤ readBigEndian32 (tail.take 32) ∧ readBigEndian32 (tail.take 32) < 2 ^ 256
      rw [readBigEndian32]
      exact ⟨Int.natCast_nonneg _, by exact_mod_cast hlt⟩

theorem decodePatch_uint256 {data : Bytes} {p : Patch} (h : decodePatch data = .ok p) :
    p.Uint256Words := by
  unfold decodePatch at h
  match data with
  | [] => exact absurd h throw_ne_ok
  | [_] => exact absurd h throw_ne_ok
  | patchType :: wordCount :: body =>
    dsimp only at h
    rw [refuseIf_bind_eq_ok, refuseIf_bind_eq_ok, refuseIf_bind_eq_ok, bind_eq_ok] at h
    obtain ⟨-, -, -, ⟨cells, rest⟩, hcells, h⟩ := h
    dsimp only at h
    rw [refuseIf_bind_eq_ok] at h
    obtain ⟨-, h⟩ := h
    cases htype : CoreTex.validatePatchType (patchType.toNat : Nat) (cells.map Prod.fst) with
    | error reason =>
        rw [htype] at h
        exact absurd h throw_ne_ok
    | ok u =>
        rw [htype, pure_eq_ok] at h
        subst h
        intro w hw
        obtain ⟨c, hc, rfl⟩ := List.mem_map.mp hw
        exact decodeCells_uint256 hcells c hc

/-- **The wire format.** Decoding then encoding gives the bytes back, encoding then decoding
gives the patch back, and the accepted strings are those of a form. -/
theorem patch_wire_format :
    (∀ data p, decodePatch data = .ok p → encodePatch p = .ok data) ∧
      (∀ p data, p.Uint256Words → encodePatch p = .ok data → decodePatch data = .ok p) ∧
      ∀ data, (∃ p, decodePatch data = .ok p) ↔
        ∃ patchType delta root cells, WireForm patchType delta root cells ∧
          data = wireBytes patchType delta root cells := by
  refine ⟨fun data p => encodePatch_decodePatch, fun p data => decodePatch_of_encodePatch,
    fun data => ⟨?_, ?_⟩⟩
  · intro ⟨p, h⟩
    obtain ⟨patchType, delta, root, cells, hform, hdata, -⟩ :=
      encodePatch_wireForm (decodePatch_uint256 h) (encodePatch_decodePatch h)
    exact ⟨patchType, delta, root, cells, hform, hdata⟩
  · intro ⟨patchType, delta, root, cells, hform, hdata⟩
    rw [hdata]
    exact ⟨_, decodePatch_wireBytes hform⟩

end CoreTex
