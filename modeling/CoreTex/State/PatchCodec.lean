import CoreTex.State.Patch

/-!
# CoreTex.State.PatchCodec

The wire format has one encoding: a byte string that `decodePatch` accepts is what
`encodePatch` writes for the decoded patch (`encodePatch_decodePatch`). So a patch that
was decoded, or that agrees with its wire bytes, determines them and is determined by
them.
-/

namespace CoreTex

open CoreTex.Lib

/-! ### Varints -/

theorem leb128Groups_of_lt (fuel : Nat) {n : Nat} (h : n < 128) :
    leb128Groups fuel n = [UInt8.ofNat n] := by
  cases fuel with
  | zero => rfl
  | succ fuel => rw [leb128Groups, if_pos (by omega), Nat.mod_eq_of_lt h]

theorem leb128Groups_of_le (fuel : Nat) {n : Nat} (h : 128 ≤ n) (hlt : n < 16384) :
    leb128Groups (fuel + 1) n = [UInt8.ofNat (n % 128 + 128), UInt8.ofNat (n / 128)] := by
  rw [leb128Groups, if_neg (by omega), leb128Groups_of_lt _ (by omega)]

/-- A decoded index is in the state, and the bytes read are its encoding. -/
theorem decodeLEB128_inv {data rest : Bytes} {idx : Int}
    (h : decodeLEB128 data = .ok (idx, rest)) :
    ∃ bytes, encodeLEB128 idx = .ok bytes ∧ data = bytes ++ rest := by
  unfold decodeLEB128 at h
  cases data with
  | nil => exact absurd h throw_ne_ok
  | cons first tail =>
      have hfirst : first.toNat < 256 := first.toNat_lt
      dsimp only at h
      by_cases hlow : first.toNat < 128
      · -- one byte: the index itself
        rw [if_pos hlow, pure_eq_ok, Prod.mk.injEq] at h
        obtain ⟨rfl, rfl⟩ := h
        refine ⟨[first], ?_, rfl⟩
        rw [encodeLEB128, if_neg (by omega), Int.toNat_natCast, leb128Groups_of_lt _ hlow,
          UInt8.ofNat_toNat]
        rfl
      · rw [if_neg hlow] at h
        cases tail with
        | nil => exact absurd h throw_ne_ok
        | cons second tail =>
            dsimp only at h
            by_cases hhigh : second.toNat ≥ 128
            · rw [if_pos hhigh] at h
              exact absurd h throw_ne_ok
            rw [if_neg hhigh] at h
            by_cases hcanon : first.toNat % 128 + second.toNat * 128 < 128
            · rw [if_pos hcanon] at h
              exact absurd h throw_ne_ok
            rw [if_neg hcanon] at h
            by_cases hout : first.toNat % 128 + second.toNat * 128 ≥ Ranges.wordCount
            · rw [if_pos hout] at h
              exact absurd h throw_ne_ok
            rw [if_neg hout, pure_eq_ok, Prod.mk.injEq] at h
            obtain ⟨rfl, rfl⟩ := h
            -- two bytes: the low group with its top bit set, then the high group
            obtain ⟨k, hk⟩ : ∃ k, first.toNat % 128 + second.toNat * 128 = k + 1 :=
              Nat.exists_eq_succ_of_ne_zero (by omega)
            have hlo : (first.toNat % 128 + second.toNat * 128) % 128 + 128 = first.toNat := by
              omega
            have hhi : (first.toNat % 128 + second.toNat * 128) / 128 = second.toNat := by omega
            refine ⟨[first, second], ?_, rfl⟩
            have hgroups := leb128Groups_of_le k (not_lt.mp hcanon) (by omega)
            rw [hlo, hhi, UInt8.ofNat_toNat, UInt8.ofNat_toNat] at hgroups
            rw [encodeLEB128, if_neg (by omega), Int.toNat_natCast, hk, ← hk, ← hgroups, hk]
            rfl

/-! ### Cells -/

/-- The bytes `decodeCells` consumed are the encoding of the cells it returned. -/
theorem decodeCells_inv {n : Nat} {data rest : Bytes} {cells : List (Int × Int)}
    (h : decodeCells n data = .ok (cells, rest)) :
    cells.length = n ∧ ∃ encoded, (cells.map Prod.fst).mapM encodeLEB128 = .ok encoded ∧
      data = ((encoded.zip (cells.map Prod.snd)).map fun c => encodeCell c.1 c.2).flatten
        ++ rest := by
  induction n generalizing data cells with
  | zero =>
      rw [decodeCells, pure_eq_ok, Prod.mk.injEq] at h
      obtain ⟨rfl, rfl⟩ := h
      exact ⟨rfl, [], rfl, rfl⟩
  | succ n ih =>
      rw [decodeCells, bind_eq_ok] at h
      obtain ⟨⟨idx, tail⟩, hidx, h⟩ := h
      dsimp only at h
      rw [refuseIf_bind_eq_ok, bind_eq_ok] at h
      obtain ⟨hlen, ⟨cells', tail'⟩, hcells, h⟩ := h
      rw [pure_eq_ok, Prod.mk.injEq] at h
      obtain ⟨rfl, rfl⟩ := h
      obtain ⟨hcount, encoded, henc, hdata⟩ := ih hcells
      obtain ⟨bytes, hbytes, rfl⟩ := decodeLEB128_inv hidx
      refine ⟨by rw [List.length_cons, hcount], bytes :: encoded, ?_, ?_⟩
      · rw [List.map_cons, List.mapM_cons, hbytes, henc]
        rfl
      · have hword : (tail.take 32).length = 32 := by rw [List.length_take]; omega
        rw [List.map_cons, List.zip_cons_cons, List.map_cons, List.flatten_cons, encodeCell,
          writeBigEndian32_readBigEndian32 hword, List.append_assoc, List.append_assoc, ← hdata,
          List.take_append_drop]

/-! ### Patches -/

/-- A byte survives the passage through a `number` code. -/
theorem ofNat_code (b : UInt8) : UInt8.ofNat (((b.toNat : Nat) : Int) % 256).toNat = b := by
  have hb : b.toNat < 256 := b.toNat_lt
  have hmod : (((b.toNat : Nat) : Int) % 256).toNat = b.toNat := by omega
  rw [hmod, UInt8.ofNat_toNat]

/-- The score bytes: the high and the low half, read and written back. -/
theorem writeBE_scoreDelta {hi lo : Bytes} (hhi : hi.length = 4) (hlo : lo.length = 4) :
    writeBE 4 ((readBE hi * 2 ^ 32 + readBE lo) / 2 ^ 32) = hi ∧
      writeBE 4 ((readBE hi * 2 ^ 32 + readBE lo) % 2 ^ 32) = lo := by
  have hlt : readBE lo < 2 ^ 32 := by
    have := readBE_lt lo
    rwa [hlo] at this
  have hdiv : (readBE hi * 2 ^ 32 + readBE lo) / 2 ^ 32 = readBE hi := by omega
  have hmod : (readBE hi * 2 ^ 32 + readBE lo) % 2 ^ 32 = readBE lo := by omega
  rw [hdiv, hmod]
  have hwhi := writeBE_readBE hi
  have hwlo := writeBE_readBE lo
  rw [hhi] at hwhi
  rw [hlo] at hwlo
  exact ⟨hwhi, hwlo⟩

/-- What an accepted wire patch is made of. -/
theorem decodePatch_inv {data : Bytes} {patch : Patch} (h : decodePatch data = .ok patch) :
    patch.WellFormed ∧ encodePatch patch = .ok data := by
  unfold decodePatch at h
  match data with
  | [] => exact absurd h throw_ne_ok
  | [_] => exact absurd h throw_ne_ok
  | patchType :: wordCount :: body =>
    dsimp only at h
    rw [refuseIf_bind_eq_ok, refuseIf_bind_eq_ok, refuseIf_bind_eq_ok, bind_eq_ok] at h
    obtain ⟨hlen, hcount, hscore, ⟨cells, rest⟩, hcells, h⟩ := h
    dsimp only at h
    rw [refuseIf_bind_eq_ok] at h
    obtain ⟨hrest, h⟩ := h
    rw [not_not] at hrest
    subst hrest
    cases htype : validatePatchType (patchType.toNat : Nat) (cells.map Prod.fst) with
    | error reason =>
        rw [htype] at h
        exact absurd h throw_ne_ok
    | ok u =>
        rw [htype] at h
        rw [pure_eq_ok] at h
        subst h
        obtain ⟨hlength, encoded, henc, hbody⟩ := decodeCells_inv hcells
        have hwf : (cells.length : Int) = (wordCount.toNat : Int) := by rw [hlength]
        refine ⟨⟨by simpa using hwf, by simpa using hwf⟩, ?_⟩
        have hbodylen : 40 ≤ body.length := by
          simp only [List.length_cons] at hlen
          omega
        have hhi : (body.take 4).length = 4 := by rw [List.length_take]; omega
        have hlo : ((body.drop 4).take 4).length = 4 := by
          rw [List.length_take, List.length_drop]; omega
        have hroot : ((body.drop 8).take 32).length = 32 := by
          rw [List.length_take, List.length_drop]; omega
        obtain ⟨hwhi, hwlo⟩ := writeBE_scoreDelta hhi hlo
        have hsplit : body = body.take 4 ++ ((body.drop 4).take 4 ++ ((body.drop 8).take 32 ++
            body.drop 40)) := by
          rw [← List.drop_drop (i := 4) (j := 4), ← List.drop_drop (i := 32) (j := 8),
            ← List.drop_drop (i := 4) (j := 4)]
          simp only [List.take_append_drop]
        unfold encodePatch
        dsimp only
        rw [refuseIf_bind_eq_ok, refuseIf_bind_eq_ok, htype]
        refine ⟨by omega, by simp [hwf], ?_⟩
        dsimp only
        rw [henc, ok_bind, refuseIf_bind_eq_ok, refuseIf_bind_eq_ok, pure_eq_ok, Int.toNat_natCast,
          ofNat_code, ofNat_code, hwhi, hwlo]
        refine ⟨by omega, by rw [not_not]; exact hroot, ?_⟩
        rw [List.append_nil] at hbody
        rw [← hbody]
        conv_rhs => rw [hsplit]
        simp only [List.cons_append, List.nil_append, List.append_assoc]

/-- **One encoding.** The bytes `decodePatch` accepts are what `encodePatch` writes. -/
theorem encodePatch_decodePatch {data : Bytes} {patch : Patch}
    (h : decodePatch data = .ok patch) : encodePatch patch = .ok data :=
  (decodePatch_inv h).2

theorem decodePatch_wellFormed {data : Bytes} {patch : Patch}
    (h : decodePatch data = .ok patch) : patch.WellFormed :=
  (decodePatch_inv h).1

/-- A decoded patch is decoded again from its own encoding. -/
theorem decodePatch_encodePatch {data bytes : Bytes} {patch : Patch}
    (h : decodePatch data = .ok patch) (henc : encodePatch patch = .ok bytes) :
    decodePatch bytes = .ok patch := by
  rw [encodePatch_decodePatch h, Except.ok.injEq] at henc
  rw [← henc, h]

end CoreTex
