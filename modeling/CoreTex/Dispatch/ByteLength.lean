import CoreTex.Dispatch.TransitionArtifact
import CoreTex.Frontier.Codec
import CoreTex.Lib.JsonLength

/-!
# CoreTex.Dispatch.ByteLength

An artifact's own byte length (`dispatch.py`): the producer's search for the number that is the
length of the canonical bytes it stands in.

The bytes of the document with `byte_length` set to `n` are `C` bytes and the digits of `n`
(`canonicalLength_withByteLength`), so the search is for the numbers that state themselves beside
`C` bytes, by their digit counts (`tryDigits_run`).
-/

namespace CoreTex

open CoreTex.Lib

/-! ### The search -/

/-- What the search raises: a refusal of the canonical grammar or of the artifact law. -/
inductive ByteLengthError
  | frontier (error : FrontierError)
  | artifact (error : TransitionArtifactError)
  deriving DecidableEq

/-- `len(fr.canonical_bytes(document))`. -/
def canonicalLength (document : List (PyStr × Json)) : Except ByteLengthError Nat :=
  match canonicalBytes (.obj document) with
  | .ok bytes => .ok bytes.length
  | .error error => .error (.frontier error)

/-- `document["byte_length"] = n`. -/
def withByteLength (document : List (PyStr × Json)) (n : Nat) : List (PyStr × Json) :=
  assign document (py "byte_length") (.int n)

/-- One digit count of the loop, over the document and the solutions so far. -/
def tryDigits (seed : Nat) (state : List (PyStr × Json) × List Nat) (digits : Nat) :
    Except ByteLengthError (List (PyStr × Json) × List Nat) :=
  let candidate := seed + digits
  if (toString candidate).length ≠ digits then .ok state
  else do
    let document := withByteLength state.1 candidate
    let length ← canonicalLength document
    .ok (document, if length = candidate then state.2 ++ [candidate] else state.2)

/-- The refusal of zero or two fixed points. -/
def byteLengthRefused : ByteLengthError :=
  .artifact ⟨.malformed, "byte_length"⟩

/-- `finalize_transition_artifact_byte_length`. -/
def finalizeTransitionArtifactByteLength (artifact : List (PyStr × Json)) :
    Except ByteLengthError (List (PyStr × Json)) := do
  let document := withByteLength artifact 1
  let length ← canonicalLength document
  -- the constant `C`
  let seed := length - 1
  let (document, solutions) ← (List.range' 1 20).foldlM (tryDigits seed) (document, [])
  match solutions with
  | [solution] => .ok (withByteLength document solution)
  | _ => .error byteLengthRefused

/-! ### The length of a document around its `byte_length` -/

/-- The document with `byte_length` set to `n` has `n` canonical bytes. -/
def MeasuresItself (artifact : List (PyStr × Json)) (n : Nat) : Prop :=
  ∃ bytes, canonicalBytes (.obj (withByteLength artifact n)) = .ok bytes ∧ bytes.length = n

variable {artifact : List (PyStr × Json)}

@[simp] theorem withByteLength_withByteLength (m n : Nat) :
    withByteLength (withByteLength artifact m) n = withByteLength artifact n :=
  assign_assign artifact _ _ _

/-- Whether a document has canonical bytes does not depend on its `byte_length`. -/
theorem checkValue_withByteLength (hkeys : (artifact.map Prod.fst).Nodup) (m n : Nat)
    (h : checkValue (.obj (withByteLength artifact m)) 0 = .ok ()) :
    checkValue (.obj (withByteLength artifact n)) 0 = .ok () := by
  rw [checkValue_obj (by decide)] at h ⊢
  intro e he
  rcases List.mem_cons.mp ((assign_perm hkeys _ _).mem_iff.mp he) with rfl | hother
  · exact checkValue_int (by decide)
  · exact h e ((assign_perm hkeys _ _).mem_iff.mpr (List.mem_cons_of_mem _ hother))

section

variable (hkeys : (artifact.map Prod.fst).Nodup) {bytes : Bytes}
  (hbytes : canonicalBytes (.obj (withByteLength artifact 1)) = .ok bytes)

include hkeys hbytes

theorem length_withByteLength_one :
    bytes.length - 1 = lengthBeside artifact (py "byte_length") := by
  obtain ⟨-, -, rfl⟩ := canonicalBytes_eq_ok.mp hbytes
  have hone : digitCount 10 1 = 1 := by decide
  rw [withByteLength, length_dumps_assign hkeys, length_dumps_natCast, hone, Nat.add_sub_cancel]

theorem canonicalBytes_withByteLength (n : Nat) :
    canonicalBytes (.obj (withByteLength artifact n)) =
      .ok (Json.obj (withByteLength artifact n)).dumps := by
  obtain ⟨-, hcheck, -⟩ := canonicalBytes_eq_ok.mp hbytes
  exact canonicalBytes_eq_ok.mpr ⟨⟨_, rfl⟩, checkValue_withByteLength hkeys 1 n hcheck, rfl⟩

/-- `C` bytes and the digits of the number. -/
theorem canonicalLength_withByteLength (n : Nat) :
    canonicalLength (withByteLength artifact n) = .ok (bytes.length - 1 + digitCount 10 n) := by
  rw [canonicalLength, canonicalBytes_withByteLength hkeys hbytes,
    length_withByteLength_one hkeys hbytes, withByteLength]
  show Except.ok (Json.obj (assign _ _ _)).dumps.length = _
  rw [length_dumps_assign hkeys, length_dumps_natCast]

theorem measuresItself_iff (n : Nat) :
    MeasuresItself artifact n ↔ StatesItself 10 (bytes.length - 1) n := by
  have hlength := canonicalLength_withByteLength hkeys hbytes n
  have hdumps := canonicalBytes_withByteLength hkeys hbytes n
  rw [canonicalLength, hdumps] at hlength
  have hlength := Except.ok.inj hlength
  constructor
  · intro ⟨_, hn, hmeasure⟩
    obtain rfl := Except.ok.inj (hdumps.symm.trans hn)
    exact hlength.symm.trans hmeasure
  · intro h
    exact ⟨_, hdumps, hlength.trans h⟩

/-! ### What the loop collects -/

/-- A digit count adds its candidate when the candidate has that many digits. -/
theorem tryDigits_step (m : Nat) (solutions : List Nat) (digits : Nat) : ∃ m',
    tryDigits (bytes.length - 1) (withByteLength artifact m, solutions) digits =
      .ok (withByteLength artifact m', solutions ++
        if digitCount 10 (bytes.length - 1 + digits) = digits
        then [bytes.length - 1 + digits] else []) := by
  have hcount : (toString (bytes.length - 1 + digits)).length =
      digitCount 10 (bytes.length - 1 + digits) := by
    rw [Nat.toString_eq_repr, ← String.length_toList, Nat.toList_repr, digitCount]
  by_cases hdigits : digitCount 10 (bytes.length - 1 + digits) = digits
  · refine ⟨bytes.length - 1 + digits, ?_⟩
    rw [tryDigits, if_neg (not_not_intro (hcount.trans hdigits)), if_pos hdigits]
    dsimp only
    rw [withByteLength_withByteLength, canonicalLength_withByteLength hkeys hbytes, ok_bind,
      if_pos (by rw [hdigits])]
  · refine ⟨m, ?_⟩
    rw [tryDigits, if_pos (fun h => hdigits (hcount.symm.trans h)), if_neg hdigits,
      List.append_nil]

/-- The loop, from any state: the candidates that state themselves, in order. -/
theorem tryDigits_run (counts : List Nat) (m : Nat) (solutions : List Nat) : ∃ m',
    counts.foldlM (tryDigits (bytes.length - 1)) (withByteLength artifact m, solutions) =
      .ok (withByteLength artifact m', solutions ++
        (counts.filter fun d => digitCount 10 (bytes.length - 1 + d) = d).map
          fun d => bytes.length - 1 + d) := by
  induction counts generalizing m solutions with
  | nil => exact ⟨m, by simp [pure, Except.pure]⟩
  | cons d counts ih =>
      obtain ⟨k, hstep⟩ := tryDigits_step hkeys hbytes m solutions d
      obtain ⟨m', hrun⟩ := ih k _
      refine ⟨m', ?_⟩
      rw [List.foldlM_cons, hstep, ok_bind, hrun]
      by_cases hd : digitCount 10 (bytes.length - 1 + d) = d <;> simp [hd]

/-- The candidates of the loop that state themselves. -/
def byteLengthSolutions (seed : Nat) : List Nat :=
  ((List.range' 1 20).filter fun d => digitCount 10 (seed + d) = d).map fun d => seed + d

/-- The search, by its solutions. -/
theorem finalize_eq : finalizeTransitionArtifactByteLength artifact =
    match byteLengthSolutions (bytes.length - 1) with
    | [solution] => .ok (withByteLength artifact solution)
    | _ => .error byteLengthRefused := by
  have hone : digitCount 10 1 = 1 := by decide
  have hlength := canonicalLength_withByteLength hkeys hbytes 1
  obtain ⟨m, hrun⟩ := tryDigits_run hkeys hbytes (List.range' 1 20) 1 []
  rw [finalizeTransitionArtifactByteLength]
  dsimp only
  rw [hlength, ok_bind, hone, Nat.add_sub_cancel, hrun, ok_bind, List.nil_append]
  dsimp only
  rw [← byteLengthSolutions]
  split <;> simp

end

/-- The loop finds the numbers of at most 20 digits that state themselves. -/
theorem mem_byteLengthSolutions {seed n : Nat} : n ∈ byteLengthSolutions seed ↔
    StatesItself 10 seed n ∧ n < 10 ^ 20 := by
  have hwidth := digitCount_le_iff (b := 10) (by decide) (n := n) (show 0 < 20 by decide)
  have hpos := digitCount_pos (b := 10) (n := n)
  simp only [byteLengthSolutions, List.mem_map, List.mem_filter, List.mem_range'_1,
    decide_eq_true_eq]
  constructor
  · intro h
    obtain ⟨d, ⟨hrange, hdigits⟩, hn⟩ := h
    subst hn
    exact ⟨by rw [StatesItself, hdigits], hwidth.mp (by omega)⟩
  · intro h
    obtain ⟨hstates, hn⟩ := h
    rw [StatesItself] at hstates
    have := hwidth.mpr hn
    exact ⟨digitCount 10 n, ⟨by omega, by rw [hstates]⟩, hstates⟩

theorem nodup_byteLengthSolutions (seed : Nat) : (byteLengthSolutions seed).Nodup :=
  ((List.nodup_range' 1).filter _).map fun _ _ h => Nat.add_left_cancel h

/-! ### When the search is refused -/

/-- No fixed point that the loop tries, or two of them. -/
def NoSoleSolution (seed : Nat) : Prop :=
  (∃ d, d < 20 ∧ seed + d + 1 = 10 ^ d) ∨ 10 ^ 20 ≤ seed + 20

instance (seed : Nat) : Decidable (NoSoleSolution seed) :=
  inferInstanceAs (Decidable (_ ∨ _))

/-- Two numbers that state themselves beside as many bytes. -/
theorem two_byteLengths {seed m n : Nat} (hm : 0 < m) (hmn : m < n)
    (hstates : StatesItself 10 seed m ∧ StatesItself 10 seed n) (hm20 : m < 10 ^ 20)
    (hsole : ¬ NoSoleSolution seed) : seed + 21 = 10 ^ 20 ∧ n = 10 ^ 20 := by
  obtain ⟨d, -, hpow, hmd, hnd⟩ := (two_solutions (by decide) hmn hm).mp hstates
  have hd : ¬ d < 20 := fun hlt => hsole (.inl ⟨d, hlt, hpow⟩)
  have hd' : ¬ 20 < d := by
    intro hlt
    have hbig : 10 ^ 21 ≤ 10 ^ d := Nat.pow_le_pow_right (by decide) hlt
    omega
  obtain rfl : d = 20 := by omega
  omega

theorem byteLengthSolutions_of_noSoleSolution {seed : Nat} (hseed : 0 < seed)
    (h : NoSoleSolution seed) (n : Nat) : byteLengthSolutions seed ≠ [n] := by
  intro hsingle
  have honly : ∀ m, StatesItself 10 seed m → m < 10 ^ 20 → m = n := fun m hm hm20 =>
    List.mem_singleton.mp (hsingle ▸ mem_byteLengthSolutions.mpr ⟨hm, hm20⟩)
  rcases h with ⟨d, hd, hpow⟩ | hlarge
  · have hd0 : 0 < d := Nat.pos_of_ne_zero fun hzero => by
      subst hzero
      omega
    have hsmall : 10 ^ d ≤ 10 ^ 19 := Nat.pow_le_pow_right (by decide) (by omega)
    have htwo := (two_solutions (b := 10) (by decide) (Nat.lt_succ_self (seed + d)) (by omega)).mpr
      ⟨d, hd0, hpow, rfl, rfl⟩
    have hfirst := honly _ htwo.1 (by omega)
    have hsecond := honly _ htwo.2 (by omega)
    omega
  · have hmem : n ∈ byteLengthSolutions seed := hsingle ▸ List.mem_singleton_self n
    obtain ⟨hstates, hn⟩ := mem_byteLengthSolutions.mp hmem
    obtain ⟨d, hd, hlower, hupper⟩ := (statesItself_iff (by decide) hstates.pos).mp hstates
    -- at most 20 digits, and fewer than 20 are too few for the bytes alone
    have hwidth : d + 1 ≤ 20 := by
      by_contra hwide
      have hpow : 10 ^ 20 ≤ 10 ^ d := Nat.pow_le_pow_right (by decide) (by omega)
      omega
    rcases Nat.lt_or_eq_of_le hwidth with hlt | heq
    · have hpow : 10 ^ (d + 1) ≤ 10 ^ 19 := Nat.pow_le_pow_right (by decide) (by omega)
      omega
    · omega

/-- Otherwise the loop has one solution. -/
theorem byteLengthSolutions_eq_singleton {seed : Nat} (h : ¬ NoSoleSolution seed) :
    ∃ n, byteLengthSolutions seed = [n] := by
  obtain ⟨n, hn, hn20, hstates⟩ := exists_statesItself_lt (b := 10) (by decide)
    (show seed + (19 + 1) < 10 ^ (19 + 1) from Nat.lt_of_not_le fun hle => h (.inr hle))
  refine ⟨n, List.perm_singleton.mp ?_⟩
  rw [List.perm_ext_iff_of_nodup (nodup_byteLengthSolutions seed) (List.nodup_singleton n)]
  intro m
  rw [mem_byteLengthSolutions, List.mem_singleton]
  constructor
  · intro ⟨hm, hm20⟩
    rcases Nat.lt_trichotomy m n with hlt | heq | hgt
    · have := two_byteLengths hm.pos hlt ⟨hm, hstates⟩ hm20 h
      omega
    · exact heq
    · have := two_byteLengths hn hgt ⟨hstates, hm⟩ (by omega) h
      omega
  · intro hm
    subst hm
    exact ⟨hstates, hn20⟩

section

variable (hkeys : (artifact.map Prod.fst).Nodup) {bytes : Bytes}
  (hbytes : canonicalBytes (.obj (withByteLength artifact 1)) = .ok bytes)

include hkeys hbytes

theorem finalize_of_noSoleSolution (h : NoSoleSolution (bytes.length - 1)) :
    finalizeTransitionArtifactByteLength artifact = .error byteLengthRefused := by
  have hseed : 0 < bytes.length - 1 := by
    rw [length_withByteLength_one hkeys hbytes, lengthBeside]
    omega
  have hnone := byteLengthSolutions_of_noSoleSolution hseed h
  rw [finalize_eq hkeys hbytes]
  split
  · rename_i n heq
    exact absurd heq (hnone n)
  · rfl

end

/-- A document with one string of `count` letters. -/
def lettersDocument (count : Nat) : List (PyStr × Json) :=
  [(py "a", .str (List.replicate count 120))]

theorem dumps_letters (count : Nat) :
    (Json.str (List.replicate count 120)).dumps.length = count + 2 := by
  show ([34] ++ (List.replicate count 120).flatMap escapeCodePoint ++ [34]).length = count + 2
  have hescape : escapeCodePoint 120 = [120] := by decide
  have hbody : ((List.replicate count 120).flatMap escapeCodePoint).length = count := by
    induction count with
    | zero => rfl
    | succ count ih => simp [List.replicate_succ, hescape, ih]
  simp [hbody]

theorem canonicalBytes_letters (count : Nat) : ∃ bytes,
    canonicalBytes (.obj (withByteLength (lettersDocument count) 1)) = .ok bytes ∧
      bytes.length - 1 = count + 23 := by
  have hkeys : ((lettersDocument count).map Prod.fst).Nodup := List.nodup_singleton _
  have hcheck : checkValue (.obj (withByteLength (lettersDocument count) 1)) 0 = .ok () := by
    rw [checkValue_obj (by decide)]
    intro e he
    rcases List.mem_cons.mp ((assign_perm hkeys _ _).mem_iff.mp he) with rfl | hother
    · exact checkValue_int (by decide)
    · obtain rfl := List.mem_singleton.mp (List.mem_filter.mp hother).1
      exact checkValue_str (by decide)
  have hbytes := canonicalBytes_eq_ok.mpr ⟨⟨_, rfl⟩, hcheck, rfl⟩
  refine ⟨_, hbytes, ?_⟩
  have hfilter : ((lettersDocument count).filter fun e => e.1 ≠ py "byte_length") =
      lettersDocument count := by
    have hne : py "a" ≠ py "byte_length" := by decide
    exact filter_other_keys fun e he => by rw [List.mem_singleton.mp he]; exact hne
  have ha : (serString (py "a")).length = 3 := by decide
  have hkey : (serString (py "byte_length")).length = 13 := by decide
  rw [length_withByteLength_one hkeys hbytes, lengthBeside, hfilter, hkey]
  simp [lettersDocument, dumps_letters, ha]
  omega

end CoreTex
