import CoreTex.Eval.QueryPackOverlay
import CoreTex.Lib.HexText
import CoreTex.Replay.RigText
import Mathlib.Data.List.Sort

/-!
# CoreTex.Eval.QueryPackVerification

`verifyQueryPack` (`eval/hidden-query-pack.ts`) against the recomputation it stands for.

Verification reads the root and the ids of a pack. A pack that was derived is accepted when its seed
is read back from the lower-case text it is published under, and an accepted pack is the recomputed
one when its events are events of the corpus: `verifyQueryPack_iff`.
-/

namespace CoreTex.HiddenPack

open CoreTex.Lib CoreTex.EvalReport CoreTex.RigDispatch

/-! ### The verification -/

/-- What `verifyQueryPack` returns. -/
inductive Verification
  | ok
  | refused (reason : String)
  deriving DecidableEq, Repr

/-- The first place where two lists of events name different events. -/
def firstMismatch : Nat → List ProductionCorpusEvent → List ProductionCorpusEvent → Option Nat
  | i, x :: xs, y :: ys => if x.id ≠ y.id then some i else firstMismatch (i + 1) xs ys
  | _, _, _ => none

section Verify

variable (H : Host) (keccak256 : Bytes → Digest) (S : CompareSort)

/-- `deriveQueryPack`, then `admitActiveLiveEvalEvents` with the options and the profile. -/
def recomputedPack (epochId : JsNum) (evalSeedHex : String) (corpus : ProductionCorpus)
    (profile : HiddenPackProfile) (activeLiveEval : Option ActiveLiveEvalPackOptions) :
    Except String QueryPack := do
  let pack ← deriveQueryPack H keccak256 S epochId evalSeedHex corpus profile
  match activeLiveEval with
  | none => pure pack
  | some opts =>
    let admitted ← admitActiveLiveEvalEvents H S pack corpus { opts with profile := some profile }
    pure admitted.pack

def verifyQueryPack (pack : QueryPack) (corpus : ProductionCorpus) (profile : HiddenPackProfile)
    (activeLiveEval : Option ActiveLiveEvalPackOptions) : Verification :=
  if H.toLowerCase pack.corpusRoot ≠ H.toLowerCase corpus.corpusRoot then
    .refused "corpusRoot mismatch"
  else
    match recomputedPack H keccak256 S pack.epochId pack.evalSeedHex corpus profile
      activeLiveEval with
    | .error message => .refused ("deriveQueryPack failed: " ++ message)
    | .ok recomputed =>
      if recomputed.events.length ≠ pack.events.length then
        .refused ("pack length mismatch: " ++ toString pack.events.length ++ " vs " ++
          toString recomputed.events.length)
      else
        match firstMismatch 0 recomputed.events pack.events with
        | some i => .refused ("pack[" ++ toString i ++ "] id mismatch")
        | none => .ok

end Verify

theorem firstMismatch_eq_none {i : Nat} {xs ys : List ProductionCorpusEvent}
    (hlength : xs.length = ys.length) :
    firstMismatch i xs ys = none ↔
      xs.map ProductionCorpusEvent.id = ys.map ProductionCorpusEvent.id := by
  induction xs generalizing i ys with
  | nil =>
      cases ys with
      | nil => simp [firstMismatch]
      | cons y ys => cases hlength
  | cons x xs ih =>
      cases ys with
      | nil => cases hlength
      | cons y ys =>
          have hrest := ih (i := i + 1) (Nat.succ.inj hlength)
          rw [firstMismatch, List.map_cons, List.map_cons, List.cons.injEq]
          by_cases hid : x.id = y.id
          · rw [if_neg (not_not.mpr hid), hrest]
            exact ⟨fun h => ⟨hid, h⟩, And.right⟩
          · rw [if_pos hid]
            exact ⟨fun h => (by cases h), fun h => absurd h.1 hid⟩

section Spec

variable {H : Host} {keccak256 : Bytes → Digest} {S : CompareSort} {corpus : ProductionCorpus}
  {profile : HiddenPackProfile} {activeLiveEval : Option ActiveLiveEvalPackOptions}

/-- Verification compares the roots without case, and the ids. -/
theorem verifyQueryPack_eq_ok {pack : QueryPack} :
    verifyQueryPack H keccak256 S pack corpus profile activeLiveEval = .ok ↔
      H.toLowerCase pack.corpusRoot = H.toLowerCase corpus.corpusRoot ∧
        ∃ recomputed, recomputedPack H keccak256 S pack.epochId pack.evalSeedHex corpus profile
          activeLiveEval = .ok recomputed ∧
          recomputed.events.map ProductionCorpusEvent.id =
            pack.events.map ProductionCorpusEvent.id := by
  rw [verifyQueryPack]
  by_cases hroot : H.toLowerCase pack.corpusRoot = H.toLowerCase corpus.corpusRoot
  · rw [if_neg (not_not.mpr hroot)]
    cases recomputedPack H keccak256 S pack.epochId pack.evalSeedHex corpus profile
      activeLiveEval with
    | error message => simp
    | ok recomputed =>
        dsimp only
        by_cases hlength : recomputed.events.length = pack.events.length
        · rw [if_neg (not_not.mpr hlength)]
          have hmismatch := firstMismatch_eq_none (i := 0) hlength
          constructor
          · intro h
            split at h
            · cases h
            next hnone => exact ⟨hroot, recomputed, rfl, hmismatch.mp hnone⟩
          · rintro ⟨-, found, hfound, hids⟩
            cases hfound
            rw [hmismatch.mpr hids]
        · rw [if_pos hlength]
          constructor
          · intro h
            cases h
          · rintro ⟨-, found, hfound, hids⟩
            cases hfound
            exact absurd (by simpa using congrArg List.length hids) hlength
  · rw [if_pos hroot]
    exact ⟨fun h => (by cases h), fun h => absurd h.1 hroot⟩

/-- What a recomputed pack shows, and where its events come from. -/
theorem recomputedPack_ok {epochId : JsNum} {evalSeedHex : String} {pack : QueryPack}
    (hok : recomputedPack H keccak256 S epochId evalSeedHex corpus profile activeLiveEval =
      .ok pack) :
    pack.epochId = epochId ∧ pack.evalSeedHex = publishedSeed H evalSeedHex ∧
      pack.corpusRoot = corpus.corpusRoot ∧ ∀ e ∈ pack.events, e ∈ corpus.events := by
  rw [recomputedPack] at hok
  obtain ⟨base, hbase, hok⟩ := bind_eq_ok.mp hok
  obtain ⟨hepoch, hseed, hroot, hevents⟩ := deriveQueryPack_ok hbase
  split at hok
  · cases hok
    exact ⟨hepoch, hseed, hroot, hevents⟩
  · obtain ⟨admitted, hadmitted, hok⟩ := bind_eq_ok.mp hok
    cases hok
    obtain ⟨hepoch', hseed', hroot', hevents'⟩ :=
      admitActiveLiveEvalEvents_ok hevents (fun _ he => he) hadmitted
    exact ⟨hepoch'.trans hepoch, hseed'.trans hseed, hroot'.trans hroot, hevents'⟩

theorem recomputedPack_of_seed {epochId : JsNum} {evalSeedHex seedHex : String} {pack : QueryPack}
    (hseed : evalSeedBytes seedHex = evalSeedBytes evalSeedHex)
    (hok : recomputedPack H keccak256 S epochId evalSeedHex corpus profile activeLiveEval =
      .ok pack) :
    recomputedPack H keccak256 S epochId seedHex corpus profile activeLiveEval =
      .ok { pack with evalSeedHex := publishedSeed H seedHex } := by
  rw [recomputedPack] at hok
  obtain ⟨base, hbase, hok⟩ := bind_eq_ok.mp hok
  rw [recomputedPack, deriveQueryPack_of_seed hseed hbase, ok_bind]
  split at hok
  · cases hok
    rfl
  · obtain ⟨admitted, hadmitted, hok⟩ := bind_eq_ok.mp hok
    cases hok
    rw [admitActiveLiveEvalEvents_seed _ hadmitted]
    rfl

end Spec

/-! ### The seed that is published -/

/-- The lower-case text of a published seed is read as the bytes of the seed. -/
def ReadsBack (H : Host) (evalSeedHex : String) : Prop :=
  evalSeedBytes (publishedSeed H evalSeedHex) = evalSeedBytes evalSeedHex

theorem toLower_cases (c : Char) :
    c.toLower = c ∨ c ∈ "ABCDEFGHIJKLMNOPQRSTUVWXYZ".toList := by
  by_cases h : c.val ≥ 'A'.val ∧ c.val ≤ 'Z'.val
  · have hall : ∀ n : Fin 26, Char.ofNat (65 + n.val) ∈ "ABCDEFGHIJKLMNOPQRSTUVWXYZ".toList := by
      decide
    have hlo : 65 ≤ c.toNat := h.1
    have hhi : c.toNat ≤ 90 := h.2
    have hc : Char.ofNat (65 + (c.toNat - 65)) = c := by
      rw [Nat.add_sub_cancel' hlo]
      exact Char.ofNat_toNat c
    exact .inr (hc ▸ hall ⟨c.toNat - 65, by omega⟩)
  · exact .inl (dif_neg h)

/-- What `parseInt` of base 16 asks of a character. -/
structure SameDigit (a b : Char) : Prop where
  space : isJsSpace a = isJsSpace b
  value : hexValue a.toNat = hexValue b.toNat
  minus : a = '-' ↔ b = '-'
  plus : a = '+' ↔ b = '+'
  zero : a = '0' ↔ b = '0'
  mark : a = 'x' ∨ a = 'X' ↔ b = 'x' ∨ b = 'X'

theorem sameDigit_toLower (c : Char) : SameDigit c.toLower c := by
  rcases toLower_cases c with h | h
  · rw [h]
    exact ⟨rfl, rfl, Iff.rfl, Iff.rfl, Iff.rfl, Iff.rfl⟩
  · have hall : ∀ d ∈ "ABCDEFGHIJKLMNOPQRSTUVWXYZ".toList,
        isJsSpace d.toLower = isJsSpace d ∧ hexValue d.toLower.toNat = hexValue d.toNat ∧
          (d.toLower = '-' ↔ d = '-') ∧ (d.toLower = '+' ↔ d = '+') ∧ (d.toLower = '0' ↔ d = '0') ∧
          (d.toLower = 'x' ∨ d.toLower = 'X' ↔ d = 'x' ∨ d = 'X') :=
      forall_mem_of_all (by decide +kernel)
    obtain ⟨hspace, hvalue, hminus, hplus, hzero, hmark⟩ := hall c h
    exact ⟨hspace, hvalue, hminus, hplus, hzero, hmark⟩

theorem splitSign_toLower (cs : List Char) :
    splitSign (cs.map Char.toLower) = ((splitSign cs).1, (splitSign cs).2.map Char.toLower) := by
  have hother : ∀ c : Char, c ≠ '-' → c ≠ '+' → ∀ cs, splitSign (c :: cs) = (1, c :: cs) := by
    intro c hminus hplus cs
    unfold splitSign
    split
    next heq => exact absurd (List.cons.inj heq).1 hminus
    next heq => exact absurd (List.cons.inj heq).1 hplus
    next => rfl
  cases cs with
  | nil => rfl
  | cons c cs =>
      have hsame := sameDigit_toLower c
      by_cases hminus : c = '-'
      · subst hminus
        rfl
      · by_cases hplus : c = '+'
        · subst hplus
          rfl
        · rw [List.map_cons, hother c hminus hplus,
            hother c.toLower (hsame.minus.not.mpr hminus) (hsame.plus.not.mpr hplus)]
          rfl

/-- What `parseInt` of base 16 drops before the digits. -/
def afterMark : List Char → List Char
  | '0' :: 'x' :: rest => rest
  | '0' :: 'X' :: rest => rest
  | cs => cs

theorem afterMark_of_not {cs : List Char} (hx : ∀ rest, cs = '0' :: 'x' :: rest → False)
    (hX : ∀ rest, cs = '0' :: 'X' :: rest → False) : afterMark cs = cs := by
  unfold afterMark
  split
  next rest => exact (hx rest rfl).elim
  next rest => exact (hX rest rfl).elim
  next => rfl

theorem afterMark_toLower (cs : List Char) :
    afterMark (cs.map Char.toLower) = (afterMark cs).map Char.toLower := by
  have hmark : ∀ a b : Char, a = '0' → b = 'x' ∨ b = 'X' → ∀ cs, afterMark (a :: b :: cs) = cs := by
    rintro a b rfl (rfl | rfl) cs <;> rfl
  have hother : ∀ a b : Char, ¬ (a = '0' ∧ (b = 'x' ∨ b = 'X')) → ∀ cs,
      afterMark (a :: b :: cs) = a :: b :: cs := by
    intro a b hnot cs
    refine afterMark_of_not (fun rest heq => ?_) (fun rest heq => ?_)
    · obtain ⟨ha, htail⟩ := List.cons.inj heq
      exact hnot ⟨ha, .inl (List.cons.inj htail).1⟩
    · obtain ⟨ha, htail⟩ := List.cons.inj heq
      exact hnot ⟨ha, .inr (List.cons.inj htail).1⟩
  match cs with
  | [] => rfl
  | [c] => simp [afterMark]
  | a :: b :: cs =>
      have ha := sameDigit_toLower a
      have hb := sameDigit_toLower b
      rw [List.map_cons, List.map_cons]
      by_cases h : a = '0' ∧ (b = 'x' ∨ b = 'X')
      · rw [hmark a b h.1 h.2, hmark _ _ (ha.zero.mpr h.1) (hb.mark.mpr h.2)]
      · have hlow : ¬ (a.toLower = '0' ∧ (b.toLower = 'x' ∨ b.toLower = 'X')) := by
          rw [ha.zero, hb.mark]
          exact h
        rw [hother a b h, hother _ _ hlow, List.map_cons, List.map_cons]

theorem readDigits_toLower (base acc : Nat) (cs : List Char) :
    readDigits base acc (cs.map Char.toLower) = readDigits base acc cs := by
  induction cs generalizing acc with
  | nil => rfl
  | cons c cs ih =>
      rw [List.map_cons, readDigits, readDigits, (sameDigit_toLower c).value]
      split
      · rw [ih]
      · rfl

/-- `parseInt` of base 16 does not see the case of a text. -/
theorem parseIntHex_toLower (cs : List Char) :
    parseIntHex (cs.map Char.toLower) = parseIntHex cs := by
  have heq : ∀ cs, parseIntHex cs =
      (let digits := (afterMark (splitSign (cs.dropWhile isJsSpace)).2).takeWhile fun c =>
        (hexValue c.toNat).isSome
      if digits = [] then none
      else (readDigits 16 0 digits).map fun n =>
        (splitSign (cs.dropWhile isJsSpace)).1 * (n : Int)) := by
    intro cs
    unfold parseIntHex
    obtain ⟨sign, body⟩ := splitSign (cs.dropWhile isJsSpace)
    dsimp only
    split
    · rfl
    · rfl
    next hx hX => rw [afterMark_of_not hx hX]
  have hspace : (isJsSpace ∘ Char.toLower) = isJsSpace :=
    funext fun c => (sameDigit_toLower c).space
  have hdigit : ((fun c : Char => (hexValue c.toNat).isSome) ∘ Char.toLower) =
      fun c => (hexValue c.toNat).isSome :=
    funext fun c => congrArg Option.isSome (sameDigit_toLower c).value
  rw [heq, heq, List.dropWhile_map, hspace, splitSign_toLower]
  dsimp only
  rw [afterMark_toLower, List.takeWhile_map, hdigit, readDigits_toLower]
  simp only [List.map_eq_nil_iff]

theorem hexPairs_toLower : ∀ cs : List Char, hexPairs (cs.map Char.toLower) = hexPairs cs
  | [] => rfl
  | [_] => rfl
  | a :: b :: cs => by
    have hbyte : hexPairByte a.toLower b.toLower = hexPairByte a b := by
      have hparse := parseIntHex_toLower [a, b]
      rw [List.map_cons, List.map_cons, List.map_nil] at hparse
      rw [hexPairByte, hexPairByte, hparse]
    rw [List.map_cons, List.map_cons, hexPairs, hexPairs, hbyte, hexPairs_toLower cs]

/-! ### ASCII seeds -/

def IsAscii (s : String) : Prop :=
  ∀ c ∈ s.toList, c.toNat < 128

/-- The text begins with `0X`. -/
def UpperMark (s : String) : Prop :=
  ∃ rest, s.toList = '0' :: 'X' :: rest

theorem evalSeedBytes_eq {s : String} {cs : List Char} (hclean : clean s = cs)
    (hascii : ∀ c ∈ cs, c.toNat < 128) :
    evalSeedBytes s = if cs.length ≠ 64
      then throw ("evalSeed must be 32 bytes (got " ++ halfText cs.length ++ ")")
      else pure (hexPairs cs) := by
  rw [evalSeedBytes, hclean, utf16_eq hascii]

theorem toLower_ascii (c : Char) (h : c.toNat < 128) : c.toLower.toNat < 128 := by
  rcases toLower_cases c with hc | hc
  · rw [hc]
    exact h
  · have hall : ∀ d ∈ "ABCDEFGHIJKLMNOPQRSTUVWXYZ".toList, d.toLower.toNat < 128 :=
      forall_mem_of_all (by decide +kernel)
    exact hall c hc

theorem clean_of_mark {s : String} {rest : List Char} (h : s.toList = '0' :: 'x' :: rest) :
    clean s = rest := by
  rw [clean, h]
  rfl

theorem clean_of_upperMark {s : String} (h : UpperMark s) : clean s = s.toList := by
  obtain ⟨rest, h⟩ := h
  rw [clean, h]
  rfl

/-- A text is marked with `0x`, marked with `0X`, or as it is. -/
theorem clean_cases (s : String) :
    s.toList = '0' :: 'x' :: clean s ∨ UpperMark s ∨
      (clean s = s.toList ∧ ∀ a b rest, s.toList = a :: b :: rest →
        ¬ (a = '0' ∧ (b = 'x' ∨ b = 'X'))) := by
  by_cases hx : ∃ rest, s.toList = '0' :: 'x' :: rest
  · obtain ⟨rest, hrest⟩ := hx
    exact .inl (by rw [clean_of_mark hrest, hrest])
  · by_cases hX : UpperMark s
    · exact .inr (.inl hX)
    · refine .inr (.inr ⟨?_, ?_⟩)
      · unfold clean
        split
        next rest heq => exact absurd ⟨rest, heq⟩ hx
        next => rfl
      · rintro a b rest heq ⟨rfl, rfl | rfl⟩
        · exact hx ⟨rest, heq⟩
        · exact hX ⟨rest, heq⟩

section Seeds

variable {H : Host} {s : String}

theorem toList_lower (hascii : IsAscii s) :
    (H.toLowerCase s).toList = s.toList.map Char.toLower := by
  rw [H.toLowerCase_ascii s hascii, toList_toLower]

/-- What is left of an ASCII seed that is not marked with `0X` is published in lower case. -/
theorem clean_publishedSeed (hascii : IsAscii s) (hmark : ¬ UpperMark s) :
    clean (publishedSeed H s) = (clean s).map Char.toLower := by
  have hlower := toList_lower (H := H) hascii
  rcases clean_cases s with hx | hX | ⟨hclean, hplain⟩
  · rw [hx, List.map_cons, List.map_cons] at hlower
    have hmarked : (H.toLowerCase s).toList = '0' :: 'x' :: (clean s).map Char.toLower := hlower
    rw [publishedSeed]
    simp only [hmarked]
    exact clean_of_mark hmarked
  · exact absurd hX hmark
  · have hnot : ∀ rest, (H.toLowerCase s).toList ≠ '0' :: 'x' :: rest := by
      intro rest heq
      rw [hlower] at heq
      obtain ⟨a, tail, hs, ha, htail⟩ := List.map_eq_cons_iff.mp heq
      obtain ⟨b, tail, rfl, hb, -⟩ := List.map_eq_cons_iff.mp htail
      exact hplain a b tail hs
        ⟨(sameDigit_toLower a).zero.mp ha, (sameDigit_toLower b).mark.mp (.inl hb)⟩
    have hpublished : publishedSeed H s = "0x" ++ H.toLowerCase s := by
      unfold publishedSeed
      dsimp only
      split
      next rest heq => exact absurd heq (hnot rest)
      next => rfl
    have htext : (publishedSeed H s).toList = '0' :: 'x' :: (H.toLowerCase s).toList := by
      rw [hpublished, String.toList_append]
      rfl
    rw [clean_of_mark htext, hlower, hclean]

/-- An ASCII seed that is not marked with `0X` is read back. -/
theorem readsBack_of_ascii (hascii : IsAscii s) (hmark : ¬ UpperMark s) : ReadsBack H s := by
  have hsub : ∀ c ∈ clean s, c.toNat < 128 := by
    intro c hc
    rcases clean_cases s with hx | hX | ⟨hclean, -⟩
    · exact hascii c (hx ▸ List.mem_cons_of_mem _ (List.mem_cons_of_mem _ hc))
    · exact absurd hX hmark
    · exact hascii c (hclean ▸ hc)
  have hlow : ∀ c ∈ (clean s).map Char.toLower, c.toNat < 128 := by
    intro c hc
    obtain ⟨d, hd, rfl⟩ := List.mem_map.mp hc
    exact toLower_ascii d (hsub d hd)
  rw [ReadsBack, evalSeedBytes_eq (clean_publishedSeed hascii hmark) hlow,
    evalSeedBytes_eq rfl hsub, List.length_map, hexPairs_toLower]

/-- A seed of 64 characters marked with `0X` is published two short. -/
theorem evalSeedBytes_upperMark (hascii : IsAscii s) (hmark : UpperMark s) {seed : Bytes}
    (hok : evalSeedBytes s = .ok seed) (bytes : Bytes) :
    evalSeedBytes (publishedSeed H s) ≠ .ok bytes := by
  have hclean := clean_of_upperMark hmark
  obtain ⟨rest, hrest⟩ := hmark
  have hlower : (H.toLowerCase s).toList = '0' :: 'x' :: rest.map Char.toLower := by
    rw [toList_lower hascii, hrest]
    rfl
  have hpublished : clean (publishedSeed H s) = rest.map Char.toLower := by
    rw [publishedSeed]
    simp only [hlower]
    exact clean_of_mark hlower
  have hlow : ∀ c ∈ rest.map Char.toLower, c.toNat < 128 := by
    intro c hc
    obtain ⟨d, hd, rfl⟩ := List.mem_map.mp hc
    refine toLower_ascii d (hascii d ?_)
    rw [hrest]
    exact List.mem_cons_of_mem _ (List.mem_cons_of_mem _ hd)
  have hlength : s.toList.length = 64 := by
    rw [evalSeedBytes_eq hclean hascii] at hok
    split at hok
    · cases hok
    next h => exact not_not.mp h
  rw [hrest, List.length_cons, List.length_cons] at hlength
  have hshort : (rest.map Char.toLower).length ≠ 64 := by
    rw [List.length_map]
    omega
  rw [evalSeedBytes_eq hpublished hlow, if_pos hshort]
  exact throw_ne_ok

end Seeds

/-! ### What verification is exact about -/

section Exact

variable {H : Host} {keccak256 : Bytes → Digest} {S : CompareSort} {corpus : ProductionCorpus}
  {profile : HiddenPackProfile} {activeLiveEval : Option ActiveLiveEvalPackOptions}

/-- A pack whose seed is read back is accepted. -/
theorem verifyQueryPack_of_readsBack {epochId : JsNum} {evalSeedHex : String} {pack : QueryPack}
    (hok : recomputedPack H keccak256 S epochId evalSeedHex corpus profile activeLiveEval =
      .ok pack) (hseed : ReadsBack H evalSeedHex) :
    verifyQueryPack H keccak256 S pack corpus profile activeLiveEval = .ok := by
  obtain ⟨hepoch, hshown, hroot, -⟩ := recomputedPack_ok hok
  have hagain := recomputedPack_of_seed hseed hok
  rw [← hshown, ← hepoch] at hagain
  exact verifyQueryPack_eq_ok.mpr ⟨by rw [hroot], _, hagain, rfl⟩

/-- A pack whose seed cannot be read is refused. -/
theorem evalSeedBytes_of_verify {pack : QueryPack}
    (hok : verifyQueryPack H keccak256 S pack corpus profile activeLiveEval = .ok) :
    ∃ seed, evalSeedBytes pack.evalSeedHex = .ok seed := by
  obtain ⟨-, recomputed, hrecomputed, -⟩ := verifyQueryPack_eq_ok.mp hok
  rw [recomputedPack] at hrecomputed
  obtain ⟨base, hbase, -⟩ := bind_eq_ok.mp hrecomputed
  exact evalSeedBytes_of_derive hbase

/-- Events of the corpus are told apart by their ids. -/
theorem events_eq_of_ids {events xs ys : List ProductionCorpusEvent}
    (hids : (events.map ProductionCorpusEvent.id).Nodup) (hxs : ∀ e ∈ xs, e ∈ events)
    (hys : ∀ e ∈ ys, e ∈ events)
    (heq : xs.map ProductionCorpusEvent.id = ys.map ProductionCorpusEvent.id) : xs = ys := by
  induction xs generalizing ys with
  | nil => exact (List.map_eq_nil_iff.mp heq.symm).symm
  | cons x xs ih =>
      cases ys with
      | nil => cases heq
      | cons y ys =>
          obtain ⟨hx, hxs⟩ := List.forall_mem_cons.mp hxs
          obtain ⟨hy, hys⟩ := List.forall_mem_cons.mp hys
          obtain ⟨hid, hrest⟩ := List.cons.inj heq
          rw [List.inj_on_of_nodup_map hids hx hy hid, ih hxs hys hrest]

end Exact

/-- **Verification is exact up to the seed's mark and the contents of the events.** A derived pack
is accepted when its seed is read back from what it is published as, which among ASCII seeds are
those not marked with `0X`. An accepted pack has the root of the corpus, letter case aside, and the
ids of the recomputed pack; its events are the recomputed ones exactly when each of them is an event
of the corpus. -/
theorem verifyQueryPack_iff (H : Host) (keccak256 : Bytes → Digest) (S : CompareSort)
    (corpus : ProductionCorpus) (hids : (corpus.events.map ProductionCorpusEvent.id).Nodup)
    (profile : HiddenPackProfile) (activeLiveEval : Option ActiveLiveEvalPackOptions) :
    (∀ epochId evalSeedHex pack, recomputedPack H keccak256 S epochId evalSeedHex corpus profile
        activeLiveEval = .ok pack →
      (ReadsBack H evalSeedHex →
        verifyQueryPack H keccak256 S pack corpus profile activeLiveEval = .ok) ∧
      (IsAscii evalSeedHex →
        (verifyQueryPack H keccak256 S pack corpus profile activeLiveEval = .ok ↔
          ¬ UpperMark evalSeedHex))) ∧
    ∀ pack, verifyQueryPack H keccak256 S pack corpus profile activeLiveEval = .ok →
      H.toLowerCase pack.corpusRoot = H.toLowerCase corpus.corpusRoot ∧
        ∃ recomputed, recomputedPack H keccak256 S pack.epochId pack.evalSeedHex corpus profile
          activeLiveEval = .ok recomputed ∧
          recomputed.events.map ProductionCorpusEvent.id =
            pack.events.map ProductionCorpusEvent.id ∧
          (pack.events = recomputed.events ↔ ∀ e ∈ pack.events, e ∈ corpus.events) := by
  constructor
  · intro epochId evalSeedHex pack hok
    refine ⟨verifyQueryPack_of_readsBack hok, fun hascii => ⟨fun hverify hmark => ?_, fun hmark =>
      verifyQueryPack_of_readsBack hok (readsBack_of_ascii hascii hmark)⟩⟩
    obtain ⟨bytes, hbytes⟩ := evalSeedBytes_of_verify hverify
    obtain ⟨base, hbase, -⟩ := bind_eq_ok.mp hok
    obtain ⟨seed, hseed⟩ := evalSeedBytes_of_derive hbase
    rw [(recomputedPack_ok hok).2.1] at hbytes
    exact evalSeedBytes_upperMark hascii hmark hseed bytes hbytes
  · intro pack hverify
    obtain ⟨hroot, recomputed, hrecomputed, hsame⟩ := verifyQueryPack_eq_ok.mp hverify
    obtain ⟨-, -, -, hcorpus⟩ := recomputedPack_ok hrecomputed
    refine ⟨hroot, recomputed, hrecomputed, hsame, fun heq e he => hcorpus e (heq ▸ he), ?_⟩
    intro hpack
    exact events_eq_of_ids hids hpack hcorpus hsame.symm

/-! ### A derived pack and a forged one -/

/-- Insertion sort, comparing by the sign of the comparator. -/
def insertionSort : CompareSort where
  sort cmp l := l.insertionSort fun a b => cmp a b ≤ 0
  perm cmp l := List.perm_insertionSort _ l
  sorted cmp l h := by
    have : IsTrans _ fun a b => cmp a b ≤ 0 := ⟨h.trans⟩
    have : Std.Total fun a b => cmp a b ≤ 0 := ⟨h.swap⟩
    exact List.pairwise_insertionSort _ l
  stable cmp l h a b hab hl := by
    have : IsTrans _ fun a b => cmp a b ≤ 0 := ⟨h.trans⟩
    have : Std.Total fun a b => cmp a b ≤ 0 := ⟨h.swap⟩
    exact List.pair_sublist_insertionSort hab hl

/-- A host whose texts are ASCII. -/
def sampleHost : Host where
  toLowerCase := String.toLower
  stringify := fun _ => "{}"
  numberText
    | .fin q => toString q.num
    | .inf negative => if negative then "-Infinity" else "Infinity"
    | .nan => "NaN"
  toLowerCase_ascii := fun _ _ => rfl

def sampleEvent (id text : String) : ProductionCorpusEvent where
  id
  family := "temporal"
  split := .eval_hidden
  queryText := "where was the key"
  truthDocuments := [⟨"m1", text, true, none⟩]
  hardNegatives := []
  qrels := [⟨"m1", 1⟩]
  scope := .undefined
  publicIntent := .undefined
  ownerEntityId := .undefined
  subjectEntityId := .undefined
  causalDepth := none
  relationHopDepth := none
  band := none
  logicalFamily := none

def sampleCorpus : ProductionCorpus where
  events := [sampleEvent "e1" "in the drawer", sampleEvent "zz_e3_q1" "on the shelf"]
  corpusRoot := "0xab"

def sampleProfile : HiddenPackProfile :=
  ⟨.fin 1, [⟨"family=temporal", .fin 1⟩], none, none⟩

def sampleOptions : ActiveLiveEvalPackOptions where
  activeIds := ["zz_e3_q1"]
  limit := .fin 1
  familyPriority := none
  dedupePublicIntent := none
  profile := none
  quotas := none
  disabledFamilies := none


/-- 62 digits behind a mark, or 64. -/
def sampleSeed (mark : String) (digits : Nat) : String :=
  mark ++ String.ofList (List.replicate digits 'A')

def samplePack (evalSeedHex : String) : Except String QueryPack :=
  recomputedPack sampleHost tailDigest insertionSort (.fin 7) evalSeedHex sampleCorpus
    sampleProfile (some sampleOptions)

/-- The pack of either seed is the live event. -/
theorem samplePack_ok : ∀ evalSeedHex ∈ [sampleSeed "0x" 64, sampleSeed "0X" 62],
    ∃ pack, samplePack evalSeedHex = .ok pack ∧
      pack.events.map ProductionCorpusEvent.id = ["zz_e3_q1"] := by
  have hids : ∀ evalSeedHex ∈ [sampleSeed "0x" 64, sampleSeed "0X" 62],
      (samplePack evalSeedHex).toOption.map (fun pack =>
        pack.events.map ProductionCorpusEvent.id) = some ["zz_e3_q1"] := by
    decide +kernel
  intro evalSeedHex hmem
  obtain ⟨pack, hpack, hevents⟩ := Option.map_eq_some_iff.mp (hids evalSeedHex hmem)
  exact ⟨pack, toOption_eq_some.mp hpack, hevents⟩

theorem verifyQueryPack_sample : ∃ pack, samplePack (sampleSeed "0x" 64) = .ok pack ∧
    verifyQueryPack sampleHost tailDigest insertionSort pack sampleCorpus sampleProfile
      (some sampleOptions) = .ok ∧ ∀ e ∈ pack.events, e ∈ sampleCorpus.events := by
  obtain ⟨pack, hpack, -⟩ := samplePack_ok _ List.mem_cons_self
  have hexact := verifyQueryPack_iff sampleHost tailDigest insertionSort sampleCorpus
    (by decide) sampleProfile (some sampleOptions)
  have hascii : IsAscii (sampleSeed "0x" 64) := forall_mem_of_all (by decide +kernel)
  have hmark : ¬ UpperMark (sampleSeed "0x" 64) := by
    rintro ⟨rest, hrest⟩
    have hhead : (sampleSeed "0x" 64).toList[1]? = some 'x' := by decide +kernel
    rw [hrest] at hhead
    exact absurd (Option.some.inj hhead) (by decide)
  exact ⟨pack, hpack, ((hexact.1 _ _ _ hpack).2 hascii).mpr hmark, (recomputedPack_ok hpack).2.2.2⟩

/-- A pack whose live event has its id, and another answer. -/
def forgedPack : QueryPack where
  epochId := .fin 7
  evalSeedHex := sampleSeed "0x" 64
  corpusRoot := "0xab"
  events := [sampleEvent "zz_e3_q1" "in the drawer"]

/-- The forged pack is accepted, and it is not the recomputed one; a pack derived from a seed
marked with `0X` is refused. -/
theorem forgedPack_accepted :
    (verifyQueryPack sampleHost tailDigest insertionSort forgedPack sampleCorpus sampleProfile
        (some sampleOptions) = .ok ∧
      ∀ recomputed, samplePack forgedPack.evalSeedHex = .ok recomputed →
        forgedPack.events ≠ recomputed.events) ∧
    ∃ pack, samplePack (sampleSeed "0X" 62) = .ok pack ∧
      verifyQueryPack sampleHost tailDigest insertionSort pack sampleCorpus sampleProfile
        (some sampleOptions) ≠ .ok := by
  refine ⟨⟨?_, ?_⟩, ?_⟩
  · obtain ⟨pack, hpack, hids⟩ := samplePack_ok _ List.mem_cons_self
    exact verifyQueryPack_eq_ok.mpr ⟨rfl, pack, hpack, hids⟩
  · intro recomputed hrecomputed hsame
    have hmem : sampleEvent "zz_e3_q1" "in the drawer" ∈ sampleCorpus.events :=
      (recomputedPack_ok hrecomputed).2.2.2 _ (hsame ▸ List.mem_singleton_self _)
    have htexts := List.mem_map_of_mem
      (f := fun e => (e.id, e.truthDocuments.map TruthDocument.text)) hmem
    exact absurd htexts (by decide)
  · obtain ⟨pack, hpack, -⟩ := samplePack_ok _ (List.mem_cons_of_mem _ List.mem_cons_self)
    refine ⟨pack, hpack, fun hverify => ?_⟩
    obtain ⟨seed, hseed⟩ := evalSeedBytes_of_verify hverify
    rw [(recomputedPack_ok hpack).2.1] at hseed
    have hshort :
        (evalSeedBytes (publishedSeed sampleHost (sampleSeed "0X" 62))).toOption = none := by
      decide +kernel
    rw [hseed] at hshort
    cases hshort

end CoreTex.HiddenPack
