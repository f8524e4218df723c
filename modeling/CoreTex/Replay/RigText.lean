import CoreTex.Replay.RigDispatch

/-!
# CoreTex.Replay.RigText

The words, the tail, the topics and the data text of a rig log, each with what the two hosts take
(`tailBytes_eq_ok`, `topicNum_eq_ok`, `topicUint_eq_ok`).

Three forms of text are read alike: `PlainNumber`, `PlainHex` and an address word. A plain text is
read alike (`PlainNumber.reads`, `PlainHex.reads`, `IsAddressWord.reads`), and what is read alike
is plain (`PlainNumber.of_reads`, `PlainHex.of_reads`).
-/

namespace CoreTex.RigDispatch

open CoreTex.Lib

/-- The text of a root in both hosts: the TypeScript side writes `0x` before it. -/
def SameHex (ts : String) (py : PyStr) : Prop :=
  codes ts.toList = codes ['0', 'x'] ++ py

/-- The 32-byte word at `index`. -/
def slot (data : Bytes) (index : Nat) : Bytes :=
  (data.drop (index * 32)).take 32

/-! ### Words -/

theorem sameHex_bytesToHex (bytes : Bytes) : SameHex (bytesToHex bytes) (hexText bytes) := by
  rw [SameHex, toList_bytesToHex]
  rfl

/-- ASCII text is its own units. -/
theorem utf16_eq {s : List Char} (h : ∀ c ∈ s, c.toNat < 128) : utf16 s = s := by
  induction s with
  | nil => rfl
  | cons c s ih =>
      obtain ⟨hc, hs⟩ := List.forall_mem_cons.mp h
      have hcons : utf16 (c :: s) =
          (if c.toNat < 0x10000 then [c] else ['\uFFFD', '\uFFFD']) ++ utf16 s := rfl
      rw [hcons, if_pos (by omega), ih hs, List.singleton_append]

theorem isHex_hexChars (bytes : Bytes) : ∀ c ∈ hexChars bytes, IsHex c := by
  intro c hc
  obtain ⟨b, -, hb⟩ := List.mem_flatMap.mp hc
  have hlt : b.toNat < 256 := b.toNat_lt
  rw [hexByte, List.mem_cons, List.mem_singleton] at hb
  rcases hb with rfl | rfl
  · rw [IsHex, hexValue_hexDigit (by omega)]
    rfl
  · rw [IsHex, hexValue_hexDigit (by omega)]
    rfl

theorem hexToBytes_bytesToHex (bytes : Bytes) : hexToBytes (bytesToHex bytes) = .ok bytes := by
  have hascii : ∀ c ∈ (bytesToHex bytes).toList, c.toNat < 128 := by
    rw [toList_bytesToHex]
    exact List.forall_mem_cons.mpr ⟨by decide, List.forall_mem_cons.mpr ⟨by decide,
      fun c hc => (isHex_hexChars bytes c hc).ascii⟩⟩
  rw [hexToBytes, utf16_eq hascii, String.ofList_toList, CoreTex.hexToBytes_bytesToHex]
  rfl

theorem word_eq_ok {data : Bytes} {index : Nat} {text : String} :
    word data index = .ok text ↔
      index * 32 + 32 ≤ data.length ∧ bytesToHex (slot data index) = text := by
  rw [word, refuseIf_bind_eq_ok, pure_eq_ok, Nat.not_lt]
  rfl

theorem wordNum_eq_ok {data : Bytes} {index n : Nat} :
    wordNum data index = .ok n ↔
      index * 32 + 32 ≤ data.length ∧ readBE (slot data index) = n := by
  rw [wordNum, bind_eq_ok]
  constructor
  · rintro ⟨text, htext, h⟩
    obtain ⟨hlen, rfl⟩ := word_eq_ok.mp htext
    rw [hexToBytes_bytesToHex, ok_bind, pure_eq_ok] at h
    exact ⟨hlen, h⟩
  · rintro ⟨hlen, h⟩
    refine ⟨_, word_eq_ok.mpr ⟨hlen, rfl⟩, ?_⟩
    rw [hexToBytes_bytesToHex, ok_bind, pure_eq_ok]
    exact h

theorem pyWord_eq_ok {data : Bytes} {i : Nat} {field : String} {text : PyStr} :
    pyWord data i field = .ok text ↔
      i * 32 + 32 ≤ data.length ∧ hexText (slot data i) = text := by
  rw [pyWord, refuseIf_bind_eq_ok, pure_eq_ok, Nat.not_lt, Nat.add_mul, Nat.one_mul]
  rfl

theorem wordUint_eq_ok {data : Bytes} {i : Nat} {field : String} {bits n : Nat} :
    wordUint data i field bits = .ok n ↔
      i * 32 + 32 ≤ data.length ∧ readBE (slot data i) < 2 ^ bits ∧
        readBE (slot data i) = n := by
  have hread : ∀ bytes : Bytes, (fromHex (hexText bytes)).getD [] = bytes := by
    intro bytes
    rw [hexText, fromHex_hexChars, Option.getD_some]
  rw [wordUint, bind_eq_ok]
  constructor
  · rintro ⟨text, htext, h⟩
    obtain ⟨hlen, rfl⟩ := pyWord_eq_ok.mp htext
    dsimp only at h
    rw [hread, refuseIf_bind_eq_ok, pure_eq_ok, Nat.not_le] at h
    exact ⟨hlen, h⟩
  · rintro ⟨hlen, h⟩
    refine ⟨_, pyWord_eq_ok.mpr ⟨hlen, rfl⟩, ?_⟩
    dsimp only
    rw [hread, refuseIf_bind_eq_ok, pure_eq_ok, Nat.not_le]
    exact h

/-! ### The tail -/

/-- The length that the word at the offset declares. -/
def tailLength (data : Bytes) (offset : Nat) : Nat :=
  readBE ((data.drop offset).take 32)

/-- The data of an advance whose payload is at `offset`: word 8 names the offset, word 7 fits
16 bits, and after the length word come the payload and zeros up to a whole word, nothing
else. -/
structure AdvanceData (data : Bytes) (offset : Nat) : Prop where
  offset_word : readBE (slot data 8) = offset
  version : readBE (slot data 7) < 2 ^ 16
  length : data.length = offset + 32 + (tailLength data offset + 31) / 32 * 32
  padding : ∀ b ∈ data.drop (offset + 32 + tailLength data offset), b = 0

/-- What `_tail_bytes` asks of the offset of an advance. -/
def TailOffset (offset : Nat) : Prop :=
  9 * 32 ≤ offset ∧ offset < 2 ^ 64

theorem tailBytes_eq_ok {data : Bytes} {field : String} {payload : Bytes}
    (hwords : data.length % 32 = 0) :
    tailBytes data 8 9 field = .ok payload ↔
      ∃ offset, TailOffset offset ∧ readBE (slot data 8) = offset ∧
        data.length = offset + 32 + (tailLength data offset + 31) / 32 * 32 ∧
        (∀ b ∈ data.drop (offset + 32 + tailLength data offset), b = 0) ∧
        (data.drop (offset + 32)).take (tailLength data offset) = payload := by
  rw [tailBytes, bind_eq_ok]
  constructor
  · rintro ⟨offset, hoffset, h⟩
    obtain ⟨-, hlt, hword⟩ := wordUint_eq_ok.mp hoffset
    simp only [refuseIf_bind_eq_ok, pure_eq_ok, Nat.not_lt, not_not] at h
    obtain ⟨-, hhead, hend, -, hlength, hpad, rfl⟩ := h
    refine ⟨offset, ⟨hhead, hword ▸ hlt⟩, hword, ?_, ?_, rfl⟩
    · unfold tailLength
      omega
    · intro b hb
      unfold tailLength at hb
      rw [hpad] at hb
      exact List.eq_of_mem_replicate hb
  · rintro ⟨offset, ⟨hhead, hlt⟩, hword, hlength, hpad, rfl⟩
    refine ⟨offset, wordUint_eq_ok.mpr ⟨by omega, hword ▸ hlt, hword⟩, ?_⟩
    simp only [refuseIf_bind_eq_ok, pure_eq_ok, Nat.not_lt, not_not]
    unfold tailLength at hlength hpad
    refine ⟨by omega, hhead, by omega, by omega, by omega, ?_, rfl⟩
    refine List.eq_replicate_iff.mpr ⟨?_, hpad⟩
    rw [List.length_drop]
    omega

/-! ### Topics and data -/

/-- What `from_0x` makes of text. -/
def PyHex (text : String) (bytes : Bytes) : Prop :=
  (strip0x text.toList).length % 2 = 0 ∧ fromHex (codes (strip0x text.toList)) = some bytes

theorem PyHex.unique {text : String} {a b : Bytes} (ha : PyHex text a) (hb : PyHex text b) :
    a = b :=
  Option.some.inj (ha.2.symm.trans hb.2)

theorem from0x_eq_ok {text field : String} {bytes : Bytes} :
    from0x text field = .ok bytes ↔ PyHex text bytes := by
  rw [from0x, PyHex]
  rw [refuseIf_bind_eq_ok, not_not]
  cases fromHex (codes (strip0x text.toList)) with
  | none => simp
  | some b => simp

theorem topic_eq_ok {log : RpcLog} {index : Nat} {field : String} {bytes : Bytes} :
    topic log index field = .ok bytes ↔
      ∃ text, log.topics[index]? = some text ∧ PyHex text bytes ∧ bytes.length = 32 := by
  rw [topic]
  cases log.topics[index]? with
  | none => simp
  | some text =>
      simp only [bind_eq_ok, from0x_eq_ok, refuseIf_eq_ok, pure_eq_ok, not_not, Option.some.injEq,
        exists_eq_left']
      constructor
      · rintro ⟨raw, hraw, -, hlen, rfl⟩
        exact ⟨hraw, hlen⟩
      · rintro ⟨hraw, hlen⟩
        exact ⟨bytes, hraw, (), hlen, rfl⟩

theorem topicUint_eq_ok {log : RpcLog} {index : Nat} {field : String} {bits n : Nat} :
    topicUint log index field bits = .ok n ↔
      ∃ text bytes, log.topics[index]? = some text ∧ PyHex text bytes ∧ bytes.length = 32 ∧
        readBE bytes < 2 ^ bits ∧ readBE bytes = n := by
  rw [topicUint, bind_eq_ok]
  simp only [topic_eq_ok, refuseIf_bind_eq_ok, pure_eq_ok, Nat.not_le]
  constructor
  · rintro ⟨bytes, ⟨text, htext, hhex, hlen⟩, h⟩
    exact ⟨text, bytes, htext, hhex, hlen, h⟩
  · rintro ⟨text, bytes, htext, hhex, hlen, h⟩
    exact ⟨bytes, ⟨text, htext, hhex, hlen⟩, h⟩

theorem pyTopicAddress_eq_ok {log : RpcLog} {index : Nat} {field : String} {address : PyStr} :
    pyTopicAddress log index field = .ok address ↔
      ∃ text bytes, log.topics[index]? = some text ∧ PyHex text bytes ∧ bytes.length = 32 ∧
        bytes.take 12 = List.replicate 12 0 ∧
        codes ['0', 'x'] ++ hexText (bytes.drop 12) = address := by
  rw [pyTopicAddress, bind_eq_ok]
  simp only [topic_eq_ok, refuseIf_bind_eq_ok, pure_eq_ok, not_not]
  constructor
  · rintro ⟨bytes, ⟨text, htext, hhex, hlen⟩, h⟩
    exact ⟨text, bytes, htext, hhex, hlen, h⟩
  · rintro ⟨text, bytes, htext, hhex, hlen, h⟩
    exact ⟨bytes, ⟨text, htext, hhex, hlen⟩, h⟩

theorem logData_eq_ok {log : RpcLog} {data : Bytes} :
    logData log = .ok data ↔ PyHex log.data data ∧ data.length % 32 = 0 := by
  rw [logData, bind_eq_ok]
  simp only [from0x_eq_ok, refuseIf_bind_eq_ok, pure_eq_ok, not_not]
  constructor
  · rintro ⟨raw, hraw, hlen, rfl⟩
    exact ⟨hraw, hlen⟩
  · rintro ⟨hraw, hlen⟩
    exact ⟨data, hraw, hlen, rfl⟩

theorem topicNum_eq_ok {log : RpcLog} {index : Nat} {n : Int} :
    topicNum log index = .ok n ↔
      ∃ text, log.topics[index]? = some text ∧ text ≠ "" ∧ bigInt text = some n := by
  rw [topicNum]
  rw [refuseIf_bind_eq_ok]
  cases log.topics[index]? with
  | none => simp
  | some text =>
      simp only [Option.getD_some, Option.some.injEq, exists_eq_left']
      refine and_congr_right fun _ => ?_
      cases bigInt text with
      | none => simp
      | some m => simp

theorem topicAddress_eq_ok {log : RpcLog} {index : Nat} {address : String} :
    topicAddress log index = .ok address ↔
      IsAddressWord (after0x (log.topics[index]?.getD "").toList) ∧
        "0x" ++ (String.ofList ((after0x (log.topics[index]?.getD "").toList).drop 24)).toLower =
          address := by
  rw [topicAddress]
  rw [refuseIf_bind_eq_ok, pure_eq_ok, not_or, not_not, not_not]
  refine and_congr_left fun _ => and_iff_right_of_imp fun h => h.1

/-! ### Number topics -/

/-- The text of a number topic that both hosts read alike: `0x` and 64 hex digits, or 63 zeros
and a decimal digit. Blanks may follow, and bare digits may have them in front, an even number
in all. -/
def PlainNumber (text : String) : Prop :=
  (∃ x digits trail, (x = 'x' ∨ x = 'X') ∧ text.toList = '0' :: x :: (digits ++ trail) ∧
    digits.length = 64 ∧ (∀ c ∈ digits, IsHex c) ∧ readBE (hexSpelled digits) < 2 ^ 64 ∧
    (∀ c ∈ trail, IsBlank c) ∧ trail.length % 2 = 0) ∨
  ∃ lead d trail, text.toList = lead ++ (List.replicate 63 '0' ++ [d]) ++ trail ∧
    d ∈ ['0', '1', '2', '3', '4', '5', '6', '7', '8', '9'] ∧ (∀ c ∈ lead, IsBlank c) ∧
    (∀ c ∈ trail, IsBlank c) ∧ (lead.length + trail.length) % 2 = 0

theorem strip0x_marked {x : Char} (hx : x = 'x' ∨ x = 'X') (rest : List Char) :
    strip0x ('0' :: x :: rest) = rest := by
  rcases hx with rfl | rfl
  · rfl
  · rfl

/-- Text that does not lose a `0x` starts with none. -/
theorem strip0x_cases (s : List Char) :
    (∃ x, (x = 'x' ∨ x = 'X') ∧ s = '0' :: x :: strip0x s) ∨ strip0x s = s := by
  unfold strip0x
  split
  · exact .inl ⟨_, .inl rfl, rfl⟩
  · exact .inl ⟨_, .inr rfl, rfl⟩
  · exact .inr rfl

theorem strip0x_bare {s : List Char} (hs : ∀ e ∈ s, IsBlank e ∨ IsHex e) : strip0x s = s := by
  rcases strip0x_cases s with ⟨x, hx, heq⟩ | heq
  · have hmem : x ∈ s := by
      rw [heq]
      exact List.mem_cons_of_mem _ List.mem_cons_self
    have hclean : ¬ IsBlank 'x' ∧ ¬ IsHex 'x' ∧ ¬ IsBlank 'X' ∧ ¬ IsHex 'X' := by decide
    rcases hx with rfl | rfl
    · exact absurd (hs _ hmem) (not_or.mpr ⟨hclean.1, hclean.2.1⟩)
    · exact absurd (hs _ hmem) (not_or.mpr ⟨hclean.2.2.1, hclean.2.2.2⟩)
  · exact heq

theorem countP_isHex_blanks {blanks : List Char} (h : ∀ c ∈ blanks, IsBlank c) :
    blanks.countP (fun c => decide (IsHex c)) = 0 := by
  rw [List.countP_eq_zero]
  intro c hc
  simpa using fun hhex : IsHex c => hhex.not_blank (h c hc)

theorem countP_isHex_digits {digits : List Char} (h : ∀ c ∈ digits, IsHex c) :
    digits.countP (fun c => decide (IsHex c)) = digits.length := by
  rw [List.countP_eq_length]
  intro c hc
  simpa using h c hc

/-- Digits with blanks around them, as `bytes.fromhex` reads them. -/
theorem fromHex_padded {lead digits trail : List Char} (hlead : ∀ c ∈ lead, IsBlank c)
    (hdigits : ∀ c ∈ digits, IsHex c) (heven : digits.length % 2 = 0)
    (htrail : ∀ c ∈ trail, IsBlank c) :
    fromHex (codes (lead ++ digits ++ trail)) = some (hexSpelled digits) := by
  have hsplit : codes (lead ++ digits ++ trail) = codes lead ++ (codes digits ++ codes trail) := by
    simp [codes]
  rw [hsplit, fromHex_blanks_append hlead, fromHex_digits_append hdigits heven,
    fromHex_blanks htrail, Option.map_some, List.append_nil]

/-- The bytes of digits, read as one number. -/
theorem readDigits_eq_readBE {digits : List Char} (h : ∀ c ∈ digits, IsHex c)
    (heven : digits.length % 2 = 0) :
    readDigits 16 0 digits = some (readBE (hexSpelled digits)) := by
  rw [readDigits_hexSpelled h heven, Nat.zero_mul, Nat.zero_add]

/-- A bare number of 63 zeros and a digit. -/
theorem readDigits_zeros {d : Char} {v base : Nat} (hv : hexValue d.toNat = some v)
    (hlt : v < base) (hbase : 0 < base) (k : Nat) :
    readDigits base 0 (List.replicate k '0' ++ [d]) = some v := by
  have hzero : hexValue '0'.toNat = some 0 := by decide
  induction k with
  | zero =>
      rw [List.replicate_zero, List.nil_append, readDigits, hv]
      dsimp only
      rw [if_pos hlt, readDigits, Nat.zero_mul, Nat.zero_add]
  | succ k ih =>
      rw [List.replicate_succ, List.cons_append, readDigits, hzero]
      dsimp only
      rw [if_pos hbase, Nat.zero_mul, Nat.zero_add, ih]

/-- A plain number is one number below `2 ^ 64` to both hosts. -/
theorem PlainNumber.reads {text : String} (h : PlainNumber text) :
    ∃ bytes, PyHex text bytes ∧ bytes.length = 32 ∧ readBE bytes < 2 ^ 64 ∧ text ≠ "" ∧
      bigInt text = some (readBE bytes : Int) := by
  have hne : ∀ c s, text.toList = c :: s → text ≠ "" := by
    rintro c s hs rfl
    cases hs
  rcases h with ⟨x, digits, trail, hx, htext, hlen, hdigits, hlt, htrail, heven⟩ |
    ⟨lead, d, trail, htext, hd, hlead, htrail, heven⟩
  · have hpairs : digits.length % 2 = 0 := by omega
    have hbytes := length_hexSpelled hpairs
    refine ⟨hexSpelled digits, ⟨?_, ?_⟩, by omega, hlt, hne _ _ htext, ?_⟩
    · rw [htext, strip0x_marked hx, List.length_append]
      omega
    · rw [htext, strip0x_marked hx]
      exact fromHex_padded (List.forall_mem_nil _) hdigits hpairs htrail
    · have hclean : ∀ c ∈ '0' :: x :: digits, isJsSpace c = false := by
        have hmark : isJsSpace '0' = false ∧ isJsSpace 'x' = false ∧ isJsSpace 'X' = false := by
          decide
        refine List.forall_mem_cons.mpr ⟨hmark.1, List.forall_mem_cons.mpr ⟨?_, ?_⟩⟩
        · rcases hx with rfl | rfl
          · exact hmark.2.1
          · exact hmark.2.2
        · exact fun c hc => (hdigits c hc).not_space
      have htrim : jsTrim text.toList = '0' :: x :: digits := by
        rw [htext]
        exact jsTrim_append (List.forall_mem_nil _) (fun c hc => (htrail c hc).space) hclean
          (List.cons_ne_nil _ _)
      rw [bigInt_eq_body, htrim, bigIntBody_hex hx, readAllDigits_eq_some]
      refine ⟨?_, _, readDigits_eq_readBE hdigits hpairs, rfl⟩
      rintro rfl
      cases hlen
  · let digits := List.replicate 63 '0' ++ [d]
    have hdhex : IsHex d := by
      have hall : ∀ d ∈ ['0', '1', '2', '3', '4', '5', '6', '7', '8', '9'], IsHex d :=
        forall_mem_of_all (by decide)
      exact hall d hd
    have hdigits : ∀ c ∈ digits, IsHex c := by
      intro c hc
      rcases List.mem_append.mp hc with hc | hc
      · rw [List.eq_of_mem_replicate hc]
        decide
      · rw [List.mem_singleton.mp hc]
        exact hdhex
    have hlen : digits.length = 64 := by simp [digits]
    have hpairs : digits.length % 2 = 0 := by omega
    have hbytes := length_hexSpelled hpairs
    obtain ⟨v, hv⟩ := Option.isSome_iff_exists.mp hdhex
    have hv10 : v < 10 := by
      have hall : ∀ d ∈ ['0', '1', '2', '3', '4', '5', '6', '7', '8', '9'],
          (hexValue d.toNat).getD 0 < 10 := forall_mem_of_all (by decide)
      have := hall d hd
      rwa [hv, Option.getD_some] at this
    have hvalue : readBE (hexSpelled digits) = v := by
      have hread := readDigits_eq_readBE hdigits hpairs
      rw [readDigits_zeros hv (by omega) (by decide)] at hread
      exact (Option.some.inj hread).symm
    have hbare : strip0x text.toList = text.toList := by
      have hall : ∀ c ∈ text.toList, IsBlank c ∨ IsHex c := by
        rw [htext]
        intro c hc
        rcases List.mem_append.mp hc with hc | hc
        · rcases List.mem_append.mp hc with hc | hc
          · exact .inl (hlead c hc)
          · exact .inr (hdigits c hc)
        · exact .inl (htrail c hc)
      exact strip0x_bare hall
    refine ⟨hexSpelled digits, ⟨?_, ?_⟩, by omega, by omega, ?_, ?_⟩
    · rw [hbare, htext]
      simp only [List.length_append, List.length_replicate, List.length_singleton]
      omega
    · rw [hbare, htext]
      exact fromHex_padded hlead hdigits hpairs htrail
    · rintro rfl
      have := congrArg List.length htext
      simp at this
    · have htrim : jsTrim text.toList = digits := by
        rw [htext]
        exact jsTrim_append (fun c hc => (hlead c hc).space) (fun c hc => (htrail c hc).space)
          (fun c hc => (hdigits c hc).not_space) (by simp)
      rw [bigInt_eq_body, htrim, hvalue]
      show (readAllDigits 10 digits).map (fun n => 1 * n) = _
      rw [readAllDigits_eq_some.mpr ⟨by simp, v, readDigits_zeros hv hv10 (by decide) 63,
        rfl⟩, Option.map_some, one_mul]

/-- A number that both hosts read as the same number below `2 ^ 64` is a plain one. -/
theorem PlainNumber.of_reads {text : String} {bytes : Bytes} (hhex : PyHex text bytes)
    (hlen : bytes.length = 32) (hlt : readBE bytes < 2 ^ 64)
    (hbig : bigInt text = some (readBE bytes : Int)) : PlainNumber text := by
  obtain ⟨heven, hfrom⟩ := hhex
  obtain ⟨hall, hcount⟩ := fromHex_eq_some hfrom
  rw [bigInt_eq_body] at hbig
  have hblank : ∀ c ∈ strip0x text.toList, isJsSpace c = true → IsBlank c := by
    intro c hc hspace
    rcases hall c hc with hhex | hblank
    · rw [hhex.not_space] at hspace
      cases hspace
    · exact hblank
  rcases strip0x_cases text.toList with ⟨x, hx, hmark⟩ | hbare
  · -- the text keeps its `0x`, so nothing is trimmed in front
    have hxspace : isJsSpace x = false := by
      rcases hx with rfl | rfl
      · decide
      · decide
    obtain ⟨rest, trail, hcs, hrest, htrail⟩ :=
      jsTrim_cons_cons (by decide : isJsSpace '0' = false) hxspace (strip0x text.toList)
    rw [← hmark] at hcs
    rw [hcs] at hbig
    rw [bigIntBody_hex hx] at hbig
    obtain ⟨-, m, hm, -⟩ := readAllDigits_eq_some.mp hbig
    have hdigits := readDigits_isHex hm
    rw [hrest] at hall hcount heven hfrom hblank
    have htrail : ∀ c ∈ trail, IsBlank c := fun c hc =>
      hblank c (List.mem_append_right _ hc) (htrail c hc)
    rw [List.countP_append, countP_isHex_digits hdigits, countP_isHex_blanks htrail] at hcount
    rw [List.length_append] at heven
    have hbytes : bytes = hexSpelled rest := by
      have := fromHex_padded (List.forall_mem_nil _) hdigits (by omega) htrail
      exact Option.some.inj (hfrom.symm.trans this)
    subst hbytes
    exact .inl ⟨x, rest, trail, hx, by rw [hmark, hrest], by omega, hdigits, hlt, htrail, by omega⟩
  · rw [hbare] at hall hcount heven hfrom hblank
    obtain ⟨lead, trail, hsplit, hlead, htrail⟩ := jsTrim_spec text.toList
    generalize jsTrim text.toList = cs at hsplit hbig
    rw [hsplit] at hall hcount heven hfrom hblank
    have hlead : ∀ c ∈ lead, IsBlank c := fun c hc =>
      hblank c (List.mem_append_left _ (List.mem_append_left _ hc)) (hlead c hc)
    have htrail : ∀ c ∈ trail, IsBlank c := fun c hc =>
      hblank c (List.mem_append_right _ hc) (htrail c hc)
    rw [List.countP_append, List.countP_append, countP_isHex_blanks hlead,
      countP_isHex_blanks htrail] at hcount
    have hcs : ∀ c ∈ cs, IsHex c ∨ IsBlank c := fun c hc =>
      hall c (List.mem_append_left _ (List.mem_append_right _ hc))
    -- digits only: then the bytes are what they spell
    have hspell : (∀ c ∈ cs, IsHex c) → cs.length = 64 ∧
        readDigits 16 0 cs = some (readBE bytes) := by
      intro hdigits
      rw [countP_isHex_digits hdigits] at hcount
      have hpairs : cs.length % 2 = 0 := by omega
      have hbytes : bytes = hexSpelled cs :=
        Option.some.inj (hfrom.symm.trans (fromHex_padded hlead hdigits hpairs htrail))
      rw [hbytes]
      exact ⟨by omega, readDigits_eq_readBE hdigits hpairs⟩
    have hforeign : ∀ x ∈ ['x', 'X', 'o', 'O', '-', '+'], ¬ (IsHex x ∨ IsBlank x) :=
      forall_mem_of_all (by decide)
    rcases bigIntBody_eq_some hbig with rfl | ⟨x, rest, hx, rfl, -⟩ | ⟨x, rest, hx, rfl⟩ |
      ⟨x, rest, hx, rfl, hbits⟩ | ⟨x, rest, hx, rfl⟩ | hdecimal
    · rw [List.countP_nil] at hcount
      omega
    · refine absurd (hcs x (by simp)) (hforeign x ?_)
      rcases hx with rfl | rfl
      · decide
      · decide
    · refine absurd (hcs x (by simp)) (hforeign x ?_)
      rcases hx with rfl | rfl
      · decide
      · decide
    · -- a binary number: its `b` is a hex digit that makes the bytes too wide
      obtain ⟨-, m, hm, -⟩ := readAllDigits_eq_some.mp hbits
      have hxhex : IsHex x ∧ hexValue x.toNat = some 11 := by
        rcases hx with rfl | rfl
        · decide
        · decide
      obtain ⟨hlen64, hread⟩ := hspell (List.forall_mem_cons.mpr ⟨by decide,
        List.forall_mem_cons.mpr ⟨hxhex.1, readDigits_isHex hm⟩⟩)
      obtain ⟨v, hv, -, hread⟩ := readDigits_cons hread
      obtain ⟨w, hw, -, hread⟩ := readDigits_cons hread
      rw [hxhex.2] at hw
      cases hw
      have hge := readDigits_ge hread
      simp only [List.length_cons] at hlen64
      have hrest : rest.length = 62 := by omega
      rw [hrest] at hge
      have : 11 * 16 ^ 62 ≤ readBE bytes := le_trans (Nat.mul_le_mul_right _ (by omega)) hge
      omega
    · refine absurd (hcs x (by simp)) (hforeign x ?_)
      rcases hx with rfl | rfl
      · decide
      · decide
    · obtain ⟨hne, m, hm, hcast⟩ := readAllDigits_eq_some.mp hdecimal
      obtain rfl : m = readBE bytes := by exact_mod_cast hcast
      obtain ⟨hlen64, hread⟩ := hspell (readDigits_isHex hm)
      obtain ⟨d, hd, hten, hvalue⟩ := eq_zeros_of_readDigits hne hm hread
      rw [hlen64] at hd
      have hdecimal : d ∈ ['0', '1', '2', '3', '4', '5', '6', '7', '8', '9'] := by
        have hall : ∀ d ∈ hexAlphabet, (hexValue d.toNat).getD 10 < 10 →
            d ∈ ['0', '1', '2', '3', '4', '5', '6', '7', '8', '9'] := forall_mem_of_all (by decide)
        have hdhex : IsHex d := by
          rw [IsHex, hvalue]
          rfl
        refine hall d hdhex.mem_alphabet ?_
        rw [hvalue]
        exact hten
      refine .inr ⟨lead, d, trail, by rw [hsplit, hd], hdecimal, hlead, htrail, ?_⟩
      simp only [List.length_append] at heven
      omega

/-! ### Hex data -/

/-- Text of hex digits, two a byte, with or without `0x` before them. -/
def PlainHex (text : String) (bytes : Bytes) : Prop :=
  ∃ digits, (text.toList = '0' :: 'x' :: digits ∨ text.toList = digits) ∧
    (∀ c ∈ digits, IsHex c) ∧ digits.length % 2 = 0 ∧ hexSpelled digits = bytes

theorem hexPairs_eq_hexSpelled {digits : List Char} (h : ∀ c ∈ digits, IsHex c)
    (heven : digits.length % 2 = 0) : hexPairs digits = hexSpelled digits := by
  induction digits, heven using pairsInduction with
  | nil => rfl
  | pair a b digits heven _ ih =>
      obtain ⟨ha, hb⟩ := List.forall_mem_cons.mp h
      obtain ⟨hb, hdigits⟩ := List.forall_mem_cons.mp hb
      obtain ⟨high, hhigh⟩ := Option.isSome_iff_exists.mp ha
      obtain ⟨low, hlow⟩ := Option.isSome_iff_exists.mp hb
      have hhi := hexValue_lt hhigh
      have hlo := hexValue_lt hlow
      have hpair : hexPairByte a b = UInt8.ofNat (high * 16 + low) := by
        rw [hexPairByte, parseIntHex_pair ha hb, hhigh, hlow]
        dsimp only [Option.getD_some]
        have hmod : (((high * 16 + low : Nat) : Int) % 256).toNat = high * 16 + low := by omega
        rw [hmod]
      rw [hexPairs, hexSpelled, hpair, ih hdigits, hhigh, hlow, Option.getD_some, Option.getD_some]

theorem length_hexPairs {s : List Char} (heven : s.length % 2 = 0) :
    2 * (hexPairs s).length = s.length := by
  induction s, heven using pairsInduction with
  | nil => rfl
  | pair a b s heven _ ih =>
      simp only [hexPairs, List.length_cons]
      omega

theorem hexToBytes_eq_ok {text : String} {bytes : Bytes} :
    hexToBytes text = .ok bytes ↔
      (after0x (utf16 text.toList)).length % 2 = 0 ∧
        hexPairs (after0x (utf16 text.toList)) = bytes := by
  have hread : CoreTex.hexToBytes (String.ofList (utf16 text.toList)) =
      if (after0x (utf16 text.toList)).length % 2 ≠ 0 then
        .error (rangeError "hexToBytes: odd-length hex string")
      else .ok (hexPairs (after0x (utf16 text.toList))) := by
    rw [CoreTex.hexToBytes, String.toList_ofList]
    rfl
  rw [hexToBytes, hread]
  by_cases heven : (after0x (utf16 text.toList)).length % 2 = 0
  · rw [if_neg (not_not.mpr heven)]
    simp [heven]
  · rw [if_pos heven]
    simp [heven]

theorem after0x_bare {s : List Char} (h : strip0x s = s) : after0x s = s := by
  unfold after0x
  split
  · rename_i rest
    have hrest : rest = '0' :: 'x' :: rest := h
    have hlength := congrArg List.length hrest
    simp only [List.length_cons] at hlength
    omega
  · rfl

/-- Plain hex is read alike by both hosts. -/
theorem PlainHex.reads {text : String} {bytes : Bytes} (h : PlainHex text bytes) :
    hexToBytes text = .ok bytes ∧ PyHex text bytes := by
  obtain ⟨digits, htext, hdigits, heven, rfl⟩ := h
  have hunits : utf16 text.toList = text.toList := by
    apply utf16_eq
    intro c hc
    rcases htext with htext | htext
    · rw [htext] at hc
      rcases List.mem_cons.mp hc with rfl | hc
      · decide
      · rcases List.mem_cons.mp hc with rfl | hc
        · decide
        · exact (hdigits c hc).ascii
    · exact (hdigits c (htext ▸ hc)).ascii
  have hstrip : strip0x text.toList = digits ∧ after0x text.toList = digits := by
    rcases htext with htext | htext
    · rw [htext]
      exact ⟨rfl, rfl⟩
    · have hbare := strip0x_bare fun c hc => Or.inr (hdigits c hc)
      rw [htext]
      exact ⟨hbare, after0x_bare hbare⟩
  refine ⟨hexToBytes_eq_ok.mpr ?_, ?_⟩
  · rw [hunits, hstrip.2]
    exact ⟨heven, hexPairs_eq_hexSpelled hdigits heven⟩
  · rw [PyHex, hstrip.1]
    exact ⟨heven, fromHex_digits hdigits heven⟩

/-- Text that both hosts read, and that is no longer to the first, is plain: each blank or
foreign character would be a byte to `hexToBytes` and none to `bytes.fromhex`. -/
theorem PlainHex.of_reads {text : String} {a b : Bytes} (ha : hexToBytes text = .ok a)
    (hb : PyHex text b) (hle : a.length ≤ b.length) : PlainHex text a ∧ a = b := by
  obtain ⟨heven, hfrom⟩ := hb
  obtain ⟨hall, hcount⟩ := fromHex_eq_some hfrom
  have hascii : ∀ c ∈ strip0x text.toList, c.toNat < 128 := fun c hc =>
    (hall c hc).elim IsHex.ascii IsBlank.ascii
  obtain ⟨hpairs, rfl⟩ := hexToBytes_eq_ok.mp ha
  have hlength := length_hexPairs hpairs
  have hcountle := (strip0x text.toList).countP_le_length (p := fun c => decide (IsHex c))
  -- as long as the stripped text, so every character of it is a digit
  have hplain : after0x (utf16 text.toList) = strip0x text.toList →
      (text.toList = '0' :: 'x' :: strip0x text.toList ∨ text.toList = strip0x text.toList) →
      PlainHex text (hexPairs (after0x (utf16 text.toList))) ∧
        hexPairs (after0x (utf16 text.toList)) = b := by
    intro hafter htext
    rw [hafter] at hlength hle ⊢
    have hdigits : ∀ c ∈ strip0x text.toList, IsHex c := by
      have := List.countP_eq_length.mp (by omega : (strip0x text.toList).countP
        (fun c => decide (IsHex c)) = (strip0x text.toList).length)
      intro c hc
      simpa using this c hc
    have hspell := hexPairs_eq_hexSpelled hdigits heven
    rw [hspell]
    exact ⟨⟨_, htext, hdigits, heven, rfl⟩,
      Option.some.inj ((fromHex_digits hdigits heven).symm.trans hfrom)⟩
  rcases strip0x_cases text.toList with ⟨x, hx, hmark⟩ | hbare
  · have hunits : utf16 text.toList = text.toList := by
      apply utf16_eq
      rw [hmark]
      refine List.forall_mem_cons.mpr ⟨by decide, List.forall_mem_cons.mpr ⟨?_, hascii⟩⟩
      rcases hx with rfl | rfl
      · decide
      · decide
    rcases hx with rfl | rfl
    · refine hplain ?_ (.inl hmark)
      rw [hunits, hmark]
      rfl
    · -- `0X` is two more characters to `hexToBytes`
      have hafter : after0x (utf16 text.toList) = text.toList := by
        rw [hunits, hmark]
        rfl
      rw [hafter] at hlength hle
      have htwo := congrArg List.length hmark
      simp only [List.length_cons] at htwo
      omega
  · have hunits : utf16 text.toList = text.toList := utf16_eq (hbare ▸ hascii)
    refine hplain ?_ (.inr hbare.symm)
    rw [hunits, after0x_bare hbare, hbare]

/-! ### Address topics -/

theorem hexSpelled_append {a : List Char} (heven : a.length % 2 = 0) (b : List Char) :
    hexSpelled (a ++ b) = hexSpelled a ++ hexSpelled b := by
  induction a, heven using pairsInduction with
  | nil => rfl
  | pair x y a heven _ ih =>
      simp only [List.cons_append, hexSpelled, ih]

/-- Digits in lower case are the text of the bytes they spell. -/
theorem map_toLower_digits {digits : List Char} (h : ∀ c ∈ digits, IsHex c)
    (heven : digits.length % 2 = 0) :
    digits.map Char.toLower = hexChars (hexSpelled digits) := by
  have hall : ∀ a ∈ hexAlphabet, ∀ b ∈ hexAlphabet, [a.toLower, b.toLower] = hexByte
      (UInt8.ofNat ((hexValue a.toNat).getD 0 * 16 + (hexValue b.toNat).getD 0)) :=
    forall_mem_pairs (by decide +kernel)
  induction digits, heven using pairsInduction with
  | nil => rfl
  | pair a b digits heven _ ih =>
      obtain ⟨ha, hb⟩ := List.forall_mem_cons.mp h
      obtain ⟨hb, hdigits⟩ := List.forall_mem_cons.mp hb
      have hpair := hall a ha.mem_alphabet b hb.mem_alphabet
      have hcons : hexChars (hexSpelled (a :: b :: digits)) = hexByte (UInt8.ofNat
          ((hexValue a.toNat).getD 0 * 16 + (hexValue b.toNat).getD 0)) ++
          hexChars (hexSpelled digits) := rfl
      rw [hcons, ← hpair, ← ih hdigits]
      rfl

/-- What the TypeScript side takes for an address, the Python side reads as the same one. -/
theorem IsAddressWord.reads {text : String} (h : IsAddressWord (after0x text.toList)) :
    ∃ bytes, PyHex text bytes ∧ bytes.length = 32 ∧ bytes.take 12 = List.replicate 12 0 ∧
      codes ("0x" ++ (String.ofList ((after0x text.toList).drop 24)).toLower).toList =
        codes ['0', 'x'] ++ hexText (bytes.drop 12) := by
  generalize hvalue : after0x text.toList = value at h
  obtain ⟨hlen, hzeros, hlow⟩ := h
  have hsplit : value = List.replicate 24 '0' ++ value.drop 24 := by
    rw [← hzeros, List.take_append_drop]
  have hlowlen : (value.drop 24).length = 40 := by
    rw [List.length_drop, hlen]
  have hdigits : ∀ c ∈ value, IsHex c := by
    rw [hsplit]
    intro c hc
    rcases List.mem_append.mp hc with hc | hc
    · rw [List.eq_of_mem_replicate hc]
      decide
    · exact hlow c hc
  have hstrip : strip0x text.toList = value := by
    unfold after0x at hvalue
    split at hvalue
    · rename_i rest heq
      rw [heq, ← hvalue]
      rfl
    · rw [hvalue]
      exact strip0x_bare fun c hc => .inr (hdigits c hc)
  have hspell : hexSpelled value = List.replicate 12 0 ++ hexSpelled (value.drop 24) := by
    conv_lhs => rw [hsplit]
    rw [hexSpelled_append (by rw [List.length_replicate])]
    rfl
  have hbytes := length_hexSpelled (by omega : (value.drop 24).length % 2 = 0)
  refine ⟨hexSpelled value, ⟨?_, ?_⟩, ?_, ?_, ?_⟩
  · rw [hstrip]
    omega
  · rw [hstrip]
    exact fromHex_digits hdigits (by omega)
  · rw [hspell, List.length_append, List.length_replicate]
    omega
  · rw [hspell]
    exact List.take_left' (List.length_replicate)
  · have hlower := map_toLower_digits hlow (by omega)
    rw [hspell, List.drop_left' (List.length_replicate)]
    have htext : ("0x" ++ (String.ofList (value.drop 24)).toLower).toList =
        '0' :: 'x' :: (value.drop 24).map Char.toLower := by
      rw [String.toList_append, toList_toLower, String.toList_ofList, String.toList_ofList]
      rfl
    rw [htext, hlower]
    rfl

/-! ### Topic 0 -/

/-- Only ASCII letters change, and to ASCII letters. -/
theorem toLower_ascii {c d : Char} (h : c.toLower = d) (hd : d.toNat < 128) : c.toNat < 128 := by
  by_contra hc
  have hsame : c.toLower = c := by
    unfold Char.toLower
    rw [dif_neg]
    rintro ⟨-, hle⟩
    have hninety : c.toNat ≤ 90 := UInt32.le_iff_toNat_le.mp hle
    omega
  rw [hsame] at h
  exact hc (h ▸ hd)

theorem hexValue_of_toLower {c : Char} {n : Nat} (hn : n < 16) (h : c.toLower = hexDigit n) :
    hexValue c.toNat = some n := by
  have hdigit : ∀ n : Fin 16, (hexDigit n).toNat < 128 := by decide
  have hc := toLower_ascii h (hdigit ⟨n, hn⟩)
  have hall : ∀ m : Fin 128, ∀ n : Fin 16, (Char.ofNat m).toLower = hexDigit n →
      hexValue (Char.ofNat m).toNat = some n.val := by
    decide +kernel
  have := hall ⟨c.toNat, hc⟩ ⟨n, hn⟩
  rw [Char.ofNat_toNat] at this
  exact this h

theorem eq_mark_of_toLower {c : Char} (h : c.toLower = 'x') : c = 'x' ∨ c = 'X' := by
  have hc := toLower_ascii h (by decide)
  have hall : ∀ m : Fin 128, (Char.ofNat m).toLower = 'x' →
      Char.ofNat m = 'x' ∨ Char.ofNat m = 'X' := by
    decide +kernel
  have := hall ⟨c.toNat, hc⟩
  rw [Char.ofNat_toNat] at this
  exact this h

/-- Text that is a hash in lower case is read as that hash, whatever the case of its letters. -/
theorem pyHex_of_toLower {text : String} {bytes : Bytes} (h : text.toLower = bytesToHex bytes) :
    PyHex text bytes := by
  have hchars : text.toList.map Char.toLower = '0' :: 'x' :: hexChars bytes := by
    rw [← toList_bytesToHex, ← h, toList_toLower]
  obtain ⟨zero, tail, htext, hzero, htail⟩ := List.map_eq_cons_iff.mp hchars
  obtain ⟨mark, digits, rfl, hmark, hdigits⟩ := List.map_eq_cons_iff.mp htail
  have hzero : zero = '0' := by
    have hvalue := hexValue_of_toLower (by decide : 0 < 16) hzero
    have hall : ∀ c ∈ hexAlphabet, hexValue c.toNat = some 0 → c = '0' :=
      forall_mem_of_all (by decide)
    exact hall zero (IsHex.mem_alphabet (by rw [IsHex, hvalue]; rfl)) hvalue
  subst hzero
  have hhex : ∀ c ∈ digits, IsHex c := by
    intro c hc
    have hmem : c.toLower ∈ hexChars bytes := hdigits ▸ List.mem_map_of_mem hc
    obtain ⟨b, -, hb⟩ := List.mem_flatMap.mp hmem
    have hlt : b.toNat < 256 := b.toNat_lt
    rw [hexByte, List.mem_cons, List.mem_singleton] at hb
    rcases hb with hb | hb
    · rw [IsHex, hexValue_of_toLower (by omega) hb]
      rfl
    · rw [IsHex, hexValue_of_toLower (by omega) hb]
      rfl
  have heven : digits.length % 2 = 0 := by
    have hlength := congrArg List.length hdigits
    rw [List.length_map, length_hexChars] at hlength
    omega
  have hspell : hexSpelled digits = bytes :=
    hexChars_injective ((map_toLower_digits hhex heven).symm.trans hdigits)
  rw [PyHex, htext, strip0x_marked (eq_mark_of_toLower hmark), fromHex_digits hhex heven, hspell]
  exact ⟨heven, rfl⟩

theorem requireTopic0_of_topic {keccak256 : Bytes → Digest} {log : RpcLog} {sig name : String}
    (h : (log.topics[0]?.getD "").toLower = eventTopic keccak256 sig) :
    requireTopic0 log (pyEventTopic keccak256 sig) name = .ok () := by
  have hhex := pyHex_of_toLower h
  have hlen := (keccak256 sig.toUTF8.toList).length_bytes
  apply refuseIf_of_not
  rw [not_not, classifyTopic0]
  cases htopic : log.topics[0]? with
  | none =>
      rw [htopic] at hhex
      have hempty : PyHex "" [] := ⟨by decide, rfl⟩
      rw [← hempty.unique hhex] at hlen
      cases hlen
  | some text =>
      rw [htopic, Option.getD_some] at hhex
      dsimp only
      rw [from0x_eq_ok.mpr hhex]
      exact if_pos hlen

end CoreTex.RigDispatch
