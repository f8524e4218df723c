import CoreTex.Crypto.Secp256k1
import CoreTex.Dispatch.Descriptor
import CoreTex.Lib.PyText

/-!
# CoreTex.Join.ReceiptCalldata

The calldata side of the join (`join.py`, `abi.py`): decoding `submitCoreTexReceipt` into the
26 members of the receipt, its EIP-712 digest and its receipt hash.

A decoded receipt holds every member of the tuple in the form its type says
(`decodeSubmitCalldata_members`), so hashing one never raises (`structHash_ok`,
`receiptHash_ok`), and decoding text that is hex raises nothing but `JoinError`
(`decodeSubmitCalldata_failsWith`).
-/

namespace CoreTex.Join

open CoreTex.Lib

/-- `JoinError`. -/
structure JoinError where
  code : String
  message : String
  deriving DecidableEq, Repr

/-- What a call that does not return ends with. -/
inductive PyExc
  | join (e : JoinError)
  | abiError (message : String)
  | rigEventError (message : String)
  | valueError (message : String)
  | typeError (message : String)
  | keyError (name : String)
  | attributeError (name : String)
  /-- whatever a callable the caller passed in raised -/
  | callerRaised
  deriving DecidableEq, Repr

def PyExc.IsJoin : PyExc → Prop
  | .join _ => True
  | _ => False

/-- `raise JoinError(code, message)`. -/
def joinError {α : Type} (code message : String) : Except PyExc α :=
  .error (.join ⟨code, message⟩)

/-- A member of the decoded receipt. -/
inductive Value
  | int (n : Nat)
  | str (s : PyStr)
  | bytes (b : Bytes)
  deriving DecidableEq, Repr

/-- The types a member of the tuple can have. -/
inductive Kind
  | uint (bits : Nat)
  | address
  | bytes32
  | bytes
  deriving DecidableEq, Repr

/-! ### ABI words -/

/-- `abi.as_bytes32`. -/
def asBytes32 (value : Value) (field : String) : Except PyExc Bytes := do
  let raw ← match value with
    | .bytes raw => .ok raw
    | .str s =>
      let body := if s.take 2 = py "0x" ∨ s.take 2 = py "0X" then s.drop 2 else s
      if body.length ≠ 64 then
        let got := body.length
        .error (.abiError s!"{field}: expected 64 hex chars, got {got}")
      else
        match fromHex body with
        | some raw => .ok raw
        | none => .error (.abiError s!"{field}: not hex")
    | .int _ => .error (.abiError s!"{field}: must be hex or bytes, got int")
  if raw.length ≠ 32 then
    let got := raw.length
    .error (.abiError s!"{field}: must be exactly 32 bytes, got {got}")
  else .ok raw

/-- `abi.as_address`. -/
def asAddress (value : Value) (field : String) : Except PyExc Bytes :=
  match value with
  | .str s =>
    let body := if s.take 2 = py "0x" ∨ s.take 2 = py "0X" then s.drop 2 else s
    if body.length ≠ 40 then
      let got := text s
      .error (.abiError s!"{field}: expected a 20-byte address, got {got}")
    else
      match fromHex (lower body) with
      | some raw => .ok (List.replicate 12 0 ++ raw)
      | none => .error (.valueError "non-hexadecimal number found in fromhex() arg")
  | _ => .error (.typeError "value is not subscriptable")

/-- `abi.as_uint`. -/
def asUint (value : Value) (bits : Nat) (field : String) : Except PyExc Bytes :=
  match value with
  | .int n =>
    if n < 2 ^ bits then .ok (writeBE 32 n)
    else .error (.abiError s!"{field}={n} does not fit uint{bits}")
  | _ => .error (.abiError s!"{field}: must be an int")

/-- The word of one signed member. -/
def memberWord (kind : Kind) (value : Value) (name : String) : Except PyExc Bytes :=
  match kind with
  | .address => asAddress value name
  | .bytes32 => asBytes32 value name
  | .uint bits => asUint value bits name
  | .bytes => joinError "CALLDATA_DECODE_FAILURE" "unsupported signed type bytes"

/-! ### The receipt tuple -/

/-- `CORETEX_RECEIPT_TUPLE_COMPONENTS`. -/
def receiptTuple : List (String × Kind) :=
  [("rigId", .uint 256), ("operator", .address), ("epochId", .uint 64), ("solveIndex", .uint 64),
    ("prevReceiptHash", .bytes32), ("outcome", .uint 8), ("challengeId", .bytes32),
    ("parentStateRoot", .bytes32), ("newStateRoot", .bytes32), ("epochContextRoot", .bytes32),
    ("coreVersionHash", .bytes32), ("evalReportHash", .bytes32), ("patchHash", .bytes32),
    ("artifactHash", .bytes32), ("worldSeed", .uint 128), ("rulesVersion", .uint 32),
    ("workPolicyHash", .bytes32), ("workUnitsBps", .uint 256),
    ("difficultyCountSnapshot", .uint 256), ("transitionFormatVersion", .uint 16),
    ("scoreBeforePpm", .uint 32), ("scoreAfterPpm", .uint 32), ("issuedAt", .uint 64),
    ("expiresAt", .uint 64), ("compactPatchBytes", .bytes), ("signature", .bytes)]

/-- The signed members: the tuple without its two byte tails. -/
def signedMembers : Nat := 24

/-- `CORETEX_RECEIPT_TYPEHASH`. -/
def receiptTypehash : Bytes :=
  writeBE 32 0xd21a4141318ac86ffd63faa82975263001e87a21ce5db2db3230837a90d2dab3

/-- `SUBMIT_SELECTOR`. -/
def submitSelector : PyStr := py "0xed5daa91"

/-- The members of the receipt hash, in the order of its preimage. -/
def receiptHashMembers : List (String × Kind) :=
  [("rigId", .uint 256), ("operator", .address), ("epochId", .uint 64), ("solveIndex", .uint 64),
    ("prevReceiptHash", .bytes32), ("outcome", .uint 8), ("challengeId", .bytes32),
    ("parentStateRoot", .bytes32), ("newStateRoot", .bytes32), ("patchHash", .bytes32),
    ("evalReportHash", .bytes32), ("workPolicyHash", .bytes32),
    ("difficultyCountSnapshot", .uint 256)]

/-- `_word`. -/
def word (data : Bytes) (index : Nat) (fieldName : String) : Except PyExc Bytes :=
  if data.length < index * 32 + 32 then
    joinError "CALLDATA_DECODE_FAILURE" s!"{fieldName}: calldata ends before word {index}"
  else .ok ((data.drop (index * 32)).take 32)

/-- `_uint`. -/
def uint (data : Bytes) (index : Nat) (fieldName : String) (bits : Nat) : Except PyExc Nat := do
  let raw ← word data index fieldName
  let value := readBE raw
  if bits < 256 ∧ value / 2 ^ bits ≠ 0 then
    joinError "CALLDATA_DECODE_FAILURE" s!"{fieldName}: uint{bits} has dirty high bits"
  else .ok value

/-- `_bytes_tail`. -/
def bytesTail (data : Bytes) (headIndex : Nat) (fieldName : String) : Except PyExc Bytes := do
  let offsetName := fieldName ++ ".offset"
  let offset ← uint data headIndex offsetName 256
  if offset % 32 ≠ 0 ∨ offset + 32 > data.length then
    joinError "CALLDATA_DECODE_FAILURE"
      s!"{fieldName}: tail offset {offset} is unaligned or out of range"
  else
    let length := readBE ((data.drop offset).take 32)
    let start := offset + 32
    if start + length > data.length then
      joinError "CALLDATA_DECODE_FAILURE"
        s!"{fieldName}: declared length {length} overruns the calldata"
    else
      let padded := (length + 31) / 32 * 32
      if (data.drop (start + length)).take (padded - length) ≠
          List.replicate (padded - length) 0 then
        joinError "CALLDATA_DECODE_FAILURE" s!"{fieldName}: tail padding is non-zero"
      else .ok ((data.drop start).take length)

/-- One member of the tuple, read at its head word. -/
def decodeMember (tup : Bytes) (index : Nat) (name : String) (kind : Kind) :
    Except PyExc Value :=
  match kind with
  | .bytes => do
    let tail ← bytesTail tup index name
    .ok (.bytes tail)
  | .address => do
    let w ← word tup index name
    if w.take 12 ≠ List.replicate 12 0 then
      joinError "CALLDATA_DECODE_FAILURE" s!"{name}: address has dirty high bits"
    else .ok (.str (py "0x" ++ hexText (w.drop 12)))
  | .bytes32 => do
    let w ← word tup index name
    .ok (.str (hexText w))
  | .uint bits => do
    let n ← uint tup index name bits
    .ok (.int n)

/-- The loop over the components of the tuple. -/
def decodeMembers (tup : Bytes) : Nat → List (String × Kind) → Except PyExc (List (String × Value))
  | _, [] => .ok []
  | index, (name, kind) :: components => do
    let value ← decodeMember tup index name kind
    let values ← decodeMembers tup (index + 1) components
    .ok ((name, value) :: values)

/-- `CoreTexReceipt`: the decoded members by name. -/
structure CoreTexReceipt where
  values : List (String × Value)
  deriving DecidableEq, Repr

/-- `receipt[name]`. -/
def CoreTexReceipt.get (receipt : CoreTexReceipt) (name : String) : Except PyExc Value :=
  match receipt.values.lookup name with
  | some value => .ok value
  | none => .error (.keyError name)

/-- `decode_submit_calldata`, on text. -/
def decodeSubmitCalldata (calldata : PyStr) : Except PyExc CoreTexReceipt :=
  let raw := if (py "0x").isPrefixOf calldata then calldata.drop 2 else calldata
  match fromHex raw with
  | none => .error (.valueError "non-hexadecimal number found in fromhex() arg")
  | some data =>
    if data.length < 4 then
      joinError "CALLDATA_DECODE_FAILURE" "calldata is shorter than a selector"
    else
      let found := py "0x" ++ hexText (data.take 4)
      if found ≠ submitSelector then
        let found := text found
        joinError "CALLDATA_DECODE_FAILURE"
          s!"selector {found} is not submitCoreTexReceipt (0xed5daa91)"
      else do
        let body := data.drop 4
        let outerWord ← word body 0 "tuple.offset"
        let outer := readBE outerWord
        if outer % 32 ≠ 0 ∨ outer ≥ body.length then
          joinError "CALLDATA_DECODE_FAILURE" "the receipt tuple offset is unusable"
        else do
          let values ← decodeMembers (body.drop outer) 0 receiptTuple
          .ok ⟨values⟩

/-! ### Hashing -/

variable (keccak256 : Bytes → Digest)

/-- The words of members of a receipt, concatenated. -/
def memberWords (receipt : CoreTexReceipt) : List (String × Kind) → Except PyExc Bytes
  | [] => .ok []
  | (name, kind) :: members => do
    let value ← receipt.get name
    let w ← memberWord kind value name
    let rest ← memberWords receipt members
    .ok (w ++ rest)

/-- `struct_hash`. -/
def structHash (receipt : CoreTexReceipt) : Except PyExc Digest := do
  let words ← memberWords receipt (receiptTuple.take signedMembers)
  .ok (keccak256 (receiptTypehash ++ words))

/-- `abi.eip712_digest`. -/
def eip712Digest (domainSeparator structHash : Digest) : Except PyExc Digest := do
  let domain ← asBytes32 (.bytes domainSeparator.bytes) "domainSeparator"
  let struct ← asBytes32 (.bytes structHash.bytes) "structHash"
  .ok (keccak256 ([0x19, 0x01] ++ domain ++ struct))

/-- `digest`. -/
def receiptDigest (domainSeparator : Digest) (receipt : CoreTexReceipt) : Except PyExc Digest := do
  let hash ← structHash keccak256 receipt
  eip712Digest keccak256 domainSeparator hash

/-- `receipt_hash`. -/
def receiptHash (receipt : CoreTexReceipt) (digest : Digest) : Except PyExc PyStr := do
  let words ← memberWords receipt receiptHashMembers
  .ok (hexText (keccak256 (words ++ digest.bytes)).bytes)

/-! ### What a decoded receipt holds -/

/-- A value in the form its type says. -/
def Fits : Kind → Value → Prop
  | .uint bits, .int n => n < 2 ^ bits
  | .address, .str s => ∃ b : Bytes, b.length = 20 ∧ s = py "0x" ++ hexText b
  | .bytes32, .str s => ∃ b : Bytes, b.length = 32 ∧ s = hexText b
  | .bytes, .bytes _ => True
  | _, _ => False

theorem joinError_failsWith {α : Type} (code message : String) :
    FailsWith PyExc.IsJoin (joinError code message : Except PyExc α) := by
  intro e he
  cases he
  trivial

theorem ok_failsWith {α : Type} (a : α) : FailsWith PyExc.IsJoin (Except.ok a) :=
  fun _ he => nomatch he

theorem word_failsWith (data : Bytes) (index : Nat) (fieldName : String) :
    FailsWith PyExc.IsJoin (word data index fieldName) := by
  rw [word]
  split
  · exact joinError_failsWith _ _
  · exact ok_failsWith _

theorem length_word {data w : Bytes} {index : Nat} {fieldName : String}
    (h : word data index fieldName = .ok w) : w.length = 32 := by
  rw [word] at h
  split at h
  · cases h
  · cases h
    rw [List.length_take, List.length_drop]
    omega

theorem uint_failsWith (data : Bytes) (index : Nat) (fieldName : String) (bits : Nat) :
    FailsWith PyExc.IsJoin (uint data index fieldName bits) := by
  refine (word_failsWith data index fieldName).bind fun w _ => ?_
  dsimp only
  split
  · exact joinError_failsWith _ _
  · exact ok_failsWith _

theorem uint_lt {data : Bytes} {index n : Nat} {fieldName : String} {bits : Nat}
    (h : uint data index fieldName bits = .ok n) : n < 2 ^ bits := by
  obtain ⟨w, hw, h⟩ := bind_eq_ok.mp h
  dsimp only at h
  split at h
  · cases h
  · next hclean =>
    cases h
    have hlt : readBE w < 2 ^ 256 := by
      have := readBE_lt w
      rwa [length_word hw] at this
    by_cases hbits : bits < 256
    · have hzero : readBE w / 2 ^ bits = 0 := by
        by_contra hne
        exact hclean ⟨hbits, hne⟩
      exact (Nat.div_eq_zero_iff_lt (Nat.two_pow_pos bits)).mp hzero
    · exact Nat.lt_of_lt_of_le hlt (Nat.pow_le_pow_right (by decide) (by omega))

theorem bytesTail_failsWith (data : Bytes) (headIndex : Nat) (fieldName : String) :
    FailsWith PyExc.IsJoin (bytesTail data headIndex fieldName) := by
  refine (uint_failsWith data headIndex _ 256).bind fun offset _ => ?_
  dsimp only
  split
  · exact joinError_failsWith _ _
  split
  · exact joinError_failsWith _ _
  split
  · exact joinError_failsWith _ _
  · exact ok_failsWith _

theorem decodeMember_failsWith (tup : Bytes) (index : Nat) (name : String) (kind : Kind) :
    FailsWith PyExc.IsJoin (decodeMember tup index name kind) := by
  cases kind with
  | bytes => exact (bytesTail_failsWith tup index name).bind fun _ _ => ok_failsWith _
  | bytes32 => exact (word_failsWith tup index name).bind fun _ _ => ok_failsWith _
  | uint bits => exact (uint_failsWith tup index name bits).bind fun _ _ => ok_failsWith _
  | address =>
      refine (word_failsWith tup index name).bind fun w _ => ?_
      split
      · exact joinError_failsWith _ _
      · exact ok_failsWith _

theorem decodeMember_fits {tup : Bytes} {index : Nat} {name : String} {kind : Kind}
    {value : Value} (h : decodeMember tup index name kind = .ok value) : Fits kind value := by
  cases kind with
  | bytes =>
      obtain ⟨tail, -, h⟩ := bind_eq_ok.mp h
      cases h
      trivial
  | bytes32 =>
      obtain ⟨w, hw, h⟩ := bind_eq_ok.mp h
      cases h
      exact ⟨w, length_word hw, rfl⟩
  | uint bits =>
      obtain ⟨n, hn, h⟩ := bind_eq_ok.mp h
      cases h
      exact uint_lt hn
  | address =>
      obtain ⟨w, hw, h⟩ := bind_eq_ok.mp h
      split at h
      · cases h
      · cases h
        exact ⟨w.drop 12, by rw [List.length_drop, length_word hw], rfl⟩

theorem decodeMembers_failsWith (tup : Bytes) (index : Nat) (components : List (String × Kind)) :
    FailsWith PyExc.IsJoin (decodeMembers tup index components) := by
  induction components generalizing index with
  | nil => exact ok_failsWith _
  | cons c components ih =>
      refine (decodeMember_failsWith tup index c.1 c.2).bind fun _ _ => ?_
      exact (ih (index + 1)).bind fun _ _ => ok_failsWith _

/-- The loop reads every component, in its order. -/
theorem decodeMembers_fits {tup : Bytes} {index : Nat} {components : List (String × Kind)}
    {values : List (String × Value)} (h : decodeMembers tup index components = .ok values) :
    List.Forall₂ (fun c e => e.1 = c.1 ∧ Fits c.2 e.2) components values := by
  induction components generalizing index values with
  | nil =>
      cases h
      exact .nil
  | cons c components ih =>
      obtain ⟨value, hvalue, h⟩ := bind_eq_ok.mp h
      obtain ⟨rest, hrest, h⟩ := bind_eq_ok.mp h
      cases h
      exact .cons ⟨rfl, decodeMember_fits hvalue⟩ (ih hrest)

/-- A member is found under its name. -/
theorem lookup_of_fits {components : List (String × Kind)} {values : List (String × Value)}
    (h : List.Forall₂ (fun c e => e.1 = c.1 ∧ Fits c.2 e.2) components values)
    (hnames : (components.map Prod.fst).Nodup) {c : String × Kind} (hc : c ∈ components) :
    ∃ value, values.lookup c.1 = some value ∧ Fits c.2 value := by
  induction h with
  | nil => simp at hc
  | @cons c' e components values hce hrest ih =>
      rw [List.map_cons, List.nodup_cons] at hnames
      rw [List.lookup_cons]
      rcases List.mem_cons.mp hc with rfl | hc
      · exact ⟨e.2, by simp [hce.1], hce.2⟩
      · have hne : c.1 ≠ e.1 := by
          intro heq
          rw [hce.1] at heq
          exact hnames.1 (List.mem_map.mpr ⟨c, hc, heq⟩)
        rw [beq_false_of_ne hne]
        exact ih hnames.2 hc

/-- Every member of the tuple is there, in the form its type says. -/
def CoreTexReceipt.HasMembers (receipt : CoreTexReceipt) : Prop :=
  ∀ c ∈ receiptTuple, ∃ value, receipt.get c.1 = .ok value ∧ Fits c.2 value

theorem decodeSubmitCalldata_members {calldata : PyStr} {receipt : CoreTexReceipt}
    (h : decodeSubmitCalldata calldata = .ok receipt) : receipt.HasMembers := by
  rw [decodeSubmitCalldata] at h
  split at h
  · cases h
  · split at h
    · cases h
    · dsimp only at h
      split at h
      · cases h
      · obtain ⟨outerWord, -, h⟩ := bind_eq_ok.mp h
        split at h
        · cases h
        · obtain ⟨values, hvalues, h⟩ := bind_eq_ok.mp h
          cases h
          intro c hc
          obtain ⟨value, hlookup, hfits⟩ :=
            lookup_of_fits (decodeMembers_fits hvalues) (by decide) hc
          exact ⟨value, by rw [CoreTexReceipt.get, hlookup], hfits⟩

/-- The text the decoder reads: hex digits, after an optional `0x`. -/
def IsHexText (calldata : PyStr) : Prop :=
  (fromHex (if (py "0x").isPrefixOf calldata then calldata.drop 2 else calldata)).isSome

theorem decodeSubmitCalldata_failsWith {calldata : PyStr} (h : IsHexText calldata) :
    FailsWith PyExc.IsJoin (decodeSubmitCalldata calldata) := by
  rw [IsHexText, Option.isSome_iff_exists] at h
  obtain ⟨data, hdata⟩ := h
  rw [decodeSubmitCalldata, hdata]
  dsimp only
  split
  · exact joinError_failsWith _ _
  split
  · exact joinError_failsWith _ _
  · refine (word_failsWith _ _ _).bind fun outerWord _ => ?_
    split
    · exact joinError_failsWith _ _
    · exact (decodeMembers_failsWith _ _ _).bind fun _ _ => ok_failsWith _

theorem decodeSubmitCalldata_not_hex {calldata : PyStr} (h : ¬ IsHexText calldata) :
    ∃ message, decodeSubmitCalldata calldata = .error (.valueError message) := by
  rw [IsHexText, Option.not_isSome_iff_eq_none] at h
  rw [decodeSubmitCalldata, h]
  exact ⟨_, rfl⟩

/-! ### Hashing a decoded receipt never raises -/

theorem take_hexText {b : Bytes} (h : 0 < b.length) :
    (hexText b).take 2 ≠ py "0x" ∧ (hexText b).take 2 ≠ py "0X" := by
  cases b with
  | nil => simp at h
  | cons x b =>
      have hlt : x.toNat % 16 < 16 := Nat.mod_lt _ (by decide)
      have hdigit : ∀ k : Fin 16, (hexDigit k).toNat ≠ 120 ∧ (hexDigit k).toNat ≠ 88 := by decide
      have hx := hdigit ⟨x.toNat % 16, hlt⟩
      rw [hexText_cons]
      constructor
      · intro heq
        exact hx.1 (List.cons.inj (List.cons.inj heq).2).1
      · intro heq
        exact hx.2 (List.cons.inj (List.cons.inj heq).2).1

theorem asBytes32_hexText {b : Bytes} (h : b.length = 32) (field : String) :
    asBytes32 (.str (hexText b)) field = .ok b := by
  obtain ⟨hlow, hup⟩ := take_hexText (b := b) (by omega)
  have hlen : (hexText b).length = 64 := by
    rw [hexText, List.length_map, length_hexChars, h]
  have hread : fromHex (hexText b) = some b := fromHex_hexChars b
  rw [asBytes32]
  dsimp only
  rw [if_neg (not_or.mpr ⟨hlow, hup⟩), if_neg (not_not.mpr hlen), hread]
  dsimp only
  rw [ok_bind, if_neg (not_not.mpr h)]

theorem asBytes32_digest (d : Digest) (field : String) :
    asBytes32 (.bytes d.bytes) field = .ok d.bytes := by
  rw [asBytes32, ok_bind]
  exact if_neg (not_not.mpr d.length_bytes)

theorem lower_hexText (b : Bytes) : lower (hexText b) = hexText b := by
  induction b with
  | nil => rfl
  | cons x b ih =>
      have hdigit : ∀ k : Fin 16, ¬(65 ≤ (hexDigit k).toNat ∧ (hexDigit k).toNat ≤ 90) := by decide
      have hx : x.toNat < 256 := x.toNat_lt
      rw [hexText_cons]
      simp only [lower, List.map_cons] at ih ⊢
      rw [ih, if_neg (hdigit ⟨x.toNat / 16, by omega⟩), if_neg (hdigit ⟨x.toNat % 16, by omega⟩)]

theorem asAddress_hexText {b : Bytes} (h : b.length = 20) (field : String) :
    asAddress (.str (py "0x" ++ hexText b)) field = .ok (List.replicate 12 0 ++ b) := by
  have htake : (py "0x" ++ hexText b).take 2 = py "0x" := rfl
  have hdrop : (py "0x" ++ hexText b).drop 2 = hexText b := rfl
  have hlen : (hexText b).length = 40 := by
    rw [hexText, List.length_map, length_hexChars, h]
  have hread : fromHex (hexText b) = some b := fromHex_hexChars b
  rw [asAddress]
  dsimp only
  rw [htake, hdrop, if_pos (Or.inl rfl), if_neg (not_not.mpr hlen), lower_hexText, hread]

/-- A value in the form of its type has a word. -/
theorem memberWord_ok {kind : Kind} {value : Value} (h : Fits kind value) (hkind : kind ≠ .bytes)
    (name : String) : ∃ w, memberWord kind value name = .ok w := by
  cases kind with
  | bytes => exact absurd rfl hkind
  | uint bits =>
      cases value with
      | int n => exact ⟨_, if_pos h⟩
      | str s => exact absurd h id
      | bytes b => exact absurd h id
  | address =>
      cases value with
      | int n => exact absurd h id
      | str s =>
          obtain ⟨b, hb, rfl⟩ := h
          exact ⟨_, asAddress_hexText hb name⟩
      | bytes b => exact absurd h id
  | bytes32 =>
      cases value with
      | int n => exact absurd h id
      | str s =>
          obtain ⟨b, hb, rfl⟩ := h
          exact ⟨_, asBytes32_hexText hb name⟩
      | bytes b => exact absurd h id

theorem memberWords_ok {receipt : CoreTexReceipt} (h : receipt.HasMembers)
    (members : List (String × Kind)) (hmem : ∀ c ∈ members, c ∈ receiptTuple)
    (hkind : ∀ c ∈ members, c.2 ≠ .bytes) : ∃ w, memberWords receipt members = .ok w := by
  induction members with
  | nil => exact ⟨[], rfl⟩
  | cons c members ih =>
      obtain ⟨value, hget, hfits⟩ := h c (hmem c (by simp))
      obtain ⟨w, hw⟩ := memberWord_ok hfits (hkind c (by simp)) c.1
      obtain ⟨rest, hrest⟩ := ih (fun c' hc' => hmem c' (by simp [hc']))
        fun c' hc' => hkind c' (by simp [hc'])
      exact ⟨w ++ rest, by rw [memberWords, hget, ok_bind, hw, ok_bind, hrest, ok_bind]⟩

theorem receiptDigest_ok {receipt : CoreTexReceipt} (h : receipt.HasMembers)
    (domainSeparator : Digest) :
    ∃ digest, receiptDigest keccak256 domainSeparator receipt = .ok digest := by
  obtain ⟨words, hwords⟩ := memberWords_ok h (receiptTuple.take signedMembers)
    (fun c hc => List.mem_of_mem_take hc) (by decide)
  rw [receiptDigest, structHash, hwords, ok_bind, ok_bind, eip712Digest, asBytes32_digest, ok_bind,
    asBytes32_digest, ok_bind]
  exact ⟨_, rfl⟩

theorem receiptHash_ok {receipt : CoreTexReceipt} (h : receipt.HasMembers) (digest : Digest) :
    ∃ hash, receiptHash keccak256 receipt digest = .ok hash := by
  obtain ⟨words, hwords⟩ := memberWords_ok h receiptHashMembers (by decide) (by decide)
  rw [receiptHash, hwords, ok_bind]
  exact ⟨_, rfl⟩

end CoreTex.Join
