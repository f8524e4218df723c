import CoreTex.Join.Join

/-!
# CoreTex.Join.Escape

When a step of the join ends with something other than a `JoinError`. Every exception that is
not a `JoinError` leaves `join_all`, so a transaction is joined or reported unresolved exactly
when its steps fail with `JoinError` alone (`joinAdvance_failsWith_iff`,
`joinScreener_failsWith_iff`).
-/

namespace CoreTex.Join

open CoreTex.Lib

theorem not_failsWith {α : Type} {x : Except PyExc α} {e : PyExc} (hx : x = .error e)
    (he : ¬ e.IsJoin) : ¬ FailsWith PyExc.IsJoin x :=
  fun h => he (h e hx)

/-! ### Members of a decoded receipt -/

section Members

variable {receipt : CoreTexReceipt} (h : receipt.HasMembers)

include h

theorem intMember_ok (name : String) (bits : Nat) (hmem : (name, Kind.uint bits) ∈ receiptTuple) :
    ∃ n, intMember receipt name = .ok n := by
  obtain ⟨value, hget, hfits⟩ := h _ hmem
  cases value with
  | int n => exact ⟨n, by rw [intMember, hget]; rfl⟩
  | str s => exact absurd hfits id
  | bytes b => exact absurd hfits id

theorem strMember_ok (name : String) {kind : Kind} (hmem : (name, kind) ∈ receiptTuple)
    (hkind : kind = .address ∨ kind = .bytes32) : ∃ s, strMember receipt name = .ok s := by
  obtain ⟨value, hget, hfits⟩ := h _ hmem
  cases value with
  | int n => rcases hkind with rfl | rfl <;> exact absurd hfits id
  | str s => exact ⟨s, by rw [strMember, hget]; rfl⟩
  | bytes b => rcases hkind with rfl | rfl <;> exact absurd hfits id

theorem bytesMember_ok (name : String) (hmem : (name, Kind.bytes) ∈ receiptTuple) :
    ∃ b, bytesMember receipt name = .ok b := by
  obtain ⟨value, hget, hfits⟩ := h _ hmem
  cases value with
  | int n => exact absurd hfits id
  | str s => exact absurd hfits id
  | bytes b => exact ⟨b, by rw [bytesMember, hget]; rfl⟩

end Members

/-! ### Steps 2 to 7 -/

variable (keccak256 : Bytes → Digest)

theorem checkCredit_failsWith (advance : StateAdvanced) (credit : CoreTexCreditAccepted) :
    FailsWith PyExc.IsJoin (checkCredit advance credit) := by
  rw [checkCredit]
  split
  · exact joinError_failsWith _ _
  split
  · exact joinError_failsWith _ _
  split
  · exact joinError_failsWith _ _
  · exact ok_failsWith _

/-- Text that the decoder can read. -/
def IsReadable (calldata : Option PyStr) : Prop :=
  ∃ s, calldata = some s ∧ IsHexText s

theorem readReceipt_members {calldata : Option PyStr} {domainSeparator digest : Digest}
    {receipt : CoreTexReceipt} {hash : PyStr}
    (h : readReceipt keccak256 calldata domainSeparator = .ok (receipt, digest, hash)) :
    receipt.HasMembers := by
  obtain ⟨s, -, h⟩ := bind_eq_ok.mp h
  obtain ⟨receipt', hdecode, h⟩ := bind_eq_ok.mp h
  obtain ⟨digest', -, h⟩ := bind_eq_ok.mp h
  obtain ⟨hash', -, h⟩ := bind_eq_ok.mp h
  cases h
  exact decodeSubmitCalldata_members hdecode

theorem readReceipt_failsWith_iff {calldata : Option PyStr} {domainSeparator : Digest} :
    FailsWith PyExc.IsJoin (readReceipt keccak256 calldata domainSeparator) ↔
      IsReadable calldata := by
  cases calldata with
  | none =>
      refine iff_of_false (not_failsWith (e := .attributeError "startswith") rfl id) ?_
      rintro ⟨s, hs, -⟩
      cases hs
  | some s =>
      by_cases hs : IsHexText s
      · refine iff_of_true ?_ ⟨s, rfl, hs⟩
        show FailsWith PyExc.IsJoin (decodeSubmitCalldata s >>= _)
        refine (decodeSubmitCalldata_failsWith hs).bind fun receipt hreceipt => ?_
        have hmembers := decodeSubmitCalldata_members hreceipt
        obtain ⟨digest, hdigest⟩ := receiptDigest_ok keccak256 hmembers domainSeparator
        obtain ⟨hash, hhash⟩ := receiptHash_ok keccak256 hmembers digest
        rw [hdigest, ok_bind, hhash]
        exact ok_failsWith _
      · obtain ⟨message, hmessage⟩ := decodeSubmitCalldata_not_hex hs
        refine iff_of_false (not_failsWith (e := .valueError message) ?_ id) ?_
        · show (decodeSubmitCalldata s >>= _) = _
          rw [hmessage]
          rfl
        · rintro ⟨s', hs', hhex⟩
          cases hs'
          exact hs hhex

theorem checkFields_failsWith {receipt : CoreTexReceipt} (h : receipt.HasMembers)
    (advance : StateAdvanced) {fields : List (String × String × (StateAdvanced → Value))}
    (hfields : ∀ f ∈ fields, ∃ kind, (f.1, kind) ∈ receiptTuple ∧
      ((∃ n, f.2.2 advance = .int n) ∧ (∃ bits, kind = .uint bits) ∨
        (∃ s, f.2.2 advance = .str s) ∧ kind = .bytes32)) :
    FailsWith PyExc.IsJoin (checkFields advance receipt fields) := by
  induction fields with
  | nil => exact ok_failsWith _
  | cons f fields ih =>
      obtain ⟨kind, hmem, hkind⟩ := hfields f (by simp)
      obtain ⟨value, hget, hfits⟩ := h _ hmem
      have hsame : ∃ same, sameField (f.2.2 advance) value = .ok same := by
        rcases hkind with ⟨⟨n, hn⟩, bits, rfl⟩ | ⟨⟨s, hs⟩, rfl⟩
        · cases value with
          | int m => exact ⟨_, by rw [hn]; rfl⟩
          | str s => exact absurd hfits id
          | bytes b => exact absurd hfits id
        · cases value with
          | int m => exact absurd hfits id
          | str t => exact ⟨_, by rw [hs]; rfl⟩
          | bytes b => exact absurd hfits id
      obtain ⟨same, hsame⟩ := hsame
      show FailsWith PyExc.IsJoin (receipt.get f.1 >>= _)
      rw [hget, ok_bind, hsame, ok_bind]
      split
      · exact ih fun f' hf' => hfields f' (by simp [hf'])
      · exact joinError_failsWith _ _

theorem checkCalldata_failsWith {receipt : CoreTexReceipt} (h : receipt.HasMembers)
    (advance : StateAdvanced) : FailsWith PyExc.IsJoin (checkCalldata advance receipt) := by
  refine (checkFields_failsWith h advance ?_).bind fun _ _ => ?_
  · simp only [cToAFields, List.forall_mem_cons, List.not_mem_nil, false_implies, implies_true,
      and_true]
    refine ⟨⟨.uint 64, by decide, .inl ⟨⟨_, rfl⟩, _, rfl⟩⟩, ?_⟩
    refine ⟨⟨.bytes32, by decide, .inr ⟨⟨_, rfl⟩, rfl⟩⟩, ?_⟩
    refine ⟨⟨.bytes32, by decide, .inr ⟨⟨_, rfl⟩, rfl⟩⟩, ?_⟩
    refine ⟨⟨.bytes32, by decide, .inr ⟨⟨_, rfl⟩, rfl⟩⟩, ?_⟩
    refine ⟨⟨.bytes32, by decide, .inr ⟨⟨_, rfl⟩, rfl⟩⟩, ?_⟩
    refine ⟨⟨.bytes32, by decide, .inr ⟨⟨_, rfl⟩, rfl⟩⟩, ?_⟩
    refine ⟨⟨.bytes32, by decide, .inr ⟨⟨_, rfl⟩, rfl⟩⟩, ?_⟩
    exact ⟨.uint 16, by decide, .inl ⟨⟨_, rfl⟩, _, rfl⟩⟩
  · obtain ⟨operator, hop⟩ := strMember_ok h "operator" (by decide) (.inl rfl)
    obtain ⟨patch, hpatch⟩ := bytesMember_ok h "compactPatchBytes" (by decide)
    rw [hop, ok_bind]
    split
    · exact joinError_failsWith _ _
    · rw [hpatch, ok_bind]
      split
      · exact joinError_failsWith _ _
      · exact ok_failsWith _

theorem recoverSigner_failsWith {receipt : CoreTexReceipt} (h : receipt.HasMembers)
    (digest : Digest) : FailsWith PyExc.IsJoin (recoverSigner keccak256 receipt digest) := by
  obtain ⟨signature, hsig⟩ := bytesMember_ok h "signature" (by decide)
  rw [recoverSigner, hsig, ok_bind]
  split
  · exact ok_failsWith _
  · exact joinError_failsWith _ _

theorem stepSeven_failsWith {receipt : CoreTexReceipt} (h : receipt.HasMembers)
    (verifySignature : Bool) (digest : Digest) (coordinatorSigner : PyStr) :
    FailsWith PyExc.IsJoin
      (stepSeven keccak256 verifySignature receipt digest coordinatorSigner) := by
  rw [stepSeven]
  split
  case isFalse => exact ok_failsWith _
  refine (recoverSigner_failsWith keccak256 h digest).bind fun recovered _ => ?_
  split
  · exact joinError_failsWith _ _
  · exact ok_failsWith _

/-! ### Step 8 -/

/-- The patch of an advance is what step 8 asks of it. -/
structure DescriptorSound (advance : StateAdvanced) (receipt : CoreTexReceipt) : Prop where
  nonzero : checkStateAdvancePatchHash advance.patchHash = .ok ()
  addressed : transitionDescriptorHash (fun b => (keccak256 b).bytes) advance.compactPatchBytes =
    advance.patchHash
  decodes : ∃ version descriptor, receipt.get "transitionFormatVersion" = .ok (.int version) ∧
    decodeTransitionDescriptor (fun b => (keccak256 b).bytes) advance.compactPatchBytes
      (some advance.parentStateRoot) (some advance.newStateRoot) none (some version) =
        .ok descriptor

/-- Step 8 passes or escapes; it never reports. -/
theorem checkDescriptor_failsWith_iff {receipt : CoreTexReceipt} (h : receipt.HasMembers)
    (advance : StateAdvanced) :
    FailsWith PyExc.IsJoin (checkDescriptor keccak256 advance receipt) ↔
      DescriptorSound keccak256 advance receipt := by
  obtain ⟨value, hget, hfits⟩ := h ("transitionFormatVersion", .uint 16) (by decide)
  obtain ⟨version, rfl⟩ : ∃ version, value = .int version := by
    cases value with
    | int n => exact ⟨n, rfl⟩
    | str s => exact absurd hfits id
    | bytes b => exact absurd hfits id
  have hint : intMember receipt "transitionFormatVersion" = .ok version := by
    rw [intMember, hget]
    rfl
  rw [checkDescriptor]
  cases hzero : checkStateAdvancePatchHash advance.patchHash with
  | error e =>
      refine iff_of_false (not_failsWith (e := .attributeError "message") rfl id) fun hs => ?_
      rw [hs.nonzero] at hzero
      cases hzero
  | ok u =>
      dsimp only
      by_cases hhash : transitionDescriptorHash (fun b => (keccak256 b).bytes)
          advance.compactPatchBytes = advance.patchHash
      · rw [if_neg (not_not.mpr hhash), hint, ok_bind]
        cases hdecode : decodeTransitionDescriptor (fun b => (keccak256 b).bytes)
            advance.compactPatchBytes (some advance.parentStateRoot)
            (some advance.newStateRoot) none (some (version : Int)) with
        | error e =>
            refine iff_of_false (not_failsWith (e := .attributeError "message") rfl id) fun hs => ?_
            obtain ⟨version', descriptor, hget', hdecode'⟩ := hs.decodes
            rw [hget] at hget'
            cases hget'
            rw [hdecode] at hdecode'
            cases hdecode'
        | ok descriptor =>
            exact iff_of_true (ok_failsWith _) ⟨hzero, hhash, version, descriptor, hget, hdecode⟩
      · rw [if_pos hhash]
        exact iff_of_false (not_failsWith rfl id) fun hs => hhash hs.addressed

/-! ### One advance -/

/-- Steps 2 to 7 pass with this receipt. -/
structure AdvanceBound (domainSeparator : Digest) (verifySignature : Bool)
    (advance : StateAdvanced) (credit : CoreTexCreditAccepted) (calldata : Option PyStr)
    (coordinatorSigner : PyStr) (receipt : CoreTexReceipt) : Prop where
  credited : checkCredit advance credit = .ok ()
  hashed : ∃ digest, readReceipt keccak256 calldata domainSeparator =
      .ok (receipt, digest, credit.receiptHash) ∧
    ∃ recovered, stepSeven keccak256 verifySignature receipt digest coordinatorSigner =
      .ok recovered
  agrees : checkCalldata advance receipt = .ok ()

/-- What follows step 7 in `joinAdvance` reports whatever step 8 lets pass. -/
theorem afterSignature_failsWith_iff {receipt : CoreTexReceipt} (h : receipt.HasMembers)
    (advance : StateAdvanced) (joined : JoinedTransition) :
    FailsWith PyExc.IsJoin (do
      checkDescriptor keccak256 advance receipt
      let outcome ← intMember receipt "outcome"
      if outcome ≠ 2 then
        joinError "JOIN_FIELD_MISMATCH" ("an advance's receipt must declare outcome 2 " ++
          s!"(state advance); this one declares {outcome}")
      else .ok joined) ↔ DescriptorSound keccak256 advance receipt := by
  rw [failsWith_bind_iff, checkDescriptor_failsWith_iff keccak256 h]
  obtain ⟨outcome, hout⟩ := intMember_ok h "outcome" 8 (by decide)
  refine ⟨And.left, fun hs => ⟨hs, fun _ _ => ?_⟩⟩
  rw [hout, ok_bind]
  split
  · exact joinError_failsWith _ _
  · exact ok_failsWith _

theorem joinAdvance_failsWith_iff {domainSeparator : Digest} {verifySignature : Bool}
    {advance : StateAdvanced} {credit : CoreTexCreditAccepted} {calldata : Option PyStr}
    {coordinatorSigner : PyStr} :
    FailsWith PyExc.IsJoin (joinAdvance keccak256 advance credit calldata domainSeparator
        coordinatorSigner verifySignature) ↔
      (checkCredit advance credit = .ok () → IsReadable calldata) ∧
        ∀ receipt, AdvanceBound keccak256 domainSeparator verifySignature advance credit calldata
          coordinatorSigner receipt → DescriptorSound keccak256 advance receipt := by
  rw [joinAdvance, failsWith_bind_iff, and_iff_right (checkCredit_failsWith advance credit)]
  constructor
  · intro h
    refine ⟨fun hcredit => ?_, fun receipt hbound => ?_⟩
    · exact (readReceipt_failsWith_iff keccak256).mp (failsWith_bind_iff.mp (h () hcredit)).1
    · obtain ⟨digest, hread, hsig⟩ := hbound.hashed
      have hmembers := readReceipt_members keccak256 hread
      have hrest := (failsWith_bind_iff.mp (h () hbound.credited)).2 _ hread
      dsimp only at hrest
      rw [if_neg (not_not.mpr rfl)] at hrest
      have hsigned := (failsWith_bind_iff.mp hrest).2 () hbound.agrees
      obtain ⟨recovered, hrec⟩ := hsig
      exact (afterSignature_failsWith_iff keccak256 hmembers advance _).mp
        ((failsWith_bind_iff.mp hsigned).2 recovered hrec)
  · rintro ⟨hread, hdesc⟩ ⟨⟩ hcredit
    refine failsWith_bind_iff.mpr
      ⟨(readReceipt_failsWith_iff keccak256).mpr (hread hcredit), fun found hfound => ?_⟩
    obtain ⟨receipt, digest, recomputed⟩ := found
    have hmembers := readReceipt_members keccak256 hfound
    dsimp only
    split
    · exact joinError_failsWith _ _
    next hhash =>
    rw [not_not] at hhash
    subst hhash
    refine failsWith_bind_iff.mpr ⟨checkCalldata_failsWith hmembers advance, fun _ hagree => ?_⟩
    refine failsWith_bind_iff.mpr
      ⟨stepSeven_failsWith keccak256 hmembers verifySignature digest coordinatorSigner,
        fun recovered hrec => ?_⟩
    exact (afterSignature_failsWith_iff keccak256 hmembers advance _).mpr
      (hdesc receipt ⟨hcredit, ⟨digest, hfound, recovered, hrec⟩, hagree⟩)

/-! ### One screener pass -/

/-- The receipt binds the credit, is signed where that is asked, and declares outcome 1. -/
structure ScreenerBound (domainSeparator : Digest) (verifySignature : Bool)
    (credit : CoreTexCreditAccepted) (calldata : Option PyStr)
    (coordinatorSigner : CoordinatorSigner) (receipt : CoreTexReceipt) : Prop where
  hashed : ∃ digest, readReceipt keccak256 calldata domainSeparator =
      .ok (receipt, digest, credit.receiptHash) ∧
    screenerStepSeven keccak256 verifySignature credit receipt digest coordinatorSigner = .ok ()
  outcome : intMember receipt "outcome" = .ok 1

/-- The signer is asked for a recovered address, and answers. -/
def SignerAnswers (domainSeparator : Digest) (verifySignature : Bool)
    (credit : CoreTexCreditAccepted) (calldata : Option PyStr)
    (coordinatorSigner : CoordinatorSigner) : Prop :=
  ∀ receipt digest recovered, readReceipt keccak256 calldata domainSeparator =
      .ok (receipt, digest, credit.receiptHash) → verifySignature = true →
    recoverSigner keccak256 receipt digest = .ok recovered →
      ∃ signer, coordinatorSigner.signerFor credit.provenance = .ok signer

theorem checkScreenerSignature_failsWith_iff {receipt : CoreTexReceipt} (h : receipt.HasMembers)
    {credit : CoreTexCreditAccepted} {digest : Digest} {coordinatorSigner : CoordinatorSigner} :
    FailsWith PyExc.IsJoin (checkScreenerSignature keccak256 credit receipt digest
        coordinatorSigner) ↔
      ∀ recovered, recoverSigner keccak256 receipt digest = .ok recovered →
        ∃ signer, coordinatorSigner.signerFor credit.provenance = .ok signer := by
  rw [checkScreenerSignature, failsWith_bind_iff,
    and_iff_right (recoverSigner_failsWith keccak256 h digest)]
  refine forall_congr' fun recovered => imp_congr_right fun _ => ?_
  have hraises : ∀ e, coordinatorSigner.signerFor credit.provenance = .error e →
      e = .callerRaised := by
    intro e he
    cases coordinatorSigner with
    | address s => cases he
    | callable f =>
        rw [CoordinatorSigner.signerFor] at he
        split at he
        · cases he
        · exact (Except.error.inj he).symm
  cases hs : coordinatorSigner.signerFor credit.provenance with
  | error e =>
      obtain rfl := hraises e hs
      exact iff_of_false (not_failsWith rfl id) (by simp)
  | ok signer =>
      refine iff_of_true ?_ ⟨signer, rfl⟩
      rw [ok_bind]
      split
      · exact joinError_failsWith _ _
      · exact ok_failsWith _

theorem screenerDiscipline_ok {receipt : CoreTexReceipt} (h : receipt.HasMembers) :
    ∃ verdict, screenerDiscipline receipt = .ok verdict := by
  obtain ⟨patch, hpatch⟩ := bytesMember_ok h "compactPatchBytes" (by decide)
  obtain ⟨version, hversion⟩ :=
    intMember_ok h "transitionFormatVersion" 16 (by decide)
  obtain ⟨scoreBefore, hbefore⟩ := intMember_ok h "scoreBeforePpm" 32 (by decide)
  obtain ⟨scoreAfter, hafter⟩ := intMember_ok h "scoreAfterPpm" 32 (by decide)
  obtain ⟨patchHash, hhash⟩ := strMember_ok h "patchHash" (by decide) (.inr rfl)
  exact ⟨_, by rw [screenerDiscipline, hpatch, ok_bind, hversion, ok_bind, hbefore, ok_bind, hafter,
    ok_bind, hhash, ok_bind]⟩

/-- What follows the signature in `joinScreener` escapes where the discipline is broken. -/
theorem afterScreenerSignature_failsWith_iff {receipt : CoreTexReceipt} (h : receipt.HasMembers)
    (pass : ScreenerPass) :
    FailsWith PyExc.IsJoin (do
      let outcome ← intMember receipt "outcome"
      if outcome ≠ 1 then
        joinError "JOIN_FIELD_MISMATCH" ("a credit with no advance must declare outcome " ++
          s!"1; it declares {outcome}")
      else
        match ← screenerDiscipline receipt with
        | .ok _ => .ok pass
        | .error _ =>
          let message ← descriptorMessage
          joinError "JOIN_SCREENER_DISCIPLINE_VIOLATED" message) ↔
      (intMember receipt "outcome" = .ok 1 → screenerDiscipline receipt = .ok (.ok ())) := by
  obtain ⟨outcome, hout⟩ := intMember_ok h "outcome" 8 (by decide)
  obtain ⟨verdict, hverdict⟩ := screenerDiscipline_ok h
  rw [hout, ok_bind, hverdict, Except.ok.injEq, Except.ok.injEq]
  by_cases hone : outcome = 1
  · rw [if_neg (not_not.mpr hone), ok_bind]
    cases verdict with
    | ok u => exact iff_of_true (ok_failsWith _) fun _ => rfl
    | error e =>
        exact iff_of_false (not_failsWith (e := .attributeError "message") rfl id)
          fun hs => (nomatch hs hone)
  · rw [if_pos hone]
    exact iff_of_true (joinError_failsWith _ _) fun h => absurd h hone

theorem joinScreener_failsWith_iff {domainSeparator : Digest} {verifySignature : Bool}
    {credit : CoreTexCreditAccepted} {calldata : Option PyStr}
    {coordinatorSigner : CoordinatorSigner} :
    FailsWith PyExc.IsJoin (joinScreener keccak256 credit calldata domainSeparator
        coordinatorSigner verifySignature) ↔
      IsReadable calldata ∧
        SignerAnswers keccak256 domainSeparator verifySignature credit calldata
          coordinatorSigner ∧
        ∀ receipt, ScreenerBound keccak256 domainSeparator verifySignature credit calldata
          coordinatorSigner receipt → screenerDiscipline receipt = .ok (.ok ()) := by
  rw [joinScreener, failsWith_bind_iff, readReceipt_failsWith_iff keccak256]
  refine and_congr_right fun _ => ?_
  constructor
  · intro h
    constructor
    · intro receipt digest recovered hread hverify hrec
      have hrest := h _ hread
      dsimp only at hrest
      rw [if_neg (not_not.mpr rfl), failsWith_bind_iff, screenerStepSeven, if_pos hverify] at hrest
      exact (checkScreenerSignature_failsWith_iff keccak256
        (readReceipt_members keccak256 hread)).mp hrest.1 recovered hrec
    · intro receipt hbound
      obtain ⟨digest, hread, hsig⟩ := hbound.hashed
      have hrest := h _ hread
      dsimp only at hrest
      rw [if_neg (not_not.mpr rfl), failsWith_bind_iff] at hrest
      exact (afterScreenerSignature_failsWith_iff (readReceipt_members keccak256 hread) _).mp
        (hrest.2 () hsig) hbound.outcome
  · rintro ⟨hsigner, hdisc⟩ ⟨receipt, digest, recomputed⟩ hread
    have hmembers := readReceipt_members keccak256 hread
    dsimp only
    split
    · exact joinError_failsWith _ _
    next hhash =>
    rw [not_not] at hhash
    subst hhash
    refine failsWith_bind_iff.mpr ⟨?_, fun _ hok => ?_⟩
    · rw [screenerStepSeven]
      split
      · next hverify =>
        exact (checkScreenerSignature_failsWith_iff keccak256 hmembers).mpr fun recovered hrec =>
          hsigner receipt digest recovered hread hverify hrec
      · exact ok_failsWith _
    · exact (afterScreenerSignature_failsWith_iff hmembers _).mpr fun hone =>
        hdisc receipt ⟨⟨digest, hread, hok⟩, hone⟩

end CoreTex.Join
