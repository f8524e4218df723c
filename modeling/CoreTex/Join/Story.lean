import CoreTex.Crypto.Ecrecover
import CoreTex.Join.Accounting

/-!
# CoreTex.Join.Story

What a joined transition's three sources agree on.

Steps 2 and 6 compare the advance with the credit and with the calldata, and step 4 ties the
credit's receipt hash to the calldata. The rig id, the solve index and the challenge id stand in
the credit and in the calldata only, and nothing compares them: `joinAdvance_consistent_iff` says
that the three sources tell one story exactly where these agree as well.
-/

namespace CoreTex.Join

open CoreTex.Lib

variable (keccak256 : Bytes → Digest)

/-- The digest and the hash are those of the receipt's own members. -/
def HashesTo (domainSeparator : Digest) (receipt : CoreTexReceipt) (digest : Bytes)
    (hash : PyStr) : Prop :=
  ∃ d : Digest, d.bytes = digest ∧ receiptDigest keccak256 domainSeparator receipt = .ok d ∧
    receiptHash keccak256 receipt d = .ok hash

/-- The signer of a digest, up to the case of the address. -/
def SignedBy (receipt : CoreTexReceipt) (digest : Bytes) (signer : PyStr) : Prop :=
  ∃ signature address, receipt.get "signature" = .ok (.bytes signature) ∧
    Secp256k1.ecrecover keccak256 digest signature = .ok address ∧
    lower (py address) = lower signer

/-- The credit's own fields, in the calldata receipt. -/
structure NamesCredit (receipt : CoreTexReceipt) (credit : CoreTexCreditAccepted) : Prop where
  rigId : receipt.get "rigId" = .ok (.int credit.rigId)
  solveIndex : receipt.get "solveIndex" = .ok (.int credit.solveIndex)
  challengeId : receipt.get "challengeId" = .ok (.str credit.challengeId)

/-- What credit and receipt share beside it. -/
structure CreditAgrees (receipt : CoreTexReceipt) (credit : CoreTexCreditAccepted) : Prop where
  epoch : receipt.get "epochId" = .ok (.int credit.epoch)
  operator : ∃ operator, receipt.get "operator" = .ok (.str operator) ∧
    lower operator = lower credit.operator

/-- What advance and receipt share. -/
structure AdvanceAgrees (receipt : CoreTexReceipt) (advance : StateAdvanced) : Prop where
  fields : ∀ f ∈ cToAFields, receipt.get f.1 = .ok (f.2.2 advance)
  operator : ∃ operator, receipt.get "operator" = .ok (.str operator) ∧
    lower operator = lower advance.miner
  compactPatchBytes : receipt.get "compactPatchBytes" = .ok (.bytes advance.compactPatchBytes)

/-- What advance and credit share. -/
structure PairAgrees (advance : StateAdvanced) (credit : CoreTexCreditAccepted) : Prop where
  epoch : credit.epoch = advance.epoch
  operator : lower credit.operator = lower advance.miner
  credits : credit.creditsEarned = advance.improvementCredits

/-- The three sources of a joined transition tell one story. -/
structure JoinedTransition.Consistent (domainSeparator : Digest) (coordinatorSigner : PyStr)
    (verifySignature : Bool) (joined : JoinedTransition) : Prop where
  pair : PairAgrees joined.advance joined.credit
  advance : AdvanceAgrees joined.receipt joined.advance
  credit : CreditAgrees joined.receipt joined.credit
  named : NamesCredit joined.receipt joined.credit
  receiptHash : joined.receiptHash = joined.credit.receiptHash
  hashed : HashesTo keccak256 domainSeparator joined.receipt joined.digest joined.receiptHash
  signed : verifySignature = true →
    SignedBy keccak256 joined.receipt joined.digest coordinatorSigner ∧
      lower joined.recoveredSigner = lower coordinatorSigner

/-- The credit and the receipt of a screener pass tell one story. -/
structure ScreenerPass.Consistent (ctx : JoinContext) (pass : ScreenerPass) : Prop where
  credit : CreditAgrees pass.receipt pass.credit
  named : NamesCredit pass.receipt pass.credit
  hashed : ∃ digest, HashesTo keccak256 ctx.domainSeparator pass.receipt digest
    pass.credit.receiptHash ∧ (ctx.verifySignature = true → ∃ signer,
      ctx.coordinatorSigner.signerFor pass.credit.provenance = .ok signer ∧
        SignedBy keccak256 pass.receipt digest signer)

variable {keccak256}

/-! ### What the steps compare -/

theorem addressesEqual_iff {a b : PyStr} : addressesEqual a b = true ↔ lower a = lower b := by
  rw [addressesEqual, beq_iff_eq]

theorem checkCredit_eq_ok {advance : StateAdvanced} {credit : CoreTexCreditAccepted} {u : Unit} :
    checkCredit advance credit = .ok u ↔ PairAgrees advance credit := by
  rw [checkCredit]
  constructor
  · intro h
    split at h
    · cases h
    next hepoch =>
    split at h
    · cases h
    next hoperator =>
    split at h
    · cases h
    next hcredits =>
    exact ⟨not_not.mp hepoch, addressesEqual_iff.mp (not_not.mp hoperator), not_not.mp hcredits⟩
  · intro h
    have hoperator := addressesEqual_iff.mpr h.operator
    rw [if_neg (not_not.mpr h.epoch), if_neg (not_not.mpr hoperator),
      if_neg (not_not.mpr h.credits)]

theorem sameField_eq_ok {want got : Value} (h : sameField want got = .ok true) : got = want := by
  unfold sameField at h
  split at h
  · rw [beq_iff_eq.mp (Except.ok.inj h)]
  · rw [beq_iff_eq.mp (Except.ok.inj h)]
  · cases h

/-- The loop of step 6 passes only where each member is the advance's field. -/
theorem checkFields_eq_ok {advance : StateAdvanced} {receipt : CoreTexReceipt}
    {fields : List (String × String × (StateAdvanced → Value))} {u : Unit}
    (h : checkFields advance receipt fields = .ok u) :
    ∀ f ∈ fields, receipt.get f.1 = .ok (f.2.2 advance) := by
  induction fields with
  | nil => exact fun f hf => absurd hf List.not_mem_nil
  | cons field fields ih =>
      obtain ⟨got, hget, h⟩ := bind_eq_ok.mp h
      obtain ⟨same, hsame, h⟩ := bind_eq_ok.mp h
      cases same with
      | false => cases h
      | true =>
          rw [sameField_eq_ok hsame] at hget
          exact List.forall_mem_cons.mpr ⟨hget, ih h⟩

theorem strMember_eq_ok {receipt : CoreTexReceipt} {name : String} {s : PyStr} :
    strMember receipt name = .ok s ↔ receipt.get name = .ok (.str s) := by
  rw [strMember]
  cases receipt.get name with
  | error exc => simp [Bind.bind, Except.bind]
  | ok value => cases value <;> simp [Bind.bind, Except.bind]

theorem bytesMember_eq_ok {receipt : CoreTexReceipt} {name : String} {b : Bytes} :
    bytesMember receipt name = .ok b ↔ receipt.get name = .ok (.bytes b) := by
  rw [bytesMember]
  cases receipt.get name with
  | error exc => simp [Bind.bind, Except.bind]
  | ok value => cases value <;> simp [Bind.bind, Except.bind]

theorem checkCalldata_eq_ok {advance : StateAdvanced} {receipt : CoreTexReceipt} {u : Unit}
    (h : checkCalldata advance receipt = .ok u) : AdvanceAgrees receipt advance := by
  obtain ⟨_, hfields, h⟩ := bind_eq_ok.mp h
  obtain ⟨operator, hoperator, h⟩ := bind_eq_ok.mp h
  split at h
  · cases h
  next hminer =>
  obtain ⟨patch, hpatch, h⟩ := bind_eq_ok.mp h
  split at h
  · cases h
  next hbytes =>
  rw [not_not] at hminer hbytes
  subst hbytes
  exact ⟨checkFields_eq_ok hfields,
    ⟨operator, strMember_eq_ok.mp hoperator, addressesEqual_iff.mp hminer⟩,
    bytesMember_eq_ok.mp hpatch⟩

theorem readReceipt_eq_ok {calldata : Option PyStr} {domainSeparator digest : Digest}
    {receipt : CoreTexReceipt} {hash : PyStr}
    (h : readReceipt keccak256 calldata domainSeparator = .ok (receipt, digest, hash)) :
    HashesTo keccak256 domainSeparator receipt digest.bytes hash ∧
      ∃ s, calldata = some s ∧ decodeSubmitCalldata s = .ok receipt := by
  obtain ⟨s, htext, h⟩ := bind_eq_ok.mp h
  obtain ⟨receipt', hdecode, h⟩ := bind_eq_ok.mp h
  obtain ⟨digest', hdigest, h⟩ := bind_eq_ok.mp h
  obtain ⟨hash', hhash, h⟩ := bind_eq_ok.mp h
  cases h
  refine ⟨⟨digest, rfl, hdigest, hhash⟩, s, ?_, hdecode⟩
  cases calldata with
  | none => cases htext
  | some s' => exact congrArg some (Except.ok.inj htext)

theorem recoverSigner_eq_ok {receipt : CoreTexReceipt} {digest : Digest} {recovered : PyStr}
    (h : recoverSigner keccak256 receipt digest = .ok recovered) :
    ∃ signature address, receipt.get "signature" = .ok (.bytes signature) ∧
      Secp256k1.ecrecover keccak256 digest.bytes signature = .ok address ∧
      recovered = py address := by
  obtain ⟨signature, hsignature, h⟩ := bind_eq_ok.mp h
  cases hrecover : Secp256k1.ecrecover keccak256 digest.bytes signature with
  | error exc =>
      rw [hrecover] at h
      cases h
  | ok address =>
      rw [hrecover] at h
      exact ⟨signature, address, bytesMember_eq_ok.mp hsignature, hrecover,
        (Except.ok.inj h).symm⟩

theorem checkSignature_eq_ok {receipt : CoreTexReceipt} {digest : Digest}
    {coordinatorSigner recovered : PyStr}
    (h : checkSignature keccak256 receipt digest coordinatorSigner = .ok recovered) :
    SignedBy keccak256 receipt digest.bytes coordinatorSigner ∧
      lower recovered = lower coordinatorSigner := by
  obtain ⟨recovered', hrecover, h⟩ := bind_eq_ok.mp h
  split at h
  · cases h
  next hsame =>
  cases h
  have hlower := addressesEqual_iff.mp (not_not.mp hsame)
  obtain ⟨signature, address, hsignature, hok, rfl⟩ := recoverSigner_eq_ok hrecover
  exact ⟨⟨signature, address, hsignature, hok, hlower⟩, hlower⟩

/-- A screener's receipt carries the signature of the signer at its credit's place. -/
theorem checkScreenerSignature_eq_ok {credit : CoreTexCreditAccepted} {receipt : CoreTexReceipt}
    {digest : Digest} {coordinatorSigner : CoordinatorSigner}
    (h : checkScreenerSignature keccak256 credit receipt digest coordinatorSigner = .ok ()) :
    ∃ signer, coordinatorSigner.signerFor credit.provenance = .ok signer ∧
      SignedBy keccak256 receipt digest.bytes signer := by
  obtain ⟨recovered, hrecover, h⟩ := bind_eq_ok.mp h
  obtain ⟨signer, hsigner, h⟩ := bind_eq_ok.mp h
  split at h
  · cases h
  next hsame =>
  obtain ⟨signature, address, hsignature, hok, rfl⟩ := recoverSigner_eq_ok hrecover
  exact ⟨signer, hsigner, signature, address, hsignature, hok,
    addressesEqual_iff.mp (not_not.mp hsame)⟩

/-! ### The two joins -/

/-- What a joined transition went through. -/
theorem joinAdvance_inv {domainSeparator : Digest} {verifySignature : Bool}
    {advance : StateAdvanced} {credit : CoreTexCreditAccepted} {calldata : Option PyStr}
    {coordinatorSigner : PyStr} {joined : JoinedTransition}
    (h : joinAdvance keccak256 advance credit calldata domainSeparator coordinatorSigner
      verifySignature = .ok joined) :
    ∃ digest, checkCredit advance credit = .ok () ∧
      readReceipt keccak256 calldata domainSeparator =
        .ok (joined.receipt, digest, credit.receiptHash) ∧
      checkCalldata advance joined.receipt = .ok () ∧
      stepSeven keccak256 verifySignature joined.receipt digest coordinatorSigner =
        .ok joined.recoveredSigner ∧
      joined.advance = advance ∧ joined.credit = credit ∧ joined.digest = digest.bytes ∧
      joined.receiptHash = credit.receiptHash := by
  obtain ⟨_, hcredit, h⟩ := bind_eq_ok.mp h
  obtain ⟨⟨receipt, digest, recomputed⟩, hread, h⟩ := bind_eq_ok.mp h
  dsimp only at h
  split at h
  · cases h
  next hhash =>
  rw [not_not] at hhash
  obtain ⟨_, hfields, h⟩ := bind_eq_ok.mp h
  obtain ⟨recovered, hseven, h⟩ := bind_eq_ok.mp h
  obtain ⟨_, -, h⟩ := bind_eq_ok.mp h
  obtain ⟨outcome, -, h⟩ := bind_eq_ok.mp h
  split at h
  · cases h
  · cases h
    subst hhash
    exact ⟨digest, hcredit, hread, hfields, hseven, rfl, rfl, rfl, rfl⟩

/-- What a screener pass went through. -/
theorem joinScreener_inv {domainSeparator : Digest} {verifySignature : Bool}
    {credit : CoreTexCreditAccepted} {calldata : Option PyStr}
    {coordinatorSigner : CoordinatorSigner} {pass : ScreenerPass}
    (h : joinScreener keccak256 credit calldata domainSeparator coordinatorSigner
      verifySignature = .ok pass) :
    ∃ digest, readReceipt keccak256 calldata domainSeparator =
        .ok (pass.receipt, digest, credit.receiptHash) ∧
      screenerStepSeven keccak256 verifySignature credit pass.receipt digest coordinatorSigner =
        .ok () ∧ pass.credit = credit := by
  obtain ⟨⟨receipt, digest, recomputed⟩, hread, h⟩ := bind_eq_ok.mp h
  dsimp only at h
  split at h
  · cases h
  next hhash =>
  rw [not_not] at hhash
  obtain ⟨_, hseven, h⟩ := bind_eq_ok.mp h
  obtain ⟨_, -, h⟩ := bind_eq_ok.mp h
  split at h
  · cases h
  obtain ⟨verdict, -, h⟩ := bind_eq_ok.mp h
  cases verdict with
  | error e => cases h
  | ok u =>
      cases h
      subst hhash
      exact ⟨digest, hread, hseven, rfl⟩

/-- The receipt of some calldata has a property. -/
def ReceiptOf (calldata : Option PyStr) (P : CoreTexReceipt → Prop) : Prop :=
  ∀ s receipt, calldata = some s → decodeSubmitCalldata s = .ok receipt → P receipt

theorem receiptOf_iff {calldata : Option PyStr} {P : CoreTexReceipt → Prop} {s : PyStr}
    {receipt : CoreTexReceipt} (hs : calldata = some s)
    (hdecode : decodeSubmitCalldata s = .ok receipt) : ReceiptOf calldata P ↔ P receipt := by
  constructor
  · exact fun h => h s receipt hs hdecode
  · intro h s' receipt' hs' hdecode'
    rw [hs, Option.some.injEq] at hs'
    subst hs'
    rw [hdecode, Except.ok.injEq] at hdecode'
    exact hdecode' ▸ h

/-- A joined transition is consistent exactly where the calldata names the credit. -/
theorem joinAdvance_consistent_iff {domainSeparator : Digest} {verifySignature : Bool}
    {advance : StateAdvanced} {credit : CoreTexCreditAccepted} {calldata : Option PyStr}
    {coordinatorSigner : PyStr} {joined : JoinedTransition}
    (h : joinAdvance keccak256 advance credit calldata domainSeparator coordinatorSigner
      verifySignature = .ok joined) :
    joined.Consistent keccak256 domainSeparator coordinatorSigner verifySignature ↔
      ReceiptOf calldata fun receipt => NamesCredit receipt credit := by
  obtain ⟨digest, hcredit, hread, hfields, hseven, hadvance, hcred, hdigest, hhash⟩ :=
    joinAdvance_inv h
  obtain ⟨hhashes, s, hs, hdecode⟩ := readReceipt_eq_ok hread
  have hpair := checkCredit_eq_ok.mp hcredit
  have hagrees := checkCalldata_eq_ok hfields
  rw [receiptOf_iff hs hdecode]
  constructor
  · exact fun hc => hcred ▸ hc.named
  · intro hnamed
    have hepoch := hagrees.fields ("epochId", "epoch", fun a => .int a.epoch) (by simp [cToAFields])
    obtain ⟨operator, hoperator, hminer⟩ := hagrees.operator
    exact {
      pair := by rw [hadvance, hcred]; exact hpair
      advance := by rw [hadvance]; exact hagrees
      credit := by
        rw [hcred]
        exact ⟨by rw [hepoch, hpair.epoch], operator, hoperator, hminer.trans hpair.operator.symm⟩
      named := by rw [hcred]; exact hnamed
      receiptHash := by rw [hhash, hcred]
      hashed := by rw [hdigest, hhash]; exact hhashes
      signed := by
        intro hverify
        rw [hverify, stepSeven, if_pos rfl] at hseven
        rw [hdigest]
        exact checkSignature_eq_ok hseven }

/-- A screener pass is consistent exactly where the calldata names the credit, its epoch and its
operator. -/
theorem joinScreener_consistent_iff {ctx : JoinContext} {credit : CoreTexCreditAccepted}
    {calldata : Option PyStr} {pass : ScreenerPass}
    (h : joinScreener keccak256 credit calldata ctx.domainSeparator ctx.coordinatorSigner
      ctx.verifySignature = .ok pass) :
    pass.Consistent keccak256 ctx ↔ ReceiptOf calldata fun receipt =>
      CreditAgrees receipt credit ∧ NamesCredit receipt credit := by
  obtain ⟨digest, hread, hseven, hcred⟩ := joinScreener_inv h
  obtain ⟨hhashes, s, hs, hdecode⟩ := readReceipt_eq_ok hread
  rw [receiptOf_iff hs hdecode]
  constructor
  · exact fun hc => hcred ▸ ⟨hc.credit, hc.named⟩
  · rintro ⟨hagrees, hnamed⟩
    refine ⟨hcred ▸ hagrees, hcred ▸ hnamed, digest.bytes, hcred ▸ hhashes, fun hverify => ?_⟩
    rw [hverify, screenerStepSeven, if_pos rfl] at hseven
    obtain ⟨signer, hsigner, hsigned⟩ := checkScreenerSignature_eq_ok hseven
    exact ⟨signer, hcred ▸ hsigner, hsigned⟩

/-- The calldata of a transaction, where the lookup answers text. -/
def JoinContext.calldata (ctx : JoinContext) (tx : PyStr) : Option PyStr :=
  match ctx.calldataFor tx with
  | .text s => some s
  | _ => none

theorem evalLookup_eq_ok {ctx : JoinContext} {tx : PyStr} {calldata : Option PyStr}
    (h : evalLookup (ctx.calldataFor tx) = .ok calldata) : calldata = ctx.calldata tx := by
  unfold JoinContext.calldata
  cases hlookup : ctx.calldataFor tx with
  | text s =>
      rw [hlookup] at h
      exact (Except.ok.inj h).symm
  | notText =>
      rw [hlookup] at h
      exact (Except.ok.inj h).symm
  | raises =>
      rw [hlookup] at h
      cases h

/-- An entry of a group is unresolved, or what the group's one credit was joined to. -/
theorem joinGroup_entry {ctx : JoinContext} {tx : PyStr} {advances : List StateAdvanced}
    {credits : List CoreTexCreditAccepted} {entries : List Entry} {entry : Entry}
    (h : joinGroup keccak256 ctx tx advances credits = .ok entries) (hmem : entry ∈ entries) :
    (∃ unresolved, entry = .unresolved unresolved) ∨
      (∃ credit pass, credits = [credit] ∧ entry = .screenerPass pass ∧
        joinScreener keccak256 credit (ctx.calldata tx) ctx.domainSeparator ctx.coordinatorSigner
          ctx.verifySignature = .ok pass) ∨
      ∃ advance credit signer joined, advances = [advance] ∧ credits = [credit] ∧
        entry = .transition joined ∧
        ctx.coordinatorSigner.signerFor credit.provenance = .ok signer ∧
        joinAdvance keccak256 advance credit (ctx.calldata tx) ctx.domainSeparator signer
          ctx.verifySignature = .ok joined := by
  rcases credits with _ | ⟨credit, _ | ⟨credit', credits⟩⟩
  · rw [joinGroup] at h
    cases h
    obtain ⟨advance, -, hentry⟩ := List.mem_map.mp hmem
    exact .inl ⟨_, hentry.symm⟩
  · rcases advances with _ | ⟨advance, _ | ⟨advance', advances⟩⟩
    · obtain ⟨entry', hentry, h⟩ := bind_eq_ok.mp h
      cases h
      obtain rfl := List.mem_singleton.mp hmem
      rcases exceptJoinError_eq_ok hentry with ⟨pass, hjoin, hpass⟩ | ⟨exc, hunresolved⟩
      · obtain ⟨calldata, hlookup, hjoin⟩ := bind_eq_ok.mp hjoin
        obtain rfl := evalLookup_eq_ok hlookup
        exact .inr (.inl ⟨credit, pass, rfl, hpass, hjoin⟩)
      · exact .inl ⟨_, hunresolved⟩
    · obtain ⟨entry', hentry, h⟩ := bind_eq_ok.mp h
      cases h
      obtain rfl := List.mem_singleton.mp hmem
      rcases exceptJoinError_eq_ok hentry with ⟨joined, hjoin, hjoined⟩ | ⟨exc, hunresolved⟩
      · obtain ⟨calldata, hlookup, hjoin⟩ := bind_eq_ok.mp hjoin
        obtain ⟨signer, hsigner, hjoin⟩ := bind_eq_ok.mp hjoin
        obtain rfl := evalLookup_eq_ok hlookup
        exact .inr (.inr ⟨advance, credit, signer, joined, rfl, rfl, hjoined, hsigner, hjoin⟩)
      · exact .inl ⟨_, hunresolved⟩
    · cases h
      exact .inl ⟨_, List.mem_singleton.mp hmem⟩
  · -- Two credits are ambiguous, whatever the advances.
    have hambiguous : entries =
        [.unresolved (ambiguous tx advances.length (credit :: credit' :: credits).length)] := by
      rcases advances with _ | ⟨advance, _ | ⟨advance', advances⟩⟩ <;> cases h <;> rfl
    subst hambiguous
    exact .inl ⟨_, List.mem_singleton.mp hmem⟩

/-- A screener pass comes out of a group of its credit alone. -/
theorem joinGroup_screenerPass {ctx : JoinContext} {tx : PyStr} {advances : List StateAdvanced}
    {credits : List CoreTexCreditAccepted} {entries : List Entry} {pass : ScreenerPass}
    (h : joinGroup keccak256 ctx tx advances credits = .ok entries)
    (hpass : .screenerPass pass ∈ entries) :
    credits = [pass.credit] ∧ joinScreener keccak256 pass.credit (ctx.calldata tx)
      ctx.domainSeparator ctx.coordinatorSigner ctx.verifySignature = .ok pass := by
  rcases joinGroup_entry h hpass with ⟨_, hsame⟩ | ⟨credit, pass', rfl, hsame, hjoin⟩ |
    ⟨_, _, _, _, _, _, hsame, _⟩
  · cases hsame
  · cases hsame
    obtain rfl := joinScreener_eq_ok keccak256 hjoin
    exact ⟨rfl, hjoin⟩
  · cases hsame

/-- Every screener pass of a scan was joined from the calldata of its credit's transaction. -/
theorem joinAll_screenerPass {ctx : JoinContext} {decoded : DecodedLogs} {result : JoinResult}
    (h : joinAll keccak256 ctx decoded = .ok result) {pass : ScreenerPass}
    (hpass : pass ∈ result.screenerPasses) :
    joinScreener keccak256 pass.credit (ctx.calldata pass.credit.provenance.tx)
      ctx.domainSeparator ctx.coordinatorSigner ctx.verifySignature = .ok pass := by
  obtain ⟨hall, hperm⟩ := joinAll_entries keccak256 h
  have hmem : Entry.screenerPass pass ∈ result.entries := by
    simp [JoinResult.entries, hpass]
  obtain ⟨g, hg, hentry⟩ := List.mem_flatMap.mp (hperm.mem_iff.mp hmem)
  obtain ⟨entries, hentries⟩ := hall g hg
  rw [groupEntries_of_ok keccak256 hentries] at hentry
  obtain ⟨hcredits, hjoin⟩ := joinGroup_screenerPass hentries hentry
  obtain ⟨-, hgroup⟩ := mem_byTx.mp hg
  have hcredit : pass.credit ∈ decoded.creditsOf g.1 := by
    have hsnd : g.2.2 = decoded.creditsOf g.1 := congrArg (fun g => g.2.2) hgroup
    rw [← hsnd, hcredits]
    exact List.mem_singleton_self _
  have htx : pass.credit.provenance.tx = g.1 := mem_creditsOf hcredit
  rw [htx]
  exact hjoin

variable (keccak256)

/-- The descriptor of the sample: format 33, an artifact and two roots. -/
def rigDescriptor : Bytes :=
  [transitionDescriptorVersion] ++ List.replicate 32 9 ++ List.replicate 32 1 ++ List.replicate 32 2

/-- The receipt of rig 7, solve index 4. -/
def rigCalldata : PyStr :=
  submitSelector ++ hexText (writeBE 32 32 ++ writeBE 32 7 ++ List.replicate 32 0 ++ writeBE 32 1 ++
    writeBE 32 4 ++ List.replicate 32 0 ++ writeBE 32 2 ++ List.replicate 32 5 ++
    List.replicate 32 1 ++ List.replicate 32 2 ++ List.replicate 32 3 ++ List.replicate 32 4 ++
    List.replicate 32 6 ++ List.replicate 32 2 ++ List.replicate 32 9 ++
    List.replicate (5 * 32) 0 ++ writeBE 32 33 ++ List.replicate (3 * 32) 0 ++ writeBE 32 2 ++
    writeBE 32 832 ++ writeBE 32 992 ++ writeBE 32 97 ++ rigDescriptor ++ List.replicate 31 0 ++
    writeBE 32 65 ++ Secp256k1.degenerateSignature.bytes ++ List.replicate 31 0)

def rigAdvance : StateAdvanced where
  epoch := 1
  transitionIndex := 0
  miner := py "0x" ++ List.replicate 40 48
  parentStateRoot := hexText (List.replicate 32 1)
  newStateRoot := hexText (List.replicate 32 2)
  patchHash := hexText (List.replicate 32 2)
  evalReportHash := hexText (List.replicate 32 6)
  coreVersionHash := hexText (List.replicate 32 4)
  epochContextRoot := hexText (List.replicate 32 3)
  improvementCredits := 10
  transitionFormatVersion := 33
  compactPatchBytes := rigDescriptor
  provenance := sampleProvenance

/-- The credit of a rig for that receipt, under the stand-in hash. -/
def rigCredit (rigId : Nat) : CoreTexCreditAccepted where
  epoch := 1
  rigId := rigId
  operator := py "0x" ++ List.replicate 40 48
  solveIndex := 4
  receiptHash := hexText (writeBE 32 2)
  challengeId := hexText (List.replicate 32 5)
  workUnitsBps := 0
  creditsEarned := 10
  provenance := sampleProvenance

def rigDomain : Digest :=
  ⟨writeBE 32 0, length_writeBE 32 0⟩

def rigDigest : Digest :=
  ⟨writeBE 32 2, length_writeBE 32 2⟩

/-- What the calldata decodes to. -/
def rigReceipt : CoreTexReceipt where
  values :=
    [("rigId", .int 7), ("operator", .str (py "0x" ++ List.replicate 40 48)),
      ("epochId", .int 1), ("solveIndex", .int 4),
      ("prevReceiptHash", .str (hexText (List.replicate 32 0))), ("outcome", .int 2),
      ("challengeId", .str (hexText (List.replicate 32 5))),
      ("parentStateRoot", .str (hexText (List.replicate 32 1))),
      ("newStateRoot", .str (hexText (List.replicate 32 2))),
      ("epochContextRoot", .str (hexText (List.replicate 32 3))),
      ("coreVersionHash", .str (hexText (List.replicate 32 4))),
      ("evalReportHash", .str (hexText (List.replicate 32 6))),
      ("patchHash", .str (hexText (List.replicate 32 2))),
      ("artifactHash", .str (hexText (List.replicate 32 9))), ("worldSeed", .int 0),
      ("rulesVersion", .int 0), ("workPolicyHash", .str (hexText (List.replicate 32 0))),
      ("workUnitsBps", .int 0), ("difficultyCountSnapshot", .int 0),
      ("transitionFormatVersion", .int 33), ("scoreBeforePpm", .int 0),
      ("scoreAfterPpm", .int 0), ("issuedAt", .int 0), ("expiresAt", .int 2),
      ("compactPatchBytes", .bytes rigDescriptor),
      ("signature", .bytes Secp256k1.degenerateSignature.bytes)]

theorem decodeSubmitCalldata_rigCalldata : decodeSubmitCalldata rigCalldata = .ok rigReceipt := by
  decide +kernel

/-- The sample's signature is recovered to an address: its sum is `G - 2 G`. -/
theorem ecrecover_rig : ∃ address, Secp256k1.ecrecover tailDigest rigDigest.bytes
    Secp256k1.degenerateSignature.bytes = .ok address := by
  open Secp256k1 in
  have hs : degenerateSignature.s = 1 := by decide +kernel
  have he : readBE rigDigest.bytes = 2 := by decide +kernel
  have hsum : degenerateSignature.s • generator - readBE rigDigest.bytes • generator =
      -generator := by
    rw [hs, he, one_nsmul, two_nsmul]
    abel
  have hreg : degenerateSignature.s • generator ≠ readBE rigDigest.bytes • generator := by
    intro heq
    rw [heq, sub_self] at hsum
    exact generator_ne_zero (neg_eq_zero.mp hsum.symm)
  have hcode := ecrecover_regular tailDigest inRange_degenerate isPointAt_generator hreg
  have hkey : recoveredKey degenerateSignature.r degenerateSignature.s (readBE rigDigest.bytes)
      generator ≠ 0 := by
    have hinv := inv_val_pos inRange_degenerate
    rw [recoveredKey, hsum]
    exact nsmul_ne_zero (neg_ne_zero.mpr generator_ne_zero) hinv.1 hinv.2
  cases hq : encode (recoveredKey degenerateSignature.r degenerateSignature.s
      (readBE rigDigest.bytes) generator) with
  | none => exact absurd (encode_eq_none_iff.mp hq) hkey
  | some q =>
      rw [hq] at hcode
      exact ⟨_, hcode⟩

/-- The steps that let an advance through. -/
theorem joinAdvance_of_steps {domainSeparator digest : Digest} {verifySignature : Bool}
    {advance : StateAdvanced} {credit : CoreTexCreditAccepted} {calldata : Option PyStr}
    {coordinatorSigner recovered : PyStr} {receipt : CoreTexReceipt}
    (hcredit : checkCredit advance credit = .ok ())
    (hread : readReceipt keccak256 calldata domainSeparator =
      .ok (receipt, digest, credit.receiptHash))
    (hfields : checkCalldata advance receipt = .ok ())
    (hseven : stepSeven keccak256 verifySignature receipt digest coordinatorSigner =
      .ok recovered)
    (hdescriptor : checkDescriptor keccak256 advance receipt = .ok ())
    (houtcome : intMember receipt "outcome" = .ok 2) :
    ∃ joined, joinAdvance keccak256 advance credit calldata domainSeparator coordinatorSigner
      verifySignature = .ok joined := by
  rw [joinAdvance, hcredit, ok_bind, hread, ok_bind]
  dsimp only
  rw [if_neg (not_not.mpr rfl), hfields, ok_bind, hseven, ok_bind, hdescriptor, ok_bind, houtcome,
    ok_bind, if_neg (not_not.mpr rfl)]
  exact ⟨_, rfl⟩

/-- The sample advance is joined, whatever rig the credit names. -/
theorem joinAdvance_rig (rigId : Nat) : ∃ signer joined,
    joinAdvance tailDigest rigAdvance (rigCredit rigId) (some rigCalldata) rigDomain signer true =
      .ok joined := by
  obtain ⟨address, hrecover⟩ := ecrecover_rig
  have hread : readReceipt tailDigest (some rigCalldata) rigDomain =
      .ok (rigReceipt, rigDigest, (rigCredit rigId).receiptHash) := by
    have hdigest : receiptDigest tailDigest rigDomain rigReceipt = .ok rigDigest := by
      decide +kernel
    have hhash : receiptHash tailDigest rigReceipt rigDigest =
        .ok (rigCredit rigId).receiptHash := by
      show receiptHash tailDigest rigReceipt rigDigest = .ok (hexText (writeBE 32 2))
      decide +kernel
    rw [readReceipt, calldataText, ok_bind, decodeSubmitCalldata_rigCalldata, ok_bind, hdigest,
      ok_bind, hhash, ok_bind]
  have hsignature : rigReceipt.get "signature" =
      .ok (.bytes Secp256k1.degenerateSignature.bytes) := by decide +kernel
  have hseven : stepSeven tailDigest true rigReceipt rigDigest (py address) =
      .ok (py address) := by
    rw [stepSeven, if_pos rfl, checkSignature, recoverSigner,
      bytesMember_eq_ok.mpr hsignature, ok_bind, hrecover]
    show (if ¬ addressesEqual (py address) (py address) then _ else _) = _
    rw [if_neg (not_not.mpr (addressesEqual_iff.mpr rfl))]
  have hcredit : checkCredit rigAdvance (rigCredit rigId) = .ok () :=
    checkCredit_eq_ok.mpr ⟨rfl, rfl, rfl⟩
  obtain ⟨joined, hjoined⟩ := joinAdvance_of_steps tailDigest hcredit hread (by decide +kernel) hseven
    (by decide +kernel) (by decide +kernel)
  exact ⟨py address, joined, hjoined⟩

end CoreTex.Join
