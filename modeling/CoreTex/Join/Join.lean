import CoreTex.Join.ReceiptCalldata

/-!
# CoreTex.Join.Join

The resolver join (`join.py`): registry advances, mining credits and transaction calldata,
grouped by transaction and closed by hashes and the coordinator's signature.

`joinAll` answers with an exception where a step raises anything but `JoinError`. The three
handlers of `TransitionDescriptorError` read `exc.message`, an attribute that class does not
set, so they raise `AttributeError` themselves (`descriptorMessage`).
-/

namespace CoreTex.Join

open CoreTex.Lib

/-! ### Decoded logs -/

/-- `LogProvenance`. -/
structure LogProvenance where
  address : Option PyStr
  blockNumber : Option Nat
  logIndex : Option Nat
  transactionHash : Option PyStr
  transactionIndex : Option Nat
  removed : Bool
  deriving DecidableEq, Repr

/-- `StateAdvanced`. -/
structure StateAdvanced where
  epoch : Nat
  transitionIndex : Nat
  miner : PyStr
  parentStateRoot : PyStr
  newStateRoot : PyStr
  patchHash : PyStr
  evalReportHash : PyStr
  coreVersionHash : PyStr
  epochContextRoot : PyStr
  improvementCredits : Nat
  transitionFormatVersion : Nat
  compactPatchBytes : Bytes
  provenance : LogProvenance
  deriving DecidableEq, Repr

/-- `join_key`. -/
def StateAdvanced.joinKey (advance : StateAdvanced) : Nat × PyStr × PyStr :=
  (advance.epoch, advance.parentStateRoot, advance.patchHash)

/-- `CoreTexCreditAccepted`. -/
structure CoreTexCreditAccepted where
  epoch : Nat
  rigId : Nat
  operator : PyStr
  solveIndex : Nat
  receiptHash : PyStr
  challengeId : PyStr
  workUnitsBps : Nat
  creditsEarned : Nat
  provenance : LogProvenance
  deriving DecidableEq, Repr

/-- `DecodedLogs`, as far as the join reads it. -/
structure DecodedLogs where
  advances : List StateAdvanced
  coretexCredits : List CoreTexCreditAccepted

/-- `str(provenance.transaction_hash or "")`. -/
def LogProvenance.tx (provenance : LogProvenance) : PyStr :=
  provenance.transactionHash.getD []

/-- What `calldata_for(tx)` does: it answers text, something that is not text, or raises. -/
inductive Lookup
  | text (calldata : PyStr)
  | notText
  | raises

/-- `coordinator_signer`: one address, or a callable that answers or raises. -/
inductive CoordinatorSigner
  | address (signer : PyStr)
  | callable (signerFor : LogProvenance → Option PyStr)

/-- `signer_for(provenance)`. -/
def CoordinatorSigner.signerFor (signer : CoordinatorSigner) (provenance : LogProvenance) :
    Except PyExc PyStr :=
  match signer with
  | .address s => .ok s
  | .callable f =>
    match f provenance with
    | some s => .ok s
    | none => .error .callerRaised

/-! ### The key report -/

/-- `index_advances`: the advances by join key, refused at the first key seen twice. -/
def indexAdvances : List StateAdvanced → List (Nat × PyStr × PyStr) →
    Except PyExc (List (Nat × PyStr × PyStr))
  | [], out => .ok out
  | advance :: advances, out =>
    if advance.joinKey ∈ out then
      let epoch := advance.epoch
      let parent := text advance.parentStateRoot
      let patch := text advance.patchHash
      joinError "JOIN_KEY_COLLISION" (s!"two advances share (epoch, parentStateRoot, patchHash) = " ++
        s!"({epoch}, '{parent}', '{patch}'). The verifier's " ++
        "coreTexPatchCredited guard makes that impossible on one registry, so these logs " ++
        "are not one registry's history")
    else indexAdvances advances (out ++ [advance.joinKey])

/-- What `assert_key_is_patch_keyed` reports. -/
structure KeyReport where
  advances : Nat
  distinctThreePartKeys : Nat
  twoPartKeyCollisions : List (String × List PyStr)
  cycled : Bool
  note : String
  deriving DecidableEq, Repr

/-- `assert_key_is_patch_keyed`. -/
def assertKeyIsPatchKeyed (advances : List StateAdvanced) : Except PyExc KeyReport := do
  let parents := (advances.map fun a => (a.epoch, a.parentStateRoot)).eraseDups
  let twoPart := parents.map fun key =>
    (key, (advances.filter fun a => (a.epoch, a.parentStateRoot) = key).map (·.patchHash))
  let collisions := (twoPart.filter fun entry => 1 < entry.2.length).map fun entry =>
    let epoch := entry.1.1
    let parent := text entry.1.2
    (s!"{epoch}:{parent}", entry.2)
  let keys ← indexAdvances advances []
  .ok {
    advances := advances.length
    distinctThreePartKeys := keys.length
    twoPartKeyCollisions := collisions
    cycled := !collisions.isEmpty
    note :=
      if collisions.isEmpty then
        "this history contains no head cycle, so a two-part key would NOT have been " ++
        "caught here. It is still wrong — see design §7.4"
      else
        "(epoch, parentStateRoot) collided for the listed parents; a two-part key would " ++
        "have collapsed those transitions into one" }

/-! ### One advance -/

/-- `JoinedTransition`. -/
structure JoinedTransition where
  advance : StateAdvanced
  credit : CoreTexCreditAccepted
  receipt : CoreTexReceipt
  digest : Bytes
  receiptHash : PyStr
  recoveredSigner : PyStr
  transactionHash : PyStr
  checks : List String
  deriving DecidableEq, Repr

/-- `ScreenerPass`. -/
structure ScreenerPass where
  credit : CoreTexCreditAccepted
  receipt : CoreTexReceipt
  checks : List String
  deriving DecidableEq, Repr

/-- `abi.addresses_equal`. -/
def addressesEqual (a b : PyStr) : Bool :=
  lower a == lower b

/-- `exc.message` of a `TransitionDescriptorError`, which has no such attribute. -/
def descriptorMessage : Except PyExc String :=
  .error (.attributeError "message")

/-- Step 2: the credit against the advance. -/
def checkCredit (advance : StateAdvanced) (credit : CoreTexCreditAccepted) :
    Except PyExc Unit :=
  if credit.epoch ≠ advance.epoch then
    let credited := credit.epoch
    let advanced := advance.epoch
    joinError "JOIN_FIELD_MISMATCH" s!"credit epoch {credited} != advance epoch {advanced}"
  else if ¬ addressesEqual credit.operator advance.miner then
    let operator := text credit.operator
    let miner := text advance.miner
    joinError "JOIN_FIELD_MISMATCH" s!"credit operator {operator} != advance miner {miner}"
  else if credit.creditsEarned ≠ advance.improvementCredits then
    let earned := credit.creditsEarned
    let improvement := advance.improvementCredits
    joinError "JOIN_FIELD_MISMATCH" (s!"creditsEarned {earned} != improvementCredits " ++
      s!"{improvement}; the two contracts disagree about what was paid")
  else .ok ()

/-- The text handed to the decoder; what is not text has no `startswith`. -/
def calldataText (calldata : Option PyStr) : Except PyExc PyStr :=
  match calldata with
  | some s => .ok s
  | none => .error (.attributeError "startswith")

variable (keccak256 : Bytes → Digest)

/-- Steps 3 to 5: the receipt, its digest and its hash. -/
def readReceipt (calldata : Option PyStr) (domainSeparator : Digest) :
    Except PyExc (CoreTexReceipt × Digest × PyStr) := do
  let calldata ← calldataText calldata
  let receipt ← decodeSubmitCalldata calldata
  let digest ← receiptDigest keccak256 domainSeparator receipt
  let recomputed ← receiptHash keccak256 receipt digest
  .ok (receipt, digest, recomputed)

/-- `_C_TO_A_FIELDS`: the member, the name of the advance's field and the field. -/
def cToAFields : List (String × String × (StateAdvanced → Value)) :=
  [("epochId", "epoch", fun a => .int a.epoch),
    ("parentStateRoot", "parent_state_root", fun a => .str a.parentStateRoot),
    ("newStateRoot", "new_state_root", fun a => .str a.newStateRoot),
    ("patchHash", "patch_hash", fun a => .str a.patchHash),
    ("evalReportHash", "eval_report_hash", fun a => .str a.evalReportHash),
    ("coreVersionHash", "core_version_hash", fun a => .str a.coreVersionHash),
    ("epochContextRoot", "epoch_context_root", fun a => .str a.epochContextRoot),
    ("transitionFormatVersion", "transition_format_version",
      fun a => .int a.transitionFormatVersion)]

/-- `want == got` of step 6: numbers as numbers, text as text. -/
def sameField (want got : Value) : Except PyExc Bool :=
  match want, got with
  | .int m, .int n => .ok (m == n)
  | .str s, .str t => .ok (s == t)
  | _, _ => .error (.valueError "invalid literal for int() with base 10")

/-- A value inside a message. -/
def Value.show : Value → String
  | .int n => toString n
  | .str s => text s
  | .bytes b => toString (b.map UInt8.toNat)

/-- The loop of step 6. -/
def checkFields (advance : StateAdvanced) (receipt : CoreTexReceipt) :
    List (String × String × (StateAdvanced → Value)) → Except PyExc Unit
  | [] => .ok ()
  | (calldataName, advanceName, field) :: fields => do
    let want := field advance
    let got ← receipt.get calldataName
    let same ← sameField want got
    if same then checkFields advance receipt fields
    else
      let gotText := got.show
      let wantText := want.show
      joinError "JOIN_FIELD_MISMATCH"
        s!"calldata {calldataName}={gotText} != advance {advanceName}={wantText}"

/-- `receipt[name]` used as text, as bytes and as a number. -/
def strMember (receipt : CoreTexReceipt) (name : String) : Except PyExc PyStr := do
  match ← receipt.get name with
  | .str s => .ok s
  | _ => .error (.typeError name)

def bytesMember (receipt : CoreTexReceipt) (name : String) : Except PyExc Bytes := do
  match ← receipt.get name with
  | .bytes b => .ok b
  | _ => .error (.typeError name)

def intMember (receipt : CoreTexReceipt) (name : String) : Except PyExc Nat := do
  match ← receipt.get name with
  | .int n => .ok n
  | _ => .error (.typeError name)

/-- Step 6: the calldata against the advance. -/
def checkCalldata (advance : StateAdvanced) (receipt : CoreTexReceipt) : Except PyExc Unit := do
  checkFields advance receipt cToAFields
  let operator ← strMember receipt "operator"
  if ¬ addressesEqual operator advance.miner then
    joinError "JOIN_FIELD_MISMATCH" "calldata operator != advance miner"
  else
    let patch ← bytesMember receipt "compactPatchBytes"
    if patch ≠ advance.compactPatchBytes then
      joinError "JOIN_FIELD_MISMATCH" ("the calldata's compactPatchBytes differ from the ones " ++
        "the registry logged. Member 24 is UNSIGNED, so this is exactly the substitution " ++
        "patchHash exists to catch")
    else .ok ()

/-- The address that signed the digest. -/
def recoverSigner (receipt : CoreTexReceipt) (digest : Digest) : Except PyExc PyStr := do
  let signature ← bytesMember receipt "signature"
  match Secp256k1.ecrecover keccak256 digest.bytes signature with
  | .ok recovered => .ok (py recovered)
  | .error exc => joinError "JOIN_SIGNATURE_INVALID" exc.message

/-- Step 7 of an advance. -/
def checkSignature (receipt : CoreTexReceipt) (digest : Digest) (coordinatorSigner : PyStr) :
    Except PyExc PyStr := do
  let recovered ← recoverSigner keccak256 receipt digest
  if ¬ addressesEqual recovered coordinatorSigner then
    let found := text recovered
    let signer := text coordinatorSigner
    joinError "JOIN_SIGNATURE_INVALID"
      (s!"ecrecover(digest, signature) = {found}, mining.coordinatorSigner() = " ++ s!"{signer}")
  else .ok recovered

/-- Step 7, unless it is turned off; then there is no signer. -/
def stepSeven (verifySignature : Bool) (receipt : CoreTexReceipt) (digest : Digest)
    (coordinatorSigner : PyStr) : Except PyExc PyStr :=
  if verifySignature then checkSignature keccak256 receipt digest coordinatorSigner else .ok []

/-- `rig.check_state_advance_patch_hash`. -/
def checkStateAdvancePatchHash (patchHash : PyStr) : Except DescriptorRefusal Unit :=
  if bareLower (strip patchHash) = zeroWord then .error .advancePatchHashZero else .ok ()

/-- Step 8: the patch hash names a descriptor, addresses these bytes, and the descriptor is the
one of this edge. -/
def checkDescriptor (advance : StateAdvanced) (receipt : CoreTexReceipt) : Except PyExc Unit := do
  match checkStateAdvancePatchHash advance.patchHash with
  | .error _ =>
    let message ← descriptorMessage
    joinError "JOIN_ADVANCE_PATCH_HASH_ZERO" message
  | .ok _ =>
    let computed := transitionDescriptorHash (fun b => (keccak256 b).bytes) advance.compactPatchBytes
    if computed ≠ advance.patchHash then
      let computed := text computed
      let confirmed := text advance.patchHash
      .error (.rigEventError ("patchHash mismatch: keccak256(abi.encodePacked(" ++
        "\"coretex-transition-descriptor-v3\", compactPatchBytes)) = " ++
        s!"{computed}, the confirmed advance says {confirmed}"))
    else
      let version ← intMember receipt "transitionFormatVersion"
      match decodeTransitionDescriptor (fun b => (keccak256 b).bytes) advance.compactPatchBytes
          (some advance.parentStateRoot) (some advance.newStateRoot) none (some version) with
      | .ok _ => .ok ()
      | .error _ =>
        let message ← descriptorMessage
        joinError "JOIN_DESCRIPTOR_BINDING_INVALID" message

/-- `join_advance`. -/
def joinAdvance (advance : StateAdvanced) (credit : CoreTexCreditAccepted)
    (calldata : Option PyStr) (domainSeparator : Digest) (coordinatorSigner : PyStr)
    (verifySignature : Bool) : Except PyExc JoinedTransition := do
  checkCredit advance credit
  let (receipt, digest, recomputed) ← readReceipt keccak256 calldata domainSeparator
  if recomputed ≠ credit.receiptHash then
    let found := text recomputed
    let logged := text credit.receiptHash
    joinError "JOIN_RECEIPT_HASH_MISMATCH"
      (s!"recomputed receiptHash {found} != the mining log's {logged}. This " ++
      "is the step that binds the calldata to the confirmed credit, so nothing downstream " ++
      "of it — artifactHash, workPolicyHash, the signature — can be relied on")
  else
    checkCalldata advance receipt
    let recovered ← stepSeven keccak256 verifySignature receipt digest coordinatorSigner
    checkDescriptor keccak256 advance receipt
    let outcome ← intMember receipt "outcome"
    if outcome ≠ 2 then
      joinError "JOIN_FIELD_MISMATCH" ("an advance's receipt must declare outcome 2 " ++
        s!"(state advance); this one declares {outcome}")
    else
      .ok {
        advance := advance
        credit := credit
        receipt := receipt
        digest := digest.bytes
        receiptHash := recomputed
        recoveredSigner := recovered
        transactionHash := advance.provenance.tx
        checks := ["step1_advance_decoded", "step2_credit_event_joined", "step3_calldata_decoded",
          "step4_receipt_hash_bound", "step5_artifact_hash_bound_via_digest",
          "step6_calldata_bound_to_logs",
          if verifySignature then "step7_coordinator_signature_verified"
            else "step7_coordinator_signature_SKIPPED",
          "step8_descriptor_hash_verified", "step8_descriptor_decoded",
          "step8_descriptor_roots_bound",
          "step8_transition_format_version_bound_to_descriptor_byte"] }

/-! ### One screener pass -/

/-- The refusal codes of the screener's discipline. -/
inductive ScreenerRefusal
  | descriptorUnexpected
  | patchHashNonzero
  deriving DecidableEq, Repr

/-- `rig.check_screener_descriptor`. -/
def checkScreenerDescriptor (raw : Bytes)
    (transitionFormatVersion scoreBeforePpm scoreAfterPpm : Nat) (patchHash : PyStr) :
    Except ScreenerRefusal Unit := do
  refuseIf (raw ≠ []) .descriptorUnexpected
  refuseIf (transitionFormatVersion ≠ 0) .descriptorUnexpected
  refuseIf (scoreBeforePpm ≠ 0) .descriptorUnexpected
  refuseIf (scoreAfterPpm ≠ 0) .descriptorUnexpected
  refuseIf (bareLower patchHash ≠ zeroWord) .patchHashNonzero

/-- The discipline of a screener's receipt, as the branch runs it. -/
def screenerDiscipline (receipt : CoreTexReceipt) : Except PyExc (Except ScreenerRefusal Unit) := do
  let patch ← bytesMember receipt "compactPatchBytes"
  let version ← intMember receipt "transitionFormatVersion"
  let scoreBefore ← intMember receipt "scoreBeforePpm"
  let scoreAfter ← intMember receipt "scoreAfterPpm"
  let patchHash ← strMember receipt "patchHash"
  .ok (checkScreenerDescriptor patch version scoreBefore scoreAfter patchHash)

/-- The signature of a screener's receipt. -/
def checkScreenerSignature (credit : CoreTexCreditAccepted) (receipt : CoreTexReceipt)
    (digest : Digest) (coordinatorSigner : CoordinatorSigner) : Except PyExc Unit := do
  let recovered ← recoverSigner keccak256 receipt digest
  let expectedSigner ← coordinatorSigner.signerFor credit.provenance
  if ¬ addressesEqual recovered expectedSigner then
    joinError "JOIN_SIGNATURE_INVALID" "screener signature invalid"
  else .ok ()

/-- The same, unless it is turned off. -/
def screenerStepSeven (verifySignature : Bool) (credit : CoreTexCreditAccepted)
    (receipt : CoreTexReceipt) (digest : Digest) (coordinatorSigner : CoordinatorSigner) :
    Except PyExc Unit :=
  if verifySignature then checkScreenerSignature keccak256 credit receipt digest coordinatorSigner
  else .ok ()

/-- The branch of `join_all` for a credit without an advance, up to its `except JoinError`. -/
def joinScreener (credit : CoreTexCreditAccepted) (calldata : Option PyStr)
    (domainSeparator : Digest) (coordinatorSigner : CoordinatorSigner) (verifySignature : Bool) :
    Except PyExc ScreenerPass := do
  let (receipt, digest, recomputed) ← readReceipt keccak256 calldata domainSeparator
  if recomputed ≠ credit.receiptHash then
    joinError "JOIN_RECEIPT_HASH_MISMATCH" "screener receipt hash does not bind its credit"
  else
    screenerStepSeven keccak256 verifySignature credit receipt digest coordinatorSigner
    let outcome ← intMember receipt "outcome"
    if outcome ≠ 1 then
      joinError "JOIN_FIELD_MISMATCH" ("a credit with no advance must declare outcome " ++
        s!"1; it declares {outcome}")
    else
      match ← screenerDiscipline receipt with
      | .ok _ =>
        .ok {
          credit := credit
          receipt := receipt
          checks := ["screener_only_no_advance", "step3_calldata_decoded",
            "step4_receipt_hash_bound",
            if verifySignature then "step7_coordinator_signature_verified"
              else "step7_coordinator_signature_SKIPPED",
            "step8_screener_outcome1_discipline"] }
      | .error _ =>
        let message ← descriptorMessage
        joinError "JOIN_SCREENER_DISCIPLINE_VIOLATED" message

/-! ### The whole scan -/

/-- An entry of `unresolved`; a field the entry does not have is `none`. -/
structure Unresolved where
  code : String
  transactionHash : PyStr
  epoch : Option Nat
  patchHash : Option PyStr
  advances : Option Nat
  credits : Option Nat
  reason : String
  deriving DecidableEq, Repr

/-- One of the entries a scan answers with. -/
inductive Entry
  | transition (joined : JoinedTransition)
  | screenerPass (pass : ScreenerPass)
  | unresolved (entry : Unresolved)
  deriving DecidableEq, Repr

/-- `calldata_for(tx)`, evaluated. -/
def evalLookup (lookup : Lookup) : Except PyExc (Option PyStr) :=
  match lookup with
  | .text s => .ok (some s)
  | .notText => .ok none
  | .raises => .error .callerRaised

/-- `try … except JoinError`. -/
def exceptJoinError {α : Type} (attempt : Except PyExc α) (entry : α → Entry)
    (unresolved : JoinError → Unresolved) : Except PyExc Entry :=
  match attempt with
  | .ok a => .ok (entry a)
  | .error (.join e) => .ok (.unresolved (unresolved e))
  | .error exc => .error exc

/-- The entry of an advance whose transaction has no credit. -/
def missingCredit (tx : PyStr) (advance : StateAdvanced) : Unresolved where
  code := "JOIN_CREDIT_EVENT_MISSING"
  transactionHash := tx
  epoch := some advance.epoch
  patchHash := some advance.patchHash
  advances := none
  credits := none
  reason := "no RigCoreTexCreditAccepted in the same transaction. Either this " ++
    "advance came through the raw registry mutator, or the mining " ++
    "address in this deployment is wrong"

/-- The entry of a transaction with more than one advance or credit. -/
def ambiguous (tx : PyStr) (advances credits : Nat) : Unresolved where
  code := "JOIN_AMBIGUOUS_TRANSACTION"
  transactionHash := tx
  epoch := none
  patchHash := none
  advances := some advances
  credits := some credits
  reason := "more than one advance/credit pair in one transaction"

/-- The entry of a credit whose screener branch raised. -/
def failedScreener (tx : PyStr) (credit : CoreTexCreditAccepted) (e : JoinError) : Unresolved where
  code := e.code
  transactionHash := tx
  epoch := some credit.epoch
  patchHash := none
  advances := none
  credits := none
  reason := e.message

/-- The entry of an advance whose join raised. -/
def failedAdvance (tx : PyStr) (advance : StateAdvanced) (e : JoinError) : Unresolved where
  code := e.code
  transactionHash := tx
  epoch := some advance.epoch
  patchHash := some advance.patchHash
  advances := none
  credits := none
  reason := e.message

/-- What the callers of `join_all` supply beside the logs. -/
structure JoinContext where
  calldataFor : PyStr → Lookup
  domainSeparator : Digest
  coordinatorSigner : CoordinatorSigner
  verifySignature : Bool

/-- The body of the loop over transactions. -/
def joinGroup (ctx : JoinContext) (tx : PyStr) (advances : List StateAdvanced)
    (credits : List CoreTexCreditAccepted) : Except PyExc (List Entry) :=
  match advances, credits with
  | advances, [] => .ok (advances.map fun advance => .unresolved (missingCredit tx advance))
  | [], [credit] => do
    let entry ← exceptJoinError
      (do
        let calldata ← evalLookup (ctx.calldataFor tx)
        joinScreener keccak256 credit calldata ctx.domainSeparator ctx.coordinatorSigner
          ctx.verifySignature)
      .screenerPass (failedScreener tx credit)
    .ok [entry]
  | [advance], [credit] => do
    let entry ← exceptJoinError
      (do
        let calldata ← evalLookup (ctx.calldataFor tx)
        let signer ← ctx.coordinatorSigner.signerFor credit.provenance
        joinAdvance keccak256 advance credit calldata ctx.domainSeparator signer
          ctx.verifySignature)
      .transition (failedAdvance tx advance)
    .ok [entry]
  | advances, credits => .ok [.unresolved (ambiguous tx advances.length credits.length)]

/-- `by_tx`, in the order of `sorted(by_tx.items())`. -/
def DecodedLogs.byTx (decoded : DecodedLogs) :
    List (PyStr × List StateAdvanced × List CoreTexCreditAccepted) :=
  let txs := (decoded.advances.map (·.provenance.tx) ++
    decoded.coretexCredits.map (·.provenance.tx)).dedup
  sortPairs (txs.map fun tx => (tx, decoded.advances.filter (·.provenance.tx = tx),
    decoded.coretexCredits.filter (·.provenance.tx = tx)))

/-- The loop over transactions. -/
def joinGroups (ctx : JoinContext) :
    List (PyStr × List StateAdvanced × List CoreTexCreditAccepted) → Except PyExc (List Entry)
  | [] => .ok []
  | (tx, advances, credits) :: groups => do
    let entries ← joinGroup keccak256 ctx tx advances credits
    let rest ← joinGroups ctx groups
    .ok (entries ++ rest)

/-- `JoinResult`. -/
structure JoinResult where
  transitions : List JoinedTransition
  screenerPasses : List ScreenerPass
  unresolved : List Unresolved
  keyReport : KeyReport
  deriving DecidableEq, Repr

def Entry.asTransition : Entry → Option JoinedTransition
  | .transition joined => some joined
  | _ => none

def Entry.asScreenerPass : Entry → Option ScreenerPass
  | .screenerPass pass => some pass
  | _ => none

def Entry.asUnresolved : Entry → Option Unresolved
  | .unresolved entry => some entry
  | _ => none

/-- The order of `transitions.sort`. -/
def TransitionLe (a b : JoinedTransition) : Prop :=
  a.advance.epoch < b.advance.epoch ∨
    a.advance.epoch = b.advance.epoch ∧ a.advance.transitionIndex ≤ b.advance.transitionIndex

instance : DecidableRel TransitionLe := fun a b => by
  unfold TransitionLe
  infer_instance

/-- `join_all`. -/
def joinAll (ctx : JoinContext) (decoded : DecodedLogs) : Except PyExc JoinResult := do
  let entries ← joinGroups keccak256 ctx decoded.byTx
  let keyReport ← assertKeyIsPatchKeyed decoded.advances
  .ok {
    transitions := (entries.filterMap Entry.asTransition).insertionSort TransitionLe
    screenerPasses := entries.filterMap Entry.asScreenerPass
    unresolved := entries.filterMap Entry.asUnresolved
    keyReport := keyReport }

end CoreTex.Join
