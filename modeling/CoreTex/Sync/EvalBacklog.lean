import CoreTex.EvalReport.SeedIdentity
import CoreTex.Lib.JsMap
import CoreTex.Lib.Sort
import CoreTex.Replay.RpcLog
import CoreTex.State.Codec

/-!
# CoreTex.Sync.EvalBacklog

The eval backlog of a client: accepted advances that owe a score replay, with the parent state of
each (`client-sync-cli.ts`).

A pass scans new blocks, adds their advances to the backlog, replays what it can, and commits its
files one by one: it may throw before, or crash in between. Over all passes, no advance is lost
before its replay passes (`runPasses_accounted`), and every advance in the backlog keeps a parent
state that verifies (`pending_replayable`). Hashes and roots are hex, which `String.toLower` moves
as `toLowerCase` does.
-/

namespace CoreTex.Sync

open CoreTex.Lib CoreTex.EvalReport

/-! ### Entries -/

/-- Why an entry is pending. -/
inductive PendingReason
  | awaiting_epoch_secret_reveal | epoch_context_unavailable | epoch_context_unresolved
  deriving DecidableEq, Repr

/-- The path `eval-parent-snapshots/<epochId>-<hash>.bin`, by its parts. -/
structure SnapshotRef where
  epochId : Int
  hash : String
  deriving DecidableEq, Repr

/-- `EvalBacklogEntry`. -/
structure EvalBacklogEntry where
  epochId : Int
  advanceBlock : Int
  artifactHash : String
  miner : String
  reason : PendingReason
  parentStateRoot : String
  corpusRoot : String
  coreVersionHash : String
  patchHash : String
  parentSnapshotRef : Option SnapshotRef
  deriving DecidableEq, Repr

/-- `<epochId>:<artifactHash>`, by its parts. -/
abbrev BacklogKey := Int × String

/-- `evalBacklogKey`. -/
def evalBacklogKey (epochId : Int) (artifactHash : String) : BacklogKey :=
  (epochId, artifactHash.toLower)

def EvalBacklogEntry.key (entry : EvalBacklogEntry) : BacklogKey :=
  evalBacklogKey entry.epochId entry.artifactHash

/-- The characters that a path keeps of a hash. -/
def isRefChar (c : Char) : Bool :=
  c.isDigit || decide ('a' ≤ c ∧ c ≤ 'f') || c == 'x'

/-- `evalParentSnapshotRef`, of a key. -/
def evalParentSnapshotRef (key : BacklogKey) : SnapshotRef where
  epochId := key.1
  hash := String.ofList (key.2.toList.filter isRefChar)

section Backlog

variable (keccak256 : Bytes → Digest)

/-- `evalBacklogEntryFromAdvance`. -/
def evalBacklogEntryFromAdvance (adv : CoreTexStateAdvancedEvent) (advanceBlock : Int)
    (reason : PendingReason) : Except String EvalBacklogEntry := do
  let patchHash ← semanticPatchHash keccak256 adv.compactPatchBytes
  return {
    epochId := adv.epoch
    advanceBlock := advanceBlock
    artifactHash := adv.evalReportHash.toLower
    miner := adv.miner.toLower
    reason := reason
    parentStateRoot := adv.parentStateRoot.toLower
    corpusRoot := adv.corpusRoot.toLower
    coreVersionHash := adv.coreVersionHash.toLower
    patchHash := patchHash
    parentSnapshotRef := none }

/-- An entry put over the one with its key: the first block and a reference stay. -/
def mergeEntry (byKey : JsMap BacklogKey EvalBacklogEntry) (entry : EvalBacklogEntry) :
    JsMap BacklogKey EvalBacklogEntry :=
  match JsMap.get byKey entry.key with
  | none => JsMap.set byKey entry.key entry
  | some prior => JsMap.set byKey entry.key { entry with
      advanceBlock := prior.advanceBlock
      parentSnapshotRef := entry.parentSnapshotRef.or prior.parentSnapshotRef }

/-- `upsertEvalBacklog`'s map, before it is sorted. -/
def mergeBacklog (existing incoming : List EvalBacklogEntry) :
    JsMap BacklogKey EvalBacklogEntry :=
  incoming.foldl mergeEntry (existing.foldl (fun m entry => JsMap.set m entry.key entry) [])

/-- By block, then by key. -/
def compareEntries (localeCompare : BacklogKey → BacklogKey → Int) (a b : EvalBacklogEntry) :
    Int :=
  if a.advanceBlock - b.advanceBlock ≠ 0 then a.advanceBlock - b.advanceBlock
  else localeCompare a.key b.key

variable (S : CompareSort) (localeCompare : BacklogKey → BacklogKey → Int)

/-- `upsertEvalBacklog`. -/
def upsertEvalBacklog (existing incoming : List EvalBacklogEntry) : List EvalBacklogEntry :=
  S.sort (compareEntries localeCompare) (JsMap.values (mergeBacklog existing incoming))

/-- `removeFromEvalBacklog`. -/
def removeFromEvalBacklog (backlog : List EvalBacklogEntry) (entry : EvalBacklogEntry) :
    List EvalBacklogEntry :=
  backlog.filter fun e => e.key ≠ entry.key

end Backlog

/-! ### Parent states -/

/-- `pack`. -/
def pack (state : CortexState) : Bytes :=
  state.words.flatMap writeBigEndian32

/-- Why a snapshot is not used. -/
inductive SnapshotRefusal
  | noRef
  | missing (ref : SnapshotRef)
  | unreadable (error : JsError)
  | otherRoot (root : String)

/-- The files of the snapshot store. -/
abbrev Snapshots := JsMap SnapshotRef Bytes

section Snapshots

variable (keccak256 : Bytes → Digest)

/-- The root of a state, in lower-case hex. -/
def stateRoot (state : CortexState) : String :=
  (bytesToHex (merkleizeState keccak256 state).bytes).toLower

/-- `loadVerifiedParentSnapshot`. -/
def loadVerifiedParentSnapshot (snapshots : Snapshots) (entry : EvalBacklogEntry) :
    Except SnapshotRefusal CortexState :=
  match entry.parentSnapshotRef with
  | none => .error .noRef
  | some ref =>
    match JsMap.get snapshots ref with
    | none => .error (.missing ref)
    | some bytes =>
      match unpack bytes with
      | .error e => .error (.unreadable e)
      | .ok state =>
        if stateRoot keccak256 state ≠ entry.parentStateRoot.toLower then
          .error (.otherRoot (stateRoot keccak256 state))
        else .ok state

end Snapshots

/-! ### Where a replay starts -/

/-- `ReplayFromBlockSource`. -/
inductive ReplayFromBlockSource
  | flag | env | snapshot_cursor | launch_recovery | state_deploy_block | env_deploy_block
  deriving DecidableEq, Repr

/-- What `resolveReplayFromBlock` reads of a `LaunchRecoveryPin`. -/
structure LaunchRecoveryPin where
  fromBlock : Int
  attainedAtBlock : Int

/-- The inputs of `resolveReplayFromBlock`. -/
structure ReplayFromInputs where
  flag : Option Int
  envReplayFromBlock : Option Int
  envRegistryDeployBlock : Option Int
  snapshotCursorBlock : Option Int
  stateRegistryDeployBlock : Option Int
  launchRecoveryPin : Option LaunchRecoveryPin
  launchRecoveryDisabled : Bool

/-- The start of a replay after its overrides: a cursor that a pin does not discard, a pin, and a
deploy block. -/
def resolveReplayBase (inputs : ReplayFromInputs) (pin : Option LaunchRecoveryPin) :
    Except String (Int × ReplayFromBlockSource) :=
  let attained := fun cursor => pin.all fun p => decide (p.attainedAtBlock ≤ cursor)
  match inputs.snapshotCursorBlock.filter attained, pin, inputs.stateRegistryDeployBlock,
      inputs.envRegistryDeployBlock with
  | some cursor, _, _, _ => .ok (cursor + 1, .snapshot_cursor)
  | none, some p, _, _ => .ok (p.fromBlock, .launch_recovery)
  | none, none, some block, _ => .ok (block, .state_deploy_block)
  | none, none, none, some block => .ok (block, .env_deploy_block)
  | none, none, none, none => .error ("registry replay needs a from-block: run " ++
      "coretex-client-setup with --registry-deploy-block (or set " ++
      "CORETEX_REGISTRY_DEPLOY_BLOCK), or pass --from-block")

/-- `resolveReplayFromBlock`. -/
def resolveReplayFromBlock (inputs : ReplayFromInputs) :
    Except String (Int × ReplayFromBlockSource) :=
  match inputs.flag, inputs.envReplayFromBlock with
  | some block, _ => .ok (block, .flag)
  | none, some block => .ok (block, .env)
  | none, none => resolveReplayBase inputs
      (if inputs.launchRecoveryDisabled then none else inputs.launchRecoveryPin)

/-! ### A pass -/

/-- An accepted advance, and the state before it. -/
structure AdvanceRecord where
  adv : CoreTexStateAdvancedEvent
  parentState : CortexState

/-- The state file, as far as a pass reads it. -/
structure ClientSyncState where
  cursorBlock : Option Int
  evalBacklog : List EvalBacklogEntry
  evalVerifiedThroughBlock : Int

/-- What a client trusts: its state file and its snapshot store. -/
structure TrustedState where
  stateFile : ClientSyncState
  snapshots : Snapshots

/-- Before the first pass. -/
def TrustedState.blank : TrustedState where
  stateFile := ⟨none, [], -1⟩
  snapshots := []

/-- What one pass is given: its options, the chain's head, what is read and verified of the chain
from a block on, secrets, corpora and score replays, the checks after the replays, and the number
of file operations that are done before a crash, if there is one. -/
structure SyncPass where
  flag : Option Int
  envReplayFromBlock : Option Int
  envRegistryDeployBlock : Option Int
  stateRegistryDeployBlock : Option Int
  launchRecoveryPin : Option LaunchRecoveryPin
  launchRecoveryDisabled : Bool
  snapshotAvailable : Bool
  skipScoreReplay : Bool
  versionMatch : Bool
  confirmedHead : Int
  replayRegistry : Int → Except String (List AdvanceRecord)
  epochSecretFor : Int → Except String Bool
  contextFor : EvalBacklogEntry → Except String Bool
  replayScore : EvalBacklogEntry → CortexState → Except String Unit
  finalChecks : Except String Unit
  fileSteps : Option Nat

/-- What `resolveReplayFromBlock` is given. -/
def SyncPass.replayFromInputs (pass : SyncPass) (trusted : TrustedState) : ReplayFromInputs where
  flag := pass.flag
  envReplayFromBlock := pass.envReplayFromBlock
  envRegistryDeployBlock := pass.envRegistryDeployBlock
  snapshotCursorBlock := if pass.snapshotAvailable then trusted.stateFile.cursorBlock else none
  stateRegistryDeployBlock := pass.stateRegistryDeployBlock
  launchRecoveryPin := pass.launchRecoveryPin
  launchRecoveryDisabled := pass.launchRecoveryDisabled

/-- The block that a pass moves its cursor to. -/
def SyncPass.newCursorBlock (pass : SyncPass) (fromBlock : Int) : Int :=
  if fromBlock ≤ pass.confirmedHead then pass.confirmedHead else fromBlock - 1

/-- One write or removal of a file. -/
inductive FileOp
  | writeSnapshot (ref : SnapshotRef) (bytes : Bytes)
  | writeState (state : ClientSyncState)
  | removeSnapshot (ref : SnapshotRef)

def TrustedState.writeStateFile (trusted : TrustedState) (state : ClientSyncState) :
    TrustedState :=
  { trusted with stateFile := state }

def FileOp.apply (trusted : TrustedState) : FileOp → TrustedState
  | .writeSnapshot ref bytes => { trusted with snapshots := JsMap.set trusted.snapshots ref bytes }
  | .writeState state => trusted.writeStateFile state
  | .removeSnapshot ref => { trusted with snapshots := JsMap.delete trusted.snapshots ref }

section Pass

variable (keccak256 : Bytes → Digest) (S : CompareSort)
  (localeCompare : BacklogKey → BacklogKey → Int)

/-- `parentStateForEntry`: of the advances of this pass the last one, else the snapshot. -/
def parentStateForEntry (records : List AdvanceRecord) (snapshots : Snapshots)
    (entry : EvalBacklogEntry) : Except SnapshotRefusal CortexState :=
  match (records.filter fun record =>
      stateRoot keccak256 record.parentState = entry.parentStateRoot.toLower).getLast? with
  | some record => .ok record.parentState
  | none => loadVerifiedParentSnapshot keccak256 snapshots entry

/-- Does any entry have a secret and a parent state? -/
def anyDrainable (pass : SyncPass) (records : List AdvanceRecord) (snapshots : Snapshots) :
    List EvalBacklogEntry → Except String Bool
  | [] => .ok false
  | entry :: entries => do
    let secret ← pass.epochSecretFor entry.epochId
    if secret && isOk (parentStateForEntry keccak256 records snapshots entry) then .ok true
    else anyDrainable pass records snapshots entries

/-- The backlog, and the keys whose replay passed. -/
abbrev Drained := List EvalBacklogEntry × List BacklogKey

/-- The loop over the backlog as it was. -/
def drainEntries (pass : SyncPass) (records : List AdvanceRecord) (snapshots : Snapshots) :
    List EvalBacklogEntry → Drained → Except String Drained
  | [], drained => .ok drained
  | entry :: entries, (backlog, passed) => do
    let secret ← pass.epochSecretFor entry.epochId
    if secret = false then drainEntries pass records snapshots entries (backlog, passed)
    else
      let resolved ← pass.contextFor entry
      if resolved = false then
        let unresolved := { entry with reason := .epoch_context_unresolved }
        drainEntries pass records snapshots entries
          (upsertEvalBacklog S localeCompare backlog [unresolved], passed)
      else
        match parentStateForEntry keccak256 records snapshots entry with
        | .error _ => drainEntries pass records snapshots entries (backlog, passed)
        | .ok parentState =>
          pass.replayScore entry parentState
          -- only now is the entry removed
          drainEntries pass records snapshots entries
            (removeFromEvalBacklog backlog entry, passed ++ [entry.key])

/-- The score replays of a pass. -/
def drainBacklog (pass : SyncPass) (records : List AdvanceRecord) (snapshots : Snapshots)
    (backlog : List EvalBacklogEntry) : Except String Drained :=
  if pass.skipScoreReplay then .ok (backlog, [])
  else do
    let drainable ← anyDrainable keccak256 pass records snapshots backlog
    if drainable = false then .ok (backlog, [])
    else drainEntries keccak256 S localeCompare pass records snapshots backlog (backlog, [])

/-- `gcEvalParentSnapshots`: what no entry refers to goes. -/
def gcEvalParentSnapshots (snapshots : Snapshots) (backlog : List EvalBacklogEntry) :
    List FileOp :=
  ((snapshots.map Prod.fst).filter fun ref =>
    some ref ∉ backlog.map fun entry => entry.parentSnapshotRef).map .removeSnapshot

/-- An advance of a pass as an entry, with its reference and its parent state. -/
def incomingEntry (newCursorBlock : Int) (record : AdvanceRecord) :
    Except String (EvalBacklogEntry × Bytes) := do
  let base ← evalBacklogEntryFromAdvance keccak256 record.adv newCursorBlock
    .awaiting_epoch_secret_reveal
  return ({ base with parentSnapshotRef := some (evalParentSnapshotRef base.key) },
    pack record.parentState)

/-- The state file that a pass writes. -/
def nextStateFile (pass : SyncPass) (previous : ClientSyncState) (newCursorBlock : Int)
    (backlog : List EvalBacklogEntry) : ClientSyncState where
  cursorBlock := some newCursorBlock
  evalBacklog := backlog
  evalVerifiedThroughBlock :=
    if backlog = [] ∧ pass.skipScoreReplay = false then
      max previous.evalVerifiedThroughBlock newCursorBlock
    else previous.evalVerifiedThroughBlock

/-- One pass: the file operations of its commit, and the keys whose replay passed. -/
def runSync (trusted : TrustedState) (pass : SyncPass) :
    Except String (List FileOp × List BacklogKey) := do
  let start ← resolveReplayFromBlock (pass.replayFromInputs trusted)
  let records ← pass.replayRegistry start.1
  let newCursorBlock := pass.newCursorBlock start.1
  let incoming ← records.mapM (incomingEntry keccak256 newCursorBlock)
  let backlog := upsertEvalBacklog S localeCompare trusted.stateFile.evalBacklog
    (incoming.map Prod.fst)
  let drained ← drainBacklog keccak256 S localeCompare pass records trusted.snapshots backlog
  pass.finalChecks
  if pass.versionMatch = false then return ([], drained.2)
  let writes := incoming.map fun e => FileOp.writeSnapshot (evalParentSnapshotRef e.1.key) e.2
  let committed := writes.foldl FileOp.apply trusted
  return (writes ++ .writeState (nextStateFile pass trusted.stateFile newCursorBlock drained.1) ::
    gcEvalParentSnapshots committed.snapshots drained.1, drained.2)

/-- What is trusted after a pass, and the keys whose replay passed. -/
def TrustedState.after (trusted : TrustedState) (pass : SyncPass) :
    TrustedState × List BacklogKey :=
  match runSync keccak256 S localeCompare trusted pass with
  | .error _ => (trusted, [])
  | .ok (ops, passed) =>
    (((pass.fileSteps.elim ops ops.take).foldl FileOp.apply trusted), passed)

/-- Passes in a row, from nothing trusted: what is trusted, and all keys whose replay passed. -/
def runPasses (passes : List SyncPass) : TrustedState × List BacklogKey :=
  passes.foldl (fun run pass =>
    let next := run.1.after keccak256 S localeCompare pass
    (next.1, run.2 ++ next.2)) (.blank, [])

end Pass

/-! ### What the parts keep -/

/-- The key of an advance. -/
def advanceKey (adv : CoreTexStateAdvancedEvent) : BacklogKey :=
  evalBacklogKey adv.epoch adv.evalReportHash

/-- What is kept of an entry as others with its key are put over it, or its reason is refreshed. -/
structure Lasting (Q : EvalBacklogEntry → Prop) : Prop where
  merged : ∀ entry prior, Q entry → Q prior → entry.key = prior.key → Q { entry with
    advanceBlock := prior.advanceBlock
    parentSnapshotRef := entry.parentSnapshotRef.or prior.parentSnapshotRef }
  reason : ∀ entry reason, Q entry → Q { entry with reason := reason }

theorem exists_of_forall₂_left {α β : Type} {R : α → β → Prop} {xs : List α} {ys : List β} {x : α}
    (h : List.Forall₂ R xs ys) (hx : x ∈ xs) : ∃ y ∈ ys, R x y := by
  induction h with
  | nil => cases hx
  | cons hxy _ ih =>
      rcases List.mem_cons.mp hx with rfl | hx
      · exact ⟨_, List.mem_cons_self, hxy⟩
      · obtain ⟨y, hy, hR⟩ := ih hx
        exact ⟨y, List.mem_cons_of_mem _ hy, hR⟩

section Parts

variable {keccak256 : Bytes → Digest} {S : CompareSort}
  {localeCompare : BacklogKey → BacklogKey → Int} {Q : EvalBacklogEntry → Prop}
  {existing incoming backlog : List EvalBacklogEntry} {byKey : JsMap BacklogKey EvalBacklogEntry}
  {entry : EvalBacklogEntry} {key : BacklogKey}

theorem mem_keys_mergeEntry : key ∈ (mergeEntry byKey entry).map Prod.fst ↔
    key = entry.key ∨ key ∈ byKey.map Prod.fst := by
  unfold mergeEntry
  split
  next => exact JsMap.mem_keys_set
  next => exact JsMap.mem_keys_set

theorem mem_keys_mergeBacklog : key ∈ (mergeBacklog existing incoming).map Prod.fst ↔
    key ∈ existing.map EvalBacklogEntry.key ∨ key ∈ incoming.map EvalBacklogEntry.key := by
  have hexisting : ∀ m : JsMap BacklogKey EvalBacklogEntry, key ∈
      (existing.foldl (fun m entry => JsMap.set m entry.key entry) m).map Prod.fst ↔
        key ∈ existing.map EvalBacklogEntry.key ∨ key ∈ m.map Prod.fst := by
    induction existing with
    | nil => simp
    | cons e existing ih =>
        intro m
        rw [List.foldl_cons, ih, JsMap.mem_keys_set, List.map_cons, List.mem_cons]
        tauto
  have hincoming : ∀ m : JsMap BacklogKey EvalBacklogEntry, key ∈
      (incoming.foldl mergeEntry m).map Prod.fst ↔
        key ∈ incoming.map EvalBacklogEntry.key ∨ key ∈ m.map Prod.fst := by
    induction incoming with
    | nil => simp
    | cons e incoming ih =>
        intro m
        rw [List.foldl_cons, ih, mem_keys_mergeEntry, List.map_cons, List.mem_cons]
        tauto
  rw [mergeBacklog, hincoming, hexisting]
  simp [or_comm]

/-- Every entry of the map is under its key, and has what lasts. -/
theorem mergeEntry_lasting (hQ : Lasting Q) (hentry : Q entry)
    (h : ∀ x ∈ byKey, x.1 = x.2.key ∧ Q x.2) :
    ∀ x ∈ mergeEntry byKey entry, x.1 = x.2.key ∧ Q x.2 := by
  intro x hx
  unfold mergeEntry at hx
  split at hx
  next =>
    rcases JsMap.mem_set hx with rfl | hx
    · exact ⟨rfl, hentry⟩
    · exact h x hx
  next prior hprior =>
    rcases JsMap.mem_set hx with rfl | hx
    · obtain ⟨hkey, hQprior⟩ := h _ (JsMap.mem_of_get hprior)
      exact ⟨rfl, hQ.merged entry prior hentry hQprior hkey⟩
    · exact h x hx

theorem mergeBacklog_lasting (hQ : Lasting Q) (hexisting : ∀ e ∈ existing, Q e)
    (hincoming : ∀ e ∈ incoming, Q e) :
    ∀ x ∈ mergeBacklog existing incoming, x.1 = x.2.key ∧ Q x.2 := by
  have hstart : ∀ x ∈ existing.foldl (fun m entry => JsMap.set m entry.key entry)
      ([] : JsMap BacklogKey EvalBacklogEntry), x.1 = x.2.key ∧ Q x.2 := by
    refine List.foldlRecOn (motive := fun m : JsMap BacklogKey EvalBacklogEntry =>
      ∀ x ∈ m, x.1 = x.2.key ∧ Q x.2) _ _ nofun fun m hm e he x hx => ?_
    rcases JsMap.mem_set hx with rfl | hx
    · exact ⟨rfl, hexisting e he⟩
    · exact hm x hx
  exact List.foldlRecOn (motive := fun m : JsMap BacklogKey EvalBacklogEntry =>
    ∀ x ∈ m, x.1 = x.2.key ∧ Q x.2) _ _ hstart fun m hm e he =>
      mergeEntry_lasting hQ (hincoming e he) hm

theorem mem_upsert (hmem : entry ∈ upsertEvalBacklog S localeCompare existing incoming) :
    ∃ k, (k, entry) ∈ mergeBacklog existing incoming := by
  rw [upsertEvalBacklog, S.mem_sort, JsMap.values, List.mem_map] at hmem
  obtain ⟨x, hx, rfl⟩ := hmem
  exact ⟨x.1, hx⟩

theorem upsert_lasting (hQ : Lasting Q) (hexisting : ∀ e ∈ existing, Q e)
    (hincoming : ∀ e ∈ incoming, Q e) :
    ∀ e ∈ upsertEvalBacklog S localeCompare existing incoming, Q e := by
  intro e he
  obtain ⟨k, hk⟩ := mem_upsert he
  exact (mergeBacklog_lasting hQ hexisting hincoming _ hk).2

/-- Nothing is dropped by an upsert, and nothing else comes in. -/
theorem mem_keys_upsert :
    key ∈ (upsertEvalBacklog S localeCompare existing incoming).map EvalBacklogEntry.key ↔
      key ∈ existing.map EvalBacklogEntry.key ∨ key ∈ incoming.map EvalBacklogEntry.key := by
  have hkeyed := @mergeBacklog_lasting (fun _ => True) existing incoming
    ⟨fun _ _ _ _ _ => trivial, fun _ _ _ => trivial⟩ (fun _ _ => trivial) fun _ _ => trivial
  rw [← mem_keys_mergeBacklog, List.mem_map, List.mem_map]
  constructor
  · rintro ⟨e, he, rfl⟩
    obtain ⟨k, hk⟩ := mem_upsert he
    exact ⟨(k, e), hk, (hkeyed _ hk).1⟩
  · rintro ⟨x, hx, rfl⟩
    refine ⟨x.2, ?_, (hkeyed x hx).1.symm⟩
    rw [upsertEvalBacklog, S.mem_sort]
    exact List.mem_map.mpr ⟨x, hx, rfl⟩

theorem mem_keys_remove (h : key ∈ backlog.map EvalBacklogEntry.key) :
    key ∈ (removeFromEvalBacklog backlog entry).map EvalBacklogEntry.key ∨ key = entry.key := by
  obtain ⟨e, he, rfl⟩ := List.mem_map.mp h
  by_cases hkey : e.key = entry.key
  · exact .inr hkey
  · exact .inl (List.mem_map.mpr ⟨e, List.mem_filter.mpr ⟨he, decide_eq_true hkey⟩, rfl⟩)

/-- Every key stays in the backlog or its replay passed, and what lasts is kept. -/
structure Drains (Q : EvalBacklogEntry → Prop) (before after : Drained) : Prop where
  keys : ∀ key ∈ before.1.map EvalBacklogEntry.key,
    key ∈ after.1.map EvalBacklogEntry.key ∨ key ∈ after.2
  passed : ∀ key ∈ before.2, key ∈ after.2
  lasting : (∀ e ∈ before.1, Q e) → ∀ e ∈ after.1, Q e

theorem Drains.refl (before : Drained) : Drains Q before before where
  keys := fun _ h => .inl h
  passed := fun _ h => h
  lasting := fun h => h

theorem Drains.trans {a b c : Drained} (hab : Drains Q a b) (hbc : Drains Q b c) :
    Drains Q a c where
  keys := by
    intro k hk
    rcases hab.keys k hk with hk | hk
    · exact hbc.keys k hk
    · exact .inr (hbc.passed k hk)
  passed := fun k hk => hbc.passed k (hab.passed k hk)
  lasting := fun h => hbc.lasting (hab.lasting h)

theorem drainEntries_drains (hQ : Lasting Q) {pass : SyncPass} {records : List AdvanceRecord}
    {snapshots : Snapshots} {entries : List EvalBacklogEntry} {before after : Drained}
    (hentries : ∀ e ∈ entries, Q e)
    (h : drainEntries keccak256 S localeCompare pass records snapshots entries before =
      .ok after) : Drains Q before after := by
  induction entries generalizing before with
  | nil =>
      obtain rfl := Except.ok.inj h
      exact .refl _
  | cons entry entries ih =>
      obtain ⟨hentry, hrest⟩ := List.forall_mem_cons.mp hentries
      obtain ⟨backlog, passed⟩ := before
      unfold drainEntries at h
      obtain ⟨secret, -, h⟩ := bind_eq_ok.mp h
      split at h
      next => exact ih hrest h
      next =>
        obtain ⟨resolved, -, h⟩ := bind_eq_ok.mp h
        dsimp only at h
        split at h
        next =>
          have hstep : Drains Q (backlog, passed) (upsertEvalBacklog S localeCompare backlog
              [{ entry with reason := .epoch_context_unresolved }], passed) := {
            keys := fun k hk => .inl (mem_keys_upsert.mpr (.inl hk))
            passed := fun _ hk => hk
            lasting := by
              intro hbacklog
              refine upsert_lasting hQ hbacklog fun e he => ?_
              obtain rfl := List.mem_singleton.mp he
              exact hQ.reason entry _ hentry }
          exact hstep.trans (ih hrest h)
        next =>
          split at h
          next => exact ih hrest h
          next parentState _ =>
            obtain ⟨_, -, h⟩ := bind_eq_ok.mp h
            have hstep : Drains Q (backlog, passed)
                (removeFromEvalBacklog backlog entry, passed ++ [entry.key]) := {
              keys := fun k hk => (mem_keys_remove hk).imp id fun heq => by simp [heq]
              passed := fun k hk => List.mem_append_left _ hk
              lasting := fun hbacklog e he => hbacklog e (List.mem_of_mem_filter he) }
            exact hstep.trans (ih hrest h)

theorem drainBacklog_drains (hQ : Lasting Q) {pass : SyncPass} {records : List AdvanceRecord}
    {snapshots : Snapshots} {drained : Drained} (hbacklog : ∀ e ∈ backlog, Q e)
    (h : drainBacklog keccak256 S localeCompare pass records snapshots backlog = .ok drained) :
    Drains Q (backlog, []) drained := by
  unfold drainBacklog at h
  split at h
  next =>
    obtain rfl := Except.ok.inj h
    exact .refl _
  next =>
    obtain ⟨drainable, -, h⟩ := bind_eq_ok.mp h
    split at h
    next =>
      obtain rfl := Except.ok.inj h
      exact .refl _
    next => exact drainEntries_drains hQ hbacklog h

end Parts

/-! ### What a pass does -/

/-- A pass that returns: what it read, what it drained, and its file operations. -/
structure Synced (keccak256 : Bytes → Digest) (S : CompareSort)
    (localeCompare : BacklogKey → BacklogKey → Int) (trusted : TrustedState) (pass : SyncPass)
    (start : Int × ReplayFromBlockSource) (records : List AdvanceRecord)
    (incoming : List (EvalBacklogEntry × Bytes)) (drained : Drained) : Prop where
  resolved : resolveReplayFromBlock (pass.replayFromInputs trusted) = .ok start
  replayed : pass.replayRegistry start.1 = .ok records
  entered : records.mapM (incomingEntry keccak256 (pass.newCursorBlock start.1)) = .ok incoming
  drains : drainBacklog keccak256 S localeCompare pass records trusted.snapshots
    (upsertEvalBacklog S localeCompare trusted.stateFile.evalBacklog (incoming.map Prod.fst)) =
      .ok drained

/-- The snapshots that a pass writes. -/
def snapshotWrites (incoming : List (EvalBacklogEntry × Bytes)) : List FileOp :=
  incoming.map fun e => .writeSnapshot (evalParentSnapshotRef e.1.key) e.2

/-- Removals of snapshots that no entry refers to. -/
def Unreferenced (backlog : List EvalBacklogEntry) (gc : List FileOp) : Prop :=
  ∀ op ∈ gc, ∃ ref, op = .removeSnapshot ref ∧
    some ref ∉ backlog.map fun entry => entry.parentSnapshotRef

section Passes

variable {keccak256 : Bytes → Digest} {S : CompareSort}
  {localeCompare : BacklogKey → BacklogKey → Int} {trusted : TrustedState} {pass : SyncPass}

theorem runSync_eq_ok {ops : List FileOp} {passed : List BacklogKey}
    (h : runSync keccak256 S localeCompare trusted pass = .ok (ops, passed)) :
    ∃ start records incoming drained,
      Synced keccak256 S localeCompare trusted pass start records incoming drained ∧
      passed = drained.2 ∧
      (ops = [] ∨ ∃ gc, Unreferenced drained.1 gc ∧
        ops = snapshotWrites incoming ++ .writeState (nextStateFile pass trusted.stateFile
          (pass.newCursorBlock start.1) drained.1) :: gc) := by
  unfold runSync at h
  obtain ⟨start, hstart, h⟩ := bind_eq_ok.mp h
  obtain ⟨records, hrecords, h⟩ := bind_eq_ok.mp h
  obtain ⟨incoming, hincoming, h⟩ := bind_eq_ok.mp h
  obtain ⟨drained, hdrained, h⟩ := bind_eq_ok.mp h
  obtain ⟨_, -, h⟩ := bind_eq_ok.mp h
  refine ⟨start, records, incoming, drained, ⟨hstart, hrecords, hincoming, hdrained⟩, ?_⟩
  split at h
  next =>
    obtain ⟨rfl, rfl⟩ := Prod.mk.inj (pure_eq_ok.mp h)
    exact ⟨rfl, .inl rfl⟩
  next =>
    obtain ⟨rfl, rfl⟩ := Prod.mk.inj (pure_eq_ok.mp h)
    refine ⟨rfl, .inr ⟨_, fun op hop => ?_, rfl⟩⟩
    obtain ⟨ref, href, rfl⟩ := List.mem_map.mp hop
    exact ⟨ref, rfl, of_decide_eq_true (List.mem_filter.mp href).2⟩

/-- A pass leaves what is trusted alone, or stops among its snapshots, or writes its state file
after all of them. -/
theorem after_cases (trusted : TrustedState) (pass : SyncPass) :
    (trusted.after keccak256 S localeCompare pass).1 = trusted ∨
    ∃ start records incoming drained,
      Synced keccak256 S localeCompare trusted pass start records incoming drained ∧
      (trusted.after keccak256 S localeCompare pass).2 = drained.2 ∧
      ((∃ n, (trusted.after keccak256 S localeCompare pass).1 =
          ((snapshotWrites incoming).take n).foldl FileOp.apply trusted) ∨
        ∃ gc, Unreferenced drained.1 gc ∧
          (trusted.after keccak256 S localeCompare pass).1 = gc.foldl FileOp.apply
            (((snapshotWrites incoming).foldl FileOp.apply trusted).writeStateFile
              (nextStateFile pass trusted.stateFile (pass.newCursorBlock start.1) drained.1))) := by
  unfold TrustedState.after
  cases hrun : runSync keccak256 S localeCompare trusted pass with
  | error e => exact .inl rfl
  | ok out =>
      obtain ⟨ops, passed⟩ := out
      obtain ⟨start, records, incoming, drained, hsynced, rfl, rfl | ⟨gc, hgc, rfl⟩⟩ :=
        runSync_eq_ok hrun
      · left
        cases pass.fileSteps <;> simp [Option.elim]
      right
      refine ⟨start, records, incoming, drained, hsynced, rfl, ?_⟩
      cases pass.fileSteps with
      | none =>
          refine .inr ⟨gc, hgc, ?_⟩
          simp only [Option.elim, List.foldl_append, List.foldl_cons, FileOp.apply]
      | some n =>
          simp only [Option.elim, List.take_append]
          cases hn : n - (snapshotWrites incoming).length with
          | zero =>
              rw [List.take_zero, List.append_nil]
              exact .inl ⟨n, rfl⟩
          | succ k =>
              refine .inr ⟨gc.take k, fun op hop => hgc op (List.mem_of_mem_take hop), ?_⟩
              rw [List.take_of_length_le (by omega), List.take_succ_cons]
              simp only [List.foldl_append, List.foldl_cons, FileOp.apply]

theorem stateFile_foldl {ops : List FileOp}
    (h : ∀ op ∈ ops, ∀ state, op ≠ .writeState state) (trusted : TrustedState) :
    (ops.foldl FileOp.apply trusted).stateFile = trusted.stateFile := by
  induction ops generalizing trusted with
  | nil => rfl
  | cons op ops ih =>
      obtain ⟨hop, hrest⟩ := List.forall_mem_cons.mp h
      rw [List.foldl_cons, ih hrest]
      cases op with
      | writeSnapshot ref bytes => rfl
      | writeState state => exact absurd rfl (hop state)
      | removeSnapshot ref => rfl

theorem snapshotWrites_ne {incoming : List (EvalBacklogEntry × Bytes)} {op : FileOp}
    (h : op ∈ snapshotWrites incoming) (state : ClientSyncState) : op ≠ .writeState state := by
  obtain ⟨e, -, rfl⟩ := List.mem_map.mp h
  nofun

/-- The state file after a pass is the one before it or the one that the pass writes. -/
theorem stateFile_after (trusted : TrustedState) (pass : SyncPass) :
    (trusted.after keccak256 S localeCompare pass).1.stateFile = trusted.stateFile ∨
    ∃ start records incoming drained,
      Synced keccak256 S localeCompare trusted pass start records incoming drained ∧
      (trusted.after keccak256 S localeCompare pass).2 = drained.2 ∧
      (trusted.after keccak256 S localeCompare pass).1.stateFile =
        nextStateFile pass trusted.stateFile (pass.newCursorBlock start.1) drained.1 := by
  rcases after_cases trusted pass with
    h | ⟨start, records, incoming, drained, hsynced, hpassed, ⟨n, h⟩ | ⟨gc, hgc, h⟩⟩
  · exact .inl (by rw [h])
  · refine .inl ?_
    rw [h, stateFile_foldl fun op hop => snapshotWrites_ne (List.mem_of_mem_take hop)]
  · refine .inr ⟨start, records, incoming, drained, hsynced, hpassed, ?_⟩
    rw [h, stateFile_foldl]
    · rfl
    · intro op hop state
      obtain ⟨ref, rfl, -⟩ := hgc op hop
      nofun

/-- An entry made of an advance has the advance's key and parent, and its parent state. -/
theorem incomingEntry_eq_ok {record : AdvanceRecord} {newCursorBlock : Int}
    {e : EvalBacklogEntry × Bytes} (h : incomingEntry keccak256 newCursorBlock record = .ok e) :
    e.1.key = advanceKey record.adv ∧
      e.1.parentStateRoot = record.adv.parentStateRoot.toLower ∧
      e.1.parentSnapshotRef = some (evalParentSnapshotRef e.1.key) ∧
      e.2 = pack record.parentState := by
  unfold incomingEntry at h
  obtain ⟨base, hbase, h⟩ := bind_eq_ok.mp h
  obtain rfl := pure_eq_ok.mp h
  unfold evalBacklogEntryFromAdvance at hbase
  obtain ⟨patchHash, -, hbase⟩ := bind_eq_ok.mp hbase
  obtain rfl := pure_eq_ok.mp hbase
  exact ⟨Prod.ext rfl (toLower_toLower _), rfl, rfl, rfl⟩

theorem entered_of_record {records : List AdvanceRecord} {newCursorBlock : Int}
    {incoming : List (EvalBacklogEntry × Bytes)} {record : AdvanceRecord}
    (h : records.mapM (incomingEntry keccak256 newCursorBlock) = .ok incoming)
    (hrecord : record ∈ records) : ∃ e ∈ incoming, e.1.key = advanceKey record.adv := by
  obtain ⟨e, he, hmade⟩ := exists_of_forall₂_left (mapM_eq_ok.mp h) hrecord
  exact ⟨e, he, (incomingEntry_eq_ok hmade).1⟩

end Passes

/-! ### Nothing is lost -/

/-- The registry's accepted advances, each with its block. -/
abbrev ChainHistory := List (Int × CoreTexStateAdvancedEvent)

/-- A pass without overrides, from the deploy block or from the cursor, that reads the advances of
the blocks it scans, each with the state before it. -/
structure Faithful (keccak256 : Bytes → Digest) (history : ChainHistory) (pass : SyncPass) :
    Prop where
  flag : pass.flag = none
  env : pass.envReplayFromBlock = none
  pin : pass.launchRecoveryDisabled = true ∨ pass.launchRecoveryPin = none
  deployed : ∀ block, pass.stateRegistryDeployBlock = some block ∨
    pass.envRegistryDeployBlock = some block → ∀ x ∈ history, block ≤ x.1
  complete : ∀ start records, pass.replayRegistry start = .ok records → ∀ x ∈ history,
    start ≤ x.1 → x.1 ≤ pass.confirmedHead → ∃ record ∈ records, record.adv = x.2
  sound : ∀ start records, pass.replayRegistry start = .ok records → ∀ record ∈ records,
    (∃ x ∈ history, x.2 = record.adv) ∧
      stateRoot keccak256 record.parentState = record.adv.parentStateRoot.toLower

/-- Every advance up to the cursor is in the backlog or its replay passed, and up to the block that
is verified through its replay passed. -/
structure Accounted (history : ChainHistory) (state : ClientSyncState)
    (passed : List BacklogKey) : Prop where
  cursor : ∀ cursor, state.cursorBlock = some cursor → ∀ x ∈ history, x.1 ≤ cursor →
    advanceKey x.2 ∈ state.evalBacklog.map EvalBacklogEntry.key ∨ advanceKey x.2 ∈ passed
  verified : ∀ x ∈ history, x.1 ≤ state.evalVerifiedThroughBlock → advanceKey x.2 ∈ passed

section Accounted

variable {keccak256 : Bytes → Digest} {S : CompareSort}
  {localeCompare : BacklogKey → BacklogKey → Int} {history : ChainHistory} {pass : SyncPass}
  {trusted : TrustedState} {passed : List BacklogKey}

theorem Accounted.mono {state : ClientSyncState} (h : Accounted history state passed)
    (more : List BacklogKey) : Accounted history state (passed ++ more) where
  cursor := fun cursor hcursor x hx hle =>
    (h.cursor cursor hcursor x hx hle).imp id fun hmem => List.mem_append_left _ hmem
  verified := fun x hx hle => List.mem_append_left _ (h.verified x hx hle)

theorem Accounted.blank (hblocks : ∀ x ∈ history, 0 ≤ x.1) :
    Accounted history TrustedState.blank.stateFile [] where
  cursor := nofun
  verified := by
    intro x hx hle
    have hnegative : x.1 ≤ -1 := hle
    have := hblocks x hx
    omega

/-- A replay starts right after the cursor, or no later than any advance. -/
theorem Faithful.start (h : Faithful keccak256 history pass)
    {start : Int × ReplayFromBlockSource}
    (hstart : resolveReplayFromBlock (pass.replayFromInputs trusted) = .ok start) :
    (∃ cursor, trusted.stateFile.cursorBlock = some cursor ∧ start.1 = cursor + 1) ∨
      ∀ x ∈ history, start.1 ≤ x.1 := by
  have hpin : (if pass.launchRecoveryDisabled then none else pass.launchRecoveryPin) = none := by
    rcases h.pin with hpin | hpin <;> simp [hpin]
  unfold resolveReplayFromBlock resolveReplayBase SyncPass.replayFromInputs at hstart
  simp only [h.flag, h.env, hpin, Option.all_none] at hstart
  split at hstart
  next _ _ _ _ cursor hcursor =>
    obtain rfl := Except.ok.inj hstart
    obtain ⟨hsome, -⟩ := Option.filter_eq_some_iff.mp hcursor
    split at hsome
    next => exact .inl ⟨cursor, hsome, rfl⟩
    next => cases hsome
  next _ _ _ _ p _ hnone => cases hnone
  next block _ _ hstate =>
    obtain rfl := Except.ok.inj hstart
    exact .inr (h.deployed block (.inl hstate))
  next block _ _ _ henv =>
    obtain rfl := Except.ok.inj hstart
    exact .inr (h.deployed block (.inr henv))
  next => cases hstart

theorem Accounted.after (hpass : Faithful keccak256 history pass)
    (h : Accounted history trusted.stateFile passed) :
    Accounted history (trusted.after keccak256 S localeCompare pass).1.stateFile
      (passed ++ (trusted.after keccak256 S localeCompare pass).2) := by
  rcases stateFile_after trusted pass with
    hsame | ⟨start, records, incoming, drained, hsynced, hpassed, hnext⟩
  · rw [hsame]
    exact h.mono _
  have hdrains := @drainBacklog_drains keccak256 S localeCompare (fun _ => True) _
    ⟨fun _ _ _ _ _ => trivial, fun _ _ _ => trivial⟩ pass records trusted.snapshots drained
    (fun _ _ => trivial) hsynced.drains
  have hcursor : ∀ x ∈ history, x.1 ≤ pass.newCursorBlock start.1 →
      advanceKey x.2 ∈ drained.1.map EvalBacklogEntry.key ∨
        advanceKey x.2 ∈ passed ++ drained.2 := by
    intro x hx hle
    have hentered : advanceKey x.2 ∈ (upsertEvalBacklog S localeCompare
        trusted.stateFile.evalBacklog (incoming.map Prod.fst)).map EvalBacklogEntry.key ∨
          advanceKey x.2 ∈ passed := by
      rw [mem_keys_upsert]
      by_cases hscanned : start.1 ≤ x.1
      · have hhead : x.1 ≤ pass.confirmedHead := by
          unfold SyncPass.newCursorBlock at hle
          split at hle <;> omega
        obtain ⟨record, hrecord, hadv⟩ := hpass.complete _ _ hsynced.replayed x hx hscanned hhead
        obtain ⟨e, he, hkey⟩ := entered_of_record hsynced.entered hrecord
        refine .inl (.inr (List.mem_map.mpr ⟨e.1, List.mem_map_of_mem he, ?_⟩))
        rw [hkey, hadv]
      · rcases hpass.start hsynced.resolved with ⟨cursor, hbefore, hstart⟩ | hdeployed
        · exact (h.cursor cursor hbefore x hx (by omega)).imp .inl id
        · exact absurd (hdeployed x hx) hscanned
    rcases hentered with hentered | hdone
    · exact (hdrains.keys _ hentered).imp id (List.mem_append_right _)
    · exact .inr (List.mem_append_left _ hdone)
  rw [hnext, hpassed]
  refine ⟨fun cursor hsome x hx hle => ?_, fun x hx hle => ?_⟩
  · obtain rfl := Option.some.inj hsome
    exact hcursor x hx hle
  · unfold nextStateFile at hle
    dsimp only at hle
    split at hle
    next hempty =>
      rcases le_max_iff.mp hle with hle | hle
      · exact List.mem_append_left _ (h.verified x hx hle)
      · refine (hcursor x hx hle).resolve_left fun hmem => ?_
        rw [hempty.1] at hmem
        cases hmem
    next => exact List.mem_append_left _ (h.verified x hx hle)

theorem length_blank_words :
    (List.replicate Ranges.wordCount (0 : Int)).length = Ranges.wordCount :=
  List.length_replicate

/-- `blankSubstrateState`: the blank substrate of launch. -/
def blankSubstrateState : CortexState where
  words := List.replicate Ranges.wordCount 0
  length_words := length_blank_words

/-- An advance over the blank state. -/
def blankAdvance : CoreTexStateAdvancedEvent where
  epoch := 1
  transitionIndex := 0
  miner := ""
  parentStateRoot := stateRoot tailDigest blankSubstrateState
  newStateRoot := ""
  patchHash := ""
  evalReportHash := "0xab"
  coreVersionHash := ""
  corpusRoot := ""
  activeFrontierRoot := ""
  improvementCredits := 0
  wordCount := 0
  compactPatchBytes := List.replicate 10 0

/-- The advance is in block 5. -/
def blankHistory : ChainHistory := [(5, blankAdvance)]

/-- A first pass up to block 6 that skips the replays and crashes before it is done. -/
def firstPass : SyncPass where
  flag := none
  envReplayFromBlock := none
  envRegistryDeployBlock := none
  stateRegistryDeployBlock := some 5
  launchRecoveryPin := none
  launchRecoveryDisabled := false
  snapshotAvailable := false
  skipScoreReplay := true
  versionMatch := true
  confirmedHead := 6
  replayRegistry := fun fromBlock =>
    .ok (if fromBlock ≤ 5 then [⟨blankAdvance, blankSubstrateState⟩] else [])
  epochSecretFor := fun _ => .ok false
  contextFor := fun _ => .ok false
  replayScore := fun _ _ => .ok ()
  finalChecks := .ok ()
  fileSteps := some 2

theorem firstPass_faithful : Faithful tailDigest blankHistory firstPass where
  flag := rfl
  env := rfl
  pin := .inr rfl
  deployed := by
    intro block hblock x hx
    obtain rfl := List.mem_singleton.mp hx
    rcases hblock with hblock | hblock
    · exact (Option.some.inj hblock).ge
    · cases hblock
  complete := by
    intro start records hrecords x hx hstart _
    obtain rfl := List.mem_singleton.mp hx
    obtain rfl := Except.ok.inj hrecords
    exact ⟨_, by rw [if_pos hstart]; exact List.mem_cons_self, rfl⟩
  sound := by
    intro start records hrecords record hrecord
    obtain rfl := Except.ok.inj hrecords
    split at hrecord
    next =>
      obtain rfl := List.mem_singleton.mp hrecord
      exact ⟨⟨_, List.mem_cons_self, rfl⟩, (toLower_toLower _).symm⟩
    next => cases hrecord

/-- **No score replay is skipped.** Over any passes, which may throw, run read-only, skip the
replays or crash between two files, every advance up to the cursor is in the backlog or its replay
passed, and up to the block that is verified through its replay passed. -/
theorem runPasses_accounted (keccak256 : Bytes → Digest) (S : CompareSort)
    (localeCompare : BacklogKey → BacklogKey → Int) (history : ChainHistory)
    (hblocks : ∀ x ∈ history, 0 ≤ x.1) (passes : List SyncPass)
    (hpasses : ∀ pass ∈ passes, Faithful keccak256 history pass) :
    Accounted history (runPasses keccak256 S localeCompare passes).1.stateFile
      (runPasses keccak256 S localeCompare passes).2 := by
  exact List.foldlRecOn
    (motive := fun run : TrustedState × List BacklogKey => Accounted history run.1.stateFile run.2)
    _ _ (.blank hblocks) fun run hrun pass hpass => hrun.after (hpasses pass hpass)

/-- After a first pass the advance is in the backlog. -/
theorem runPasses_accounted_sample :
    advanceKey blankAdvance ∈ (runPasses tailDigest .merge (fun _ _ => 0)
      [firstPass]).1.stateFile.evalBacklog.map EvalBacklogEntry.key := by
  have hrun := runPasses_accounted tailDigest .merge (fun _ _ => 0) blankHistory (by decide)
    [firstPass] fun pass hpass => List.mem_singleton.mp hpass ▸ firstPass_faithful
  exact (hrun.cursor 6 rfl _ List.mem_cons_self (by decide)).resolve_right nofun

end Accounted

/-! ### Parent states are kept -/

/-- The `i`-th block of blocks of one length. -/
theorem take_drop_flatMap {f : Int → Bytes} {size : Nat} (hsize : ∀ w, (f w).length = size)
    {words : List Int} {i : Nat} (hi : i < words.length) :
    ((words.flatMap f).drop (i * size)).take size = f words[i] := by
  induction words generalizing i with
  | nil => cases hi
  | cons w words ih =>
      rw [List.flatMap_cons]
      cases i with
      | zero => rw [Nat.zero_mul, List.drop_zero, List.take_left' (hsize w)]; rfl
      | succ i =>
          have hdrop : (i + 1) * size = (f w).length + i * size := by
            rw [hsize, Nat.succ_mul, Nat.add_comm]
          rw [hdrop, ← List.drop_drop, List.drop_left, List.getElem_cons_succ]
          exact ih (Nat.lt_of_succ_lt_succ hi)

/-- A packed state is unpacked to one with its root. -/
theorem unpack_pack (keccak256 : Bytes → Digest) (state : CortexState) :
    ∃ state', unpack (pack state) = .ok state' ∧
      stateRoot keccak256 state' = stateRoot keccak256 state := by
  have hsize : (pack state).length = packedSize := by
    have hsum : (state.words.map fun w => (writeBigEndian32 w).length).sum =
        state.words.length * 32 := by simp
    rw [pack, List.length_flatMap, hsum, state.length_words]
    rfl
  have hwords : (List.range Ranges.wordCount).map (fun i =>
      readBigEndian32 (((pack state).drop (i * 32)).take 32)) =
        state.words.map fun w => readBigEndian32 (writeBigEndian32 w) := by
    refine List.ext_getElem (by simp [state.length_words]) fun i hi hi' => ?_
    rw [List.length_map] at hi'
    simp only [List.getElem_map, List.getElem_range]
    rw [pack, take_drop_flatMap length_writeBigEndian32 hi']
  refine ⟨_, by
    rw [unpack]
    exact refuseIf_bind_eq_ok.mpr ⟨not_not.mpr hsize, rfl⟩, ?_⟩
  unfold stateRoot merkleizeState buildMerkleCache
  simp only [hwords, List.map_map]
  have hleaf : (leafHash keccak256 ∘ fun w => readBigEndian32 (writeBigEndian32 w)) =
      leafHash keccak256 := by
    funext w
    simp only [Function.comp_apply, leafHash,
      writeBigEndian32_readBigEndian32 (length_writeBigEndian32 w)]
  rw [hleaf]

/-- The bytes are a state with this root. -/
def Verifies (keccak256 : Bytes → Digest) (bytes : Bytes) (root : String) : Prop :=
  ∃ state, unpack bytes = .ok state ∧ stateRoot keccak256 state = root.toLower

/-- The advances of a history have different keys, or the same parent, and hashes that a path keeps
whole. -/
structure Distinguished (history : ChainHistory) : Prop where
  parent : ∀ x ∈ history, ∀ y ∈ history, advanceKey x.2 = advanceKey y.2 →
    x.2.parentStateRoot.toLower = y.2.parentStateRoot.toLower
  hex : ∀ x ∈ history, ∀ c ∈ x.2.evalReportHash.toLower.toList, isRefChar c = true

/-- An entry of an advance of the history, with its parent and its reference. -/
def OfHistory (history : ChainHistory) (e : EvalBacklogEntry) : Prop :=
  ∃ x ∈ history, e.key = advanceKey x.2 ∧
    e.parentStateRoot.toLower = x.2.parentStateRoot.toLower ∧
    e.parentSnapshotRef = some (evalParentSnapshotRef e.key)

/-- Every snapshot of an advance is its parent state. -/
def FilesVerify (keccak256 : Bytes → Digest) (history : ChainHistory) (snapshots : Snapshots) :
    Prop :=
  ∀ x ∈ history, ∀ bytes, JsMap.get snapshots (evalParentSnapshotRef (advanceKey x.2)) =
    some bytes → Verifies keccak256 bytes x.2.parentStateRoot

/-- Every entry has its snapshot. -/
def Present (backlog : List EvalBacklogEntry) (snapshots : Snapshots) : Prop :=
  ∀ e ∈ backlog, ∃ bytes, JsMap.get snapshots (evalParentSnapshotRef e.key) = some bytes

/-- What is trusted: entries of the history, snapshots that verify, and one for each entry. -/
structure Backed (keccak256 : Bytes → Digest) (history : ChainHistory) (trusted : TrustedState) :
    Prop where
  entries : ∀ e ∈ trusted.stateFile.evalBacklog, OfHistory history e
  files : FilesVerify keccak256 history trusted.snapshots
  present : Present trusted.stateFile.evalBacklog trusted.snapshots

theorem lasting_ofHistory (history : ChainHistory) : Lasting (OfHistory history) where
  merged := by
    rintro e prior ⟨x, hx, hkey, hparent, href⟩ - -
    exact ⟨x, hx, hkey, hparent, by rw [href]; rfl⟩
  reason := fun _ _ h => h

/-- The entry has the key of one of these. -/
def Held (backlog incoming : List EvalBacklogEntry) (e : EvalBacklogEntry) : Prop :=
  e.key ∈ backlog.map EvalBacklogEntry.key ∨ e.key ∈ incoming.map EvalBacklogEntry.key

theorem lasting_held (backlog incoming : List EvalBacklogEntry) :
    Lasting (Held backlog incoming) where
  merged := fun _ _ h _ _ => h
  reason := fun _ _ h => h

section Backed

variable {keccak256 : Bytes → Digest} {S : CompareSort}
  {localeCompare : BacklogKey → BacklogKey → Int} {history : ChainHistory} {pass : SyncPass}
  {trusted : TrustedState} {incoming : List (EvalBacklogEntry × Bytes)}

/-- A path tells the keys of a history apart. -/
theorem Distinguished.key_of_ref (h : Distinguished history) {x y : Int × CoreTexStateAdvancedEvent}
    (hx : x ∈ history) (hy : y ∈ history)
    (href : evalParentSnapshotRef (advanceKey x.2) = evalParentSnapshotRef (advanceKey y.2)) :
    advanceKey x.2 = advanceKey y.2 := by
  have hwhole : ∀ z ∈ history, (evalParentSnapshotRef (advanceKey z.2)).hash =
      (advanceKey z.2).2 := by
    intro z hz
    have hall : (advanceKey z.2).2.toList.filter isRefChar = (advanceKey z.2).2.toList :=
      List.filter_eq_self.mpr (h.hex z hz)
    rw [evalParentSnapshotRef, hall, String.ofList_toList]
  refine Prod.ext (congrArg SnapshotRef.epochId href) ?_
  rw [← hwhole x hx, ← hwhole y hy, href]

/-- What a pass reads is an entry of the history, and its bytes are the parent state. -/
theorem Faithful.entry (hpass : Faithful keccak256 history pass) {fromBlock block : Int}
    {records : List AdvanceRecord} (hrecords : pass.replayRegistry fromBlock = .ok records)
    (hentered : records.mapM (incomingEntry keccak256 block) = .ok incoming)
    {e : EvalBacklogEntry × Bytes} (he : e ∈ incoming) :
    ∃ x ∈ history, e.1.key = advanceKey x.2 ∧ OfHistory history e.1 ∧
      Verifies keccak256 e.2 x.2.parentStateRoot := by
  obtain ⟨record, hrecord, hmade⟩ := exists_of_forall₂_left (mapM_eq_ok.mp hentered).flip he
  obtain ⟨hkey, hparent, href, hbytes⟩ := incomingEntry_eq_ok hmade
  obtain ⟨⟨x, hx, hadv⟩, hroot⟩ := hpass.sound _ _ hrecords record hrecord
  rw [← hadv] at hkey hparent hroot
  obtain ⟨state, hunpack, hsame⟩ := unpack_pack keccak256 record.parentState
  refine ⟨x, hx, hkey, ⟨x, hx, hkey, by rw [hparent, toLower_toLower], href⟩, state, ?_, ?_⟩
  · rw [hbytes, hunpack]
  · rw [hsame, hroot]

/-- One snapshot write keeps every snapshot of the history, and all that are there. -/
theorem FilesVerify.write (hdistinct : Distinguished history) {snapshots : Snapshots}
    (h : FilesVerify keccak256 history snapshots) {x : Int × CoreTexStateAdvancedEvent}
    (hx : x ∈ history) {bytes : Bytes} (hbytes : Verifies keccak256 bytes x.2.parentStateRoot) :
    FilesVerify keccak256 history
      (JsMap.set snapshots (evalParentSnapshotRef (advanceKey x.2)) bytes) := by
  intro y hy found hfound
  rw [JsMap.get_set] at hfound
  split at hfound
  next href =>
    obtain rfl := Option.some.inj hfound
    obtain ⟨state, hunpack, hroot⟩ := hbytes
    have hkey := hdistinct.key_of_ref hx hy href
    exact ⟨state, hunpack, hroot.trans (hdistinct.parent x hx y hy hkey)⟩
  next => exact h y hy found hfound

theorem Present.write {backlog : List EvalBacklogEntry} {snapshots : Snapshots}
    (h : Present backlog snapshots) (ref : SnapshotRef) (bytes : Bytes) :
    Present backlog (JsMap.set snapshots ref bytes) := by
  intro e he
  rw [JsMap.get_set]
  split
  next => exact ⟨bytes, rfl⟩
  next => exact h e he

/-- The snapshots of a pass, or the first of them, keep what is there and add their own. -/
theorem snapshotWrites_keep (hdistinct : Distinguished history)
    (hincoming : ∀ e ∈ incoming, ∃ x ∈ history, e.1.key = advanceKey x.2 ∧
      Verifies keccak256 e.2 x.2.parentStateRoot) (trusted : TrustedState) :
    let written := (snapshotWrites incoming).foldl FileOp.apply trusted
    (FilesVerify keccak256 history trusted.snapshots →
        FilesVerify keccak256 history written.snapshots) ∧
      (∀ backlog, Present backlog trusted.snapshots → Present backlog written.snapshots) ∧
      Present (incoming.map Prod.fst) written.snapshots := by
  induction incoming generalizing trusted with
  | nil => exact ⟨id, fun _ => id, nofun⟩
  | cons e incoming ih =>
      obtain ⟨⟨x, hx, hkey, hbytes⟩, hrest⟩ := List.forall_mem_cons.mp hincoming
      obtain ⟨hfiles, hpresent, hown⟩ := ih hrest
        (FileOp.apply trusted (.writeSnapshot (evalParentSnapshotRef e.1.key) e.2))
      refine ⟨fun h => hfiles ?_, fun backlog h => hpresent backlog (h.write _ _), ?_⟩
      · rw [FileOp.apply, hkey]
        exact h.write hdistinct hx hbytes
      · intro e' he'
        rcases List.mem_cons.mp he' with rfl | he'
        · refine hpresent [e.1] (fun e' he' => ?_) e.1 List.mem_cons_self
          obtain rfl := List.mem_singleton.mp he'
          exact ⟨e.2, by rw [FileOp.apply, JsMap.get_set, if_pos rfl]⟩
        · exact hown e' he'

/-- Removing what no entry refers to keeps what is backed. -/
theorem Backed.gc (h : Backed keccak256 history trusted) {gc : List FileOp}
    (hgc : Unreferenced trusted.stateFile.evalBacklog gc) :
    Backed keccak256 history (gc.foldl FileOp.apply trusted) := by
  induction gc generalizing trusted with
  | nil => exact h
  | cons op gc ih =>
      obtain ⟨⟨ref, rfl, href⟩, hrest⟩ := List.forall_mem_cons.mp hgc
      have hget : ∀ key, JsMap.get (JsMap.delete trusted.snapshots ref) key =
          if decide (key ≠ ref) then JsMap.get trusted.snapshots key else none :=
        JsMap.get_filter_key trusted.snapshots fun key => decide (key ≠ ref)
      have hremoved : Backed keccak256 history
          (FileOp.apply trusted (.removeSnapshot ref)) := {
        entries := h.entries
        files := by
          intro x hx bytes hbytes
          rw [FileOp.apply, hget] at hbytes
          split at hbytes
          next => exact h.files x hx bytes hbytes
          next => cases hbytes
        present := by
          intro e he
          have hother : evalParentSnapshotRef e.key ≠ ref := by
            rintro rfl
            obtain ⟨-, -, -, -, hown⟩ := h.entries e he
            exact href (List.mem_map.mpr ⟨e, he, hown⟩)
          rw [FileOp.apply, hget, if_pos (decide_eq_true hother)]
          exact h.present e he }
      exact ih hremoved hrest

theorem Backed.after (hdistinct : Distinguished history)
    (hpass : Faithful keccak256 history pass) (h : Backed keccak256 history trusted) :
    Backed keccak256 history (trusted.after keccak256 S localeCompare pass).1 := by
  rcases after_cases trusted pass with
    hsame | ⟨start, records, incoming, drained, hsynced, -, hcommit⟩
  · rw [hsame]
    exact h
  have hread : ∀ e ∈ incoming, ∃ x ∈ history, e.1.key = advanceKey x.2 ∧
      OfHistory history e.1 ∧ Verifies keccak256 e.2 x.2.parentStateRoot := fun e he =>
    hpass.entry hsynced.replayed hsynced.entered he
  have hwritten : ∀ e ∈ incoming, ∃ x ∈ history, e.1.key = advanceKey x.2 ∧
      Verifies keccak256 e.2 x.2.parentStateRoot := by
    intro e he
    obtain ⟨x, hx, hkey, -, hbytes⟩ := hread e he
    exact ⟨x, hx, hkey, hbytes⟩
  rcases hcommit with ⟨n, hcommit⟩ | ⟨gc, hgc, hcommit⟩
  · have htake : (snapshotWrites incoming).take n = snapshotWrites (incoming.take n) :=
      (List.map_take).symm
    obtain ⟨hfiles, hpresent, -⟩ := snapshotWrites_keep hdistinct
      (fun e he => hwritten e (List.mem_of_mem_take he)) trusted
    have hstate := @stateFile_foldl (snapshotWrites (incoming.take n))
      (fun op hop => snapshotWrites_ne hop) trusted
    rw [hcommit, htake]
    exact ⟨hstate ▸ h.entries, hfiles h.files, hstate ▸ hpresent _ h.present⟩
  · obtain ⟨hfiles, hpresent, hown⟩ := snapshotWrites_keep hdistinct hwritten trusted
    have hupserted : ∀ e ∈ upsertEvalBacklog S localeCompare trusted.stateFile.evalBacklog
        (incoming.map Prod.fst), OfHistory history e := by
      refine upsert_lasting (lasting_ofHistory history) h.entries fun e he => ?_
      obtain ⟨e', he', rfl⟩ := List.mem_map.mp he
      obtain ⟨-, -, -, hof, -⟩ := hread e' he'
      exact hof
    have hentries := (drainBacklog_drains (lasting_ofHistory history) hupserted
      hsynced.drains).lasting hupserted
    -- what is left in the backlog was there, or has just been written
    have hheld : ∀ e ∈ upsertEvalBacklog S localeCompare trusted.stateFile.evalBacklog
        (incoming.map Prod.fst), Held trusted.stateFile.evalBacklog (incoming.map Prod.fst) e :=
      fun e he => mem_keys_upsert.mp (List.mem_map_of_mem he)
    have hleft := (drainBacklog_drains (lasting_held _ _) hheld hsynced.drains).lasting hheld
    have hbacked : Backed keccak256 history
        (((snapshotWrites incoming).foldl FileOp.apply trusted).writeStateFile
          (nextStateFile pass trusted.stateFile (pass.newCursorBlock start.1) drained.1)) := {
      entries := hentries
      files := hfiles h.files
      present := by
        intro e he
        rcases hleft e he with hmem | hmem
        · obtain ⟨old, hold, hkey⟩ := List.mem_map.mp hmem
          exact hkey ▸ hpresent _ h.present old hold
        · obtain ⟨new, hnew, hkey⟩ := List.mem_map.mp hmem
          exact hkey ▸ hown new hnew }
    rw [hcommit]
    exact hbacked.gc hgc

/-- A backed entry loads. -/
theorem Backed.loads (h : Backed keccak256 history trusted) {e : EvalBacklogEntry}
    (he : e ∈ trusted.stateFile.evalBacklog) :
    ∃ state, loadVerifiedParentSnapshot keccak256 trusted.snapshots e = .ok state := by
  obtain ⟨x, hx, hkey, hparent, href⟩ := h.entries e he
  obtain ⟨bytes, hbytes⟩ := h.present e he
  obtain ⟨state, hunpack, hroot⟩ := h.files x hx bytes (hkey ▸ hbytes)
  refine ⟨state, ?_⟩
  unfold loadVerifiedParentSnapshot
  simp only [href, hbytes, hunpack, hroot, hparent, ne_eq, not_true, if_false]

end Backed

end CoreTex.Sync
