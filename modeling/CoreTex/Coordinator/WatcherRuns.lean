import CoreTex.Coordinator.WatcherInvariant
import CoreTex.Reducer.OrderIndependence
import Mathlib.Data.List.Chain

/-!
# CoreTex.Coordinator.WatcherRuns

Runs of boot and ticks, and the watcher's invariant over them.

`Reachable` has a step for everything else the core does: submits, freezes and the baseline
surface leave the watcher alone. `watcher_invariant` holds of every reachable core.
-/

namespace CoreTex.Coordinator

open CoreTex.Lib

section Runs

variable (keccak256 : Bytes → Digest) (S : CompareSort) (config : CoreTexCoordinatorConfig)

/-- The cores that a boot, ticks and steps beside the watcher lead to. -/
inductive Reachable : Core → Prop
  | boot {r c} : boot keccak256 S config r = .ok c → Reachable c
  | tick {c} (r : TickReads) : Reachable c → Reachable (tickInner keccak256 S config c r)
  | beside {c c'} : Reachable c → c'.watcher = c.watcher → Reachable c'

/-- The next snapshot's event follows this one's. -/
def SnapshotLinked (a b : Snapshot) : Prop :=
  b.transitionIndex = a.transitionIndex + 1 ∧ b.parent = a.root

/-- What the watcher's five pieces say of each other. -/
structure Watcher.Consistent (w : Watcher) : Prop where
  liveRoot : w.liveRoot = rootHex keccak256 w.liveState
  pinned : w.parentRoot = config.expectedEpochPins.parentStateRoot.toLower
  parentRoot : w.parentRoot = rootHex keccak256 w.parentState
  keyed : ∀ e ∈ w.stateByRoot, e.1 = rootHex keccak256 e.2
  parentCached : ∃ s, w.stateByRoot.get w.parentRoot = some s
  liveCached : ∃ s, w.stateByRoot.get w.liveRoot = some s
  linked : w.snapshots.IsChain SnapshotLinked
  snapshotsEnd : ∀ snap, w.snapshots.getLast? = some snap →
    snap.transitionIndex = w.lastTransitionIndex ∧ snap.root = w.liveRoot
  noSnapshots : w.snapshots = [] → w.liveRoot = w.parentRoot ∧ w.lastTransitionIndex = -1

/-- An event's patch applied with `applyPatch`. -/
def applyAdvance (s : CortexState) (ev : CoreTexStateAdvancedEvent) : Option CortexState :=
  (decodePatch (hexToBytes ev.compactPatchBytes)).toOption.bind fun decoded =>
    (applyPatch keccak256 s decoded true).toOption

/-- The advances of an epoch applied from its parent state. -/
def applyAdvances (parent : CortexState) (advances : List CoreTexStateAdvancedEvent) :
    Option CortexState :=
  advances.foldlM (applyAdvance keccak256) parent

/-- The registry answers for a chain of advances that ends in this state. -/
structure RegistryReports (parent : CortexState) (reg : RegistryEpoch)
    (advances : List CoreTexStateAdvancedEvent) (last : CortexState) : Prop where
  applied : applyAdvances keccak256 parent advances = some last
  count : reg.transitionCount = advances.length
  root : reg.liveStateRoot.toLower = rootHex keccak256 last

variable {keccak256 S config}

theorem Watcher.Derived.linked {w : Watcher}
    {log : List (CoreTexStateAdvancedEvent × Position)} (h : w.Derived keccak256 config log) :
    w.snapshots.IsChain SnapshotLinked := by
  have hlog : (log.map (checkpointOf keccak256)).IsChain SnapshotLinked := by
    have hreplays := h.replays
    clear h
    generalize (⟨w.liveState, w.lastTransitionIndex⟩ : Position) = p at hreplays
    induction hreplays with
    | start => exact List.isChain_nil
    | @next log p ev q hlog hstep ih =>
        rw [List.map_append, List.isChain_append]
        refine ⟨ih, List.isChain_singleton _, ?_⟩
        intro a ha b hb
        obtain rfl : checkpointOf keccak256 (ev, q) = b := by simpa using hb
        obtain ⟨entry, hentry, rfl⟩ : ∃ entry, log.getLast? = some entry ∧
            checkpointOf keccak256 entry = a := by
          rw [List.getLast?_map] at ha
          simpa using ha
        have hlast := Logged.last hlog
        rw [hentry] at hlast
        obtain ⟨hverified, -⟩ := advance_eq_some.mp hstep
        refine ⟨?_, ?_⟩
        · show ev.transitionIndex = entry.1.transitionIndex + 1
          rw [hverified.index, hlast.2]
        · show ev.parent.toLower = (rootHex keccak256 entry.2.state).toLower
          rw [hverified.parent, hlast.1]
  exact hlog.suffix h.window.suffix

/-- The live state is the parent state with the log's events applied. -/
theorem Watcher.Derived.applied {w : Watcher}
    {log : List (CoreTexStateAdvancedEvent × Position)} (h : w.Derived keccak256 config log) :
    applyAdvances keccak256 w.parentState (log.map Prod.fst) = some w.liveState ∧
      (log.length : Int) = w.lastTransitionIndex + 1 := by
  suffices hp : ∀ p : Position, Logged (Position.advance keccak256 config)
      ⟨w.parentState, -1⟩ log p →
      applyAdvances keccak256 w.parentState (log.map Prod.fst) = some p.state ∧
        (log.length : Int) = p.index + 1 from hp _ h.replays
  clear h
  intro p hp
  induction hp with
  | start => exact ⟨rfl, rfl⟩
  | @next log p ev q hlog hstep ih =>
      obtain ⟨happlied, hlen⟩ := ih
      obtain ⟨hverified, hindex⟩ := advance_eq_some.mp hstep
      obtain ⟨decoded, hdecode, happly, -⟩ := hverified.advances
      constructor
      · unfold applyAdvances at happlied ⊢
        rw [List.map_append, List.foldlM_append, happlied]
        show (applyAdvance keccak256 p.state ev >>= fun s => some s) = _
        rw [applyAdvance, hdecode]
        show ((applyPatch keccak256 p.state decoded true).toOption >>= fun s => some s) = _
        rw [happly]
        rfl
      · rw [List.length_append, List.length_singleton, hindex, hverified.index]
        omega

theorem Watcher.Derived.consistent {w : Watcher}
    {log : List (CoreTexStateAdvancedEvent × Position)} (h : w.Derived keccak256 config log)
    (hpinned : w.parentRoot = config.expectedEpochPins.parentStateRoot.toLower) :
    w.Consistent keccak256 config where
  liveRoot := h.liveRoot
  pinned := hpinned
  parentRoot := h.parentRoot
  keyed := h.keyed
  parentCached := h.parentCached
  liveCached := h.liveCached
  linked := h.linked
  snapshotsEnd := by
    intro snap hsnap
    have hdeepest := h.deepest
    rw [hsnap] at hdeepest
    exact ⟨hdeepest.1, hdeepest.2.1⟩
  noSnapshots := by
    intro hnil
    have hdeepest := h.deepest
    rw [hnil] at hdeepest
    exact ⟨hdeepest.1, hdeepest.2.1⟩

/-! ### Boot -/

theorem readOr_eq_ok {α : Type} {answer : Option α} {a : α} :
    readOr answer = .ok a ↔ answer = some a := by
  cases answer <;> simp [readOr]

theorem checkPins_pinned {r : BootReads} {pins : RegistryEpochPins}
    (h : checkPins config r = .ok pins) :
    pins.parentStateRoot.toLower = config.expectedEpochPins.parentStateRoot.toLower := by
  rw [checkPins, bind_eq_ok] at h
  obtain ⟨pins', -, h⟩ := h
  obtain ⟨_, hpins, hret⟩ := bind_eq_ok.mp h
  obtain rfl := pure_eq_ok.mp hret
  have hpin := forM_eq_ok.mp hpins
    (("parentStateRoot", pins'.parentStateRoot),
      ("parentStateRoot", config.expectedEpochPins.parentStateRoot))
    (by simp [RegistryEpochPins.fields])
  rw [checkPin, refuseIf_eq_ok] at hpin
  exact not_not.mp hpin

theorem parentCore_derived {parent : CortexState} {parentRoot : String}
    (baseline replayFromBlock : Int) (hroot : parentRoot = rootHex keccak256 parent) :
    (parentCore config parent parentRoot baseline replayFromBlock).watcher.Derived keccak256 config
      [] := by
  refine ⟨.start, hroot, hroot, .start, ?_, ⟨parent, ?_⟩, fun s hs => nomatch hs⟩
  · intro e he
    obtain rfl : e = (parentRoot, parent) := List.mem_singleton.mp he
    exact hroot
  · simp [parentCore, JsMap.get_cons]

theorem startupReplay_watcher {c c' : Core} {r : BootReads}
    (h : startupReplay keccak256 S config c r = .ok c') :
    ∃ safeHead events,
      r.stateAdvancedEvents c.watcher.replayFromBlock safeHead = some events ∧ c'.watcher =
      { (applyChainEvents keccak256 config c (S.sort cmpEvents events)).1.watcher with
        lastScannedBlock := safeHead } := by
  unfold startupReplay at h
  obtain ⟨replayHead, -, h⟩ := bind_eq_ok.mp h
  obtain ⟨events, hevents, h⟩ := bind_eq_ok.mp h
  refine ⟨max c.watcher.replayFromBlock (replayHead - config.confirmationDepth), events,
    readOr_eq_ok.mp hevents, ?_⟩
  cases hrun : applyChainEvents keccak256 config c (S.sort cmpEvents events) with
  | mk c'' fault =>
      rw [hrun] at h
      cases fault with
      | some e => cases h
      | none =>
          obtain ⟨reg, -, h⟩ := bind_eq_ok.mp h
          split at h
          · obtain rfl := pure_eq_ok.mp h
            rfl
          · rw [refuseIf_bind_eq_ok] at h
            obtain rfl := pure_eq_ok.mp h.2
            rfl

/-- The parent a watcher was booted with stays what it is. -/
def Watcher.SameParent (w w' : Watcher) : Prop :=
  w'.parentState = w.parentState ∧ w'.parentRoot = w.parentRoot ∧
    w'.replayFromBlock = w.replayFromBlock

theorem Watcher.SameParent.refl (w : Watcher) : w.SameParent w := ⟨rfl, rfl, rfl⟩

theorem Watcher.SameParent.trans {w w' w'' : Watcher} (h : w.SameParent w')
    (h' : w'.SameParent w'') : w.SameParent w'' :=
  ⟨h'.1.trans h.1, h'.2.1.trans h.2.1, h'.2.2.trans h.2.2⟩

theorem applyChainEvents_sameParent (c : Core) (events : List CoreTexStateAdvancedEvent) :
    c.watcher.SameParent (applyChainEvents keccak256 config c events).1.watcher := by
  induction events generalizing c with
  | nil => exact .refl _
  | cons ev events ih =>
      rw [applyChainEvents]
      cases happly : applyChainEvent keccak256 config c ev with
      | error fault => exact .refl _
      | ok c' =>
          obtain ⟨next, -, rfl⟩ := applyChainEvent_eq_ok.mp happly
          exact Watcher.SameParent.trans ⟨rfl, rfl, rfl⟩ (ih _)

theorem rollback_sameParent (c : Core) (keepIndex : Option Nat) :
    c.watcher.SameParent (c.rollback keepIndex).watcher := by
  show c.watcher.SameParent (c.watcher.rollback keepIndex).pruneStates
  unfold Watcher.rollback
  split <;> exact ⟨rfl, rfl, rfl⟩

theorem handleReorg_eq_some {c c' : Core} {hashAt : Nat → Option (Option String)} :
    handleReorg c hashAt = some c' ↔ ∃ keepIndex,
      findCanonical hashAt c.watcher.snapshots c.watcher.snapshots.length = some keepIndex ∧
        c' = c.rollback keepIndex := by
  rw [handleReorg]
  cases findCanonical hashAt c.watcher.snapshots c.watcher.snapshots.length with
  | none => simp
  | some keepIndex => simp [eq_comm]

/-- Reorg detection either keeps the core or rolls it back. -/
theorem detectReorg_cases {c c' : Core} {r : TickReads} (h : detectReorg c r = some c') :
    c' = c ∨ handleReorg c r.snapshotHash = some c' := by
  unfold detectReorg at h
  split at h
  · exact .inl (Option.some.inj h).symm
  split at h
  · cases h
  split at h
  · exact .inl (Option.some.inj h).symm
  · exact .inr h

theorem detectReorg_sameParent {c c' : Core} {r : TickReads} (h : detectReorg c r = some c') :
    c.watcher.SameParent c'.watcher := by
  rcases detectReorg_cases h with rfl | h
  · exact .refl _
  · obtain ⟨keepIndex, -, rfl⟩ := handleReorg_eq_some.mp h
    exact rollback_sameParent c keepIndex

theorem scan_sameParent (c : Core) (r : TickReads) (safeHead : Int) :
    match scan keccak256 S config c r safeHead with
    | .ok c' => c.watcher.SameParent c'.watcher
    | .error c' => c.watcher.SameParent c'.watcher := by
  unfold scan
  by_cases hahead : safeHead > c.watcher.lastScannedBlock
  · rw [if_pos hahead]
    cases r.stateAdvancedEvents (c.watcher.lastScannedBlock + 1) safeHead with
    | none => exact .refl _
    | some events =>
        have hbatch := @applyChainEvents_sameParent keccak256 config c (S.sort cmpEvents events)
        dsimp only
        cases hrun : applyChainEvents keccak256 config c (S.sort cmpEvents events) with
        | mk c' fault =>
            rw [hrun] at hbatch
            cases fault with
            | none => exact hbatch
            | some e => exact hbatch
  · rw [if_neg hahead]
    exact .refl _

theorem tickInner_sameParent (c : Core) (r : TickReads) :
    c.watcher.SameParent (tickInner keccak256 S config c r).watcher := by
  unfold tickInner
  split
  · exact .refl _
  split
  · exact .refl _
  split
  · exact .refl _
  split
  · exact .refl _
  split
  · exact .refl _
  rename_i head _ _ c' hdetect
  have hscan := @scan_sameParent keccak256 S config c' r (head - config.confirmationDepth)
  have hparent := detectReorg_sameParent hdetect
  split
  · rename_i c'' hrun
    rw [hrun] at hscan
    exact hparent.trans hscan
  · rename_i c'' hrun
    rw [hrun] at hscan
    rw [watcher_finishTick]
    exact hparent.trans hscan

theorem boot_derived {r : BootReads} {c : Core} (h : boot keccak256 S config r = .ok c) :
    (∃ log, c.watcher.Derived keccak256 config log) ∧
      c.watcher.parentRoot = config.expectedEpochPins.parentStateRoot.toLower := by
  unfold boot at h
  obtain ⟨_, -, h⟩ := bind_eq_ok.mp h
  obtain ⟨pins, hpins, h⟩ := bind_eq_ok.mp h
  obtain ⟨parent, -, h⟩ := bind_eq_ok.mp h
  rw [refuseIf_bind_eq_ok] at h
  obtain ⟨hroot, h⟩ := h
  obtain ⟨baseline, -, h⟩ := bind_eq_ok.mp h
  rw [toLower_rootHex, not_not] at hroot
  have hstart := @parentCore_derived keccak256 config _ _ baseline
    (max 0 (config.replayFromBlock.getD 0)) hroot.symm
  obtain ⟨safeHead, events, -, hwatcher⟩ := startupReplay_watcher h
  obtain ⟨log, hlog⟩ := applyChainEvents_derived hstart (S.sort cmpEvents events)
  rw [hwatcher]
  refine ⟨⟨log, hlog.cursor safeHead⟩, ?_⟩
  have hsame := @applyChainEvents_sameParent keccak256 config
    (parentCore config parent pins.parentStateRoot.toLower baseline
      (max 0 (config.replayFromBlock.getD 0))) (S.sort cmpEvents events)
  exact hsame.2.1.trans (checkPins_pinned hpins)

/-- The invariant over runs. -/
theorem Reachable.derived {c : Core} (h : Reachable keccak256 S config c) :
    (∃ log, c.watcher.Derived keccak256 config log) ∧
      c.watcher.parentRoot = config.expectedEpochPins.parentStateRoot.toLower := by
  induction h with
  | boot hboot => exact boot_derived hboot
  | tick r _ ih =>
      obtain ⟨⟨log, hlog⟩, hpinned⟩ := ih
      exact ⟨tickInner_derived hlog r, (tickInner_sameParent _ r).2.1.trans hpinned⟩
  | beside _ hw ih =>
      rw [hw]
      exact ih

/-- Where the parity gate opens, the live root is the one the registry answers. -/
theorem parityFault_eq_none {w : Watcher} {reg : RegistryEpoch} :
    parityFault w reg = none ↔
      w.lastTransitionIndex + 1 = reg.transitionCount ∧
        reg.liveStateRoot.toLower = w.liveRoot.toLower := by
  unfold parityFault
  dsimp only
  split
  · simp; omega
  split
  · simp; omega
  split
  · simp_all
  · simp_all
    omega

/-- What a chain that is configured right answers to boot, before its first advance. -/
def quietReads (keccak256 : Bytes → Digest) (config : CoreTexCoordinatorConfig)
    (parent : CortexState) (head : Int)
    (events : Int → Int → Option (List CoreTexStateAdvancedEvent)) : BootReads where
  chainId := some config.expectedChainId
  v4CurrentEpoch := some config.epoch
  v4EpochCommit := some "0x01"
  v4CoordinatorSigner := some config.expectedCoordinatorSigner
  v4CoreTexRegistry := some config.registryAddress
  registryEpochPins := some config.expectedEpochPins
  parentLoader _ := some parent
  blockNumber := some head
  stateAdvancedEvents := events
  registryEpoch := some ⟨rootHex keccak256 parent, 0⟩

/-- The core after it: signing on the parent root. -/
def quietCore (keccak256 : Bytes → Digest) (config : CoreTexCoordinatorConfig)
    (parent : CortexState) (head baseline : Int) : Core :=
  let c := parentCore config parent (rootHex keccak256 parent) baseline
    (max 0 (config.replayFromBlock.getD 0))
  { c with
    watcher := { c.watcher with
      lastScannedBlock := max c.watcher.replayFromBlock (head - config.confirmationDepth) }
    signingEnabled := true
    unhealthyReason := none }

/-- A boot behind its wiring gates is its startup replay. -/
theorem boot_eq_startupReplay {r : BootReads} {pins : RegistryEpochPins} {parent : CortexState}
    {baseline : Int} (hwiring : checkWiring config r = .ok ()) (hpins : checkPins config r = .ok pins)
    (hparent : r.parentLoader pins.parentStateRoot = some parent)
    (hroot : pins.parentStateRoot = rootHex keccak256 parent)
    (hbaseline : launchBaselinePpm config = .ok baseline) :
    boot keccak256 S config r = startupReplay keccak256 S config
      (parentCore config parent (rootHex keccak256 parent) baseline
        (max 0 (config.replayFromBlock.getD 0))) r := by
  rw [boot, hwiring, ok_bind, hpins, ok_bind, hparent]
  show (do
    refuseIf _ _
    let baseline ← _
    startupReplay keccak256 S config _ _) = _
  rw [hroot, refuseIf_of_not (not_not.mpr rfl), ok_bind, hbaseline, toLower_rootHex]
  rfl

theorem boot_quietReads {parent : CortexState} {head baseline : Int}
    {events : Int → Int → Option (List CoreTexStateAdvancedEvent)}
    (hquiet : events (max 0 (config.replayFromBlock.getD 0))
      (max (max 0 (config.replayFromBlock.getD 0)) (head - config.confirmationDepth)) = some [])
    (hstatic : validateStaticConfig config = .ok ())
    (hbaseline : launchBaselinePpm config = .ok baseline)
    (hroot : config.expectedEpochPins.parentStateRoot = rootHex keccak256 parent) :
    boot keccak256 S config (quietReads keccak256 config parent head events) =
      .ok (quietCore keccak256 config parent head baseline) := by
  have hwiring : checkWiring config (quietReads keccak256 config parent head events) = .ok () := by
    unfold checkWiring
    rw [hstatic]
    simp [quietReads, readOr, Except.mapError, refuseIf]
  have hpins : checkPins config (quietReads keccak256 config parent head events) =
      .ok config.expectedEpochPins := by
    simp [checkPins, quietReads, readOr, RegistryEpochPins.fields, checkPin, refuseIf]
  have hparity : ∀ w : Watcher, w.lastTransitionIndex = -1 → w.liveRoot = rootHex keccak256 parent →
      parityFault w ⟨rootHex keccak256 parent, 0⟩ = none := by
    intro w hindex hroot
    exact parityFault_eq_none.mpr ⟨by rw [hindex]; rfl, by rw [hroot]⟩
  have hsort : S.sort cmpEvents [] = [] := List.Perm.eq_nil (S.perm cmpEvents [])
  rw [boot_eq_startupReplay hwiring hpins rfl hroot hbaseline]
  show (readOr (events (max 0 (config.replayFromBlock.getD 0))
    (max (max 0 (config.replayFromBlock.getD 0)) (head - config.confirmationDepth))) >>=
      fun events => _) = _
  rw [hquiet, show readOr (some ([] : List CoreTexStateAdvancedEvent)) = .ok [] from rfl, ok_bind,
    hsort, applyChainEvents]
  show (readOr (some (RegistryEpoch.mk (rootHex keccak256 parent) 0)) >>= fun reg => _) = _
  rw [show readOr (some (RegistryEpoch.mk (rootHex keccak256 parent) 0)) = .ok _ from rfl, ok_bind,
    hparity _ rfl rfl]
  rfl

end Runs

/-- A small configuration on the all-zero parent. -/
def sampleConfig : CoreTexCoordinatorConfig where
  epoch := 1
  expectedChainId := 1
  miningContractAddress := some ("0x" ++ String.ofList (List.replicate 40 'a'))
  v4Address := none
  registryAddress := "0x" ++ String.ofList (List.replicate 40 'b')
  expectedCoordinatorSigner := "0x" ++ String.ofList (List.replicate 40 'c')
  expectedEpochPins :=
    { parentStateRoot := rootHex tailDigest zeroState
      coreVersionHash := "0x01"
      corpusRoot := "0x02"
      activeFrontierRoot := "0x03"
      baselineManifestHash := "0x04"
      hiddenSeedCommit := "0x05" }
  confirmationDepth := 0
  replayFromBlock := none
  receiptTtlSec := 100
  perMinerScreenerCap := none
  screenerThresholdPpm := none
  minImprovementPpm := none
  replayTolerancePpm := none
  maxPatchBytes := none
  baselineScorePpm := some 0
  baselineParentScorePpm := none
  baselineVariancePpm := none
  baselineVarianceSource := none
  fixedPackRepeatabilityPpm := none
  recentNoiseFloorPpm := none
  targetBlockOffset := none
  rulesVersion := some 1
  workPolicyHash := some ("0x" ++ String.ofList (List.replicate 64 'd'))
  workPolicy := none

/-- The core a quiet boot of the sample leads to. -/
def sampleCore : Core :=
  quietCore tailDigest sampleConfig zeroState 0 0

theorem validateStaticConfig_sample : validateStaticConfig sampleConfig = .ok () := by
  decide +kernel

theorem boot_sample (S : CompareSort)
    {events : Int → Int → Option (List CoreTexStateAdvancedEvent)} (h : events 0 0 = some []) :
    boot tailDigest S sampleConfig (quietReads tailDigest sampleConfig zeroState 0 events) =
      .ok sampleCore :=
  boot_quietReads h validateStaticConfig_sample rfl rfl

theorem reachable_sampleCore (S : CompareSort) : Reachable tailDigest S sampleConfig sampleCore :=
  .boot (@boot_sample S (fun _ _ => some []) rfl)

end CoreTex.Coordinator
