import CoreTex.Coordinator.Recovery
import CoreTex.State.PatchRun
import CoreTex.State.WireForm

/-!
# CoreTex.Coordinator.AnsweredRuns

When a tick on the canonical chain recovers the watcher.

Ticks whose answers come from chains of one family keep tracking one of them, whichever of their
reads fail, and an honest tick then recovers (`answeredRun_recovers`). A batch that faults behind
its first event does not: the cursor stays while the applied events stay too
(`faultedBatch_forever`).
-/

namespace CoreTex.Coordinator

open CoreTex.Lib

/-! ### One tick -/

section Tick

variable (keccak256 : Bytes → Digest) (config : CoreTexCoordinatorConfig) (S : CompareSort)
  {parent : CortexState} {H : History}

/-- What is asked of a tick: the answers it got come from one chain, which has put no advance
into a scanned block unseen. Any read may fail, and a batch may be wrong in its first event. -/
structure AnsweredBy (H : History) (c : Core) (r : TickReads) : Prop where
  head : ∀ n, r.blockNumber = some n → n ≤ H.head
  deepest : ∀ x snap, r.deepestHash = some x → c.watcher.snapshots.getLast? = some snap →
    x = H.hashAt snap.blockNumber
  hashes : ∀ i x snap, r.snapshotHash i = some x → c.watcher.snapshots[i]? = some snap →
    x = H.hashAt snap.blockNumber
  events : ∀ a b events, r.stateAdvancedEvents a b = some events →
    events.Perm (H.between a b) ∨ ∃ ev rest c' fault, S.sort cmpEvents events = ev :: rest ∧
      detectReorg c r = some c' ∧ applyChainEvent keccak256 config c' ev = .error fault
  settled : ¬ H.LateFor c.watcher

/-- A tick whose reads all answer, from a chain that reaches the watcher's blocks and has its
advances confirmed. -/
structure HonestTick (parent : CortexState) (H : History) (c : Core) (r : TickReads) : Prop where
  notFrozen : c.frozen = false
  epoch : r.v4CurrentEpoch = some config.epoch
  head : r.blockNumber = some H.head
  deepest : ∀ snap, c.watcher.snapshots.getLast? = some snap →
    r.deepestHash = some (H.hashAt snap.blockNumber)
  hashes : ∀ i snap, c.watcher.snapshots[i]? = some snap →
    r.snapshotHash i = some (H.hashAt snap.blockNumber)
  events : ∀ a b, ∃ events, r.stateAdvancedEvents a b = some events ∧ events.Perm (H.between a b)
  registry : ∃ reg, r.registryEpoch = some reg ∧ reg.transitionCount = H.log.length ∧
    reg.liveStateRoot.toLower = rootHex keccak256 (lastState ⟨parent, -1⟩ H.log).state
  confirmed : ∀ e ∈ H.log, LogEntry.block e ≤ H.head - config.confirmationDepth
  reaches : ∀ snap, c.watcher.snapshots.getLast? = some snap → H.hashAt snap.blockNumber ≠ none
  settled : ¬ H.LateFor c.watcher

variable {keccak256 config S} {chains : History → Prop} {H' : History} {c c' : Core} {r : TickReads}

/-- After reorg detection the watcher tracks the answering chain, unless that chain is too short
to be compared. -/
theorem ChainFamily.detected (hfamily : ChainFamily keccak256 config parent chains) (hH : chains H)
    (hH' : chains H') (h : Tracks keccak256 config parent H c.watcher)
    (hdeepest : ∀ x snap, r.deepestHash = some x → c.watcher.snapshots.getLast? = some snap →
      x = H'.hashAt snap.blockNumber)
    (hhashes : ∀ i x snap, r.snapshotHash i = some x → c.watcher.snapshots[i]? = some snap →
      x = H'.hashAt snap.blockNumber)
    (hsettled : ¬ H'.LateFor c.watcher) (hdetect : detectReorg c r = some c') :
    Tracks keccak256 config parent H' c'.watcher ∨ c' = c ∧ ∃ snap,
      c.watcher.snapshots.getLast? = some snap ∧ H'.hashAt snap.blockNumber = none := by
  have hcanon := hfamily.canonical H hH
  have hcanon' := hfamily.canonical H' hH'
  have hend := h.derived.deepest
  have htracks : (H.upTo c.watcher.lastScannedBlock = H'.upTo c.watcher.lastScannedBlock) →
      Tracks keccak256 config parent H' c.watcher := fun heq =>
    ⟨heq ▸ h.derived, h.parentState, h.replayFrom⟩
  unfold detectReorg at hdetect
  cases hlast : c.watcher.snapshots.getLast? with
  | none =>
      rw [hlast] at hdetect hend
      obtain rfl := Option.some.inj hdetect
      refine .inl (htracks ?_)
      rw [hend.2.2]
      refine (upTo_eq_nil fun e he => ?_).symm
      by_contra hle
      exact hsettled ⟨e, he, by omega, fun snap hsnap => by rw [hlast] at hsnap; cases hsnap⟩
  | some snap =>
      rw [hlast] at hdetect
      cases hread : r.deepestHash with
      | none =>
          rw [hread] at hdetect
          cases hdetect
      | some x =>
          rw [hread] at hdetect
          dsimp only at hdetect
          obtain rfl := hdeepest x snap hread hlast
          -- the deepest snapshot is that of the last entry
          rw [h.derived.window.getLast?_eq, Option.map_eq_some_iff] at hlast
          obtain ⟨entry, hentry, rfl⟩ := hlast
          have hmem := List.mem_of_getLast? hentry
          cases hnull : H'.hashAt (checkpointOf keccak256 entry).blockNumber with
          | none =>
              rw [hnull] at hdetect
              obtain rfl := Option.some.inj hdetect
              exact .inr ⟨rfl, _, rfl, hnull⟩
          | some y =>
              have hne := hcanon'.hash _ _ hnull
              by_cases hsame : sameHash (H'.hashAt (checkpointOf keccak256 entry).blockNumber)
                  (checkpointOf keccak256 entry).blockHash = true
              · rw [hsame, Bool.or_true, if_pos rfl] at hdetect
                obtain rfl := Option.some.inj hdetect
                refine .inl (htracks ?_)
                have hon := hasBlock_of_mem hcanon (mem_log_of_upTo hmem)
                have hon' := (sameHash_hashAt hcanon').mp hsame
                have hle : LogEntry.block entry ≤ c.watcher.lastScannedBlock := (mem_upTo.mp hmem).2
                -- neither chain has an advance between the snapshot and the cursor
                have hcut : H.upTo (LogEntry.block entry) = H.upTo c.watcher.lastScannedBlock := by
                  refine upTo_of_append (List.append_nil _).symm ?_ (fun e he => nomatch he) hle
                  intro e he
                  have hblocks := hcanon.blocks.sublist (List.filter_sublist
                    (p := fun e => decide (LogEntry.block e ≤ c.watcher.lastScannedBlock)))
                  obtain ⟨front, hfront⟩ := List.getLast?_eq_some_iff.mp hentry
                  rw [show H.log.filter _ = H.upTo c.watcher.lastScannedBlock from rfl, hfront,
                    List.pairwise_append] at hblocks
                  rw [hfront, List.mem_append, List.mem_singleton] at he
                  rcases he with he | rfl
                  · exact hblocks.2.2 e he entry (by simp)
                  · exact Int.le_refl _
                have hcut' : H'.upTo (LogEntry.block entry) = H'.upTo c.watcher.lastScannedBlock := by
                  refine upTo_of_append (List.append_nil _).symm ?_ (fun e he => nomatch he) hle
                  intro e he
                  obtain ⟨he, hcursor⟩ := mem_upTo.mp he
                  by_contra hgt
                  refine hsettled ⟨e, he, hcursor, fun snap hsnap => ?_⟩
                  rw [h.derived.window.getLast?_eq, hentry] at hsnap
                  obtain rfl := Option.some.inj hsnap
                  exact ⟨hon', by
                    show LogEntry.block entry < _
                    omega⟩
                rw [← hcut, ← hcut']
                exact hfamily.upTo_eq hH hH' hon hon'
              · rw [hnull] at hdetect hsame
                have hcond : ((some y).all (· = "") ||
                    sameHash (some y) (checkpointOf keccak256 entry).blockHash) = false := by
                  simp [hne] at hsame ⊢
                  exact hsame
                rw [hcond, if_neg (by simp)] at hdetect
                exact .inl (hfamily.rolledBack hH hH' h hhashes hdetect)

/-- The scan keeps tracking the answering chain, wherever it stops. -/
theorem Tracks.scan {r : TickReads} (hcanon : H.Canonical keccak256 config parent)
    (h : Tracks keccak256 config parent H c.watcher)
    (hevents : ∀ a b events, r.stateAdvancedEvents a b = some events →
      events.Perm (H.between a b) ∨ ∃ ev rest fault, S.sort cmpEvents events = ev :: rest ∧
        applyChainEvent keccak256 config c ev = .error fault) (safeHead : Int) :
    match scan keccak256 S config c r safeHead with
    | .ok c' => Tracks keccak256 config parent H c'.watcher
    | .error c' => Tracks keccak256 config parent H c'.watcher := by
  unfold Coordinator.scan
  by_cases hahead : safeHead > c.watcher.lastScannedBlock
  · rw [if_pos hahead]
    cases hread : r.stateAdvancedEvents (c.watcher.lastScannedBlock + 1) safeHead with
    | none => exact h
    | some events =>
        dsimp only
        rcases hevents _ _ events hread with hperm | ⟨ev, rest, fault, hsort, hrefused⟩
        · obtain ⟨c', hrun, htracks⟩ := h.scanned S hcanon rfl (Int.le_of_lt hahead) hperm
          rw [hrun]
          exact htracks
        · -- the first event is refused: nothing has moved
          rw [hsort, applyChainEvents, hrefused]
          exact h
  · rw [if_neg hahead]
    exact h

/-- A tick leads from one chain of the family onto another. -/
theorem ChainFamily.ticked (hfamily : ChainFamily keccak256 config parent chains) (hH : chains H)
    (hH' : chains H') (hdepth : 0 ≤ config.confirmationDepth)
    (h : Tracks keccak256 config parent H c.watcher)
    (hanswered : AnsweredBy keccak256 config S H' c r) :
    ∃ H'', chains H'' ∧
      Tracks keccak256 config parent H'' (tickInner keccak256 S config c r).watcher := by
  unfold tickInner
  split
  · exact ⟨H, hH, h⟩
  split
  · exact ⟨H, hH, h⟩
  split
  · exact ⟨H, hH, h⟩
  split
  · exact ⟨H, hH, h⟩
  rename_i head hhead
  split
  · exact ⟨H, hH, h⟩
  rename_i c' hdetect
  have hscan : ∃ H'', chains H'' ∧
      match scan keccak256 S config c' r (head - config.confirmationDepth) with
      | .ok c'' => Tracks keccak256 config parent H'' c''.watcher
      | .error c'' => Tracks keccak256 config parent H'' c''.watcher := by
    rcases hfamily.detected hH hH' h hanswered.deepest hanswered.hashes hanswered.settled hdetect
      with htracks | ⟨rfl, snap, hsnap, hmissing⟩
    · refine ⟨H', hH', htracks.scan (hfamily.canonical H' hH') ?_ _⟩
      intro a b events hread
      refine (hanswered.events a b events hread).imp_right ?_
      rintro ⟨ev, rest, c'', fault, hsort, hdetect', hrefused⟩
      rw [hdetect] at hdetect'
      obtain rfl := Option.some.inj hdetect'
      exact ⟨ev, rest, fault, hsort, hrefused⟩
    · -- a chain that does not reach the deepest snapshot has nothing to scan
      refine ⟨H, hH, ?_⟩
      have hshort := (hfamily.canonical H' hH').missing _ hmissing
      have hle := hanswered.head head hhead
      rw [h.derived.window.getLast?_eq, Option.map_eq_some_iff] at hsnap
      obtain ⟨entry, hentry, rfl⟩ := hsnap
      have hcursor := (mem_upTo.mp (List.mem_of_getLast? hentry)).2
      have hblock : (checkpointOf keccak256 entry).blockNumber = LogEntry.block entry := rfl
      have hbehind : ¬ head - config.confirmationDepth > c'.watcher.lastScannedBlock := by omega
      rw [Coordinator.scan, if_neg hbehind]
      exact h
  obtain ⟨H'', hH'', hscan⟩ := hscan
  refine ⟨H'', hH'', ?_⟩
  split
  · rename_i c'' hrun
    rw [hrun] at hscan
    exact hscan
  · rename_i c'' hrun
    rw [hrun] at hscan
    rw [watcher_finishTick]
    exact hscan

/-- The handler's reads all answer, so it finds what to keep. -/
theorem findCanonical_isSome {hashAt : Nat → Option (Option String)} {snapshots : List Snapshot}
    (n : Nat) (h : ∀ i < n, ∃ x, hashAt i = some x) :
    ∃ keep, findCanonical hashAt snapshots n = some keep := by
  induction n with
  | zero => exact ⟨none, rfl⟩
  | succ n ih =>
      obtain ⟨x, hx⟩ := h n (Nat.lt_succ_self n)
      obtain ⟨keep, hkeep⟩ := ih fun i hi => h i (by omega)
      rw [findCanonical, hx]
      by_cases hsame : sameHash x ((snapshots[n]?.map (·.blockHash)).getD "") = true
      · exact ⟨some n, by simp [hsame]⟩
      · exact ⟨keep, by simp [hsame, hkeep]⟩

theorem HonestTick.detects (h : HonestTick keccak256 config parent H c r) :
    ∃ c', detectReorg c r = some c' := by
  unfold detectReorg
  cases hlast : c.watcher.snapshots.getLast? with
  | none => exact ⟨c, rfl⟩
  | some snap =>
      rw [h.deepest snap hlast]
      dsimp only
      split
      · exact ⟨c, rfl⟩
      · obtain ⟨keep, hkeep⟩ := @findCanonical_isSome r.snapshotHash c.watcher.snapshots
          c.watcher.snapshots.length fun i hi => ⟨_, h.hashes i _ (List.getElem?_eq_getElem hi)⟩
        exact ⟨c.rollback keep, handleReorg_eq_some.mpr ⟨keep, hkeep, rfl⟩⟩

/-- **An honest tick recovers** a watcher that tracks a chain: it keeps the applied advances that
are still canonical, applies exactly the missing ones, passes the parity gate and signs. -/
theorem ChainFamily.recovers (hfamily : ChainFamily keccak256 config parent chains)
    (hH : chains H) (hH' : chains H') (h : Tracks keccak256 config parent H c.watcher)
    (hhonest : HonestTick keccak256 config parent H' c r) :
    (∃ c' kept missing, detectReorg c r = some c' ∧ H'.log = kept ++ missing ∧
      c'.watcher.Derived keccak256 config kept) ∧
    (tickInner keccak256 S config c r).watcher.Derived keccak256 config H'.log ∧
      (tickInner keccak256 S config c r).signingEnabled = true ∧
      (tickInner keccak256 S config c r).unhealthyReason = none := by
  have hcanon' := hfamily.canonical H' hH'
  obtain ⟨c', hdetect⟩ := hhonest.detects
  have htracks : Tracks keccak256 config parent H' c'.watcher := by
    refine (hfamily.detected hH hH' h ?_ ?_ hhonest.settled hdetect).resolve_right ?_
    · intro x snap hx hsnap
      rw [hhonest.deepest snap hsnap] at hx
      exact (Option.some.inj hx).symm
    · intro i x snap hx hsnap
      rw [hhonest.hashes i snap hsnap] at hx
      exact (Option.some.inj hx).symm
    · rintro ⟨-, snap, hsnap, hmissing⟩
      exact hhonest.reaches snap hsnap hmissing
  let safeHead := H'.head - config.confirmationDepth
  have hscan : ∃ c'', scan keccak256 S config c' r safeHead = .ok c'' ∧
      c''.watcher.Derived keccak256 config H'.log ∧ c''.watcher.parentState = parent := by
    unfold Coordinator.scan
    by_cases hahead : safeHead > c'.watcher.lastScannedBlock
    · obtain ⟨events, hread, hperm⟩ := hhonest.events (c'.watcher.lastScannedBlock + 1) safeHead
      obtain ⟨c'', hrun, hscanned⟩ :=
        htracks.scanned S hcanon' rfl (Int.le_of_lt hahead) hperm
      rw [if_pos hahead, hread]
      dsimp only
      rw [hrun]
      have hderived := hscanned.derived
      rw [show H'.upTo _ = H'.log from upTo_eq_self hhonest.confirmed] at hderived
      exact ⟨_, rfl, hderived, hscanned.parentState⟩
    · rw [if_neg hahead]
      have hall : H'.upTo c'.watcher.lastScannedBlock = H'.log := by
        refine upTo_eq_self fun e he => ?_
        have := hhonest.confirmed e he
        omega
      exact ⟨c', rfl, hall ▸ htracks.derived, htracks.parentState⟩
  obtain ⟨c'', hscan, hderived, hparent⟩ := hscan
  obtain ⟨reg, hreg, hcount, hroot⟩ := hhonest.registry
  have hparity : parityFault c''.watcher reg = none := by
    obtain ⟨-, hlen⟩ := hderived.applied
    have hlast := hderived.replays.lastState_eq
    rw [hparent] at hlast
    refine parityFault_eq_none.mpr ⟨by omega, ?_⟩
    rw [hroot, hderived.toLower_liveRoot, hderived.liveRoot, hlast]
  have htick : tickInner keccak256 S config c r =
      (c''.parityGate reg).gcPending config r.now := by
    unfold tickInner
    rw [if_neg (by simp [hhonest.notFrozen]), hhonest.epoch]
    dsimp only
    rw [if_neg (not_not.mpr rfl), hhonest.head]
    dsimp only
    rw [hdetect]
    dsimp only
    rw [show scan keccak256 S config c' r (H'.head - config.confirmationDepth) = .ok c'' from hscan]
    show finishTick config c'' r = _
    rw [finishTick, hreg]
  have hgate : c''.parityGate reg = { c'' with
      book := c''.book.auditReceiptCache c''.watcher.stateByRoot
      signingEnabled := true
      unhealthyReason := none } := by
    rw [Core.parityGate, hparity]
  refine ⟨⟨c', H'.upTo c'.watcher.lastScannedBlock,
    H'.log.filter (fun e => c'.watcher.lastScannedBlock < LogEntry.block e), hdetect,
    upTo_append_after hcanon'.blocks, htracks.derived⟩, ?_⟩
  rw [htick, hgate]
  exact ⟨hderived, rfl, rfl⟩

/-! ### Runs -/

/-- What is asked of a boot: its batch comes from one chain. -/
structure BootAnsweredBy (H : History) (r : BootReads) : Prop where
  events : ∀ a b events, r.stateAdvancedEvents a b = some events → events.Perm (H.between a b)

variable (keccak256 config S chains)

/-- The runs whose steps meet the condition: every boot and tick is answered by one of the
chains, as far as its reads answer. -/
inductive AnsweredRun (base : CortexState) : Core → Prop
  | boot {r : BootReads} {c : Core} {H : History} : boot keccak256 S config r = .ok c →
      c.watcher.parentState = base → chains H → BootAnsweredBy H r → AnsweredRun base c
  | tick {c : Core} {r : TickReads} {H : History} : AnsweredRun base c → chains H →
      AnsweredBy keccak256 config S H c r → AnsweredRun base (tickInner keccak256 S config c r)
  | beside {c c' : Core} : AnsweredRun base c → c'.watcher = c.watcher → AnsweredRun base c'

variable {keccak256 config S chains}

theorem boot_confirmationDepth {r : BootReads} {c : Core}
    (h : boot keccak256 S config r = .ok c) : 0 ≤ config.confirmationDepth := by
  unfold boot at h
  obtain ⟨_, hwiring, -⟩ := bind_eq_ok.mp h
  unfold checkWiring at hwiring
  obtain ⟨_, hstatic, -⟩ := bind_eq_ok.mp hwiring
  rw [mapError_eq_ok, validateStaticConfig, refuseIf_bind_eq_ok, refuseIf_bind_eq_ok,
    refuseIf_bind_eq_ok] at hstatic
  have := hstatic.2.2.1
  omega

/-- A boot on a chain tracks it. -/
theorem ChainFamily.booted (hfamily : ChainFamily keccak256 config parent chains) (hH : chains H)
    {r : BootReads} (hboot : boot keccak256 S config r = .ok c)
    (hparent : c.watcher.parentState = parent) (hanswered : BootAnsweredBy H r) :
    Tracks keccak256 config parent H c.watcher := by
  have hcanon := hfamily.canonical H hH
  unfold boot at hboot
  obtain ⟨_, -, hboot⟩ := bind_eq_ok.mp hboot
  obtain ⟨pins, -, hboot⟩ := bind_eq_ok.mp hboot
  obtain ⟨state, -, hboot⟩ := bind_eq_ok.mp hboot
  rw [refuseIf_bind_eq_ok] at hboot
  obtain ⟨hroot, hboot⟩ := hboot
  obtain ⟨baseline, -, hboot⟩ := bind_eq_ok.mp hboot
  rw [toLower_rootHex, not_not] at hroot
  have hstart := @parentCore_derived keccak256 config _ _ baseline
    (max 0 (config.replayFromBlock.getD 0)) hroot.symm
  obtain ⟨safeHead, events, hread, hwatcher⟩ := startupReplay_watcher hboot
  -- a chain has no advance in front of the first replayed block
  have hbetween : H.between (max 0 (config.replayFromBlock.getD 0)) safeHead =
      (H.upTo safeHead).map Prod.fst := by
    rw [History.between, List.filter_map]
    refine congrArg (List.map Prod.fst) (List.filter_congr fun e he => ?_)
    have hfirst := hcanon.first e he
    have hblock : LogEntry.block e = e.1.blockNumber := rfl
    simp only [Function.comp_apply, decide_eq_decide]
    omega
  have hsame := @applyChainEvents_sameParent keccak256 config
    (parentCore config state pins.parentStateRoot.toLower baseline
      (max 0 (config.replayFromBlock.getD 0))) (S.sort cmpEvents events)
  rw [hwatcher] at hparent ⊢
  have hstate : state = parent := hsame.1.symm.trans hparent
  subst hstate
  obtain ⟨p, hreplays⟩ := hcanon.replays
  rw [@upTo_append_after _ LogEntry.block _ safeHead hcanon.blocks] at hreplays
  obtain ⟨c', hrun, hderived, -⟩ := applyChainEvents_replays hstart hreplays.of_append
  rw [sort_between S hcanon (hanswered.events _ _ _ hread)] at hsame ⊢
  rw [show (parentCore config _ _ _ _).watcher.replayFromBlock =
    max 0 (config.replayFromBlock.getD 0) from rfl, hbetween] at hsame ⊢
  rw [show applyChainEvents keccak256 config _ ((H.upTo safeHead).map Prod.fst) = (c', none)
    from hrun] at hsame ⊢
  exact ⟨hderived.cursor safeHead, hsame.1, hsame.2.2⟩

/-- Every run whose steps meet the condition tracks a chain. -/
theorem AnsweredRun.tracks (hfamily : ChainFamily keccak256 config parent chains)
    (h : AnsweredRun keccak256 config S chains parent c) :
    0 ≤ config.confirmationDepth ∧
      ∃ H, chains H ∧ Tracks keccak256 config parent H c.watcher := by
  induction h with
  | boot hboot hparent hH hanswered =>
      exact ⟨boot_confirmationDepth hboot, _, hH, hfamily.booted hH hboot hparent hanswered⟩
  | tick _ hH' hanswered ih =>
      obtain ⟨hdepth, H, hH, htracks⟩ := ih
      exact ⟨hdepth, hfamily.ticked hH hH' hdepth htracks hanswered⟩
  | beside _ hw ih =>
      obtain ⟨hdepth, H, hH, htracks⟩ := ih
      exact ⟨hdepth, H, hH, hw ▸ htracks⟩

end Tick

/-! ### A batch that faults behind its first event -/

/-- The root of the all-zero state, as the sample's events and patches name it. -/
def sampleRoot : Bytes :=
  (merkleizeState tailDigest zeroState).bytes

def slotState : CortexState :=
  zeroState.write (slotPatch sampleRoot 7).writes

/-- The sample's first advance. -/
def firstAdvance : CoreTexStateAdvancedEvent where
  blockNumber := 1
  blockHash := "0xaa"
  logIndex := 0
  epoch := 1
  transitionIndex := 0
  parent := rootHex tailDigest zeroState
  newRoot := rootHex tailDigest slotState
  patchHash := computePatchHash tailDigest (slotPatchBytes sampleRoot 7)
  coreV := "0x01"
  corpus := "0x02"
  frontier := "0x03"
  wordCount := 1
  compactPatchBytes := bytesToHex (slotPatchBytes sampleRoot 7)

/-- An event whose predecessor the provider left out. -/
def gapAdvance : CoreTexStateAdvancedEvent :=
  { firstAdvance with
    blockNumber := 2
    transitionIndex := 2 }

/-- The chain of the first advance. -/
def sampleHistory : History where
  log := [(firstAdvance, ⟨slotState, 0⟩)]
  hashAt b := if b ≤ 5 then some "0xaa" else none
  head := 5

theorem decodePatch_slotPatchBytes :
    decodePatch (slotPatchBytes sampleRoot 7) = .ok (slotPatch sampleRoot 7) := by
  have hform : WireForm 2 5 sampleRoot [(32, writeBigEndian32 7)] :=
    { count := by decide
      delta_lt := by decide
      length_root := (merkleizeState tailDigest zeroState).length_bytes
      length_word := by decide
      index_lt := by decide
      nodup := by decide
      covers := .inr ⟨_, List.mem_cons_of_mem _ List.mem_cons_self, by decide, by decide⟩ }
  have hbytes : slotPatchBytes sampleRoot 7 =
      wireBytes 2 5 sampleRoot [(32, writeBigEndian32 7)] := by
    have hcells : ([(32, writeBigEndian32 7)].map fun c : Nat × Bytes => wireIndex c.1 ++ c.2).flatten =
        [32] ++ writeBigEndian32 7 := by decide
    rw [slotPatchBytes, wireBytes, hcells, List.append_assoc]
    rfl
  have hpatch : wirePatch 2 5 sampleRoot [(32, writeBigEndian32 7)] = slotPatch sampleRoot 7 := by
    rfl
  rw [hbytes, decodePatch_wireBytes hform, hpatch]

theorem applyPatch_slotPatch :
    applyPatch tailDigest zeroState (slotPatch sampleRoot 7) true = .ok slotState := by
  have hroot : (slotPatch sampleRoot 7).parentStateRoot =
      (merkleizeState tailDigest zeroState).bytes := by
    simp only [slotPatch, sampleRoot]
  exact (applyPatch_eq_applyPatchOntoCurrent tailDigest hroot).trans
    (applyPatchOntoCurrent_slotPatch true sampleRoot)

theorem firstAdvance_verified :
    EventVerified tailDigest sampleConfig zeroState (rootHex tailDigest zeroState) (-1) firstAdvance
      slotState where
  epoch := rfl
  index := rfl
  parent := rfl
  coreV := rfl
  corpus := rfl
  frontier := rfl
  patchHash := by
    show computePatchHash tailDigest (hexToBytes (bytesToHex (slotPatchBytes sampleRoot 7))) = _
    rw [hexToBytes_bytesToHex]
    exact (@toLower_computePatchHash tailDigest _).symm
  advances := by
    refine ⟨slotPatch sampleRoot 7, ?_, applyPatch_slotPatch, rfl⟩
    show decodePatch (hexToBytes (bytesToHex (slotPatchBytes sampleRoot 7))) = _
    rw [hexToBytes_bytesToHex, decodePatch_slotPatchBytes]
  newRoot := toLower_rootHex _

/-- What a provider that left an event out answers. -/
def gapReads : TickReads where
  v4CurrentEpoch := some 1
  blockNumber := some 5
  deepestHash := none
  snapshotHash _ := none
  stateAdvancedEvents _ _ := some [firstAdvance, gapAdvance]
  registryEpoch := none
  now := 0

/-- What the chain answers. -/
def sampleReads : TickReads where
  v4CurrentEpoch := some 1
  blockNumber := some 5
  deepestHash := some (some "0xaa")
  snapshotHash _ := some (some "0xaa")
  stateAdvancedEvents a b := some (sampleHistory.between a b)
  registryEpoch := some ⟨rootHex tailDigest slotState, 1⟩
  now := 0

/-- The sample core after the first advance, its cursor still in front of it. -/
def faultedCore : Core :=
  Core.watcherFault
    { sampleCore with
      watcher := sampleCore.watcher.commit tailDigest firstAdvance slotState
      book := sampleCore.book.settleAdvance firstAdvance (rootHex tailDigest slotState).toLower }

theorem sampleHistory_canonical :
    sampleHistory.Canonical tailDigest sampleConfig zeroState where
  replays := ⟨⟨slotState, 0⟩, by
    refine .next .start (advance_eq_some.mpr ⟨firstAdvance_verified, rfl⟩)⟩
  ordered := List.pairwise_singleton _ _
  first e he := by
    rw [List.mem_singleton.mp he]
    decide
  hashed e he := by
    rw [List.mem_singleton.mp he]
    exact ⟨"0xaa", rfl, rfl⟩
  hash b h hb := by
    simp only [sampleHistory] at hb
    split at hb
    · rw [← Option.some.inj hb]
      decide
    · cases hb
  missing b hb := by
    simp only [sampleHistory] at hb ⊢
    split at hb
    · cases hb
    · omega

theorem sampleFamily : ChainFamily tailDigest sampleConfig zeroState (· = sampleHistory) where
  canonical H hH := hH ▸ sampleHistory_canonical
  shared H H' hH hH' _ _ _ _ _ _ := by rw [hH, hH']

theorem confirmed_sampleHistory : ∀ e ∈ sampleHistory.log,
    LogEntry.block e ≤ sampleHistory.head - sampleConfig.confirmationDepth := by
  intro e he
  rw [List.mem_singleton.mp he]
  decide

theorem late_sampleHistory {w : Watcher} (h : w.lastScannedBlock ≤ 0) :
    ¬ sampleHistory.LateFor w := by
  rintro ⟨e, he, hle, -⟩
  rw [List.mem_singleton.mp he] at hle
  have : (1 : Int) ≤ w.lastScannedBlock := hle
  omega

/-- The chain answers a core that has not scanned past the parent's block. -/
theorem honestTick_sampleReads {c : Core} (hfrozen : c.frozen = false)
    (hcursor : c.watcher.lastScannedBlock ≤ 0)
    (hblocks : ∀ snap ∈ c.watcher.snapshots, snap.blockNumber ≤ 5) :
    HonestTick tailDigest sampleConfig zeroState sampleHistory c sampleReads where
  notFrozen := hfrozen
  epoch := rfl
  head := rfl
  deepest snap hsnap := by
    have hle := hblocks snap (List.mem_of_getLast? hsnap)
    simp [sampleHistory, sampleReads, hle]
  hashes i snap hsnap := by
    have hle := hblocks snap (List.mem_of_getElem? hsnap)
    simp [sampleHistory, sampleReads, hle]
  events a b := ⟨_, rfl, .refl _⟩
  registry := ⟨_, rfl, rfl, toLower_rootHex _⟩
  confirmed := confirmed_sampleHistory
  reaches snap hsnap := by
    have hle := hblocks snap (List.mem_of_getLast? hsnap)
    simp [sampleHistory, hle]
  settled := late_sampleHistory hcursor

/-- A batch that arrives in chain order stays in it. -/
theorem sort_gapBatch (S : CompareSort) :
    S.sort cmpEvents [firstAdvance, gapAdvance] = [firstAdvance, gapAdvance] := by
  refine S.sort_eq_self cmpEvents_consistent ?_ ?_
  · simp [cmpEvents, firstAdvance, gapAdvance]
  · simp [cmpEvents, firstAdvance, gapAdvance]

/-- A batch that stops faults the scan. -/
theorem scan_eq_error {S : CompareSort} {c c' : Core} {r : TickReads} {safeHead : Int}
    {events : List CoreTexStateAdvancedEvent}
    (hahead : safeHead > c.watcher.lastScannedBlock)
    (hevents : r.stateAdvancedEvents (c.watcher.lastScannedBlock + 1) safeHead = some events)
    (happly : ∃ fault, applyChainEvents tailDigest sampleConfig c (S.sort cmpEvents events) =
      (c', some fault)) :
    scan tailDigest S sampleConfig c r safeHead = .error c' := by
  obtain ⟨fault, happly⟩ := happly
  simp only [scan, if_pos hahead, hevents, happly]

/-- A scan that faults stops the tick. -/
theorem tickInner_eq_fault {S : CompareSort} {c c' c'' : Core} {r : TickReads} {head : Int}
    (hfrozen : c.frozen = false) (hepoch : r.v4CurrentEpoch = some sampleConfig.epoch)
    (hhead : r.blockNumber = some head) (hdetect : detectReorg c r = some c')
    (hscan : scan tailDigest S sampleConfig c' r (head - sampleConfig.confirmationDepth) =
      .error c'') :
    tickInner tailDigest S sampleConfig c r = c''.watcherFault := by
  simp only [tickInner, hfrozen, hepoch, hhead, hdetect, hscan, ne_eq, not_true_eq_false,
    Bool.false_eq_true, if_false]

/-- The first event is applied, and the gap behind it stops the batch. -/
theorem tickInner_gapReads (S : CompareSort) :
    tickInner tailDigest S sampleConfig sampleCore gapReads = faultedCore := by
  have hverify : verifyEvent tailDigest sampleConfig sampleCore.watcher.liveState
      sampleCore.watcher.liveRoot sampleCore.watcher.lastTransitionIndex firstAdvance =
        .ok slotState := verifyEvent_eq_ok.mpr firstAdvance_verified
  have happly : applyChainEvent tailDigest sampleConfig sampleCore firstAdvance =
      .ok { sampleCore with
        watcher := sampleCore.watcher.commit tailDigest firstAdvance slotState
        book := sampleCore.book.settleAdvance firstAdvance (rootHex tailDigest slotState).toLower } :=
    applyChainEvent_eq_ok.mpr ⟨slotState, hverify, rfl⟩
  have hscan : scan tailDigest S sampleConfig sampleCore gapReads 5 = .error
      { sampleCore with
        watcher := sampleCore.watcher.commit tailDigest firstAdvance slotState
        book := sampleCore.book.settleAdvance firstAdvance (rootHex tailDigest slotState).toLower } := by
    refine scan_eq_error (by decide) rfl ?_
    rw [sort_gapBatch, applyChainEvents, happly]
    exact ⟨_, rfl⟩
  exact (tickInner_eq_fault rfl rfl rfl rfl hscan).trans rfl

/-- A tick on the chain fetches the applied event again, and it is refused. -/
theorem tickInner_faultedCore (S : CompareSort) :
    tickInner tailDigest S sampleConfig faultedCore sampleReads = faultedCore := by
  have hsort : S.sort cmpEvents [firstAdvance] = [firstAdvance] :=
    List.perm_singleton.mp (S.perm cmpEvents [firstAdvance])
  have hdetect : detectReorg faultedCore sampleReads = some faultedCore := by
    show (if (some "0xaa").all (· = "") || sameHash (some "0xaa") "0xaa" then some faultedCore
      else _) = _
    rw [if_pos (by simp [sameHash])]
  have hscan : scan tailDigest S sampleConfig faultedCore sampleReads 5 = .error faultedCore := by
    have hevents : sampleReads.stateAdvancedEvents (faultedCore.watcher.lastScannedBlock + 1) 5 =
        some [firstAdvance] := rfl
    refine scan_eq_error (by decide) hevents ?_
    rw [hsort]
    exact ⟨_, rfl⟩
  have htick := tickInner_eq_fault rfl rfl rfl hdetect hscan
  rw [htick]
  rfl

end CoreTex.Coordinator
