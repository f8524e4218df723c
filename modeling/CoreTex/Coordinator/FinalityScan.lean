import CoreTex.Coordinator.AnsweredRuns

/-!
# CoreTex.Coordinator.FinalityScan

What boot and tick apply on a chain without reorgs.

A `SettledChain` has one log of advances, and `ScanRun` records of every boot and tick the head
it read, the advances it applied and the cursor it left behind. `ScanExact` is the finality gate:
the applied advances are those of the scanned blocks, and none stands above the safe head of its
own step. Two steps break it. A boot clamps its safe head to the first replayed block, confirmed
or not. A tick whose batch faults behind the first event keeps what it applied and leaves the
cursor.
-/

namespace CoreTex.Coordinator

open CoreTex.Lib

/-! ### A chain without reorgs -/

/-- The advances a registry emits on a chain without reorgs, in chain order, and the chain's
block hashes. -/
structure SettledChain where
  advances : List CoreTexStateAdvancedEvent
  hashAt : Int → String
  ordered : advances.Pairwise fun a b => cmpEvents a b < 0
  hashed : ∀ ev ∈ advances, (hashAt ev.blockNumber).toLower = ev.blockHash.toLower

namespace SettledChain

/-- The advances of a range of blocks. -/
def between (F : SettledChain) (a b : Int) : List CoreTexStateAdvancedEvent :=
  F.advances.filter fun ev => a ≤ ev.blockNumber ∧ ev.blockNumber ≤ b

/-- A provider that has the chain up to some height: the head it reports is anywhere below. -/
structure Answers (F : SettledChain) (height : Int) (blockNumber : Option Int)
    (stateAdvancedEvents : Int → Int → Option (List CoreTexStateAdvancedEvent)) : Prop where
  head : ∀ n, blockNumber = some n → n ≤ height
  events : ∀ a b events, stateAdvancedEvents a b = some events →
    events.Perm (F.between a (min b height))

/-- A block hash is the chain's, or not there. -/
def AnswersHash (F : SettledChain) (c : Core) (r : TickReads) : Prop :=
  ∀ h snap, r.deepestHash = some (some h) → h ≠ "" →
    c.watcher.snapshots.getLast? = some snap → h.toLower = (F.hashAt snap.blockNumber).toLower

variable {F : SettledChain}

theorem mem_between {a b : Int} {ev : CoreTexStateAdvancedEvent} :
    ev ∈ F.between a b ↔ ev ∈ F.advances ∧ a ≤ ev.blockNumber ∧ ev.blockNumber ≤ b := by
  simp [between]

theorem between_eq_nil {a b : Int} (h : b < a) : F.between a b = [] := by
  refine List.eq_nil_iff_forall_not_mem.mpr fun ev hev => ?_
  obtain ⟨-, hle, hle'⟩ := mem_between.mp hev
  omega

theorem ordered_between (a b : Int) : (F.between a b).Pairwise fun x y => cmpEvents x y < 0 :=
  F.ordered.filter _

/-- Adjacent ranges of blocks. -/
theorem between_append {a b m : Int} (ham : a ≤ m + 1) (hmb : m ≤ b) :
    F.between a m ++ F.between (m + 1) b = F.between a b := by
  have hblocks : F.advances.Pairwise fun x y => x.blockNumber ≤ y.blockNumber := by
    refine F.ordered.imp fun {x y} hxy => ?_
    unfold cmpEvents at hxy
    split at hxy <;> omega
  unfold between
  generalize F.advances = advances at hblocks
  induction advances with
  | nil => rfl
  | cons ev advances ih =>
      rw [List.pairwise_cons] at hblocks
      have hrest := ih hblocks.2
      by_cases hfront : a ≤ ev.blockNumber ∧ ev.blockNumber ≤ m
      · have hwhole : a ≤ ev.blockNumber ∧ ev.blockNumber ≤ b := by omega
        have hback : ¬ (m + 1 ≤ ev.blockNumber ∧ ev.blockNumber ≤ b) := by omega
        rw [List.filter_cons_of_pos (by simpa using hfront), List.filter_cons_of_neg
          (by simpa using hback), List.filter_cons_of_pos (by simpa using hwhole), List.cons_append,
          hrest]
      · by_cases hback : m + 1 ≤ ev.blockNumber ∧ ev.blockNumber ≤ b
        · -- the rest stands behind `m` too
          have hnil : advances.filter (fun x => a ≤ x.blockNumber ∧ x.blockNumber ≤ m) = [] := by
            refine List.filter_eq_nil_iff.mpr fun x hx hin => ?_
            have hle := hblocks.1 x hx
            have hin := of_decide_eq_true hin
            omega
          have hwhole : a ≤ ev.blockNumber ∧ ev.blockNumber ≤ b := by omega
          rw [hnil, List.nil_append] at hrest
          rw [List.filter_cons_of_neg (by simpa using hfront), hnil, List.nil_append,
            List.filter_cons_of_pos (by simpa using hback),
            List.filter_cons_of_pos (by simpa using hwhole), hrest]
        · have hwhole : ¬ (a ≤ ev.blockNumber ∧ ev.blockNumber ≤ b) := by omega
          rw [List.filter_cons_of_neg (by simpa using hfront), List.filter_cons_of_neg
            (by simpa using hback), List.filter_cons_of_neg (by simpa using hwhole), hrest]

/-- A batch of the chain is sorted into chain order. -/
theorem sort_perm (S : CompareSort) {a b : Int} {events : List CoreTexStateAdvancedEvent}
    (hperm : events.Perm (F.between a b)) : S.sort cmpEvents events = F.between a b :=
  sort_ordered S (ordered_between a b) hperm

end SettledChain

/-! ### What a boot and a tick apply -/

section Scan

variable (keccak256 : Bytes → Digest) (config : CoreTexCoordinatorConfig) (S : CompareSort)

/-- The events of a batch that `applyChainEvents` applies. -/
def appliedEvents (w : Watcher) : List CoreTexStateAdvancedEvent → List CoreTexStateAdvancedEvent
  | [] => []
  | ev :: events =>
    match verifyEvent keccak256 config w.liveState w.liveRoot w.lastTransitionIndex ev with
    | .ok next => ev :: appliedEvents (w.commit keccak256 ev next) events
    | .error _ => []

/-- The first block that is replayed. -/
def CoreTexCoordinatorConfig.firstBlock : Int :=
  max 0 (config.replayFromBlock.getD 0)

/-- The advances a boot applies. -/
def bootApplied (r : BootReads) : List CoreTexStateAdvancedEvent :=
  match r.registryEpochPins, r.blockNumber with
  | some pins, some head =>
    match r.parentLoader pins.parentStateRoot, r.stateAdvancedEvents config.firstBlock
        (max config.firstBlock (head - config.confirmationDepth)) with
    | some parent, some events =>
      appliedEvents keccak256 config
        (parentCore config parent pins.parentStateRoot.toLower 0 config.firstBlock).watcher
        (S.sort cmpEvents events)
    | _, _ => []
  | _, _ => []

/-- The advances a scan applies. -/
def scanApplied (w : Watcher) (r : TickReads) (safeHead : Int) : List CoreTexStateAdvancedEvent :=
  if safeHead > w.lastScannedBlock then
    match r.stateAdvancedEvents (w.lastScannedBlock + 1) safeHead with
    | some events => appliedEvents keccak256 config w (S.sort cmpEvents events)
    | none => []
  else []

/-- The advances a tick applies. -/
def tickApplied (c : Core) (r : TickReads) : List CoreTexStateAdvancedEvent :=
  if c.frozen ∨ r.v4CurrentEpoch ≠ some config.epoch then []
  else
    match r.blockNumber, detectReorg c r with
    | some head, some c =>
      scanApplied keccak256 config S c.watcher r (head - config.confirmationDepth)
    | _, _ => []

/-- What a step read, applied and left behind. -/
structure ScanStep where
  head : Option Int
  applied : List CoreTexStateAdvancedEvent
  cursor : Int

/-- **Exact scanning behind the finality gate.** -/
structure ScanExact (F : SettledChain) (steps : List ScanStep) (c : Core) : Prop where
  applied : steps.flatMap (·.applied) =
    F.between config.firstBlock c.watcher.lastScannedBlock
  inOrder : (steps.flatMap (·.applied)).Pairwise fun a b => cmpEvents a b < 0
  cursor : (steps.map (·.cursor)).Pairwise (· ≤ ·)
  reached : ∀ step ∈ steps, step.cursor ≤ c.watcher.lastScannedBlock
  confirmed : ∀ step ∈ steps, ∀ ev ∈ step.applied, ∃ head, step.head = some head ∧
    ev.blockNumber ≤ head - config.confirmationDepth

/-- A boot and any ticks on a settled chain, with what each step did; `bootMeets` and `tickMeets`
restrict the steps. -/
inductive ScanRun (F : SettledChain) (bootMeets : BootReads → Prop)
    (tickMeets : Core → TickReads → Prop) : List ScanStep → Core → Prop
  | boot {r c height} : boot keccak256 S config r = .ok c →
      F.Answers height r.blockNumber r.stateAdvancedEvents → bootMeets r →
      ScanRun F bootMeets tickMeets
        [⟨r.blockNumber, bootApplied keccak256 config S r, c.watcher.lastScannedBlock⟩] c
  | tick {steps c r height} : ScanRun F bootMeets tickMeets steps c →
      F.Answers height r.blockNumber r.stateAdvancedEvents → F.AnswersHash c r → tickMeets c r →
      ScanRun F bootMeets tickMeets
        (steps ++ [⟨r.blockNumber, tickApplied keccak256 config S c r,
          (tickInner keccak256 S config c r).watcher.lastScannedBlock⟩])
        (tickInner keccak256 S config c r)
  | beside {steps c c'} : ScanRun F bootMeets tickMeets steps c → c'.watcher = c.watcher →
      ScanRun F bootMeets tickMeets steps c'

/-- A boot with its first block behind the safe head, or without an advance in it. -/
def FirstBlockConfirmed (F : SettledChain) (r : BootReads) : Prop :=
  ∀ head, r.blockNumber = some head →
    config.firstBlock ≤ head - config.confirmationDepth ∨
      ∀ ev ∈ F.advances, ev.blockNumber ≠ config.firstBlock

/-- The tick gets as far as applying what it reads of the blocks up to its safe head. -/
structure ReadsBatch (c : Core) (r : TickReads) (safeHead : Int) : Prop where
  notFrozen : c.frozen = false
  epoch : r.v4CurrentEpoch = some config.epoch
  head : r.blockNumber = some (safeHead + config.confirmationDepth)
  deepest : c.watcher.snapshots ≠ [] → r.deepestHash ≠ none
  events : r.stateAdvancedEvents (c.watcher.lastScannedBlock + 1) safeHead ≠ none

/-- A tick whose first missing advance is refused, or none of them. -/
def FirstOrNoneRefused (F : SettledChain) (c : Core) (r : TickReads) : Prop :=
  ∀ safeHead ev rest, ReadsBatch config c r safeHead →
    F.between (c.watcher.lastScannedBlock + 1) safeHead = ev :: rest →
    (Position.advance keccak256 config ⟨c.watcher.liveState, c.watcher.lastTransitionIndex⟩
      ev).isSome →
    ((ev :: rest).foldlM (Position.advance keccak256 config)
      ⟨c.watcher.liveState, c.watcher.lastTransitionIndex⟩).isSome

variable {keccak256 config S}

/-- A batch extends the log by what it applies. -/
theorem appliedEvents_derived {c : Core} {log : List LogEntry}
    (h : c.watcher.Derived keccak256 config log) (events : List CoreTexStateAdvancedEvent) :
    ∃ back : List LogEntry, back.map Prod.fst = appliedEvents keccak256 config c.watcher events ∧
      (applyChainEvents keccak256 config c events).1.watcher.Derived keccak256 config
        (log ++ back) := by
  induction events generalizing c log with
  | nil => exact ⟨[], rfl, by simpa [applyChainEvents] using h⟩
  | cons ev events ih =>
      rw [applyChainEvents, appliedEvents]
      cases hverify : verifyEvent keccak256 config c.watcher.liveState c.watcher.liveRoot
          c.watcher.lastTransitionIndex ev with
      | error fault =>
          rw [applyChainEvent_of_fault hverify]
          exact ⟨[], rfl, by simpa using h⟩
      | ok next =>
          have happly := applyChainEvent_eq_ok.mpr ⟨next, hverify, rfl⟩
          rw [happly]
          obtain ⟨back, hback, hderived⟩ := @ih
            { c with
              watcher := c.watcher.commit keccak256 ev next
              book := c.book.settleAdvance ev (rootHex keccak256 next).toLower } _ (h.commit hverify)
          refine ⟨(ev, ⟨next, ev.transitionIndex⟩) :: back, by rw [List.map_cons, hback], ?_⟩
          rw [List.append_cons]
          exact hderived

/-- A batch without a fault is applied whole. -/
theorem appliedEvents_eq_self {c : Core} {events : List CoreTexStateAdvancedEvent}
    (h : (applyChainEvents keccak256 config c events).2 = none) :
    appliedEvents keccak256 config c.watcher events = events := by
  induction events generalizing c with
  | nil => rfl
  | cons ev events ih =>
      rw [applyChainEvents] at h
      rw [appliedEvents]
      cases hverify : verifyEvent keccak256 config c.watcher.liveState c.watcher.liveRoot
          c.watcher.lastTransitionIndex ev with
      | error fault =>
          rw [applyChainEvent_of_fault hverify] at h
          cases h
      | ok next =>
          rw [applyChainEvent_eq_ok.mpr ⟨next, hverify, rfl⟩] at h
          exact congrArg (ev :: ·) (ih h)

theorem advance_eq_ok {p : Position} {ev : CoreTexStateAdvancedEvent} {next : CortexState}
    (h : verifyEvent keccak256 config p.state (rootHex keccak256 p.state) p.index ev = .ok next) :
    p.advance keccak256 config ev = some ⟨next, ev.transitionIndex⟩ := by
  rw [Position.advance, h]

theorem advance_eq_none {p : Position} {ev : CoreTexStateAdvancedEvent} {fault : WatcherFault}
    (h : verifyEvent keccak256 config p.state (rootHex keccak256 p.state) p.index ev =
      .error fault) : p.advance keccak256 config ev = none := by
  rw [Position.advance, h]

/-- Advances that verify one after the other are applied without a fault. -/
theorem applyChainEvents_verified {c : Core} {log : List LogEntry}
    (h : c.watcher.Derived keccak256 config log) {events : List CoreTexStateAdvancedEvent}
    (hverified : (events.foldlM (Position.advance keccak256 config)
      ⟨c.watcher.liveState, c.watcher.lastTransitionIndex⟩).isSome) :
    (applyChainEvents keccak256 config c events).2 = none := by
  induction events generalizing c log with
  | nil => rfl
  | cons ev events ih =>
      rw [List.foldlM_cons] at hverified
      cases hverify : verifyEvent keccak256 config c.watcher.liveState c.watcher.liveRoot
          c.watcher.lastTransitionIndex ev with
      | error fault =>
          rw [h.liveRoot] at hverify
          rw [advance_eq_none hverify] at hverified
          cases hverified
      | ok next =>
          rw [applyChainEvents, applyChainEvent_eq_ok.mpr ⟨next, hverify, rfl⟩]
          refine ih (h.commit hverify) ?_
          rw [h.liveRoot] at hverify
          rw [advance_eq_ok hverify] at hverified
          exact hverified

/-! ### Following the chain -/

variable (keccak256 config) in
/-- The watcher stands at the end of the applied advances, which are those of the scanned
blocks. -/
structure Following (F : SettledChain) (w : Watcher) (applied : List CoreTexStateAdvancedEvent) :
    Prop where
  derived : ∃ log : List LogEntry, w.Derived keccak256 config log ∧ log.map Prod.fst = applied
  exact : applied = F.between config.firstBlock w.lastScannedBlock
  behind : config.firstBlock ≤ w.lastScannedBlock

variable {F : SettledChain} {c c' : Core} {r : TickReads} {height : Int}
  {applied : List CoreTexStateAdvancedEvent}

/-- The deepest snapshot's block is the chain's, so nothing is rolled back. -/
theorem Following.detected (h : Following keccak256 config F c.watcher applied)
    (hhash : F.AnswersHash c r) (hdetect : detectReorg c r = some c') : c' = c := by
  obtain ⟨log, hderived, hlog⟩ := h.derived
  unfold detectReorg at hdetect
  cases hlast : c.watcher.snapshots.getLast? with
  | none =>
      rw [hlast] at hdetect
      exact (Option.some.inj hdetect).symm
  | some deepest =>
      rw [hlast] at hdetect
      cases hread : r.deepestHash with
      | none =>
          rw [hread] at hdetect
          cases hdetect
      | some canonical =>
          rw [hread] at hdetect
          have hsame : (canonical.all (· = "") || sameHash canonical deepest.blockHash) = true := by
            cases canonical with
            | none => rfl
            | some x =>
                by_cases hempty : x = ""
                · simp [hempty]
                · have hx := hhash x deepest hread hempty hlast
                  rw [hderived.window.getLast?_eq, Option.map_eq_some_iff] at hlast
                  obtain ⟨entry, hentry, rfl⟩ := hlast
                  have hmem : entry.1 ∈ F.advances := by
                    have hin := List.mem_map_of_mem (f := Prod.fst) (List.mem_of_getLast? hentry)
                    rw [hlog, h.exact] at hin
                    exact (SettledChain.mem_between.mp hin).1
                  have hhashed : x.toLower = (checkpointOf keccak256 entry).blockHash.toLower :=
                    hx.trans (F.hashed entry.1 hmem)
                  simp [sameHash, hempty, hhashed]
          dsimp only at hdetect
          rw [if_pos hsame] at hdetect
          exact (Option.some.inj hdetect).symm

/-- What a scan does to a watcher that follows the chain. -/
theorem Following.scanned (h : Following keccak256 config F c.watcher applied)
    (hanswers : F.Answers height r.blockNumber r.stateAdvancedEvents) {safeHead : Int}
    (hheight : safeHead ≤ height)
    (hmeets : ∀ ev rest, r.stateAdvancedEvents (c.watcher.lastScannedBlock + 1) safeHead ≠ none →
      F.between (c.watcher.lastScannedBlock + 1) safeHead = ev :: rest →
      (Position.advance keccak256 config ⟨c.watcher.liveState, c.watcher.lastTransitionIndex⟩
        ev).isSome →
      ((ev :: rest).foldlM (Position.advance keccak256 config)
        ⟨c.watcher.liveState, c.watcher.lastTransitionIndex⟩).isSome) :
    ∀ c', (scan keccak256 S config c r safeHead = .ok c' ∨
        scan keccak256 S config c r safeHead = .error c') →
      Following keccak256 config F c'.watcher
        (applied ++ scanApplied keccak256 config S c.watcher r safeHead) ∧
      c.watcher.lastScannedBlock ≤ c'.watcher.lastScannedBlock ∧
      ∀ ev ∈ scanApplied keccak256 config S c.watcher r safeHead, ev.blockNumber ≤ safeHead := by
  intro c' hscan
  have hstays : c' = c → scanApplied keccak256 config S c.watcher r safeHead = [] →
      Following keccak256 config F c'.watcher
        (applied ++ scanApplied keccak256 config S c.watcher r safeHead) ∧
      c.watcher.lastScannedBlock ≤ c'.watcher.lastScannedBlock ∧
      ∀ ev ∈ scanApplied keccak256 config S c.watcher r safeHead, ev.blockNumber ≤ safeHead := by
    intro hc hnil
    rw [hc, hnil, List.append_nil]
    exact ⟨h, Int.le_refl _, fun ev hev => nomatch hev⟩
  by_cases hahead : safeHead > c.watcher.lastScannedBlock
  · unfold scan at hscan
    rw [if_pos hahead] at hscan
    cases hread : r.stateAdvancedEvents (c.watcher.lastScannedBlock + 1) safeHead with
    | none =>
        rw [hread] at hscan
        refine hstays ?_ (by rw [scanApplied, if_pos hahead, hread])
        rcases hscan with hscan | hscan
        · cases hscan
        · exact (Except.error.inj hscan).symm
    | some events =>
        have hsort : S.sort cmpEvents events =
            F.between (c.watcher.lastScannedBlock + 1) safeHead := by
          refine SettledChain.sort_perm S ?_
          have hperm := hanswers.events _ _ events hread
          rwa [min_eq_left hheight] at hperm
        have happlied : scanApplied keccak256 config S c.watcher r safeHead =
            appliedEvents keccak256 config c.watcher
              (F.between (c.watcher.lastScannedBlock + 1) safeHead) := by
          rw [scanApplied, if_pos hahead, hread]
          exact congrArg _ hsort
        rw [hread] at hscan
        dsimp only at hscan
        rw [hsort] at hscan
        cases hrun : applyChainEvents keccak256 config c
            (F.between (c.watcher.lastScannedBlock + 1) safeHead) with
        | mk c₁ fault =>
            rw [hrun] at hscan
            cases fault with
            | none =>
                have hwhole := appliedEvents_eq_self (congrArg Prod.snd hrun)
                have hc : c' = { c₁ with
                    watcher := { c₁.watcher with lastScannedBlock := safeHead } } := by
                  rcases hscan with hscan | hscan
                  · exact (Except.ok.inj hscan).symm
                  · cases hscan
                obtain ⟨log, hderived, hlog⟩ := h.derived
                obtain ⟨back, hback, hderived'⟩ := appliedEvents_derived hderived
                  (F.between (c.watcher.lastScannedBlock + 1) safeHead)
                rw [hrun] at hderived'
                rw [happlied, hc]
                refine ⟨⟨⟨log ++ back, hderived'.cursor safeHead, ?_⟩, ?_, ?_⟩, ?_, ?_⟩
                · rw [List.map_append, hlog, hback]
                · rw [hwhole, h.exact]
                  refine SettledChain.between_append ?_ (Int.le_of_lt hahead)
                  have := h.behind
                  omega
                · exact Int.le_trans h.behind (Int.le_of_lt hahead)
                · exact Int.le_of_lt hahead
                · intro ev hev
                  rw [hwhole] at hev
                  exact (SettledChain.mem_between.mp hev).2.2
            | some fault =>
                -- the batch stops, and then it stops at its first event
                cases hbatch : F.between (c.watcher.lastScannedBlock + 1) safeHead with
                | nil =>
                    rw [hbatch] at hrun
                    cases hrun
                | cons ev rest =>
                    rw [hbatch] at hrun happlied
                    obtain ⟨log, hderived, -⟩ := h.derived
                    cases hverify : verifyEvent keccak256 config c.watcher.liveState
                        c.watcher.liveRoot c.watcher.lastTransitionIndex ev with
                    | ok next =>
                        have hfirst := hverify
                        rw [hderived.liveRoot] at hfirst
                        have hall := hmeets ev rest (by rw [hread]; exact Option.some_ne_none _)
                          hbatch (by rw [advance_eq_ok hfirst]; rfl)
                        have hnone := applyChainEvents_verified hderived hall
                        rw [hrun] at hnone
                        cases hnone
                    | error fault' =>
                        rw [applyChainEvents, applyChainEvent_of_fault hverify] at hrun
                        obtain ⟨rfl, -⟩ := Prod.mk.inj hrun
                        refine hstays ?_ (by rw [happlied, appliedEvents, hverify])
                        rcases hscan with hscan | hscan
                        · cases hscan
                        · exact (Except.error.inj hscan).symm
  · unfold scan at hscan
    rw [if_neg hahead] at hscan
    refine hstays ?_ (by rw [scanApplied, if_neg hahead])
    rcases hscan with hscan | hscan
    · exact (Except.ok.inj hscan).symm
    · cases hscan

/-- A tick whose reorg check cannot read. -/
theorem tickInner_undetected (hfrozen : ¬ c.frozen = true)
    (hepoch : r.v4CurrentEpoch = some config.epoch) {head : Int}
    (hhead : r.blockNumber = some head) (hdetect : detectReorg c r = none) :
    tickInner keccak256 S config c r = c.watcherFault := by
  rw [tickInner, if_neg hfrozen, hepoch]
  dsimp only
  rw [if_neg (not_not.mpr rfl), hhead]
  dsimp only
  rw [hdetect]

/-- What a tick leaves of the watcher is what its scan does. -/
theorem watcher_tickInner (hfrozen : ¬ c.frozen = true)
    (hepoch : r.v4CurrentEpoch = some config.epoch) {head : Int}
    (hhead : r.blockNumber = some head) {c' c₁ : Core} (hdetect : detectReorg c r = some c')
    (hscan : scan keccak256 S config c' r (head - config.confirmationDepth) = .ok c₁ ∨
      scan keccak256 S config c' r (head - config.confirmationDepth) = .error c₁) :
    (tickInner keccak256 S config c r).watcher = c₁.watcher := by
  rw [tickInner, if_neg hfrozen, hepoch]
  dsimp only
  rw [if_neg (not_not.mpr rfl), hhead]
  dsimp only
  rw [hdetect]
  dsimp only
  rcases hscan with hscan | hscan
  · rw [hscan]
    exact watcher_finishTick _ _
  · rw [hscan]
    rfl

/-- What a tick does to a watcher that follows the chain. -/
theorem Following.ticked (hdepth : 0 ≤ config.confirmationDepth)
    (h : Following keccak256 config F c.watcher applied)
    (hanswers : F.Answers height r.blockNumber r.stateAdvancedEvents)
    (hhash : F.AnswersHash c r) (hmeets : FirstOrNoneRefused keccak256 config F c r) :
    Following keccak256 config F (tickInner keccak256 S config c r).watcher
        (applied ++ tickApplied keccak256 config S c r) ∧
      c.watcher.lastScannedBlock ≤ (tickInner keccak256 S config c r).watcher.lastScannedBlock ∧
      ∀ ev ∈ tickApplied keccak256 config S c r, ∃ head, r.blockNumber = some head ∧
        ev.blockNumber ≤ head - config.confirmationDepth := by
  have hstays : (tickInner keccak256 S config c r).watcher = c.watcher →
      tickApplied keccak256 config S c r = [] →
      Following keccak256 config F (tickInner keccak256 S config c r).watcher
          (applied ++ tickApplied keccak256 config S c r) ∧
        c.watcher.lastScannedBlock ≤ (tickInner keccak256 S config c r).watcher.lastScannedBlock ∧
        ∀ ev ∈ tickApplied keccak256 config S c r, ∃ head, r.blockNumber = some head ∧
          ev.blockNumber ≤ head - config.confirmationDepth := by
    intro hw hnil
    rw [hw, hnil, List.append_nil]
    exact ⟨h, Int.le_refl _, fun ev hev => nomatch hev⟩
  by_cases hfrozen : c.frozen = true
  · exact hstays (by rw [tickInner, if_pos hfrozen]) (by rw [tickApplied, if_pos (.inl hfrozen)])
  by_cases hepoch : r.v4CurrentEpoch = some config.epoch
  · have hguard : ¬ (c.frozen = true ∨ r.v4CurrentEpoch ≠ some config.epoch) := by
      simp [hfrozen, hepoch]
    cases hhead : r.blockNumber with
    | none =>
        refine hhead ▸ hstays ?_ (by rw [tickApplied, if_neg hguard, hhead])
        rw [tickInner, if_neg hfrozen, hepoch]
        dsimp only
        rw [if_neg (not_not.mpr rfl), hhead]
        rfl
    | some head =>
        cases hdetect : detectReorg c r with
        | none =>
            refine hhead ▸ hstays ?_ (by rw [tickApplied, if_neg hguard, hhead, hdetect])
            rw [tickInner_undetected hfrozen hepoch hhead hdetect]
            rfl
        | some c' =>
            obtain rfl := h.detected hhash hdetect
            have hdeepest : c'.watcher.snapshots ≠ [] → r.deepestHash ≠ none := by
              intro hne hnone
              obtain ⟨deepest, hlast⟩ : ∃ deepest, c'.watcher.snapshots.getLast? = some deepest :=
                ⟨_, List.getLast?_eq_some_getLast hne⟩
              rw [detectReorg, hlast, hnone] at hdetect
              cases hdetect
            have hscanned := h.scanned (S := S) hanswers
              (show head - config.confirmationDepth ≤ height by
                have := hanswers.head head hhead
                omega)
              fun ev rest hread hbatch hfirst => hmeets _ ev rest
                ⟨by simpa using hfrozen, hepoch, by rw [hhead, Int.sub_add_cancel], hdeepest, hread⟩
                hbatch hfirst
            have happlied : tickApplied keccak256 config S c' r =
                scanApplied keccak256 config S c'.watcher r
                  (head - config.confirmationDepth) := by
              rw [tickApplied, if_neg hguard, hhead, hdetect]
            rw [happlied]
            cases hscan : scan keccak256 S config c' r (head - config.confirmationDepth) with
            | error c₁ =>
                obtain ⟨hfollows, hcursor, hconfirmed⟩ := hscanned c₁ (.inr hscan)
                rw [watcher_tickInner hfrozen hepoch hhead hdetect (.inr hscan)]
                exact ⟨hfollows, hcursor, fun ev hev => ⟨head, rfl, hconfirmed ev hev⟩⟩
            | ok c₁ =>
                obtain ⟨hfollows, hcursor, hconfirmed⟩ := hscanned c₁ (.inl hscan)
                rw [watcher_tickInner hfrozen hepoch hhead hdetect (.inl hscan)]
                exact ⟨hfollows, hcursor, fun ev hev => ⟨head, rfl, hconfirmed ev hev⟩⟩
  · refine hstays ?_ (by rw [tickApplied, if_pos (.inr hepoch)])
    rw [tickInner, if_neg hfrozen]
    cases hread : r.v4CurrentEpoch with
    | none => rfl
    | some v4Epoch =>
        have hne : v4Epoch ≠ config.epoch := by
          intro heq
          exact hepoch (by rw [hread, heq])
        dsimp only
        rw [if_pos hne]
        rfl

/-- A boot that ends has applied its whole batch. -/
theorem boot_applied {r : BootReads} (h : boot keccak256 S config r = .ok c) :
    ∃ head events, r.blockNumber = some head ∧
      r.stateAdvancedEvents config.firstBlock
        (max config.firstBlock (head - config.confirmationDepth)) = some events ∧
      bootApplied keccak256 config S r = S.sort cmpEvents events ∧
      (∃ log : List LogEntry, c.watcher.Derived keccak256 config log ∧
        log.map Prod.fst = S.sort cmpEvents events) ∧
      c.watcher.lastScannedBlock = max config.firstBlock (head - config.confirmationDepth) := by
  unfold boot at h
  obtain ⟨_, -, h⟩ := bind_eq_ok.mp h
  obtain ⟨pins, hpins, h⟩ := bind_eq_ok.mp h
  obtain ⟨parent, hparent, h⟩ := bind_eq_ok.mp h
  rw [refuseIf_bind_eq_ok] at h
  obtain ⟨hroot, h⟩ := h
  obtain ⟨baseline, -, h⟩ := bind_eq_ok.mp h
  rw [toLower_rootHex, not_not] at hroot
  have hstart := @parentCore_derived keccak256 config _ _ baseline config.firstBlock hroot.symm
  unfold startupReplay at h
  obtain ⟨head, hhead, h⟩ := bind_eq_ok.mp h
  obtain ⟨events, hevents, h⟩ := bind_eq_ok.mp h
  have hhead := readOr_eq_ok.mp hhead
  have hread : r.stateAdvancedEvents config.firstBlock
      (max config.firstBlock (head - config.confirmationDepth)) = some events :=
    readOr_eq_ok.mp hevents
  have hpinsRead : r.registryEpochPins = some pins := by
    rw [checkPins, bind_eq_ok] at hpins
    obtain ⟨pins', hpins', hchecked⟩ := hpins
    obtain ⟨_, -, hpure⟩ := bind_eq_ok.mp hchecked
    rw [← pure_eq_ok.mp hpure]
    exact readOr_eq_ok.mp hpins'
  have hbatch : bootApplied keccak256 config S r = appliedEvents keccak256 config
      (parentCore config parent pins.parentStateRoot.toLower baseline config.firstBlock).watcher
      (S.sort cmpEvents events) := by
    rw [bootApplied, hpinsRead, hhead]
    dsimp only
    rw [readOr_eq_ok.mp hparent, hread]
    rfl
  obtain ⟨back, hback, hderived⟩ := appliedEvents_derived hstart (S.sort cmpEvents events)
  cases hrun : applyChainEvents keccak256 config
      (parentCore config parent pins.parentStateRoot.toLower baseline config.firstBlock)
      (S.sort cmpEvents events) with
  | mk c₁ fault =>
      have happly : applyChainEvents keccak256 config (parentCore config parent
          pins.parentStateRoot.toLower baseline (max 0 (config.replayFromBlock.getD 0)))
          (S.sort cmpEvents events) = (c₁, fault) := hrun
      dsimp only at h
      rw [happly] at h
      rw [hrun] at hderived
      cases fault with
      | some fault => cases h
      | none =>
          have hwhole := appliedEvents_eq_self (congrArg Prod.snd hrun)
          rw [hwhole] at hback hbatch
          have hw : c.watcher = { c₁.watcher with
              lastScannedBlock := max config.firstBlock (head - config.confirmationDepth) } := by
            obtain ⟨reg, -, h⟩ := bind_eq_ok.mp h
            split at h
            · rw [← pure_eq_ok.mp h]
              rfl
            · rw [refuseIf_bind_eq_ok] at h
              rw [← pure_eq_ok.mp h.2]
              rfl
          rw [hw]
          exact ⟨head, events, hhead, hread, hbatch, ⟨back, hderived.cursor _, hback⟩, rfl⟩

/-- A startup replay whose batch is applied whole and whose parity gate opens. -/
theorem startupReplay_of_applied {c c' : Core} {r : BootReads} {head : Int}
    {events : List CoreTexStateAdvancedEvent} {reg : RegistryEpoch}
    (hhead : r.blockNumber = some head)
    (hread : r.stateAdvancedEvents c.watcher.replayFromBlock
      (max c.watcher.replayFromBlock (head - config.confirmationDepth)) = some events)
    (happlied : applyChainEvents keccak256 config c (S.sort cmpEvents events) = (c', none))
    (hregistry : r.registryEpoch = some reg)
    (hparity : parityFault { c'.watcher with
      lastScannedBlock := max c.watcher.replayFromBlock (head - config.confirmationDepth) } reg =
        none) :
    startupReplay keccak256 S config c r = .ok { c' with
      watcher := { c'.watcher with
        lastScannedBlock := max c.watcher.replayFromBlock (head - config.confirmationDepth) }
      signingEnabled := true
      unhealthyReason := none } := by
  unfold startupReplay
  rw [readOr_eq_ok.mpr hhead, ok_bind]
  dsimp only
  rw [readOr_eq_ok.mpr hread, ok_bind, happlied]
  dsimp only
  rw [readOr_eq_ok.mpr hregistry, ok_bind, hparity]
  rfl

/-- What a boot leaves on a chain whose first replayed block is confirmed, or has no advance. -/
theorem Following.booted {r : BootReads} (h : boot keccak256 S config r = .ok c)
    (hanswers : F.Answers height r.blockNumber r.stateAdvancedEvents)
    (hmeets : FirstBlockConfirmed config F r) :
    Following keccak256 config F c.watcher (bootApplied keccak256 config S r) ∧
      ∀ ev ∈ bootApplied keccak256 config S r, ∃ head, r.blockNumber = some head ∧
        ev.blockNumber ≤ head - config.confirmationDepth := by
  have hdepth := boot_confirmationDepth h
  obtain ⟨head, events, hhead, hread, hbatch, ⟨log, hderived, hlog⟩, hcursor⟩ := boot_applied h
  have hheight := hanswers.head head hhead
  have hperm := hanswers.events _ _ events hread
  -- the blocks of the batch, and where they end
  have hbetween : F.between config.firstBlock
      (min (max config.firstBlock (head - config.confirmationDepth)) height) =
      F.between config.firstBlock (max config.firstBlock (head - config.confirmationDepth)) ∧
      ∀ ev ∈ F.between config.firstBlock
          (max config.firstBlock (head - config.confirmationDepth)),
        ev.blockNumber ≤ head - config.confirmationDepth := by
    rcases hmeets head hhead with hconfirmed | hnone
    · rw [max_eq_right hconfirmed, min_eq_left (by omega)]
      exact ⟨rfl, fun ev hev => (SettledChain.mem_between.mp hev).2.2⟩
    · by_cases hconfirmed : config.firstBlock ≤ head - config.confirmationDepth
      · rw [max_eq_right hconfirmed, min_eq_left (by omega)]
        exact ⟨rfl, fun ev hev => (SettledChain.mem_between.mp hev).2.2⟩
      · have hnil : ∀ b ≤ config.firstBlock, F.between config.firstBlock b = [] := by
          intro b hb
          refine List.eq_nil_iff_forall_not_mem.mpr fun ev hev => ?_
          obtain ⟨hmem, hfirst, hlast⟩ := SettledChain.mem_between.mp hev
          exact hnone ev hmem (by omega)
        rw [max_eq_left (by omega), hnil _ (min_le_left _ _), hnil _ (Int.le_refl _)]
        exact ⟨rfl, fun ev hev => nomatch hev⟩
  rw [hbetween.1] at hperm
  have hsort := SettledChain.sort_perm S hperm
  rw [hbatch, hsort]
  rw [hsort] at hlog
  refine ⟨⟨⟨log, hderived, hlog⟩, by rw [hcursor], by rw [hcursor]; exact le_max_left _ _⟩, ?_⟩
  exact fun ev hev => ⟨head, hhead, hbetween.2 ev hev⟩

/-- In every run whose boots and ticks meet the conditions, scanning is exact behind the finality
gate. -/
theorem scanRun_exact {steps : List ScanStep}
    (h : ScanRun keccak256 config S F (FirstBlockConfirmed config F)
      (FirstOrNoneRefused keccak256 config F) steps c) : ScanExact config F steps c := by
  suffices hsuff : 0 ≤ config.confirmationDepth ∧
      Following keccak256 config F c.watcher (steps.flatMap (·.applied)) ∧
      (steps.map (·.cursor)).Pairwise (· ≤ ·) ∧
      (∀ step ∈ steps, step.cursor ≤ c.watcher.lastScannedBlock) ∧
      ∀ step ∈ steps, ∀ ev ∈ step.applied, ∃ head, step.head = some head ∧
        ev.blockNumber ≤ head - config.confirmationDepth by
    obtain ⟨-, hfollows, hcursors, hreached, hconfirmed⟩ := hsuff
    refine ⟨hfollows.exact, ?_, hcursors, hreached, hconfirmed⟩
    rw [hfollows.exact]
    exact SettledChain.ordered_between _ _
  induction h with
  | boot hboot hanswers hmeets =>
      obtain ⟨hfollows, hconfirmed⟩ := Following.booted hboot hanswers hmeets
      refine ⟨boot_confirmationDepth hboot, by simpa using hfollows, List.pairwise_singleton _ _,
        ?_, ?_⟩
      · intro step hstep
        rw [List.mem_singleton.mp hstep]
      · intro step hstep
        rw [List.mem_singleton.mp hstep]
        exact hconfirmed
  | tick _ hanswers hhash hmeets ih =>
      obtain ⟨hdepth, hfollows, hcursors, hreached, hconfirmed⟩ := ih
      obtain ⟨hfollows', hcursor, hconfirmed'⟩ :=
        hfollows.ticked (S := S) hdepth hanswers hhash hmeets
      refine ⟨hdepth, by simpa using hfollows', ?_, ?_, ?_⟩
      · rw [List.map_append, List.pairwise_append]
        refine ⟨hcursors, List.pairwise_singleton _ _, fun a ha b hb => ?_⟩
        obtain ⟨step, hstep, rfl⟩ := List.mem_map.mp ha
        rw [List.mem_singleton.mp hb]
        exact Int.le_trans (hreached step hstep) hcursor
      · intro step hstep
        rcases List.mem_append.mp hstep with hstep | hstep
        · exact Int.le_trans (hreached step hstep) hcursor
        · rw [List.mem_singleton.mp hstep]
      · intro step hstep
        rcases List.mem_append.mp hstep with hstep | hstep
        · exact hconfirmed step hstep
        · rw [List.mem_singleton.mp hstep]
          exact hconfirmed'
  | beside _ hw ih =>
      rw [hw]
      exact ih

end Scan

/-! ### Samples -/

/-- The chain of the sample's first advance, in block 1. -/
def sampleChain : SettledChain where
  advances := [firstAdvance]
  hashAt _ := "0xaa"
  ordered := List.pairwise_singleton _ _
  hashed ev hev := by
    rw [List.mem_singleton.mp hev]
    rfl

/-- Its advances as a provider answers them at a height. -/
def sampleAnswers (height a b : Int) : Option (List CoreTexStateAdvancedEvent) :=
  some (sampleChain.between a (min b height))

theorem answers_sampleAnswers {n height : Int} (h : n ≤ height) :
    sampleChain.Answers height (some n) (sampleAnswers height) where
  head _ hm := Option.some.inj hm ▸ h
  events _ _ _ hevents := Option.some.inj hevents ▸ .refl _

/-- A tick that reads the sample's chain at block 5. -/
def settledReads : TickReads :=
  { sampleReads with stateAdvancedEvents := sampleAnswers 5 }

/-- `scanRun_exact` on a boot at block 0 and a tick at block 5. -/
theorem scanRun_exact_sample :
    ScanExact sampleConfig sampleChain
      [⟨some 0, bootApplied tailDigest sampleConfig .merge
          (quietReads tailDigest sampleConfig zeroState 0 (sampleAnswers 0)), 0⟩,
        ⟨some 5, tickApplied tailDigest sampleConfig .merge sampleCore settledReads,
          (tickInner tailDigest .merge sampleConfig sampleCore settledReads).watcher.lastScannedBlock⟩]
      (tickInner tailDigest .merge sampleConfig sampleCore settledReads) := by
  have hboot := @boot_sample .merge (sampleAnswers 0) (by decide)
  have hbooted : ScanRun tailDigest sampleConfig .merge sampleChain
      (FirstBlockConfirmed sampleConfig sampleChain)
      (FirstOrNoneRefused tailDigest sampleConfig sampleChain)
      [⟨some 0, bootApplied tailDigest sampleConfig .merge
        (quietReads tailDigest sampleConfig zeroState 0 (sampleAnswers 0)), 0⟩] sampleCore := by
    refine .boot hboot (answers_sampleAnswers (Int.le_refl 0)) fun head hhead => .inl ?_
    rw [← Option.some.inj hhead]
    decide
  have hhash : sampleChain.AnswersHash sampleCore settledReads := fun h snap hread _ _ => by
    rw [← Option.some.inj (Option.some.inj hread)]
    rfl
  refine scanRun_exact (.tick (r := settledReads) hbooted
    (answers_sampleAnswers (Int.le_refl 5)) hhash ?_)
  intro safeHead ev rest _ hbatch hfirst
  -- the chain has one advance
  have hone : (sampleChain.between (sampleCore.watcher.lastScannedBlock + 1) safeHead).length ≤ 1 :=
    List.length_filter_le _ [firstAdvance]
  obtain rfl : rest = [] := by
    rw [hbatch, List.length_cons] at hone
    exact List.length_eq_zero_iff.mp (by omega)
  obtain ⟨p, hp⟩ := Option.isSome_iff_exists.mp hfirst
  rw [List.foldlM_cons, hp]
  rfl

/-- A deployment in block 1, and advances that count after five confirmations. -/
def lateConfig : CoreTexCoordinatorConfig :=
  { sampleConfig with
    confirmationDepth := 5
    replayFromBlock := some 1 }

/-- What the sample's chain answers to a boot at block 3. -/
def lateReads : BootReads :=
  { quietReads tailDigest lateConfig zeroState 3 (sampleAnswers 3) with
    registryEpoch := some ⟨rootHex tailDigest slotState, 1⟩ }

theorem validateStaticConfig_late : validateStaticConfig lateConfig = .ok () := by
  decide +kernel

theorem checkWiring_late : checkWiring lateConfig lateReads = .ok () := by
  unfold checkWiring
  rw [validateStaticConfig_late]
  simp [lateReads, quietReads, readOr, Except.mapError, refuseIf]

theorem checkPins_late : checkPins lateConfig lateReads = .ok lateConfig.expectedEpochPins := by
  simp [checkPins, lateReads, quietReads, readOr, RegistryEpochPins.fields, checkPin, refuseIf]

/-- The core at the parent of the late deployment. -/
def lateParentCore : Core :=
  parentCore lateConfig zeroState (rootHex tailDigest zeroState) 0 1

/-- The same core with the first advance applied. -/
def lateAppliedCore : Core :=
  { lateParentCore with
    watcher := lateParentCore.watcher.commit tailDigest firstAdvance slotState
    book := lateParentCore.book.settleAdvance firstAdvance (rootHex tailDigest slotState).toLower }

/-- The core the late boot ends in. -/
def lateCore : Core :=
  { lateAppliedCore with
    watcher := { lateAppliedCore.watcher with lastScannedBlock := 1 }
    signingEnabled := true
    unhealthyReason := none }

theorem applyChainEvents_late :
    applyChainEvents tailDigest lateConfig lateParentCore [firstAdvance] =
      (lateAppliedCore, none) := by
  have hverified : EventVerified tailDigest lateConfig zeroState (rootHex tailDigest zeroState) (-1)
      firstAdvance slotState :=
    ⟨rfl, rfl, rfl, rfl, rfl, rfl, firstAdvance_verified.patchHash, firstAdvance_verified.advances,
      firstAdvance_verified.newRoot⟩
  have hverify : verifyEvent tailDigest lateConfig lateParentCore.watcher.liveState
      lateParentCore.watcher.liveRoot lateParentCore.watcher.lastTransitionIndex firstAdvance =
        .ok slotState := verifyEvent_eq_ok.mpr hverified
  rw [applyChainEvents, applyChainEvent_eq_ok.mpr ⟨slotState, hverify, rfl⟩]
  rfl

theorem parityFault_late :
    parityFault lateCore.watcher ⟨rootHex tailDigest slotState, 1⟩ = none := by
  refine parityFault_eq_none.mpr ⟨rfl, ?_⟩
  show (rootHex tailDigest slotState).toLower = (rootHex tailDigest slotState).toLower.toLower
  rw [toLower_rootHex, toLower_rootHex]

theorem between_sampleChain : sampleChain.between 1 1 = [firstAdvance] := rfl

theorem startupReplay_late (S : CompareSort) :
    startupReplay tailDigest S lateConfig lateParentCore lateReads = .ok lateCore := by
  have hsort : S.sort cmpEvents [firstAdvance] = [firstAdvance] :=
    List.perm_singleton.mp (S.perm cmpEvents [firstAdvance])
  have hread : lateReads.stateAdvancedEvents lateParentCore.watcher.replayFromBlock
      (max lateParentCore.watcher.replayFromBlock (3 - lateConfig.confirmationDepth)) =
        some [firstAdvance] := congrArg some between_sampleChain
  have happlied : applyChainEvents tailDigest lateConfig lateParentCore
      (S.sort cmpEvents [firstAdvance]) = (lateAppliedCore, none) := by
    rw [hsort]
    exact applyChainEvents_late
  exact startupReplay_of_applied rfl hread happlied rfl parityFault_late

/-- The boot applies the advance of block 1 and signs on it. -/
theorem boot_lateReads (S : CompareSort) : boot tailDigest S lateConfig lateReads = .ok lateCore :=
  (boot_eq_startupReplay checkWiring_late checkPins_late rfl rfl rfl).trans (startupReplay_late S)

/-- Scanning is not exact behind the finality gate on every run: a boot at block 3 with five
confirmations asked for applies the advance of block 1. -/
theorem not_scanExact :
    ¬ ∀ (keccak256 : Bytes → Digest) (config : CoreTexCoordinatorConfig) (S : CompareSort)
      (F : SettledChain) (steps : List ScanStep) (c : Core),
      ScanRun keccak256 config S F (fun _ => True) (fun _ _ => True) steps c →
        ScanExact config F steps c := by
  intro hclaim
  have hboot := boot_lateReads .merge
  have hexact := hclaim tailDigest lateConfig .merge sampleChain _ lateCore
    (.boot hboot (answers_sampleAnswers (Int.le_refl 3)) trivial)
  obtain ⟨head, events, hhead, hread, hbatch, -, -⟩ := boot_applied hboot
  obtain rfl : 3 = head := Option.some.inj hhead
  obtain rfl : [firstAdvance] = events := Option.some.inj hread
  obtain ⟨head, hhead, hle⟩ := hexact.confirmed _ (List.mem_singleton_self _) firstAdvance (by
    show firstAdvance ∈ bootApplied tailDigest lateConfig .merge lateReads
    rw [hbatch, CompareSort.mem_sort]
    exact List.mem_singleton_self _)
  rw [← Option.some.inj hhead] at hle
  exact absurd hle (by decide)

end CoreTex.Coordinator
