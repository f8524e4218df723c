import CoreTex.Coordinator.Boot

/-!
# CoreTex.Coordinator.WatcherInvariant

What holds of the watcher after boot and any run of ticks.

`Watcher.Derived` ties the five pieces of the watcher's state to one log of verified events
from the pinned parent: the live state ends the log and the snapshots are a window over its
end. Applying an event appends to the log, a rollback cuts it at a snapshot, and a tick that
stops half-way has done some of both. The claims about the single pieces are read off it.
-/

namespace CoreTex.Coordinator

open CoreTex.Lib

section Verify

variable (keccak256 : Bytes → Digest) (config : CoreTexCoordinatorConfig)

/-- A patch of an event that applies to a state. -/
def AdvancesTo (s : CortexState) (ev : CoreTexStateAdvancedEvent) (t : CortexState) : Prop :=
  ∃ decoded, decodePatch (hexToBytes ev.compactPatchBytes) = .ok decoded ∧
    applyPatch keccak256 s decoded true = .ok t ∧ ev.wordCount = decoded.wordCount

/-- What a verified event is. -/
structure EventVerified (s : CortexState) (root : String) (index : Int)
    (ev : CoreTexStateAdvancedEvent) (t : CortexState) : Prop where
  epoch : ev.epoch = config.epoch
  index : ev.transitionIndex = index + 1
  parent : ev.parent.toLower = root.toLower
  coreV : ev.coreV.toLower = config.expectedEpochPins.coreVersionHash.toLower
  corpus : ev.corpus.toLower = config.expectedEpochPins.corpusRoot.toLower
  frontier : ev.frontier.toLower = config.expectedEpochPins.activeFrontierRoot.toLower
  patchHash : computePatchHash keccak256 (hexToBytes ev.compactPatchBytes) = ev.patchHash.toLower
  advances : AdvancesTo keccak256 s ev t
  newRoot : ev.newRoot.toLower = rootHex keccak256 t

variable {keccak256 config}

theorem mapError_eq_ok {ε ε' α : Type} {x : Except ε α} {f : ε → ε'} {a : α} :
    x.mapError f = .ok a ↔ x = .ok a := by
  cases x with
  | error e => simp [Except.mapError]
  | ok b => simp [Except.mapError]

/-- The checks accept exactly the verified events. -/
theorem verifyEvent_eq_ok {s t : CortexState} {root : String} {index : Int}
    {ev : CoreTexStateAdvancedEvent} :
    verifyEvent keccak256 config s root index ev = .ok t ↔
      EventVerified keccak256 config s root index ev t := by
  unfold verifyEvent
  dsimp only
  rw [refuseIf_bind_eq_ok, refuseIf_bind_eq_ok, refuseIf_bind_eq_ok, refuseIf_bind_eq_ok,
    refuseIf_bind_eq_ok, refuseIf_bind_eq_ok, refuseIf_bind_eq_ok]
  simp only [not_not, bind_eq_ok, mapError_eq_ok, refuseIf_eq_ok, pure_eq_ok, exists_and_left,
    toLower_computePatchHash, toLower_rootHex]
  constructor
  · rintro ⟨hepoch, hindex, hparent, hcore, hcorpus, hfrontier, hhash, p, hdecode, t', happly,
      hcount, hroot, -, -, rfl⟩
    exact ⟨hepoch, hindex, hparent, hcore, hcorpus, hfrontier, hhash, ⟨p, hdecode, happly, hcount⟩,
      hroot.symm⟩
  · rintro ⟨hepoch, hindex, hparent, hcore, hcorpus, hfrontier, hhash, ⟨p, hdecode, happly, hcount⟩,
      hroot⟩
    exact ⟨hepoch, hindex, hparent, hcore, hcorpus, hfrontier, hhash, p, hdecode, t, happly,
      hcount, hroot.symm, (), (), rfl⟩

end Verify

/-! ### One log behind the watcher -/

/-- Where a replay of events stands. -/
structure Position where
  state : CortexState
  index : Int

section Log

variable (keccak256 : Bytes → Digest) (config : CoreTexCoordinatorConfig)

/-- One verified event further. -/
def Position.advance (p : Position) (ev : CoreTexStateAdvancedEvent) : Option Position :=
  match verifyEvent keccak256 config p.state (rootHex keccak256 p.state) p.index ev with
  | .ok next => some ⟨next, ev.transitionIndex⟩
  | .error _ => none

def checkpointOf (entry : CoreTexStateAdvancedEvent × Position) : Snapshot :=
  snapshotOf keccak256 entry.1 entry.2.state

/-- The watcher stands at the end of a log of verified events from its parent state. -/
structure Watcher.Derived (w : Watcher) (log : List (CoreTexStateAdvancedEvent × Position)) :
    Prop where
  replays : Logged (Position.advance keccak256 config) ⟨w.parentState, -1⟩ log
    ⟨w.liveState, w.lastTransitionIndex⟩
  liveRoot : w.liveRoot = rootHex keccak256 w.liveState
  parentRoot : w.parentRoot = rootHex keccak256 w.parentState
  window : Window (checkpointOf keccak256) log w.snapshots
  keyed : ∀ e ∈ w.stateByRoot, e.1 = rootHex keccak256 e.2
  parentCached : ∃ s, w.stateByRoot.get w.parentRoot = some s
  snapshotsCached : ∀ snap ∈ w.snapshots, ∃ s, w.stateByRoot.get snap.root = some s

variable {keccak256 config}

theorem advance_eq_some {p q : Position} {ev : CoreTexStateAdvancedEvent} :
    p.advance keccak256 config ev = some q ↔
      EventVerified keccak256 config p.state (rootHex keccak256 p.state) p.index ev q.state ∧
        q.index = ev.transitionIndex := by
  rw [Position.advance]
  cases hverify : verifyEvent keccak256 config p.state (rootHex keccak256 p.state) p.index ev with
  | error fault =>
      simp only [reduceCtorEq, false_iff, not_and]
      intro h
      rw [← verifyEvent_eq_ok, hverify] at h
      cases h
  | ok next =>
      rw [← verifyEvent_eq_ok, hverify]
      cases q
      simp [eq_comm]

theorem checkpointOf_root (entry : CoreTexStateAdvancedEvent × Position) :
    (checkpointOf keccak256 entry).root = rootHex keccak256 entry.2.state :=
  toLower_rootHex _

/-- The end of a log, in terms of its last entry. -/
theorem Logged.last {parent p : Position} {log : List (CoreTexStateAdvancedEvent × Position)}
    (h : Logged (Position.advance keccak256 config) parent log p) :
    match log.getLast? with
    | some entry => entry.2 = p ∧ entry.1.transitionIndex = p.index
    | none => p = parent := by
  cases h with
  | start => rfl
  | next h hstep =>
      rw [List.getLast?_append, List.getLast?_singleton, Option.some_or]
      exact ⟨rfl, (advance_eq_some.mp hstep).2.symm⟩

namespace Watcher.Derived

variable {w : Watcher} {log : List (CoreTexStateAdvancedEvent × Position)}

/-- The deepest snapshot is the watcher's own position. -/
theorem deepest (h : w.Derived keccak256 config log) :
    match w.snapshots.getLast? with
    | some snap => snap.transitionIndex = w.lastTransitionIndex ∧ snap.root = w.liveRoot ∧
        snap.state = w.liveState
    | none => w.liveRoot = w.parentRoot ∧ w.lastTransitionIndex = -1 ∧ log = [] := by
  have hlast := Logged.last h.replays
  rw [h.window.getLast?_eq]
  cases hentry : log.getLast? with
  | none =>
      rw [hentry] at hlast
      rw [Position.mk.injEq] at hlast
      refine ⟨?_, hlast.2, List.getLast?_eq_none_iff.mp hentry⟩
      rw [h.liveRoot, hlast.1, h.parentRoot]
  | some entry =>
      rw [hentry] at hlast
      obtain ⟨hpos, hindex⟩ := hlast
      refine ⟨hindex, ?_, ?_⟩
      · rw [h.liveRoot, checkpointOf_root, hpos]
      · show entry.2.state = _
        rw [hpos]

theorem liveCached (h : w.Derived keccak256 config log) :
    ∃ s, w.stateByRoot.get w.liveRoot = some s := by
  have hdeepest := h.deepest
  cases hsnap : w.snapshots.getLast? with
  | none =>
      rw [hsnap] at hdeepest
      rw [hdeepest.1]
      exact h.parentCached
  | some snap =>
      rw [hsnap] at hdeepest
      rw [← hdeepest.2.1]
      exact h.snapshotsCached snap (List.mem_of_getLast? hsnap)

theorem toLower_liveRoot (h : w.Derived keccak256 config log) : w.liveRoot.toLower = w.liveRoot := by
  rw [h.liveRoot, toLower_rootHex]

/-- Only the scan cursor moves. -/
theorem cursor (h : w.Derived keccak256 config log) (block : Int) :
    Derived keccak256 config { w with lastScannedBlock := block } log :=
  ⟨h.replays, h.liveRoot, h.parentRoot, h.window, h.keyed, h.parentCached, h.snapshotsCached⟩

theorem mem_pushSnapshot {snapshots : List Snapshot} {snap s : Snapshot}
    (h : s ∈ pushSnapshot snapshots snap) : s ∈ snapshots ∨ s = snap := by
  unfold pushSnapshot at h
  dsimp only at h
  have hmem : s ∈ snapshots ++ [snap] := by
    split at h
    · exact List.mem_of_mem_tail h
    · exact h
  simpa using hmem

/-- A verified event is appended to the log. -/
theorem commit (h : w.Derived keccak256 config log) {ev : CoreTexStateAdvancedEvent}
    {next : CortexState}
    (hverify : verifyEvent keccak256 config w.liveState w.liveRoot w.lastTransitionIndex ev =
      .ok next) :
    Derived keccak256 config (w.commit keccak256 ev next)
      (log ++ [(ev, ⟨next, ev.transitionIndex⟩)]) := by
  have hroot : (rootHex keccak256 next).toLower = rootHex keccak256 next := toLower_rootHex next
  have hcached : ∀ {key : String}, (∃ s, w.stateByRoot.get key = some s) →
      ∃ s, (w.stateByRoot.set (rootHex keccak256 next).toLower next).get key = some s := by
    rintro key ⟨s, hs⟩
    rw [JsMap.get_set]
    by_cases hkey : (rootHex keccak256 next).toLower = key
    · exact ⟨next, if_pos hkey⟩
    · exact ⟨s, by rw [if_neg hkey, hs]⟩
  rw [h.liveRoot] at hverify
  refine ⟨.next h.replays ?_, hroot, h.parentRoot, ?_, ?_, hcached h.parentCached, ?_⟩
  · exact advance_eq_some.mpr ⟨verifyEvent_eq_ok.mp hverify, rfl⟩
  · have hpush := h.window.push (ev, ⟨next, ev.transitionIndex⟩)
    show Window _ _ (pushSnapshot w.snapshots _)
    unfold pushSnapshot
    dsimp only
    split
    · rename_i hlong
      exact hpush.tail (Nat.lt_trans (by decide) hlong)
    · exact hpush
  · intro e he
    rcases JsMap.mem_set he with rfl | he
    · exact hroot
    · exact h.keyed e he
  · intro snap hsnap
    rcases mem_pushSnapshot hsnap with hsnap | rfl
    · exact hcached (h.snapshotsCached snap hsnap)
    · exact ⟨next, by rw [Watcher.commit]; exact (JsMap.get_set ..).trans (if_pos rfl)⟩

/-- A rollback to a snapshot cuts the log behind its entry. -/
theorem rollback_some (h : w.Derived keccak256 config log) {i : Nat} {snap : Snapshot}
    (hsnap : w.snapshots[i]? = some snap) :
    ∃ front entry back, log = front ++ [entry] ++ back ∧ checkpointOf keccak256 entry = snap ∧
      w.snapshots.drop (i + 1) = back.map (checkpointOf keccak256) ∧
      Derived keccak256 config (w.rollback (some i)) (front ++ [entry]) := by
  obtain ⟨front, entry, back, rfl, hentry, hwindow, hdrop⟩ := h.window.rollback hsnap
  refine ⟨front, entry, back, rfl, hentry, hdrop, ?_⟩
  have hreplays := h.replays.of_append
  have hpos : lastState ⟨w.parentState, -1⟩ (front ++ [entry]) =
      (⟨snap.state, snap.transitionIndex⟩ : Position) := by
    have hlast := Logged.last hreplays
    rw [List.getLast?_append, List.getLast?_singleton, Option.some_or] at hlast
    rw [← hlast.1]
    rw [← hlast.1] at hlast
    rw [← hentry]
    show entry.2 = ⟨entry.2.state, entry.1.transitionIndex⟩
    rw [hlast.2]
  rw [hpos] at hreplays
  have hroot : snap.root = rootHex keccak256 snap.state := by
    rw [← hentry]
    exact checkpointOf_root entry
  have hrollback : w.rollback (some i) =
      { w with
        snapshots := w.snapshots.take (i + 1)
        liveState := snap.state
        liveRoot := snap.root.toLower
        lastTransitionIndex := snap.transitionIndex
        lastScannedBlock := snap.blockNumber } := by
    rw [Watcher.rollback, Option.bind_some, hsnap]
    rfl
  rw [hrollback]
  refine ⟨hreplays, ?_, h.parentRoot, hwindow, h.keyed, h.parentCached, ?_⟩
  · show snap.root.toLower = _
    rw [hroot, toLower_rootHex]
  · intro s hs
    exact h.snapshotsCached s (List.mem_of_mem_take hs)

/-- A rollback past every snapshot is to the parent. -/
theorem rollback_none (h : w.Derived keccak256 config log) :
    Derived keccak256 config (w.rollback none) [] := by
  refine ⟨.start, ?_, h.parentRoot, .start, h.keyed, h.parentCached, fun s hs => nomatch hs⟩
  show w.parentRoot.toLower = _
  rw [h.parentRoot, toLower_rootHex]
  rfl

/-- The states that stay cached are the ones the invariant asks for. -/
theorem pruneStates (h : w.Derived keccak256 config log) :
    Derived keccak256 config w.pruneStates log := by
  have hget : ∀ {key : String}, key ∈ w.snapshots.map (fun s => s.root.toLower) ∨
      key = w.parentRoot.toLower → (∃ s, w.stateByRoot.get key = some s) →
      ∃ s, w.pruneStates.stateByRoot.get key = some s := by
    rintro key hkeep ⟨s, hs⟩
    refine ⟨s, ?_⟩
    rw [Watcher.pruneStates, JsMap.get_filter_key w.stateByRoot (fun key => decide
      (key ∈ w.snapshots.map (fun s => s.root.toLower) ∨ key = w.parentRoot.toLower)) key,
      if_pos (decide_eq_true hkeep), hs]
  refine ⟨h.replays, h.liveRoot, h.parentRoot, h.window, ?_, hget (.inr ?_) h.parentCached, ?_⟩
  · intro e he
    exact h.keyed e (List.mem_of_mem_filter he)
  · rw [h.parentRoot, toLower_rootHex]
    exact h.parentRoot
  · intro snap hsnap
    refine hget (.inl (List.mem_map.mpr ⟨snap, hsnap, ?_⟩)) (h.snapshotsCached snap hsnap)
    obtain ⟨entry, -, rfl⟩ := List.mem_map.mp (h.window.suffix.subset hsnap)
    rw [checkpointOf_root, toLower_rootHex]

/-- Any rollback leaves the watcher at the end of a front part of its log. -/
theorem rollback (h : w.Derived keccak256 config log) (keepIndex : Option Nat) :
    ∃ front back, log = front ++ back ∧
      Derived keccak256 config (w.rollback keepIndex).pruneStates front := by
  cases keepIndex with
  | none => exact ⟨[], log, rfl, h.rollback_none.pruneStates⟩
  | some i =>
      cases hsnap : w.snapshots[i]? with
      | none =>
          have heq : w.rollback (some i) = w.rollback none := by
            rw [Watcher.rollback, Option.bind_some, hsnap]
            rfl
          rw [heq]
          exact ⟨[], log, rfl, h.rollback_none.pruneStates⟩
      | some snap =>
          obtain ⟨front, entry, back, hlog, -, -, hderived⟩ := h.rollback_some hsnap
          exact ⟨front ++ [entry], back, hlog, hderived.pruneStates⟩

end Watcher.Derived

theorem applyChainEvent_eq_ok {c c' : Core} {ev : CoreTexStateAdvancedEvent} :
    applyChainEvent keccak256 config c ev = .ok c' ↔
      ∃ next, verifyEvent keccak256 config c.watcher.liveState c.watcher.liveRoot
        c.watcher.lastTransitionIndex ev = .ok next ∧
        c' = { c with
          watcher := c.watcher.commit keccak256 ev next
          book := c.book.settleAdvance ev (rootHex keccak256 next).toLower } := by
  rw [applyChainEvent, bind_eq_ok]
  simp only [pure_eq_ok, @eq_comm _ _ c']

/-- An event that does not verify is not applied. -/
theorem applyChainEvent_of_fault {c : Core} {ev : CoreTexStateAdvancedEvent} {fault : WatcherFault}
    (h : verifyEvent keccak256 config c.watcher.liveState c.watcher.liveRoot
      c.watcher.lastTransitionIndex ev = .error fault) :
    applyChainEvent keccak256 config c ev = .error fault := by
  rw [applyChainEvent, h]
  rfl

/-- A batch extends the log, wherever it stops. -/
theorem applyChainEvents_derived {c : Core} {log : List (CoreTexStateAdvancedEvent × Position)}
    (h : c.watcher.Derived keccak256 config log) (events : List CoreTexStateAdvancedEvent) :
    ∃ log', (applyChainEvents keccak256 config c events).1.watcher.Derived keccak256 config log' := by
  induction events generalizing c log with
  | nil => exact ⟨log, h⟩
  | cons ev events ih =>
      rw [applyChainEvents]
      cases happly : applyChainEvent keccak256 config c ev with
      | error fault => exact ⟨log, h⟩
      | ok c' =>
          obtain ⟨next, hverify, rfl⟩ := applyChainEvent_eq_ok.mp happly
          exact ih (h.commit hverify)

theorem detectReorg_derived {c c' : Core} {r : TickReads}
    {log : List (CoreTexStateAdvancedEvent × Position)}
    (h : c.watcher.Derived keccak256 config log) (hdetect : detectReorg c r = some c') :
    ∃ log', c'.watcher.Derived keccak256 config log' := by
  have hhandle : ∀ {hashAt : Nat → Option (Option String)}, handleReorg c hashAt = some c' →
      ∃ log', c'.watcher.Derived keccak256 config log' := by
    intro hashAt hreorg
    rw [handleReorg] at hreorg
    cases hkeep : findCanonical hashAt c.watcher.snapshots c.watcher.snapshots.length with
    | none =>
        rw [hkeep] at hreorg
        cases hreorg
    | some keepIndex =>
        rw [hkeep] at hreorg
        obtain rfl : c.rollback keepIndex = c' := Option.some.inj hreorg
        obtain ⟨front, -, -, hderived⟩ := h.rollback keepIndex
        exact ⟨front, hderived⟩
  unfold detectReorg at hdetect
  cases hdeepest : c.watcher.snapshots.getLast? with
  | none =>
      rw [hdeepest] at hdetect
      obtain rfl := Option.some.inj hdetect
      exact ⟨log, h⟩
  | some deepest =>
      rw [hdeepest] at hdetect
      cases hread : r.deepestHash with
      | none =>
          rw [hread] at hdetect
          cases hdetect
      | some canonical =>
          rw [hread] at hdetect
          dsimp only at hdetect
          split at hdetect
          · obtain rfl := Option.some.inj hdetect
            exact ⟨log, h⟩
          · exact hhandle hdetect

section Tick

variable {S : CompareSort}

theorem scan_derived {c : Core} {log : List (CoreTexStateAdvancedEvent × Position)}
    (h : c.watcher.Derived keccak256 config log) (r : TickReads) (safeHead : Int) :
    match scan keccak256 S config c r safeHead with
    | .ok c' => ∃ log', c'.watcher.Derived keccak256 config log'
    | .error c' => ∃ log', c'.watcher.Derived keccak256 config log' := by
  unfold scan
  by_cases hahead : safeHead > c.watcher.lastScannedBlock
  · rw [if_pos hahead]
    cases r.stateAdvancedEvents (c.watcher.lastScannedBlock + 1) safeHead with
    | none => exact ⟨log, h⟩
    | some events =>
        obtain ⟨log', hbatch⟩ := applyChainEvents_derived h (S.sort cmpEvents events)
        dsimp only
        cases hrun : applyChainEvents keccak256 config c (S.sort cmpEvents events) with
        | mk c' fault =>
            rw [hrun] at hbatch
            cases fault with
            | none => exact ⟨log', hbatch.cursor safeHead⟩
            | some e => exact ⟨log', hbatch⟩
  · rw [if_neg hahead]
    exact ⟨log, h⟩

@[simp] theorem watcher_parityGate (c : Core) (reg : RegistryEpoch) :
    (c.parityGate reg).watcher = c.watcher := by
  unfold Core.parityGate
  split <;> rfl

@[simp] theorem watcher_finishTick (c : Core) (r : TickReads) :
    (finishTick config c r).watcher = c.watcher := by
  unfold finishTick
  split
  · rfl
  · exact watcher_parityGate c _

/-- A tick keeps the invariant wherever it stops. -/
theorem tickInner_derived {c : Core} {log : List (CoreTexStateAdvancedEvent × Position)}
    (h : c.watcher.Derived keccak256 config log) (r : TickReads) :
    ∃ log', (tickInner keccak256 S config c r).watcher.Derived keccak256 config log' := by
  unfold tickInner
  split
  · exact ⟨log, h⟩
  split
  · exact ⟨log, h⟩
  split
  · exact ⟨log, h⟩
  split
  · exact ⟨log, h⟩
  split
  · exact ⟨log, h⟩
  rename_i head _ _ c' hdetect
  obtain ⟨log', h'⟩ := detectReorg_derived h hdetect
  have hscan := scan_derived (S := S) h' r (head - config.confirmationDepth)
  split
  · rename_i c'' hrun
    rw [hrun] at hscan
    exact hscan
  · rename_i c'' hrun
    rw [hrun] at hscan
    rw [watcher_finishTick]
    exact hscan

end Tick

end Log

end CoreTex.Coordinator
