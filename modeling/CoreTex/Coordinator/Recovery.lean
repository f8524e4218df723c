import CoreTex.Coordinator.WatcherRuns
import CoreTex.Lib.Sort

/-!
# CoreTex.Coordinator.Recovery

Following a canonical chain.

A `History` is one chain as an honest provider reports it, and the watcher `Tracks` a history
when its log is the history's up to the scan cursor. A scan of the chain keeps that
(`Tracks.scanned`), and the reorg handler leads from one chain of a family onto another
(`ChainFamily.rolledBack`).
-/

namespace CoreTex.Coordinator

open CoreTex.Lib

abbrev LogEntry := CoreTexStateAdvancedEvent × Position

def LogEntry.block (e : LogEntry) : Int :=
  e.1.blockNumber

/-- A chain: its advances with the states they lead to, its block hashes and its head. -/
structure History where
  log : List LogEntry
  hashAt : Int → Option String
  head : Int

namespace History

/-- The advances up to a block. -/
def upTo (H : History) (block : Int) : List LogEntry :=
  CoreTex.Lib.upTo LogEntry.block block H.log

/-- The events an honest provider has between two blocks, in chain order. -/
def between (H : History) (a b : Int) : List CoreTexStateAdvancedEvent :=
  (H.log.map Prod.fst).filter fun ev => a ≤ ev.blockNumber ∧ ev.blockNumber ≤ b

/-- Is a snapshot's block on the chain? -/
def HasBlock (H : History) (snap : Snapshot) : Prop :=
  ∃ h, H.hashAt snap.blockNumber = some h ∧ h.toLower = snap.blockHash.toLower

/-- An advance that a reorg put into a scanned block, where no snapshot gives the reorg away. -/
def LateFor (H : History) (w : Watcher) : Prop :=
  ∃ e ∈ H.log, e.block ≤ w.lastScannedBlock ∧
    ∀ snap, w.snapshots.getLast? = some snap → H.HasBlock snap ∧ snap.blockNumber < e.block

end History

section Family

variable (keccak256 : Bytes → Digest) (config : CoreTexCoordinatorConfig)

/-- A chain whose advances are verified from the parent state, in block order and behind the
first block that is replayed. -/
structure History.Canonical (parent : CortexState) (H : History) : Prop where
  replays : ∃ p, Logged (Position.advance keccak256 config) ⟨parent, -1⟩ H.log p
  ordered : (H.log.map Prod.fst).Pairwise fun a b => cmpEvents a b < 0
  first : ∀ e ∈ H.log, max 1 (config.replayFromBlock.getD 0) ≤ e.block
  hashed : ∀ e ∈ H.log, ∃ h, H.hashAt e.block = some h ∧ h.toLower = e.1.blockHash.toLower
  hash : ∀ b h, H.hashAt b = some h → h ≠ ""
  missing : ∀ b, H.hashAt b = none → H.head < b

/-- Chains on one parent; a block's hash decides the chain up to it. -/
structure ChainFamily (parent : CortexState) (chains : History → Prop) : Prop where
  canonical : ∀ H, chains H → H.Canonical keccak256 config parent
  shared : ∀ H H', chains H → chains H' → ∀ b h h', H.hashAt b = some h → H'.hashAt b = some h' →
    h.toLower = h'.toLower → H.upTo b = H'.upTo b

/-- The watcher has applied exactly the advances of a chain up to its scan cursor. -/
structure Tracks (parent : CortexState) (H : History) (w : Watcher) : Prop where
  derived : w.Derived keccak256 config (H.upTo w.lastScannedBlock)
  parentState : w.parentState = parent
  replayFrom : w.replayFromBlock = max 0 (config.replayFromBlock.getD 0)

variable {keccak256 config} {parent : CortexState} {H : History}

theorem History.Canonical.blocks (h : H.Canonical keccak256 config parent) :
    H.log.Pairwise fun a b => a.block ≤ b.block := by
  refine (List.pairwise_map.mp h.ordered).imp fun {a b} hab => ?_
  show a.1.blockNumber ≤ b.1.blockNumber
  unfold cmpEvents at hab
  split at hab <;> omega

theorem cmpEvents_consistent : Consistent cmpEvents where
  swap a b := by
    unfold cmpEvents
    split <;> split <;> omega
  trans a b c hab hbc := by
    unfold cmpEvents at *
    split at hab <;> split at hbc <;> split <;> omega

/-- Events in chain order are what any rearrangement of them is sorted to. -/
theorem sort_ordered (S : CompareSort) {events ordered : List CoreTexStateAdvancedEvent}
    (hordered : ordered.Pairwise fun x y => cmpEvents x y < 0) (hperm : events.Perm ordered) :
    S.sort cmpEvents events = ordered := by
  -- two events that tie are one
  have htie : ∀ x ∈ ordered, ∀ y ∈ ordered, cmpEvents x y ≤ 0 → cmpEvents y x ≤ 0 → x = y := by
    have hpairs : ordered.Pairwise fun x y => cmpEvents x y ≤ 0 → cmpEvents y x ≤ 0 → x = y := by
      refine hordered.imp fun {x y} hlt hle hle' => ?_
      unfold cmpEvents at hlt hle'
      split at hlt <;> split at hle' <;> omega
    have hflip : ordered.Pairwise fun x y => cmpEvents y x ≤ 0 → cmpEvents x y ≤ 0 → y = x :=
      hpairs.imp fun h hyx hxy => (h hxy hyx).symm
    exact hpairs.forall_of_forall_of_flip (fun _ _ _ _ => rfl) hflip
  rw [S.sort_eq_of_perm cmpEvents_consistent hperm fun x hx y hy =>
    htie x (hperm.mem_iff.mp hx) y (hperm.mem_iff.mp hy)]
  exact S.sort_eq_self cmpEvents_consistent (hordered.imp fun hlt => Int.le_of_lt hlt) htie

/-- A batch in any order is sorted into chain order. -/
theorem sort_between (S : CompareSort) (h : H.Canonical keccak256 config parent) {a b : Int}
    {events : List CoreTexStateAdvancedEvent} (hperm : events.Perm (H.between a b)) :
    S.sort cmpEvents events = H.between a b :=
  sort_ordered S (h.ordered.filter _) hperm

/-! ### Applying the missing part of a chain -/

/-- From a front part of a log, the rest of it is applied without a fault. -/
theorem applyChainEvents_replays {c : Core} {front rest : List LogEntry} {p : Position}
    (hderived : c.watcher.Derived keccak256 config front)
    (hreplays : Logged (Position.advance keccak256 config) ⟨c.watcher.parentState, -1⟩
      (front ++ rest) p) :
    ∃ c', applyChainEvents keccak256 config c (rest.map Prod.fst) = (c', none) ∧
      c'.watcher.Derived keccak256 config (front ++ rest) ∧
      c.watcher.SameParent c'.watcher := by
  induction rest generalizing c front with
  | nil => exact ⟨c, rfl, by simpa using hderived, .refl _⟩
  | cons e rest ih =>
      have hwhole : front ++ e :: rest = (front ++ [e]) ++ rest := by simp
      rw [hwhole] at hreplays ⊢
      obtain ⟨s, hfront, hstep, -⟩ := replays_append_singleton.mp hreplays.of_append
      obtain rfl := hfront.unique hderived.replays
      obtain ⟨hverified, hindex⟩ := advance_eq_some.mp hstep
      have hverify : verifyEvent keccak256 config c.watcher.liveState c.watcher.liveRoot
          c.watcher.lastTransitionIndex e.1 = .ok e.2.state := by
        rw [hderived.liveRoot]
        exact verifyEvent_eq_ok.mpr hverified
      have hcommit := hderived.commit hverify
      have hentry : (e.1, (⟨e.2.state, e.1.transitionIndex⟩ : Position)) = e := by
        rw [← hindex]
      rw [hentry] at hcommit
      let c₁ : Core := { c with
        watcher := c.watcher.commit keccak256 e.1 e.2.state
        book := c.book.settleAdvance e.1 (rootHex keccak256 e.2.state).toLower }
      obtain ⟨c', hrun, hderived', hsame⟩ := @ih c₁ _ hcommit hreplays
      refine ⟨c', ?_, hderived', hsame⟩
      rw [List.map_cons, applyChainEvents, applyChainEvent_eq_ok.mpr ⟨e.2.state, hverify, rfl⟩]
      exact hrun

theorem History.between_eq (a b : Int) :
    H.between (a + 1) b = (H.log.filter fun e => a < LogEntry.block e ∧ LogEntry.block e ≤ b).map
      Prod.fst := by
  rw [between, List.filter_map]
  rfl

/-- The scan of a chain up to a block. -/
theorem Tracks.scanned {w : Watcher} {c : Core} (S : CompareSort)
    (hcanon : H.Canonical keccak256 config parent) (h : Tracks keccak256 config parent H w)
    (hw : c.watcher = w) {safeHead : Int} (hahead : w.lastScannedBlock ≤ safeHead)
    {events : List CoreTexStateAdvancedEvent}
    (hperm : events.Perm (H.between (w.lastScannedBlock + 1) safeHead)) :
    ∃ c', applyChainEvents keccak256 config c (S.sort cmpEvents events) = (c', none) ∧
      Tracks keccak256 config parent H { c'.watcher with lastScannedBlock := safeHead } := by
  subst hw
  obtain ⟨p, hreplays⟩ := hcanon.replays
  have hsplit := upTo_eq_append hcanon.blocks hahead
  have hfront : H.log = H.upTo safeHead ++ H.log.filter fun e => safeHead < LogEntry.block e :=
    upTo_append_after hcanon.blocks
  rw [hfront] at hreplays
  have hupto := hreplays.of_append
  rw [show H.upTo safeHead = _ from hsplit, ← h.parentState] at hupto
  obtain ⟨c', hrun, hderived, hsame⟩ := applyChainEvents_replays h.derived hupto
  refine ⟨c', ?_, ⟨?_, hsame.1.trans h.parentState, hsame.2.2.trans h.replayFrom⟩⟩
  · rw [sort_between S hcanon hperm, History.between_eq]
    exact hrun
  · show Watcher.Derived _ _ _ (H.upTo safeHead)
    rw [show H.upTo safeHead = _ from hsplit]
    exact hderived.cursor safeHead

/-! ### Rolling back onto a chain -/

/-- Which snapshot the handler keeps: a canonical one with no canonical one behind it. -/
theorem findCanonical_eq_some {hashAt : Nat → Option (Option String)} {snapshots : List Snapshot}
    {n : Nat} {keep : Option Nat} (h : findCanonical hashAt snapshots n = some keep) :
    (∀ i, keep = some i → i < n ∧ ∃ x, hashAt i = some x ∧
      sameHash x ((snapshots[i]?.map (·.blockHash)).getD "") = true) ∧
    ∀ j < n, (∀ i, keep = some i → i < j) → ∃ x, hashAt j = some x ∧
      sameHash x ((snapshots[j]?.map (·.blockHash)).getD "") = false := by
  induction n with
  | zero =>
      obtain rfl : none = keep := Option.some.inj h
      exact ⟨fun i hi => (nomatch hi), fun j hj => absurd hj (Nat.not_lt_zero j)⟩
  | succ n ih =>
      rw [findCanonical] at h
      cases hread : hashAt n with
      | none =>
          rw [hread] at h
          cases h
      | some x =>
          rw [hread] at h
          by_cases hsame : sameHash x ((snapshots[n]?.map (·.blockHash)).getD "") = true
          · obtain rfl : some n = keep := by simpa [hsame] using h
            refine ⟨?_, ?_⟩
            · intro i hi
              obtain rfl := Option.some.inj hi
              exact ⟨Nat.lt_succ_self n, x, hread, hsame⟩
            · intro j hj hbehind
              have := hbehind n rfl
              omega
          · have hrest : findCanonical hashAt snapshots n = some keep := by simpa [hsame] using h
            obtain ⟨hkept, hothers⟩ := ih hrest
            refine ⟨fun i hi => ?_, fun j hj hbehind => ?_⟩
            · obtain ⟨hlt, hx⟩ := hkept i hi
              exact ⟨by omega, hx⟩
            · by_cases heq : j = n
              · subst heq
                exact ⟨x, hread, by simpa using hsame⟩
              · exact hothers j (by omega) hbehind

theorem sameHash_hashAt (hcanon : H.Canonical keccak256 config parent) {snap : Snapshot} :
    sameHash (H.hashAt snap.blockNumber) snap.blockHash = true ↔ H.HasBlock snap := by
  unfold History.HasBlock
  cases hread : H.hashAt snap.blockNumber with
  | none => simp [sameHash]
  | some h =>
      have hne := hcanon.hash _ _ hread
      simp [sameHash, hne]

/-- The entry of a snapshot on its own chain. -/
theorem hasBlock_of_mem (hcanon : H.Canonical keccak256 config parent) {e : LogEntry}
    (he : e ∈ H.log) : H.HasBlock (checkpointOf keccak256 e) :=
  hcanon.hashed e he

/-- Two chains with a snapshot's block agree up to it. -/
theorem ChainFamily.upTo_eq {chains : History → Prop}
    (hfamily : ChainFamily keccak256 config parent chains) {H' : History} (hH : chains H)
    (hH' : chains H') {snap : Snapshot} (h : H.HasBlock snap) (h' : H'.HasBlock snap) :
    H.upTo snap.blockNumber = H'.upTo snap.blockNumber := by
  obtain ⟨x, hx, hlower⟩ := h
  obtain ⟨x', hx', hlower'⟩ := h'
  exact hfamily.shared H H' hH hH' _ x x' hx hx' (hlower.trans hlower'.symm)

theorem mem_log_of_upTo {b : Int} {e : LogEntry} (h : e ∈ H.upTo b) : e ∈ H.log :=
  (mem_upTo.mp h).1

/-- The reorg handler leads from one chain of a family onto another. -/
theorem ChainFamily.rolledBack {chains : History → Prop}
    (hfamily : ChainFamily keccak256 config parent chains) {H' : History} (hH : chains H)
    (hH' : chains H') {c c' : Core} (h : Tracks keccak256 config parent H c.watcher)
    {hashAt : Nat → Option (Option String)}
    (hanswers : ∀ i x snap, hashAt i = some x → c.watcher.snapshots[i]? = some snap →
      x = H'.hashAt snap.blockNumber)
    (hreorg : handleReorg c hashAt = some c') : Tracks keccak256 config parent H' c'.watcher := by
  obtain ⟨keep, hfind, rfl⟩ := handleReorg_eq_some.mp hreorg
  obtain ⟨hkept, hothers⟩ := findCanonical_eq_some hfind
  have hsame := rollback_sameParent c keep
  have hcanon' := hfamily.canonical H' hH'
  refine ⟨?_, hsame.1.trans h.parentState, hsame.2.2.trans h.replayFrom⟩
  show Watcher.Derived _ _ (c.watcher.rollback keep).pruneStates _
  cases keep with
  | none =>
      have hnil : H'.upTo (c.watcher.rollback none).pruneStates.lastScannedBlock = [] := by
        refine upTo_eq_nil fun e he => ?_
        have hfirst := hcanon'.first e he
        show max 0 (c.watcher.replayFromBlock - 1) < _
        rw [h.replayFrom]
        omega
      show Watcher.Derived _ _ _ (H'.upTo (c.watcher.rollback none).pruneStates.lastScannedBlock)
      rw [hnil]
      exact h.derived.rollback_none.pruneStates
  | some i =>
      obtain ⟨hi, x, hread, hx⟩ := hkept i rfl
      obtain ⟨snap, hsnap⟩ : ∃ snap, c.watcher.snapshots[i]? = some snap :=
        ⟨_, List.getElem?_eq_getElem hi⟩
      obtain ⟨front, entry, back, hlog, rfl, hdrop, hderived⟩ := h.derived.rollback_some hsnap
      rw [hanswers i x _ hread hsnap, hsnap] at hx
      have hon' : H'.HasBlock (checkpointOf keccak256 entry) := (sameHash_hashAt hcanon').mp hx
      have hmem : ∀ e ∈ front ++ [entry] ++ back, e ∈ H.upTo c.watcher.lastScannedBlock := by
        rw [hlog]
        exact fun _ he => he
      have hblocks := (hfamily.canonical H hH).blocks.sublist
        (List.filter_sublist (p := fun e => decide (LogEntry.block e ≤ c.watcher.lastScannedBlock)))
      rw [show H.log.filter _ = H.upTo c.watcher.lastScannedBlock from rfl, hlog,
        List.pairwise_append] at hblocks
      obtain ⟨hfrontBlocks, -, hcross⟩ := hblocks
      -- what was applied behind the kept snapshot stands in later blocks
      have hback : ∀ e ∈ back, LogEntry.block entry < LogEntry.block e := by
        intro e he
        have hle := hcross entry (by simp) e he
        refine lt_of_le_of_ne hle fun heq => ?_
        obtain ⟨k, hk, rfl⟩ := List.mem_iff_getElem.mp he
        have hdropk : c.watcher.snapshots[i + 1 + k]? = some (checkpointOf keccak256 back[k]) := by
          rw [← List.getElem?_drop, hdrop, List.getElem?_map, List.getElem?_eq_getElem hk]
          rfl
        have hlt : i + 1 + k < c.watcher.snapshots.length :=
          (List.getElem?_eq_some_iff.mp hdropk).1
        obtain ⟨y, hy, hnot⟩ := hothers (i + 1 + k) hlt fun i' hi' => by
          obtain rfl := Option.some.inj hi'
          omega
        rw [hanswers _ y _ hy hdropk, hdropk] at hnot
        refine absurd ((sameHash_hashAt hcanon').mpr ?_) (by simpa using hnot)
        -- same block, same chain: the hash is the kept snapshot's
        obtain ⟨z, hz, hzlower⟩ := hon'
        obtain ⟨u, hu, hulower⟩ := hasBlock_of_mem (hfamily.canonical H hH)
          (mem_log_of_upTo (hmem entry (by simp)))
        obtain ⟨v, hv, hvlower⟩ := hasBlock_of_mem (hfamily.canonical H hH)
          (mem_log_of_upTo (hmem back[k] (by simp [he])))
        have hblock : (checkpointOf keccak256 back[k]).blockNumber =
            (checkpointOf keccak256 entry).blockNumber := heq.symm
        rw [hblock, hu, Option.some.injEq] at hv
        refine ⟨z, by rw [hblock, hz], ?_⟩
        rw [hzlower, ← hulower, hv, hvlower]
      have hcut : H.upTo (LogEntry.block entry) = front ++ [entry] := by
        refine upTo_of_append hlog ?_ hback ?_
        · intro e he
          rcases List.mem_append.mp he with he | he
          · rw [List.pairwise_append] at hfrontBlocks
            exact hfrontBlocks.2.2 e he entry (by simp)
          · rw [List.mem_singleton.mp he]
        · exact (mem_upTo.mp (hmem entry (by simp))).2
      have hcursor : (c.watcher.rollback (some i)).pruneStates.lastScannedBlock = LogEntry.block entry := by
        show (c.watcher.rollback (some i)).lastScannedBlock = _
        rw [Watcher.rollback, Option.bind_some, hsnap]
        rfl
      show Watcher.Derived _ _ _
        (H'.upTo (c.watcher.rollback (some i)).pruneStates.lastScannedBlock)
      rw [hcursor]
      have hagree : H.upTo (LogEntry.block entry) = H'.upTo (LogEntry.block entry) :=
        hfamily.upTo_eq hH hH'
          (hasBlock_of_mem (hfamily.canonical H hH) (mem_log_of_upTo (hmem entry (by simp)))) hon'
      rw [← hagree, hcut]
      exact hderived.pruneStates

end Family

end CoreTex.Coordinator
