import CoreTex.Dispatch.Determinism
import CoreTex.Snapshot.Reconstruct

/-!
# CoreTex.Snapshot.Chain

A reconstruction follows the chain (`_reconstruct_frontier` in `snapshot.py`).

One step of the loop over the advances is `advanceStep_follows`, a run of it `advances_follow`. The
scan for a screener's parent stops at the first credit that is not before the screener's, so it
finds the last one before it only where the credits ascend. They do: a joined transition has its
transaction for itself, and transactions are not interleaved (`FollowsChain.ascending`).
-/

namespace CoreTex.Snapshot

open CoreTex.Lib CoreTex.Join CoreTex.Scan CoreTex.Publication

/-! ### What is followed -/

/-- The last manifest of a timeline, `parent` where it has none. -/
def lastManifest (timeline : List TimelineEntry) (parent : Json) : Json :=
  (timeline.getLast?.map TimelineEntry.manifest).getD parent

/-- The new root of the last advance, `root` where there is none. -/
def lastRoot (advances : List StateAdvanced) (root : PyStr) : PyStr :=
  (advances.getLast?.map StateAdvanced.newStateRoot).getD root

/-- An advance was replayed on `parent`, which has its parent root, with a context of its context
root; the manifest held after it has its new root. -/
structure FollowsAdvance (host : Host) (rows : JoinResult) (parent : Json)
    (advance : StateAdvanced) (entry : TimelineEntry) : Prop where
  accepted : host.replayDescriptorV3 entry.replayed = true
  joined_mem : entry.replayed.joined ∈ rows.transitions
  joined_advance : entry.replayed.joined.advance = advance
  parentManifest : entry.replayed.parentManifest = parent
  parentRoot : HasFrontierRoot parent advance.parentStateRoot
  context : HasContextRoot entry.replayed.epochContext advance.epochContextRoot
  newRoot : HasFrontierRoot entry.manifest advance.newStateRoot
  place : entry.position = position entry.replayed.joined.credit.provenance

/-- Every advance was replayed on the manifest held after the one before it, the first on
`parent`. -/
def FollowsChain (host : Host) (rows : JoinResult) :
    Json → List StateAdvanced → List TimelineEntry → Prop
  | _, [], [] => True
  | parent, advance :: advances, entry :: timeline =>
    FollowsAdvance host rows parent advance entry ∧
      FollowsChain host rows entry.manifest advances timeline
  | _, _, _ => False

/-- A screener pass was replayed on the manifest of the last advance whose credit is before its
own, with a context of its epoch's context event. -/
structure PlacedScreener (host : Host) (scan : PublicScan) (genesis : Json)
    (timeline : List TimelineEntry) (screener : ScreenerPass) (call : ScreenerCall) : Prop where
  accepted : host.replayScreener call = true
  replayed : call.screener = screener
  parentManifest : call.parentManifest = lastManifest (timeline.filter fun entry =>
    Earlier entry.position (position screener.credit.provenance)) genesis
  context : ∃ event, scan.contextFor screener.credit.epoch = some event ∧
    HasContextRoot call.epochContext event.epochContextRoot

/-- Where the logs of a feed were emitted. -/
def provenances (decoded : Join.DecodedLogs) : List LogProvenance :=
  decoded.advances.map StateAdvanced.provenance ++
    decoded.coretexCredits.map CoreTexCreditAccepted.provenance

/-- A feed in chain order: the advances ascend, the logs of two transactions are not interleaved
(a chain emits those of one transaction together), and a word is spelled as its decoder spells
it. -/
structure ChainOrdered (decoded : Join.DecodedLogs) : Prop where
  advances : decoded.advances.Pairwise fun a b =>
    Earlier (position a.provenance) (position b.provenance)
  together : ∀ p ∈ provenances decoded, ∀ q ∈ provenances decoded, ∀ p' ∈ provenances decoded,
    ∀ q' ∈ provenances decoded, p'.tx = p.tx → q'.tx = q.tx → p.tx ≠ q.tx →
      Earlier (position p) (position q) → Earlier (position p') (position q')
  words : ∀ advance ∈ decoded.advances, isRoot advance.newStateRoot = true

theorem lastManifest_cons (entry : TimelineEntry) (timeline : List TimelineEntry) (parent : Json) :
    lastManifest (entry :: timeline) parent = lastManifest timeline entry.manifest := by
  cases timeline with
  | nil => rfl
  | cons next timeline => simp [lastManifest, List.getLast?_cons]

theorem lastRoot_cons (advance : StateAdvanced) (advances : List StateAdvanced) (root : PyStr) :
    lastRoot (advance :: advances) root = lastRoot advances advance.newStateRoot := by
  cases advances with
  | nil => rfl
  | cons next advances => simp [lastRoot, List.getLast?_cons]

/-- The manifest held at the end has the last new root. -/
theorem FollowsChain.lastRoot {host : Host} {rows : JoinResult} {parent : Json} {root : PyStr}
    {advances : List StateAdvanced} {timeline : List TimelineEntry}
    (h : FollowsChain host rows parent advances timeline) (hparent : HasFrontierRoot parent root) :
    HasFrontierRoot (lastManifest timeline parent) (lastRoot advances root) := by
  induction advances generalizing parent root timeline with
  | nil =>
      cases timeline with
      | nil => exact hparent
      | cons entry timeline => exact h.elim
  | cons advance advances ih =>
      cases timeline with
      | nil => exact h.elim
      | cons entry timeline =>
          rw [lastManifest_cons, lastRoot_cons]
          exact ih h.2 h.1.newRoot

theorem FollowsChain.exists_advance {host : Host} {rows : JoinResult} {parent : Json}
    {advances : List StateAdvanced} {timeline : List TimelineEntry}
    (h : FollowsChain host rows parent advances timeline) {entry : TimelineEntry}
    (hentry : entry ∈ timeline) :
    ∃ advance ∈ advances, ∃ held, FollowsAdvance host rows held advance entry := by
  induction advances generalizing parent timeline with
  | nil =>
      cases timeline with
      | nil => cases hentry
      | cons first timeline => exact h.elim
  | cons advance advances ih =>
      cases timeline with
      | nil => exact h.elim
      | cons first timeline =>
          rcases List.mem_cons.mp hentry with rfl | hentry
          · exact ⟨advance, List.mem_cons_self, parent, h.1⟩
          · obtain ⟨later, hlater, hfollows⟩ := ih h.2 hentry
            exact ⟨later, List.mem_cons_of_mem _ hlater, hfollows⟩

/-! ### The new root of an advance -/

/-- A well-formed root is spelled bare and in lower case. -/
theorem bareLower_of_isRoot {s : PyStr} (h : isRoot s = true) : bareLower s = s := by
  have hdigits : ∀ c ∈ s, isHexDigit c = true := fun c hc => Root.isHexDigit_of_mem ⟨s, h⟩ hc
  have hlower : (s.map fun c => if 65 ≤ c ∧ c ≤ 90 then c + 32 else c) = s := by
    refine (List.map_congr_left fun c hc => ?_).trans (List.map_id s)
    have hdigit := of_decide_eq_true (hdigits c hc)
    rw [if_neg (by omega), id]
  have hprefix : (py "0x").isPrefixOf s = false := by
    rw [Bool.eq_false_iff]
    intro hmark
    have hx : 120 ∈ s := (List.isPrefixOf_iff_prefix.mp hmark).subset (by decide)
    have hdigit := of_decide_eq_true (hdigits 120 hx)
    omega
  rw [bareLower]
  simp only [hlower, hprefix]
  rfl

theorem decodeTransitionDescriptor_newRoot {keccak256 : Bytes → Bytes} {raw : Bytes}
    {parentStateRoot expectedPatchHash : Option PyStr} {newStateRoot : PyStr}
    {transitionFormatVersion : Option Int} {descriptor : TransitionDescriptor}
    (h : decodeTransitionDescriptor keccak256 raw parentStateRoot (some newStateRoot)
      expectedPatchHash transitionFormatVersion = .ok descriptor) :
    descriptor.newStateRoot = bareLower newStateRoot := by
  rw [decodeTransitionDescriptor] at h
  obtain ⟨-, h⟩ := refuseIf_bind_eq_ok.mp h
  obtain ⟨-, h⟩ := refuseIf_bind_eq_ok.mp h
  obtain ⟨-, h⟩ := refuseIf_bind_eq_ok.mp h
  obtain ⟨-, h⟩ := refuseIf_bind_eq_ok.mp h
  obtain ⟨-, h⟩ := refuseIf_bind_eq_ok.mp h
  obtain ⟨-, h⟩ := refuseIf_bind_eq_ok.mp h
  obtain ⟨-, h⟩ := refuseIf_bind_eq_ok.mp h
  obtain ⟨hnew, h⟩ := refuseIf_bind_eq_ok.mp h
  obtain ⟨-, h⟩ := refuseIf_bind_eq_ok.mp h
  cases h
  simp only [not_exists, not_and, Decidable.not_not] at hnew
  exact hnew (bareLower newStateRoot) rfl

variable {keccak256 : Bytes → Digest} {host : Host} {release : Release} {scan : PublicScan}

theorem transitionArtifact_newRoot {joined : JoinedTransition} {advance : StateAdvanced}
    {address : PyStr} {raw : Bytes} {artifact : Json}
    (h : transitionArtifact keccak256 host joined advance = .ok (address, raw, artifact)) :
    ∃ document, validateTransitionArtifact artifact = .ok document ∧
      document.newStateRoot.hex = bareLower advance.newStateRoot := by
  obtain ⟨descriptor, hdescriptor, h⟩ := bind_eq_ok.mp h
  obtain ⟨served, -, h⟩ := bind_eq_ok.mp h
  obtain ⟨scoreAfter, -, h⟩ := bind_eq_ok.mp h
  obtain ⟨scoreBefore, -, h⟩ := bind_eq_ok.mp h
  obtain ⟨found, hfound, h⟩ := bind_eq_ok.mp h
  cases h
  obtain ⟨-, -, document, hvalid, -, hnew⟩ :=
    verifyTransitionArtifactBytes_inv (mapError_eq_ok.mp hfound)
  exact ⟨document, hvalid,
    hnew.trans (decodeTransitionDescriptor_newRoot (mapError_eq_ok.mp hdescriptor))⟩

/-! ### Contexts -/

theorem contextEvent_eq_ok {epoch : Nat} {root : PyStr} {event : EpochContextSet}
    (h : scan.contextEvent epoch root = .ok event) :
    scan.contextFor epoch = some event ∧ event.epochContextRoot = root := by
  unfold PublicScan.contextEvent at h
  split at h
  · cases h
  next found hfound =>
    split at h
    · cases h
    next hroot =>
      cases h
      exact ⟨hfound, not_not.mp hroot⟩

/-- Every cached context has the root of its epoch's context event. -/
def CacheSound (scan : PublicScan) (epochContexts : JsMap Nat CachedContext) : Prop :=
  ∀ epoch cached, epochContexts.get epoch = some cached →
    ∃ event, scan.contextFor epoch = some event ∧
      HasContextRoot cached.context event.epochContextRoot

theorem resolveContext_sound {epoch : Nat} {root : PyStr} {event : EpochContextSet}
    {epochContexts epochContexts' : JsMap Nat CachedContext} {cached : CachedContext}
    (hcache : CacheSound scan epochContexts) (hevent : scan.contextEvent epoch root = .ok event)
    (h : resolveContext host release epoch root event epochContexts =
      .ok (cached, epochContexts')) :
    HasContextRoot cached.context root ∧ CacheSound scan epochContexts' := by
  obtain ⟨hfor, hroot⟩ := contextEvent_eq_ok hevent
  unfold resolveContext at h
  split at h
  next found hfound =>
    split at h
    · cases h
    · cases h
      obtain ⟨other, hother, hcontext⟩ := hcache epoch cached hfound
      cases hfor.symm.trans hother
      exact ⟨hroot ▸ hcontext, hcache⟩
  next =>
    obtain ⟨raw, -, h⟩ := bind_eq_ok.mp h
    obtain ⟨context, -, h⟩ := bind_eq_ok.mp h
    obtain ⟨pins, hpins, h⟩ := bind_eq_ok.mp h
    cases h
    have hcontext := verifyEpochContext_root hpins
    refine ⟨hcontext, fun epoch' cached' hget => ?_⟩
    -- The entry just cached, or one that was there.
    rw [JsMap.get_set] at hget
    by_cases hepoch : epoch = epoch'
    · rw [if_pos hepoch] at hget
      cases hget
      exact ⟨event, hepoch ▸ hfor, hroot.symm ▸ hcontext⟩
    · rw [if_neg hepoch] at hget
      exact hcache epoch' cached' hget

/-! ### The advances -/

/-- One turn of the loop follows its advance. -/
theorem advanceStep_follows {rows : JoinResult} {run run' : FrontierRun} {advance : StateAdvanced}
    (hrows : ∀ joined ∈ rows.transitions, joined.advance.joinKey = advance.joinKey →
      joined.advance = advance)
    (hword : isRoot advance.newStateRoot = true) (hcache : CacheSound scan run.epochContexts)
    (h : advanceStep keccak256 host release scan rows run advance = .ok run') :
    ∃ entry, run'.frontierTimeline = run.frontierTimeline ++ [entry] ∧
      run'.current = entry.manifest ∧ FollowsAdvance host rows run.current advance entry ∧
      CacheSound scan run'.epochContexts := by
  obtain ⟨joined, hjoined, h⟩ := bind_eq_ok.mp h
  obtain ⟨⟨address, raw, artifact⟩, hartifact, h⟩ := bind_eq_ok.mp h
  obtain ⟨store, -, h⟩ := bind_eq_ok.mp h
  obtain ⟨evidence, -, h⟩ := bind_eq_ok.mp h
  obtain ⟨event, hevent, h⟩ := bind_eq_ok.mp h
  obtain ⟨⟨context, epochContexts⟩, hcontext, h⟩ := bind_eq_ok.mp h
  obtain ⟨root, hroot, h⟩ := bind_eq_ok.mp h
  obtain ⟨hparent, h⟩ := refuseIf_bind_eq_ok.mp h
  obtain ⟨evaluationReport, -, h⟩ := bind_eq_ok.mp h
  obtain ⟨counterResourceLaw, -, h⟩ := bind_eq_ok.mp h
  obtain ⟨haccepted, h⟩ := refuseIf_bind_eq_ok.mp h
  obtain ⟨child, hchild, h⟩ := bind_eq_ok.mp h
  cases h
  -- `hjoined` names the row, `hcontext` the context, `hchild` the manifest after the advance.
  have hfound := List.find?_some (expect_eq_ok.mp hjoined)
  have hmem := List.mem_of_find?_eq_some (expect_eq_ok.mp hjoined)
  obtain ⟨hsound, hcacheNext⟩ := resolveContext_sound hcache hevent hcontext
  obtain ⟨document, hvalid, hnew⟩ := transitionArtifact_newRoot hartifact
  obtain ⟨replayed, parent, parentRoot, pinned, hreplayed, -, -, -, hreplays⟩ :=
    replayTransitionArtifact_eq_ok.mp (mapError_eq_ok.mp hchild)
  cases hvalid.symm.trans hreplayed
  refine ⟨_, rfl, rfl, ?_, hcacheNext⟩
  exact {
    accepted := Bool.not_eq_false _ ▸ haccepted
    joined_mem := hmem
    joined_advance := hrows joined hmem (of_decide_eq_true hfound)
    parentManifest := rfl
    parentRoot := ⟨root, mapError_eq_ok.mp hroot, not_not.mp hparent⟩
    context := hsound
    newRoot := ⟨_, frontierRoot_json child,
      (congrArg Root.hex hreplays.newRoot).trans (hnew.trans (bareLower_of_isRoot hword))⟩
    place := rfl }

/-- The loop follows its advances, one after the other. -/
theorem advances_follow {rows : JoinResult} {advances : List StateAdvanced} {run run' : FrontierRun}
    (hrows : ∀ joined ∈ rows.transitions, ∀ advance ∈ advances,
      joined.advance.joinKey = advance.joinKey → joined.advance = advance)
    (hwords : ∀ advance ∈ advances, isRoot advance.newStateRoot = true)
    (hcache : CacheSound scan run.epochContexts)
    (h : advances.foldlM (advanceStep keccak256 host release scan rows) run = .ok run') :
    ∃ timeline, run'.frontierTimeline = run.frontierTimeline ++ timeline ∧
      run'.current = lastManifest timeline run.current ∧
      FollowsChain host rows run.current advances timeline ∧
      CacheSound scan run'.epochContexts := by
  induction advances generalizing run with
  | nil =>
      cases h
      exact ⟨[], (List.append_nil _).symm, rfl, trivial, hcache⟩
  | cons advance advances ih =>
      rw [List.foldlM_cons] at h
      obtain ⟨next, hnext, h⟩ := bind_eq_ok.mp h
      obtain ⟨entry, htimeline, hcurrent, hfollows, hcacheNext⟩ := advanceStep_follows
        (fun joined hjoined => hrows joined hjoined advance List.mem_cons_self)
        (hwords advance List.mem_cons_self) hcache hnext
      obtain ⟨timeline, hrest, hlast, hchain, hsound⟩ := ih
        (fun joined hjoined a ha => hrows joined hjoined a (List.mem_cons_of_mem _ ha))
        (fun a ha => hwords a (List.mem_cons_of_mem _ ha)) hcacheNext h
      rw [hcurrent] at hlast hchain
      refine ⟨entry :: timeline, ?_, ?_, ⟨hfollows, hchain⟩, hsound⟩
      · rw [hrest, htimeline, List.append_assoc, List.singleton_append]
      · rw [hlast, lastManifest_cons]

/-! ### Places -/

/-- A joined transition has its transaction for itself. -/
theorem credits_in_order {ctx : JoinContext} {decoded : Join.DecodedLogs} {rows : JoinResult}
    (horder : ChainOrdered decoded) (hrows : joinAll keccak256 ctx decoded = .ok rows)
    {a b : JoinedTransition} (ha : a ∈ rows.transitions) (hb : b ∈ rows.transitions)
    (hearlier : Earlier (position a.advance.provenance) (position b.advance.provenance)) :
    Earlier (position a.credit.provenance) (position b.credit.provenance) := by
  have hplace : ∀ joined ∈ rows.transitions, ∃ tx, decoded.advancesOf tx = [joined.advance] ∧
      joined.advance.provenance ∈ provenances decoded ∧ joined.advance.provenance.tx = tx ∧
      joined.credit.provenance ∈ provenances decoded ∧ joined.credit.provenance.tx = tx := by
    intro joined hjoined
    obtain ⟨tx, hadvances, hcredits, -⟩ := joinAll_transition hrows hjoined
    have hadvance : joined.advance ∈ decoded.advancesOf tx :=
      hadvances ▸ List.mem_singleton_self _
    have hcredit : joined.credit ∈ decoded.creditsOf tx := hcredits ▸ List.mem_singleton_self _
    obtain ⟨hadvance, hadvanceTx⟩ := List.mem_filter.mp hadvance
    exact ⟨tx, hadvances, List.mem_append_left _ (List.mem_map_of_mem hadvance),
      of_decide_eq_true hadvanceTx,
      List.mem_append_right _ (List.mem_map_of_mem (List.mem_filter.mp hcredit).1),
      mem_creditsOf hcredit⟩
  obtain ⟨tx, honly, hadvance, htx, hcredit, hcreditTx⟩ := hplace a ha
  obtain ⟨tx', honly', hadvance', htx', hcredit', hcreditTx'⟩ := hplace b hb
  have hother : a.advance.provenance.tx ≠ b.advance.provenance.tx := by
    intro hsame
    rw [← htx, hsame, htx', honly'] at honly
    -- One transaction has one advance, which is not earlier than itself.
    have hadvances : b.advance = a.advance := (List.cons.inj honly).1
    rw [hadvances] at hearlier
    unfold Earlier at hearlier
    omega
  exact horder.together _ hadvance _ hadvance' _ hcredit _ hcredit' (hcreditTx.trans htx.symm)
    (hcreditTx'.trans htx'.symm) hother hearlier

/-- The places of a timeline ascend. -/
theorem FollowsChain.ascending {ctx : JoinContext} {decoded : Join.DecodedLogs} {rows : JoinResult}
    (horder : ChainOrdered decoded) (hrows : joinAll keccak256 ctx decoded = .ok rows)
    {parent : Json} {advances : List StateAdvanced} {timeline : List TimelineEntry}
    (hadvances : advances.Pairwise fun a b =>
      Earlier (position a.provenance) (position b.provenance))
    (h : FollowsChain host rows parent advances timeline) :
    timeline.Pairwise fun a b => Earlier a.position b.position := by
  induction advances generalizing parent timeline with
  | nil =>
      cases timeline with
      | nil => exact .nil
      | cons entry timeline => exact h.elim
  | cons advance advances ih =>
      cases timeline with
      | nil => exact h.elim
      | cons entry timeline =>
          obtain ⟨hfirst, hrest⟩ := List.pairwise_cons.mp hadvances
          refine List.pairwise_cons.mpr ⟨fun later hlater => ?_, ih hrest h.2⟩
          obtain ⟨b, hb, held, hfollows⟩ := h.2.exists_advance hlater
          rw [h.1.place, hfollows.place]
          refine credits_in_order horder hrows h.1.joined_mem hfollows.joined_mem ?_
          rw [h.1.joined_advance, hfollows.joined_advance]
          exact hfirst b hb

/-- On ascending places the scan finds the last one before the cut. -/
theorem parentAt_eq {cut : Nat × Nat} {timeline : List TimelineEntry} {parent : Json}
    (hascending : timeline.Pairwise fun a b => Earlier a.position b.position) :
    parentAt cut timeline parent =
      lastManifest (timeline.filter fun entry => Earlier entry.position cut) parent := by
  induction timeline generalizing parent with
  | nil => rfl
  | cons entry timeline ih =>
      obtain ⟨hfirst, hrest⟩ := List.pairwise_cons.mp hascending
      rw [parentAt]
      by_cases hbefore : Earlier entry.position cut
      · rw [if_neg (not_not.mpr hbefore), ih hrest, List.filter_cons,
          if_pos (decide_eq_true hbefore), lastManifest_cons]
      · have hnone : timeline.filter (fun entry => decide (Earlier entry.position cut)) = [] := by
          refine List.filter_eq_nil_iff.mpr fun later hlater hcut => hbefore ?_
          exact (hfirst later hlater).trans (of_decide_eq_true hcut)
        rw [if_pos hbefore, List.filter_cons, if_neg (by simpa using hbefore), hnone]
        rfl

/-! ### The screener passes -/

/-- One turn of the loop places its screener pass. -/
theorem screenerStep_places {genesis : Json} {timeline : List TimelineEntry}
    {run run' : ScreenerRun} {screener : ScreenerPass}
    (hascending : timeline.Pairwise fun a b => Earlier a.position b.position)
    (hcache : CacheSound scan run.epochContexts)
    (h : screenerStep host release scan genesis timeline run screener = .ok run') :
    ∃ call, run'.replayed = run.replayed ++ [call] ∧
      PlacedScreener host scan genesis timeline screener call ∧
      CacheSound scan run'.epochContexts := by
  obtain ⟨evalReportHash, -, h⟩ := bind_eq_ok.mp h
  obtain ⟨artifactHash, -, h⟩ := bind_eq_ok.mp h
  obtain ⟨evidence, -, h⟩ := bind_eq_ok.mp h
  obtain ⟨evaluationReport, -, h⟩ := bind_eq_ok.mp h
  obtain ⟨counterResourceLaw, -, h⟩ := bind_eq_ok.mp h
  obtain ⟨epochContextRoot, -, h⟩ := bind_eq_ok.mp h
  obtain ⟨event, hevent, h⟩ := bind_eq_ok.mp h
  obtain ⟨⟨context, epochContexts⟩, hcontext, h⟩ := bind_eq_ok.mp h
  obtain ⟨haccepted, h⟩ := refuseIf_bind_eq_ok.mp h
  cases h
  obtain ⟨hsound, hcacheNext⟩ := resolveContext_sound hcache hevent hcontext
  obtain ⟨hfor, hroot⟩ := contextEvent_eq_ok hevent
  refine ⟨_, rfl, ?_, hcacheNext⟩
  exact {
    accepted := Bool.not_eq_false _ ▸ haccepted
    replayed := rfl
    parentManifest := parentAt_eq hascending
    context := ⟨event, hfor, hroot.symm ▸ hsound⟩ }

/-- The loop places its screener passes, one after the other. -/
theorem screeners_placed {genesis : Json} {timeline : List TimelineEntry}
    {screeners : List ScreenerPass} {run run' : ScreenerRun}
    (hascending : timeline.Pairwise fun a b => Earlier a.position b.position)
    (hcache : CacheSound scan run.epochContexts)
    (h : screeners.foldlM (screenerStep host release scan genesis timeline) run = .ok run') :
    ∃ calls, run'.replayed = run.replayed ++ calls ∧
      List.Forall₂ (PlacedScreener host scan genesis timeline) screeners calls := by
  induction screeners generalizing run with
  | nil =>
      cases h
      exact ⟨[], (List.append_nil _).symm, .nil⟩
  | cons screener screeners ih =>
      rw [List.foldlM_cons] at h
      obtain ⟨next, hnext, h⟩ := bind_eq_ok.mp h
      obtain ⟨call, hcall, hplaced, hcacheNext⟩ := screenerStep_places hascending hcache hnext
      obtain ⟨calls, hcalls, hrest⟩ := ih hcacheNext h
      refine ⟨call :: calls, ?_, .cons hplaced hrest⟩
      rw [hcalls, hcall, List.append_assoc, List.singleton_append]

/-! ### The reconstruction -/

/-- A joined transition with the key of an advance of the feed is of that advance. -/
theorem advance_of_joinKey {ctx : JoinContext} {decoded : Join.DecodedLogs} {rows : JoinResult}
    (hrows : joinAll keccak256 ctx decoded = .ok rows) {joined : JoinedTransition}
    (hjoined : joined ∈ rows.transitions) {advance : StateAdvanced}
    (hadvance : advance ∈ decoded.advances)
    (hkey : joined.advance.joinKey = advance.joinKey) : joined.advance = advance := by
  have hkeys : (decoded.advances.map StateAdvanced.joinKey).Nodup := by
    obtain ⟨entries, -, h⟩ := bind_eq_ok.mp hrows
    obtain ⟨report, hreport, -⟩ := bind_eq_ok.mp h
    exact assertKeyIsPatchKeyed_ok_iff.mp ⟨report, hreport⟩
  obtain ⟨tx, hadvances, -⟩ := joinAll_transition hrows hjoined
  have hmem : joined.advance ∈ decoded.advancesOf tx := hadvances ▸ List.mem_singleton_self _
  exact List.inj_on_of_nodup_map hkeys (List.mem_filter.mp hmem).1 hadvance hkey

variable (keccak256 host release scan)

/-- A release whose genesis is the sample manifest. -/
def launchRelease : Release where
  genesisFrontier := .obj [
    (py "format", .str (py "coretex.genesis-frontier/v1")),
    (py "frontier_root", (sha256Hex launchManifest.bytes).json),
    (py "manifest", launchManifest.json)]
  genesisFrontierRoot := (sha256Hex launchManifest.bytes).hex
  seedObjects := some
  baselineRoot := zeroWord
  benchmarkLawRoot := zeroWord
  canonicalSuiteRoot := zeroWord
  counterResourceLawRoot := zeroWord
  minerModuleAbiRoot := zeroWord
  evaluationLawRoot := zeroWord

/-- An object source with nothing in it. -/
def emptyHost : Host where
  fetch := fun _ _ => none
  evalReportHash := fun _ => none
  reprFloat := id
  replayDescriptorV3 := fun _ => false
  replayScreener := fun _ => false

/-- A feed without any log. -/
def emptyScan : PublicScan where
  decoded := ⟨[], []⟩
  contexts := []
  signerUpdates := []

def launchViews : Views where
  calldataFor := fun _ => .notText
  domainSeparator := rigDomain
  initialCoordinatorSigner := repeatedAddress 0

theorem seedGenesisObjects_launch :
    seedGenesisObjects launchRelease [] = .ok (launchManifest.json, []) := by
  have hwrapper : checkClosedFields launchRelease.genesisFrontier
      ["format", "frontier_root", "manifest"] "GENESIS-FRONTIER.json" = .ok [
        (py "format", .str (py "coretex.genesis-frontier/v1")),
        (py "frontier_root", (sha256Hex launchManifest.bytes).json),
        (py "manifest", launchManifest.json)] := by
    rw [checkClosedFields_eq_ok]
    exact ⟨rfl, by simp [lookup], by simp⟩
  have hmanifest : field [
      (py "format", .str (py "coretex.genesis-frontier/v1")),
      (py "frontier_root", (sha256Hex launchManifest.bytes).json),
      (py "manifest", launchManifest.json)] "manifest" = launchManifest.json := by
    simp [field, lookup]
  have hroot : field [
      (py "format", .str (py "coretex.genesis-frontier/v1")),
      (py "frontier_root", (sha256Hex launchManifest.bytes).json),
      (py "manifest", launchManifest.json)] "frontier_root" =
        (sha256Hex launchManifest.bytes).json := by
    simp [field, lookup]
  rw [seedGenesisObjects, mapError_eq_ok.mpr hwrapper, ok_bind, hmanifest, hroot,
    mapError_eq_ok.mpr (frontierRoot_json launchManifest)]
  refine refuseIf_bind_eq_ok.mpr ⟨by simp [field, lookup, Json.isStr], ?_⟩
  refine refuseIf_bind_eq_ok.mpr ⟨not_not.mpr rfl, ?_⟩
  refine refuseIf_bind_eq_ok.mpr ⟨by simp [equalsText, Root.json, launchRelease], ?_⟩
  rfl

end CoreTex.Snapshot
