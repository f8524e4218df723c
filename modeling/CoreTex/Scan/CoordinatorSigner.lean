import CoreTex.Join.Story
import CoreTex.Scan.Continuity

/-!
# CoreTex.Scan.CoordinatorSigner

The historical coordinator signer (`coordinator_signer_at` in `discovery.py`) and the join that is
authenticated by it (`_transition_rows` in `snapshot.py`).

A run up to a position depends on the updates strictly before it only, whatever the order they are
listed in (`coordinatorSignerAt_eq`). Cutting it at an earlier position is starting again from the
signer there, and a joined receipt is signed by the signer at its credit's own position.
-/

namespace CoreTex.Scan

open CoreTex.Lib CoreTex.Join

/-! ### Signer updates -/

/-- `0x` and 40 characters. -/
def IsAddress (s : PyStr) : Prop :=
  py "0x" <+: s ∧ s.length = 42

instance (s : PyStr) : Decidable (IsAddress s) :=
  inferInstanceAs (Decidable (_ ∧ _))

/-- `CoordinatorSignerUpdated`. Its decoder spells both signers from 20 bytes of a topic. -/
structure CoordinatorSignerUpdated where
  oldSigner : PyStr
  newSigner : PyStr
  provenance : LogProvenance
  isAddress_newSigner : IsAddress (lower newSigner)

def CoordinatorSignerUpdated.position (update : CoordinatorSignerUpdated) : Nat × Nat :=
  Scan.position update.provenance

/-- `DiscoveryError`. -/
structure DiscoveryError where
  message : String
  deriving DecidableEq, Repr

def rotationError (update : CoordinatorSignerUpdated) (current : PyStr) : DiscoveryError where
  message :=
    let block := update.position.1
    let index := update.position.2
    let old := text update.oldSigner
    let expected := text current
    s!"coordinator signer rotation at ({block}, {index}) starts from " ++
      s!"{old}, expected {expected}"

/-- The loop over the sorted updates. -/
def replaySigners (position : Option (Nat × Nat)) :
    List CoordinatorSignerUpdated → Option (Nat × Nat) → PyStr → Except DiscoveryError PyStr
  | [], _, current => .ok current
  | update :: updates, previousPosition, current =>
    let observedPosition := update.position
    if ∃ previous ∈ previousPosition, ¬ Earlier previous observedPosition then
      .error ⟨"coordinator signer updates are not uniquely chain-ordered"⟩
    else if ∃ cut ∈ position, ¬ Earlier observedPosition cut then .ok current
    else if lower update.oldSigner ≠ current then .error (rotationError update current)
    else replaySigners position updates (some observedPosition) (lower update.newSigner)

/-- An update is at no later position than another. -/
def UpdateLe (a b : CoordinatorSignerUpdated) : Prop :=
  ¬ Earlier b.position a.position

instance : DecidableRel UpdateLe := fun a b =>
  inferInstanceAs (Decidable (¬ Earlier b.position a.position))

instance : Std.Total UpdateLe where
  total a b := by
    unfold UpdateLe Earlier
    omega

instance : IsTrans CoordinatorSignerUpdated UpdateLe where
  trans a b c := by
    unfold UpdateLe Earlier
    omega

/-- `coordinator_signer_at`. -/
def coordinatorSignerAt (initialSigner : PyStr) (updates : List CoordinatorSignerUpdated)
    (position : Option (Nat × Nat)) : Except DiscoveryError PyStr :=
  let current := lower initialSigner
  if ¬ IsAddress current then .error ⟨"initial coordinator signer is not an address"⟩
  else replaySigners position (updates.insertionSort UpdateLe) none current

/-! ### The updates before a position -/

/-- An update is strictly before the position; every update is where there is none. -/
def Before (position : Option (Nat × Nat)) (update : CoordinatorSignerUpdated) : Prop :=
  ∀ cut ∈ position, Earlier update.position cut

instance (position : Option (Nat × Nat)) : DecidablePred (Before position) := fun update =>
  inferInstanceAs (Decidable (∀ cut ∈ position, Earlier update.position cut))

/-- Strictly ascending log positions. -/
def Ascending (updates : List CoordinatorSignerUpdated) : Prop :=
  updates.Pairwise fun a b => Earlier a.position b.position

/-- The updates link from `current` on. -/
def IsChain : List CoordinatorSignerUpdated → PyStr → Prop
  | [], _ => True
  | update :: updates, current =>
    lower update.oldSigner = current ∧ IsChain updates (lower update.newSigner)

/-- The new signer of the last update, `current` where there is none. -/
def lastSigner (updates : List CoordinatorSignerUpdated) (current : PyStr) : PyStr :=
  (updates.getLast?.map fun update => lower update.newSigner).getD current

/-- The loop with the cut made and the positions checked. -/
def replayLinks : List CoordinatorSignerUpdated → PyStr → Except DiscoveryError PyStr
  | [], current => .ok current
  | update :: updates, current =>
    if lower update.oldSigner ≠ current then .error (rotationError update current)
    else replayLinks updates (lower update.newSigner)

theorem lastSigner_cons (update : CoordinatorSignerUpdated)
    (updates : List CoordinatorSignerUpdated) (current : PyStr) :
    lastSigner (update :: updates) current = lastSigner updates (lower update.newSigner) := by
  cases updates with
  | nil => rfl
  | cons next updates => simp [lastSigner, List.getLast?_cons]

theorem replayLinks_of_isChain {updates : List CoordinatorSignerUpdated} {current : PyStr}
    (h : IsChain updates current) :
    replayLinks updates current = .ok (lastSigner updates current) := by
  induction updates generalizing current with
  | nil => rfl
  | cons update updates ih =>
      rw [replayLinks, if_neg (not_not.mpr h.1), ih h.2, lastSigner_cons]

theorem replayLinks_of_not_isChain {updates : List CoordinatorSignerUpdated} {current : PyStr}
    (h : ¬ IsChain updates current) : ∃ e, replayLinks updates current = .error e := by
  induction updates generalizing current with
  | nil => exact absurd trivial h
  | cons update updates ih =>
      rw [replayLinks]
      split
      next => exact ⟨_, rfl⟩
      next heq => exact ih fun hrest => h ⟨not_not.mp heq, hrest⟩

theorem replayLinks_append (first second : List CoordinatorSignerUpdated) (current : PyStr) :
    replayLinks (first ++ second) current =
      (replayLinks first current).bind fun signer => replayLinks second signer := by
  induction first generalizing current with
  | nil => rfl
  | cons update first ih =>
      rw [List.cons_append, replayLinks, replayLinks]
      split
      next => rfl
      next => exact ih _

theorem lower_lower (s : PyStr) : lower (lower s) = lower s := by
  rw [lower, lower, List.map_map]
  refine List.map_congr_left fun c _ => ?_
  simp only [Function.comp_apply]
  by_cases hupper : 65 ≤ c ∧ c ≤ 90
  · rw [if_pos hupper, if_neg (by omega)]
  · rw [if_neg hupper, if_neg hupper]

/-- The signer a chain ends in is an address when it starts from one. -/
theorem isAddress_of_replayLinks {updates : List CoordinatorSignerUpdated} {current s : PyStr}
    (hcurrent : IsAddress current ∧ lower current = current)
    (h : replayLinks updates current = .ok s) : IsAddress s ∧ lower s = s := by
  induction updates generalizing current with
  | nil =>
      cases h
      exact hcurrent
  | cons update updates ih =>
      rw [replayLinks] at h
      split at h
      next => cases h
      next => exact ih ⟨update.isAddress_newSigner, lower_lower _⟩ h

/-- On strictly ascending updates the loop links those before the cut. -/
theorem replaySigners_eq {position : Option (Nat × Nat)} {updates : List CoordinatorSignerUpdated}
    (hasc : Ascending updates) {previous : Option (Nat × Nat)}
    (hprev : ∀ p ∈ previous, ∀ u ∈ updates, Earlier p u.position) (current : PyStr) :
    replaySigners position updates previous current =
      replayLinks (updates.filter (Before position)) current := by
  induction updates generalizing previous current with
  | nil => rfl
  | cons update updates ih =>
      obtain ⟨hhead, hrest⟩ := List.pairwise_cons.mp hasc
      have hordered : ¬ ∃ p ∈ previous, ¬ Earlier p update.position := by
        rintro ⟨p, hp, hnot⟩
        exact hnot (hprev p hp update List.mem_cons_self)
      rw [replaySigners, if_neg hordered]
      by_cases hcut : ∃ cut ∈ position, ¬ Earlier update.position cut
      · -- the loop breaks, and nothing after it is before the cut
        obtain ⟨cut, hmem, hnot⟩ := hcut
        have hnone : (update :: updates).filter (Before position) = [] := by
          rw [List.filter_eq_nil_iff]
          intro u hu hbefore
          have hearlier := of_decide_eq_true hbefore cut hmem
          rcases List.mem_cons.mp hu with rfl | hu
          · exact hnot hearlier
          · exact hnot ((hhead u hu).trans hearlier)
        rw [if_pos ⟨cut, hmem, hnot⟩, hnone]
        rfl
      · have hbefore : Before position update := by
          intro cut hmem
          by_contra hnot
          exact hcut ⟨cut, hmem, hnot⟩
        rw [if_neg hcut, List.filter_cons, if_pos (decide_eq_true hbefore), replayLinks]
        split
        next => rfl
        next =>
          refine ih hrest ?_ _
          intro p hp u hu
          obtain rfl := Option.some.inj hp
          exact hhead u hu

/-- Distinct log positions. -/
def DistinctPositions (updates : List CoordinatorSignerUpdated) : Prop :=
  (updates.map CoordinatorSignerUpdated.position).Nodup

theorem earlier_or_eq (a b : Nat × Nat) : Earlier a b ∨ a = b ∨ Earlier b a := by
  unfold Earlier
  rw [Prod.ext_iff]
  omega

theorem ascending_insertionSort {updates : List CoordinatorSignerUpdated}
    (h : DistinctPositions updates) : Ascending (updates.insertionSort UpdateLe) := by
  have hperm := List.perm_insertionSort UpdateLe updates
  have hnodup : ((updates.insertionSort UpdateLe).map CoordinatorSignerUpdated.position).Nodup :=
    (hperm.map _).nodup_iff.mpr h
  have hne := List.pairwise_map.mp hnodup
  refine ((List.pairwise_insertionSort UpdateLe updates).and hne).imp ?_
  rintro a b ⟨hle, hab⟩
  rcases earlier_or_eq a.position b.position with hlt | heq | hgt
  · exact hlt
  · exact absurd heq hab
  · exact absurd hgt hle

/-- Strictly ascending arrangements of the same updates are the same. -/
theorem ascending_unique {us vs : List CoordinatorSignerUpdated} (hus : Ascending us)
    (hvs : Ascending vs) (hperm : us.Perm vs) : us = vs := by
  refine List.Perm.eq_of_pairwise ?_ hus hvs hperm
  intro a b _ _ hab hba
  have hself := hab.trans hba
  unfold Earlier at hself
  omega

/-- **The signer at a position** is the replay of the updates strictly before it, in log order. -/
theorem coordinatorSignerAt_eq {initialSigner : PyStr} (haddress : IsAddress (lower initialSigner))
    {updates before : List CoordinatorSignerUpdated} (hdistinct : DistinctPositions updates)
    {position : Option (Nat × Nat)} (hperm : before.Perm (updates.filter (Before position)))
    (hasc : Ascending before) :
    coordinatorSignerAt initialSigner updates position =
      replayLinks before (lower initialSigner) := by
  have hsorted := ascending_insertionSort hdistinct
  have hcut : (updates.insertionSort UpdateLe).filter (Before position) = before := by
    refine ascending_unique (hsorted.filter _) hasc ?_
    exact ((List.perm_insertionSort UpdateLe updates).filter _).trans hperm.symm
  rw [coordinatorSignerAt, if_neg (not_not.mpr haddress), replaySigners_eq hsorted (by simp), hcut]

/-- The updates strictly before a position, in log order. -/
theorem exists_before {updates : List CoordinatorSignerUpdated} (h : DistinctPositions updates)
    (position : Option (Nat × Nat)) :
    ∃ before, before.Perm (updates.filter (Before position)) ∧ Ascending before :=
  ⟨(updates.insertionSort UpdateLe).filter (Before position),
    (List.perm_insertionSort UpdateLe updates).filter _, (ascending_insertionSort h).filter _⟩

/-! ### Later updates, and starting again -/

theorem before_iff {cut : Nat × Nat} {update : CoordinatorSignerUpdated} :
    Before (some cut) update ↔ Earlier update.position cut := by
  simp [Before]

/-- Updates at or after a position leave its signer alone, wherever they are listed. -/
theorem coordinatorSignerAt_later {initialSigner : PyStr}
    (haddress : IsAddress (lower initialSigner)) {updates later all : List CoordinatorSignerUpdated}
    (hall : all.Perm (updates ++ later)) (hdistinct : DistinctPositions all) {cut : Nat × Nat}
    (hlater : ∀ u ∈ later, ¬ Earlier u.position cut) :
    coordinatorSignerAt initialSigner all (some cut) =
      coordinatorSignerAt initialSigner updates (some cut) := by
  have hboth : (updates.map CoordinatorSignerUpdated.position).Nodup := by
    have hnodup := (hall.map CoordinatorSignerUpdated.position).nodup_iff.mp hdistinct
    rw [List.map_append] at hnodup
    exact (List.nodup_append.mp hnodup).1
  obtain ⟨before, hperm, hasc⟩ := exists_before hboth (some cut)
  have hnone : later.filter (Before (some cut)) = [] := by
    rw [List.filter_eq_nil_iff]
    intro u hu hbefore
    exact hlater u hu (before_iff.mp (of_decide_eq_true hbefore))
  have hfilter : (all.filter (Before (some cut))).Perm (updates.filter (Before (some cut))) := by
    have hcut := hall.filter (Before (some cut))
    rwa [List.filter_append, hnone, List.append_nil] at hcut
  rw [coordinatorSignerAt_eq haddress hdistinct (hperm.trans hfilter.symm) hasc,
    coordinatorSignerAt_eq haddress hboth hperm hasc]

/-- The signer at `q` is that of a run that starts from the signer at `p ≤ q` with the updates of
`[p, q)`. -/
theorem coordinatorSignerAt_restart {initialSigner : PyStr}
    (haddress : IsAddress (lower initialSigner)) {updates : List CoordinatorSignerUpdated}
    (hdistinct : DistinctPositions updates) {p q : Nat × Nat} (hpq : ¬ Earlier q p) :
    coordinatorSignerAt initialSigner updates (some q) =
      (coordinatorSignerAt initialSigner updates (some p)).bind fun signer =>
        coordinatorSignerAt signer
          (updates.filter fun u => ¬ Earlier u.position p ∧ Earlier u.position q) (some q) := by
  generalize hwindow :
    (updates.filter fun u => ¬ Earlier u.position p ∧ Earlier u.position q) = window
  have hdistinctWindow : DistinctPositions window := by
    rw [← hwindow]
    exact hdistinct.sublist ((List.filter_sublist).map _)
  obtain ⟨first, hfirst, hfirstAsc⟩ := exists_before hdistinct (some p)
  obtain ⟨second, hsecond, hsecondAsc⟩ := exists_before hdistinctWindow (some q)
  have hmemFirst : ∀ u ∈ first, Earlier u.position p := by
    intro u hu
    exact before_iff.mp (of_decide_eq_true (List.mem_filter.mp (hfirst.mem_iff.mp hu)).2)
  have hmemSecond : ∀ u ∈ second, ¬ Earlier u.position p := by
    intro u hu
    have hw := (List.mem_filter.mp (hsecond.mem_iff.mp hu)).1
    rw [← hwindow] at hw
    exact (of_decide_eq_true (List.mem_filter.mp hw).2).1
  have hasc : Ascending (first ++ second) := by
    refine List.pairwise_append.mpr ⟨hfirstAsc, hsecondAsc, ?_⟩
    intro a ha b hb
    have hap := hmemFirst a ha
    have hbp := hmemSecond b hb
    unfold Earlier at hap hbp ⊢
    omega
  have hperm : (first ++ second).Perm (updates.filter (Before (some q))) := by
    -- both parts of the updates before `q`, cut at `p`
    have hsplit := (List.filter_append_perm (fun u => decide (Before (some p) u))
      (updates.filter (Before (some q)))).symm
    have hlow : ((updates.filter (Before (some q))).filter fun u => decide (Before (some p) u)) =
        updates.filter (Before (some p)) := by
      rw [List.filter_filter]
      refine List.filter_congr fun u _ => ?_
      rw [← Bool.decide_and, decide_eq_decide, before_iff, before_iff]
      unfold Earlier at hpq ⊢
      omega
    have hhigh : ((updates.filter (Before (some q))).filter
        fun u => !decide (Before (some p) u)) = window.filter (Before (some q)) := by
      rw [← hwindow, List.filter_filter, List.filter_filter]
      refine List.filter_congr fun u _ => ?_
      simp only [before_iff]
      by_cases hp : Earlier u.position p <;> by_cases hq : Earlier u.position q <;> simp [hp, hq]
    rw [hlow, hhigh] at hsplit
    exact (hfirst.append hsecond).trans hsplit.symm
  rw [coordinatorSignerAt_eq haddress hdistinct hperm hasc, replayLinks_append,
    coordinatorSignerAt_eq haddress hdistinct hfirst hfirstAsc]
  cases hrun : replayLinks first (lower initialSigner) with
  | error e => rfl
  | ok signer =>
      obtain ⟨hsigner, hlower⟩ := isAddress_of_replayLinks ⟨haddress, lower_lower _⟩ hrun
      have hagain := coordinatorSignerAt_eq (hlower.symm ▸ hsigner) hdistinctWindow hsecond
        hsecondAsc
      rw [hlower] at hagain
      exact hagain.symm

/-! ### The join under the historical signer -/

/-- The `signer` that `_transition_rows` gives to `join_all`. -/
def signerAtCredit (initialSigner : PyStr) (updates : List CoordinatorSignerUpdated) :
    CoordinatorSigner :=
  .callable fun provenance =>
    (coordinatorSignerAt initialSigner updates (some (position provenance))).toOption

theorem signerFor_signerAtCredit {initialSigner : PyStr} {updates : List CoordinatorSignerUpdated}
    {provenance : LogProvenance} {signer : PyStr}
    (h : (signerAtCredit initialSigner updates).signerFor provenance = .ok signer) :
    coordinatorSignerAt initialSigner updates (some (position provenance)) = .ok signer := by
  simp only [signerAtCredit, CoordinatorSigner.signerFor] at h
  cases hrun : coordinatorSignerAt initialSigner updates (some (position provenance)) with
  | error e =>
      rw [hrun] at h
      cases h
  | ok s =>
      rw [hrun] at h
      cases h
      rfl

/-- The receipt carries the signature of `signer` over its own digest. -/
def AuthenticatedBy (keccak256 : Bytes → Digest) (domainSeparator : Digest)
    (receipt : CoreTexReceipt) (credit : CoreTexCreditAccepted) (signer : PyStr) : Prop :=
  ∃ digest, HashesTo keccak256 domainSeparator receipt digest credit.receiptHash ∧
    SignedBy keccak256 receipt digest signer

variable {keccak256 : Bytes → Digest}

/-- A joined transition comes out of a group of its advance and its credit alone. -/
theorem joinGroup_transition {ctx : JoinContext} {tx : PyStr} {advances : List StateAdvanced}
    {credits : List CoreTexCreditAccepted} {entries : List Entry} {joined : JoinedTransition}
    (h : joinGroup keccak256 ctx tx advances credits = .ok entries)
    (hjoined : .transition joined ∈ entries) :
    advances = [joined.advance] ∧ credits = [joined.credit] ∧ ∃ calldata signer,
      ctx.coordinatorSigner.signerFor joined.credit.provenance = .ok signer ∧
        joinAdvance keccak256 joined.advance joined.credit calldata ctx.domainSeparator signer
          ctx.verifySignature = .ok joined := by
  rcases joinGroup_entry h hjoined with ⟨_, hsame⟩ | ⟨_, _, _, hsame, _⟩ |
    ⟨advance, credit, signer, joined', rfl, rfl, hsame, hsigner, hjoin⟩
  · cases hsame
  · cases hsame
  · cases hsame
    obtain ⟨rfl, rfl, -⟩ := joinAdvance_eq_ok keccak256 hjoin
    exact ⟨rfl, rfl, _, signer, hsigner, hjoin⟩

/-- Every joined transition of a scan is that of a transaction with one advance and one credit,
joined with the signer at its credit's place. -/
theorem joinAll_transition {ctx : JoinContext} {decoded : DecodedLogs} {result : JoinResult}
    (h : joinAll keccak256 ctx decoded = .ok result) {joined : JoinedTransition}
    (hjoined : joined ∈ result.transitions) :
    ∃ tx, decoded.advancesOf tx = [joined.advance] ∧ decoded.creditsOf tx = [joined.credit] ∧
      ∃ calldata signer,
        ctx.coordinatorSigner.signerFor joined.credit.provenance = .ok signer ∧
          joinAdvance keccak256 joined.advance joined.credit calldata ctx.domainSeparator signer
            ctx.verifySignature = .ok joined := by
  obtain ⟨hall, hperm⟩ := joinAll_entries keccak256 h
  have hmem : Entry.transition joined ∈ result.entries := by
    simp [JoinResult.entries, hjoined]
  obtain ⟨g, hg, hentry⟩ := List.mem_flatMap.mp (hperm.mem_iff.mp hmem)
  obtain ⟨entries, hentries⟩ := hall g hg
  rw [groupEntries_of_ok keccak256 hentries] at hentry
  obtain ⟨hadvances, hcredits, hjoin⟩ := joinGroup_transition hentries hentry
  obtain ⟨-, hgroup⟩ := mem_byTx.mp hg
  have hfirst : g.2.1 = decoded.advancesOf g.1 := congrArg (fun g => g.2.1) hgroup
  have hsecond : g.2.2 = decoded.creditsOf g.1 := congrArg (fun g => g.2.2) hgroup
  exact ⟨g.1, hfirst ▸ hadvances, hsecond ▸ hcredits, hjoin⟩

/-- A joined transition is authenticated by the signer it was joined with. -/
theorem joinAdvance_authenticated {advance : StateAdvanced} {credit : CoreTexCreditAccepted}
    {calldata : Option PyStr} {domainSeparator : Digest} {signer : PyStr}
    {joined : JoinedTransition}
    (h : joinAdvance keccak256 advance credit calldata domainSeparator signer true = .ok joined) :
    joined.credit = credit ∧ lower joined.recoveredSigner = lower signer ∧
      AuthenticatedBy keccak256 domainSeparator joined.receipt joined.credit signer := by
  obtain ⟨digest, -, hread, -, hseven, -, hcredit, -, -⟩ := joinAdvance_inv h
  obtain ⟨hhashes, -⟩ := readReceipt_eq_ok hread
  obtain ⟨hsigned, hlower⟩ := checkSignature_eq_ok hseven
  exact ⟨hcredit, hlower, digest.bytes, hcredit ▸ hhashes, hsigned⟩

/-- A screener pass is authenticated by the signer at its credit's place. -/
theorem joinScreener_authenticated {credit : CoreTexCreditAccepted} {calldata : Option PyStr}
    {domainSeparator : Digest} {coordinatorSigner : CoordinatorSigner} {pass : ScreenerPass}
    (h : joinScreener keccak256 credit calldata domainSeparator coordinatorSigner true = .ok pass) :
    ∃ signer, coordinatorSigner.signerFor pass.credit.provenance = .ok signer ∧
      AuthenticatedBy keccak256 domainSeparator pass.receipt pass.credit signer := by
  obtain ⟨digest, hread, hseven, hcredit⟩ := joinScreener_inv h
  obtain ⟨hhashes, -⟩ := readReceipt_eq_ok hread
  rw [screenerStepSeven, if_pos rfl] at hseven
  obtain ⟨signer, hsigner, hsigned⟩ := checkScreenerSignature_eq_ok hseven
  exact ⟨signer, hcredit ▸ hsigner, digest.bytes, hcredit ▸ hhashes, hsigned⟩

variable (keccak256)

/-- **Historical signers.** At a position the signer is the last one of the updates strictly
before it, where these form a chain, and there is none otherwise; later updates do not move it, and
a run may start again from it. What is joined under these signers carries the signature of the one
in force just before its credit. -/
theorem coordinatorSigner_history (initialSigner : PyStr)
    (haddress : IsAddress (lower initialSigner)) (updates : List CoordinatorSignerUpdated)
    (hdistinct : DistinctPositions updates) :
    (∀ p before, before.Perm (updates.filter fun u => Earlier u.position p) → Ascending before →
      (IsChain before (lower initialSigner) →
        coordinatorSignerAt initialSigner updates (some p) =
          .ok (lastSigner before (lower initialSigner))) ∧
      (¬ IsChain before (lower initialSigner) →
        ∃ e, coordinatorSignerAt initialSigner updates (some p) = .error e)) ∧
    (∀ p later all, all.Perm (updates ++ later) → DistinctPositions all →
      (∀ u ∈ later, ¬ Earlier u.position p) →
      coordinatorSignerAt initialSigner all (some p) =
        coordinatorSignerAt initialSigner updates (some p)) ∧
    (∀ p q, ¬ Earlier q p → coordinatorSignerAt initialSigner updates (some q) =
      (coordinatorSignerAt initialSigner updates (some p)).bind fun signer =>
        coordinatorSignerAt signer
          (updates.filter fun u => ¬ Earlier u.position p ∧ Earlier u.position q) (some q)) ∧
    ∀ calldataFor domainSeparator decoded result,
      joinAll keccak256 ⟨calldataFor, domainSeparator, signerAtCredit initialSigner updates, true⟩
        decoded = .ok result →
      (∀ joined ∈ result.transitions, ∃ signer,
        coordinatorSignerAt initialSigner updates (some (position joined.credit.provenance)) =
          .ok signer ∧
        lower joined.recoveredSigner = lower signer ∧
        AuthenticatedBy keccak256 domainSeparator joined.receipt joined.credit signer) ∧
      ∀ pass ∈ result.screenerPasses, ∃ signer,
        coordinatorSignerAt initialSigner updates (some (position pass.credit.provenance)) =
          .ok signer ∧
        AuthenticatedBy keccak256 domainSeparator pass.receipt pass.credit signer := by
  refine ⟨?_, ?_, ?_, ?_⟩
  · intro p before hperm hasc
    have hbefore : before.Perm (updates.filter (Before (some p))) := by
      have hsame : (updates.filter (Before (some p))) =
          updates.filter fun u => Earlier u.position p :=
        List.filter_congr fun u _ => decide_eq_decide.mpr before_iff
      rw [hsame]
      exact hperm
    rw [coordinatorSignerAt_eq haddress hdistinct hbefore hasc]
    exact ⟨replayLinks_of_isChain, replayLinks_of_not_isChain⟩
  · intro p later all hall hdistinctAll hlater
    exact coordinatorSignerAt_later haddress hall hdistinctAll hlater
  · intro p q hpq
    exact coordinatorSignerAt_restart haddress hdistinct hpq
  · intro calldataFor domainSeparator decoded result h
    constructor
    · intro joined hjoined
      obtain ⟨tx, -, -, calldata, signer, hsigner, hjoin⟩ := joinAll_transition h hjoined
      obtain ⟨-, hlower, hauth⟩ := joinAdvance_authenticated hjoin
      exact ⟨signer, signerFor_signerAtCredit hsigner, hlower, hauth⟩
    · intro pass hpass
      obtain ⟨signer, hsigner, hauth⟩ :=
        joinScreener_authenticated (joinAll_screenerPass h hpass)
      exact ⟨signer, signerFor_signerAtCredit hsigner, hauth⟩

/-- The address whose 40 digits are all `d`. -/
def repeatedAddress (d : Nat) : PyStr :=
  py "0x" ++ List.replicate 40 (48 + d)

/-- A rotation from the signer of digit `d` to the next one, in block `block`. -/
def rotationAt (d block : Nat) (h : IsAddress (lower (repeatedAddress (d + 1)))) :
    CoordinatorSignerUpdated where
  oldSigner := repeatedAddress d
  newSigner := repeatedAddress (d + 1)
  provenance := logAt block
  isAddress_newSigner := h

/-- Two rotations listed backwards, read between them and at the second. -/
theorem coordinatorSigner_history_sample :
    coordinatorSignerAt (repeatedAddress 0)
        [rotationAt 1 20 (by decide), rotationAt 0 10 (by decide)] (some (20, 0)) =
      .ok (repeatedAddress 1) := by
  have hhistory := (coordinatorSigner_history tailDigest (repeatedAddress 0) (by decide)
    [rotationAt 1 20 (by decide), rotationAt 0 10 (by decide)]
    (by unfold DistinctPositions; decide)).1
  have hpart := hhistory (20, 0) [rotationAt 0 10 (by decide)] (.refl _)
    (List.pairwise_singleton _ _)
  exact hpart.1 ⟨by decide, trivial⟩

end CoreTex.Scan
