import CoreTex.Lib.Links
import CoreTex.Scan.Continuity

/-!
# CoreTex.Scan.LineageWalk

Continuity from epoch to epoch: the walk back over the registry's views (`walk_lineage` in
`join.py`).

The scan decides continuity within an epoch, the walk between an epoch and the last one that was
served before it. `walks_silent_iff_chained` is what both are for: over registry views that report
the scanned history, no walk finds a break exactly when all advances form one chain of roots.
-/

namespace CoreTex.Scan

open CoreTex.Lib CoreTex.Join

/-! ### The walk -/

/-- The registry's views that a walk asks for. `none` is a revert. -/
structure RegistryViews where
  epochParentStateRoot : Nat → Option PyStr
  epochHasContext : Nat → Bool
  transitionCount : Nat → Nat
  epochFinalized : Nat → Bool
  liveStateRoot : Nat → Option PyStr

/-- `LineageStep`. -/
structure WalkStep where
  epoch : Int
  isSealed : Bool
  served : Bool
  finalRoot : PyStr
  source : String
  flagged : Bool
  note : String

section Walk

variable (views : RegistryViews)

/-- The step over an epoch without a context. -/
def noContextStep (epoch : Nat) : WalkStep where
  epoch := epoch
  isSealed := false
  served := false
  finalRoot := []
  source := "no_epoch_context"
  flagged := false
  note := "skipped: no epoch context was ever set, so this epoch could not have been served and " ++
    "the registry has nothing to report for it"

/-- The step over an epoch without an accepted transition. -/
def neverAdvancedStep (epoch : Nat) (parent : PyStr) : WalkStep where
  epoch := epoch
  isSealed := views.epochFinalized epoch
  served := false
  finalRoot := parent
  source := "never_advanced"
  flagged := false
  note := "skipped: no recorded transition, so it cannot have moved the root and can never be " ++
    "sealed"

/-- The step at an epoch that was served, which is flagged unless it is sealed. -/
def servedStep (epoch : Nat) (live : PyStr) : WalkStep where
  epoch := epoch
  isSealed := views.epochFinalized epoch
  served := true
  finalRoot := live
  source := if views.epochFinalized epoch then "liveStateRoot (frozen by epochFinalized)"
    else "liveStateRoot"
  flagged := !views.epochFinalized epoch
  note := if views.epochFinalized epoch then ""
    else "epoch is served but NOT sealed: the comparison is sound (a past epoch's live root is " ++
      "frozen) but the operator has not committed to it on chain"

/-- The step below the last epoch that is walked. -/
def contextParentStep (backTo : Nat) (expected : PyStr) : WalkStep where
  epoch := (backTo : Int) - 1
  isSealed := false
  served := false
  finalRoot := expected
  source := "operational_context_parent"
  flagged := false
  note := "no earlier served epoch exists in the scanned registry history. The remaining root " ++
    "is the confirmed verifier context parent for the served epoch; the registry constructor " ++
    "GENESIS_STATE_ROOT is a deployment diagnostic and is not used as operational state authority"

/-- The epochs that are left, from the latest one on. -/
def walkBack (fromEpoch backTo : Nat) (expected : PyStr) :
    Nat → Option (List WalkStep × List String)
  | 0 => some ([contextParentStep backTo expected], [])
  | left + 1 =>
    let epoch := backTo + left
    if views.epochHasContext epoch = false then do
      let rest ← walkBack fromEpoch backTo expected left
      return (noContextStep epoch :: rest.1, rest.2)
    else if views.transitionCount epoch = 0 then do
      let parent ← views.epochParentStateRoot epoch
      let rest ← walkBack fromEpoch backTo expected left
      return (neverAdvancedStep views epoch parent :: rest.1, rest.2)
    else do
      let live ← views.liveStateRoot epoch
      let step := servedStep views epoch live
      let contextParent := text expected
      let ended := text live
      let source := step.source
      return ([step], problemIf (live ≠ expected)
        (s!"continuity break: epoch {fromEpoch}'s context parent is {contextParent}, but the " ++
          s!"most recent SERVED epoch {epoch} ends at {ended} ({source})"))

/-- `walk_lineage`. -/
def walkLineage (fromEpoch backTo : Nat) : Option (List WalkStep × List String) := do
  let expected ← views.epochParentStateRoot fromEpoch
  walkBack views fromEpoch backTo expected (fromEpoch - backTo)

/-- An epoch at which a walk stops. -/
def RegistryViews.Served (epoch : Nat) : Prop :=
  views.epochHasContext epoch = true ∧ views.transitionCount epoch ≠ 0

end Walk

variable {views : RegistryViews}

/-- Where the views answer, a walk returns, and it is silent exactly when the last served epoch
ends at the root that is expected. -/
theorem walkBack_silent {fromEpoch backTo : Nat} {expected : PyStr} {left : Nat}
    (hparent : ∀ epoch, views.epochHasContext epoch = true →
      ∃ parent, views.epochParentStateRoot epoch = some parent)
    (hlive : ∀ epoch, views.Served epoch → ∃ live, views.liveStateRoot epoch = some live) :
    ∃ steps problems, walkBack views fromEpoch backTo expected left = some (steps, problems) ∧
      (problems = [] ↔ ∀ epoch, backTo ≤ epoch → epoch < backTo + left → views.Served epoch →
        (∀ later, epoch < later → later < backTo + left → ¬ views.Served later) →
        views.liveStateRoot epoch = some expected) := by
  induction left with
  | zero => exact ⟨_, _, rfl, by simp only [true_iff]; omega⟩
  | succ left ih =>
      obtain ⟨steps, problems, hrest, hiff⟩ := ih
      have hskip : ¬ views.Served (backTo + left) → (problems = [] ↔ ∀ epoch, backTo ≤ epoch →
          epoch < backTo + (left + 1) → views.Served epoch →
          (∀ later, epoch < later → later < backTo + (left + 1) → ¬ views.Served later) →
          views.liveStateRoot epoch = some expected) := by
        intro hnot
        rw [hiff]
        constructor
        · intro h epoch hback hlt hserved hlater
          have hne : epoch ≠ backTo + left := fun heq => hnot (heq ▸ hserved)
          exact h epoch hback (by omega) hserved fun later hgt hlt => hlater later hgt (by omega)
        · intro h epoch hback hlt hserved hlater
          refine h epoch hback (by omega) hserved fun later hgt hlt' => ?_
          by_cases heq : later = backTo + left
          · exact heq ▸ hnot
          · exact hlater later hgt (by omega)
      unfold walkBack
      dsimp only
      split
      next hcontext =>
        rw [hrest]
        exact ⟨_, _, rfl, hskip fun hserved => by simp [hserved.1] at hcontext⟩
      next hcontext =>
        have hcontext : views.epochHasContext (backTo + left) = true := by simpa using hcontext
        split
        next hcount =>
          obtain ⟨parent, hroot⟩ := hparent _ hcontext
          rw [hroot, hrest]
          exact ⟨_, _, rfl, hskip fun hserved => hserved.2 hcount⟩
        next hcount =>
          have hserved : views.Served (backTo + left) := ⟨hcontext, hcount⟩
          obtain ⟨live, hroot⟩ := hlive _ hserved
          rw [hroot]
          refine ⟨_, _, rfl, ?_⟩
          rw [problemIf_eq_nil, not_not]
          constructor
          · rintro rfl epoch hback hlt - hlater
            have heq : epoch = backTo + left := by
              by_contra hne
              exact hlater (backTo + left) (by omega) (by omega) hserved
            rw [heq, hroot]
          · intro h
            exact Option.some.inj (hroot.symm.trans (h (backTo + left) (by omega) (by omega)
              hserved fun later hgt hlt => by omega))

/-! ### A scanned history -/

/-- The advances of a history, epoch by epoch, in the order of their indices. -/
def history (advances : List StateAdvanced) : List StateAdvanced :=
  (advanceEpochs advances).flatMap fun epoch =>
    (epochGroup advances epoch).insertionSort IndexLe

/-- An advance builds on the root that the one before it ended with. -/
def BuildsOn (before after : StateAdvanced) : Prop :=
  after.parentStateRoot = before.newStateRoot

instance : DecidableRel BuildsOn := fun before after =>
  inferInstanceAs (Decidable (after.parentStateRoot = before.newStateRoot))

/-- The registry's views report what was scanned: an epoch's context, the number of its advances,
the parent that its context set, and the root that its last advance ended with. -/
structure Reports (views : RegistryViews) (advances : List StateAdvanced)
    (contexts : List EpochContextSet) : Prop where
  has_context : ∀ epoch, views.epochHasContext epoch = true ↔ ∃ ctx ∈ contexts, ctx.epoch = epoch
  count : ∀ epoch, views.transitionCount epoch = (epochGroup advances epoch).length
  answers : ∀ epoch, views.epochHasContext epoch = true →
    ∃ parent, views.epochParentStateRoot epoch = some parent
  parent : ∀ epoch parent, (epochContinuity contexts epoch (epochGroup advances epoch)).1 =
    some parent → views.epochParentStateRoot epoch = some parent
  live : ∀ epoch, ∀ last ∈ epochGroup advances epoch,
    (∀ a ∈ epochGroup advances epoch, a.transitionIndex ≤ last.transitionIndex) →
      views.liveStateRoot epoch = some last.newStateRoot

section History

variable {advances : List StateAdvanced} {contexts : List EpochContextSet} {epoch : Nat}
  {group : List StateAdvanced} {first : StateAdvanced} {context : EpochContextSet}

theorem mem_advanceEpochs_iff :
    epoch ∈ advanceEpochs advances ↔ epochGroup advances epoch ≠ [] := by
  rw [mem_advanceEpochs, epochGroup, Ne, List.filter_eq_nil_iff]
  simp

theorem ordered_ne_nil (h : epoch ∈ advanceEpochs advances) :
    (epochGroup advances epoch).insertionSort IndexLe ≠ [] := by
  have hperm := List.perm_insertionSort IndexLe (epochGroup advances epoch)
  intro hnil
  rw [hnil] at hperm
  exact mem_advanceEpochs_iff.mp h hperm.nil_eq.symm

/-- Dense indices leave only neighbours to link. -/
theorem isChain_of_dense {R : StateAdvanced → StateAdvanced → Prop} {ordered : List StateAdvanced}
    {index : Nat}
    (hdense : ordered.map StateAdvanced.transitionIndex = List.range' index ordered.length)
    (h : ∀ a ∈ ordered, ∀ b ∈ ordered, b.transitionIndex = a.transitionIndex + 1 → R a b) :
    List.IsChain R ordered := by
  induction ordered generalizing index with
  | nil => exact List.isChain_nil
  | cons a rest ih =>
      rw [List.map_cons, List.length_cons, List.range'_succ, List.cons.injEq] at hdense
      have hrest := ih hdense.2 fun a' ha' b' hb' =>
        h a' (List.mem_cons_of_mem _ ha') b' (List.mem_cons_of_mem _ hb')
      cases rest with
      | nil => exact List.isChain_singleton _
      | cons b rest =>
          refine List.isChain_cons_cons.mpr ⟨h a List.mem_cons_self b (by simp) ?_, hrest⟩
          have hb := hdense.2
          rw [List.map_cons, List.length_cons, List.range'_succ, List.cons.injEq] at hb
          rw [hb.1, hdense.1]

/-- The advances of a continuous epoch, in order: the first one builds on the context's parent. -/
theorem EpochContinuous.ordered (h : EpochContinuous contexts epoch group first context) :
    ∃ rest, group.insertionSort IndexLe = first :: rest := by
  have hperm := List.perm_insertionSort IndexLe group
  have hdense := (dense_insertionSort group).mpr h.dense
  have hmem : first ∈ group.insertionSort IndexLe := hperm.mem_iff.mpr h.first_mem
  cases hsorted : group.insertionSort IndexLe with
  | nil =>
      rw [hsorted] at hmem
      cases hmem
  | cons head rest =>
      rw [hsorted] at hdense hmem
      rw [first_of_dense hdense hmem h.first_index]
      exact ⟨rest, rfl⟩

theorem EpochContinuous.isChain (h : EpochContinuous contexts epoch group first context) :
    List.IsChain BuildsOn (group.insertionSort IndexLe) := by
  have hperm := List.perm_insertionSort IndexLe group
  refine isChain_of_dense ((dense_insertionSort group).mpr h.dense) fun a ha b hb => ?_
  exact h.chained a (hperm.mem_iff.mp ha) b (hperm.mem_iff.mp hb)

theorem EpochContinuous.contextParent (h : EpochContinuous contexts epoch group first context) :
    (epochContinuity contexts epoch group).1 = some context.parentStateRoot := by
  obtain ⟨rest, hordered⟩ := h.ordered
  have hgoverns := governs_iff.mpr h.governs
  have hsome : epochContexts contexts epoch ≠ [] := by
    intro hnil
    rw [hnil] at hgoverns
    cases hgoverns
  simp only [epochContinuity, if_neg hsome, hordered, hgoverns]

theorem EpochContinuous.has_context (h : EpochContinuous contexts epoch group first context) :
    ∃ ctx ∈ contexts, ctx.epoch = epoch := by
  have hmem : context ∈ epochContexts contexts epoch :=
    List.mem_of_mem_filter (List.mem_of_getLast? (governs_iff.mpr h.governs))
  exact ⟨context, mem_epochContexts.mp hmem⟩

/-- The last advance in order has the highest index. -/
theorem le_of_getLast?_sorted {last : StateAdvanced}
    (h : (group.insertionSort IndexLe).getLast? = some last) :
    last ∈ group ∧ ∀ a ∈ group, a.transitionIndex ≤ last.transitionIndex := by
  obtain ⟨before, hsplit⟩ := List.getLast?_eq_some_iff.mp h
  have hperm := List.perm_insertionSort IndexLe group
  have hsorted := List.pairwise_insertionSort IndexLe group
  have hmem : ∀ a, a ∈ group ↔ a ∈ before ++ [last] := fun a => hsplit ▸ hperm.mem_iff.symm
  rw [hsplit] at hsorted
  refine ⟨(hmem last).mpr (by simp), fun a ha => ?_⟩
  rcases List.mem_append.mp ((hmem a).mp ha) with hbefore | hlast
  · exact (List.pairwise_append.mp hsorted).2.2 a hbefore last List.mem_cons_self
  · rw [List.mem_singleton.mp hlast]

theorem advanceEpochs_pairwise (advances : List StateAdvanced) :
    (advanceEpochs advances).Pairwise (· < ·) := by
  have hsorted := List.pairwise_insertionSort (· ≤ ·) (advances.map StateAdvanced.epoch).dedup
  have hnodup : (advanceEpochs advances).Nodup :=
    (List.perm_insertionSort _ _).nodup_iff.mpr (List.nodup_dedup _)
  exact (hsorted.and hnodup).imp fun h => Nat.lt_of_le_of_ne h.1 h.2

/-- Where the scan is silent, an epoch is served exactly when it has advances. -/
theorem Reports.served_iff (h : Reports views advances contexts)
    (hscan : (contextParentContinuity advances contexts).problems = []) :
    views.Served epoch ↔ epoch ∈ advanceEpochs advances := by
  rw [mem_advanceEpochs_iff]
  constructor
  · rintro ⟨-, hcount⟩ hnil
    rw [h.count, hnil] at hcount
    exact hcount rfl
  · intro hne
    obtain ⟨first, context, hcont⟩ := (contextParentContinuity_iff _ _).mp hscan epoch hne
    refine ⟨(h.has_context epoch).mpr hcont.has_context, ?_⟩
    rw [h.count]
    exact List.length_pos_iff.mpr hne |>.ne'

/-- The last advance of an epoch is what the registry's live root is. -/
theorem Reports.live_of_getLast? (h : Reports views advances contexts) {last : StateAdvanced}
    (hlast : ((epochGroup advances epoch).insertionSort IndexLe).getLast? = some last) :
    views.liveStateRoot epoch = some last.newStateRoot :=
  h.live epoch last (le_of_getLast?_sorted hlast).1 (le_of_getLast?_sorted hlast).2

theorem Reports.walkLineage_silent (h : Reports views advances contexts)
    (hscan : (contextParentContinuity advances contexts).problems = []) {backTo : Nat}
    (hback : ∀ a ∈ advances, backTo ≤ a.epoch) (hmem : epoch ∈ advanceEpochs advances) :
    ∃ steps problems, walkLineage views epoch backTo = some (steps, problems) ∧
      (problems = [] ↔ ∀ i, Previous (advanceEpochs advances) i epoch →
        views.liveStateRoot i = views.epochParentStateRoot epoch) := by
  have hserved : ∀ e, views.Served e ↔ e ∈ advanceEpochs advances := fun _ => h.served_iff hscan
  have hge : ∀ e ∈ advanceEpochs advances, backTo ≤ e := by
    intro e he
    obtain ⟨a, ha, rfl⟩ := mem_advanceEpochs.mp he
    exact hback a ha
  have hlive : ∀ e, views.Served e → ∃ live, views.liveStateRoot e = some live := by
    intro e he
    have hne := ordered_ne_nil ((hserved e).mp he)
    exact ⟨_, h.live_of_getLast? (List.getLast?_eq_some_getLast hne)⟩
  obtain ⟨expected, hparent⟩ := h.answers epoch ((hserved epoch).mpr hmem).1
  obtain ⟨steps, problems, hwalk, hiff⟩ := @walkBack_silent views epoch backTo expected
    (epoch - backTo) h.answers hlive
  refine ⟨steps, problems, by rw [walkLineage, hparent]; exact hwalk, ?_⟩
  rw [hiff, Nat.add_sub_of_le (hge epoch hmem), hparent]
  constructor
  · rintro hall i ⟨hi, hlt, hbetween⟩
    refine hall i (hge i hi) hlt ((hserved i).mpr hi) fun later hgt hlt' hlater => ?_
    have := hbetween later ((hserved later).mp hlater)
    omega
  · intro hall i _ hlt hi hnone
    refine hall i ⟨(hserved i).mp hi, hlt, fun later hlater => ?_⟩
    by_contra hout
    rw [not_or] at hout
    exact hnone later (by omega) (by omega) ((hserved later).mpr hlater)

/-- The link between two epochs is the registry's: the one ends where the other's context starts. -/
theorem Reports.link_iff (h : Reports views advances contexts)
    (hscan : (contextParentContinuity advances contexts).problems = []) {i j : Nat}
    (hi : i ∈ advanceEpochs advances) (hj : j ∈ advanceEpochs advances) :
    (∀ x ∈ ((epochGroup advances i).insertionSort IndexLe).getLast?,
      ∀ y ∈ ((epochGroup advances j).insertionSort IndexLe).head?, BuildsOn x y) ↔
        views.liveStateRoot i = views.epochParentStateRoot j := by
  obtain ⟨first, context, hcontj⟩ :=
    (contextParentContinuity_iff _ _).mp hscan j (mem_advanceEpochs_iff.mp hj)
  obtain ⟨rest, hordered⟩ := hcontj.ordered
  obtain ⟨last, hlast⟩ : ∃ last,
      ((epochGroup advances i).insertionSort IndexLe).getLast? = some last :=
    ⟨_, List.getLast?_eq_some_getLast (ordered_ne_nil hi)⟩
  rw [hordered, hlast, h.live_of_getLast? hlast, h.parent j _ hcontj.contextParent,
    ← hcontj.first_parent]
  simp [BuildsOn, eq_comm]

end History

/-- **One chain of roots.** Where the scan reports nothing, every walk from an epoch with advances
returns, and none of them finds a break exactly when all advances, epoch by epoch and index by
index, build on one another. -/
theorem walks_silent_iff_chained (views : RegistryViews) (advances : List StateAdvanced)
    (contexts : List EpochContextSet) (backTo : Nat) (h : Reports views advances contexts)
    (hscan : (contextParentContinuity advances contexts).problems = [])
    (hback : ∀ a ∈ advances, backTo ≤ a.epoch) :
    (∀ epoch ∈ advanceEpochs advances, ∃ steps problems,
        walkLineage views epoch backTo = some (steps, problems)) ∧
      ((∀ epoch ∈ advanceEpochs advances, ∃ steps,
          walkLineage views epoch backTo = some (steps, [])) ↔
        List.IsChain BuildsOn (history advances)) := by
  have hwithin : ∀ e ∈ advanceEpochs advances,
      List.IsChain BuildsOn ((epochGroup advances e).insertionSort IndexLe) := by
    intro e he
    obtain ⟨first, context, hcont⟩ :=
      (contextParentContinuity_iff _ _).mp hscan e (mem_advanceEpochs_iff.mp he)
    exact hcont.isChain
  have hwalk : ∀ e ∈ advanceEpochs advances, (∃ steps, walkLineage views e backTo =
      some (steps, [])) ↔ ∀ i, Previous (advanceEpochs advances) i e →
        views.liveStateRoot i = views.epochParentStateRoot e := by
    intro e he
    obtain ⟨steps, problems, hwalk, hiff⟩ := h.walkLineage_silent hscan hback he
    rw [hwalk, ← hiff]
    simp
  refine ⟨fun e he => ?_, ?_⟩
  · obtain ⟨steps, problems, hwalk, -⟩ := h.walkLineage_silent hscan hback he
    exact ⟨steps, problems, hwalk⟩
  rw [history, isChain_flatMap fun _ => ordered_ne_nil,
    isChain_iff_previous (advanceEpochs_pairwise advances)]
  constructor
  · intro hsilent
    refine ⟨hwithin, fun j hj i hi => ?_⟩
    exact (h.link_iff hscan hi.1 hj).mpr ((hwalk j hj).mp (hsilent j hj) i hi)
  · rintro ⟨-, hlinks⟩ e he
    exact (hwalk e he).mpr fun i hi => (h.link_iff hscan hi.1 he).mp (hlinks e he i hi)

/-- Two advances of epoch 1 and one of epoch 3, with an epoch between them. -/
def servedAdvances : List StateAdvanced :=
  [advanceAt 0 5, advanceAt 1 6, { advanceAt 2 9 with epoch := 3, transitionIndex := 0 }]

def servedContexts : List EpochContextSet :=
  [contextAt 4, { contextAt 8 with epoch := 3, parentStateRoot := [2] }]

def servedViews : RegistryViews where
  epochParentStateRoot := fun e => if e = 1 then some [0] else if e = 3 then some [2] else none
  epochHasContext := fun e => e = 1 ∨ e = 3
  transitionCount := fun e => if e = 1 then 2 else if e = 3 then 1 else 0
  epochFinalized := fun e => e = 1
  liveStateRoot := fun e => if e = 1 then some [2] else if e = 3 then some [3] else none

theorem servedViews_reports : Reports servedViews servedAdvances servedContexts where
  has_context := by
    intro epoch
    constructor
    · intro h
      rcases of_decide_eq_true h with rfl | rfl
      · exact ⟨_, List.mem_cons_self, rfl⟩
      · exact ⟨_, List.mem_cons_of_mem _ List.mem_cons_self, rfl⟩
    · rintro ⟨ctx, hmem, rfl⟩
      rcases List.mem_cons.mp hmem with rfl | hmem
      · rfl
      · rw [List.mem_singleton.mp hmem]
        rfl
  count := by
    intro epoch
    by_cases h1 : epoch = 1
    · subst h1
      rfl
    · by_cases h3 : epoch = 3
      · subst h3
        rfl
      · have hgroup : epochGroup servedAdvances epoch = [] :=
          List.filter_eq_nil_iff.mpr (by simp [servedAdvances, advanceAt, Ne.symm h1, Ne.symm h3])
        rw [hgroup]
        simp only [servedViews, if_neg h1, if_neg h3, List.length_nil]
  answers := by
    intro epoch h
    rcases of_decide_eq_true h with rfl | rfl
    · exact ⟨_, rfl⟩
    · exact ⟨_, rfl⟩
  parent := by
    intro epoch parent h
    by_cases h1 : epoch = 1
    · subst h1
      exact h
    · by_cases h3 : epoch = 3
      · subst h3
        exact h
      · have hnone : epochContexts servedContexts epoch = [] :=
          List.eq_nil_iff_forall_not_mem.mpr fun ctx hctx => by
            obtain ⟨hmem, hepoch⟩ := mem_epochContexts.mp hctx
            rcases List.mem_cons.mp hmem with rfl | hmem
            · exact h1 hepoch.symm
            · rw [List.mem_singleton.mp hmem] at hepoch
              exact h3 hepoch.symm
        simp [epochContinuity, hnone] at h
  live := by
    intro epoch last hlast hmax
    obtain ⟨hmem, hepoch⟩ := List.mem_filter.mp hlast
    obtain rfl := of_decide_eq_true hepoch
    rcases List.mem_cons.mp hmem with rfl | hmem
    · exact absurd (hmax (advanceAt 1 6) (by decide)) (by decide)
    · rcases List.mem_cons.mp hmem with rfl | hmem
      · rfl
      · rw [List.mem_singleton.mp hmem]
        rfl

/-- Epoch 3 builds on what epoch 1 ended with. -/
theorem walks_silent_iff_chained_sample :
    ∃ steps, walkLineage servedViews 3 1 = some (steps, []) :=
  (walks_silent_iff_chained servedViews servedAdvances servedContexts 1 servedViews_reports
    (by decide) (by decide)).2.mpr (by decide) 3 (by decide)

end CoreTex.Scan
