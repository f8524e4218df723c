import CoreTex.Join.Join
import CoreTex.Lib.Sort
import Mathlib.Data.List.Range

/-!
# CoreTex.Scan.Continuity

Context and parent continuity of a scan (`context_parent_continuity` in `rig_events.py`).

The history of an epoch is read in the order of its transition indices, not of its log
positions; log positions only place the epoch's contexts around the advance with the
lowest index. `EpochContinuous` says, with no sorting, what an epoch looks like when nothing
is reported, and `contextParentContinuity_iff` that this is exactly what the scan decides.
-/

namespace CoreTex.Scan

open CoreTex.Lib CoreTex.Join

/-! ### Events and positions -/

/-- `EpochContextSet`. -/
structure EpochContextSet where
  epoch : Nat
  parentStateRoot : PyStr
  epochContextRoot : PyStr
  coreVersionHash : PyStr
  provenance : LogProvenance
  deriving DecidableEq, Repr

/-- `LogProvenance.position`: an absent value sorts last. -/
def position (provenance : LogProvenance) : Nat × Nat :=
  (provenance.blockNumber.getD (2 ^ 62), provenance.logIndex.getD (2 ^ 62))

/-- `<` on positions, as tuples compare. -/
def Earlier (a b : Nat × Nat) : Prop :=
  a.1 < b.1 ∨ a.1 = b.1 ∧ a.2 < b.2

instance : DecidableRel Earlier := fun a b =>
  inferInstanceAs (Decidable (a.1 < b.1 ∨ a.1 = b.1 ∧ a.2 < b.2))

theorem Earlier.trans {a b c : Nat × Nat} (hab : Earlier a b) (hbc : Earlier b c) :
    Earlier a c := by
  unfold Earlier at *
  omega

/-- A context is confirmed no later than another. -/
def ContextLe (a b : EpochContextSet) : Prop :=
  ¬ Earlier (position b.provenance) (position a.provenance)

instance : DecidableRel ContextLe := fun a b =>
  inferInstanceAs (Decidable (¬ Earlier (position b.provenance) (position a.provenance)))

instance : Std.Total ContextLe where
  total a b := by
    unfold ContextLe Earlier
    omega

instance : IsTrans EpochContextSet ContextLe where
  trans a b c := by
    unfold ContextLe Earlier
    omega

def IndexLe (a b : StateAdvanced) : Prop :=
  a.transitionIndex ≤ b.transitionIndex

instance : DecidableRel IndexLe := fun a b =>
  inferInstanceAs (Decidable (a.transitionIndex ≤ b.transitionIndex))

instance : Std.Total IndexLe where
  total a b := Nat.le_total a.transitionIndex b.transitionIndex

instance : IsTrans StateAdvanced IndexLe where
  trans _ _ _ := Nat.le_trans

/-! ### The report -/

/-- What `context_parent_continuity` returns. -/
structure ContinuityReport where
  operationalContextParents : List (String × PyStr)
  problems : List String
  constructorGenesisUsedAsStateAuthority : Bool

/-- One problem, when its condition holds. -/
def problemIf (condition : Prop) [Decidable condition] (problem : String) : List String :=
  if condition then [problem] else []

@[simp] theorem problemIf_eq_nil {condition : Prop} [Decidable condition] {problem : String} :
    problemIf condition problem = [] ↔ ¬ condition := by
  simp [problemIf]

/-- The loop over an epoch's advances in index order. -/
def advanceProblems (epoch : Nat) (context : EpochContextSet) :
    List StateAdvanced → PyStr → Nat → List String
  | [], _, _ => []
  | advance :: rest, expectedParent, expectedIndex =>
    let index := advance.transitionIndex
    let before := (expectedIndex : Int) - 1
    let parent := text advance.parentStateRoot
    let expected := text expectedParent
    let carried := text advance.epochContextRoot
    let contextRoot := text context.epochContextRoot
    let core := text advance.coreVersionHash
    let contextCore := text context.coreVersionHash
    problemIf (index ≠ expectedIndex) (s!"epoch {epoch} transition index {index} follows " ++
        s!"{before}; the accepted history is not dense") ++
      problemIf (advance.parentStateRoot ≠ expectedParent)
        (s!"epoch {epoch} transition {index} builds on " ++
          s!"{parent}, expected live root {expected}") ++
      problemIf (advance.epochContextRoot ≠ context.epochContextRoot)
        (s!"epoch {epoch} transition {index} carries epoch context " ++
          s!"{carried}, confirmed context is " ++ s!"{contextRoot}") ++
      problemIf (advance.coreVersionHash ≠ context.coreVersionHash)
        (s!"epoch {epoch} transition {index} carries core version " ++
          s!"{core}, confirmed context is " ++ s!"{contextCore}") ++
      advanceProblems epoch context rest advance.newStateRoot (advance.transitionIndex + 1)

/-- The contexts of an epoch, in log order. -/
def epochContexts (contexts : List EpochContextSet) (epoch : Nat) : List EpochContextSet :=
  (contexts.filter fun ctx => ctx.epoch = epoch).insertionSort ContextLe

/-- One epoch: its context parent, when it has one, and its problems. -/
def epochContinuity (contexts : List EpochContextSet) (epoch : Nat)
    (group : List StateAdvanced) : Option PyStr × List String :=
  let ordered := group.insertionSort IndexLe
  let contexts := epochContexts contexts epoch
  if contexts = [] then
    (none, [s!"epoch {epoch} has accepted transitions but no confirmed CoreTexEpochContextSet"])
  else
    match ordered with
    | [] => (none, [])
    | first :: _ =>
      let start := position first.provenance
      match (contexts.filter fun ctx => Earlier (position ctx.provenance) start).getLast? with
      | none => (none, [s!"epoch {epoch}'s context was not confirmed before its first transition"])
      | some context =>
        let index := first.transitionIndex
        let parent := text first.parentStateRoot
        let contextParent := text context.parentStateRoot
        (some context.parentStateRoot,
          problemIf ((contexts.filter fun ctx => Earlier start (position ctx.provenance)) ≠ [])
              s!"epoch {epoch} published a replacement context after state activity began" ++
            problemIf (first.transitionIndex ≠ 0)
              (s!"epoch {epoch}'s first observed transition is index {index}, " ++
                "not index 0; a deployment-block scan must not invent the missing prefix") ++
            problemIf (first.parentStateRoot ≠ context.parentStateRoot)
              (s!"epoch {epoch}'s first transition builds on {parent}, but its " ++
                s!"confirmed context parent is {contextParent}") ++
            advanceProblems epoch context ordered context.parentStateRoot 0)

/-- The epochs that have advances, in ascending order. -/
def advanceEpochs (advances : List StateAdvanced) : List Nat :=
  (advances.map StateAdvanced.epoch).dedup.insertionSort (· ≤ ·)

/-- The advances of one epoch, in scan order. -/
def epochGroup (advances : List StateAdvanced) (epoch : Nat) : List StateAdvanced :=
  advances.filter fun advance => advance.epoch = epoch

/-- `context_parent_continuity`. -/
def contextParentContinuity (advances : List StateAdvanced) (contexts : List EpochContextSet) :
    ContinuityReport :=
  let epochs := (advanceEpochs advances).map fun epoch =>
    (epoch, epochContinuity contexts epoch (epochGroup advances epoch))
  { operationalContextParents := epochs.filterMap fun e => e.2.1.map (toString e.1, ·)
    problems := epochs.flatMap fun e => e.2.2
    constructorGenesisUsedAsStateAuthority := false }

/-! ### What a continuous epoch is -/

/-- The advance carries the context's pins. -/
def Carries (context : EpochContextSet) (advance : StateAdvanced) : Prop :=
  advance.epochContextRoot = context.epochContextRoot ∧
    advance.coreVersionHash = context.coreVersionHash

/-- `context` governs what starts at `start`: it is confirmed before, nothing confirmed
before `start` is later, and of the contexts at its own position it is the scan's last. -/
def Governs (contexts : List EpochContextSet) (epoch : Nat) (start : Nat × Nat)
    (context : EpochContextSet) : Prop :=
  ∃ earlier later, (contexts.filter fun ctx => ctx.epoch = epoch ∧
      Earlier (position ctx.provenance) start) = earlier ++ context :: later ∧
    (∀ ctx ∈ earlier, ContextLe ctx context) ∧ ∀ ctx ∈ later, ¬ ContextLe context ctx

/-- Dense indices, a chain of roots from the governing context's parent, and its pins. -/
structure EpochContinuous (contexts : List EpochContextSet) (epoch : Nat)
    (group : List StateAdvanced) (first : StateAdvanced) (context : EpochContextSet) : Prop where
  dense : (group.map StateAdvanced.transitionIndex).Perm (List.range group.length)
  first_mem : first ∈ group
  first_index : first.transitionIndex = 0
  first_parent : first.parentStateRoot = context.parentStateRoot
  governs : Governs contexts epoch (position first.provenance) context
  not_replaced : ∀ ctx ∈ contexts, ctx.epoch = epoch →
    ¬ Earlier (position first.provenance) (position ctx.provenance)
  chained : ∀ a ∈ group, ∀ b ∈ group, b.transitionIndex = a.transitionIndex + 1 →
    b.parentStateRoot = a.newStateRoot
  carries : ∀ a ∈ group, Carries context a

/-! ### The loop -/

/-- The loop is silent on dense, chained advances that carry the context's pins. -/
theorem advanceProblems_eq_nil {epoch : Nat} {context : EpochContextSet}
    {ordered : List StateAdvanced} {parent : PyStr} {index : Nat} :
    advanceProblems epoch context ordered parent index = [] ↔
      ordered.map StateAdvanced.transitionIndex = List.range' index ordered.length ∧
        (∀ a ∈ ordered, a.transitionIndex = index → a.parentStateRoot = parent) ∧
        (∀ a ∈ ordered, ∀ b ∈ ordered, b.transitionIndex = a.transitionIndex + 1 →
          b.parentStateRoot = a.newStateRoot) ∧
        ∀ a ∈ ordered, Carries context a := by
  induction ordered generalizing parent index with
  | nil => simp [advanceProblems]
  | cons advance rest ih =>
      have hbounds : rest.map StateAdvanced.transitionIndex =
          List.range' (index + 1) rest.length → ∀ a ∈ rest, index < a.transitionIndex := by
        intro hrest a ha
        have hmem : a.transitionIndex ∈ List.range' (index + 1) rest.length :=
          hrest ▸ List.mem_map_of_mem ha
        have := List.mem_range'_1.mp hmem
        omega
      simp only [advanceProblems, List.append_eq_nil_iff, problemIf_eq_nil, not_not, ih,
        List.map_cons, List.length_cons, List.range'_succ, List.cons.injEq,
        List.forall_mem_cons]
      constructor
      · rintro ⟨⟨⟨⟨rfl, rfl⟩, hcontext⟩, hcore⟩, hdense, hhead, hchained, hcarries⟩
        have hlt := hbounds hdense
        refine ⟨⟨rfl, hdense⟩, ⟨fun _ => rfl, fun a ha heq => ?_⟩, ⟨⟨?_, hhead⟩, ?_⟩,
          ⟨hcontext, hcore⟩, hcarries⟩
        · have := hlt a ha
          omega
        · intro heq
          omega
        · intro a ha
          refine ⟨fun heq => ?_, hchained a ha⟩
          have := hlt a ha
          omega
      · rintro ⟨⟨rfl, hdense⟩, ⟨hparent, -⟩, ⟨⟨-, hhead⟩, hchained⟩, hcarries, hrest⟩
        exact ⟨⟨⟨⟨rfl, hparent rfl⟩, hcarries.1⟩, hcarries.2⟩, hdense, hhead,
          fun a ha => (hchained a ha).2, hrest⟩

/-- Advances in index order have the indices `0..n-1` when the group does, in some order. -/
theorem dense_insertionSort (group : List StateAdvanced) :
    (group.insertionSort IndexLe).map StateAdvanced.transitionIndex =
        List.range' 0 (group.insertionSort IndexLe).length ↔
      (group.map StateAdvanced.transitionIndex).Perm (List.range group.length) := by
  have hperm := List.perm_insertionSort IndexLe group
  rw [← List.range_eq_range', hperm.length_eq]
  constructor
  · intro h
    rw [← h]
    exact (hperm.map _).symm
  · intro h
    have hsorted : ((group.insertionSort IndexLe).map StateAdvanced.transitionIndex).Pairwise
        (· ≤ ·) := List.pairwise_map.mpr (List.pairwise_insertionSort IndexLe group)
    refine List.Perm.eq_of_pairwise ?_ hsorted (List.pairwise_lt_range.imp Nat.le_of_lt)
      ((hperm.map _).trans h)
    intro a b _ _ hab hba
    exact Nat.le_antisymm hab hba

/-! ### The governing context -/

theorem governs_iff {contexts : List EpochContextSet} {epoch : Nat} {start : Nat × Nat}
    {context : EpochContextSet} :
    ((epochContexts contexts epoch).filter fun ctx =>
        Earlier (position ctx.provenance) start).getLast? = some context ↔
      Governs contexts epoch start context := by
  rw [epochContexts, filter_insertionSort, getLast?_insertionSort, Governs, List.filter_filter]
  simp only [← Bool.decide_and, and_comm]

theorem mem_epochContexts {contexts : List EpochContextSet} {epoch : Nat}
    {ctx : EpochContextSet} :
    ctx ∈ epochContexts contexts epoch ↔ ctx ∈ contexts ∧ ctx.epoch = epoch := by
  rw [epochContexts, List.mem_insertionSort, List.mem_filter, decide_eq_true_eq]

/-! ### Epochs -/

/-- With dense indices the advance of index 0 is the first of the sorted group. -/
theorem first_of_dense {first a : StateAdvanced} {rest : List StateAdvanced}
    (hdense : (first :: rest).map StateAdvanced.transitionIndex =
      List.range' 0 (first :: rest).length)
    (ha : a ∈ first :: rest) (hzero : a.transitionIndex = 0) : a = first := by
  rw [List.map_cons, List.length_cons, List.range'_succ, List.cons.injEq] at hdense
  rcases List.mem_cons.mp ha with rfl | ha
  · rfl
  · have hmem : a.transitionIndex ∈ List.range' 1 rest.length :=
      hdense.2 ▸ List.mem_map_of_mem ha
    have := List.mem_range'_1.mp hmem
    omega

/-- Nothing is reported for an epoch exactly when it is continuous. -/
theorem epochContinuity_iff {contexts : List EpochContextSet} {epoch : Nat}
    {group : List StateAdvanced} (hgroup : group ≠ []) :
    (epochContinuity contexts epoch group).2 = [] ↔
      ∃ first context, EpochContinuous contexts epoch group first context := by
  have hperm := List.perm_insertionSort IndexLe group
  have hdense := dense_insertionSort group
  simp only [epochContinuity]
  generalize group.insertionSort IndexLe = ordered at hperm hdense
  have hmem : ∀ a, a ∈ ordered ↔ a ∈ group := fun a => hperm.mem_iff
  cases ordered with
  | nil => exact absurd hperm.nil_eq.symm hgroup
  | cons first rest =>
      by_cases hnone : epochContexts contexts epoch = []
      · simp only [hnone, if_true, List.cons_ne_nil, false_iff]
        rintro ⟨first', context, hcont⟩
        have hgoverns := governs_iff.mpr hcont.governs
        rw [hnone] at hgoverns
        cases hgoverns
      · rw [if_neg hnone]
        constructor
        · intro h
          cases hlast : ((epochContexts contexts epoch).filter fun ctx =>
              Earlier (position ctx.provenance) (position first.provenance)).getLast? with
          | none => simp [hlast] at h
          | some context =>
              simp only [hlast, List.append_eq_nil_iff, problemIf_eq_nil, not_not,
                advanceProblems_eq_nil] at h
              obtain ⟨⟨⟨hafter, hindex⟩, hparent⟩, hrange, -, hchained, hcarries⟩ := h
              refine ⟨first, context, hdense.mp hrange, (hmem first).mp List.mem_cons_self,
                hindex, hparent, governs_iff.mp hlast, ?_, ?_, ?_⟩
              · intro ctx hctx hepoch hlt
                have := List.filter_eq_nil_iff.mp hafter ctx
                  (mem_epochContexts.mpr ⟨hctx, hepoch⟩)
                exact this (decide_eq_true hlt)
              · intro a ha b hb
                exact hchained a ((hmem a).mpr ha) b ((hmem b).mpr hb)
              · intro a ha
                exact hcarries a ((hmem a).mpr ha)
        · rintro ⟨first', context, hcont⟩
          have hrange := hdense.mpr hcont.dense
          obtain rfl : first' = first :=
            first_of_dense hrange ((hmem first').mpr hcont.first_mem) hcont.first_index
          simp only [governs_iff.mpr hcont.governs, List.append_eq_nil_iff, problemIf_eq_nil,
            not_not, advanceProblems_eq_nil]
          refine ⟨⟨⟨?_, hcont.first_index⟩, hcont.first_parent⟩, hrange, ?_, ?_, ?_⟩
          · refine List.filter_eq_nil_iff.mpr fun ctx hctx hlt => ?_
            obtain ⟨hctx, hepoch⟩ := mem_epochContexts.mp hctx
            exact hcont.not_replaced ctx hctx hepoch (of_decide_eq_true hlt)
          · intro a ha hzero
            rw [first_of_dense hrange ha hzero, hcont.first_parent]
          · intro a ha b hb
            exact hcont.chained a ((hmem a).mp ha) b ((hmem b).mp hb)
          · intro a ha
            exact hcont.carries a ((hmem a).mp ha)

theorem mem_advanceEpochs {advances : List StateAdvanced} {epoch : Nat} :
    epoch ∈ advanceEpochs advances ↔ ∃ a ∈ advances, a.epoch = epoch := by
  simp [advanceEpochs, List.mem_insertionSort]

/-- **Continuity decides exactly**: no problem is reported if and only if every epoch that
has advances is continuous. -/
theorem contextParentContinuity_iff (advances : List StateAdvanced)
    (contexts : List EpochContextSet) :
    (contextParentContinuity advances contexts).problems = [] ↔
      ∀ epoch, epochGroup advances epoch ≠ [] →
        ∃ first context, EpochContinuous contexts epoch (epochGroup advances epoch) first context := by
  have hgroups : ∀ epoch, epoch ∈ advanceEpochs advances ↔ epochGroup advances epoch ≠ [] := by
    intro epoch
    rw [mem_advanceEpochs, epochGroup, Ne, List.filter_eq_nil_iff]
    simp
  simp only [contextParentContinuity, List.flatMap_eq_nil_iff, List.forall_mem_map]
  constructor
  · intro h epoch hne
    exact (epochContinuity_iff hne).mp (h epoch ((hgroups epoch).mpr hne))
  · intro h epoch hmem
    have hne := (hgroups epoch).mp hmem
    exact (epochContinuity_iff hne).mpr (h epoch hne)

/-! ### Indices against the log order -/

def PositionLe (a b : StateAdvanced) : Prop :=
  ¬ Earlier (position b.provenance) (position a.provenance)

instance : DecidableRel PositionLe := fun a b =>
  inferInstanceAs (Decidable (¬ Earlier (position b.provenance) (position a.provenance)))

/-- A continuous epoch whose indices also ascend with the log positions, and whose context is
confirmed before every one of its advances. -/
def ContinuousInLogOrder (contexts : List EpochContextSet) (epoch : Nat)
    (group : List StateAdvanced) : Prop :=
  ∃ first context, EpochContinuous contexts epoch group first context ∧
    (group.insertionSort PositionLe).map StateAdvanced.transitionIndex =
      List.range group.length ∧
    ∀ a ∈ group, Earlier (position context.provenance) (position a.provenance)

/-- A place in the log. -/
def logAt (block : Nat) : LogProvenance where
  address := none
  blockNumber := some block
  logIndex := some 0
  transactionHash := none
  transactionIndex := none
  removed := false

/-- An advance of epoch 1 from the root that spells its index to the next one. -/
def advanceAt (index block : Nat) : StateAdvanced where
  epoch := 1
  transitionIndex := index
  miner := []
  parentStateRoot := [index]
  newStateRoot := [index + 1]
  patchHash := []
  evalReportHash := []
  coreVersionHash := []
  epochContextRoot := []
  improvementCredits := 0
  transitionFormatVersion := 3
  compactPatchBytes := []
  provenance := logAt block

def contextAt (block : Nat) : EpochContextSet where
  epoch := 1
  parentStateRoot := [0]
  epochContextRoot := []
  coreVersionHash := []
  provenance := logAt block

/-- Two advances whose indices run against the log, with the context between them, are
reported as continuous. -/
theorem contextParentContinuity_against_log :
    (contextParentContinuity [advanceAt 1 5, advanceAt 0 10] [contextAt 7]).problems = [] ∧
      ¬ ContinuousInLogOrder [contextAt 7] 1 (epochGroup [advanceAt 1 5, advanceAt 0 10] 1) := by
  refine ⟨by decide, ?_⟩
  rintro ⟨first, context, -, hsorted, -⟩
  exact absurd hsorted (by decide)

end CoreTex.Scan
