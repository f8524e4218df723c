import CoreTex.EpochFrontier.Rotation
import Mathlib.Algebra.Order.Ring.Rat
import Mathlib.Data.Nat.Cast.Order.Ring

/-!
# CoreTex.EpochFrontier.Invariant

The invariants of an epoch frontier over whole runs, for injections that repeat no new id.
-/

namespace CoreTex.EpochFrontier

open CoreTex.Lib

variable (sha256 : Text → Bytes) (S : CompareSort) {N : JsNumbers} (p : EpochFrontierParams N)

/-- A frontier in a run: the ids supplied so far, the activations so far, in order, and the
state. -/
structure Config (N : JsNumbers) where
  supplied : List Text
  activations : List Text
  state : FrontierState N

/-- The configuration a frontier is made in. -/
def made : Config N where
  supplied := p.evalHiddenIds
  activations := []
  state := (makeEpochFrontier sha256 S p).state

/-- The window of the frontier that is made. -/
def madeWindow : Int :=
  (makeEpochFrontier sha256 S p).K

/-- Runs of steps, and of injections that repeat no id that is new. -/
inductive Run : Config N → Config N → Prop
  | refl (c : Config N) : Run c c
  | step {c c' : Config N} (h : Run c c') (epoch : Int)
      (prevHonestAccepts prevQualityAttempts : Option N.Num) :
      Run c
        { supplied := c'.supplied
          activations := c'.activations ++ (stepEpoch sha256 S p (madeWindow sha256 S p) c'.state
            epoch prevHonestAccepts prevQualityAttempts).activatedIds
          state := (stepEpoch sha256 S p (madeWindow sha256 S p) c'.state
            epoch prevHonestAccepts prevQualityAttempts).state }
  | add {c c' : Config N} (h : Run c c') (newIds : List Text)
      (familyOfFn : Text → Option Text)
      (hnew : (newIds.filter fun id => id ∉ c'.supplied).Nodup) :
      Run c
        { supplied := c'.supplied ++ newIds
          activations := c'.activations
          state := (addReserveIds sha256 S p newIds familyOfFn c'.state).1 }

/-- What holds of a configuration. -/
structure Sound (c : Config N) : Prop where
  rotates : Rotates c.state
  supplied : ∀ id, id ∈ c.state.order ↔ id ∈ c.supplied
  activations : c.activations = c.state.order.take c.state.reservePtr
  window : c.state.initialized = true →
    (c.state.active.length : Int) ≤ max (madeWindow sha256 S p) 0

variable {sha256 S p}

theorem sound_made (hdistinct : p.evalHiddenIds.Nodup) : Sound sha256 S p (made sha256 S p) := by
  have hperm : (interleaveFamilies sha256 S p.seedText p.familyOf p.evalHiddenIds).Perm
      p.evalHiddenIds := interleaveFamilies_perm _ _ _
  refine ⟨⟨hperm.nodup_iff.mpr hdistinct, Nat.zero_le _, .refl _, rfl, rfl, fun _ => rfl⟩,
    fun id => hperm.mem_iff, rfl, fun hinit => ?_⟩
  cases hinit

theorem Sound.step {c : Config N} (h : Sound sha256 S p c) (epoch : Int)
    (prevHonestAccepts prevQualityAttempts : Option N.Num) :
    Sound sha256 S p
      { supplied := c.supplied
        activations := c.activations ++ (stepEpoch sha256 S p (madeWindow sha256 S p) c.state
          epoch prevHonestAccepts prevQualityAttempts).activatedIds
        state := (stepEpoch sha256 S p (madeWindow sha256 S p) c.state
          epoch prevHonestAccepts prevQualityAttempts).state } := by
  have hstep := stepEpoch_stepped sha256 S p h.rotates (madeWindow sha256 S p) epoch
    prevHonestAccepts prevQualityAttempts
  generalize stepEpoch sha256 S p (madeWindow sha256 S p) c.state epoch prevHonestAccepts
    prevQualityAttempts = r at hstep ⊢
  refine ⟨hstep.rotates, fun id => ?_, ?_, fun _ => ?_⟩
  · show id ∈ r.state.order ↔ id ∈ c.supplied
    rw [hstep.order, h.supplied]
  · show c.activations ++ r.activatedIds = r.state.order.take r.state.reservePtr
    rw [hstep.order, hstep.ptr, List.take_add, h.activations]
    exact congrArg _ hstep.activatedIds
  · show (r.state.active.length : Int) ≤ max (madeWindow sha256 S p) 0
    cases hinit : c.state.initialized with
    | false =>
        have := hstep.first hinit
        omega
    | true =>
        have := hstep.later hinit
        have := h.window hinit
        omega

/-- The condition on an injection, in terms of the order. -/
theorem Sound.unseen {c : Config N} (h : Sound sha256 S p c) (newIds : List Text) :
    (newIds.filter fun id => id ∉ c.state.order) = newIds.filter fun id => id ∉ c.supplied :=
  List.filter_congr fun id _ => by simp only [h.supplied]

theorem Sound.add {c : Config N} (h : Sound sha256 S p c) {newIds : List Text}
    (hnew : (newIds.filter fun id => id ∉ c.supplied).Nodup) (familyOfFn : Text → Option Text) :
    Sound sha256 S p
      { supplied := c.supplied ++ newIds
        activations := c.activations
        state := (addReserveIds sha256 S p newIds familyOfFn c.state).1 } := by
  rw [← h.unseen] at hnew
  obtain ⟨hrotates, horder, -, hinit, hactive, -, hptr, htake⟩ :=
    addReserveIds_rotates sha256 S p h.rotates hnew familyOfFn
  generalize (addReserveIds sha256 S p newIds familyOfFn c.state).1 = s at *
  refine ⟨hrotates, fun id => ?_, ?_, fun hs => ?_⟩
  · show id ∈ s.order ↔ id ∈ c.supplied ++ newIds
    rw [horder.mem_iff, List.mem_append, List.mem_append, List.mem_filter, decide_eq_true_eq,
      h.supplied]
    tauto
  · show c.activations = s.order.take s.reservePtr
    rw [hptr, htake, h.activations]
  · show (s.active.length : Int) ≤ max (madeWindow sha256 S p) 0
    rw [hactive]
    exact h.window (hinit.symm.trans hs)

theorem Run.sound {c c' : Config N} (hrun : Run sha256 S p c c') (h : Sound sha256 S p c) :
    Sound sha256 S p c' := by
  induction hrun with
  | refl => exact h
  | step _ epoch accepts attempts ih => exact ih.step epoch accepts attempts
  | add _ newIds familyOfFn hnew ih => exact ih.add hnew familyOfFn

/-- Without an age limit a run keeps the size of the active set once it is initialised. -/
theorem Run.steady {c c' : Config N} (hrun : Run sha256 S p c c') (h : Sound sha256 S p c)
    (hinit : c.state.initialized = true)
    (hinfinite : N.isFinite (p.maxAge.getD N.infinity) = false) :
    c'.state.initialized = true ∧ c'.state.active.length = c.state.active.length := by
  induction hrun with
  | refl => exact ⟨hinit, rfl⟩
  | @step c' hrun epoch accepts attempts ih =>
      have hstep := stepEpoch_stepped sha256 S p (hrun.sound h).rotates (madeWindow sha256 S p)
        epoch accepts attempts
      exact ⟨hstep.initialized, (hstep.steady ih.1 hinfinite).trans ih.2⟩
  | @add c' hrun newIds familyOfFn hnew ih =>
      have hsound := hrun.sound h
      rw [← hsound.unseen] at hnew
      obtain ⟨-, -, -, hinit', hactive, -⟩ :=
        addReserveIds_rotates sha256 S p hsound.rotates hnew familyOfFn
      refine ⟨hinit'.trans ih.1, ?_⟩
      show (addReserveIds sha256 S p newIds familyOfFn c'.state).1.active.length = _
      rw [hactive, ih.2]

/-! ### The invariants -/

variable (sha256 S p)

/-- The invariants of an epoch frontier in a configuration. -/
structure EpochInvariant (c : Config N) : Prop where
  order_nodup : c.state.order.Nodup
  active_retired : c.state.activeIds.Disjoint c.state.retired
  active_reserve : c.state.activeIds.Disjoint c.state.reserve
  retired_reserve : c.state.retired.Disjoint c.state.reserve
  together : ∀ id, id ∈ c.state.activeIds ∨ id ∈ c.state.retired ∨ id ∈ c.state.reserve ↔
    id ∈ c.supplied
  activated_once : c.activations.Nodup
  activations : ∀ id, id ∈ c.activations ↔ id ∈ c.state.activeIds ∨ id ∈ c.state.retired
  cumulativeActivated :
    c.state.cumulativeActivated = c.state.active.length + c.state.retired.length
  cumulativeRetired : c.state.cumulativeRetired = c.state.retired.length
  reserveRemaining : (c.state.order.length : Int) - c.state.reservePtr =
    (c.supplied.dedup.filter fun id => id ∉ c.activations).length
  window : c.state.initialized = true →
    (c.state.active.length : Int) ≤ max (madeWindow sha256 S p) 0
  added : ∀ (newIds : List Text) (familyOfFn : Text → Option Text),
    (newIds.filter fun id => id ∉ c.supplied).Nodup →
      (addReserveIds sha256 S p newIds familyOfFn c.state).2 =
        (newIds.filter fun id => id ∉ c.supplied).length

variable {sha256 S p}

theorem Sound.invariant {c : Config N} (h : Sound sha256 S p c) :
    EpochInvariant sha256 S p c := by
  have hr := h.rotates
  have hsides := hr.nodup_activated
  have hmem : ∀ id, id ∈ c.activations ↔ id ∈ c.state.activeIds ∨ id ∈ c.state.retired := by
    intro id
    rw [h.activations, ← hr.activated.mem_iff, List.mem_append]
  have hsplit : (c.activations ++ c.state.reserve).Nodup := by
    rw [h.activations, FrontierState.reserve, List.take_append_drop]
    exact hr.nodup
  have happart : ∀ id ∈ c.activations, id ∉ c.state.reserve := fun id hact hres =>
    (List.nodup_append.mp hsplit).2.2 id hact id hres rfl
  have hall : ∀ id, id ∈ c.state.order ↔ id ∈ c.activations ∨ id ∈ c.state.reserve := by
    intro id
    rw [h.activations, FrontierState.reserve, ← List.mem_append, List.take_append_drop]
  refine
    { order_nodup := hr.nodup
      active_retired := fun id ha hb => (List.nodup_append.mp hsides).2.2 id ha id hb rfl
      active_reserve := fun id ha => happart id ((hmem id).mpr (.inl ha))
      retired_reserve := fun id ha => happart id ((hmem id).mpr (.inr ha))
      together := fun id => by rw [← or_assoc, ← hmem, ← hall, h.supplied]
      activated_once := (List.nodup_append.mp hsplit).1
      activations := hmem
      cumulativeActivated := by rw [hr.cumulativeActivated, hr.length]
      cumulativeRetired := hr.cumulativeRetired
      reserveRemaining := ?_
      window := h.window
      added := fun newIds familyOfFn hnew => ?_ }
  · have hperm : c.state.reserve.Perm
        (c.supplied.dedup.filter fun id => id ∉ c.activations) := by
      refine (List.perm_ext_iff_of_nodup (List.nodup_append.mp hsplit).2.1
        (c.supplied.nodup_dedup.filter _)).mpr fun id => ?_
      rw [List.mem_filter, List.mem_dedup, decide_eq_true_eq, ← h.supplied, hall]
      constructor
      · intro hres
        exact ⟨.inr hres, fun hact => happart id hact hres⟩
      · rintro ⟨hact | hres, hnot⟩
        · exact absurd hact hnot
        · exact hres
    have hlength := hperm.length_eq
    have hle := hr.ptr_le
    rw [FrontierState.reserve, List.length_drop] at hlength
    omega
  · rw [← h.unseen] at hnew
    obtain ⟨-, -, hcount, -⟩ := addReserveIds_rotates sha256 S p hr hnew familyOfFn
    rw [hcount, h.unseen]

/-- A step reports the state it leaves and the ids it activates. -/
theorem stepEpoch_snapshot (sha256 : Text → Bytes) (S : CompareSort)
    (p : EpochFrontierParams N) (K : Int) (s : FrontierState N) (epoch : Int)
    (prevHonestAccepts prevQualityAttempts : Option N.Num) :
    let r := stepEpoch sha256 S p K s epoch prevHonestAccepts prevQualityAttempts
    ∃ ret rate,
      r.snapshot = snapshot sha256 S p r.state epoch r.activatedIds.length ret rate := by
  intro r
  have hr : r = stepEpoch sha256 S p K s epoch prevHonestAccepts prevQualityAttempts := rfl
  rw [stepEpoch] at hr
  split at hr
  · exact ⟨_, _, by rw [hr]; rfl⟩
  · dsimp only at hr
    split at hr
    · exact ⟨_, _, by rw [hr]; rfl⟩
    · exact ⟨_, _, by rw [hr]; rfl⟩

/-- **Epoch frontier invariants**, over every run whose injections repeat no new id: they hold
in every configuration, every snapshot reports them, and without an age limit the active set
keeps its size from the first step on. -/
theorem epochFrontier_invariants {N : JsNumbers} (sha256 : Text → Bytes) (S : CompareSort)
    (p : EpochFrontierParams N) (hdistinct : p.evalHiddenIds.Nodup) (c : Config N)
    (hrun : Run sha256 S p (made sha256 S p) c) :
    EpochInvariant sha256 S p c ∧
      (∀ epoch accepts attempts,
        let r := stepEpoch sha256 S p (madeWindow sha256 S p) c.state epoch accepts attempts
        r.snapshot.reserveRemaining = (r.state.order.length : Int) - r.state.reservePtr ∧
          r.snapshot.cumulativeActivated = r.state.cumulativeActivated ∧
          r.snapshot.cumulativeRetired = r.state.cumulativeRetired ∧
          r.snapshot.activeIds = r.state.activeIds ∧
          r.snapshot.activeEvalHiddenCount = r.state.active.length) ∧
      (c.state.initialized = true → N.isFinite (p.maxAge.getD N.infinity) = false →
        ∀ c', Run sha256 S p c c' → c'.state.active.length = c.state.active.length) := by
  have hsound := hrun.sound (sound_made hdistinct)
  refine ⟨hsound.invariant, fun epoch accepts attempts => ?_, fun hinit hinfinite c' hrun' =>
    (hrun'.steady hsound hinit hinfinite).2⟩
  intro r
  obtain ⟨ret, rate, hreport⟩ := stepEpoch_snapshot sha256 S p
    (madeWindow sha256 S p) c.state epoch accepts attempts
  rw [show r.snapshot = _ from hreport]
  exact ⟨rfl, rfl, rfl, rfl, rfl⟩

/-! ### A sample frontier -/

/-- Exact arithmetic with an infinity, for numbers that need no rounding and no power. -/
def sampleMin : Option Rat → Option Rat → Option Rat
  | none, y => y
  | x, none => x
  | some x, some y => some (if x ≤ y then x else y)

def sampleLt : Option Rat → Option Rat → Bool
  | some x, some y => decide (x < y)
  | some _, none => true
  | none, _ => false

theorem sampleLt_min (j m : Nat) (x : Option Rat)
    (h : sampleLt (some j) (sampleMin x (some m)) = true) : j < m := by
  cases x with
  | none => exact Nat.cast_lt.mp (of_decide_eq_true h)
  | some x =>
      have hlt := of_decide_eq_true (p := (j : Rat) < if x ≤ m then x else m) h
      by_cases hx : x ≤ (m : Rat)
      · rw [if_pos hx] at hlt
        exact Nat.cast_lt.mp (hlt.trans_le hx)
      · rw [if_neg hx] at hlt
        exact Nat.cast_lt.mp hlt

def sampleNumbers : JsNumbers where
  Num := Option Rat
  lit := some
  infinity := none
  isFinite := Option.isSome
  lt := sampleLt
  le x y := ! sampleLt y x
  beq x y := decide (x = y)
  add x y := x.bind fun x => y.map (x + ·)
  sub x y := x.bind fun x => y.map (x - ·)
  mul x y := x.bind fun x => y.map (x * ·)
  div x y := x.bind fun x => y.map (x / ·)
  pow x _ := x
  min := sampleMin
  max x y := if sampleLt x y then y else x
  ceil x := x.map fun x => (x.ceil : Rat)
  lt_min := sampleLt_min

/-- Two ids, a window of one, and one id of churn in every epoch. -/
def sampleParams : EpochFrontierParams sampleNumbers where
  evalHiddenIds := [[97], [98]]
  familyOf _ := none
  mode := some .C1
  activeWindow := some 1
  churnRate := some (some 1)
  maxAge := none
  lowAdvancesThreshold := none
  lowAdvancesBumpRate := none
  seed := none
  minChurn := none
  maxChurn := none
  targetAccepts := none
  headroomLowWatermark := none
  headroomHighWatermark := none
  ewmaHalfLife := none
  expectedYieldPerUnit := none
  maxRootDeltaPerEpoch := none

theorem nodup_sampleParams : sampleParams.evalHiddenIds.Nodup := by
  decide

/-- `epochFrontier_invariants` after a step and an injection. -/
theorem epochFrontier_invariants_sample : ∃ c, Run (fun _ => []) .merge sampleParams
    (made (fun _ => []) .merge sampleParams) c ∧ c.supplied = [[97], [98], [99]] ∧
      EpochInvariant (fun _ => []) .merge sampleParams c := by
  have hrefl : Run (fun _ => []) .merge sampleParams (made (fun _ => []) .merge sampleParams)
      (made (fun _ => []) .merge sampleParams) := .refl _
  have hrun := (hrefl.step 0 none none).add [[99]] (fun _ => none) (by decide)
  exact ⟨_, hrun, rfl,
    (epochFrontier_invariants (fun _ => []) .merge sampleParams nodup_sampleParams _ hrun).1⟩

/-- A new id that is injected twice stands in the order twice, and counts twice. -/
theorem addReserveIds_repeated :
    let s := (made (fun _ => []) .merge sampleParams).state
    let r := addReserveIds (fun _ => []) .merge sampleParams [[99], [99]] (fun _ => none) s
    r.2 = 2 ∧ ¬ r.1.order.Nodup := by
  intro s r
  have hsound : Sound (fun _ => []) .merge sampleParams
      (made (fun _ => []) .merge sampleParams) := sound_made nodup_sampleParams
  have hnew : [99] ∉ s.order := by
    rw [hsound.supplied]
    decide
  have hunseen : ([[99], [99]].filter fun id => ¬ s.active.has id ∧ id ∉ s.retired ∧
      id ∉ s.order) = [[99], [99]] := by
    rw [unseen_eq hsound.rotates]
    exact List.filter_eq_self.mpr fun id hid => by
      obtain rfl : id = [99] := by simpa using hid
      exact decide_eq_true hnew
  have hr : r = addReserveIds (fun _ => []) .merge sampleParams [[99], [99]] (fun _ => none) s :=
    rfl
  rw [addReserveIds, hunseen] at hr
  rw [hr]
  refine ⟨rfl, fun hnodup => ?_⟩
  have hsegment : (interleaveFamilies (fun _ => []) .merge sampleParams.seedText (fun _ => none)
      [[99], [99]]).Perm [[99], [99]] := interleaveFamilies_perm _ _ _
  have hsub : (interleaveFamilies (fun _ => []) .merge sampleParams.seedText (fun _ => none)
      [[99], [99]]).Nodup := (List.nodup_append.mp (List.nodup_append.mp hnodup).1).2.1
  exact absurd (hsegment.nodup_iff.mp hsub) (by decide)

end CoreTex.EpochFrontier
