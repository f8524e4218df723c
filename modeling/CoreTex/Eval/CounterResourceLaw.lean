import CoreTex.Eval.ValidateArtifact
import CoreTex.Lib.Shares

/-!
# CoreTex.Eval.CounterResourceLaw

The counter-resource law (`eval_artifact.py`): its validation, and the accounting of two measured
sides under it.

A law is a closed document, so it is a record. A measured side is any mapping: what the law reads
there may be missing or of another type. `resourcePpm_eq` says what a side comes to: the shares of
its axes, each rounded down, up to the ceiling.
-/

namespace CoreTex

open CoreTex.Lib

/-! ### The law -/

/-- `RESOURCE_AXIS_FIELDS`. -/
structure LawAxis where
  id : PyStr
  integerAxis : Bool
  source : PyStr
  unit : PyStr
  weightPpm : Int

/-- `COUNTER_LAW_FIELDS`; the utility axis is its scale and its source. -/
structure CounterResourceLaw where
  branch : PyStr
  format : PyStr
  resourceAxes : List LawAxis
  resourceNormalizer : PyStr
  resourceOverflowPolicy : PyStr
  resourcePpmMax : Int
  utilityScaleMax : Int
  utilitySource : PyStr
  utilityPpmMax : Int

def counterResourceLawFormat : String := "coretex.counter-resource-law.v1"

def fixedCapResourceNormalizer : String := "fixed_product_cap_c"

def saturatingResourceOverflowPolicy : String := "saturate_at_resource_ppm_max"

def axisPath (index : Nat) : String :=
  "resource_axes[" ++ toString index ++ "]"

/-- The loop over the axes: their texts, their weights and their ids. -/
def sumAxes (index : Nat) (seen : List PyStr) (total : Int) :
    List LawAxis → Except EvalArtifactError Int
  | [] => .ok total
  | axis :: rest => do
    checkStr axis.id (axisPath index ++ ".id")
    checkStr axis.source (axisPath index ++ ".source")
    checkStr axis.unit (axisPath index ++ ".unit")
    checkInt axis.weightPpm (axisPath index ++ ".weight_ppm") 0 micro
    refuseIf (axis.id ∈ seen) (.counterResourceLaw "resource_axes")
    sumAxes (index + 1) (axis.id :: seen) (total + axis.weightPpm) rest

/-- `validate_counter_resource_law`. -/
def validateCounterResourceLaw (law : CounterResourceLaw) : Except EvalArtifactError Unit := do
  refuseIf (law.format ≠ py counterResourceLawFormat) (.counterResourceLaw "format")
  refuseIf (law.branch ∉ selectionLabels.map fun label => py label.name)
    (.counterResourceLaw "branch")
  refuseIf (law.resourceNormalizer ≠ py fixedCapResourceNormalizer)
    (.counterResourceLaw "resource_normalizer")
  refuseIf (law.resourceOverflowPolicy ≠ py saturatingResourceOverflowPolicy)
    (.counterResourceLaw "resource_overflow_policy")
  checkInt law.resourcePpmMax "resource_ppm_max" 1 maxUint32
  checkInt law.utilityPpmMax "utility_ppm_max" 1 maxUint32
  checkStr law.utilitySource "utility_axis.source"
  checkInt law.utilityScaleMax "utility_axis.scale_max" 1 maxUint64
  refuseIf (law.resourceAxes = []) (.counterResourceLaw "resource_axes")
  let total ← sumAxes 0 [] 0 law.resourceAxes
  refuseIf (total ≠ micro) (.counterResourceLaw "resource_axes")

/-! ### Readings -/

/-- A mapping, as a side of the measurements is one. -/
abbrev Mapping := List (PyStr × Json)

/-- What an evaluation raises. -/
inductive LawError
  | keyError (key : PyStr)
  | zeroDivision
  | artifact (error : EvalArtifactError)
  deriving DecidableEq

def lawCall {α : Type} (x : Except EvalArtifactError α) : Except LawError α :=
  x.mapError .artifact

/-- `mapping[key]`. -/
def item (mapping : Mapping) (key : PyStr) : Except LawError Json :=
  match lookup mapping key with
  | none => .error (.keyError key)
  | some value => .ok value

/-- `_check_int` of any value. -/
def checkIntValue (value : Json) (field : String) : Except LawError Int :=
  match value with
  | .int n => if n < 0 ∨ maxUint64 < n then .error (.artifact (.value field)) else .ok n
  | _ => .error (.artifact (.type field))

/-- `a // b`. -/
def floorDiv (a b : Int) : Except LawError Int :=
  if b = 0 then .error .zeroDivision else .ok (a.fdiv b)

/-- The key after `resource.`. -/
def resourceKey (source : PyStr) : Option PyStr :=
  if (py "resource.").isPrefixOf source then some (source.drop 9) else none

/-- A key at the end of a field path. -/
def keyPath (path : String) (key : PyStr) : String :=
  path ++ "." ++ String.ofList (key.map Char.ofNat)

/-- `_axis_micro`. -/
def axisMicro (side : Mapping) (axis : LawAxis) (path : String) : Except LawError Int :=
  if axis.source = py "rendered_cost" then do
    let value ← item side (py "rendered_cost_micro")
    checkIntValue value (path ++ ".rendered_cost_micro")
  else
    match resourceKey axis.source with
    | none => .error (.artifact (.counterResourceLaw path))
    | some key =>
      match lookup side key with
      | none => .error (.artifact (.counterResourceLaw path))
      | some value => do
        let n ← checkIntValue value (keyPath path key)
        return n * micro

/-- The cap's key for an axis, and the scale of its unit. -/
def capEntry (axis : LawAxis) : Option (PyStr × Int) :=
  if axis.source = py "rendered_cost" then some (py "envelope_rendered_cost_micro", 1)
  else (resourceKey axis.source).map fun key => (py "envelope_" ++ key, micro)

/-- `_axis_cap_micro`. -/
def axisCapMicro (fixedCap : AbsoluteVector) (axis : LawAxis) : Except LawError Int :=
  match capEntry axis with
  | none => .error (.artifact (.counterResourceLaw "source"))
  | some (key, scale) =>
    match lookup (integerMembers fixedCap.integers) key with
    | none => .error (.artifact (.counterResourceLaw "fixed_cap"))
    | some value => do
      let n ← checkIntValue value (keyPath "fixed_cap" key)
      refuseIf (n * scale ≤ 0) (.artifact (.counterResourceLaw "fixed_cap"))
      return n * scale

/-- A vector of the partition, under the canonical caps. -/
def checkFixedCap (canonical vector : AbsoluteVector) : Except LawError Unit := do
  refuseIf (vector.suiteBlockId ≠ canonical.suiteBlockId)
    (.artifact (.resourceAccounting "suite_block_id"))
  resourceAxes.forM fun axis =>
    refuseIf (vector.envelope axis ≠ canonical.envelope axis)
      (.artifact (.resourceAccounting axis.capKey))

/-- `_canonical_fixed_cap_for_accounting`. -/
def canonicalFixedCapForAccounting (canonical : CanonicalSuite) (profileId : ProfileId)
    (branch : PyStr) (candidateVector incumbentVector : AbsoluteVector) :
    Except LawError AbsoluteVector :=
  match selectionLabels.find? fun label => py label.name = branch with
  | none => .error (.artifact (.counterResourceLaw "branch"))
  | some label => do
    let path := "counter_resource." ++ label.name
    lawCall (validateVector candidateVector (path ++ ".candidate_vector") profileId)
    lawCall (validateVector incumbentVector (path ++ ".incumbent_vector") profileId)
    let fixedCap ← lawCall (suiteCall (canonical.genesisFloorVector profileId label))
    checkFixedCap fixedCap candidateVector
    checkFixedCap fixedCap incumbentVector
    return fixedCap

/-! ### The evaluation -/

/-- `composite_micro // scale_max`. -/
def utilityPpm (law : CounterResourceLaw) (side : Mapping) (path : String) :
    Except LawError Int := do
  let value ← item side (py "composite_micro")
  let composite ← checkIntValue value (path ++ ".composite_micro")
  floorDiv composite law.utilityScaleMax

/-- The loop over the axes. -/
def resourceTotal (fixedCap : AbsoluteVector) (side : Mapping) (path : String) (total : Int) :
    List LawAxis → Except LawError Int
  | [] => .ok total
  | axis :: rest => do
    let base ← axisCapMicro fixedCap axis
    let value ← axisMicro side axis path
    let share ← floorDiv (axis.weightPpm * value) base
    resourceTotal fixedCap side path (total + share) rest

/-- The resource ppm of one side. -/
def resourcePpm (law : CounterResourceLaw) (fixedCap : AbsoluteVector) (side : Mapping)
    (path : String) : Except LawError Int := do
  let total ← resourceTotal fixedCap side path 0 law.resourceAxes
  return min total law.resourcePpmMax

/-- What `evaluate_counter_resource_law` returns. -/
structure AccountingPpm where
  utilityBefore : Int
  utilityAfter : Int
  resourceBefore : Int
  resourceAfter : Int
  deriving DecidableEq

/-- The ceilings, in the order of the results. -/
def checkCeilings (law : CounterResourceLaw) (out : AccountingPpm) : Except LawError Unit := do
  refuseIf (out.utilityBefore > law.utilityPpmMax)
    (.artifact (.resourceAccounting "utility_before_ppm"))
  refuseIf (out.utilityAfter > law.utilityPpmMax)
    (.artifact (.resourceAccounting "utility_after_ppm"))
  refuseIf (out.resourceBefore > law.resourcePpmMax)
    (.artifact (.resourceAccounting "resource_before_ppm"))
  refuseIf (out.resourceAfter > law.resourcePpmMax)
    (.artifact (.resourceAccounting "resource_after_ppm"))

/-- `evaluate_counter_resource_law`. -/
def evaluateCounterResourceLaw (canonical : CanonicalSuite) (law : CounterResourceLaw)
    (candidate incumbent : Mapping) (profileId : ProfileId)
    (candidateVector incumbentVector : AbsoluteVector) : Except LawError AccountingPpm := do
  lawCall (validateCounterResourceLaw law)
  let fixedCap ← canonicalFixedCapForAccounting canonical profileId law.branch candidateVector
    incumbentVector
  let utilityBefore ← utilityPpm law incumbent "incumbent"
  let utilityAfter ← utilityPpm law candidate "candidate"
  let resourceBefore ← resourcePpm law fixedCap incumbent "resource_before_ppm"
  let resourceAfter ← resourcePpm law fixedCap candidate "resource_after_ppm"
  let out : AccountingPpm := ⟨utilityBefore, utilityAfter, resourceBefore, resourceAfter⟩
  checkCeilings law out
  return out

/-! ### Accepted laws -/

/-- What the arithmetic needs of an accepted law. -/
structure CounterResourceLaw.Accepted (law : CounterResourceLaw) : Prop where
  resourcePpmMax : 1 ≤ law.resourcePpmMax
  utilityScaleMax : 1 ≤ law.utilityScaleMax
  nonempty : law.resourceAxes ≠ []
  weights : ∀ axis ∈ law.resourceAxes, 0 ≤ axis.weightPpm
  sum : (law.resourceAxes.map LawAxis.weightPpm).sum = micro

theorem sumAxes_eq_ok {axes : List LawAxis} {index : Nat} {seen : List PyStr} {total sum : Int}
    (h : sumAxes index seen total axes = .ok sum) :
    (∀ axis ∈ axes, 0 ≤ axis.weightPpm) ∧ sum = total + (axes.map LawAxis.weightPpm).sum := by
  induction axes generalizing index seen total with
  | nil =>
      cases h
      exact ⟨fun axis haxis => absurd haxis List.not_mem_nil, (add_zero _).symm⟩
  | cons axis axes ih =>
      simp only [sumAxes, bind_eq_ok, checkStr_eq_ok, checkInt_eq_ok, refuseIf_eq_ok] at h
      obtain ⟨_, -, _, -, _, -, _, hweight, _, -, h⟩ := h
      obtain ⟨hweights, hsum⟩ := ih h
      refine ⟨List.forall_mem_cons.mpr ⟨hweight.1, hweights⟩, ?_⟩
      rw [hsum, List.map_cons, List.sum_cons]
      ring

theorem accepted_of_validate {law : CounterResourceLaw}
    (h : validateCounterResourceLaw law = .ok ()) : law.Accepted := by
  simp only [validateCounterResourceLaw, bind_eq_ok, checkStr_eq_ok, checkInt_eq_ok,
    refuseIf_eq_ok, not_not] at h
  obtain ⟨_, -, _, -, _, -, _, -, _, hresource, _, -, _, -, _, hscale, _, hnonempty, total, htotal,
    hsum⟩ := h
  obtain ⟨hweights, htotal⟩ := sumAxes_eq_ok htotal
  exact ⟨hresource.1, hscale.1, hnonempty, hweights, by rw [← hsum, htotal, zero_add]⟩

/-! ### Readings and caps -/

theorem checkIntValue_eq_ok {value : Json} {field : String} {n : Int} :
    checkIntValue value field = .ok n ↔ value = .int n ∧ 0 ≤ n ∧ n ≤ maxUint64 := by
  cases value with
  | int m =>
      rw [checkIntValue]
      by_cases hrange : m < 0 ∨ maxUint64 < m
      · rw [if_pos hrange]
        refine ⟨fun h => (nomatch h), fun h => ?_⟩
        obtain ⟨hvalue, hlow, hhigh⟩ := h
        cases hvalue
        omega
      · rw [if_neg hrange, Except.ok.injEq, Json.int.injEq]
        constructor
        · intro h
          subst h
          exact ⟨rfl, by omega, by omega⟩
        · exact fun h => h.1
  | _ => simp [checkIntValue]

/-- A reading is not negative, and the field path is in the errors alone. -/
theorem axisMicro_eq_ok {side : Mapping} {axis : LawAxis} {path : String} {n : Int}
    (h : axisMicro side axis path = .ok n) : 0 ≤ n ∧ ∀ path', axisMicro side axis path' = .ok n := by
  unfold axisMicro at h ⊢
  by_cases hsource : axis.source = py "rendered_cost"
  · simp only [hsource, if_true, bind_eq_ok, checkIntValue_eq_ok] at h ⊢
    obtain ⟨value, hvalue, hint, hrange⟩ := h
    exact ⟨hrange.1, fun _ => ⟨value, hvalue, hint, hrange⟩⟩
  · simp only [hsource, if_false] at h ⊢
    cases hkey : resourceKey axis.source with
    | none =>
        rw [hkey] at h
        cases h
    | some key =>
        simp only [hkey] at h ⊢
        cases hvalue : lookup side key with
        | none =>
            rw [hvalue] at h
            cases h
        | some value =>
            simp only [hvalue, bind_eq_ok, checkIntValue_eq_ok, pure_eq_ok] at h ⊢
            obtain ⟨m, hint, hscaled⟩ := h
            refine ⟨?_, fun _ => ⟨m, hint, hscaled⟩⟩
            rw [← hscaled]
            exact mul_nonneg hint.2.1 (by decide)

/-- A cap is positive. -/
theorem axisCapMicro_pos {fixedCap : AbsoluteVector} {axis : LawAxis} {n : Int}
    (h : axisCapMicro fixedCap axis = .ok n) : 0 < n := by
  unfold axisCapMicro at h
  cases hentry : capEntry axis with
  | none =>
      rw [hentry] at h
      cases h
  | some entry =>
      obtain ⟨key, scale⟩ := entry
      rw [hentry] at h
      dsimp only at h
      cases hvalue : lookup (integerMembers fixedCap.integers) key with
      | none =>
          rw [hvalue] at h
          cases h
      | some value =>
          simp only [hvalue, bind_eq_ok, refuseIf_eq_ok, pure_eq_ok] at h
          obtain ⟨m, -, _, hpos, hn⟩ := h
          omega

theorem floorDiv_of_pos {a b : Int} (h : 0 < b) : floorDiv a b = .ok (a / b) := by
  rw [floorDiv, if_neg (by omega), Int.fdiv_eq_ediv_of_nonneg _ h.le]

/-! ### No division by zero -/

/-- Everything but a division by zero. -/
def NotZeroDivision (e : LawError) : Prop :=
  e ≠ .zeroDivision

theorem failsWith_lawCall {α : Type} (x : Except EvalArtifactError α) :
    FailsWith NotZeroDivision (lawCall x) := by
  intro e he
  cases x with
  | error error =>
      cases he
      exact nofun
  | ok a => cases he

theorem failsWith_item (mapping : Mapping) (key : PyStr) :
    FailsWith NotZeroDivision (item mapping key) := by
  intro e he
  unfold item at he
  split at he
  · cases he
    exact nofun
  · cases he

theorem failsWith_checkIntValue (value : Json) (field : String) :
    FailsWith NotZeroDivision (checkIntValue value field) := by
  intro e he
  unfold checkIntValue at he
  split at he
  · split at he
    · cases he
      exact nofun
    · cases he
  · cases he
    exact nofun

theorem failsWith_floorDiv {a b : Int} (h : 0 < b) : FailsWith NotZeroDivision (floorDiv a b) := by
  rw [floorDiv_of_pos h]
  exact .pure _

theorem failsWith_axisMicro (side : Mapping) (axis : LawAxis) (path : String) :
    FailsWith NotZeroDivision (axisMicro side axis path) := by
  have herror : ∀ field : String, FailsWith NotZeroDivision
      (.error (.artifact (.counterResourceLaw field)) : Except LawError Int) := fun field =>
    .throw nofun
  unfold axisMicro
  split
  · exact (failsWith_item side _).bind fun value _ => failsWith_checkIntValue value _
  split
  · exact herror _
  split
  · exact herror _
  · exact (failsWith_checkIntValue _ _).bind fun n _ => .pure _

theorem failsWith_axisCapMicro (fixedCap : AbsoluteVector) (axis : LawAxis) :
    FailsWith NotZeroDivision (axisCapMicro fixedCap axis) := by
  have herror : ∀ field : String, FailsWith NotZeroDivision
      (.error (.artifact (.counterResourceLaw field)) : Except LawError Int) := fun field =>
    .throw nofun
  unfold axisCapMicro
  split
  · exact herror _
  split
  · exact herror _
  · exact (failsWith_checkIntValue _ _).bind fun n _ => (FailsWith.refuseIf nofun).bind
      fun _ _ => .pure _

theorem failsWith_resourceTotal (fixedCap : AbsoluteVector) (side : Mapping) (path : String)
    (axes : List LawAxis) (total : Int) :
    FailsWith NotZeroDivision (resourceTotal fixedCap side path total axes) := by
  induction axes generalizing total with
  | nil => exact .pure _
  | cons axis axes ih =>
      exact (failsWith_axisCapMicro fixedCap axis).bind fun base hbase =>
        (failsWith_axisMicro side axis path).bind fun value _ =>
        (failsWith_floorDiv (axisCapMicro_pos hbase)).bind fun share _ => ih _

theorem failsWith_canonicalFixedCap (canonical : CanonicalSuite) (profileId : ProfileId)
    (branch : PyStr) (candidateVector incumbentVector : AbsoluteVector) :
    FailsWith NotZeroDivision (canonicalFixedCapForAccounting canonical profileId branch
      candidateVector incumbentVector) := by
  have hforM : ∀ (axes : List ResourceAxis) (f : ResourceAxis → Except LawError Unit),
      (∀ axis, FailsWith NotZeroDivision (f axis)) → FailsWith NotZeroDivision (axes.forM f) := by
    intro axes f hf
    induction axes with
    | nil => exact .pure _
    | cons axis axes ih => exact (hf axis).bind fun _ _ => ih
  have hcheck : ∀ cap vector, FailsWith NotZeroDivision (checkFixedCap cap vector) :=
    fun cap vector => (FailsWith.refuseIf nofun).bind fun _ _ =>
      hforM _ _ fun axis => FailsWith.refuseIf nofun
  unfold canonicalFixedCapForAccounting
  split
  · exact .throw nofun
  · exact (failsWith_lawCall _).bind fun _ _ => (failsWith_lawCall _).bind fun _ _ =>
      (failsWith_lawCall _).bind fun cap _ => (hcheck cap _).bind fun _ _ =>
      (hcheck cap _).bind fun _ _ => .pure _

/-- **No division by zero**, whatever the documents are. -/
theorem evaluate_notZeroDivision (canonical : CanonicalSuite) (law : CounterResourceLaw)
    (candidate incumbent : Mapping) (profileId : ProfileId)
    (candidateVector incumbentVector : AbsoluteVector) :
    FailsWith NotZeroDivision (evaluateCounterResourceLaw canonical law candidate incumbent
      profileId candidateVector incumbentVector) := by
  have hutility : law.Accepted → ∀ side path,
      FailsWith NotZeroDivision (utilityPpm law side path) := by
    intro hlaw side path
    have hscale := hlaw.utilityScaleMax
    exact (failsWith_item side _).bind fun value _ =>
      (failsWith_checkIntValue value _).bind fun n _ => failsWith_floorDiv (by omega)
  have hresource : ∀ cap side path, FailsWith NotZeroDivision (resourcePpm law cap side path) :=
    fun cap side path => (failsWith_resourceTotal cap side path _ _).bind fun _ _ => .pure _
  have hceilings : ∀ out, FailsWith NotZeroDivision (checkCeilings law out) := fun out =>
    (FailsWith.refuseIf nofun).bind fun _ _ => (FailsWith.refuseIf nofun).bind fun _ _ =>
    (FailsWith.refuseIf nofun).bind fun _ _ => FailsWith.refuseIf nofun
  -- the scale is positive by the law's check, every cap by its own
  refine (failsWith_lawCall _).bind fun u hlaw => ?_
  have haccepted : law.Accepted := by
    cases hvalidate : validateCounterResourceLaw law with
    | error e =>
        rw [hvalidate] at hlaw
        cases hlaw
    | ok u => exact accepted_of_validate hvalidate
  exact (failsWith_canonicalFixedCap _ _ _ _ _).bind fun cap _ =>
    (hutility haccepted _ _).bind fun _ _ => (hutility haccepted _ _).bind fun _ _ =>
    (hresource _ _ _).bind fun _ _ => (hresource _ _ _).bind fun _ _ =>
    (hceilings _).bind fun _ _ => .pure _

/-! ### What a side comes to -/

/-- The shares of a side: every axis has a positive cap, and a reading on the side. -/
def Metered (fixedCap : AbsoluteVector) (side : Mapping) (axes : List LawAxis)
    (shares : List Share) : Prop :=
  List.Forall₂ (fun axis share => share.weight = axis.weightPpm ∧
    axisCapMicro fixedCap axis = .ok share.cap ∧
    ∀ path, axisMicro side axis path = .ok share.reading) axes shares

section

variable {fixedCap : AbsoluteVector} {side : Mapping} {axes : List LawAxis} {shares : List Share}

theorem Metered.valid (h : Metered fixedCap side axes shares)
    (hweights : ∀ axis ∈ axes, 0 ≤ axis.weightPpm) : ∀ s ∈ shares, s.Valid := by
  induction h with
  | nil => exact fun s hs => absurd hs List.not_mem_nil
  | cons hshare _ ih =>
      obtain ⟨hweight, hrest⟩ := List.forall_mem_cons.mp hweights
      obtain ⟨hw, hcap, hreading⟩ := hshare
      exact List.forall_mem_cons.mpr
        ⟨⟨hw ▸ hweight, (axisMicro_eq_ok (hreading "")).1, axisCapMicro_pos hcap⟩, ih hrest⟩

theorem Metered.weightSum (h : Metered fixedCap side axes shares) :
    weightSum shares = (axes.map LawAxis.weightPpm).sum := by
  induction h with
  | nil => rfl
  | cons hshare _ ih =>
      rw [Lib.weightSum, List.map_cons, List.sum_cons, List.map_cons, List.sum_cons, ← ih,
        hshare.1]
      rfl

/-- The loop adds up the shares, each rounded down. -/
theorem Metered.resourceTotal (h : Metered fixedCap side axes shares) (path : String)
    (total : Int) : resourceTotal fixedCap side path total axes =
      .ok (total + flooredSum shares) := by
  induction h generalizing total with
  | nil => exact congrArg Except.ok (add_zero total).symm
  | @cons axis share axes shares hshare _ ih =>
      obtain ⟨hweight, hcap, hreading⟩ := hshare
      rw [CoreTex.resourceTotal, hcap, ok_bind, hreading, ok_bind,
        floorDiv_of_pos (axisCapMicro_pos hcap), ok_bind, ih, ← hweight, flooredSum, flooredSum,
        List.map_cons, List.sum_cons, ← add_assoc]
      rfl

/-- A loop that ends has read every axis. -/
theorem metered_of_resourceTotal {path : String} {total sum : Int}
    (h : resourceTotal fixedCap side path total axes = .ok sum) :
    ∃ shares, Metered fixedCap side axes shares := by
  induction axes generalizing total with
  | nil => exact ⟨[], .nil⟩
  | cons axis axes ih =>
      simp only [resourceTotal, bind_eq_ok] at h
      obtain ⟨base, hbase, value, hvalue, share, -, h⟩ := h
      obtain ⟨shares, hshares⟩ := ih h
      exact ⟨⟨axis.weightPpm, value, base⟩ :: shares,
        .cons ⟨rfl, hbase, (axisMicro_eq_ok hvalue).2⟩ hshares⟩

variable {law : CounterResourceLaw}

/-- **The resource ppm of a side**: its shares, up to the ceiling. -/
theorem Metered.resourcePpm (h : Metered fixedCap side law.resourceAxes shares) (path : String) :
    resourcePpm law fixedCap side path = .ok (min (flooredSum shares) law.resourcePpmMax) := by
  rw [CoreTex.resourcePpm, h.resourceTotal, ok_bind, zero_add]
  rfl

theorem metered_of_resourcePpm {path : String} {ppm : Int}
    (h : CoreTex.resourcePpm law fixedCap side path = .ok ppm) :
    ∃ shares, Metered fixedCap side law.resourceAxes shares := by
  rw [CoreTex.resourcePpm, bind_eq_ok] at h
  obtain ⟨total, htotal, -⟩ := h
  exact metered_of_resourceTotal htotal

/-- The resource ppm of a side does not depend on the name it is computed under. -/
theorem resourcePpm_path {path : String} {ppm : Int}
    (h : CoreTex.resourcePpm law fixedCap side path = .ok ppm) (path' : String) :
    CoreTex.resourcePpm law fixedCap side path' = .ok ppm := by
  obtain ⟨shares, hshares⟩ := metered_of_resourcePpm h
  rw [hshares.resourcePpm] at h ⊢
  exact h

/-- A composite that can be read. -/
def Composite (side : Mapping) (n : Int) : Prop :=
  lookup side (py "composite_micro") = some (.int n) ∧ 0 ≤ n ∧ n ≤ maxUint64

theorem Composite.utilityPpm {n : Int} (h : Composite side n) (hlaw : law.Accepted)
    (path : String) : utilityPpm law side path = .ok (n / law.utilityScaleMax) := by
  have hscale := hlaw.utilityScaleMax
  rw [CoreTex.utilityPpm, item, h.1, ok_bind, checkIntValue_eq_ok.mpr ⟨rfl, h.2⟩, ok_bind,
    floorDiv_of_pos (by omega)]

/-- Two sides under one cap, the one read no higher. -/
theorem Metered.le {side' : Mapping} {shares' : List Share}
    (h : Metered fixedCap side axes shares) (h' : Metered fixedCap side' axes shares')
    (hreadings : List.Forall₂ (fun s t => s.reading ≤ t.reading) shares shares') :
    List.Forall₂ Share.LE shares shares' := by
  induction h generalizing shares' with
  | nil =>
      cases h'
      exact .nil
  | cons hshare _ ih =>
      cases h' with
      | cons hshare' hrest' =>
          cases hreadings with
          | cons hle hreadings =>
              obtain ⟨hweight, hcap, -⟩ := hshare
              obtain ⟨hweight', hcap', -⟩ := hshare'
              have hcaps := Except.ok.inj (hcap.symm.trans hcap')
              exact .cons ⟨hweight.trans hweight'.symm, hcaps, hle⟩ (ih hrest' hreadings)

theorem Metered.ne_nil (h : Metered fixedCap side axes shares) (haxes : axes ≠ []) :
    shares ≠ [] := by
  intro hempty
  subst hempty
  cases h
  exact haxes rfl

end

/-- What the law says of one side whose axes can be read. -/
structure SideArithmetic (law : CounterResourceLaw) (shares : List Share) (ppm : Int) : Prop where
  nonneg : 0 ≤ ppm
  ceiling : ppm ≤ law.resourcePpmMax
  saturated : ppm = min (flooredSum shares) law.resourcePpmMax
  below : (flooredSum shares : ℚ) ≤ exactSum shares
  short : exactSum shares - shares.length < flooredSum shares
  atCap : (∀ s ∈ shares, s.reading = s.cap) → ppm = min 1000000 law.resourcePpmMax
  underCap : (∀ s ∈ shares, s.reading ≤ s.cap) → ppm ≤ min 1000000 law.resourcePpmMax

theorem sideArithmetic {law : CounterResourceLaw} (hlaw : law.Accepted)
    {fixedCap : AbsoluteVector} {side : Mapping} {shares : List Share}
    (h : Metered fixedCap side law.resourceAxes shares) :
    SideArithmetic law shares (min (flooredSum shares) law.resourcePpmMax) := by
  have hvalid := h.valid hlaw.weights
  have hsum : weightSum shares = 1000000 := h.weightSum.trans hlaw.sum
  have hmax := hlaw.resourcePpmMax
  have hnonneg := flooredSum_nonneg hvalid
  obtain ⟨hlow, -, hhigh⟩ := flooredSum_bounds hvalid
  refine ⟨by omega, min_le_right _ _, rfl, hlow, ?_, ?_, ?_⟩
  · have hshort := hhigh (h.ne_nil hlaw.nonempty)
    linarith
  · intro hcap
    rw [flooredSum_at_cap hvalid hcap, hsum]
  · intro hcap
    have hbelow := flooredSum_below_cap hvalid hcap
    rw [hsum] at hbelow
    exact min_le_min_right _ hbelow

/-- A result and the sides it comes from. -/
theorem evaluate_eq_ok {canonical : CanonicalSuite} {law : CounterResourceLaw}
    {candidate incumbent : Mapping} {profileId : ProfileId}
    {candidateVector incumbentVector : AbsoluteVector} {out : AccountingPpm} :
    evaluateCounterResourceLaw canonical law candidate incumbent profileId candidateVector
      incumbentVector = .ok out ↔
    validateCounterResourceLaw law = .ok () ∧ ∃ fixedCap,
      canonicalFixedCapForAccounting canonical profileId law.branch candidateVector
        incumbentVector = .ok fixedCap ∧
      utilityPpm law incumbent "incumbent" = .ok out.utilityBefore ∧
      utilityPpm law candidate "candidate" = .ok out.utilityAfter ∧
      resourcePpm law fixedCap incumbent "resource_before_ppm" = .ok out.resourceBefore ∧
      resourcePpm law fixedCap candidate "resource_after_ppm" = .ok out.resourceAfter ∧
      checkCeilings law out = .ok () := by
  have hcall : lawCall (validateCounterResourceLaw law) = .ok () ↔
      validateCounterResourceLaw law = .ok () := by
    cases validateCounterResourceLaw law <;> simp [lawCall, Except.mapError]
  rw [evaluateCounterResourceLaw]
  simp only [bind_eq_ok, pure_eq_ok]
  constructor
  · intro h
    obtain ⟨u, hlaw, cap, hcap, before, hbefore, after, hafter, rb, hrb, ra, hra, u', hceil,
      rfl⟩ := h
    exact ⟨hcall.mp hlaw, cap, hcap, hbefore, hafter, hrb, hra, hceil⟩
  · intro h
    obtain ⟨hlaw, cap, hcap, hbefore, hafter, hrb, hra, hceil⟩ := h
    exact ⟨(), hcall.mpr hlaw, cap, hcap, _, hbefore, _, hafter, _, hrb, _, hra, (), hceil, rfl⟩

/-- **The arithmetic of the counter-resource law**, for an accepted law of any number of axes. -/
theorem counterResourceLaw_arithmetic {law : CounterResourceLaw}
    (hlaw : validateCounterResourceLaw law = .ok ()) (canonical : CanonicalSuite)
    (profileId : ProfileId) (candidate incumbent : Mapping)
    (candidateVector incumbentVector : AbsoluteVector) :
    FailsWith NotZeroDivision (evaluateCounterResourceLaw canonical law candidate incumbent
      profileId candidateVector incumbentVector) ∧
    (∀ out, evaluateCounterResourceLaw canonical law candidate incumbent profileId
        candidateVector incumbentVector = .ok out →
      ∃ fixedCap, canonicalFixedCapForAccounting canonical profileId law.branch candidateVector
          incumbentVector = .ok fixedCap ∧
        (∀ path, resourcePpm law fixedCap incumbent path = .ok out.resourceBefore) ∧
        ∀ path, resourcePpm law fixedCap candidate path = .ok out.resourceAfter) ∧
    (∀ fixedCap side shares path, Metered fixedCap side law.resourceAxes shares →
      ∃ ppm, resourcePpm law fixedCap side path = .ok ppm ∧ SideArithmetic law shares ppm) ∧
    (∀ fixedCap side side' shares shares' path ppm ppm',
      Metered fixedCap side law.resourceAxes shares →
      Metered fixedCap side' law.resourceAxes shares' →
      List.Forall₂ (fun s t => s.reading ≤ t.reading) shares shares' →
      resourcePpm law fixedCap side path = .ok ppm →
      resourcePpm law fixedCap side' path = .ok ppm' → ppm ≤ ppm') ∧
    ∀ fixedCap before after sharesBefore sharesAfter,
      canonicalFixedCapForAccounting canonical profileId law.branch candidateVector
        incumbentVector = .ok fixedCap →
      Composite incumbent before → Composite candidate after →
      Metered fixedCap incumbent law.resourceAxes sharesBefore →
      Metered fixedCap candidate law.resourceAxes sharesAfter →
      (∃ out, evaluateCounterResourceLaw canonical law candidate incumbent profileId
        candidateVector incumbentVector = .ok out) ∨
      law.utilityPpmMax < before / law.utilityScaleMax ∨
      law.utilityPpmMax < after / law.utilityScaleMax := by
  have haccepted := accepted_of_validate hlaw
  refine ⟨evaluate_notZeroDivision _ _ _ _ _ _ _, ?_, ?_, ?_, ?_⟩
  · intro out h
    obtain ⟨-, cap, hcap, -, -, hbefore, hafter, -⟩ := evaluate_eq_ok.mp h
    exact ⟨cap, hcap, resourcePpm_path hbefore, resourcePpm_path hafter⟩
  · intro fixedCap side shares path h
    exact ⟨_, h.resourcePpm path, sideArithmetic haccepted h⟩
  · intro fixedCap side side' shares shares' path ppm ppm' h h' hreadings hppm hppm'
    rw [h.resourcePpm] at hppm
    rw [h'.resourcePpm] at hppm'
    cases hppm
    cases hppm'
    exact min_le_min_right _
      (flooredSum_le (h.valid haccepted.weights) (h.le h' hreadings))
  · intro fixedCap before after sharesBefore sharesAfter hcap hbefore hafter hmetered hmetered'
    by_cases hutilityBefore : law.utilityPpmMax < before / law.utilityScaleMax
    · exact .inr (.inl hutilityBefore)
    by_cases hutilityAfter : law.utilityPpmMax < after / law.utilityScaleMax
    · exact .inr (.inr hutilityAfter)
    left
    refine ⟨⟨_, _, _, _⟩, evaluate_eq_ok.mpr ⟨hlaw, fixedCap, hcap,
      hbefore.utilityPpm haccepted _, hafter.utilityPpm haccepted _, hmetered.resourcePpm _,
      hmetered'.resourcePpm _, ?_⟩⟩
    -- a resource ppm is saturated, so only a utility can pass its ceiling
    simp only [checkCeilings, refuseIf_bind_eq_ok, refuseIf_eq_ok]
    refine ⟨hutilityBefore, hutilityAfter, ?_, ?_⟩
    · exact not_lt.mpr (min_le_right _ _)
    · exact not_lt.mpr (min_le_right _ _)

/-! ### A run -/

/-- The law document that is shipped. -/
def shippedLaw : CounterResourceLaw where
  branch := py "confirm"
  format := py counterResourceLawFormat
  resourceAxes := [
    ⟨py "rendered_cost", false, py "rendered_cost",
      py "consumer-context.compact-citations.v2 counter.v1 units", 700000⟩,
    ⟨py "work_fuel", true, py "resource.work_fuel", py "deterministic work fuel", 200000⟩,
    ⟨py "logical_durable_storage_bytes", true, py "resource.logical_durable_storage_bytes",
      py "logical-durable-storage.cbor.v1+vectors.v1 bytes", 100000⟩]
  resourceNormalizer := py fixedCapResourceNormalizer
  resourceOverflowPolicy := py saturatingResourceOverflowPolicy
  resourcePpmMax := 4294967295
  utilityScaleMax := 100
  utilitySource := py "composite"
  utilityPpmMax := 4294967295

theorem shippedLaw_valid : validateCounterResourceLaw shippedLaw = .ok () := by
  decide +kernel

/-- A vector of a profile under caps of ten units. -/
def sampleVector (profileId : ProfileId) : AbsoluteVector where
  compositeMicro := 5000
  envelope := fun _ => 10
  objectivesMicro :=
    { entries := (declaredObjectives profileId).map fun objective => (objective, 0)
      ascending := by cases profileId <;> decide +kernel }
  resource := fun _ => 5
  suiteBlockId := 0

theorem floorVector_sampleVector (profileId : ProfileId) :
    FloorVector profileId (sampleVector profileId) := by
  cases profileId <;>
    exact ⟨by decide, by decide, by decide, by decide, by decide +kernel⟩

def sampleSuite : CanonicalSuite where
  suiteRoot := zeroRoot
  suiteVersion := py "v1"
  scales := fun _ => []
  cases := fun _ _ => []
  genesisFloorAuthority := .resolved (py "reference") fun profileId _ => sampleVector profileId
  disjoint := by simp
  floorVector := by
    intro source vectors h p label
    cases h
    exact floorVector_sampleVector p

/-- A side with these three readings. -/
def sampleSide (cost fuel storage : Int) : Mapping :=
  [(py "composite_micro", .int 5000), (py "rendered_cost_micro", .int cost),
    (py "work_fuel", .int fuel), (py "logical_durable_storage_bytes", .int storage)]

/-- A side at its caps comes to exactly one million. -/
theorem counterResourceLaw_arithmetic_sample :
    ∃ ppm, resourcePpm shippedLaw (sampleVector .convPref) (sampleSide 10 10 10) "candidate" =
        .ok ppm ∧
      SideArithmetic shippedLaw
        [⟨700000, 10, 10⟩, ⟨200000, 10000000, 10000000⟩, ⟨100000, 10000000, 10000000⟩] ppm := by
  have hread : ∀ axis r, axisMicro (sampleSide 10 10 10) axis "" = .ok r →
      ∀ path, axisMicro (sampleSide 10 10 10) axis path = .ok r :=
    fun axis r h => (axisMicro_eq_ok h).2
  have hmetered : Metered (sampleVector .convPref) (sampleSide 10 10 10) shippedLaw.resourceAxes
      [⟨700000, 10, 10⟩, ⟨200000, 10000000, 10000000⟩, ⟨100000, 10000000, 10000000⟩] :=
    .cons ⟨rfl, by decide +kernel, hread _ _ (by decide +kernel)⟩
      (.cons ⟨rfl, by decide +kernel, hread _ _ (by decide +kernel)⟩
        (.cons ⟨rfl, by decide +kernel, hread _ _ (by decide +kernel)⟩ .nil))
  have h := counterResourceLaw_arithmetic shippedLaw_valid sampleSuite .convPref
    (sampleSide 10 10 10) (sampleSide 10 10 10) (sampleVector .convPref) (sampleVector .convPref)
  exact h.2.2.1 _ _ _ _ hmetered

/-- All fields are there and have their types, and the utilities are under their ceiling; the
evaluation raises on a reading below zero, and on a vector under caps of its own. -/
theorem evaluateCounterResourceLaw_negative :
    validateCounterResourceLaw shippedLaw = .ok () ∧
      canonicalFixedCapForAccounting sampleSuite .convPref shippedLaw.branch
        (sampleVector .convPref) (sampleVector .convPref) = .ok (sampleVector .convPref) ∧
      (5000 : Int) / shippedLaw.utilityScaleMax ≤ shippedLaw.utilityPpmMax ∧
      evaluateCounterResourceLaw sampleSuite shippedLaw (sampleSide 5 5 5) (sampleSide 0 5 5)
        .convPref (sampleVector .convPref) (sampleVector .convPref) = .ok ⟨50, 50, 150000, 500000⟩ ∧
      evaluateCounterResourceLaw sampleSuite shippedLaw (sampleSide 5 5 5) (sampleSide (-1) 5 5)
        .convPref (sampleVector .convPref) (sampleVector .convPref) =
          .error (.artifact (.value "resource_before_ppm.rendered_cost_micro")) ∧
      evaluateCounterResourceLaw sampleSuite shippedLaw (sampleSide 5 5 5) (sampleSide 0 5 5)
        .convPref { sampleVector .convPref with envelope := fun _ => 11 } (sampleVector .convPref) =
          .error (.artifact (.resourceAccounting "envelope_rendered_cost_micro")) := by
  refine ⟨shippedLaw_valid, ?_, by decide, ?_, ?_, ?_⟩
  · decide +kernel
  · decide +kernel
  · decide +kernel
  · decide +kernel

end CoreTex
