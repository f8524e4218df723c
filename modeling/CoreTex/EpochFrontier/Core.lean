import CoreTex.Lib.JsMap
import CoreTex.Lib.Json
import CoreTex.Lib.Sort
import CoreTex.State.Merkle
import Mathlib.Data.List.Lex
import Mathlib.Data.Rat.Defs

/-!
# CoreTex.EpochFrontier.Core

The rotating frontier of evaluated ids (`coordinator/epoch-frontier.ts`).

The state is what the closure of `makeEpochFrontier` keeps. `orderIdx` is not part of it: it is
read off `order` wherever the source rebuilds it. Double arithmetic only decides rates; it is
a parameter (`JsNumbers`) with the one law the rotation rests on.
-/

namespace CoreTex.EpochFrontier

open CoreTex.Lib

/-! ### Parameters -/

/-- A string, by its UTF-16 code units. -/
abbrev Text := List Nat

/-- The code units of an ASCII literal. -/
def ascii (s : String) : Text :=
  s.toList.map Char.toNat

/-- The host's double arithmetic. A counter below `Math.min(x, m)` is below `m`. -/
structure JsNumbers where
  Num : Type
  lit : Rat → Num
  infinity : Num
  isFinite : Num → Bool
  lt : Num → Num → Bool
  le : Num → Num → Bool
  beq : Num → Num → Bool
  add : Num → Num → Num
  sub : Num → Num → Num
  mul : Num → Num → Num
  div : Num → Num → Num
  pow : Num → Num → Num
  min : Num → Num → Num
  max : Num → Num → Num
  ceil : Num → Num
  lt_min : ∀ (j m : Nat) (x : Num), lt (lit j) (min x (lit m)) = true → j < m

/-- `EpochFrontierMode`. -/
inductive EpochFrontierMode
  | off | C0 | C1 | C2 | C3 | C4
  deriving DecidableEq, Repr

/-- `EpochFrontierParams`, without the initial state. -/
structure EpochFrontierParams (N : JsNumbers) where
  evalHiddenIds : List Text
  familyOf : Text → Option Text
  mode : Option EpochFrontierMode
  activeWindow : Option Int
  churnRate : Option N.Num
  maxAge : Option N.Num
  lowAdvancesThreshold : Option N.Num
  lowAdvancesBumpRate : Option N.Num
  seed : Option Text
  minChurn : Option N.Num
  maxChurn : Option N.Num
  targetAccepts : Option N.Num
  headroomLowWatermark : Option N.Num
  headroomHighWatermark : Option N.Num
  ewmaHalfLife : Option N.Num
  expectedYieldPerUnit : Option N.Num
  maxRootDeltaPerEpoch : Option N.Num

/-- A parameter that was left out has the value of its default. -/
def orElse {N : JsNumbers} (value : Option N.Num) (default : Rat) : N.Num :=
  value.getD (N.lit default)

/-- What a frontier keeps between calls. `active` and `retired` keep insertion order. -/
structure FrontierState (N : JsNumbers) where
  order : List Text
  reservePtr : Nat
  active : JsMap Text Int
  retired : List Text
  cumulativeActivated : Nat
  cumulativeRetired : Nat
  initialized : Bool
  injectedSinceLastStep : Nat
  ewmaAccepts : Option N.Num

/-- `EpochFrontierSnapshot`. -/
structure EpochFrontierSnapshot (N : JsNumbers) where
  epochId : Int
  activationSeed : Text
  activeEvalHiddenCount : Nat
  activated : Nat
  retired : Nat
  churnRate : N.Num
  reserveRemaining : Int
  cumulativeActivated : Nat
  cumulativeRetired : Nat
  activeIds : List Text
  activeRoot : String
  reserveRoot : String
  retiredRoot : String

section Frontier

variable (sha256 : Text → Bytes) (S : CompareSort) {N : JsNumbers}

/-- `h12`: the first twelve hex digits of a text's SHA-256. -/
def h12 (s : Text) : Int :=
  (readBE ((sha256 s).take 6) : Int)

/-- The default order of strings. -/
def compareText (a b : Text) : Int :=
  if a < b then -1 else if b < a then 1 else 0

/-- `rootHash`. -/
def rootHash (ids : List Text) : String :=
  bytesToHex (sha256 ([124].intercalate (S.sort compareText ids)))

/-! ### The order -/

/-- The ids of each family, in the order they were listed. -/
def groupByFamily (familyOf : Text → Option Text) (ids : List Text) : JsMap Text (List Text) :=
  ids.foldl (fun groups id =>
    let f := (familyOf id).getD (ascii "unknown")
    groups.set f ((groups.get f).getD [] ++ [id])) []

/-- A family in its seeded order. -/
def sortFamily (seed : Text) (ids : List Text) : List Text :=
  S.sort (fun a b =>
    let d := h12 sha256 (seed ++ ascii ":" ++ a) - h12 sha256 (seed ++ ascii ":" ++ b)
    if d ≠ 0 then d else if a < b then -1 else 1) ids

theorem le_sum_of_mem {n : Nat} {l : List Nat} (h : n ∈ l) : n ≤ l.sum := by
  induction l with
  | nil => simp at h
  | cons m l ih =>
      rw [List.sum_cons]
      rcases List.mem_cons.mp h with rfl | h
      · omega
      · have := ih h
        omega

/-- The round-robin loop over the families from round `i` on. -/
def interleaveFrom (families : List (List Text)) (i : Nat) : List Text :=
  if families.any fun arr => i < arr.length then
    families.filterMap (fun arr => arr[i]?) ++ interleaveFrom families (i + 1)
  else []
termination_by (families.map List.length).sum - i
decreasing_by
  obtain ⟨arr, harr, hlt⟩ := List.any_eq_true.mp ‹_›
  have hle : arr.length ≤ (families.map List.length).sum :=
    le_sum_of_mem (List.mem_map_of_mem harr)
  have := of_decide_eq_true hlt
  omega

/-- The ids, interleaved by family. -/
def interleaveFamilies (seed : Text) (familyOf : Text → Option Text) (ids : List Text) :
    List Text :=
  let groups := groupByFamily familyOf ids
  let famNames := S.sort compareText (groups.map Prod.fst)
  interleaveFrom (famNames.map fun f => sortFamily sha256 S seed ((groups.get f).getD [])) 0

/-! ### Construction -/

variable (p : EpochFrontierParams N)

def EpochFrontierParams.seedText : Text :=
  p.seed.getD (ascii "frontier")

/-- `K`: the size of the active window, from the order at construction. -/
def windowSize (order : List Text) : Int :=
  min (p.activeWindow.getD order.length) order.length

/-- A frontier: its window and its state. -/
structure Frontier (N : JsNumbers) where
  K : Int
  state : FrontierState N

/-- `makeEpochFrontier` without an initial state. -/
def makeEpochFrontier : Frontier N :=
  let order := interleaveFamilies sha256 S p.seedText p.familyOf p.evalHiddenIds
  { K := windowSize p order
    state :=
      { order := order, reservePtr := 0, active := [], retired := [], cumulativeActivated := 0,
        cumulativeRetired := 0, initialized := false, injectedSinceLastStep := 0,
        ewmaAccepts := none } }

/-- `new Map(entries)`. -/
def mapOf (entries : List (Text × Int)) : JsMap Text Int :=
  entries.foldl (fun m e => m.set e.1 e.2) []

/-- `new Set(ids)`. -/
def setOf (ids : List Text) : List Text :=
  ids.foldl (fun s id => if id ∈ s then s else s ++ [id]) []

/-- `EpochFrontierRuntimeState`. -/
structure EpochFrontierRuntimeState (N : JsNumbers) where
  schemaVersion : String
  order : List Text
  reservePtr : Nat
  active : List (Text × Int)
  retired : List Text
  cumulativeActivated : Nat
  cumulativeRetired : Nat
  initialized : Bool
  injectedSinceLastStep : Nat
  ewmaAccepts : Option N.Num

def stateSchema : String :=
  "coretex.epoch-frontier-state.v1"

/-- Why an initial state is refused. -/
inductive RestoreError
  | unsupportedSchema (version : String)
  | unknownId (field : String) (id : Text)
  deriving DecidableEq, Repr

/-- The first id that is not known, as an error. -/
def checkKnown (known : List Text) (field : String) (ids : List Text) :
    Except RestoreError Unit :=
  match ids.find? fun id => id ∉ known with
  | some id => .error (.unknownId field id)
  | none => .ok ()

/-- `makeEpochFrontier` with an initial state. -/
def restoreEpochFrontier (initialState : EpochFrontierRuntimeState N) :
    Except RestoreError (Frontier N) :=
  if initialState.schemaVersion ≠ stateSchema then
    .error (.unsupportedSchema initialState.schemaVersion)
  else do
    checkKnown p.evalHiddenIds "order" initialState.order
    checkKnown p.evalHiddenIds "active" (initialState.active.map Prod.fst)
    checkKnown p.evalHiddenIds "retired" initialState.retired
    .ok
      { K := windowSize p initialState.order
        state :=
          { order := initialState.order, reservePtr := initialState.reservePtr,
            active := mapOf initialState.active, retired := setOf initialState.retired,
            cumulativeActivated := initialState.cumulativeActivated,
            cumulativeRetired := initialState.cumulativeRetired,
            initialized := initialState.initialized,
            injectedSinceLastStep := initialState.injectedSinceLastStep,
            ewmaAccepts := initialState.ewmaAccepts } }

/-- `exportState`. -/
def exportState (s : FrontierState N) : EpochFrontierRuntimeState N where
  schemaVersion := stateSchema
  order := s.order
  reservePtr := s.reservePtr
  active := s.active
  retired := s.retired
  cumulativeActivated := s.cumulativeActivated
  cumulativeRetired := s.cumulativeRetired
  initialized := s.initialized
  injectedSinceLastStep := s.injectedSinceLastStep
  ewmaAccepts := s.ewmaAccepts

/-! ### Activation and retirement -/

/-- `retired.add(id)`. -/
def addRetired (retired : List Text) (id : Text) : List Text :=
  if id ∈ retired then retired else retired ++ [id]

/-- The loop of `activateNext`, with the ids it has activated so far. -/
def activateLoop (n : Int) (epoch : Int) (s : FrontierState N) (activated : List Text) :
    FrontierState N × List Text :=
  if _h : (activated.length : Int) < n ∧ s.reservePtr < s.order.length then
    let id := s.order.get ⟨s.reservePtr, _h.2⟩
    let next := { s with reservePtr := s.reservePtr + 1 }
    if ¬ s.active.has id ∧ id ∉ s.retired then
      activateLoop n epoch { next with
        active := s.active.set id epoch
        cumulativeActivated := s.cumulativeActivated + 1 } (activated ++ [id])
    else activateLoop n epoch next activated
  else (s, activated)
termination_by s.order.length - s.reservePtr

/-- `activateNext`: the ids it activates stand for their count. -/
def activateNext (n : Int) (epoch : Int) (s : FrontierState N) : FrontierState N × List Text :=
  activateLoop n epoch s []

/-- One id moves from the active map to the retired set. -/
def retireId (s : FrontierState N) (id : Text) : FrontierState N :=
  { s with
    active := s.active.delete id
    retired := addRetired s.retired id
    cumulativeRetired := s.cumulativeRetired + 1 }

/-- `orderIdx.get(id)`: the last place of an id in the order. -/
def orderIdx (order : List Text) (id : Text) : Int :=
  (order.length : Int) - 1 - (order.reverse.idxOf id : Int)

/-- `retireOldest`, with the ids it retires. -/
def retireOldest (n : N.Num) (s : FrontierState N) : FrontierState N × List Text :=
  let sorted := S.sort (fun x y : Text × Int =>
    if x.2 - y.2 ≠ 0 then x.2 - y.2 else orderIdx s.order x.1 - orderIdx s.order y.1) s.active
  let count := ((List.range sorted.length).takeWhile fun j : Nat => N.lt (N.lit j) n).length
  let ids := (sorted.take count).map Prod.fst
  (ids.foldl retireId s, ids)

/-- `snapshot`. -/
def snapshot (s : FrontierState N) (epoch : Int) (activated ret : Nat) (rate : N.Num) :
    EpochFrontierSnapshot N where
  epochId := epoch
  activationSeed := p.seedText
  activeEvalHiddenCount := s.active.length
  activated := activated
  retired := ret
  churnRate := rate
  reserveRemaining := (s.order.length : Int) - s.reservePtr
  cumulativeActivated := s.cumulativeActivated
  cumulativeRetired := s.cumulativeRetired
  activeIds := s.active.map Prod.fst
  activeRoot := rootHash sha256 S (s.active.map Prod.fst)
  reserveRoot := rootHash sha256 S (s.order.drop s.reservePtr)
  retiredRoot := rootHash sha256 S s.retired

/-! ### Steps -/

/-- The ids that have reached the age limit. -/
def agedIds (s : FrontierState N) (epoch : Int) : List Text :=
  let maxAge := p.maxAge.getD N.infinity
  if N.isFinite maxAge then
    (s.active.filter fun e => N.le maxAge (N.lit ((epoch - e.2 : Int) : Rat))).map Prod.fst
  else []

/-- The smoothed accepts after an epoch. -/
def nextEwma (ewmaAccepts prevHonestAccepts : Option N.Num) : Option N.Num :=
  let alpha := N.sub (N.lit 1) (N.pow (N.lit (1 / 2))
    (N.div (N.lit 1) (N.max (N.lit (1 / 2)) (orElse p.ewmaHalfLife 3))))
  match prevHonestAccepts with
  | none => ewmaAccepts
  | some accepts =>
    match ewmaAccepts with
    | none => some accepts
    | some ewma => some (N.add (N.mul alpha accepts) (N.mul (N.sub (N.lit 1) alpha) ewma))

/-- The churn that ids injected since the last step ask for. -/
def injectedRate (injected : Nat) : N.Num :=
  N.min (orElse p.maxChurn 12) (N.max (orElse p.minChurn 2) (N.lit injected))

/-- The rate of the headroom controller. -/
def headroomRate (ewmaAccepts : Option N.Num) : N.Num :=
  let targetAccepts := orElse p.targetAccepts 2
  let minChurn := orElse p.minChurn 2
  let recent := ewmaAccepts.getD targetAccepts
  let deficit := N.sub targetAccepts recent
  if N.le recent (orElse p.headroomLowWatermark 1) then
    N.min (orElse p.maxChurn 12) (N.max minChurn (N.ceil (N.div (N.max (N.lit 0) deficit)
      (N.max (N.lit (1 / 1000000)) (orElse p.expectedYieldPerUnit (17 / 100))))))
  else if N.le (orElse p.headroomHighWatermark 3) recent then N.lit 0
  else minChurn

/-- The rate of a mode, before the caps. -/
def modeRate (mode : EpochFrontierMode) (s : FrontierState N)
    (prevHonestAccepts prevQualityAttempts : Option N.Num) : N.Num :=
  let churnRate := orElse p.churnRate 4
  if mode = .C1 then churnRate
  else if mode = .C2 then
    if prevHonestAccepts.any fun accepts => N.lt accepts (orElse p.lowAdvancesThreshold 1) then
      p.lowAdvancesBumpRate.getD (N.mul churnRate (N.lit 2))
    else churnRate
  else if mode = .C4 then orElse p.minChurn 2
  else if mode = .C3 ∧ prevQualityAttempts.any fun attempts => N.beq attempts (N.lit 0) then
    if 0 < s.injectedSinceLastStep then injectedRate p s.injectedSinceLastStep else N.lit 0
  else headroomRate p s.ewmaAccepts

/-- The rate with the injected ids counted and the caps applied. -/
def cappedRate (mode : EpochFrontierMode) (s : FrontierState N) (rate : N.Num) : N.Num :=
  let rate :=
    if mode = .C3 ∧ 0 < s.injectedSinceLastStep then
      N.max rate (injectedRate p s.injectedSinceLastStep)
    else rate
  let rate := N.min rate (orElse p.maxRootDeltaPerEpoch 24)
  N.min rate (N.lit ((s.order.length - s.reservePtr : Nat) : Rat))

/-- What a step leaves, returns and activates. -/
structure StepResult (N : JsNumbers) where
  state : FrontierState N
  snapshot : EpochFrontierSnapshot N
  activatedIds : List Text

/-- The end of every branch of `stepEpoch`: activate, forget the injections, report. -/
def finishStep (n : Int) (epoch : Int) (ret : Nat) (rate : N.Num) (s : FrontierState N) :
    StepResult N :=
  let (s, ids) := activateNext n epoch s
  let s := { s with injectedSinceLastStep := 0 }
  { state := s, snapshot := snapshot sha256 S p s epoch ids.length ret rate, activatedIds := ids }

/-- `stepEpoch`. -/
def stepEpoch (K : Int) (s : FrontierState N) (epoch : Int)
    (prevHonestAccepts prevQualityAttempts : Option N.Num) : StepResult N :=
  let mode := p.mode.getD .off
  if ¬ s.initialized then finishStep sha256 S p K epoch 0 (N.lit 0) { s with initialized := true }
  else
    let aged := agedIds p s epoch
    let s := aged.foldl retireId s
    if mode = .off ∨ mode = .C0 then
      finishStep sha256 S p aged.length epoch aged.length (N.lit 0) s
    else
      let s := { s with ewmaAccepts := nextEwma p s.ewmaAccepts prevHonestAccepts }
      let rate := cappedRate p mode s (modeRate p mode s prevHonestAccepts prevQualityAttempts)
      let (s, oldest) := retireOldest S rate s
      let ret := aged.length + oldest.length
      finishStep sha256 S p ret epoch ret rate s

/-! ### Injection -/

/-- `addReserveIds`, with the count it returns. -/
def addReserveIds (newIds : List Text) (familyOfFn : Text → Option Text) (s : FrontierState N) :
    FrontierState N × Nat :=
  let unseen := newIds.filter fun id => ¬ s.active.has id ∧ id ∉ s.retired ∧ id ∉ s.order
  if unseen.length = 0 then (s, 0)
  else
    let segment := interleaveFamilies sha256 S p.seedText familyOfFn unseen
    ({ s with
        order := s.order.take s.reservePtr ++ segment ++ s.order.drop s.reservePtr
        injectedSinceLastStep := s.injectedSinceLastStep + unseen.length }, unseen.length)

/-! ### Runs -/

/-- A call on a frontier. -/
inductive Call (N : JsNumbers)
  | step (epoch : Int) (prevHonestAccepts prevQualityAttempts : Option N.Num)
  | add (newIds : List Text) (familyOfFn : Text → Option Text)

/-- What a call returns. -/
inductive Reply (N : JsNumbers)
  | snapshot (snapshot : EpochFrontierSnapshot N)
  | count (added : Nat)

/-- One call: the new state and the reply. -/
def call (K : Int) (s : FrontierState N) : Call N → FrontierState N × Reply N
  | .step epoch accepts attempts =>
    let r := stepEpoch sha256 S p K s epoch accepts attempts
    (r.state, .snapshot r.snapshot)
  | .add newIds familyOfFn =>
    let r := addReserveIds sha256 S p newIds familyOfFn s
    (r.1, .count r.2)

end Frontier

end CoreTex.EpochFrontier
