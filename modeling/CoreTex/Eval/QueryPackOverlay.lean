import CoreTex.Eval.HiddenQueryPack
import CoreTex.Lib.JsMap
import Mathlib.Data.Nat.Log

/-!
# CoreTex.Eval.QueryPackOverlay

The overlay of live events over a hidden query pack (`eval/hidden-query-pack.ts`): rounds that take
the newest active event of each family in turn, and the replacement of base events that keeps the
quotas.

The rounds run on fuel. `takeRounds_fuel`: with more fuel than rows to take, more changes nothing.
-/

namespace CoreTex.HiddenPack

open CoreTex.Lib

/-! ### Options and keys -/

structure ActiveLiveEvalPackOptions where
  activeIds : List String
  limit : JsNum
  familyPriority : Option (List String)
  dedupePublicIntent : Option Bool
  profile : Option HiddenPackProfile
  quotas : Option (List PackQuota)
  disabledFamilies : Option (List String)

/-- The double nearest to a whole number, ties to even. -/
def nearestDouble (n : Nat) : JsNum :=
  let unit := 2 ^ (Nat.log 2 n - 52)
  let quotient := n / unit
  let rest := n % unit
  let rounded :=
    if 2 * rest < unit then quotient
    else if unit < 2 * rest then quotient + 1
    else quotient + quotient % 2
  if 2 ^ 1024 ≤ rounded * unit then .inf false else .fin ((rounded * unit : Nat) : ℚ)

def isDigit (c : Char) : Bool :=
  '0' ≤ c && c ≤ '9'

/-- `liveEpochFromEventId`: the digits between `zz_e` and the next underscore. -/
def liveEpochFromEventId (id : String) : JsNum :=
  match id.toList with
  | 'z' :: 'z' :: '_' :: 'e' :: rest =>
    let digits := rest.takeWhile isDigit
    match digits, rest.dropWhile isDigit with
    | d :: ds, '_' :: _ =>
      nearestDouble ((d :: ds).foldl (fun n c => n * 10 + (c.toNat - '0'.toNat)) 0)
    | _, _ => .fin (-1)
  | _ => .fin (-1)

/-- `a ?? b`. -/
def orNullish (a b : JsValue) : JsValue :=
  match a with
  | .undefined => b
  | .null => b
  | _ => a

/-- A value that a key keeps. -/
def isPresent : JsValue → Bool
  | .undefined => false
  | .null => false
  | .str s => s ≠ ""
  | _ => true

/-- `stablePublicIntentKey`. -/
def stablePublicIntentKey (H : Host) (event : ProductionCorpusEvent) : Option String :=
  let pi := event.publicIntent
  let scope := event.scope
  let keys : List (String × JsValue) := [
    ("family", .str (familyOf event)),
    ("epoch", .num (liveEpochFromEventId event.id)),
    ("ownerEntityId", event.ownerEntityId),
    ("subjectEntityId", orNullish event.subjectEntityId (pi.field "subjectEntityId")),
    ("atom", pi.field "atom"),
    ("attribute", pi.field "attribute"),
    ("queryTime", pi.field "queryTime"),
    ("roleAlias", pi.field "roleAlias"),
    ("name", pi.field "name"),
    ("selector", pi.field "selector"),
    ("action", pi.field "action"),
    ("projectId", orNullish (pi.field "projectId") (scope.field "projectId")),
    ("sessionId", orNullish (pi.field "sessionId") (scope.field "sessionId")),
    ("topicId", orNullish (pi.field "topicId") (scope.field "topicId")),
    ("taskId", orNullish (pi.field "taskId") (scope.field "taskId")),
    ("userScopeId", orNullish (pi.field "userScopeId") (scope.field "userScopeId"))]
  let present := keys.filter fun e => isPresent e.2
  if present.any fun e => e.1 ≠ "family" && e.1 ≠ "epoch" then some (H.stringify (.obj present))
  else none

/-! ### The rounds -/

/-- Rows by family, as they are left. -/
abbrev Rows := JsMap String (List ProductionCorpusEvent)

def Rows.of (rows : Rows) (fam : String) : List ProductionCorpusEvent :=
  (rows.get fam).getD []

structure LiveState where
  byFamily : Rows
  deferredByFamily : Rows
  usedPublicIntentKeys : List String
  live : List ProductionCorpusEvent

/-- The first of some rows whose key was not used, behind those that wait. -/
def firstUnused (key : ProductionCorpusEvent → Option String) (used : List String) :
    List ProductionCorpusEvent → List ProductionCorpusEvent →
    Option ProductionCorpusEvent × List ProductionCorpusEvent × List ProductionCorpusEvent
  | deferred, [] => (none, [], deferred)
  | deferred, next :: rows =>
    match key next with
    | none => (some next, rows, deferred)
    | some k =>
      if used.contains k then firstUnused key used (deferred ++ [next]) rows
      else (some next, rows, deferred)

/-- `takeUnique`. -/
def takeUnique (key : ProductionCorpusEvent → Option String) (fam : String) (s : LiveState) :
    Option ProductionCorpusEvent × LiveState :=
  let (next, rows, deferred) :=
    firstUnused key s.usedPublicIntentKeys (s.deferredByFamily.of fam) (s.byFamily.of fam)
  (next, { s with
    byFamily := s.byFamily.set fam rows
    deferredByFamily := s.deferredByFamily.set fam deferred
    usedPublicIntentKeys := s.usedPublicIntentKeys ++ ((next.bind key).toList) })

/-- `takeDeferred`. -/
def takeDeferred (fam : String) (s : LiveState) : Option ProductionCorpusEvent × LiveState :=
  match s.deferredByFamily.of fam with
  | next :: rows => (some next, { s with deferredByFamily := s.deferredByFamily.set fam rows })
  | [] =>
    match s.byFamily.of fam with
    | next :: rows => (some next, { s with byFamily := s.byFamily.set fam rows })
    | [] => (none, s)

/-- One round over the families: what it leaves, and whether it took anything. -/
def takeRound (take : String → LiveState → Option ProductionCorpusEvent × LiveState)
    (limit : JsNum) : List String → LiveState → Bool → LiveState × Bool
  | [], s, advanced => (s, advanced)
  | fam :: fams, s, advanced =>
    if below s.live.length limit then
      match take fam s with
      | (none, s) => takeRound take limit fams s advanced
      | (some next, s) => takeRound take limit fams { s with live := s.live ++ [next] } true
    else (s, advanced)

/-- Rounds until one takes nothing. -/
def takeRounds (take : String → LiveState → Option ProductionCorpusEvent × LiveState)
    (limit : JsNum) (familyOrder : List String) : Nat → LiveState → LiveState
  | 0, s => s
  | fuel + 1, s =>
    if below s.live.length limit then
      match takeRound take limit familyOrder s false with
      | (s, true) => takeRounds take limit familyOrder fuel s
      | (s, false) => s
    else s

/-! ### Quotas -/

def quotasSatisfied (events : List ProductionCorpusEvent) (quotas : List PackQuota) : Bool :=
  quotas.all fun q => atLeast (stratumCount events q.stratum) q.minCount

/-- `events.slice(0, n)` of a count that is not negative. -/
def sliceTo (n : JsNum) (events : List ProductionCorpusEvent) : List ProductionCorpusEvent :=
  match n with
  | .nan => []
  | .inf negative => if negative then [] else events
  | .fin q => events.take ⌊q⌋.toNat

/-- The events while live ones move in, and the ids among them. -/
structure OverlayState where
  finalEvents : List ProductionCorpusEvent
  ids : List String

/-- One live event moves in at the front, if a place is found for it. -/
def overlayStep (maxEvents : JsNum) (quotas : List PackQuota)
    (isActiveLiveEval : ProductionCorpusEvent → Bool) (s : OverlayState)
    (candidate : ProductionCorpusEvent) : OverlayState :=
  if s.ids.contains candidate.id then s
  else if below s.finalEvents.length maxEvents then
    if quotasSatisfied (candidate :: s.finalEvents) quotas then
      ⟨candidate :: s.finalEvents, candidate.id :: s.ids⟩
    else s
  else
    -- the last base event that the quotas can spare makes room
    let spared (i : Nat) : Bool :=
      match s.finalEvents[i]? with
      | none => false
      | some e =>
        !isActiveLiveEval e && quotasSatisfied (sliceTo maxEvents
          (candidate :: (s.finalEvents.take i ++ s.finalEvents.drop (i + 1)))) quotas
    match (List.range s.finalEvents.length).reverse.find? spared with
    | none => s
    | some i =>
      let gone := (s.finalEvents[i]?.map ProductionCorpusEvent.id).toList
      ⟨candidate :: s.finalEvents.eraseIdx i,
        candidate.id :: s.ids.filter fun id => !gone.contains id⟩

/-- `quotaSafeLiveOverlay`. -/
def quotaSafeLiveOverlay (baseEvents liveEvents : List ProductionCorpusEvent) (maxEvents : JsNum)
    (quotas : List PackQuota) (isActiveLiveEval : ProductionCorpusEvent → Bool) :
    Except String (List ProductionCorpusEvent) :=
  if !quotasSatisfied baseEvents quotas then
    throw "admitActiveLiveEvalEvents: base hidden pack does not satisfy quotas"
  else pure (liveEvents.foldl (overlayStep maxEvents quotas isActiveLiveEval)
    ⟨baseEvents, baseEvents.map ProductionCorpusEvent.id⟩).finalEvents

/-! ### The overlay -/

structure ActiveLiveEvalPack where
  pack : QueryPack
  added : Nat
  liveEvalInPack : Nat
  familyCounts : JsMap String Nat

def ActiveLiveEvalPackOptions.isActiveLiveEval (opts : ActiveLiveEvalPackOptions)
    (e : ProductionCorpusEvent) : Bool :=
  let ofProfile (read : HiddenPackProfile → Option (List String)) : List String :=
    (opts.profile.bind read).getD []
  let disabledFamilies := ofProfile HiddenPackProfile.disabledFamilies ++
    ofProfile HiddenPackProfile.disabledSubstrateSurfaces ++ opts.disabledFamilies.getD []
  opts.activeIds.contains e.id && e.split = .eval_hidden &&
    "zz_e".toList.isPrefixOf e.id.toList && !decide ("_mem_".toList <:+: e.id.toList) &&
    !disabledFamilies.contains (familyOf e)

/-- A number of the host is below another one. -/
def JsNum.less : JsNum → JsNum → Bool
  | .nan, _ => false
  | _, .nan => false
  | .inf a, .inf b => a && !b
  | .inf a, .fin _ => a
  | .fin _, .inf b => !b
  | .fin p, .fin q => decide (p < q)

/-- Newest epoch first. The difference of two epochs is read by its sign only. -/
def newestFirst (a b : ProductionCorpusEvent) : Int :=
  let ea := liveEpochFromEventId a.id
  let eb := liveEpochFromEventId b.id
  if ea ≠ eb then if JsNum.less ea eb then 1 else -1 else codePointCompare a.id b.id

/-- The rows of each family, in corpus order. -/
def rowsByFamily (keep : ProductionCorpusEvent → Bool) (events : List ProductionCorpusEvent) :
    Rows :=
  events.foldl (fun rows e =>
    if keep e then rows.set (familyOf e) (rows.of (familyOf e) ++ [e]) else rows) []

/-- The place of a family: the last one it is named at. -/
def priorityOf (familyPriority : List String) (fam : String) : Int :=
  let priority : JsMap String Nat :=
    familyPriority.zipIdx.foldl (fun priority e => priority.set e.1 e.2) []
  ((priority.get fam).getD 999 : Nat)

def byPriority (familyPriority : List String) (a b : String) : Int :=
  let pa := priorityOf familyPriority a
  let pb := priorityOf familyPriority b
  if pa ≠ pb then pa - pb else codePointCompare a b

def countRows (rows : Rows) : Nat :=
  (rows.map fun e => e.2.length).sum

/-- The rows that can still be taken. -/
def LiveState.left (s : LiveState) : Nat :=
  countRows s.byFamily + countRows s.deferredByFamily

section Admit

variable (H : Host) (S : CompareSort)

/-- The live events in the order they are admitted. -/
def liveEvents (pack : QueryPack) (corpus : ProductionCorpus) (opts : ActiveLiveEvalPackOptions) :
    List ProductionCorpusEvent :=
  let existing := pack.events.map ProductionCorpusEvent.id
  let rows := rowsByFamily (fun e => opts.isActiveLiveEval e && !existing.contains e.id)
    corpus.events
  let byFamily : Rows := rows.map fun e => (e.1, S.sort newestFirst e.2)
  let familyOrder := S.sort (byPriority (opts.familyPriority.getD [])) (byFamily.map Prod.fst)
  let key (e : ProductionCorpusEvent) : Option String :=
    if opts.dedupePublicIntent ≠ some false then (stablePublicIntentKey H e).filter (· ≠ "")
    else none
  let s : LiveState := ⟨byFamily, [], [], []⟩
  let s := takeRounds (takeUnique key) opts.limit familyOrder (s.left + 1) s
  let s := takeRounds takeDeferred opts.limit familyOrder (s.left + 1) s
  s.live

/-- The events of a pack once live ones are laid over it. -/
def overlaidEvents (pack : QueryPack) (corpus : ProductionCorpus)
    (opts : ActiveLiveEvalPackOptions) : Except String (List ProductionCorpusEvent) :=
  let live := liveEvents H S pack corpus opts
  let maxEvents := if 0 < pack.events.length then .fin pack.events.length else opts.limit
  let quotas := opts.quotas.getD ((opts.profile.map HiddenPackProfile.quotas).getD [])
  if quotas.length = 0 then
    pure (if 0 < live.length then sliceTo maxEvents (live ++ pack.events) else pack.events)
  else quotaSafeLiveOverlay pack.events live maxEvents quotas opts.isActiveLiveEval

/-- `admitActiveLiveEvalEvents`. -/
def admitActiveLiveEvalEvents (pack : QueryPack) (corpus : ProductionCorpus)
    (opts : ActiveLiveEvalPackOptions) : Except String ActiveLiveEvalPack :=
  if !below 0 opts.limit then pure ⟨pack, 0, 0, []⟩
  else do
    let existing := pack.events.map ProductionCorpusEvent.id
    let finalEvents ← overlaidEvents H S pack corpus opts
    let active := finalEvents.filter opts.isActiveLiveEval
    return {
      pack := { pack with events := finalEvents }
      added := (active.filter fun e => !existing.contains e.id).length
      liveEvalInPack := active.length
      familyCounts := active.foldl (fun counts e =>
        counts.set (familyOf e) ((JsMap.get counts (familyOf e)).getD 0 + 1)) [] }

end Admit

/-! ### The fuel is enough -/

theorem countRows_set (rows : Rows) (fam : String) (left : List ProductionCorpusEvent) :
    countRows (rows.set fam left) + (rows.of fam).length = countRows rows + left.length := by
  induction rows with
  | nil => simp [JsMap.set, countRows, Rows.of]
  | cons e rows ih =>
      unfold countRows Rows.of at ih
      by_cases hkey : e.1 = fam
      · simp only [JsMap.set, countRows, Rows.of, JsMap.get_cons, if_pos hkey, List.map_cons,
          List.sum_cons, Option.getD_some]
        omega
      · simp only [JsMap.set, countRows, Rows.of, JsMap.get_cons, if_neg hkey, List.map_cons,
          List.sum_cons]
        omega

theorem firstUnused_length (key : ProductionCorpusEvent → Option String) (used : List String)
    (deferred rows : List ProductionCorpusEvent) :
    (firstUnused key used deferred rows).1.toList.length +
        (firstUnused key used deferred rows).2.1.length +
        (firstUnused key used deferred rows).2.2.length = deferred.length + rows.length := by
  induction rows generalizing deferred with
  | nil => simp [firstUnused]
  | cons next rows ih =>
      have hfound : (some next).toList.length + rows.length + deferred.length =
          deferred.length + (next :: rows).length := by
        simp only [Option.toList_some, List.length_cons, List.length_nil]
        omega
      rw [firstUnused]
      split
      · exact hfound
      · split
        · rw [ih, List.length_append, List.length_cons, List.length_cons, List.length_nil]
          omega
        · exact hfound

theorem takeUnique_left (key : ProductionCorpusEvent → Option String) (fam : String)
    (s : LiveState) :
    (takeUnique key fam s).1.toList.length + (takeUnique key fam s).2.left = s.left := by
  obtain ⟨found, hfound⟩ : ∃ found, firstUnused key s.usedPublicIntentKeys
      (s.deferredByFamily.of fam) (s.byFamily.of fam) = found := ⟨_, rfl⟩
  have hlength := firstUnused_length key s.usedPublicIntentKeys (s.deferredByFamily.of fam)
    (s.byFamily.of fam)
  have hrows := countRows_set s.byFamily fam found.2.1
  have hdeferred := countRows_set s.deferredByFamily fam found.2.2
  rw [hfound] at hlength
  have htake : takeUnique key fam s = (found.1, { s with
      byFamily := s.byFamily.set fam found.2.1
      deferredByFamily := s.deferredByFamily.set fam found.2.2
      usedPublicIntentKeys := s.usedPublicIntentKeys ++ ((found.1.bind key).toList) }) := by
    rw [takeUnique, hfound]
  rw [htake]
  simp only [LiveState.left]
  omega

theorem takeDeferred_left (fam : String) (s : LiveState) :
    (takeDeferred fam s).1.toList.length + (takeDeferred fam s).2.left = s.left := by
  rw [takeDeferred]
  split
  next next rows heq =>
    have hset := countRows_set s.deferredByFamily fam rows
    rw [heq, List.length_cons] at hset
    simp only [LiveState.left, Option.toList_some, List.length_cons, List.length_nil]
    omega
  next =>
    split
    next next rows heq =>
      have hset := countRows_set s.byFamily fam rows
      rw [heq, List.length_cons] at hset
      simp only [LiveState.left, Option.toList_some, List.length_cons, List.length_nil]
      omega
    next => simp

section Rounds

variable {take : String → LiveState → Option ProductionCorpusEvent × LiveState} (limit : JsNum)

/-- A round that takes something leaves fewer rows. -/
theorem takeRound_left
    (htake : ∀ fam s, (take fam s).1.toList.length + (take fam s).2.left = s.left)
    (fams : List String) (s : LiveState) (advanced : Bool) :
    (takeRound take limit fams s advanced).1.left ≤ s.left ∧
      ((takeRound take limit fams s advanced).2 = true →
        advanced = true ∨ (takeRound take limit fams s advanced).1.left < s.left) := by
  induction fams generalizing s advanced with
  | nil => exact ⟨le_rfl, .inl⟩
  | cons fam fams ih =>
      rw [takeRound]
      split
      · have hleft := htake fam s
        split
        next s' heq =>
          rw [heq, Option.toList_none, List.length_nil, Nat.zero_add] at hleft
          exact hleft ▸ ih s' advanced
        next next s' heq =>
          rw [heq, Option.toList_some, List.length_singleton] at hleft
          obtain ⟨hle, -⟩ := ih { s' with live := s'.live ++ [next] } true
          have hlive : LiveState.left { s' with live := s'.live ++ [next] } = s'.left := rfl
          dsimp only at hleft
          exact ⟨by omega, fun _ => .inr (by omega)⟩
      · exact ⟨le_rfl, .inl⟩

/-- With more fuel than rows, more fuel changes nothing. -/
theorem takeRounds_fuel
    (htake : ∀ fam s, (take fam s).1.toList.length + (take fam s).2.left = s.left)
    (familyOrder : List String) {fuel : Nat} {s : LiveState} (hfuel : s.left < fuel) :
    takeRounds take limit familyOrder (fuel + 1) s = takeRounds take limit familyOrder fuel s := by
  induction fuel generalizing s with
  | zero => omega
  | succ fuel ih =>
      rw [takeRounds, takeRounds]
      split
      · have hround := takeRound_left limit htake familyOrder s false
        split
        next s' heq =>
          rw [heq] at hround
          have hless : s'.left < s.left := (hround.2 rfl).resolve_left Bool.false_ne_true
          exact ih (by omega)
        next => rfl
      · rfl

end Rounds

/-! ### What is overlaid is in the pack or in the corpus -/

/-- Every event a state holds. -/
structure LiveState.All (P : ProductionCorpusEvent → Prop) (s : LiveState) : Prop where
  rows : ∀ e ∈ s.byFamily, ∀ x ∈ e.2, P x
  deferred : ∀ e ∈ s.deferredByFamily, ∀ x ∈ e.2, P x
  live : ∀ x ∈ s.live, P x

section Members

variable {P : ProductionCorpusEvent → Prop}

theorem Rows.forall_of {rows : Rows} (h : ∀ e ∈ rows, ∀ x ∈ e.2, P x) (fam : String) :
    ∀ x ∈ rows.of fam, P x := by
  intro x hx
  rw [Rows.of] at hx
  cases hget : rows.get fam with
  | none =>
      rw [hget] at hx
      cases hx
  | some found =>
      rw [hget] at hx
      obtain ⟨e, he, hfound⟩ := Option.map_eq_some_iff.mp hget
      exact h e (List.mem_of_find?_eq_some he) x (hfound ▸ hx)

theorem Rows.forall_set {rows : Rows} (h : ∀ e ∈ rows, ∀ x ∈ e.2, P x) {fam : String}
    {left : List ProductionCorpusEvent} (hleft : ∀ x ∈ left, P x) :
    ∀ e ∈ rows.set fam left, ∀ x ∈ e.2, P x := by
  intro e he
  rcases JsMap.mem_set he with rfl | he
  · exact hleft
  · exact h e he

theorem firstUnused_forall (key : ProductionCorpusEvent → Option String) (used : List String)
    {deferred rows : List ProductionCorpusEvent} (hdeferred : ∀ x ∈ deferred, P x)
    (hrows : ∀ x ∈ rows, P x) :
    (∀ x ∈ (firstUnused key used deferred rows).1, P x) ∧
      (∀ x ∈ (firstUnused key used deferred rows).2.1, P x) ∧
      ∀ x ∈ (firstUnused key used deferred rows).2.2, P x := by
  induction rows generalizing deferred with
  | nil => exact ⟨fun x hx => (Option.not_mem_none x hx).elim, hrows, hdeferred⟩
  | cons next rows ih =>
      obtain ⟨hnext, hrest⟩ := List.forall_mem_cons.mp hrows
      have hfound : (∀ x ∈ some next, P x) ∧ (∀ x ∈ rows, P x) ∧ ∀ x ∈ deferred, P x :=
        ⟨fun x hx => Option.mem_some_iff.mp hx ▸ hnext, hrest, hdeferred⟩
      rw [firstUnused]
      split
      · exact hfound
      · split
        · exact ih (forall_mem_concat hdeferred hnext) hrest
        · exact hfound

theorem takeUnique_forall (key : ProductionCorpusEvent → Option String) (fam : String)
    {s : LiveState} (h : s.All P) :
    (∀ x ∈ (takeUnique key fam s).1, P x) ∧ (takeUnique key fam s).2.All P := by
  obtain ⟨hnext, hrows, hdeferred⟩ := firstUnused_forall key s.usedPublicIntentKeys
    (Rows.forall_of h.deferred fam) (Rows.forall_of h.rows fam)
  exact ⟨hnext, Rows.forall_set h.rows hrows, Rows.forall_set h.deferred hdeferred, h.live⟩

theorem takeDeferred_forall (fam : String) {s : LiveState} (h : s.All P) :
    (∀ x ∈ (takeDeferred fam s).1, P x) ∧ (takeDeferred fam s).2.All P := by
  have hdeferred := Rows.forall_of h.deferred fam
  have hrows := Rows.forall_of h.rows fam
  rw [takeDeferred]
  split
  next next rows heq =>
    rw [heq] at hdeferred
    obtain ⟨hnext, hrest⟩ := List.forall_mem_cons.mp hdeferred
    exact ⟨fun x hx => Option.mem_some_iff.mp hx ▸ hnext, h.rows,
      Rows.forall_set h.deferred hrest, h.live⟩
  next =>
    split
    next next rows heq =>
      rw [heq] at hrows
      obtain ⟨hnext, hrest⟩ := List.forall_mem_cons.mp hrows
      exact ⟨fun x hx => Option.mem_some_iff.mp hx ▸ hnext, Rows.forall_set h.rows hrest,
        h.deferred, h.live⟩
    next => exact ⟨fun x hx => (Option.not_mem_none x hx).elim, h⟩

section Rounds

variable {take : String → LiveState → Option ProductionCorpusEvent × LiveState} (limit : JsNum)

theorem takeRound_forall
    (htake : ∀ fam s, LiveState.All P s → (∀ x ∈ (take fam s).1, P x) ∧ (take fam s).2.All P)
    (fams : List String) {s : LiveState} (advanced : Bool) (h : s.All P) :
    (takeRound take limit fams s advanced).1.All P := by
  induction fams generalizing s advanced with
  | nil => exact h
  | cons fam fams ih =>
      have hnext := htake fam s h
      rw [takeRound]
      split
      · split
        next s' heq =>
          rw [heq] at hnext
          exact ih advanced hnext.2
        next next s' heq =>
          rw [heq] at hnext
          exact ih true ⟨hnext.2.rows, hnext.2.deferred,
            forall_mem_concat hnext.2.live (hnext.1 next rfl)⟩
      · exact h

theorem takeRounds_forall
    (htake : ∀ fam s, LiveState.All P s → (∀ x ∈ (take fam s).1, P x) ∧ (take fam s).2.All P)
    (familyOrder : List String) (fuel : Nat) {s : LiveState} (h : s.All P) :
    (takeRounds take limit familyOrder fuel s).All P := by
  induction fuel generalizing s with
  | zero => exact h
  | succ fuel ih =>
      have hround := takeRound_forall limit htake familyOrder false h
      rw [takeRounds]
      split
      · split
        next s' heq =>
          rw [heq] at hround
          exact ih hround
        next s' heq =>
          rw [heq] at hround
          exact hround
      · exact h

end Rounds

theorem rowsByFamily_forall (keep : ProductionCorpusEvent → Bool)
    {events : List ProductionCorpusEvent} (h : ∀ x ∈ events, P x) :
    ∀ e ∈ rowsByFamily keep events, ∀ x ∈ e.2, P x := by
  rw [rowsByFamily]
  refine List.foldlRecOn events _ (motive := fun rows : Rows => ∀ e ∈ rows, ∀ x ∈ e.2, P x)
    (fun e he => absurd he List.not_mem_nil) fun rows hrows x hx => ?_
  split
  · exact Rows.forall_set hrows (forall_mem_concat (Rows.forall_of hrows _) (h x hx))
  · exact hrows

variable {H : Host} {S : CompareSort} {pack : QueryPack} {corpus : ProductionCorpus}
  {opts : ActiveLiveEvalPackOptions}

theorem liveEvents_forall (h : ∀ x ∈ corpus.events, P x) :
    ∀ x ∈ liveEvents H S pack corpus opts, P x := by
  rw [liveEvents]
  refine (takeRounds_forall _ (fun fam s => takeDeferred_forall fam) _ _
    (takeRounds_forall _ (fun fam s => takeUnique_forall _ fam) _ _ ⟨?_, ?_, ?_⟩)).live
  · intro e he x hx
    obtain ⟨row, hrow, rfl⟩ := List.mem_map.mp he
    exact rowsByFamily_forall _ h row hrow x ((S.mem_sort _).mp hx)
  · exact fun e he => absurd he List.not_mem_nil
  · exact fun x hx => absurd hx List.not_mem_nil

theorem overlayStep_forall {maxEvents : JsNum} {quotas : List PackQuota}
    {isActiveLiveEval : ProductionCorpusEvent → Bool} {s : OverlayState}
    {candidate : ProductionCorpusEvent} (h : ∀ x ∈ s.finalEvents, P x) (hcand : P candidate) :
    ∀ x ∈ (overlayStep maxEvents quotas isActiveLiveEval s candidate).finalEvents, P x := by
  rw [overlayStep]
  split
  · exact h
  · split
    · split
      · exact List.forall_mem_cons.mpr ⟨hcand, h⟩
      · exact h
    · dsimp only
      split
      · exact h
      · exact List.forall_mem_cons.mpr ⟨hcand, fun x hx => h x (List.mem_of_mem_eraseIdx hx)⟩

theorem sliceTo_subset (n : JsNum) (events : List ProductionCorpusEvent) :
    ∀ x ∈ sliceTo n events, x ∈ events := by
  intro x hx
  unfold sliceTo at hx
  split at hx
  · cases hx
  · split at hx
    · cases hx
    · exact hx
  · exact List.mem_of_mem_take hx

theorem overlaidEvents_forall {events : List ProductionCorpusEvent}
    (hpack : ∀ x ∈ pack.events, P x) (hcorpus : ∀ x ∈ corpus.events, P x)
    (hok : overlaidEvents H S pack corpus opts = .ok events) : ∀ x ∈ events, P x := by
  have hlive : ∀ x ∈ liveEvents H S pack corpus opts, P x := liveEvents_forall hcorpus
  rw [overlaidEvents] at hok
  split at hok
  · cases hok
    split
    · intro x hx
      rcases List.mem_append.mp (sliceTo_subset _ _ x hx) with hx | hx
      · exact hlive x hx
      · exact hpack x hx
    · exact hpack
  · rw [quotaSafeLiveOverlay] at hok
    split at hok
    · cases hok
    · cases hok
      exact List.foldlRecOn _ _ (motive := fun s : OverlayState => ∀ x ∈ s.finalEvents, P x) hpack
        fun s hs x hx => overlayStep_forall hs (hlive x hx)

/-- What the overlay leaves of a pack, and where its events come from. -/
theorem admitActiveLiveEvalEvents_ok {admitted : ActiveLiveEvalPack}
    (hpack : ∀ x ∈ pack.events, P x) (hcorpus : ∀ x ∈ corpus.events, P x)
    (hok : admitActiveLiveEvalEvents H S pack corpus opts = .ok admitted) :
    admitted.pack.epochId = pack.epochId ∧ admitted.pack.evalSeedHex = pack.evalSeedHex ∧
      admitted.pack.corpusRoot = pack.corpusRoot ∧ ∀ x ∈ admitted.pack.events, P x := by
  rw [admitActiveLiveEvalEvents] at hok
  split at hok
  · cases hok
    exact ⟨rfl, rfl, rfl, hpack⟩
  · obtain ⟨events, hevents, hok⟩ := bind_eq_ok.mp hok
    cases hok
    exact ⟨rfl, rfl, rfl, overlaidEvents_forall hpack hcorpus hevents⟩

/-- The overlay does not look at the seed that a pack shows. -/
theorem admitActiveLiveEvalEvents_seed {admitted : ActiveLiveEvalPack} (evalSeedHex : String)
    (hok : admitActiveLiveEvalEvents H S pack corpus opts = .ok admitted) :
    admitActiveLiveEvalEvents H S { pack with evalSeedHex := evalSeedHex } corpus opts =
      .ok { admitted with pack := { admitted.pack with evalSeedHex := evalSeedHex } } := by
  rw [admitActiveLiveEvalEvents] at hok ⊢
  split at hok
  next hlimit =>
    cases hok
    rw [if_pos hlimit]
    rfl
  next hlimit =>
    rw [if_neg hlimit]
    obtain ⟨events, hevents, hok⟩ := bind_eq_ok.mp hok
    cases hok
    have hsame : overlaidEvents H S { pack with evalSeedHex := evalSeedHex } corpus opts =
        overlaidEvents H S pack corpus opts := rfl
    dsimp only
    rw [hsame, hevents]
    rfl

end Members

end CoreTex.HiddenPack
