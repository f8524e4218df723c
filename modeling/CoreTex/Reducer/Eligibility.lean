import CoreTex.Lib.Except
import CoreTex.Lib.Firsts
import CoreTex.Lib.JsMap
import CoreTex.Lib.Sort
import CoreTex.Reducer.FundingTx
import CoreTex.State.Types
import Mathlib.Algebra.BigOperators.Group.Finset.Basic
import Mathlib.Algebra.Order.BigOperators.Group.Finset

/-!
# CoreTex.Reducer.Eligibility

The credit ledger of an epoch and the merge bonuses it leads to (`reducer/eligibility.ts`,
`reducer/multiplier-cap.ts`).

The three loops skip what they have seen by one rule, so each of them is `firsts` of its events.
From that: the ledger credits each patch of a miner once (`buildEpochEligibility_exact`), and the
bonus leaves do not depend on the order in which events arrive or on how often
(`bonusLeaves_eq`). Addresses and hashes are ASCII, where `toLower` is the host's `toLowerCase`.
-/

namespace CoreTex.Reducer

open CoreTex.Lib

/-! ### The ledger -/

/-- `ScreenerPassedEvent`, `PatchMergedEvent` and `MultiplierAccrual`, which hold the same. -/
structure PatchEvent where
  epoch : Nat
  miner : String
  patchHash : String
  deriving DecidableEq

structure CreditIssuance extends PatchEvent where
  tierCredits : Int
  deriving DecidableEq

inductive SkippedEvent
  | screener (ev : PatchEvent)
  | merger (ev : PatchEvent)
  deriving DecidableEq

def SkippedEvent.event : SkippedEvent → PatchEvent
  | .screener ev => ev
  | .merger ev => ev

structure EpochEligibility where
  creditIssuances : List CreditIssuance
  multiplierAccruals : List PatchEvent
  duplicatesSkipped : List SkippedEvent

def eligibilityKey (ev : PatchEvent) : String :=
  s!"{ev.epoch}:{ev.miner.toLower}:{ev.patchHash.toLower}"

/-- The state of the loops of `buildEpochEligibility`. -/
structure EligibilityLoop where
  seenScreener : List String
  seenMerger : List String
  ledger : EpochEligibility

def EligibilityLoop.skip (s : EligibilityLoop) (skipped : SkippedEvent) : EligibilityLoop :=
  { s with ledger := { s.ledger with
      duplicatesSkipped := s.ledger.duplicatesSkipped ++ [skipped] } }

def EligibilityLoop.credit (tierCreditsFor : String → Int) (s : EligibilityLoop)
    (ev : PatchEvent) : EligibilityLoop :=
  { s with
    seenScreener := s.seenScreener ++ [eligibilityKey ev]
    ledger := { s.ledger with
      creditIssuances := s.ledger.creditIssuances ++
        [{ ev with tierCredits := tierCreditsFor ev.miner }] } }

def EligibilityLoop.accrue (s : EligibilityLoop) (ev : PatchEvent) : EligibilityLoop :=
  { s with
    seenMerger := s.seenMerger ++ [eligibilityKey ev]
    ledger := { s.ledger with multiplierAccruals := s.ledger.multiplierAccruals ++ [ev] } }

def screenerStep (tierCreditsFor : String → Int) (s : EligibilityLoop) (ev : PatchEvent) :
    EligibilityLoop :=
  if eligibilityKey ev ∈ s.seenScreener then s.skip (.screener ev) else s.credit tierCreditsFor ev

def mergerStep (s : EligibilityLoop) (ev : PatchEvent) : EligibilityLoop :=
  -- a merge of what was not screened counts as a duplicate
  if eligibilityKey ev ∉ s.seenScreener then s.skip (.merger ev)
  else if eligibilityKey ev ∈ s.seenMerger then s.skip (.merger ev)
  else s.accrue ev

def buildEpochEligibility (screenerEvents mergedEvents : List PatchEvent)
    (tierCreditsFor : String → Int) : EpochEligibility :=
  let screened := screenerEvents.foldl (screenerStep tierCreditsFor) ⟨[], [], ⟨[], [], []⟩⟩
  (mergedEvents.foldl mergerStep screened).ledger

/-! ### Merge bonuses -/

def mergeMultiplierBps : Int := 10000

def bpsDivisor : Int := 10000

structure MinerClaimBase where
  miner : String
  claimBase : Int

def computeMinerBonus (miner : String) (claimBase multiplierBps : Int) :
    Except JsError MinerBonusLeaf := do
  refuseIf (claimBase < 0)
    (rangeError s!"computeMinerBonus: claimBase must be non-negative, got {claimBase}")
  let upliftBps := multiplierBps - bpsDivisor
  let bonusBotcoin := (upliftBps * claimBase).tdiv bpsDivisor
  return ⟨miner.toLower, bonusBotcoin, bonusBotcoin⟩

/-- `claimBaseMap`: a later entry of a miner replaces an earlier one. -/
def claimBaseMap (claimBases : List MinerClaimBase) : JsMap String Int :=
  claimBases.foldl (fun m cb => JsMap.set m cb.miner.toLower cb.claimBase) []

/-- The state of the loop of `buildEpochBonusLeaves`. -/
structure BonusLoop where
  seenMiners : List String
  leaves : List MinerBonusLeaf

def bonusStep (claimBases : JsMap String Int) (multiplierBps : Int) (s : BonusLoop)
    (accrual : PatchEvent) : Except JsError BonusLoop := do
  let miner := accrual.miner.toLower
  if miner ∈ s.seenMiners then return s
  let s := { s with seenMiners := s.seenMiners ++ [miner] }
  let claimBase := (JsMap.get claimBases miner).getD 0
  if claimBase = 0 then return s
  let leaf ← computeMinerBonus miner claimBase multiplierBps
  if leaf.bonusBotcoin = 0 then return s
  return { s with leaves := s.leaves ++ [leaf] }

def buildEpochBonusLeaves (S : CompareSort) (localeCompare : String → String → Int)
    (eligibility : EpochEligibility) (claimBases : List MinerClaimBase) (multiplierBps : Int) :
    Except JsError (List MinerBonusLeaf) := do
  let run ← eligibility.multiplierAccruals.foldlM
    (bonusStep (claimBaseMap claimBases) multiplierBps) ⟨[], []⟩
  return S.sort (fun a b => localeCompare a.miner b.miner) run.leaves

def computeEpochTotalBonus (leaves : List MinerBonusLeaf) : Int :=
  (leaves.map MinerBonusLeaf.bonusBotcoin).sum

/-! ### Keys -/

/-- What a key stands for: epoch, miner and patch, in lower case. -/
def PatchEvent.subject (ev : PatchEvent) : Nat × String × String :=
  (ev.epoch, ev.miner.toLower, ev.patchHash.toLower)

/-- No address holds a colon. -/
def ColonFree (events : List PatchEvent) : Prop :=
  ∀ ev ∈ events, ':' ∉ ev.miner.toLower.toList

theorem eligibilityKey_toList (ev : PatchEvent) :
    (eligibilityKey ev).toList =
      Nat.toDigits 10 ev.epoch ++ ':' :: (ev.miner.toLower.toList ++ ':' ::
        ev.patchHash.toLower.toList) := by
  simp [eligibilityKey]
  rfl

theorem colon_not_mem_toDigits (n : Nat) : ':' ∉ Nat.toDigits 10 n := fun h =>
  absurd (Nat.isDigit_of_mem_toDigits (by decide) (by decide) h) (by decide)

/-- Two texts cut at their first separator. -/
theorem append_sep_inj {α : Type} {sep : α} {x y z w : List α} (hx : sep ∉ x) (hy : sep ∉ y)
    (h : x ++ sep :: z = y ++ sep :: w) : x = y ∧ z = w := by
  induction x generalizing y with
  | nil =>
      cases y with
      | nil => exact ⟨rfl, List.tail_eq_of_cons_eq h⟩
      | cons c y => exact absurd (List.head_eq_of_cons_eq h ▸ List.mem_cons_self) hy
  | cons c x ih =>
      cases y with
      | nil => exact absurd (List.head_eq_of_cons_eq h ▸ List.mem_cons_self) hx
      | cons d y =>
          obtain ⟨rfl, hrest⟩ := List.cons_eq_cons.mp h
          obtain ⟨rfl, hz⟩ := ih (fun hc => hx (List.mem_cons_of_mem _ hc))
            (fun hc => hy (List.mem_cons_of_mem _ hc)) hrest
          exact ⟨rfl, hz⟩

/-- Keys are equal only where epoch, miner and patch are. -/
theorem subject_eq_of_key {a b : PatchEvent} (ha : ':' ∉ a.miner.toLower.toList)
    (hb : ':' ∉ b.miner.toLower.toList) (h : eligibilityKey a = eligibilityKey b) :
    a.subject = b.subject := by
  have hlists := congrArg String.toList h
  rw [eligibilityKey_toList, eligibilityKey_toList] at hlists
  obtain ⟨hepoch, hrest⟩ :=
    append_sep_inj (colon_not_mem_toDigits _) (colon_not_mem_toDigits _) hlists
  obtain ⟨hminer, hpatch⟩ := append_sep_inj ha hb hrest
  have hsame : a.epoch = b.epoch := by
    rw [← Nat.ofDigitChars_ten_toDigits (n := a.epoch), hepoch, Nat.ofDigitChars_ten_toDigits]
  exact Prod.ext hsame (Prod.ext (String.toList_injective hminer) (String.toList_injective hpatch))

theorem key_of_subject {a b : PatchEvent} (h : a.subject = b.subject) :
    eligibilityKey a = eligibilityKey b := by
  obtain ⟨hepoch, hrest⟩ := Prod.mk.inj h
  obtain ⟨hminer, hpatch⟩ := Prod.mk.inj hrest
  unfold eligibilityKey
  rw [hepoch, hminer, hpatch]

/-! ### Every event ends up in one place -/

/-- The events of a ledger, wherever they ended up. -/
def EpochEligibility.events (ledger : EpochEligibility) : List PatchEvent :=
  ledger.creditIssuances.map CreditIssuance.toPatchEvent ++ ledger.multiplierAccruals ++
    ledger.duplicatesSkipped.map SkippedEvent.event

theorem skip_events (s : EligibilityLoop) (skipped : SkippedEvent) :
    (s.skip skipped).ledger.events.Perm (skipped.event :: s.ledger.events) := by
  unfold EligibilityLoop.skip EpochEligibility.events
  rw [List.map_append, List.map_singleton, ← List.append_assoc]
  exact List.perm_append_singleton _ _

variable {tierCreditsFor : String → Int}

theorem credit_events (s : EligibilityLoop) (ev : PatchEvent) :
    (s.credit tierCreditsFor ev).ledger.events.Perm (ev :: s.ledger.events) := by
  unfold EligibilityLoop.credit EpochEligibility.events
  rw [List.map_append, List.append_assoc, List.append_assoc, List.append_assoc]
  exact List.perm_middle

theorem accrue_events (s : EligibilityLoop) (ev : PatchEvent) :
    (s.accrue ev).ledger.events.Perm (ev :: s.ledger.events) := by
  unfold EligibilityLoop.accrue EpochEligibility.events
  rw [← List.append_assoc, List.append_assoc]
  exact List.perm_middle

theorem screenerStep_events (s : EligibilityLoop) (ev : PatchEvent) :
    (screenerStep tierCreditsFor s ev).ledger.events.Perm (ev :: s.ledger.events) := by
  unfold screenerStep
  split
  next => exact skip_events s (.screener ev)
  next => exact credit_events s ev

theorem mergerStep_events (s : EligibilityLoop) (ev : PatchEvent) :
    (mergerStep s ev).ledger.events.Perm (ev :: s.ledger.events) := by
  unfold mergerStep
  split
  next => exact skip_events s (.merger ev)
  next =>
    split
    next => exact skip_events s (.merger ev)
    next => exact accrue_events s ev

/-- A loop whose steps each put one event away puts all of them away. -/
theorem foldl_events {step : EligibilityLoop → PatchEvent → EligibilityLoop}
    (hstep : ∀ s ev, (step s ev).ledger.events.Perm (ev :: s.ledger.events))
    (s : EligibilityLoop) (events : List PatchEvent) :
    (events.foldl step s).ledger.events.Perm (s.ledger.events ++ events) := by
  induction events generalizing s with
  | nil => rw [List.append_nil, List.foldl_nil]
  | cons ev events ih =>
      rw [List.foldl_cons]
      exact (ih _).trans (((hstep s ev).append_right events).trans List.perm_middle.symm)

/-! ### What the loops keep -/

theorem screener_foldl (s : EligibilityLoop) (events : List PatchEvent) :
    let new := firsts eligibilityKey s.seenScreener events
    let s' := events.foldl (screenerStep tierCreditsFor) s
    s'.seenScreener = s.seenScreener ++ new.map eligibilityKey ∧
      s'.seenMerger = s.seenMerger ∧
      s'.ledger.creditIssuances = s.ledger.creditIssuances ++
        new.map (fun ev => { ev with tierCredits := tierCreditsFor ev.miner }) ∧
      s'.ledger.multiplierAccruals = s.ledger.multiplierAccruals := by
  induction events generalizing s with
  | nil => simp
  | cons ev events ih =>
      rw [List.foldl_cons]
      by_cases h : eligibilityKey ev ∈ s.seenScreener
      · rw [screenerStep, if_pos h, firsts_cons_seen h]
        exact ih (s.skip (.screener ev))
      · rw [screenerStep, if_neg h, firsts_cons_new h]
        simpa [EligibilityLoop.credit] using ih (s.credit tierCreditsFor ev)

/-- Only what has been screened is merged. -/
theorem merger_foldl (s : EligibilityLoop) (events : List PatchEvent) :
    let s' := events.foldl mergerStep s
    s'.ledger.creditIssuances = s.ledger.creditIssuances ∧
      s'.ledger.multiplierAccruals = s.ledger.multiplierAccruals ++
        firsts eligibilityKey s.seenMerger
          (events.filter fun ev => eligibilityKey ev ∈ s.seenScreener) := by
  induction events generalizing s with
  | nil => simp
  | cons ev events ih =>
      rw [List.foldl_cons]
      by_cases hscreened : eligibilityKey ev ∈ s.seenScreener
      · rw [List.filter_cons_of_pos (by simpa using hscreened), mergerStep,
          if_neg (not_not.mpr hscreened)]
        by_cases h : eligibilityKey ev ∈ s.seenMerger
        · rw [if_pos h, firsts_cons_seen h]
          exact ih (s.skip (.merger ev))
        · obtain ⟨hcredits, haccruals⟩ := ih (s.accrue ev)
          rw [if_neg h, firsts_cons_new h]
          exact ⟨hcredits, haccruals.trans (List.append_assoc _ [ev] _)⟩
      · rw [List.filter_cons_of_neg (by simpa using hscreened), mergerStep, if_pos hscreened]
        exact ih (s.skip (.merger ev))

section Ledger

variable {screenerEvents mergedEvents : List PatchEvent}

theorem creditIssuances_eq :
    (buildEpochEligibility screenerEvents mergedEvents tierCreditsFor).creditIssuances =
      (firsts eligibilityKey [] screenerEvents).map
        fun ev => { ev with tierCredits := tierCreditsFor ev.miner } := by
  unfold buildEpochEligibility
  rw [(merger_foldl _ mergedEvents).1, (screener_foldl _ screenerEvents).2.2.1, List.nil_append]

theorem multiplierAccruals_eq :
    (buildEpochEligibility screenerEvents mergedEvents tierCreditsFor).multiplierAccruals =
      firsts eligibilityKey [] (mergedEvents.filter fun ev =>
        eligibilityKey ev ∈ screenerEvents.map eligibilityKey) := by
  obtain ⟨hseen, hmerger, -, haccruals⟩ :=
    @screener_foldl tierCreditsFor ⟨[], [], ⟨[], [], []⟩⟩ screenerEvents
  unfold buildEpochEligibility
  rw [(merger_foldl _ mergedEvents).2, haccruals, hmerger, hseen, List.nil_append, List.nil_append]
  congr 1
  refine List.filter_congr fun ev _ => decide_eq_decide.mpr ?_
  rw [mem_keys_firsts]
  exact and_iff_left List.not_mem_nil

/-- What a ledger says of the events it is made from, under the subjects of their keys. -/
structure Exact (screenerEvents mergedEvents : List PatchEvent) (tierCreditsFor : String → Int)
    (ledger : EpochEligibility) : Prop where
  once : (ledger.creditIssuances.map fun c => c.toPatchEvent.subject).Nodup
  credits : ∀ subject, subject ∈ ledger.creditIssuances.map (fun c => c.toPatchEvent.subject) ↔
    subject ∈ screenerEvents.map PatchEvent.subject
  tier : ∀ c ∈ ledger.creditIssuances, c.toPatchEvent ∈ screenerEvents ∧
    c.tierCredits = tierCreditsFor c.miner
  accruedOnce : (ledger.multiplierAccruals.map PatchEvent.subject).Nodup
  accruals : ∀ subject, subject ∈ ledger.multiplierAccruals.map PatchEvent.subject ↔
    subject ∈ screenerEvents.map PatchEvent.subject ∧
      subject ∈ mergedEvents.map PatchEvent.subject
  events : ledger.events.Perm (screenerEvents ++ mergedEvents)

/-- Subjects are told apart by keys that are. -/
theorem nodup_subjects {events : List PatchEvent}
    (h : (events.map eligibilityKey).Nodup) : (events.map PatchEvent.subject).Nodup := by
  rw [List.nodup_map_iff_inj_on (List.Nodup.of_map _ h)]
  intro a ha b hb hab
  exact List.inj_on_of_nodup_map h ha hb (key_of_subject hab)

/-- A subject of some events is one of the first events of their keys. -/
theorem mem_subjects_firsts {events : List PatchEvent} (h : ColonFree events)
    {subject : Nat × String × String} :
    subject ∈ (firsts eligibilityKey [] events).map PatchEvent.subject ↔
      subject ∈ events.map PatchEvent.subject := by
  refine ⟨fun hmem => List.map_subset _ firsts_subset hmem, fun hmem => ?_⟩
  obtain ⟨ev, hev, rfl⟩ := List.mem_map.mp hmem
  have hkey : eligibilityKey ev ∈ (firsts eligibilityKey [] events).map eligibilityKey :=
    mem_keys_firsts.mpr ⟨List.mem_map_of_mem hev, List.not_mem_nil⟩
  obtain ⟨first, hfirst, hsame⟩ := List.mem_map.mp hkey
  exact List.mem_map.mpr
    ⟨first, hfirst, subject_eq_of_key (h first (firsts_subset hfirst)) (h ev hev) hsame⟩

/-- **Every patch is credited once.** A subject is credited once where it was screened and accrued
once where it was merged as well, in any order of the events, and no event is lost. -/
theorem buildEpochEligibility_exact (screenerEvents mergedEvents : List PatchEvent)
    (tierCreditsFor : String → Int) (hminers : ColonFree (screenerEvents ++ mergedEvents)) :
    Exact screenerEvents mergedEvents tierCreditsFor
      (buildEpochEligibility screenerEvents mergedEvents tierCreditsFor) := by
  have hscreened : ColonFree screenerEvents := fun ev hev =>
    hminers ev (List.mem_append_left _ hev)
  have hmerged : ColonFree mergedEvents := fun ev hev => hminers ev (List.mem_append_right _ hev)
  have hcredits : (buildEpochEligibility screenerEvents mergedEvents
      tierCreditsFor).creditIssuances.map (fun c => c.toPatchEvent.subject) =
        (firsts eligibilityKey [] screenerEvents).map PatchEvent.subject := by
    rw [creditIssuances_eq, List.map_map]
    rfl
  refine ⟨?_, ?_, ?_, ?_, ?_, ?_⟩
  · rw [hcredits]
    exact nodup_subjects nodup_keys_firsts
  · intro subject
    rw [hcredits]
    exact mem_subjects_firsts hscreened
  · intro c hc
    rw [creditIssuances_eq] at hc
    obtain ⟨ev, hev, rfl⟩ := List.mem_map.mp hc
    exact ⟨firsts_subset hev, rfl⟩
  · rw [multiplierAccruals_eq]
    exact nodup_subjects nodup_keys_firsts
  · intro subject
    rw [multiplierAccruals_eq,
      mem_subjects_firsts fun ev hev => hmerged ev (List.mem_of_mem_filter hev)]
    constructor
    · intro hmem
      obtain ⟨ev, hev, rfl⟩ := List.mem_map.mp hmem
      obtain ⟨hev, hkey⟩ := List.mem_filter.mp hev
      obtain ⟨screened, hs, hsame⟩ := List.mem_map.mp (of_decide_eq_true hkey)
      refine ⟨List.mem_map.mpr ⟨screened, hs, ?_⟩, List.mem_map_of_mem hev⟩
      exact subject_eq_of_key (hscreened screened hs) (hmerged ev hev) hsame
    · rintro ⟨hs, hm⟩
      obtain ⟨ev, hev, rfl⟩ := List.mem_map.mp hm
      obtain ⟨screened, hs, hsame⟩ := List.mem_map.mp hs
      refine List.mem_map_of_mem (List.mem_filter.mpr ⟨hev, decide_eq_true ?_⟩)
      exact List.mem_map.mpr ⟨screened, hs, key_of_subject hsame⟩
  · unfold buildEpochEligibility
    exact (foldl_events mergerStep_events _ _).trans
      ((foldl_events screenerStep_events _ _).append_right _)

/-- A pass and its merge under two spellings of the address, and a repeated pass. -/
theorem buildEpochEligibility_exact_sample :
    Exact [⟨1, "0xAB", "0x1"⟩, ⟨1, "0xab", "0x1"⟩] [⟨1, "0xaB", "0x1"⟩] (fun _ => 5)
      (buildEpochEligibility [⟨1, "0xAB", "0x1"⟩, ⟨1, "0xab", "0x1"⟩] [⟨1, "0xaB", "0x1"⟩]
        fun _ => 5) :=
  buildEpochEligibility_exact _ _ _ (by
    intro ev hev
    fin_cases hev <;> decide +kernel)

end Ledger

/-! ### Bonus leaves -/

/-- The miner of an event as the bonus loop knows it. -/
def PatchEvent.lowerMiner (ev : PatchEvent) : String :=
  ev.miner.toLower

/-- The claim base of a miner, none counting as zero. -/
def baseOf (claimBases : List MinerClaimBase) (miner : String) : Int :=
  (JsMap.get (claimBaseMap claimBases) miner).getD 0

/-- The leaf of a miner, where there is something to pay. -/
def leafOf (base : String → Int) (multiplierBps : Int) (miner : String) : Option MinerBonusLeaf :=
  let bonus := ((multiplierBps - bpsDivisor) * base miner).tdiv bpsDivisor
  if base miner = 0 ∨ bonus = 0 then none else some ⟨miner.toLower, bonus, bonus⟩

/-- The miners of some accruals, each once. -/
def bonusMiners (accruals : List PatchEvent) : List String :=
  (firsts PatchEvent.lowerMiner [] accruals).map PatchEvent.lowerMiner

section Bonus

variable {claimBases : List MinerClaimBase} {multiplierBps : Int}

theorem computeMinerBonus_eq_ok {miner : String} {claimBase : Int} {leaf : MinerBonusLeaf} :
    computeMinerBonus miner claimBase multiplierBps = .ok leaf ↔
      0 ≤ claimBase ∧ leaf = ⟨miner.toLower,
        ((multiplierBps - bpsDivisor) * claimBase).tdiv bpsDivisor,
        ((multiplierBps - bpsDivisor) * claimBase).tdiv bpsDivisor⟩ := by
  unfold computeMinerBonus
  rw [refuseIf_bind_eq_ok, pure_eq_ok, not_lt, eq_comm (a := leaf)]

/-- A step on a miner that has not been seen. -/
theorem bonusStep_eq_ok {s s' : BonusLoop} {accrual : PatchEvent}
    (hnew : accrual.lowerMiner ∉ s.seenMiners) :
    bonusStep (claimBaseMap claimBases) multiplierBps s accrual = .ok s' ↔
      0 ≤ baseOf claimBases accrual.lowerMiner ∧
        s' = ⟨s.seenMiners ++ [accrual.lowerMiner], s.leaves ++
          (leafOf (baseOf claimBases) multiplierBps accrual.lowerMiner).toList⟩ := by
  unfold bonusStep leafOf baseOf PatchEvent.lowerMiner at *
  dsimp only
  rw [if_neg hnew]
  generalize accrual.miner.toLower = miner
  generalize (JsMap.get (claimBaseMap claimBases) miner).getD 0 = base
  by_cases hzero : base = 0
  · rw [if_pos hzero, if_pos (.inl hzero), pure_eq_ok, eq_comm, Option.toList_none, List.append_nil]
    exact (and_iff_right hzero.ge).symm
  by_cases hneg : base < 0
  · have hthrows : computeMinerBonus miner base multiplierBps = .error (rangeError
        s!"computeMinerBonus: claimBase must be non-negative, got {base}") := by
      unfold computeMinerBonus
      rw [refuseIf_of hneg]
      rfl
    rw [if_neg hzero, hthrows, error_bind]
    exact iff_of_false nofun fun h => absurd h.1 (not_le.mpr hneg)
  have hleaf : computeMinerBonus miner base multiplierBps = .ok _ :=
    computeMinerBonus_eq_ok.mpr ⟨not_lt.mp hneg, rfl⟩
  rw [if_neg hzero, hleaf, ok_bind, and_iff_right (not_lt.mp hneg), eq_comm (a := s')]
  by_cases hbonus : ((multiplierBps - bpsDivisor) * base).tdiv bpsDivisor = 0
  · rw [if_pos hbonus, if_pos (.inr hbonus), pure_eq_ok, Option.toList_none, List.append_nil]
  · rw [if_neg hbonus, if_neg (not_or.mpr ⟨hzero, hbonus⟩), pure_eq_ok]
    rfl

/-- The loop pays each miner of the accruals once. -/
theorem bonusRun_eq_ok {accruals : List PatchEvent} {s s' : BonusLoop} :
    let miners := (firsts PatchEvent.lowerMiner s.seenMiners accruals).map PatchEvent.lowerMiner
    accruals.foldlM (bonusStep (claimBaseMap claimBases) multiplierBps) s = .ok s' ↔
      (∀ miner ∈ miners, 0 ≤ baseOf claimBases miner) ∧
        s' = ⟨s.seenMiners ++ miners,
          s.leaves ++ miners.filterMap (leafOf (baseOf claimBases) multiplierBps)⟩ := by
  induction accruals generalizing s with
  | nil =>
      rw [List.foldlM_nil, pure_eq_ok, eq_comm]
      simp
  | cons accrual accruals ih =>
      rw [List.foldlM_cons]
      by_cases h : accrual.lowerMiner ∈ s.seenMiners
      · have hstep : bonusStep (claimBaseMap claimBases) multiplierBps s accrual = .ok s :=
          if_pos h
        rw [hstep, ok_bind, firsts_cons_seen h]
        exact ih
      · rw [firsts_cons_new h, bind_eq_ok]
        simp only [bonusStep_eq_ok h, List.map_cons, List.forall_mem_cons]
        constructor
        · rintro ⟨_, ⟨hbase, rfl⟩, hrest⟩
          obtain ⟨hall, rfl⟩ := ih.mp hrest
          refine ⟨⟨hbase, hall⟩, ?_⟩
          cases hleaf : leafOf (baseOf claimBases) multiplierBps accrual.lowerMiner <;>
            simp [hleaf]
        · rintro ⟨⟨hbase, hall⟩, rfl⟩
          refine ⟨_, ⟨hbase, rfl⟩, ih.mpr ⟨hall, ?_⟩⟩
          cases hleaf : leafOf (baseOf claimBases) multiplierBps accrual.lowerMiner <;>
            simp [hleaf]

/-- When there are leaves, and which. -/
theorem bonusLeaves_eq_ok {S : CompareSort} {localeCompare : String → String → Int}
    {eligibility : EpochEligibility} {leaves : List MinerBonusLeaf} :
    buildEpochBonusLeaves S localeCompare eligibility claimBases multiplierBps = .ok leaves ↔
      (∀ miner ∈ bonusMiners eligibility.multiplierAccruals, 0 ≤ baseOf claimBases miner) ∧
        leaves = S.sort (fun a b => localeCompare a.miner b.miner)
          ((bonusMiners eligibility.multiplierAccruals).filterMap
            (leafOf (baseOf claimBases) multiplierBps)) := by
  unfold buildEpochBonusLeaves
  rw [bind_eq_ok]
  constructor
  · rintro ⟨run, hrun, hleaves⟩
    obtain ⟨hall, rfl⟩ := bonusRun_eq_ok.mp hrun
    exact ⟨hall, (pure_eq_ok.mp hleaves).symm⟩
  · rintro ⟨hall, rfl⟩
    exact ⟨_, bonusRun_eq_ok.mpr ⟨hall, rfl⟩, rfl⟩

/-- The claim base of a miner that is listed once. -/
theorem get_claimBaseMap (hdistinct : (claimBases.map fun cb => cb.miner.toLower).Nodup)
    {miner : String} {claimBase : Int} :
    JsMap.get (claimBaseMap claimBases) miner = some claimBase ↔
      ∃ cb ∈ claimBases, cb.miner.toLower = miner ∧ cb.claimBase = claimBase := by
  unfold claimBaseMap
  induction claimBases using List.reverseRecOn with
  | nil => simp
  | append_singleton claimBases cb ih =>
      rw [List.map_append, List.map_singleton, List.nodup_append] at hdistinct
      obtain ⟨hnodup, -, hapart⟩ := hdistinct
      rw [List.foldl_append, List.foldl_cons, List.foldl_nil, JsMap.get_set]
      simp only [List.mem_append, List.mem_singleton]
      by_cases hminer : cb.miner.toLower = miner
      · rw [if_pos hminer, Option.some.injEq]
        constructor
        · exact fun h => ⟨cb, .inr rfl, hminer, h⟩
        · rintro ⟨other, hother | rfl, hsame, h⟩
          · exact absurd (hsame.trans hminer.symm)
              (hapart _ (List.mem_map_of_mem hother) _ (List.mem_singleton.mpr rfl))
          · exact h
      · rw [if_neg hminer, ih hnodup]
        constructor
        · rintro ⟨other, hother, h⟩
          exact ⟨other, .inl hother, h⟩
        · rintro ⟨other, hother | rfl, hsame, h⟩
          · exact ⟨other, hother, hsame, h⟩
          · exact absurd hsame hminer

theorem baseOf_eq {claimBases' : List MinerClaimBase}
    (hdistinct : (claimBases.map fun cb => cb.miner.toLower).Nodup)
    (hperm : claimBases.Perm claimBases') : baseOf claimBases = baseOf claimBases' := by
  have hdistinct' := (hperm.map fun cb => cb.miner.toLower).nodup_iff.mp hdistinct
  funext miner
  unfold baseOf
  congr 1
  refine Option.ext fun claimBase => ?_
  rw [get_claimBaseMap hdistinct, get_claimBaseMap hdistinct']
  simp only [hperm.mem_iff]

/-- Of different miners come different leaves. -/
theorem leafOf_eq_some {base : String → Int} {miner : String} {leaf : MinerBonusLeaf}
    (h : leafOf base multiplierBps miner = some leaf) :
    leaf = ⟨miner.toLower, ((multiplierBps - bpsDivisor) * base miner).tdiv bpsDivisor,
      ((multiplierBps - bpsDivisor) * base miner).tdiv bpsDivisor⟩ := by
  unfold leafOf at h
  dsimp only at h
  split at h
  next => cases h
  next => exact (Option.some.inj h).symm

end Bonus

/-! ### Order of arrival -/

/-- A comparison that orders texts, and ties none of those given. -/
structure OrdersTexts (localeCompare : String → String → Int) (texts : List String) : Prop where
  consistent : Consistent localeCompare
  ties : ∀ a ∈ texts, ∀ b ∈ texts, localeCompare a b ≤ 0 → localeCompare b a ≤ 0 → a = b

section Arrival

variable {screenerEvents screenerEvents' mergedEvents mergedEvents' : List PatchEvent}
  {tierCreditsFor tierCreditsFor' : String → Int}

/-- The accrued subjects are those of the events, however they arrive. -/
theorem accrued_subjects_iff (hminers : ColonFree (screenerEvents ++ mergedEvents))
    (hscreener : ∀ ev, ev ∈ screenerEvents ↔ ev ∈ screenerEvents')
    (hmerged : ∀ ev, ev ∈ mergedEvents ↔ ev ∈ mergedEvents') (subject : Nat × String × String) :
    subject ∈ (buildEpochEligibility screenerEvents mergedEvents
        tierCreditsFor).multiplierAccruals.map PatchEvent.subject ↔
      subject ∈ (buildEpochEligibility screenerEvents' mergedEvents'
        tierCreditsFor').multiplierAccruals.map PatchEvent.subject := by
  have hminers' : ColonFree (screenerEvents' ++ mergedEvents') := by
    intro ev hev
    refine hminers ev ?_
    rw [List.mem_append] at hev ⊢
    rwa [hscreener, hmerged]
  rw [(buildEpochEligibility_exact _ _ _ hminers).accruals,
    (buildEpochEligibility_exact _ _ _ hminers').accruals]
  simp only [List.mem_map, hscreener, hmerged]

theorem bonusMiners_perm {accruals accruals' : List PatchEvent}
    (h : ∀ subject, subject ∈ accruals.map PatchEvent.subject ↔
      subject ∈ accruals'.map PatchEvent.subject) :
    (bonusMiners accruals).Perm (bonusMiners accruals') := by
  refine keys_firsts_perm fun miner => ?_
  have hminer (events : List PatchEvent) : miner ∈ events.map PatchEvent.lowerMiner ↔
      ∃ subject ∈ events.map PatchEvent.subject, subject.2.1 = miner := by
    simp [PatchEvent.subject, PatchEvent.lowerMiner]
  rw [hminer, hminer]
  simp only [h]

/-- A miner that is paid has merged something, and is in lower case. -/
theorem lower_of_mem_bonusMiners {miner : String}
    (h : miner ∈ bonusMiners (buildEpochEligibility screenerEvents mergedEvents
      tierCreditsFor).multiplierAccruals) :
    miner ∈ mergedEvents.map PatchEvent.lowerMiner ∧ miner.toLower = miner := by
  obtain ⟨ev, hev, rfl⟩ := List.mem_map.mp h
  have hev := firsts_subset hev
  rw [multiplierAccruals_eq] at hev
  exact ⟨List.mem_map_of_mem (List.mem_of_mem_filter (firsts_subset hev)), toLower_toLower _⟩

/-- **The leaves do not depend on how events arrive.** In any order, and any number of times. -/
theorem bonusLeaves_eq (S : CompareSort) (localeCompare : String → String → Int)
    (multiplierBps : Int) {claimBases claimBases' : List MinerClaimBase}
    (hminers : ColonFree (screenerEvents ++ mergedEvents))
    (hscreener : ∀ ev, ev ∈ screenerEvents ↔ ev ∈ screenerEvents')
    (hmerged : ∀ ev, ev ∈ mergedEvents ↔ ev ∈ mergedEvents')
    (hdistinct : (claimBases.map fun cb => cb.miner.toLower).Nodup)
    (hbases : claimBases.Perm claimBases')
    (horder : OrdersTexts localeCompare (mergedEvents.map PatchEvent.lowerMiner)) :
    (buildEpochBonusLeaves S localeCompare (buildEpochEligibility screenerEvents mergedEvents
        tierCreditsFor) claimBases multiplierBps).toOption =
      (buildEpochBonusLeaves S localeCompare (buildEpochEligibility screenerEvents' mergedEvents'
        tierCreditsFor') claimBases' multiplierBps).toOption := by
  have hperm : (bonusMiners (buildEpochEligibility screenerEvents mergedEvents
      tierCreditsFor).multiplierAccruals).Perm (bonusMiners (buildEpochEligibility screenerEvents'
        mergedEvents' tierCreditsFor').multiplierAccruals) :=
    bonusMiners_perm (accrued_subjects_iff hminers hscreener hmerged)
  have hcmp : Consistent fun a b : MinerBonusLeaf => localeCompare a.miner b.miner :=
    ⟨fun _ _ => horder.consistent.swap _ _, fun _ _ _ => horder.consistent.trans _ _ _⟩
  have hsort := S.sort_eq_of_perm hcmp
    (hperm.filterMap (leafOf (baseOf claimBases) multiplierBps)) (by
      intro a ha b hb hab hba
      obtain ⟨m, hm, ha⟩ := List.mem_filterMap.mp ha
      obtain ⟨n, hn, hb⟩ := List.mem_filterMap.mp hb
      obtain ⟨hm, hlowerm⟩ := lower_of_mem_bonusMiners hm
      obtain ⟨hn, hlowern⟩ := lower_of_mem_bonusMiners hn
      have hsame : m = n := by
        refine horder.ties m hm n hn ?_ ?_
        · simpa only [leafOf_eq_some ha, leafOf_eq_some hb, hlowerm, hlowern] using hab
        · simpa only [leafOf_eq_some ha, leafOf_eq_some hb, hlowerm, hlowern] using hba
      rw [hsame, hb] at ha
      exact (Option.some.inj ha).symm)
  refine Option.ext fun leaves => ?_
  rw [toOption_eq_some, toOption_eq_some, bonusLeaves_eq_ok, bonusLeaves_eq_ok,
    ← baseOf_eq hdistinct hbases, hsort]
  simp only [hperm.mem_iff]

/-- Texts by their length. -/
def byLength (a b : String) : Int :=
  (a.length : Int) - b.length

/-- Two miners, their events doubled and turned around. -/
theorem bonusLeaves_eq_sample :
    (buildEpochBonusLeaves .merge byLength (buildEpochEligibility
        [⟨1, "0xa", "0x1"⟩, ⟨1, "0xbb", "0x2"⟩] [⟨1, "0xa", "0x1"⟩, ⟨1, "0xbb", "0x2"⟩] fun _ => 5)
        [⟨"0xa", 100⟩, ⟨"0xbb", 300⟩] 20000).toOption =
      (buildEpochBonusLeaves .merge byLength (buildEpochEligibility
        [⟨1, "0xbb", "0x2"⟩, ⟨1, "0xa", "0x1"⟩] [⟨1, "0xbb", "0x2"⟩, ⟨1, "0xbb", "0x2"⟩,
          ⟨1, "0xa", "0x1"⟩] fun _ => 5)
        [⟨"0xbb", 300⟩, ⟨"0xa", 100⟩] 20000).toOption :=
  bonusLeaves_eq .merge byLength 20000
    (by intro ev hev; fin_cases hev <;> decide +kernel)
    (by intro ev; simp [or_comm]) (by intro ev; simp only [List.mem_cons]; tauto)
    (by decide +kernel) (List.Perm.swap _ _ _)
    { consistent := ⟨fun a b => by unfold byLength; omega, fun a b c => by unfold byLength; omega⟩
      ties := by decide +kernel }

end Arrival

/-! ### Funding -/

section Funding

variable {claimBases : List MinerClaimBase} {multiplierBps : Int}

/-- What the leaf of a miner pays, none counting as zero. -/
theorem bonus_leafOf (base : String → Int) (miner : String) :
    ((leafOf base multiplierBps miner).map MinerBonusLeaf.bonusBotcoin).getD 0 =
      ((multiplierBps - bpsDivisor) * base miner).tdiv bpsDivisor := by
  unfold leafOf
  dsimp only
  split
  next h =>
    rcases h with h | h
    · rw [h, Int.mul_zero, Int.zero_tdiv]
      rfl
    · rw [h]
      rfl
  next => rfl

/-- What the leaves of some miners pay together. -/
theorem sum_leaves (base : String → Int) (miners : List String) :
    computeEpochTotalBonus (miners.filterMap (leafOf base multiplierBps)) =
      (miners.map fun miner =>
        ((multiplierBps - bpsDivisor) * base miner).tdiv bpsDivisor).sum := by
  induction miners with
  | nil => rfl
  | cons miner miners ih =>
      rw [List.map_cons, List.sum_cons, ← ih, ← bonus_leafOf base miner]
      cases hleaf : leafOf base multiplierBps miner with
      | none => rw [List.filterMap_cons_none hleaf, Option.map_none, Option.getD_none, zero_add]
      | some leaf =>
          rw [List.filterMap_cons_some hleaf]
          simp [computeEpochTotalBonus]

/-- A bonus is no more than its part of the claim base. -/
theorem bonus_le {base : Int} (huplift : bpsDivisor ≤ multiplierBps) (hbase : 0 ≤ base) :
    bpsDivisor * ((multiplierBps - bpsDivisor) * base).tdiv bpsDivisor ≤
      (multiplierBps - bpsDivisor) * base := by
  have hprod : 0 ≤ (multiplierBps - bpsDivisor) * base :=
    Int.mul_nonneg (by omega) hbase
  rw [Int.tdiv_eq_ediv_of_nonneg hprod]
  exact Int.mul_ediv_self_le (by decide)

theorem baseOf_eq_zero (hdistinct : (claimBases.map fun cb => cb.miner.toLower).Nodup)
    {miner : String} (h : miner ∉ claimBases.map fun cb => cb.miner.toLower) :
    baseOf claimBases miner = 0 := by
  unfold baseOf
  cases hget : JsMap.get (claimBaseMap claimBases) miner with
  | none => rfl
  | some claimBase =>
      obtain ⟨cb, hcb, hsame, -⟩ := (get_claimBaseMap hdistinct).mp hget
      exact absurd (List.mem_map.mpr ⟨cb, hcb, hsame⟩) h

theorem baseOf_of_mem (hdistinct : (claimBases.map fun cb => cb.miner.toLower).Nodup)
    {cb : MinerClaimBase} (hcb : cb ∈ claimBases) :
    baseOf claimBases cb.miner.toLower = cb.claimBase := by
  unfold baseOf
  rw [(get_claimBaseMap hdistinct).mpr ⟨cb, hcb, rfl, rfl⟩]
  rfl

theorem baseOf_nonneg (hdistinct : (claimBases.map fun cb => cb.miner.toLower).Nodup)
    (hbases : ∀ cb ∈ claimBases, 0 ≤ cb.claimBase) (miner : String) :
    0 ≤ baseOf claimBases miner := by
  by_cases h : miner ∈ claimBases.map fun cb => cb.miner.toLower
  · obtain ⟨cb, hcb, rfl⟩ := List.mem_map.mp h
    rw [baseOf_of_mem hdistinct hcb]
    exact hbases cb hcb
  · exact (baseOf_eq_zero hdistinct h).ge

/-- Distinct miners hold no more than all claim bases together. -/
theorem sum_bases_le (hdistinct : (claimBases.map fun cb => cb.miner.toLower).Nodup)
    (hbases : ∀ cb ∈ claimBases, 0 ≤ cb.claimBase) {miners : List String} (hminers : miners.Nodup) :
    (miners.map (baseOf claimBases)).sum ≤ (claimBases.map MinerClaimBase.claimBase).sum := by
  have hall : claimBases.map MinerClaimBase.claimBase =
      (claimBases.map fun cb => cb.miner.toLower).map (baseOf claimBases) := by
    rw [List.map_map]
    exact List.map_congr_left fun cb hcb => (baseOf_of_mem hdistinct hcb).symm
  rw [hall, ← List.sum_toFinset _ hminers, ← List.sum_toFinset _ hdistinct,
    ← Finset.sum_filter_ne_zero]
  refine Finset.sum_le_sum_of_subset_of_nonneg (fun miner hminer => ?_) fun miner _ _ => ?_
  · rw [List.mem_toFinset]
    by_contra h
    exact (Finset.mem_filter.mp hminer).2 (baseOf_eq_zero hdistinct h)
  · exact baseOf_nonneg hdistinct hbases miner

/-- At the multiplier of launch there is nothing to pay. -/
theorem bonusLeaves_launch {S : CompareSort} {localeCompare : String → String → Int}
    {eligibility : EpochEligibility} {leaves : List MinerBonusLeaf}
    (h : buildEpochBonusLeaves S localeCompare eligibility claimBases mergeMultiplierBps =
      .ok leaves) : leaves = [] := by
  obtain ⟨-, rfl⟩ := bonusLeaves_eq_ok.mp h
  have hnone : (bonusMiners eligibility.multiplierAccruals).filterMap
      (leafOf (baseOf claimBases) mergeMultiplierBps) = [] := by
    refine List.filterMap_eq_nil_iff.mpr fun miner _ => if_pos (.inr ?_)
    rw [mergeMultiplierBps, bpsDivisor, sub_self, zero_mul]
    rfl
  rw [hnone]
  exact (S.perm _ []).eq_nil

theorem leaf_miners_sublist (base : String → Int) {miners : List String}
    (hlower : ∀ miner ∈ miners, miner.toLower = miner) :
    ((miners.filterMap (leafOf base multiplierBps)).map MinerBonusLeaf.miner).Sublist miners := by
  induction miners with
  | nil => exact List.Sublist.refl _
  | cons miner miners ih =>
      obtain ⟨hminer, hrest⟩ := List.forall_mem_cons.mp hlower
      cases hleaf : leafOf base multiplierBps miner with
      | none =>
          rw [List.filterMap_cons_none hleaf]
          exact (ih hrest).cons _
      | some leaf =>
          rw [List.filterMap_cons_some hleaf, List.map_cons, leafOf_eq_some hleaf, hminer]
          exact (ih hrest).cons_cons _

/-- What the leaves of an epoch promise to its fund. -/
structure Funded (accruals : List PatchEvent) (claimBases : List MinerClaimBase)
    (multiplierBps : Int) (leaves : List MinerBonusLeaf) : Prop where
  once : (leaves.map MinerBonusLeaf.miner).Nodup
  paid : ∀ leaf, leaf ∈ leaves ↔ ∃ miner ∈ accruals.map PatchEvent.lowerMiner,
    leafOf (baseOf claimBases) multiplierBps miner = some leaf
  total : bpsDivisor * computeEpochTotalBonus leaves ≤
    (multiplierBps - bpsDivisor) * (claimBases.map MinerClaimBase.claimBase).sum

/-- **Bonuses are funded by the uplift.** However often a miner has merged, it is paid once, and
all bonuses together are no more than the uplift of all claim bases. -/
theorem bonusLeaves_funded (S : CompareSort) (localeCompare : String → String → Int)
    (eligibility : EpochEligibility)
    (hdistinct : (claimBases.map fun cb => cb.miner.toLower).Nodup)
    (hbases : ∀ cb ∈ claimBases, 0 ≤ cb.claimBase) (huplift : bpsDivisor ≤ multiplierBps)
    {leaves : List MinerBonusLeaf}
    (h : buildEpochBonusLeaves S localeCompare eligibility claimBases multiplierBps =
      .ok leaves) :
    Funded eligibility.multiplierAccruals claimBases multiplierBps leaves := by
  obtain ⟨hnonneg, rfl⟩ := bonusLeaves_eq_ok.mp h
  have hminers : (bonusMiners eligibility.multiplierAccruals).Nodup := nodup_keys_firsts
  have hlower : ∀ miner ∈ bonusMiners eligibility.multiplierAccruals, miner.toLower = miner := by
    intro miner hminer
    obtain ⟨ev, -, rfl⟩ := List.mem_map.mp hminer
    exact toLower_toLower _
  have hperm := S.perm (fun a b => localeCompare a.miner b.miner)
    ((bonusMiners eligibility.multiplierAccruals).filterMap
      (leafOf (baseOf claimBases) multiplierBps))
  refine ⟨?_, fun leaf => ?_, ?_⟩
  · exact (hperm.map MinerBonusLeaf.miner).nodup_iff.mpr
      ((leaf_miners_sublist _ hlower).nodup hminers)
  · rw [hperm.mem_iff, List.mem_filterMap]
    refine exists_congr fun miner => and_congr_left fun _ => ?_
    exact mem_keys_firsts.trans (and_iff_left List.not_mem_nil)
  · calc bpsDivisor * computeEpochTotalBonus (S.sort _ _)
        = ((bonusMiners eligibility.multiplierAccruals).map fun miner => bpsDivisor *
            ((multiplierBps - bpsDivisor) * baseOf claimBases miner).tdiv bpsDivisor).sum := by
          rw [List.sum_map_mul_left, ← sum_leaves]
          exact congrArg _ (hperm.map MinerBonusLeaf.bonusBotcoin).sum_eq
      _ ≤ ((bonusMiners eligibility.multiplierAccruals).map fun miner =>
            (multiplierBps - bpsDivisor) * baseOf claimBases miner).sum :=
          List.sum_le_sum fun miner hminer => bonus_le huplift (hnonneg miner hminer)
      _ = (multiplierBps - bpsDivisor) *
            ((bonusMiners eligibility.multiplierAccruals).map (baseOf claimBases)).sum :=
          List.sum_map_mul_left ..
      _ ≤ (multiplierBps - bpsDivisor) * (claimBases.map MinerClaimBase.claimBase).sum :=
          Int.mul_le_mul_of_nonneg_left (sum_bases_le hdistinct hbases hminers) (by omega)

/-- A miner with two merges at a multiplier of two. -/
theorem bonusLeaves_funded_sample :
    ∃ leaves, Funded [⟨1, "0xa", "0x1"⟩, ⟨1, "0xA", "0x2"⟩] [⟨"0xA", 300⟩, ⟨"0xb", 7⟩] 20000
      leaves := by
  have hdistinct : ([⟨"0xA", 300⟩, ⟨"0xb", 7⟩].map
      fun cb : MinerClaimBase => cb.miner.toLower).Nodup := by decide +kernel
  exact ⟨_, bonusLeaves_funded .merge byLength ⟨[], [⟨1, "0xa", "0x1"⟩, ⟨1, "0xA", "0x2"⟩], []⟩
    hdistinct (by decide) (by decide)
    (bonusLeaves_eq_ok.mpr ⟨fun miner _ => baseOf_nonneg hdistinct (by decide) miner, rfl⟩)⟩

end Funding

end CoreTex.Reducer
