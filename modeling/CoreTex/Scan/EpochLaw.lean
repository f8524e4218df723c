import CoreTex.Frontier.Manifest
import CoreTex.Lib.JsMap
import CoreTex.Scan.Continuity

/-!
# CoreTex.Scan.EpochLaw

The law of an epoch, recovered from confirmed logs: the pins of `build_rig_pins_from_logs`
(`dispatch.py`) and the law of `law_for_epoch` (`epoch_law.py`).

Both are folds over the whole feed. `buildRigPins_get` says which log of each kind the pins come
from, and `epochLaw_frozen_iff` when the commit of an epoch freezes what both builders give it.
-/

namespace CoreTex.Scan

open CoreTex.Lib

/-! ### Decoded logs -/

/-- `EpochCommitSet`. -/
structure EpochCommitSet where
  epoch : Nat
  entropyCommitment : PyStr
  provenance : Join.LogProvenance
  deriving DecidableEq, Repr

/-- `EpochSecretRevealed`. -/
structure EpochSecretRevealed where
  epoch : Nat
  revealedSecret : PyStr
  provenance : Join.LogProvenance
  deriving DecidableEq, Repr

/-- `PolicyScheduled`. -/
structure PolicyScheduled where
  rulesVersion : Nat
  effectiveEpoch : Nat
  policyHash : PyStr
  screenerWorkBps : Nat
  provenance : Join.LogProvenance
  deriving DecidableEq, Repr

/-- A log of the deployment, as either module decodes it. The two context records have the same
fields, and so have the two commit and the two reveal records. -/
inductive DecodedLog
  | context (c : EpochContextSet)
  | commit (c : EpochCommitSet)
  | reveal (r : EpochSecretRevealed)
  | policy (p : PolicyScheduled)
  | other
  deriving DecidableEq, Repr

/-- What the decoders promise of a record: a `uint64` epoch, and roots that are the text of a
word. -/
def DecodedLog.Decodable : DecodedLog → Prop
  | .context c => c.epoch < 2 ^ 64 ∧ isRoot c.parentStateRoot = true ∧
      isRoot c.epochContextRoot = true ∧ isRoot c.coreVersionHash = true
  | .commit c => isRoot c.entropyCommitment = true
  | .reveal r => isRoot r.revealedSecret = true
  | .policy _ => True
  | .other => True

/-- `ZERO_WORD`. -/
def zeroWord : PyStr :=
  List.replicate 64 48

/-! ### The pins -/

/-- `RigEpochPins`. -/
structure RigEpochPins where
  epoch : Nat
  parentStateRoot : PyStr
  epochContextRoot : PyStr
  coreVersionHash : PyStr
  entropyCommitment : PyStr
  revealedSecret : Option PyStr
  deriving DecidableEq, Repr

/-- What the checks of the pins raise: an epoch out of range, or a field that is no root. -/
inductive PinsError
  | epoch (epoch : Nat)
  | root (field : String)
  deriving DecidableEq, Repr

def checkPinRoot (field : String) (value : PyStr) : Except PinsError Unit :=
  refuseIf (isRoot value = false) (.root field)

/-- The pins, once they pass the checks of `__post_init__`. -/
def RigEpochPins.checked (pins : RigEpochPins) : Except PinsError RigEpochPins := do
  refuseIf (2 ^ 64 ≤ pins.epoch) (.epoch pins.epoch)
  checkPinRoot "parent_state_root" pins.parentStateRoot
  checkPinRoot "epoch_context_root" pins.epochContextRoot
  checkPinRoot "core_version_hash" pins.coreVersionHash
  checkPinRoot "entropy_commitment" pins.entropyCommitment
  match pins.revealedSecret with
  | none => return pins
  | some secret =>
    checkPinRoot "revealed_secret" secret
    return pins

/-- The three dictionaries of the feed, by epoch. -/
structure PinFeed where
  contexts : JsMap Nat EpochContextSet
  commits : JsMap Nat PyStr
  secrets : JsMap Nat PyStr

def PinFeed.step (feed : PinFeed) : DecodedLog → PinFeed
  | .context c => { feed with contexts := feed.contexts.set c.epoch c }
  | .commit c => { feed with commits := feed.commits.set c.epoch c.entropyCommitment }
  | .reveal r => { feed with secrets := feed.secrets.set r.epoch r.revealedSecret }
  | .policy _ => feed
  | .other => feed

def PinFeed.read (logs : List DecodedLog) : PinFeed :=
  logs.foldl PinFeed.step ⟨[], [], []⟩

/-- The commit that arms an epoch. -/
def PinFeed.armed (feed : PinFeed) (epoch : Nat) : Option PyStr :=
  (feed.commits.get epoch).filter fun commit => decide (commit ≠ zeroWord)

def PinFeed.pins (feed : PinFeed) (epoch : Nat) (ctx : EpochContextSet) (commit : PyStr) :
    RigEpochPins where
  epoch := epoch
  parentStateRoot := ctx.parentStateRoot
  epochContextRoot := ctx.epochContextRoot
  coreVersionHash := ctx.coreVersionHash
  entropyCommitment := commit
  revealedSecret := feed.secrets.get epoch

/-- The loop over the contexts. -/
def PinFeed.build (feed : PinFeed) :
    JsMap Nat EpochContextSet → JsMap Nat RigEpochPins → Except PinsError (JsMap Nat RigEpochPins)
  | [], out => pure out
  | (epoch, ctx) :: rest, out =>
    match feed.armed epoch with
    | none => feed.build rest out
    | some commit => do
      let pins ← (feed.pins epoch ctx commit).checked
      feed.build rest (out.set epoch pins)

/-- `build_rig_pins_from_logs`, on the decoded logs. -/
def buildRigPins (logs : List DecodedLog) : Except PinsError (JsMap Nat RigEpochPins) :=
  let feed := PinFeed.read logs
  feed.build feed.contexts []

/-! ### The law -/

/-- `DecodedLogs`, as far as the law reads it. -/
structure DecodedLogs where
  contexts : List EpochContextSet
  commits : List EpochCommitSet
  reveals : List EpochSecretRevealed
  policies : List PolicyScheduled

def DecodedLog.asContext : DecodedLog → Option EpochContextSet
  | .context c => some c
  | _ => none

def DecodedLog.asCommit : DecodedLog → Option EpochCommitSet
  | .commit c => some c
  | _ => none

def DecodedLog.asReveal : DecodedLog → Option EpochSecretRevealed
  | .reveal r => some r
  | _ => none

def DecodedLog.asPolicy : DecodedLog → Option PolicyScheduled
  | .policy p => some p
  | _ => none

/-- `decode_logs`: the records by kind, in chain order. -/
def decodeLogs (logs : List DecodedLog) : DecodedLogs where
  contexts := logs.filterMap DecodedLog.asContext
  commits := logs.filterMap DecodedLog.asCommit
  reveals := logs.filterMap DecodedLog.asReveal
  policies := logs.filterMap DecodedLog.asPolicy

/-- `context_for`: the last context set for an epoch. -/
def DecodedLogs.contextFor (decoded : DecodedLogs) (epoch : Nat) : Option EpochContextSet :=
  (decoded.contexts.filter fun c => decide (c.epoch = epoch)).getLast?

/-- `<` on `(effective_epoch, rules_version)`. -/
def PolicyScheduled.Before (p q : PolicyScheduled) : Prop :=
  p.effectiveEpoch < q.effectiveEpoch ∨
    p.effectiveEpoch = q.effectiveEpoch ∧ p.rulesVersion < q.rulesVersion

instance PolicyScheduled.Before.decidable : DecidableRel PolicyScheduled.Before := fun p q =>
  inferInstanceAs (Decidable (p.effectiveEpoch < q.effectiveEpoch ∨
    p.effectiveEpoch = q.effectiveEpoch ∧ p.rulesVersion < q.rulesVersion))

/-- `max` with a key: the first of the greatest. -/
def latestPolicy : List PolicyScheduled → Option PolicyScheduled
  | [] => none
  | p :: rest => some (rest.foldl (fun best q => if best.Before q then q else best) p)

/-- `policy_in_force` -/
def policyInForce (policies : List PolicyScheduled) (epoch : Nat) : Option PolicyScheduled :=
  latestPolicy (policies.filter fun p => decide (p.effectiveEpoch ≤ epoch))

/-- Where each piece of a law came from. -/
structure LawSources where
  contextBlock : Option Nat
  contextTx : Option PyStr
  commitBlock : Option (Option Nat)
  revealBlock : Option (Option Nat)
  policy : Option (String × Nat)
  deriving DecidableEq, Repr

/-- `EpochLaw`. -/
structure EpochLaw where
  epoch : Nat
  epochContextRoot : PyStr
  coreVersionHash : PyStr
  contextParentStateRoot : PyStr
  entropyCommitment : Option PyStr
  revealedSecret : Option PyStr
  rulesVersion : Option Nat
  policyHash : Option PyStr
  screenerWorkBps : Option Nat
  policyEffectiveEpoch : Option Nat
  sources : LawSources
  deriving DecidableEq, Repr

/-- `LawError`, whose code is `EPOCH_CONTEXT_UNAVAILABLE`. -/
inductive LawError
  | epochContextUnavailable (epoch : Nat)
  deriving DecidableEq, Repr

/-- The policy that is read from chain state in place of the scheduled one. -/
structure ChainPolicy where
  rulesVersion : Nat
  effectiveEpoch : Nat
  policyHash : PyStr
  screenerWorkBps : Nat

def noProvenance : Join.LogProvenance where
  address := none
  blockNumber := none
  logIndex := none
  transactionHash := none
  transactionIndex := none
  removed := false

/-- The policy of a law: chain state beats the schedule. -/
def lawPolicy (policies : List PolicyScheduled) (epoch : Nat) (chainPolicy : Option ChainPolicy) :
    Option PolicyScheduled :=
  match chainPolicy with
  | none => policyInForce policies epoch
  | some p => some {
      rulesVersion := p.rulesVersion, effectiveEpoch := p.effectiveEpoch
      policyHash := p.policyHash, screenerWorkBps := p.screenerWorkBps
      provenance := ((policyInForce policies epoch).map PolicyScheduled.provenance).getD
        noProvenance }

/-- `law_for_epoch` -/
def lawForEpoch (decoded : DecodedLogs) (epoch : Nat) (chainPolicy : Option ChainPolicy) :
    Except LawError EpochLaw :=
  match decoded.contextFor epoch with
  | none => .error (.epochContextUnavailable epoch)
  | some context =>
    let commit := decoded.commits.find? fun c => decide (c.epoch = epoch)
    let reveal := decoded.reveals.find? fun r => decide (r.epoch = epoch)
    let policy := lawPolicy decoded.policies epoch chainPolicy
    .ok {
      epoch
      epochContextRoot := context.epochContextRoot
      coreVersionHash := context.coreVersionHash
      contextParentStateRoot := context.parentStateRoot
      entropyCommitment := commit.map EpochCommitSet.entropyCommitment
      revealedSecret := reveal.map EpochSecretRevealed.revealedSecret
      rulesVersion := policy.map PolicyScheduled.rulesVersion
      policyHash := policy.map PolicyScheduled.policyHash
      screenerWorkBps := policy.map PolicyScheduled.screenerWorkBps
      policyEffectiveEpoch := policy.map PolicyScheduled.effectiveEpoch
      sources := {
        contextBlock := context.provenance.blockNumber
        contextTx := context.provenance.transactionHash
        commitBlock := commit.map fun c => c.provenance.blockNumber
        revealBlock := reveal.map fun r => r.provenance.blockNumber
        policy := policy.map fun p =>
          (if chainPolicy.isSome then "verifier.activeCoreTexRulesVersion + getCoreTexPolicy"
            else "CoreTexPolicyScheduled log", p.effectiveEpoch) } }

/-! ### Which logs the builders read -/

/-- The contexts of an epoch, in chain order. -/
def contextsFor (logs : List DecodedLog) (epoch : Nat) : List EpochContextSet :=
  (decodeLogs logs).contexts.filter fun c => decide (c.epoch = epoch)

def commitsFor (logs : List DecodedLog) (epoch : Nat) : List EpochCommitSet :=
  (decodeLogs logs).commits.filter fun c => decide (c.epoch = epoch)

def revealsFor (logs : List DecodedLog) (epoch : Nat) : List EpochSecretRevealed :=
  (decodeLogs logs).reveals.filter fun r => decide (r.epoch = epoch)

theorem contextsFor_append (logs more : List DecodedLog) (epoch : Nat) :
    contextsFor (logs ++ more) epoch = contextsFor logs epoch ++ contextsFor more epoch := by
  simp only [contextsFor, decodeLogs, List.filterMap_append, List.filter_append]

theorem commitsFor_append (logs more : List DecodedLog) (epoch : Nat) :
    commitsFor (logs ++ more) epoch = commitsFor logs epoch ++ commitsFor more epoch := by
  simp only [commitsFor, decodeLogs, List.filterMap_append, List.filter_append]

theorem revealsFor_append (logs more : List DecodedLog) (epoch : Nat) :
    revealsFor (logs ++ more) epoch = revealsFor logs epoch ++ revealsFor more epoch := by
  simp only [revealsFor, decodeLogs, List.filterMap_append, List.filter_append]

theorem getLast?_append_some {α : Type} {l l' : List α} {a : α} (h : l'.getLast? = some a) :
    (l ++ l').getLast? = some a := by
  rw [List.getLast?_append, h, Option.some_or]

/-- The dictionaries hold the last log of each kind. -/
theorem read_get (logs : List DecodedLog) (epoch : Nat) :
    (PinFeed.read logs).contexts.get epoch = (contextsFor logs epoch).getLast? ∧
    (PinFeed.read logs).commits.get epoch =
      (commitsFor logs epoch).getLast?.map EpochCommitSet.entropyCommitment ∧
    (PinFeed.read logs).secrets.get epoch =
      (revealsFor logs epoch).getLast?.map EpochSecretRevealed.revealedSecret := by
  induction logs using List.reverseRecOn with
  | nil => exact ⟨rfl, rfl, rfl⟩
  | append_singleton logs log ih =>
      obtain ⟨hcontexts, hcommits, hsecrets⟩ := ih
      have hread : PinFeed.read (logs ++ [log]) = (PinFeed.read logs).step log := by
        rw [PinFeed.read, List.foldl_append]
        rfl
      rw [hread, contextsFor_append, commitsFor_append, revealsFor_append, List.getLast?_append,
        List.getLast?_append, List.getLast?_append]
      cases log with
      | context c =>
          have hone : contextsFor [.context c] epoch = if c.epoch = epoch then [c] else [] := by
            by_cases h : c.epoch = epoch <;> simp [contextsFor, decodeLogs, DecodedLog.asContext, h]
          refine ⟨?_, hcommits, hsecrets⟩
          rw [PinFeed.step, JsMap.get_set, hone, hcontexts]
          by_cases h : c.epoch = epoch <;> simp [h]
      | commit c =>
          have hone : commitsFor [.commit c] epoch = if c.epoch = epoch then [c] else [] := by
            by_cases h : c.epoch = epoch <;> simp [commitsFor, decodeLogs, DecodedLog.asCommit, h]
          refine ⟨hcontexts, ?_, hsecrets⟩
          rw [PinFeed.step, JsMap.get_set, hone, hcommits]
          by_cases h : c.epoch = epoch <;> simp [h]
      | reveal r =>
          have hone : revealsFor [.reveal r] epoch = if r.epoch = epoch then [r] else [] := by
            by_cases h : r.epoch = epoch <;> simp [revealsFor, decodeLogs, DecodedLog.asReveal, h]
          refine ⟨hcontexts, hcommits, ?_⟩
          rw [PinFeed.step, JsMap.get_set, hone, hsecrets]
          by_cases h : r.epoch = epoch <;> simp [h]
      | policy p => exact ⟨hcontexts, hcommits, hsecrets⟩
      | other => exact ⟨hcontexts, hcommits, hsecrets⟩

/-! ### What the pins are -/

/-- The pins of an epoch, from the last log of each kind. -/
def pinsOf (logs : List DecodedLog) (epoch : Nat) : Option RigEpochPins :=
  (contextsFor logs epoch).getLast?.bind fun ctx =>
    ((PinFeed.read logs).armed epoch).map fun commit => (PinFeed.read logs).pins epoch ctx commit

theorem checked_eq_ok {pins : RigEpochPins} (hepoch : pins.epoch < 2 ^ 64)
    (hparent : isRoot pins.parentStateRoot = true) (hroot : isRoot pins.epochContextRoot = true)
    (hcore : isRoot pins.coreVersionHash = true)
    (hcommit : isRoot pins.entropyCommitment = true)
    (hsecret : ∀ s, pins.revealedSecret = some s → isRoot s = true) :
    pins.checked = .ok pins := by
  have hroots : ∀ field value, isRoot value = true → checkPinRoot field value = .ok () := by
    intro field value h
    exact refuseIf_of_not (by simp [h]) _
  rw [RigEpochPins.checked, refuseIf_of_not (Nat.not_le.mpr hepoch), hroots _ _ hparent,
    hroots _ _ hroot, hroots _ _ hcore, hroots _ _ hcommit]
  simp only [ok_bind]
  cases hs : pins.revealedSecret with
  | none => rfl
  | some secret =>
      dsimp only
      rw [hroots _ _ (hsecret secret hs)]
      rfl

/-- The loop sets the pins of the armed epochs among the contexts. -/
theorem build_get {feed : PinFeed} {contexts : JsMap Nat EpochContextSet}
    (hnodup : (contexts.map Prod.fst).Nodup)
    (hchecked : ∀ e ∈ contexts, ∀ commit, feed.armed e.1 = some commit →
      (feed.pins e.1 e.2 commit).checked = .ok (feed.pins e.1 e.2 commit))
    (out : JsMap Nat RigEpochPins) :
    ∃ out', feed.build contexts out = .ok out' ∧ ∀ epoch, out'.get epoch =
      ((JsMap.get contexts epoch).bind fun ctx =>
        (feed.armed epoch).map fun commit => feed.pins epoch ctx commit).or (out.get epoch) := by
  induction contexts generalizing out with
  | nil => exact ⟨out, rfl, fun _ => rfl⟩
  | cons entry contexts ih =>
      obtain ⟨key, ctx⟩ := entry
      rw [List.map_cons, List.nodup_cons] at hnodup
      obtain ⟨hkey, hnodup⟩ := hnodup
      obtain ⟨hentry, hrest⟩ := List.forall_mem_cons.mp hchecked
      have habsent : JsMap.get contexts key = none := by
        rw [JsMap.get, Option.map_eq_none_iff, List.find?_eq_none]
        intro e he
        have hmem : e.1 ∈ contexts.map Prod.fst := List.mem_map_of_mem he
        simpa using fun h : e.1 = key => hkey (h ▸ hmem)
      rw [PinFeed.build]
      cases harmed : feed.armed key with
      | none =>
          obtain ⟨out', hout', hget⟩ := ih hnodup hrest out
          refine ⟨out', hout', fun epoch => ?_⟩
          rw [hget, JsMap.get_cons]
          by_cases h : key = epoch
          · subst h
            simp [habsent, harmed]
          · simp [h]
      | some commit =>
          obtain ⟨out', hout', hget⟩ := ih hnodup hrest (out.set key (feed.pins key ctx commit))
          refine ⟨out', ?_, fun epoch => ?_⟩
          · dsimp only
            rw [hentry commit harmed, ok_bind]
            exact hout'
          · rw [hget, JsMap.get_cons, JsMap.get_set]
            by_cases h : key = epoch
            · subst h
              simp [habsent, harmed]
            · simp [h]

theorem keys_set {κ α : Type} [DecidableEq κ] {m : JsMap κ α} (h : (m.map Prod.fst).Nodup)
    (key : κ) (value : α) : ((m.set key value).map Prod.fst).Nodup ∧
      ∀ k ∈ (m.set key value).map Prod.fst, k = key ∨ k ∈ m.map Prod.fst := by
  induction m with
  | nil => simp [JsMap.set]
  | cons e m ih =>
      rw [List.map_cons, List.nodup_cons] at h
      obtain ⟨hnodup, hmem⟩ := ih h.2
      by_cases hkey : e.1 = key
      · rw [JsMap.set, if_pos hkey]
        subst hkey
        exact ⟨List.nodup_cons.mpr h, fun k hk => .inr hk⟩
      · rw [JsMap.set, if_neg hkey, List.map_cons, List.nodup_cons]
        refine ⟨⟨fun hmem' => ?_, hnodup⟩, fun k hk => ?_⟩
        · rcases hmem _ hmem' with h' | h'
          · exact hkey h'
          · exact h.1 h'
        · rcases List.mem_cons.mp hk with rfl | hk
          · exact .inr List.mem_cons_self
          · exact (hmem k hk).imp_right (List.mem_cons_of_mem _)

theorem read_contexts (logs : List DecodedLog) :
    ((PinFeed.read logs).contexts.map Prod.fst).Nodup ∧
      ∀ e ∈ (PinFeed.read logs).contexts, .context e.2 ∈ logs ∧ e.1 = e.2.epoch := by
  induction logs using List.reverseRecOn with
  | nil => exact ⟨List.nodup_nil, fun e he => (List.not_mem_nil he).elim⟩
  | append_singleton logs log ih =>
      obtain ⟨hnodup, hmem⟩ := ih
      have hread : PinFeed.read (logs ++ [log]) = (PinFeed.read logs).step log := by
        rw [PinFeed.read, List.foldl_append]
        rfl
      rw [hread]
      have hold : ∀ e ∈ (PinFeed.read logs).contexts,
          .context e.2 ∈ logs ++ [log] ∧ e.1 = e.2.epoch := fun e he =>
        ⟨List.mem_append_left _ (hmem e he).1, (hmem e he).2⟩
      cases log with
      | context c =>
          refine ⟨(keys_set hnodup c.epoch c).1, fun e he => ?_⟩
          rcases JsMap.mem_set he with rfl | he
          · exact ⟨List.mem_append_right _ List.mem_cons_self, rfl⟩
          · exact hold e he
      | commit c => exact ⟨hnodup, hold⟩
      | reveal r => exact ⟨hnodup, hold⟩
      | policy p => exact ⟨hnodup, hold⟩
      | other => exact ⟨hnodup, hold⟩

theorem mem_of_commitsFor {logs : List DecodedLog} {epoch : Nat} {c : EpochCommitSet}
    (h : (commitsFor logs epoch).getLast? = some c) : .commit c ∈ logs := by
  have hmem := List.mem_of_mem_filter (List.mem_of_getLast? h)
  obtain ⟨log, hlog, hc⟩ := List.mem_filterMap.mp hmem
  cases log <;> cases hc
  exact hlog

theorem mem_of_revealsFor {logs : List DecodedLog} {epoch : Nat} {r : EpochSecretRevealed}
    (h : (revealsFor logs epoch).getLast? = some r) : .reveal r ∈ logs := by
  have hmem := List.mem_of_mem_filter (List.mem_of_getLast? h)
  obtain ⟨log, hlog, hr⟩ := List.mem_filterMap.mp hmem
  cases log <;> cases hr
  exact hlog

/-- **Every feed of decodable logs has pins**, and they are those of the last logs. -/
theorem buildRigPins_get {logs : List DecodedLog} (h : ∀ log ∈ logs, log.Decodable) :
    ∃ out, buildRigPins logs = .ok out ∧ ∀ epoch, out.get epoch = pinsOf logs epoch := by
  obtain ⟨hnodup, hmem⟩ := read_contexts logs
  have hchecked : ∀ e ∈ (PinFeed.read logs).contexts, ∀ commit,
      (PinFeed.read logs).armed e.1 = some commit →
      ((PinFeed.read logs).pins e.1 e.2 commit).checked =
        .ok ((PinFeed.read logs).pins e.1 e.2 commit) := by
    intro e he commit harmed
    obtain ⟨hlog, hepoch⟩ := hmem e he
    obtain ⟨hlt, hparent, hroot, hcore⟩ := h _ hlog
    refine checked_eq_ok (hepoch ▸ hlt) hparent hroot hcore ?_ fun s hs => ?_
    · rw [PinFeed.armed, (read_get logs e.1).2.1, Option.filter_eq_some_iff] at harmed
      obtain ⟨c, hc, rfl⟩ := Option.map_eq_some_iff.mp harmed.1
      exact h _ (mem_of_commitsFor hc)
    · rw [PinFeed.pins, (read_get logs e.1).2.2] at hs
      obtain ⟨r, hr, rfl⟩ := Option.map_eq_some_iff.mp hs
      exact h _ (mem_of_revealsFor hr)
  obtain ⟨out, hout, hget⟩ := build_get hnodup hchecked []
  refine ⟨out, hout, fun epoch => ?_⟩
  rw [hget, JsMap.get_nil, Option.or_none, (read_get logs epoch).1]
  rfl

/-! ### The commit freezes the law -/

/-- The logs before the first commit of an epoch. -/
def beforeCommit (logs : List DecodedLog) (epoch : Nat) : List DecodedLog :=
  logs.takeWhile fun log => (commitsFor [log] epoch).isEmpty

/-- The last context set for an epoch before its first commit. -/
def governingContext (logs : List DecodedLog) (epoch : Nat) : Option EpochContextSet :=
  (contextsFor (beforeCommit logs epoch) epoch).getLast?

def SameRoots (c d : EpochContextSet) : Prop :=
  c.parentStateRoot = d.parentStateRoot ∧ c.epochContextRoot = d.epochContextRoot ∧
    c.coreVersionHash = d.coreVersionHash

/-- The epoch has a context and a commit that is not zero. -/
def Armed (logs : List DecodedLog) (epoch : Nat) : Prop :=
  contextsFor logs epoch ≠ [] ∧ ∃ c ∈ commitsFor logs epoch, c.entropyCommitment ≠ zeroWord

/-- A later log: a context, a commit, a policy for a later epoch, a reveal of another epoch, or
anything else. -/
def LaterLog (epoch : Nat) : DecodedLog → Prop
  | .context _ => True
  | .commit _ => True
  | .policy p => epoch < p.effectiveEpoch
  | .reveal r => r.epoch ≠ epoch
  | .other => True

/-- Two laws agree on the context, the entropy commitment and the policy. -/
structure SameLaw (a b : EpochLaw) : Prop where
  epochContextRoot : a.epochContextRoot = b.epochContextRoot
  coreVersionHash : a.coreVersionHash = b.coreVersionHash
  contextParentStateRoot : a.contextParentStateRoot = b.contextParentStateRoot
  entropyCommitment : a.entropyCommitment = b.entropyCommitment
  rulesVersion : a.rulesVersion = b.rulesVersion
  policyHash : a.policyHash = b.policyHash
  screenerWorkBps : a.screenerWorkBps = b.screenerWorkBps
  policyEffectiveEpoch : a.policyEffectiveEpoch = b.policyEffectiveEpoch

/-- Both builders give the epoch the same with and without `more`, and the pins are those of the
governing context. -/
def Frozen (logs more : List DecodedLog) (epoch : Nat) (chainPolicy : Option ChainPolicy) : Prop :=
  (∃ g pins out out', governingContext logs epoch = some g ∧ buildRigPins logs = .ok out ∧
    buildRigPins (logs ++ more) = .ok out' ∧ out.get epoch = some pins ∧
    out'.get epoch = some pins ∧ pins.parentStateRoot = g.parentStateRoot ∧
    pins.epochContextRoot = g.epochContextRoot ∧ pins.coreVersionHash = g.coreVersionHash) ∧
  ∃ law law', lawForEpoch (decodeLogs logs) epoch chainPolicy = .ok law ∧
    lawForEpoch (decodeLogs (logs ++ more)) epoch chainPolicy = .ok law' ∧ SameLaw law law'

/-- No context and no commit that counts changes anything after the first commit: the last context
of `logs` and that of `more`, if any, repeat the roots of the governing one, the last commit of
`logs` is not zero, and that of `more`, if any, repeats it. -/
def CommitHeld (logs more : List DecodedLog) (epoch : Nat) : Prop :=
  ∃ g, governingContext logs epoch = some g ∧
    (∀ c, (contextsFor logs epoch).getLast? = some c → SameRoots c g) ∧
    (∀ c, (contextsFor more epoch).getLast? = some c → SameRoots c g) ∧
    (∀ c, (commitsFor logs epoch).getLast? = some c → c.entropyCommitment ≠ zeroWord ∧
      ∀ d, (commitsFor more epoch).getLast? = some d → d.entropyCommitment = c.entropyCommitment)

section Freeze

variable {logs more : List DecodedLog} {epoch : Nat} {chainPolicy : Option ChainPolicy}

theorem getLast?_isSome {α : Type} {l : List α} (h : l ≠ []) : ∃ a, l.getLast? = some a :=
  ⟨l.getLast h, List.getLast?_eq_some_getLast h⟩

theorem Armed.last (h : Armed logs epoch) :
    (∃ c, (contextsFor logs epoch).getLast? = some c) ∧
      ∃ c, (commitsFor logs epoch).getLast? = some c := by
  obtain ⟨hctx, c, hc, -⟩ := h
  exact ⟨getLast?_isSome hctx, getLast?_isSome (List.ne_nil_of_mem hc)⟩

theorem pinsOf_eq_some {pins : RigEpochPins} :
    pinsOf logs epoch = some pins ↔ ∃ ctx c, (contextsFor logs epoch).getLast? = some ctx ∧
      (commitsFor logs epoch).getLast? = some c ∧ c.entropyCommitment ≠ zeroWord ∧
      (PinFeed.read logs).pins epoch ctx c.entropyCommitment = pins := by
  rw [pinsOf, Option.bind_eq_some_iff]
  constructor
  · rintro ⟨ctx, hctx, h⟩
    obtain ⟨commit, harmed, rfl⟩ := Option.map_eq_some_iff.mp h
    rw [PinFeed.armed, (read_get logs epoch).2.1, Option.filter_eq_some_iff] at harmed
    obtain ⟨c, hc, rfl⟩ := Option.map_eq_some_iff.mp harmed.1
    exact ⟨ctx, c, hctx, hc, by simpa using harmed.2, rfl⟩
  · rintro ⟨ctx, c, hctx, hc, hne, rfl⟩
    refine ⟨ctx, hctx, Option.map_eq_some_iff.mpr ⟨c.entropyCommitment, ?_, rfl⟩⟩
    rw [PinFeed.armed, (read_get logs epoch).2.1, Option.filter_eq_some_iff, hc]
    exact ⟨rfl, by simpa using hne⟩

theorem revealsFor_later (hmore : ∀ log ∈ more, LaterLog epoch log) : revealsFor more epoch = [] := by
  rw [revealsFor, List.filter_eq_nil_iff]
  intro r hr
  obtain ⟨log, hlog, heq⟩ := List.mem_filterMap.mp hr
  cases log with
  | reveal r' =>
      cases heq
      have hne : r.epoch ≠ epoch := hmore _ hlog
      simpa using hne
  | _ => cases heq

/-- Policies for later epochs are not in force. -/
theorem policyInForce_later (hmore : ∀ log ∈ more, LaterLog epoch log) :
    policyInForce (decodeLogs (logs ++ more)).policies epoch =
      policyInForce (decodeLogs logs).policies epoch := by
  have hnone : ((decodeLogs more).policies.filter fun p => decide (p.effectiveEpoch ≤ epoch)) = [] := by
    rw [List.filter_eq_nil_iff]
    intro p hp
    obtain ⟨log, hlog, heq⟩ := List.mem_filterMap.mp hp
    cases log with
    | policy p' =>
        cases heq
        have : epoch < p.effectiveEpoch := hmore _ hlog
        simp only [decide_eq_true_eq]
        omega
    | _ => cases heq
  have happend : (decodeLogs (logs ++ more)).policies =
      (decodeLogs logs).policies ++ (decodeLogs more).policies := by
    simp only [decodeLogs, List.filterMap_append]
  rw [policyInForce, happend, List.filter_append, hnone, List.append_nil, policyInForce]

variable (more) in
theorem find?_commit_append (hne : commitsFor logs epoch ≠ []) :
    ((decodeLogs (logs ++ more)).commits.find? fun c => decide (c.epoch = epoch)) =
      (decodeLogs logs).commits.find? fun c => decide (c.epoch = epoch) := by
  have happend : (decodeLogs (logs ++ more)).commits =
      (decodeLogs logs).commits ++ (decodeLogs more).commits := by
    simp only [decodeLogs, List.filterMap_append]
  obtain ⟨c, hc⟩ := List.exists_mem_of_ne_nil _ hne
  obtain ⟨hmem, hepoch⟩ := List.mem_filter.mp hc
  have hsome : ((decodeLogs logs).commits.find? fun c => decide (c.epoch = epoch)).isSome := by
    rw [List.find?_isSome]
    exact ⟨c, hmem, hepoch⟩
  obtain ⟨d, hd⟩ := Option.isSome_iff_exists.mp hsome
  rw [happend, List.find?_append, hd, Option.some_or]

variable (more) in
/-- The last context after a continuation. -/
theorem getLast?_contexts {c : EpochContextSet} (hc : (contextsFor logs epoch).getLast? = some c) :
    ∃ d, (contextsFor (logs ++ more) epoch).getLast? = some d ∧
      ((contextsFor more epoch).getLast? = some d ∨
        (contextsFor more epoch).getLast? = none ∧ d = c) := by
  rw [contextsFor_append, List.getLast?_append]
  cases h : (contextsFor more epoch).getLast? with
  | none => exact ⟨c, by rw [Option.none_or, hc], .inr ⟨rfl, rfl⟩⟩
  | some d => exact ⟨d, Option.some_or, .inl rfl⟩

variable (more) in
theorem getLast?_commits {c : EpochCommitSet} (hc : (commitsFor logs epoch).getLast? = some c) :
    ∃ d, (commitsFor (logs ++ more) epoch).getLast? = some d ∧
      ((commitsFor more epoch).getLast? = some d ∨
        (commitsFor more epoch).getLast? = none ∧ d = c) := by
  rw [commitsFor_append, List.getLast?_append]
  cases h : (commitsFor more epoch).getLast? with
  | none => exact ⟨c, by rw [Option.none_or, hc], .inr ⟨rfl, rfl⟩⟩
  | some d => exact ⟨d, Option.some_or, .inl rfl⟩

variable (chainPolicy) in
theorem lawForEpoch_eq {c : EpochContextSet} (hc : (contextsFor logs epoch).getLast? = some c) :
    ∃ law, lawForEpoch (decodeLogs logs) epoch chainPolicy = .ok law ∧
      law.epochContextRoot = c.epochContextRoot ∧ law.coreVersionHash = c.coreVersionHash ∧
      law.contextParentStateRoot = c.parentStateRoot ∧
      law.entropyCommitment = ((decodeLogs logs).commits.find? fun c =>
        decide (c.epoch = epoch)).map EpochCommitSet.entropyCommitment ∧
      law.rulesVersion =
        (lawPolicy (decodeLogs logs).policies epoch chainPolicy).map PolicyScheduled.rulesVersion ∧
      law.policyHash =
        (lawPolicy (decodeLogs logs).policies epoch chainPolicy).map PolicyScheduled.policyHash ∧
      law.screenerWorkBps = (lawPolicy (decodeLogs logs).policies epoch chainPolicy).map
        PolicyScheduled.screenerWorkBps ∧
      law.policyEffectiveEpoch = (lawPolicy (decodeLogs logs).policies epoch chainPolicy).map
        PolicyScheduled.effectiveEpoch := by
  have hcontext : (decodeLogs logs).contextFor epoch = some c := hc
  rw [lawForEpoch, hcontext]
  exact ⟨_, rfl, rfl, rfl, rfl, rfl, rfl, rfl, rfl, rfl⟩

/-- The pins part of the property. -/
theorem pins_frozen_iff (hlogs : ∀ log ∈ logs ++ more, log.Decodable) (harmed : Armed logs epoch)
    (hmore : ∀ log ∈ more, LaterLog epoch log) :
    (∃ g pins out out', governingContext logs epoch = some g ∧ buildRigPins logs = .ok out ∧
      buildRigPins (logs ++ more) = .ok out' ∧ out.get epoch = some pins ∧
      out'.get epoch = some pins ∧ pins.parentStateRoot = g.parentStateRoot ∧
      pins.epochContextRoot = g.epochContextRoot ∧ pins.coreVersionHash = g.coreVersionHash) ↔
    CommitHeld logs more epoch := by
  obtain ⟨out, hout, hget⟩ := buildRigPins_get fun log hlog => hlogs log (List.mem_append_left _ hlog)
  obtain ⟨out', hout', hget'⟩ := buildRigPins_get hlogs
  obtain ⟨⟨c, hc⟩, m, hm⟩ := harmed.last
  obtain ⟨c', hc', hlastc⟩ := getLast?_contexts more hc
  obtain ⟨m', hm', hlastm⟩ := getLast?_commits more hm
  have hsecret : (PinFeed.read (logs ++ more)).secrets.get epoch =
      (PinFeed.read logs).secrets.get epoch := by
    rw [(read_get _ epoch).2.2, (read_get _ epoch).2.2, revealsFor_append, revealsFor_later hmore,
      List.append_nil]
  constructor
  · rintro ⟨g, pins, o, o', hg, ho, ho', hpins, hpins', hparent, hroot, hcore⟩
    obtain rfl : out = o := Except.ok.inj (hout.symm.trans ho)
    obtain rfl : out' = o' := Except.ok.inj (hout'.symm.trans ho')
    rw [hget] at hpins
    rw [hget'] at hpins'
    obtain ⟨ctx, com, hctx, hcom, hne, rfl⟩ := pinsOf_eq_some.mp hpins
    obtain ⟨ctx', com', hctx', hcom', hne', heq⟩ := pinsOf_eq_some.mp hpins'
    simp only [PinFeed.pins, RigEpochPins.mk.injEq, true_and] at heq
    obtain ⟨hp, hr, hv, he, -⟩ := heq
    refine ⟨g, hg, fun x hx => ?_, fun x hx => ?_, fun x hx => ?_⟩
    · obtain rfl := Option.some.inj (hx.symm.trans hctx)
      exact ⟨hparent, hroot, hcore⟩
    · have hlast : (contextsFor (logs ++ more) epoch).getLast? = some x := by
        rw [contextsFor_append]
        exact getLast?_append_some hx
      obtain rfl := Option.some.inj (hlast.symm.trans hctx')
      exact ⟨hp.trans hparent, hr.trans hroot, hv.trans hcore⟩
    · obtain rfl := Option.some.inj (hx.symm.trans hcom)
      refine ⟨hne, fun d hd => ?_⟩
      have hlast : (commitsFor (logs ++ more) epoch).getLast? = some d := by
        rw [commitsFor_append]
        exact getLast?_append_some hd
      obtain rfl := Option.some.inj (hlast.symm.trans hcom')
      exact he
  · rintro ⟨g, hg, hbase, hlater, hcommit⟩
    obtain ⟨hne, hrepeat⟩ := hcommit m hm
    have hroots := hbase c hc
    have hroots' : SameRoots c' g := by
      rcases hlastc with h | ⟨-, rfl⟩
      · exact hlater c' h
      · exact hroots
    have hcommit' : m'.entropyCommitment = m.entropyCommitment := by
      rcases hlastm with h | ⟨-, rfl⟩
      · exact hrepeat m' h
      · rfl
    refine ⟨g, (PinFeed.read logs).pins epoch c m.entropyCommitment, out, out', hg, hout, hout', ?_,
      ?_, hroots.1, hroots.2.1, hroots.2.2⟩
    · rw [hget]
      exact pinsOf_eq_some.mpr ⟨c, m, hc, hm, hne, rfl⟩
    · rw [hget']
      refine pinsOf_eq_some.mpr ⟨c', m', hc', hm', hcommit' ▸ hne, ?_⟩
      simp only [PinFeed.pins, hsecret, hcommit', hroots.1, hroots.2.1, hroots.2.2, hroots'.1,
        hroots'.2.1, hroots'.2.2]

/-- The law follows the last context, the first commit and the policies in force. -/
theorem law_frozen (harmed : Armed logs epoch) (hmore : ∀ log ∈ more, LaterLog epoch log)
    (hheld : CommitHeld logs more epoch) :
    ∃ law law', lawForEpoch (decodeLogs logs) epoch chainPolicy = .ok law ∧
      lawForEpoch (decodeLogs (logs ++ more)) epoch chainPolicy = .ok law' ∧ SameLaw law law' := by
  obtain ⟨g, hg, hbase, hlater, -⟩ := hheld
  obtain ⟨⟨c, hc⟩, m, hm⟩ := harmed.last
  obtain ⟨c', hc', hlastc⟩ := getLast?_contexts more hc
  have hroots := hbase c hc
  have hroots' : SameRoots c' g := by
    rcases hlastc with h | ⟨-, rfl⟩
    · exact hlater c' h
    · exact hroots
  obtain ⟨law, hlaw, hroot, hcore, hparent, hentropy, hrules, hhash, hbps, heff⟩ :=
    lawForEpoch_eq chainPolicy hc
  obtain ⟨law', hlaw', hroot', hcore', hparent', hentropy', hrules', hhash', hbps', heff'⟩ :=
    lawForEpoch_eq chainPolicy hc'
  have hpolicy : lawPolicy (decodeLogs (logs ++ more)).policies epoch chainPolicy =
      lawPolicy (decodeLogs logs).policies epoch chainPolicy := by
    cases chainPolicy with
    | none => exact policyInForce_later hmore
    | some p => simp only [lawPolicy, policyInForce_later hmore]
  have hfirst := find?_commit_append more
    (List.ne_nil_of_mem (List.mem_of_getLast? hm))
  rw [hpolicy] at hrules' hhash' hbps' heff'
  rw [hfirst] at hentropy'
  exact ⟨law, law', hlaw, hlaw', {
    epochContextRoot := by rw [hroot, hroot', hroots.2.1, hroots'.2.1]
    coreVersionHash := by rw [hcore, hcore', hroots.2.2, hroots'.2.2]
    contextParentStateRoot := by rw [hparent, hparent', hroots.1, hroots'.1]
    entropyCommitment := hentropy.trans hentropy'.symm
    rulesVersion := hrules.trans hrules'.symm
    policyHash := hhash.trans hhash'.symm
    screenerWorkBps := hbps.trans hbps'.symm
    policyEffectiveEpoch := heff.trans heff'.symm }⟩

end Freeze

/-- **The commit freezes an epoch's law exactly when nothing that counts is set after it**, and an
epoch without a context or without a commit has no pins. -/
theorem epochLaw_frozen_iff (logs more : List DecodedLog) (epoch : Nat)
    (chainPolicy : Option ChainPolicy) (hlogs : ∀ log ∈ logs ++ more, log.Decodable)
    (hmore : ∀ log ∈ more, LaterLog epoch log) :
    (Armed logs epoch → (Frozen logs more epoch chainPolicy ↔ CommitHeld logs more epoch)) ∧
      (¬ Armed logs epoch → ∃ out, buildRigPins logs = .ok out ∧ out.get epoch = none) := by
  constructor
  · intro harmed
    have hpins := pins_frozen_iff hlogs harmed hmore
    exact ⟨fun h => hpins.mp h.1, fun h => ⟨hpins.mpr h, law_frozen harmed hmore h⟩⟩
  · intro hnot
    obtain ⟨out, hout, hget⟩ := buildRigPins_get fun log hlog => hlogs log (List.mem_append_left _ hlog)
    refine ⟨out, hout, ?_⟩
    rw [hget, Option.eq_none_iff_forall_ne_some]
    intro pins hpins
    obtain ⟨ctx, c, hctx, hc, hne, -⟩ := pinsOf_eq_some.mp hpins
    exact hnot ⟨List.ne_nil_of_mem (List.mem_of_getLast? hctx), c, List.mem_of_getLast? hc, hne⟩

/-! ### A context after the commit -/

/-- The text of a word whose digits are all `digit`. -/
def rootOf (digit : Nat) : PyStr :=
  List.replicate 64 digit

def contextLog (digit : Nat) : DecodedLog :=
  .context {
    epoch := 7, parentStateRoot := rootOf digit, epochContextRoot := rootOf digit
    coreVersionHash := rootOf digit, provenance := noProvenance }

def commitLog : DecodedLog :=
  .commit { epoch := 7, entropyCommitment := rootOf 49, provenance := noProvenance }

theorem decodable_contextLog (digit : Nat) (h : isRoot (rootOf digit) = true) :
    (contextLog digit).Decodable :=
  ⟨(by decide : 7 < 2 ^ 64), h, h, h⟩

theorem armed_contextLog (digit : Nat) : Armed [contextLog digit, commitLog] 7 := by
  refine ⟨?_, _, List.mem_cons_self, by decide⟩
  exact List.cons_ne_nil _ _

/-- A context that repeats the first one is held by the commit. -/
theorem epochLaw_frozen_repeated : Frozen [contextLog 49, commitLog] [contextLog 49] 7 none := by
  have hdecodable : ∀ log ∈ [contextLog 49, commitLog] ++ [contextLog 49], log.Decodable := by
    intro log hlog
    simp only [List.cons_append, List.nil_append, List.mem_cons, List.not_mem_nil, or_false] at hlog
    rcases hlog with rfl | rfl | rfl
    · exact decodable_contextLog 49 (by decide)
    · exact (by decide : isRoot (rootOf 49) = true)
    · exact decodable_contextLog 49 (by decide)
  have hlater : ∀ log ∈ [contextLog 49], LaterLog 7 log := by
    intro log hlog
    rw [List.mem_singleton.mp hlog]
    trivial
  refine ((epochLaw_frozen_iff [contextLog 49, commitLog] [contextLog 49] 7 none hdecodable
    hlater).1 (armed_contextLog 49)).mpr ⟨_, rfl, ?_, ?_, ?_⟩
  · intro c hc
    cases hc
    exact ⟨rfl, rfl, rfl⟩
  · intro c hc
    cases hc
    exact ⟨rfl, rfl, rfl⟩
  · intro c hc
    cases hc
    exact ⟨by decide, fun d hd => by cases hd⟩

/-- A context set after the commit replaces the pins of the epoch. -/
theorem epochLaw_not_frozen :
    ¬ ∀ (logs more : List DecodedLog) (epoch : Nat) (chainPolicy : Option ChainPolicy),
      (∀ log ∈ logs ++ more, log.Decodable) → Armed logs epoch →
      (∀ log ∈ more, LaterLog epoch log) → Frozen logs more epoch chainPolicy := by
  intro h
  have hdecodable : ∀ log ∈ [contextLog 49, commitLog] ++ [contextLog 50], log.Decodable := by
    intro log hlog
    simp only [List.cons_append, List.nil_append, List.mem_cons, List.not_mem_nil, or_false] at hlog
    rcases hlog with rfl | rfl | rfl
    · exact decodable_contextLog 49 (by decide)
    · exact (by decide : isRoot (rootOf 49) = true)
    · exact decodable_contextLog 50 (by decide)
  have hlater : ∀ log ∈ [contextLog 50], LaterLog 7 log := by
    intro log hlog
    rw [List.mem_singleton.mp hlog]
    trivial
  have hfrozen := h _ _ 7 none hdecodable (armed_contextLog 49) hlater
  obtain ⟨g, hg, -, hmore, -⟩ :=
    (pins_frozen_iff hdecodable (armed_contextLog 49) hlater).mp hfrozen.1
  cases hg
  have hroots := (hmore _ rfl).1
  exact absurd hroots (by decide)

end CoreTex.Scan
