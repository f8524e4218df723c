import CoreTex.EvalReport.PostReveal
import CoreTex.Evaluator.ScorePatch
import CoreTex.Lib.HexText
import CoreTex.Reducer.OrderIndependence

/-!
# CoreTex.Evaluator.AntiGrinding

Interleaved calls of `scorePatch` over one durable store, with crashes.

A `System` has the store, the running calls and what they did so far. `Step` starts a call, runs
one from an await to the next, or drops some. `AntiGrinding` is what the store is for: one seed
context and one miner for a key, admissions under the cap, and no scorer run after a result.

The lookups and the pin are separate awaits. A call that pins behind another call of its key goes
on with its own seed context, and a call that pins behind others of its miner is charged above the
cap: `StepMeets` is the condition that no pin comes too late.
-/

namespace CoreTex.Evaluator

open CoreTex.Lib CoreTex.EvalReport CoreTex.Coordinator

/-! ### Seeds do not see the case of a blockhash -/

theorem hexAlphabet_toLower : ∀ c ∈ hexAlphabet,
    hexValue c.toLower.toNat = hexValue c.toNat ∧ c.toLower ≠ 'x' ∧ c.toLower ≠ 'X' ∧
      (c.toLower = '0' → c = '0') ∧ c ≠ 'x' ∧ c ≠ 'X' :=
  forall_mem_of_all (by decide +kernel)

theorem isHex_of_all {cs : List Char} (h : cs.all isHexChar = true) : ∀ c ∈ cs, IsHex c :=
  List.all_eq_true.mp h

theorem hexPairs_toLower {cs : List Char} (h : ∀ c ∈ cs, IsHex c) :
    hexPairs (cs.map Char.toLower) = hexPairs cs := by
  match cs with
  | [] => rfl
  | [c] => rfl
  | a :: b :: rest =>
      obtain ⟨ha, hb⟩ := List.forall_mem_cons.mp h
      obtain ⟨hb, hrest⟩ := List.forall_mem_cons.mp hb
      have hlow : ∀ c, IsHex c → IsHex c.toLower := by
        intro c hc
        rw [IsHex, (hexAlphabet_toLower c hc.mem_alphabet).1]
        exact hc
      have hbyte : hexPairByte a.toLower b.toLower = hexPairByte a b := by
        rw [hexPairByte, hexPairByte, parseIntHex_pair ha hb,
          parseIntHex_pair (hlow a ha) (hlow b hb), (hexAlphabet_toLower a ha.mem_alphabet).1,
          (hexAlphabet_toLower b hb.mem_alphabet).1]
      rw [List.map_cons, List.map_cons, hexPairs, hexPairs, hbyte, hexPairs_toLower hrest]

/-- A text with or without a prefix. -/
theorem clean_cases (hex : String) :
    (hex.toList = '0' :: 'x' :: clean hex) ∨ (hex.toList = '0' :: 'X' :: clean hex) ∨
      hex.toList = clean hex := by
  unfold clean
  split
  next rest heq => exact .inl heq
  next rest heq => exact .inr (.inl heq)
  next => exact .inr (.inr rfl)

/-- A blockhash of 64 digits keeps them in lower case, and is zero only if it was. -/
theorem clean_toLower {hex : String} (hlen : (clean hex).length = 64)
    (hhex : ∀ c ∈ clean hex, IsHex c) :
    clean hex.toLower = (clean hex).map Char.toLower ∧
      (isZeroBlockhash hex.toLower = true → isZeroBlockhash hex = true) := by
  have hzero : ∀ cs : List Char, (∀ c ∈ cs, IsHex c) → cs.map Char.toLower = List.replicate 64 '0' →
      cs = List.replicate 64 '0' := by
    intro cs hcs heq
    have hlen : cs.length = 64 := by simpa using congrArg List.length heq
    refine List.eq_replicate_iff.mpr ⟨hlen, fun c hc => ?_⟩
    have hmem : c.toLower ∈ List.replicate 64 '0' := heq ▸ List.mem_map_of_mem hc
    exact (hexAlphabet_toLower c (hcs c hc).mem_alphabet).2.2.2.1 (List.eq_of_mem_replicate hmem)
  -- A prefix of either case becomes `0x`.
  have hmarked : ∀ x : Char, x.toLower = 'x' → hex.toList = '0' :: x :: clean hex →
      hex.toLower.toList = '0' :: 'x' :: (clean hex).map Char.toLower := by
    intro x hx htext
    rw [toList_toLower, htext, List.map_cons, List.map_cons, hx]
    rfl
  rcases clean_cases hex with htext | htext | htext
  · have hlow := hmarked 'x' rfl htext
    refine ⟨by rw [clean, hlow]; rfl, fun h => ?_⟩
    rw [isZeroBlockhash, hlow] at h
    rw [isZeroBlockhash, htext]
    exact decide_eq_true (hzero _ hhex (of_decide_eq_true h))
  · have hlow := hmarked 'X' rfl htext
    refine ⟨by rw [clean, hlow]; rfl, fun h => ?_⟩
    rw [isZeroBlockhash, hlow] at h
    rw [isZeroBlockhash, htext]
    exact decide_eq_true (hzero _ hhex (of_decide_eq_true h))
  · have hlow : hex.toLower.toList = (clean hex).map Char.toLower := by
      rw [toList_toLower, htext]
    -- 64 digits begin with no prefix
    obtain ⟨a, b, rest, hcs⟩ : ∃ a b rest, clean hex = a :: b :: rest := by
      match hclean : clean hex with
      | [] => simp [hclean] at hlen
      | [a] => simp [hclean] at hlen
      | a :: b :: rest => exact ⟨a, b, rest, rfl⟩
    have hb := hexAlphabet_toLower b (hhex b (by simp [hcs])).mem_alphabet
    rw [hcs, List.map_cons, List.map_cons] at hlow
    refine ⟨?_, fun h => ?_⟩
    · rw [clean, hlow, hcs]
      split
      next heq => exact absurd (List.cons.inj (List.cons.inj heq).2).1 hb.2.1
      next heq => exact absurd (List.cons.inj (List.cons.inj heq).2).1 hb.2.2.1
      next => rfl
    · rw [isZeroBlockhash, hlow] at h
      split at h
      next heq => exact absurd (List.cons.inj (List.cons.inj heq).2).1 hb.2.1
      next heq => exact absurd (List.cons.inj (List.cons.inj heq).2).1 hb.2.2.1
      next =>
        have hcount := congrArg List.length (of_decide_eq_true h)
        rw [hcs] at hlen
        simp at hcount hlen
        omega

variable {keccak256 : Bytes → Digest} {deps : ProductionCoreTexEvaluatorCoreDeps}

theorem deriveEvalSeed_toLower {domain : String} {input : EvalSeedInput} {seed : String}
    (h : deriveEvalSeedWithPrefix keccak256 domain input = .ok seed) :
    deriveEvalSeedWithPrefix keccak256 domain { input with blockhash := input.blockhash.toLower } =
      .ok seed := by
  unfold deriveEvalSeedWithPrefix at h ⊢
  obtain ⟨_, hsecret, h⟩ := bind_eq_ok.mp h
  obtain ⟨_, hblock, h⟩ := bind_eq_ok.mp h
  have hdigits := hblock
  rw [assertBytes32Hex, refuseIf_bind_eq_ok, refuseIf_eq_ok] at hdigits
  obtain ⟨hlen, hall⟩ := hdigits
  have hlen : (clean input.blockhash).length = 64 := not_not.mp hlen
  have hhex := isHex_of_all (by simpa using hall)
  obtain ⟨hclean, hzero⟩ := clean_toLower hlen hhex
  have hblock' : assertBytes32Hex input.blockhash.toLower "blockhash" = .ok () := by
    rw [assertBytes32Hex, hclean, refuseIf_bind_eq_ok, refuseIf_eq_ok, List.length_map]
    refine ⟨not_not.mpr hlen, ?_⟩
    rw [Bool.not_eq_false, List.all_map, List.all_eq_true]
    intro c hc
    show (hexValue c.toLower.toNat).isSome = true
    rw [(hexAlphabet_toLower c (hhex c hc).mem_alphabet).1]
    exact hhex c hc
  have hbytes : hexBytes input.blockhash.toLower = hexBytes input.blockhash := by
    rw [hexBytes, hexBytes, hclean, hexPairs_toLower hhex]
  dsimp only
  rw [hsecret, ok_bind, hblock', ok_bind]
  obtain ⟨_, hpatch, h⟩ := bind_eq_ok.mp h
  obtain ⟨_, hparent, h⟩ := bind_eq_ok.mp h
  obtain ⟨_, hcorpus, h⟩ := bind_eq_ok.mp h
  obtain ⟨_, hbundle, h⟩ := bind_eq_ok.mp h
  rw [refuseIf_bind_eq_ok] at h
  rw [hpatch, ok_bind, hparent, ok_bind, hcorpus, ok_bind, hbundle, ok_bind,
    refuseIf_of_not fun hz => h.1 (hzero hz), ok_bind, hbytes]
  exact h.2

/-- The seeds under a context are those under the context as the store keeps it. -/
theorem deriveSeeds_normalized {key : CoreTexEvalDedupKey} {ctx : CoreTexEvalSeedContext}
    {seeds : EvalSeeds} (h : deriveSeeds keccak256 deps key ctx = .ok seeds) :
    deriveSeeds keccak256 deps key ctx.normalized = .ok seeds := by
  unfold deriveSeeds at h ⊢
  cases hsecret : deps.epochSecret.filter (· ≠ "") with
  | none =>
      rw [hsecret] at h
      cases h
  | some epochSecret =>
      rw [hsecret] at h
      obtain ⟨gate, hgate, h⟩ := bind_eq_ok.mp h
      obtain ⟨confirm, hconfirm, h⟩ := bind_eq_ok.mp h
      rw [deriveGateEvalSeed] at hgate
      rw [deriveConfirmEvalSeed] at hconfirm
      have hgate' := deriveEvalSeed_toLower hgate
      have hconfirm' := deriveEvalSeed_toLower hconfirm
      dsimp only [CoreTexEvalSeedContext.normalized, deriveGateEvalSeed, deriveConfirmEvalSeed]
      rw [hgate', ok_bind, hconfirm', ok_bind]
      exact h

/-! ### What a store keeps -/

namespace CoreTexEvalDedupStore

/-- A later store: records stay, and an attempt keeps its seed context and its miner. -/
structure Extends (store later : CoreTexEvalDedupStore) : Prop where
  records : ∀ key record, store.get key = some record → ∃ record', later.get key = some record'
  attempts : ∀ key attempt, store.getAttempt key = some attempt →
    ∃ attempt', later.getAttempt key = some attempt' ∧
      attempt'.seedContext = attempt.seedContext ∧
      attempt'.minerAddress = attempt.minerAddress

variable {store : CoreTexEvalDedupStore}

theorem Extends.refl (store : CoreTexEvalDedupStore) : store.Extends store :=
  ⟨fun _ record h => ⟨record, h⟩, fun _ attempt h => ⟨attempt, h, rfl, rfl⟩⟩

theorem get_put (key key' : CoreTexEvalDedupKey) (record : CoreTexEvalDedupRecord) :
    (store.put key record).get key' = if key = key' then some record else store.get key' :=
  JsMap.get_set _ _ _ _

theorem extends_put (key : CoreTexEvalDedupKey) (record : CoreTexEvalDedupRecord) :
    store.Extends (store.put key record) where
  records key' record' h := by
    rw [get_put]
    by_cases hkey : key = key'
    · exact ⟨record, if_pos hkey⟩
    · exact ⟨record', by rw [if_neg hkey, h]⟩
  attempts key' attempt h := ⟨attempt, h, rfl, rfl⟩

/-- A pin of a new key stores its attempt. -/
theorem record_new {key : CoreTexEvalDedupKey} (ctx : CoreTexEvalSeedContext) (miner : String)
    (h : store.getAttempt key = none) :
    store.recordSeedDrawnAndAdmission key ctx miner = { store with
      attempts := store.attempts.set key ⟨.drawn, ctx.normalized, miner, true, none, none⟩ } := by
  have hhas : ¬ store.attempts.has key = true := by
    intro hhas
    obtain ⟨attempt, hattempt⟩ := JsMap.has_iff.mp hhas
    rw [getAttempt, hattempt] at h
    cases h
  rw [recordSeedDrawnAndAdmission, if_neg hhas]

theorem getAttempt_record_new {key : CoreTexEvalDedupKey} {ctx : CoreTexEvalSeedContext}
    {miner : String} (h : store.getAttempt key = none) (key' : CoreTexEvalDedupKey) :
    (store.recordSeedDrawnAndAdmission key ctx miner).getAttempt key' =
      if key = key' then some ⟨.drawn, ctx.normalized, miner, true, none, none⟩
      else store.getAttempt key' := by
  rw [record_new ctx miner h]
  exact JsMap.get_set _ _ _ _

/-- A pin of a key that has an attempt does nothing. -/
theorem record_of_attempt {key : CoreTexEvalDedupKey} {ctx : CoreTexEvalSeedContext}
    {miner : String} {attempt : CoreTexEvalAttemptRecord} (h : store.getAttempt key = some attempt) :
    store.recordSeedDrawnAndAdmission key ctx miner = store := by
  rw [recordSeedDrawnAndAdmission, if_pos (JsMap.has_iff.mpr ⟨attempt, h⟩)]

theorem extends_record (key : CoreTexEvalDedupKey) (ctx : CoreTexEvalSeedContext)
    (miner : String) : store.Extends (store.recordSeedDrawnAndAdmission key ctx miner) := by
  cases hkey : store.getAttempt key with
  | some attempt =>
      rw [record_of_attempt hkey]
      exact .refl _
  | none =>
      refine ⟨fun key' record h => ⟨record, ?_⟩, fun key' attempt h => ⟨attempt, ?_, rfl, rfl⟩⟩
      · unfold recordSeedDrawnAndAdmission
        split <;> exact h
      · rw [getAttempt_record_new hkey, if_neg, h]
        intro heq
        subst heq
        rw [hkey] at h
        cases h

/-- The terminal state of an attempt changes neither its pin nor its charge. -/
theorem recordAttemptOutcome_eq_some {key : CoreTexEvalDedupKey} {state : AttemptState}
    {outcome : EvalOutcome} {code : Option String} {later : CoreTexEvalDedupStore}
    (h : store.recordAttemptOutcome key state outcome code = some later) :
    ∃ attempt attempt', store.getAttempt key = some attempt ∧
      attempt'.seedContext = attempt.seedContext ∧
      attempt'.minerAddress = attempt.minerAddress ∧
      attempt'.admissionCharged = attempt.admissionCharged ∧
      later = { store with attempts := store.attempts.set key attempt' } := by
  unfold recordAttemptOutcome at h
  split at h
  · cases h
  next attempt hattempt =>
    let attempt' : CoreTexEvalAttemptRecord :=
      { attempt with
        state := state
        outcome := some outcome
        code := code.orElse fun _ => attempt.code }
    exact ⟨attempt, attempt', hattempt, rfl, rfl, rfl, (Option.some.inj h).symm⟩

theorem extends_outcome {key : CoreTexEvalDedupKey} {state : AttemptState} {outcome : EvalOutcome}
    {code : Option String} {later : CoreTexEvalDedupStore}
    (h : store.recordAttemptOutcome key state outcome code = some later) : store.Extends later := by
  obtain ⟨attempt, attempt', hattempt, hctx, hminer, -, rfl⟩ := recordAttemptOutcome_eq_some h
  refine ⟨fun key' record h => ⟨record, h⟩, fun key' other hother => ?_⟩
  by_cases hkey : key = key'
  · subst hkey
    obtain rfl : attempt = other := Option.some.inj (hattempt.symm.trans hother)
    exact ⟨attempt', (JsMap.get_set _ _ _ _).trans (if_pos rfl), hctx, hminer⟩
  · exact ⟨other, (JsMap.get_set _ _ _ _).trans (by rw [if_neg hkey]; exact hother), rfl, rfl⟩

end CoreTexEvalDedupStore

/-! ### Counting over a map -/

theorem countP_set_new {κ α : Type} [DecidableEq κ] {m : JsMap κ α} {key : κ} (value : α)
    (p : κ × α → Bool) (h : m.get key = none) :
    (m.set key value).countP p = m.countP p + if p (key, value) then 1 else 0 := by
  induction m with
  | nil => simp [JsMap.set, List.countP_cons]
  | cons e m ih =>
      rw [JsMap.get_cons] at h
      by_cases hkey : e.1 = key
      · rw [if_pos hkey] at h
        cases h
      · rw [if_neg hkey] at h
        rw [JsMap.set, if_neg hkey, List.countP_cons, List.countP_cons, ih h]
        omega

theorem countP_set_same {κ α : Type} [DecidableEq κ] {m : JsMap κ α} {key : κ} {value value' : α}
    (p : κ × α → Bool) (h : m.get key = some value) (hp : p (key, value') = p (key, value)) :
    (m.set key value').countP p = m.countP p := by
  induction m with
  | nil => cases h
  | cons e m ih =>
      rw [JsMap.get_cons] at h
      by_cases hkey : e.1 = key
      · rw [if_pos hkey] at h
        obtain rfl := Option.some.inj h
        rw [JsMap.set, if_pos hkey, List.countP_cons, List.countP_cons, hp, ← hkey]
      · rw [if_neg hkey] at h
        rw [JsMap.set, if_neg hkey, List.countP_cons, List.countP_cons, ih h]

/-- A pin of a new key is one admission more for its miner. -/
theorem CoreTexEvalDedupStore.minerAdmissions_record_new {store : CoreTexEvalDedupStore}
    {key : CoreTexEvalDedupKey} {ctx : CoreTexEvalSeedContext} {miner : String}
    (h : store.getAttempt key = none) (epochId : Int) (miner' : String) :
    (store.recordSeedDrawnAndAdmission key ctx miner).minerAdmissions epochId miner' =
      store.minerAdmissions epochId miner' +
        if key.epochId = epochId ∧ miner = miner' then 1 else 0 := by
  rw [record_new ctx miner h, minerAdmissions, countP_set_new _ _ h]
  simp only [charges, Bool.and_true, Bool.and_eq_true, decide_eq_true_eq]
  rfl

/-! ### One step of one call -/

section Step

variable (keccak256 deps)

/-- What holds of the store. -/
structure StoreInv (store : CoreTexEvalDedupStore) : Prop where
  drawn : ∀ key attempt, store.getAttempt key = some attempt →
    0 < attempt.seedContext.receivedAtBlock ∧ attempt.admissionCharged = true
  capped : ∀ epochId miner, (store.minerAdmissions epochId miner : Int) ≤ deps.perMinerCap

/-- The key of a call has an attempt, charged to its miner. -/
def Charged (store : CoreTexEvalDedupStore) (call : Call) : Prop :=
  ∃ attempt, store.getAttempt call.key = some attempt ∧ attempt.minerAddress = call.miner

/-- The seeds are those of the context that is stored for the key of a call. -/
def SeedsPinned (store : CoreTexEvalDedupStore) (call : Call) (seeds : EvalSeeds) : Prop :=
  ∃ attempt, store.getAttempt call.key = some attempt ∧ attempt.minerAddress = call.miner ∧
    deriveSeeds keccak256 deps call.key attempt.seedContext = .ok seeds

/-- What a running call may rely on. -/
def PhaseInv (store : CoreTexEvalDedupStore) (call : Call) : Phase → Prop
  | .targetBlock receivedAtBlock => 0 < receivedAtBlock
  | .pin ctx => 0 < ctx.receivedAtBlock
  | .pinned ctx => ∃ attempt, store.getAttempt call.key = some attempt ∧
      attempt.minerAddress = call.miner ∧ attempt.seedContext = ctx.normalized
  | .gate ctx seeds => 0 < ctx.receivedAtBlock ∧ SeedsPinned keccak256 deps store call seeds
  | .confirm ctx seeds _ => 0 < ctx.receivedAtBlock ∧ SeedsPinned keccak256 deps store call seeds
  | .publish _ => Charged store call
  | .outcome _ => Charged store call
  | .put _ => Charged store call
  | .stored _ => Charged store call ∧ ∃ record, store.get call.key = some record
  | _ => True

/-- The step comes before any other that it would have to know of: a pin finds the key free and
the miner under the cap, or its own attempt. The chain has a block, and seeds that come with a
retry are the stored ones. -/
def StepMeets (store : CoreTexEvalDedupStore) (call : Call) (answers : Answers) : Prop :=
  match call.phase with
  | .attempt => ∀ attempt seeds, store.getAttempt call.key = some attempt →
      attempt.minerAddress = call.miner → call.injectedSeeds = some seeds →
      deriveSeeds keccak256 deps call.key attempt.seedContext =
        .ok ⟨seeds.gateSeed.toLower, seeds.confirmSeed.toLower⟩
  | .latestBlock => 0 < answers.latestBlock
  | .pin ctx =>
    match store.getAttempt call.key with
    | none => (store.minerAdmissions deps.epochId call.miner : Int) < deps.perMinerCap
    | some attempt => attempt.minerAddress = call.miner ∧ attempt.seedContext = ctx.normalized
  | _ => True

/-- What a step of a call leaves. -/
structure ResumedOk (store : CoreTexEvalDedupStore) (call : Call) (r : Resumed) : Prop where
  extension : store.Extends r.store
  inv : StoreInv deps r.store
  scored : ∀ seed, r.scored = some seed → ∃ seeds, SeedsPinned keccak256 deps r.store call seeds ∧
    (seed = seeds.gateSeed ∨ seed = seeds.confirmSeed)
  next : ∀ phase, r.outcome = .wait phase → PhaseInv keccak256 deps r.store call phase
  accepted : ∀ result, r.outcome = .done result → result.accepted = true → Charged r.store call
  closed : ∀ result, r.outcome = .done result → call.phase.drawn = true →
    ∃ record, r.store.get call.key = some record

variable {keccak256 deps} {store : CoreTexEvalDedupStore} {call : Call}

theorem resumedOk_thrown (hinv : StoreInv deps store) (message : String) (drew : Bool) :
    ResumedOk keccak256 deps store call ⟨store, .thrown message, none, drew⟩ where
  extension := .refl store
  inv := hinv
  scored _ h := nomatch h
  next _ h := nomatch h
  accepted _ h := nomatch h
  closed _ h := nomatch h

/-- A write of a call, behind which it waits again. -/
theorem resumedOk_write {later : CoreTexEvalDedupStore} (hext : store.Extends later)
    (hinv : StoreInv deps later) {phase : Phase}
    (hphase : PhaseInv keccak256 deps later call phase) (drew : Bool) :
    ResumedOk keccak256 deps store call ⟨later, .wait phase, none, drew⟩ where
  extension := hext
  inv := hinv
  scored _ h := nomatch h
  next phase' h := by
    obtain rfl : phase = phase' := by simpa using h
    exact hphase
  accepted _ h := nomatch h
  closed _ h := nomatch h

theorem resumedOk_wait (hinv : StoreInv deps store) {phase : Phase}
    (hphase : PhaseInv keccak256 deps store call phase) (drew : Bool) :
    ResumedOk keccak256 deps store call ⟨store, .wait phase, none, drew⟩ :=
  resumedOk_write (.refl store) hinv hphase drew

/-- A refusal before the draw. -/
theorem resumedOk_reject (hinv : StoreInv deps store) (hdrawn : call.phase.drawn = false)
    (code reason : String) (drew : Bool) :
    ResumedOk keccak256 deps store call ⟨store, .done (.reject code reason), none, drew⟩ where
  extension := .refl store
  inv := hinv
  scored _ h := nomatch h
  next _ h := nomatch h
  accepted result h haccepted := by
    obtain rfl : EvalResult.reject code reason = result := by simpa using h
    cases haccepted
  closed _ _ h := by
    rw [hdrawn] at h
    cases h

theorem scoreGate_ok (hinv : StoreInv deps store) {ctx : CoreTexEvalSeedContext} {reused : Bool}
    (hpos : 0 < ctx.receivedAtBlock)
    (hseeds : ∀ seeds, callSeeds keccak256 deps call ctx reused = .ok seeds →
      SeedsPinned keccak256 deps store call seeds) :
    ResumedOk keccak256 deps store call (scoreGate keccak256 deps store call ctx reused) := by
  unfold scoreGate
  cases hcall : callSeeds keccak256 deps call ctx reused with
  | error message => exact resumedOk_thrown hinv message false
  | ok seeds =>
      have hpinned := hseeds seeds hcall
      have hwait : ResumedOk keccak256 deps store call
          ⟨store, .wait (.gate ctx seeds), none, false⟩ :=
        resumedOk_wait hinv
          (show PhaseInv keccak256 deps store call (.gate ctx seeds) from ⟨hpos, hpinned⟩) false
      refine ⟨hwait.extension, hinv, fun seed hseed => ⟨seeds, hpinned, .inl ?_⟩, hwait.next,
        hwait.accepted, hwait.closed⟩
      exact (Option.some.inj hseed).symm

/-- A result behind a draw that has a block number is recorded before it is returned. -/
theorem settle_ok (hinv : StoreInv deps store) {ctx : CoreTexEvalSeedContext}
    (hpos : 0 < ctx.receivedAtBlock) (hcharged : Charged store call) (result : EvalResult) :
    ResumedOk keccak256 deps store call (settle store ctx result) := by
  unfold settle
  split
  · exact resumedOk_wait hinv
      (show PhaseInv keccak256 deps store call (.publish result) from hcharged) false
  · exact resumedOk_wait hinv
      (show PhaseInv keccak256 deps store call (.outcome result) from hcharged) false

theorem SeedsPinned.charged {seeds : EvalSeeds}
    (h : SeedsPinned keccak256 deps store call seeds) : Charged store call := by
  obtain ⟨attempt, hattempt, hminer, -⟩ := h
  exact ⟨attempt, hattempt, hminer⟩

/-- A pin under the cap stores the context of its call. -/
theorem pin_ok (hinv : StoreInv deps store) (hepoch : call.key.epochId = deps.epochId)
    {ctx : CoreTexEvalSeedContext} (hpos : 0 < ctx.receivedAtBlock)
    (hmeets : match store.getAttempt call.key with
      | none => (store.minerAdmissions deps.epochId call.miner : Int) < deps.perMinerCap
      | some attempt => attempt.minerAddress = call.miner ∧ attempt.seedContext = ctx.normalized) :
    StoreInv deps (store.recordSeedDrawnAndAdmission call.key ctx call.miner) ∧
      PhaseInv keccak256 deps (store.recordSeedDrawnAndAdmission call.key ctx call.miner) call
        (.pinned ctx) := by
  cases hkey : store.getAttempt call.key with
  | some attempt =>
      rw [hkey] at hmeets
      rw [CoreTexEvalDedupStore.record_of_attempt hkey]
      exact ⟨hinv, attempt, hkey, hmeets.1, hmeets.2⟩
  | none =>
      rw [hkey] at hmeets
      have hget := @CoreTexEvalDedupStore.getAttempt_record_new store call.key ctx call.miner hkey
      refine ⟨⟨fun key attempt h => ?_, fun epochId miner => ?_⟩, _, (hget call.key).trans
        (if_pos rfl), rfl, rfl⟩
      · rw [hget] at h
        split at h
        · rw [← Option.some.inj h]
          exact ⟨hpos, rfl⟩
        · exact hinv.drawn key attempt h
      · have hold := hinv.capped epochId miner
        rw [CoreTexEvalDedupStore.minerAdmissions_record_new hkey]
        split
        next hcharges =>
          -- the one miner whose count grows was under the cap
          obtain ⟨hkeyEpoch, hminer⟩ := hcharges
          rw [← hepoch, hkeyEpoch, hminer] at hmeets
          omega
        next => omega

/-- The terminal state of an attempt keeps what holds of the store. -/
theorem StoreInv.outcome (hinv : StoreInv deps store) {key : CoreTexEvalDedupKey}
    {state : AttemptState} {outcome : EvalOutcome} {code : Option String}
    {later : CoreTexEvalDedupStore}
    (h : store.recordAttemptOutcome key state outcome code = some later) : StoreInv deps later := by
  obtain ⟨attempt, attempt', hattempt, hctx, hminer, hcharge, rfl⟩ :=
    CoreTexEvalDedupStore.recordAttemptOutcome_eq_some h
  refine ⟨fun key' other hother => ?_, fun epochId miner => ?_⟩
  · change JsMap.get (store.attempts.set key attempt') key' = some other at hother
    rw [JsMap.get_set] at hother
    split at hother
    · rw [← Option.some.inj hother, hctx, hcharge]
      exact hinv.drawn key attempt hattempt
    · exact hinv.drawn key' other hother
  · have hold := hinv.capped epochId miner
    rw [CoreTexEvalDedupStore.minerAdmissions] at hold ⊢
    rw [countP_set_same _ hattempt (by simp only [CoreTexEvalDedupStore.charges, hminer, hcharge])]
    exact hold

/-- A completed evaluation leaves the attempts alone. -/
theorem StoreInv.put (hinv : StoreInv deps store) (key : CoreTexEvalDedupKey)
    (record : CoreTexEvalDedupRecord) : StoreInv deps (store.put key record) :=
  ⟨hinv.drawn, hinv.capped⟩

theorem Charged.mono {later : CoreTexEvalDedupStore} (hext : store.Extends later)
    (h : Charged store call) : Charged later call := by
  obtain ⟨attempt, hattempt, hminer⟩ := h
  obtain ⟨attempt', hattempt', -, hminer'⟩ := hext.attempts _ _ hattempt
  exact ⟨attempt', hattempt', hminer'.trans hminer⟩

theorem SeedsPinned.mono {later : CoreTexEvalDedupStore} (hext : store.Extends later)
    {seeds : EvalSeeds} (h : SeedsPinned keccak256 deps store call seeds) :
    SeedsPinned keccak256 deps later call seeds := by
  obtain ⟨attempt, hattempt, hminer, hseeds⟩ := h
  obtain ⟨attempt', hattempt', hctx, hminer'⟩ := hext.attempts _ _ hattempt
  exact ⟨attempt', hattempt', hminer'.trans hminer, by rw [hctx, hseeds]⟩

/-- What a waiting call relies on outlives the steps of the others. -/
theorem PhaseInv.mono {later : CoreTexEvalDedupStore} (hext : store.Extends later) {phase : Phase}
    (h : PhaseInv keccak256 deps store call phase) :
    PhaseInv keccak256 deps later call phase := by
  cases phase with
  | pinned ctx =>
      obtain ⟨attempt, hattempt, hminer, hctx⟩ := h
      obtain ⟨attempt', hattempt', hctx', hminer'⟩ := hext.attempts _ _ hattempt
      exact ⟨attempt', hattempt', hminer'.trans hminer, hctx'.trans hctx⟩
  | gate ctx seeds => exact ⟨h.1, h.2.mono hext⟩
  | confirm ctx seeds gate => exact ⟨h.1, h.2.mono hext⟩
  | publish result => exact Charged.mono hext h
  | outcome result => exact Charged.mono hext h
  | put result => exact Charged.mono hext h
  | stored result =>
      obtain ⟨hcharged, record, hrecord⟩ := h
      exact ⟨hcharged.mono hext, hext.records _ record hrecord⟩
  | lookup | attempt | admissions | latestBlock => trivial
  | targetBlock receivedAtBlock => exact h
  | pin ctx => exact h

/-- Seeds that come with a call and pass their check. -/
theorem checkInjectedSeeds_eq_ok {seeds seeds' : EvalSeeds} {reused : Bool}
    (h : checkInjectedSeeds seeds reused = .ok seeds') :
    reused = true ∧ seeds' = ⟨seeds.gateSeed.toLower, seeds.confirmSeed.toLower⟩ := by
  unfold checkInjectedSeeds at h
  rw [refuseIf_bind_eq_ok, refuseIf_bind_eq_ok, refuseIf_bind_eq_ok] at h
  obtain ⟨hreused, -, -, h⟩ := h
  exact ⟨Bool.not_eq_false _ ▸ hreused, (Except.ok.inj h).symm⟩

/-- One await of a call to the next, where the step meets its condition. -/
theorem resume_ok (hinv : StoreInv deps store) (hepoch : call.key.epochId = deps.epochId)
    (hphase : PhaseInv keccak256 deps store call call.phase) {answers : Answers}
    (hmeets : StepMeets keccak256 deps store call answers) :
    ResumedOk keccak256 deps store call (resume keccak256 deps store call answers) := by
  unfold resume
  unfold StepMeets at hmeets
  cases hcall : call.phase with
  | lookup =>
      have hdrawn : call.phase.drawn = false := by rw [hcall]; rfl
      dsimp only
      split
      · exact resumedOk_reject hinv hdrawn _ _ _
      · exact resumedOk_wait hinv (show PhaseInv keccak256 deps store call .attempt from trivial) _
  | attempt =>
      have hdrawn : call.phase.drawn = false := by rw [hcall]; rfl
      rw [hcall] at hmeets
      dsimp only at hmeets ⊢
      split
      next prior hprior =>
        split
        next => exact resumedOk_reject hinv hdrawn _ _ _
        next hminer =>
          have hminer : prior.minerAddress = call.miner := not_not.mp hminer
          split
          next => exact resumedOk_thrown hinv _ _
          next => exact resumedOk_reject hinv hdrawn _ _ _
          next =>
            refine scoreGate_ok hinv (hinv.drawn _ _ hprior).1 fun seeds hseeds => ?_
            refine ⟨prior, hprior, hminer, ?_⟩
            unfold callSeeds at hseeds
            split at hseeds
            next injected hinjected =>
              rw [(checkInjectedSeeds_eq_ok hseeds).2]
              exact hmeets prior injected hprior hminer hinjected
            next => exact hseeds
      next =>
        exact resumedOk_wait hinv
          (show PhaseInv keccak256 deps store call .admissions from trivial) _
  | admissions =>
      have hdrawn : call.phase.drawn = false := by rw [hcall]; rfl
      dsimp only
      split
      · exact resumedOk_thrown hinv _ _
      · exact resumedOk_reject hinv hdrawn _ _ _
      · exact resumedOk_wait hinv
          (show PhaseInv keccak256 deps store call .latestBlock from trivial) _
  | latestBlock =>
      rw [hcall] at hmeets
      exact resumedOk_wait hinv
        (show PhaseInv keccak256 deps store call (.targetBlock answers.latestBlock) from hmeets) _
  | targetBlock receivedAtBlock =>
      rw [hcall] at hphase
      exact resumedOk_wait hinv (show PhaseInv keccak256 deps store call (.pin
        ⟨receivedAtBlock, receivedAtBlock + deps.targetBlockOffset, answers.blockhash⟩) from
        hphase) _
  | pin ctx =>
      rw [hcall] at hphase hmeets
      obtain ⟨hlater, hpinned⟩ := pin_ok hinv hepoch hphase hmeets
      exact resumedOk_write (CoreTexEvalDedupStore.extends_record _ _ _) hlater hpinned _
  | pinned ctx =>
      rw [hcall] at hphase
      obtain ⟨attempt, hattempt, hminer, hctx⟩ := hphase
      have hpos : 0 < ctx.receivedAtBlock := by
        have hdrawn := (hinv.drawn _ _ hattempt).1
        rw [hctx] at hdrawn
        exact hdrawn
      refine scoreGate_ok hinv hpos fun seeds hseeds => ⟨attempt, hattempt, hminer, ?_⟩
      unfold callSeeds at hseeds
      split at hseeds
      next => exact absurd (checkInjectedSeeds_eq_ok hseeds).1 (by decide)
      next =>
        -- the stored context has the blockhash in lower case
        rw [hctx]
        exact deriveSeeds_normalized hseeds
  | gate ctx seeds =>
      rw [hcall] at hphase
      obtain ⟨hpos, hseeds⟩ := hphase
      dsimp only
      split
      · have hwait : ResumedOk keccak256 deps store call
            ⟨store, .wait (.confirm ctx seeds answers.score), none, false⟩ :=
          resumedOk_wait hinv
            (show PhaseInv keccak256 deps store call (.confirm ctx seeds answers.score) from
              ⟨hpos, hseeds⟩) false
        refine ⟨hwait.extension, hinv, fun seed hseed => ⟨seeds, hseeds, .inr ?_⟩, hwait.next,
          hwait.accepted, hwait.closed⟩
        exact (Option.some.inj hseed).symm
      · exact settle_ok hinv hpos hseeds.charged _
  | confirm ctx seeds gate =>
      rw [hcall] at hphase
      obtain ⟨hpos, hseeds⟩ := hphase
      dsimp only
      split
      · exact settle_ok hinv hpos hseeds.charged _
      · exact settle_ok hinv hpos hseeds.charged _
  | publish result =>
      rw [hcall] at hphase
      exact resumedOk_wait hinv
        (show PhaseInv keccak256 deps store call (.outcome result) from hphase) _
  | outcome result =>
      rw [hcall] at hphase
      dsimp only
      split
      next => exact resumedOk_thrown hinv _ _
      next later hlater =>
        have hext := CoreTexEvalDedupStore.extends_outcome hlater
        exact resumedOk_write hext (hinv.outcome hlater)
          (show PhaseInv keccak256 deps later call (.put result) from Charged.mono hext hphase) _
  | put result =>
      rw [hcall] at hphase
      have hext := store.extends_put call.key ⟨result.outcome, result.code⟩
      refine resumedOk_write hext (hinv.put _ _) (show PhaseInv keccak256 deps _ call
        (.stored result) from ⟨Charged.mono hext hphase, ⟨result.outcome, result.code⟩, ?_⟩) _
      rw [CoreTexEvalDedupStore.get_put, if_pos rfl]
  | stored result =>
      rw [hcall] at hphase
      exact ⟨.refl store, hinv, nofun, nofun, fun _ _ _ => hphase.1, fun _ _ _ => hphase.2⟩

/-- A call for a key that has a completed evaluation is refused at its first lookup. -/
theorem resume_lookup (hcall : call.phase = .lookup) {record : CoreTexEvalDedupRecord}
    (hrecord : store.get call.key = some record) (answers : Answers) :
    resume keccak256 deps store call answers =
      ⟨store, .done (.reject "duplicate_submission" (duplicateReason call record)), none,
        false⟩ := by
  rw [resume, hcall]
  dsimp only
  rw [hrecord]

end Step

/-! ### Runs -/

/-- A running call, and whether one for its key had returned a result behind a draw when it
began. -/
structure Running where
  call : Call
  late : Bool

/-- The store and the running calls, with what the calls did so far. -/
structure System where
  store : CoreTexEvalDedupStore
  calls : List Running
  /-- Every seed that was handed to the scorer, under its key. -/
  scored : List (CoreTexEvalDedupKey × String)
  /-- Who got an accepted result for which key. -/
  accepted : List (CoreTexEvalDedupKey × String)
  /-- The keys a call returned a result for behind its draw. -/
  returned : List CoreTexEvalDedupKey
  /-- The late calls that ran the scorer or asked for a block. -/
  lateDraws : List CoreTexEvalDedupKey

def System.empty : System := ⟨.empty, [], [], [], [], []⟩

/-- A call starts. -/
def System.begin (sys : System) (call : Call) : System :=
  { sys with calls := ⟨call, decide (call.key ∈ sys.returned)⟩ :: sys.calls }

/-- The calls that are left of one that went on. -/
def Resumed.running (r : Resumed) (running : Running) : List Running :=
  match r.outcome with
  | .wait phase => [{ running with call := { running.call with phase } }]
  | _ => []

def Resumed.acceptedBy (r : Resumed) (call : Call) : List (CoreTexEvalDedupKey × String) :=
  match r.outcome with
  | .done result => if result.accepted = true then [(call.key, call.miner)] else []
  | _ => []

def Resumed.returnedFor (r : Resumed) (call : Call) : List CoreTexEvalDedupKey :=
  match r.outcome with
  | .done _ => if call.phase.drawn = true then [call.key] else []
  | _ => []

def Resumed.lateDraw (r : Resumed) (running : Running) : List CoreTexEvalDedupKey :=
  if running.late = true ∧ (r.scored.isSome = true ∨ r.drew = true) then [running.call.key] else []

/-- A call between `front` and `back` went on to its next await. -/
def System.resumed (sys : System) (front back : List Running) (running : Running) (r : Resumed) :
    System where
  store := r.store
  calls := front ++ r.running running ++ back
  scored := sys.scored ++ r.scored.toList.map fun seed => (running.call.key, seed)
  accepted := sys.accepted ++ r.acceptedBy running.call
  returned := sys.returned ++ r.returnedFor running.call
  lateDraws := sys.lateDraws ++ r.lateDraw running

/-- The steps: a call starts, one goes on to its next await, some are dropped. A crash drops all,
and an answer that does not come drops its call. -/
inductive Step (keccak256 : Bytes → Digest) (deps : ProductionCoreTexEvaluatorCoreDeps)
    (meets : CoreTexEvalDedupStore → Call → Answers → Prop) (sys : System) : System → Prop
  | start (input : ScorePatchInput) (call : Call)
      (hstart : startCall keccak256 deps input = .ok call) :
      Step keccak256 deps meets sys (sys.begin call)
  | resume (front back : List Running) (running : Running) (answers : Answers)
      (hcalls : sys.calls = front ++ running :: back)
      (hmeets : meets sys.store running.call answers) :
      Step keccak256 deps meets sys (sys.resumed front back running
        (Evaluator.resume keccak256 deps sys.store running.call answers))
  | drop (calls : List Running) (hcalls : calls.Sublist sys.calls) :
      Step keccak256 deps meets sys { sys with calls }

/-- A run from the empty store whose steps of calls all meet `meets`. -/
inductive Run (keccak256 : Bytes → Digest) (deps : ProductionCoreTexEvaluatorCoreDeps)
    (meets : CoreTexEvalDedupStore → Call → Answers → Prop) : System → Prop
  | init : Run keccak256 deps meets .empty
  | step {sys sys' : System} (hrun : Run keccak256 deps meets sys)
      (hstep : Step keccak256 deps meets sys sys') : Run keccak256 deps meets sys'

/-- What the store is for. -/
structure AntiGrinding (keccak256 : Bytes → Digest) (deps : ProductionCoreTexEvaluatorCoreDeps)
    (sys : System) : Prop where
  /-- The scorer only sees the two seeds of the one stored context of the key. -/
  scored : ∀ key seed, (key, seed) ∈ sys.scored →
    ∃ attempt seeds, sys.store.getAttempt key = some attempt ∧
      deriveSeeds keccak256 deps key attempt.seedContext = .ok seeds ∧
      (seed = seeds.gateSeed ∨ seed = seeds.confirmSeed)
  /-- An accepted result goes to the miner that is charged. -/
  accepted : ∀ key miner, (key, miner) ∈ sys.accepted →
    ∃ attempt, sys.store.getAttempt key = some attempt ∧ attempt.admissionCharged = true ∧
      attempt.minerAddress = miner
  oneMiner : ∀ key miner miner', (key, miner) ∈ sys.accepted → (key, miner') ∈ sys.accepted →
    miner = miner'
  capped : ∀ epochId miner, (sys.store.minerAdmissions epochId miner : Int) ≤ deps.perMinerCap
  noLateDraw : sys.lateDraws = []

section Runs

variable (keccak256 deps)

/-- What holds of a running call. -/
structure RunningOk (store : CoreTexEvalDedupStore) (running : Running) : Prop where
  epoch : running.call.key.epochId = deps.epochId
  phase : PhaseInv keccak256 deps store running.call running.call.phase
  /-- A late call is at its lookup, which will find the completed evaluation. -/
  late : running.late = true → running.call.phase = .lookup ∧
    ∃ record, store.get running.call.key = some record

structure SystemInv (sys : System) : Prop where
  store : StoreInv deps sys.store
  calls : ∀ running ∈ sys.calls, RunningOk keccak256 deps sys.store running
  scored : ∀ key seed, (key, seed) ∈ sys.scored →
    ∃ attempt seeds, sys.store.getAttempt key = some attempt ∧
      deriveSeeds keccak256 deps key attempt.seedContext = .ok seeds ∧
      (seed = seeds.gateSeed ∨ seed = seeds.confirmSeed)
  accepted : ∀ key miner, (key, miner) ∈ sys.accepted →
    ∃ attempt, sys.store.getAttempt key = some attempt ∧ attempt.minerAddress = miner
  returned : ∀ key ∈ sys.returned, ∃ record, sys.store.get key = some record
  noLateDraw : sys.lateDraws = []

variable {keccak256 deps}

theorem RunningOk.mono {store later : CoreTexEvalDedupStore} (hext : store.Extends later)
    {running : Running} (h : RunningOk keccak256 deps store running) :
    RunningOk keccak256 deps later running := by
  refine ⟨h.epoch, h.phase.mono hext, fun hlate => ?_⟩
  obtain ⟨hlookup, record, hrecord⟩ := h.late hlate
  exact ⟨hlookup, hext.records _ record hrecord⟩

/-- A call starts at its lookup, in the epoch of its core. -/
theorem startCall_eq_ok {input : ScorePatchInput} {call : Call}
    (h : startCall keccak256 deps input = .ok call) :
    call.key.epochId = deps.epochId ∧ call.phase = .lookup := by
  unfold startCall at h
  obtain ⟨_, -, h⟩ := bind_eq_ok.mp h
  rw [refuseIf_bind_eq_ok] at h
  obtain ⟨-, h⟩ := h
  rw [← Except.ok.inj h]
  exact ⟨rfl, rfl⟩

theorem SystemInv.start {sys : System} (h : SystemInv keccak256 deps sys) {input : ScorePatchInput}
    {call : Call} (hstart : startCall keccak256 deps input = .ok call) :
    SystemInv keccak256 deps (sys.begin call) := by
  obtain ⟨hepoch, hphase⟩ := startCall_eq_ok hstart
  refine ⟨h.store, fun running hrunning => ?_, h.scored, h.accepted, h.returned, h.noLateDraw⟩
  rcases List.mem_cons.mp hrunning with rfl | hrunning
  · refine ⟨hepoch, ?_, fun hlate => ⟨hphase, h.returned _ (of_decide_eq_true hlate)⟩⟩
    show PhaseInv keccak256 deps sys.store call call.phase
    rw [hphase]
    trivial
  · exact h.calls running hrunning

/-- A late call neither scores nor draws: its lookup ends it. -/
theorem RunningOk.lateDraw {store : CoreTexEvalDedupStore} {running : Running}
    (h : RunningOk keccak256 deps store running) (answers : Answers) :
    (resume keccak256 deps store running.call answers).lateDraw running = [] ∧
      (running.late = true →
        (resume keccak256 deps store running.call answers).running running = []) := by
  by_cases hlate : running.late = true
  · obtain ⟨hlookup, record, hrecord⟩ := h.late hlate
    rw [resume_lookup hlookup hrecord]
    exact ⟨if_neg (by simp), fun _ => rfl⟩
  · exact ⟨if_neg fun hdraw => hlate hdraw.1, fun hl => absurd hl hlate⟩

/-- One call goes on while the others wait. -/
theorem SystemInv.resume {sys : System} (h : SystemInv keccak256 deps sys)
    {front back : List Running} {running : Running} {answers : Answers}
    (hcalls : sys.calls = front ++ running :: back)
    (hmeets : StepMeets keccak256 deps sys.store running.call answers) :
    SystemInv keccak256 deps (sys.resumed front back running
      (resume keccak256 deps sys.store running.call answers)) := by
  have hrunning := h.calls running (by simp [hcalls])
  have hok := resume_ok h.store hrunning.epoch hrunning.phase hmeets
  obtain ⟨hlateDraw, hlateEnds⟩ := hrunning.lateDraw answers
  generalize Evaluator.resume keccak256 deps sys.store running.call answers = r at *
  have hext := hok.extension
  constructor
  case store => exact hok.inv
  case calls =>
    intro other hother
    have hwas : other ∈ sys.calls → RunningOk keccak256 deps r.store other := fun hmem =>
      (h.calls other hmem).mono hext
    simp only [System.resumed, List.mem_append] at hother
    rcases hother with (hother | hother) | hother
    · exact hwas (by simp [hcalls, hother])
    · by_cases hlate : running.late = true
      · rw [hlateEnds hlate] at hother
        cases hother
      · unfold Resumed.running at hother
        split at hother
        next phase hphase =>
          rw [List.mem_singleton.mp hother]
          exact ⟨hrunning.epoch, hok.next phase hphase, fun hl => absurd hl hlate⟩
        next => cases hother
    · exact hwas (by simp [hcalls, hother])
  case scored =>
    intro key seed hmem
    rcases List.mem_append.mp hmem with hmem | hmem
    · obtain ⟨attempt, seeds, hattempt, hseeds, hseed⟩ := h.scored key seed hmem
      obtain ⟨attempt', hattempt', hctx, -⟩ := hext.attempts key attempt hattempt
      exact ⟨attempt', seeds, hattempt', by rw [hctx, hseeds], hseed⟩
    · obtain ⟨seed', hseed', heq⟩ := List.mem_map.mp hmem
      obtain ⟨rfl, rfl⟩ := Prod.mk.inj heq
      obtain ⟨seeds, ⟨attempt, hattempt, -, hseeds⟩, hseed⟩ :=
        hok.scored seed' (Option.mem_toList.mp hseed')
      exact ⟨attempt, seeds, hattempt, hseeds, hseed⟩
  case accepted =>
    intro key miner hmem
    rcases List.mem_append.mp hmem with hmem | hmem
    · obtain ⟨attempt, hattempt, hminer⟩ := h.accepted key miner hmem
      obtain ⟨attempt', hattempt', -, hminer'⟩ := hext.attempts key attempt hattempt
      exact ⟨attempt', hattempt', hminer'.trans hminer⟩
    · unfold Resumed.acceptedBy at hmem
      split at hmem
      next result hresult =>
        split at hmem
        next haccepted =>
          obtain ⟨rfl, rfl⟩ := Prod.mk.inj (List.mem_singleton.mp hmem)
          exact hok.accepted result hresult haccepted
        next => cases hmem
      next => cases hmem
  case returned =>
    intro key hmem
    rcases List.mem_append.mp hmem with hmem | hmem
    · obtain ⟨record, hrecord⟩ := h.returned key hmem
      exact hext.records key record hrecord
    · unfold Resumed.returnedFor at hmem
      split at hmem
      next result hresult =>
        split at hmem
        next hdrawn =>
          rw [List.mem_singleton.mp hmem]
          exact hok.closed result hresult hdrawn
        next => cases hmem
      next => cases hmem
  case noLateDraw =>
    show sys.lateDraws ++ r.lateDraw running = []
    rw [h.noLateDraw, hlateDraw]
    rfl

theorem systemInv_empty (hcap : validatePerMinerCap deps.perMinerCap = .ok ()) :
    SystemInv keccak256 deps .empty := by
  rw [validatePerMinerCap, refuseIf_eq_ok, not_or] at hcap
  refine ⟨⟨fun _ _ h => absurd h (Option.some_ne_none _).symm, fun _ _ => ?_⟩,
    fun _ h => absurd h List.not_mem_nil, fun _ _ h => absurd h List.not_mem_nil,
    fun _ _ h => absurd h List.not_mem_nil, fun _ h => absurd h List.not_mem_nil, rfl⟩
  show (0 : Int) ≤ deps.perMinerCap
  omega

theorem Step.systemInv {sys sys' : System} (h : SystemInv keccak256 deps sys)
    (hstep : Step keccak256 deps (StepMeets keccak256 deps) sys sys') :
    SystemInv keccak256 deps sys' := by
  cases hstep with
  | start input call hstart => exact h.start hstart
  | resume front back running answers hcalls hmeets => exact h.resume hcalls hmeets
  | drop calls hcalls =>
      exact ⟨h.store, fun running hrunning => h.calls running (hcalls.subset hrunning), h.scored,
        h.accepted, h.returned, h.noLateDraw⟩

theorem Run.systemInv (hcap : validatePerMinerCap deps.perMinerCap = .ok ()) {sys : System}
    (hrun : Run keccak256 deps (StepMeets keccak256 deps) sys) : SystemInv keccak256 deps sys := by
  induction hrun with
  | init => exact systemInv_empty hcap
  | step _ hstep ih => exact hstep.systemInv ih

theorem SystemInv.antiGrinding {sys : System} (h : SystemInv keccak256 deps sys) :
    AntiGrinding keccak256 deps sys where
  scored := h.scored
  accepted key miner hmem := by
    obtain ⟨attempt, hattempt, hminer⟩ := h.accepted key miner hmem
    exact ⟨attempt, hattempt, (h.store.drawn key attempt hattempt).2, hminer⟩
  oneMiner key miner miner' hmem hmem' := by
    obtain ⟨attempt, hattempt, hminer⟩ := h.accepted key miner hmem
    obtain ⟨attempt', hattempt', hminer'⟩ := h.accepted key miner' hmem'
    obtain rfl : attempt = attempt' := Option.some.inj (hattempt.symm.trans hattempt')
    exact hminer.symm.trans hminer'
  capped := h.store.capped
  noLateDraw := h.noLateDraw

/-- No interleaving grinds, where no pin comes behind another one. -/
theorem run_antiGrinding (hcap : validatePerMinerCap deps.perMinerCap = .ok ()) {sys : System}
    (hrun : Run keccak256 deps (StepMeets keccak256 deps) sys) :
    AntiGrinding keccak256 deps sys :=
  (hrun.systemInv hcap).antiGrinding

/-! ### Runs on fixed calls -/

section Waits

variable {meets : CoreTexEvalDedupStore → Call → Answers → Prop} {sys : System}
  {front back : List Running} {call : Call}

/-- A call that goes from one await to the next. -/
theorem Run.waits (hrun : Run keccak256 deps meets sys) {phase phase' : Phase} {answers : Answers}
    {later : CoreTexEvalDedupStore} {scored : Option String} {drew : Bool}
    (hcalls : sys.calls = front ++ ⟨{ call with phase }, false⟩ :: back)
    (hmeets : meets sys.store { call with phase } answers)
    (hresume : resume keccak256 deps sys.store { call with phase } answers =
      ⟨later, .wait phase', scored, drew⟩) :
    Run keccak256 deps meets { sys with
      store := later
      calls := front ++ ⟨{ call with phase := phase' }, false⟩ :: back
      scored := sys.scored ++ scored.toList.map fun seed => (call.key, seed) } := by
  have hstep := hrun.step (.resume front back _ answers hcalls hmeets)
  rw [hresume] at hstep
  simpa [System.resumed, Resumed.running, Resumed.acceptedBy, Resumed.returnedFor,
    Resumed.lateDraw] using hstep

theorem Run.waits_unscored (hrun : Run keccak256 deps meets sys) {phase phase' : Phase}
    {answers : Answers} {later : CoreTexEvalDedupStore} {drew : Bool}
    (hcalls : sys.calls = front ++ ⟨{ call with phase }, false⟩ :: back)
    (hmeets : meets sys.store { call with phase } answers)
    (hresume : resume keccak256 deps sys.store { call with phase } answers =
      ⟨later, .wait phase', none, drew⟩) :
    Run keccak256 deps meets { sys with
      store := later
      calls := front ++ ⟨{ call with phase := phase' }, false⟩ :: back } := by
  simpa using hrun.waits hcalls hmeets hresume

theorem resume_pin (store : CoreTexEvalDedupStore) (ctx : CoreTexEvalSeedContext)
    (answers : Answers) : resume keccak256 deps store { call with phase := .pin ctx } answers =
      ⟨store.recordSeedDrawnAndAdmission call.key ctx call.miner, .wait (.pinned ctx), none,
        false⟩ := rfl

/-- An admitted call of a new key goes on to its pin. -/
theorem Run.toPin (hrun : Run keccak256 deps meets sys)
    (hcalls : sys.calls = front ++ ⟨{ call with phase := .lookup }, false⟩ :: back)
    (hrecord : sys.store.get call.key = none) (hattempt : sys.store.getAttempt call.key = none)
    (hadmission : admission keccak256 deps call
      (sys.store.minerAdmissions deps.epochId call.miner) = .ok none) (answers : Answers)
    (hmeets : ∀ phase ∈ [Phase.lookup, .attempt, .admissions, .latestBlock,
      .targetBlock answers.latestBlock], meets sys.store { call with phase } answers) :
    Run keccak256 deps meets { sys with
      calls := front ++ ⟨{ call with
        phase := .pin ⟨answers.latestBlock, answers.latestBlock + deps.targetBlockOffset,
          answers.blockhash⟩ }, false⟩ :: back } := by
  obtain ⟨hlookup, hmeets⟩ := List.forall_mem_cons.mp hmeets
  obtain ⟨hattempts, hmeets⟩ := List.forall_mem_cons.mp hmeets
  obtain ⟨hadmissions, hmeets⟩ := List.forall_mem_cons.mp hmeets
  obtain ⟨hlatest, hmeets⟩ := List.forall_mem_cons.mp hmeets
  obtain ⟨htarget, -⟩ := List.forall_mem_cons.mp hmeets
  have hasked : resume keccak256 deps sys.store { call with phase := .lookup } answers =
      ⟨sys.store, .wait .attempt, none, false⟩ := by simp only [resume, hrecord]
  have hfree : resume keccak256 deps sys.store { call with phase := .attempt } answers =
      ⟨sys.store, .wait .admissions, none, false⟩ := by simp only [resume, hattempt]
  have hadmitted : resume keccak256 deps sys.store { call with phase := .admissions } answers =
      ⟨sys.store, .wait .latestBlock, none, true⟩ := by
    have hsame : admission keccak256 deps { call with phase := .admissions }
        (sys.store.minerAdmissions deps.epochId call.miner) = .ok none := hadmission
    simp only [resume, hsame]
  have h₁ := hrun.waits_unscored hcalls hlookup hasked
  have h₂ := h₁.waits_unscored rfl hattempts hfree
  have h₃ := h₂.waits_unscored rfl hadmissions hadmitted
  have h₄ := h₃.waits_unscored rfl hlatest rfl
  exact h₄.waits_unscored rfl htarget rfl

end Waits

end Runs

def sampleDeps : ProductionCoreTexEvaluatorCoreDeps where
  epochId := 1
  epochSecret := some onesRoot
  corpusRoot := onesRoot
  bundleHash := onesRoot
  targetBlockOffset := 1
  screenerThresholdPpm := 0
  stateThresholdPpm := 0
  perMinerCap := 1

/-- Two patches on one parent, one for each word. -/
def sampleBytes (word : Int) : Bytes :=
  slotPatchBytes (List.replicate 32 17) word

def sampleInput (word : Int) : ScorePatchInput :=
  ⟨sampleBytes word, onesRoot, forgedMiner, none, none⟩

def sampleCall (word : Int) : Call where
  key := ⟨1, onesRoot.toLower, (computePatchHash tailDigest (sampleBytes word)).toLower⟩
  miner := forgedMiner.toLower
  patchBytes := sampleBytes word
  thresholdPpm := 0
  injectedSeeds := none
  phase := .lookup

def sampleAnswers : Answers := ⟨5, onesRoot, ⟨0, true⟩⟩

def sampleContext : CoreTexEvalSeedContext := ⟨5, 6, onesRoot⟩

theorem startCall_sample {word : Int}
    (h : ((decodePatch (sampleBytes word)).toOption).isSome = true) :
    startCall tailDigest sampleDeps (sampleInput word) = .ok (sampleCall word) := by
  cases hdecode : decodePatch (sampleBytes word) with
  | error e =>
      rw [hdecode] at h
      cases h
  | ok patch =>
      have hbytes : decodePatch (sampleInput word).patchBytes = .ok patch := hdecode
      unfold startCall
      rw [hbytes]
      rfl

theorem decode_sample : ((decodePatch (sampleBytes 7)).toOption).isSome = true ∧
    ((decodePatch (sampleBytes 8)).toOption).isSome = true := by decide +kernel

theorem admission_sample : admission tailDigest sampleDeps (sampleCall 7) 0 = .ok none ∧
    admission tailDigest sampleDeps (sampleCall 8) 0 = .ok none :=
  ⟨toOption_eq_some.mp (by decide +kernel), toOption_eq_some.mp (by decide +kernel)⟩

/-- A sample call that waits to pin. -/
def pinning (word : Int) : Running :=
  ⟨{ sampleCall word with phase := .pin sampleContext }, false⟩

/-- A sample call behind its pin. -/
def pinned (word : Int) : Running :=
  ⟨{ sampleCall word with phase := .pinned sampleContext }, false⟩

/-- The store behind the pin of one sample call. -/
def pinnedOnce (word : Int) : CoreTexEvalDedupStore :=
  CoreTexEvalDedupStore.empty.recordSeedDrawnAndAdmission (sampleCall word).key sampleContext
    (sampleCall word).miner

/-- The store behind the pins of both. -/
def pinnedTwice : CoreTexEvalDedupStore :=
  (pinnedOnce 8).recordSeedDrawnAndAdmission (sampleCall 7).key sampleContext (sampleCall 7).miner

theorem minerAdmissions_pinned : pinnedTwice.minerAdmissions 1 (sampleCall 7).miner = 2 := by
  have hkeys : (sampleCall 8).key ≠ (sampleCall 7).key := by
    intro heq
    have hhash := congrArg CoreTexEvalDedupKey.patchHash heq
    change (computePatchHash tailDigest (sampleBytes 8)).toLower =
      (computePatchHash tailDigest (sampleBytes 7)).toLower at hhash
    rw [toLower_computePatchHash, toLower_computePatchHash] at hhash
    exact absurd (bytesToHex_injective hhash) (by decide +kernel)
  have hsecond : (pinnedOnce 8).getAttempt (sampleCall 7).key = none := by
    rw [pinnedOnce, CoreTexEvalDedupStore.getAttempt_record_new rfl, if_neg hkeys]
    rfl
  rw [pinnedTwice, CoreTexEvalDedupStore.minerAdmissions_record_new hsecond, pinnedOnce,
    CoreTexEvalDedupStore.minerAdmissions_record_new rfl, if_pos ⟨rfl, rfl⟩, if_pos ⟨rfl, rfl⟩]
  rfl

/-- Two patches of one miner pass a cap of one: both count before either pins. -/
theorem not_antiGrinding :
    ¬ ∀ (keccak256 : Bytes → Digest) (deps : ProductionCoreTexEvaluatorCoreDeps) (sys : System),
      validatePerMinerCap deps.perMinerCap = .ok () →
      Run keccak256 deps (fun _ _ _ => True) sys → AntiGrinding keccak256 deps sys := by
  intro h
  let anyStep : CoreTexEvalDedupStore → Call → Answers → Prop := fun _ _ _ => True
  have hinit : Run tailDigest sampleDeps anyStep .empty := .init
  have hstart₇ := hinit.step (.start _ _ (startCall_sample decode_sample.1))
  have hstart₈ := hstart₇.step (.start _ _ (startCall_sample decode_sample.2))
  -- both calls see a miner without an admission
  have hpinning₈ : Run tailDigest sampleDeps anyStep
      ⟨.empty, [pinning 8, ⟨sampleCall 7, false⟩], [], [], [], []⟩ :=
    @Run.toPin _ _ _ _ [] [⟨sampleCall 7, false⟩] (sampleCall 8) hstart₈ rfl rfl rfl
      admission_sample.2 sampleAnswers fun _ _ => trivial
  have hpinning₇ : Run tailDigest sampleDeps anyStep
      ⟨.empty, [pinning 8, pinning 7], [], [], [], []⟩ :=
    @Run.toPin _ _ _ _ [pinning 8] [] (sampleCall 7) hpinning₈ rfl rfl rfl admission_sample.1
      sampleAnswers fun _ _ => trivial
  have hpinned₈ : Run tailDigest sampleDeps anyStep
      ⟨pinnedOnce 8, [pinned 8, pinning 7], [], [], [], []⟩ :=
    @Run.waits_unscored _ _ _ _ [] [pinning 7] (sampleCall 8) hpinning₇ (.pin sampleContext)
      (.pinned sampleContext) sampleAnswers _ false rfl trivial (resume_pin _ _ _)
  have hpinned₇ : Run tailDigest sampleDeps anyStep
      ⟨pinnedTwice, [pinned 8, pinned 7], [], [], [], []⟩ :=
    @Run.waits_unscored _ _ _ _ [pinned 8] [] (sampleCall 7) hpinned₈ (.pin sampleContext)
      (.pinned sampleContext) sampleAnswers _ false rfl trivial (resume_pin _ _ _)
  have hcapped := (h _ _ _ (by decide) hpinned₇).capped 1 (sampleCall 7).miner
  change ((pinnedTwice.minerAdmissions 1 (sampleCall 7).miner : Nat) : Int) ≤ 1 at hcapped
  rw [minerAdmissions_pinned] at hcapped
  exact absurd hcapped (by decide)

/-- The seeds of the sample call under its context. -/
def sampleEvalSeeds : EvalSeeds :=
  ((deriveSeeds tailDigest sampleDeps (sampleCall 7).key sampleContext).toOption).getD ⟨"", ""⟩

/-- A call alone pins its context and runs the scorer on its seed. -/
theorem run_antiGrinding_sample : ∃ sys : System,
    Run tailDigest sampleDeps (StepMeets tailDigest sampleDeps) sys ∧
      AntiGrinding tailDigest sampleDeps sys ∧
      sys.scored = [((sampleCall 7).key, sampleEvalSeeds.gateSeed)] := by
  have hinit : Run tailDigest sampleDeps (StepMeets tailDigest sampleDeps) .empty := .init
  have hstart := hinit.step (.start _ _ (startCall_sample decode_sample.1))
  have hmeets : ∀ phase ∈ [Phase.lookup, .attempt, .admissions, .latestBlock, .targetBlock 5],
      StepMeets tailDigest sampleDeps .empty { sampleCall 7 with phase } sampleAnswers := by
    refine List.forall_mem_cons.mpr ⟨trivial, List.forall_mem_cons.mpr
      ⟨fun _ _ h => absurd h (Option.some_ne_none _).symm, List.forall_mem_cons.mpr ⟨trivial,
        List.forall_mem_cons.mpr ⟨?_, List.forall_mem_cons.mpr
          ⟨trivial, fun _ h => absurd h List.not_mem_nil⟩⟩⟩⟩⟩
    show (0 : Int) < 5
    decide
  have hpinning := @Run.toPin _ _ _ _ [] [] (sampleCall 7) hstart rfl rfl rfl admission_sample.1
    sampleAnswers hmeets
  have hpinned := @Run.waits_unscored _ _ _ _ [] [] (sampleCall 7) hpinning (.pin sampleContext)
    (.pinned sampleContext) sampleAnswers (pinnedOnce 7) false rfl
    (show (0 : Int) < 1 by decide) (resume_pin _ _ _)
  have hseeds : deriveSeeds tailDigest sampleDeps (sampleCall 7).key sampleContext =
      .ok sampleEvalSeeds := toOption_eq_some.mp (by decide +kernel)
  have hscore : resume tailDigest sampleDeps (pinnedOnce 7) (pinned 7).call sampleAnswers =
      ⟨pinnedOnce 7, .wait (.gate sampleContext sampleEvalSeeds), some sampleEvalSeeds.gateSeed,
        false⟩ := by
    show scoreGate tailDigest sampleDeps _ (pinned 7).call sampleContext false = _
    have hcall : callSeeds tailDigest sampleDeps (pinned 7).call sampleContext false =
      .ok sampleEvalSeeds := hseeds
    rw [scoreGate, hcall]
  have hgate := @Run.waits _ _ _ _ [] [] (sampleCall 7) hpinned (.pinned sampleContext) _ _ _ _ _
    rfl trivial hscore
  exact ⟨_, hgate, run_antiGrinding (by decide) hgate, rfl⟩

end CoreTex.Evaluator
