import CoreTex.Corpus.LiveUpdates

/-!
# CoreTex.Corpus.AutoResolve

How a client comes by the corpus of an older root (`client-sync-cli.ts`): it walks the published
deltas forward from a corpus that it holds, and keeps what it met in a small cache.

Whatever is fetched, a corpus is handed out only under the root that it merkleizes to
(`resolved_rooted`). Where only the deltas of one chain are signed, nothing that was fetched
before keeps the corpus of an epoch from being resolved (`resolves_own_epoch`). Both are about
runs, and both rest on `Carried.run`: what the deltas carry from one corpus to the next holds of
every corpus that the resolver has met.
-/

namespace CoreTex.Corpus

open CoreTex.Lib

/-! ### The walk -/

/-- What `fetchDelta` answers for each epoch as an entry is resolved. -/
abbrev Publication := Nat → Except String (Option CorpusDelta)

/-- `AutoResolveCorpusDeps`. What `onMaterialized` is told is returned. -/
structure AutoResolveCorpusDeps where
  verifyDeltaSignature : CorpusDelta → Bool
  applyDelta : ProductionCorpus → CorpusDelta → Except BridgeError ProductionCorpus
  computeRoot : ProductionCorpus → JsString
  toLowerCase : JsString → JsString

/-- Why a corpus is not resolved. -/
inductive Refusal
  | fetchFailed (epoch : Nat) (message : String)
  | notPublished (epoch : Nat)
  | signatureInvalid (epoch : Nat)
  | applyFailed (epoch : Nat) (error : BridgeError)
  | merkleMismatch
  | notReached (applied : Nat)
  | otherBundle
  | noAncestor

/-- `KnownMaterializedCorpus`. -/
structure KnownMaterializedCorpus where
  corpus : ProductionCorpus
  epoch : Nat
  origin : String

/-- `AutoResolveWalkStart`. -/
structure AutoResolveWalkStart where
  start : ProductionCorpus
  fromEpoch : Nat
  maxDeltas : Nat
  origin : String

/-- A corpus that the walk met, and its epoch. -/
abbrev Materialized := ProductionCorpus × Nat

section Walk

variable (deps : AutoResolveCorpusDeps) (fetchDelta : Publication)

/-- The root of a corpus, as it is compared. -/
def AutoResolveCorpusDeps.rootOf (corpus : ProductionCorpus) : JsString :=
  deps.toLowerCase corpus.corpusRoot

/-- The deltas that are left, from one epoch on. -/
def walkDeltas (target : JsString) : Nat → Nat → ProductionCorpus → List Nat →
    Except Refusal (ProductionCorpus × List Nat) × List Materialized
  | 0, _, _, appliedEpochs => (.error (.notReached appliedEpochs.length), [])
  | left + 1, deltaEpoch, corpus, appliedEpochs =>
    match fetchDelta deltaEpoch with
    | .error message => (.error (.fetchFailed deltaEpoch message), [])
    | .ok none => (.error (.notPublished deltaEpoch), [])
    | .ok (some delta) =>
      if deps.verifyDeltaSignature delta = false then (.error (.signatureInvalid deltaEpoch), [])
      else
        match deps.applyDelta corpus delta with
        | .error e => (.error (.applyFailed deltaEpoch e), [])
        | .ok next =>
          if deps.rootOf next = target then
            -- the root is derived once more before the corpus is used
            if deps.toLowerCase (deps.computeRoot next) ≠ target then
              (.error .merkleMismatch, [(next, deltaEpoch)])
            else (.ok (next, appliedEpochs ++ [deltaEpoch]), [(next, deltaEpoch)])
          else
            let walked := walkDeltas target left (deltaEpoch + 1) next
              (appliedEpochs ++ [deltaEpoch])
            (walked.1, (next, deltaEpoch) :: walked.2)

/-- `autoResolveCorpusByRoot`. -/
def autoResolveCorpusByRoot (base : ProductionCorpus) (targetRoot : JsString)
    (fromEpoch maxDeltas : Nat) :
    Except Refusal (ProductionCorpus × List Nat) × List Materialized :=
  let target := deps.toLowerCase targetRoot
  if deps.toLowerCase (deps.computeRoot base) = target then (.ok (base, []), [])
  else walkDeltas deps fetchDelta target maxDeltas fromEpoch base []

end Walk

/-- The nearer one of the best ancestor so far and a candidate. -/
def nearer (targetEpochBound : Nat) (best : Option KnownMaterializedCorpus)
    (c : KnownMaterializedCorpus) : Option KnownMaterializedCorpus :=
  if targetEpochBound < c.epoch then best
  else
    match best with
    | none => some c
    | some b => if b.epoch < c.epoch then some c else some b

/-- `chooseAutoResolveWalkStart`. -/
def chooseAutoResolveWalkStart (candidates : List KnownMaterializedCorpus)
    (targetEpochBound : Nat) : Option AutoResolveWalkStart :=
  match candidates.foldl (nearer targetEpochBound) none with
  | none => none
  | some best =>
    if targetEpochBound ≤ best.epoch then none
    else some {
      start := best.corpus
      fromEpoch := best.epoch + 1
      maxDeltas := max 1 (targetEpochBound - best.epoch)
      origin := best.origin }

/-! ### The cache -/

/-- `MaterializedCorpusCache`: the least recently used corpus first. -/
abbrev MaterializedCorpusCache := JsMap JsString ProductionCorpus

section Cache

variable (toLowerCase : JsString → JsString) (limit : Nat)

/-- `get`, which makes what it finds the most recent. -/
def MaterializedCorpusCache.lookup (cache : MaterializedCorpusCache) (root : JsString) :
    Option ProductionCorpus × MaterializedCorpusCache :=
  match JsMap.get cache (toLowerCase root) with
  | none => (none, cache)
  | some hit =>
    (some hit, JsMap.set (JsMap.delete cache (toLowerCase root)) (toLowerCase root) hit)

/-- The oldest entries go until the limit is met. -/
def MaterializedCorpusCache.evict : MaterializedCorpusCache → MaterializedCorpusCache
  | [] => []
  | e :: cache => if limit < (e :: cache).length then evict cache else e :: cache

/-- `set`. -/
def MaterializedCorpusCache.store (cache : MaterializedCorpusCache) (root : JsString)
    (corpus : ProductionCorpus) : MaterializedCorpusCache :=
  MaterializedCorpusCache.evict limit
    (JsMap.set (JsMap.delete cache (toLowerCase root)) (toLowerCase root) corpus)

end Cache

/-! ### Entries -/

/-- What the resolver reads of an `EvalBacklogEntry`. -/
structure EvalBacklogEntry where
  corpusRoot : JsString
  coreVersionHash : JsString
  epochId : Nat

/-- What a drain of the backlog holds on to. -/
structure Resolver where
  deps : AutoResolveCorpusDeps
  baseCorpus : ProductionCorpus
  loadedCorpus : ProductionCorpus
  loadedBundle : JsString
  cacheLimit : Nat

/-- What it has met so far. -/
structure ResolverState where
  materializedByRoot : MaterializedCorpusCache
  knownCorpusEpoch : JsMap JsString Nat

section Resolver

variable (r : Resolver)

/-- `materializedByRoot.set`. -/
def Resolver.store (s : ResolverState) (root : JsString) (corpus : ProductionCorpus) :
    ResolverState :=
  { s with materializedByRoot :=
      s.materializedByRoot.store r.deps.toLowerCase r.cacheLimit root corpus }

/-- `knownCorpusEpoch.set`. -/
def ResolverState.setEpoch (s : ResolverState) (root : JsString) (epoch : Nat) : ResolverState :=
  { s with knownCorpusEpoch := JsMap.set s.knownCorpusEpoch root epoch }

/-- The state before the first entry. -/
def Resolver.initial : ResolverState :=
  let loadedRootLc := r.deps.rootOf r.loadedCorpus
  let baseRootLc := r.deps.rootOf r.baseCorpus
  let s := r.store ⟨[], JsMap.set [] baseRootLc 0⟩ loadedRootLc r.loadedCorpus
  r.store s baseRootLc r.baseCorpus

/-- `onMaterialized`. -/
def Resolver.onMaterialized (s : ResolverState) (m : Materialized) : ResolverState :=
  (r.store s m.1.corpusRoot m.1).setEpoch (r.deps.rootOf m.1) m.2

/-- The candidates so far, the roots that were seen, and the cache. -/
structure Offers where
  candidates : List KnownMaterializedCorpus
  seenStartRoots : List JsString
  cache : MaterializedCorpusCache

/-- `offerCandidate`. -/
def Resolver.offerCandidate (known : JsMap JsString Nat) (corpus : ProductionCorpus)
    (origin : String) (o : Offers) : Offers :=
  let rootLc := r.deps.rootOf corpus
  match JsMap.get known rootLc with
  | none => o
  | some epoch =>
    if rootLc ∈ o.seenStartRoots then o
    else { o with
      candidates := o.candidates ++ [⟨corpus, epoch, origin⟩]
      seenStartRoots := o.seenStartRoots ++ [rootLc] }

/-- The loop over `knownCorpusEpoch`. -/
def Resolver.offerKnown (targetEpochBound : Nat) (o : Offers) (e : JsString × Nat) : Offers :=
  if targetEpochBound < e.2 ∨ e.1 ∈ o.seenStartRoots then o
  else
    match o.cache.lookup r.deps.toLowerCase e.1 with
    | (none, cache) => { o with cache := cache }
    | (some corpus, cache) =>
      ⟨o.candidates ++ [⟨corpus, e.2, "cached"⟩], o.seenStartRoots ++ [e.1], cache⟩

/-- All corpora that a walk could start from. -/
def Resolver.offers (s : ResolverState) (targetEpochBound : Nat) : Offers :=
  let o := r.offerCandidate s.knownCorpusEpoch r.baseCorpus "base" ⟨[], [], s.materializedByRoot⟩
  let o := r.offerCandidate s.knownCorpusEpoch r.loadedCorpus "loaded" o
  s.knownCorpusEpoch.foldl (r.offerKnown targetEpochBound) o

/-- `autoResolveCorpusForEntry`, once the root is not in the cache. -/
def Resolver.walkForEntry (s : ResolverState) (fetchDelta : Publication)
    (entry : EvalBacklogEntry) : Except Refusal ProductionCorpus × ResolverState :=
  let targetEpochBound := max 1 entry.epochId
  let o := r.offers s targetEpochBound
  let s := { s with materializedByRoot := o.cache }
  match chooseAutoResolveWalkStart o.candidates targetEpochBound with
  | none => (.error .noAncestor, s)
  | some choice =>
    let resolved := autoResolveCorpusByRoot r.deps fetchDelta choice.start entry.corpusRoot
      choice.fromEpoch choice.maxDeltas
    let s := resolved.2.foldl r.onMaterialized s
    match resolved.1 with
    | .error refusal => (.error refusal, s)
    | .ok (corpus, appliedEpochs) =>
      let targetLc := r.deps.toLowerCase entry.corpusRoot
      let s := r.store s targetLc corpus
      (.ok corpus, s.setEpoch targetLc (choice.fromEpoch - 1 + appliedEpochs.length))

/-- `autoResolveCorpusForEntry`. -/
def Resolver.autoResolveCorpusForEntry (s : ResolverState) (fetchDelta : Publication)
    (entry : EvalBacklogEntry) : Except Refusal ProductionCorpus × ResolverState :=
  match s.materializedByRoot.lookup r.deps.toLowerCase (r.deps.toLowerCase entry.corpusRoot) with
  | (some corpus, cache) => (.ok corpus, { s with materializedByRoot := cache })
  | (none, cache) =>
    let s := { s with materializedByRoot := cache }
    if r.deps.toLowerCase entry.coreVersionHash ≠ r.deps.toLowerCase r.loadedBundle then
      (.error .otherBundle, s)
    else r.walkForEntry s fetchDelta entry

/-- An entry, and what is published as it is resolved. -/
abbrev Request := Publication × EvalBacklogEntry

/-- The entries of a backlog, one after the other: what was resolved for each, and the state. -/
def Resolver.drain : ResolverState → List Request →
    List (Request × Except Refusal ProductionCorpus) × ResolverState
  | s, [] => ([], s)
  | s, request :: requests =>
    let resolved := r.autoResolveCorpusForEntry s request.1 request.2
    let rest := Resolver.drain resolved.2 requests
    ((request, resolved.1) :: rest.1, rest.2)

end Resolver

/-! ### What the parts do -/

section Parts

variable {toLowerCase : JsString → JsString} {limit : Nat} {cache : MaterializedCorpusCache}
  {root : JsString} {corpus : ProductionCorpus} {e : JsString × ProductionCorpus}

theorem mem_evict (h : e ∈ cache.evict limit) : e ∈ cache := by
  induction cache with
  | nil => exact h
  | cons e' cache ih =>
      rw [MaterializedCorpusCache.evict] at h
      split at h
      next => exact List.mem_cons_of_mem _ (ih h)
      next => exact h

theorem length_evict (cache : MaterializedCorpusCache) : (cache.evict limit).length ≤ limit := by
  induction cache with
  | nil => exact Nat.zero_le _
  | cons e cache ih =>
      rw [MaterializedCorpusCache.evict]
      split
      next => exact ih
      next hlimit => exact Nat.le_of_not_lt hlimit

theorem mem_store (h : e ∈ cache.store toLowerCase limit root corpus) :
    e = (toLowerCase root, corpus) ∨ e ∈ cache :=
  (JsMap.mem_set (mem_evict h)).imp id List.mem_of_mem_filter

@[simp] theorem lookup_fst :
    (cache.lookup toLowerCase root).1 = JsMap.get cache (toLowerCase root) := by
  unfold MaterializedCorpusCache.lookup
  split <;> simp_all

/-- A lookup only moves an entry. -/
theorem mem_lookup (h : e ∈ (cache.lookup toLowerCase root).2) : e ∈ cache := by
  unfold MaterializedCorpusCache.lookup at h
  split at h
  next => exact h
  next hit hget =>
    rcases JsMap.mem_set h with rfl | hmem
    · exact JsMap.mem_of_get hget
    · exact List.mem_of_mem_filter hmem

@[simp] theorem get_lookup (key : JsString) :
    JsMap.get (cache.lookup toLowerCase root).2 key = JsMap.get cache key := by
  unfold MaterializedCorpusCache.lookup
  split
  next => rfl
  next hit hget =>
    rw [JsMap.get_set]
    split
    next hkey => rw [← hkey, hget]
    next hkey =>
      have hother : decide (key ≠ toLowerCase root) = true := decide_eq_true fun h => hkey h.symm
      rw [JsMap.delete, JsMap.get_filter_key cache fun k => decide (k ≠ toLowerCase root),
        if_pos hother]

theorem length_lookup_le : (cache.lookup toLowerCase root).2.length ≤ cache.length := by
  unfold MaterializedCorpusCache.lookup
  split
  next => exact Nat.le_refl _
  next hit hget =>
    have hshorter : (JsMap.delete cache (toLowerCase root)).length < cache.length :=
      List.length_filter_lt_length_iff_exists.mpr ⟨_, JsMap.mem_of_get hget, by simp⟩
    exact (JsMap.length_set_le _ _ _).trans hshorter

end Parts

section Choice

variable {candidates : List KnownMaterializedCorpus} {bound : Nat}

/-- The nearest ancestor is a candidate within the bound. -/
theorem foldl_nearer_mem {best : Option KnownMaterializedCorpus} {c : KnownMaterializedCorpus}
    (h : candidates.foldl (nearer bound) best = some c) :
    (c ∈ candidates ∧ c.epoch ≤ bound) ∨ best = some c := by
  induction candidates generalizing best with
  | nil => exact .inr h
  | cons c' candidates ih =>
      rcases ih h with ⟨hmem, hle⟩ | hbest
      · exact .inl ⟨List.mem_cons_of_mem _ hmem, hle⟩
      · unfold nearer at hbest
        split at hbest
        next => exact .inr hbest
        next hbound =>
          have hle : c'.epoch ≤ bound := Nat.le_of_not_lt hbound
          split at hbest
          next =>
            obtain rfl := Option.some.inj hbest
            exact .inl ⟨List.mem_cons_self, hle⟩
          next =>
            split at hbest
            next =>
              obtain rfl := Option.some.inj hbest
              exact .inl ⟨List.mem_cons_self, hle⟩
            next => exact .inr hbest

theorem foldl_nearer_isSome {best : Option KnownMaterializedCorpus}
    (h : best.isSome = true ∨ ∃ c ∈ candidates, c.epoch ≤ bound) :
    (candidates.foldl (nearer bound) best).isSome = true := by
  induction candidates generalizing best with
  | nil => exact h.resolve_right fun ⟨c, hmem, _⟩ => by cases hmem
  | cons c' candidates ih =>
      refine ih ?_
      unfold nearer
      rcases h with hbest | ⟨c, hmem, hle⟩
      · left
        split
        next => exact hbest
        next =>
          split
          next => rfl
          next => split <;> rfl
      · rcases List.mem_cons.mp hmem with rfl | hmem
        · left
          rw [if_neg (Nat.not_lt.mpr hle)]
          split
          next => rfl
          next => split <;> rfl
        · exact .inr ⟨c, hmem, hle⟩

/-- A walk starts from a candidate before the bound, and goes up to the bound. -/
theorem chooseAutoResolveWalkStart_eq_some {choice : AutoResolveWalkStart}
    (h : chooseAutoResolveWalkStart candidates bound = some choice) :
    ∃ c ∈ candidates, c.epoch < bound ∧ choice.start = c.corpus ∧
      choice.fromEpoch = c.epoch + 1 ∧ choice.maxDeltas = bound - c.epoch := by
  unfold chooseAutoResolveWalkStart at h
  split at h
  next => cases h
  next best hbest =>
    split at h
    next => cases h
    next hlt =>
      obtain rfl := Option.some.inj h
      have hlt : best.epoch < bound := Nat.lt_of_not_le hlt
      have hmem := (foldl_nearer_mem hbest).resolve_right nofun
      exact ⟨best, hmem.1, hlt, rfl, rfl, Nat.max_eq_right (by omega)⟩

theorem chooseAutoResolveWalkStart_isSome (h : ∃ c ∈ candidates, c.epoch ≤ bound)
    (hnone : ∀ c ∈ candidates, c.epoch ≠ bound) :
    ∃ choice, chooseAutoResolveWalkStart candidates bound = some choice := by
  have hsome : (candidates.foldl (nearer bound) none).isSome = true :=
    foldl_nearer_isSome (.inr h)
  obtain ⟨best, hbest⟩ := Option.isSome_iff_exists.mp hsome
  obtain ⟨hmem, hle⟩ := (foldl_nearer_mem hbest).resolve_right nofun
  have hlt : ¬ bound ≤ best.epoch := fun hge => hnone best hmem (Nat.le_antisymm hle hge)
  unfold chooseAutoResolveWalkStart
  rw [hbest]
  exact ⟨_, if_neg hlt⟩

end Choice

/-! ### Runs -/

/-- The deltas carry `P` from a corpus at one epoch to the next, the corpora at hand have it, a root
decides the epoch, and a corpus with `P` merkleizes to its root. -/
structure Carried (r : Resolver) (P : ProductionCorpus → Nat → Prop) : Prop where
  base : P r.baseCorpus 0
  loaded : ∃ epoch, P r.loadedCorpus epoch
  step : ∀ {corpus epoch delta next}, P corpus epoch → r.deps.verifyDeltaSignature delta = true →
    r.deps.applyDelta corpus delta = .ok next → P next (epoch + 1)
  root : ∀ {a b m n}, P a m → P b n → r.deps.rootOf a = r.deps.rootOf b → P a n
  merkle : ∀ {corpus epoch}, P corpus epoch →
    r.deps.toLowerCase (r.deps.computeRoot corpus) = r.deps.rootOf corpus
  lower : ∀ root, r.deps.toLowerCase (r.deps.toLowerCase root) = r.deps.toLowerCase root

/-- What was met so far: every corpus is under its own root, every epoch is that of its root, the
base has one, and the cache is within its limit. -/
structure Met (r : Resolver) (P : ProductionCorpus → Nat → Prop) (s : ResolverState) : Prop where
  cached : ∀ e ∈ s.materializedByRoot, e.1 = r.deps.rootOf e.2 ∧ ∃ epoch, P e.2 epoch
  known : ∀ e ∈ s.knownCorpusEpoch, ∃ corpus, r.deps.rootOf corpus = e.1 ∧ P corpus e.2
  base : ∃ epoch, JsMap.get s.knownCorpusEpoch (r.deps.rootOf r.baseCorpus) = some epoch
  bounded : s.materializedByRoot.length ≤ r.cacheLimit

/-- The candidates for a walk, and the cache that was searched for them. -/
structure Offered (r : Resolver) (P : ProductionCorpus → Nat → Prop) (s : ResolverState)
    (o : Offers) : Prop where
  candidates : ∀ c ∈ o.candidates, P c.corpus c.epoch ∧ (c.corpus = r.baseCorpus ∨
    c.corpus = r.loadedCorpus ∨
    ∃ found, JsMap.get s.materializedByRoot (r.deps.rootOf c.corpus) = some found)
  get_cache : ∀ key, JsMap.get o.cache key = JsMap.get s.materializedByRoot key
  mem_cache : ∀ e ∈ o.cache, e ∈ s.materializedByRoot
  bounded : o.cache.length ≤ s.materializedByRoot.length

section Runs

variable {r : Resolver} {P : ProductionCorpus → Nat → Prop} {s : ResolverState}
  {fetchDelta : Publication} {entry : EvalBacklogEntry}

/-- A walk from a corpus at `epoch` carries `P`, whatever is fetched. -/
theorem Carried.walkDeltas (h : Carried r P) {target : JsString} {left epoch : Nat}
    {corpus : ProductionCorpus} {appliedEpochs : List Nat} (hcorpus : P corpus epoch) :
    let walked := walkDeltas r.deps fetchDelta target left (epoch + 1) corpus appliedEpochs
    (∀ m ∈ walked.2, P m.1 m.2) ∧
      ∀ found epochs, walked.1 = .ok (found, epochs) → r.deps.rootOf found = target ∧
        ∃ added, epochs.length = appliedEpochs.length + added ∧ P found (epoch + added) := by
  induction left generalizing epoch corpus appliedEpochs with
  | zero => exact ⟨nofun, nofun⟩
  | succ left ih =>
      unfold Corpus.walkDeltas
      split
      next => exact ⟨nofun, nofun⟩
      next => exact ⟨nofun, nofun⟩
      next delta hfetch =>
        split
        next => exact ⟨nofun, nofun⟩
        next hsigned =>
          split
          next => exact ⟨nofun, nofun⟩
          next next happly =>
            have hnext : P next (epoch + 1) := h.step hcorpus (by simpa using hsigned) happly
            have hmem : ∀ m ∈ [(next, epoch + 1)], P m.1 m.2 := by
              intro m hm
              obtain rfl := List.mem_singleton.mp hm
              exact hnext
            split
            next hroot =>
              split
              next => exact ⟨hmem, nofun⟩
              next =>
                refine ⟨hmem, fun found epochs hok => ?_⟩
                obtain ⟨rfl, rfl⟩ := Prod.mk.inj (Except.ok.inj hok)
                exact ⟨hroot, 1, by simp, hnext⟩
            next =>
              obtain ⟨hwalked, hfound⟩ := @ih (epoch + 1) next (appliedEpochs ++ [epoch + 1]) hnext
              refine ⟨fun m hm => ?_, fun found epochs hok => ?_⟩
              · rcases List.mem_cons.mp hm with rfl | hm
                · exact hnext
                · exact hwalked m hm
              · obtain ⟨htarget, added, hlength, hP⟩ := hfound found epochs hok
                refine ⟨htarget, 1 + added, ?_, ?_⟩
                · rw [hlength, List.length_append, List.length_singleton, Nat.add_assoc]
                · rw [← Nat.add_assoc]
                  exact hP

theorem Carried.autoResolveCorpusByRoot (h : Carried r P) {start : ProductionCorpus}
    {targetRoot : JsString} {epoch maxDeltas : Nat} (hstart : P start epoch) :
    let resolved := autoResolveCorpusByRoot r.deps fetchDelta start targetRoot (epoch + 1) maxDeltas
    (∀ m ∈ resolved.2, P m.1 m.2) ∧
      ∀ found epochs, resolved.1 = .ok (found, epochs) →
        r.deps.rootOf found = r.deps.toLowerCase targetRoot ∧ P found (epoch + epochs.length) := by
  unfold Corpus.autoResolveCorpusByRoot
  dsimp only
  split
  next hroot =>
    refine ⟨nofun, fun found epochs hok => ?_⟩
    obtain ⟨rfl, rfl⟩ := Prod.mk.inj (Except.ok.inj hok)
    exact ⟨(h.merkle hstart).symm.trans hroot, hstart⟩
  next =>
    obtain ⟨hwalked, hfound⟩ := @h.walkDeltas _ _ fetchDelta (r.deps.toLowerCase targetRoot)
      maxDeltas epoch start [] hstart
    refine ⟨hwalked, fun found epochs hok => ?_⟩
    obtain ⟨htarget, added, hlength, hP⟩ := hfound found epochs hok
    rw [List.length_nil, Nat.zero_add] at hlength
    exact ⟨htarget, hlength ▸ hP⟩

theorem Met.store (h : Met r P s) {root : JsString} {corpus : ProductionCorpus}
    {epoch : Nat} (hroot : r.deps.toLowerCase root = r.deps.rootOf corpus)
    (hcorpus : P corpus epoch) : Met r P (r.store s root corpus) where
  cached := by
    intro e he
    rcases mem_store he with rfl | he
    · exact ⟨hroot, epoch, hcorpus⟩
    · exact h.cached e he
  known := h.known
  base := h.base
  bounded := length_evict _

theorem Met.setEpoch (h : Met r P s) {corpus : ProductionCorpus} {epoch : Nat}
    (hcorpus : P corpus epoch) :
    Met r P (s.setEpoch (r.deps.rootOf corpus) epoch) where
  cached := h.cached
  known := by
    intro e he
    rcases JsMap.mem_set he with rfl | he
    · exact ⟨corpus, rfl, hcorpus⟩
    · exact h.known e he
  base := by
    obtain ⟨before, hbefore⟩ := h.base
    rw [ResolverState.setEpoch, JsMap.get_set]
    split
    next => exact ⟨epoch, rfl⟩
    next => exact ⟨before, hbefore⟩
  bounded := h.bounded

theorem Carried.initial (h : Carried r P) : Met r P r.initial := by
  obtain ⟨epoch, hloaded⟩ := h.loaded
  have hempty : Met r P ⟨[], JsMap.set [] (r.deps.rootOf r.baseCorpus) 0⟩ := {
    cached := nofun
    known := by
      intro e he
      obtain rfl := List.mem_singleton.mp he
      exact ⟨_, rfl, h.base⟩
    base := ⟨0, by simp [JsMap.set, JsMap.get_cons]⟩
    bounded := Nat.zero_le _ }
  exact (hempty.store (h.lower _) hloaded).store (h.lower _) h.base

theorem Met.onMaterialized (h : Met r P s) {m : Materialized} (hm : P m.1 m.2) :
    Met r P (r.onMaterialized s m) :=
  (h.store rfl hm).setEpoch hm

theorem Met.foldl_onMaterialized (h : Met r P s) {ms : List Materialized}
    (hms : ∀ m ∈ ms, P m.1 m.2) : Met r P (ms.foldl r.onMaterialized s) := by
  induction ms generalizing s with
  | nil => exact h
  | cons m ms ih =>
      have hm : P m.1 m.2 := hms m List.mem_cons_self
      exact ih (h.onMaterialized hm) fun m' hm' => hms m' (List.mem_cons_of_mem _ hm')

/-- A corpus has the epoch that is known of its root. -/
theorem Met.epoch (h : Met r P s) (hc : Carried r P) {corpus : ProductionCorpus} {m epoch : Nat}
    (hcorpus : P corpus m) (hknown : (r.deps.rootOf corpus, epoch) ∈ s.knownCorpusEpoch) :
    P corpus epoch := by
  obtain ⟨other, hroot, hother⟩ := h.known _ hknown
  exact hc.root hcorpus hother hroot.symm

theorem Offered.offerCandidate {o : Offers} (ho : Offered r P s o) (h : Met r P s)
    (hc : Carried r P) {corpus : ProductionCorpus} {m : Nat} (hcorpus : P corpus m)
    (hheld : corpus = r.baseCorpus ∨ corpus = r.loadedCorpus) (origin : String) :
    Offered r P s (r.offerCandidate s.knownCorpusEpoch corpus origin o) := by
  unfold Resolver.offerCandidate
  dsimp only
  split
  next => exact ho
  next epoch hknown =>
    split
    next => exact ho
    next =>
      refine ⟨fun c hmem => ?_, ho.get_cache, ho.mem_cache, ho.bounded⟩
      rcases List.mem_append.mp hmem with hmem | hmem
      · exact ho.candidates c hmem
      · obtain rfl := List.mem_singleton.mp hmem
        exact ⟨h.epoch hc hcorpus (JsMap.mem_of_get hknown), hheld.imp id .inl⟩

theorem Offered.offerKnown {o : Offers} (ho : Offered r P s o) (h : Met r P s) (hc : Carried r P)
    {bound : Nat} {e : JsString × Nat} (he : e ∈ s.knownCorpusEpoch) :
    Offered r P s (r.offerKnown bound o e) := by
  unfold Resolver.offerKnown
  split
  next => exact ho
  next =>
    have hget : ∀ key, JsMap.get (o.cache.lookup r.deps.toLowerCase e.1).2 key =
        JsMap.get s.materializedByRoot key := fun key => (get_lookup key).trans (ho.get_cache key)
    have hmem : ∀ e' ∈ (o.cache.lookup r.deps.toLowerCase e.1).2, e' ∈ s.materializedByRoot :=
      fun e' he' => ho.mem_cache e' (mem_lookup he')
    have hbounded : (o.cache.lookup r.deps.toLowerCase e.1).2.length ≤
        s.materializedByRoot.length := length_lookup_le.trans ho.bounded
    split
    next cache hlookup =>
      rw [hlookup] at hget hmem hbounded
      exact ⟨ho.candidates, hget, hmem, hbounded⟩
    next corpus cache hlookup =>
      obtain ⟨known, hroot, -⟩ := h.known e he
      have hlower : r.deps.toLowerCase e.1 = e.1 := hroot ▸ hc.lower _
      have hfound : JsMap.get s.materializedByRoot e.1 = some corpus := by
        rw [← ho.get_cache, ← hlower, ← lookup_fst, hlookup]
      obtain ⟨hown, m, hcorpus⟩ := h.cached _ (JsMap.mem_of_get hfound)
      rw [hlookup] at hget hmem hbounded
      refine ⟨fun c hmem => ?_, hget, hmem, hbounded⟩
      rcases List.mem_append.mp hmem with hmem | hmem
      · exact ho.candidates c hmem
      · obtain rfl := List.mem_singleton.mp hmem
        have hepoch : P corpus e.2 := h.epoch hc hcorpus (hown ▸ he)
        exact ⟨hepoch, .inr (.inr ⟨corpus, hown ▸ hfound⟩)⟩

theorem Met.offers (h : Met r P s) (hc : Carried r P) (bound : Nat) :
    Offered r P s (r.offers s bound) := by
  obtain ⟨m, hloaded⟩ := hc.loaded
  have hnone : Offered r P s ⟨[], [], s.materializedByRoot⟩ :=
    ⟨nofun, fun _ => rfl, fun _ he => he, Nat.le_refl _⟩
  have hheld := (hnone.offerCandidate h hc hc.base (.inl rfl) "base").offerCandidate h hc hloaded
    (.inr rfl) "loaded"
  refine List.foldlRecOn _ _ hheld fun o ho e he => ?_
  exact ho.offerKnown h hc he

/-- The base is always offered. -/
theorem Met.base_offered (h : Met r P s) (bound : Nat) :
    ∃ c ∈ (r.offers s bound).candidates, c.corpus = r.baseCorpus := by
  obtain ⟨epoch, hknown⟩ := h.base
  have hbase : ∃ c ∈ (r.offerCandidate s.knownCorpusEpoch r.baseCorpus "base"
      ⟨[], [], s.materializedByRoot⟩).candidates, c.corpus = r.baseCorpus := by
    unfold Resolver.offerCandidate
    dsimp only
    rw [hknown]
    exact ⟨_, List.mem_singleton_self _, rfl⟩
  have hgrow : ∀ o : Offers, ∀ corpus origin,
      o.candidates ⊆ (r.offerCandidate s.knownCorpusEpoch corpus origin o).candidates := by
    intro o corpus origin
    unfold Resolver.offerCandidate
    dsimp only
    split
    next => exact List.Subset.refl _
    next =>
      split
      next => exact List.Subset.refl _
      next => exact List.subset_append_left _ _
  have hloaded := hbase.imp fun c hcand => hcand.imp_left (hgrow _ r.loadedCorpus "loaded" ·)
  refine List.foldlRecOn
    (motive := fun o : Offers => ∃ c ∈ o.candidates, c.corpus = r.baseCorpus) _ _ hloaded
    fun o hoffered e he => ?_
  obtain ⟨c, hmem, heq⟩ := hoffered
  refine ⟨c, ?_, heq⟩
  unfold Resolver.offerKnown
  split
  next => exact hmem
  next =>
    split
    next => exact hmem
    next => exact List.mem_append_left _ hmem

theorem Met.cache (h : Met r P s) {cache : MaterializedCorpusCache}
    (hmem : ∀ e ∈ cache, e ∈ s.materializedByRoot)
    (hbounded : cache.length ≤ s.materializedByRoot.length) :
    Met r P { s with materializedByRoot := cache } where
  cached := fun e he => h.cached e (hmem e he)
  known := h.known
  base := h.base
  bounded := hbounded.trans h.bounded

/-- What is resolved has the root of its entry, and `P` at some epoch. -/
def Fits (r : Resolver) (P : ProductionCorpus → Nat → Prop) (entry : EvalBacklogEntry)
    (resolved : Except Refusal ProductionCorpus) : Prop :=
  ∀ corpus, resolved = .ok corpus →
    r.deps.rootOf corpus = r.deps.toLowerCase entry.corpusRoot ∧ ∃ epoch, P corpus epoch

theorem Met.walkForEntry (h : Met r P s) (hc : Carried r P) :
    Met r P (r.walkForEntry s fetchDelta entry).2 ∧
      Fits r P entry (r.walkForEntry s fetchDelta entry).1 := by
  have ho := h.offers hc (max 1 entry.epochId)
  have hsearched := h.cache ho.mem_cache ho.bounded
  unfold Resolver.walkForEntry
  dsimp only
  split
  next => exact ⟨hsearched, nofun⟩
  next choice hchoice =>
    obtain ⟨c, hmem, -, hstart, hfrom, -⟩ := chooseAutoResolveWalkStart_eq_some hchoice
    have hP : P choice.start c.epoch := hstart ▸ (ho.candidates c hmem).1
    obtain ⟨hwalked, hfound⟩ := @hc.autoResolveCorpusByRoot _ _ fetchDelta _ entry.corpusRoot _
      choice.maxDeltas hP
    rw [← hfrom] at hwalked hfound
    have hmet := hsearched.foldl_onMaterialized hwalked
    split
    next => exact ⟨hmet, nofun⟩
    next corpus epochs hok =>
      obtain ⟨htarget, hcorpus⟩ := hfound corpus epochs hok
      have hepoch : choice.fromEpoch - 1 = c.epoch := by rw [hfrom, Nat.add_sub_cancel]
      refine ⟨?_, fun found heq => ?_⟩
      · rw [← htarget, hepoch]
        exact (hmet.store (hc.lower _) hcorpus).setEpoch hcorpus
      · obtain rfl := Except.ok.inj heq
        exact ⟨htarget, _, hcorpus⟩

theorem Met.autoResolveCorpusForEntry (h : Met r P s) (hc : Carried r P) :
    Met r P (r.autoResolveCorpusForEntry s fetchDelta entry).2 ∧
      Fits r P entry (r.autoResolveCorpusForEntry s fetchDelta entry).1 := by
  have hlookup := h.cache (fun _ he => mem_lookup he)
    (@length_lookup_le r.deps.toLowerCase _ (r.deps.toLowerCase entry.corpusRoot))
  unfold Resolver.autoResolveCorpusForEntry
  split
  next corpus cache heq =>
    have hget : JsMap.get s.materializedByRoot (r.deps.toLowerCase entry.corpusRoot) =
        some corpus := by rw [← hc.lower, ← lookup_fst, heq]
    obtain ⟨hroot, hcorpus⟩ := h.cached _ (JsMap.mem_of_get hget)
    rw [heq] at hlookup
    refine ⟨hlookup, fun found hfound => ?_⟩
    obtain rfl := Except.ok.inj hfound
    exact ⟨hroot.symm, hcorpus⟩
  next cache heq =>
    rw [heq] at hlookup
    dsimp only
    split
    next => exact ⟨hlookup, nofun⟩
    next => exact hlookup.walkForEntry hc

/-- What the deltas carry holds of every corpus that a run hands out. -/
theorem Carried.run (hc : Carried r P) (h : Met r P s) (requests : List Request) :
    Met r P (r.drain s requests).2 ∧
      ∀ answer ∈ (r.drain s requests).1, Fits r P answer.1.2 answer.2 := by
  induction requests generalizing s with
  | nil => exact ⟨h, nofun⟩
  | cons request requests ih =>
      obtain ⟨hmet, hfits⟩ := @h.autoResolveCorpusForEntry _ _ _ request.1 request.2 hc
      obtain ⟨hrest, hanswers⟩ := ih hmet
      refine ⟨hrest, fun answer hanswer => ?_⟩
      rcases List.mem_cons.mp hanswer with rfl | hanswer
      · exact hfits
      · exact hanswers answer hanswer

end Runs

/-! ### What is handed out -/

/-- What `AutoResolveCorpusDeps` says of its functions: a delta is applied to the corpus that it
follows, and gives a corpus that merkleizes to its root. -/
structure Promised (deps : AutoResolveCorpusDeps) : Prop where
  chained : ∀ {corpus delta next}, deps.applyDelta corpus delta = .ok next →
    deps.toLowerCase delta.previousRoot = deps.rootOf corpus
  rooted : ∀ {corpus delta next}, deps.applyDelta corpus delta = .ok next →
    deps.toLowerCase (deps.computeRoot next) = deps.rootOf next
  lower : ∀ root, deps.toLowerCase (deps.toLowerCase root) = deps.toLowerCase root

/-- The dependencies of a drain. -/
def wiredDeps (host : Host ProductionCorpusEvent) (verify : CorpusDelta → Bool) :
    AutoResolveCorpusDeps where
  verifyDeltaSignature := verify
  applyDelta := applyCorpusDelta host
  computeRoot := fun corpus => host.computeCorpusRoot corpus.events
  toLowerCase := host.toLowerCase

/-- `applyCorpusDelta` keeps the promises. -/
theorem wiredDeps_promised {host : Host ProductionCorpusEvent} (verify : CorpusDelta → Bool)
    (hlower : ∀ root, host.toLowerCase (host.toLowerCase root) = host.toLowerCase root) :
    Promised (wiredDeps host verify) := by
  have happlied : ∀ {corpus delta next}, applyCorpusDelta host corpus delta = .ok next →
      host.toLowerCase delta.previousRoot = host.toLowerCase corpus.corpusRoot ∧
        host.toLowerCase (host.computeCorpusRoot next.events) =
          host.toLowerCase next.corpusRoot := by
    intro corpus delta next h
    unfold applyCorpusDelta at h
    obtain ⟨hprevious, h⟩ := refuseIf_bind_eq_ok.mp h
    obtain ⟨-, h⟩ := refuseIf_bind_eq_ok.mp h
    obtain ⟨-, h⟩ := refuseIf_bind_eq_ok.mp h
    obtain ⟨-, h⟩ := refuseIf_bind_eq_ok.mp h
    obtain ⟨-, h⟩ := refuseIf_bind_eq_ok.mp h
    obtain ⟨_, -, h⟩ := bind_eq_ok.mp h
    obtain ⟨hnext, h⟩ := refuseIf_bind_eq_ok.mp h
    obtain rfl := pure_eq_ok.mp h
    exact ⟨not_not.mp hprevious, not_not.mp hnext⟩
  exact ⟨fun h => (happlied h).1, fun h => (happlied h).2, hlower⟩

/-- A host to which a corpus is the list of its ids. -/
def listingHost : Host ProductionCorpusEvent where
  number := fun _ => none
  splitForRecord := fun _ _ => .calibration
  computeCorpusRoot := fun events => events.flatMap fun event => event.id
  toLowerCase := id

def listedEvent (m : Nat) : ProductionCorpusEvent where
  id := [m]
  split := .calibration
  queryText := []
  truthDocuments := []
  hardNegatives := []
  qrels := []
  relations := []
  embeddings := ⟨[], [], [], [], []⟩

/-- The first `m` events. -/
def listedCorpus (m : Nat) : ProductionCorpus :=
  { emptyCorpus with events := (List.range m).map listedEvent, corpusRoot := List.range m }

def listedDelta (m : Nat) : CorpusDelta where
  previousRoot := List.range m
  nextRoot := List.range (m + 1)
  addedIds := [[m]]
  addedRecords := [listedEvent m]
  removedIds := []
  modelId := []
  revision := []

deriving instance DecidableEq for CorpusDelta

/-- Two deltas are signed. -/
def listedVerify (delta : CorpusDelta) : Bool :=
  decide (delta = listedDelta 0 ∨ delta = listedDelta 1)

/-- The corpus after both deltas is loaded. -/
def listedResolver : Resolver where
  deps := wiredDeps listingHost listedVerify
  baseCorpus := listedCorpus 0
  loadedCorpus := listedCorpus 2
  loadedBundle := []
  cacheLimit := 4

/-- Every delta is published. -/
def listedPublication : Publication :=
  fun epoch => if epoch = 0 then .ok none else .ok (some (listedDelta (epoch - 1)))

/-- An entry of the first epoch. -/
def listedEntry : EvalBacklogEntry where
  corpusRoot := [0]
  coreVersionHash := []
  epochId := 1

/-- Whatever is fetched, what is handed out for an entry merkleizes to the root of the entry, and
the cache stays within its limit. -/
theorem resolved_rooted (r : Resolver) (hdeps : Promised r.deps)
    (hbase : r.deps.toLowerCase (r.deps.computeRoot r.baseCorpus) = r.deps.rootOf r.baseCorpus)
    (hloaded : r.deps.toLowerCase (r.deps.computeRoot r.loadedCorpus) =
      r.deps.rootOf r.loadedCorpus)
    (requests : List Request) :
    (∀ request corpus, (request, .ok corpus) ∈ (r.drain r.initial requests).1 →
      r.deps.toLowerCase (r.deps.computeRoot corpus) =
        r.deps.toLowerCase request.2.corpusRoot) ∧
      (r.drain r.initial requests).2.materializedByRoot.length ≤ r.cacheLimit := by
  have hcarried : Carried r fun corpus _ =>
      r.deps.toLowerCase (r.deps.computeRoot corpus) = r.deps.rootOf corpus := {
    base := hbase
    loaded := ⟨0, hloaded⟩
    step := fun _ _ happly => hdeps.rooted happly
    root := fun ha _ _ => ha
    merkle := fun h => h
    lower := hdeps.lower }
  obtain ⟨hmet, hanswers⟩ := hcarried.run hcarried.initial requests
  refine ⟨fun request corpus hmem => ?_, hmet.bounded⟩
  obtain ⟨hroot, -, hmerkle⟩ := hanswers _ hmem corpus rfl
  exact hmerkle.trans hroot

/-- An older corpus than the loaded one, from the base. -/
theorem resolved_rooted_sample :
    ∃ corpus, (listedResolver.drain listedResolver.initial [(listedPublication, listedEntry)]).1 =
        [((listedPublication, listedEntry), .ok corpus)] ∧
      listingHost.computeCorpusRoot corpus.events = listedEntry.corpusRoot := by
  refine ⟨listedCorpus 1, rfl, ?_⟩
  exact (resolved_rooted listedResolver (wiredDeps_promised _ fun _ => rfl) rfl rfl
    [(listedPublication, listedEntry)]).1 _ _ List.mem_cons_self

/-! ### A signed chain -/

/-- One chain of deltas is signed, from the base on. The loaded corpus is on it, and its corpora
have different roots. -/
structure SignedChain (r : Resolver) (chain : Nat → ProductionCorpus) (deltaAt : Nat → CorpusDelta)
    (n : Nat) : Prop where
  base : r.baseCorpus = chain 0
  rooted : r.deps.toLowerCase (r.deps.computeRoot (chain 0)) = r.deps.rootOf (chain 0)
  loaded : ∃ l ≤ n, r.loadedCorpus = chain l
  applied : ∀ m < n, r.deps.applyDelta (chain m) (deltaAt m) = .ok (chain (m + 1))
  verified : ∀ m < n, r.deps.verifyDeltaSignature (deltaAt m) = true
  signed : ∀ delta, r.deps.verifyDeltaSignature delta = true → ∃ m < n, delta = deltaAt m
  distinct : ∀ j ≤ n, ∀ k ≤ n, r.deps.rootOf (chain j) = r.deps.rootOf (chain k) → j = k

section SignedChain

variable {r : Resolver} {chain : Nat → ProductionCorpus} {deltaAt : Nat → CorpusDelta} {n : Nat}

theorem SignedChain.merkle (h : SignedChain r chain deltaAt n) (hdeps : Promised r.deps) {k : Nat}
    (hk : k ≤ n) :
    r.deps.toLowerCase (r.deps.computeRoot (chain k)) = r.deps.rootOf (chain k) := by
  cases k with
  | zero => exact h.rooted
  | succ k => exact hdeps.rooted (h.applied k hk)

/-- A signed delta leads from one corpus of the chain to the next, or is not applied. -/
theorem SignedChain.carried (h : SignedChain r chain deltaAt n) (hdeps : Promised r.deps) :
    Carried r fun corpus k => k ≤ n ∧ corpus = chain k where
  base := ⟨Nat.zero_le n, h.base⟩
  loaded := h.loaded
  step := by
    rintro corpus k delta next ⟨hk, rfl⟩ hsigned happly
    obtain ⟨m, hm, rfl⟩ := h.signed delta hsigned
    have hsame : r.deps.rootOf (chain m) = r.deps.rootOf (chain k) :=
      (hdeps.chained (h.applied m hm)).symm.trans (hdeps.chained happly)
    obtain rfl := h.distinct m (Nat.le_of_lt hm) k hk hsame
    exact ⟨hm, Except.ok.inj (happly.symm.trans (h.applied m hm))⟩
  root := by
    rintro a b j k ⟨hj, rfl⟩ ⟨hk, rfl⟩ hroot
    obtain rfl := h.distinct j hj k hk hroot
    exact ⟨hk, rfl⟩
  merkle := by
    rintro corpus k ⟨hk, rfl⟩
    exact h.merkle hdeps hk
  lower := hdeps.lower

/-- Where its deltas are published, a corpus ahead on the chain is reached. -/
theorem SignedChain.walkDeltas_reaches (h : SignedChain r chain deltaAt n)
    (hdeps : Promised r.deps) {fetchDelta : Publication} {k : Nat} (hk : k ≤ n)
    (hpublished : ∀ m < k, fetchDelta (m + 1) = .ok (some (deltaAt m))) {left e : Nat}
    (hleft : 0 < left) (hsum : e + left = k) (appliedEpochs : List Nat) :
    ∃ epochs, (walkDeltas r.deps fetchDelta (r.deps.rootOf (chain k)) left (e + 1) (chain e)
      appliedEpochs).1 = .ok (chain k, epochs) := by
  induction left generalizing e appliedEpochs with
  | zero => cases hleft
  | succ left ih =>
      have he : e < k := by omega
      have happly := h.applied e (by omega)
      have hsigned := h.verified e (by omega)
      unfold walkDeltas
      simp only [hpublished e he, hsigned, happly, reduceCtorEq, if_false]
      by_cases hroot : r.deps.rootOf (chain (e + 1)) = r.deps.rootOf (chain k)
      · obtain rfl := h.distinct (e + 1) (by omega) k hk hroot
        rw [if_pos rfl, if_neg (not_not.mpr (h.merkle hdeps hk))]
        exact ⟨_, rfl⟩
      · have hne : e + 1 ≠ k := fun heq => hroot (heq ▸ rfl)
        rw [if_neg hroot]
        exact ih (by omega) (by omega) _

theorem SignedChain.walkForEntry_resolves (h : SignedChain r chain deltaAt n)
    (hdeps : Promised r.deps) {fetchDelta : Publication} {entry : EvalBacklogEntry}
    {s : ResolverState} (hmet : Met r (fun corpus k => k ≤ n ∧ corpus = chain k) s)
    (hk : max 1 entry.epochId ≤ n)
    (hroot : r.deps.toLowerCase entry.corpusRoot = r.deps.rootOf (chain (max 1 entry.epochId)))
    (hloaded : r.deps.toLowerCase entry.corpusRoot ≠ r.deps.rootOf r.loadedCorpus)
    (hmiss : JsMap.get s.materializedByRoot (r.deps.toLowerCase entry.corpusRoot) = none)
    (hpublished : ∀ m < max 1 entry.epochId, fetchDelta (m + 1) = .ok (some (deltaAt m))) :
    (r.walkForEntry s fetchDelta entry).1 = .ok (chain (max 1 entry.epochId)) := by
  have hpos : 1 ≤ max 1 entry.epochId := Nat.le_max_left _ _
  have ho := hmet.offers (h.carried hdeps) (max 1 entry.epochId)
  unfold Resolver.walkForEntry
  dsimp only
  generalize max 1 entry.epochId = k at *
  have hbase : ∀ c ∈ (r.offers s k).candidates, c.corpus = r.baseCorpus → c.epoch = 0 := by
    intro c hmem hheld
    obtain ⟨hle, hcorpus⟩ := (ho.candidates c hmem).1
    refine h.distinct c.epoch hle 0 (Nat.zero_le n) ?_
    rw [← hcorpus, hheld, h.base]
  have hnone : ∀ c ∈ (r.offers s k).candidates, c.epoch ≠ k := by
    rintro c hmem rfl
    obtain ⟨⟨-, hcorpus⟩, hheld | hheld | ⟨found, hfound⟩⟩ := ho.candidates c hmem
    · rw [hbase c hmem hheld] at hpos
      cases hpos
    · exact hloaded (by rw [hroot, ← hcorpus, hheld])
    · rw [hcorpus, ← hroot, hmiss] at hfound
      cases hfound
  obtain ⟨b, hb, hheld⟩ := hmet.base_offered k
  obtain ⟨choice, hchoice⟩ := chooseAutoResolveWalkStart_isSome
    ⟨b, hb, hbase b hb hheld ▸ Nat.zero_le k⟩ hnone
  obtain ⟨c, hmem, hlt, hstart, hfrom, hmax⟩ := chooseAutoResolveWalkStart_eq_some hchoice
  obtain ⟨hle, hcorpus⟩ := (ho.candidates c hmem).1
  obtain ⟨epochs, hwalked⟩ := h.walkDeltas_reaches hdeps hk hpublished (Nat.sub_pos_of_lt hlt)
    (Nat.add_sub_of_le (Nat.le_of_lt hlt)) []
  have hbefore : r.deps.toLowerCase (r.deps.computeRoot (chain c.epoch)) ≠
      r.deps.rootOf (chain k) := by
    rw [h.merkle hdeps hle]
    exact fun hsame => Nat.ne_of_lt hlt (h.distinct _ hle k hk hsame)
  have hresolved : (autoResolveCorpusByRoot r.deps fetchDelta choice.start entry.corpusRoot
      choice.fromEpoch choice.maxDeltas).1 = .ok (chain k, epochs) := by
    unfold autoResolveCorpusByRoot
    dsimp only
    rw [hroot, hstart, hcorpus, hfrom, hmax, if_neg hbefore]
    exact hwalked
  rw [hchoice]
  dsimp only
  rw [hresolved]

theorem SignedChain.autoResolveCorpusForEntry_resolves (h : SignedChain r chain deltaAt n)
    (hdeps : Promised r.deps) {fetchDelta : Publication} {entry : EvalBacklogEntry}
    {s : ResolverState} (hmet : Met r (fun corpus k => k ≤ n ∧ corpus = chain k) s)
    (hk : max 1 entry.epochId ≤ n)
    (hroot : r.deps.toLowerCase entry.corpusRoot = r.deps.rootOf (chain (max 1 entry.epochId)))
    (hloaded : r.deps.toLowerCase entry.corpusRoot ≠ r.deps.rootOf r.loadedCorpus)
    (hbundle : r.deps.toLowerCase entry.coreVersionHash = r.deps.toLowerCase r.loadedBundle)
    (hpublished : ∀ m < max 1 entry.epochId, fetchDelta (m + 1) = .ok (some (deltaAt m))) :
    (r.autoResolveCorpusForEntry s fetchDelta entry).1 = .ok (chain (max 1 entry.epochId)) := by
  have hlookup := hmet.cache (fun _ he => mem_lookup he)
    (@length_lookup_le r.deps.toLowerCase _ (r.deps.toLowerCase entry.corpusRoot))
  have hfits := (@hmet.autoResolveCorpusForEntry _ _ _ fetchDelta entry (h.carried hdeps)).2
  unfold Resolver.autoResolveCorpusForEntry at hfits ⊢
  split at hfits
  next corpus cache heq =>
    obtain ⟨hsame, j, hj, rfl⟩ := hfits corpus rfl
    rw [h.distinct j hj _ hk (hsame.trans hroot)]
  next cache heq =>
    have hmiss : JsMap.get cache (r.deps.toLowerCase entry.corpusRoot) = none := by
      have hget := @get_lookup r.deps.toLowerCase s.materializedByRoot
        (r.deps.toLowerCase entry.corpusRoot) (r.deps.toLowerCase entry.corpusRoot)
      have hfst := @lookup_fst r.deps.toLowerCase s.materializedByRoot
        (r.deps.toLowerCase entry.corpusRoot)
      rw [heq] at hget
      rw [heq, hdeps.lower] at hfst
      exact hget.trans hfst.symm
    rw [heq] at hlookup
    dsimp only
    rw [if_neg (not_not.mpr hbundle)]
    exact h.walkForEntry_resolves hdeps hlookup hk hroot hloaded hmiss hpublished

end SignedChain

theorem listedResolver_signedChain : SignedChain listedResolver listedCorpus listedDelta 2 where
  base := rfl
  rooted := rfl
  loaded := ⟨2, Nat.le_refl _, rfl⟩
  applied := fun m hm => by
    match m, hm with
    | 0, _ => rfl
    | 1, _ => rfl
  verified := fun m hm => by
    match m, hm with
    | 0, _ => simp [listedResolver, wiredDeps, listedVerify]
    | 1, _ => simp [listedResolver, wiredDeps, listedVerify]
  signed := by
    intro delta h
    rcases of_decide_eq_true h with rfl | rfl
    · exact ⟨0, by decide, rfl⟩
    · exact ⟨1, by decide, rfl⟩
  distinct := by
    intro j _ k _ h
    have hlisted : List.range j = List.range k := h
    simpa using congrArg List.length hlisted

end CoreTex.Corpus
