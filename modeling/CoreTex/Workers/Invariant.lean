import CoreTex.Workers.Pool
import Mathlib.Data.List.Nodup

/-!
# CoreTex.Workers.Invariant

The invariant of the worker pool, through every handler.

`PoolInv` is stated with an optional free worker, one that is off the idle list with nothing in
flight: both `eval` and a reply pass through such a state, and both leave it by `dispatch`.
`PoolInv.step` puts the handlers together.
-/

namespace CoreTex.Workers

open CoreTex.Lib

/-! ### What is in flight -/

theorem unanswered_post {s s' : PoolState} {worker : Worker} {req : EvalWorkerRequest}
    (hposted : s'.posted = s.posted ++ [(worker, req)]) (hreplied : s'.replied = s.replied)
    (w : Worker) :
    s'.unanswered w =
      s.unanswered w ++ if worker = w ∧ (w, req.id) ∉ s.replied then [req.id] else [] := by
  rw [PoolState.unanswered, PoolState.unanswered, hposted, hreplied, List.filter_append,
    List.map_append]
  congr 1
  by_cases h : worker = w ∧ (w, req.id) ∉ s.replied <;> simp [h]

theorem unanswered_reply {s s' : PoolState} {worker : Worker} {id : Nat}
    (hposted : s'.posted = s.posted) (hreplied : s'.replied = s.replied ++ [(worker, id)])
    (w : Worker) :
    s'.unanswered w = (s.unanswered w).filter fun i => ¬ (w = worker ∧ i = id) := by
  rw [PoolState.unanswered, PoolState.unanswered, hposted, hreplied, List.filter_map,
    List.filter_filter]
  congr 1
  refine List.filter_congr fun p _ => ?_
  simp only [Function.comp_apply, List.mem_append, List.mem_singleton, Prod.mk.injEq]
  by_cases h1 : p.1 = w <;> by_cases h2 : (w, p.2.id) ∈ s.replied <;>
    by_cases h3 : w = worker ∧ p.2.id = id <;> simp [h1, h2, h3]

theorem mem_unanswered {s : PoolState} {w : Worker} {id : Nat} :
    id ∈ s.unanswered w ↔
      (∃ req, (w, req) ∈ s.posted ∧ req.id = id) ∧ (w, id) ∉ s.replied := by
  simp only [PoolState.unanswered, List.mem_map, List.mem_filter, decide_eq_true_eq]
  constructor
  · rintro ⟨⟨w', req⟩, ⟨hmem, rfl, hreplied⟩, rfl⟩
    exact ⟨⟨req, hmem, rfl⟩, hreplied⟩
  · rintro ⟨⟨req, hmem, rfl⟩, hreplied⟩
    exact ⟨(w, req), ⟨hmem, rfl, hreplied⟩, rfl⟩

/-! ### The invariant -/

def PoolState.postedIds (s : PoolState) : List Nat :=
  s.posted.map (·.2.id)

def PoolState.queuedIds (s : PoolState) : List Nat :=
  s.queue.map (·.1.id)

def PoolState.settledPromises (s : PoolState) : List PendingEntry :=
  s.settled.map Prod.fst

/-- What holds in every state, with at most one free worker between two steps. -/
structure PoolInv (n : Nat) (free : Option Worker) (s : PoolState) : Prop where
  length_workers : s.workers.length = n
  nodup_workers : s.workers.Nodup
  lt_spawned : ∀ w ∈ s.workers, w < s.spawned
  nodup_idle : s.idle.Nodup
  idle_subset : ∀ w ∈ s.idle, w ∈ s.workers
  pending_none : ∀ w, w ∉ s.workers → s.pending.get w = none
  flight_idle : ∀ w ∈ s.idle, s.pending.get w = some [] ∧ s.unanswered w = []
  flight_free : ∀ w, free = some w →
    w ∈ s.workers ∧ w ∉ s.idle ∧ s.pending.get w = some [] ∧ s.unanswered w = []
  flight_busy : ∀ w ∈ s.workers, w ∉ s.idle → free ≠ some w →
    ∃ id, s.pending.get w = some [(id, id)] ∧ s.unanswered w = [id]
  flight_le : ∀ w, (s.unanswered w).length ≤ 1
  posted_spawned : ∀ p ∈ s.posted, p.1 < s.spawned
  replied_posted : ∀ r ∈ s.replied, r.2 ∈ s.postedIds
  nodup_ids : (s.postedIds ++ s.queuedIds).Nodup
  ids_lt : ∀ id ∈ s.postedIds ++ s.queuedIds, id < s.nextId
  queue_entry : ∀ q ∈ s.queue, q.2 = q.1.id
  nodup_settled : s.settledPromises.Nodup
  settled_lt : ∀ p ∈ s.settledPromises, p < s.nextId
  settled_queue : ∀ id ∈ s.queuedIds, id ∉ s.settledPromises
  settled_flight : ∀ w ∈ s.workers, ∀ id ∈ s.unanswered w, id ∉ s.settledPromises

variable {n : Nat} {s : PoolState}

/-- A worker with something in flight is a busy one, and its pending map holds just that. -/
theorem PoolInv.busy (h : PoolInv n none s) {w : Worker} (hw : w ∈ s.workers) {id : Nat}
    (hid : id ∈ s.unanswered w) :
    w ∉ s.idle ∧ s.pending.get w = some [(id, id)] ∧ s.unanswered w = [id] := by
  by_cases hidle : w ∈ s.idle
  · rw [(h.flight_idle w hidle).2] at hid
    cases hid
  · obtain ⟨id', hpending, hflight⟩ := h.flight_busy w hw hidle (by simp)
    rw [hflight, List.mem_singleton] at hid
    subst hid
    exact ⟨hidle, hpending, hflight⟩

/-- `const id = this.nextId++`. -/
theorem PoolInv.nextId {free : Option Worker} (h : PoolInv n free s) :
    PoolInv n free { s with nextId := s.nextId + 1 } :=
  { h with
    ids_lt := fun id hid => Nat.lt_succ_of_lt (h.ids_lt id hid)
    settled_lt := fun p hp => Nat.lt_succ_of_lt (h.settled_lt p hp) }

theorem nodup_concat {α : Type} {l : List α} {a : α} (h : l.Nodup) (ha : a ∉ l) :
    (l ++ [a]).Nodup :=
  h.append (List.nodup_singleton a) (List.disjoint_singleton.mpr ha)

/-- `this.idle.pop()`. -/
theorem PoolInv.takeIdle (h : PoolInv n none s) {idle : List Worker} {worker : Worker}
    (hidle : s.idle = idle ++ [worker]) :
    PoolInv n (some worker) { s with idle } := by
  have hmem : worker ∈ s.idle := by simp [hidle]
  have hnodup := h.nodup_idle
  rw [hidle, List.nodup_append] at hnodup
  have hfresh : worker ∉ idle := fun hw => hnodup.2.2 worker hw worker (by simp) rfl
  have hsub : ∀ w ∈ idle, w ∈ s.idle := fun w hw => by simp [hidle, hw]
  exact { h with
    nodup_idle := hnodup.1
    idle_subset := fun w hw => h.idle_subset w (hsub w hw)
    flight_idle := fun w hw => h.flight_idle w (hsub w hw)
    flight_free := by
      intro w hw
      obtain rfl : worker = w := Option.some.inj hw
      exact ⟨h.idle_subset worker hmem, hfresh, h.flight_idle worker hmem⟩
    flight_busy := by
      intro w hw hnot hne
      have hnidle : w ∉ s.idle := by
        rw [hidle, List.mem_append, List.mem_singleton]
        rintro (hin | rfl)
        · exact hnot hin
        · exact hne rfl
      exact h.flight_busy w hw hnidle (by simp) }

/-- `this.idle.push(worker)`. -/
theorem PoolInv.putIdle {worker : Worker} (h : PoolInv n (some worker) s) :
    PoolInv n none { s with idle := s.idle ++ [worker] } := by
  obtain ⟨hw, hnot, hflight⟩ := h.flight_free worker rfl
  exact { h with
    nodup_idle := nodup_concat h.nodup_idle hnot
    idle_subset := by
      intro w hmem
      rcases List.mem_append.mp hmem with hmem | hmem
      · exact h.idle_subset w hmem
      · rw [List.mem_singleton.mp hmem]
        exact hw
    flight_idle := by
      intro w hmem
      rcases List.mem_append.mp hmem with hmem | hmem
      · exact h.flight_idle w hmem
      · rw [List.mem_singleton.mp hmem]
        exact hflight
    flight_free := by simp
    flight_busy := by
      intro w hmem hnidle _
      rw [List.mem_append, List.mem_singleton, not_or] at hnidle
      exact h.flight_busy w hmem hnidle.1 fun heq => hnidle.2 (Option.some.inj heq).symm }

/-- `_dispatch` to the free worker of a request with a new id. -/
theorem PoolInv.dispatch {worker : Worker} (h : PoolInv n (some worker) s)
    {req : EvalWorkerRequest} (hnew : req.id ∉ s.postedIds ++ s.queuedIds)
    (hlt : req.id < s.nextId) (hsettled : req.id ∉ s.settledPromises) :
    PoolInv n none (dispatch s worker req req.id) := by
  obtain ⟨hw, hnot, hpending, hflight⟩ := h.flight_free worker rfl
  have hrun : Workers.dispatch s worker req req.id =
      { s with
        pending := s.pending.set worker [(req.id, req.id)]
        posted := s.posted ++ [(worker, req)] } := by
    rw [Workers.dispatch, hpending]
    rfl
  have hreplied : ∀ w, (w, req.id) ∉ s.replied := fun w hmem =>
    hnew (List.mem_append_left _ (h.replied_posted _ hmem))
  have hunanswered : ∀ w, (Workers.dispatch s worker req req.id).unanswered w =
      s.unanswered w ++ if worker = w then [req.id] else [] := by
    intro w
    rw [unanswered_post (by rw [hrun]) (by rw [hrun]) w]
    simp [hreplied w]
  have hother : ∀ w, worker ≠ w →
      (Workers.dispatch s worker req req.id).unanswered w = s.unanswered w := by
    intro w hne
    rw [hunanswered, if_neg hne, List.append_nil]
  have hself : (Workers.dispatch s worker req req.id).unanswered worker = [req.id] := by
    rw [hunanswered, if_pos rfl, hflight, List.nil_append]
  have hget : ∀ w, worker ≠ w →
      (Workers.dispatch s worker req req.id).pending.get w = s.pending.get w := by
    intro w hne
    rw [hrun]
    exact (JsMap.get_set _ _ _ _).trans (if_neg hne)
  have hids : (Workers.dispatch s worker req req.id).postedIds = s.postedIds ++ [req.id] := by
    rw [hrun]
    simp [PoolState.postedIds]
  have hqueue : (Workers.dispatch s worker req req.id).queuedIds = s.queuedIds := by
    rw [hrun]
    rfl
  have hworkers : (Workers.dispatch s worker req req.id).workers = s.workers := by rw [hrun]
  have hidle : (Workers.dispatch s worker req req.id).idle = s.idle := by rw [hrun]
  constructor
  case length_workers => rw [hworkers]; exact h.length_workers
  case nodup_workers => rw [hworkers]; exact h.nodup_workers
  case lt_spawned => rw [hrun]; exact h.lt_spawned
  case nodup_idle => rw [hidle]; exact h.nodup_idle
  case idle_subset => rw [hworkers, hidle]; exact h.idle_subset
  case pending_none =>
    intro w hmem
    rw [hworkers] at hmem
    rw [hget w fun heq => hmem (heq ▸ hw)]
    exact h.pending_none w hmem
  case flight_idle =>
    intro w hmem
    rw [hidle] at hmem
    have hne : worker ≠ w := fun heq => hnot (heq ▸ hmem)
    rw [hget w hne, hother w hne]
    exact h.flight_idle w hmem
  case flight_free => simp
  case flight_busy =>
    intro w hmem hnidle _
    rw [hworkers] at hmem
    rw [hidle] at hnidle
    by_cases heq : worker = w
    · subst heq
      refine ⟨req.id, ?_, hself⟩
      rw [hrun]
      exact (JsMap.get_set _ _ _ _).trans (if_pos rfl)
    · rw [hget w heq, hother w heq]
      exact h.flight_busy w hmem hnidle fun hfree => heq (Option.some.inj hfree)
  case flight_le =>
    intro w
    by_cases heq : worker = w
    · subst heq
      rw [hself]
      exact Nat.le_refl 1
    · rw [hother w heq]
      exact h.flight_le w
  case posted_spawned =>
    rw [hrun]
    intro p hp
    rcases List.mem_append.mp hp with hp | hp
    · exact h.posted_spawned p hp
    · rw [List.mem_singleton.mp hp]
      exact h.lt_spawned worker hw
  case replied_posted =>
    intro r hr
    rw [hrun] at hr
    rw [hids]
    exact List.mem_append_left _ (h.replied_posted r hr)
  case nodup_ids =>
    rw [hids, hqueue]
    have hperm : (s.postedIds ++ [req.id] ++ s.queuedIds).Perm
        (req.id :: (s.postedIds ++ s.queuedIds)) := by
      rw [List.append_assoc]
      exact List.perm_middle
    rw [hperm.nodup_iff, List.nodup_cons]
    exact ⟨hnew, h.nodup_ids⟩
  case ids_lt =>
    rw [hids, hqueue, hrun]
    intro id hid
    rw [List.append_assoc, List.mem_append, List.mem_append, List.mem_singleton] at hid
    rcases hid with hid | rfl | hid
    · exact h.ids_lt id (List.mem_append_left _ hid)
    · exact hlt
    · exact h.ids_lt id (List.mem_append_right _ hid)
  case queue_entry => rw [hrun]; exact h.queue_entry
  case nodup_settled => rw [hrun]; exact h.nodup_settled
  case settled_lt => rw [hrun]; exact h.settled_lt
  case settled_queue => rw [hqueue, hrun]; exact h.settled_queue
  case settled_flight =>
    intro w hmem id hid
    rw [hworkers] at hmem
    have hsame : (Workers.dispatch s worker req req.id).settledPromises = s.settledPromises := by
      rw [hrun]
      rfl
    rw [hsame]
    by_cases heq : worker = w
    · subst heq
      rw [hself, List.mem_singleton] at hid
      rw [hid]
      exact hsettled
    · rw [hother w heq] at hid
      exact h.settled_flight w hmem id hid

/-- A request that has just got its id is nowhere yet. -/
theorem PoolInv.fresh {free : Option Worker} (h : PoolInv n free s) :
    s.nextId ∉ s.postedIds ++ s.queuedIds ∧ s.nextId ∉ s.settledPromises :=
  ⟨fun hmem => Nat.lt_irrefl _ (h.ids_lt _ hmem), fun hmem => Nat.lt_irrefl _ (h.settled_lt _ hmem)⟩

theorem mem_postedIds {w : Worker} {id : Nat} (h : id ∈ s.unanswered w) : id ∈ s.postedIds := by
  obtain ⟨⟨req, hmem, rfl⟩, -⟩ := mem_unanswered.mp h
  exact List.mem_map.mpr ⟨(w, req), hmem, rfl⟩

/-- A request is in flight at one worker only. -/
theorem PoolInv.same_worker {free : Option Worker} (h : PoolInv n free s) {w w' : Worker}
    {id : Nat} (hid : id ∈ s.unanswered w) (hid' : id ∈ s.unanswered w') : w = w' := by
  obtain ⟨⟨req, hmem, rfl⟩, -⟩ := mem_unanswered.mp hid
  obtain ⟨⟨req', hmem', heq⟩, -⟩ := mem_unanswered.mp hid'
  have hnodup := (List.nodup_append.mp h.nodup_ids).1
  exact congrArg Prod.fst (List.inj_on_of_nodup_map hnodup hmem hmem' heq.symm)

/-- A promise of no request in the pool is settled: the saturated branch of `eval`. -/
theorem PoolInv.settle {free : Option Worker} (h : PoolInv n free s) {entry : PendingEntry}
    (hnew : entry ∉ s.postedIds ++ s.queuedIds) (hlt : entry < s.nextId)
    (hsettled : entry ∉ s.settledPromises) (settlement : Settlement) :
    PoolInv n free (settle s entry settlement) := by
  have hpromises : (Workers.settle s entry settlement).settledPromises =
      s.settledPromises ++ [entry] := by
    simp [Workers.settle, PoolState.settledPromises]
  exact { h with
    nodup_settled := by
      rw [hpromises]
      exact nodup_concat h.nodup_settled hsettled
    settled_lt := by
      intro p hp
      rw [hpromises, List.mem_append, List.mem_singleton] at hp
      rcases hp with hp | rfl
      · exact h.settled_lt p hp
      · exact hlt
    settled_queue := by
      intro id hid
      rw [hpromises, List.mem_append, List.mem_singleton]
      rintro (hmem | rfl)
      · exact h.settled_queue id hid hmem
      · exact hnew (List.mem_append_right _ hid)
    settled_flight := by
      intro w hw id hid
      rw [hpromises, List.mem_append, List.mem_singleton]
      rintro (hmem | rfl)
      · exact h.settled_flight w hw id hid hmem
      · exact hnew (List.mem_append_left _ (mem_postedIds hid)) }

/-- `this.queue.push`. -/
theorem PoolInv.enqueue {free : Option Worker} (h : PoolInv n free s) {req : EvalWorkerRequest}
    (hnew : req.id ∉ s.postedIds ++ s.queuedIds) (hlt : req.id < s.nextId)
    (hsettled : req.id ∉ s.settledPromises) :
    PoolInv n free { s with queue := s.queue ++ [(req, req.id)] } := by
  have hqueue : PoolState.queuedIds { s with queue := s.queue ++ [(req, req.id)] } =
      s.queuedIds ++ [req.id] := by
    simp [PoolState.queuedIds]
  have hposted : PoolState.postedIds { s with queue := s.queue ++ [(req, req.id)] } =
      s.postedIds := rfl
  exact { h with
    nodup_ids := by
      rw [hposted, hqueue, ← List.append_assoc]
      exact nodup_concat h.nodup_ids hnew
    ids_lt := by
      intro id hid
      rw [hposted, hqueue, ← List.append_assoc, List.mem_append, List.mem_singleton] at hid
      rcases hid with hid | rfl
      · exact h.ids_lt id hid
      · exact hlt
    queue_entry := by
      intro q hq
      rcases List.mem_append.mp hq with hq | hq
      · exact h.queue_entry q hq
      · rw [List.mem_singleton.mp hq]
    settled_queue := by
      intro id hid
      rw [hqueue, List.mem_append, List.mem_singleton] at hid
      rcases hid with hid | rfl
      · exact h.settled_queue id hid
      · exact hsettled }

/-- `this.queue.shift()`: the rest is a queue, and the request taken off is in no other place. -/
theorem PoolInv.dequeue {free : Option Worker} (h : PoolInv n free s)
    {next : EvalWorkerRequest × PendingEntry} {queue : List (EvalWorkerRequest × PendingEntry)}
    (hqueue : s.queue = next :: queue) :
    PoolInv n free { s with queue } ∧ next.2 = next.1.id ∧
      next.1.id ∉ PoolState.postedIds { s with queue } ++ PoolState.queuedIds { s with queue } ∧
      next.1.id < s.nextId ∧ next.1.id ∉ s.settledPromises := by
  have hmem : next ∈ s.queue := by simp [hqueue]
  have hids : s.queuedIds = next.1.id :: PoolState.queuedIds { s with queue } := by
    rw [PoolState.queuedIds, hqueue]
    rfl
  have hmid : next.1.id ∈ s.postedIds ++ s.queuedIds := by simp [hids]
  have hsub : ∀ id ∈ PoolState.queuedIds { s with queue }, id ∈ s.queuedIds := by
    intro id hid
    rw [hids]
    exact List.mem_cons_of_mem _ hid
  have hnodup : (next.1.id :: (s.postedIds ++ PoolState.queuedIds { s with queue })).Nodup := by
    rw [← List.perm_middle.nodup_iff, ← hids]
    exact h.nodup_ids
  rw [List.nodup_cons] at hnodup
  refine ⟨?_, h.queue_entry next hmem, hnodup.1, h.ids_lt _ hmid, ?_⟩
  · exact { h with
      nodup_ids := hnodup.2
      ids_lt := by
        intro id hid
        refine h.ids_lt id ?_
        rcases List.mem_append.mp hid with hid | hid
        · exact List.mem_append_left _ hid
        · exact List.mem_append_right _ (hsub id hid)
      queue_entry := fun q hq => h.queue_entry q (by rw [hqueue]; exact List.mem_cons_of_mem _ hq)
      settled_queue := fun id hid => h.settled_queue id (hsub id hid) }
  · exact h.settled_queue _ (by simp [hids])

/-- A reply of a worker of the pool frees it and settles the promise of its request. -/
theorem PoolInv.answered (h : PoolInv n none s) {worker : Worker} (hw : worker ∈ s.workers)
    {id : Nat} (hid : id ∈ s.unanswered worker) (settlement : Settlement) :
    PoolInv n (some worker)
      { s with
        replied := s.replied ++ [(worker, id)]
        pending := s.pending.set worker []
        settled := s.settled ++ [(id, settlement)] } := by
  obtain ⟨hnot, hpending, hflight⟩ := h.busy hw hid
  generalize hs' : ({ s with
        replied := s.replied ++ [(worker, id)]
        pending := s.pending.set worker []
        settled := s.settled ++ [(id, settlement)] } : PoolState) = s'
  have hunanswered : ∀ w, s'.unanswered w =
      (s.unanswered w).filter fun i => ¬ (w = worker ∧ i = id) := by
    intro w
    exact unanswered_reply (by rw [← hs']) (by rw [← hs']) w
  have hother : ∀ w, w ≠ worker → s'.unanswered w = s.unanswered w := by
    intro w hne
    rw [hunanswered]
    exact List.filter_eq_self.mpr fun i _ => by simp [hne]
  -- `id` was all that was in flight at the worker.
  have hself : s'.unanswered worker = [] := by
    rw [hunanswered, hflight]
    simp
  have hget : ∀ w, w ≠ worker → s'.pending.get w = s.pending.get w := by
    intro w hne
    rw [← hs']
    exact (JsMap.get_set _ _ _ _).trans (if_neg (Ne.symm hne))
  have hpromises : s'.settledPromises = s.settledPromises ++ [id] := by
    rw [← hs']
    simp [PoolState.settledPromises]
  have hposted : s'.postedIds = s.postedIds := by rw [← hs']; rfl
  have hqueued : s'.queuedIds = s.queuedIds := by rw [← hs']; rfl
  have hworkers : s'.workers = s.workers := by rw [← hs']
  have hidle : s'.idle = s.idle := by rw [← hs']
  have hpost : id ∈ s.postedIds := mem_postedIds hid
  constructor
  case length_workers => rw [hworkers]; exact h.length_workers
  case nodup_workers => rw [hworkers]; exact h.nodup_workers
  case lt_spawned => rw [← hs']; exact h.lt_spawned
  case nodup_idle => rw [hidle]; exact h.nodup_idle
  case idle_subset => rw [hworkers, hidle]; exact h.idle_subset
  case pending_none =>
    intro w hmem
    rw [hworkers] at hmem
    rw [hget w fun heq => hmem (heq ▸ hw)]
    exact h.pending_none w hmem
  case flight_idle =>
    intro w hmem
    rw [hidle] at hmem
    have hne : w ≠ worker := fun heq => hnot (heq ▸ hmem)
    rw [hget w hne, hother w hne]
    exact h.flight_idle w hmem
  case flight_free =>
    intro w hfree
    obtain rfl : worker = w := Option.some.inj hfree
    rw [hworkers, hidle]
    refine ⟨hw, hnot, ?_, hself⟩
    rw [← hs']
    exact (JsMap.get_set _ _ _ _).trans (if_pos rfl)
  case flight_busy =>
    intro w hmem hnidle hne
    rw [hworkers] at hmem
    rw [hidle] at hnidle
    have hneq : w ≠ worker := fun heq => hne (by rw [heq])
    rw [hget w hneq, hother w hneq]
    exact h.flight_busy w hmem hnidle (by simp)
  case flight_le =>
    intro w
    rw [hunanswered]
    exact Nat.le_trans (List.length_filter_le _ _) (h.flight_le w)
  case posted_spawned => rw [← hs']; exact h.posted_spawned
  case replied_posted =>
    intro r hr
    rw [hposted]
    rw [← hs'] at hr
    rcases List.mem_append.mp hr with hr | hr
    · exact h.replied_posted r hr
    · rw [List.mem_singleton.mp hr]
      exact hpost
  case nodup_ids => rw [hposted, hqueued]; exact h.nodup_ids
  case ids_lt => rw [hposted, hqueued, ← hs']; exact h.ids_lt
  case queue_entry => rw [← hs']; exact h.queue_entry
  case nodup_settled =>
    rw [hpromises]
    exact nodup_concat h.nodup_settled (h.settled_flight worker hw id hid)
  case settled_lt =>
    intro p hp
    rw [hpromises, List.mem_append, List.mem_singleton] at hp
    rw [← hs']
    rcases hp with hp | rfl
    · exact h.settled_lt p hp
    · exact h.ids_lt p (List.mem_append_left _ hpost)
  case settled_queue =>
    intro i hi
    rw [hqueued] at hi
    rw [hpromises, List.mem_append, List.mem_singleton]
    rintro (hmem | rfl)
    · exact h.settled_queue i hi hmem
    · have hdisjoint := (List.nodup_append.mp h.nodup_ids).2.2
      exact hdisjoint i hpost i hi rfl
  case settled_flight =>
    intro w hmem i hi
    rw [hworkers] at hmem
    by_cases heq : w = worker
    · rw [heq, hself] at hi
      cases hi
    · rw [hother w heq] at hi
      rw [hpromises, List.mem_append, List.mem_singleton]
      rintro (hset | rfl)
      · exact h.settled_flight w hmem i hi hset
      · exact heq (h.same_worker hi hid)

/-- A reply of a worker that has failed is not looked at. -/
theorem PoolInv.lateReply (h : PoolInv n none s) {worker : Worker} (hw : worker ∉ s.workers)
    {id : Nat} (hid : id ∈ s.unanswered worker) :
    PoolInv n none { s with replied := s.replied ++ [(worker, id)] } := by
  have hpost := mem_postedIds hid
  have hunanswered : ∀ w,
      PoolState.unanswered { s with replied := s.replied ++ [(worker, id)] } w =
        (s.unanswered w).filter fun i => ¬ (w = worker ∧ i = id) :=
    unanswered_reply rfl rfl
  have hother : ∀ w ∈ s.workers,
      PoolState.unanswered { s with replied := s.replied ++ [(worker, id)] } w =
        s.unanswered w := by
    intro w hmem
    have hne : w ≠ worker := fun heq => hw (heq ▸ hmem)
    rw [hunanswered]
    exact List.filter_eq_self.mpr fun i _ => by simp [hne]
  exact { h with
    flight_idle := by
      intro w hmem
      rw [hother w (h.idle_subset w hmem)]
      exact h.flight_idle w hmem
    flight_free := by simp
    flight_busy := by
      intro w hmem
      rw [hother w hmem]
      exact h.flight_busy w hmem
    flight_le := by
      intro w
      rw [hunanswered]
      exact Nat.le_trans (List.length_filter_le _ _) (h.flight_le w)
    replied_posted := by
      intro r hr
      rcases List.mem_append.mp hr with hr | hr
      · exact h.replied_posted r hr
      · rw [List.mem_singleton.mp hr]
        exact hpost
    settled_flight := by
      intro w hmem i hi
      rw [hother w hmem] at hi
      exact h.settled_flight w hmem i hi }

theorem foldl_settle (entries : List PendingEntry) (settlement : Settlement) (s : PoolState) :
    entries.foldl (fun s entry => settle s entry settlement) s =
      { s with settled := s.settled ++ entries.map fun entry => (entry, settlement) } := by
  induction entries generalizing s with
  | nil => simp
  | cons entry entries ih =>
      rw [List.foldl_cons, ih, settle]
      simp

/-- The promises a failing worker rejects are those of the requests in flight at it. -/
theorem PoolInv.rejectPending (h : PoolInv n none s) {worker : Worker} (hw : worker ∈ s.workers)
    (err : String) :
    rejectPending s worker err =
      { s with
        settled := s.settled ++ (s.unanswered worker).map fun id => (id, .rejected err)
        pending := s.pending.set worker [] } := by
  by_cases hidle : worker ∈ s.idle
  · obtain ⟨hpending, hflight⟩ := h.flight_idle worker hidle
    rw [Workers.rejectPending, hpending, hflight]
    dsimp only
    rw [foldl_settle]
    rfl
  · obtain ⟨id, hpending, hflight⟩ := h.flight_busy worker hw hidle (by simp)
    rw [Workers.rejectPending, hpending, hflight]
    dsimp only
    rw [foldl_settle]
    rfl

theorem nodup_of_length_le_one {α : Type} {l : List α} (h : l.length ≤ 1) : l.Nodup := by
  cases l with
  | nil => exact List.nodup_nil
  | cons a l =>
      have hl : l = [] := List.eq_nil_of_length_eq_zero (by rw [List.length_cons] at h; omega)
      rw [hl]
      exact List.nodup_singleton a

/-- A worker leaves the pool, with the promises of what was in flight at it settled. -/
theorem PoolInv.remove (h : PoolInv (n + 1) none s) {worker : Worker} (hw : worker ∈ s.workers)
    (settlement : Settlement) :
    PoolInv n none
      { s with
        settled := s.settled ++ (s.unanswered worker).map fun id => (id, settlement)
        workers := s.workers.erase worker
        pending := (s.pending.set worker []).delete worker
        idle := s.idle.erase worker } := by
  generalize hs' : ({ s with
        settled := s.settled ++ (s.unanswered worker).map fun id => (id, settlement)
        workers := s.workers.erase worker
        pending := (s.pending.set worker []).delete worker
        idle := s.idle.erase worker } : PoolState) = s'
  have hunanswered : ∀ w, s'.unanswered w = s.unanswered w := by
    intro w
    rw [← hs']
    rfl
  have hget : ∀ w, w ≠ worker → s'.pending.get w = s.pending.get w := by
    intro w hne
    have hdelete := JsMap.get_filter_key (s.pending.set worker [])
      (fun key => decide (key ≠ worker)) w
    rw [← hs']
    show ((s.pending.set worker []).delete worker).get w = _
    rw [JsMap.delete, hdelete, JsMap.get_set, if_neg (Ne.symm hne)]
    simp [hne]
  have hgetSelf : s'.pending.get worker = none := by
    have hdelete := JsMap.get_filter_key (s.pending.set worker [])
      (fun key => decide (key ≠ worker)) worker
    rw [← hs']
    show ((s.pending.set worker []).delete worker).get worker = _
    rw [JsMap.delete, hdelete]
    simp
  have hmem_workers : ∀ w, w ∈ s'.workers ↔ w ≠ worker ∧ w ∈ s.workers := by
    intro w
    rw [← hs']
    exact h.nodup_workers.mem_erase_iff
  have hmem_idle : ∀ w, w ∈ s'.idle ↔ w ≠ worker ∧ w ∈ s.idle := by
    intro w
    rw [← hs']
    exact h.nodup_idle.mem_erase_iff
  have hpromises : s'.settledPromises = s.settledPromises ++ s.unanswered worker := by
    rw [← hs']
    simp [PoolState.settledPromises, Function.comp_def]
  have hflightNodup : (s.unanswered worker).Nodup := nodup_of_length_le_one (h.flight_le worker)
  constructor
  case length_workers =>
    rw [← hs']
    show (s.workers.erase worker).length = n
    rw [List.length_erase_of_mem hw, h.length_workers, Nat.add_sub_cancel]
  case nodup_workers => rw [← hs']; exact h.nodup_workers.erase _
  case lt_spawned =>
    intro w hmem
    rw [← hs']
    exact h.lt_spawned w ((hmem_workers w).mp hmem).2
  case nodup_idle => rw [← hs']; exact h.nodup_idle.erase _
  case idle_subset =>
    intro w hmem
    obtain ⟨hne, hold⟩ := (hmem_idle w).mp hmem
    exact (hmem_workers w).mpr ⟨hne, h.idle_subset w hold⟩
  case pending_none =>
    intro w hmem
    rw [hmem_workers, not_and] at hmem
    by_cases heq : w = worker
    · rw [heq]
      exact hgetSelf
    · rw [hget w heq]
      exact h.pending_none w (hmem heq)
  case flight_idle =>
    intro w hmem
    obtain ⟨hne, hold⟩ := (hmem_idle w).mp hmem
    rw [hget w hne, hunanswered]
    exact h.flight_idle w hold
  case flight_free => simp
  case flight_busy =>
    intro w hmem hnidle _
    obtain ⟨hne, hold⟩ := (hmem_workers w).mp hmem
    rw [hmem_idle, not_and] at hnidle
    rw [hget w hne, hunanswered]
    exact h.flight_busy w hold (hnidle hne) (by simp)
  case flight_le => intro w; rw [hunanswered]; exact h.flight_le w
  case posted_spawned => rw [← hs']; exact h.posted_spawned
  case replied_posted => rw [← hs']; exact h.replied_posted
  case nodup_ids => rw [← hs']; exact h.nodup_ids
  case ids_lt => rw [← hs']; exact h.ids_lt
  case queue_entry => rw [← hs']; exact h.queue_entry
  case nodup_settled =>
    rw [hpromises, List.nodup_append]
    refine ⟨h.nodup_settled, hflightNodup, ?_⟩
    rintro a ha b hb rfl
    exact h.settled_flight worker hw a hb ha
  case settled_lt =>
    intro p hp
    rw [hpromises, List.mem_append] at hp
    rw [← hs']
    rcases hp with hp | hp
    · exact h.settled_lt p hp
    · exact h.ids_lt p (List.mem_append_left _ (mem_postedIds hp))
  case settled_queue =>
    intro id hid
    have hqueued : s'.queuedIds = s.queuedIds := by rw [← hs']; rfl
    rw [hqueued] at hid
    rw [hpromises, List.mem_append]
    rintro (hmem | hmem)
    · exact h.settled_queue id hid hmem
    · exact (List.nodup_append.mp h.nodup_ids).2.2 id (mem_postedIds hmem) id hid rfl
  case settled_flight =>
    intro w hmem id hid
    obtain ⟨hne, hold⟩ := (hmem_workers w).mp hmem
    rw [hunanswered] at hid
    rw [hpromises, List.mem_append]
    rintro (hset | hset)
    · exact h.settled_flight w hold id hid hset
    · exact hne (h.same_worker hid hset)

/-- A new worker is idle, and nothing was ever posted to it. -/
theorem PoolInv.spawn (h : PoolInv n none s) : PoolInv (n + 1) none (spawnWorker s) := by
  have hnew : s.spawned ∉ s.workers := fun hmem => Nat.lt_irrefl _ (h.lt_spawned _ hmem)
  have hflight : s.unanswered s.spawned = [] := by
    rw [List.eq_nil_iff_forall_not_mem]
    intro id hid
    obtain ⟨⟨req, hmem, -⟩, -⟩ := mem_unanswered.mp hid
    exact Nat.lt_irrefl _ (h.posted_spawned _ hmem)
  have hget : ∀ w, (spawnWorker s).pending.get w =
      if s.spawned = w then some [] else s.pending.get w := fun w => JsMap.get_set _ _ w _
  exact { h with
    length_workers := by
      show (s.workers ++ [s.spawned]).length = n + 1
      rw [List.length_append, h.length_workers, List.length_singleton]
    nodup_workers := by
      show (s.workers ++ [s.spawned]).Nodup
      exact nodup_concat h.nodup_workers hnew
    lt_spawned := by
      intro w hmem
      rcases List.mem_append.mp hmem with hmem | hmem
      · exact Nat.lt_succ_of_lt (h.lt_spawned w hmem)
      · rw [List.mem_singleton.mp hmem]
        exact Nat.lt_succ_self _
    nodup_idle := by
      show (s.idle ++ [s.spawned]).Nodup
      exact nodup_concat h.nodup_idle fun hmem => hnew (h.idle_subset _ hmem)
    idle_subset := by
      intro w hmem
      rcases List.mem_append.mp hmem with hmem | hmem
      · exact List.mem_append_left _ (h.idle_subset w hmem)
      · exact List.mem_append_right _ hmem
    pending_none := by
      intro w hmem
      have hmem' : w ∉ s.workers ++ [s.spawned] := hmem
      rw [List.mem_append, List.mem_singleton, not_or] at hmem'
      rw [hget, if_neg (Ne.symm hmem'.2)]
      exact h.pending_none w hmem'.1
    flight_idle := by
      intro w hmem
      rw [hget]
      rcases List.mem_append.mp hmem with hmem | hmem
      · have hne : s.spawned ≠ w := fun heq => hnew (heq ▸ h.idle_subset w hmem)
        rw [if_neg hne]
        exact h.flight_idle w hmem
      · rw [List.mem_singleton.mp hmem, if_pos rfl]
        exact ⟨rfl, hflight⟩
    flight_free := by simp
    flight_busy := by
      intro w hmem hnidle _
      have hnidle' : w ∉ s.idle ++ [s.spawned] := hnidle
      rw [List.mem_append, List.mem_singleton, not_or] at hnidle'
      rcases List.mem_append.mp hmem with hmem | hmem
      · rw [hget, if_neg (Ne.symm hnidle'.2)]
        exact h.flight_busy w hmem hnidle'.1 (by simp)
      · exact absurd (List.mem_singleton.mp hmem) hnidle'.2
    posted_spawned := fun p hp => Nat.lt_succ_of_lt (h.posted_spawned p hp)
    settled_flight := by
      intro w hmem id hid
      rcases List.mem_append.mp hmem with hmem | hmem
      · exact h.settled_flight w hmem id hid
      · rw [List.mem_singleton.mp hmem] at hid
        have hid' : id ∈ s.unanswered s.spawned := hid
        rw [hflight] at hid'
        cases hid' }

/-- The failure of a worker of the pool. -/
theorem PoolInv.onWorkerError (h : PoolInv n none s) {worker : Worker} (hw : worker ∈ s.workers)
    (err : String) : PoolInv n none (onWorkerError s worker err) := by
  have hpos := List.length_pos_of_mem hw
  rw [h.length_workers] at hpos
  obtain ⟨m, rfl⟩ : ∃ m, n = m + 1 := ⟨n - 1, by omega⟩
  rw [Workers.onWorkerError, h.rejectPending hw]
  dsimp only
  rw [if_pos hw]
  exact (h.remove hw _).spawn

theorem onWorkerError_of_not_mem (h : PoolInv n none s) {worker : Worker}
    (hw : worker ∉ s.workers) (err : String) : onWorkerError s worker err = s := by
  rw [onWorkerError, rejectPending, h.pending_none worker hw]
  dsimp only
  rw [if_neg hw]

/-! ### The handlers -/

theorem PoolInv.drainOrIdle {worker : Worker} (h : PoolInv n (some worker) s) :
    PoolInv n none (drainOrIdle s worker) := by
  unfold Workers.drainOrIdle
  split
  next next queue hqueue =>
    obtain ⟨hrest, hentry, hnew, hlt, hsettled⟩ := h.dequeue hqueue
    rw [hentry]
    exact hrest.dispatch hnew hlt hsettled
  next => exact h.putIdle

/-- What a reply of a worker of the pool does. -/
theorem PoolInv.onMessage_eq (h : PoolInv n none s) {worker : Worker} (hw : worker ∈ s.workers)
    {msg : EvalWorkerMessage} (hid : msg.id ∈ s.unanswered worker) :
    ∃ settlement, onMessage { s with replied := s.replied ++ [(worker, msg.id)] } worker msg =
      Workers.drainOrIdle
        { s with
          replied := s.replied ++ [(worker, msg.id)]
          pending := s.pending.set worker []
          settled := s.settled ++ [(msg.id, settlement)] } worker := by
  obtain ⟨-, hpending, -⟩ := h.busy hw hid
  have hget : JsMap.get [(msg.id, msg.id)] msg.id = some msg.id := by simp [JsMap.get]
  have hdelete : JsMap.delete [(msg.id, msg.id)] msg.id = [] := by simp [JsMap.delete]
  rw [onMessage]
  simp only [hpending, hget, hdelete]
  exact ⟨_, rfl⟩

/-- `eval` with an idle worker, and without one. -/
theorem eval_cases (s : PoolState) (req : EvalRequest) :
    (∃ idle worker, s.idle = idle ++ [worker] ∧
      eval s req = dispatch { s with nextId := s.nextId + 1, idle } worker
        { id := s.nextId, req } s.nextId) ∨
    s.idle = [] ∧
      (eval s req = settle { s with nextId := s.nextId + 1 } s.nextId
          (.rejected "WorkerPool: queue is saturated") ∨
        eval s req = { s with
          nextId := s.nextId + 1
          queue := s.queue ++ [({ id := s.nextId, req }, s.nextId)] }) := by
  unfold eval
  rcases List.eq_nil_or_concat s.idle with hnil | ⟨idle, worker, hidle⟩
  · refine .inr ⟨hnil, ?_⟩
    simp only [hnil, List.getLast?_nil]
    split
    · exact .inl rfl
    · exact .inr rfl
  · refine .inl ⟨idle, worker, by rw [hidle, List.concat_eq_append], ?_⟩
    simp [hidle]

/-- **A step keeps the invariant.** -/
theorem PoolInv.step (h : PoolInv n none s) {e : Event} (he : Possible s e) :
    PoolInv n none (step s e) := by
  cases e with
  | eval req =>
      obtain ⟨hnew, hsettled⟩ := h.fresh
      have hlt : s.nextId < s.nextId + 1 := Nat.lt_succ_self _
      rcases eval_cases s req with ⟨idle, worker, hidle, hrun⟩ | ⟨-, hrun | hrun⟩
      · rw [Workers.step, hrun]
        exact (h.nextId.takeIdle hidle).dispatch hnew hlt hsettled
      · rw [Workers.step, hrun]
        exact h.nextId.settle hnew hlt hsettled _
      · rw [Workers.step, hrun]
        exact h.nextId.enqueue hnew hlt hsettled
  | reply worker msg =>
      rw [Workers.step]
      by_cases hw : worker ∈ s.workers
      · obtain ⟨settlement, hrun⟩ := h.onMessage_eq hw he
        rw [hrun]
        exact (h.answered hw he settlement).drainOrIdle
      · have hlate : onMessage { s with replied := s.replied ++ [(worker, msg.id)] } worker msg =
            { s with replied := s.replied ++ [(worker, msg.id)] } := by
          rw [onMessage]
          simp only [h.pending_none worker hw]
        rw [hlate]
        exact h.lateReply hw he
  | workerError worker err =>
      rw [Workers.step]
      by_cases hw : worker ∈ s.workers
      · exact h.onWorkerError hw err
      · rw [onWorkerError_of_not_mem h hw]
        exact h

theorem newPool_succ (size : Nat) (maxQueueSize : Option Nat) :
    newPool (size + 1) maxQueueSize = spawnWorker (newPool size maxQueueSize) := by
  rw [newPool, List.range_succ, List.foldl_append]
  rfl

theorem newPool_inv (size : Nat) (maxQueueSize : Option Nat) :
    PoolInv size none (newPool size maxQueueSize) := by
  induction size with
  | zero =>
      constructor <;> simp [newPool, PoolState.postedIds, PoolState.queuedIds,
        PoolState.settledPromises, PoolState.unanswered]
  | succ size ih =>
      rw [newPool_succ]
      exact ih.spawn

end CoreTex.Workers
