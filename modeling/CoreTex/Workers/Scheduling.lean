import CoreTex.Workers.Invariant

/-!
# CoreTex.Workers.Scheduling

What the worker pool keeps over every run of calls, replies and worker errors.

A failed worker is replaced by an idle one without a look at the queue, so the order of requests
and the promise that none waits beside an idle worker hold exactly in the runs where no worker of
the pool fails while a request waits (`scheduling_iff`).
-/

namespace CoreTex.Workers

open CoreTex.Lib

variable {n : Nat} {s : PoolState}

/-! ### Order and waiting -/

/-- Requests leave in the order of their calls, and none waits beside an idle worker. -/
structure Ordered (s : PoolState) : Prop where
  ascending : (s.postedIds ++ s.queuedIds).Pairwise (· < ·)
  nobodyWaits : s.idle = [] ∨ s.queue = []

theorem newPool_ordered (size : Nat) (maxQueueSize : Option Nat) :
    Ordered (newPool size maxQueueSize) := by
  induction size with
  | zero => exact ⟨.nil, .inr rfl⟩
  | succ size ih =>
      have hqueue : (newPool size maxQueueSize).queue = [] := by
        clear ih
        induction size with
        | zero => rfl
        | succ size ih =>
            rw [newPool_succ]
            exact ih
      rw [newPool_succ]
      exact ⟨ih.ascending, .inr hqueue⟩

/-- No worker of the pool fails while a request waits. -/
def FailsDrained (s : PoolState) : Event → Prop
  | .workerError worker _ => worker ∈ s.workers → s.queue = []
  | _ => True

instance (s : PoolState) : (e : Event) → Decidable (FailsDrained s e)
  | .eval _ => isTrue trivial
  | .reply _ _ => isTrue trivial
  | .workerError worker _ =>
    decidable_of_iff ((s.workers.any fun w => w = worker) = true → s.queue.isEmpty = true)
      (by simp [FailsDrained])

/-- Posting a request with the next id, behind all others. -/
theorem ascending_concat {ids : List Nat} {next : Nat} (h : ids.Pairwise (· < ·))
    (hlt : ∀ id ∈ ids, id < next) : (ids ++ [next]).Pairwise (· < ·) := by
  rw [List.pairwise_append]
  refine ⟨h, List.pairwise_singleton _ _, ?_⟩
  intro a ha b hb
  rw [List.mem_singleton.mp hb]
  exact hlt a ha

theorem dispatch_fields (s : PoolState) {worker : Worker} {pendingMap : JsMap Nat PendingEntry}
    (h : s.pending.get worker = some pendingMap) (req : EvalWorkerRequest) (entry : PendingEntry) :
    (dispatch s worker req entry).postedIds = s.postedIds ++ [req.id] ∧
      (dispatch s worker req entry).queue = s.queue ∧
      (dispatch s worker req entry).idle = s.idle := by
  rw [dispatch, h]
  simp [PoolState.postedIds]

/-- **A step keeps the order** unless a worker of the pool fails while a request waits. -/
theorem Ordered.step (h : PoolInv n none s) (ho : Ordered s) {e : Event} (he : Possible s e)
    (hdrained : FailsDrained s e) : Ordered (Workers.step s e) := by
  cases e with
  | eval req =>
      have hids := ascending_concat ho.ascending h.ids_lt
      rw [Workers.step]
      rcases eval_cases s req with ⟨idle, worker, hidle, hrun⟩ | ⟨hidle, hrun | hrun⟩
      · -- an idle worker, so the queue is empty and the new request is posted last
        have hqueue : s.queue = [] := by
          rcases ho.nobodyWaits with hnil | hqueue
          · rw [hidle] at hnil
            simp at hnil
          · exact hqueue
        have hpending := (h.flight_idle worker (by simp [hidle])).1
        obtain ⟨hposted, hqueue', -⟩ := dispatch_fields
          { s with nextId := s.nextId + 1, idle } hpending { id := s.nextId, req } s.nextId
        rw [hrun]
        refine ⟨?_, .inr (hqueue'.trans hqueue)⟩
        rw [hposted, PoolState.queuedIds, hqueue']
        rw [PoolState.queuedIds, hqueue] at hids
        show ((s.postedIds ++ [s.nextId]) ++ s.queue.map _).Pairwise _
        rw [hqueue]
        simpa using hids
      · rw [hrun]
        exact ⟨ho.ascending, ho.nobodyWaits⟩
      · rw [hrun]
        refine ⟨?_, .inl hidle⟩
        show (s.postedIds ++ PoolState.queuedIds _).Pairwise _
        have hqueued : PoolState.queuedIds { s with
            nextId := s.nextId + 1
            queue := s.queue ++ [({ id := s.nextId, req }, s.nextId)] } =
            s.queuedIds ++ [s.nextId] := by
          simp [PoolState.queuedIds]
        rw [hqueued, ← List.append_assoc]
        exact hids
  | reply worker msg =>
      rw [Workers.step]
      by_cases hw : worker ∈ s.workers
      · obtain ⟨settlement, hrun⟩ := h.onMessage_eq hw he
        rw [hrun, drainOrIdle]
        split
        next next queue hqueue =>
          -- the head of the queue is posted, so the ids stand as they stood
          have hqueue' : s.queue = next :: queue := hqueue
          have hpending : ((s.pending.set worker []).get worker) = some [] :=
            (JsMap.get_set _ _ _ _).trans (if_pos rfl)
          obtain ⟨hposted, hrest, hidle⟩ := dispatch_fields
            { s with
              queue
              replied := s.replied ++ [(worker, msg.id)]
              pending := s.pending.set worker []
              settled := s.settled ++ [(msg.id, settlement)] } hpending next.1 next.2
          have hnobody : s.idle = [] := by
            rcases ho.nobodyWaits with hnil | hnil
            · exact hnil
            · rw [hqueue'] at hnil
              cases hnil
          refine ⟨?_, .inl (hidle.trans hnobody)⟩
          rw [hposted, PoolState.queuedIds, hrest]
          have hasc := ho.ascending
          rw [PoolState.queuedIds, hqueue'] at hasc
          show ((s.postedIds ++ [next.1.id]) ++ queue.map _).Pairwise _
          rw [List.append_assoc]
          exact hasc
        next hqueue => exact ⟨ho.ascending, .inr hqueue⟩
      · rw [onMessage]
        simp only [h.pending_none worker hw]
        exact ⟨ho.ascending, ho.nobodyWaits⟩
  | workerError worker err =>
      rw [Workers.step]
      by_cases hw : worker ∈ s.workers
      · have hqueue : s.queue = [] := hdrained hw
        rw [Workers.onWorkerError, h.rejectPending hw]
        dsimp only
        rw [if_pos hw]
        exact ⟨ho.ascending, .inr hqueue⟩
      · rw [onWorkerError_of_not_mem h hw]
        exact ho

/-! ### The pool over whole runs -/

/-- What holds of the requests, the promises and the workers. -/
structure Assigned (n : Nat) (s : PoolState) : Prop where
  /-- Each request is posted to at most one worker, at most once. -/
  postedOnce : (s.posted.map (·.2.id)).Nodup
  settledOnce : (s.settled.map Prod.fst).Nodup
  oneInFlight : ∀ w, (s.unanswered w).length ≤ 1
  workers : s.workers.Nodup ∧ s.workers.length = n
  idleOrBusy : ∀ w ∈ s.workers,
    w ∈ s.idle ∧ s.unanswered w = [] ∨ w ∉ s.idle ∧ ∃ id, s.unanswered w = [id]

/-- What holds of the order and of the queue. -/
structure Scheduled (s : PoolState) : Prop where
  /-- An id is the number of its `eval` call. -/
  inOrder : (s.posted.map (·.2.id)).Pairwise (· < ·)
  nobodyWaits : s.queue ≠ [] → s.idle = []
  drained : (∀ p ∈ s.posted, (p.1, p.2.id) ∈ s.replied ∨ p.1 ∉ s.workers) → s.queue = []

theorem PoolInv.assigned (h : PoolInv n none s) : Assigned n s where
  postedOnce := (List.nodup_append.mp h.nodup_ids).1
  settledOnce := h.nodup_settled
  oneInFlight := h.flight_le
  workers := ⟨h.nodup_workers, h.length_workers⟩
  idleOrBusy := by
    intro w hw
    by_cases hidle : w ∈ s.idle
    · exact .inl ⟨hidle, (h.flight_idle w hidle).2⟩
    · obtain ⟨id, -, hflight⟩ := h.flight_busy w hw hidle (by simp)
      exact .inr ⟨hidle, id, hflight⟩

/-- With no request in flight at a worker of the pool, every worker is idle. -/
theorem PoolInv.idle_of_answered (h : PoolInv n none s) (hn : 1 ≤ n)
    (hanswered : ∀ p ∈ s.posted, (p.1, p.2.id) ∈ s.replied ∨ p.1 ∉ s.workers) : s.idle ≠ [] := by
  have hpos : 0 < s.workers.length := by
    rw [h.length_workers]
    exact hn
  obtain ⟨w, hw⟩ := List.exists_mem_of_length_pos hpos
  intro hnil
  obtain ⟨id, -, hflight⟩ := h.flight_busy w hw (by simp [hnil]) (by simp)
  have hid : id ∈ s.unanswered w := by simp [hflight]
  obtain ⟨⟨req, hmem, rfl⟩, hreplied⟩ := mem_unanswered.mp hid
  rcases hanswered _ hmem with hin | hout
  · exact hreplied hin
  · exact hout hw

theorem PoolInv.scheduled (h : PoolInv n none s) (hn : 1 ≤ n) (ho : Ordered s) :
    Scheduled s where
  inOrder := (List.pairwise_append.mp ho.ascending).1
  nobodyWaits hqueue := ho.nobodyWaits.resolve_right hqueue
  drained hanswered := ho.nobodyWaits.resolve_left (h.idle_of_answered hn hanswered)

/-- After the failure of a worker of the pool there is an idle one. -/
theorem failsDrained_of_scheduled (h : PoolInv n none s) {e : Event}
    (hafter : Scheduled (step s e)) : FailsDrained s e := by
  cases e with
  | eval _ => trivial
  | reply _ _ => trivial
  | workerError worker err =>
      intro hw
      have hrun : step s (.workerError worker err) = spawnWorker
          { s with
            settled := s.settled ++ (s.unanswered worker).map fun id => (id, .rejected err)
            workers := s.workers.erase worker
            pending := (s.pending.set worker []).delete worker
            idle := s.idle.erase worker } := by
        rw [step, onWorkerError, h.rejectPending hw]
        dsimp only
        rw [if_pos hw]
      by_contra hqueue
      have hnil := hafter.nobodyWaits
      rw [hrun] at hnil
      have hnil' : s.idle.erase worker ++ [s.spawned] = [] := hnil hqueue
      simp at hnil'

/-- **Scheduling.** In every run each request is posted and each promise settled at most once, and
each of the `n` workers is idle or has one request in flight. Requests are posted in order and none
waits beside an idle worker throughout a run exactly when no worker of the pool fails in it while
a request waits. -/
theorem scheduling_iff (hn : 1 ≤ n) (maxQueueSize : Option Nat) (events : List Event)
    (h : EachStep step Possible (newPool n maxQueueSize) events) :
    Always step (Assigned n) (newPool n maxQueueSize) events ∧
      (Always step Scheduled (newPool n maxQueueSize) events ↔
        EachStep step FailsDrained (newPool n maxQueueSize) events) := by
  have hinv : Always step (PoolInv n none) (newPool n maxQueueSize) events :=
    Always.of_step (fun s e hs he => hs.step he) (newPool_inv n maxQueueSize) h
  refine ⟨hinv.mono fun s hs => hs.assigned, ?_⟩
  constructor
  · intro hscheduled
    exact EachStep.of_always (fun s e hs hs' => failsDrained_of_scheduled hs.1 hs'.2)
      (hinv.and hscheduled)
  · intro hdrained
    have hboth : Always step (fun s => PoolInv n none s ∧ Ordered s)
        (newPool n maxQueueSize) events :=
      Always.of_step (fun s e hs he => ⟨hs.1.step he.1, hs.2.step hs.1 he.1 he.2⟩)
        ⟨newPool_inv n maxQueueSize, newPool_ordered n maxQueueSize⟩ (h.and hdrained)
    exact hboth.mono fun s hs => hs.1.scheduled hn hs.2

def emptyRequest : EvalRequest where
  stateBytes := []
  patchWireBytes := []
  shardId := []
  corpusRoot := "0x"

/-- Three calls on two workers, a reply, and the failure of an idle worker. -/
theorem scheduling_sample :
    EachStep step Possible (newPool 2 (some 1))
        [.eval emptyRequest, .eval emptyRequest, .eval emptyRequest,
          .reply 1 ⟨0, .ok "report"⟩, .reply 0 ⟨1, .error "failed"⟩, .workerError 0 "exit"] ∧
      Always step Scheduled (newPool 2 (some 1))
        [.eval emptyRequest, .eval emptyRequest, .eval emptyRequest,
          .reply 1 ⟨0, .ok "report"⟩, .reply 0 ⟨1, .error "failed"⟩, .workerError 0 "exit"] := by
  have hpossible : EachStep step Possible (newPool 2 (some 1))
      [.eval emptyRequest, .eval emptyRequest, .eval emptyRequest,
        .reply 1 ⟨0, .ok "report"⟩, .reply 0 ⟨1, .error "failed"⟩, .workerError 0 "exit"] := by
    decide
  exact ⟨hpossible, (scheduling_iff (by decide) (some 1) _ hpossible).2.mpr (by decide)⟩

/-- One worker fails while a second request waits: the request waits on beside an idle worker, and
a third request is posted ahead of it. -/
theorem workerError_strands_request :
    let events : List Event := [.eval emptyRequest, .eval emptyRequest, .workerError 0 "exit",
      .eval emptyRequest]
    EachStep step Possible (newPool 1 none) events ∧
      ((events.take 3).foldl step (newPool 1 none)).idle = [1] ∧
      ((events.take 3).foldl step (newPool 1 none)).queuedIds = [1] ∧
      (events.foldl step (newPool 1 none)).postedIds = [0, 2] ∧
      ¬ Always step Scheduled (newPool 1 none) events := by
  refine ⟨by decide, by decide, by decide, by decide, ?_⟩
  intro hscheduled
  have hafter := hscheduled.2.2.2.1.nobodyWaits (by decide)
  exact absurd hafter (by decide)

end CoreTex.Workers
