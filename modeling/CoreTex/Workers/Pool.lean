import CoreTex.Lib.JsMap
import CoreTex.Lib.Runs

/-!
# CoreTex.Workers.Pool

The worker pool around the evaluator (`workers/pool.ts`): idle list, queue, a map of pending
requests for each worker, and the three handlers that move them.

A worker is the number of its spawn and a promise is the number of its `eval` call. Beside the
pool, `PoolState` logs what leaves it (messages posted, promises settled) and what came back
(replies), so that what is in flight is said from outside. `close` is left out.
-/

namespace CoreTex.Workers

open CoreTex.Lib

/-! ### Messages -/

/-- `Omit<EvalWorkerRequest, 'id'>`. -/
structure EvalRequest where
  stateBytes : List UInt8
  patchWireBytes : List UInt8
  shardId : List UInt8
  corpusRoot : String
  deriving DecidableEq, Repr

structure EvalWorkerRequest where
  id : Nat
  req : EvalRequest
  deriving DecidableEq, Repr

/-- `EvalWorkerMessage`: a report, or an error text. -/
structure EvalWorkerMessage where
  id : Nat
  answer : Except String String

/-- How a promise was settled. -/
inductive Settlement
  | resolved (reportJson : String)
  | rejected (error : String)
  deriving DecidableEq, Repr

abbrev Worker := Nat

/-- The two functions of a promise, named by the promise. -/
abbrev PendingEntry := Nat

/-! ### The pool -/

structure WorkerPool where
  workers : List Worker
  idle : List Worker
  queue : List (EvalWorkerRequest × PendingEntry)
  pending : JsMap Worker (JsMap Nat PendingEntry)
  /-- No value is `Infinity`. -/
  maxQueueSize : Option Nat
  nextId : Nat

/-- The pool and what has passed between it and the rest of the process. -/
structure PoolState extends WorkerPool where
  spawned : Nat
  posted : List (Worker × EvalWorkerRequest)
  settled : List (PendingEntry × Settlement)
  replied : List (Worker × Nat)

/-- `_spawnWorker`. -/
def spawnWorker (s : PoolState) : PoolState :=
  { s with
    spawned := s.spawned + 1
    pending := s.pending.set s.spawned []
    workers := s.workers ++ [s.spawned]
    idle := s.idle ++ [s.spawned] }

/-- The constructor. -/
def newPool (size : Nat) (maxQueueSize : Option Nat) : PoolState :=
  (List.range size).foldl (fun s _ => spawnWorker s)
    { workers := [], idle := [], queue := [], pending := [], maxQueueSize, nextId := 0
      spawned := 0, posted := [], settled := [], replied := [] }

def settle (s : PoolState) (entry : PendingEntry) (settlement : Settlement) : PoolState :=
  { s with settled := s.settled ++ [(entry, settlement)] }

/-- `_dispatch`. -/
def dispatch (s : PoolState) (worker : Worker) (req : EvalWorkerRequest) (entry : PendingEntry) :
    PoolState :=
  match s.pending.get worker with
  | none => s
  | some pendingMap =>
      { s with
        pending := s.pending.set worker (pendingMap.set req.id entry)
        posted := s.posted ++ [(worker, req)] }

/-- `this.queue.length >= this.maxQueueSize`. -/
def WorkerPool.saturated (pool : WorkerPool) : Bool :=
  match pool.maxQueueSize with
  | none => false
  | some bound => decide (bound ≤ pool.queue.length)

/-- `eval`. -/
def eval (s : PoolState) (req : EvalRequest) : PoolState :=
  let fullReq : EvalWorkerRequest := { id := s.nextId, req }
  let entry : PendingEntry := s.nextId
  let s := { s with nextId := s.nextId + 1 }
  -- `this.idle.pop()`
  match s.idle.getLast? with
  | some worker => dispatch { s with idle := s.idle.dropLast } worker fullReq entry
  | none =>
      if s.saturated then settle s entry (.rejected "WorkerPool: queue is saturated")
      else { s with queue := s.queue ++ [(fullReq, entry)] }

/-- The end of `_onMessage`: drain the queue or return the worker to idle. -/
def drainOrIdle (s : PoolState) (worker : Worker) : PoolState :=
  match s.queue with
  | next :: queue => dispatch { s with queue } worker next.1 next.2
  | [] => { s with idle := s.idle ++ [worker] }

/-- `_onMessage`. -/
def onMessage (s : PoolState) (worker : Worker) (msg : EvalWorkerMessage) : PoolState :=
  match s.pending.get worker with
  | none => s
  | some pendingMap =>
      match pendingMap.get msg.id with
      | none => s
      | some entry =>
          let s := { s with pending := s.pending.set worker (pendingMap.delete msg.id) }
          let s := settle s entry
            (match msg.answer with
              | .ok reportJson => .resolved reportJson
              | .error error => .rejected error)
          drainOrIdle s worker

/-- `for (const entry of pendingMap.values()) entry.reject(err)`, and `pendingMap.clear()`. -/
def rejectPending (s : PoolState) (worker : Worker) (err : String) : PoolState :=
  match s.pending.get worker with
  | none => s
  | some pendingMap =>
      { pendingMap.values.foldl (fun s entry => settle s entry (.rejected err)) s with
        pending := s.pending.set worker [] }

/-- `_onWorkerError`. -/
def onWorkerError (s : PoolState) (worker : Worker) (err : String) : PoolState :=
  let s := rejectPending s worker err
  if worker ∈ s.workers then
    spawnWorker
      { s with
        workers := s.workers.erase worker
        pending := s.pending.delete worker
        idle := s.idle.erase worker }
  else s

/-! ### Runs -/

inductive Event
  | eval (req : EvalRequest)
  | reply (worker : Worker) (msg : EvalWorkerMessage)
  | workerError (worker : Worker) (err : String)

/-- The requests posted to a worker that it has not answered. -/
def PoolState.unanswered (s : PoolState) (worker : Worker) : List Nat :=
  (s.posted.filter fun p => p.1 = worker ∧ (worker, p.2.id) ∉ s.replied).map (·.2.id)

/-- One event of the process: a call, or a message or error of a worker. -/
def step (s : PoolState) : Event → PoolState
  | .eval req => eval s req
  | .reply worker msg => onMessage { s with replied := s.replied ++ [(worker, msg.id)] } worker msg
  | .workerError worker err => onWorkerError s worker err

/-- A reply is to a request sent to that worker and still unanswered; an error is of a worker that
was spawned, which may have failed before. -/
def Possible (s : PoolState) : Event → Prop
  | .eval _ => True
  | .reply worker msg => msg.id ∈ s.unanswered worker
  | .workerError worker _ => worker < s.spawned

instance (s : PoolState) (e : Event) : Decidable (Possible s e) := by
  cases e <;> unfold Possible <;> infer_instance

end CoreTex.Workers
