/-
# Requests from the queue to the end of their lease

`ResidencyScheduler` knows where a request is from four structures: the queue
of its model, the future of its `enqueue`, the map of leases and the set of
admitted requests of a worker. They are changed by the handlers of the gateway
(`enqueue`, `touch`, `release`), by the scheduler's own task and by the calls
of `worker_event`, which take turns at every await.

`_reconcile` is one task: it ends the leases of idle streams, then the leases
whose requests are settled, stops the workers whose drain is overdue, drops
their leases, and routes what is queued. It holds `_state_lock` while it
routes. What a loop of a task still has to do with leases is a list of
`Duty`, each up to its next await. `Submissions` follows handlers and router
alone, when ids repeat and calls fail; here the calls that clean up succeed.

A call of the supervisor is over for its caller with its section under
`_lock`; what it starts goes on as a task of the supervisor. `history` records
what has happened, and no step reads it.

Key definitions: `WorkerLease`, `Pc`, `Duty`, `Scheduler`, `State`, `step`.
-/
import LlmRio.Lib.Selection
import LlmRio.Storage.Requests
import LlmRio.Workers.StateMachine
import LlmRio.Runtime.Submissions

namespace LlmRio
namespace Routing

open Selection
open Submissions (Reserved Submission)

/-- The settings of the supervisor, and the two timeouts. -/
structure Settings extends LlmRio.Settings where
  workerDrainWatchdogSeconds : Option ℚ := none
  workerStreamIdleTimeoutSeconds : Option ℚ := none

structure WorkerLease extends Gateway.WorkerLease where
  admittedAt : Datetime
  isStream : Bool := false
  lastActivityAt : Option Datetime := none
deriving DecidableEq, Repr

/-! ### The tasks -/

/-- The future that `enqueue` waits for. -/
inductive Assignment
  | pending
  | result (lease : WorkerLease)
  | exception
  | cancelled
deriving DecidableEq, Repr

/-- Where a handler is after `reserve_quota`. -/
inductive Pc
  | creating
  | enqueuing
  | waiting
  /-- The cancelled `enqueue` waits for the lock to remove its request. -/
  | cancelling
  /-- It has removed the request, and settles it. -/
  | withdrawing
  /-- `enqueue` has raised; `withdrawn`: it was cancelled again while it settled. -/
  | rejecting (withdrawn : Bool)
  | serving (lease : WorkerLease)
  /-- `_finish_lease` has settled the reservation. -/
  | settled (lease : WorkerLease)
  /-- `release` has taken the lease out of the map. -/
  | releasing (lease : WorkerLease)
  /-- It has ended with its lease, which it has neither settled nor released. -/
  | abandoned
  | done
deriving DecidableEq, Repr

structure Handler extends Reserved where
  assignment : Assignment := .pending
  pc : Pc := .creating
deriving DecidableEq, Repr

/-- What a task does next with a lease. -/
inductive Duty
  /-- `release_reservation`; `taken`: the task has taken the lease out of the map. -/
  | settle (lease : WorkerLease) (errorCode : String) (taken : Bool)
  /-- `self.release(lease)`, up to its call of the supervisor. -/
  | release (lease : WorkerLease)
  /-- `self.supervisor.release(..)` -/
  | free (lease : WorkerLease)
  /-- `worker_event`: the lease is taken out and settled. -/
  | fail (lease : WorkerLease)
  /-- The same for a lease of an overdue worker, if there is one. -/
  | drop (requestId : RequestId)
deriving DecidableEq, Repr

/-- Where `_route_ready_work` is with a request that it has taken from a queue. -/
inductive Phase
  | admitting (w : WorkerId)
  | marking (w : WorkerId)
  | granting (w : WorkerId)
  /-- The request cannot be marked: the worker releases it again. -/
  | retracting (w : WorkerId)
  | refusing
deriving DecidableEq, Repr

/-- The loops of the scheduler that end leases. -/
inductive Loop
  | expireInactiveStreams
  | releaseSettledLeases
  | dropOverdue
  /-- `_route_ready_work` has leased a request whose assignment is done; `models` are still to serve. -/
  | orphaned (models : List ModelId)
deriving DecidableEq, Repr

/-- Where `_reconcile` is. -/
inductive Scheduler
  | idle
  | ending (loop : Loop) (todo : List Duty)
  /-- `admitted_request_ids` has been read. -/
  | read (admitted : List RequestId)
  /-- The drains are checked as of `now`; `overdue` are the requests of the workers that are stopped. -/
  | watching (now : Datetime) (workers : List WorkerId) (overdue : List RequestId)
  /-- Task `k` of the supervisor stops the worker `w` with the requests `ids`. -/
  | stopping (k : ℕ) (w : WorkerId) (ids : List RequestId) (now : Datetime) (workers : List WorkerId)
      (overdue : List RequestId)
  | routing (models : List ModelId)
  | busy (models : List ModelId) (request : QueuedRequest) (phase : Phase)
deriving DecidableEq, Repr

/-- `_state_lock` is held across an await. -/
def Scheduler.locked : Scheduler → Bool
  | .routing _ | .busy .. | .ending (.orphaned _) _ => true
  | _ => false

/-- The request that the router has taken from a queue. -/
def Scheduler.request? : Scheduler → Option QueuedRequest
  | .busy _ r _ => some r
  | _ => none

def Scheduler.duties : Scheduler → List Duty
  | .ending _ todo => todo
  | _ => []

/-- The leases that the task has taken out of the map for this duty. -/
def Duty.held : Duty → List WorkerLease
  | .settle lease _ true | .free lease => [lease]
  | _ => []

/-- What has happened. -/
structure History where
  /-- The requests that a queue has taken. -/
  accepted : List RequestId := []
  /-- The handlers whose assignment has been resolved. -/
  resolved : List ℕ := []
  admitted : List (WorkerId × RequestId) := []
  /-- The calls of `supervisor.release`. -/
  released : List (WorkerId × RequestId) := []
  /-- The requests of which nothing is left to clean up. -/
  finished : List RequestId := []

structure State where
  db : Database
  queues : ModelQueues
  requestLeases : List WorkerLease := []
  supervisor : Supervisor.State := {}
  handlers : List Handler := []
  scheduler : Scheduler := .idle
  events : List (List Duty) := []
  history : History := {}

/-- The lease of a request that is admitted to the worker. -/
def leaseOf (r : QueuedRequest) (w : WorkerId) (now : Datetime) : WorkerLease where
  workerId := w
  requestId := r.id
  reservationId := r.reservationId
  estimatedTokens := r.estimatedTokens
  admittedAt := now
  isStream := r.isStream
  lastActivityAt := if r.isStream then some now else none

variable (cfg : Settings)

namespace State

variable (s : State)

def goto (k : ℕ) (h : Handler) (pc : Pc) : State := { s with handlers := s.handlers.set k { h with pc := pc } }

/-- `self._request_leases.get(request_id)` -/
def lease? (id : RequestId) : Option WorkerLease := Table.lookup (·.requestId) id s.requestLeases

/-- `self._request_leases[lease.request_id] = lease` -/
def put (lease : WorkerLease) : State :=
  { s with requestLeases :=
      if (s.lease? lease.requestId).isSome then
        Table.modify (·.requestId) lease.requestId (fun _ => lease) s.requestLeases
      else s.requestLeases ++ [lease] }

/-- `self._request_leases.pop(request_id, None)` -/
def pop (id : RequestId) : State := { s with requestLeases := s.requestLeases.filter (·.requestId ≠ id) }

def call (op : Database.Op) : State := { s with db := s.db.run op }

/-- The handler whose assignment is not done. -/
def pending? (k : ℕ) : Option Handler := (s.handlers[k]?).filter (·.assignment = .pending)

/-- The assignment of the handler `k` is resolved. -/
def assign (k : ℕ) (h : Handler) (a : Assignment) : State :=
  { s with
    handlers := s.handlers.set k { h with assignment := a }
    history := { s.history with resolved := s.history.resolved ++ [k] } }

def finish (id : RequestId) : State :=
  { s with history := { s.history with finished := s.history.finished ++ [id] } }

/-- The supervisor has released the request. -/
def released (sup : Supervisor.State) (w : WorkerId) (id : RequestId) : State :=
  { s with
    supervisor := sup
    history := { s.history with released := s.history.released ++ [(w, id)] } }

/-- The section of `supervisor.release`. -/
def release (w : WorkerId) (id : RequestId) (estimatedTokens : ℤ) (now : Datetime) : Option State :=
  (Supervisor.step cfg.toSettings s.supervisor (.release w id estimatedTokens now)).map (s.released · w id)

@[simp] theorem queues_goto (k : ℕ) (h : Handler) (pc : Pc) : (s.goto k h pc).queues = s.queues := rfl

@[simp] theorem requestLeases_goto (k : ℕ) (h : Handler) (pc : Pc) :
    (s.goto k h pc).requestLeases = s.requestLeases := rfl

@[simp] theorem queues_call (op : Database.Op) : (s.call op).queues = s.queues := rfl

@[simp] theorem requestLeases_call (op : Database.Op) : (s.call op).requestLeases = s.requestLeases := rfl

@[simp] theorem queues_finish (id : RequestId) : (s.finish id).queues = s.queues := rfl

@[simp] theorem requestLeases_finish (id : RequestId) : (s.finish id).requestLeases = s.requestLeases := rfl

@[simp] theorem queues_assign (k : ℕ) (h : Handler) (a : Assignment) : (s.assign k h a).queues = s.queues := rfl

@[simp] theorem requestLeases_assign (k : ℕ) (h : Handler) (a : Assignment) :
    (s.assign k h a).requestLeases = s.requestLeases := rfl

@[simp] theorem queues_released (sup : Supervisor.State) (w : WorkerId) (id : RequestId) :
    (s.released sup w id).queues = s.queues := rfl

@[simp] theorem requestLeases_released (sup : Supervisor.State) (w : WorkerId) (id : RequestId) :
    (s.released sup w id).requestLeases = s.requestLeases := rfl

@[simp] theorem queues_pop (id : RequestId) : (s.pop id).queues = s.queues := rfl

end State

/-! ### The handlers -/

/-- The moves of a handler. -/
inductive Move
  | create
  /-- `create_inference_request` is cancelled. -/
  | leave
  | enqueue (now : Datetime)
  /-- `enqueue` raises before it puts the request: it is cancelled, or the
  service is not ACTIVE. -/
  | refuse
  /-- The wait for the assignment ends. -/
  | resume
  | cancel
  | remove
  | release (ledgerId : String) (now : Datetime)
  | reject (ledgerId : String) (now : Datetime)
  | touch (now : Datetime)
  /-- The worker's answer is over, and `settle_quota` gets what it counted. -/
  | settle (actual : ℤ) (prompt completion : Option ℤ) (errorCode : Option String) (ledgerId : String)
      (now : Datetime)
  | pop
  | free (now : Datetime)
  /-- The handler ends outside of what cleans up after it, as when
  `build_request` raises. -/
  | drop

/-- `create_inference_request`; the handler ends if it raises. -/
def createSection (s : State) (k : ℕ) (h : Handler) : State :=
  match h.create s.db with
  | .ok _ => (s.call h.store).goto k h .enqueuing
  | .error _ => s.goto k h .done

/-- The section of `enqueue` under the lock. -/
def enqueueSection (s : State) (k : ℕ) (h : Handler) (now : Datetime) : State :=
  let (queues, accepted) := s.queues.put (h.queued k now)
  if accepted then
    { s with
      queues := queues
      history := { s.history with accepted := s.history.accepted ++ [h.sub.requestId] } }.goto k h .waiting
  else { s with queues := queues }.goto k h (.rejecting false)

/-- `enqueue` is cancelled: its assignment is, unless it is done. -/
def cancelSection (s : State) (k : ℕ) (h : Handler) : State :=
  if h.assignment = .pending then s.assign k { h with pc := .cancelling } .cancelled else s.goto k h .cancelling

/-- The section of a cancelled `enqueue` under the lock. -/
def removeSection (s : State) (k : ℕ) (h : Handler) : State :=
  match s.queues.remove h.sub.modelId h.sub.requestId with
  | some (_, queues) => { s with queues := queues }.goto k h .withdrawing
  | none => s.goto k h (.rejecting false)

/-- The section of `touch` under the lock. -/
def touchSection (s : State) (lease : WorkerLease) (now : Datetime) : State :=
  match s.lease? lease.requestId with
  | some current => s.put { current with lastActivityAt := some now }
  | none => s

/-- The first section of `release`, by the handler `k`. -/
def popSection (s : State) (k : ℕ) (h : Handler) (lease : WorkerLease) : State :=
  if (s.lease? lease.requestId).isSome then (s.pop lease.requestId).goto k h (.releasing lease)
  else s.goto k h .done

def handlerStep (s : State) (k : ℕ) (h : Handler) : Pc → Move → Option State
  | .creating, .create => some (createSection s k h)
  | .creating, .leave => some (s.goto k h .done)
  | .enqueuing, .enqueue now => if s.scheduler.locked then none else some (enqueueSection s k h now)
  | .enqueuing, .refuse => some (s.goto k h (.rejecting false))
  | .waiting, .resume =>
    match h.assignment with
    | .result lease => some (s.goto k h (.serving lease))
    | .exception => some (s.goto k h (.rejecting false))
    | _ => none
  | .waiting, .cancel => some (cancelSection s k h)
  | .cancelling, .cancel => some (s.goto k h (.rejecting false))
  | .cancelling, .remove => if s.scheduler.locked then none else some (removeSection s k h)
  | .withdrawing, .cancel => some (s.goto k h (.rejecting true))
  | .withdrawing, .release lid now =>
    some (((s.call (.releaseReservation h.reservationId "client_cancelled" lid now)).finish
      h.sub.requestId).goto k h (.rejecting false))
  | .rejecting withdrawn, .reject lid now =>
    let s' := s.call (.releaseReservation h.reservationId "queue_rejected" lid now)
    some ((if withdrawn then s'.finish h.sub.requestId else s').goto k h .done)
  | .serving lease, .touch now => if s.scheduler.locked then none else some (touchSection s lease now)
  | .serving lease, .settle n p c e lid now =>
    some ((s.call (.settleQuota h.reservationId n p c e lid now)).goto k h (.settled lease))
  | .serving _, .drop => some (s.goto k h .abandoned)
  | .settled lease, .pop => some (popSection s k h lease)
  | .releasing lease, .free now =>
    (s.release cfg lease.workerId lease.requestId lease.estimatedTokens now).map fun s' =>
      (s'.finish lease.requestId).goto k h .done
  | _, _ => none

/-! ### The ends of leases -/

/-- The next await of a duty: what it leaves to do takes its place. -/
def dutyStep (s : State) (lid : String) (now : Datetime) : Duty → Option (State × List Duty)
  | .settle lease code taken =>
    let s' := s.call (.releaseReservation lease.reservationId code lid now)
    some (if taken then s'.finish lease.requestId else s', [])
  | .release lease =>
    some (if (s.lease? lease.requestId).isSome then (s.pop lease.requestId, [.free lease]) else (s, []))
  | .free lease =>
    (s.release cfg lease.workerId lease.requestId lease.estimatedTokens now).map fun s' =>
      (s'.finish lease.requestId, [])
  | .fail lease =>
    some (if (s.lease? lease.requestId).isSome then
        (s.pop lease.requestId, [.settle lease "worker_failed" true])
      else (s, [.settle lease "worker_failed" false]))
  | .drop id =>
    match s.lease? id with
    | some lease => some (s.pop id, [.settle lease "drain_watchdog" true])
    | none => some (s, [])

/-- `_expire_inactive_streams`: the leases without activity for the timeout. -/
def expired (s : State) (now : Datetime) : List Duty :=
  match cfg.workerStreamIdleTimeoutSeconds with
  | none => []
  | some timeout =>
    (s.requestLeases.filter fun l => l.isStream ∧ l.lastActivityAt.any fun t => timeout ≤ now - t).flatMap fun l =>
      [.settle l "worker_stream_idle_timeout" false, .release l]

/-- `_release_settled_leases` -/
def stale (s : State) (admitted : List RequestId) : List Duty :=
  (s.requestLeases.filter (·.requestId ∉ admitted)).map .release

/-! ### The scheduler -/

/-- The worker has been DRAINING for longer than the watchdog allows. -/
def overdue (now : Datetime) (x : WorkerPlacement) : Bool :=
  x.state = .draining ∧ cfg.workerDrainWatchdogSeconds.any fun watchdog =>
    x.drainStartedAt.any fun t => watchdog < now - t

/-- A turn of the loop of `enforce_drain_watchdogs`. -/
def watchSection (s : State) (now : Datetime) (w : WorkerId) (workers : List WorkerId)
    (ids : List RequestId) : State :=
  match (s.supervisor.worker? w).filter (overdue cfg now) with
  | some x =>
    { s with
      supervisor := s.supervisor.spawn w (.stopEnter true)
      scheduler := .stopping s.supervisor.tasks.length w x.admittedRequestIds now workers ids }
  | none => { s with scheduler := .watching now workers ids }

/-- A turn of the loops of `_route_ready_work`, up to the next `admit`. -/
def routeSection (s : State) (m : ModelId) (models : List ModelId) : State :=
  let ready := s.supervisor.workers.filter fun w => w.modelId = m ∧ w.isRoutable
  match minBy (·.outstandingTokenWork) ready, (s.queues.forModel m).pop with
  | some w, some (r, q) =>
    { s with queues := s.queues.update m q, scheduler := .busy (m :: models) r (.admitting w.id) }
  | _, _ => { s with scheduler := .routing models }

def admitSection (s : State) (models : List ModelId) (r : QueuedRequest) (w : WorkerId) (now : Datetime) : State :=
  match Supervisor.step cfg.toSettings s.supervisor (.admitRequest w r.id r.estimatedTokens now) with
  | some sup =>
    { s with
      supervisor := sup
      scheduler := .busy models r (.marking w)
      history := { s.history with admitted := s.history.admitted ++ [(w, r.id)] } }
  | none => { s with scheduler := .busy models r .refusing }

/-- `mark_request_admitted` in the router; `ok`: it does not raise. -/
def markSection (s : State) (models : List ModelId) (r : QueuedRequest) (w : WorkerId) (ok : Bool)
    (now : Datetime) : State :=
  if ok ∧ (s.db.markRequestAdmitted r.id w now).2 then
    { s.call (.markRequestAdmitted r.id w now) with scheduler := .busy models r (.granting w) }
  else { s with scheduler := .busy models r (.retracting w) }

/-- The lease is stored, and the assignment is set to it unless it is done. -/
def grantSection (s : State) (models : List ModelId) (r : QueuedRequest) (lease : WorkerLease) : State :=
  match s.pending? r.assignment with
  | some h => { (s.put lease).assign r.assignment h (.result lease) with scheduler := .routing models }
  | none =>
    { s.put lease with
      scheduler := .ending (.orphaned models) [.settle lease "client_cancelled" false, .release lease] }

/-- The request is settled, and the assignment is set to the exception unless
it is done. -/
def refuseSection (s : State) (models : List ModelId) (r : QueuedRequest) (lid : String) (now : Datetime) : State :=
  let s' := (s.call (.releaseReservation r.reservationId "admission_failed" lid now)).finish r.id
  { (s'.pending? r.assignment).elim s' fun h => s'.assign r.assignment h .exception with
    scheduler := .routing models }

/-- `_reconcile` goes on to its next await. -/
def schedulerStep (s : State) (ok : Bool) (lid : String) (now : Datetime) : Scheduler → Option State
  | .idle => some { s with scheduler := .ending .expireInactiveStreams (expired cfg s now) }
  | .ending loop (d :: todo) =>
    (dutyStep cfg s lid now d).map fun (s', ds) => { s' with scheduler := .ending loop (ds ++ todo) }
  | .ending .expireInactiveStreams [] => some { s with scheduler := .read s.db.admittedRequestIds }
  | .read admitted => some { s with scheduler := .ending .releaseSettledLeases (stale s admitted) }
  | .ending .releaseSettledLeases [] =>
    some { s with scheduler := .watching now (s.supervisor.workers.map (·.id)) [] }
  | .watching since (w :: workers) ids => some (watchSection cfg s since w workers ids)
  | .stopping k w stopped since workers ids =>
    if s.supervisor.tasks[k]? = some ⟨w, .done⟩ then
      some { s with scheduler := .watching since workers (ids ++ stopped) }
    else none
  | .watching _ [] ids => some { s with scheduler := .ending .dropOverdue (ids.map .drop) }
  | .ending .dropOverdue [] => some { s with scheduler := .routing s.queues.pendingModels }
  | .routing [] => some { s with scheduler := .idle }
  | .routing (m :: models) => some (routeSection s m models)
  | .busy models r (.admitting w) =>
    if s.supervisor.launching = none then some (admitSection cfg s models r w now) else none
  | .busy models r (.marking w) => some (markSection s models r w ok now)
  | .busy models r (.granting w) => some (grantSection s models r (leaseOf r w now))
  | .busy models r (.retracting w) =>
    (s.release cfg w r.id r.estimatedTokens now).map fun s' => { s' with scheduler := .busy models r .refusing }
  | .busy models r .refusing => some (refuseSection s models r lid now)
  | .ending (.orphaned models) [] => some { s with scheduler := .routing models }

/-- An exception leaves `_reconcile`, or the service is not ACTIVE: none of the
calls that clean up raises, and the router catches what an admission raises. -/
def abortStep (s : State) : Option State :=
  if s.scheduler.request?.isNone ∧ s.scheduler.duties.flatMap Duty.held = [] then
    some { s with scheduler := .idle }
  else none

/-! ### The system -/

/-- The worker of which the step of the supervisor reports the failure: `_fail`
ends with the event. -/
def failing? (sup : Supervisor.State) : Supervisor.Act → Option WorkerId
  | .task k _ _ _ =>
    match sup.tasks[k]? with
    | some ⟨w, .failCleanup _⟩ => some w
    | _ => none
  | _ => none

/-- `worker_event` for a worker that has failed. -/
def failedLeases (s : State) (w : WorkerId) : List Duty :=
  (s.requestLeases.filter (·.workerId = w)).map .fail

inductive Act
  | submit (sub : Submission) (reservationId : ReservationId) (ledgerId : String)
  | handler (k : ℕ) (m : Move)
  | scheduler (ok : Bool) (ledgerId : String) (now : Datetime)
  | abort
  /-- The `worker_event` number `j` goes on. -/
  | event (j : ℕ) (ledgerId : String) (now : Datetime)
  | supervisor (a : Supervisor.Act)

def eventStep (s : State) (j : ℕ) (lid : String) (now : Datetime) : List Duty → Option State
  | [] => none
  | d :: todo =>
    (dutyStep cfg s lid now d).map fun (s', ds) => { s' with events := s'.events.set j (ds ++ todo) }

def step (s : State) : Act → Option State
  | .submit sub rid lid =>
    match s.db.reserveQuota sub.requestId sub.idempotencyHash sub.principal sub.modelId sub.estimatedTokens rid
      lid with
    | .ok (db, rid') => some { s with db := db, handlers := s.handlers ++ [{ sub := sub, reservationId := rid' }] }
    | .error _ => none
  | .handler k m => (s.handlers[k]?).bind fun h => handlerStep cfg s k h h.pc m
  | .scheduler ok lid now => schedulerStep cfg s ok lid now s.scheduler
  | .abort => abortStep s
  | .event j lid now => (s.events[j]?).bind (eventStep cfg s j lid now)
  | .supervisor a =>
    match a with
    -- called by the tasks above
    | .admitRequest .. | .release .. => none
    | _ =>
      (Supervisor.step cfg.toSettings s.supervisor a).map fun sup =>
        { s with
          supervisor := sup
          events := s.events ++ ((failing? s.supervisor a).map (failedLeases s)).toList }

/-- The service starts with what the database has. -/
def start (db : Database) (total tenant : Option ℕ) : State where
  db := db
  queues := { totalCapacity := total, tenantCapacity := tenant }

/-- The request that a step submits. -/
def Act.submits? : Act → Option RequestId
  | .submit sub _ _ => some sub.requestId
  | _ => none

end Routing
end LlmRio
