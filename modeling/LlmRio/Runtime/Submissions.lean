/-
# Submissions under way

Any number of handlers of `chat_completions` are at work beside the scheduler:
each reserves quota, stores its request, puts it into the queue of its model
and waits for its assignment, while `_route_ready_work` takes requests from
the queues, admits them to workers and sets the assignments. Queue, lease map
and workers know a request by its id only, so handlers whose clients sent the
same id meet in all of them (`Gateway` follows one handler whose id is its own).

A step is the code between two awaits, of a handler (`Move`), of
`_route_ready_work` (`Turn`) or of the supervisor. A handler is known by its
position, in the order of the returns of `reserve_quota`. The router holds
`_state_lock` from its first turn to its last.

Key definitions: `Reserved`, `Pc`, `Router`, `State`, `handlerStep`,
`routerStep`, `step`.
-/
import LlmRio.Lib.Selection
import LlmRio.Storage.Settlement
import LlmRio.Runtime.Gateway
import LlmRio.Runtime.Queueing

namespace LlmRio
namespace Submissions

open Selection
open Gateway (WorkerLease)

/-! ### The handlers and the router -/

/-- What the gateway has from a client when it reserves quota. -/
structure Submission where
  requestId : RequestId
  idempotencyHash : String
  principal : Principal
  modelId : ModelId
  estimatedTokens : ℤ
  isStream : Bool := false
deriving DecidableEq, Repr

theorem Submission.step_reserve {sub : Submission} {rid rid' : ReservationId} {lid : String} {db db' : Database}
    (hres : db.reserveQuota sub.requestId sub.idempotencyHash sub.principal sub.modelId sub.estimatedTokens rid
      lid = .ok (db', rid')) :
    db.step (.reserveQuota sub.requestId sub.idempotencyHash sub.principal sub.modelId sub.estimatedTokens rid lid) =
      some db' := by
  show some (Transactions.commit _ ((db.reserveQuota _ _ _ _ _ _ _).map (·.1))) = _
  rw [hres]
  rfl

/-- What a handler has from `reserve_quota` on. -/
structure Reserved where
  sub : Submission
  reservationId : ReservationId
deriving DecidableEq, Repr

namespace Reserved

variable (h : Reserved)

/-- The request that the handler `k` puts into the queue. -/
def queued (k : ℕ) (now : Datetime) : QueuedRequest where
  id := h.sub.requestId
  modelId := h.sub.modelId
  tenantId := h.sub.principal.quotaAccountId
  estimatedTokens := h.sub.estimatedTokens
  reservationId := h.reservationId
  isStream := h.sub.isStream
  enqueuedAt := now
  assignment := k

/-- The call that stores its request. -/
def store : Database.Op :=
  .createInferenceRequest h.sub.requestId h.sub.principal h.sub.modelId h.reservationId h.sub.estimatedTokens

/-- `create_inference_request` -/
def create (db : Database) : Except StorageError Database :=
  db.createInferenceRequest h.sub.requestId h.sub.principal h.sub.modelId h.reservationId h.sub.estimatedTokens

variable {h}

theorem run_store {db db' : Database} (hcall : h.create db = .ok db') : db.run h.store = db' := by
  show Transactions.commit db (h.create db) = db'
  rw [hcall]
  rfl

/-- Its reservation is one for its request. -/
theorem step_store {db db' : Database} {q : QuotaReservation} (hq : db.reservation? h.reservationId = some q)
    (hreq : q.requestId = h.sub.requestId) (hcall : h.create db = .ok db') : db.step h.store = some db' := by
  have hlinked : h.store.linked db = true := by
    show (db.reservation? h.reservationId).all (·.requestId = h.sub.requestId) = true
    rw [hq]
    simpa using hreq
  have hstep : db.step h.store = some (db.run h.store) := if_pos hlinked
  rw [hstep, run_store hcall]

end Reserved

/-- Where a handler is after `reserve_quota`. The assignment is set in
`assigned` and `excepted`; it is cancelled from `cancelling` on. -/
inductive Pc
  | creating
  | enqueuing
  | waiting
  | assigned (lease : WorkerLease)
  | excepted
  /-- `enqueue` waits for the lock to remove its request from the queue. -/
  | cancelling
  /-- It has removed a request, and settles its own. -/
  | removed
  /-- `enqueue` has raised. -/
  | rejecting
  | serving (lease : WorkerLease)
  /-- `_finish_lease` has settled the reservation. -/
  | settled (lease : WorkerLease)
  /-- `release` has taken the lease out of the map. -/
  | releasing (lease : WorkerLease)
  | done
deriving DecidableEq, Repr

structure Handler extends Reserved where
  pc : Pc := .creating
deriving DecidableEq, Repr

/-- Where `_route_ready_work` is with a request that it has taken from a queue. -/
inductive Phase
  | admitting (w : WorkerId)
  | marking (w : WorkerId)
  | granting (w : WorkerId)
  /-- The request is no longer QUEUED: the worker releases it again. -/
  | retracting (w : WorkerId)
  | refusing
  /-- The assignment is done already, and nobody will use the lease. -/
  | orphaned (lease : WorkerLease)
  | returning (lease : WorkerLease)
  | releasing (lease : WorkerLease)
deriving DecidableEq, Repr

/-- The task of the scheduler, with the models still to serve. -/
inductive Router
  | idle
  | routing (models : List ModelId)
  | busy (models : List ModelId) (request : QueuedRequest) (phase : Phase)
deriving DecidableEq, Repr

/-- The request that the router has taken from a queue. -/
def Router.request? : Router → Option QueuedRequest
  | .busy _ r _ => some r
  | _ => none

structure State where
  db : Database
  queues : ModelQueues
  requestLeases : List WorkerLease := []
  supervisor : Supervisor.State := {}
  handlers : List Handler := []
  router : Router := .idle

/-- The lease of a request that is admitted to the worker. -/
def leaseOf (r : QueuedRequest) (w : WorkerId) : WorkerLease := ⟨w, r.id, r.reservationId, r.estimatedTokens⟩

namespace State

variable (s : State)

def goto (k : ℕ) (h : Handler) (pc : Pc) : State := { s with handlers := s.handlers.set k { h with pc := pc } }

/-- `self._request_leases.pop(request_id, None)` -/
def pop (id : RequestId) : State := { s with requestLeases := s.requestLeases.filter (·.requestId ≠ id) }

def leased (id : RequestId) : Bool := s.requestLeases.any (·.requestId = id)

def call (op : Database.Op) : State := { s with db := s.db.run op }

/-- The handler whose assignment is not done. -/
def waiting? (k : ℕ) : Option Handler := (s.handlers[k]?).filter (·.pc = .waiting)

/-- The assignment is set unless it is done. -/
def assign (k : ℕ) (pc : Pc) : State := (s.waiting? k).elim s fun h => s.goto k h pc

end State

/-! ### The steps -/

/-- The moves of a handler. -/
inductive Move
  | create
  | enqueue (now : Datetime)
  /-- `enqueue` raises before it puts the request: it is cancelled, or the
  service is not ACTIVE. -/
  | refuse
  /-- The wait for the assignment ends. -/
  | resume
  | cancel
  | remove
  | release (ledgerId : String) (now : Datetime)
  | reject (ledgerId : String) (now : Datetime)
  /-- The worker's answer is over, and `settle_quota` gets what it counted. -/
  | settle (actual : ℤ) (prompt completion : Option ℤ) (errorCode : Option String) (ledgerId : String)
      (now : Datetime)
  /-- `settle_quota` raises. -/
  | unsettled
  | pop
  | free (now : Datetime)
  /-- The handler ends and nobody cleans up. -/
  | drop

/-- The turns of `_route_ready_work`. -/
inductive Turn
  | tick
  | route
  | admitRequest (now : Datetime)
  /-- `ok`: `mark_request_admitted` does not raise. -/
  | mark (ok : Bool) (now : Datetime)
  | grant
  | retract (now : Datetime)
  /-- `ok`: `release_reservation` does not raise. -/
  | refuse (ok : Bool) (ledgerId : String) (now : Datetime)
  | disown (ledgerId : String) (now : Datetime)
  | pop
  | free (now : Datetime)
  /-- An exception leaves `_route_ready_work`. -/
  | abort

inductive Act
  | submit (sub : Submission) (reservationId : ReservationId) (ledgerId : String)
  | handler (k : ℕ) (m : Move)
  | router (t : Turn)
  | supervisor (a : Supervisor.Act)

variable (cfg : Settings)

/-- `create_inference_request`; the handler ends if it raises. -/
def createSection (s : State) (k : ℕ) (h : Handler) : State :=
  match h.create s.db with
  | .ok _ => (s.call h.store).goto k h .enqueuing
  | .error _ => s.goto k h .done

/-- The section of `enqueue` under the lock. -/
def enqueueSection (s : State) (k : ℕ) (h : Handler) (now : Datetime) : State :=
  let (queues, accepted) := s.queues.put (h.queued k now)
  { s with queues := queues }.goto k h (if accepted then .waiting else .rejecting)

/-- The section of a cancelled `enqueue` under the lock. -/
def removeSection (s : State) (k : ℕ) (h : Handler) : State :=
  match s.queues.remove h.sub.modelId h.sub.requestId with
  | some (_, queues) => { s with queues := queues }.goto k h .removed
  | none => s.goto k h .rejecting

/-- The first section of `release`, by the handler `k`. -/
def popSection (s : State) (k : ℕ) (h : Handler) (lease : WorkerLease) : State :=
  if s.leased lease.requestId then (s.pop lease.requestId).goto k h (.releasing lease) else s.goto k h .done

def handlerStep (s : State) (k : ℕ) (h : Handler) : Pc → Move → Option State
  | .creating, .create => some (createSection s k h)
  | .creating, .drop | .rejecting, .drop | .serving _, .drop => some (s.goto k h .done)
  | .enqueuing, .enqueue now => if s.router = .idle then some (enqueueSection s k h now) else none
  | .enqueuing, .refuse => some (s.goto k h .rejecting)
  | .assigned lease, .resume => some (s.goto k h (.serving lease))
  | .excepted, .resume => some (s.goto k h .rejecting)
  | .waiting, .cancel | .assigned _, .cancel | .excepted, .cancel => some (s.goto k h .cancelling)
  -- the handler of the first cancellation is cancelled itself
  | .cancelling, .cancel | .removed, .cancel => some (s.goto k h .rejecting)
  | .cancelling, .remove => if s.router = .idle then some (removeSection s k h) else none
  | .removed, .release lid now =>
    some ((s.call (.releaseReservation h.reservationId "client_cancelled" lid now)).goto k h .rejecting)
  | .rejecting, .reject lid now =>
    some ((s.call (.releaseReservation h.reservationId "queue_rejected" lid now)).goto k h .done)
  | .serving lease, .settle n p c e lid now =>
    some ((s.call (.settleQuota h.reservationId n p c e lid now)).goto k h (.settled lease))
  | .serving lease, .unsettled => some (s.goto k h (.settled lease))
  | .settled lease, .pop => some (popSection s k h lease)
  | .releasing lease, .free now =>
    (Supervisor.step cfg s.supervisor (.release lease.workerId lease.requestId lease.estimatedTokens now)).map
      fun sup => { s with supervisor := sup }.goto k h .done
  | _, _ => none

/-- A turn of the loops of `_route_ready_work`, up to the next `admit`. -/
def routeSection (s : State) (m : ModelId) (models : List ModelId) : State :=
  let ready := s.supervisor.workers.filter fun w => w.modelId = m ∧ w.isRoutable
  match minBy (·.outstandingTokenWork) ready, (s.queues.forModel m).pop with
  | some w, some (r, q) =>
    { s with queues := s.queues.update m q, router := .busy (m :: models) r (.admitting w.id) }
  | _, _ => { s with router := .routing models }

/-- `mark_request_admitted` in the router. -/
def markSection (s : State) (models : List ModelId) (r : QueuedRequest) (w : WorkerId) (ok : Bool)
    (now : Datetime) : State :=
  if ok ∧ (s.db.markRequestAdmitted r.id w now).2 then
    { s.call (.markRequestAdmitted r.id w now) with router := .busy models r (.granting w) }
  else { s with router := .busy models r (.retracting w) }

/-- The lease is stored, and the assignment is set to it. -/
def grantSection (s : State) (models : List ModelId) (r : QueuedRequest) (lease : WorkerLease) : State :=
  let s' := { s.pop r.id with requestLeases := (s.pop r.id).requestLeases ++ [lease] }
  match s.waiting? r.assignment with
  | some h => { s'.goto r.assignment h (.assigned lease) with router := .routing models }
  | none => { s' with router := .busy models r (.orphaned lease) }

/-- The request is settled, and the assignment is set to the exception. -/
def refuseSection (s : State) (models : List ModelId) (r : QueuedRequest) (ok : Bool) (lid : String)
    (now : Datetime) : State :=
  let s' := if ok then s.call (.releaseReservation r.reservationId "admission_failed" lid now) else s
  { s'.assign r.assignment .excepted with router := .routing models }

/-- The first section of `release`, by the router. -/
def returnSection (s : State) (models : List ModelId) (r : QueuedRequest) (lease : WorkerLease) : State :=
  if s.leased lease.requestId then { s.pop lease.requestId with router := .busy models r (.releasing lease) }
  else { s with router := .routing models }

def routerStep (s : State) : Router → Turn → Option State
  | .idle, .tick => some { s with router := .routing s.queues.pendingModels }
  | .routing [], .route => some { s with router := .idle }
  | .routing (m :: models), .route => some (routeSection s m models)
  | .busy models r (.admitting w), .admitRequest now =>
    if s.supervisor.launching = none then
      match Supervisor.step cfg s.supervisor (.admitRequest w r.id r.estimatedTokens now) with
      | some sup => some { s with supervisor := sup, router := .busy models r (.marking w) }
      | none => some { s with router := .busy models r .refusing }
    else none
  | .busy models r (.marking w), .mark ok now => some (markSection s models r w ok now)
  | .busy models r (.granting w), .grant => some (grantSection s models r (leaseOf r w))
  | .busy models r (.retracting w), .retract now =>
    (Supervisor.step cfg s.supervisor (.release w r.id r.estimatedTokens now)).map
      fun sup => { s with supervisor := sup, router := .busy models r .refusing }
  | .busy models r .refusing, .refuse ok lid now => some (refuseSection s models r ok lid now)
  | .busy models r (.orphaned lease), .disown lid now =>
    some { s.call (.releaseReservation r.reservationId "client_cancelled" lid now) with
      router := .busy models r (.returning lease) }
  | .busy models r (.returning lease), .pop => some (returnSection s models r lease)
  | .busy models _ (.releasing lease), .free now =>
    (Supervisor.step cfg s.supervisor (.release lease.workerId lease.requestId lease.estimatedTokens now)).map
      fun sup => { s with supervisor := sup, router := .routing models }
  -- what settles or releases an orphaned lease may raise
  | .busy _ _ (.orphaned _), .abort | .busy _ _ (.releasing _), .abort => some { s with router := .idle }
  | _, _ => none

def step (s : State) : Act → Option State
  | .submit sub rid lid =>
    match s.db.reserveQuota sub.requestId sub.idempotencyHash sub.principal sub.modelId sub.estimatedTokens rid
      lid with
    | .ok (db, rid') => some { s with db := db, handlers := s.handlers ++ [{ sub := sub, reservationId := rid' }] }
    | .error _ => none
  | .handler k m => (s.handlers[k]?).bind fun h => handlerStep cfg s k h h.pc m
  | .router t => routerStep cfg s s.router t
  | .supervisor a =>
    match a with
    -- called by the handlers and the router
    | .admitRequest .. | .release .. => none
    | _ => (Supervisor.step cfg s.supervisor a).map fun sup => { s with supervisor := sup }

/-- The service starts with what the database has. -/
def start (db : Database) (total tenant : Option ℕ) : State where
  db := db
  queues := { totalCapacity := total, tenantCapacity := tenant }

/-- The handler whose request a step is about. -/
def actor (s : State) : Act → Option ℕ
  | .submit .. => some s.handlers.length
  | .handler k _ => some k
  | .router _ => s.router.request?.map (·.assignment)
  | .supervisor _ => none

end Submissions
end LlmRio
