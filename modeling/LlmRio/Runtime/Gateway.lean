/-
# The gateway's handling of a submission

`chat_completions` reserves quota, stores the request, waits for a worker and
forwards the request to it. From `reserve_quota` on each call may raise, and
the handler may be cancelled at each await; the duty to settle the
reservation and to release the lease passes from the handler to
`_open_worker_stream`, to the finalizer of the stream or to
`_nonstream_backend`.

The handler is a program with a state that may raise (`Handler`). A `Script`
says how its calls end, and `env` which steps the other tasks take before
each of them. The cleanup task runs where the handler starts it: `shield`
keeps the cancellations of the handler from it.

Key definitions: `World`, `Other`, `Script`, `Handler`, `chatCompletions`,
`run`, `Clean`, `leaks`.
-/
import LlmRio.Storage.Wellformed
import LlmRio.Workers.Changes

namespace LlmRio
namespace Gateway

/-! ### What the handler shares with the other tasks -/

/-- `WorkerLease` -/
structure WorkerLease where
  workerId : WorkerId
  requestId : RequestId
  reservationId : ReservationId
  estimatedTokens : ℤ
deriving DecidableEq, Repr

/-- The request that the handler has reserved quota for. -/
structure Submission where
  requestId : RequestId
  principal : Principal
  modelId : ModelId
  reservationId : ReservationId
  estimatedTokens : ℤ
  promptEstimate : ℤ
  isStream : Bool
  quotaChargeRequestedMaximum : Bool := false

/-- The database, the leases of the scheduler and the workers; `releasing`
holds the leases that a `release` has taken out and the supervisor has not
released yet. -/
structure World where
  db : Database
  requestLeases : List WorkerLease := []
  releasing : List WorkerLease := []
  supervisor : Supervisor.State := {}

namespace World

variable (w : World) (lease : WorkerLease) (now : Datetime)

/-- The scheduler admits a request, stores that and the lease. -/
def grant : World where
  db := w.db.run (.markRequestAdmitted lease.requestId lease.workerId now)
  requestLeases := w.requestLeases.filter (·.requestId ≠ lease.requestId) ++ [lease]
  releasing := w.releasing
  supervisor := w.supervisor.modify lease.workerId
    (·.admitRequest lease.requestId lease.estimatedTokens now)

/-- `release` takes the lease out, .. -/
def pop : World :=
  { w with
    requestLeases := w.requestLeases.filter (·.requestId ≠ lease.requestId)
    releasing := w.releasing ++ [lease] }

/-- .. and the supervisor releases the request once its lock is free. -/
def released : World :=
  { w with
    releasing := w.releasing.erase lease
    supervisor := Supervisor.releaseSection w.supervisor lease.workerId lease.requestId
      lease.estimatedTokens now }

end World

/-- A step of another task. -/
inductive Other
  | database (op : Database.Op)
  | supervisor (a : Supervisor.Act)
  | lease (l : WorkerLease)
  | pop (l : WorkerLease)
  | released (l : WorkerLease) (now : Datetime)
  /-- `worker_event`; `_fail` has cleared the requests of the worker. -/
  | workerFailed (w : WorkerId)

/-- The other tasks do not submit the request again, and `uuid4` is fresh. -/
def Other.foreign (sub : Submission) : Other → Bool
  | .database (.reserveQuota _ _ _ _ _ reservationId _) => reservationId ≠ sub.reservationId
  | .supervisor (.admitRequest _ requestId _ _) => requestId ≠ sub.requestId
  | .lease l => l.requestId ≠ sub.requestId
  | _ => true

/-- In no turn do the other tasks submit the request again. -/
def Foreign (sub : Submission) (env : ℕ → List Other) : Prop := ∀ k, ∀ o ∈ env k, o.foreign sub = true

def World.step (cfg : Settings) (w : World) : Other → Option World
  | .database op => (w.db.step op).map fun db => { w with db := db }
  | .supervisor a => (Supervisor.step cfg w.supervisor a).map fun s => { w with supervisor := s }
  | .lease l => some { w with requestLeases := w.requestLeases.filter (·.requestId ≠ l.requestId) ++ [l] }
  | .pop l => if l ∈ w.requestLeases then some (w.pop l) else none
  | .released l now => if l ∈ w.releasing then some (w.released l now) else none
  | .workerFailed x =>
    if (w.supervisor.worker? x).all (·.admittedRequestIds = []) then
      some { w with requestLeases := w.requestLeases.filter (·.workerId ≠ x) }
    else none

/-! ### How the calls end -/

/-- The exceptions that the handler tells apart. -/
inductive Exn
  | cancelledError | timeoutError | httpError
  | other (name : String)
deriving DecidableEq, Repr

/-- The calls and awaits of the handler that may raise. -/
inductive Point
  | createRequest | serviceMode | remove | buildRequest | send | post | parse | respond
  | next (k : ℕ) | touch (k : ℕ) | read (k : ℕ) | yielded (k : ℕ) | yieldError
  | shield | closeResponse
deriving DecidableEq, Repr

/-- Where a request is when `enqueue` is cancelled. -/
inductive Waiting
  | queued
  /-- Its admission goes on, and may end with a lease on a worker. -/
  | inAdmission (w : Option WorkerId)
  /-- Its assignment is set to a lease on the worker. -/
  | leased (w : WorkerId)
deriving DecidableEq, Repr

/-- How the wait for the assignment ends. -/
inductive Assignment
  | result (w : WorkerId) | exception (e : Exn) | cancelled (place : Waiting)
deriving DecidableEq, Repr

/-- The usage of a worker's answer, and the tokens of its choices. -/
structure Usage where
  promptTokens : ℤ := 0
  completionTokens : ℤ := 0
  totalTokens : Option ℤ := none
  roughTokens : ℤ := 0
deriving DecidableEq, Repr

/-- A chunk of a stream: its usage event, the tokens of its deltas, whether it
has an error event and the terminal event. -/
structure Chunk where
  usage : Option (ℤ × ℤ) := none
  observed : ℤ := 0
  error : Bool := false
  done : Bool := false
deriving DecidableEq, Repr

/-- How the calls end. `usage` is the body of a worker's answer, none if it is
no JSON. `bodyStarts` and `backgroundRuns` say whether the framework starts the
body of the stream's response, and whether it runs the background task of the
response when the body is left. -/
structure Script where
  raises : Point → Option Exn
  assignment : Assignment
  isSuccess : Bool := true
  usage : Option Usage := none
  chunks : List Chunk := []
  bodyStarts : Bool := true
  backgroundRuns : Bool := true
  ledgerId : String := ""
  now : Datetime := 0

/-- The variables of the handler; `lease` is what it has been granted,
`finished` the flag of the stream's finalizer, and `clock` counts the turns of
the other tasks. -/
structure State where
  world : World
  clock : ℕ := 0
  lease : Option WorkerLease := none
  finished : Bool := false
  prompt : ℤ := 0
  completion : ℤ := 0
  observedCompletion : ℤ := 0
  actual : ℤ := 0
  errorCode : Option String := none
  sawDone : Bool := false

abbrev Handler := EStateM Exn State

variable (cfg : Settings) (sub : Submission) (sc : Script) (env : ℕ → List Other)

/-! ### The calls -/

/-- The steps that are possible, in turn. -/
def World.turn (w : World) (os : List Other) : World := os.foldl (fun w o => (w.step cfg o).getD w) w

/-- The other tasks go on. -/
def others : Handler Unit :=
  modify fun s => { s with world := s.world.turn cfg (env s.clock), clock := s.clock + 1 }

/-- A call or an await: the other tasks go on, and it ends as the script says. -/
def await (p : Point) : Handler Unit := do
  others cfg env
  match sc.raises p with
  | none => pure ()
  | some e => throw e

/-- A transaction, after a turn of the other tasks. -/
def transaction (op : Database.Op) : Handler Unit := do
  others cfg env
  modify fun s => { s with world := { s.world with db := s.world.db.run op } }

def settleQuota (actualTokens : ℤ) (promptTokens completionTokens : Option ℤ)
    (errorCode : Option String) : Handler Unit :=
  transaction cfg env
    (.settleQuota sub.reservationId actualTokens promptTokens completionTokens errorCode sc.ledgerId sc.now)

def releaseReservation (errorCode : String) : Handler Unit :=
  transaction cfg env (.releaseReservation sub.reservationId errorCode sc.ledgerId sc.now)

/-- `create_inference_request`; `reserve_quota` has checked the references of
the row, so the INSERT raises what the script says. -/
def createInferenceRequest : Handler Unit := do
  await cfg sc env .createRequest
  transaction cfg env (.createInferenceRequest sub.requestId sub.principal sub.modelId sub.reservationId
    sub.estimatedTokens)

/-- `ResidencyScheduler.release` -/
def release (lease : WorkerLease) : Handler Unit := do
  others cfg env
  if (← get).world.requestLeases.any (·.requestId = lease.requestId) then
    modify fun s => { s with world := s.world.pop lease }
    others cfg env
    modify fun s => { s with world := s.world.released lease sc.now }

/-- The scheduler admits the request to the worker `w`. -/
def grant (w : WorkerId) : Handler WorkerLease := do
  let lease : WorkerLease := ⟨w, sub.requestId, sub.reservationId, sub.estimatedTokens⟩
  modify fun s => { s with world := s.world.grant lease sc.now, lease := some lease }
  pure lease

/-- `_route_ready_work` finds the assignment of the admitted request cancelled. -/
def admitCancelled (w : WorkerId) : Handler Unit := do
  let lease ← grant sub sc w
  releaseReservation cfg sub sc env "client_cancelled"
  release cfg sc env lease

/-- `ResidencyScheduler.enqueue` -/
def enqueue : Handler WorkerLease := do
  await cfg sc env .serviceMode
  others cfg env
  match sc.assignment with
  | .result w => grant sub sc w
  | .exception e => throw e
  | .cancelled .queued => do
    await cfg sc env .remove
    releaseReservation cfg sub sc env "client_cancelled"
    throw .cancelledError
  | .cancelled (.inAdmission none) => do
    await cfg sc env .remove
    throw .cancelledError
  | .cancelled (.inAdmission (some w)) => do
    admitCancelled cfg sub sc env w
    await cfg sc env .remove
    throw .cancelledError
  | .cancelled (.leased w) => do
    let _ ← grant sub sc w
    await cfg sc env .remove
    throw .cancelledError

/-! ### The end of a lease -/

/-- `_finish_lease` -/
def finishLease (lease : WorkerLease) (actual prompt completion : ℤ) (errorCode : Option String) :
    Handler Unit := do
  settleQuota cfg sub sc env actual (some prompt) (some completion) errorCode
  release cfg sc env lease

/-- `_complete_lease` -/
def completeLease (lease : WorkerLease) (actual prompt completion : ℤ) (errorCode : Option String) :
    Handler Unit := do
  finishLease cfg sub sc env lease actual prompt completion errorCode
  await cfg sc env .shield

/-- `_StreamLeaseFinalizer.finish` -/
def finish (lease : WorkerLease) (actual prompt completion : ℤ) (errorCode : Option String) :
    Handler Unit := do
  if ¬ (← get).finished then
    modify fun s => { s with finished := true }
    try completeLease cfg sub sc env lease actual prompt completion errorCode
    finally await cfg sc env .closeResponse

/-- `_StreamLeaseFinalizer.abandon` -/
def abandon (lease : WorkerLease) : Handler Unit :=
  finish cfg sub sc env lease 0 0 0 (some "client_disconnected")

def setError (code : String) : Handler Unit := modify fun s => { s with errorCode := some code }

/-! ### The backends -/

/-- What an answer counts; the estimate stands in for a total of 0. -/
def Usage.count (usage : Usage) (s : State) : State :=
  let total := usage.totalTokens.getD (usage.promptTokens + usage.completionTokens)
  if total = 0 then
    { s with
      prompt := sub.promptEstimate, completion := usage.roughTokens
      actual := sub.promptEstimate + usage.roughTokens }
  else { s with prompt := usage.promptTokens, completion := usage.completionTokens, actual := total }

/-- The body of `_nonstream_backend`. -/
def readResponse : Handler Unit := do
  await cfg sc env .post
  if ¬ sc.isSuccess then
    setError "worker_rejected"
    throw (.other "worker_rejected")
  else
    match sc.usage with
    | none =>
      setError "worker_protocol_error"
      throw (.other "worker_protocol_error")
    | some usage =>
      await cfg sc env .parse
      modify (usage.count sub)
      await cfg sc env .respond

def nonstreamBackend (lease : WorkerLease) : Handler Unit := do
  try readResponse cfg sub sc env
  catch e =>
    match e with
    | .cancelledError =>
      setError "client_disconnected"
      throw e
    | .timeoutError =>
      setError "worker_request_timeout"
      throw (.other "worker_request_timeout")
    | .httpError =>
      setError "worker_transport_error"
      throw (.other "worker_unavailable")
    | .other _ => throw e
  finally
    let s ← get
    let actual :=
      if sub.quotaChargeRequestedMaximum ∧ s.errorCode = none then lease.estimatedTokens else s.actual
    completeLease cfg sub sc env lease actual s.prompt s.completion s.errorCode

def openWorkerStream (lease : WorkerLease) : Handler Unit := do
  await cfg sc env .buildRequest
  try await cfg sc env .send
  catch e =>
    match e with
    | .cancelledError =>
      completeLease cfg sub sc env lease 0 0 0 (some "client_disconnected")
      throw e
    | .timeoutError =>
      completeLease cfg sub sc env lease 0 0 0 (some "worker_request_timeout")
      throw (.other "worker_request_timeout")
    | .httpError =>
      completeLease cfg sub sc env lease 0 0 0 (some "worker_transport_error")
      throw (.other "worker_unavailable")
    | .other _ => throw e
  if ¬ sc.isSuccess then
    completeLease cfg sub sc env lease 0 0 0 (some "worker_rejected")
    await cfg sc env .closeResponse
    throw (.other "worker_unavailable")

def Chunk.count (c : Chunk) (s : State) : State :=
  { s with
    prompt := c.usage.elim s.prompt (·.1)
    completion := c.usage.elim s.completion (·.2)
    observedCompletion := s.observedCompletion + c.observed
    errorCode := if c.error then some "worker_stream_error" else s.errorCode
    sawDone := s.sawDone || c.done }

/-- The loop of `_stream_backend` over the chunks. -/
def readChunks : ℕ → List Chunk → Handler Unit
  | k, [] => await cfg sc env (.next k)
  | k, c :: chunks => do
    await cfg sc env (.next k)
    await cfg sc env (.touch k)
    modify c.count
    await cfg sc env (.read k)
    await cfg sc env (.yielded k)
    readChunks (k + 1) chunks

def streamBackend (lease : WorkerLease) : Handler Unit := do
  try
    readChunks cfg sc env 0 sc.chunks
    if ¬ (← get).sawDone then
      setError "worker_stream_incomplete"
      await cfg sc env .yieldError
  catch e =>
    match e with
    | .cancelledError =>
      setError "client_disconnected"
      throw e
    | .timeoutError =>
      setError "worker_stream_idle_timeout"
      await cfg sc env .yieldError
    | .httpError =>
      setError "worker_transport_error"
      await cfg sc env .yieldError
    | .other _ => throw e
  finally
    let s ← get
    let actual :=
      if sub.quotaChargeRequestedMaximum ∧ s.errorCode = none then lease.estimatedTokens
      else if s.prompt ≠ 0 ∨ s.completion ≠ 0 then s.prompt + s.completion
      else sub.promptEstimate + s.observedCompletion
    finish cfg sub sc env lease actual (if s.prompt ≠ 0 then s.prompt else sub.promptEstimate)
      (if s.completion ≠ 0 then s.completion else s.observedCompletion) s.errorCode

/-- The response to a stream: the framework runs its body and its background
task. -/
def streamingResponse (lease : WorkerLease) : Handler Unit := do
  try
    if sc.bodyStarts then streamBackend cfg sub sc env lease
  finally
    if sc.backgroundRuns then abandon cfg sub sc env lease

/-- `chat_completions` after `reserve_quota`, with the body of its response. -/
def chatCompletions : Handler Unit := do
  createInferenceRequest cfg sub sc env
  let lease ←
    try enqueue cfg sub sc env
    catch e =>
      releaseReservation cfg sub sc env "queue_rejected"
      throw e
  if sub.isStream then
    openWorkerStream cfg sub sc env lease
    streamingResponse cfg sub sc env lease
  else nonstreamBackend cfg sub sc env lease

/-- The state in which a program ends. -/
def ending {α : Type} : EStateM.Result Exn State α → State
  | .ok _ s => s
  | .error _ s => s

/-- The state once the handler and its cleanup have ended. -/
def run (w : World) : State := ending ((chatCompletions cfg sub sc env).run { world := w })

/-! ### What is promised -/

def Settled (rid : ReservationId) (db : Database) : Prop :=
  ∀ q, db.reservation? rid = some q → q.state ≠ .reserved

/-- Nothing is left reserved: the reservation is not RESERVED, and the lease
that the handler was granted, if any, is in the map no more and its worker has
not admitted the request, unless another task is about to release it there. -/
def Clean (s : State) : Prop :=
  Settled sub.reservationId s.world.db ∧ ∀ l, s.lease = some l →
    (∀ m ∈ s.world.requestLeases, m.requestId ≠ l.requestId) ∧
      (l ∉ s.world.releasing → ¬ Supervisor.Admitted s.world.supervisor l.workerId l.requestId)

/-- The stream's response is opened, but neither its body nor its background
task runs. -/
def dropped : Bool :=
  sc.raises .send = none ∧ sc.isSuccess ∧ ¬ sc.bodyStarts ∧ ¬ sc.backgroundRuns

/-- The exception is not one of those that `_open_worker_stream` catches. -/
def Exn.uncaught : Exn → Bool
  | .other _ => true
  | _ => false

/-- In a stream no one has the duty to clean up before the worker has answered,
and when the response is dropped. -/
def streamLeaks : Bool :=
  (sc.raises .buildRequest).isSome || (sc.raises .send).any Exn.uncaught || dropped sc

/-- No one has the duty to clean up before `enqueue`, and when a lease has been
granted and the handler is cancelled before it has it. -/
def leaks : Bool :=
  (sc.raises .createRequest).isSome || (sc.raises .serviceMode).isNone &&
    match sc.assignment with
    | .cancelled (.leased _) => true
    | .result _ => sub.isStream && streamLeaks sc
    | _ => false

end Gateway
end LlmRio
