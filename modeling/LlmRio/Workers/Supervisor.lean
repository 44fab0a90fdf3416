/-
# The worker supervisor as a step function

`WorkerSupervisor` moves from await to await. A step is one section under
`_lock`, or the code between two awaits; what runs concurrently is a table of
tasks, each a program counter of one worker's `_await_ready`, `_monitor`,
`_fail`, `_offload`, `wake` or `stop`. `launch` holds `_lock` across its
awaits, so every section needs `launching = none`. The tasks of `_offload`,
`wake` and `stop` hold the worker's transition lock from their first section
to their end.

The engine processes are part of the state: an engine runs until it exits,
by itself or because it was killed, and `await process.wait()` passes once it
has. The records that `_persist`, `record_event` and `_emit` write change
nothing here and are taken to succeed, except in `launch`, which handles
their failure.

Key definitions: `State`, `Pc`, `Act`, `step`.
-/
import LlmRio.Lib.Runs
import LlmRio.Lib.Tasks
import LlmRio.Workers.Placement

namespace LlmRio
namespace Supervisor

/-- Where a task of a worker is. A flag `locked` of `_fail` says that it was
called with the worker's transition lock held; `handle` says whether
`_processes` had the worker's process when the section looked it up. -/
inductive Pc
  /-- `_await_ready` polls /health. -/
  | polling
  /-- `_monitor` waits for the process. -/
  | monitoring
  | failBegin (locked : Bool) | failKill (locked handle : Bool) | failTail (locked : Bool)
  | failCleanup (locked : Bool)
  | offloadEnter | offloadPost | offloadFinish | offloadTail
  | wakeEnter | wakePost | wakeFinish | wakeTail
  | stopEnter (force : Bool) | stopKill (handle : Bool) | stopFinish | stopTail
  | done
deriving DecidableEq, Repr

/-- The task holds the worker's transition lock. -/
def Pc.holds : Pc → Bool
  | .failBegin locked | .failKill locked _ | .failTail locked | .failCleanup locked => locked
  | .offloadPost | .offloadFinish | .offloadTail => true
  | .wakePost | .wakeFinish | .wakeTail => true
  | .stopKill _ | .stopFinish | .stopTail => true
  | _ => false

structure Task where
  worker : WorkerId
  pc : Pc
deriving DecidableEq, Repr

/-- A spawned engine process, with the port it listens on and its GPUs. -/
structure EngineProcess where
  worker : WorkerId
  port : ℕ
  gpuUuids : List GpuUuid
  exited : Bool := false
deriving DecidableEq, Repr

/-- Where the `launch` that holds `_lock` is. -/
inductive LaunchPhase | spawning | persisting
deriving DecidableEq, Repr

structure State where
  workers : List WorkerPlacement := []
  processes : List WorkerId := []
  engines : List EngineProcess := []
  drainToSleep : List WorkerId := []
  transition : WorkerId → Option ℕ := fun _ => none
  launching : Option (WorkerId × LaunchPhase) := none
  issued : List WorkerId := []
  tasks : List Task := []

inductive Act
  | launch (profile : PlacementProfile) (gpus : List GpuUuid) (id : WorkerId) (now : Datetime)
  | launchLogFails | launchSpawnFails | launchSpawned (pid : ℕ) | launchAborted | launchDone
  | engineExit (w : WorkerId)
  | admitRequest (w : WorkerId) (requestId : RequestId) (estimatedTokens : ℤ) (now : Datetime)
  | release (w : WorkerId) (requestId : RequestId) (estimatedTokens : ℤ) (now : Datetime)
  | sleep (w : WorkerId) (now : Datetime)
  | drain (w : WorkerId) (now : Datetime)
  | wake (w : WorkerId)
  | stop (w : WorkerId) (force : Bool)
  /-- Task `k` goes on; `ok` tells how its request to the engine ended. -/
  | task (k : ℕ) (ok : Bool) (now : Datetime) (elapsed : ℚ)
deriving DecidableEq

namespace State

variable (s : State)

def worker? (w : WorkerId) : Option WorkerPlacement := Table.lookup WorkerPlacement.id w s.workers

/-- `returncode` is set for every process of the worker. -/
def engineExited (w : WorkerId) : Bool := s.engines.all fun e => e.worker = w → e.exited

def modify (w : WorkerId) (f : WorkerPlacement → WorkerPlacement) : State :=
  { s with workers := Table.modify WorkerPlacement.id w f s.workers }

def goto (k : ℕ) (w : WorkerId) (pc : Pc) : State := { s with tasks := s.tasks.set k ⟨w, pc⟩ }

def spawn (w : WorkerId) (pc : Pc) : State := { s with tasks := s.tasks ++ [⟨w, pc⟩] }

/-- Task `k` takes the transition lock of `w`. -/
def hold (w : WorkerId) (k : ℕ) : State :=
  { s with transition := fun v => if v = w then some k else s.transition v }

/-- The transition lock of `w` is released. -/
def unhold (w : WorkerId) : State :=
  { s with transition := fun v => if v = w then none else s.transition v }

/-- Task `k` of `w` ends, and with it its hold on the transition lock. -/
def finish (k : ℕ) (w : WorkerId) (locked : Bool) : State :=
  if locked then (s.unhold w).goto k w .done else s.goto k w .done

def sleepIntent (w : WorkerId) : State :=
  { s with drainToSleep := if w ∈ s.drainToSleep then s.drainToSleep else s.drainToSleep ++ [w] }

def noSleepIntent (w : WorkerId) : State :=
  { s with drainToSleep := s.drainToSleep.filter (· ≠ w) }

/-- `_cleanup` -/
def cleanup (w : WorkerId) : State :=
  { s.noSleepIntent w with processes := s.processes.filter (· ≠ w) }

/-- `self.workers.pop(worker_id, None)` -/
def pop (w : WorkerId) : State := { s with workers := s.workers.filter (·.id ≠ w) }

end State

variable (cfg : Settings)

/-! ### The sections -/

/-- `drain`: a worker without requests goes on to `stop`. -/
def drainSection (s : State) (w : WorkerId) (now : Datetime) : State :=
  match s.worker? w with
  | none => s
  | some x =>
    if x.state ∈ [.draining, .stopping, .cold] then s
    else
      let s' := (s.noSleepIntent w).modify w (·.draining now)
      if x.admittedRequestIds = [] then s'.spawn w (.stopEnter false) else s'

def sleepSection (s : State) (w : WorkerId) (now : Datetime) : State :=
  if ¬ cfg.ramWeightCacheEnabled then drainSection s w now
  else
    match s.worker? w with
    | none => s
    | some x =>
      if x.state ∈ [.cold, .offloading, .sleeping, .waking, .stopping, .loading] then s
      else if x.admittedRequestIds ≠ [] then (s.sleepIntent w).modify w (·.draining now)
      else (s.sleepIntent w).spawn w .offloadEnter

/-- `release`: the last request of a DRAINING worker starts `_offload` or
`stop`, as the worker is to sleep or not. -/
def releaseSection (s : State) (w : WorkerId) (requestId : RequestId) (estimatedTokens : ℤ)
    (now : Datetime) : State :=
  match s.worker? w with
  | none => s
  | some x =>
    let s' := s.modify w (·.release requestId estimatedTokens now)
    if x.state = .draining ∧ (x.release requestId estimatedTokens now).admittedRequestIds = [] then
      s'.spawn w (if w ∈ s.drainToSleep then .offloadEnter else .stopEnter false)
    else s'

/-- `admit` raises for a worker that is not READY. -/
def admitSection (s : State) (w : WorkerId) (requestId : RequestId) (estimatedTokens : ℤ)
    (now : Datetime) : Option State :=
  match s.worker? w with
  | none => none
  | some x =>
    if x.state = .ready then some (s.modify w (·.admitRequest requestId estimatedTokens now)) else none

/-- `_await_ready` after a healthy answer. -/
def readySection (s : State) (k : ℕ) (w : WorkerId) (now : Datetime) : State :=
  if (s.worker? w).any (·.state = .loading) then (s.modify w (·.loaded now)).goto k w .done
  else s.goto k w .done

/-- The first section of `_fail`. -/
def failSection (s : State) (k : ℕ) (w : WorkerId) (locked : Bool) : State :=
  if (s.worker? w).any (·.state ≠ .cold) then
    ((s.noSleepIntent w).modify w (·.failed)).goto k w (.failKill locked (w ∈ s.processes))
  else s.finish k w locked

/-- The first section of `_offload`. -/
def offloadSection (s : State) (k : ℕ) (w : WorkerId) (now : Datetime) : State :=
  match s.worker? w with
  | none => s.goto k w .done
  | some x =>
    if x.state ∈ [.cold, .sleeping, .stopping] then s.goto k w .done
    else if x.admittedRequestIds ≠ [] then
      ((s.sleepIntent w).modify w (·.draining now)).goto k w .done
    else (((s.noSleepIntent w).modify w (·.offloading)).hold w k).goto k w .offloadPost

/-- The last section of `_offload`. -/
def offloadedSection (s : State) (k : ℕ) (w : WorkerId) (now : Datetime) (elapsed : ℚ) : State :=
  if (s.worker? w).any (·.state = .offloading) then
    (s.modify w (·.asleep now elapsed)).goto k w .offloadTail
  else s.finish k w true

/-- The first section of `wake`. -/
def wakeSection (s : State) (k : ℕ) (w : WorkerId) : State :=
  if (s.worker? w).any (·.state = .sleeping) then
    ((s.modify w (·.waking)).hold w k).goto k w .wakePost
  else s.goto k w .done

/-- The last section of `wake`. -/
def awakeSection (s : State) (k : ℕ) (w : WorkerId) (now : Datetime) (elapsed : ℚ) : State :=
  if (s.worker? w).any (·.state = .waking) then
    (s.modify w (·.awake cfg now elapsed)).goto k w .wakeTail
  else s.finish k w true

/-- The first section of `_stop`. -/
def stopSection (s : State) (k : ℕ) (w : WorkerId) (force : Bool) : State :=
  match s.worker? w with
  | none => s.goto k w .done
  | some x =>
    if x.state = .cold then s.goto k w .done
    else if x.admittedRequestIds ≠ [] ∧ ¬ force then s.goto k w .done
    else ((s.modify w (·.stopping)).hold w k).goto k w (.stopKill (w ∈ s.processes))

/-- The last section of `_stop`. -/
def stoppedSection (s : State) (k : ℕ) (w : WorkerId) : State :=
  ((s.noSleepIntent w).modify w (·.stopped)).goto k w .stopTail

/-- Task `k` of worker `w` goes on from `pc`. -/
def taskStep (s : State) (k : ℕ) (w : WorkerId) (ok : Bool) (now : Datetime) (elapsed : ℚ) :
    Pc → Option State
  | .polling =>
    -- without a healthy answer: the process is gone or the startup time is over
    if ok then (if s.launching = none then some (readySection s k w now) else none)
    else some (s.goto k w (.failBegin false))
  | .monitoring =>
    if s.engineExited w then
      if (s.worker? w).any (·.state ∉ [.stopping, .cold]) then some (s.goto k w (.failBegin false))
      else some (s.goto k w .done)
    else none
  | .failBegin locked => if s.launching = none then some (failSection s k w locked) else none
  | .failKill locked handle =>
    if handle → s.engineExited w then some (s.goto k w (.failTail locked)) else none
  | .failTail locked =>
    if s.launching = none then
      some ((s.modify w fun x => { x with processPid := none }).goto k w (.failCleanup locked))
    else none
  | .failCleanup locked => some ((s.cleanup w).finish k w locked)
  | .offloadEnter =>
    if s.transition w = none ∧ s.launching = none then some (offloadSection s k w now) else none
  | .offloadPost => some (s.goto k w (if ok then .offloadFinish else .failBegin true))
  | .offloadFinish =>
    if s.launching = none then some (offloadedSection s k w now elapsed) else none
  | .offloadTail => some (s.finish k w true)
  | .wakeEnter =>
    if s.transition w = none ∧ s.launching = none then some (wakeSection s k w) else none
  | .wakePost => some (s.goto k w (if ok then .wakeFinish else .failBegin true))
  | .wakeFinish =>
    if s.launching = none then some (awakeSection cfg s k w now elapsed) else none
  | .wakeTail => some (s.finish k w true)
  | .stopEnter force =>
    if s.transition w = none ∧ s.launching = none then some (stopSection s k w force) else none
  | .stopKill handle => if handle → s.engineExited w then some (s.goto k w .stopFinish) else none
  | .stopFinish => if s.launching = none then some (stoppedSection s k w) else none
  | .stopTail => some ((s.cleanup w).finish k w true)
  | .done => none

/-- The worker that `launch` registers. -/
def newWorker (profile : PlacementProfile) (gpus : List GpuUuid) (id : WorkerId) (port : ℕ)
    (now : Datetime) : WorkerPlacement :=
  { id := id, profile := profile, gpuUuids := gpus, port := port, lastDemandAt := now }

def step (s : State) : Act → Option State
  | .launch profile gpus id now =>
    -- a launch that raises from its guards leaves no trace and is no step
    if s.launching = none ∧ id ∉ s.issued then
      match launchPort cfg s.workers profile gpus with
      | .ok port =>
        some { s with
          workers := s.workers ++ [newWorker profile gpus id port now]
          launching := some (id, .spawning)
          issued := id :: s.issued }
      | .error _ => none
    else none
  | .launchLogFails =>
    -- the log file cannot be opened: `launch` raises and the worker stays LOADING
    match s.launching with
    | some (_, .spawning) => if cfg.captureWorkerEngineLogs then some { s with launching := none } else none
    | _ => none
  | .launchSpawnFails =>
    match s.launching with
    | some (id, .spawning) => some { (s.cleanup id).pop id with launching := none }
    | _ => none
  | .launchSpawned pid =>
    match s.launching with
    | some (id, .spawning) =>
      (s.worker? id).map fun x =>
        { s.modify id (fun x => { x with processPid := some pid }) with
          processes := s.processes ++ [id]
          engines := s.engines ++ [{ worker := id, port := x.port, gpuUuids := x.gpuUuids }]
          launching := some (id, .persisting) }
    | _ => none
  | .launchAborted =>
    -- the row could not be stored: SIGKILL, a wait of at most ten seconds, and the worker is dropped
    match s.launching with
    | some (id, .persisting) => some { (s.cleanup id).pop id with launching := none }
    | _ => none
  | .launchDone =>
    match s.launching with
    | some (id, .persisting) =>
      some { (s.spawn id .polling).spawn id .monitoring with launching := none }
    | _ => none
  | .engineExit w =>
    some { s with engines := Table.modify EngineProcess.worker w (fun e => { e with exited := true }) s.engines }
  | .admitRequest w r e now => if s.launching = none then admitSection s w r e now else none
  | .release w r e now => if s.launching = none then some (releaseSection s w r e now) else none
  | .sleep w now => if s.launching = none then some (sleepSection cfg s w now) else none
  | .drain w now => if s.launching = none then some (drainSection s w now) else none
  | .wake w => if cfg.ramWeightCacheEnabled then some (s.spawn w .wakeEnter) else none
  | .stop w force => some (s.spawn w (.stopEnter force))
  | .task k ok now elapsed =>
    match s.tasks[k]? with
    | some ⟨w, pc⟩ => taskStep cfg s k w ok now elapsed pc
    | none => none

/-- No worker has been launched. -/
def start : State := {}

/-- A vLLM profile for one GPU, for the concrete runs. -/
def oneGpu (backend : String) : PlacementProfile where
  id := "profile"
  modelId := "model"
  engine := .vllm
  gpuCount := 1
  eligibleGpuSets := [["gpu"]]
  predictedTokensPerSecond := 100
  loadAndWarmupSeconds := 60
  idleVramMibPerGpu := [1000]
  peakVramMibPerGpu := [2000]
  gpuHeadroomMibPerGpu := [0]
  gpuMemoryUtilization := 1
  memoryBackend := backend
  sleepVramMibPerGpu := some [100]

end Supervisor
end LlmRio
