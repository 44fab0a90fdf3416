/-
# Launch guards and worker updates

The parts of `workers.py` that compute on the table of workers without an
await: the guards of `launch`, `_allocate_port` and `_can_share_gpus`, and
the assignments that the sections of the supervisor make to one
`WorkerPlacement`, each under the name of the section that makes it.

Key definitions: `launchPort`, `allocatePort`, `canShareGpus`.
Key theorems: `allocatePort_free`, `launchPort_native`.
-/
import LlmRio.Lib.Table
import LlmRio.Lib.Transactions
import LlmRio.Domain

namespace LlmRio

open Transactions

/-- The `WorkerLaunchError` that `launch` raises from its guards. -/
inductive WorkerLaunchError
  /-- "placement does not match a validated GPU set" -/
  | invalidPlacement
  /-- "kvcached mode accepts only vLLM profiles validated with kvcached" -/
  | notKvcached
  /-- "GPU UUIDs already owned" -/
  | gpusOwned (gpus : List GpuUuid)
  /-- "private worker port range is exhausted" -/
  | portsExhausted
  /-- "engine is disabled or unsupported" -/
  | engineDisabled
  /-- "kvcached placement profile cannot run while kvcached mode is disabled" -/
  | kvcachedDisabled
deriving DecidableEq, Repr

namespace Supervisor

/-- The workers that are not COLD and share a GPU with the tuple. -/
def overlappingWorkers (workers : List WorkerPlacement) (gpus : List GpuUuid) : List WorkerPlacement :=
  workers.filter fun w => w.state ≠ .cold ∧ gpusMeet w.gpuUuids gpus

/-- `_allocate_port`: the first port that no worker outside COLD has. -/
def allocatePort (cfg : Settings) (workers : List WorkerPlacement) : Except WorkerLaunchError ℕ :=
  let used := (workers.filter fun w => w.state ≠ .cold).map (·.port)
  match (List.range' cfg.workerPortStart (cfg.workerPortEnd + 1 - cfg.workerPortStart)).find?
    (· ∉ used) with
  | some port => .ok port
  | none => .error .portsExhausted

/-- `_can_share_gpus` -/
def canShareGpus (cfg : Settings) (profile : PlacementProfile) (gpus : List GpuUuid)
    (overlapping : List WorkerPlacement) : Bool :=
  cfg.kvcachedEnabled && profile.isKvcached && overlapping.all (·.profile.isKvcached) &&
    gpus.all fun gpu =>
      let colocated := overlapping.filter (gpu ∈ ·.gpuUuids)
      colocated.countP (·.state ∈ gpuResidentStates) < cfg.prismMaxWorkersPerGpu &&
        colocated.length < cfg.prismMaxCachedWorkersPerGpu

/-- The engine checks of `_command` and `_environment`. -/
def checkEngine (cfg : Settings) (profile : PlacementProfile) : Except WorkerLaunchError Unit :=
  if profile.engine = .llamaCpp ∧ ¬ cfg.enableLlamaCpp then .error .engineDisabled
  else if profile.memoryBackend = "kvcached" ∧ ¬ cfg.kvcachedEnabled then .error .kvcachedDisabled
  else .ok ()

/-- The guards of `launch`, in their order; the port of the new worker. -/
def launchPort (cfg : Settings) (workers : List WorkerPlacement) (profile : PlacementProfile)
    (gpus : List GpuUuid) : Except WorkerLaunchError ℕ :=
  if gpus.length ≠ profile.gpuCount ∨ gpus ∉ profile.eligibleGpuSets then .error .invalidPlacement
  else if cfg.kvcachedEnabled ∧ ¬ profile.isKvcached then .error .notKvcached
  else
    let overlapping := overlappingWorkers workers gpus
    let overlap := gpus.filter fun gpu => overlapping.any (gpu ∈ ·.gpuUuids)
    if overlap ≠ [] ∧ ¬ canShareGpus cfg profile gpus overlapping then
      .error (.gpusOwned overlap)
    else do
      let port ← allocatePort cfg workers
      checkEngine cfg profile
      pure port

/-- A port that is handed out is no port of a worker outside COLD. -/
theorem allocatePort_free {cfg : Settings} {workers : List WorkerPlacement} {port : ℕ}
    (h : allocatePort cfg workers = .ok port) {w : WorkerPlacement} (hw : w ∈ workers)
    (hs : w.state ≠ .cold) : port ≠ w.port := by
  unfold allocatePort at h
  simp only at h
  split at h
  · rename_i p hp
    cases h
    have hfree := List.find?_some hp
    simp only [List.mem_map, List.mem_filter, decide_eq_true_eq, not_exists, not_and, and_imp] at hfree
    exact fun he => hfree w hw hs he.symm
  · cases h

theorem launchPort_ok {cfg : Settings} {workers : List WorkerPlacement} {profile : PlacementProfile}
    {gpus : List GpuUuid} {port : ℕ} (h : launchPort cfg workers profile gpus = .ok port) :
    ((∀ gpu ∈ gpus, ∀ w ∈ overlappingWorkers workers gpus, gpu ∉ w.gpuUuids) ∨
      canShareGpus cfg profile gpus (overlappingWorkers workers gpus) = true) ∧
      allocatePort cfg workers = .ok port := by
  unfold launchPort at h
  obtain ⟨-, h⟩ := guard_eq_ok.mp h
  obtain ⟨-, h⟩ := guard_eq_ok.mp h
  obtain ⟨hover, h⟩ := guard_eq_ok.mp h
  obtain ⟨p, hp, h⟩ := bind_eq_ok.mp h
  obtain ⟨-, -, h⟩ := bind_eq_ok.mp h
  cases pure_eq_ok.mp h
  refine ⟨?_, hp⟩
  by_cases hshare : canShareGpus cfg profile gpus (overlappingWorkers workers gpus) = true
  · exact .inr hshare
  · refine .inl fun gpu hg w hw hmem => hover ⟨?_, hshare⟩
    rw [ne_eq, List.filter_eq_nil_iff]
    intro hnone
    exact hnone gpu hg (List.any_eq_true.mpr ⟨w, hw, by simpa using hmem⟩)

/-- Without kvcached a placement is accepted only on GPUs that no worker
outside COLD has. -/
theorem launchPort_native {cfg : Settings} {workers : List WorkerPlacement}
    {profile : PlacementProfile} {gpus : List GpuUuid} {port : ℕ} (hk : cfg.kvcachedEnabled = false)
    (h : launchPort cfg workers profile gpus = .ok port) {w : WorkerPlacement} (hw : w ∈ workers)
    (hs : w.state ≠ .cold) : gpusMeet gpus w.gpuUuids = false := by
  rcases (launchPort_ok h).1 with hfree | hshare
  · by_contra hmeet
    rw [Bool.not_eq_false, gpusMeet_iff] at hmeet
    obtain ⟨g, hg, hgw⟩ := hmeet
    refine hfree g hg w (List.mem_filter.mpr ⟨hw, ?_⟩) hgw
    simp only [decide_eq_true_eq]
    exact ⟨hs, gpusMeet_iff.mpr ⟨g, hgw, hg⟩⟩
  · simp [canShareGpus, hk] at hshare

end Supervisor

/-! ### The sections' assignments to a worker -/

namespace WorkerPlacement

variable (w : WorkerPlacement)

/-- `_await_ready` finds the engine healthy. -/
def loaded (now : Datetime) : WorkerPlacement :=
  { w with state := .ready, readyAt := some now, lastDemandAt := now }

/-- `_fail` -/
def failed : WorkerPlacement :=
  { w with admittedRequestIds := [], outstandingTokenWork := 0, state := .cold }

def admitRequest (requestId : RequestId) (estimatedTokens : ℤ) (now : Datetime) : WorkerPlacement :=
  { w with
    admittedRequestIds :=
      if requestId ∈ w.admittedRequestIds then w.admittedRequestIds
      else w.admittedRequestIds ++ [requestId]
    acceptedRequests := w.acceptedRequests + 1
    outstandingTokenWork := w.outstandingTokenWork + estimatedTokens
    lastDemandAt := now }

def release (requestId : RequestId) (estimatedTokens : ℤ) (now : Datetime) : WorkerPlacement :=
  { w with
    admittedRequestIds := w.admittedRequestIds.filter (· ≠ requestId)
    lastDemandAt := now
    outstandingTokenWork := max 0 (w.outstandingTokenWork - estimatedTokens) }

/-- DRAINING, in `drain`, `sleep` and `_offload`. -/
def draining (now : Datetime) : WorkerPlacement :=
  { w with state := .draining, drainStartedAt := some now }

/-- `_offload` starts. -/
def offloading : WorkerPlacement := { w with state := .offloading, drainStartedAt := none }

/-- `_offload` ends. -/
def asleep (now : Datetime) (elapsed : ℚ) : WorkerPlacement :=
  { w with
    state := .sleeping
    sleepingAt := some now
    lastOffloadSeconds := some elapsed
    hostWeightsCached := true }

/-- `wake` starts. -/
def waking : WorkerPlacement := { w with state := .waking }

/-- `wake` ends; without the persistent cache the host copy is gone. -/
def awake (cfg : Settings) (now : Datetime) (elapsed : ℚ) : WorkerPlacement :=
  { w with
    state := .ready
    readyAt := some now
    lastDemandAt := now
    sleepingAt := none
    lastActivationSeconds := some elapsed
    hostWeightsCached := if cfg.persistentHostWeightCache then w.hostWeightsCached else false }

/-- `_stop` starts. -/
def stopping : WorkerPlacement := { w with state := .stopping }

/-- `_stop` ends. -/
def stopped : WorkerPlacement :=
  { w with
    state := .cold
    processPid := none
    admittedRequestIds := []
    outstandingTokenWork := 0
    sleepingAt := none
    hostWeightsCached := false }

end WorkerPlacement
end LlmRio
