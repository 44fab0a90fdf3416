/-
# The data the control plane works on

The records and enumerations of `domain.py`, with the fields that the
modelled functions read. Identifiers (worker, model and request ids, GPU
uuids) are the source's strings and are only ever compared. A datetime is the
rational number of seconds since the epoch, so that `(a - b).total_seconds()`
is `a - b`, and the floats of a profile are exact rationals.

Key definitions: `RuntimeState`, `ServiceMode`, `PlacementProfile`,
`WorkerPlacement`, `Settings`.
-/
import Mathlib.Data.Rat.Defs
import Mathlib.Algebra.Order.Ring.Rat

namespace LlmRio

abbrev GpuUuid := String
abbrev WorkerId := String
abbrev ModelId := String
abbrev RequestId := String

instance : LawfulBEq (List GpuUuid) := inferInstance

/-- A UTC instant, in seconds since the epoch. -/
abbrev Datetime := ℚ

inductive Role | user | ta | admin
deriving DecidableEq, Repr

inductive RuntimeState
  | cold | loading | ready | draining | offloading | sleeping | waking | stopping
deriving DecidableEq, Repr

inductive ServiceMode | active | draining | maintenanceReady
deriving DecidableEq, Repr

inductive Engine | vllm | llamaCpp
deriving DecidableEq, Repr

/-- `PlacementProfile`: one measured way of running a model on a set of GPUs. -/
structure PlacementProfile where
  id : String
  modelId : ModelId
  engine : Engine
  gpuCount : ℕ
  eligibleGpuSets : List (List GpuUuid)
  predictedTokensPerSecond : ℚ
  loadAndWarmupSeconds : ℚ
  idleVramMibPerGpu : List ℤ
  peakVramMibPerGpu : List ℤ
  gpuHeadroomMibPerGpu : List ℤ
  gpuMemoryUtilization : ℚ
  memoryBackend : String := "native"
  sleepVramMibPerGpu : Option (List ℤ) := none
deriving DecidableEq, Repr

/-- The profile was validated with kvcached on vLLM. -/
def PlacementProfile.isKvcached (p : PlacementProfile) : Bool :=
  p.engine = .vllm ∧ p.memoryBackend = "kvcached"

/-- `WorkerPlacement`: a launched engine, as the supervisor tracks it.
`admittedRequestIds` is a set in the source; it is kept without repetitions. -/
structure WorkerPlacement where
  id : WorkerId
  profile : PlacementProfile
  gpuUuids : List GpuUuid
  port : ℕ
  state : RuntimeState := .loading
  admittedRequestIds : List RequestId := []
  acceptedRequests : ℕ := 0
  outstandingTokenWork : ℤ := 0
  readyAt : Option Datetime := none
  lastDemandAt : Datetime
  drainStartedAt : Option Datetime := none
  sleepingAt : Option Datetime := none
  lastActivationSeconds : Option ℚ := none
  lastOffloadSeconds : Option ℚ := none
  hostWeightsCached : Bool := false
  processPid : Option ℕ := none
deriving DecidableEq, Repr

namespace WorkerPlacement

def modelId (w : WorkerPlacement) : ModelId := w.profile.modelId

def isRoutable (w : WorkerPlacement) : Bool := w.state = .ready

end WorkerPlacement

/-- `_GPU_RESIDENT_STATES`: the states in which an engine's weights are on its
GPUs. -/
def gpuResidentStates : List RuntimeState :=
  [.loading, .ready, .draining, .offloading, .waking, .stopping]

/-- The two GPU tuples share a GPU: `bool(set(a) & set(b))`. -/
def gpusMeet (a b : List GpuUuid) : Bool := a.any (· ∈ b)

theorem gpusMeet_iff {a b : List GpuUuid} : gpusMeet a b = true ↔ ∃ g ∈ a, g ∈ b := by
  simp [gpusMeet]

theorem gpusMeet_comm (a b : List GpuUuid) : gpusMeet a b = gpusMeet b a := by
  rw [Bool.eq_iff_iff, gpusMeet_iff, gpusMeet_iff]
  constructor <;> rintro ⟨g, h1, h2⟩ <;> exact ⟨g, h2, h1⟩

/-- The settings that the supervisor and the scheduler read. `kvcachedEnabled`
is `detect_kvcached(...).enabled`, and `persistentHostWeightCache` is the
compatibility shim's flag in its environment. -/
structure Settings where
  kvcachedEnabled : Bool := false
  prismWeightCacheRam : Bool := true
  persistentHostWeightCache : Bool := false
  enableLlamaCpp : Bool := false
  captureWorkerEngineLogs : Bool := true
  prismMaxWorkersPerGpu : ℕ := 2
  prismMaxCachedWorkersPerGpu : ℕ := 8
  workerPortStart : ℕ := 18000
  workerPortEnd : ℕ := 18999
deriving Repr

/-- `ram_weight_cache_enabled`. -/
def Settings.ramWeightCacheEnabled (c : Settings) : Bool :=
  c.kvcachedEnabled && c.prismWeightCacheRam

end LlmRio
