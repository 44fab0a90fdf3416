/-
# Placement profiles

The whole record `PlacementProfile` of `domain.py`, over the type `σ` of its
strings and the type `φ` of its floats. The planner reads only a part of it,
`LlmRio.PlacementProfile`, which `planned` takes out.

A profile is well-shaped if its measurements have an entry for each of its
GPUs and its eligible sets are sets of that many GPUs. On an eligible set of
a well-shaped profile the planner finds every entry that it looks for
(`WellShaped.found`).

Key definitions: `PlacementProfile`, `planned`, `WellShaped`.
Key theorems: `WellShaped.found`.
-/
import LlmRio.Lib.Json
import LlmRio.Planner.Vram
import Mathlib.Data.Finset.Insert

namespace LlmRio
namespace Profiles

open Json Utf8

/-- `RioError`, with the files that some of them list. -/
structure RioError where
  code : String
  message : String
  statusCode : ℕ
  availableGgufFiles : Option (List Text) := none
deriving DecidableEq

/-- `PlacementProfile`. The capabilities are a set; `launch_args` is a JSON
object. -/
structure PlacementProfile (σ φ : Type) where
  id : σ
  modelId : σ
  modelRevision : σ
  engine : Engine
  engineVersion : σ
  machineFingerprint : σ
  gpuCount : ℤ
  tensorParallelSize : ℤ
  pipelineParallelSize : ℤ
  eligibleGpuSets : List (List σ)
  dtype : σ
  quantization : Option σ
  maxModelLen : ℤ
  maxNumSeqs : Option ℤ
  maxNumBatchedTokens : Option ℤ
  predictedTokensPerSecond : φ
  loadAndWarmupSeconds : φ
  idleVramMibPerGpu : List ℤ
  peakVramMibPerGpu : List ℤ
  gpuHeadroomMibPerGpu : List ℤ
  capabilities : Finset σ
  launchArgs : List (Text × Value φ)
  gpuMemoryUtilization : φ
  kvCacheCapacityTokens : Option ℤ
  maxFullLengthConcurrency : Option φ
  memoryBackend : σ
  sleepVramMibPerGpu : Option (List ℤ) := none
  weightCacheOffloadSeconds : Option φ := none
  weightCacheActivationSeconds : Option φ := none

namespace PlacementProfile

variable {σ φ : Type}

/-- What the planner reads of a profile; `value` are the numbers that the
floats stand for. -/
def planned (value : φ → ℚ) (p : PlacementProfile String φ) : LlmRio.PlacementProfile where
  id := p.id
  modelId := p.modelId
  engine := p.engine
  gpuCount := p.gpuCount.toNat
  eligibleGpuSets := p.eligibleGpuSets
  predictedTokensPerSecond := value p.predictedTokensPerSecond
  loadAndWarmupSeconds := value p.loadAndWarmupSeconds
  idleVramMibPerGpu := p.idleVramMibPerGpu
  peakVramMibPerGpu := p.peakVramMibPerGpu
  gpuHeadroomMibPerGpu := p.gpuHeadroomMibPerGpu
  gpuMemoryUtilization := value p.gpuMemoryUtilization
  memoryBackend := p.memoryBackend
  sleepVramMibPerGpu := p.sleepVramMibPerGpu

/-- Each measurement has an entry for each GPU, and an eligible set is a set
of that many GPUs. -/
structure WellShaped (p : PlacementProfile σ φ) : Prop where
  idle : (p.idleVramMibPerGpu.length : ℤ) = p.gpuCount
  peak : (p.peakVramMibPerGpu.length : ℤ) = p.gpuCount
  headroom : (p.gpuHeadroomMibPerGpu.length : ℤ) = p.gpuCount
  sleep : ∀ mib ∈ p.sleepVramMibPerGpu, (mib.length : ℤ) = p.gpuCount
  eligible : ∀ gpuSet ∈ p.eligibleGpuSets, (gpuSet.length : ℤ) = p.gpuCount ∧ gpuSet.Nodup

/-- On each eligible set the planner finds the entries that it looks for: no
fit is refused for a missing measurement, and the reserve alone never stands
for a sleeper whose residual was measured. -/
def Found (p : LlmRio.PlacementProfile) : Prop :=
  ∀ gpuSet ∈ p.eligibleGpuSets, ∀ gpu ∈ gpuSet,
    Planner.measured p (gpuSet.idxOf gpu) = true ∧
      ∀ mib ∈ p.sleepVramMibPerGpu, gpuSet.idxOf gpu < mib.length

theorem WellShaped.found {p : PlacementProfile String φ} (h : p.WellShaped) (value : φ → ℚ) :
    Found (p.planned value) := by
  intro gpuSet hset gpu hgpu
  have hlt : gpuSet.idxOf gpu < gpuSet.length := List.idxOf_lt_length_of_mem hgpu
  have hlen := (h.eligible gpuSet hset).1
  have hentry : ∀ {mib : List ℤ}, (mib.length : ℤ) = p.gpuCount → gpuSet.idxOf gpu < mib.length := by
    intro mib hmib
    omega
  exact ⟨decide_eq_true ⟨hentry h.idle, hentry h.peak, hentry h.headroom⟩,
    fun mib hmib => hentry (h.sleep mib hmib)⟩

/-- A sleeper of such a profile takes what was measured, or the reserve if
that is more. -/
theorem WellShaped.sleepingMib {p : PlacementProfile String φ} (h : p.WellShaped) (value : φ → ℚ)
    (cfg : Planner.PlannerConfig) {gpuSet : List GpuUuid} (hset : gpuSet ∈ p.eligibleGpuSets) {gpu : GpuUuid}
    (hgpu : gpu ∈ gpuSet) {mib : List ℤ} (hmib : p.sleepVramMibPerGpu = some mib) :
    Planner.sleepingMib cfg (p.planned value) (gpuSet.idxOf gpu) =
      max cfg.prismSleepGpuReserveMib (mib.getD (gpuSet.idxOf gpu) 0) := by
  have hlt := (h.found value gpuSet hset gpu hgpu).2 mib hmib
  simp only [Planner.sleepingMib, planned, hmib, if_pos hlt]

end PlacementProfile

end Profiles
end LlmRio
