/-
# The two fit checks

`_prism_fits` and `_cached_prism_fits` are written apart from each other: in
another order, with other indices, and the latter with a cap on the processes
and with sleeping workers besides. Where every worker is LOADING, READY or
DRAINING and the cap on the processes is not below the one on the residents,
as the settings demand, they are one test (`prismFits_eq`).

Key definitions: `RoomBeside`.
Key theorems: `fitsOn_iff`, `prismFitsOn_iff`, `prismFits_eq`.
-/
import LlmRio.Planner.Modes
import LlmRio.Planner.Residency

namespace LlmRio
namespace Planner

open Selection

variable {cfg : PlannerConfig} {profile : PlacementProfile} {gpuSet : List GpuUuid} {workers : List WorkerPlacement}

variable (cfg profile workers) in
/-- What both checks ask of a GPU, the one at position `i` of the profile. -/
structure RoomBeside (gpu : GpuUuid) (i : ℕ) : Prop where
  kvcached : ∀ w ∈ workers.filter (gpu ∈ ·.gpuUuids), w.profile.isKvcached = true
  slots : ((workers.filter (gpu ∈ ·.gpuUuids)).length : ℤ) < cfg.prismMaxWorkersPerGpu
  measured : ∀ w ∈ workers.filter (gpu ∈ ·.gpuUuids), measured w.profile (w.gpuUuids.idxOf gpu) = true
  vram : ((workers.filter (gpu ∈ ·.gpuUuids)).map fun w => residentMib w.profile (w.gpuUuids.idxOf gpu)).sum +
    residentMib profile i ≤ budgetMib cfg gpu (smallest profile.gpuMemoryUtilization
      ((workers.filter (gpu ∈ ·.gpuUuids)).map (·.profile.gpuMemoryUtilization)))

variable (cfg profile gpuSet workers) in
/-- What both checks ask. -/
structure FitsBeside : Prop where
  idle : profile.idleVramMibPerGpu.length = gpuSet.length
  peak : profile.peakVramMibPerGpu.length = gpuSet.length
  headroom : profile.gpuHeadroomMibPerGpu.length = gpuSet.length
  single : ∀ w ∈ workers, ¬ (w.modelId = profile.modelId ∧ w.gpuUuids = gpuSet)
  room : ∀ (i : ℕ) (hi : i < gpuSet.length), RoomBeside cfg profile workers gpuSet[i] i

theorem prismFits_iff (hnodup : gpuSet.Nodup) :
    prismFits cfg profile gpuSet workers = true ↔ FitsBeside cfg profile gpuSet workers := by
  unfold prismFits
  rw [guard_eq_true, guard_eq_true, List.all_eq_true, List.forall_mem_iff_forall_getElem]
  simp only [List.getElem_zip, List.length_zip, guard_eq_true, decide_eq_true_eq, not_or, not_not, not_le,
    List.any_eq_true, Bool.not_eq_true', not_exists, not_and, Bool.not_eq_false]
  -- the GPU is found at its own position
  have hrequested : ∀ (i : ℕ) (hi : i < gpuSet.length) (hidle : i < profile.idleVramMibPerGpu.length),
      max profile.idleVramMibPerGpu[i] (profile.peakVramMibPerGpu.getD (gpuSet.idxOf gpuSet[i]) 0) +
        profile.gpuHeadroomMibPerGpu.getD (gpuSet.idxOf gpuSet[i]) 0 = residentMib profile i := by
    intro i hi hidle
    simp [hnodup.idxOf_getElem i hi, residentMib, hidle]
  constructor
  · rintro ⟨⟨hidle, hpeak, hheadroom⟩, hsingle, hroom⟩
    refine ⟨hidle, hpeak, hheadroom, fun w hw h => hsingle w hw h.1 h.2, fun i hi => ?_⟩
    obtain ⟨hslots, hkv, hmeasured, hvram⟩ := hroom i (by omega)
    rw [hrequested i hi (by omega), add_comm] at hvram
    exact ⟨hkv, hslots, hmeasured, hvram⟩
  · rintro ⟨hidle, hpeak, hheadroom, hsingle, hroom⟩
    refine ⟨⟨hidle, hpeak, hheadroom⟩, fun w hw hm hg => hsingle w hw ⟨hm, hg⟩, fun i hi => ?_⟩
    obtain ⟨hkv, hslots, hmeasured, hvram⟩ := hroom i (by omega)
    rw [hrequested i (by omega) (by omega), add_comm]
    exact ⟨hslots, hkv, hmeasured, hvram⟩

section active

variable (hactive : ∀ w ∈ workers, w.state ∈ [RuntimeState.loading, .ready, .draining])
include hactive

/-- A worker that both planners see has its weights on its GPUs. -/
theorem resident_of_active {w : WorkerPlacement} (hw : w ∈ workers) :
    w.state ∈ gpuResidentStates ∧ w.state ≠ .sleeping ∧ w.state ≠ .cold := by
  have hstate := hactive w hw
  cases hs : w.state <;> simp_all [gpuResidentStates]

theorem live_of_active : workers.filter (·.state ≠ .cold) = workers := by
  rw [List.filter_eq_self]
  intro w hw
  simpa using (resident_of_active hactive hw).2.2

theorem active_of_active (gpu : GpuUuid) : (workers.filter (gpu ∈ ·.gpuUuids)).filter (fun w =>
    some w.id ≠ none ∧ w.id ∉ ([] : List WorkerId) ∧ w.state ∈ gpuResidentStates) =
      workers.filter (gpu ∈ ·.gpuUuids) := by
  rw [List.filter_eq_self]
  intro w hw
  simpa using (resident_of_active hactive (List.mem_of_mem_filter hw)).1

theorem sleeping_of_active (gpu : GpuUuid) : (workers.filter (gpu ∈ ·.gpuUuids)).filter (fun w =>
    some w.id ≠ none ∧ (w.state = .sleeping ∨ w.id ∈ ([] : List WorkerId))) = [] := by
  rw [List.filter_eq_nil_iff]
  intro w hw
  simpa using (resident_of_active hactive (List.mem_of_mem_filter hw)).2.1

theorem fitsOn_iff (hcap : cfg.prismMaxWorkersPerGpu ≤ cfg.prismMaxCachedWorkersPerGpu) (gpu : GpuUuid) (i : ℕ) :
    fitsOn cfg profile workers none [] gpu i = true ↔ RoomBeside cfg profile workers gpu i := by
  unfold fitsOn
  simp only [active_of_active hactive, sleeping_of_active hactive, guard_eq_true, decide_eq_true_eq, not_lt,
    List.any_eq_true, Bool.not_eq_true', not_exists, not_and, Bool.not_eq_false, List.map_nil, List.sum_nil,
    add_zero]
  constructor
  · rintro ⟨hkv, -, hslots, hmeasured, hvram⟩
    exact ⟨hkv, by omega, hmeasured, hvram⟩
  · rintro ⟨hkv, hslots, hmeasured, hvram⟩
    exact ⟨hkv, by simp; omega, by omega, hmeasured, hvram⟩

end active

/-- **The two fit checks agree** on workers that are LOADING, READY or
DRAINING. -/
theorem prismFits_eq (cfg : PlannerConfig) (profile : PlacementProfile) (gpuSet : List GpuUuid)
    (workers : List WorkerPlacement) (hnodup : gpuSet.Nodup)
    (hactive : ∀ w ∈ workers, w.state ∈ [RuntimeState.loading, .ready, .draining])
    (hcap : cfg.prismMaxWorkersPerGpu ≤ cfg.prismMaxCachedWorkersPerGpu) :
    cachedPrismFits cfg profile gpuSet workers none [] = prismFits cfg profile gpuSet workers := by
  rw [Bool.eq_iff_iff, prismFits_iff hnodup]
  unfold cachedPrismFits
  simp only [guard_eq_true, live_of_active hactive, List.all_eq_true, List.forall_mem_iff_forall_getElem,
    List.getElem_zipIdx, List.length_zipIdx, zero_add, fitsOn_iff hactive hcap]
  simp only [not_or, not_not, List.any_eq_true, decide_eq_true_eq, not_exists, ne_eq, reduceCtorEq,
    not_false_eq_true, true_and]
  constructor
  · rintro ⟨⟨hidle, hpeak, hheadroom⟩, hsingle, hroom⟩
    exact ⟨hidle, hpeak, hheadroom, fun w hw h => hsingle w ⟨hw, h⟩, hroom⟩
  · rintro ⟨hidle, hpeak, hheadroom, hsingle, hroom⟩
    exact ⟨⟨hidle, hpeak, hheadroom⟩, fun w h => hsingle w h.1 h.2, hroom⟩

theorem prismFits_eq_leaving :
    cachedPrismFits oneGpuPlanner arriving ["gpu-0"] [leaving .ready] none [] =
      prismFits oneGpuPlanner arriving ["gpu-0"] [leaving .ready] :=
  prismFits_eq oneGpuPlanner arriving ["gpu-0"] [leaving .ready] (by decide) (by simp [leaving]) (by decide)

end Planner
end LlmRio
