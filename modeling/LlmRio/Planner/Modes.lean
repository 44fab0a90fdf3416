/-
# The other two modes of the planner

`GreedyPlacementPlanner.plan` chooses between three planners: the weight
cache's, prism without it (`_plan_prism`, engines share the VRAM of a GPU and
idle ones are drained), and the native one, in which every worker has its
GPUs for itself. The two latter see the workers that are LOADING, READY or
DRAINING.

Key definitions: `GreedyPlacementPlanner`, `planPrism`, `choosePrismEviction`,
`planNative`, `maximumSmallestPlacements`, `choosePreemption`.
Key theorems: `fillFree_disjoint`, `smallestFitting_eq_none`,
`mem_prismEvictionOptions`.
-/
import LlmRio.Planner.Searches

namespace LlmRio
namespace Planner

open Selection

/-- `GreedyPlacementPlanner`, with the settings that choose the mode. -/
structure GreedyPlacementPlanner extends PlannerConfig where
  waitDurationSeconds : ℚ
  prismEnabled : Bool := false
  prismWeightCacheEnabled : Bool := true
deriving Repr

/-- The workers that the native and the plain prism planner see. -/
def activeWorkers (workers : List WorkerPlacement) : List WorkerPlacement :=
  workers.filter (·.state ∈ [.loading, .ready, .draining])

/-- The workers of a model that serve it or are about to. -/
def residentWorkers (active : List WorkerPlacement) (m : ModelId) : List WorkerPlacement :=
  active.filter fun w => w.modelId = m ∧ w.state ∈ [.loading, .ready]

variable (cfg : PlannerConfig)

/-! ### Prism without the weight cache -/

/-- `_prism_fits` -/
def prismFits (profile : PlacementProfile) (gpuSet : List GpuUuid) (active : List WorkerPlacement) : Bool :=
  if profile.idleVramMibPerGpu.length ≠ gpuSet.length ∨ profile.peakVramMibPerGpu.length ≠ gpuSet.length ∨
      profile.gpuHeadroomMibPerGpu.length ≠ gpuSet.length then false
  else if active.any (fun w => w.modelId = profile.modelId ∧ w.gpuUuids = gpuSet) then false
  else (gpuSet.zip profile.idleVramMibPerGpu).all fun (gpu, requestedMib) =>
    let colocated := active.filter (gpu ∈ ·.gpuUuids)
    if cfg.prismMaxWorkersPerGpu ≤ colocated.length then false
    else if colocated.any (!·.profile.isKvcached) then false
    else if colocated.any (fun w => !measured w.profile (w.gpuUuids.idxOf gpu)) then false
    else
      let used := (colocated.map fun w => residentMib w.profile (w.gpuUuids.idxOf gpu)).sum
      let utilization := smallest profile.gpuMemoryUtilization
        (colocated.map (·.profile.gpuMemoryUtilization))
      -- the peak and the headroom are looked up at the first position of the GPU
      let requested := max requestedMib (profile.peakVramMibPerGpu.getD (gpuSet.idxOf gpu) 0) +
        profile.gpuHeadroomMibPerGpu.getD (gpuSet.idxOf gpu) 0
      requested + used ≤ budgetMib cfg gpu utilization

def smallestPrismFitting (profiles : List PlacementProfile) (all : List GpuUuid)
    (active : List WorkerPlacement) : Option (PlacementProfile × List GpuUuid) :=
  (sortedBy (fun p : PlacementProfile =>
      toLex (p.gpuCount, toLex (p.idleVramMibPerGpu.sum, -p.predictedTokensPerSecond))) profiles).findSome?
    fun p => (p.eligibleGpuSets.find? fun gpuSet =>
      within gpuSet all && prismFits cfg p gpuSet active).map fun gpuSet => (p, gpuSet)

section eviction

variable (now : Datetime) (all : List GpuUuid) (active : List WorkerPlacement) (pressure : QueuePressure)
  (realPressure : List ModelId)

/-- `blockers` in `_choose_prism_eviction` -/
def evictionBlockers (gpuSet : List GpuUuid) : List WorkerPlacement :=
  active.filter fun w =>
    w.modelId ≠ pressure.modelId ∧ w.state = .ready ∧ gpusMeet w.gpuUuids gpuSet ∧
      w.admittedRequestIds = [] ∧ residencySatisfied cfg w now ∧
      (w.modelId ∉ realPressure ∨ 1 < (residentWorkers active w.modelId).length ∨
        cfg.fairShareSeconds ≤ now - pressure.oldestEnqueuedAt)

/-- `options` in `_choose_prism_eviction` -/
def prismEvictionOptions (candidates : List PlacementProfile) : List (List WorkerPlacement) :=
  candidates.flatMap fun p => (p.eligibleGpuSets.filter fun gpuSet => within gpuSet all).flatMap fun gpuSet =>
    firstCount (evictionBlockers cfg now active pressure realPressure gpuSet) fun selected =>
      prismFits cfg p gpuSet (active.filter (· ∉ selected))

/-- How `_choose_prism_eviction` compares its options. -/
def evictionCost (selected : List WorkerPlacement) : ℕ ×ₗ ℚ :=
  toLex (selected.length, (selected.map (·.profile.predictedTokensPerSecond)).sum)

def choosePrismEviction (candidates : List PlacementProfile) : Option (List WorkerPlacement) :=
  minBy evictionCost (prismEvictionOptions cfg now all active pressure realPressure candidates)

end eviction

section prism

variable (now : Datetime) (all : List GpuUuid) (active : List WorkerPlacement) (realPressure : List ModelId)

/-- One turn of the loop of `_plan_prism`; `none` goes on to the next pressure. -/
def planPrismFor (profiles : ModelId → List PlacementProfile) (pressure : QueuePressure) :
    Option (List PlannerAction) :=
  let modelWorkers := residentWorkers active pressure.modelId
  let candidates := cacheable profiles pressure.modelId
  if candidates = [] then none
  else if modelWorkers = [] then
    match smallestPrismFitting cfg candidates all active with
    | some (profile, gpuSet) =>
      some [.start profile gpuSet (if pressure.preload then "prism_preload" else "prism_cold_backlog")]
    | none =>
      if pressure.preload then none
      else match choosePrismEviction cfg now all active pressure realPressure candidates with
        | some (w :: ws) => some ((w :: ws).map fun v => .drain v.id "prism_weight_capacity")
        | _ => none
  else if pressure.preload ∨ modelWorkers.any (·.state = .loading) then none
  else
    let ready := modelWorkers.filter (·.state = .ready)
    let capacity := (ready.map fun w => w.profile.predictedTokensPerSecond * cfg.scaleWindowSeconds).sum
    if desired pressure capacity ≤ modelWorkers.length then none
    else match smallestPrismFitting cfg candidates all active with
      | some (profile, gpuSet) =>
        if replicaHasUsefulMargin cfg profile ready then some [.start profile gpuSet "prism_replica_backlog"]
        else none
      | none => none

end prism

def planPrism (now : Datetime) (all : List GpuUuid) (workers : List WorkerPlacement)
    (pressures : List QueuePressure) (profiles : ModelId → List PlacementProfile) : List PlannerAction :=
  ((sortedBy (fun q : QueuePressure => toLex (q.preload, q.oldestEnqueuedAt)) pressures).findSome?
    (planPrismFor cfg now all (activeWorkers workers) (realModels pressures) profiles)).getD []

/-! ### The native planner -/

def smallestFitting (profiles : List PlacementProfile) (free : List GpuUuid) :
    Option (PlacementProfile × List GpuUuid) :=
  (sortedBy (fun p : PlacementProfile => toLex (p.gpuCount, -p.predictedTokensPerSecond)) profiles).findSome?
    fun p => (p.eligibleGpuSets.find? fun gpuSet => within gpuSet free).map fun gpuSet => (p, gpuSet)

/-- The loop of `_maximum_smallest_placements`. Each turn but the last takes
at least one GPU, as no set of a profile is empty, so that one more turn than
there are GPUs is enough (`fillFree_maximal`). -/
def fillFree (candidates : List PlacementProfile) : ℕ → List GpuUuid → List (PlacementProfile × List GpuUuid)
  | 0, _ => []
  | fuel + 1, remaining =>
    match smallestFitting candidates remaining with
    | none => []
    | some (p, gpuSet) => (p, gpuSet) :: fillFree candidates fuel (remaining.filter (· ∉ gpuSet))

/-- `min(profile.gpu_count for profile in profiles)` -/
def smallestGpuCount (profiles : List PlacementProfile) : ℕ :=
  match profiles.map (·.gpuCount) with
  | [] => 0
  | n :: ns => smallest n ns

def maximumSmallestPlacements (profiles : List PlacementProfile) (free : List GpuUuid) :
    List (PlacementProfile × List GpuUuid) :=
  fillFree (profiles.filter (·.gpuCount = smallestGpuCount profiles)) (free.length + 1) free

section preemption

variable (now : Datetime) (workers : List WorkerPlacement) (pressure : QueuePressure) (pressured : List ModelId)

/-- `compatible_gpus` -/
def compatibleGpus (candidates : List PlacementProfile) : List GpuUuid :=
  (candidates.filter (·.gpuCount = smallestGpuCount candidates)).flatMap fun p => p.eligibleGpuSets.flatten

/-- `idle_blockers` -/
def idleBlockers (candidates : List PlacementProfile) : List WorkerPlacement :=
  workers.filter fun w =>
    w.modelId ∉ pressured ∧ w.admittedRequestIds = [] ∧ residencySatisfied cfg w now ∧
      gpusMeet w.gpuUuids (compatibleGpus candidates)

/-- `starvation_override`: the pressure has waited for its share since it came
and since the worker became READY. -/
def starvationOverride (w : WorkerPlacement) : Bool :=
  cfg.fairShareSeconds ≤ now - max pressure.oldestEnqueuedAt (w.readyAt.getD now)

/-- The loop over the blockers of a set, with `selected_counts`. -/
def drainable (residents : ModelId → ℕ) : (ModelId → ℕ) → List WorkerPlacement → Bool
  | _, [] => true
  | counts, w :: ws =>
    if w.modelId ∉ pressured then drainable residents counts ws
    else if starvationOverride cfg now pressure w then drainable residents counts ws
    else if ¬ residencySatisfied cfg w now then false
    else if (residents w.modelId : ℤ) - counts w.modelId - 1 < 1 then false
    else drainable residents (Function.update counts w.modelId (counts w.modelId + 1)) ws

/-- The blockers of `required_set`, if it can be drained. -/
def drainFor (requiredSet : List GpuUuid) : Option (List WorkerPlacement) :=
  let blockers := workers.filter fun w => gpusMeet w.gpuUuids requiredSet
  if blockers.any (·.modelId = pressure.modelId) then none
  else if blockers.any (·.modelId ∉ pressured) then none
  else if blockers = [] ∨ blockers.any (·.state = .draining) then none
  else if drainable cfg now pressure pressured (fun m => (residentWorkers workers m).length) (fun _ => 0) blockers then
    some (sortedBy (fun w : WorkerPlacement =>
      toLex (decide (w.modelId ∈ pressured), w.profile.predictedTokensPerSecond)) blockers)
  else none

def choosePreemption (candidates : List PlacementProfile) : Option (List WorkerPlacement) :=
  let idle := idleBlockers cfg now workers pressured candidates
  if idle ≠ [] then some (sortedBy (fun w : WorkerPlacement => w.profile.predictedTokensPerSecond) idle)
  else (sortedBy (fun p : PlacementProfile => p.gpuCount) candidates).findSome? fun p =>
    p.eligibleGpuSets.findSome? (drainFor cfg now workers pressure pressured)

end preemption

section native

variable (now : Datetime) (free : List GpuUuid) (active : List WorkerPlacement) (pressured : List ModelId)

/-- A plan that drains, or none. -/
def drains (reason : String) : Option (List WorkerPlacement) → Option (List PlannerAction)
  | none => none
  | some [] => none
  | some blockers => some (blockers.map fun w => .drain w.id reason)

/-- One turn of the loop of the native planner. -/
def planNativeFor (profiles : ModelId → List PlacementProfile) (pressure : QueuePressure) :
    Option (List PlannerAction) :=
  let modelWorkers := residentWorkers active pressure.modelId
  let candidates := profiles pressure.modelId
  if candidates = [] then none
  else if modelWorkers = [] then
    match maximumSmallestPlacements candidates free with
    | [] => drains "incompatible_backlog" (choosePreemption cfg now active pressure pressured candidates)
    | starts => some (starts.map fun (profile, gpuSet) => .start profile gpuSet "cold_backlog")
  else
    let ready := modelWorkers.filter (·.state = .ready)
    let oneGpuProfiles := candidates.filter (·.gpuCount = 1)
    if ready = [] ∨ oneGpuProfiles = [] then none
    else
      let capacity := (ready.map fun w => w.profile.predictedTokensPerSecond * cfg.scaleWindowSeconds).sum
      let wanted := desired pressure capacity
      if wanted ≤ modelWorkers.length then none
      else
        let starts := maximumSmallestPlacements oneGpuProfiles free
        let useful := (starts.take (wanted - modelWorkers.length).toNat).filter fun (profile, _) =>
          replicaHasUsefulMargin cfg profile ready
        if useful ≠ [] then some (useful.map fun (profile, gpuSet) => .start profile gpuSet "replica_backlog")
        else if starts = [] then
          drains "replica_capacity" (choosePreemption cfg now active pressure pressured candidates)
        else none

end native

/-- `free` -/
def freeGpus (all : List GpuUuid) (workers : List WorkerPlacement) : List GpuUuid :=
  all.filter fun gpu => ∀ w ∈ activeWorkers workers, gpu ∉ w.gpuUuids

namespace GreedyPlacementPlanner

variable (planner : GreedyPlacementPlanner) (now : Datetime) (all : List GpuUuid) (workers : List WorkerPlacement)
  (pressures : List QueuePressure) (profiles : ModelId → List PlacementProfile)

/-- `idle_workers` of the native planner -/
def idleWorkers : List WorkerPlacement :=
  (activeWorkers workers).filter fun w =>
    w.state = .ready ∧ w.modelId ∉ pressures.map (·.modelId) ∧ w.admittedRequestIds = [] ∧
      planner.waitDurationSeconds ≤ now - w.lastDemandAt ∧ residencySatisfied planner.toPlannerConfig w now

/-- The native part of `plan`. -/
def planNative : List PlannerAction :=
  if planner.idleWorkers now workers pressures ≠ [] then
    (planner.idleWorkers now workers pressures).map fun w => .drain w.id "idle_timeout"
  else
    ((sortedBy (fun q : QueuePressure => q.oldestEnqueuedAt) pressures).findSome?
      (planNativeFor planner.toPlannerConfig now (freeGpus all workers) (activeWorkers workers)
        (pressures.map (·.modelId)) profiles)).getD []

/-- `GreedyPlacementPlanner.plan` -/
def plan : List PlannerAction :=
  if planner.prismEnabled then
    if planner.prismWeightCacheEnabled then
      Planner.plan planner.toPlannerConfig now all workers pressures profiles
    else planPrism planner.toPlannerConfig now all workers pressures profiles
  else planner.planNative now all workers pressures profiles

end GreedyPlacementPlanner

/-! ### What they find -/

variable {cfg} {now : Datetime} {all free : List GpuUuid} {active workers : List WorkerPlacement}
  {pressure : QueuePressure} {realPressure pressured : List ModelId}

theorem smallest_prism_fitting {profiles : List PlacementProfile} {p : PlacementProfile} {gpuSet : List GpuUuid}
    (h : smallestPrismFitting cfg profiles all active = some (p, gpuSet)) :
    p ∈ profiles ∧ gpuSet ∈ p.eligibleGpuSets ∧ within gpuSet all = true ∧ prismFits cfg p gpuSet active = true := by
  obtain ⟨hp, hset, hfits⟩ := firstPair_eq_some h
  rw [Bool.and_eq_true] at hfits
  exact ⟨mem_sortedBy.mp hp, hset, hfits⟩

theorem smallest_free_fitting {profiles : List PlacementProfile} {p : PlacementProfile} {gpuSet : List GpuUuid}
    (h : smallestFitting profiles free = some (p, gpuSet)) :
    p ∈ profiles ∧ gpuSet ∈ p.eligibleGpuSets ∧ within gpuSet free = true := by
  obtain ⟨hp, hset, hin⟩ := firstPair_eq_some h
  exact ⟨mem_sortedBy.mp hp, hset, hin⟩

theorem smallestFree_isSome {profiles : List PlacementProfile} : (smallestFitting profiles free).isSome = true ↔
    ∃ p ∈ profiles, ∃ gpuSet ∈ p.eligibleGpuSets, within gpuSet free = true := by
  unfold smallestFitting
  rw [firstPair_isSome]
  simp only [mem_sortedBy]

theorem within_iff {gpuSet : List GpuUuid} : within gpuSet free = true ↔ ∀ gpu ∈ gpuSet, gpu ∈ free := by
  simp [within]

/-- Each placement of the loop is one of a candidate, on GPUs that were free. -/
theorem mem_fillFree {candidates : List PlacementProfile} : ∀ {fuel : ℕ} {free : List GpuUuid}
    {p : PlacementProfile} {gpuSet : List GpuUuid}, (p, gpuSet) ∈ fillFree candidates fuel free →
      p ∈ candidates ∧ gpuSet ∈ p.eligibleGpuSets ∧ within gpuSet free = true
  | 0, _, _, _, h => by cases h
  | fuel + 1, free, p, gpuSet, h => by
    rw [fillFree] at h
    split at h
    · cases h
    · rename_i p' gpuSet' hfit
      rcases List.mem_cons.mp h with heq | hrest
      · cases heq
        exact smallest_free_fitting hfit
      · obtain ⟨hp, hset, hin⟩ := mem_fillFree hrest
        refine ⟨hp, hset, within_iff.mpr fun gpu hgpu => ?_⟩
        exact List.mem_of_mem_filter (within_iff.mp hin gpu hgpu)

/-- No GPU is placed twice. -/
theorem fillFree_disjoint {candidates : List PlacementProfile} : ∀ (fuel : ℕ) (free : List GpuUuid),
    (fillFree candidates fuel free).Pairwise fun a b => gpusMeet a.2 b.2 = false
  | 0, _ => List.Pairwise.nil
  | fuel + 1, free => by
    rw [fillFree]
    split
    · exact List.Pairwise.nil
    · rename_i p gpuSet hfit
      refine List.pairwise_cons.mpr ⟨fun b hb => ?_, fillFree_disjoint fuel _⟩
      obtain ⟨-, -, hin⟩ := mem_fillFree (p := b.1) hb
      rw [Bool.eq_false_iff, ne_eq, gpusMeet_iff]
      rintro ⟨gpu, hgpu, hb⟩
      have hleft := List.of_mem_filter (within_iff.mp hin gpu hb)
      rw [decide_eq_true_eq] at hleft
      exact hleft hgpu

/-- A placement takes at least one of the free GPUs. -/
theorem filter_lt_of_fitting {candidates : List PlacementProfile}
    (hne : ∀ p ∈ candidates, ∀ gpuSet ∈ p.eligibleGpuSets, gpuSet ≠ []) {p : PlacementProfile}
    {gpuSet : List GpuUuid} (h : smallestFitting candidates free = some (p, gpuSet)) :
    (free.filter (· ∉ gpuSet)).length < free.length := by
  obtain ⟨hp, hset, hin⟩ := smallest_free_fitting h
  obtain ⟨gpu, hgpu⟩ := List.exists_mem_of_ne_nil _ (hne p hp gpuSet hset)
  apply List.length_filter_lt_length_iff_exists.mpr
  exact ⟨gpu, within_iff.mp hin gpu hgpu, by simpa using hgpu⟩

/-- The loop ends because nothing more fits: its turns are enough. -/
theorem fillFree_maximal {candidates : List PlacementProfile}
    (hne : ∀ p ∈ candidates, ∀ gpuSet ∈ p.eligibleGpuSets, gpuSet ≠ []) : ∀ {fuel : ℕ} {free : List GpuUuid},
      free.length < fuel → smallestFitting candidates
        (free.filter fun gpu => ∀ start ∈ fillFree candidates fuel free, gpu ∉ start.2) = none
  | 0, _, h => by omega
  | fuel + 1, free, h => by
    rw [fillFree]
    cases hfit : smallestFitting candidates free with
    | none => simpa using hfit
    | some start =>
      obtain ⟨p, gpuSet⟩ := start
      have hless := filter_lt_of_fitting hne hfit
      have ih := fillFree_maximal hne (show (free.filter (· ∉ gpuSet)).length < fuel by omega)
      rw [List.filter_filter] at ih
      rw [← ih]
      congr 1
      apply List.filter_congr
      intro g _
      rw [← Bool.decide_and, decide_eq_decide, List.forall_mem_cons, and_comm]

theorem placements_eq_nil {profiles : List PlacementProfile} : maximumSmallestPlacements profiles free = [] ↔
    ¬ ∃ p ∈ profiles, p.gpuCount = smallestGpuCount profiles ∧
      ∃ gpuSet ∈ p.eligibleGpuSets, within gpuSet free = true := by
  have hsome := @smallestFree_isSome free (profiles.filter (·.gpuCount = smallestGpuCount profiles))
  simp only [List.mem_filter, decide_eq_true_eq, and_assoc] at hsome
  rw [← hsome, maximumSmallestPlacements, fillFree]
  split
  · rename_i hnone
    simp [hnone]
  · rename_i hfit
    simp [hfit]

theorem mem_prismEvictionOptions {candidates : List PlacementProfile} {selected : List WorkerPlacement} :
    selected ∈ prismEvictionOptions cfg now all active pressure realPressure candidates ↔
      ∃ p ∈ candidates, ∃ gpuSet ∈ p.eligibleGpuSets, within gpuSet all = true ∧
        selected ∈ firstCount (evictionBlockers cfg now active pressure realPressure gpuSet) fun selected =>
          prismFits cfg p gpuSet (active.filter (· ∉ selected)) := by
  simp [prismEvictionOptions, and_assoc]

/-- The sets that `_choose_preemption` tries to drain, in order. -/
def requiredSets (candidates : List PlacementProfile) : List (List GpuUuid) :=
  (sortedBy (fun p : PlacementProfile => p.gpuCount) candidates).flatMap (·.eligibleGpuSets)

theorem choosePreemption_of_idle {candidates : List PlacementProfile}
    (h : idleBlockers cfg now workers pressured candidates ≠ []) :
    choosePreemption cfg now workers pressure pressured candidates =
      some (sortedBy (fun w : WorkerPlacement => w.profile.predictedTokensPerSecond)
        (idleBlockers cfg now workers pressured candidates)) :=
  if_pos h

theorem choosePreemption_of_busy {candidates : List PlacementProfile}
    (h : idleBlockers cfg now workers pressured candidates = []) :
    choosePreemption cfg now workers pressure pressured candidates =
      (requiredSets candidates).findSome? (drainFor cfg now workers pressure pressured) := by
  unfold choosePreemption requiredSets
  simp only [h]
  rw [if_neg (by simp), findSome_flatMap]

end Planner
end LlmRio
