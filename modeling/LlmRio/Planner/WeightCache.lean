/-
# The weight-cache planner

`GreedyPlacementPlanner.plan` with prism and the weight cache enabled
(`_plan_prism_weight_cache`): the pressures in order, and for each what can
be placed on the GPUs as they are (a start, wakes), or what has to make room
first (sleeps, drains). The actions of one plan come from one pressure.

Scores and capacities are exact rationals, where the source has floats.

Key definitions: `plan`, `cachedWakes`, `firstCachedWake`,
`smallestCachedPrismFitting`.
Key theorems: `plan_placement`, `smallest_fitting`, `first_cached_wake`.
-/
import LlmRio.Planner.Vram
import Mathlib.Data.String.Basic

namespace LlmRio
namespace Planner

open Selection

structure QueuePressure where
  modelId : ModelId
  requests : ℤ
  estimatedTokens : ℤ
  oldestEnqueuedAt : Datetime
  preload : Bool := false
  desiredWorkers : ℕ := 1
deriving Repr

inductive PlannerAction
  | start (profile : PlacementProfile) (gpuUuids : List GpuUuid) (reason : String)
  | drain (workerId : WorkerId) (reason : String)
  | sleep (workerId : WorkerId) (reason : String)
  | wake (workerId : WorkerId) (reason : String)
deriving DecidableEq, Repr

variable (cfg : PlannerConfig)

def residencySatisfied (w : WorkerPlacement) (now : Datetime) : Bool :=
  if cfg.minimumResidencySeconds = 0 then true
  else match w.readyAt with
    | none => false
    | some readyAt => cfg.minimumResidencySeconds ≤ now - readyAt

def replicaHasUsefulMargin (profile : PlacementProfile) (ready : List WorkerPlacement) : Bool :=
  let current := (ready.map (·.profile.predictedTokensPerSecond)).sum
  if current ≤ 0 then true else cfg.minimumMarginalEfficiency ≤ profile.predictedTokensPerSecond / current

/-- The workers for which a demand of the pressure's size asks. -/
def desired (pressure : QueuePressure) (capacity : ℚ) : ℤ :=
  min (max pressure.requests 1) (max 1 ⌈(pressure.estimatedTokens : ℚ) / max capacity 1⌉)

/-- `set(gpu_set) <= all_gpu_uuids` -/
def within (gpuSet all : List GpuUuid) : Bool := gpuSet.all (· ∈ all)

/-! ### What fits as it is -/

def firstCachedWake (sleeping : List WorkerPlacement) (all : List GpuUuid) (live : List WorkerPlacement) :
    Option WorkerPlacement :=
  (sortedBy (fun w : WorkerPlacement =>
      toLex (w.lastActivationSeconds.getD w.profile.loadAndWarmupSeconds, w.lastDemandAt)) sleeping).find?
    fun w => within w.gpuUuids all && cachedPrismFits cfg w.profile w.gpuUuids live (some w.id) []

/-- `_cached_wakes`, with as much fuel as there are workers left. -/
def cachedWakes (all : List GpuUuid) : ℕ → List WorkerPlacement → List WorkerPlacement → ℤ → List WorkerPlacement
  | 0, _, _, _ => []
  | fuel + 1, remaining, projected, limit =>
    if limit ≤ 0 then []
    else match firstCachedWake cfg remaining all projected with
      | none => []
      | some w => w :: cachedWakes all fuel (remaining.filter (·.id ≠ w.id))
          (Table.modify WorkerPlacement.id w.id (·.waking) projected) (limit - 1)

def smallestCachedPrismFitting (profiles : List PlacementProfile) (all : List GpuUuid)
    (workers : List WorkerPlacement) : Option (PlacementProfile × List GpuUuid) :=
  (sortedBy (fun p : PlacementProfile =>
      toLex (p.gpuCount, toLex (p.idleVramMibPerGpu.sum, -p.predictedTokensPerSecond))) profiles).findSome?
    fun p => (p.eligibleGpuSets.find? fun gpuSet =>
      within gpuSet all && cachedPrismFits cfg p gpuSet workers none []).map fun gpuSet => (p, gpuSet)

/-! ### What makes room -/

/-- The first size of a selection that has options, and these options. -/
def firstCount (xs : List WorkerPlacement) (ok : List WorkerPlacement → Bool) : List (List WorkerPlacement) :=
  ((List.range' 1 xs.length).findSome? fun count =>
    let found := (combinations count xs).filter ok
    if found = [] then none else some found).getD []

def choosePrismSleep (now : Datetime) (candidates : List PlacementProfile) (all : List GpuUuid)
    (workers : List WorkerPlacement) (pressure : QueuePressure) (realPressure : List ModelId)
    (existingWorkers : Option (List WorkerPlacement)) : Option (List WorkerPlacement) :=
  let residentCount := fun m => workers.countP fun w => w.state = .ready ∧ w.modelId = m
  let incomingStarved := cfg.fairShareSeconds ≤ now - pressure.oldestEnqueuedAt
  let placements : List (PlacementProfile × List GpuUuid × Option WorkerId) :=
    match existingWorkers with
    | none => candidates.flatMap fun p => p.eligibleGpuSets.map fun gpuSet => (p, gpuSet, none)
    | some existing => (existing.filter fun w => w.profile.id ∈ candidates.map (·.id)).map fun w =>
        (w.profile, w.gpuUuids, some w.id)
  let options := (placements.filter fun (_, gpuSet, _) => within gpuSet all).flatMap
    fun (profile, gpuSet, existing) =>
      let blockers := workers.filter fun w =>
        w.modelId ≠ pressure.modelId ∧ w.state = .ready ∧ gpusMeet w.gpuUuids gpuSet ∧
          w.admittedRequestIds = [] ∧ residencySatisfied cfg w now ∧
          (w.modelId ∉ realPressure ∨ 1 < residentCount w.modelId ∨ incomingStarved)
      firstCount blockers fun selected =>
        cachedPrismFits cfg profile gpuSet workers existing (selected.map (·.id))
  minBy (fun selected : List WorkerPlacement =>
    toLex (selected.length, toLex ((selected.map (·.profile.predictedTokensPerSecond)).sum,
      (selected.map (·.lastDemandAt)).sum))) options

def choosePrismCacheEviction (candidates : List PlacementProfile) (all : List GpuUuid)
    (workers : List WorkerPlacement) (realPressure : List ModelId) : Option (List WorkerPlacement) :=
  let options := candidates.flatMap fun p =>
    (p.eligibleGpuSets.filter fun gpuSet => within gpuSet all).flatMap fun gpuSet =>
      let evictable := workers.filter fun w =>
        w.state = .sleeping ∧ w.modelId ∉ realPressure ∧ w.modelId ≠ p.modelId ∧ gpusMeet w.gpuUuids gpuSet
      firstCount evictable fun selected =>
        cachedPrismFits cfg p gpuSet (workers.filter (·.id ∉ selected.map (·.id))) none []
  minBy (fun selected : List WorkerPlacement =>
    toLex (selected.length, toLex ((selected.map (·.lastDemandAt)).foldl max
        ((selected.map (·.lastDemandAt)).headD 0), sortedBy id (selected.map (·.id))))) options

/-! ### The plan -/

/-- The states in which a worker is on its way to another one. -/
def transitioningStates : List RuntimeState := [.loading, .draining, .offloading, .waking]

/-- A plan that makes room, or none. -/
def sleeps (reason : String) : Option (List WorkerPlacement) → Option (List PlannerAction)
  | none => none
  | some [] => none
  | some blockers => some (blockers.map fun w => .sleep w.id reason)

section pressures

variable (now : Datetime) (all : List GpuUuid) (live : List WorkerPlacement) (realPressure : List ModelId)

/-- `model_workers` -/
def modelWorkers (m : ModelId) : List WorkerPlacement := live.filter (·.modelId = m)

/-- `transitioning` is not empty. -/
def transitioning (m : ModelId) : Bool := (modelWorkers live m).any (·.state ∈ transitioningStates)

/-- `ready_workers` -/
def readyWorkers (m : ModelId) : List WorkerPlacement := (modelWorkers live m).filter (·.state = .ready)

/-- `sleeping_workers` -/
def sleepingWorkers (m : ModelId) (candidates : List PlacementProfile) : List WorkerPlacement :=
  (modelWorkers live m).filter fun w => w.state = .sleeping ∧ w.profile.id ∈ candidates.map (·.id)

/-- The profiles of the model that the weight cache may place. -/
def cacheable (profiles : ModelId → List PlacementProfile) (m : ModelId) : List PlacementProfile :=
  (profiles m).filter (·.isKvcached)

/-- A preload of several workers takes a GPU for each. -/
def preloadCandidates (pressure : QueuePressure) (candidates : List PlacementProfile) : List PlacementProfile :=
  if 1 < pressure.desiredWorkers then candidates.filter (·.gpuCount = 1) else candidates

/-- A preload pressure. -/
def planPreload (pressure : QueuePressure) (candidates : List PlacementProfile) : Option (List PlannerAction) :=
  if pressure.desiredWorkers ≤ (modelWorkers live pressure.modelId).length then none
  else if transitioning live pressure.modelId then none
  else if preloadCandidates pressure candidates = [] then none
  else
    match smallestCachedPrismFitting cfg (preloadCandidates pressure candidates) all live with
    | some (profile, gpuSet) => some [.start profile gpuSet "prism_preload"]
    | none => sleeps "prism_weight_capacity"
        (choosePrismSleep cfg now (preloadCandidates pressure candidates) all live pressure realPressure none)

/-- A model without a READY worker, but with SLEEPING ones. -/
def planCached (pressure : QueuePressure) (sleeping : List WorkerPlacement) : Option (List PlannerAction) :=
  let perWorker := sleeping.map fun w => w.profile.predictedTokensPerSecond * cfg.scaleWindowSeconds
  let capacity := perWorker.foldl max (perWorker.headD 0)
  match cachedWakes cfg all sleeping.length sleeping live (desired pressure capacity) with
  | [] => sleeps "prism_weight_capacity" (choosePrismSleep cfg now (sleeping.map (·.profile)) all live
      pressure realPressure (some sleeping))
  | w :: ws => some (.wake w.id "prism_ram_cache_hit" ::
      ws.map fun v => .wake v.id "prism_replica_ram_cache_hit")

/-- A model without a READY and without a SLEEPING worker. -/
def planCold (pressure : QueuePressure) (candidates : List PlacementProfile) : Option (List PlannerAction) :=
  match smallestCachedPrismFitting cfg candidates all live with
  | some (profile, gpuSet) => some [.start profile gpuSet "prism_cold_backlog"]
  | none =>
    match sleeps "prism_weight_capacity"
        (choosePrismSleep cfg now candidates all live pressure realPressure none) with
    | some actions => some actions
    | none =>
      match choosePrismCacheEviction cfg candidates all live realPressure with
      | some (w :: ws) => some ((w :: ws).map fun v => .drain v.id "prism_ram_cache_lru")
      | _ => none

/-- A model with READY workers that asks for another one. -/
def planReplica (pressure : QueuePressure) (candidates : List PlacementProfile)
    (ready sleeping : List WorkerPlacement) : Option (List PlannerAction) :=
  let capacity := (ready.map fun w => w.profile.predictedTokensPerSecond * cfg.scaleWindowSeconds).sum
  if desired pressure capacity ≤ ready.length then none
  else
    let oneGpuCandidates := candidates.filter (·.gpuCount = 1)
    let oneGpuSleeping := sleeping.filter (·.profile.gpuCount = 1)
    if oneGpuCandidates = [] then none
    else match firstCachedWake cfg oneGpuSleeping all live with
      | some w => some [.wake w.id "prism_replica_ram_cache_hit"]
      | none =>
        let blockers := sleeps "prism_replica_capacity"
          (choosePrismSleep cfg now oneGpuCandidates all live pressure realPressure none)
        match smallestCachedPrismFitting cfg oneGpuCandidates all live with
        | some (profile, gpuSet) =>
          if replicaHasUsefulMargin cfg profile ready then some [.start profile gpuSet "prism_replica_backlog"]
          else blockers
        | none => blockers

/-- One turn of the loop; `none` goes on to the next pressure. -/
def planFor (profiles : ModelId → List PlacementProfile) (pressure : QueuePressure) :
    Option (List PlannerAction) :=
  let candidates := cacheable profiles pressure.modelId
  if candidates = [] then none
  else if pressure.preload then planPreload cfg now all live realPressure pressure candidates
  else if transitioning live pressure.modelId then none
  else
    let ready := readyWorkers live pressure.modelId
    let sleeping := sleepingWorkers live pressure.modelId candidates
    if ready = [] then
      if sleeping ≠ [] then planCached cfg now all live realPressure pressure sleeping
      else planCold cfg now all live realPressure pressure candidates
    else planReplica cfg now all live realPressure pressure candidates ready sleeping

end pressures

/-- `live_workers` -/
def liveWorkers (workers : List WorkerPlacement) : List WorkerPlacement :=
  workers.filter (·.state ∉ [.cold, .stopping])

def plan (now : Datetime) (all : List GpuUuid) (workers : List WorkerPlacement)
    (pressures : List QueuePressure) (profiles : ModelId → List PlacementProfile) : List PlannerAction :=
  let live := liveWorkers workers
  let realPressure := (pressures.filter (! ·.preload)).map (·.modelId)
  let idle := live.filter fun w =>
    w.state = .ready ∧ w.modelId ∉ realPressure ∧ w.admittedRequestIds = [] ∧
      cfg.prismIdleSleepSeconds ≤ now - w.lastDemandAt ∧ residencySatisfied cfg w now
  if idle ≠ [] then idle.map fun w => .sleep w.id "prism_idle_weight_cache"
  else
    ((sortedBy (fun q : QueuePressure => toLex (q.preload, q.oldestEnqueuedAt)) pressures).findSome?
      (planFor cfg now all live realPressure profiles)).getD []

/-! ### What a plan can be -/

variable {cfg} {all : List GpuUuid} {live : List WorkerPlacement}

theorem first_cached_wake {sleeping : List WorkerPlacement} {w : WorkerPlacement}
    (h : firstCachedWake cfg sleeping all live = some w) :
    w ∈ sleeping ∧ within w.gpuUuids all = true ∧
      cachedPrismFits cfg w.profile w.gpuUuids live (some w.id) [] = true := by
  unfold firstCachedWake at h
  have hmem := mem_sortedBy.mp (List.mem_of_find?_eq_some h)
  have hfits := List.find?_some h
  rw [Bool.and_eq_true] at hfits
  exact ⟨hmem, hfits⟩

theorem cachedWakes_cons {fuel : ℕ} {remaining projected ws : List WorkerPlacement} {limit : ℤ}
    {w : WorkerPlacement} (h : cachedWakes cfg all fuel remaining projected limit = w :: ws) :
    ∃ fuel', fuel = fuel' + 1 ∧ 0 < limit ∧ firstCachedWake cfg remaining all projected = some w ∧
      cachedWakes cfg all fuel' (remaining.filter (·.id ≠ w.id))
        (Table.modify WorkerPlacement.id w.id (·.waking) projected) (limit - 1) = ws := by
  cases fuel with
  | zero => cases h
  | succ fuel =>
    unfold cachedWakes at h
    split at h
    · cases h
    · rename_i hlimit
      split at h
      · cases h
      · rename_i v hv
        cases h
        exact ⟨fuel, rfl, not_le.mp hlimit, hv, rfl⟩

theorem smallest_fitting {profiles : List PlacementProfile} {p : PlacementProfile} {gpuSet : List GpuUuid}
    (h : smallestCachedPrismFitting cfg profiles all live = some (p, gpuSet)) :
    p ∈ profiles ∧ gpuSet ∈ p.eligibleGpuSets ∧ within gpuSet all = true ∧
      cachedPrismFits cfg p gpuSet live none [] = true := by
  obtain ⟨hp, hset, hfits⟩ := firstPair_eq_some h
  rw [Bool.and_eq_true] at hfits
  exact ⟨mem_sortedBy.mp hp, hset, hfits⟩

/-- The action neither starts nor wakes a worker. -/
def PlannerAction.makesRoom : PlannerAction → Prop
  | .start .. | .wake .. => False
  | .drain .. | .sleep .. => True

/-- The worker that the action wakes. -/
def PlannerAction.wakes : PlannerAction → Option WorkerId
  | .wake id _ => some id
  | _ => none

/-- What the actions for a pressure can be: they make room, start the first
placement that fits, or wake SLEEPING workers of the model. -/
inductive Placement (cfg : PlannerConfig) (all : List GpuUuid) (live : List WorkerPlacement)
    (candidates : List PlacementProfile) (m : ModelId) : List PlannerAction → Prop
  | room (actions : List PlannerAction) (h : ∀ a ∈ actions, a.makesRoom) : Placement cfg all live candidates m actions
  | started (profiles : List PlacementProfile) (hsub : ∀ p ∈ profiles, p ∈ candidates) (p : PlacementProfile)
      (gpuSet : List GpuUuid) (reason : String)
      (h : smallestCachedPrismFitting cfg profiles all live = some (p, gpuSet)) :
      Placement cfg all live candidates m [.start p gpuSet reason]
  | woken (hquiet : transitioning live m = false) (hready : readyWorkers live m = []) (limit : ℤ)
      (actions : List PlannerAction)
      (h : actions.map (·.wakes) = (cachedWakes cfg all (sleepingWorkers live m candidates).length
        (sleepingWorkers live m candidates) live limit).map fun w => some w.id) :
      Placement cfg all live candidates m actions
  | replica (hquiet : transitioning live m = false) (hready : readyWorkers live m ≠ [])
      (hone : candidates.filter (·.gpuCount = 1) ≠ []) (w : WorkerPlacement) (reason : String)
      (h : firstCachedWake cfg ((sleepingWorkers live m candidates).filter (·.profile.gpuCount = 1)) all live =
        some w) : Placement cfg all live candidates m [.wake w.id reason]

theorem sleeps_room {reason : String} {blockers : Option (List WorkerPlacement)} {actions : List PlannerAction}
    (h : sleeps reason blockers = some actions) : ∀ a ∈ actions, a.makesRoom := by
  unfold sleeps at h
  split at h
  · cases h
  · cases h
  · cases h
    intro a ha
    obtain ⟨w, -, rfl⟩ := List.mem_map.mp ha
    trivial

variable {now : Datetime} {realPressure : List ModelId} {pressure : QueuePressure}
  {candidates : List PlacementProfile} {actions : List PlannerAction} {m : ModelId}

theorem mem_preloadCandidates {p : PlacementProfile} (h : p ∈ preloadCandidates pressure candidates) :
    p ∈ candidates := by
  unfold preloadCandidates at h
  split at h
  · exact List.mem_of_mem_filter h
  · exact h

theorem planPreload_placement
    (h : planPreload cfg now all live realPressure pressure candidates = some actions) :
    Placement cfg all live candidates m actions := by
  unfold planPreload at h
  split at h
  · cases h
  · split at h
    · cases h
    · split at h
      · cases h
      · split at h
        · rename_i p gpuSet hfit
          cases h
          exact .started _ (fun c hc => mem_preloadCandidates hc) p gpuSet _ hfit
        · exact .room actions (sleeps_room h)

theorem planCached_placement (hquiet : transitioning live m = false) (hready : readyWorkers live m = [])
    (h : planCached cfg now all live realPressure pressure (sleepingWorkers live m candidates) = some actions) :
    Placement cfg all live candidates m actions := by
  unfold planCached at h
  simp only at h
  split at h
  · exact .room actions (sleeps_room h)
  · rename_i w ws hwakes
    cases h
    have hids := congrArg (List.map fun w : WorkerPlacement => some w.id) hwakes
    refine .woken hquiet hready _ _ (Eq.trans ?_ hids.symm)
    simp [PlannerAction.wakes]

theorem planCold_placement (h : planCold cfg now all live realPressure pressure candidates = some actions) :
    Placement cfg all live candidates m actions := by
  unfold planCold at h
  split at h
  · rename_i p gpuSet hfit
    cases h
    exact .started candidates (fun _ hc => hc) p gpuSet _ hfit
  · split at h
    · rename_i blockers hsleeps
      cases h
      exact .room actions (sleeps_room hsleeps)
    · split at h
      · cases h
        refine .room _ fun a ha => ?_
        obtain ⟨v, -, rfl⟩ := List.mem_map.mp ha
        trivial
      · cases h

theorem planReplica_placement (hquiet : transitioning live m = false) (hready : readyWorkers live m ≠ [])
    (h : planReplica cfg now all live realPressure pressure candidates (readyWorkers live m)
      (sleepingWorkers live m candidates) = some actions) :
    Placement cfg all live candidates m actions := by
  unfold planReplica at h
  simp only at h
  split at h
  · cases h
  · split at h
    · cases h
    · rename_i hone
      split at h
      · rename_i w hwake
        cases h
        exact .replica hquiet hready hone w _ hwake
      · split at h
        · rename_i p gpuSet hfit
          split at h
          · cases h
            exact .started _ (fun c hc => List.mem_of_mem_filter hc) p gpuSet _ hfit
          · exact .room actions (sleeps_room h)
        · exact .room actions (sleeps_room h)

theorem planFor_placement {profiles : ModelId → List PlacementProfile}
    (h : planFor cfg now all live realPressure profiles pressure = some actions) :
    Placement cfg all live (cacheable profiles pressure.modelId) pressure.modelId actions := by
  unfold planFor at h
  simp only at h
  split at h
  · cases h
  · split at h
    · exact planPreload_placement h
    · split at h
      · cases h
      · rename_i hquiet
        rw [Bool.not_eq_true] at hquiet
        split at h
        · rename_i hready
          split at h
          · exact planCached_placement hquiet hready h
          · exact planCold_placement h
        · rename_i hready
          exact planReplica_placement hquiet hready h

/-- The actions of a plan make room, or they are the placement of one
pressure. -/
theorem plan_placement (cfg : PlannerConfig) (now : Datetime) (all : List GpuUuid) (workers : List WorkerPlacement)
    (pressures : List QueuePressure) (profiles : ModelId → List PlacementProfile) :
    (∀ a ∈ plan cfg now all workers pressures profiles, a.makesRoom) ∨
      ∃ q ∈ pressures, Placement cfg all (liveWorkers workers) (cacheable profiles q.modelId) q.modelId
        (plan cfg now all workers pressures profiles) := by
  unfold plan
  simp only
  split
  · left
    intro a ha
    obtain ⟨w, -, rfl⟩ := List.mem_map.mp ha
    trivial
  · rcases hfind : List.findSome? _ _ with _ | actions
    · left
      intro a ha
      cases ha
    · obtain ⟨q, hq, hplan⟩ := List.exists_of_findSome?_eq_some hfind
      exact .inr ⟨q, mem_sortedBy.mp hq, planFor_placement hplan⟩

end Planner
end LlmRio
