/-
# Planner and supervisor

The scheduler passes the starts of a plan to `WorkerSupervisor.launch`, whose
guards decide anew whether the GPUs may be used. The supervisor counts every
worker that is not COLD. The planner, in each of its modes, sees fewer: the
weight cache's drops the STOPPING workers, the other two also those that are
OFFLOADING, SLEEPING or WAKING. So the two agree if and only if what fits
among the workers that the mode sees may own its GPUs among all of them
(`agrees_iff`), as when there is no worker that it does not see
(`agrees_of_seen`).

Key definitions: `schedulerPlanner`, `LaunchesPass`, `Agrees`, `MayOwn`.
Key theorems: `passesGuards_iff`, `launches_of_disjoint`, `agrees_iff`.
-/
import LlmRio.Planner.Preemption
import LlmRio.Planner.Residency

namespace LlmRio
namespace Planner

open Selection

/-- The planner that `ResidencyScheduler` makes of the settings. -/
def schedulerPlanner (s : Settings) (base : GreedyPlacementPlanner) : GreedyPlacementPlanner :=
  { base with
    prismEnabled := s.kvcachedEnabled
    prismWeightCacheEnabled := s.ramWeightCacheEnabled
    prismMaxWorkersPerGpu := s.prismMaxWorkersPerGpu
    prismMaxCachedWorkersPerGpu := s.prismMaxCachedWorkersPerGpu }

/-- The error is of the placement, back-end or GPU guards of `launch`. -/
def ofGuard : WorkerLaunchError → Bool
  | .invalidPlacement | .notKvcached | .gpusOwned _ => true
  | .portsExhausted | .engineDisabled | .kvcachedDisabled => false

/-- None of these guards raises. -/
def PassesGuards (s : Settings) (workers : List WorkerPlacement) (p : PlacementProfile)
    (gpuSet : List GpuUuid) : Prop :=
  ∀ e, Supervisor.launchPort s workers p gpuSet = .error e → ofGuard e = false

/-- The starts among the actions pass the guards one after the other. -/
def LaunchesPass (s : Settings) : List WorkerPlacement → List PlannerAction → Prop
  | _, [] => True
  | workers, .start p gpuSet _ :: rest => PassesGuards s workers p gpuSet ∧
      ∀ id port now, LaunchesPass s (workers ++ [Supervisor.newWorker p gpuSet id port now]) rest
  | workers, .drain _ _ :: rest => LaunchesPass s workers rest
  | workers, .sleep _ _ :: rest => LaunchesPass s workers rest
  | workers, .wake _ _ :: rest => LaunchesPass s workers rest

/-- The GPU sets of the profile have as many distinct GPUs as it says. -/
def WellShaped (p : PlacementProfile) : Prop :=
  ∀ gpuSet ∈ p.eligibleGpuSets, gpuSet.length = p.gpuCount ∧ gpuSet.Nodup

/-- Whatever the planner starts, the supervisor launches. -/
def Agrees (s : Settings) (base : GreedyPlacementPlanner) (all : List GpuUuid) (workers : List WorkerPlacement) :
    Prop :=
  ∀ (now : Datetime) (pressures : List QueuePressure) (profiles : ModelId → List PlacementProfile),
    (∀ m, ∀ p ∈ profiles m, WellShaped p) →
      LaunchesPass s workers ((schedulerPlanner s base).plan now all workers pressures profiles)

/-- No worker outside COLD is on the GPUs, or the profile may share them with
those that are. -/
def MayOwn (s : Settings) (workers : List WorkerPlacement) (p : PlacementProfile) (gpuSet : List GpuUuid) : Prop :=
  (∀ w ∈ workers, w.state ≠ .cold → gpusMeet w.gpuUuids gpuSet = false) ∨
    Supervisor.canShareGpus s p gpuSet (Supervisor.overlappingWorkers workers gpuSet) = true

variable {s : Settings} {base : GreedyPlacementPlanner} {all : List GpuUuid} {workers : List WorkerPlacement}
  {p : PlacementProfile} {gpuSet : List GpuUuid}

/-! ### The guards -/

theorem allocatePort_error {e : WorkerLaunchError} (h : Supervisor.allocatePort s workers = .error e) :
    ofGuard e = false := by
  unfold Supervisor.allocatePort at h
  simp only at h
  split at h
  · cases h
  · cases h
    rfl

theorem checkEngine_error {e : WorkerLaunchError} (h : Supervisor.checkEngine s p = .error e) :
    ofGuard e = false := by
  unfold Supervisor.checkEngine at h
  split at h
  · cases h
    rfl
  · split at h
    · cases h
      rfl
    · cases h

/-- The GPUs that are owned already, if there are none. -/
theorem overlap_eq_nil : (gpuSet.filter fun gpu =>
      (Supervisor.overlappingWorkers workers gpuSet).any (gpu ∈ ·.gpuUuids)) = [] ↔
    ∀ w ∈ workers, w.state ≠ .cold → gpusMeet w.gpuUuids gpuSet = false := by
  rw [List.filter_eq_nil_iff]
  constructor
  · intro h w hw hstate
    by_contra hmeet
    rw [Bool.not_eq_false] at hmeet
    obtain ⟨gpu, hgpu, hset⟩ := gpusMeet_iff.mp hmeet
    refine h gpu hset (List.any_eq_true.mpr ⟨w, ?_, by simpa using hgpu⟩)
    exact List.mem_filter.mpr ⟨hw, by simp [hstate, hmeet]⟩
  · intro h gpu hgpu hany
    obtain ⟨w, hw, hin⟩ := List.any_eq_true.mp hany
    unfold Supervisor.overlappingWorkers at hw
    rw [List.mem_filter, decide_eq_true_eq] at hw
    have hfree := h w hw.1 hw.2.1
    rw [hw.2.2] at hfree
    cases hfree

theorem passesGuards_iff : PassesGuards s workers p gpuSet ↔
    (gpuSet.length = p.gpuCount ∧ gpuSet ∈ p.eligibleGpuSets) ∧
      (s.kvcachedEnabled = true → p.isKvcached = true) ∧ MayOwn s workers p gpuSet := by
  unfold PassesGuards Supervisor.launchPort
  simp only
  by_cases hplace : gpuSet.length ≠ p.gpuCount ∨ gpuSet ∉ p.eligibleGpuSets
  · rw [if_pos hplace]
    constructor
    · intro h
      have hguard := h .invalidPlacement rfl
      cases hguard
    · rintro ⟨⟨hlen, hmem⟩, -⟩
      rcases hplace with hne | hnot
      · exact absurd hlen hne
      · exact absurd hmem hnot
  · rw [if_neg hplace]
    rw [not_or, not_not, not_not] at hplace
    by_cases hkv : s.kvcachedEnabled = true ∧ ¬ p.isKvcached = true
    · rw [if_pos hkv]
      constructor
      · intro h
        have hguard := h .notKvcached rfl
        cases hguard
      · rintro ⟨-, himp, -⟩
        exact absurd (himp hkv.1) hkv.2
    · rw [if_neg hkv]
      rw [not_and, not_not] at hkv
      split
      · rename_i hown
        constructor
        · intro h
          have hguard := h _ rfl
          cases hguard
        · rintro ⟨-, -, hfree | hshare⟩
          · exact absurd (overlap_eq_nil.mpr hfree) hown.1
          · exact absurd hshare hown.2
      · rename_i hown
        constructor
        · intro _
          refine ⟨hplace, hkv, ?_⟩
          rw [not_and_or, not_not, not_not] at hown
          rcases hown with hnil | hshare
          · exact .inl (overlap_eq_nil.mp hnil)
          · exact .inr hshare
        · intro _ e he
          cases hport : Supervisor.allocatePort s workers with
          | error e' =>
            rw [hport] at he
            cases he
            exact allocatePort_error hport
          | ok port =>
            rw [hport] at he
            cases hengine : Supervisor.checkEngine s p with
            | error e' =>
              simp only [bind, Except.bind, hengine] at he
              cases he
              exact checkEngine_error hengine
            | ok u =>
              simp only [bind, Except.bind, hengine] at he
              cases he

/-! ### The starts of a plan -/

theorem launchesPass_of_no_start : ∀ {workers : List WorkerPlacement} {actions : List PlannerAction},
    (∀ p gpuSet reason, PlannerAction.start p gpuSet reason ∉ actions) → LaunchesPass s workers actions
  | _, [], _ => trivial
  | workers, a :: actions, h => by
    have hrest : LaunchesPass s workers actions :=
      launchesPass_of_no_start fun p gpuSet reason hmem => h p gpuSet reason (List.mem_cons_of_mem _ hmem)
    cases a with
    | start p gpuSet reason => exact absurd List.mem_cons_self (h p gpuSet reason)
    | drain => exact hrest
    | sleep => exact hrest
    | wake => exact hrest

theorem launchesPass_single {reason : String} :
    LaunchesPass s workers [.start p gpuSet reason] ↔ PassesGuards s workers p gpuSet := by
  simp [LaunchesPass]

/-- Starts on GPUs that are not owned, each by itself, pass one after the
other. -/
theorem launches_of_disjoint (hnative : s.kvcachedEnabled = false) (reason : String) :
    ∀ {starts : List (PlacementProfile × List GpuUuid)} {workers : List WorkerPlacement},
      starts.Pairwise (fun a b => gpusMeet a.2 b.2 = false) →
      (∀ start ∈ starts, (start.2.length = start.1.gpuCount ∧ start.2 ∈ start.1.eligibleGpuSets) ∧
        ∀ w ∈ workers, w.state ≠ .cold → gpusMeet w.gpuUuids start.2 = false) →
      LaunchesPass s workers (starts.map fun start => .start start.1 start.2 reason)
  | [], _, _, _ => trivial
  | (p, gpuSet) :: starts, workers, hpair, hfree => by
    obtain ⟨hshape, hown⟩ := hfree (p, gpuSet) List.mem_cons_self
    obtain ⟨hhead, htail⟩ := List.pairwise_cons.mp hpair
    refine ⟨passesGuards_iff.mpr ⟨hshape, fun hkv => ?_, .inl hown⟩, fun id port now => ?_⟩
    · rw [hnative] at hkv
      cases hkv
    · refine launches_of_disjoint hnative reason htail fun start hstart => ?_
      obtain ⟨hshape', hown'⟩ := hfree start (List.mem_cons_of_mem _ hstart)
      refine ⟨hshape', fun w hw hstate => ?_⟩
      rcases List.mem_append.mp hw with hw | hw
      · exact hown' w hw hstate
      · rw [List.mem_singleton] at hw
        subst hw
        exact hhead start hstart

/-! ### The native mode -/

section native

variable {planner : GreedyPlacementPlanner} {now : Datetime} {pressures : List QueuePressure}
  {profiles : ModelId → List PlacementProfile}

/-- The GPUs of the inventory that a worker has are GPUs that an active one
has. -/
def NativeSees (all : List GpuUuid) (workers : List WorkerPlacement) : Prop :=
  ∀ w ∈ workers, w.state ≠ .cold → ∀ gpu ∈ w.gpuUuids, gpu ∈ all → ∃ v ∈ activeWorkers workers, gpu ∈ v.gpuUuids

theorem not_start_drain {ids : List WorkerPlacement} {reason : String} (p : PlacementProfile)
    (gpuSet : List GpuUuid) (reason' : String) :
    PlannerAction.start p gpuSet reason' ∉ ids.map fun w => .drain w.id reason := by
  intro hmem
  obtain ⟨w, -, heq⟩ := List.mem_map.mp hmem
  cases heq

theorem drains_pass {reason : String} {drained : Option (List WorkerPlacement)} {actions : List PlannerAction}
    (h : drains reason drained = some actions) : LaunchesPass s workers actions := by
  apply launchesPass_of_no_start
  unfold drains at h
  split at h
  · cases h
  · cases h
  · cases h
    exact not_start_drain

/-- The starts of the native planner pass if it sees the workers. -/
theorem fills_pass (hnative : s.kvcachedEnabled = false) (hsees : NativeSees all workers)
    {ps : List PlacementProfile} (hshape : ∀ p ∈ ps, WellShaped p) {starts : List (PlacementProfile × List GpuUuid)}
    (hfills : Fills (freeGpus all workers) ps starts) (reason : String) :
    LaunchesPass s workers (starts.map fun start => .start start.1 start.2 reason) := by
  obtain ⟨ps', hsub, hstarts⟩ := hfills
  apply launches_of_disjoint hnative reason
  · exact (fillFree_disjoint _ _).sublist hstarts
  · intro start hstart
    obtain ⟨hp, hset, hin⟩ := mem_fillFree (p := start.1) (hstarts.subset hstart)
    have hprofile := hsub _ (List.mem_of_mem_filter hp)
    refine ⟨⟨(hshape _ hprofile _ hset).1, hset⟩, fun w hw hstate => ?_⟩
    by_contra hmeet
    rw [Bool.not_eq_false] at hmeet
    obtain ⟨gpu, hgpu, hmem⟩ := gpusMeet_iff.mp hmeet
    have hfree := within_iff.mp hin gpu hmem
    unfold freeGpus at hfree
    rw [List.mem_filter, decide_eq_true_eq] at hfree
    obtain ⟨v, hv, hv'⟩ := hsees w hw hstate gpu hgpu hfree.1
    exact hfree.2 v hv hv'

theorem native_pass (hnative : s.kvcachedEnabled = false) (hsees : NativeSees all workers)
    (hshape : ∀ m, ∀ p ∈ profiles m, WellShaped p) :
    LaunchesPass s workers (planner.planNative now all workers pressures profiles) := by
  unfold GreedyPlacementPlanner.planNative
  split
  · exact launchesPass_of_no_start not_start_drain
  · cases hfind : List.findSome? _ _ with
    | none => trivial
    | some actions =>
      obtain ⟨q, -, hq⟩ := List.exists_of_findSome?_eq_some hfind
      rw [Option.getD_some]
      by_cases hpre : Preempts planner.toPlannerConfig (freeGpus all workers) (activeWorkers workers) profiles q
      · obtain ⟨reason, -, hdrains⟩ := @planNativeFor_of_preempts planner.toPlannerConfig now
          (pressures.map (·.modelId)) (freeGpus all workers) (activeWorkers workers) profiles q hpre
        rw [hdrains] at hq
        exact drains_pass hq
      · rcases @planNativeFor_of_not_preempts planner.toPlannerConfig now (pressures.map (·.modelId))
          (freeGpus all workers) (activeWorkers workers) profiles q hpre with
          ⟨-, starts, reason, -, hfills, hstarts⟩ | ⟨-, hnone⟩
        · rw [hstarts] at hq
          cases hq
          exact fills_pass hnative hsees (hshape q.modelId) hfills reason
        · rw [hnone] at hq
          cases hq

/-- A profile for one GPU. -/
def lone (m : ModelId) (gpu : GpuUuid) : PlacementProfile where
  id := m
  modelId := m
  engine := .vllm
  gpuCount := 1
  eligibleGpuSets := [[gpu]]
  predictedTokensPerSecond := 1
  loadAndWarmupSeconds := 0
  idleVramMibPerGpu := [0]
  peakVramMibPerGpu := [0]
  gpuHeadroomMibPerGpu := [0]
  gpuMemoryUtilization := 1

/-- A GPU that the native planner takes to be free is one that no worker has. -/
theorem sees_of_native_pass (hnative : s.kvcachedEnabled = false)
    (h : ∀ (now : Datetime) (pressures : List QueuePressure) (profiles : ModelId → List PlacementProfile),
      (∀ m, ∀ p ∈ profiles m, WellShaped p) →
        LaunchesPass s workers (planner.planNative now all workers pressures profiles)) :
    NativeSees all workers := by
  intro w hw hstate gpu hgpu hall
  by_contra hnone
  push Not at hnone
  obtain ⟨m, hm⟩ := exists_fresh workers
  obtain ⟨now, hearly⟩ := exists_early planner.waitDurationSeconds workers
  -- the plan for a model of its own starts on the GPU
  have hshape : ∀ m' : ModelId, ∀ p ∈ (fun _ : ModelId => [lone m gpu]) m', WellShaped p := by
    intro m' p hp
    rw [List.mem_singleton] at hp
    subst hp
    simp [WellShaped, lone]
  have hpass := h now [⟨m, 1, 0, 0, false, 1⟩] (fun _ => [lone m gpu]) hshape
  have hidle : planner.idleWorkers now workers [⟨m, 1, 0, 0, false, 1⟩] = [] := by
    unfold GreedyPlacementPlanner.idleWorkers
    rw [List.filter_eq_nil_iff]
    intro v hv hidle
    rw [decide_eq_true_eq] at hidle
    exact absurd hidle.2.2.2.1 (not_le.mpr (hearly v (List.mem_of_mem_filter hv)))
  have hresident : residentWorkers (activeWorkers workers) m = [] := by
    unfold residentWorkers
    rw [List.filter_eq_nil_iff]
    intro v hv hres
    rw [decide_eq_true_eq] at hres
    exact hm v (List.mem_of_mem_filter hv) hres.1
  have hfree : gpu ∈ freeGpus all workers := by
    unfold freeGpus
    rw [List.mem_filter, decide_eq_true_eq]
    exact ⟨hall, hnone⟩
  have hsome : ¬ NoneFree (freeGpus all workers) [lone m gpu] := by
    rw [NoneFree, not_not]
    exact ⟨lone m gpu, List.mem_cons_self, rfl, [gpu], List.mem_cons_self, within_iff.mpr (by simpa using hfree)⟩
  have hpre : ¬ Preempts planner.toPlannerConfig (freeGpus all workers) (activeWorkers workers)
      (fun _ => [lone m gpu]) ⟨m, 1, 0, 0, false, 1⟩ := by
    rintro ⟨-, ⟨-, hnone'⟩ | ⟨hwants, -⟩⟩
    · exact hsome hnone'
    · exact hwants.1 hresident
  unfold GreedyPlacementPlanner.planNative at hpass
  rw [if_neg (not_not.mpr hidle)] at hpass
  have hsort : sortedBy (fun q : QueuePressure => q.oldestEnqueuedAt) [⟨m, 1, 0, 0, false, 1⟩] =
      [⟨m, 1, 0, 0, false, 1⟩] := rfl
  rw [hsort, List.findSome?_cons] at hpass
  rcases @planNativeFor_of_not_preempts planner.toPlannerConfig now [m] (freeGpus all workers)
    (activeWorkers workers) (fun _ => [lone m gpu]) ⟨m, 1, 0, 0, false, 1⟩ hpre with
    ⟨-, starts, reason, hne, ⟨ps, hsub, hstarts⟩, hplan⟩ | ⟨hstarts, -⟩
  · have hpressured : List.map QueuePressure.modelId [⟨m, 1, 0, 0, false, 1⟩] = [m] := rfl
    simp only [hpressured, hplan, Option.getD_some] at hpass
    obtain ⟨start, starts, rfl⟩ := List.exists_cons_of_ne_nil hne
    obtain ⟨hp, hset, -⟩ := mem_fillFree (p := start.1) (hstarts.subset List.mem_cons_self)
    have hlone : start.1 = lone m gpu := List.mem_singleton.mp (hsub _ (List.mem_of_mem_filter hp))
    have hgpus : start.2 = [gpu] := by
      rw [hlone] at hset
      exact List.mem_singleton.mp hset
    obtain ⟨-, -, hown | hshare⟩ := passesGuards_iff.mp hpass.1
    · have hmeet := hown w hw hstate
      rw [hgpus, Bool.eq_false_iff, ne_eq, gpusMeet_iff] at hmeet
      exact hmeet ⟨gpu, hgpu, List.mem_singleton_self gpu⟩
    · simp [Supervisor.canShareGpus, hnative] at hshare
  · exact hstarts ⟨by simp, .inl ⟨hresident, hsome⟩⟩

end native

/-! ### The prism modes -/

/-- What a fit test accepts may own its GPUs. -/
def FitsOwn (s : Settings) (all : List GpuUuid) (workers : List WorkerPlacement)
    (fits : PlacementProfile → List GpuUuid → Bool) : Prop :=
  ∀ (p : PlacementProfile) (gpuSet : List GpuUuid), p.isKvcached = true → gpuSet.Nodup → within gpuSet all = true →
    fits p gpuSet = true → MayOwn s workers p gpuSet

section prism

variable {cfg : PlannerConfig} {now : Datetime} {pressures : List QueuePressure}
  {profiles : ModelId → List PlacementProfile} {fits : PlacementProfile → List GpuUuid → Bool}

/-- A start of a kvcached profile that fits passes. -/
theorem start_passes (hown : FitsOwn s all workers fits) (hshape : ∀ m, ∀ p ∈ profiles m, WellShaped p)
    {m : ModelId} (hp : p ∈ cacheable profiles m) (hset : gpuSet ∈ p.eligibleGpuSets)
    (hin : within gpuSet all = true) (hfits : fits p gpuSet = true) (reason : String) :
    LaunchesPass s workers [.start p gpuSet reason] := by
  obtain ⟨hprofile, hkv⟩ := mem_cacheable.mp hp
  obtain ⟨hlen, hnodup⟩ := hshape m p hprofile gpuSet hset
  rw [launchesPass_single, passesGuards_iff]
  exact ⟨⟨hlen, hset⟩, fun _ => hkv, hown p gpuSet hkv hnodup hin hfits⟩

theorem cache_pass (hshape : ∀ m, ∀ p ∈ profiles m, WellShaped p)
    (hown : FitsOwn s all workers fun p gpuSet => cachedPrismFits cfg p gpuSet (liveWorkers workers) none []) :
    LaunchesPass s workers (plan cfg now all workers pressures profiles) := by
  rcases plan_placement cfg now all workers pressures profiles with hroom | ⟨q, -, hplace⟩
  · exact launchesPass_of_no_start fun p gpuSet reason hmem => hroom _ hmem
  · generalize plan cfg now all workers pressures profiles = actions at hplace
    cases hplace with
    | room _ hroom => exact launchesPass_of_no_start fun p gpuSet reason hmem => hroom _ hmem
    | started ps hsub p gpuSet reason hfit =>
      obtain ⟨hp, hset, hin, hfits⟩ := smallest_fitting hfit
      exact start_passes hown hshape (hsub p hp) hset hin hfits reason
    | woken _ _ limit _ hwakes =>
      apply launchesPass_of_no_start
      intro p gpuSet reason hmem
      have hnone : (none : Option WorkerId) ∈ actions.map (·.wakes) := List.mem_map.mpr ⟨_, hmem, rfl⟩
      rw [hwakes] at hnone
      obtain ⟨w, -, hw⟩ := List.mem_map.mp hnone
      cases hw
    | replica _ _ _ w reason =>
      apply launchesPass_of_no_start
      intro p gpuSet reason' hmem
      rw [List.mem_singleton] at hmem
      cases hmem

/-- A turn of `_plan_prism` starts what fits, or drains. -/
theorem planPrismFor_cases {active : List WorkerPlacement} {realPressure : List ModelId} {q : QueuePressure}
    {actions : List PlannerAction}
    (h : planPrismFor cfg now all active realPressure profiles q = some actions) :
    (∃ p gpuSet reason, smallestPrismFitting cfg (cacheable profiles q.modelId) all active = some (p, gpuSet) ∧
        actions = [.start p gpuSet reason]) ∨
      ∃ (ws : List WorkerPlacement) (reason : String), actions = ws.map fun w => .drain w.id reason := by
  unfold planPrismFor at h
  simp only at h
  split at h
  · cases h
  · split at h
    · split at h
      · rename_i p gpuSet hfit
        cases h
        exact .inl ⟨p, gpuSet, _, hfit, rfl⟩
      · split at h
        · cases h
        · split at h
          · rename_i w ws hevict
            cases h
            exact .inr ⟨w :: ws, _, rfl⟩
          · cases h
    · split at h
      · cases h
      · split at h
        · cases h
        · split at h
          · rename_i p gpuSet hfit
            split at h
            · cases h
              exact .inl ⟨p, gpuSet, _, hfit, rfl⟩
            · cases h
          · cases h

theorem prism_pass (hshape : ∀ m, ∀ p ∈ profiles m, WellShaped p)
    (hown : FitsOwn s all workers fun p gpuSet => prismFits cfg p gpuSet (activeWorkers workers)) :
    LaunchesPass s workers (planPrism cfg now all workers pressures profiles) := by
  unfold planPrism
  cases hfind : List.findSome? _ _ with
  | none => trivial
  | some actions =>
    obtain ⟨q, -, hq⟩ := List.exists_of_findSome?_eq_some hfind
    rw [Option.getD_some]
    rcases planPrismFor_cases hq with ⟨p, gpuSet, reason, hfit, rfl⟩ | ⟨ws, reason, rfl⟩
    · obtain ⟨hp, hset, hin, hfits⟩ := smallest_prism_fitting hfit
      exact start_passes hown hshape hp hset hin hfits reason
    · exact launchesPass_of_no_start not_start_drain

/-- The profile for one model and one set is well shaped. -/
theorem wellShaped_only (p : PlacementProfile) (m : ModelId) (hset : gpuSet.Nodup) :
    WellShaped (only { p with gpuCount := gpuSet.length } m gpuSet) := by
  intro gpuSet' hmem
  rw [List.mem_singleton.mp hmem]
  exact ⟨rfl, hset⟩

theorem cache_fits_own
    (h : ∀ (now : Datetime) (pressures : List QueuePressure) (profiles : ModelId → List PlacementProfile),
      (∀ m, ∀ p ∈ profiles m, WellShaped p) → LaunchesPass s workers (plan cfg now all workers pressures profiles)) :
    FitsOwn s all workers fun p gpuSet => cachedPrismFits cfg p gpuSet (liveWorkers workers) none [] := by
  intro p gpuSet hkv hset hin hfits
  obtain ⟨m, hm⟩ := exists_fresh workers
  obtain ⟨now, hearly⟩ := exists_early cfg.prismIdleSleepSeconds workers
  have hturn := planFor_fresh (p := { p with gpuCount := gpuSet.length }) hkv
    (fun w hw => hm w (List.mem_of_mem_filter hw)) hin hfits now
  have hpass := h now [⟨m, 1, 0, 0, false, 1⟩] (fun _ => [only { p with gpuCount := gpuSet.length } m gpuSet])
    (fun _ p' hp' => (List.mem_singleton.mp hp') ▸ wellShaped_only p m hset)
  rw [plan_single (q := ⟨m, 1, 0, 0, false, 1⟩) rfl hearly hturn, launchesPass_single, passesGuards_iff] at hpass
  exact hpass.2.2

theorem prism_fits_own
    (h : ∀ (now : Datetime) (pressures : List QueuePressure) (profiles : ModelId → List PlacementProfile),
      (∀ m, ∀ p ∈ profiles m, WellShaped p) →
        LaunchesPass s workers (planPrism cfg now all workers pressures profiles)) :
    FitsOwn s all workers fun p gpuSet => prismFits cfg p gpuSet (activeWorkers workers) := by
  intro p gpuSet hkv hset hin hfits
  obtain ⟨m, hm⟩ := exists_fresh workers
  have hpass := h 0 [⟨m, 1, 0, 0, false, 1⟩] (fun _ => [only { p with gpuCount := gpuSet.length } m gpuSet])
    (fun _ p' hp' => (List.mem_singleton.mp hp') ▸ wellShaped_only p m hset)
  -- the turn of the model starts the profile
  have hresident : residentWorkers (activeWorkers workers) m = [] := by
    unfold residentWorkers
    rw [List.filter_eq_nil_iff]
    intro v hv hres
    rw [decide_eq_true_eq] at hres
    exact hm v (List.mem_of_mem_filter hv) hres.1
  have hfits' : prismFits cfg (only { p with gpuCount := gpuSet.length } m gpuSet) gpuSet (activeWorkers workers) =
      true := by
    unfold prismFits at hfits ⊢
    rw [guard_eq_true, guard_eq_true] at hfits ⊢
    obtain ⟨hlengths, -, hall⟩ := hfits
    refine ⟨hlengths, fun hany => ?_, hall⟩
    obtain ⟨w, hw, hsame⟩ := List.any_eq_true.mp hany
    rw [decide_eq_true_eq] at hsame
    exact hm w (List.mem_of_mem_filter hw) hsame.1
  have hkv' : (only { p with gpuCount := gpuSet.length } m gpuSet).isKvcached = true := hkv
  have hsets : (only { p with gpuCount := gpuSet.length } m gpuSet).eligibleGpuSets = [gpuSet] := rfl
  have hsmallest : smallestPrismFitting cfg [only { p with gpuCount := gpuSet.length } m gpuSet] all
      (activeWorkers workers) = some (only { p with gpuCount := gpuSet.length } m gpuSet, gpuSet) := by
    simp [smallestPrismFitting, sortedBy, hsets, hin, hfits']
  have hplan : planPrism cfg 0 all workers [⟨m, 1, 0, 0, false, 1⟩]
      (fun _ => [only { p with gpuCount := gpuSet.length } m gpuSet]) =
      [.start (only { p with gpuCount := gpuSet.length } m gpuSet) gpuSet "prism_cold_backlog"] := by
    simp [planPrism, planPrismFor, sortedBy, cacheable, hkv', hresident, hsmallest]
  rw [hplan, launchesPass_single, passesGuards_iff] at hpass
  exact hpass.2.2

end prism

/-- **Planner and supervisor agree** if and only if, in the mode at hand, what
fits among the workers that the planner sees may own its GPUs among all the
workers that there are. -/
theorem agrees_iff (s : Settings) (base : GreedyPlacementPlanner) (all : List GpuUuid)
    (workers : List WorkerPlacement) :
    Agrees s base all workers ↔
      if s.kvcachedEnabled = true then
        if s.ramWeightCacheEnabled = true then
          FitsOwn s all workers fun p gpuSet =>
            cachedPrismFits (schedulerPlanner s base).toPlannerConfig p gpuSet (liveWorkers workers) none []
        else
          FitsOwn s all workers fun p gpuSet =>
            prismFits (schedulerPlanner s base).toPlannerConfig p gpuSet (activeWorkers workers)
      else NativeSees all workers := by
  have hkv : (schedulerPlanner s base).prismEnabled = s.kvcachedEnabled := rfl
  have hram : (schedulerPlanner s base).prismWeightCacheEnabled = s.ramWeightCacheEnabled := rfl
  unfold Agrees GreedyPlacementPlanner.plan
  rw [hkv, hram]
  by_cases hkvcached : s.kvcachedEnabled = true
  · rw [if_pos hkvcached]
    by_cases hcache : s.ramWeightCacheEnabled = true
    · simp only [if_pos hkvcached, if_pos hcache]
      exact ⟨cache_fits_own, fun hown now pressures profiles hshape => cache_pass hshape hown⟩
    · simp only [if_pos hkvcached, if_neg hcache]
      exact ⟨prism_fits_own, fun hown now pressures profiles hshape => prism_pass hshape hown⟩
  · simp only [if_neg hkvcached]
    rw [Bool.not_eq_true] at hkvcached
    exact ⟨sees_of_native_pass hkvcached,
      fun hsees now pressures profiles hshape => native_pass hkvcached hsees hshape⟩

/-! ### Where the planner sees all workers -/

/-- The workers outside COLD on a GPU. -/
def holders (workers : List WorkerPlacement) (gpu : GpuUuid) : List WorkerPlacement :=
  workers.filter fun w => w.state ≠ .cold ∧ gpu ∈ w.gpuUuids

/-- Slots for one more engine and one more process on each GPU are enough. -/
theorem mayOwn_of_slots (hkv : s.kvcachedEnabled = true) (hp : p.isKvcached = true)
    (hslots : ∀ gpu ∈ gpuSet, (∀ w ∈ holders workers gpu, w.profile.isKvcached = true) ∧
      (holders workers gpu).countP (·.state ∈ gpuResidentStates) < s.prismMaxWorkersPerGpu ∧
      (holders workers gpu).length < s.prismMaxCachedWorkersPerGpu) :
    MayOwn s workers p gpuSet := by
  right
  have hcolocated : ∀ gpu ∈ gpuSet, (Supervisor.overlappingWorkers workers gpuSet).filter (gpu ∈ ·.gpuUuids) =
      holders workers gpu := by
    intro gpu hgpu
    unfold Supervisor.overlappingWorkers holders
    rw [List.filter_filter]
    apply List.filter_congr
    intro w _
    rw [← Bool.decide_and, decide_eq_decide]
    constructor
    · rintro ⟨hin, hstate, -⟩
      exact ⟨hstate, hin⟩
    · rintro ⟨hstate, hin⟩
      exact ⟨hin, hstate, gpusMeet_iff.mpr ⟨gpu, hin, hgpu⟩⟩
  have hall : (Supervisor.overlappingWorkers workers gpuSet).all (·.profile.isKvcached) = true := by
    rw [List.all_eq_true]
    intro w hw
    unfold Supervisor.overlappingWorkers at hw
    rw [List.mem_filter, decide_eq_true_eq] at hw
    obtain ⟨gpu, hin, hgpu⟩ := gpusMeet_iff.mp hw.2.2
    refine (hslots gpu hgpu).1 w (List.mem_filter.mpr ⟨hw.1, ?_⟩)
    rw [decide_eq_true_eq]
    exact ⟨hw.2.1, hin⟩
  unfold Supervisor.canShareGpus
  simp only [hkv, hp, hall, Bool.and_self, Bool.true_and]
  rw [List.all_eq_true]
  intro gpu hgpu
  rw [hcolocated gpu hgpu]
  simpa using (hslots gpu hgpu).2

theorem cache_owns_seen (hkv : s.kvcachedEnabled = true) (hseen : ∀ w ∈ workers, w.state ≠ .stopping) :
    FitsOwn s all workers fun p gpuSet =>
      cachedPrismFits (schedulerPlanner s base).toPlannerConfig p gpuSet (liveWorkers workers) none [] := by
  intro p gpuSet hp _ _ hfits
  refine mayOwn_of_slots hkv hp fun gpu hgpu => ?_
  have hholders : ((liveWorkers workers).filter (·.state ≠ .cold)).filter (gpu ∈ ·.gpuUuids) =
      holders workers gpu := by
    unfold liveWorkers holders
    rw [List.filter_filter, List.filter_filter]
    apply List.filter_congr
    intro w hw
    have hstop := hseen w hw
    rw [← Bool.decide_and, ← Bool.decide_and, decide_eq_decide]
    simp only [List.mem_cons, List.not_mem_nil, or_false, not_or]
    tauto
  have hfit := fitsOn_of_fits hfits hgpu
  unfold fitsOn at hfit
  simp only [hholders, guard_eq_true] at hfit
  obtain ⟨hback, hcap, hactive, -⟩ := hfit
  refine ⟨fun w hw => ?_, ?_, ?_⟩
  · by_contra hnot
    exact hback (List.any_eq_true.mpr ⟨w, hw, by simpa using hnot⟩)
  · have hcount : ((holders workers gpu).filter fun w =>
        some w.id ≠ none ∧ w.id ∉ ([] : List WorkerId) ∧ w.state ∈ gpuResidentStates).length =
        (holders workers gpu).countP (·.state ∈ gpuResidentStates) := by
      rw [List.countP_eq_length_filter]
      simp
    rw [hcount] at hactive
    have hmax : (schedulerPlanner s base).prismMaxWorkersPerGpu = s.prismMaxWorkersPerGpu := rfl
    rw [hmax] at hactive
    omega
  · have hmax : (schedulerPlanner s base).prismMaxCachedWorkersPerGpu = s.prismMaxCachedWorkersPerGpu := rfl
    rw [hmax] at hcap
    simp only [Option.isSome_none, Bool.false_eq_true, if_false] at hcap
    omega

theorem prism_owns_seen (hkv : s.kvcachedEnabled = true)
    (hcaps : s.prismMaxWorkersPerGpu ≤ s.prismMaxCachedWorkersPerGpu)
    (hseen : ∀ w ∈ workers, w.state ∈ [.cold, .loading, .ready, .draining]) :
    FitsOwn s all workers fun p gpuSet =>
      prismFits (schedulerPlanner s base).toPlannerConfig p gpuSet (activeWorkers workers) := by
  intro p gpuSet hp _ _ hfits
  refine mayOwn_of_slots hkv hp fun gpu hgpu => ?_
  have hholders : (activeWorkers workers).filter (gpu ∈ ·.gpuUuids) = holders workers gpu := by
    unfold activeWorkers holders
    rw [List.filter_filter]
    apply List.filter_congr
    intro w hw
    have hstate := hseen w hw
    rw [← Bool.decide_and, decide_eq_decide]
    cases hs : w.state <;> simp [hs] at hstate ⊢
  unfold prismFits at hfits
  rw [guard_eq_true, guard_eq_true] at hfits
  obtain ⟨hlengths, -, hall⟩ := hfits
  rw [not_or, not_not] at hlengths
  -- the GPU is measured, as the lengths are the same
  obtain ⟨mib, hmem⟩ : ∃ mib, (gpu, mib) ∈ gpuSet.zip p.idleVramMibPerGpu := by
    obtain ⟨i, hi, rfl⟩ := List.getElem_of_mem hgpu
    have hi' : i < p.idleVramMibPerGpu.length := hlengths.1 ▸ hi
    refine ⟨p.idleVramMibPerGpu[i], ?_⟩
    have hz : i < (gpuSet.zip p.idleVramMibPerGpu).length := by
      rw [List.length_zip]
      omega
    rw [← List.getElem_zip (h := hz)]
    exact List.getElem_mem hz
  have hgpuFits := List.all_eq_true.mp hall _ hmem
  simp only [hholders, guard_eq_true] at hgpuFits
  obtain ⟨hcap, hback, -⟩ := hgpuFits
  have hmax : (schedulerPlanner s base).prismMaxWorkersPerGpu = s.prismMaxWorkersPerGpu := rfl
  rw [hmax] at hcap
  have hle : (holders workers gpu).countP (·.state ∈ gpuResidentStates) ≤ (holders workers gpu).length :=
    List.countP_le_length
  refine ⟨fun w hw => ?_, by omega, by omega⟩
  by_contra hnot
  exact hback (List.any_eq_true.mpr ⟨w, hw, by simpa using hnot⟩)

/-- They agree on a table without workers on their way out: STOPPING ones, and
where the weight cache is off those that are about to sleep, asleep or about
to wake. -/
theorem agrees_of_seen (hcaps : s.prismMaxWorkersPerGpu ≤ s.prismMaxCachedWorkersPerGpu)
    (hseen : ∀ w ∈ workers, w.state ≠ .stopping ∧
      (s.ramWeightCacheEnabled = true ∨ w.state ∈ [.cold, .loading, .ready, .draining])) :
    Agrees s base all workers := by
  rw [agrees_iff]
  by_cases hkv : s.kvcachedEnabled = true
  · rw [if_pos hkv]
    by_cases hcache : s.ramWeightCacheEnabled = true
    · rw [if_pos hcache]
      exact cache_owns_seen hkv fun w hw => (hseen w hw).1
    · rw [if_neg hcache]
      exact prism_owns_seen hkv hcaps fun w hw => (hseen w hw).2.resolve_left hcache
  · rw [if_neg hkv]
    have hcache : ¬ s.ramWeightCacheEnabled = true := by
      simp [Settings.ramWeightCacheEnabled, hkv]
    intro w hw hstate gpu hgpu _
    refine ⟨w, List.mem_filter.mpr ⟨hw, ?_⟩, hgpu⟩
    have hstates := (hseen w hw).2.resolve_left hcache
    rw [List.mem_cons] at hstates
    simpa using hstates.resolve_left hstate

section examples

/-- One engine on a GPU. -/
def oneEngine (kvcached ram : Bool) : Settings :=
  { kvcachedEnabled := kvcached, prismWeightCacheRam := ram, prismMaxWorkersPerGpu := 1 }

theorem stopping_owns (kvcached ram : Bool) : ¬ Agrees (oneEngine kvcached ram)
    { oneGpuPlanner with waitDurationSeconds := 3600 } ["gpu-0"] [leaving .stopping] := by
  intro h
  have hshape : ∀ m : ModelId, ∀ p ∈ (fun _ : ModelId => [arriving]) m, WellShaped p := by
    intro m p hp
    rw [List.mem_singleton] at hp
    subst hp
    simp [WellShaped, arriving]
  have hpass := h 0 [⟨"m", 1, 100, 0, false, 1⟩] (fun _ => [arriving]) hshape
  have hplan : ∃ reason, (schedulerPlanner (oneEngine kvcached ram)
      { oneGpuPlanner with waitDurationSeconds := 3600 }).plan 0 ["gpu-0"] [leaving .stopping]
        [⟨"m", 1, 100, 0, false, 1⟩] (fun _ => [arriving]) = [.start arriving ["gpu-0"] reason] := by
    cases kvcached
    · exact ⟨"cold_backlog", by cases ram <;> decide +kernel⟩
    · exact ⟨"prism_cold_backlog", by cases ram <;> decide +kernel⟩
  obtain ⟨reason, hplan⟩ := hplan
  rw [hplan, launchesPass_single] at hpass
  have howned : Supervisor.launchPort (oneEngine kvcached ram) [leaving .stopping] arriving ["gpu-0"] =
      .error (.gpusOwned ["gpu-0"]) := by
    cases kvcached <;> cases ram <;> rfl
  have hguard := hpass _ howned
  cases hguard

/-- What each of the three modes takes to be free is still owned by a STOPPING
worker. -/
theorem not_agrees :
    ¬ Agrees (oneEngine false false) { oneGpuPlanner with waitDurationSeconds := 3600 } ["gpu-0"]
        [leaving .stopping] ∧
      ¬ Agrees (oneEngine true false) { oneGpuPlanner with waitDurationSeconds := 3600 } ["gpu-0"]
        [leaving .stopping] ∧
      ¬ Agrees (oneEngine true true) { oneGpuPlanner with waitDurationSeconds := 3600 } ["gpu-0"]
        [leaving .stopping] :=
  ⟨stopping_owns false false, stopping_owns true false, stopping_owns true true⟩

end examples

end Planner
end LlmRio
