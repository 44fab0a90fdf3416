/-
# When the weight-cache planner leaves demand waiting

Two things that a plan owes to a model that has requests, and no worker that
serves or is about to. If a placement of it fits, the plan has an action; and
if idle workers and unwanted SLEEPING ones are all that is in the way of a
placement, too. The planner fails the first for a model with SLEEPING
workers, because it then looks at the GPUs of these and no others
(`Stuck`, `work_conserving_iff`), and the second where room takes a sleep and
an eviction together, because it tries each kind alone (`OneKind`,
`reclaims_iff`).

Key definitions: `WorkConserving`, `Stuck`, `Reclaims`, `OneKind`.
Key theorems: `work_conserving_iff`, `reclaims_iff`.
-/
import LlmRio.Planner.Searches

namespace LlmRio
namespace Planner

open Selection

variable (cfg : PlannerConfig) (now : Datetime) (all : List GpuUuid) (workers : List WorkerPlacement)
  (pressures : List QueuePressure) (profiles : ModelId → List PlacementProfile)

/-- The pressure is of requests, and its model has no worker that is READY or
on its way to another state. -/
structure Unserved (q : QueuePressure) : Prop where
  real : q.preload = false
  quiet : ∀ w ∈ workers, w.modelId = q.modelId → w.state ∉ .ready :: transitioningStates

/-- A placement of the model fits among the live workers. -/
structure Startable (q : QueuePressure) : Prop extends Unserved workers q where
  fits : CanStart cfg all (liveWorkers workers) (cacheable profiles q.modelId)

/-- A plan acts while there is a placement that fits. -/
def WorkConserving : Prop :=
  (∃ q ∈ pressures, Startable cfg all workers profiles q) → plan cfg now all workers pressures profiles ≠ []

/-- The model has SLEEPING workers, and none of them can be woken, also when
others are put to sleep. -/
structure Stuck (q : QueuePressure) : Prop where
  cached : sleepingWorkers (liveWorkers workers) q.modelId (cacheable profiles q.modelId) ≠ []
  wake : ¬ CanWake cfg all (liveWorkers workers)
    (sleepingWorkers (liveWorkers workers) q.modelId (cacheable profiles q.modelId))
  sleep : ¬ CanSleep cfg now all (liveWorkers workers) q (realModels pressures)
    (sleepPlacements
      ((sleepingWorkers (liveWorkers workers) q.modelId (cacheable profiles q.modelId)).map (·.profile))
      (some (sleepingWorkers (liveWorkers workers) q.modelId (cacheable profiles q.modelId))))

/-- Idle workers, and SLEEPING ones that nobody waits for, are all that is on
a GPU set on which the model could be placed. -/
structure Reclaimable (q : QueuePressure) : Prop extends Unserved workers q where
  room : ∃ p ∈ cacheable profiles q.modelId, ∃ gpuSet ∈ p.eligibleGpuSets, within gpuSet all = true ∧
    (∀ w ∈ liveWorkers workers, gpusMeet w.gpuUuids gpuSet = true →
      (w.state = .ready ∧ w.admittedRequestIds = [] ∧ residencySatisfied cfg w now = true ∧
          w.modelId ∉ realModels pressures) ∨
        (w.state = .sleeping ∧ (w.modelId = q.modelId ∨ w.modelId ∉ realModels pressures))) ∧
    cachedPrismFits cfg p gpuSet ((liveWorkers workers).filter fun w => ¬ gpusMeet w.gpuUuids gpuSet) none [] = true

/-- A plan acts while there is a model that it could place by reclaiming. -/
def Reclaims : Prop :=
  (∃ q ∈ pressures, Reclaimable cfg now all workers pressures profiles q) →
    plan cfg now all workers pressures profiles ≠ []

/-- One kind of step is enough. A model with SLEEPING workers has one that can
be woken, as it is or once others sleep; one without has a placement that
fits, as it is, once others sleep, or once others are gone. -/
def OneKind (q : QueuePressure) : Prop :=
  let live := liveWorkers workers
  let candidates := cacheable profiles q.modelId
  let sleeping := sleepingWorkers live q.modelId candidates
  if sleeping ≠ [] then
    CanWake cfg all live sleeping ∨ CanSleep cfg now all live q (realModels pressures)
      (sleepPlacements (sleeping.map (·.profile)) (some sleeping))
  else
    CanStart cfg all live candidates ∨
      CanSleep cfg now all live q (realModels pressures) (sleepPlacements candidates none) ∨
      CanEvict cfg all live (realModels pressures) candidates

variable {cfg now all workers pressures profiles} {q : QueuePressure}

theorem transitioning_of_unserved (h : Unserved workers q) :
    transitioning (liveWorkers workers) q.modelId = false := by
  unfold transitioning modelWorkers liveWorkers
  rw [List.any_eq_false]
  intro w hw
  simp only [List.mem_filter, decide_eq_true_eq] at hw ⊢
  have hquiet := h.quiet w hw.1.1 hw.2
  rw [List.mem_cons, not_or] at hquiet
  exact hquiet.2

theorem readyWorkers_of_unserved (h : Unserved workers q) : readyWorkers (liveWorkers workers) q.modelId = [] := by
  unfold readyWorkers modelWorkers liveWorkers
  rw [List.filter_eq_nil_iff]
  intro w hw
  simp only [List.mem_filter, decide_eq_true_eq] at hw ⊢
  have hquiet := h.quiet w hw.1.1 hw.2
  rw [List.mem_cons, not_or] at hquiet
  exact hquiet.1

/-- The turn of an unserved model finds something if one kind of step is
enough. -/
theorem acts_iff_oneKind (h : Unserved workers q) :
    Acts cfg now all (liveWorkers workers) (realModels pressures) profiles q ↔
      OneKind cfg now all workers pressures profiles q := by
  have hready := readyWorkers_of_unserved h
  have hasks : Asks cfg (liveWorkers workers) profiles q := by
    refine ⟨transitioning_of_unserved h, ?_⟩
    rw [h.real]
    exact .inl hready
  unfold Acts OneKind Finds searched Evicts
  by_cases hcached : sleepingWorkers (liveWorkers workers) q.modelId (cacheable profiles q.modelId) = []
  · simp [hasks, h.real, hready, hcached]
  · simp [hasks, h.real, hready, hcached]

theorem oneKind_iff_not_stuck (h : Startable cfg all workers profiles q) :
    OneKind cfg now all workers pressures profiles q ↔ ¬ Stuck cfg now all workers pressures profiles q := by
  unfold OneKind
  simp only
  constructor
  · intro hone hstuck
    rw [if_pos hstuck.cached] at hone
    rcases hone with hwake | hsleep
    · exact hstuck.wake hwake
    · exact hstuck.sleep hsleep
  · intro hnot
    by_cases hcached : sleepingWorkers (liveWorkers workers) q.modelId (cacheable profiles q.modelId) ≠ []
    · rw [if_pos hcached]
      by_contra hnone
      rw [not_or] at hnone
      exact hnot ⟨hcached, hnone.1, hnone.2⟩
    · rw [if_neg hcached]
      exact .inl h.fits

/-- A plan has actions for one of the pressures with a property, or for
another one. -/
theorem plan_ne_nil_split (p : QueuePressure → Prop) : plan cfg now all workers pressures profiles ≠ [] ↔
    idleWorkers cfg now workers pressures ≠ [] ∨
      (∃ q ∈ pressures, p q ∧ Acts cfg now all (liveWorkers workers) (realModels pressures) profiles q) ∨
      ∃ q ∈ pressures, ¬ p q ∧ Acts cfg now all (liveWorkers workers) (realModels pressures) profiles q := by
  rw [plan_ne_nil_iff]
  constructor
  · rintro (hidle | ⟨q, hq, hacts⟩)
    · exact .inl hidle
    · by_cases hp : p q
      · exact .inr (.inl ⟨q, hq, hp, hacts⟩)
      · exact .inr (.inr ⟨q, hq, hp, hacts⟩)
  · rintro (hidle | ⟨q, hq, -, hacts⟩ | ⟨q, hq, -, hacts⟩)
    · exact .inl hidle
    · exact .inr ⟨q, hq, hacts⟩
    · exact .inr ⟨q, hq, hacts⟩

/-- **Work conservation.** While a placement fits, a plan acts if and only if
there is an idle worker, a startable model that is not stuck behind its own
SLEEPING workers, or something to do for another pressure. -/
theorem work_conserving_iff (cfg : PlannerConfig) (now : Datetime) (all : List GpuUuid)
    (workers : List WorkerPlacement) (pressures : List QueuePressure)
    (profiles : ModelId → List PlacementProfile) :
    WorkConserving cfg now all workers pressures profiles ↔
      ((∃ q ∈ pressures, Startable cfg all workers profiles q) →
        idleWorkers cfg now workers pressures ≠ [] ∨
        (∃ q ∈ pressures, Startable cfg all workers profiles q ∧
          ¬ Stuck cfg now all workers pressures profiles q) ∨
        ∃ q ∈ pressures, ¬ Startable cfg all workers profiles q ∧
          Acts cfg now all (liveWorkers workers) (realModels pressures) profiles q) := by
  unfold WorkConserving
  rw [plan_ne_nil_split (Startable cfg all workers profiles)]
  have hstartable : ∀ q, (Startable cfg all workers profiles q ∧
      Acts cfg now all (liveWorkers workers) (realModels pressures) profiles q) ↔
      (Startable cfg all workers profiles q ∧ ¬ Stuck cfg now all workers pressures profiles q) := by
    intro q
    apply and_congr_right
    intro h
    rw [acts_iff_oneKind h.toUnserved, oneKind_iff_not_stuck h]
  simp only [hstartable]

/-- **Reclaiming.** While idle and unwanted workers are all that is in the way
of a model, a plan acts if and only if there is a worker idle for long
enough, such a model for which one kind of step is enough, or something to do
for another pressure. -/
theorem reclaims_iff (cfg : PlannerConfig) (now : Datetime) (all : List GpuUuid)
    (workers : List WorkerPlacement) (pressures : List QueuePressure)
    (profiles : ModelId → List PlacementProfile) :
    Reclaims cfg now all workers pressures profiles ↔
      ((∃ q ∈ pressures, Reclaimable cfg now all workers pressures profiles q) →
        idleWorkers cfg now workers pressures ≠ [] ∨
        (∃ q ∈ pressures, Reclaimable cfg now all workers pressures profiles q ∧
          OneKind cfg now all workers pressures profiles q) ∨
        ∃ q ∈ pressures, ¬ Reclaimable cfg now all workers pressures profiles q ∧
          Acts cfg now all (liveWorkers workers) (realModels pressures) profiles q) := by
  unfold Reclaims
  rw [plan_ne_nil_split (Reclaimable cfg now all workers pressures profiles)]
  have hreclaimable : ∀ q, (Reclaimable cfg now all workers pressures profiles q ∧
      Acts cfg now all (liveWorkers workers) (realModels pressures) profiles q) ↔
      (Reclaimable cfg now all workers pressures profiles q ∧
        OneKind cfg now all workers pressures profiles q) := by
    intro q
    apply and_congr_right
    intro h
    exact acts_iff_oneKind h.toUnserved
  simp only [hreclaimable]

section examples

/-- A profile that takes 100 MiB of one of two GPUs. -/
def onEither : PlacementProfile where
  id := "onEither"
  modelId := "m"
  engine := .vllm
  gpuCount := 1
  eligibleGpuSets := [["gpu-0"], ["gpu-1"]]
  predictedTokensPerSecond := 10
  loadAndWarmupSeconds := 60
  idleVramMibPerGpu := [100]
  peakVramMibPerGpu := [100]
  gpuHeadroomMibPerGpu := [0]
  gpuMemoryUtilization := 9 / 10
  memoryBackend := "kvcached"

/-- A worker of a model on the first GPU. -/
def onFirst (model : ModelId) (state : RuntimeState) (admitted : List RequestId) : WorkerPlacement where
  id := model
  profile := { onEither with id := model, modelId := model }
  gpuUuids := ["gpu-0"]
  port := 18000
  state := state
  admittedRequestIds := admitted
  lastDemandAt := 0

/-- Two GPUs with room for one engine and for one that sleeps. -/
def tightPlanner : PlannerConfig := { onePerGpu with prismMaxCachedWorkersPerGpu := 2 }

/-- The model sleeps beside a busy worker, and the other GPU is empty. -/
theorem not_work_conserving : ¬ WorkConserving tightPlanner 0 ["gpu-0", "gpu-1"]
    [{ onFirst "m" .sleeping [] with profile := onEither }, onFirst "n" .ready ["r"]]
    [⟨"m", 1, 100, 0, false, 1⟩] (fun _ => [onEither]) := by
  intro h
  have hfits : CanStart tightPlanner ["gpu-0", "gpu-1"] (liveWorkers
      [{ onFirst "m" .sleeping [] with profile := onEither }, onFirst "n" .ready ["r"]])
      (cacheable (fun _ => [onEither]) "m") :=
    ⟨onEither, by decide +kernel, ["gpu-1"], by decide +kernel, by decide +kernel, by decide +kernel⟩
  have hquiet : ∀ w ∈ [{ onFirst "m" .sleeping [] with profile := onEither }, onFirst "n" .ready ["r"]],
      w.modelId = "m" → w.state ∉ RuntimeState.ready :: transitioningStates := by decide +kernel
  exact h ⟨⟨"m", 1, 100, 0, false, 1⟩, List.mem_cons_self, ⟨rfl, hquiet⟩, hfits⟩ (by decide +kernel)

/-- An idle worker takes the one slot of an engine, and it and one that sleeps
the two slots of a process. -/
theorem not_reclaims : ¬ Reclaims tightPlanner 0 ["gpu-0"]
    [onFirst "x" .ready [], onFirst "y" .sleeping []] [⟨"m", 1, 100, 0, false, 1⟩] (fun _ => [onEither]) := by
  intro h
  have hquiet : ∀ w ∈ [onFirst "x" .ready [], onFirst "y" .sleeping []],
      w.modelId = "m" → w.state ∉ RuntimeState.ready :: transitioningStates := by decide +kernel
  have hroom : Reclaimable tightPlanner 0 ["gpu-0"] [onFirst "x" .ready [], onFirst "y" .sleeping []]
      [⟨"m", 1, 100, 0, false, 1⟩] (fun _ => [onEither]) ⟨"m", 1, 100, 0, false, 1⟩ :=
    ⟨⟨rfl, hquiet⟩, onEither, by decide +kernel, ["gpu-0"], by decide +kernel, by decide +kernel,
      by decide +kernel, by decide +kernel⟩
  exact h ⟨_, List.mem_cons_self, hroom⟩ (by decide +kernel)

end examples

end Planner
end LlmRio
