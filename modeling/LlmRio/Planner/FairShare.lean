/-
# Whose last worker a search may take

Three searches take workers from other models: `_choose_prism_sleep`,
`_choose_prism_eviction` and `_choose_preemption`. A model that has requests
is to keep one of its workers unless the pressure that takes them has waited
for its fair share. The searches ask of each single worker whether its model
has another, and then take several. So a prism search takes all workers of
a model exactly where the cheapest of the smallest selections that make room
has two or more workers of the model and with them all, and a preemption
exactly where of the workers of a model on the set that it drains it counts
some and not others (`fairShare_iff`).

Key definitions: `Strips`, `FairSleep`, `FairEviction`, `FairPreemption`,
`Search`, `Spares`.
Key theorems: `fair_choice_iff`, `fairShare_iff`.
-/
import LlmRio.Planner.Preemption

namespace LlmRio
namespace Planner

open Selection

/-- The selection has all of the workers, and there are some. -/
def Strips (residents selected : List WorkerPlacement) : Prop :=
  residents ≠ [] ∧ ∀ w ∈ residents, w ∈ selected

variable (cfg : PlannerConfig) (now : Datetime) (all : List GpuUuid) (workers : List WorkerPlacement)
  (pressure : QueuePressure) (pressures : List QueuePressure)

/-- `incoming_starved` -/
def Starved : Prop := cfg.fairShareSeconds ≤ now - pressure.oldestEnqueuedAt

/-- `_choose_prism_sleep` takes all READY workers of a model with requests
only for a pressure that has waited for its share. -/
def FairSleep (candidates : List PlacementProfile) (existing : Option (List WorkerPlacement)) : Prop :=
  ∀ selected,
    choosePrismSleep cfg now candidates all workers pressure (realModels pressures) existing = some selected →
      ∀ m ∈ realModels pressures, Strips (readyWorkers workers m) selected → Starved cfg now pressure

/-- So does `_choose_prism_eviction`, with the LOADING workers. -/
def FairEviction (candidates : List PlacementProfile) : Prop :=
  ∀ selected, choosePrismEviction cfg now all workers pressure (realModels pressures) candidates = some selected →
    ∀ m ∈ realModels pressures, Strips (residentWorkers workers m) selected → Starved cfg now pressure

/-- So does `_choose_preemption`, which takes the time since each of the
workers became READY. -/
def FairPreemption (candidates : List PlacementProfile) : Prop :=
  ∀ selected, choosePreemption cfg now workers pressure (pressures.map (·.modelId)) candidates = some selected →
    ∀ m ∈ realModels pressures, Strips (residentWorkers workers m) selected →
      ∀ w ∈ residentWorkers workers m, starvationOverride cfg now pressure w = true

/-! ### Smallest selections -/

/-- A search for workers that make room: at each of its places some workers are
in the way, and some selections of them are enough. -/
structure Search (ι : Type) where
  places : List ι
  blockers : ι → List WorkerPlacement
  fits : ι → List WorkerPlacement → Bool

namespace Search

variable {ι : Type} (search : Search ι)

/-- The selection makes room at the place, and no smaller one does. -/
def Smallest (i : ι) (s : List WorkerPlacement) : Prop :=
  (s ≠ [] ∧ s.Sublist (search.blockers i) ∧ search.fits i s = true) ∧
    ∀ t : List WorkerPlacement, t ≠ [] → t.Sublist (search.blockers i) → search.fits i t = true →
      s.length ≤ t.length

def Finds (s : List WorkerPlacement) : Prop := ∃ i ∈ search.places, search.Smallest i s

/-- The search comes to `t` at a place before or at which it comes to `s`. -/
def Before (t s : List WorkerPlacement) : Prop :=
  ∃ before i after, search.places = before ++ i :: after ∧ (∀ j ∈ before, ¬ search.Smallest j s) ∧
    Sooner (firstCount (search.blockers i) (search.fits i)) t s

/-- Another selection that the search finds is cheaper, or as cheap and found
before. -/
def Passes {κ : Type*} [LinearOrder κ] (cost : List WorkerPlacement → κ) (s : List WorkerPlacement) : Prop :=
  (∃ t, search.Finds t ∧ cost t < cost s) ∨ ∃ t, search.Before t s ∧ cost t = cost s

def options : List (List WorkerPlacement) :=
  search.places.flatMap fun i => firstCount (search.blockers i) (search.fits i)

variable {search}

theorem mem_options {s : List WorkerPlacement} : s ∈ search.options ↔ search.Finds s := by
  unfold options Finds Smallest
  simp only [List.mem_flatMap, mem_firstCount]

theorem not_firstMin {κ : Type*} [LinearOrder κ] {cost : List WorkerPlacement → κ} {s : List WorkerPlacement}
    (hs : search.Finds s) : ¬ FirstMin cost search.options s ↔ search.Passes cost s := by
  have hsooner : ∀ t, Sooner search.options t s ↔ search.Before t s := by
    intro t
    unfold options Before Smallest
    rw [sooner_flatMap]
    simp only [mem_firstCount]
  rw [not_firstMin_iff (mem_options.mpr hs)]
  simp only [mem_options, hsooner, Passes]

end Search

/-- The places of `_choose_prism_sleep` -/
def sleepSearch (candidates : List PlacementProfile) (existing : Option (List WorkerPlacement)) :
    Search (PlacementProfile × List GpuUuid × Option WorkerId) where
  places := (sleepPlacements candidates existing).filter fun (_, gpuSet, _) => within gpuSet all
  blockers := fun (_, gpuSet, _) => blockersOf cfg now workers pressure (realModels pressures) gpuSet
  fits := fun (profile, gpuSet, e) selected => cachedPrismFits cfg profile gpuSet workers e (selected.map (·.id))

/-- The places of `_choose_prism_eviction` -/
def evictionSearch (candidates : List PlacementProfile) : Search (PlacementProfile × List GpuUuid) where
  places := candidates.flatMap fun p => (p.eligibleGpuSets.filter fun gpuSet => within gpuSet all).map fun gpuSet =>
    (p, gpuSet)
  blockers := fun (_, gpuSet) => evictionBlockers cfg now workers pressure (realModels pressures) gpuSet
  fits := fun (p, gpuSet) selected => prismFits cfg p gpuSet (workers.filter (· ∉ selected))

variable {cfg now all workers pressure pressures}

theorem choosePrismSleep_options (candidates : List PlacementProfile) (existing : Option (List WorkerPlacement)) :
    choosePrismSleep cfg now candidates all workers pressure (realModels pressures) existing =
      minBy sleepCost (sleepSearch cfg now all workers pressure pressures candidates existing).options :=
  choosePrismSleep_eq candidates existing

theorem choosePrismEviction_options (candidates : List PlacementProfile) :
    choosePrismEviction cfg now all workers pressure (realModels pressures) candidates =
      minBy evictionCost (evictionSearch cfg now all workers pressure pressures candidates).options := by
  unfold choosePrismEviction prismEvictionOptions Search.options evictionSearch
  rw [List.flatMap_assoc]
  simp only [List.flatMap_map]

/-! ### The last workers of a model -/

/-- The selection has two or more workers of a model with requests, and with
them all. -/
def TakesAll (pressures : List QueuePressure) (residents : ModelId → List WorkerPlacement)
    (selected : List WorkerPlacement) : Prop :=
  ∃ m ∈ realModels pressures, 2 ≤ (residents m).length ∧ ∀ w ∈ residents m, w ∈ selected

/-- Every smallest selection that takes two or more workers of a model with
requests, and with them all, is passed over, unless the pressure is starved. -/
def Spares {ι : Type} {κ : Type*} [LinearOrder κ] (search : Search ι) (cost : List WorkerPlacement → κ)
    (pressures : List QueuePressure) (residents : ModelId → List WorkerPlacement) (starved : Prop) : Prop :=
  ∀ s, search.Finds s → TakesAll pressures residents s → starved ∨ search.Passes cost s

/-- A choice among selections that take a worker of a pressured model only
where it has another one. -/
theorem fair_choice_iff {ι : Type} {κ : Type*} [LinearOrder κ] {search : Search ι}
    {cost : List WorkerPlacement → κ} {residents : ModelId → List WorkerPlacement} {starved : Prop}
    (hspare : ∀ i, ∀ w ∈ search.blockers i, ∀ m ∈ realModels pressures, w ∈ residents m →
      2 ≤ (residents m).length ∨ starved) :
    (∀ s, minBy cost search.options = some s → ∀ m ∈ realModels pressures, Strips (residents m) s → starved) ↔
      Spares search cost pressures residents starved := by
  constructor
  · rintro h s hs ⟨m, hm, htwo, hall⟩
    rw [← Search.not_firstMin hs]
    by_cases hmin : FirstMin cost search.options s
    · have hne : residents m ≠ [] := by
        rintro hnil
        rw [hnil] at htwo
        simp at htwo
      exact .inl (h s (minBy_eq_some.mpr hmin) m hm ⟨hne, hall⟩)
    · exact .inr hmin
  · rintro h s hmin m hm ⟨hne, hall⟩
    have hs := Search.mem_options.mp (mem_of_minBy hmin)
    obtain ⟨w, hw⟩ := List.exists_mem_of_ne_nil _ hne
    have hfinds := hs
    obtain ⟨i, -, ⟨-, hsub, -⟩, -⟩ := hfinds
    rcases hspare i w (hsub.subset (hall w hw)) m hm hw with htwo | hstarved
    · rcases h s hs ⟨m, hm, htwo, hall⟩ with hstarved | hpassed
      · exact hstarved
      · exact absurd (minBy_eq_some.mp hmin) ((Search.not_firstMin hs).mpr hpassed)
    · exact hstarved

theorem length_readyWorkers (m : ModelId) :
    (readyWorkers workers m).length = workers.countP fun v => v.state = .ready ∧ v.modelId = m := by
  unfold readyWorkers modelWorkers
  rw [List.filter_filter, ← List.countP_eq_length_filter]
  apply List.countP_congr
  intro w _
  simp

theorem mem_readyWorkers {m : ModelId} {w : WorkerPlacement} (h : w ∈ readyWorkers workers m) : w.modelId = m := by
  simp only [readyWorkers, modelWorkers, List.mem_filter, decide_eq_true_eq] at h
  exact h.1.2

theorem fairSleep_iff (candidates : List PlacementProfile) (existing : Option (List WorkerPlacement)) :
    FairSleep cfg now all workers pressure pressures candidates existing ↔
      Spares (sleepSearch cfg now all workers pressure pressures candidates existing) sleepCost pressures
        (readyWorkers workers) (Starved cfg now pressure) := by
  unfold FairSleep
  simp only [choosePrismSleep_options]
  apply fair_choice_iff
  intro i w hblocker m hm hw
  simp only [sleepSearch, blockersOf, List.mem_filter, decide_eq_true_eq] at hblocker
  obtain ⟨-, -, -, -, -, -, hother | hmany | hstarved⟩ := hblocker
  · rw [mem_readyWorkers hw] at hother
    exact absurd hm hother
  · rw [mem_readyWorkers hw, ← length_readyWorkers] at hmany
    exact .inl hmany
  · exact .inr hstarved

theorem mem_residentWorkers {m : ModelId} {w : WorkerPlacement} :
    w ∈ residentWorkers workers m ↔ w ∈ workers ∧ w.modelId = m ∧ w.state ∈ [.loading, .ready] := by
  simp [residentWorkers]

theorem fairEviction_iff (candidates : List PlacementProfile) :
    FairEviction cfg now all workers pressure pressures candidates ↔
      Spares (evictionSearch cfg now all workers pressure pressures candidates) evictionCost pressures
        (residentWorkers workers) (Starved cfg now pressure) := by
  unfold FairEviction
  simp only [choosePrismEviction_options]
  apply fair_choice_iff
  intro i w hblocker m hm hw
  simp only [evictionSearch, evictionBlockers, List.mem_filter, decide_eq_true_eq] at hblocker
  have hmodel := (mem_residentWorkers.mp hw).2.1
  obtain ⟨-, -, -, -, -, -, hother | hmany | hstarved⟩ := hblocker
  · rw [hmodel] at hother
    exact absurd hm hother
  · rw [hmodel] at hmany
    exact .inl hmany
  · exact .inr hstarved

theorem mem_pressured {m : ModelId} (h : m ∈ realModels pressures) : m ∈ pressures.map (·.modelId) := by
  unfold realModels at h
  obtain ⟨q, hq, rfl⟩ := List.mem_map.mp h
  exact List.mem_map_of_mem (List.mem_of_mem_filter hq)

/-- A set that can be drained has a worker of a model that it does not count,
if it has all of the model's. -/
theorem exists_override {pressured : List ModelId} {gpuSet : List GpuUuid} {m : ModelId} (hm : m ∈ pressured)
    (hcan : CanDrain cfg now workers pressure pressured gpuSet)
    (hstrips : Strips (residentWorkers workers m) (workersOn workers gpuSet)) :
    ∃ w ∈ residentWorkers workers m, starvationOverride cfg now pressure w = true := by
  obtain ⟨hne, hall⟩ := hstrips
  by_contra hnone
  push Not at hnone
  obtain ⟨w, hw⟩ := List.exists_mem_of_ne_nil _ hne
  have hcharged : ∀ v ∈ residentWorkers workers m,
      v ∈ charged cfg now pressure pressured (workersOn workers gpuSet) := by
    intro v hv
    refine List.mem_filter.mpr ⟨hall v hv, ?_⟩
    rw [(mem_residentWorkers.mp hv).2.1]
    simpa [hm] using hnone v hv
  have hspared := hcan.spared w (hcharged w hw)
  rw [(mem_residentWorkers.mp hw).2.1] at hspared
  -- the workers of the model that are counted are all of its residents
  have hle : (residentWorkers workers m).length ≤
      ((charged cfg now pressure pressured (workersOn workers gpuSet)).filter (·.modelId = m)).length := by
    unfold residentWorkers charged workersOn
    rw [List.filter_filter, List.filter_filter, ← List.countP_eq_length_filter, ← List.countP_eq_length_filter]
    apply List.countP_mono_left
    intro v hv hresident
    have hres : v ∈ residentWorkers workers m := List.mem_filter.mpr ⟨hv, hresident⟩
    have hmem := hcharged v hres
    unfold charged workersOn at hmem
    rw [List.mem_filter, List.mem_filter] at hmem
    rw [Bool.and_eq_true, Bool.and_eq_true, decide_eq_true_eq]
    exact ⟨⟨(mem_residentWorkers.mp hres).2.1, hmem.2⟩, hmem.1.2⟩
  omega

theorem fairPreemption_iff (candidates : List PlacementProfile) :
    FairPreemption cfg now workers pressure pressures candidates ↔
      (idleBlockers cfg now workers (pressures.map (·.modelId)) candidates = [] → ∀ drainedSet,
        FirstDrained cfg now workers pressure (pressures.map (·.modelId)) candidates drainedSet →
        ∀ m ∈ realModels pressures, (∀ w ∈ residentWorkers workers m, gpusMeet w.gpuUuids drainedSet = true) →
          (∀ w ∈ residentWorkers workers m, starvationOverride cfg now pressure w = true) ∨
          ∀ w ∈ residentWorkers workers m, starvationOverride cfg now pressure w = false) := by
  constructor
  · intro h hidle drainedSet hfirst m hm hon
    by_cases hne : residentWorkers workers m = []
    · rw [hne]
      exact .inl (by simp)
    · refine .inl (h _ ((choosePreemption_eq_some hidle).mpr ⟨drainedSet, hfirst, rfl⟩) m hm ⟨hne, fun w hw => ?_⟩)
      rw [mem_sortedBy]
      exact List.mem_filter.mpr ⟨(mem_residentWorkers.mp hw).1, hon w hw⟩
  · intro h selected hchoice m hm hstrips
    by_cases hidle : idleBlockers cfg now workers (pressures.map (·.modelId)) candidates = []
    · obtain ⟨drainedSet, hfirst, rfl⟩ := (choosePreemption_eq_some hidle).mp hchoice
      obtain ⟨hne, hall⟩ := hstrips
      simp only [mem_sortedBy] at hall
      have hon : ∀ w ∈ residentWorkers workers m, gpusMeet w.gpuUuids drainedSet = true := by
        intro w hw
        exact (List.mem_filter.mp (hall w hw)).2
      rcases h hidle drainedSet hfirst m hm hon with hover | hcounted
      · exact hover
      · obtain ⟨before, after, -, -, hcan⟩ := hfirst
        obtain ⟨w, hw, hover⟩ := exists_override (mem_pressured hm) hcan ⟨hne, hall⟩
        rw [hcounted w hw] at hover
        cases hover
    · -- idle blockers are of models without a pressure
      obtain ⟨hne, hall⟩ := hstrips
      obtain ⟨w, hw⟩ := List.exists_mem_of_ne_nil _ hne
      have hmem := (mem_drained_of_idle hidle hchoice w).mp (hall w hw)
      unfold idleBlockers at hmem
      rw [List.mem_filter, decide_eq_true_eq, (mem_residentWorkers.mp hw).2.1] at hmem
      exact absurd (mem_pressured hm) hmem.2.1

/-- **Fair share.** Each of the three searches leaves a model with requests
one of its workers, or its pressure has waited for its share: the prism
searches if and only if they pass over every smallest selection that takes two
or more workers of such a model, and with them all, for a cheaper one or for
one that is as cheap and found before, the native search if and only if it does
not count some and skip others of the workers of such a model that are all on
the set it drains. -/
theorem fairShare_iff (cfg : PlannerConfig) (now : Datetime) (all : List GpuUuid) (workers : List WorkerPlacement)
    (pressure : QueuePressure) (pressures : List QueuePressure) (candidates : List PlacementProfile)
    (existing : Option (List WorkerPlacement)) :
    (FairSleep cfg now all workers pressure pressures candidates existing ↔
      Spares (sleepSearch cfg now all workers pressure pressures candidates existing) sleepCost pressures
        (readyWorkers workers) (Starved cfg now pressure)) ∧
    (FairEviction cfg now all workers pressure pressures candidates ↔
      Spares (evictionSearch cfg now all workers pressure pressures candidates) evictionCost pressures
        (residentWorkers workers) (Starved cfg now pressure)) ∧
    (FairPreemption cfg now workers pressure pressures candidates ↔
      (idleBlockers cfg now workers (pressures.map (·.modelId)) candidates = [] → ∀ drainedSet,
        FirstDrained cfg now workers pressure (pressures.map (·.modelId)) candidates drainedSet →
        ∀ m ∈ realModels pressures, (∀ w ∈ residentWorkers workers m, gpusMeet w.gpuUuids drainedSet = true) →
          (∀ w ∈ residentWorkers workers m, starvationOverride cfg now pressure w = true) ∨
          ∀ w ∈ residentWorkers workers m, starvationOverride cfg now pressure w = false)) :=
  ⟨fairSleep_iff candidates existing, fairEviction_iff candidates, fairPreemption_iff candidates⟩

section examples

/-- A profile for all of the GPUs, or for each of them. -/
def sharing (model : ModelId) (sets : List (List GpuUuid)) (gpus : ℕ) : PlacementProfile where
  id := model
  modelId := model
  engine := .vllm
  gpuCount := gpus
  eligibleGpuSets := sets
  predictedTokensPerSecond := 10
  loadAndWarmupSeconds := 60
  idleVramMibPerGpu := List.replicate gpus 100
  peakVramMibPerGpu := List.replicate gpus 100
  gpuHeadroomMibPerGpu := List.replicate gpus 0
  gpuMemoryUtilization := 9 / 10
  memoryBackend := "kvcached"

/-- A READY worker of a model with requests of its own. -/
def replica (gpu : GpuUuid) (readyAt : Datetime) : WorkerPlacement where
  id := gpu
  profile := sharing "n" [[gpu]] 1
  gpuUuids := [gpu]
  port := 18000
  state := .ready
  readyAt := some readyAt
  lastDemandAt := 0

/-- A model that needs both GPUs takes the two workers of another one: in the
prism modes at once, in the native one as soon as one of them has been READY
for the fair share. -/
theorem not_fairShare :
    ¬ FairSleep onePerGpu 0 ["gpu-0", "gpu-1"] [replica "gpu-0" 0, replica "gpu-1" 0] ⟨"m", 1, 100, 0, false, 1⟩
        [⟨"m", 1, 100, 0, false, 1⟩, ⟨"n", 1, 100, 0, false, 1⟩] [sharing "m" [["gpu-0", "gpu-1"]] 2] none ∧
      ¬ FairEviction onePerGpu 0 ["gpu-0", "gpu-1"] [replica "gpu-0" 0, replica "gpu-1" 0]
        ⟨"m", 1, 100, 0, false, 1⟩ [⟨"m", 1, 100, 0, false, 1⟩, ⟨"n", 1, 100, 0, false, 1⟩]
        [sharing "m" [["gpu-0", "gpu-1"]] 2] ∧
      ¬ FairPreemption onePerGpu 60 [replica "gpu-0" 0, replica "gpu-1" 59] ⟨"m", 1, 100, 0, false, 1⟩
        [⟨"m", 1, 100, 0, false, 1⟩, ⟨"n", 1, 100, 0, false, 1⟩] [sharing "m" [["gpu-0", "gpu-1"]] 2] := by
  have hn : "n" ∈ realModels [⟨"m", 1, 100, 0, false, 1⟩, ⟨"n", 1, 100, 0, false, 1⟩] := by decide
  have hboth : ∀ t : Datetime, Strips (residentWorkers [replica "gpu-0" 0, replica "gpu-1" t] "n")
      [replica "gpu-0" 0, replica "gpu-1" t] := by
    intro t
    have hall : residentWorkers [replica "gpu-0" 0, replica "gpu-1" t] "n" =
        [replica "gpu-0" 0, replica "gpu-1" t] := rfl
    rw [hall]
    exact ⟨by simp, fun w hw => hw⟩
  refine ⟨fun h => ?_, fun h => ?_, fun h => ?_⟩
  · have hstarved := h [replica "gpu-0" 0, replica "gpu-1" 0] (by decide +kernel) "n" hn (hboth 0)
    exact absurd hstarved (by unfold Starved; decide +kernel)
  · have hstarved := h [replica "gpu-0" 0, replica "gpu-1" 0] (by decide +kernel) "n" hn (hboth 0)
    exact absurd hstarved (by unfold Starved; decide +kernel)
  · have hover := h [replica "gpu-0" 0, replica "gpu-1" 59] (by decide +kernel) "n" hn (hboth 59)
      (replica "gpu-1" 59) (by decide +kernel)
    exact absurd hover (by decide +kernel)

end examples

end Planner
end LlmRio
