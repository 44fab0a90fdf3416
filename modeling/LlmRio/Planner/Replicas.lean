/-
# How many replicas a backlog asks for

For a model whose workers all sleep, `_plan_prism_weight_cache` divides the
backlog by what one worker serves in the scale window and wakes as many. For
a model with READY workers it divides by what all of them serve together and
compares the quotient, a number of such fleets, with their count. The native
planner does the same. With one READY worker the two agree; with `k` of them
a further one is asked for only when the backlog is above `k ^ 2` times what
one serves (`ready_branches_iff`).

Key definitions: `ReplicaAvailable`, `FreeReplica`, `AddsReplica`.
Key theorems: `planReplica_adds`, `planNative_adds`, `ready_branches_iff`.
-/
import LlmRio.Planner.Modes
import LlmRio.Planner.Residency

namespace LlmRio
namespace Planner

/-- The action starts or wakes a worker. -/
def PlannerAction.adds : PlannerAction → Bool
  | .start .. | .wake .. => true
  | .drain .. | .sleep .. => false

/-- A turn that starts or wakes a worker. -/
def AddsReplica (turn : Option (List PlannerAction)) : Prop := ∃ actions, turn = some actions ∧ ∃ a ∈ actions, a.adds

variable (cfg : PlannerConfig)

/-- A sleeping worker of the model on one GPU can be woken, or one more can be
started on one GPU and is worth it. -/
def ReplicaAvailable (all : List GpuUuid) (live : List WorkerPlacement) (candidates : List PlacementProfile)
    (ready sleeping : List WorkerPlacement) : Prop :=
  candidates.filter (·.gpuCount = 1) ≠ [] ∧
    ((∃ w, firstCachedWake cfg (sleeping.filter (·.profile.gpuCount = 1)) all live = some w) ∨
      ∃ p gpuSet, smallestCachedPrismFitting cfg (candidates.filter (·.gpuCount = 1)) all live = some (p, gpuSet) ∧
        replicaHasUsefulMargin cfg p ready = true)

/-- The first placement on free GPUs is on one GPU and is worth it. -/
def FreeReplica (free : List GpuUuid) (candidates : List PlacementProfile) (ready : List WorkerPlacement) : Prop :=
  ∃ p gpuSet rest, maximumSmallestPlacements (candidates.filter (·.gpuCount = 1)) free = (p, gpuSet) :: rest ∧
    replicaHasUsefulMargin cfg p ready = true

/-- `capacity` of READY workers -/
def readyCapacity (ready : List WorkerPlacement) : ℚ :=
  (ready.map fun w => w.profile.predictedTokensPerSecond * cfg.scaleWindowSeconds).sum

variable {cfg} {now : Datetime} {all free : List GpuUuid} {live active ready sleeping : List WorkerPlacement}
  {realPressure pressured : List ModelId} {pressure : QueuePressure} {candidates : List PlacementProfile}

/-! ### The two branches -/

theorem planReplica_adds (havail : ReplicaAvailable cfg all live candidates ready sleeping) :
    AddsReplica (planReplica cfg now all live realPressure pressure candidates ready sleeping) ↔
      (ready.length : ℤ) < desired pressure (readyCapacity cfg ready) := by
  obtain ⟨hone, hplace⟩ := havail
  unfold planReplica AddsReplica
  rw [← readyCapacity, ← not_le]
  by_cases henough : desired pressure (readyCapacity cfg ready) ≤ ready.length
  · simp [henough]
  · simp only [henough, hone, if_false, not_false_eq_true, iff_true]
    cases hwake : firstCachedWake cfg (sleeping.filter (·.profile.gpuCount = 1)) all live with
    | some w => exact ⟨_, rfl, _, List.mem_cons_self, rfl⟩
    | none =>
      rcases hplace with ⟨w, hw⟩ | ⟨p, gpuSet, hfit, huseful⟩
      · rw [hwake] at hw
        cases hw
      · simp only [hfit, huseful, if_true]
        exact ⟨_, rfl, _, List.mem_cons_self, rfl⟩

theorem planNative_adds {profiles : ModelId → List PlacementProfile}
    (hready : ∀ w ∈ residentWorkers active pressure.modelId, w.state = .ready)
    (hne : residentWorkers active pressure.modelId ≠ [])
    (havail : FreeReplica cfg free (profiles pressure.modelId) (residentWorkers active pressure.modelId)) :
    AddsReplica (planNativeFor cfg now free active pressured profiles pressure) ↔
      ((residentWorkers active pressure.modelId).length : ℤ) <
        desired pressure (readyCapacity cfg (residentWorkers active pressure.modelId)) := by
  have hfilter : (residentWorkers active pressure.modelId).filter (·.state = .ready) =
      residentWorkers active pressure.modelId := by
    rw [List.filter_eq_self]
    intro w hw
    simpa using hready w hw
  obtain ⟨p, gpuSet, rest, hstarts, huseful⟩ := havail
  have hone : (profiles pressure.modelId).filter (·.gpuCount = 1) ≠ [] := by
    intro hnil
    rw [hnil] at hstarts
    cases hstarts
  have hcand : profiles pressure.modelId ≠ [] := by
    intro hnil
    rw [hnil] at hone
    exact hone rfl
  unfold planNativeFor AddsReplica
  simp only [hfilter, hcand, hne, hone, hstarts, or_self, if_false]
  rw [← readyCapacity, ← not_le]
  by_cases henough : desired pressure (readyCapacity cfg (residentWorkers active pressure.modelId)) ≤
      (residentWorkers active pressure.modelId).length
  · simp [henough]
  · obtain ⟨n, hn⟩ : ∃ n, (desired pressure (readyCapacity cfg (residentWorkers active pressure.modelId)) -
        (residentWorkers active pressure.modelId).length).toNat = n + 1 :=
      Nat.exists_eq_succ_of_ne_zero (by omega)
    simp [henough, hn, huseful, PlannerAction.adds]

/-! ### The two counts -/

/-- A count of `k` is below what the backlog asks for by the capacity of all
`k` if and only if it is by the capacity of one, except between `k` and
`k ^ 2` times the latter. -/
theorem lt_desired_iff {k : ℕ} (hk : 1 ≤ k) {c : ℚ} (hc : 1 ≤ c) :
    (((k : ℤ) < desired pressure (k * c)) ↔
        (k : ℤ) < min (max pressure.requests 1) (max 1 ⌈(pressure.estimatedTokens : ℚ) / c⌉)) ↔
      k = 1 ∨ pressure.requests ≤ k ∨ (pressure.estimatedTokens : ℚ) ≤ k * c ∨
        (k : ℚ) ^ 2 * c < pressure.estimatedTokens := by
  have hkq : (1 : ℚ) ≤ k := by exact_mod_cast hk
  have hpos : 0 < (k : ℚ) * c := by positivity
  have hfleet : max ((k : ℚ) * c) 1 = k * c := max_eq_left (one_le_mul_of_one_le_of_one_le hkq hc)
  have hnot : ¬ (k : ℤ) < 1 := by omega
  unfold desired
  rw [hfleet]
  simp only [lt_min_iff, lt_max_iff, hnot, or_false, false_or, Int.lt_ceil, lt_div_iff₀ hpos,
    lt_div_iff₀ (lt_of_lt_of_le one_pos hc), Int.cast_natCast]
  have hsq : (k : ℚ) * (k * c) = k ^ 2 * c := by ring
  have hle : (k : ℚ) * c ≤ k ^ 2 * c := by
    rw [← hsq]
    exact le_mul_of_one_le_left hpos.le hkq
  rw [hsq]
  constructor
  · intro h
    by_cases hr : pressure.requests ≤ k
    · exact .inr (.inl hr)
    · by_cases hone : (pressure.estimatedTokens : ℚ) ≤ k * c
      · exact .inr (.inr (.inl hone))
      · exact .inr (.inr (.inr (h.mpr ⟨not_le.mp hr, not_le.mp hone⟩).2))
  · rintro (rfl | hr | hone | hfleets)
    · simp
    · simp [not_lt.mpr hr]
    · simp [not_lt.mpr hone, not_lt.mpr (le_trans hone hle)]
    · simp [hfleets, lt_of_le_of_lt hle hfleets]

theorem readyCapacity_eq {c : ℚ}
    (hcap : ∀ w ∈ ready, w.profile.predictedTokensPerSecond * cfg.scaleWindowSeconds = c) :
    readyCapacity cfg ready = ready.length * c := by
  unfold readyCapacity
  rw [List.map_congr_left hcap]
  simp

/-- **The replica decision depends on how many replicas run.** With `k` READY
workers that serve `c` tokens each in the scale window, the branches for READY
workers decide as the wake branch does if and only if `k` is 1, no more than
`k` requests wait, or the backlog is at most `k * c` or above `k ^ 2 * c`. -/
theorem ready_branches_iff (cfg : PlannerConfig) (now : Datetime) (all free : List GpuUuid)
    (live active ready sleeping : List WorkerPlacement) (realPressure pressured : List ModelId)
    (pressure : QueuePressure) (candidates : List PlacementProfile) (profiles : ModelId → List PlacementProfile)
    (c : ℚ) (hc : 1 ≤ c) (hne : ready ≠ [])
    (hcap : ∀ w ∈ ready, w.profile.predictedTokensPerSecond * cfg.scaleWindowSeconds = c) :
    (ReplicaAvailable cfg all live candidates ready sleeping →
      ((AddsReplica (planReplica cfg now all live realPressure pressure candidates ready sleeping) ↔
          (ready.length : ℤ) < min (max pressure.requests 1) (max 1 ⌈(pressure.estimatedTokens : ℚ) / c⌉)) ↔
        ready.length = 1 ∨ pressure.requests ≤ ready.length ∨
          (pressure.estimatedTokens : ℚ) ≤ ready.length * c ∨
          (ready.length : ℚ) ^ 2 * c < pressure.estimatedTokens)) ∧
    (residentWorkers active pressure.modelId = ready → (∀ w ∈ ready, w.state = .ready) →
      FreeReplica cfg free (profiles pressure.modelId) ready →
      ((AddsReplica (planNativeFor cfg now free active pressured profiles pressure) ↔
          (ready.length : ℤ) < min (max pressure.requests 1) (max 1 ⌈(pressure.estimatedTokens : ℚ) / c⌉)) ↔
        ready.length = 1 ∨ pressure.requests ≤ ready.length ∨
          (pressure.estimatedTokens : ℚ) ≤ ready.length * c ∨
          (ready.length : ℚ) ^ 2 * c < pressure.estimatedTokens)) := by
  have hlen : 1 ≤ ready.length := List.length_pos_iff.mpr hne
  constructor
  · intro havail
    rw [planReplica_adds havail, readyCapacity_eq hcap]
    exact lt_desired_iff hlen hc
  · rintro rfl hready havail
    rw [planNative_adds hready hne havail, readyCapacity_eq hcap]
    exact lt_desired_iff hlen hc

section fleet

/-- Three GPUs of 1000 MiB, and a profile for each of them that serves 300
tokens in the scale window. -/
def fleetPlanner : PlannerConfig :=
  { oneGpuPlanner with gpuVramMib := [("gpu-0", 1000), ("gpu-1", 1000), ("gpu-2", 1000)] }

def fleetProfile : PlacementProfile :=
  { arriving with eligibleGpuSets := [["gpu-0"], ["gpu-1"], ["gpu-2"]] }

def readyOn (id : WorkerId) (gpu : GpuUuid) : WorkerPlacement where
  id := id
  profile := fleetProfile
  gpuUuids := [gpu]
  port := 18000
  state := .ready
  lastDemandAt := 0

def fleet : List WorkerPlacement := [readyOn "first" "gpu-0", readyOn "second" "gpu-1"]

/-- Three requests with the tokens that three workers serve. -/
def burst : QueuePressure := ⟨"m", 3, 900, 0, false, 1⟩

theorem fleet_capacity : ∀ w ∈ fleet,
    w.profile.predictedTokensPerSecond * fleetPlanner.scaleWindowSeconds = 300 := by decide +kernel

theorem fleet_available :
    ReplicaAvailable fleetPlanner ["gpu-0", "gpu-1", "gpu-2"] fleet [fleetProfile] fleet [] :=
  ⟨by decide, .inr ⟨fleetProfile, ["gpu-2"], by decide +kernel, by decide +kernel⟩⟩

theorem ready_branches_fleet :
    (AddsReplica (planReplica fleetPlanner 0 ["gpu-0", "gpu-1", "gpu-2"] fleet ["m"] burst [fleetProfile] fleet []) ↔
        (fleet.length : ℤ) < min (max burst.requests 1) (max 1 ⌈(burst.estimatedTokens : ℚ) / 300⌉)) ↔
      fleet.length = 1 ∨ burst.requests ≤ fleet.length ∨ (burst.estimatedTokens : ℚ) ≤ fleet.length * 300 ∨
        (fleet.length : ℚ) ^ 2 * 300 < burst.estimatedTokens :=
  (ready_branches_iff fleetPlanner 0 ["gpu-0", "gpu-1", "gpu-2"] ["gpu-2"] fleet fleet fleet [] ["m"] ["m"] burst
    [fleetProfile] (fun _ => [fleetProfile]) 300 (by norm_num) (by decide) fleet_capacity).1 fleet_available

/-- Two workers are kept for what takes three: the quotient by the capacity of
both is two. -/
theorem fleet_too_small :
    ReplicaAvailable fleetPlanner ["gpu-0", "gpu-1", "gpu-2"] fleet [fleetProfile] fleet [] ∧
    ¬ (AddsReplica
          (planReplica fleetPlanner 0 ["gpu-0", "gpu-1", "gpu-2"] fleet ["m"] burst [fleetProfile] fleet []) ↔
        (fleet.length : ℤ) < min (max burst.requests 1) (max 1 ⌈(burst.estimatedTokens : ℚ) / 300⌉)) := by
  have hkept : planReplica fleetPlanner 0 ["gpu-0", "gpu-1", "gpu-2"] fleet ["m"] burst [fleetProfile] fleet [] =
      none := by decide +kernel
  refine ⟨fleet_available, fun h => ?_⟩
  obtain ⟨actions, hadds, -⟩ := h.mpr (by decide +kernel)
  rw [hkept] at hadds
  cases hadds

end fleet

end Planner
end LlmRio
