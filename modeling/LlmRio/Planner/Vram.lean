/-
# Room on a GPU

The VRAM accounting of the weight-cache planner. A worker in a GPU-resident
state takes the larger of its idle and its peak VRAM plus its headroom, a
SLEEPING one a residual, and what they may take together is the GPU's memory
less a reserve, or the share of it that the strictest profile on the GPU
allows. `_cached_prism_fits` tests whether one more worker has room, among
the workers it is given (`fits_roomy`).

`Safe` says that the workers on a GPU are within the slots and the budget. A
start or a wake leaves a GPU safe if and only if there was room on it beside
all the workers there are (`safe_start_iff`, `safe_wake_iff`).

Key definitions: `PlannerConfig`, `cachedPrismFits`, `Roomy`, `Safe`.
Key theorems: `fits_roomy`, `safe_start_iff`, `safe_wake_iff`.
-/
import LlmRio.Lib.Selection
import LlmRio.Lib.Table
import LlmRio.Workers.Supervisor
import Mathlib.Data.Rat.Floor

namespace LlmRio
namespace Planner

open Selection

/-- The settings of `GreedyPlacementPlanner` that the weight-cache mode reads. -/
structure PlannerConfig where
  minimumResidencySeconds : ℚ
  fairShareSeconds : ℚ
  scaleWindowSeconds : ℚ := 30
  minimumMarginalEfficiency : ℚ
  gpuVramMib : List (GpuUuid × ℤ)
  reservedVramMib : ℤ
  prismMaxWorkersPerGpu : ℤ := 2
  prismMaxCachedWorkersPerGpu : ℤ := 8
  prismSleepGpuReserveMib : ℤ := 1536
  prismIdleSleepSeconds : ℚ := 45
deriving Repr

variable (cfg : PlannerConfig)

/-! ### What a worker takes -/

/-- `self.gpu_vram_mib.get(gpu_uuid, 0)` -/
def totalMib (gpu : GpuUuid) : ℤ := (cfg.gpuVramMib.lookup gpu).getD 0

/-- The profile has a measurement for the GPU at position `i`. -/
def measured (p : PlacementProfile) (i : ℕ) : Bool :=
  i < p.idleVramMibPerGpu.length ∧ i < p.peakVramMibPerGpu.length ∧ i < p.gpuHeadroomMibPerGpu.length

/-- What the profile takes on the GPU at position `i` when it is resident. -/
def residentMib (p : PlacementProfile) (i : ℕ) : ℤ :=
  max (p.idleVramMibPerGpu.getD i 0) (p.peakVramMibPerGpu.getD i 0) + p.gpuHeadroomMibPerGpu.getD i 0

/-- What it takes there when its worker sleeps. -/
def sleepingMib (p : PlacementProfile) (i : ℕ) : ℤ :=
  match p.sleepVramMibPerGpu with
  | some mib => if i < mib.length then max cfg.prismSleepGpuReserveMib (mib.getD i 0)
    else cfg.prismSleepGpuReserveMib
  | none => cfg.prismSleepGpuReserveMib

/-- The budget of a GPU for a utilization. Utilizations are exact rationals, and
so is their product with the total, which the code rounds to a float. -/
def budgetMib (gpu : GpuUuid) (utilization : ℚ) : ℤ :=
  min (totalMib cfg gpu - cfg.reservedVramMib) ⌊(totalMib cfg gpu : ℚ) * utilization⌋

/-! ### `_cached_prism_fits` -/

/-- The test for one GPU of the set, which `profile` has at position `index`. -/
def fitsOn (profile : PlacementProfile) (live : List WorkerPlacement) (existing : Option WorkerId)
    (prospectiveSleep : List WorkerId) (gpu : GpuUuid) (index : ℕ) : Bool :=
  let colocated := live.filter (gpu ∈ ·.gpuUuids)
  if colocated.any (!·.profile.isKvcached) then false
  else
    let newProcesses : ℤ := if existing.isSome then 0 else 1
    if cfg.prismMaxCachedWorkersPerGpu < colocated.length + newProcesses then false
    else
      let active := colocated.filter fun w =>
        some w.id ≠ existing ∧ w.id ∉ prospectiveSleep ∧ w.state ∈ gpuResidentStates
      if cfg.prismMaxWorkersPerGpu < active.length + 1 then false
      else if active.any (fun w => !measured w.profile (w.gpuUuids.idxOf gpu)) then false
      else
        let sleeping := colocated.filter fun w =>
          some w.id ≠ existing ∧ (w.state = .sleeping ∨ w.id ∈ prospectiveSleep)
        let used := (active.map fun w => residentMib w.profile (w.gpuUuids.idxOf gpu)).sum +
          (sleeping.map fun w => sleepingMib cfg w.profile (w.gpuUuids.idxOf gpu)).sum
        let utilization := smallest profile.gpuMemoryUtilization
          (colocated.map (·.profile.gpuMemoryUtilization))
        used + residentMib profile index ≤ budgetMib cfg gpu utilization

def cachedPrismFits (profile : PlacementProfile) (gpuSet : List GpuUuid) (workers : List WorkerPlacement)
    (existing : Option WorkerId) (prospectiveSleep : List WorkerId) : Bool :=
  if profile.idleVramMibPerGpu.length ≠ gpuSet.length ∨ profile.peakVramMibPerGpu.length ≠ gpuSet.length ∨
      profile.gpuHeadroomMibPerGpu.length ≠ gpuSet.length then false
  else
    let live := workers.filter (·.state ≠ .cold)
    if live.any (fun w => some w.id ≠ existing ∧ w.modelId = profile.modelId ∧ w.gpuUuids = gpuSet) then false
    else gpuSet.zipIdx.all fun (gpu, index) => fitsOn cfg profile live existing prospectiveSleep gpu index

/-! ### Slots and budget -/

/-- The workers on the GPU whose weights are on it. -/
def residents (workers : List WorkerPlacement) (gpu : GpuUuid) : List WorkerPlacement :=
  workers.filter fun w => gpu ∈ w.gpuUuids ∧ w.state ∈ gpuResidentStates

/-- What the worker takes on the GPU. -/
def shareMib (gpu : GpuUuid) (w : WorkerPlacement) : ℤ :=
  if gpu ∈ w.gpuUuids ∧ w.state ∈ gpuResidentStates then residentMib w.profile (w.gpuUuids.idxOf gpu)
  else if gpu ∈ w.gpuUuids ∧ w.state = .sleeping then sleepingMib cfg w.profile (w.gpuUuids.idxOf gpu)
  else 0

def usedMib (workers : List WorkerPlacement) (gpu : GpuUuid) : ℤ := (workers.map (shareMib cfg gpu)).sum

/-- The utilizations of the profiles that have a worker on the GPU. -/
def utilizations (workers : List WorkerPlacement) (gpu : GpuUuid) : List ℚ :=
  (workers.filter fun w => gpu ∈ w.gpuUuids ∧ w.state ≠ .cold).map (·.profile.gpuMemoryUtilization)

/-- The workers on the GPU are within its slots and its budget. -/
structure Safe (workers : List WorkerPlacement) (gpu : GpuUuid) : Prop where
  slots : ((residents workers gpu).length : ℤ) ≤ cfg.prismMaxWorkersPerGpu
  vram : ∀ u us, utilizations workers gpu = u :: us → usedMib cfg workers gpu ≤ budgetMib cfg gpu (smallest u us)

/-- There is a slot and VRAM on the GPU for one more worker of the profile on
the set, beside all these workers but `existing`. -/
def RoomyOn (profile : PlacementProfile) (gpuSet : List GpuUuid) (workers : List WorkerPlacement)
    (existing : Option WorkerId) (gpu : GpuUuid) : Prop :=
  ((residents (workers.filter fun w => some w.id ≠ existing) gpu).length : ℤ) + 1 ≤ cfg.prismMaxWorkersPerGpu ∧
    usedMib cfg (workers.filter fun w => some w.id ≠ existing) gpu + residentMib profile (gpuSet.idxOf gpu) ≤
      budgetMib cfg gpu (smallest profile.gpuMemoryUtilization (utilizations workers gpu))

/-- So it is on each GPU of the set. -/
def Roomy (profile : PlacementProfile) (gpuSet : List GpuUuid) (workers : List WorkerPlacement)
    (existing : Option WorkerId) : Prop :=
  ∀ gpu ∈ gpuSet, RoomyOn cfg profile gpuSet workers existing gpu

variable {cfg} {workers : List WorkerPlacement} {gpu : GpuUuid}

/-- A test that fails. -/
theorem guard_eq_true {p : Prop} [Decidable p] {b : Bool} :
    (if p then false else b) = true ↔ ¬ p ∧ b = true := by
  split <;> simp_all

/-! ### What `_cached_prism_fits` accepts -/

theorem length_residents (workers : List WorkerPlacement) (gpu : GpuUuid) :
    ((residents workers gpu).length : ℤ) =
      (workers.map fun w => if gpu ∈ w.gpuUuids ∧ w.state ∈ gpuResidentStates then 1 else 0).sum := by
  have hsum := Table.sum_filter (fun w : WorkerPlacement => decide (gpu ∈ w.gpuUuids ∧ w.state ∈ gpuResidentStates))
    (fun _ => (1 : ℤ)) workers
  simp only [decide_eq_true_eq] at hsum
  rw [← hsum]
  simp [residents]

/-- A GPU of the set passes its test at its position. -/
theorem fitsOn_of_fits {profile : PlacementProfile} {gpuSet : List GpuUuid} {existing : Option WorkerId}
    {prospective : List WorkerId} (h : cachedPrismFits cfg profile gpuSet workers existing prospective = true)
    (hgpu : gpu ∈ gpuSet) :
    fitsOn cfg profile (workers.filter (·.state ≠ .cold)) existing prospective gpu (gpuSet.idxOf gpu) = true := by
  unfold cachedPrismFits at h
  split at h
  · cases h
  · simp only at h
    split at h
    · cases h
    · have hlt := List.idxOf_lt_length_of_mem hgpu
      have hmem : (gpu, gpuSet.idxOf gpu) ∈ gpuSet.zipIdx := by
        rw [List.mem_zipIdx_iff_getElem?, List.getElem?_eq_getElem hlt]
        simp
      exact List.all_eq_true.mp h _ hmem

/-- The workers of `_cached_prism_fits` that are resident beside `existing`. -/
theorem active_eq_residents (workers : List WorkerPlacement) (gpu : GpuUuid) (existing : Option WorkerId) :
    ((workers.filter (·.state ≠ .cold)).filter (gpu ∈ ·.gpuUuids)).filter (fun w =>
        some w.id ≠ existing ∧ w.id ∉ ([] : List WorkerId) ∧ w.state ∈ gpuResidentStates) =
      residents (workers.filter fun w => some w.id ≠ existing) gpu := by
  unfold residents
  simp only [List.filter_filter]
  apply List.filter_congr
  intro w _
  have hlive : w.state ∈ gpuResidentStates → w.state ≠ .cold := by
    intro hstate hcold
    simp [hcold, gpuResidentStates] at hstate
  simp only [List.not_mem_nil, not_false_eq_true, true_and, ← Bool.decide_and]
  rw [decide_eq_decide]
  tauto

/-- The workers of `_cached_prism_fits` that sleep beside `existing`. -/
theorem sleeping_eq (workers : List WorkerPlacement) (gpu : GpuUuid) (existing : Option WorkerId) :
    ((workers.filter (·.state ≠ .cold)).filter (gpu ∈ ·.gpuUuids)).filter (fun w =>
        some w.id ≠ existing ∧ (w.state = .sleeping ∨ w.id ∈ ([] : List WorkerId))) =
      (workers.filter fun w => some w.id ≠ existing).filter fun w =>
        gpu ∈ w.gpuUuids ∧ w.state = .sleeping := by
  simp only [List.filter_filter]
  apply List.filter_congr
  intro w _
  have hlive : w.state = .sleeping → w.state ≠ .cold := by
    intro hstate hcold
    rw [hstate] at hcold
    cases hcold
  simp only [List.not_mem_nil, or_false, ← Bool.decide_and]
  rw [decide_eq_decide]
  tauto

/-- What the residents and the sleepers take is what all workers take. -/
theorem sum_shares (workers : List WorkerPlacement) (gpu : GpuUuid) :
    ((residents workers gpu).map fun w => residentMib w.profile (w.gpuUuids.idxOf gpu)).sum +
      ((workers.filter fun w => gpu ∈ w.gpuUuids ∧ w.state = .sleeping).map fun w =>
        sleepingMib cfg w.profile (w.gpuUuids.idxOf gpu)).sum = usedMib cfg workers gpu := by
  rw [residents, Table.sum_filter, Table.sum_filter, ← List.sum_map_add, usedMib]
  congr 1
  apply List.map_congr_left
  intro w _
  have hexcl : w.state = .sleeping → w.state ∉ gpuResidentStates := by
    intro hstate
    simp [hstate, gpuResidentStates]
  unfold shareMib
  by_cases hgpu : gpu ∈ w.gpuUuids
  · by_cases hres : w.state ∈ gpuResidentStates
    · have hnot : w.state ≠ .sleeping := fun hs => hexcl hs hres
      simp [hgpu, hres, hnot]
    · simp [hgpu, hres]
  · simp [hgpu]

theorem colocated_eq_utilizations (workers : List WorkerPlacement) (gpu : GpuUuid) :
    ((workers.filter (·.state ≠ .cold)).filter (gpu ∈ ·.gpuUuids)).map (·.profile.gpuMemoryUtilization) =
      utilizations workers gpu := by
  unfold utilizations
  rw [List.filter_filter]
  congr 1
  apply List.filter_congr
  intro w _
  rw [← Bool.decide_and]

/-- What `_cached_prism_fits` accepts has room beside the workers that it was
given. -/
theorem fits_roomy {profile : PlacementProfile} {gpuSet : List GpuUuid} {existing : Option WorkerId}
    (h : cachedPrismFits cfg profile gpuSet workers existing [] = true) :
    Roomy cfg profile gpuSet workers existing := by
  intro gpu hgpu
  have hfits := fitsOn_of_fits h hgpu
  unfold fitsOn at hfits
  simp only [active_eq_residents, sleeping_eq, sum_shares, colocated_eq_utilizations, guard_eq_true,
    decide_eq_true_eq] at hfits
  obtain ⟨-, -, hslots, -, hvram⟩ := hfits
  exact ⟨not_lt.mp hslots, hvram⟩

/-! ### The GPU after a start and after a wake -/

theorem mem_utilizations {z : ℚ} : z ∈ utilizations workers gpu ↔
    ∃ v ∈ workers, gpu ∈ v.gpuUuids ∧ v.state ≠ .cold ∧ v.profile.gpuMemoryUtilization = z := by
  simp [utilizations, and_assoc]

/-- One more resident worker leaves the GPU safe if and only if there was
room for it. -/
theorem safe_iff_roomyOn {profile : PlacementProfile} {gpuSet : List GpuUuid} {existing : Option WorkerId}
    {after : List WorkerPlacement}
    (hslots : ((residents after gpu).length : ℤ) =
      (residents (workers.filter fun w => some w.id ≠ existing) gpu).length + 1)
    (hused : usedMib cfg after gpu = usedMib cfg (workers.filter fun w => some w.id ≠ existing) gpu +
      residentMib profile (gpuSet.idxOf gpu))
    (hutil : ∀ z, z ∈ utilizations after gpu ↔ z ∈ profile.gpuMemoryUtilization :: utilizations workers gpu) :
    Safe cfg after gpu ↔ RoomyOn cfg profile gpuSet workers existing gpu := by
  have hsmall : ∀ u us, utilizations after gpu = u :: us →
      smallest u us = smallest profile.gpuMemoryUtilization (utilizations workers gpu) := by
    intro u us hu
    apply smallest_congr
    intro z
    rw [← hu]
    exact hutil z
  constructor
  · rintro ⟨h1, h2⟩
    have hmem : profile.gpuMemoryUtilization ∈ utilizations after gpu := (hutil _).mpr List.mem_cons_self
    obtain ⟨u, us, hu⟩ := List.exists_cons_of_ne_nil (List.ne_nil_of_mem hmem)
    have hvram := h2 u us hu
    rw [hused, hsmall u us hu] at hvram
    rw [hslots] at h1
    exact ⟨h1, hvram⟩
  · rintro ⟨h1, h2⟩
    refine ⟨hslots ▸ h1, fun u us hu => ?_⟩
    rw [hused, hsmall u us hu]
    exact h2

/-- A start leaves a GPU of its set safe if and only if there was room. -/
theorem safe_start_iff {profile : PlacementProfile} {gpuSet : List GpuUuid} (hgpu : gpu ∈ gpuSet) (id : WorkerId)
    (port : ℕ) (now : Datetime) :
    Safe cfg (workers ++ [Supervisor.newWorker profile gpuSet id port now]) gpu ↔
      RoomyOn cfg profile gpuSet workers none gpu := by
  have hload : RuntimeState.loading ∈ gpuResidentStates := by decide
  have hall : workers.filter (fun w => some w.id ≠ none) = workers := by simp
  have hshare : shareMib cfg gpu (Supervisor.newWorker profile gpuSet id port now) =
      residentMib profile (gpuSet.idxOf gpu) := by
    simp [shareMib, Supervisor.newWorker, hgpu, hload]
  apply safe_iff_roomyOn
  · rw [hall]
    simp [residents, Supervisor.newWorker, hgpu, hload]
  · rw [hall]
    simp [usedMib, hshare]
  · intro z
    simp [utilizations, Supervisor.newWorker, hgpu, or_comm]

/-- A wake leaves a GPU of its worker safe if and only if there was room. -/
theorem safe_wake_iff {w : WorkerPlacement} (hn : (workers.map (·.id)).Nodup) (hw : w ∈ workers)
    (hgpu : gpu ∈ w.gpuUuids) :
    Safe cfg (Table.modify WorkerPlacement.id w.id (·.waking) workers) gpu ↔
      RoomyOn cfg w.profile w.gpuUuids workers (some w.id) gpu := by
  have hlook : Table.lookup WorkerPlacement.id w.id workers = some w := Table.lookup_of_mem hn hw
  have hothers : workers.filter (fun v => some v.id ≠ some w.id) = workers.filter fun v => v.id ≠ w.id := by
    simp
  have hwake : RuntimeState.waking ∈ gpuResidentStates := by decide
  have hshare : shareMib cfg gpu w.waking = residentMib w.profile (w.gpuUuids.idxOf gpu) := by
    simp [shareMib, WorkerPlacement.waking, hgpu, hwake]
  apply safe_iff_roomyOn
  · rw [hothers, length_residents, Table.sum_modify_filter hn hlook, ← length_residents]
    simp [WorkerPlacement.waking, hgpu, hwake]
  · rw [hothers]
    unfold usedMib
    rw [Table.sum_modify_filter hn hlook, hshare]
  · intro z
    rw [List.mem_cons]
    constructor
    · intro hz
      obtain ⟨v, hv, hg, hstate, rfl⟩ := mem_utilizations.mp hz
      rcases Table.mem_modify.mp hv with ⟨hv', -⟩ | ⟨v', hv', hid, rfl⟩
      · exact .inr (mem_utilizations.mpr ⟨v, hv', hg, hstate, rfl⟩)
      · rw [Table.eq_of_key hn hv' hw hid]
        exact .inl rfl
    · rintro (rfl | hz)
      · have hv : w.waking ∈ Table.modify WorkerPlacement.id w.id (·.waking) workers :=
          Table.mem_modify.mpr (.inr ⟨w, hw, rfl, rfl⟩)
        exact mem_utilizations.mpr ⟨w.waking, hv, hgpu, by simp [WorkerPlacement.waking], rfl⟩
      · obtain ⟨v, hv, hg, hstate, rfl⟩ := mem_utilizations.mp hz
        by_cases hid : v.id = w.id
        · have hv' : v.waking ∈ Table.modify WorkerPlacement.id w.id (·.waking) workers :=
            Table.mem_modify.mpr (.inr ⟨v, hv, hid, rfl⟩)
          exact mem_utilizations.mpr ⟨v.waking, hv', hg, by simp [WorkerPlacement.waking], rfl⟩
        · have hv' : v ∈ Table.modify WorkerPlacement.id w.id (·.waking) workers :=
            Table.mem_modify.mpr (.inl ⟨hv, hid⟩)
          exact mem_utilizations.mpr ⟨v, hv', hg, hstate, rfl⟩

/-- A wake of a worker that is not on the GPU leaves it as it is. -/
theorem safe_wake_other {id : WorkerId} (hid : ∀ v ∈ workers, v.id = id → gpu ∉ v.gpuUuids)
    (h : Safe cfg workers gpu) : Safe cfg (Table.modify WorkerPlacement.id id (·.waking) workers) gpu := by
  have hres : residents (Table.modify WorkerPlacement.id id (·.waking) workers) gpu = residents workers gpu := by
    apply Table.filter_modify_of_not
    intro v hv hk
    simp [WorkerPlacement.waking, hid v hv hk]
  have hused : usedMib cfg (Table.modify WorkerPlacement.id id (·.waking) workers) gpu =
      usedMib cfg workers gpu := by
    unfold usedMib
    rw [Table.map_modify_of_eq]
    intro v hv hk
    simp [shareMib, WorkerPlacement.waking, hid v hv hk]
  have hutil : utilizations (Table.modify WorkerPlacement.id id (·.waking) workers) gpu =
      utilizations workers gpu := by
    unfold utilizations
    rw [Table.filter_modify_of_not]
    intro v hv hk
    simp [WorkerPlacement.waking, hid v hv hk]
  constructor
  · rw [hres]
    exact h.slots
  · intro u us hu
    rw [hutil] at hu
    rw [hused]
    exact h.vram u us hu

end Planner
end LlmRio
