/-
# Room that stays when workers leave

A plan is carried out one action after the other, and workers may stop or
fail in between. `_cached_prism_fits` is antitone in the workers: a worker
that is on a GPU can only add to what makes a test fail, the slots, the
processes and the VRAM that it takes, the strictest utilization, a backend or
a missing measurement (`fitsOn_antitone`). So what fits among some workers
fits among fewer of them (`fits_antitone`).

The measurements of the workers, the reserve of a sleeper and the VRAM of the
GPUs are not negative. Nothing is assumed of the states, of the ids or of the
set that is to sleep.

Key definitions: `Nonnegative`, `Departed`, `Ending`.
Key theorems: `fitsOn_antitone`, `fits_antitone`.
-/
import LlmRio.Planner.Vram
import LlmRio.Workers.Changes
import Mathlib.Algebra.Order.BigOperators.Group.List
import Mathlib.Data.List.Perm.Subperm
import Mathlib.Logic.Relation

namespace LlmRio
namespace Planner

open Selection

variable (cfg : PlannerConfig)

/-- What the profile was measured to take is not negative. -/
structure NonnegativeProfile (p : PlacementProfile) : Prop where
  idle : ∀ mib ∈ p.idleVramMibPerGpu, 0 ≤ mib
  peak : ∀ mib ∈ p.peakVramMibPerGpu, 0 ≤ mib
  headroom : ∀ mib ∈ p.gpuHeadroomMibPerGpu, 0 ≤ mib

/-- So are the measurements of the workers, the reserve and the VRAM totals. -/
structure Nonnegative (workers : List WorkerPlacement) : Prop where
  profiles : ∀ w ∈ workers, NonnegativeProfile w.profile
  reserve : 0 ≤ cfg.prismSleepGpuReserveMib
  totals : ∀ gpu mib, (gpu, mib) ∈ cfg.gpuVramMib → 0 ≤ mib

/-- Between `before` and `after` workers have stopped or failed: each is as it
was, or COLD, or not listed any more. -/
def Departed (before after : List WorkerPlacement) : Prop :=
  ∃ ended : WorkerPlacement → Option WorkerPlacement,
    (∀ w ∈ before, ∀ v ∈ ended w, v = w ∨ v.state = .cold) ∧ after = before.filterMap ended

/-- A worker ends: `_stop` or `_fail` makes it COLD, or its launch fails and
drops it. Until its stop has ended it is STOPPING, which counts as resident. -/
inductive Ending (s : Supervisor.State) : Supervisor.State → Prop
  | stopped (k : ℕ) (id : WorkerId) : Ending s (Supervisor.stoppedSection s k id)
  | failed (k : ℕ) (id : WorkerId) (locked : Bool) : Ending s (Supervisor.failSection s k id locked)
  | dropped (id : WorkerId) : Ending s { (s.cleanup id).pop id with launching := none }

variable {cfg} {workers live live' : List WorkerPlacement}

/-! ### What a worker takes is not negative -/

theorem getD_nonneg {xs : List ℤ} (h : ∀ x ∈ xs, 0 ≤ x) (i : ℕ) : 0 ≤ xs.getD i 0 := by
  rw [List.getD_eq_getElem?_getD]
  cases hget : xs[i]? with
  | none => exact le_refl _
  | some x => exact h x (List.mem_of_getElem? hget)

theorem residentMib_nonneg {p : PlacementProfile} (h : NonnegativeProfile p) (i : ℕ) : 0 ≤ residentMib p i := by
  have hidle := getD_nonneg h.idle i
  have hheadroom := getD_nonneg h.headroom i
  unfold residentMib
  exact add_nonneg (le_max_of_le_left hidle) hheadroom

theorem sleepingMib_nonneg (h : 0 ≤ cfg.prismSleepGpuReserveMib) (p : PlacementProfile) (i : ℕ) :
    0 ≤ sleepingMib cfg p i := by
  unfold sleepingMib
  split
  · split
    · exact le_max_of_le_left h
    · exact h
  · exact h

theorem totalMib_nonneg (h : ∀ gpu mib, (gpu, mib) ∈ cfg.gpuVramMib → 0 ≤ mib) (gpu : GpuUuid) :
    0 ≤ totalMib cfg gpu := by
  unfold totalMib
  cases hget : cfg.gpuVramMib.lookup gpu with
  | none => exact le_refl _
  | some mib =>
    obtain ⟨before, after, heq, -⟩ := List.lookup_eq_some_iff.mp hget
    exact h gpu mib (heq ▸ by simp)

/-! ### Fewer workers take less -/

/-- A part of some values that are not negative adds up to no more. -/
theorem sum_map_le_of_subperm {α : Type*} {f : α → ℤ} {xs ys : List α} (h : xs.Subperm ys)
    (hf : ∀ y ∈ ys, 0 ≤ f y) : (xs.map f).sum ≤ (ys.map f).sum := by
  obtain ⟨zs, hperm, hsub⟩ := h
  calc (xs.map f).sum = (zs.map f).sum := ((hperm.map f).sum_eq).symm
    _ ≤ (ys.map f).sum := by
      refine List.Sublist.sum_le_sum (hsub.map f) fun z hz => ?_
      obtain ⟨y, hy, rfl⟩ := List.mem_map.mp hz
      exact hf y hy

theorem any_of_subset {α : Type*} {p : α → Bool} {xs ys : List α} (h : xs ⊆ ys) (hany : xs.any p = true) :
    ys.any p = true := by
  obtain ⟨x, hx, hpx⟩ := List.any_eq_true.mp hany
  exact List.any_eq_true.mpr ⟨x, h hx, hpx⟩

/-- The smallest of fewer values is no smaller. -/
theorem smallest_le_of_subset {κ : Type*} [LinearOrder κ] (x : κ) {xs ys : List κ} (h : xs ⊆ ys) :
    smallest x ys ≤ smallest x xs := by
  rcases smallest_mem xs x with heq | hmem
  · rw [heq]
    exact smallest_le_head ys x
  · exact smallest_le_of_mem ys x _ (h hmem)

/-- A laxer utilization does not lower the budget. -/
theorem budgetMib_mono {gpu : GpuUuid} {u v : ℚ} (htotal : 0 ≤ totalMib cfg gpu) (h : u ≤ v) :
    budgetMib cfg gpu u ≤ budgetMib cfg gpu v := by
  have hcast : (0 : ℚ) ≤ (totalMib cfg gpu : ℚ) := by exact_mod_cast htotal
  unfold budgetMib
  exact min_le_min_left _ (Int.floor_le_floor (mul_le_mul_of_nonneg_left h hcast))

/-! ### `_cached_prism_fits` among fewer workers -/

/-- Each test for a GPU stays passed when there are fewer workers. -/
theorem fitsOn_antitone {profile : PlacementProfile} {existing : Option WorkerId} {prospective : List WorkerId}
    {gpu : GpuUuid} {index : ℕ} (hsub : live.Subperm live') (hnonneg : Nonnegative cfg live')
    (h : fitsOn cfg profile live' existing prospective gpu index = true) :
    fitsOn cfg profile live existing prospective gpu index = true := by
  have hcolocated : (live.filter (gpu ∈ ·.gpuUuids)).Subperm (live'.filter (gpu ∈ ·.gpuUuids)) :=
    hsub.filter _
  unfold fitsOn at h ⊢
  simp only [guard_eq_true, decide_eq_true_eq] at h ⊢
  obtain ⟨hbackend, hprocesses, hslots, hshape, hvram⟩ := h
  have hactive := hcolocated.filter fun w =>
    some w.id ≠ existing ∧ w.id ∉ prospective ∧ w.state ∈ gpuResidentStates
  have hsleeping := hcolocated.filter fun w =>
    some w.id ≠ existing ∧ (w.state = .sleeping ∨ w.id ∈ prospective)
  refine ⟨fun hany => hbackend (any_of_subset hcolocated.subset hany), ?_, ?_,
    fun hany => hshape (any_of_subset hactive.subset hany), ?_⟩
  · have hlen := hcolocated.length_le
    omega
  · have hlen := hactive.length_le
    omega
  · have hresident := sum_map_le_of_subperm (f := fun w : WorkerPlacement =>
      residentMib w.profile (w.gpuUuids.idxOf gpu)) hactive fun w hw =>
        residentMib_nonneg (hnonneg.profiles w (List.mem_of_mem_filter (List.mem_of_mem_filter hw))) _
    have hresidual := sum_map_le_of_subperm (f := fun w : WorkerPlacement =>
      sleepingMib cfg w.profile (w.gpuUuids.idxOf gpu)) hsleeping fun w _ =>
        sleepingMib_nonneg hnonneg.reserve w.profile _
    have hutilization := smallest_le_of_subset profile.gpuMemoryUtilization
      (List.map_subset (·.profile.gpuMemoryUtilization) hcolocated.subset)
    have hbudget := budgetMib_mono (totalMib_nonneg hnonneg.totals gpu) hutilization
    exact le_trans (add_le_add_left (add_le_add hresident hresidual) _) (le_trans hvram hbudget)

theorem fits_of_live {profile : PlacementProfile} {gpuSet : List GpuUuid} {existing : Option WorkerId}
    {prospective : List WorkerId} {workers' : List WorkerPlacement} (hnonneg : Nonnegative cfg workers')
    (hsub : (workers.filter (·.state ≠ .cold)).Subperm (workers'.filter (·.state ≠ .cold)))
    (h : cachedPrismFits cfg profile gpuSet workers' existing prospective = true) :
    cachedPrismFits cfg profile gpuSet workers existing prospective = true := by
  have hlive : Nonnegative cfg (workers'.filter (·.state ≠ .cold)) :=
    { hnonneg with profiles := fun w hw => hnonneg.profiles w (List.mem_of_mem_filter hw) }
  unfold cachedPrismFits at h ⊢
  simp only [guard_eq_true] at h ⊢
  obtain ⟨hlengths, hplaced, hall⟩ := h
  refine ⟨hlengths, fun hany => hplaced (any_of_subset hsub.subset hany), ?_⟩
  rw [List.all_eq_true] at hall ⊢
  exact fun entry hentry => fitsOn_antitone hsub hlive (hall entry hentry)

/-! ### Workers that stop or fail -/

theorem live_of_departed {after : List WorkerPlacement} (h : Departed workers after) :
    (after.filter (·.state ≠ .cold)).Sublist (workers.filter (·.state ≠ .cold)) := by
  obtain ⟨ended, hended, rfl⟩ := h
  induction workers with
  | nil => exact .slnil
  | cons w workers ih =>
    have hrest := ih fun v hv => hended v (List.mem_cons_of_mem _ hv)
    have hw := hended w List.mem_cons_self
    have hcons : (workers.filter (·.state ≠ .cold)).Sublist ((w :: workers).filter (·.state ≠ .cold)) :=
      (List.sublist_cons_self w workers).filter _
    cases hend : ended w with
    | none =>
      rw [List.filterMap_cons_none hend]
      exact hrest.trans hcons
    | some v =>
      rw [List.filterMap_cons_some hend]
      by_cases hcold : v.state = .cold
      · rw [List.filter_cons_of_neg (by simpa using hcold)]
        exact hrest.trans hcons
      · obtain rfl := (hw v hend).resolve_right hcold
        rw [List.filter_cons_of_pos (by simpa using hcold), List.filter_cons_of_pos (by simpa using hcold)]
        exact hrest.cons_cons v

theorem departed_map {f : WorkerPlacement → WorkerPlacement} (hf : ∀ w, f w = w ∨ (f w).state = .cold)
    (workers : List WorkerPlacement) : Departed workers (workers.map f) := by
  refine ⟨fun w => some (f w), fun w _ v hv => ?_, ?_⟩
  · obtain rfl := Option.mem_some_iff.mp hv
    exact hf w
  · rw [← List.filterMap_eq_map]
    rfl

theorem departed_modify {f : WorkerPlacement → WorkerPlacement} (hf : ∀ w, (f w).state = .cold) (id : WorkerId)
    (workers : List WorkerPlacement) : Departed workers (Table.modify WorkerPlacement.id id f workers) := by
  refine departed_map (fun w => ?_) workers
  by_cases hid : w.id = id
  · rw [if_pos hid]
    exact .inr (hf w)
  · rw [if_neg hid]
    exact .inl rfl

theorem departed_pop (id : WorkerId) (workers : List WorkerPlacement) :
    Departed workers (workers.filter (·.id ≠ id)) := by
  refine ⟨fun w => if w.id = id then none else some w, fun w _ v hv => ?_, ?_⟩
  · by_cases hid : w.id = id
    · simp [hid] at hv
    · simp only [if_neg hid] at hv
      exact .inl (Option.mem_some_iff.mp hv).symm
  · rw [← List.filterMap_eq_filter]
    apply List.filterMap_congr
    intro w _
    by_cases hid : w.id = id <;> simp [Option.guard, hid]

theorem Departed.refl (workers : List WorkerPlacement) : Departed workers workers := by
  have hmap := departed_map (f := id) (fun _ => .inl rfl) workers
  rwa [List.map_id] at hmap

theorem Departed.trans {first second third : List WorkerPlacement} (h : Departed first second)
    (h' : Departed second third) : Departed first third := by
  obtain ⟨ended, hended, rfl⟩ := h
  obtain ⟨ended', hended', rfl⟩ := h'
  refine ⟨fun w => (ended w).bind ended', fun w hw v hv => ?_, by rw [List.filterMap_filterMap]⟩
  obtain ⟨u, hu, hv⟩ := Option.bind_eq_some_iff.mp hv
  have hmem : u ∈ first.filterMap ended := List.mem_filterMap.mpr ⟨w, hw, hu⟩
  rcases hended' u hmem v hv with rfl | hcold
  · exact hended w hw v hu
  · exact .inr hcold

/-- One ending leaves the other workers as they are. -/
theorem departed_ending {s s' : Supervisor.State} (h : Ending s s') : Departed s.workers s'.workers := by
  cases h with
  | stopped k id =>
    unfold Supervisor.stoppedSection
    simp only [Supervisor.State.workers_goto, Supervisor.State.workers_modify, Supervisor.State.workers_noSleepIntent]
    exact departed_modify (fun _ => rfl) id s.workers
  | failed k id locked =>
    unfold Supervisor.failSection
    split
    · simp only [Supervisor.State.workers_goto, Supervisor.State.workers_modify, Supervisor.State.workers_noSleepIntent]
      exact departed_modify (fun _ => rfl) id s.workers
    · rw [Supervisor.State.workers_finish]
      exact .refl s.workers
  | dropped id => exact departed_pop id s.workers

theorem departed_run {s s' : Supervisor.State} (h : Relation.ReflTransGen Ending s s') :
    Departed s.workers s'.workers := by
  induction h with
  | refl => exact .refl s.workers
  | tail _ hending ih => exact ih.trans (departed_ending hending)

/-- **Fit is antitone in the worker set.** What `_cached_prism_fits` accepts
among the workers it accepts among fewer of them, and after some of them
have stopped or failed. -/
theorem fits_antitone (cfg : PlannerConfig) (profile : PlacementProfile) (gpuSet : List GpuUuid)
    (existing : Option WorkerId) (prospective : List WorkerId) (workers' : List WorkerPlacement)
    (hnonneg : Nonnegative cfg workers')
    (h : cachedPrismFits cfg profile gpuSet workers' existing prospective = true) :
    (∀ workers : List WorkerPlacement, workers.Subperm workers' →
      cachedPrismFits cfg profile gpuSet workers existing prospective = true) ∧
    ∀ s s' : Supervisor.State, s.workers = workers' → Relation.ReflTransGen Ending s s' →
      cachedPrismFits cfg profile gpuSet s'.workers existing prospective = true := by
  refine ⟨fun workers hsub => fits_of_live hnonneg (hsub.filter _) h, ?_⟩
  rintro s s' rfl hrun
  exact fits_of_live hnonneg (live_of_departed (departed_run hrun)).subperm h

/-! ### One GPU with a sleeper and a resident worker -/

def roomyConfig : PlannerConfig where
  minimumResidencySeconds := 60
  fairShareSeconds := 60
  minimumMarginalEfficiency := 0
  gpuVramMib := [("g0", 24000)]
  reservedVramMib := 1024

def measuredProfile (model : ModelId) : PlacementProfile :=
  { Supervisor.oneGpu "kvcached" with
    modelId := model
    gpuCount := 1
    eligibleGpuSets := [["g0"]]
    idleVramMibPerGpu := [4000]
    peakVramMibPerGpu := [5000]
    gpuHeadroomMibPerGpu := [500]
    gpuMemoryUtilization := 9 / 10 }

def sleeper : WorkerPlacement :=
  { Supervisor.newWorker (measuredProfile "m1") ["g0"] "w1" 18001 0 with state := .sleeping }

def resident : WorkerPlacement :=
  { Supervisor.newWorker (measuredProfile "m2") ["g0"] "w2" 18002 0 with state := .ready }

theorem fits_antitone_colocated :
    cachedPrismFits roomyConfig (measuredProfile "m") ["g0"] [resident] none [] = true ∧
      cachedPrismFits roomyConfig (measuredProfile "m") ["g0"] [sleeper, resident.stopped] none [] = true := by
  have hprofile : ∀ model, NonnegativeProfile (measuredProfile model) := fun model =>
    ⟨by simp [measuredProfile], by simp [measuredProfile], by simp [measuredProfile]⟩
  have hnonneg : Nonnegative roomyConfig [sleeper, resident] := by
    refine ⟨?_, by decide, by simp [roomyConfig]⟩
    simp only [List.forall_mem_cons, List.not_mem_nil, false_implies, implies_true, and_true]
    exact ⟨hprofile "m1", hprofile "m2"⟩
  have hfits : cachedPrismFits roomyConfig (measuredProfile "m") ["g0"] [sleeper, resident] none [] = true := by
    decide +kernel
  have hantitone := fits_antitone roomyConfig (measuredProfile "m") ["g0"] none [] [sleeper, resident] hnonneg hfits
  have hstop : Ending { workers := [sleeper, resident] } _ := .stopped 0 "w2"
  exact ⟨hantitone.1 [resident] (List.sublist_cons_self _ _).subperm, hantitone.2 _ _ rfl (.single hstop)⟩

end Planner
end LlmRio
