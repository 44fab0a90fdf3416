/-
# Several wakes at once

`_cached_wakes` wakes one worker after another, each against the workers as
they are once the earlier ones are WAKING. A later wake changes the residents
and the VRAM of the GPUs that it shares with an earlier one, but it was
tested against them: on each GPU the last wake decides (`safe_wakeAll`). The
processes on a GPU stay the same. The loop ends early only when no worker
that is left fits (`cachedWakes_stop`).

Key definitions: `processes`, `JointWakes`.
Key theorems: `cachedWakes_stop`, `cachedWakes_joint`.
-/
import LlmRio.Planner.Residency

namespace LlmRio
namespace Planner

variable (cfg : PlannerConfig) (all : List GpuUuid)

/-- The engine processes on the GPU. -/
def processes (workers : List WorkerPlacement) (gpu : GpuUuid) : ℕ :=
  ((workers.filter (·.state ≠ .cold)).filter (gpu ∈ ·.gpuUuids)).length

/-- What `_cached_wakes` promises of the workers it returns. -/
structure JointWakes (live sleeping : List WorkerPlacement) (limit : ℤ) (wakes : List WorkerPlacement) : Prop where
  limited : wakes.length ≤ limit.toNat
  distinct : (wakes.map (·.id)).Nodup
  listed : ∀ w ∈ wakes, w ∈ sleeping
  /-- With all of them WAKING the slots and the budget of their GPUs are kept. -/
  safe : ∀ w ∈ wakes, ∀ gpu ∈ w.gpuUuids, Safe cfg (wakeAll (wakes.map (·.id)) live) gpu
  processes : ∀ w ∈ wakes, ∀ gpu ∈ w.gpuUuids,
    (processes (wakeAll (wakes.map (·.id)) live) gpu : ℤ) ≤ cfg.prismMaxCachedWorkersPerGpu
  /-- If there are fewer than the limit, no other one fits beside them. -/
  maximal : (wakes.length : ℤ) < limit → ∀ w ∈ sleeping, w ∉ wakes → within w.gpuUuids all = true →
    cachedPrismFits cfg w.profile w.gpuUuids (wakeAll (wakes.map (·.id)) live) (some w.id) [] = false

variable {cfg all} {gpu : GpuUuid}

theorem cachedWakes_length_le : ∀ {fuel : ℕ} {remaining projected : List WorkerPlacement} {limit : ℤ},
    (cachedWakes cfg all fuel remaining projected limit).length ≤ limit.toNat
  | 0, _, _, _ => by simp [cachedWakes]
  | fuel + 1, remaining, projected, limit => by
    unfold cachedWakes
    split
    · simp
    · rename_i hlimit
      split
      · simp
      · rename_i w _
        have hrest := @cachedWakes_length_le fuel (remaining.filter (·.id ≠ w.id))
          (Table.modify WorkerPlacement.id w.id (·.waking) projected) (limit - 1)
        rw [List.length_cons]
        omega

/-- Below its limit the loop has stopped because nothing is left that fits. -/
theorem cachedWakes_stop : ∀ {fuel : ℕ} {remaining projected : List WorkerPlacement} {limit : ℤ},
    remaining.length ≤ fuel → ((cachedWakes cfg all fuel remaining projected limit).length : ℤ) < limit →
    ∀ w ∈ remaining, w.id ∉ (cachedWakes cfg all fuel remaining projected limit).map (·.id) →
      within w.gpuUuids all = true →
      cachedPrismFits cfg w.profile w.gpuUuids
        (wakeAll ((cachedWakes cfg all fuel remaining projected limit).map (·.id)) projected) (some w.id) [] = false
  | 0, remaining, _, _, hfuel, _, w, hw, _, _ => by
    rw [List.length_eq_zero_iff.mp (Nat.le_zero.mp hfuel)] at hw
    cases hw
  | fuel + 1, remaining, projected, limit, hfuel, hlen, w, hw, hid, hin => by
    cases hrun : cachedWakes cfg all (fuel + 1) remaining projected limit with
    | nil =>
      rw [hrun] at hlen
      have hpos : ¬ limit ≤ 0 := by simpa using hlen
      have hnone : firstCachedWake cfg remaining all projected = none := by
        by_contra hsome
        obtain ⟨v, hv⟩ := Option.ne_none_iff_exists'.mp hsome
        simp [cachedWakes, hpos, hv] at hrun
      have hfits := List.find?_eq_none.mp hnone w (Selection.mem_sortedBy.mpr hw)
      simpa [hin, wakeAll] using hfits
    | cons v ws =>
      obtain ⟨fuel', hfuel', -, hwake, hrest⟩ := cachedWakes_cons hrun
      obtain rfl : fuel = fuel' := by omega
      rw [hrun, List.map_cons, List.mem_cons, not_or] at hid
      rw [hrun, List.length_cons] at hlen
      have hmem : w ∈ remaining.filter (·.id ≠ v.id) := List.mem_filter.mpr ⟨hw, by simpa using hid.1⟩
      -- the worker that is woken is not left
      have hshorter : (remaining.filter (·.id ≠ v.id)).length < remaining.length := by
        apply List.length_filter_lt_length_iff_exists.mpr
        exact ⟨v, (first_cached_wake hwake).1, by simp⟩
      have ih := @cachedWakes_stop fuel (remaining.filter (·.id ≠ v.id))
        (Table.modify WorkerPlacement.id v.id (·.waking) projected) (limit - 1)
        (by omega) (by rw [hrest]; push_cast at hlen; omega) w hmem (by rw [hrest]; exact hid.2) hin
      rw [hrest] at ih
      rw [List.map_cons, wakeAll_cons]
      exact ih

/-- A wake starts and ends no process. -/
theorem processes_wakeAll : ∀ {ids : List WorkerId} {workers : List WorkerPlacement},
    (∀ w ∈ workers, w.id ∈ ids → w.state ≠ .cold) → processes (wakeAll ids workers) gpu = processes workers gpu
  | [], _, _ => rfl
  | id :: ids, workers, hids => by
    have hone : processes (Table.modify WorkerPlacement.id id (·.waking) workers) gpu = processes workers gpu := by
      unfold processes
      rw [Table.filter_modify_comm, Table.filter_modify_comm, Table.modify, List.length_map]
      · intro w _ _
        rfl
      · intro w hw hid
        have hlive := hids w hw (hid ▸ List.mem_cons_self)
        simp [WorkerPlacement.waking, hlive]
    rw [wakeAll_cons, ← hone]
    apply processes_wakeAll
    intro v hv hid
    rcases Table.mem_modify.mp hv with ⟨hv', -⟩ | ⟨v', -, -, rfl⟩
    · exact hids v hv' (List.mem_cons_of_mem _ hid)
    · simp [WorkerPlacement.waking]

/-- What is accepted for an existing worker is within the processes. -/
theorem processes_le_of_fits {profile : PlacementProfile} {gpuSet : List GpuUuid} {workers : List WorkerPlacement}
    {id : WorkerId} (h : cachedPrismFits cfg profile gpuSet workers (some id) [] = true) (hgpu : gpu ∈ gpuSet) :
    (processes workers gpu : ℤ) ≤ cfg.prismMaxCachedWorkersPerGpu := by
  have hfits := fitsOn_of_fits h hgpu
  unfold fitsOn at hfits
  simp only [guard_eq_true, Option.isSome_some, if_true, add_zero] at hfits
  exact not_lt.mp hfits.2.1

/-- **The wakes of one plan are feasible together**, and there are as many as
the limit allows or as fit. -/
theorem cachedWakes_joint (cfg : PlannerConfig) (all : List GpuUuid) (live sleeping : List WorkerPlacement)
    (limit : ℤ) (hids : (live.map (·.id)).Nodup)
    (hlive : ∀ w ∈ sleeping, w ∈ live ∧ w.state = .sleeping) :
    JointWakes cfg all live sleeping limit (cachedWakes cfg all sleeping.length sleeping live limit) := by
  set wakes := cachedWakes cfg all sleeping.length sleeping live limit with hwakes
  have hlisted : ∀ w ∈ wakes, w ∈ sleeping := cachedWakes_nodup.1
  have hdistinct : (wakes.map (·.id)).Nodup := cachedWakes_nodup.2
  have hmem : ∀ w ∈ wakes, w ∈ live := fun w hw => (hlive w (hlisted w hw)).1
  have hwarm : ∀ ws : List WorkerPlacement, (∀ w ∈ ws, w ∈ wakes) → ∀ v ∈ live, v.id ∈ ws.map (·.id) →
      v.state ≠ .cold := by
    intro ws hsub v hv hid
    obtain ⟨u, hu, heq⟩ := List.mem_map.mp hid
    obtain ⟨huLive, huState⟩ := hlive u (hlisted u (hsub u hu))
    rw [Table.eq_of_key hids hv huLive heq.symm, huState]
    decide
  refine ⟨cachedWakes_length_le, hdistinct, hlisted, fun w hw gpu hgpu => ?_, fun w hw gpu hgpu => ?_, ?_⟩
  · exact safe_wakeAll hids hmem hdistinct
      (fun pre w post heq => fits_roomy (cachedWakes_fits pre (hwakes.symm.trans heq)).2) hw hgpu
  · obtain ⟨pre, post, heq⟩ := List.append_of_mem hw
    have hfits := processes_le_of_fits (cachedWakes_fits pre (hwakes.symm.trans heq)).2 hgpu
    rw [processes_wakeAll (hwarm pre fun v hv => heq ▸ List.mem_append_left _ hv)] at hfits
    rw [processes_wakeAll (hwarm wakes fun _ hv => hv)]
    exact hfits
  · intro hlen w hw hnot hin
    refine cachedWakes_stop (le_refl _) hlen w hw (fun hid => hnot ?_) hin
    obtain ⟨v, hv, heq⟩ := List.mem_map.mp hid
    rwa [← Table.eq_of_key hids (hmem v hv) (hlive w hw).1 heq]

/-- A worker of the model that sleeps on the GPUs. -/
def sleeperOn (id : WorkerId) (gpus : List GpuUuid) : WorkerPlacement :=
  { leaving .sleeping with
    id := id
    gpuUuids := gpus
    profile :=
      { arriving with
        id := id
        modelId := "n"
        gpuCount := gpus.length
        eligibleGpuSets := [gpus]
        idleVramMibPerGpu := gpus.map fun _ => 500
        peakVramMibPerGpu := gpus.map fun _ => 800
        gpuHeadroomMibPerGpu := gpus.map fun _ => 0 } }

/-- Two GPUs of 1500 MiB. -/
def twoGpuPlanner : PlannerConfig :=
  { oneGpuPlanner with gpuVramMib := [("gpu-0", 1500), ("gpu-1", 1500)], prismSleepGpuReserveMib := 300 }

def threeSleepers : List WorkerPlacement :=
  [sleeperOn "a" ["gpu-0"], sleeperOn "b" ["gpu-1"], sleeperOn "c" ["gpu-0", "gpu-1"]]

/-- Two of them are woken: beside these the third one does not fit. -/
theorem cachedWakes_joint_three :
    JointWakes twoGpuPlanner ["gpu-0", "gpu-1"] threeSleepers threeSleepers 3
      [sleeperOn "a" ["gpu-0"], sleeperOn "b" ["gpu-1"]] := by
  have hwakes : cachedWakes twoGpuPlanner ["gpu-0", "gpu-1"] threeSleepers.length threeSleepers threeSleepers 3 =
      [sleeperOn "a" ["gpu-0"], sleeperOn "b" ["gpu-1"]] := by decide +kernel
  have hjoint := cachedWakes_joint twoGpuPlanner ["gpu-0", "gpu-1"] threeSleepers threeSleepers 3 (by decide)
    (by simp [threeSleepers, sleeperOn, leaving])
  rwa [hwakes] at hjoint

end Planner
end LlmRio
