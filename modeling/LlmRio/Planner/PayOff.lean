/-
# What a sleep for room leads to

A plan that puts workers to sleep for one pressure is a promise: with these
workers SLEEPING the next plan starts or wakes a worker of the model. A
worker that is to sleep counts in `_cached_prism_fits` as one that sleeps
(`fits_asleep`), so the promise is kept wherever the second plan starts or
wakes what fits. For a model that has READY workers the second plan also
looks at the margin of the smallest profile that fits, which the search of
the first does not, and there the promise is kept if and only if that margin
is useful or a SLEEPING worker can be woken (`paysOff_iff`).

Key definitions: `asleep`, `PaysOff`, `ForReplica`.
Key theorems: `fits_asleep`, `paysOff_iff`.
-/
import LlmRio.Planner.Searches

namespace LlmRio
namespace Planner

open Selection

/-- The workers with these ids are SLEEPING. -/
def asleep (ids : List WorkerId) (workers : List WorkerPlacement) : List WorkerPlacement :=
  workers.map fun w => if w.id ∈ ids then { w with state := .sleeping } else w

/-- The workers that a plan puts to sleep to make room. -/
def madeWay (actions : List PlannerAction) : List WorkerId := actions.filterMap (·.makesWay)

/-- If the plan for the pressure puts workers to sleep to make room, the plan
with these workers SLEEPING starts or wakes a worker of the model. -/
def PaysOff (cfg : PlannerConfig) (now : Datetime) (all : List GpuUuid) (workers : List WorkerPlacement)
    (q : QueuePressure) (profiles : ModelId → List PlacementProfile) : Prop :=
  let ids := madeWay (plan cfg now all workers [q] profiles)
  ids ≠ [] → ∃ a ∈ plan cfg now all (asleep ids workers) [q] profiles,
    a.serves (liveWorkers (asleep ids workers)) (cacheable profiles q.modelId) q.modelId

variable {cfg : PlannerConfig} {now : Datetime} {all : List GpuUuid} {workers live : List WorkerPlacement}
  {profiles : ModelId → List PlacementProfile} {q : QueuePressure} {ids : List WorkerId}

/-! ### The workers once some of them sleep -/

/-- A filter on workers of which some sleep, as one on the workers before. -/
theorem filter_asleep {p p' : WorkerPlacement → Bool} {xs : List WorkerPlacement}
    (hp : ∀ w ∈ xs, p (if w.id ∈ ids then { w with state := .sleeping } else w) = p' w) :
    (asleep ids xs).filter p = asleep ids (xs.filter p') := by
  unfold asleep
  rw [List.filter_map]
  congr 1
  apply List.filter_congr
  exact hp

/-- A filter that sees no state picks the same workers. -/
theorem filter_asleep_of_stateless {p : WorkerPlacement → Bool}
    (hp : ∀ w : WorkerPlacement, p { w with state := .sleeping } = p w) (xs : List WorkerPlacement) :
    (asleep ids xs).filter p = asleep ids (xs.filter p) := by
  apply filter_asleep
  intro w _
  split
  · exact hp w
  · rfl

/-- What is read of a worker beside its state stays as it is. -/
theorem map_asleep {α : Type*} {f : WorkerPlacement → α}
    (hf : ∀ w : WorkerPlacement, f { w with state := .sleeping } = f w) (xs : List WorkerPlacement) :
    (asleep ids xs).map f = xs.map f := by
  unfold asleep
  rw [List.map_map]
  apply List.map_congr_left
  intro w _
  show f (if w.id ∈ ids then { w with state := .sleeping } else w) = f w
  split
  · exact hf w
  · rfl

theorem any_asleep {p : WorkerPlacement → Bool}
    (hp : ∀ w : WorkerPlacement, p { w with state := .sleeping } = p w) (xs : List WorkerPlacement) :
    (asleep ids xs).any p = xs.any p := by
  have hmap : (asleep ids xs).map p = xs.map p := map_asleep hp xs
  have hany := congrArg (fun bs : List Bool => bs.any id) hmap
  simpa [List.any_map] using hany

theorem asleep_of_notMem {xs : List WorkerPlacement} (h : ∀ w ∈ xs, w.id ∉ ids) : asleep ids xs = xs := by
  unfold asleep
  conv_rhs => rw [← List.map_id xs]
  apply List.map_congr_left
  intro w hw
  rw [if_neg (h w hw), id]

/-- A worker that is to sleep counts as one that sleeps. -/
theorem fitsOn_asleep (profile : PlacementProfile) (existing : Option WorkerId) (gpu : GpuUuid) (index : ℕ) :
    fitsOn cfg profile (asleep ids live) existing [] gpu index =
      fitsOn cfg profile live existing ids gpu index := by
  have hcolocated : (asleep ids live).filter (gpu ∈ ·.gpuUuids) = asleep ids (live.filter (gpu ∈ ·.gpuUuids)) :=
    filter_asleep_of_stateless (fun _ => rfl) live
  unfold fitsOn
  simp only [hcolocated]
  generalize live.filter (gpu ∈ ·.gpuUuids) = colocated
  have hactive : (asleep ids colocated).filter (fun w =>
        some w.id ≠ existing ∧ w.id ∉ ([] : List WorkerId) ∧ w.state ∈ gpuResidentStates) =
      colocated.filter fun w => some w.id ≠ existing ∧ w.id ∉ ids ∧ w.state ∈ gpuResidentStates := by
    have hawake : (asleep ids colocated).filter (fun w =>
          some w.id ≠ existing ∧ w.id ∉ ([] : List WorkerId) ∧ w.state ∈ gpuResidentStates) =
        asleep ids (colocated.filter fun w =>
          some w.id ≠ existing ∧ w.id ∉ ids ∧ w.state ∈ gpuResidentStates) := by
      apply filter_asleep
      intro w _
      by_cases hw : w.id ∈ ids
      · simp [hw, gpuResidentStates]
      · simp [hw]
    rw [hawake]
    apply asleep_of_notMem
    intro w hw
    have hmem := List.of_mem_filter hw
    rw [decide_eq_true_eq] at hmem
    exact hmem.2.1
  have hsleeping : (asleep ids colocated).filter (fun w =>
        some w.id ≠ existing ∧ (w.state = .sleeping ∨ w.id ∈ ([] : List WorkerId))) =
      asleep ids (colocated.filter fun w => some w.id ≠ existing ∧ (w.state = .sleeping ∨ w.id ∈ ids)) := by
    apply filter_asleep
    intro w _
    by_cases hw : w.id ∈ ids
    · simp [hw]
    · simp [hw]
  rw [any_asleep (fun _ => rfl), hactive, hsleeping, map_asleep (fun _ => rfl), map_asleep (fun _ => rfl)]
  simp [asleep]

/-- So what fits once the workers sleep is what `_choose_prism_sleep` takes
to fit. -/
theorem fits_asleep (hlive : ∀ w ∈ live, w.state ≠ .cold) (profile : PlacementProfile) (gpuSet : List GpuUuid)
    (existing : Option WorkerId) :
    cachedPrismFits cfg profile gpuSet (asleep ids live) existing [] =
      cachedPrismFits cfg profile gpuSet live existing ids := by
  have hcold : live.filter (·.state ≠ .cold) = live := by
    rw [List.filter_eq_self]
    intro w hw
    simpa using hlive w hw
  have hcold' : (asleep ids live).filter (·.state ≠ .cold) = asleep ids live := by
    have hsame : (asleep ids live).filter (·.state ≠ .cold) = asleep ids (live.filter (·.state ≠ .cold)) := by
      apply filter_asleep
      intro w hw
      split
      · simp [hlive w hw]
      · rfl
    rw [hsame, hcold]
  unfold cachedPrismFits
  simp only [hcold, hcold', fitsOn_asleep]
  rw [any_asleep (fun _ => rfl)]

/-! ### The second turn -/

theorem liveWorkers_asleep (h : ∀ w ∈ workers, w.id ∈ ids → w ∈ liveWorkers workers) :
    liveWorkers (asleep ids workers) = asleep ids (liveWorkers workers) := by
  unfold liveWorkers
  apply filter_asleep
  intro w hw
  split
  · rename_i hid
    have hmem := h w hw hid
    rw [liveWorkers, List.mem_filter] at hmem
    simpa using hmem.2
  · rfl

/-- The model has no worker among those that are put to sleep. -/
theorem modelWorkers_asleep {m : ModelId} (h : ∀ w ∈ live, w.id ∈ ids → w.modelId ≠ m) :
    modelWorkers (asleep ids live) m = modelWorkers live m := by
  unfold modelWorkers
  rw [filter_asleep_of_stateless (fun _ => rfl)]
  apply asleep_of_notMem
  intro w hw hid
  rw [List.mem_filter, decide_eq_true_eq] at hw
  exact h w hw.1 hid hw.2

/-- There are no more idle workers than before. -/
theorem idleWorkers_asleep {pressures : List QueuePressure} (h : idleWorkers cfg now workers pressures = []) :
    idleWorkers cfg now (asleep ids workers) pressures = [] := by
  unfold idleWorkers liveWorkers at h ⊢
  rw [List.filter_filter, List.filter_eq_nil_iff] at h ⊢
  intro w hw
  unfold asleep at hw
  obtain ⟨v, hv, rfl⟩ := List.mem_map.mp hw
  split
  · simp
  · exact h v hv

theorem plan_single_busy (h : idleWorkers cfg now workers [q] = []) :
    plan cfg now all workers [q] profiles =
      (planFor cfg now all (liveWorkers workers) (realModels [q]) profiles q).getD [] := by
  rw [plan_of_busy h]
  have hsort : sortedBy (fun q : QueuePressure => toLex (q.preload, q.oldestEnqueuedAt)) [q] = [q] := rfl
  rw [hsort, List.findSome?_cons, List.findSome?_nil]
  split
  · rename_i hplan
    rw [hplan]
  · rename_i hplan
    rw [hplan]

section turn

variable (cfg now all workers profiles q) in
/-- The plan puts the workers to sleep for another replica of the model: it
has READY workers and asks for more, there is none to wake and none to start
with a useful margin, and these are the cheapest that make room. -/
structure ForReplica (selected : List WorkerPlacement) : Prop where
  busy : idleWorkers cfg now workers [q] = []
  real : q.preload = false
  served : readyWorkers (liveWorkers workers) q.modelId ≠ []
  asks : Asks cfg (liveWorkers workers) profiles q
  finds : ¬ Finds cfg all (liveWorkers workers) profiles q
  cheapest : FirstMin sleepCost (sleepOptions cfg now all (liveWorkers workers) q (realModels [q])
    (sleepPlacements ((cacheable profiles q.modelId).filter (·.gpuCount = 1)) none)) selected

variable (cfg all workers profiles q) in
/-- With the workers asleep there is another replica to wake, or the smallest
profile that fits has a useful margin. -/
def ReplicaUseful (selected : List WorkerPlacement) : Prop :=
  let live := liveWorkers workers
  let candidates := cacheable profiles q.modelId
  let left := asleep (selected.map (·.id)) live
  CanWake cfg all left ((sleepingWorkers live q.modelId candidates).filter (·.profile.gpuCount = 1)) ∨
    ∃ p gpuSet, smallestCachedPrismFitting cfg (candidates.filter (·.gpuCount = 1)) all left = some (p, gpuSet) ∧
      replicaHasUsefulMargin cfg p (readyWorkers live q.modelId) = true

variable {realPressure : List ModelId} {pressure : QueuePressure}
  {placements : List (PlacementProfile × List GpuUuid × Option WorkerId)} {selected : List WorkerPlacement}

/-- Those that are put to sleep are READY workers of other models. -/
theorem option_other (h : selected ∈ sleepOptions cfg now all live pressure realPressure placements)
    {w : WorkerPlacement} (hw : w ∈ selected) :
    w ∈ live ∧ w.modelId ≠ pressure.modelId ∧ w.state = .ready := by
  obtain ⟨p, gpuSet, existing, -, -, hmem⟩ := mem_sleepOptions.mp h
  have hblocker := (mem_firstCount.mp hmem).1.2.1.subset hw
  unfold blockersOf at hblocker
  rw [List.mem_filter, decide_eq_true_eq] at hblocker
  exact ⟨hblocker.1, hblocker.2.1, hblocker.2.2.1⟩

/-- One of the placements fits once they sleep. -/
theorem option_fits (hlive : ∀ w ∈ live, w.state ≠ .cold)
    (h : selected ∈ sleepOptions cfg now all live pressure realPressure placements) :
    ∃ p gpuSet existing, (p, gpuSet, existing) ∈ placements ∧ within gpuSet all = true ∧
      cachedPrismFits cfg p gpuSet (asleep (selected.map (·.id)) live) existing [] = true := by
  obtain ⟨p, gpuSet, existing, hp, hin, hmem⟩ := mem_sleepOptions.mp h
  refine ⟨p, gpuSet, existing, hp, hin, ?_⟩
  rw [fits_asleep hlive]
  exact (mem_firstCount.mp hmem).1.2.2

theorem mem_sleepPlacements {candidates : List PlacementProfile} {p : PlacementProfile} {gpuSet : List GpuUuid}
    {existing : Option WorkerId} (h : (p, gpuSet, existing) ∈ sleepPlacements candidates none) :
    p ∈ candidates ∧ gpuSet ∈ p.eligibleGpuSets ∧ existing = none := by
  simp only [sleepPlacements, List.mem_flatMap, List.mem_map, Prod.mk.injEq] at h
  obtain ⟨p', hp', gpuSet', hset, rfl, rfl, rfl⟩ := h
  exact ⟨hp', hset, rfl⟩

theorem mem_sleepPlacements_some {candidates : List PlacementProfile} {sleeping : List WorkerPlacement}
    {p : PlacementProfile} {gpuSet : List GpuUuid} {existing : Option WorkerId}
    (h : (p, gpuSet, existing) ∈ sleepPlacements candidates (some sleeping)) :
    ∃ w ∈ sleeping, p = w.profile ∧ gpuSet = w.gpuUuids ∧ existing = some w.id := by
  simp only [sleepPlacements, List.mem_map, List.mem_filter, Prod.mk.injEq] at h
  obtain ⟨w, ⟨hw, -⟩, rfl, rfl, rfl⟩ := h
  exact ⟨w, hw, rfl, rfl, rfl⟩

/-- A start fits once the workers sleep that were to make room for it. -/
theorem canStart_asleep (hlive : ∀ w ∈ live, w.state ≠ .cold) {candidates : List PlacementProfile}
    (h : selected ∈ sleepOptions cfg now all live pressure realPressure (sleepPlacements candidates none)) :
    CanStart cfg all (asleep (selected.map (·.id)) live) candidates := by
  obtain ⟨p, gpuSet, existing, hp, hin, hfits⟩ := option_fits hlive h
  obtain ⟨hmem, hset, rfl⟩ := mem_sleepPlacements hp
  exact ⟨p, hmem, gpuSet, hset, hin, hfits⟩

/-- A worker can be woken once those sleep that were to make room for it. -/
theorem canWake_asleep (hlive : ∀ w ∈ live, w.state ≠ .cold) {candidates : List PlacementProfile}
    {sleeping : List WorkerPlacement}
    (h : selected ∈ sleepOptions cfg now all live pressure realPressure
      (sleepPlacements candidates (some sleeping))) :
    CanWake cfg all (asleep (selected.map (·.id)) live) sleeping := by
  obtain ⟨p, gpuSet, existing, hp, hin, hfits⟩ := option_fits hlive h
  obtain ⟨w, hw, rfl, rfl, rfl⟩ := mem_sleepPlacements_some hp
  exact ⟨w, hw, hin, hfits⟩

theorem live_not_cold : ∀ w ∈ liveWorkers workers, w.state ≠ .cold := by
  intro w hw hcold
  simp [liveWorkers, hcold] at hw

variable (hother : ∀ w ∈ live, w.id ∈ ids → w.modelId ≠ q.modelId)
include hother

/-- The second turn takes the branch of the first, and asks for as many. -/
theorem asks_asleep : Asks cfg (asleep ids live) profiles q ↔ Asks cfg live profiles q := by
  unfold Asks transitioning readyWorkers
  rw [modelWorkers_asleep hother]

theorem readyWorkers_asleep : readyWorkers (asleep ids live) q.modelId = readyWorkers live q.modelId := by
  unfold readyWorkers
  rw [modelWorkers_asleep hother]

theorem sleepingWorkers_asleep (candidates : List PlacementProfile) :
    sleepingWorkers (asleep ids live) q.modelId candidates = sleepingWorkers live q.modelId candidates := by
  unfold sleepingWorkers
  rw [modelWorkers_asleep hother]

omit hother in
/-- Except for another replica, the second turn finds what the workers were
put to sleep for. -/
theorem finds_asleep (hlive : ∀ w ∈ live, w.state ≠ .cold)
    (hother : ∀ w ∈ live, w.id ∈ selected.map (·.id) → w.modelId ≠ q.modelId)
    (h : selected ∈ sleepOptions cfg now all live q realPressure (searched live profiles q))
    (hbranch : q.preload = true ∨ readyWorkers live q.modelId = []) :
    Finds cfg all (asleep (selected.map (·.id)) live) profiles q := by
  unfold searched at h
  unfold Finds
  simp only [readyWorkers_asleep hother, sleepingWorkers_asleep hother] at h ⊢
  by_cases hpre : q.preload = true
  · rw [if_pos hpre] at h ⊢
    exact canStart_asleep hlive h
  · have hready := hbranch.resolve_left hpre
    rw [if_neg hpre, if_pos hready] at h ⊢
    by_cases hsleeping : sleepingWorkers live q.modelId (cacheable profiles q.modelId) ≠ []
    · rw [if_pos hsleeping] at h ⊢
      exact canWake_asleep hlive h
    · rw [if_neg hsleeping] at h ⊢
      exact canStart_asleep hlive h

end turn

/-! ### Whether it pays off -/

theorem madeWay_sleeps {reason : String} (hreason : reason ∈ capacityReasons) (selected : List WorkerPlacement) :
    madeWay (selected.map fun w => .sleep w.id reason) = selected.map (·.id) := by
  unfold madeWay
  rw [List.filterMap_map, ← List.filterMap_eq_map]
  congr 1
  funext w
  simp [PlannerAction.makesWay, hreason]

theorem madeWay_of_forall {actions : List PlannerAction} (h : ∀ a ∈ actions, a.makesWay = none) :
    madeWay actions = [] := by
  unfold madeWay
  rw [List.filterMap_eq_nil_iff]
  exact h

/-- The second plan starts or wakes if and only if its turn finds something. -/
theorem serves_iff_finds {realPressure : List ModelId} (hasks : Asks cfg live profiles q) :
    (∃ a ∈ (planFor cfg now all live realPressure profiles q).getD [],
      a.serves live (cacheable profiles q.modelId) q.modelId) ↔ Finds cfg all live profiles q := by
  have hout := @planFor_outcome cfg now all live realPressure profiles q hasks
  cases hplan : planFor cfg now all live realPressure profiles q with
  | none =>
    rw [hplan] at hout
    cases hout with
    | idles hnot => simpa using hnot
  | some actions =>
    rw [hplan] at hout
    rw [Option.getD_some]
    constructor
    · rintro ⟨a, ha, hserves⟩
      cases hout with
      | serves _ hfinds => exact hfinds
      | sleeps selected reason =>
        obtain ⟨w, -, rfl⟩ := List.mem_map.mp ha
        exact hserves.elim
      | drains evicted reason =>
        obtain ⟨w, -, rfl⟩ := List.mem_map.mp ha
        exact hserves.elim
    · intro hfinds
      cases hout with
      | serves _ _ hserves => exact hserves
      | sleeps _ _ _ hnot => exact absurd hfinds hnot
      | drains _ _ _ hnot => exact absurd hfinds hnot

/-- A plan that makes room puts the cheapest of its options to sleep. -/
theorem plan_sleeps_iff (hbusy : idleWorkers cfg now workers [q] = []) {ids : List WorkerId} (hids : ids ≠ []) :
    madeWay (plan cfg now all workers [q] profiles) = ids ↔
      Asks cfg (liveWorkers workers) profiles q ∧ ¬ Finds cfg all (liveWorkers workers) profiles q ∧
        ∃ selected, FirstMin sleepCost (sleepOptions cfg now all (liveWorkers workers) q (realModels [q])
          (searched (liveWorkers workers) profiles q)) selected ∧ ids = selected.map (·.id) := by
  rw [plan_single_busy hbusy]
  by_cases hasks : Asks cfg (liveWorkers workers) profiles q
  · have hout := @planFor_outcome cfg now all (liveWorkers workers) (realModels [q]) profiles q hasks
    generalize planFor cfg now all (liveWorkers workers) (realModels [q]) profiles q = o at hout
    cases hout with
    | serves actions hfinds _ hawake =>
      rw [Option.getD_some, madeWay_of_forall hawake]
      simp [hfinds, Ne.symm hids]
    | sleeps selected reason hreason hnot hmin =>
      rw [Option.getD_some, madeWay_sleeps hreason]
      constructor
      · rintro rfl
        exact ⟨hasks, hnot, selected, hmin, rfl⟩
      · rintro ⟨-, -, selected', hmin', rfl⟩
        rw [← minBy_eq_some] at hmin hmin'
        rw [hmin] at hmin'
        cases hmin'
        rfl
    | drains evicted reason _ _ hsleep =>
      have hnone : madeWay (evicted.map fun w => .drain w.id reason) = [] := by
        apply madeWay_of_forall
        intro a ha
        obtain ⟨w, -, rfl⟩ := List.mem_map.mp ha
        rfl
      rw [Option.getD_some, hnone]
      constructor
      · intro h
        exact absurd h.symm hids
      · rintro ⟨-, -, selected, hmin, -⟩
        exact absurd (sleepOptions_ne_nil.mp (List.ne_nil_of_mem (mem_of_firstMin hmin))) hsleep
    | idles _ hsleep =>
      rw [Option.getD_none]
      constructor
      · intro h
        exact absurd h.symm hids
      · rintro ⟨-, -, selected, hmin, -⟩
        exact absurd (sleepOptions_ne_nil.mp (List.ne_nil_of_mem (mem_of_firstMin hmin))) hsleep
  · rw [planFor_of_not_asks hasks, Option.getD_none]
    simp [hasks, madeWay, Ne.symm hids]

section payoff

variable (hn : (workers.map (·.id)).Nodup) {selected : List WorkerPlacement}
  {placements : List (PlacementProfile × List GpuUuid × Option WorkerId)}
  (hoption : selected ∈ sleepOptions cfg now all (liveWorkers workers) q (realModels [q]) placements)
include hn hoption

/-- A worker with the id of one that is put to sleep is that one. -/
theorem mem_of_selected {w : WorkerPlacement} (hw : w ∈ workers) (hid : w.id ∈ selected.map (·.id)) :
    w ∈ liveWorkers workers ∧ w.modelId ≠ q.modelId := by
  obtain ⟨v, hv, hvid⟩ := List.mem_map.mp hid
  obtain ⟨hlive, hmodel, -⟩ := option_other hoption hv
  have hmem : v ∈ workers := List.mem_of_mem_filter hlive
  obtain rfl : v = w := Table.eq_of_key hn hmem hw hvid
  exact ⟨hlive, hmodel⟩

theorem selected_other : ∀ w ∈ liveWorkers workers, w.id ∈ selected.map (·.id) → w.modelId ≠ q.modelId := by
  intro w hw hid
  exact (mem_of_selected hn hoption (List.mem_of_mem_filter hw) hid).2

/-- The second plan starts or wakes a worker of the model if its turn finds
something among the workers that are left. -/
theorem second_plan (hbusy : idleWorkers cfg now workers [q] = [])
    (hasks : Asks cfg (liveWorkers workers) profiles q) :
    (∃ a ∈ plan cfg now all (asleep (selected.map (·.id)) workers) [q] profiles,
      a.serves (liveWorkers (asleep (selected.map (·.id)) workers)) (cacheable profiles q.modelId) q.modelId) ↔
      Finds cfg all (asleep (selected.map (·.id)) (liveWorkers workers)) profiles q := by
  have hlive := liveWorkers_asleep fun w hw hid => (mem_of_selected hn hoption hw hid).1
  have hasks' : Asks cfg (asleep (selected.map (·.id)) (liveWorkers workers)) profiles q :=
    (asks_asleep (selected_other hn hoption)).mpr hasks
  rw [plan_single_busy (idleWorkers_asleep hbusy), hlive]
  exact serves_iff_finds hasks'

end payoff

theorem finds_replica {selected : List WorkerPlacement} (hreal : q.preload = false)
    (hready : readyWorkers (liveWorkers workers) q.modelId ≠ [])
    (hother : ∀ w ∈ liveWorkers workers, w.id ∈ selected.map (·.id) → w.modelId ≠ q.modelId) :
    Finds cfg all (asleep (selected.map (·.id)) (liveWorkers workers)) profiles q ↔
      ReplicaUseful cfg all workers profiles q selected := by
  unfold Finds ReplicaUseful
  simp only [readyWorkers_asleep hother, sleepingWorkers_asleep hother, hreal]
  rw [if_neg (by simp), if_neg hready]

theorem searched_replica (hreal : q.preload = false) (hready : readyWorkers live q.modelId ≠ []) :
    searched live profiles q = sleepPlacements ((cacheable profiles q.modelId).filter (·.gpuCount = 1)) none := by
  unfold searched
  simp only [hreal]
  rw [if_neg (by simp), if_neg hready]

theorem madeWay_of_idle (h : idleWorkers cfg now workers [q] ≠ []) :
    madeWay (plan cfg now all workers [q] profiles) = [] := by
  rw [plan_of_idle h]
  apply madeWay_of_forall
  intro a ha
  obtain ⟨w, -, rfl⟩ := List.mem_map.mp ha
  simp [PlannerAction.makesWay, capacityReasons]

/-- **Sleeps pay off.** A sleep for room leads to a start or a wake, except
where it is for another replica of a model that has READY workers, and with
the cheapest workers that make room asleep there is no worker to wake and the
smallest profile that fits has no useful margin. -/
theorem paysOff_iff (cfg : PlannerConfig) (now : Datetime) (all : List GpuUuid) (workers : List WorkerPlacement)
    (q : QueuePressure) (profiles : ModelId → List PlacementProfile) (hn : (workers.map (·.id)).Nodup) :
    PaysOff cfg now all workers q profiles ↔
      ∀ selected, ForReplica cfg now all workers profiles q selected →
        ReplicaUseful cfg all workers profiles q selected := by
  by_cases hbusy : idleWorkers cfg now workers [q] = []
  · constructor
    · intro hpays selected hrep
      have hoption := mem_of_firstMin hrep.cheapest
      have hids : selected.map (·.id) ≠ [] := by simpa using ne_nil_of_option hoption
      have hmade : madeWay (plan cfg now all workers [q] profiles) = selected.map (·.id) := by
        rw [plan_sleeps_iff hbusy hids, searched_replica hrep.real hrep.served]
        exact ⟨hrep.asks, hrep.finds, selected, hrep.cheapest, rfl⟩
      unfold PaysOff at hpays
      simp only [hmade] at hpays
      rw [second_plan hn hoption hbusy hrep.asks] at hpays
      exact (finds_replica hrep.real hrep.served (selected_other hn hoption)).mp (hpays hids)
    · intro h hids
      obtain ⟨hasks, hfinds, selected, hmin, hmade⟩ := (plan_sleeps_iff hbusy hids).mp rfl
      have hoption := mem_of_firstMin hmin
      have hother := selected_other hn hoption
      rw [hmade, second_plan hn hoption hbusy hasks]
      by_cases hbranch : q.preload = true ∨ readyWorkers (liveWorkers workers) q.modelId = []
      · exact finds_asleep live_not_cold hother hoption hbranch
      · rw [not_or, Bool.not_eq_true] at hbranch
        obtain ⟨hreal, hready⟩ := hbranch
        rw [searched_replica hreal hready] at hmin
        exact (finds_replica hreal hready hother).mpr (h selected ⟨hbusy, hreal, hready, hasks, hfinds, hmin⟩)
  · constructor
    · intro _ selected hrep
      exact absurd hrep.busy hbusy
    · intro _ hids
      exact absurd (madeWay_of_idle hbusy) hids

section examples

/-- A profile for one engine on the second of two GPUs. -/
def onSecond (model : ModelId) (tokensPerSecond : ℚ) : PlacementProfile where
  id := model
  modelId := model
  engine := .vllm
  gpuCount := 1
  eligibleGpuSets := [["gpu-1"]]
  predictedTokensPerSecond := tokensPerSecond
  loadAndWarmupSeconds := 60
  idleVramMibPerGpu := [100]
  peakVramMibPerGpu := [100]
  gpuHeadroomMibPerGpu := [0]
  gpuMemoryUtilization := 9 / 10
  memoryBackend := "kvcached"

/-- An idle worker of another model there. -/
def inTheWay : WorkerPlacement where
  id := "n"
  profile := onSecond "n" 10
  gpuUuids := ["gpu-1"]
  port := 18000
  state := .ready
  lastDemandAt := 0

/-- A worker of the model on the first GPU, a hundred times as fast. -/
def serving : WorkerPlacement where
  id := "m"
  profile := { onSecond "m" 100 with eligibleGpuSets := [["gpu-0"]] }
  gpuUuids := ["gpu-0"]
  port := 18001
  state := .ready
  admittedRequestIds := ["r"]
  lastDemandAt := 0

theorem paysOff_iff_cold :
    plan onePerGpu 0 ["gpu-0", "gpu-1"] [inTheWay] [⟨"m", 1, 100, 0, false, 1⟩] (fun _ => [onSecond "m" 1]) =
        [.sleep "n" "prism_weight_capacity"] ∧
      PaysOff onePerGpu 0 ["gpu-0", "gpu-1"] [inTheWay] ⟨"m", 1, 100, 0, false, 1⟩ (fun _ => [onSecond "m" 1]) := by
  refine ⟨by decide +kernel, ?_⟩
  rw [paysOff_iff _ _ _ _ _ _ (by decide)]
  intro selected hrep
  exact absurd hrep.served (by decide +kernel)

/-- The idle worker is put to sleep for a replica that is not worth a start. -/
theorem not_paysOff : ¬ PaysOff onePerGpu 0 ["gpu-0", "gpu-1"] [serving, inTheWay]
    ⟨"m", 10, 1000000, 0, false, 1⟩ (fun _ => [onSecond "m" 1]) := by
  intro h
  have hfirst : plan onePerGpu 0 ["gpu-0", "gpu-1"] [serving, inTheWay] [⟨"m", 10, 1000000, 0, false, 1⟩]
      (fun _ => [onSecond "m" 1]) = [.sleep "n" "prism_replica_capacity"] := by decide +kernel
  have hmade : madeWay [PlannerAction.sleep "n" "prism_replica_capacity"] = ["n"] := by decide
  have hsecond : plan onePerGpu 0 ["gpu-0", "gpu-1"] (asleep ["n"] [serving, inTheWay])
      [⟨"m", 10, 1000000, 0, false, 1⟩] (fun _ => [onSecond "m" 1]) = [] := by decide +kernel
  unfold PaysOff at h
  simp only [hfirst, hmade, hsecond] at h
  obtain ⟨a, ha, -⟩ := h (by simp)
  cases ha

end examples

end Planner
end LlmRio
