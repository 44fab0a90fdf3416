/-
# Filling the free GPUs

The `while True` of `_maximum_smallest_placements` as a relation: a turn takes
the first placement that fits in what is left, and the loop returns when there
is none (`FillsFree`). Nothing bounds the number of turns. Each takes a GPU if no
eligible set is empty, and then the loop returns what `maximumSmallestPlacements`
computes (`fills_fillFree`).

Key definitions: `FillsFree`, `leftOver`, `Filled`.
Key theorems: `FillsFree.unique`, `fills_fillFree`, `maximumSmallest_filled`.
-/
import LlmRio.Planner.Modes
import LlmRio.Planner.Residency

namespace LlmRio
namespace Planner

open Selection

/-- The loop starts with these free GPUs and returns these placements. -/
inductive FillsFree (candidates : List PlacementProfile) :
    List GpuUuid → List (PlacementProfile × List GpuUuid) → Prop
  | done {remaining : List GpuUuid} (h : smallestFitting candidates remaining = none) :
      FillsFree candidates remaining []
  | turn {remaining : List GpuUuid} {p : PlacementProfile} {gpuSet : List GpuUuid}
      {starts : List (PlacementProfile × List GpuUuid)}
      (h : smallestFitting candidates remaining = some (p, gpuSet))
      (hrest : FillsFree candidates (remaining.filter (· ∉ gpuSet)) starts) :
      FillsFree candidates remaining ((p, gpuSet) :: starts)

/-- The GPUs that the placements leave. -/
def leftOver (free : List GpuUuid) (starts : List (PlacementProfile × List GpuUuid)) : List GpuUuid :=
  free.filter fun gpu => ∀ start ∈ starts, gpu ∉ start.2

/-- The profiles of the smallest shape. -/
def smallestShape (profiles : List PlacementProfile) : List PlacementProfile :=
  profiles.filter (·.gpuCount = smallestGpuCount profiles)

/-- The placements fill the GPUs with instances of the smallest shape. -/
structure Filled (profiles : List PlacementProfile) (free : List GpuUuid)
    (starts : List (PlacementProfile × List GpuUuid)) : Prop where
  drawn : ∀ p gpuSet, (p, gpuSet) ∈ starts → p ∈ profiles ∧ gpuSet ∈ p.eligibleGpuSets ∧ ∀ gpu ∈ gpuSet, gpu ∈ free
  smallest : ∀ p gpuSet, (p, gpuSet) ∈ starts → ∀ q ∈ profiles, p.gpuCount ≤ q.gpuCount
  disjoint : starts.Pairwise fun a b => gpusMeet a.2 b.2 = false
  maximal : ∀ p ∈ profiles, (∀ q ∈ profiles, p.gpuCount ≤ q.gpuCount) → ∀ gpuSet ∈ p.eligibleGpuSets,
    ∃ gpu ∈ gpuSet, gpu ∉ leftOver free starts

variable {profiles candidates : List PlacementProfile} {free : List GpuUuid}
  {starts starts' : List (PlacementProfile × List GpuUuid)}

/-- The loop returns one result. -/
theorem FillsFree.unique (h : FillsFree candidates free starts) (h' : FillsFree candidates free starts') :
    starts = starts' := by
  induction h generalizing starts' with
  | done hnone =>
    cases h' with
    | done => rfl
    | turn hsome =>
      rw [hnone] at hsome
      cases hsome
  | turn hsome _ ih =>
    cases h' with
    | done hnone =>
      rw [hsome] at hnone
      cases hnone
    | turn hsome' hrest =>
      rw [hsome, Option.some.injEq, Prod.mk.injEq] at hsome'
      obtain ⟨rfl, rfl⟩ := hsome'
      rw [ih hrest]

/-- Every turn takes a GPU, so that the loop returns. -/
theorem fills_fillFree (hne : ∀ p ∈ candidates, ∀ gpuSet ∈ p.eligibleGpuSets, gpuSet ≠ []) :
    ∀ {fuel : ℕ} {free : List GpuUuid}, free.length < fuel → FillsFree candidates free (fillFree candidates fuel free)
  | 0, _, h => by omega
  | fuel + 1, free, h => by
    rw [fillFree]
    cases hfit : smallestFitting candidates free with
    | none => exact .done hfit
    | some start =>
      obtain ⟨p, gpuSet⟩ := start
      exact .turn hfit (fills_fillFree hne (lt_of_lt_of_le (filter_lt_of_fitting hne hfit) (by omega)))

theorem mem_smallestShape {p : PlacementProfile} :
    p ∈ smallestShape profiles ↔ p ∈ profiles ∧ ∀ q ∈ profiles, p.gpuCount ≤ q.gpuCount := by
  obtain _ | ⟨q, qs⟩ := profiles
  · simp [smallestShape]
  have hcount : smallestGpuCount (q :: qs) = smallest q.gpuCount (qs.map (·.gpuCount)) := rfl
  have hle : ∀ p ∈ q :: qs, smallestGpuCount (q :: qs) ≤ p.gpuCount := by
    intro p hp
    rw [hcount]
    rcases List.mem_cons.mp hp with rfl | hp
    · exact smallest_le_head _ _
    · exact smallest_le_of_mem _ _ _ (List.mem_map_of_mem hp)
  obtain ⟨least, hleast, heq⟩ : ∃ p ∈ q :: qs, p.gpuCount = smallestGpuCount (q :: qs) := by
    rcases smallest_mem (qs.map (·.gpuCount)) q.gpuCount with hhead | hmem
    · exact ⟨q, List.mem_cons_self, hhead.symm⟩
    · obtain ⟨p, hp, heq⟩ := List.mem_map.mp hmem
      exact ⟨p, List.mem_cons_of_mem _ hp, heq⟩
  rw [smallestShape, List.mem_filter, decide_eq_true_eq]
  constructor
  · rintro ⟨hp, hp'⟩
    exact ⟨hp, fun r hr => hp' ▸ hle r hr⟩
  · rintro ⟨hp, hmin⟩
    exact ⟨hp, le_antisymm (heq ▸ hmin least hleast) (hle p hp)⟩

/-- **The free GPUs are filled**: the loop returns, and its placements are
disjoint instances of the smallest shape that leave no room for another. -/
theorem maximumSmallest_filled (profiles : List PlacementProfile) (free : List GpuUuid)
    (hne : ∀ p ∈ profiles, ∀ gpuSet ∈ p.eligibleGpuSets, gpuSet ≠ []) :
    (∀ starts, FillsFree (smallestShape profiles) free starts ↔ starts = maximumSmallestPlacements profiles free) ∧
      Filled profiles free (maximumSmallestPlacements profiles free) := by
  have hshape : ∀ p ∈ smallestShape profiles, ∀ gpuSet ∈ p.eligibleGpuSets, gpuSet ≠ [] :=
    fun p hp => hne p (mem_smallestShape.mp hp).1
  have hmem : ∀ p gpuSet, (p, gpuSet) ∈ maximumSmallestPlacements profiles free →
      p ∈ smallestShape profiles ∧ gpuSet ∈ p.eligibleGpuSets ∧ within gpuSet free = true :=
    fun p gpuSet h => mem_fillFree h
  have hloop : FillsFree (smallestShape profiles) free (maximumSmallestPlacements profiles free) :=
    fills_fillFree hshape (Nat.lt_succ_self _)
  refine ⟨fun starts => ⟨fun h => h.unique hloop, fun h => h ▸ hloop⟩, fun p gpuSet h => ?_,
    fun p gpuSet h => ?_, fillFree_disjoint _ _, fun p hp hsmall gpuSet hset => ?_⟩
  · obtain ⟨hp, hset, hin⟩ := hmem p gpuSet h
    exact ⟨(mem_smallestShape.mp hp).1, hset, within_iff.mp hin⟩
  · exact (mem_smallestShape.mp (hmem p gpuSet h).1).2
  · have hnone : smallestFitting (smallestShape profiles)
        (leftOver free (maximumSmallestPlacements profiles free)) = none :=
      fillFree_maximal hshape (Nat.lt_succ_self _)
    by_contra hroom
    have hfits : within gpuSet (leftOver free (maximumSmallestPlacements profiles free)) = true := by
      rw [within_iff]
      intro gpu hgpu
      by_contra hnot
      exact hroom ⟨gpu, hgpu, hnot⟩
    have hsome := smallestFree_isSome.mpr ⟨p, mem_smallestShape.mpr ⟨hp, hsmall⟩, gpuSet, hset, hfits⟩
    rw [hnone] at hsome
    cases hsome

def ofShape (gpuCount : ℕ) (sets : List (List GpuUuid)) : PlacementProfile :=
  { arriving with gpuCount := gpuCount, eligibleGpuSets := sets }

/-- Profiles of two shapes, each with more than one set. -/
def twoShapes : List PlacementProfile :=
  [ofShape 2 [["gpu-0", "gpu-1"], ["gpu-2", "gpu-3"]], ofShape 1 [["gpu-0"], ["gpu-2"]],
    ofShape 1 [["gpu-2"], ["gpu-3"]]]

/-- Of four free GPUs three get an instance of the smaller shape, and the fourth
one is in none of its sets. -/
theorem maximumSmallest_filled_shapes :
    (∀ starts, FillsFree (smallestShape twoShapes) ["gpu-3", "gpu-2", "gpu-1", "gpu-0"] starts ↔
        starts = maximumSmallestPlacements twoShapes ["gpu-3", "gpu-2", "gpu-1", "gpu-0"]) ∧
      Filled twoShapes ["gpu-3", "gpu-2", "gpu-1", "gpu-0"]
        [(ofShape 1 [["gpu-0"], ["gpu-2"]], ["gpu-0"]), (ofShape 1 [["gpu-0"], ["gpu-2"]], ["gpu-2"]),
          (ofShape 1 [["gpu-2"], ["gpu-3"]], ["gpu-3"])] := by
  have hplacements : maximumSmallestPlacements twoShapes ["gpu-3", "gpu-2", "gpu-1", "gpu-0"] =
      [(ofShape 1 [["gpu-0"], ["gpu-2"]], ["gpu-0"]), (ofShape 1 [["gpu-0"], ["gpu-2"]], ["gpu-2"]),
        (ofShape 1 [["gpu-2"], ["gpu-3"]], ["gpu-3"])] := by decide +kernel
  obtain ⟨hloop, hfilled⟩ := maximumSmallest_filled twoShapes ["gpu-3", "gpu-2", "gpu-1", "gpu-0"] (by decide)
  exact ⟨hloop, hplacements ▸ hfilled⟩

end Planner
end LlmRio
