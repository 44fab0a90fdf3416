/-
# The cheapest room

`_choose_prism_sleep` and `_choose_prism_cache_eviction` go through the
selections of each placement by size and leave a placement at the first size
that has an option. Both costs compare the size first, so a selection that
was skipped is dearer than the options of its own placement, and the minimum
of the options is the minimum of all selections of all placements
(`minBy_options`). That a larger selection fits says nothing about a smaller
one, and is not needed.

Key definitions: `SleepFrees`, `EvictionFrees`, `mostRecentDemand`, `Cheapest`.
Key theorems: `choosePrismSleep_cheapest`, `choosePrismCacheEviction_cheapest`.
-/
import LlmRio.Planner.Searches

namespace LlmRio
namespace Planner

open Selection

variable {κ : Type*} [LinearOrder κ]

/-- The selection has the property, and none that has it costs less. -/
def Cheapest (cost : List WorkerPlacement → κ) (P : List WorkerPlacement → Prop)
    (selected : List WorkerPlacement) : Prop :=
  P selected ∧ ∀ other, P other → cost selected ≤ cost other

section selections

/-- A selection that is not of the first size is dearer than one that is. -/
theorem exists_cheaper (cost : List WorkerPlacement → ℕ ×ₗ κ) (hsize : ∀ s, (ofLex (cost s)).1 = s.length)
    {ok : List WorkerPlacement → Bool} {xs s : List WorkerPlacement} (hne : s ≠ []) (hsub : s.Sublist xs)
    (hok : ok s = true) : ∃ t ∈ firstCount xs ok, cost t ≤ cost s := by
  by_cases hfirst : s ∈ firstCount xs ok
  · exact ⟨s, hfirst, le_refl _⟩
  · obtain ⟨t, ht⟩ := List.exists_mem_of_ne_nil _ (firstCount_ne_nil.mpr ⟨s, hne, hsub, hok⟩)
    have hleast := (mem_firstCount.mp ht).2
    have hlt : t.length < s.length := by
      by_contra hle
      refine hfirst (mem_firstCount.mpr ⟨⟨hne, hsub, hok⟩, fun u hu husub huok => ?_⟩)
      exact le_trans (not_lt.mp hle) (hleast u hu husub huok)
    refine ⟨t, ht, Prod.Lex.le_iff.mpr (.inl ?_)⟩
    rw [hsize, hsize]
    exact hlt

/-- The minimum of the options, if every option has the property and whatever
has it is no cheaper than some option. -/
theorem minBy_options {options : List (List WorkerPlacement)} {P : List WorkerPlacement → Prop}
    {cost : List WorkerPlacement → κ} (hopt : ∀ s ∈ options, P s)
    (hle : ∀ s, P s → ∃ t ∈ options, cost t ≤ cost s) :
    (minBy cost options = none ↔ ¬ ∃ s, P s) ∧
      ∀ s, minBy cost options = some s → Cheapest cost P s := by
  refine ⟨?_, fun s hs => ⟨hopt s (mem_of_minBy hs), fun u hu => ?_⟩⟩
  · rw [minBy_eq_none]
    constructor
    · rintro hnil ⟨s, hs⟩
      obtain ⟨t, ht, -⟩ := hle s hs
      rw [hnil] at ht
      cases ht
    · intro hnone
      rw [List.eq_nil_iff_forall_not_mem]
      exact fun s hs => hnone ⟨s, hopt s hs⟩
  · obtain ⟨t, ht, hcost⟩ := hle u hu
    exact le_trans ((minBy_eq_some.mp hs).le t ht) hcost

end selections

variable (cfg : PlannerConfig) (now : Datetime) (all : List GpuUuid) (live : List WorkerPlacement)
  (pressure : QueuePressure) (realPressure : List ModelId)

/-! ### Workers that are put to sleep -/

/-- The workers are blockers of one of the placements, which fits once they
sleep. -/
def SleepFrees (placements : List (PlacementProfile × List GpuUuid × Option WorkerId))
    (selected : List WorkerPlacement) : Prop :=
  ∃ p gpuSet existing, (p, gpuSet, existing) ∈ placements ∧ within gpuSet all = true ∧ selected ≠ [] ∧
    selected.Sublist (blockersOf cfg now live pressure realPressure gpuSet) ∧
    cachedPrismFits cfg p gpuSet live existing (selected.map (·.id)) = true

/-- **The sleeps of `_choose_prism_sleep` are the cheapest there are**: the
fewest workers, of these the least throughput, of these the least recent
demand. -/
theorem choosePrismSleep_cheapest (candidates : List PlacementProfile) (existing : Option (List WorkerPlacement)) :
    (choosePrismSleep cfg now candidates all live pressure realPressure existing = none ↔
        ¬ ∃ selected, SleepFrees cfg now all live pressure realPressure (sleepPlacements candidates existing)
          selected) ∧
      ∀ selected, choosePrismSleep cfg now candidates all live pressure realPressure existing = some selected →
        Cheapest sleepCost
          (SleepFrees cfg now all live pressure realPressure (sleepPlacements candidates existing)) selected := by
  rw [choosePrismSleep_eq]
  apply minBy_options
  · intro s hs
    obtain ⟨p, gpuSet, id, hp, hin, hmem⟩ := mem_sleepOptions.mp hs
    exact ⟨p, gpuSet, id, hp, hin, (mem_firstCount.mp hmem).1⟩
  · rintro s ⟨p, gpuSet, id, hp, hin, hne, hsub, hok⟩
    have hcheaper : ∃ t ∈ firstCount (blockersOf cfg now live pressure realPressure gpuSet) (fun selected =>
        cachedPrismFits cfg p gpuSet live id (selected.map (·.id))), sleepCost t ≤ sleepCost s :=
      exists_cheaper sleepCost (fun _ => rfl) hne hsub hok
    obtain ⟨t, ht, hcost⟩ := hcheaper
    exact ⟨t, mem_sleepOptions.mpr ⟨p, gpuSet, id, hp, hin, ht⟩, hcost⟩

/-! ### Workers that are evicted -/

/-- The workers sleep on the GPUs of a placement that fits once they are
gone, and neither their models nor the placement's is in demand. -/
def EvictionFrees (candidates : List PlacementProfile) (selected : List WorkerPlacement) : Prop :=
  ∃ p ∈ candidates, ∃ gpuSet ∈ p.eligibleGpuSets, within gpuSet all = true ∧ selected ≠ [] ∧
    selected.Sublist (evictableOf live realPressure p gpuSet) ∧
    cachedPrismFits cfg p gpuSet (live.filter (·.id ∉ selected.map (·.id))) none [] = true

/-- `most_recent_demand` -/
def mostRecentDemand (selected : List WorkerPlacement) : Datetime :=
  (selected.map (·.lastDemandAt)).foldl max ((selected.map (·.lastDemandAt)).headD 0)

/-- The key of an option in `_choose_prism_cache_eviction`. -/
def lruCost (selected : List WorkerPlacement) : ℕ ×ₗ Datetime ×ₗ List WorkerId :=
  toLex (selected.length, toLex (mostRecentDemand selected, sortedBy id (selected.map (·.id))))

/-- How old a selection is: the fewest workers first, then those whose last
use is the longest ago. -/
def evictionAge (selected : List WorkerPlacement) : ℕ ×ₗ Datetime :=
  toLex (selected.length, mostRecentDemand selected)

theorem age_le_of_cost_le {s t : List WorkerPlacement} (h : lruCost s ≤ lruCost t) :
    evictionAge s ≤ evictionAge t := by
  rcases Prod.Lex.toLex_le_toLex.mp h with hlt | ⟨heq, hrest⟩
  · exact Prod.Lex.toLex_le_toLex.mpr (.inl hlt)
  · exact Prod.Lex.toLex_le_toLex.mpr (.inr ⟨heq, Prod.Lex.monotone_fst _ _ hrest⟩)

theorem choosePrismCacheEviction_min (candidates : List PlacementProfile) :
    (choosePrismCacheEviction cfg candidates all live realPressure = none ↔
        ¬ ∃ selected, EvictionFrees cfg all live realPressure candidates selected) ∧
      ∀ selected, choosePrismCacheEviction cfg candidates all live realPressure = some selected →
        Cheapest lruCost (EvictionFrees cfg all live realPressure candidates) selected := by
  have hkey : choosePrismCacheEviction cfg candidates all live realPressure =
      minBy lruCost (evictionOptions all live realPressure cfg candidates) := rfl
  rw [hkey]
  apply minBy_options
  · intro s hs
    obtain ⟨p, hp, gpuSet, hset, hin, hmem⟩ := mem_evictionOptions.mp hs
    exact ⟨p, hp, gpuSet, hset, hin, (mem_firstCount.mp hmem).1⟩
  · rintro s ⟨p, hp, gpuSet, hset, hin, hne, hsub, hok⟩
    have hcheaper : ∃ t ∈ firstCount (evictableOf live realPressure p gpuSet) (fun selected =>
        cachedPrismFits cfg p gpuSet (live.filter (·.id ∉ selected.map (·.id))) none []),
        lruCost t ≤ lruCost s :=
      exists_cheaper lruCost (fun _ => rfl) hne hsub hok
    obtain ⟨t, ht, hcost⟩ := hcheaper
    exact ⟨t, mem_evictionOptions.mpr ⟨p, hp, gpuSet, hset, hin, ht⟩, hcost⟩

/-- **The eviction of `_choose_prism_cache_eviction` is minimal and least
recently used**: the fewest workers, of these the ones whose last use is the
longest ago. -/
theorem choosePrismCacheEviction_cheapest (candidates : List PlacementProfile) :
    (choosePrismCacheEviction cfg candidates all live realPressure = none ↔
        ¬ ∃ selected, EvictionFrees cfg all live realPressure candidates selected) ∧
      ∀ selected, choosePrismCacheEviction cfg candidates all live realPressure = some selected →
        Cheapest evictionAge (EvictionFrees cfg all live realPressure candidates) selected ∧
        ∀ w, selected = [w] → ∀ v, EvictionFrees cfg all live realPressure candidates [v] →
          w.lastDemandAt ≤ v.lastDemandAt := by
  obtain ⟨hnone, hsome⟩ := choosePrismCacheEviction_min cfg all live realPressure candidates
  refine ⟨hnone, fun selected hsel => ?_⟩
  obtain ⟨hfrees, hmin⟩ := hsome selected hsel
  have hage : ∀ other, EvictionFrees cfg all live realPressure candidates other →
      evictionAge selected ≤ evictionAge other := fun other ho => age_le_of_cost_le (hmin other ho)
  refine ⟨⟨hfrees, hage⟩, ?_⟩
  rintro w rfl v hv
  -- both are of size one, so that the last uses are compared
  rcases Prod.Lex.toLex_le_toLex.mp (hage [v] hv) with hlt | ⟨-, hle⟩
  · exact absurd hlt (lt_irrefl _)
  · simpa [mostRecentDemand] using hle

end Planner
end LlmRio
