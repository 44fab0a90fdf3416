/-
# What the searches of the weight-cache planner find

Each search of `_plan_prism_weight_cache` as a statement about what there is
to find: `_smallest_cached_prism_fitting` finds a placement if there is one
(`CanStart`), `_first_cached_wake` a worker (`CanWake`), `_choose_prism_sleep`
and `_choose_prism_cache_eviction` a set of workers whose sleep, or whose end,
makes room (`CanSleep`, `CanEvict`). A turn of the planner's loop that comes
to a search (`Asks`) tries them in order, and what it does is what the first
that succeeds finds (`planFor_outcome`). So a plan has actions if and only if
there are idle workers or a search of some turn succeeds (`plan_ne_nil_iff`).

Key definitions: `CanStart`, `CanWake`, `CanSleep`, `CanEvict`, `Acts`,
`Outcome`.
Key theorems: `mem_firstCount`, `choosePrismSleep_eq`, `planFor_outcome`,
`plan_ne_nil_iff`.
-/
import LlmRio.Planner.WeightCache

namespace LlmRio
namespace Planner

open Selection

variable (cfg : PlannerConfig) (now : Datetime) (all : List GpuUuid) (live : List WorkerPlacement)
  (pressure : QueuePressure) (realPressure : List ModelId)

/-! ### What there is to find -/

/-- A placement of one of the profiles fits. -/
def CanStart (profiles : List PlacementProfile) : Prop :=
  ∃ p ∈ profiles, ∃ gpuSet ∈ p.eligibleGpuSets, within gpuSet all = true ∧
    cachedPrismFits cfg p gpuSet live none [] = true

/-- One of the workers fits where it sleeps. -/
def CanWake (sleeping : List WorkerPlacement) : Prop :=
  ∃ w ∈ sleeping, within w.gpuUuids all = true ∧
    cachedPrismFits cfg w.profile w.gpuUuids live (some w.id) [] = true

/-- `blockers` in `_choose_prism_sleep`: the idle workers on the GPU set that
may be put to sleep. -/
def blockersOf (gpuSet : List GpuUuid) : List WorkerPlacement :=
  live.filter fun w =>
    w.modelId ≠ pressure.modelId ∧ w.state = .ready ∧ gpusMeet w.gpuUuids gpuSet ∧
      w.admittedRequestIds = [] ∧ residencySatisfied cfg w now ∧
      (w.modelId ∉ realPressure ∨ 1 < (live.countP fun v => v.state = .ready ∧ v.modelId = w.modelId) ∨
        cfg.fairShareSeconds ≤ now - pressure.oldestEnqueuedAt)

/-- `placements` in `_choose_prism_sleep` -/
def sleepPlacements (candidates : List PlacementProfile) :
    Option (List WorkerPlacement) → List (PlacementProfile × List GpuUuid × Option WorkerId)
  | none => candidates.flatMap fun p => p.eligibleGpuSets.map fun gpuSet => (p, gpuSet, none)
  | some existing => (existing.filter fun w => w.profile.id ∈ candidates.map (·.id)).map fun w =>
      (w.profile, w.gpuUuids, some w.id)

/-- One of the placements fits once some of its blockers sleep. -/
def CanSleep (placements : List (PlacementProfile × List GpuUuid × Option WorkerId)) : Prop :=
  ∃ p gpuSet existing, (p, gpuSet, existing) ∈ placements ∧ within gpuSet all = true ∧
    ∃ selected : List WorkerPlacement, selected ≠ [] ∧
      selected.Sublist (blockersOf cfg now live pressure realPressure gpuSet) ∧
      cachedPrismFits cfg p gpuSet live existing (selected.map (·.id)) = true

/-- `evictable` -/
def evictableOf (p : PlacementProfile) (gpuSet : List GpuUuid) : List WorkerPlacement :=
  live.filter fun w =>
    w.state = .sleeping ∧ w.modelId ∉ realPressure ∧ w.modelId ≠ p.modelId ∧ gpusMeet w.gpuUuids gpuSet

/-- A placement fits once some of the evictable workers are gone. -/
def CanEvict (candidates : List PlacementProfile) : Prop :=
  ∃ p ∈ candidates, ∃ gpuSet ∈ p.eligibleGpuSets, within gpuSet all = true ∧
    ∃ selected : List WorkerPlacement, selected ≠ [] ∧
      selected.Sublist (evictableOf live realPressure p gpuSet) ∧
      cachedPrismFits cfg p gpuSet (live.filter (·.id ∉ selected.map (·.id))) none [] = true

variable {cfg now all live pressure realPressure}

/-! ### The first size with options -/

/-- A selection is an option of the first size if it is one of the smallest
nonempty selections that do. -/
theorem mem_firstCount {xs : List WorkerPlacement} {ok : List WorkerPlacement → Bool}
    {s : List WorkerPlacement} : s ∈ firstCount xs ok ↔
      (s ≠ [] ∧ s.Sublist xs ∧ ok s = true) ∧
        ∀ t : List WorkerPlacement, t ≠ [] → t.Sublist xs → ok t = true → s.length ≤ t.length := by
  have hrange : ∀ t : List WorkerPlacement, t ≠ [] → t.Sublist xs → t.length ∈ List.range' 1 xs.length := by
    intro t hne hsub
    have hpos := List.length_pos_iff.mpr hne
    have hle := hsub.length_le
    rw [List.mem_range'_1]
    omega
  have hfound : ∀ n, (if (combinations n xs).filter ok = [] then none else some ((combinations n xs).filter ok)) =
      none → ∀ t : List WorkerPlacement, t.length = n → t.Sublist xs → ok t ≠ true := by
    intro n hnone t hlen hsub hok
    have hmem : t ∈ (combinations n xs).filter ok := List.mem_filter.mpr ⟨mem_combinations.mpr ⟨hsub, hlen⟩, hok⟩
    rw [if_neg (List.ne_nil_of_mem hmem)] at hnone
    cases hnone
  unfold firstCount
  rcases hfind : List.findSome? _ _ with _ | found
  · rw [List.findSome?_eq_none_iff] at hfind
    simp only [Option.getD_none, List.not_mem_nil, false_iff]
    rintro ⟨⟨hne, hsub, hok⟩, -⟩
    exact hfound _ (hfind _ (hrange s hne hsub)) s rfl hsub hok
  · rw [List.findSome?_eq_some_iff] at hfind
    obtain ⟨before, n, after, hsplit, hn, hbefore⟩ := hfind
    -- the sizes before `n` have no option, and those after it are larger
    have hsorted : (before ++ n :: after).Pairwise (· < ·) := hsplit ▸ List.pairwise_lt_range'
    have hsize : ∀ t : List WorkerPlacement, t ≠ [] → t.Sublist xs → ok t = true → n ≤ t.length := by
      intro t hne hsub hok
      have hmem := hrange t hne hsub
      rw [hsplit, List.mem_append, List.mem_cons] at hmem
      rcases hmem with hmem | heq | hmem
      · exact absurd hok (hfound _ (hbefore _ hmem) t rfl hsub)
      · exact le_of_eq heq.symm
      · have hlt := (List.pairwise_append.mp hsorted).2.1
        exact le_of_lt (List.rel_of_pairwise_cons hlt hmem)
    have hpos : 1 ≤ n := by
      have hmem : n ∈ List.range' 1 xs.length := by rw [hsplit]; simp
      exact (List.mem_range'_1.mp hmem).1
    simp only at hn
    split at hn
    · cases hn
    · rename_i hne
      cases hn
      rw [Option.getD_some, List.mem_filter, mem_combinations]
      constructor
      · rintro ⟨⟨hsub, hlen⟩, hok⟩
        have hs : s ≠ [] := by
          rintro rfl
          simp at hlen
          omega
        exact ⟨⟨hs, hsub, hok⟩, fun t ht htsub htok => hlen ▸ hsize t ht htsub htok⟩
      · rintro ⟨⟨hs, hsub, hok⟩, hmin⟩
        obtain ⟨t, ht⟩ := List.exists_mem_of_ne_nil _ hne
        obtain ⟨htmem, htok⟩ := List.mem_filter.mp ht
        obtain ⟨htsub, htlen⟩ := mem_combinations.mp htmem
        have htne : t ≠ [] := by
          rintro rfl
          simp at htlen
          omega
        have hle := hmin t htne htsub htok
        have hge := hsize s hs hsub hok
        exact ⟨⟨hsub, by omega⟩, hok⟩

theorem firstCount_ne_nil {xs : List WorkerPlacement} {ok : List WorkerPlacement → Bool} :
    firstCount xs ok ≠ [] ↔ ∃ s : List WorkerPlacement, s ≠ [] ∧ s.Sublist xs ∧ ok s = true := by
  constructor
  · intro h
    obtain ⟨s, hs⟩ := List.exists_mem_of_ne_nil _ h
    exact ⟨s, (mem_firstCount.mp hs).1⟩
  · rintro ⟨s, hs⟩
    -- a selection of the smallest size among those that do
    have hex : ∃ n, ∃ t : List WorkerPlacement, (t ≠ [] ∧ t.Sublist xs ∧ ok t = true) ∧ t.length = n :=
      ⟨s.length, s, hs, rfl⟩
    classical
    obtain ⟨t, ht, hlen⟩ := Nat.find_spec hex
    apply List.ne_nil_of_mem (a := t)
    rw [mem_firstCount]
    refine ⟨ht, fun u hu husub huok => ?_⟩
    rw [hlen]
    exact Nat.find_min' hex ⟨u, ⟨hu, husub, huok⟩, rfl⟩

/-! ### What each search finds -/

theorem smallestFitting_isSome {profiles : List PlacementProfile} :
    (smallestCachedPrismFitting cfg profiles all live).isSome = true ↔ CanStart cfg all live profiles := by
  unfold smallestCachedPrismFitting CanStart
  rw [firstPair_isSome]
  simp only [mem_sortedBy, Bool.and_eq_true]

theorem firstWake_isSome {sleeping : List WorkerPlacement} :
    (firstCachedWake cfg sleeping all live).isSome = true ↔ CanWake cfg all live sleeping := by
  unfold firstCachedWake CanWake
  rw [List.find?_isSome]
  simp only [mem_sortedBy, Bool.and_eq_true]

theorem one_le_desired (capacity : ℚ) : 1 ≤ desired pressure capacity :=
  le_min (le_max_right _ _) (le_max_left _ _)

/-- Some workers are woken if one of them can be. -/
theorem cachedWakes_ne_nil {sleeping : List WorkerPlacement} {limit : ℤ} (hlimit : 1 ≤ limit) :
    cachedWakes cfg all sleeping.length sleeping live limit ≠ [] ↔ CanWake cfg all live sleeping := by
  rw [← firstWake_isSome]
  cases sleeping with
  | nil => simp [cachedWakes, firstCachedWake, sortedBy]
  | cons w ws =>
    rw [List.length_cons, cachedWakes, if_neg (by omega)]
    split
    · rename_i hnone
      simp [hnone]
    · rename_i v hv
      simp [hv]

/-- How `_choose_prism_sleep` compares its options. -/
def sleepCost (selected : List WorkerPlacement) : ℕ ×ₗ ℚ ×ₗ ℚ :=
  toLex (selected.length, toLex ((selected.map (·.profile.predictedTokensPerSecond)).sum,
    (selected.map (·.lastDemandAt)).sum))

variable (cfg now all live pressure realPressure) in
/-- `options` in `_choose_prism_sleep` -/
def sleepOptions (placements : List (PlacementProfile × List GpuUuid × Option WorkerId)) :
    List (List WorkerPlacement) :=
  (placements.filter fun (_, gpuSet, _) => within gpuSet all).flatMap fun (profile, gpuSet, existing) =>
    firstCount (blockersOf cfg now live pressure realPressure gpuSet) fun selected =>
      cachedPrismFits cfg profile gpuSet live existing (selected.map (·.id))

theorem choosePrismSleep_eq (candidates : List PlacementProfile) (existing : Option (List WorkerPlacement)) :
    choosePrismSleep cfg now candidates all live pressure realPressure existing =
      minBy sleepCost (sleepOptions cfg now all live pressure realPressure (sleepPlacements candidates existing)) := by
  cases existing <;> rfl

theorem mem_sleepOptions {placements : List (PlacementProfile × List GpuUuid × Option WorkerId)}
    {selected : List WorkerPlacement} :
    selected ∈ sleepOptions cfg now all live pressure realPressure placements ↔
      ∃ p gpuSet existing, (p, gpuSet, existing) ∈ placements ∧ within gpuSet all = true ∧
        selected ∈ firstCount (blockersOf cfg now live pressure realPressure gpuSet) fun selected =>
          cachedPrismFits cfg p gpuSet live existing (selected.map (·.id)) := by
  simp [sleepOptions, and_assoc]

theorem sleepOptions_ne_nil {placements : List (PlacementProfile × List GpuUuid × Option WorkerId)} :
    sleepOptions cfg now all live pressure realPressure placements ≠ [] ↔
      CanSleep cfg now all live pressure realPressure placements := by
  unfold CanSleep
  constructor
  · intro h
    obtain ⟨s, hs⟩ := List.exists_mem_of_ne_nil _ h
    obtain ⟨p, gpuSet, existing, hp, hin, hmem⟩ := mem_sleepOptions.mp hs
    exact ⟨p, gpuSet, existing, hp, hin, s, (mem_firstCount.mp hmem).1⟩
  · rintro ⟨p, gpuSet, existing, hp, hin, hs⟩
    obtain ⟨s, hmem⟩ := List.exists_mem_of_ne_nil _ (firstCount_ne_nil.mpr hs)
    exact List.ne_nil_of_mem (mem_sleepOptions.mpr ⟨p, gpuSet, existing, hp, hin, hmem⟩)

/-- No option is empty. -/
theorem ne_nil_of_option {placements : List (PlacementProfile × List GpuUuid × Option WorkerId)}
    {selected : List WorkerPlacement}
    (h : selected ∈ sleepOptions cfg now all live pressure realPressure placements) : selected ≠ [] := by
  obtain ⟨p, gpuSet, existing, -, -, hmem⟩ := mem_sleepOptions.mp h
  exact (mem_firstCount.mp hmem).1.1

variable (all live realPressure) in
/-- `options` in `_choose_prism_cache_eviction` -/
def evictionOptions (cfg : PlannerConfig) (candidates : List PlacementProfile) : List (List WorkerPlacement) :=
  candidates.flatMap fun p =>
    (p.eligibleGpuSets.filter fun gpuSet => within gpuSet all).flatMap fun gpuSet =>
      firstCount (evictableOf live realPressure p gpuSet) fun selected =>
        cachedPrismFits cfg p gpuSet (live.filter (·.id ∉ selected.map (·.id))) none []

theorem choosePrismCacheEviction_eq (candidates : List PlacementProfile) :
    choosePrismCacheEviction cfg candidates all live realPressure =
      minBy (fun selected : List WorkerPlacement =>
        toLex (selected.length, toLex ((selected.map (·.lastDemandAt)).foldl max
          ((selected.map (·.lastDemandAt)).headD 0), sortedBy id (selected.map (·.id)))))
        (evictionOptions all live realPressure cfg candidates) := rfl

theorem mem_evictionOptions {candidates : List PlacementProfile} {selected : List WorkerPlacement} :
    selected ∈ evictionOptions all live realPressure cfg candidates ↔
      ∃ p ∈ candidates, ∃ gpuSet ∈ p.eligibleGpuSets, within gpuSet all = true ∧
        selected ∈ firstCount (evictableOf live realPressure p gpuSet) fun selected =>
          cachedPrismFits cfg p gpuSet (live.filter (·.id ∉ selected.map (·.id))) none [] := by
  simp [evictionOptions, and_assoc]

theorem evictionOptions_ne_nil {candidates : List PlacementProfile} :
    evictionOptions all live realPressure cfg candidates ≠ [] ↔ CanEvict cfg all live realPressure candidates := by
  unfold CanEvict
  constructor
  · intro h
    obtain ⟨s, hs⟩ := List.exists_mem_of_ne_nil _ h
    obtain ⟨p, hp, gpuSet, hset, hin, hmem⟩ := mem_evictionOptions.mp hs
    exact ⟨p, hp, gpuSet, hset, hin, s, (mem_firstCount.mp hmem).1⟩
  · rintro ⟨p, hp, gpuSet, hset, hin, hs⟩
    obtain ⟨s, hmem⟩ := List.exists_mem_of_ne_nil _ (firstCount_ne_nil.mpr hs)
    exact List.ne_nil_of_mem (mem_evictionOptions.mpr ⟨p, hp, gpuSet, hset, hin, hmem⟩)

/-- An eviction that finds nothing, or workers. -/
theorem choosePrismCacheEviction_cases (candidates : List PlacementProfile) :
    (choosePrismCacheEviction cfg candidates all live realPressure = none ∧
        ¬ CanEvict cfg all live realPressure candidates) ∨
      ∃ w ws, choosePrismCacheEviction cfg candidates all live realPressure = some (w :: ws) ∧
        CanEvict cfg all live realPressure candidates := by
  rw [choosePrismCacheEviction_eq, ← evictionOptions_ne_nil]
  rcases hmin : minBy _ (evictionOptions all live realPressure cfg candidates) with _ | selected
  · exact .inl ⟨rfl, fun hne => hne (minBy_eq_none.mp hmin)⟩
  · have hmem := mem_of_minBy hmin
    obtain ⟨p, -, gpuSet, -, -, hcount⟩ := mem_evictionOptions.mp hmem
    obtain ⟨w, ws, rfl⟩ := List.exists_cons_of_ne_nil (mem_firstCount.mp hcount).1.1
    exact .inr ⟨w, ws, rfl, List.ne_nil_of_mem hmem⟩

/-! ### A turn of the loop -/

variable (cfg live) in
/-- The turn of the pressure comes to a search: no worker of the model is on
its way to another state, and the pressure asks for more than there are. -/
def Asks (profiles : ModelId → List PlacementProfile) (q : QueuePressure) : Prop :=
  let ready := readyWorkers live q.modelId
  transitioning live q.modelId = false ∧
    if q.preload then (modelWorkers live q.modelId).length < q.desiredWorkers
    else ready = [] ∨
      (ready.length : ℤ) < desired q
          (ready.map fun w => w.profile.predictedTokensPerSecond * cfg.scaleWindowSeconds).sum ∧
        (cacheable profiles q.modelId).filter (·.gpuCount = 1) ≠ []

variable (cfg all live) in
/-- There is something to start or to wake, on the branch that the turn takes. -/
def Finds (profiles : ModelId → List PlacementProfile) (q : QueuePressure) : Prop :=
  let candidates := cacheable profiles q.modelId
  let ready := readyWorkers live q.modelId
  let sleeping := sleepingWorkers live q.modelId candidates
  if q.preload then CanStart cfg all live (preloadCandidates q candidates)
  else if ready = [] then
    if sleeping ≠ [] then CanWake cfg all live sleeping else CanStart cfg all live candidates
  else
    CanWake cfg all live (sleeping.filter (·.profile.gpuCount = 1)) ∨
      ∃ p gpuSet, smallestCachedPrismFitting cfg (candidates.filter (·.gpuCount = 1)) all live = some (p, gpuSet) ∧
        replicaHasUsefulMargin cfg p ready = true

variable (live) in
/-- The placements for which the turn would put workers to sleep. -/
def searched (profiles : ModelId → List PlacementProfile) (q : QueuePressure) :
    List (PlacementProfile × List GpuUuid × Option WorkerId) :=
  let candidates := cacheable profiles q.modelId
  let sleeping := sleepingWorkers live q.modelId candidates
  if q.preload then sleepPlacements (preloadCandidates q candidates) none
  else if readyWorkers live q.modelId = [] then
    if sleeping ≠ [] then sleepPlacements (sleeping.map (·.profile)) (some sleeping)
    else sleepPlacements candidates none
  else sleepPlacements (candidates.filter (·.gpuCount = 1)) none

variable (cfg all live realPressure) in
/-- The turn would evict SLEEPING workers of other models. -/
def Evicts (profiles : ModelId → List PlacementProfile) (q : QueuePressure) : Prop :=
  q.preload = false ∧ readyWorkers live q.modelId = [] ∧
    sleepingWorkers live q.modelId (cacheable profiles q.modelId) = [] ∧
    CanEvict cfg all live realPressure (cacheable profiles q.modelId)

variable (cfg now all live realPressure) in
/-- One of the searches of the turn finds something. -/
def Acts (profiles : ModelId → List PlacementProfile) (q : QueuePressure) : Prop :=
  Asks cfg live profiles q ∧ (Finds cfg all live profiles q ∨
    CanSleep cfg now all live q realPressure (searched live profiles q) ∨
    Evicts cfg all live realPressure profiles q)

variable (live) in
/-- The action starts one of the candidates or wakes a worker of the model. -/
def PlannerAction.serves (candidates : List PlacementProfile) (m : ModelId) : PlannerAction → Prop
  | .start p _ _ => p ∈ candidates
  | .wake id _ => ∃ w ∈ live, w.id = id ∧ w.modelId = m
  | _ => False

/-- The reasons of a sleep that is to make room. -/
def capacityReasons : List String := ["prism_weight_capacity", "prism_replica_capacity"]

/-- The workers that the action puts to sleep to make room. -/
def PlannerAction.makesWay : PlannerAction → Option WorkerId
  | .sleep id reason => if reason ∈ capacityReasons then some id else none
  | _ => none

variable (cfg now all live pressure realPressure) in
/-- What a search comes to, in the order in which the turn tries: it starts or
wakes, it puts to sleep the cheapest workers that make room, it evicts, or it
does nothing. -/
inductive Outcome (candidates : List PlacementProfile) (finds : Prop)
    (placements : List (PlacementProfile × List GpuUuid × Option WorkerId)) (evicts : Prop) :
    Option (List PlannerAction) → Prop
  | serves (actions : List PlannerAction) (hfinds : finds)
      (hserves : ∃ a ∈ actions, a.serves live candidates pressure.modelId)
      (hawake : ∀ a ∈ actions, a.makesWay = none) :
      Outcome candidates finds placements evicts (some actions)
  | sleeps (selected : List WorkerPlacement) (reason : String) (hreason : reason ∈ capacityReasons)
      (hnot : ¬ finds)
      (hmin : FirstMin sleepCost (sleepOptions cfg now all live pressure realPressure placements) selected) :
      Outcome candidates finds placements evicts (some (selected.map fun w => .sleep w.id reason))
  | drains (evicted : List WorkerPlacement) (reason : String) (hne : evicted ≠ []) (hnot : ¬ finds)
      (hsleep : ¬ CanSleep cfg now all live pressure realPressure placements) (hevicts : evicts) :
      Outcome candidates finds placements evicts (some (evicted.map fun w => .drain w.id reason))
  | idles (hnot : ¬ finds) (hsleep : ¬ CanSleep cfg now all live pressure realPressure placements)
      (hevicts : ¬ evicts) : Outcome candidates finds placements evicts none

variable {profiles : ModelId → List PlacementProfile} {candidates : List PlacementProfile}
  {ready sleeping : List WorkerPlacement}

theorem sleeps_outcome {c : List PlacementProfile} {finds : Prop} (hnot : ¬ finds) {reason : String}
    (hreason : reason ∈ capacityReasons) {existing : Option (List WorkerPlacement)} :
    Outcome cfg now all live pressure realPressure c finds (sleepPlacements candidates existing) False
      (sleeps reason (choosePrismSleep cfg now candidates all live pressure realPressure existing)) := by
  rw [choosePrismSleep_eq]
  rcases hmin : minBy sleepCost _ with _ | selected
  · refine .idles hnot (fun hcan => ?_) id
    exact sleepOptions_ne_nil.mpr hcan (minBy_eq_none.mp hmin)
  · have hne := ne_nil_of_option (mem_of_minBy hmin)
    obtain ⟨w, ws, rfl⟩ := List.exists_cons_of_ne_nil hne
    exact .sleeps (w :: ws) reason hreason hnot (minBy_eq_some.mp hmin)

theorem start_serves {p : PlacementProfile} (hp : p ∈ candidates) (gpuSet : List GpuUuid) (reason : String) :
    (∃ a ∈ [PlannerAction.start p gpuSet reason], a.serves live candidates pressure.modelId) ∧
      ∀ a ∈ [PlannerAction.start p gpuSet reason], a.makesWay = none := by
  constructor
  · exact ⟨_, List.mem_cons_self, hp⟩
  · intro a ha
    rw [List.mem_singleton] at ha
    rw [ha]
    rfl

theorem mem_smallestFitting {c : List PlacementProfile} (hsub : ∀ p ∈ c, p ∈ candidates) {p : PlacementProfile}
    {gpuSet : List GpuUuid} (h : smallestCachedPrismFitting cfg c all live = some (p, gpuSet)) :
    p ∈ candidates ∧ CanStart cfg all live c := by
  refine ⟨hsub p (smallest_fitting h).1, ?_⟩
  rw [← smallestFitting_isSome, h]
  rfl

theorem not_canStart {c : List PlacementProfile} (h : smallestCachedPrismFitting cfg c all live = none) :
    ¬ CanStart cfg all live c := by
  rw [← smallestFitting_isSome, h]
  simp

theorem planPreload_outcome (hmany : (modelWorkers live pressure.modelId).length < pressure.desiredWorkers)
    (hmoving : transitioning live pressure.modelId = false) :
    Outcome cfg now all live pressure realPressure candidates
      (CanStart cfg all live (preloadCandidates pressure candidates))
      (sleepPlacements (preloadCandidates pressure candidates) none) False
      (planPreload cfg now all live realPressure pressure candidates) := by
  unfold planPreload
  rw [if_neg (not_le.mpr hmany), if_neg (by simp [hmoving])]
  by_cases hnone : preloadCandidates pressure candidates = []
  · rw [if_pos hnone, hnone]
    refine .idles ?_ ?_ id
    · simp [CanStart]
    · simp [CanSleep, sleepPlacements]
  · rw [if_neg hnone]
    split
    · rename_i p gpuSet hfit
      obtain ⟨hp, hcan⟩ := mem_smallestFitting (fun c hc => mem_preloadCandidates hc) hfit
      obtain ⟨hserves, hawake⟩ := start_serves hp gpuSet "prism_preload"
      exact .serves _ hcan hserves hawake
    · rename_i hfit
      exact sleeps_outcome (not_canStart hfit) (by decide)

theorem planCached_outcome (hmodel : ∀ w ∈ sleeping, w ∈ live ∧ w.modelId = pressure.modelId) :
    Outcome cfg now all live pressure realPressure candidates (CanWake cfg all live sleeping)
      (sleepPlacements (sleeping.map (·.profile)) (some sleeping)) False
      (planCached cfg now all live realPressure pressure sleeping) := by
  unfold planCached
  simp only
  split
  · rename_i hwakes
    refine sleeps_outcome (fun hcan => ?_) (by decide)
    exact (cachedWakes_ne_nil (one_le_desired _)).mpr hcan hwakes
  · rename_i w ws hwakes
    have hcan : CanWake cfg all live sleeping := by
      rw [← cachedWakes_ne_nil (@one_le_desired pressure _), hwakes]
      simp
    obtain ⟨-, -, -, hfirst, -⟩ := cachedWakes_cons hwakes
    obtain ⟨hlive, hm⟩ := hmodel w (first_cached_wake hfirst).1
    refine .serves _ hcan ⟨_, List.mem_cons_self, w, hlive, rfl, hm⟩ fun a ha => ?_
    rcases List.mem_cons.mp ha with rfl | ha
    · rfl
    · obtain ⟨v, -, rfl⟩ := List.mem_map.mp ha
      rfl

theorem planCold_outcome : Outcome cfg now all live pressure realPressure candidates
    (CanStart cfg all live candidates) (sleepPlacements candidates none)
    (CanEvict cfg all live realPressure candidates)
    (planCold cfg now all live realPressure pressure candidates) := by
  unfold planCold
  split
  · rename_i p gpuSet hfit
    obtain ⟨hp, hcan⟩ := mem_smallestFitting (fun c hc => hc) hfit
    obtain ⟨hserves, hawake⟩ := start_serves hp gpuSet "prism_cold_backlog"
    exact .serves _ hcan hserves hawake
  · rename_i hfit
    have hout := @sleeps_outcome cfg now all live pressure realPressure candidates candidates _
      (not_canStart hfit) "prism_weight_capacity" (by decide) none
    split
    · rename_i actions hsleeps
      rw [hsleeps] at hout
      cases hout with
      | serves _ hfinds => exact absurd hfinds (not_canStart hfit)
      | sleeps selected reason hreason hnot hmin => exact .sleeps selected reason hreason hnot hmin
      | drains _ _ _ _ _ hevicts => exact hevicts.elim
    · rename_i hsleeps
      rw [hsleeps] at hout
      cases hout with
      | idles hnot hsleep _ =>
        rcases @choosePrismCacheEviction_cases cfg all live realPressure candidates with
          ⟨hnone, hcan⟩ | ⟨w, ws, hsome, hcan⟩
        · rw [hnone]
          exact .idles hnot hsleep hcan
        · rw [hsome]
          exact .drains (w :: ws) "prism_ram_cache_lru" (List.cons_ne_nil w ws) hnot hsleep hcan

theorem planReplica_outcome (hmodel : ∀ w ∈ sleeping, w ∈ live ∧ w.modelId = pressure.modelId)
    (hmany : (ready.length : ℤ) < desired pressure
      (ready.map fun w => w.profile.predictedTokensPerSecond * cfg.scaleWindowSeconds).sum)
    (hone : candidates.filter (·.gpuCount = 1) ≠ []) :
    Outcome cfg now all live pressure realPressure candidates
      (CanWake cfg all live (sleeping.filter (·.profile.gpuCount = 1)) ∨
        ∃ p gpuSet, smallestCachedPrismFitting cfg (candidates.filter (·.gpuCount = 1)) all live =
          some (p, gpuSet) ∧ replicaHasUsefulMargin cfg p ready = true)
      (sleepPlacements (candidates.filter (·.gpuCount = 1)) none) False
      (planReplica cfg now all live realPressure pressure candidates ready sleeping) := by
  unfold planReplica
  simp only
  rw [if_neg (not_le.mpr hmany), if_neg hone]
  split
  · rename_i w hwake
    have hcan : CanWake cfg all live (sleeping.filter (·.profile.gpuCount = 1)) := by
      rw [← firstWake_isSome, hwake]
      rfl
    obtain ⟨hlive, hm⟩ := hmodel w (List.mem_of_mem_filter (first_cached_wake hwake).1)
    refine .serves _ (.inl hcan) ⟨_, List.mem_cons_self, w, hlive, rfl, hm⟩ fun a ha => ?_
    rw [List.mem_singleton] at ha
    rw [ha]
    rfl
  · rename_i hwake
    have hnot : ¬ CanWake cfg all live (sleeping.filter (·.profile.gpuCount = 1)) := by
      rw [← firstWake_isSome, hwake]
      simp
    split
    · rename_i p gpuSet hfit
      by_cases hmargin : replicaHasUsefulMargin cfg p ready = true
      · rw [if_pos hmargin]
        obtain ⟨hp, -⟩ := mem_smallestFitting (fun c hc => List.mem_of_mem_filter hc) hfit
        obtain ⟨hserves, hawake⟩ := start_serves hp gpuSet "prism_replica_backlog"
        exact .serves _ (.inr ⟨p, gpuSet, hfit, hmargin⟩) hserves hawake
      · rw [if_neg hmargin]
        refine sleeps_outcome (fun hfinds => ?_) (by decide)
        rcases hfinds with hcan | ⟨p', gpuSet', hfit', hmargin'⟩
        · exact hnot hcan
        · rw [hfit] at hfit'
          cases hfit'
          exact hmargin hmargin'
    · rename_i hfit
      refine sleeps_outcome (fun hfinds => ?_) (by decide)
      rcases hfinds with hcan | ⟨p, gpuSet, hfit', -⟩
      · exact hnot hcan
      · rw [hfit] at hfit'
        cases hfit'

theorem mem_sleepingWorkers_live {m : ModelId} {w : WorkerPlacement}
    (h : w ∈ sleepingWorkers live m candidates) : w ∈ live ∧ w.modelId = m := by
  simp only [sleepingWorkers, modelWorkers, List.mem_filter, decide_eq_true_eq] at h
  exact h.1

/-- A turn that does not come to a search does nothing. -/
theorem planFor_of_not_asks {q : QueuePressure} (h : ¬ Asks cfg live profiles q) :
    planFor cfg now all live realPressure profiles q = none := by
  unfold planFor
  simp only
  by_cases hnone : cacheable profiles q.modelId = []
  · rw [if_pos hnone]
  · rw [if_neg hnone]
    by_cases hmoving : transitioning live q.modelId = true
    · rw [if_pos hmoving]
      split
      · unfold planPreload
        rw [if_pos hmoving]
        split <;> rfl
      · rfl
    · rw [if_neg hmoving]
      rw [Bool.not_eq_true] at hmoving
      unfold Asks at h
      simp only [hmoving, true_and] at h
      by_cases hpre : q.preload = true
      · rw [if_pos hpre] at h
        rw [if_pos hpre]
        unfold planPreload
        rw [if_pos (not_lt.mp h)]
      · rw [if_neg hpre, not_or] at h
        obtain ⟨hready, hmany⟩ := h
        rw [if_neg hpre, if_neg hready]
        unfold planReplica
        simp only
        split
        · rfl
        · rename_i hlt
          rw [if_pos]
          by_contra hone
          exact hmany ⟨not_le.mp hlt, hone⟩

/-- A turn that comes to a search does what the search comes to. -/
theorem planFor_outcome {q : QueuePressure} (h : Asks cfg live profiles q) :
    Outcome cfg now all live q realPressure (cacheable profiles q.modelId) (Finds cfg all live profiles q)
      (searched live profiles q) (Evicts cfg all live realPressure profiles q)
      (planFor cfg now all live realPressure profiles q) := by
  obtain ⟨hmoving, hasks⟩ := h
  unfold planFor Finds searched
  simp only
  by_cases hnone : cacheable profiles q.modelId = []
  · have hsleeping : sleepingWorkers live q.modelId [] = [] := by simp [sleepingWorkers]
    rw [if_pos hnone]
    simp only [hnone, hsleeping]
    refine .idles ?_ ?_ ?_
    · simp [preloadCandidates, CanStart, CanWake, smallestCachedPrismFitting, sortedBy]
    · simp [preloadCandidates, CanSleep, sleepPlacements]
    · simp [Evicts, hnone, CanEvict]
  · rw [if_neg hnone]
    by_cases hpre : q.preload = true
    · rw [if_pos hpre] at hasks
      have hevicts : Evicts cfg all live realPressure profiles q ↔ False := by simp [Evicts, hpre]
      simp only [hpre, if_true, hevicts]
      exact planPreload_outcome hasks hmoving
    · rw [if_neg hpre] at hasks
      rw [Bool.not_eq_true] at hpre
      by_cases hready : readyWorkers live q.modelId = []
      · by_cases hsleeping : sleepingWorkers live q.modelId (cacheable profiles q.modelId) = []
        · have hevicts : Evicts cfg all live realPressure profiles q ↔
              CanEvict cfg all live realPressure (cacheable profiles q.modelId) := by
            simp [Evicts, hpre, hready, hsleeping]
          simp only [hpre, hmoving, hready, hsleeping, hevicts, if_true]
          simpa using planCold_outcome
        · have hevicts : Evicts cfg all live realPressure profiles q ↔ False := by simp [Evicts, hsleeping]
          simp only [hpre, hmoving, hready, ne_eq, hsleeping, hevicts, not_false_eq_true, if_true]
          exact planCached_outcome fun w hw => mem_sleepingWorkers_live hw
      · have hevicts : Evicts cfg all live realPressure profiles q ↔ False := by simp [Evicts, hready]
        obtain ⟨hmany, hone⟩ := hasks.resolve_left hready
        simp only [hpre, hmoving, hready, hevicts, if_false]
        exact planReplica_outcome (fun w hw => mem_sleepingWorkers_live hw) hmany hone

section outcome

variable {c : List PlacementProfile} {finds evicts : Prop}
  {placements : List (PlacementProfile × List GpuUuid × Option WorkerId)} {o : Option (List PlannerAction)}

/-- A search has actions if and only if it finds something. -/
theorem Outcome.isSome_iff
    (h : Outcome cfg now all live pressure realPressure c finds placements evicts o) :
    o.isSome = true ↔ finds ∨ CanSleep cfg now all live pressure realPressure placements ∨ evicts := by
  cases h with
  | serves actions hfinds => simp [hfinds]
  | sleeps selected reason _ hnot hmin =>
    have hcan := sleepOptions_ne_nil.mp (List.ne_nil_of_mem (mem_of_firstMin hmin))
    simp [hcan]
  | drains evicted reason _ hnot hsleep hevicts => simp [hevicts]
  | idles hnot hsleep hevicts => simp [hnot, hsleep, hevicts]

theorem Outcome.ne_nil (h : Outcome cfg now all live pressure realPressure c finds placements evicts o) :
    o ≠ some [] := by
  cases h with
  | serves actions _ hserves =>
    rintro ⟨⟩
    obtain ⟨a, ha, -⟩ := hserves
    cases ha
  | sleeps selected reason _ hnot hmin =>
    have hne := ne_nil_of_option (mem_of_firstMin hmin)
    simpa using hne
  | drains evicted reason hne => simpa using hne
  | idles => simp

end outcome

/-- A turn has actions if and only if one of its searches finds something. -/
theorem planFor_isSome {q : QueuePressure} :
    (planFor cfg now all live realPressure profiles q).isSome = true ↔
      Acts cfg now all live realPressure profiles q := by
  unfold Acts
  by_cases hasks : Asks cfg live profiles q
  · rw [(planFor_outcome hasks).isSome_iff]
    simp [hasks]
  · rw [planFor_of_not_asks hasks]
    simp [hasks]

theorem planFor_ne_nil {q : QueuePressure} : planFor cfg now all live realPressure profiles q ≠ some [] := by
  by_cases hasks : Asks cfg live profiles q
  · exact (planFor_outcome hasks).ne_nil
  · rw [planFor_of_not_asks hasks]
    simp

/-! ### The plan -/

/-- `real_pressure`, by its keys -/
def realModels (pressures : List QueuePressure) : List ModelId :=
  (pressures.filter (! ·.preload)).map (·.modelId)

variable (cfg now) in
/-- `idle_workers` -/
def idleWorkers (workers : List WorkerPlacement) (pressures : List QueuePressure) : List WorkerPlacement :=
  (liveWorkers workers).filter fun w =>
    w.state = .ready ∧ w.modelId ∉ realModels pressures ∧ w.admittedRequestIds = [] ∧
      cfg.prismIdleSleepSeconds ≤ now - w.lastDemandAt ∧ residencySatisfied cfg w now

variable {workers : List WorkerPlacement} {pressures : List QueuePressure}

theorem plan_of_idle (h : idleWorkers cfg now workers pressures ≠ []) :
    plan cfg now all workers pressures profiles =
      (idleWorkers cfg now workers pressures).map fun w => .sleep w.id "prism_idle_weight_cache" :=
  if_pos h

theorem plan_of_busy (h : idleWorkers cfg now workers pressures = []) :
    plan cfg now all workers pressures profiles =
      ((sortedBy (fun q : QueuePressure => toLex (q.preload, q.oldestEnqueuedAt)) pressures).findSome?
        (planFor cfg now all (liveWorkers workers) (realModels pressures) profiles)).getD [] :=
  if_neg (not_not.mpr h)

/-- A plan has actions if and only if there are idle workers or a pressure's
turn finds something. -/
theorem plan_ne_nil_iff : plan cfg now all workers pressures profiles ≠ [] ↔
    idleWorkers cfg now workers pressures ≠ [] ∨
      ∃ q ∈ pressures, Acts cfg now all (liveWorkers workers) (realModels pressures) profiles q := by
  by_cases hidle : idleWorkers cfg now workers pressures = []
  · have hacts : (∃ q ∈ pressures, Acts cfg now all (liveWorkers workers) (realModels pressures) profiles q) ↔
        ((sortedBy (fun q : QueuePressure => toLex (q.preload, q.oldestEnqueuedAt)) pressures).findSome?
          (planFor cfg now all (liveWorkers workers) (realModels pressures) profiles)).isSome = true := by
      rw [List.findSome?_isSome_iff]
      simp only [mem_sortedBy, planFor_isSome]
    rw [plan_of_busy hidle, hacts]
    rcases hfind : List.findSome? _ _ with _ | actions
    · simp [hidle]
    · obtain ⟨q, -, hq⟩ := List.exists_of_findSome?_eq_some hfind
      have hne : actions ≠ [] := by
        rintro rfl
        exact planFor_ne_nil hq
      simp [hne]
  · rw [plan_of_idle hidle]
    simp [hidle]

/-- One engine on each of two GPUs. -/
def onePerGpu : PlannerConfig where
  minimumResidencySeconds := 0
  fairShareSeconds := 60
  minimumMarginalEfficiency := 1 / 10
  gpuVramMib := [("gpu-0", 10000), ("gpu-1", 10000)]
  reservedVramMib := 0
  prismMaxWorkersPerGpu := 1

end Planner
end LlmRio
