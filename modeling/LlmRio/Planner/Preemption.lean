/-
# What a native preemption frees

The native planner drains workers for a model that has no free GPUs. Either
it drains all idle workers that are on a GPU the model could use, or all
workers on one of its GPU sets, the first that can be drained
(`FirstDrained`). The first choice looks at single GPUs and the second at
sets that may reach beyond the GPUs the planner has, so a preemption frees a
whole set if and only if some set of the model has nothing but drained
workers on it (`preemptions_free_iff`).

Key definitions: `CanDrain`, `FirstDrained`, `Turn`, `PreemptionsFree`.
Key theorems: `drainable_iff`, `drainFor_eq_some`, `planNative_of_turn`,
`preemptions_free_iff`.
-/
import LlmRio.Planner.Modes

namespace LlmRio
namespace Planner

open Selection

variable (cfg : PlannerConfig) (now : Datetime) (workers : List WorkerPlacement) (pressure : QueuePressure)
  (pressured : List ModelId)

/-! ### Which sets can be drained -/

/-- The workers that are counted in `selected_counts`. -/
def charged (ws : List WorkerPlacement) : List WorkerPlacement :=
  ws.filter fun w => w.modelId ∈ pressured ∧ ¬ starvationOverride cfg now pressure w

/-- The workers on a GPU set. -/
def workersOn (gpuSet : List GpuUuid) : List WorkerPlacement :=
  workers.filter fun w => gpusMeet w.gpuUuids gpuSet

/-- The set has workers, all of other models that have a pressure; those that
are counted have been resident for long enough, and their models have more
residents than are counted. -/
structure CanDrain (gpuSet : List GpuUuid) : Prop where
  held : workersOn workers gpuSet ≠ []
  others : ∀ w ∈ workersOn workers gpuSet,
    w.modelId ≠ pressure.modelId ∧ w.modelId ∈ pressured ∧ w.state ≠ .draining
  settled : ∀ w ∈ charged cfg now pressure pressured (workersOn workers gpuSet), residencySatisfied cfg w now = true
  spared : ∀ w ∈ charged cfg now pressure pressured (workersOn workers gpuSet),
    ((charged cfg now pressure pressured (workersOn workers gpuSet)).filter (·.modelId = w.modelId)).length <
      (residentWorkers workers w.modelId).length

/-- The first of the sets that can be drained. -/
def FirstDrained (candidates : List PlacementProfile) (gpuSet : List GpuUuid) : Prop :=
  ∃ before after, requiredSets candidates = before ++ gpuSet :: after ∧
    (∀ s ∈ before, ¬ CanDrain cfg now workers pressure pressured s) ∧
    CanDrain cfg now workers pressure pressured gpuSet

variable {cfg now workers pressure pressured}

theorem charged_cons (w : WorkerPlacement) (ws : List WorkerPlacement) :
    charged cfg now pressure pressured (w :: ws) =
      if w.modelId ∈ pressured ∧ ¬ starvationOverride cfg now pressure w = true then
        w :: charged cfg now pressure pressured ws
      else charged cfg now pressure pressured ws := by
  simp [charged, List.filter_cons]

/-- The loop over the blockers keeps a resident of each model that it counts
workers of. -/
theorem drainable_iff {residents : ModelId → ℕ} : ∀ {ws : List WorkerPlacement} {counts : ModelId → ℕ},
    drainable cfg now pressure pressured residents counts ws = true ↔
      (∀ w ∈ charged cfg now pressure pressured ws, residencySatisfied cfg w now = true) ∧
        ∀ w ∈ charged cfg now pressure pressured ws, counts w.modelId +
          ((charged cfg now pressure pressured ws).filter (·.modelId = w.modelId)).length < residents w.modelId
  | [], counts => by simp [drainable, charged]
  | w :: ws, counts => by
    rw [drainable]
    by_cases hin : w.modelId ∈ pressured
    · by_cases hover : starvationOverride cfg now pressure w = true
      · rw [if_neg (not_not.mpr hin), if_pos hover, charged_cons, if_neg (by simp [hover])]
        exact drainable_iff
      · have hcharged : charged cfg now pressure pressured (w :: ws) =
            w :: charged cfg now pressure pressured ws := by
          rw [charged_cons, if_pos ⟨hin, hover⟩]
        rw [if_neg (not_not.mpr hin), if_neg hover, hcharged]
        by_cases hres : residencySatisfied cfg w now = true
        · rw [if_neg (not_not.mpr hres)]
          have hcount : ∀ v : WorkerPlacement,
              counts v.modelId +
                  ((w :: charged cfg now pressure pressured ws).filter (·.modelId = v.modelId)).length =
                Function.update counts w.modelId (counts w.modelId + 1) v.modelId +
                  ((charged cfg now pressure pressured ws).filter (·.modelId = v.modelId)).length := by
            intro v
            by_cases hm : w.modelId = v.modelId
            · rw [List.filter_cons_of_pos (by simpa using hm), List.length_cons, ← hm, Function.update_self]
              omega
            · rw [List.filter_cons_of_neg (by simpa using hm), Function.update_of_ne (Ne.symm hm)]
          simp only [List.forall_mem_cons, hcount, Function.update_self, hres, true_and]
          by_cases hspare : (residents w.modelId : ℤ) - counts w.modelId - 1 < 1
          · rw [if_pos hspare]
            simp only [Bool.false_eq_true, false_iff]
            rintro ⟨-, hw, -⟩
            omega
          · rw [if_neg hspare, drainable_iff]
            constructor
            · rintro ⟨hall, hcounts⟩
              refine ⟨hall, ?_, hcounts⟩
              -- the worker itself is the last of its model, or another one counts it
              by_cases hsame : ∃ v ∈ charged cfg now pressure pressured ws, v.modelId = w.modelId
              · obtain ⟨v, hv, hm⟩ := hsame
                have hcv := hcounts v hv
                rw [hm, Function.update_self] at hcv
                exact hcv
              · have hnone : (charged cfg now pressure pressured ws).filter (·.modelId = w.modelId) = [] := by
                  rw [List.filter_eq_nil_iff]
                  intro v hv hm
                  exact hsame ⟨v, hv, by simpa using hm⟩
                rw [hnone, List.length_nil]
                omega
            · rintro ⟨hall, -, hcounts⟩
              exact ⟨hall, hcounts⟩
        · rw [if_pos hres]
          simp only [Bool.false_eq_true, false_iff]
          rintro ⟨hall, -⟩
          exact hres (hall w List.mem_cons_self)
    · rw [if_pos hin, charged_cons, if_neg (fun h => hin h.1)]
      exact drainable_iff

theorem drainFor_eq_some {gpuSet : List GpuUuid} {drained : List WorkerPlacement} :
    drainFor cfg now workers pressure pressured gpuSet = some drained ↔
      CanDrain cfg now workers pressure pressured gpuSet ∧
        drained = sortedBy (fun w : WorkerPlacement =>
          toLex (decide (w.modelId ∈ pressured), w.profile.predictedTokensPerSecond)) (workersOn workers gpuSet) := by
  unfold drainFor
  simp only
  have hon : (workers.filter fun w => gpusMeet w.gpuUuids gpuSet) = workersOn workers gpuSet := rfl
  rw [hon]
  constructor
  · intro h
    split at h
    · cases h
    · rename_i hself
      split at h
      · cases h
      · rename_i hunpressured
        split at h
        · cases h
        · rename_i hheld
          split at h
          · rename_i hdrain
            cases h
            rw [drainable_iff] at hdrain
            rw [not_or] at hheld
            simp only [List.any_eq_true, decide_eq_true_eq, not_exists, not_and] at hself hunpressured hheld
            refine ⟨⟨hheld.1, fun w hw => ⟨hself w hw, ?_, hheld.2 w hw⟩, hdrain.1, ?_⟩, rfl⟩
            · exact not_not.mp (hunpressured w hw)
            · intro w hw
              have hlt := hdrain.2 w hw
              omega
          · cases h
  · rintro ⟨hcan, rfl⟩
    have hself : ¬ (workersOn workers gpuSet).any (·.modelId = pressure.modelId) = true := by
      simp only [List.any_eq_true, decide_eq_true_eq, not_exists, not_and]
      exact fun w hw => (hcan.others w hw).1
    have hpressured : ¬ (workersOn workers gpuSet).any (·.modelId ∉ pressured) = true := by
      simp only [List.any_eq_true, decide_eq_true_eq, not_exists, not_and, not_not]
      exact fun w hw => (hcan.others w hw).2.1
    have hheld : ¬ (workersOn workers gpuSet = [] ∨ (workersOn workers gpuSet).any (·.state = .draining) = true) := by
      rw [not_or]
      refine ⟨hcan.held, ?_⟩
      simp only [List.any_eq_true, decide_eq_true_eq, not_exists, not_and]
      exact fun w hw => (hcan.others w hw).2.2
    rw [if_neg hself, if_neg hpressured, if_neg hheld, if_pos]
    rw [drainable_iff]
    refine ⟨hcan.settled, fun w hw => ?_⟩
    have hlt := hcan.spared w hw
    omega

/-- A preemption drains the idle workers on the GPUs that the model could
use, or else the workers on the first set that can be drained. -/
theorem choosePreemption_eq_some {candidates : List PlacementProfile} {drained : List WorkerPlacement}
    (hidle : idleBlockers cfg now workers pressured candidates = []) :
    choosePreemption cfg now workers pressure pressured candidates = some drained ↔
      ∃ gpuSet, FirstDrained cfg now workers pressure pressured candidates gpuSet ∧
        drained = sortedBy (fun w : WorkerPlacement =>
          toLex (decide (w.modelId ∈ pressured), w.profile.predictedTokensPerSecond))
          (workersOn workers gpuSet) := by
  have hnone : ∀ s, drainFor cfg now workers pressure pressured s = none ↔
      ¬ CanDrain cfg now workers pressure pressured s := by
    intro s
    constructor
    · intro hs hcan
      rw [drainFor_eq_some.mpr ⟨hcan, rfl⟩] at hs
      cases hs
    · intro hcan
      rcases hs : drainFor cfg now workers pressure pressured s with _ | ws
      · rfl
      · exact absurd (drainFor_eq_some.mp hs).1 hcan
  rw [choosePreemption_of_busy hidle, List.findSome?_eq_some_iff]
  constructor
  · rintro ⟨before, gpuSet, after, hsplit, hs, hbefore⟩
    obtain ⟨hcan, hdrained⟩ := drainFor_eq_some.mp hs
    exact ⟨gpuSet, ⟨before, after, hsplit, fun s hs => (hnone s).mp (hbefore s hs), hcan⟩, hdrained⟩
  · rintro ⟨gpuSet, ⟨before, after, hsplit, hbefore, hcan⟩, hdrained⟩
    exact ⟨before, gpuSet, after, hsplit, drainFor_eq_some.mpr ⟨hcan, hdrained⟩,
      fun s hs => (hnone s).mpr (hbefore s hs)⟩

/-! ### A turn of the native planner -/

/-- No set of the profiles with the fewest GPUs is free. -/
def NoneFree (free : List GpuUuid) (profiles : List PlacementProfile) : Prop :=
  ¬ ∃ p ∈ profiles, p.gpuCount = smallestGpuCount profiles ∧
    ∃ gpuSet ∈ p.eligibleGpuSets, within gpuSet free = true

section turn

variable (cfg : PlannerConfig) (now : Datetime) (free : List GpuUuid) (active : List WorkerPlacement)
  (pressured : List ModelId) (profiles : ModelId → List PlacementProfile) (q : QueuePressure)

/-- The READY workers of the model -/
def servingWorkers : List WorkerPlacement :=
  (residentWorkers active q.modelId).filter (·.state = .ready)

/-- The turn asks for another worker beside the READY ones of the model. -/
def WantsReplica : Prop :=
  residentWorkers active q.modelId ≠ [] ∧ servingWorkers active q ≠ [] ∧
    (profiles q.modelId).filter (·.gpuCount = 1) ≠ [] ∧
    ((residentWorkers active q.modelId).length : ℤ) < desired q
      ((servingWorkers active q).map fun w => w.profile.predictedTokensPerSecond * cfg.scaleWindowSeconds).sum

/-- The turn comes to a preemption: nothing of what it asks for is free. -/
def Preempts : Prop :=
  profiles q.modelId ≠ [] ∧
    ((residentWorkers active q.modelId = [] ∧ NoneFree free (profiles q.modelId)) ∨
      (WantsReplica cfg active profiles q ∧
        NoneFree free ((profiles q.modelId).filter (·.gpuCount = 1))))

/-- The turn has something to start. -/
def Starts : Prop :=
  profiles q.modelId ≠ [] ∧
    ((residentWorkers active q.modelId = [] ∧ ¬ NoneFree free (profiles q.modelId)) ∨
      (WantsReplica cfg active profiles q ∧
        ∃ start ∈ (maximumSmallestPlacements ((profiles q.modelId).filter (·.gpuCount = 1)) free).take
            (desired q ((servingWorkers active q).map fun w =>
                w.profile.predictedTokensPerSecond * cfg.scaleWindowSeconds).sum -
              (residentWorkers active q.modelId).length).toNat,
          replicaHasUsefulMargin cfg start.1 (servingWorkers active q) = true))

/-- The turn has something to start or someone to drain. -/
def TurnActs : Prop :=
  Starts cfg free active profiles q ∨
    (Preempts cfg free active profiles q ∧
      (idleBlockers cfg now active pressured (profiles q.modelId) ≠ [] ∨
        ∃ gpuSet ∈ requiredSets (profiles q.modelId), CanDrain cfg now active q pressured gpuSet))

end turn

variable {free : List GpuUuid} {active : List WorkerPlacement} {profiles : ModelId → List PlacementProfile}
  {q : QueuePressure}

/-- The reasons of the drains that a preemption makes. -/
def preemptionReasons : List String := ["incompatible_backlog", "replica_capacity"]

/-- A turn that comes to a preemption drains what it chooses. -/
theorem planNativeFor_of_preempts (h : Preempts cfg free active profiles q) : ∃ reason ∈ preemptionReasons,
    planNativeFor cfg now free active pressured profiles q =
      drains reason (choosePreemption cfg now active q pressured (profiles q.modelId)) := by
  obtain ⟨hprofiles, hbranch⟩ := h
  unfold planNativeFor
  simp only
  rw [if_neg hprofiles]
  rcases hbranch with ⟨hresident, hfree⟩ | ⟨⟨hresident, hready, hone, hmany⟩, hfree⟩
  · refine ⟨"incompatible_backlog", by decide, ?_⟩
    rw [if_pos hresident, placements_eq_nil.mpr hfree]
  · refine ⟨"replica_capacity", by decide, ?_⟩
    unfold servingWorkers at hready hmany
    rw [if_neg hresident, if_neg (not_or.mpr ⟨hready, hone⟩), if_neg (not_le.mpr hmany),
      placements_eq_nil.mpr hfree]
    simp

/-- The starts are some of those with which the loop fills the free GPUs. -/
def Fills (free : List GpuUuid) (profiles : List PlacementProfile) (starts : List (PlacementProfile × List GpuUuid)) :
    Prop :=
  ∃ ps : List PlacementProfile, (∀ p ∈ ps, p ∈ profiles) ∧ starts.Sublist (maximumSmallestPlacements ps free)

/-- Any other turn starts something or nothing. -/
theorem planNativeFor_of_not_preempts (h : ¬ Preempts cfg free active profiles q) :
    (Starts cfg free active profiles q ∧ ∃ starts : List (PlacementProfile × List GpuUuid), ∃ reason, starts ≠ [] ∧
        Fills free (profiles q.modelId) starts ∧ planNativeFor cfg now free active pressured profiles q =
          some (starts.map fun start => .start start.1 start.2 reason)) ∨
      (¬ Starts cfg free active profiles q ∧ planNativeFor cfg now free active pressured profiles q = none) := by
  unfold Preempts at h
  unfold planNativeFor Starts
  simp only
  by_cases hprofiles : profiles q.modelId = []
  · simp [hprofiles]
  · rw [if_neg hprofiles]
    by_cases hresident : residentWorkers active q.modelId = []
    · rw [if_pos hresident]
      have hfree : ¬ NoneFree free (profiles q.modelId) := fun hfree => h ⟨hprofiles, .inl ⟨hresident, hfree⟩⟩
      have hstarts : maximumSmallestPlacements (profiles q.modelId) free ≠ [] :=
        fun hnil => hfree (placements_eq_nil.mp hnil)
      left
      refine ⟨⟨hprofiles, .inl ⟨hresident, hfree⟩⟩, maximumSmallestPlacements (profiles q.modelId) free,
        "cold_backlog", hstarts, ⟨profiles q.modelId, fun p hp => hp, List.Sublist.refl _⟩, ?_⟩
      split
      · rename_i hnil
        exact absurd hnil hstarts
      · rfl
    · rw [if_neg hresident]
      have hserving : (residentWorkers active q.modelId).filter (·.state = .ready) = servingWorkers active q := rfl
      rw [hserving]
      by_cases hwants : WantsReplica cfg active profiles q
      · obtain ⟨-, hready, hone, hmany⟩ := id hwants
        have hfree : ¬ NoneFree free ((profiles q.modelId).filter (·.gpuCount = 1)) :=
          fun hfree => h ⟨hprofiles, .inr ⟨hwants, hfree⟩⟩
        have hstarts : maximumSmallestPlacements ((profiles q.modelId).filter (·.gpuCount = 1)) free ≠ [] :=
          fun hnil => hfree (placements_eq_nil.mp hnil)
        rw [if_neg (not_or.mpr ⟨hready, hone⟩), if_neg (not_le.mpr hmany)]
        split
        · rename_i huseful
          obtain ⟨start, hstart⟩ := List.exists_mem_of_ne_nil _ huseful
          rw [List.mem_filter] at hstart
          left
          exact ⟨⟨hprofiles, .inr ⟨hwants, start, hstart⟩⟩, _, "replica_backlog", huseful,
            ⟨(profiles q.modelId).filter (·.gpuCount = 1), fun p hp => List.mem_of_mem_filter hp,
              List.filter_sublist.trans (List.take_sublist _ _)⟩, rfl⟩
        · rename_i huseful
          rw [not_not, List.filter_eq_nil_iff] at huseful
          right
          refine ⟨?_, rfl⟩
          rintro ⟨-, ⟨hnil, -⟩ | ⟨-, start, hmem, hmargin⟩⟩
          · exact hresident hnil
          · exact huseful start hmem hmargin
      · right
        refine ⟨?_, ?_⟩
        · rintro ⟨-, ⟨hnil, -⟩ | ⟨hw, -⟩⟩
          · exact hresident hnil
          · exact hwants hw
        · split
          · rfl
          · rename_i hready
            rw [not_or] at hready
            rw [if_pos]
            by_contra hmany
            exact hwants ⟨hresident, hready.1, hready.2, not_le.mp hmany⟩

theorem not_starts_of_preempts (h : Preempts cfg free active profiles q) : ¬ Starts cfg free active profiles q := by
  rintro ⟨-, ⟨hnil, hfree⟩ | ⟨hwants, start, hmem, -⟩⟩
  · obtain ⟨-, ⟨-, hnone⟩ | ⟨hwants, -⟩⟩ := h
    · exact hfree hnone
    · exact hwants.1 hnil
  · obtain ⟨-, ⟨hnil, -⟩ | ⟨-, hnone⟩⟩ := h
    · exact hwants.1 hnil
    · rw [placements_eq_nil.mpr hnone] at hmem
      simp at hmem

/-- A preemption drains no one, or it has someone to drain. -/
theorem choosePreemption_cases (candidates : List PlacementProfile) :
    (∃ w ws, choosePreemption cfg now active q pressured candidates = some (w :: ws)) ∧
        (idleBlockers cfg now active pressured candidates ≠ [] ∨
          ∃ gpuSet ∈ requiredSets candidates, CanDrain cfg now active q pressured gpuSet) ∨
      choosePreemption cfg now active q pressured candidates = none ∧
        ¬ (idleBlockers cfg now active pressured candidates ≠ [] ∨
          ∃ gpuSet ∈ requiredSets candidates, CanDrain cfg now active q pressured gpuSet) := by
  have hsorted : ∀ {κ : Type} [LinearOrder κ] (key : WorkerPlacement → κ) {ws : List WorkerPlacement}, ws ≠ [] →
      ∃ v vs, sortedBy key ws = v :: vs := by
    intro κ _ key ws hne
    obtain ⟨w, hw⟩ := List.exists_mem_of_ne_nil _ hne
    exact List.exists_cons_of_ne_nil (List.ne_nil_of_mem (mem_sortedBy.mpr hw))
  by_cases hidle : idleBlockers cfg now active pressured candidates = []
  · cases hchoice : choosePreemption cfg now active q pressured candidates with
    | none =>
      right
      refine ⟨rfl, ?_⟩
      rintro (hne | ⟨gpuSet, hmem, hcan⟩)
      · exact hne hidle
      · rw [choosePreemption_of_busy hidle, List.findSome?_eq_none_iff] at hchoice
        have hnone := hchoice gpuSet hmem
        rw [drainFor_eq_some.mpr ⟨hcan, rfl⟩] at hnone
        cases hnone
    | some drained =>
      obtain ⟨gpuSet, hfirst, rfl⟩ := (choosePreemption_eq_some hidle).mp hchoice
      obtain ⟨before, after, hsplit, -, hcan⟩ := hfirst
      obtain ⟨w, ws, hws⟩ := hsorted (fun w : WorkerPlacement =>
        toLex (decide (w.modelId ∈ pressured), w.profile.predictedTokensPerSecond)) hcan.held
      refine .inl ⟨⟨w, ws, by rw [hws]⟩, .inr ⟨gpuSet, ?_, hcan⟩⟩
      rw [hsplit]
      simp
  · obtain ⟨w, ws, hws⟩ := hsorted (fun w : WorkerPlacement => w.profile.predictedTokensPerSecond) hidle
    exact .inl ⟨⟨w, ws, by rw [choosePreemption_of_idle hidle, hws]⟩, .inl hidle⟩

/-- A turn goes on to the next pressure if and only if it has nothing to start
and no one to drain. -/
theorem planNativeFor_eq_none : planNativeFor cfg now free active pressured profiles q = none ↔
    ¬ TurnActs cfg now free active pressured profiles q := by
  unfold TurnActs
  by_cases hpre : Preempts cfg free active profiles q
  · obtain ⟨reason, -, hplan⟩ := @planNativeFor_of_preempts cfg now pressured free active profiles q hpre
    rw [hplan]
    rcases @choosePreemption_cases cfg now pressured active q (profiles q.modelId) with
      ⟨⟨w, ws, hchoice⟩, hcan⟩ | ⟨hchoice, hcan⟩
    · rw [hchoice]
      simp only [drains, reduceCtorEq, false_iff, not_not]
      exact .inr ⟨hpre, hcan⟩
    · rw [hchoice]
      simp only [drains, true_iff, not_or, not_and]
      exact ⟨not_starts_of_preempts hpre, fun _ => not_or.mp hcan⟩
  · rcases @planNativeFor_of_not_preempts cfg now pressured free active profiles q hpre with
      ⟨hstarts, starts, reason, hne, -, hplan⟩ | ⟨hstarts, hplan⟩
    · simp [hplan, hstarts]
    · simp [hplan, hstarts, hpre]

/-! ### The plan -/

section plan

variable (planner : GreedyPlacementPlanner) (now : Datetime) (all : List GpuUuid) (workers : List WorkerPlacement)
  (pressures : List QueuePressure) (profiles : ModelId → List PlacementProfile) (q : QueuePressure)

/-- The plan is what the turn of the pressure does: no worker is idle for too
long, and it is the first turn that has something to do. -/
structure Turn : Prop where
  busy : planner.idleWorkers now workers pressures = []
  first : ∃ before after, sortedBy (fun q : QueuePressure => q.oldestEnqueuedAt) pressures = before ++ q :: after ∧
    ∀ r ∈ before, ¬ TurnActs planner.toPlannerConfig now (freeGpus all workers) (activeWorkers workers)
      (pressures.map (·.modelId)) profiles r
  acts : TurnActs planner.toPlannerConfig now (freeGpus all workers) (activeWorkers workers)
    (pressures.map (·.modelId)) profiles q

/-- A whole GPU set of the candidates has only workers with these ids on it. -/
def FreesASet (candidates : List PlacementProfile) (ids : List WorkerId) : Prop :=
  ∃ p ∈ candidates, ∃ gpuSet ∈ p.eligibleGpuSets, within gpuSet all = true ∧
    ∀ w ∈ activeWorkers workers, gpusMeet w.gpuUuids gpuSet = true → w.id ∈ ids

/-- The drains of a preemption free a whole set of the model that they are
for. -/
def PreemptionsFree : Prop :=
  ∀ q, Turn planner now all workers pressures profiles q → ∀ ids, ∀ reason ∈ preemptionReasons, ids ≠ [] →
    planner.planNative now all workers pressures profiles = ids.map (fun id => .drain id reason) →
      FreesASet all workers (profiles q.modelId) ids

end plan

variable {planner : GreedyPlacementPlanner} {all : List GpuUuid} {pressures : List QueuePressure}

theorem planNative_of_turn (h : Turn planner now all workers pressures profiles q) :
    ∃ actions, planNativeFor planner.toPlannerConfig now (freeGpus all workers) (activeWorkers workers)
        (pressures.map (·.modelId)) profiles q = some actions ∧
      planner.planNative now all workers pressures profiles = actions := by
  obtain ⟨before, after, hsplit, hbefore⟩ := h.first
  cases hplan : planNativeFor planner.toPlannerConfig now (freeGpus all workers) (activeWorkers workers)
      (pressures.map (·.modelId)) profiles q with
  | none => exact absurd h.acts (planNativeFor_eq_none.mp hplan)
  | some actions =>
    refine ⟨actions, rfl, ?_⟩
    unfold GreedyPlacementPlanner.planNative
    rw [if_neg (not_not.mpr h.busy), hsplit]
    have hfind : (before ++ q :: after).findSome? (planNativeFor planner.toPlannerConfig now (freeGpus all workers)
        (activeWorkers workers) (pressures.map (·.modelId)) profiles) = some actions :=
      List.findSome?_eq_some_iff.mpr
        ⟨before, q, after, rfl, hplan, fun r hr => planNativeFor_eq_none.mpr (hbefore r hr)⟩
    rw [hfind, Option.getD_some]

/-- Each preemption is done in the turn of a pressure. -/
theorem exists_turn {ids : List WorkerId} {reason : String} (hids : ids ≠ []) (hreason : reason ∈ preemptionReasons)
    (hplan : planner.planNative now all workers pressures profiles = ids.map fun id => .drain id reason) :
    ∃ q ∈ pressures, Turn planner now all workers pressures profiles q := by
  obtain ⟨id, ids, rfl⟩ := List.exists_cons_of_ne_nil hids
  unfold GreedyPlacementPlanner.planNative at hplan
  by_cases hbusy : planner.idleWorkers now workers pressures = []
  · rw [if_neg (not_not.mpr hbusy)] at hplan
    cases hfind : List.findSome? _ _ with
    | none =>
      rw [hfind] at hplan
      cases hplan
    | some actions =>
      obtain ⟨before, q, after, hsplit, hq, hbefore⟩ := List.findSome?_eq_some_iff.mp hfind
      have hmem : q ∈ sortedBy (fun q : QueuePressure => q.oldestEnqueuedAt) pressures := by
        rw [hsplit]
        simp
      refine ⟨q, mem_sortedBy.mp hmem, hbusy, ?_, ?_⟩
      · exact ⟨before, after, hsplit, fun r hr => planNativeFor_eq_none.mp (hbefore r hr)⟩
      · by_contra hacts
        rw [planNativeFor_eq_none.mpr hacts] at hq
        cases hq
  · rw [if_pos hbusy] at hplan
    obtain ⟨w, ws, hws⟩ := List.exists_cons_of_ne_nil hbusy
    rw [hws, List.map_cons, List.map_cons, List.cons.injEq, PlannerAction.drain.injEq] at hplan
    rw [← hplan.1.2] at hreason
    simp [preemptionReasons] at hreason

/-- The turn of a pressure that comes to a preemption drains what it chooses. -/
theorem planNative_of_preempts (h : Turn planner now all workers pressures profiles q)
    (hpre : Preempts planner.toPlannerConfig (freeGpus all workers) (activeWorkers workers) profiles q) :
    ∃ drained, drained ≠ [] ∧ choosePreemption planner.toPlannerConfig now (activeWorkers workers) q
        (pressures.map (·.modelId)) (profiles q.modelId) = some drained ∧
      ∃ reason ∈ preemptionReasons, planner.planNative now all workers pressures profiles =
        (drained.map (·.id)).map fun id => .drain id reason := by
  obtain ⟨actions, hturn, hplan⟩ := planNative_of_turn h
  obtain ⟨reason, hreason, hdrains⟩ := @planNativeFor_of_preempts planner.toPlannerConfig now
    (pressures.map (·.modelId)) (freeGpus all workers) (activeWorkers workers) profiles q hpre
  rw [hdrains] at hturn
  cases hchoice : choosePreemption planner.toPlannerConfig now (activeWorkers workers) q
      (pressures.map (·.modelId)) (profiles q.modelId) with
  | none =>
    rw [hchoice] at hturn
    cases hturn
  | some drained =>
    rw [hchoice] at hturn
    cases drained with
    | nil => cases hturn
    | cons w ws =>
      cases hturn
      refine ⟨w :: ws, List.cons_ne_nil w ws, rfl, reason, hreason, ?_⟩
      rw [hplan, List.map_map]
      rfl

/-- A plan that drains for a preemption is that of a turn that comes to one. -/
theorem preempts_of_drains (h : Turn planner now all workers pressures profiles q) {ids : List WorkerId}
    {reason : String} (hids : ids ≠ [])
    (hplan : planner.planNative now all workers pressures profiles = ids.map fun id => .drain id reason) :
    Preempts planner.toPlannerConfig (freeGpus all workers) (activeWorkers workers) profiles q := by
  by_contra hpre
  obtain ⟨actions, hturn, hactions⟩ := planNative_of_turn h
  rcases @planNativeFor_of_not_preempts planner.toPlannerConfig now (pressures.map (·.modelId))
    (freeGpus all workers) (activeWorkers workers) profiles q hpre with
    ⟨-, starts, reason', hne, -, hstarts⟩ | ⟨-, hnone⟩
  · rw [hstarts] at hturn
    cases hturn
    rw [hplan] at hactions
    obtain ⟨id, ids, rfl⟩ := List.exists_cons_of_ne_nil hids
    obtain ⟨start, starts, rfl⟩ := List.exists_cons_of_ne_nil hne
    simp at hactions
  · rw [hnone] at hturn
    cases hturn

/-- Who is drained is known by the ids. -/
theorem freesASet_iff (hn : (workers.map (·.id)).Nodup) {candidates : List PlacementProfile}
    {drained : List WorkerPlacement} (hsub : ∀ w ∈ drained, w ∈ workers) :
    FreesASet all workers candidates (drained.map (·.id)) ↔
      ∃ p ∈ candidates, ∃ gpuSet ∈ p.eligibleGpuSets, within gpuSet all = true ∧
        ∀ w ∈ activeWorkers workers, gpusMeet w.gpuUuids gpuSet = true → w ∈ drained := by
  have hid : ∀ w ∈ activeWorkers workers, w.id ∈ drained.map (·.id) ↔ w ∈ drained := by
    intro w hw
    constructor
    · intro hmem
      obtain ⟨v, hv, heq⟩ := List.mem_map.mp hmem
      obtain rfl : v = w := Table.eq_of_key hn (hsub v hv) (List.mem_of_mem_filter hw) heq
      exact hv
    · exact List.mem_map_of_mem
  unfold FreesASet
  constructor
  · rintro ⟨p, hp, gpuSet, hset, hin, hall⟩
    exact ⟨p, hp, gpuSet, hset, hin, fun w hw hmeet => (hid w hw).mp (hall w hw hmeet)⟩
  · rintro ⟨p, hp, gpuSet, hset, hin, hall⟩
    exact ⟨p, hp, gpuSet, hset, hin, fun w hw hmeet => (hid w hw).mpr (hall w hw hmeet)⟩

/-- Those that are drained, as the set of those that are to go. -/
theorem mem_drained_of_idle {candidates : List PlacementProfile} {drained : List WorkerPlacement}
    (hidle : idleBlockers cfg now active pressured candidates ≠ [])
    (h : choosePreemption cfg now active q pressured candidates = some drained) (w : WorkerPlacement) :
    w ∈ drained ↔ w ∈ idleBlockers cfg now active pressured candidates := by
  rw [choosePreemption_of_idle hidle, Option.some.injEq] at h
  rw [← h, mem_sortedBy]

theorem mem_drained_of_first {candidates : List PlacementProfile} {drained : List WorkerPlacement}
    (hidle : idleBlockers cfg now active pressured candidates = []) {gpuSet : List GpuUuid}
    (hfirst : FirstDrained cfg now active q pressured candidates gpuSet)
    (h : choosePreemption cfg now active q pressured candidates = some drained) (w : WorkerPlacement) :
    w ∈ drained ↔ w ∈ active ∧ gpusMeet w.gpuUuids gpuSet = true := by
  have hsome := (choosePreemption_eq_some hidle).mpr ⟨gpuSet, hfirst, rfl⟩
  rw [h, Option.some.injEq] at hsome
  rw [hsome, mem_sortedBy, workersOn, List.mem_filter]

theorem drained_sub {candidates : List PlacementProfile} {drained : List WorkerPlacement}
    (h : choosePreemption cfg now (activeWorkers workers) q pressured candidates = some drained) :
    ∀ w ∈ drained, w ∈ workers := by
  intro w hw
  by_cases hidle : idleBlockers cfg now (activeWorkers workers) pressured candidates = []
  · obtain ⟨gpuSet, hfirst, -⟩ := (choosePreemption_eq_some hidle).mp h
    exact List.mem_of_mem_filter ((mem_drained_of_first hidle hfirst h w).mp hw).1
  · have hmem := (mem_drained_of_idle hidle h w).mp hw
    exact List.mem_of_mem_filter (List.mem_of_mem_filter hmem)

theorem map_drain_injective {ids ids' : List WorkerId} {reason reason' : String}
    (h : (ids.map fun id => PlannerAction.drain id reason) = ids'.map fun id => .drain id reason') : ids = ids' := by
  have hids := congrArg (List.map fun a : PlannerAction => match a with
    | .drain id _ => id
    | _ => "") h
  simpa [List.map_map, Function.comp_def] using hids

/-- **Preemption.** What a preemption drains frees a whole set if and only if
some set of the model inside the inventory has on it nothing but the idle
workers that are drained, or nothing but workers that are also on the set
that is drained. Each preemption is done in the turn of a pressure. -/
theorem preemptions_free_iff (planner : GreedyPlacementPlanner) (now : Datetime) (all : List GpuUuid)
    (workers : List WorkerPlacement) (pressures : List QueuePressure)
    (profiles : ModelId → List PlacementProfile) (hn : (workers.map (·.id)).Nodup) :
    (PreemptionsFree planner now all workers pressures profiles ↔
      ∀ q, Turn planner now all workers pressures profiles q →
        Preempts planner.toPlannerConfig (freeGpus all workers) (activeWorkers workers) profiles q →
        let pressured := pressures.map (·.modelId)
        let idle := idleBlockers planner.toPlannerConfig now (activeWorkers workers) pressured (profiles q.modelId)
        (idle ≠ [] → ∃ p ∈ profiles q.modelId, ∃ gpuSet ∈ p.eligibleGpuSets, within gpuSet all = true ∧
          ∀ w ∈ activeWorkers workers, gpusMeet w.gpuUuids gpuSet = true → w ∈ idle) ∧
        (idle = [] → ∀ drainedSet,
          FirstDrained planner.toPlannerConfig now (activeWorkers workers) q pressured (profiles q.modelId)
            drainedSet →
          ∃ p ∈ profiles q.modelId, ∃ gpuSet ∈ p.eligibleGpuSets, within gpuSet all = true ∧
            ∀ w ∈ activeWorkers workers, gpusMeet w.gpuUuids gpuSet = true →
              gpusMeet w.gpuUuids drainedSet = true)) ∧
    ∀ ids, ∀ reason ∈ preemptionReasons, ids ≠ [] →
      planner.planNative now all workers pressures profiles = ids.map (fun id => .drain id reason) →
        ∃ q ∈ pressures, Turn planner now all workers pressures profiles q := by
  refine ⟨⟨?_, ?_⟩, fun ids reason hreason hids hplan => exists_turn hids hreason hplan⟩
  · intro hfree q hturn hpre pressured idle
    obtain ⟨drained, hne, hchoice, reason, hreason, hplan⟩ := planNative_of_preempts hturn hpre
    have hids : drained.map (·.id) ≠ [] := by simpa using hne
    have hset := hfree q hturn (drained.map (·.id)) reason hreason hids hplan
    rw [freesASet_iff hn (drained_sub hchoice)] at hset
    refine ⟨fun hidle => ?_, fun hidle drainedSet hfirst => ?_⟩
    · simp only [mem_drained_of_idle hidle hchoice] at hset
      exact hset
    · simp only [mem_drained_of_first hidle hfirst hchoice] at hset
      obtain ⟨p, hp, gpuSet, hset, hin, hall⟩ := hset
      exact ⟨p, hp, gpuSet, hset, hin, fun w hw hmeet => (hall w hw hmeet).2⟩
  · intro hcond q hturn ids reason hreason hids hplan
    have hpre := preempts_of_drains hturn hids hplan
    obtain ⟨hidleCase, hsetCase⟩ := hcond q hturn hpre
    obtain ⟨drained, hne, hchoice, reason', -, hplan'⟩ := planNative_of_preempts hturn hpre
    have hsame : ids = drained.map (·.id) := by
      rw [hplan'] at hplan
      exact (map_drain_injective hplan).symm
    rw [hsame, freesASet_iff hn (drained_sub hchoice)]
    by_cases hidle : idleBlockers planner.toPlannerConfig now (activeWorkers workers) (pressures.map (·.modelId))
        (profiles q.modelId) = []
    · obtain ⟨drainedSet, hfirst, -⟩ := (choosePreemption_eq_some hidle).mp hchoice
      obtain ⟨p, hp, gpuSet, hset, hin, hall⟩ := hsetCase hidle drainedSet hfirst
      simp only [mem_drained_of_first hidle hfirst hchoice]
      exact ⟨p, hp, gpuSet, hset, hin, fun w hw hmeet => ⟨hw, hall w hw hmeet⟩⟩
    · simp only [mem_drained_of_idle hidle hchoice]
      exact hidleCase hidle

section examples

/-- A profile that runs on all of the GPUs. -/
def spanning (gpus : List GpuUuid) : PlacementProfile where
  id := "spanning"
  modelId := "m"
  engine := .vllm
  gpuCount := gpus.length
  eligibleGpuSets := [gpus]
  predictedTokensPerSecond := 10
  loadAndWarmupSeconds := 60
  idleVramMibPerGpu := gpus.map fun _ => 500
  peakVramMibPerGpu := gpus.map fun _ => 800
  gpuHeadroomMibPerGpu := gpus.map fun _ => 0
  gpuMemoryUtilization := 9 / 10

/-- A READY worker of another model on one GPU. -/
def holding (model : ModelId) (gpu : GpuUuid) (admitted : List RequestId) : WorkerPlacement where
  id := model
  profile := { spanning [gpu] with id := model, modelId := model }
  gpuUuids := [gpu]
  port := 18000
  state := .ready
  admittedRequestIds := admitted
  lastDemandAt := 0

def nativePlanner : GreedyPlacementPlanner where
  minimumResidencySeconds := 0
  fairShareSeconds := 60
  minimumMarginalEfficiency := 1 / 10
  gpuVramMib := []
  reservedVramMib := 0
  waitDurationSeconds := 3600

theorem preemptions_free_iff_idle :
    nativePlanner.planNative 0 ["gpu-0"] [holding "x" "gpu-0" []] [⟨"m", 1, 100, 0, false, 1⟩]
        (fun _ => [spanning ["gpu-0"]]) = [.drain "x" "incompatible_backlog"] ∧
      PreemptionsFree nativePlanner 0 ["gpu-0"] [holding "x" "gpu-0" []] [⟨"m", 1, 100, 0, false, 1⟩]
        (fun _ => [spanning ["gpu-0"]]) := by
  refine ⟨by decide +kernel, (preemptions_free_iff _ _ _ _ _ _ (by decide)).1.mpr ?_⟩
  intro q hturn _ pressured idle
  have hidle : idle = [holding "x" "gpu-0" []] := by
    show idleBlockers nativePlanner.toPlannerConfig 0 (activeWorkers [holding "x" "gpu-0" []]) ["m"]
      [spanning ["gpu-0"]] = _
    decide +kernel
  rw [hidle]
  constructor
  · intro _
    exact ⟨spanning ["gpu-0"], List.mem_cons_self, ["gpu-0"], List.mem_cons_self, by decide, by decide +kernel⟩
  · intro hnil
    cases hnil

/-- The idle worker is drained, and the other GPU of the set stays busy. -/
theorem not_preemptions_free : ¬ PreemptionsFree nativePlanner 0 ["gpu-0", "gpu-1"]
    [holding "x" "gpu-0" [], holding "y" "gpu-1" ["r"]] [⟨"m", 1, 100, 0, false, 1⟩]
    (fun _ => [spanning ["gpu-0", "gpu-1"]]) := by
  intro h
  have hplan : nativePlanner.planNative 0 ["gpu-0", "gpu-1"] [holding "x" "gpu-0" [], holding "y" "gpu-1" ["r"]]
      [⟨"m", 1, 100, 0, false, 1⟩] (fun _ => [spanning ["gpu-0", "gpu-1"]]) =
      ["x"].map fun id => .drain id "incompatible_backlog" := by decide +kernel
  have hacts : planNativeFor nativePlanner.toPlannerConfig 0
      (freeGpus ["gpu-0", "gpu-1"] [holding "x" "gpu-0" [], holding "y" "gpu-1" ["r"]])
      (activeWorkers [holding "x" "gpu-0" [], holding "y" "gpu-1" ["r"]]) ["m"]
      (fun _ => [spanning ["gpu-0", "gpu-1"]]) ⟨"m", 1, 100, 0, false, 1⟩ ≠ none := by decide +kernel
  have hturn : Turn nativePlanner 0 ["gpu-0", "gpu-1"] [holding "x" "gpu-0" [], holding "y" "gpu-1" ["r"]]
      [⟨"m", 1, 100, 0, false, 1⟩] (fun _ => [spanning ["gpu-0", "gpu-1"]]) ⟨"m", 1, 100, 0, false, 1⟩ :=
    ⟨by decide +kernel, ⟨[], [], rfl, by simp⟩, not_not.mp fun hnone => hacts (planNativeFor_eq_none.mpr hnone)⟩
  obtain ⟨p, hp, gpuSet, hset, -, hall⟩ := h _ hturn ["x"] "incompatible_backlog" (by decide) (by simp) hplan
  rw [List.mem_singleton] at hp
  subst hp
  have hgpus : gpuSet = ["gpu-0", "gpu-1"] := by simpa [spanning] using hset
  subst hgpus
  have hy := hall (holding "y" "gpu-1" ["r"]) (by decide +kernel) (by decide +kernel)
  exact absurd hy (by decide)

end examples

end Planner
end LlmRio
