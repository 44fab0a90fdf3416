/-
# Models that are launched

A request is checked against the catalog when it is submitted
(`_resolve_model`), a preload when the service starts and a warm requirement
when its model is registered. From there on the scheduler follows demand:
`_launch_if_active` reads the model's row for its artifact path and not for
its state, and `disable_model` leaves the demand as it is.

A worker is only started for a model that is AVAILABLE in every run in which
each tick finds pressure of AVAILABLE models alone and no model is disabled
during a tick that plans for it (`launches_available`). It is enough for that
to disable a model only when nothing demands it (`plansAvailable_of_quiet`).

Key definitions: `StartsAvailable`, `plansAvailable`, `demands`,
`keepsAvailable`.
Key theorems: `plan_starts`, `planned_step`, `launches_available`,
`demanded_step`, `plansAvailable_of_quiet`.
-/
import LlmRio.Runtime.SchedulerSteps

namespace LlmRio
namespace Scheduler

open Runs Selection Planner

/-! ### The claim and its condition -/

/-- A worker that the step starts is of a model that is AVAILABLE. -/
def StartsAvailable (s t : State) : Prop :=
  ∀ w ∈ t.supervisor.workers, w.id ∉ s.supervisor.workers.map (·.id) → s.available w.modelId = true

namespace State

variable (s : State)

def starts (actions : List PlannerAction) : List ModelId :=
  actions.filterMap fun
    | .start profile _ _ => some profile.modelId
    | _ => none

/-- The models that the tick under way plans for or is about to start. -/
def planned : List ModelId :=
  match s.tick with
  | .idle | .routing .. => []
  | .profiling _ pressures _ => pressures.map (·.modelId)
  | .acting actions => starts actions
  | .reading profile _ rest | .starting profile _ rest => profile.modelId :: starts rest
  | .launching rest => starts rest

/-- The models for which a tick that comes to its pressures plans. -/
def wanted : List ModelId :=
  s.queues.pendingModels ++ s.servedModels ++ ((preloadRequirements s).filter (unmet s)).map (·.1)

/-- The models of the worker to which a request is being admitted. -/
def admitting : List ModelId :=
  match s.tick with
  | .routing _ (some (w, _)) => (s.supervisor.workers.filter (·.id = w)).map (·.modelId)
  | _ => []

/-- The models that something demands. -/
def demands : List ModelId := s.waiting ++ s.admitting ++ s.servedModels ++ s.planned

end State

/-- A tick finds pressure of AVAILABLE models alone, and no model is taken out
of AVAILABLE during a tick that plans for it. -/
def plansAvailable (s : State) : Act → Bool
  | .pressures _ _ => s.wanted.all s.available
  | .disable m | .updateJob m _ _ => m ∉ s.planned
  | _ => true

/-- A model is taken out of AVAILABLE only when nothing demands it. -/
def keepsAvailable (s : State) : Act → Bool
  | .disable m | .updateJob m _ _ => m ∉ s.demands
  | _ => true

/-! ### What a plan starts -/

theorem placement_start {cfg : PlannerConfig} {all : List GpuUuid} {live : List WorkerPlacement}
    {candidates : List PlacementProfile} {m : ModelId} {actions : List PlannerAction}
    (h : Placement cfg all live candidates m actions) {p : PlacementProfile} {gpuSet : List GpuUuid} {reason : String}
    (hmem : .start p gpuSet reason ∈ actions) : p ∈ candidates := by
  cases h with
  | room _ hroom => exact (hroom _ hmem).elim
  | started profiles hsub p' gpuSet' reason' hfit =>
    rw [List.mem_singleton] at hmem
    cases hmem
    exact hsub p (smallest_fitting hfit).1
  | woken _ _ _ _ hwakes =>
    have hnone : (none : Option WorkerId) ∈ actions.map (·.wakes) := List.mem_map.mpr ⟨_, hmem, rfl⟩
    rw [hwakes] at hnone
    obtain ⟨w, -, hw⟩ := List.mem_map.mp hnone
    cases hw
  | replica =>
    rw [List.mem_singleton] at hmem
    cases hmem

section plan

variable {now : Datetime} {all : List GpuUuid} {workers : List WorkerPlacement} {pressures : List QueuePressure}
  {profiles : ModelId → List PlacementProfile} {p : PlacementProfile} {gpuSet : List GpuUuid} {reason : String}

theorem planPrism_start {cfg : PlannerConfig}
    (h : .start p gpuSet reason ∈ planPrism cfg now all workers pressures profiles) :
    ∃ q ∈ pressures, p ∈ profiles q.modelId := by
  unfold planPrism at h
  rcases hfind : List.findSome? _ _ with _ | actions
  · rw [hfind] at h
    cases h
  · rw [hfind, Option.getD_some] at h
    obtain ⟨q, hq, hplan⟩ := List.exists_of_findSome?_eq_some hfind
    rcases planPrismFor_cases hplan with ⟨p', gpuSet', reason', hfit, rfl⟩ | ⟨ws, reason', rfl⟩
    · rw [List.mem_singleton] at h
      cases h
      exact ⟨q, mem_sortedBy.mp hq, List.mem_of_mem_filter (smallest_prism_fitting hfit).1⟩
    · obtain ⟨w, -, hw⟩ := List.mem_map.mp h
      cases hw

theorem drains_start {blockers : Option (List WorkerPlacement)} {actions : List PlannerAction} {r : String}
    (hdrains : drains r blockers = some actions) (h : .start p gpuSet reason ∈ actions) : False := by
  unfold drains at hdrains
  split at hdrains
  · cases hdrains
  · cases hdrains
  · cases hdrains
    obtain ⟨w, -, hw⟩ := List.mem_map.mp h
    cases hw

theorem planNative_start {planner : GreedyPlacementPlanner}
    (h : .start p gpuSet reason ∈ planner.planNative now all workers pressures profiles) :
    ∃ q ∈ pressures, p ∈ profiles q.modelId := by
  unfold GreedyPlacementPlanner.planNative at h
  split at h
  · obtain ⟨w, -, hw⟩ := List.mem_map.mp h
    cases hw
  · rcases hfind : List.findSome? _ _ with _ | actions
    · rw [hfind] at h
      cases h
    · rw [hfind, Option.getD_some] at h
      obtain ⟨q, hq, hplan⟩ := List.exists_of_findSome?_eq_some hfind
      refine ⟨q, mem_sortedBy.mp hq, ?_⟩
      by_cases hpre : Preempts planner.toPlannerConfig (freeGpus all workers) (activeWorkers workers) profiles q
      · obtain ⟨r, -, heq⟩ := planNativeFor_of_preempts hpre
        exact (drains_start (heq.symm.trans hplan) h).elim
      · rcases planNativeFor_of_not_preempts hpre with ⟨-, starts, r, -, ⟨ps, hps, hsub⟩, heq⟩ | ⟨-, heq⟩
        · rw [heq] at hplan
          cases hplan
          obtain ⟨start, hstart, hw⟩ := List.mem_map.mp h
          cases hw
          have hfilled := List.mem_of_mem_filter (mem_fillFree (hsub.subset hstart)).1
          exact hps _ hfilled
        · rw [heq] at hplan
          cases hplan

/-- In every mode of the planner, a plan starts profiles of models with a
pressure, as they were read for the model. -/
theorem plan_starts {planner : GreedyPlacementPlanner}
    (h : .start p gpuSet reason ∈ planner.plan now all workers pressures profiles) :
    ∃ q ∈ pressures, p ∈ profiles q.modelId := by
  unfold GreedyPlacementPlanner.plan at h
  split at h
  · split at h
    · rcases plan_placement planner.toPlannerConfig now all workers pressures profiles with hroom | ⟨q, hq, hplace⟩
      · exact (hroom _ h).elim
      · exact ⟨q, hq, List.mem_of_mem_filter (placement_start hplace h)⟩
    · exact planPrism_start h
  · exact planNative_start h

end plan

variable {sv : Service} {s t : State} {a : Act} {m : ModelId}

/-! ### Plans for AVAILABLE models -/

theorem pressureOf_modelId {q : QueuePressure} (h : pressureOf s m = some q) : q.modelId = m := by
  obtain ⟨oldest, -, rfl⟩ := Option.map_eq_some_iff.mp h
  rfl

theorem tickPressures_wanted {now : Datetime} {order : List ModelId} (horder : order.Perm (demandedModels s))
    {q : QueuePressure} (hq : q ∈ tickPressures s now order) : q.modelId ∈ s.wanted := by
  unfold State.wanted
  rw [List.mem_append]
  rcases List.mem_append.mp hq with hq | hq
  · obtain ⟨m, hm, hpressure⟩ := List.mem_filterMap.mp hq
    rw [pressureOf_modelId hpressure]
    exact .inl (List.mem_dedup.mp (horder.mem_iff.mp hm))
  · right
    obtain ⟨r, hr, rfl⟩ := List.mem_map.mp hq
    obtain ⟨hreq, hunmet⟩ := List.mem_filter.mp hr
    rw [decide_eq_true_eq] at hunmet
    exact List.mem_map.mpr ⟨r, List.mem_filter.mpr ⟨mem_sortedBy.mp hreq, hunmet.2⟩, rfl⟩

theorem mem_starts {actions : List PlannerAction} :
    m ∈ State.starts actions ↔ ∃ p gpus reason, .start p gpus reason ∈ actions ∧ p.modelId = m := by
  unfold State.starts
  rw [List.mem_filterMap]
  constructor
  · rintro ⟨action, hmem, heq⟩
    cases action with
    | start p gpus reason => exact ⟨p, gpus, reason, hmem, Option.some.inj heq⟩
    | _ => cases heq
  · rintro ⟨p, gpus, reason, hmem, rfl⟩
    exact ⟨_, hmem, rfl⟩

/-- The profiles that a tick has read are of the models for which they were
read. -/
def Keyed (s : State) : Prop :=
  ∀ now pressures profileMap, s.tick = .profiling now pressures profileMap →
    ∀ entry ∈ profileMap, ∀ p ∈ entry.2, p.modelId = entry.1

theorem keyed_step (h : Keyed s) (hs : TickStep sv s a t) : Keyed t := by
  intro now pressures profileMap ht entry hentry p hp
  cases hs with
  | same htick => exact h now pressures profileMap (htick ▸ ht) entry hentry p hp
  | pressed _ _ _ _ htick =>
    rw [htick] at ht
    cases ht
    cases hentry
  | read now' pressures' profileMap' m hold htick =>
    rw [htick] at ht
    cases ht
    rcases List.mem_append.mp hentry with hentry | hentry
    · exact h _ _ _ hold entry hentry p hp
    · rw [List.mem_singleton] at hentry
      subst hentry
      have hrow := List.of_mem_filter (mem_sortedBy.mp hp)
      simpa using hrow
  | looked _ _ _ _ htick =>
    rcases htick with htick | htick <;> rw [htick] at ht <;> cases ht
  | decided _ _ _ _ htick =>
    rw [htick] at ht
    cases ht
  | ended htick | routed _ _ htick | acted _ _ _ htick | entered _ _ _ _ _ htick | launched _ _ _ _ htick
  | returned _ _ htick =>
    rw [htick] at ht
    cases ht

/-- A tick plans for what it has planned for, or for what is wanted when it
comes to its pressures. -/
theorem planned_origin (hk : Keyed s) (hs : TickStep sv s a t) (hm : m ∈ t.planned) :
    m ∈ s.planned ∨ (∃ now order, a = .pressures now order) ∧ m ∈ s.wanted := by
  unfold State.planned at hm ⊢
  cases hs with
  | same htick => exact .inl (htick ▸ hm)
  | ended htick | routed _ _ htick =>
    rw [htick] at hm
    cases hm
  | pressed now order ha horder htick =>
    rw [htick] at hm
    obtain ⟨q, hq, rfl⟩ := List.mem_map.mp hm
    exact .inr ⟨⟨now, order, ha⟩, tickPressures_wanted horder hq⟩
  | read _ _ _ _ hold htick =>
    rw [htick] at hm
    rw [hold]
    exact .inl hm
  | decided now pressures profileMap hold htick =>
    rw [htick] at hm
    rw [hold]
    obtain ⟨p, gpus, reason, hstart, rfl⟩ := mem_starts.mp hm
    have hplan := (List.mem_append.mp hstart).elim List.mem_of_mem_filter List.mem_of_mem_filter
    obtain ⟨q, hq, hp⟩ := plan_starts hplan
    left
    rcases hlook : profileMap.lookup q.modelId with _ | rows
    · rw [hlook] at hp
      cases hp
    · rw [hlook] at hp
      obtain ⟨l, l', heq, -⟩ := List.lookup_eq_some_iff.mp hlook
      have hentry : (q.modelId, rows) ∈ profileMap := by simp [heq]
      rw [hk now pressures profileMap hold _ hentry p hp]
      exact List.mem_map_of_mem hq
  | acted action rest hold htick =>
    rw [htick] at hm
    rw [hold]
    obtain ⟨p, gpus, reason, hstart, hpm⟩ := mem_starts.mp hm
    exact .inl (mem_starts.mpr ⟨p, gpus, reason, List.mem_cons_of_mem _ hstart, hpm⟩)
  | entered profile gpus reason rest hold htick =>
    rw [htick] at hm
    rw [hold]
    exact .inl hm
  | looked profile gpus rest hold htick =>
    rw [hold]
    rcases htick with htick | htick
    · rw [htick] at hm
      exact .inl hm
    · rw [htick] at hm
      exact .inl (List.mem_cons_of_mem _ hm)
  | launched profile gpus rest hold htick =>
    rw [htick] at hm
    rw [hold]
    exact .inl (List.mem_cons_of_mem _ hm)
  | returned rest hold htick =>
    rw [htick] at hm
    rw [hold]
    exact .inl hm

/-- What holds between the steps: the tick plans for AVAILABLE models. -/
structure Planned (s : State) : Prop where
  registered : Supervisor.Registered s.supervisor
  keyed : Keyed s
  available : ∀ m ∈ s.planned, s.available m = true

theorem planned_start {db : Database} {profiles : List PlacementProfile} {total tenant : Option ℕ} :
    Planned (start db profiles total tenant) := by
  refine ⟨Supervisor.registered_start, fun _ _ _ h => ?_, fun m hm => ?_⟩
  · cases h
  · cases hm

theorem planned_step (h : Planned s) (ha : plansAvailable s a = true) (hs : step sv s a = some t) : Planned t := by
  have hparts := step_parts hs
  refine ⟨registered_step h.registered hparts.supervisor, keyed_step h.keyed hparts.tick, fun m hm => ?_⟩
  rcases planned_origin h.keyed hparts.tick hm with hold | ⟨⟨now, order, rfl⟩, hwanted⟩
  · rcases available_step hparts.db (h.available m hold) with hdis | hav
    · rcases hdis with rfl | ⟨state, path, rfl⟩ <;> exact absurd hold (of_decide_eq_true ha)
    · exact hav
  · have hwas : s.available m = true := List.all_eq_true.mp ha m hwanted
    rcases available_step hparts.db hwas with hdis | hav
    · rcases hdis with hdis | ⟨_, _, hdis⟩ <;> cases hdis
    · exact hav

/-- Where a worker comes from: it was there, or the tick was about to start
it. -/
theorem worker_was (hr : Supervisor.Registered s.supervisor) (hs : SupervisorStep sv s t) {y : WorkerPlacement}
    (hy : y ∈ t.supervisor.workers) :
    (∃ x ∈ s.supervisor.workers, x.id = y.id ∧ x.modelId = y.modelId) ∨ y.modelId ∈ s.planned := by
  cases hs with
  | same hsup => exact .inl ⟨y, hsup ▸ hy, rfl, rfl⟩
  | moved b hlaunch _ hsup =>
    rcases Supervisor.worker_origin hr hsup hy with ⟨x, hx, hid, hprofile, -⟩ | ⟨-, _, _, _, _, hb, -⟩
    · exact .inl ⟨x, hx, hid, congrArg (·.modelId) hprofile⟩
    · exact absurd hb (hlaunch _ _ _ _)
  | admitted models v r now _ hsup =>
    rcases Supervisor.worker_origin hr hsup hy with ⟨x, hx, hid, hprofile, -⟩ | ⟨-, _, _, _, _, hb, -⟩
    · exact .inl ⟨x, hx, hid, congrArg (·.modelId) hprofile⟩
    · cases hb
  | launched profile gpus rest id now htick hsup =>
    rcases Supervisor.worker_origin hr hsup hy with ⟨x, hx, hid, hprofile, -⟩ | ⟨-, _, _, _, _, hb, heq⟩
    · exact .inl ⟨x, hx, hid, congrArg (·.modelId) hprofile⟩
    · cases hb
      have hmodel : y.modelId = profile.modelId := by
        rw [heq]
        rfl
      right
      unfold State.planned
      rw [htick, hmodel]
      exact List.mem_cons_self

/-- **Only AVAILABLE models are launched**, in every run in which each tick
finds pressure of AVAILABLE models alone and no model is taken out of
AVAILABLE during a tick that plans for it. -/
theorem launches_available (sv : Service) (db : Database) (profiles : List PlacementProfile) (total tenant : Option ℕ)
    (as : List Act) (s t : State) (a : Act)
    (h : exec (restrict (step sv) fun s a => plansAvailable s a = true) (start db profiles total tenant) as = some s)
    (hs : step sv s a = some t) : StartsAvailable s t := by
  have hinv : Planned s := by
    refine exec_invariant (I := Planned) (fun _ _ _ hi hs => ?_) planned_start h
    obtain ⟨ha, hs⟩ := restrict_eq_some.mp hs
    exact planned_step hi ha hs
  intro w hw hnew
  rcases worker_was hinv.registered (step_parts hs).supervisor hw with ⟨x, hx, hid, -⟩ | hplanned
  · exact absurd (hid ▸ List.mem_map_of_mem hx) hnew
  · exact hinv.available _ hplanned

/-! ### Disabling a model that nothing demands -/

/-- A worker that serves requests after a step served some before, or the step
admits one to it. -/
theorem served_origin {sup sup' : Supervisor.State} {b : Supervisor.Act} {cfg : Settings}
    (hr : Supervisor.Registered sup) (hs : Supervisor.step cfg sup b = some sup') {y : WorkerPlacement}
    (hy : y ∈ sup'.workers) (hadm : y.admittedRequestIds ≠ []) :
    ∃ x ∈ sup.workers, x.id = y.id ∧ x.profile = y.profile ∧
      (x.admittedRequestIds ≠ [] ∨ ∃ r e now, b = .admitRequest y.id r e now) := by
  rcases Supervisor.worker_origin hr hs hy with ⟨x, hx, hid, hprofile, -, hxy⟩ | ⟨-, _, _, _, _, -, heq⟩
  · refine ⟨x, hx, hid, hprofile, ?_⟩
    rcases hxy with rfl | hc
    · exact .inl hadm
    · cases hc with
      | admitted _ ha _ => exact .inr ⟨_, _, _, ha⟩
      | released _ ha =>
        left
        intro hnil
        apply hadm
        simp [WorkerPlacement.release, hnil]
      | failed | stopped => exact absurd rfl hadm
      | _ => exact .inl hadm
  · rw [heq] at hadm
    exact absurd rfl hadm

theorem mem_admitting : m ∈ s.admitting ↔ ∃ models w r, s.tick = .routing models (some (w, r)) ∧
    ∃ x ∈ s.supervisor.workers, x.id = w ∧ x.modelId = m := by
  unfold State.admitting
  split
  · rename_i models w r htick
    simp only [List.mem_map, List.mem_filter, decide_eq_true_eq, and_assoc]
    constructor
    · rintro ⟨x, hx, hid, hm⟩
      exact ⟨models, w, r, htick, x, hx, hid, hm⟩
    · rintro ⟨_, _, _, htick', x, hx, hid, hm⟩
      rw [htick] at htick'
      cases htick'
      exact ⟨x, hx, hid, hm⟩
  · rename_i hnot
    refine ⟨fun h => (List.not_mem_nil h).elim, ?_⟩
    rintro ⟨models, w, r, htick, -⟩
    exact (hnot models w r htick).elim

theorem mem_servedModels : m ∈ s.servedModels ↔
    ∃ x ∈ s.supervisor.workers, x.admittedRequestIds ≠ [] ∧ x.modelId = m := by
  simp [State.servedModels, and_assoc]

theorem mem_demands :
    m ∈ s.demands ↔ m ∈ s.waiting ∨ m ∈ s.admitting ∨ m ∈ s.servedModels ∨ m ∈ s.planned := by
  simp [State.demands]

theorem wanted_demanded (h : m ∈ s.wanted) : m ∈ s.demands := by
  rw [mem_demands, mem_waiting]
  simp only [State.wanted, List.mem_append] at h
  rcases h with (hpending | hserved) | hpreload
  · exact .inl (.inr (.inr (.inl hpending)))
  · exact .inr (.inr (.inl hserved))
  · obtain ⟨r, hr, rfl⟩ := List.mem_map.mp hpreload
    rcases List.mem_append.mp (List.mem_of_mem_filter hr) with hold | hwarm
    · exact .inl (.inr (.inr (.inr (.inl ⟨r.2, hold⟩))))
    · obtain ⟨m, hm, rfl⟩ := List.mem_map.mp hwarm
      exact .inl (.inr (.inr (.inr (.inr (List.mem_of_mem_filter (List.mem_of_mem_filter hm))))))

theorem admitting_origin (hr : Supervisor.Registered s.supervisor) (hs : Parts sv s a t) (hm : m ∈ t.admitting) :
    m ∈ s.demands := by
  rw [mem_demands]
  obtain ⟨models, w, r, htick, y, hy, hid, rfl⟩ := mem_admitting.mp hm
  rcases worker_was hr hs.supervisor hy with ⟨x, hx, hxid, hmodel⟩ | hplanned
  · rw [← hmodel]
    cases hs.tick with
    | same hold =>
      exact .inr (.inl (mem_admitting.mpr ⟨models, w, r, hold ▸ htick, x, hx, hxid.trans hid, rfl⟩))
    | routed models' admitting hroute hadmitting =>
      rw [hroute] at htick
      cases htick
      obtain ⟨x', hx', hid', hpending⟩ := hadmitting w r rfl
      have heq : x = x' := Table.eq_of_key hr.ids hx hx' ((hxid.trans hid).trans hid'.symm)
      exact .inl (mem_waiting.mpr (.inr (.inr (.inl (heq ▸ hpending)))))
    | looked _ _ _ _ hnot => rcases hnot with hnot | hnot <;> rw [hnot] at htick <;> cases htick
    | decided _ _ _ _ hnot =>
      rw [hnot] at htick
      cases htick
    | ended hnot | pressed _ _ _ _ hnot | read _ _ _ _ _ hnot | acted _ _ _ hnot | entered _ _ _ _ _ hnot
    | launched _ _ _ _ hnot | returned _ _ hnot =>
      rw [hnot] at htick
      cases htick
  · exact .inr (.inr (.inr hplanned))

theorem served_demanded (hr : Supervisor.Registered s.supervisor) (hs : SupervisorStep sv s t)
    (hm : m ∈ t.servedModels) : m ∈ s.demands := by
  rw [mem_demands]
  obtain ⟨y, hy, hadm, rfl⟩ := mem_servedModels.mp hm
  cases hs with
  | same hsup =>
    rw [hsup] at hy
    exact .inr (.inr (.inl (mem_servedModels.mpr ⟨y, hy, hadm, rfl⟩)))
  | moved b _ hnone hsup =>
    obtain ⟨x, hx, -, hprofile, hserved | ⟨r, e, now, hb⟩⟩ := served_origin hr hsup hy hadm
    · exact .inr (.inr (.inl (mem_servedModels.mpr ⟨x, hx, hserved, congrArg (·.modelId) hprofile⟩)))
    · exact absurd hb (hnone _ r e now)
  | admitted models w r now htick hsup =>
    obtain ⟨x, hx, hid, hprofile, hserved | ⟨_, _, _, hb⟩⟩ := served_origin hr hsup hy hadm
    · exact .inr (.inr (.inl (mem_servedModels.mpr ⟨x, hx, hserved, congrArg (·.modelId) hprofile⟩)))
    · cases hb
      exact .inr (.inl (mem_admitting.mpr ⟨models, _, r, htick, x, hx, hid, congrArg (·.modelId) hprofile⟩))
  | launched profile gpus rest id now htick hsup =>
    obtain ⟨x, hx, -, hprofile, hserved | ⟨_, _, _, hb⟩⟩ := served_origin hr hsup hy hadm
    · exact .inr (.inr (.inl (mem_servedModels.mpr ⟨x, hx, hserved, congrArg (·.modelId) hprofile⟩)))
    · cases hb

theorem demands_origin (hr : Supervisor.Registered s.supervisor) (hk : Keyed s) (hs : Parts sv s a t)
    (hm : m ∈ t.demands) : m ∈ s.demands ∨ NewDemand s a t m := by
  rcases mem_demands.mp hm with hm | hm | hm | hm
  · exact (hs.waiting m hm).imp_left fun hold => mem_demands.mpr (.inl hold)
  · exact .inl (admitting_origin hr hs hm)
  · exact .inl (served_demanded hr hs.supervisor hm)
  · rcases planned_origin hk hs.tick hm with hold | ⟨-, hwanted⟩
    · exact .inl (mem_demands.mpr (.inr (.inr (.inr hold))))
    · exact .inl (wanted_demanded hwanted)

/-- What holds between the steps when only what nothing demands is disabled. -/
structure Demanded (s : State) : Prop where
  registered : Supervisor.Registered s.supervisor
  keyed : Keyed s
  catalog : (s.db.modelCatalog.map (·.id)).Nodup
  available : ∀ m ∈ s.demands, s.available m = true

theorem demanded_start {db : Database} {profiles : List PlacementProfile} {total tenant : Option ℕ}
    (hn : (db.modelCatalog.map (·.id)).Nodup) : Demanded (start db profiles total tenant) := by
  refine ⟨Supervisor.registered_start, planned_start.keyed, hn, fun m hm => ?_⟩
  cases hm

theorem demanded_step (h : Demanded s) (ha : keepsAvailable s a = true) (hs : step sv s a = some t) : Demanded t := by
  have hparts := step_parts hs
  refine ⟨registered_step h.registered hparts.supervisor, keyed_step h.keyed hparts.tick,
    catalog_step h.catalog hparts.db, fun m hm => ?_⟩
  rcases demands_origin h.registered h.keyed hparts hm with hold | ⟨hnot, row, hrow, rfl, hstate⟩ | hav
  · rcases available_step hparts.db (h.available m hold) with hdis | hav
    · rcases hdis with rfl | ⟨state, path, rfl⟩ <;> exact absurd hold (of_decide_eq_true ha)
    · exact hav
  · have hwas := available_of_row h.catalog hrow hstate
    exact (available_step hparts.db hwas).resolve_left hnot
  · exact hav

theorem plansAvailable_of_keeps (h : Demanded s) (ha : keepsAvailable s a = true) : plansAvailable s a = true := by
  cases a with
  | pressures now order => exact List.all_eq_true.mpr fun m hm => h.available m (wanted_demanded hm)
  | disable m | updateJob m _ _ =>
    have hnot : m ∉ s.demands := of_decide_eq_true ha
    exact decide_eq_true fun hplanned => hnot (mem_demands.mpr (.inr (.inr (.inr hplanned))))
  | _ => rfl

/-- It is enough to disable a model only when nothing demands it: no
submission, waiting or admitted request, no preload or warm requirement, and no
tick that plans for it. -/
theorem plansAvailable_of_quiet (sv : Service) (db : Database) (hn : (db.modelCatalog.map (·.id)).Nodup)
    (profiles : List PlacementProfile) (total tenant : Option ℕ) (as : List Act) (s : State)
    (h : exec (restrict (step sv) fun s a => keepsAvailable s a = true) (start db profiles total tenant) as =
      some s) :
    exec (restrict (step sv) fun s a => plansAvailable s a = true) (start db profiles total tenant) as = some s :=
  exec_restrict_mono (I := Demanded) (fun _ _ _ hi ha hs => demanded_step hi ha hs)
    (fun _ _ hi ha => plansAvailable_of_keeps hi ha) (demanded_start hn) h

/-! ### A disabled model that is launched -/

/-- A service with one GPU. -/
def oneGpuService (kvcached : Bool) : Service where
  settings := { kvcachedEnabled := kvcached }
  base :=
    { fairShareSeconds := 60, minimumResidencySeconds := 0, minimumMarginalEfficiency := 0, scaleWindowSeconds := 60
      gpuVramMib := [("gpu", 10000)], reservedVramMib := 0, prismMaxWorkersPerGpu := 2
      prismMaxCachedWorkersPerGpu := 8, prismSleepGpuReserveMib := 0, prismIdleSleepSeconds := 60
      waitDurationSeconds := 60 }
  gpuUuids := ["gpu"]
  prismPreloadModels := ["*"]

/-- Its only model, AVAILABLE and with a profile. -/
def oneModel (kvcached : Bool) : State :=
  start { modelCatalog := [{ id := "model", nickname := "name", state := .available, artifactPath := some "/path" }] }
    [Supervisor.oneGpu (if kvcached then "kvcached" else "native")] none none

/-- A request is submitted and waits. -/
def submitted : List Act :=
  [.resolve "name" { id := "r", modelId := "", tenantId := "t", estimatedTokens := 10, reservationId := "q"
                     enqueuedAt := 0, assignment := 0 }, .enqueue 0]

/-- A tick with one pressure, up to its launch; no worker of the model is
there. -/
def tickRun (pending : Bool) : List Act :=
  .tick :: (if pending then [.route] else []) ++
    [.pressures 1 (if pending then ["model"] else []), .readProfiles, .plan, .carryOut true 1, .readModel]

instance (s t : State) : Decidable (StartsAvailable s t) :=
  inferInstanceAs (Decidable (∀ w ∈ t.supervisor.workers,
    w.id ∉ s.supervisor.workers.map (·.id) → s.available w.modelId = true))

theorem exists_of_run {s₀ : State} {as : List Act}
    (h : ((exec (step sv) s₀ as).bind fun s => (step sv s a).map fun t => decide (StartsAvailable s t)) =
      some false) :
    ∃ s t, exec (step sv) s₀ as = some s ∧ step sv s a = some t ∧ ¬ StartsAvailable s t := by
  obtain ⟨s, hs, h⟩ := Option.bind_eq_some_iff.mp h
  obtain ⟨t, ht, h⟩ := Option.map_eq_some_iff.mp h
  exact ⟨s, t, hs, ht, of_decide_eq_false h⟩

/-- The model is disabled while a request of it waits, or while a preload names
it, and the next tick launches it. -/
theorem launched_disabled :
    (∃ s t, exec (step (oneGpuService false)) (oneModel false)
        (submitted ++ .disable "model" :: tickRun true) = some s ∧
      step (oneGpuService false) s (.launch "w" 1) = some t ∧ ¬ StartsAvailable s t) ∧
    ∃ s t, exec (step (oneGpuService true)) (oneModel true)
        (.configurePrism :: .disable "model" :: tickRun false) = some s ∧
      step (oneGpuService true) s (.launch "w" 1) = some t ∧ ¬ StartsAvailable s t :=
  ⟨exists_of_run (by decide +kernel), exists_of_run (by decide +kernel)⟩

/-- A run in which the model is launched before it is disabled. -/
theorem launches_available_before : ∃ s t,
    exec (restrict (step (oneGpuService false)) fun s a => plansAvailable s a = true) (oneModel false)
        (submitted ++ tickRun true) = some s ∧
      step (oneGpuService false) s (.launch "w" 1) = some t ∧ t.supervisor.workers ≠ [] ∧ StartsAvailable s t := by
  have hrun : ((exec (restrict (step (oneGpuService false)) fun s a => plansAvailable s a = true) (oneModel false)
      (submitted ++ tickRun true)).bind fun s => (step (oneGpuService false) s (.launch "w" 1)).map fun t =>
        decide (t.supervisor.workers ≠ [])) = some true := by decide +kernel
  obtain ⟨s, hs, h⟩ := Option.bind_eq_some_iff.mp hrun
  obtain ⟨t, ht, h⟩ := Option.map_eq_some_iff.mp h
  exact ⟨s, t, hs, ht, of_decide_eq_true h, launches_available _ _ _ _ _ _ _ _ _ hs ht⟩

end Scheduler
end LlmRio
