/-
# The scheduler's ticks

A tick of `ResidencyScheduler` routes waiting requests to READY workers,
computes the pressures, reads the profiles of the models under pressure,
plans, and carries out the plan. Around it requests are submitted, wait and
are cancelled, models are registered and disabled, and preload and warm
requirements are added.

A step is the code between two awaits. The supervisor moves by its own steps
(`Supervisor.step`), and the drains of `disable_model` are calls of it. What
the stored mode and the maintenance flag say is an input of the step that
reads them. The scheduler's `_state_lock` is held where `State.locked` says
so, and every other section under it is one step.

Key definitions: `Service`, `Tick`, `State`, `tickPressures`, `Act`, `step`,
`start`.
-/
import LlmRio.Planner.Agreement
import LlmRio.Runtime.Queueing
import LlmRio.Storage.Catalog

namespace LlmRio
namespace Scheduler

open Runs Selection Planner

/-! ### The state -/

/-- What a service is configured with: the supervisor's settings, those of
the planner, its GPUs and `prism_preload_models`. -/
structure Service where
  settings : Settings := {}
  base : GreedyPlacementPlanner
  gpuUuids : List GpuUuid
  prismPreloadModels : List String := []

/-- Where the task of the scheduler is. -/
inductive Tick
  | idle
  /-- `_route_ready_work`, with the models still to serve and the request whose
  `admit` is awaited. -/
  | routing (models : List ModelId) (admitting : Option (WorkerId × QueuedRequest))
  /-- The profiles of the pressures are read, one model after the other. -/
  | profiling (now : Datetime) (pressures : List QueuePressure) (profileMap : List (ModelId × List PlacementProfile))
  | acting (actions : List PlannerAction)
  /-- `_launch_if_active` awaits the row of the model. -/
  | reading (profile : PlacementProfile) (gpus : List GpuUuid) (rest : List PlannerAction)
  /-- It calls `supervisor.launch`. -/
  | starting (profile : PlacementProfile) (gpus : List GpuUuid) (rest : List PlannerAction)
  | launching (rest : List PlannerAction)

/-- `profiles` are the active rows of this machine, and `resolved` the
submissions between `_resolve_model` and `enqueue`. -/
structure State where
  db : Database
  profiles : List PlacementProfile
  supervisor : Supervisor.State := {}
  queues : ModelQueues
  resolved : List QueuedRequest := []
  /-- Models whose registration has stored AVAILABLE and not yet called
  `warm_model_once`. -/
  registered : List ModelId := []
  prismConfigured : Bool := false
  prismPreloadModelIds : List (ModelId × ℕ) := []
  prismOneTimeWarmModelIds : List ModelId := []
  validationGpuUuids : List GpuUuid := []
  tick : Tick := .idle

/-- `SELECT * FROM model_catalog WHERE id = ?` -/
def modelById (db : Database) (m : ModelId) : Option CatalogModel :=
  Table.lookup CatalogModel.id m db.modelCatalog

namespace State

variable (s : State)

def available (m : ModelId) : Bool := (modelById s.db m).any (·.state = .available)

/-- The scheduler holds `_state_lock`. -/
def locked : Bool :=
  match s.tick with
  | .routing .. | .reading .. | .starting .. | .launching _ => true
  | .idle | .profiling .. | .acting _ => false

/-- `ProfileRepository.for_model` -/
def forModel (m : ModelId) : List PlacementProfile :=
  sortedBy (fun p : PlacementProfile => toLex (p.gpuCount, -p.predictedTokensPerSecond))
    (s.profiles.filter (·.modelId = m))

/-- The models of workers with admitted requests. -/
def servedModels : List ModelId :=
  (s.supervisor.workers.filter (·.admittedRequestIds ≠ [])).map (·.modelId)

end State

/-! ### Pressures -/

/-- `estimated_token_work` -/
def estimatedTokenWork (q : DeficitRoundRobinQueue) : ℤ := (q.requests.map (·.estimatedTokens)).sum

/-- `oldest_enqueued_at` -/
def oldestEnqueuedAt (q : DeficitRoundRobinQueue) : Option Datetime :=
  (q.queues.filterMap fun entry => entry.2.head?.map (·.enqueuedAt)).min?

section pressures

variable (s : State)

/-- The turn of the loop of `_pressures` for a model. -/
def pressureOf (m : ModelId) : Option QueuePressure :=
  let queue := s.queues.forModel m
  let active := s.supervisor.workers.filter fun w => w.modelId = m ∧ w.admittedRequestIds ≠ []
  ((oldestEnqueuedAt queue).toList ++ active.map (·.lastDemandAt)).min?.map fun oldest =>
    { modelId := m
      requests := queue.size + (active.map (·.admittedRequestIds.length)).sum
      estimatedTokens := estimatedTokenWork queue + (active.map (·.outstandingTokenWork)).sum
      oldestEnqueuedAt := oldest }

/-- `warm_model_ids` -/
def warmModels : List ModelId :=
  (s.supervisor.workers.filter (·.state ∈ [.ready, .sleeping])).map (·.modelId)

/-- `_prism_one_time_warm_model_ids` after `difference_update`. -/
def stillToWarm : List ModelId := s.prismOneTimeWarmModelIds.filter (· ∉ warmModels s)

/-- `preload_requirements` -/
def preloadRequirements : List (ModelId × ℕ) :=
  s.prismPreloadModelIds ++
    ((stillToWarm s).filter (· ∉ s.prismPreloadModelIds.map (·.1))).map fun m => (m, 1)

/-- Fewer workers of the model are live than the requirement asks for. -/
def unmet (requirement : ModelId × ℕ) : Bool :=
  (s.supervisor.workers.filter fun w => w.modelId = requirement.1 ∧ w.state ∉ [.cold, .stopping]).length <
    requirement.2

def preloadPressures (now : Datetime) (pressured : List ModelId) : List QueuePressure :=
  ((sortedBy (fun r : ModelId × ℕ => toLex r) (preloadRequirements s)).filter fun r =>
    r.1 ∉ pressured ∧ unmet s r).map fun r =>
      { modelId := r.1, requests := 0, estimatedTokens := 1, oldestEnqueuedAt := now, preload := true
        desiredWorkers := r.2 }

/-- `model_ids` in `_pressures`, a set. -/
def demandedModels : List ModelId := (s.queues.pendingModels ++ s.servedModels).dedup

/-- The pressures of a tick that goes through `model_ids` in the given order. -/
def tickPressures (now : Datetime) (order : List ModelId) : List QueuePressure :=
  order.filterMap (pressureOf s) ++ preloadPressures s now ((order.filterMap (pressureOf s)).map (·.modelId))

end pressures

/-! ### The steps -/

inductive Act
  /-- `request_model`, and a clone of an AVAILABLE model. -/
  | insertModel (m : CatalogModel)
  /-- `update_model_job` -/
  | updateJob (m : ModelId) (state : CatalogState) (artifactPath : Option String)
  /-- The transaction that ends a registration. -/
  | register (m : ModelId) (artifactPath : String) (profiles : List PlacementProfile)
  | disable (m : ModelId)
  /-- An administrator edits the profiles. -/
  | editProfiles (profiles : List PlacementProfile)
  | resolve (nickname : String) (request : QueuedRequest)
  /-- A submission is refused after `_resolve_model`. -/
  | abandon (k : ℕ)
  | enqueue (k : ℕ)
  | cancel (m : ModelId) (id : RequestId)
  | configurePrism
  | warmOnce (m : ModelId)
  /-- `_validation_gpu_uuids` changes. -/
  | validation (gpus : List GpuUuid)
  /-- The supervisor goes on, or one of its methods is called. -/
  | supervisor (a : Supervisor.Act)
  /-- A tick that finds the service ACTIVE comes to `_route_ready_work`. -/
  | tick
  | route
  | admitNext (now : Datetime)
  | pressures (now : Datetime) (order : List ModelId)
  | readProfiles
  | plan
  /-- `active`: the service is ACTIVE and no maintenance is requested. -/
  | carryOut (active : Bool) (now : Datetime)
  | readModel
  | launch (id : WorkerId) (now : Datetime)
  | launchEnd (raised : Bool)
  /-- The tick is over, or something that it awaits raises. -/
  | tickEnd

/-- `self._prism_preload_model_ids.get(model_id, 0) + 1` -/
def countPreload (m : ModelId) : List (ModelId × ℕ) → List (ModelId × ℕ)
  | [] => [(m, 1)]
  | (m', n) :: counts => if m' = m then (m', n + 1) :: counts else (m', n) :: countPreload m counts

variable (sv : Service)

def Service.planner : GreedyPlacementPlanner := schedulerPlanner sv.settings sv.base

/-- `selected` in `_configure_prism` -/
def selectedModels (db : Database) : List CatalogModel :=
  if sv.prismPreloadModels = ["*"] then sortedBy (·.nickname) db.modelCatalog
  else sv.prismPreloadModels.filterMap fun name => db.modelCatalog.find? (·.nickname = name)

/-- `_configure_prism`, which ends before the service takes requests. -/
def configureSection (s : State) : State :=
  if s.prismConfigured then s
  else if sv.settings.kvcachedEnabled = false then { s with prismConfigured := true }
  else
    let preloaded := (selectedModels sv s.db).filter fun m => m.state = .available ∧ m.artifactPath.any (· ≠ "")
    { s with
      prismConfigured := true
      prismPreloadModelIds := (preloaded.map (·.id)).foldl (fun counts m => countPreload m counts)
        s.prismPreloadModelIds }

/-- A turn of the loops of `_route_ready_work`, up to the next `admit`. -/
def routeSection (s : State) (m : ModelId) (models : List ModelId) : State :=
  let ready := s.supervisor.workers.filter fun w => w.modelId = m ∧ w.isRoutable
  match minBy (·.outstandingTokenWork) ready, (s.queues.forModel m).pop with
  | some w, some (r, q) =>
    { s with queues := s.queues.update m q, tick := .routing (m :: models) (some (w.id, r)) }
  | _, _ => { s with tick := .routing models none }

/-- The scheduler carries out an action of the plan. -/
def actSection (s : State) (rest : List PlannerAction) (active : Bool) (now : Datetime) :
    PlannerAction → Option State
  | .sleep w _ => (Supervisor.step sv.settings s.supervisor (.sleep w now)).map fun sup =>
    { s with supervisor := sup, tick := .acting rest }
  | .drain w _ => (Supervisor.step sv.settings s.supervisor (.drain w now)).map fun sup =>
    { s with supervisor := sup, tick := .acting rest }
  | .wake w _ =>
    match s.supervisor.worker? w with
    | none => some { s with tick := .acting rest }
    | some x =>
      if active = false ∨ gpusMeet x.gpuUuids s.validationGpuUuids = true then some { s with tick := .acting rest }
      else (Supervisor.step sv.settings s.supervisor (.wake w)).map fun sup =>
        { s with supervisor := sup, tick := .acting rest }
  | .start profile gpus _ =>
    if active = false ∨ gpusMeet gpus s.validationGpuUuids = true then some { s with tick := .acting rest }
    else some { s with tick := .reading profile gpus rest }

def isSleep : PlannerAction → Bool
  | .sleep .. => true
  | _ => false

/-- The plan of a tick, in the order in which it is carried out. -/
def planSection (s : State) (now : Datetime) (pressures : List QueuePressure)
    (profileMap : List (ModelId × List PlacementProfile)) : State :=
  let actions := sv.planner.plan now (sv.gpuUuids.filter (· ∉ s.validationGpuUuids)) s.supervisor.workers pressures
    fun m => (profileMap.lookup m).getD []
  { s with tick := .acting (actions.filter isSleep ++ actions.filter (! isSleep ·)) }

def step (s : State) : Act → Option State
  | .insertModel m =>
    match s.db.insertModel m with
    | .ok db => some { s with db := db }
    | .error _ => none
  | .updateJob m state path =>
    if state ≠ .available then some { s with db := s.db.updateModel m state path } else none
  | .register m path profiles =>
    if s.db.hasModel m then
      some { s with
        db := s.db.updateModel m .available (some path)
        profiles := s.profiles.filter (·.modelId ≠ m) ++ profiles
        registered := s.registered ++ [m] }
    else none
  | .disable m => some { s with db := s.db.updateModel m .disabled none }
  | .editProfiles profiles => some { s with profiles := profiles }
  | .resolve nickname request =>
    match s.db.modelCatalog.find? (·.nickname = nickname) with
    | some row =>
      if row.state = .available then some { s with resolved := s.resolved ++ [{ request with modelId := row.id }] }
      else none
    | none => none
  | .abandon k => some { s with resolved := s.resolved.eraseIdx k }
  | .enqueue k =>
    match s.resolved[k]? with
    | some r =>
      if s.locked then none
      else some { s with resolved := s.resolved.eraseIdx k, queues := (s.queues.put r).1 }
    | none => none
  | .cancel m id =>
    if s.locked then none
    else (s.queues.remove m id).map fun (_, queues) => { s with queues := queues }
  | .configurePrism => some (configureSection sv s)
  | .warmOnce m =>
    if m ∈ s.registered then
      if sv.settings.ramWeightCacheEnabled = false then some { s with registered := s.registered.erase m }
      else if s.locked then none
      else some { s with
        registered := s.registered.erase m
        prismOneTimeWarmModelIds := s.prismOneTimeWarmModelIds.insert m }
    else none
  | .validation gpus => if s.locked then none else some { s with validationGpuUuids := gpus }
  | .supervisor a =>
    match a with
    -- called by the scheduler only
    | .launch .. | .wake _ | .admitRequest .. => none
    | _ => (Supervisor.step sv.settings s.supervisor a).map fun sup => { s with supervisor := sup }
  | .tick =>
    match s.tick with
    | .idle => some { s with tick := .routing s.queues.pendingModels none }
    | _ => none
  | .route =>
    match s.tick with
    | .routing (m :: models) none => some (routeSection s m models)
    | _ => none
  | .admitNext now =>
    match s.tick with
    | .routing models (some (w, r)) =>
      if s.supervisor.launching = none then
        -- an `admit` that raises fails the request
        match Supervisor.step sv.settings s.supervisor (.admitRequest w r.id r.estimatedTokens now) with
        | some sup => some { s with supervisor := sup, tick := .routing models none }
        | none => some { s with tick := .routing models none }
      else none
    | _ => none
  | .pressures now order =>
    match s.tick with
    | .routing [] none =>
      if order.Perm (demandedModels s) then
        some { s with
          -- `for_model` makes the queues that are not there
          queues := order.foldl (fun queues m => queues.update m (queues.forModel m)) s.queues
          prismOneTimeWarmModelIds := stillToWarm s
          tick := .profiling now (tickPressures s now order) [] }
      else none
    | _ => none
  | .readProfiles =>
    match s.tick with
    | .profiling now pressures profileMap =>
      (pressures[profileMap.length]?).map fun q =>
        { s with tick := .profiling now pressures (profileMap ++ [(q.modelId, s.forModel q.modelId)]) }
    | _ => none
  | .plan =>
    match s.tick with
    | .profiling now pressures profileMap =>
      if profileMap.length = pressures.length then some (planSection sv s now pressures profileMap) else none
    | _ => none
  | .carryOut active now =>
    match s.tick with
    | .acting (action :: rest) => actSection sv s rest active now action
    | _ => none
  | .readModel =>
    match s.tick with
    | .reading profile gpus rest =>
      -- the state of the model is not looked at
      if (modelById s.db profile.modelId).any (·.artifactPath.any (· ≠ "")) then
        some { s with tick := .starting profile gpus rest }
      else some { s with tick := .acting rest }
    | _ => none
  | .launch id now =>
    match s.tick with
    | .starting profile gpus rest =>
      if s.supervisor.launching = none then
        match Supervisor.launchPort sv.settings s.supervisor.workers profile gpus with
        | .ok _ =>
          (Supervisor.step sv.settings s.supervisor (.launch profile gpus id now)).map fun sup =>
            { s with supervisor := sup, tick := .launching rest }
        | .error _ => some { s with tick := .idle }
      else none
    | _ => none
  | .launchEnd raised =>
    match s.tick with
    | .launching rest =>
      if s.supervisor.launching = none then some { s with tick := if raised then .idle else .acting rest } else none
    | _ => none
  | .tickEnd =>
    match s.tick with
    | .profiling .. | .acting _ | .reading .. => some { s with tick := .idle }
    | _ => none

/-- The service starts with what the database has. -/
def start (db : Database) (profiles : List PlacementProfile) (total tenant : Option ℕ) : State where
  db := db
  profiles := profiles
  queues := { totalCapacity := total, tenantCapacity := tenant }

end Scheduler
end LlmRio
