/-
# What a step of the scheduler does

One inversion of `step` for all that is proved about its runs: what a step can
do to the database, to the supervisor and to the tick, and where a model that
is waited for comes from (`step_parts`).

Key definitions: `DbStep`, `SupervisorStep`, `TickStep`, `Parts`.
Key theorems: `step_parts`, `available_step`.
-/
import LlmRio.Runtime.Scheduler
import LlmRio.Workers.Registered

namespace LlmRio
namespace Scheduler

open Runs Selection Planner

/-! ### The catalog -/

section catalog

variable {db : Database} {m m' : ModelId}

/-- `updateModel` sets the state of the model's row and keeps its id. -/
theorem updateModel_catalog (db : Database) (m : ModelId) (state : CatalogState) (path : Option String) :
    ∃ f : CatalogModel → CatalogModel, (∀ row, row.id = m → (f row).id = m) ∧ (∀ row, (f row).state = state) ∧
      (db.updateModel m state path).modelCatalog = Table.modify CatalogModel.id m f db.modelCatalog :=
  ⟨fun row => { row with state := state, artifactPath := path.or row.artifactPath }, fun _ hid => hid,
    fun _ => rfl, rfl⟩

theorem modelById_updateModel_ne {state : CatalogState} {path : Option String} (hm : m' ≠ m) :
    modelById (db.updateModel m state path) m' = modelById db m' := by
  obtain ⟨f, hid, -, hcatalog⟩ := updateModel_catalog db m state path
  unfold modelById
  rw [hcatalog, Table.lookup_modify_ne hm hid]

theorem modelById_updateModel_self {state : CatalogState} {path : Option String} {row : CatalogModel}
    (h : modelById db m = some row) : ∃ row', modelById (db.updateModel m state path) m = some row' ∧
      row'.state = state := by
  obtain ⟨f, hid, hstate, hcatalog⟩ := updateModel_catalog db m state path
  refine ⟨f row, ?_, hstate row⟩
  unfold modelById at h ⊢
  rw [hcatalog, Table.lookup_modify_self hid, h]
  rfl

theorem modelById_insertModel {row : CatalogModel} {db' : Database} (h : db.insertModel row = .ok db')
    {x : CatalogModel} (hx : modelById db m = some x) : modelById db' m = some x := by
  unfold Database.insertModel at h
  split at h
  · cases h
  · cases h
    unfold modelById at hx ⊢
    rw [Table.lookup_append, hx]
    rfl

/-- A row that is found by its nickname is the row of its model. -/
theorem available_of_row {s : State} (hn : (s.db.modelCatalog.map (·.id)).Nodup) {row : CatalogModel}
    (hrow : row ∈ s.db.modelCatalog) (h : row.state = .available) : s.available row.id = true := by
  unfold State.available modelById
  rw [Table.lookup_of_mem hn hrow]
  simpa using h

end catalog

variable {sv} {s t : State} {a : Act} {m : ModelId}

theorem available_iff : s.available m = true ↔ ∃ row, modelById s.db m = some row ∧ row.state = .available := by
  unfold State.available
  rw [Option.any_eq_true]
  simp only [decide_eq_true_eq]

/-- The action takes the model out of AVAILABLE. -/
def Act.disables (a : Act) (m : ModelId) : Prop := a = .disable m ∨ ∃ state path, a = .updateJob m state path

theorem available_of_modelById (h : modelById t.db m = modelById s.db m) : t.available m = s.available m := by
  unfold State.available
  rw [h]

theorem available_updateModel {state : CatalogState} {path : Option String} {m' : ModelId}
    (hdb : t.db = s.db.updateModel m' state path) (h : s.available m = true) :
    m = m' ∨ t.available m = true := by
  by_cases hm : m = m'
  · exact .inl hm
  · right
    rw [← h]
    apply available_of_modelById
    rw [hdb, modelById_updateModel_ne hm]

theorem available_registered {path : Option String} (hm : s.db.hasModel m = true)
    (hdb : t.db = s.db.updateModel m .available path) : t.available m = true := by
  apply available_iff.mpr
  rcases hlook : modelById s.db m with _ | row
  · unfold Database.hasModel at hm
    obtain ⟨row, hrow, hid⟩ := List.any_eq_true.mp hm
    exact absurd (of_decide_eq_true hid) (Table.lookup_none.mp hlook row hrow)
  · rw [hdb]
    exact modelById_updateModel_self hlook

/-! ### What a step does -/

theorem routeSection_frame (s : State) (m : ModelId) (models : List ModelId) :
    (routeSection s m models).db = s.db ∧ (routeSection s m models).supervisor = s.supervisor ∧
      ∃ models' admitting, (routeSection s m models).tick = .routing models' admitting ∧
        ∀ w r, admitting = some (w, r) →
          ∃ x ∈ s.supervisor.workers, x.id = w ∧ x.modelId ∈ s.queues.pendingModels := by
  simp only [routeSection]
  split
  · rename_i x r q hmin hpop
    refine ⟨rfl, rfl, m :: models, some (x.id, r), rfl, fun w r' heq => ?_⟩
    cases heq
    have hready := mem_of_minBy hmin
    rw [List.mem_filter, decide_eq_true_eq] at hready
    refine ⟨x, hready.1, rfl, ?_⟩
    rw [hready.2.1]
    exact ModelQueues.pending_of_size (DeficitRoundRobinQueue.pop_size hpop).1
  · exact ⟨rfl, rfl, models, none, rfl, fun _ _ heq => by cases heq⟩

theorem configureSection_frame (s : State) :
    (configureSection sv s).db = s.db ∧ (configureSection sv s).supervisor = s.supervisor ∧
      (configureSection sv s).tick = s.tick := by
  unfold configureSection
  split
  · exact ⟨rfl, rfl, rfl⟩
  · split <;> exact ⟨rfl, rfl, rfl⟩

/-- What a step does to the database. -/
inductive DbStep (s : State) (a : Act) (t : State) : Prop
  | same (h : t.db = s.db)
  | inserted (row : CatalogModel) (h : s.db.insertModel row = .ok t.db)
  | registered (m : ModelId) (path : String) (profiles : List PlacementProfile) (ha : a = .register m path profiles)
      (hm : s.db.hasModel m = true) (h : t.db = s.db.updateModel m .available (some path))
  | disabled (m : ModelId) (state : CatalogState) (path : Option String) (ha : a.disables m)
      (h : t.db = s.db.updateModel m state path)

/-- What a step does to the supervisor: a method that launches nothing and
admits nothing, an `admit` of the tick or its launch. -/
inductive SupervisorStep (sv : Service) (s t : State) : Prop
  | same (h : t.supervisor = s.supervisor)
  | moved (b : Supervisor.Act) (hlaunch : ∀ profile gpus id now, b ≠ .launch profile gpus id now)
      (hadm : ∀ w r e now, b ≠ .admitRequest w r e now)
      (h : Supervisor.step sv.settings s.supervisor b = some t.supervisor)
  | admitted (models : List ModelId) (w : WorkerId) (r : QueuedRequest) (now : Datetime)
      (htick : s.tick = .routing models (some (w, r)))
      (h : Supervisor.step sv.settings s.supervisor (.admitRequest w r.id r.estimatedTokens now) = some t.supervisor)
  | launched (profile : PlacementProfile) (gpus : List GpuUuid) (rest : List PlannerAction) (id : WorkerId)
      (now : Datetime) (htick : s.tick = .starting profile gpus rest)
      (h : Supervisor.step sv.settings s.supervisor (.launch profile gpus id now) = some t.supervisor)

/-- What a step does to the tick. -/
inductive TickStep (sv : Service) (s : State) (a : Act) (t : State) : Prop
  | same (h : t.tick = s.tick)
  | ended (h : t.tick = .idle)
  | routed (models : List ModelId) (admitting : Option (WorkerId × QueuedRequest))
      (h : t.tick = .routing models admitting) (hadmitting : ∀ w r, admitting = some (w, r) →
        ∃ x ∈ s.supervisor.workers, x.id = w ∧ x.modelId ∈ s.queues.pendingModels)
  | pressed (now : Datetime) (order : List ModelId) (ha : a = .pressures now order)
      (horder : order.Perm (demandedModels s)) (h : t.tick = .profiling now (tickPressures s now order) [])
  | read (now : Datetime) (pressures : List QueuePressure) (profileMap : List (ModelId × List PlacementProfile))
      (m : ModelId) (hs : s.tick = .profiling now pressures profileMap)
      (h : t.tick = .profiling now pressures (profileMap ++ [(m, s.forModel m)]))
  | decided (now : Datetime) (pressures : List QueuePressure) (profileMap : List (ModelId × List PlacementProfile))
      (hs : s.tick = .profiling now pressures profileMap) (h : t = planSection sv s now pressures profileMap)
  | acted (action : PlannerAction) (rest : List PlannerAction) (hs : s.tick = .acting (action :: rest))
      (h : t.tick = .acting rest)
  | entered (profile : PlacementProfile) (gpus : List GpuUuid) (reason : String) (rest : List PlannerAction)
      (hs : s.tick = .acting (.start profile gpus reason :: rest)) (h : t.tick = .reading profile gpus rest)
  | looked (profile : PlacementProfile) (gpus : List GpuUuid) (rest : List PlannerAction)
      (hs : s.tick = .reading profile gpus rest) (h : t.tick = .starting profile gpus rest ∨ t.tick = .acting rest)
  | launched (profile : PlacementProfile) (gpus : List GpuUuid) (rest : List PlannerAction)
      (hs : s.tick = .starting profile gpus rest) (h : t.tick = .launching rest)
  | returned (rest : List PlannerAction) (hs : s.tick = .launching rest) (h : t.tick = .acting rest)

namespace State

variable (s : State)

/-- The models of submissions, waiting requests and preload requirements. -/
def waiting : List ModelId :=
  s.resolved.map (·.modelId) ++ s.registered ++ s.queues.pendingModels ++ s.prismPreloadModelIds.map (·.1) ++
    s.prismOneTimeWarmModelIds

end State

/-- A model comes to be waited for when its row says AVAILABLE, or when it is
registered. -/
def NewDemand (s : State) (a : Act) (t : State) (m : ModelId) : Prop :=
  (¬ a.disables m ∧ ∃ row ∈ s.db.modelCatalog, row.id = m ∧ row.state = .available) ∨ t.available m = true

/-- What a step does, part by part. -/
structure Parts (sv : Service) (s : State) (a : Act) (t : State) : Prop where
  db : DbStep s a t
  supervisor : SupervisorStep sv s t
  tick : TickStep sv s a t
  waiting : ∀ m ∈ t.waiting, m ∈ s.waiting ∨ NewDemand s a t m

theorem mem_waiting : m ∈ s.waiting ↔ (∃ r ∈ s.resolved, r.modelId = m) ∨ m ∈ s.registered ∨
    m ∈ s.queues.pendingModels ∨ (∃ n, (m, n) ∈ s.prismPreloadModelIds) ∨ m ∈ s.prismOneTimeWarmModelIds := by
  simp [State.waiting]

/-- Nothing more is waited for when each list has nothing new. -/
theorem waiting_mono (hm : m ∈ t.waiting) (hres : ∀ r ∈ t.resolved, r ∈ s.resolved)
    (hreg : ∀ x ∈ t.registered, x ∈ s.registered)
    (hqueues : ∀ x ∈ t.queues.pendingModels, x ∈ s.queues.pendingModels)
    (hpre : t.prismPreloadModelIds = s.prismPreloadModelIds)
    (hwarm : ∀ x ∈ t.prismOneTimeWarmModelIds, x ∈ s.prismOneTimeWarmModelIds) : m ∈ s.waiting := by
  rw [mem_waiting] at hm ⊢
  rcases hm with ⟨r, hr, hrm⟩ | hm | hm | hm | hm
  · exact .inl ⟨r, hres r hr, hrm⟩
  · exact .inr (.inl (hreg m hm))
  · exact .inr (.inr (.inl (hqueues m hm)))
  · exact .inr (.inr (.inr (.inl (hpre ▸ hm))))
  · exact .inr (.inr (.inr (.inr (hwarm m hm))))

theorem waiting_registered (hm : m ∈ t.waiting) {m' : ModelId} (hres : t.resolved = s.resolved)
    (hreg : t.registered = s.registered ++ [m']) (hqueues : t.queues = s.queues)
    (hpre : t.prismPreloadModelIds = s.prismPreloadModelIds)
    (hwarm : t.prismOneTimeWarmModelIds = s.prismOneTimeWarmModelIds) : m ∈ s.waiting ∨ m = m' := by
  rw [mem_waiting, hres, hreg, hqueues, hpre, hwarm, List.mem_append, List.mem_singleton] at hm
  rw [mem_waiting]
  rcases hm with hm | (hm | hm) | hm
  · exact .inl (.inl hm)
  · exact .inl (.inr (.inl hm))
  · exact .inr hm
  · exact .inl (.inr (.inr hm))

theorem waiting_resolved (hm : m ∈ t.waiting) {r : QueuedRequest} (hres : t.resolved = s.resolved ++ [r])
    (hreg : t.registered = s.registered) (hqueues : t.queues = s.queues)
    (hpre : t.prismPreloadModelIds = s.prismPreloadModelIds)
    (hwarm : t.prismOneTimeWarmModelIds = s.prismOneTimeWarmModelIds) : m ∈ s.waiting ∨ r.modelId = m := by
  rw [mem_waiting, hres, hreg, hqueues, hpre, hwarm] at hm
  rw [mem_waiting]
  rcases hm with ⟨r', hr', hm⟩ | hm
  · rcases List.mem_append.mp hr' with hr' | hr'
    · exact .inl (.inl ⟨r', hr', hm⟩)
    · rw [List.mem_singleton.mp hr'] at hm
      exact .inr hm
  · exact .inl (.inr hm)

/-- A submission that is enqueued goes on waiting for its model. -/
theorem waiting_enqueued {k : ℕ} {r : QueuedRequest} (hr : s.resolved[k]? = some r)
    (hm : m ∈ { s with resolved := s.resolved.eraseIdx k, queues := (s.queues.put r).1 }.waiting) :
    m ∈ s.waiting := by
  rw [mem_waiting] at hm ⊢
  rcases hm with ⟨r', hr', hm⟩ | hm | hm | hm
  · exact .inl ⟨r', List.mem_of_mem_eraseIdx hr', hm⟩
  · exact .inr (.inl hm)
  · rcases ModelQueues.pending_put hm with hold | rfl
    · exact .inr (.inr (.inl hold))
    · exact .inl ⟨r, List.mem_of_getElem? hr, rfl⟩
  · exact .inr (.inr (.inr hm))

/-- So does a model whose registration asks for one warm worker. -/
theorem waiting_warmed {m' : ModelId} (hmem : m' ∈ s.registered)
    (hm : m ∈ { s with registered := s.registered.erase m'
                       prismOneTimeWarmModelIds := s.prismOneTimeWarmModelIds.insert m' }.waiting) :
    m ∈ s.waiting := by
  rw [mem_waiting] at hm ⊢
  simp only [List.mem_insert_iff] at hm
  rcases hm with hm | hm | hm | hm | rfl | hm
  · exact .inl hm
  · exact .inr (.inl (List.mem_of_mem_erase hm))
  · exact .inr (.inr (.inl hm))
  · exact .inr (.inr (.inr (.inl hm)))
  · exact .inr (.inl hmem)
  · exact .inr (.inr (.inr (.inr hm)))

theorem routeSection_waiting {models : List ModelId} {m' : ModelId} (hm : m ∈ (routeSection s m' models).waiting) :
    m ∈ s.waiting := by
  unfold routeSection at hm
  simp only at hm
  split at hm
  · rename_i w r q _ hpop
    have hsize := DeficitRoundRobinQueue.pop_size hpop
    refine waiting_mono hm (fun _ h => h) (fun _ h => h) (fun x hx => ?_) rfl (fun _ h => h)
    exact ModelQueues.pending_shrunk (by omega) hx
  · exact hm

theorem mem_countPreload {m' : ModelId} {n : ℕ} : ∀ {counts : List (ModelId × ℕ)},
    (m, n) ∈ countPreload m' counts → m = m' ∨ ∃ n', (m, n') ∈ counts
  | [], h => by
    rw [countPreload, List.mem_singleton] at h
    cases h
    exact .inl rfl
  | (m'', k) :: counts, h => by
    unfold countPreload at h
    split at h
    · rename_i heq
      rcases List.mem_cons.mp h with h | h
      · cases h
        exact .inl heq
      · exact .inr ⟨n, List.mem_cons_of_mem _ h⟩
    · rcases List.mem_cons.mp h with h | h
      · cases h
        exact .inr ⟨n, List.mem_cons_self⟩
      · obtain hm | ⟨n', hn'⟩ := mem_countPreload h
        · exact .inl hm
        · exact .inr ⟨n', List.mem_cons_of_mem _ hn'⟩

theorem mem_countPreloads {n : ℕ} : ∀ {ms : List ModelId} {counts : List (ModelId × ℕ)},
    (m, n) ∈ ms.foldl (fun counts m => countPreload m counts) counts → m ∈ ms ∨ ∃ n', (m, n') ∈ counts
  | [], _, h => .inr ⟨n, h⟩
  | m' :: ms, counts, h => by
    rw [List.foldl_cons] at h
    rcases mem_countPreloads h with hm | ⟨n', hn'⟩
    · exact .inl (List.mem_cons_of_mem _ hm)
    · rcases mem_countPreload hn' with rfl | hold
      · exact .inl List.mem_cons_self
      · exact .inr hold

theorem mem_selectedModels {db : Database} {row : CatalogModel} (h : row ∈ selectedModels sv db) :
    row ∈ db.modelCatalog := by
  unfold selectedModels at h
  split at h
  · exact mem_sortedBy.mp h
  · obtain ⟨name, -, hfind⟩ := List.mem_filterMap.mp h
    exact List.mem_of_find?_eq_some hfind

theorem configureSection_waiting (ha : ¬ a.disables m) (hm : m ∈ (configureSection sv s).waiting) :
    m ∈ s.waiting ∨ NewDemand s a t m := by
  unfold configureSection at hm
  split at hm
  · exact .inl hm
  · split at hm
    · exact .inl hm
    · rw [mem_waiting] at hm
      simp only at hm
      rcases hm with hm | hm | hm | ⟨n, hn⟩ | hm
      · exact .inl (mem_waiting.mpr (.inl hm))
      · exact .inl (mem_waiting.mpr (.inr (.inl hm)))
      · exact .inl (mem_waiting.mpr (.inr (.inr (.inl hm))))
      · rcases mem_countPreloads hn with hsel | hold
        · obtain ⟨row, hrow, rfl⟩ := List.mem_map.mp hsel
          rw [List.mem_filter, decide_eq_true_eq] at hrow
          exact .inr (.inl ⟨ha, row, mem_selectedModels hrow.1, rfl, hrow.2.1⟩)
        · exact .inl (mem_waiting.mpr (.inr (.inr (.inr (.inl hold)))))
      · exact .inl (mem_waiting.mpr (.inr (.inr (.inr (.inr hm)))))

/-- `for_model` for models in any order makes none of them wait. -/
theorem pending_forModels : ∀ {order : List ModelId} {qs : ModelQueues},
    m ∈ (order.foldl (fun queues m => queues.update m (queues.forModel m)) qs).pendingModels → m ∈ qs.pendingModels
  | [], _, h => h
  | _ :: _, _, h => ModelQueues.pending_shrunk le_rfl (pending_forModels h)

/-- Only the tick goes on. -/
theorem Parts.ticked {tick : Tick} (h : TickStep sv s a { s with tick := tick }) :
    Parts sv s a { s with tick := tick } := ⟨.same rfl, .same rfl, h, fun _ hm => .inl hm⟩

theorem actSection_parts {action : PlannerAction} {rest : List PlannerAction} {active : Bool} {now : Datetime}
    (htick : s.tick = .acting (action :: rest)) (h : actSection sv s rest active now action = some t) :
    Parts sv s a t := by
  unfold actSection at h
  split at h
  · obtain ⟨sup, hsup, rfl⟩ := Option.map_eq_some_iff.mp h
    exact ⟨.same rfl, .moved _ (by simp) (by simp) hsup, .acted _ rest htick rfl, fun _ hm => .inl hm⟩
  · obtain ⟨sup, hsup, rfl⟩ := Option.map_eq_some_iff.mp h
    exact ⟨.same rfl, .moved _ (by simp) (by simp) hsup, .acted _ rest htick rfl, fun _ hm => .inl hm⟩
  · split at h
    · cases h
      exact .ticked (.acted _ rest htick rfl)
    · split at h
      · cases h
        exact .ticked (.acted _ rest htick rfl)
      · obtain ⟨sup, hsup, rfl⟩ := Option.map_eq_some_iff.mp h
        exact ⟨.same rfl, .moved _ (by simp) (by simp) hsup, .acted _ rest htick rfl, fun _ hm => .inl hm⟩
  · split at h
    · cases h
      exact .ticked (.acted _ rest htick rfl)
    · cases h
      exact .ticked (.entered _ _ _ rest htick rfl)

theorem register_parts {path : String} {profiles : List PlacementProfile}
    (h : step sv s (.register m path profiles) = some t) : Parts sv s (.register m path profiles) t := by
  obtain ⟨hm, heq⟩ := Option.ite_none_right_eq_some.mp h
  cases heq
  refine ⟨.registered m path profiles rfl hm rfl, .same rfl, .same rfl, fun m' hm' => ?_⟩
  rcases waiting_registered (s := s) hm' rfl rfl rfl rfl rfl with hold | rfl
  · exact .inl hold
  · exact .inr (.inr (available_registered hm rfl))

theorem resolve_parts {nickname : String} {request : QueuedRequest}
    (h : step sv s (.resolve nickname request) = some t) : Parts sv s (.resolve nickname request) t := by
  simp only [step] at h
  split at h
  · rename_i row hrow
    obtain ⟨hstate, heq⟩ := Option.ite_none_right_eq_some.mp h
    cases heq
    refine ⟨.same rfl, .same rfl, .same rfl, fun m hm => ?_⟩
    rcases waiting_resolved (s := s) hm rfl rfl rfl rfl rfl with hold | heq
    · exact .inl hold
    · exact .inr (.inl ⟨by simp [Act.disables], row, List.mem_of_find?_eq_some hrow, heq, hstate⟩)
  · cases h

theorem enqueue_parts {k : ℕ} (h : step sv s (.enqueue k) = some t) : Parts sv s (.enqueue k) t := by
  simp only [step] at h
  split at h
  · rename_i r hr
    obtain ⟨-, heq⟩ := Option.ite_none_left_eq_some.mp h
    cases heq
    exact ⟨.same rfl, .same rfl, .same rfl, fun _ hm => .inl (waiting_enqueued hr hm)⟩
  · cases h

theorem cancel_parts {id : RequestId} (h : step sv s (.cancel m id) = some t) : Parts sv s (.cancel m id) t := by
  obtain ⟨-, heq⟩ := Option.ite_none_left_eq_some.mp h
  obtain ⟨⟨r, queues⟩, hremove, rfl⟩ := Option.map_eq_some_iff.mp heq
  refine ⟨.same rfl, .same rfl, .same rfl, fun m' hm => .inl ?_⟩
  exact waiting_mono hm (fun _ h => h) (fun _ h => h)
    (fun x hx => ModelQueues.pending_remove hremove hx) rfl fun _ h => h

theorem warmOnce_parts (h : step sv s (.warmOnce m) = some t) : Parts sv s (.warmOnce m) t := by
  obtain ⟨hmem, heq⟩ := Option.ite_none_right_eq_some.mp h
  split at heq
  · cases heq
    refine ⟨.same rfl, .same rfl, .same rfl, fun m hm => .inl ?_⟩
    exact waiting_mono hm (fun _ h => h) (fun _ hx => List.mem_of_mem_erase hx) (fun _ h => h) rfl fun _ h => h
  · obtain ⟨-, heq⟩ := Option.ite_none_left_eq_some.mp heq
    cases heq
    exact ⟨.same rfl, .same rfl, .same rfl, fun _ hm => .inl (waiting_warmed hmem hm)⟩

theorem supervisor_parts {b : Supervisor.Act} (h : step sv s (.supervisor b) = some t) :
    Parts sv s (.supervisor b) t := by
  simp only [step] at h
  split at h
  · cases h
  · cases h
  · cases h
  · rename_i hlaunch _ hadm
    obtain ⟨sup, hsup, rfl⟩ := Option.map_eq_some_iff.mp h
    exact ⟨.same rfl, .moved b (fun _ _ _ _ => hlaunch _ _ _ _) (fun _ _ _ _ => hadm _ _ _ _) hsup, .same rfl,
      fun _ hm => .inl hm⟩

theorem route_parts (h : step sv s .route = some t) : Parts sv s .route t := by
  simp only [step] at h
  split at h
  · cases h
    obtain ⟨hdb, hsup, models', admitting, htick, hadmitting⟩ := routeSection_frame s _ _
    exact ⟨.same hdb, .same hsup, .routed models' admitting htick hadmitting,
      fun _ hm => .inl (routeSection_waiting hm)⟩
  · cases h

theorem admitNext_parts {now : Datetime} (h : step sv s (.admitNext now) = some t) :
    Parts sv s (.admitNext now) t := by
  simp only [step] at h
  split at h
  · rename_i models w r htick
    obtain ⟨-, h⟩ := Option.ite_none_right_eq_some.mp h
    split at h
    · rename_i sup hsup
      cases h
      exact ⟨.same rfl, .admitted models w r now htick hsup, .routed models none rfl (by simp),
        fun _ hm => .inl hm⟩
    · cases h
      exact .ticked (.routed models none rfl (by simp))
  · cases h

theorem pressures_parts {now : Datetime} {order : List ModelId} (h : step sv s (.pressures now order) = some t) :
    Parts sv s (.pressures now order) t := by
  simp only [step] at h
  split at h
  · obtain ⟨horder, heq⟩ := Option.ite_none_right_eq_some.mp h
    cases heq
    refine ⟨.same rfl, .same rfl, .pressed now order rfl horder rfl, fun m hm => .inl ?_⟩
    exact waiting_mono hm (fun _ h => h) (fun _ h => h) (fun _ hx => pending_forModels hx) rfl
      fun _ hx => List.mem_of_mem_filter hx
  · cases h

theorem readProfiles_parts (h : step sv s .readProfiles = some t) : Parts sv s .readProfiles t := by
  simp only [step] at h
  split at h
  · rename_i now pressures profileMap htick
    obtain ⟨q, -, rfl⟩ := Option.map_eq_some_iff.mp h
    exact .ticked (.read now pressures profileMap q.modelId htick rfl)
  · cases h

theorem plan_parts (h : step sv s .plan = some t) : Parts sv s .plan t := by
  simp only [step] at h
  split at h
  · rename_i now pressures profileMap htick
    obtain ⟨-, heq⟩ := Option.ite_none_right_eq_some.mp h
    cases heq
    exact .ticked (.decided now pressures profileMap htick rfl)
  · cases h

theorem readModel_parts (h : step sv s .readModel = some t) : Parts sv s .readModel t := by
  simp only [step] at h
  split at h
  · rename_i profile gpus rest htick
    split at h
    · cases h
      exact .ticked (.looked profile gpus rest htick (.inl rfl))
    · cases h
      exact .ticked (.looked profile gpus rest htick (.inr rfl))
  · cases h

theorem launch_parts {id : WorkerId} {now : Datetime} (h : step sv s (.launch id now) = some t) :
    Parts sv s (.launch id now) t := by
  simp only [step] at h
  split at h
  · rename_i profile gpus rest htick
    obtain ⟨-, h⟩ := Option.ite_none_right_eq_some.mp h
    split at h
    · obtain ⟨sup, hsup, rfl⟩ := Option.map_eq_some_iff.mp h
      exact ⟨.same rfl, .launched profile gpus rest id now htick hsup, .launched profile gpus rest htick rfl,
        fun _ hm => .inl hm⟩
    · cases h
      exact .ticked (.ended rfl)
  · cases h

theorem launchEnd_parts {raised : Bool} (h : step sv s (.launchEnd raised) = some t) :
    Parts sv s (.launchEnd raised) t := by
  simp only [step] at h
  split at h
  · rename_i rest htick
    obtain ⟨-, heq⟩ := Option.ite_none_right_eq_some.mp h
    cases heq
    cases raised with
    | true => exact .ticked (.ended rfl)
    | false => exact .ticked (.returned rest htick rfl)
  · cases h

theorem tickEnd_parts (h : step sv s .tickEnd = some t) : Parts sv s .tickEnd t := by
  simp only [step] at h
  split at h <;> cases h
  all_goals exact .ticked (.ended rfl)

theorem step_parts (h : step sv s a = some t) : Parts sv s a t := by
  cases a with
  | insertModel row =>
    simp only [step] at h
    split at h
    · rename_i db hdb
      cases h
      exact ⟨.inserted row hdb, .same rfl, .same rfl, fun _ hm => .inl hm⟩
    · cases h
  | updateJob m state path =>
    obtain ⟨-, heq⟩ := Option.ite_none_right_eq_some.mp h
    cases heq
    exact ⟨.disabled m state path (.inr ⟨state, path, rfl⟩) rfl, .same rfl, .same rfl, fun _ hm => .inl hm⟩
  | register m path profiles => exact register_parts h
  | disable m =>
    cases h
    exact ⟨.disabled m .disabled none (.inl rfl) rfl, .same rfl, .same rfl, fun _ hm => .inl hm⟩
  | editProfiles profiles =>
    cases h
    exact ⟨.same rfl, .same rfl, .same rfl, fun _ hm => .inl hm⟩
  | resolve nickname request => exact resolve_parts h
  | abandon k =>
    cases h
    refine ⟨.same rfl, .same rfl, .same rfl, fun m hm => .inl ?_⟩
    exact waiting_mono hm (fun _ hr => List.mem_of_mem_eraseIdx hr) (fun _ h => h) (fun _ h => h) rfl fun _ h => h
  | enqueue k => exact enqueue_parts h
  | cancel m id => exact cancel_parts h
  | configurePrism =>
    cases h
    obtain ⟨hdb, hsup, htick⟩ := @configureSection_frame sv s
    exact ⟨.same hdb, .same hsup, .same htick, fun _ hm => configureSection_waiting (by simp [Act.disables]) hm⟩
  | warmOnce m => exact warmOnce_parts h
  | validation gpus =>
    obtain ⟨-, heq⟩ := Option.ite_none_left_eq_some.mp h
    cases heq
    exact ⟨.same rfl, .same rfl, .same rfl, fun _ hm => .inl hm⟩
  | supervisor b => exact supervisor_parts h
  | tick =>
    simp only [step] at h
    split at h
    · cases h
      exact .ticked (.routed _ none rfl (by simp))
    · cases h
  | route => exact route_parts h
  | admitNext now => exact admitNext_parts h
  | pressures now order => exact pressures_parts h
  | readProfiles => exact readProfiles_parts h
  | plan => exact plan_parts h
  | carryOut active now =>
    simp only [step] at h
    split at h
    · rename_i action rest htick
      exact actSection_parts htick h
    · cases h
  | readModel => exact readModel_parts h
  | launch id now => exact launch_parts h
  | launchEnd raised => exact launchEnd_parts h
  | tickEnd => exact tickEnd_parts h

/-! ### What steps keep -/

/-- An AVAILABLE model stays so unless the action takes it out. -/
theorem available_step (hs : DbStep s a t) (h : s.available m = true) : a.disables m ∨ t.available m = true := by
  cases hs with
  | same hdb =>
    right
    rw [← h]
    apply available_of_modelById
    rw [hdb]
  | inserted row hins =>
    right
    obtain ⟨x, hx, hstate⟩ := available_iff.mp h
    exact available_iff.mpr ⟨x, modelById_insertModel hins hx, hstate⟩
  | registered m' path profiles ha hm' hdb =>
    right
    rcases available_updateModel hdb h with rfl | ht
    · exact available_registered hm' hdb
    · exact ht
  | disabled m' state path ha hdb =>
    rcases available_updateModel hdb h with rfl | ht
    · exact .inl ha
    · exact .inr ht

theorem registered_step (h : Supervisor.Registered s.supervisor) (hs : SupervisorStep sv s t) :
    Supervisor.Registered t.supervisor := by
  cases hs with
  | same hsup =>
    rw [hsup]
    exact h
  | moved _ _ _ hsup | admitted _ _ _ _ _ hsup | launched _ _ _ _ _ _ hsup => exact Supervisor.registered_step h hsup

theorem catalog_step (hn : (s.db.modelCatalog.map (·.id)).Nodup) (hs : DbStep s a t) :
    (t.db.modelCatalog.map (·.id)).Nodup := by
  have hupdate : ∀ (m : ModelId) (state : CatalogState) (path : Option String),
      ((s.db.updateModel m state path).modelCatalog.map (·.id)).Nodup := by
    intro m state path
    obtain ⟨f, hid, -, hcatalog⟩ := updateModel_catalog s.db m state path
    rw [hcatalog, Table.map_key_modify hid]
    exact hn
  cases hs with
  | same hdb =>
    rw [hdb]
    exact hn
  | inserted row hins =>
    unfold Database.insertModel at hins
    split at hins
    · cases hins
    · rename_i hfree
      rw [← Except.ok.inj hins, List.map_append]
      apply List.nodup_append.mpr
      refine ⟨hn, by simp, ?_⟩
      intro id hid id' hid' heq
      obtain ⟨row', hrow', rfl⟩ := List.mem_map.mp hid
      rw [List.map_singleton, List.mem_singleton] at hid'
      exact hfree (List.any_eq_true.mpr ⟨row', hrow', by simp [heq.trans hid']⟩)
  | registered m path profiles _ _ hdb =>
    rw [hdb]
    exact hupdate m .available (some path)
  | disabled m state path _ hdb =>
    rw [hdb]
    exact hupdate m state path

end Scheduler
end LlmRio
