/-
# Residency after a weight-cache plan

A plan looks at the workers outside COLD and STOPPING (`liveWorkers`), while
an engine in STOPPING still has its weights on the GPUs, which
`_cached_prism_fits` and the supervisor count. So the GPUs of what a plan
starts or wakes are within their slots and VRAM whenever what has room among
the live workers also has it among all of them, and where that fails there
are pressures and profiles for which they are not (`plan_safe_iff`).

Key definitions: `afterPlan`, `PlanSafe`, `CountsStopping`.
Key theorems: `plan_safe_iff`, `counts_of_no_stopping`.
-/
import LlmRio.Planner.WeightCache
import Mathlib.Data.Fintype.EquivFin

namespace LlmRio
namespace Planner

open Selection

/-! ### The workers after a plan -/

/-- The supervisor starts to carry out an action. -/
def PlannerAction.apply (newId : WorkerId) (port : ℕ) (now : Datetime) (workers : List WorkerPlacement) :
    PlannerAction → List WorkerPlacement
  | .start profile gpuUuids _ => workers ++ [Supervisor.newWorker profile gpuUuids newId port now]
  | .drain id _ => Table.modify WorkerPlacement.id id (·.draining now) workers
  | .sleep id _ => Table.modify WorkerPlacement.id id (·.draining now) workers
  | .wake id _ => Table.modify WorkerPlacement.id id (·.waking) workers

def afterPlan (newId : WorkerId) (port : ℕ) (now : Datetime) (workers : List WorkerPlacement)
    (actions : List PlannerAction) : List WorkerPlacement :=
  actions.foldl (PlannerAction.apply newId port now) workers

/-- The GPUs on which the action puts an engine. -/
def PlannerAction.gpus (workers : List WorkerPlacement) : PlannerAction → List GpuUuid
  | .start _ gpuUuids _ => gpuUuids
  | .wake id _ => ((Table.lookup WorkerPlacement.id id workers).map (·.gpuUuids)).getD []
  | _ => []

/-- The GPUs of what the plan starts or wakes are safe once all its actions
are carried out. -/
def PlanSafe (cfg : PlannerConfig) (newId : WorkerId) (port : ℕ) (now : Datetime) (all : List GpuUuid)
    (workers : List WorkerPlacement) (pressures : List QueuePressure)
    (profiles : ModelId → List PlacementProfile) : Prop :=
  ∀ a ∈ plan cfg now all workers pressures profiles, ∀ gpu ∈ a.gpus workers,
    Safe cfg (afterPlan newId port now workers (plan cfg now all workers pressures profiles)) gpu

def wakeAll (ids : List WorkerId) (workers : List WorkerPlacement) : List WorkerPlacement :=
  ids.foldl (fun workers id => Table.modify WorkerPlacement.id id (·.waking) workers) workers

/-- The GPU sets of the profile have distinct GPUs. -/
def DistinctGpus (p : PlacementProfile) : Prop := ∀ gpuSet ∈ p.eligibleGpuSets, gpuSet.Nodup

/-- What has room among the live workers has room among all of them: a
kvcached profile on a GPU set, a worker that is woken after others of its
model, and a replica that is woken beside a READY one. -/
structure CountsStopping (cfg : PlannerConfig) (all : List GpuUuid) (workers : List WorkerPlacement) : Prop where
  starts : ∀ (p : PlacementProfile) (gpuSet : List GpuUuid), p.isKvcached = true → gpuSet.Nodup →
    within gpuSet all = true → cachedPrismFits cfg p gpuSet (liveWorkers workers) none [] = true →
    Roomy cfg p gpuSet workers none
  wakes : ∀ (m : ModelId) (candidates : List PlacementProfile),
    (∀ p ∈ candidates, p.isKvcached = true ∧ DistinctGpus p) →
    transitioning (liveWorkers workers) m = false → readyWorkers (liveWorkers workers) m = [] →
    ∀ (ws : List WorkerPlacement) (w : WorkerPlacement),
      cachedWakes cfg all (sleepingWorkers (liveWorkers workers) m candidates).length
        (sleepingWorkers (liveWorkers workers) m candidates) (liveWorkers workers) (ws.length + 1) = ws ++ [w] →
      Roomy cfg w.profile w.gpuUuids (wakeAll (ws.map (·.id)) workers) (some w.id)
  replicas : ∀ (m : ModelId) (candidates : List PlacementProfile),
    (∀ p ∈ candidates, p.isKvcached = true ∧ DistinctGpus p) →
    transitioning (liveWorkers workers) m = false → readyWorkers (liveWorkers workers) m ≠ [] →
    candidates.filter (·.gpuCount = 1) ≠ [] →
    ∀ w, firstCachedWake cfg ((sleepingWorkers (liveWorkers workers) m candidates).filter
        (·.profile.gpuCount = 1)) all (liveWorkers workers) = some w →
      Roomy cfg w.profile w.gpuUuids workers (some w.id)

variable {cfg : PlannerConfig} {all : List GpuUuid} {workers live : List WorkerPlacement}

/-! ### Runs of wakes -/

/-- The wakes up to one of them are those of a smaller limit. -/
theorem cachedWakes_upTo : ∀ (pre : List WorkerPlacement) {fuel : ℕ} {remaining projected : List WorkerPlacement}
    {limit : ℤ} {w : WorkerPlacement} {post : List WorkerPlacement},
    cachedWakes cfg all fuel remaining projected limit = pre ++ w :: post →
      cachedWakes cfg all fuel remaining projected (pre.length + 1) = pre ++ [w]
  | [], _, _, _, _, _, _, h => by
    obtain ⟨fuel, rfl, -, hwake, -⟩ := cachedWakes_cons h
    have hzero : ∀ remaining projected, cachedWakes cfg all fuel remaining projected 0 = [] := by
      intro remaining projected
      cases fuel <;> simp [cachedWakes]
    simp [cachedWakes, hwake, hzero]
  | v :: pre, _, _, _, _, _, _, h => by
    obtain ⟨fuel, rfl, -, hwake, hrest⟩ := cachedWakes_cons h
    have ih := cachedWakes_upTo pre hrest
    have hpos : ¬ ((pre.length : ℤ) + 1 + 1 ≤ 0) := by omega
    have hsub : ((pre.length : ℤ) + 1 + 1 - 1) = pre.length + 1 := by omega
    simp only [cachedWakes, List.length_cons, Nat.cast_add, Nat.cast_one, if_neg hpos, hwake, hsub, ih,
      List.cons_append]

/-- Each worker is woken once, and it was to be woken. -/
theorem cachedWakes_nodup : ∀ {fuel : ℕ} {remaining projected : List WorkerPlacement} {limit : ℤ},
    (∀ w ∈ cachedWakes cfg all fuel remaining projected limit, w ∈ remaining) ∧
      ((cachedWakes cfg all fuel remaining projected limit).map (·.id)).Nodup
  | 0, _, _, _ => by simp [cachedWakes]
  | fuel + 1, remaining, projected, limit => by
    unfold cachedWakes
    split
    · simp
    · split
      · simp
      · rename_i w hwake
        obtain ⟨hmem, hnodup⟩ := @cachedWakes_nodup fuel (remaining.filter (·.id ≠ w.id))
          (Table.modify WorkerPlacement.id w.id (·.waking) projected) (limit - 1)
        refine ⟨fun v hv => ?_, ?_⟩
        · rcases List.mem_cons.mp hv with rfl | hv
          · exact (first_cached_wake hwake).1
          · exact List.mem_of_mem_filter (hmem v hv)
        · rw [List.map_cons, List.nodup_cons]
          refine ⟨fun hid => ?_, hnodup⟩
          obtain ⟨v, hv, heq⟩ := List.mem_map.mp hid
          have hne := List.of_mem_filter (hmem v hv)
          simp [heq] at hne

/-! ### Several workers woken -/

theorem wakeAll_cons (id : WorkerId) (ids : List WorkerId) (workers : List WorkerPlacement) :
    wakeAll (id :: ids) workers = wakeAll ids (Table.modify WorkerPlacement.id id (·.waking) workers) := rfl

theorem wakeAll_append (ids ids' : List WorkerId) (workers : List WorkerPlacement) :
    wakeAll (ids ++ ids') workers = wakeAll ids' (wakeAll ids workers) := by
  simp [wakeAll, List.foldl_append]

theorem ids_wakeAll (ids : List WorkerId) : ∀ workers : List WorkerPlacement,
    (wakeAll ids workers).map (·.id) = workers.map (·.id) := by
  induction ids with
  | nil => exact fun _ => rfl
  | cons id ids ih =>
    intro workers
    have hone : (Table.modify WorkerPlacement.id id (·.waking) workers).map WorkerPlacement.id =
        workers.map WorkerPlacement.id := by
      apply Table.map_key_modify
      exact fun _ hid => hid
    rw [wakeAll_cons, ih]
    exact hone

/-- A worker that is not woken stays as it is. -/
theorem mem_wakeAll {w : WorkerPlacement} : ∀ {ids : List WorkerId} {workers : List WorkerPlacement},
    w ∈ workers → w.id ∉ ids → w ∈ wakeAll ids workers
  | [], _, hw, _ => hw
  | id :: ids, workers, hw, hid => by
    rw [List.mem_cons, not_or] at hid
    rw [wakeAll_cons]
    exact mem_wakeAll (Table.mem_modify.mpr (.inl ⟨hw, hid.1⟩)) hid.2

theorem gpus_wakeAll {v : WorkerPlacement} : ∀ {ids : List WorkerId} {workers : List WorkerPlacement},
    v ∈ wakeAll ids workers → ∃ w ∈ workers, w.id = v.id ∧ w.gpuUuids = v.gpuUuids
  | [], _, hv => ⟨v, hv, rfl, rfl⟩
  | id :: ids, workers, hv => by
    rw [wakeAll_cons] at hv
    obtain ⟨w, hw, hid, hgpus⟩ := gpus_wakeAll hv
    rcases Table.mem_modify.mp hw with ⟨hw', -⟩ | ⟨w', hw', -, rfl⟩
    · exact ⟨w, hw', hid, hgpus⟩
    · exact ⟨w', hw', hid, hgpus⟩

/-- Wakes of workers elsewhere leave a GPU safe. -/
theorem safe_wakeAll_other {gpu : GpuUuid} : ∀ {ids : List WorkerId} {workers : List WorkerPlacement},
    (∀ w ∈ workers, w.id ∈ ids → gpu ∉ w.gpuUuids) → Safe cfg workers gpu → Safe cfg (wakeAll ids workers) gpu
  | [], _, _, h => h
  | id :: ids, workers, hids, h => by
    rw [wakeAll_cons]
    refine safe_wakeAll_other (fun v hv hid => ?_)
      (safe_wake_other (fun v hv hid => hids v hv (hid ▸ List.mem_cons_self)) h)
    rcases Table.mem_modify.mp hv with ⟨hv', -⟩ | ⟨v', hv', -, rfl⟩
    · exact hids v hv' (List.mem_cons_of_mem _ hid)
    · exact hids v' hv' (List.mem_cons_of_mem _ hid)

/-- The last worker of a run of wakes that is on the GPU decides. -/
theorem safe_wakeAll {gpu : GpuUuid} (hn : (workers.map (·.id)).Nodup) {ws : List WorkerPlacement}
    (hmem : ∀ w ∈ ws, w ∈ workers) (hnodup : (ws.map (·.id)).Nodup)
    (hroomy : ∀ pre w post, ws = pre ++ w :: post →
      Roomy cfg w.profile w.gpuUuids (wakeAll (pre.map (·.id)) workers) (some w.id))
    {w : WorkerPlacement} (hw : w ∈ ws) (hgpu : gpu ∈ w.gpuUuids) :
    Safe cfg (wakeAll (ws.map (·.id)) workers) gpu := by
  -- the workers after `last` in the run are not on the GPU
  obtain ⟨pre, last, post, rfl, hlast, hpost⟩ := exists_last (p := fun w => gpu ∈ w.gpuUuids) ⟨w, hw, hgpu⟩
  have hlastMem : last ∈ workers := hmem last (by simp)
  have hn' : ((wakeAll (pre.map (·.id)) workers).map (·.id)).Nodup := by
    rw [ids_wakeAll]
    exact hn
  have hfresh : last.id ∉ pre.map (·.id) := by
    rw [List.map_append, List.map_cons, List.nodup_append] at hnodup
    intro hid
    exact hnodup.2.2 _ hid _ List.mem_cons_self rfl
  have hsafe := (safe_wake_iff hn' (mem_wakeAll hlastMem hfresh) hlast).mpr (hroomy pre last post rfl gpu hlast)
  have hrun : wakeAll ((pre ++ last :: post).map (·.id)) workers = wakeAll (post.map (·.id))
      (Table.modify WorkerPlacement.id last.id (·.waking) (wakeAll (pre.map (·.id)) workers)) := by
    rw [List.map_append, wakeAll_append, List.map_cons, wakeAll_cons]
  rw [hrun]
  refine safe_wakeAll_other (fun v hv hid => ?_) hsafe
  obtain ⟨u, hu, huid⟩ := List.mem_map.mp hid
  have huMem : u ∈ workers := hmem u (by simp [hu])
  have hv' : v ∈ wakeAll ((pre.map (·.id)) ++ [last.id]) workers := by
    rw [wakeAll_append]
    exact hv
  obtain ⟨v', hv', hvid, hgpus⟩ := gpus_wakeAll hv'
  rw [← hgpus, Table.eq_of_key hn hv' huMem (hvid.trans huid.symm)]
  exact hpost u hu

/-! ### What is counted is safe -/

theorem afterPlan_wakes (newId : WorkerId) (port : ℕ) (now : Datetime) : ∀ {actions : List PlannerAction}
    {ids : List WorkerId} (workers : List WorkerPlacement), actions.map (·.wakes) = ids.map some →
      afterPlan newId port now workers actions = wakeAll ids workers ∧
        ∀ a ∈ actions, ∃ id ∈ ids, ∃ reason, a = .wake id reason
  | [], [], _, _ => ⟨rfl, fun _ ha => by cases ha⟩
  | a :: actions, id :: ids, workers, h => by
    rw [List.map_cons, List.map_cons, List.cons.injEq] at h
    obtain ⟨hhead, htail⟩ := h
    obtain ⟨reason, rfl⟩ : ∃ reason, a = .wake id reason := by
      cases a <;> simp [PlannerAction.wakes] at hhead
      exact ⟨_, by rw [hhead]⟩
    obtain ⟨hafter, hall⟩ := afterPlan_wakes newId port now
      (Table.modify WorkerPlacement.id id (·.waking) workers) htail
    refine ⟨hafter, fun a ha => ?_⟩
    rcases List.mem_cons.mp ha with rfl | ha
    · exact ⟨id, List.mem_cons_self, reason, rfl⟩
    · obtain ⟨id', hid', hwake⟩ := hall a ha
      exact ⟨id', List.mem_cons_of_mem _ hid', hwake⟩

theorem gpus_of_makesRoom {a : PlannerAction} (h : a.makesRoom) : a.gpus workers = [] := by
  cases a with
  | start => exact absurd h id
  | wake => exact absurd h id
  | drain => rfl
  | sleep => rfl

theorem gpus_wake (hn : (workers.map (·.id)).Nodup) {w : WorkerPlacement} (hw : w ∈ workers) (reason : String) :
    (PlannerAction.wake w.id reason).gpus workers = w.gpuUuids := by
  have hlook : Table.lookup WorkerPlacement.id w.id workers = some w := Table.lookup_of_mem hn hw
  simp [PlannerAction.gpus, hlook]

theorem mem_sleepingWorkers {m : ModelId} {candidates : List PlacementProfile} {w : WorkerPlacement}
    (h : w ∈ sleepingWorkers (liveWorkers workers) m candidates) : w ∈ workers := by
  simp only [sleepingWorkers, modelWorkers, liveWorkers, List.mem_filter] at h
  exact h.1.1.1

theorem mem_cacheable {profiles : ModelId → List PlacementProfile} {m : ModelId} {p : PlacementProfile} :
    p ∈ cacheable profiles m ↔ p ∈ profiles m ∧ p.isKvcached = true := by
  simp [cacheable]

theorem placement_safe (hn : (workers.map (·.id)).Nodup) (h : CountsStopping cfg all workers)
    {candidates : List PlacementProfile} (hcand : ∀ p ∈ candidates, p.isKvcached = true ∧ DistinctGpus p)
    {m : ModelId} {actions : List PlannerAction}
    (hplace : Placement cfg all (liveWorkers workers) candidates m actions) (newId : WorkerId) (port : ℕ)
    (now : Datetime) {a : PlannerAction} (ha : a ∈ actions) {gpu : GpuUuid} (hgpu : gpu ∈ a.gpus workers) :
    Safe cfg (afterPlan newId port now workers actions) gpu := by
  cases hplace with
  | room _ hroom =>
    rw [gpus_of_makesRoom (hroom a ha)] at hgpu
    cases hgpu
  | started profiles hsub p gpuSet reason hfit =>
    rw [List.mem_singleton] at ha
    subst ha
    obtain ⟨hp, hset, hin, hfits⟩ := smallest_fitting hfit
    obtain ⟨hkv, hdist⟩ := hcand p (hsub p hp)
    exact (safe_start_iff hgpu newId port now).mpr (h.starts p gpuSet hkv (hdist gpuSet hset) hin hfits gpu hgpu)
  | woken hquiet hready limit _ hwakes =>
    obtain ⟨hmem, hnodup⟩ := @cachedWakes_nodup cfg all (sleepingWorkers (liveWorkers workers) m candidates).length
      (sleepingWorkers (liveWorkers workers) m candidates) (liveWorkers workers) limit
    generalize hws : cachedWakes cfg all _ _ _ limit = ws at hmem hnodup hwakes
    have hids : actions.map (·.wakes) = (ws.map (·.id)).map some := by
      rw [hwakes, List.map_map]
      rfl
    obtain ⟨hafter, hall⟩ := afterPlan_wakes newId port now workers hids
    obtain ⟨id, hid, reason, rfl⟩ := hall a ha
    obtain ⟨w, hw, rfl⟩ := List.mem_map.mp hid
    have hmem' : ∀ v ∈ ws, v ∈ workers := fun v hv => mem_sleepingWorkers (hmem v hv)
    rw [gpus_wake hn (hmem' w hw)] at hgpu
    rw [hafter]
    refine safe_wakeAll hn hmem' hnodup (fun pre v post heq => ?_) hw hgpu
    exact h.wakes m candidates hcand hquiet hready pre v (cachedWakes_upTo pre (hws.trans heq))
  | replica hquiet hready hone w reason hwake =>
    rw [List.mem_singleton] at ha
    subst ha
    have hw : w ∈ workers := mem_sleepingWorkers (List.mem_of_mem_filter (first_cached_wake hwake).1)
    rw [gpus_wake hn hw] at hgpu
    exact (safe_wake_iff hn hw hgpu).mpr (h.replicas m candidates hcand hquiet hready hone w hwake gpu hgpu)

theorem plan_safe (hn : (workers.map (·.id)).Nodup) (h : CountsStopping cfg all workers) (newId : WorkerId)
    (port : ℕ) (now : Datetime) (pressures : List QueuePressure) {profiles : ModelId → List PlacementProfile}
    (hdist : ∀ m, ∀ p ∈ profiles m, DistinctGpus p) :
    PlanSafe cfg newId port now all workers pressures profiles := by
  intro a ha gpu hgpu
  rcases plan_placement cfg now all workers pressures profiles with hroom | ⟨q, -, hplace⟩
  · rw [gpus_of_makesRoom (hroom a ha)] at hgpu
    cases hgpu
  · refine placement_safe hn h (fun p hp => ?_) hplace newId port now ha hgpu
    obtain ⟨hp, hkv⟩ := mem_cacheable.mp hp
    exact ⟨hkv, hdist _ p hp⟩

/-! ### What is not counted is not safe -/

/-- A time at which no worker has been idle for `seconds`. -/
theorem exists_early (seconds : ℚ) (workers : List WorkerPlacement) :
    ∃ now : Datetime, ∀ w ∈ workers, now - w.lastDemandAt < seconds := by
  refine ⟨smallest 0 (workers.map fun w => w.lastDemandAt + seconds) - 1, fun w hw => ?_⟩
  have hle := smallest_le_of_mem (workers.map fun w => w.lastDemandAt + seconds) 0 _ (List.mem_map_of_mem hw)
  linarith

/-- A pressure that asks for a given number of workers. -/
theorem exists_pressure (m : ModelId) (capacity : ℚ) (k : ℕ) :
    ∃ q : QueuePressure, q.modelId = m ∧ q.preload = false ∧ desired q capacity = k + 1 := by
  refine ⟨⟨m, k + 1, (k + 1) * ⌈max capacity 1⌉, 0, false, 1⟩, rfl, rfl, ?_⟩
  have hpos : (0 : ℚ) < max capacity 1 := lt_of_lt_of_le one_pos (le_max_right _ _)
  have hle : ((k : ℤ) + 1 : ℚ) ≤ (((k + 1 : ℤ) * ⌈max capacity 1⌉ : ℤ) : ℚ) / max capacity 1 := by
    rw [le_div_iff₀ hpos]
    push_cast
    exact mul_le_mul_of_nonneg_left (Int.le_ceil _) (by positivity)
  have hceil : (k : ℤ) + 1 ≤ ⌈(((k + 1 : ℤ) * ⌈max capacity 1⌉ : ℤ) : ℚ) / max capacity 1⌉ := by
    exact_mod_cast hle.trans (Int.le_ceil _)
  show min (max ((k : ℤ) + 1) 1) (max 1 ⌈(((k + 1 : ℤ) * ⌈max capacity 1⌉ : ℤ) : ℚ) / max capacity 1⌉) = k + 1
  omega

/-- The plan for one pressure at a time at which nobody is idle. -/
theorem plan_single {now : Datetime} {q : QueuePressure} {profiles : ModelId → List PlacementProfile}
    {actions : List PlannerAction} (hreal : q.preload = false)
    (hearly : ∀ w ∈ workers, now - w.lastDemandAt < cfg.prismIdleSleepSeconds)
    (h : planFor cfg now all (liveWorkers workers) [q.modelId] profiles q = some actions) :
    plan cfg now all workers [q] profiles = actions := by
  have hidle : (liveWorkers workers).filter (fun w => w.state = .ready ∧ w.modelId ∉ [q.modelId] ∧
      w.admittedRequestIds = [] ∧ cfg.prismIdleSleepSeconds ≤ now - w.lastDemandAt ∧
      residencySatisfied cfg w now) = [] := by
    rw [List.filter_eq_nil_iff]
    intro w hw hidle
    rw [decide_eq_true_eq] at hidle
    exact absurd hidle.2.2.2.1 (not_le.mpr (hearly w (List.mem_of_mem_filter hw)))
  have hpressure : ([q].filter (! ·.preload)).map (·.modelId) = [q.modelId] := by simp [hreal]
  unfold plan
  simp only [hpressure, hidle]
  simp [sortedBy, h]

theorem cacheable_const {candidates : List PlacementProfile} (hcand : ∀ p ∈ candidates, p.isKvcached = true)
    (m : ModelId) : cacheable (fun _ => candidates) m = candidates :=
  List.filter_eq_self.mpr hcand

/-- The plans for pressures and profiles of all kinds are safe. -/
def PlansSafe (cfg : PlannerConfig) (newId : WorkerId) (port : ℕ) (all : List GpuUuid)
    (workers : List WorkerPlacement) : Prop :=
  ∀ (now : Datetime) (pressures : List QueuePressure) (profiles : ModelId → List PlacementProfile),
    (∀ m, ∀ p ∈ profiles m, DistinctGpus p) → PlanSafe cfg newId port now all workers pressures profiles

/-- A turn whose actions a plan can return has safe actions. -/
theorem turn_safe {newId : WorkerId} {port : ℕ} (h : PlansSafe cfg newId port all workers)
    {candidates : List PlacementProfile} (hcand : ∀ p ∈ candidates, p.isKvcached = true ∧ DistinctGpus p)
    {q : QueuePressure} (hreal : q.preload = false) {actions : List PlannerAction}
    (hturn : ∀ now, planFor cfg now all (liveWorkers workers) [q.modelId] (fun _ => candidates) q = some actions) :
    ∃ now, ∀ a ∈ actions, ∀ gpu ∈ a.gpus workers, Safe cfg (afterPlan newId port now workers actions) gpu := by
  obtain ⟨now, hearly⟩ := exists_early cfg.prismIdleSleepSeconds workers
  have hsafe := h now [q] (fun _ => candidates) fun _ p hp => (hcand p hp).2
  unfold PlanSafe at hsafe
  rw [plan_single hreal hearly (hturn now)] at hsafe
  exact ⟨now, hsafe⟩

/-- A model that no worker runs fits where another one does. -/
theorem fits_of_other_model {p : PlacementProfile} {gpuSet : List GpuUuid} {m : ModelId}
    (hm : ∀ w ∈ live, w.modelId ≠ m) (h : cachedPrismFits cfg p gpuSet live none [] = true) :
    cachedPrismFits cfg { p with modelId := m, eligibleGpuSets := [gpuSet] } gpuSet live none [] = true := by
  unfold cachedPrismFits at h ⊢
  simp only [guard_eq_true] at h ⊢
  obtain ⟨hlengths, -, hall⟩ := h
  refine ⟨hlengths, fun hany => ?_, hall⟩
  obtain ⟨w, hw, hsame⟩ := List.any_eq_true.mp hany
  rw [decide_eq_true_eq] at hsame
  exact hm w (List.mem_of_mem_filter hw) hsame.2.1

/-- The profile for one model and one GPU set. -/
def only (p : PlacementProfile) (m : ModelId) (gpuSet : List GpuUuid) : PlacementProfile :=
  { p with modelId := m, eligibleGpuSets := [gpuSet] }

/-- The turn of a model that no worker runs starts what fits. -/
theorem planFor_fresh {p : PlacementProfile} {gpuSet : List GpuUuid} {m : ModelId} (hkv : p.isKvcached = true)
    (hm : ∀ w ∈ live, w.modelId ≠ m) (hin : within gpuSet all = true)
    (hfits : cachedPrismFits cfg p gpuSet live none [] = true) (now : Datetime) :
    planFor cfg now all live [m] (fun _ => [only p m gpuSet]) ⟨m, 1, 0, 0, false, 1⟩ =
      some [.start (only p m gpuSet) gpuSet "prism_cold_backlog"] := by
  have hkv' : (only p m gpuSet).isKvcached = true := hkv
  have hmodel : modelWorkers live m = [] := by
    rw [modelWorkers, List.filter_eq_nil_iff]
    simpa using hm
  have hsmallest : smallestCachedPrismFitting cfg [only p m gpuSet] all live = some (only p m gpuSet, gpuSet) := by
    have hfits' : cachedPrismFits cfg (only p m gpuSet) gpuSet live none [] = true := fits_of_other_model hm hfits
    have hsets : (only p m gpuSet).eligibleGpuSets = [gpuSet] := rfl
    simp [smallestCachedPrismFitting, sortedBy, hsets, hin, hfits']
  simp [planFor, cacheable, hkv', transitioning, readyWorkers, sleepingWorkers, hmodel, planCold, hsmallest]

/-- A model that no worker runs. -/
theorem exists_fresh (workers : List WorkerPlacement) : ∃ m : ModelId, ∀ w ∈ workers, w.modelId ≠ m := by
  obtain ⟨m, hm⟩ := Infinite.exists_notMem_finset ((workers.map (·.modelId)).toFinset)
  refine ⟨m, ?_⟩
  rintro w hw rfl
  exact hm (List.mem_toFinset.mpr (List.mem_map_of_mem hw))

theorem starts_of_safe {newId : WorkerId} {port : ℕ} (h : PlansSafe cfg newId port all workers)
    {p : PlacementProfile} {gpuSet : List GpuUuid} (hkv : p.isKvcached = true) (hset : gpuSet.Nodup)
    (hin : within gpuSet all = true) (hfits : cachedPrismFits cfg p gpuSet (liveWorkers workers) none [] = true) :
    Roomy cfg p gpuSet workers none := by
  obtain ⟨m, hm⟩ := exists_fresh workers
  have hturn := planFor_fresh hkv (fun w hw => hm w (List.mem_of_mem_filter hw)) hin hfits
  have hcand : ∀ p' ∈ [only p m gpuSet], p'.isKvcached = true ∧ DistinctGpus p' := by
    intro p' hp'
    rw [List.mem_singleton] at hp'
    subst hp'
    exact ⟨hkv, fun gpuSet' h' => by rwa [List.mem_singleton.mp h']⟩
  obtain ⟨now, hsafe⟩ := turn_safe (q := ⟨m, 1, 0, 0, false, 1⟩) h hcand rfl hturn
  intro gpu hgpu
  have hroom := (safe_start_iff hgpu newId port now).mp (hsafe _ List.mem_cons_self gpu hgpu)
  exact hroom

/-- After the wakes of `ws` and `w` a GPU of `w` is safe if and only if there
was room for `w` after the wakes of `ws`. -/
theorem safe_wakeAll_last (hn : (workers.map (·.id)).Nodup) {ws : List WorkerPlacement} {w : WorkerPlacement}
    (hw : w ∈ workers) (hnodup : ((ws ++ [w]).map (·.id)).Nodup) {gpu : GpuUuid} (hgpu : gpu ∈ w.gpuUuids) :
    Safe cfg (wakeAll ((ws ++ [w]).map (·.id)) workers) gpu ↔
      RoomyOn cfg w.profile w.gpuUuids (wakeAll (ws.map (·.id)) workers) (some w.id) gpu := by
  have hn' : ((wakeAll (ws.map (·.id)) workers).map (·.id)).Nodup := by
    rw [ids_wakeAll]
    exact hn
  have hfresh : w.id ∉ ws.map (·.id) := by
    rw [List.map_append, List.nodup_append] at hnodup
    intro hid
    exact hnodup.2.2 _ hid _ List.mem_cons_self rfl
  rw [List.map_append, wakeAll_append]
  exact safe_wake_iff hn' (mem_wakeAll hw hfresh) hgpu

theorem wakes_of_safe (hn : (workers.map (·.id)).Nodup) {newId : WorkerId} {port : ℕ}
    (h : PlansSafe cfg newId port all workers) {m : ModelId} {candidates : List PlacementProfile}
    (hcand : ∀ p ∈ candidates, p.isKvcached = true ∧ DistinctGpus p)
    (hquiet : transitioning (liveWorkers workers) m = false) (hready : readyWorkers (liveWorkers workers) m = [])
    {ws : List WorkerPlacement} {w : WorkerPlacement}
    (hwakes : cachedWakes cfg all (sleepingWorkers (liveWorkers workers) m candidates).length
      (sleepingWorkers (liveWorkers workers) m candidates) (liveWorkers workers) (ws.length + 1) = ws ++ [w]) :
    Roomy cfg w.profile w.gpuUuids (wakeAll (ws.map (·.id)) workers) (some w.id) := by
  obtain ⟨hmem, hnodup⟩ := @cachedWakes_nodup cfg all (sleepingWorkers (liveWorkers workers) m candidates).length
    (sleepingWorkers (liveWorkers workers) m candidates) (liveWorkers workers) (ws.length + 1)
  rw [hwakes] at hmem hnodup
  have hsleeps := hmem w (by simp)
  have hw : w ∈ workers := mem_sleepingWorkers hsleeps
  have hsome : sleepingWorkers (liveWorkers workers) m candidates ≠ [] := List.ne_nil_of_mem hsleeps
  have hcands : candidates ≠ [] := by
    rintro rfl
    simp [sleepingWorkers] at hsleeps
  have hcacheable := cacheable_const (fun p hp => (hcand p hp).1) m
  -- a pressure that asks for as many workers as the run wakes
  obtain ⟨q, rfl, hreal, hdesired⟩ := exists_pressure m
    (((sleepingWorkers (liveWorkers workers) m candidates).map fun w =>
      w.profile.predictedTokensPerSecond * cfg.scaleWindowSeconds).foldl max
      (((sleepingWorkers (liveWorkers workers) m candidates).map fun w =>
        w.profile.predictedTokensPerSecond * cfg.scaleWindowSeconds).headD 0)) ws.length
  obtain ⟨v, vs, hrun⟩ : ∃ v vs, ws ++ [w] = v :: vs := List.exists_cons_of_ne_nil (by simp)
  have hturn : ∀ now, planFor cfg now all (liveWorkers workers) [q.modelId] (fun _ => candidates) q =
      some (.wake v.id "prism_ram_cache_hit" ::
        vs.map fun u => .wake u.id "prism_replica_ram_cache_hit") := by
    intro now
    simp only [planFor, hcacheable, hcands, hreal, hquiet, hready, hsome, planCached, hdesired, hwakes, hrun,
      ne_eq, not_false_eq_true, if_true, if_false, Bool.false_eq_true]
  obtain ⟨now, hsafe⟩ := turn_safe h hcand hreal hturn
  have hids : (PlannerAction.wake v.id "prism_ram_cache_hit" ::
      vs.map fun u => PlannerAction.wake u.id "prism_replica_ram_cache_hit").map (·.wakes) =
      ((ws ++ [w]).map (·.id)).map some := by
    rw [hrun]
    simp [PlannerAction.wakes]
  obtain ⟨hafter, -⟩ := afterPlan_wakes newId port now workers hids
  rw [hafter] at hsafe
  intro gpu hgpu
  rw [← safe_wakeAll_last hn hw hnodup hgpu]
  obtain ⟨reason, hact⟩ : ∃ reason, PlannerAction.wake w.id reason ∈
      (PlannerAction.wake v.id "prism_ram_cache_hit" ::
        vs.map fun u => PlannerAction.wake u.id "prism_replica_ram_cache_hit") := by
    have hlast : w ∈ v :: vs := hrun ▸ by simp
    rcases List.mem_cons.mp hlast with rfl | hlater
    · exact ⟨_, List.mem_cons_self⟩
    · exact ⟨_, List.mem_cons_of_mem _ (List.mem_map_of_mem hlater)⟩
  exact hsafe _ hact gpu (by rwa [gpus_wake hn hw reason])

theorem replicas_of_safe (hn : (workers.map (·.id)).Nodup) {newId : WorkerId} {port : ℕ}
    (h : PlansSafe cfg newId port all workers) {m : ModelId} {candidates : List PlacementProfile}
    (hcand : ∀ p ∈ candidates, p.isKvcached = true ∧ DistinctGpus p)
    (hquiet : transitioning (liveWorkers workers) m = false) (hready : readyWorkers (liveWorkers workers) m ≠ [])
    (hone : candidates.filter (·.gpuCount = 1) ≠ []) {w : WorkerPlacement}
    (hwake : firstCachedWake cfg ((sleepingWorkers (liveWorkers workers) m candidates).filter
      (·.profile.gpuCount = 1)) all (liveWorkers workers) = some w) :
    Roomy cfg w.profile w.gpuUuids workers (some w.id) := by
  have hw : w ∈ workers := mem_sleepingWorkers (List.mem_of_mem_filter (first_cached_wake hwake).1)
  have hcands : candidates ≠ [] := by
    rintro rfl
    exact hone rfl
  have hcacheable := cacheable_const (fun p hp => (hcand p hp).1) m
  -- a pressure that asks for one worker more than there are
  obtain ⟨q, rfl, hreal, hdesired⟩ := exists_pressure m
    ((readyWorkers (liveWorkers workers) m).map fun w =>
      w.profile.predictedTokensPerSecond * cfg.scaleWindowSeconds).sum (readyWorkers (liveWorkers workers) m).length
  have hmore : ¬ (((readyWorkers (liveWorkers workers) q.modelId).length : ℤ) + 1 ≤
      (readyWorkers (liveWorkers workers) q.modelId).length) := by omega
  have hturn : ∀ now, planFor cfg now all (liveWorkers workers) [q.modelId] (fun _ => candidates) q =
      some [.wake w.id "prism_replica_ram_cache_hit"] := by
    intro now
    simp only [planFor, hcacheable, hcands, hreal, hquiet, hready, planReplica, hdesired, hmore, hone, hwake,
      if_false, Bool.false_eq_true]
  obtain ⟨now, hsafe⟩ := turn_safe h hcand hreal hturn
  intro gpu hgpu
  rw [← safe_wake_iff hn hw hgpu]
  exact hsafe _ List.mem_cons_self gpu (by rwa [gpus_wake hn hw])

/-! ### Without STOPPING workers -/

theorem cachedWakes_fits : ∀ (pre : List WorkerPlacement) {fuel : ℕ} {remaining projected : List WorkerPlacement}
    {limit : ℤ} {w : WorkerPlacement} {post : List WorkerPlacement},
    cachedWakes cfg all fuel remaining projected limit = pre ++ w :: post →
      within w.gpuUuids all = true ∧
        cachedPrismFits cfg w.profile w.gpuUuids (wakeAll (pre.map (·.id)) projected) (some w.id) [] = true
  | [], _, _, _, _, _, _, h => by
    obtain ⟨_, -, -, hwake, -⟩ := cachedWakes_cons h
    exact (first_cached_wake hwake).2
  | v :: pre, _, _, _, _, _, _, h => by
    obtain ⟨_, -, -, -, hrest⟩ := cachedWakes_cons h
    exact cachedWakes_fits pre hrest

theorem liveWorkers_wakeAll : ∀ {ids : List WorkerId} {workers : List WorkerPlacement},
    (∀ w ∈ workers, w.id ∈ ids → w.state ∉ [RuntimeState.cold, .stopping]) →
      liveWorkers (wakeAll ids workers) = wakeAll ids (liveWorkers workers)
  | [], _, _ => rfl
  | id :: ids, workers, hids => by
    have hone : liveWorkers (Table.modify WorkerPlacement.id id (·.waking) workers) =
        Table.modify WorkerPlacement.id id (·.waking) (liveWorkers workers) := by
      apply Table.filter_modify_comm
      intro w hw hid
      have hlive := hids w hw (hid ▸ List.mem_cons_self)
      simpa [WorkerPlacement.waking] using hlive
    rw [wakeAll_cons, wakeAll_cons, ← hone]
    apply liveWorkers_wakeAll
    intro v hv hid
    rcases Table.mem_modify.mp hv with ⟨hv', -⟩ | ⟨v', -, -, rfl⟩
    · exact hids v hv' (List.mem_cons_of_mem _ hid)
    · simp [WorkerPlacement.waking]

theorem mem_wakeAll_or {v : WorkerPlacement} : ∀ {ids : List WorkerId} {workers : List WorkerPlacement},
    v ∈ wakeAll ids workers → v ∈ workers ∨ v.state = .waking
  | [], _, hv => .inl hv
  | id :: ids, workers, hv => by
    rw [wakeAll_cons] at hv
    rcases mem_wakeAll_or hv with hv | hv
    · rcases Table.mem_modify.mp hv with ⟨hv, -⟩ | ⟨w, -, -, rfl⟩
      · exact .inl hv
      · exact .inr rfl
    · exact .inr hv

section live

variable {gpu : GpuUuid} (hstop : ∀ w ∈ workers, w.state = .stopping → gpu ∉ w.gpuUuids)
include hstop

theorem residents_live : residents (liveWorkers workers) gpu = residents workers gpu := by
  unfold residents liveWorkers
  rw [List.filter_filter]
  apply List.filter_congr
  intro w hw
  have hw' := hstop w hw
  cases hs : w.state <;> simp_all [gpuResidentStates]

theorem usedMib_live : usedMib cfg (liveWorkers workers) gpu = usedMib cfg workers gpu := by
  unfold usedMib liveWorkers
  rw [Table.sum_filter]
  congr 1
  apply List.map_congr_left
  intro w hw
  have hw' := hstop w hw
  cases hs : w.state <;> simp_all [shareMib, gpuResidentStates]

theorem utilizations_live : utilizations (liveWorkers workers) gpu = utilizations workers gpu := by
  unfold utilizations liveWorkers
  rw [List.filter_filter]
  congr 1
  apply List.filter_congr
  intro w hw
  have hw' := hstop w hw
  cases hs : w.state <;> simp_all

/-- On a GPU without STOPPING workers the live workers are all that count. -/
theorem roomyOn_live {p : PlacementProfile} {gpuSet : List GpuUuid} {existing : Option WorkerId}
    (h : RoomyOn cfg p gpuSet (liveWorkers workers) existing gpu) : RoomyOn cfg p gpuSet workers existing gpu := by
  have hothers : ∀ w ∈ workers.filter (fun w => some w.id ≠ existing), w.state = .stopping → gpu ∉ w.gpuUuids :=
    fun w hw => hstop w (List.mem_of_mem_filter hw)
  have hcomm : (liveWorkers workers).filter (fun w => some w.id ≠ existing) =
      liveWorkers (workers.filter fun w => some w.id ≠ existing) := List.filter_comm ..
  unfold RoomyOn at h ⊢
  rw [hcomm, residents_live hothers, usedMib_live hothers, utilizations_live hstop] at h
  exact h

end live

theorem mem_of_within {gpuSet : List GpuUuid} (h : within gpuSet all = true) {gpu : GpuUuid} (hgpu : gpu ∈ gpuSet) :
    gpu ∈ all := by
  simpa using List.all_eq_true.mp h gpu hgpu

/-- Where no worker of the GPUs is in STOPPING, all that takes VRAM is
counted. -/
theorem counts_of_no_stopping (hn : (workers.map (·.id)).Nodup)
    (hstop : ∀ w ∈ workers, w.state = .stopping → ∀ gpu ∈ w.gpuUuids, gpu ∉ all) :
    CountsStopping cfg all workers := by
  have hfree : ∀ gpu ∈ all, ∀ w ∈ workers, w.state = .stopping → gpu ∉ w.gpuUuids :=
    fun gpu hall w hw hs hgpu => hstop w hw hs gpu hgpu hall
  constructor
  · intro p gpuSet _ _ hin hfits gpu hgpu
    exact roomyOn_live (hfree gpu (mem_of_within hin hgpu)) (fits_roomy hfits gpu hgpu)
  · intro m candidates _ _ _ ws w hwakes gpu hgpu
    obtain ⟨hin, hfits⟩ := cachedWakes_fits ws hwakes
    have hroom := fits_roomy hfits gpu hgpu
    -- the woken workers are live ones
    have hlive : ∀ v ∈ workers, v.id ∈ ws.map (·.id) → v.state ∉ [RuntimeState.cold, .stopping] := by
      intro v hv hid
      obtain ⟨u, hu, heq⟩ := List.mem_map.mp hid
      have hsleeps := cachedWakes_nodup.1 u (hwakes ▸ List.mem_append_left _ hu)
      have huState : u.state = .sleeping := by
        simp only [sleepingWorkers, List.mem_filter, decide_eq_true_eq] at hsleeps
        exact hsleeps.2.1
      rw [Table.eq_of_key hn hv (mem_sleepingWorkers hsleeps) heq.symm, huState]
      decide
    rw [← liveWorkers_wakeAll hlive] at hroom
    refine roomyOn_live (fun v hv hs => ?_) hroom
    rcases mem_wakeAll_or hv with hv' | hwaking
    · exact hfree gpu (mem_of_within hin hgpu) v hv' hs
    · rw [hwaking] at hs
      cases hs
  · intro m candidates _ _ _ _ w hwake gpu hgpu
    obtain ⟨-, hin, hfits⟩ := first_cached_wake hwake
    exact roomyOn_live (hfree gpu (mem_of_within hin hgpu)) (fits_roomy hfits gpu hgpu)

/-! ### When plans are safe -/

/-- The plans are safe if and only if what has room among the live workers
has it among all workers. -/
theorem plan_safe_iff (cfg : PlannerConfig) (newId : WorkerId) (port : ℕ) (all : List GpuUuid)
    (workers : List WorkerPlacement) (hn : (workers.map (·.id)).Nodup) :
    PlansSafe cfg newId port all workers ↔ CountsStopping cfg all workers := by
  constructor
  · intro h
    exact {
      starts := fun _ _ hkv hset hin hfits => starts_of_safe h hkv hset hin hfits
      wakes := fun _ _ hcand hquiet hready _ _ hwakes => wakes_of_safe hn h hcand hquiet hready hwakes
      replicas := fun _ _ hcand hquiet hready hone _ hwake =>
        replicas_of_safe hn h hcand hquiet hready hone hwake }
  · intro h now pressures profiles hdist
    exact plan_safe hn h newId port now pressures hdist

section stopping

/-- A profile that takes 800 MiB of one GPU. -/
def arriving : PlacementProfile where
  id := "arriving"
  modelId := "m"
  engine := .vllm
  gpuCount := 1
  eligibleGpuSets := [["gpu-0"]]
  predictedTokensPerSecond := 10
  loadAndWarmupSeconds := 60
  idleVramMibPerGpu := [500]
  peakVramMibPerGpu := [800]
  gpuHeadroomMibPerGpu := [0]
  gpuMemoryUtilization := 9 / 10
  memoryBackend := "kvcached"

/-- A worker of another model on the GPU. -/
def leaving (state : RuntimeState) : WorkerPlacement where
  id := "leaving"
  profile := { arriving with id := "leaving", modelId := "n" }
  gpuUuids := ["gpu-0"]
  port := 18000
  state := state
  lastDemandAt := 0

/-- One GPU of 1000 MiB. -/
def oneGpuPlanner : PlannerConfig where
  minimumResidencySeconds := 0
  fairShareSeconds := 60
  minimumMarginalEfficiency := 1 / 10
  gpuVramMib := [("gpu-0", 1000)]
  reservedVramMib := 0

theorem plan_safe_iff_ready : PlansSafe oneGpuPlanner "new" 18001 ["gpu-0"] [leaving .ready] :=
  (plan_safe_iff oneGpuPlanner "new" 18001 ["gpu-0"] [leaving .ready] (by decide)).mpr
    (counts_of_no_stopping (by decide) (by simp [leaving]))

/-- A placement starts on the GPU of a STOPPING worker, and the two take 1600
of its 900 MiB. -/
theorem plan_unsafe : ¬ PlansSafe oneGpuPlanner "new" 18001 ["gpu-0"] [leaving .stopping] := by
  intro h
  have hplan : plan oneGpuPlanner 0 ["gpu-0"] [leaving .stopping] [⟨"m", 1, 100, 0, false, 1⟩]
      (fun _ => [arriving]) = [.start arriving ["gpu-0"] "prism_cold_backlog"] := by decide +kernel
  have hdist : ∀ m : ModelId, ∀ p ∈ (fun _ => [arriving]) m, DistinctGpus p := by
    intro m p hp
    rw [List.mem_singleton] at hp
    subst hp
    simp [DistinctGpus, arriving]
  have hsafe := h 0 [⟨"m", 1, 100, 0, false, 1⟩] (fun _ => [arriving]) hdist
  unfold PlanSafe at hsafe
  rw [hplan] at hsafe
  have hvram := (hsafe _ List.mem_cons_self "gpu-0" List.mem_cons_self).vram (9 / 10) [9 / 10] (by decide +kernel)
  exact absurd hvram (by decide +kernel)

end stopping

end Planner
end LlmRio
