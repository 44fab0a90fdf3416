/-
# Registered workers and held locks

Two invariants of every run of the supervisor. `Registered`: worker ids are
distinct and were issued by a launch, and the worker of a launch in progress
is LOADING. `Held`: a task in the middle of an offload, a wake or a stop
holds its worker's transition lock, so there is at most one of them for a
worker.

Under `Registered` a step does to one worker what `WorkerStep` lists
(`worker_step`).

Key definitions: `Registered`, `Held`, `WorkerStep`.
Key theorems: `worker_step`, `registered_step`, `held_step`, `Held.unique`.
-/
import LlmRio.Workers.Moves

namespace LlmRio
namespace Supervisor

variable {cfg : Settings}

/-! ### Registered workers -/

/-- Worker ids are distinct and issued; the worker of a launch in progress is
LOADING and has no request. -/
structure Registered (s : State) : Prop where
  ids : (s.workers.map (·.id)).Nodup
  issued : ∀ x ∈ s.workers, x.id ∈ s.issued
  launching : ∀ id phase, s.launching = some (id, phase) →
    ∃ x, s.worker? id = some x ∧ x.state = .loading ∧ x.admittedRequestIds = []

theorem registered_start : Registered start := by
  constructor <;> simp [start]

variable {s s' : State} {a : Act}

theorem Registered.worker_issued (hr : Registered s) {w : WorkerId} {x : WorkerPlacement}
    (hx : s.worker? w = some x) : w ∈ s.issued := by
  obtain ⟨hmem, rfl⟩ := Table.lookup_some hx
  exact hr.issued x hmem

theorem Registered.worker_of_mem (hr : Registered s) {x : WorkerPlacement} (hx : x ∈ s.workers) :
    s.worker? x.id = some x := Table.lookup_of_mem hr.ids hx

/-- What a step can do to the worker `w`: nothing, one of the changes, its
registration, or the end of a launch that failed. -/
inductive WorkerStep (cfg : Settings) (s : State) (a : Act) (s' : State) (w : WorkerId) : Prop
  | same (h : s'.worker? w = s.worker? w)
  | change (x y : WorkerPlacement) (hx : s.worker? w = some x) (hy : s'.worker? w = some y)
      (hc : Change cfg s a w x y)
  | launched (profile : PlacementProfile) (gpus : List GpuUuid) (port : ℕ) (now : Datetime)
      (ha : a = .launch profile gpus w now) (hl : s.launching = none)
      (hport : launchPort cfg s.workers profile gpus = .ok port) (hx : s.worker? w = none)
      (hy : s'.worker? w = some (newWorker profile gpus w port now))
  | dropped (phase : LaunchPhase)
      (ha : (phase = .spawning ∧ a = .launchSpawnFails) ∨ (phase = .persisting ∧ a = .launchAborted))
      (hl : s.launching = some (w, phase)) (hdone : s'.launching = none)
      (hy : s'.worker? w = none)

theorem worker_step (hr : Registered s) (hs : step cfg s a = some s') (w : WorkerId) :
    WorkerStep cfg s a s' w := by
  cases workers_step hs with
  | same h =>
    refine .same ?_
    unfold State.worker?
    rw [h]
  | change v f hf h hc =>
    have hkeep : ∀ x : WorkerPlacement, x.id = v → (f x).id = v := fun x hx => (hf x).trans hx
    by_cases hv : w = v
    · subst hv
      have hlook : s'.worker? w = (s.worker? w).map f := by
        unfold State.worker?
        rw [h, Table.lookup_modify_self hkeep]
      rcases hx : s.worker? w with _ | x
      · exact .same (by rw [hlook, hx]; rfl)
      · exact .change x (f x) hx (by rw [hlook, hx]; rfl) (hc x hx)
    · refine .same ?_
      unfold State.worker?
      rw [h, Table.lookup_modify_ne hv hkeep]
  | launched profile gpus id port now ha hl hid hport h =>
    have hnone : s.worker? id = none := by
      refine Table.lookup_none.mpr fun x hx he => hid ?_
      rw [← he]
      exact hr.issued x hx
    have happ : s'.worker? w = (s.worker? w).or (if id = w then some (newWorker profile gpus id port now)
        else none) := by
      unfold State.worker?
      rw [h, Table.lookup_append, Table.lookup_cons, Table.lookup_nil]
      rfl
    by_cases hw : id = w
    · subst hw
      refine .launched profile gpus port now ha hl hport hnone ?_
      rw [happ, hnone]
      simp
    · refine .same ?_
      rw [happ, if_neg hw, Option.or_none]
  | dropped id phase ha hl hdone h =>
    by_cases hw : w = id
    · subst hw
      refine .dropped phase ha hl hdone ?_
      unfold State.worker?
      rw [h, Table.lookup_none]
      intro x hx
      simpa using (List.mem_filter.mp hx).2
    · refine .same ?_
      unfold State.worker? Table.lookup
      rw [h, List.find?_filter]
      congr 1
      funext x
      by_cases hx : x.id = w
      · simp [hx, hw]
      · simp [hx]

/-- Only the worker of the launch in progress changes while `launch` holds the
lock. -/
theorem Change.launching {w : WorkerId} {x y : WorkerPlacement} (hc : Change cfg s a w x y)
    {id : WorkerId} {phase : LaunchPhase} (hl : s.launching = some (id, phase)) :
    w = id ∧ ∃ pid, y = { x with processPid := some pid } := by
  cases hc with
  | spawned pid hl' =>
    rw [hl] at hl'
    cases hl'
    exact ⟨rfl, pid, rfl⟩
  | _ => simp_all

/-- No change touches the identity of a worker or what it owns. -/
theorem Change.owns {w : WorkerId} {x y : WorkerPlacement} (hc : Change cfg s a w x y) :
    y.id = x.id ∧ y.profile = x.profile ∧ y.gpuUuids = x.gpuUuids ∧ y.port = x.port := by
  cases hc <;> exact ⟨rfl, rfl, rfl, rfl⟩

theorem Registered.ids_step (hr : Registered s) (hs : step cfg s a = some s') : (s'.workers.map (·.id)).Nodup := by
  cases workers_step hs with
  | same h =>
    rw [h]
    exact hr.ids
  | change w f hf h hc =>
    rw [h, @Table.map_key_modify _ _ _ WorkerPlacement.id _ _ fun x hx => (hf x).trans hx]
    exact hr.ids
  | launched profile gpus id port now ha hl hid hport h =>
    rw [h]
    simp only [List.map_append, List.map_cons, List.map_nil]
    refine List.Nodup.append hr.ids (by simp) ?_
    simp only [List.disjoint_singleton, List.mem_map, not_exists, not_and]
    exact fun x hx he => hid (by rw [← show x.id = id from he]; exact hr.issued x hx)
  | dropped id phase ha hl hdone h =>
    rw [h]
    exact hr.ids.sublist (List.filter_sublist.map _)

/-- An id that is issued stays so. -/
theorem issued_kept (hs : step cfg s a = some s') {id : WorkerId} (hid : id ∈ s.issued) : id ∈ s'.issued := by
  cases engines_step hs with
  | begun _ _ _ _ _ _ _ _ hi =>
    rw [hi]
    exact List.mem_cons_of_mem _ hid
  | same _ hi | spawned _ _ _ _ _ hi | ended _ _ _ _ hi | exited _ _ _ hi =>
    rw [hi]
    exact hid

theorem Registered.issued_step (hr : Registered s) (hs : step cfg s a = some s') :
    ∀ x ∈ s'.workers, x.id ∈ s'.issued := by
  intro x hx
  cases workers_step hs with
  | same h =>
    rw [h] at hx
    exact issued_kept hs (hr.issued x hx)
  | change w f hf h hc =>
    rw [h] at hx
    rcases Table.mem_modify.mp hx with ⟨hx, -⟩ | ⟨y, hy, -, rfl⟩
    · exact issued_kept hs (hr.issued x hx)
    · rw [hf]
      exact issued_kept hs (hr.issued y hy)
  | launched profile gpus id port now ha hl hid hport h =>
    rw [h] at hx
    rcases List.mem_append.mp hx with hx | hx
    · exact issued_kept hs (hr.issued x hx)
    · rw [List.mem_singleton.mp hx]
      subst ha
      simp only [step, hl, hid, hport, not_false_eq_true, and_self, if_true, Option.some.injEq] at hs
      rw [← hs]
      exact List.mem_cons_self
  | dropped id phase ha hl hdone h =>
    rw [h] at hx
    exact issued_kept hs (hr.issued x (List.mem_of_mem_filter hx))

/-- A launch in progress has just begun, or it was in progress before. -/
theorem launch_origin (hs : step cfg s a = some s') {id : WorkerId} {phase : LaunchPhase}
    (hl' : s'.launching = some (id, phase)) :
    (∃ profile gpus now, a = .launch profile gpus id now) ∨ ∃ phase', s.launching = some (id, phase') := by
  cases engines_step hs with
  | begun profile gpus id' now ha _ _ hl =>
    rw [hl] at hl'
    cases hl'
    exact .inl ⟨profile, gpus, now, ha⟩
  | same hl | exited _ _ hl => exact .inr ⟨phase, by rw [← hl, hl']⟩
  | spawned id' x hlaunch _ hl =>
    rw [hl] at hl'
    cases hl'
    exact .inr ⟨_, hlaunch⟩
  | ended _ _ _ hl =>
    rw [hl] at hl'
    cases hl'

theorem launch_registers (hr : Registered s) {profile : PlacementProfile} {gpus : List GpuUuid} {id : WorkerId}
    {now : Datetime} (hs : step cfg s (.launch profile gpus id now) = some s') :
    ∃ port, s'.worker? id = some (newWorker profile gpus id port now) := by
  cases step_effect hs with
  | @registered _ _ _ _ port hl hid hport =>
    have hnone : Table.lookup WorkerPlacement.id id s.workers = none :=
      Table.lookup_none.mpr fun x hx he => hid (he ▸ hr.issued x hx)
    refine ⟨port, ?_⟩
    unfold State.worker?
    rw [Table.lookup_append, hnone, Option.none_or, Table.lookup_cons]
    exact if_pos rfl
  | dropped _ ha | ignored _ ha | drained _ ha | drainedEmpty _ ha | spawns ha => simp at ha

theorem registered_step (hr : Registered s) (hs : step cfg s a = some s') : Registered s' := by
  refine ⟨hr.ids_step hs, hr.issued_step hs, fun id phase hl' => ?_⟩
  rcases launch_origin hs hl' with ⟨profile, gpus, now, rfl⟩ | ⟨phase', hl⟩
  · obtain ⟨port, hnew⟩ := launch_registers hr hs
    exact ⟨_, hnew, rfl, rfl⟩
  · obtain ⟨x, hx, hload, hadm⟩ := hr.launching id phase' hl
    cases worker_step hr hs id with
    | same h => exact ⟨x, by rw [h, hx], hload, hadm⟩
    | change x' y hx' hy hc =>
      rw [hx] at hx'
      cases hx'
      obtain ⟨-, pid, rfl⟩ := hc.launching hl
      exact ⟨_, hy, hload, hadm⟩
    | launched _ _ _ _ _ hfree _ _ _ => rw [hl] at hfree; cases hfree
    | dropped _ _ _ hdone _ => rw [hl'] at hdone; cases hdone

/-- Where a worker comes from: it was there, perhaps changed, or is launched. -/
theorem worker_origin (hr : Registered s) (hs : step cfg s a = some s') {y : WorkerPlacement}
    (hy : y ∈ s'.workers) :
    (∃ x ∈ s.workers, x.id = y.id ∧ x.profile = y.profile ∧ x.gpuUuids = y.gpuUuids ∧
        (x = y ∨ Change cfg s a y.id x y)) ∨
      s.worker? y.id = none ∧
        ∃ profile gpus port now, a = .launch profile gpus y.id now ∧ y = newWorker profile gpus y.id port now := by
  have hy' := (registered_step hr hs).worker_of_mem hy
  cases worker_step hr hs y.id with
  | same heq => exact .inl ⟨y, (Table.lookup_some (heq ▸ hy')).1, rfl, rfl, rfl, .inl rfl⟩
  | change x z hx hz hc =>
    rw [hy'] at hz
    cases hz
    obtain ⟨hid, hprofile, hgpus, -⟩ := hc.owns
    exact .inl ⟨x, (Table.lookup_some hx).1, hid.symm, hprofile.symm, hgpus.symm, .inr hc⟩
  | launched profile gpus port now ha _ _ hx hz =>
    rw [hy'] at hz
    exact .inr ⟨hx, profile, gpus, port, now, ha, Option.some.inj hz⟩
  | dropped _ _ _ _ hz =>
    rw [hy'] at hz
    cases hz

/-! ### Held locks -/

/-- A task that holds a transition lock is the one that the lock names. -/
def Held (s : State) : Prop :=
  ∀ (k : ℕ) (t : Task), s.tasks[k]? = some t → t.pc.holds = true → s.transition t.worker = some k

theorem held_start : Held start := by
  intro k t h
  simp [start] at h

/-- Two tasks that hold the lock of one worker are the same. -/
theorem Held.unique (h : Held s) {j k : ℕ} {t u : Task} (hj : s.tasks[j]? = some t)
    (hk : s.tasks[k]? = some u) (ht : t.pc.holds = true) (hu : u.pc.holds = true)
    (hw : t.worker = u.worker) : j = k := by
  have h1 := h j t hj ht
  rw [hw, h k u hk hu] at h1
  exact (Option.some.inj h1).symm

theorem held_step (h : Held s) (hs : step cfg s a = some s') : Held s' := by
  intro j t hj ht
  cases tasks_step hs with
  | same _ htasks hl =>
    rw [htasks] at hj
    rw [hl]
    exact h j t hj ht
  | spawned w pc _ hpc htasks hl =>
    rw [htasks] at hj
    rw [hl]
    rcases Tasks.snoc_cases hj with ⟨-, rfl⟩ | hj
    · rcases hpc with ⟨rfl, -⟩ | rfl | ⟨force, rfl⟩ <;> cases ht
    · exact h j t hj ht
  | watched w _ _ _ htasks hl =>
    rw [htasks] at hj
    rw [hl]
    rcases Tasks.snoc_cases hj with ⟨-, rfl⟩ | hj
    · cases ht
    · rcases Tasks.snoc_cases hj with ⟨-, rfl⟩ | hj
      · cases ht
      · exact h j t hj ht
  | moved k w pc pc' ok now elapsed ha hk hs hnext htasks hl =>
    rw [htasks] at hj
    rcases Tasks.set_cases hj with ⟨rfl, rfl⟩ | ⟨hjk, hj⟩
    · rcases hl with ⟨hl, hpc⟩ | ⟨-, hl, -⟩ | ⟨-, -, rfl⟩
      · rw [hl]
        exact h j ⟨w, pc⟩ hk (hpc.symm.trans ht)
      · rw [hl]
        simp [State.hold]
      · cases ht
    · have hold := h j t hj ht
      rcases hl with ⟨hl, -⟩ | ⟨hnone, hl, -⟩ | ⟨hl, hpc, -⟩
      · rw [hl]
        exact hold
      · rw [hl]
        by_cases hw : t.worker = w
        · rw [hw, hnone] at hold
          cases hold
        · simpa [State.hold, hw] using hold
      · rw [hl]
        by_cases hw : t.worker = w
        · exact absurd (h.unique hj hk ht hpc hw) hjk
        · simpa [State.unhold, hw] using hold

end Supervisor
end LlmRio
