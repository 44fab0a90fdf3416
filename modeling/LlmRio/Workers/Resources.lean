/-
# A live engine keeps its resources

Ports and, without kvcached, GPUs are owned by the workers that are not COLD.
So an engine keeps its port and its GPUs as long as its worker is not COLD,
and the supervisor keeps the two in step if it declares a worker COLD only
after the engine has exited. `_stop` does: it waits for the process and then
sets COLD. `_fail` sets COLD in its first section and then kills, and a
launch whose row cannot be stored drops its worker after a wait of ten
seconds.

While the sections of the second kind run only for engines that have exited
(`reapedFirst`), no live engine loses its port or its GPUs (`resources_kept`).
A startup timeout of a running engine gives both away (`resources_lost`).

Key definitions: `KeepsResources`, `reapedFirst`, `Owned`.
Key theorems: `owned_step`, `resources_kept`, `resources_lost`.
-/
import LlmRio.Workers.Registered

namespace LlmRio
namespace Supervisor

open Runs

variable {cfg : Settings}

/-- For every engine that has not exited: `_allocate_port` hands out another
port and, without kvcached, `launch` accepts no placement on its GPUs. -/
def KeepsResources (cfg : Settings) (s : State) : Prop :=
  ∀ e ∈ s.engines, e.exited = false →
    (∀ port, allocatePort cfg s.workers = .ok port → port ≠ e.port) ∧
    (cfg.kvcachedEnabled = false → ∀ profile gpus port,
      launchPort cfg s.workers profile gpus = .ok port → gpusMeet gpus e.gpuUuids = false)

/-- `_fail` enters its first section only for a worker whose engine has exited
(or that is COLD, where it returns), and a launch is aborted only after its
engine has exited. -/
def reapedFirst (s : State) : Act → Bool
  | .task k _ _ _ =>
    match s.tasks[k]? with
    | some ⟨w, .failBegin _⟩ => s.engineExited w || (s.worker? w).all (·.state = .cold)
    | _ => true
  | .launchAborted => s.launching.all fun l => s.engineExited l.1
  | _ => true

/-- The task is past the section that looked up the process. -/
def Pc.teardown : Pc → Bool
  | .failKill _ _ | .failTail _ | .failCleanup _ | .stopKill _ | .stopFinish | .stopTail => true
  | _ => false

/-- At this point the worker's engine has exited. -/
def Pc.reaped : Pc → Bool
  | .stopKill true => false
  | pc => pc.teardown

structure Owned (s : State) : Prop where
  registered : Registered s
  live : ∀ e ∈ s.engines, e.exited = false → ∃ x, s.worker? e.worker = some x ∧ x.state ≠ .cold ∧
    x.port = e.port ∧ x.gpuUuids = e.gpuUuids ∧ e.worker ∈ s.processes
  issued : ∀ e ∈ s.engines, e.worker ∈ s.issued
  spawning : ∀ id, s.launching = some (id, .spawning) → ∀ e ∈ s.engines, e.worker ≠ id
  launched : ∀ (k : ℕ) (w : WorkerId) (pc : Pc), s.tasks[k]? = some ⟨w, pc⟩ → pc.teardown = true →
    w ∈ s.issued ∧ s.launching ≠ some (w, .spawning)
  reaped : ∀ (k : ℕ) (w : WorkerId) (pc : Pc), s.tasks[k]? = some ⟨w, pc⟩ → pc.reaped = true →
    s.engineExited w = true

theorem owned_start : Owned start := by
  refine ⟨registered_start, ?_, ?_, ?_, ?_, ?_⟩ <;> simp [start]

variable {s s' : State} {a : Act}

theorem engineExited_iff {w : WorkerId} :
    s.engineExited w = true ↔ ∀ e ∈ s.engines, e.worker = w → e.exited = true := by
  simp [State.engineExited, imp_iff_not_or]

theorem not_exited {e : EngineProcess} (he : e ∈ s.engines) (hlive : e.exited = false) :
    s.engineExited e.worker = false := by
  by_contra h
  rw [Bool.not_eq_false, engineExited_iff] at h
  rw [h e he rfl] at hlive
  cases hlive

/-- What keeps the resources: an owner for every live engine. -/
theorem Owned.keeps (h : Owned s) : KeepsResources cfg s := by
  intro e he hlive
  obtain ⟨x, hx, hstate, hp, hg, -⟩ := h.live e he hlive
  have hmem := (Table.lookup_some hx).1
  rw [← hp, ← hg]
  exact ⟨fun port hport => allocatePort_free hport hmem hstate,
    fun hk profile gpus port hport => launchPort_native hk hport hmem hstate⟩

/-! ### The steps -/

theorem finish_processes (u : State) (k : ℕ) (w : WorkerId) (locked : Bool) :
    (u.finish k w locked).processes = u.processes := by
  unfold State.finish
  split <;> rfl

theorem mem_cleanup {v w : WorkerId} (hv : v ∈ s.processes) (hw : v ≠ w) :
    v ∈ (s.cleanup w).processes := by
  simp only [State.cleanup, State.noSleepIntent, List.mem_filter, decide_eq_true_eq]
  exact ⟨hv, hw⟩

/-- Of the tasks, only the last section of `_fail` and of `_stop` drops a
process handle. -/
theorem TaskEffect.processes {k : ℕ} {w : WorkerId} {now : Datetime} {elapsed : ℚ} {pc : Pc}
    (h : TaskEffect cfg s k w now elapsed pc s') :
    s'.processes = s.processes ∨ (pc.reaped = true ∧ s'.processes = (s.cleanup w).processes) := by
  cases h with
  | cleaned _ hpc =>
    refine .inr ⟨?_, finish_processes _ _ _ _⟩
    rcases hpc with rfl | ⟨locked, rfl⟩ <;> rfl
  | ends => exact .inl (finish_processes _ _ _ _)
  | _ => exact .inl rfl

/-- A process handle is dropped by the tail of `_fail` and `_stop`, and by a
launch that fails. -/
theorem processes_step (hs : step cfg s a = some s') {v : WorkerId} (hv : v ∈ s.processes) :
    v ∈ s'.processes ∨ (∃ (k : ℕ) (pc : Pc), s.tasks[k]? = some ⟨v, pc⟩ ∧ pc.reaped = true) ∨
      (∃ phase, s.launching = some (v, phase) ∧
        ((phase = .spawning ∧ a = .launchSpawnFails) ∨ (phase = .persisting ∧ a = .launchAborted))) := by
  cases step_effect hs with
  | @task k _ _ _ w pc _ hk _ he =>
    rcases he.processes with heq | ⟨hpc, heq⟩
    · exact .inl (heq ▸ hv)
    · by_cases hw : v = w
      · exact .inr (.inl ⟨k, pc, hw ▸ hk, hpc⟩)
      · exact .inl (heq ▸ mem_cleanup hv hw)
  | @dropped _ id phase hl ha =>
    by_cases hid : v = id
    · exact .inr (.inr ⟨phase, hid ▸ hl, ha⟩)
    · exact .inl (mem_cleanup hv hid)
  | spawned => exact .inl (List.mem_append_left _ hv)
  | _ => exact .inl hv

/-- Under the condition on the steps, a worker that becomes COLD has no live
engine. -/
theorem Owned.becomesCold (h : Owned s) (ha : reapedFirst s a = true) {w : WorkerId}
    {x y : WorkerPlacement} (hx : s.worker? w = some x) (hc : Change cfg s a w x y)
    (hcold : x.state ≠ .cold) (hy : y.state = .cold) : s.engineExited w = true := by
  cases hc with
  | spawned | pidCleared | released => exact absurd hy hcold
  | @failed k now elapsed locked hl hr hs =>
    obtain ⟨⟨ok, rfl⟩, hk⟩ := hr
    simp only [reapedFirst, hk, hx, Option.all_some, Bool.or_eq_true, decide_eq_true_eq] at ha
    exact ha.resolve_right hcold
  | stopped hl hr => exact h.reaped _ w _ hr.2 rfl
  | admitted _ _ hs =>
    have : x.state = .cold := hy
    exact absurd this hcold
  | loaded | drainingToSleep | drained | offloading | asleep | waking | awake | stopping => cases hy

/-- An engine that is live after the step has an owner. -/
theorem Owned.live_kept (h : Owned s) (ha : reapedFirst s a = true) (hs : step cfg s a = some s')
    {e : EngineProcess} (he : e ∈ s.engines) (hlive : e.exited = false) :
    ∃ x, s'.worker? e.worker = some x ∧ x.state ≠ .cold ∧ x.port = e.port ∧ x.gpuUuids = e.gpuUuids ∧
      e.worker ∈ s'.processes := by
  obtain ⟨x, hx, hstate, hp, hg, hproc⟩ := h.live e he hlive
  have hnot := not_exited he hlive
  -- a launch that fails has no live engine
  have hlaunch : ∀ phase, s.launching = some (e.worker, phase) →
      ¬ ((phase = .spawning ∧ a = .launchSpawnFails) ∨ (phase = .persisting ∧ a = .launchAborted)) := by
    rintro phase hl (⟨rfl, rfl⟩ | ⟨rfl, rfl⟩)
    · exact h.spawning _ hl e he rfl
    · simp [reapedFirst, hl, hnot] at ha
  have hproc' : e.worker ∈ s'.processes := by
    rcases processes_step hs hproc with hp' | ⟨k, pc, hk, hpc⟩ | ⟨phase, hl, hph⟩
    · exact hp'
    · rw [h.reaped k _ pc hk hpc] at hnot
      cases hnot
    · exact absurd hph (hlaunch phase hl)
  cases worker_step h.registered hs e.worker with
  | same heq => exact ⟨x, by rw [heq, hx], hstate, hp, hg, hproc'⟩
  | change x' y hx' hy hc =>
    rw [hx] at hx'
    cases hx'
    obtain ⟨-, -, hg', hp'⟩ := hc.owns
    refine ⟨y, hy, fun hcold => ?_, by rw [hp', hp], by rw [hg', hg], hproc'⟩
    rw [h.becomesCold ha hx hc hstate hcold] at hnot
    cases hnot
  | launched _ _ _ _ _ _ _ hnone _ =>
    rw [hx] at hnone
    cases hnone
  | dropped phase hph hl _ _ => exact absurd hph (hlaunch phase hl)

theorem owned_live (h : Owned s) (ha : reapedFirst s a = true) (hs : step cfg s a = some s') :
    ∀ e ∈ s'.engines, e.exited = false → ∃ x, s'.worker? e.worker = some x ∧ x.state ≠ .cold ∧
      x.port = e.port ∧ x.gpuUuids = e.gpuUuids ∧ e.worker ∈ s'.processes := by
  intro e he hlive
  cases engines_step hs with
  | same _ _ heq | begun _ _ _ _ _ _ _ _ _ heq | ended _ _ _ _ _ heq =>
    rw [heq] at he
    exact h.live_kept ha hs he hlive
  | exited w _ _ _ heq =>
    rw [heq] at he
    rcases Table.mem_modify.mp he with ⟨he, -⟩ | ⟨e0, -, -, rfl⟩
    · exact h.live_kept ha hs he hlive
    · cases hlive
  | spawned id x hlaunch hx hl _ heq hproc =>
    rw [heq] at he
    rcases List.mem_append.mp he with he | he
    · exact h.live_kept ha hs he hlive
    · obtain rfl := List.mem_singleton.mp he
      have hload := h.registered.launching id _ hlaunch
      rw [hx] at hload
      obtain ⟨x', hx', hload, -⟩ := hload
      cases hx'
      have hnew : ∃ y, s'.worker? id = some y ∧ y.state = .loading ∧ y.port = x.port ∧
          y.gpuUuids = x.gpuUuids := by
        cases worker_step h.registered hs id with
        | same h' => exact ⟨x, by rw [h', hx], hload, rfl, rfl⟩
        | change x' y hx' hy hc =>
          rw [hx] at hx'
          cases hx'
          obtain ⟨-, pid, rfl⟩ := hc.launching hlaunch
          exact ⟨_, hy, hload, rfl, rfl⟩
        | launched _ _ _ _ _ _ _ hnone _ =>
          rw [hx] at hnone
          cases hnone
        | dropped _ _ _ hdone _ =>
          rw [hl] at hdone
          cases hdone
      obtain ⟨y, hy, hstate, hp, hg⟩ := hnew
      refine ⟨y, hy, by simp [hstate], hp, hg, ?_⟩
      rw [hproc]
      exact List.mem_append_right _ (List.mem_singleton.mpr rfl)

/-- An exited engine stays so, and only the launch in progress adds one. -/
theorem engineExited_step (hs : step cfg s a = some s') {w : WorkerId}
    (hw : s.launching ≠ some (w, .spawning)) (h : s.engineExited w = true) : s'.engineExited w = true := by
  rw [engineExited_iff] at h ⊢
  intro e he hew
  cases engines_step hs with
  | same _ _ heq | begun _ _ _ _ _ _ _ _ _ heq | ended _ _ _ _ _ heq =>
    rw [heq] at he
    exact h e he hew
  | exited v _ _ _ heq =>
    rw [heq] at he
    rcases Table.mem_modify.mp he with ⟨he, -⟩ | ⟨e0, -, -, rfl⟩
    · exact h e he hew
    · rfl
  | spawned id x hlaunch hx hl _ heq hproc =>
    rw [heq] at he
    rcases List.mem_append.mp he with he | he
    · exact h e he hew
    · obtain rfl := List.mem_singleton.mp he
      cases hew
      exact absurd hlaunch hw

theorem launched_kept (hs : step cfg s a = some s') {w : WorkerId}
    (hw : w ∈ s.issued ∧ s.launching ≠ some (w, .spawning)) :
    w ∈ s'.issued ∧ s'.launching ≠ some (w, .spawning) := by
  obtain ⟨hi, hl⟩ := hw
  cases engines_step hs with
  | same hl' hi' | exited _ _ hl' hi' => exact ⟨hi' ▸ hi, hl' ▸ hl⟩
  | begun _ _ id _ _ _ hid hl' hi' =>
    refine ⟨hi' ▸ List.mem_cons_of_mem _ hi, ?_⟩
    rw [hl']
    intro he
    cases he
    exact hid hi
  | spawned _ _ _ _ hl' hi' => exact ⟨hi' ▸ hi, by simp [hl']⟩
  | ended _ _ _ hl' hi' => exact ⟨hi' ▸ hi, by simp [hl']⟩

/-! ### The tasks that tear a worker down -/

theorem owned_issued (h : Owned s) (hs : step cfg s a = some s') : ∀ e ∈ s'.engines, e.worker ∈ s'.issued := by
  intro e he
  cases engines_step hs with
  | same _ hi heq | ended _ _ _ _ hi heq =>
    rw [heq] at he
    exact hi ▸ h.issued e he
  | begun _ _ _ _ _ _ _ _ hi heq =>
    rw [heq] at he
    exact hi ▸ List.mem_cons_of_mem _ (h.issued e he)
  | exited _ _ _ hi heq =>
    rw [heq] at he
    rcases Table.mem_modify.mp he with ⟨he, -⟩ | ⟨e0, he0, -, rfl⟩
    · exact hi ▸ h.issued e he
    · exact hi ▸ h.issued e0 he0
  | spawned id x hlaunch hx _ hi heq =>
    rw [heq] at he
    rcases List.mem_append.mp he with he | he
    · exact hi ▸ h.issued e he
    · obtain rfl := List.mem_singleton.mp he
      exact hi ▸ h.registered.worker_issued hx

theorem owned_spawning (h : Owned s) (hs : step cfg s a = some s') :
    ∀ id, s'.launching = some (id, .spawning) → ∀ e ∈ s'.engines, e.worker ≠ id := by
  intro id hl' e he
  cases engines_step hs with
  | same hl _ heq =>
    rw [heq] at he
    exact h.spawning id (hl ▸ hl') e he
  | begun _ _ id' _ _ _ hid hl _ heq =>
    rw [hl] at hl'
    cases hl'
    rw [heq] at he
    rintro rfl
    exact hid (h.issued e he)
  | exited _ _ hl _ heq =>
    rw [heq] at he
    rcases Table.mem_modify.mp he with ⟨he, -⟩ | ⟨e0, he0, -, rfl⟩
    · exact h.spawning id (hl ▸ hl') e he
    · exact h.spawning id (hl ▸ hl') e0 he0
  | spawned _ _ _ _ hl | ended _ _ _ hl =>
    rw [hl] at hl'
    cases hl'

/-- The first teardown section of a task found a worker that is not COLD. -/
theorem teardown_entered {k : ℕ} {w : WorkerId} {ok : Bool} {now : Datetime} {elapsed : ℚ} {pc pc' : Pc}
    (hk : s.tasks[k]? = some ⟨w, pc⟩) (hs : taskStep cfg s k w ok now elapsed pc = some s')
    (hk' : s'.tasks[k]? = some ⟨w, pc'⟩) (hnext : pc' ∈ pc.next) (hpc' : pc'.teardown = true) :
    pc.teardown = true ∨ (s.launching = none ∧ (∃ x, s.worker? w = some x ∧ x.state ≠ .cold) ∧
      ((∃ locked, pc = .failBegin locked) ∨ pc' = .stopKill (w ∈ s.processes))) := by
  cases pc with
  | failBegin locked =>
    simp only [taskStep, Option.ite_none_right_eq_some, Option.some.injEq] at hs
    obtain ⟨hl, rfl⟩ := hs
    unfold failSection at hk'
    split at hk'
    · rename_i hany
      obtain ⟨x, hx, hstate⟩ := Option.any_eq_true _ _ |>.mp hany
      exact .inr ⟨hl, ⟨x, hx, by simpa using hstate⟩, .inl ⟨locked, rfl⟩⟩
    · obtain rfl := finish_pc hk rfl hk'
      cases hpc'
  | stopEnter force =>
    simp only [taskStep, Option.ite_none_right_eq_some, Option.some.injEq] at hs
    obtain ⟨⟨-, hl⟩, rfl⟩ := hs
    unfold stopSection at hk'
    split at hk'
    · obtain rfl := goto_pc hk rfl hk'
      cases hpc'
    · rename_i x hx
      split at hk'
      · obtain rfl := goto_pc hk rfl hk'
        cases hpc'
      · rename_i hcold
        split at hk'
        · obtain rfl := goto_pc hk rfl hk'
          cases hpc'
        · exact .inr ⟨hl, ⟨x, hx, hcold⟩, .inr (goto_pc hk rfl hk').symm⟩
  | failKill | failTail | failCleanup | stopKill | stopFinish | stopTail => exact .inl rfl
  | polling | monitoring | offloadEnter | offloadPost | offloadFinish | offloadTail | wakeEnter | wakePost
  | wakeFinish | wakeTail | done =>
    -- leads to no point of a teardown
    exfalso
    cases pc' <;> simp_all [Pc.next, Pc.teardown]

theorem owned_launched (h : Owned s) (hs : step cfg s a = some s') :
    ∀ (k : ℕ) (w : WorkerId) (pc : Pc), s'.tasks[k]? = some ⟨w, pc⟩ → pc.teardown = true →
      w ∈ s'.issued ∧ s'.launching ≠ some (w, .spawning) := by
  intro j w pc hj hpc
  refine launched_kept hs ?_
  cases task_origin hs hj with
  | kept _ hj => exact h.launched j w pc hj hpc
  | fresh _ hpc' => rcases hpc' with ⟨rfl, -⟩ | rfl | ⟨_, rfl⟩ | rfl | rfl <;> cases hpc
  | moved pc0 ok now elapsed _ hk hs' hnext =>
    rcases teardown_entered hk hs' hj hnext hpc with ht | ⟨hl, ⟨x, hx, -⟩, -⟩
    · exact h.launched j w pc0 hk ht
    · exact ⟨h.registered.worker_issued hx, by simp [hl]⟩

/-- The task that moves to a point past the death of the engine. -/
theorem Owned.reaped_moved (h : Owned s) (ha : reapedFirst s a = true) {k : ℕ} {w : WorkerId} {ok : Bool}
    {now : Datetime} {elapsed : ℚ} {pc pc' : Pc} (hact : a = .task k ok now elapsed)
    (hk : s.tasks[k]? = some ⟨w, pc⟩) (hs : taskStep cfg s k w ok now elapsed pc = some s')
    (hk' : s'.tasks[k]? = some ⟨w, pc'⟩) (hnext : pc' ∈ pc.next) (hpc' : pc'.reaped = true) :
    s.engineExited w = true := by
  have hdown : pc'.teardown = true := by
    cases pc' with
    | stopKill handle => rfl
    | _ => exact hpc'
  rcases teardown_entered hk hs hk' hnext hdown with ht | ⟨-, ⟨x, hx, hcold⟩, ⟨locked, rfl⟩ | rfl⟩
  · -- the engine had exited before, or the task waited for it
    by_cases hr : pc.reaped = true
    · exact h.reaped k w pc hk hr
    · obtain rfl : pc = .stopKill true := by
        cases pc with
        | stopKill handle =>
          cases handle
          · exact absurd rfl hr
          · rfl
        | _ => exact absurd ht hr
      simp only [taskStep, forall_const, Option.ite_none_right_eq_some] at hs
      exact hs.1
  · -- `_fail` begins
    subst hact
    simp only [reapedFirst, hk, hx, Option.all_some, Bool.or_eq_true, decide_eq_true_eq] at ha
    exact ha.resolve_right hcold
  · -- `_stop` found no process
    by_contra hlive
    rw [engineExited_iff] at hlive
    push Not at hlive
    obtain ⟨e, he, rfl, hexit⟩ := hlive
    obtain ⟨-, -, -, -, -, hproc⟩ := h.live e he (by simpa using hexit)
    simp [Pc.reaped, hproc] at hpc'

theorem owned_reaped (h : Owned s) (ha : reapedFirst s a = true) (hs : step cfg s a = some s') :
    ∀ (k : ℕ) (w : WorkerId) (pc : Pc), s'.tasks[k]? = some ⟨w, pc⟩ → pc.reaped = true →
      s'.engineExited w = true := by
  intro j w pc hj hpc
  cases task_origin hs hj with
  | kept _ hj =>
    have hdown : pc.teardown = true := by
      cases pc with
      | stopKill handle => rfl
      | _ => exact hpc
    exact engineExited_step hs (h.launched j w pc hj hdown).2 (h.reaped j w pc hj hpc)
  | fresh _ hpc' => rcases hpc' with ⟨rfl, -⟩ | rfl | ⟨_, rfl⟩ | rfl | rfl <;> cases hpc
  | moved pc0 ok now elapsed hact hk hs' hnext =>
    obtain ⟨-, -, heng⟩ := (taskStep_effect hs').frame
    have hexit := h.reaped_moved ha hact hk hs' hj hnext hpc
    rw [State.engineExited, heng]
    exact hexit

theorem owned_step (h : Owned s) (ha : reapedFirst s a = true) (hs : step cfg s a = some s') : Owned s' :=
  ⟨registered_step h.registered hs, owned_live h ha hs, owned_issued h hs, owned_spawning h hs,
    owned_launched h hs, owned_reaped h ha hs⟩

/-- **A live engine keeps its resources**, in every run in which `_fail` and
an aborted launch give them up only after the engine has exited. -/
theorem resources_kept (cfg : Settings) (as : List Act) (t : State)
    (h : exec (restrict (step cfg) fun s a => reapedFirst s a = true) start as = some t) :
    KeepsResources cfg t := by
  have howned : Owned t := exec_invariant (fun _ _ _ hi hs => by
    obtain ⟨ha, hs⟩ := restrict_eq_some.mp hs
    exact owned_step hi ha hs) owned_start h
  exact howned.keeps

/-- A worker that is launched, becomes ready and is stopped, with its engine
still running when `_stop` asks it to exit. -/
def stopRun : List Act :=
  [.launch (oneGpu "native") ["gpu"] "w" 0, .launchSpawned 1, .launchDone, .task 0 true 1 0,
    .stop "w" false, .task 2 true 2 0]

theorem resources_kept_stop :
    ∃ t, exec (restrict (step {}) fun s a => reapedFirst s a = true) start stopRun = some t ∧
      KeepsResources {} t :=
  ⟨_, rfl, resources_kept {} stopRun _ rfl⟩

/-- A worker whose engine answers no health check until the startup time is
over. -/
def startupTimeoutRun : List Act :=
  [.launch (oneGpu "native") ["gpu"] "w" 0, .launchSpawned 1, .launchDone, .task 0 false 1 0,
    .task 0 false 1 0]

/-- After a startup timeout the worker is COLD while its engine still runs, so
its port and its GPU are free for the next launch. -/
theorem resources_lost :
    ∃ t, exec (step {}) start startupTimeoutRun = some t ∧ ¬ KeepsResources {} t := by
  refine ⟨_, rfl, fun h => ?_⟩
  have hport := (h _ List.mem_cons_self rfl).1 18000 rfl
  exact hport rfl

end Supervisor
end LlmRio
