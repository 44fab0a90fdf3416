/-
# What a step does to the tasks and the engines

`TasksStep` lists what a step does to the table of tasks and to the
transition locks: it adds tasks, or moves one along `Pc.next`, and the task
that moves keeps, takes or gives back its worker's lock (`LockMove`).
`EnginesStep` lists what it does to a launch in progress and to the engine
processes.

Key definitions: `TasksStep`, `EnginesStep`.
Key theorems: `tasks_step`, `engines_step`.
-/
import LlmRio.Workers.Changes

namespace LlmRio
namespace Supervisor

variable {cfg : Settings}

/-! ### The tasks -/

theorem next_offloadPost {pc : Pc} (h : .offloadPost ∈ pc.next) : pc = .offloadEnter := by
  cases pc <;> simp [Pc.next] at h ⊢

theorem next_offloadFinish {pc : Pc} (h : .offloadFinish ∈ pc.next) : pc = .offloadPost := by
  cases pc <;> simp [Pc.next] at h ⊢

/-- What the move of task `k` from `pc` to `pc'` does to the transition locks:
the task keeps what it holds, takes the free lock, or gives it back. -/
def LockMove (s s' : State) (k : ℕ) (w : WorkerId) (pc pc' : Pc) : Prop :=
  (s'.transition = s.transition ∧ pc'.holds = pc.holds) ∨
  (s.transition w = none ∧ s'.transition = (s.hold w k).transition ∧ pc'.holds = true) ∨
  (s'.transition = (s.unhold w).transition ∧ pc.holds = true ∧ pc' = .done)

/-- What a step does to the tasks and the transition locks. -/
inductive TasksStep (cfg : Settings) (s : State) (a : Act) (s' : State) : Prop
  | same (ha : ∀ k ok now elapsed, a ≠ .task k ok now elapsed) (h : s'.tasks = s.tasks)
      (hl : s'.transition = s.transition)
  | spawned (w : WorkerId) (pc : Pc) (ha : ∀ k ok now elapsed, a ≠ .task k ok now elapsed)
      (hpc : (pc = .offloadEnter ∧ ((∃ now, a = .sleep w now) ∨ w ∈ s.drainToSleep)) ∨
        pc = .wakeEnter ∨ ∃ force, pc = .stopEnter force)
      (h : s'.tasks = s.tasks ++ [⟨w, pc⟩]) (hl : s'.transition = s.transition)
  | watched (w : WorkerId) (ha : ∀ k ok now elapsed, a ≠ .task k ok now elapsed)
      (hlaunch : s.launching = some (w, .persisting)) (hdone : s'.launching = none)
      (h : s'.tasks = s.tasks ++ [⟨w, .polling⟩] ++ [⟨w, .monitoring⟩])
      (hl : s'.transition = s.transition)
  | moved (k : ℕ) (w : WorkerId) (pc pc' : Pc) (ok : Bool) (now : Datetime) (elapsed : ℚ)
      (ha : a = .task k ok now elapsed) (hk : s.tasks[k]? = some ⟨w, pc⟩)
      (hs : taskStep cfg s k w ok now elapsed pc = some s') (hnext : pc' ∈ pc.next)
      (h : s'.tasks = s.tasks.set k ⟨w, pc'⟩) (hl : LockMove s s' k w pc pc')

section tasks

variable {s s' : State} {k : ℕ} {w : WorkerId} {now : Datetime} {elapsed : ℚ}

/-- The end of a task gives back what it holds. -/
theorem finish_lock {u : State} {pc : Pc} {locked : Bool} (ht : u.transition = s.transition)
    (htasks : u.tasks = s.tasks) (hpc : pc.holds = locked) :
    (u.finish k w locked).tasks = s.tasks.set k ⟨w, .done⟩ ∧
      LockMove s (u.finish k w locked) k w pc .done := by
  unfold State.finish
  cases locked with
  | true =>
    refine ⟨by simp [State.goto, State.unhold, htasks], .inr (.inr ⟨?_, hpc, rfl⟩)⟩
    simp [State.goto, State.unhold, ht]
  | false => exact ⟨by simp [State.goto, htasks], .inl ⟨ht, hpc.symm⟩⟩

/-- The next point of the task and what becomes of the locks. -/
theorem TaskEffect.moves {pc : Pc} (h : TaskEffect cfg s k w now elapsed pc s') :
    ∃ pc', pc' ∈ pc.next ∧ s'.tasks = s.tasks.set k ⟨w, pc'⟩ ∧ LockMove s s' k w pc pc' := by
  cases h with
  | goes hnext hholds => exact ⟨_, hnext, rfl, .inl ⟨rfl, hholds⟩⟩
  | ends _ hnext => exact ⟨.done, hnext, finish_lock rfl rfl rfl⟩
  | cleaned _ hpc =>
    refine ⟨.done, ?_, finish_lock rfl rfl rfl⟩
    rcases hpc with rfl | ⟨locked, rfl⟩ <;> simp [Pc.next]
  | loaded => exact ⟨.done, by simp [Pc.next], rfl, .inl ⟨rfl, rfl⟩⟩
  | failed =>
    refine ⟨.failKill _ (w ∈ s.processes), ?_, rfl, .inl ⟨rfl, rfl⟩⟩
    cases decide (w ∈ s.processes) <;> simp [Pc.next]
  | pidCleared => exact ⟨_, by simp [Pc.next], rfl, .inl ⟨rfl, rfl⟩⟩
  | draining => exact ⟨.done, by simp [Pc.next], rfl, .inl ⟨rfl, rfl⟩⟩
  | offloading _ ht => exact ⟨.offloadPost, by simp [Pc.next], rfl, .inr (.inl ⟨ht, rfl, rfl⟩)⟩
  | asleep => exact ⟨.offloadTail, by simp [Pc.next], rfl, .inl ⟨rfl, rfl⟩⟩
  | waking _ ht => exact ⟨.wakePost, by simp [Pc.next], rfl, .inr (.inl ⟨ht, rfl, rfl⟩)⟩
  | awake => exact ⟨.wakeTail, by simp [Pc.next], rfl, .inl ⟨rfl, rfl⟩⟩
  | stopping _ ht =>
    refine ⟨.stopKill (w ∈ s.processes), ?_, rfl, .inr (.inl ⟨ht, rfl, rfl⟩)⟩
    cases decide (w ∈ s.processes) <;> simp [Pc.next]
  | stopped => exact ⟨.stopTail, by simp [Pc.next], rfl, .inl ⟨rfl, rfl⟩⟩

theorem tasks_step {a : Act} (hs : step cfg s a = some s') : TasksStep cfg s a s' := by
  cases step_effect hs with
  | registered | logFailed | spawned | exited | admitted | released | drainedToSleep =>
    exact .same (by simp) rfl rfl
  | dropped _ ha => exact .same (by rcases ha with ⟨-, rfl⟩ | ⟨-, rfl⟩ <;> simp) rfl rfl
  | returned hl => exact .watched _ (by simp) hl rfl rfl rfl
  | ignored _ ha =>
    exact .same (by rcases ha with ⟨_, _, _, _, rfl⟩ | ⟨_, _, rfl⟩ | ⟨_, _, rfl⟩ <;> simp) rfl rfl
  | drained _ ha => exact .same (by rcases ha with rfl | ⟨-, rfl⟩ <;> simp) rfl rfl
  | drainedEmpty _ ha =>
    exact .spawned _ _ (by rcases ha with rfl | ⟨-, rfl⟩ <;> simp) (.inr (.inr ⟨false, rfl⟩)) rfl rfl
  | @lastReleased w =>
    refine .spawned w (if w ∈ s.drainToSleep then .offloadEnter else .stopEnter false) (by simp) ?_ rfl rfl
    split
    · rename_i hin
      exact .inl ⟨rfl, .inr hin⟩
    · exact .inr (.inr ⟨false, rfl⟩)
  | sentToSleep => exact .spawned _ _ (by simp) (.inl ⟨rfl, .inl ⟨_, rfl⟩⟩) rfl rfl
  | spawns ha =>
    rcases ha with ⟨rfl, rfl⟩ | ⟨force, rfl, rfl⟩
    · exact .spawned _ _ (by simp) (.inr (.inl rfl)) rfl rfl
    · exact .spawned _ _ (by simp) (.inr (.inr ⟨force, rfl⟩)) rfl rfl
  | task hk hstep he =>
    obtain ⟨pc', hnext, htasks, hlock⟩ := he.moves
    exact .moved _ _ _ pc' _ _ _ rfl hk hstep hnext htasks hlock

/-- Where the task `j`, which is at `pc` after the step, comes from. -/
inductive TaskOrigin (cfg : Settings) (s : State) (a : Act) (s' : State) (j : ℕ) (w : WorkerId) (pc : Pc) :
    Prop
  | kept (ha : ∀ ok now elapsed, a ≠ .task j ok now elapsed) (hj : s.tasks[j]? = some ⟨w, pc⟩)
  | fresh (ha : ∀ k ok now elapsed, a ≠ .task k ok now elapsed)
      (hpc : (pc = .offloadEnter ∧ ((∃ now, a = .sleep w now) ∨ w ∈ s.drainToSleep)) ∨ pc = .wakeEnter ∨
        (∃ force, pc = .stopEnter force) ∨ pc = .polling ∨ pc = .monitoring)
  | moved (pc0 : Pc) (ok : Bool) (now : Datetime) (elapsed : ℚ) (ha : a = .task j ok now elapsed)
      (hj : s.tasks[j]? = some ⟨w, pc0⟩) (hs : taskStep cfg s j w ok now elapsed pc0 = some s')
      (hnext : pc ∈ pc0.next)

theorem task_origin {a : Act} (hs : step cfg s a = some s') {j : ℕ} {pc : Pc}
    (hj : s'.tasks[j]? = some ⟨w, pc⟩) : TaskOrigin cfg s a s' j w pc := by
  cases tasks_step hs with
  | same ha htasks =>
    rw [htasks] at hj
    exact .kept (ha j) hj
  | spawned v pc0 ha hpc0 htasks =>
    rw [htasks] at hj
    rcases Tasks.snoc_cases hj with ⟨-, heq⟩ | hj
    · cases heq
      refine .fresh ha ?_
      rcases hpc0 with h | h | h <;> simp [h]
    · exact .kept (ha j) hj
  | watched v ha _ _ htasks =>
    rw [htasks] at hj
    rcases Tasks.snoc_cases hj with ⟨-, heq⟩ | hj
    · cases heq
      exact .fresh ha (by simp)
    · rcases Tasks.snoc_cases hj with ⟨-, heq⟩ | hj
      · cases heq
        exact .fresh ha (by simp)
      · exact .kept (ha j) hj
  | moved k v pc0 pc' ok now elapsed ha hk hs' hnext htasks =>
    rw [htasks] at hj
    rcases Tasks.set_cases hj with ⟨rfl, heq⟩ | ⟨hjk, hj⟩
    · cases heq
      exact .moved pc0 ok now elapsed ha hk hs' hnext
    · refine .kept (fun ok' now' elapsed' ha' => hjk ?_) hj
      rw [ha] at ha'
      cases ha'
      rfl

/-- A task stays where it is, or it is the one that moves. -/
theorem task_kept {a : Act} (hs : step cfg s a = some s') {j : ℕ} {pc : Pc}
    (hj : s.tasks[j]? = some ⟨w, pc⟩) : s'.tasks[j]? = some ⟨w, pc⟩ ∨
      ∃ ok now elapsed pc', a = .task j ok now elapsed ∧ taskStep cfg s j w ok now elapsed pc = some s' ∧
        pc' ∈ pc.next ∧ s'.tasks[j]? = some ⟨w, pc'⟩ := by
  cases tasks_step hs with
  | same _ htasks =>
    rw [htasks]
    exact .inl hj
  | spawned v pc0 _ _ htasks =>
    rw [htasks]
    exact .inl (Tasks.snoc_old hj)
  | watched v _ _ _ htasks =>
    rw [htasks]
    exact .inl (Tasks.snoc_old (Tasks.snoc_old hj))
  | moved k v pc0 pc' ok now elapsed ha hk hs' hnext htasks =>
    by_cases hjk : j = k
    · subst hjk
      rw [hj] at hk
      cases hk
      refine .inr ⟨ok, now, elapsed, pc', ha, hs', hnext, ?_⟩
      rw [htasks]
      exact Tasks.set_self hj
    · rw [htasks]
      exact .inl (Tasks.set_other hj hjk)

/-- The task that a section has moved is where the section has put it. -/
theorem goto_pc {u : State} {t : Task} {pc pc' : Pc} (hk : s.tasks[k]? = some t) (hu : u.tasks = s.tasks)
    (h : (u.goto k w pc).tasks[k]? = some ⟨w, pc'⟩) : pc = pc' := by
  rw [State.goto, hu, Tasks.set_self hk] at h
  cases h
  rfl

theorem finish_pc {u : State} {t : Task} {pc' : Pc} {locked : Bool} (hk : s.tasks[k]? = some t)
    (hu : u.tasks = s.tasks) (h : (u.finish k w locked).tasks[k]? = some ⟨w, pc'⟩) : pc' = .done := by
  unfold State.finish at h
  split at h
  · exact (goto_pc (u := u.unhold w) hk hu h).symm
  · exact (goto_pc hk hu h).symm

end tasks

/-! ### Launches and engines -/

/-- What a step does to the launch in progress, the issued ids and the
engine processes. -/
inductive EnginesStep (cfg : Settings) (s : State) (a : Act) (s' : State) : Prop
  | same (hl : s'.launching = s.launching) (hi : s'.issued = s.issued) (he : s'.engines = s.engines)
  | begun (profile : PlacementProfile) (gpus : List GpuUuid) (id : WorkerId) (now : Datetime)
      (ha : a = .launch profile gpus id now) (hfree : s.launching = none) (hid : id ∉ s.issued)
      (hl : s'.launching = some (id, .spawning)) (hi : s'.issued = id :: s.issued)
      (he : s'.engines = s.engines)
  | spawned (id : WorkerId) (x : WorkerPlacement) (hlaunch : s.launching = some (id, .spawning))
      (hx : s.worker? id = some x) (hl : s'.launching = some (id, .persisting))
      (hi : s'.issued = s.issued)
      (he : s'.engines = s.engines ++ [{ worker := id, port := x.port, gpuUuids := x.gpuUuids }])
      (hp : s'.processes = s.processes ++ [id])
  /-- `launch` returns or raises. -/
  | ended (id : WorkerId) (phase : LaunchPhase) (hlaunch : s.launching = some (id, phase))
      (hl : s'.launching = none) (hi : s'.issued = s.issued) (he : s'.engines = s.engines)
  | exited (w : WorkerId) (ha : a = .engineExit w) (hl : s'.launching = s.launching)
      (hi : s'.issued = s.issued)
      (he : s'.engines = Table.modify EngineProcess.worker w (fun e => { e with exited := true }) s.engines)

section engines

variable {s s' : State} {k : ℕ} {w : WorkerId} {now : Datetime} {elapsed : ℚ}

theorem finish_frame (u : State) (k : ℕ) (w : WorkerId) (locked : Bool) :
    (u.finish k w locked).launching = u.launching ∧ (u.finish k w locked).issued = u.issued ∧
      (u.finish k w locked).engines = u.engines := by
  unfold State.finish
  split <;> exact ⟨rfl, rfl, rfl⟩

theorem TaskEffect.frame {pc : Pc} (h : TaskEffect cfg s k w now elapsed pc s') :
    s'.launching = s.launching ∧ s'.issued = s.issued ∧ s'.engines = s.engines := by
  cases h with
  | ends | cleaned => exact finish_frame _ k w _
  | _ => exact ⟨rfl, rfl, rfl⟩

theorem engines_step {a : Act} (hs : step cfg s a = some s') : EnginesStep cfg s a s' := by
  cases step_effect hs with
  | registered hl hid => exact .begun _ _ _ _ rfl hl hid rfl rfl rfl
  | logFailed hl | dropped hl | returned hl => exact .ended _ _ hl rfl rfl rfl
  | spawned hl hx => exact .spawned _ _ hl hx rfl rfl rfl rfl
  | exited w => exact .exited w rfl rfl rfl rfl
  | task _ _ he =>
    obtain ⟨hl, hi, heng⟩ := he.frame
    exact .same hl hi heng
  | _ => exact .same rfl rfl rfl

end engines

end Supervisor
end LlmRio
