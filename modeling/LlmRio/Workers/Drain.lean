/-
# A drain is not downgraded

`drain` means that a worker is to be stopped, `sleep` that it is to keep its
weights in host memory. Both make it DRAINING and are told apart by
`_drain_to_sleep` only, so a drain is lost if it meets a sleep: `drain`
returns early on a worker that is DRAINING to sleep, `sleep` accepts a worker
that is DRAINING to stop, and an `_offload` that was waiting for the
transition lock takes a drained worker to SLEEPING.

In a run that keeps the two apart for a worker (`keepsDrain`), a drained
worker is DRAINING towards a stop, STOPPING or COLD for ever
(`drained_step`), and one of its tasks is still to stop it as long as it is
not COLD (`Stopping`), so that it ends COLD (`drain_kept`).

Key definitions: `DrainKept`, `keepsDrain`, `Stopping`, `Drained`.
Key theorems: `intent_step`, `stopping_step`, `drained_step`, `drain_kept`.
-/
import LlmRio.Workers.StateMachine

namespace LlmRio
namespace Supervisor

open Runs

variable {cfg : Settings}

/-- No section of the worker is under way: its tasks have ended or are the
health poll and the watcher of its process. -/
def Quiet (s : State) (w : WorkerId) : Prop :=
  ∀ t ∈ s.tasks, t.worker = w → t.pc ∈ [.done, .polling, .monitoring]

instance (s : State) (w : WorkerId) : Decidable (Quiet s w) :=
  inferInstanceAs (Decidable (∀ t ∈ s.tasks, t.worker = w → t.pc ∈ [.done, .polling, .monitoring]))

/-- What a drain promises of the states after it. -/
def DrainKept (s : State) (w : WorkerId) : Prop :=
  ∃ x, s.worker? w = some x ∧ x.state ≠ .sleeping ∧ x.state ≠ .ready ∧
    (Quiet s w → x.admittedRequestIds = [] → x.state = .cold)

/-- The step keeps drains and sleeps of the worker `w` apart: `drain` is not
called while it is DRAINING to sleep or has an offload waiting, and `sleep`
is not called while it is DRAINING to stop. -/
def keepsDrain (w : WorkerId) (s : State) : Act → Bool
  | .drain v _ =>
    v ≠ w ∨ (s.worker? w).all fun x => x.state ∈ [.stopping, .cold] ∨
      ((x.state = .draining → w ∉ s.drainToSleep) ∧ (⟨w, .offloadEnter⟩ : Task) ∉ s.tasks)
  | .sleep v _ =>
    v ≠ w ∨ (s.worker? w).all fun x => x.state = .draining → w ∈ s.drainToSleep
  | _ => true

variable {s s' : State} {a : Act} {w : WorkerId}

/-! ### The sleep intents -/

theorem mem_sleepIntent {v : WorkerId} :
    v ∈ (s.sleepIntent w).drainToSleep ↔ v ∈ s.drainToSleep ∨ v = w := by
  unfold State.sleepIntent
  by_cases h : w ∈ s.drainToSleep
  · simp only [h, if_true]
    exact ⟨.inl, fun hv => hv.elim id (· ▸ h)⟩
  · simp [h]

theorem mem_noSleepIntent {v : WorkerId} :
    v ∈ (s.noSleepIntent w).drainToSleep ↔ v ∈ s.drainToSleep ∧ v ≠ w := by
  simp [State.noSleepIntent]

theorem drainToSleep_finish (u : State) (k : ℕ) (locked : Bool) :
    (u.finish k w locked).drainToSleep = u.drainToSleep := by
  unfold State.finish
  split <;> rfl

/-- What a step does to the sleep intent of `w`. -/
inductive IntentStep (cfg : Settings) (s : State) (a : Act) (s' : State) (w : WorkerId) : Prop
  | same (h : w ∈ s'.drainToSleep ↔ w ∈ s.drainToSleep)
  | added (h : w ∈ s'.drainToSleep)
      (hc : (∃ now, a = .sleep w now) ∨ ∃ k now elapsed, GoesOn s a k w .offloadEnter now elapsed)
  /-- A drain that found the worker in another state than DRAINING, the end of
  a teardown, or a section that leaves the worker in another state. -/
  | dropped (h : w ∉ s'.drainToSleep)
      (hc : (∀ x, s.worker? w = some x → x.state ≠ .draining) ∨
        (∃ k now elapsed pc, GoesOn s a k w pc now elapsed ∧
          (pc = .stopTail ∨ ∃ locked, pc = .failCleanup locked)) ∨
        ∀ y, s'.worker? w = some y → y.state ≠ .draining)

/-- A section of the worker `v` that only drops its intent. -/
theorem IntentStep.ofDrop {v : WorkerId} (h : s'.drainToSleep = (s.noSleepIntent v).drainToSleep)
    (hc : (∀ x, s.worker? v = some x → x.state ≠ .draining) ∨
        (∃ k now elapsed pc, GoesOn s a k v pc now elapsed ∧
          (pc = .stopTail ∨ ∃ locked, pc = .failCleanup locked)) ∨
        ∀ y, s'.worker? v = some y → y.state ≠ .draining) : IntentStep cfg s a s' w := by
  by_cases hv : w = v
  · subst hv
    refine .dropped ?_ hc
    rw [h, mem_noSleepIntent]
    exact fun hm => hm.2 rfl
  · refine .same ?_
    rw [h, mem_noSleepIntent]
    exact ⟨fun hm => hm.1, fun hm => ⟨hm, hv⟩⟩

/-- A section of the worker `v` that only adds its intent. -/
theorem IntentStep.ofAdd {v : WorkerId} (h : s'.drainToSleep = (s.sleepIntent v).drainToSleep)
    (hc : (∃ now, a = .sleep v now) ∨ ∃ k now elapsed, GoesOn s a k v .offloadEnter now elapsed) :
    IntentStep cfg s a s' w := by
  by_cases hv : w = v
  · subst hv
    refine .added ?_ hc
    rw [h, mem_sleepIntent]
    exact .inr rfl
  · refine .same ?_
    rw [h, mem_sleepIntent]
    exact ⟨fun hm => hm.resolve_right hv, .inl⟩

theorem IntentStep.ofEq (h : s'.drainToSleep = s.drainToSleep) : IntentStep cfg s a s' w :=
  .same (by rw [h])

/-- A worker that the section has changed. -/
theorem worker_modified {u : State} {v : WorkerId} {f : WorkerPlacement → WorkerPlacement}
    (hf : ∀ x : WorkerPlacement, x.id = v → (f x).id = v)
    (hu : u.workers = Table.modify WorkerPlacement.id v f s.workers) :
    u.worker? v = (s.worker? v).map f := by
  unfold State.worker?
  rw [hu, Table.lookup_modify_self hf]

theorem TaskEffect.intent {k : ℕ} {v : WorkerId} {now : Datetime} {elapsed : ℚ} {pc : Pc}
    (h : TaskEffect cfg s k v now elapsed pc s') (hr : GoesOn s a k v pc now elapsed) :
    IntentStep cfg s a s' w := by
  -- an intent that is dropped is that of a worker that the section has just changed
  have hdrop : ∀ {f : WorkerPlacement → WorkerPlacement} {u : State}, (∀ x, (f x).id = x.id) →
      (∀ x, (f x).state ≠ .draining) → u.workers = Table.modify WorkerPlacement.id v f s.workers →
        u.drainToSleep = (s.noSleepIntent v).drainToSleep → IntentStep cfg s a u w := by
    intro f u hid hf hu hd
    refine .ofDrop (v := v) hd (.inr (.inr fun y hy => ?_))
    rw [worker_modified (fun x hx => (hid x).trans hx) hu] at hy
    obtain ⟨x, -, rfl⟩ := Option.map_eq_some_iff.mp hy
    exact hf x
  cases h with
  | ends => exact .ofEq (drainToSleep_finish s k _)
  | cleaned _ hpc =>
    refine .ofDrop (v := v) (drainToSleep_finish _ k _) (.inr (.inl ⟨k, now, elapsed, _, hr, hpc⟩))
  | failed => exact hdrop (f := (·.failed)) (fun _ => rfl) (fun _ => by simp [WorkerPlacement.failed]) rfl rfl
  | stopped => exact hdrop (f := (·.stopped)) (fun _ => rfl) (fun _ => by simp [WorkerPlacement.stopped]) rfl rfl
  | offloading =>
    exact hdrop (f := (·.offloading)) (fun _ => rfl) (fun _ => by simp [WorkerPlacement.offloading]) rfl rfl
  | draining => exact .ofAdd (v := v) rfl (.inr ⟨k, now, elapsed, hr⟩)
  | goes | loaded | pidCleared | asleep | waking | awake | stopping => exact .ofEq rfl

/-- What a step can do to the sleep intents. -/
theorem intent_step (hs : step cfg s a = some s') (w : WorkerId) : IntentStep cfg s a s' w := by
  cases step_effect hs with
  | @dropped _ id _ hl ha =>
    refine .ofDrop (v := id) rfl (.inr (.inr fun y hy => ?_))
    obtain ⟨hmem, hid⟩ := Table.lookup_some hy
    exact absurd hid (by simpa using (List.mem_filter.mp hmem).2)
  | @drained _ v _ _ _ hstate | @drainedEmpty _ v _ _ _ hstate =>
    refine .ofDrop (v := v) rfl (.inl fun x hx hd => hstate x hx ?_)
    simp [hd]
  | @drainedToSleep v now | @sentToSleep v now => exact .ofAdd (v := v) rfl (.inl ⟨now, rfl⟩)
  | task hk _ he => exact he.intent ⟨⟨_, rfl⟩, hk⟩
  | registered | logFailed | spawned | returned | exited | admitted | released | lastReleased | ignored | spawns =>
    exact .ofEq rfl

/-! ### A worker that is to be stopped -/

/-- The worker is COLD at this point of its task. -/
def Pc.ended (pc : Pc) : Prop :=
  (∃ locked handle, pc = .failKill locked handle) ∨ (∃ locked, pc = .failTail locked) ∨
    (∃ locked, pc = .failCleanup locked) ∨ pc = .stopTail

/-- `_stop` waits for the process, or has seen it exit. -/
def Pc.stopping (pc : Pc) : Prop := (∃ handle, pc = .stopKill handle) ∨ pc = .stopFinish

/-- The worker is DRAINING, as `x` says, and is to be stopped. -/
def ToStop (s : State) (w : WorkerId) (x : WorkerPlacement) : Prop :=
  s.worker? w = some x ∧ x.state = .draining ∧ w ∉ s.drainToSleep

/-- Where the tasks of the worker are, as its state goes towards COLD. -/
structure Stopping (s : State) (w : WorkerId) : Prop where
  registered : Registered s
  ended : ∀ (k : ℕ) (pc : Pc), s.tasks[k]? = some ⟨w, pc⟩ → pc.ended →
    ∃ x, s.worker? w = some x ∧ x.state = .cold
  stops : ∀ (k : ℕ) (pc : Pc), s.tasks[k]? = some ⟨w, pc⟩ → pc.stopping →
    ∃ x, s.worker? w = some x ∧ x.state ∈ [.stopping, .cold]
  stopped : ∀ x, s.worker? w = some x → x.state = .stopping →
    ∃ (k : ℕ) (pc : Pc), s.tasks[k]? = some ⟨w, pc⟩ ∧ pc.stopping
  noOffload : ∀ x, ToStop s w x → ∀ k : ℕ, s.tasks[k]? ≠ some ⟨w, .offloadEnter⟩
  pending : ∀ x, ToStop s w x → x.admittedRequestIds = [] →
    ∃ (k : ℕ) (force : Bool), s.tasks[k]? = some ⟨w, .stopEnter force⟩

theorem stopping_start : Stopping start w := by
  refine ⟨registered_start, ?_, ?_, ?_, ?_, ?_⟩ <;> simp [start, ToStop, State.worker?]

theorem Change.stops {x y : WorkerPlacement} (hc : Change cfg s a w x y)
    (hx : x.state ∈ [.stopping, .cold]) : y.state ∈ [.stopping, .cold] := by
  cases hc with
  | spawned | pidCleared | released => exact hx
  | failed | stopped | stopping => simp [WorkerPlacement.failed, WorkerPlacement.stopped, WorkerPlacement.stopping]
  | drainingToSleep _ _ hc => rcases hc with ⟨-, hs⟩ | ⟨_, _, -, -, hs⟩ <;> simp_all
  | drained _ _ _ hs | offloading _ _ _ hs => simp_all
  | loaded _ _ hs | admitted _ _ hs | asleep _ _ hs | waking _ _ _ hs | awake _ _ hs => simp [hs] at hx

/-- A worker that is registered and not LOADING is not dropped. -/
theorem worker_stays (hr : Registered s) (hs : step cfg s a = some s') {x : WorkerPlacement}
    (hx : s.worker? w = some x) (hload : x.state ≠ .loading) :
    ∃ y, s'.worker? w = some y ∧ (y = x ∨ Change cfg s a w x y) := by
  cases worker_step hr hs w with
  | same heq => exact ⟨x, by rw [heq, hx], .inl rfl⟩
  | change x' y hx' hy hc =>
    rw [hx] at hx'
    cases hx'
    exact ⟨y, hy, .inr hc⟩
  | launched _ _ _ _ _ _ _ hnone _ =>
    rw [hx] at hnone
    cases hnone
  | dropped phase _ hl _ _ =>
    obtain ⟨x', hx', hload', -⟩ := hr.launching w phase hl
    rw [hx] at hx'
    cases hx'
    exact absurd hload' hload

theorem stops_kept (hr : Registered s) (hs : step cfg s a = some s')
    (h : ∃ x, s.worker? w = some x ∧ x.state ∈ [.stopping, .cold]) :
    ∃ x, s'.worker? w = some x ∧ x.state ∈ [.stopping, .cold] := by
  obtain ⟨x, hx, hstate⟩ := h
  obtain ⟨y, hy, hxy⟩ := worker_stays hr hs hx (by rintro hl; simp [hl] at hstate)
  refine ⟨y, hy, ?_⟩
  rcases hxy with rfl | hc
  · exact hstate
  · exact hc.stops hstate

/-- The task that enters `_fail` has set the worker to COLD. -/
theorem fail_entered {k : ℕ} {locked l hdl : Bool} (hk : s.tasks[k]? = some ⟨w, .failBegin locked⟩)
    (h : (failSection s k w locked).tasks[k]? = some ⟨w, .failKill l hdl⟩) :
    ∃ x, (failSection s k w locked).worker? w = some x ∧ x.state = .cold := by
  unfold failSection at h ⊢
  split at h
  · rename_i hany
    rw [if_pos hany]
    obtain ⟨x, hx, -⟩ := Option.any_eq_true _ _ |>.mp hany
    refine ⟨x.failed, ?_, rfl⟩
    rw [worker_modified (s := s) (f := (·.failed)) (fun _ h => h) rfl, hx]
    rfl
  · cases finish_pc hk rfl h

/-- The task that enters `_stop` has set the worker to STOPPING. -/
theorem stop_entered {k : ℕ} {force hdl : Bool} (hk : s.tasks[k]? = some ⟨w, .stopEnter force⟩)
    (h : (stopSection s k w force).tasks[k]? = some ⟨w, .stopKill hdl⟩) :
    ∃ x, (stopSection s k w force).worker? w = some x ∧ x.state = .stopping := by
  unfold stopSection at h ⊢
  split at h
  · cases goto_pc hk rfl h
  · rename_i x hx
    split at h
    · cases goto_pc hk rfl h
    · rename_i hcold
      split at h
      · cases goto_pc hk rfl h
      · rename_i hadm
        rw [if_neg hcold, if_neg hadm]
        refine ⟨x.stopping, ?_, rfl⟩
        rw [worker_modified (s := s) (f := (·.stopping)) (fun _ h => h) rfl, hx]
        rfl

/-- `_stop` enters a worker that is not COLD if it is idle or forced. -/
theorem stop_enters {k : ℕ} {force : Bool} {x : WorkerPlacement} (hx : s.worker? w = some x)
    (hcold : x.state ≠ .cold) (hadm : x.admittedRequestIds = [] ∨ force = true) :
    stopSection s k w force = ((s.modify w (·.stopping)).hold w k).goto k w (.stopKill (w ∈ s.processes)) := by
  have hnot : ¬ (x.admittedRequestIds ≠ [] ∧ ¬ force = true) := by
    rintro ⟨hne, hforce⟩
    exact hadm.elim hne hforce
  unfold stopSection
  rw [hx]
  simp only [hcold, if_false, hnot]

theorem ended_step (h : Stopping s w) (hs : step cfg s a = some s') :
    ∀ (k : ℕ) (pc : Pc), s'.tasks[k]? = some ⟨w, pc⟩ → pc.ended → ∃ x, s'.worker? w = some x ∧ x.state = .cold := by
  intro k pc hk hpc
  cases task_origin hs hk with
  | kept _ hk => exact cold_step h.registered (h.ended k pc hk hpc) hs
  | fresh _ hpc' =>
    rcases hpc' with ⟨rfl, -⟩ | rfl | ⟨_, rfl⟩ | rfl | rfl <;> simp [Pc.ended] at hpc
  | moved pc0 ok now elapsed ha hk0 hs' hnext =>
    cases pc0 with
    | failBegin locked =>
      simp only [taskStep, Option.ite_none_right_eq_some, Option.some.injEq] at hs'
      obtain ⟨-, rfl⟩ := hs'
      simp only [Pc.next, List.mem_cons, List.not_mem_nil, or_false] at hnext
      rcases hnext with rfl | rfl | rfl
      · exact fail_entered hk0 hk
      · exact fail_entered hk0 hk
      · simp [Pc.ended] at hpc
    | failKill | failTail =>
      exact cold_step h.registered (h.ended k _ hk0 (by simp [Pc.ended])) hs
    | stopFinish =>
      simp only [taskStep, Option.ite_none_right_eq_some, Option.some.injEq] at hs'
      obtain ⟨-, rfl⟩ := hs'
      obtain ⟨x, hx, -⟩ := h.stops k _ hk0 (.inr rfl)
      refine ⟨x.stopped, ?_, rfl⟩
      rw [worker_modified (s := s) (f := (·.stopped)) (fun _ h => h) rfl, hx]
      rfl
    | _ =>
      -- leads to no point past COLD
      exfalso
      rcases hpc with ⟨_, _, rfl⟩ | ⟨_, rfl⟩ | ⟨_, rfl⟩ | rfl <;> simp [Pc.next] at hnext

theorem stops_step (h : Stopping s w) (hs : step cfg s a = some s') :
    ∀ (k : ℕ) (pc : Pc), s'.tasks[k]? = some ⟨w, pc⟩ → pc.stopping →
      ∃ x, s'.worker? w = some x ∧ x.state ∈ [.stopping, .cold] := by
  intro k pc hk hpc
  cases task_origin hs hk with
  | kept _ hk => exact stops_kept h.registered hs (h.stops k pc hk hpc)
  | fresh _ hpc' =>
    rcases hpc' with ⟨rfl, -⟩ | rfl | ⟨_, rfl⟩ | rfl | rfl <;> simp [Pc.stopping] at hpc
  | moved pc0 ok now elapsed ha hk0 hs' hnext =>
    rcases hpc with ⟨hdl, rfl⟩ | rfl
    · obtain ⟨force, rfl⟩ : ∃ force, pc0 = .stopEnter force := by
        cases pc0 <;> simp [Pc.next] at hnext ⊢
      simp only [taskStep, Option.ite_none_right_eq_some, Option.some.injEq] at hs'
      obtain ⟨-, rfl⟩ := hs'
      obtain ⟨x, hx, hstate⟩ := stop_entered hk0 hk
      exact ⟨x, hx, by simp [hstate]⟩
    · obtain ⟨hdl, rfl⟩ : ∃ hdl, pc0 = .stopKill hdl := by
        cases pc0 <;> simp [Pc.next] at hnext ⊢
      exact stops_kept h.registered hs (h.stops k _ hk0 (.inl ⟨hdl, rfl⟩))

theorem stopped_step (h : Stopping s w) (hs : step cfg s a = some s') :
    ∀ x, s'.worker? w = some x → x.state = .stopping →
      ∃ (k : ℕ) (pc : Pc), s'.tasks[k]? = some ⟨w, pc⟩ ∧ pc.stopping := by
  intro y hy hstate
  -- the worker was STOPPING before
  have hold : (∃ x, s.worker? w = some x ∧ x.state = .stopping) →
      ∃ (k : ℕ) (pc : Pc), s'.tasks[k]? = some ⟨w, pc⟩ ∧ pc.stopping := by
    rintro ⟨x, hx, hx'⟩
    obtain ⟨k, pc, hk, hpc⟩ := h.stopped x hx hx'
    rcases task_kept hs hk with hk' | ⟨ok, now, elapsed, pc', -, hs', hnext, hk'⟩
    · exact ⟨k, pc, hk', hpc⟩
    · rcases hpc with ⟨hdl, rfl⟩ | rfl
      · simp only [Pc.next, List.mem_singleton] at hnext
        exact ⟨k, pc', hk', .inr hnext⟩
      · -- the end of `_stop` makes the worker COLD
        simp only [taskStep, Option.ite_none_right_eq_some, Option.some.injEq] at hs'
        obtain ⟨-, rfl⟩ := hs'
        rw [worker_modified (s := s) (f := (·.stopped)) (fun _ h => h) rfl, hx] at hy
        cases hy
        cases hstate
  cases worker_step h.registered hs w with
  | same heq => exact hold ⟨y, heq ▸ hy, hstate⟩
  | launched _ _ _ _ _ _ _ _ hz =>
    rw [hy] at hz
    cases hz
    cases hstate
  | dropped _ _ _ _ hz =>
    rw [hy] at hz
    cases hz
  | change x z hx hz hc =>
    rw [hy] at hz
    cases hz
    cases hc with
    | spawned | pidCleared | released | admitted => exact hold ⟨x, hx, hstate⟩
    | @stopping k now elapsed force _ hr ht hcold hadm =>
      obtain ⟨⟨ok, rfl⟩, hk⟩ := hr
      simp only [step, hk, taskStep, Option.ite_none_right_eq_some, Option.some.injEq] at hs
      obtain ⟨-, rfl⟩ := hs
      rw [stop_enters hx hcold hadm]
      exact ⟨k, _, Tasks.set_self hk, .inl ⟨_, rfl⟩⟩
    | _ => cases hstate

/-! ### DRAINING towards a stop -/

variable {x y : WorkerPlacement}

/-- A request that a sleep finds on a worker leaves a sleep intent. -/
theorem drainingToSleep_intent (hram : cfg.ramWeightCacheEnabled = true) (hs : step cfg s a = some s')
    (hx : s.worker? w = some x) {now : Datetime}
    (hc : (a = .sleep w now ∧ x.state ∉ [.cold, .offloading, .sleeping, .waking, .stopping, .loading]) ∨
      ∃ k elapsed, GoesOn s a k w .offloadEnter now elapsed ∧ s.transition w = none ∧
        x.state ∉ [.cold, .sleeping, .stopping])
    (hadm : x.admittedRequestIds ≠ []) : w ∈ s'.drainToSleep := by
  rcases hc with ⟨rfl, hstate⟩ | ⟨k, elapsed, ⟨⟨ok, rfl⟩, hk⟩, -, hstate⟩
  · simp only [step, Option.ite_none_right_eq_some, Option.some.injEq] at hs
    obtain ⟨-, rfl⟩ := hs
    unfold sleepSection
    simp only [hram, not_true_eq_false, if_false, hx, hstate, hadm, ne_eq, not_false_eq_true, if_true]
    exact mem_sleepIntent.mpr (.inr rfl)
  · simp only [step, hk, taskStep, Option.ite_none_right_eq_some, Option.some.injEq] at hs
    obtain ⟨-, rfl⟩ := hs
    unfold offloadSection
    simp only [hx, hstate, if_false, hadm, ne_eq, not_false_eq_true, if_true]
    exact mem_sleepIntent.mpr (.inr rfl)

/-- A worker that is DRAINING towards a stop was so before, or is drained by
this step. -/
theorem toStop_origin (hram : cfg.ramWeightCacheEnabled = true) (h : Stopping s w)
    (hs : step cfg s a = some s') (hy : ToStop s' w y) :
    (∃ x, ToStop s w x ∧ (y = x ∨ Change cfg s a w x y)) ∨
      ∃ now x, a = .drain w now ∧ s.worker? w = some x ∧ x.state ∉ [.draining, .stopping, .cold] := by
  obtain ⟨hy, hstate, hnot⟩ := hy
  -- a sleep intent of a DRAINING worker is not dropped
  have hintent : ∀ x, s.worker? w = some x → x.state = .draining → w ∉ s.drainToSleep := by
    intro x hx hx' hin
    cases intent_step hs w with
    | same heq => exact hnot (heq.mpr hin)
    | added hin' => exact hnot hin'
    | dropped _ hc =>
      rcases hc with hc | ⟨k, now, elapsed, pc, ⟨-, hk⟩, hpc⟩ | hc
      · exact hc x hx hx'
      · obtain ⟨z, hz, hcold⟩ := h.ended k pc hk (by
          rcases hpc with rfl | ⟨l, rfl⟩
          · exact .inr (.inr (.inr rfl))
          · exact .inr (.inr (.inl ⟨l, rfl⟩)))
        rw [hx] at hz
        cases hz
        rw [hx'] at hcold
        cases hcold
      · exact hc y hy hstate
  cases worker_step h.registered hs w with
  | same heq =>
    have hx : s.worker? w = some y := heq ▸ hy
    exact .inl ⟨y, ⟨hx, hstate, hintent y hx hstate⟩, .inl rfl⟩
  | launched _ _ _ _ _ _ _ _ hz =>
    rw [hy] at hz
    cases hz
    cases hstate
  | dropped _ _ _ _ hz =>
    rw [hy] at hz
    cases hz
  | change x z hx hz hc =>
    rw [hy] at hz
    cases hz
    by_cases hx' : x.state = .draining
    · exact .inl ⟨x, ⟨hx, hx', hintent x hx hx'⟩, .inr hc⟩
    · cases hc with
      | spawned | pidCleared | released | admitted => exact absurd hstate hx'
      | drainingToSleep now _ hc hadm => exact absurd (drainingToSleep_intent hram hs hx hc hadm) hnot
      | drained now _ hc hx' =>
        rcases hc with rfl | ⟨hoff, -⟩
        · exact .inr ⟨now, x, rfl, hx, hx'⟩
        · rw [hram] at hoff
          cases hoff
      | _ => cases hstate

/-- Offloads are started by a sleep, or by a release on a worker that is to
sleep. -/
theorem offload_started (hs : step cfg s a = some s') {k : ℕ}
    (hk : s'.tasks[k]? = some ⟨w, .offloadEnter⟩) :
    s.tasks[k]? = some ⟨w, .offloadEnter⟩ ∨ (∃ now, a = .sleep w now) ∨ w ∈ s.drainToSleep := by
  cases task_origin hs hk with
  | kept _ hk => exact .inl hk
  | fresh _ hpc =>
    rcases hpc with ⟨-, hc⟩ | hc | ⟨_, hc⟩ | hc | hc
    · exact .inr hc
    all_goals cases hc
  | moved pc0 _ _ _ _ _ _ hnext => cases pc0 <;> simp [Pc.next] at hnext

/-- The step of a drain that has an effect. -/
theorem drain_effect {now : Datetime} (hs : step cfg s (.drain w now) = some s') (hx : s.worker? w = some x)
    (hstate : x.state ∉ [.draining, .stopping, .cold]) :
    s'.worker? w = some (x.draining now) ∧
      s'.tasks = if x.admittedRequestIds = [] then s.tasks ++ [⟨w, .stopEnter false⟩] else s.tasks := by
  simp only [step, Option.ite_none_right_eq_some, Option.some.injEq] at hs
  obtain ⟨-, rfl⟩ := hs
  unfold drainSection
  simp only [hx, hstate, if_false]
  constructor
  · rw [worker_modified (s := s) (v := w) (f := (·.draining now)) (fun _ h => h) (by split <;> rfl), hx]
    rfl
  · split <;> rfl

theorem keepsDrain_sleep {now : Datetime} (ha : keepsDrain w s (.sleep w now) = true)
    (hx : ToStop s w x) : False := by
  obtain ⟨hx, hstate, hnot⟩ := hx
  simp [keepsDrain, hx, hstate, hnot] at ha

theorem noOffload_step (hram : cfg.ramWeightCacheEnabled = true) (h : Stopping s w)
    (ha : keepsDrain w s a = true) (hs : step cfg s a = some s') :
    ∀ x, ToStop s' w x → ∀ k : ℕ, s'.tasks[k]? ≠ some ⟨w, .offloadEnter⟩ := by
  intro y hy k hk
  rcases toStop_origin hram h hs hy with ⟨x, hx, -⟩ | ⟨now, x, rfl, hx, hstate⟩
  · rcases offload_started hs hk with hk | ⟨now, rfl⟩ | hin
    · exact h.noOffload x hx k hk
    · exact keepsDrain_sleep ha hx
    · exact hx.2.2 hin
  · have hno : (⟨w, .offloadEnter⟩ : Task) ∉ s.tasks := by
      simp only [keepsDrain, hx, ne_eq, not_true_eq_false, Option.all_some, false_or, decide_eq_true_eq] at ha
      rcases ha with ha | ⟨-, hno⟩
      · simp only [List.mem_cons, List.not_mem_nil, or_false, not_or] at hstate ha
        exact (ha.elim hstate.2.1 hstate.2.2).elim
      · exact hno
    obtain ⟨-, htasks⟩ := drain_effect hs hx hstate
    rw [htasks] at hk
    split at hk
    · rcases Tasks.snoc_cases hk with ⟨-, heq⟩ | hk
      · cases heq
      · exact hno (List.mem_of_getElem? hk)
    · exact hno (List.mem_of_getElem? hk)

/-- The release that makes a DRAINING worker idle starts its stop. -/
theorem release_stops {r : RequestId} {e : ℤ} {now : Datetime} (hs : step cfg s (.release w r e now) = some s')
    (hx : ToStop s w x) (hadm : (x.release r e now).admittedRequestIds = []) :
    s'.tasks[s.tasks.length]? = some ⟨w, .stopEnter false⟩ := by
  obtain ⟨hx, hstate, hnot⟩ := hx
  simp only [step, Option.ite_none_right_eq_some, Option.some.injEq] at hs
  obtain ⟨-, rfl⟩ := hs
  unfold releaseSection
  simp only [hx, hstate, hadm, and_self, if_true, hnot, if_false]
  exact Tasks.snoc_new

theorem pending_step (hram : cfg.ramWeightCacheEnabled = true) (h : Stopping s w)
    (hs : step cfg s a = some s') : ∀ x, ToStop s' w x → x.admittedRequestIds = [] →
      ∃ (k : ℕ) (force : Bool), s'.tasks[k]? = some ⟨w, .stopEnter force⟩ := by
  intro y hy hadm
  rcases toStop_origin hram h hs hy with ⟨x, hx, hxy⟩ | ⟨now, x, rfl, hx, hstate⟩
  · by_cases hidle : x.admittedRequestIds = []
    · -- a stop was under way, and it has not entered
      obtain ⟨k, force, hk⟩ := h.pending x hx hidle
      rcases task_kept hs hk with hk' | ⟨ok, now, elapsed, pc', -, hs', -, -⟩
      · exact ⟨k, force, hk'⟩
      · simp only [taskStep, Option.ite_none_right_eq_some, Option.some.injEq] at hs'
        obtain ⟨-, rfl⟩ := hs'
        have hcold : x.state ≠ .cold := by simp [hx.2.1]
        have hy' := hy.1
        rw [stop_enters hx.1 hcold (.inl hidle),
          worker_modified (s := s) (f := (·.stopping)) (fun _ h => h) rfl, hx.1] at hy'
        cases hy'
        cases hy.2.1
    · -- the last request is released
      have hc : Change cfg s a w x y := by
        rcases hxy with rfl | hc
        · exact absurd hadm hidle
        · exact hc
      cases hc with
      | spawned | pidCleared | drainingToSleep | drained => exact absurd hadm hidle
      | released _ ha =>
        subst ha
        exact ⟨_, false, release_stops hs hx hadm⟩
      | admitted _ _ hready =>
        rw [hx.2.1] at hready
        cases hready
      | _ => cases hy.2.1
  · obtain ⟨hy', htasks⟩ := drain_effect hs hx hstate
    rw [hy.1] at hy'
    cases hy'
    have hidle : x.admittedRequestIds = [] := hadm
    rw [htasks, if_pos hidle]
    exact ⟨s.tasks.length, false, Tasks.snoc_new⟩

theorem stopping_step (hram : cfg.ramWeightCacheEnabled = true) (h : Stopping s w)
    (ha : keepsDrain w s a = true) (hs : step cfg s a = some s') : Stopping s' w :=
  ⟨registered_step h.registered hs, ended_step h hs, stops_step h hs, stopped_step h hs,
    noOffload_step hram h ha hs, pending_step hram h hs⟩

/-! ### After the drain -/

/-- The worker is on its way to COLD, or there. -/
def Drained (s : State) (w : WorkerId) : Prop :=
  ∃ x, ToStop s w x ∨ (s.worker? w = some x ∧ x.state ∈ [.stopping, .cold])

/-- A worker that is DRAINING towards a stop, and has no offload waiting, goes
no other way. -/
theorem toStop_step (h : Stopping s w) (ha : keepsDrain w s a = true) (hs : step cfg s a = some s')
    (hx : ToStop s w x) : Drained s' w := by
  have hnot : w ∉ s'.drainToSleep := by
    cases intent_step hs w with
    | same heq => exact fun hin => hx.2.2 (heq.mp hin)
    | dropped hnot => exact hnot
    | added _ hc =>
      rcases hc with ⟨now, rfl⟩ | ⟨k, now, elapsed, -, hk⟩
      · exact (keepsDrain_sleep ha hx).elim
      · exact absurd hk (h.noOffload x hx k)
  obtain ⟨y, hy, hxy⟩ := worker_stays h.registered hs hx.1 (by simp [hx.2.1])
  refine ⟨y, ?_⟩
  rcases hxy with rfl | hc
  · exact .inl ⟨hy, hx.2.1, hnot⟩
  · cases hc with
    | spawned | pidCleared | released => exact .inl ⟨hy, hx.2.1, hnot⟩
    | drainingToSleep => exact .inl ⟨hy, rfl, hnot⟩
    | failed | stopped | stopping =>
      refine .inr ⟨hy, ?_⟩
      simp [WorkerPlacement.failed, WorkerPlacement.stopped, WorkerPlacement.stopping]
    | drained _ _ _ hstate => simp [hx.2.1] at hstate
    | offloading _ hr => exact absurd hr.2 (h.noOffload x hx _)
    | loaded _ _ hstate | admitted _ _ hstate | asleep _ _ hstate | waking _ _ _ hstate
    | awake _ _ hstate =>
      rw [hx.2.1] at hstate
      cases hstate

theorem drained_step (h : Stopping s w) (hd : Drained s w) (ha : keepsDrain w s a = true)
    (hs : step cfg s a = some s') : Drained s' w := by
  obtain ⟨x, hx | hx⟩ := hd
  · exact toStop_step h ha hs hx
  · obtain ⟨y, hy⟩ := stops_kept h.registered hs ⟨x, hx⟩
    exact ⟨y, .inr hy⟩

/-- The drain itself. -/
theorem drain_drained {now : Datetime} (h : Stopping s w) (ha : keepsDrain w s (.drain w now) = true)
    (hs : step cfg s (.drain w now) = some s') (hx : s.worker? w = some x) : Drained s' w := by
  by_cases hstate : x.state ∈ [.draining, .stopping, .cold]
  · -- `drain` returns early
    refine drained_step h ?_ ha hs
    by_cases hd : x.state = .draining
    · refine ⟨x, .inl ⟨hx, hd, ?_⟩⟩
      simp only [keepsDrain, hx, hd, ne_eq, not_true_eq_false, Option.all_some, false_or, decide_eq_true_eq] at ha
      rcases ha with ha | ⟨hnot, -⟩
      · simp at ha
      · exact hnot trivial
    · exact ⟨x, .inr ⟨hx, by simpa [hd] using hstate⟩⟩
  · obtain ⟨hy, -⟩ := drain_effect hs hx hstate
    refine ⟨_, .inl ⟨hy, rfl, ?_⟩⟩
    simp only [step, Option.ite_none_right_eq_some, Option.some.injEq] at hs
    obtain ⟨-, rfl⟩ := hs
    have hnot : w ∉ (s.noSleepIntent w).drainToSleep := fun hin => (mem_noSleepIntent.mp hin).2 rfl
    unfold drainSection
    simp only [hx, hstate, if_false]
    split <;> exact hnot

/-- A drained worker is not at rest before it is COLD. -/
theorem Drained.kept (hd : Drained s w) (h : Stopping s w) : DrainKept s w := by
  obtain ⟨x, hx | ⟨hx, hstate⟩⟩ := hd
  · refine ⟨x, hx.1, by simp [hx.2.1], by simp [hx.2.1], fun hq hadm => ?_⟩
    obtain ⟨k, force, hk⟩ := h.pending x hx hadm
    have hpc := hq _ (List.mem_of_getElem? hk) rfl
    simp at hpc
  · refine ⟨x, hx, ?_, ?_, fun hq _ => ?_⟩
    · rintro heq
      simp [heq] at hstate
    · rintro heq
      simp [heq] at hstate
    · by_contra hcold
      have hstop : x.state = .stopping := by simpa [hcold] using hstate
      obtain ⟨k, pc, hk, hpc⟩ := h.stopped x hx hstop
      have hpc' := hq _ (List.mem_of_getElem? hk) rfl
      rcases hpc with ⟨hdl, rfl⟩ | rfl <;> simp at hpc'

/-- **A drain is not downgraded**, in every run that keeps the drains and the
sleeps of the worker apart. -/
theorem drain_kept (cfg : Settings) (hram : cfg.ramWeightCacheEnabled = true) (w : WorkerId)
    (pre post : List Act) (now : Datetime) (u t : State)
    (hu : exec (restrict (step cfg) fun s a => keepsDrain w s a = true) start pre = some u)
    (hw : (u.worker? w).isSome)
    (ht : exec (restrict (step cfg) fun s a => keepsDrain w s a = true) u (.drain w now :: post) = some t) :
    DrainKept t w := by
  have hstop : Stopping u w := by
    refine exec_invariant (I := fun s => Stopping s w) (fun _ _ _ hi hs => ?_) stopping_start hu
    obtain ⟨ha, hs⟩ := restrict_eq_some.mp hs
    exact stopping_step hram hi ha hs
  obtain ⟨x, hx⟩ := Option.isSome_iff_exists.mp hw
  obtain ⟨v, hv, hrest⟩ := (exec_cons _).mp ht
  obtain ⟨ha, hv⟩ := restrict_eq_some.mp hv
  have hv' : Stopping v w ∧ Drained v w := ⟨stopping_step hram hstop ha hv, drain_drained hstop ha hv hx⟩
  have ht' : Stopping t w ∧ Drained t w := by
    refine exec_invariant (I := fun s => Stopping s w ∧ Drained s w) (fun _ _ _ hi hs => ?_) hv' hrest
    obtain ⟨ha, hs⟩ := restrict_eq_some.mp hs
    exact ⟨stopping_step hram hi.1 ha hs, drained_step hi.1 hi.2 ha hs⟩
  exact ht'.2.kept ht'.1

/-- A worker that serves a request. -/
def servingRun : List Act :=
  [.launch (oneGpu "kvcached") ["gpu"] "w" 0, .launchSpawned 1, .launchDone, .task 0 true 1 0,
    .admitRequest "w" "r" 10 2]

/-- Its request ends, `_stop` enters, the engine exits, and `_stop` ends. -/
def stoppedRun : List Act :=
  [.release "w" "r" 10 4, .task 2 true 5 0, .engineExit "w", .task 2 true 6 0, .task 2 true 7 0, .task 2 true 8 0]

theorem drain_kept_serving :
    ∃ u t, exec (restrict (step { kvcachedEnabled := true }) fun s a => keepsDrain "w" s a = true) start
        servingRun = some u ∧
      exec (restrict (step { kvcachedEnabled := true }) fun s a => keepsDrain "w" s a = true) u
        (.drain "w" 3 :: stoppedRun) = some t ∧ DrainKept t "w" :=
  ⟨_, _, rfl, rfl, drain_kept { kvcachedEnabled := true } rfl "w" servingRun stoppedRun 3 _ _ rfl rfl rfl⟩

/-- The offload that the last release starts, to its end. -/
def offloadedRun : List Act :=
  [.release "w" "r" 10 4, .task 2 true 5 0, .task 2 true 6 0, .task 2 true 7 1, .task 2 true 8 0]

/-- A drain of a worker that is DRAINING to sleep is lost: the worker comes to
rest in SLEEPING. -/
theorem drain_downgraded :
    ∃ u t, exec (step { kvcachedEnabled := true }) start (servingRun ++ [.sleep "w" 2]) = some u ∧
      (u.worker? "w").any (·.state ≠ .cold) = true ∧
      exec (step { kvcachedEnabled := true }) u (.drain "w" 3 :: offloadedRun) = some t ∧
      (t.worker? "w").map (·.state) = some .sleeping ∧ Quiet t "w" ∧ ¬ DrainKept t "w" := by
  refine ⟨_, _, rfl, rfl, rfl, rfl, of_decide_eq_true rfl, ?_⟩
  rintro ⟨x, hx, hsleep, -⟩
  cases hx
  exact hsleep rfl

end Supervisor
end LlmRio
