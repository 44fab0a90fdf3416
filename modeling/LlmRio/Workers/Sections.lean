/-
# What a section leaves

A section of a task, or a call, either finds nothing to do and goes on, or it
makes one change. `TaskEffect` and `Effect` list what can be left, each with
what the section has checked before: `s` is taken over as it was, but for the
worker, the locks, the intents and the tasks that the state on the right
names. What happens to a table of the supervisor is then a matter of cases,
and no section is unfolded for it.

Key definitions: `Pc.next`, `TaskEffect`, `Effect`.
Key theorems: `taskStep_effect`, `step_effect`.
-/
import LlmRio.Workers.Supervisor

namespace LlmRio
namespace Supervisor

/-- Where a task can be after its next step. -/
def Pc.next : Pc → List Pc
  | .polling | .monitoring => [.failBegin false, .done]
  | .failBegin locked => [.failKill locked true, .failKill locked false, .done]
  | .failKill locked _ => [.failTail locked]
  | .failTail locked => [.failCleanup locked]
  | .failCleanup _ => [.done]
  | .offloadEnter => [.offloadPost, .done]
  | .offloadPost => [.offloadFinish, .failBegin true]
  | .offloadFinish => [.offloadTail, .done]
  | .wakeEnter => [.wakePost, .done]
  | .wakePost => [.wakeFinish, .failBegin true]
  | .wakeFinish => [.wakeTail, .done]
  | .stopEnter _ => [.stopKill true, .stopKill false, .done]
  | .stopKill _ => [.stopFinish]
  | .stopFinish => [.stopTail]
  | .offloadTail | .wakeTail | .stopTail => [.done]
  | .done => []

/-- What task `k` of the worker `w` leaves when it goes on from a point. -/
inductive TaskEffect (cfg : Settings) (s : State) (k : ℕ) (w : WorkerId) (now : Datetime) (elapsed : ℚ) :
    Pc → State → Prop
  | goes {pc pc' : Pc} (hnext : pc' ∈ pc.next) (hholds : pc'.holds = pc.holds) :
      TaskEffect cfg s k w now elapsed pc (s.goto k w pc')
  | ends (pc : Pc) (hnext : .done ∈ pc.next) : TaskEffect cfg s k w now elapsed pc (s.finish k w pc.holds)
  | cleaned (pc : Pc) (hpc : pc = .stopTail ∨ ∃ locked, pc = .failCleanup locked) :
      TaskEffect cfg s k w now elapsed pc ((s.cleanup w).finish k w pc.holds)
  | loaded (hl : s.launching = none) (hs : ∀ x, s.worker? w = some x → x.state = .loading) :
      TaskEffect cfg s k w now elapsed .polling ((s.modify w (·.loaded now)).goto k w .done)
  | failed {locked : Bool} (hl : s.launching = none) (hs : ∀ x, s.worker? w = some x → x.state ≠ .cold) :
      TaskEffect cfg s k w now elapsed (.failBegin locked)
        (((s.noSleepIntent w).modify w (·.failed)).goto k w (.failKill locked (w ∈ s.processes)))
  | pidCleared {locked : Bool} (hl : s.launching = none) :
      TaskEffect cfg s k w now elapsed (.failTail locked)
        ((s.modify w fun x => { x with processPid := none }).goto k w (.failCleanup locked))
  | draining (hl : s.launching = none) (ht : s.transition w = none)
      (hs : ∀ x, s.worker? w = some x → x.state ∉ [.cold, .sleeping, .stopping] ∧ x.admittedRequestIds ≠ []) :
      TaskEffect cfg s k w now elapsed .offloadEnter
        (((s.sleepIntent w).modify w (·.draining now)).goto k w .done)
  | offloading (hl : s.launching = none) (ht : s.transition w = none)
      (hs : ∀ x, s.worker? w = some x → x.state ∉ [.cold, .sleeping, .stopping] ∧ x.admittedRequestIds = []) :
      TaskEffect cfg s k w now elapsed .offloadEnter
        ((((s.noSleepIntent w).modify w (·.offloading)).hold w k).goto k w .offloadPost)
  | asleep (hl : s.launching = none) (hs : ∀ x, s.worker? w = some x → x.state = .offloading) :
      TaskEffect cfg s k w now elapsed .offloadFinish ((s.modify w (·.asleep now elapsed)).goto k w .offloadTail)
  | waking (hl : s.launching = none) (ht : s.transition w = none)
      (hs : ∀ x, s.worker? w = some x → x.state = .sleeping) :
      TaskEffect cfg s k w now elapsed .wakeEnter (((s.modify w (·.waking)).hold w k).goto k w .wakePost)
  | awake (hl : s.launching = none) (hs : ∀ x, s.worker? w = some x → x.state = .waking) :
      TaskEffect cfg s k w now elapsed .wakeFinish ((s.modify w (·.awake cfg now elapsed)).goto k w .wakeTail)
  | stopping {force : Bool} (hl : s.launching = none) (ht : s.transition w = none)
      (hs : ∀ x, s.worker? w = some x → x.state ≠ .cold ∧ (x.admittedRequestIds = [] ∨ force = true)) :
      TaskEffect cfg s k w now elapsed (.stopEnter force)
        (((s.modify w (·.stopping)).hold w k).goto k w (.stopKill (w ∈ s.processes)))
  | stopped (hl : s.launching = none) :
      TaskEffect cfg s k w now elapsed .stopFinish
        (((s.noSleepIntent w).modify w (·.stopped)).goto k w .stopTail)

/-- What an action leaves. -/
inductive Effect (cfg : Settings) (s : State) : Act → State → Prop
  | registered {profile : PlacementProfile} {gpus : List GpuUuid} {id : WorkerId} {now : Datetime} {port : ℕ}
      (hl : s.launching = none) (hid : id ∉ s.issued) (hport : launchPort cfg s.workers profile gpus = .ok port) :
      Effect cfg s (.launch profile gpus id now) { s with
        workers := s.workers ++ [newWorker profile gpus id port now]
        launching := some (id, .spawning)
        issued := id :: s.issued }
  | logFailed {id : WorkerId} (hl : s.launching = some (id, .spawning)) :
      Effect cfg s .launchLogFails { s with launching := none }
  | dropped {a : Act} {id : WorkerId} {phase : LaunchPhase} (hl : s.launching = some (id, phase))
      (ha : (phase = .spawning ∧ a = .launchSpawnFails) ∨ (phase = .persisting ∧ a = .launchAborted)) :
      Effect cfg s a { (s.cleanup id).pop id with launching := none }
  | spawned {pid : ℕ} {id : WorkerId} {x : WorkerPlacement} (hl : s.launching = some (id, .spawning))
      (hx : s.worker? id = some x) :
      Effect cfg s (.launchSpawned pid) { s.modify id (fun x => { x with processPid := some pid }) with
        processes := s.processes ++ [id]
        engines := s.engines ++ [{ worker := id, port := x.port, gpuUuids := x.gpuUuids }]
        launching := some (id, .persisting) }
  | returned {id : WorkerId} (hl : s.launching = some (id, .persisting)) :
      Effect cfg s .launchDone { (s.spawn id .polling).spawn id .monitoring with launching := none }
  | exited (w : WorkerId) :
      Effect cfg s (.engineExit w)
        { s with engines := Table.modify EngineProcess.worker w (fun e => { e with exited := true }) s.engines }
  | admitted {w : WorkerId} {r : RequestId} {e : ℤ} {now : Datetime} (hl : s.launching = none)
      (hs : ∀ x, s.worker? w = some x → x.state = .ready) :
      Effect cfg s (.admitRequest w r e now) (s.modify w (·.admitRequest r e now))
  | released {w : WorkerId} {r : RequestId} {e : ℤ} {now : Datetime} (hl : s.launching = none) :
      Effect cfg s (.release w r e now) (s.modify w (·.release r e now))
  | lastReleased {w : WorkerId} {r : RequestId} {e : ℤ} {now : Datetime} (hl : s.launching = none) :
      Effect cfg s (.release w r e now)
        ((s.modify w (·.release r e now)).spawn w (if w ∈ s.drainToSleep then .offloadEnter else .stopEnter false))
  /-- There is no such worker, or the call is not for its state. -/
  | ignored {a : Act} (hl : s.launching = none)
      (ha : (∃ w r e now, a = .release w r e now) ∨ (∃ w now, a = .sleep w now) ∨ ∃ w now, a = .drain w now) :
      Effect cfg s a s
  | drained {a : Act} {w : WorkerId} {now : Datetime} (hl : s.launching = none)
      (ha : a = .drain w now ∨ (cfg.ramWeightCacheEnabled = false ∧ a = .sleep w now))
      (hs : ∀ x, s.worker? w = some x → x.state ∉ [.draining, .stopping, .cold]) :
      Effect cfg s a ((s.noSleepIntent w).modify w (·.draining now))
  | drainedEmpty {a : Act} {w : WorkerId} {now : Datetime} (hl : s.launching = none)
      (ha : a = .drain w now ∨ (cfg.ramWeightCacheEnabled = false ∧ a = .sleep w now))
      (hs : ∀ x, s.worker? w = some x → x.state ∉ [.draining, .stopping, .cold]) :
      Effect cfg s a (((s.noSleepIntent w).modify w (·.draining now)).spawn w (.stopEnter false))
  | drainedToSleep {w : WorkerId} {now : Datetime} (hl : s.launching = none)
      (hs : ∀ x, s.worker? w = some x →
        x.state ∉ [.cold, .offloading, .sleeping, .waking, .stopping, .loading] ∧ x.admittedRequestIds ≠ []) :
      Effect cfg s (.sleep w now) ((s.sleepIntent w).modify w (·.draining now))
  | sentToSleep {w : WorkerId} {now : Datetime} (hl : s.launching = none) :
      Effect cfg s (.sleep w now) ((s.sleepIntent w).spawn w .offloadEnter)
  | spawns {a : Act} {w : WorkerId} {pc : Pc}
      (ha : (a = .wake w ∧ pc = .wakeEnter) ∨ ∃ force, a = .stop w force ∧ pc = .stopEnter force) :
      Effect cfg s a (s.spawn w pc)
  | task {k : ℕ} {ok : Bool} {now : Datetime} {elapsed : ℚ} {w : WorkerId} {pc : Pc} {s' : State}
      (hk : s.tasks[k]? = some ⟨w, pc⟩) (hs : taskStep cfg s k w ok now elapsed pc = some s')
      (he : TaskEffect cfg s k w now elapsed pc s') : Effect cfg s (.task k ok now elapsed) s'

section effects

variable {cfg : Settings} {s s' : State} {k : ℕ} {w : WorkerId} {now : Datetime} {elapsed : ℚ}

/-- The section has found the worker in the state. -/
theorem found_of_any {p : WorkerPlacement → Prop} [DecidablePred p] (h : (s.worker? w).any (p ·) = true) :
    ∀ x, s.worker? w = some x → p x := by
  intro x hx
  rw [hx] at h
  simpa using h

theorem found_of_eq {x : WorkerPlacement} {p : WorkerPlacement → Prop} (hx : s.worker? w = some x) (h : p x) :
    ∀ y, s.worker? w = some y → p y := by
  intro y hy
  rw [hx] at hy
  cases hy
  exact h

theorem offloadSection_effect (hl : s.launching = none) (ht : s.transition w = none) :
    TaskEffect cfg s k w now elapsed .offloadEnter (offloadSection s k w now) := by
  have hdone : TaskEffect cfg s k w now elapsed .offloadEnter (s.goto k w .done) := .goes (by simp [Pc.next]) rfl
  unfold offloadSection
  split
  · exact hdone
  · rename_i x hx
    split
    · exact hdone
    · rename_i hstate
      split
      · rename_i hadm
        exact .draining hl ht (found_of_eq hx ⟨hstate, hadm⟩)
      · rename_i hadm
        exact .offloading hl ht (found_of_eq hx ⟨hstate, not_not.mp hadm⟩)

theorem stopSection_effect {force : Bool} (hl : s.launching = none) (ht : s.transition w = none) :
    TaskEffect cfg s k w now elapsed (.stopEnter force) (stopSection s k w force) := by
  have hdone : TaskEffect cfg s k w now elapsed (.stopEnter force) (s.goto k w .done) := .goes (by simp [Pc.next]) rfl
  unfold stopSection
  split
  · exact hdone
  · rename_i x hx
    split
    · exact hdone
    · rename_i hcold
      split
      · exact hdone
      · rename_i hadm
        refine .stopping hl ht (found_of_eq hx ⟨hcold, ?_⟩)
        by_cases h : x.admittedRequestIds = []
        · exact .inl h
        · exact .inr (by simpa [h] using hadm)

theorem readySection_effect (hl : s.launching = none) :
    TaskEffect cfg s k w now elapsed .polling (readySection s k w now) := by
  unfold readySection
  split
  · rename_i hany
    exact .loaded hl (found_of_any hany)
  · exact .goes (by simp [Pc.next]) rfl

theorem failSection_effect {locked : Bool} (hl : s.launching = none) :
    TaskEffect cfg s k w now elapsed (.failBegin locked) (failSection s k w locked) := by
  unfold failSection
  split
  · rename_i hany
    exact .failed hl (found_of_any hany)
  · exact .ends (.failBegin locked) (by simp [Pc.next])

theorem offloadedSection_effect (hl : s.launching = none) :
    TaskEffect cfg s k w now elapsed .offloadFinish (offloadedSection s k w now elapsed) := by
  unfold offloadedSection
  split
  · rename_i hany
    exact .asleep hl (found_of_any hany)
  · exact .ends .offloadFinish (by simp [Pc.next])

theorem wakeSection_effect (hl : s.launching = none) (ht : s.transition w = none) :
    TaskEffect cfg s k w now elapsed .wakeEnter (wakeSection s k w) := by
  unfold wakeSection
  split
  · rename_i hany
    exact .waking hl ht (found_of_any hany)
  · exact .goes (by simp [Pc.next]) rfl

theorem awakeSection_effect (hl : s.launching = none) :
    TaskEffect cfg s k w now elapsed .wakeFinish (awakeSection cfg s k w now elapsed) := by
  unfold awakeSection
  split
  · rename_i hany
    exact .awake hl (found_of_any hany)
  · exact .ends .wakeFinish (by simp [Pc.next])

/-- A section that waits for `_lock`. -/
theorem of_locked {P : State → Prop} {t : State} (hs : (if s.launching = none then some t else none) = some s')
    (h : s.launching = none → P t) : P s' := by
  obtain ⟨hl, heq⟩ := Option.ite_none_right_eq_some.mp hs
  cases heq
  exact h hl

/-- A section that takes the transition lock first. -/
theorem of_entered {P : State → Prop} {t : State}
    (hs : (if s.transition w = none ∧ s.launching = none then some t else none) = some s')
    (h : s.launching = none → s.transition w = none → P t) : P s' := by
  obtain ⟨⟨ht, hl⟩, heq⟩ := Option.ite_none_right_eq_some.mp hs
  cases heq
  exact h hl ht

theorem taskStep_effect {ok : Bool} {pc : Pc} (hs : taskStep cfg s k w ok now elapsed pc = some s') :
    TaskEffect cfg s k w now elapsed pc s' := by
  cases pc with
  | polling =>
    simp only [taskStep] at hs
    split at hs
    · exact of_locked hs readySection_effect
    · cases hs
      exact .goes (by simp [Pc.next]) rfl
  | monitoring =>
    simp only [taskStep, Option.ite_none_right_eq_some] at hs
    obtain ⟨-, hs⟩ := hs
    split at hs <;>
    · cases hs
      exact .goes (by simp [Pc.next]) rfl
  | failBegin locked => exact of_locked hs failSection_effect
  | failKill locked handle | stopKill handle =>
    obtain ⟨-, heq⟩ := Option.ite_none_right_eq_some.mp hs
    cases heq
    exact .goes (by simp [Pc.next]) rfl
  | failTail locked => exact of_locked hs .pidCleared
  | failCleanup locked =>
    cases hs
    exact .cleaned (.failCleanup locked) (.inr ⟨locked, rfl⟩)
  | offloadEnter => exact of_entered hs offloadSection_effect
  | offloadPost | wakePost =>
    cases hs
    cases ok <;> exact .goes (by simp [Pc.next]) rfl
  | offloadFinish => exact of_locked hs offloadedSection_effect
  | wakeEnter => exact of_entered hs wakeSection_effect
  | wakeFinish => exact of_locked hs awakeSection_effect
  | stopEnter force => exact of_entered hs stopSection_effect
  | stopFinish => exact of_locked hs .stopped
  | offloadTail =>
    cases hs
    exact .ends .offloadTail (by simp [Pc.next])
  | wakeTail =>
    cases hs
    exact .ends .wakeTail (by simp [Pc.next])
  | stopTail =>
    cases hs
    exact .cleaned .stopTail (.inl rfl)
  | done => cases hs

/-! ### The calls -/

variable {a : Act}

theorem drainSection_effect (hl : s.launching = none)
    (ha : a = .drain w now ∨ (cfg.ramWeightCacheEnabled = false ∧ a = .sleep w now)) :
    Effect cfg s a (drainSection s w now) := by
  have hignored : Effect cfg s a s := by
    refine .ignored hl ?_
    rcases ha with rfl | ⟨-, rfl⟩
    · exact .inr (.inr ⟨w, now, rfl⟩)
    · exact .inr (.inl ⟨w, now, rfl⟩)
  unfold drainSection
  split
  · exact hignored
  · rename_i x hx
    split
    · exact hignored
    · rename_i hstate
      simp only
      split
      · exact .drainedEmpty hl ha (found_of_eq hx hstate)
      · exact .drained hl ha (found_of_eq hx hstate)

theorem sleepSection_effect (hl : s.launching = none) : Effect cfg s (.sleep w now) (sleepSection cfg s w now) := by
  have hignored : Effect cfg s (.sleep w now) s := .ignored hl (.inr (.inl ⟨w, now, rfl⟩))
  unfold sleepSection
  split
  · rename_i hram
    exact drainSection_effect hl (.inr ⟨by simpa using hram, rfl⟩)
  · split
    · exact hignored
    · rename_i x hx
      split
      · exact hignored
      · rename_i hstate
        split
        · rename_i hadm
          exact .drainedToSleep hl (found_of_eq hx ⟨hstate, hadm⟩)
        · exact .sentToSleep hl

theorem releaseSection_effect {r : RequestId} {e : ℤ} (hl : s.launching = none) :
    Effect cfg s (.release w r e now) (releaseSection s w r e now) := by
  unfold releaseSection
  split
  · exact .ignored hl (.inl ⟨w, r, e, now, rfl⟩)
  · simp only
    split
    · exact .lastReleased hl
    · exact .released hl

theorem step_effect (hs : step cfg s a = some s') : Effect cfg s a s' := by
  cases a with
  | launch profile gpus id now =>
    simp only [step, Option.ite_none_right_eq_some] at hs
    obtain ⟨⟨hl, hid⟩, hs⟩ := hs
    split at hs
    · rename_i port hport
      cases hs
      exact .registered hl hid hport
    · cases hs
  | launchLogFails =>
    simp only [step] at hs
    split at hs
    · rename_i id hl
      simp only [Option.ite_none_right_eq_some, Option.some.injEq] at hs
      obtain ⟨-, rfl⟩ := hs
      exact .logFailed hl
    · cases hs
  | launchSpawnFails =>
    simp only [step] at hs
    split at hs
    · rename_i id hl
      cases hs
      exact .dropped hl (.inl ⟨rfl, rfl⟩)
    · cases hs
  | launchAborted =>
    simp only [step] at hs
    split at hs
    · rename_i id hl
      cases hs
      exact .dropped hl (.inr ⟨rfl, rfl⟩)
    · cases hs
  | launchSpawned pid =>
    simp only [step] at hs
    split at hs
    · rename_i id hl
      obtain ⟨x, hx, rfl⟩ := Option.map_eq_some_iff.mp hs
      exact .spawned hl hx
    · cases hs
  | launchDone =>
    simp only [step] at hs
    split at hs
    · rename_i id hl
      cases hs
      exact .returned hl
    · cases hs
  | engineExit w =>
    cases hs
    exact .exited w
  | stop w force =>
    cases hs
    exact .spawns (.inr ⟨force, rfl, rfl⟩)
  | wake w =>
    simp only [step, Option.ite_none_right_eq_some, Option.some.injEq] at hs
    obtain ⟨-, rfl⟩ := hs
    exact .spawns (.inl ⟨rfl, rfl⟩)
  | admitRequest w r e now =>
    simp only [step, Option.ite_none_right_eq_some, admitSection] at hs
    obtain ⟨hl, hs⟩ := hs
    split at hs
    · cases hs
    · rename_i x hx
      simp only [Option.ite_none_right_eq_some, Option.some.injEq] at hs
      obtain ⟨hready, rfl⟩ := hs
      exact .admitted hl (found_of_eq hx hready)
  | release w r e now => exact of_locked hs releaseSection_effect
  | sleep w now => exact of_locked hs sleepSection_effect
  | drain w now => exact of_locked hs fun hl => drainSection_effect hl (.inl rfl)
  | task k ok now elapsed =>
    simp only [step] at hs
    split at hs
    · rename_i w pc hk
      exact .task hk hs (taskStep_effect hs)
    · cases hs

end effects

end Supervisor
end LlmRio
