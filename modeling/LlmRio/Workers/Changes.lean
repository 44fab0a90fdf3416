/-
# What a step does to the workers

Every step leaves the table of workers as it is, changes one worker in one of
the ways of `Change`, registers a new worker, or drops the worker of a failed
launch (`workers_step`). `Change` names the section that makes the change and
what the section has checked, so the invariants of the supervisor are proved
by cases on `Change` and never unfold a section.

Key definitions: `Change`, `WorkersStep`, `Admitted`.
Key theorems: `workers_step`, `admitted_step`.
-/
import LlmRio.Workers.Sections

namespace LlmRio
namespace Supervisor

variable {cfg : Settings}

/-- The action `a` lets task `k` of `w` go on from `pc`. -/
def GoesOn (s : State) (a : Act) (k : ℕ) (w : WorkerId) (pc : Pc) (now : Datetime) (elapsed : ℚ) : Prop :=
  (∃ ok, a = .task k ok now elapsed) ∧ s.tasks[k]? = some ⟨w, pc⟩

/-- The ways in which a section changes the worker `w`, with what it found. -/
inductive Change (cfg : Settings) (s : State) (a : Act) (w : WorkerId) :
    WorkerPlacement → WorkerPlacement → Prop
  | spawned {x : WorkerPlacement} (pid : ℕ) (hl : s.launching = some (w, .spawning)) :
      Change cfg s a w x { x with processPid := some pid }
  | loaded {x : WorkerPlacement} {k : ℕ} {now : Datetime} {elapsed : ℚ} (hl : s.launching = none)
      (hr : GoesOn s a k w .polling now elapsed) (hs : x.state = .loading) :
      Change cfg s a w x (x.loaded now)
  | failed {x : WorkerPlacement} {k : ℕ} {now : Datetime} {elapsed : ℚ} {locked : Bool}
      (hl : s.launching = none) (hr : GoesOn s a k w (.failBegin locked) now elapsed)
      (hs : x.state ≠ .cold) : Change cfg s a w x x.failed
  | pidCleared {x : WorkerPlacement} {k : ℕ} {now : Datetime} {elapsed : ℚ} {locked : Bool}
      (hl : s.launching = none) (hr : GoesOn s a k w (.failTail locked) now elapsed) :
      Change cfg s a w x { x with processPid := none }
  | admitted {x : WorkerPlacement} {r : RequestId} {e : ℤ} {now : Datetime} (hl : s.launching = none)
      (ha : a = .admitRequest w r e now) (hs : x.state = .ready) : Change cfg s a w x (x.admitRequest r e now)
  | released {x : WorkerPlacement} {r : RequestId} {e : ℤ} {now : Datetime} (hl : s.launching = none)
      (ha : a = .release w r e now) : Change cfg s a w x (x.release r e now)
  /-- `sleep`, or an `_offload` that finds requests, on a worker with requests. -/
  | drainingToSleep {x : WorkerPlacement} (now : Datetime) (hl : s.launching = none)
      (hc : (a = .sleep w now ∧ x.state ∉ [.cold, .offloading, .sleeping, .waking, .stopping, .loading]) ∨
        ∃ k elapsed, GoesOn s a k w .offloadEnter now elapsed ∧ s.transition w = none ∧
          x.state ∉ [.cold, .sleeping, .stopping])
      (hadm : x.admittedRequestIds ≠ []) : Change cfg s a w x (x.draining now)
  /-- `drain`, or `sleep` without the weight cache. -/
  | drained {x : WorkerPlacement} (now : Datetime) (hl : s.launching = none)
      (hc : a = .drain w now ∨ (cfg.ramWeightCacheEnabled = false ∧ a = .sleep w now))
      (hs : x.state ∉ [.draining, .stopping, .cold]) : Change cfg s a w x (x.draining now)
  | offloading {x : WorkerPlacement} {k : ℕ} {now : Datetime} {elapsed : ℚ} (hl : s.launching = none)
      (hr : GoesOn s a k w .offloadEnter now elapsed) (ht : s.transition w = none)
      (hs : x.state ∉ [.cold, .sleeping, .stopping]) (hadm : x.admittedRequestIds = []) :
      Change cfg s a w x x.offloading
  | asleep {x : WorkerPlacement} {k : ℕ} {now : Datetime} {elapsed : ℚ} (hl : s.launching = none)
      (hr : GoesOn s a k w .offloadFinish now elapsed) (hs : x.state = .offloading) :
      Change cfg s a w x (x.asleep now elapsed)
  | waking {x : WorkerPlacement} {k : ℕ} {now : Datetime} {elapsed : ℚ} (hl : s.launching = none)
      (hr : GoesOn s a k w .wakeEnter now elapsed) (ht : s.transition w = none) (hs : x.state = .sleeping) :
      Change cfg s a w x x.waking
  | awake {x : WorkerPlacement} {k : ℕ} {now : Datetime} {elapsed : ℚ} (hl : s.launching = none)
      (hr : GoesOn s a k w .wakeFinish now elapsed) (hs : x.state = .waking) :
      Change cfg s a w x (x.awake cfg now elapsed)
  | stopping {x : WorkerPlacement} {k : ℕ} {now : Datetime} {elapsed : ℚ} {force : Bool}
      (hl : s.launching = none) (hr : GoesOn s a k w (.stopEnter force) now elapsed)
      (ht : s.transition w = none) (hs : x.state ≠ .cold)
      (hadm : x.admittedRequestIds = [] ∨ force = true) : Change cfg s a w x x.stopping
  | stopped {x : WorkerPlacement} {k : ℕ} {now : Datetime} {elapsed : ℚ} (hl : s.launching = none)
      (hr : GoesOn s a k w .stopFinish now elapsed) : Change cfg s a w x x.stopped

/-- What a step does to the table of workers. -/
inductive WorkersStep (cfg : Settings) (s : State) (a : Act) (s' : State) : Prop
  | same (h : s'.workers = s.workers)
  | change (w : WorkerId) (f : WorkerPlacement → WorkerPlacement) (hf : ∀ x, (f x).id = x.id)
      (h : s'.workers = Table.modify WorkerPlacement.id w f s.workers)
      (hc : ∀ x, s.worker? w = some x → Change cfg s a w x (f x))
  | launched (profile : PlacementProfile) (gpus : List GpuUuid) (id : WorkerId) (port : ℕ) (now : Datetime)
      (ha : a = .launch profile gpus id now) (hl : s.launching = none) (hid : id ∉ s.issued)
      (hport : launchPort cfg s.workers profile gpus = .ok port)
      (h : s'.workers = s.workers ++ [newWorker profile gpus id port now])
  | dropped (id : WorkerId) (phase : LaunchPhase)
      (ha : (phase = .spawning ∧ a = .launchSpawnFails) ∨ (phase = .persisting ∧ a = .launchAborted))
      (hl : s.launching = some (id, phase)) (hdone : s'.launching = none)
      (h : s'.workers = s.workers.filter (·.id ≠ id))

namespace State

variable (s : State)

@[simp] theorem workers_goto (k : ℕ) (w : WorkerId) (pc : Pc) : (s.goto k w pc).workers = s.workers := rfl

@[simp] theorem workers_spawn (w : WorkerId) (pc : Pc) : (s.spawn w pc).workers = s.workers := rfl

@[simp] theorem workers_hold (w : WorkerId) (k : ℕ) : (s.hold w k).workers = s.workers := rfl

@[simp] theorem workers_unhold (w : WorkerId) : (s.unhold w).workers = s.workers := rfl

@[simp] theorem workers_finish (k : ℕ) (w : WorkerId) (l : Bool) : (s.finish k w l).workers = s.workers := by
  unfold finish; split <;> rfl

@[simp] theorem workers_sleepIntent (w : WorkerId) : (s.sleepIntent w).workers = s.workers := rfl

@[simp] theorem workers_noSleepIntent (w : WorkerId) : (s.noSleepIntent w).workers = s.workers := rfl

@[simp] theorem workers_cleanup (w : WorkerId) : (s.cleanup w).workers = s.workers := rfl

@[simp] theorem workers_modify (w : WorkerId) (f : WorkerPlacement → WorkerPlacement) :
    (s.modify w f).workers = Table.modify WorkerPlacement.id w f s.workers := rfl

end State

/-! ### The steps -/

section steps

variable {s s' : State} {a : Act} {k : ℕ} {w : WorkerId} {now : Datetime} {elapsed : ℚ} {pc : Pc}

theorem TaskEffect.workers (h : TaskEffect cfg s k w now elapsed pc s') (hr : GoesOn s a k w pc now elapsed) :
    WorkersStep cfg s a s' := by
  cases h with
  | goes => exact .same rfl
  | ends | cleaned => exact .same (by simp)
  | loaded hl hs => exact .change w (·.loaded now) (fun _ => rfl) rfl fun x hx => .loaded hl hr (hs x hx)
  | failed hl hs => exact .change w (·.failed) (fun _ => rfl) rfl fun x hx => .failed hl hr (hs x hx)
  | pidCleared hl => exact .change w _ (fun _ => by rfl) rfl fun _ _ => .pidCleared hl hr
  | draining hl ht hs =>
    refine .change w (·.draining now) (fun _ => rfl) rfl fun x hx => ?_
    obtain ⟨hstate, hadm⟩ := hs x hx
    exact .drainingToSleep now hl (.inr ⟨k, elapsed, hr, ht, hstate⟩) hadm
  | offloading hl ht hs =>
    refine .change w (·.offloading) (fun _ => rfl) rfl fun x hx => ?_
    obtain ⟨hstate, hadm⟩ := hs x hx
    exact .offloading hl hr ht hstate hadm
  | asleep hl hs => exact .change w (·.asleep now elapsed) (fun _ => rfl) rfl fun x hx => .asleep hl hr (hs x hx)
  | waking hl ht hs => exact .change w (·.waking) (fun _ => rfl) rfl fun x hx => .waking hl hr ht (hs x hx)
  | awake hl hs => exact .change w (·.awake cfg now elapsed) (fun _ => rfl) rfl fun x hx => .awake hl hr (hs x hx)
  | stopping hl ht hs =>
    refine .change w (·.stopping) (fun _ => rfl) rfl fun x hx => ?_
    obtain ⟨hcold, hadm⟩ := hs x hx
    exact .stopping hl hr ht hcold hadm
  | stopped hl => exact .change w (·.stopped) (fun _ => rfl) rfl fun _ _ => .stopped hl hr

/-- What a step can do to the workers. -/
theorem workers_step (hs : step cfg s a = some s') : WorkersStep cfg s a s' := by
  cases step_effect hs with
  | logFailed | returned | exited | ignored | sentToSleep | spawns => exact .same rfl
  | registered hl hid hport => exact .launched _ _ _ _ _ rfl hl hid hport rfl
  | dropped hl ha => exact .dropped _ _ ha hl rfl rfl
  | spawned hl => exact .change _ _ (fun _ => by rfl) rfl fun _ _ => .spawned _ hl
  | admitted hl hstate => exact .change _ _ (fun _ => by rfl) rfl fun x hx => .admitted hl rfl (hstate x hx)
  | released hl | lastReleased hl => exact .change _ _ (fun _ => by rfl) rfl fun _ _ => .released hl rfl
  | drained hl ha hstate | drainedEmpty hl ha hstate =>
    exact .change _ _ (fun _ => by rfl) rfl fun x hx => .drained _ hl ha (hstate x hx)
  | drainedToSleep hl hstate =>
    refine .change _ _ (fun _ => by rfl) rfl fun x hx => ?_
    obtain ⟨hnot, hadm⟩ := hstate x hx
    exact .drainingToSleep _ hl (.inl ⟨rfl, hnot⟩) hadm
  | task hk _ he => exact he.workers ⟨⟨_, rfl⟩, hk⟩

end steps

/-! ### Admitted requests -/

theorem worker_modify (s : State) (w x : WorkerId) {f : WorkerPlacement → WorkerPlacement}
    (hf : ∀ y, (f y).id = y.id) :
    (s.modify w f).worker? x = if x = w then (s.worker? x).map f else s.worker? x := by
  unfold State.worker?
  rw [State.workers_modify]
  by_cases hx : x = w
  · subst hx
    rw [if_pos rfl, Table.lookup_modify_self (fun z hz => (hf z).trans hz)]
  · rw [if_neg hx, Table.lookup_modify_ne hx (fun z hz => (hf z).trans hz)]

/-- The worker `x` has admitted the request `r`. -/
def Admitted (s : State) (x : WorkerId) (r : RequestId) : Prop :=
  ∃ y, s.worker? x = some y ∧ r ∈ y.admittedRequestIds

theorem Change.admitted_id {s : State} {a : Act} {w : WorkerId} {x y : WorkerPlacement}
    (hc : Change cfg s a w x y) {r : RequestId} (hr : r ∈ y.admittedRequestIds) :
    r ∈ x.admittedRequestIds ∨ ∃ e now, a = .admitRequest w r e now := by
  cases hc with
  | admitted hl ha hs =>
    rename_i r' e now
    simp only [WorkerPlacement.admitRequest] at hr
    split at hr
    · exact .inl hr
    · rcases List.mem_append.mp hr with hr | hr
      · exact .inl hr
      · rw [List.mem_singleton.mp hr]
        exact .inr ⟨e, now, ha⟩
  | released => exact .inl (List.mem_of_mem_filter hr)
  | _ => first
    | exact .inl hr
    | cases hr

theorem admitted_step {a : Act} (hs : step cfg s a = some s') {x : WorkerId} {r : RequestId}
    (h : Admitted s' x r) :
    Admitted s x r ∨ ∃ e now, a = .admitRequest x r e now := by
  obtain ⟨y, hy, hr⟩ := h
  cases workers_step hs with
  | same heq => exact .inl ⟨y, by rwa [State.worker?, heq] at hy, hr⟩
  | change w f hf heq hc =>
    have hy : (s.modify w f).worker? x = some y := by rwa [State.worker?, heq] at hy
    rw [worker_modify s w x hf] at hy
    split at hy
    · rename_i hx
      subst hx
      obtain ⟨z, hz, rfl⟩ := Option.map_eq_some_iff.mp hy
      rcases (hc z hz).admitted_id hr with hr | ha
      · exact .inl ⟨z, hz, hr⟩
      · exact .inr ha
    · exact .inl ⟨y, hy, hr⟩
  | launched profile gpus id port now ha _ _ _ heq =>
    unfold State.worker? at hy
    rw [heq, Table.lookup_append] at hy
    cases hlook : Table.lookup WorkerPlacement.id x s.workers with
    | some z =>
      rw [hlook] at hy
      cases hy
      exact .inl ⟨y, hlook, hr⟩
    | none =>
      rw [hlook] at hy
      have hy : Table.lookup WorkerPlacement.id x [newWorker profile gpus id port now] = some y := hy
      have := (Table.lookup_some hy).1
      rw [List.mem_singleton.mp this] at hr
      cases hr
  | dropped id phase _ _ _ heq =>
    unfold State.worker? at hy
    rw [heq] at hy
    refine .inl ⟨y, ?_, hr⟩
    obtain ⟨hmem, hid⟩ := Table.lookup_some hy
    have hne : x ≠ id := by
      have := (List.mem_filter.mp hmem).2
      simpa [hid] using this
    unfold State.worker? Table.lookup at *
    rw [List.find?_filter] at hy
    rw [← hy]
    congr 1
    funext z
    by_cases hz : z.id = x
    · simp [hz, hne]
    · simp [hz]

theorem worker_release (s : State) (w x : WorkerId) (r : RequestId) (e : ℤ) (now : Datetime) :
    (releaseSection s w r e now).worker? x =
      if x = w then (s.worker? x).map (·.release r e now) else s.worker? x := by
  unfold releaseSection
  cases hw : s.worker? w with
  | none =>
    by_cases hx : x = w
    · simp [hx, hw]
    · simp [hx]
  | some y =>
    have hmod := worker_modify s w x (f := (·.release r e now)) fun _ => rfl
    simp only
    split
    · exact hmod
    · exact hmod

/-- What the workers have admitted after `release`. -/
theorem admitted_release {s : State} {w x : WorkerId} {r r' : RequestId} {e : ℤ} {now : Datetime} :
    Admitted (releaseSection s w r e now) x r' ↔ Admitted s x r' ∧ ¬ (x = w ∧ r' = r) := by
  unfold Admitted
  rw [worker_release]
  by_cases hx : x = w
  · simp [hx, WorkerPlacement.release]
    tauto
  · simp [hx]

end Supervisor
end LlmRio
