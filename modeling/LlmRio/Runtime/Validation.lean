/-
# GPUs taken for validation

`acquire_validation_gpus` looks at the workers on its GPUs under the state
lock, enters the GPUs into `_validation_gpu_uuids`, puts the workers to sleep
(or stops them) without the lock, and looks again. `_launch_if_active` holds
the state lock through the whole launch, so it never starts a worker on such
GPUs. `_wake_if_active` gives the lock back before it calls
`supervisor.wake`, which may still wait for the worker's transition lock
while the GPUs are taken.

A step is the code between two awaits, and the supervisor moves by its own
steps (`Supervisor.step`). What the stored mode, the queues and the clock
say is an input of the step that reads it. If no wake, drain or stop takes a
SLEEPING worker out of SLEEPING while a validation holds its GPUs
(`keepsHeld`), the GPUs are exclusive (`exclusive`).

Key definitions: `State`, `step`, `Exclusive`, `keepsHeld`, `Reserved`,
`Locked`, `Effect`.
Key theorems: `step_effect`, `reserved_step`, `locked_step`, `exclusive`.
-/
import LlmRio.Workers.StateMachine

namespace LlmRio
namespace Validation

open Runs

/-- A `sleep` or `stop` that an acquisition awaits: still to be called, a task
of the supervisor, or returned. -/
inductive Transition
  | calling (w : WorkerId) | running (k : ℕ) | returned
deriving DecidableEq, Repr

/-- Where a call of `acquire_validation_gpus` is. -/
inductive Pc
  /-- It holds the state lock and awaits the service mode. -/
  | checking (overlapping : List WorkerId)
  | settling (workerIds : List WorkerId) (transitions : List Transition)
  /-- It has returned True and its GPUs are not released. -/
  | held
  | returned
deriving DecidableEq, Repr

structure Call where
  gpuUuids : List GpuUuid
  pc : Pc
deriving DecidableEq, Repr

/-- Who holds `_state_lock` across an await. -/
inductive Holder
  | acquire (k : ℕ)
  /-- `_launch_if_active` before and during `supervisor.launch`. -/
  | starting (profile : PlacementProfile) (gpus : List GpuUuid)
  | launching
deriving DecidableEq

structure State where
  supervisor : Supervisor.State := {}
  validationGpuUuids : List GpuUuid := []
  stateLock : Option Holder := none
  calls : List Call := []

inductive Act
  /-- The supervisor goes on, or one of its methods is called. -/
  | supervisor (a : Supervisor.Act)
  | acquire (gpus : List GpuUuid)
  /-- `clear`: the service is ACTIVE, no maintenance is requested, no request
  is pending and the idle window is over. -/
  | check (k : ℕ) (clear : Bool)
  | transition (k i : ℕ) (now : Datetime)
  | recheck (k : ℕ) (failures demandArrived : Bool)
  | release (k : ℕ)
  | startCheck (profile : PlacementProfile) (gpus : List GpuUuid) (active : Bool)
  | startLaunch (id : WorkerId) (now : Datetime)
  | startEnd
  | wakeCheck (w : WorkerId) (active : Bool)

namespace State

variable (s : State)

def goto (k : ℕ) (gpus : List GpuUuid) (pc : Pc) : State := { s with calls := s.calls.set k ⟨gpus, pc⟩ }

/-- `_validation_gpu_uuids.difference_update(gpu_uuids)` -/
def giveBack (gpus : List GpuUuid) : State :=
  { s with validationGpuUuids := s.validationGpuUuids.filter (· ∉ gpus) }

end State

variable (cfg : Settings)

/-! ### The sections of `acquire_validation_gpus` -/

/-- The first section, after the service mode has been read. -/
def checkSection (s : State) (k : ℕ) (gpus : List GpuUuid) (ids : List WorkerId) (clear : Bool) : State :=
  let overlapping := ids.filterMap s.supervisor.worker?
  if clear = false ∨ gpusMeet gpus s.validationGpuUuids = true ∨
      overlapping.any (·.admittedRequestIds ≠ []) = true ∨
      overlapping.any (·.state ∉ [.ready, .sleeping]) = true then
    { s.goto k gpus .returned with stateLock := none }
  else
    let transitions :=
      if cfg.ramWeightCacheEnabled then (overlapping.filter (·.state = .ready)).map (.calling ·.id)
      else ids.map .calling
    { s.goto k gpus (.settling ids transitions) with
      stateLock := none
      validationGpuUuids := s.validationGpuUuids ++ gpus }

/-- One of the awaited calls goes on. -/
def transitionStep (s : State) (k i : ℕ) (now : Datetime) (gpus : List GpuUuid) (ids : List WorkerId)
    (ts : List Transition) : Option State :=
  match ts[i]? with
  | some (.calling w) =>
    (Supervisor.step cfg s.supervisor (if cfg.ramWeightCacheEnabled then .sleep w now else .stop w false)).map
      fun sup =>
        -- a call that starts no task has returned
        let t := if sup.tasks.length = s.supervisor.tasks.length then .returned
          else .running s.supervisor.tasks.length
        { s.goto k gpus (.settling ids (ts.set i t)) with supervisor := sup }
  | some (.running j) =>
    if (s.supervisor.tasks[j]?).all (·.pc = .done) then
      some (s.goto k gpus (.settling ids (ts.set i .returned)))
    else none
  | _ => none

/-- The second section. -/
def recheckSection (s : State) (k : ℕ) (gpus : List GpuUuid) (ids : List WorkerId)
    (failures demandArrived : Bool) : State :=
  let unresolved := (ids.filterMap s.supervisor.worker?).filter (·.state ∉ [.cold, .sleeping])
  if failures = true ∨ unresolved ≠ [] ∨ demandArrived = true then (s.giveBack gpus).goto k gpus .returned
  else s.goto k gpus .held

def step (s : State) : Act → Option State
  | .supervisor a =>
    match a with
    -- called by `_launch_if_active` and `_wake_if_active` only
    | .launch .. | .wake _ => none
    -- `_route_ready_work` admits under the state lock
    | .admitRequest .. =>
      if s.stateLock = none then
        (Supervisor.step cfg s.supervisor a).map fun sup => { s with supervisor := sup }
      else none
    | _ => (Supervisor.step cfg s.supervisor a).map fun sup => { s with supervisor := sup }
  | .acquire gpus =>
    if s.stateLock = none then
      let ids := (Supervisor.overlappingWorkers s.supervisor.workers gpus).map (·.id)
      some { s with stateLock := some (.acquire s.calls.length), calls := s.calls ++ [⟨gpus, .checking ids⟩] }
    else none
  | .check k clear =>
    match s.calls[k]? with
    | some ⟨gpus, .checking ids⟩ => some (checkSection cfg s k gpus ids clear)
    | _ => none
  | .transition k i now =>
    match s.calls[k]? with
    | some ⟨gpus, .settling ids ts⟩ => transitionStep cfg s k i now gpus ids ts
    | _ => none
  | .recheck k failures demandArrived =>
    match s.calls[k]? with
    | some ⟨gpus, .settling ids ts⟩ =>
      if s.stateLock = none ∧ ∀ t ∈ ts, t = .returned then
        some (recheckSection s k gpus ids failures demandArrived)
      else none
    | _ => none
  | .release k =>
    match s.calls[k]? with
    | some ⟨gpus, .held⟩ =>
      if s.stateLock = none then some ((s.giveBack gpus).goto k gpus .returned) else none
    | _ => none
  | .startCheck profile gpus active =>
    if s.stateLock = none then
      if active = false ∨ gpusMeet gpus s.validationGpuUuids = true then some s
      else some { s with stateLock := some (.starting profile gpus) }
    else none
  | .startLaunch id now =>
    match s.stateLock with
    | some (.starting profile gpus) =>
      match Supervisor.launchPort cfg s.supervisor.workers profile gpus with
      | .ok _ =>
        (Supervisor.step cfg s.supervisor (.launch profile gpus id now)).map fun sup =>
          { s with supervisor := sup, stateLock := some .launching }
      | .error _ => some { s with stateLock := none }
    | _ => none
  | .startEnd =>
    if s.stateLock = some .launching ∧ s.supervisor.launching = none then some { s with stateLock := none }
    else none
  | .wakeCheck w active =>
    if s.stateLock = none then
      match s.supervisor.worker? w with
      | none => some s
      | some x =>
        if active = false ∨ gpusMeet x.gpuUuids s.validationGpuUuids = true then some s
        else (Supervisor.step cfg s.supervisor (.wake w)).map fun sup => { s with supervisor := sup }
    else none

def start : State := {}

/-- What `acquire_validation_gpus` promises between its True and the release. -/
structure Exclusive (s : State) : Prop where
  resident : ∀ (k : ℕ) (gpus : List GpuUuid), s.calls[k]? = some ⟨gpus, .held⟩ →
    ∀ x ∈ s.supervisor.workers, gpusMeet x.gpuUuids gpus = true → x.state ∉ gpuResidentStates
  disjoint : ∀ (j k : ℕ) (gpus gpus' : List GpuUuid), j ≠ k → s.calls[j]? = some ⟨gpus, .held⟩ →
    s.calls[k]? = some ⟨gpus', .held⟩ → gpusMeet gpus gpus' = false

/-- The worker that the action may take from SLEEPING to another state than
COLD. -/
def leavesSleep (sup : Supervisor.State) : Supervisor.Act → Option WorkerId
  | .drain w _ => some w
  | .sleep w _ => if cfg.ramWeightCacheEnabled then none else some w
  | .task k _ _ _ =>
    match sup.tasks[k]? with
    | some ⟨w, .wakeEnter⟩ | some ⟨w, .stopEnter _⟩ => some w
    | _ => none
  | _ => none

/-- No section that enters a wake, a drain or a stop finds its worker SLEEPING
on GPUs that a validation holds. -/
def keepsHeld (s : State) : Act → Bool
  | .supervisor a =>
    (leavesSleep cfg s.supervisor a).all fun w => (s.supervisor.worker? w).all fun x =>
      x.state = .sleeping → s.calls.all fun c => c.pc = .held → gpusMeet x.gpuUuids c.gpuUuids = false
  | _ => true

variable {cfg}

/-! ### The workers -/

section workers

open Supervisor

variable {s s' : Supervisor.State} {a : Supervisor.Act}

/-- A SLEEPING worker stays so, fails, or is taken out by an action of
`leavesSleep`. -/
theorem change_sleeping {w : WorkerId} {x y : WorkerPlacement} (hc : Change cfg s a w x y)
    (hx : x.state = .sleeping) : y.state ∈ [.cold, .sleeping] ∨ leavesSleep cfg s a = some w := by
  cases hc with
  | spawned | pidCleared | released => exact .inl (by simp [hx, WorkerPlacement.release])
  | failed | stopped => exact .inl (by simp [WorkerPlacement.failed, WorkerPlacement.stopped])
  | loaded _ _ hs | admitted _ _ hs | asleep _ _ hs | awake _ _ hs =>
    rw [hx] at hs
    cases hs
  | drainingToSleep _ _ hc => rcases hc with ⟨-, hs⟩ | ⟨_, _, -, -, hs⟩ <;> simp [hx] at hs
  | offloading _ _ _ hs => simp [hx] at hs
  | drained _ _ hc =>
    rcases hc with rfl | ⟨hram, rfl⟩
    · exact .inr rfl
    · exact .inr (by simp [leavesSleep, hram])
  | waking _ hr | stopping _ hr =>
    obtain ⟨⟨ok, rfl⟩, hk⟩ := hr
    exact .inr (by simp [leavesSleep, hk])

end workers

/-- Every worker on the GPUs that is not COLD is listed. -/
def Covers (sup : Supervisor.State) (gpus : List GpuUuid) (ids : List WorkerId) : Prop :=
  ∀ x ∈ sup.workers, x.state ≠ .cold → gpusMeet x.gpuUuids gpus = true → x.id ∈ ids

theorem covers_step {s s' : Supervisor.State} {a : Supervisor.Act} (hr : Supervisor.Registered s)
    (hs : Supervisor.step cfg s a = some s') {gpus : List GpuUuid} {ids : List WorkerId}
    (hl : ∀ profile g id now, a = .launch profile g id now → gpusMeet g gpus = false)
    (h : Covers s gpus ids) : Covers s' gpus ids := by
  intro y hy hstate hmeet
  rcases Supervisor.worker_origin hr hs hy with ⟨x, hx, hid, -, hgpus, hxy⟩ | ⟨-, profile, gpus', port, now, rfl, hnew⟩
  · have hlive : x.state ≠ .cold := by
      rcases hxy with rfl | hc
      · exact hstate
      · exact fun hcold => hstate (hc.cold hcold)
    rw [← hid]
    exact h x hx hlive (hgpus ▸ hmeet)
  · have hgpus : y.gpuUuids = gpus' := by rw [hnew]; rfl
    rw [hgpus, hl profile gpus' y.id now rfl] at hmeet
    cases hmeet

/-! ### The reserved GPUs -/

/-- The call's GPUs are entered into `_validation_gpu_uuids`. -/
def Pc.taken : Pc → Bool
  | .settling _ _ | .held => true
  | _ => false

/-- What the entered GPUs mean, whoever holds the lock. -/
structure Reserved (s : State) : Prop where
  registered : Supervisor.Registered s.supervisor
  entered : ∀ (k : ℕ) (gpus : List GpuUuid) (pc : Pc), s.calls[k]? = some ⟨gpus, pc⟩ → pc.taken = true →
    ∀ g ∈ gpus, g ∈ s.validationGpuUuids
  disjoint : ∀ (j k : ℕ) (gpus gpus' : List GpuUuid) (pc pc' : Pc), j ≠ k →
    s.calls[j]? = some ⟨gpus, pc⟩ → s.calls[k]? = some ⟨gpus', pc'⟩ → pc.taken = true → pc'.taken = true →
    gpusMeet gpus gpus' = false
  settling : ∀ (k : ℕ) (gpus : List GpuUuid) (ids : List WorkerId) (ts : List Transition),
    s.calls[k]? = some ⟨gpus, .settling ids ts⟩ → Covers s.supervisor gpus ids
  held : ∀ (k : ℕ) (gpus : List GpuUuid), s.calls[k]? = some ⟨gpus, .held⟩ →
    ∀ x ∈ s.supervisor.workers, gpusMeet x.gpuUuids gpus = true → x.state ∈ [.cold, .sleeping]

/-- What the holder of the lock may rely on. -/
structure Locked (s : State) : Prop where
  launching : s.supervisor.launching ≠ none → s.stateLock = some .launching
  starting : ∀ profile gpus, s.stateLock = some (.starting profile gpus) →
    gpusMeet gpus s.validationGpuUuids = false
  checking : ∀ (k : ℕ) (gpus : List GpuUuid) (ids : List WorkerId),
    s.calls[k]? = some ⟨gpus, .checking ids⟩ →
      s.stateLock = some (.acquire k) ∧ Covers s.supervisor gpus ids

theorem reserved_start : Reserved start := by
  refine ⟨Supervisor.registered_start, ?_, ?_, ?_, ?_⟩ <;> simp [start]

theorem locked_start : Locked start := by
  refine ⟨?_, ?_, ?_⟩ <;> simp [start]

variable {s s' : State}

theorem gpusMeet_mono {a b c : List GpuUuid} (h : gpusMeet a c = false) (hb : ∀ g ∈ b, g ∈ c) :
    gpusMeet a b = false := by
  by_contra hmeet
  rw [Bool.not_eq_false, gpusMeet_iff] at hmeet
  obtain ⟨g, hg, hgb⟩ := hmeet
  have : gpusMeet a c = true := gpusMeet_iff.mpr ⟨g, hg, hb g hgb⟩
  rw [h] at this
  cases this

/-- A step of the supervisor that launches, if at all, on free GPUs, and takes
no worker on held GPUs out of SLEEPING. -/
theorem Reserved.supervisor (h : Reserved s) {sup : Supervisor.State} {a : Supervisor.Act}
    (hs : Supervisor.step cfg s.supervisor a = some sup)
    (hl : ∀ profile g id now, a = .launch profile g id now → gpusMeet g s.validationGpuUuids = false)
    (hc : ∀ w, leavesSleep cfg s.supervisor a = some w → ∀ x, s.supervisor.worker? w = some x →
      x.state = .sleeping → ∀ c ∈ s.calls, c.pc = .held → gpusMeet x.gpuUuids c.gpuUuids = false)
    (lock : Option Holder) : Reserved { s with supervisor := sup, stateLock := lock } := by
  refine ⟨Supervisor.registered_step h.registered hs, h.entered, h.disjoint, ?_, ?_⟩
  · intro k gpus ids ts hk
    refine covers_step h.registered hs (fun profile g id now ha => ?_) (h.settling k gpus ids ts hk)
    exact gpusMeet_mono (hl profile g id now ha) (h.entered k gpus _ hk rfl)
  · intro k gpus hk y hy hmeet
    rcases Supervisor.worker_origin h.registered hs hy with
      ⟨x, hx, hid, -, hgpus, hxy⟩ | ⟨-, profile, gpus', port, now, rfl, hnew⟩
    · have hmeet' : gpusMeet x.gpuUuids gpus = true := by rw [hgpus]; exact hmeet
      have hstate := h.held k gpus hk x hx hmeet'
      rcases hxy with rfl | hch
      · exact hstate
      · simp only [List.mem_cons, List.not_mem_nil, or_false] at hstate
        rcases hstate with hcold | hsleep
        · simp [hch.cold hcold]
        · rcases change_sleeping hch hsleep with hy' | hleave
          · exact hy'
          · have hx' := h.registered.worker_of_mem hx
            rw [hid] at hx'
            have hclear := hc _ hleave x hx' hsleep _ (List.mem_of_getElem? hk) rfl
            rw [hclear] at hmeet'
            cases hmeet'
    · have hfree := gpusMeet_mono (hl profile gpus' y.id now rfl) (h.entered k gpus _ hk rfl)
      have hgpus : y.gpuUuids = gpus' := by rw [hnew]; rfl
      rw [hgpus, hfree] at hmeet
      cases hmeet

/-- A call that stays within its GPUs and does not come to hold them. -/
theorem Reserved.goto (h : Reserved s) {k : ℕ} {gpus : List GpuUuid} {pc pc' : Pc}
    (hk : s.calls[k]? = some ⟨gpus, pc⟩) (hpc : pc'.taken = true → pc.taken = true)
    (hset : ∀ ids ts, pc' = .settling ids ts → Covers s.supervisor gpus ids)
    (hheld : pc' = .held → ∀ x ∈ s.supervisor.workers, gpusMeet x.gpuUuids gpus = true →
      x.state ∈ [.cold, .sleeping]) : Reserved (s.goto k gpus pc') := by
  have hold : ∀ (j : ℕ) (g : List GpuUuid) (p : Pc), (s.calls.set k ⟨gpus, pc'⟩)[j]? = some ⟨g, p⟩ →
      p.taken = true → ∃ p0, s.calls[j]? = some ⟨g, p0⟩ ∧ p0.taken = true := by
    intro j g p hj hp
    rcases Tasks.set_cases hj with ⟨rfl, heq⟩ | ⟨-, hj⟩
    · cases heq
      exact ⟨pc, hk, hpc hp⟩
    · exact ⟨p, hj, hp⟩
  refine ⟨h.registered, ?_, ?_, ?_, ?_⟩
  · intro j g p hj hp
    obtain ⟨p0, hj0, hp0⟩ := hold j g p hj hp
    exact h.entered j g p0 hj0 hp0
  · intro i j g g' p p' hij hi hj hp hp'
    obtain ⟨p0, hi0, hp0⟩ := hold i g p hi hp
    obtain ⟨p1, hj1, hp1⟩ := hold j g' p' hj hp'
    exact h.disjoint i j g g' p0 p1 hij hi0 hj1 hp0 hp1
  · intro j g ids ts hj
    rcases Tasks.set_cases hj with ⟨rfl, heq⟩ | ⟨-, hj⟩
    · cases heq
      exact hset ids ts rfl
    · exact h.settling j g ids ts hj
  · intro j g hj
    rcases Tasks.set_cases hj with ⟨rfl, heq⟩ | ⟨-, hj⟩
    · cases heq
      exact hheld rfl
    · exact h.held j g hj

/-- The GPUs of a call are given back with it. -/
theorem Reserved.giveBack (h : Reserved s) {k : ℕ} {gpus : List GpuUuid} {pc : Pc}
    (hk : s.calls[k]? = some ⟨gpus, pc⟩) (hpc : pc.taken = true) :
    Reserved ((s.giveBack gpus).goto k gpus .returned) := by
  have hgoto : Reserved (s.goto k gpus .returned) :=
    h.goto hk (fun hp => by cases hp) (fun _ _ hp => by cases hp) (fun hp => by cases hp)
  refine ⟨h.registered, ?_, hgoto.disjoint, hgoto.settling, hgoto.held⟩
  intro j g p hj hp e he
  have hin : e ∈ s.validationGpuUuids := hgoto.entered j g p hj hp e he
  rcases Tasks.set_cases hj with ⟨rfl, heq⟩ | ⟨hjk, hj⟩
  · cases heq
    cases hp
  · have hdis := h.disjoint j k g gpus p pc hjk hj hk hp hpc
    have hnot : e ∉ gpus := fun hmem => by
      have : gpusMeet g gpus = true := gpusMeet_iff.mpr ⟨e, he, hmem⟩
      rw [hdis] at this
      cases this
    simpa [State.giveBack, State.goto] using ⟨hin, hnot⟩

/-! ### The lock -/

/-- Only `launch` puts a launch in progress. -/
theorem launching_step {sup : Supervisor.State} {a : Supervisor.Act}
    (hs : Supervisor.step cfg s.supervisor a = some sup) (hnl : ∀ profile g id now, a ≠ .launch profile g id now)
    (h : sup.launching ≠ none) : s.supervisor.launching ≠ none := by
  cases Supervisor.engines_step hs with
  | same hl | exited _ _ hl => exact hl ▸ h
  | begun profile g id now ha => exact absurd ha (hnl profile g id now)
  | spawned _ _ hl => simp [hl]
  | ended _ _ _ hl => exact absurd hl h

theorem Locked.supervisor (h : Locked s) (hr : Supervisor.Registered s.supervisor) {sup : Supervisor.State}
    {a : Supervisor.Act} (hs : Supervisor.step cfg s.supervisor a = some sup)
    (hnl : ∀ profile g id now, a ≠ .launch profile g id now) : Locked { s with supervisor := sup } := by
  refine ⟨fun hl => h.launching (launching_step hs hnl hl), h.starting, fun k gpus ids hk => ?_⟩
  obtain ⟨hlock, hcov⟩ := h.checking k gpus ids hk
  exact ⟨hlock, covers_step hr hs (fun profile g id now ha => absurd ha (hnl profile g id now)) hcov⟩

/-- A call goes on that does not hold the lock, or gives it back. -/
theorem Locked.goto (h : Locked s) {k : ℕ} {gpus : List GpuUuid} {pc' : Pc}
    (hpc : ∀ ids, pc' ≠ .checking ids) (validation : List GpuUuid) (lock : Option Holder)
    (hlock : lock = s.stateLock ∨ (s.stateLock = some (.acquire k) ∧ lock = none))
    (hval : s.stateLock = lock → ∀ g ∈ validation, g ∈ s.validationGpuUuids) :
    Locked { s.goto k gpus pc' with stateLock := lock, validationGpuUuids := validation } := by
  refine ⟨fun hl => ?_, fun profile g hst => ?_, fun j g ids hj => ?_⟩
  · have hlaunch := h.launching hl
    rcases hlock with rfl | ⟨hacq, -⟩
    · exact hlaunch
    · rw [hacq] at hlaunch
      cases hlaunch
  · have hst' : lock = some (.starting profile g) := hst
    rcases hlock with rfl | ⟨-, rfl⟩
    · exact gpusMeet_mono (h.starting profile g hst') (hval rfl)
    · cases hst'
  · rcases Tasks.set_cases hj with ⟨-, heq⟩ | ⟨hjk, hj⟩
    · cases heq
      exact absurd rfl (hpc ids)
    · obtain ⟨hlk, hcov⟩ := h.checking j g ids hj
      refine ⟨?_, hcov⟩
      rcases hlock with rfl | ⟨hacq, -⟩
      · exact hlk
      · rw [hlk] at hacq
        cases hacq
        exact absurd rfl hjk

/-! ### The steps -/

/-- The action is a step of the supervisor with the lock as it is. -/
theorem step_supervisor {a : Supervisor.Act} (hs : step cfg s (.supervisor a) = some s') :
    ∃ sup, Supervisor.step cfg s.supervisor a = some sup ∧ s' = { s with supervisor := sup } ∧
      ∀ profile g id now, a ≠ .launch profile g id now := by
  cases a with
  | launch | wake => cases hs
  | admitRequest w r e now =>
    simp only [step, Option.ite_none_right_eq_some] at hs
    obtain ⟨-, hs⟩ := hs
    obtain ⟨sup, hsup, rfl⟩ := Option.map_eq_some_iff.mp hs
    exact ⟨sup, hsup, rfl, by simp⟩
  | _ =>
    simp only [step] at hs
    obtain ⟨sup, hsup, rfl⟩ := Option.map_eq_some_iff.mp hs
    exact ⟨sup, hsup, rfl, by simp⟩

/-- What the awaited calls do: a `sleep` or `stop` of the supervisor, or
nothing. -/
theorem transitionStep_cases {k i : ℕ} {now : Datetime} {gpus : List GpuUuid} {ids : List WorkerId}
    {ts : List Transition} (hs : transitionStep cfg s k i now gpus ids ts = some s') :
    ∃ ts', (s' = s.goto k gpus (.settling ids ts')) ∨
      ∃ a sup, Supervisor.step cfg s.supervisor a = some sup ∧
        (∀ profile g id now, a ≠ .launch profile g id now) ∧ leavesSleep cfg s.supervisor a = none ∧
        s' = { s.goto k gpus (.settling ids ts') with supervisor := sup } := by
  unfold transitionStep at hs
  split at hs
  · rename_i w _
    obtain ⟨sup, hsup, rfl⟩ := Option.map_eq_some_iff.mp hs
    refine ⟨_, .inr ⟨_, sup, hsup, ?_, ?_, rfl⟩⟩
    · split <;> simp
    · split <;> simp_all [leavesSleep]
  · simp only [Option.ite_none_right_eq_some, Option.some.injEq] at hs
    exact ⟨_, .inl hs.2.symm⟩
  · cases hs

theorem Reserved.check (h : Reserved s) (hlk : Locked s) {k : ℕ} {gpus : List GpuUuid} {ids : List WorkerId}
    (hk : s.calls[k]? = some ⟨gpus, .checking ids⟩) (clear : Bool) :
    Reserved (checkSection cfg s k gpus ids clear) ∧ Locked (checkSection cfg s k gpus ids clear) := by
  obtain ⟨hlock, hcov⟩ := hlk.checking k gpus ids hk
  unfold checkSection
  simp only
  split
  · constructor
    · have hgoto : Reserved (s.goto k gpus .returned) :=
        h.goto hk (fun hp => by cases hp) (fun _ _ hp => by cases hp) (fun hp => by cases hp)
      exact ⟨hgoto.registered, hgoto.entered, hgoto.disjoint, hgoto.settling, hgoto.held⟩
    · exact hlk.goto (by simp) s.validationGpuUuids none (.inr ⟨hlock, rfl⟩) fun _ g hg => hg
  · rename_i hguard
    simp only [not_or] at hguard
    have hfree : gpusMeet gpus s.validationGpuUuids = false := by simpa using hguard.2.1
    constructor
    · refine ⟨h.registered, ?_, ?_, ?_, ?_⟩
      · intro j g p hj hp e he
        rcases Tasks.set_cases hj with ⟨rfl, heq⟩ | ⟨-, hj⟩
        · cases heq
          exact List.mem_append_right _ he
        · exact List.mem_append_left _ (h.entered j g p hj hp e he)
      · intro i j g g' p p' hij hi hj hp hp'
        rcases Tasks.set_cases hi with ⟨hik, heq⟩ | ⟨-, hi0⟩
        · cases heq
          rcases Tasks.set_cases hj with ⟨hjk, -⟩ | ⟨-, hj0⟩
          · exact absurd (hik.trans hjk.symm) hij
          · exact gpusMeet_mono hfree (h.entered j g' p' hj0 hp')
        · rcases Tasks.set_cases hj with ⟨-, heq⟩ | ⟨-, hj0⟩
          · cases heq
            rw [gpusMeet_comm]
            exact gpusMeet_mono hfree (h.entered i g p hi0 hp)
          · exact h.disjoint i j g g' p p' hij hi0 hj0 hp hp'
      · intro j g ids' ts hj
        rcases Tasks.set_cases hj with ⟨rfl, heq⟩ | ⟨-, hj⟩
        · cases heq
          exact hcov
        · exact h.settling j g ids' ts hj
      · intro j g hj
        rcases Tasks.set_cases hj with ⟨rfl, heq⟩ | ⟨-, hj⟩
        · cases heq
        · exact h.held j g hj
    · exact hlk.goto (by simp) _ none (.inr ⟨hlock, rfl⟩) fun heq => by rw [hlock] at heq; cases heq

/-- A call that was settling: it holds its GPUs only if every worker on them
is COLD or SLEEPING. -/
theorem Reserved.recheck (h : Reserved s) {k : ℕ} {gpus : List GpuUuid} {ids : List WorkerId}
    {ts : List Transition} (hk : s.calls[k]? = some ⟨gpus, .settling ids ts⟩) (failures demandArrived : Bool) :
    Reserved (recheckSection s k gpus ids failures demandArrived) := by
  unfold recheckSection
  simp only
  split
  · exact h.giveBack hk rfl
  · rename_i hguard
    simp only [not_or, not_not] at hguard
    have hresolved := List.filter_eq_nil_iff.mp hguard.2.1
    refine h.goto hk (fun _ => rfl) (fun _ _ hp => by cases hp) fun _ x hx hmeet => ?_
    by_cases hcold : x.state = .cold
    · simp [hcold]
    · have hid : x.id ∈ ids := h.settling k gpus ids ts hk x hx hcold hmeet
      have hx' := hresolved x (List.mem_filterMap.mpr ⟨x.id, hid, h.registered.worker_of_mem hx⟩)
      simpa [hcold] using hx'

theorem Locked.recheck (h : Locked s) {k : ℕ} {gpus : List GpuUuid} {ids : List WorkerId}
    (failures demandArrived : Bool) : Locked (recheckSection s k gpus ids failures demandArrived) := by
  unfold recheckSection
  simp only
  split
  · exact h.goto (by simp) _ s.stateLock (.inl rfl) fun _ g hg => (List.mem_filter.mp hg).1
  · exact h.goto (by simp) s.validationGpuUuids s.stateLock (.inl rfl) fun _ g hg => hg

theorem Reserved.acquire (h : Reserved s) (gpus : List GpuUuid) (ids : List WorkerId) (lock : Option Holder) :
    Reserved { s with stateLock := lock, calls := s.calls ++ [⟨gpus, .checking ids⟩] } := by
  have hold : ∀ (j : ℕ) (c : Call), (s.calls ++ [⟨gpus, .checking ids⟩])[j]? = some c → c.pc.taken = true →
      s.calls[j]? = some c := by
    intro j c hj hp
    rcases Tasks.snoc_cases hj with ⟨-, rfl⟩ | hj
    · cases hp
    · exact hj
  exact ⟨h.registered, fun j g p hj hp => h.entered j g p (hold j _ hj hp) hp,
    fun i j g g' p p' hij hi hj hp hp' => h.disjoint i j g g' p p' hij (hold i _ hi hp) (hold j _ hj hp') hp hp',
    fun j g ids ts hj => h.settling j g ids ts (hold j _ hj rfl), fun j g hj => h.held j g (hold j _ hj rfl)⟩

/-- The lock is free: the new call finds the workers on its GPUs. -/
theorem Locked.acquire (h : Locked s) (hfree : s.stateLock = none) (gpus : List GpuUuid) :
    Locked { s with
      stateLock := some (.acquire s.calls.length)
      calls := s.calls ++
        [⟨gpus, .checking ((Supervisor.overlappingWorkers s.supervisor.workers gpus).map (·.id))⟩] } := by
  refine ⟨fun hl => ?_, fun _ _ hst => (by cases hst), fun j g ids hj => ?_⟩
  · have hlock := h.launching hl
    rw [hfree] at hlock
    cases hlock
  · rcases Tasks.snoc_cases hj with ⟨rfl, heq⟩ | hj
    · cases heq
      refine ⟨rfl, fun x hx hstate hmeet => ?_⟩
      refine List.mem_map.mpr ⟨x, List.mem_filter.mpr ⟨hx, ?_⟩, rfl⟩
      simp [hstate, hmeet]
    · obtain ⟨hlock, -⟩ := h.checking j g ids hj
      rw [hfree] at hlock
      cases hlock

theorem Reserved.settle (h : Reserved s) {k : ℕ} {gpus : List GpuUuid} {ids : List WorkerId} {ts : List Transition}
    (hk : s.calls[k]? = some ⟨gpus, .settling ids ts⟩) (ts' : List Transition) :
    Reserved (s.goto k gpus (.settling ids ts')) :=
  h.goto hk (fun _ => rfl) (fun ids' _ hp => by cases hp; exact h.settling k gpus ids ts hk) (fun hp => by cases hp)

theorem Locked.settle (h : Locked s) (k : ℕ) (gpus : List GpuUuid) (ids : List WorkerId) (ts : List Transition) :
    Locked (s.goto k gpus (.settling ids ts)) :=
  h.goto (by simp) s.validationGpuUuids s.stateLock (.inl rfl) fun _ _ hg => hg

theorem Reserved.relock (h : Reserved s) (lock : Option Holder) : Reserved { s with stateLock := lock } :=
  ⟨h.registered, h.entered, h.disjoint, h.settling, h.held⟩

/-- While another holds the lock no acquisition does. -/
theorem Locked.not_checking (h : Locked s) {lock : Option Holder} (hlock : s.stateLock = lock)
    (hno : ∀ k, lock ≠ some (.acquire k)) {P : Prop} {k : ℕ} {gpus : List GpuUuid} {ids : List WorkerId}
    (hk : s.calls[k]? = some ⟨gpus, .checking ids⟩) : P :=
  absurd (hlock.symm.trans (h.checking k gpus ids hk).1) (hno k)

theorem Locked.not_launching (h : Locked s) {lock : Option Holder} (hlock : s.stateLock = lock)
    (hno : lock ≠ some .launching) : s.supervisor.launching = none := by
  by_contra hl
  exact hno (hlock.symm.trans (h.launching hl))

theorem Locked.startCheck (h : Locked s) (hfree : s.stateLock = none) {profile : PlacementProfile}
    {gpus : List GpuUuid} (hg : gpusMeet gpus s.validationGpuUuids = false) :
    Locked { s with stateLock := some (.starting profile gpus) } := by
  refine ⟨fun hl => ?_, fun p g hst => ?_, fun j g ids hj => ?_⟩
  · exact absurd (h.not_launching hfree (by simp)) hl
  · cases hst
    exact hg
  · exact h.not_checking hfree (by simp) hj

theorem Locked.launch (h : Locked s) {profile : PlacementProfile} {gpus : List GpuUuid}
    (hlock : s.stateLock = some (.starting profile gpus)) (sup : Supervisor.State) :
    Locked { s with supervisor := sup, stateLock := some .launching } :=
  ⟨fun _ => rfl, fun _ _ hst => (by cases hst), fun _ _ _ hj => h.not_checking hlock (by simp) hj⟩

/-- The lock is given back by one who launches nothing. -/
theorem Locked.unlock (h : Locked s) {lock : Option Holder} (hlock : s.stateLock = lock)
    (hno : ∀ k, lock ≠ some (.acquire k)) (hdone : s.supervisor.launching = none) :
    Locked { s with stateLock := none } :=
  ⟨fun hl => absurd hdone hl, fun _ _ hst => (by cases hst), fun _ _ _ hj => h.not_checking hlock hno hj⟩

/-- What a step does. -/
inductive Effect (cfg : Settings) (s : State) (a : Act) : State → Prop
  | same : Effect cfg s a s
  | supervisor {b : Supervisor.Act} {sup : Supervisor.State} (ha : a = .supervisor b)
      (hs : Supervisor.step cfg s.supervisor b = some sup)
      (hnl : ∀ profile g id now, b ≠ .launch profile g id now) : Effect cfg s a { s with supervisor := sup }
  | acquired {gpus : List GpuUuid} (hfree : s.stateLock = none) : Effect cfg s a { s with
      stateLock := some (.acquire s.calls.length)
      calls := s.calls ++
        [⟨gpus, .checking ((Supervisor.overlappingWorkers s.supervisor.workers gpus).map (·.id))⟩] }
  | checked {k : ℕ} {gpus : List GpuUuid} {ids : List WorkerId} {clear : Bool}
      (hk : s.calls[k]? = some ⟨gpus, .checking ids⟩) : Effect cfg s a (checkSection cfg s k gpus ids clear)
  | awaited {k i : ℕ} {now : Datetime} {gpus : List GpuUuid} {ids : List WorkerId} {ts : List Transition} {s' : State}
      (hk : s.calls[k]? = some ⟨gpus, .settling ids ts⟩) (hs : transitionStep cfg s k i now gpus ids ts = some s') :
      Effect cfg s a s'
  | rechecked {k : ℕ} {gpus : List GpuUuid} {ids : List WorkerId} {ts : List Transition}
      {failures demandArrived : Bool} (hk : s.calls[k]? = some ⟨gpus, .settling ids ts⟩) :
      Effect cfg s a (recheckSection s k gpus ids failures demandArrived)
  | released {k : ℕ} {gpus : List GpuUuid} (hk : s.calls[k]? = some ⟨gpus, .held⟩) :
      Effect cfg s a ((s.giveBack gpus).goto k gpus .returned)
  | starting {profile : PlacementProfile} {gpus : List GpuUuid} (hfree : s.stateLock = none)
      (hg : gpusMeet gpus s.validationGpuUuids = false) :
      Effect cfg s a { s with stateLock := some (.starting profile gpus) }
  | launched {profile : PlacementProfile} {gpus : List GpuUuid} {id : WorkerId} {now : Datetime}
      {sup : Supervisor.State} (hlock : s.stateLock = some (.starting profile gpus))
      (hs : Supervisor.step cfg s.supervisor (.launch profile gpus id now) = some sup) :
      Effect cfg s a { s with supervisor := sup, stateLock := some .launching }
  | refused {profile : PlacementProfile} {gpus : List GpuUuid} (hlock : s.stateLock = some (.starting profile gpus)) :
      Effect cfg s a { s with stateLock := none }
  | ended (hlock : s.stateLock = some .launching) (hdone : s.supervisor.launching = none) :
      Effect cfg s a { s with stateLock := none }
  | woken {w : WorkerId} {sup : Supervisor.State} (hs : Supervisor.step cfg s.supervisor (.wake w) = some sup) :
      Effect cfg s a { s with supervisor := sup }

theorem step_effect {a : Act} (hs : step cfg s a = some s') : Effect cfg s a s' := by
  cases a with
  | supervisor b =>
    obtain ⟨sup, hsup, rfl, hnl⟩ := step_supervisor hs
    exact .supervisor rfl hsup hnl
  | acquire gpus =>
    obtain ⟨hfree, heq⟩ := Option.ite_none_right_eq_some.mp hs
    cases heq
    exact .acquired hfree
  | check k clear =>
    simp only [step] at hs
    split at hs
    · cases hs
      exact .checked ‹_›
    · cases hs
  | transition k i now =>
    simp only [step] at hs
    split at hs
    · exact .awaited ‹_› hs
    · cases hs
  | recheck k failures demandArrived =>
    simp only [step] at hs
    split at hs
    · obtain ⟨-, heq⟩ := Option.ite_none_right_eq_some.mp hs
      cases heq
      exact .rechecked ‹_›
    · cases hs
  | release k =>
    simp only [step] at hs
    split at hs
    · obtain ⟨-, heq⟩ := Option.ite_none_right_eq_some.mp hs
      cases heq
      exact .released ‹_›
    · cases hs
  | startCheck profile gpus active =>
    obtain ⟨hfree, hs⟩ := Option.ite_none_right_eq_some.mp hs
    split at hs
    · cases hs
      exact .same
    · rename_i hguard
      cases hs
      exact .starting hfree (by simpa using (not_or.mp hguard).2)
  | startLaunch id now =>
    simp only [step] at hs
    split at hs
    · rename_i profile gpus hlock
      split at hs
      · obtain ⟨sup, hsup, rfl⟩ := Option.map_eq_some_iff.mp hs
        exact .launched hlock hsup
      · cases hs
        exact .refused hlock
    · cases hs
  | startEnd =>
    obtain ⟨⟨hlock, hdone⟩, heq⟩ := Option.ite_none_right_eq_some.mp hs
    cases heq
    exact .ended hlock hdone
  | wakeCheck w active =>
    obtain ⟨-, hs⟩ := Option.ite_none_right_eq_some.mp hs
    split at hs
    · cases hs
      exact .same
    · split at hs
      · cases hs
        exact .same
      · obtain ⟨sup, hsup, rfl⟩ := Option.map_eq_some_iff.mp hs
        exact .woken hsup

theorem reserved_step {a : Act} (h : Reserved s) (hlk : Locked s) (ha : keepsHeld cfg s a = true)
    (hs : step cfg s a = some s') : Reserved s' := by
  cases step_effect hs with
  | same => exact h
  | supervisor heq hsup hnl =>
    cases heq
    refine h.supervisor hsup (fun profile g id now heq => absurd heq (hnl profile g id now)) ?_ s.stateLock
    intro w hw x hx hsleep c hc hheld
    simp only [keepsHeld, hw, Option.all_some, hx, hsleep, decide_eq_true_eq, forall_const,
      List.all_eq_true] at ha
    exact ha c hc hheld
  | acquired => exact h.acquire _ _ _
  | checked hk => exact (h.check hlk hk _).1
  | awaited hk hs =>
    obtain ⟨ts', rfl | ⟨b, sup, hsup, hnl, hleave, rfl⟩⟩ := transitionStep_cases hs
    · exact h.settle hk ts'
    · refine (h.settle hk ts').supervisor hsup (fun profile g id now heq => absurd heq (hnl profile g id now)) ?_ _
      intro w hw
      have hw' : leavesSleep cfg s.supervisor b = some w := hw
      rw [hleave] at hw'
      cases hw'
  | rechecked hk => exact h.recheck hk _ _
  | released hk => exact h.giveBack hk rfl
  | starting | refused | ended => exact h.relock _
  | launched hlock hsup =>
    refine h.supervisor hsup (fun p g i n heq => ?_) (fun w hw => by cases hw) _
    cases heq
    exact hlk.starting _ _ hlock
  | woken hsup => exact h.supervisor hsup (by simp) (fun w hw => by cases hw) s.stateLock

theorem locked_step {a : Act} (h : Reserved s) (hlk : Locked s) (hs : step cfg s a = some s') : Locked s' := by
  cases step_effect hs with
  | same => exact hlk
  | supervisor _ hsup hnl => exact hlk.supervisor h.registered hsup hnl
  | acquired hfree => exact hlk.acquire hfree _
  | checked hk => exact (h.check hlk hk _).2
  | awaited hk hs =>
    obtain ⟨ts', rfl | ⟨b, sup, hsup, hnl, -, rfl⟩⟩ := transitionStep_cases hs
    · exact hlk.settle _ _ _ ts'
    · exact (hlk.settle _ _ _ ts').supervisor h.registered hsup hnl
  | rechecked => exact hlk.recheck _ _
  | released => exact hlk.goto (by simp) _ s.stateLock (.inl rfl) fun _ g hg => (List.mem_filter.mp hg).1
  | starting hfree hg => exact hlk.startCheck hfree hg
  | launched hlock => exact hlk.launch hlock _
  | refused hlock => exact hlk.unlock hlock (by simp) (hlk.not_launching hlock (by simp))
  | ended hlock hdone => exact hlk.unlock hlock (by simp) hdone
  | woken hsup => exact hlk.supervisor h.registered hsup (by simp)

theorem Reserved.ownsGpus (h : Reserved s) : Exclusive s := by
  refine ⟨fun k gpus hk x hx hmeet => ?_, fun j k gpus gpus' hjk hj hk => ?_⟩
  · have hstate := h.held k gpus hk x hx hmeet
    simp only [List.mem_cons, List.not_mem_nil, or_false] at hstate
    rcases hstate with hstate | hstate <;> simp [hstate, gpuResidentStates]
  · exact h.disjoint j k gpus gpus' _ _ hjk hj hk rfl rfl

/-- **Validation owns its GPUs**, in every run in which no section that enters
a wake, a drain or a stop finds its worker SLEEPING on GPUs that a validation
holds. -/
theorem exclusive (cfg : Settings) (as : List Act) (t : State)
    (h : exec (restrict (step cfg) fun s a => keepsHeld cfg s a = true) start as = some t) : Exclusive t := by
  have hinv : Reserved t ∧ Locked t := by
    refine exec_invariant (I := fun s => Reserved s ∧ Locked s) (fun _ _ _ hi hs => ?_)
      ⟨reserved_start, locked_start⟩ h
    obtain ⟨ha, hs⟩ := restrict_eq_some.mp hs
    exact ⟨reserved_step hi.1 hi.2 ha hs, locked_step hi.1 hi.2 hs⟩
  exact hinv.1.ownsGpus

/-- A worker that is put to sleep while it serves a request; the release of
the request offloads it, and the offload has stored SLEEPING but not ended. -/
def asleepRun : List Act :=
  [.startCheck (Supervisor.oneGpu "kvcached") ["gpu"] true, .startLaunch "w" 0,
    .supervisor (.launchSpawned 1), .supervisor .launchDone, .startEnd, .supervisor (.task 0 true 1 0),
    .supervisor (.admitRequest "w" "r" 10 2), .supervisor (.sleep "w" 3), .supervisor (.release "w" "r" 10 4),
    .supervisor (.task 2 true 5 0), .supervisor (.task 2 true 6 0), .supervisor (.task 2 true 7 1)]

/-- An acquisition that finds the worker SLEEPING and returns True. -/
def acquireRun : List Act := [.acquire ["gpu"], .check 0 true, .recheck 0 false false]

theorem exclusive_asleep :
    ∃ t, exec (restrict (step { kvcachedEnabled := true }) fun s a =>
        keepsHeld { kvcachedEnabled := true } s a = true) start (asleepRun ++ acquireRun) = some t ∧
      t.calls[0]? = some ⟨["gpu"], .held⟩ ∧ Exclusive t :=
  ⟨_, rfl, rfl, exclusive { kvcachedEnabled := true } (asleepRun ++ acquireRun) _ rfl⟩

/-- A wake that was let through before the acquisition and waits for the
offload's transition lock. -/
theorem exclusive_broken :
    ∃ t, exec (step { kvcachedEnabled := true }) start (asleepRun ++ [.wakeCheck "w" true] ++ acquireRun ++
        [.supervisor (.task 2 true 8 0), .supervisor (.task 3 true 9 0)]) = some t ∧
      t.calls[0]? = some ⟨["gpu"], .held⟩ ∧ (t.supervisor.worker? "w").map (·.state) = some .waking ∧
      ¬ Exclusive t := by
  refine ⟨_, rfl, rfl, rfl, fun h => ?_⟩
  have hnot := h.resident 0 ["gpu"] rfl _ List.mem_cons_self rfl
  exact hnot (by decide)

end Validation
end LlmRio
