/-
# An acquisition that fails

`acquire_validation_gpus` with what each of its awaits may come to. It enters
the GPUs into `_validation_gpu_uuids` in its first section and takes them out
in its second when a worker could not be put to sleep or requests have come
meanwhile. Between the two sections, and while the event of a success is
recorded, an exception passes through the function as it is, and the GPUs
stay entered: `validate_vllm` releases them only after a True.

What the other tasks do while the function waits (the workers, the queues) is
part of the script. Another holder enters and gives back only GPUs of its own
(`Validation.reserved_step`), so that the set is the function's to follow.

Key definitions: `Await`, `Script`, `acquire`, `Enters`, `Uninterrupted`, `Restores`.
Key theorems: `acquire_cases`, `restores_iff`, `release_restores`.
-/
import LlmRio.Lib.Handlers
import LlmRio.Workers.Supervisor

namespace LlmRio
namespace Acquisition

open Handlers

/-- An exception; `cancelled` is the cancellation of the task itself. -/
inductive Raised
  | cancelled
  | exception (name : String)
deriving DecidableEq, Repr

/-- Where the function waits. -/
inductive Await
  | lock | serviceMode | gather
  /-- The lock of the second section. -/
  | relock
  | recordEvent
deriving DecidableEq, Repr

/-- What the other tasks work on. -/
structure World where
  workers : List WorkerPlacement := []
  pendingModels : List ModelId := []
  maintenanceRequested : Bool := false
  lastArrivalAt : Datetime := 0

inductive Event
  | validationGpusDeferred (gpus : List GpuUuid) (transitionFailures : ℕ) (unresolvedWorkerIds : List WorkerId)
      (productionDemand : Bool) (preservedCachedWorkerIds : List WorkerId)
  | validationGpusAcquireFailed (gpus : List GpuUuid) (transitionFailures : ℕ) (unresolvedWorkerIds : List WorkerId)
      (productionDemand : Bool) (preservedCachedWorkerIds : List WorkerId)
  | validationGpusAcquired (gpus : List GpuUuid) (preservedCachedWorkerIds evictedCachedWorkerIds : List WorkerId)
  | validationGpusReleased (gpus : List GpuUuid)
deriving DecidableEq, Repr

structure State extends World where
  validationGpuUuids : Finset GpuUuid := ∅
  recorded : List Event := []
  /-- `_event` is set. -/
  event : Bool := false

/-- What an acquisition meets. -/
structure Script where
  now : Datetime
  serviceMode : ServiceMode := .active
  raises : Await → Option Raised := fun _ => none
  /-- What the other tasks do while the function waits. -/
  meanwhile : Await → World → World := fun _ w => w
  /-- What a worker has become when the service mode has been read. -/
  refreshed : WorkerPlacement → WorkerPlacement := id
  /-- What the `sleep` or the `stop` of a worker raises. -/
  failure : WorkerId → Option Raised := fun _ => none

structure Settings extends LlmRio.Settings where
  validationIdleWindowSeconds : ℚ

abbrev M := EStateM Raised State

variable (cfg : Settings) (sc : Script) (gpus : List GpuUuid)

def await (a : Await) : M Unit := do
  modify fun s => { s with toWorld := sc.meanwhile a s.toWorld }
  match sc.raises a with
  | none => pure ()
  | some e => throw e

/-- The guard of the first section. -/
def turnsAway (s : State) (idleFor : ℚ) (overlapping : List WorkerPlacement) : Bool :=
  sc.serviceMode ≠ .active ∨ s.maintenanceRequested = true ∨ s.pendingModels ≠ [] ∨
    idleFor < cfg.validationIdleWindowSeconds ∨ gpus.any (· ∈ s.validationGpuUuids) = true ∨
    overlapping.any (·.admittedRequestIds ≠ []) = true ∨ overlapping.any (·.state ∉ [.ready, .sleeping]) = true

/-- The first section; `none` is a return of False. -/
def checkSection : M (Option (List WorkerPlacement)) := do
  await sc .lock
  let s ← get
  let idleFor := sc.now - s.lastArrivalAt
  let overlapping := s.workers.filter fun w => w.state ≠ .cold ∧ gpusMeet w.gpuUuids gpus
  await sc .serviceMode
  let s ← get
  if turnsAway cfg sc gpus s idleFor (overlapping.map sc.refreshed) then pure none
  else do
    modify fun s => { s with validationGpuUuids := s.validationGpuUuids ∪ gpus.toFinset }
    pure (some (overlapping.map sc.refreshed))

/-- The workers that are put to sleep, or stopped. -/
def transitioned (overlapping : List WorkerPlacement) : List WorkerId :=
  if cfg.ramWeightCacheEnabled then (overlapping.filter (·.state = .ready)).map (·.id)
  else overlapping.map (·.id)

/-- `failures` -/
def transitions (overlapping : List WorkerPlacement) : M (List Raised) := do
  await sc .gather
  pure ((transitioned cfg overlapping).filterMap sc.failure)

structure Recheck where
  retainedWorkerIds : List WorkerId
  unresolvedWorkerIds : List WorkerId
  demandArrived : Bool
deriving DecidableEq, Repr

/-- What the second section finds. -/
def recheckOf (w : World) (workerIds : List WorkerId) : Recheck where
  retainedWorkerIds := workerIds.filter fun id =>
    (Table.lookup WorkerPlacement.id id w.workers).any (·.state = .sleeping)
  unresolvedWorkerIds := workerIds.filter fun id =>
    (Table.lookup WorkerPlacement.id id w.workers).any (·.state ∉ [.cold, .sleeping])
  demandArrived := w.pendingModels ≠ []

def deferred (failures : List Raised) (r : Recheck) : Bool :=
  failures ≠ [] ∨ r.unresolvedWorkerIds ≠ [] ∨ r.demandArrived = true

/-- The second section. -/
def recheckSection (workerIds : List WorkerId) (failures : List Raised) : M Recheck := do
  await sc .relock
  let s ← get
  let r := recheckOf s.toWorld workerIds
  if deferred failures r then
    modify fun s => { s with validationGpuUuids := s.validationGpuUuids \ gpus.toFinset }
  pure r

def recordEvent (e : Event) : M Unit := do
  await sc .recordEvent
  modify fun s => { s with recorded := s.recorded ++ [e] }

/-- The event of a deferral, or of a failure. -/
def deferral (failures : List Raised) (r : Recheck) : Event :=
  if r.demandArrived = true ∧ failures = [] ∧ r.unresolvedWorkerIds = [] then
    .validationGpusDeferred gpus failures.length r.unresolvedWorkerIds r.demandArrived r.retainedWorkerIds
  else .validationGpusAcquireFailed gpus failures.length r.unresolvedWorkerIds r.demandArrived r.retainedWorkerIds

/-- The function after its second section. -/
def conclude (workerIds : List WorkerId) (failures : List Raised) (r : Recheck) : M Bool :=
  if deferred failures r then do
    recordEvent sc (deferral gpus failures r)
    modify fun s => { s with event := true }
    pure false
  else do
    recordEvent sc (.validationGpusAcquired gpus r.retainedWorkerIds
      (if cfg.ramWeightCacheEnabled then [] else workerIds))
    pure true

/-- The function after its first section. -/
def settle (overlapping : List WorkerPlacement) : M Bool := do
  let workerIds := overlapping.map (·.id)
  let failures ← transitions cfg sc overlapping
  let r ← recheckSection sc gpus workerIds failures
  conclude cfg sc gpus workerIds failures r

def acquire : M Bool := do
  match ← checkSection cfg sc gpus with
  | none => pure false
  | some overlapping => settle cfg sc gpus overlapping

/-- `release_validation_gpus` -/
def release : M Unit := do
  await sc .relock
  modify fun s => { s with validationGpuUuids := s.validationGpuUuids \ gpus.toFinset }
  recordEvent sc (.validationGpusReleased gpus)
  modify fun s => { s with event := true }

/-! ### What it comes to -/

namespace State

/-- The other tasks have worked while the function waited. -/
def after (s : State) (a : Await) : State := { s with toWorld := sc.meanwhile a s.toWorld }

def enter (s : State) : State := { s with validationGpuUuids := s.validationGpuUuids ∪ gpus.toFinset }

def giveBack (s : State) : State := { s with validationGpuUuids := s.validationGpuUuids \ gpus.toFinset }

/-- The event is recorded. -/
def note (e : Event) (s : State) : State :=
  { s.after sc .recordEvent with recorded := (s.after sc .recordEvent).recorded ++ [e] }

@[simp] theorem after_validationGpuUuids (s : State) (a : Await) :
    (s.after sc a).validationGpuUuids = s.validationGpuUuids := rfl

end State

variable {α : Type}

/-- `overlapping` when the service mode has been read. -/
def overlappingOf (s : State) : List WorkerPlacement :=
  ((s.after sc .lock).workers.filter fun w => w.state ≠ .cold ∧ gpusMeet w.gpuUuids gpus).map sc.refreshed

/-- The call passes its guard. -/
def Enters (s : State) : Prop :=
  sc.raises .lock = none ∧ sc.raises .serviceMode = none ∧
    turnsAway cfg sc gpus ((s.after sc .lock).after sc .serviceMode) (sc.now - (s.after sc .lock).lastArrivalAt)
      (overlappingOf sc gpus s) = false

/-- The state in which the second section looks at the workers again. -/
def rechecked (s : State) : State :=
  ((((s.after sc .lock).after sc .serviceMode).enter gpus).after sc .gather).after sc .relock

/-- The second section gives the GPUs back. -/
def Defers (s : State) : Prop :=
  deferred ((transitioned cfg (overlappingOf sc gpus s)).filterMap sc.failure)
    (recheckOf (rechecked sc gpus s).toWorld ((overlappingOf sc gpus s).map (·.id))) = true

/-- No exception interrupts the call once it has entered the GPUs. -/
def Uninterrupted (s : State) : Prop :=
  sc.raises .gather = none ∧ sc.raises .relock = none ∧ (Defers cfg sc gpus s ∨ sc.raises .recordEvent = none)

/-- A True has entered the GPUs; a False or an exception leaves the set as it was. -/
def Restores (s : State) : EStateM.Result Raised State Bool → Prop
  | .ok true t => t.validationGpuUuids = s.validationGpuUuids ∪ gpus.toFinset
  | .ok false t => t.validationGpuUuids = s.validationGpuUuids
  | .error _ t => t.validationGpuUuids = s.validationGpuUuids

instance (s : State) : (r : EStateM.Result Raised State Bool) → Decidable (Restores gpus s r)
  | .ok true _ | .ok false _ | .error _ _ => inferInstanceAs (Decidable (_ = _))

variable {cfg sc gpus} {s t : State} {a : Await} {e : Raised}

theorem await_ok (h : sc.raises a = none) : await sc a s = .ok () (s.after sc a) := by
  have hrun : await sc a s = (match sc.raises a with
      | none => (pure () : M Unit)
      | some e => throw e) (s.after sc a) := modify_run
  rw [hrun, h]
  rfl

theorem await_error (h : sc.raises a = some e) : await sc a s = .error e (s.after sc a) := by
  have hrun : await sc a s = (match sc.raises a with
      | none => (pure () : M Unit)
      | some e => throw e) (s.after sc a) := modify_run
  rw [hrun, h]
  rfl

/-- What is entered was not in the set. -/
theorem Enters.disjoint (h : Enters cfg sc gpus s) : Disjoint s.validationGpuUuids gpus.toFinset := by
  have hguard := h.2.2
  simp only [turnsAway, decide_eq_false_iff_not, not_or, State.after_validationGpuUuids, List.any_eq_true,
    decide_eq_true_eq, not_exists, not_and] at hguard
  rw [Finset.disjoint_right]
  intro g hg
  exact of_decide_eq_false (Bool.of_not_eq_true (hguard.2.2.2.2.1 g (List.mem_toFinset.mp hg)))

theorem checkSection_entered (h : Enters cfg sc gpus s) :
    checkSection cfg sc gpus s =
      .ok (some (overlappingOf sc gpus s)) (((s.after sc .lock).after sc .serviceMode).enter gpus) := by
  obtain ⟨hlock, hmode, hguard⟩ := h
  unfold checkSection
  rw [bind_ok (await_ok hlock), get_run, bind_ok (await_ok hmode), get_run]
  rw [if_neg (by rw [Bool.not_eq_true]; exact hguard)]
  rfl

/-- A call that does not pass its guard leaves the set as it is. -/
theorem checkSection_turned (h : ¬ Enters cfg sc gpus s) :
    ∃ t, t.validationGpuUuids = s.validationGpuUuids ∧
      (checkSection cfg sc gpus s = .ok none t ∨ ∃ e, checkSection cfg sc gpus s = .error e t) := by
  unfold checkSection
  cases hlock : sc.raises .lock with
  | some e => exact ⟨s.after sc .lock, rfl, .inr ⟨e, bind_error (await_error hlock)⟩⟩
  | none =>
    rw [bind_ok (await_ok hlock), get_run]
    cases hmode : sc.raises .serviceMode with
    | some e => exact ⟨(s.after sc .lock).after sc .serviceMode, rfl, .inr ⟨e, bind_error (await_error hmode)⟩⟩
    | none =>
      rw [bind_ok (await_ok hmode), get_run]
      have hguard := Bool.of_not_eq_false fun hfalse => h ⟨hlock, hmode, hfalse⟩
      refine ⟨(s.after sc .lock).after sc .serviceMode, rfl, .inl ?_⟩
      rw [if_pos (by exact hguard)]
      rfl

theorem recordEvent_error {v : Event} (h : sc.raises .recordEvent = some e) :
    recordEvent sc v s = .error e (s.after sc .recordEvent) := bind_error (await_error h)

theorem recordEvent_ok {v : Event} (h : sc.raises .recordEvent = none) :
    recordEvent sc v s = .ok () (s.note sc v) := by
  unfold recordEvent
  rw [bind_ok (await_ok h)]
  rfl

/-- The second section, when nothing has interrupted the first. -/
theorem recheckSection_ok {ids : List WorkerId} {failures : List Raised} (h : sc.raises .relock = none) :
    recheckSection sc gpus ids failures s = .ok (recheckOf (s.after sc .relock).toWorld ids)
      (if deferred failures (recheckOf (s.after sc .relock).toWorld ids) then (s.after sc .relock).giveBack gpus
        else s.after sc .relock) := by
  unfold recheckSection
  rw [bind_ok (await_ok h), get_run]
  by_cases hdeferred : deferred failures (recheckOf (s.after sc .relock).toWorld ids) = true
  · rw [if_pos hdeferred, if_pos hdeferred]
    rfl
  · rw [if_neg hdeferred, if_neg hdeferred]
    rfl

section conclude

variable {failures : List Raised} {r : Recheck} (cfg sc gpus) (ids : List WorkerId) (s)

/-- A call that defers returns False or raises, and changes the set no more. -/
theorem conclude_deferred (h : deferred failures r = true) :
    ∃ t, t.validationGpuUuids = s.validationGpuUuids ∧
      (conclude cfg sc gpus ids failures r s = .ok false t ∨
        ∃ e, conclude cfg sc gpus ids failures r s = .error e t) := by
  unfold conclude
  rw [if_pos h]
  cases hrecord : sc.raises .recordEvent with
  | some e => exact ⟨s.after sc .recordEvent, rfl, .inr ⟨e, bind_error (recordEvent_error hrecord)⟩⟩
  | none =>
    rw [bind_ok (recordEvent_ok hrecord)]
    exact ⟨{ s.note sc (deferral gpus failures r) with event := true }, rfl, .inl rfl⟩

/-- A call that does not defer keeps the GPUs, whether its event is recorded or not. -/
theorem conclude_acquired (h : deferred failures r = false) :
    ∃ t, t.validationGpuUuids = s.validationGpuUuids ∧
      (sc.raises .recordEvent = none ∧ conclude cfg sc gpus ids failures r s = .ok true t ∨
        ∃ e, sc.raises .recordEvent = some e ∧ conclude cfg sc gpus ids failures r s = .error e t) := by
  unfold conclude
  rw [if_neg (by rw [h]; exact Bool.false_ne_true)]
  cases hrecord : sc.raises .recordEvent with
  | some e => exact ⟨s.after sc .recordEvent, rfl, .inr ⟨e, rfl, bind_error (recordEvent_error hrecord)⟩⟩
  | none =>
    rw [bind_ok (recordEvent_ok hrecord)]
    exact ⟨s.note sc (.validationGpusAcquired gpus r.retainedWorkerIds
      (if cfg.ramWeightCacheEnabled then [] else ids)), rfl, .inl ⟨rfl, rfl⟩⟩

end conclude

section settle

variable {ws : List WorkerPlacement}

theorem transitions_ok (h : sc.raises .gather = none) :
    transitions cfg sc ws s = .ok ((transitioned cfg ws).filterMap sc.failure) (s.after sc .gather) := by
  unfold transitions
  rw [bind_ok (await_ok h)]
  rfl

theorem settle_gather (h : sc.raises .gather = some e) :
    settle cfg sc gpus ws s = .error e (s.after sc .gather) :=
  bind_error (bind_error (await_error h))

theorem settle_relock (hgather : sc.raises .gather = none) (h : sc.raises .relock = some e) :
    settle cfg sc gpus ws s = .error e ((s.after sc .gather).after sc .relock) := by
  unfold settle
  rw [bind_ok (transitions_ok hgather)]
  exact bind_error (bind_error (await_error h))

theorem settle_ok (hgather : sc.raises .gather = none) (hrelock : sc.raises .relock = none) {failures : List Raised}
    {u : State} {r : Recheck} (hfailures : failures = (transitioned cfg ws).filterMap sc.failure)
    (hu : u = (s.after sc .gather).after sc .relock) (hr : r = recheckOf u.toWorld (ws.map (·.id))) :
    settle cfg sc gpus ws s = conclude cfg sc gpus (ws.map (·.id)) failures r
      (if deferred failures r then u.giveBack gpus else u) := by
  subst hfailures hr hu
  unfold settle
  rw [bind_ok (transitions_ok hgather), bind_ok (recheckSection_ok hrelock)]

end settle

/-- An exception that leaves the GPUs entered restores the set only if there
are none. -/
theorem restores_error_iff (hdisj : Disjoint s.validationGpuUuids gpus.toFinset)
    (ht : t.validationGpuUuids = s.validationGpuUuids ∪ gpus.toFinset) :
    Restores gpus s (.error e t) ↔ gpus = [] := by
  have hunion : s.validationGpuUuids ∪ gpus.toFinset = s.validationGpuUuids ↔ gpus.toFinset ⊆ s.validationGpuUuids :=
    Finset.union_eq_left
  show t.validationGpuUuids = s.validationGpuUuids ↔ gpus = []
  rw [ht, hunion]
  constructor
  · intro hsub
    have hempty : gpus.toFinset = ∅ := Finset.subset_empty.mp (hdisj hsub (le_refl _))
    simpa using hempty
  · rintro rfl
    simp

/-- From an entered state on, a call that runs to its second section. -/
theorem conclude_cases (hdisj : Disjoint s.validationGpuUuids gpus.toFinset) {u : State}
    (hu : u.validationGpuUuids = s.validationGpuUuids ∪ gpus.toFinset) (ids : List WorkerId)
    (failures : List Raised) (r : Recheck) {outcome : EStateM.Result Raised State Bool}
    (hend : outcome = conclude cfg sc gpus ids failures r (if deferred failures r then u.giveBack gpus else u)) :
    (deferred failures r = true ∧ ∃ t, t.validationGpuUuids = s.validationGpuUuids ∧
        (outcome = .ok false t ∨ ∃ e, outcome = .error e t)) ∨
      (deferred failures r = false ∧ ∃ t, t.validationGpuUuids = s.validationGpuUuids ∪ gpus.toFinset ∧
        (sc.raises .recordEvent = none ∧ outcome = .ok true t ∨
          sc.raises .recordEvent ≠ none ∧ ∃ e, outcome = .error e t)) := by
  subst hend
  by_cases hdeferred : deferred failures r = true
  · rw [if_pos hdeferred]
    obtain ⟨t, ht, hend⟩ := conclude_deferred cfg sc gpus (u.giveBack gpus) ids hdeferred
    refine .inl ⟨hdeferred, t, ?_, hend⟩
    calc t.validationGpuUuids = u.validationGpuUuids \ gpus.toFinset := ht
      _ = (s.validationGpuUuids ∪ gpus.toFinset) \ gpus.toFinset := by rw [hu]
      _ = s.validationGpuUuids := Finset.union_sdiff_cancel_right hdisj
  · rw [if_neg hdeferred]
    have hkept := Bool.of_not_eq_true hdeferred
    obtain ⟨t, ht, hend⟩ := conclude_acquired cfg sc gpus u ids hkept
    refine .inr ⟨hkept, t, ht.trans hu, ?_⟩
    rcases hend with ⟨hrecord, hok⟩ | ⟨e, hrecord, herror⟩
    · exact .inl ⟨hrecord, hok⟩
    · exact .inr ⟨by rw [hrecord]; simp, e, herror⟩

/-- How a call ends: it has changed nothing, or it has entered its GPUs and
returns True or is interrupted. -/
theorem acquire_cases (cfg : Settings) (sc : Script) (gpus : List GpuUuid) (s : State) :
    ((¬ Enters cfg sc gpus s ∨ Uninterrupted cfg sc gpus s) ∧ ∃ t, t.validationGpuUuids = s.validationGpuUuids ∧
        (acquire cfg sc gpus s = .ok false t ∨ ∃ e, acquire cfg sc gpus s = .error e t)) ∨
      (Enters cfg sc gpus s ∧ ∃ t, t.validationGpuUuids = s.validationGpuUuids ∪ gpus.toFinset ∧
        (Uninterrupted cfg sc gpus s ∧ acquire cfg sc gpus s = .ok true t ∨
          ¬ Uninterrupted cfg sc gpus s ∧ ∃ e, acquire cfg sc gpus s = .error e t)) := by
  by_cases henters : Enters cfg sc gpus s
  · let u : State := ((s.after sc .lock).after sc .serviceMode).enter gpus
    have hrun : acquire cfg sc gpus s = settle cfg sc gpus (overlappingOf sc gpus s) u :=
      bind_ok (checkSection_entered henters)
    cases hgather : sc.raises .gather with
    | some e =>
      have hraised : acquire cfg sc gpus s = .error e (u.after sc .gather) := hrun.trans (settle_gather hgather)
      have hnot : ¬ Uninterrupted cfg sc gpus s := fun h => by simp [Uninterrupted, hgather] at h
      exact .inr ⟨henters, u.after sc .gather, rfl, .inr ⟨hnot, e, hraised⟩⟩
    | none =>
      cases hrelock : sc.raises .relock with
      | some e =>
        have hraised : acquire cfg sc gpus s = .error e (rechecked sc gpus s) :=
          hrun.trans (settle_relock hgather hrelock)
        have hnot : ¬ Uninterrupted cfg sc gpus s := fun h => by simp [Uninterrupted, hrelock] at h
        exact .inr ⟨henters, rechecked sc gpus s, rfl, .inr ⟨hnot, e, hraised⟩⟩
      | none =>
        let failures := (transitioned cfg (overlappingOf sc gpus s)).filterMap sc.failure
        let r := recheckOf (rechecked sc gpus s).toWorld ((overlappingOf sc gpus s).map (·.id))
        have hsettle : acquire cfg sc gpus s = conclude cfg sc gpus ((overlappingOf sc gpus s).map (·.id)) failures r
            (if deferred failures r then (rechecked sc gpus s).giveBack gpus else rechecked sc gpus s) :=
          hrun.trans (settle_ok hgather hrelock rfl rfl rfl)
        rcases conclude_cases henters.disjoint rfl _ failures r hsettle with
          ⟨hdefers, t, ht, hend⟩ | ⟨hkept, t, ht, hend⟩
        · exact .inl ⟨.inr ⟨hgather, hrelock, .inl hdefers⟩, t, ht, hend⟩
        · have hnot : ¬ Defers cfg sc gpus s := Bool.eq_false_iff.mp hkept
          refine .inr ⟨henters, t, ht, ?_⟩
          rcases hend with ⟨hrecord, hok⟩ | ⟨hrecord, herror⟩
          · exact .inl ⟨⟨hgather, hrelock, .inr hrecord⟩, hok⟩
          · exact .inr ⟨fun h => h.2.2.elim hnot hrecord, herror⟩
  · obtain ⟨t, ht, hrun⟩ := checkSection_turned henters
    refine .inl ⟨.inl henters, t, ht, ?_⟩
    rcases hrun with hnone | ⟨e, herror⟩
    · exact .inl (bind_ok hnone)
    · exact .inr ⟨e, bind_error herror⟩

/-- **A failed acquisition reserves nothing**, except when an exception ends it
between its two sections or while its success is recorded. -/
theorem restores_iff (cfg : Settings) (sc : Script) (gpus : List GpuUuid) (s : State) :
    Restores gpus s (acquire cfg sc gpus s) ↔
      ¬ Enters cfg sc gpus s ∨ gpus = [] ∨ Uninterrupted cfg sc gpus s := by
  rcases acquire_cases cfg sc gpus s with ⟨hwhy, t, ht, hend⟩ | ⟨henters, t, ht, hend⟩
  · have hrestores : Restores gpus s (acquire cfg sc gpus s) := by
      rcases hend with hend | ⟨e, hend⟩
      · rw [hend]
        exact ht
      · rw [hend]
        exact ht
    exact ⟨fun _ => hwhy.imp_right .inr, fun _ => hrestores⟩
  · rcases hend with ⟨hall, hok⟩ | ⟨hnot, e, herror⟩
    · rw [hok]
      exact ⟨fun _ => .inr (.inr hall), fun _ => ht⟩
    · rw [herror, restores_error_iff henters.disjoint ht]
      simp [henters, hnot]

/-- The database cannot record the success. -/
def unrecorded : Script where
  now := 60
  raises := fun a => if a = .recordEvent then some (.exception "OperationalError") else none

/-- A call on a free GPU that raises, and leaves it entered. -/
theorem restores_broken :
    ¬ Restores ["gpu"] {} (acquire { validationIdleWindowSeconds := 30 } unrecorded ["gpu"] {}) := by
  decide +kernel

/-! ### After a True -/

theorem acquire_true (h : acquire cfg sc gpus s = .ok true t) :
    Disjoint s.validationGpuUuids gpus.toFinset ∧ t.validationGpuUuids = s.validationGpuUuids ∪ gpus.toFinset := by
  rcases acquire_cases cfg sc gpus s with ⟨-, u, -, hend⟩ | ⟨henters, u, hu, hend⟩
  · rcases hend with hend | ⟨e, hend⟩ <;> rw [hend] at h <;> cases h
  · rcases hend with ⟨-, hend⟩ | ⟨-, e, hend⟩ <;> rw [hend] at h <;> cases h
    exact ⟨henters.disjoint, hu⟩

theorem release_ok (h : release sc gpus s = .ok () t) :
    t.validationGpuUuids = s.validationGpuUuids \ gpus.toFinset := by
  unfold release at h
  cases hlock : sc.raises .relock with
  | some e =>
    rw [bind_error (await_error hlock)] at h
    cases h
  | none =>
    rw [bind_ok (await_ok hlock), modify_run] at h
    cases hrecord : sc.raises .recordEvent with
    | some e =>
      rw [bind_error (recordEvent_error hrecord)] at h
      cases h
    | none =>
      rw [bind_ok (recordEvent_ok hrecord)] at h
      cases h
      rfl

/-- The GPUs of a call that has returned True are given back by its release,
also if that cannot be recorded. -/
theorem release_restores (h : acquire cfg sc gpus s = .ok true t) {sc' : Script} (hlock : sc'.raises .relock = none) :
    ∃ u, u.validationGpuUuids = s.validationGpuUuids ∧
      (release sc' gpus t = .ok () u ∨ ∃ e, release sc' gpus t = .error e u) := by
  obtain ⟨hdisj, ht⟩ := acquire_true h
  have hback : ((t.after sc' .relock).giveBack gpus).validationGpuUuids = s.validationGpuUuids := by
    calc ((t.after sc' .relock).giveBack gpus).validationGpuUuids = t.validationGpuUuids \ gpus.toFinset := rfl
      _ = (s.validationGpuUuids ∪ gpus.toFinset) \ gpus.toFinset := by rw [ht]
      _ = s.validationGpuUuids := Finset.union_sdiff_cancel_right hdisj
  have hrun : release sc' gpus t = (do
      recordEvent sc' (.validationGpusReleased gpus)
      modify fun s => { s with event := true } : M Unit) ((t.after sc' .relock).giveBack gpus) := by
    unfold release
    rw [bind_ok (await_ok hlock)]
    rfl
  cases hrecord : sc'.raises .recordEvent with
  | some e =>
    exact ⟨((t.after sc' .relock).giveBack gpus).after sc' .recordEvent, hback,
      .inr ⟨e, hrun.trans (bind_error (recordEvent_error hrecord))⟩⟩
  | none =>
    rw [hrun, bind_ok (recordEvent_ok hrecord)]
    exact ⟨{ ((t.after sc' .relock).giveBack gpus).note sc' (.validationGpusReleased gpus) with event := true },
      hback, .inl rfl⟩

end Acquisition
end LlmRio
