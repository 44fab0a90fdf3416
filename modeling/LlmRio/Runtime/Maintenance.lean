/-
# Maintenance mode: `enter_maintenance`, `resume` and the reconcile tick

The stored service mode has two writers. The admin calls `enter_maintenance`
and `resume` write it under the scheduler's state lock; the reconcile tick
writes MAINTENANCE_READY without the lock, after it has read DRAINING and
found every worker COLD. The three are modelled as tasks that move from await
to await: an admin call is a program counter in `calls`, the tick is the
program counter `reconcile`, and the worker states and the validation set are
moved by the environment in any way.

A resume that commits between the tick's read and its write is overwritten
(`resume_overwritten`): the call has returned, the scheduler no longer asks
for maintenance, and the stored mode is MAINTENANCE_READY, so the service
refuses traffic. When no resume commits in that window the mode stays ACTIVE
from the return of `resume` to the next `enter_maintenance`, and on a database
that the scheduler found in ACTIVE mode it is ACTIVE whenever maintenance is
not requested (`resume_not_overwritten`).

An exception or a cancellation may end an admin call at any of its awaits
(`raise`), and an exception may end the tick, which `_run` logs (`tickRaises`).
What the calls do to queued requests and to the workers is not
part of the mode and is left out here.

Key definitions: `step`, `Ordered`, `ResumeHolds`, `resumeApart`.
Key theorems: `ordered_step`, `active_step`, `resume_not_overwritten`,
`resume_overwritten`.
-/
import LlmRio.Lib.Runs
import LlmRio.Lib.Tasks
import LlmRio.Domain

namespace LlmRio
namespace Maintenance

open Runs

/-- Where an admin call is. `maintLock` and `resumeLock` wait for the state
lock; the calls hold it in `maintWrite`, `maintUnlock`, `resumeWrite` and
`resumeUnlock`. -/
inductive Call
  | maintLock | maintWrite | maintUnlock | maintDrain
  | resumeLock | resumeWrite | resumeUnlock
  | returned | raised
deriving DecidableEq

def Call.inProgress : Call → Bool
  | .returned | .raised => false
  | _ => true

/-- The call is an `enter_maintenance` that has not ended. -/
def Call.maintaining : Call → Bool
  | .maintLock | .maintWrite | .maintUnlock | .maintDrain => true
  | _ => false

/-- The call is inside its `async with self._state_lock` block. -/
def Call.inBlock : Call → Bool
  | .maintWrite | .maintUnlock | .resumeWrite | .resumeUnlock => true
  | _ => false

/-- `enter_maintenance` has set the flag and is still in its block. -/
def Call.asking : Call → Bool
  | .maintWrite | .maintUnlock => true
  | _ => false

/-- Where the reconcile tick is: outside the maintenance branch, after a read
of DRAINING, or after the test that every worker is COLD. -/
inductive Tick | idle | test | write
deriving DecidableEq

structure State where
  mode : ServiceMode
  maintenanceRequested : Bool
  stateLock : Option ℕ
  calls : List Call
  reconcile : Tick
  workers : List RuntimeState
  validationGpuUuids : List GpuUuid

inductive Act
  | callMaintenance | maintLock (k : ℕ) | maintWrite (k : ℕ) | maintUnlock (k : ℕ) | maintDone (k : ℕ)
  | callResume | resumeLock (k : ℕ) | resumeWrite (k : ℕ) | resumeUnlock (k : ℕ)
  | raise (k : ℕ)
  | readMode | testCold | writeReady | tickRaises
  | environment (workers : List RuntimeState) (validation : List GpuUuid)
deriving DecidableEq

/-- The scheduler when it starts on a database in mode `m`. -/
def start (m : ServiceMode) : State := ⟨m, false, none, [], .idle, [], []⟩

def State.goto (s : State) (k : ℕ) (c : Call) : State := { s with calls := s.calls.set k c }

/-- An exception leaves the `async with` block: the call's lock is released. -/
def State.unlock (s : State) (k : ℕ) : State :=
  if s.stateLock = some k then { s with stateLock := none } else s

def step (s : State) : Act → Option State
  -- enter_maintenance
  | .callMaintenance => some { s with calls := s.calls ++ [.maintLock] }
  | .maintLock k =>
    if s.calls[k]? = some .maintLock ∧ s.stateLock = none then
      some ({ s with stateLock := some k, maintenanceRequested := true }.goto k .maintWrite)
    else none
  | .maintWrite k =>
    if s.calls[k]? = some .maintWrite then some ({ s with mode := .draining }.goto k .maintUnlock)
    else none
  | .maintUnlock k =>
    if s.calls[k]? = some .maintUnlock then some ((s.unlock k).goto k .maintDrain) else none
  | .maintDone k => if s.calls[k]? = some .maintDrain then some (s.goto k .returned) else none
  -- resume
  | .callResume => some { s with calls := s.calls ++ [.resumeLock] }
  | .resumeLock k =>
    if s.calls[k]? = some .resumeLock ∧ s.stateLock = none then
      if s.workers.any (· ≠ .cold) then some (s.goto k .raised)
      else some ({ s with stateLock := some k }.goto k .resumeWrite)
    else none
  | .resumeWrite k =>
    if s.calls[k]? = some .resumeWrite then some ({ s with mode := .active }.goto k .resumeUnlock)
    else none
  | .resumeUnlock k =>
    if s.calls[k]? = some .resumeUnlock then
      some (({ s with maintenanceRequested := false }.unlock k).goto k .returned)
    else none
  | .raise k =>
    if s.calls[k]?.any Call.inProgress then some ((s.unlock k).goto k .raised) else none
  -- _reconcile
  | .readMode =>
    if s.reconcile = .idle ∧ s.mode = .draining then some { s with reconcile := .test } else none
  | .testCold =>
    if s.reconcile = .test then
      some { s with reconcile := if s.validationGpuUuids = [] ∧ s.workers.all (· = .cold) then .write
                                 else .idle }
    else none
  | .writeReady =>
    if s.reconcile = .write then some { s with mode := .maintenanceReady, reconcile := .idle } else none
  | .tickRaises => some { s with reconcile := .idle }
  | .environment ws vs => some { s with workers := ws, validationGpuUuids := vs }

@[simp] theorem goto_mode (s : State) (k : ℕ) (c : Call) : (s.goto k c).mode = s.mode := rfl

@[simp] theorem goto_requested (s : State) (k : ℕ) (c : Call) :
    (s.goto k c).maintenanceRequested = s.maintenanceRequested := rfl

@[simp] theorem goto_lock (s : State) (k : ℕ) (c : Call) : (s.goto k c).stateLock = s.stateLock := rfl

@[simp] theorem goto_reconcile (s : State) (k : ℕ) (c : Call) : (s.goto k c).reconcile = s.reconcile := rfl

@[simp] theorem goto_calls (s : State) (k : ℕ) (c : Call) : (s.goto k c).calls = s.calls.set k c := rfl

@[simp] theorem unlock_mode (s : State) (k : ℕ) : (s.unlock k).mode = s.mode := by
  unfold State.unlock; split <;> rfl

@[simp] theorem unlock_requested (s : State) (k : ℕ) :
    (s.unlock k).maintenanceRequested = s.maintenanceRequested := by
  unfold State.unlock; split <;> rfl

@[simp] theorem unlock_reconcile (s : State) (k : ℕ) : (s.unlock k).reconcile = s.reconcile := by
  unfold State.unlock; split <;> rfl

@[simp] theorem unlock_calls (s : State) (k : ℕ) : (s.unlock k).calls = s.calls := by
  unfold State.unlock; split <;> rfl

theorem unlock_ne (s : State) {k j : ℕ} (h : s.stateLock = some j) (hk : k ≠ j) :
    (s.unlock k).stateLock = some j := by
  unfold State.unlock
  rw [if_neg]
  · exact h
  · rw [h]
    exact fun e => hk (Option.some.inj e).symm

/-! ### What `resume` promises, and the condition on the steps -/

/-- What `resume` promises of a schedule that starts in mode `m`: if a
`resume` has returned and no `enter_maintenance` follows, the mode is ACTIVE;
and with ACTIVE at the start, the mode at the end is ACTIVE if maintenance is
not requested and no `enter_maintenance` is in progress. -/
def ResumeHolds (m : ServiceMode) (as : List Act) : Prop :=
  (∀ pre k post s, as = pre ++ .resumeUnlock k :: post → (∀ j, Act.maintLock j ∉ post) →
    exec step (start m) as = some s → s.mode = .active) ∧
  (m = .active → ∀ s, exec step (start m) as = some s → s.maintenanceRequested = false →
    (∀ c ∈ s.calls, c.maintaining = false) → s.mode = .active)

/-- A resume commits ACTIVE only while the tick is not between its read of
DRAINING and its write of MAINTENANCE_READY. -/
def resumeApart (s : State) : Act → Prop
  | .resumeWrite _ => s.reconcile = .idle
  | _ => True

instance : ∀ s a, Decidable (resumeApart s a) := fun s a => by
  unfold resumeApart; split <;> infer_instance

/-! ### The invariant -/

/-- Where the calls stand to the lock, the flag and the mode: a call inside
its block holds the lock, an `enter_maintenance` there has set the flag, a
`resume` that has written is still in ACTIVE mode, and the tick goes through
its maintenance branch only in another mode. -/
structure Ordered (s : State) : Prop where
  locked : ∀ (k : ℕ) (c : Call), s.calls[k]? = some c → c.inBlock = true → s.stateLock = some k
  asked : ∀ (k : ℕ) (c : Call), s.calls[k]? = some c → c.asking = true → s.maintenanceRequested = true
  resumed : ∀ k : ℕ, s.calls[k]? = some Call.resumeUnlock → s.mode = .active
  tick : s.reconcile ≠ .idle → s.mode ≠ .active

theorem ordered_start (m : ServiceMode) : Ordered (start m) := by
  constructor <;> simp [start]

theorem asking_inBlock {c : Call} (h : c.asking = true) : c.inBlock = true := by
  cases c <;> simp_all [Call.asking, Call.inBlock]

/-- At most one call is inside its block. -/
theorem Ordered.alone {s : State} (h : Ordered s) {j k : ℕ} {c c' : Call} (hk : s.calls[k]? = some c)
    (hc : c.inBlock = true) (hj : s.calls[j]? = some c') (hc' : c'.inBlock = true) : j = k :=
  Option.some.inj ((h.locked j c' hj hc').symm.trans (h.locked k c hk hc))

/-- A call that holds the lock moves to a point in its block. The new state is
described by what it changes: the flag and the mode. -/
theorem ordered_enter {s : State} {k : ℕ} {c : Call} {m : ServiceMode} {f : Bool}
    (halone : ∀ (j : ℕ) (c' : Call), s.calls[j]? = some c' → c'.inBlock = true → j = k)
    (hask : c.asking = true → f = true) (hres : c = .resumeUnlock → m = .active)
    (htick : s.reconcile ≠ .idle → m ≠ .active) :
    Ordered ({ s with mode := m, maintenanceRequested := f, stateLock := some k }.goto k c) where
  locked j c' hj hc' := by
    rcases Tasks.set_cases hj with ⟨rfl, -⟩ | ⟨-, hj⟩
    · rfl
    · exact congrArg some (halone j c' hj hc').symm
  asked j c' hj hc' := by
    rcases Tasks.set_cases hj with ⟨-, rfl⟩ | ⟨hne, hj⟩
    · exact hask hc'
    · exact absurd (halone j c' hj (asking_inBlock hc')) hne
  resumed j hj := by
    rcases Tasks.set_cases hj with ⟨-, hc⟩ | ⟨hne, hj⟩
    · exact hres hc.symm
    · exact absurd (halone j _ hj rfl) hne
  tick := htick

/-- A call moves to a point outside its block, with or without the lock it may
have held; it may clear the flag if no other call is in its block. -/
theorem Ordered.leave {s : State} (h : Ordered s) {k : ℕ} {c : Call} {f : Bool} {l : Option ℕ}
    (hc : c.inBlock = false) (hl : ∀ j, j ≠ k → s.stateLock = some j → l = some j)
    (hf : f = s.maintenanceRequested ∨ s.stateLock = some k) :
    Ordered ({ s with stateLock := l, maintenanceRequested := f }.goto k c) where
  locked j c' hj hc' := by
    rcases Tasks.set_cases hj with ⟨-, rfl⟩ | ⟨hne, hj⟩
    · rw [hc] at hc'; cases hc'
    · exact hl j hne (h.locked j c' hj hc')
  asked j c' hj hc' := by
    rcases Tasks.set_cases hj with ⟨-, rfl⟩ | ⟨hne, hj⟩
    · rw [asking_inBlock hc'] at hc; cases hc
    · rcases hf with rfl | hk
      · exact h.asked j c' hj hc'
      · have hj' := h.locked j c' hj (asking_inBlock hc')
        exact absurd (Option.some.inj (hj'.symm.trans hk)) hne
  resumed j hj := by
    rcases Tasks.set_cases hj with ⟨-, rfl⟩ | ⟨-, hj⟩
    · cases hc
    · exact h.resumed j hj
  tick := h.tick

/-- A new call waits for the lock. -/
theorem Ordered.call {s : State} (h : Ordered s) {c : Call} (hc : c.inBlock = false) :
    Ordered { s with calls := s.calls ++ [c] } where
  locked j c' hj hc' := by
    rcases Tasks.snoc_cases hj with ⟨-, rfl⟩ | hj
    · rw [hc] at hc'; cases hc'
    · exact h.locked j c' hj hc'
  asked j c' hj hc' := by
    rcases Tasks.snoc_cases hj with ⟨-, rfl⟩ | hj
    · rw [asking_inBlock hc'] at hc; cases hc
    · exact h.asked j c' hj hc'
  resumed j hj := by
    rcases Tasks.snoc_cases hj with ⟨-, rfl⟩ | hj
    · cases hc
    · exact h.resumed j hj
  tick := h.tick

/-- `unlock` as a record update. -/
theorem unlock_eq (s : State) (k : ℕ) :
    s.unlock k = { s with stateLock := (s.unlock k).stateLock } := by
  unfold State.unlock; split <;> rfl

theorem Ordered.unlockGoto {s : State} (h : Ordered s) {k : ℕ} {c : Call} (hc : c.inBlock = false) :
    Ordered ((s.unlock k).goto k c) := by
  rw [unlock_eq]
  exact h.leave hc (fun j hj hl => unlock_ne s hl hj.symm) (.inl rfl)

theorem ordered_step {s s' : State} {a : Act} (h : Ordered s) (ha : resumeApart s a)
    (hs : step s a = some s') : Ordered s' := by
  cases a with
  | callMaintenance | callResume =>
    cases hs
    exact h.call rfl
  | maintLock k =>
    simp only [step, Option.ite_none_right_eq_some, Option.some.injEq] at hs
    obtain ⟨⟨hk, hlock⟩, rfl⟩ := hs
    refine ordered_enter (fun j c' hj hc' => ?_) (fun _ => rfl) (by simp) h.tick
    have := h.locked j c' hj hc'
    simp [hlock] at this
  | maintWrite k =>
    simp only [step, Option.ite_none_right_eq_some, Option.some.injEq] at hs
    obtain ⟨hk, rfl⟩ := hs
    have := ordered_enter (s := s) (c := .maintUnlock) (m := .draining) (f := true)
      (fun j c' hj hc' => h.alone hk rfl hj hc') (fun _ => rfl) (by simp) (by simp)
    rwa [← h.locked k _ hk rfl, ← h.asked k _ hk rfl] at this
  | maintUnlock k =>
    simp only [step, Option.ite_none_right_eq_some, Option.some.injEq] at hs
    obtain ⟨hk, rfl⟩ := hs
    exact h.unlockGoto rfl
  | maintDone k =>
    simp only [step, Option.ite_none_right_eq_some, Option.some.injEq] at hs
    obtain ⟨hk, rfl⟩ := hs
    exact h.leave rfl (fun _ _ hl => hl) (.inl rfl)
  | resumeLock k =>
    simp only [step, Option.ite_none_right_eq_some] at hs
    obtain ⟨⟨hk, hlock⟩, hs⟩ := hs
    split at hs
    · cases hs
      exact h.leave rfl (fun _ _ hl => hl) (.inl rfl)
    · cases hs
      refine ordered_enter (fun j c' hj hc' => ?_) (by simp [Call.asking]) (by simp) h.tick
      have := h.locked j c' hj hc'
      simp [hlock] at this
  | resumeWrite k =>
    simp only [step, Option.ite_none_right_eq_some, Option.some.injEq] at hs
    obtain ⟨hk, rfl⟩ := hs
    have := ordered_enter (s := s) (c := .resumeUnlock) (m := .active) (f := s.maintenanceRequested)
      (fun j c' hj hc' => h.alone hk rfl hj hc') (by simp [Call.asking]) (fun _ => rfl)
      (fun ht => absurd ha ht)
    rwa [← h.locked k _ hk rfl] at this
  | resumeUnlock k =>
    simp only [step, Option.ite_none_right_eq_some, Option.some.injEq] at hs
    obtain ⟨hk, rfl⟩ := hs
    rw [unlock_eq]
    refine h.leave rfl (fun j hj hl => unlock_ne _ hl hj.symm) (.inr (h.locked k _ hk rfl))
  | raise k =>
    simp only [step, Option.ite_none_right_eq_some, Option.some.injEq] at hs
    obtain ⟨hk, rfl⟩ := hs
    exact h.unlockGoto rfl
  | readMode =>
    simp only [step, Option.ite_none_right_eq_some, Option.some.injEq] at hs
    obtain ⟨⟨-, hm⟩, rfl⟩ := hs
    exact ⟨h.locked, h.asked, h.resumed, fun _ => by simp [hm]⟩
  | testCold =>
    simp only [step, Option.ite_none_right_eq_some, Option.some.injEq] at hs
    obtain ⟨ht, rfl⟩ := hs
    exact ⟨h.locked, h.asked, h.resumed, fun _ => h.tick (by simp [ht])⟩
  | writeReady =>
    simp only [step, Option.ite_none_right_eq_some, Option.some.injEq] at hs
    obtain ⟨ht, rfl⟩ := hs
    -- no resume is past its write: the tick has not been in ACTIVE mode
    have hm := h.tick (by simp [ht])
    exact ⟨h.locked, h.asked, fun k hk => absurd (h.resumed k hk) hm, by simp⟩
  | tickRaises =>
    cases hs
    exact ⟨h.locked, h.asked, h.resumed, by simp⟩
  | environment ws vs =>
    cases hs
    exact ⟨h.locked, h.asked, h.resumed, h.tick⟩

/-! ### The mode is ACTIVE unless maintenance is requested -/

/-- Only a call of `enter_maintenance` takes the mode from ACTIVE, and it has
set the flag. -/
theorem active_step {s s' : State} {a : Act} (h : Ordered s)
    (hm : s.maintenanceRequested = false → s.mode = .active) (hs : step s a = some s') :
    s'.maintenanceRequested = false → s'.mode = .active := by
  cases a with
  | callMaintenance | callResume | tickRaises | environment =>
    cases hs
    exact hm
  | maintLock k =>
    simp only [step, Option.ite_none_right_eq_some, Option.some.injEq] at hs
    obtain ⟨-, rfl⟩ := hs
    simp
  | maintWrite k =>
    simp only [step, Option.ite_none_right_eq_some, Option.some.injEq] at hs
    obtain ⟨hk, rfl⟩ := hs
    have hf := h.asked k _ hk rfl
    simp [hf]
  | maintUnlock k | maintDone k | raise k =>
    simp only [step, Option.ite_none_right_eq_some, Option.some.injEq] at hs
    obtain ⟨-, rfl⟩ := hs
    simpa using hm
  | resumeLock k =>
    simp only [step, Option.ite_none_right_eq_some] at hs
    obtain ⟨-, hs⟩ := hs
    split at hs <;>
    · cases hs
      simpa using hm
  | resumeWrite k =>
    simp only [step, Option.ite_none_right_eq_some, Option.some.injEq] at hs
    obtain ⟨-, rfl⟩ := hs
    exact fun _ => rfl
  | resumeUnlock k =>
    simp only [step, Option.ite_none_right_eq_some, Option.some.injEq] at hs
    obtain ⟨hk, rfl⟩ := hs
    have hr := h.resumed k hk
    simp [hr]
  | readMode | testCold =>
    simp only [step, Option.ite_none_right_eq_some, Option.some.injEq] at hs
    obtain ⟨-, rfl⟩ := hs
    exact hm
  | writeReady =>
    simp only [step, Option.ite_none_right_eq_some, Option.some.injEq] at hs
    obtain ⟨ht, rfl⟩ := hs
    have hne := h.tick (by simp [ht])
    exact fun hf => absurd (hm hf) hne

/-- Only a call of `enter_maintenance` sets the flag. -/
theorem requested_step {s s' : State} {a : Act} (ha : ∀ j, a ≠ .maintLock j)
    (hf : s.maintenanceRequested = false) (hs : step s a = some s') :
    s'.maintenanceRequested = false := by
  cases a with
  | maintLock k => exact absurd rfl (ha k)
  | callMaintenance | callResume | tickRaises | environment =>
    cases hs
    exact hf
  | resumeLock k =>
    simp only [step, Option.ite_none_right_eq_some] at hs
    obtain ⟨-, hs⟩ := hs
    split at hs <;>
    · cases hs
      simpa using hf
  | resumeUnlock k =>
    simp only [step, Option.ite_none_right_eq_some, Option.some.injEq] at hs
    obtain ⟨-, rfl⟩ := hs
    simp
  | _ =>
    simp only [step, Option.ite_none_right_eq_some, Option.some.injEq] at hs
    obtain ⟨-, rfl⟩ := hs
    simpa using hf

theorem ordered_exec {m : ServiceMode} {as : List Act} {s : State}
    (h : exec (restrict step resumeApart) (start m) as = some s) : Ordered s :=
  exec_invariant (fun _ _ _ hi hs => ordered_step hi (restrict_eq_some.mp hs).1 (restrict_eq_some.mp hs).2)
    (ordered_start m) h

/-- The return of `resume` leaves ACTIVE mode with the flag cleared. -/
theorem resumeUnlock_active {s s' : State} {k : ℕ} (h : Ordered s)
    (hs : step s (.resumeUnlock k) = some s') :
    s'.mode = .active ∧ s'.maintenanceRequested = false := by
  simp only [step, Option.ite_none_right_eq_some, Option.some.injEq] at hs
  obtain ⟨hk, rfl⟩ := hs
  simp [h.resumed k hk]

/-- Along a schedule without an `enter_maintenance` the mode stays ACTIVE. -/
theorem active_exec {as : List Act} {s t : State} (has : ∀ j, Act.maintLock j ∉ as) (h : Ordered s)
    (hf : s.maintenanceRequested = false) (hm : s.mode = .active)
    (hr : exec (restrict step resumeApart) s as = some t) : t.mode = .active := by
  refine (exec_invariant_mem
    (I := fun u => Ordered u ∧ u.maintenanceRequested = false ∧ u.mode = .active)
    (fun u a u' ha hu hs => ?_) ⟨h, hf, hm⟩ hr).2.2
  obtain ⟨hok, hs⟩ := restrict_eq_some.mp hs
  obtain ⟨ho, hf, hm⟩ := hu
  have hf' := requested_step (fun j e => has j (e ▸ ha)) hf hs
  exact ⟨ordered_step ho hok hs, hf', active_step ho (fun _ => hm) hs hf'⟩

theorem resume_not_overwritten (m : ServiceMode) (as : List Act) (t : State)
    (h : exec (restrict step resumeApart) (start m) as = some t) : ResumeHolds m as := by
  have ht : ∀ s, exec step (start m) as = some s → s = t := fun s hs =>
    Option.some.inj (hs.symm.trans (exec_restrict h))
  constructor
  · intro pre k post s has hpost hs
    obtain rfl := ht s hs
    subst has
    obtain ⟨u, hu, hrest⟩ := (exec_append _).mp h
    obtain ⟨u', hu', hrun⟩ := (exec_cons _).mp hrest
    have hou := ordered_exec hu
    obtain ⟨hok, hstep⟩ := restrict_eq_some.mp hu'
    obtain ⟨hm, hf⟩ := resumeUnlock_active hou hstep
    exact active_exec hpost (ordered_step hou hok hstep) hf hm hrun
  · rintro rfl s hs hf -
    obtain rfl := ht s hs
    refine (exec_invariant (I := fun u => Ordered u ∧ (u.maintenanceRequested = false → u.mode = .active))
      (fun u a u' hu hs => ?_) ⟨ordered_start _, fun _ => rfl⟩ h).2 hf
    obtain ⟨hok, hs⟩ := restrict_eq_some.mp hs
    exact ⟨ordered_step hu.1 hok hs, active_step hu.1 hu.2 hs⟩

/-- A maintenance cycle with the tick after the resume. -/
theorem resume_not_overwritten_cycle :
    ResumeHolds .active [.callMaintenance, .maintLock 0, .maintWrite 0, .maintUnlock 0, .maintDone 0,
      .readMode, .testCold, .writeReady, .callResume, .resumeLock 1, .resumeWrite 1, .resumeUnlock 1] :=
  resume_not_overwritten .active _
    ⟨.active, false, none, [.returned, .returned], .idle, [], []⟩ (by rfl)

/-- The resume that the tick overwrites: the tick has read DRAINING and found
every worker COLD, the resume returns, and the tick writes. -/
theorem resume_overwritten :
    ¬ ResumeHolds .active [.callMaintenance, .maintLock 0, .maintWrite 0, .maintUnlock 0, .maintDone 0,
      .readMode, .testCold, .callResume, .resumeLock 1, .resumeWrite 1, .resumeUnlock 1, .writeReady] := by
  intro h
  have := h.2 rfl ⟨.maintenanceReady, false, none, [.returned, .returned], .idle, [], []⟩ rfl rfl
    (by decide)
  cases this

end Maintenance
end LlmRio
