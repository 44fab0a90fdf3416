/-
# A launch that fails

`WorkerSupervisor.launch` with its handlers of exceptions. The worker is in
`workers` before its command is built, its log is opened, its engine is
spawned and its row and event are recorded; each of these may raise what the
script says. Three handlers undo what was done before: around the
construction of the command, around the spawn, and around the two records.
The log is opened outside of all of them.

`launch` holds `_lock` from its first guard to its end. What the other tasks
do between its awaits is not part of the program; where the handlers do what
they are for, the program takes the steps of the supervisor's step function
(`launch_steps`).

Key definitions: `Point`, `Script`, `launch`, `NoTrace`, `Covered`.
Key theorems: `cleanup_ok`, `abort_ok`, `launch_steps`, `failed_launch_iff`.
-/
import LlmRio.Lib.Handlers
import LlmRio.Workers.Supervisor

namespace LlmRio
namespace Launch

open Handlers Runs Supervisor Transactions

/-- An exception; `cancelled` is none of the class `Exception`. -/
inductive Raised
  | launchError (e : WorkerLaunchError)
  | fileNotFound | timeout
  | exception (name : String)
  | cancelled
deriving DecidableEq, Repr

/-- The steps that end as the host, the engine or the database has it. -/
inductive Point
  | command | environment | openLog | spawn | persist | recordEvent
  /-- `_terminate_worker_process_tree` -/
  | kill
  /-- The wait for the process, of ten seconds. -/
  | wait
  | closeLog | unlinkLog
deriving DecidableEq, Repr

/-- What a launch meets; `id` is its `uuid4`. -/
structure Script where
  raises : Point → Option Raised
  id : WorkerId
  pid : ℕ
  logPath : String
  now : Datetime

/-- The supervisor with the logs of its workers. -/
structure State extends Supervisor.State where
  logHandles : List WorkerId := []
  logPaths : List (WorkerId × String) := []

abbrev M := EStateM Raised State

variable {α : Type}

def check : Except WorkerLaunchError α → M α
  | .ok a => pure a
  | .error e => throw (.launchError e)

/-- `except BaseException: h; raise` -/
def onError (m : M α) (h : M Unit) : M α := tryCatch m fun e => do h; throw e

/-- `contextlib.suppress` -/
def suppress (caught : Raised → Bool) (m : M Unit) : M Unit :=
  tryCatch m fun e => if caught e then pure () else throw e

/-- The three guards of `launch`. -/
def guards (cfg : Settings) (workers : List WorkerPlacement) (profile : PlacementProfile) (gpus : List GpuUuid) :
    Except WorkerLaunchError Unit :=
  if gpus.length ≠ profile.gpuCount ∨ gpus ∉ profile.eligibleGpuSets then .error .invalidPlacement
  else if cfg.kvcachedEnabled ∧ ¬ profile.isKvcached then .error .notKvcached
  else
    let overlapping := overlappingWorkers workers gpus
    let overlap := gpus.filter fun gpu => overlapping.any (gpu ∈ ·.gpuUuids)
    if overlap ≠ [] ∧ ¬ canShareGpus cfg profile gpus overlapping then .error (.gpusOwned overlap)
    else .ok ()

theorem launchPort_eq (cfg : Settings) (workers : List WorkerPlacement) (profile : PlacementProfile)
    (gpus : List GpuUuid) :
    launchPort cfg workers profile gpus = (do
      guards cfg workers profile gpus
      let port ← allocatePort cfg workers
      checkEngine cfg profile
      pure port) := by
  unfold launchPort guards
  split
  · rfl
  · split
    · rfl
    · simp only
      split <;> rfl

namespace State

variable (s : State)

def register (x : WorkerPlacement) : State :=
  { s with workers := s.workers ++ [x], issued := x.id :: s.issued }

def pop (id : WorkerId) : State := { s with toState := s.toState.pop id }

def addLog (id : WorkerId) (path : String) : State :=
  { s with logHandles := s.logHandles ++ [id], logPaths := s.logPaths ++ [(id, path)] }

/-- The engine of the worker has been spawned. -/
def started (x : WorkerPlacement) (pid : ℕ) : State :=
  { s with
    toState := { s.toState.modify x.id (fun x => { x with processPid := some pid }) with
      processes := s.processes ++ [x.id]
      engines := s.engines ++ [{ worker := x.id, port := x.port, gpuUuids := x.gpuUuids }] } }

def engineExit (id : WorkerId) : State :=
  { s with engines := Table.modify EngineProcess.worker id (fun e => { e with exited := true }) s.engines }

/-- The tasks of a worker that has been launched. -/
def watched (id : WorkerId) : State := { s with toState := (s.toState.spawn id .polling).spawn id .monitoring }

/-- The supervisor has no process of the worker and no intent to let it sleep. -/
def forget (id : WorkerId) : State := { s with toState := s.toState.cleanup id }

/-- What `_cleanup` leaves. -/
def cleaned (id : WorkerId) : State :=
  { s.forget id with
    logHandles := s.logHandles.filter (· ≠ id)
    logPaths := s.logPaths.filter (·.1 ≠ id) }

end State

variable (cfg : Settings) (sc : Script)

def reach (p : Point) : M Unit :=
  match sc.raises p with
  | none => pure ()
  | some e => throw e

/-! ### The handlers -/

def popHandle (id : WorkerId) : M Unit := do
  modify fun s => { s with logHandles := s.logHandles.filter (· ≠ id) }
  reach sc .closeLog

def closeLog (id : WorkerId) : M Unit := do
  let s ← get
  if id ∈ s.logHandles then popHandle sc id else pure ()

def popPath (id : WorkerId) : M Unit := do
  modify fun s => { s with logPaths := s.logPaths.filter (·.1 ≠ id) }
  suppress (· = .fileNotFound) (reach sc .unlinkLog)

def unlinkLog (id : WorkerId) : M Unit := do
  let s ← get
  if id ∈ s.logPaths.map (·.1) then popPath sc id else pure ()

/-- `_cleanup`, without `retain_log`. -/
def cleanup (id : WorkerId) : M Unit := do
  modify (State.forget · id)
  closeLog sc id
  unlinkLog sc id

def popWorker (id : WorkerId) : M Unit := modify (State.pop · id)

/-- The handler around the spawn. -/
def undo (id : WorkerId) : M Unit := do
  cleanup sc id
  popWorker id

def waitExit (id : WorkerId) : M Unit := do
  reach sc .wait
  modify (State.engineExit · id)

/-- The handler around the records. -/
def abort (id : WorkerId) : M Unit := do
  suppress (· ≠ .cancelled) (reach sc .kill)
  suppress (· = .timeout) (waitExit sc id)
  undo sc id

/-! ### The launch -/

def build (profile : PlacementProfile) : M Unit := do
  check (checkEngine cfg profile)
  reach sc .command
  reach sc .environment

def openLog (id : WorkerId) : M Unit := do
  reach sc .openLog
  modify (State.addLog · id sc.logPath)

def captureLog (id : WorkerId) : M Unit := if cfg.captureWorkerEngineLogs then openLog sc id else pure ()

def record : M Unit := do
  reach sc .persist
  reach sc .recordEvent

/-- The launch from the opening of the log on. -/
def bringUp (x : WorkerPlacement) : M WorkerPlacement := do
  captureLog cfg sc x.id
  onError (reach sc .spawn) (undo sc x.id)
  modify (State.started · x sc.pid)
  onError (record sc) (abort sc x.id)
  modify (State.watched · x.id)
  pure { x with processPid := some sc.pid }

/-- The launch from the registration of the worker on. -/
def place (x : WorkerPlacement) : M WorkerPlacement := do
  modify (State.register · x)
  onError (build cfg sc x.profile) (popWorker x.id)
  bringUp cfg sc x

def launch (profile : PlacementProfile) (gpus : List GpuUuid) : M WorkerPlacement := do
  let s ← get
  check (guards cfg s.workers profile gpus)
  let port ← check (allocatePort cfg s.workers)
  place cfg sc (newWorker profile gpus sc.id port sc.now)

/-! ### What a failed launch leaves -/

/-- The worker, its process and its log are gone, and no engine has been left
running. -/
structure NoTrace (s s' : State) : Prop where
  workers : s'.workers = s.workers
  processes : s'.processes = s.processes
  logHandles : s'.logHandles = s.logHandles
  logPaths : s'.logPaths = s.logPaths
  engines : ∀ e ∈ s'.engines, e ∈ s.engines ∨ e.exited = true

/-- An id that the supervisor has not used. -/
structure NewId (s : State) (id : WorkerId) : Prop where
  workers : id ∉ s.workers.map (·.id)
  processes : id ∉ s.processes
  engines : id ∉ s.engines.map (·.worker)
  logHandles : id ∉ s.logHandles
  logPaths : id ∉ s.logPaths.map (·.1)

/-- The log can be closed and removed. -/
def LogCloses : Prop :=
  sc.raises .closeLog = none ∧ (sc.raises .unlinkLog = none ∨ sc.raises .unlinkLog = some .fileNotFound)

def LogRemoved : Prop := cfg.captureWorkerEngineLogs = true → LogCloses sc

/-- The engine that is killed exits in time. -/
def EngineStopped : Prop := sc.raises .kill ≠ some .cancelled ∧ sc.raises .wait = none

/-- The worker is registered, and its command and environment are built. -/
def Built (s : State) (profile : PlacementProfile) (gpus : List GpuUuid) : Prop :=
  (∃ port, launchPort cfg s.workers profile gpus = .ok port) ∧ sc.raises .command = none ∧
    sc.raises .environment = none

/-- What the handlers need: the log can be opened, and they do not raise
themselves where they run. -/
structure Covered : Prop where
  log : cfg.captureWorkerEngineLogs = true → sc.raises .openLog = none
  spawn : sc.raises .spawn ≠ none → LogRemoved cfg sc
  record : sc.raises .spawn = none → sc.raises .persist ≠ none ∨ sc.raises .recordEvent ≠ none →
    EngineStopped sc ∧ LogRemoved cfg sc

/-! ### The steps -/

section

variable {sc} {s t u : State} {p : Point} {e e' : Raised} {id : WorkerId}

theorem reach_ok (h : sc.raises p = none) : reach sc p s = .ok () s := by
  unfold reach
  rw [h]
  rfl

theorem reach_error (h : sc.raises p = some e) : reach sc p s = .error e s := by
  unfold reach
  rw [h]
  rfl

theorem check_ok {r : Except WorkerLaunchError α} {a : α} (h : r = .ok a) : check r s = .ok a s := by
  rw [h]
  rfl

theorem onError_ok {m : M α} {h : M Unit} {a : α} (hm : m s = .ok a t) : onError m h s = .ok a t := tryCatch_ok hm

/-- The handler ends, and the exception is raised again. -/
theorem onError_error {m : M α} {h : M Unit} (hm : m s = .error e t) (hh : h t = .ok () u) :
    onError m h s = .error e u := by
  unfold onError
  rw [tryCatch_error hm, bind_ok hh]
  rfl

/-- The handler raises. -/
theorem onError_raises {m : M α} {h : M Unit} (hm : m s = .error e t) (hh : h t = .error e' u) :
    onError m h s = .error e' u := by
  unfold onError
  rw [tryCatch_error hm, bind_error hh]

theorem suppress_ok {caught : Raised → Bool} {m : M Unit} (hm : m s = .ok () t) : suppress caught m s = .ok () t :=
  tryCatch_ok hm

theorem suppress_caught {caught : Raised → Bool} {m : M Unit} (hm : m s = .error e t) (hc : caught e = true) :
    suppress caught m s = .ok () t := by
  unfold suppress
  rw [tryCatch_error hm, if_pos hc]
  rfl

theorem suppress_error {caught : Raised → Bool} {m : M Unit} (hm : m s = .error e t) (hc : caught e = false) :
    suppress caught m s = .error e t := by
  unfold suppress
  rw [tryCatch_error hm, hc]
  rfl

end

/-! ### The cleanup -/

section

variable {sc} {s t : State} {id : WorkerId}

theorem closeLog_ok (h : id ∈ s.logHandles → sc.raises .closeLog = none) :
    closeLog sc id s = .ok () { s with logHandles := s.logHandles.filter (· ≠ id) } := by
  unfold closeLog
  rw [get_run]
  by_cases hin : id ∈ s.logHandles
  · rw [if_pos hin]
    exact reach_ok (h hin)
  · have hsame : s.logHandles.filter (· ≠ id) = s.logHandles := by
      rw [List.filter_eq_self]
      exact fun j hj => decide_eq_true fun he => hin (he ▸ hj)
    rw [if_neg hin, hsame]
    rfl

theorem unlinkLog_ok (h : id ∈ s.logPaths.map (·.1) →
      sc.raises .unlinkLog = none ∨ sc.raises .unlinkLog = some .fileNotFound) :
    unlinkLog sc id s = .ok () { s with logPaths := s.logPaths.filter (·.1 ≠ id) } := by
  unfold unlinkLog
  rw [get_run]
  by_cases hin : id ∈ s.logPaths.map (·.1)
  · rw [if_pos hin]
    unfold popPath
    rw [modify_run]
    rcases h hin with hok | hmissing
    · exact suppress_ok (reach_ok hok)
    · exact suppress_caught (reach_error hmissing) rfl
  · have hsame : s.logPaths.filter (·.1 ≠ id) = s.logPaths := by
      rw [List.filter_eq_self]
      exact fun path hpath => decide_eq_true fun he => hin (he ▸ List.mem_map_of_mem hpath)
    rw [if_neg hin, hsame]
    rfl

theorem cleanup_ok (h : id ∈ s.logHandles ∨ id ∈ s.logPaths.map (·.1) → LogCloses sc) :
    cleanup sc id s = .ok () (s.cleaned id) := by
  have hclose := closeLog_ok (s := s.forget id) fun hin => (h (.inl hin)).1
  unfold cleanup
  rw [modify_run, bind_ok hclose]
  exact unlinkLog_ok fun hin => (h (.inr hin)).2

/-- A log that cannot be closed or removed keeps its worker. -/
theorem cleanup_raises (hhandle : id ∈ s.logHandles) (hpath : id ∈ s.logPaths.map (·.1)) (h : ¬ LogCloses sc) :
    ∃ e t, cleanup sc id s = .error e t ∧ t.workers = s.workers := by
  let s1 : State := s.forget id
  have hhandle : id ∈ s1.logHandles := hhandle
  have hrun : cleanup sc id s = (do closeLog sc id; unlinkLog sc id) s1 := modify_run
  rw [hrun]
  cases hclose : sc.raises .closeLog with
  | some e =>
    have hrun : closeLog sc id s1 = .error e { s1 with logHandles := s1.logHandles.filter (· ≠ id) } := by
      unfold closeLog
      rw [get_run, if_pos hhandle]
      exact reach_error hclose
    exact ⟨e, _, bind_error hrun, rfl⟩
  | none =>
    let s2 : State := { s1 with logHandles := s1.logHandles.filter (· ≠ id) }
    have hpath : id ∈ s2.logPaths.map (·.1) := hpath
    have hrun : closeLog sc id s1 = .ok () s2 := closeLog_ok fun _ => hclose
    cases hunlink : sc.raises .unlinkLog with
    | none => exact absurd ⟨hclose, .inl hunlink⟩ h
    | some e =>
      have hother : e ≠ .fileNotFound := fun he => h ⟨hclose, .inr (he ▸ hunlink)⟩
      refine ⟨e, { s2 with logPaths := s2.logPaths.filter (·.1 ≠ id) }, ?_, rfl⟩
      rw [bind_ok hrun]
      unfold unlinkLog
      rw [get_run, if_pos hpath]
      exact suppress_error (reach_error hunlink) (decide_eq_false hother)

theorem undo_ok (h : id ∈ s.logHandles ∨ id ∈ s.logPaths.map (·.1) → LogCloses sc) :
    undo sc id s = .ok () ((s.cleaned id).pop id) := by
  unfold undo
  rw [bind_ok (cleanup_ok h)]
  rfl

theorem undo_raises (hhandle : id ∈ s.logHandles) (hpath : id ∈ s.logPaths.map (·.1)) (h : ¬ LogCloses sc) :
    ∃ e t, undo sc id s = .error e t ∧ t.workers = s.workers := by
  obtain ⟨e, t, hrun, hworkers⟩ := cleanup_raises hhandle hpath h
  exact ⟨e, t, bind_error hrun, hworkers⟩

theorem abort_eq (hkill : sc.raises .kill ≠ some .cancelled) :
    abort sc id s = (do suppress (· = Raised.timeout) (waitExit sc id); undo sc id) s := by
  have hrun : suppress (· ≠ .cancelled) (reach sc .kill) s = .ok () s := by
    cases hraises : sc.raises .kill with
    | none => exact suppress_ok (reach_ok hraises)
    | some e =>
      refine suppress_caught (reach_error hraises) (decide_eq_true fun he => hkill ?_)
      rw [hraises, he]
  unfold abort
  exact bind_ok hrun

theorem abort_ok (hstopped : EngineStopped sc)
    (h : id ∈ s.logHandles ∨ id ∈ s.logPaths.map (·.1) → LogCloses sc) :
    abort sc id s = .ok () (((s.engineExit id).cleaned id).pop id) := by
  have hwait : waitExit sc id s = .ok () (s.engineExit id) := by
    unfold waitExit
    rw [bind_ok (reach_ok hstopped.2)]
    rfl
  rw [abort_eq hstopped.1, bind_ok (suppress_ok hwait)]
  exact undo_ok h

/-- If the engine does not exit in time, or the log cannot be removed, then the
worker stays or its engine runs on. -/
theorem abort_leaves (hlogs : id ∈ s.logHandles ↔ id ∈ s.logPaths.map (·.1))
    (h : ¬ (EngineStopped sc ∧ (id ∈ s.logHandles → LogCloses sc))) :
    (∃ t, abort sc id s = .ok () t ∧ t.engines = s.engines) ∨
      ∃ e t, abort sc id s = .error e t ∧ t.workers = s.workers := by
  by_cases hkill : sc.raises .kill = some .cancelled
  · refine .inr ⟨.cancelled, s, ?_, rfl⟩
    exact bind_error (suppress_error (reach_error hkill) rfl)
  · rw [abort_eq hkill]
    cases hraises : sc.raises .wait with
    | none =>
      have hwait : waitExit sc id s = .ok () (s.engineExit id) := by
        unfold waitExit
        rw [bind_ok (reach_ok hraises)]
        rfl
      rw [bind_ok (suppress_ok hwait)]
      obtain ⟨hhandle, hcloses⟩ := Classical.not_imp.mp fun hcloses => h ⟨⟨hkill, hraises⟩, hcloses⟩
      obtain ⟨e, t, hrun, hworkers⟩ := undo_raises (s := s.engineExit id) hhandle (hlogs.mp hhandle) hcloses
      exact .inr ⟨e, t, hrun, hworkers⟩
    | some e =>
      have hwait : waitExit sc id s = .error e s := bind_error (reach_error hraises)
      by_cases htimeout : e = .timeout
      · rw [bind_ok (suppress_caught hwait (decide_eq_true htimeout))]
        by_cases hcloses : id ∈ s.logHandles → LogCloses sc
        · exact .inl ⟨_, undo_ok fun hin => hcloses (hin.elim (fun h => h) hlogs.mpr), rfl⟩
        · obtain ⟨hhandle, hcloses⟩ := Classical.not_imp.mp hcloses
          exact .inr (undo_raises hhandle (hlogs.mp hhandle) hcloses)
      · exact .inr ⟨e, s, bind_error (suppress_error hwait (decide_eq_false htimeout)), rfl⟩

end

/-! ### What belongs to the worker -/

/-- Apart from the entries of the worker `id`, the state is `s`. -/
structure Owned (id : WorkerId) (s t : State) : Prop where
  workers : t.workers.filter (·.id ≠ id) = s.workers
  processes : t.processes.filter (· ≠ id) = s.processes
  logHandles : t.logHandles.filter (· ≠ id) = s.logHandles
  logPaths : t.logPaths.filter (·.1 ≠ id) = s.logPaths
  engines : ∀ e ∈ t.engines, e ∈ s.engines ∨ e.worker = id

namespace Owned

variable {s t : State} {id : WorkerId} {x : WorkerPlacement}

theorem refl (h : NewId s id) : Owned id s s := by
  refine ⟨?_, ?_, ?_, ?_, fun e he => .inl he⟩
  · rw [List.filter_eq_self]
    exact fun x hx => decide_eq_true fun he => h.workers (he ▸ List.mem_map_of_mem hx)
  · rw [List.filter_eq_self]
    exact fun j hj => decide_eq_true fun he => h.processes (he ▸ hj)
  · rw [List.filter_eq_self]
    exact fun j hj => decide_eq_true fun he => h.logHandles (he ▸ hj)
  · rw [List.filter_eq_self]
    exact fun path hpath => decide_eq_true fun he => h.logPaths (he ▸ List.mem_map_of_mem hpath)

theorem register (h : Owned x.id s t) : Owned x.id s (t.register x) := by
  refine ⟨?_, h.processes, h.logHandles, h.logPaths, h.engines⟩
  show (t.workers ++ [x]).filter (·.id ≠ x.id) = s.workers
  rw [List.filter_append, h.workers]
  simp

theorem addLog (h : Owned id s t) (path : String) : Owned id s (t.addLog id path) := by
  refine ⟨h.workers, h.processes, ?_, ?_, h.engines⟩
  · show (t.logHandles ++ [id]).filter (· ≠ id) = s.logHandles
    rw [List.filter_append, h.logHandles]
    simp
  · show (t.logPaths ++ [(id, path)]).filter (·.1 ≠ id) = s.logPaths
    rw [List.filter_append, h.logPaths]
    simp

theorem started (h : Owned x.id s t) (pid : ℕ) : Owned x.id s (t.started x pid) := by
  refine ⟨?_, ?_, h.logHandles, h.logPaths, fun e he => ?_⟩
  · show (Table.modify WorkerPlacement.id x.id _ t.workers).filter (·.id ≠ x.id) = s.workers
    rw [Table.filter_modify_of_not, h.workers]
    exact fun y _ hy => by simp [hy]
  · show (t.processes ++ [x.id]).filter (· ≠ x.id) = s.processes
    rw [List.filter_append, h.processes]
    simp
  · rcases List.mem_append.mp he with hold | hnew
    · exact h.engines e hold
    · rw [List.mem_singleton.mp hnew]
      exact .inr rfl

theorem engineExit (h : Owned id s t) : Owned id s (t.engineExit id) := by
  refine ⟨h.workers, h.processes, h.logHandles, h.logPaths, fun e he => ?_⟩
  rcases Table.mem_modify.mp he with ⟨hold, -⟩ | ⟨old, -, hworker, rfl⟩
  · exact h.engines e hold
  · exact .inr hworker

/-- When the entries of the worker are taken out and its engines have exited,
there is no trace of it. -/
theorem noTrace (h : Owned id s t) (hexited : ∀ e ∈ t.engines, e.worker = id → e.exited = true) :
    NoTrace s ((t.cleaned id).pop id) :=
  ⟨h.workers, h.processes, h.logHandles, h.logPaths, fun e he => (h.engines e he).imp_right (hexited e he)⟩

end Owned

/-! ### How a launch ends -/

/-- The state once the log is captured. -/
def State.logged (s : State) (id : WorkerId) : State :=
  if cfg.captureWorkerEngineLogs then s.addLog id sc.logPath else s

/-- The worker stays, or an engine of it runs. -/
def Left (id : WorkerId) (s : State) : Prop :=
  id ∈ s.workers.map (·.id) ∨ ∃ e ∈ s.engines, e.worker = id ∧ e.exited = false

section

variable {cfg} {sc} {s t : State} {id : WorkerId} {x : WorkerPlacement} {e : Raised}

theorem Left.traced (hnew : NewId s id) (h : Left id t) : ¬ NoTrace s t := by
  intro hclean
  rcases h with hworker | ⟨e, he, hid, hruns⟩
  · exact hnew.workers (hclean.workers ▸ hworker)
  · rcases hclean.engines e he with hold | hexited
    · exact hnew.engines (hid ▸ List.mem_map_of_mem hold)
    · rw [hruns] at hexited
      cases hexited

theorem captureLog_ok (h : cfg.captureWorkerEngineLogs = true → sc.raises .openLog = none) :
    captureLog cfg sc id s = .ok () (s.logged cfg sc id) := by
  unfold captureLog State.logged
  by_cases hcapture : cfg.captureWorkerEngineLogs = true
  · rw [if_pos hcapture, if_pos hcapture]
    unfold openLog
    rw [bind_ok (reach_ok (h hcapture))]
    rfl
  · rw [if_neg hcapture, if_neg hcapture]
    rfl

theorem Owned.logged (h : Owned id s t) : Owned id s (t.logged cfg sc id) := by
  unfold State.logged
  split
  · exact h.addLog _
  · exact h

theorem logged_workers : (s.logged cfg sc id).workers = s.workers ∧ (s.logged cfg sc id).engines = s.engines := by
  unfold State.logged
  split <;> exact ⟨rfl, rfl⟩

/-- The worker has a log if logs are captured. -/
theorem mem_logged (cfg : Settings) (sc : Script) (hnew : NewId s id)
    (hlogs : t.logHandles = s.logHandles ∧ t.logPaths = s.logPaths) :
    (id ∈ (t.logged cfg sc id).logHandles ↔ cfg.captureWorkerEngineLogs = true) ∧
      (id ∈ (t.logged cfg sc id).logPaths.map (·.1) ↔ cfg.captureWorkerEngineLogs = true) := by
  have hhandles : id ∉ t.logHandles := hlogs.1 ▸ hnew.logHandles
  have hpaths : id ∉ t.logPaths.map (·.1) := hlogs.2 ▸ hnew.logPaths
  unfold State.logged
  by_cases hcapture : cfg.captureWorkerEngineLogs = true
  · rw [if_pos hcapture]
    refine ⟨iff_of_true ?_ hcapture, iff_of_true ?_ hcapture⟩
    · exact List.mem_append_right _ List.mem_cons_self
    · exact List.mem_map.mpr ⟨_, List.mem_append_right _ List.mem_cons_self, rfl⟩
  · rw [if_neg hcapture]
    exact ⟨iff_of_false hhandles hcapture, iff_of_false hpaths hcapture⟩

/-- The records raise, or both are made. -/
theorem record_cases (sc : Script) (s : State) :
    (sc.raises .persist = none ∧ sc.raises .recordEvent = none ∧ record sc s = .ok () s) ∨
    ((sc.raises .persist ≠ none ∨ sc.raises .recordEvent ≠ none) ∧ ∃ e, record sc s = .error e s) := by
  unfold record
  cases hpersist : sc.raises .persist with
  | some e => exact .inr ⟨.inl (fun h => nomatch h), e, bind_error (reach_error hpersist)⟩
  | none =>
    rw [bind_ok (reach_ok hpersist)]
    cases hevent : sc.raises .recordEvent with
    | some e => exact .inr ⟨.inr (fun h => nomatch h), e, reach_error hevent⟩
    | none => exact .inl ⟨rfl, rfl, reach_ok hevent⟩

theorem bringUp_log_fails (hcapture : cfg.captureWorkerEngineLogs = true) (hfails : sc.raises .openLog = some e) :
    bringUp cfg sc x s = .error e s := by
  unfold bringUp captureLog
  rw [if_pos hcapture]
  exact bind_error (bind_error (reach_error hfails))

/-- The log of the worker, if it has one, can be removed. -/
theorem closes_of_removed (hnew : NewId s x.id) (h : LogRemoved cfg sc)
    (hin : x.id ∈ ((s.register x).logged cfg sc x.id).logHandles ∨
      x.id ∈ ((s.register x).logged cfg sc x.id).logPaths.map (·.1)) : LogCloses sc := by
  obtain ⟨hhandles, hpaths⟩ := mem_logged cfg sc (t := s.register x) hnew ⟨rfl, rfl⟩
  exact h (hin.elim hhandles.mp hpaths.mp)

section bringUp

variable (hnew : NewId s x.id) (hlog : cfg.captureWorkerEngineLogs = true → sc.raises .openLog = none)

include hnew hlog

theorem bringUp_spawn_fails (hfails : sc.raises .spawn = some e) (hclean : LogRemoved cfg sc) :
    bringUp cfg sc x (s.register x) =
      .error e ((((s.register x).logged cfg sc x.id).cleaned x.id).pop x.id) := by
  unfold bringUp
  rw [bind_ok (captureLog_ok hlog)]
  exact bind_error (onError_error (reach_error hfails) (undo_ok (closes_of_removed hnew hclean)))

theorem bringUp_spawn_leaves (hfails : sc.raises .spawn = some e) (hleaves : ¬ LogRemoved cfg sc) :
    ∃ e u, bringUp cfg sc x (s.register x) = .error e u ∧ Left x.id u := by
  obtain ⟨hcapture, hcloses⟩ := Classical.not_imp.mp hleaves
  obtain ⟨hhandles, hpaths⟩ := mem_logged cfg sc (t := s.register x) hnew ⟨rfl, rfl⟩
  obtain ⟨e', u, hrun, hworkers⟩ := undo_raises (hhandles.mpr hcapture) (hpaths.mpr hcapture) hcloses
  refine ⟨e', u, ?_, .inl ?_⟩
  · unfold bringUp
    rw [bind_ok (captureLog_ok hlog)]
    exact bind_error (onError_raises (reach_error hfails) hrun)
  · rw [hworkers, logged_workers.1]
    exact List.mem_map_of_mem (List.mem_append_right _ List.mem_cons_self)

theorem bringUp_record_fails (hspawn : sc.raises .spawn = none)
    (hfails : sc.raises .persist ≠ none ∨ sc.raises .recordEvent ≠ none) (hstopped : EngineStopped sc)
    (hclean : LogRemoved cfg sc) :
    ∃ e, bringUp cfg sc x (s.register x) = .error e
      ((((((s.register x).logged cfg sc x.id).started x sc.pid).engineExit x.id).cleaned x.id).pop x.id) := by
  let t := ((s.register x).logged cfg sc x.id).started x sc.pid
  rcases record_cases sc t with ⟨hpersist, hevent, -⟩ | ⟨-, e, hrecord⟩
  · exact absurd hfails (not_or.mpr ⟨not_not.mpr hpersist, not_not.mpr hevent⟩)
  · refine ⟨e, ?_⟩
    have habort := abort_ok (s := t) hstopped fun hin => closes_of_removed hnew hclean hin
    unfold bringUp
    rw [bind_ok (captureLog_ok hlog), bind_ok (onError_ok (reach_ok hspawn)), modify_run]
    exact bind_error (onError_error hrecord habort)

theorem bringUp_record_leaves (hspawn : sc.raises .spawn = none)
    (hfails : sc.raises .persist ≠ none ∨ sc.raises .recordEvent ≠ none)
    (hleaves : ¬ (EngineStopped sc ∧ LogRemoved cfg sc)) :
    ∃ e u, bringUp cfg sc x (s.register x) = .error e u ∧ Left x.id u := by
  let t := ((s.register x).logged cfg sc x.id).started x sc.pid
  obtain ⟨hhandles, hpaths⟩ := mem_logged cfg sc (t := s.register x) hnew ⟨rfl, rfl⟩
  have hrun : bringUp cfg sc x (s.register x) = (do
      onError (record sc) (abort sc x.id)
      modify (State.watched · x.id)
      pure { x with processPid := some sc.pid }) t := by
    unfold bringUp
    rw [bind_ok (captureLog_ok hlog), bind_ok (onError_ok (reach_ok hspawn)), modify_run]
  have hworker : x.id ∈ t.workers.map (·.id) := by
    have hid : ∀ y : WorkerPlacement, y.id = x.id → { y with processPid := some sc.pid }.id = x.id := fun _ h => h
    have hids : t.workers.map (·.id) = ((s.register x).logged cfg sc x.id).workers.map (·.id) :=
      Table.map_key_modify hid _
    rw [hids, logged_workers.1]
    exact List.mem_map_of_mem (List.mem_append_right _ List.mem_cons_self)
  have hengine : ∃ e ∈ t.engines, e.worker = x.id ∧ e.exited = false :=
    ⟨_, List.mem_append_right _ List.mem_cons_self, rfl, rfl⟩
  rcases record_cases sc t with ⟨hpersist, hevent, -⟩ | ⟨-, e, hrecord⟩
  · exact absurd hfails (not_or.mpr ⟨not_not.mpr hpersist, not_not.mpr hevent⟩)
  · have hcond : ¬ (EngineStopped sc ∧ (x.id ∈ t.logHandles → LogCloses sc)) := fun h =>
      hleaves ⟨h.1, fun hcapture => h.2 (hhandles.mpr hcapture)⟩
    rw [hrun]
    rcases abort_leaves (s := t) (hhandles.trans hpaths.symm) hcond with
      ⟨u, habort, hengines⟩ | ⟨e', u, habort, hworkers⟩
    · exact ⟨e, u, bind_error (onError_error hrecord habort), .inr (hengines ▸ hengine)⟩
    · exact ⟨e', u, bind_error (onError_raises hrecord habort), .inl (hworkers ▸ hworker)⟩

omit hnew in
theorem bringUp_done (hspawn : sc.raises .spawn = none) (hpersist : sc.raises .persist = none)
    (hevent : sc.raises .recordEvent = none) :
    bringUp cfg sc x s = .ok { x with processPid := some sc.pid }
      (((s.logged cfg sc x.id).started x sc.pid).watched x.id) := by
  let t := (s.logged cfg sc x.id).started x sc.pid
  rcases record_cases sc t with ⟨-, -, hrecord⟩ | ⟨hfails, -⟩
  · unfold bringUp
    rw [bind_ok (captureLog_ok hlog), bind_ok (onError_ok (reach_ok hspawn)), modify_run,
      bind_ok (onError_ok hrecord)]
    rfl
  · exact absurd hfails (not_or.mpr ⟨not_not.mpr hpersist, not_not.mpr hevent⟩)

end bringUp

/-- The command and the environment are built, or something raises; neither
changes anything. -/
theorem build_cases (cfg : Settings) (sc : Script) (profile : PlacementProfile) (s : State) :
    (checkEngine cfg profile = .ok () ∧ sc.raises .command = none ∧ sc.raises .environment = none ∧
      build cfg sc profile s = .ok () s) ∨
    (¬ (checkEngine cfg profile = .ok () ∧ sc.raises .command = none ∧ sc.raises .environment = none) ∧
      ∃ e, build cfg sc profile s = .error e s) := by
  unfold build
  cases hengine : checkEngine cfg profile with
  | error e => exact .inr ⟨(fun h => nomatch h.1), _, bind_error rfl⟩
  | ok =>
    rw [bind_ok (check_ok rfl)]
    cases hcommand : sc.raises .command with
    | some e => exact .inr ⟨(fun h => nomatch h.2.1), e, bind_error (reach_error hcommand)⟩
    | none =>
      rw [bind_ok (reach_ok hcommand)]
      cases henvironment : sc.raises .environment with
      | some e => exact .inr ⟨(fun h => nomatch h.2.2), e, reach_error henvironment⟩
      | none => exact .inl ⟨rfl, rfl, rfl, reach_ok henvironment⟩

theorem place_built (h : build cfg sc x.profile (s.register x) = .ok () (s.register x)) :
    place cfg sc x s = bringUp cfg sc x (s.register x) := by
  unfold place
  rw [modify_run, bind_ok (onError_ok h)]

theorem place_unbuilt (h : build cfg sc x.profile (s.register x) = .error e (s.register x)) :
    place cfg sc x s = .error e ((s.register x).pop x.id) := by
  unfold place
  rw [modify_run]
  exact bind_error (onError_error h rfl)

theorem launchPort_iff {workers : List WorkerPlacement} {profile : PlacementProfile} {gpus : List GpuUuid}
    {port : ℕ} :
    launchPort cfg workers profile gpus = .ok port ↔
      guards cfg workers profile gpus = .ok () ∧ allocatePort cfg workers = .ok port ∧
        checkEngine cfg profile = .ok () := by
  rw [launchPort_eq, bind_eq_ok]
  constructor
  · rintro ⟨_, hguards, h⟩
    obtain ⟨port', hport, h⟩ := bind_eq_ok.mp h
    obtain ⟨_, hengine, h⟩ := bind_eq_ok.mp h
    obtain rfl := pure_eq_ok.mp h
    exact ⟨hguards, hport, hengine⟩
  · rintro ⟨hguards, hport, hengine⟩
    exact ⟨(), hguards, bind_eq_ok.mpr ⟨port, hport, bind_eq_ok.mpr ⟨(), hengine, rfl⟩⟩⟩

theorem launch_built {profile : PlacementProfile} {gpus : List GpuUuid} {port : ℕ}
    (hbuilt : Built cfg sc s profile gpus) (hplaced : launchPort cfg s.workers profile gpus = .ok port) :
    launch cfg sc profile gpus s = bringUp cfg sc (newWorker profile gpus sc.id port sc.now)
      (s.register (newWorker profile gpus sc.id port sc.now)) := by
  obtain ⟨hguards, hport, hengine⟩ := launchPort_iff.mp hplaced
  let x := newWorker profile gpus sc.id port sc.now
  rcases build_cases cfg sc profile (s.register x) with ⟨-, -, -, hbuild⟩ | ⟨hunbuilt, -⟩
  · unfold launch
    rw [get_run, bind_ok (check_ok hguards), bind_ok (check_ok hport)]
    exact place_built hbuild
  · exact absurd ⟨hengine, hbuilt.2⟩ hunbuilt

/-- The launch raises before it registers the worker, or goes on from there. -/
theorem launch_cases (cfg : Settings) (sc : Script) (profile : PlacementProfile) (gpus : List GpuUuid) (s : State) :
    (∃ port, guards cfg s.workers profile gpus = .ok () ∧ allocatePort cfg s.workers = .ok port ∧
      launch cfg sc profile gpus s = place cfg sc (newWorker profile gpus sc.id port sc.now) s) ∨
    ((∀ port, ¬ (guards cfg s.workers profile gpus = .ok () ∧ allocatePort cfg s.workers = .ok port)) ∧
      ∃ e, launch cfg sc profile gpus s = .error e s) := by
  unfold launch
  rw [get_run]
  cases hguards : guards cfg s.workers profile gpus with
  | error e => exact .inr ⟨(fun port h => nomatch h.1), _, bind_error rfl⟩
  | ok =>
    rw [bind_ok (check_ok rfl)]
    cases hport : allocatePort cfg s.workers with
    | error e => exact .inr ⟨(fun port h => nomatch h.2), _, bind_error rfl⟩
    | ok port => exact .inl ⟨port, rfl, rfl, bind_ok (check_ok rfl)⟩

theorem NoTrace.refl (s : State) : NoTrace s s := ⟨rfl, rfl, rfl, rfl, fun _ he => .inl he⟩

/-- What could be placed before can be placed again. -/
theorem NoTrace.launchPort (h : NoTrace s t) (profile : PlacementProfile) (gpus : List GpuUuid) :
    Supervisor.launchPort cfg t.workers profile gpus = Supervisor.launchPort cfg s.workers profile gpus := by
  rw [h.workers]

/-- Where the handlers do what they are for, they leave no trace. -/
theorem bringUp_noTrace (hnew : NewId s x.id) (hcovered : Covered cfg sc) {u : State}
    (hrun : bringUp cfg sc x (s.register x) = .error e u) : NoTrace s u := by
  have howned : Owned x.id s ((s.register x).logged cfg sc x.id) := (Owned.refl hnew).register.logged
  cases hspawn : sc.raises .spawn with
  | some e' =>
    have hclean := hcovered.spawn (hspawn ▸ fun h => nomatch h)
    rw [bringUp_spawn_fails hnew hcovered.log hspawn hclean] at hrun
    cases hrun
    refine howned.noTrace fun e he hid => absurd ?_ hnew.engines
    rw [logged_workers.2] at he
    exact hid ▸ List.mem_map_of_mem he
  | none =>
    by_cases hfails : sc.raises .persist ≠ none ∨ sc.raises .recordEvent ≠ none
    · obtain ⟨hstopped, hclean⟩ := hcovered.record hspawn hfails
      obtain ⟨e', hrun'⟩ := bringUp_record_fails hnew hcovered.log hspawn hfails hstopped hclean
      rw [hrun'] at hrun
      cases hrun
      refine (howned.started sc.pid).engineExit.noTrace fun e he hid => ?_
      rcases Table.mem_modify.mp he with ⟨-, hother⟩ | ⟨old, -, -, rfl⟩
      · exact absurd hid hother
      · rfl
    · obtain ⟨hpersist, hevent⟩ := not_or.mp hfails
      rw [bringUp_done hcovered.log hspawn (not_not.mp hpersist) (not_not.mp hevent)] at hrun
      cases hrun

/-- Otherwise the launch raises and leaves the worker or its engine. -/
theorem bringUp_leaves (hnew : NewId s x.id) (h : ¬ Covered cfg sc) :
    ∃ e u, bringUp cfg sc x (s.register x) = .error e u ∧ Left x.id u := by
  by_cases hlog : cfg.captureWorkerEngineLogs = true → sc.raises .openLog = none
  · cases hspawn : sc.raises .spawn with
    | some e =>
      refine bringUp_spawn_leaves hnew hlog hspawn fun hclean => h ⟨hlog, fun _ => hclean, fun hnone => ?_⟩
      rw [hspawn] at hnone
      cases hnone
    | none =>
      by_cases hfails : sc.raises .persist ≠ none ∨ sc.raises .recordEvent ≠ none
      · refine bringUp_record_leaves hnew hlog hspawn hfails fun hclean => h ?_
        refine ⟨hlog, fun hsome => ?_, fun _ _ => hclean⟩
        exact absurd hspawn hsome
      · exact absurd ⟨hlog, fun hsome => absurd hspawn hsome, fun _ hrecord => absurd hrecord hfails⟩ h
  · -- the log is opened outside of the handlers
    obtain ⟨hcapture, hfails⟩ := Classical.not_imp.mp hlog
    obtain ⟨e, hraises⟩ := Option.ne_none_iff_exists'.mp hfails
    refine ⟨e, _, bringUp_log_fails hcapture hraises, .inl ?_⟩
    exact List.mem_map_of_mem (List.mem_append_right _ List.mem_cons_self)

end

/-! ### The steps of the supervisor -/

/-- The state that a program ends in. -/
def final : EStateM.Result Raised State α → State
  | .ok _ t => t
  | .error _ t => t

section

variable {cfg} {sc} {s : Supervisor.State} {x : WorkerPlacement}

/-- The launch of `x` holds `_lock`. -/
def holding (s : Supervisor.State) (x : WorkerPlacement) (phase : LaunchPhase) : Supervisor.State :=
  { s with launching := some (x.id, phase) }

theorem idle_eq (h : s.launching = none) : { s with launching := none } = s := by
  rw [← h]

theorem step_launch {profile : PlacementProfile} {gpus : List GpuUuid} {port : ℕ} {id : WorkerId} {now : Datetime}
    (hidle : s.launching = none) (hissued : id ∉ s.issued)
    (hport : launchPort cfg s.workers profile gpus = .ok port) :
    Supervisor.step cfg s (.launch profile gpus id now) = some { s with
      workers := s.workers ++ [newWorker profile gpus id port now]
      launching := some (id, .spawning)
      issued := id :: s.issued } := by
  unfold Supervisor.step
  simp only
  rw [if_pos ⟨hidle, hissued⟩, hport]

theorem step_logFails (hidle : s.launching = none) (hcapture : cfg.captureWorkerEngineLogs = true) :
    Supervisor.step cfg (holding s x .spawning) .launchLogFails = some s := by
  show (if cfg.captureWorkerEngineLogs then some { s with launching := none } else none) = _
  rw [if_pos hcapture, idle_eq hidle]

theorem step_spawnFails (hidle : s.launching = none) :
    Supervisor.step cfg (holding s x .spawning) .launchSpawnFails = some ((s.cleanup x.id).pop x.id) :=
  congrArg some (idle_eq (s := (s.cleanup x.id).pop x.id) hidle)

theorem step_spawned (hworker : s.worker? x.id = some x) (cfg : Settings) (pid : ℕ) :
    Supervisor.step cfg (holding s x .spawning) (.launchSpawned pid) = some (holding
      { s.modify x.id (fun y => { y with processPid := some pid }) with
        processes := s.processes ++ [x.id]
        engines := s.engines ++ [{ worker := x.id, port := x.port, gpuUuids := x.gpuUuids }] } x .persisting) := by
  show (s.worker? x.id).map _ = _
  rw [hworker]
  rfl

theorem step_aborted (hidle : s.launching = none) :
    Supervisor.step cfg (holding s x .persisting) .launchAborted = some ((s.cleanup x.id).pop x.id) :=
  congrArg some (idle_eq (s := (s.cleanup x.id).pop x.id) hidle)

theorem step_done (hidle : s.launching = none) :
    Supervisor.step cfg (holding s x .persisting) .launchDone =
      some ((s.spawn x.id .polling).spawn x.id .monitoring) :=
  congrArg some (idle_eq (s := (s.spawn x.id .polling).spawn x.id .monitoring) hidle)

end

theorem logged_toState (s : State) (id : WorkerId) : (s.logged cfg sc id).toState = s.toState := by
  unfold State.logged
  split <;> rfl

/-- A launch whose handlers do not raise takes the steps of the supervisor; if
the log cannot be opened, the one that leaves the worker. -/
theorem launch_steps {s : State} {profile : PlacementProfile} {gpus : List GpuUuid} (hidle : s.launching = none)
    (hissued : sc.id ∉ s.issued) (hnew : NewId s sc.id) (hbuilt : Built cfg sc s profile gpus)
    (hhandlers : (cfg.captureWorkerEngineLogs = true → sc.raises .openLog = none) → Covered cfg sc) :
    ∃ acts, exec (Supervisor.step cfg) s.toState acts =
      some (final (launch cfg sc profile gpus s)).toState := by
  obtain ⟨port, hplaced⟩ := hbuilt.1
  let x := newWorker profile gpus sc.id port sc.now
  let s1 := s.register x
  have hidle1 : s1.launching = none := hidle
  rw [launch_built hbuilt hplaced]
  -- the first step registers the worker
  have hfirst : ∀ {acts t}, exec (Supervisor.step cfg) (holding s1.toState x .spawning) acts = some t →
      exec (Supervisor.step cfg) s.toState (.launch profile gpus sc.id sc.now :: acts) = some t :=
    fun h => (exec_cons _).mpr ⟨_, step_launch hidle hissued hplaced, h⟩
  by_cases hlog : cfg.captureWorkerEngineLogs = true → sc.raises .openLog = none
  · have hcovered := hhandlers hlog
    have hworker : s1.worker? x.id = some x := by
      have hnone : Table.lookup WorkerPlacement.id x.id s.workers = none :=
        Table.lookup_none.mpr fun y hy he => hnew.workers (List.mem_map.mpr ⟨y, hy, he⟩)
      show Table.lookup WorkerPlacement.id x.id (s.workers ++ [x]) = some x
      rw [Table.lookup_append, hnone, Option.none_or, Table.lookup_cons, if_pos rfl]
    cases hspawn : sc.raises .spawn with
    | some e =>
      have hclean := hcovered.spawn (hspawn ▸ fun h => nomatch h)
      refine ⟨_, hfirst ((exec_singleton _).mpr (step_spawnFails hidle1 |>.trans ?_))⟩
      rw [bringUp_spawn_fails hnew hlog hspawn hclean]
      show some _ = some ((((s1.logged cfg sc x.id).toState).cleanup x.id).pop x.id)
      rw [logged_toState]
    | none =>
      let s2 := (s1.logged cfg sc x.id).started x sc.pid
      have hidle2 : s2.launching = none := by
        show (s1.logged cfg sc x.id).toState.launching = none
        rw [logged_toState]
        exact hidle
      have hsecond : Supervisor.step cfg (holding s1.toState x .spawning) (.launchSpawned sc.pid) =
          some (holding s2.toState x .persisting) := by
        have hstep := step_spawned hworker cfg sc.pid
        rw [← logged_toState cfg sc s1 x.id] at hstep ⊢
        exact hstep
      by_cases hfails : sc.raises .persist ≠ none ∨ sc.raises .recordEvent ≠ none
      · obtain ⟨hstopped, hclean⟩ := hcovered.record hspawn hfails
        obtain ⟨e, hrun⟩ := bringUp_record_fails (x := x) hnew hlog hspawn hfails hstopped hclean
        have hexit : Supervisor.step cfg (holding s2.toState x .persisting) (.engineExit x.id) =
            some (holding (s2.engineExit x.id).toState x .persisting) := rfl
        have hlast : Supervisor.step cfg (holding (s2.engineExit x.id).toState x .persisting) .launchAborted =
            some (((s2.engineExit x.id).toState.cleanup x.id).pop x.id) := step_aborted hidle2
        rw [hrun]
        exact ⟨_, hfirst ((exec_cons _).mpr ⟨_, hsecond, (exec_cons _).mpr
          ⟨_, hexit, (exec_singleton _).mpr hlast⟩⟩)⟩
      · obtain ⟨hpersist, hevent⟩ := not_or.mp hfails
        rw [bringUp_done hlog hspawn (not_not.mp hpersist) (not_not.mp hevent)]
        exact ⟨_, hfirst ((exec_cons _).mpr ⟨_, hsecond, (exec_singleton _).mpr (step_done hidle2)⟩)⟩
  · obtain ⟨hcapture, hfails⟩ := Classical.not_imp.mp hlog
    obtain ⟨e, hraises⟩ := Option.ne_none_iff_exists'.mp hfails
    refine ⟨_, hfirst ((exec_singleton _).mpr (step_logFails hidle1 hcapture |>.trans ?_))⟩
    rw [bringUp_log_fails hcapture hraises]
    rfl

/-! ### When a failed launch leaves no trace -/

section

variable {cfg} {sc} {s : State} {profile : PlacementProfile} {gpus : List GpuUuid}

/-- A launch that raises before its command and environment are built leaves no
trace. -/
theorem unbuilt_noTrace (hnew : NewId s sc.id) (hunbuilt : ¬ Built cfg sc s profile gpus) {e : Raised} {s' : State}
    (hrun : launch cfg sc profile gpus s = .error e s') : NoTrace s s' := by
  rcases launch_cases cfg sc profile gpus s with ⟨port, hguards, hport, hlaunch⟩ | ⟨-, e', hlaunch⟩
  · let x := newWorker profile gpus sc.id port sc.now
    have hnew : NewId s x.id := hnew
    rcases build_cases cfg sc profile (s.register x) with
      ⟨hengine, hcommand, henvironment, -⟩ | ⟨-, e', hbuild⟩
    · have hplaced := launchPort_iff.mpr ⟨hguards, hport, hengine⟩
      exact absurd ⟨⟨port, hplaced⟩, hcommand, henvironment⟩ hunbuilt
    · rw [hlaunch, place_unbuilt hbuild] at hrun
      cases hrun
      exact ⟨(Owned.refl hnew).register.workers, rfl, rfl, rfl, fun _ he => .inl he⟩
  · rw [hlaunch] at hrun
    cases hrun
    exact NoTrace.refl s

end

/-- **When a failed launch leaves no trace.** Whatever a launch meets, if it
raises then the supervisor is as before, no engine has been left running and the
same placements are possible, if and only if, once the command and the
environment are built, the log can be opened and the handlers that run do not
raise themselves. -/
theorem failed_launch_iff (s : State) (profile : PlacementProfile) (gpus : List GpuUuid) (hnew : NewId s sc.id) :
    (∀ e s', launch cfg sc profile gpus s = .error e s' → NoTrace s s' ∧
      ∀ profile gpus, launchPort cfg s'.workers profile gpus = launchPort cfg s.workers profile gpus) ↔
      (Built cfg sc s profile gpus → Covered cfg sc) := by
  constructor
  · intro hclean hbuilt
    by_contra huncovered
    obtain ⟨port, hplaced⟩ := hbuilt.1
    have hnew : NewId s (newWorker profile gpus sc.id port sc.now).id := hnew
    obtain ⟨e, u, hrun, hleft⟩ := bringUp_leaves hnew huncovered
    rw [← launch_built hbuilt hplaced] at hrun
    exact hleft.traced hnew (hclean e u hrun).1
  · intro hcovered e s' hrun
    have hclean : NoTrace s s' := by
      by_cases hbuilt : Built cfg sc s profile gpus
      · obtain ⟨port, hplaced⟩ := hbuilt.1
        have hnew : NewId s (newWorker profile gpus sc.id port sc.now).id := hnew
        rw [launch_built hbuilt hplaced] at hrun
        exact bringUp_noTrace hnew (hcovered hbuilt) hrun
      · exact unbuilt_noTrace hnew hbuilt hrun
    exact ⟨hclean, fun profile gpus => hclean.launchPort profile gpus⟩

/-- The step `p` raises `e`, and every other step ends as it should. -/
def raisingAt (p : Point) (e : Raised) : Script where
  raises q := if q = p then some e else none
  id := "worker"
  pid := 1
  logPath := "worker.log"
  now := 0

theorem newId_empty : NewId {} "worker" :=
  ⟨List.not_mem_nil, List.not_mem_nil, List.not_mem_nil, List.not_mem_nil, List.not_mem_nil⟩

/-- The row of the worker cannot be stored. -/
theorem failed_persist_clean : ∃ e s',
    launch {} (raisingAt .persist (.exception "OperationalError")) (oneGpu "static") ["gpu"] {} = .error e s' ∧
      NoTrace {} s' := by
  have hrun : launch {} (raisingAt .persist (.exception "OperationalError")) (oneGpu "static") ["gpu"] {} =
      .error _ _ := rfl
  refine ⟨_, _, hrun, ((failed_launch_iff {} _ {} _ _ newId_empty).mpr (fun _ => ?_) _ _ hrun).1⟩
  refine ⟨fun _ => rfl, fun h => absurd rfl h, fun _ _ => ⟨⟨fun h => ?_, rfl⟩, fun _ => ⟨rfl, .inl rfl⟩⟩⟩
  cases h

/-- The log of the worker cannot be opened: `launch` raises, and the worker stays
LOADING on its GPU. -/
theorem phantom_worker :
    ¬ ∀ (cfg : Settings) (sc : Script) (s : State) (profile : PlacementProfile) (gpus : List GpuUuid),
      NewId s sc.id → ∀ e s', launch cfg sc profile gpus s = .error e s' → NoTrace s s' := by
  intro h
  let sc := raisingAt .openLog (.exception "PermissionError")
  have hclean := h {} sc {} (oneGpu "static") ["gpu"] newId_empty _ _ rfl
  exact absurd hclean.workers (List.cons_ne_nil _ _)

end Launch
end LlmRio
