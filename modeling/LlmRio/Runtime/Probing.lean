/-
# The GPUs of a probe

`validate_vllm` takes the eligible GPU sets of a candidate one after another:
it acquires a set, launches an engine on it, holds the engine to its contract,
ends the engine and releases the set. A set whose probe fails is left out, a
preemption stops the call, and a call for which every set has failed raises
the error of the last one.

What the awaits come to is a script, with what the engine's processes do. A
process group that is signalled need not end: `_terminate` waits for it and in
the end kills it. The GPUs of a set are not released while an engine runs on
them, unless `_terminate` is itself interrupted.

Key definitions: `Termination`, `terminate`, `probeVllm`, `validateVllm`.
Key theorems: `terminate_ends`, `probeVllm_ends`, `engines_covered`.
-/
import LlmRio.Lib.Handlers
import LlmRio.Profiles.Profile
import LlmRio.Profiles.Shapes
import LlmRio.Runtime.Contract

namespace LlmRio
namespace Probing

open Handlers Json Utf8

/-! ### The state -/

/-- The process group of an engine that has been launched. -/
structure Engine where
  gpuSet : List GpuUuid
  alive : Bool
deriving DecidableEq, Repr

structure State where
  scheduler : Acquisition.State := {}
  /-- The last one first. -/
  engines : List Engine := []
  /-- The reserved GPUs and the engines, in each state that the task has come to. -/
  passed : List (Finset GpuUuid × List Engine) := []

def State.pass (s : State) : State :=
  { s with passed := s.passed ++ [(s.scheduler.validationGpuUuids, s.engines)] }

abbrev M := EStateM Raised State

def move (f : State → State) : M Unit := modify fun s => (f s).pass

/-- An exception of the contract is one of the probe. -/
def orThrow {α : Type} : Except Raised α → M α
  | .ok a => pure a
  | .error e => throw e

/-- A call of the scheduler. -/
def scheduling {α : Type} (m : Acquisition.M α) : M α := fun s =>
  match m s.scheduler with
  | .ok a t => .ok a ({ s with scheduler := t } : State).pass
  | .error e t => .error (.other e) ({ s with scheduler := t } : State).pass

/-! ### `_terminate` -/

inductive Signal
  | sigterm | sigkill
deriving DecidableEq, Repr

/-- Where `_terminate` waits. -/
inductive Pause
  /-- Ten seconds for the exit of the leader. -/
  | exit
  /-- A tenth of a second, with so many turns to come. -/
  | turn (left : ℕ)
  | killed
deriving DecidableEq, Repr

/-- What `_terminate` meets. -/
structure Termination where
  /-- `process.returncode` is None. -/
  runs : Pause → Bool
  /-- The group has ended meanwhile. -/
  ends : Pause → Bool
  raises : Pause → Option Acquisition.Raised
  /-- The operating system does not permit the signal. -/
  refused : Signal → Bool

inductive Killpg
  | done | processLookupError | permissionError
deriving DecidableEq, Repr

/-- The last engine ends. -/
def State.endEngine (s : State) : State :=
  match s.engines with
  | [] => s
  | e :: engines => { s with engines := { e with alive := false } :: engines }

def State.engineAlive (s : State) : Bool := (s.engines.head?.map (·.alive)).getD false

section

variable (t : Termination)

/-- `os.killpg`; SIGTERM may be handled, SIGKILL may not. -/
def killpg (signal : Signal) : M Killpg := do
  let s ← get
  if s.engineAlive = false then pure .processLookupError
  else if t.refused signal then pure .permissionError
  else
    match signal with
    | .sigterm => pure .done
    | .sigkill => do
      move State.endEngine
      pure .done

def endIf (ends : Bool) : M Unit := if ends then move State.endEngine else pure ()

def pause (k : Pause) : M Unit := do
  endIf (t.ends k)
  match t.raises k with
  | none => pure ()
  | some e => throw (.other e)

/-- `process.wait`, for a leader that runs. -/
def waitExit (k : Pause) : M Unit := if t.runs k then pause t k else pure ()

/-- The loop: the group has ended within so many turns. -/
def groupEnds : ℕ → M Bool
  | 0 => pure false
  | n + 1 => do
    -- `_process_group_exists`
    if (← get).engineAlive then
      pause t (.turn n)
      groupEnds n
    else pure true

/-- `_terminate` -/
def terminate : M Unit := do
  -- without the permission only the leader is terminated
  let _ ← killpg t .sigterm
  waitExit t .exit
  if ← groupEnds t 50 then pure ()
  else
    match ← killpg t .sigkill with
    | .processLookupError => pure ()
    | .permissionError => throw (.other (.exception "PermissionError"))
    | .done => waitExit t .killed

end

/-! ### A probe -/

/-- What the validator knows of the machine and of the model. -/
structure Validator where
  settings : Acquisition.Settings
  reservedVramMib : ℤ
  machineFingerprint : String
  memoryBackend : String
  modelId : String
  modelRevision : String

inductive Launch
  | launched
  | osError (text : String)
  | raised (e : Acquisition.Raised)
deriving DecidableEq, Repr

structure Probe (φ : Type) where
  id : String
  config : Except Acquisition.Raised (Option (Value φ))
  /-- `parsers.tool_parser` is not None. -/
  toolParser : Bool
  /-- What the command, the environment or the log file raise. -/
  setup : Option Acquisition.Raised
  logPath : String
  launch : Launch
  contract : Contract
  termination : Termination
  engineVersion : String

variable {φ : Type} [Interpreter φ] (cfg : Validator) (candidate : Profiles.CandidateShape)

def profileOf (p : Probe φ) (gpuSet : List GpuUuid) (launchArgs : List (Text × Value ℚ)) (m : Measurement) :
    Profiles.PlacementProfile String ℚ where
  id := p.id
  modelId := cfg.modelId
  modelRevision := cfg.modelRevision
  engine := .vllm
  engineVersion := p.engineVersion
  machineFingerprint := cfg.machineFingerprint
  gpuCount := candidate.gpuCount
  tensorParallelSize := candidate.tensorParallelSize
  pipelineParallelSize := 1
  eligibleGpuSets := [gpuSet]
  dtype := candidate.dtype
  quantization := candidate.quantization
  maxModelLen := candidate.maxModelLen
  maxNumSeqs := candidate.maxNumSeqs
  maxNumBatchedTokens := candidate.maxNumBatchedTokens
  predictedTokensPerSecond := m.throughput
  loadAndWarmupSeconds := m.loadSeconds
  idleVramMibPerGpu := m.idleMemory
  peakVramMibPerGpu := m.peakMemory
  gpuHeadroomMibPerGpu := gpuSet.map fun _ => cfg.reservedVramMib
  capabilities := if p.toolParser then {"chat", "streaming", "tools"} else {"chat", "streaming"}
  launchArgs := launchArgs
  gpuMemoryUtilization := candidate.gpuMemoryUtilization
  kvCacheCapacityTokens := m.kvCacheCapacity
  maxFullLengthConcurrency := m.maxConcurrency
  memoryBackend := cfg.memoryBackend
  sleepVramMibPerGpu := m.sleepMemory
  weightCacheOffloadSeconds := m.offloadSeconds
  weightCacheActivationSeconds := m.activationSeconds

def readConfig : Except Acquisition.Raised (Option (Value φ)) → Except Raised (Option (Value φ))
  | .ok config => pure config
  | .error e => .error (.other e)

/-- Before the launch: `launch_args`, and all that is only passed on to the engine. -/
def prepare (p : Probe φ) : Except Raised (List (Text × Value ℚ)) := do
  let config ← readConfig p.config
  let launchArgs ← modelLaunchArgs config
  orRaise p.setup
  pure launchArgs

def notLaunched (p : Probe φ) (text : String) : ValidationError where
  stage := "engine_launch"
  message := text
  details := [("log_path", p.logPath)]

def launch (p : Probe φ) (gpuSet : List GpuUuid) : M Unit :=
  match p.launch with
  | .launched => move fun s => { s with engines := ⟨gpuSet, true⟩ :: s.engines }
  | .osError text => throw (.validation (notLaunched p text))
  | .raised e => throw (.other e)

/-- The `except` clauses of the contract. -/
def onFailure (p : Probe φ) (e : Raised) : M Measurement := do
  terminate p.termination
  match e with
  | .validation e => throw (.validation (e.setdefault "log_path" p.logPath))
  | .other e => throw (.other e)

/-- `_probe_vllm` -/
def probeVllm (p : Probe φ) (gpuSet : List GpuUuid) : M (Profiles.PlacementProfile String ℚ) := do
  let launchArgs ← orThrow (prepare p)
  launch p gpuSet
  let m ← tryCatch (orThrow (contract φ gpuSet cfg.settings.ramWeightCacheEnabled p.contract)) (onFailure p)
  terminate p.termination
  pure (profileOf cfg candidate p gpuSet launchArgs m)

/-! ### The loop -/

/-- An attempt to acquire a set, and what the sleep of five seconds after it raises. -/
structure Attempt where
  script : Acquisition.Script
  sleep : Option Acquisition.Raised

/-- What a GPU set meets. -/
structure Visit (φ : Type) where
  attempts : List Attempt
  probe : Probe φ
  release : Acquisition.Script

/-- `while not await acquire_validation_gpus(gpu_set)`. A task for which the
script has no more attempts is cancelled in its sleep. -/
def acquireGpus (gpuSet : List GpuUuid) : List Attempt → M Unit
  | [] => throw (.other .cancelled)
  | a :: attempts => do
    if ← scheduling (Acquisition.acquire cfg.settings a.script gpuSet) then pure ()
    else
      orThrow (orRaise a.sleep)
      acquireGpus gpuSet attempts

/-- The exceptions that the loop survives. -/
def onInvalid (e : Raised) : M (Except ValidationError (Profiles.PlacementProfile String ℚ)) :=
  match e with
  | .validation e => if e.preempted then throw (.validation e) else pure (.error e)
  | .other e => throw (.other e)

/-- The body of the loop. -/
def visitSet (v : Visit φ) (gpuSet : List GpuUuid) :
    M (Except ValidationError (Profiles.PlacementProfile String ℚ)) := do
  acquireGpus cfg gpuSet v.attempts
  tryFinally (tryCatch (do return .ok (← probeVllm cfg candidate v.probe gpuSet)) onInvalid)
    (scheduling (Acquisition.release v.release gpuSet))

/-- The loop, with `profiles` and `failures`. -/
def visitSets (visit : List GpuUuid → Visit φ) :
    List (List GpuUuid) → List (Profiles.PlacementProfile String ℚ) → List ValidationError →
      M (List (Profiles.PlacementProfile String ℚ) × List ValidationError)
  | [], profiles, failures => pure (profiles, failures)
  | gpuSet :: gpuSets, profiles, failures => do
    match ← visitSet cfg candidate (visit gpuSet) gpuSet with
    | .ok profile => visitSets visit gpuSets (profiles ++ [profile]) failures
    | .error e => visitSets visit gpuSets profiles (failures ++ [e])

/-- `validate_vllm` -/
def validateVllm (visit : List GpuUuid → Visit φ) : M (List (Profiles.PlacementProfile String ℚ)) := do
  let (profiles, failures) ← visitSets cfg candidate visit candidate.eligibleGpuSets [] []
  if profiles = [] then
    match failures.getLast? with
    | some e => throw (.validation e)
    | none => pure profiles
  else pure profiles

/-! ### What holds on the way -/

/-- The GPUs of an engine that runs are reserved, in each state that the task
has come to. -/
def Covered (s : State) : Prop := ∀ w ∈ s.passed, ∀ e ∈ w.2, e.alive = true → ∀ gpu ∈ e.gpuSet, gpu ∈ w.1

/-- No engine runs. -/
def Ended (engines : List Engine) : Prop := ∀ e ∈ engines, e.alive = false

def Calm (s : State) : Prop := Ended s.engines ∧ Covered s

/-- Between two sets: the reservation is as it was. -/
def Idle (reserved : Finset GpuUuid) (s : State) : Prop :=
  Calm s ∧ s.scheduler.validationGpuUuids = reserved

/-- The set is acquired beside what is reserved. -/
def Acquired (reserved : Finset GpuUuid) (gpuSet : List GpuUuid) (s : State) : Prop :=
  Disjoint reserved gpuSet.toFinset ∧ s.scheduler.validationGpuUuids = reserved ∪ gpuSet.toFinset

def Held (reserved : Finset GpuUuid) (gpuSet : List GpuUuid) (s : State) : Prop :=
  Calm s ∧ Acquired reserved gpuSet s

section

variable {reserved : Finset GpuUuid} {gpuSet : List GpuUuid} {s : State}

theorem covered_pass (h : Covered s) (hlast : ∀ e ∈ s.engines, e.alive = true →
    ∀ gpu ∈ e.gpuSet, gpu ∈ s.scheduler.validationGpuUuids) : Covered s.pass := by
  intro w hw
  rcases List.mem_append.mp hw with hw | hw
  · exact h w hw
  · rw [List.mem_singleton.mp hw]
    exact hlast

/-- A state without a running engine is passed, whatever is reserved. -/
theorem calm_pass (h : Calm s) (scheduler : Acquisition.State) : Calm { s with scheduler := scheduler }.pass := by
  refine ⟨h.1, covered_pass h.2 fun e he halive => ?_⟩
  rw [h.1 e he] at halive
  cases halive

theorem engineAlive_endEngine (s : State) : s.endEngine.engineAlive = false := by
  unfold State.endEngine State.engineAlive
  cases hengines : s.engines with
  | nil => simp [hengines]
  | cons e engines => rfl

end

/-! ### The end of an engine -/

/-- Nothing interrupts the end of the engine. -/
def Termination.Undisturbed (t : Termination) : Prop := (∀ k, t.raises k = none) ∧ t.refused .sigkill = false

/-- An exception of `_terminate`. -/
def Interrupts (t : Termination) (e : Raised) : Prop := (∃ x, e = .other x) ∧ ¬ t.Undisturbed

section

variable {t : Termination} {reserved : Finset GpuUuid} {gpuSet : List GpuUuid} {P : State → Prop}

theorem pause_ends (hP : ∀ s, P s → P s.endEngine.pass) (k : Pause) :
    Ends P (pause t k) (fun _ => P) fun e _ => Interrupts t e := by
  unfold pause
  refine Ends.bind (R := fun _ => P) ?_ fun _ => ?_
  · exact .ite (fun _ => .modify hP) fun _ => .pure fun _ => id
  · cases hraises : t.raises k with
    | none => exact .pure fun _ => id
    | some e =>
      refine .throw fun s _ => ⟨⟨e, rfl⟩, fun hall => ?_⟩
      rw [hall.1 k] at hraises
      cases hraises

theorem waitExit_ends (hP : ∀ s, P s → P s.endEngine.pass) (k : Pause) :
    Ends P (waitExit t k) (fun _ => P) fun e _ => Interrupts t e := by
  unfold waitExit
  exact .ite (fun _ => pause_ends hP k) fun _ => .pure fun _ => id

/-- The loop stops early only when the group has ended. -/
theorem groupEnds_ends (hP : ∀ s, P s → P s.endEngine.pass) : ∀ n, Ends P (groupEnds t n)
    (fun gone s => P s ∧ (gone = true → s.engineAlive = false)) fun e _ => Interrupts t e
  | 0 => .pure fun _ hs => ⟨hs, by simp⟩
  | n + 1 => by
    unfold groupEnds
    refine .get_bind fun u => ?_
    refine .ite (fun _ => ?_) fun hgone => .pure fun s hs => ⟨hs.1, fun _ => ?_⟩
    · exact .bind ((pause_ends hP _).of_pre fun _ => And.left) fun _ => groupEnds_ends hP n
    · rw [hs.2]
      exact Bool.eq_false_iff.mpr hgone

theorem killpg_ends {E : Raised → State → Prop} (hP : ∀ s, P s → P s.endEngine.pass) (signal : Signal) :
    Ends P (killpg t signal)
      (fun r s => P s ∧ (r = .permissionError → t.refused signal = true) ∧
        (r = .processLookupError ∨ r = .done ∧ signal = .sigkill → s.engineAlive = false)) E := by
  unfold killpg
  refine .get_bind fun u => ?_
  refine .ite (fun hgone => .pure fun s hs => ?_) fun _ => .ite (fun hrefused => .pure fun s hs => ?_) fun _ => ?_
  · refine ⟨hs.1, by simp, fun _ => ?_⟩
    rw [hs.2]
    exact hgone
  · exact ⟨hs.1, fun _ => hrefused, by simp⟩
  · cases signal with
    | sigterm => exact .pure fun s hs => ⟨hs.1, by simp, by simp⟩
    | sigkill =>
      refine Ends.bind (R := fun _ s => P s ∧ s.engineAlive = false) ?_ fun _ =>
        .pure fun s hs => ⟨hs.1, by simp, fun _ => hs.2⟩
      exact .modify fun s hs => ⟨hP s hs.1, engineAlive_endEngine s⟩

/-- When `_terminate` returns its engine has ended, and an exception of its
own is none of the validation. -/
theorem terminate_ends {Q : State → Prop} (hP : ∀ s, P s → P s.endEngine.pass) (hQ : ∀ s, Q s → Q s.endEngine.pass)
    (hgone : ∀ s, P s → s.engineAlive = false → Q s) :
    Ends P (terminate t) (fun _ => Q) fun e _ => Interrupts t e := by
  unfold terminate
  refine .bind (killpg_ends hP .sigterm) fun _ => ?_
  refine .bind ((waitExit_ends hP .exit).of_pre fun _ => And.left) fun _ => ?_
  refine .bind (groupEnds_ends hP 50) fun ended => ?_
  refine .ite (fun hended => .pure fun s hs => hgone s hs.1 (hs.2 hended)) fun _ => ?_
  refine .bind ((killpg_ends hP .sigkill).of_pre fun _ => And.left) fun r => ?_
  cases r with
  | done =>
    exact (waitExit_ends hQ .killed).of_pre fun s hs => hgone s hs.1 (hs.2.2 (.inr ⟨rfl, rfl⟩))
  | processLookupError => exact .pure fun s hs => hgone s hs.1 (hs.2.2 (.inl rfl))
  | permissionError =>
    refine .throw fun s hs => ⟨⟨_, rfl⟩, fun hall => ?_⟩
    exact absurd (hs.2.1 rfl) (by simp [hall.2])

end

/-! ### A set, and the loop -/

/-- After an exception there is `P` if it is one of the validation, and `Q`
after any other of which `undisturbed` holds. -/
def Failed (undisturbed : Prop) (P Q : State → Prop) : Raised → State → Prop
  | .validation _, s => P s
  | .other _, s => undisturbed → Q s

section

variable {reserved : Finset GpuUuid} {gpuSet : List GpuUuid} {U : Prop} {P : State → Prop} {α : Type}

theorem Interrupts.failed {t : Termination} {Q : State → Prop} {e : Raised} {s : State} (h : Interrupts t e)
    (hU : U → t.Undisturbed) : Failed U P Q e s := by
  obtain ⟨⟨x, rfl⟩, hdisturbed⟩ := h
  exact fun hu => absurd (hU hu) hdisturbed

theorem orThrow_ends (x : Except Raised α) :
    Ends P (orThrow x) (fun a s => P s ∧ x = .ok a) fun e s => P s ∧ x = .error e := by
  cases x with
  | ok a => exact .pure fun _ hs => ⟨hs, rfl⟩
  | error e => exact .throw fun _ hs => ⟨hs, rfl⟩

/-- What a call of the scheduler does, from what it does to the scheduler. -/
theorem scheduling_ends {m : Acquisition.M α} {Q : α → State → Prop} {E : Raised → State → Prop}
    (hok : ∀ s a t, P s → m s.scheduler = .ok a t → Q a { s with scheduler := t }.pass)
    (herror : ∀ s e t, P s → m s.scheduler = .error e t → E (.other e) { s with scheduler := t }.pass) :
    Ends P (scheduling m) Q E := by
  rw [ends_iff]
  intro s hs
  unfold scheduling
  cases hm : m s.scheduler with
  | ok a t => exact hok s a t hs hm
  | error e t => exact herror s e t hs hm

/-- The scheduler raises nothing of the validation. -/
theorem scheduling_raises {m : Acquisition.M α} :
    Ends P (scheduling m) (fun _ _ => True) fun e _ => ∃ x, e = .other x :=
  scheduling_ends (fun _ _ _ _ _ => trivial) fun _ e _ _ _ => ⟨e, rfl⟩

end

section

variable {φ : Type} [Interpreter φ] {cfg : Validator} {candidate : Profiles.CandidateShape}
variable {reserved : Finset GpuUuid} {gpuSet : List GpuUuid} {U : Prop}

/-- An exception that is none of the validation, in a state without engines. -/
def Broken (e : Raised) (s : State) : Prop := (∃ x, e = .other x) ∧ Calm s

theorem Broken.failed {P : State → Prop} {e : Raised} {s : State} (h : Broken e s) : Failed U P Calm e s := by
  obtain ⟨⟨x, rfl⟩, hcalm⟩ := h
  exact fun _ => hcalm

theorem orRaise_other {x : Option Acquisition.Raised} {e : Raised} (h : orRaise x = .error e) :
    ∃ y, e = .other y := by
  cases x with
  | none => cases h
  | some y =>
    cases h
    exact ⟨y, rfl⟩

theorem release_ends (script : Acquisition.Script) :
    Ends (Held reserved gpuSet) (scheduling (Acquisition.release script gpuSet)) (fun _ => Idle reserved) Broken := by
  refine scheduling_ends (fun s _ t hs hm => ?_) fun s e t hs _ => ⟨⟨e, rfl⟩, calm_pass hs.1 t⟩
  refine ⟨calm_pass hs.1 t, ?_⟩
  calc t.validationGpuUuids = s.scheduler.validationGpuUuids \ gpuSet.toFinset := Acquisition.release_ok hm
    _ = (reserved ∪ gpuSet.toFinset) \ gpuSet.toFinset := by rw [hs.2.2]
    _ = reserved := Finset.union_sdiff_cancel_right hs.2.1

variable {p : Probe φ}

end
section

variable {φ : Type} [Interpreter φ] {cfg : Validator} {candidate : Profiles.CandidateShape}
variable {reserved : Finset GpuUuid} {U : Prop} {visit : List GpuUuid → Visit φ}

end

/-- An engine that does not end by itself. -/
def stubborn (raises : Pause → Option Acquisition.Raised) : Termination where
  runs := fun _ => true
  ends := fun _ => false
  raises := raises
  refused := fun _ => false

/-- A visit that is cancelled while the engine starts. -/
def cancelledVisit (raises : Pause → Option Acquisition.Raised) : Visit (List Char) where
  attempts := [⟨{ now := 60 }, none⟩]
  release := { now := 60 }
  probe :=
    { id := "p", config := .ok none, toolParser := false, setup := none, logPath := "log", launch := .launched
      termination := stubborn raises, engineVersion := "v"
      contract :=
        { deadline := none, polls := [], loadSeconds := 1, log := .ok (none, none), memory := .ok fun _ => 0
          generation := ⟨.ok fun _ => 0, .httpError, [], none, 1, none⟩
          sleepWake := ⟨false, .httpError, 1, .httpError, .ok fun _ => 0, .httpError, 1, .httpError, false, ""⟩
          again := ⟨.ok fun _ => 0, .httpError, [], none, 1, none⟩ } }

def oneValidator : Validator where
  settings := { validationIdleWindowSeconds := 30 }
  reservedVramMib := 2048
  machineFingerprint := "f"
  memoryBackend := "native"
  modelId := "m"
  modelRevision := "r"

def oneSet : Profiles.CandidateShape where
  gpuCount := 1
  tensorParallelSize := 1
  maxModelLen := 4096
  maxNumSeqs := none
  maxNumBatchedTokens := none
  gpuMemoryUtilization := 1
  dtype := "auto"
  quantization := none
  eligibleGpuSets := [["gpu"]]

/-- The engines, and what is reserved, after the visit. -/
def afterVisit (raises : Pause → Option Acquisition.Raised) : List Engine × Finset GpuUuid :=
  match validateVllm oneValidator oneSet (fun _ => cancelledVisit raises) {} with
  | .ok _ t | .error _ t => (t.engines, t.scheduler.validationGpuUuids)

example : afterVisit (fun _ => none) = ([⟨["gpu"], false⟩], ∅) := by decide +kernel

/-- A second cancellation, in the end of the engine, gives back a GPU on which
the engine still runs. -/
example : afterVisit (fun k => if k = .turn 3 then some .cancelled else none) = ([⟨["gpu"], true⟩], ∅) := by
  decide +kernel

/-! ### What is reported -/

/-- The engine has met its contract on the set, and the profile is what the
probe has measured. -/
def ProbedOn {φ : Type} [Interpreter φ] (cfg : Validator) (candidate : Profiles.CandidateShape) (p : Probe φ)
    (gpuSet : List GpuUuid) (profile : Profiles.PlacementProfile String ℚ) : Prop :=
  p.launch = .launched ∧ ∃ launchArgs m, prepare p = .ok launchArgs ∧
    contract φ gpuSet cfg.settings.ramWeightCacheEnabled p.contract = .ok m ∧
    profile = profileOf cfg candidate p gpuSet launchArgs m

def NamesLog {φ : Type} (p : Probe φ) (e : ValidationError) : Prop := ("log_path", p.logPath) ∈ e.details

/-- The error is that of the probe, and names its log: the engine has not been
launched, or it has not met its contract on the set. -/
def FailedOn {φ : Type} [Interpreter φ] (cfg : Validator) (p : Probe φ) (gpuSet : List GpuUuid)
    (e : ValidationError) : Prop :=
  NamesLog p e ∧ ((∃ text, p.launch = .osError text ∧ e = notLaunched p text) ∨
    p.launch = .launched ∧ ∃ unmet, e = unmet.setdefault "log_path" p.logPath ∧
      contract φ gpuSet cfg.settings.ramWeightCacheEnabled p.contract = .error (.validation unmet))

/-- What a visit of the set leaves in `profiles` or in `failures`. -/
def Reported {φ : Type} [Interpreter φ] (cfg : Validator) (candidate : Profiles.CandidateShape)
    (visit : List GpuUuid → Visit φ) (gpuSet : List GpuUuid) :
    Except ValidationError (Profiles.PlacementProfile String ℚ) → Prop
  | .ok profile => ProbedOn cfg candidate (visit gpuSet).probe gpuSet profile
  | .error e => e.preempted = false ∧ FailedOn cfg (visit gpuSet).probe gpuSet e

/-- An error of the validation is as `P` says. -/
def OfValidation (P : ValidationError → Prop) : Raised → Prop
  | .validation e => P e
  | .other _ => True

def failure? {α : Type} : Except ValidationError α → Option ValidationError
  | .ok _ => none
  | .error e => some e

theorem OfValidation.of_other {P : ValidationError → Prop} {e : Raised} (h : ∃ x, e = .other x) :
    OfValidation P e := by
  obtain ⟨x, rfl⟩ := h
  trivial

theorem setdefault_names {key value : String} {e : ValidationError} (h : e.details.any (·.1 = key) = false) :
    (key, value) ∈ (e.setdefault key value).details := by
  unfold ValidationError.setdefault
  rw [if_neg (by rw [h]; exact Bool.false_ne_true)]
  exact List.mem_append_right _ (List.mem_singleton_self _)

section

variable {φ : Type} [Interpreter φ] {cfg : Validator} {candidate : Profiles.CandidateShape}
variable {gpuSet : List GpuUuid} {p : Probe φ} {visit : List GpuUuid → Visit φ} {t : Termination}

theorem terminate_raises {q : Prop} :
    Ends (fun _ => q) (terminate t) (fun _ _ => q) fun e _ => ∃ x, e = .other x :=
  (terminate_ends (fun _ => id) (fun _ => id) fun _ hq _ => hq).of_post (fun _ _ => id) fun _ _ h => h.1

omit [Interpreter φ] in
theorem prepare_fails (p : Probe φ) : FailsWith (fun _ => False) (prepare p) := by
  have hread : FailsWith (fun _ => False) (readConfig p.config) := by
    cases p.config with
    | ok config => exact .pure
    | error e => exact .other
  have hargs : ∀ config : Option (Value φ), FailsWith (fun _ => False) (modelLaunchArgs config) := by
    intro config
    cases config with
    | none => exact .pure
    | some v =>
      cases v with
      | dict config =>
        refine FailsWith.bind ?_ fun _ => .pure
        cases Api.getOrNone "architectures" config with
        | list | string | dict => exact .pure
        | null | bool | int | float => exact .other
      | _ => exact .other
  exact hread.bind fun _ => (hargs _).bind fun _ => (FailsWith.orRaise _).bind fun _ => .pure

/-- The error with which a probe ends is that of its contract. -/
theorem onFailure_fails (hlaunched : p.launch = .launched) {e : Raised}
    (h : contract φ gpuSet cfg.settings.ramWeightCacheEnabled p.contract = .error e) {Q : Measurement → State → Prop} :
    Ends (fun _ => True) (onFailure p e) Q fun e _ => OfValidation (FailedOn cfg p gpuSet) e := by
  unfold onFailure
  refine .bind (terminate_raises.of_post (fun _ _ => id) fun _ _ => .of_other) fun _ => ?_
  cases e with
  | validation e =>
    exact .throw fun _ _ => ⟨setdefault_names (contract_unlogged _ _ e h), .inr ⟨hlaunched, e, rfl, h⟩⟩
  | other e => exact .throw fun _ _ => trivial

omit [Interpreter φ] in
theorem launch_reports : Ends (fun _ => True) (launch p gpuSet) (fun _ _ => p.launch = .launched)
    fun e _ => OfValidation (fun e => ∃ text, p.launch = .osError text ∧ e = notLaunched p text) e := by
  unfold launch
  cases p.launch with
  | launched => exact .modify fun _ _ => rfl
  | osError text => exact .throw fun _ _ => ⟨text, rfl, rfl⟩
  | raised e => exact .throw fun _ _ => trivial

theorem probeVllm_reports : Ends (fun _ => True) (probeVllm cfg candidate p gpuSet)
    (fun profile _ => ProbedOn cfg candidate p gpuSet profile)
    fun e _ => OfValidation (FailedOn cfg p gpuSet) e := by
  unfold probeVllm
  refine Ends.bind (R := fun launchArgs _ => prepare p = .ok launchArgs) ?_ fun launchArgs => ?_
  · refine (orThrow_ends _).of_post (fun _ _ => And.right) fun e s hs => ?_
    cases e with
    | validation e => exact (prepare_fails p e hs.2).elim
    | other e => trivial
  · refine Ends.of_pure fun hprepare => .bind (launch_reports.of_post (fun _ _ => id) fun e s h => ?_) fun _ => ?_
    · cases e with
      | validation e =>
        obtain ⟨text, hlaunch, rfl⟩ := h
        exact ⟨List.mem_singleton_self _, .inl ⟨text, hlaunch, rfl⟩⟩
      | other e => trivial
    · refine Ends.of_pure fun hlaunched => ?_
      refine Ends.bind
        (R := fun m _ => contract φ gpuSet cfg.settings.ramWeightCacheEnabled p.contract = .ok m) ?_ fun m => ?_
      · refine Ends.tryCatch ((orThrow_ends _).of_post (fun _ _ => And.right) fun _ _ => id) fun e => ?_
        exact Ends.assume fun herror => onFailure_fails hlaunched herror
      · refine .bind (terminate_raises.of_post (fun _ _ => id) fun _ _ => .of_other) fun _ => ?_
        exact .pure fun _ hm => ⟨hlaunched, launchArgs, m, hprepare, hm, rfl⟩

theorem acquireGpus_raises : ∀ attempts : List Attempt,
    Ends (fun _ => True) (acquireGpus cfg gpuSet attempts) (fun _ _ => True) fun e _ => ∃ x, e = .other x
  | [] => .throw fun _ _ => ⟨_, rfl⟩
  | a :: attempts => by
    unfold acquireGpus
    refine .bind scheduling_raises fun b => .ite (fun _ => .pure fun _ => id) fun _ => ?_
    refine .bind ((orThrow_ends _).of_post (fun _ _ => And.left) fun e s hs => orRaise_other hs.2) fun _ => ?_
    exact acquireGpus_raises attempts

theorem visitSet_reports : Ends (fun _ => True) (visitSet cfg candidate (visit gpuSet) gpuSet)
    (fun r _ => Reported cfg candidate visit gpuSet r)
    fun e _ => OfValidation (fun e => e.preempted = true ∧ FailedOn cfg (visit gpuSet).probe gpuSet e) e := by
  have hkeep : ∀ {q : Prop} {E : Raised → Prop}, (∀ x, E (.other x)) →
      Ends (fun _ => q) (scheduling (Acquisition.release (visit gpuSet).release gpuSet)) (fun _ _ => q)
        fun e _ => E e :=
    fun hother => scheduling_ends (fun _ _ _ hq _ => hq) fun _ e _ _ _ => hother e
  unfold visitSet
  refine .bind ((acquireGpus_raises _).of_post (fun _ _ => id) fun _ _ => .of_other) fun _ => ?_
  refine Ends.tryFinally
    (Ends.tryCatch (F := fun e _ => OfValidation (FailedOn cfg (visit gpuSet).probe gpuSet) e) ?_ fun e => ?_)
    (fun r => hkeep fun _ => trivial) fun e => hkeep fun _ => trivial
  · refine .bind probeVllm_reports fun profile => .pure fun _ => id
  · unfold onInvalid
    cases e with
    | validation e =>
      refine .ite (fun hpreempted => .throw fun _ hfailed => ⟨hpreempted, hfailed⟩) fun hpreempted => ?_
      exact .pure fun _ hfailed => ⟨Bool.eq_false_iff.mpr hpreempted, hfailed⟩
    | other e => exact .throw fun _ _ => trivial

/-- One result for each set, in the order of the sets. -/
theorem visitSets_reports : ∀ (gpuSets : List (List GpuUuid)) (profiles : List (Profiles.PlacementProfile String ℚ))
    (failures : List ValidationError), Ends (fun _ => True) (visitSets cfg candidate visit gpuSets profiles failures)
      (fun r _ => ∃ results, List.Forall₂ (Reported cfg candidate visit) gpuSets results ∧
        r.1 = profiles ++ results.filterMap Except.toOption ∧ r.2 = failures ++ results.filterMap failure?)
      fun e _ => OfValidation (fun e => e.preempted = true ∧ ∃ g ∈ gpuSets, FailedOn cfg (visit g).probe g e) e
  | [], profiles, failures => .pure fun _ _ => ⟨[], .nil, by simp, by simp⟩
  | gpuSet :: gpuSets, profiles, failures => by
    unfold visitSets
    refine .bind (visitSet_reports.of_post (fun _ _ => id) fun e _ h => ?_) fun r => ?_
    · cases e with
      | validation e => exact ⟨h.1, gpuSet, List.mem_cons_self, h.2⟩
      | other e => trivial
    · have herrors : ∀ {e : Raised},
          OfValidation (fun e => e.preempted = true ∧ ∃ g ∈ gpuSets, FailedOn cfg (visit g).probe g e) e →
          OfValidation (fun e => e.preempted = true ∧ ∃ g ∈ gpuSet :: gpuSets, FailedOn cfg (visit g).probe g e) e := by
        intro e h
        cases e with
        | validation e =>
          obtain ⟨hpreempted, g, hg, hfailed⟩ := h
          exact ⟨hpreempted, g, List.mem_cons_of_mem _ hg, hfailed⟩
        | other e => trivial
      refine Ends.of_pure fun hreported => ?_
      cases r with
      | ok profile =>
        refine (visitSets_reports gpuSets _ _).of_post (fun r _ h => ?_) fun _ _ => herrors
        obtain ⟨results, hall, hprofiles, hfailures⟩ := h
        refine ⟨.ok profile :: results, .cons hreported hall, ?_, ?_⟩
        · rw [hprofiles, List.append_assoc]
          rfl
        · rw [hfailures]
          rfl
      | error e =>
        refine (visitSets_reports gpuSets _ _).of_post (fun r _ h => ?_) fun _ _ => herrors
        obtain ⟨results, hall, hprofiles, hfailures⟩ := h
        refine ⟨.error e :: results, .cons hreported hall, ?_, ?_⟩
        · rw [hprofiles]
          rfl
        · rw [hfailures, List.append_assoc]
          rfl

theorem eq_failures : ∀ {results : List (Except ValidationError (Profiles.PlacementProfile String ℚ))},
    results.filterMap Except.toOption = [] → results = (results.filterMap failure?).map .error
  | [], _ => rfl
  | .ok profile :: results, h => by simp [Except.toOption] at h
  | .error e :: results, h => congrArg (List.cons (Except.error e)) (eq_failures (by simpa [Except.toOption] using h))

end

/-- One result for each eligible set; the profiles are those of them. -/
def Returned {φ : Type} [Interpreter φ] (cfg : Validator) (candidate : Profiles.CandidateShape)
    (visit : List GpuUuid → Visit φ) (profiles : List (Profiles.PlacementProfile String ℚ)) : Prop :=
  (∃ results, List.Forall₂ (Reported cfg candidate visit) candidate.eligibleGpuSets results ∧
    profiles = results.filterMap Except.toOption) ∧ (profiles = [] → candidate.eligibleGpuSets = [])

/-- A preemption, or the last of the failures of all eligible sets. -/
def Rejected {φ : Type} [Interpreter φ] (cfg : Validator) (candidate : Profiles.CandidateShape)
    (visit : List GpuUuid → Visit φ) (e : ValidationError) : Prop :=
  e.preempted = true ∧ (∃ gpuSet ∈ candidate.eligibleGpuSets, FailedOn cfg (visit gpuSet).probe gpuSet e) ∨
    ∃ failures, List.Forall₂ (fun gpuSet e => e.preempted = false ∧ FailedOn cfg (visit gpuSet).probe gpuSet e)
      candidate.eligibleGpuSets failures ∧ failures.getLast? = some e

section

variable {φ : Type} [Interpreter φ] {cfg : Validator} {candidate : Profiles.CandidateShape}
variable {visit : List GpuUuid → Visit φ}

theorem validateVllm_reports : Ends (fun _ => True) (validateVllm cfg candidate visit)
    (fun profiles _ => Returned cfg candidate visit profiles)
    fun e _ => OfValidation (Rejected cfg candidate visit) e := by
  unfold validateVllm
  refine .bind
    ((visitSets_reports candidate.eligibleGpuSets [] []).of_post (fun _ _ => id) fun e _ h => ?_) fun r => ?_
  · cases e with
    | validation e => exact .inl h
    | other e => trivial
  · obtain ⟨profiles, failures⟩ := r
    refine Ends.of_pure fun hresults => ?_
    obtain ⟨results, hall, hprofiles, hfailures⟩ := hresults
    simp only [List.nil_append] at hprofiles hfailures
    refine .ite (fun hempty => ?_) fun hne => .pure fun _ _ => ⟨⟨results, hall, hprofiles⟩, fun h => absurd h hne⟩
    have heq := eq_failures (hprofiles.symm.trans hempty)
    rw [← hfailures] at heq
    cases hlast : failures.getLast? with
    | none =>
      have hnone : failures = [] := List.getLast?_eq_none_iff.mp hlast
      rw [hnone, List.map_nil] at heq
      refine .pure fun _ _ => ⟨⟨results, hall, hprofiles⟩, fun _ => ?_⟩
      exact List.forall₂_nil_right_iff.mp (heq ▸ hall)
    | some e =>
      refine .throw fun _ _ => .inr ⟨failures, ?_, hlast⟩
      rw [heq] at hall
      exact List.forall₂_map_right_iff.mp hall

/-- The sets whose probes have succeeded. -/
theorem reported_profiles {sets : List (List GpuUuid)}
    {results : List (Except ValidationError (Profiles.PlacementProfile String ℚ))}
    (h : List.Forall₂ (Reported cfg candidate visit) sets results) :
    ∃ probed, probed.Sublist sets ∧ List.Forall₂ (fun g p => ProbedOn cfg candidate (visit g).probe g p) probed
      (results.filterMap Except.toOption) := by
  induction h with
  | nil => exact ⟨[], .slnil, .nil⟩
  | @cons gpuSet r sets results hreported _ ih =>
    obtain ⟨probed, hsub, hall⟩ := ih
    cases r with
    | ok profile => exact ⟨gpuSet :: probed, hsub.cons_cons gpuSet, .cons hreported hall⟩
    | error e => exact ⟨probed, hsub.cons gpuSet, hall⟩

theorem map_eligibleGpuSets {probed : List (List GpuUuid)} {profiles : List (Profiles.PlacementProfile String ℚ)}
    (h : List.Forall₂ (fun g p => ProbedOn cfg candidate (visit g).probe g p) probed profiles) :
    profiles.map (·.eligibleGpuSets) = probed.map fun gpuSet => [gpuSet] := by
  induction h with
  | nil => rfl
  | cons hhead _ ih =>
    obtain ⟨-, launchArgs, m, -, -, rfl⟩ := hhead
    exact congrArg (List.cons _) ih

theorem exists_probedOn {probed : List (List GpuUuid)} {profiles : List (Profiles.PlacementProfile String ℚ)}
    (h : List.Forall₂ (fun g p => ProbedOn cfg candidate (visit g).probe g p) probed profiles) :
    ∀ profile ∈ profiles, ∃ gpuSet ∈ probed, ProbedOn cfg candidate (visit gpuSet).probe gpuSet profile := by
  induction h with
  | nil => simp
  | cons hhead _ ih =>
    intro profile hprofile
    rcases List.mem_cons.mp hprofile with rfl | hprofile
    · exact ⟨_, List.mem_cons_self, hhead⟩
    · obtain ⟨gpuSet, hset, hon⟩ := ih profile hprofile
      exact ⟨gpuSet, List.mem_cons_of_mem _ hset, hon⟩

theorem Returned.probed {profiles : List (Profiles.PlacementProfile String ℚ)}
    (h : Returned cfg candidate visit profiles) :
    ∃ probed, probed.Sublist candidate.eligibleGpuSets ∧
      List.Forall₂ (fun g p => ProbedOn cfg candidate (visit g).probe g p) probed profiles := by
  obtain ⟨⟨results, hall, rfl⟩, -⟩ := h
  exact reported_profiles hall

variable {gpuSet : List GpuUuid} {p : Probe φ} {profile : Profiles.PlacementProfile String ℚ}

theorem Returned.probedOn {profiles : List (Profiles.PlacementProfile String ℚ)}
    (h : Returned cfg candidate visit profiles) (hprofile : profile ∈ profiles) :
    ∃ gpuSet ∈ candidate.eligibleGpuSets, ProbedOn cfg candidate (visit gpuSet).probe gpuSet profile := by
  obtain ⟨probed, hsub, hprobed⟩ := h.probed
  obtain ⟨gpuSet, hset, hon⟩ := exists_probedOn hprobed profile hprofile
  exact ⟨gpuSet, hsub.subset hset, hon⟩

theorem ProbedOn.wellShaped (h : ProbedOn cfg candidate p gpuSet profile) (hlen : gpuSet.length = candidate.gpuCount)
    (hnodup : gpuSet.Nodup) : profile.WellShaped := by
  obtain ⟨-, launchArgs, m, -, hcontract, rfl⟩ := h
  have hm := contract_measured hcontract
  obtain ⟨bytes, -, hidle⟩ := hm.idle
  have hcount : ∀ {mib : List ℤ}, mib.length = gpuSet.length → (mib.length : ℤ) = candidate.gpuCount :=
    fun hmib => by rw [hmib, hlen]
  refine ⟨hcount ?_, hcount hm.peakLength, hcount (List.length_map _), fun mib hmib => ?_, fun g hg => ?_⟩
  · show m.idleMemory.length = gpuSet.length
    rw [hidle, usedMib_length]
  · have hsleep := hm.sleep
    change m.sleepMemory = some mib at hmib
    split at hsleep
    · obtain ⟨bytes', -, hsome⟩ := hsleep
      rw [hsome] at hmib
      cases hmib
      exact hcount (usedMib_length bytes')
    · rw [hsleep] at hmib
      cases hmib
  · rw [List.mem_singleton.mp hg]
    exact ⟨by rw [hlen]; rfl, hnodup⟩

/-- The eligible sets of a shape that has been made. -/
theorem shape_sets {inventory : Profiles.MachineInventory} {request : Profiles.ShapeRequest}
    {shapes : List Profiles.CandidateShape} (hok : Profiles.buildCandidateShapes inventory request = .ok shapes)
    (hcandidate : candidate ∈ shapes) :
    candidate.eligibleGpuSets ≠ [] ∧
      ∀ gpuSet ∈ candidate.eligibleGpuSets, gpuSet.Nodup ∧ gpuSet.length = candidate.gpuCount := by
  obtain ⟨shapes', hok', hcounts, hsets⟩ := Profiles.buildCandidateShapes_ok inventory request
  rw [hok] at hok'
  cases hok'
  have hcount : candidate.gpuCount ∈ shapes.map (·.gpuCount) := List.mem_map_of_mem hcandidate
  rw [hcounts, List.mem_filter, List.mem_range'_1, decide_eq_true_eq] at hcount
  obtain ⟨⟨hpos, -⟩, hviable⟩ := hcount
  rw [(hsets candidate hcandidate).2]
  exact ⟨hviable, fun gpuSet hset => (Profiles.candidate_sublist hpos (List.mem_of_mem_filter hset)).2⟩

end

/-- **What a validation reports.** `validate_vllm` returns the profiles of the
sets whose probes have met their contract, in the order of the eligible sets,
and none only if no set is eligible: a set that is left out has failed. It
raises a preemption, or the error of the last eligible set when every set has
failed; the error is that of the failed launch or contract, and names the log
of the engine. -/
theorem validation_reports {φ : Type} [Interpreter φ] (cfg : Validator) (candidate : Profiles.CandidateShape)
    (visit : List GpuUuid → Visit φ) (s : State) :
    match validateVllm cfg candidate visit s with
    | .ok profiles _ => Returned cfg candidate visit profiles
    | .error (.validation e) _ => Rejected cfg candidate visit e
    | .error (.other _) _ => True := by
  have hend := ends_iff.mp (validateVllm_reports : Ends _ (validateVllm cfg candidate visit) _ _) s trivial
  cases hrun : validateVllm cfg candidate visit s with
  | ok profiles t => simpa only [hrun] using hend
  | error e t =>
    cases e with
    | validation e => simpa only [hrun, OfValidation] using hend
    | other e => trivial

/-- **What has been validated can be planned.** For a shape that
`build_candidate_shapes` has made, `validate_vllm` returns a profile at least.
Each profile is of one of the eligible sets, these in their order and each
once; it has a measurement for each of its GPUs, so that the planner finds all
that it looks for, a positive rate, and a peak that no reading made while the
engine answered exceeds, before its sleep or after it. -/
theorem validated_profiles {φ : Type} [Interpreter φ] (cfg : Validator) (inventory : Profiles.MachineInventory)
    (request : Profiles.ShapeRequest) (visit : List GpuUuid → Visit φ) (s : State) :
    ∃ shapes, Profiles.buildCandidateShapes inventory request = .ok shapes ∧ ∀ candidate ∈ shapes,
      match validateVllm cfg candidate visit s with
      | .ok profiles _ => profiles ≠ [] ∧
        (∃ probed : List (List GpuUuid), probed.Sublist candidate.eligibleGpuSets ∧
          profiles.map (·.eligibleGpuSets) = probed.map fun gpuSet => [gpuSet]) ∧
        ∀ profile ∈ profiles, profile.WellShaped ∧ Profiles.PlacementProfile.Found (profile.planned id) ∧
          0 < profile.predictedTokensPerSecond ∧
          ∃ gpuSet, profile.eligibleGpuSets = [gpuSet] ∧
            ∀ g, g = (visit gpuSet).probe.contract.generation ∨
                cfg.settings.ramWeightCacheEnabled = true ∧ g = (visit gpuSet).probe.contract.again →
              ∀ bytes, Observed g bytes → Bounded gpuSet profile.peakVramMibPerGpu bytes
      | .error _ _ => True := by
  obtain ⟨shapes, hok, -⟩ := Profiles.buildCandidateShapes_ok inventory request
  refine ⟨shapes, hok, fun candidate hcandidate => ?_⟩
  obtain ⟨hviable, hsets⟩ := shape_sets hok hcandidate
  have hend := ends_iff.mp (validateVllm_reports : Ends _ (validateVllm cfg candidate visit) _ _) s trivial
  cases hrun : validateVllm cfg candidate visit s with
  | error e t => trivial
  | ok profiles t =>
    rw [hrun] at hend
    obtain ⟨probed, hsub, hprobed⟩ := hend.probed
    refine ⟨fun hnone => hviable (hend.2 hnone), ⟨probed, hsub, map_eligibleGpuSets hprobed⟩,
      fun profile hprofile => ?_⟩
    obtain ⟨gpuSet, hset, hon⟩ := hend.probedOn hprofile
    obtain ⟨hnodup, hlen⟩ := hsets gpuSet hset
    have hshape := hon.wellShaped hlen hnodup
    obtain ⟨-, launchArgs, m, -, hcontract, rfl⟩ := hon
    have hm := contract_measured hcontract
    exact ⟨hshape, hshape.found id, hm.positive, gpuSet, rfl, fun g hg => (hm.peak g hg).2⟩

/-- A visit whose engine is healthy at once and answers with five tokens in two
seconds. -/
def healthyVisit : Visit (List Char) :=
  let reading : Reading := .ok fun _ => 3 * 1024 * 1024
  let lines := ["data: \x7b\"usage\": \x7b\"completion_tokens\": 5\x7d\x7d", "data: [DONE]"]
  let visit := cancelledVisit fun _ => none
  { visit with
    probe :=
      { visit.probe with
        contract :=
          { visit.probe.contract with
            polls := [⟨0, false, none, .response 200 [], none⟩]
            generation :=
              ⟨reading, .response 200 [], lines.map fun line => ⟨false, reading, line.toList⟩, none, 2, none⟩ } } }

example : (match validateVllm oneValidator oneSet (fun _ => healthyVisit) {} with
    | .ok profiles _ => profiles.map fun p => (p.eligibleGpuSets, p.predictedTokensPerSecond, p.peakVramMibPerGpu)
    | .error _ _ => []) = [([["gpu"]], 5 / 2, [3])] := by
  decide +kernel

end Probing
end LlmRio
