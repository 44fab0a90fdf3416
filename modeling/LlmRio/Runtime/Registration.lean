/-
# Registrations and the disabling of a model

`RegistrationManager._run` is a task that moves from await to await: it writes
the state of its model into the catalog before and after the download, before
each probe, when a probe yields to production, with its final transaction and
when it fails. None of these writes looks at the state that it replaces, so a
model that is disabled while its task is alive, or while a restart will start
the task again, does not stay disabled (`disabled_then_available`).

A model that is disabled when no task of it is alive and no job of it is QUEUED
or RUNNING stays DISABLED until staff retry the job, and only such a model is
sure to (`disable_survives`).

Key definitions: `Pc`, `taskStep`, `State`, `step`, `Effect`, `Disabled`,
`settled`.
Key theorems: `taskStep_move`, `step_effect`, `linked_step`, `disabled_step`,
`run_stored`, `disable_survives`.
-/
import LlmRio.Storage.Catalog
import LlmRio.Storage.ContextLimit

namespace LlmRio
namespace Registration

open Runs Transactions ModelStore

/-! ### The task of a job -/

/-- What `_resolve` returns. -/
structure Resolved where
  revision : String
  downloadBytes : ℕ
  artifactHashes : List Artifact

/-- What `_inspect` returns, as far as the task reads it. -/
structure Inspection where
  capabilities : List String
  maxModelLen : ℤ

/-- Where the loop over the candidates is; a candidate is its GPU count. -/
structure Candidates where
  job : ModelJob
  resolved : Resolved
  artifactPath : String
  current : ℕ
  rest : List ℕ
  accepted : List VerifiedProfile := []
  lastError : Option JobFailure := none

/-- What a live task does next; `job` is the row that it has read. -/
inductive Pc
  | load
  | begin (job : ModelJob)
  | resolving (job : ModelJob)
  | resolved (job : ModelJob) (r : Resolved)
  | downloading (job : ModelJob) (r : Resolved)
  | inspected (job : ModelJob) (r : Resolved) (artifactPath : String) (i : Inspection) (candidates : List ℕ)
  | announcing (c : Candidates)
  | probing (c : Candidates)
  | requeueing (c : Candidates)
  | pausing (c : Candidates)
  | committing (job : ModelJob) (r : Resolved) (artifactPath : String) (profiles : List VerifiedProfile)
  | warming (job : ModelJob)
  | failing (e : JobFailure)

def Pc.job : Pc → Option ModelJob
  | .load | .failing _ => none
  | .begin job | .resolving job | .resolved job _ | .downloading job _ | .inspected job _ _ _ _ => some job
  | .announcing c | .probing c | .requeueing c | .pausing c => some c.job
  | .committing job _ _ _ | .warming job => some job

/-- How the await of a task ends. -/
inductive Outcome
  | ok
  | raised (e : JobFailure)
  | resolved (r : Resolved)
  | downloaded (artifactPath : String) (i : Inspection) (candidates : List ℕ)
  | measured (profiles : List VerifiedProfile)
  | preempted
  /-- A `ValidationError` of the candidate. -/
  | invalid (e : JobFailure)

/-- After the loop over the candidates. -/
def finishValidation (c : Candidates) : Pc :=
  if c.accepted ≠ [] then .committing c.job c.resolved c.artifactPath c.accepted
  else .failing (c.lastError.getD ⟨"validation", "no candidate placement passed validation"⟩)

/-- After a candidate: a larger shape than the smallest accepted one is measured
once. -/
def nextCandidate (c : Candidates) : Pc :=
  if (c.accepted.map (·.gpuCount)).min?.any (· + 1 ≤ c.current) then finishValidation c
  else
    match c.rest with
    | [] => finishValidation c
    | n :: rest => .announcing { c with current := n, rest := rest }

def firstCandidate (job : ModelJob) (r : Resolved) (artifactPath : String) : List ℕ → Pc
  | [] => .failing ⟨"candidate_shapes", "model cannot fit any homogeneous GPU set"⟩
  | n :: rest => .announcing { job := job, resolved := r, artifactPath := artifactPath, current := n, rest := rest }

variable {κ : Type}

/-- An await of `update_model_job`. -/
def write (s : ModelStore κ) (j : JobId) (u : JobUpdate) (next : Pc) :
    Outcome → Option (ModelStore κ × Option Pc)
  | .ok =>
    match s.updateModelJob j u with
    | .ok s' => some (s', some next)
    | .error _ => some (s, some (.failing ⟨"unexpected", j⟩))
  | .raised e => some (s, some (.failing e))
  | _ => none

section

variable [DecidableEq κ] (sha256 : ProfileIdentity → κ)

/-- The task of the job `j` goes on: the store, and where it is then if it is
still alive. -/
def taskStep (fp : String) (s : ModelStore κ) (j : JobId) : Pc → Outcome → Option (ModelStore κ × Option Pc)
  | .load, .ok => some (s, (s.job? j).map .begin)
  | .begin job, o =>
    write s j { jobState := .running, stage := "resolve", catalogState := .downloading } (.resolving job) o
  | .resolving job, .resolved r => some (s, some (.resolved job r))
  | .resolved job r, o =>
    write s j
      { jobState := .running, stage := "download", catalogState := .downloading
        resolvedRevision := some r.revision, progress := .downloadBytes r.downloadBytes }
      (.downloading job r) o
  | .downloading job r, .downloaded path i candidates => some (s, some (.inspected job r path i candidates))
  | .inspected job r path i candidates, o =>
    write s j
      { jobState := .running, stage := "validation_pending", catalogState := .validationPending
        artifactPath := some path, capabilities := some i.capabilities, progress := .inspected i.maxModelLen }
      (firstCandidate job r path candidates) o
  | .announcing c, o =>
    write s j
      { jobState := .running, stage := "validating", catalogState := .validating, progress := .gpuCount c.current }
      (.probing c) o
  | .probing c, .measured profiles =>
    some (s, some (nextCandidate
      { c with accepted := c.accepted ++ profiles.map (probed fp c.job c.resolved.revision) }))
  | .probing c, .preempted => some (s, some (.requeueing c))
  | .probing c, .invalid e => some (s, some (nextCandidate { c with lastError := some e }))
  | .requeueing c, o =>
    write s j { jobState := .queued, stage := "validation_requeued", catalogState := .validationPending }
      (.pausing c) o
  | .pausing c, .ok => some (s, some (.announcing c))
  | .committing job r path profiles, .ok =>
    match s.completeRegistration sha256 fp job r.revision r.artifactHashes path profiles with
    | .ok s' => some (s', some (.warming job))
    | .error _ => some (s, some (.failing ⟨"unexpected", j⟩))
  | .warming _, .ok => some (s, none)
  | .failing e, .ok =>
    -- `_record_failure`; an exception of its own ends the task
    match s.updateModelJob j
      { jobState := .failed, stage := e.stage, catalogState := .needsAdminReview, failure := some e } with
    | .ok s' => some (s', none)
    | .error _ => some (s, none)
  | .failing _, .raised _ => some (s, none)
  | _, .raised e => some (s, some (.failing e))
  | _, _ => none

end

/-! ### The service -/

structure State (κ : Type) where
  store : ModelStore κ := {}
  tasks : JobId → Option Pc := fun _ => none
  /-- The retries that have read their job and not yet updated it. -/
  retrying : List JobId := []

inductive Act (κ : Type)
  | register (modelId : ModelId) (jobId : JobId) (nickname repo : String) (revision : Option String)
      (creatorKeyId : KeyId) (grantKeyIds activeKeys : List KeyId)
  | disable (modelId : ModelId)
  | retryRead (jobId : JobId)
  | retry (jobId : JobId)
  | task (jobId : JobId) (o : Outcome)
  /-- The service ends, with its tasks, and starts again. -/
  | restart (fingerprint : String)
  | clone (seen : ModelStore κ) (source : CatalogRow) (modelId : ModelId) (newId : ProfileId → ProfileId)
      (rope : RopeConfiguration) (request : CloneRequest)
  | editProfile (seen : ModelStore κ) (modelId : ModelId) (profileId : ProfileId) (edit : ProfileEdit)
      (makeDefault : Bool)
  | setActive (modelId : ModelId) (profileId : ProfileId) (active : Bool)

def unfinished (job : ModelJob) : Bool := job.state = .queued ∨ job.state = .running

/-- `RegistrationManager.start` -/
def State.start (s : State κ) (j : JobId) : State κ :=
  if (s.tasks j).isNone then { s with tasks := Function.update s.tasks j (some .load) } else s

/-- The start of the service: jobs that were being validated are queued again,
and `resume` starts the tasks of all unfinished jobs. -/
def State.restart (s : State κ) (fp : String) : State κ :=
  let store := (s.store.recoverJobs.setMachineFingerprint fp).1
  { store := store, tasks := fun j => if (store.job? j).any unfinished then some .load else none }

section

variable [DecidableEq κ] (sha256 : ProfileIdentity → κ)

/-- Nothing comes to an await between the commit of a job's row and the start of
its task. Before the first start of the service there is no machine. -/
def step (s : State κ) (a : Act κ) : Option (State κ) :=
  match a, s.store.machineFingerprint with
  | .restart fp, _ => if fp = "" then none else some (s.restart fp)
  | _, none => none
  | .register m j nickname repo revision creator grants keys, some _ =>
    match s.store.createModelJob m j nickname repo revision creator grants keys with
    | .ok store => some ({ s with store := store }.start j)
    | .error _ => some s
  | .disable m, some _ => some { s with store := (s.store.disableModel m).1 }
  | .retryRead j, some _ =>
    match s.store.job? j with
    | some job => if unfinished job then some s else some { s with retrying := j :: s.retrying }
    | none => some s
  | .retry j, some _ =>
    if j ∈ s.retrying then
      let s := { s with retrying := s.retrying.erase j }
      match s.store.updateModelJob j { jobState := .queued, stage := "resolve", catalogState := .requested } with
      | .ok store => some ({ s with store := store }.start j)
      | .error _ => some s
    else none
  | .task j o, some fp =>
    match s.tasks j with
    | some pc => (taskStep sha256 fp s.store j pc o).map fun (store, next) =>
      { s with store := store, tasks := Function.update s.tasks j next }
    | none => none
  | .clone seen source m newId rope request, some fp =>
    some { s with store := commit s.store (s.store.cloneModel sha256 seen fp source m newId rope request) }
  | .editProfile seen m p edit makeDefault, some fp =>
    some { s with
      store := commit s.store ((s.store.updateModelProfile sha256 seen fp m p edit makeDefault).map (·.1)) }
  | .setActive m p active, some fp => some { s with store := (s.store.setActive fp m p active).1 }

end

/-! ### What a task writes -/

/-- The row of the job `j` and that of its model are changed. -/
def JobWrite (j : JobId) (s s' : ModelStore κ) : Prop :=
  ∃ row state path, ∃ f : ModelJob → ModelJob, s.job? j = some row ∧
    s'.catalog = Table.modify CatalogModel.id row.modelId (setState state path) s.catalog ∧
    (∀ job, (f job).id = job.id ∧ (f job).modelId = job.modelId) ∧
    s'.modelJobs = Table.modify ModelJob.id j f s.modelJobs ∧ s'.machineFingerprint = s.machineFingerprint

/-- A task has read the row of its own job. -/
def Reads (s : ModelStore κ) (j : JobId) (pc : Pc) : Prop :=
  ∃ row, s.job? j = some row ∧ ∀ job, pc.job = some job → job.id = j ∧ job.modelId = row.modelId

variable {s s' : ModelStore κ} {j : JobId} {fp : String}

theorem updateModelJob_writes {u : JobUpdate} (hok : s.updateModelJob j u = .ok s') : JobWrite j s s' := by
  obtain ⟨row, hrow, hcatalog, hjobs, hmachine⟩ := updateModelJob_ok hok
  refine ⟨row, _, _, _, hrow, hcatalog, ?_, hjobs, hmachine⟩
  exact fun _ => ⟨rfl, rfl⟩

theorem finishValidation_job (c : Candidates) (job : ModelJob) (h : (finishValidation c).job = some job) :
    job = c.job := by
  unfold finishValidation at h
  split at h
  · exact (Option.some.inj h).symm
  · cases h

theorem nextCandidate_job (c : Candidates) (job : ModelJob) (h : (nextCandidate c).job = some job) :
    job = c.job := by
  unfold nextCandidate at h
  split at h
  · exact finishValidation_job c job h
  · split at h
    · exact finishValidation_job c job h
    · exact (Option.some.inj h).symm

theorem firstCandidate_job (job : ModelJob) (r : Resolved) (path : String) (candidates : List ℕ) (job' : ModelJob)
    (h : (firstCandidate job r path candidates).job = some job') : job' = job := by
  unfold firstCandidate at h
  split at h
  · cases h
  · exact (Option.some.inj h).symm

/-- What one await of a task does: it writes the row of its job and that of its
model, or nothing, and the task goes on with the row that it has read. -/
structure TaskMove (j : JobId) (s : ModelStore κ) (pc : Pc) (s' : ModelStore κ) (pc' : Option Pc) : Prop where
  store : SameJobs s s' ∨ JobWrite j s s'
  reads : ∀ p ∈ pc', ∀ job, p.job = some job → pc.job = some job ∨ s.job? j = some job

section

variable {pc next : Pc} {o : Outcome} {pc' : Option Pc}

theorem TaskMove.stay (hnext : ∀ job, next.job = some job → pc.job = some job) :
    TaskMove j s pc s (some next) := by
  refine ⟨.inl (SameJobs.refl s), fun p hp job hjob => .inl ?_⟩
  obtain rfl := Option.mem_some.mp hp
  exact hnext job hjob

theorem TaskMove.wrote (h : JobWrite j s s') (hnext : ∀ job, next.job = some job → pc.job = some job) :
    TaskMove j s pc s' (some next) := by
  refine ⟨.inr h, fun p hp job hjob => .inl ?_⟩
  obtain rfl := Option.mem_some.mp hp
  exact hnext job hjob

theorem TaskMove.ended (h : SameJobs s s' ∨ JobWrite j s s') : TaskMove j s pc s' none :=
  ⟨h, fun _ hp => nomatch hp⟩

theorem write_move {u : JobUpdate} (hs : write s j u next o = some (s', pc'))
    (hnext : ∀ job, next.job = some job → pc.job = some job) : TaskMove j s pc s' pc' := by
  unfold write at hs
  split at hs
  · split at hs
    · rename_i hok
      cases hs
      exact .wrote (updateModelJob_writes hok) hnext
    · cases hs
      exact .stay fun _ hjob => nomatch hjob
  · cases hs
    exact .stay fun _ hjob => nomatch hjob
  · cases hs

end

theorem completeRegistration_writes [DecidableEq κ] {sha256 : ProfileIdentity → κ} {job : ModelJob}
    {revision path : String} {hashes : List Artifact} {ps : List VerifiedProfile} {row : ModelJob}
    (hrow : s.job? j = some row) (hid : job.id = j) (hmodel : job.modelId = row.modelId)
    (hok : s.completeRegistration sha256 fp job revision hashes path ps = .ok s') : JobWrite j s s' := by
  obtain ⟨hcatalog, hjobs, hmachine⟩ := completeRegistration_ok hok
  rw [hmodel] at hcatalog
  rw [hid] at hjobs
  refine ⟨row, _, _, _, hrow, hcatalog, ?_, hjobs, hmachine⟩
  exact fun _ => ⟨rfl, rfl⟩

theorem taskStep_move [DecidableEq κ] {sha256 : ProfileIdentity → κ} {pc : Pc} {o : Outcome} {pc' : Option Pc}
    (hreads : Reads s j pc) (hs : taskStep sha256 fp s j pc o = some (s', pc')) : TaskMove j s pc s' pc' := by
  unfold taskStep at hs
  split at hs
  case h_1 =>
    -- the job is read
    cases hs
    refine ⟨.inl (SameJobs.refl s), fun p hp job hjob => .inr ?_⟩
    obtain ⟨row, hrow, rfl⟩ := Option.map_eq_some_iff.mp hp
    rw [hrow]
    exact hjob
  case h_2 | h_4 | h_7 | h_11 =>
    exact write_move hs fun job hjob => hjob
  case h_6 job r path i candidates =>
    exact write_move hs fun job' hjob => (firstCandidate_job job r path candidates job' hjob).symm ▸ rfl
  case h_3 | h_5 | h_9 | h_12 =>
    cases hs
    exact .stay fun job hjob => hjob
  case h_8 | h_10 =>
    cases hs
    exact .stay fun job hjob => (nextCandidate_job _ job hjob).symm ▸ rfl
  case h_13 job r path profiles =>
    obtain ⟨row, hrow, hown⟩ := hreads
    obtain ⟨hid, hmodel⟩ := hown job rfl
    split at hs
    · rename_i hok
      cases hs
      exact .wrote (completeRegistration_writes hrow hid hmodel hok) fun job hjob => hjob
    · cases hs
      exact .stay fun _ hjob => nomatch hjob
  case h_15 =>
    split at hs
    · rename_i hok
      cases hs
      exact .ended (.inr (updateModelJob_writes hok))
    · cases hs
      exact .ended (.inl (SameJobs.refl s))
  case h_14 | h_16 =>
    cases hs
    exact .ended (.inl (SameJobs.refl s))
  case h_17 =>
    -- the exception is recorded next
    cases hs
    exact .stay fun _ hjob => nomatch hjob
  case h_18 =>
    cases hs

/-! ### What a step does -/

/-- No job is lost and none is given to another model; distinct ids stay so. -/
structure JobsKept (s s' : ModelStore κ) : Prop where
  ids : (s.modelJobs.map (·.id)).Nodup → (s'.modelJobs.map (·.id)).Nodup
  rows : ∀ i row, s.job? i = some row → ∃ row', s'.job? i = some row' ∧ row'.modelId = row.modelId

theorem JobsKept.map {f : ModelJob → ModelJob} (hf : ∀ job, (f job).id = job.id ∧ (f job).modelId = job.modelId)
    (hjobs : s'.modelJobs = s.modelJobs.map f) : JobsKept s s' := by
  constructor
  · intro hids
    rw [hjobs, List.map_map]
    have hsame : ∀ job ∈ s.modelJobs, ((·.id) ∘ f) job = job.id := fun job _ => (hf job).1
    rw [List.map_congr_left hsame]
    exact hids
  · intro i row hrow
    refine ⟨f row, ?_, (hf row).2⟩
    unfold job? at hrow ⊢
    rw [hjobs, Table.lookup_map fun job => (hf job).1, hrow]
    rfl

theorem kept_of_jobs (h : s'.modelJobs = s.modelJobs) : JobsKept s s' :=
  JobsKept.map (f := id) (fun _ => ⟨rfl, rfl⟩) (h.trans (List.map_id _).symm)

theorem kept_of_same (h : SameJobs s s') : JobsKept s s' :=
  kept_of_jobs h.2.1

theorem JobWrite.kept (h : JobWrite j s s') : JobsKept s s' := by
  obtain ⟨row, state, path, f, -, -, hf, hjobs, -⟩ := h
  apply JobsKept.map _ hjobs
  intro job
  split
  · exact hf job
  · exact ⟨rfl, rfl⟩

theorem JobsKept.append {job : ModelJob} (hnew : job.id ∉ s.modelJobs.map (·.id))
    (hjobs : s'.modelJobs = s.modelJobs ++ [job]) : JobsKept s s' := by
  constructor
  · intro hids
    rw [hjobs, List.map_append]
    apply List.Nodup.append hids (List.nodup_singleton _)
    rw [List.disjoint_right]
    intro i hi
    rw [List.mem_singleton.mp hi]
    exact hnew
  · intro i row hrow
    refine ⟨row, ?_, rfl⟩
    unfold job? at hrow ⊢
    rw [hjobs, Table.lookup_append, hrow]
    rfl

theorem recoverJobs_eq (s : ModelStore κ) : ∃ f : ModelJob → ModelJob,
    (∀ job, (f job).id = job.id ∧ (f job).modelId = job.modelId ∧ unfinished (f job) = unfinished job) ∧
      s.recoverJobs.modelJobs = s.modelJobs.map f := by
  refine ⟨_, fun job => ?_, rfl⟩
  split
  · rename_i h
    refine ⟨rfl, rfl, ?_⟩
    simp [unfinished, h.1]
  · exact ⟨rfl, rfl, rfl⟩

theorem start_tasks (t : State κ) (i j : JobId) :
    (t.start j).tasks i = if i = j then some ((t.tasks j).getD .load) else t.tasks i := by
  unfold State.start
  by_cases hlive : (t.tasks j).isNone
  · rw [if_pos hlive, Option.isNone_iff_eq_none.mp hlive]
    exact Function.update_apply _ _ _ _
  · rw [if_neg hlive]
    split
    · rename_i h
      obtain ⟨pc, hpc⟩ := Option.ne_none_iff_exists'.mp (Option.isNone_iff_eq_none.not.mp hlive)
      rw [h, hpc]
      rfl
    · rfl

theorem start_store (t : State κ) (j : JobId) : (t.start j).store = t.store := by
  unfold State.start
  split <;> rfl

/-- A model that the catalog does not have. -/
def Fresh (s : ModelStore κ) (row : CatalogModel) : Prop :=
  row.id ∉ s.catalog.map (·.id) ∧ row.nickname ∉ s.catalog.map (·.nickname)

/-- What an action does. -/
inductive Effect (s s' : State κ) : Act κ → Prop
  | unchanged {a} (store : SameJobs s.store s'.store) (tasks : s'.tasks = s.tasks) : Effect s s' a
  | created {a} (row : CatalogModel) (job : ModelJob) (fresh : Fresh s.store row)
      (catalog : s'.store.catalog = s.store.catalog ++ [row])
      (new : job.id ∉ s.store.modelJobs.map (·.id)) (model : job.modelId = row.id)
      (jobs : s'.store.modelJobs = s.store.modelJobs ++ [job])
      (machine : s'.store.machineFingerprint = s.store.machineFingerprint)
      (tasks : ∀ i, s'.tasks i = if i = job.id then some ((s.tasks job.id).getD .load) else s.tasks i) :
      Effect s s' a
  | cloned {a} (row : CatalogModel) (fresh : Fresh s.store row)
      (catalog : s'.store.catalog = s.store.catalog ++ [row])
      (jobs : s'.store.modelJobs = s.store.modelJobs)
      (machine : s'.store.machineFingerprint = s.store.machineFingerprint) (tasks : s'.tasks = s.tasks) :
      Effect s s' a
  | disabled (m : ModelId)
      (catalog : s'.store.catalog = Table.modify CatalogModel.id m (setState .disabled none) s.store.catalog)
      (jobs : s'.store.modelJobs = s.store.modelJobs)
      (machine : s'.store.machineFingerprint = s.store.machineFingerprint) (tasks : s'.tasks = s.tasks) :
      Effect s s' (.disable m)
  | retried (j : JobId) (store : JobWrite j s.store s'.store)
      (tasks : ∀ i, s'.tasks i = if i = j then some ((s.tasks j).getD .load) else s.tasks i) :
      Effect s s' (.retry j)
  | moved {a} (j : JobId) (pc : Pc) (next : Option Pc) (live : s.tasks j = some pc)
      (store : TaskMove j s.store pc s'.store next) (tasks : s'.tasks = Function.update s.tasks j next) :
      Effect s s' a
  | restarted {a} (catalog : s'.store.catalog = s.store.catalog)
      (jobs : s'.store.modelJobs = s.store.recoverJobs.modelJobs) (machine : s'.store.machineFingerprint ≠ none)
      (tasks : ∀ i, s'.tasks i = if (s'.store.job? i).any unfinished then some .load else none) : Effect s s' a

/-- Distinct ids of the jobs, and every task has read the row of its job. -/
structure Linked (s : State κ) : Prop where
  jobIds : (s.store.modelJobs.map (·.id)).Nodup
  tasks : ∀ j pc, s.tasks j = some pc → Reads s.store j pc

theorem Reads.kept {pc : Pc} (h : Reads s j pc) (hjobs : JobsKept s s') : Reads s' j pc := by
  obtain ⟨row, hrow, hown⟩ := h
  obtain ⟨row', hrow', hmodel⟩ := hjobs.rows j row hrow
  exact ⟨row', hrow', fun job hjob => ⟨(hown job hjob).1, hmodel ▸ (hown job hjob).2⟩⟩

theorem reads_load {row : ModelJob} (h : s.job? j = some row) : Reads s j .load :=
  ⟨row, h, fun _ hjob => nomatch hjob⟩

theorem Effect.jobsKept {t t' : State κ} {a : Act κ} (h : Effect t t' a) : JobsKept t.store t'.store := by
  cases h with
  | unchanged store => exact kept_of_same store
  | created row job _ _ new _ jobs => exact JobsKept.append new jobs
  | cloned _ _ _ jobs | disabled _ _ jobs => exact kept_of_jobs jobs
  | retried _ store => exact store.kept
  | moved _ _ _ _ store => exact store.store.elim kept_of_same JobWrite.kept
  | restarted _ jobs =>
    obtain ⟨f, hf, heq⟩ := recoverJobs_eq t.store
    exact JobsKept.map (fun job => ⟨(hf job).1, (hf job).2.1⟩) (jobs.trans heq)

section

variable [DecidableEq κ] {sha256 : ProfileIdentity → κ} {t t' : State κ} {a : Act κ}

theorem step_effect (hl : Linked t) (hs : step sha256 t a = some t') : Effect t t' a := by
  unfold step at hs
  split at hs
  case h_1 fp =>
    split at hs
    · cases hs
    · cases hs
      obtain ⟨hcatalog, hjobs⟩ := setMachineFingerprint_jobs t.store.recoverJobs fp
      exact .restarted hcatalog hjobs (fun h => nomatch h) fun i => rfl
  case h_2 => cases hs
  case h_3 =>
    split at hs
    · rename_i store hok
      cases hs
      obtain ⟨⟨hid, hnickname, hcatalog⟩, ⟨hnew, hjobs⟩, -, hmachine⟩ := createModelJob_ok hok
      exact .created _ _ ⟨hid, hnickname⟩ (by rw [start_store]; exact hcatalog) hnew rfl
        (by rw [start_store]; exact hjobs) (by rw [start_store]; exact hmachine) fun i => start_tasks _ i _
    · cases hs
      exact .unchanged (SameJobs.refl _) rfl
  case h_4 m _ _ =>
    cases hs
    exact .disabled m (disableModel_catalog t.store m) rfl rfl rfl
  case h_5 =>
    split at hs
    · split at hs <;> cases hs <;> exact .unchanged (SameJobs.refl _) rfl
    · cases hs
      exact .unchanged (SameJobs.refl _) rfl
  case h_6 j _ _ =>
    split at hs
    · simp only at hs
      split at hs
      · rename_i store hok
        cases hs
        refine .retried j ?_ fun i => start_tasks _ i j
        rw [start_store]
        exact updateModelJob_writes hok
      · cases hs
        exact .unchanged (SameJobs.refl _) rfl
    · cases hs
  case h_7 j o fp _ =>
    split at hs
    · rename_i pc hlive
      obtain ⟨⟨store, next⟩, htask, rfl⟩ := Option.map_eq_some_iff.mp hs
      exact .moved j pc next hlive (taskStep_move (hl.tasks j pc hlive) htask) rfl
    · cases hs
  case h_8 seen source m newId rope request fp _ =>
    cases hs
    cases hok : t.store.cloneModel sha256 seen fp source m newId rope request with
    | error e => exact .unchanged (SameJobs.refl _) rfl
    | ok store =>
      obtain ⟨row, hfresh, hcatalog, hjobs, hmachine⟩ := cloneModel_ok hok
      exact .cloned row hfresh hcatalog hjobs hmachine rfl
  case h_9 =>
    cases hs
    refine .unchanged (commit_invariant (SameJobs.refl _) fun store hok => ?_) rfl
    obtain ⟨⟨store', flag⟩, hedit, rfl⟩ := map_eq_ok hok
    exact updateModelProfile_same hedit
  case h_10 =>
    cases hs
    exact .unchanged (setActive_same _ _ _ _ _) rfl

theorem linked_step (hl : Linked t) (hs : step sha256 t a = some t') : Linked t' := by
  have heffect := step_effect hl hs
  have hkept := heffect.jobsKept
  refine ⟨hkept.ids hl.jobIds, fun i pc hpc => ?_⟩
  -- a task that stays where it is has read its row before
  have hold : t.tasks i = some pc → Reads t'.store i pc := fun h => (hl.tasks i pc h).kept hkept
  have hstarted : ∀ {j row}, t'.store.job? j = some row →
      (if i = j then some ((t.tasks j).getD .load) else t.tasks i) = some pc → Reads t'.store i pc := by
    intro j row hrow h
    split at h
    · rename_i hi
      obtain rfl := hi
      cases hlive : t.tasks i with
      | none =>
        rw [hlive] at h
        obtain rfl := Option.some.inj h
        exact reads_load hrow
      | some pc' =>
        rw [hlive] at h
        obtain rfl := Option.some.inj h
        exact hold hlive
    · exact hold h
  cases heffect with
  | unchanged _ tasks | cloned _ _ _ _ _ tasks | disabled _ _ _ _ tasks =>
    rw [tasks] at hpc
    exact hold hpc
  | created row job _ _ new _ jobs _ tasks =>
    rw [tasks i] at hpc
    refine hstarted (?_ : t'.store.job? job.id = some job) hpc
    unfold job?
    rw [jobs]
    refine Table.lookup_of_mem (jobs ▸ hkept.ids hl.jobIds) ?_
    exact List.mem_append_right _ List.mem_cons_self
  | retried j store tasks =>
    rw [tasks i] at hpc
    obtain ⟨row, _, _, _, hrow, -⟩ := store
    obtain ⟨row', hrow', -⟩ := hkept.rows j row hrow
    exact hstarted hrow' hpc
  | moved j pc' next live store tasks =>
    rw [tasks, Function.update_apply] at hpc
    split at hpc
    · rename_i hi
      obtain rfl := hi
      obtain ⟨row, hrow, hown⟩ := hl.tasks i pc' live
      refine Reads.kept ⟨row, hrow, fun job hjob => ?_⟩ hkept
      rcases store.reads pc hpc job hjob with hsame | hread
      · exact hown job hsame
      · obtain rfl := Option.some.inj (hrow.symm.trans hread)
        exact ⟨(Table.lookup_some hrow).2, rfl⟩
    · exact hold hpc
  | restarted _ _ _ tasks =>
    rw [tasks i] at hpc
    split at hpc
    · rename_i hrow
      obtain rfl := Option.some.inj hpc
      obtain ⟨row, hrow, -⟩ := (Option.any_eq_true _ _).mp hrow
      exact reads_load hrow
    · cases hpc

end

/-! ### A model that is disabled -/

/-- No job of the model is QUEUED or RUNNING, and no task of it is alive. -/
def settled (m : ModelId) (s : State κ) : Bool :=
  s.store.modelJobs.all fun job => job.modelId = m → unfinished job = false ∧ (s.tasks job.id).isNone

/-- The model is DISABLED, and what it has of jobs are the jobs `ids`, which are
over. -/
structure Disabled (m : ModelId) (ids : List JobId) (s : State κ) : Prop where
  state : s.store.catalogState m = some .disabled
  jobs : ∀ job ∈ s.store.modelJobs, job.modelId = m →
    job.id ∈ ids ∧ unfinished job = false ∧ s.tasks job.id = none

theorem catalogState_append {m : ModelId} {row : CatalogModel} {state : CatalogState}
    (h : s'.catalog = s.catalog ++ [row]) (hstate : s.catalogState m = some state) :
    s'.catalogState m = some state := by
  rw [catalogState_eq] at hstate ⊢
  obtain ⟨found, hfound, hstate⟩ := Option.map_eq_some_iff.mp hstate
  rw [h, Table.lookup_append, hfound]
  exact congrArg some hstate

theorem mem_of_catalogState {m : ModelId} {state : CatalogState} (h : s.catalogState m = some state) :
    m ∈ s.catalog.map (·.id) := by
  rw [catalogState_eq] at h
  obtain ⟨row, hrow, -⟩ := Option.map_eq_some_iff.mp h
  obtain ⟨hin, hid⟩ := Table.lookup_some hrow
  exact List.mem_map.mpr ⟨row, hin, hid⟩

theorem catalogState_congr {m : ModelId} (h : s'.catalog = s.catalog) : s'.catalogState m = s.catalogState m := by
  rw [catalogState_eq, catalogState_eq, h]

/-- A write to the row of another model. -/
theorem catalogState_modify_ne {m m' : ModelId} {state : CatalogState} {path : Option String} (hne : m ≠ m')
    (h : s'.catalog = Table.modify CatalogModel.id m' (setState state path) s.catalog) :
    s'.catalogState m = s.catalogState m := by
  have hid : ∀ row : CatalogModel, row.id = m' → (setState state path row).id = m' := fun _ hid => hid
  rw [catalogState_eq, catalogState_eq, h, Table.lookup_modify_ne hne hid]

/-- A write to the row of the model. -/
theorem catalogState_modify_self {m : ModelId} {state : CatalogState} {path : Option String}
    (hm : m ∈ s.catalog.map (·.id))
    (h : s'.catalog = Table.modify CatalogModel.id m (setState state path) s.catalog) :
    s'.catalogState m = some state := by
  have hid : ∀ row : CatalogModel, row.id = m → (setState state path row).id = m := fun _ hid => hid
  rw [catalogState_eq, h, Table.lookup_modify_self hid]
  cases hrow : Table.lookup CatalogModel.id m s.catalog with
  | none =>
    obtain ⟨row, hin, hsame⟩ := List.mem_map.mp hm
    exact absurd hsame (Table.lookup_none.mp hrow row hin)
  | some row => rfl

/-- What a job of another model writes leaves the model and its jobs. -/
theorem JobWrite.other {m : ModelId} (hids : (s.modelJobs.map (·.id)).Nodup) (h : JobWrite j s s')
    (hother : ∀ row, s.job? j = some row → row.modelId ≠ m) :
    s'.catalogState m = s.catalogState m ∧
      ∀ job ∈ s'.modelJobs, job.modelId = m → job ∈ s.modelJobs ∧ job.id ≠ j := by
  obtain ⟨row, state, path, f, hrow, hcatalog, hf, hjobs, -⟩ := h
  refine ⟨catalogState_modify_ne (hother row hrow).symm hcatalog, fun job hjob hm => ?_⟩
  rw [hjobs] at hjob
  rcases Table.mem_modify.mp hjob with ⟨hold, hne⟩ | ⟨old, hold, hid, rfl⟩
  · exact ⟨hold, hne⟩
  · have hsame : s.job? j = some old := hid ▸ Table.lookup_of_mem hids hold
    exact absurd ((hf old).2.symm.trans hm) (hother old hsame)

/-- A job with a live task is of another model. -/
theorem Disabled.other {t : State κ} {m : ModelId} {ids : List JobId} (h : Disabled m ids t) {row : ModelJob}
    (hrow : t.store.job? j = some row) (hj : j ∉ ids ∨ t.tasks j ≠ none) : row.modelId ≠ m := by
  intro hm
  obtain ⟨hin, hid⟩ := Table.lookup_some hrow
  obtain ⟨hids, -, hdead⟩ := h.jobs row hin hm
  rw [hid] at hids hdead
  exact hj.elim (fun hnot => hnot hids) fun hlive => hlive hdead

theorem ids_disableModel (s : ModelStore κ) (m : ModelId) :
    (s.disableModel m).1.catalog.map (·.id) = s.catalog.map (·.id) := by
  rw [disableModel_catalog]
  have hid : ∀ row : CatalogModel, row.id = m → (setState .disabled none row).id = m := fun _ h => h
  exact Table.map_key_modify hid _

theorem restart_catalog (t : State κ) (fp : String) : (t.restart fp).store.catalog = t.store.catalog :=
  (setMachineFingerprint_jobs t.store.recoverJobs fp).1

/-- A restart neither ends nor resumes a job that is over. -/
theorem restart_job {t : State κ} {row : ModelJob} (fp : String) (hrow : t.store.job? j = some row) :
    ∃ row', (t.restart fp).store.job? j = some row' ∧ row'.modelId = row.modelId ∧
      unfinished row' = unfinished row := by
  obtain ⟨f, hf, heq⟩ := recoverJobs_eq t.store
  refine ⟨f row, ?_, (hf row).2⟩
  unfold job? at hrow ⊢
  have hjobs : (t.restart fp).store.modelJobs = t.store.modelJobs.map f :=
    (setMachineFingerprint_jobs t.store.recoverJobs fp).2.trans heq
  rw [hjobs, Table.lookup_map fun job => (hf job).1, hrow]
  rfl

section

variable [DecidableEq κ] {sha256 : ProfileIdentity → κ} {t t' : State κ} {a : Act κ}
variable {m : ModelId} {ids : List JobId}

/-- Only a retry of one of its jobs enables a model again. -/
theorem disabled_step (hl : Linked t) (h : Disabled m ids t) (ha : ∀ j, a = .retry j → j ∉ ids)
    (hs : step sha256 t a = some t') : Disabled m ids t' := by
  have hmodel := mem_of_catalogState h.state
  cases step_effect hl hs with
  | unchanged store tasks =>
    refine ⟨(catalogState_congr store.1).trans h.state, ?_⟩
    rw [store.2.1, tasks]
    exact h.jobs
  | created row job fresh catalog new model jobs _ tasks =>
    refine ⟨catalogState_append catalog h.state, fun job' hjob hm => ?_⟩
    rw [jobs] at hjob
    rcases List.mem_append.mp hjob with hold | hnew
    · rw [tasks, if_neg]
      · exact h.jobs job' hold hm
      · exact fun he => new (he ▸ List.mem_map_of_mem hold)
    · -- the new model is not the disabled one
      obtain rfl := List.mem_singleton.mp hnew
      exact absurd hmodel (hm ▸ model ▸ fresh.1)
  | cloned row fresh catalog jobs _ tasks =>
    refine ⟨catalogState_append catalog h.state, ?_⟩
    rw [jobs, tasks]
    exact h.jobs
  | disabled m' catalog jobs _ tasks =>
    refine ⟨?_, ?_⟩
    · by_cases hm : m = m'
      · obtain rfl := hm
        exact catalogState_modify_self hmodel catalog
      · exact (catalogState_modify_ne hm catalog).trans h.state
    · rw [jobs, tasks]
      exact h.jobs
  | retried j store tasks =>
    have hother : ∀ row, t.store.job? j = some row → row.modelId ≠ m :=
      fun row hrow => h.other hrow (.inl (ha j rfl))
    obtain ⟨hstate, hjobs⟩ := store.other hl.jobIds hother
    refine ⟨hstate.trans h.state, fun job hjob hm => ?_⟩
    obtain ⟨hold, hne⟩ := hjobs job hjob hm
    rw [tasks, if_neg hne]
    exact h.jobs job hold hm
  | moved j pc next live store tasks =>
    have hlive : t.tasks j ≠ none := live ▸ fun h => nomatch h
    have hother : ∀ row, t.store.job? j = some row → row.modelId ≠ m :=
      fun row hrow => h.other hrow (.inr hlive)
    rcases store.store with hsame | hwrite
    · refine ⟨(catalogState_congr hsame.1).trans h.state, fun job hjob hm => ?_⟩
      rw [hsame.2.1] at hjob
      rw [tasks, Function.update_of_ne]
      · exact h.jobs job hjob hm
      · exact fun he => hlive (he ▸ (h.jobs job hjob hm).2.2)
    · obtain ⟨hstate, hjobs⟩ := hwrite.other hl.jobIds hother
      refine ⟨hstate.trans h.state, fun job hjob hm => ?_⟩
      obtain ⟨hold, hne⟩ := hjobs job hjob hm
      rw [tasks, Function.update_of_ne hne]
      exact h.jobs job hold hm
  | restarted catalog jobs _ tasks =>
    refine ⟨(catalogState_congr catalog).trans h.state, fun job hjob hm => ?_⟩
    obtain ⟨f, hf, heq⟩ := recoverJobs_eq t.store
    have hids : (t'.store.modelJobs.map (·.id)).Nodup := (linked_step hl hs).jobIds
    have hlookup : t'.store.job? job.id = some job := Table.lookup_of_mem hids hjob
    rw [jobs, heq] at hjob
    obtain ⟨old, hold, rfl⟩ := List.mem_map.mp hjob
    obtain ⟨hid, hmodelId, hunfinished⟩ := hf old
    obtain ⟨hin, hover, -⟩ := h.jobs old hold (hmodelId.symm.trans hm)
    refine ⟨hid ▸ hin, hunfinished.trans hover, ?_⟩
    rw [tasks, hlookup, if_neg]
    rw [Option.any_some, hunfinished, hover]
    exact Bool.false_ne_true

theorem started_step (hl : Linked t) (hs : step sha256 t a = some t') : t'.store.machineFingerprint ≠ none := by
  cases hfp : t.store.machineFingerprint with
  | none =>
    unfold step at hs
    rw [hfp] at hs
    split at hs
    · split at hs
      · cases hs
      · cases hs
        exact fun h => nomatch h
    · cases hs
    all_goals contradiction
  | some fp =>
    have hsame : t'.store.machineFingerprint = t.store.machineFingerprint →
        t'.store.machineFingerprint ≠ none := fun h => h.trans hfp ▸ fun h => nomatch h
    cases step_effect hl hs with
    | unchanged store => exact hsame store.2.2
    | created _ _ _ _ _ _ _ machine | cloned _ _ _ _ machine | disabled _ _ _ machine => exact hsame machine
    | retried _ store =>
      obtain ⟨_, _, _, _, -, -, -, -, machine⟩ := store
      exact hsame machine
    | moved _ _ _ _ store =>
      rcases store.store with store | ⟨_, _, _, _, -, -, -, -, machine⟩
      · exact hsame store.2.2
      · exact hsame machine
    | restarted _ _ machine => exact machine

/-- What holds after every run. -/
structure Reached (t : State κ) : Prop where
  linked : Linked t
  started : t.store.machineFingerprint = none → t.store.catalog = []

theorem reached_of_run {acts : List (Act κ)} (h : exec (step sha256) {} acts = some t) : Reached t := by
  have hempty : Reached ({} : State κ) := by
    refine ⟨⟨List.nodup_nil, fun j pc h => ?_⟩, fun _ => rfl⟩
    cases h
  refine exec_invariant (I := Reached) (fun t a t' ht hs => ?_) hempty h
  exact ⟨linked_step ht.linked hs, fun hnone => absurd hnone (started_step ht.linked hs)⟩

/-! ### When a disable survives -/

/-- The failure of a task is recorded in the catalog. -/
theorem failing_step (sha256 : ProfileIdentity → κ) {fp : String} {row : ModelJob} {e : JobFailure}
    (hfp : t.store.machineFingerprint = some fp)
    (hrow : t.store.job? j = some row) (hm : row.modelId ∈ t.store.catalog.map (·.id))
    (hlive : t.tasks j = some (.failing e)) :
    ∃ t', step sha256 t (.task j .ok) = some t' ∧ t'.store.catalogState row.modelId = some .needsAdminReview := by
  let u : JobUpdate :=
    { jobState := .failed, stage := e.stage, catalogState := .needsAdminReview, failure := some e }
  have hok : ∃ store, t.store.updateModelJob j u = .ok store := by
    unfold updateModelJob
    rw [hrow]
    exact ⟨_, rfl⟩
  obtain ⟨store, hok⟩ := hok
  refine ⟨{ t with store := store, tasks := Function.update t.tasks j none }, ?_, ?_⟩
  · unfold step
    rw [hfp]
    simp only [hlive, taskStep]
    rw [hok]
    rfl
  · obtain ⟨row', hrow', hcatalog, -⟩ := updateModelJob_ok hok
    obtain rfl := Option.some.inj (hrow.symm.trans hrow')
    exact catalogState_modify_self hm hcatalog

/-- A live task can still write the state of its model. -/
theorem live_task_writes (sha256 : ProfileIdentity → κ) {fp : String} {row : ModelJob} {pc : Pc}
    (hfp : t.store.machineFingerprint = some fp) (hrow : t.store.job? j = some row)
    (hm : row.modelId ∈ t.store.catalog.map (·.id)) (hlive : t.tasks j = some pc) :
    ∃ (os : List Outcome) (t' : State κ), exec (step sha256) t (os.map (.task j)) = some t' ∧
      t'.store.catalogState row.modelId = some .needsAdminReview := by
  by_cases hfailing : ∃ e, pc = .failing e
  · obtain ⟨e, rfl⟩ := hfailing
    obtain ⟨t', hstep, hstate⟩ := failing_step sha256 hfp hrow hm hlive
    exact ⟨[.ok], t', (exec_singleton _).mpr hstep, hstate⟩
  · -- whatever it awaits raises
    let e : JobFailure := ⟨"unexpected", ""⟩
    have hraised : taskStep sha256 fp t.store j pc (.raised e) = some (t.store, some (.failing e)) := by
      cases pc with
      | failing e => exact absurd ⟨e, rfl⟩ hfailing
      | _ => rfl
    let t1 : State κ := { t with tasks := Function.update t.tasks j (some (.failing e)) }
    have hstep : step sha256 t (.task j (.raised e)) = some t1 := by
      unfold step
      rw [hfp]
      simp only [hlive, hraised]
      rfl
    obtain ⟨t', hstep', hstate⟩ :=
      failing_step sha256 (t := t1) (e := e) hfp hrow hm (Function.update_self _ _ _)
    exact ⟨[.raised e, .ok], t', (exec_cons _).mpr ⟨t1, hstep, (exec_singleton _).mpr hstep'⟩, hstate⟩

theorem step_disable (sha256 : ProfileIdentity → κ) {fp : String} (hfp : t.store.machineFingerprint = some fp) :
    step sha256 t (.disable m) = some { t with store := (t.store.disableModel m).1 } := by
  unfold step
  rw [hfp]

theorem disable_ok (hs : step sha256 t (.disable m) = some t') :
    t' = { t with store := (t.store.disableModel m).1 } := by
  cases hfp : t.store.machineFingerprint with
  | none =>
    unfold step at hs
    rw [hfp] at hs
    cases hs
  | some fp => exact Option.some.inj (hs.symm.trans (step_disable sha256 hfp))

/-- If a job of the model is not over, the model does not have to stay
DISABLED. -/
theorem unsettled_writes (sha256 : ProfileIdentity → κ) (ht : Reached t) (hm : t.store.hasModel m = true)
    (hunsettled : settled m t = false) :
    ∃ post t', (∀ j, Act.retry j ∉ post) ∧ exec (step sha256) t (.disable m :: post) = some t' ∧
      t'.store.catalogState m = some .needsAdminReview := by
  have hin : m ∈ t.store.catalog.map (·.id) := by
    rw [ids_catalog]
    exact hasModel_iff.mp hm
  obtain ⟨fp, hfp⟩ : ∃ fp, t.store.machineFingerprint = some fp := by
    refine Option.ne_none_iff_exists'.mp fun hnone => ?_
    rw [ht.started hnone] at hin
    cases hin
  obtain ⟨row, hrow, hbad⟩ := List.all_eq_false.mp hunsettled
  have hmodel : row.modelId = m := by
    by_contra hne
    exact hbad (decide_eq_true fun h => absurd h hne)
  have hlookup : t.store.job? row.id = some row := Table.lookup_of_mem ht.linked.jobIds hrow
  have hdisable := step_disable sha256 (m := m) hfp
  let t1 : State κ := { t with store := (t.store.disableModel m).1 }
  have hin1 : row.modelId ∈ t1.store.catalog.map (·.id) := by
    show row.modelId ∈ (t.store.disableModel m).1.catalog.map (·.id)
    rw [ids_disableModel, hmodel]
    exact hin
  by_cases hlive : ∃ pc, t.tasks row.id = some pc
  · obtain ⟨pc, hpc⟩ := hlive
    obtain ⟨os, t', hrun, hstate⟩ := live_task_writes sha256 (t := t1) hfp hlookup hin1 hpc
    refine ⟨os.map (.task row.id), t', fun j hj => ?_, (exec_cons _).mpr ⟨t1, hdisable, hrun⟩,
      hmodel ▸ hstate⟩
    obtain ⟨_, _, h⟩ := List.mem_map.mp hj
    cases h
  · -- the next start of the service resumes the job
    have hdead : t.tasks row.id = none := Option.eq_none_iff_forall_ne_some.mpr fun pc h => hlive ⟨pc, h⟩
    have hunfinished : unfinished row = true := by
      by_contra hover
      refine hbad (decide_eq_true fun _ => ⟨Bool.eq_false_iff.mpr hover, ?_⟩)
      rw [hdead]
      rfl
    obtain ⟨row', hrow', hmodel', hunfinished'⟩ := restart_job (t := t1) "host" hlookup
    have hload : (t1.restart "host").tasks row.id = some .load := by
      show (if ((t1.restart "host").store.job? row.id).any unfinished then some Pc.load else none) = some .load
      rw [hrow', Option.any_some, hunfinished', hunfinished]
      rfl
    have hin2 : row'.modelId ∈ (t1.restart "host").store.catalog.map (·.id) := by
      rw [hmodel', restart_catalog]
      exact hin1
    obtain ⟨os, t', hrun, hstate⟩ := live_task_writes sha256 rfl hrow' hin2 hload
    have hrestart : step sha256 t1 (.restart "host") = some (t1.restart "host") := by
      unfold step
      exact if_neg (by decide)
    refine ⟨.restart "host" :: os.map (.task row.id), t', fun j hj => ?_,
      (exec_cons _).mpr ⟨t1, hdisable, (exec_cons _).mpr ⟨_, hrestart, hrun⟩⟩, hmodel ▸ hmodel' ▸ hstate⟩
    rcases List.mem_cons.mp hj with h | hj
    · cases h
    · obtain ⟨_, _, h⟩ := List.mem_map.mp hj
      cases h

theorem disabled_of_settled (hm : t.store.hasModel m = true) (hsettled : settled m t = true)
    (hs : step sha256 t (.disable m) = some t') :
    Disabled m ((t.store.modelJobs.filter (·.modelId = m)).map (·.id)) t' := by
  have hin : m ∈ t.store.catalog.map (·.id) := by
    rw [ids_catalog]
    exact hasModel_iff.mp hm
  obtain rfl := disable_ok hs
  refine ⟨catalogState_modify_self hin (disableModel_catalog t.store m), fun job hjob hmodel => ?_⟩
  obtain ⟨hover, hdead⟩ := of_decide_eq_true (List.all_eq_true.mp hsettled job hjob) hmodel
  refine ⟨List.mem_map_of_mem (List.mem_filter.mpr ⟨hjob, decide_eq_true hmodel⟩), hover, ?_⟩
  exact Option.isNone_iff_eq_none.mp hdead

/-! ### The calls of the database -/

/-- The catalog changes by calls of the database. -/
theorem step_calls (hl : Linked t) (hs : step sha256 t a = some t') {db : Database}
    (hdb : db.modelCatalog = t.store.catalog) :
    ∃ calls db', exec Database.call db calls = some db' ∧ db'.modelCatalog = t'.store.catalog := by
  have hinsert : ∀ row, Fresh t.store row → t'.store.catalog = t.store.catalog ++ [row] →
      ∃ calls db', exec Database.call db calls = some db' ∧ db'.modelCatalog = t'.store.catalog := by
    intro row hfresh hcatalog
    have hguard : ¬ db.modelCatalog.any fun n => n.id = row.id ∨ n.nickname = row.nickname := by
      rw [hdb, List.any_eq_true]
      rintro ⟨found, hfound, hsame⟩
      rcases of_decide_eq_true hsame with hid | hnickname
      · exact hfresh.1 (hid ▸ List.mem_map_of_mem hfound)
      · exact hfresh.2 (hnickname ▸ List.mem_map_of_mem hfound)
    refine ⟨[.insertModel row], { db with modelCatalog := db.modelCatalog ++ [row] }, ?_, ?_⟩
    · rw [exec_singleton]
      show some (commit db (db.insertModel row)) = _
      unfold Database.insertModel
      rw [if_neg hguard]
      rfl
    · rw [hcatalog, ← hdb]
  have hupdate : ∀ m state path,
      t'.store.catalog = Table.modify CatalogModel.id m (setState state path) t.store.catalog →
      ∃ calls db', exec Database.call db calls = some db' ∧ db'.modelCatalog = t'.store.catalog := by
    intro m state path hcatalog
    refine ⟨[.updateModel m state path], db.updateModel m state path, rfl, ?_⟩
    rw [hcatalog, ← hdb]
    rfl
  have hsame : t'.store.catalog = t.store.catalog →
      ∃ calls db', exec Database.call db calls = some db' ∧ db'.modelCatalog = t'.store.catalog :=
    fun h => ⟨[], db, rfl, hdb.trans h.symm⟩
  have hwrite : ∀ {j}, JobWrite j t.store t'.store →
      ∃ calls db', exec Database.call db calls = some db' ∧ db'.modelCatalog = t'.store.catalog := by
    rintro j ⟨row, state, path, _, -, hcatalog, -⟩
    exact hupdate row.modelId state path hcatalog
  cases step_effect hl hs with
  | unchanged store => exact hsame store.1
  | created row _ fresh catalog | cloned row fresh catalog => exact hinsert row fresh catalog
  | disabled m catalog => exact hupdate m _ _ catalog
  | retried _ store => exact hwrite store
  | moved _ _ _ _ store => exact store.store.elim (fun h => hsame h.1) hwrite
  | restarted catalog => exact hsame catalog

/-- After every run the catalog is one that the calls of the database reach; in
particular its ids and its nicknames are distinct. -/
theorem run_stored {acts : List (Act κ)} (h : exec (step sha256) {} acts = some t) :
    ∃ db, Database.Stored db ∧ db.modelCatalog = t.store.catalog := by
  let I : State κ → Prop := fun t => Linked t ∧
    ∃ calls db, exec Database.call {} calls = some db ∧ db.modelCatalog = t.store.catalog
  have hempty : I {} := ⟨⟨List.nodup_nil, fun _ _ h => nomatch h⟩, [], {}, rfl, rfl⟩
  obtain ⟨-, calls, db, hcalls, hdb⟩ : I t := by
    refine exec_invariant (fun t a t' ht hs => ?_) hempty h
    obtain ⟨hl, calls, db, hcalls, hdb⟩ := ht
    obtain ⟨more, db', hmore, hdb'⟩ := step_calls hl hs hdb
    exact ⟨linked_step hl hs, calls ++ more, db', (exec_append _).mpr ⟨db, hcalls, hmore⟩, hdb'⟩
  exact ⟨db, Database.stored_of_calls hcalls, hdb⟩

/-! ### A disable and the registrations of its model -/

/-- **When a disable survives the registrations.** In any run of the service,
with its restarts, a model stays DISABLED after it has been disabled, whatever
happens until staff retry one of its jobs, if and only if at that moment no job
of it is QUEUED or RUNNING and no task of a job of it is alive. -/
theorem disable_survives (sha256 : ProfileIdentity → κ) {pre : List (Act κ)} {u : State κ}
    (hpre : exec (step sha256) {} pre = some u) (m : ModelId) (hm : u.store.hasModel m = true) :
    (∀ post t, (∀ job ∈ u.store.modelJobs, job.modelId = m → Act.retry job.id ∉ post) →
      exec (step sha256) u (.disable m :: post) = some t → t.store.catalogState m = some .disabled) ↔
      settled m u = true := by
  have hu : Reached u := reached_of_run hpre
  constructor
  · intro hstays
    by_contra hunsettled
    obtain ⟨post, t, hretry, hrun, hstate⟩ :=
      unsettled_writes sha256 hu hm (Bool.eq_false_iff.mpr hunsettled)
    rw [hstays post t (fun job _ _ => hretry job.id) hrun] at hstate
    cases hstate
  · intro hsettled post t hretry hrun
    let ids := (u.store.modelJobs.filter (·.modelId = m)).map (·.id)
    obtain ⟨u1, hdisable, hrun⟩ := (exec_cons _).mp hrun
    have hstart : Linked u1 ∧ Disabled m ids u1 := by
      refine ⟨linked_step hu.linked hdisable, ?_⟩
      exact disabled_of_settled hm hsettled hdisable
    have hpost : ∀ j ∈ ids, Act.retry j ∉ post := by
      intro j hj
      obtain ⟨job, hjob, rfl⟩ := List.mem_map.mp hj
      obtain ⟨hjob, hmodel⟩ := List.mem_filter.mp hjob
      exact hretry job hjob (of_decide_eq_true hmodel)
    have hend : Linked t ∧ Disabled m ids t := by
      refine exec_invariant_mem (I := fun s => Linked s ∧ Disabled m ids s) (fun s a s' ha hI hs => ?_) hstart hrun
      exact ⟨linked_step hI.1 hs, disabled_step hI.1 hI.2 (fun j he hj => hpost j hj (he ▸ ha)) hs⟩
    exact hend.2.state

end

/-- A model is requested on a new machine; its job goes on as the outcomes say. -/
def requested (outcomes : List Outcome) : List (Act ProfileIdentity) :=
  [.restart "host", .register "m" "j" "chat" "org/chat" none "staff" [] []] ++ outcomes.map (.task "j")

/-- The repository cannot be read, and the failure is recorded. -/
def failedRegistration : List (Act ProfileIdentity) :=
  requested [.ok, .ok, .raised ⟨"resolve", "not found"⟩, .ok]

theorem disable_survives_failed : ∃ u, exec (step id) {} failedRegistration = some u ∧
    ∀ post t, (∀ job ∈ u.store.modelJobs, job.modelId = "m" → Act.retry job.id ∉ post) →
      exec (step id) u (.disable "m" :: post) = some t → t.store.catalogState "m" = some .disabled := by
  have hrun : exec (step id) {} failedRegistration = some _ := rfl
  exact ⟨_, hrun, (disable_survives id hrun "m" (by decide)).mpr (by decide)⟩

/-- What a probe with one GPU measures. -/
def measuredProfile : VerifiedProfile :=
  { id := "p", modelId := "m", engine := .vllm, gpuCount := 1, eligibleGpuSets := [["g"]],
    predictedTokensPerSecond := 1, loadAndWarmupSeconds := 1, idleVramMibPerGpu := [], peakVramMibPerGpu := [],
    gpuHeadroomMibPerGpu := [], gpuMemoryUtilization := 1, modelRevision := "", engineVersion := "1",
    machineFingerprint := "", tensorParallelSize := 1, maxModelLen := 4096 }

/-- The job of the model is in its first probe. -/
def probing : List (Act ProfileIdentity) :=
  requested [.ok, .ok, .resolved ⟨"main", 1, []⟩, .ok, .downloaded "path" ⟨[], 4096⟩ [1], .ok, .ok]

/-- A model that is disabled during the probe of its registration is AVAILABLE
when the probe has passed. -/
theorem disabled_then_available :
    ¬ ∀ (pre post : List (Act ProfileIdentity)) (u t : State ProfileIdentity) (m : ModelId),
      exec (step id) {} pre = some u → u.store.hasModel m = true →
      (∀ job ∈ u.store.modelJobs, job.modelId = m → Act.retry job.id ∉ post) →
      exec (step id) u (.disable m :: post) = some t → t.store.catalogState m = some .disabled := by
  intro h
  let post : List (Act ProfileIdentity) := [.task "j" (.measured [measuredProfile]), .task "j" .ok]
  have hpre : exec (step id) {} probing = some _ := rfl
  have hretry : ∀ j, Act.retry j ∉ post := by
    intro j hj
    rcases List.mem_cons.mp hj with h | hj
    · cases h
    · cases List.mem_singleton.mp hj
  have hstate := h probing post _ _ "m" hpre (by decide) (fun job _ _ => hretry job.id) rfl
  revert hstate
  decide

end Registration
end LlmRio
