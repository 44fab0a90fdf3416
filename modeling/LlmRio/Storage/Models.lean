/-
# The models, their jobs and their profiles

The tables `model_catalog`, `model_jobs`, `model_profiles` and `model_grants`
with the statements of `storage.py`, `profiles.py` and the final transaction of
`registration.py` on them. The catalog rows are those of `Database`, with the
columns that only these functions read.

`profile_key` hashes the fields that identify a profile; the hash is a
parameter `sha256`. A JSON column is the record that it encodes, and
`launch_args` is its text. What a function reads before its transaction is the
argument `seen`, the store at that time.

Key definitions: `VerifiedProfile`, `ModelStore`, `updateModelJob`,
`completeRegistration`, `cloneModel`, `updateProfile`, `setActive`.
Key theorems: `createModelJob_ok`, `updateModelJob_ok`,
`completeRegistration_ok`, `cloneModel_ok`, `updateModelProfile_same`.
-/
import LlmRio.Storage.Schema
import LlmRio.Lib.Transactions
import Mathlib.Data.List.Sort
import Mathlib.Data.Rat.Floor

namespace LlmRio

open Transactions

abbrev JobId := String
abbrev ProfileId := String

/-! ### The tables -/

/-- `PlacementProfile` with the fields that the scheduler does not read. -/
structure VerifiedProfile extends PlacementProfile where
  modelRevision : String
  engineVersion : String
  machineFingerprint : String
  tensorParallelSize : ℕ
  pipelineParallelSize : ℕ := 1
  dtype : String := "auto"
  quantization : Option String := none
  maxModelLen : ℤ
  maxNumSeqs : Option ℕ := none
  maxNumBatchedTokens : Option ℕ := none
  capabilities : List String := []
  launchArgs : String := "\x7b\x7d"
deriving DecidableEq

/-- The identifying fields of `profile_key` that a profile has. -/
structure ProfileIdentity where
  modelRevision : String
  modelId : ModelId
  engine : Engine
  engineVersion : String
  machineFingerprint : String
  gpuCount : ℕ
  tensorParallelSize : ℕ
  pipelineParallelSize : ℕ
  dtype : String
  quantization : Option String
  maxModelLen : ℤ
  maxNumSeqs : Option ℕ
  maxNumBatchedTokens : Option ℕ
  gpuMemoryUtilization : ℚ
  eligibleGpuSets : List (List GpuUuid)
  launchArgs : String
  memoryBackend : String
deriving DecidableEq

def VerifiedProfile.identity (p : VerifiedProfile) : ProfileIdentity where
  modelRevision := p.modelRevision
  modelId := p.modelId
  engine := p.engine
  engineVersion := p.engineVersion
  machineFingerprint := p.machineFingerprint
  gpuCount := p.gpuCount
  tensorParallelSize := p.tensorParallelSize
  pipelineParallelSize := p.pipelineParallelSize
  dtype := p.dtype
  quantization := p.quantization
  maxModelLen := p.maxModelLen
  maxNumSeqs := p.maxNumSeqs
  maxNumBatchedTokens := p.maxNumBatchedTokens
  gpuMemoryUtilization := p.gpuMemoryUtilization
  eligibleGpuSets := p.eligibleGpuSets
  launchArgs := p.launchArgs
  memoryBackend := p.memoryBackend

inductive JobState | queued | running | completed | failed
deriving DecidableEq, Repr

/-- `progress_json`; `inspected` is the max_model_len of the inspection. -/
inductive JobProgress
  | none | downloadBytes (n : ℕ) | inspected (maxModelLen : ℤ) | gpuCount (n : ℕ) | profiles (n : ℕ)
deriving DecidableEq, Repr

structure JobFailure where
  stage : String
  message : String
deriving DecidableEq, Repr

structure ModelJob where
  id : JobId
  modelId : ModelId
  state : JobState
  stage : String
  progress : JobProgress := .none
  failure : Option JobFailure := none
  requestedGrants : List KeyId := []
deriving DecidableEq, Repr

/-- A downloaded file of a model. -/
structure Artifact where
  path : String
  bytes : ℕ
  digest : Option String
deriving DecidableEq, Repr

/-- A row of `model_catalog`; `max_context_tokens` is the one request limit. -/
structure CatalogRow extends CatalogModel where
  huggingfaceRepo : String
  requestedRevision : Option String := none
  resolvedRevision : Option String := none
  artifactHashes : List Artifact := []
  capabilities : List String := []
  maxContextTokens : Option ℤ := none
  requestDefaults : String → Option String := fun _ => none
  sourceModelId : Option ModelId := none
  createdByKeyId : KeyId

structure ProfileRow (κ : Type) where
  id : ProfileId
  modelId : ModelId
  machineFingerprint : String
  profileKey : κ
  profileJson : VerifiedProfile
  active : Bool := true

structure ModelStore (κ : Type) where
  modelCatalog : List CatalogRow := []
  modelJobs : List ModelJob := []
  modelProfiles : List (ProfileRow κ) := []
  modelGrants : List (KeyId × ModelId) := []
  /-- The machine of `service_state`. -/
  machineFingerprint : Option String := none

inductive ModelError
  | integrityError
  | modelNotFound | jobNotFound | profileNotFound
  | grantKeyNotFound (missing : List KeyId)
  | noProfiles
  | sourceModelUnavailable | modelArtifactMissing | modelVerificationRequired
  | yarnRequiresVllm | yarnUnavailable | invalidYarnContext (expected : ℤ)
deriving DecidableEq

/-- `x or y` -/
def orElseInt (x : Option ℤ) (y : ℤ) : ℤ := if x.getD 0 = 0 then y else x.getD 0

/-- `round(x)`: a tie goes to the even integer. -/
def roundHalfEven (x : ℚ) : ℤ :=
  let rest := x - x.floor
  if rest < 1 / 2 ∨ (rest = 1 / 2 ∧ x.floor % 2 = 0) then x.floor else x.floor + 1

namespace ModelStore

variable {κ : Type}

section tables

variable (s : ModelStore κ)

/-- The catalog as the other calls see it. -/
def catalog : List CatalogModel := s.modelCatalog.map (·.toCatalogModel)

def model? (id : ModelId) : Option CatalogRow := Table.lookup (·.id) id s.modelCatalog

def job? (id : JobId) : Option ModelJob := Table.lookup ModelJob.id id s.modelJobs

def hasModel (id : ModelId) : Bool := s.modelCatalog.any (·.id = id)

def catalogState (id : ModelId) : Option CatalogState := (s.model? id).map (·.state)

/-! ### Jobs -/

def insertModel (row : CatalogRow) : Except ModelError (ModelStore κ) :=
  if s.modelCatalog.any fun m => m.id = row.id ∨ m.nickname = row.nickname then .error .integrityError
  else .ok { s with modelCatalog := s.modelCatalog ++ [row] }

def insertJob (job : ModelJob) : Except ModelError (ModelStore κ) :=
  if (s.modelJobs.any fun j => j.id = job.id) ∨ ¬ s.hasModel job.modelId then .error .integrityError
  else .ok { s with modelJobs := s.modelJobs ++ [job] }

/-- `create_model_job`; `activeKeys` are the keys that can be granted. -/
def createModelJob (modelId : ModelId) (jobId : JobId) (nickname repo : String) (revision : Option String)
    (creatorKeyId : KeyId) (grantKeyIds activeKeys : List KeyId) : Except ModelError (ModelStore κ) :=
  if grantKeyIds.filter (· ∉ activeKeys) ≠ [] then .error (.grantKeyNotFound (grantKeyIds.filter (· ∉ activeKeys)))
  else do
    let s ← s.insertModel
      { id := modelId, nickname := nickname, state := .requested, huggingfaceRepo := repo,
        requestedRevision := revision, createdByKeyId := creatorKeyId }
    s.insertJob
      { id := jobId, modelId := modelId, state := .queued, stage := "resolve", requestedGrants := grantKeyIds }

/-- The keyword arguments of `update_model_job`. -/
structure JobUpdate where
  jobState : JobState
  stage : String
  catalogState : CatalogState
  progress : JobProgress := .none
  failure : Option JobFailure := none
  resolvedRevision : Option String := none
  artifactPath : Option String := none
  capabilities : Option (List String) := none

def updateModelJob (jobId : JobId) (u : JobUpdate) : Except ModelError (ModelStore κ) :=
  match s.job? jobId with
  | none => .error .jobNotFound
  | some job =>
    .ok { s with
      modelJobs := Table.modify ModelJob.id jobId
        (fun j => { j with state := u.jobState, stage := u.stage, progress := u.progress, failure := u.failure })
        s.modelJobs
      modelCatalog := Table.modify (·.id) job.modelId
        (fun m => { m with
          state := u.catalogState
          resolvedRevision := u.resolvedRevision.or m.resolvedRevision
          artifactPath := u.artifactPath.or m.artifactPath
          capabilities := u.capabilities.getD m.capabilities })
        s.modelCatalog }

/-- `disable_model`; the flag is False when there is no such model. -/
def disableModel (modelId : ModelId) : ModelStore κ × Bool :=
  ({ s with modelCatalog := Table.modify (·.id) modelId (fun m => { m with state := .disabled }) s.modelCatalog },
    s.hasModel modelId)

/-- What `recover_orphaned_state` does to the jobs: `stage LIKE 'validat%'` does
not tell the case of letters. -/
def recoverJobs : ModelStore κ :=
  { s with
    modelJobs := s.modelJobs.map fun j =>
      if j.state = .running ∧ j.stage.toLower.startsWith "validat" then
        { j with state := .queued, stage := "validation_requeued" }
      else j }

/-! ### Profiles -/

/-- The rows of `model_profiles` of a model on a machine that are active. -/
def activeRows (fingerprint : String) (modelId : ModelId) : List (ProfileRow κ) :=
  s.modelProfiles.filter fun r => r.modelId = modelId ∧ r.machineFingerprint = fingerprint ∧ r.active

/-- `UPDATE model_profiles SET active = ? WHERE ..` -/
def setActiveWhere (p : ProfileRow κ → Bool) (active : Bool) : ModelStore κ :=
  { s with modelProfiles := s.modelProfiles.map fun r => if p r then { r with active := active } else r }

/-- No profile of the model on the machine is active. -/
def deactivate (fingerprint : String) (modelId : ModelId) : ModelStore κ :=
  s.setActiveWhere (fun r => r.modelId = modelId ∧ r.machineFingerprint = fingerprint) false

/-- The statements that keep the limit of a model in sync: nothing changes when
it has no active profile. -/
def syncContextLimit (fingerprint : String) (modelId : ModelId) : ModelStore κ :=
  let lengths := (s.activeRows fingerprint modelId).map (·.profileJson.maxModelLen)
  if lengths = [] then s
  else
    { s with
      modelCatalog := Table.modify (·.id) modelId (fun m => { m with maxContextTokens := lengths.min? })
        s.modelCatalog }

structure StoredProfile where
  profile : VerifiedProfile
  active : Bool

/-- `ORDER BY active DESC, gpu_count, predicted_tokens_per_second DESC` -/
def recordBefore (r t : ProfileRow κ) : Bool :=
  t.active < r.active ∨ (t.active = r.active ∧ (r.profileJson.gpuCount < t.profileJson.gpuCount ∨
    (r.profileJson.gpuCount = t.profileJson.gpuCount ∧
      t.profileJson.predictedTokensPerSecond ≤ r.profileJson.predictedTokensPerSecond)))

def recordsForModel (fingerprint : String) (modelId : ModelId) : List StoredProfile :=
  ((s.modelProfiles.filter fun r => r.modelId = modelId ∧ r.machineFingerprint = fingerprint).insertionSort
    fun r t => recordBefore r t).map fun r =>
      { profile := { r.profileJson with id := r.id, machineFingerprint := fingerprint }, active := r.active }

/-- `set_active`; the flag is False when there is no such row. -/
def setActive (fingerprint : String) (modelId : ModelId) (profileId : ProfileId) (active : Bool) :
    ModelStore κ × Bool :=
  let selected : ProfileRow κ → Bool := fun r =>
    r.id = profileId ∧ r.modelId = modelId ∧ r.machineFingerprint = fingerprint
  if s.modelProfiles.any selected then
    ((s.setActiveWhere selected active).syncContextLimit fingerprint modelId, true)
  else (s, false)

/-- `set_machine_fingerprint`, with the machine before. -/
def setMachineFingerprint (fingerprint : String) : ModelStore κ × Option String :=
  let moved := s.machineFingerprint.any fun previous => previous ≠ "" ∧ previous ≠ fingerprint
  let s' := if moved then s.setActiveWhere (fun r => r.machineFingerprint ≠ fingerprint) false else s
  ({ s' with machineFingerprint := some fingerprint }, s.machineFingerprint)

end tables

/-! ### Registrations, clones and edits -/

variable [DecidableEq κ] (sha256 : ProfileIdentity → κ) (s : ModelStore κ)

/-- The row that an INSERT of a profile has. -/
def profileRow (p : VerifiedProfile) : ProfileRow κ where
  id := p.id
  modelId := p.modelId
  machineFingerprint := p.machineFingerprint
  profileKey := sha256 p.identity
  profileJson := p

def insertProfile (row : ProfileRow κ) : Except ModelError (ModelStore κ) :=
  if (s.modelProfiles.any fun r => r.id = row.id ∨ r.profileKey = row.profileKey) ∨ ¬ s.hasModel row.modelId then
    .error .integrityError
  else .ok { s with modelProfiles := s.modelProfiles ++ [row] }

/-- The INSERT of a verified profile: ON CONFLICT(profile_key) the row with that
key gets the new profile under its old id, and is active again, whether or not
there is a row with the new one's id. -/
def upsertProfile (p : VerifiedProfile) : Except ModelError (ModelStore κ) :=
  if s.modelProfiles.any fun r => r.profileKey = sha256 p.identity then
    .ok { s with
      modelProfiles := Table.modify ProfileRow.profileKey (sha256 p.identity)
        (fun r => { r with profileJson := { p with id := r.id }, active := true }) s.modelProfiles }
  else s.insertProfile (profileRow sha256 p)

/-- The final transaction of a registration. `job` and `resolved` are what the
task has read before. -/
def completeRegistration (fingerprint : String) (job : ModelJob) (resolvedRevision : String)
    (artifactHashes : List Artifact) (artifactPath : String) (profiles : List VerifiedProfile) :
    Except ModelError (ModelStore κ) :=
  if profiles = [] then .error .noProfiles
  else do
    let s ← profiles.foldlM (upsertProfile sha256) (s.deactivate fingerprint job.modelId)
    pure { s with
      modelCatalog := Table.modify (·.id) job.modelId
        (fun m => { m with
          state := .available
          resolvedRevision := some resolvedRevision
          artifactPath := some artifactPath
          artifactHashes := artifactHashes
          capabilities := (profiles.map (·.capabilities)).foldl (fun cs ds => cs.filter (· ∈ ds))
            ((profiles.head?.map (·.capabilities)).getD [])
          maxContextTokens := (profiles.map (·.maxModelLen)).min? })
        s.modelCatalog
      modelGrants := job.requestedGrants.foldl
        (fun grants k => if (k, job.modelId) ∈ grants then grants else grants ++ [(k, job.modelId)]) s.modelGrants
      modelJobs := Table.modify ModelJob.id job.id
        (fun j => { j with state := .completed, stage := "complete", progress := .profiles profiles.length })
        s.modelJobs }

structure CloneRequest where
  nickname : String
  creatorKeyId : KeyId
  requestDefaults : String → Option String := fun _ => none
  maxModelLen : Option ℤ := none
  yarnFactor : Option ℚ := none
  yarnOriginalMaxModelLen : Option ℤ := none
  inheritGrants : Bool := true

/-- What the config of the artifact says about its rope: the number of positions
it declares, and the launch arguments of an extension to a length. -/
structure RopeConfiguration where
  maxPositionEmbeddings : Except ModelError ℤ
  yarnLaunchArgs : String → ℤ → Except ModelError String

/-- The length that the clone's profiles get; `none` leaves each its own. -/
def cloneMaxModelLen (request : CloneRequest) (native : ℤ) : Except ModelError (Option ℤ) :=
  match request.yarnFactor with
  | none => .ok request.maxModelLen
  | some factor =>
    let extended : ℚ := orElseInt request.yarnOriginalMaxModelLen native * factor
    match request.maxModelLen with
    | none => .ok (some (roundHalfEven extended))
    | some n => if |n - extended| ≤ 1 then .ok (some n) else .error (.invalidYarnContext (roundHalfEven extended))

/-- The native length of the model, which only YaRN reads. -/
def nativeMaxModelLen (rope : RopeConfiguration) (request : CloneRequest) : Except ModelError ℤ :=
  if request.yarnFactor.isSome then rope.maxPositionEmbeddings else .ok 0

def clonedLaunchArgs (rope : RopeConfiguration) (request : CloneRequest) (launchArgs : String) (target : ℤ) :
    Except ModelError String :=
  if request.yarnFactor.isSome then rope.yarnLaunchArgs launchArgs target else .ok launchArgs

/-- The profile of the clone that is made from one of the source. -/
def clonedProfile (rope : RopeConfiguration) (request : CloneRequest) (modelId : ModelId)
    (newId : ProfileId → ProfileId) (maxModelLen : Option ℤ) (p : VerifiedProfile) :
    Except ModelError VerifiedProfile := do
  let target := orElseInt maxModelLen p.maxModelLen
  let launchArgs ← clonedLaunchArgs rope request p.launchArgs target
  pure { p with id := newId p.id, modelId := modelId, maxModelLen := target, launchArgs := launchArgs }

/-- `clone_model`, of a `source` row that has been read before; `seen` is the
store when its profiles are read. -/
def cloneModel (seen : ModelStore κ) (fingerprint : String) (source : CatalogRow) (modelId : ModelId)
    (newId : ProfileId → ProfileId) (rope : RopeConfiguration) (request : CloneRequest) :
    Except ModelError (ModelStore κ) :=
  let records := (seen.recordsForModel fingerprint source.id).filter (·.active)
  if source.state ≠ .available then .error .sourceModelUnavailable
  else if source.artifactPath.getD "" = "" then .error .modelArtifactMissing
  else if records.isEmpty then .error .modelVerificationRequired
  else if request.yarnFactor.isSome ∧ records.any (·.profile.engine ≠ .vllm) then .error .yarnRequiresVllm
  else do
    let native ← nativeMaxModelLen rope request
    let maxModelLen ← cloneMaxModelLen request native
    let cloned ← records.mapM fun r => clonedProfile rope request modelId newId maxModelLen r.profile
    let s ← s.insertModel { source with
      id := modelId
      nickname := request.nickname
      state := .available
      maxContextTokens := (cloned.map (·.maxModelLen)).min?
      requestDefaults := fun k => (request.requestDefaults k).or (source.requestDefaults k)
      sourceModelId := some source.id
      createdByKeyId := request.creatorKeyId }
    let s ← cloned.foldlM (fun s p => insertProfile s (profileRow sha256 p)) s
    pure { s with
      modelGrants :=
        if request.inheritGrants then
          s.modelGrants ++ (s.modelGrants.filter (·.2 = source.id)).map fun g => (g.1, modelId)
        else s.modelGrants }

/-- `ProfileRepository.update`; the flag is False when there is no such row. -/
def updateProfile (fingerprint : String) (profile : VerifiedProfile) (makeDefault : Bool) :
    Except ModelError (ModelStore κ × Bool) :=
  match s.modelProfiles.find? fun r =>
    r.id = profile.id ∧ r.modelId = profile.modelId ∧ r.machineFingerprint = fingerprint with
  | none => .ok (s, false)
  | some existing =>
    let s := if makeDefault then s.deactivate fingerprint profile.modelId else s
    if s.modelProfiles.any fun r => r.id ≠ profile.id ∧ r.profileKey = sha256 profile.identity then
      .error .integrityError
    else
      let s := { s with
        modelProfiles := Table.modify ProfileRow.id profile.id
          (fun r => { r with
            profileKey := sha256 profile.identity
            profileJson := profile
            active := makeDefault || existing.active })
          s.modelProfiles }
      .ok (s.syncContextLimit fingerprint profile.modelId, true)

/-- The values that an edit gives the fields that it may replace. -/
structure ProfileEdit where
  engine : Engine
  gpuCount : ℕ
  tensorParallelSize : ℕ
  eligibleGpuSets : List (List GpuUuid)
  idleVramMibPerGpu : List ℤ
  peakVramMibPerGpu : List ℤ
  gpuHeadroomMibPerGpu : List ℤ
  dtype : String
  quantization : Option String
  maxModelLen : ℤ
  maxNumSeqs : Option ℕ
  maxNumBatchedTokens : Option ℕ
  gpuMemoryUtilization : ℚ
  launchArgs : String

def ProfileEdit.apply (e : ProfileEdit) (p : VerifiedProfile) : VerifiedProfile :=
  { p with
    engine := e.engine
    gpuCount := e.gpuCount
    tensorParallelSize := e.tensorParallelSize
    eligibleGpuSets := e.eligibleGpuSets
    idleVramMibPerGpu := e.idleVramMibPerGpu
    peakVramMibPerGpu := e.peakVramMibPerGpu
    gpuHeadroomMibPerGpu := e.gpuHeadroomMibPerGpu
    dtype := e.dtype
    quantization := e.quantization
    maxModelLen := e.maxModelLen
    maxNumSeqs := e.maxNumSeqs
    maxNumBatchedTokens := e.maxNumBatchedTokens
    gpuMemoryUtilization := e.gpuMemoryUtilization
    launchArgs := e.launchArgs }

/-- `update_model_profile` of the admin routes: the edit of a record that it has
read when the store was `seen`. -/
def updateModelProfile (seen : ModelStore κ) (fingerprint : String) (modelId : ModelId) (profileId : ProfileId)
    (edit : ProfileEdit) (makeDefault : Bool) : Except ModelError (ModelStore κ × Bool) :=
  match (seen.recordsForModel fingerprint modelId).find? (·.profile.id = profileId) with
  | none => .error .profileNotFound
  | some selected => s.updateProfile sha256 fingerprint (edit.apply selected.profile) makeDefault

/-! ### What the calls write to the catalog and the jobs -/

/-- The columns of the catalog that the other calls read. -/
def setState (state : CatalogState) (artifactPath : Option String) (m : CatalogModel) : CatalogModel :=
  { m with state := state, artifactPath := artifactPath.or m.artifactPath }

section writes

omit [DecidableEq κ]

variable {s s' : ModelStore κ} {m : ModelId} {j : JobId}

theorem catalog_modify {f : CatalogRow → CatalogRow} {g : CatalogModel → CatalogModel}
    (hfg : ∀ row, (f row).toCatalogModel = g row.toCatalogModel) (rows : List CatalogRow) :
    (Table.modify (·.id) m f rows).map (·.toCatalogModel) =
      Table.modify CatalogModel.id m g (rows.map (·.toCatalogModel)) := by
  unfold Table.modify
  rw [List.map_map, List.map_map]
  refine List.map_congr_left fun row _ => ?_
  simp only [Function.comp_apply]
  split
  · exact hfg row
  · rfl

theorem catalogState_eq (s : ModelStore κ) (m : ModelId) :
    s.catalogState m = (Table.lookup CatalogModel.id m s.catalog).map (·.state) := by
  unfold catalogState model? catalog Table.lookup
  rw [List.find?_map, Option.map_map]
  rfl

theorem ids_catalog (s : ModelStore κ) : s.catalog.map (·.id) = s.modelCatalog.map (·.id) := List.map_map

theorem insertModel_ok {row : CatalogRow} (hok : s.insertModel row = .ok s') :
    row.id ∉ s.catalog.map (·.id) ∧ row.nickname ∉ s.catalog.map (·.nickname) ∧
      s' = { s with modelCatalog := s.modelCatalog ++ [row] } := by
  unfold insertModel at hok
  obtain ⟨hguard, hok⟩ := guard_eq_ok.mp hok
  have hfresh : ∀ r ∈ s.modelCatalog, r.id ≠ row.id ∧ r.nickname ≠ row.nickname := by
    intro r hr
    rw [← not_or]
    exact fun hsame => hguard (List.any_eq_true.mpr ⟨r, hr, decide_eq_true hsame⟩)
  refine ⟨fun hin => ?_, fun hin => ?_, (Except.ok.inj hok).symm⟩
  all_goals
    unfold catalog at hin
    rw [List.map_map] at hin
    obtain ⟨r, hr, hsame⟩ := List.mem_map.mp hin
  · exact (hfresh r hr).1 hsame
  · exact (hfresh r hr).2 hsame

theorem createModelJob_ok {nickname repo : String} {revision : Option String} {creator : KeyId}
    {grants keys : List KeyId} (hok : s.createModelJob m j nickname repo revision creator grants keys = .ok s') :
    (m ∉ s.catalog.map (·.id) ∧ nickname ∉ s.catalog.map (·.nickname) ∧
      s'.catalog = s.catalog ++ [{ id := m, nickname := nickname, state := .requested }]) ∧
    (j ∉ s.modelJobs.map (·.id) ∧ s'.modelJobs = s.modelJobs ++
      [{ id := j, modelId := m, state := .queued, stage := "resolve", requestedGrants := grants }]) ∧
    s'.modelProfiles = s.modelProfiles ∧ s'.machineFingerprint = s.machineFingerprint := by
  unfold createModelJob at hok
  obtain ⟨-, hok⟩ := guard_eq_ok.mp hok
  obtain ⟨t, hmodel, hjob⟩ := bind_eq_ok.mp hok
  obtain ⟨hid, hnickname, rfl⟩ := insertModel_ok hmodel
  unfold insertJob at hjob
  obtain ⟨hguard, hjob⟩ := guard_eq_ok.mp hjob
  obtain rfl := Except.ok.inj hjob
  refine ⟨⟨hid, hnickname, List.map_append⟩, ⟨fun hin => hguard (.inl ?_), rfl⟩, rfl, rfl⟩
  obtain ⟨job, hjob, hsame⟩ := List.mem_map.mp hin
  exact List.any_eq_true.mpr ⟨job, hjob, decide_eq_true hsame⟩

theorem updateModelJob_ok {u : JobUpdate} (hok : s.updateModelJob j u = .ok s') :
    ∃ job, s.job? j = some job ∧
      s'.catalog = Table.modify CatalogModel.id job.modelId (setState u.catalogState u.artifactPath) s.catalog ∧
      s'.modelJobs = Table.modify ModelJob.id j
        (fun j => { j with state := u.jobState, stage := u.stage, progress := u.progress, failure := u.failure })
        s.modelJobs ∧
      s'.machineFingerprint = s.machineFingerprint := by
  unfold updateModelJob at hok
  split at hok
  · cases hok
  · rename_i job hjob
    obtain rfl := Except.ok.inj hok
    exact ⟨job, hjob, catalog_modify (fun _ => rfl) _, rfl, rfl⟩

theorem disableModel_catalog (s : ModelStore κ) (m : ModelId) :
    (s.disableModel m).1.catalog = Table.modify CatalogModel.id m (setState .disabled none) s.catalog :=
  catalog_modify (fun _ => rfl) _

/-- The catalog, the jobs and the machine are as before. -/
def SameJobs (s s' : ModelStore κ) : Prop :=
  s'.catalog = s.catalog ∧ s'.modelJobs = s.modelJobs ∧ s'.machineFingerprint = s.machineFingerprint

theorem SameJobs.refl (s : ModelStore κ) : SameJobs s s := ⟨rfl, rfl, rfl⟩

theorem syncContextLimit_same (s : ModelStore κ) (fp : String) (m : ModelId) :
    SameJobs s (s.syncContextLimit fp m) := by
  unfold syncContextLimit
  simp only
  split
  · exact ⟨rfl, rfl, rfl⟩
  · refine ⟨?_, rfl, rfl⟩
    unfold catalog Table.modify
    rw [List.map_map]
    refine List.map_congr_left fun row _ => ?_
    simp only [Function.comp_apply]
    split <;> rfl

theorem setActive_same (s : ModelStore κ) (fp : String) (m : ModelId) (p : ProfileId) (active : Bool) :
    SameJobs s (s.setActive fp m p active).1 := by
  unfold setActive
  simp only
  split
  · exact syncContextLimit_same _ fp m
  · exact ⟨rfl, rfl, rfl⟩

theorem setMachineFingerprint_jobs (s : ModelStore κ) (fp : String) :
    (s.setMachineFingerprint fp).1.catalog = s.catalog ∧ (s.setMachineFingerprint fp).1.modelJobs = s.modelJobs := by
  unfold setMachineFingerprint
  simp only
  split <;> exact ⟨rfl, rfl⟩

/-- What each statement of a loop over profiles leaves, the loop leaves. -/
theorem foldlM_same {f : ModelStore κ → VerifiedProfile → Except ModelError (ModelStore κ)}
    (hf : ∀ s p s', f s p = .ok s' → SameJobs s s') :
    ∀ {ps : List VerifiedProfile} {s : ModelStore κ}, ps.foldlM f s = .ok s' → SameJobs s s'
  | [], s, hok => by
    obtain rfl := Except.ok.inj hok
    exact ⟨rfl, rfl, rfl⟩
  | p :: ps, s, hok => by
    obtain ⟨t, hp, hrest⟩ := foldlM_cons_eq_ok.mp hok
    obtain ⟨hcatalog, hjobs, hmachine⟩ := hf s p t hp
    obtain ⟨hcatalog', hjobs', hmachine'⟩ := foldlM_same hf hrest
    exact ⟨hcatalog'.trans hcatalog, hjobs'.trans hjobs, hmachine'.trans hmachine⟩

end writes

section profiles

variable {sha256 : ProfileIdentity → κ} {s s' : ModelStore κ} {m : ModelId} {fp : String}

theorem insertProfile_same {row : ProfileRow κ} (hok : s.insertProfile row = .ok s') : SameJobs s s' := by
  unfold insertProfile at hok
  obtain ⟨-, hok⟩ := guard_eq_ok.mp hok
  obtain rfl := Except.ok.inj hok
  exact ⟨rfl, rfl, rfl⟩

theorem upsertProfile_same {p : VerifiedProfile} (hok : s.upsertProfile sha256 p = .ok s') : SameJobs s s' := by
  unfold upsertProfile at hok
  split at hok
  · obtain rfl := Except.ok.inj hok
    exact ⟨rfl, rfl, rfl⟩
  · exact insertProfile_same hok

theorem completeRegistration_ok {job : ModelJob} {revision path : String} {hashes : List Artifact}
    {ps : List VerifiedProfile} (hok : s.completeRegistration sha256 fp job revision hashes path ps = .ok s') :
    s'.catalog = Table.modify CatalogModel.id job.modelId (setState .available (some path)) s.catalog ∧
      s'.modelJobs = Table.modify ModelJob.id job.id
        (fun j => { j with state := .completed, stage := "complete", progress := .profiles ps.length }) s.modelJobs ∧
      s'.machineFingerprint = s.machineFingerprint := by
  unfold completeRegistration at hok
  obtain ⟨-, hok⟩ := guard_eq_ok.mp hok
  obtain ⟨t, hfold, hok⟩ := bind_eq_ok.mp hok
  obtain rfl := pure_eq_ok.mp hok
  obtain ⟨hcatalog, hjobs, hmachine⟩ := foldlM_same (fun _ _ _ => upsertProfile_same) hfold
  refine ⟨?_, ?_, hmachine⟩
  · exact (catalog_modify (fun _ => rfl) t.modelCatalog).trans (congrArg _ hcatalog)
  · exact congrArg _ hjobs

theorem cloneModel_ok {seen : ModelStore κ} {source : CatalogRow} {newId : ProfileId → ProfileId}
    {rope : RopeConfiguration} {request : CloneRequest}
    (hok : s.cloneModel sha256 seen fp source m newId rope request = .ok s') :
    ∃ row : CatalogModel, (row.id ∉ s.catalog.map (·.id) ∧ row.nickname ∉ s.catalog.map (·.nickname)) ∧
      s'.catalog = s.catalog ++ [row] ∧ s'.modelJobs = s.modelJobs ∧ s'.machineFingerprint = s.machineFingerprint := by
  unfold cloneModel at hok
  obtain ⟨-, hok⟩ := guard_eq_ok.mp hok
  obtain ⟨-, hok⟩ := guard_eq_ok.mp hok
  obtain ⟨-, hok⟩ := guard_eq_ok.mp hok
  obtain ⟨-, hok⟩ := guard_eq_ok.mp hok
  obtain ⟨native, -, hok⟩ := bind_eq_ok.mp hok
  obtain ⟨len, -, hok⟩ := bind_eq_ok.mp hok
  obtain ⟨cloned, -, hok⟩ := bind_eq_ok.mp hok
  obtain ⟨s1, hmodel, hok⟩ := bind_eq_ok.mp hok
  obtain ⟨t, hrows, hok⟩ := bind_eq_ok.mp hok
  obtain rfl := pure_eq_ok.mp hok
  obtain ⟨hid, hnickname, rfl⟩ := insertModel_ok hmodel
  obtain ⟨hcatalog, hjobs, hmachine⟩ := foldlM_same (fun _ _ _ => insertProfile_same) hrows
  exact ⟨_, ⟨hid, hnickname⟩, hcatalog.trans List.map_append, hjobs, hmachine⟩

theorem updateModelProfile_same {seen : ModelStore κ} {profileId : ProfileId} {edit : ProfileEdit}
    {makeDefault flag : Bool}
    (hok : s.updateModelProfile sha256 seen fp m profileId edit makeDefault = .ok (s', flag)) :
    SameJobs s s' := by
  unfold updateModelProfile at hok
  split at hok
  · cases hok
  · unfold updateProfile at hok
    split at hok
    · cases hok
      exact ⟨rfl, rfl, rfl⟩
    · obtain ⟨-, hok⟩ := guard_eq_ok.mp hok
      cases hok
      obtain ⟨hcatalog, hjobs, hmachine⟩ := syncContextLimit_same _ fp _
      refine ⟨hcatalog.trans ?_, hjobs.trans ?_, hmachine.trans ?_⟩ <;> split <;> rfl

end profiles

end ModelStore
end LlmRio
