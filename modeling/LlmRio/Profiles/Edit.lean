/-
# Editing a profile

An administrator names some fields of a placement profile and
`_apply_profile_edit` gives the profile with these fields replaced. A request
tells a field that it does not name from one that it names with `null`. What
is resolved in the file system, the GGUF files of the model, is a parameter.

An accepted edit is the profile with the named fields (`edited`), to which
the engine adds its own: a profile that stays with vLLM loses the arguments
that only llama.cpp has, and its dtype and quantization are reset whether or
not they came from llama.cpp. So an edit changes only what it names if and
only if there was nothing to reset (`edit_frame_iff`).

A new tensor parallel size resizes three of the four measurements. The edited
profile is well-shaped if and only if it has no fourth, or the number of GPUs
stays (`edit_shape_iff`).

Key definitions: `ProfileEditRequest`, `applyProfileEdit`, `OnlyNamed`.
Key theorems: `applyProfileEdit_ok`, `edit_frame_iff`, `edit_shape_iff`.
-/
import LlmRio.Lib.Transactions
import LlmRio.Profiles.Inventory
import LlmRio.Profiles.Profile

namespace LlmRio
namespace Profiles

open Json Utf8

/-- `ProfileEditRequest`, after its bounds were checked. `none` is a field
that is not in `model_fields_set`, `some none` one that is null. -/
structure ProfileEditRequest (φ : Type) where
  engine : Option (Option Engine) := none
  tensorParallelSize : Option (Option ℕ) := none
  maxModelLen : Option (Option ℤ) := none
  maxNumSeqs : Option (Option ℤ) := none
  maxNumBatchedTokens : Option (Option ℤ) := none
  gpuMemoryUtilization : Option (Option φ) := none
  ggufFile : Option (Option Text) := none
  nGpuLayers : Option (Option ℤ) := none
  tensorParallelSize_pos : ∀ n, tensorParallelSize = some (some n) → 1 ≤ n := by simp

/-- The other arguments of `_apply_profile_edit`; of the model, what
`_resolve_gguf_file` and `_gguf_files` find in its artifact. -/
structure EditContext where
  managedGpuCount : ℕ
  eligibleGpuSets : List (List GpuUuid)
  llamaCppEnabled : Bool
  resolveGgufFile : Text → Except RioError Text
  ggufFiles : List Text

variable {φ : Type} (context : EditContext) (request : ProfileEditRequest φ)

/-! ### The fields -/

/-- `_resize_per_gpu_measurement` -/
def resizePerGpuMeasurement (values : List ℤ) (gpuCount : ℕ) : List ℤ :=
  if values = [] then List.replicate gpuCount 0
  else (List.range gpuCount).map fun index => values.getD (min index (values.length - 1)) 0

/-- The profile for another number of GPUs. -/
def resize (targetGpuCount : ℕ) (p : PlacementProfile String φ) : PlacementProfile String φ :=
  { p with
    gpuCount := targetGpuCount
    tensorParallelSize := targetGpuCount
    eligibleGpuSets := context.eligibleGpuSets
    idleVramMibPerGpu := resizePerGpuMeasurement p.idleVramMibPerGpu targetGpuCount
    peakVramMibPerGpu := resizePerGpuMeasurement p.peakVramMibPerGpu targetGpuCount
    gpuHeadroomMibPerGpu := resizePerGpuMeasurement p.gpuHeadroomMibPerGpu targetGpuCount }

def invalidTensorParallelSize : RioError :=
  let managed := context.managedGpuCount
  { code := "invalid_tensor_parallel_size"
    message := s!"Tensor parallelism must be between 1 and {managed} on this machine"
    statusCode := 422 }

def editTensorParallelSize (p : PlacementProfile String φ) : Except RioError (PlacementProfile String φ) :=
  match request.tensorParallelSize with
  | none => .ok p
  | some none => .error (invalidTensorParallelSize context)
  | some (some n) =>
    if context.managedGpuCount < n ∨ context.eligibleGpuSets = [] then .error (invalidTensorParallelSize context)
    else .ok (resize context n p)

/-- A field that a request may name, but not with `null`. -/
def required {α : Type} (code message : String) (field : Option (Option α)) (current : α) : Except RioError α :=
  match field with
  | none => .ok current
  | some none => .error { code := code, message := message, statusCode := 422 }
  | some (some value) => .ok value

def editMaxModelLen (p : PlacementProfile String φ) : Except RioError (PlacementProfile String φ) :=
  (required "invalid_max_model_len" "max_model_len cannot be null" request.maxModelLen p.maxModelLen).map
    fun maxModelLen => { p with maxModelLen := maxModelLen }

def editMaxNumSeqs (p : PlacementProfile String φ) : PlacementProfile String φ :=
  { p with maxNumSeqs := request.maxNumSeqs.getD p.maxNumSeqs }

def editMaxNumBatchedTokens (p : PlacementProfile String φ) : PlacementProfile String φ :=
  { p with maxNumBatchedTokens := request.maxNumBatchedTokens.getD p.maxNumBatchedTokens }

def editGpuMemoryUtilization (p : PlacementProfile String φ) : Except RioError (PlacementProfile String φ) :=
  (required "invalid_gpu_memory_utilization" "gpu_memory_utilization cannot be null"
    request.gpuMemoryUtilization p.gpuMemoryUtilization).map
    fun utilization => { p with gpuMemoryUtilization := utilization }

/-- `request.engine or updated.engine` -/
def editEngine (p : PlacementProfile String φ) : PlacementProfile String φ :=
  { p with engine := request.engine.join.getD p.engine }

/-! ### The engine -/

/-- `launch_args` once a GGUF file was chosen. -/
def chooseGguf (p : PlacementProfile String φ) : Except RioError (List (Text × Value φ)) :=
  match request.ggufFile with
  | none => .ok p.launchArgs
  | some file =>
    if p.engine ≠ .llamaCpp then
      .error
        { code := "gguf_requires_llama_cpp"
          message := "Select llama.cpp before choosing a GGUF model file"
          statusCode := 422 }
    else match file with
      | none => .error { code := "invalid_gguf_file", message := "gguf_file cannot be null", statusCode := 422 }
      | some path => (context.resolveGgufFile path).map fun model =>
        setKey (ofString "model") (.string model) p.launchArgs

/-- `launch_args.setdefault(key, value)` -/
def setDefaultKey (key : Text) (value : Value φ) (entries : List (Text × Value φ)) : List (Text × Value φ) :=
  if (entries.lookup key).isSome then entries else entries ++ [(key, value)]

def editGpuLayers (launchArgs : List (Text × Value φ)) : Except RioError (List (Text × Value φ)) :=
  match request.nGpuLayers with
  | none => .ok (setDefaultKey (ofString "n_gpu_layers") (.int 99) launchArgs)
  | some none => .error { code := "invalid_n_gpu_layers", message := "n_gpu_layers cannot be null", statusCode := 422 }
  | some (some layers) => .ok (setKey (ofString "n_gpu_layers") (.int layers) launchArgs)

/-- The branch for llama.cpp. -/
def withLlamaCpp (p : PlacementProfile String φ) (launchArgs : List (Text × Value φ)) :
    Except RioError (PlacementProfile String φ) :=
  if ¬ context.llamaCppEnabled then
    .error
      { code := "llama_cpp_disabled"
        message := "Set engines.enable_llama_cpp = true before selecting llama.cpp manually"
        statusCode := 409 }
  else if (launchArgs.lookup (ofString "model")).isNone then
    .error
      { code := "gguf_file_required"
        message := "Choose a GGUF file when switching this profile to llama.cpp"
        statusCode := 422
        availableGgufFiles := some context.ggufFiles }
  else (editGpuLayers request launchArgs).map fun launchArgs =>
    { p with
      dtype := "gguf"
      -- an empty quantization is no quantization
      quantization := some (if p.quantization.getD "" = "" then "gguf" else p.quantization.getD "")
      launchArgs := launchArgs }

/-- The arguments that only llama.cpp has. -/
def llamaCppKeys : List Text := ["model", "n_gpu_layers", "tensor_split", "split_mode"].map ofString

def withoutLlamaCpp (launchArgs : List (Text × Value φ)) : List (Text × Value φ) :=
  launchArgs.filter fun entry => entry.1 ∉ llamaCppKeys

/-- The branch for vLLM. -/
def withVllm (p : PlacementProfile String φ) (launchArgs : List (Text × Value φ)) :
    Except RioError (PlacementProfile String φ) :=
  if request.ggufFile.isSome ∨ request.nGpuLayers.isSome then
    .error
      { code := "llama_cpp_option_requires_llama_cpp"
        message := "GGUF and n_gpu_layers are llama.cpp-only settings"
        statusCode := 422 }
  else .ok { p with dtype := "auto", quantization := none, launchArgs := withoutLlamaCpp launchArgs }

/-- `_apply_profile_edit` -/
def applyProfileEdit (profile : PlacementProfile String φ) : Except RioError (PlacementProfile String φ) := do
  let updated ← editTensorParallelSize context request profile
  let updated ← editMaxModelLen request updated
  let updated := editMaxNumBatchedTokens request (editMaxNumSeqs request updated)
  let updated ← editGpuMemoryUtilization request updated
  let updated := editEngine request updated
  let launchArgs ← chooseGguf context request updated
  match updated.engine with
  | .llamaCpp => withLlamaCpp context request updated launchArgs
  | .vllm => withVllm request updated launchArgs

/-! ### An accepted edit -/

/-- The profile with the named fields. -/
def edited (p : PlacementProfile String φ) : PlacementProfile String φ :=
  { (match request.tensorParallelSize.join with
    | some n => resize context n p
    | none => p) with
    maxModelLen := request.maxModelLen.join.getD p.maxModelLen
    maxNumSeqs := request.maxNumSeqs.getD p.maxNumSeqs
    maxNumBatchedTokens := request.maxNumBatchedTokens.getD p.maxNumBatchedTokens
    gpuMemoryUtilization := request.gpuMemoryUtilization.join.getD p.gpuMemoryUtilization
    engine := request.engine.join.getD p.engine }

variable {context request} {profile updated : PlacementProfile String φ}

theorem editTensorParallelSize_ok (h : editTensorParallelSize context request profile = .ok updated) :
    request.tensorParallelSize ≠ some none ∧
      updated = match request.tensorParallelSize.join with
        | some n => resize context n profile
        | none => profile := by
  unfold editTensorParallelSize at h
  split at h
  · rename_i heq
    cases h
    simp [heq]
  · cases h
  · rename_i n heq
    obtain ⟨-, h⟩ := Transactions.guard_eq_ok.mp h
    cases h
    simp [heq]

theorem required_ok {α : Type} {code message : String} {field : Option (Option α)} {current value : α}
    (h : required code message field current = .ok value) : value = field.join.getD current := by
  unfold required at h
  split at h
  · cases h
    rfl
  · cases h
  · cases h
    rfl

/-- An accepted edit has the named fields; only what belongs to the engine is
changed besides. -/
theorem applyProfileEdit_ok (h : applyProfileEdit context request profile = .ok updated) :
    request.tensorParallelSize ≠ some none ∧ ∃ launchArgs,
      chooseGguf context request (edited context request profile) = .ok launchArgs ∧
      (match (edited context request profile).engine with
        | .llamaCpp => withLlamaCpp context request (edited context request profile) launchArgs
        | .vllm => withVllm request (edited context request profile) launchArgs) = .ok updated := by
  obtain ⟨first, hfirst, h⟩ := Transactions.bind_eq_ok.mp h
  obtain ⟨hnamed, hfirst⟩ := editTensorParallelSize_ok hfirst
  obtain ⟨second, hsecond, h⟩ := Transactions.bind_eq_ok.mp h
  obtain ⟨maxModelLen, hlen, rfl⟩ := Transactions.map_eq_ok hsecond
  obtain ⟨third, hthird, h⟩ := Transactions.bind_eq_ok.mp h
  obtain ⟨utilization, hutilization, rfl⟩ := Transactions.map_eq_ok hthird
  obtain ⟨launchArgs, hargs, h⟩ := Transactions.bind_eq_ok.mp h
  have hedited : editEngine request { editMaxNumBatchedTokens request (editMaxNumSeqs request
      { first with maxModelLen := maxModelLen }) with gpuMemoryUtilization := utilization } =
        edited context request profile := by
    rw [required_ok hlen, required_ok hutilization, hfirst]
    unfold edited
    cases request.tensorParallelSize.join <;> rfl
  rw [hedited] at hargs h
  exact ⟨hnamed, launchArgs, hargs, h⟩

/-- What the engine sets in the edited profile. -/
theorem applyProfileEdit_engine (h : applyProfileEdit context request profile = .ok updated) :
    ∃ dtype quantization launchArgs, updated =
      { edited context request profile with
        dtype := dtype, quantization := quantization, launchArgs := launchArgs } := by
  obtain ⟨-, launchArgs, -, h⟩ := applyProfileEdit_ok h
  split at h
  · unfold withLlamaCpp at h
    obtain ⟨-, h⟩ := Transactions.guard_eq_ok.mp h
    obtain ⟨-, h⟩ := Transactions.guard_eq_ok.mp h
    obtain ⟨launchArgs', -, rfl⟩ := Transactions.map_eq_ok h
    exact ⟨_, _, _, rfl⟩
  · unfold withVllm at h
    obtain ⟨-, h⟩ := Transactions.guard_eq_ok.mp h
    cases h
    exact ⟨_, _, _, rfl⟩

/-- An edit that leaves the profile with vLLM resets what llama.cpp sets. -/
theorem applyProfileEdit_vllm (h : applyProfileEdit context request profile = .ok updated)
    (hengine : updated.engine = .vllm) :
    updated =
      { edited context request profile with
        dtype := "auto", quantization := none, launchArgs := withoutLlamaCpp profile.launchArgs } := by
  obtain ⟨dtype, quantization, args, heq⟩ := applyProfileEdit_engine h
  obtain ⟨-, launchArgs, hargs, h⟩ := applyProfileEdit_ok h
  have hedited : (edited context request profile).engine = .vllm := by rw [← hengine, heq]
  rw [hedited] at h
  obtain ⟨hnone, h⟩ := Transactions.guard_eq_ok.mp h
  have hfile : request.ggufFile = none := by
    rw [not_or, Option.not_isSome_iff_eq_none] at hnone
    exact hnone.1
  have hlaunch : launchArgs = profile.launchArgs := by
    unfold chooseGguf at hargs
    rw [hfile] at hargs
    cases hargs
    unfold edited
    cases request.tensorParallelSize.join <;> rfl
  cases h
  rw [hlaunch]

/-! ### What an edit may change -/

/-- A field that the request does not name keeps its value, unless it is a
per-GPU quantity and the request names the tensor parallel size; of the
launch arguments those of llama.cpp may go. -/
structure OnlyNamed (request : ProfileEditRequest φ) (p q : PlacementProfile String φ) : Prop where
  unnamed : q =
    { p with
      engine := q.engine
      gpuCount := q.gpuCount
      tensorParallelSize := q.tensorParallelSize
      eligibleGpuSets := q.eligibleGpuSets
      idleVramMibPerGpu := q.idleVramMibPerGpu
      peakVramMibPerGpu := q.peakVramMibPerGpu
      gpuHeadroomMibPerGpu := q.gpuHeadroomMibPerGpu
      sleepVramMibPerGpu := q.sleepVramMibPerGpu
      maxModelLen := q.maxModelLen
      maxNumSeqs := q.maxNumSeqs
      maxNumBatchedTokens := q.maxNumBatchedTokens
      gpuMemoryUtilization := q.gpuMemoryUtilization
      launchArgs := q.launchArgs }
  engine : request.engine = none → q.engine = p.engine
  perGpu : request.tensorParallelSize = none →
    q.gpuCount = p.gpuCount ∧ q.tensorParallelSize = p.tensorParallelSize ∧
      q.eligibleGpuSets = p.eligibleGpuSets ∧ q.idleVramMibPerGpu = p.idleVramMibPerGpu ∧
      q.peakVramMibPerGpu = p.peakVramMibPerGpu ∧ q.gpuHeadroomMibPerGpu = p.gpuHeadroomMibPerGpu ∧
      q.sleepVramMibPerGpu = p.sleepVramMibPerGpu
  maxModelLen : request.maxModelLen = none → q.maxModelLen = p.maxModelLen
  maxNumSeqs : request.maxNumSeqs = none → q.maxNumSeqs = p.maxNumSeqs
  maxNumBatchedTokens : request.maxNumBatchedTokens = none → q.maxNumBatchedTokens = p.maxNumBatchedTokens
  gpuMemoryUtilization : request.gpuMemoryUtilization = none → q.gpuMemoryUtilization = p.gpuMemoryUtilization
  launchArgs : withoutLlamaCpp q.launchArgs = withoutLlamaCpp p.launchArgs

theorem withoutLlamaCpp_idem (launchArgs : List (Text × Value φ)) :
    withoutLlamaCpp (withoutLlamaCpp launchArgs) = withoutLlamaCpp launchArgs := by
  simp [withoutLlamaCpp]

/-- The fields that are edited are the named ones. -/
theorem edited_onlyNamed (context : EditContext) (request : ProfileEditRequest φ)
    (p : PlacementProfile String φ) {launchArgs : List (Text × Value φ)}
    (hargs : withoutLlamaCpp launchArgs = withoutLlamaCpp p.launchArgs) :
    OnlyNamed request p { edited context request p with
      dtype := p.dtype, quantization := p.quantization, launchArgs := launchArgs } where
  unnamed := by
    unfold edited
    cases request.tensorParallelSize.join <;> rfl
  engine h := by simp [edited, h]
  perGpu h := by simp [edited, h]
  maxModelLen h := by simp [edited, h]
  maxNumSeqs h := by simp [edited, h]
  maxNumBatchedTokens h := by simp [edited, h]
  gpuMemoryUtilization h := by simp [edited, h]
  launchArgs := hargs

/-- **A profile edit changes only what it names** if and only if the profile
has neither a dtype nor a quantization of its own to lose. -/
theorem edit_frame_iff (context : EditContext) (request : ProfileEditRequest φ)
    (profile updated : PlacementProfile String φ) (h : applyProfileEdit context request profile = .ok updated)
    (hengine : updated.engine = .vllm) :
    OnlyNamed request profile updated ↔ profile.dtype = "auto" ∧ profile.quantization = none := by
  have heq := applyProfileEdit_vllm h hengine
  constructor
  · intro honly
    have hfields := honly.unnamed
    have hdtype := congrArg PlacementProfile.dtype hfields
    have hquantization := congrArg PlacementProfile.quantization hfields
    rw [heq] at hdtype hquantization
    exact ⟨hdtype.symm, hquantization.symm⟩
  · rintro ⟨hdtype, hquantization⟩
    have honly := edited_onlyNamed context request profile (withoutLlamaCpp_idem profile.launchArgs)
    rw [hdtype, hquantization] at honly
    rw [heq]
    exact honly

/-! ### A quantized profile -/

/-- A vLLM profile for one GPU. -/
def awqProfile : PlacementProfile String ℚ where
  id := "p"
  modelId := "m"
  modelRevision := "main"
  engine := .vllm
  engineVersion := "0.26.0"
  machineFingerprint := "f"
  gpuCount := 1
  tensorParallelSize := 1
  pipelineParallelSize := 1
  eligibleGpuSets := [["g0"], ["g1"]]
  dtype := "auto"
  quantization := some "awq"
  maxModelLen := 4096
  maxNumSeqs := none
  maxNumBatchedTokens := none
  predictedTokensPerSecond := 100
  loadAndWarmupSeconds := 60
  idleVramMibPerGpu := [4000]
  peakVramMibPerGpu := [5000]
  gpuHeadroomMibPerGpu := [500]
  capabilities := ∅
  launchArgs := []
  gpuMemoryUtilization := 9 / 10
  kvCacheCapacityTokens := none
  maxFullLengthConcurrency := none
  memoryBackend := "kvcached"
  sleepVramMibPerGpu := some [1800]

def twoGpus : MachineInventory where
  gpus := [⟨"g0", 0, "A", 24000⟩, ⟨"g1", 1, "A", 24000⟩]
  distinct := by decide

/-- Two GPUs without llama.cpp, for an edit to the size. -/
def twoGpuContext (size : ℕ) : EditContext where
  managedGpuCount := 2
  eligibleGpuSets := candidateGpuSets twoGpus size
  llamaCppEnabled := false
  resolveGgufFile _ := .error { code := "model_artifact_missing", message := "", statusCode := 409 }
  ggufFiles := []

def moreSequences : ProfileEditRequest ℚ where
  maxNumSeqs := some (some 8)

/-- More sequences cost a profile its quantization. -/
theorem edit_drops_quantization :
    ∃ updated, applyProfileEdit (twoGpuContext 1) moreSequences awqProfile = .ok updated ∧
      awqProfile.engine = .vllm ∧ updated.engine = .vllm ∧ updated.quantization = none ∧
      ¬ OnlyNamed moreSequences awqProfile updated := by
  refine ⟨_, rfl, rfl, rfl, rfl, fun honly => ?_⟩
  have hfields := congrArg PlacementProfile.quantization honly.unnamed
  cases hfields

theorem edit_frame_iff_plain :
    OnlyNamed moreSequences { awqProfile with quantization := none }
      { awqProfile with quantization := none, maxNumSeqs := some 8 } :=
  (edit_frame_iff (twoGpuContext 1) moreSequences { awqProfile with quantization := none } _ rfl rfl).mpr ⟨rfl, rfl⟩

/-! ### The shape of an edited profile -/

/-- The size whose candidate sets the edit is given. -/
def targetSize (request : ProfileEditRequest φ) (profile : PlacementProfile String φ) : ℕ :=
  request.tensorParallelSize.join.getD profile.tensorParallelSize.toNat

theorem length_resizePerGpuMeasurement (values : List ℤ) (gpuCount : ℕ) :
    (resizePerGpuMeasurement values gpuCount).length = gpuCount := by
  unfold resizePerGpuMeasurement
  split <;> simp

/-- A profile for `n` GPUs is well-shaped once its fourth measurement is. -/
theorem resize_wellShaped_iff {n : ℕ} {inventory : MachineInventory} (hpos : 1 ≤ n)
    (hsets : context.eligibleGpuSets = candidateGpuSets inventory n) :
    (resize context n profile).WellShaped ↔ ∀ mib ∈ profile.sleepVramMibPerGpu, mib.length = n := by
  have hlen := fun values => congrArg (Int.ofNat ·) (length_resizePerGpuMeasurement values n)
  constructor
  · intro hshape mib hmib
    exact Int.ofNat_inj.mp (hshape.sleep mib hmib)
  · intro hsleep
    refine ⟨hlen _, hlen _, hlen _, fun mib hmib => congrArg _ (hsleep mib hmib), fun gpuSet hset => ?_⟩
    have hmem : gpuSet ∈ candidateGpuSets inventory n := hsets ▸ hset
    obtain ⟨-, hnodup, hcount⟩ := candidate_sublist hpos hmem
    exact ⟨congrArg _ hcount, hnodup⟩

/-- The engine's part of an edit does not bear on the shape. -/
theorem applyProfileEdit_shape (h : applyProfileEdit context request profile = .ok updated) :
    updated.WellShaped ↔
      (match request.tensorParallelSize.join with
        | some n => resize context n profile
        | none => profile).WellShaped := by
  obtain ⟨dtype, quantization, launchArgs, rfl⟩ := applyProfileEdit_engine h
  constructor <;> exact fun ⟨hidle, hpeak, hheadroom, hsleep, heligible⟩ =>
    ⟨hidle, hpeak, hheadroom, hsleep, heligible⟩

/-- **An edited profile is well-shaped** if and only if it has no measurement
of its sleep, or keeps its number of GPUs; then the planner finds all its
entries. -/
theorem edit_shape_iff (inventory : MachineInventory) (context : EditContext) (request : ProfileEditRequest φ)
    (profile updated : PlacementProfile String φ) (value : φ → ℚ) (hshape : profile.WellShaped)
    (hsets : context.eligibleGpuSets = candidateGpuSets inventory (targetSize request profile))
    (h : applyProfileEdit context request profile = .ok updated) :
    (updated.WellShaped ↔ profile.sleepVramMibPerGpu = none ∨ request.tensorParallelSize = none ∨
      (targetSize request profile : ℤ) = profile.gpuCount) ∧
    (updated.WellShaped → PlacementProfile.Found (updated.planned value)) := by
  refine ⟨?_, fun hupdated => hupdated.found value⟩
  rw [applyProfileEdit_shape h]
  have hnull := (applyProfileEdit_ok h).1
  unfold targetSize at hsets ⊢
  cases hsize : request.tensorParallelSize with
  | none => simpa using hshape
  | some size =>
    cases size with
    | none => exact absurd hsize hnull
    | some n =>
      rw [hsize] at hsets
      have hiff : (resize context n profile).WellShaped ↔ _ :=
        resize_wellShaped_iff (request.tensorParallelSize_pos n hsize) hsets
      refine hiff.trans ?_
      cases hsleep : profile.sleepVramMibPerGpu with
      | none => simp
      | some mib =>
        have hlen := hshape.sleep mib hsleep
        constructor
        · intro hall
          have hn := hall mib rfl
          exact .inr (.inr (by simp only [Option.join_some, Option.getD_some]; omega))
        · rintro (hnone | hnone | hn) mib' hmib'
          · cases hnone
          · cases hnone
          · cases hmib'
            simp only [Option.join_some, Option.getD_some] at hn
            omega

def twoWay : ProfileEditRequest ℚ where
  tensorParallelSize := some (some 2)

theorem awqProfile_wellShaped : awqProfile.WellShaped where
  idle := rfl
  peak := rfl
  headroom := rfl
  sleep := by simp [awqProfile]
  eligible := by simp [awqProfile]

theorem twoGpus_pair : candidateGpuSets twoGpus 2 = [["g0", "g1"]] := by decide +kernel

/-- The sleep measurement of the second GPU is missing, and the planner would
take the reserve for it. -/
theorem edit_breaks_shape :
    ∃ updated, applyProfileEdit (twoGpuContext (targetSize twoWay awqProfile)) twoWay awqProfile = .ok updated ∧
      awqProfile.WellShaped ∧ ¬ updated.WellShaped ∧ ¬ PlacementProfile.Found (updated.planned id) := by
  have hok : applyProfileEdit (twoGpuContext (targetSize twoWay awqProfile)) twoWay awqProfile =
      .ok { resize (twoGpuContext 2) 2 awqProfile with quantization := none } := rfl
  have hfound : ¬ PlacementProfile.Found
      ({ resize (twoGpuContext 2) 2 awqProfile with quantization := none }.planned id) := by
    intro hfound
    have hpair : ["g0", "g1"] ∈ candidateGpuSets twoGpus 2 := by
      rw [twoGpus_pair]
      exact List.mem_singleton_self _
    have hlt := (hfound ["g0", "g1"] hpair "g1" (by simp)).2 [1800] rfl
    exact absurd hlt (by decide)
  exact ⟨_, hok, awqProfile_wellShaped, fun hshape => hfound (hshape.found id), hfound⟩

def withoutSleep : PlacementProfile String ℚ := { awqProfile with sleepVramMibPerGpu := none }

/-- Without a measurement of its sleep the profile can be resized. -/
theorem edit_shape_iff_resized :
    ∃ updated, applyProfileEdit (twoGpuContext (targetSize twoWay withoutSleep)) twoWay withoutSleep = .ok updated ∧
      updated.gpuCount = 2 ∧ updated.eligibleGpuSets = [["g0", "g1"]] ∧ updated.peakVramMibPerGpu = [5000, 5000] ∧
      updated.WellShaped ∧ PlacementProfile.Found (updated.planned id) := by
  have hok : applyProfileEdit (twoGpuContext (targetSize twoWay withoutSleep)) twoWay withoutSleep =
      .ok { resize (twoGpuContext 2) 2 withoutSleep with quantization := none } := rfl
  have hshape : withoutSleep.WellShaped :=
    { idle := rfl, peak := rfl, headroom := rfl, sleep := by simp [withoutSleep],
      eligible := awqProfile_wellShaped.eligible }
  obtain ⟨hiff, hfound⟩ :=
    edit_shape_iff twoGpus (twoGpuContext (targetSize twoWay withoutSleep)) twoWay withoutSleep _ id hshape rfl hok
  have hupdated := hiff.mpr (.inl rfl)
  exact ⟨_, hok, rfl, twoGpus_pair, rfl, hupdated, hfound hupdated⟩

end Profiles
end LlmRio
