/-
# Stored profiles

A profile is stored as the JSON text of `profile_to_dict`, which starts from
`asdict`: there a tuple is a tuple, the engine a member of its enumeration and
the capabilities a set. `profile_from_dict` makes a profile of what `json.loads`
reads, field by field.

Whatever else is in the dict, and in whatever field the profile has nothing,
the profile comes back (`profileFromDict_entries`), and so it does from its
text (`decode_profileText`), as long as its strings do (`Strings`).

What the code does with a value that is not what its field holds is modelled
as far as the result is a profile: `none` also stands for a profile with a
value of another type in one of its fields.

Key definitions: `profileToDict`, `profileFromDict`, `profileText`,
`decodeProfile`.
Key theorems: `profileFromDict_entries`, `decode_profileText`.
-/
import LlmRio.Lib.JsonText
import LlmRio.Lib.Objects
import LlmRio.Profiles.Profile
import Mathlib.Data.List.Lex
import Mathlib.Data.List.Sort

namespace LlmRio
namespace Profiles

open Json Objects Utf8

/-- What else the interpreter does with the values of JSON. -/
class Conversions (φ : Type) extends Interpreter φ where
  /-- `float(n)`; `none` if it raises. -/
  floatOfInt : ℤ → Option φ
  /-- `float(text)`; `none` if it raises. -/
  floatOfText : Text → Option φ
  /-- `str(value)` of a value that is no text. -/
  strOf : Value φ → Text

/-- `engine.value` -/
def engineValue : Engine → Text
  | .vllm => ofString "vllm"
  | .llamaCpp => ofString "llama.cpp"

/-- `sorted(texts)` of a set. -/
def sortedTexts (s : Finset Text) : List Text :=
  Quot.liftOn s.val (fun texts => texts.insertionSort (· ≤ ·)) fun a b h =>
    ((List.perm_insertionSort _ a).trans (h.trans (List.perm_insertionSort _ b).symm)).eq_of_sortedLE
      List.sortedLE_insertionSort List.sortedLE_insertionSort

theorem mem_sortedTexts {s : Finset Text} {text : Text} : text ∈ sortedTexts s ↔ text ∈ s := by
  obtain ⟨⟨texts⟩, -⟩ := s
  exact List.mem_insertionSort _

theorem toFinset_sortedTexts (s : Finset Text) : (sortedTexts s).toFinset = s := by
  ext text
  rw [List.mem_toFinset, mem_sortedTexts]

section toDict

variable {φ : Type}

/-- A value in the dict of a profile. -/
inductive Field (φ : Type)
  | value (v : Value φ)
  | tuple (xs : List (Value φ))
  | tuples (xss : List (List (Value φ)))
  | engine (e : Engine)
  | frozenset (s : Finset Text)

def optional {α : Type} (value : α → Value φ) (x : Option α) : Field φ := .value ((x.map value).getD .null)

def optionalTuple : Option (List ℤ) → Field φ
  | some xs => .tuple (xs.map .int)
  | none => .value .null

/-- `asdict(profile)` -/
def asdict (p : PlacementProfile Text φ) : List (Text × Field φ) :=
  [(ofString "id", .value (.string p.id)),
    (ofString "model_id", .value (.string p.modelId)),
    (ofString "model_revision", .value (.string p.modelRevision)),
    (ofString "engine", .engine p.engine),
    (ofString "engine_version", .value (.string p.engineVersion)),
    (ofString "machine_fingerprint", .value (.string p.machineFingerprint)),
    (ofString "gpu_count", .value (.int p.gpuCount)),
    (ofString "tensor_parallel_size", .value (.int p.tensorParallelSize)),
    (ofString "pipeline_parallel_size", .value (.int p.pipelineParallelSize)),
    (ofString "eligible_gpu_sets", .tuples (p.eligibleGpuSets.map fun group => group.map .string)),
    (ofString "dtype", .value (.string p.dtype)),
    (ofString "quantization", optional .string p.quantization),
    (ofString "max_model_len", .value (.int p.maxModelLen)),
    (ofString "max_num_seqs", optional .int p.maxNumSeqs),
    (ofString "max_num_batched_tokens", optional .int p.maxNumBatchedTokens),
    (ofString "predicted_tokens_per_second", .value (.float p.predictedTokensPerSecond)),
    (ofString "load_and_warmup_seconds", .value (.float p.loadAndWarmupSeconds)),
    (ofString "idle_vram_mib_per_gpu", .tuple (p.idleVramMibPerGpu.map .int)),
    (ofString "peak_vram_mib_per_gpu", .tuple (p.peakVramMibPerGpu.map .int)),
    (ofString "gpu_headroom_mib_per_gpu", .tuple (p.gpuHeadroomMibPerGpu.map .int)),
    (ofString "capabilities", .frozenset p.capabilities),
    (ofString "launch_args", .value (.dict p.launchArgs)),
    (ofString "gpu_memory_utilization", .value (.float p.gpuMemoryUtilization)),
    (ofString "kv_cache_capacity_tokens", optional .int p.kvCacheCapacityTokens),
    (ofString "max_full_length_concurrency", optional .float p.maxFullLengthConcurrency),
    (ofString "memory_backend", .value (.string p.memoryBackend)),
    (ofString "sleep_vram_mib_per_gpu", optionalTuple p.sleepVramMibPerGpu),
    (ofString "weight_cache_offload_seconds", optional .float p.weightCacheOffloadSeconds),
    (ofString "weight_cache_activation_seconds", optional .float p.weightCacheActivationSeconds)]

def profileToDict (p : PlacementProfile Text φ) : List (Text × Field φ) :=
  put (ofString "capabilities") (.value (.list ((sortedTexts p.capabilities).map .string)))
    (put (ofString "eligible_gpu_sets") (.value (.list (p.eligibleGpuSets.map fun group => .list (group.map .string))))
      (put (ofString "engine") (.value (.string (engineValue p.engine))) (asdict p)))

/-- What `json.dumps` writes for a value: a tuple as a list, and a member of a
`StrEnum` as its text. It raises for a set. -/
def Field.toJson : Field φ → Option (Value φ)
  | .value v => some v
  | .tuple xs => some (.list xs)
  | .tuples xss => some (.list (xss.map .list))
  | .engine e => some (.string (engineValue e))
  | .frozenset _ => none

/-- The JSON object of a dict. -/
def jsonObject (raw : List (Text × Field φ)) : Option (List (Text × Value φ)) :=
  raw.mapM fun e => e.2.toJson.map fun v => (e.1, v)

end toDict

section fromDict

variable {φ : Type} [Conversions φ]

/-- `float(value)` -/
def toFloat : Value φ → Option φ
  | .bool b => Conversions.floatOfInt (if b then 1 else 0)
  | .int n => Conversions.floatOfInt n
  | .float x => some x
  | .string s => Conversions.floatOfText s
  | .null | .list _ | .dict _ => none

/-- `str(value)` -/
def toStr : Value φ → Text
  | .string s => s
  | v => Conversions.strOf v

/-- What a value gives as an iterable; `none` if it is none. -/
def iterate : Value φ → Option (List (Value φ))
  | .list xs => some xs
  | .string s => some (s.map fun p => .string [p])
  | .dict entries => some (entries.map fun e => .string e.1)
  | .null | .bool _ | .int _ | .float _ => none

def asText : Value φ → Option Text
  | .string s => some s
  | _ => none

def asInt : Value φ → Option ℤ
  | .int n => some n
  | _ => none

/-- `tuple(value)`, of values of one type. -/
def tupleOf {α : Type} (item : Value φ → Option α) (value : Value φ) : Option (List α) := do
  let xs ← iterate value
  xs.mapM item

/-- A value, or `None`. -/
def orNone {α : Type} (item : Value φ → Option α) : Value φ → Option (Option α)
  | .null => some none
  | value => (item value).map some

/-- `Engine(value)` -/
def engineOf : Value φ → Option Engine
  | .string s =>
    if s = engineValue .vllm then some .vllm else if s = engineValue .llamaCpp then some .llamaCpp else none
  | _ => none

/-- `dict(value)`: of a dict, or of pairs. -/
def toDict : Value φ → Option (List (Text × Value φ))
  | .dict entries => some entries
  | value => do
    let pairs ← tupleOf iterate value
    pairs.foldlM (fun d pair => match pair with
      | [.string key, x] => some (put key x d)
      | _ => none) []

variable (raw : List (Text × Value φ))

/-- `raw[key]` -/
def item {α : Type} (key : String) (read : Value φ → Option α) : Option α := (raw.lookup (ofString key)).bind read

/-- `raw.get(key, default)` -/
def itemOr {α : Type} (key : String) (default : Value φ) (read : Value φ → Option α) : Option α :=
  read ((raw.lookup (ofString key)).getD default)

def profileFromDict : Option (PlacementProfile Text φ) := do
  let id ← item raw "id" asText
  let modelId ← item raw "model_id" asText
  let modelRevision ← item raw "model_revision" asText
  let engine ← item raw "engine" engineOf
  let engineVersion ← item raw "engine_version" asText
  let machineFingerprint ← item raw "machine_fingerprint" asText
  let gpuCount ← item raw "gpu_count" Value.toInt
  let tensorParallelSize ← item raw "tensor_parallel_size" Value.toInt
  let pipelineParallelSize ← item raw "pipeline_parallel_size" Value.toInt
  let eligibleGpuSets ← item raw "eligible_gpu_sets" (tupleOf (tupleOf asText))
  let dtype ← item raw "dtype" asText
  let quantization ← item raw "quantization" (orNone asText)
  let maxModelLen ← item raw "max_model_len" Value.toInt
  let maxNumSeqs ← item raw "max_num_seqs" (orNone Value.toInt)
  let maxNumBatchedTokens ← item raw "max_num_batched_tokens" (orNone Value.toInt)
  let predictedTokensPerSecond ← item raw "predicted_tokens_per_second" toFloat
  let loadAndWarmupSeconds ← item raw "load_and_warmup_seconds" toFloat
  let idleVramMibPerGpu ← item raw "idle_vram_mib_per_gpu" (tupleOf asInt)
  let peakVramMibPerGpu ← item raw "peak_vram_mib_per_gpu" (tupleOf asInt)
  let gpuHeadroomMibPerGpu ← item raw "gpu_headroom_mib_per_gpu" (tupleOf asInt)
  let capabilities ← item raw "capabilities" (tupleOf asText)
  let launchArgs ← item raw "launch_args" toDict
  let gpuMemoryUtilization ← item raw "gpu_memory_utilization" toFloat
  let kvCacheCapacityTokens ← item raw "kv_cache_capacity_tokens" (orNone Value.toInt)
  let maxFullLengthConcurrency ← item raw "max_full_length_concurrency" (orNone toFloat)
  let memoryBackend ← itemOr raw "memory_backend" (.string (ofString "native")) fun v => some (toStr v)
  let sleepVramMibPerGpu ← itemOr raw "sleep_vram_mib_per_gpu" .null (orNone (tupleOf Value.toInt))
  let weightCacheOffloadSeconds ← itemOr raw "weight_cache_offload_seconds" .null (orNone toFloat)
  let weightCacheActivationSeconds ← itemOr raw "weight_cache_activation_seconds" .null (orNone toFloat)
  return {
    id, modelId, modelRevision, engine, engineVersion, machineFingerprint, gpuCount, tensorParallelSize,
    pipelineParallelSize, eligibleGpuSets, dtype, quantization, maxModelLen, maxNumSeqs, maxNumBatchedTokens,
    predictedTokensPerSecond, loadAndWarmupSeconds, idleVramMibPerGpu, peakVramMibPerGpu, gpuHeadroomMibPerGpu,
    capabilities := capabilities.toFinset, launchArgs, gpuMemoryUtilization, kvCacheCapacityTokens,
    maxFullLengthConcurrency, memoryBackend, sleepVramMibPerGpu, weightCacheOffloadSeconds,
    weightCacheActivationSeconds }

/-- `json.dumps` of a dict. -/
def dumpsDict (raw : List (Text × Field φ)) : Option (List Char) :=
  (jsonObject raw).bind fun entries => dumpsAscii (.dict entries)

/-- `json.dumps(profile_to_dict(profile))` -/
def profileText (p : PlacementProfile Text φ) : Option (List Char) := dumpsDict (profileToDict p)

/-- `profile_from_dict(json.loads(text))` -/
def decodeProfile (text : List Char) : Option (PlacementProfile Text φ) :=
  match (loads text : Except LoadError (Value φ)) with
  | .ok (.dict raw) => profileFromDict raw
  | _ => none

end fromDict

/-! ### Back from the dict -/

section roundTrip

variable {φ : Type}

/-- The value of a field in the JSON object. -/
def Field.stored : Field φ → Value φ
  | .value v => v
  | .tuple xs => .list xs
  | .tuples xss => .list (xss.map .list)
  | .engine e => .string (engineValue e)
  | .frozenset s => .list ((sortedTexts s).map .string)

/-- The JSON object of a profile. -/
def entriesOf (p : PlacementProfile Text φ) : List (Text × Value φ) := (profileToDict p).map fun e => (e.1, e.2.stored)

theorem jsonObject_profileToDict : ∀ p : PlacementProfile Text φ, jsonObject (profileToDict p) = some (entriesOf p)
  | { sleepVramMibPerGpu := none, .. } => rfl
  | { sleepVramMibPerGpu := some _, .. } => rfl

/-- Another id in the object is the object of a profile with that id. -/
theorem put_id (p : PlacementProfile Text φ) (id : Text) (extra : List (Text × Value φ)) :
    put (ofString "id") (.string id) (entriesOf p ++ extra) = entriesOf { p with id := id } ++ extra := rfl

theorem put_machineFingerprint (p : PlacementProfile Text φ) (fingerprint : Text) (extra : List (Text × Value φ)) :
    put (ofString "machine_fingerprint") (.string fingerprint) (entriesOf p ++ extra) =
      entriesOf { p with machineFingerprint := fingerprint } ++ extra := rfl

theorem mapM_map {α β : Type} {f : β → Option α} (g : α → β) (h : ∀ a, f (g a) = some a) (as : List α) :
    (as.map g).mapM f = some as := by
  induction as with
  | nil => rfl
  | cons a as ih =>
    rw [List.map_cons, List.mapM_cons, h, ih]
    rfl

theorem tupleOf_map {α : Type} {read : Value φ → Option α} (value : α → Value φ) (h : ∀ a, read (value a) = some a)
    (as : List α) : tupleOf read (.list (as.map value)) = some as := mapM_map value h as

theorem orNone_map {α : Type} {read : Value φ → Option α} {value : α → Value φ}
    (h : ∀ a, orNone read (value a) = some (some a)) (x : Option α) :
    orNone read ((x.map value).getD .null) = some x := by
  cases x with
  | none => rfl
  | some a => exact h a

theorem engineOf_engineValue (e : Engine) : engineOf (.string (engineValue e) : Value φ) = some e := by
  cases e <;> rfl

theorem bind_of_eq_some {α β : Type} {x : Option α} {f : α → Option β} {a : α} {b : β} (h : x = some a)
    (hf : f a = some b) : (x >>= f) = some b := by
  rw [h]
  exact hf

theorem tupleOf_texts (xs : List Text) : tupleOf asText (.list (xs.map .string) : Value φ) = some xs :=
  tupleOf_map .string (fun _ => rfl) xs

theorem tupleOf_groups (groups : List (List Text)) :
    tupleOf (tupleOf asText) (.list (groups.map fun group => .list (group.map .string)) : Value φ) = some groups :=
  tupleOf_map _ tupleOf_texts groups

theorem tupleOf_ints (xs : List ℤ) : tupleOf asInt (.list (xs.map .int) : Value φ) = some xs :=
  tupleOf_map .int (fun _ => rfl) xs

theorem orNone_text (x : Option Text) : orNone asText ((x.map .string).getD .null : Value φ) = some x :=
  orNone_map (fun _ => rfl) x

variable [Conversions φ]

theorem orNone_int (x : Option ℤ) : orNone Value.toInt ((x.map .int).getD .null : Value φ) = some x :=
  orNone_map (fun _ => rfl) x

theorem orNone_float (x : Option φ) : orNone toFloat ((x.map .float).getD .null : Value φ) = some x :=
  orNone_map (fun _ => rfl) x

theorem orNone_tuple (x : Option (List ℤ)) : orNone (tupleOf Value.toInt) (optionalTuple x).stored (φ := φ) = some x := by
  cases x with
  | none => rfl
  | some xs =>
    have hints : tupleOf Value.toInt (.list (xs.map .int) : Value φ) = some xs := tupleOf_map .int (fun _ => rfl) xs
    show (tupleOf Value.toInt (.list (xs.map .int) : Value φ)).map some = some (some xs)
    rw [hints]
    rfl

/-- Each field is read back, with whatever else the dict has. -/
theorem profileFromDict_entries (p : PlacementProfile Text φ) (extra : List (Text × Value φ)) :
    profileFromDict (entriesOf p ++ extra) = some p := by
  unfold profileFromDict
  iterate 3 refine bind_of_eq_some rfl ?_
  refine bind_of_eq_some (@engineOf_engineValue φ p.engine) ?_
  iterate 5 refine bind_of_eq_some rfl ?_
  refine bind_of_eq_some (@tupleOf_groups φ p.eligibleGpuSets) ?_
  refine bind_of_eq_some rfl ?_
  refine bind_of_eq_some (@orNone_text φ p.quantization) ?_
  refine bind_of_eq_some rfl ?_
  refine bind_of_eq_some (orNone_int p.maxNumSeqs) ?_
  refine bind_of_eq_some (orNone_int p.maxNumBatchedTokens) ?_
  iterate 2 refine bind_of_eq_some rfl ?_
  refine bind_of_eq_some (@tupleOf_ints φ p.idleVramMibPerGpu) ?_
  refine bind_of_eq_some (@tupleOf_ints φ p.peakVramMibPerGpu) ?_
  refine bind_of_eq_some (@tupleOf_ints φ p.gpuHeadroomMibPerGpu) ?_
  refine bind_of_eq_some (@tupleOf_texts φ (sortedTexts p.capabilities)) ?_
  iterate 2 refine bind_of_eq_some rfl ?_
  refine bind_of_eq_some (orNone_int p.kvCacheCapacityTokens) ?_
  refine bind_of_eq_some (orNone_float p.maxFullLengthConcurrency) ?_
  refine bind_of_eq_some rfl ?_
  refine bind_of_eq_some (orNone_tuple p.sleepVramMibPerGpu) ?_
  refine bind_of_eq_some (orNone_float p.weightCacheOffloadSeconds) ?_
  refine bind_of_eq_some (orNone_float p.weightCacheActivationSeconds) ?_
  rw [toFinset_sortedTexts]
  rfl

end roundTrip

/-! ### Back from the text -/

section text

variable {φ : Type} {ok : Text → Prop}

/-- The strings of a profile are all as it says, and its launch arguments are a
JSON object. -/
structure Strings (ok : Text → Prop) (p : PlacementProfile Text φ) : Prop where
  id : ok p.id
  modelId : ok p.modelId
  modelRevision : ok p.modelRevision
  engineVersion : ok p.engineVersion
  machineFingerprint : ok p.machineFingerprint
  eligibleGpuSets : ∀ group ∈ p.eligibleGpuSets, ∀ gpu ∈ group, ok gpu
  dtype : ok p.dtype
  quantization : ∀ q ∈ p.quantization, ok q
  capabilities : ∀ c ∈ p.capabilities, ok c
  launchArgs : (.dict p.launchArgs : Value φ).Proper ok
  memoryBackend : ok p.memoryBackend

theorem properItems_map {α : Type} {value : α → Value φ} : ∀ {as : List α}, (∀ a ∈ as, (value a).Proper ok) →
    Value.ProperItems ok (as.map value)
  | [], _ => trivial
  | a :: _, h => ⟨h a List.mem_cons_self, properItems_map fun b hb => h b (List.mem_cons_of_mem a hb)⟩

theorem properEntries_of_forall : ∀ {entries : List (Text × Value φ)}, (∀ k ∈ entries.map Prod.fst, ok k) →
    (∀ x ∈ entries.map Prod.snd, x.Proper ok) → Value.ProperEntries ok entries
  | [], _, _ => trivial
  | _ :: _, hkeys, hvalues => ⟨hkeys _ List.mem_cons_self, hvalues _ List.mem_cons_self,
    properEntries_of_forall (fun k hk => hkeys k (List.mem_cons_of_mem _ hk))
      fun x hx => hvalues x (List.mem_cons_of_mem _ hx)⟩

theorem proper_getD_null {α : Type} {value : α → Value φ} {x : Option α} (h : ∀ a ∈ x, (value a).Proper ok) :
    ((x.map value).getD .null).Proper ok := by
  cases x with
  | none => trivial
  | some a => exact h a rfl

/-- The names of the fields. -/
def fieldNames : List String :=
  ["id", "model_id", "model_revision", "engine", "engine_version", "machine_fingerprint", "gpu_count",
    "tensor_parallel_size", "pipeline_parallel_size", "eligible_gpu_sets", "dtype", "quantization", "max_model_len",
    "max_num_seqs", "max_num_batched_tokens", "predicted_tokens_per_second", "load_and_warmup_seconds",
    "idle_vram_mib_per_gpu", "peak_vram_mib_per_gpu", "gpu_headroom_mib_per_gpu", "capabilities", "launch_args",
    "gpu_memory_utilization", "kv_cache_capacity_tokens", "max_full_length_concurrency", "memory_backend",
    "sleep_vram_mib_per_gpu", "weight_cache_offload_seconds", "weight_cache_activation_seconds"]

theorem keys_profileToDict (p : PlacementProfile Text φ) :
    (profileToDict p).map Prod.fst = fieldNames.map ofString := rfl

theorem keys_entriesOf (p : PlacementProfile Text φ) : (entriesOf p).map Prod.fst = fieldNames.map ofString := rfl

theorem proper_entriesOf {p : PlacementProfile Text φ} (hnames : ∀ name : String, ok (ofString name))
    (h : Strings ok p) : (.dict (entriesOf p) : Value φ).Proper ok := by
  have hkeys : ((entriesOf p).map Prod.fst).Nodup := by
    rw [keys_entriesOf]
    exact List.Nodup.map ofString_injective (by decide)
  have hvalues : ∀ x ∈ (entriesOf p).map Prod.snd, x.Proper ok := by
    have hsleep : ((optionalTuple p.sleepVramMibPerGpu).stored : Value φ).Proper ok := by
      cases p.sleepVramMibPerGpu with
      | none => trivial
      | some mib => exact properItems_map fun _ _ => trivial
    have heligible : (.list (p.eligibleGpuSets.map fun group => .list (group.map .string)) : Value φ).Proper ok :=
      properItems_map fun group hgroup => properItems_map fun gpu hgpu => h.eligibleGpuSets group hgroup gpu hgpu
    have hcapabilities : (.list ((sortedTexts p.capabilities).map .string) : Value φ).Proper ok :=
      properItems_map fun c hc => h.capabilities c (mem_sortedTexts.mp hc)
    have hengine : ok (engineValue p.engine) := by
      cases p.engine <;> exact hnames _
    have hints : ∀ xs : List ℤ, (.list (xs.map .int) : Value φ).Proper ok := fun xs =>
      properItems_map fun _ _ => trivial
    have hint : ∀ x : Option ℤ, ((x.map .int).getD .null : Value φ).Proper ok := fun x =>
      proper_getD_null fun _ _ => trivial
    have hfloat : ∀ x : Option φ, ((x.map .float).getD .null : Value φ).Proper ok := fun x =>
      proper_getD_null fun _ _ => trivial
    have hquantization : ((p.quantization.map .string).getD .null : Value φ).Proper ok :=
      proper_getD_null h.quantization
    show ∀ x ∈ [.string p.id, .string p.modelId, .string p.modelRevision, .string (engineValue p.engine),
      .string p.engineVersion, .string p.machineFingerprint, .int p.gpuCount, .int p.tensorParallelSize,
      .int p.pipelineParallelSize, .list (p.eligibleGpuSets.map fun group => .list (group.map .string)),
      .string p.dtype, (p.quantization.map .string).getD .null, .int p.maxModelLen,
      (p.maxNumSeqs.map .int).getD .null, (p.maxNumBatchedTokens.map .int).getD .null,
      .float p.predictedTokensPerSecond, .float p.loadAndWarmupSeconds, .list (p.idleVramMibPerGpu.map .int),
      .list (p.peakVramMibPerGpu.map .int), .list (p.gpuHeadroomMibPerGpu.map .int),
      .list ((sortedTexts p.capabilities).map .string), .dict p.launchArgs, .float p.gpuMemoryUtilization,
      (p.kvCacheCapacityTokens.map .int).getD .null, (p.maxFullLengthConcurrency.map .float).getD .null,
      .string p.memoryBackend, (optionalTuple p.sleepVramMibPerGpu).stored,
      (p.weightCacheOffloadSeconds.map .float).getD .null, (p.weightCacheActivationSeconds.map .float).getD .null],
      (x : Value φ).Proper ok
    simp only [List.forall_mem_cons]
    exact ⟨h.id, h.modelId, h.modelRevision, hengine, h.engineVersion, h.machineFingerprint, trivial, trivial, trivial,
      heligible, h.dtype, hquantization, trivial, hint _, hint _, trivial, trivial, hints _, hints _, hints _,
      hcapabilities, h.launchArgs, trivial, hint _, hfloat _, h.memoryBackend, hsleep, hfloat _, hfloat _, nofun⟩
  rw [Value.Proper]
  refine ⟨hkeys, properEntries_of_forall (fun k hk => ?_) hvalues⟩
  rw [keys_entriesOf] at hk
  obtain ⟨name, -, rfl⟩ := List.mem_map.mp hk
  exact hnames name

theorem properEntries_append {extra : List (Text × Value φ)} (hextra : Value.ProperEntries ok extra) :
    ∀ {entries : List (Text × Value φ)}, Value.ProperEntries ok entries → Value.ProperEntries ok (entries ++ extra)
  | [], _ => hextra
  | _ :: _, h => ⟨h.1, h.2.1, properEntries_append hextra h.2.2⟩

/-- The object of a profile with further fields, under other names. -/
theorem proper_append {p : PlacementProfile Text φ} (hnames : ∀ name : String, ok (ofString name)) (h : Strings ok p)
    {names : List String} (hnodup : (fieldNames ++ names).Nodup) {extra : List (Text × Value φ)}
    (hkeys : extra.map Prod.fst = names.map ofString) (hvalues : ∀ x ∈ extra.map Prod.snd, x.Proper ok) :
    (.dict (entriesOf p ++ extra) : Value φ).Proper ok := by
  have hp := proper_entriesOf hnames h
  rw [Value.Proper] at hp ⊢
  refine ⟨?_, properEntries_append (properEntries_of_forall ?_ hvalues) hp.2⟩
  · rw [List.map_append, keys_entriesOf, hkeys, ← List.map_append]
    exact hnodup.map ofString_injective
  · rw [hkeys]
    intro k hk
    obtain ⟨name, -, rfl⟩ := List.mem_map.mp hk
    exact hnames name

/-- Fields that are no fields of a profile may stand after it. -/
theorem jsonObject_append (p : PlacementProfile Text φ) (extra : List (Text × Value φ)) :
    jsonObject (profileToDict p ++ extra.map fun e => (e.1, .value e.2)) = some (entriesOf p ++ extra) := by
  have hextra : jsonObject (extra.map fun e => (e.1, .value e.2)) = some extra := by
    unfold jsonObject
    exact mapM_map (fun e : Text × Value φ => (e.1, Field.value e.2)) (fun _ => rfl) extra
  have hp := jsonObject_profileToDict p
  unfold jsonObject at hp hextra ⊢
  rw [List.mapM_append, hp, hextra]
  rfl

variable [Conversions φ]

theorem profileText_eq (p : PlacementProfile Text φ) : profileText p = dumpsAscii (.dict (entriesOf p)) := by
  rw [profileText, dumpsDict, jsonObject_profileToDict]
  rfl

variable [LawfulInterpreter φ]

/-- A stored profile decodes to itself. -/
theorem decode_profileText {p : PlacementProfile Text φ} {text : List Char} (h : Strings Joined p)
    (htext : profileText p = some text) : decodeProfile text = some p := by
  have hproper := proper_entriesOf joined_ofString h
  rw [profileText_eq] at htext
  have hloads : (loads text : Except LoadError (Value φ)) = .ok (.dict (entriesOf p)) := loads_dumpsAscii hproper htext
  have hdecoded := profileFromDict_entries p []
  rw [List.append_nil] at hdecoded
  rw [decodeProfile, hloads]
  exact hdecoded

end text

end Profiles
end LlmRio
