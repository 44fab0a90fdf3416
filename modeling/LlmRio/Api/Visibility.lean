/-
# The models that a key can use

`/v1/models` lists the models that are available to a principal, and
`_resolve_model` finds the model of a request. A user's key needs a grant of the
model, a key of staff does not; the model has to be AVAILABLE, and it is callable
if it has an active profile on this machine, one that kvcached has validated
where kvcached is on.

The two agree: the list has each model once (`availableModels_nodup`), a model
that it has is found if it is callable, and is refused for what its state says if
it is not (`resolveModel_listed`); a model that it has not is refused with the
nicknames that it has (`resolveModel_unlisted`).

Key definitions: `forModel`, `availableModels`, `resolveModel`, `listModels`.
Key theorems: `mem_availableModels`, `availableModels_nodup`, `resolveModel_listed`,
`resolveModel_unlisted`, `resolveModel_not_allowed`.
-/
import LlmRio.Storage.Models
import LlmRio.Api.Principals
import Mathlib.Data.List.Flatten

namespace LlmRio

open Transactions

/-- The text of a state in the catalog. -/
def CatalogState.value : CatalogState → String
  | .requested => "REQUESTED"
  | .downloading => "DOWNLOADING"
  | .validationPending => "VALIDATION_PENDING"
  | .validating => "VALIDATING"
  | .available => "AVAILABLE"
  | .needsAdminReview => "NEEDS_ADMIN_REVIEW"
  | .disabled => "DISABLED"

/-- A profile as `/v1/models` shows it. -/
structure ProfileEntry where
  id : ProfileId
  engine : Engine
  memoryBackend : String
  gpuCount : ℕ
  tensorParallelSize : ℕ
  eligibleGpuSets : List (List GpuUuid)

/-- A model as `/v1/models` shows it. -/
structure ModelEntry where
  id : String
  object : String := "model"
  ownedBy : String := "llm-rio"
  state : String
  callable : Bool
  revision : Option String
  profileIds : List ProfileId
  placementProfiles : List ProfileEntry
  capabilities : List String
  requestDefaults : String → Option String
  sourceModelId : Option ModelId

namespace ModelStore

variable {κ : Type} (s : ModelStore κ) (fingerprint : String) (kvcached : Bool) (principal : KeyPrincipal)

/-! ### Profiles that can be routed to -/

/-- `ORDER BY gpu_count, predicted_tokens_per_second DESC` -/
def profileBefore (r t : ProfileRow κ) : Bool :=
  r.profileJson.gpuCount < t.profileJson.gpuCount ∨
    (r.profileJson.gpuCount = t.profileJson.gpuCount ∧
      t.profileJson.predictedTokensPerSecond ≤ r.profileJson.predictedTokensPerSecond)

def forModel (modelId : ModelId) : List VerifiedProfile :=
  ((s.activeRows fingerprint modelId).insertionSort fun r t => profileBefore r t).map fun r =>
    { r.profileJson with id := r.id, machineFingerprint := fingerprint }

/-- `_routable_profiles`; `kvcached` says whether its runtime is enabled. -/
def routableProfiles (profiles : List VerifiedProfile) : List VerifiedProfile :=
  if ¬ kvcached then profiles else profiles.filter fun p => p.engine = .vllm ∧ p.memoryBackend = "kvcached"

/-! ### Models that are available -/

def hasModelGrant (keyId : KeyId) (modelId : ModelId) : Bool := s.modelGrants.any (· = (keyId, modelId))

def modelByNickname (nickname : String) : Option CatalogRow := s.modelCatalog.find? (·.nickname = nickname)

/-- `list_models`: the catalog, or the models that are granted to a key and
available, one for each row of the join. -/
def catalogModels (keyId : Option KeyId) : List CatalogRow :=
  let granted (k : KeyId) (m : CatalogRow) : List CatalogRow :=
    (s.modelGrants.filter fun g => g.2 = m.id ∧ g.1 = k).map fun _ => m
  let rows : List CatalogRow := match keyId with
    | none => s.modelCatalog
    | some k => (s.modelCatalog.flatMap (granted k)).filter (·.state = .available)
  rows.mergeSort fun m n => decide (m.nickname ≤ n.nickname)

def availableModels : List CatalogRow :=
  if principal.role = .user then s.catalogModels (some principal.keyId)
  else (s.catalogModels none).filter (·.state = .available)

def resolveModel (nickname : String) : Except ApiError CatalogRow :=
  let available := (s.availableModels principal).map (·.nickname)
  match s.modelByNickname nickname with
  | none => .error
      { code := "model_not_found", message := "Model '" ++ nickname ++ "' is not in this machine's catalog"
        statusCode := 404, details := [("available_models", .names available)] }
  | some model =>
    if principal.role = .user ∧ ¬ s.hasModelGrant principal.keyId model.id then .error
      { code := "model_not_allowed", message := "This key is not granted access to model '" ++ nickname ++ "'"
        statusCode := 403, details := [("available_models", .names available)] }
    else if model.state ≠ .available then .error
      { code := "model_unavailable", message := "Model '" ++ nickname ++ "' is not available", statusCode := 409
        details := [("catalog_state", .text model.state.value), ("available_models", .names available)] }
    else
      let profiles := s.forModel fingerprint model.id
      if profiles = [] then .error
        { code := "model_verification_required"
          message := "This model needs verification on the current machine fingerprint", statusCode := 503 }
      else if routableProfiles kvcached profiles = [] then .error
        { code := "prism_profile_revalidation_required"
          message := "This model needs a vLLM placement profile validated with kvcached", statusCode := 503
          details := [("required_memory_backend", .text "kvcached")] }
      else .ok model

/-- A model of `/v1/models`. -/
def modelEntry (model : CatalogRow) : ModelEntry :=
  let profiles := s.forModel fingerprint model.id
  let routable := routableProfiles kvcached profiles
  { id := model.nickname
    state := if routable ≠ [] then "available"
      else if profiles ≠ [] then "prism_profile_revalidation_required" else "verification_required"
    callable := routable ≠ []
    revision := model.resolvedRevision
    profileIds := profiles.map (·.id)
    placementProfiles := profiles.map fun p => ⟨p.id, p.engine, p.memoryBackend, p.gpuCount, p.tensorParallelSize,
      p.eligibleGpuSets⟩
    capabilities := model.capabilities
    requestDefaults := model.requestDefaults
    sourceModelId := model.sourceModelId }

/-- `/v1/models` -/
def listModels : List ModelEntry := (s.availableModels principal).map (s.modelEntry fingerprint kvcached)

/-! ### The list and the requests agree -/

variable {s fingerprint kvcached principal}

theorem hasModelGrant_iff {k : KeyId} {m : ModelId} : s.hasModelGrant k m = true ↔ (k, m) ∈ s.modelGrants := by
  simp [hasModelGrant]

/-- A model is available to staff, or to a key that it is granted to. -/
theorem mem_availableModels {m : CatalogRow} :
    m ∈ s.availableModels principal ↔ m ∈ s.modelCatalog ∧ m.state = .available ∧
      (principal.role = .user → (principal.keyId, m.id) ∈ s.modelGrants) := by
  unfold availableModels catalogModels
  split
  · rename_i huser
    simp only [List.mem_mergeSort, List.mem_filter, List.mem_flatMap, List.mem_map, decide_eq_true_eq, huser,
      true_imp_iff]
    constructor
    · rintro ⟨⟨m', hm', ⟨k, j⟩, ⟨hg, hj, hk⟩, rfl⟩, hstate⟩
      obtain rfl : j = m'.id := hj
      obtain rfl : k = principal.keyId := hk
      exact ⟨hm', hstate, hg⟩
    · rintro ⟨hm, hstate, hg⟩
      exact ⟨⟨m, hm, _, ⟨hg, rfl, rfl⟩, rfl⟩, hstate⟩
  · rename_i hstaff
    simp only [List.mem_mergeSort, List.mem_filter, decide_eq_true_eq, hstaff, false_imp_iff, and_true]

/-- A model has at most one grant to a key. -/
theorem grants_sublist (hgrants : s.modelGrants.Nodup) (k : KeyId) (m : CatalogRow) :
    List.Sublist ((s.modelGrants.filter fun g => g.2 = m.id ∧ g.1 = k).map fun _ => m) [m] := by
  have hpair : (s.modelGrants.filter fun g => g.2 = m.id ∧ g.1 = k) = s.modelGrants.filter (· = (k, m.id)) :=
    List.filter_congr fun g _ => by simp [Prod.ext_iff, and_comm]
  rw [hpair]
  by_cases hin : (k, m.id) ∈ s.modelGrants
  · have hone : s.modelGrants.filter (· = (k, m.id)) = [(k, m.id)] :=
      Table.filter_key (hgrants.map_on fun _ _ _ _ h => h) hin
    rw [hone]
    exact List.Sublist.refl _
  · have hnone : s.modelGrants.filter (· = (k, m.id)) = [] :=
      List.filter_eq_nil_iff.mpr fun g hg h => hin (of_decide_eq_true h ▸ hg)
    rw [hnone]
    exact List.nil_sublist _

/-- Each model that is available is there once. -/
theorem availableModels_nodup (hn : (s.modelCatalog.map (·.nickname)).Nodup) (hgrants : s.modelGrants.Nodup) :
    ((s.availableModels principal).map (·.nickname)).Nodup := by
  unfold availableModels catalogModels
  split
  · refine ((List.mergeSort_perm _ _).map _).nodup_iff.mpr ((List.Sublist.map _ ?_).nodup hn)
    refine List.filter_sublist.trans ?_
    refine (List.Sublist.flatMap_right _ fun m _ => grants_sublist hgrants principal.keyId m).trans ?_
    rw [List.flatMap_singleton']
  · refine (List.Sublist.map _ List.filter_sublist).nodup ?_
    exact ((List.mergeSort_perm _ _).map _).nodup_iff.mpr hn

theorem modelByNickname_some {n : String} {m : CatalogRow} (h : s.modelByNickname n = some m) :
    m ∈ s.modelCatalog ∧ m.nickname = n := by
  have hn := List.find?_some h
  simp only [decide_eq_true_eq] at hn
  exact ⟨List.mem_of_find?_eq_some h, hn⟩

/-- With distinct nicknames, the row of a nickname is found. -/
theorem modelByNickname_of_mem (hn : (s.modelCatalog.map (·.nickname)).Nodup) {m : CatalogRow}
    (hm : m ∈ s.modelCatalog) : s.modelByNickname m.nickname = some m := by
  cases hfind : s.modelByNickname m.nickname with
  | none => exact absurd (decide_eq_true rfl) (List.find?_eq_none.mp hfind m hm)
  | some m' =>
    obtain ⟨hm', hsame⟩ := modelByNickname_some hfind
    rw [List.inj_on_of_nodup_map hn hm' hm hsame]

/-- A model that the list has is found; what is left to ask is its profiles. -/
theorem resolveModel_listed (hn : (s.modelCatalog.map (·.nickname)).Nodup) {m : CatalogRow}
    (hm : m ∈ s.availableModels principal) :
    ((s.modelEntry fingerprint kvcached m).callable = true →
      s.resolveModel fingerprint kvcached principal m.nickname = .ok m) ∧
    ((s.modelEntry fingerprint kvcached m).callable = false →
      ∃ e, s.resolveModel fingerprint kvcached principal m.nickname = .error e ∧ e.statusCode = 503 ∧
        e.code = if (s.modelEntry fingerprint kvcached m).state = "verification_required" then
          "model_verification_required" else "prism_profile_revalidation_required") := by
  obtain ⟨hmem, hstate, hgrant⟩ := mem_availableModels.mp hm
  have hallowed : ¬ (principal.role = .user ∧ ¬ s.hasModelGrant principal.keyId m.id = true) :=
    fun h => h.2 (hasModelGrant_iff.mpr (hgrant h.1))
  unfold resolveModel modelEntry
  simp only [modelByNickname_of_mem hn hmem, if_neg hallowed, hstate, ne_eq, not_true_eq_false, if_false,
    decide_eq_true_eq, decide_eq_false_iff_not, not_not]
  generalize s.forModel fingerprint m.id = profiles
  constructor
  · intro hroutable
    have hprofiles : profiles ≠ [] := by
      rintro rfl
      unfold routableProfiles at hroutable
      rw [List.filter_nil, ite_self] at hroutable
      exact hroutable rfl
    rw [if_neg hprofiles, if_neg hroutable]
  · intro hroutable
    by_cases hprofiles : profiles = []
    · obtain rfl := hprofiles
      rw [if_pos rfl]
      exact ⟨_, rfl, rfl, by simp [hroutable]⟩
    · rw [if_neg hprofiles, if_pos hroutable]
      exact ⟨_, rfl, rfl, by simp [hroutable, hprofiles]⟩

/-- A model that the list does not have is refused, and the error carries the
nicknames that the list has. -/
theorem resolveModel_unlisted {n : String} (hn : ∀ m ∈ s.availableModels principal, m.nickname ≠ n) :
    ∃ e, s.resolveModel fingerprint kvcached principal n = .error e ∧
      (e.statusCode = 404 ∨ e.statusCode = 403 ∨ e.statusCode = 409) ∧
      ("available_models", ErrorDetail.names ((s.availableModels principal).map (·.nickname))) ∈ e.details := by
  unfold resolveModel
  split
  · exact ⟨_, rfl, .inl rfl, List.mem_cons_self⟩
  · rename_i m hfind
    obtain ⟨hmem, hnickname⟩ := modelByNickname_some hfind
    split
    · exact ⟨_, rfl, .inr (.inl rfl), List.mem_cons_self⟩
    · rename_i hallowed
      split
      · exact ⟨_, rfl, .inr (.inr rfl), List.mem_cons_of_mem _ List.mem_cons_self⟩
      · rename_i hstate
        refine absurd hnickname (hn m (mem_availableModels.mpr ⟨hmem, not_not.mp hstate, fun huser => ?_⟩))
        by_contra hgrant
        exact hallowed ⟨huser, fun h => hgrant (hasModelGrant_iff.mp h)⟩

/-- A model of the catalog is not allowed if the key of a user has no grant of it. -/
theorem resolveModel_not_allowed (hn : (s.modelCatalog.map (·.nickname)).Nodup) {m : CatalogRow}
    (hm : m ∈ s.modelCatalog) :
    (∃ e, s.resolveModel fingerprint kvcached principal m.nickname = .error e ∧ e.statusCode = 403 ∧
      e.code = "model_not_allowed") ↔ principal.role = .user ∧ (principal.keyId, m.id) ∉ s.modelGrants := by
  unfold resolveModel
  simp only [modelByNickname_of_mem hn hm, hasModelGrant_iff]
  by_cases hallowed : principal.role = .user ∧ (principal.keyId, m.id) ∉ s.modelGrants
  · rw [if_pos hallowed]
    exact iff_of_true ⟨_, rfl, rfl, rfl⟩ hallowed
  · rw [if_neg hallowed]
    refine iff_of_false ?_ hallowed
    rintro ⟨e, he, hstatus, -⟩
    split at he
    · cases he
      exact absurd hstatus (by simp)
    · split at he
      · cases he
        exact absurd hstatus (by simp)
      · split at he <;> cases he
        exact absurd hstatus (by simp)

/-- A model that is found is one of the list. -/
theorem resolveModel_ok (hn : (s.modelCatalog.map (·.nickname)).Nodup) {n : String} {row : CatalogRow}
    (hok : s.resolveModel fingerprint kvcached principal n = .ok row) :
    row ∈ s.availableModels principal ∧ row.nickname = n ∧
      (s.modelEntry fingerprint kvcached row).callable = true := by
  by_cases hlisted : ∃ m ∈ s.availableModels principal, m.nickname = n
  · obtain ⟨m, hm, rfl⟩ := hlisted
    obtain ⟨hfound, hrefused⟩ := resolveModel_listed hn hm
    cases hcallable : (s.modelEntry fingerprint kvcached m).callable with
    | true =>
      rw [hfound hcallable] at hok
      cases hok
      exact ⟨hm, rfl, hcallable⟩
    | false =>
      obtain ⟨e, he, -⟩ := hrefused hcallable
      rw [he] at hok
      cases hok
  · obtain ⟨e, he, -⟩ := resolveModel_unlisted
      fun m hm hname => hlisted ⟨m, hm, hname⟩
    rw [he] at hok
    cases hok

end ModelStore
end LlmRio
