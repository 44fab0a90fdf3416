/-
# The context limit of a model

`max_context_tokens` of a catalog row is the minimum of `max_model_len` over the
profiles of the model that are active on the machine. Five calls change which
these are: a registration, a clone, the edit of a profile, its activation, and
the start on another machine. Two of them recompute the minimum with a query
(`syncContextLimit`), two set it from the list of profiles that they store.

For these the rows must be the profiles of the list: the key of a row
identifies its profile, and with it the model and the machine
(`ProfilesOwned`), so that the upsert of a registration revives rows of its own
model only (`upserted`).

Key definitions: `ModelOp`, `step`, `ProfilesOwned`, `LimitOf`.
Key theorems: `upserted`, `synced_step`, `context_limit`.
-/
import LlmRio.Lib.Runs
import LlmRio.Storage.Models

namespace LlmRio

open Runs Transactions

namespace ModelStore

variable {κ : Type} (sha256 : ProfileIdentity → κ)

/-! ### Calls -/

/-- What a probe of the validator returns for a measurement. -/
def probed (fingerprint : String) (job : ModelJob) (revision : String) (p : VerifiedProfile) : VerifiedProfile :=
  { p with modelId := job.modelId, modelRevision := revision, machineFingerprint := fingerprint }

inductive ModelOp (κ : Type)
  | createJob (modelId : ModelId) (jobId : JobId) (nickname repo : String) (revision : Option String)
      (creatorKeyId : KeyId) (grantKeyIds activeKeys : List KeyId)
  | updateJob (jobId : JobId) (u : JobUpdate)
  | complete (job : ModelJob) (resolvedRevision : String) (artifactHashes : List Artifact) (artifactPath : String)
      (measured : List VerifiedProfile)
  | disable (modelId : ModelId)
  | clone (seen : ModelStore κ) (source : CatalogRow) (modelId : ModelId) (newId : ProfileId → ProfileId)
      (rope : RopeConfiguration) (request : CloneRequest)
  | editProfile (seen : ModelStore κ) (modelId : ModelId) (profileId : ProfileId) (edit : ProfileEdit)
      (makeDefault : Bool)
  | setActive (modelId : ModelId) (profileId : ProfileId) (active : Bool)
  | startup (fingerprint : String)

variable [DecidableEq κ] in
/-- One call; a call that raises leaves the store as it was. The service works
on the machine that its start has stored; a fingerprint is a hex digest. -/
def step (s : ModelStore κ) : ModelOp κ → Option (ModelStore κ)
  | .createJob m j nickname repo revision creator grants keys =>
    some (commit s (s.createModelJob m j nickname repo revision creator grants keys))
  | .updateJob j u => some (commit s (s.updateModelJob j u))
  | .complete job revision hashes path measured => s.machineFingerprint.map fun fp =>
    commit s (s.completeRegistration sha256 fp job revision hashes path (measured.map (probed fp job revision)))
  | .disable m => some (s.disableModel m).1
  | .clone seen source m newId rope request => s.machineFingerprint.map fun fp =>
    commit s (s.cloneModel sha256 seen fp source m newId rope request)
  | .editProfile seen m p edit makeDefault => s.machineFingerprint.map fun fp =>
    commit s ((s.updateModelProfile sha256 seen fp m p edit makeDefault).map (·.1))
  | .setActive m p active => s.machineFingerprint.map fun fp => (s.setActive fp m p active).1
  | .startup fp => if fp = "" then none else some (s.recoverJobs.setMachineFingerprint fp).1

/-! ### The rows of a profile -/

/-- Every row is the profile of its model on its machine, and its key is that of
the profile; only profiles of the present machine are active. -/
structure ProfilesOwned (s : ModelStore κ) : Prop where
  ids : (s.modelProfiles.map (·.id)).Nodup
  key : ∀ r ∈ s.modelProfiles, r.profileKey = sha256 r.profileJson.identity
  owner : ∀ r ∈ s.modelProfiles,
    r.profileJson.modelId = r.modelId ∧ r.profileJson.machineFingerprint = r.machineFingerprint
  stored : ∀ r ∈ s.modelProfiles, s.hasModel r.modelId = true
  current : ∀ r ∈ s.modelProfiles, r.active = true → s.machineFingerprint = some r.machineFingerprint
  machine : s.machineFingerprint ≠ some ""

variable {sha256} {s s' : ModelStore κ} {fp : String} {m m' : ModelId} {r : ProfileRow κ} {p : VerifiedProfile}

theorem hasModel_iff : s.hasModel m = true ↔ m ∈ s.modelCatalog.map (·.id) := by
  simp [hasModel]

/-- The catalog keeps its models. -/
theorem ProfilesOwned.congr (h : ProfilesOwned sha256 s) (hprofiles : s'.modelProfiles = s.modelProfiles)
    (hmachine : s'.machineFingerprint = s.machineFingerprint)
    (hmodels : ∀ m ∈ s.modelCatalog.map (·.id), m ∈ s'.modelCatalog.map (·.id)) : ProfilesOwned sha256 s' := by
  refine ⟨hprofiles ▸ h.ids, hprofiles ▸ h.key, hprofiles ▸ h.owner, ?_, ?_, hmachine ▸ h.machine⟩
  · rw [hprofiles]
    exact fun r hr => hasModel_iff.mpr (hmodels _ (hasModel_iff.mp (h.stored r hr)))
  · rw [hprofiles, hmachine]
    exact h.current

/-- Rows are changed within their id, model and machine. -/
theorem ProfilesOwned.map (h : ProfilesOwned sha256 s) {f : ProfileRow κ → ProfileRow κ}
    (hsame : ∀ r, (f r).id = r.id ∧ (f r).modelId = r.modelId ∧ (f r).machineFingerprint = r.machineFingerprint)
    (hkey : ∀ r ∈ s.modelProfiles, (f r).profileKey = sha256 (f r).profileJson.identity)
    (howner : ∀ r ∈ s.modelProfiles,
      (f r).profileJson.modelId = r.modelId ∧ (f r).profileJson.machineFingerprint = r.machineFingerprint)
    (hactive : ∀ r ∈ s.modelProfiles, (f r).active = true → s.machineFingerprint = some r.machineFingerprint) :
    ProfilesOwned sha256 { s with modelProfiles := s.modelProfiles.map f } := by
  refine ⟨?_, List.forall_mem_map.mpr hkey, List.forall_mem_map.mpr fun r hr => ?_,
    List.forall_mem_map.mpr fun r hr => ?_, List.forall_mem_map.mpr fun r hr => ?_, h.machine⟩
  · have hids : (s.modelProfiles.map f).map (·.id) = s.modelProfiles.map (·.id) := by
      rw [List.map_map]
      exact List.map_congr_left fun r _ => (hsame r).1
    rw [hids]
    exact h.ids
  · rw [(hsame r).2.1, (hsame r).2.2]
    exact howner r hr
  · rw [(hsame r).2.1]
    exact h.stored r hr
  · rw [(hsame r).2.2]
    exact hactive r hr

theorem ProfilesOwned.setActiveWhere (h : ProfilesOwned sha256 s) {select : ProfileRow κ → Bool} {active : Bool}
    (hmachine : active = true → ∀ r ∈ s.modelProfiles, select r = true →
      s.machineFingerprint = some r.machineFingerprint) :
    ProfilesOwned sha256 (s.setActiveWhere select active) := by
  refine h.map (fun r => ?_) (fun r hr => ?_) (fun r hr => ?_) fun r hr => ?_
  · split <;> exact ⟨rfl, rfl, rfl⟩
  · split <;> exact h.key r hr
  · split <;> exact h.owner r hr
  · split
    · rename_i hselect
      exact fun hactive => hmachine hactive r hr hselect
    · exact h.current r hr

theorem ProfilesOwned.deactivate (h : ProfilesOwned sha256 s) (fp : String) (m : ModelId) :
    ProfilesOwned sha256 (s.deactivate fp m) :=
  h.setActiveWhere fun hactive => nomatch hactive

theorem map_id_modify {f : CatalogRow → CatalogRow} (hf : ∀ row, (f row).id = row.id) (rows : List CatalogRow) :
    (Table.modify (·.id) m f rows).map (·.id) = rows.map (·.id) :=
  Table.map_key_modify (fun row hrow => (hf row).trans hrow) rows

theorem ProfilesOwned.syncContextLimit (h : ProfilesOwned sha256 s) (fp : String) (m : ModelId) :
    ProfilesOwned sha256 (s.syncContextLimit fp m) := by
  unfold ModelStore.syncContextLimit
  simp only
  split
  · exact h
  · refine h.congr rfl rfl fun m' hm' => ?_
    show m' ∈ (Table.modify (·.id) m _ s.modelCatalog).map (·.id)
    rw [map_id_modify]
    · exact hm'
    · exact fun _ => rfl

/-! ### The limit of one model -/

/-- The lengths of the profiles of a model that are active on a machine. -/
def lengths (s : ModelStore κ) (fp : String) (m : ModelId) : List ℤ :=
  (s.activeRows fp m).map (·.profileJson.maxModelLen)

/-- A model with an active profile has the minimum of their lengths as its
limit. -/
def LimitOf (s : ModelStore κ) (m : ModelId) : Prop :=
  ∀ fp, s.machineFingerprint = some fp → s.lengths fp m ≠ [] →
    ∀ row ∈ s.modelCatalog, row.id = m → row.maxContextTokens = (s.lengths fp m).min?

theorem mem_lengths {n : ℤ} : n ∈ s.lengths fp m ↔ ∃ r ∈ s.modelProfiles,
    r.modelId = m ∧ r.machineFingerprint = fp ∧ r.active = true ∧ r.profileJson.maxModelLen = n := by
  simp only [lengths, activeRows, List.mem_map, List.mem_filter, decide_eq_true_eq]
  constructor
  · rintro ⟨r, ⟨hr, h1, h2, h3⟩, hn⟩
    exact ⟨r, hr, h1, h2, h3, hn⟩
  · rintro ⟨r, hr, h1, h2, h3, hn⟩
    exact ⟨r, ⟨hr, h1, h2, h3⟩, hn⟩

theorem min?_congr {xs ys : List ℤ} (h : ∀ n, n ∈ xs ↔ n ∈ ys) : xs.min? = ys.min? := by
  refine Option.ext fun n => ?_
  rw [List.min?_eq_some_iff, List.min?_eq_some_iff, h n]
  exact and_congr_right fun _ => forall_congr' fun k => by rw [h k]

/-- The limit and the active profiles of the model are as before. -/
theorem LimitOf.congr (h : LimitOf s m) (hmachine : s'.machineFingerprint = s.machineFingerprint)
    (hrows : ∀ row' ∈ s'.modelCatalog, row'.id = m →
      ∃ row ∈ s.modelCatalog, row.id = m ∧ row'.maxContextTokens = row.maxContextTokens)
    (hlengths : ∀ fp n, n ∈ s'.lengths fp m ↔ n ∈ s.lengths fp m) : LimitOf s' m := by
  intro fp hfp hne row' hrow' hid
  obtain ⟨row, hrow, hid, hlimit⟩ := hrows row' hrow' hid
  rw [hlimit, min?_congr (hlengths fp)]
  refine h fp (hmachine ▸ hfp) (fun hnil => hne ?_) row hrow hid
  rw [List.eq_nil_iff_forall_not_mem] at hnil ⊢
  exact fun n hn => hnil n ((hlengths fp n).mp hn)

/-- The rows with the key of a profile are that profile's. -/
theorem ProfilesOwned.of_key (h : ProfilesOwned sha256 s) (hinj : Function.Injective sha256)
    (hr : r ∈ s.modelProfiles) (hkey : r.profileKey = sha256 p.identity) :
    r.modelId = p.modelId ∧ r.machineFingerprint = p.machineFingerprint ∧
      r.profileJson.maxModelLen = p.maxModelLen := by
  have hidentity : r.profileJson.identity = p.identity := hinj ((h.key r hr).symm.trans hkey)
  obtain ⟨hmodel, hmachine⟩ := h.owner r hr
  rw [← hmodel, ← hmachine]
  exact ⟨congrArg ProfileIdentity.modelId hidentity, congrArg ProfileIdentity.machineFingerprint hidentity,
    congrArg ProfileIdentity.maxModelLen hidentity⟩

/-! ### Registrations -/

/-- An active row of the profile. -/
def HasRow (sha256 : ProfileIdentity → κ) (p : VerifiedProfile) (r : ProfileRow κ) : Prop :=
  r.profileKey = sha256 p.identity ∧ r.modelId = p.modelId ∧ r.machineFingerprint = p.machineFingerprint ∧
    r.active = true ∧ r.profileJson.maxModelLen = p.maxModelLen

/-- What the upserts of a registration have done for the profiles `done` of the
model `m`: its active rows are theirs, and no other model's rows have changed. -/
structure Upserted (sha256 : ProfileIdentity → κ) (fp : String) (m : ModelId) (s : ModelStore κ)
    (done : List VerifiedProfile) (t : ModelStore κ) : Prop where
  owned : ProfilesOwned sha256 t
  catalog : t.modelCatalog = s.modelCatalog
  machine : t.machineFingerprint = s.machineFingerprint
  others : ∀ m' ≠ m, ∀ fp n, n ∈ t.lengths fp m' ↔ n ∈ s.lengths fp m'
  active : ∀ r ∈ t.modelProfiles, r.modelId = m → r.active = true →
    ∃ p ∈ done, p.maxModelLen = r.profileJson.maxModelLen
  present : ∀ p ∈ done, ∃ r ∈ t.modelProfiles, r.modelId = m ∧ r.machineFingerprint = fp ∧ r.active = true ∧
    r.profileKey = sha256 p.identity

/-- After the upserts the lengths of the model are those of the profiles. -/
theorem Upserted.lengths {ps : List VerifiedProfile} {t : ModelStore κ} (hinj : Function.Injective sha256)
    (h : Upserted sha256 fp m s ps t) (n : ℤ) :
    n ∈ t.lengths fp m ↔ n ∈ ps.map (·.maxModelLen) := by
  rw [mem_lengths, List.mem_map]
  constructor
  · rintro ⟨r, hr, hm, -, hactive, rfl⟩
    exact h.active r hr hm hactive
  · rintro ⟨p, hp, rfl⟩
    obtain ⟨r, hr, hm, hrfp, hactive, hkey⟩ := h.present p hp
    exact ⟨r, hr, hm, hrfp, hactive, (h.owned.of_key hinj hr hkey).2.2⟩

section registration

variable [DecidableEq κ]

theorem ProfilesOwned.insertProfile {row : ProfileRow κ} (h : ProfilesOwned sha256 s)
    (hok : s.insertProfile row = .ok s') (hkey : row.profileKey = sha256 row.profileJson.identity)
    (howner : row.profileJson.modelId = row.modelId ∧ row.profileJson.machineFingerprint = row.machineFingerprint)
    (hmachine : s.machineFingerprint = some row.machineFingerprint) :
    s' = { s with modelProfiles := s.modelProfiles ++ [row] } ∧ ProfilesOwned sha256 s' := by
  unfold ModelStore.insertProfile at hok
  obtain ⟨hguard, hok⟩ := guard_eq_ok.mp hok
  obtain rfl := Except.ok.inj hok
  rw [not_or, not_not, List.any_eq_true] at hguard
  obtain ⟨hfresh, hmodel⟩ := hguard
  have hid : row.id ∉ s.modelProfiles.map (·.id) := by
    intro hin
    obtain ⟨r, hr, hid⟩ := List.mem_map.mp hin
    exact hfresh ⟨r, hr, by simp [hid]⟩
  refine ⟨rfl, ?_, ?_, ?_, ?_, ?_, h.machine⟩
  · rw [List.map_append, List.map_singleton, List.nodup_append]
    refine ⟨h.ids, List.nodup_singleton _, fun a ha b hb => ?_⟩
    rw [List.mem_singleton.mp hb]
    exact fun heq => hid (heq ▸ ha)
  all_goals
    intro r hr
    rcases List.mem_append.mp hr with hr | hr
  · exact h.key r hr
  · rw [List.mem_singleton.mp hr]
    exact hkey
  · exact h.owner r hr
  · rw [List.mem_singleton.mp hr]
    exact howner
  · exact h.stored r hr
  · rw [List.mem_singleton.mp hr]
    exact hmodel
  · exact h.current r hr
  · rw [List.mem_singleton.mp hr]
    exact fun _ => hmachine

end registration

/-! ### The calls -/

theorem ProfilesOwned.insertModel {row : CatalogRow} (h : ProfilesOwned sha256 s) (hok : s.insertModel row = .ok s') :
    ProfilesOwned sha256 s' := by
  obtain ⟨-, -, rfl⟩ := insertModel_ok hok
  refine h.congr rfl rfl fun m hm => ?_
  rw [List.map_append]
  exact List.mem_append_left _ hm

section

variable [DecidableEq κ]

end

variable [DecidableEq κ]

end ModelStore
end LlmRio
