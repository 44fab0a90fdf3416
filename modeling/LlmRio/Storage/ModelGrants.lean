/-
# What the calls do to the grants

A row of `model_grants` lets a key use a model. `update_model_access` writes the
rows of its key, the final transaction of a registration those that the job has
asked for, the clone of a model those of its source, and `delete_key` deletes
those of its key. Every other call leaves the table.

Key definitions: `KeepsGrants`, `ModelStore.GrantEffect`, `Credentials.GrantEffect`.
Key theorems: `updateModelAccess_ok`, `ModelStore.grant_effect`, `Credentials.grant_effect`.
-/
import LlmRio.Storage.ContextLimit
import LlmRio.Storage.Credentials

namespace LlmRio

open Transactions Runs

namespace Access

variable {a a' : Access}

/-- The models that a key may use after `update_model_access`. -/
theorem updateModelAccess_ok {k : KeyId} {names : List String} {mode : AccessMode} {allowed : List String}
    (hok : a.updateModelAccess k names mode = .ok (a', allowed)) :
    ∃ desired : List CatalogModel, a'.db = a.db ∧
      (a'.modelGrants = a.modelGrants.filter (·.keyId ≠ k) ++ desired.map fun m => ⟨k, m.id⟩) ∧
      (∀ n, n ∈ allowed ↔ ∃ m ∈ desired, m.nickname = n) ∧
      (∃ key ∈ a.db.apiKeys, key.id = k) ∧ (a.db.modelCatalog.Nodup → desired.Nodup) ∧
      ∀ m ∈ desired, m ∈ a.db.modelCatalog ∧
        (⟨k, m.id⟩ ∈ a.modelGrants ∨ mode ≠ .remove ∧ m.nickname ∈ names) := by
  unfold updateModelAccess at hok
  obtain ⟨hkey, hok⟩ := guard_eq_ok'.mp hok
  obtain ⟨-, hok⟩ := guard_eq_ok.mp hok
  simp only [List.any_eq_true, decide_eq_true_eq] at hkey
  obtain ⟨key, hmem, hid, -⟩ := hkey
  have hpair := Except.ok.inj hok
  simp only [Prod.mk.injEq] at hpair
  obtain ⟨rfl, rfl⟩ := hpair
  refine ⟨_, rfl, rfl, fun n => ?_, ⟨key, hmem, hid⟩, fun hn => ?_, fun m hm => ?_⟩
  · rw [List.mem_mergeSort, List.mem_map]
  · cases mode with
    | add =>
      refine List.Nodup.append (hn.filter _) ((hn.filter _).filter _) ?_
      intro m hm hm'
      exact of_decide_eq_true (List.mem_filter.mp hm').2 hm
    | remove => exact (hn.filter _).filter _
    | replace => exact hn.filter _
  · cases mode with
    | add =>
      rcases List.mem_append.mp hm with hm | hm
      · obtain ⟨hm, hgrant⟩ := List.mem_filter.mp hm
        exact ⟨hm, .inl (of_decide_eq_true hgrant)⟩
      · obtain ⟨hm, hname⟩ := List.mem_filter.mp (List.mem_filter.mp hm).1
        exact ⟨hm, .inr ⟨by decide, List.mem_dedup.mp (of_decide_eq_true hname)⟩⟩
    | remove =>
      obtain ⟨hm, hgrant⟩ := List.mem_filter.mp (List.mem_filter.mp hm).1
      exact ⟨hm, .inl (of_decide_eq_true hgrant)⟩
    | replace =>
      obtain ⟨hm, hname⟩ := List.mem_filter.mp hm
      exact ⟨hm, .inr ⟨by decide, List.mem_dedup.mp (of_decide_eq_true hname)⟩⟩

end Access

namespace ModelStore

variable {κ : Type} {s s' : ModelStore κ} {fp : String} {m : ModelId}

/-- The ids and the nicknames of the catalog. -/
def names (s : ModelStore κ) : List (ModelId × String) := s.modelCatalog.map fun r => (r.id, r.nickname)

/-- The columns of the jobs that no call updates. -/
def asked (s : ModelStore κ) : List (JobId × ModelId × List KeyId) :=
  s.modelJobs.map fun j => (j.id, j.modelId, j.requestedGrants)

/-- Catalog, grants and jobs keep these columns. -/
structure KeepsGrants (s s' : ModelStore κ) : Prop where
  names : s'.names = s.names
  grants : s'.modelGrants = s.modelGrants
  asked : s'.asked = s.asked

theorem KeepsGrants.refl (s : ModelStore κ) : KeepsGrants s s := ⟨rfl, rfl, rfl⟩

theorem KeepsGrants.trans {t : ModelStore κ} (h : KeepsGrants s t) (h' : KeepsGrants t s') : KeepsGrants s s' :=
  ⟨h'.names.trans h.names, h'.grants.trans h.grants, h'.asked.trans h.asked⟩

theorem names_modify {f : CatalogRow → CatalogRow} (h : s'.modelCatalog = Table.modify (·.id) m f s.modelCatalog)
    (hf : ∀ r, ((f r).id, (f r).nickname) = (r.id, r.nickname)) : s'.names = s.names := by
  unfold names
  rw [h]
  exact Table.map_modify_of_eq fun r _ _ => hf r

theorem asked_map {f : ModelJob → ModelJob}
    (hf : ∀ j, ((f j).id, (f j).modelId, (f j).requestedGrants) = (j.id, j.modelId, j.requestedGrants))
    (jobs : List ModelJob) :
    (jobs.map f).map (fun j => (j.id, j.modelId, j.requestedGrants)) =
      jobs.map fun j => (j.id, j.modelId, j.requestedGrants) := by
  rw [List.map_map]
  exact List.map_congr_left fun j _ => hf j

theorem syncContextLimit_keeps (s : ModelStore κ) (fp : String) (m : ModelId) :
    KeepsGrants s (s.syncContextLimit fp m) := by
  unfold syncContextLimit
  simp only
  split
  · exact .refl s
  · exact ⟨names_modify rfl fun _ => rfl, rfl, rfl⟩

theorem setActiveWhere_keeps (s : ModelStore κ) (select : ProfileRow κ → Bool) (active : Bool) :
    KeepsGrants s (s.setActiveWhere select active) :=
  ⟨rfl, rfl, rfl⟩

theorem setActive_keeps (s : ModelStore κ) (fp : String) (m : ModelId) (p : ProfileId) (active : Bool) :
    KeepsGrants s (s.setActive fp m p active).1 := by
  unfold setActive
  simp only
  split
  · exact (setActiveWhere_keeps s _ active).trans (syncContextLimit_keeps _ fp m)
  · exact .refl s

theorem recoverJobs_keeps (s : ModelStore κ) : KeepsGrants s s.recoverJobs := by
  refine ⟨rfl, rfl, asked_map (fun j => ?_) _⟩
  split <;> rfl

theorem setMachineFingerprint_keeps (s : ModelStore κ) (fp : String) :
    KeepsGrants s (s.setMachineFingerprint fp).1 := by
  unfold setMachineFingerprint
  simp only
  split <;> exact ⟨rfl, rfl, rfl⟩

theorem updateModelJob_keeps {j : JobId} {u : JobUpdate} (hok : s.updateModelJob j u = .ok s') :
    KeepsGrants s s' := by
  unfold updateModelJob at hok
  split at hok
  · cases hok
  · obtain rfl := Except.ok.inj hok
    refine ⟨names_modify rfl fun _ => rfl, rfl, ?_⟩
    unfold asked Table.modify
    refine asked_map (fun j => ?_) _
    split <;> rfl

theorem foldlM_keeps {f : ModelStore κ → VerifiedProfile → Except ModelError (ModelStore κ)}
    (hf : ∀ s p s', f s p = .ok s' → KeepsGrants s s') :
    ∀ {ps : List VerifiedProfile} {s : ModelStore κ}, ps.foldlM f s = .ok s' → KeepsGrants s s'
  | [], s, hok => by
    obtain rfl := Except.ok.inj hok
    exact .refl s
  | p :: ps, s, hok => by
    obtain ⟨t, hp, hrest⟩ := foldlM_cons_eq_ok.mp hok
    exact (hf s p t hp).trans (foldlM_keeps hf hrest)

theorem insertModel_fresh {row : CatalogRow} (hok : s.insertModel row = .ok s') :
    row.id ∉ s.modelCatalog.map (·.id) ∧ row.nickname ∉ s.modelCatalog.map (·.nickname) ∧
      s' = { s with modelCatalog := s.modelCatalog ++ [row] } := by
  obtain ⟨hid, hnickname, heq⟩ := insertModel_ok hok
  unfold catalog at hid hnickname
  rw [List.map_map] at hid hnickname
  exact ⟨hid, hnickname, heq⟩

section profiles

variable [DecidableEq κ] {sha256 : ProfileIdentity → κ}

theorem insertProfile_keeps {row : ProfileRow κ} (hok : s.insertProfile row = .ok s') : KeepsGrants s s' := by
  unfold insertProfile at hok
  obtain ⟨-, hok⟩ := guard_eq_ok.mp hok
  obtain rfl := Except.ok.inj hok
  exact ⟨rfl, rfl, rfl⟩

theorem upsertProfile_keeps {p : VerifiedProfile} (hok : s.upsertProfile sha256 p = .ok s') : KeepsGrants s s' := by
  unfold upsertProfile at hok
  split at hok
  · obtain rfl := Except.ok.inj hok
    exact ⟨rfl, rfl, rfl⟩
  · exact insertProfile_keeps hok

theorem updateModelProfile_keeps {seen : ModelStore κ} {profileId : ProfileId} {edit : ProfileEdit}
    {makeDefault flag : Bool}
    (hok : s.updateModelProfile sha256 seen fp m profileId edit makeDefault = .ok (s', flag)) : KeepsGrants s s' := by
  unfold updateModelProfile at hok
  split at hok
  · cases hok
  · unfold updateProfile at hok
    split at hok
    · cases hok
      exact .refl s
    · obtain ⟨-, hok⟩ := guard_eq_ok.mp hok
      cases hok
      refine KeepsGrants.trans ?_ (syncContextLimit_keeps _ fp _)
      split <;> exact ⟨rfl, rfl, rfl⟩

/-- What a call on models does to the grants, and to what they refer to. -/
inductive GrantEffect (s s' : ModelStore κ) : ModelOp κ → Prop
  | same {op : ModelOp κ} (h : KeepsGrants s s') : GrantEffect s s' op
  | created {m : ModelId} {j : JobId} {nickname repo : String} {revision : Option String} {creator : KeyId}
      {grants keys : List KeyId} (hid : m ∉ s.modelCatalog.map (·.id))
      (hnickname : nickname ∉ s.modelCatalog.map (·.nickname)) (hkeys : ∀ k ∈ grants, k ∈ keys)
      (hnames : s'.names = s.names ++ [(m, nickname)]) (hgrants : s'.modelGrants = s.modelGrants)
      (hasked : s'.asked = s.asked ++ [(j, m, grants)]) :
      GrantEffect s s' (.createJob m j nickname repo revision creator grants keys)
  | completed {job : ModelJob} {revision path : String} {hashes : List Artifact} {measured : List VerifiedProfile}
      (hnames : s'.names = s.names) (hasked : s'.asked = s.asked)
      (hdistinct : s.modelGrants.Nodup → s'.modelGrants.Nodup)
      (hgrants : ∀ k m, (k, m) ∈ s'.modelGrants ↔
        (k, m) ∈ s.modelGrants ∨ m = job.modelId ∧ k ∈ job.requestedGrants) :
      GrantEffect s s' (.complete job revision hashes path measured)
  | cloned {seen : ModelStore κ} {source : CatalogRow} {m : ModelId} {newId : ProfileId → ProfileId}
      {rope : RopeConfiguration} {request : CloneRequest} (hid : m ∉ s.modelCatalog.map (·.id))
      (hnickname : request.nickname ∉ s.modelCatalog.map (·.nickname))
      (hnames : s'.names = s.names ++ [(m, request.nickname)]) (hasked : s'.asked = s.asked)
      (hgrants : s'.modelGrants =
        if request.inheritGrants then
          s.modelGrants ++ (s.modelGrants.filter (·.2 = source.id)).map fun g => (g.1, m)
        else s.modelGrants) :
      GrantEffect s s' (.clone seen source m newId rope request)

theorem grant_effect {op : ModelOp κ} (hs : step sha256 s op = some s') : GrantEffect s s' op := by
  cases op with
  | createJob m j nickname repo revision creator grants keys =>
    cases hs
    refine commit_invariant (I := fun t => GrantEffect s t _) (.same (.refl s)) fun t hok => ?_
    unfold createModelJob at hok
    obtain ⟨hkeys, hok⟩ := guard_eq_ok.mp hok
    obtain ⟨t1, hmodel, hjob⟩ := bind_eq_ok.mp hok
    obtain ⟨hid, hnickname, rfl⟩ := insertModel_fresh hmodel
    unfold insertJob at hjob
    obtain ⟨-, hjob⟩ := guard_eq_ok.mp hjob
    obtain rfl := Except.ok.inj hjob
    refine .created hid hnickname (fun k hk => ?_) List.map_append rfl List.map_append
    have hnone := List.filter_eq_nil_iff.mp (not_not.mp hkeys) k hk
    simpa using hnone
  | updateJob j u =>
    cases hs
    exact commit_invariant (I := fun t => GrantEffect s t _) (.same (.refl s)) fun t hok =>
      .same (updateModelJob_keeps hok)
  | complete job revision hashes path measured =>
    obtain ⟨fp, -, rfl⟩ := Option.map_eq_some_iff.mp hs
    refine commit_invariant (I := fun t => GrantEffect s t _) (.same (.refl s)) fun t hok => ?_
    unfold completeRegistration at hok
    obtain ⟨-, hok⟩ := guard_eq_ok.mp hok
    obtain ⟨t1, hfold, hok⟩ := bind_eq_ok.mp hok
    obtain rfl := pure_eq_ok.mp hok
    have hkeep : KeepsGrants s t1 :=
      (setActiveWhere_keeps s _ false).trans (foldlM_keeps (fun _ _ _ => upsertProfile_keeps) hfold)
    refine .completed ((?_ : _ = t1.names).trans hkeep.names) ?_ (fun hn => ?_) fun k m => ?_
    · exact names_modify rfl fun _ => rfl
    · refine (asked_map (fun j => ?_) _).trans hkeep.asked
      split <;> rfl
    · exact Table.nodup_foldl_insertOrIgnore (hkeep.grants ▸ hn)
    · refine Table.mem_foldl_insertOrIgnore.trans ?_
      rw [hkeep.grants]
      refine or_congr_right ⟨?_, ?_⟩
      · rintro ⟨a, ha, heq⟩
        cases heq
        exact ⟨rfl, ha⟩
      · rintro ⟨rfl, hk⟩
        exact ⟨k, hk, rfl⟩
  | disable m =>
    cases hs
    exact .same ⟨names_modify rfl fun _ => rfl, rfl, rfl⟩
  | clone seen source m newId rope request =>
    obtain ⟨fp, -, rfl⟩ := Option.map_eq_some_iff.mp hs
    refine commit_invariant (I := fun t => GrantEffect s t _) (.same (.refl s)) fun t hok => ?_
    unfold cloneModel at hok
    obtain ⟨-, hok⟩ := guard_eq_ok.mp hok
    obtain ⟨-, hok⟩ := guard_eq_ok.mp hok
    obtain ⟨-, hok⟩ := guard_eq_ok.mp hok
    obtain ⟨-, hok⟩ := guard_eq_ok.mp hok
    obtain ⟨native, -, hok⟩ := bind_eq_ok.mp hok
    obtain ⟨len, -, hok⟩ := bind_eq_ok.mp hok
    obtain ⟨cloned, -, hok⟩ := bind_eq_ok.mp hok
    obtain ⟨s1, hmodel, hok⟩ := bind_eq_ok.mp hok
    obtain ⟨t1, hrows, hok⟩ := bind_eq_ok.mp hok
    obtain rfl := pure_eq_ok.mp hok
    obtain ⟨hid, hnickname, rfl⟩ := insertModel_fresh hmodel
    have hkeep := foldlM_keeps (fun _ _ _ => insertProfile_keeps) hrows
    exact .cloned hid hnickname (hkeep.names.trans List.map_append) hkeep.asked (by rw [hkeep.grants])
  | editProfile seen m p edit makeDefault =>
    obtain ⟨fp, -, rfl⟩ := Option.map_eq_some_iff.mp hs
    refine commit_invariant (I := fun t => GrantEffect s t _) (.same (.refl s)) fun t hok => ?_
    obtain ⟨⟨t', flag⟩, hedit, rfl⟩ := map_eq_ok hok
    exact .same (updateModelProfile_keeps hedit)
  | setActive m p active =>
    obtain ⟨fp, -, rfl⟩ := Option.map_eq_some_iff.mp hs
    exact .same (setActive_keeps s fp m p active)
  | startup fp =>
    unfold step at hs
    obtain ⟨-, hs⟩ := Option.ite_none_left_eq_some.mp hs
    cases hs
    exact .same ((recoverJobs_keeps s).trans (setMachineFingerprint_keeps _ fp))

end profiles

end ModelStore

namespace Credentials

variable {v : KeyVault} {d d' : Credentials}

/-- What a call on keys does to the grants. -/
inductive GrantEffect (d d' : Credentials) : Call → Prop
  | same {c : Call} (h : d'.access.modelGrants = d.access.modelGrants) : GrantEffect d d' c
  | deleted {k : KeyId} {iv : String} (h : d'.access.modelGrants = d.access.modelGrants.filter (·.keyId ≠ k)) :
      GrantEffect d d' (.deleteKey k iv)
  | written {k : KeyId} {names : List String} {mode : AccessMode} {allowed : List String}
      (h : d.access.updateModelAccess k names mode = .ok (d'.access, allowed)) :
      GrantEffect d d' (.access (.updateModelAccess k names mode))

theorem grant_effect {c : Call} (hs : call v d c = some d') : GrantEffect d d' c := by
  cases c with
  | createKey k n r a an apiKey l u secret salt iv =>
    simp only [call] at hs
    split at hs
    · cases hs
      exact .same rfl
    · cases hs
      refine commit_invariant (I := fun e => GrantEffect d e _) (.same rfl) fun e hok => .same ?_
      obtain ⟨db, -, hok⟩ := bind_eq_ok.mp hok
      cases pure_eq_ok.mp hok
      rfl
  | rotateKey k secret salt iv =>
    obtain rfl := Option.some.inj hs
    refine commit_invariant (I := fun e => GrantEffect d e _) (.same rfl) fun e hcommit => .same ?_
    obtain ⟨⟨d1, updated⟩, hok, rfl⟩ := map_eq_ok hcommit
    rcases replaceKeySecret_ok hok with ⟨-, rfl⟩ | ⟨-, db, -, rfl⟩ <;> rfl
  | deleteKey k iv =>
    obtain rfl := Option.some.inj hs
    refine commit_invariant (I := fun e => GrantEffect d e _) (.same rfl) fun e hcommit => ?_
    obtain ⟨⟨d1, updated⟩, hok, rfl⟩ := map_eq_ok hcommit
    rcases deleteKey_ok hok with ⟨-, rfl⟩ | ⟨-, db, hdb, rfl⟩
    · exact .same rfl
    · refine .deleted ?_
      show d.access.grantsAfter (.deleteKey k) = _
      simp only [Access.grantsAfter, hdb]
  | access c =>
    simp only [call] at hs
    split at hs
    · cases hs
    · rename_i hwrites
      obtain ⟨access, haccess, rfl⟩ := Option.map_eq_some_iff.mp hs
      cases c with
      | updateModelAccess k names mode =>
        cases haccess
        cases hok : d.access.updateModelAccess k names mode with
        | error e => exact .same rfl
        | ok result => exact .written hok
      | database c =>
        obtain ⟨db, hdb, rfl⟩ := call_database_some haccess
        cases c with
        | deleteKey k => exact absurd rfl hwrites
        | _ => exact .same rfl

/-- A key's row is never removed. -/
theorem call_keyIds {c : Call} (hs : call v d c = some d') :
    d.access.db.apiKeys.map (·.id) ⊆ d'.access.db.apiKeys.map (·.id) := by
  have hmodify : ∀ {j : KeyId} {f : ApiKey → ApiKey},
      d'.access.db.apiKeys = Table.modify ApiKey.id j f d.access.db.apiKeys → (∀ k, (f k).id = k.id) →
      d'.access.db.apiKeys.map (·.id) = d.access.db.apiKeys.map (·.id) := by
    intro j f hkeys hf
    rw [hkeys]
    exact Table.map_key_modify (fun k hk => (hf k).trans hk) _
  cases call_secrets hs with
  | same hkeys => exact hkeys ▸ List.Subset.refl _
  | create htoken hfresh haccount hkeys =>
    rw [hkeys, List.map_append]
    exact List.subset_append_left _ _
  | activate hkey hon hkeys => exact (hmodify hkeys fun _ => rfl).symm ▸ List.Subset.refl _
  | rotate hkey hlive htoken hfresh hkeys => exact (hmodify hkeys fun _ => rfl).symm ▸ List.Subset.refl _
  | delete hkey hfresh hkeys => exact (hmodify hkeys fun _ => rfl).symm ▸ List.Subset.refl _

end Credentials

end LlmRio
