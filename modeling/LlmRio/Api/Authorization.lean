/-
# Keys, models and the grants between them

The calls on keys (`Credentials`) and on models (`ModelStore`) in one service.
Four of them write grants: `update_model_access`, `replace_model_grants`, the
final transaction of a registration and the clone of a model, and `delete_key`
deletes those of its key.

In every database that the calls reach, a grant is of a key and of a model of the
catalog, and it is stored once; the nicknames of the models are distinct
(`granted_call`). So requests and `/v1/models` agree (`requests_agree`), a user's
request finds a model only after a call that has granted it (`resolved_granted`),
and what `update_model_access` answers holds until the next call that is about
that grant (`answer_holds`).

Key definitions: `Service`, `Service.call`, `Granted`, `Call.grants`, `Call.concerns`.
Key theorems: `granted_call`, `requests_agree`, `resolved_granted`, `answer_holds`.
-/
import LlmRio.Api.Visibility
import LlmRio.Storage.ModelGrants

namespace LlmRio

open Transactions Runs ModelStore

structure Service (κ : Type) where
  credentials : Credentials := {}
  store : ModelStore κ := {}

inductive GrantError
  | keyError (keyId : KeyId)
  | integrityError
deriving DecidableEq, Repr

namespace Service

variable {κ : Type}

/-- The tables as the calls on keys see them. -/
def view (s : Service κ) : Credentials :=
  { s.credentials with
    access :=
      { db := { s.credentials.access.db with modelCatalog := s.store.catalog }
        modelGrants := s.store.modelGrants.map fun g => ⟨g.1, g.2⟩ } }

/-- The call is one on the catalog. -/
def onCatalog : Credentials.Call → Bool
  | .access (.database (.insertModel _)) | .access (.database (.updateModel ..)) => true
  | _ => false

def keyIds (s : Service κ) : List KeyId := s.credentials.access.db.apiKeys.map (·.id)

def activeKeys (s : Service κ) : List KeyId := (s.credentials.access.db.apiKeys.filter (·.active)).map (·.id)

/-- `replace_model_grants`; the foreign key and the primary key refuse a model
that is not there or twice. -/
def replaceModelGrants (s : Service κ) (keyId : KeyId) (modelIds : List ModelId) :
    Except GrantError (ModelStore κ) :=
  if keyId ∉ s.keyIds then .error (.keyError keyId)
  else if ¬ modelIds.Nodup ∨ modelIds.any (fun m => ¬ s.store.hasModel m) then .error .integrityError
  else .ok { s.store with
    modelGrants := s.store.modelGrants.filter (·.1 ≠ keyId) ++ modelIds.map fun m => (keyId, m) }

inductive Call (κ : Type)
  | credentials (c : Credentials.Call)
  | models (op : ModelOp κ)
  | replaceModelGrants (keyId : KeyId) (modelIds : List ModelId)

/-- A new job asks for the keys that are active, and the job of a registration
has been read: a row keeps its model and the grants that it asks for. -/
def fits (s : Service κ) : ModelOp κ → Bool
  | .createJob _ _ _ _ _ _ _ keys => keys = s.activeKeys
  | .complete job .. => s.store.modelJobs.any fun j =>
    j.id = job.id ∧ j.modelId = job.modelId ∧ j.requestedGrants = job.requestedGrants
  | _ => true

section

variable [DecidableEq κ] (sha256 : ProfileIdentity → κ) (v : KeyVault)

def call (s : Service κ) : Call κ → Option (Service κ)
  | .credentials c =>
    if onCatalog c then none
    else (Credentials.call v s.view c).map fun d =>
      { credentials := d
        store := { s.store with modelGrants := d.access.modelGrants.map fun g => (g.keyId, g.modelId) } }
  | .models op =>
    if s.fits op then (ModelStore.step sha256 s.store op).map fun store => { s with store := store } else none
  | .replaceModelGrants k ids => some { s with store := commit s.store (s.replaceModelGrants k ids) }

end

/-! ### What the calls do to grants -/

/-- The call grants the model to the key. -/
def Call.grants (s : Service κ) (k : KeyId) (m : ModelId) : Call κ → Bool
  | .credentials (.access (.updateModelAccess j names mode)) =>
    j = k ∧ mode ≠ .remove ∧ s.store.modelCatalog.any fun row => row.id = m ∧ row.nickname ∈ names
  | .replaceModelGrants j ids => j = k ∧ m ∈ ids
  | .models (.complete job ..) => job.modelId = m ∧ k ∈ job.requestedGrants
  | .models (.clone _ source modelId _ _ request) =>
    modelId = m ∧ request.inheritGrants ∧ s.store.hasModelGrant k source.id
  | _ => false

/-- The call is about the access of the key, or makes the model callable. -/
def Call.concerns (k : KeyId) (m : ModelId) : Call κ → Bool
  | .credentials (.access (.updateModelAccess j _ _)) | .credentials (.deleteKey j _)
  | .replaceModelGrants j _ => j = k
  | .models (.complete job ..) => job.modelId = m
  | .models (.clone _ _ modelId _ _ _) => modelId = m
  | _ => false

end Service

namespace Service

variable {κ : Type} {s s' : Service κ} {k : KeyId} {m : ModelId}

/-- The ids of the catalog. -/
def modelIds (s : Service κ) : List ModelId := s.store.names.map (·.1)

/-- The names of the catalog are distinct, and a grant is stored once, of a key
and of a model that are there; so will be those that a job asks for. -/
structure Granted (s : Service κ) : Prop where
  ids : s.modelIds.Nodup
  nicknames : (s.store.names.map (·.2)).Nodup
  asked : ∀ j ∈ s.store.asked, j.2.1 ∈ s.modelIds ∧ ∀ k ∈ j.2.2, k ∈ s.keyIds
  distinct : s.store.modelGrants.Nodup
  stored : ∀ g ∈ s.store.modelGrants, g.1 ∈ s.keyIds ∧ g.2 ∈ s.modelIds

theorem modelIds_eq (s : Service κ) : s.modelIds = s.store.modelCatalog.map (·.id) := by
  unfold modelIds names
  rw [List.map_map]
  rfl

theorem nicknames_eq (s : Service κ) : s.store.names.map (·.2) = s.store.modelCatalog.map (·.nickname) := by
  unfold names
  rw [List.map_map]
  rfl

theorem Granted.rows (h : Granted s) : (s.store.modelCatalog.map (·.nickname)).Nodup :=
  nicknames_eq s ▸ h.nicknames

/-- The grants of the store as the calls on keys see them. -/
theorem view_grants (g : ModelGrant) :
    g ∈ s.view.access.modelGrants ↔ (g.keyId, g.modelId) ∈ s.store.modelGrants := by
  obtain ⟨k, m⟩ := g
  simp [view]

/-- Nothing but the grants changes, and keys are inserted. -/
structure Kept (s s' : Service κ) : Prop where
  names : s'.store.names = s.store.names
  asked : s'.store.asked = s.store.asked
  keys : ∀ k ∈ s.keyIds, k ∈ s'.keyIds

/-- The grants of the key are those of these models, and those of other keys stay. -/
structure Assigned (s s' : Service κ) (k : KeyId) (models : List ModelId) : Prop where
  key : k ∈ s.keyIds
  distinct : s.modelIds.Nodup → models.Nodup
  stored : ∀ m ∈ models, m ∈ s.modelIds
  grants : s'.store.modelGrants = s.store.modelGrants.filter (·.1 ≠ k) ++ models.map fun m => (k, m)

/-- What a call does to the grants, and to what they refer to. -/
inductive Effect (s s' : Service κ) : Call κ → Prop
  | same {c : Call κ} (hkept : Kept s s') (hgrants : s'.store.modelGrants = s.store.modelGrants) : Effect s s' c
  | deleted {k : KeyId} {iv : String} (hkept : Kept s s')
      (hgrants : s'.store.modelGrants = s.store.modelGrants.filter (·.1 ≠ k)) :
      Effect s s' (.credentials (.deleteKey k iv))
  | written {k : KeyId} {names : List String} {mode : AccessMode} {models : List ModelId} (hkept : Kept s s')
      (hassigned : Assigned s s' k models)
      (hasked : ∀ m ∈ models, (k, m) ∈ s.store.modelGrants ∨
        mode ≠ .remove ∧ ∃ row ∈ s.store.modelCatalog, row.id = m ∧ row.nickname ∈ names) :
      Effect s s' (.credentials (.access (.updateModelAccess k names mode)))
  | replaced {k : KeyId} {models : List ModelId} (hkept : Kept s s') (hassigned : Assigned s s' k models) :
      Effect s s' (.replaceModelGrants k models)
  | models {op : ModelOp κ} (hfits : s.fits op = true) (hcredentials : s'.credentials = s.credentials)
      (heffect : ModelStore.GrantEffect s.store s'.store op) : Effect s s' (.models op)

section

variable [DecidableEq κ] {sha256 : ProfileIdentity → κ} {v : KeyVault}

theorem effect {c : Call κ} (hs : call sha256 v s c = some s') : Effect s s' c := by
  cases c with
  | models op =>
    obtain ⟨hfits, hs⟩ := Option.ite_none_right_eq_some.mp hs
    obtain ⟨store, hstore, rfl⟩ := Option.map_eq_some_iff.mp hs
    exact .models hfits rfl (ModelStore.grant_effect hstore)
  | replaceModelGrants k models =>
    cases hs
    cases hok : s.replaceModelGrants k models with
    | error e => exact .same ⟨rfl, rfl, fun _ hk => hk⟩ rfl
    | ok store =>
      unfold replaceModelGrants at hok
      obtain ⟨hkey, hok⟩ := guard_eq_ok.mp hok
      obtain ⟨hmodels, hok⟩ := guard_eq_ok.mp hok
      cases hok
      simp only [not_or, not_not, List.any_eq_true, decide_eq_true_eq, not_exists, not_and] at hkey hmodels
      refine .replaced ⟨rfl, rfl, fun _ hk => hk⟩ ⟨hkey, fun _ => hmodels.1, fun m hm => ?_, rfl⟩
      rw [modelIds_eq]
      exact hasModel_iff.mp (hmodels.2 m hm)
  | credentials c =>
    obtain ⟨-, hs⟩ := Option.ite_none_left_eq_some.mp hs
    obtain ⟨d, hd, rfl⟩ := Option.map_eq_some_iff.mp hs
    have hkeys : ∀ k ∈ s.keyIds, k ∈ d.access.db.apiKeys.map (·.id) := fun k hk =>
      Credentials.call_keyIds hd hk
    have hgrants : (s.view.access.modelGrants.map fun g => (g.keyId, g.modelId)) = s.store.modelGrants :=
      List.map_map.trans (List.map_id _)
    cases Credentials.grant_effect hd with
    | same h => exact .same ⟨rfl, rfl, hkeys⟩ ((congrArg _ h).trans hgrants)
    | deleted h =>
      refine .deleted ⟨rfl, rfl, hkeys⟩ ((congrArg _ h).trans ?_)
      simp [view, List.filter_map, Function.comp_def]
    | @written k names mode allowed h =>
      obtain ⟨desired, -, hafter, -, ⟨key, hkey, hid⟩, hdistinct, hdesired⟩ := Access.updateModelAccess_ok h
      have hcatalog : ∀ row, row ∈ s.view.access.db.modelCatalog →
          ∃ r ∈ s.store.modelCatalog, r.toCatalogModel = row := fun row hrow => List.mem_map.mp hrow
      have hassigned : (d.access.modelGrants.map fun g => (g.keyId, g.modelId)) =
          s.store.modelGrants.filter (·.1 ≠ k) ++ (desired.map (·.id)).map fun m => (k, m) := by
        rw [hafter]
        simp [view, List.filter_map, Function.comp_def]
      refine .written ⟨rfl, rfl, hkeys⟩
        ⟨List.mem_map.mpr ⟨key, hkey, hid⟩, fun hn => ?_, fun m hm => ?_, hassigned⟩ fun m hm => ?_
      · have hview : (s.view.access.db.modelCatalog.map (·.id)).Nodup := by
          rw [modelIds_eq, ← ids_catalog] at hn
          exact hn
        refine (hdistinct hview.of_map).map_on fun x hx y hy hxy => ?_
        exact List.inj_on_of_nodup_map hview (hdesired x hx).1 (hdesired y hy).1 hxy
      · obtain ⟨row, hrow, rfl⟩ := List.mem_map.mp hm
        obtain ⟨r, hr, rfl⟩ := hcatalog row (hdesired row hrow).1
        rw [modelIds_eq]
        exact List.mem_map_of_mem hr
      · obtain ⟨row, hrow, rfl⟩ := List.mem_map.mp hm
        obtain ⟨hmem, hgrant | ⟨hmode, hname⟩⟩ := hdesired row hrow
        · exact .inl ((view_grants _).mp hgrant)
        · obtain ⟨r, hr, rfl⟩ := hcatalog row hmem
          exact .inr ⟨hmode, r, hr, rfl, hname⟩

end

/-! ### What every call keeps -/

theorem Kept.modelIds (h : Kept s s') : s'.modelIds = s.modelIds := by
  unfold Service.modelIds
  rw [h.names]

theorem Granted.kept (h : Granted s) (hkept : Kept s s') (hdistinct : s'.store.modelGrants.Nodup)
    (hstored : ∀ g ∈ s'.store.modelGrants, g.1 ∈ s.keyIds ∧ g.2 ∈ s.modelIds) : Granted s' where
  ids := hkept.modelIds ▸ h.ids
  nicknames := hkept.names ▸ h.nicknames
  asked j hj := by
    rw [hkept.asked] at hj
    rw [hkept.modelIds]
    exact ⟨(h.asked j hj).1, fun k hk => hkept.keys k ((h.asked j hj).2 k hk)⟩
  distinct := hdistinct
  stored g hg := by
    rw [hkept.modelIds]
    exact ⟨hkept.keys _ (hstored g hg).1, (hstored g hg).2⟩

theorem Assigned.mem {models : List ModelId} (h : Assigned s s' k models) {g : KeyId × ModelId} :
    g ∈ s'.store.modelGrants ↔ g ∈ s.store.modelGrants ∧ g.1 ≠ k ∨ g.1 = k ∧ g.2 ∈ models := by
  obtain ⟨j, m⟩ := g
  rw [h.grants]
  simp only [List.mem_append, List.mem_filter, decide_eq_true_eq, List.mem_map, Prod.mk.injEq]
  constructor
  · rintro (h | ⟨m', hm', rfl, rfl⟩)
    · exact .inl h
    · exact .inr ⟨rfl, hm'⟩
  · rintro (h | ⟨rfl, hm⟩)
    · exact .inl h
    · exact .inr ⟨m, hm, rfl, rfl⟩

theorem Granted.assigned {models : List ModelId} (h : Granted s) (hkept : Kept s s')
    (hassigned : Assigned s s' k models) : Granted s' := by
  refine h.kept hkept ?_ fun g hg => ?_
  · rw [hassigned.grants, List.nodup_append]
    refine ⟨h.distinct.filter _, (hassigned.distinct h.ids).map fun m m' => congrArg Prod.snd, ?_⟩
    intro g hg g' hg' hsame
    obtain ⟨m, -, rfl⟩ := List.mem_map.mp hg'
    have hne := (List.mem_filter.mp hg).2
    simp only [hsame, ne_eq, not_true_eq_false, decide_false, Bool.false_eq_true] at hne
  · rcases hassigned.mem.mp hg with ⟨hg, -⟩ | ⟨hk, hm⟩
    · exact h.stored g hg
    · exact ⟨hk ▸ hassigned.key, hassigned.stored _ hm⟩

/-- A model is inserted under an id and a nickname that no model has. -/
theorem Granted.inserted {nickname : String} {jobs : List (JobId × ModelId × List KeyId)} (h : Granted s)
    (hcredentials : s'.credentials = s.credentials) (hid : m ∉ s.store.modelCatalog.map (·.id))
    (hnickname : nickname ∉ s.store.modelCatalog.map (·.nickname))
    (hnames : s'.store.names = s.store.names ++ [(m, nickname)]) (hasked : s'.store.asked = s.store.asked ++ jobs)
    (hjobs : ∀ j ∈ jobs, j.2.1 = m ∧ ∀ k ∈ j.2.2, k ∈ s.keyIds) (hdistinct : s'.store.modelGrants.Nodup)
    (hstored : ∀ g ∈ s'.store.modelGrants, g.1 ∈ s.keyIds ∧ (g.2 ∈ s.modelIds ∨ g.2 = m)) : Granted s' := by
  have hids : s'.modelIds = s.modelIds ++ [m] := by
    unfold modelIds
    rw [hnames, List.map_append, List.map_singleton]
  have hkeys : s'.keyIds = s.keyIds := by
    unfold keyIds
    rw [hcredentials]
  rw [← modelIds_eq] at hid
  rw [← nicknames_eq] at hnickname
  refine ⟨?_, ?_, fun j hj => ?_, hdistinct, fun g hg => ?_⟩
  · rw [hids]
    exact List.concat_eq_append ▸ h.ids.concat hid
  · rw [hnames, List.map_append, List.map_singleton]
    exact List.concat_eq_append ▸ h.nicknames.concat hnickname
  · rw [hids, hkeys, List.mem_append, List.mem_singleton]
    rw [hasked, List.mem_append] at hj
    rcases hj with hj | hj
    · exact ⟨.inl (h.asked j hj).1, (h.asked j hj).2⟩
    · exact ⟨.inr (hjobs j hj).1, (hjobs j hj).2⟩
  · rw [hids, hkeys, List.mem_append, List.mem_singleton]
    exact hstored g hg

theorem fits_createJob {j : JobId} {nickname repo : String} {revision : Option String} {creator : KeyId}
    {grants keys : List KeyId} (hfits : s.fits (.createJob m j nickname repo revision creator grants keys) = true)
    (hk : k ∈ keys) : k ∈ s.keyIds := by
  obtain rfl : keys = s.activeKeys := of_decide_eq_true hfits
  exact List.map_subset _ (List.filter_subset_self _) hk

theorem fits_complete {job : ModelJob} {revision path : String} {hashes : List Artifact}
    {measured : List VerifiedProfile} (h : Granted s)
    (hfits : s.fits (.complete job revision hashes path measured) = true) :
    job.modelId ∈ s.modelIds ∧ ∀ k ∈ job.requestedGrants, k ∈ s.keyIds := by
  obtain ⟨j, hj, hsame⟩ := List.any_eq_true.mp hfits
  simp only [decide_eq_true_eq] at hsame
  obtain ⟨-, hmodel, hgrants⟩ := hsame
  rw [← hmodel, ← hgrants]
  exact h.asked _ (List.mem_map_of_mem hj)

theorem granted_empty : Granted ({} : Service κ) := by
  constructor <;> simp [modelIds, names, asked]

section

variable [DecidableEq κ] {sha256 : ProfileIdentity → κ} {v : KeyVault}

theorem granted_call {c : Call κ} (h : Granted s) (hs : call sha256 v s c = some s') : Granted s' := by
  cases effect hs with
  | same hkept hgrants => exact h.kept hkept (hgrants ▸ h.distinct) (hgrants ▸ h.stored)
  | deleted hkept hgrants =>
    refine h.kept hkept (hgrants ▸ h.distinct.filter _) fun g hg => h.stored g ?_
    rw [hgrants] at hg
    exact List.mem_of_mem_filter hg
  | written hkept hassigned hasked => exact h.assigned hkept hassigned
  | replaced hkept hassigned => exact h.assigned hkept hassigned
  | models hfits hcredentials heffect =>
    have hkeys : s'.keyIds = s.keyIds := by
      unfold keyIds
      rw [hcredentials]
    cases heffect with
    | same hsame =>
      exact h.kept ⟨hsame.names, hsame.asked, fun k hk => hkeys ▸ hk⟩ (hsame.grants ▸ h.distinct)
        (hsame.grants ▸ h.stored)
    | created hid hnickname hin hnames hgrants hasked =>
      refine h.inserted hcredentials hid hnickname hnames hasked (fun j hj => ?_) (hgrants ▸ h.distinct)
        fun g hg => ?_
      · rw [List.mem_singleton.mp hj]
        exact ⟨rfl, fun k hk => fits_createJob hfits (hin k hk)⟩
      · rw [hgrants] at hg
        exact ⟨(h.stored g hg).1, .inl (h.stored g hg).2⟩
    | completed hnames hasked hdistinct hgrants =>
      obtain ⟨hmodel, hin⟩ := fits_complete h hfits
      refine h.kept ⟨hnames, hasked, fun k hk => hkeys ▸ hk⟩ (hdistinct h.distinct) fun g hg => ?_
      rcases (hgrants g.1 g.2).mp hg with hg | ⟨hm, hk⟩
      · exact h.stored g hg
      · exact ⟨hin _ hk, hm ▸ hmodel⟩
    | @cloned seen source m newId rope request hid hnickname hnames hasked hgrants =>
      have hfresh : ∀ g ∈ s.store.modelGrants, g.2 ≠ m := by
        rintro g hg rfl
        exact hid (modelIds_eq s ▸ (h.stored g hg).2)
      refine h.inserted hcredentials hid hnickname hnames (hasked.trans (List.append_nil _).symm)
        (fun j hj => absurd hj List.not_mem_nil) ?_ fun g hg => ?_
      · rw [hgrants]
        split
        · refine List.Nodup.append h.distinct ?_ ?_
          · refine (h.distinct.filter _).map_on fun g hg g' hg' hsame => ?_
            have hg := of_decide_eq_true (List.mem_filter.mp hg).2
            have hg' := of_decide_eq_true (List.mem_filter.mp hg').2
            exact Prod.ext (Prod.mk.inj hsame).1 (hg.trans hg'.symm)
          · intro g hg hg'
            obtain ⟨g', -, rfl⟩ := List.mem_map.mp hg'
            exact hfresh _ hg rfl
        · exact h.distinct
      · rw [hgrants] at hg
        split at hg
        · rcases List.mem_append.mp hg with hg | hg
          · exact ⟨(h.stored g hg).1, .inl (h.stored g hg).2⟩
          · obtain ⟨g', hg', rfl⟩ := List.mem_map.mp hg
            exact ⟨(h.stored g' (List.mem_of_mem_filter hg')).1, .inr rfl⟩
        · exact ⟨(h.stored g hg).1, .inl (h.stored g hg).2⟩

theorem granted_of_calls {calls : List (Call κ)} (h : exec (call sha256 v) {} calls = some s) : Granted s :=
  exec_invariant (fun _ _ _ => granted_call) granted_empty h

/-! ### The calls that write a grant -/

/-- A grant that a call writes is one that it is asked for. -/
theorem grant_origin {c : Call κ} (hs : call sha256 v s c = some s') (hin : (k, m) ∈ s'.store.modelGrants)
    (hnew : (k, m) ∉ s.store.modelGrants) : c.grants s k m = true := by
  cases effect hs with
  | same hkept hgrants => exact absurd (hgrants ▸ hin) hnew
  | deleted hkept hgrants =>
    rw [hgrants] at hin
    exact absurd (List.mem_of_mem_filter hin) hnew
  | written hkept hassigned hasked =>
    rcases hassigned.mem.mp hin with ⟨hold, -⟩ | ⟨hk, hm⟩
    · exact absurd hold hnew
    · obtain rfl : k = _ := hk
      rcases hasked m hm with hold | ⟨hmode, row, hrow, hid, hname⟩
      · exact absurd hold hnew
      · exact decide_eq_true ⟨rfl, hmode, List.any_eq_true.mpr ⟨row, hrow, decide_eq_true ⟨hid, hname⟩⟩⟩
  | replaced hkept hassigned =>
    rcases hassigned.mem.mp hin with ⟨hold, -⟩ | ⟨hk, hm⟩
    · exact absurd hold hnew
    · exact decide_eq_true ⟨hk.symm, hm⟩
  | models hfits hcredentials heffect =>
    cases heffect with
    | same hsame => exact absurd (hsame.grants ▸ hin) hnew
    | created hid hnickname hin' hnames hgrants hasked => exact absurd (hgrants ▸ hin) hnew
    | completed hnames hasked hdistinct hgrants =>
      rcases (hgrants k m).mp hin with hold | ⟨hm, hk⟩
      · exact absurd hold hnew
      · exact decide_eq_true ⟨hm.symm, hk⟩
    | cloned hid hnickname hnames hasked hgrants =>
      rw [hgrants] at hin
      split at hin
      · rename_i hinherit
        rcases List.mem_append.mp hin with hold | hin
        · exact absurd hold hnew
        · obtain ⟨g, hg, heq⟩ := List.mem_map.mp hin
          obtain ⟨hg, hsource⟩ := List.mem_filter.mp hg
          obtain ⟨rfl, rfl⟩ := Prod.mk.inj heq
          have hsource := of_decide_eq_true hsource
          exact decide_eq_true ⟨rfl, hinherit, hasModelGrant_iff.mpr (hsource ▸ hg)⟩
      · exact absurd hin hnew

/-- A call that does not concern a grant leaves it. -/
theorem grant_frame {c : Call κ} (hs : call sha256 v s c = some s') (hc : c.concerns k m = false) :
    (k, m) ∈ s'.store.modelGrants ↔ (k, m) ∈ s.store.modelGrants := by
  cases effect hs with
  | same hkept hgrants => rw [hgrants]
  | @deleted j iv hkept hgrants =>
    have hne : j ≠ k := of_decide_eq_false hc
    rw [hgrants, List.mem_filter]
    exact ⟨And.left, fun hin => ⟨hin, decide_eq_true hne.symm⟩⟩
  | written hkept hassigned hasked =>
    have hne := of_decide_eq_false hc
    rw [hassigned.mem]
    exact ⟨fun h => (h.resolve_right fun h => hne h.1.symm).1, fun hin => .inl ⟨hin, Ne.symm hne⟩⟩
  | replaced hkept hassigned =>
    have hne := of_decide_eq_false hc
    rw [hassigned.mem]
    exact ⟨fun h => (h.resolve_right fun h => hne h.1.symm).1, fun hin => .inl ⟨hin, Ne.symm hne⟩⟩
  | models hfits hcredentials heffect =>
    cases heffect with
    | same hsame => rw [hsame.grants]
    | created hid hnickname hin hnames hgrants hasked => rw [hgrants]
    | completed hnames hasked hdistinct hgrants =>
      have hne := of_decide_eq_false hc
      rw [hgrants]
      exact or_iff_left fun h => hne h.1.symm
    | cloned hid hnickname hnames hasked hgrants =>
      have hne := of_decide_eq_false hc
      rw [hgrants]
      split
      · rw [List.mem_append]
        refine or_iff_left fun h => ?_
        obtain ⟨g, -, heq⟩ := List.mem_map.mp h
        exact hne (Prod.mk.inj heq).2
      · rfl

/-- Models are inserted; a model keeps its nickname. -/
theorem names_call {c : Call κ} (hs : call sha256 v s c = some s') : s.store.names ⊆ s'.store.names := by
  cases effect hs with
  | same hkept | deleted hkept | written hkept | replaced hkept => exact hkept.names.symm ▸ List.Subset.refl _
  | models hfits hcredentials heffect =>
    cases heffect with
    | same hsame => exact hsame.names.symm ▸ List.Subset.refl _
    | created hid hnickname hin hnames => exact hnames.symm ▸ List.subset_append_left _ _
    | completed hnames => exact hnames.symm ▸ List.Subset.refl _
    | cloned hid hnickname hnames => exact hnames.symm ▸ List.subset_append_left _ _

/-- A user's key is granted two models, of which one is registered. -/
def twoModels : List (Call ProfileIdentity) :=
  let measured : VerifiedProfile :=
    { id := "p", modelId := "", engine := .vllm, gpuCount := 1, eligibleGpuSets := [["g"]]
      predictedTokensPerSecond := 1, loadAndWarmupSeconds := 1, idleVramMibPerGpu := []
      peakVramMibPerGpu := [], gpuHeadroomMibPerGpu := [], gpuMemoryUtilization := 1, modelRevision := ""
      engineVersion := "1", machineFingerprint := "", tensorParallelSize := 1, maxModelLen := 4096 }
  let job : ModelJob :=
    { id := "j", modelId := "m", state := .running, stage := "validating", requestedGrants := ["u1"] }
  Credentials.twoKeys.map .credentials ++
    [.models (.startup "f"), .models (.createJob "m" "j" "alpha" "repo" none "a1" ["u1"] ["a1", "u1"]),
     .models (.createJob "n" "i" "beta" "repo" none "a1" [] ["a1", "u1"]),
     .models (.complete job "r" [] "path" [measured]),
     .replaceModelGrants "u1" ["m", "n"]]

def alice : KeyPrincipal where
  keyId := "u1"
  quotaAccountId := "acct-u"
  nickname := "alice"
  role := .user
  unlimited := false

/-- **Requests and `/v1/models` agree.** In every database that the calls reach,
on every machine and with kvcached or without it, the list has each model once,
and a request finds its model if and only if the list has it as callable. A model
that is listed and not callable is refused for what its state says; a model that
is not listed is refused with the nicknames that are. -/
theorem requests_agree (sha256 : ProfileIdentity → κ) (v : KeyVault) (calls : List (Call κ)) (s : Service κ)
    (h : exec (call sha256 v) {} calls = some s) (fingerprint : String) (kvcached : Bool) (pr : KeyPrincipal) :
    ((s.store.listModels fingerprint kvcached pr).map (·.id)).Nodup ∧
      (∀ n, (∃ row, s.store.resolveModel fingerprint kvcached pr n = .ok row) ↔
        ∃ e ∈ s.store.listModels fingerprint kvcached pr, e.id = n ∧ e.callable = true) ∧
      (∀ e ∈ s.store.listModels fingerprint kvcached pr, e.callable = false →
        ∃ err, s.store.resolveModel fingerprint kvcached pr e.id = .error err ∧ err.statusCode = 503 ∧
          err.code = if e.state = "verification_required" then "model_verification_required"
            else "prism_profile_revalidation_required") ∧
      ∀ n, (∀ e ∈ s.store.listModels fingerprint kvcached pr, e.id ≠ n) →
        ∃ err, s.store.resolveModel fingerprint kvcached pr n = .error err ∧
          (err.statusCode = 404 ∨ err.statusCode = 403 ∨ err.statusCode = 409) ∧
          ("available_models", ErrorDetail.names ((s.store.listModels fingerprint kvcached pr).map (·.id))) ∈
            err.details := by
  have hgranted := granted_of_calls h
  have hids : (s.store.listModels fingerprint kvcached pr).map (·.id) =
      (s.store.availableModels pr).map (·.nickname) := List.map_map
  have hentry : ∀ e ∈ s.store.listModels fingerprint kvcached pr, ∃ m ∈ s.store.availableModels pr,
      s.store.modelEntry fingerprint kvcached m = e := fun e he => List.mem_map.mp he
  refine ⟨?_, fun n => ⟨?_, ?_⟩, fun e he hcallable => ?_, fun n hn => ?_⟩
  · rw [hids]
    exact availableModels_nodup hgranted.rows hgranted.distinct
  · rintro ⟨row, hok⟩
    obtain ⟨hmem, hname, hcallable⟩ := resolveModel_ok hgranted.rows hok
    exact ⟨_, List.mem_map_of_mem hmem, hname, hcallable⟩
  · rintro ⟨e, he, rfl, hcallable⟩
    obtain ⟨m, hm, rfl⟩ := hentry e he
    exact ⟨m, (resolveModel_listed hgranted.rows hm).1 hcallable⟩
  · obtain ⟨m, hm, rfl⟩ := hentry e he
    exact (resolveModel_listed hgranted.rows hm).2 hcallable
  · rw [hids]
    exact resolveModel_unlisted fun m hm => hn _ (List.mem_map_of_mem hm)

theorem requests_agree_two :
    ∃ s, exec (call id Credentials.plainVault) {} twoModels = some s ∧
      ((s.store.listModels "f" false alice).map (·.id)).Nodup ∧
      (∀ n, (∃ row, s.store.resolveModel "f" false alice n = .ok row) ↔
        ∃ e ∈ s.store.listModels "f" false alice, e.id = n ∧ e.callable = true) := by
  have hrun : (exec (call id Credentials.plainVault) {} twoModels).isSome = true := by decide +kernel
  obtain ⟨s, h⟩ := Option.isSome_iff_exists.mp hrun
  have hagree := requests_agree id Credentials.plainVault twoModels s h "f" false alice
  exact ⟨s, h, hagree.1, hagree.2.1⟩

/-- **A user reaches a model that was granted.** A user's request finds a model
only after a call of the run that has granted this model to the key, and since
then no call has taken the grant away. -/
theorem resolved_granted (sha256 : ProfileIdentity → κ) (v : KeyVault) (calls : List (Call κ)) (s : Service κ)
    (h : exec (call sha256 v) {} calls = some s) (fingerprint : String) (kvcached : Bool) (pr : KeyPrincipal)
    (hrole : pr.role = .user) (n : String) (row : CatalogRow)
    (hok : s.store.resolveModel fingerprint kvcached pr n = .ok row) :
    ∃ before c later u u', calls = before ++ c :: later ∧ exec (call sha256 v) {} before = some u ∧
      call sha256 v u c = some u' ∧ c.grants u pr.keyId row.id = true ∧ exec (call sha256 v) u' later = some s ∧
      ∀ w ∈ visited (call sha256 v) u' later, (pr.keyId, row.id) ∈ w.store.modelGrants := by
  have hgranted := granted_of_calls h
  obtain ⟨hmem, -⟩ := resolveModel_ok hgranted.rows hok
  have hin := (mem_availableModels.mp hmem).2.2 hrole
  obtain ⟨before, c, later, u, u', heq, hbefore, hnot, hcall, hlater, hsince⟩ :=
    exec_since (P := fun w : Service κ => (pr.keyId, row.id) ∈ w.store.modelGrants)
      ⟨{}, mem_visited_self _ calls, List.not_mem_nil⟩ hin h
  exact ⟨before, c, later, u, u', heq, hbefore, hcall,
    grant_origin hcall (hsince u' (mem_visited_self u' later)) hnot, hlater, hsince⟩

theorem resolved_granted_two :
    ∃ s row, exec (call id Credentials.plainVault) {} twoModels = some s ∧
      s.store.resolveModel "f" false alice "alpha" = .ok row ∧
      ∃ before c later u u', twoModels = before ++ c :: later ∧
        exec (call id Credentials.plainVault) {} before = some u ∧
        call id Credentials.plainVault u c = some u' ∧ c.grants u alice.keyId row.id = true ∧
        exec (call id Credentials.plainVault) u' later = some s ∧
        ∀ w ∈ visited (call id Credentials.plainVault) u' later, (alice.keyId, row.id) ∈ w.store.modelGrants := by
  have hrun : ((exec (call id Credentials.plainVault) {} twoModels).bind fun s =>
      (s.store.resolveModel "f" false alice "alpha").toOption).isSome = true := by decide +kernel
  obtain ⟨row, hrun⟩ := Option.isSome_iff_exists.mp hrun
  obtain ⟨s, h, hrow⟩ := Option.bind_eq_some_iff.mp hrun
  have hok := toOption_eq_some.mp hrow
  exact ⟨s, row, h, hok, resolved_granted id Credentials.plainVault twoModels s h "f" false alice rfl "alpha" row hok⟩

/-- The grants that `update_model_access` leaves are those of its answer. -/
theorem answered (h : Granted s) {names allowed : List String} {mode : AccessMode} {a' : Access}
    (hok : s.view.access.updateModelAccess k names mode = .ok (a', allowed))
    (hs : call sha256 v s (.credentials (.access (.updateModelAccess k names mode))) = some s') {row : CatalogRow}
    (hrow : row ∈ s.store.modelCatalog) : (k, row.id) ∈ s'.store.modelGrants ↔ row.nickname ∈ allowed := by
  have hgrants : s'.store.modelGrants = a'.modelGrants.map fun g => (g.keyId, g.modelId) := by
    simp only [call, onCatalog, Credentials.call, Credentials.writesSecret, Access.call, hok, Except.map, commit,
      Bool.false_eq_true, if_false, Option.map_some, Option.some.injEq] at hs
    rw [← hs]
  obtain ⟨desired, -, hafter, hallowed, -, -, hdesired⟩ := Access.updateModelAccess_ok hok
  have hmem : row.toCatalogModel ∈ s.store.catalog := List.mem_map_of_mem hrow
  have hids : (s.store.catalog.map (·.id)).Nodup := by
    rw [ids_catalog, ← modelIds_eq]
    exact h.ids
  have hnicknames : (s.store.catalog.map (·.nickname)).Nodup := by
    rw [catalog, List.map_map]
    exact h.rows
  rw [hgrants, hafter, hallowed]
  constructor
  · intro hin
    obtain ⟨g, hg, heq⟩ := List.mem_map.mp hin
    obtain ⟨hk, hid⟩ := Prod.mk.inj heq
    rcases List.mem_append.mp hg with hg | hg
    · exact absurd hk (of_decide_eq_true (List.mem_filter.mp hg).2)
    · obtain ⟨m, hm, rfl⟩ := List.mem_map.mp hg
      have hsame := List.inj_on_of_nodup_map hids (hdesired m hm).1 hmem hid
      exact ⟨m, hm, congrArg CatalogModel.nickname hsame⟩
  · rintro ⟨m, hm, hname⟩
    have hsame := List.inj_on_of_nodup_map hnicknames (hdesired m hm).1 hmem hname
    exact List.mem_map.mpr ⟨⟨k, m.id⟩, List.mem_append_right _ (List.mem_map_of_mem hm), by rw [hsame]⟩

/-- **The answer to a change of access holds.** Whatever calls follow, until the
next one that concerns the key or makes the model callable, a request of the
user's key for a model is refused as not allowed if and only if the answer of
`update_model_access` did not have its nickname. -/
theorem answer_holds (sha256 : ProfileIdentity → κ) (v : KeyVault) (calls : List (Call κ)) (s : Service κ)
    (h : exec (call sha256 v) {} calls = some s) (k : KeyId) (names : List String) (mode : AccessMode)
    (a' : Access) (allowed : List String) (hok : s.view.access.updateModelAccess k names mode = .ok (a', allowed))
    (row : CatalogRow) (hrow : row ∈ s.store.modelCatalog) (later : List (Call κ)) (e : Service κ)
    (hlater : ∀ c ∈ later, c.concerns k row.id = false)
    (hrun : exec (call sha256 v) s (.credentials (.access (.updateModelAccess k names mode)) :: later) = some e)
    (fingerprint : String) (kvcached : Bool) (pr : KeyPrincipal) (hkey : pr.keyId = k) (hrole : pr.role = .user) :
    (∃ err, e.store.resolveModel fingerprint kvcached pr row.nickname = .error err ∧ err.statusCode = 403 ∧
      err.code = "model_not_allowed") ↔ row.nickname ∉ allowed := by
  have hgranted := granted_of_calls h
  obtain ⟨s1, hcall, hrun⟩ := (exec_cons _).mp hrun
  have hkept : Granted e ∧ ((k, row.id) ∈ e.store.modelGrants ↔ row.nickname ∈ allowed) ∧
      (row.id, row.nickname) ∈ e.store.names := by
    refine exec_invariant_mem (I := fun t : Service κ => Granted t ∧
      ((k, row.id) ∈ t.store.modelGrants ↔ row.nickname ∈ allowed) ∧ (row.id, row.nickname) ∈ t.store.names)
      (fun t c t' hc ht hs => ⟨granted_call ht.1 hs, (grant_frame hs (hlater c hc)).trans ht.2.1,
        names_call hs ht.2.2⟩)
      ⟨granted_call hgranted hcall, answered hgranted hok hcall hrow, names_call hcall ?_⟩ hrun
    exact List.mem_map_of_mem (f := fun r : CatalogRow => (r.id, r.nickname)) hrow
  obtain ⟨hgranted, hallowed, hname⟩ := hkept
  obtain ⟨row', hrow', hsame⟩ := List.mem_map.mp hname
  obtain ⟨hid, hnickname⟩ := Prod.mk.inj hsame
  rw [← hallowed, ← hid, ← hnickname, ← hkey, resolveModel_not_allowed hgranted.rows hrow']
  exact and_iff_right hrole

/-- The user keeps one of the two models, and the other one is granted to the
administrator. -/
theorem answer_holds_two :
    ∃ s a' allowed row e, exec (call id Credentials.plainVault) {} twoModels = some s ∧
      s.view.access.updateModelAccess "u1" ["beta"] .replace = .ok (a', allowed) ∧
      s.store.modelByNickname "alpha" = some row ∧
      exec (call id Credentials.plainVault) s (.credentials (.access (.updateModelAccess "u1" ["beta"] .replace)) ::
        [.replaceModelGrants "a1" ["m"]]) = some e ∧
      ((∃ err, e.store.resolveModel "f" false alice row.nickname = .error err ∧ err.statusCode = 403 ∧
        err.code = "model_not_allowed") ↔ row.nickname ∉ allowed) := by
  have hrun : ((exec (call id Credentials.plainVault) {} twoModels).bind fun s =>
      (s.view.access.updateModelAccess "u1" ["beta"] .replace).toOption.bind fun answer =>
        (s.store.modelByNickname "alpha").bind fun row =>
          exec (call id Credentials.plainVault) s
            (.credentials (.access (.updateModelAccess "u1" ["beta"] .replace)) ::
              [.replaceModelGrants "a1" ["m"]])).isSome = true := by decide +kernel
  obtain ⟨e, hrun⟩ := Option.isSome_iff_exists.mp hrun
  obtain ⟨s, h, hrun⟩ := Option.bind_eq_some_iff.mp hrun
  obtain ⟨⟨a', allowed⟩, hanswer, hrun⟩ := Option.bind_eq_some_iff.mp hrun
  obtain ⟨row, hrow, hlater⟩ := Option.bind_eq_some_iff.mp hrun
  have hok := toOption_eq_some.mp hanswer
  have hother : ∀ c ∈ [(.replaceModelGrants "a1" ["m"] : Call ProfileIdentity)], c.concerns "u1" row.id = false := by
    intro c hc
    rw [List.mem_singleton.mp hc]
    rfl
  exact ⟨s, a', allowed, row, e, h, hok, hrow, hlater,
    answer_holds id Credentials.plainVault twoModels s h "u1" ["beta"] .replace a' allowed hok row
      (modelByNickname_some hrow).1 _ e hother hlater "f" false alice rfl rfl⟩

end

end Service
end LlmRio
