/-
# Keys and models over a run

The other calls that write a table which the quota interface reads: a key is
activated, gets a new secret or is deleted (its row stays, with tombstones for
nickname and token prefix), a model is inserted into the catalog, and its row
is updated as it is downloaded, validated and disabled. `Call` is one of these
or a call of the quota interface, and `call` makes it.

In every database that calls reach, the facts of `Wf` hold, the models have
distinct ids and nicknames, and every reservation and every summary has its
model (`stored_call`): no foreign key is left dangling, because no call
deletes a model.

Key definitions: `Call`, `call`, `Stored`.
Key theorems: `call_cases`, `stored_call`, `stored_of_calls`.
-/
import LlmRio.Storage.Wellformed

namespace LlmRio

open Runs Transactions

namespace Database

/-! ### Keys -/

/-- `SELECT COUNT(*) FROM api_keys WHERE role = 'admin' AND active = 1` -/
def activeAdmins (db : Database) : ℕ := (db.apiKeys.filter fun k => k.role = .admin ∧ k.active).length

/-- `UPDATE api_keys SET .. WHERE id = ?`, with its UNIQUE columns. -/
def updateKey (db : Database) (id : KeyId) (f : ApiKey → ApiKey) : Except StorageError Database :=
  if db.apiKeys.any fun k => k.id = id ∧ db.apiKeys.any fun j =>
      j.id ≠ id ∧ (j.nickname = (f k).nickname ∨ j.tokenPrefix = (f k).tokenPrefix) then
    .error .integrityError
  else .ok { db with apiKeys := Table.modify ApiKey.id id f db.apiKeys }

def setKeyActive (db : Database) (keyId : KeyId) (active : Bool) : Except StorageError (Database × Bool) :=
  match db.key? keyId with
  | none => .ok (db, false)
  | some key =>
    if active ∧ key.tokenPrefix.startsWith "deleted-" then .ok (db, false)
    else if ¬ active ∧ key.role = .admin ∧ key.active ∧ db.activeAdmins ≤ 1 then .error .lastAdminKey
    else do
      let db ← db.updateKey keyId fun k => { k with active := active }
      pure (db, true)

/-- `replace_key_secret`; LIKE does not tell the case of letters. -/
def replaceKeySecret (db : Database) (keyId : KeyId) (tokenPrefix : String) :
    Except StorageError (Database × Bool) :=
  match db.key? keyId with
  | none => .ok (db, false)
  | some key =>
    if key.tokenPrefix.toLower.startsWith "deleted-" then .ok (db, false)
    else do
      let db ← db.updateKey keyId fun k => { k with tokenPrefix := tokenPrefix, active := true }
      pure (db, true)

/-- `delete_key` keeps the row for the references to it. -/
def deleteKey (db : Database) (keyId : KeyId) : Except StorageError (Database × Bool) :=
  match db.key? keyId with
  | none => .ok (db, false)
  | some key =>
    if key.role = .admin ∧ key.active ∧ db.activeAdmins ≤ 1 then .error .lastAdminKey
    else do
      let tombstone := "deleted-" ++ keyId
      let db ← db.updateKey keyId fun k =>
        { k with active := false, nickname := tombstone, tokenPrefix := tombstone }
      pure (db, true)

/-! ### Models -/

/-- The INSERT of `request_model`, and that of a cloned model. -/
def insertModel (db : Database) (m : CatalogModel) : Except StorageError Database :=
  if db.modelCatalog.any fun n => n.id = m.id ∨ n.nickname = m.nickname then .error .integrityError
  else .ok { db with modelCatalog := db.modelCatalog ++ [m] }

/-- The UPDATE statements of `update_model_job`, of the registration and of
`disable_model`; a path that is not given stays. -/
def updateModel (db : Database) (id : ModelId) (state : CatalogState) (artifactPath : Option String) :
    Database :=
  { db with
    modelCatalog := Table.modify CatalogModel.id id
      (fun m => { m with state := state, artifactPath := artifactPath.or m.artifactPath }) db.modelCatalog }

/-! ### Calls -/

inductive Call
  | quota (op : Op)
  | setKeyActive (keyId : KeyId) (active : Bool)
  | replaceKeySecret (keyId : KeyId) (tokenPrefix : String)
  | deleteKey (keyId : KeyId)
  | insertModel (m : CatalogModel)
  | updateModel (id : ModelId) (state : CatalogState) (artifactPath : Option String)

/-- One call; a call that raises leaves the database as it was. -/
def call (db : Database) : Call → Option Database
  | .quota op => step db op
  | .setKeyActive k a => some (commit db ((db.setKeyActive k a).map (·.1)))
  | .replaceKeySecret k p => some (commit db ((db.replaceKeySecret k p).map (·.1)))
  | .deleteKey k => some (commit db ((db.deleteKey k).map (·.1)))
  | .insertModel m => some (commit db (db.insertModel m))
  | .updateModel id state path => some (db.updateModel id state path)

/-! ### What a call of the quota interface refers to -/

/-- The models are those of the catalog, and every reservation and every
summary has its model there. -/
structure Referenced (catalog : List CatalogModel) (db : Database) : Prop where
  sameCatalog : db.modelCatalog = catalog
  models : ∀ q ∈ db.quotaReservations, q.modelId ∈ catalog.map (·.id)
  summaryModels : ∀ s ∈ db.usageSummaries, s.modelId ∈ catalog.map (·.id)

/-- `Wf`, a catalog with distinct ids and nicknames, and no reference to a
model that it does not have. -/
structure Stored (db : Database) : Prop where
  wf : Wf db
  referenced : Referenced db.modelCatalog db
  modelIds : (db.modelCatalog.map (·.id)).Nodup
  nicknames : (db.modelCatalog.map (·.nickname)).Nodup

variable {catalog : List CatalogModel} {db db' : Database}

/-- The reservations, the summaries and the catalog stay. -/
theorem Referenced.congr (h : Referenced catalog db) (hc : db'.modelCatalog = db.modelCatalog)
    (hq : db'.quotaReservations = db.quotaReservations) (hs : db'.usageSummaries = db.usageSummaries) :
    Referenced catalog db' :=
  ⟨hc.trans h.sameCatalog, by rw [hq]; exact h.models, by rw [hs]; exact h.summaryModels⟩

theorem referenced_accounts (catalog : List CatalogModel) : AccountInvariant (Referenced catalog) :=
  .of_rows fun _ _ _ _ h => h.congr rfl rfl rfl

theorem Referenced.insertReservation (h : Referenced catalog db) {q : QuotaReservation}
    (hok : db.insertReservation q = .ok db') : Referenced catalog db' := by
  unfold Database.insertReservation at hok
  obtain ⟨hg, hok⟩ := guard_eq_ok.mp hok
  cases hok
  have hmodel : q.modelId ∈ catalog.map (·.id) := by
    have hhas : db.hasModel q.modelId = true := by
      by_contra hno
      exact hg (.inr (.inr (.inr (.inr hno))))
    rw [← h.sameCatalog]
    simpa [hasModel] using hhas
  refine ⟨h.sameCatalog, fun p hp => ?_, h.summaryModels⟩
  rcases List.mem_append.mp hp with hp | hp
  · exact h.models p hp
  · rw [List.mem_singleton.mp hp]
    exact hmodel

theorem Referenced.settleQuota (h : Referenced catalog db) {rid : ReservationId} {n : ℤ} {p c : Option ℤ}
    {e : Option String} {lid : String} {now : Datetime}
    (hok : db.settleQuota rid n p c e lid now = .ok db') : Referenced catalog db' := by
  refine (referenced_accounts catalog).settle h (fun d charged hd => ?_) hok
  refine ⟨hd.sameCatalog, fun q hq => ?_, hd.summaryModels⟩
  rcases Table.mem_modify.mp hq with ⟨hq, -⟩ | ⟨q0, hq0, -, rfl⟩
  · exact hd.models q hq
  · exact hd.models q0 hq0

theorem Referenced.summarizeUsage (h : Referenced catalog db) {through : Cutoff} {now : Datetime}
    {report : SummaryReport} (hok : db.summarizeUsage through now = .ok (db', report)) :
    Referenced catalog db' := by
  obtain ⟨cutoff, summaries, start, -, -, hfold, rfl⟩ := summarizeUsage_ok hok
  refine ⟨h.sameCatalog, fun q hq => h.models q (List.mem_of_mem_filter hq), fun s hs => ?_⟩
  rcases mem_summaries hfold hs with ⟨r, hr, hk⟩ | ⟨q, hq, -, hk⟩
  · simp only [UsageSummary.key, Prod.mk.injEq] at hk
    rw [← hk.2.2.2]
    exact h.summaryModels r hr
  · simp only [UsageSummary.key, Prod.mk.injEq] at hk
    rw [hk.2.2.2]
    exact h.models q hq

theorem referenced_step {op : Op} (h : Referenced catalog db) (hs : step db op = some db') :
    Referenced catalog db' := by
  unfold step at hs
  split at hs
  case isFalse => cases hs
  case isTrue hlink =>
  cases hs
  cases op with
  | createKey | updateQuota | resetUsage => exact (referenced_accounts catalog).run h rfl
  | reserveQuota => exact (referenced_accounts catalog).reserve h fun q d _ _ hok => h.insertReservation hok
  | createInferenceRequest | markRequestAdmitted =>
    exact rows_invariant (I := Referenced catalog) (fun _ => h.congr rfl rfl rfl) rfl
  | settleQuota | releaseReservation | recoverOrphanedState =>
    exact settle_invariant h (fun hd hok => hd.settleQuota hok) rfl
  | summarizeUsage => exact summarize_invariant h h.summarizeUsage

/-! ### What a call leaves stored -/

theorem updateKey_ok {id : KeyId} {f : ApiKey → ApiKey} (hok : db.updateKey id f = .ok db') :
    ∃ keys, db' = { db with apiKeys := keys } := by
  unfold updateKey at hok
  obtain ⟨-, hok⟩ := guard_eq_ok.mp hok
  cases hok
  exact ⟨_, rfl⟩

/-- The calls on a key change the table of keys, or nothing. -/
theorem keys_of_commit {t : Except StorageError (Database × Bool)}
    (h : ∀ d b, t = .ok (d, b) → ∃ keys, d = { db with apiKeys := keys }) :
    ∃ keys, commit db (t.map (·.1)) = { db with apiKeys := keys } := by
  cases t with
  | error e => exact ⟨db.apiKeys, rfl⟩
  | ok result => exact h result.1 result.2 rfl

/-- What a call does: a step of the quota interface, a change of the keys, a new
model, or a change of the other columns of a model. -/
theorem call_cases {c : Call} (hs : call db c = some db') :
    (∃ op, c = .quota op ∧ step db op = some db') ∨
    (∃ keys, db' = { db with apiKeys := keys }) ∨
    (∃ m, (∀ n ∈ db.modelCatalog, n.id ≠ m.id ∧ n.nickname ≠ m.nickname) ∧
      db' = { db with modelCatalog := db.modelCatalog ++ [m] }) ∨
    (∃ id f, (∀ m : CatalogModel, (f m).id = m.id ∧ (f m).nickname = m.nickname) ∧
      db' = { db with modelCatalog := Table.modify CatalogModel.id id f db.modelCatalog }) := by
  cases c with
  | quota op => exact .inl ⟨op, rfl, hs⟩
  | setKeyActive k a =>
    cases hs
    refine .inr (.inl (keys_of_commit fun d b hd => ?_))
    unfold setKeyActive at hd
    split at hd
    · cases hd
      exact ⟨db.apiKeys, rfl⟩
    · split at hd
      · cases hd
        exact ⟨db.apiKeys, rfl⟩
      · obtain ⟨-, hd⟩ := guard_eq_ok.mp hd
        obtain ⟨d1, h1, hd⟩ := bind_eq_ok.mp hd
        cases pure_eq_ok.mp hd
        exact updateKey_ok h1
  | replaceKeySecret k p =>
    cases hs
    refine .inr (.inl (keys_of_commit fun d b hd => ?_))
    unfold replaceKeySecret at hd
    split at hd
    · cases hd
      exact ⟨db.apiKeys, rfl⟩
    · split at hd
      · cases hd
        exact ⟨db.apiKeys, rfl⟩
      · obtain ⟨d1, h1, hd⟩ := bind_eq_ok.mp hd
        cases pure_eq_ok.mp hd
        exact updateKey_ok h1
  | deleteKey k =>
    cases hs
    refine .inr (.inl (keys_of_commit fun d b hd => ?_))
    unfold deleteKey at hd
    split at hd
    · cases hd
      exact ⟨db.apiKeys, rfl⟩
    · obtain ⟨-, hd⟩ := guard_eq_ok.mp hd
      obtain ⟨d1, h1, hd⟩ := bind_eq_ok.mp hd
      cases pure_eq_ok.mp hd
      exact updateKey_ok h1
  | insertModel m =>
    cases hs
    cases hd : db.insertModel m with
    | error e => exact .inr (.inl ⟨db.apiKeys, rfl⟩)
    | ok d =>
      unfold insertModel at hd
      obtain ⟨hnew, hd⟩ := guard_eq_ok.mp hd
      cases hd
      simp only [List.any_eq_true, decide_eq_true_eq, not_exists, not_and, not_or] at hnew
      exact .inr (.inr (.inl ⟨m, hnew, rfl⟩))
  | updateModel id state path =>
    cases hs
    exact .inr (.inr (.inr ⟨id, fun m => { m with state := state, artifactPath := path.or m.artifactPath },
      fun _ => ⟨rfl, rfl⟩, rfl⟩))

/-- Another catalog, with the models that there were. -/
theorem Stored.models (h : Stored db) {models : List CatalogModel}
    (hids : (models.map (·.id)).Nodup) (hnames : (models.map (·.nickname)).Nodup)
    (hsub : ∀ id ∈ db.modelCatalog.map (·.id), id ∈ models.map (·.id)) :
    Stored { db with modelCatalog := models } := by
  refine ⟨h.wf.accounts rfl rfl rfl h.wf.accountIds h.wf.checks fun a ha => ⟨a, ha, rfl⟩, ?_, hids, hnames⟩
  exact ⟨rfl, fun q hq => hsub _ (h.referenced.models q hq),
    fun s hs => hsub _ (h.referenced.summaryModels s hs)⟩

theorem stored_call {c : Call} (h : Stored db) (hs : call db c = some db') : Stored db' := by
  rcases call_cases hs with ⟨op, -, hs⟩ | ⟨keys, rfl⟩ | ⟨m, hnew, rfl⟩ | ⟨id, f, hf, rfl⟩
  · have hr := referenced_step h.referenced hs
    refine ⟨wf_step h.wf hs, ?_, ?_, ?_⟩
    · rwa [hr.sameCatalog]
    · rw [hr.sameCatalog]
      exact h.modelIds
    · rw [hr.sameCatalog]
      exact h.nicknames
  · exact ⟨h.wf.audit keys db.quotaLedger, h.referenced.congr rfl rfl rfl, h.modelIds, h.nicknames⟩
  · refine h.models ?_ ?_ fun id hid => ?_
    · rw [List.map_append, List.nodup_append]
      refine ⟨h.modelIds, List.nodup_singleton _, ?_⟩
      simpa using fun n hn => (hnew n hn).1
    · rw [List.map_append, List.nodup_append]
      refine ⟨h.nicknames, List.nodup_singleton _, ?_⟩
      simpa using fun n hn => (hnew n hn).2
    · rw [List.map_append]
      exact List.mem_append_left _ hid
  · have hids := @Table.map_modify_of_eq _ _ _ CatalogModel.id id f _ (·.id) db.modelCatalog
      fun m _ _ => (hf m).1
    have hnames := @Table.map_modify_of_eq _ _ _ CatalogModel.id id f _ (·.nickname) db.modelCatalog
      fun m _ _ => (hf m).2
    refine h.models ?_ ?_ fun id hid => ?_
    · rw [hids]
      exact h.modelIds
    · rw [hnames]
      exact h.nicknames
    · rwa [hids]

theorem stored_empty : Stored {} := by
  refine ⟨wf_fresh [], ⟨rfl, ?_, ?_⟩, ?_, ?_⟩ <;> simp

theorem stored_of_calls {calls : List Call} (h : exec call {} calls = some db) : Stored db :=
  exec_invariant (I := Stored) (fun _ _ _ hi hs => stored_call hi hs) stored_empty h

end Database
end LlmRio
