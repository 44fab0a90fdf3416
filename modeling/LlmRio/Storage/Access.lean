/-
# An administrator always remains

The runs of all calls on keys, with the model grants that `update_model_access`
writes and `delete_key` deletes. A revocation and a deletion count the active
administrators first, so one of them stays active; a deletion leaves a tombstone
in place of the token prefix, which `set_key_active` tests with `startswith`
and `replace_key_secret` with LIKE, so the key is never active again
(`admin_remains`).

Key definitions: `Access`, `updateModelAccess`, `AdminActive`, `Tombstoned`.
Key theorems: `ensureInitialAdmin_active`, `adminActive_call`, `tombstoned_call`, `admin_remains`.
-/
import LlmRio.Storage.Keys

namespace LlmRio

open Transactions Runs

namespace Database

variable {db db' : Database}

/-! ### The last administrator -/

def AdminActive (db : Database) : Prop := ∃ k ∈ db.apiKeys, k.activeAdmin = true

/-- `_ensure_initial_admin`, at the first start. -/
def ensureInitialAdmin (db : Database) (keyId : KeyId) (accountId : AccountId) (tokenPrefix : String) :
    Except StorageError Database :=
  if db.apiKeys.length ≠ 0 then .ok db
  else db.createKey keyId "admin" .admin accountId "admin-account" tokenPrefix 0 true

theorem ensureInitialAdmin_active (hn : (db.apiKeys.map (·.id)).Nodup) (h : db.apiKeys ≠ [] → AdminActive db)
    {k : KeyId} {a : AccountId} {p : String} (hok : db.ensureInitialAdmin k a p = .ok db') :
    (db'.apiKeys.map (·.id)).Nodup ∧ AdminActive db' := by
  unfold ensureInitialAdmin at hok
  split at hok
  · rename_i hlen
    cases hok
    exact ⟨hn, h fun hnil => hlen (by rw [hnil, List.length_nil])⟩
  · rename_i hlen
    have hnil : db.apiKeys = [] := List.length_eq_zero_iff.mp (not_not.mp hlen)
    obtain ⟨-, key, hrole, hactive, -, hkeys, -⟩ := createKey_keys hok
    rw [hnil, List.nil_append] at hkeys
    refine ⟨?_, key, ?_, decide_eq_true ⟨hrole, hactive⟩⟩
    · rw [hkeys]
      exact List.nodup_singleton _
    · rw [hkeys]
      exact List.mem_singleton_self key

/-- Of two active administrators one has another id. -/
theorem other_admin (hn : (db.apiKeys.map (·.id)).Nodup) (h : 1 < db.activeAdmins) (id : KeyId) :
    ∃ k ∈ db.apiKeys, k.activeAdmin = true ∧ k.id ≠ id := by
  by_contra hnone
  have hall : ∀ i ∈ (db.apiKeys.filter fun k => k.role = .admin ∧ k.active).map (·.id), i = id := by
    intro i hi
    obtain ⟨k, hk, rfl⟩ := List.mem_map.mp hi
    obtain ⟨hk, hadmin⟩ := List.mem_filter.mp hk
    by_contra hne
    exact hnone ⟨k, hk, hadmin, hne⟩
  have hone := List.eq_replicate_of_mem hall
  have hnodup := hn.sublist ((List.filter_sublist (l := db.apiKeys)
    (p := fun k => k.role = .admin ∧ k.active)).map (·.id))
  rw [hone, List.nodup_replicate, List.length_map] at hnodup
  unfold activeAdmins at h
  omega

theorem adminActive_write (hn : (db.apiKeys.map (·.id)).Nodup) (h : AdminActive db) {key : ApiKey}
    {f : ApiKey → ApiKey} (hkey : db.key? key.id = some key) (hwrite : KeyWrite db key f) :
    AdminActive (writeKey db key f) := by
  have hother : ∀ k ∈ db.apiKeys, k.activeAdmin = true → k.id ≠ key.id → AdminActive (writeKey db key f) :=
    fun k hk hadmin hne => ⟨k, Table.mem_modify.mpr (.inl ⟨hk, hne⟩), hadmin⟩
  have hself : (f key).activeAdmin = true → AdminActive (writeKey db key f) :=
    fun hadmin => ⟨f key, Table.mem_modify.mpr (.inr ⟨key, (Table.lookup_some hkey).1, rfl, rfl⟩), hadmin⟩
  obtain ⟨admin, hmem, hadmin⟩ := h
  by_cases hid : admin.id = key.id
  · -- the administrator is the key: it stays active, or there is another one
    obtain rfl : admin = key := Table.eq_of_key hn hmem (Table.lookup_some hkey).1 hid
    have hrole : admin.role = .admin := (of_decide_eq_true hadmin).1
    cases hwrite with
    | active a hon hoff =>
      cases a with
      | true => exact hself (decide_eq_true ⟨hrole, rfl⟩)
      | false =>
        obtain ⟨k, hk, hk', hne⟩ := other_admin hn (hoff rfl hadmin) admin.id
        exact hother k hk hk' hne
    | secret p => exact hself (decide_eq_true ⟨hrole, rfl⟩)
    | deletion hoff =>
      obtain ⟨k, hk, hk', hne⟩ := other_admin hn (hoff hadmin) admin.id
      exact hother k hk hk' hne
  · exact hother admin hmem hadmin hid

theorem adminActive_call {c : Call} (hn : (db.apiKeys.map (·.id)).Nodup) (h : AdminActive db)
    (hs : call db c = some db') : AdminActive db' := by
  rcases call_keys hs with ⟨op, -, hs⟩ | ⟨heq, -⟩ | ⟨key, f, hkey, hwrite, rfl⟩
  · obtain ⟨k, hk, hadmin⟩ := h
    rcases (step_keys hs).keys with heq | ⟨key, -, -, heq, -⟩
    · exact ⟨k, heq ▸ hk, hadmin⟩
    · exact ⟨k, by rw [heq]; exact List.mem_append_left _ hk, hadmin⟩
  · obtain ⟨k, hk, hadmin⟩ := h
    exact ⟨k, heq ▸ hk, hadmin⟩
  · exact adminActive_write hn h hkey hwrite

/-! ### Deleted keys -/

/-- The row of the key is inactive and has its tombstone for a token prefix. -/
def Tombstoned (id : KeyId) (db : Database) : Prop :=
  ∃ k, db.key? id = some k ∧ k.active = false ∧ k.tokenPrefix = "deleted-" ++ id

/-- A tombstone is written over only by a tombstone. -/
theorem tombstoned_write {id : KeyId} (h : Tombstoned id db) {key : ApiKey} {f : ApiKey → ApiKey}
    (hkey : db.key? key.id = some key) (hwrite : KeyWrite db key f) : Tombstoned id (writeKey db key f) := by
  obtain ⟨k, hk, hinactive, htoken⟩ := h
  have hkeep : ∀ j : ApiKey, j.id = key.id → (f j).id = key.id := fun j hj => (hwrite.columns j).1.trans hj
  by_cases hid : id = key.id
  · subst hid
    obtain rfl : k = key := Option.some.inj (hk.symm.trans hkey)
    refine ⟨f k, ?_, ?_⟩
    · show Table.lookup ApiKey.id k.id (Table.modify ApiKey.id k.id f db.apiKeys) = _
      rw [Table.lookup_modify_self hkeep]
      show (db.key? k.id).map f = _
      rw [hk, Option.map_some]
    · have hstarts : k.tokenPrefix.startsWith "deleted-" = true := by
        rw [htoken, String.startsWith_string_iff]
        exact ⟨k.id.toList, by simp⟩
      have hdeleted : k.deleted = true := by
        unfold ApiKey.deleted
        rw [htoken]
        exact tombstone_deleted k.id
      cases hwrite with
      | active a hon hoff =>
        cases a with
        | true => exact absurd ((hon rfl).symm.trans hstarts) (by decide)
        | false => exact ⟨rfl, htoken⟩
      | secret p hlike => exact absurd (hlike.symm.trans hdeleted) (by decide)
      | deletion hoff => exact ⟨rfl, rfl⟩
  · refine ⟨k, ?_, hinactive, htoken⟩
    show Table.lookup ApiKey.id id (Table.modify ApiKey.id key.id f db.apiKeys) = _
    rw [Table.lookup_modify_ne hid hkeep]
    exact hk

theorem tombstoned_call {c : Call} {id : KeyId} (h : Tombstoned id db) (hs : call db c = some db') :
    Tombstoned id db' := by
  rcases call_keys hs with ⟨op, -, hs⟩ | ⟨heq, -⟩ | ⟨key, f, hkey, hwrite, rfl⟩
  · obtain ⟨k, hk, hrow⟩ := h
    refine ⟨k, ?_, hrow⟩
    unfold key? at hk ⊢
    rcases (step_keys hs).keys with heq | ⟨key, -, -, heq, -⟩
    · rw [heq, hk]
    · rw [heq, Table.lookup_append, hk, Option.some_or]
  · obtain ⟨k, hk, hrow⟩ := h
    refine ⟨k, ?_, hrow⟩
    unfold key? at hk ⊢
    rw [heq, hk]
  · exact tombstoned_write h hkey hwrite

theorem deleteKey_tombstoned {id : KeyId} (hok : db.deleteKey id = .ok (db', true)) : Tombstoned id db' := by
  rcases deleteKey_ok hok with ⟨hfalse, -⟩ | ⟨key, rfl, hkey, hwrite, rfl⟩
  · cases hfalse
  · refine ⟨tombstone key.id key, ?_, rfl, rfl⟩
    have hkeep : ∀ j : ApiKey, j.id = key.id → (tombstone key.id j).id = key.id := fun _ hj => hj
    show Table.lookup ApiKey.id key.id (Table.modify ApiKey.id key.id (tombstone key.id) db.apiKeys) = _
    rw [Table.lookup_modify_self hkeep]
    show (db.key? key.id).map _ = _
    rw [hkey, Option.map_some]

end Database

/-! ### Model access -/

structure ModelGrant where
  keyId : KeyId
  modelId : ModelId
deriving DecidableEq, Repr

/-- The database with its table `model_grants`. -/
structure Access where
  db : Database := {}
  modelGrants : List ModelGrant := []

/-- The `mode` of `update_model_access`. -/
inductive AccessMode | add | remove | replace
deriving DecidableEq, Repr

inductive AccessError
  | keyError (keyId : KeyId)
  | modelNotFound (missingModels : List String)
deriving DecidableEq, Repr

namespace Access

/-- `update_model_access`; it returns the nicknames of the models that the key
may use afterwards. -/
def updateModelAccess (d : Access) (keyId : KeyId) (modelNicknames : List String) (mode : AccessMode) :
    Except AccessError (Access × List String) :=
  let requestedNames := modelNicknames.dedup
  if d.db.apiKeys.any fun k => k.id = keyId ∧ k.active then
    let modelsByName := d.db.modelCatalog.filter (·.nickname ∈ requestedNames)
    let missing := requestedNames.filter fun n => n ∉ modelsByName.map (·.nickname)
    if missing ≠ [] then .error (.modelNotFound (missing.mergeSort (fun a b => decide (a ≤ b))))
    else
      let existing := d.db.modelCatalog.filter fun m => ⟨keyId, m.id⟩ ∈ d.modelGrants
      let desired :=
        match mode with
        | .add => existing ++ modelsByName.filter (· ∉ existing)
        | .remove => existing.filter (·.nickname ∉ requestedNames)
        | .replace => modelsByName
      .ok ({ d with
        modelGrants := d.modelGrants.filter (·.keyId ≠ keyId) ++ desired.map fun m => ⟨keyId, m.id⟩ },
        (desired.map (·.nickname)).mergeSort (fun a b => decide (a ≤ b)))
  else .error (.keyError keyId)

/-- The grants after a call on the tables of `Database`: `delete_key` deletes
those of the key. -/
def grantsAfter (d : Access) : Database.Call → List ModelGrant
  | .deleteKey k =>
    match d.db.deleteKey k with
    | .ok (_, true) => d.modelGrants.filter (·.keyId ≠ k)
    | _ => d.modelGrants
  | _ => d.modelGrants

inductive Call
  | database (c : Database.Call)
  | updateModelAccess (keyId : KeyId) (modelNicknames : List String) (mode : AccessMode)

def call (d : Access) : Call → Option Access
  | .database c => (d.db.call c).map fun db => { db := db, modelGrants := d.grantsAfter c }
  | .updateModelAccess k names mode => some (commit d ((d.updateModelAccess k names mode).map (·.1)))

variable {d d' : Access}

/-- The change of access leaves the tables of `Database`. -/
theorem call_database {c : Call} (hs : call d c = some d') :
    d'.db = d.db ∨ ∃ c', d.db.call c' = some d'.db := by
  cases c with
  | database c =>
    obtain ⟨db, hdb, rfl⟩ := Option.map_eq_some_iff.mp hs
    exact .inr ⟨c, hdb⟩
  | updateModelAccess k names mode =>
    cases hs
    refine .inl (commit_invariant (I := fun e : Access => e.db = d.db) rfl fun e he => ?_)
    obtain ⟨⟨e', names'⟩, he', rfl⟩ := map_eq_ok he
    unfold updateModelAccess at he'
    obtain ⟨-, he'⟩ := guard_eq_ok'.mp he'
    obtain ⟨-, he'⟩ := guard_eq_ok.mp he'
    cases he'
    rfl

/-- What every call on the database keeps, every run keeps. -/
theorem run_invariant {I : Database → Prop} (hI : ∀ db c db', I db → db.call c = some db' → I db')
    {calls : List Call} (hd : I d.db) (h : exec call d calls = some d') : I d'.db := by
  refine exec_invariant (I := fun e => I e.db) (fun e c e' he hs => ?_) hd h
  rcases call_database hs with heq | ⟨c', hc'⟩
  · exact heq ▸ he
  · exact hI _ c' _ he hc'

/-- **An administrator always remains, and a deletion is final.** In every run
from a database with distinct key ids and an active administrator, an
administrator is active, a key that has been deleted is inactive after whatever
follows, and a call that is refused for the last administrator changes nothing. -/
theorem admin_remains (start : Access) (hn : (start.db.apiKeys.map (·.id)).Nodup)
    (hadmin : start.db.AdminActive) (calls : List Call) (d : Access) (h : exec call start calls = some d) :
    (∃ k ∈ d.db.apiKeys, k.role = .admin ∧ k.active = true) ∧
    (∀ id db', d.db.deleteKey id = .ok (db', true) → ∀ later e,
      exec call d (.database (.deleteKey id) :: later) = some e → ∀ k ∈ e.db.apiKeys, k.id = id → k.active = false) ∧
    (∀ id active, d.db.setKeyActive id active = .error .lastAdminKey →
      call d (.database (.setKeyActive id active)) = some d) ∧
    ∀ id, d.db.deleteKey id = .error .lastAdminKey → call d (.database (.deleteKey id)) = some d := by
  have hids : (d.db.apiKeys.map (·.id)).Nodup := run_invariant (fun _ _ _ => Database.nodup_call) hn h
  have hactive : d.db.AdminActive := by
    have hboth := run_invariant (I := fun db => (db.apiKeys.map (·.id)).Nodup ∧ db.AdminActive)
      (fun _ _ _ hi hs => ⟨Database.nodup_call hi.1 hs, Database.adminActive_call hi.1 hi.2 hs⟩) ⟨hn, hadmin⟩ h
    exact hboth.2
  refine ⟨?_, ?_, ?_, ?_⟩
  · obtain ⟨k, hk, hadmin⟩ := hactive
    exact ⟨k, hk, of_decide_eq_true hadmin⟩
  · intro id db' hok later e hlater k hk hid
    obtain ⟨d1, h1, hlater⟩ := (exec_cons call).mp hlater
    have hd1 : d1.db = db' := by
      simp only [call, Database.call, hok, Except.map, commit, Option.map_some, Option.some.injEq] at h1
      rw [← h1]
    have htomb : d1.db.Tombstoned id := hd1 ▸ Database.deleteKey_tombstoned hok
    have hids1 : (d1.db.apiKeys.map (·.id)).Nodup :=
      run_invariant (fun _ _ _ => Database.nodup_call) hids ((exec_singleton call).mpr h1)
    have hids' : (e.db.apiKeys.map (·.id)).Nodup := run_invariant (fun _ _ _ => Database.nodup_call) hids1 hlater
    obtain ⟨k', hk', hinactive, -⟩ :=
      run_invariant (I := Database.Tombstoned id) (fun _ _ _ => Database.tombstoned_call) htomb hlater
    have hlook := Table.lookup_of_mem hids' hk
    rw [hid] at hlook
    obtain rfl : k = k' := Option.some.inj (hlook.symm.trans hk')
    exact hinactive
  · intro id active hraise
    simp only [call, Database.call, hraise, Except.map, commit, Option.map_some, grantsAfter]
  · intro id hraise
    simp only [call, Database.call, hraise, Except.map, commit, Option.map_some, grantsAfter]

/-- The initial administrator makes another one and is deleted; the new one
can neither be revoked nor deleted. -/
theorem admin_remains_initial :
    ∃ db d, ({} : Database).ensureInitialAdmin "a" "acct" "rio_a" = .ok db ∧
      exec call { db := db }
        [.database (.quota (.createKey "b" "bob" .admin "acct-b" "bob" "rio_b" 0 false)),
         .database (.deleteKey "a"), .database (.setKeyActive "b" false), .database (.deleteKey "b"),
         .updateModelAccess "b" [] .replace] = some d ∧
      ∃ k ∈ d.db.apiKeys, k.role = .admin ∧ k.active = true := by
  have hinitial : ∃ db, ({} : Database).ensureInitialAdmin "a" "acct" "rio_a" = .ok db := ⟨_, by rfl⟩
  obtain ⟨db, hdb⟩ := hinitial
  have hnone : (({} : Database).apiKeys.map (·.id)).Nodup := List.nodup_nil
  have hstart := Database.ensureInitialAdmin_active hnone (fun h => absurd rfl h) hdb
  have hrun := fun d h => (admin_remains { db := db } hstart.1 hstart.2
    [.database (.quota (.createKey "b" "bob" .admin "acct-b" "bob" "rio_b" 0 false)),
     .database (.deleteKey "a"), .database (.setKeyActive "b" false), .database (.deleteKey "b"),
     .updateModelAccess "b" [] .replace] d h).1
  cases hdb
  exact ⟨_, _, by rfl, by rfl, hrun _ (by rfl)⟩

end Access
end LlmRio
