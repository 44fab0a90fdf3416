/-
# What every database has

The facts that the constraints of the schema and the statements of
`storage.py` keep in every database: primary keys are distinct, the accounts
pass their CHECK constraints, every reservation and every summary has its
account, a reservation is not negative, and a request row names a reservation
made for its own request id.

`Database.step` makes one call of the quota interface: an error rolls back,
so it leaves the database as it was. The gateway stores a request row with
the id it reserved under and the reservation it got, and `step` takes
`create_inference_request` only so.

What a group of calls keeps is said once for the group: the calls on accounts
(`AccountInvariant`), those on request rows, and those that settle.

Key definitions: `Wf`, `Op`, `step`, `AccountInvariant`.
Key theorems: `AccountInvariant.settle`, `settle_invariant`, `Wf.oneRequest`, `wf_step`.
-/
import LlmRio.Lib.Runs
import LlmRio.Storage.UsageSummary

namespace LlmRio

open Transactions

namespace Database

structure Wf (db : Database) : Prop where
  accountIds : (db.quotaAccounts.map (·.id)).Nodup
  reservationIds : (db.quotaReservations.map (·.id)).Nodup
  requestIds : (db.inferenceRequests.map (·.id)).Nodup
  summaryKeys : (db.usageSummaries.map UsageSummary.key).Nodup
  checks : ∀ a ∈ db.quotaAccounts, a.checks = true
  reservedNonneg : ∀ q ∈ db.quotaReservations, 0 ≤ q.reservedTokens
  owners : ∀ q ∈ db.quotaReservations, (db.account? q.accountId).isSome
  summaryOwners : ∀ s ∈ db.usageSummaries, (db.account? s.accountId).isSome
  linked : ∀ r ∈ db.inferenceRequests, ∃ q ∈ db.quotaReservations,
    q.id = r.reservationId ∧ q.requestId = r.id

/-! ### Operations of the quota interface -/

inductive Op
  | createKey (keyId : KeyId) (nickname : String) (role : Role) (accountId : AccountId)
      (accountNickname tokenPrefix : String) (limitTokens : ℤ) (unlimited : Bool)
  | updateQuota (keyId : KeyId) (limitTokens : ℤ) (unlimited : Bool)
  | resetUsage (keyId : KeyId) (now : Datetime)
  | reserveQuota (requestId : RequestId) (idempotencyHash : String) (principal : Principal)
      (modelId : ModelId) (estimatedTokens : ℤ) (reservationId : ReservationId) (ledgerId : String)
  | createInferenceRequest (requestId : RequestId) (principal : Principal) (modelId : ModelId)
      (reservationId : ReservationId) (estimatedTokens : ℤ)
  | markRequestAdmitted (requestId : RequestId) (workerId : WorkerId) (now : Datetime)
  | settleQuota (reservationId : ReservationId) (actualTokens : ℤ)
      (promptTokens completionTokens : Option ℤ) (errorCode : Option String) (ledgerId : String)
      (now : Datetime)
  | releaseReservation (reservationId : ReservationId) (errorCode ledgerId : String) (now : Datetime)
  | summarizeUsage (through : Cutoff) (now : Datetime)
  | recoverOrphanedState (uuid : ℕ → String) (now : Datetime)

/-- The request row is stored with a reservation of its own request. -/
def Op.linked (db : Database) : Op → Bool
  | .createInferenceRequest requestId _ _ reservationId _ =>
    (db.reservation? reservationId).all (·.requestId = requestId)
  | _ => true

/-- The database that the call leaves behind. -/
def run (db : Database) : Op → Database
  | .createKey k n r a an p l u => commit db (db.createKey k n r a an p l u)
  | .updateQuota k l u => commit db ((db.updateQuota k l u).map (·.1))
  | .resetUsage k now => commit db ((db.resetUsage k now).map (·.1))
  | .reserveQuota r h p m e rid lid => commit db ((db.reserveQuota r h p m e rid lid).map (·.1))
  | .createInferenceRequest r p m rid e => commit db (db.createInferenceRequest r p m rid e)
  | .markRequestAdmitted r w now => (db.markRequestAdmitted r w now).1
  | .settleQuota rid n p c e lid now => commit db (db.settleQuota rid n p c e lid now)
  | .releaseReservation rid e lid now => commit db (db.releaseReservation rid e lid now)
  | .summarizeUsage t now => commit db ((db.summarizeUsage t now).map (·.1))
  | .recoverOrphanedState uuid now => (db.recoverOrphanedState uuid now).1

def step (db : Database) (op : Op) : Option Database :=
  if op.linked db then some (db.run op) else none

/-- A database without rows, over a model catalog. -/
def fresh (models : List CatalogModel) : Database := { modelCatalog := models }

/-! ### What the calls are made of -/

section calls

variable {db db' : Database} {op : Op}

/-- What is kept whenever accounts, keys or the ledger are changed. -/
structure AccountInvariant (I : Database → Prop) : Prop where
  insert : ∀ d a, I d → I (d.insertAccountOrIgnore a)
  update : ∀ d d' id f, I d → (∀ a : QuotaAccount, (f a).id = a.id) → d.updateAccount id f = .ok d' → I d'
  audit : ∀ d keys ledger, I d → I { d with apiKeys := keys, quotaLedger := ledger }

/-- What the accounts, the keys and the ledger have no part in is kept. -/
theorem AccountInvariant.of_rows {I : Database → Prop}
    (h : ∀ d accounts keys ledger, I d →
      I { d with quotaAccounts := accounts, apiKeys := keys, quotaLedger := ledger }) : AccountInvariant I := by
  refine ⟨fun d a hd => ?_, fun d d' id f hd _ hok => ?_, fun d keys ledger hd => ?_⟩
  · unfold insertAccountOrIgnore
    split
    · exact hd
    · exact h d _ d.apiKeys d.quotaLedger hd
  · obtain ⟨-, rfl⟩ := updateAccount_ok.mp hok
    exact h d _ d.apiKeys d.quotaLedger hd
  · exact h d d.quotaAccounts keys ledger hd

/-- The call changes accounts and keys only. -/
def Op.onAccounts : Op → Bool
  | .createKey .. | .updateQuota .. | .resetUsage .. => true
  | _ => false

theorem AccountInvariant.run {I : Database → Prop} (hI : AccountInvariant I) (h : I db)
    (hop : op.onAccounts = true) : I (db.run op) := by
  cases op with
  | createKey k n r a an p l u =>
    refine commit_invariant h fun d hd => ?_
    obtain ⟨acct, db1, db2, -, -, -, rfl, h2, key, rfl⟩ := createKey_ok hd
    have h1 := hI.insert db acct h
    rcases h2 with rfl | h2
    · exact hI.audit _ _ _ h1
    · exact hI.audit _ _ _ (hI.update _ _ _ _ h1 (fun _ => by rfl) h2)
  | updateQuota k l u =>
    refine commit_invariant h fun d hd => ?_
    obtain ⟨⟨d', b⟩, hd', rfl⟩ := map_eq_ok hd
    rcases updateQuota_ok hd' with rfl | ⟨key, -, hup⟩
    · exact h
    · exact hI.update _ _ _ _ h (fun _ => by rfl) hup
  | resetUsage k now =>
    refine commit_invariant h fun d hd => ?_
    obtain ⟨⟨d', b⟩, hd', rfl⟩ := map_eq_ok hd
    rcases resetUsage_ok hd' with rfl | ⟨key, -, hup⟩
    · exact h
    · exact hI.update _ _ _ _ h (fun _ => by rfl) hup
  | _ => cases hop

/-- A reservation is there already, or it is inserted and paid for. -/
theorem AccountInvariant.reserve {I : Database → Prop} (hI : AccountInvariant I) (h : I db) {r : RequestId}
    {hash : String} {p : Principal} {m : ModelId} {e : ℤ} {rid : ReservationId} {lid : String}
    (hinsert : ∀ q d, q.id = rid → q.settledAt = none → db.insertReservation q = .ok d → I d) :
    I (db.run (.reserveQuota r hash p m e rid lid)) := by
  refine commit_invariant h fun d hd => ?_
  obtain ⟨⟨d', rid'⟩, hd', rfl⟩ := map_eq_ok hd
  rcases reserveQuota_ok hd' with ⟨q, -, -, -, -, rfl⟩ | ⟨-, account, db1, -, -, h1, hrest⟩
  · exact h
  · have h1 : I db1 := hinsert _ db1 rfl rfl h1
    rcases hrest with ⟨-, rfl⟩ | ⟨-, db2, h2, rfl⟩
    · exact h1
    · exact hI.audit _ _ _ (hI.update _ _ _ _ h1 (fun _ => by rfl) h2)

/-- A settlement refunds and closes its reservation, or it finds it closed. -/
theorem AccountInvariant.settle {I : Database → Prop} (hI : AccountInvariant I) (h : I db) {rid : ReservationId}
    {n : ℤ} {p c : Option ℤ} {e : Option String} {lid : String} {now : Datetime}
    (hclose : ∀ d charged, I d → I (d.closeReservation rid charged p c e now))
    (hok : db.settleQuota rid n p c e lid now = .ok db') : I db' := by
  rcases settleQuota_ok hok with ⟨rfl, -⟩ | ⟨q, db1, -, -, hrefund, rfl⟩
  · exact h
  · obtain ⟨db0, ledger, rfl, ⟨rfl, -⟩ | ⟨account, -, -, h0⟩⟩ := refundAccount_ok hrefund
    · exact hclose _ _ (hI.audit _ _ _ h)
    · exact hclose _ _ (hI.audit _ _ _ (hI.update _ _ _ _ h (fun _ => by rfl) h0))

/-- The call changes request rows only. -/
def Op.onRows : Op → Bool
  | .createInferenceRequest .. | .markRequestAdmitted .. => true
  | _ => false

theorem run_rows (db : Database) (op : Op) (hop : op.onRows = true) :
    ∃ rows, db.run op = { db with inferenceRequests := rows } := by
  cases op with
  | createInferenceRequest r p m rid e =>
    refine commit_invariant (I := fun d : Database => ∃ rows, d = { db with inferenceRequests := rows })
      ⟨db.inferenceRequests, rfl⟩ fun d hd => ?_
    unfold Database.createInferenceRequest at hd
    split at hd
    · cases hd
      exact ⟨_, rfl⟩
    · obtain ⟨-, hd⟩ := guard_eq_ok.mp hd
      cases hd
      exact ⟨_, rfl⟩
  | markRequestAdmitted r w now =>
    show ∃ rows, (db.markRequestAdmitted r w now).1 = { db with inferenceRequests := rows }
    unfold Database.markRequestAdmitted
    split
    · exact ⟨_, rfl⟩
    · exact ⟨_, rfl⟩
  | _ => cases hop

theorem rows_invariant {I : Database → Prop} (h : ∀ rows, I { db with inferenceRequests := rows })
    (hop : op.onRows = true) : I (db.run op) := by
  obtain ⟨rows, hrun⟩ := run_rows db op hop
  rw [hrun]
  exact h rows

/-- The time of a call that settles reservations and does nothing else. -/
def Op.settledAt : Op → Option Datetime
  | .settleQuota _ _ _ _ _ _ now | .releaseReservation _ _ _ now | .recoverOrphanedState _ now => some now
  | _ => none

/-- What each settlement at the time keeps, the call keeps. -/
theorem settle_invariant {I : Database → Prop} {now : Datetime} (h : I db)
    (hsettle : ∀ {d d' rid n p c e lid}, I d → d.settleQuota rid n p c e lid now = .ok d' → I d')
    (hop : op.settledAt = some now) : I (db.run op) := by
  cases op with
  | settleQuota rid n p c e lid now' =>
    cases hop
    exact commit_invariant h fun d hd => hsettle h hd
  | releaseReservation rid e lid now' =>
    cases hop
    exact commit_invariant h fun d hd => hsettle h hd
  | recoverOrphanedState uuid now' =>
    cases hop
    exact recover_invariant (fun _ _ _ _ _ hi hd => hsettle hi hd) h
  | _ => cases hop

theorem summarize_invariant {I : Database → Prop} {through : Cutoff} {now : Datetime} (h : I db)
    (hsummarize : ∀ {d report}, db.summarizeUsage through now = .ok (d, report) → I d) :
    I (db.run (.summarizeUsage through now)) := by
  refine commit_invariant h fun d hd => ?_
  obtain ⟨⟨d', report⟩, hd', rfl⟩ := map_eq_ok hd
  exact hsummarize hd'

end calls

/-! ### Rows and their accounts -/

variable {db db' : Database}

theorem account_isSome {id : AccountId} :
    (db.account? id).isSome ↔ ∃ a ∈ db.quotaAccounts, a.id = id := by
  constructor
  · intro h
    obtain ⟨a, ha⟩ := Option.isSome_iff_exists.mp h
    exact ⟨a, Table.lookup_some ha⟩
  · rintro ⟨a, ha, hid⟩
    by_contra h
    rw [Option.not_isSome_iff_eq_none] at h
    exact Table.lookup_none.mp h a ha hid

/-- Two request rows of one reservation have its request id, so they are one row. -/
theorem Wf.oneRequest (h : Wf db) : OneRequest db := by
  intro q hq
  have hsub : (db.inferenceRequests.filter (·.reservationId = q.id)).Sublist db.inferenceRequests :=
    List.filter_sublist
  have hid : ∀ r ∈ db.inferenceRequests.filter (·.reservationId = q.id), r.id = q.requestId := by
    intro r hr
    obtain ⟨hr, hrid⟩ := List.mem_filter.mp hr
    obtain ⟨q', hq', hid, hreq⟩ := h.linked r hr
    have hqq : q' = q := Table.eq_of_key h.reservationIds hq' hq (hid.trans (by simpa using hrid))
    rw [← hreq, hqq]
  have hn := h.requestIds.sublist (hsub.map (·.id))
  rcases hrows : db.inferenceRequests.filter (·.reservationId = q.id) with _ | ⟨r, _ | ⟨r', rest⟩⟩
  · rw [hrows]
    simp
  · rw [hrows]
    simp
  · rw [hrows] at hn hid
    have : r.id = r'.id := (hid r (by simp)).trans (hid r' (by simp)).symm
    simp [this] at hn

/-- A change of the accounts that keeps the ids and the constraints; keys and
ledger rows are free. -/
theorem Wf.accounts (h : Wf db) (hq : db'.quotaReservations = db.quotaReservations)
    (hr : db'.inferenceRequests = db.inferenceRequests) (hs : db'.usageSummaries = db.usageSummaries)
    (hids : (db'.quotaAccounts.map (·.id)).Nodup) (hchecks : ∀ a ∈ db'.quotaAccounts, a.checks = true)
    (howners : ∀ a ∈ db.quotaAccounts, ∃ b ∈ db'.quotaAccounts, b.id = a.id) : Wf db' := by
  have hsome : ∀ id, (db.account? id).isSome → (db'.account? id).isSome := by
    intro id hid
    obtain ⟨a, ha, rfl⟩ := account_isSome.mp hid
    exact account_isSome.mpr (howners a ha)
  refine ⟨hids, ?_, ?_, ?_, hchecks, ?_, ?_, ?_, ?_⟩
  · rw [hq]
    exact h.reservationIds
  · rw [hr]
    exact h.requestIds
  · rw [hs]
    exact h.summaryKeys
  · rw [hq]
    exact h.reservedNonneg
  · rw [hq]
    exact fun q hq => hsome _ (h.owners q hq)
  · rw [hs]
    exact fun s hs => hsome _ (h.summaryOwners s hs)
  · rw [hq, hr]
    exact h.linked

/-- Keys and ledger rows carry none of the facts. -/
theorem Wf.audit (h : Wf db) (keys : List ApiKey) (ledger : List LedgerRow) :
    Wf { db with apiKeys := keys, quotaLedger := ledger } :=
  h.accounts rfl rfl rfl h.accountIds h.checks fun a ha => ⟨a, ha, rfl⟩

theorem Wf.updateAccount (h : Wf db) {id : AccountId} {f : QuotaAccount → QuotaAccount}
    (hf : ∀ a, (f a).id = a.id) (hok : db.updateAccount id f = .ok db') : Wf db' := by
  obtain ⟨hchecks, rfl⟩ := updateAccount_ok.mp hok
  have hkeep : ∀ a : QuotaAccount, a.id = id → (f a).id = id := fun a ha => (hf a).trans ha
  refine h.accounts rfl rfl rfl ?_ ?_ ?_
  · simp only [@Table.map_key_modify _ _ _ QuotaAccount.id _ _ hkeep]
    exact h.accountIds
  · intro a ha
    rcases Table.mem_modify.mp ha with ⟨ha, -⟩ | ⟨b, hb, hid, rfl⟩
    · exact h.checks a ha
    · exact hchecks b hb hid
  · intro a ha
    by_cases hid : a.id = id
    · exact ⟨f a, Table.mem_modify.mpr (.inr ⟨a, ha, hid, rfl⟩), hf a⟩
    · exact ⟨a, Table.mem_modify.mpr (.inl ⟨ha, hid⟩), rfl⟩

/-- INSERT OR IGNORE adds a row with a new id that passes its checks, or
nothing. -/
theorem insertAccountOrIgnore_cases (db : Database) (a : QuotaAccount) :
    db.insertAccountOrIgnore a = db ∨
      ((∀ b ∈ db.quotaAccounts, b.id ≠ a.id) ∧ a.checks = true ∧
        db.insertAccountOrIgnore a = { db with quotaAccounts := db.quotaAccounts ++ [a] }) := by
  unfold insertAccountOrIgnore
  split
  · exact .inl rfl
  · rename_i h
    simp only [List.any_eq_true, decide_eq_true_eq, not_or, not_exists, not_and, not_not] at h
    exact .inr ⟨fun b hb => (h.1 b hb).1, h.2, rfl⟩

theorem Wf.insertAccount (h : Wf db) (a : QuotaAccount) : Wf (db.insertAccountOrIgnore a) := by
  rcases insertAccountOrIgnore_cases db a with heq | ⟨hnew, hchecks, heq⟩
  · rwa [heq]
  · rw [heq]
    refine h.accounts rfl rfl rfl ?_ ?_ fun b hb => ⟨b, List.mem_append_left _ hb, rfl⟩
    · simp only [List.map_append, List.map_cons, List.map_nil]
      refine List.Nodup.append h.accountIds (by simp) ?_
      simpa [List.disjoint_singleton] using fun b hb => hnew b hb
    · intro b hb
      rcases List.mem_append.mp hb with hb | hb
      · exact h.checks b hb
      · rwa [List.mem_singleton.mp hb]

/-! ### Reservations and request rows -/

theorem Wf.insertReservation (h : Wf db) {q : QuotaReservation}
    (hok : db.insertReservation q = .ok db') : Wf db' := by
  obtain ⟨hnew, hneg, hacct, rfl⟩ := insertReservation_ok hok
  refine ⟨h.accountIds, ?_, h.requestIds, h.summaryKeys, h.checks, ?_, ?_, h.summaryOwners, ?_⟩
  · simp only [List.map_append, List.map_cons, List.map_nil]
    refine List.Nodup.append h.reservationIds (by simp) ?_
    simpa [List.disjoint_singleton] using fun p hp => (hnew p hp).1
  · intro p hp
    rcases List.mem_append.mp hp with hp | hp
    · exact h.reservedNonneg p hp
    · rwa [List.mem_singleton.mp hp]
  · intro p hp
    rcases List.mem_append.mp hp with hp | hp
    · exact h.owners p hp
    · rwa [List.mem_singleton.mp hp]
  · intro r hr
    obtain ⟨p, hp, hlink⟩ := h.linked r hr
    exact ⟨p, List.mem_append_left _ hp, hlink⟩

/-- Reservations and request rows changed within their columns of identity. -/
theorem Wf.rows (h : Wf db) {rid : ReservationId} {id : RequestId}
    {f : QuotaReservation → QuotaReservation} {g : InferenceRequest → InferenceRequest}
    {col : InferenceRequest → String}
    (hf : ∀ q, (f q).id = q.id ∧ (f q).requestId = q.requestId ∧ (f q).accountId = q.accountId ∧
      (f q).reservedTokens = q.reservedTokens)
    (hg : ∀ r, (g r).id = r.id ∧ (g r).reservationId = r.reservationId) :
    Wf { db with
      quotaReservations := Table.modify QuotaReservation.id rid f db.quotaReservations
      inferenceRequests := Table.modify col id g db.inferenceRequests } := by
  have hfid := @Table.map_modify_of_eq _ _ _ QuotaReservation.id rid f _ (·.id) db.quotaReservations
    fun q _ _ => (hf q).1
  have hgid := @Table.map_modify_of_eq _ _ _ col id g _ (·.id) db.inferenceRequests
    fun r _ _ => (hg r).1
  refine ⟨h.accountIds, ?_, ?_, h.summaryKeys, h.checks, ?_, ?_, h.summaryOwners, ?_⟩
  · simp only [hfid]
    exact h.reservationIds
  · simp only [hgid]
    exact h.requestIds
  · intro q hq
    rcases Table.mem_modify.mp hq with ⟨hq, -⟩ | ⟨q0, hq0, -, rfl⟩
    · exact h.reservedNonneg q hq
    · rw [(hf q0).2.2.2]
      exact h.reservedNonneg q0 hq0
  · intro q hq
    rcases Table.mem_modify.mp hq with ⟨hq, -⟩ | ⟨q0, hq0, -, rfl⟩
    · exact h.owners q hq
    · rw [(hf q0).2.2.1]
      exact h.owners q0 hq0
  · intro r hr
    obtain ⟨r0, hr0, hid, hres⟩ : ∃ r0 ∈ db.inferenceRequests, r.id = r0.id ∧
        r.reservationId = r0.reservationId := by
      rcases Table.mem_modify.mp hr with ⟨hr, -⟩ | ⟨r0, hr0, -, rfl⟩
      · exact ⟨r, hr, rfl, rfl⟩
      · exact ⟨r0, hr0, hg r0⟩
    obtain ⟨q, hq, h1, h2⟩ := h.linked r0 hr0
    rw [hid, hres]
    by_cases hk : q.id = rid
    · exact ⟨f q, Table.mem_modify.mpr (.inr ⟨q, hq, hk, rfl⟩), by rw [(hf q).1, h1],
        by rw [(hf q).2.1, h2]⟩
    · exact ⟨q, Table.mem_modify.mpr (.inl ⟨hq, hk⟩), h1, h2⟩

theorem Wf.closeReservation (h : Wf db) (rid : ReservationId) (charged : ℤ) (p c : Option ℤ)
    (e : Option String) (now : Datetime) : Wf (db.closeReservation rid charged p c e now) :=
  h.rows (fun _ => ⟨rfl, rfl, rfl, rfl⟩) fun _ => ⟨rfl, rfl⟩

theorem wf_accounts : AccountInvariant Wf :=
  ⟨fun _ a h => h.insertAccount a, fun _ _ _ _ h hid hok => h.updateAccount hid hok,
    fun _ keys ledger h => h.audit keys ledger⟩

theorem Wf.settleQuota (h : Wf db) {rid : ReservationId} {n : ℤ} {p c : Option ℤ} {e : Option String}
    {lid : String} {now : Datetime} (hok : db.settleQuota rid n p c e lid now = .ok db') : Wf db' :=
  wf_accounts.settle h (fun _ charged hd => hd.closeReservation rid charged p c e now) hok

theorem Wf.markRequestAdmitted (h : Wf db) (id : RequestId) (w : WorkerId) (now : Datetime) :
    Wf (db.markRequestAdmitted id w now).1 := by
  unfold Database.markRequestAdmitted
  split
  · have := @Wf.rows db h "" id (fun q => q)
      (fun r => if r.state = .queued then
        { r with state := .admitted, workerId := some w, admittedAt := some now,
                 acceptedCount := r.acceptedCount + 1 } else r) InferenceRequest.id
      (fun _ => ⟨rfl, rfl, rfl, rfl⟩) (fun r => by split <;> exact ⟨rfl, rfl⟩)
    have hid : Table.modify QuotaReservation.id "" (fun q => q) db.quotaReservations =
        db.quotaReservations := by
      unfold Table.modify
      simp
    rwa [hid] at this
  · exact h

theorem Wf.createInferenceRequest (h : Wf db) {id : RequestId} {p : Principal} {m : ModelId}
    {rid : ReservationId} {e : ℤ} (hlink : (db.reservation? rid).all (·.requestId = id) = true)
    (hok : db.createInferenceRequest id p m rid e = .ok db') : Wf db' := by
  unfold Database.createInferenceRequest at hok
  split at hok
  · cases hok
    exact h
  · rename_i hnew
    obtain ⟨hrefs, hok⟩ := guard_eq_ok.mp hok
    cases hok
    simp only [not_or, Bool.not_eq_true, Option.isNone_eq_false_iff] at hrefs
    obtain ⟨q, hq⟩ := Option.isSome_iff_exists.mp hrefs.2.2.2
    refine ⟨h.accountIds, h.reservationIds, ?_, h.summaryKeys, h.checks, h.reservedNonneg, h.owners,
      h.summaryOwners, ?_⟩
    · simp only [List.map_append, List.map_cons, List.map_nil]
      refine List.Nodup.append h.requestIds (by simp) ?_
      simpa [List.disjoint_singleton] using hnew
    · intro r hr
      rcases List.mem_append.mp hr with hr | hr
      · exact h.linked r hr
      · obtain ⟨hmem, hid⟩ := Table.lookup_some hq
        rw [List.mem_singleton.mp hr]
        exact ⟨q, hmem, hid, by simpa [hq] using hlink⟩

/-! ### Summaries -/

/-- A group has the account, the key and the model of one of its reservations. -/
theorem mem_summaryRows {cutoff : Datetime} {s : UsageSummary} (h : s ∈ db.summaryRows cutoff) :
    ∃ q ∈ db.quotaReservations, eligible cutoff q = true ∧
      s.key = (.total, q.accountId, q.keyId, q.modelId) := by
  unfold summaryRows at h
  obtain ⟨k, hk, rfl⟩ := List.mem_map.mp h
  obtain ⟨row, hrow, rfl⟩ := Table.mem_groups.mp hk
  obtain ⟨q, hq, hrow⟩ := List.mem_flatMap.mp hrow
  obtain ⟨hq, helig⟩ := List.mem_filter.mp hq
  rw [← fst_of_mem_joinRequests hrow] at hq helig
  exact ⟨row.1, hq, helig, rfl⟩

/-- A summary row after an accepted summary has the key of an older one, or that
of a group. -/
theorem mem_summaries {cutoff : Datetime} {summaries : List UsageSummary} {s : UsageSummary}
    (hfold : (db.summaryRows cutoff).foldlM upsertSummary (db.usageSummaries.filter (·.window ≠ .current)) =
      .ok summaries) (hs : s ∈ summaries) :
    (∃ r ∈ db.usageSummaries, r.key = s.key) ∨
      ∃ q ∈ db.quotaReservations, eligible cutoff q = true ∧
        s.key = (.total, q.accountId, q.keyId, q.modelId) := by
  rcases (foldlM_upsert_key hfold s.key).mp (List.mem_map_of_mem hs) with hk | hk
  · obtain ⟨r, hr, hk⟩ := List.mem_map.mp hk
    exact .inl ⟨r, List.mem_of_mem_filter hr, hk⟩
  · obtain ⟨r, hr, hk⟩ := List.mem_map.mp hk
    rw [← hk]
    exact .inr (mem_summaryRows hr)

theorem Wf.summarizeUsage (h : Wf db) {through : Cutoff} {now : Datetime} {report : SummaryReport}
    (hok : db.summarizeUsage through now = .ok (db', report)) : Wf db' := by
  obtain ⟨cutoff, summaries, start, -, -, hfold, rfl⟩ := summarizeUsage_ok hok
  have hkept : ((db.usageSummaries.filter (·.window ≠ .current)).map UsageSummary.key).Nodup :=
    h.summaryKeys.sublist (List.filter_sublist.map _)
  refine ⟨h.accountIds, h.reservationIds.sublist (List.filter_sublist.map _),
    h.requestIds.sublist (List.filter_sublist.map _),
    foldlM_upsert_nodup hfold hkept, h.checks, ?_, ?_, ?_, ?_⟩
  · exact fun q hq => h.reservedNonneg q (List.mem_of_mem_filter hq)
  · exact fun q hq => h.owners q (List.mem_of_mem_filter hq)
  · intro s hs
    rcases mem_summaries hfold hs with ⟨r, hr, hk⟩ | ⟨q, hq, -, hk⟩
    · simp only [UsageSummary.key, Prod.mk.injEq] at hk
      rw [← hk.2.1]
      exact h.summaryOwners r hr
    · simp only [UsageSummary.key, Prod.mk.injEq] at hk
      rw [hk.2.1]
      exact h.owners q hq
  · intro r hr
    obtain ⟨hr, hkeep⟩ := List.mem_filter.mp hr
    obtain ⟨q, hq, hid, hreq⟩ := h.linked r hr
    refine ⟨q, List.mem_filter.mpr ⟨hq, ?_⟩, hid, hreq⟩
    by_contra helig
    simp only [decide_not, Bool.not_eq_true', Bool.decide_eq_true] at helig
    have : r.reservationId ∈ db.eligibleIds cutoff :=
      List.mem_map.mpr ⟨q, List.mem_filter.mpr ⟨hq, by simpa using helig⟩, hid⟩
    simp [this] at hkeep

/-! ### The invariant over runs -/

theorem wf_fresh (models : List CatalogModel) : Wf (fresh models) := by
  constructor <;> simp [fresh]

theorem wf_step {op : Op} (h : Wf db) (hs : step db op = some db') : Wf db' := by
  unfold step at hs
  split at hs
  · rename_i hlink
    cases hs
    cases op with
    | createKey | updateQuota | resetUsage => exact wf_accounts.run h rfl
    | reserveQuota => exact wf_accounts.reserve h fun q d _ _ hok => h.insertReservation hok
    | createInferenceRequest r p m rid e =>
      exact commit_invariant h fun d hd => h.createInferenceRequest hlink hd
    | markRequestAdmitted r w now => exact h.markRequestAdmitted r w now
    | settleQuota | releaseReservation | recoverOrphanedState =>
      exact settle_invariant h (fun hd hok => hd.settleQuota hok) rfl
    | summarizeUsage => exact summarize_invariant h h.summarizeUsage
  · cases hs

end Database
end LlmRio
