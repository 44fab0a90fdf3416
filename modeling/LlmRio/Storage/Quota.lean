/-
# Keys, quota and request rows

The transactions of `Database` that move quota: `create_key`, `update_quota`,
`reset_usage`, `reserve_quota`, `settle_quota`, `release_reservation`, the
request rows (`create_inference_request`, `mark_request_admitted`,
`admitted_request_ids`) and `recover_orphaned_state`.

A transaction returns the database it commits, or the error it raises after
it has rolled back; the constraints of the schema (PRIMARY KEY, UNIQUE,
CHECK, REFERENCES) are tested where SQLite tests them. A fresh `uuid4` and
the time of `_now` are arguments.

Key definitions: `createKey`, `updateQuota`, `resetUsage`, `reserveQuota`,
`settleQuota`, `releaseReservation`, `recoverOrphanedState`.
Key theorems: `createKey_ok`, `reserveQuota_ok`, `settleQuota_ok`,
`updateQuota_ok`, `resetUsage_ok`, `recover_invariant`.
-/
import LlmRio.Lib.Transactions
import LlmRio.Storage.Schema

namespace LlmRio

open Transactions

/-- The part of an authenticated `Principal` that the database reads. -/
structure Principal where
  keyId : KeyId
  quotaAccountId : AccountId
deriving DecidableEq, Repr

namespace Database

/-- `UPDATE quota_accounts SET .. WHERE id = ?`, with its CHECK constraints. -/
def updateAccount (db : Database) (id : AccountId) (f : QuotaAccount → QuotaAccount) :
    Except StorageError Database :=
  if db.quotaAccounts.all fun a => a.id = id → (f a).checks then
    .ok { db with quotaAccounts := Table.modify QuotaAccount.id id f db.quotaAccounts }
  else .error .integrityError

/-- The row clashes with the primary key or with UNIQUE (reservation_id,
reason) of `quota_ledger`. -/
def ledgerClash (db : Database) (row : LedgerRow) : Bool :=
  db.quotaLedger.any fun l =>
    l.id = row.id ∨ (l.reservationId = row.reservationId ∧ l.reason = row.reason)

def insertLedger (db : Database) (row : LedgerRow) : Except StorageError Database :=
  if db.ledgerClash row then .error .integrityError
  else .ok { db with quotaLedger := db.quotaLedger ++ [row] }

def insertLedgerOrIgnore (db : Database) (row : LedgerRow) : Database :=
  if db.ledgerClash row then db else { db with quotaLedger := db.quotaLedger ++ [row] }

/-! ### Keys and accounts -/

/-- `INSERT OR IGNORE INTO quota_accounts`: a taken id or nickname, or a
negative limit, leaves the table as it is. -/
def insertAccountOrIgnore (db : Database) (a : QuotaAccount) : Database :=
  if db.quotaAccounts.any (fun b => b.id = a.id ∨ b.nickname = a.nickname) ∨ ¬ a.checks then db
  else { db with quotaAccounts := db.quotaAccounts ++ [a] }

def insertKey (db : Database) (k : ApiKey) : Except StorageError Database :=
  if db.apiKeys.any (fun j => j.id = k.id ∨ j.nickname = k.nickname ∨ j.tokenPrefix = k.tokenPrefix) ∨
      (db.account? k.quotaAccountId).isNone then
    .error .integrityError
  else .ok { db with apiKeys := db.apiKeys ++ [k] }

/-- The account of an administrator's key is unlimited. -/
def unlimitedIfAdmin (db : Database) (role : Role) (accountId : AccountId) :
    Except StorageError Database :=
  if role = .admin then db.updateAccount accountId fun a => { a with unlimited := true } else .ok db

def createKey (db : Database) (keyId : KeyId) (nickname : String) (role : Role) (accountId : AccountId)
    (accountNickname tokenPrefix : String) (limitTokens : ℤ) (unlimited : Bool) :
    Except StorageError Database := do
  let unlimited : Bool := role = .admin ∨ unlimited
  let db := db.insertAccountOrIgnore
    { id := accountId, nickname := accountNickname, balanceTokens := limitTokens,
      limitTokens := limitTokens, unlimited := unlimited }
  let db ← db.unlimitedIfAdmin role accountId
  db.insertKey
    { id := keyId, nickname := nickname, role := role, quotaAccountId := accountId,
      tokenPrefix := tokenPrefix }

/-- `update_quota`; the flag is False when there is no such key. -/
def updateQuota (db : Database) (keyId : KeyId) (limitTokens : ℤ) (unlimited : Bool) :
    Except StorageError (Database × Bool) :=
  match db.key? keyId with
  | none => .ok (db, false)
  | some key =>
    if key.role = .admin ∧ ¬ unlimited then .error .invalidQuota
    else do
      let baseline := (db.account? key.quotaAccountId).elim 0 (·.usageBaselineTokens)
      let usedTokens := max 0 (db.lifetimeCharged key.quotaAccountId - baseline)
      let remainingTokens := max 0 (limitTokens - usedTokens)
      let db ← db.updateAccount key.quotaAccountId fun a =>
        { a with balanceTokens := remainingTokens, limitTokens := limitTokens, unlimited := unlimited }
      pure (db, true)

/-- What `reset_usage` returns for the key's account. -/
structure ResetUsage where
  quotaAccountId : AccountId
  limitTokens : ℤ
  balanceTokens : ℤ
  unlimited : Bool
  usedTokens : ℤ
  usageResetAt : Datetime
deriving DecidableEq, Repr

def resetUsage (db : Database) (keyId : KeyId) (now : Datetime) :
    Except StorageError (Database × Option ResetUsage) :=
  match db.key? keyId with
  | none => .ok (db, none)
  | some key =>
    match db.account? key.quotaAccountId with
    | none => .ok (db, none)
    | some account => do
      let charged := db.lifetimeCharged key.quotaAccountId
      let db ← db.updateAccount key.quotaAccountId fun a =>
        { a with balanceTokens := a.limitTokens, usageBaselineTokens := charged, usageResetAt := some now }
      pure (db, some ⟨key.quotaAccountId, account.limitTokens, account.limitTokens, account.unlimited, 0, now⟩)

/-! ### Reservations -/

def insertReservation (db : Database) (q : QuotaReservation) : Except StorageError Database :=
  if db.quotaReservations.any (fun p => p.id = q.id ∨ p.requestId = q.requestId ∨
        (p.keyId = q.keyId ∧ p.idempotencyHash = q.idempotencyHash)) ∨
      q.reservedTokens < 0 ∨ (db.account? q.accountId).isNone ∨ (db.key? q.keyId).isNone ∨
      ¬ db.hasModel q.modelId then
    .error .integrityError
  else .ok { db with quotaReservations := db.quotaReservations ++ [q] }

/-- The reservation of the key under an idempotency hash. -/
def reservationByHash (db : Database) (keyId : KeyId) (idempotencyHash : String) :
    Option QuotaReservation :=
  db.quotaReservations.find? fun q => q.keyId = keyId ∧ q.idempotencyHash = idempotencyHash

def reserveQuota (db : Database) (requestId : RequestId) (idempotencyHash : String)
    (principal : Principal) (modelId : ModelId) (estimatedTokens : ℤ)
    (reservationId : ReservationId) (ledgerId : String) :
    Except StorageError (Database × ReservationId) :=
  match db.reservationByHash principal.keyId idempotencyHash with
  | some existing =>
    if existing.requestId ≠ requestId then .error .idempotencyConflict
    else .ok (db, existing.id)
  | none =>
    match db.account? principal.quotaAccountId with
    | none => .error .quotaAccountMissing
    | some account =>
      if ¬ account.unlimited ∧ account.balanceTokens < estimatedTokens then
        .error (.quotaExceeded account.balanceTokens estimatedTokens)
      else do
        let db ← db.insertReservation
          { id := reservationId, requestId := requestId, idempotencyHash := idempotencyHash,
            accountId := principal.quotaAccountId, keyId := principal.keyId, modelId := modelId,
            reservedTokens := estimatedTokens }
        if account.unlimited then pure (db, reservationId)
        else
          let db ← db.updateAccount principal.quotaAccountId fun a =>
            { a with balanceTokens := a.balanceTokens - estimatedTokens }
          let db ← db.insertLedger
            ⟨ledgerId, principal.quotaAccountId, reservationId, -estimatedTokens, "reservation"⟩
          pure (db, reservationId)

/-- The refund of a settlement: the balance of a limited account, and the
ledger row. -/
def refundAccount (db : Database) (accountId : AccountId) (reservationId : ReservationId) (refund : ℤ)
    (ledgerId : String) : Except StorageError Database :=
  match db.account? accountId with
  | none => .ok db
  | some account =>
    if ¬ account.unlimited ∧ refund ≠ 0 then do
      let db ← db.updateAccount accountId fun a => { a with balanceTokens := a.balanceTokens + refund }
      pure (db.insertLedgerOrIgnore ⟨ledgerId, accountId, reservationId, refund, "settlement_refund"⟩)
    else .ok db

/-- `error_code` is given and not the empty string. -/
def failedWith (errorCode : Option String) : Bool := errorCode.any (· ≠ "")

/-- The two UPDATE statements that close a reservation and its request rows. -/
def closeReservation (db : Database) (reservationId : ReservationId) (charged : ℤ)
    (promptTokens completionTokens : Option ℤ) (errorCode : Option String) (now : Datetime) : Database :=
  { db with
    quotaReservations := Table.modify QuotaReservation.id reservationId
      (fun q => { q with actualTokens := some charged, state := .settled, settledAt := some now })
      db.quotaReservations
    inferenceRequests := Table.modify InferenceRequest.reservationId reservationId
      (fun r =>
        { r with
          state := if failedWith errorCode then .failed else .completed
          actualPromptTokens := promptTokens
          actualCompletionTokens := completionTokens
          errorCode := errorCode
          completedAt := some now
          completionCount := r.completionCount + 1 })
      db.inferenceRequests }

def settleQuota (db : Database) (reservationId : ReservationId) (actualTokens : ℤ)
    (promptTokens completionTokens : Option ℤ) (errorCode : Option String)
    (ledgerId : String) (now : Datetime) : Except StorageError Database :=
  match db.reservation? reservationId with
  | none => .ok db
  | some reservation =>
    if reservation.state ≠ .reserved then .ok db
    else do
      let charged := min (max 0 actualTokens) reservation.reservedTokens
      let refund := reservation.reservedTokens - charged
      let db ← db.refundAccount reservation.accountId reservationId refund ledgerId
      pure (db.closeReservation reservationId charged promptTokens completionTokens errorCode now)

def releaseReservation (db : Database) (reservationId : ReservationId) (errorCode : String)
    (ledgerId : String) (now : Datetime) : Except StorageError Database :=
  db.settleQuota reservationId 0 none none (some errorCode) ledgerId now

/-! ### Request rows -/

/-- `create_inference_request`: INSERT OR IGNORE does nothing for a known id,
and still raises on a missing reference. -/
def createInferenceRequest (db : Database) (requestId : RequestId) (principal : Principal)
    (modelId : ModelId) (reservationId : ReservationId) (estimatedTokens : ℤ) :
    Except StorageError Database :=
  if db.inferenceRequests.any (·.id = requestId) then .ok db
  else if (db.key? principal.keyId).isNone ∨ (db.account? principal.quotaAccountId).isNone ∨
      ¬ db.hasModel modelId ∨ (db.reservation? reservationId).isNone then
    .error .integrityError
  else
    .ok { db with
      inferenceRequests := db.inferenceRequests ++
        [{ id := requestId, keyId := principal.keyId, accountId := principal.quotaAccountId,
           modelId := modelId, reservationId := reservationId, estimatedTokens := estimatedTokens }] }

/-- `mark_request_admitted`; the flag is `cursor.rowcount == 1`. -/
def markRequestAdmitted (db : Database) (requestId : RequestId) (workerId : WorkerId) (now : Datetime) :
    Database × Bool :=
  if db.inferenceRequests.any fun r => r.id = requestId ∧ r.state = .queued then
    ({ db with
      inferenceRequests := Table.modify InferenceRequest.id requestId
        (fun r => if r.state = .queued then
            { r with
              state := .admitted
              workerId := some workerId
              admittedAt := some now
              acceptedCount := r.acceptedCount + 1 }
          else r)
        db.inferenceRequests }, true)
  else (db, false)

def admittedRequestIds (db : Database) : List RequestId :=
  (db.inferenceRequests.filter (·.state = .admitted)).map (·.id)

/-! ### Recovery -/

/-- The loop of `recover_orphaned_state`: one transaction per reservation; an
error ends it, with what it has committed. -/
def releaseAll (uuid : ℕ → String) (now : Datetime) :
    List (ReservationId × ℕ) → Database → Database × Option StorageError
  | [], db => (db, none)
  | (id, i) :: ids, db =>
    match db.releaseReservation id "service_restarted" (uuid i) now with
    | .ok db' => releaseAll uuid now ids db'
    | .error e => (db, some e)

/-- The quota part of `recover_orphaned_state`. -/
def recoverOrphanedState (db : Database) (uuid : ℕ → String) (now : Datetime) :
    Database × Option StorageError :=
  releaseAll uuid now ((db.quotaReservations.filter (·.state = .reserved)).map (·.id)).zipIdx db

/-! ### What each transaction commits -/

variable {db db' : Database}

theorem updateAccount_ok {id : AccountId} {f : QuotaAccount → QuotaAccount} :
    db.updateAccount id f = .ok db' ↔
      (∀ a ∈ db.quotaAccounts, a.id = id → (f a).checks = true) ∧
        { db with quotaAccounts := Table.modify QuotaAccount.id id f db.quotaAccounts } = db' := by
  unfold updateAccount
  rw [guard_eq_ok']
  simp [imp_iff_not_or]

/-- `create_key` adds the key's row, and what it does to the accounts is
INSERT OR IGNORE and, for an administrator, `unlimited = 1`. -/
theorem createKey_ok {keyId : KeyId} {nickname : String} {role : Role} {accountId : AccountId}
    {accountNickname tokenPrefix : String} {limitTokens : ℤ} {unlimited : Bool}
    (h : db.createKey keyId nickname role accountId accountNickname tokenPrefix limitTokens unlimited =
      .ok db') :
    ∃ acct db1 db2, acct.id = accountId ∧ acct.balanceTokens = acct.limitTokens ∧
      acct.usageBaselineTokens = 0 ∧
      db1 = db.insertAccountOrIgnore acct ∧
      (db2 = db1 ∨ db1.updateAccount accountId (fun a => { a with unlimited := true }) = .ok db2) ∧
      ∃ key, db' = { db2 with apiKeys := db2.apiKeys ++ [key] } := by
  unfold createKey at h
  obtain ⟨db2, h2, h⟩ := bind_eq_ok.mp h
  refine ⟨
    { id := accountId, nickname := accountNickname, balanceTokens := limitTokens,
      limitTokens := limitTokens, unlimited := role = .admin ∨ unlimited },
    _, db2, rfl, rfl, rfl, rfl, ?_, ?_⟩
  · unfold unlimitedIfAdmin at h2
    split at h2
    · exact .inr h2
    · cases h2
      exact .inl rfl
  · unfold insertKey at h
    obtain ⟨-, h⟩ := guard_eq_ok.mp h
    cases h
    exact ⟨_, rfl⟩

theorem updateQuota_ok {keyId : KeyId} {limitTokens : ℤ} {unlimited b : Bool}
    (h : db.updateQuota keyId limitTokens unlimited = .ok (db', b)) :
    db' = db ∨ ∃ key, db.key? keyId = some key ∧
      db.updateAccount key.quotaAccountId (fun a =>
        { a with
          balanceTokens := max 0 (limitTokens - max 0 (db.lifetimeCharged key.quotaAccountId -
            (db.account? key.quotaAccountId).elim 0 (·.usageBaselineTokens)))
          limitTokens := limitTokens
          unlimited := unlimited }) = .ok db' := by
  unfold updateQuota at h
  split at h
  · cases h
    exact .inl rfl
  · rename_i key hkey
    obtain ⟨-, h⟩ := guard_eq_ok.mp h
    obtain ⟨db1, h1, h⟩ := bind_eq_ok.mp h
    cases pure_eq_ok.mp h
    exact .inr ⟨key, hkey, h1⟩

theorem resetUsage_ok {keyId : KeyId} {now : Datetime} {r : Option ResetUsage}
    (h : db.resetUsage keyId now = .ok (db', r)) :
    db' = db ∨ ∃ key, db.key? keyId = some key ∧
      db.updateAccount key.quotaAccountId (fun a =>
        { a with
          balanceTokens := a.limitTokens
          usageBaselineTokens := db.lifetimeCharged key.quotaAccountId
          usageResetAt := some now }) = .ok db' := by
  unfold resetUsage at h
  split at h
  · cases h
    exact .inl rfl
  · rename_i key hkey
    split at h
    · cases h
      exact .inl rfl
    · obtain ⟨db1, h1, h⟩ := bind_eq_ok.mp h
      cases pure_eq_ok.mp h
      exact .inr ⟨key, hkey, h1⟩

theorem insertReservation_ok {q : QuotaReservation} (h : db.insertReservation q = .ok db') :
    (∀ p ∈ db.quotaReservations, p.id ≠ q.id ∧ p.requestId ≠ q.requestId) ∧ 0 ≤ q.reservedTokens ∧
      (db.account? q.accountId).isSome ∧
      db' = { db with quotaReservations := db.quotaReservations ++ [q] } := by
  unfold insertReservation at h
  obtain ⟨hg, h⟩ := guard_eq_ok.mp h
  cases h
  simp only [List.any_eq_true, decide_eq_true_eq, not_or, not_exists, not_and] at hg
  obtain ⟨hclash, hneg, hacct, -⟩ := hg
  refine ⟨fun p hp => ?_, by omega, by simpa [Option.isSome_iff_ne_none] using hacct, rfl⟩
  have := hclash p hp
  exact ⟨this.1, this.2.1⟩

/-- `reserve_quota` returns the reservation that exists, and then changes
nothing, or inserts one and takes its tokens from a limited balance. -/
theorem reserveQuota_ok {requestId : RequestId} {idempotencyHash : String} {principal : Principal}
    {modelId : ModelId} {estimatedTokens : ℤ} {reservationId rid : ReservationId} {ledgerId : String}
    (h : db.reserveQuota requestId idempotencyHash principal modelId estimatedTokens reservationId
      ledgerId = .ok (db', rid)) :
    (∃ q ∈ db.quotaReservations, q.id = rid ∧ q.requestId = requestId ∧ q.keyId = principal.keyId ∧
      db' = db) ∨
    (rid = reservationId ∧ ∃ account db1,
      db.account? principal.quotaAccountId = some account ∧
      (account.unlimited = false → estimatedTokens ≤ account.balanceTokens) ∧
      db.insertReservation
        { id := reservationId, requestId := requestId, idempotencyHash := idempotencyHash,
          accountId := principal.quotaAccountId, keyId := principal.keyId, modelId := modelId,
          reservedTokens := estimatedTokens } = .ok db1 ∧
      ((account.unlimited = true ∧ db' = db1) ∨
        (account.unlimited = false ∧ ∃ db2,
          db1.updateAccount principal.quotaAccountId (fun a =>
            { a with balanceTokens := a.balanceTokens - estimatedTokens }) = .ok db2 ∧
          db' = { db2 with
            quotaLedger := db2.quotaLedger ++
              [⟨ledgerId, principal.quotaAccountId, reservationId, -estimatedTokens, "reservation"⟩] }))) := by
  unfold reserveQuota at h
  split at h
  · rename_i existing hex
    obtain ⟨hid, h⟩ := guard_eq_ok.mp h
    cases h
    have hp := List.find?_some hex
    simp only [decide_eq_true_eq] at hp
    exact .inl ⟨existing, List.mem_of_find?_eq_some hex, rfl, not_not.mp hid, hp.1, rfl⟩
  · split at h
    · cases h
    · rename_i account hacct
      obtain ⟨hbal, h⟩ := guard_eq_ok.mp h
      obtain ⟨db1, h1, h⟩ := bind_eq_ok.mp h
      have hle : account.unlimited = false → estimatedTokens ≤ account.balanceTokens := by
        intro hu
        simp only [hu, Bool.false_eq_true, not_false_eq_true, true_and] at hbal
        omega
      split at h
      · rename_i hu
        cases pure_eq_ok.mp h
        exact .inr ⟨rfl, account, _, hacct, hle, h1, .inl ⟨hu, rfl⟩⟩
      · rename_i hu
        obtain ⟨db2, h2, h⟩ := bind_eq_ok.mp h
        obtain ⟨db3, h3, h⟩ := bind_eq_ok.mp h
        cases pure_eq_ok.mp h
        unfold insertLedger at h3
        obtain ⟨-, h3⟩ := guard_eq_ok.mp h3
        cases h3
        exact .inr ⟨rfl, account, db1, hacct, hle, h1, .inr ⟨by simpa using hu, db2, h2, rfl⟩⟩

/-- The refund changes the balance of a limited account, and adds at most a
ledger row. -/
theorem refundAccount_ok {a : AccountId} {rid : ReservationId} {refund : ℤ} {ledgerId : String}
    (h : db.refundAccount a rid refund ledgerId = .ok db') :
    ∃ db1 ledger, db' = { db1 with quotaLedger := ledger } ∧
      ((db1 = db ∧ ∀ account, db.account? a = some account → account.unlimited = true ∨ refund = 0) ∨
        ∃ account, db.account? a = some account ∧ account.unlimited = false ∧
          db.updateAccount a (fun a => { a with balanceTokens := a.balanceTokens + refund }) = .ok db1) := by
  unfold refundAccount at h
  split at h
  · rename_i hnone
    cases h
    exact ⟨db, db.quotaLedger, rfl, .inl ⟨rfl, by simp [hnone]⟩⟩
  · rename_i account hacct
    split at h
    · rename_i hu
      obtain ⟨db1, h1, h⟩ := bind_eq_ok.mp h
      have h' := pure_eq_ok.mp h
      refine ⟨db1, db'.quotaLedger, ?_, .inr ⟨account, hacct, by simpa using hu.1, h1⟩⟩
      subst h'
      unfold insertLedgerOrIgnore
      split <;> rfl
    · rename_i hu
      cases h
      refine ⟨db, db.quotaLedger, rfl, .inl ⟨rfl, fun account' h' => ?_⟩⟩
      rw [hacct] at h'
      cases h'
      by_cases hl : account.unlimited = true
      · exact .inl hl
      · exact .inr (by simpa [hl] using hu)

/-- The refund is credited and written to the ledger, or the account and the
ledger are left as they are. -/
theorem refundAccount_ledger {a : AccountId} {rid : ReservationId} {refund : ℤ} {ledgerId : String}
    (h : db.refundAccount a rid refund ledgerId = .ok db') :
    (db' = db ∧ ∀ account, db.account? a = some account → account.unlimited = true ∨ refund = 0) ∨
    ((∃ account, db.account? a = some account ∧ account.unlimited = false) ∧ refund ≠ 0 ∧
      db'.quotaReservations = db.quotaReservations ∧
      db'.quotaLedger =
        (db.insertLedgerOrIgnore ⟨ledgerId, a, rid, refund, "settlement_refund"⟩).quotaLedger) := by
  unfold refundAccount at h
  split at h
  · rename_i hnone
    cases h
    exact .inl ⟨rfl, by simp [hnone]⟩
  · rename_i account hacct
    split at h
    · rename_i hu
      obtain ⟨db1, h1, h⟩ := bind_eq_ok.mp h
      rw [← (updateAccount_ok.mp h1).2] at h
      rw [← pure_eq_ok.mp h]
      refine .inr ⟨⟨account, hacct, by simpa using hu.1⟩, hu.2, ?_⟩
      unfold insertLedgerOrIgnore ledgerClash
      constructor
      · split <;> rfl
      · split <;> rfl
    · rename_i hu
      cases h
      refine .inl ⟨rfl, fun account' h' => ?_⟩
      obtain rfl : account = account' := Option.some.inj (hacct.symm.trans h')
      by_cases hl : account.unlimited = true
      · exact .inl hl
      · exact .inr (by simpa [hl] using hu)

/-- Only a RESERVED reservation is settled: its account gets the refund, and
the reservation and its request rows are closed. -/
theorem settleQuota_ok {rid : ReservationId} {actualTokens : ℤ} {prompt completion : Option ℤ}
    {errorCode : Option String} {ledgerId : String} {now : Datetime}
    (h : db.settleQuota rid actualTokens prompt completion errorCode ledgerId now = .ok db') :
    (db' = db ∧ ∀ q, db.reservation? rid = some q → q.state ≠ .reserved) ∨
    ∃ q db1, db.reservation? rid = some q ∧ q.state = .reserved ∧
      db.refundAccount q.accountId rid (q.reservedTokens - min (max 0 actualTokens) q.reservedTokens)
        ledgerId = .ok db1 ∧
      db' = db1.closeReservation rid (min (max 0 actualTokens) q.reservedTokens) prompt completion
        errorCode now := by
  unfold settleQuota at h
  split at h
  · rename_i hnone
    cases h
    exact .inl ⟨rfl, by simp [hnone]⟩
  · rename_i q hq
    split at h
    · rename_i hs
      cases h
      refine .inl ⟨rfl, fun q' h' => ?_⟩
      rw [hq] at h'
      cases h'
      exact hs
    · rename_i hs
      obtain ⟨db1, h1, h⟩ := bind_eq_ok.mp h
      exact .inr ⟨q, db1, hq, not_not.mp hs, h1, (pure_eq_ok.mp h).symm⟩

/-- Recovery is a run of releases at one time: it keeps what each of them keeps. -/
theorem releaseAll_invariant {I : Database → Prop} {now : Datetime}
    (hrel : ∀ db db' rid code lid, I db → db.releaseReservation rid code lid now = .ok db' → I db')
    (uuid : ℕ → String) : ∀ (ids : List (ReservationId × ℕ)) (db : Database), I db →
      I (releaseAll uuid now ids db).1
  | [], _, hi => hi
  | (id, i) :: ids, db, hi => by
    unfold releaseAll
    split
    · rename_i db1 h1
      exact releaseAll_invariant hrel uuid ids db1 (hrel _ _ _ _ _ hi h1)
    · exact hi

theorem recover_invariant {I : Database → Prop} {now : Datetime}
    (hrel : ∀ db db' rid code lid, I db → db.releaseReservation rid code lid now = .ok db' → I db')
    {uuid : ℕ → String} (hi : I db) : I (db.recoverOrphanedState uuid now).1 :=
  releaseAll_invariant hrel uuid _ db hi

end Database
end LlmRio
