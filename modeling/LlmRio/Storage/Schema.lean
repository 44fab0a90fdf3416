/-
# The tables of `storage.py`

One structure per table of `SCHEMA`, with the columns that the modelled
statements read or write, and `Database` as the record of all tables. A table
is the list of its rows in insertion order. Token counts are integers, a
stored timestamp is its instant (the isoformat strings of UTC instants are
compared as the instants are), and a row's audit columns (`created_at`, the
secret columns of a key, the labels of a test run) are left out.

The view `account_lifetime_usage` is computed as the schema computes it: the
settled reservations still in the table, and the 'total' rows of
`usage_summaries`.

Key definitions: `Database`, `accountLifetimeUsage`, `StorageError`.
-/
import LlmRio.Lib.Table
import LlmRio.Domain

namespace LlmRio

abbrev AccountId := String
abbrev KeyId := String
abbrev ReservationId := String

inductive CatalogState
  | requested | downloading | validationPending | validating | available | needsAdminReview | disabled
deriving DecidableEq, Repr

inductive ReservationState | reserved | settled | released
deriving DecidableEq, Repr

inductive RequestState | queued | admitted | completed | failed
deriving DecidableEq, Repr

inductive SummaryWindow | current | total
deriving DecidableEq, Repr

structure QuotaAccount where
  id : AccountId
  nickname : String
  balanceTokens : ℤ
  limitTokens : ℤ
  usageBaselineTokens : ℤ := 0
  usageResetAt : Option Datetime := none
  unlimited : Bool
deriving DecidableEq, Repr

/-- The CHECK constraints of `quota_accounts`. -/
def QuotaAccount.checks (a : QuotaAccount) : Bool := 0 ≤ a.balanceTokens ∧ 0 ≤ a.limitTokens

structure ApiKey where
  id : KeyId
  nickname : String
  role : Role
  quotaAccountId : AccountId
  tokenPrefix : String
  active : Bool := true
deriving DecidableEq, Repr

structure CatalogModel where
  id : ModelId
  nickname : String
  state : CatalogState
  artifactPath : Option String := none
deriving DecidableEq, Repr

structure QuotaReservation where
  id : ReservationId
  requestId : RequestId
  idempotencyHash : String
  accountId : AccountId
  keyId : KeyId
  modelId : ModelId
  reservedTokens : ℤ
  actualTokens : Option ℤ := none
  state : ReservationState := .reserved
  settledAt : Option Datetime := none
deriving DecidableEq, Repr

structure LedgerRow where
  id : String
  accountId : AccountId
  reservationId : ReservationId
  deltaTokens : ℤ
  reason : String
deriving DecidableEq, Repr

structure InferenceRequest where
  id : RequestId
  keyId : KeyId
  accountId : AccountId
  modelId : ModelId
  reservationId : ReservationId
  workerId : Option WorkerId := none
  state : RequestState := .queued
  estimatedTokens : ℤ
  actualPromptTokens : Option ℤ := none
  actualCompletionTokens : Option ℤ := none
  errorCode : Option String := none
  acceptedCount : ℕ := 0
  completionCount : ℕ := 0
  admittedAt : Option Datetime := none
  completedAt : Option Datetime := none
deriving DecidableEq, Repr

/-- `_METRICS`, the counters of a summary row. -/
structure Metrics where
  requestCount : ℤ := 0
  successfulRequests : ℤ := 0
  failedRequests : ℤ := 0
  reservedTokens : ℤ := 0
  chargedTokens : ℤ := 0
  promptTokens : ℤ := 0
  completionTokens : ℤ := 0
  outputTokensForRate : ℤ := 0
  activeOutputSeconds : ℚ := 0
  timedRequests : ℤ := 0
deriving DecidableEq, Repr

namespace Metrics

instance : Zero Metrics := ⟨{}⟩

instance : Add Metrics :=
  ⟨fun a b =>
    { requestCount := a.requestCount + b.requestCount
      successfulRequests := a.successfulRequests + b.successfulRequests
      failedRequests := a.failedRequests + b.failedRequests
      reservedTokens := a.reservedTokens + b.reservedTokens
      chargedTokens := a.chargedTokens + b.chargedTokens
      promptTokens := a.promptTokens + b.promptTokens
      completionTokens := a.completionTokens + b.completionTokens
      outputTokensForRate := a.outputTokensForRate + b.outputTokensForRate
      activeOutputSeconds := a.activeOutputSeconds + b.activeOutputSeconds
      timedRequests := a.timedRequests + b.timedRequests }⟩

/-- The CHECK constraints on the counters. -/
def checks (m : Metrics) : Bool :=
  0 ≤ m.requestCount ∧ 0 ≤ m.successfulRequests ∧ 0 ≤ m.failedRequests ∧ 0 ≤ m.reservedTokens ∧
    0 ≤ m.chargedTokens ∧ 0 ≤ m.promptTokens ∧ 0 ≤ m.completionTokens ∧ 0 ≤ m.outputTokensForRate ∧
    0 ≤ m.activeOutputSeconds ∧ 0 ≤ m.timedRequests

/-- The integer metrics: all but `active_output_seconds`. -/
def integers : List (Metrics → ℤ) :=
  [requestCount, successfulRequests, failedRequests, reservedTokens, chargedTokens, promptTokens,
    completionTokens, outputTokensForRate, timedRequests]

/-- A metric that a sum of rows adds up. -/
structure Counter (g : Metrics → ℤ) : Prop where
  zero : g 0 = 0
  add : ∀ a b, g (a + b) = g a + g b

theorem counter_of_integers {g : Metrics → ℤ} (h : g ∈ integers) : Counter g := by
  simp only [integers, List.mem_cons, List.not_mem_nil, or_false] at h
  rcases h with rfl | rfl | rfl | rfl | rfl | rfl | rfl | rfl | rfl
  all_goals exact ⟨rfl, fun _ _ => rfl⟩

theorem Counter.sum {g : Metrics → ℤ} (hg : Counter g) : ∀ ms : List Metrics, g ms.sum = (ms.map g).sum
  | [] => hg.zero
  | m :: ms => by rw [List.sum_cons, hg.add, hg.sum ms, List.map_cons, List.sum_cons]

end Metrics

structure UsageSummary where
  window : SummaryWindow
  accountId : AccountId
  keyId : KeyId
  modelId : ModelId
  metrics : Metrics
  firstCompletedAt : Option Datetime
  lastCompletedAt : Option Datetime
deriving DecidableEq, Repr

/-- The primary key of `usage_summaries`. -/
def UsageSummary.key (s : UsageSummary) : SummaryWindow × AccountId × KeyId × ModelId :=
  (s.window, s.accountId, s.keyId, s.modelId)

structure UsageSummaryPeriod where
  window : SummaryWindow
  periodStart : Datetime
  periodEnd : Datetime
  summarizedAt : Datetime
  metrics : Metrics
deriving DecidableEq, Repr

structure Database where
  quotaAccounts : List QuotaAccount := []
  apiKeys : List ApiKey := []
  modelCatalog : List CatalogModel := []
  quotaReservations : List QuotaReservation := []
  quotaLedger : List LedgerRow := []
  inferenceRequests : List InferenceRequest := []
  usageSummaries : List UsageSummary := []
  usageSummaryPeriods : List UsageSummaryPeriod := []

/-- What a database call raises: SQLite's refusal of a row that breaks a
constraint, or one of the service's own errors. -/
inductive StorageError
  | integrityError
  | idempotencyConflict
  | quotaAccountMissing
  | quotaExceeded (balance estimated : ℤ)
  | invalidQuota
  | lastAdminKey
  | invalidSummaryCutoff
  | summaryCutoffNotAdvanced (previous : Datetime)
deriving DecidableEq, Repr

/-- A row of the lifetime usage views. -/
structure LifetimeUsage where
  chargedTokens : ℤ
  settledRequests : ℤ
deriving DecidableEq, Repr

namespace Database

variable (db : Database)

def account? (id : AccountId) : Option QuotaAccount := Table.lookup QuotaAccount.id id db.quotaAccounts

def key? (id : KeyId) : Option ApiKey := Table.lookup ApiKey.id id db.apiKeys

def reservation? (id : ReservationId) : Option QuotaReservation :=
  Table.lookup QuotaReservation.id id db.quotaReservations

def hasModel (id : ModelId) : Bool := db.modelCatalog.any (·.id = id)

/-- A row of a lifetime usage view: the settled reservations and the 'total'
summaries of one account or key, and no row when there are none. -/
def lifetimeUsage (settled : QuotaReservation → Bool) (summarized : UsageSummary → Bool) :
    Option LifetimeUsage :=
  let rows :=
    ((db.quotaReservations.filter fun q => q.state = .settled ∧ settled q).map fun q =>
      (LifetimeUsage.mk (q.actualTokens.getD 0) 1)) ++
    ((db.usageSummaries.filter fun s => s.window = .total ∧ summarized s).map fun s =>
      (LifetimeUsage.mk s.metrics.chargedTokens s.metrics.requestCount))
  if rows = [] then none
  else some ⟨(rows.map (·.chargedTokens)).sum, (rows.map (·.settledRequests)).sum⟩

def accountLifetimeUsage (a : AccountId) : Option LifetimeUsage :=
  db.lifetimeUsage (·.accountId = a) (·.accountId = a)

def keyLifetimeUsage (k : KeyId) : Option LifetimeUsage :=
  db.lifetimeUsage (·.keyId = k) (·.keyId = k)

/-- `int(totals["charged_tokens"]) if totals else 0` -/
def lifetimeCharged (a : AccountId) : ℤ := (db.accountLifetimeUsage a).elim 0 (·.chargedTokens)

end Database
end LlmRio
