/-
# `summarize_usage_records`

The summary transaction: it groups the settled reservations up to a cutoff by
account, key and model, adds their metrics to the 'total' rows of
`usage_summaries` and to the 'total' period, restarts the current window, and
deletes the raw rows it has counted.

The rows that are grouped come from a LEFT JOIN with `inference_requests`
(`joinRequests`), so a reservation is counted once for each of its request
rows; it has at most one (`OneRequest`). A column is an integer metric over
some accounts, keys and models. Summarizing moves what the eligible rows add
to a column into the summaries, and the total of no column changes
(`summarizeUsage_columnTotal`); the lifetime charge of an account is such a
total (`lifetimeCharged_eq_columnTotal`).

Key definitions: `summaryRows`, `summarizeUsage`, `OneRequest`, `columnTotal`.
Key theorems: `lifetimeCharged_eq`, `settledRows_perm`, `summarizeUsage_columnTotal`.
-/
import LlmRio.Lib.Transactions
import LlmRio.Storage.Quota

namespace LlmRio

open Transactions

/-- The `through` argument; a naive datetime has no timezone. -/
inductive Cutoff
  | naive
  | aware (t : Datetime)
deriving DecidableEq, Repr

namespace Database

/-- `state = 'SETTLED' AND settled_at IS NOT NULL AND settled_at <= ?` -/
def eligible (cutoff : Datetime) (q : QuotaReservation) : Bool :=
  q.state = .settled ∧ q.settledAt.any (· ≤ cutoff)

/-- `LEFT JOIN inference_requests r ON r.reservation_id = q.id` -/
def joinRequests (requests : List InferenceRequest) (q : QuotaReservation) :
    List (QuotaReservation × Option InferenceRequest) :=
  match requests.filter (·.reservationId = q.id) with
  | [] => [(q, none)]
  | rs => rs.map fun r => (q, some r)

/-- `julianday` counts the milliseconds of a timestamp. -/
def milliseconds (t : Datetime) : ℤ := Rat.floor (t * 1000 + 1 / 2)

/-- The request was timed: it has completion tokens, and it completed after it
was admitted. Its active seconds, then. -/
def timedSeconds (r : InferenceRequest) : Option ℚ :=
  match r.admittedAt, r.completedAt with
  | some a, some c =>
    if 0 < r.actualCompletionTokens.getD 0 ∧ milliseconds a < milliseconds c then
      some ((milliseconds c - milliseconds a : ℤ) / 1000)
    else none
  | _, _ => none

/-- What one joined row adds to the metrics of its group. -/
def rowMetrics : QuotaReservation × Option InferenceRequest → Metrics
  | (q, r) =>
    { requestCount := 1
      successfulRequests := if r.any (·.state = .completed) then 1 else 0
      failedRequests := if r.any (·.state = .completed) then 0 else 1
      reservedTokens := q.reservedTokens
      chargedTokens := q.actualTokens.getD 0
      promptTokens := (r.bind (·.actualPromptTokens)).getD 0
      completionTokens := (r.bind (·.actualCompletionTokens)).getD 0
      outputTokensForRate :=
        r.elim 0 fun r => if (timedSeconds r).isSome then r.actualCompletionTokens.getD 0 else 0
      activeOutputSeconds := r.elim 0 fun r => (timedSeconds r).getD 0
      timedRequests := r.elim 0 fun r => if (timedSeconds r).isSome then 1 else 0 }

/-- `COALESCE(r.completed_at, q.settled_at)` -/
def rowCompletedAt : QuotaReservation × Option InferenceRequest → Option Datetime
  | (q, r) => (r.bind (·.completedAt)).or q.settledAt

def groupKey (row : QuotaReservation × Option InferenceRequest) : AccountId × KeyId × ModelId :=
  (row.1.accountId, row.1.keyId, row.1.modelId)

/-- The joined rows of the eligible reservations. -/
def eligibleRows (db : Database) (cutoff : Datetime) :
    List (QuotaReservation × Option InferenceRequest) :=
  (db.quotaReservations.filter (eligible cutoff)).flatMap (joinRequests db.inferenceRequests)

def groupSummary (rows : List (QuotaReservation × Option InferenceRequest))
    (k : AccountId × KeyId × ModelId) : UsageSummary :=
  let rows := rows.filter fun row => groupKey row = k
  { window := .total, accountId := k.1, keyId := k.2.1, modelId := k.2.2
    metrics := (rows.map rowMetrics).sum
    firstCompletedAt := (rows.filterMap rowCompletedAt).min?
    lastCompletedAt := (rows.filterMap rowCompletedAt).max? }

/-- The result of the GROUP BY query, one row for each group. -/
def summaryRows (db : Database) (cutoff : Datetime) : List UsageSummary :=
  (Table.groups groupKey (db.eligibleRows cutoff)).map (groupSummary (db.eligibleRows cutoff))

/-- SQL's two-argument MIN and MAX: NULL if one of them is. -/
def nullable (f : Datetime → Datetime → Datetime) : Option Datetime → Option Datetime → Option Datetime
  | some a, some b => some (f a b)
  | _, _ => none

/-- The `ON CONFLICT .. DO UPDATE` of a summary row. -/
def mergeSummary (excluded s : UsageSummary) : UsageSummary :=
  { s with
    metrics := s.metrics + excluded.metrics
    firstCompletedAt := nullable min s.firstCompletedAt excluded.firstCompletedAt
    lastCompletedAt := nullable max s.lastCompletedAt excluded.lastCompletedAt }

def upsertSummary (rows : List UsageSummary) (s : UsageSummary) : Except StorageError (List UsageSummary) :=
  if ¬ s.metrics.checks then .error .integrityError
  else if rows.any (·.key = s.key) then .ok (Table.modify UsageSummary.key s.key (mergeSummary s) rows)
  else .ok (rows ++ [s])

def upsertPeriod (rows : List UsageSummaryPeriod) (p : UsageSummaryPeriod) : List UsageSummaryPeriod :=
  if rows.any (·.window = p.window) then
    Table.modify UsageSummaryPeriod.window p.window (fun _ => p) rows
  else rows ++ [p]

/-- What `summarize_usage_records` returns. -/
structure SummaryReport where
  periodStart : Datetime
  periodEnd : Datetime
  summarizedAt : Datetime
  summaryRows : ℕ
  summarized : Metrics
  deletedInferenceRequests : ℕ
  deletedQuotaReservations : ℕ
  deletedQuotaLedger : ℕ
  rawRequestsRemaining : ℕ
  current : Metrics
  lifetime : Metrics
deriving DecidableEq, Repr

def period? (db : Database) (w : SummaryWindow) : Option UsageSummaryPeriod :=
  Table.lookup UsageSummaryPeriod.window w db.usageSummaryPeriods

/-- The ids of the reservations that the summary counts and deletes. -/
def eligibleIds (db : Database) (cutoff : Datetime) : List ReservationId :=
  (db.quotaReservations.filter (eligible cutoff)).map (·.id)

/-- The three DELETE statements on the raw tables. -/
def deleteEligible (db : Database) (cutoff : Datetime) : Database :=
  { db with
    quotaLedger := db.quotaLedger.filter fun l => l.reservationId ∉ db.eligibleIds cutoff
    inferenceRequests := db.inferenceRequests.filter fun r => r.reservationId ∉ db.eligibleIds cutoff
    quotaReservations := db.quotaReservations.filter fun q => ¬ eligible cutoff q }

/-- The transaction after the cutoff has been accepted. -/
def summarizeFrom (db : Database) (cutoff summarizedAt : Datetime) (previousEnd : Option Datetime) :
    Except StorageError (Database × SummaryReport) := do
  let rows := db.summaryRows cutoff
  let batch := (rows.map (·.metrics)).sum
  let periodStart := previousEnd.getD ((rows.filterMap (·.firstCompletedAt)).min?.getD cutoff)
  let kept := db.usageSummaries.filter (·.window ≠ .current)
  let summaries ← rows.foldlM upsertSummary kept
  let previousTotal := db.period? .total
  let lifetime := (previousTotal.elim 0 (·.metrics)) + batch
  let lifetimeStart := previousTotal.elim periodStart (·.periodStart)
  if ¬ lifetime.checks then .error .integrityError
  else
    let periods := upsertPeriod (upsertPeriod db.usageSummaryPeriods
      ⟨.current, cutoff, cutoff, summarizedAt, 0⟩) ⟨.total, lifetimeStart, cutoff, summarizedAt, lifetime⟩
    let db' := { db.deleteEligible cutoff with usageSummaries := summaries, usageSummaryPeriods := periods }
    pure (db',
      { periodStart := periodStart, periodEnd := cutoff, summarizedAt := summarizedAt
        summaryRows := rows.length, summarized := batch
        deletedInferenceRequests := db.inferenceRequests.length - db'.inferenceRequests.length
        deletedQuotaReservations := db.quotaReservations.length - db'.quotaReservations.length
        deletedQuotaLedger := db.quotaLedger.length - db'.quotaLedger.length
        rawRequestsRemaining := db'.inferenceRequests.length
        current := 0, lifetime := lifetime })

def summarizeUsage (db : Database) (through : Cutoff) (summarizedAt : Datetime) :
    Except StorageError (Database × SummaryReport) :=
  match through with
  | .naive => .error .invalidSummaryCutoff
  | .aware cutoff =>
    match db.period? .current with
    | some previous =>
      if cutoff ≤ previous.periodEnd then .error (.summaryCutoffNotAdvanced previous.periodEnd)
      else db.summarizeFrom cutoff summarizedAt (some previous.periodEnd)
    | none => db.summarizeFrom cutoff summarizedAt none

/-! ### The lifetime charge -/

/-- What the settled reservations still in the table charge to an account. -/
def settledCharge (db : Database) (a : AccountId) : ℤ :=
  (db.quotaReservations.map fun q =>
    if q.state = .settled ∧ q.accountId = a then q.actualTokens.getD 0 else 0).sum

/-- The charge that a summary row counts for an account. -/
def summaryCharge (a : AccountId) (s : UsageSummary) : ℤ :=
  if s.window = .total ∧ s.accountId = a then s.metrics.chargedTokens else 0

/-- What the 'total' summaries charge to an account. -/
def summarizedCharge (db : Database) (a : AccountId) : ℤ := (db.usageSummaries.map (summaryCharge a)).sum

theorem lifetimeCharged_eq (db : Database) (a : AccountId) :
    db.lifetimeCharged a = db.settledCharge a + db.summarizedCharge a := by
  unfold lifetimeCharged accountLifetimeUsage lifetimeUsage settledCharge summarizedCharge summaryCharge
  have e1 := Table.sum_filter (fun q : QuotaReservation => q.state = .settled ∧ q.accountId = a)
    (fun q => q.actualTokens.getD 0) db.quotaReservations
  have e2 := Table.sum_filter (fun s : UsageSummary => s.window = .total ∧ s.accountId = a)
    (fun s => s.metrics.chargedTokens) db.usageSummaries
  simp only [decide_eq_true_eq] at e1 e2 ⊢
  split
  · rename_i h
    obtain ⟨h1, h2⟩ := List.append_eq_nil_iff.mp h
    rw [List.map_eq_nil_iff] at h1 h2
    rw [h1] at e1
    rw [h2] at e2
    rw [← e1, ← e2]
    simp
  · simp only [Option.elim_some, List.map_append, List.sum_append, List.map_map]
    rw [← e1, ← e2]
    simp [Function.comp_def]

/-! ### Columns of the raw rows and of the summaries

A column is an integer metric, over the accounts, keys and models that meet
`p`. Its total is that of the settled reservations still in the table, each
joined with its request rows, and that of the 'total' summaries. -/

/-- Every reservation has at most one request row. -/
def OneRequest (db : Database) : Prop :=
  ∀ q ∈ db.quotaReservations, (db.inferenceRequests.filter (·.reservationId = q.id)).length ≤ 1

def rowColumn (p : AccountId × KeyId × ModelId → Bool) (g : Metrics → ℤ)
    (row : QuotaReservation × Option InferenceRequest) : ℤ :=
  if p (groupKey row) then g (rowMetrics row) else 0

def column (p : AccountId × KeyId × ModelId → Bool) (g : Metrics → ℤ) (s : UsageSummary) : ℤ :=
  if s.window = .total ∧ p (s.accountId, s.keyId, s.modelId) then g s.metrics else 0

/-- The joined rows of the settled reservations. -/
def settledRows (db : Database) : List (QuotaReservation × Option InferenceRequest) :=
  (db.quotaReservations.filter (·.state = .settled)).flatMap (joinRequests db.inferenceRequests)

def columnTotal (db : Database) (p : AccountId × KeyId × ModelId → Bool) (g : Metrics → ℤ) : ℤ :=
  (db.settledRows.map (rowColumn p g)).sum + (db.usageSummaries.map (column p g)).sum

variable {db db' : Database} {p : AccountId × KeyId × ModelId → Bool} {g : Metrics → ℤ}

theorem fst_of_mem_joinRequests {requests : List InferenceRequest} {q : QuotaReservation}
    {row : QuotaReservation × Option InferenceRequest} (h : row ∈ joinRequests requests q) : row.1 = q := by
  unfold joinRequests at h
  split at h
  · rw [List.mem_singleton.mp h]
  · obtain ⟨r, -, rfl⟩ := List.mem_map.mp h
    rfl

theorem joinRequests_ne_nil (requests : List InferenceRequest) (q : QuotaReservation) :
    joinRequests requests q ≠ [] := by
  unfold joinRequests
  split
  · simp
  · rename_i hne
    simpa using hne

/-- With one request row at most, a reservation is counted once. -/
theorem sum_joinRequests {requests : List InferenceRequest} {q : QuotaReservation}
    (h : (requests.filter (·.reservationId = q.id)).length ≤ 1) (f : QuotaReservation → ℤ) :
    ((joinRequests requests q).map fun row => f row.1).sum = f q := by
  unfold joinRequests
  split
  · simp
  · rename_i hne
    have hpos := List.length_pos_iff.mpr hne
    obtain ⟨r, hr⟩ := List.length_eq_one_iff.mp (le_antisymm h hpos)
    rw [hr]
    simp

/-- What the settled reservations add up to, row by row. -/
theorem sum_settledRows (h : OneRequest db) (f : QuotaReservation → ℤ) :
    (db.settledRows.map fun row => f row.1).sum =
      ((db.quotaReservations.filter (·.state = .settled)).map f).sum := by
  have hrows : ∀ qs : List QuotaReservation, (∀ q ∈ qs, q ∈ db.quotaReservations) →
      ((qs.flatMap (joinRequests db.inferenceRequests)).map fun row => f row.1).sum = (qs.map f).sum := by
    intro qs
    induction qs with
    | nil => simp
    | cons q qs ih =>
      intro hq
      rw [List.flatMap_cons, List.map_append, List.sum_append, List.map_cons, List.sum_cons,
        sum_joinRequests (h q (hq q List.mem_cons_self)), ih fun q' h' => hq q' (List.mem_cons_of_mem _ h')]
  exact hrows _ fun q hq => List.mem_of_mem_filter hq

/-! ### The GROUP BY query -/

/-- The metrics of the groups add up to those of the rows. -/
theorem sum_grouped {ρ κ : Type*} [DecidableEq κ] (hg : Metrics.Counter g) (key : ρ → κ) (f : ρ → Metrics)
    (p : κ → Bool) (rows : List ρ) :
    ((Table.groups key rows).map fun k =>
        if p k then g ((rows.filter fun r => key r = k).map f).sum else 0).sum =
      (rows.map fun r => if p (key r) then g (f r) else 0).sum := by
  have hgroup : ∀ k, (if p k then g ((rows.filter fun r => key r = k).map f).sum else 0) =
      ((rows.filter fun r => key r = k).map fun r => if p (key r) then g (f r) else 0).sum := by
    intro k
    have hkey : ∀ r ∈ rows.filter fun r => key r = k, key r = k := fun r hr => by
      simpa using (List.mem_filter.mp hr).2
    rw [hg.sum, List.map_map]
    by_cases hp : p k = true
    · rw [if_pos hp]
      congr 1
      refine List.map_congr_left fun r hr => ?_
      rw [hkey r hr, if_pos hp]
      rfl
    · rw [if_neg hp]
      refine (List.sum_eq_zero fun x hx => ?_).symm
      obtain ⟨r, hr, rfl⟩ := List.mem_map.mp hx
      rw [hkey r hr, if_neg hp]
  simp only [hgroup]
  exact Table.sum_groups (fun r => if p (key r) then g (f r) else 0) rows

theorem sum_summaryRows (hg : Metrics.Counter g) (cutoff : Datetime) :
    ((db.summaryRows cutoff).map (column p g)).sum = ((db.eligibleRows cutoff).map (rowColumn p g)).sum := by
  have hcolumn : ∀ rows k, column p g (groupSummary rows k) =
      if p k then g ((rows.filter fun row => groupKey row = k).map rowMetrics).sum else 0 := by
    intro rows k
    simp [column, groupSummary]
  unfold summaryRows
  rw [List.map_map]
  simp only [Function.comp_def, hcolumn]
  exact sum_grouped hg groupKey rowMetrics p (db.eligibleRows cutoff)

/-! ### The upserts -/

/-- A column of the summaries that a merge adds up. -/
def AddsUp (g : UsageSummary → ℤ) : Prop :=
  ∀ s r : UsageSummary, r.key = s.key → g (mergeSummary s r) = g r + g s

theorem addsUp_column (hg : Metrics.Counter g) : AddsUp (column p g) := by
  intro s r h
  simp only [UsageSummary.key, Prod.mk.injEq] at h
  obtain ⟨hw, ha, hk, hm⟩ := h
  unfold column mergeSummary
  simp only [hw, ha, hk, hm, hg.add]
  split <;> simp

theorem upsertSummary_ok {rows rows' : List UsageSummary} {s : UsageSummary}
    (h : upsertSummary rows s = .ok rows') (hn : (rows.map UsageSummary.key).Nodup) :
    (rows'.map UsageSummary.key).Nodup ∧
      ∀ g, AddsUp g → (rows'.map g).sum = (rows.map g).sum + g s := by
  unfold upsertSummary at h
  split at h
  · cases h
  · split at h
    · rename_i hany
      cases h
      obtain ⟨r, hr, hk⟩ : ∃ r ∈ rows, r.key = s.key := by simpa using hany
      have hlook := Table.lookup_of_mem hn hr
      rw [hk] at hlook
      constructor
      · rwa [@Table.map_key_modify _ _ _ UsageSummary.key _ (mergeSummary s) fun _ h => h]
      · intro g hg
        rw [Table.sum_modify hn hlook g, hg s r hk]
        omega
    · rename_i hany
      cases h
      constructor
      · rw [List.map_append, List.nodup_append]
        refine ⟨hn, by simp, ?_⟩
        simpa using hany
      · intro g _
        simp

/-- A key is in the table after an upsert if it was, or if it is the row's. -/
theorem upsertSummary_key {rows rows' : List UsageSummary} {s : UsageSummary}
    (h : upsertSummary rows s = .ok rows') (k : SummaryWindow × AccountId × KeyId × ModelId) :
    k ∈ rows'.map UsageSummary.key ↔ k ∈ rows.map UsageSummary.key ∨ k = s.key := by
  unfold upsertSummary at h
  obtain ⟨-, h⟩ := guard_eq_ok.mp h
  split at h
  · rename_i hany
    cases h
    have hmem : s.key ∈ rows.map UsageSummary.key := by simpa using hany
    rw [@Table.map_key_modify _ _ _ UsageSummary.key _ (mergeSummary s) fun _ h => h]
    constructor
    · exact .inl
    · rintro (hk | rfl)
      · exact hk
      · exact hmem
  · cases h
    simp

theorem foldlM_upsert_key : ∀ {ss rows rows' : List UsageSummary},
    ss.foldlM upsertSummary rows = .ok rows' → ∀ k, k ∈ rows'.map UsageSummary.key ↔
      k ∈ rows.map UsageSummary.key ∨ k ∈ ss.map UsageSummary.key
  | [], rows, rows', h, k => by
    cases h
    simp
  | s :: ss, rows, rows', h, k => by
    obtain ⟨rows1, h1, h2⟩ := foldlM_cons_eq_ok.mp h
    rw [foldlM_upsert_key h2, upsertSummary_key h1, List.map_cons, List.mem_cons, or_assoc]

theorem foldlM_upsert_nodup : ∀ {ss rows rows' : List UsageSummary},
    ss.foldlM upsertSummary rows = .ok rows' → (rows.map UsageSummary.key).Nodup →
      (rows'.map UsageSummary.key).Nodup
  | [], rows, rows', h, hn => by
    cases h
    exact hn
  | s :: ss, rows, rows', h, hn => by
    obtain ⟨rows1, h1, h2⟩ := foldlM_cons_eq_ok.mp h
    exact foldlM_upsert_nodup h2 (upsertSummary_ok h1 hn).1

theorem foldlM_upsert_sum {c : UsageSummary → ℤ} (hc : AddsUp c) : ∀ {ss rows rows' : List UsageSummary},
    ss.foldlM upsertSummary rows = .ok rows' → (rows.map UsageSummary.key).Nodup →
      (rows'.map c).sum = (rows.map c).sum + (ss.map c).sum
  | [], rows, rows', h, hn => by
    cases h
    simp
  | s :: ss, rows, rows', h, hn => by
    obtain ⟨rows1, h1, h2⟩ := foldlM_cons_eq_ok.mp h
    obtain ⟨hn1, hs1⟩ := upsertSummary_ok h1 hn
    rw [foldlM_upsert_sum hc h2 hn1, hs1 c hc, List.map_cons, List.sum_cons]
    omega

/-! ### What summarizing keeps -/

/-- The tables after an accepted summary, whose cutoff is later than the last. -/
theorem summarizeUsage_ok {through : Cutoff} {now : Datetime} {report : SummaryReport}
    (h : db.summarizeUsage through now = .ok (db', report)) : ∃ cutoff summaries start,
      through = .aware cutoff ∧ (∀ previous, db.period? .current = some previous → previous.periodEnd < cutoff) ∧
      (db.summaryRows cutoff).foldlM upsertSummary (db.usageSummaries.filter (·.window ≠ .current)) =
        .ok summaries ∧
      db' = { db.deleteEligible cutoff with
        usageSummaries := summaries
        usageSummaryPeriods := upsertPeriod (upsertPeriod db.usageSummaryPeriods
          ⟨.current, cutoff, cutoff, now, 0⟩) ⟨.total, start, cutoff, now,
            (db.period? .total).elim 0 (·.metrics) + ((db.summaryRows cutoff).map (·.metrics)).sum⟩ } := by
  have hfrom : ∀ cutoff previousEnd, db.summarizeFrom cutoff now previousEnd = .ok (db', report) →
      ∃ summaries start, (db.summaryRows cutoff).foldlM upsertSummary
          (db.usageSummaries.filter (·.window ≠ .current)) = .ok summaries ∧
        db' = { db.deleteEligible cutoff with
          usageSummaries := summaries
          usageSummaryPeriods := upsertPeriod (upsertPeriod db.usageSummaryPeriods
            ⟨.current, cutoff, cutoff, now, 0⟩) ⟨.total, start, cutoff, now,
              (db.period? .total).elim 0 (·.metrics) + ((db.summaryRows cutoff).map (·.metrics)).sum⟩ } := by
    intro cutoff previousEnd h
    unfold summarizeFrom at h
    obtain ⟨summaries, hf, h⟩ := bind_eq_ok.mp h
    obtain ⟨-, h⟩ := guard_eq_ok.mp h
    cases pure_eq_ok.mp h
    exact ⟨summaries, _, hf, rfl⟩
  unfold summarizeUsage at h
  split at h
  · cases h
  · rename_i cutoff
    split at h
    · rename_i previous hprev
      obtain ⟨hlt, h⟩ := guard_eq_ok.mp h
      obtain ⟨summaries, start, hf, hdb⟩ := hfrom _ _ h
      refine ⟨cutoff, summaries, start, rfl, fun p hp => ?_, hf, hdb⟩
      rw [← Option.some.inj (hprev.symm.trans hp)]
      exact not_le.mp hlt
    · rename_i hnone
      obtain ⟨summaries, start, hf, hdb⟩ := hfrom _ _ h
      exact ⟨cutoff, summaries, start, rfl, fun p hp => by simp [hnone] at hp, hf, hdb⟩

theorem not_mem_eligibleIds (hids : (db.quotaReservations.map (·.id)).Nodup) {cutoff : Datetime}
    {q : QuotaReservation} (hq : q ∈ db.quotaReservations) (hkeep : ¬ eligible cutoff q = true) :
    q.id ∉ db.eligibleIds cutoff := by
  intro hmem
  obtain ⟨q', hq', hid⟩ := List.mem_map.mp hmem
  obtain ⟨hq', helig⟩ := List.mem_filter.mp hq'
  rw [Table.eq_of_key hids hq' hq hid] at helig
  exact hkeep helig

/-- A reservation that is not eligible keeps its request rows. -/
theorem filter_deleteEligible (hids : (db.quotaReservations.map (·.id)).Nodup) {cutoff : Datetime}
    {q : QuotaReservation} (hq : q ∈ db.quotaReservations) (hkeep : ¬ eligible cutoff q = true) :
    (db.deleteEligible cutoff).inferenceRequests.filter (·.reservationId = q.id) =
      db.inferenceRequests.filter (·.reservationId = q.id) := by
  have hnot := not_mem_eligibleIds hids hq hkeep
  unfold deleteEligible
  simp only [List.filter_filter]
  refine List.filter_congr fun r _ => ?_
  by_cases hr : r.reservationId = q.id
  · simp [hr, hnot]
  · simp [hr]

/-- The settled rows are those that the summary counts and those it leaves. -/
theorem settledRows_perm (hids : (db.quotaReservations.map (·.id)).Nodup) (cutoff : Datetime) :
    db.settledRows.Perm (db.eligibleRows cutoff ++ (db.deleteEligible cutoff).settledRows) := by
  have hsettled : ∀ q, eligible cutoff q = true → q.state = .settled := by
    intro q h
    simp only [eligible, decide_eq_true_eq] at h
    exact h.1
  have helig : (db.quotaReservations.filter (·.state = .settled)).filter (eligible cutoff) =
      db.quotaReservations.filter (eligible cutoff) := by
    rw [List.filter_filter]
    refine List.filter_congr fun q _ => ?_
    by_cases h : eligible cutoff q = true
    · simp [h, hsettled q h]
    · simp [h]
  have hrest : (db.quotaReservations.filter (·.state = .settled)).filter (fun q => ¬ eligible cutoff q = true) =
      (db.deleteEligible cutoff).quotaReservations.filter (·.state = .settled) := by
    unfold deleteEligible
    simp only [List.filter_filter]
    refine List.filter_congr fun q _ => ?_
    rw [Bool.and_comm]
  have hjoin : (db.deleteEligible cutoff).settledRows =
      ((db.deleteEligible cutoff).quotaReservations.filter (·.state = .settled)).flatMap
        (joinRequests db.inferenceRequests) := by
    unfold settledRows
    refine List.flatMap_congr fun q hq => ?_
    obtain ⟨hq, hkeep⟩ := List.mem_filter.mp (List.mem_of_mem_filter hq)
    unfold joinRequests
    rw [filter_deleteEligible hids hq (by simpa using hkeep)]
  rw [hjoin, ← hrest, eligibleRows, ← helig, ← List.flatMap_append]
  have hsplit := (List.filter_append_perm (eligible cutoff) (db.quotaReservations.filter (·.state = .settled)))
  refine (hsplit.flatMap_right (joinRequests db.inferenceRequests)).symm.trans ?_
  simp

theorem sum_filter_total (rows : List UsageSummary) :
    ((rows.filter (·.window ≠ .current)).map (column p g)).sum = (rows.map (column p g)).sum := by
  rw [Table.sum_filter]
  congr 1
  refine List.map_congr_left fun s _ => ?_
  by_cases h : s.window = .current
  · simp [h, column]
  · simp [h]

/-- Summarizing moves the eligible rows into the summaries, and no column
changes its total. -/
theorem summarizeUsage_columnTotal (hg : Metrics.Counter g)
    (hids : (db.quotaReservations.map (·.id)).Nodup) (hn : (db.usageSummaries.map UsageSummary.key).Nodup)
    {through : Cutoff} {now : Datetime} {report : SummaryReport}
    (h : db.summarizeUsage through now = .ok (db', report)) : db'.columnTotal p g = db.columnTotal p g := by
  obtain ⟨cutoff, summaries, start, -, -, hfold, rfl⟩ := summarizeUsage_ok h
  have hn' : ((db.usageSummaries.filter (·.window ≠ .current)).map UsageSummary.key).Nodup :=
    hn.sublist (List.filter_sublist.map _)
  have hsum := foldlM_upsert_sum (addsUp_column (p := p) hg) hfold hn'
  rw [sum_filter_total, sum_summaryRows hg] at hsum
  have hraw := ((settledRows_perm hids cutoff).map (rowColumn p g)).sum_eq
  rw [List.map_append, List.sum_append] at hraw
  unfold columnTotal
  rw [hraw, hsum]
  simp only [settledRows]
  omega

/-- A metric that a reservation has by itself: the column counts each settled
reservation once. -/
theorem columnTotal_eq (h1 : OneRequest db) {v : QuotaReservation → ℤ} (hv : ∀ row, g (rowMetrics row) = v row.1) :
    db.columnTotal p g =
      ((db.quotaReservations.filter fun q =>
          q.state = .settled ∧ p (q.accountId, q.keyId, q.modelId)).map v).sum +
        ((db.usageSummaries.filter fun s =>
          s.window = .total ∧ p (s.accountId, s.keyId, s.modelId)).map fun s => g s.metrics).sum := by
  have hraw := sum_settledRows h1 fun q => if p (q.accountId, q.keyId, q.modelId) then v q else 0
  have hrow : (fun row : QuotaReservation × Option InferenceRequest =>
      if p (row.1.accountId, row.1.keyId, row.1.modelId) then v row.1 else 0) = rowColumn p g := by
    funext row
    rw [rowColumn, hv]
    rfl
  rw [hrow, Table.sum_filter] at hraw
  rw [columnTotal, hraw, Table.sum_filter, Table.sum_filter]
  congr 2
  · refine List.map_congr_left fun q _ => ?_
    by_cases hs : q.state = .settled
    · simp [hs]
    · simp [hs]
  · refine List.map_congr_left fun s _ => ?_
    simp [column]

/-- The lifetime charge of an account is a column total. -/
theorem lifetimeCharged_eq_columnTotal (h1 : OneRequest db) (a : AccountId) :
    db.lifetimeCharged a = db.columnTotal (fun k => k.1 = a) Metrics.chargedTokens := by
  have hsummary : summaryCharge a = fun s =>
      if s.window = .total ∧ s.accountId = a then s.metrics.chargedTokens else 0 := rfl
  rw [columnTotal_eq h1 (v := fun q => q.actualTokens.getD 0) fun _ => rfl, Table.sum_filter, Table.sum_filter,
    lifetimeCharged_eq, settledCharge, summarizedCharge, hsummary]
  simp

end Database
end LlmRio
