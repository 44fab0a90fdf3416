/-
# The usage readers, before and after a summary

`usage_dashboard` adds the settled reservations still in the table, joined
with their models and requests, to the 'total' rows of `usage_summaries`; the
lifetime views do the same for an account or a key. Each of their numbers is
a column total (`total_metrics`, `lifetimeUsage_eq`, `usageOf_total`), and
which accounts, keys and models appear depends on what is `present`. A
summary changes neither, so it loses and double-counts nothing
(`summarize_preserves`).

Key definitions: `usageDashboard`, `popularity`, `present`, `Preserved`.
Key theorems: `present_summarize`, `lifetimeUsage_eq`, `usageOf_total`,
`summarize_preserves`.
-/
import Mathlib.Algebra.Group.Prod
import LlmRio.Storage.Catalog
import LlmRio.Storage.Ledger

namespace LlmRio

open Runs Transactions

/-! ### The dashboard -/

/-- The usage of a model, a row of the two GROUP BY queries. -/
structure ModelUsage where
  modelId : ModelId
  model : String
  requestCount : ℤ := 0
  chargedTokens : ℤ := 0
  promptTokens : ℤ := 0
  completionTokens : ℤ := 0
deriving DecidableEq, Repr

namespace ModelUsage

def ofMetrics (k : ModelId × String) (m : Metrics) : ModelUsage :=
  { modelId := k.1, model := k.2, requestCount := m.requestCount, chargedTokens := m.chargedTokens
    promptTokens := m.promptTokens, completionTokens := m.completionTokens }

@[simp] theorem ofMetrics_modelId (k : ModelId × String) (m : Metrics) : (ofMetrics k m).modelId = k.1 := rfl

/-- `item[field] += int(row[field] or 0)` for the four fields. -/
def addRow (row item : ModelUsage) : ModelUsage :=
  { item with
    requestCount := item.requestCount + row.requestCount
    chargedTokens := item.chargedTokens + row.chargedTokens
    promptTokens := item.promptTokens + row.promptTokens
    completionTokens := item.completionTokens + row.completionTokens }

def tokens (u : ModelUsage) : ℤ := u.promptTokens + u.completionTokens

/-- The four counts. -/
def counts (u : ModelUsage) : ℤ × ℤ × ℤ × ℤ :=
  (u.requestCount, u.chargedTokens, u.promptTokens, u.completionTokens)

end ModelUsage

structure PopularityItem where
  usage : ModelUsage
  rank : ℕ
  tokenUsage : ℤ
  share : ℚ
deriving DecidableEq, Repr

/-- `by_model`, a dict in insertion order. -/
def byModel (items : List ModelUsage) (row : ModelUsage) : List ModelUsage :=
  if items.any (·.modelId = row.modelId) then
    Table.modify ModelUsage.modelId row.modelId row.addRow items
  else items ++ [row]

/-- The sort key: more tokens first, then the nickname. -/
def rankedBefore (a b : ModelUsage) : Bool := b.tokens < a.tokens ∨ (a.tokens = b.tokens ∧ a.model ≤ b.model)

def popularity (rows : List ModelUsage) : List PopularityItem :=
  let ranked := (rows.foldl byModel []).mergeSort rankedBefore
  let grandTotal := (ranked.map (·.tokens)).sum
  (ranked.zipIdx 1).map fun (item, rank) =>
    { usage := item, rank := rank, tokenUsage := item.tokens
      share := if grandTotal = 0 then 0 else item.tokens / grandTotal }

/-- `_window_payload` -/
structure WindowPayload where
  periodStart : Datetime
  periodEnd : Datetime
  metrics : Metrics
  tokenUsage : ℤ
  elapsedSeconds : ℚ
  tokensPerSecond : ℚ
  tokensPerMinute : ℚ
  averageOutputTokensPerSecond : Option ℚ
deriving DecidableEq, Repr

def windowPayload (metrics : Metrics) (periodStart periodEnd : Datetime) : WindowPayload :=
  let elapsedSeconds := max 0 (periodEnd - periodStart)
  let tokenUsage := metrics.promptTokens + metrics.completionTokens
  { periodStart := periodStart, periodEnd := periodEnd, metrics := metrics, tokenUsage := tokenUsage
    elapsedSeconds := elapsedSeconds
    tokensPerSecond := if 0 < elapsedSeconds then tokenUsage / elapsedSeconds else 0
    tokensPerMinute := if 0 < elapsedSeconds then tokenUsage * 60 / elapsedSeconds else 0
    averageOutputTokensPerSecond :=
      if 0 < metrics.activeOutputSeconds then
        some (metrics.outputTokensForRate / metrics.activeOutputSeconds)
      else none }

structure UsageDashboard where
  generatedAt : Datetime
  current : WindowPayload
  total : WindowPayload
  popularityCurrent : List PopularityItem
  popularityTotal : List PopularityItem
deriving DecidableEq, Repr

namespace Database

/-- `JOIN model_catalog m ON m.id = ?` -/
def joinModel (db : Database) (id : ModelId) : List CatalogModel := db.modelCatalog.filter (·.id = id)

/-- The joined rows of the raw query. -/
def rawJoin (db : Database) : List (CatalogModel × QuotaReservation × Option InferenceRequest) :=
  (db.quotaReservations.filter (·.state = .settled)).flatMap fun q =>
    (db.joinModel q.modelId).flatMap fun m =>
      (joinRequests db.inferenceRequests q).map fun row => (m, row)

def rawKey (row : CatalogModel × QuotaReservation × Option InferenceRequest) : ModelId × String :=
  (row.2.1.modelId, row.1.nickname)

structure RawRow where
  key : ModelId × String
  metrics : Metrics
  firstCompletedAt : Option Datetime

/-- `raw_rows` -/
def rawRows (db : Database) : List RawRow :=
  (Table.groups rawKey db.rawJoin).map fun k =>
    let rows := db.rawJoin.filter fun row => rawKey row = k
    ⟨k, (rows.map fun row => rowMetrics row.2).sum, (rows.filterMap fun row => row.2.1.settledAt).min?⟩

/-- The joined rows of the summary query. -/
def summaryJoin (db : Database) : List (CatalogModel × UsageSummary) :=
  (db.usageSummaries.filter (·.window = .total)).flatMap fun s =>
    (db.joinModel s.modelId).map fun m => (m, s)

def summaryKey (row : CatalogModel × UsageSummary) : ModelId × String := (row.2.modelId, row.1.nickname)

/-- `summary_models` -/
def summaryModels (db : Database) : List ModelUsage :=
  (Table.groups summaryKey db.summaryJoin).map fun k =>
    .ofMetrics k ((db.summaryJoin.filter fun row => summaryKey row = k).map (·.2.metrics)).sum

def usageDashboard (db : Database) (now : Datetime) : UsageDashboard :=
  let rawRows := db.rawRows
  let rawMetrics := (rawRows.map (·.metrics)).sum
  let totalMetrics := ((db.usageSummaries.filter (·.window = .total)).map (·.metrics)).sum + rawMetrics
  let earliestRaw := (rawRows.filterMap (·.firstCompletedAt)).min?.getD now
  let currentStart := (db.period? .current).elim earliestRaw (·.periodStart)
  let totalStart := (db.period? .total).elim earliestRaw (·.periodStart)
  let rawUsage := rawRows.map fun row => ModelUsage.ofMetrics row.key row.metrics
  { generatedAt := now
    current := windowPayload rawMetrics currentStart now
    total := windowPayload totalMetrics totalStart now
    popularityCurrent := popularity rawUsage
    popularityTotal := popularity (db.summaryModels ++ rawUsage) }

end Database

/-- The counts of a model in a popularity list. -/
def usageOf (items : List PopularityItem) (m : ModelId) : Option (ℤ × ℤ × ℤ × ℤ) :=
  (Table.lookup ModelUsage.modelId m (items.map (·.usage))).map (·.counts)

namespace Database

/-- What a summary through `cutoff` leaves as it was. -/
structure Preserved (db db' : Database) (cutoff : Datetime) : Prop where
  account : ∀ a, db'.accountLifetimeUsage a = db.accountLifetimeUsage a
  key : ∀ k, db'.keyLifetimeUsage k = db.keyLifetimeUsage k
  total : ∀ now, ∀ g ∈ Metrics.integers,
    g (db'.usageDashboard now).total.metrics = g (db.usageDashboard now).total.metrics
  tokenUsage : ∀ now, (db'.usageDashboard now).total.tokenUsage = (db.usageDashboard now).total.tokenUsage
  popularity : ∀ now m, usageOf (db'.usageDashboard now).popularityTotal m =
    usageOf (db.usageDashboard now).popularityTotal m
  balances : db'.quotaAccounts = db.quotaAccounts
  untouched : ∀ q ∈ db.quotaReservations,
    q.state = .reserved ∨ (q.state = .settled ∧ q.settledAt.any (cutoff < ·)) →
      q ∈ db'.quotaReservations ∧ db'.ledgerOf q.id = db.ledgerOf q.id ∧
        db'.inferenceRequests.filter (·.reservationId = q.id) =
          db.inferenceRequests.filter (·.reservationId = q.id)

end Database

/-! ### The popularity of a model -/

/-- The counts of the rows of a model. -/
def countsOf (rows : List ModelUsage) (m : ModelId) : ℤ × ℤ × ℤ × ℤ :=
  (rows.map fun row => if row.modelId = m then row.counts else 0).sum

theorem counts_addRow (row item : ModelUsage) : (row.addRow item).counts = item.counts + row.counts := rfl

/-- A row is added to the item of its model. -/
theorem byModel_spec {items : List ModelUsage} (hn : (items.map ModelUsage.modelId).Nodup) (row : ModelUsage) :
    ((byModel items row).map ModelUsage.modelId).Nodup ∧
      ∀ m, countsOf (byModel items row) m = countsOf items m + (if row.modelId = m then row.counts else 0) ∧
        (m ∈ (byModel items row).map ModelUsage.modelId ↔
          m ∈ items.map ModelUsage.modelId ∨ m = row.modelId) := by
  unfold byModel
  split
  · rename_i hany
    obtain ⟨item, hitem, hid⟩ : ∃ item ∈ items, item.modelId = row.modelId := by simpa using hany
    have hlook := Table.lookup_of_mem hn hitem
    rw [hid] at hlook
    rw [@Table.map_key_modify _ _ _ ModelUsage.modelId _ row.addRow fun _ h => h]
    refine ⟨hn, fun m => ⟨?_, ?_⟩⟩
    · unfold countsOf
      rw [Table.sum_modify hn hlook, counts_addRow]
      simp only [ModelUsage.addRow, hid]
      split
      · abel
      · abel
    · constructor
      · exact .inl
      · rintro (hm | rfl)
        · exact hm
        · rw [← hid]
          exact List.mem_map_of_mem hitem
  · rename_i hany
    refine ⟨?_, fun m => ⟨?_, ?_⟩⟩
    · rw [List.map_append, List.nodup_append]
      refine ⟨hn, by simp, ?_⟩
      simpa using hany
    · unfold countsOf
      rw [List.map_append, List.sum_append]
      simp
    · simp

theorem foldl_byModel : ∀ (rows items : List ModelUsage),
    (items.map ModelUsage.modelId).Nodup →
      ((rows.foldl byModel items).map ModelUsage.modelId).Nodup ∧
        ∀ m, countsOf (rows.foldl byModel items) m = countsOf items m + countsOf rows m ∧
          (m ∈ (rows.foldl byModel items).map ModelUsage.modelId ↔
            m ∈ items.map ModelUsage.modelId ∨ m ∈ rows.map ModelUsage.modelId)
  | [], items, hn => by
    refine ⟨hn, fun m => ⟨?_, ?_⟩⟩
    · simp [countsOf]
    · simp
  | row :: rows, items, hn => by
    obtain ⟨hn1, h1⟩ := byModel_spec hn row
    obtain ⟨hn2, h2⟩ := foldl_byModel rows _ hn1
    refine ⟨hn2, fun m => ⟨?_, ?_⟩⟩
    · rw [List.foldl_cons, (h2 m).1, (h1 m).1, add_assoc]
      rfl
    · rw [List.foldl_cons, (h2 m).2, (h1 m).2, List.map_cons, List.mem_cons, or_assoc]

/-- The popularity list shows a model if one of the rows does, with the counts
of its rows. -/
theorem usageOf_popularity (rows : List ModelUsage) (m : ModelId) :
    usageOf (popularity rows) m =
      if m ∈ rows.map ModelUsage.modelId then some (countsOf rows m) else none := by
  obtain ⟨hn, hfold⟩ := foldl_byModel rows [] List.nodup_nil
  obtain ⟨hcounts, hmem⟩ := hfold m
  have hperm := List.mergeSort_perm (rows.foldl byModel []) rankedBefore
  have hitems : (popularity rows).map (·.usage) = (rows.foldl byModel []).mergeSort rankedBefore := by
    simp only [popularity, List.map_map]
    exact List.zipIdx_map_fst _ _
  have hn' : (((rows.foldl byModel []).mergeSort rankedBefore).map ModelUsage.modelId).Nodup :=
    ((hperm.map _).nodup_iff).mpr hn
  unfold usageOf
  rw [hitems]
  by_cases h : m ∈ rows.map ModelUsage.modelId
  · obtain ⟨item, hitem, rfl⟩ := List.mem_map.mp (hmem.mpr (.inr h))
    have hself : countsOf (rows.foldl byModel []) item.modelId = item.counts :=
      Table.sum_of_key hn (Table.lookup_of_mem hn hitem) ModelUsage.counts
    rw [Table.lookup_of_mem hn' (hperm.mem_iff.mpr hitem), if_pos h, Option.map_some, ← hself, hcounts]
    simp [countsOf]
  · rw [if_neg h, Option.map_eq_none_iff, Table.lookup_none]
    intro item hitem hid
    have hm : m ∈ (rows.foldl byModel []).map ModelUsage.modelId := by
      rw [← hid]
      exact List.mem_map_of_mem (hperm.mem_iff.mp hitem)
    rcases hmem.mp hm with hnil | hrow
    · cases hnil
    · exact h hrow

namespace Database

variable {p : AccountId × KeyId × ModelId → Bool} {g : Metrics → ℤ} {db db' : Database}

/-! ### Which accounts, keys and models appear -/

/-- There is a settled reservation or a 'total' summary of the accounts, keys and
models that meet `p`. -/
def present (p : AccountId × KeyId × ModelId → Bool) (db : Database) : Prop :=
  (∃ q ∈ db.quotaReservations, q.state = .settled ∧ p (q.accountId, q.keyId, q.modelId) = true) ∨
    ∃ s ∈ db.usageSummaries, s.window = .total ∧ p (s.accountId, s.keyId, s.modelId) = true

/-- The group of an eligible reservation is one of the summary rows. -/
theorem key_mem_summaryRows {cutoff : Datetime} {q : QuotaReservation} (hq : q ∈ db.quotaReservations)
    (helig : eligible cutoff q = true) :
    (.total, q.accountId, q.keyId, q.modelId) ∈ (db.summaryRows cutoff).map UsageSummary.key := by
  obtain ⟨row, hrow⟩ := List.exists_mem_of_ne_nil _ (joinRequests_ne_nil db.inferenceRequests q)
  have hmem : row ∈ db.eligibleRows cutoff :=
    List.mem_flatMap.mpr ⟨q, List.mem_filter.mpr ⟨hq, helig⟩, hrow⟩
  have hkey : groupKey row ∈ Table.groups groupKey (db.eligibleRows cutoff) :=
    Table.mem_groups.mpr ⟨row, hmem, rfl⟩
  unfold summaryRows
  rw [List.map_map, List.mem_map]
  refine ⟨groupKey row, hkey, ?_⟩
  rw [← fst_of_mem_joinRequests hrow]
  rfl

theorem present_summarize {through : Cutoff} {now : Datetime} {report : SummaryReport}
    (hok : db.summarizeUsage through now = .ok (db', report)) : present p db' ↔ present p db := by
  obtain ⟨cutoff, summaries, start, -, -, hfold, rfl⟩ := summarizeUsage_ok hok
  have hfound : ∀ k : AccountId × KeyId × ModelId, p k = true →
      (SummaryWindow.total, k) ∈ summaries.map UsageSummary.key →
        ∃ s ∈ summaries, s.window = .total ∧ p (s.accountId, s.keyId, s.modelId) = true := by
    intro k hk hmem
    obtain ⟨s, hs, hkey⟩ := List.mem_map.mp hmem
    obtain ⟨hw, rfl⟩ := Prod.mk.inj hkey
    exact ⟨s, hs, hw, hk⟩
  constructor
  · rintro (⟨q, hq, hs, hp⟩ | ⟨s, hs, hw, hp⟩)
    · exact .inl ⟨q, List.mem_of_mem_filter hq, hs, hp⟩
    · rcases mem_summaries hfold hs with ⟨r, hr, hk⟩ | ⟨q, hq, helig, hk⟩
      · obtain ⟨hrw, hrk⟩ := Prod.mk.inj hk
        refine .inr ⟨r, hr, hrw.trans hw, ?_⟩
        rw [hrk]
        exact hp
      · simp only [eligible, decide_eq_true_eq] at helig
        refine .inl ⟨q, hq, helig.1, ?_⟩
        rw [← (Prod.mk.inj hk).2]
        exact hp
  · rintro (⟨q, hq, hs, hp⟩ | ⟨s, hs, hw, hp⟩)
    · by_cases helig : eligible cutoff q = true
      · exact .inr (hfound _ hp ((foldlM_upsert_key hfold _).mpr (.inr (key_mem_summaryRows hq helig))))
      · exact .inl ⟨q, List.mem_filter.mpr ⟨hq, by simpa using helig⟩, hs, hp⟩
    · have hkept : s ∈ db.usageSummaries.filter (·.window ≠ .current) :=
        List.mem_filter.mpr ⟨hs, by simp [hw]⟩
      have hkey := List.mem_map_of_mem (f := UsageSummary.key) hkept
      rw [UsageSummary.key, hw] at hkey
      exact .inr (hfound _ hp ((foldlM_upsert_key hfold _).mpr (.inl hkey)))

/-! ### The lifetime views -/

/-- A lifetime view shows the column totals of what is present. -/
theorem lifetimeUsage_eq (h1 : OneRequest db) {settled : QuotaReservation → Bool}
    {summarized : UsageSummary → Bool} (hq : ∀ q, settled q = p (q.accountId, q.keyId, q.modelId))
    (hs : ∀ s, summarized s = p (s.accountId, s.keyId, s.modelId)) :
    (present p db → db.lifetimeUsage settled summarized =
      some ⟨db.columnTotal p Metrics.chargedTokens, db.columnTotal p Metrics.requestCount⟩) ∧
    (¬ present p db → db.lifetimeUsage settled summarized = none) := by
  obtain rfl : settled = _ := funext hq
  obtain rfl : summarized = _ := funext hs
  rw [columnTotal_eq h1 (v := fun q => q.actualTokens.getD 0) fun _ => rfl,
    columnTotal_eq h1 (v := fun _ => 1) fun _ => rfl]
  unfold lifetimeUsage
  simp only [List.append_eq_nil_iff, List.map_eq_nil_iff, List.map_append, List.map_map, List.sum_append]
  constructor
  · intro hpresent
    rw [if_neg]
    · rfl
    · rintro ⟨hnone, hnone'⟩
      rcases hpresent with ⟨q, hq, hstate, hp⟩ | ⟨s, hs, hw, hp⟩
      · have hmem := List.filter_eq_nil_iff.mp hnone q hq
        simp [hstate, hp] at hmem
      · have hmem := List.filter_eq_nil_iff.mp hnone' s hs
        simp [hw, hp] at hmem
  · intro habsent
    rw [if_pos]
    constructor
    · rw [List.filter_eq_nil_iff]
      intro q hq h
      simp only [decide_eq_true_eq] at h
      exact habsent (.inl ⟨q, hq, h.1, h.2⟩)
    · rw [List.filter_eq_nil_iff]
      intro s hs h
      simp only [decide_eq_true_eq] at h
      exact habsent (.inr ⟨s, hs, h.1, h.2⟩)

/-! ### The rows of the dashboard -/

theorem joinModel_eq (h : Stored db) {id : ModelId} (hid : id ∈ db.modelCatalog.map (·.id)) :
    ∃ m, db.joinModel id = [m] := by
  obtain ⟨m, hm, rfl⟩ := List.mem_map.mp hid
  exact ⟨m, Table.filter_key h.modelIds hm⟩

/-- The join with the catalog neither drops nor repeats a settled row. -/
theorem rawJoin_rows (h : Stored db) : db.rawJoin.map (·.2) = db.settledRows := by
  unfold rawJoin settledRows
  rw [List.map_flatMap]
  refine List.flatMap_congr fun q hq => ?_
  obtain ⟨m, hm⟩ := joinModel_eq h (h.referenced.models q (List.mem_of_mem_filter hq))
  simp [hm, Function.comp_def]

theorem summaryJoin_rows (h : Stored db) :
    db.summaryJoin.map (·.2) = db.usageSummaries.filter (·.window = .total) := by
  unfold summaryJoin
  rw [List.map_flatMap]
  conv_rhs => rw [← List.flatMap_singleton' (db.usageSummaries.filter (·.window = .total))]
  refine List.flatMap_congr fun s hs => ?_
  obtain ⟨m, hm⟩ := joinModel_eq h (h.referenced.summaryModels s (List.mem_of_mem_filter hs))
  simp [hm]

theorem sum_rawRows (h : Stored db) (hg : Metrics.Counter g) (pm : ModelId → Bool) :
    (db.rawRows.map fun row => if pm row.key.1 then g row.metrics else 0).sum =
      (db.settledRows.map (rowColumn (fun k => pm k.2.2) g)).sum := by
  unfold rawRows
  rw [List.map_map]
  have hsum := sum_grouped hg rawKey (fun row => rowMetrics row.2) (fun k => pm k.1) db.rawJoin
  rw [← rawJoin_rows h, List.map_map]
  exact hsum

theorem sum_summaryModels (h : Stored db) (hg : Metrics.Counter g) {c : ModelUsage → ℤ}
    (hc : ∀ k m, c (.ofMetrics k m) = g m) (pm : ModelId → Bool) :
    (db.summaryModels.map fun row => if pm row.modelId then c row else 0).sum =
      (db.usageSummaries.map (column (fun k => pm k.2.2) g)).sum := by
  have hsum := sum_grouped hg summaryKey (fun row => row.2.metrics) (fun k => pm k.1) db.summaryJoin
  have hcolumn : (db.usageSummaries.map (column (fun k => pm k.2.2) g)).sum =
      ((db.usageSummaries.filter (·.window = .total)).map fun s => if pm s.modelId then g s.metrics else 0).sum := by
    rw [Table.sum_filter]
    congr 1
    refine List.map_congr_left fun s _ => ?_
    by_cases hw : s.window = .total
    · simp [column, hw]
    · simp [column, hw]
  rw [hcolumn, ← summaryJoin_rows h, List.map_map]
  unfold summaryModels
  rw [List.map_map]
  simp only [Function.comp_def, hc]
  exact hsum

/-- The metrics of the total window are column totals. -/
theorem total_metrics (h : Stored db) (hg : Metrics.Counter g) (now : Datetime) :
    g (db.usageDashboard now).total.metrics = db.columnTotal (fun _ => true) g := by
  have hraw := sum_rawRows h hg fun _ => true
  simp only [if_true] at hraw
  have hsummaries : ((db.usageSummaries.filter (·.window = .total)).map fun s => g s.metrics).sum =
      (db.usageSummaries.map (column (fun _ => true) g)).sum := by
    rw [Table.sum_filter]
    congr 1
    refine List.map_congr_left fun s _ => ?_
    simp [column]
  simp only [usageDashboard, windowPayload]
  rw [hg.add, hg.sum, hg.sum, List.map_map, List.map_map]
  simp only [Function.comp_def]
  rw [hraw, hsummaries, columnTotal, add_comm]

/-- One count of a model over the rows of the total popularity. -/
theorem sum_popularityRows (h : Stored db) (hg : Metrics.Counter g) {c : ModelUsage → ℤ}
    (hc : ∀ k m, c (.ofMetrics k m) = g m) (m : ModelId) :
    ((db.summaryModels ++ db.rawRows.map fun row => ModelUsage.ofMetrics row.key row.metrics).map
        fun row => if row.modelId = m then c row else 0).sum = db.columnTotal (fun k => k.2.2 = m) g := by
  have hraw := sum_rawRows h hg fun id => id = m
  have hsummaries := sum_summaryModels h hg hc fun id => id = m
  simp only [decide_eq_true_eq] at hraw hsummaries
  rw [List.map_append, List.sum_append, hsummaries, List.map_map]
  simp only [Function.comp_def, hc, ModelUsage.ofMetrics_modelId]
  rw [hraw, columnTotal, add_comm]

theorem mem_popularityRows (h : Stored db) (m : ModelId) :
    m ∈ (db.summaryModels ++ db.rawRows.map fun row => ModelUsage.ofMetrics row.key row.metrics).map
        ModelUsage.modelId ↔ present (fun k => k.2.2 = m) db := by
  have hsummary : m ∈ db.summaryModels.map ModelUsage.modelId ↔
      ∃ s ∈ db.usageSummaries, s.window = .total ∧ s.modelId = m := by
    have hrows : m ∈ db.summaryModels.map ModelUsage.modelId ↔
        m ∈ (db.summaryJoin.map (·.2)).map UsageSummary.modelId := by
      unfold summaryModels
      simp only [List.map_map, List.mem_map, Table.mem_groups, Function.comp_apply, ModelUsage.ofMetrics_modelId]
      constructor
      · rintro ⟨k, ⟨row, hrow, rfl⟩, rfl⟩
        exact ⟨row, hrow, rfl⟩
      · rintro ⟨row, hrow, rfl⟩
        exact ⟨summaryKey row, ⟨row, hrow, rfl⟩, rfl⟩
    rw [hrows, summaryJoin_rows h]
    simp [and_assoc]
  have hraw : m ∈ (db.rawRows.map fun row => ModelUsage.ofMetrics row.key row.metrics).map
      ModelUsage.modelId ↔ ∃ q ∈ db.quotaReservations, q.state = .settled ∧ q.modelId = m := by
    have hrows : m ∈ (db.rawRows.map fun row => ModelUsage.ofMetrics row.key row.metrics).map
        ModelUsage.modelId ↔ m ∈ (db.rawJoin.map (·.2)).map (·.1.modelId) := by
      unfold rawRows
      simp only [List.map_map, List.mem_map, Table.mem_groups, Function.comp_apply, ModelUsage.ofMetrics_modelId]
      constructor
      · rintro ⟨k, ⟨row, hrow, rfl⟩, rfl⟩
        exact ⟨row, hrow, rfl⟩
      · rintro ⟨row, hrow, rfl⟩
        exact ⟨rawKey row, ⟨row, hrow, rfl⟩, rfl⟩
    rw [hrows, rawJoin_rows h, settledRows]
    simp only [List.mem_map, List.mem_flatMap, List.mem_filter, decide_eq_true_eq]
    constructor
    · rintro ⟨row, ⟨q, ⟨hq, hs⟩, hrow⟩, rfl⟩
      rw [← fst_of_mem_joinRequests hrow] at hq hs
      exact ⟨row.1, hq, hs, rfl⟩
    · rintro ⟨q, hq, hs, rfl⟩
      obtain ⟨row, hrow⟩ := List.exists_mem_of_ne_nil _ (joinRequests_ne_nil db.inferenceRequests q)
      exact ⟨row, ⟨q, ⟨hq, hs⟩, hrow⟩, by rw [fst_of_mem_joinRequests hrow]⟩
  rw [List.map_append, List.mem_append, hsummary, hraw, or_comm]
  simp [present]

theorem countsOf_eq (rows : List ModelUsage) (m : ModelId) :
    countsOf rows m =
      ((rows.map fun row => if row.modelId = m then row.requestCount else 0).sum,
        (rows.map fun row => if row.modelId = m then row.chargedTokens else 0).sum,
        (rows.map fun row => if row.modelId = m then row.promptTokens else 0).sum,
        (rows.map fun row => if row.modelId = m then row.completionTokens else 0).sum) := by
  unfold countsOf
  induction rows with
  | nil => rfl
  | cons row rows ih =>
    simp only [List.map_cons, List.sum_cons]
    rw [ih]
    by_cases h : row.modelId = m
    · simp [h, ModelUsage.counts]
    · simp [h]

/-- The total popularity shows the column totals of the models that are present. -/
theorem usageOf_total (h : Stored db) (now : Datetime) (m : ModelId) :
    (present (fun k => k.2.2 = m) db → usageOf (db.usageDashboard now).popularityTotal m =
      some (db.columnTotal (fun k => k.2.2 = m) Metrics.requestCount,
        db.columnTotal (fun k => k.2.2 = m) Metrics.chargedTokens,
        db.columnTotal (fun k => k.2.2 = m) Metrics.promptTokens,
        db.columnTotal (fun k => k.2.2 = m) Metrics.completionTokens)) ∧
    (¬ present (fun k => k.2.2 = m) db → usageOf (db.usageDashboard now).popularityTotal m = none) := by
  have hmem := mem_popularityRows h m
  simp only [usageDashboard]
  rw [usageOf_popularity, countsOf_eq]
  constructor
  · intro hp
    rw [if_pos (hmem.mpr hp), sum_popularityRows h (g := Metrics.requestCount) ⟨rfl, fun _ _ => rfl⟩ fun _ _ => rfl,
      sum_popularityRows h (g := Metrics.chargedTokens) ⟨rfl, fun _ _ => rfl⟩ fun _ _ => rfl,
      sum_popularityRows h (g := Metrics.promptTokens) ⟨rfl, fun _ _ => rfl⟩ fun _ _ => rfl,
      sum_popularityRows h (g := Metrics.completionTokens) ⟨rfl, fun _ _ => rfl⟩ fun _ _ => rfl]
  · intro hp
    rw [if_neg (hmem.not.mpr hp)]

/-! ### What a summary preserves -/

/-- **A summary loses and double-counts nothing.** In every database that calls
reach, an accepted summary leaves the lifetime usage, the totals of the
dashboard, the balances and the rows that it does not count as they were. -/
theorem summarize_preserves (calls : List Call) (db : Database) (hrun : exec call {} calls = some db)
    (through : Cutoff) (now : Datetime) (db' : Database) (report : SummaryReport)
    (hok : db.summarizeUsage through now = .ok (db', report)) :
    ∃ cutoff, through = .aware cutoff ∧ Preserved db db' cutoff := by
  have h : Stored db := stored_of_calls hrun
  have h' : Stored db' := by
    refine stored_call (c := .quota (.summarizeUsage through now)) h ?_
    rw [call, step, run, hok]
    rfl
  have hcolumn : ∀ p g, Metrics.Counter g → db'.columnTotal p g = db.columnTotal p g := fun p g hg =>
    summarizeUsage_columnTotal hg h.wf.reservationIds h.wf.summaryKeys hok
  have hlifetime : ∀ (p : AccountId × KeyId × ModelId → Bool) settled summarized,
      (∀ q : QuotaReservation, settled q = p (q.accountId, q.keyId, q.modelId)) →
      (∀ s : UsageSummary, summarized s = p (s.accountId, s.keyId, s.modelId)) →
      db'.lifetimeUsage settled summarized = db.lifetimeUsage settled summarized := by
    intro p settled summarized hq hs
    obtain ⟨hsome, hnone⟩ := lifetimeUsage_eq h.wf.oneRequest hq hs
    obtain ⟨hsome', hnone'⟩ := lifetimeUsage_eq h'.wf.oneRequest hq hs
    by_cases hp : present p db
    · rw [hsome hp, hsome' ((present_summarize hok).mpr hp), hcolumn p _ ⟨rfl, fun _ _ => rfl⟩,
        hcolumn p _ ⟨rfl, fun _ _ => rfl⟩]
    · rw [hnone hp, hnone' ((present_summarize hok).not.mpr hp)]
  have htotal : ∀ now g, Metrics.Counter g →
      g (db'.usageDashboard now).total.metrics = g (db.usageDashboard now).total.metrics := by
    intro now g hg
    rw [total_metrics h hg, total_metrics h' hg, hcolumn _ _ hg]
  have hpopularity : ∀ now m, usageOf (db'.usageDashboard now).popularityTotal m =
      usageOf (db.usageDashboard now).popularityTotal m := by
    intro now m
    obtain ⟨hsome, hnone⟩ := usageOf_total h now m
    obtain ⟨hsome', hnone'⟩ := usageOf_total h' now m
    by_cases hp : present (fun k => k.2.2 = m) db
    · rw [hsome hp, hsome' ((present_summarize hok).mpr hp), hcolumn _ _ ⟨rfl, fun _ _ => rfl⟩,
        hcolumn _ _ ⟨rfl, fun _ _ => rfl⟩, hcolumn _ _ ⟨rfl, fun _ _ => rfl⟩,
        hcolumn _ _ ⟨rfl, fun _ _ => rfl⟩]
    · rw [hnone hp, hnone' ((present_summarize hok).not.mpr hp)]
  obtain ⟨cutoff, summaries, start, rfl, -, -, rfl⟩ := summarizeUsage_ok hok
  refine ⟨cutoff, rfl, fun a => ?_, fun k => ?_, fun now g hg => ?_, fun now => ?_, hpopularity, rfl, ?_⟩
  · exact hlifetime (fun k => k.1 = a) _ _ (fun _ => rfl) fun _ => rfl
  · exact hlifetime (fun k' => k'.2.1 = k) _ _ (fun _ => rfl) fun _ => rfl
  · exact htotal now g (Metrics.counter_of_integers hg)
  · have hprompt := htotal now Metrics.promptTokens ⟨rfl, fun _ _ => rfl⟩
    have hcompletion := htotal now Metrics.completionTokens ⟨rfl, fun _ _ => rfl⟩
    exact congrArg₂ (· + ·) hprompt hcompletion
  · intro q hq hcase
    have hkeep : ¬ eligible cutoff q = true := by
      intro helig
      simp only [eligible, decide_eq_true_eq] at helig
      rcases hcase with hs | ⟨-, hlate⟩
      · simp [hs] at helig
      · rcases ht : q.settledAt with _ | t
        · simp [ht] at hlate
        · simp only [ht, Option.any_some, decide_eq_true_eq] at hlate helig
          exact absurd helig.2 (not_le.mpr hlate)
    have hnot := not_mem_eligibleIds h.wf.reservationIds hq hkeep
    refine ⟨List.mem_filter.mpr ⟨hq, by simpa using hkeep⟩, ?_,
      filter_deleteEligible h.wf.reservationIds hq hkeep⟩
    unfold ledgerOf deleteEligible
    simp only [List.filter_filter]
    refine List.filter_congr fun l _ => ?_
    by_cases hl : l.reservationId = q.id
    · simp [hl, hnot]
    · simp [hl]

/-- A request that was settled at 3, one that was cancelled at 7, and one in flight. -/
def partlySettled : List Call :=
  [.insertModel ⟨"m", "model", .available, none⟩,
   .quota (.createKey "k" "alice" .user "acct" "alice" "rio_k" 300 false),
   .quota (.reserveQuota "r1" "h1" ⟨"k", "acct"⟩ "m" 60 "q1" "l1"),
   .quota (.createInferenceRequest "r1" ⟨"k", "acct"⟩ "m" "q1" 60),
   .quota (.markRequestAdmitted "r1" "w" 1),
   .quota (.settleQuota "q1" 45 (some 5) (some 40) none "l2" 3),
   .quota (.reserveQuota "r2" "h2" ⟨"k", "acct"⟩ "m" 50 "q2" "l3"),
   .quota (.releaseReservation "q2" "client_cancelled" "l4" 7),
   .quota (.reserveQuota "r3" "h3" ⟨"k", "acct"⟩ "m" 30 "q3" "l5")]

theorem summarize_preserves_settled : ∃ db db' report, exec call {} partlySettled = some db ∧
    db.summarizeUsage (.aware 5) 9 = .ok (db', report) ∧
    ∃ cutoff, (Cutoff.aware 5) = .aware cutoff ∧ Preserved db db' cutoff := by
  obtain ⟨db, hdb, hsome⟩ : ∃ db, exec call {} partlySettled = some db ∧
      (db.summarizeUsage (.aware 5) 9).toOption.isSome = true := ⟨_, by rfl, by decide +kernel⟩
  cases hok : db.summarizeUsage (.aware 5) 9 with
  | error e =>
    rw [hok] at hsome
    cases hsome
  | ok result =>
    obtain ⟨db', report⟩ := result
    exact ⟨db, db', report, hdb, hok, summarize_preserves partlySettled db hdb _ _ db' report hok⟩

end Database
end LlmRio
