/-
# The two lifetime totals over a run

A summary adds its batch twice: row by row to the 'total' rows of
`usage_summaries`, in SQL, and as a whole to the 'total' row of
`usage_summary_periods`, in Python. Over every run both are the sum over the
reservations that summaries have removed, each with the request row it had
(`removed`), and the cutoffs of the accepted summaries increase
(`totals_agree`).

Key definitions: `removed`, `acceptedCutoffs`, `TotalsAgree`, `Frame`.
Key theorems: `frame_step`, `call_summary`, `summary_totals`, `totals_agree`.
-/
import LlmRio.Storage.Catalog

namespace LlmRio

open Runs Transactions

namespace Database

/-- The request row of a reservation. -/
def requestOf (db : Database) (q : QuotaReservation) : Option InferenceRequest :=
  Table.lookup InferenceRequest.reservationId q.id db.inferenceRequests

/-- The reservations that are no longer in the table, with their request rows. -/
def removedBy (db db' : Database) : List (QuotaReservation × Option InferenceRequest) :=
  (db.quotaReservations.filter fun q => db'.quotaReservations.all (·.id ≠ q.id)).map fun q =>
    (q, db.requestOf q)

/-- The reservations that the calls remove. -/
def removed : Database → List Call → List (QuotaReservation × Option InferenceRequest)
  | _, [] => []
  | db, c :: cs => (call db c).elim [] fun db' => removedBy db db' ++ removed db' cs

/-- The cutoff of a summary that is accepted. -/
def accepted (db : Database) : Call → Option Datetime
  | .quota (.summarizeUsage (.aware cutoff) now) =>
    if (db.summarizeUsage (.aware cutoff) now).toOption.isSome then some cutoff else none
  | _ => none

def acceptedCutoffs : Database → List Call → List Datetime
  | _, [] => []
  | db, c :: cs => (accepted db c).toList ++ (call db c).elim [] fun db' => acceptedCutoffs db' cs

/-- The metric in the 'total' row of `usage_summary_periods`. -/
def periodTotal (db : Database) (g : Metrics → ℤ) : ℤ := (db.period? .total).elim 0 fun p => g p.metrics

/-- The metric over the 'total' rows of `usage_summaries`. -/
def summaryTotal (db : Database) (g : Metrics → ℤ) : ℤ :=
  ((db.usageSummaries.filter (·.window = .total)).map fun s => g s.metrics).sum

/-- The totals in `db` after the calls, and their accepted cutoffs. -/
structure TotalsAgree (calls : List Call) (db : Database) : Prop where
  period : ∀ g ∈ Metrics.integers, db.periodTotal g = db.summaryTotal g
  summaries : ∀ g ∈ Metrics.integers,
    db.summaryTotal g = ((removed {} calls).map fun row => g (rowMetrics row)).sum
  settled : ∀ row ∈ removed {} calls, row.1.state = .settled
  increasing : (acceptedCutoffs {} calls).Pairwise (· < ·)
  rejected : ∀ through now e, db.summarizeUsage through now = .error e →
    call db (.quota (.summarizeUsage through now)) = some db

/-! ### Calls that are not a summary -/

/-- The summaries stay, and no reservation is removed. -/
structure Frame (db db' : Database) : Prop where
  summaries : db'.usageSummaries = db.usageSummaries
  periods : db'.usageSummaryPeriods = db.usageSummaryPeriods
  reservations : ∀ id ∈ db.quotaReservations.map (·.id), id ∈ db'.quotaReservations.map (·.id)

variable {db db' db'' : Database} {g : Metrics → ℤ}

theorem Frame.refl (db : Database) : Frame db db := ⟨rfl, rfl, fun _ h => h⟩

theorem Frame.congr (h : Frame db db') (hs : db''.usageSummaries = db'.usageSummaries)
    (hp : db''.usageSummaryPeriods = db'.usageSummaryPeriods)
    (hq : db''.quotaReservations = db'.quotaReservations) : Frame db db'' :=
  ⟨hs.trans h.summaries, hp.trans h.periods, by rw [hq]; exact h.reservations⟩

theorem frame_accounts (db : Database) : AccountInvariant (Frame db) :=
  .of_rows fun _ _ _ _ h => h.congr rfl rfl rfl

theorem Frame.settleQuota (h : Frame db db') {rid : ReservationId} {n : ℤ} {p c : Option ℤ}
    {e : Option String} {lid : String} {now : Datetime}
    (hok : db'.settleQuota rid n p c e lid now = .ok db'') : Frame db db'' := by
  refine (frame_accounts db).settle h (fun d charged hd => ?_) hok
  refine ⟨hd.summaries, hd.periods, fun id hid => ?_⟩
  unfold closeReservation
  simp only
  rw [Table.map_modify_of_eq fun _ _ _ => by rfl]
  exact hd.reservations id hid

theorem frame_step {op : Op} (hop : ∀ through now, op ≠ .summarizeUsage through now)
    (hs : step db op = some db') : Frame db db' := by
  have h := Frame.refl db
  unfold step at hs
  split at hs
  case isFalse => cases hs
  case isTrue hlink =>
  cases hs
  cases op with
  | createKey | updateQuota | resetUsage => exact (frame_accounts db).run h rfl
  | reserveQuota =>
    refine (frame_accounts db).reserve h fun q d _ _ hok => ?_
    obtain ⟨-, -, -, rfl⟩ := insertReservation_ok hok
    refine ⟨rfl, rfl, fun id hid => ?_⟩
    rw [List.map_append]
    exact List.mem_append_left _ hid
  | createInferenceRequest | markRequestAdmitted =>
    exact rows_invariant (I := Frame db) (fun _ => h.congr rfl rfl rfl) rfl
  | settleQuota | releaseReservation | recoverOrphanedState =>
    exact settle_invariant h (fun hd hok => hd.settleQuota hok) rfl
  | summarizeUsage t now => exact absurd rfl (hop t now)

theorem Frame.removedBy_nil (h : Frame db db') : removedBy db db' = [] := by
  unfold removedBy
  rw [List.map_eq_nil_iff, List.filter_eq_nil_iff]
  intro q hq hall
  obtain ⟨q', hq', hid⟩ := List.mem_map.mp (h.reservations q.id (List.mem_map_of_mem hq))
  simpa [hid] using List.all_eq_true.mp hall q' hq'

/-- A call is an accepted summary, or it leaves the summaries and removes no
reservation. -/
theorem call_summary {c : Call} (hs : call db c = some db') :
    (∃ cutoff now report, accepted db c = some cutoff ∧
      db.summarizeUsage (.aware cutoff) now = .ok (db', report)) ∨
    (accepted db c = none ∧ Frame db db') := by
  by_cases hquota : ∃ through now, c = .quota (.summarizeUsage through now)
  · obtain ⟨through, now, rfl⟩ := hquota
    have hrun : db' = commit db ((db.summarizeUsage through now).map (·.1)) :=
      (Option.some.inj hs).symm
    cases hok : db.summarizeUsage through now with
    | error e =>
      rw [hok] at hrun
      subst hrun
      refine .inr ⟨?_, Frame.refl _⟩
      cases through with
      | naive => rfl
      | aware cutoff => simp [accepted, hok, Except.toOption]
    | ok result =>
      obtain ⟨d, report⟩ := result
      rw [hok] at hrun
      obtain rfl : db' = d := hrun
      obtain ⟨cutoff, -, -, rfl, -⟩ := summarizeUsage_ok hok
      exact .inl ⟨cutoff, now, report, by simp [accepted, hok, Except.toOption], hok⟩
  · push Not at hquota
    refine .inr ⟨?_, ?_⟩
    · unfold accepted
      split
      · exact absurd rfl (hquota _ _)
      · rfl
    · rcases call_cases hs with ⟨op, rfl, hstep⟩ | ⟨keys, rfl⟩ | ⟨m, -, rfl⟩ | ⟨id, f, -, rfl⟩
      · refine frame_step (fun through now hop => ?_) hstep
        rw [hop] at hquota
        exact hquota _ _ rfl
      · exact (Frame.refl db).congr rfl rfl rfl
      · exact (Frame.refl db).congr rfl rfl rfl
      · exact (Frame.refl db).congr rfl rfl rfl

/-! ### An accepted summary -/

theorem period?_upsert_self (rows : List UsageSummaryPeriod) (p : UsageSummaryPeriod) :
    Table.lookup UsageSummaryPeriod.window p.window (upsertPeriod rows p) = some p := by
  unfold upsertPeriod
  split
  · rename_i hany
    obtain ⟨r, hr, hw⟩ : ∃ r ∈ rows, r.window = p.window := by simpa using hany
    rw [Table.lookup_modify_self fun _ _ => rfl]
    cases hlook : Table.lookup UsageSummaryPeriod.window p.window rows with
    | none => exact absurd hw (Table.lookup_none.mp hlook r hr)
    | some _ => rfl
  · rename_i hany
    have hnone : Table.lookup UsageSummaryPeriod.window p.window rows = none :=
      Table.lookup_none.mpr fun r hr hw => hany (List.any_eq_true.mpr ⟨r, hr, by simpa using hw⟩)
    rw [Table.lookup_append, hnone]
    simp [Table.lookup_cons]

theorem period?_upsert_ne {rows : List UsageSummaryPeriod} {p : UsageSummaryPeriod} {w : SummaryWindow}
    (hw : w ≠ p.window) : Table.lookup UsageSummaryPeriod.window w (upsertPeriod rows p) =
      Table.lookup UsageSummaryPeriod.window w rows := by
  unfold upsertPeriod
  split
  · exact Table.lookup_modify_ne hw (fun _ _ => rfl) rows
  · rw [Table.lookup_append, Table.lookup_cons, if_neg hw.symm]
    simp

/-- An accepted summary advances the period, and it adds the metrics of its
groups to both totals. -/
theorem period?_summarize {cutoff now : Datetime} {report : SummaryReport}
    (hok : db.summarizeUsage (.aware cutoff) now = .ok (db', report)) :
    (∃ p, db'.period? .current = some p ∧ p.periodEnd = cutoff) ∧
      ∀ previous, db.period? .current = some previous → previous.periodEnd < cutoff := by
  obtain ⟨cutoff', summaries, start, hc, hlt, -, rfl⟩ := summarizeUsage_ok hok
  cases hc
  refine ⟨⟨⟨.current, cutoff, cutoff, now, 0⟩, ?_, rfl⟩, hlt⟩
  unfold period?
  simp only
  rw [period?_upsert_ne (by simp)]
  exact period?_upsert_self db.usageSummaryPeriods ⟨.current, cutoff, cutoff, now, 0⟩

/-- The rows that a summary counts are those that it removes. -/
theorem removedBy_summarize (hw : Wf db) {cutoff now : Datetime} {report : SummaryReport}
    (hok : db.summarizeUsage (.aware cutoff) now = .ok (db', report)) :
    removedBy db db' = db.eligibleRows cutoff := by
  obtain ⟨cutoff', summaries, start, hc, -, -, rfl⟩ := summarizeUsage_ok hok
  cases hc
  have hgone : (db.quotaReservations.filter fun q =>
      (db.deleteEligible cutoff).quotaReservations.all (·.id ≠ q.id)) =
        db.quotaReservations.filter (eligible cutoff) := by
    refine List.filter_congr fun q hq => ?_
    by_cases helig : eligible cutoff q = true
    · rw [helig, List.all_eq_true]
      intro q' hq'
      obtain ⟨hq', hkeep⟩ := List.mem_filter.mp hq'
      by_contra hid
      obtain rfl : q' = q := Table.eq_of_key hw.reservationIds hq' hq (by simpa using hid)
      simp [helig] at hkeep
    · rw [Bool.not_eq_true] at helig
      rw [helig, List.all_eq_false]
      exact ⟨q, List.mem_filter.mpr ⟨hq, by simp [helig]⟩, by simp⟩
  have hjoin : ∀ q ∈ db.quotaReservations.filter (eligible cutoff),
      joinRequests db.inferenceRequests q = [(q, db.requestOf q)] := by
    intro q hq
    have hone := hw.oneRequest q (List.mem_of_mem_filter hq)
    unfold joinRequests requestOf Table.lookup
    rw [← List.head?_filter]
    split
    · rename_i hnil
      rw [hnil]
      rfl
    · rename_i hne
      obtain ⟨r, hr⟩ := List.length_eq_one_iff.mp (le_antisymm hone (List.length_pos_iff.mpr hne))
      rw [hr]
      rfl
  unfold removedBy eligibleRows
  rw [List.flatMap_congr hjoin, ← List.map_eq_flatMap]
  simp only
  rw [hgone]

theorem summaryTotal_eq (db : Database) (g : Metrics → ℤ) :
    db.summaryTotal g = (db.usageSummaries.map (column (fun _ => true) g)).sum := by
  unfold summaryTotal
  rw [Table.sum_filter]
  congr 1
  refine List.map_congr_left fun s _ => ?_
  simp [column]

theorem summary_totals (hg : Metrics.Counter g) (hw : Wf db) {cutoff now : Datetime}
    {report : SummaryReport} (hok : db.summarizeUsage (.aware cutoff) now = .ok (db', report)) :
    db'.periodTotal g = db.periodTotal g + ((removedBy db db').map fun row => g (rowMetrics row)).sum ∧
      db'.summaryTotal g = db.summaryTotal g +
        ((removedBy db db').map fun row => g (rowMetrics row)).sum := by
  rw [removedBy_summarize hw hok, summaryTotal_eq, summaryTotal_eq]
  obtain ⟨cutoff', summaries, start, hc, -, hfold, rfl⟩ := summarizeUsage_ok hok
  cases hc
  have hrows : ((db.summaryRows cutoff).map (column (fun _ => true) g)).sum =
      ((db.eligibleRows cutoff).map (rowColumn (fun _ => true) g)).sum := sum_summaryRows hg cutoff
  have hrow : rowColumn (fun _ => true) g = fun row => g (rowMetrics row) := by
    funext row
    simp [rowColumn]
  rw [hrow] at hrows
  have hkept : ((db.usageSummaries.filter (·.window ≠ .current)).map UsageSummary.key).Nodup :=
    hw.summaryKeys.sublist (List.filter_sublist.map _)
  constructor
  · have hbatch : g ((db.summaryRows cutoff).map (·.metrics)).sum =
        ((db.summaryRows cutoff).map (column (fun _ => true) g)).sum := by
      rw [hg.sum, List.map_map]
      congr 1
      refine List.map_congr_left fun s hs => ?_
      obtain ⟨q, -, -, hk⟩ := mem_summaryRows hs
      have hwindow : s.window = .total := (Prod.mk.inj hk).1
      simp [column, hwindow]
    have hperiod : g ((db.period? .total).elim 0 (·.metrics)) = db.periodTotal g := by
      unfold periodTotal
      cases db.period? .total with
      | none => exact hg.zero
      | some p => rfl
    calc _ = g ((db.period? .total).elim 0 (·.metrics) + ((db.summaryRows cutoff).map (·.metrics)).sum) := by
          unfold periodTotal
          have hlook := period?_upsert_self (upsertPeriod db.usageSummaryPeriods
            ⟨.current, cutoff, cutoff, now, 0⟩) ⟨.total, start, cutoff, now,
              (db.period? .total).elim 0 (·.metrics) + ((db.summaryRows cutoff).map (·.metrics)).sum⟩
          simp only [period?] at hlook ⊢
          rw [hlook]
          rfl
      _ = _ := by rw [hg.add, hbatch, hrows, hperiod]
  · have hsum := foldlM_upsert_sum (addsUp_column (p := fun _ => true) hg) hfold hkept
    rw [sum_filter_total, hrows] at hsum
    exact hsum

/-! ### Runs -/

/-- Over a run both totals grow by what the run removes. -/
theorem run_totals (hg : Metrics.Counter g) : ∀ (calls : List Call) (db db' : Database), Stored db →
    exec call db calls = some db' →
      db'.periodTotal g = db.periodTotal g + ((removed db calls).map fun row => g (rowMetrics row)).sum ∧
        db'.summaryTotal g = db.summaryTotal g +
          ((removed db calls).map fun row => g (rowMetrics row)).sum
  | [], db, db', _, h => by
    cases h
    simp [removed]
  | c :: calls, db, db', hdb, h => by
    obtain ⟨db1, h1, h2⟩ := (exec_cons call).mp h
    obtain ⟨hperiod, hsummary⟩ := run_totals hg calls db1 db' (stored_call hdb h1) h2
    have hstep : db1.periodTotal g = db.periodTotal g +
          ((removedBy db db1).map fun row => g (rowMetrics row)).sum ∧
        db1.summaryTotal g = db.summaryTotal g +
          ((removedBy db db1).map fun row => g (rowMetrics row)).sum := by
      rcases call_summary h1 with ⟨cutoff, now, report, -, hok⟩ | ⟨-, hframe⟩
      · exact summary_totals hg hdb.wf hok
      · rw [hframe.removedBy_nil]
        unfold periodTotal summaryTotal period?
        rw [hframe.periods, hframe.summaries]
        simp
    rw [removed, h1, Option.elim_some, List.map_append, List.sum_append, hperiod, hsummary, hstep.1, hstep.2]
    constructor
    · omega
    · omega

theorem run_settled : ∀ (calls : List Call) (db : Database), Stored db →
    ∀ row ∈ removed db calls, row.1.state = .settled
  | [], _, _, row, hrow => by cases hrow
  | c :: calls, db, hdb, row, hrow => by
    rw [removed] at hrow
    cases h1 : call db c with
    | none => simp [h1] at hrow
    | some db1 =>
      rw [h1, Option.elim_some, List.mem_append] at hrow
      rcases hrow with hrow | hrow
      · rcases call_summary h1 with ⟨cutoff, now, report, -, hok⟩ | ⟨-, hframe⟩
        · rw [removedBy_summarize hdb.wf hok] at hrow
          obtain ⟨q, hq, hrow⟩ := List.mem_flatMap.mp hrow
          have helig := (List.mem_filter.mp hq).2
          simp only [eligible, decide_eq_true_eq] at helig
          rw [fst_of_mem_joinRequests hrow]
          exact helig.1
        · rw [hframe.removedBy_nil] at hrow
          cases hrow
      · exact run_settled calls db1 (stored_call hdb h1) row hrow

/-- The accepted cutoffs of a run increase, from the end of the last period on. -/
theorem run_cutoffs : ∀ (calls : List Call) (db : Database),
    (acceptedCutoffs db calls).Pairwise (· < ·) ∧
      ∀ cutoff ∈ acceptedCutoffs db calls, ∀ p, db.period? .current = some p → p.periodEnd < cutoff
  | [], _ => by simp [acceptedCutoffs]
  | c :: calls, db => by
    unfold acceptedCutoffs
    cases h1 : call db c with
    | none =>
      have hnone : accepted db c = none := by
        unfold accepted
        split
        · simp [call, step, Op.linked] at h1
        · rfl
      simp [hnone]
    | some db1 =>
      obtain ⟨hsorted, hlater⟩ := run_cutoffs calls db1
      rw [Option.elim_some]
      rcases call_summary h1 with ⟨cutoff, now, report, hacc, hok⟩ | ⟨hacc, hframe⟩
      · obtain ⟨⟨p, hp, rfl⟩, hprev⟩ := period?_summarize hok
        rw [hacc, Option.toList_some, List.singleton_append]
        refine ⟨List.pairwise_cons.mpr ⟨fun c hc => hlater c hc p hp, hsorted⟩, ?_⟩
        intro c hc previous hprevious
        rcases List.mem_cons.mp hc with rfl | hc
        · exact hprev previous hprevious
        · exact lt_trans (hprev previous hprevious) (hlater c hc p hp)
      · rw [hacc, Option.toList_none, List.nil_append]
        refine ⟨hsorted, fun c hc p hp => hlater c hc p ?_⟩
        unfold period? at hp ⊢
        rw [hframe.periods]
        exact hp

/-- **The two lifetime totals agree.** After every run both are the sum over
the reservations that its summaries have removed, each counted once with the
request row it had; its accepted cutoffs increase, and a summary that is
rejected changes nothing. -/
theorem totals_agree (calls : List Call) (db : Database) (hrun : exec call {} calls = some db) :
    TotalsAgree calls db := by
  have hempty : Stored {} := stored_empty
  have htotals : ∀ g ∈ Metrics.integers,
      db.periodTotal g = ((removed {} calls).map fun row => g (rowMetrics row)).sum ∧
        db.summaryTotal g = ((removed {} calls).map fun row => g (rowMetrics row)).sum := by
    intro g hg
    obtain ⟨hperiod, hsummary⟩ := run_totals (Metrics.counter_of_integers hg) calls {} db hempty hrun
    rw [hperiod, hsummary]
    exact ⟨zero_add _, zero_add _⟩
  refine ⟨fun g hg => ?_, fun g hg => (htotals g hg).2, run_settled calls {} hempty, (run_cutoffs calls {}).1, ?_⟩
  · rw [(htotals g hg).1, (htotals g hg).2]
  · intro through now e he
    rw [call, step, run, he]
    rfl

/-- Two summaries, a cutoff that does not advance and one without timezone, and
a request that is settled between the summaries. -/
def twoSummaries : List Call :=
  [.insertModel ⟨"m", "model", .available, none⟩,
   .quota (.createKey "k" "alice" .user "acct" "alice" "rio_k" 300 false),
   .quota (.reserveQuota "r1" "h1" ⟨"k", "acct"⟩ "m" 60 "q1" "l1"),
   .quota (.createInferenceRequest "r1" ⟨"k", "acct"⟩ "m" "q1" 60),
   .quota (.markRequestAdmitted "r1" "w" 1),
   .quota (.reserveQuota "r2" "h2" ⟨"k", "acct"⟩ "m" 50 "q2" "l2"),
   .quota (.settleQuota "q1" 45 (some 5) (some 40) none "l3" 3),
   .quota (.summarizeUsage (.aware 5) 6),
   .quota (.summarizeUsage (.aware 4) 6),
   .quota (.releaseReservation "q2" "client_cancelled" "l4" 7),
   .quota (.summarizeUsage .naive 8),
   .quota (.summarizeUsage (.aware 9) 10)]

theorem totals_agree_twice : ∃ db, exec call {} twoSummaries = some db ∧ TotalsAgree twoSummaries db :=
  ⟨_, by rfl, totals_agree twoSummaries _ (by rfl)⟩

example : acceptedCutoffs {} twoSummaries = [5, 9] := by decide +kernel

end Database
end LlmRio
