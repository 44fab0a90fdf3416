/-
# The timestamps that a summary compares

`settled_at` and `period_end` are stored as the texts that `isoformat` wrote,
and `summarize_usage_records` compares the texts: SQLite the `settled_at` of a
row with the cutoff, and Python the cutoff with the `period_end` of the last
summary. Texts are ordered as their times are (`Stamp.le_iff`). So tables of
texts that store a database (`Stores`) have the rows selected and the cutoff
refused that the times say, and they store the database after the summary
(`stores_summarized`). After every run of calls whose clock readings and
cutoffs are UTC datetimes the database is so stored (`exists_stores`).

Key definitions: `TextTables`, `Stores`, `Clocked`.
Key theorems: `selected_eq`, `refuses_iff`, `stores_summarized`,
`exists_stores`, `stored_timestamps`.
-/
import LlmRio.Lib.Timestamps
import LlmRio.Storage.Totals

namespace LlmRio

open Runs Timestamps Transactions

/-- The text is what `isoformat` writes at the time. -/
def Stamp (text : String) (t : Datetime) : Prop := ∃ u : Utc, u.isoformat = text ∧ u.time = t

/-- The columns of a row of `quota_reservations` that a summary compares. -/
structure ReservationText where
  id : ReservationId
  state : ReservationState
  settledAt : Option String

/-- The end of a row of `usage_summary_periods`. -/
structure PeriodText where
  window : SummaryWindow
  periodEnd : String

structure TextTables where
  reservations : List ReservationText := []
  periods : List PeriodText := []

namespace TextTables

/-- `state = 'SETTLED' AND settled_at IS NOT NULL AND settled_at <= ?` -/
def eligible (cutoff : String) (q : ReservationText) : Bool := q.state = .settled ∧ q.settledAt.any (· ≤ cutoff)

/-- The ids of the rows that are counted and deleted. -/
def selected (T : TextTables) (cutoff : String) : List ReservationId :=
  (T.reservations.filter (eligible cutoff)).map (·.id)

/-- `previous_current is not None and cutoff <= str(previous_current["period_end"])` -/
def refuses (T : TextTables) (cutoff : String) : Bool :=
  (Table.lookup PeriodText.window .current T.periods).any (cutoff ≤ ·.periodEnd)

def upsertEnd (rows : List PeriodText) (e : PeriodText) : List PeriodText :=
  if rows.any (·.window = e.window) then Table.modify PeriodText.window e.window (fun _ => e) rows else rows ++ [e]

/-- The tables after a summary. -/
def summarized (T : TextTables) (cutoff : String) : TextTables where
  reservations := T.reservations.filter fun q => ¬ eligible cutoff q
  periods := upsertEnd (upsertEnd T.periods ⟨.current, cutoff⟩) ⟨.total, cutoff⟩

end TextTables

namespace Database

def StoresReservation (r : ReservationText) (q : QuotaReservation) : Prop :=
  r.id = q.id ∧ r.state = q.state ∧ Option.Rel Stamp r.settledAt q.settledAt

def StoresPeriod (e : PeriodText) (p : UsageSummaryPeriod) : Prop :=
  e.window = p.window ∧ Stamp e.periodEnd p.periodEnd

/-- The tables have the rows of the database, with the texts of its times. -/
structure Stores (T : TextTables) (db : Database) : Prop where
  reservations : List.Forall₂ StoresReservation T.reservations db.quotaReservations
  periods : List.Forall₂ StoresPeriod T.periods db.usageSummaryPeriods

/-- The times of the call that are stored as `settled_at` or `period_end` are
those of UTC datetimes. -/
def Op.Clocked : Op → Prop
  | .settleQuota _ _ _ _ _ _ now | .releaseReservation _ _ _ now | .recoverOrphanedState _ now =>
    ∃ u : Utc, u.time = now
  | .summarizeUsage (.aware cutoff) _ => ∃ u : Utc, u.time = cutoff
  | _ => True

def Call.Clocked : Call → Prop
  | .quota op => op.Clocked
  | _ => True

end Database

/-! ### The order of the texts -/

variable {s s' : String} {t t' : Datetime}

theorem Stamp.le_iff (h : Stamp s t) (h' : Stamp s' t') : s ≤ s' ↔ t ≤ t' := by
  obtain ⟨a, rfl, rfl⟩ := h
  obtain ⟨b, rfl, rfl⟩ := h'
  rw [Utc.strictMono_isoformat.le_iff_le, Utc.strictMono_time.le_iff_le]

namespace Database

open TextTables

variable {T : TextTables} {db db' : Database} {text : String}

theorem any_stored {x : Option String} {y : Option Datetime} (h : Option.Rel Stamp x y) (hcutoff : Stamp text t) :
    x.any (· ≤ text) = y.any (· ≤ t) := by
  cases h with
  | none => rfl
  | some hstamp =>
    rw [Option.any_some, Option.any_some]
    exact decide_eq_decide.mpr (hstamp.le_iff hcutoff)

/-- A row of texts is eligible if the row that it stores is. -/
theorem StoresReservation.eligible {r : ReservationText} {q : QuotaReservation} (h : StoresReservation r q)
    (hcutoff : Stamp text t) : TextTables.eligible text r = Database.eligible t q := by
  obtain ⟨-, hstate, hsettled⟩ := h
  unfold TextTables.eligible Database.eligible
  rw [hstate, any_stored hsettled hcutoff]

theorem filter_stored {rs : List ReservationText} {qs : List QuotaReservation}
    (h : List.Forall₂ StoresReservation rs qs) (hcutoff : Stamp text t) :
    (rs.filter (TextTables.eligible text)).map (·.id) = (qs.filter (Database.eligible t)).map (·.id) := by
  induction h with
  | nil => rfl
  | cons hrow _ ih =>
    rw [List.filter_cons, List.filter_cons, hrow.eligible hcutoff]
    split
    · rw [List.map_cons, List.map_cons, hrow.1, ih]
    · exact ih

/-- The rows that are selected by their texts are those that were settled at or
before the cutoff. -/
theorem selected_eq (h : Stores T db) (hcutoff : Stamp text t) : T.selected text = db.eligibleIds t :=
  filter_stored h.reservations hcutoff

theorem lookup_stored {w : SummaryWindow} {es : List PeriodText} {ps : List UsageSummaryPeriod}
    (h : List.Forall₂ StoresPeriod es ps) :
    Option.Rel StoresPeriod (Table.lookup PeriodText.window w es) (Table.lookup UsageSummaryPeriod.window w ps) := by
  induction h with
  | nil => exact .none
  | cons hrow _ ih =>
    rw [Table.lookup_cons, Table.lookup_cons, hrow.1]
    split
    · exact .some hrow
    · exact ih

/-- The cutoffs that are refused by their texts are those that are not later. -/
theorem refuses_iff (h : Stores T db) (hcutoff : Stamp text t) :
    T.refuses text = true ↔ ∃ previous, db.period? .current = some previous ∧ t ≤ previous.periodEnd := by
  have hany : ∀ {x y}, Option.Rel StoresPeriod x y →
      (x.any (text ≤ ·.periodEnd) = true ↔ ∃ previous, y = some previous ∧ t ≤ previous.periodEnd) := by
    intro x y hxy
    cases hxy with
    | none => simp
    | some hrow =>
      rw [Option.any_some, decide_eq_true_eq, hcutoff.le_iff hrow.2]
      simp
  exact hany (lookup_stored h.periods)

/-- Once its cutoff is accepted, a summary raises for a constraint only. -/
theorem summarizeFrom_error {cutoff now : Datetime} {previousEnd : Option Datetime} {e : StorageError}
    (h : db.summarizeFrom cutoff now previousEnd = .error e) : e = .integrityError := by
  have hupsert : ∀ rows s e, upsertSummary rows s = .error e → e = .integrityError := by
    intro rows s e he
    unfold upsertSummary at he
    split at he
    · exact (Except.error.inj he).symm
    · split at he <;> cases he
  unfold summarizeFrom at h
  rcases bind_eq_error.mp h with h | ⟨summaries, -, h⟩
  · exact foldlM_error hupsert h
  · dsimp only at h
    split at h
    · exact (Except.error.inj h).symm
    · cases h

/-- The transaction raises for the cutoffs that are refused by their texts. -/
theorem refuses_iff_error (h : Stores T db) (hcutoff : Stamp text t) (now : Datetime) :
    T.refuses text = true ↔ ∃ e, db.summarizeUsage (.aware t) now = .error (.summaryCutoffNotAdvanced e) := by
  have hnever : ∀ previousEnd e, db.summarizeFrom t now previousEnd ≠ .error (.summaryCutoffNotAdvanced e) := by
    intro previousEnd e he
    cases summarizeFrom_error he
  rw [refuses_iff h hcutoff]
  unfold summarizeUsage
  cases db.period? .current with
  | none => simp [hnever]
  | some previous =>
    by_cases hle : t ≤ previous.periodEnd
    · simp [hle]
    · simp [hle, hnever]

theorem stores_upsertEnd {es : List PeriodText} {ps : List UsageSummaryPeriod} (h : List.Forall₂ StoresPeriod es ps)
    {e : PeriodText} {p : UsageSummaryPeriod} (hrow : StoresPeriod e p) :
    List.Forall₂ StoresPeriod (upsertEnd es e) (upsertPeriod ps p) := by
  have hany : es.any (·.window = e.window) = ps.any (·.window = p.window) := by
    rw [hrow.1]
    induction h with
    | nil => rfl
    | cons hfirst _ ih => rw [List.any_cons, List.any_cons, hfirst.1, ih]
  have hmodify : List.Forall₂ StoresPeriod (Table.modify PeriodText.window e.window (fun _ => e) es)
      (Table.modify UsageSummaryPeriod.window p.window (fun _ => p) ps) := by
    unfold Table.modify
    refine List.rel_map (fun f q hfq => ?_) h
    rw [hfq.1, hrow.1]
    split
    · exact hrow
    · exact hfq
  unfold upsertEnd upsertPeriod
  rw [hany]
  split
  · exact hmodify
  · exact List.rel_append h (.cons hrow .nil)

/-- After a summary the tables of texts store the database. -/
theorem stores_summarized (h : Stores T db) (hcutoff : Stamp text t) {now : Datetime} {report : SummaryReport}
    (hok : db.summarizeUsage (.aware t) now = .ok (db', report)) : Stores (T.summarized text) db' := by
  obtain ⟨cutoff, summaries, start, hc, -, -, rfl⟩ := summarizeUsage_ok hok
  obtain rfl := Cutoff.aware.inj hc
  refine ⟨?_, stores_upsertEnd (stores_upsertEnd h.periods ⟨rfl, hcutoff⟩) ⟨rfl, hcutoff⟩⟩
  refine List.rel_filter (fun r q hrq => ?_) h.reservations
  simp only [hrq.eligible hcutoff]

/-! ### Runs -/

/-- The times that a summary compares are those of UTC datetimes. -/
structure Stamped (db : Database) : Prop where
  settled : ∀ q ∈ db.quotaReservations, ∀ t ∈ q.settledAt, ∃ u : Utc, u.time = t
  ends : ∀ p ∈ db.usageSummaryPeriods, ∃ u : Utc, u.time = p.periodEnd

variable {db1 db'' : Database}

theorem Stamped.congr (h : Stamped db) (hq : db'.quotaReservations = db.quotaReservations)
    (hp : db'.usageSummaryPeriods = db.usageSummaryPeriods) : Stamped db' :=
  ⟨hq ▸ h.settled, hp ▸ h.ends⟩

theorem stamped_accounts : AccountInvariant Stamped :=
  .of_rows fun _ _ _ _ h => h.congr rfl rfl

theorem Stamped.settleQuota (h : Stamped db) {rid : ReservationId} {n : ℤ} {p c : Option ℤ} {e : Option String}
    {lid : String} {now : Datetime} (hnow : ∃ u : Utc, u.time = now)
    (hok : db.settleQuota rid n p c e lid now = .ok db') : Stamped db' := by
  refine stamped_accounts.settle h (fun d charged hd => ?_) hok
  refine ⟨fun q hq t ht => ?_, hd.ends⟩
  rcases Table.mem_modify.mp hq with ⟨hq, -⟩ | ⟨q', -, -, rfl⟩
  · exact hd.settled q hq t ht
  · rw [← Option.some.inj ht]
    exact hnow

/-- A new reservation is not settled. -/
theorem Stamped.insertReservation (h : Stamped db) {q : QuotaReservation} (hnone : q.settledAt = none)
    (hok : db.insertReservation q = .ok db') : Stamped db' := by
  obtain ⟨-, -, -, rfl⟩ := insertReservation_ok hok
  refine ⟨fun q' hq' t ht => ?_, h.ends⟩
  rcases List.mem_append.mp hq' with hq' | hq'
  · exact h.settled q' hq' t ht
  · rw [List.mem_singleton.mp hq', hnone] at ht
    cases ht

theorem Stamped.summarizeUsage (h : Stamped db) {cutoff : Datetime} (hcutoff : ∃ u : Utc, u.time = cutoff)
    {now : Datetime} {report : SummaryReport} (hok : db.summarizeUsage (.aware cutoff) now = .ok (db', report)) :
    Stamped db' := by
  obtain ⟨cutoff', summaries, start, hc, -, -, rfl⟩ := summarizeUsage_ok hok
  obtain rfl := Cutoff.aware.inj hc
  have hends : ∀ {rows : List UsageSummaryPeriod} {p : UsageSummaryPeriod}, p.periodEnd = cutoff →
      (∀ r ∈ rows, ∃ u : Utc, u.time = r.periodEnd) → ∀ r ∈ upsertPeriod rows p, ∃ u : Utc, u.time = r.periodEnd := by
    intro rows p hp hrows r hr
    unfold upsertPeriod at hr
    split at hr
    · rcases Table.mem_modify.mp hr with ⟨hr, -⟩ | ⟨-, -, -, rfl⟩
      · exact hrows r hr
      · exact hp ▸ hcutoff
    · rcases List.mem_append.mp hr with hr | hr
      · exact hrows r hr
      · rw [List.mem_singleton.mp hr, hp]
        exact hcutoff
  exact ⟨fun q hq => h.settled q (List.mem_of_mem_filter hq), hends rfl (hends rfl h.ends)⟩

theorem stamped_step {op : Op} (h : Stamped db) (hop : op.Clocked) (hs : step db op = some db') : Stamped db' := by
  unfold step at hs
  split at hs
  case isFalse => cases hs
  case isTrue hlink =>
  cases hs
  cases op with
  | createKey | updateQuota | resetUsage => exact stamped_accounts.run h rfl
  | reserveQuota => exact stamped_accounts.reserve h fun q d _ hnone hok => h.insertReservation hnone hok
  | createInferenceRequest | markRequestAdmitted =>
    exact rows_invariant (I := Stamped) (fun _ => h.congr rfl rfl) rfl
  | settleQuota | releaseReservation | recoverOrphanedState =>
    exact settle_invariant h (fun hd hok => hd.settleQuota hop hok) rfl
  | summarizeUsage through now =>
    cases through with
    | naive => exact h
    | aware cutoff => exact summarize_invariant h (h.summarizeUsage hop)

theorem stamped_call {c : Call} (h : Stamped db) (hc : c.Clocked) (hs : call db c = some db') : Stamped db' := by
  rcases call_cases hs with ⟨op, rfl, hstep⟩ | ⟨keys, rfl⟩ | ⟨m, -, rfl⟩ | ⟨id, f, -, rfl⟩
  · exact stamped_step h hc hstep
  · exact h.congr rfl rfl
  · exact h.congr rfl rfl
  · exact h.congr rfl rfl

theorem stamped_exec {calls : List Call} (hcalls : ∀ c ∈ calls, c.Clocked) (hrun : exec call {} calls = some db) :
    Stamped db := by
  have hempty : Stamped {} := ⟨fun q hq => absurd hq List.not_mem_nil, fun p hp => absurd hp List.not_mem_nil⟩
  exact exec_invariant_mem (fun d c d' hc hd hstep => stamped_call hd (hcalls c hc) hstep) hempty hrun

theorem exists_forall₂ {α β : Type} {R : α → β → Prop} {bs : List β} (h : ∀ b ∈ bs, ∃ a, R a b) :
    ∃ as, List.Forall₂ R as bs := by
  induction bs with
  | nil => exact ⟨[], .nil⟩
  | cons b bs ih =>
    obtain ⟨a, ha⟩ := h b List.mem_cons_self
    obtain ⟨as, has⟩ := ih fun b' hb' => h b' (List.mem_cons_of_mem b hb')
    exact ⟨a :: as, .cons ha has⟩

/-- Tables of texts store the database. -/
theorem Stamped.exists_stores (h : Stamped db) : ∃ T, Stores T db := by
  have hrow : ∀ q ∈ db.quotaReservations, ∃ r, StoresReservation r q := by
    intro q hq
    cases ht : q.settledAt with
    | none => exact ⟨⟨q.id, q.state, none⟩, rfl, rfl, ht ▸ .none⟩
    | some t =>
      obtain ⟨u, hu⟩ := h.settled q hq t ht
      exact ⟨⟨q.id, q.state, some u.isoformat⟩, rfl, rfl, ht ▸ .some ⟨u, rfl, hu⟩⟩
  have hperiod : ∀ p ∈ db.usageSummaryPeriods, ∃ e, StoresPeriod e p := by
    intro p hp
    obtain ⟨u, hu⟩ := h.ends p hp
    exact ⟨⟨p.window, u.isoformat⟩, rfl, u, rfl, hu⟩
  obtain ⟨rs, hrs⟩ := exists_forall₂ hrow
  obtain ⟨es, hes⟩ := exists_forall₂ hperiod
  exact ⟨⟨rs, es⟩, hrs, hes⟩

/-- The order of the texts is that of the datetimes, and of their times. After
every run the database is stored by tables of texts. Of tables of texts that
store a database, a summary selects the rows that were settled at or before
the cutoff, and it accepts the cutoffs that are later than the last; the tables
that it leaves store the database after it. -/
theorem stored_timestamps :
    (∀ a b : Utc, (a.isoformat ≤ b.isoformat ↔ a ≤ b) ∧ (a ≤ b ↔ a.time ≤ b.time)) ∧
    (∀ calls db, (∀ c ∈ calls, Call.Clocked c) → exec call {} calls = some db → ∃ T, Stores T db) ∧
    ∀ T db, Stores T db → ∀ cutoff : Utc,
      T.selected cutoff.isoformat = (db.quotaReservations.filter fun q =>
        q.state = .settled ∧ q.settledAt.any (· ≤ cutoff.time)).map (·.id) ∧
      (T.refuses cutoff.isoformat = false ↔
        ∀ previous, db.period? .current = some previous → previous.periodEnd < cutoff.time) ∧
      ∀ now, (T.refuses cutoff.isoformat = true ↔
          ∃ e, db.summarizeUsage (.aware cutoff.time) now = .error (.summaryCutoffNotAdvanced e)) ∧
        ∀ db' report, db.summarizeUsage (.aware cutoff.time) now = .ok (db', report) →
          Stores (T.summarized cutoff.isoformat) db' := by
  refine ⟨fun a b => ⟨Utc.strictMono_isoformat.le_iff_le, Utc.strictMono_time.le_iff_le.symm⟩,
    fun calls db hcalls hrun => (stamped_exec hcalls hrun).exists_stores, fun T db h cutoff => ?_⟩
  have hcutoff : Stamp cutoff.isoformat cutoff.time := ⟨cutoff, rfl, rfl⟩
  have hrefuses : T.refuses cutoff.isoformat = false ↔
      ∀ previous, db.period? .current = some previous → previous.periodEnd < cutoff.time := by
    rw [← Bool.not_eq_true, refuses_iff h hcutoff]
    simp only [not_exists, not_and, not_le]
  exact ⟨selected_eq h hcutoff, hrefuses, fun now => ⟨refuses_iff_error h hcutoff now, fun db' report hok =>
    stores_summarized h hcutoff hok⟩⟩

def noon : Utc := { year := 2026, month := 3, day := 1, hour := 12 }

def afterNoon : Utc := { noon with microsecond := 5, clock := by decide }

example : (noon.isoformat, afterNoon.isoformat) =
    ("2026-03-01T12:00:00+00:00", "2026-03-01T12:00:00.000005+00:00") := by decide +kernel

/-- A request that is settled at noon, and one that is settled just after. -/
def aroundNoon : List Call :=
  [.insertModel ⟨"m", "model", .available, none⟩,
   .quota (.createKey "k" "alice" .user "acct" "alice" "rio_k" 300 false),
   .quota (.reserveQuota "r1" "h1" ⟨"k", "acct"⟩ "m" 60 "q1" "l1"),
   .quota (.reserveQuota "r2" "h2" ⟨"k", "acct"⟩ "m" 50 "q2" "l2"),
   .quota (.settleQuota "q1" 45 (some 5) (some 40) none "l3" noon.time),
   .quota (.releaseReservation "q2" "client_cancelled" "l4" afterNoon.time)]

theorem clocked_aroundNoon : ∀ c ∈ aroundNoon, Call.Clocked c := by
  simp only [aroundNoon, List.forall_mem_cons]
  exact ⟨trivial, trivial, trivial, trivial, ⟨noon, rfl⟩, ⟨afterNoon, rfl⟩, fun c hc => absurd hc List.not_mem_nil⟩

theorem stored_timestamps_noon : noon.isoformat ≤ afterNoon.isoformat ∧
    ∃ db T, exec call {} aroundNoon = some db ∧ Stores T db ∧ T.selected noon.isoformat = ["q1"] ∧
      T.refuses noon.isoformat = false ∧ ∃ db' report,
        db.summarizeUsage (.aware noon.time) afterNoon.time = .ok (db', report) ∧
          Stores (T.summarized noon.isoformat) db' := by
  obtain ⟨horder, hruns, hsummary⟩ := stored_timestamps
  have hrun : ∃ db, exec call {} aroundNoon = some db ∧ (db.quotaReservations.filter fun q =>
      q.state = .settled ∧ q.settledAt.any (· ≤ noon.time)).map (·.id) = ["q1"] ∧ db.period? .current = none ∧
        (db.summarizeUsage (.aware noon.time) afterNoon.time).toOption.isSome = true :=
    ⟨_, by rfl, by decide +kernel, rfl, by decide +kernel⟩
  obtain ⟨db, hdb, hids, hnone, hsome⟩ := hrun
  obtain ⟨T, hT⟩ := hruns _ db clocked_aroundNoon hdb
  obtain ⟨hselected, hrefuses, hstep⟩ := hsummary T db hT noon
  have haccepted : T.refuses noon.isoformat = false := by
    refine hrefuses.mpr fun previous hprevious => ?_
    rw [hnone] at hprevious
    cases hprevious
  have hok : ∃ db' report, db.summarizeUsage (.aware noon.time) afterNoon.time = .ok (db', report) := by
    cases hresult : db.summarizeUsage (.aware noon.time) afterNoon.time with
    | error e =>
      rw [hresult] at hsome
      cases hsome
    | ok result => exact ⟨result.1, result.2, rfl⟩
  obtain ⟨db', report, hok⟩ := hok
  exact ⟨(horder noon afterNoon).1.mpr (by decide), db, T, hdb, hT, hselected.trans hids, haccepted, db', report, hok,
    (hstep _).2 db' report hok⟩

end Database
end LlmRio
