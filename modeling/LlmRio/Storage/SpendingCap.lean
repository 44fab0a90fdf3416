/-
# The spending cap of a limited account

An account's balance is kept by reserve and settle step by step, and computed
anew by `update_quota` and `reset_usage`. Along every run the balance, the
tokens charged since the last reset and the reserved tokens of the account
together stay within the largest limit it has had (`Capped`), so what is
charged and reserved does (`spending_cap`), as long as the two
administrative calls find no reserved tokens of the account that the new
balance would give out again (`quiet`).

Both calls compute the balance from the settled charge alone. With a
reservation in flight they hand its tokens out a second time
(`spending_cap_fails`).

Key definitions: `reservedTokens`, `Capped`, `quiet`, `SpendingCap`.
Key theorems: `capped_step`, `spending_cap`, `spending_cap_fails`.
-/
import Mathlib.Algebra.Order.BigOperators.Group.List
import LlmRio.Storage.Wellformed

namespace LlmRio

open Runs Transactions

namespace Database

/-- The `reserved_tokens` of the RESERVED reservations of the account. -/
def reservedTokens (db : Database) (a : AccountId) : ℤ :=
  (db.quotaReservations.map fun q =>
    if q.state = .reserved ∧ q.accountId = a then q.reservedTokens else 0).sum

/-- The largest limit that the account has in the databases. -/
def peakLimit (a : AccountId) (dbs : List Database) : ℤ :=
  dbs.foldr (fun db peak => max ((db.account? a).elim 0 (·.limitTokens)) peak) 0

/-- The account's row, if there is one, is limited. -/
def Limited (a : AccountId) (db : Database) : Prop :=
  ∀ account, db.account? a = some account → account.unlimited = false

instance (a : AccountId) (db : Database) : Decidable (Limited a db) :=
  decidable_of_iff ((db.account? a).all (!·.unlimited) = true) (by simp [Limited, Option.all_eq_true])

/-- The balance is not negative, and what is charged since the last reset and
what is reserved stay within `peak`. -/
def WithinCap (a : AccountId) (peak : ℤ) (db : Database) : Prop :=
  ∀ account, db.account? a = some account →
    0 ≤ account.balanceTokens ∧
      db.lifetimeCharged a - account.usageBaselineTokens + db.reservedTokens a ≤ peak

/-- The spending cap over the run of `ops`: if the account stays limited, it
stays within the largest limit it has had. -/
def SpendingCap (a : AccountId) (models : List CatalogModel) (ops : List Op) : Prop :=
  ∀ db, exec step (fresh models) ops = some db → (∀ d ∈ visited step (fresh models) ops, Limited a d) →
    WithinCap a (peakLimit a (visited step (fresh models) ops)) db

/-- `update_quota` and `reset_usage` find no reserved tokens of the account;
or `update_quota` sets a limit that is used up, or one that is smaller than
the old limit by the reserved tokens. -/
def quiet (a : AccountId) (db : Database) : Op → Bool
  | .updateQuota k l _ =>
    (db.key? k).all fun key => key.quotaAccountId ≠ a ∨ db.reservedTokens a = 0 ∨
      (db.account? a).any fun account =>
        l ≤ db.lifetimeCharged a - account.usageBaselineTokens ∨
          l + db.reservedTokens a ≤ account.limitTokens
  | .resetUsage k _ =>
    (db.key? k).all fun key => key.quotaAccountId ≠ a ∨ db.reservedTokens a = 0
  | _ => true

/-! ### What the statements do to the charge, the reserve and the account -/

variable {db db' : Database} {a : AccountId}

theorem lifetimeCharged_congr (hq : db'.quotaReservations = db.quotaReservations)
    (hs : db'.usageSummaries = db.usageSummaries) : db'.lifetimeCharged a = db.lifetimeCharged a := by
  rw [lifetimeCharged_eq, lifetimeCharged_eq, settledCharge, settledCharge, summarizedCharge,
    summarizedCharge, hq, hs]

theorem reservedTokens_congr (hq : db'.quotaReservations = db.quotaReservations) :
    db'.reservedTokens a = db.reservedTokens a := by
  rw [reservedTokens, reservedTokens, hq]

/-- The row of an account has no part in what is charged to it. -/
theorem lifetimeCharged_updateAccount {id : AccountId} {f : QuotaAccount → QuotaAccount}
    (hok : db.updateAccount id f = .ok db') (a : AccountId) : db'.lifetimeCharged a = db.lifetimeCharged a := by
  obtain ⟨-, rfl⟩ := updateAccount_ok.mp hok
  exact lifetimeCharged_congr rfl rfl

theorem reservedTokens_updateAccount {id : AccountId} {f : QuotaAccount → QuotaAccount}
    (hok : db.updateAccount id f = .ok db') (a : AccountId) : db'.reservedTokens a = db.reservedTokens a := by
  obtain ⟨-, rfl⟩ := updateAccount_ok.mp hok
  exact reservedTokens_congr rfl

theorem account_updateAccount {id : AccountId} {f : QuotaAccount → QuotaAccount}
    (hf : ∀ a, (f a).id = a.id) (hok : db.updateAccount id f = .ok db') :
    db'.account? a = if a = id then (db.account? a).map f else db.account? a := by
  obtain ⟨-, rfl⟩ := updateAccount_ok.mp hok
  have hkeep : ∀ a : QuotaAccount, a.id = id → (f a).id = id := fun a ha => (hf a).trans ha
  unfold account?
  by_cases h : a = id
  · subst h
    simp [Table.lookup_modify_self hkeep]
  · simp [h, Table.lookup_modify_ne h hkeep]

theorem reservedTokens_insert {q : QuotaReservation} (hq : q.state = .reserved)
    (hok : db.insertReservation q = .ok db') : db'.reservedTokens a =
      db.reservedTokens a + if q.accountId = a then q.reservedTokens else 0 := by
  obtain ⟨-, -, -, rfl⟩ := insertReservation_ok hok
  simp [reservedTokens, hq]

theorem lifetimeCharged_insert {q : QuotaReservation} (hq : q.state = .reserved)
    (hok : db.insertReservation q = .ok db') : db'.lifetimeCharged a = db.lifetimeCharged a := by
  obtain ⟨-, -, -, rfl⟩ := insertReservation_ok hok
  simp [lifetimeCharged_eq, settledCharge, summarizedCharge, hq]

section close

variable {rid : ReservationId} {q : QuotaReservation} (hw : Wf db) (hq : db.reservation? rid = some q)
  (hs : q.state = .reserved)

include hw hq hs

theorem reservedTokens_close (charged : ℤ) (p c : Option ℤ) (e : Option String) (now : Datetime) :
    (db.closeReservation rid charged p c e now).reservedTokens a =
      db.reservedTokens a - if q.accountId = a then q.reservedTokens else 0 := by
  unfold reservedTokens closeReservation
  simp only [Table.sum_modify hw.reservationIds hq]
  simp [hs]

theorem lifetimeCharged_close (charged : ℤ) (p c : Option ℤ) (e : Option String) (now : Datetime) :
    (db.closeReservation rid charged p c e now).lifetimeCharged a =
      db.lifetimeCharged a + if q.accountId = a then charged else 0 := by
  rw [lifetimeCharged_eq, lifetimeCharged_eq]
  unfold settledCharge summarizedCharge closeReservation
  simp only [Table.sum_modify hw.reservationIds hq]
  simp only [hs, reduceCtorEq, false_and, if_false, true_and, Option.getD_some]
  omega

end close

theorem reservedTokens_summarize {through : Cutoff} {now : Datetime} {report : SummaryReport}
    (hok : db.summarizeUsage through now = .ok (db', report)) :
    db'.reservedTokens a = db.reservedTokens a := by
  obtain ⟨cutoff, summaries, start, -, -, -, rfl⟩ := summarizeUsage_ok hok
  unfold reservedTokens deleteEligible
  simp only
  rw [Table.sum_filter]
  congr 1
  refine List.map_congr_left fun q _ => ?_
  by_cases h : eligible cutoff q = true
  · have hstate : q.state = .settled := by
      simp only [eligible, decide_eq_true_eq] at h
      exact h.1
    simp [h, hstate]
  · simp [h]

theorem account_summarize {through : Cutoff} {now : Datetime} {report : SummaryReport}
    (hok : db.summarizeUsage through now = .ok (db', report)) : db'.account? a = db.account? a := by
  obtain ⟨cutoff, summaries, start, -, -, -, rfl⟩ := summarizeUsage_ok hok
  rfl

/-- An account without a row has no reservation and no summary. -/
theorem no_rows (hw : Wf db) (h : db.account? a = none) :
    db.lifetimeCharged a = 0 ∧ db.reservedTokens a = 0 := by
  have hq : ∀ q ∈ db.quotaReservations, q.accountId ≠ a := by
    rintro q hq rfl
    have := hw.owners q hq
    simp [h] at this
  have hs : ∀ s ∈ db.usageSummaries, s.accountId ≠ a := by
    rintro s hs rfl
    have := hw.summaryOwners s hs
    simp [h] at this
  rw [lifetimeCharged_eq]
  unfold settledCharge summarizedCharge reservedTokens summaryCharge
  refine ⟨?_, ?_⟩
  · rw [List.sum_eq_zero, List.sum_eq_zero, add_zero]
    · intro x hx
      obtain ⟨s, hs', rfl⟩ := List.mem_map.mp hx
      simp [hs s hs']
    · intro x hx
      obtain ⟨q, hq', rfl⟩ := List.mem_map.mp hx
      simp [hq q hq']
  · refine List.sum_eq_zero fun x hx => ?_
    obtain ⟨q, hq', rfl⟩ := List.mem_map.mp hx
    simp [hq q hq']

theorem reservedTokens_nonneg (hw : Wf db) : 0 ≤ db.reservedTokens a := by
  unfold reservedTokens
  refine List.sum_nonneg fun x hx => ?_
  obtain ⟨q, hq, rfl⟩ := List.mem_map.mp hx
  have := hw.reservedNonneg q hq
  split <;> omega

/-! ### The invariant -/

/-- The balance, the charge since the last reset and the reserve together
stay within `peak`. -/
structure Capped (a : AccountId) (peak : ℤ) (db : Database) : Prop where
  baseline : ∀ account, db.account? a = some account →
    account.usageBaselineTokens ≤ db.lifetimeCharged a
  cap : ∀ account, db.account? a = some account →
    account.balanceTokens + (db.lifetimeCharged a - account.usageBaselineTokens) + db.reservedTokens a ≤ peak

theorem Capped.within {peak : ℤ} (hw : Wf db) (h : Capped a peak db) : WithinCap a peak db := by
  intro account hacct
  have hchecks := hw.checks account (Table.lookup_some hacct).1
  simp only [QuotaAccount.checks, decide_eq_true_eq] at hchecks
  have := h.cap account hacct
  exact ⟨hchecks.1, by omega⟩

/-- The account keeps its balance and its baseline, and the rows stay. -/
theorem Capped.congr {peak : ℤ} (h : Capped a peak db) (hl : db'.lifetimeCharged a = db.lifetimeCharged a)
    (hr : db'.reservedTokens a = db.reservedTokens a)
    (hacct : ∀ account', db'.account? a = some account' → ∃ account, db.account? a = some account ∧
      account'.balanceTokens = account.balanceTokens ∧
      account'.usageBaselineTokens = account.usageBaselineTokens) : Capped a peak db' := by
  constructor
  · intro account' h'
    obtain ⟨account, h0, -, hb⟩ := hacct account' h'
    rw [hl, hb]
    exact h.baseline account h0
  · intro account' h'
    obtain ⟨account, h0, hbal, hb⟩ := hacct account' h'
    rw [hl, hr, hb, hbal]
    exact h.cap account h0

theorem Capped.audit {peak : ℤ} (h : Capped a peak db) (keys : List ApiKey) (ledger : List LedgerRow) :
    Capped a peak { db with apiKeys := keys, quotaLedger := ledger } :=
  h.congr rfl rfl fun account h' => ⟨account, h', rfl, rfl⟩

/-- An update of another account, or one that changes neither balance nor
baseline. -/
theorem Capped.updateAccount {peak : ℤ} (h : Capped a peak db) {id : AccountId}
    {f : QuotaAccount → QuotaAccount} (hid : ∀ b, (f b).id = b.id)
    (hf : a = id → ∀ b, (f b).balanceTokens = b.balanceTokens ∧
      (f b).usageBaselineTokens = b.usageBaselineTokens)
    (hok : db.updateAccount id f = .ok db') : Capped a peak db' := by
  refine h.congr (lifetimeCharged_updateAccount hok a) (reservedTokens_updateAccount hok a) fun account' h' => ?_
  rw [account_updateAccount hid hok] at h'
  split at h'
  · rename_i ha
    obtain ⟨account, h0, rfl⟩ := Option.map_eq_some_iff.mp h'
    exact ⟨account, h0, (hf ha account).1, (hf ha account).2⟩
  · exact ⟨account', h', rfl, rfl⟩

/-- A new account starts with its limit as its balance. -/
theorem Capped.insertAccount {peak : ℤ} (hw : Wf db) (h : Capped a peak db) {acct : QuotaAccount}
    (hbal : acct.balanceTokens = acct.limitTokens) (hbase : acct.usageBaselineTokens = 0)
    (hlim : ∀ account, (db.insertAccountOrIgnore acct).account? a = some account →
      account.limitTokens ≤ peak) : Capped a peak (db.insertAccountOrIgnore acct) := by
  rcases insertAccountOrIgnore_cases db acct with heq | ⟨hnew, -, heq⟩
  · rwa [heq]
  · have hacct : (db.insertAccountOrIgnore acct).account? a =
        (db.account? a).or (if acct.id = a then some acct else none) := by
      rw [heq]
      unfold account?
      rw [Table.lookup_append, Table.lookup_cons, Table.lookup_nil]
    have hl : (db.insertAccountOrIgnore acct).lifetimeCharged a = db.lifetimeCharged a := by
      rw [heq]
      exact lifetimeCharged_congr rfl rfl
    have hr : (db.insertAccountOrIgnore acct).reservedTokens a = db.reservedTokens a := by
      rw [heq]
      exact reservedTokens_congr rfl
    rcases hold : db.account? a with _ | old
    · obtain ⟨hl0, hr0⟩ := no_rows hw hold
      simp only [hold, Option.none_or] at hacct
      have hrow : ∀ account, (db.insertAccountOrIgnore acct).account? a = some account → account = acct := by
        intro account h'
        rw [hacct] at h'
        split at h'
        · exact (Option.some.inj h').symm
        · cases h'
      constructor
      · intro account h'
        rw [hl, hl0, hrow account h', hbase]
      · intro account h'
        have := hlim account h'
        rw [hrow account h'] at this ⊢
        rw [hl, hr, hl0, hr0, hbase, hbal]
        omega
    · refine h.congr hl hr fun account h' => ?_
      rw [hacct, hold] at h'
      exact ⟨old, hold, by cases h'; rfl, by cases h'; rfl⟩

/-- A reservation takes its tokens from the balance of a limited account. -/
theorem Capped.reserve {peak : ℤ} (h : Capped a peak db) {q : QuotaReservation} {db1 : Database}
    (hq : q.state = .reserved) (h1 : db.insertReservation q = .ok db1)
    (hlim : Limited a db1) {account : QuotaAccount} (hacct : db.account? q.accountId = some account)
    (hok : (account.unlimited = true ∧ db' = db1) ∨
      db1.updateAccount q.accountId (fun b => { b with balanceTokens := b.balanceTokens - q.reservedTokens }) =
        .ok db') : Capped a peak db' := by
  have hacct1 : ∀ id, db1.account? id = db.account? id := by
    obtain ⟨-, -, -, rfl⟩ := insertReservation_ok h1
    exact fun _ => rfl
  have hl1 : db1.lifetimeCharged a = db.lifetimeCharged a := lifetimeCharged_insert hq h1
  have hr1 := reservedTokens_insert (a := a) hq h1
  by_cases ha : q.accountId = a
  · rcases hok with ⟨hu, rfl⟩ | hok
    · -- an unlimited row is not the row of a limited account
      have := hlim account (by rw [hacct1, ← ha]; exact hacct)
      rw [hu] at this
      cases this
    · have hl : db'.lifetimeCharged a = db.lifetimeCharged a := (lifetimeCharged_updateAccount hok a).trans hl1
      have hr : db'.reservedTokens a = db.reservedTokens a + q.reservedTokens := by
        rw [if_pos ha] at hr1
        rw [reservedTokens_updateAccount hok, hr1]
      have hnew : ∀ account', db'.account? a = some account' → ∃ b, db.account? a = some b ∧
          account' = { b with balanceTokens := b.balanceTokens - q.reservedTokens } := by
        intro account' h'
        rw [account_updateAccount (fun _ => by rfl) hok, if_pos ha.symm, hacct1] at h'
        obtain ⟨b, hb, rfl⟩ := Option.map_eq_some_iff.mp h'
        exact ⟨b, hb, rfl⟩
      constructor
      · intro account' h'
        obtain ⟨b, hb, rfl⟩ := hnew account' h'
        rw [hl]
        exact h.baseline b hb
      · intro account' h'
        obtain ⟨b, hb, rfl⟩ := hnew account' h'
        have := h.cap b hb
        rw [hl, hr]
        simp only
        omega
  · rw [if_neg ha, add_zero] at hr1
    have hc1 : Capped a peak db1 := h.congr hl1 hr1 fun account' h' => by
      rw [hacct1] at h'
      exact ⟨account', h', rfl, rfl⟩
    rcases hok with ⟨-, rfl⟩ | hok
    · exact hc1
    · exact hc1.updateAccount (fun _ => by rfl) (fun h => absurd h.symm ha) hok

/-- A settlement moves tokens from the reserve to the charge, and the rest back
to the balance of a limited account. -/
theorem Capped.settle {peak : ℤ} (hw : Wf db) (h : Capped a peak db) (hlim : Limited a db)
    {rid : ReservationId} {n : ℤ} {p c : Option ℤ} {e : Option String} {lid : String} {now : Datetime}
    (hok : db.settleQuota rid n p c e lid now = .ok db') : Capped a peak db' := by
  rcases settleQuota_ok hok with ⟨rfl, -⟩ | ⟨q, db1, hq, hs, hrefund, rfl⟩
  · exact h
  obtain ⟨hqmem, -⟩ := Table.lookup_some hq
  have hres := hw.reservedNonneg q hqmem
  generalize hch : min (max 0 n) q.reservedTokens = charged at *
  have hch0 : 0 ≤ charged := by omega
  obtain ⟨db0, ledger, rfl, h0⟩ := refundAccount_ok hrefund
  -- the refund leaves the reservations as they are
  have hrows : db0.quotaReservations = db.quotaReservations ∧ db0.usageSummaries = db.usageSummaries := by
    rcases h0 with ⟨rfl, -⟩ | ⟨account, -, -, h0⟩
    · exact ⟨rfl, rfl⟩
    · rw [← (updateAccount_ok.mp h0).2]
      exact ⟨rfl, rfl⟩
  have hw0 : Wf db0 := by
    rcases h0 with ⟨rfl, -⟩ | ⟨account, -, -, h0⟩
    · exact hw
    · exact hw.updateAccount (fun _ => by rfl) h0
  have hq0 : db0.reservation? rid = some q := by
    unfold reservation?
    rw [hrows.1]
    exact hq
  have hl := lifetimeCharged_close (a := a) (hw0.audit db0.apiKeys ledger) hq0 hs charged p c e now
  have hr := reservedTokens_close (a := a) (hw0.audit db0.apiKeys ledger) hq0 hs charged p c e now
  rw [show ({ db0 with quotaLedger := ledger } : Database).lifetimeCharged a = db.lifetimeCharged a from
    lifetimeCharged_congr hrows.1 hrows.2] at hl
  rw [show ({ db0 with quotaLedger := ledger } : Database).reservedTokens a = db.reservedTokens a from
    reservedTokens_congr hrows.1] at hr
  have hacct : ∀ account', db0.account? a = some account' → ∃ b, db.account? a = some b ∧
      account'.usageBaselineTokens = b.usageBaselineTokens ∧
      account'.balanceTokens = b.balanceTokens + if q.accountId = a then q.reservedTokens - charged else 0 := by
    intro account' h'
    rcases h0 with ⟨rfl, hnone⟩ | ⟨account, -, -, h0⟩
    · refine ⟨account', h', rfl, ?_⟩
      by_cases ha : q.accountId = a
      · rcases hnone account' (ha ▸ h') with hu | hz
        · rw [hlim account' h'] at hu
          cases hu
        · rw [if_pos ha, hz, add_zero]
      · rw [if_neg ha, add_zero]
    · rw [account_updateAccount (fun _ => by rfl) h0] at h'
      by_cases ha : q.accountId = a
      · rw [if_pos ha.symm] at h'
        obtain ⟨b, hb, rfl⟩ := Option.map_eq_some_iff.mp h'
        exact ⟨b, hb, rfl, by rw [if_pos ha]⟩
      · rw [if_neg (Ne.symm ha)] at h'
        exact ⟨account', h', rfl, by rw [if_neg ha, add_zero]⟩
  constructor
  · intro account' h'
    obtain ⟨b, hb, hbase, -⟩ := hacct account' h'
    have := h.baseline b hb
    rw [hl, hbase]
    split <;> omega
  · intro account' h'
    obtain ⟨b, hb, hbase, hbal⟩ := hacct account' h'
    have := h.cap b hb
    rw [hl, hr, hbase, hbal]
    split <;> omega

/-- `update_quota` under its condition. -/
theorem Capped.updateQuota {peak : ℤ} (hw : Wf db) (h : Capped a peak db)
    (hpeak : ∀ account, db.account? a = some account → account.limitTokens ≤ peak)
    (hpeak' : ∀ account, db'.account? a = some account → account.limitTokens ≤ peak)
    {k : KeyId} {l : ℤ} {u b : Bool} (hquiet : quiet a db (.updateQuota k l u) = true)
    (hok : db.updateQuota k l u = .ok (db', b)) : Capped a peak db' := by
  rcases updateQuota_ok hok with rfl | ⟨key, hkey, hup⟩
  · exact h
  by_cases ha : key.quotaAccountId = a
  · subst ha
    have hl := lifetimeCharged_updateAccount hup key.quotaAccountId
    have hr := reservedTokens_updateAccount hup key.quotaAccountId
    simp only [quiet, hkey, Option.all_some, decide_eq_true_eq, ne_eq, not_true, false_or] at hquiet
    have hacct := account_updateAccount (a := key.quotaAccountId) (fun _ => by rfl) hup
    rw [if_pos rfl] at hacct
    constructor
    · intro account' h'
      have h0 := h'
      rw [hacct] at h0
      obtain ⟨old, hold, rfl⟩ := Option.map_eq_some_iff.mp h0
      rw [hl]
      exact h.baseline old hold
    · intro account' h'
      have h0 := h'
      rw [hacct] at h0
      obtain ⟨old, hold, rfl⟩ := Option.map_eq_some_iff.mp h0
      have hl' : l ≤ peak := hpeak' _ h'
      have hlold := hpeak old hold
      have hbase := h.baseline old hold
      have hcap := h.cap old hold
      have hchecks := hw.checks old (Table.lookup_some hold).1
      have hres := reservedTokens_nonneg (a := key.quotaAccountId) hw
      simp only [QuotaAccount.checks, decide_eq_true_eq] at hchecks
      simp only [hold, Option.any_some, decide_eq_true_eq] at hquiet
      simp only [hl, hr, hold, Option.elim_some]
      omega
  · exact h.updateAccount (fun _ => by rfl) (fun he => absurd he.symm ha) hup

/-- `reset_usage` while nothing is reserved. -/
theorem Capped.resetUsage {peak : ℤ} (h : Capped a peak db)
    (hpeak' : ∀ account, db'.account? a = some account → account.limitTokens ≤ peak)
    {k : KeyId} {now : Datetime} {r : Option ResetUsage} (hquiet : quiet a db (.resetUsage k now) = true)
    (hok : db.resetUsage k now = .ok (db', r)) : Capped a peak db' := by
  rcases resetUsage_ok hok with rfl | ⟨key, hkey, hup⟩
  · exact h
  by_cases ha : key.quotaAccountId = a
  · subst ha
    have hl := lifetimeCharged_updateAccount hup key.quotaAccountId
    have hr := reservedTokens_updateAccount hup key.quotaAccountId
    simp only [quiet, hkey, Option.all_some, decide_eq_true_eq, ne_eq, not_true, false_or] at hquiet
    have hnew : ∀ account', db'.account? key.quotaAccountId = some account' →
        account'.balanceTokens = account'.limitTokens ∧
          account'.usageBaselineTokens = db.lifetimeCharged key.quotaAccountId := by
      intro account' h'
      rw [account_updateAccount (fun _ => by rfl) hup, if_pos rfl] at h'
      obtain ⟨old, -, rfl⟩ := Option.map_eq_some_iff.mp h'
      exact ⟨rfl, rfl⟩
    constructor
    · intro account' h'
      rw [hl, (hnew account' h').2]
    · intro account' h'
      have := hpeak' account' h'
      obtain ⟨h1, h2⟩ := hnew account' h'
      rw [hl, hr, hquiet, h1, h2]
      omega
  · exact h.updateAccount (fun _ => by rfl) (fun he => absurd he.symm ha) hup

/-- `create_key`: the limit of a new account is the limit it is left with. -/
theorem Capped.createKey {peak : ℤ} (hw : Wf db) (h : Capped a peak db)
    (hpeak' : ∀ account, db'.account? a = some account → account.limitTokens ≤ peak)
    {k : KeyId} {n : String} {r : Role} {id : AccountId} {an p : String} {l : ℤ} {u : Bool}
    (hok : db.createKey k n r id an p l u = .ok db') : Capped a peak db' := by
  obtain ⟨acct, db1, db2, -, hbal, hbase, rfl, h2, key, rfl⟩ := createKey_ok hok
  have hlim : ∀ account, (db.insertAccountOrIgnore acct).account? a = some account →
      account.limitTokens ≤ peak := by
    intro account h1
    rcases h2 with rfl | h2
    · exact hpeak' account h1
    · have hacct := account_updateAccount (a := a) (fun _ => by rfl) h2
      by_cases ha : a = id
      · rw [if_pos ha, h1] at hacct
        exact hpeak' { account with unlimited := true } hacct
      · rw [if_neg ha, h1] at hacct
        exact hpeak' account hacct
  have h1 := Capped.insertAccount hw h hbal hbase hlim
  rcases h2 with rfl | h2
  · exact h1.audit _ _
  · exact (h1.updateAccount (fun _ => by rfl) (fun _ _ => by exact ⟨rfl, rfl⟩) h2).audit _ _

/-- A settlement does not change which accounts are limited. -/
theorem Limited.settle (hlim : Limited a db) {rid : ReservationId} {n : ℤ} {p c : Option ℤ}
    {e : Option String} {lid : String} {now : Datetime}
    (hok : db.settleQuota rid n p c e lid now = .ok db') : Limited a db' := by
  rcases settleQuota_ok hok with ⟨rfl, -⟩ | ⟨q, db1, -, -, hrefund, rfl⟩
  · exact hlim
  obtain ⟨db0, ledger, rfl, ⟨rfl, -⟩ | ⟨account, -, -, h0⟩⟩ := refundAccount_ok hrefund
  · exact hlim
  · intro account' h'
    have hacct := account_updateAccount (a := a) (fun _ => by rfl) h0
    have h1 : db0.account? a = some account' := h'
    rw [hacct] at h1
    split at h1
    · obtain ⟨b, hb, rfl⟩ := Option.map_eq_some_iff.mp h1
      exact hlim b hb
    · exact hlim account' h1

/-- One call keeps the account capped. -/
theorem capped_step {peak : ℤ} {op : Op} (hw : Wf db) (h : Capped a peak db)
    (hbefore : Limited a db ∧ ∀ account, db.account? a = some account → account.limitTokens ≤ peak)
    (hafter : Limited a db' ∧ ∀ account, db'.account? a = some account → account.limitTokens ≤ peak)
    (hquiet : quiet a db op = true) (hs : step db op = some db') : Capped a peak db' := by
  unfold step at hs
  split at hs
  case isFalse => cases hs
  case isTrue hlink =>
  cases hs
  cases op with
  | createKey k n r id an p l u =>
    simp only [run] at hafter ⊢
    cases hd : db.createKey k n r id an p l u with
    | error e => exact h
    | ok d =>
      rw [hd] at hafter
      exact h.createKey hw hafter.2 hd
  | updateQuota k l u =>
    simp only [run] at hafter ⊢
    cases hd : db.updateQuota k l u with
    | error e => exact h
    | ok d =>
      rw [hd] at hafter
      exact h.updateQuota hw hbefore.2 hafter.2 hquiet hd
  | resetUsage k now =>
    simp only [run] at hafter ⊢
    cases hd : db.resetUsage k now with
    | error e => exact h
    | ok d =>
      rw [hd] at hafter
      exact h.resetUsage hafter.2 hquiet hd
  | reserveQuota r hash p m e rid lid =>
    refine commit_invariant h fun d hd => ?_
    obtain ⟨⟨d, rid'⟩, hd', rfl⟩ := map_eq_ok hd
    rcases reserveQuota_ok hd' with ⟨q, -, -, -, -, rfl⟩ | ⟨-, account, db1, hacct, -, h1, hrest⟩
    · exact h
    · have hlim1 : Limited a db1 := by
        obtain ⟨-, -, -, rfl⟩ := insertReservation_ok h1
        exact hbefore.1
      rcases hrest with ⟨hu, rfl⟩ | ⟨-, db2, h2, rfl⟩
      · exact h.reserve rfl h1 hlim1 hacct (.inl ⟨hu, rfl⟩)
      · exact (h.reserve rfl h1 hlim1 hacct (.inr h2)).audit _ _
  | createInferenceRequest | markRequestAdmitted =>
    exact rows_invariant (fun _ => h.congr rfl rfl fun account h' => ⟨account, h', rfl, rfl⟩) rfl
  | settleQuota rid n p c e lid now =>
    exact commit_invariant h fun d hd => h.settle hw hbefore.1 hd
  | releaseReservation rid e lid now =>
    exact commit_invariant h fun d hd => h.settle hw hbefore.1 hd
  | summarizeUsage through now =>
    refine summarize_invariant h fun {d _} hd' => ?_
    have hw' : Wf d := hw.summarizeUsage hd'
    have hcharged : d.lifetimeCharged a = db.lifetimeCharged a := by
      rw [lifetimeCharged_eq_columnTotal hw'.oneRequest, lifetimeCharged_eq_columnTotal hw.oneRequest]
      exact summarizeUsage_columnTotal ⟨rfl, fun _ _ => rfl⟩ hw.reservationIds hw.summaryKeys hd'
    refine h.congr hcharged (reservedTokens_summarize hd') fun account h' => ?_
    rw [account_summarize hd'] at h'
    exact ⟨account, h', rfl, rfl⟩
  | recoverOrphanedState uuid now =>
    refine (recover_invariant (I := fun d => Wf d ∧ Limited a d ∧ Capped a peak d)
      (fun d d' _ _ _ hi hd => ?_) ⟨hw, hbefore.1, h⟩).2.2
    obtain ⟨hwd, hld, hcd⟩ := hi
    exact ⟨Wf.settleQuota hwd hd, Limited.settle hld hd, hcd.settle hwd hld hd⟩

/-! ### The cap over runs -/

theorem limit_le_peak {dbs : List Database} {d : Database} (hd : d ∈ dbs) {account : QuotaAccount}
    (hacct : d.account? a = some account) : account.limitTokens ≤ peakLimit a dbs := by
  induction dbs with
  | nil => cases hd
  | cons d0 dbs ih =>
    unfold peakLimit
    rw [List.foldr_cons]
    rcases List.mem_cons.mp hd with rfl | hd
    · simp only [hacct, Option.elim_some]
      exact le_max_left _ _
    · exact le_trans (ih hd) (le_max_right _ _)

/-- **The spending cap.** In every run whose `update_quota` and `reset_usage`
calls are quiet for the account, an account that stays limited stays within
the largest limit it has had. -/
theorem spending_cap (a : AccountId) (models : List CatalogModel) (ops : List Op) (t : Database)
    (h : exec (restrict step fun db op => quiet a db op = true) (fresh models) ops = some t) :
    SpendingCap a models ops := by
  intro db hdb hlim
  obtain rfl : db = t := Option.some.inj (hdb.symm.trans (exec_restrict h))
  have hvisited := visited_restrict h
  refine (exec_invariant_visited
    (I := fun d => Wf d ∧ Capped a (peakLimit a (visited step (fresh models) ops)) d)
    (P := fun d => Limited a d ∧ ∀ account, d.account? a = some account →
      account.limitTokens ≤ peakLimit a (visited step (fresh models) ops))
    ?_ ?_ ?_ h).elim fun hw hc => hc.within hw
  · intro d op d' hd hd' hi hs
    obtain ⟨hq, hs⟩ := restrict_eq_some.mp hs
    exact ⟨wf_step hi.1 hs, capped_step hi.1 hi.2 hd hd' hq hs⟩
  · intro d hd
    rw [hvisited] at hd
    exact ⟨hlim d hd, fun account h' => limit_le_peak hd h'⟩
  · refine ⟨wf_fresh models, ?_, ?_⟩ <;> intro account h' <;> cases h'

/-- A run with a settlement, a new limit and a reset between reservations. -/
theorem spending_cap_settled :
    SpendingCap "acct" [⟨"m", "model", .available, none⟩]
      [.createKey "k" "alice" .user "acct" "alice" "rio_k" 100 false,
       .reserveQuota "r1" "h1" ⟨"k", "acct"⟩ "m" 60 "q1" "l1",
       .settleQuota "q1" 45 (some 5) (some 40) none "l2" 1,
       .updateQuota "k" 80 false,
       .reserveQuota "r2" "h2" ⟨"k", "acct"⟩ "m" 35 "q2" "l3",
       .releaseReservation "q2" "client_cancelled" "l4" 2,
       .resetUsage "k" 3,
       .reserveQuota "r3" "h3" ⟨"k", "acct"⟩ "m" 80 "q3" "l5"] :=
  spending_cap "acct" _ _ _ (by rfl)

/-- `update_quota` with the limit unchanged, while all of it is reserved: the
balance is the whole limit again, and a second request reserves it. -/
theorem spending_cap_fails :
    ¬ SpendingCap "acct" [⟨"m", "model", .available, none⟩]
      [.createKey "k" "alice" .user "acct" "alice" "rio_k" 100 false,
       .reserveQuota "r1" "h1" ⟨"k", "acct"⟩ "m" 100 "q1" "l1",
       .updateQuota "k" 100 false,
       .reserveQuota "r2" "h2" ⟨"k", "acct"⟩ "m" 100 "q2" "l2"] := by
  intro h
  have hcap := h _ (by rfl) (by decide) _ (by rfl)
  revert hcap
  decide

end Database
end LlmRio
