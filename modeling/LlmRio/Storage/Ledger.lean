/-
# The ledger of a reservation

`reserve_quota` writes a 'reservation' row when it takes the tokens of a
limited account, and `settle_quota` a 'settlement_refund' row when it gives
the unused ones back. Whether to take is decided by `unlimited` when the
reservation is made, whether to give back by `unlimited` when it is settled.

As long as both times agree (`settlesAsReserved`: the settlement refunds
nothing, or the account is limited exactly if the reservation was debited),
the ledger rows of every settled reservation sum to minus its charge, or to
zero if it was not debited, and only a debited reservation is refunded
(`ledger_sound`). When `unlimited` is switched off in between, the account is
credited with tokens that nobody took from it (`ledger_unsound`).

Key definitions: `ledgerOf`, `debited`, `LedgerSound`, `settlesAsReserved`, `Books`.
Key theorems: `books_step`, `ledger_sound`, `ledger_unsound`.
-/
import LlmRio.Storage.Wellformed

namespace LlmRio

open Runs Transactions

namespace Database

/-- The ledger rows of a reservation. -/
def ledgerOf (db : Database) (rid : ReservationId) : List LedgerRow :=
  db.quotaLedger.filter (·.reservationId = rid)

/-- The reservation took its tokens from a balance. -/
def debited (db : Database) (rid : ReservationId) : Bool :=
  (db.ledgerOf rid).any (·.reason = "reservation")

/-- The account of the id has a row, and it is limited. -/
def limited (db : Database) (a : AccountId) : Bool := (db.account? a).any (!·.unlimited)

/-- What the ledger says of the reservations. -/
structure LedgerSound (db : Database) : Prop where
  reservation : ∀ rid, ((db.ledgerOf rid).filter (·.reason = "reservation")).length ≤ 1
  refund : ∀ rid, ((db.ledgerOf rid).filter (·.reason = "settlement_refund")).length ≤ 1
  refunded : ∀ rid, ∀ l ∈ db.ledgerOf rid, l.reason = "settlement_refund" → db.debited rid = true
  settled : ∀ q ∈ db.quotaReservations, q.state = .settled →
    ((db.ledgerOf q.id).map (·.deltaTokens)).sum =
      if db.debited q.id then -q.actualTokens.getD 0 else 0

/-- The call credits no balance for a reservation that was not debited. -/
def CreditsDebited (db : Database) : Op → Prop
  | .settleQuota rid n p c e lid now =>
    db.debited rid = false → (db.run (.settleQuota rid n p c e lid now)).quotaAccounts = db.quotaAccounts
  | .releaseReservation rid e lid now =>
    db.debited rid = false → (db.run (.releaseReservation rid e lid now)).quotaAccounts = db.quotaAccounts
  | _ => True

/-- A call that makes a reservation writes its 'reservation' row exactly if it
takes the tokens from the balance. -/
def RecordsDebit (db : Database) : Op → Prop
  | .reserveQuota r hash p m e rid lid =>
    let db' := db.run (.reserveQuota r hash p m e rid lid)
    (db.reservation? rid).isNone → (db'.reservation? rid).isSome →
      db'.debited rid = db.limited p.quotaAccountId ∧
        db'.quotaAccounts =
          if db.limited p.quotaAccountId then
            Table.modify QuotaAccount.id p.quotaAccountId
              (fun a => { a with balanceTokens := a.balanceTokens - e }) db.quotaAccounts
          else db.quotaAccounts
  | _ => True

/-- The ledger is sound after every part of the run of `ops`, and each call
debits and credits as the ledger says. -/
def LedgerSoundness (models : List CatalogModel) (ops : List Op) : Prop :=
  ∀ before after, ops = before ++ after → ∀ db, exec step (fresh models) before = some db →
    LedgerSound db ∧ ∀ op ∈ after.head?, RecordsDebit db op ∧ CreditsDebited db op

/-- The settlement of a reservation finds its account as it was when it was
reserved, limited or not; or there is nothing to refund. -/
def settlesAsReserved (db : Database) (rid : ReservationId) (actualTokens : ℤ) : Bool :=
  (db.reservation? rid).all fun q => q.state ≠ .reserved ∨ q.reservedTokens ≤ max 0 actualTokens ∨
    db.debited rid = db.limited q.accountId

/-- The calls of a run of reservations and settlements, with a fresh `uuid4`
for the ledger row of a refund. -/
def keepsBooks (db : Database) : Op → Bool
  | .settleQuota rid n _ _ _ lid _ =>
    db.settlesAsReserved rid n ∧ db.quotaLedger.all (·.id ≠ lid)
  | .releaseReservation rid _ lid _ =>
    db.settlesAsReserved rid 0 ∧ db.quotaLedger.all (·.id ≠ lid)
  | .summarizeUsage .. | .recoverOrphanedState .. => false
  | _ => true

/-! ### The rows of one reservation -/

/-- The ledger rows that a reservation can have. -/
inductive Books (q : QuotaReservation) : List LedgerRow → Prop
  | undebited : Books q []
  | debited (row : LedgerRow) (hreason : row.reason = "reservation")
      (hdelta : row.deltaTokens = -q.reservedTokens)
      (hcharged : q.state = .settled → q.actualTokens = some q.reservedTokens) : Books q [row]
  | refunded (row refund : LedgerRow) (charged : ℤ) (hreason : row.reason = "reservation")
      (hdelta : row.deltaTokens = -q.reservedTokens) (hstate : q.state = .settled)
      (hcharged : q.actualTokens = some charged) (hrefund : refund.reason = "settlement_refund")
      (hback : refund.deltaTokens = q.reservedTokens - charged) : Books q [row, refund]

/-- Every reservation has its books, and every ledger row a reservation. -/
structure Kept (db : Database) : Prop where
  books : ∀ q ∈ db.quotaReservations, Books q (db.ledgerOf q.id)
  owned : ∀ l ∈ db.quotaLedger, ∃ q ∈ db.quotaReservations, q.id = l.reservationId

variable {db db' : Database}

theorem mem_ledgerOf {rid : ReservationId} {l : LedgerRow} :
    l ∈ db.ledgerOf rid ↔ l ∈ db.quotaLedger ∧ l.reservationId = rid := by
  simp [ledgerOf, List.mem_filter]

/-- A reservation that is not in the table has no ledger rows. -/
theorem Kept.ledgerOf_nil (h : Kept db) {rid : ReservationId}
    (hnone : ∀ q ∈ db.quotaReservations, q.id ≠ rid) : db.ledgerOf rid = [] := by
  rw [List.eq_nil_iff_forall_not_mem]
  intro l hl
  obtain ⟨hl, hrid⟩ := mem_ledgerOf.mp hl
  obtain ⟨q, hq, hid⟩ := h.owned l hl
  exact hnone q hq (hid.trans hrid)

/-- The rows of every id are the books of a reservation. -/
theorem Kept.rows (h : Kept db) (rid : ReservationId) :
    db.ledgerOf rid = [] ∨ ∃ q ∈ db.quotaReservations, q.id = rid ∧ Books q (db.ledgerOf rid) := by
  by_cases hq : ∃ q ∈ db.quotaReservations, q.id = rid
  · obtain ⟨q, hq, rfl⟩ := hq
    exact .inr ⟨q, hq, rfl, h.books q hq⟩
  · push Not at hq
    exact .inl (h.ledgerOf_nil hq)

/-- At most one row of each kind, and no refund without its debit. -/
theorem Books.once {q : QuotaReservation} {rows : List LedgerRow} (hb : Books q rows) :
    (rows.filter (·.reason = "reservation")).length ≤ 1 ∧
      (rows.filter (·.reason = "settlement_refund")).length ≤ 1 ∧
      ∀ l ∈ rows, l.reason = "settlement_refund" → rows.any (·.reason = "reservation") = true := by
  cases hb with
  | undebited => simp
  | debited row hreason => simp [hreason]
  | refunded row refund charged hreason _ _ _ hrefund => simp [hreason, hrefund]

/-- The rows sum to what the reservation has cost its account. -/
theorem Books.sum {q : QuotaReservation} {rows : List LedgerRow} (hb : Books q rows)
    (hs : q.state = .settled) : (rows.map (·.deltaTokens)).sum =
      if rows.any (·.reason = "reservation") then -q.actualTokens.getD 0 else 0 := by
  cases hb with
  | undebited => simp
  | debited row hreason hdelta hcharged => simp [hreason, hdelta, hcharged hs]
  | refunded row refund charged hreason hdelta _ hcharged _ hback =>
    simp only [List.map_cons, List.map_nil, List.sum_cons, List.sum_nil, List.any_cons, hreason,
      decide_true, Bool.true_or, if_true, hdelta, hback, hcharged, Option.getD_some]
    omega

theorem Kept.sound (h : Kept db) : LedgerSound db := by
  have honce : ∀ rid, ((db.ledgerOf rid).filter (·.reason = "reservation")).length ≤ 1 ∧
      ((db.ledgerOf rid).filter (·.reason = "settlement_refund")).length ≤ 1 ∧
      ∀ l ∈ db.ledgerOf rid, l.reason = "settlement_refund" → db.debited rid = true := by
    intro rid
    rcases h.rows rid with hnil | ⟨q, -, -, hb⟩
    · simp [hnil]
    · exact hb.once
  exact ⟨fun rid => (honce rid).1, fun rid => (honce rid).2.1, fun rid => (honce rid).2.2,
    fun q hq hs => (h.books q hq).sum hs⟩

/-! ### What a call does to the books -/

/-- Reservations and ledger stay as they are. -/
theorem Kept.congr (h : Kept db) (hq : db'.quotaReservations = db.quotaReservations)
    (hl : db'.quotaLedger = db.quotaLedger) : Kept db' := by
  have hrows : ∀ rid, db'.ledgerOf rid = db.ledgerOf rid := fun rid => by rw [ledgerOf, ledgerOf, hl]
  constructor
  · intro q h'
    rw [hq] at h'
    rw [hrows]
    exact h.books q h'
  · intro l h'
    rw [hl] at h'
    rw [hq]
    exact h.owned l h'

theorem Kept.updateAccount (h : Kept db) {id : AccountId} {f : QuotaAccount → QuotaAccount}
    (hok : db.updateAccount id f = .ok db') : Kept db' := by
  rw [← (updateAccount_ok.mp hok).2]
  exact h.congr rfl rfl

theorem Kept.insertAccount (h : Kept db) (a : QuotaAccount) : Kept (db.insertAccountOrIgnore a) := by
  rcases insertAccountOrIgnore_cases db a with heq | ⟨-, -, heq⟩
  · rwa [heq]
  · rw [heq]
    exact h.congr rfl rfl

/-- A new reservation with the ledger rows `rows` of its own. -/
theorem Kept.reserve (h : Kept db) {q : QuotaReservation} {rows : List LedgerRow}
    (hnew : ∀ p ∈ db.quotaReservations, p.id ≠ q.id)
    (hq : db'.quotaReservations = db.quotaReservations ++ [q])
    (hl : db'.quotaLedger = db.quotaLedger ++ rows) (hown : ∀ l ∈ rows, l.reservationId = q.id)
    (hbooks : Books q rows) : Kept db' := by
  have hself : db'.ledgerOf q.id = rows := by
    have hrows : rows.filter (·.reservationId = q.id) = rows :=
      List.filter_eq_self.mpr fun l hmem => by simpa using hown l hmem
    have hold := h.ledgerOf_nil hnew
    unfold ledgerOf at hold ⊢
    rw [hl, List.filter_append, hold, hrows, List.nil_append]
  have hother : ∀ rid, rid ≠ q.id → db'.ledgerOf rid = db.ledgerOf rid := by
    intro rid hne
    have hrows : rows.filter (·.reservationId = rid) = [] :=
      List.filter_eq_nil_iff.mpr fun l hmem => by simpa [hown l hmem] using hne.symm
    unfold ledgerOf
    rw [hl, List.filter_append, hrows, List.append_nil]
  constructor
  · intro p hp
    rw [hq] at hp
    rcases List.mem_append.mp hp with hp | hp
    · rw [hother p.id (hnew p hp)]
      exact h.books p hp
    · rw [List.mem_singleton.mp hp, hself]
      exact hbooks
  · intro l hmem
    rw [hl] at hmem
    rw [hq]
    rcases List.mem_append.mp hmem with hmem | hmem
    · obtain ⟨p, hp, hid⟩ := h.owned l hmem
      exact ⟨p, List.mem_append_left _ hp, hid⟩
    · exact ⟨q, List.mem_append_right _ List.mem_cons_self, (hown l hmem).symm⟩

/-- What `reserve_quota` does, if it makes a reservation: the account's row, and
the tokens and the ledger row if it is limited. -/
theorem reserveQuota_new {requestId : RequestId} {idempotencyHash : String} {principal : Principal}
    {modelId : ModelId} {e : ℤ} {reservationId rid : ReservationId} {ledgerId : String}
    (h : db.reserveQuota requestId idempotencyHash principal modelId e reservationId ledgerId =
      .ok (db', rid)) :
    db' = db ∨ ((∀ p ∈ db.quotaReservations, p.id ≠ reservationId) ∧
      db'.quotaReservations = db.quotaReservations ++
        [{ id := reservationId, requestId := requestId, idempotencyHash := idempotencyHash,
           accountId := principal.quotaAccountId, keyId := principal.keyId, modelId := modelId,
           reservedTokens := e }] ∧
      ((db.limited principal.quotaAccountId = false ∧ db'.quotaLedger = db.quotaLedger ∧
          db'.quotaAccounts = db.quotaAccounts) ∨
        (db.limited principal.quotaAccountId = true ∧
          db'.quotaLedger = db.quotaLedger ++
            [⟨ledgerId, principal.quotaAccountId, reservationId, -e, "reservation"⟩] ∧
          db'.quotaAccounts = Table.modify QuotaAccount.id principal.quotaAccountId
            (fun a => { a with balanceTokens := a.balanceTokens - e }) db.quotaAccounts))) := by
  rcases reserveQuota_ok h with ⟨-, -, -, -, -, rfl⟩ | ⟨-, account, db1, hacct, -, h1, hrest⟩
  · exact .inl rfl
  · obtain ⟨hnew, -, -, rfl⟩ := insertReservation_ok h1
    refine .inr ⟨fun p hp => (hnew p hp).1, ?_⟩
    rcases hrest with ⟨hu, rfl⟩ | ⟨hu, db2, h2, rfl⟩
    · exact ⟨rfl, .inl ⟨by simp [limited, hacct, hu], rfl, rfl⟩⟩
    · rw [← (updateAccount_ok.mp h2).2]
      exact ⟨rfl, .inr ⟨by simp [limited, hacct, hu], rfl, rfl⟩⟩

/-- A settlement moves the books of its own reservation, and no other. -/
theorem Kept.close (hw : Wf db) (h : Kept db) {q : QuotaReservation} (hq : q ∈ db.quotaReservations)
    {db1 : Database} {refund : List LedgerRow} (hr : db1.quotaReservations = db.quotaReservations)
    (hl : db1.quotaLedger = db.quotaLedger ++ refund) (hown : ∀ l ∈ refund, l.reservationId = q.id)
    {charged : ℤ} {p c : Option ℤ} {e : Option String} {now : Datetime}
    (hbooks : Books { q with actualTokens := some charged, state := .settled, settledAt := some now }
      (db.ledgerOf q.id ++ refund)) : Kept (db1.closeReservation q.id charged p c e now) := by
  have hrows : ∀ rid, (db1.closeReservation q.id charged p c e now).ledgerOf rid =
      db.ledgerOf rid ++ refund.filter (·.reservationId = rid) := by
    intro rid
    unfold ledgerOf closeReservation
    simp only [hl, List.filter_append]
  have hself : refund.filter (·.reservationId = q.id) = refund :=
    List.filter_eq_self.mpr fun l hmem => by simpa using hown l hmem
  have hother : ∀ rid, rid ≠ q.id → refund.filter (·.reservationId = rid) = [] := fun rid hne =>
    List.filter_eq_nil_iff.mpr fun l hmem => by simpa [hown l hmem] using hne.symm
  constructor
  · intro q' h'
    unfold closeReservation at h'
    simp only [hr] at h'
    rw [hrows]
    rcases Table.mem_modify.mp h' with ⟨h', hne⟩ | ⟨q0, hq0, hid, rfl⟩
    · rw [hother _ hne, List.append_nil]
      exact h.books q' h'
    · obtain rfl := Table.eq_of_key hw.reservationIds hq0 hq hid
      rw [hself]
      exact hbooks
  · intro l hmem
    have hres : ∃ q' ∈ db.quotaReservations, q'.id = l.reservationId := by
      have hmem' : l ∈ db.quotaLedger ++ refund := by rwa [← hl]
      rcases List.mem_append.mp hmem' with hmem' | hmem'
      · exact h.owned l hmem'
      · exact ⟨q, hq, (hown l hmem').symm⟩
    obtain ⟨q', hq', hid⟩ := hres
    have hids : l.reservationId ∈ (db1.closeReservation q.id charged p c e now).quotaReservations.map
        QuotaReservation.id := by
      unfold closeReservation
      simp only [hr]
      rw [Table.map_modify_of_eq fun _ _ _ => by rfl, ← hid]
      exact List.mem_map_of_mem hq'
    obtain ⟨q1, hq1, hid1⟩ := List.mem_map.mp hids
    exact ⟨q1, hq1, hid1⟩

/-- A settlement that finds the account as the reservation did keeps the
books, and credits only a debited reservation. -/
theorem Kept.settle (hw : Wf db) (h : Kept db) {rid : ReservationId} {n : ℤ} {p c : Option ℤ}
    {e : Option String} {lid : String} {now : Datetime} (hsame : db.settlesAsReserved rid n = true)
    (hfresh : db.quotaLedger.all (·.id ≠ lid) = true)
    (hok : db.settleQuota rid n p c e lid now = .ok db') : Kept db' := by
  rcases settleQuota_ok hok with ⟨rfl, -⟩ | ⟨q, db1, hq, hs, hrefund, rfl⟩
  · exact h
  obtain ⟨hqmem, rfl⟩ := Table.lookup_some hq
  have hbooks := h.books q hqmem
  have hreserved := hw.reservedNonneg q hqmem
  simp only [settlesAsReserved, hq, Option.all_some, hs, ne_eq, not_true, false_or,
    decide_eq_true_eq] at hsame
  rcases refundAccount_ledger hrefund with ⟨rfl, hno⟩ | ⟨⟨account, hacct, hlim⟩, hne, hr, hl⟩
  · -- nothing is written: the reservation was not debited, or all of it is charged
    refine h.close hw hqmem rfl (List.append_nil _).symm (by simp) ?_
    rw [List.append_nil]
    cases hrows : db1.ledgerOf q.id with
    | nil => exact .undebited
    | cons row rows =>
      rw [hrows] at hbooks
      cases hbooks with
      | debited _ hreason hdelta _ =>
        refine .debited row hreason hdelta fun _ => ?_
        have hcharged : q.reservedTokens ≤ max 0 n := by
          rcases hsame with hle | hdeb
          · exact hle
          · obtain ⟨account, hacct⟩ := Option.isSome_iff_exists.mp (hw.owners q hqmem)
            have hlimited : db1.limited q.accountId = true := by
              rw [← hdeb, debited, hrows]
              simp [hreason]
            rcases hno account hacct with hu | hzero
            · simp [limited, hacct, hu] at hlimited
            · omega
        simp only [Option.some.injEq]
        omega
      | refunded _ _ _ _ _ hstate => simp [hs] at hstate
  · have hdeb : db.debited q.id = true := by
      rcases hsame with hle | hdeb
      · omega
      · rw [hdeb]
        simp [limited, hacct, hlim]
    rw [debited] at hdeb
    cases hbooks' : db.ledgerOf q.id with
    | nil => simp [hbooks'] at hdeb
    | cons row rows =>
      rw [hbooks'] at hbooks
      cases hbooks with
      | refunded _ _ _ _ _ hstate => simp [hs] at hstate
      | debited _ hreason hdelta _ =>
        have hclash : db.ledgerClash ⟨lid, q.accountId, q.id,
            q.reservedTokens - min (max 0 n) q.reservedTokens, "settlement_refund"⟩ = false := by
          rw [ledgerClash, List.any_eq_false]
          intro l hmem
          have hid : l.id ≠ lid := by simpa using List.all_eq_true.mp hfresh l hmem
          simp only [decide_eq_true_eq, not_or, not_and]
          refine ⟨hid, fun hrid hreason' => ?_⟩
          have hin : l ∈ db.ledgerOf q.id := mem_ledgerOf.mpr ⟨hmem, hrid⟩
          rw [hbooks', List.mem_singleton] at hin
          rw [hin, hreason] at hreason'
          exact absurd hreason' (by decide)
        rw [insertLedgerOrIgnore, if_neg (by simp [hclash])] at hl
        refine h.close hw hqmem hr hl (by simp) ?_
        rw [hbooks']
        exact .refunded _ _ _ hreason hdelta rfl rfl rfl rfl

theorem kept_fresh (models : List CatalogModel) : Kept (fresh models) := by
  constructor <;> simp [fresh]

/-- One call keeps the books. -/
theorem books_step {op : Op} (hw : Wf db) (h : Kept db) (hkeep : keepsBooks db op = true)
    (hs : step db op = some db') : Kept db' := by
  unfold step at hs
  split at hs
  case isFalse => cases hs
  case isTrue hlink =>
  cases hs
  cases op with
  | createKey k n r a an p l u =>
    refine commit_invariant h fun d hd => ?_
    obtain ⟨acct, db1, db2, -, -, -, rfl, h2, key, rfl⟩ := createKey_ok hd
    have h1 := h.insertAccount acct
    rcases h2 with rfl | h2
    · exact h1.congr rfl rfl
    · exact (h1.updateAccount h2).congr rfl rfl
  | updateQuota k l u =>
    refine commit_invariant h fun d hd => ?_
    obtain ⟨⟨d', b⟩, hd', rfl⟩ := map_eq_ok hd
    rcases updateQuota_ok hd' with rfl | ⟨key, -, hup⟩
    · exact h
    · exact h.updateAccount hup
  | resetUsage k now =>
    refine commit_invariant h fun d hd => ?_
    obtain ⟨⟨d', b⟩, hd', rfl⟩ := map_eq_ok hd
    rcases resetUsage_ok hd' with rfl | ⟨key, -, hup⟩
    · exact h
    · exact h.updateAccount hup
  | reserveQuota r hash p m e rid lid =>
    refine commit_invariant h fun d hd => ?_
    obtain ⟨⟨d', rid'⟩, hd', rfl⟩ := map_eq_ok hd
    rcases reserveQuota_new hd' with rfl | ⟨hnew, hq, ⟨-, hl, -⟩ | ⟨-, hl, -⟩⟩
    · exact h
    · exact h.reserve hnew hq (by rw [hl, List.append_nil]) (by simp) .undebited
    · exact h.reserve hnew hq hl (by simp) (.debited _ rfl rfl (by simp))
  | createInferenceRequest | markRequestAdmitted => exact rows_invariant (fun _ => h.congr rfl rfl) rfl
  | settleQuota rid n p c e lid now =>
    simp only [keepsBooks, decide_eq_true_eq] at hkeep
    exact commit_invariant h fun d hd => h.settle hw hkeep.1 hkeep.2 hd
  | releaseReservation rid e lid now =>
    simp only [keepsBooks, decide_eq_true_eq] at hkeep
    exact commit_invariant h fun d hd => h.settle hw hkeep.1 hkeep.2 hd
  | summarizeUsage through now => cases hkeep
  | recoverOrphanedState uuid now => cases hkeep

/-! ### What a call does to the balances -/

/-- A settlement that finds the account as the reservation did leaves every
balance, if the reservation was not debited. -/
theorem settle_undebited {rid : ReservationId} {n : ℤ} {p c : Option ℤ} {e : Option String}
    {lid : String} {now : Datetime} (hsame : db.settlesAsReserved rid n = true)
    (hdeb : db.debited rid = false) :
    (commit db (db.settleQuota rid n p c e lid now)).quotaAccounts = db.quotaAccounts := by
  refine commit_invariant (I := fun d : Database => d.quotaAccounts = db.quotaAccounts) rfl fun d hd => ?_
  rcases settleQuota_ok hd with ⟨rfl, -⟩ | ⟨q, db1, hq, hs, hrefund, rfl⟩
  · rfl
  simp only [settlesAsReserved, hq, Option.all_some, hs, ne_eq, not_true, false_or,
    decide_eq_true_eq] at hsame
  rcases refundAccount_ledger hrefund with ⟨rfl, -⟩ | ⟨⟨account, hacct, hlim⟩, hne, -, -⟩
  · rfl
  · rcases hsame with hle | hsame
    · omega
    · rw [hdeb] at hsame
      simp [limited, hacct, hlim] at hsame

theorem credits_debited {op : Op} (hkeep : keepsBooks db op = true) : CreditsDebited db op := by
  unfold CreditsDebited
  split
  · simp only [keepsBooks, decide_eq_true_eq] at hkeep
    exact settle_undebited hkeep.1
  · simp only [keepsBooks, decide_eq_true_eq] at hkeep
    exact settle_undebited hkeep.1
  · exact trivial

theorem records_debit {op : Op} (h : Kept db) : RecordsDebit db op := by
  unfold RecordsDebit
  split
  case h_2 => exact trivial
  rename_i r hash p m e rid lid
  refine commit_invariant (I := fun d : Database => (db.reservation? rid).isNone → (d.reservation? rid).isSome →
    d.debited rid = db.limited p.quotaAccountId ∧ d.quotaAccounts = if db.limited p.quotaAccountId then
      Table.modify QuotaAccount.id p.quotaAccountId
        (fun a => { a with balanceTokens := a.balanceTokens - e }) db.quotaAccounts
      else db.quotaAccounts) ?_ fun d hd => ?_
  · intro hnone hsome
    rw [Option.isNone_iff_eq_none] at hnone
    simp [hnone] at hsome
  · obtain ⟨⟨d', rid'⟩, hd', rfl⟩ := map_eq_ok hd
    rcases reserveQuota_new hd' with rfl | ⟨hnew, -, hcases⟩
    · intro hnone hsome
      rw [Option.isNone_iff_eq_none] at hnone
      simp [hnone] at hsome
    · intro _ _
      have hold := h.ledgerOf_nil hnew
      unfold ledgerOf at hold
      rcases hcases with ⟨hlim, hl, ha⟩ | ⟨hlim, hl, ha⟩
      · rw [hlim, ha]
        simp [debited, ledgerOf, hl, hold]
      · rw [hlim, ha]
        simp [debited, ledgerOf, hl, hold]

/-! ### The ledger over runs -/

/-- **The ledger is sound.** In every run whose settlements find the accounts
as the reservations did, every state has a sound ledger, and every call takes
and gives tokens as the ledger says. -/
theorem ledger_sound (models : List CatalogModel) (ops : List Op) (t : Database)
    (h : exec (restrict step fun db op => keepsBooks db op = true) (fresh models) ops = some t) :
    LedgerSoundness models ops := by
  rintro before after rfl db hdb
  obtain ⟨u, hbefore, hafter⟩ := (exec_append _).mp h
  obtain rfl : u = db := Option.some.inj ((exec_restrict hbefore).symm.trans hdb)
  have hkept : Wf u ∧ Kept u := by
    refine exec_invariant (I := fun d => Wf d ∧ Kept d) ?_ ⟨wf_fresh models, kept_fresh models⟩ hbefore
    intro d op d' hi hs
    obtain ⟨hkeep, hs⟩ := restrict_eq_some.mp hs
    exact ⟨wf_step hi.1 hs, books_step hi.1 hi.2 hkeep hs⟩
  refine ⟨hkept.2.sound, fun op hop => ⟨records_debit hkept.2, ?_⟩⟩
  cases after with
  | nil => cases hop
  | cons op' rest =>
    cases hop
    obtain ⟨u', hs, -⟩ := (exec_cons _).mp hafter
    exact credits_debited (restrict_eq_some.mp hs).1

/-- A limited and an unlimited account; the first is made unlimited while all
of a reservation is used. -/
theorem ledger_sound_settled :
    LedgerSoundness [⟨"m", "model", .available, none⟩]
      [.createKey "k" "alice" .user "acct" "alice" "rio_k" 100 false,
       .createKey "j" "bob" .user "other" "bob" "rio_j" 0 true,
       .reserveQuota "r1" "h1" ⟨"k", "acct"⟩ "m" 60 "q1" "l1",
       .settleQuota "q1" 45 (some 5) (some 40) none "l2" 1,
       .reserveQuota "r2" "h2" ⟨"k", "acct"⟩ "m" 50 "q2" "l3",
       .updateQuota "k" 80 true,
       .settleQuota "q2" 70 (some 5) (some 65) none "l4" 2,
       .reserveQuota "r3" "h3" ⟨"j", "other"⟩ "m" 30 "q3" "l5",
       .resetUsage "k" 3,
       .releaseReservation "q3" "client_cancelled" "l6" 4] :=
  ledger_sound _ _ _ (by rfl)

/-- The account becomes limited while a reservation is in flight that took
nothing from it: the settlement credits 60 tokens, and the ledger row of the
reservation is their refund alone. -/
theorem ledger_unsound :
    ¬ LedgerSoundness [⟨"m", "model", .available, none⟩]
      [.createKey "k" "alice" .user "acct" "alice" "rio_k" 100 true,
       .reserveQuota "r1" "h1" ⟨"k", "acct"⟩ "m" 100 "q1" "l1",
       .updateQuota "k" 100 false,
       .settleQuota "q1" 40 (some 5) (some 35) none "l2" 1] := by
  intro h
  obtain ⟨hsound, -⟩ := h _ [] (List.append_nil _).symm _ (by rfl)
  have hrefunded := hsound.refunded "q1" ⟨"l2", "acct", "q1", 60, "settlement_refund"⟩
  revert hrefunded
  decide

end Database
end LlmRio
