/-
# The first settlement wins

The stream's finalizer, a failed worker, the drain watchdog, the expiry of an
idle stream, maintenance, a cancellation and the recovery may each settle the
same reservation, with different outcomes. `settle_quota` settles a RESERVED
reservation and then finds it SETTLED, so the first call decides what the
account, the ledger, the reservation and its rows hold
(`first_settlement_wins`).

Key definitions: `Settlement`, `Op.settles`, `Outcome`, `outcome`.
Key theorems: `run_closed`, `run_outcome`, `recover_run`, `completed_once`,
`first_settlement_wins`.
-/
import LlmRio.Storage.Writes
import LlmRio.Storage.Reservations

namespace LlmRio

open Transactions Runs

/-- The arguments of a settlement. -/
structure Settlement where
  actualTokens : ℤ
  promptTokens : Option ℤ
  completionTokens : Option ℤ
  errorCode : Option String
  ledgerId : String
  now : Datetime

/-- What the tables hold of a reservation. -/
structure Outcome where
  reservation : Option QuotaReservation
  requests : List InferenceRequest
  ledger : List LedgerRow

namespace Database

/-- The settlement of the reservation `rid` that the call asks for. -/
def Op.settles (rid : ReservationId) : Op → Option Settlement
  | .settleQuota rid' n p c e lid now => if rid' = rid then some ⟨n, p, c, e, lid, now⟩ else none
  | .releaseReservation rid' e lid now => if rid' = rid then some ⟨0, none, none, some e, lid, now⟩ else none
  | _ => none

/-- The calls that settle reservations. -/
def Op.settlement : Op → Bool
  | .settleQuota .. | .releaseReservation .. | .recoverOrphanedState .. => true
  | _ => false

def outcome (db : Database) (rid : ReservationId) : Outcome :=
  { reservation := db.reservation? rid
    requests := db.inferenceRequests.filter (·.reservationId = rid)
    ledger := db.quotaLedger.filter (·.reservationId = rid) }

/-- The reservation is not RESERVED. -/
def Closed (db : Database) (rid : ReservationId) : Prop :=
  ∀ q, db.reservation? rid = some q → q.state ≠ .reserved

/-- The account after a refund. -/
def credited (refund : ℤ) (a : QuotaAccount) : QuotaAccount :=
  if a.unlimited then a else { a with balanceTokens := a.balanceTokens + refund }

variable {db db' : Database} {op : Op} {rid : ReservationId}

theorem run_settles {s : Settlement} (h : op.settles rid = some s) :
    db.run op = commit db (db.settleQuota rid s.actualTokens s.promptTokens s.completionTokens s.errorCode
      s.ledgerId s.now) := by
  unfold Op.settles at h
  split at h
  · split at h
    · rename_i hrid
      cases h
      rw [← hrid]
      rfl
    · cases h
  · split at h
    · rename_i hrid
      cases h
      rw [← hrid]
      rfl
    · cases h
  · cases h

/-! ### A settled reservation -/

theorem settleQuota_closed (h : Closed db rid) {n : ℤ} {p c : Option ℤ} {e : Option String} {lid : String}
    {now : Datetime} : db.settleQuota rid n p c e lid now = .ok db := by
  unfold settleQuota
  cases hq : db.reservation? rid with
  | none => rfl
  | some q => simp [h q hq]

/-- A later settlement changes nothing at all. -/
theorem run_closed (h : Closed db rid) {s : Settlement} (hs : op.settles rid = some s) : db.run op = db := by
  rw [run_settles hs, settleQuota_closed h]
  rfl

theorem Closed.of_outcome (h : Closed db rid) (heq : db'.outcome rid = db.outcome rid) : Closed db' rid := by
  intro q hq
  have hres : db'.reservation? rid = db.reservation? rid := congrArg Outcome.reservation heq
  exact h q (hres ▸ hq)

theorem filter_close_ne {rid' : ReservationId} (hne : rid' ≠ rid) (charged : ℤ) (p c : Option ℤ)
    (e : Option String) (now : Datetime) :
    (db.closeReservation rid' charged p c e now).inferenceRequests.filter (·.reservationId = rid) =
      db.inferenceRequests.filter (·.reservationId = rid) := by
  apply Table.filter_modify_of_not
  intro r _ hr
  simp [hr, hne]

theorem refundAccount_rows {a : AccountId} {rid' : ReservationId} {refund : ℤ} {lid : String}
    (h : db.refundAccount a rid' refund lid = .ok db') :
    db'.quotaReservations = db.quotaReservations ∧ db'.inferenceRequests = db.inferenceRequests := by
  obtain ⟨db0, ledger, rfl, ⟨rfl, -⟩ | ⟨account, -, -, h0⟩⟩ := refundAccount_ok h
  · exact ⟨rfl, rfl⟩
  · obtain ⟨-, rfl⟩ := updateAccount_ok.mp h0
    exact ⟨rfl, rfl⟩

theorem filter_refund_ne {a : AccountId} {rid' : ReservationId} (hne : rid' ≠ rid) {refund : ℤ} {lid : String}
    (h : db.refundAccount a rid' refund lid = .ok db') :
    db'.quotaLedger.filter (·.reservationId = rid) = db.quotaLedger.filter (·.reservationId = rid) := by
  rcases refundAccount_ledger h with ⟨rfl, -⟩ | ⟨-, -, -, hledger⟩
  · rfl
  · rw [hledger]
    unfold insertLedgerOrIgnore
    split
    · rfl
    · simp [List.filter_append, hne]

/-- A settlement of another reservation is not seen. -/
theorem settleQuota_outcome (h : Closed db rid) {rid' : ReservationId} {n : ℤ} {p c : Option ℤ}
    {e : Option String} {lid : String} {now : Datetime}
    (hok : db.settleQuota rid' n p c e lid now = .ok db') : db'.outcome rid = db.outcome rid := by
  rcases settleQuota_ok hok with ⟨rfl, -⟩ | ⟨q, db1, hq, hs, hrefund, rfl⟩
  · rfl
  · have hne : rid' ≠ rid := by
      rintro rfl
      exact h q hq hs
    obtain ⟨hres, hreq⟩ := refundAccount_rows hrefund
    have hledger := filter_refund_ne hne hrefund
    unfold outcome
    rw [reservation_close, if_neg hne.symm, filter_close_ne hne, hreq]
    show Outcome.mk _ _ (db1.quotaLedger.filter _) = _
    rw [hledger, reservation?, hres, reservation?]

theorem run_outcome (h : Closed db rid) (hop : op.settlement = true) :
    (db.run op).outcome rid = db.outcome rid := by
  cases op with
  | settleQuota rid' n p c e lid now =>
    exact commit_invariant (I := fun d : Database => d.outcome rid = db.outcome rid) rfl
      fun d hd => settleQuota_outcome h hd
  | releaseReservation rid' e lid now =>
    exact commit_invariant (I := fun d : Database => d.outcome rid = db.outcome rid) rfl
      fun d hd => settleQuota_outcome h hd
  | recoverOrphanedState uuid now =>
    refine recover_invariant (I := fun d => d.outcome rid = db.outcome rid) (fun d d' _ _ _ hd hok => ?_) rfl
    exact (settleQuota_outcome (h.of_outcome hd) hok).trans hd
  | _ => cases hop

/-- Later settlements leave what the tables hold of the reservation, and those
of the reservation itself can be left out. -/
theorem settled_run : ∀ {later : List Op} {db : Database}, Closed db rid →
    (∀ op ∈ later, op.settlement = true) →
      (later.foldl run db).outcome rid = db.outcome rid ∧
        later.foldl run db = (later.filter fun op => (op.settles rid).isNone).foldl run db
  | [], _, _, _ => ⟨rfl, rfl⟩
  | op :: later, db, h, hlater => by
    have hout := run_outcome h (hlater op List.mem_cons_self)
    obtain ⟨hrest, hfilter⟩ := settled_run (h.of_outcome hout) fun o ho => hlater o (List.mem_cons_of_mem _ ho)
    rw [List.foldl_cons]
    refine ⟨hrest.trans hout, ?_⟩
    cases hs : op.settles rid with
    | none => simpa [List.filter_cons, hs] using hfilter
    | some s => simpa [List.filter_cons, hs, run_closed h hs] using hfilter

/-! ### The first settlement -/

theorem account_credited {a : AccountId} {rid' : ReservationId} {refund : ℤ} {lid : String}
    (h : db.refundAccount a rid' refund lid = .ok db') :
    db'.account? a = (db.account? a).map (credited refund) := by
  obtain ⟨db0, ledger, rfl, ⟨rfl, hkeep⟩ | ⟨account, hacct, hlim, h0⟩⟩ := refundAccount_ok h
  · show db0.account? a = _
    cases hacct : db0.account? a with
    | none => rfl
    | some account =>
      rcases hkeep account hacct with hu | hzero
      · simp [credited, hu]
      · simp [credited, hzero]
  · obtain ⟨-, rfl⟩ := updateAccount_ok.mp h0
    show Table.lookup QuotaAccount.id a (Table.modify QuotaAccount.id a _ db.quotaAccounts) = _
    have hid : ∀ b : QuotaAccount, b.id = a →
        QuotaAccount.id { b with balanceTokens := b.balanceTokens + refund } = a := fun _ hb => hb
    rw [Table.lookup_modify_self hid]
    show (db.account? a).map _ = _
    rw [hacct]
    simp [credited, hlim]

theorem filter_close_self (charged : ℤ) (p c : Option ℤ) (e : Option String) (now : Datetime) :
    (db.closeReservation rid charged p c e now).inferenceRequests.filter (·.reservationId = rid) =
      (db.inferenceRequests.filter (·.reservationId = rid)).map (closedRow p c e now) := by
  show (Table.modify InferenceRequest.reservationId rid (closedRow p c e now) db.inferenceRequests).filter _ = _
  have hcomm := @Table.filter_modify_comm _ _ _ InferenceRequest.reservationId rid (closedRow p c e now)
    (fun r => decide (r.reservationId = rid)) db.inferenceRequests fun _ _ _ => rfl
  rw [hcomm]
  unfold Table.modify
  refine List.map_congr_left fun r hr => ?_
  rw [if_pos (by simpa using (List.mem_filter.mp hr).2)]

/-- What a settlement of a RESERVED reservation leaves behind. -/
theorem run_reserved (hw : Wf db) {q : QuotaReservation} (hq : db.reservation? rid = some q)
    (hs : q.state = .reserved) {s : Settlement} (hop : op.settles rid = some s) :
    (db.run op).reservation? rid =
        some (closedReservation (min (max 0 s.actualTokens) q.reservedTokens) s.now q) ∧
      (db.run op).inferenceRequests.filter (·.reservationId = rid) =
        (db.inferenceRequests.filter (·.reservationId = rid)).map
          (closedRow s.promptTokens s.completionTokens s.errorCode s.now) ∧
      (db.run op).account? q.accountId = (db.account? q.accountId).map
        (credited (q.reservedTokens - min (max 0 s.actualTokens) q.reservedTokens)) := by
  have hpos : 0 ≤ q.reservedTokens - min (max 0 s.actualTokens) q.reservedTokens := by omega
  obtain ⟨db1, h1⟩ := refundAccount_succeeds hw q.accountId rid hpos s.ledgerId
  obtain ⟨hres, hreq⟩ := refundAccount_rows h1
  have hrun : db.run op = db1.closeReservation rid (min (max 0 s.actualTokens) q.reservedTokens)
      s.promptTokens s.completionTokens s.errorCode s.now := by
    rw [run_settles hop]
    unfold settleQuota
    simp only [hq, hs, ne_eq, not_true_eq_false, if_false, h1]
    rfl
  rw [hrun]
  have hacct : (db1.closeReservation rid (min (max 0 s.actualTokens) q.reservedTokens) s.promptTokens
      s.completionTokens s.errorCode s.now).account? q.accountId = db1.account? q.accountId := rfl
  refine ⟨?_, ?_, hacct.trans (account_credited h1)⟩
  · rw [reservation_close, if_pos rfl, reservation?, hres]
    show (db.reservation? rid).map _ = _
    rw [hq]
    rfl
  · rw [filter_close_self, hreq]

/-! ### Recovery and completion -/

/-- A recovery is a sequence of releases. -/
theorem releaseAll_run (uuid : ℕ → String) (now : Datetime) : ∀ {ids : List (ReservationId × ℕ)} {db : Database},
    Wf db → (releaseAll uuid now ids db).1 =
      (ids.map fun id => Op.releaseReservation id.1 "service_restarted" (uuid id.2) now).foldl run db
  | [], _, _ => rfl
  | (id, i) :: ids, db, hw => by
    obtain ⟨db1, h1, -⟩ := settleQuota_settles hw id 0 none none (some "service_restarted") (uuid i) now
    have hrun : db.run (.releaseReservation id "service_restarted" (uuid i) now) = db1 := by
      show commit db (db.settleQuota _ _ _ _ _ _ _) = db1
      rw [h1]
      rfl
    rw [releaseAll, releaseReservation, h1, List.map_cons, List.foldl_cons, hrun]
    exact releaseAll_run uuid now (hw.settleQuota h1)

theorem recover_run (hw : Wf db) (uuid : ℕ → String) (now : Datetime) :
    ∃ releases : List Op, (∀ op ∈ releases, ∃ rid lid, op = .releaseReservation rid "service_restarted" lid now) ∧
      db.run (.recoverOrphanedState uuid now) = releases.foldl run db := by
  refine ⟨_, ?_, releaseAll_run uuid now hw⟩
  intro op hop
  obtain ⟨id, -, rfl⟩ := List.mem_map.mp hop
  exact ⟨id.1, uuid id.2, rfl⟩

/-- A row is completed at most once, and not while its reservation is RESERVED. -/
abbrev Counted : Database → Prop :=
  RowsWith fun r q => r.completionCount ≤ 1 ∧ (q.state = .reserved → r.completionCount = 0)

theorem counted_step (h : Counted db) (hs : step db op = some db') : Counted db' := by
  apply h.step hs
  · intro r q _ _ _ _ _ hzero _ _
    exact ⟨by omega, fun _ => hzero⟩
  · intro w now r q hP _
    exact hP
  · intro charged p c e now r q hP hs
    have hzero := hP.2 hs
    refine ⟨?_, fun h => by cases h⟩
    show r.completionCount + 1 ≤ 1
    omega

theorem completed_once (h : Counted db) : ∀ r ∈ db.inferenceRequests, r.completionCount ≤ 1 := by
  intro r hr
  obtain ⟨q, -, -, hcount, -⟩ := h.rows r hr
  exact hcount

theorem step_settlement (hop : op.settlement = true) : step db op = some (db.run op) := by
  cases op <;> first | rfl | cases hop

theorem counted_run (h : Counted db) {calls : List Op} (hcalls : ∀ op ∈ calls, op.settlement = true) :
    Counted (calls.foldl run db) := by
  induction calls generalizing db with
  | nil => exact h
  | cons op calls ih =>
    have hop := hcalls op List.mem_cons_self
    exact ih (counted_step h (step_settlement hop)) fun o ho => hcalls o (List.mem_cons_of_mem _ ho)

/-- **The first settlement wins.** In every reachable database, the first call
that settles a RESERVED reservation charges `min (max 0 actual) reserved`, and
whatever settlements and recoveries follow, of this reservation or others, what
the tables hold of it stays as the first call left it: the run is the same
without the later calls for the reservation. A recovery is a sequence of
releases, so it counts as such calls. No row is ever completed twice. -/
theorem first_settlement_wins (models : List CatalogModel) (ops : List Op) (db : Database)
    (h : exec step (fresh models) ops = some db) :
    (∀ rid q, db.reservation? rid = some q → q.state = .reserved → ∀ first s, Op.settles rid first = some s →
      ∀ later : List Op, (∀ op ∈ later, op.settlement = true) →
        let charged := min (max 0 s.actualTokens) q.reservedTokens
        let settled := db.run first
        let final := later.foldl run settled
        (0 ≤ charged ∧ charged ≤ q.reservedTokens) ∧
        (settled.reservation? rid = some (closedReservation charged s.now q) ∧
          settled.inferenceRequests.filter (·.reservationId = rid) =
            (db.inferenceRequests.filter (·.reservationId = rid)).map
              (closedRow s.promptTokens s.completionTokens s.errorCode s.now) ∧
          settled.account? q.accountId =
            (db.account? q.accountId).map (credited (q.reservedTokens - charged))) ∧
        final.outcome rid = settled.outcome rid ∧
        final = (later.filter fun op => (op.settles rid).isNone).foldl run settled ∧
        ∀ r ∈ final.inferenceRequests, r.completionCount ≤ 1) ∧
    (∀ uuid now, ∃ releases : List Op,
      (∀ op ∈ releases, ∃ rid lid, op = .releaseReservation rid "service_restarted" lid now) ∧
        db.run (.recoverOrphanedState uuid now) = releases.foldl run db) ∧
    ∀ r ∈ db.inferenceRequests, r.completionCount ≤ 1 := by
  have hw : Wf db := exec_invariant (I := Wf) (fun _ _ _ => wf_step) (wf_fresh models) h
  have hc : Counted db :=
    exec_invariant (I := Counted) (fun _ _ _ hi hs => counted_step hi hs) (RowsWith.fresh models) h
  refine ⟨?_, fun uuid now => recover_run hw uuid now, completed_once hc⟩
  intro rid q hq hs first s hfirst later hlater charged settled final
  have hnonneg := hw.reservedNonneg q (Table.lookup_some hq).1
  have hafter := run_reserved hw hq hs hfirst
  have hclosed : Closed settled rid := by
    intro q' hq'
    rw [hafter.1] at hq'
    cases hq'
    simp [closedReservation]
  obtain ⟨hout, hsame⟩ := settled_run hclosed hlater
  have hfirst' : first.settlement = true := by
    cases first <;> first | rfl | cases hfirst
  have hcount : Counted final := counted_run (counted_step hc (step_settlement hfirst')) hlater
  have hcharged : 0 ≤ charged ∧ charged ≤ q.reservedTokens := ⟨by omega, by omega⟩
  exact ⟨hcharged, hafter, hout, hsame, completed_once hcount⟩

/-- The stream is finalized with its usage, and a failed worker, the drain
watchdog and a recovery come too late. -/
theorem first_settlement_wins_stream :
    ∃ db, exec step (fresh [⟨"m", "model", .available, none⟩])
        [.createKey "k" "alice" .user "acct" "alice" "rio_k" 100 false,
         .reserveQuota "r1" "h1" ⟨"k", "acct"⟩ "m" 60 "q1" "l1",
         .createInferenceRequest "r1" ⟨"k", "acct"⟩ "m" "q1" 60,
         .markRequestAdmitted "r1" "w" 1] = some db ∧
      (([.releaseReservation "q1" "worker_failed" "l3" 3, .settleQuota "q1" 60 none none (some "drain") "l4" 4,
          .recoverOrphanedState (fun _ => "l5") 5] : List Op).foldl run
        (db.run (.settleQuota "q1" 45 (some 5) (some 40) none "l2" 2))).outcome "q1" =
          (db.run (.settleQuota "q1" 45 (some 5) (some 40) none "l2" 2)).outcome "q1" := by
  have hrun := fun db h => (first_settlement_wins [⟨"m", "model", .available, none⟩]
    [.createKey "k" "alice" .user "acct" "alice" "rio_k" 100 false,
     .reserveQuota "r1" "h1" ⟨"k", "acct"⟩ "m" 60 "q1" "l1",
     .createInferenceRequest "r1" ⟨"k", "acct"⟩ "m" "q1" 60,
     .markRequestAdmitted "r1" "w" 1] db h).1 "q1"
  refine ⟨_, by rfl, ?_⟩
  exact (hrun _ (by rfl) _ (by rfl) (by rfl) _ _ (by rfl) _ (by decide)).2.2.1

end Database
end LlmRio
