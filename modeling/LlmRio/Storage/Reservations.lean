/-
# What becomes of a reservation

Only `reserve_quota` makes a reservation RESERVED. Every other call leaves a
reservation as it is, settles it or drops it (`Follows`), and a settlement
succeeds in every database that has its constraints, so a recovery leaves none
RESERVED.

Key definitions: `Follows`.
Key theorems: `reservation_step`, `settleQuota_settles`, `recover_settles`.
-/
import LlmRio.Storage.Wellformed

namespace LlmRio

open Transactions

namespace Database

variable {db db' : Database}

/-! ### A reservation over a call -/

/-- The reservation `rid` is as before, is settled or is gone. -/
def Follows (rid : ReservationId) (db db' : Database) : Prop :=
  ∀ q', db'.reservation? rid = some q' → ∃ q, db.reservation? rid = some q ∧
    q'.requestId = q.requestId ∧ (q'.state = .reserved → q.state = .reserved)

section follows

variable {rid : ReservationId}

theorem Follows.of_lookup (h : db'.reservation? rid = db.reservation? rid) : Follows rid db db' :=
  fun q' hq' => ⟨q', h ▸ hq', rfl, id⟩

theorem Follows.of_eq (h : db'.quotaReservations = db.quotaReservations) : Follows rid db db' :=
  .of_lookup (by rw [reservation?, reservation?, h])

theorem Follows.trans {db1 : Database} (h : Follows rid db db1) (h1 : Follows rid db1 db') :
    Follows rid db db' := by
  intro q' hq'
  obtain ⟨q1, hq1, hr1, hs1⟩ := h1 q' hq'
  obtain ⟨q, hq, hr, hs⟩ := h q1 hq1
  exact ⟨q, hq, hr1.trans hr, hs ∘ hs1⟩

theorem follows_accounts (rid : ReservationId) (db : Database) : AccountInvariant (Follows rid db) :=
  .of_rows fun _ _ _ _ h => h.trans (.of_eq rfl)

theorem reservation_close (rid' : ReservationId) (charged : ℤ) (p c : Option ℤ) (e : Option String)
    (now : Datetime) : (db.closeReservation rid' charged p c e now).reservation? rid =
      if rid = rid' then (db.reservation? rid).map fun q =>
        { q with actualTokens := some charged, state := .settled, settledAt := some now }
      else db.reservation? rid := by
  have hid : ∀ q : QuotaReservation, q.id = rid' → QuotaReservation.id
      { q with actualTokens := some charged, state := .settled, settledAt := some now } = rid' :=
    fun _ h => h
  by_cases hrid : rid = rid'
  · rw [if_pos hrid, hrid]
    exact Table.lookup_modify_self hid _
  · rw [if_neg hrid]
    exact Table.lookup_modify_ne hrid hid _

theorem closeReservation_follows (rid' : ReservationId) (charged : ℤ) (p c : Option ℤ)
    (e : Option String) (now : Datetime) : Follows rid db (db.closeReservation rid' charged p c e now) := by
  intro q' hq'
  rw [reservation_close] at hq'
  split at hq'
  · obtain ⟨q, hq, rfl⟩ := Option.map_eq_some_iff.mp hq'
    exact ⟨q, hq, rfl, fun h => by cases h⟩
  · exact ⟨q', hq', rfl, id⟩

theorem settleQuota_follows {rid' : ReservationId} {n : ℤ} {p c : Option ℤ} {e : Option String}
    {lid : String} {now : Datetime} (h : db.settleQuota rid' n p c e lid now = .ok db') :
    Follows rid db db' :=
  (follows_accounts rid db).settle (.of_eq rfl)
    (fun _ charged hd => hd.trans (closeReservation_follows rid' charged p c e now)) h

theorem reservation_created {r : RequestId} {p : Principal} {m : ModelId} {rid' : ReservationId} {e : ℤ}
    (rid : ReservationId) :
    (db.run (.createInferenceRequest r p m rid' e)).reservation? rid = db.reservation? rid := by
  obtain ⟨rows, hrun⟩ := run_rows db (.createInferenceRequest r p m rid' e) rfl
  rw [hrun]
  rfl

theorem reservation_marked {r : RequestId} {w : WorkerId} {now : Datetime} (rid : ReservationId) :
    (db.run (.markRequestAdmitted r w now)).reservation? rid = db.reservation? rid := by
  obtain ⟨rows, hrun⟩ := run_rows db (.markRequestAdmitted r w now) rfl
  rw [hrun]
  rfl

theorem insertReservation_follows {q : QuotaReservation} (hid : q.id ≠ rid)
    (h : db.insertReservation q = .ok db') : Follows rid db db' := by
  obtain ⟨-, -, -, rfl⟩ := insertReservation_ok h
  intro q' hq'
  refine ⟨q', ?_, rfl, id⟩
  unfold reservation? at hq' ⊢
  rw [Table.lookup_append] at hq'
  cases hlook : Table.lookup QuotaReservation.id rid db.quotaReservations with
  | some q0 => simpa [hlook] using hq'
  | none => simp [hlook, Table.lookup_cons, hid] at hq'

theorem summarizeUsage_follows (hw : Wf db) {through : Cutoff} {now : Datetime} {report : SummaryReport}
    (h : db.summarizeUsage through now = .ok (db', report)) : Follows rid db db' := by
  obtain ⟨cutoff, summaries, start, -, -, -, rfl⟩ := summarizeUsage_ok h
  intro q' hq'
  obtain ⟨hmem, hid⟩ := Table.lookup_some hq'
  refine ⟨q', ?_, rfl, id⟩
  rw [← hid]
  exact Table.lookup_of_mem hw.reservationIds (List.mem_of_mem_filter hmem)

theorem reservation_step (hw : Wf db) {op : Op} (hs : step db op = some db')
    (hop : ∀ r h p m e lid, op ≠ .reserveQuota r h p m e rid lid) : Follows rid db db' := by
  unfold step at hs
  split at hs
  · cases hs
    have hrefl : Follows rid db db := .of_eq rfl
    cases op with
    | createKey | updateQuota | resetUsage => exact (follows_accounts rid db).run hrefl rfl
    | reserveQuota r hash p m e rid' lid =>
      have hne : rid' ≠ rid := fun heq => hop r hash p m e lid (by rw [heq])
      exact (follows_accounts rid db).reserve hrefl fun q d hid _ hok => insertReservation_follows (hid ▸ hne) hok
    | createInferenceRequest | markRequestAdmitted =>
      exact rows_invariant (I := Follows rid db) (fun _ => .of_eq rfl) rfl
    | settleQuota | releaseReservation | recoverOrphanedState =>
      exact settle_invariant hrefl (fun hd hok => hd.trans (settleQuota_follows hok)) rfl
    | summarizeUsage => exact summarize_invariant hrefl (summarizeUsage_follows hw)
  · cases hs

end follows

/-- In a database with its constraints an account can take a refund. -/
theorem refundAccount_succeeds (hw : Wf db) (a : AccountId) (rid : ReservationId) {refund : ℤ}
    (hr : 0 ≤ refund) (ledgerId : String) : ∃ db', db.refundAccount a rid refund ledgerId = .ok db' := by
  unfold refundAccount
  split
  · exact ⟨db, rfl⟩
  · split
    · have hok : ∀ b ∈ db.quotaAccounts, b.id = a →
          ({ b with balanceTokens := b.balanceTokens + refund } : QuotaAccount).checks = true := by
        intro b hb _
        have hb' := hw.checks b hb
        simp only [QuotaAccount.checks, decide_eq_true_eq] at hb' ⊢
        omega
      have hup := updateAccount_ok.mpr ⟨hok, rfl⟩
      rw [hup]
      exact ⟨_, rfl⟩
    · exact ⟨db, rfl⟩

/-- A settlement leaves the reservation settled, or gone: in a database with
its constraints it does not fail. -/
theorem settleQuota_settles (hw : Wf db) (rid : ReservationId) (n : ℤ) (p c : Option ℤ)
    (e : Option String) (lid : String) (now : Datetime) :
    ∃ db', db.settleQuota rid n p c e lid now = .ok db' ∧ ∀ q, db'.reservation? rid = some q → q.state ≠ .reserved := by
  unfold settleQuota
  cases hq : db.reservation? rid with
  | none => exact ⟨db, rfl, by simp [hq]⟩
  | some q =>
    by_cases hs : q.state = .reserved
    · simp only [hs, ne_eq, not_true_eq_false, if_false]
      have hpos : 0 ≤ q.reservedTokens - min (max 0 n) q.reservedTokens := by omega
      obtain ⟨db1, h1⟩ := refundAccount_succeeds hw q.accountId rid hpos lid
      rw [h1]
      refine ⟨_, rfl, fun q' hq' => ?_⟩
      rw [reservation_close, if_pos rfl] at hq'
      obtain ⟨q0, -, rfl⟩ := Option.map_eq_some_iff.mp hq'
      simp
    · simp only [hs, ne_eq, not_false_eq_true, if_true]
      refine ⟨db, rfl, fun q' hq' => ?_⟩
      rw [hq] at hq'
      cases hq'
      exact hs

/-- The loop of the recovery settles the reservations that it is given, and
does not raise. -/
theorem releaseAll_settles (uuid : ℕ → String) (now : Datetime) :
    ∀ {ids : List (ReservationId × ℕ)} {db : Database}, Wf db →
      (∀ q ∈ db.quotaReservations, q.state = .reserved → q.id ∈ ids.map (·.1)) →
        (releaseAll uuid now ids db).2 = none ∧
          ∀ q ∈ (releaseAll uuid now ids db).1.quotaReservations, q.state ≠ .reserved
  | [], _, _, hids => ⟨rfl, fun q hq hs => nomatch hids q hq hs⟩
  | (id, i) :: ids, db, hw, hids => by
    obtain ⟨db1, h1, hsettled⟩ :=
      settleQuota_settles hw id 0 none none (some "service_restarted") (uuid i) now
    have hstep : releaseAll uuid now ((id, i) :: ids) db = releaseAll uuid now ids db1 := by
      rw [releaseAll, releaseReservation, h1]
    rw [hstep]
    have hw1 := hw.settleQuota h1
    apply releaseAll_settles uuid now hw1
    intro q hq hs
    have hlook := Table.lookup_of_mem hw1.reservationIds hq
    obtain ⟨q0, hq0, -, hback⟩ := settleQuota_follows h1 q hlook
    obtain ⟨hmem, hid⟩ := Table.lookup_some hq0
    rcases List.mem_cons.mp (hid ▸ hids q0 hmem (hback hs)) with heq | hrest
    · rw [heq] at hlook
      exact absurd hs (hsettled q hlook)
    · exact hrest

/-- The recovery leaves no reservation RESERVED. -/
theorem recover_settles (hw : Wf db) (uuid : ℕ → String) (now : Datetime) :
    (db.recoverOrphanedState uuid now).2 = none ∧
      ∀ q ∈ (db.recoverOrphanedState uuid now).1.quotaReservations, q.state ≠ .reserved := by
  refine releaseAll_settles uuid now hw fun q hq hs => ?_
  rw [List.zipIdx_map_fst]
  exact List.mem_map.mpr ⟨q, List.mem_filter.mpr ⟨hq, by simpa using hs⟩, rfl⟩

end Database
end LlmRio
