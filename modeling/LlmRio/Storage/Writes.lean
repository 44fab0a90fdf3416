/-
# What a call writes

The calls of the quota interface write the reservations and the request rows
in few ways: a reservation or a row is added, a row is admitted, a reservation
is closed with its rows, or what a summary has counted is deleted (`Writes`).
Recovery closes one reservation after the other, so a step is a chain of
writes (`step_writes`), and what every write keeps, every step keeps
(`step_invariant`). A relation between rows and their reservations is kept if
it holds of a new row, and if admitting and closing a row keep it
(`RowsWith.step`).

Key definitions: `Writes`, `RowsWith`, `InferenceRequest.unfinished`.
Key theorems: `step_writes`, `step_invariant`, `RowsWith.step`.
-/
import LlmRio.Storage.Wellformed
import Mathlib.Logic.Relation

namespace LlmRio

open Transactions

/-- `state IN ('QUEUED', 'ADMITTED')` -/
def InferenceRequest.unfinished (r : InferenceRequest) : Prop := r.state = .queued ∨ r.state = .admitted

instance (r : InferenceRequest) : Decidable r.unfinished := inferInstanceAs (Decidable (_ ∨ _))

namespace Database

/-- One write to the reservations and the request rows. -/
inductive Writes (op : Op) (db db' : Database) : Prop
  | kept (hq : db'.quotaReservations = db.quotaReservations)
      (hr : db'.inferenceRequests = db.inferenceRequests)
  | reserved (q : QuotaReservation) (hs : q.state = .reserved)
      (hop : ∃ r h p m e lid, op = .reserveQuota r h p m e q.id lid)
      (hnew : ∀ p ∈ db.quotaReservations, p.id ≠ q.id)
      (hq : db'.quotaReservations = db.quotaReservations ++ [q])
      (hr : db'.inferenceRequests = db.inferenceRequests)
  | stored (r : InferenceRequest) (q : QuotaReservation) (hs : r.state = .queued) (hc : r.completionCount = 0)
      (hop : ∃ p m e, op = .createInferenceRequest r.id p m r.reservationId e)
      (hnew : ∀ p ∈ db.inferenceRequests, p.id ≠ r.id) (hres : db.reservation? r.reservationId = some q)
      (hq : db'.quotaReservations = db.quotaReservations)
      (hr : db'.inferenceRequests = db.inferenceRequests ++ [r])
  | admitted (id : RequestId) (w : WorkerId) (now : Datetime) (hdb : db' = (db.markRequestAdmitted id w now).1)
  | closed (rid : ReservationId) (q : QuotaReservation) (charged : ℤ) (p c : Option ℤ) (e : Option String)
      (now : Datetime) (hres : db.reservation? rid = some q) (hs : q.state = .reserved)
      (hq : db'.quotaReservations = (db.closeReservation rid charged p c e now).quotaReservations)
      (hr : db'.inferenceRequests = (db.closeReservation rid charged p c e now).inferenceRequests)
  | deleted (cutoff : Datetime) (hq : db'.quotaReservations = (db.deleteEligible cutoff).quotaReservations)
      (hr : db'.inferenceRequests = (db.deleteEligible cutoff).inferenceRequests)

variable {db db' : Database} {op : Op}

theorem closeReservation_ids (rid : ReservationId) (charged : ℤ) (p c : Option ℤ) (e : Option String)
    (now : Datetime) : (db.closeReservation rid charged p c e now).quotaReservations.map (·.id) =
      db.quotaReservations.map (·.id) :=
  Table.map_modify_of_eq fun _ _ _ => rfl

theorem updateAccount_writes {id : AccountId} {f : QuotaAccount → QuotaAccount}
    (h : db.updateAccount id f = .ok db') : Writes op db db' := by
  obtain ⟨-, rfl⟩ := updateAccount_ok.mp h
  exact .kept rfl rfl

theorem createKey_writes {k : KeyId} {n : String} {r : Role} {a : AccountId} {an p : String} {l : ℤ} {u : Bool}
    (h : db.createKey k n r a an p l u = .ok db') : Writes op db db' := by
  obtain ⟨acct, db1, db2, -, -, -, rfl, h2, key, rfl⟩ := createKey_ok h
  have h1 : (db.insertAccountOrIgnore acct).quotaReservations = db.quotaReservations ∧
      (db.insertAccountOrIgnore acct).inferenceRequests = db.inferenceRequests := by
    unfold insertAccountOrIgnore
    split <;> exact ⟨rfl, rfl⟩
  rcases h2 with rfl | h2
  · exact .kept h1.1 h1.2
  · obtain ⟨-, rfl⟩ := updateAccount_ok.mp h2
    exact .kept h1.1 h1.2

theorem reserveQuota_writes {r : RequestId} {h : String} {p : Principal} {m : ModelId} {e : ℤ}
    {rid rid' : ReservationId} {lid : String} (hok : db.reserveQuota r h p m e rid lid = .ok (db', rid')) :
    Writes (.reserveQuota r h p m e rid lid) db db' := by
  rcases reserveQuota_ok hok with ⟨q, -, -, -, -, rfl⟩ | ⟨-, account, db1, -, -, h1, hrest⟩
  · exact .kept rfl rfl
  · obtain ⟨hnew, -, -, rfl⟩ := insertReservation_ok h1
    have hids := fun p hp => (hnew p hp).1
    rcases hrest with ⟨-, rfl⟩ | ⟨-, db2, h2, rfl⟩
    · exact .reserved _ rfl ⟨_, _, _, _, _, _, rfl⟩ hids rfl rfl
    · obtain ⟨-, rfl⟩ := updateAccount_ok.mp h2
      exact .reserved _ rfl ⟨_, _, _, _, _, _, rfl⟩ hids rfl rfl

theorem createInferenceRequest_writes {r : RequestId} {p : Principal} {m : ModelId} {rid : ReservationId}
    {e : ℤ} (h : db.createInferenceRequest r p m rid e = .ok db') :
    Writes (.createInferenceRequest r p m rid e) db db' := by
  unfold createInferenceRequest at h
  split at h
  · cases h
    exact .kept rfl rfl
  · rename_i hnew
    obtain ⟨hrefs, h⟩ := guard_eq_ok.mp h
    cases h
    simp only [not_or, Bool.not_eq_true, Option.isNone_eq_false_iff] at hrefs
    obtain ⟨q, hq⟩ := Option.isSome_iff_exists.mp hrefs.2.2.2
    have hids : ∀ r' ∈ db.inferenceRequests, r'.id ≠ r := by simpa using hnew
    exact .stored _ q rfl rfl ⟨_, _, _, rfl⟩ hids hq rfl rfl

theorem settleQuota_writes {rid : ReservationId} {n : ℤ} {p c : Option ℤ} {e : Option String} {lid : String}
    {now : Datetime} (h : db.settleQuota rid n p c e lid now = .ok db') : Writes op db db' := by
  rcases settleQuota_ok h with ⟨rfl, -⟩ | ⟨q, db1, hres, hs, hrefund, rfl⟩
  · exact .kept rfl rfl
  · obtain ⟨db0, ledger, rfl, ⟨rfl, -⟩ | ⟨account, -, -, h0⟩⟩ := refundAccount_ok hrefund
    · exact .closed rid q _ p c e now hres hs rfl rfl
    · obtain ⟨-, rfl⟩ := updateAccount_ok.mp h0
      exact .closed rid q _ p c e now hres hs rfl rfl

/-- The call makes more than one transaction. -/
def Op.recovers : Op → Bool
  | .recoverOrphanedState .. => true
  | _ => false

/-- A call is a chain of writes: of one at most, from the database before the
call, unless it recovers. -/
theorem step_writes (hs : step db op = some db') :
    Relation.ReflTransGen (fun d d' => (op.recovers = true ∨ d = db) ∧ Writes op d d') db db' := by
  unfold step at hs
  split at hs
  · cases hs
    have hone : ∀ {d}, Writes op db d →
        Relation.ReflTransGen (fun d d' => (op.recovers = true ∨ d = db) ∧ Writes op d d') db d :=
      fun hw => .single ⟨.inr rfl, hw⟩
    cases op with
    | createKey k n r a an p l u => exact commit_invariant .refl fun d hd => hone (createKey_writes hd)
    | updateQuota k l u =>
      refine commit_invariant .refl fun d hd => ?_
      obtain ⟨⟨d', b⟩, hd', rfl⟩ := map_eq_ok hd
      rcases updateQuota_ok hd' with rfl | ⟨key, -, hup⟩
      · exact .refl
      · exact hone (updateAccount_writes hup)
    | resetUsage k now =>
      refine commit_invariant .refl fun d hd => ?_
      obtain ⟨⟨d', b⟩, hd', rfl⟩ := map_eq_ok hd
      rcases resetUsage_ok hd' with rfl | ⟨key, -, hup⟩
      · exact .refl
      · exact hone (updateAccount_writes hup)
    | reserveQuota r hash p m e rid lid =>
      refine commit_invariant .refl fun d hd => ?_
      obtain ⟨⟨d', rid'⟩, hd', rfl⟩ := map_eq_ok hd
      exact hone (reserveQuota_writes hd')
    | createInferenceRequest r p m rid e =>
      exact commit_invariant .refl fun d hd => hone (createInferenceRequest_writes hd)
    | markRequestAdmitted r w now => exact hone (.admitted r w now rfl)
    | settleQuota rid n p c e lid now => exact commit_invariant .refl fun d hd => hone (settleQuota_writes hd)
    | releaseReservation rid e lid now => exact commit_invariant .refl fun d hd => hone (settleQuota_writes hd)
    | summarizeUsage t now =>
      refine summarize_invariant .refl fun hok => ?_
      obtain ⟨cutoff, summaries, start, -, -, -, rfl⟩ := summarizeUsage_ok hok
      exact hone (.deleted cutoff rfl rfl)
    | recoverOrphanedState uuid now =>
      exact recover_invariant (fun _ _ _ _ _ hi hd => hi.tail ⟨.inl rfl, settleQuota_writes hd⟩) .refl
  · cases hs

/-- What every write of the call keeps, the call keeps. -/
theorem step_invariant {I : Database → Prop}
    (hI : ∀ d d', I d → (op.recovers = true ∨ d = db) → Writes op d d' → I d') (h : I db)
    (hs : step db op = some db') : I db' := by
  have hchain := step_writes hs
  clear hs
  induction hchain with
  | refl => exact h
  | tail _ hw ih => exact hI _ _ ih hw.1 hw.2

/-! ### Rows and their reservations -/

/-- The row as `mark_request_admitted` leaves a QUEUED one. -/
def admittedRow (w : WorkerId) (now : Datetime) (r : InferenceRequest) : InferenceRequest :=
  { r with
    state := .admitted
    workerId := some w
    admittedAt := some now
    acceptedCount := r.acceptedCount + 1 }

/-- The row as a settlement leaves it. -/
def closedRow (p c : Option ℤ) (e : Option String) (now : Datetime) (r : InferenceRequest) : InferenceRequest :=
  { r with
    state := if failedWith e then .failed else .completed
    actualPromptTokens := p
    actualCompletionTokens := c
    errorCode := e
    completedAt := some now
    completionCount := r.completionCount + 1 }

/-- The reservation as a settlement leaves it. -/
def closedReservation (charged : ℤ) (now : Datetime) (q : QuotaReservation) : QuotaReservation :=
  { q with actualTokens := some charged, state := .settled, settledAt := some now }

/-- Reservations are distinct, and each row has one that `P` relates it to. -/
structure RowsWith (P : InferenceRequest → QuotaReservation → Prop) (db : Database) : Prop where
  ids : (db.quotaReservations.map (·.id)).Nodup
  rows : ∀ r ∈ db.inferenceRequests, ∃ q ∈ db.quotaReservations, q.id = r.reservationId ∧ P r q

namespace RowsWith

variable {P : InferenceRequest → QuotaReservation → Prop}

theorem fresh (models : List CatalogModel) : RowsWith P (fresh models) := by
  constructor <;> simp [Database.fresh]

theorem lookup (h : RowsWith P db) {r : InferenceRequest} (hr : r ∈ db.inferenceRequests) :
    ∃ q, db.reservation? r.reservationId = some q ∧ P r q := by
  obtain ⟨q, hq, hid, hP⟩ := h.rows r hr
  have hlook := Table.lookup_of_mem h.ids hq
  rw [hid] at hlook
  exact ⟨q, hlook, hP⟩

theorem congr (h : RowsWith P db) (hq : db'.quotaReservations = db.quotaReservations)
    (hr : db'.inferenceRequests = db.inferenceRequests) : RowsWith P db' := by
  refine ⟨hq ▸ h.ids, ?_⟩
  rw [hq, hr]
  exact h.rows

theorem reserve (h : RowsWith P db) {q : QuotaReservation} (hnew : ∀ p ∈ db.quotaReservations, p.id ≠ q.id)
    (hq : db'.quotaReservations = db.quotaReservations ++ [q])
    (hr : db'.inferenceRequests = db.inferenceRequests) : RowsWith P db' := by
  refine ⟨?_, ?_⟩
  · rw [hq, List.map_append]
    refine List.Nodup.append h.ids (by simp) ?_
    simpa [List.disjoint_singleton] using hnew
  · rw [hq, hr]
    intro r hr
    obtain ⟨p, hp, hpair⟩ := h.rows r hr
    exact ⟨p, List.mem_append_left _ hp, hpair⟩

theorem store (h : RowsWith P db) {r : InferenceRequest} {q : QuotaReservation}
    (hres : db.reservation? r.reservationId = some q) (hP : P r q)
    (hq : db'.quotaReservations = db.quotaReservations)
    (hr : db'.inferenceRequests = db.inferenceRequests ++ [r]) : RowsWith P db' := by
  refine ⟨hq ▸ h.ids, ?_⟩
  rw [hq, hr]
  intro r' hr'
  rcases List.mem_append.mp hr' with hr' | hr'
  · exact h.rows r' hr'
  · obtain ⟨hmem, hid⟩ := Table.lookup_some hres
    rw [List.mem_singleton.mp hr']
    exact ⟨q, hmem, hid, hP⟩

theorem mark (h : RowsWith P db) (id : RequestId) (w : WorkerId) (now : Datetime)
    (hP : ∀ r q, P r q → r.state = .queued → P (admittedRow w now r) q) :
    RowsWith P (db.markRequestAdmitted id w now).1 := by
  unfold markRequestAdmitted
  split
  · refine ⟨h.ids, fun r hr => ?_⟩
    rcases Table.mem_modify.mp hr with ⟨hr, -⟩ | ⟨r0, hr0, -, rfl⟩
    · exact h.rows r hr
    · obtain ⟨q, hq, hid, hr0⟩ := h.rows r0 hr0
      by_cases hs : r0.state = .queued
      · rw [if_pos hs]
        exact ⟨q, hq, hid, hP r0 q hr0 hs⟩
      · rw [if_neg hs]
        exact ⟨q, hq, hid, hr0⟩
  · exact h

/-- A reservation is closed together with its rows. -/
theorem close (h : RowsWith P db) {rid : ReservationId} {q : QuotaReservation} {charged : ℤ} {p c : Option ℤ}
    {e : Option String} {now : Datetime} (hres : db.reservation? rid = some q)
    (hP : ∀ r, P r q → P (closedRow p c e now r) (closedReservation charged now q)) :
    RowsWith P (db.closeReservation rid charged p c e now) := by
  refine ⟨?_, fun r hr => ?_⟩
  · rw [closeReservation_ids]
    exact h.ids
  · rcases Table.mem_modify.mp hr with ⟨hr, hne⟩ | ⟨r0, hr0, hrid, rfl⟩
    · obtain ⟨p, hp, hid, hPr⟩ := h.rows r hr
      exact ⟨p, Table.mem_modify.mpr (.inl ⟨hp, hid ▸ hne⟩), hid, hPr⟩
    · obtain ⟨p, hp, hid, hPr⟩ := h.rows r0 hr0
      obtain ⟨hmem, hqid⟩ := Table.lookup_some hres
      obtain rfl : p = q := Table.eq_of_key h.ids hp hmem (hid.trans (hrid.trans hqid.symm))
      exact ⟨_, Table.mem_modify.mpr (.inr ⟨p, hp, hqid, rfl⟩), hid, hP r0 hPr⟩

/-- A reservation is deleted together with its rows. -/
theorem delete (h : RowsWith P db) (cutoff : Datetime) : RowsWith P (db.deleteEligible cutoff) := by
  refine ⟨h.ids.sublist (List.filter_sublist.map _), fun r hr => ?_⟩
  obtain ⟨hr, hkeep⟩ := List.mem_filter.mp hr
  obtain ⟨q, hq, hid, hP⟩ := h.rows r hr
  have hnot : eligible cutoff q ≠ true := by
    intro helig
    have hmem : r.reservationId ∈ db.eligibleIds cutoff :=
      List.mem_map.mpr ⟨q, List.mem_filter.mpr ⟨hq, helig⟩, hid⟩
    simp [hmem] at hkeep
  exact ⟨q, List.mem_filter.mpr ⟨hq, by simpa using hnot⟩, hid, hP⟩

/-- A call keeps `P` if storing, admitting and closing a row does. -/
theorem step (h : RowsWith P db) (hs : step db op = some db')
    (hstore : ∀ r q p m e, op = .createInferenceRequest r.id p m r.reservationId e → r.state = .queued →
      r.completionCount = 0 → (∀ r' ∈ db.inferenceRequests, r'.id ≠ r.id) →
      db.reservation? r.reservationId = some q → P r q)
    (hmark : ∀ w now r q, P r q → r.state = .queued → P (admittedRow w now r) q)
    (hclose : ∀ charged p c e now r q, P r q → q.state = .reserved →
      P (closedRow p c e now r) (closedReservation charged now q)) : RowsWith P db' := by
  refine step_invariant (I := RowsWith P) (fun d d' hd hfrom hw => ?_) h hs
  cases hw with
  | kept hq hr => exact hd.congr hq hr
  | reserved q _ _ hnew hq hr => exact hd.reserve hnew hq hr
  | stored r q hqueued hc hop hnew hres hq hr =>
    obtain ⟨p, m, e, rfl⟩ := hop
    rcases hfrom with hrec | rfl
    · cases hrec
    · exact hd.store hres (hstore r q p m e rfl hqueued hc hnew hres) hq hr
  | admitted id w now hdb => exact hdb ▸ hd.mark id w now (hmark w now)
  | closed rid q charged p c e now hres hq hr hdb =>
    have hclosed := hd.close hres fun r hP => hclose charged p c e now r q hP hq
    exact hclosed.congr hr hdb
  | deleted cutoff hq hr => exact (hd.delete cutoff).congr hq hr

end RowsWith
end Database
end LlmRio
