/-
# Request rows and their reservations

A request row is QUEUED or ADMITTED as long as its reservation is RESERVED:
the statements that close a reservation close its rows with it. The two are
made by separate transactions, and `reserve_quota` hands back the reservation
of a known request whatever its state is. A row that is stored with a settled
reservation is served without a charge (`served_uncharged`); when each row is
stored with a RESERVED one, rows and reservations move together
(`rows_follow_reservations`).

Key definitions: `Paired`, `Op.storesReserved`.
Key theorems: `rows_follow_reservations`, `served_uncharged`.
-/
import LlmRio.Storage.Writes
import LlmRio.Storage.Reservations

namespace LlmRio

open Transactions Runs

namespace Database

/-- Each row is unfinished if and only if its reservation is RESERVED. -/
def Paired (db : Database) : Prop :=
  ∀ r ∈ db.inferenceRequests, ∃ q, db.reservation? r.reservationId = some q ∧
    (r.unfinished ↔ q.state = .reserved)

/-- A row is stored with a RESERVED reservation, if it is not there yet. -/
def Op.storesReserved (db : Database) : Op → Bool
  | .createInferenceRequest id _ _ rid _ =>
    db.inferenceRequests.any (·.id = id) || (db.reservation? rid).all (·.state = .reserved)
  | _ => true

variable {db db' : Database} {op : Op}

/-- The invariant of the runs. -/
abbrev Pairs : Database → Prop := RowsWith fun r q => r.unfinished ↔ q.state = .reserved

theorem closedRow_finished (p c : Option ℤ) (e : Option String) (now : Datetime) (r : InferenceRequest) :
    ¬ (closedRow p c e now r).unfinished := by
  unfold InferenceRequest.unfinished closedRow
  by_cases he : failedWith e = true
  · simp [he]
  · simp [he]

theorem pairs_step (h : Pairs db) (hok : op.storesReserved db = true) (hs : step db op = some db') :
    Pairs db' := by
  apply h.step hs
  · -- the row is new, so the condition is about its reservation
    intro r q p m e hop hqueued _ hnew hres
    have hnone : db.inferenceRequests.any (·.id = r.id) = false := by simpa using hnew
    have hstate : q.state = .reserved := by
      simpa [hop, Op.storesReserved, hnone, hres] using hok
    exact iff_of_true (.inl hqueued) hstate
  · intro w now r q hP hqueued
    exact iff_of_true (.inr rfl) (hP.mp (.inl hqueued))
  · intro charged p c e now r q _ _
    exact iff_of_false (closedRow_finished p c e now r) (by simp [closedReservation])

/-- After the recovery of a paired database every row is finished. -/
theorem pairs_recovered (h : Pairs db) (hw : Wf db) (uuid : ℕ → String) (now : Datetime) :
    ∀ r ∈ (db.recoverOrphanedState uuid now).1.inferenceRequests, ¬ r.unfinished := by
  have hs : step db (.recoverOrphanedState uuid now) = some (db.recoverOrphanedState uuid now).1 := rfl
  have h' := pairs_step h rfl hs
  intro r hr hopen
  obtain ⟨q, hq, -, hiff⟩ := h'.rows r hr
  exact (recover_settles hw uuid now).2 q hq (hiff.mp hopen)

/-- `mark_request_admitted` succeeds for a QUEUED row, whose reservation is RESERVED. -/
theorem pairs_admitted (h : Pairs db) {id : RequestId} {w : WorkerId} {now : Datetime}
    (hm : (db.markRequestAdmitted id w now).2 = true) :
    ∃ r ∈ db.inferenceRequests, r.id = id ∧ ∃ q, db.reservation? r.reservationId = some q ∧ q.state = .reserved := by
  unfold markRequestAdmitted at hm
  split at hm
  · rename_i hany
    obtain ⟨r, hr, hp⟩ := List.any_eq_true.mp hany
    obtain ⟨hid, hqueued⟩ := of_decide_eq_true hp
    obtain ⟨q, hq, hiff⟩ := h.lookup hr
    exact ⟨r, hr, hid, q, hq, hiff.mp (.inl hqueued)⟩
  · cases hm

/-- **Rows follow their reservations.** In every run that stores its rows with
RESERVED reservations, a row is unfinished if and only if its reservation is
RESERVED. After a recovery no row is unfinished, and only a row with a RESERVED
reservation is admitted. -/
theorem rows_follow_reservations (models : List CatalogModel) (ops : List Op) (db : Database)
    (h : exec (restrict step fun db op => op.storesReserved db = true) (fresh models) ops = some db) :
    Paired db ∧
      (∀ uuid now, ∀ r ∈ (db.recoverOrphanedState uuid now).1.inferenceRequests, ¬ r.unfinished) ∧
      ∀ id w now, (db.markRequestAdmitted id w now).2 = true → ∃ r ∈ db.inferenceRequests, r.id = id ∧
        ∃ q, db.reservation? r.reservationId = some q ∧ q.state = .reserved := by
  have hw : Wf db := exec_invariant (I := Wf) (fun _ _ _ => wf_step) (wf_fresh models) (exec_restrict h)
  have hp : Pairs db := by
    refine exec_invariant (I := Pairs) (fun d op d' hd hs => ?_) (RowsWith.fresh models) h
    obtain ⟨hok, hs⟩ := restrict_eq_some.mp hs
    exact pairs_step hd hok hs
  exact ⟨fun r hr => hp.lookup hr, pairs_recovered hp hw, fun _ _ _ => pairs_admitted hp⟩

/-- A request that waits, runs and is settled, and one that a recovery ends
before its row is stored. -/
theorem rows_follow_reservations_settled :
    ∃ db, exec (restrict step fun db op => op.storesReserved db = true)
        (fresh [⟨"m", "model", .available, none⟩])
        [.createKey "k" "alice" .user "acct" "alice" "rio_k" 100 false,
         .reserveQuota "r1" "h1" ⟨"k", "acct"⟩ "m" 60 "q1" "l1",
         .createInferenceRequest "r1" ⟨"k", "acct"⟩ "m" "q1" 60,
         .markRequestAdmitted "r1" "w" 1,
         .settleQuota "q1" 45 (some 5) (some 40) none "l2" 2,
         .reserveQuota "r2" "h2" ⟨"k", "acct"⟩ "m" 35 "q2" "l3",
         .recoverOrphanedState (fun _ => "l4") 3] = some db ∧ Paired db :=
  Exists.imp (fun db h => ⟨h, (rows_follow_reservations _ _ db h).1⟩) ⟨_, by rfl⟩

/-- The handler dies after it has reserved, the service recovers, and the
client sends its request again: the request gets the settled reservation, its
row is QUEUED and is admitted, and no settlement will charge it. -/
theorem served_uncharged :
    ∃ db, exec step (fresh [⟨"m", "model", .available, none⟩])
        [.createKey "k" "alice" .user "acct" "alice" "rio_k" 100 false,
         .reserveQuota "r1" "h1" ⟨"k", "acct"⟩ "m" 60 "q1" "l1",
         .recoverOrphanedState (fun _ => "l2") 1,
         .reserveQuota "r1" "h1" ⟨"k", "acct"⟩ "m" 60 "q2" "l3",
         .createInferenceRequest "r1" ⟨"k", "acct"⟩ "m" "q1" 60] = some db ∧
      ¬ Paired db ∧ (db.markRequestAdmitted "r1" "w" 2).2 = true ∧
      (db.quotaReservations.map fun q => (q.id, q.state)) = [("q1", .settled)] := by
  refine ⟨_, by rfl, fun h => ?_, by decide, by decide⟩
  obtain ⟨q, hq, hiff⟩ := h _ List.mem_cons_self
  cases hq
  exact absurd (hiff.mp (.inl rfl)) (by decide)

end Database
end LlmRio
