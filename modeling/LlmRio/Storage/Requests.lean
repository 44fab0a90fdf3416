/-
# A request from its row to its end

The calls that serve a request store its row, admit it, and close it together
with its reservation. A row that is COMPLETED or FAILED stays so, and its
reservation is settled (`Ended`); until then the reservation is RESERVED
(`Backs`). Each of the calls keeps both, whatever requests it is about.

Key definitions: `HasRow`, `Ended`, `Backs`, `Sound`.
Key theorems: `sound_step`, `Backs.unique`, `Backs.closed`, `Backs.reserve`,
`Backs.store`, `Backs.mark`, `Backs.settle`.
-/
import LlmRio.Storage.Settlement
import LlmRio.Storage.Pairing

namespace LlmRio

open Transactions

namespace Database

/-- The request has a row. -/
def HasRow (db : Database) (r : RequestId) : Prop := ∃ row ∈ db.inferenceRequests, row.id = r

/-- The row of the request is COMPLETED or FAILED. -/
def Ended (db : Database) (r : RequestId) : Prop :=
  ∃ row ∈ db.inferenceRequests, row.id = r ∧ ¬ row.unfinished

/-- The reservation is one of the request, and RESERVED until the request has
ended. -/
def Backs (db : Database) (rid : ReservationId) (r : RequestId) : Prop :=
  ∃ q, db.reservation? rid = some q ∧ q.requestId = r ∧ (Ended db r ∨ q.state = .reserved)

/-- What holds of every reachable database: the row of a request is finished
only with its reservation, and a request has one reservation. -/
structure Sound (db : Database) : Prop where
  wf : Wf db
  closes : RowsWith (fun r q => ¬ r.unfinished → q.state ≠ .reserved) db
  requests : (db.quotaReservations.map (·.requestId)).Nodup

variable {db db' : Database} {op : Op} {rid rid' : ReservationId} {r r' : RequestId}

/-! ### Every reachable database -/

theorem sound_fresh (models : List CatalogModel) : Sound (fresh models) :=
  ⟨wf_fresh models, RowsWith.fresh models, List.nodup_nil⟩

theorem closes_step (h : RowsWith (fun r q => ¬ r.unfinished → q.state ≠ .reserved) db)
    (hs : step db op = some db') : RowsWith (fun r q => ¬ r.unfinished → q.state ≠ .reserved) db' := by
  apply h.step hs
  · intro r q p m e _ hqueued _ _ _ hfinished
    exact absurd (.inl hqueued) hfinished
  · intro w now r q _ _ hfinished
    exact absurd (.inr rfl) hfinished
  · intro charged p c e now r q _ _ _
    simp [closedReservation]

theorem map_request_close (rid : ReservationId) (charged : ℤ) (p c : Option ℤ) (e : Option String)
    (now : Datetime) : (db.closeReservation rid charged p c e now).quotaReservations.map (·.requestId) =
      db.quotaReservations.map (·.requestId) :=
  Table.map_modify_of_eq fun _ _ _ => rfl

theorem requests_step (h : (db.quotaReservations.map (·.requestId)).Nodup) (hs : step db op = some db') :
    (db'.quotaReservations.map (·.requestId)).Nodup := by
  by_cases hop : ∃ r h p m e rid lid, op = .reserveQuota r h p m e rid lid
  · obtain ⟨r, hash, p, m, e, rid, lid, rfl⟩ := hop
    cases hs
    refine commit_invariant (I := fun d : Database => (d.quotaReservations.map (·.requestId)).Nodup) h
      fun d hd => ?_
    obtain ⟨⟨d', rid'⟩, hd', rfl⟩ := map_eq_ok hd
    rcases reserveQuota_ok hd' with ⟨q, -, -, -, -, rfl⟩ | ⟨-, account, db1, -, -, h1, hrest⟩
    · exact h
    · obtain ⟨hnew, -, -, rfl⟩ := insertReservation_ok h1
      have hadd : ∀ q : QuotaReservation, (∀ p ∈ db.quotaReservations, p.requestId ≠ q.requestId) →
          ((db.quotaReservations ++ [q]).map (·.requestId)).Nodup := by
        intro q hq
        rw [List.map_append]
        refine List.Nodup.append h (by simp) ?_
        simpa [List.disjoint_singleton] using hq
      have hnew := hadd _ fun p hp => (hnew p hp).2
      rcases hrest with ⟨-, rfl⟩ | ⟨-, db2, h2, rfl⟩
      · exact hnew
      · obtain ⟨-, rfl⟩ := updateAccount_ok.mp h2
        exact hnew
  · refine step_invariant (I := fun d => (d.quotaReservations.map (·.requestId)).Nodup)
      (fun d d' hd _ hw => ?_) h hs
    cases hw with
    | kept hq _ | stored _ _ _ _ _ _ _ hq _ => exact hq ▸ hd
    | reserved q _ hres _ _ _ =>
      obtain ⟨r, h, p, m, e, lid, rfl⟩ := hres
      exact absurd ⟨_, _, _, _, _, _, _, rfl⟩ hop
    | admitted id w now hdb =>
      rw [hdb]
      unfold markRequestAdmitted
      split <;> exact hd
    | closed rid q charged p c e now _ _ hq _ =>
      rw [hq, map_request_close]
      exact hd
    | deleted cutoff hq _ =>
      rw [hq]
      exact hd.sublist (List.filter_sublist.map _)

theorem sound_step (h : Sound db) (hs : step db op = some db') : Sound db' :=
  ⟨wf_step h.wf hs, closes_step h.closes hs, requests_step h.requests hs⟩

/-- A request has one reservation. -/
theorem Backs.unique (hs : Sound db) (h : Backs db rid r) (h' : Backs db rid' r) : rid = rid' := by
  obtain ⟨q, hq, hreq, -⟩ := h
  obtain ⟨q', hq', hreq', -⟩ := h'
  obtain ⟨hmem, rfl⟩ := Table.lookup_some hq
  obtain ⟨hmem', rfl⟩ := Table.lookup_some hq'
  rw [Table.eq_of_key hs.requests hmem hmem' (hreq.trans hreq'.symm)]

/-- A row of the request has its reservation. -/
theorem Backs.of_row (hs : Sound db) (h : Backs db rid r) {row : InferenceRequest}
    (hrow : row ∈ db.inferenceRequests) (hid : row.id = r) : row.reservationId = rid := by
  obtain ⟨q, hq, hreq, -⟩ := h
  obtain ⟨hmem, rfl⟩ := Table.lookup_some hq
  obtain ⟨q', hmem', hid', hreq'⟩ := hs.wf.linked row hrow
  rw [← hid', Table.eq_of_key hs.requests hmem' hmem (hreq'.trans (hid.trans hreq.symm))]

/-- The reservation of a request that has ended is settled. -/
theorem Backs.closed (hs : Sound db) (h : Backs db rid r) (hend : Ended db r) : Closed db rid := by
  obtain ⟨row, hrow, hid, hfinished⟩ := hend
  obtain ⟨q, hq, hstate⟩ := hs.closes.lookup hrow
  rw [h.of_row hs hrow hid] at hq
  intro q' hq'
  obtain rfl : q = q' := Option.some.inj (hq.symm.trans hq')
  exact hstate hfinished

/-- The reservation of a request that has not ended is RESERVED. -/
theorem Backs.reserved (h : Backs db rid r) (hend : ¬ Ended db r) :
    ∃ q, db.reservation? rid = some q ∧ q.state = .reserved := by
  obtain ⟨q, hq, -, hstate⟩ := h
  exact ⟨q, hq, hstate.resolve_left hend⟩

/-! ### What the rows keep -/

/-- The rows stay, and those that are finished stay so. -/
def RowsStay (db db' : Database) : Prop :=
  ∀ row ∈ db.inferenceRequests, ∃ row' ∈ db'.inferenceRequests,
    row'.id = row.id ∧ (¬ row.unfinished → ¬ row'.unfinished)

theorem RowsStay.of_eq (h : db'.inferenceRequests = db.inferenceRequests) : RowsStay db db' :=
  fun row hrow => ⟨row, h ▸ hrow, rfl, id⟩

theorem RowsStay.stored (h : RowsStay db db') (hr : HasRow db r) : HasRow db' r := by
  obtain ⟨row, hrow, hid⟩ := hr
  obtain ⟨row', hrow', hid', -⟩ := h row hrow
  exact ⟨row', hrow', hid'.trans hid⟩

theorem RowsStay.ended (h : RowsStay db db') (hr : Ended db r) : Ended db' r := by
  obtain ⟨row, hrow, hid, hfinished⟩ := hr
  obtain ⟨row', hrow', hid', hfinished'⟩ := h row hrow
  exact ⟨row', hrow', hid'.trans hid, hfinished' hfinished⟩

/-- A change of the rows that leaves the reservation. -/
theorem Backs.of_rows (h : Backs db rid r) (hrows : RowsStay db db')
    (hres : ∀ q, db.reservation? rid = some q → db'.reservation? rid = some q) : Backs db' rid r := by
  obtain ⟨q, hq, hreq, hstate⟩ := h
  exact ⟨q, hres q hq, hreq, hstate.imp_left hrows.ended⟩

/-! ### reserve_quota -/

section reserve

variable {hash : String} {p : Principal} {m : ModelId} {e : ℤ} {lid : String} {k : ReservationId}

theorem reserve_rows (h : db.reserveQuota r hash p m e rid lid = .ok (db', rid')) :
    db'.inferenceRequests = db.inferenceRequests := by
  rcases reserveQuota_ok h with ⟨q, -, -, -, -, rfl⟩ | ⟨-, account, db1, -, -, h1, hrest⟩
  · rfl
  · obtain ⟨-, -, -, rfl⟩ := insertReservation_ok h1
    rcases hrest with ⟨-, rfl⟩ | ⟨-, db2, h2, rfl⟩
    · rfl
    · obtain ⟨-, rfl⟩ := updateAccount_ok.mp h2
      rfl

/-- The request has the reservation of before, or a new one that is RESERVED. -/
theorem reserve_cases (h : db.reserveQuota r hash p m e rid lid = .ok (db', rid')) :
    (db' = db ∧ ∃ q ∈ db.quotaReservations, q.id = rid' ∧ q.requestId = r) ∨
      ∃ q, db'.quotaReservations = db.quotaReservations ++ [q] ∧ q.id = rid' ∧ q.requestId = r ∧
        q.state = .reserved ∧ db.reservation? rid' = none := by
  rcases reserveQuota_ok h with ⟨q, hq, hid, hreq, -, rfl⟩ | ⟨rfl, account, db1, -, -, h1, hrest⟩
  · exact .inl ⟨rfl, q, hq, hid, hreq⟩
  · obtain ⟨hnew, -, -, rfl⟩ := insertReservation_ok h1
    have hnone : db.reservation? rid' = none := Table.lookup_none.mpr fun p hp => (hnew p hp).1
    rcases hrest with ⟨-, rfl⟩ | ⟨-, db2, h2, rfl⟩
    · exact .inr ⟨_, rfl, rfl, rfl, rfl, hnone⟩
    · obtain ⟨-, rfl⟩ := updateAccount_ok.mp h2
      exact .inr ⟨_, rfl, rfl, rfl, rfl, hnone⟩

theorem reserve_kept (h : db.reserveQuota r hash p m e rid lid = .ok (db', rid')) {q : QuotaReservation}
    {k : ReservationId} (hq : db.reservation? k = some q) : db'.reservation? k = some q := by
  rcases reserve_cases h with ⟨rfl, -⟩ | ⟨q', hres, -⟩
  · exact hq
  · unfold reservation? at hq ⊢
    rw [hres, Table.lookup_append, hq]
    rfl

theorem Backs.reserve (hb : Backs db k r') (h : db.reserveQuota r hash p m e rid lid = .ok (db', rid')) :
    Backs db' k r' :=
  hb.of_rows (.of_eq (reserve_rows h)) fun _ => reserve_kept h

/-- The reservation that is returned is one of the request. -/
theorem reserve_backs (hs : Sound db) (h : db.reserveQuota r hash p m e rid lid = .ok (db', rid'))
    (hover : db' = db → Ended db r) : Backs db' rid' r := by
  rcases reserve_cases h with ⟨rfl, q, hq, hid, hreq⟩ | ⟨q, hres, hid, hreq, hstate, hnone⟩
  · exact ⟨q, hid ▸ Table.lookup_of_mem hs.wf.reservationIds hq, hreq, .inl (hover rfl)⟩
  · refine ⟨q, ?_, hreq, .inr hstate⟩
    unfold reservation? at hnone ⊢
    rw [hres, Table.lookup_append, hnone, Option.none_or, Table.lookup_cons, if_pos hid]

end reserve

/-! ### create_inference_request -/

section create

variable {p : Principal} {m : ModelId} {e : ℤ}

theorem store_cases (h : db.createInferenceRequest r p m rid e = .ok db') :
    (db' = db ∧ HasRow db r) ∨ ∃ row, row.id = r ∧ row.state = .queued ∧
      db' = { db with inferenceRequests := db.inferenceRequests ++ [row] } := by
  unfold createInferenceRequest at h
  split at h
  · rename_i hany
    cases h
    obtain ⟨row, hrow, hid⟩ := List.any_eq_true.mp hany
    exact .inl ⟨rfl, row, hrow, by simpa using hid⟩
  · obtain ⟨-, h⟩ := guard_eq_ok.mp h
    cases h
    exact .inr ⟨_, rfl, rfl, rfl⟩

theorem store_stored (h : db.createInferenceRequest r p m rid e = .ok db') : HasRow db' r := by
  rcases store_cases h with ⟨rfl, hst⟩ | ⟨row, hid, -, rfl⟩
  · exact hst
  · exact ⟨row, List.mem_append_right _ (List.mem_singleton_self row), hid⟩

theorem store_rows (h : db.createInferenceRequest r p m rid e = .ok db') : RowsStay db db' := by
  rcases store_cases h with ⟨rfl, -⟩ | ⟨row, -, -, rfl⟩
  · exact .of_eq rfl
  · exact fun row' hrow => ⟨row', List.mem_append_left _ hrow, rfl, id⟩

theorem store_ended (h : db.createInferenceRequest r p m rid e = .ok db') (hend : Ended db' r') : Ended db r' := by
  rcases store_cases h with ⟨rfl, -⟩ | ⟨row, -, hqueued, rfl⟩
  · exact hend
  · obtain ⟨row', hrow, hid, hfinished⟩ := hend
    rcases List.mem_append.mp hrow with hrow | hrow
    · exact ⟨row', hrow, hid, hfinished⟩
    · rw [List.mem_singleton.mp hrow] at hfinished
      exact absurd (.inl hqueued) hfinished

theorem Backs.store (hb : Backs db rid' r') (h : db.createInferenceRequest r p m rid e = .ok db') :
    Backs db' rid' r' := by
  refine hb.of_rows (store_rows h) fun q hq => ?_
  rcases store_cases h with ⟨rfl, -⟩ | ⟨row, -, -, rfl⟩
  · exact hq
  · exact hq

end create

/-! ### mark_request_admitted -/

section mark

variable {w : WorkerId} {now : Datetime}

/-- Only a request that has not ended is marked. -/
theorem mark_ended (hs : Sound db) (h : (db.markRequestAdmitted r w now).2 = true) : ¬ Ended db r := by
  unfold markRequestAdmitted at h
  split at h
  · rename_i hany
    obtain ⟨row, hrow, hp⟩ := List.any_eq_true.mp hany
    obtain ⟨hid, hqueued⟩ := of_decide_eq_true hp
    rintro ⟨row', hrow', hid', hfinished⟩
    rw [Table.eq_of_key hs.wf.requestIds hrow' hrow (hid'.trans hid.symm)] at hfinished
    exact hfinished (.inl hqueued)
  · cases h

theorem mark_rows : RowsStay db (db.markRequestAdmitted r w now).1 := by
  unfold markRequestAdmitted
  split
  · intro row hrow
    by_cases hid : row.id = r
    · refine ⟨_, Table.mem_modify.mpr (.inr ⟨row, hrow, hid, rfl⟩), ?_, ?_⟩
      · split <;> rfl
      · intro hfinished
        have hqueued : row.state ≠ .queued := fun h => hfinished (.inl h)
        rw [if_neg hqueued]
        exact hfinished
    · exact ⟨row, Table.mem_modify.mpr (.inl ⟨hrow, hid⟩), rfl, id⟩
  · exact .of_eq rfl

theorem ended_of_mark (h : Ended (db.markRequestAdmitted r w now).1 r') : Ended db r' := by
  unfold markRequestAdmitted at h
  split at h
  · obtain ⟨row, hrow, hid, hfinished⟩ := h
    rcases Table.mem_modify.mp hrow with ⟨hrow, -⟩ | ⟨row0, hrow0, -, rfl⟩
    · exact ⟨row, hrow, hid, hfinished⟩
    · split at hid
      · rename_i hqueued
        rw [if_pos hqueued] at hfinished
        exact absurd (.inr rfl) hfinished
      · rename_i hqueued
        rw [if_neg hqueued] at hfinished
        exact ⟨row0, hrow0, hid, hfinished⟩
  · exact h

theorem Backs.mark (hb : Backs db rid r') : Backs (db.markRequestAdmitted r w now).1 rid r' :=
  hb.of_rows mark_rows fun _ hq => (reservation_marked rid).trans hq

end mark

/-! ### settle_quota -/

section settle

variable {s : Settlement} {k : ReservationId}

theorem settles_settle (k : ReservationId) (n : ℤ) (p c : Option ℤ) (e : Option String) (lid : String)
    (now : Datetime) : Op.settles k (.settleQuota k n p c e lid now) = some ⟨n, p, c, e, lid, now⟩ := if_pos rfl

theorem settles_release (k : ReservationId) (e lid : String) (now : Datetime) :
    Op.settles k (.releaseReservation k e lid now) = some ⟨0, none, none, some e, lid, now⟩ := if_pos rfl

/-- A settlement closes the reservation and its rows, or changes nothing. -/
theorem settle_cases (hw : Wf db) (hop : op.settles k = some s) :
    (db.run op = db ∧ Closed db k) ∨
      (∃ q, db.reservation? k = some q ∧ q.state = .reserved) ∧
      (db.run op).inferenceRequests = Table.modify InferenceRequest.reservationId k
        (closedRow s.promptTokens s.completionTokens s.errorCode s.now) db.inferenceRequests ∧
      ∀ rid, (db.run op).reservation? rid =
        if rid = k then (db.reservation? rid).map fun q =>
          closedReservation (min (max 0 s.actualTokens) q.reservedTokens) s.now q
        else db.reservation? rid := by
  obtain ⟨db', hok, -⟩ := settleQuota_settles hw k s.actualTokens s.promptTokens s.completionTokens s.errorCode
    s.ledgerId s.now
  have hrun : db.run op = db' := by
    rw [run_settles hop, hok]
    rfl
  rw [hrun]
  rcases settleQuota_ok hok with ⟨rfl, hclosed⟩ | ⟨q, db1, hq, hs, hrefund, rfl⟩
  · exact .inl ⟨rfl, hclosed⟩
  · obtain ⟨hres, hrows⟩ := refundAccount_rows hrefund
    refine .inr ⟨⟨q, hq, hs⟩, ?_, fun rid => ?_⟩
    · show Table.modify _ _ _ db1.inferenceRequests = _
      rw [hrows]
      rfl
    · rw [reservation_close]
      by_cases hrid : rid = k
      · subst hrid
        rw [if_pos rfl, if_pos rfl, reservation?, hres]
        show (db.reservation? rid).map _ = _
        rw [hq]
        rfl
      · rw [if_neg hrid, if_neg hrid, reservation?, hres]
        rfl

theorem settle_rows (hw : Wf db) (hop : op.settles k = some s) : RowsStay db (db.run op) := by
  rcases settle_cases hw hop with ⟨heq, -⟩ | ⟨-, hrows, -⟩
  · exact .of_eq (by rw [heq])
  · intro row hrow
    rw [hrows]
    by_cases hid : row.reservationId = k
    · exact ⟨_, Table.mem_modify.mpr (.inr ⟨row, hrow, hid, rfl⟩), rfl, fun _ => closedRow_finished _ _ _ _ _⟩
    · exact ⟨row, Table.mem_modify.mpr (.inl ⟨hrow, hid⟩), rfl, id⟩

/-- Only requests of the reservation end. -/
theorem ended_of_settle (hs : Sound db) (hb : Backs db k r) (hop : op.settles k = some s)
    (hend : Ended (db.run op) r') : Ended db r' ∨ r' = r := by
  rcases settle_cases hs.wf hop with ⟨heq, -⟩ | ⟨-, hrows, -⟩
  · rw [heq] at hend
    exact .inl hend
  · obtain ⟨row, hrow, hid, hfinished⟩ := hend
    rw [hrows] at hrow
    rcases Table.mem_modify.mp hrow with ⟨hrow, -⟩ | ⟨row0, hrow0, hk, rfl⟩
    · exact .inl ⟨row, hrow, hid, hfinished⟩
    · obtain ⟨q', hmem', hid', hreq'⟩ := hs.wf.linked row0 hrow0
      obtain ⟨q, hq, hreq, -⟩ := hb
      obtain ⟨hmem, hqid⟩ := Table.lookup_some hq
      have hqq := Table.eq_of_key hs.wf.reservationIds hmem' hmem (hid'.trans (hk.trans hqid.symm))
      refine .inr (hid.symm.trans (Eq.trans ?_ hreq))
      rw [← hqq]
      exact hreq'.symm

/-- A request with a row ends when its reservation is settled. -/
theorem settle_ends (hs : Sound db) (hb : Backs db k r) (hst : HasRow db r) (hop : op.settles k = some s) :
    Ended (db.run op) r := by
  by_cases hend : Ended db r
  · exact (settle_rows hs.wf hop).ended hend
  · obtain ⟨q, hq, hstate⟩ := hb.reserved hend
    rcases settle_cases hs.wf hop with ⟨-, hclosed⟩ | ⟨-, hrows, -⟩
    · exact absurd hstate (hclosed q hq)
    · obtain ⟨row, hrow, hid⟩ := hst
      refine ⟨closedRow s.promptTokens s.completionTokens s.errorCode s.now row, ?_, hid,
        closedRow_finished _ _ _ _ _⟩
      rw [hrows]
      exact Table.mem_modify.mpr (.inr ⟨row, hrow, hb.of_row hs hrow hid, rfl⟩)

theorem Backs.settle (hs : Sound db) (hb : Backs db rid r) (hst : k = rid → HasRow db r)
    (hop : op.settles k = some s) : Backs (db.run op) rid r := by
  have hrows := settle_rows hs.wf hop
  by_cases hk : k = rid
  · subst hk
    have hend := settle_ends hs hb (hst rfl) hop
    obtain ⟨q, hq, hreq, -⟩ := hb
    rcases settle_cases hs.wf hop with ⟨heq, -⟩ | ⟨-, -, hres⟩
    · rw [heq] at hend ⊢
      exact ⟨q, hq, hreq, .inl hend⟩
    · refine ⟨closedReservation (min (max 0 s.actualTokens) q.reservedTokens) s.now q, ?_, hreq, .inl hend⟩
      rw [hres, if_pos rfl, hq]
      rfl
  · refine hb.of_rows hrows fun q hq => ?_
    rcases settle_cases hs.wf hop with ⟨heq, -⟩ | ⟨-, -, hres⟩
    · rwa [heq]
    · rw [hres, if_neg (Ne.symm hk)]
      exact hq

end settle

end Database
end LlmRio
