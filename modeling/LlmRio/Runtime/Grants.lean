/-
# What a lease stands for

A lease is known to up to four tasks at once: the map has it, its handler
serves it, and loops of the scheduler and of `worker_event` may have a duty
for it. Wherever it is, it is the lease of one handler's request, of which
the worker has admitted it, and the row of the request is QUEUED no longer
(`Granted`). A request in a queue or in the router's hands is the one that its
handler has put there.

What happens to the handlers, to the database and to `admitted` only adds to
that (`Later`), so a step has to be looked at only for the leases that are new
where they are.

Key definitions: `Granted`, `Grants`, `Later`, `CallStep`.
Key theorems: `call_step`, `later_step`, `grants_step`.
-/
import LlmRio.Runtime.Places

namespace LlmRio

namespace Database

variable {db db' : Database} {op : Op} {r r' : RequestId}

/-- The request has been marked ADMITTED, or closed. -/
def Marked (db : Database) (r : RequestId) : Prop :=
  ∃ row ∈ db.inferenceRequests, row.id = r ∧ row.state ≠ .queued

theorem Marked.hasRow (h : Marked db r) : HasRow db r := by
  obtain ⟨row, hrow, hid, -⟩ := h
  exact ⟨row, hrow, hid⟩

/-- A request that has ended is not ADMITTED. -/
theorem Ended.not_admitted (hw : Wf db) (h : Ended db r) : r ∉ db.admittedRequestIds := by
  obtain ⟨row, hrow, rfl, hfinished⟩ := h
  intro hmem
  obtain ⟨row', hrow', hid⟩ := List.mem_map.mp hmem
  obtain ⟨hmem', hstate⟩ := List.mem_filter.mp hrow'
  rw [Table.eq_of_key hw.requestIds hmem' hrow hid] at hstate
  exact hfinished (.inr (of_decide_eq_true hstate))

/-- A request that is marked and not ADMITTED has ended. -/
theorem Marked.ended (h : Marked db r) (hr : r ∉ db.admittedRequestIds) : Ended db r := by
  obtain ⟨row, hrow, hid, hqueued⟩ := h
  refine ⟨row, hrow, hid, fun hopen => ?_⟩
  rcases hopen with hstate | hstate
  · exact hqueued hstate
  · refine hr (hid ▸ List.mem_map_of_mem (List.mem_filter.mpr ⟨hrow, ?_⟩))
    simpa using hstate

theorem Marked.of_eq (h : Marked db r) (heq : db'.inferenceRequests = db.inferenceRequests) : Marked db' r := by
  unfold Marked
  rwa [heq]

theorem Marked.store {p : Principal} {m : ModelId} {e : ℤ} {rid : ReservationId} (h : Marked db r)
    (hs : db.createInferenceRequest r' p m rid e = .ok db') : Marked db' r := by
  rcases store_cases hs with ⟨rfl, -⟩ | ⟨row', -, -, rfl⟩
  · exact h
  · obtain ⟨row, hrow, hid, hstate⟩ := h
    exact ⟨row, List.mem_append_left _ hrow, hid, hstate⟩

theorem Marked.mark {w : WorkerId} {now : Datetime} (h : Marked db r) :
    Marked (db.markRequestAdmitted r' w now).1 r := by
  unfold markRequestAdmitted
  split
  · obtain ⟨row, hrow, hid, hstate⟩ := h
    by_cases hr : row.id = r'
    · refine ⟨_, Table.mem_modify.mpr (.inr ⟨row, hrow, hr, rfl⟩), ?_⟩
      rw [if_neg hstate]
      exact ⟨hid, hstate⟩
    · exact ⟨row, Table.mem_modify.mpr (.inl ⟨hrow, hr⟩), hid, hstate⟩
  · exact h

/-- The request that is marked. -/
theorem marked_of_mark {w : WorkerId} {now : Datetime} (h : (db.markRequestAdmitted r w now).2 = true) :
    Marked (db.markRequestAdmitted r w now).1 r := by
  unfold markRequestAdmitted at h ⊢
  split
  · rename_i hany
    obtain ⟨row, hrow, hp⟩ := List.any_eq_true.mp hany
    obtain ⟨hid, hqueued⟩ := of_decide_eq_true hp
    refine ⟨_, Table.mem_modify.mpr (.inr ⟨row, hrow, hid, rfl⟩), ?_⟩
    rw [if_pos hqueued]
    exact ⟨hid, by simp⟩
  · rename_i hany
    rw [if_neg hany] at h
    cases h

theorem Marked.settle {k : ReservationId} {st : Settlement} (h : Marked db r) (hw : Wf db)
    (hop : op.settles k = some st) : Marked (db.run op) r := by
  rcases settle_cases hw hop with ⟨heq, -⟩ | ⟨-, hrows, -⟩
  · rwa [heq]
  · obtain ⟨row, hrow, hid, hstate⟩ := h
    unfold Marked
    rw [hrows]
    by_cases hk : row.reservationId = k
    · refine ⟨_, Table.mem_modify.mpr (.inr ⟨row, hrow, hk, rfl⟩), hid, ?_⟩
      unfold closedRow
      simp only
      split <;> simp
    · exact ⟨row, Table.mem_modify.mpr (.inl ⟨hrow, hk⟩), hid, hstate⟩

end Database

namespace Routing

open Database (HasRow Ended Backs Sound Marked RowsStay)
open Submissions (Reserved Submission)

variable {cfg : Settings}

/-! ### The leases -/

def Pc.lease? : Pc → Option WorkerLease
  | .serving l | .settled l | .releasing l => some l
  | _ => none

/-- The worker that has admitted the request of the router. -/
def Phase.worker? : Phase → Option WorkerId
  | .admitting _ | .refusing => none
  | .marking w | .granting w | .retracting w => some w

/-- The requests in the queues, and the one that the router has taken out. -/
def State.pending (s : State) : List QueuedRequest := s.queues.requests ++ s.scheduler.request?.toList

/-- The lease is one of the request of the handler. -/
structure WorkerLease.Of (l : WorkerLease) (h : Handler) : Prop where
  request : l.requestId = h.sub.requestId
  reservation : l.reservationId = h.reservationId
  estimated : l.estimatedTokens = h.sub.estimatedTokens

structure Granted (s : State) (l : WorkerLease) : Prop where
  handler : ∃ (k : ℕ) (h : Handler), s.handlers[k]? = some h ∧ l.Of h
  admitted : (l.workerId, l.requestId) ∈ s.history.admitted
  marked : Marked s.db l.requestId

/-- The request is the one that its handler has put into the queue. -/
structure Entry (r : QueuedRequest) (h : Handler) : Prop where
  id : r.id = h.sub.requestId
  reservation : r.reservationId = h.reservationId
  estimated : r.estimatedTokens = h.sub.estimatedTokens

structure Grants (s : State) : Prop where
  entries : ∀ r ∈ s.pending, ∃ h, s.handlers[r.assignment]? = some h ∧ Entry r h
  leases : ∀ l ∈ s.requestLeases, Granted s l
  duties : ∀ d ∈ s.duties, ∀ l, d.lease? = some l → Granted s l
  holders : ∀ (k : ℕ) (h : Handler) (l : WorkerLease), s.handlers[k]? = some h →
    h.pc.lease? = some l ∨ h.assignment = .result l → Granted s l ∧ l.Of h
  router : ∀ models r phase w, s.scheduler = .busy models r phase → phase.worker? = some w →
    (w, r.id) ∈ s.history.admitted
  granting : ∀ models r w, s.scheduler = .busy models r (.granting w) → Marked s.db r.id

/-- The handlers have reservations of their requests, and a request has its
row before a queue takes it. -/
structure Backed (s : State) : Prop where
  sound : Sound s.db
  backs : ∀ (k : ℕ) (h : Handler), s.handlers[k]? = some h → Backs s.db h.reservationId h.sub.requestId
  stored : ∀ (k : ℕ) (h : Handler), s.handlers[k]? = some h → h.pc ≠ .creating → h.pc ≠ .done →
    HasRow s.db h.sub.requestId
  accepted : ∀ id ∈ s.history.accepted, HasRow s.db id

variable {s s' : State} {k : ℕ} {h : Handler}

theorem Grants.queued (hg : Grants s) {r : QueuedRequest} (hr : s.scheduler.request? = some r) :
    ∃ h, s.handlers[r.assignment]? = some h ∧ Entry r h :=
  hg.entries r (List.mem_append_right _ (by simp [hr]))

/-- The next duty of a call of `worker_event`. -/
theorem event_duty {j : ℕ} {d : Duty} {todo : List Duty} (hj : s.events[j]? = some (d :: todo)) : d ∈ s.duties :=
  List.mem_append_right _ (List.mem_flatten.mpr ⟨_, List.mem_of_getElem? hj, List.mem_cons_self⟩)

/-! ### What a step asks of the database -/

/-- The call of the database that a step makes. -/
inductive CallStep (s : State) (a : Act) (db' : Database) : Prop
  | same (h : db' = s.db)
  | reserved (sub : Submission) (rid rid' : ReservationId) (lid : String) (ha : a = .submit sub rid lid)
      (hres : s.db.reserveQuota sub.requestId sub.idempotencyHash sub.principal sub.modelId sub.estimatedTokens rid
        lid = .ok (db', rid'))
  | stored (k : ℕ) (h : Handler) (hk : s.handlers[k]? = some h) (hdb : h.create s.db = .ok db')
  | marked (id : RequestId) (w : WorkerId) (now : Datetime) (h : db' = (s.db.markRequestAdmitted id w now).1)
  | settled (k : ℕ) (h : Handler) (op : Database.Op) (rid : ReservationId) (st : Settlement)
      (hk : s.handlers[k]? = some h) (hrid : rid = h.reservationId) (hop : op.settles rid = some st)
      (hrow : HasRow s.db h.sub.requestId) (hdb : db' = s.db.run op)

section calls

variable {a : Act}

theorem HandlerEffect.calls (hb : Backed s) (hk : s.handlers[k]? = some h) (he : HandlerEffect cfg s k h s') :
    CallStep s a s'.db := by
  have hrow : h.pc ≠ .creating → h.pc ≠ .done → HasRow s.db h.sub.requestId := hb.stored k h hk
  cases he with
  | stored hpc hdb => exact .stored k h hk (hdb.trans (congrArg _ (Reserved.run_store hdb).symm))
  | withdrawn hpc | withdrawnLate hpc | rejected hpc =>
    exact .settled k h _ _ _ hk rfl (Database.settles_release _ _ _ _) (hrow (by simp [hpc]) (by simp [hpc])) rfl
  | settled hpc =>
    exact .settled k h _ _ _ hk rfl (Database.settles_settle _ _ _ _ _ _ _) (hrow (by simp [hpc]) (by simp [hpc])) rfl
  | _ => exact .same rfl

theorem DutyEffect.calls {d : Duty} {ds : List Duty} (hd : ∀ l, d.lease? = some l → Granted s l)
    (he : DutyEffect cfg s d s' ds) : CallStep s a s'.db := by
  cases he with
  | settled | closed =>
    have hg := hd _ rfl
    obtain ⟨k, h, hk, hof⟩ := hg.handler
    exact .settled k h _ _ _ hk hof.reservation (Database.settles_release _ _ _ _)
      (hof.request ▸ hg.marked.hasRow) rfl
  | _ => exact .same rfl

theorem SchedulerEffect.calls (hb : Backed s) (hc : Custody s) (hg : Grants s) (he : SchedulerEffect cfg s s') :
    CallStep s a s'.db := by
  -- the router settles the request that it has
  have hrefuse : ∀ models r lid now, s.scheduler = .busy models r .refusing →
      CallStep s a (s.call (.releaseReservation r.reservationId "admission_failed" lid now)).db := by
    intro models r lid now hbusy
    obtain ⟨h, hk, hentry⟩ := hg.queued (by rw [hbusy]; rfl)
    have hrow : HasRow s.db h.sub.requestId := by
      rw [← hentry.id]
      exact hb.accepted _ (hc.mem_of_place .admission (by simp [State.inPlace, hbusy, Scheduler.request?]))
    exact .settled _ h _ _ _ hk hentry.reservation (Database.settles_release _ _ _ _) hrow rfl
  cases he with
  | @duty loop d todo ds s1 hb' hd =>
    have hmem : d ∈ s.duties := by simp [State.duties, hb', Scheduler.duties]
    have hcalls : CallStep s a s1.db := hd.calls fun l hl => hg.duties d hmem l hl
    exact hcalls
  | marked _ _ => exact .marked _ _ _ rfl
  | refused hbusy | refusedLate hbusy => exact hrefuse _ _ _ _ hbusy
  | _ => exact .same rfl

theorem call_step (hb : Backed s) (hc : Custody s) (hg : Grants s) (hs : step cfg s a = some s') :
    CallStep s a s'.db := by
  cases step_effect hs with
  | submitted hres => exact .reserved _ _ _ _ rfl hres
  | handler hk he => exact he.calls hb hk
  | scheduler he => exact he.calls hb hc hg
  | @event j lid now d todo ds s1 hj he =>
    have hcalls : CallStep s (.event j lid now) s1.db := he.calls fun l hl => hg.duties d (event_duty hj) l hl
    exact hcalls
  | aborted | supervisor => exact .same rfl

variable {db' : Database}

theorem CallStep.rows (hw : Sound s.db) (hd : CallStep s a db') : RowsStay s.db db' := by
  cases hd with
  | same h => exact .of_eq (by rw [h])
  | reserved _ _ _ _ _ hres => exact .of_eq (Database.reserve_rows hres)
  | stored _ _ _ hdb => exact Database.store_rows hdb
  | marked _ _ _ h =>
    rw [h]
    exact Database.mark_rows
  | settled _ _ _ _ _ _ _ hop _ hdb =>
    rw [hdb]
    exact Database.settle_rows hw.wf hop

theorem CallStep.marks (hw : Sound s.db) (hd : CallStep s a db') {id : RequestId} (hm : Marked s.db id) :
    Marked db' id := by
  cases hd with
  | same h => rwa [h]
  | reserved _ _ _ _ _ hres => exact hm.of_eq (Database.reserve_rows hres)
  | stored _ _ _ hdb => exact hm.store hdb
  | marked _ _ _ h =>
    rw [h]
    exact hm.mark
  | settled _ _ _ _ _ _ _ hop _ hdb =>
    rw [hdb]
    exact hm.settle hw.wf hop

/-- A submission has an id that no reservation has. -/
def Distinct (s : State) (a : Act) : Prop :=
  ∀ id, a.submits? = some id → ∀ q ∈ s.db.quotaReservations, q.requestId ≠ id

theorem settles_settlement {op : Database.Op} {rid : ReservationId} {st : Settlement}
    (hop : op.settles rid = some st) : op.settlement = true := by
  cases op <;> first | rfl | cases hop

theorem CallStep.sound (hb : Backed s) (hd : CallStep s a db') : Sound db' := by
  cases hd with
  | same h =>
    rw [h]
    exact hb.sound
  | reserved sub rid rid' lid _ hres =>
    exact Database.sound_step hb.sound (Submission.step_reserve hres)
  | stored k h hk hdb =>
    obtain ⟨q, hq, hreq, -⟩ := hb.backs k h hk
    exact Database.sound_step hb.sound (Reserved.step_store hq hreq hdb)
  | marked id w now h =>
    have hstep : s.db.step (.markRequestAdmitted id w now) = some db' := congrArg some h.symm
    exact Database.sound_step hb.sound hstep
  | settled k h op rid st hk hrid hop hrow hdb =>
    have hstep : s.db.step op = some db' := by
      rw [hdb]
      exact Database.step_settlement (settles_settlement hop)
    exact Database.sound_step hb.sound hstep

/-- Two handlers with one reservation have one request. -/
theorem Backed.request_eq (hb : Backed s) {j : ℕ} {g : Handler} (hk : s.handlers[k]? = some h)
    (hj : s.handlers[j]? = some g) (hr : h.reservationId = g.reservationId) : g.sub.requestId = h.sub.requestId := by
  obtain ⟨q, hq, hreq, -⟩ := hb.backs k h hk
  obtain ⟨q', hq', hreq', -⟩ := hb.backs j g hj
  rw [← hr, hq] at hq'
  cases hq'
  exact hreq'.symm.trans hreq

theorem CallStep.backs (hb : Backed s) (hd : CallStep s a db') (hk : s.handlers[k]? = some h) :
    Backs db' h.reservationId h.sub.requestId := by
  have hback := hb.backs k h hk
  cases hd with
  | same h => rwa [h]
  | reserved _ _ _ _ _ hres => exact hback.reserve hres
  | stored _ _ _ hdb => exact hback.store hdb
  | marked _ _ _ h =>
    rw [h]
    exact hback.mark
  | settled j g op rid st hj hrid hop hrow hdb =>
    rw [hdb]
    refine hback.settle hb.sound (fun heq => ?_) hop
    rw [← hb.request_eq hk hj (heq.symm.trans hrid)]
    exact hrow

/-- The reservation of a new handler is new. -/
theorem new_backs (hb : Backed s) {sub : Submission} {rid rid' : ReservationId} {lid : String}
    (hnew : Distinct s (.submit sub rid lid))
    (hres : s.db.reserveQuota sub.requestId sub.idempotencyHash sub.principal sub.modelId sub.estimatedTokens rid
      lid = .ok (db', rid')) : Backs db' rid' sub.requestId := by
  refine Database.reserve_backs hb.sound hres fun hsame => ?_
  rcases Database.reserve_cases hres with ⟨-, q, hq, -, hreq⟩ | ⟨q, hadd, -⟩
  · exact absurd hreq (hnew _ rfl q hq)
  · rw [hsame] at hadd
    simp at hadd

end calls

/-! ### What a step keeps -/

section steps

variable {a : Act}

theorem new_id (hb : Backed s) (hnew : Distinct s a) {id : RequestId} (hsub : a.submits? = some id) :
    id ∉ s.handlers.map (·.sub.requestId) := by
  intro hmem
  obtain ⟨h, hh, hid⟩ := List.mem_map.mp hmem
  obtain ⟨k, hk⟩ := List.mem_iff_getElem?.mp hh
  obtain ⟨q, hq, hreq, -⟩ := hb.backs k h hk
  exact hnew _ hsub q (Table.lookup_some hq).1 (hreq.trans hid)

theorem backed_step (hb : Backed s) (hc : Custody s) (hg : Grants s) (hnew : Distinct s a)
    (hs : step cfg s a = some s') : Backed s' := by
  have hcall := call_step hb hc hg hs
  have hrows := hcall.rows hb.sound
  refine ⟨hcall.sound hb, fun k h' hk' => ?_, fun k h' hk' hcreate hdone => ?_, fun id hid => ?_⟩
  · cases handler_origin hs hk' with
    | fresh sub rid rid' lid ha hres hh =>
      subst ha hh
      exact new_backs hb hnew hres
    | kept h hk hf | moved h hk hf =>
      rw [hf.sub, hf.reservation]
      exact hcall.backs hb hk
  · cases handler_origin hs hk' with
    | fresh sub rid rid' lid ha hres hh => exact absurd (by rw [hh]) hcreate
    | kept h hk hf hpc =>
      rw [hf.sub]
      exact hrows.stored (hb.stored k h hk (hpc ▸ hcreate) (hpc ▸ hdone))
    | moved h hk hf he =>
      rw [hf.sub]
      cases he with
      | ends =>
        cases (Tasks.set_self hk).symm.trans hk'
        exact absurd rfl hdone
      | stored hpc hdb =>
        show HasRow (s.db.run h.store) _
        rw [Reserved.run_store hdb]
        exact Database.store_stored hdb
      | raises hold =>
        refine hrows.stored (hb.stored k h hk ?_ ?_) <;> rcases hold with h1 | h1 | h1 <;> simp [h1]
      | accepted hpc | full hpc | serves hpc | cancelled hpc | cancelledLate hpc | removed hpc | cancelledAgain hpc
      | withdrawn hpc | withdrawnLate hpc | rejected hpc | touched hpc | gone hpc | settled hpc | dropped hpc
      | popped hpc | freed hpc => exact hrows.stored (hb.stored k h hk (by simp [hpc]) (by simp [hpc]))
  · cases flow_step hc hs with
    | stays _ ha | moves _ _ _ _ _ _ _ ha => exact hrows.stored (hb.accepted id (ha ▸ hid))
    | comes k h hk hpc _ _ _ ha =>
      rw [ha] at hid
      rcases List.mem_append.mp hid with hid | hid
      · exact hrows.stored (hb.accepted id hid)
      · rw [List.mem_singleton.mp hid]
        exact hrows.stored (hb.stored k h hk (by simp [hpc]) (by simp [hpc]))

/-- What a step adds to. -/
structure Later (s s' : State) : Prop where
  handlers : ∀ (k : ℕ) (h : Handler), s.handlers[k]? = some h → ∃ h', s'.handlers[k]? = some h' ∧ h.Follows h'
  admitted : ∀ p ∈ s.history.admitted, p ∈ s'.history.admitted
  marks : ∀ id, Marked s.db id → Marked s'.db id

/-- Only the router admits. -/
theorem admitted_origin (hs : step cfg s a = some s') :
    s'.history.admitted = s.history.admitted ∨ ∃ models r w, s.scheduler = .busy models r (.admitting w) ∧
      s'.scheduler = .busy models r (.marking w) ∧ s'.history.admitted = s.history.admitted ++ [(w, r.id)] := by
  cases step_effect hs with
  | submitted | aborted | supervisor => exact .inl rfl
  | handler hk he =>
    cases he with
    | _ => exact .inl rfl
  | event hj he => exact .inl he.frame.2.2.2.2.2.2
  | scheduler he =>
    cases he with
    | duty hb hd => exact .inl hd.frame.2.2.2.2.2.2
    | admitted hb hs => exact .inr ⟨_, _, _, hb, rfl, rfl⟩
    | _ => exact .inl rfl

theorem later_step (hb : Backed s) (hc : Custody s) (hg : Grants s) (hs : step cfg s a = some s') : Later s s' := by
  refine ⟨fun k h hk => handler_kept hs hk, fun p hp => ?_, fun id hm => (call_step hb hc hg hs).marks hb.sound hm⟩
  rcases admitted_origin hs with heq | ⟨_, _, _, -, -, heq⟩ <;> rw [heq]
  · exact hp
  · exact List.mem_append_left _ hp

theorem WorkerLease.Of.follows {l : WorkerLease} {h' : Handler} (ho : l.Of h) (hf : h.Follows h') : l.Of h' :=
  ⟨by rw [hf.sub, ho.request], by rw [hf.reservation, ho.reservation], by rw [hf.sub, ho.estimated]⟩

theorem Entry.follows {r : QueuedRequest} {h' : Handler} (he : Entry r h) (hf : h.Follows h') : Entry r h' :=
  ⟨by rw [hf.sub, he.id], by rw [hf.reservation, he.reservation], by rw [hf.sub, he.estimated]⟩

theorem Granted.later {l : WorkerLease} (hg : Granted s l) (hl : Later s s') : Granted s' l := by
  obtain ⟨k, h, hk, hof⟩ := hg.handler
  obtain ⟨h', hk', hf⟩ := hl.handlers k h hk
  exact ⟨⟨k, h', hk', hof.follows hf⟩, hl.admitted _ hg.admitted, hl.marks _ hg.marked⟩

/-- The activity of a stream is no part of what its lease stands for. -/
theorem Granted.touch {l : WorkerLease} (hg : Granted s l) (t : Option Datetime) :
    Granted s { l with lastActivityAt := t } := by
  obtain ⟨k, h, hk, hof⟩ := hg.handler
  exact ⟨⟨k, h, hk, hof.request, hof.reservation, hof.estimated⟩, hg.admitted, hg.marked⟩

/-- The lease that the router is about to store. -/
theorem Grants.leaseOf (hg : Grants s) {models : List ModelId} {r : QueuedRequest} {w : WorkerId} (now : Datetime)
    (hb : s.scheduler = .busy models r (.granting w)) :
    Granted s (leaseOf r w now) ∧ ∃ h, s.handlers[r.assignment]? = some h ∧ (Routing.leaseOf r w now).Of h := by
  obtain ⟨h, hk, hentry⟩ := hg.queued (by rw [hb]; rfl)
  have hof : (Routing.leaseOf r w now).Of h := ⟨hentry.id, hentry.reservation, hentry.estimated⟩
  exact ⟨⟨⟨_, h, hk, hof⟩, hg.router models r _ w hb rfl, hg.granting models r w hb⟩, h, hk, hof⟩

/-! ### Where the requests and the leases come from -/

theorem HandlerEffect.pending (he : HandlerEffect cfg s k h s') :
    ∀ r ∈ s'.pending, r ∈ s.pending ∨ ∃ now, r = h.queued k now := by
  have hqueue : ∀ {queues : ModelQueues} {r : QueuedRequest}, (∀ r ∈ queues.requests, r ∈ s.queues.requests) →
      r ∈ queues.requests ++ s.scheduler.request?.toList → r ∈ s.pending := by
    intro queues r hsub hr
    exact List.mem_append.mpr ((List.mem_append.mp hr).imp_left (hsub r))
  cases he with
  | @accepted now hpc hlock hput =>
    intro r hr
    rcases List.mem_append.mp hr with hr | hr
    · rcases List.mem_cons.mp ((ModelQueues.put_perm hput).subset hr) with rfl | hr
      · exact .inr ⟨now, rfl⟩
      · exact .inl (List.mem_append_left _ hr)
    · exact .inl (List.mem_append_right _ hr)
  | full hpc hput =>
    exact fun r hr => .inl (hqueue (fun r hr => (ModelQueues.put_refused hput).subset hr) hr)
  | removed hpc hlock hr =>
    have hperm := (ModelQueues.remove_perm hr).2
    exact fun r hr => .inl (hqueue (fun r hr => hperm.symm.subset (List.mem_cons_of_mem _ hr)) hr)
  | _ => exact fun r hr => .inl hr

theorem SchedulerEffect.pending (he : SchedulerEffect cfg s s') : ∀ r ∈ s'.pending, r ∈ s.pending := by
  have hqueue : ∀ r ∈ s.queues.requests ++ (none : Option QueuedRequest).toList, r ∈ s.pending := by
    intro r hr
    exact List.mem_append_left _ (by simpa using hr)
  cases he with
  | duty hb hd =>
    intro r hr
    simp only [State.pending, hd.frame.1] at hr
    exact hqueue r hr
  | @routes scheduler hb hnew =>
    intro r hr
    refine hqueue r ?_
    rcases hnew with rfl | ⟨models, rfl⟩ <;> exact hr
  | took hb hpop =>
    intro r hr
    refine List.mem_append_left _ ?_
    have hperm := ModelQueues.update_swap (DeficitRoundRobinQueue.pop_perm hpop)
    rcases List.mem_append.mp hr with hr | hr
    · exact hperm.symm.subset (List.mem_cons_of_mem _ hr)
    · rw [List.mem_singleton.mp hr]
      exact hperm.symm.subset List.mem_cons_self
  | admitted hb | notAdmitted hb | marked hb | notMarked hb | retracted hb =>
    intro r hr
    rw [State.pending, hb]
    exact hr
  | _ => exact hqueue

theorem pending_origin (hs : step cfg s a = some s') : ∀ r ∈ s'.pending,
    r ∈ s.pending ∨ ∃ (k : ℕ) (h : Handler) (now : Datetime), s.handlers[k]? = some h ∧ r = h.queued k now := by
  cases step_effect hs with
  | handler hk he =>
    intro r hr
    exact (he.pending r hr).imp_right fun ⟨now, hr⟩ => ⟨_, _, now, hk, hr⟩
  | scheduler he => exact fun r hr => .inl (he.pending r hr)
  | event hj he =>
    intro r hr
    obtain ⟨hq, -, hb, -⟩ := he.frame
    simp only [State.pending, hq, hb] at hr
    exact .inl hr
  | aborted hr =>
    intro r hr'
    exact .inl (List.mem_append_left _ (by simpa [State.pending, Scheduler.request?] using hr'))
  | submitted | supervisor => exact fun r hr => .inl hr

theorem mem_put {l l' : WorkerLease} (h : l' ∈ (s.put l).requestLeases) : l' = l ∨ l' ∈ s.requestLeases := by
  unfold State.put at h
  split at h
  · rcases Table.mem_modify.mp h with ⟨h, -⟩ | ⟨l0, -, -, rfl⟩
    · exact .inr h
    · exact .inl rfl
  · rcases List.mem_append.mp h with h | h
    · exact .inr h
    · exact .inl (List.mem_singleton.mp h)

theorem DutyEffect.leases {d : Duty} {ds : List Duty} (he : DutyEffect cfg s d s' ds) :
    ∀ l ∈ s'.requestLeases, l ∈ s.requestLeases := by
  cases he with
  | popped | failed | dropped => exact fun l hl => List.mem_of_mem_filter hl
  | _ => exact fun l hl => hl

theorem leases_step (hg : Grants s) (hs : step cfg s a = some s') :
    ∀ l ∈ s'.requestLeases, Granted s l := by
  cases step_effect hs with
  | submitted | aborted | supervisor => exact hg.leases
  | event hj he => exact fun l hl => hg.leases l (he.leases l hl)
  | handler hk he =>
    cases he with
    | touched hpc hlease =>
      intro l hl
      rcases mem_put hl with rfl | hl
      · exact (hg.leases _ (Table.lookup_some hlease).1).touch _
      · exact hg.leases l hl
    | popped => exact fun l hl => hg.leases l (List.mem_of_mem_filter hl)
    | _ => exact hg.leases
  | scheduler he =>
    cases he with
    | duty hb hd => exact fun l hl => hg.leases l (hd.leases l hl)
    | granted hb | orphaned hb =>
      intro l hl
      rcases mem_put hl with rfl | hl
      · exact (hg.leaseOf _ hb).1
      · exact hg.leases l hl
    | _ => exact hg.leases

/-- What a duty leaves to do is about its own lease, or one of the map. -/
theorem DutyEffect.duties {d : Duty} {ds : List Duty} (he : DutyEffect cfg s d s' ds) :
    ∀ d' ∈ ds, ∀ l, d'.lease? = some l → d.lease? = some l ∨ l ∈ s.requestLeases := by
  cases he with
  | popped | failed | failedLate =>
    intro d' hd' l hl
    rw [List.mem_singleton.mp hd'] at hl
    exact .inl hl
  | dropped hlease =>
    intro d' hd' l hl
    rw [List.mem_singleton.mp hd'] at hl
    cases hl
    exact .inr (Table.lookup_some hlease).1
  | _ => simp

/-- A loop has found the lease in the map. -/
theorem mem_expired {now : Datetime} {d : Duty} (hd : d ∈ expired cfg s now) :
    ∃ l ∈ s.requestLeases, (∃ code, d = .settle l code false) ∨ d = .release l := by
  unfold expired at hd
  split at hd
  · cases hd
  · obtain ⟨l, hl, hd⟩ := List.mem_flatMap.mp hd
    exact ⟨l, List.mem_of_mem_filter hl, (List.mem_pair.mp hd).imp_left fun h => ⟨_, h⟩⟩

theorem mem_stale {ids : List RequestId} {d : Duty} (hd : d ∈ stale s ids) :
    ∃ l ∈ s.requestLeases, d = .release l := by
  obtain ⟨l, hl, rfl⟩ := List.mem_map.mp hd
  exact ⟨l, List.mem_of_mem_filter hl, rfl⟩

/-- Where a duty comes from. -/
inductive DutyOrigin (cfg : Settings) (s : State) (d : Duty) : Prop
  | kept (hd : d ∈ s.duties)
  /-- Another duty has left it to do. -/
  | left {d0 : Duty} {ds : List Duty} {s' : State} (hd0 : d0 ∈ s.duties) (he : DutyEffect cfg s d0 s' ds) (hd : d ∈ ds)
  | found {l : WorkerLease} (hl : l ∈ s.requestLeases) (hd : (∃ code, d = .settle l code false) ∨ d = .release l)
  | orphaned {models : List ModelId} {r : QueuedRequest} {w : WorkerId} {now : Datetime}
      (hb : s.scheduler = .busy models r (.granting w))
      (hd : (∃ code, d = .settle (leaseOf r w now) code false) ∨ d = .release (leaseOf r w now))
  | overdue {now : Datetime} {ids : List RequestId} {id : RequestId} (hb : s.scheduler = .watching now [] ids)
      (hid : id ∈ ids) (hd : d = .drop id)
  | failed {a : Supervisor.Act} {l : WorkerLease} (hl : l ∈ s.requestLeases)
      (hf : failing? s.supervisor a = some l.workerId) (hd : d = .fail l)

theorem SchedulerEffect.events (he : SchedulerEffect cfg s s') : s'.events = s.events := by
  cases he with
  | duty hb hd => exact hd.frame.2.2.2.1
  | _ => rfl

theorem SchedulerEffect.duties (he : SchedulerEffect cfg s s') :
    ∀ d ∈ s'.scheduler.duties, DutyOrigin cfg s d := by
  cases he with
  | @duty loop d todo ds s1 hb he =>
    have hold : ∀ d' ∈ d :: todo, d' ∈ s.duties := fun d' hd' => List.mem_append_left _ (by rw [hb]; exact hd')
    intro d' hd'
    rcases List.mem_append.mp hd' with hd' | hd'
    · exact .left (hold d List.mem_cons_self) he hd'
    · exact .kept (hold d' (List.mem_cons_of_mem _ hd'))
  | ticked =>
    intro d hd
    obtain ⟨l, hl, hd⟩ := mem_expired hd
    exact .found hl hd
  | collected =>
    intro d hd
    obtain ⟨l, hl, hd⟩ := mem_stale hd
    exact .found hl (.inr hd)
  | drops hb =>
    intro d hd
    obtain ⟨id, hid, rfl⟩ := List.mem_map.mp hd
    exact .overdue hb hid rfl
  | orphaned hb => exact fun d hd => .orphaned hb ((List.mem_pair.mp hd).imp_left fun h => ⟨_, h⟩)
  | @routes scheduler hb hnew =>
    intro d hd
    rcases hnew with rfl | ⟨models, rfl⟩ <;> cases hd
  | _ => exact fun d hd => absurd hd List.not_mem_nil

theorem duty_origin (hs : step cfg s a = some s') : ∀ d ∈ s'.duties, DutyOrigin cfg s d := by
  have hevents : ∀ d ∈ s.events.flatten, DutyOrigin cfg s d := fun d hd => .kept (List.mem_append_right _ hd)
  cases step_effect hs with
  | submitted => exact fun d hd => .kept hd
  | aborted => exact fun d hd => hevents d (by simpa [State.duties, Scheduler.duties] using hd)
  | @supervisor a sup =>
    intro d hd
    simp only [State.duties, List.flatten_append, ← List.append_assoc] at hd
    rcases List.mem_append.mp hd with hd | hd
    · exact .kept hd
    · cases hf : failing? s.supervisor a with
      | none => simp [hf] at hd
      | some w =>
        simp only [hf, failedLeases, Option.map_some, Option.toList_some, List.flatten_cons, List.flatten_nil,
          List.append_nil, List.mem_map, List.mem_filter, decide_eq_true_eq] at hd
        obtain ⟨l, ⟨hl, rfl⟩, rfl⟩ := hd
        exact .failed hl hf rfl
  | @event j _ _ d todo ds s1 hj he =>
    intro d' hd'
    obtain ⟨-, -, hb, hev, -⟩ := he.frame
    simp only [State.duties, hb, hev] at hd'
    rcases List.mem_append.mp hd' with hd' | hd'
    · exact .kept (List.mem_append_left _ hd')
    · obtain ⟨l, hl, hd'⟩ := List.mem_flatten.mp hd'
      rcases List.mem_or_eq_of_mem_set hl with hl | rfl
      · exact hevents d' (List.mem_flatten.mpr ⟨l, hl, hd'⟩)
      · rcases List.mem_append.mp hd' with hd' | hd'
        · exact .left (event_duty hj) he hd'
        · exact hevents d' (List.mem_flatten.mpr ⟨_, List.mem_of_getElem? hj, List.mem_cons_of_mem _ hd'⟩)
  | handler hk he =>
    cases he with
    | _ => exact fun d hd => .kept hd
  | scheduler he =>
    intro d hd
    rcases List.mem_append.mp hd with hd | hd
    · exact he.duties d hd
    · exact hevents d (he.events ▸ hd)

theorem duties_step (hg : Grants s) (hs : step cfg s a = some s') :
    ∀ d ∈ s'.duties, ∀ l, d.lease? = some l → Granted s l := by
  intro d hd l hl
  cases duty_origin hs d hd with
  | kept hd => exact hg.duties d hd l hl
  | left hd0 he hd => exact (he.duties d hd l hl).elim (hg.duties _ hd0 l) (hg.leases l)
  | found hl' hd =>
    rcases hd with ⟨code, rfl⟩ | rfl <;> cases hl <;> exact hg.leases _ hl'
  | orphaned hb hd =>
    rcases hd with ⟨code, rfl⟩ | rfl <;> cases hl <;> exact (hg.leaseOf _ hb).1
  | overdue _ _ hd =>
    subst hd
    cases hl
  | failed hl' _ hd =>
    subst hd
    cases hl
    exact hg.leases _ hl'

/-- The lease that a handler has moved on with, it has held or been assigned. -/
theorem HandlerEffect.lease (hk : s.handlers[k]? = some h) (he : HandlerEffect cfg s k h s') {h' : Handler}
    (hk' : s'.handlers[k]? = some h') {l : WorkerLease} (hl : h'.pc.lease? = some l) :
    h.pc.lease? = some l ∨ h.assignment = .result l := by
  have hset : ∀ {g : Handler}, (s.handlers.set k g)[k]? = some h' → h' = g := fun hg =>
    Option.some.inj (hg.symm.trans (Tasks.set_self hk))
  cases he with
  | serves hpc ha =>
    rw [hset hk'] at hl
    cases hl
    exact .inr ha
  | settled hpc | popped hpc =>
    rw [hset hk'] at hl
    cases hl
    rw [hpc]
    exact .inl rfl
  | touched | gone =>
    cases hk.symm.trans hk'
    exact .inl hl
  | _ =>
    rw [hset hk'] at hl
    cases hl

theorem holders_step (hg : Grants s) (hs : step cfg s a = some s') {h' : Handler} {l : WorkerLease}
    (hk' : s'.handlers[k]? = some h') (hl : h'.pc.lease? = some l ∨ h'.assignment = .result l) :
    Granted s l ∧ ∃ h, s.handlers[k]? = some h ∧ h.Follows h' ∧ l.Of h := by
  have hold : ∀ h, s.handlers[k]? = some h → h.Follows h' → h.pc.lease? = some l ∨ h.assignment = .result l →
      Granted s l ∧ ∃ h, s.handlers[k]? = some h ∧ h.Follows h' ∧ l.Of h := by
    intro h hk hf hl
    obtain ⟨hgr, hof⟩ := hg.holders k h l hk hl
    exact ⟨hgr, h, hk, hf, hof⟩
  rcases hl with hl | hl
  · cases handler_origin hs hk' with
    | fresh sub rid rid' lid ha hres hh =>
      rw [hh] at hl
      cases hl
    | kept h hk hf hpc => exact hold h hk hf (.inl (hpc ▸ hl))
    | moved h hk hf he => exact hold h hk hf (he.lease hk hk' hl)
  · cases handlers_step hs with
    | same hh => exact hold h' (hh ▸ hk') ⟨rfl, rfl, id⟩ (.inr hl)
    | submitted g _ _ ha hh =>
      rw [hh] at hk'
      rcases Tasks.snoc_cases hk' with ⟨-, rfl⟩ | hk
      · rw [ha] at hl
        cases hl
      · exact hold h' hk ⟨rfl, rfl, id⟩ (.inr hl)
    | moved j g g' hj hh hf ha =>
      rw [hh] at hk'
      rcases Tasks.set_cases hk' with ⟨rfl, rfl⟩ | ⟨-, hk⟩
      · exact hold g hj hf (.inr (ha ▸ hl))
      · exact hold h' hk ⟨rfl, rfl, id⟩ (.inr hl)
    | resolved j g g' hj hh hf _ _ _ hres =>
      rw [hh] at hk'
      rcases Tasks.set_cases hk' with ⟨rfl, rfl⟩ | ⟨-, hk⟩
      · obtain ⟨models, r, w, now, hb, rfl, rfl⟩ := hres l hl
        obtain ⟨hgr, g0, hg0, hof⟩ := hg.leaseOf now hb
        cases hj.symm.trans hg0
        exact ⟨hgr, g, hj, hf, hof⟩
      · exact hold h' hk ⟨rfl, rfl, id⟩ (.inr hl)

/-- Where the phase of the router comes from. -/
theorem phase_origin (hs : step cfg s a = some s') {models : List ModelId} {r : QueuedRequest} {phase : Phase}
    {w : WorkerId} (hb' : s'.scheduler = .busy models r phase) (hw : phase.worker? = some w) :
    (∃ phase', s.scheduler = .busy models r phase' ∧ phase'.worker? = some w ∧
        (∀ v, phase = .granting v → phase' = .granting v ∨
          ∃ now, (s.db.markRequestAdmitted r.id w now).2 = true ∧ s'.db = (s.db.markRequestAdmitted r.id w now).1)) ∨
      (phase = .marking w ∧ s.scheduler = .busy models r (.admitting w) ∧
        s'.history.admitted = s.history.admitted ++ [(w, r.id)]) := by
  have hsame : s'.scheduler = s.scheduler → ∃ phase', s.scheduler = .busy models r phase' ∧ phase'.worker? = some w ∧
      (∀ v, phase = .granting v → phase' = .granting v ∨
        ∃ now, (s.db.markRequestAdmitted r.id w now).2 = true ∧ s'.db = (s.db.markRequestAdmitted r.id w now).1) :=
    fun heq => ⟨phase, heq ▸ hb', hw, fun v hv => .inl hv⟩
  cases step_effect hs with
  | submitted | supervisor => exact .inl (hsame rfl)
  | handler hk he =>
    refine .inl (hsame ?_)
    cases he <;> rfl
  | event hj he => exact .inl (hsame he.frame.2.2.1)
  | aborted => cases hb'
  | scheduler he =>
    cases he with
    | admitted hb =>
      cases hb'
      cases hw
      exact .inr ⟨rfl, hb, rfl⟩
    | marked hb hm =>
      cases hb'
      cases hw
      exact .inl ⟨_, hb, rfl, fun v hv => .inr ⟨_, hm, rfl⟩⟩
    | notMarked hb =>
      cases hb'
      cases hw
      exact .inl ⟨_, hb, rfl, fun v hv => by cases hv⟩
    | @routes scheduler hb hnew => rcases hnew with rfl | ⟨models, rfl⟩ <;> cases hb'
    | took | notAdmitted | retracted =>
      cases hb'
      cases hw
    | _ => cases hb'

theorem grants_step (hb : Backed s) (hc : Custody s) (hg : Grants s) (hs : step cfg s a = some s') :
    Grants s' := by
  have hlater := later_step hb hc hg hs
  refine ⟨fun r hr => ?_, fun l hl => (leases_step hg hs l hl).later hlater,
    fun d hd l hl => (duties_step hg hs d hd l hl).later hlater, fun k h' l hk' hl => ?_,
    fun models r phase w hb' hw => ?_, fun models r w hb' => ?_⟩
  · rcases pending_origin hs r hr with hr | ⟨k, h, now, hk, rfl⟩
    · obtain ⟨h, hk, hentry⟩ := hg.entries r hr
      obtain ⟨h', hk', hf⟩ := hlater.handlers _ h hk
      exact ⟨h', hk', hentry.follows hf⟩
    · obtain ⟨h', hk', hf⟩ := hlater.handlers k h hk
      exact ⟨h', hk', Entry.follows ⟨rfl, rfl, rfl⟩ hf⟩
  · obtain ⟨hgr, h, hk, hf, hof⟩ := holders_step hg hs hk' hl
    exact ⟨hgr.later hlater, hof.follows hf⟩
  · rcases phase_origin hs hb' hw with ⟨phase', hb0, hw0, -⟩ | ⟨-, -, heq⟩
    · exact hlater.admitted _ (hg.router models r phase' w hb0 hw0)
    · rw [heq]
      exact List.mem_append_right _ (List.mem_singleton_self _)
  · rcases phase_origin hs hb' rfl with ⟨phase', hb0, -, hphase⟩ | ⟨hphase, -⟩
    · rcases hphase w rfl with rfl | ⟨now, hm, hdb⟩
      · exact hlater.marks _ (hg.granting models r w hb0)
      · rw [hdb]
        exact Database.marked_of_mark hm
    · cases hphase

end steps

end Routing
end LlmRio
