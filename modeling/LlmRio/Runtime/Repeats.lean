/-
# Requests that repeat an id

A client chooses the id of its request, and `reserve_quota` returns the
reservation of before when an id comes again. The second submission then goes
its own way with that reservation: it is queued, admitted and refused like any
other, and each of its ways out settles the reservation or releases the
admission under the id. While the first is under way these are the first's.

If an id comes again only when the request is over (`unrepeated`), a request
that has not ended has one handler only. `Inv` says that, with what it rests
on: the handlers' reservations (`Backed`), the requests in the queues and in
the router's hands (`Placed`) and the leases (`Leased`). The lemmas say what a
change of one component keeps, and each move of a handler and each turn of the
router is a few of these.

Key definitions: `over`, `unrepeated`, `Backed`, `Placed`, `Leased`, `Inv`.
Key theorems: `Joins.inv`, `inv_handler`, `inv_router`, `inv_step`.
-/
import LlmRio.Lib.Runs
import LlmRio.Lib.Tasks
import LlmRio.Storage.Requests
import LlmRio.Runtime.Submissions

namespace LlmRio
namespace Submissions

open Runs
open Database (HasRow Ended Backs Sound)
open Gateway (WorkerLease)

/-! ### Where a handler is -/

/-- A request of the handler may be in a queue or in the hands of the router. -/
def Pc.unassigned : Pc → Bool
  | .waiting | .cancelling | .removed | .rejecting | .done => true
  | _ => false

/-- The handler has stored its request and has not ended. -/
def Pc.stored : Pc → Bool
  | .creating | .done => false
  | _ => true

def Pc.lease? : Pc → Option WorkerLease
  | .assigned l | .serving l | .settled l | .releasing l => some l
  | _ => none

/-- The worker's answer is still to come. -/
def Pc.active : Pc → Bool
  | .assigned _ | .serving _ => true
  | _ => false

/-- The request is marked ADMITTED in this round. -/
def Phase.granted : Phase → Bool
  | .granting _ | .orphaned _ | .returning _ | .releasing _ => true
  | _ => false

/-- The worker that has admitted the request. -/
def Phase.worker? : Phase → Option WorkerId
  | .admitting _ | .refusing => none
  | .marking w | .granting w | .retracting w => some w
  | .orphaned l | .returning l | .releasing l => some l.workerId

/-- The handler whose request has been marked ADMITTED and has no lease yet. -/
def Router.granting? : Router → Option ℕ
  | .busy _ r (.granting _) => some r.assignment
  | _ => none

/-- The requests in the queues, and the one that the router has taken out. -/
def State.pending (s : State) : List QueuedRequest := s.queues.requests ++ s.router.request?.toList

/-- The reservation has one handler at most. -/
def Alone (s : State) (rid : ReservationId) : Prop :=
  ∀ (j k : ℕ) (h h' : Handler), s.handlers[j]? = some h → s.handlers[k]? = some h' → h.reservationId = rid →
    h'.reservationId = rid → j = k

/-! ### The invariant -/

/-- The handlers have reservations of their requests, RESERVED until these
end. -/
structure Backed (s : State) : Prop where
  sound : Sound s.db
  backs : ∀ (k : ℕ) (h : Handler), s.handlers[k]? = some h → Backs s.db h.reservationId h.sub.requestId
  stored : ∀ (k : ℕ) (h : Handler), s.handlers[k]? = some h → h.pc.stored = true → HasRow s.db h.sub.requestId
  ended : ∀ (k : ℕ) (h : Handler), s.handlers[k]? = some h → Ended s.db h.sub.requestId ∨ Alone s h.reservationId

/-- The pending request is the one that its handler has queued. -/
structure Entry (s : State) (r : QueuedRequest) (h : Handler) : Prop where
  handler : s.handlers[r.assignment]? = some h
  unassigned : h.pc.unassigned = true
  id : r.id = h.sub.requestId
  reservation : r.reservationId = h.reservationId
  stored : HasRow s.db r.id

structure Placed (s : State) : Prop where
  unique : (s.pending.map (·.assignment)).Nodup
  entry : ∀ r ∈ s.pending, ∃ h, Entry s r h

/-- The lease is one of the request of the handler. -/
def OfHandler (l : WorkerLease) (h : Handler) : Prop :=
  l.reservationId = h.reservationId ∧ l.requestId = h.sub.requestId

/-- The lease is one of a request with one handler. -/
def Owned (s : State) (l : WorkerLease) : Prop :=
  Alone s l.reservationId ∧ ∃ (k : ℕ) (h : Handler), s.handlers[k]? = some h ∧ OfHandler l h

/-- The request is to be served: the worker's answer is still to come, or its
handler waits for the assignment of an admitted request. -/
def State.live (s : State) (k : ℕ) (h : Handler) : Prop :=
  h.pc.active = true ∨ (h.pc = .waiting ∧ s.router.granting? = some k)

structure Leased (s : State) : Prop where
  leases : ∀ l ∈ s.requestLeases, Owned s l
  holder : ∀ (k : ℕ) (h : Handler) (l : WorkerLease), s.handlers[k]? = some h → h.pc.lease? = some l →
    Alone s h.reservationId ∧ OfHandler l h
  live : ∀ (k : ℕ) (h : Handler), s.handlers[k]? = some h → s.live k h → ¬ Ended s.db h.sub.requestId
  granted : ∀ models r phase, s.router = .busy models r phase → phase.granted = true → Alone s r.reservationId

structure Inv (s : State) : Prop extends Backed s, Placed s, Leased s

/-- The request is over: its row is finished, no lease of it is left, and the
router does not have it. -/
def State.over (s : State) (id : RequestId) : Bool :=
  s.db.inferenceRequests.any (fun r => r.id = id ∧ ¬ r.unfinished) && !s.leased id &&
    s.handlers.all (fun h => h.sub.requestId = id → h.pc.lease? = none) && s.router.request?.all (·.id ≠ id)

/-- A submission repeats the id of an earlier request only when that is over. -/
def unrepeated (s : State) : Act → Bool
  | .submit sub _ _ => s.db.quotaReservations.any (·.requestId = sub.requestId) → s.over sub.requestId
  | _ => true

variable {cfg : Settings} {s s' : State} {k : ℕ} {h : Handler} {pc : Pc}

/-! ### Handlers keep their reservations -/

/-- The handlers have the requests and the reservations that they had. -/
def SameKeys (s s' : State) : Prop :=
  ∀ (j : ℕ) (h' : Handler), s'.handlers[j]? = some h' →
    ∃ h : Handler, s.handlers[j]? = some h ∧ h'.sub = h.sub ∧ h'.reservationId = h.reservationId

theorem SameKeys.of_eq (hh : s'.handlers = s.handlers) : SameKeys s s' := fun _ h' hj => ⟨h', hh ▸ hj, rfl, rfl⟩

theorem sameKeys_goto (hk : s.handlers[k]? = some h) (pc : Pc) : SameKeys s (s.goto k h pc) := by
  intro j h' hj
  rcases Tasks.set_cases hj with ⟨rfl, rfl⟩ | ⟨-, hj⟩
  · exact ⟨h, hk, rfl, rfl⟩
  · exact ⟨h', hj, rfl, rfl⟩

theorem Alone.congr {rid : ReservationId} (ha : Alone s rid) (hs : SameKeys s s') : Alone s' rid := by
  intro i j g g' hi hj hg hg'
  obtain ⟨h0, hi0, -, hr0⟩ := hs i g hi
  obtain ⟨h1, hj1, -, hr1⟩ := hs j g' hj
  exact ha i j h0 h1 hi0 hj1 (hr0.symm.trans hg) (hr1.symm.trans hg')

/-- A handler that moves is still there. -/
theorem Owned.goto {l : WorkerLease} (hl : Owned s l) (hk : s.handlers[k]? = some h) (pc : Pc) :
    Owned (s.goto k h pc) l := by
  obtain ⟨halone, j, g, hj, hof⟩ := hl
  refine ⟨halone.congr (sameKeys_goto hk pc), ?_⟩
  by_cases hjk : j = k
  · subst hjk
    obtain rfl : h = g := Option.some.inj (hk.symm.trans hj)
    exact ⟨j, _, Tasks.set_self hk, hof⟩
  · exact ⟨j, g, Tasks.set_other hj hjk, hof⟩

/-! ### What a move of one handler keeps -/

theorem Backed.of_eq (hi : Backed s) (hdb : s'.db = s.db) (hh : s'.handlers = s.handlers) : Backed s' := by
  constructor
  · rw [hdb]
    exact hi.sound
  · rw [hdb, hh]
    exact hi.backs
  · rw [hdb, hh]
    exact hi.stored
  · rw [hdb, hh]
    exact fun j g hj => (hi.ended j g hj).imp_right (·.congr (.of_eq hh))

theorem Backed.goto (hi : Backed s) (hk : s.handlers[k]? = some h)
    (hst : pc.stored = true → HasRow s.db h.sub.requestId) : Backed (s.goto k h pc) := by
  have hkeys := sameKeys_goto hk pc
  refine ⟨hi.sound, fun j g hj => ?_, fun j g hj hpc => ?_, fun j g hj => ?_⟩
  · obtain ⟨h0, hj0, hsub, hr⟩ := hkeys j g hj
    rw [hsub, hr]
    exact hi.backs j h0 hj0
  · rcases Tasks.set_cases hj with ⟨rfl, rfl⟩ | ⟨-, hj⟩
    · exact hst hpc
    · exact hi.stored j g hj hpc
  · obtain ⟨h0, hj0, hsub, hr⟩ := hkeys j g hj
    rw [hsub, hr]
    exact (hi.ended j h0 hj0).imp_right (·.congr hkeys)

/-- The handler moves to where it may still be pending, or nothing of it is. -/
theorem Placed.goto (hi : Placed s) (hk : s.handlers[k]? = some h)
    (hpc : pc.unassigned = true ∨ ∀ r ∈ s.pending, r.assignment ≠ k) : Placed (s.goto k h pc) := by
  refine ⟨hi.unique, fun r hr => ?_⟩
  obtain ⟨g, hg⟩ := hi.entry r hr
  by_cases hrk : r.assignment = k
  · subst hrk
    obtain rfl : h = g := Option.some.inj (hk.symm.trans hg.handler)
    have hun := hpc.resolve_right fun hno => hno r hr rfl
    exact ⟨{ h with pc := pc }, Tasks.set_self hk, hun, hg.id, hg.reservation, hg.stored⟩
  · exact ⟨g, Tasks.set_other hg.handler hrk, hg.unassigned, hg.id, hg.reservation, hg.stored⟩

/-- A handler that is assigned has no pending request. -/
theorem Placed.assigned (hi : Placed s) (hk : s.handlers[k]? = some h) (hpc : h.pc.unassigned = false) :
    ∀ r ∈ s.pending, r.assignment ≠ k := by
  intro r hr hrk
  obtain ⟨g, hg⟩ := hi.entry r hr
  obtain rfl : h = g := Option.some.inj (hk.symm.trans (hrk ▸ hg.handler))
  rw [hg.unassigned] at hpc
  cases hpc

theorem Leased.goto (hi : Leased s) (hk : s.handlers[k]? = some h)
    (hl : ∀ l, pc.lease? = some l → Alone s h.reservationId ∧ OfHandler l h)
    (hv : (s.goto k h pc).live k { h with pc := pc } → ¬ Ended s.db h.sub.requestId) : Leased (s.goto k h pc) := by
  have hkeys := sameKeys_goto hk pc
  refine ⟨fun l hmem => (hi.leases l hmem).goto hk pc, fun j g l hj hpc => ?_, fun j g hj hlive => ?_,
    fun models r phase hr hg => (hi.granted models r phase hr hg).congr hkeys⟩
  · rcases Tasks.set_cases hj with ⟨rfl, rfl⟩ | ⟨-, hj⟩
    · obtain ⟨halone, hof⟩ := hl l hpc
      exact ⟨halone.congr hkeys, hof⟩
    · obtain ⟨halone, hof⟩ := hi.holder j g l hj hpc
      exact ⟨halone.congr hkeys, hof⟩
  · rcases Tasks.set_cases hj with ⟨rfl, rfl⟩ | ⟨-, hj⟩
    · exact hv hlive
    · exact hi.live j g hj hlive

theorem Inv.goto (hi : Inv s) (hk : s.handlers[k]? = some h) (pc : Pc)
    (hst : pc.stored = true → HasRow s.db h.sub.requestId)
    (hpc : pc.unassigned = true ∨ ∀ r ∈ s.pending, r.assignment ≠ k)
    (hl : ∀ l, pc.lease? = some l → Alone s h.reservationId ∧ OfHandler l h)
    (hv : (s.goto k h pc).live k { h with pc := pc } → ¬ Ended s.db h.sub.requestId) : Inv (s.goto k h pc) :=
  ⟨hi.toBacked.goto hk hst, hi.toPlaced.goto hk hpc, hi.toLeased.goto hk hl hv⟩

/-- The places of a handler that has no assignment (any more). -/
def Pc.left : Pc → Bool
  | .enqueuing | .excepted | .cancelling | .removed | .rejecting | .done => true
  | _ => false

/-- The handler moves to where it neither holds a lease nor waits. -/
theorem Inv.leave (hi : Inv s) (hk : s.handlers[k]? = some h) (pc : Pc) (hleft : pc.left = true)
    (hst : pc.stored = true → HasRow s.db h.sub.requestId)
    (hpc : pc.unassigned = true ∨ ∀ r ∈ s.pending, r.assignment ≠ k) : Inv (s.goto k h pc) := by
  have hnone : pc.lease? = none ∧ pc.active = false ∧ pc ≠ .waiting := by
    cases pc <;> simp_all [Pc.left, Pc.lease?, Pc.active]
  refine hi.goto hk pc hst hpc (fun l hl => ?_) fun hlive => ?_
  · rw [hnone.1] at hl
    cases hl
  · rcases hlive with hact | ⟨hwait, -⟩
    · rw [hnone.2.1] at hact
      cases hact
    · exact absurd hwait hnone.2.2

/-! ### What the other changes keep -/

/-- Requests are taken out of the queues or the router's hands, and leases are
put or taken. -/
theorem Inv.change (hi : Inv s) (hdb : s'.db = s.db) (hh : s'.handlers = s.handlers)
    (hleases : ∀ l ∈ s'.requestLeases, Owned s l) (hpend : s'.pending.Subperm s.pending)
    (hlive : ∀ k h, s.handlers[k]? = some h → s'.live k h → ¬ Ended s.db h.sub.requestId)
    (hgranted : ∀ models r phase, s'.router = .busy models r phase → phase.granted = true →
      Alone s r.reservationId) : Inv s' := by
  have hkeys : SameKeys s s' := .of_eq hh
  refine ⟨hi.toBacked.of_eq hdb hh, ⟨?_, fun r hr => ?_⟩, ⟨fun l hl => ?_, fun j g l hj hpc => ?_,
    fun j g hj hv => ?_, fun models r phase hr hg => (hgranted models r phase hr hg).congr hkeys⟩⟩
  · obtain ⟨l, hperm, hsub⟩ := hpend
    exact (hperm.map _).nodup_iff.mp (hi.unique.sublist (hsub.map _))
  · obtain ⟨g, hg⟩ := hi.entry r (hpend.subset hr)
    exact ⟨g, hh ▸ hg.handler, hg.unassigned, hg.id, hg.reservation, hdb ▸ hg.stored⟩
  · obtain ⟨halone, j, g, hj, hof⟩ := hleases l hl
    exact ⟨halone.congr hkeys, j, g, hh ▸ hj, hof⟩
  · obtain ⟨halone, hof⟩ := hi.holder j g l (hh ▸ hj) hpc
    exact ⟨halone.congr hkeys, hof⟩
  · rw [hdb]
    exact hlive j g (hh ▸ hj) hv

/-- The router moves on with the request or without it; it grants none. -/
theorem Inv.move (hi : Inv s) (hdb : s'.db = s.db) (hh : s'.handlers = s.handlers)
    (hleases : ∀ l ∈ s'.requestLeases, l ∈ s.requestLeases) (hpend : s'.pending.Subperm s.pending)
    (hgr : s'.router.granting? = none)
    (hgranted : ∀ models r phase, s'.router = .busy models r phase → phase.granted = true →
      Alone s r.reservationId) : Inv s' := by
  refine hi.change hdb hh (fun l hl => hi.leases l (hleases l hl)) hpend (fun j g hj hv => ?_) hgranted
  rcases hv with hact | ⟨-, hgrant⟩
  · exact hi.live j g hj (.inl hact)
  · rw [hgr] at hgrant
    cases hgrant

theorem Inv.supervisor (hi : Inv s) (sup : Supervisor.State) : Inv { s with supervisor := sup } :=
  hi.change rfl rfl hi.leases (List.Subperm.refl _) hi.live hi.granted

/-! ### What a call of the database keeps -/

section calls

variable {op : Database.Op} {st : Settlement}

theorem step_settles {db : Database} {rid : ReservationId} (hop : op.settles rid = some st) :
    db.step op = some (db.run op) := by
  cases op <;> first | rfl | cases hop

/-- A call that ends no request that is to be served. -/
theorem Inv.call (hi : Inv s) (hs : s.db.step op = some (s.db.run op))
    (hrows : Database.RowsStay s.db (s.db.run op))
    (hb : ∀ (j : ℕ) (g : Handler), s.handlers[j]? = some g → Backs (s.db.run op) g.reservationId g.sub.requestId)
    (hend : ∀ (j : ℕ) (g : Handler), s.handlers[j]? = some g → s.live j g →
      Ended (s.db.run op) g.sub.requestId → Ended s.db g.sub.requestId) : Inv (s.call op) := by
  refine ⟨⟨Database.sound_step hi.sound hs, hb, fun j g hj hpc => hrows.stored (hi.stored j g hj hpc),
      fun j g hj => (hi.ended j g hj).imp_left hrows.ended⟩, ⟨hi.unique, fun r hr => ?_⟩,
    ⟨hi.leases, hi.holder, fun j g hj hlive he => hi.live j g hj hlive (hend j g hj hlive he), hi.granted⟩⟩
  obtain ⟨g, hg⟩ := hi.entry r hr
  exact ⟨g, hg.handler, hg.unassigned, hg.id, hg.reservation, hrows.stored hg.stored⟩

theorem Backed.request_eq (hi : Backed s) {j : ℕ} {g : Handler} (hk : s.handlers[k]? = some h)
    (hj : s.handlers[j]? = some g) (hr : g.reservationId = h.reservationId) : g.sub.requestId = h.sub.requestId := by
  obtain ⟨q, hq, hreq, -⟩ := hi.backs k h hk
  obtain ⟨q', hq', hreq', -⟩ := hi.backs j g hj
  rw [hr, hq] at hq'
  cases hq'
  exact hreq'.symm.trans hreq

theorem Backed.reservation_eq (hi : Backed s) {j : ℕ} {g : Handler} (hk : s.handlers[k]? = some h)
    (hj : s.handlers[j]? = some g) (hr : g.sub.requestId = h.sub.requestId) : g.reservationId = h.reservationId :=
  (hi.backs j g hj).unique hi.sound (hr ▸ hi.backs k h hk)

/-- A request that has not ended has one handler. -/
theorem Backed.handler_eq (hi : Backed s) {j : ℕ} {g : Handler} (hk : s.handlers[k]? = some h)
    (hj : s.handlers[j]? = some g) (hr : g.sub.requestId = h.sub.requestId) (hend : ¬ Ended s.db h.sub.requestId) :
    j = k :=
  (hi.ended k h hk).resolve_left hend j k g h hj hk (hi.reservation_eq hk hj hr) rfl

/-- The reservation of a handler that is not to be served is settled. -/
theorem Inv.settle (hi : Inv s) (hk : s.handlers[k]? = some h) (hidle : ¬ s.live k h)
    (hst : HasRow s.db h.sub.requestId) (hop : op.settles h.reservationId = some st) : Inv (s.call op) := by
  have hrows := Database.settle_rows hi.sound.wf hop
  have hb := hi.backs k h hk
  refine hi.call (step_settles hop) hrows (fun j g hj => ?_) fun j g hj hlive he => ?_
  · refine (hi.backs j g hj).settle hi.sound (fun heq => ?_) hop
    rw [hi.toBacked.request_eq hk hj heq.symm]
    exact hst
  · rcases Database.ended_of_settle hi.sound hb hop he with hend | hreq
    · exact hend
    · have hkj := hi.toBacked.handler_eq hj hk hreq.symm (hi.live j g hj hlive)
      subst hkj
      obtain rfl : h = g := Option.some.inj (hk.symm.trans hj)
      exact absurd hlive hidle

end calls

/-! ### A submission -/

theorem over_ended {id : RequestId} (ho : s.over id = true) : Ended s.db id := by
  simp only [State.over, Bool.and_eq_true] at ho
  obtain ⟨row, hrow, hp⟩ := List.any_eq_true.mp ho.1.1.1
  obtain ⟨hid, hfinished⟩ := of_decide_eq_true hp
  exact ⟨row, hrow, hid, hfinished⟩

theorem over_leases {id : RequestId} (ho : s.over id = true) : ∀ l ∈ s.requestLeases, l.requestId ≠ id := by
  simp only [State.over, Bool.and_eq_true, Bool.not_eq_true', State.leased, List.any_eq_false, decide_eq_true_eq]
    at ho
  exact ho.1.1.2

theorem over_holder {id : RequestId} (ho : s.over id = true) (hk : s.handlers[k]? = some h)
    (hid : h.sub.requestId = id) : h.pc.lease? = none := by
  simp only [State.over, Bool.and_eq_true, List.all_eq_true, decide_eq_true_eq] at ho
  exact ho.1.2 h (List.mem_of_getElem? hk) hid

theorem over_router {id : RequestId} (ho : s.over id = true) {models : List ModelId} {r : QueuedRequest}
    {phase : Phase} (hr : s.router = .busy models r phase) : r.id ≠ id := by
  simp only [State.over, Bool.and_eq_true, hr, Router.request?, Option.all_some, decide_eq_true_eq] at ho
  exact ho.2

/-- A submission adds a handler with a reservation that is new, or one of a
request that is over. -/
structure Joins (s s' : State) (g : Handler) : Prop where
  handlers : s'.handlers = s.handlers ++ [g]
  creating : g.pc = .creating
  rest : s'.queues = s.queues ∧ s'.requestLeases = s.requestLeases ∧ s'.router = s.router
  sound : Sound s'.db
  rows : s'.db.inferenceRequests = s.db.inferenceRequests
  kept : ∀ rid r, Backs s.db rid r → Backs s'.db rid r
  backs : Backs s'.db g.reservationId g.sub.requestId
  earlier : ∀ (j : ℕ) (h : Handler), s.handlers[j]? = some h → h.reservationId = g.reservationId →
    h.sub.requestId = g.sub.requestId ∧ s.over g.sub.requestId = true

theorem joins_submit (hi : Backed s) {sub : Submission} {rid rid' : ReservationId} {lid : String} {db : Database}
    (hok : unrepeated s (.submit sub rid lid) = true)
    (hres : s.db.reserveQuota sub.requestId sub.idempotencyHash sub.principal sub.modelId sub.estimatedTokens rid
      lid = .ok (db, rid')) :
    Joins s { s with db := db, handlers := s.handlers ++ [{ sub := sub, reservationId := rid' }] }
      { sub := sub, reservationId := rid' } := by
  have hcases := Database.reserve_cases hres
  have hover : (∃ q ∈ s.db.quotaReservations, q.requestId = sub.requestId) → s.over sub.requestId = true := by
    rintro ⟨q, hq, hreq⟩
    simp only [unrepeated, decide_eq_true_eq] at hok
    exact hok (List.any_eq_true.mpr ⟨q, hq, by simpa using hreq⟩)
  refine ⟨rfl, rfl, ⟨rfl, rfl, rfl⟩, ?_, Database.reserve_rows hres, fun _ _ hb => hb.reserve hres, ?_,
    fun j h hj hr => ?_⟩
  · exact Database.sound_step hi.sound (Submission.step_reserve hres)
  · refine Database.reserve_backs hi.sound hres fun hsame => over_ended (hover ?_)
    rcases hcases with ⟨-, q, hq, -, hreq⟩ | ⟨q, hadd, -⟩
    · exact ⟨q, hq, hreq⟩
    · rw [show db = s.db from hsame] at hadd
      simp at hadd
  · obtain ⟨q', hq', hreq', -⟩ := hi.backs j h hj
    obtain ⟨hmem, hid'⟩ := Table.lookup_some hq'
    rcases hcases with ⟨-, q, hq, hid, hreq⟩ | ⟨q, -, -, -, -, hnone⟩
    · have hsame := Table.eq_of_key hi.sound.wf.reservationIds hmem hq (hid'.trans (hr.trans hid.symm))
      exact ⟨hreq'.symm.trans (hsame ▸ hreq), hover ⟨q, hq, hreq⟩⟩
    · rw [show h.reservationId = rid' from hr, hnone] at hq'
      cases hq'

namespace Joins

variable {g : Handler}

theorem alone {rid : ReservationId} (hj : Joins s s' g) (hne : rid ≠ g.reservationId) (ha : Alone s rid) :
    Alone s' rid := by
  intro i j h h' hi' hj' hr hr'
  rw [hj.handlers] at hi' hj'
  rcases Tasks.snoc_cases hi' with ⟨-, rfl⟩ | hi'
  · exact absurd hr.symm hne
  · rcases Tasks.snoc_cases hj' with ⟨-, rfl⟩ | hj'
    · exact absurd hr'.symm hne
    · exact ha i j h h' hi' hj' hr hr'

/-- The reservation is the new handler's own, or its request has ended. -/
theorem ended (hj : Joins s s' g) : Ended s.db g.sub.requestId ∨ Alone s' g.reservationId := by
  by_cases hold : ∃ (j : ℕ) (h : Handler), s.handlers[j]? = some h ∧ h.reservationId = g.reservationId
  · obtain ⟨j, h, hh, hr⟩ := hold
    exact .inl (over_ended (hj.earlier j h hh hr).2)
  · right
    intro i j h h' hi' hj' hr hr'
    rw [hj.handlers] at hi' hj'
    rcases Tasks.snoc_cases hi' with ⟨rfl, -⟩ | hi'
    · rcases Tasks.snoc_cases hj' with ⟨rfl, -⟩ | hj'
      · rfl
      · exact absurd ⟨j, h', hj', hr'⟩ hold
    · exact absurd ⟨i, h, hi', hr⟩ hold

/-- A handler that holds a lease, or has a request under way, keeps its
reservation to itself. -/
theorem alone_of (hj : Joins s s' g) {rid : ReservationId} (ha : Alone s rid)
    (hover : rid = g.reservationId → s.over g.sub.requestId = true → False)
    (hmem : ∃ (k : ℕ) (h : Handler), s.handlers[k]? = some h ∧ h.reservationId = rid) : Alone s' rid := by
  obtain ⟨k, h, hk, hr⟩ := hmem
  refine hj.alone (fun heq => ?_) ha
  exact hover heq (hj.earlier k h hk (hr.trans heq)).2

theorem inv (hj : Joins s s' g) (hi : Inv s) : Inv s' := by
  obtain ⟨hqueues, hleases, hrouter⟩ := hj.rest
  have hended : ∀ r, Ended s'.db r ↔ Ended s.db r := fun r => by simp only [Ended, hj.rows]
  have hold : ∀ {k : ℕ} {h : Handler}, s'.handlers[k]? = some h →
      (k = s.handlers.length ∧ h = g) ∨ s.handlers[k]? = some h := by
    intro k h hk
    rw [hj.handlers] at hk
    exact Tasks.snoc_cases hk
  have hstay : ∀ {k : ℕ} {h : Handler}, s.handlers[k]? = some h → s'.handlers[k]? = some h := by
    intro k h hk
    rw [hj.handlers]
    exact Tasks.snoc_old hk
  have hpending : s'.pending = s.pending := by rw [State.pending, State.pending, hqueues, hrouter]
  refine ⟨⟨hj.sound, fun k h hk => ?_, fun k h hk hpc => ?_, fun k h hk => ?_⟩,
    ⟨hpending ▸ hi.unique, fun r hr => ?_⟩,
    ⟨fun l hl => ?_, fun k h l hk hpc => ?_, fun k h hk hlive => ?_, fun models r phase hr hg => ?_⟩⟩
  · rcases hold hk with ⟨-, rfl⟩ | hk
    · exact hj.backs
    · exact hj.kept _ _ (hi.backs k h hk)
  · rcases hold hk with ⟨-, rfl⟩ | hk
    · rw [hj.creating] at hpc
      cases hpc
    · simpa only [HasRow, hj.rows] using hi.stored k h hk hpc
  · rw [hended]
    rcases hold hk with ⟨-, rfl⟩ | hk
    · exact hj.ended
    · by_cases hr : h.reservationId = g.reservationId
      · obtain ⟨hreq, hover⟩ := hj.earlier k h hk hr
        exact .inl (hreq ▸ over_ended hover)
      · exact (hi.ended k h hk).imp_right (hj.alone hr)
  · obtain ⟨h, hh⟩ := hi.entry r (hpending ▸ hr)
    exact ⟨h, hstay hh.handler, hh.unassigned, hh.id, hh.reservation, by simpa only [HasRow, hj.rows] using hh.stored⟩
  · obtain ⟨ha, k, h, hk, hof⟩ := hi.leases l (hleases ▸ hl)
    refine ⟨hj.alone_of ha (fun heq hover => ?_) ⟨k, h, hk, hof.1.symm⟩, k, h, hstay hk, hof⟩
    have hreq := (hj.earlier k h hk (hof.1.symm.trans heq)).1
    exact over_leases hover l (hleases ▸ hl) (hof.2.trans hreq)
  · rcases hold hk with ⟨-, rfl⟩ | hk
    · rw [hj.creating] at hpc
      cases hpc
    · obtain ⟨ha, hof⟩ := hi.holder k h l hk hpc
      refine ⟨hj.alone_of ha (fun heq hover => ?_) ⟨k, h, hk, rfl⟩, hof⟩
      rw [over_holder hover hk (hj.earlier k h hk heq).1] at hpc
      cases hpc
  · rw [hended]
    rcases hold hk with ⟨-, rfl⟩ | hk
    · rcases hlive with hact | ⟨hwait, -⟩
      · rw [hj.creating] at hact
        cases hact
      · rw [hj.creating] at hwait
        cases hwait
    · refine hi.live k h hk ?_
      rwa [State.live, ← hrouter]
  · rw [hrouter] at hr
    have hmem : r ∈ s.pending := by simp [State.pending, hr, Router.request?]
    obtain ⟨h, hh⟩ := hi.entry r hmem
    refine hj.alone_of (hi.granted models r phase hr hg) (fun heq hover => ?_) ⟨_, h, hh.handler, hh.reservation.symm⟩
    have hreq := (hj.earlier _ h hh.handler (hh.reservation.symm.trans heq)).1
    exact over_router hover hr (hh.id.trans hreq)

end Joins

/-! ### The moves of a handler -/

/-- The router has no request. -/
theorem pending_idle (h : s.router.request? = none) : s.pending = s.queues.requests := by
  rw [State.pending, h]
  exact List.append_nil _

theorem request_idle (h : s.router = .idle) : s.router.request? = none := by
  rw [h]
  rfl

theorem granting_idle (h : s.router = .idle) : s.router.granting? = none := by
  rw [h]
  rfl

theorem not_live (hpc : h.pc.active = false) (hw : h.pc ≠ .waiting) : ¬ s.live k h := by
  rintro (hact | ⟨hwait, -⟩)
  · rw [hpc] at hact
    cases hact
  · exact hw hwait

section moves

variable (hi : Inv s) (hk : s.handlers[k]? = some h)
include hi hk

theorem Inv.create (hpc : h.pc = .creating) : Inv (createSection s k h) := by
  have hassigned := hi.toPlaced.assigned hk (by rw [hpc]; rfl)
  unfold createSection
  cases hcall : h.create s.db with
  | error e => exact hi.leave hk _ rfl (fun hst => by cases hst) (.inl rfl)
  | ok db =>
    have hrun : s.db.run h.store = db := Reserved.run_store hcall
    obtain ⟨q, hq, hreq, -⟩ := hi.backs k h hk
    have hcalled : Inv (s.call h.store) := by
      refine hi.call (hrun.symm ▸ Reserved.step_store hq hreq hcall) (hrun ▸ Database.store_rows hcall)
        (fun j g hj => ?_) fun j g hj _ he => ?_
      · rw [hrun]
        exact (hi.backs j g hj).store hcall
      · rw [hrun] at he
        exact Database.store_ended hcall he
    refine hcalled.leave (s := s.call h.store) hk _ rfl (fun _ => ?_) (.inr hassigned)
    show HasRow (s.db.run h.store) h.sub.requestId
    rw [hrun]
    exact Database.store_stored hcall

/-- The request is put into the queue, and the handler waits. -/
theorem Inv.put (hpc : h.pc = .enqueuing) (hidle : s.router = .idle) {r : QueuedRequest} {queues : ModelQueues}
    (hr : r.assignment = k ∧ r.id = h.sub.requestId ∧ r.reservationId = h.reservationId)
    (hq : queues.requests.Perm (r :: s.queues.requests)) : Inv ({ s with queues := queues }.goto k h .waiting) := by
  obtain ⟨hrk, hrid, hres⟩ := hr
  have hassigned := hi.toPlaced.assigned hk (by rw [hpc]; rfl)
  have hstored := hi.stored k h hk (by rw [hpc]; rfl)
  have hold : s.pending = s.queues.requests := pending_idle (request_idle hidle)
  have hnew : ({ s with queues := queues }.goto k h .waiting).pending = queues.requests :=
    pending_idle (request_idle hidle)
  have hpending : ({ s with queues := queues }.goto k h .waiting).pending.Perm (r :: s.pending) := by
    rw [hold, hnew]
    exact hq
  have hbacked : Backed ({ s with queues := queues }.goto k h .waiting) :=
    Backed.goto (s := { s with queues := queues }) (hi.toBacked.of_eq rfl rfl) hk fun _ => hstored
  have hleased : Leased ({ s with queues := queues }.goto k h .waiting) := by
    refine Leased.goto (s := { s with queues := queues }) ⟨hi.leases, hi.holder, hi.live, hi.granted⟩ hk
      (fun l hl => by cases hl) fun hlive => ?_
    rcases hlive with hact | ⟨-, hgr⟩
    · cases hact
    · have hsome : s.router.granting? = some k := hgr
      rw [granting_idle hidle] at hsome
      cases hsome
  refine ⟨hbacked, ⟨?_, fun r' hr' => ?_⟩, hleased⟩
  · refine (hpending.map _).nodup_iff.mpr ?_
    rw [List.map_cons, List.nodup_cons]
    refine ⟨fun hmem => ?_, hi.unique⟩
    obtain ⟨r', hr', heq⟩ := List.mem_map.mp hmem
    exact hassigned r' hr' (heq.trans hrk)
  · rcases List.mem_cons.mp (hpending.subset hr') with rfl | hr'
    · refine ⟨{ h with pc := .waiting }, ?_, rfl, hrid, hres, hrid.symm ▸ hstored⟩
      rw [hrk]
      exact Tasks.set_self hk
    · obtain ⟨g, hg⟩ := hi.entry r' hr'
      exact ⟨g, Tasks.set_other hg.handler (hassigned r' hr'), hg.unassigned, hg.id, hg.reservation, hg.stored⟩

/-- Requests are taken out of the queues, or stay. -/
theorem Inv.take {queues : ModelQueues} (hidle : s.router = .idle)
    (hq : queues.requests.Subperm s.queues.requests) (hleft : pc.left = true)
    (hst : pc.stored = true → HasRow s.db h.sub.requestId)
    (hpc : pc.unassigned = true ∨ ∀ r ∈ s.pending, r.assignment ≠ k) :
    Inv ({ s with queues := queues }.goto k h pc) := by
  have hpend : State.pending { s with queues := queues } = queues.requests := pending_idle (request_idle hidle)
  have hold : s.pending = s.queues.requests := pending_idle (request_idle hidle)
  have hsub : (State.pending { s with queues := queues }).Subperm s.pending := by
    rw [hpend, hold]
    exact hq
  have htaken : Inv { s with queues := queues } :=
    hi.move rfl rfl (fun _ hl => hl) hsub (granting_idle hidle) hi.granted
  refine htaken.leave hk _ hleft hst (hpc.imp_right fun hno r hr => hno r (hsub.subset hr))

theorem Inv.enqueue (hpc : h.pc = .enqueuing) (hidle : s.router = .idle) (now : Datetime) :
    Inv (enqueueSection s k h now) := by
  unfold enqueueSection
  rcases hput : s.queues.put (h.queued k now) with ⟨queues, accepted⟩
  cases accepted with
  | true =>
    have hq := @ModelQueues.put_perm s.queues (h.queued k now) (by rw [hput])
    rw [hput] at hq
    exact hi.put hk hpc hidle ⟨rfl, rfl, rfl⟩ hq
  | false =>
    have hq := @ModelQueues.put_refused s.queues (h.queued k now) (by rw [hput])
    rw [hput] at hq
    exact hi.take hk hidle hq.subperm rfl (fun _ => hi.stored k h hk (by rw [hpc]; rfl)) (.inl rfl)

theorem Inv.remove (hpc : h.pc = .cancelling) (hidle : s.router = .idle) : Inv (removeSection s k h) := by
  have hst : HasRow s.db h.sub.requestId := hi.stored k h hk (by rw [hpc]; rfl)
  unfold removeSection
  cases hremove : s.queues.remove h.sub.modelId h.sub.requestId with
  | none => exact hi.leave hk _ rfl (fun _ => hst) (.inl rfl)
  | some taken =>
    obtain ⟨r, queues⟩ := taken
    have hperm := (ModelQueues.remove_perm hremove).2
    have hsub : queues.requests.Subperm s.queues.requests :=
      (List.sublist_cons_self r _).subperm.trans hperm.symm.subperm
    exact hi.take hk hidle hsub rfl (fun _ => hst) (.inl rfl)

/-- A handler that is not to be served settles its reservation. -/
theorem Inv.release (hidle : ¬ s.live k h) (hst : HasRow s.db h.sub.requestId) {op : Database.Op}
    {st : Settlement} (hop : op.settles h.reservationId = some st) (hleft : pc.left = true)
    (hpc : pc.unassigned = true) : Inv ((s.call op).goto k h pc) := by
  refine (hi.settle hk hidle hst hop).leave (s := s.call op) hk _ hleft (fun _ => ?_) (.inl hpc)
  exact (Database.settle_rows hi.sound.wf hop).stored hst

/-- The completion settles the reservation, and the request is no longer to
be served. -/
theorem Inv.complete {l : WorkerLease} (hpc : h.pc = .serving l) {op : Database.Op} {st : Settlement}
    (hop : op.settles h.reservationId = some st) : Inv ((s.call op).goto k h (.settled l)) := by
  have hst : HasRow s.db h.sub.requestId := hi.stored k h hk (by rw [hpc]; rfl)
  have hheld := hi.holder k h l hk (by rw [hpc]; rfl)
  have hidle : ∀ s : State, ¬ s.live k { h with pc := .settled l } := by
    rintro s (hact | ⟨hwait, -⟩)
    · cases hact
    · cases hwait
  have hmoved : Inv (s.goto k h (.settled l)) := by
    refine hi.goto hk _ (fun _ => hst) (.inr (hi.toPlaced.assigned hk (by rw [hpc]; rfl))) (fun l' hl => ?_)
      fun hlive => absurd hlive (hidle _)
    cases hl
    exact hheld
  exact hmoved.settle (Tasks.set_self hk) (hidle _) hst hop

/-- A handler keeps its lease while it moves. -/
theorem Inv.hold {l : WorkerLease} (hl : h.pc.lease? = some l) (hpc : pc.lease? = some l)
    (hact : pc.active = true → h.pc.active = true) : Inv (s.goto k h pc) := by
  have hpcs : ∀ pc : Pc, pc.lease? = some l → pc.unassigned = false ∧ pc.stored = true ∧ pc ≠ .waiting := by
    intro pc
    cases pc <;> simp [Pc.lease?, Pc.unassigned, Pc.stored]
  refine hi.goto hk _ (fun _ => hi.stored k h hk (hpcs _ hl).2.1) (.inr (hi.toPlaced.assigned hk (hpcs _ hl).1))
    (fun l' hl' => ?_) fun hlive => ?_
  · rw [hpc] at hl'
    cases hl'
    exact hi.holder k h l hk hl
  · rcases hlive with hact' | ⟨hwait, -⟩
    · exact hi.live k h hk (.inl (hact hact'))
    · exact absurd hwait (hpcs _ hpc).2.2

theorem Inv.pop {l : WorkerLease} (hpc : h.pc = .settled l) : Inv (popSection s k h l) := by
  have hl : h.pc.lease? = some l := by
    rw [hpc]
    rfl
  unfold popSection
  split
  · have hpopped : Inv (s.pop l.requestId) :=
      hi.change rfl rfl (fun l' hl' => hi.leases l' (List.mem_of_mem_filter hl')) (List.Subperm.refl _) hi.live
        hi.granted
    exact hpopped.hold (s := s.pop l.requestId) hk hl rfl (fun hact => by cases hact)
  · exact hi.leave hk _ rfl (fun hst => by cases hst) (.inl rfl)

end moves

theorem inv_handler (hi : Inv s) (hk : s.handlers[k]? = some h) {m : Move}
    (hs : handlerStep cfg s k h h.pc m = some s') : Inv s' := by
  have hstored := hi.stored k h hk
  generalize hpc : h.pc = pc at hs hstored
  unfold handlerStep at hs
  split at hs
  case h_1 =>
    cases hs
    exact hi.create hk hpc
  -- the handler ends
  case h_2 | h_3 | h_4 =>
    cases hs
    exact hi.leave hk _ rfl (fun hst => by cases hst) (.inl rfl)
  case h_5 now =>
    split at hs
    · rename_i hidle
      cases hs
      exact hi.enqueue hk hpc hidle now
    · cases hs
  -- `enqueue` raises, or its wait is cancelled
  case h_6 | h_8 | h_9 | h_10 | h_11 | h_12 | h_13 =>
    cases hs
    exact hi.leave hk _ rfl (fun _ => hstored rfl) (.inl rfl)
  -- the lease stays with the handler
  case h_7 | h_18 =>
    cases hs
    exact hi.hold hk (by rw [hpc]; rfl) rfl fun _ => by rw [hpc]; rfl
  case h_14 =>
    split at hs
    · rename_i hidle
      cases hs
      exact hi.remove hk hpc hidle
    · cases hs
  case h_15 | h_16 =>
    cases hs
    have hidle : ¬ s.live k h := not_live (by rw [hpc]; rfl) (by simp [hpc])
    exact hi.release hk hidle (hstored rfl) (Database.settles_release _ _ _ _) rfl rfl
  case h_17 =>
    cases hs
    exact hi.complete hk hpc (Database.settles_settle _ _ _ _ _ _ _)
  case h_19 =>
    cases hs
    exact hi.pop hk hpc
  case h_20 =>
    obtain ⟨sup, -, rfl⟩ := Option.map_eq_some_iff.mp hs
    exact (hi.supervisor sup).leave (s := { s with supervisor := sup }) hk _ rfl (fun hst => by cases hst) (.inl rfl)
  case h_21 => cases hs

/-! ### The turns of the router -/

section turns

variable {models : List ModelId} {r : QueuedRequest} {phase : Phase}

theorem mem_pending (hb : s.router = .busy models r phase) : r ∈ s.pending := by
  simp [State.pending, hb, Router.request?]

/-- The router goes on with its request. -/
theorem Inv.goOn (hi : Inv s) (hb : s.router = .busy models r phase) (phase' : Phase)
    (hgr : (Router.busy models r phase').granting? = none)
    (hgranted : phase'.granted = true → phase.granted = true) :
    Inv { s with router := .busy models r phase' } := by
  have hsame : State.pending { s with router := .busy models r phase' } = s.pending := by
    rw [State.pending, State.pending, hb]
    rfl
  refine hi.move rfl rfl (fun _ hl => hl) ?_ hgr fun models' r' p hr hp => ?_
  · rw [hsame]
  · cases hr
    exact hi.granted models r phase hb (hgranted hp)

/-- The router is done with its request, or stops. -/
theorem Inv.rest (hi : Inv s) (router : Router) (hrouter : router.request? = none) {leases : List WorkerLease}
    (hleases : ∀ l ∈ leases, Owned s l) : Inv { s with requestLeases := leases, router := router } := by
  have hidle : router.granting? = none ∧ ∀ models r phase, router ≠ .busy models r phase := by
    cases router <;> simp_all [Router.granting?, Router.request?]
  have hsub : State.pending { s with requestLeases := leases, router := router } = s.queues.requests :=
    pending_idle hrouter
  refine hi.change rfl rfl hleases ?_ (fun j g hj hv => ?_) fun models r phase hr =>
    absurd hr (hidle.2 models r phase)
  · rw [hsub]
    exact (List.sublist_append_left _ _).subperm
  · rcases hv with hact | ⟨-, hgrant⟩
    · exact hi.live j g hj (.inl hact)
    · rw [show Router.granting? router = some j from hgrant] at hidle
      cases hidle.1

/-- A request that is taken out of a queue is in the router's hands. -/
theorem Inv.route (hi : Inv s) {m : ModelId} (hb : s.router = .routing (m :: models)) :
    Inv (routeSection s m models) := by
  unfold routeSection
  simp only
  split
  · rename_i w r q hmin hpop
    have hperm := ModelQueues.update_swap (DeficitRoundRobinQueue.pop_perm hpop)
    refine hi.move rfl rfl (fun _ hl => hl) ?_ rfl fun models' r' p hr hp => ?_
    · have hold : s.pending = s.queues.requests := pending_idle (by rw [hb]; rfl)
      rw [hold]
      exact (List.perm_append_singleton r _).subperm.trans hperm.symm.subperm
    · cases hr
      cases hp
  · exact hi.rest (.routing models) rfl hi.leases

/-- A request that is marked has not ended: its handler is the only one. -/
theorem Inv.mark (hi : Inv s) {w : WorkerId} (hb : s.router = .busy models r (.marking w)) (ok : Bool)
    (now : Datetime) : Inv (markSection s models r w ok now) := by
  unfold markSection
  split
  · rename_i hmark
    obtain ⟨g, hg⟩ := hi.entry r (mem_pending hb)
    have hend : ¬ Ended s.db g.sub.requestId := hg.id ▸ Database.mark_ended hi.sound hmark.2
    have halone : Alone s r.reservationId :=
      hg.reservation ▸ (hi.ended r.assignment g hg.handler).resolve_left hend
    have hcalled : Inv (s.call (.markRequestAdmitted r.id w now)) := by
      refine hi.call (if_pos rfl) Database.mark_rows (fun j g hj => (hi.backs j g hj).mark) fun j g hj _ he => ?_
      exact Database.ended_of_mark he
    have hpend : State.pending { s.call (.markRequestAdmitted r.id w now) with
        router := .busy models r (.granting w) } = s.pending := by
      rw [State.pending, State.pending, hb]
      rfl
    refine hcalled.change rfl rfl hcalled.leases (by rw [hpend]; exact List.Subperm.refl _) (fun j g' hj hv => ?_)
      fun models' r' p hr hp => ?_
    · rcases hv with hact | ⟨-, hgrant⟩
      · exact hcalled.live j g' hj (.inl hact)
      · obtain rfl : r.assignment = j := Option.some.inj hgrant
        obtain rfl : g = g' := Option.some.inj (hg.handler.symm.trans hj)
        exact fun he => hend (Database.ended_of_mark he)
    · cases hr
      exact halone
  · exact hi.goOn hb (.retracting w) rfl fun hp => by cases hp

/-- No other pending request has the assignment of the router's. -/
theorem Placed.taken (hi : Placed s) (hb : s.router = .busy models r phase) :
    ∀ r' ∈ s.queues.requests, r'.assignment ≠ r.assignment := by
  have hunique := hi.unique
  rw [State.pending, hb, List.map_append] at hunique
  intro r' hr' heq
  exact (List.disjoint_of_nodup_append hunique) (List.mem_map_of_mem hr') (heq ▸ List.mem_singleton_self _)

theorem waiting_eq (hw : s.waiting? k = some h) : s.handlers[k]? = some h ∧ h.pc = .waiting := by
  obtain ⟨hk, hpc⟩ := Option.filter_eq_some_iff.mp hw
  exact ⟨hk, of_decide_eq_true hpc⟩

/-- The lease is stored, and the assignment is set to it unless it is done. -/
theorem Inv.grant (hi : Inv s) {w : WorkerId} (hb : s.router = .busy models r (.granting w)) :
    Inv (grantSection s models r (leaseOf r w)) := by
  obtain ⟨g, hg⟩ := hi.entry r (mem_pending hb)
  have halone := hi.granted models r _ hb rfl
  have hof : OfHandler (leaseOf r w) g := ⟨hg.reservation, hg.id⟩
  have hleases : ∀ l ∈ (s.pop r.id).requestLeases ++ [leaseOf r w], Owned s l := by
    intro l hl
    rcases List.mem_append.mp hl with hl | hl
    · exact hi.leases l (List.mem_of_mem_filter hl)
    · rw [List.mem_singleton.mp hl]
      exact ⟨halone, r.assignment, g, hg.handler, hof⟩
  unfold grantSection
  simp only
  cases hwait : s.waiting? r.assignment with
  | some h =>
    obtain ⟨hk, hpc⟩ := waiting_eq hwait
    obtain rfl : h = g := Option.some.inj (hk.symm.trans hg.handler)
    have hrested := hi.rest (.routing models) rfl hleases
    refine hrested.goto hk (.assigned (leaseOf r w)) (fun _ => hg.id ▸ hg.stored)
      (.inr fun r' hr' => hi.toPlaced.taken hb r' ?_) (fun l hl => ?_)
      fun _ => hi.live r.assignment h hk (.inr ⟨hpc, by rw [hb]; rfl⟩)
    · rwa [pending_idle rfl] at hr'
    · cases hl
      exact ⟨hg.reservation ▸ halone, hof⟩
  | none =>
    refine hi.change rfl rfl hleases ?_ (fun j g' hj hv => ?_) fun models' r' p hr hp => ?_
    · have hsame : State.pending { s.pop r.id with
          requestLeases := (s.pop r.id).requestLeases ++ [leaseOf r w]
          router := .busy models r (.orphaned (leaseOf r w)) } = s.pending := by
        rw [State.pending, State.pending, hb]
        rfl
      rw [hsame]
    · rcases hv with hact | ⟨-, hgrant⟩
      · exact hi.live j g' hj (.inl hact)
      · cases hgrant
    · cases hr
      exact halone

/-- The router settles the reservation of its request. -/
theorem Inv.giveUp (hi : Inv s) (hb : s.router = .busy models r phase)
    (hgr : (Router.busy models r phase).granting? = none) {op : Database.Op} {st : Settlement}
    (hop : op.settles r.reservationId = some st) : Inv (s.call op) := by
  obtain ⟨g, hg⟩ := hi.entry r (mem_pending hb)
  refine hi.settle hg.handler ?_ (hg.id ▸ hg.stored) (hg.reservation ▸ hop)
  rintro (hact | ⟨-, hgrant⟩)
  · have hun := hg.unassigned
    revert hact hun
    cases g.pc <;> simp [Pc.active, Pc.unassigned]
  · rw [hb, hgr] at hgrant
    cases hgrant

/-- The assignment is set to the exception unless it is done. -/
theorem Inv.except (hi : Inv s) (hb : s.router = .busy models r phase) :
    Inv { s.assign r.assignment .excepted with router := .routing models } := by
  have hrested := hi.rest (.routing models) rfl hi.leases
  unfold State.assign
  cases hwait : s.waiting? r.assignment with
  | none => exact hrested
  | some h =>
    obtain ⟨hk, hpc⟩ := waiting_eq hwait
    refine hrested.leave hk .excepted rfl (fun _ => hi.stored r.assignment h hk (by rw [hpc]; rfl))
      (.inr fun r' hr' => hi.toPlaced.taken hb r' ?_)
    rwa [pending_idle rfl] at hr'

theorem Inv.refuse (hi : Inv s) (hb : s.router = .busy models r .refusing) (ok : Bool) (lid : String)
    (now : Datetime) : Inv (refuseSection s models r ok lid now) := by
  unfold refuseSection
  cases ok with
  | false => exact hi.except hb
  | true => exact (hi.giveUp hb rfl (Database.settles_release _ _ _ _)).except hb

theorem Inv.takeBack (hi : Inv s) {l : WorkerLease} (hb : s.router = .busy models r (.returning l)) :
    Inv (returnSection s models r l) := by
  have hpopped : Inv (s.pop l.requestId) :=
    hi.change rfl rfl (fun l' hl' => hi.leases l' (List.mem_of_mem_filter hl')) (List.Subperm.refl _) hi.live
      hi.granted
  unfold returnSection
  split
  · exact hpopped.goOn (s := s.pop l.requestId) hb (.releasing l) rfl fun _ => rfl
  · exact hi.rest (.routing models) rfl hi.leases

end turns

theorem inv_router (hi : Inv s) {t : Turn} (hs : routerStep cfg s s.router t = some s') : Inv s' := by
  generalize hb : s.router = router at hs
  unfold routerStep at hs
  split at hs
  case h_1 =>
    cases hs
    exact hi.rest (.routing _) rfl hi.leases
  -- there is nothing left to route, or an exception leaves the router
  case h_2 | h_12 | h_13 =>
    cases hs
    exact hi.rest .idle rfl hi.leases
  case h_3 =>
    cases hs
    exact hi.route hb
  case h_4 =>
    split at hs
    · split at hs
      · rename_i sup _
        cases hs
        exact (hi.supervisor sup).goOn hb (.marking _) rfl fun hp => by cases hp
      · cases hs
        exact hi.goOn hb .refusing rfl fun hp => by cases hp
    · cases hs
  case h_5 =>
    cases hs
    exact hi.mark hb _ _
  case h_6 =>
    cases hs
    exact hi.grant hb
  case h_7 =>
    obtain ⟨sup, -, rfl⟩ := Option.map_eq_some_iff.mp hs
    exact (hi.supervisor sup).goOn hb .refusing rfl fun hp => by cases hp
  case h_8 =>
    cases hs
    exact hi.refuse hb _ _ _
  case h_9 =>
    cases hs
    exact (hi.giveUp hb rfl (Database.settles_release _ _ _ _)).goOn hb (.returning _) rfl fun _ => rfl
  case h_10 =>
    cases hs
    exact hi.takeBack hb
  case h_11 =>
    obtain ⟨sup, -, rfl⟩ := Option.map_eq_some_iff.mp hs
    exact (hi.supervisor sup).rest (.routing _) rfl hi.leases
  case h_14 => cases hs

theorem inv_step (hi : Inv s) {a : Act} (ha : unrepeated s a = true) (hs : step cfg s a = some s') : Inv s' := by
  cases a with
  | submit sub rid lid =>
    unfold step at hs
    simp only at hs
    split at hs
    · rename_i db rid' hres
      cases hs
      exact (joins_submit hi.toBacked ha hres).inv hi
    · cases hs
  | handler k m =>
    obtain ⟨h, hk, hs⟩ := Option.bind_eq_some_iff.mp hs
    exact inv_handler hi hk hs
  | router t => exact inv_router hi hs
  | supervisor b =>
    unfold step at hs
    simp only at hs
    split at hs
    · cases hs
    · cases hs
    · obtain ⟨sup, -, rfl⟩ := Option.map_eq_some_iff.mp hs
      exact hi.supervisor sup

end Submissions
end LlmRio
