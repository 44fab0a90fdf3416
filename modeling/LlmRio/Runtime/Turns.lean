/-
# What a turn of a task does

The inversion of `step`: what each move of a handler, each duty and each turn
of the scheduler finds and leaves. The invariants of the routing are proved by
cases on these and do not unfold the sections.

Key definitions: `HandlerEffect`, `DutyEffect`, `SchedulerEffect`, `Effect`,
`HandlersStep`.
Key theorems: `step_effect`, `handlers_step`.
-/
import LlmRio.Runtime.Routing

namespace LlmRio
namespace Routing

open Selection
open Submissions (Submission)

variable {cfg : Settings}

/-- What a move of the handler `k` leaves. -/
inductive HandlerEffect (cfg : Settings) (s : State) (k : ℕ) (h : Handler) : State → Prop
  /-- The request is not stored, or its lease is out of the map already. -/
  | ends (hold : h.pc = .creating ∨ ∃ l, h.pc = .settled l) : HandlerEffect cfg s k h (s.goto k h .done)
  /-- `enqueue` raises. -/
  | raises (hold : h.pc = .enqueuing ∨ h.pc = .waiting ∨ h.pc = .cancelling) :
      HandlerEffect cfg s k h (s.goto k h (.rejecting false))
  | stored {db : Database} (hpc : h.pc = .creating) (hdb : h.create s.db = .ok db) :
      HandlerEffect cfg s k h ((s.call h.store).goto k h .enqueuing)
  | accepted {now : Datetime} (hpc : h.pc = .enqueuing) (hlock : s.scheduler.locked = false)
      (hput : (s.queues.put (h.queued k now)).2 = true) :
      HandlerEffect cfg s k h ({ s with
        queues := (s.queues.put (h.queued k now)).1
        history := { s.history with accepted := s.history.accepted ++ [h.sub.requestId] } }.goto k h .waiting)
  | full {now : Datetime} (hpc : h.pc = .enqueuing) (hput : (s.queues.put (h.queued k now)).2 = false) :
      HandlerEffect cfg s k h ({ s with queues := (s.queues.put (h.queued k now)).1 }.goto k h (.rejecting false))
  | serves {lease : WorkerLease} (hpc : h.pc = .waiting) (ha : h.assignment = .result lease) :
      HandlerEffect cfg s k h (s.goto k h (.serving lease))
  | cancelled (hpc : h.pc = .waiting) (ha : h.assignment = .pending) :
      HandlerEffect cfg s k h (s.assign k { h with pc := .cancelling } .cancelled)
  | cancelledLate (hpc : h.pc = .waiting) (ha : h.assignment ≠ .pending) :
      HandlerEffect cfg s k h (s.goto k h .cancelling)
  | removed {r : QueuedRequest} {queues : ModelQueues} (hpc : h.pc = .cancelling)
      (hlock : s.scheduler.locked = false)
      (hr : s.queues.remove h.sub.modelId h.sub.requestId = some (r, queues)) :
      HandlerEffect cfg s k h ({ s with queues := queues }.goto k h .withdrawing)
  | cancelledAgain (hpc : h.pc = .withdrawing) : HandlerEffect cfg s k h (s.goto k h (.rejecting true))
  | withdrawn {lid : String} {now : Datetime} (hpc : h.pc = .withdrawing) :
      HandlerEffect cfg s k h (((s.call (.releaseReservation h.reservationId "client_cancelled" lid now)).finish
        h.sub.requestId).goto k h (.rejecting false))
  | withdrawnLate {lid : String} {now : Datetime} (hpc : h.pc = .rejecting true) :
      HandlerEffect cfg s k h (((s.call (.releaseReservation h.reservationId "queue_rejected" lid now)).finish
        h.sub.requestId).goto k h .done)
  | rejected {lid : String} {now : Datetime} (hpc : h.pc = .rejecting false) :
      HandlerEffect cfg s k h ((s.call (.releaseReservation h.reservationId "queue_rejected" lid now)).goto k h .done)
  | touched {lease current : WorkerLease} {now : Datetime} (hpc : h.pc = .serving lease)
      (hlease : s.lease? lease.requestId = some current) :
      HandlerEffect cfg s k h (s.put { current with lastActivityAt := some now })
  | gone {lease : WorkerLease} (hpc : h.pc = .serving lease) : HandlerEffect cfg s k h s
  | settled {lease : WorkerLease} {n : ℤ} {p c : Option ℤ} {e : Option String} {lid : String} {now : Datetime}
      (hpc : h.pc = .serving lease) :
      HandlerEffect cfg s k h ((s.call (.settleQuota h.reservationId n p c e lid now)).goto k h (.settled lease))
  | dropped {lease : WorkerLease} (hpc : h.pc = .serving lease) : HandlerEffect cfg s k h (s.goto k h .abandoned)
  | popped {lease current : WorkerLease} (hpc : h.pc = .settled lease)
      (hlease : s.lease? lease.requestId = some current) :
      HandlerEffect cfg s k h ((s.pop lease.requestId).goto k h (.releasing lease))
  | freed {lease : WorkerLease} {now : Datetime} {sup : Supervisor.State} (hpc : h.pc = .releasing lease)
      (hsup : Supervisor.step cfg.toSettings s.supervisor
        (.release lease.workerId lease.requestId lease.estimatedTokens now) = some sup) :
      HandlerEffect cfg s k h
        (((s.released sup lease.workerId lease.requestId).finish lease.requestId).goto k h .done)

/-- What a duty leaves, and what there is left to do. -/
inductive DutyEffect (cfg : Settings) (s : State) : Duty → State → List Duty → Prop
  | settled {lease : WorkerLease} {code lid : String} {now : Datetime} :
      DutyEffect cfg s (.settle lease code false)
        (s.call (.releaseReservation lease.reservationId code lid now)) []
  | closed {lease : WorkerLease} {code lid : String} {now : Datetime} :
      DutyEffect cfg s (.settle lease code true)
        ((s.call (.releaseReservation lease.reservationId code lid now)).finish lease.requestId) []
  | popped {lease current : WorkerLease} (hlease : s.lease? lease.requestId = some current) :
      DutyEffect cfg s (.release lease) (s.pop lease.requestId) [.free lease]
  | freed {lease : WorkerLease} {now : Datetime} {sup : Supervisor.State}
      (hsup : Supervisor.step cfg.toSettings s.supervisor
        (.release lease.workerId lease.requestId lease.estimatedTokens now) = some sup) :
      DutyEffect cfg s (.free lease)
        ((s.released sup lease.workerId lease.requestId).finish lease.requestId) []
  | failed {lease current : WorkerLease} (hlease : s.lease? lease.requestId = some current) :
      DutyEffect cfg s (.fail lease) (s.pop lease.requestId) [.settle lease "worker_failed" true]
  | failedLate {lease : WorkerLease} : DutyEffect cfg s (.fail lease) s [.settle lease "worker_failed" false]
  | dropped {id : RequestId} {lease : WorkerLease} (hlease : s.lease? id = some lease) :
      DutyEffect cfg s (.drop id) (s.pop id) [.settle lease "drain_watchdog" true]
  /-- The lease is out of the map already. -/
  | gone {d : Duty} (hd : (∃ l, d = .release l) ∨ ∃ id, d = .drop id) : DutyEffect cfg s d s []

/-- What a turn of the scheduler leaves. -/
inductive SchedulerEffect (cfg : Settings) (s : State) : State → Prop
  | duty {loop : Loop} {d : Duty} {todo ds : List Duty} {s' : State}
      (hb : s.scheduler = .ending loop (d :: todo)) (hd : DutyEffect cfg s d s' ds) :
      SchedulerEffect cfg s { s' with scheduler := .ending loop (ds ++ todo) }
  | ticked {now : Datetime} (hb : s.scheduler = .idle) :
      SchedulerEffect cfg s { s with scheduler := .ending .expireInactiveStreams (expired cfg s now) }
  | read (hb : s.scheduler = .ending .expireInactiveStreams []) :
      SchedulerEffect cfg s { s with scheduler := .read s.db.admittedRequestIds }
  | collected {admitted : List RequestId} (hb : s.scheduler = .read admitted) :
      SchedulerEffect cfg s { s with scheduler := .ending .releaseSettledLeases (stale s admitted) }
  | watches {now : Datetime} (hb : s.scheduler = .ending .releaseSettledLeases []) :
      SchedulerEffect cfg s { s with scheduler := .watching now (s.supervisor.workers.map (·.id)) [] }
  | stops {w : WorkerId} {x : WorkerPlacement} {now : Datetime} {workers : List WorkerId} {ids : List RequestId}
      (hb : s.scheduler = .watching now (w :: workers) ids) (hx : s.supervisor.worker? w = some x)
      (hstate : x.state = .draining) :
      SchedulerEffect cfg s { s with
        supervisor := s.supervisor.spawn w (.stopEnter true)
        scheduler := .stopping s.supervisor.tasks.length w x.admittedRequestIds now workers ids }
  | skipped {w : WorkerId} {now : Datetime} {workers : List WorkerId} {ids : List RequestId}
      (hb : s.scheduler = .watching now (w :: workers) ids) :
      SchedulerEffect cfg s { s with scheduler := .watching now workers ids }
  | stopped {k : ℕ} {w : WorkerId} {ids ids' : List RequestId} {now : Datetime} {workers : List WorkerId}
      (hb : s.scheduler = .stopping k w ids' now workers ids) (hk : s.supervisor.tasks[k]? = some ⟨w, .done⟩) :
      SchedulerEffect cfg s { s with scheduler := .watching now workers (ids ++ ids') }
  | drops {now : Datetime} {ids : List RequestId} (hb : s.scheduler = .watching now [] ids) :
      SchedulerEffect cfg s { s with scheduler := .ending .dropOverdue (ids.map .drop) }
  /-- The router begins, ends or goes on to a model. -/
  | routes {scheduler : Scheduler}
      (hb : s.scheduler.request? = none ∧ s.scheduler.duties = [])
      (hnew : scheduler = .idle ∨ ∃ models, scheduler = .routing models) :
      SchedulerEffect cfg s { s with scheduler := scheduler }
  | took {m : ModelId} {models : List ModelId} {w : WorkerId} {r : QueuedRequest} {q : DeficitRoundRobinQueue}
      (hb : s.scheduler = .routing (m :: models)) (hpop : (s.queues.forModel m).pop = some (r, q)) :
      SchedulerEffect cfg s { s with
        queues := s.queues.update m q, scheduler := .busy (m :: models) r (.admitting w) }
  | admitted {models : List ModelId} {r : QueuedRequest} {w : WorkerId} {now : Datetime} {sup : Supervisor.State}
      (hb : s.scheduler = .busy models r (.admitting w))
      (hs : Supervisor.step cfg.toSettings s.supervisor (.admitRequest w r.id r.estimatedTokens now) = some sup) :
      SchedulerEffect cfg s { s with
        supervisor := sup
        scheduler := .busy models r (.marking w)
        history := { s.history with admitted := s.history.admitted ++ [(w, r.id)] } }
  | notAdmitted {models : List ModelId} {r : QueuedRequest} {w : WorkerId}
      (hb : s.scheduler = .busy models r (.admitting w)) :
      SchedulerEffect cfg s { s with scheduler := .busy models r .refusing }
  | marked {models : List ModelId} {r : QueuedRequest} {w : WorkerId} {now : Datetime}
      (hb : s.scheduler = .busy models r (.marking w)) (hm : (s.db.markRequestAdmitted r.id w now).2 = true) :
      SchedulerEffect cfg s { s.call (.markRequestAdmitted r.id w now) with scheduler := .busy models r (.granting w) }
  | notMarked {models : List ModelId} {r : QueuedRequest} {w : WorkerId}
      (hb : s.scheduler = .busy models r (.marking w)) :
      SchedulerEffect cfg s { s with scheduler := .busy models r (.retracting w) }
  | granted {models : List ModelId} {r : QueuedRequest} {w : WorkerId} {now : Datetime} {h : Handler}
      (hb : s.scheduler = .busy models r (.granting w)) (hk : s.handlers[r.assignment]? = some h)
      (ha : h.assignment = .pending) :
      SchedulerEffect cfg s { (s.put (leaseOf r w now)).assign r.assignment h (.result (leaseOf r w now)) with
        scheduler := .routing models }
  | orphaned {models : List ModelId} {r : QueuedRequest} {w : WorkerId} {now : Datetime}
      (hb : s.scheduler = .busy models r (.granting w)) :
      SchedulerEffect cfg s { s.put (leaseOf r w now) with
        scheduler := .ending (.orphaned models)
          [.settle (leaseOf r w now) "client_cancelled" false, .release (leaseOf r w now)] }
  | retracted {models : List ModelId} {r : QueuedRequest} {w : WorkerId} {now : Datetime} {sup : Supervisor.State}
      (hb : s.scheduler = .busy models r (.retracting w))
      (hsup : Supervisor.step cfg.toSettings s.supervisor (.release w r.id r.estimatedTokens now) = some sup) :
      SchedulerEffect cfg s { s.released sup w r.id with scheduler := .busy models r .refusing }
  | refused {models : List ModelId} {r : QueuedRequest} {lid : String} {now : Datetime} {h : Handler}
      (hb : s.scheduler = .busy models r .refusing) (hk : s.handlers[r.assignment]? = some h)
      (ha : h.assignment = .pending) :
      SchedulerEffect cfg s {
        ((s.call (.releaseReservation r.reservationId "admission_failed" lid now)).finish r.id).assign r.assignment h
          .exception with scheduler := .routing models }
  | refusedLate {models : List ModelId} {r : QueuedRequest} {lid : String} {now : Datetime}
      (hb : s.scheduler = .busy models r .refusing) :
      SchedulerEffect cfg s {
        (s.call (.releaseReservation r.reservationId "admission_failed" lid now)).finish r.id with
        scheduler := .routing models }

/-- What a step leaves. -/
inductive Effect (cfg : Settings) (s : State) : Act → State → Prop
  | submitted {sub : Submission} {rid rid' : ReservationId} {lid : String} {db : Database}
      (hres : s.db.reserveQuota sub.requestId sub.idempotencyHash sub.principal sub.modelId sub.estimatedTokens rid
        lid = .ok (db, rid')) :
      Effect cfg s (.submit sub rid lid)
        { s with db := db, handlers := s.handlers ++ [{ sub := sub, reservationId := rid' }] }
  | handler {k : ℕ} {h : Handler} {m : Move} {s' : State} (hk : s.handlers[k]? = some h)
      (he : HandlerEffect cfg s k h s') : Effect cfg s (.handler k m) s'
  | scheduler {ok : Bool} {lid : String} {now : Datetime} {s' : State} (he : SchedulerEffect cfg s s') :
      Effect cfg s (.scheduler ok lid now) s'
  | aborted (hr : s.scheduler.request? = none) (hd : s.scheduler.duties.flatMap Duty.held = []) :
      Effect cfg s .abort { s with scheduler := .idle }
  | event {j : ℕ} {lid : String} {now : Datetime} {d : Duty} {todo ds : List Duty} {s' : State}
      (hj : s.events[j]? = some (d :: todo)) (he : DutyEffect cfg s d s' ds) :
      Effect cfg s (.event j lid now) { s' with events := s'.events.set j (ds ++ todo) }
  | supervisor {a : Supervisor.Act} {sup : Supervisor.State} (ha : ∀ w id e now, a ≠ .admitRequest w id e now)
      (hr : ∀ w id e now, a ≠ .release w id e now) (hs : Supervisor.step cfg.toSettings s.supervisor a = some sup) :
      Effect cfg s (.supervisor a) { s with
        supervisor := sup
        events := s.events ++ ((failing? s.supervisor a).map (failedLeases s)).toList }

section inversion

variable {s s' : State} {k : ℕ} {h : Handler} {lid : String} {now : Datetime}

theorem pending_eq (hp : s.pending? k = some h) : s.handlers[k]? = some h ∧ h.assignment = .pending := by
  obtain ⟨hk, ha⟩ := Option.filter_eq_some_iff.mp hp
  exact ⟨hk, of_decide_eq_true ha⟩

theorem create_effect (hpc : h.pc = .creating) : HandlerEffect cfg s k h (createSection s k h) := by
  unfold createSection
  split
  · exact .stored hpc ‹_›
  · exact .ends (.inl hpc)

theorem enqueue_effect (hpc : h.pc = .enqueuing) (hlock : ¬ s.scheduler.locked = true) :
    HandlerEffect cfg s k h (enqueueSection s k h now) := by
  unfold enqueueSection
  simp only
  split
  · exact .accepted hpc (by simpa using hlock) ‹_›
  · exact .full hpc (Bool.eq_false_iff.mpr ‹_›)

theorem cancel_effect (hpc : h.pc = .waiting) : HandlerEffect cfg s k h (cancelSection s k h) := by
  unfold cancelSection
  split
  · exact .cancelled hpc ‹_›
  · exact .cancelledLate hpc ‹_›

theorem remove_effect (hpc : h.pc = .cancelling) (hlock : ¬ s.scheduler.locked = true) :
    HandlerEffect cfg s k h (removeSection s k h) := by
  unfold removeSection
  split
  · exact .removed hpc (by simpa using hlock) ‹_›
  · exact .raises (.inr (.inr hpc))

theorem touch_effect {lease : WorkerLease} (hpc : h.pc = .serving lease) :
    HandlerEffect cfg s k h (touchSection s lease now) := by
  unfold touchSection
  split
  · exact .touched hpc ‹_›
  · exact .gone hpc

theorem pop_effect {lease : WorkerLease} (hpc : h.pc = .settled lease) :
    HandlerEffect cfg s k h (popSection s k h lease) := by
  unfold popSection
  split
  · rename_i hsome
    obtain ⟨current, hlease⟩ := Option.isSome_iff_exists.mp hsome
    exact .popped hpc hlease
  · exact .ends (.inr ⟨_, hpc⟩)

theorem handlerStep_effect {m : Move} (hs : handlerStep cfg s k h h.pc m = some s') :
    HandlerEffect cfg s k h s' := by
  generalize hpc : h.pc = pc at hs
  unfold handlerStep at hs
  split at hs
  case h_1 =>
    cases hs
    exact create_effect hpc
  case h_2 =>
    cases hs
    exact .ends (.inl hpc)
  case h_3 =>
    obtain ⟨hlock, heq⟩ := Option.ite_none_left_eq_some.mp hs
    exact Option.some.inj heq ▸ enqueue_effect hpc hlock
  case h_4 =>
    cases hs
    exact .raises (.inl hpc)
  case h_5 =>
    split at hs
    · cases hs
      exact .serves hpc ‹_›
    · cases hs
      exact .raises (.inr (.inl hpc))
    · cases hs
  case h_6 =>
    cases hs
    exact cancel_effect hpc
  case h_7 =>
    cases hs
    exact .raises (.inr (.inr hpc))
  case h_8 =>
    obtain ⟨hlock, heq⟩ := Option.ite_none_left_eq_some.mp hs
    exact Option.some.inj heq ▸ remove_effect hpc hlock
  case h_9 =>
    cases hs
    exact .cancelledAgain hpc
  case h_10 =>
    cases hs
    exact .withdrawn hpc
  case h_11 withdrawn _ _ =>
    cases hs
    cases withdrawn with
    | true => exact .withdrawnLate hpc
    | false => exact .rejected hpc
  case h_12 =>
    obtain ⟨-, heq⟩ := Option.ite_none_left_eq_some.mp hs
    exact Option.some.inj heq ▸ touch_effect hpc
  case h_13 =>
    cases hs
    exact .settled hpc
  case h_14 =>
    cases hs
    exact .dropped hpc
  case h_15 =>
    cases hs
    exact pop_effect hpc
  case h_16 =>
    obtain ⟨s1, h1, rfl⟩ := Option.map_eq_some_iff.mp hs
    obtain ⟨sup, hsup, rfl⟩ := Option.map_eq_some_iff.mp h1
    exact .freed hpc hsup
  case h_17 => cases hs

theorem dutyStep_effect {d : Duty} {ds : List Duty} (hs : dutyStep cfg s lid now d = some (s', ds)) :
    DutyEffect cfg s d s' ds := by
  cases d with
  | settle lease code taken =>
    cases taken <;> cases hs
    · exact .settled
    · exact .closed
  | release lease =>
    simp only [dutyStep, Option.some.injEq] at hs
    split at hs
    · rename_i hsome
      obtain ⟨current, hlease⟩ := Option.isSome_iff_exists.mp hsome
      cases hs
      exact .popped hlease
    · cases hs
      exact .gone (.inl ⟨lease, rfl⟩)
  | free lease =>
    obtain ⟨s1, h1, heq⟩ := Option.map_eq_some_iff.mp hs
    obtain ⟨sup, hsup, rfl⟩ := Option.map_eq_some_iff.mp h1
    cases heq
    exact .freed hsup
  | fail lease =>
    simp only [dutyStep, Option.some.injEq] at hs
    split at hs
    · rename_i hsome
      obtain ⟨current, hlease⟩ := Option.isSome_iff_exists.mp hsome
      cases hs
      exact .failed hlease
    · cases hs
      exact .failedLate
  | drop id =>
    simp only [dutyStep] at hs
    split at hs
    · cases hs
      exact .dropped ‹_›
    · cases hs
      exact .gone (.inr ⟨id, rfl⟩)

theorem watch_effect {w : WorkerId} {workers : List WorkerId} {ids : List RequestId}
    (hb : s.scheduler = .watching now (w :: workers) ids) :
    SchedulerEffect cfg s (watchSection cfg s now w workers ids) := by
  unfold watchSection
  split
  · rename_i x hx
    obtain ⟨hx, hover⟩ := Option.filter_eq_some_iff.mp hx
    exact .stops hb hx (of_decide_eq_true hover).1
  · exact .skipped hb

section requests

variable {models : List ModelId} {r : QueuedRequest}

theorem routes_effect (hb : s.scheduler.request? = none) (hd : s.scheduler.duties = []) :
    SchedulerEffect cfg s { s with scheduler := .routing models } := .routes ⟨hb, hd⟩ (.inr ⟨_, rfl⟩)

theorem route_effect {m : ModelId} (hb : s.scheduler = .routing (m :: models)) :
    SchedulerEffect cfg s (routeSection s m models) := by
  unfold routeSection
  simp only
  split
  · exact .took hb ‹_›
  · exact routes_effect (by rw [hb]; rfl) (by rw [hb]; rfl)

variable {w : WorkerId}

theorem admit_effect (hb : s.scheduler = .busy models r (.admitting w)) :
    SchedulerEffect cfg s (admitSection cfg s models r w now) := by
  unfold admitSection
  split
  · exact .admitted hb ‹_›
  · exact .notAdmitted hb

theorem mark_effect {ok : Bool} (hb : s.scheduler = .busy models r (.marking w)) :
    SchedulerEffect cfg s (markSection s models r w ok now) := by
  unfold markSection
  split
  · rename_i hm
    exact .marked hb hm.2
  · exact .notMarked hb

theorem grant_effect (hb : s.scheduler = .busy models r (.granting w)) :
    SchedulerEffect cfg s (grantSection s models r (leaseOf r w now)) := by
  unfold grantSection
  split
  · rename_i hp
    obtain ⟨hk, ha⟩ := pending_eq hp
    exact .granted hb hk ha
  · exact .orphaned hb

theorem refuse_effect (hb : s.scheduler = .busy models r .refusing) :
    SchedulerEffect cfg s (refuseSection s models r lid now) := by
  unfold refuseSection
  simp only
  cases hp : State.pending? _ r.assignment with
  | some h =>
    obtain ⟨hk, ha⟩ := pending_eq hp
    exact .refused hb hk ha
  | none => exact .refusedLate hb

end requests

theorem schedulerStep_effect {ok : Bool} (hs : schedulerStep cfg s ok lid now s.scheduler = some s') :
    SchedulerEffect cfg s s' := by
  generalize hb : s.scheduler = scheduler at hs
  unfold schedulerStep at hs
  split at hs
  case h_1 =>
    cases hs
    exact .ticked hb
  case h_2 =>
    obtain ⟨⟨s1, ds⟩, h1, rfl⟩ := Option.map_eq_some_iff.mp hs
    exact .duty hb (dutyStep_effect h1)
  case h_3 =>
    cases hs
    exact .read hb
  case h_4 =>
    cases hs
    exact .collected hb
  case h_5 =>
    cases hs
    exact .watches hb
  case h_6 =>
    cases hs
    exact watch_effect hb
  case h_7 =>
    obtain ⟨hdone, heq⟩ := Option.ite_none_right_eq_some.mp hs
    exact Option.some.inj heq ▸ .stopped hb hdone
  case h_8 =>
    cases hs
    exact .drops hb
  case h_9 | h_17 =>
    cases hs
    exact routes_effect (by rw [hb]; rfl) (by rw [hb]; rfl)
  case h_10 =>
    cases hs
    exact .routes (by simp [hb, Scheduler.request?, Scheduler.duties]) (.inl rfl)
  case h_11 =>
    cases hs
    exact route_effect hb
  case h_12 =>
    obtain ⟨-, heq⟩ := Option.ite_none_right_eq_some.mp hs
    exact Option.some.inj heq ▸ admit_effect hb
  case h_13 =>
    cases hs
    exact mark_effect hb
  case h_14 =>
    cases hs
    exact grant_effect hb
  case h_15 =>
    obtain ⟨s1, h1, rfl⟩ := Option.map_eq_some_iff.mp hs
    obtain ⟨sup, hsup, rfl⟩ := Option.map_eq_some_iff.mp h1
    exact .retracted hb hsup
  case h_16 =>
    cases hs
    exact refuse_effect hb

theorem step_effect {a : Act} (hs : step cfg s a = some s') : Effect cfg s a s' := by
  cases a with
  | submit sub rid lid =>
    simp only [step] at hs
    split at hs
    · cases hs
      exact .submitted ‹_›
    · cases hs
  | handler k m =>
    obtain ⟨h, hk, hs⟩ := Option.bind_eq_some_iff.mp hs
    exact .handler hk (handlerStep_effect hs)
  | scheduler ok lid now => exact .scheduler (schedulerStep_effect hs)
  | abort =>
    simp only [step, abortStep, Option.ite_none_right_eq_some, Option.some.injEq] at hs
    obtain ⟨⟨hr, hd⟩, rfl⟩ := hs
    exact .aborted (Option.isNone_iff_eq_none.mp hr) hd
  | event j lid now =>
    obtain ⟨duties, hj, hs⟩ := Option.bind_eq_some_iff.mp hs
    cases duties with
    | nil => cases hs
    | cons d todo =>
      obtain ⟨⟨s1, ds⟩, h1, rfl⟩ := Option.map_eq_some_iff.mp hs
      exact .event hj (dutyStep_effect h1)
  | supervisor a =>
    simp only [step] at hs
    split at hs
    · cases hs
    · cases hs
    · rename_i hadmit hrelease
      obtain ⟨sup, h1, rfl⟩ := Option.map_eq_some_iff.mp hs
      exact .supervisor (fun w id e now h => hadmit w id e now h) (fun w id e now h => hrelease w id e now h) h1

end inversion

/-! ### The handlers -/

/-- The request of the handler may have been accepted. -/
def Pc.queued : Pc → Bool
  | .creating | .enqueuing => false
  | _ => true

/-- The handler stands for the same request, and has not gone back. -/
structure Handler.Follows (h h' : Handler) : Prop where
  sub : h'.sub = h.sub
  reservation : h'.reservationId = h.reservationId
  queued : h.pc.queued = true → h'.pc.queued = true

/-- What a step does to the handlers and to the assignments. -/
inductive HandlersStep (s : State) (a : Act) (s' : State) : Prop
  | same (hh : s'.handlers = s.handlers) (hr : s'.history.resolved = s.history.resolved)
  | submitted (h : Handler) (hsub : a.submits? = some h.sub.requestId) (hpc : h.pc = .creating)
      (ha : h.assignment = .pending) (hh : s'.handlers = s.handlers ++ [h])
      (hr : s'.history.resolved = s.history.resolved)
  | moved (k : ℕ) (h h' : Handler) (hk : s.handlers[k]? = some h)
      (hh : s'.handlers = s.handlers.set k h') (hf : h.Follows h') (ha : h'.assignment = h.assignment)
      (hr : s'.history.resolved = s.history.resolved)
  | resolved (k : ℕ) (h h' : Handler) (hk : s.handlers[k]? = some h)
      (hh : s'.handlers = s.handlers.set k h') (hf : h.Follows h') (ha : h.assignment = .pending)
      (ha' : h'.assignment ≠ .pending) (hr : s'.history.resolved = s.history.resolved ++ [k])
      (hl : ∀ l, h'.assignment = .result l → ∃ models r w now, s.scheduler = .busy models r (.granting w) ∧
        r.assignment = k ∧ l = leaseOf r w now)

section handlers

variable {s s' : State} {k : ℕ} {h : Handler}

theorem HandlerEffect.handlers (hk : s.handlers[k]? = some h) (he : HandlerEffect cfg s k h s') (a : Act) :
    HandlersStep s a s' := by
  cases he with
  | stored hpc => exact .moved k h _ hk rfl ⟨rfl, rfl, fun hq => by simp [hpc, Pc.queued] at hq⟩ rfl rfl
  | ends | raises | accepted | full | serves | cancelledLate | removed | cancelledAgain | withdrawn | withdrawnLate
  | rejected | settled | dropped | popped | freed => exact .moved k h _ hk rfl ⟨rfl, rfl, fun _ => rfl⟩ rfl rfl
  | cancelled _ ha => exact .resolved k h _ hk rfl ⟨rfl, rfl, fun _ => rfl⟩ ha (by simp) rfl (by simp)
  | touched | gone => exact .same rfl rfl

theorem DutyEffect.frame {d : Duty} {ds : List Duty} (he : DutyEffect cfg s d s' ds) :
    s'.queues = s.queues ∧ s'.handlers = s.handlers ∧ s'.scheduler = s.scheduler ∧ s'.events = s.events ∧
      s'.history.accepted = s.history.accepted ∧ s'.history.resolved = s.history.resolved ∧
      s'.history.admitted = s.history.admitted := by
  cases he <;> exact ⟨rfl, rfl, rfl, rfl, rfl, rfl, rfl⟩

theorem SchedulerEffect.handlers (he : SchedulerEffect cfg s s') (a : Act) : HandlersStep s a s' := by
  cases he with
  | duty hb hd =>
    obtain ⟨-, hh, -, -, -, hr, -⟩ := hd.frame
    exact .same hh hr
  | granted hb hk ha =>
    refine .resolved _ _ _ hk rfl ⟨rfl, rfl, id⟩ ha (by simp) rfl fun l hl => ?_
    cases hl
    exact ⟨_, _, _, _, hb, rfl, rfl⟩
  | refused hb hk ha => exact .resolved _ _ _ hk rfl ⟨rfl, rfl, id⟩ ha (by simp) rfl (by simp)
  | _ => exact .same rfl rfl

theorem handlers_step {a : Act} (hs : step cfg s a = some s') : HandlersStep s a s' := by
  cases step_effect hs with
  | submitted => exact .submitted { sub := _, reservationId := _ } rfl rfl rfl rfl rfl
  | handler hk he => exact he.handlers hk _
  | scheduler he => exact he.handlers _
  | event hj he =>
    obtain ⟨-, hh, -, -, -, hr, -⟩ := he.frame
    exact .same hh hr
  | aborted | supervisor => exact .same rfl rfl

/-- A handler is at its place after the step. -/
theorem handler_kept {a : Act} (hs : step cfg s a = some s') (hk : s.handlers[k]? = some h) :
    ∃ h', s'.handlers[k]? = some h' ∧ h.Follows h' := by
  have hrefl : h.Follows h := ⟨rfl, rfl, id⟩
  cases handlers_step hs with
  | same hh => exact ⟨h, by rw [hh, hk], hrefl⟩
  | submitted g _ _ _ hh => exact ⟨h, by rw [hh]; exact Tasks.snoc_old hk, hrefl⟩
  | moved j g g' hj hh hf | resolved j g g' hj hh hf =>
    rw [hh]
    by_cases hkj : k = j
    · subst hkj
      cases hk.symm.trans hj
      exact ⟨g', Tasks.set_self hk, hf⟩
    · exact ⟨h, Tasks.set_other hk hkj, hrefl⟩

/-- Where the handler `k`, which is `h'` after the step, comes from. -/
inductive HandlerOrigin (cfg : Settings) (s : State) (a : Act) (s' : State) (k : ℕ) (h' : Handler) : Prop
  | fresh (sub : Submission) (rid rid' : ReservationId) (lid : String) (ha : a = .submit sub rid lid)
      (hres : s.db.reserveQuota sub.requestId sub.idempotencyHash sub.principal sub.modelId sub.estimatedTokens rid
        lid = .ok (s'.db, rid')) (hh : h' = { sub := sub, reservationId := rid' })
  | kept (h : Handler) (hk : s.handlers[k]? = some h) (hf : h.Follows h') (hpc : h'.pc = h.pc)
  | moved (h : Handler) (hk : s.handlers[k]? = some h) (hf : h.Follows h') (he : HandlerEffect cfg s k h s')

theorem HandlerEffect.others (he : HandlerEffect cfg s k h s') {j : ℕ} (hj : j ≠ k) :
    s'.handlers[j]? = s.handlers[j]? := by
  cases he with
  | touched | gone => rfl
  | _ => exact List.getElem?_set_ne hj.symm

/-- The scheduler moves no handler. -/
theorem SchedulerEffect.pcs (he : SchedulerEffect cfg s s') : s'.handlers.map (·.pc) = s.handlers.map (·.pc) := by
  cases he with
  | duty hb hd =>
    obtain ⟨-, hh, -⟩ := hd.frame
    exact congrArg (List.map (·.pc)) hh
  | granted _ hk | refused _ hk => exact Tasks.map_set_same hk rfl
  | _ => rfl

theorem handler_origin {a : Act} {h' : Handler} (hs : step cfg s a = some s') (hk' : s'.handlers[k]? = some h') :
    HandlerOrigin cfg s a s' k h' := by
  -- the handler is the one of before, with the same program counter
  have hkept : s'.handlers.map (·.pc) = s.handlers.map (·.pc) → HandlerOrigin cfg s a s' k h' := fun hpcs => by
    have hpc : s.handlers[k]?.map (·.pc) = some h'.pc := by
      rw [← List.getElem?_map, ← hpcs, List.getElem?_map, hk']
      rfl
    obtain ⟨h, hk, hpc⟩ := Option.map_eq_some_iff.mp hpc
    obtain ⟨h1, hk1, hf⟩ := handler_kept hs hk
    cases hk'.symm.trans hk1
    exact .kept h hk hf hpc.symm
  cases step_effect hs with
  | submitted hres =>
    rcases Tasks.snoc_cases hk' with ⟨-, rfl⟩ | hk
    · exact .fresh _ _ _ _ rfl hres rfl
    · exact .kept h' hk ⟨rfl, rfl, id⟩ rfl
  | @handler j h m _ hj he =>
    by_cases hkj : k = j
    · subst hkj
      obtain ⟨h1, hk1, hf⟩ := handler_kept hs hj
      cases hk'.symm.trans hk1
      exact .moved h hj hf he
    · exact .kept h' ((he.others hkj).symm.trans hk') ⟨rfl, rfl, id⟩ rfl
  | scheduler he => exact hkept he.pcs
  | event hj he =>
    obtain ⟨-, hh, -⟩ := he.frame
    exact hkept (congrArg (List.map (·.pc)) hh)
  | aborted | supervisor => exact hkept rfl

end handlers

end Routing
end LlmRio
