/-
# Where a request is

A request that a queue has accepted is in one of four places (`Place`), each
read off the state: its queue, the router's hands, the leases, or among the
finished. A request that a cancelled `enqueue` has removed counts to the queue
until its reservation is released, and a lease that a task has taken out of
the map to the leases until the task has ended it.

A turn moves at most one request, from one place to another (`Flow`), so no
request is lost and none is in two places (`Custody`).

Key definitions: `Place`, `State.inPlace`, `Flow`, `Custody`.
Key theorems: `flow_handler`, `flow_scheduler`, `custody_step`.
-/
import LlmRio.Runtime.Turns

namespace LlmRio
namespace Routing

variable {cfg : Settings}

/-! ### The places -/

inductive Place | queue | admission | leased | finished
deriving DecidableEq

/-- The request that the handler has removed from its queue and not settled. -/
def Handler.withdrawn (h : Handler) : List RequestId :=
  match h.pc with
  | .withdrawing | .rejecting true => [h.sub.requestId]
  | _ => []

/-- The lease that the handler has taken out of the map. -/
def Handler.releasing (h : Handler) : List WorkerLease :=
  match h.pc with
  | .releasing lease => [lease]
  | _ => []

namespace State

variable (s : State)

def duties : List Duty := s.scheduler.duties ++ s.events.flatten

/-- The leases out of the map that a task still has to end. -/
def taken : List WorkerLease := s.duties.flatMap Duty.held ++ s.handlers.flatMap Handler.releasing

def inPlace : Place → List RequestId
  | .queue => s.queues.requests.map (·.id) ++ s.handlers.flatMap Handler.withdrawn
  | .admission => s.scheduler.request?.toList.map (·.id)
  | .leased => (s.requestLeases ++ s.taken).map (·.requestId)
  | .finished => s.history.finished

end State

/-- The accepted requests are the ones in the four places. -/
structure Custody (s : State) : Prop where
  ids : (s.handlers.map (·.sub.requestId)).Nodup
  known : ∀ id ∈ s.history.accepted, ∃ (k : ℕ) (h : Handler),
    s.handlers[k]? = some h ∧ h.sub.requestId = id ∧ h.pc.queued = true
  accepted : s.history.accepted.Nodup
  places : s.history.accepted.Perm
    (s.inPlace .queue ++ s.inPlace .admission ++ s.inPlace .leased ++ s.inPlace .finished)

/-- What a turn does to the places. -/
inductive Flow (s s' : State) : Prop
  | stays (hp : ∀ p, (s'.inPlace p).Perm (s.inPlace p)) (ha : s'.history.accepted = s.history.accepted)
  | comes (k : ℕ) (h : Handler) (hk : s.handlers[k]? = some h) (hpc : h.pc = .enqueuing)
      (hh : s'.handlers = s.handlers.set k { h with pc := .waiting })
      (hp : (s'.inPlace .queue).Perm (h.sub.requestId :: s.inPlace .queue))
      (ho : ∀ p, p ≠ .queue → (s'.inPlace p).Perm (s.inPlace p))
      (ha : s'.history.accepted = s.history.accepted ++ [h.sub.requestId])
  | moves (src dst : Place) (id : RequestId) (hne : src ≠ dst)
      (hsrc : (s.inPlace src).Perm (id :: s'.inPlace src)) (hdst : (s'.inPlace dst).Perm (id :: s.inPlace dst))
      (ho : ∀ p, p ≠ src → p ≠ dst → (s'.inPlace p).Perm (s.inPlace p))
      (ha : s'.history.accepted = s.history.accepted)

variable {s s' : State} {k : ℕ} {h : Handler}

/-- What moves stays with the accepted requests. -/
theorem Flow.places (hf : Flow s s')
    (hp : s.history.accepted.Perm
      (s.inPlace .queue ++ s.inPlace .admission ++ s.inPlace .leased ++ s.inPlace .finished)) :
    s'.history.accepted.Perm
      (s'.inPlace .queue ++ s'.inPlace .admission ++ s'.inPlace .leased ++ s'.inPlace .finished) := by
  rw [List.perm_iff_count] at hp ⊢
  intro x
  have hx := hp x
  simp only [List.count_append] at hx ⊢
  cases hf with
  | stays hp' ha =>
    have h1 := (hp' .queue).count_eq x
    have h2 := (hp' .admission).count_eq x
    have h3 := (hp' .leased).count_eq x
    have h4 := (hp' .finished).count_eq x
    rw [ha]
    omega
  | comes k h hk hpc hh hq ho ha =>
    have h1 := hq.count_eq x
    have h2 := (ho .admission (by decide)).count_eq x
    have h3 := (ho .leased (by decide)).count_eq x
    have h4 := (ho .finished (by decide)).count_eq x
    rw [List.count_cons] at h1
    rw [ha, List.count_append, List.count_singleton]
    omega
  | moves src dst id hne hsrc hdst ho ha =>
    have hs := hsrc.count_eq x
    have hd := hdst.count_eq x
    have hrest : ∀ p, p ≠ src → p ≠ dst → (s'.inPlace p).count x = (s.inPlace p).count x :=
      fun p h1 h2 => (ho p h1 h2).count_eq x
    have h1 := hrest .queue
    have h2 := hrest .admission
    have h3 := hrest .leased
    have h4 := hrest .finished
    rw [List.count_cons] at hs hd
    rw [ha]
    cases src <;> cases dst <;> simp at hne h1 h2 h3 h4 <;> omega

/-! ### The handlers -/

section handlers

variable {h' : Handler}

/-- The queue changes by what the handler does to it. -/
theorem queue_handler (ids ids' : List RequestId) (hk : s.handlers[k]? = some h)
    (hh : s'.handlers = s.handlers.set k h')
    (hq : (ids' ++ (h'.withdrawn ++ s'.queues.requests.map (·.id))).Perm
      (ids ++ (h.withdrawn ++ s.queues.requests.map (·.id)))) :
    (ids' ++ s'.inPlace .queue).Perm (ids ++ s.inPlace .queue) := by
  have hset := Tasks.flatMap_set (c := h') Handler.withdrawn hk
  simp only [State.inPlace, hh, List.perm_iff_count, List.count_append] at hq hset ⊢
  intro x
  have h1 := hq x
  have h2 := hset x
  omega

/-- The leases change by what the handler does to them; `f` is what is read of
a lease. -/
theorem leases_handler {β : Type*} [DecidableEq β] (f : WorkerLease → β) (xs xs' : List β)
    (hk : s.handlers[k]? = some h) (hh : s'.handlers = s.handlers.set k h')
    (hb : s'.scheduler = s.scheduler) (he : s'.events = s.events)
    (hl : (xs' ++ (h'.releasing ++ s'.requestLeases).map f).Perm
      (xs ++ (h.releasing ++ s.requestLeases).map f)) :
    (xs' ++ (s'.requestLeases ++ s'.taken).map f).Perm (xs ++ (s.requestLeases ++ s.taken).map f) := by
  have hset := (Tasks.flatMap_set (c := h') Handler.releasing hk).map f
  simp only [State.taken, State.duties, hh, hb, he, List.map_append, List.perm_iff_count,
    List.count_append] at hl hset ⊢
  intro x
  have h1 := hl x
  have h2 := hset x
  omega

theorem admission_same (hb : s'.scheduler = s.scheduler) : (s'.inPlace .admission).Perm (s.inPlace .admission) := by
  simp only [State.inPlace, hb]
  exact .refl _

/-- The handler moves, and the requests stay where they are. -/
theorem Flow.handler (hk : s.handlers[k]? = some h) (hh : s'.handlers = s.handlers.set k h')
    (hb : s'.scheduler = s.scheduler) (he : s'.events = s.events)
    (hq : (h'.withdrawn ++ s'.queues.requests.map (·.id)).Perm (h.withdrawn ++ s.queues.requests.map (·.id)))
    (hl : ((h'.releasing ++ s'.requestLeases).map (·.requestId)).Perm
      ((h.releasing ++ s.requestLeases).map (·.requestId)))
    (hfin : s'.history.finished = s.history.finished) (ha : s'.history.accepted = s.history.accepted) :
    Flow s s' := by
  refine .stays (fun p => ?_) ha
  cases p with
  | queue => exact queue_handler [] [] hk hh hq
  | admission => exact admission_same hb
  | leased => exact leases_handler (·.requestId) [] [] hk hh hb he hl
  | finished => exact .of_eq hfin

/-- What is in a place has been accepted. -/
theorem Custody.mem_of_place (hc : Custody s) (p : Place) {id : RequestId} (hid : id ∈ s.inPlace p) :
    id ∈ s.history.accepted := by
  rw [hc.places.mem_iff, List.mem_append, List.mem_append, List.mem_append]
  cases p with
  | queue => exact .inl (.inl (.inl hid))
  | admission => exact .inl (.inl (.inr hid))
  | leased => exact .inl (.inr hid)
  | finished => exact .inr hid

theorem Custody.leases (hc : Custody s) : (s.requestLeases.map (·.requestId)).Nodup := by
  have hn := (hc.places.nodup_iff.mp hc.accepted)
  have hleased : (s.inPlace .leased).Nodup :=
    hn.sublist ((List.sublist_append_right _ _).trans (List.sublist_append_left _ _))
  exact hleased.sublist ((List.sublist_append_left _ _).map _)

/-- The lease that is taken out of the map, and the leases that stay. -/
theorem Custody.pop (hc : Custody s) {id : RequestId} {l : WorkerLease} (hl : s.lease? id = some l) :
    s.requestLeases.Perm (l :: (s.pop id).requestLeases) := Table.perm_filter_ne hc.leases hl

/-- A lease that is put again; `f` reads of it what it has had. -/
theorem put_known {β : Type*} {f : WorkerLease → β} {l current : WorkerLease}
    (hl : s.lease? l.requestId = some current) (hf : ∀ r ∈ s.requestLeases, r.requestId = l.requestId → f l = f r) :
    (s.put l).requestLeases.map f = s.requestLeases.map f := by
  simp only [State.put, hl, Option.isSome_some, if_true]
  exact Table.map_modify_of_eq hf

theorem flow_handler (hc : Custody s) (hk : s.handlers[k]? = some h) (he : HandlerEffect cfg s k h s') :
    Flow s s' := by
  cases he with
  | ends hold =>
    have hsame : h.withdrawn = [] ∧ h.releasing = [] := by
      rcases hold with h1 | ⟨l, h1⟩ <;> simp [Handler.withdrawn, Handler.releasing, h1]
    exact .handler hk rfl rfl rfl (.of_eq (by rw [hsame.1]; rfl)) (.of_eq (by rw [hsame.2]; rfl)) rfl rfl
  | raises hold =>
    have hsame : h.withdrawn = [] ∧ h.releasing = [] := by
      rcases hold with h1 | h1 | h1 <;> simp [Handler.withdrawn, Handler.releasing, h1]
    exact .handler hk rfl rfl rfl (.of_eq (by rw [hsame.1]; rfl)) (.of_eq (by rw [hsame.2]; rfl)) rfl rfl
  | stored hpc | serves hpc | cancelled hpc | cancelledLate hpc | cancelledAgain hpc | rejected hpc | settled hpc
  | dropped hpc =>
    exact .handler hk rfl rfl rfl (.of_eq (by simp [Handler.withdrawn, hpc]))
      (.of_eq (by simp [Handler.releasing, hpc])) rfl rfl
  | full hpc hput =>
    refine .handler hk rfl rfl rfl ?_ (.of_eq (by simp [Handler.releasing, hpc])) rfl rfl
    simpa [Handler.withdrawn, hpc] using (ModelQueues.put_refused hput).map (·.id)
  | gone => exact .stays (fun _ => .refl _) rfl
  | touched hpc hlease =>
    obtain ⟨-, hid⟩ := Table.lookup_some hlease
    refine .stays (fun p => ?_) rfl
    cases p with
    | queue | admission | finished => exact .refl _
    | leased =>
      simp only [State.inPlace, List.map_append]
      rw [put_known (hid ▸ hlease) fun r _ hr => hr.symm]
      exact .refl _
  | accepted hpc hlock hput =>
    refine .comes k h hk hpc rfl (queue_handler [h.sub.requestId] [] hk rfl ?_)
      (fun p hp => ?_) rfl
    · simpa [Handler.withdrawn, Submissions.Reserved.queued, hpc] using (ModelQueues.put_perm hput).map (·.id)
    · cases p with
      | queue => exact absurd rfl hp
      | admission => exact admission_same rfl
      | leased =>
        exact leases_handler (·.requestId) [] [] hk rfl rfl rfl (.of_eq (by simp [Handler.releasing, hpc]))
      | finished => exact .refl _
  | removed hpc hlock hr =>
    obtain ⟨hid, hperm⟩ := ModelQueues.remove_perm hr
    refine .handler hk rfl rfl rfl ?_ (.of_eq (by simp [Handler.releasing, hpc])) rfl rfl
    simpa [Handler.withdrawn, hpc, hid] using (hperm.map (·.id)).symm
  | withdrawn hpc | withdrawnLate hpc =>
    refine .moves .queue .finished h.sub.requestId (by decide) ?_ (List.perm_append_singleton _ _) (fun p h1 h2 => ?_)
      rfl
    · refine List.Perm.symm (queue_handler [] [h.sub.requestId] hk rfl (.of_eq ?_))
      simp [Handler.withdrawn, hpc]
    · cases p with
      | queue => exact absurd rfl h1
      | admission => exact admission_same rfl
      | leased =>
        exact leases_handler (·.requestId) [] [] hk rfl rfl rfl (.of_eq (by simp [Handler.releasing, hpc]))
      | finished => exact absurd rfl h2
  | @popped lease current hpc hlease =>
    obtain ⟨-, hid⟩ := Table.lookup_some hlease
    refine .handler hk rfl rfl rfl (.of_eq (by simp [Handler.withdrawn, hpc])) ?_ rfl rfl
    simpa [Handler.releasing, hpc, hid] using ((hc.pop hlease).map (·.requestId)).symm
  | @freed lease now sup hpc =>
    refine .moves .leased .finished lease.requestId (by decide) ?_ (List.perm_append_singleton _ _)
      (fun p h1 h2 => ?_) rfl
    · refine List.Perm.symm (leases_handler (·.requestId) [] [lease.requestId] hk rfl rfl rfl (.of_eq ?_))
      simp [Handler.releasing, hpc]
    · cases p with
      | queue =>
        exact queue_handler [] [] hk rfl (.of_eq (by simp [Handler.withdrawn, hpc]))
      | admission => exact admission_same rfl
      | leased => exact absurd rfl h1
      | finished => exact absurd rfl h2

end handlers

/-! ### The duties -/

section duties

variable {d : Duty} {ds : List Duty}

/-- The lease of a duty; a `drop` knows the id only. -/
def Duty.lease? : Duty → Option WorkerLease
  | .settle l _ _ | .release l | .free l | .fail l => some l
  | .drop _ => none

/-- What becomes of the leases that the map and the duty have: they stay, or
one of the duty is over. -/
inductive DutyLeases (cfg : Settings) {β : Type*} (f : WorkerLease → β) (s : State) (d : Duty) (s' : State)
    (ds : List Duty) : Prop
  | stay (hl : ((s'.requestLeases ++ ds.flatMap Duty.held).map f).Perm ((s.requestLeases ++ d.held).map f))
      (hsup : s'.supervisor = s.supervisor) (hrel : s'.history.released = s.history.released)
      (hfin : s'.history.finished = s.history.finished)
  | ended (l : WorkerLease) (hl : ((s.requestLeases ++ d.held).map f).Perm
        (f l :: (s'.requestLeases ++ ds.flatMap Duty.held).map f))
      (hfin : s'.history.finished = s.history.finished ++ [l.requestId])
      (hend : (s'.supervisor = s.supervisor ∧ s'.history.released = s.history.released ∧
          ∃ code, d = .settle l code true) ∨
        (s'.history.released = s.history.released ++ [(l.workerId, l.requestId)] ∧ d = .free l ∧
          ∃ now, Supervisor.step cfg.toSettings s.supervisor
            (.release l.workerId l.requestId l.estimatedTokens now) = some s'.supervisor))

theorem duty_leases {β : Type*} (f : WorkerLease → β) (hc : Custody s) (he : DutyEffect cfg s d s' ds)
    (hf : ∀ l current, d.lease? = some l → s.lease? l.requestId = some current → f current = f l) :
    DutyLeases cfg f s d s' ds := by
  cases he with
  | settled => exact .stay (.refl _) rfl rfl rfl
  | closed =>
    refine .ended _ ?_ rfl (.inl ⟨rfl, rfl, _, rfl⟩)
    simp [Duty.held]
  | @popped lease current hlease | @failed lease current hlease =>
    refine .stay ?_ rfl rfl rfl
    have hpop := ((hc.pop hlease).map f).symm
    rw [List.map_cons, hf lease current rfl hlease] at hpop
    simpa [Duty.held] using (List.perm_append_singleton _ _).trans hpop
  | @freed lease now sup hsup =>
    refine .ended lease ?_ rfl (.inr ⟨rfl, rfl, now, hsup⟩)
    simp [Duty.held]
  | failedLate => exact .stay (by simp [Duty.held]) rfl rfl rfl
  | dropped hlease =>
    refine .stay ?_ rfl rfl rfl
    have hpop := ((hc.pop hlease).map f).symm
    rw [List.map_cons] at hpop
    simpa [Duty.held] using (List.perm_append_singleton _ _).trans hpop
  | gone hd =>
    refine .stay ?_ rfl rfl rfl
    rcases hd with ⟨l, rfl⟩ | ⟨id, rfl⟩ <;> simp [Duty.held]

/-- The task goes on with what the duty has left. -/
theorem leases_duty {β : Type*} [DecidableEq β] (f : WorkerLease → β) (xs : List β) {s1 : State}
    (hh : s'.handlers = s.handlers) (hl : s'.requestLeases = s1.requestLeases)
    (hd : (d.held ++ s'.duties.flatMap Duty.held).Perm (ds.flatMap Duty.held ++ s.duties.flatMap Duty.held))
    (hp : ((s.requestLeases ++ d.held).map f).Perm
      (xs ++ (s1.requestLeases ++ ds.flatMap Duty.held).map f)) :
    ((s.requestLeases ++ s.taken).map f).Perm (xs ++ (s'.requestLeases ++ s'.taken).map f) := by
  have hd := hd.map f
  simp only [State.taken, hh, hl, List.map_append, List.perm_iff_count, List.count_append] at hp hd ⊢
  intro x
  have h1 := hp x
  have h2 := hd x
  omega

theorem Flow.duty {s1 : State} (hc : Custody s) (he : DutyEffect cfg s d s1 ds) (hq : s'.queues = s1.queues)
    (hh : s'.handlers = s1.handlers) (hl : s'.requestLeases = s1.requestLeases) (hy : s'.history = s1.history)
    (hr : s'.scheduler.request? = s.scheduler.request?)
    (hd : (d.held ++ s'.duties.flatMap Duty.held).Perm (ds.flatMap Duty.held ++ s.duties.flatMap Duty.held)) :
    Flow s s' := by
  obtain ⟨hq1, hh1, -, -, ha1, -⟩ := he.frame
  have hqueue : (s'.inPlace .queue).Perm (s.inPlace .queue) := .of_eq (by simp only [State.inPlace, hq, hq1, hh, hh1])
  have hadm : (s'.inPlace .admission).Perm (s.inPlace .admission) := .of_eq (by simp only [State.inPlace, hr])
  have hids : ∀ l current, d.lease? = some l → s.lease? l.requestId = some current →
      current.requestId = l.requestId := fun l current _ hl => (Table.lookup_some hl).2
  cases duty_leases (·.requestId) hc he hids with
  | stay hperm _ _ hfin =>
    refine .stays (fun p => ?_) (by rw [hy, ha1])
    cases p with
    | queue => exact hqueue
    | admission => exact hadm
    | leased => exact (leases_duty (·.requestId) [] (hh.trans hh1) hl hd hperm.symm).symm
    | finished => exact .of_eq (by simp only [State.inPlace, hy, hfin])
  | ended l hperm hfin _ =>
    refine .moves .leased .finished l.requestId (by decide) ?_ ?_ (fun p h1 h2 => ?_) (by rw [hy, ha1])
    · exact leases_duty (·.requestId) [l.requestId] (hh.trans hh1) hl hd hperm
    · simp only [State.inPlace, hy, hfin]
      exact List.perm_append_singleton _ _
    · cases p with
      | queue => exact hqueue
      | admission => exact hadm
      | leased => exact absurd rfl h1
      | finished => exact absurd rfl h2

end duties

/-! ### The scheduler -/

@[simp] theorem held_expired (s : State) (now : Datetime) : (expired cfg s now).flatMap Duty.held = [] := by
  unfold expired
  split
  · rfl
  · simp [List.flatMap_assoc, Duty.held]

@[simp] theorem held_stale (s : State) (ids : List RequestId) : (stale s ids).flatMap Duty.held = [] := by
  simp [stale, List.flatMap_map, Duty.held]

/-- The scheduler moves on, and the requests stay where they are. -/
theorem Flow.scheduler (hq : s'.queues = s.queues) (hh : s'.handlers = s.handlers)
    (hl : s'.requestLeases = s.requestLeases) (hr : s'.scheduler.request? = s.scheduler.request?)
    (hd : s'.duties.flatMap Duty.held = s.duties.flatMap Duty.held)
    (hfin : s'.history.finished = s.history.finished) (ha : s'.history.accepted = s.history.accepted) :
    Flow s s' := by
  refine .stays (fun p => .of_eq ?_) ha
  cases p <;> simp only [State.inPlace, State.taken, hq, hh, hl, hr, hd, hfin]

/-- A request that the router has is not leased. -/
theorem Custody.notLeased (hc : Custody s) {r : QueuedRequest} (hr : s.scheduler.request? = some r) :
    s.lease? r.id = none := by
  have hn := (hc.places.nodup_iff.mp hc.accepted)
  refine Table.lookup_none.mpr fun l hl hid => ?_
  rw [List.append_assoc, List.append_assoc] at hn
  have hdisj := (List.nodup_append.mp (List.nodup_append.mp hn).2.1).2.2
  refine hdisj r.id (by simp [State.inPlace, hr]) l.requestId ?_ hid.symm
  simp only [State.inPlace, List.map_append]
  exact List.mem_append_left _ (List.mem_append_left _ (List.mem_map_of_mem hl))

theorem put_new {l : WorkerLease} (hl : s.lease? l.requestId = none) :
    (s.put l).requestLeases = s.requestLeases ++ [l] := by
  simp only [State.put, hl, Option.isSome_none, Bool.false_eq_true, if_false]

/-- The request of the router has been leased. -/
theorem Flow.leased {r : QueuedRequest} {l : WorkerLease} (hr : s.scheduler.request? = some r)
    (hid : l.requestId = r.id) (hq : s'.queues = s.queues)
    (hw : (s'.handlers.flatMap Handler.withdrawn).Perm (s.handlers.flatMap Handler.withdrawn))
    (hg : (s'.handlers.flatMap Handler.releasing).Perm (s.handlers.flatMap Handler.releasing))
    (hl : s'.requestLeases = s.requestLeases ++ [l]) (hr' : s'.scheduler.request? = none)
    (hd : s'.duties.flatMap Duty.held = s.duties.flatMap Duty.held)
    (hfin : s'.history.finished = s.history.finished) (ha : s'.history.accepted = s.history.accepted) :
    Flow s s' := by
  refine .moves .admission .leased r.id (by decide) ?_ ?_ (fun p h1 h2 => ?_) ha
  · simp [State.inPlace, hr, hr']
  · have hg := hg.map (·.requestId)
    simp only [State.inPlace, State.taken, hl, hd, List.map_append, List.map_cons, List.map_nil, hid,
      List.perm_iff_count, List.count_append, List.count_cons, List.count_nil] at hg ⊢
    intro x
    have h1 := hg x
    omega
  · cases p with
    | queue =>
      simp only [State.inPlace, hq]
      exact hw.append_left _
    | admission => exact absurd rfl h1
    | leased => exact absurd rfl h2
    | finished => exact .of_eq hfin

/-- The request of the router has been refused. -/
theorem Flow.refused {r : QueuedRequest} (hr : s.scheduler.request? = some r) (hq : s'.queues = s.queues)
    (hw : (s'.handlers.flatMap Handler.withdrawn).Perm (s.handlers.flatMap Handler.withdrawn))
    (hg : (s'.handlers.flatMap Handler.releasing).Perm (s.handlers.flatMap Handler.releasing))
    (hl : s'.requestLeases = s.requestLeases) (hr' : s'.scheduler.request? = none)
    (hd : s'.duties.flatMap Duty.held = s.duties.flatMap Duty.held)
    (hfin : s'.history.finished = s.history.finished ++ [r.id])
    (ha : s'.history.accepted = s.history.accepted) : Flow s s' := by
  refine .moves .admission .finished r.id (by decide) ?_ ?_ (fun p h1 h2 => ?_) ha
  · simp [State.inPlace, hr, hr']
  · simp only [State.inPlace, hfin]
    exact List.perm_append_singleton _ _
  · cases p with
    | queue =>
      simp only [State.inPlace, hq]
      exact hw.append_left _
    | admission => exact absurd rfl h1
    | leased =>
      simp only [State.inPlace, State.taken, hl, hd]
      exact (((hg.append_left _).append_left _)).map _
    | finished => exact absurd rfl h2

/-- The assignment of a handler has nothing to do with its place. -/
theorem flatMap_assign {β : Type*} {f : Handler → List β} (hf : ∀ h a, f { h with assignment := a } = f h)
    (hk : s.handlers[k]? = some h) (a : Assignment) :
    ((s.assign k h a).handlers.flatMap f).Perm (s.handlers.flatMap f) := by
  have hset := Tasks.flatMap_set (c := { h with assignment := a }) f hk
  rw [hf h a] at hset
  exact (List.perm_append_left_iff (f h)).mp hset

theorem flow_scheduler (hc : Custody s) (he : SchedulerEffect cfg s s') : Flow s s' := by
  cases he with
  | @duty loop d todo ds s1 hb hd =>
    obtain ⟨-, -, -, hev, -⟩ := hd.frame
    refine .duty hc hd rfl rfl rfl rfl (by rw [hb]; rfl) ?_
    simp only [State.duties, hb, hev, Scheduler.duties, List.flatMap_append, List.flatMap_cons, List.append_assoc]
    exact List.perm_append_comm_assoc _ _ _
  | ticked hb | read hb | collected hb | watches hb | stops hb | skipped hb | stopped hb =>
    refine .scheduler rfl rfl rfl (by rw [hb]; rfl) ?_ rfl rfl
    simp [State.duties, hb, Scheduler.duties]
  | drops hb =>
    refine .scheduler rfl rfl rfl (by rw [hb]; rfl) ?_ rfl rfl
    simp [State.duties, hb, Scheduler.duties, List.flatMap_map, Duty.held]
  | @routes scheduler hb hnew =>
    have hsame : scheduler.request? = none ∧ scheduler.duties = [] := by
      rcases hnew with rfl | ⟨models, rfl⟩ <;> exact ⟨rfl, rfl⟩
    refine .scheduler rfl rfl rfl (hsame.1.trans hb.1.symm) ?_ rfl rfl
    simp only [State.duties, hsame.2, hb.2]
  | @took m models w r q hb hpop =>
    have hperm := (ModelQueues.update_swap (DeficitRoundRobinQueue.pop_perm hpop)).map (·.id)
    refine .moves .queue .admission r.id (by decide) ?_ ?_ (fun p h1 h2 => ?_) rfl
    · simpa [State.inPlace] using hperm.append_right (s.handlers.flatMap Handler.withdrawn)
    · simp [State.inPlace, hb, Scheduler.request?]
    · cases p with
      | queue => exact absurd rfl h1
      | admission => exact absurd rfl h2
      | leased => exact .of_eq (by simp [State.inPlace, State.taken, State.duties, hb, Scheduler.duties])
      | finished => exact .refl _
  | admitted hb | notAdmitted hb | marked hb | notMarked hb | retracted hb =>
    refine .scheduler rfl rfl rfl (by rw [hb]; rfl) ?_ rfl rfl
    simp only [State.duties, hb]
    rfl
  | @granted models r w now h hb hk ha =>
    have hreq : s.scheduler.request? = some r := by rw [hb]; rfl
    have hnone : s.lease? (leaseOf r w now).requestId = none := hc.notLeased hreq
    refine .leased (l := leaseOf r w now) hreq rfl rfl (flatMap_assign (fun _ _ => rfl) hk _)
      (flatMap_assign (fun _ _ => rfl) hk _) (put_new hnone) rfl ?_ rfl rfl
    simp only [State.duties, hb]
    rfl
  | @orphaned models r w now hb =>
    have hreq : s.scheduler.request? = some r := by rw [hb]; rfl
    have hnone : s.lease? (leaseOf r w now).requestId = none := hc.notLeased hreq
    refine .leased (l := leaseOf r w now) hreq rfl rfl (.refl _) (.refl _) (put_new hnone) rfl ?_ rfl rfl
    simp only [State.duties, hb]
    rfl
  | refused hb hk ha =>
    refine .refused (by rw [hb]; rfl) rfl (flatMap_assign (fun _ _ => rfl) hk _) (flatMap_assign (fun _ _ => rfl) hk _)
      rfl rfl ?_ rfl rfl
    simp only [State.duties, hb]
    rfl
  | refusedLate hb =>
    refine .refused (by rw [hb]; rfl) rfl (.refl _) (.refl _) rfl rfl ?_ rfl rfl
    simp only [State.duties, hb]
    rfl

/-! ### The steps -/

/-- The call `j` of `worker_event` goes on with a duty. -/
theorem flow_event (hc : Custody s) {j : ℕ} {d : Duty} {todo ds : List Duty} {s1 : State}
    (hj : s.events[j]? = some (d :: todo)) (he : DutyEffect cfg s d s1 ds) :
    Flow s { s1 with events := s1.events.set j (ds ++ todo) } := by
  obtain ⟨-, -, hb, hev, -⟩ := he.frame
  refine .duty hc he rfl rfl rfl rfl (by rw [hb]) ?_
  have hset := (Tasks.flatMap_set (c := ds ++ todo) (fun l => l.flatMap Duty.held) hj)
  simp only [State.duties, hb, hev, List.flatMap_append, List.flatMap_cons, List.flatten_eq_flatMap, List.flatMap_assoc,
    id, List.perm_iff_count, List.count_append] at hset ⊢
  intro x
  have hx := hset x
  omega

theorem held_failed (s : State) (w : WorkerId) : (failedLeases s w).flatMap Duty.held = [] := by
  simp [failedLeases, List.flatMap_map, Duty.held]

theorem flow_step {a : Act} (hc : Custody s) (hs : step cfg s a = some s') : Flow s s' := by
  cases step_effect hs with
  | submitted hres =>
    refine .stays (fun p => .of_eq ?_) rfl
    cases p <;> simp [State.inPlace, State.taken, State.duties, Handler.withdrawn, Handler.releasing]
  | handler hk he => exact flow_handler hc hk he
  | scheduler he => exact flow_scheduler hc he
  | aborted hr hd =>
    refine .scheduler rfl rfl rfl hr.symm ?_ rfl rfl
    simp only [State.duties, List.flatMap_append, hd]
    rfl
  | event hj he => exact flow_event hc hj he
  | @supervisor a sup =>
    refine .scheduler rfl rfl rfl rfl ?_ rfl rfl
    cases hf : failing? s.supervisor a with
    | none => simp [State.duties]
    | some w => simp [State.duties, held_failed]

theorem Custody.handler_eq (hc : Custody s) {i j : ℕ} {g : Handler} (hi : s.handlers[i]? = some g)
    (hj : s.handlers[j]? = some h) (hid : g.sub.requestId = h.sub.requestId) : i = j ∧ g = h := by
  have hlt : i < (s.handlers.map (·.sub.requestId)).length := by
    rw [List.length_map]
    exact (List.getElem?_eq_some_iff.mp hi).1
  obtain rfl : i = j := by
    refine (List.getElem?_inj hlt hc.ids).mp ?_
    rw [List.getElem?_map, List.getElem?_map, hi, hj, Option.map_some, Option.map_some, hid]
  exact ⟨rfl, Option.some.inj (hi.symm.trans hj)⟩

/-- A handler that has not put its request. -/
theorem Custody.not_accepted (hc : Custody s) (hk : s.handlers[k]? = some h) (hpc : h.pc.queued = false) :
    h.sub.requestId ∉ s.history.accepted := by
  intro hmem
  obtain ⟨j, g, hj, hid, hq⟩ := hc.known _ hmem
  obtain ⟨-, rfl⟩ := hc.handler_eq hj hk hid
  rw [hpc] at hq
  cases hq

theorem Custody.known_step {a : Act} (hc : Custody s) (hs : step cfg s a = some s') {id : RequestId}
    (hid : id ∈ s.history.accepted) : ∃ (k : ℕ) (h : Handler),
      s'.handlers[k]? = some h ∧ h.sub.requestId = id ∧ h.pc.queued = true := by
  obtain ⟨k, h, hk, rfl, hq⟩ := hc.known id hid
  obtain ⟨h', hk', hf⟩ := handler_kept hs hk
  exact ⟨k, h', hk', by rw [hf.sub], hf.queued hq⟩

theorem Custody.ids_step {a : Act} (hc : Custody s) (hs : step cfg s a = some s')
    (hnew : ∀ id, a.submits? = some id → id ∉ s.handlers.map (·.sub.requestId)) :
    (s'.handlers.map (·.sub.requestId)).Nodup := by
  cases handlers_step hs with
  | same hh =>
    rw [hh]
    exact hc.ids
  | submitted h hsub _ _ hh =>
    rw [hh, List.map_append, List.map_singleton]
    exact List.nodup_append.mpr ⟨hc.ids, List.nodup_singleton _, fun a ha b hb he =>
      hnew _ hsub (by rwa [← List.mem_singleton.mp hb, ← he])⟩
  | moved k h h' hk hh hf | resolved k h h' hk hh hf =>
    rw [hh, Tasks.map_set_same (f := (·.sub.requestId)) hk (by rw [hf.sub])]
    exact hc.ids

theorem custody_step {a : Act} (hc : Custody s) (hs : step cfg s a = some s')
    (hnew : ∀ id, a.submits? = some id → id ∉ s.handlers.map (·.sub.requestId)) :
    Custody s' := by
  have hflow := flow_step hc hs
  have hplaces := hflow.places hc.places
  have hids := hc.ids_step hs hnew
  cases hflow with
  | stays _ ha | moves _ _ _ _ _ _ _ ha =>
    refine ⟨hids, fun id hid => hc.known_step hs (ha ▸ hid), ?_, hplaces⟩
    rw [ha]
    exact hc.accepted
  | comes k h hk hpc hh _ _ ha =>
    have hfresh : h.sub.requestId ∉ s.history.accepted := hc.not_accepted hk (by rw [hpc]; rfl)
    refine ⟨hids, fun id hid => ?_, ?_, hplaces⟩
    · rw [ha] at hid
      rcases List.mem_append.mp hid with hid | hid
      · exact hc.known_step hs hid
      · refine ⟨k, { h with pc := .waiting }, ?_, (List.mem_singleton.mp hid).symm, rfl⟩
        rw [hh]
        exact Tasks.set_self hk
    · rw [ha]
      exact List.nodup_append.mpr ⟨hc.accepted, List.nodup_singleton _, fun a ha b hb he =>
        hfresh (by rwa [← List.mem_singleton.mp hb, ← he])⟩

end Routing
end LlmRio
