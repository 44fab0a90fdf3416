/-
# Admissions and releases

A request is admitted once: it is taken from its queue once, and what the
router has taken out goes back to no queue. The admissions that nobody has
released yet are read off the state (`State.admissions`): the leases, in the
map or with the task that ends them, and the request that the router is about
to lease. A release takes one of them away, so there are no more releases than
admissions, for any request (`Balanced`).

Key definitions: `Admission`, `State.admissions`, `Once`, `AdmissionsStep`,
`Balanced`.
Key theorems: `once_step`, `admissions_step`, `balanced_step`.
-/
import LlmRio.Runtime.Grants

namespace LlmRio
namespace Routing

variable {cfg : Settings} {s s' : State} {k : ℕ} {h : Handler} {a : Act}

/-- What `supervisor.admit` and `supervisor.release` are called with. -/
structure Admission where
  workerId : WorkerId
  requestId : RequestId
  estimatedTokens : ℤ
deriving DecidableEq, Repr

def Admission.key (x : Admission) : WorkerId × RequestId := (x.workerId, x.requestId)

def WorkerLease.admission (l : WorkerLease) : Admission := ⟨l.workerId, l.requestId, l.estimatedTokens⟩

/-- The admission of the request that the router has. -/
def Scheduler.admission? : Scheduler → Option Admission
  | .busy _ r phase => phase.worker?.map fun w => ⟨w, r.id, r.estimatedTokens⟩
  | _ => none

/-- The admissions that are not released. -/
def State.admissions (s : State) : List Admission :=
  (s.requestLeases ++ s.taken).map (·.admission) ++ s.scheduler.admission?.toList

/-! ### A request is admitted once -/

structure Once (s : State) : Prop where
  once : (s.history.admitted.map (·.2)).Nodup
  accepted : ∀ p ∈ s.history.admitted, p.2 ∈ s.history.accepted
  queued : ∀ r ∈ s.queues.requests, r.id ∉ s.history.admitted.map (·.2)
  admitting : ∀ models r w, s.scheduler = .busy models r (.admitting w) → r.id ∉ s.history.admitted.map (·.2)

theorem Once.worker_eq (ho : Once s) {w w' : WorkerId} {id : RequestId} (h : (w, id) ∈ s.history.admitted)
    (h' : (w', id) ∈ s.history.admitted) : w = w' := by
  have := List.inj_on_of_nodup_map ho.once h h' rfl
  exact congrArg Prod.fst this

/-- The requests in a queue after the step. -/
theorem queue_origin (hs : step cfg s a = some s') : ∀ r ∈ s'.queues.requests,
    r ∈ s.queues.requests ∨ ∃ (k : ℕ) (h : Handler) (now : Datetime), s.handlers[k]? = some h ∧
      h.pc = .enqueuing ∧ r = h.queued k now := by
  cases step_effect hs with
  | submitted | aborted | supervisor => exact fun r hr => .inl hr
  | event hj he =>
    intro r hr
    exact .inl (he.frame.1 ▸ hr)
  | @handler k h _ _ hk he =>
    cases he with
    | @accepted now hpc hlock hput =>
      intro r hr
      rcases List.mem_cons.mp ((ModelQueues.put_perm hput).subset hr) with rfl | hr
      · exact .inr ⟨k, h, now, hk, hpc, rfl⟩
      · exact .inl hr
    | full hpc hput => exact fun r hr => .inl ((ModelQueues.put_refused hput).subset hr)
    | removed hpc hlock hr =>
      have hperm := (ModelQueues.remove_perm hr).2
      exact fun r hr => .inl (hperm.symm.subset (List.mem_cons_of_mem _ hr))
    | _ => exact fun r hr => .inl hr
  | scheduler he =>
    cases he with
    | duty hb hd => exact fun r hr => .inl (hd.frame.1 ▸ hr)
    | took hb hpop =>
      have hperm := ModelQueues.update_swap (DeficitRoundRobinQueue.pop_perm hpop)
      exact fun r hr => .inl (hperm.symm.subset (List.mem_cons_of_mem _ hr))
    | _ => exact fun r hr => .inl hr

/-- The router begins with a request of a queue. -/
theorem admitting_origin (hs : step cfg s a = some s') {models : List ModelId} {r : QueuedRequest} {w : WorkerId}
    (hb' : s'.scheduler = .busy models r (.admitting w)) :
    s.scheduler = .busy models r (.admitting w) ∨
      r ∈ s.queues.requests ∧ s'.history.admitted = s.history.admitted := by
  cases step_effect hs with
  | submitted | supervisor => exact .inl hb'
  | aborted => cases hb'
  | event hj he => exact .inl (he.frame.2.2.1 ▸ hb')
  | handler hk he => exact .inl (by cases he <;> exact hb')
  | scheduler he =>
    cases he with
    | took hb hpop =>
      have hperm := ModelQueues.update_swap (DeficitRoundRobinQueue.pop_perm hpop)
      cases hb'
      exact .inr ⟨hperm.symm.subset List.mem_cons_self, rfl⟩
    | @routes scheduler hb hnew => rcases hnew with rfl | ⟨models, rfl⟩ <;> cases hb'
    | _ => cases hb'

theorem Custody.queue_ne (hc : Custody s) {r r' : QueuedRequest} (hr : s.scheduler.request? = some r)
    (hr' : r' ∈ s.queues.requests) : r'.id ≠ r.id := by
  have hn := hc.places.nodup_iff.mp hc.accepted
  have hdisj := (List.nodup_append.mp (List.nodup_append.mp (List.nodup_append.mp hn).1).1).2.2
  refine hdisj r'.id (List.mem_append_left _ (List.mem_map_of_mem hr')) r.id ?_
  simp [State.inPlace, hr]

theorem once_step (hc : Custody s) (ho : Once s) (hs : step cfg s a = some s') : Once s' := by
  have hacc : ∀ id ∈ s.history.accepted, id ∈ s'.history.accepted := by
    intro id hid
    cases flow_step hc hs with
    | stays _ ha | moves _ _ _ _ _ _ _ ha => exact ha ▸ hid
    | comes _ _ _ _ _ _ _ ha => exact ha ▸ List.mem_append_left _ hid
  -- a handler that is ENQUEUING has put nothing yet
  have hqueued : ∀ r ∈ s'.queues.requests, r ∈ s.queues.requests ∨ r.id ∉ s.history.accepted := by
    intro r hr
    rcases queue_origin hs r hr with hr | ⟨k, h, now, hk, hpc, rfl⟩
    · exact .inl hr
    · exact .inr (hc.not_accepted hk (by rw [hpc]; rfl))
  have hfresh : ∀ r ∈ s'.queues.requests, r.id ∉ s.history.admitted.map (·.2) := by
    intro r hr hmem
    rcases hqueued r hr with hr | hnot
    · exact ho.queued r hr hmem
    · obtain ⟨p, hp, hid⟩ := List.mem_map.mp hmem
      exact hnot (hid ▸ ho.accepted p hp)
  rcases admitted_origin hs with heq | ⟨models, r, w, hb, hb', heq⟩
  · refine ⟨heq ▸ ho.once, fun p hp => hacc _ (ho.accepted p (heq ▸ hp)), heq ▸ hfresh, fun models r w hb' => ?_⟩
    rw [heq]
    rcases admitting_origin hs hb' with hb | ⟨hr, -⟩
    · exact ho.admitting models r w hb
    · exact ho.queued r hr
  · have hreq : s.scheduler.request? = some r := by rw [hb]; rfl
    have hrid : r.id ∈ s.history.accepted :=
      hc.mem_of_place .admission (by simp [State.inPlace, hreq])
    refine ⟨?_, fun p hp => ?_, fun r' hr' => ?_, fun _ _ _ hb0 => by rw [hb'] at hb0; cases hb0⟩
    · rw [heq, List.map_append, List.map_singleton]
      refine List.nodup_append.mpr ⟨ho.once, List.nodup_singleton _, fun x hx y hy hxy => ?_⟩
      have hxr : x = r.id := hxy.trans (List.mem_singleton.mp hy)
      exact ho.admitting models r w hb (hxr ▸ hx)
    · rw [heq] at hp
      rcases List.mem_append.mp hp with hp | hp
      · exact hacc _ (ho.accepted p hp)
      · rw [List.mem_singleton.mp hp]
        exact hacc _ hrid
    · rw [heq, List.map_append, List.mem_append, List.map_singleton, List.mem_singleton]
      rintro (hmem | heq')
      · exact hfresh r' hr' hmem
      · rcases hqueued r' hr' with hr' | hnot
        · exact hc.queue_ne hreq hr' heq'
        · exact hnot (heq' ▸ hrid)

/-! ### The admissions that are not released -/

/-- Two leases of one request stand for one admission. -/
theorem admission_eq (hc : Custody s) (ho : Once s) {l l' : WorkerLease} (hl : Granted s l) (hl' : Granted s l')
    (hid : l.requestId = l'.requestId) : l.admission = l'.admission := by
  obtain ⟨j, g, hj, hof⟩ := hl.handler
  obtain ⟨k, h, hk, hof'⟩ := hl'.handler
  obtain ⟨-, rfl⟩ := hc.handler_eq hj hk (by rw [← hof.request, ← hof'.request, hid])
  have hadmitted := hl.admitted
  rw [hid] at hadmitted
  have hworker : l.workerId = l'.workerId := ho.worker_eq hadmitted hl'.admitted
  rw [WorkerLease.admission, WorkerLease.admission, hworker, hid, hof.estimated, hof'.estimated]

/-- What a step does to the admissions, with the call of the supervisor that
it makes. -/
inductive AdmissionsStep (cfg : Settings) (s s' : State) : Prop
  | same (ha : s'.admissions.Perm s.admissions) (hw : s'.supervisor.workers = s.supervisor.workers)
      (hadm : s'.history.admitted = s.history.admitted) (hrel : s'.history.released = s.history.released)
  | supervised (act : Supervisor.Act) (h1 : ∀ w id e now, act ≠ .admitRequest w id e now)
      (h2 : ∀ w id e now, act ≠ .release w id e now)
      (hs : Supervisor.step cfg.toSettings s.supervisor act = some s'.supervisor)
      (ha : s'.admissions.Perm s.admissions) (hadm : s'.history.admitted = s.history.admitted)
      (hrel : s'.history.released = s.history.released)
  | admitted (x : Admission) (now : Datetime) (hs : Supervisor.step cfg.toSettings s.supervisor
        (.admitRequest x.workerId x.requestId x.estimatedTokens now) = some s'.supervisor)
      (ha : s'.admissions.Perm (x :: s.admissions)) (hadm : s'.history.admitted = s.history.admitted ++ [x.key])
      (hrel : s'.history.released = s.history.released)
  | released (x : Admission) (now : Datetime) (hs : Supervisor.step cfg.toSettings s.supervisor
        (.release x.workerId x.requestId x.estimatedTokens now) = some s'.supervisor)
      (ha : s.admissions.Perm (x :: s'.admissions)) (hadm : s'.history.admitted = s.history.admitted)
      (hrel : s'.history.released = s.history.released ++ [x.key])
  /-- The worker of the lease is gone, and nobody releases it. -/
  | closed (l : WorkerLease) (code : String) (hd : .settle l code true ∈ s.duties)
      (ha : s.admissions.Perm (l.admission :: s'.admissions)) (hw : s'.supervisor.workers = s.supervisor.workers)
      (hadm : s'.history.admitted = s.history.admitted) (hrel : s'.history.released = s.history.released)

theorem admissions_congr (xs xs' : List Admission)
    (hl : (xs' ++ (s'.requestLeases ++ s'.taken).map (·.admission)).Perm
      (xs ++ (s.requestLeases ++ s.taken).map (·.admission)))
    (hr : s'.scheduler.admission? = s.scheduler.admission?) : (xs' ++ s'.admissions).Perm (xs ++ s.admissions) := by
  simp only [State.admissions, hr, ← List.append_assoc]
  exact hl.append_right _

/-- The handler keeps the leases that it has, or takes one out of the map. -/
theorem AdmissionsStep.handler (hk : s.handlers[k]? = some h) {h' : Handler} (hh : s'.handlers = s.handlers.set k h')
    (hb : s'.scheduler = s.scheduler) (he : s'.events = s.events)
    (hl : ((h'.releasing ++ s'.requestLeases).map (·.admission)).Perm
      ((h.releasing ++ s.requestLeases).map (·.admission))) (hw : s'.supervisor.workers = s.supervisor.workers)
    (hadm : s'.history.admitted = s.history.admitted) (hrel : s'.history.released = s.history.released) :
    AdmissionsStep cfg s s' :=
  .same (admissions_congr [] [] (leases_handler (·.admission) [] [] hk hh hb he hl) (by rw [hb]))
    hw hadm hrel

theorem HandlerEffect.admissions (hc : Custody s) (hg : Grants s) (ho : Once s) (hk : s.handlers[k]? = some h)
    (he : HandlerEffect cfg s k h s') : AdmissionsStep cfg s s' := by
  cases he with
  | ends hold =>
    refine .handler hk rfl rfl rfl (.of_eq ?_) rfl rfl rfl
    rcases hold with hpc | ⟨l, hpc⟩ <;> simp [Handler.releasing, hpc]
  | raises hold =>
    refine .handler hk rfl rfl rfl (.of_eq ?_) rfl rfl rfl
    rcases hold with hpc | hpc | hpc <;> simp [Handler.releasing, hpc]
  | stored hpc | accepted hpc | full hpc | serves hpc | cancelled hpc | cancelledLate hpc | removed hpc
  | cancelledAgain hpc | withdrawn hpc | withdrawnLate hpc | rejected hpc | settled hpc
  | dropped hpc =>
    exact .handler hk rfl rfl rfl (.of_eq (by simp [Handler.releasing, hpc])) rfl rfl rfl
  | gone => exact .same (.refl _) rfl rfl rfl
  | @touched lease current now hpc hlease =>
    obtain ⟨hmem, hid⟩ := Table.lookup_some hlease
    refine .same (admissions_congr [] [] (.of_eq ?_) rfl) rfl rfl rfl
    have hput : (s.put { current with lastActivityAt := some now }).requestLeases.map (·.admission) =
        s.requestLeases.map (·.admission) := by
      refine put_known (hid ▸ hlease) fun r hr hrid => ?_
      rw [Table.eq_of_key hc.leases hr hmem hrid]
      rfl
    simp only [List.nil_append, List.map_append]
    rw [hput]
    rfl
  | @popped lease current hpc hlease =>
    obtain ⟨hmem, hid⟩ := Table.lookup_some hlease
    have hsame := admission_eq hc ho (hg.leases _ hmem) (hg.holders k h lease hk (.inl (by rw [hpc]; rfl))).1 hid
    refine .handler hk rfl rfl rfl ?_ rfl rfl rfl
    simpa [Handler.releasing, hpc, hsame] using ((hc.pop hlease).map (·.admission)).symm
  | @freed lease now sup hpc hsup =>
    refine .released lease.admission now hsup ?_ rfl rfl
    refine List.Perm.symm (admissions_congr [] [lease.admission] ?_ rfl)
    refine leases_handler (·.admission) [] [lease.admission] hk rfl rfl rfl (.of_eq ?_)
    simp [Handler.releasing, hpc]

/-- A task goes on with what a duty has left. -/
theorem AdmissionsStep.duty (hc : Custody s) (hg : Grants s) (ho : Once s) {d : Duty} {ds : List Duty} {s1 : State}
    (hd : d ∈ s.duties) (he : DutyEffect cfg s d s1 ds) (hh : s'.handlers = s1.handlers)
    (hl : s'.requestLeases = s1.requestLeases) (hy : s'.history = s1.history) (hw : s'.supervisor = s1.supervisor)
    (hr : s'.scheduler.admission? = s.scheduler.admission?)
    (hp : (d.held ++ s'.duties.flatMap Duty.held).Perm (ds.flatMap Duty.held ++ s.duties.flatMap Duty.held)) :
    AdmissionsStep cfg s s' := by
  obtain ⟨-, hh1, -, -, -, -, hadm⟩ := he.frame
  have hsame : ∀ l current, d.lease? = some l → s.lease? l.requestId = some current →
      current.admission = l.admission := fun l current hdl hlease =>
    admission_eq hc ho (hg.leases _ (Table.lookup_some hlease).1) (hg.duties d hd l hdl) (Table.lookup_some hlease).2
  have hadm' : s'.history.admitted = s.history.admitted := by rw [hy, hadm]
  cases duty_leases (·.admission) hc he hsame with
  | stay hperm hsup hrel =>
    refine .same ?_ (by rw [hw, hsup]) hadm' (by rw [hy, hrel])
    exact admissions_congr [] []
      (leases_duty (·.admission) [] (hh.trans hh1) hl hp hperm.symm).symm hr
  | ended l hperm hfin hend =>
    have hgone : s.admissions.Perm (l.admission :: s'.admissions) :=
      (admissions_congr [] [l.admission]
        (leases_duty (·.admission) [l.admission] (hh.trans hh1) hl hp hperm).symm hr).symm
    rcases hend with ⟨hsup, hrel, code, rfl⟩ | ⟨hrel, rfl, now, hsup⟩
    · exact .closed l code hd hgone (by rw [hw, hsup]) hadm' (by rw [hy, hrel])
    · exact .released l.admission now (by rw [hw]; exact hsup) hgone hadm' (by rw [hy, hrel]; rfl)

/-- The admission of the router becomes one of a lease. -/
theorem admissions_leased {l : WorkerLease} (hl : s'.requestLeases = s.requestLeases ++ [l])
    (hg : (s'.handlers.flatMap Handler.releasing).Perm (s.handlers.flatMap Handler.releasing))
    (hd : s'.duties.flatMap Duty.held = s.duties.flatMap Duty.held)
    (hr : s.scheduler.admission? = some l.admission) (hr' : s'.scheduler.admission? = none) :
    s'.admissions.Perm s.admissions := by
  have hg := hg.map (·.admission)
  simp only [State.admissions, State.taken, hl, hd, hr, hr', List.map_append, List.map_cons, List.map_nil,
    Option.toList_some, Option.toList_none, List.perm_iff_count, List.count_append, List.count_cons,
    List.count_nil] at hg ⊢
  intro x
  have hx := hg x
  omega

/-- The phase of the router changes, and with it its admission. -/
theorem admissions_router (xs xs' : List Admission)
    (hg : (s'.handlers.flatMap Handler.releasing).Perm (s.handlers.flatMap Handler.releasing))
    (hl : s'.requestLeases = s.requestLeases) (hd : s'.duties.flatMap Duty.held = s.duties.flatMap Duty.held)
    (hr : (xs' ++ s'.scheduler.admission?.toList).Perm (xs ++ s.scheduler.admission?.toList)) :
    (xs' ++ s'.admissions).Perm (xs ++ s.admissions) := by
  have hg := hg.map (·.admission)
  simp only [State.admissions, State.taken, hl, hd, List.map_append, List.perm_iff_count,
    List.count_append] at hg hr ⊢
  intro x
  have h1 := hg x
  have h2 := hr x
  omega

/-- The scheduler moves on, and the admissions stay. -/
theorem AdmissionsStep.scheduler
    (hg : (s'.handlers.flatMap Handler.releasing).Perm (s.handlers.flatMap Handler.releasing))
    (hl : s'.requestLeases = s.requestLeases) (hd : s'.duties.flatMap Duty.held = s.duties.flatMap Duty.held)
    (hr : s'.scheduler.admission? = s.scheduler.admission?) (hw : s'.supervisor.workers = s.supervisor.workers)
    (hadm : s'.history.admitted = s.history.admitted) (hrel : s'.history.released = s.history.released) :
    AdmissionsStep cfg s s' :=
  .same (admissions_router [] [] hg hl hd (.of_eq (by rw [hr]))) hw hadm hrel

theorem SchedulerEffect.admissions (hc : Custody s) (hg : Grants s) (ho : Once s) (he : SchedulerEffect cfg s s') :
    AdmissionsStep cfg s s' := by
  have hreleasing : ∀ {g : Handler} {j : ℕ} (_ : s.handlers[j]? = some g) (b : Assignment),
      ((s.assign j g b).handlers.flatMap Handler.releasing).Perm (s.handlers.flatMap Handler.releasing) :=
    fun hj b => flatMap_assign (fun _ _ => rfl) hj b
  cases he with
  | @duty loop d todo ds s1 hb hd =>
    obtain ⟨-, -, -, hev, -⟩ := hd.frame
    refine .duty hc hg ho (d := d) (by simp [State.duties, hb, Scheduler.duties]) hd rfl rfl rfl rfl
      (by rw [hb]; rfl) ?_
    simp only [State.duties, hb, hev, Scheduler.duties, List.flatMap_append, List.flatMap_cons, List.append_assoc]
    exact List.perm_append_comm_assoc _ _ _
  | ticked hb | read hb | collected hb | watches hb | stops hb | skipped hb | stopped hb =>
    refine .scheduler (.refl _) rfl ?_ (by rw [hb]; rfl) rfl rfl rfl
    simp [State.duties, hb, Scheduler.duties]
  | drops hb =>
    refine .scheduler (.refl _) rfl ?_ (by rw [hb]; rfl) rfl rfl rfl
    simp [State.duties, hb, Scheduler.duties, List.flatMap_map, Duty.held]
  | @routes scheduler hb hnew =>
    have hold : s.scheduler.admission? = none := by
      have hreq := hb.1
      revert hreq
      cases s.scheduler <;> simp [Scheduler.request?, Scheduler.admission?]
    have hsame : scheduler.admission? = none ∧ scheduler.duties = [] := by
      rcases hnew with rfl | ⟨models, rfl⟩ <;> exact ⟨rfl, rfl⟩
    refine .scheduler (.refl _) rfl ?_ (hsame.1.trans hold.symm) rfl rfl rfl
    simp only [State.duties, hsame.2, hb.2]
  | took hb | notAdmitted hb | marked hb | notMarked hb =>
    refine .scheduler (.refl _) rfl ?_ (by rw [hb]; rfl) rfl rfl rfl
    simp only [State.duties, hb]
    rfl
  | @admitted models r w now sup hb hs =>
    refine .admitted ⟨w, r.id, r.estimatedTokens⟩ now hs ?_ rfl rfl
    refine admissions_router [⟨w, r.id, r.estimatedTokens⟩] [] (.refl _) rfl ?_ (.of_eq (by rw [hb]; rfl))
    simp only [State.duties, hb]
    rfl
  | @retracted models r w now sup hb hsup =>
    refine .released ⟨w, r.id, r.estimatedTokens⟩ now hsup ?_ rfl rfl
    refine List.Perm.symm (admissions_router [] [⟨w, r.id, r.estimatedTokens⟩] (.refl _) rfl ?_
      (.of_eq (by rw [hb]; rfl)))
    simp only [State.duties, hb]
    rfl
  | @granted models r w now g hb hk ha =>
    have hnone : s.lease? (leaseOf r w now).requestId = none := hc.notLeased (by rw [hb]; rfl)
    refine .same (admissions_leased (put_new hnone) (hreleasing hk _) ?_ (by rw [hb]; rfl) rfl) rfl rfl rfl
    simp only [State.duties, hb]
    rfl
  | @orphaned models r w now hb =>
    have hnone : s.lease? (leaseOf r w now).requestId = none := hc.notLeased (by rw [hb]; rfl)
    refine .same (admissions_leased (put_new hnone) (.refl _) ?_ (by rw [hb]; rfl) rfl) rfl rfl rfl
    simp only [State.duties, hb]
    rfl
  | @refused models r lid now g hb hk ha =>
    refine .scheduler (hreleasing hk .exception) rfl ?_ (by rw [hb]; rfl) rfl rfl rfl
    simp only [State.duties, hb]
    rfl
  | refusedLate hb =>
    refine .scheduler (.refl _) rfl ?_ (by rw [hb]; rfl) rfl rfl rfl
    simp only [State.duties, hb]
    rfl

theorem admissions_step (hc : Custody s) (hg : Grants s) (ho : Once s) (hs : step cfg s a = some s') :
    AdmissionsStep cfg s s' := by
  cases step_effect hs with
  | submitted hres =>
    refine .scheduler (.of_eq ?_) rfl rfl rfl rfl rfl rfl
    simp [Handler.releasing]
  | handler hk he => exact he.admissions hc hg ho hk
  | scheduler he => exact he.admissions hc hg ho
  | aborted hr hd =>
    have hold : s.scheduler.admission? = none := by
      revert hr
      cases s.scheduler <;> simp [Scheduler.request?, Scheduler.admission?]
    refine .scheduler (.refl _) rfl ?_ hold.symm rfl rfl rfl
    simp only [State.duties, List.flatMap_append, hd]
    rfl
  | @event j _ _ d todo ds s1 hj he =>
    obtain ⟨-, -, hb, hev, -⟩ := he.frame
    refine .duty hc hg ho (event_duty hj) he rfl rfl rfl rfl (by rw [hb]) ?_
    have hset := Tasks.flatMap_set (c := ds ++ todo) (fun l => l.flatMap Duty.held) hj
    simp only [State.duties, hb, hev, List.flatMap_append, List.flatMap_cons, List.flatten_eq_flatMap,
      List.flatMap_assoc, id, List.perm_iff_count, List.count_append] at hset ⊢
    intro x
    have hx := hset x
    omega
  | @supervisor act sup h1 h2 hsup =>
    refine .supervised act h1 h2 hsup ?_ rfl rfl
    refine admissions_router [] [] (.refl _) rfl ?_ (.refl _)
    cases hf : failing? s.supervisor act with
    | none => simp [State.duties]
    | some w => simp [State.duties, held_failed]

/-! ### Releases -/

/-- The releases and the admissions that are left are admissions. -/
def Balanced (s : State) : Prop :=
  (s.history.released ++ s.admissions.map (·.key)).Subperm s.history.admitted

theorem balanced_step (hb : Balanced s) (hc : Custody s) (hg : Grants s) (ho : Once s)
    (hs : step cfg s a = some s') : Balanced s' := by
  unfold Balanced at hb ⊢
  cases admissions_step hc hg ho hs with
  | same ha _ hadm hrel | supervised _ _ _ _ ha hadm hrel =>
    rw [hadm, hrel]
    exact (((ha.map Admission.key).append_left _).subperm_right).mpr hb
  | admitted x _ _ ha hadm hrel =>
    rw [hadm, hrel]
    have hleft : (s.history.released ++ s'.admissions.map Admission.key).Perm
        (x.key :: (s.history.released ++ s.admissions.map Admission.key)) :=
      ((ha.map Admission.key).append_left _).trans List.perm_middle
    have hcons := List.Subperm.trans hleft.subperm (List.subperm_cons x.key |>.mpr hb)
    exact hcons.trans (List.perm_append_singleton x.key _).symm.subperm
  | released x _ _ ha hadm hrel =>
    rw [hadm, hrel, List.append_assoc]
    exact (((ha.map Admission.key).append_left _).subperm_right).mp hb
  | closed l _ _ ha _ hadm hrel =>
    rw [hadm, hrel]
    have hless : (s'.admissions.map Admission.key).Subperm (s.admissions.map Admission.key) :=
      (List.sublist_cons_self _ _).subperm.trans (ha.map Admission.key).symm.subperm
    exact (List.subperm_append_left _ |>.mpr hless).trans hb

end Routing
end LlmRio
