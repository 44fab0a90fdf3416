/-
# What the workers serve

Leases are given up without a release only when their worker is gone: the
drain watchdog takes the requests of a worker that it has stopped by force,
and `worker_event` the leases of one that has failed (`Vacated`). So the
requests and the work that a worker still has are those of the admissions on
it that nobody has released (`Occupied`).

Key definitions: `Vacated`, `Occupied`.
Key theorems: `supervisor_step`, `vacated_step`, `occupied_step`.
-/
import LlmRio.Runtime.Admissions
import LlmRio.Workers.Gone

namespace LlmRio
namespace Routing

open Supervisor (Gone Registered Failing goneStates)

variable {cfg : Settings} {s s' : State} {a : Act}

/-! ### The workers of the leases that are given up -/

/-- The requests that the loop has taken over from the workers it has stopped. -/
def Scheduler.overdue : Scheduler → List RequestId
  | .watching _ _ ids | .stopping _ _ _ _ _ ids => ids
  | _ => []

/-- The request was admitted to a worker that is gone. -/
def Lost (s : State) (id : RequestId) : Prop := ∃ w, (w, id) ∈ s.history.admitted ∧ Gone s.supervisor w

/-- The worker of a duty that gives a lease up is gone. -/
def Duty.Vacated (s : State) : Duty → Prop
  | .settle l _ true | .fail l => Gone s.supervisor l.workerId
  | .drop id => Lost s id
  | _ => True

structure Vacated (s : State) : Prop where
  registered : Registered s.supervisor
  failing : Failing s.supervisor
  issued : ∀ p ∈ s.history.admitted, p.1 ∈ s.supervisor.issued
  holds : ∀ w id, Supervisor.Admitted s.supervisor w id → (w, id) ∈ s.history.admitted
  stopping : ∀ (k : ℕ) w ids now workers ids', s.scheduler = .stopping k w ids now workers ids' →
    w ∈ s.supervisor.issued ∧
      (s.supervisor.tasks[k]? = some ⟨w, .stopEnter true⟩ ∨ Gone s.supervisor w) ∧
      ∀ id ∈ ids, (w, id) ∈ s.history.admitted
  overdue : ∀ id ∈ s.scheduler.overdue, Lost s id
  duties : ∀ d ∈ s.duties, d.Vacated s

/-- The supervisor stays, or makes one step; what it admits is written down. -/
theorem supervisor_step (hs : step cfg s a = some s') : s'.supervisor = s.supervisor ∨
    ∃ act, Supervisor.step cfg.toSettings s.supervisor act = some s'.supervisor ∧
      ∀ w id e now, act = .admitRequest w id e now → (w, id) ∈ s'.history.admitted := by
  have hduty : ∀ {d : Duty} {s1 : State} {ds : List Duty}, DutyEffect cfg s d s1 ds →
      s1.supervisor = s.supervisor ∨ ∃ act, Supervisor.step cfg.toSettings s.supervisor act = some s1.supervisor ∧
        ∀ w id e now, act = .admitRequest w id e now → (w, id) ∈ s1.history.admitted := by
    intro d s1 ds he
    cases he with
    | freed hsup => exact .inr ⟨_, hsup, by simp⟩
    | _ => exact .inl rfl
  cases step_effect hs with
  | submitted | aborted => exact .inl rfl
  | event hj he =>
    have hsup := hduty he
    exact hsup
  | supervisor hadmits hrelease hsup => exact .inr ⟨_, hsup, fun w id e now ha => absurd ha (hadmits w id e now)⟩
  | handler hk he =>
    cases he with
    | freed hpc hsup => exact .inr ⟨_, hsup, by simp⟩
    | _ => exact .inl rfl
  | scheduler he =>
    cases he with
    | duty hb hd =>
      have hsup := hduty hd
      exact hsup
    | stops hb hx => exact .inr ⟨.stop _ true, rfl, by simp⟩
    | admitted hb hsup =>
      refine .inr ⟨_, hsup, fun w id e now ha => ?_⟩
      cases ha
      exact List.mem_append_right _ (List.mem_singleton_self _)
    | retracted hb hsup => exact .inr ⟨_, hsup, by simp⟩
    | _ => exact .inl rfl

/-- What a step leaves of what is known of the workers. -/
structure Onward (s s' : State) : Prop where
  registered : Registered s'.supervisor
  failing : Failing s'.supervisor
  issued : ∀ w ∈ s.supervisor.issued, w ∈ s'.supervisor.issued
  gone : ∀ w, Gone s.supervisor w → Gone s'.supervisor w
  admitted : ∀ p ∈ s.history.admitted, p ∈ s'.history.admitted
  stops : ∀ (k : ℕ) w, w ∈ s.supervisor.issued → s.supervisor.tasks[k]? = some ⟨w, .stopEnter true⟩ →
    s'.supervisor.tasks[k]? = some ⟨w, .stopEnter true⟩ ∨ Gone s'.supervisor w
  holds : ∀ w id, Supervisor.Admitted s'.supervisor w id →
    Supervisor.Admitted s.supervisor w id ∨ (w, id) ∈ s'.history.admitted

theorem onward (hv : Vacated s) (hs : step cfg s a = some s') : Onward s s' := by
  have hadmitted : ∀ p ∈ s.history.admitted, p ∈ s'.history.admitted := by
    intro p hp
    rcases admitted_origin hs with heq | ⟨_, _, _, -, -, heq⟩ <;> rw [heq]
    · exact hp
    · exact List.mem_append_left _ hp
  rcases supervisor_step hs with heq | ⟨act, hstep, hnew⟩
  · refine ⟨heq ▸ hv.registered, heq ▸ hv.failing, fun w hw => heq ▸ hw, fun w hw => heq ▸ hw, hadmitted,
      fun k w _ hk => .inl (heq ▸ hk), fun w id hid => .inl (heq ▸ hid)⟩
  · refine ⟨Supervisor.registered_step hv.registered hstep,
      Supervisor.failing_step hv.registered hv.failing hstep, fun w hw => Supervisor.issued_kept hstep hw,
      fun w hw => Supervisor.gone_step hv.registered hw hstep, hadmitted,
      fun k w hw hk => Supervisor.stopEnter_gone hw hk hstep, fun w id hid => ?_⟩
    exact (Supervisor.admitted_step hstep hid).imp_right fun ⟨e, now, ha⟩ => hnew w id e now ha

theorem Lost.onward {id : RequestId} (hl : Lost s id) (ho : Onward s s') : Lost s' id := by
  obtain ⟨w, hw, hgone⟩ := hl
  exact ⟨w, ho.admitted _ hw, ho.gone w hgone⟩

theorem Duty.Vacated.onward {d : Duty} (hd : d.Vacated s) (ho : Onward s s') : d.Vacated s' := by
  cases d with
  | settle l code taken =>
    cases taken with
    | true => exact ho.gone _ hd
    | false => trivial
  | fail l => exact ho.gone _ hd
  | drop id => exact Lost.onward hd ho
  | release | free => trivial

/-- What a duty that is vacated leaves to do is vacated. -/
theorem DutyEffect.vacated (hg : Grants s) (hn : Once s) {d : Duty} {ds : List Duty} (hd : d.Vacated s)
    (he : DutyEffect cfg s d s' ds) : ∀ d' ∈ ds, d'.Vacated s := by
  intro d' hd'
  cases he with
  | popped | failedLate =>
    rw [List.mem_singleton.mp hd']
    trivial
  | failed =>
    rw [List.mem_singleton.mp hd']
    exact hd
  | dropped hlease =>
    obtain ⟨hmem, hid⟩ := Table.lookup_some hlease
    obtain ⟨w, hw, hgone⟩ := hd
    rw [← hid] at hw
    obtain rfl := hn.worker_eq hw (hg.leases _ hmem).admitted
    rw [List.mem_singleton.mp hd']
    exact hgone
  | _ => cases hd'

theorem vacated_duty (hv : Vacated s) (hg : Grants s) (hn : Once s) {d : Duty} (ho : DutyOrigin cfg s d) :
    d.Vacated s := by
  cases ho with
  | kept hd => exact hv.duties d hd
  | left hd0 he hd => exact he.vacated hg hn (hv.duties _ hd0) d hd
  | found _ hd | orphaned _ hd => rcases hd with ⟨code, rfl⟩ | rfl <;> trivial
  | overdue hb hid hd =>
    subst hd
    exact hv.overdue _ (by rw [hb]; exact hid)
  | @failed act l hl hf hd =>
    subst hd
    unfold failing? at hf
    split at hf
    · rename_i k _ _ _
      split at hf
      · rename_i w locked hk
        cases hf
        exact hv.failing k _ _ hk rfl
      · cases hf
    · cases hf

/-- Where the loop of the watchdog is after the step. -/
theorem watch_origin (hs : step cfg s a = some s') : s'.scheduler = s.scheduler ∨
    (s'.scheduler.overdue = [] ∨ s'.scheduler.overdue = s.scheduler.overdue) ∧
      (∀ k w ids now workers ids', s'.scheduler = .stopping k w ids now workers ids' →
        k = s.supervisor.tasks.length ∧ s'.supervisor = s.supervisor.spawn w (.stopEnter true) ∧
          ∃ x, s.supervisor.worker? w = some x ∧ ids = x.admittedRequestIds) ∨
    ∃ k w ids ids' now workers, s.scheduler = .stopping k w ids' now workers ids ∧
      s.supervisor.tasks[k]? = some ⟨w, .done⟩ ∧ s'.scheduler = .watching now workers (ids ++ ids') := by
  cases step_effect hs with
  | submitted | supervisor => exact .inl rfl
  | handler hk he => exact .inl (by cases he <;> rfl)
  | event hj he => exact .inl he.frame.2.2.1
  | aborted => exact .inr (.inl ⟨.inl rfl, by simp⟩)
  | scheduler he =>
    cases he with
    | stops hb hx =>
      refine .inr (.inl ⟨.inr (by rw [hb]; rfl), fun k w ids now workers ids' heq => ?_⟩)
      cases heq
      exact ⟨rfl, rfl, _, hx, rfl⟩
    | skipped hb => exact .inr (.inl ⟨.inr (by rw [hb]; rfl), by simp⟩)
    | stopped hb hk => exact .inr (.inr ⟨_, _, _, _, _, _, hb, hk, rfl⟩)
    | @routes scheduler hb hnew =>
      refine .inr (.inl ?_)
      rcases hnew with rfl | ⟨models, rfl⟩ <;> exact ⟨.inl rfl, by simp⟩
    | _ => exact .inr (.inl ⟨.inl rfl, by simp⟩)

theorem admitted_issued (hv : Vacated s) (hs : step cfg s a = some s') :
    ∀ p ∈ s'.history.admitted, p.1 ∈ s'.supervisor.issued := by
  have ho := onward hv hs
  intro p hp
  cases step_effect hs with
  | submitted | aborted | supervisor => exact ho.issued _ (hv.issued p hp)
  | handler hk he => exact ho.issued _ (hv.issued p (by cases he <;> exact hp))
  | event hj he => exact ho.issued _ (hv.issued p (he.frame.2.2.2.2.2.2 ▸ hp))
  | scheduler he =>
    cases he with
    | duty hb hd => exact ho.issued _ (hv.issued p (hd.frame.2.2.2.2.2.2 ▸ hp))
    | @admitted models r w now sup hb hsup =>
      rcases List.mem_append.mp hp with hp | hp
      · exact ho.issued _ (hv.issued p hp)
      · rw [List.mem_singleton.mp hp]
        simp only [Supervisor.step, Option.ite_none_right_eq_some, Supervisor.admitSection] at hsup
        obtain ⟨-, hsup⟩ := hsup
        split at hsup
        · cases hsup
        · exact ho.issued _ (hv.registered.worker_issued ‹_›)
    | _ => exact ho.issued _ (hv.issued p hp)

theorem vacated_step (hv : Vacated s) (hg : Grants s) (hn : Once s) (hs : step cfg s a = some s') :
    Vacated s' := by
  have ho := onward hv hs
  refine ⟨ho.registered, ho.failing, admitted_issued hv hs, fun w id hid => ?_,
    fun k w ids now workers ids' hb' => ?_, fun id hid => ?_,
    fun d hd => (vacated_duty hv hg hn (duty_origin hs d hd)).onward ho⟩
  · rcases ho.holds w id hid with hold | hnew
    · exact ho.admitted _ (hv.holds w id hold)
    · exact hnew
  · rcases watch_origin hs with heq | ⟨-, hstops⟩ | ⟨_, _, _, _, _, _, -, -, heq⟩
    · obtain ⟨hissued, htask, hids⟩ := hv.stopping k w ids now workers ids' (heq ▸ hb')
      refine ⟨ho.issued _ hissued, ?_, fun id hid => ho.admitted _ (hids id hid)⟩
      exact htask.elim (ho.stops k w hissued) fun hgone => .inr (ho.gone w hgone)
    · obtain ⟨rfl, hsup, x, hx, rfl⟩ := hstops k w ids now workers ids' hb'
      refine ⟨ho.issued _ (hv.registered.worker_issued hx), .inl ?_, fun id hid => ?_⟩
      · rw [hsup]
        exact List.getElem?_concat_length
      · exact ho.admitted _ (hv.holds w id ⟨x, hx, hid⟩)
    · rw [heq] at hb'
      cases hb'
  · rcases watch_origin hs with heq | ⟨hold, -⟩ | ⟨k, w, ids, ids', now, workers, hb, hk, heq⟩
    · exact (hv.overdue id (heq ▸ hid)).onward ho
    · rcases hold with hnil | hold
      · rw [hnil] at hid
        cases hid
      · exact (hv.overdue id (hold ▸ hid)).onward ho
    · rw [heq] at hid
      obtain ⟨-, htask, hids⟩ := hv.stopping k w ids' now workers ids hb
      rcases List.mem_append.mp hid with hid | hid
      · exact (hv.overdue id (by rw [hb]; exact hid)).onward ho
      · refine Lost.onward ⟨w, hids id hid, htask.resolve_left fun henter => ?_⟩ ho
        cases hk.symm.trans henter

/-! ### The requests and the work of a worker -/

/-- The admissions to the worker that are not released. -/
def State.admissionsOn (s : State) (w : WorkerId) : List Admission := s.admissions.filter (·.workerId = w)

/-- The worker counts what it has been admitted. -/
structure Serves (x : WorkerPlacement) (as : List Admission) : Prop where
  ids : x.admittedRequestIds.Perm (as.map (·.requestId))
  work : x.outstandingTokenWork = (as.map (·.estimatedTokens)).sum

/-- The workers that are not gone count the admissions that are not released. -/
def Occupied (s : State) : Prop :=
  ∀ w x, s.supervisor.worker? w = some x → x.state ∉ goneStates → Serves x (s.admissionsOn w)

section serves

variable {x : WorkerPlacement} {as bs : List Admission} {b : Admission}

theorem Serves.perm (hx : Serves x as) (hp : as.Perm bs) : Serves x bs :=
  ⟨hx.ids.trans (hp.map _), hx.work.trans (hp.map _).sum_eq⟩

theorem Serves.admitRequest (hx : Serves x as) (hb : b.requestId ∉ as.map (·.requestId)) (now : Datetime) :
    Serves (x.admitRequest b.requestId b.estimatedTokens now) (b :: as) := by
  have hnew : b.requestId ∉ x.admittedRequestIds := fun h => hb (hx.ids.subset h)
  refine ⟨?_, ?_⟩
  · simp only [WorkerPlacement.admitRequest, if_neg hnew, List.map_cons]
    exact (List.perm_append_singleton _ _).trans (hx.ids.cons _)
  · simp only [WorkerPlacement.admitRequest, List.map_cons, List.sum_cons, hx.work]
    omega

/-- What is left of the work is not negative, so `max(0, ..)` takes away the
estimate of the request. -/
theorem Serves.release (hx : Serves x (b :: as)) (hn : ((b :: as).map (·.requestId)).Nodup)
    (hpos : ∀ c ∈ as, 0 ≤ c.estimatedTokens) (now : Datetime) :
    Serves (x.release b.requestId b.estimatedTokens now) as := by
  rw [List.map_cons, List.nodup_cons] at hn
  refine ⟨?_, ?_⟩
  · have hrest : (as.map (·.requestId)).filter (· ≠ b.requestId) = as.map (·.requestId) := by
      refine List.filter_eq_self.mpr fun id hid => ?_
      simpa using fun heq : id = b.requestId => hn.1 (heq ▸ hid)
    have hids := hx.ids.filter (· ≠ b.requestId)
    rw [List.map_cons, List.filter_cons_of_neg (by simp), hrest] at hids
    exact hids
  · have hsum : 0 ≤ (as.map (·.estimatedTokens)).sum := by
      refine List.sum_nonneg fun e he => ?_
      obtain ⟨c, hc, rfl⟩ := List.mem_map.mp he
      exact hpos c hc
    have hwork := hx.work
    rw [List.map_cons, List.sum_cons] at hwork
    show max 0 (x.outstandingTokenWork - b.estimatedTokens) = _
    omega

end serves

/-! ### Estimates -/

/-- A reservation is not negative, and a handler has one. -/
def Estimated (s : State) : Prop := ∀ (k : ℕ) (h : Handler), s.handlers[k]? = some h → 0 ≤ h.sub.estimatedTokens

theorem estimated_step (he : Estimated s) (hnew : Distinct s a) (hs : step cfg s a = some s') : Estimated s' := by
  intro k h' hk'
  cases handler_origin hs hk' with
  | fresh sub rid rid' lid ha hres hh =>
    subst ha hh
    rcases Database.reserveQuota_ok hres with ⟨q, hq, -, hreq, -⟩ | ⟨-, account, db1, -, -, hinsert, -⟩
    · exact absurd hreq (hnew _ rfl q hq)
    · exact (Database.insertReservation_ok hinsert).2.1
  | kept h hk hf | moved h hk hf => exact hf.sub ▸ he k h hk

theorem Grants.admission (hg : Grants s) (he : Estimated s) : ∀ x ∈ s.admissions,
    0 ≤ x.estimatedTokens ∧ x.key ∈ s.history.admitted := by
  have hlease : ∀ l, Granted s l → 0 ≤ l.admission.estimatedTokens ∧ l.admission.key ∈ s.history.admitted := by
    intro l hl
    obtain ⟨k, h, hk, hof⟩ := hl.handler
    exact ⟨(he k h hk).trans_eq hof.estimated.symm, hl.admitted⟩
  intro x hx
  rcases List.mem_append.mp hx with hx | hx
  · obtain ⟨l, hl, rfl⟩ := List.mem_map.mp hx
    refine hlease l ?_
    rcases List.mem_append.mp hl with hl | hl
    · exact hg.leases l hl
    · rcases List.mem_append.mp hl with hl | hl
      · obtain ⟨d, hd, hl⟩ := List.mem_flatMap.mp hl
        refine hg.duties d hd l ?_
        cases d with
        | settle l' code taken =>
          cases taken with
          | true => rw [List.mem_singleton.mp hl]; rfl
          | false => cases hl
        | free l' => rw [List.mem_singleton.mp hl]; rfl
        | _ => cases hl
      · obtain ⟨h, hh, hl⟩ := List.mem_flatMap.mp hl
        obtain ⟨k, hk⟩ := List.mem_iff_getElem?.mp hh
        refine (hg.holders k h l hk (.inl ?_)).1
        unfold Handler.releasing at hl
        split at hl
        · rename_i hpc
          rw [List.mem_singleton.mp hl, hpc]
          rfl
        · cases hl
  · unfold Scheduler.admission? at hx
    split at hx
    · rename_i models r phase hb
      obtain ⟨w, hw, rfl⟩ := Option.map_eq_some_iff.mp (Option.mem_toList.mp hx)
      obtain ⟨h, hk, hentry⟩ := hg.queued (by rw [hb]; rfl)
      exact ⟨(he _ h hk).trans_eq hentry.estimated.symm, hg.router models r phase w hb hw⟩
    · cases hx

/-- No two admissions that are left are of one request. -/
theorem Balanced.ids (hb : Balanced s) (hn : Once s) : (s.admissions.map (·.requestId)).Nodup := by
  obtain ⟨ps, hperm, hsub⟩ := hb
  have hps : (ps.map (·.2)).Nodup := (hsub.map _).nodup hn.once
  have hall := (hperm.map (·.2)).nodup_iff.mp hps
  rw [List.map_append, List.map_map] at hall
  exact (List.nodup_append.mp hall).2.1

/-! ### One step -/

/-- The admissions to a worker change with the admissions. -/
theorem admissionsOn_perm {w : WorkerId} (hp : s'.admissions.Perm s.admissions) :
    (s.admissionsOn w).Perm (s'.admissionsOn w) := (hp.filter _).symm

theorem admissionsOn_cons {x : Admission} (w : WorkerId) (hp : s'.admissions.Perm (x :: s.admissions)) :
    (s'.admissionsOn w).Perm (if w = x.workerId then x :: s.admissionsOn w else s.admissionsOn w) := by
  refine (hp.filter _).trans (.of_eq ?_)
  by_cases hw : w = x.workerId
  · simp [State.admissionsOn, hw]
  · simp [State.admissionsOn, hw, Ne.symm hw]

theorem occupied_step (ho : Occupied s) (hv : Vacated s) (hb : Balanced s) (hc : Custody s) (hg : Grants s)
    (hn : Once s) (he : Estimated s) (hs : step cfg s a = some s') : Occupied s' := by
  intro w y hy halive
  have hids := hb.ids hn
  cases admissions_step hc hg hn hs with
  | same ha hw =>
    unfold Supervisor.State.worker? at hy
    rw [hw] at hy
    exact (ho w y hy halive).perm (admissionsOn_perm ha)
  | closed l code hd ha hw =>
    unfold Supervisor.State.worker? at hy
    rw [hw] at hy
    have hother : w ≠ l.workerId := by
      rintro rfl
      have hgone : Gone s.supervisor l.workerId := hv.duties _ hd
      exact halive (hgone.2 y hy)
    have hperm := admissionsOn_cons w ha
    rw [if_neg (by exact hother)] at hperm
    exact (ho w y hy halive).perm hperm
  | admitted x now hstep ha =>
    have hperm := (admissionsOn_cons w ha).symm
    rw [Supervisor.worker_admit hstep] at hy
    by_cases hw : w = x.workerId
    · rw [if_pos hw] at hy hperm
      obtain ⟨z, hz, rfl⟩ := Option.map_eq_some_iff.mp hy
      -- no admission that is left is of this request, after the step either
      have hnew := (ha.map (·.requestId)).nodup_iff.mp ((balanced_step hb hc hg hn hs).ids (once_step hc hn hs))
      rw [List.map_cons, List.nodup_cons] at hnew
      refine ((ho w z hz halive).admitRequest (fun hmem => hnew.1 ?_) now).perm hperm
      exact (List.filter_sublist.map _).subset hmem
    · rw [if_neg hw] at hy hperm
      exact (ho w y hy halive).perm hperm
  | released x now hstep ha =>
    have hperm := admissionsOn_cons w ha
    simp only [Supervisor.step, Option.ite_none_right_eq_some, Option.some.injEq] at hstep
    rw [← hstep.2, Supervisor.worker_release] at hy
    by_cases hw : w = x.workerId
    · rw [if_pos hw] at hy hperm
      obtain ⟨z, hz, rfl⟩ := Option.map_eq_some_iff.mp hy
      refine ((ho w z hz halive).perm hperm).release ?_ (fun c hc => ?_) now
      · exact (hperm.map _).nodup_iff.mp (hids.sublist (List.filter_sublist.map _))
      · refine (hg.admission he c ?_).1
        exact ha.symm.subset (List.mem_cons_of_mem _ (List.mem_of_mem_filter hc))
    · rw [if_neg hw] at hy hperm
      exact (ho w y hy halive).perm hperm
  | supervised act h1 h2 hstep ha =>
    have hperm := admissionsOn_perm (w := w) ha
    cases Supervisor.worker_step hv.registered hstep w with
    | same heq => exact (ho w y (heq ▸ hy) halive).perm hperm
    | change x z hx hz hchange =>
      cases hy.symm.trans hz
      obtain ⟨hreq, hwork⟩ := (hchange.kept h1 h2).resolve_left halive
      have hserves := ho w x hx fun hgone => halive (hchange.gone hgone)
      exact Serves.perm ⟨hreq ▸ hserves.ids, hwork ▸ hserves.work⟩ hperm
    | launched profile gpus port now hact _ _ _ hz =>
      -- nobody has been admitted to a worker before it is launched
      have hnone : s.admissionsOn w = [] := by
        refine List.filter_eq_nil_iff.mpr fun x hx hxw => ?_
        have hissued : x.workerId ∈ s.supervisor.issued := hv.issued _ (hg.admission he x hx).2
        exact Supervisor.launched_new (hact ▸ hstep) (of_decide_eq_true hxw ▸ hissued)
      rw [hnone] at hperm
      cases hy.symm.trans hz
      have hserves : Serves (Supervisor.newWorker profile gpus w port now) [] := ⟨.refl _, rfl⟩
      exact hserves.perm hperm
    | dropped _ _ _ _ hz => cases hy.symm.trans hz

end Routing
end LlmRio
