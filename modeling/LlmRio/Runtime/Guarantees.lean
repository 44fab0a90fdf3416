/-
# No request is lost

What holds in every state of the service, in runs over requests with distinct
ids: however handlers, scheduler, `worker_event` and supervisor take their
turns, whatever admission fails and whichever client goes away.

An accepted request is in one place (`one_place`), its assignment is resolved
once and to a lease of its own (`resolved_once`), it is finished only when its
reservation is settled (`settled_when_finished`), its worker releases it at
most once (`released_once`) and counts it until then (`workers_count`), and a
lease that its handler has settled is collected (`leases_collected`). A handler
that is dropped while it serves leaves a lease that is still ADMITTED.

Key definitions: `Distinct`, `Invariant`, `Reachable`.
Key theorems: `invariant_step`, `reachable_invariant`, `no_request_lost`.
-/
import LlmRio.Runtime.Billing
import LlmRio.Runtime.Occupancy
import LlmRio.Runtime.Undisturbed

namespace LlmRio
namespace Routing

open Runs
open Supervisor (goneStates)
open Database (Ended Sound)

variable {cfg : Settings} {s s' : State} {a : Act} {as : List Act}

/-! ### Distinct ids -/

/-- The ids of the submissions are distinct, and no reservation has one. -/
structure Fresh (db : Database) (as : List Act) : Prop where
  distinct : (as.filterMap Act.submits?).Nodup
  new : ∀ q ∈ db.quotaReservations, q.requestId ∉ as.filterMap Act.submits?

/-- A reservation that is new is the one of the submission. -/
theorem CallStep.requests (hb : Backed s) {db' : Database} (hd : CallStep s a db') : ∀ q' ∈ db'.quotaReservations,
    (∃ q ∈ s.db.quotaReservations, q.requestId = q'.requestId) ∨ a.submits? = some q'.requestId := by
  have hsound := hd.sound hb
  intro q' hq'
  cases hd with
  | same h => exact .inl ⟨q', h ▸ hq', rfl⟩
  | reserved sub rid rid' lid ha hres =>
    subst ha
    rcases Database.reserve_cases hres with ⟨heq, -⟩ | ⟨q, hadd, -, hreq, -⟩
    · exact .inl ⟨q', heq ▸ hq', rfl⟩
    · rw [hadd] at hq'
      rcases List.mem_append.mp hq' with hq' | hq'
      · exact .inl ⟨q', hq', rfl⟩
      · rw [List.mem_singleton.mp hq']
        exact .inr (congrArg some hreq.symm)
  | stored k h hk hdb =>
    rcases Database.store_cases hdb with ⟨heq, -⟩ | ⟨row, -, -, heq⟩
    · exact .inl ⟨q', heq ▸ hq', rfl⟩
    · rw [heq] at hq'
      exact .inl ⟨q', hq', rfl⟩
  | marked id w now h =>
    rw [h] at hq'
    unfold Database.markRequestAdmitted at hq'
    split at hq' <;> exact .inl ⟨q', hq', rfl⟩
  | settled k h op rid st hk hrid hop hrow hdb =>
    rw [hdb] at hq' hsound
    rcases Database.settle_cases hb.sound.wf hop with ⟨heq, -⟩ | ⟨-, -, hres⟩
    · exact .inl ⟨q', heq ▸ hq', rfl⟩
    · have hlook := Table.lookup_of_mem hsound.wf.reservationIds hq'
      have hlook : (s.db.run op).reservation? q'.id = some q' := hlook
      rw [hres] at hlook
      split at hlook
      · obtain ⟨q, hq, rfl⟩ := Option.map_eq_some_iff.mp hlook
        exact .inl ⟨q, (Table.lookup_some hq).1, rfl⟩
      · exact .inl ⟨q', (Table.lookup_some hlook).1, rfl⟩

theorem Fresh.first (hf : Fresh s.db (a :: as)) : Distinct s a := by
  intro id hid q hq heq
  exact hf.new q hq (List.mem_filterMap.mpr ⟨a, List.mem_cons_self, heq ▸ hid⟩)

theorem Fresh.rest (hf : Fresh s.db (a :: as)) (hb : Backed s) {db' : Database} (hd : CallStep s a db') :
    Fresh db' as := by
  obtain ⟨hdistinct, hnew⟩ := hf
  have hsub : ∀ id ∈ as.filterMap Act.submits?, id ∈ (a :: as).filterMap Act.submits? := by
    intro id hid
    obtain ⟨b, hb, hid⟩ := List.mem_filterMap.mp hid
    exact List.mem_filterMap.mpr ⟨b, List.mem_cons_of_mem _ hb, hid⟩
  refine ⟨?_, fun q' hq' hmem => ?_⟩
  · exact hdistinct.sublist ((List.sublist_cons_self a as).filterMap _)
  · rcases hd.requests hb q' hq' with ⟨q, hq, heq⟩ | hsubmit
    · exact hnew q hq (hsub _ (heq ▸ hmem))
    · rw [List.filterMap_cons, hsubmit] at hdistinct
      exact (List.nodup_cons.mp hdistinct).1 hmem

/-! ### Assignments -/

/-- The assignments that have been resolved are those that are not pending. -/
structure Resolutions (s : State) : Prop where
  once : s.history.resolved.Nodup
  iff : ∀ (k : ℕ), k ∈ s.history.resolved ↔ ∃ h, s.handlers[k]? = some h ∧ h.assignment ≠ .pending

theorem resolutions_step (hr : Resolutions s) (hs : step cfg s a = some s') : Resolutions s' := by
  cases handlers_step hs with
  | same hh hres => exact ⟨hres ▸ hr.once, fun k => by rw [hres, hh]; exact hr.iff k⟩
  | submitted h _ _ ha hh hres =>
    refine ⟨hres ▸ hr.once, fun k => ?_⟩
    rw [hres, hr.iff, hh]
    constructor
    · rintro ⟨g, hg, hpending⟩
      exact ⟨g, Tasks.snoc_old hg, hpending⟩
    · rintro ⟨g, hg, hpending⟩
      rcases Tasks.snoc_cases hg with ⟨-, rfl⟩ | hg
      · exact absurd ha hpending
      · exact ⟨g, hg, hpending⟩
  | moved j h h' hj hh _ ha hres =>
    refine ⟨hres ▸ hr.once, fun k => ?_⟩
    rw [hres, hr.iff, hh]
    by_cases hk : k = j
    · subst hk
      rw [Tasks.set_self hj, hj]
      simp [ha]
    · rw [List.getElem?_set_ne (Ne.symm hk)]
  | resolved j h h' hj hh _ ha ha' hres =>
    have hnew : j ∉ s.history.resolved := by
      rw [hr.iff]
      rintro ⟨g, hg, hpending⟩
      cases hj.symm.trans hg
      exact hpending ha
    refine ⟨?_, fun k => ?_⟩
    · rw [hres]
      refine List.nodup_append.mpr ⟨hr.once, List.nodup_singleton _, fun b hb c hc heq => hnew ?_⟩
      rw [← List.mem_singleton.mp hc, ← heq]
      exact hb
    · rw [hres, List.mem_append, List.mem_singleton, hr.iff, hh]
      by_cases hk : k = j
      · subst hk
        rw [Tasks.set_self hj]
        simp [ha']
      · rw [List.getElem?_set_ne (Ne.symm hk)]
        simp [hk]

/-! ### The invariant -/

structure Invariant (s : State) : Prop where
  custody : Custody s
  backed : Backed s
  grants : Grants s
  billed : Billed s
  once : Once s
  balanced : Balanced s
  estimated : Estimated s
  vacated : Vacated s
  occupied : Occupied s
  resolutions : Resolutions s

theorem invariant_step (hi : Invariant s) (hnew : Distinct s a) (hs : step cfg s a = some s') : Invariant s' := by
  obtain ⟨hc, hb, hg, hbill, hn, hbal, he, hv, ho, hr⟩ := hi
  exact {
    custody := custody_step hc hs fun id => new_id hb hnew
    backed := backed_step hb hc hg hnew hs
    grants := grants_step hb hc hg hs
    billed := billed_step hb hc hg hbill hs
    once := once_step hc hn hs
    balanced := balanced_step hbal hc hg hn hs
    estimated := estimated_step he hnew hs
    vacated := vacated_step hv hg hn hs
    occupied := occupied_step ho hv hbal hc hg hn he hs
    resolutions := resolutions_step hr hs }

theorem invariant_start {db : Database} (hdb : Sound db) (total tenant : Option ℕ) :
    Invariant (start db total tenant) := by
  have hnone : ∀ (k : ℕ) (h : Handler), (start db total tenant).handlers[k]? ≠ some h := by
    intro k h hk
    cases hk
  have hno : ∀ {β : Type} {x : β} {p : Prop}, x ∈ ([] : List β) → p := fun hx => absurd hx List.not_mem_nil
  exact {
    custody := ⟨List.nodup_nil, fun _ => hno, List.nodup_nil, .refl _⟩
    backed := ⟨hdb, fun k h hk => absurd hk (hnone k h), fun k h hk => absurd hk (hnone k h), fun _ => hno⟩
    grants := ⟨fun _ => hno, fun _ => hno, fun _ => hno, fun k h _ hk => absurd hk (hnone k h), by simp [start],
      by simp [start]⟩
    billed := ⟨fun k h hk => absurd hk (hnone k h), fun k h _ hk => absurd hk (hnone k h), fun _ => hno, trivial,
      fun _ => hno, by simp [start]⟩
    once := ⟨List.nodup_nil, fun _ => hno, fun _ => hno, by simp [start]⟩
    balanced := .refl _
    estimated := fun k h hk => absurd hk (hnone k h)
    vacated := ⟨Supervisor.registered_start, by simp [start, Supervisor.Failing], fun _ => hno,
      by simp [start, Supervisor.Admitted, Supervisor.State.worker?, Table.lookup], by simp [start], fun _ => hno,
      fun _ => hno⟩
    occupied := by simp [start, Occupied, Supervisor.State.worker?, Table.lookup]
    resolutions := ⟨List.nodup_nil, by simp [start]⟩ }

theorem invariant_exec : ∀ {as : List Act} {s : State}, Fresh s.db as → Invariant s →
    exec (step cfg) s as = some s' → Invariant s'
  | [], s, _, hi, h => by
    cases h
    exact hi
  | a :: as, s, hf, hi, h => by
    obtain ⟨u, hs, hrest⟩ := (exec_cons _).mp h
    have hcall := call_step hi.backed hi.custody hi.grants hs
    exact invariant_exec (hf.rest hi.backed hcall) (invariant_step hi hf.first hs) hrest

/-- A state of the service in a run over requests with distinct ids, on a
database that any calls have led to. -/
def Reachable (cfg : Settings) (s : State) : Prop :=
  ∃ (models : List CatalogModel) (ops : List Database.Op) (db : Database) (total tenant : Option ℕ) (as : List Act),
    exec Database.step (Database.fresh models) ops = some db ∧ Fresh db as ∧
      exec (step cfg) (start db total tenant) as = some s

theorem reachable_invariant (h : Reachable cfg s) : Invariant s := by
  obtain ⟨models, ops, db, total, tenant, as, hdb, hf, hs⟩ := h
  have hsound : Sound db :=
    exec_invariant (fun _ _ _ hd hstep => Database.sound_step hd hstep) (Database.sound_fresh models) hdb
  exact invariant_exec hf (invariant_start hsound total tenant) hs

/-! ### Three requests -/

open Submissions (Submission oneKey oneCatalog)

/-- What the client `id` sends. -/
def ask (id : RequestId) : Submission := ⟨id, id, ⟨"k", "acct"⟩, "model", 30, false⟩

/-- The handler `k` comes to wait for its assignment. -/
def queuedAt (k : ℕ) (id : RequestId) : List Act :=
  [.submit (ask id) id id, .handler k .create, .handler k (.enqueue 1)]

def turns (n : ℕ) : List Act := List.replicate n (.scheduler true "l" 2)

/-- The worker has served the first request, and the handler has settled it.
The second client goes away while its request is with the router, so it cannot
be marked. The third is queued. -/
def threeRequests : List Act :=
  ([.launch (Supervisor.oneGpu "static") ["gpu"] "w" 0, .launchSpawned 1, .launchDone, .task 0 true 1 0] :
      List Supervisor.Act).map .supervisor ++ queuedAt 0 "a" ++ queuedAt 1 "b" ++ turns 12 ++
    [.handler 0 .resume, .handler 1 .cancel, .handler 1 .cancel, .handler 1 (.reject "r" 3)] ++ turns 6 ++
    queuedAt 2 "c" ++ [.handler 0 (.settle 20 (some 10) (some 10) none "t" 4)]

/-- The handler has settled, and its lease is in the map. -/
def Handler.settledWith (h : Handler) (l : WorkerLease) : Bool := h.pc = .settled l ∧ h.sub.requestId = l.requestId

theorem three_requests : ∃ s, Reachable {} s ∧ s.history.accepted = ["a", "b", "c"] ∧
    s.inPlace .leased = ["a"] ∧ s.inPlace .finished = ["b"] ∧ s.inPlace .queue = ["c"] ∧
    ∃ h l, s.handlers[0]? = some h ∧ l ∈ s.requestLeases ∧ h.settledWith l = true := by
  let view : State → Bool := fun s => s.history.accepted = ["a", "b", "c"] ∧
    s.inPlace .leased = ["a"] ∧ s.inPlace .finished = ["b"] ∧ s.inPlace .queue = ["c"] ∧
      s.handlers[0]?.any fun h => s.requestLeases.any h.settledWith
  have hrun : ((exec Database.step (Database.fresh oneCatalog) oneKey).bind fun db =>
      if db.quotaReservations.isEmpty then (exec (step {}) (start db none none) threeRequests).map view else none) =
      some true := by decide +kernel
  obtain ⟨db, hdb, hrun⟩ := Option.bind_eq_some_iff.mp hrun
  obtain ⟨hempty, hrun⟩ := Option.ite_none_right_eq_some.mp hrun
  obtain ⟨s, hs, hview⟩ := Option.map_eq_some_iff.mp hrun
  obtain ⟨haccepted, hleased, hfinished, hqueue, hany⟩ := of_decide_eq_true hview
  obtain ⟨h, hh, hany⟩ := (Option.any_eq_true _ _).mp hany
  obtain ⟨l, hl, hsettled⟩ := List.any_eq_true.mp hany
  have hfresh : Fresh db threeRequests := by
    refine ⟨by decide, fun q hq => ?_⟩
    rw [List.isEmpty_iff.mp hempty] at hq
    cases hq
  exact ⟨s, ⟨oneCatalog, oneKey, db, none, none, threeRequests, hdb, hfresh, hs⟩, haccepted, hleased, hfinished,
    hqueue, h, l, hh, hl, hsettled⟩

/-! ### What holds of every state -/

/-- Each accepted request counts once, over the four places. -/
theorem Custody.count (hc : Custody s) (id : RequestId) : (s.inPlace .queue).count id +
    (s.inPlace .admission).count id + (s.inPlace .leased).count id + (s.inPlace .finished).count id =
      s.history.accepted.count id := by
  rw [hc.places.count_eq id]
  simp only [List.count_append]

theorem Custody.place_unique (hc : Custody s) {id : RequestId} (hid : id ∈ s.history.accepted) :
    ∃! p, id ∈ s.inPlace p := by
  have hone := List.count_eq_one_of_mem hc.accepted hid
  have hsum := hc.count id
  simp only [← List.count_pos_iff]
  apply existsUnique_of_exists_of_unique
  · by_contra hnone
    have h1 := not_exists.mp hnone .queue
    have h2 := not_exists.mp hnone .admission
    have h3 := not_exists.mp hnone .leased
    have h4 := not_exists.mp hnone .finished
    omega
  · intro p p' hp hp'
    cases p <;> cases p' <;> first | rfl | omega

theorem Custody.place_nodup (hc : Custody s) (p : Place) : (s.inPlace p).Nodup := by
  refine List.nodup_iff_count_le_one.mpr fun id => ?_
  have hone := List.nodup_iff_count_le_one.mp hc.accepted id
  have hsum := hc.count id
  cases p <;> omega

/-- What is finished is settled: its row is finished, and its reservation is
RESERVED no longer. -/
theorem Invariant.settled (hi : Invariant s) {id : RequestId} (hid : id ∈ s.inPlace .finished) :
    Ended s.db id ∧ ∃ q ∈ s.db.quotaReservations, q.requestId = id ∧ q.state ≠ .reserved := by
  have hended := hi.billed.finished id hid
  obtain ⟨k, g, hk, rfl, -⟩ := hi.custody.known id (hi.custody.mem_of_place .finished hid)
  have hback := hi.backed.backs k g hk
  obtain ⟨q, hq, hreq, -⟩ := id hback
  exact ⟨hended, q, (Table.lookup_some hq).1, hreq, hback.closed hi.backed.sound hended q hq⟩

theorem Invariant.released (hi : Invariant s) : s.history.released.Nodup := by
  obtain ⟨ps, hperm, hsub⟩ := hi.balanced
  have hps : ps.Nodup := (List.Nodup.of_map _ hi.once.once).sublist hsub
  exact (List.nodup_append.mp (hperm.nodup_iff.mp hps)).1

/-- While nothing is admitted or released, a worker has the requests that are
leased to it. -/
theorem Invariant.leased (hi : Invariant s) (hadmission : s.scheduler.admission? = none) (htaken : s.taken = [])
    {w : WorkerId} {x : WorkerPlacement} (hx : s.supervisor.worker? w = some x) (halive : x.state ∉ goneStates) :
    x.admittedRequestIds.Perm ((s.requestLeases.filter (·.workerId = w)).map (·.requestId)) ∧
      x.outstandingTokenWork = ((s.requestLeases.filter (·.workerId = w)).map (·.estimatedTokens)).sum := by
  have heq : s.admissionsOn w = (s.requestLeases.filter (·.workerId = w)).map (·.admission) := by
    simp only [State.admissionsOn, State.admissions, hadmission, htaken, List.append_nil, Option.toList_none,
      List.filter_map]
    rfl
  obtain ⟨hids, hwork⟩ := hi.occupied w x hx halive
  rw [heq, List.map_map] at hids hwork
  exact ⟨hids, hwork⟩

/-- **No request is lost, duplicated or released twice.** In every state of the
service an accepted request is in one place; its assignment has been resolved
at most once; what is finished is settled; no admission has been released
twice; and while nothing is admitted or released, each worker that is not
STOPPING or COLD has the requests that are leased to it and the sum of their
estimates. -/
theorem no_request_lost (cfg : Settings) (s : State) (h : Reachable cfg s) :
    (∀ id ∈ s.history.accepted, ∃! p, id ∈ s.inPlace p) ∧
      (s.history.resolved.Nodup ∧
        ∀ (k : ℕ), k ∈ s.history.resolved ↔ ∃ g, s.handlers[k]? = some g ∧ g.assignment ≠ .pending) ∧
      (∀ id ∈ s.inPlace .finished, ∃ q ∈ s.db.quotaReservations, q.requestId = id ∧ q.state ≠ .reserved) ∧
      ((s.history.admitted.map (·.2)).Nodup ∧ s.history.released.Nodup ∧
        (s.history.released ++ s.admissions.map (·.key)).Subperm s.history.admitted) ∧
      (s.scheduler.admission? = none → s.taken = [] →
        ∀ w x, s.supervisor.worker? w = some x → x.state ∉ goneStates →
          x.admittedRequestIds.Perm ((s.requestLeases.filter (·.workerId = w)).map (·.requestId)) ∧
            x.outstandingTokenWork = ((s.requestLeases.filter (·.workerId = w)).map (·.estimatedTokens)).sum) := by
  have hi := reachable_invariant h
  exact ⟨fun id => hi.custody.place_unique, ⟨hi.resolutions.once, hi.resolutions.iff⟩,
    fun id hid => (hi.settled hid).2, ⟨hi.once.once, hi.released, hi.balanced⟩,
    fun hadmission htaken w x => hi.leased hadmission htaken⟩

theorem no_request_lost_three : ∃ s, Reachable {} s ∧ s.history.accepted = ["a", "b", "c"] ∧
    (∀ id ∈ s.history.accepted, ∃! p, id ∈ s.inPlace p) ∧
    ∃ q ∈ s.db.quotaReservations, q.requestId = "b" ∧ q.state ≠ .reserved := by
  obtain ⟨s, hs, haccepted, -, hfinished, -⟩ := three_requests
  obtain ⟨hplace, -, hsettled, -⟩ := no_request_lost {} s hs
  exact ⟨s, hs, haccepted, hplace, hsettled "b" (by simp [hfinished])⟩

/-- **An accepted request is in one place**, and there once. -/
theorem one_place (cfg : Settings) (s : State) (h : Reachable cfg s) :
    (∀ id ∈ s.history.accepted, ∃! p, id ∈ s.inPlace p) ∧
      ∀ p, (s.inPlace p).Nodup ∧ ∀ id ∈ s.inPlace p, id ∈ s.history.accepted := by
  have hc := (reachable_invariant h).custody
  exact ⟨fun id => hc.place_unique, fun p => ⟨hc.place_nodup p, fun id => hc.mem_of_place p⟩⟩

theorem one_place_three : ∃ s, Reachable {} s ∧ s.history.accepted = ["a", "b", "c"] ∧
    ∀ id ∈ s.history.accepted, ∃! p, id ∈ s.inPlace p := by
  obtain ⟨s, hs, haccepted, -⟩ := three_requests
  exact ⟨s, hs, haccepted, (one_place {} s hs).1⟩

/-- **An assignment is resolved once**, and a handler is given no lease but one
of its own request, to which the worker has admitted it. -/
theorem resolved_once (cfg : Settings) (s : State) (h : Reachable cfg s) :
    s.history.resolved.Nodup ∧
      (∀ (k : ℕ), k ∈ s.history.resolved ↔ ∃ h, s.handlers[k]? = some h ∧ h.assignment ≠ .pending) ∧
      ∀ (k : ℕ) (h : Handler) (l : WorkerLease), s.handlers[k]? = some h →
        h.assignment = .result l ∨ h.pc.lease? = some l →
          l.Of h ∧ (l.workerId, l.requestId) ∈ s.history.admitted := by
  have hi := reachable_invariant h
  refine ⟨hi.resolutions.once, hi.resolutions.iff, fun k h l hk hl => ?_⟩
  obtain ⟨hgranted, hof⟩ := hi.grants.holders k h l hk hl.symm
  exact ⟨hof, hgranted.admitted⟩

theorem resolved_once_three : ∃ s, Reachable {} s ∧ s.inPlace .leased = ["a"] ∧ s.history.resolved.Nodup := by
  obtain ⟨s, hs, -, hleased, -⟩ := three_requests
  exact ⟨s, hs, hleased, (resolved_once {} s hs).1⟩

/-- **What is finished is settled**: its row is finished, and its reservation
is RESERVED no longer. -/
theorem settled_when_finished (cfg : Settings) (s : State) (h : Reachable cfg s) :
    ∀ id ∈ s.inPlace .finished, Ended s.db id ∧
      ∃ q ∈ s.db.quotaReservations, q.requestId = id ∧ q.state ≠ .reserved :=
  fun _ hid => (reachable_invariant h).settled hid

theorem settled_when_finished_three : ∃ s, Reachable {} s ∧ s.inPlace .finished = ["b"] ∧ Ended s.db "b" := by
  obtain ⟨s, hs, -, -, hfinished, -⟩ := three_requests
  exact ⟨s, hs, hfinished, (settled_when_finished {} s hs "b" (by simp [hfinished])).1⟩

/-- **Nothing is released twice.** A request is admitted once, and the releases
and the admissions that are left to release are admissions. -/
theorem released_once (cfg : Settings) (s : State) (h : Reachable cfg s) :
    (s.history.admitted.map (·.2)).Nodup ∧
      (s.history.released ++ s.admissions.map (·.key)).Subperm s.history.admitted ∧ s.history.released.Nodup := by
  have hi := reachable_invariant h
  exact ⟨hi.once.once, hi.balanced, hi.released⟩

theorem released_once_three : ∃ s, Reachable {} s ∧ s.inPlace .finished = ["b"] ∧ s.history.released.Nodup := by
  obtain ⟨s, hs, -, -, hfinished, -⟩ := three_requests
  exact ⟨s, hs, hfinished, (released_once {} s hs).2.2⟩

/-- **The workers count what they serve.** A worker that is not STOPPING or
COLD has the requests of its admissions that are not released, and the sum of
their estimates; while nothing is admitted or released these are the leases.
What a task gives up without a release is of a worker that is gone. -/
theorem workers_count (cfg : Settings) (s : State) (h : Reachable cfg s) :
    (∀ w x, s.supervisor.worker? w = some x → x.state ∉ goneStates → Serves x (s.admissionsOn w) ∧
      (s.scheduler.admission? = none → s.taken = [] →
        x.admittedRequestIds.Perm ((s.requestLeases.filter (·.workerId = w)).map (·.requestId)) ∧
          x.outstandingTokenWork = ((s.requestLeases.filter (·.workerId = w)).map (·.estimatedTokens)).sum)) ∧
      ∀ d ∈ s.duties, d.Vacated s := by
  have hi := reachable_invariant h
  refine ⟨fun w x hx halive => ⟨hi.occupied w x hx halive, fun hadmission htaken => ?_⟩, hi.vacated.duties⟩
  exact hi.leased hadmission htaken hx halive

theorem workers_count_three : ∃ s, Reachable {} s ∧ s.inPlace .leased = ["a"] ∧ ∀ w x,
    s.supervisor.worker? w = some x → x.state ∉ goneStates → Serves x (s.admissionsOn w) := by
  obtain ⟨s, hs, -, hleased, -⟩ := three_requests
  exact ⟨s, hs, hleased, fun w x hx halive => ((workers_count {} s hs).1 w x hx halive).1⟩

/-- **No settled lease stays behind.** The lease of a handler that has settled,
or has ended without abandoning it, is one that the next reading of
`admitted_request_ids` finds settled. -/
theorem leases_collected (cfg : Settings) (s : State) (h : Reachable cfg s) :
    ∀ l ∈ s.requestLeases, ∀ (k : ℕ) (g : Handler), s.handlers[k]? = some g → g.sub.requestId = l.requestId →
      (g.pc = .done ∨ ∃ l', g.pc = .settled l') → .release l ∈ stale s s.db.admittedRequestIds := by
  have hi := reachable_invariant h
  intro l hl k g hk hid hpc
  have hplace : l.requestId ∈ s.inPlace .leased :=
    List.mem_map_of_mem (List.mem_append_left _ hl)
  have hended : Ended s.db l.requestId := by
    rw [← hid] at hplace ⊢
    rcases hpc with hpc | ⟨l', hpc⟩
    · exact hi.billed.done k g hk hpc (hi.custody.mem_of_place .leased hplace)
    · exact hi.billed.settled k g l' hk (.inl hpc)
  refine List.mem_map_of_mem (List.mem_filter.mpr ⟨hl, ?_⟩)
  simpa using hended.not_admitted hi.backed.sound.wf

theorem leases_collected_three : ∃ s l, Reachable {} s ∧ l ∈ s.requestLeases ∧
    .release l ∈ stale s s.db.admittedRequestIds := by
  obtain ⟨s, hs, -, -, -, -, h, l, hh, hl, hsettled⟩ := three_requests
  obtain ⟨hpc, hid⟩ := of_decide_eq_true hsettled
  exact ⟨s, l, hs, hl, leases_collected {} s hs l hl 0 h hh hid (.inr ⟨l, hpc⟩)⟩

end Routing
end LlmRio
