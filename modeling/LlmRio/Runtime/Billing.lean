/-
# A request that is over is settled

Several tasks may end one lease, and each settles the reservation before it
gives the lease up: a duty to release a lease stands behind its settlement, or
the request has ended already (`Covered`). A lease that is stale when
`admitted_request_ids` is read has been marked, and its request is ADMITTED no
more, so it has ended too. So whatever task finishes a request, its reservation
is settled then, and it stays so (`Billed`).

Key definitions: `Covered`, `Billed`.
Key theorems: `covered_duty`, `billed_step`.
-/
import LlmRio.Runtime.Grants

namespace LlmRio
namespace Routing

open Database (HasRow Ended Backs Sound Marked)

variable {cfg : Settings} {s s' : State} {k : ℕ} {h : Handler}

/-- The duties to release a lease are for requests that have ended, or come
after the settlement; `E` are the requests that have ended. -/
def Covered (E : RequestId → Prop) : List Duty → Prop
  | [] => True
  | .settle l _ _ :: ds => Covered (fun id => E id ∨ id = l.requestId) ds
  | .release l :: ds | .free l :: ds => E l.requestId ∧ Covered E ds
  | .fail _ :: ds | .drop _ :: ds => Covered E ds

structure Billed (s : State) : Prop where
  done : ∀ (k : ℕ) (h : Handler), s.handlers[k]? = some h → h.pc = .done →
    h.sub.requestId ∈ s.history.accepted → Ended s.db h.sub.requestId
  settled : ∀ (k : ℕ) (h : Handler) (l : WorkerLease), s.handlers[k]? = some h →
    h.pc = .settled l ∨ h.pc = .releasing l → Ended s.db h.sub.requestId
  finished : ∀ id ∈ s.history.finished, Ended s.db id
  scheduler : Covered (Ended s.db) s.scheduler.duties
  events : ∀ ds ∈ s.events, Covered (Ended s.db) ds
  read : ∀ ids, s.scheduler = .read ids → ∀ l ∈ s.requestLeases, l.requestId ∉ ids → Ended s.db l.requestId

/-! ### Lists of duties -/

section covered

variable {E E' : RequestId → Prop} {ds ds' : List Duty}

theorem Covered.mono (hE : ∀ id, E id → E' id) (hd : Covered E ds) : Covered E' ds := by
  induction ds generalizing E E' with
  | nil => trivial
  | cons d ds ih =>
    cases d with
    | settle l code taken => exact ih (fun id h => h.imp_left (hE id)) hd
    | release l | free l => exact ⟨hE _ hd.1, ih hE hd.2⟩
    | fail l | drop id => exact ih hE hd

theorem covered_settle {l : WorkerLease} {code : String} {taken : Bool} (hd : Covered E ds) :
    Covered E (.settle l code taken :: ds) := by
  show Covered (fun id => E id ∨ id = l.requestId) ds
  exact Covered.mono (fun _ hid => .inl hid) hd

/-- Leases that are settled first may be released. -/
theorem covered_expired (code : String) (ls : List WorkerLease) (E : RequestId → Prop) :
    Covered E (ls.flatMap fun l => [.settle l code false, .release l]) := by
  induction ls generalizing E with
  | nil => trivial
  | cons l ls ih => exact ⟨.inr rfl, ih _⟩

theorem covered_stale {ls : List WorkerLease} (hls : ∀ l ∈ ls, E l.requestId) : Covered E (ls.map .release) := by
  induction ls with
  | nil => trivial
  | cons l ls ih => exact ⟨hls l List.mem_cons_self, ih fun l' hl' => hls l' (List.mem_cons_of_mem _ hl')⟩

theorem covered_fail (ls : List WorkerLease) : Covered E (ls.map .fail) := by
  induction ls with
  | nil => trivial
  | cons l ls ih => exact ih

theorem covered_drop (ids : List RequestId) : Covered E (ids.map .drop) := by
  induction ids with
  | nil => trivial
  | cons id ids ih => exact ih

end covered

/-! ### One step -/

section steps

variable {a : Act}

/-- A request ends with the settlement of its handler's reservation. -/
theorem Backed.ends (hb : Backed s) (hk : s.handlers[k]? = some h) (hrow : HasRow s.db h.sub.requestId)
    {op : Database.Op} {rid : ReservationId} {st : Settlement} (hrid : rid = h.reservationId)
    (hop : op.settles rid = some st) : Ended (s.db.run op) h.sub.requestId :=
  Database.settle_ends hb.sound (hrid ▸ hb.backs k h hk) hrow hop

theorem Backed.ends_lease (hb : Backed s) {l : WorkerLease} (hg : Granted s l) (code lid : String) (now : Datetime) :
    Ended (s.db.run (.releaseReservation l.reservationId code lid now)) l.requestId := by
  obtain ⟨k, h, hk, hof⟩ := hg.handler
  rw [hof.request]
  exact hb.ends hk (hof.request ▸ hg.marked.hasRow) hof.reservation (Database.settles_release _ _ _ _)

/-- What a duty leaves is covered, and what it finishes has ended. -/
theorem covered_duty (hb : Backed s) {d : Duty} {todo ds : List Duty}
    (hd : ∀ l, d.lease? = some l → Granted s l) (hmono : ∀ id, Ended s.db id → Ended s'.db id)
    (hcov : Covered (Ended s.db) (d :: todo)) (he : DutyEffect cfg s d s' ds) :
    Covered (Ended s'.db) (ds ++ todo) ∧
      ∀ id ∈ s'.history.finished, id ∈ s.history.finished ∨ Ended s'.db id := by
  have hold : ∀ id ∈ s.history.finished, id ∈ s.history.finished ∨ Ended s'.db id := fun _ h => .inl h
  cases he with
  | @settled lease code lid now =>
    refine ⟨Covered.mono (fun id hid => ?_) hcov, hold⟩
    rcases hid with hid | rfl
    · exact hmono id hid
    · exact hb.ends_lease (hd _ rfl) code lid now
  | @closed lease code lid now =>
    have hends : Ended (s.db.run (.releaseReservation lease.reservationId code lid now)) lease.requestId :=
      hb.ends_lease (hd _ rfl) code lid now
    refine ⟨Covered.mono (fun id hid => ?_) hcov, fun id hid => ?_⟩
    · rcases hid with hid | rfl
      · exact hmono id hid
      · exact hends
    · rcases List.mem_append.mp hid with hid | hid
      · exact .inl hid
      · exact .inr (List.mem_singleton.mp hid ▸ hends)
  | popped => exact ⟨hcov, hold⟩
  | @freed lease =>
    refine ⟨hcov.2, fun id hid => ?_⟩
    rcases List.mem_append.mp hid with hid | hid
    · exact .inl hid
    · exact .inr (List.mem_singleton.mp hid ▸ hcov.1)
  | failed | failedLate | dropped => exact ⟨covered_settle hcov, hold⟩
  | gone hgone =>
    rcases hgone with ⟨l, rfl⟩ | ⟨id, rfl⟩
    · exact ⟨hcov.2, hold⟩
    · exact ⟨hcov, hold⟩

/-- A handler that ends, has settled, or has put nothing into the queue. -/
theorem HandlerEffect.billed (hb : Backed s) (hc : Custody s) (hg : Grants s) (hi : Billed s)
    (hmono : ∀ id, Ended s.db id → Ended s'.db id) (hk : s.handlers[k]? = some h)
    (he : HandlerEffect cfg s k h s') {h' : Handler} (hk' : s'.handlers[k]? = some h') :
    (h'.pc = .done → h.sub.requestId ∈ s.history.accepted → Ended s'.db h.sub.requestId) ∧
      (∀ l, h'.pc = .settled l ∨ h'.pc = .releasing l → Ended s'.db h.sub.requestId) ∧
      ∀ id ∈ s'.history.finished, id ∈ s.history.finished ∨ Ended s'.db id := by
  have hold : ∀ id ∈ s.history.finished, id ∈ s.history.finished ∨ Ended s'.db id := fun _ h => .inl h
  have hset : ∀ {g : Handler}, (s.handlers.set k g)[k]? = some h' → h' = g := fun hg =>
    Option.some.inj (hg.symm.trans (Tasks.set_self hk))
  have hends : ∀ code lid now, h.pc ≠ .creating → h.pc ≠ .done →
      Ended (s.db.run (.releaseReservation h.reservationId code lid now)) h.sub.requestId :=
    fun code lid now h1 h2 =>
      hb.ends hk (hb.stored k h hk h1 h2) rfl (Database.settles_release h.reservationId code lid now)
  cases he with
  | ends hold' =>
    rw [hset hk']
    refine ⟨fun _ hacc => ?_, by simp, hold⟩
    rcases hold' with hpc | ⟨l, hpc⟩
    · exact absurd hacc (hc.not_accepted hk (by rw [hpc]; rfl))
    · exact hi.settled k h l hk (.inl hpc)
  | @withdrawn lid now hpc =>
    have hends := hends "client_cancelled" lid now (by simp [hpc]) (by simp [hpc])
    rw [hset hk']
    refine ⟨by simp, by simp, fun id hid => ?_⟩
    rcases List.mem_append.mp hid with hid | hid
    · exact .inl hid
    · exact .inr (List.mem_singleton.mp hid ▸ hends)
  | @withdrawnLate lid now hpc =>
    have hends := hends "queue_rejected" lid now (by simp [hpc]) (by simp [hpc])
    rw [hset hk']
    refine ⟨fun _ _ => hends, by simp, fun id hid => ?_⟩
    rcases List.mem_append.mp hid with hid | hid
    · exact .inl hid
    · exact .inr (List.mem_singleton.mp hid ▸ hends)
  | @rejected lid now hpc =>
    have hends := hends "queue_rejected" lid now (by simp [hpc]) (by simp [hpc])
    rw [hset hk']
    exact ⟨fun _ _ => hends, by simp, hold⟩
  | @settled lease n p c e lid now hpc =>
    have hends := hb.ends hk (hb.stored k h hk (by simp [hpc]) (by simp [hpc])) rfl
      (Database.settles_settle h.reservationId n p c e lid now)
    rw [hset hk']
    exact ⟨by simp, fun _ _ => hends, hold⟩
  | popped hpc =>
    rw [hset hk']
    exact ⟨by simp, fun _ _ => hi.settled k h _ hk (.inl hpc), hold⟩
  | freed hpc =>
    have hends := hi.settled k h _ hk (.inr hpc)
    rw [hset hk']
    refine ⟨fun _ _ => hends, by simp, fun id hid => ?_⟩
    rcases List.mem_append.mp hid with hid | hid
    · exact .inl hid
    · obtain ⟨-, hof⟩ := hg.holders k h _ hk (.inl (by rw [hpc]; rfl))
      rw [List.mem_singleton.mp hid, hof.request]
      exact .inr hends
  | touched hpc | gone hpc =>
    cases hk.symm.trans hk'
    exact ⟨by simp [hpc], by simp [hpc], hold⟩
  | _ =>
    rw [hset hk']
    exact ⟨by simp, by simp, hold⟩

/-- A request that is new has a handler that waits. -/
theorem accepted_origin (hc : Custody s) (hs : step cfg s a = some s') (hk : s.handlers[k]? = some h) {h' : Handler}
    (hk' : s'.handlers[k]? = some h') (hid : h.sub.requestId ∈ s'.history.accepted) :
    h.sub.requestId ∈ s.history.accepted ∨ h'.pc = .waiting := by
  cases flow_step hc hs with
  | stays _ ha | moves _ _ _ _ _ _ _ ha => exact .inl (ha ▸ hid)
  | comes j g hj hpc hh _ _ ha =>
    rw [ha] at hid
    rcases List.mem_append.mp hid with hid | hid
    · exact .inl hid
    · obtain ⟨rfl, rfl⟩ := hc.handler_eq hk hj (List.mem_singleton.mp hid)
      rw [hh, Tasks.set_self hj] at hk'
      cases hk'
      exact .inr rfl

theorem finished_step (hb : Backed s) (hc : Custody s) (hg : Grants s) (hi : Billed s)
    (hmono : ∀ id, Ended s.db id → Ended s'.db id) (hs : step cfg s a = some s') :
    ∀ id ∈ s'.history.finished, id ∈ s.history.finished ∨ Ended s'.db id := by
  have hold : ∀ id ∈ s.history.finished, id ∈ s.history.finished ∨ Ended s'.db id := fun _ h => .inl h
  cases step_effect hs with
  | submitted | aborted | supervisor => exact hold
  | handler hk he =>
    obtain ⟨h', hk', -⟩ := handler_kept hs hk
    exact (he.billed hb hc hg hi hmono hk hk').2.2
  | @event j _ _ d todo ds s1 hj he =>
    have hmono1 : ∀ id, Ended s.db id → Ended s1.db id := hmono
    exact (covered_duty hb (hg.duties d (event_duty hj)) hmono1 (hi.events _ (List.mem_of_getElem? hj)) he).2
  | scheduler he =>
    -- the router settles the request that it refuses
    have hrefused : ∀ models r lid now, s.scheduler = .busy models r .refusing →
        ∀ id ∈ s.history.finished ++ [r.id], id ∈ s.history.finished ∨
          Ended (s.db.run (.releaseReservation r.reservationId "admission_failed" lid now)) id := by
      intro models r lid now hbusy id hid
      rcases List.mem_append.mp hid with hid | hid
      · exact .inl hid
      · obtain ⟨h, hk, hentry⟩ := hg.queued (by rw [hbusy]; rfl)
        have hrow : HasRow s.db r.id :=
          hb.accepted _ (hc.mem_of_place .admission (by simp [State.inPlace, hbusy, Scheduler.request?]))
        rw [List.mem_singleton.mp hid, hentry.id]
        exact .inr (hb.ends hk (hentry.id ▸ hrow) hentry.reservation (Database.settles_release _ _ _ _))
    cases he with
    | @duty loop d todo ds s1 hb' hd =>
      have hmono1 : ∀ id, Ended s.db id → Ended s1.db id := hmono
      have hcov : Covered (Ended s.db) s.scheduler.duties := hi.scheduler
      rw [hb'] at hcov
      exact (covered_duty hb (hg.duties d (by simp [State.duties, hb', Scheduler.duties])) hmono1 hcov hd).2
    | refused hbusy | refusedLate hbusy => exact hrefused _ _ _ _ hbusy
    | _ => exact hold

theorem scheduler_covered (hb : Backed s) (hg : Grants s) (hi : Billed s)
    (hmono : ∀ id, Ended s.db id → Ended s'.db id) (he : SchedulerEffect cfg s s') :
    Covered (Ended s'.db) s'.scheduler.duties := by
  cases he with
  | @duty loop d todo ds s1 hb' hd =>
    have hmono1 : ∀ id, Ended s.db id → Ended s1.db id := hmono
    have hcov : Covered (Ended s.db) s.scheduler.duties := hi.scheduler
    rw [hb'] at hcov
    exact (covered_duty hb (hg.duties d (by simp [State.duties, hb', Scheduler.duties])) hmono1 hcov hd).1
  | ticked =>
    show Covered _ (expired cfg s _)
    unfold expired
    split
    · trivial
    · exact covered_expired _ _ _
  | collected hb' =>
    refine covered_stale fun l hl => ?_
    obtain ⟨hmem, hid⟩ := List.mem_filter.mp hl
    exact hi.read _ hb' l hmem (by simpa using hid)
  | drops => exact covered_drop _
  | orphaned => exact ⟨.inr rfl, trivial⟩
  | @routes scheduler hb' hnew => rcases hnew with rfl | ⟨models, rfl⟩ <;> trivial
  | _ => trivial

theorem events_covered (hb : Backed s) (hg : Grants s) (hi : Billed s)
    (hmono : ∀ id, Ended s.db id → Ended s'.db id) (hs : step cfg s a = some s') :
    ∀ ds ∈ s'.events, Covered (Ended s'.db) ds := by
  have hold : ∀ ds ∈ s.events, Covered (Ended s'.db) ds := fun ds hds => (hi.events ds hds).mono hmono
  cases step_effect hs with
  | submitted | aborted => exact hold
  | handler hk he => cases he <;> exact hold
  | scheduler he =>
    rw [he.events]
    exact hold
  | @supervisor a sup =>
    intro ds hds
    rcases List.mem_append.mp hds with hds | hds
    · exact hold ds hds
    · cases hf : failing? s.supervisor a with
      | none => simp [hf] at hds
      | some w =>
        rw [hf, Option.map_some, Option.toList_some, List.mem_singleton] at hds
        rw [hds]
        exact covered_fail _
  | @event j _ _ d todo ds s1 hj he =>
    have hmono1 : ∀ id, Ended s.db id → Ended s1.db id := hmono
    intro l hl
    have hl : l ∈ s.events.set j (ds ++ todo) := he.frame.2.2.2.1 ▸ hl
    rcases List.mem_or_eq_of_mem_set hl with hl | rfl
    · exact hold l hl
    · exact (covered_duty hb (hg.duties d (event_duty hj)) hmono1 (hi.events _ (List.mem_of_getElem? hj)) he).1

/-- The leases that a read of `admitted_request_ids` misses have ended. -/
theorem read_step (hg : Grants s) (hi : Billed s) (hmono : ∀ id, Ended s.db id → Ended s'.db id)
    (hs : step cfg s a = some s') {ids : List RequestId} (hr : s'.scheduler = .read ids) :
    ∀ l ∈ s'.requestLeases, l.requestId ∉ ids → Ended s'.db l.requestId := by
  have hsame : s'.scheduler = s.scheduler → (∀ l ∈ s'.requestLeases, ∃ l0 ∈ s.requestLeases,
      l0.requestId = l.requestId) → ∀ l ∈ s'.requestLeases, l.requestId ∉ ids → Ended s'.db l.requestId := by
    intro hsch hsub l hl hid
    obtain ⟨l0, hl0, heq⟩ := hsub l hl
    exact hmono _ (heq ▸ hi.read ids (hsch ▸ hr) l0 hl0 (heq ▸ hid))
  cases step_effect hs with
  | submitted | supervisor => exact hsame rfl fun l hl => ⟨l, hl, rfl⟩
  | aborted => cases hr
  | event hj he => exact hsame he.frame.2.2.1 fun l hl => ⟨l, he.leases l hl, rfl⟩
  | handler hk he =>
    cases he with
    | touched hpc hlease =>
      refine hsame rfl fun l hl => ?_
      rcases mem_put hl with rfl | hl
      · exact ⟨_, (Table.lookup_some hlease).1, rfl⟩
      · exact ⟨l, hl, rfl⟩
    | popped => exact hsame rfl fun l hl => ⟨l, List.mem_of_mem_filter hl, rfl⟩
    | _ => exact hsame rfl fun l hl => ⟨l, hl, rfl⟩
  | scheduler he =>
    cases he with
    | read =>
      cases hr
      exact fun l hl hid => (hg.leases l hl).marked.ended hid
    | @routes scheduler hb' hnew => rcases hnew with rfl | ⟨models, rfl⟩ <;> cases hr
    | _ => cases hr

theorem billed_step (hb : Backed s) (hc : Custody s) (hg : Grants s) (hi : Billed s)
    (hs : step cfg s a = some s') : Billed s' := by
  have hmono : ∀ id, Ended s.db id → Ended s'.db id := fun id =>
    ((call_step hb hc hg hs).rows hb.sound).ended
  refine ⟨fun k h' hk' hpc hacc => ?_, fun k h' l hk' hpc => ?_, fun id hid => ?_, ?_,
    events_covered hb hg hi hmono hs, fun ids hr => read_step hg hi hmono hs hr⟩
  · cases handler_origin hs hk' with
    | fresh _ _ _ _ _ _ hh =>
      rw [hh] at hpc
      cases hpc
    | kept h hk hf heq =>
      rw [hf.sub] at hacc ⊢
      rcases accepted_origin hc hs hk hk' hacc with hacc | hwait
      · exact hmono _ (hi.done k h hk (heq ▸ hpc) hacc)
      · rw [hwait] at hpc
        cases hpc
    | moved h hk hf he =>
      rw [hf.sub] at hacc ⊢
      rcases accepted_origin hc hs hk hk' hacc with hacc | hwait
      · exact (he.billed hb hc hg hi hmono hk hk').1 hpc hacc
      · rw [hwait] at hpc
        cases hpc
  · cases handler_origin hs hk' with
    | fresh _ _ _ _ _ _ hh => simp [hh] at hpc
    | kept h hk hf heq =>
      rw [hf.sub]
      exact hmono _ (hi.settled k h l hk (heq ▸ hpc))
    | moved h hk hf he =>
      rw [hf.sub]
      exact (he.billed hb hc hg hi hmono hk hk').2.1 l hpc
  · rcases finished_step hb hc hg hi hmono hs id hid with hid | hend
    · exact hmono id (hi.finished id hid)
    · exact hend
  · have hold : Covered (Ended s'.db) s.scheduler.duties := hi.scheduler.mono hmono
    cases step_effect hs with
    | submitted | supervisor => exact hold
    | aborted => trivial
    | handler hk he => cases he <;> exact hold
    | event hj he =>
      show Covered _ (Scheduler.duties _)
      rw [he.frame.2.2.1]
      exact hold
    | scheduler he => exact scheduler_covered hb hg hi hmono he

end steps

end Routing
end LlmRio
