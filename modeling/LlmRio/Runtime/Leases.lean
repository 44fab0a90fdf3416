/-
# The lease of a submission

What holds of the shared world from `reserve_quota` to the end of the
handler, whatever steps the other tasks take: the lease is the only one of
its request and its worker has admitted the request no longer than the lease
lasts (`Linked`), a settled reservation stays settled, and a lease that is out
of the map stays out. A step of another task keeps each of these, and so do
the handler's own steps.

Key definitions: `Linked`, `Sound`, `Out`.
Key theorems: `sound_step`, `settled_step`, `out_step`, `turn_invariant`,
`Sound.grant`, `Sound.pop`, `Sound.released`, `settled_run`.
-/
import LlmRio.Storage.Reservations
import LlmRio.Runtime.Gateway

namespace LlmRio
namespace Gateway

/-! ### What every step keeps -/

/-- The lease is the only one of its request, and the worker has admitted the
request only while the lease is there or is being released. -/
structure Linked (l : WorkerLease) (w : World) : Prop where
  only : ∀ m, m ∈ w.requestLeases ∨ m ∈ w.releasing → m.requestId = l.requestId → m = l
  held : l ∈ w.requestLeases ∨ l ∈ w.releasing ∨
    ¬ Supervisor.Admitted w.supervisor l.workerId l.requestId

/-- The request has no lease. -/
def Fresh (r : RequestId) (w : World) : Prop :=
  ∀ m, m ∈ w.requestLeases ∨ m ∈ w.releasing → m.requestId ≠ r

/-- The database has its constraints, and the reservation is one of the request. -/
structure Kept (sub : Submission) (db : Database) : Prop where
  wf : db.Wf
  owned : ∀ q, db.reservation? sub.reservationId = some q → q.requestId = sub.requestId

section world

variable {cfg : Settings} {sub : Submission} {w w' : World} {o : Other} {l : WorkerLease}

theorem Kept.step {db db' : Database} {op : Database.Op} (h : Kept sub db) (hs : db.step op = some db')
    (hop : ∀ r h p m e lid, op ≠ .reserveQuota r h p m e sub.reservationId lid) : Kept sub db' := by
  refine ⟨Database.wf_step h.wf hs, fun q' hq' => ?_⟩
  obtain ⟨q, hq, hr, -⟩ := Database.reservation_step h.wf hs hop q' hq'
  rw [hr]
  exact h.owned q hq

theorem Settled.step {db db' : Database} {op : Database.Op} (h : Kept sub db)
    (hset : Settled sub.reservationId db) (hs : db.step op = some db')
    (hop : ∀ r h p m e lid, op ≠ .reserveQuota r h p m e sub.reservationId lid) :
    Settled sub.reservationId db' := by
  intro q' hq' hres
  obtain ⟨q, hq, -, hr⟩ := Database.reservation_step h.wf hs hop q' hq'
  exact hset q hq (hr hres)

theorem Linked.pop {m : WorkerLease} (h : Linked l w) (hm : m ∈ w.requestLeases) :
    Linked l (w.pop m) := by
  refine ⟨fun k hk => ?_, ?_⟩
  · rcases hk with hk | hk
    · exact h.only k (.inl (List.mem_of_mem_filter hk))
    · rcases List.mem_append.mp hk with hk | hk
      · exact h.only k (.inr hk)
      · rw [List.mem_singleton.mp hk]
        exact h.only m (.inl hm)
  · rcases h.held with hin | hr | hn
    · by_cases hreq : m.requestId = l.requestId
      · rw [h.only m (.inl hm) hreq]
        exact .inr (.inl (List.mem_append_right _ (List.mem_singleton_self l)))
      · exact .inl (List.mem_filter.mpr ⟨hin, by simpa using Ne.symm hreq⟩)
    · exact .inr (.inl (List.mem_append_left _ hr))
    · exact .inr (.inr hn)

/-- `release` at the worker; a release for the request is one of its lease. -/
theorem Linked.released {m : WorkerLease} {now : Datetime} (h : Linked l w)
    (hm : m.requestId = l.requestId → m = l) : Linked l (w.released m now) := by
  refine ⟨fun k hk => h.only k (hk.imp id List.mem_of_mem_erase), ?_⟩
  by_cases hreq : m.requestId = l.requestId
  · rw [hm hreq]
    exact .inr (.inr fun hadm => (Supervisor.admitted_release.mp hadm).2 ⟨rfl, rfl⟩)
  · have hne : l ≠ m := fun heq => hreq (by rw [heq])
    rcases h.held with hin | hr | hn
    · exact .inl hin
    · exact .inr (.inl ((List.mem_erase_of_ne hne).mpr hr))
    · exact .inr (.inr fun hadm => hn (Supervisor.admitted_release.mp hadm).1)

/-- The lease of the request stays linked, and once out of the map it stays out. -/
theorem Linked.step (h : Linked l w) (hl : l.requestId = sub.requestId) (ho : o.foreign sub = true)
    (hs : w.step cfg o = some w') :
    Linked l w' ∧ (l ∉ w.requestLeases → l ∉ w'.requestLeases) := by
  cases o with
  | database op =>
    obtain ⟨db, -, rfl⟩ := Option.map_eq_some_iff.mp hs
    exact ⟨⟨h.only, h.held⟩, id⟩
  | supervisor a =>
    obtain ⟨t, ht, rfl⟩ := Option.map_eq_some_iff.mp hs
    refine ⟨⟨h.only, ?_⟩, id⟩
    rcases h.held with hm | hr | hn
    · exact .inl hm
    · exact .inr (.inl hr)
    · refine .inr (.inr fun hadm => ?_)
      rcases Supervisor.admitted_step ht hadm with hadm | ⟨e, now, rfl⟩
      · exact hn hadm
      · simp [Other.foreign, hl] at ho
  | lease m =>
    cases hs
    have hne : m.requestId ≠ sub.requestId := by simpa [Other.foreign] using ho
    have hlm : l.requestId ≠ m.requestId := by
      rw [hl]
      exact hne.symm
    refine ⟨⟨fun k hk hreq => ?_, ?_⟩, fun hout hin => ?_⟩
    · rcases hk with hk | hk
      · rcases List.mem_append.mp hk with hk | hk
        · exact h.only k (.inl (List.mem_of_mem_filter hk)) hreq
        · rw [List.mem_singleton.mp hk] at hreq
          exact absurd hreq.symm hlm
      · exact h.only k (.inr hk) hreq
    · rcases h.held with hm | hrest
      · exact .inl (List.mem_append_left _ (List.mem_filter.mpr ⟨hm, by simpa using hlm⟩))
      · exact .inr hrest
    · rcases List.mem_append.mp hin with hin | hin
      · exact hout (List.mem_of_mem_filter hin)
      · exact hlm (by rw [List.mem_singleton.mp hin])
  | pop m =>
    obtain ⟨hm, hs⟩ := Option.ite_none_right_eq_some.mp hs
    cases hs
    exact ⟨h.pop hm, fun hout hin => hout (List.mem_of_mem_filter hin)⟩
  | released m now =>
    obtain ⟨hm, hs⟩ := Option.ite_none_right_eq_some.mp hs
    cases hs
    exact ⟨h.released (h.only m (.inr hm)), id⟩
  | workerFailed x =>
    obtain ⟨hx, hs⟩ := Option.ite_none_right_eq_some.mp hs
    cases hs
    refine ⟨⟨fun k hk => h.only k (hk.imp List.mem_of_mem_filter id), ?_⟩,
      fun hout hin => hout (List.mem_of_mem_filter hin)⟩
    by_cases hlx : l.workerId = x
    · refine .inr (.inr ?_)
      rintro ⟨y, hy, hr⟩
      rw [hlx] at hy
      rw [hy] at hx
      have hempty : y.admittedRequestIds = [] := by simpa using hx
      rw [hempty] at hr
      cases hr
    · rcases h.held with hm | hrest
      · exact .inl (List.mem_filter.mpr ⟨hm, by simpa using hlx⟩)
      · exact .inr hrest

theorem Fresh.step (h : Fresh sub.requestId w) (ho : o.foreign sub = true)
    (hs : w.step cfg o = some w') : Fresh sub.requestId w' := by
  cases o with
  | database op | supervisor a =>
    obtain ⟨t, -, rfl⟩ := Option.map_eq_some_iff.mp hs
    exact h
  | lease m =>
    cases hs
    have hne : m.requestId ≠ sub.requestId := by simpa [Other.foreign] using ho
    intro k hk
    rcases hk with hk | hk
    · rcases List.mem_append.mp hk with hk | hk
      · exact h k (.inl (List.mem_of_mem_filter hk))
      · rw [List.mem_singleton.mp hk]
        exact hne
    · exact h k (.inr hk)
  | pop m =>
    obtain ⟨hm, hs⟩ := Option.ite_none_right_eq_some.mp hs
    cases hs
    intro k hk
    rcases hk with hk | hk
    · exact h k (.inl (List.mem_of_mem_filter hk))
    · rcases List.mem_append.mp hk with hk | hk
      · exact h k (.inr hk)
      · rw [List.mem_singleton.mp hk]
        exact h m (.inl hm)
  | released m now =>
    obtain ⟨hm, hs⟩ := Option.ite_none_right_eq_some.mp hs
    cases hs
    exact fun k hk => h k (hk.imp id List.mem_of_mem_erase)
  | workerFailed x =>
    obtain ⟨hx, hs⟩ := Option.ite_none_right_eq_some.mp hs
    cases hs
    exact fun k hk => h k (hk.imp List.mem_of_mem_filter id)

/-- What holds of the world while the handler has been granted `lease`. -/
structure Sound (sub : Submission) (lease : Option WorkerLease) (w : World) : Prop where
  kept : Kept sub w.db
  linked : ∀ l, lease = some l → l.requestId = sub.requestId ∧ Linked l w
  fresh : lease = none → Fresh sub.requestId w

/-- The lease is out of the map. -/
def Out (lease : Option WorkerLease) (w : World) : Prop :=
  ∀ l, lease = some l → l ∉ w.requestLeases

variable {lease : Option WorkerLease}

/-- A step of another task leaves the database alone or makes one call. -/
theorem database_step (ho : o.foreign sub = true) (hs : w.step cfg o = some w') :
    w'.db = w.db ∨ ∃ op, w.db.step op = some w'.db ∧
      ∀ r h p m e lid, op ≠ .reserveQuota r h p m e sub.reservationId lid := by
  cases o with
  | database op =>
    obtain ⟨db, hdb, rfl⟩ := Option.map_eq_some_iff.mp hs
    refine .inr ⟨op, hdb, ?_⟩
    rintro r h p m e lid rfl
    simp [Other.foreign] at ho
  | supervisor a =>
    obtain ⟨t, -, rfl⟩ := Option.map_eq_some_iff.mp hs
    exact .inl rfl
  | lease m =>
    cases hs
    exact .inl rfl
  | pop m | released m now | workerFailed x =>
    obtain ⟨-, hs⟩ := Option.ite_none_right_eq_some.mp hs
    cases hs
    exact .inl rfl

theorem sound_step (h : Sound sub lease w) (ho : o.foreign sub = true) (hs : w.step cfg o = some w') :
    Sound sub lease w' := by
  refine ⟨?_, fun l hl => ?_, fun hl => (h.fresh hl).step ho hs⟩
  · rcases database_step ho hs with heq | ⟨op, hop, hne⟩
    · rw [heq]
      exact h.kept
    · exact h.kept.step hop hne
  · obtain ⟨hreq, hlinked⟩ := h.linked l hl
    exact ⟨hreq, (hlinked.step hreq ho hs).1⟩

theorem settled_step (h : Sound sub lease w) (hset : Settled sub.reservationId w.db)
    (ho : o.foreign sub = true) (hs : w.step cfg o = some w') : Settled sub.reservationId w'.db := by
  rcases database_step ho hs with heq | ⟨op, hop, hne⟩
  · rw [heq]
    exact hset
  · exact hset.step h.kept hop hne

theorem out_step (h : Sound sub lease w) (hout : Out lease w) (ho : o.foreign sub = true)
    (hs : w.step cfg o = some w') : Out lease w' := by
  intro l hl
  obtain ⟨hreq, hlinked⟩ := h.linked l hl
  exact (hlinked.step hreq ho hs).2 (hout l hl)

theorem turn_invariant {I : World → Prop} : ∀ {os : List Other} {w : World},
    (∀ w w' o, o ∈ os → I w → w.step cfg o = some w' → I w') → I w → I (w.turn cfg os)
  | [], _, _, hi => hi
  | o :: os, w, h, hi => by
    have hfirst : I ((w.step cfg o).getD w) := by
      cases hs : w.step cfg o with
      | none => exact hi
      | some w' => exact h w w' o List.mem_cons_self hi hs
    show I (World.turn cfg ((w.step cfg o).getD w) os)
    exact turn_invariant (fun w w' o' ho' => h w w' o' (List.mem_cons_of_mem _ ho')) hfirst

/-! ### The handler's own steps -/

theorem Sound.database {op : Database.Op} (h : Sound sub lease w) (hlink : op.linked w.db = true)
    (hop : ∀ r h p m e lid, op ≠ .reserveQuota r h p m e sub.reservationId lid) :
    Sound sub lease { w with db := w.db.run op } := by
  have hs : w.db.step op = some (w.db.run op) := if_pos hlink
  refine ⟨h.kept.step hs hop, fun l hl => ?_, h.fresh⟩
  obtain ⟨hreq, hlinked⟩ := h.linked l hl
  exact ⟨hreq, hlinked.only, hlinked.held⟩

theorem Sound.grant (h : Sound sub none w) (hl : l.requestId = sub.requestId) (now : Datetime) :
    Sound sub (some l) (w.grant l now) := by
  have hfresh := h.fresh rfl
  have hs : w.db.step (.markRequestAdmitted l.requestId l.workerId now) =
      some (w.db.run (.markRequestAdmitted l.requestId l.workerId now)) := rfl
  refine ⟨h.kept.step hs fun _ _ _ _ _ _ hop => (nomatch hop), fun m hm => ?_, fun hm => (nomatch hm)⟩
  obtain rfl : l = m := Option.some.inj hm
  refine ⟨hl, ⟨fun k hk hreq => ?_, .inl (List.mem_append_right _ (List.mem_singleton_self l))⟩⟩
  rcases hk with hk | hk
  · rcases List.mem_append.mp hk with hk | hk
    · exact absurd (hreq.trans hl) (hfresh k (.inl (List.mem_of_mem_filter hk)))
    · exact List.mem_singleton.mp hk
  · exact absurd (hreq.trans hl) (hfresh k (.inr hk))

section lease

variable (h : Sound sub (some l) w)

include h

/-- The lookup of the map by the request finds the lease, or it is out. -/
theorem Sound.mem_iff_any :
    w.requestLeases.any (·.requestId = l.requestId) = true ↔ l ∈ w.requestLeases := by
  refine ⟨fun hany => ?_, fun hmem => List.any_eq_true.mpr ⟨l, hmem, by simp⟩⟩
  obtain ⟨m, hm, heq⟩ := List.any_eq_true.mp hany
  rwa [(h.linked l rfl).2.only m (.inl hm) (by simpa using heq)] at hm

/-- A change of the leases and the workers that keeps the lease linked. -/
theorem Sound.of_linked (hdb : w'.db = w.db) (hlinked : Linked l w') : Sound sub (some l) w' := by
  refine ⟨hdb ▸ h.kept, fun k hk => ?_, fun hk => (nomatch hk)⟩
  obtain rfl : l = k := Option.some.inj hk
  exact ⟨(h.linked l rfl).1, hlinked⟩

theorem Sound.pop (hmem : l ∈ w.requestLeases) : Sound sub (some l) (w.pop l) :=
  h.of_linked rfl ((h.linked l rfl).2.pop hmem)

theorem Sound.released (now : Datetime) : Sound sub (some l) (w.released l now) :=
  h.of_linked rfl ((h.linked l rfl).2.released fun _ => rfl)

end lease

theorem out_pop (w : World) (l : WorkerLease) : Out (some l) (w.pop l) := by
  intro k hk hin
  obtain rfl : l = k := Option.some.inj hk
  simpa using (List.mem_filter.mp hin).2

/-- A settlement of the reservation settles it. -/
theorem settled_run {db : Database} (hk : Kept sub db) (n : ℤ) (p c : Option ℤ) (e : Option String)
    (lid : String) (now : Datetime) :
    Settled sub.reservationId (db.run (.settleQuota sub.reservationId n p c e lid now)) := by
  obtain ⟨db', hok, hset⟩ := Database.settleQuota_settles hk.wf sub.reservationId n p c e lid now
  intro q hq
  simp only [Database.run, hok, Transactions.commit] at hq
  exact hset q hq

end world

end Gateway
end LlmRio
