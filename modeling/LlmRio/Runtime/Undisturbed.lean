/-
# Submissions that do not disturb each other

When an id is only repeated after the request of before is over, two handlers
with one id share a request that has ended and of which no lease is left
(`Inv.shared`). What the later one does then reaches neither the earlier one's
reservation, which is settled, nor its admission. And a request that a worker
serves has its reservation RESERVED until the completion charges it.

Otherwise the ways of the two cross: the second submission is admitted to the
worker of the first, is found to be QUEUED no longer, and takes the admission
and the reservation of the first with it (`free_service`).

Key definitions: `Holds`, `Undisturbed`.
Key theorems: `Inv.spares`, `Inv.charges`, `undisturbed`.
-/
import LlmRio.Runtime.Repeats

namespace LlmRio
namespace Submissions

open Runs
open Database (HasRow Ended Backs Sound)
open Gateway (WorkerLease)
open Supervisor (oneGpu)

variable {cfg : Settings} {s s' : State} {k : ℕ} {h : Handler} {pc : Pc}

/-! ### What a step changes -/

theorem handler_place {m : Move} (hs : handlerStep cfg s k h pc m = some s') :
    ∃ pc', s'.handlers = s.handlers.set k { h with pc := pc' } := by
  unfold handlerStep at hs
  split at hs
  all_goals grind [createSection, enqueueSection, removeSection, popSection, State.goto, State.call, State.pop,
    Option.map_eq_some_iff]

theorem handler_supervisor {m : Move} (hs : handlerStep cfg s k h pc m = some s') :
    s'.supervisor = s.supervisor ∨ ∃ l, pc = .releasing l := by
  unfold handlerStep at hs
  split at hs
  all_goals grind [createSection, enqueueSection, removeSection, popSection, State.goto, State.call, State.pop,
    Option.map_eq_some_iff]

theorem handler_db {m : Move} (hs : handlerStep cfg s k h pc m = some s') :
    s'.db = s.db ∨ ∃ op : Database.Op, s'.db = s.db.run op ∧
        (op = h.store ∨ ∃ st, op.settles h.reservationId = some st) := by
  unfold handlerStep at hs
  split at hs
  case h_1 =>
    cases hs
    unfold createSection
    split
    · exact .inr ⟨h.store, rfl, .inl rfl⟩
    · exact .inl rfl
  case h_15 | h_16 =>
    cases hs
    exact .inr ⟨_, rfl, .inr ⟨_, Database.settles_release _ _ _ _⟩⟩
  case h_17 =>
    cases hs
    exact .inr ⟨_, rfl, .inr ⟨_, Database.settles_settle _ _ _ _ _ _ _⟩⟩
  all_goals
    left
    grind [enqueueSection, removeSection, popSection, State.goto, State.pop, Option.map_eq_some_iff]

theorem sameKeys_handler (hk : s.handlers[k]? = some h) {m : Move} (hs : handlerStep cfg s k h pc m = some s') :
    SameKeys s s' := by
  obtain ⟨pc', hset⟩ := handler_place hs
  intro j g hj
  rw [hset] at hj
  exact sameKeys_goto hk pc' j g hj

theorem sameKeys_router {router : Router} {t : Turn} (hs : routerStep cfg s router t = some s') : SameKeys s s' := by
  have hassign : ∀ (s : State) (k : ℕ) (pc : Pc), SameKeys s (s.assign k pc) := by
    intro s k pc
    unfold State.assign
    cases hw : s.waiting? k with
    | none => exact .of_eq rfl
    | some h => exact sameKeys_goto (waiting_eq hw).1 pc
  unfold routerStep at hs
  split at hs
  -- the turns that set an assignment
  case h_6 models r w =>
    cases hs
    unfold grantSection
    simp only
    cases hw : s.waiting? r.assignment with
    | none => exact .of_eq rfl
    | some h => exact sameKeys_goto (s := s) (waiting_eq hw).1 _
  case h_8 models r ok lid now =>
    cases hs
    unfold refuseSection
    cases ok with
    | false => exact hassign s _ _
    | true => exact hassign (s.call _) _ _
  all_goals
    refine .of_eq ?_
    grind [routeSection, markSection, returnSection, State.call, State.pop, Option.map_eq_some_iff]

/-- What a turn for a request does to the database: it marks the request, or
settles its reservation. -/
theorem router_db {models : List ModelId} {r : QueuedRequest} {phase : Phase} {t : Turn}
    (hs : routerStep cfg s (.busy models r phase) t = some s') :
    s'.db = s.db ∨ ∃ op : Database.Op, s'.db = s.db.run op ∧
      ((∃ w now, op = .markRequestAdmitted r.id w now) ∨ ∃ st, op.settles r.reservationId = some st) := by
  have hassign : ∀ (s : State) (k : ℕ) (pc : Pc), (s.assign k pc).db = s.db := by
    intro s k pc
    unfold State.assign
    cases s.waiting? k <;> rfl
  generalize hb : Router.busy models r phase = router at hs
  unfold routerStep at hs
  split at hs
  -- `mark_request_admitted`
  case h_5 =>
    cases hb
    cases hs
    unfold markSection
    split
    · exact .inr ⟨_, rfl, .inl ⟨_, _, rfl⟩⟩
    · exact .inl rfl
  -- the two calls of `release_reservation`
  case h_8 models r ok lid now =>
    cases hb
    cases hs
    unfold refuseSection
    cases ok with
    | false => exact .inl (hassign s _ _)
    | true =>
      exact .inr ⟨.releaseReservation r.reservationId "admission_failed" lid now, hassign (s.call _) r.assignment _,
        .inr ⟨_, Database.settles_release _ _ _ _⟩⟩
  case h_9 =>
    cases hb
    cases hs
    exact .inr ⟨_, rfl, .inr ⟨_, Database.settles_release _ _ _ _⟩⟩
  all_goals
    left
    grind [routeSection, grantSection, returnSection, State.pop, State.goto, Option.map_eq_some_iff]

/-! ### What an earlier submission keeps -/

/-- The worker has admitted the request for the handler `i`: it has a lease of
it, or the router is about to store one. -/
def Holds (s : State) (i : ℕ) (h : Handler) (w : WorkerId) : Prop :=
  Supervisor.Admitted s.supervisor w h.sub.requestId ∧
    ((∃ l ∈ s.requestLeases, l.requestId = h.sub.requestId ∧ l.workerId = w) ∨
      (∃ l, h.pc.lease? = some l ∧ l.workerId = w) ∨
      ∃ models r phase, s.router = .busy models r phase ∧ r.assignment = i ∧ phase.worker? = some w)

/-- The submissions of a key do not disturb each other, and none is served
for free. -/
structure Undisturbed (cfg : Settings) (s : State) : Prop where
  /-- A step for a later submission of the id leaves the earlier one's
  reservation and admission as they are. -/
  spares : ∀ (a : Act) (s' : State) (i j : ℕ) (h h' : Handler), step cfg s a = some s' → actor s a = some j →
    s.handlers[i]? = some h → s'.handlers[j]? = some h' → i < j → h.sub.requestId = h'.sub.requestId →
    s'.db.reservation? h.reservationId = s.db.reservation? h.reservationId ∧
      ∀ w, Holds s i h w → Supervisor.Admitted s'.supervisor w h.sub.requestId
  /-- While a worker serves a request its reservation is RESERVED, and its
  completion charges what the worker has counted. -/
  charges : ∀ (k : ℕ) (h : Handler) (l : WorkerLease), s.handlers[k]? = some h → h.pc = .serving l →
    ∃ q, s.db.reservation? h.reservationId = some q ∧ q.requestId = h.sub.requestId ∧ q.state = .reserved ∧
      ∀ n p c e lid now, ∃ s', step cfg s (.handler k (.settle n p c e lid now)) = some s' ∧
        s'.db.reservation? h.reservationId =
            some (Database.closedReservation (min (max 0 n) q.reservedTokens) now q) ∧
          s'.db.account? q.accountId = (s.db.account? q.accountId).map
            (Database.credited (q.reservedTokens - min (max 0 n) q.reservedTokens))

/-- Of two handlers with one id, the request has ended, and neither holds a
lease of it. -/
theorem Inv.shared (hi : Inv s) {i j : ℕ} {h g : Handler} (hh : s.handlers[i]? = some h)
    (hg : s.handlers[j]? = some g) (hne : i ≠ j) (hid : g.sub.requestId = h.sub.requestId) :
    Ended s.db h.sub.requestId ∧ (∀ l ∈ s.requestLeases, l.requestId ≠ h.sub.requestId) ∧ h.pc.lease? = none ∧
      g.pc.lease? = none := by
  have hrid := hi.toBacked.reservation_eq hh hg hid
  have hnot : ¬ Alone s h.reservationId := fun ha => hne (ha i j h g hh hg rfl hrid)
  refine ⟨(hi.ended i h hh).resolve_right hnot, fun l hl hreq => ?_, ?_, ?_⟩
  · obtain ⟨ha, k, f, hk, hof⟩ := hi.leases l hl
    have hsame := hi.toBacked.reservation_eq hh hk (hof.2.symm.trans hreq)
    exact hnot (hsame ▸ hof.1 ▸ ha)
  · rw [Option.eq_none_iff_forall_ne_some]
    exact fun l hl => hnot (hi.holder i h l hh hl).1
  · rw [Option.eq_none_iff_forall_ne_some]
    exact fun l hl => hnot (hrid ▸ (hi.holder j g l hg hl).1)

/-- What a later submission asks of the database does not reach a reservation
that is settled. -/
theorem Inv.settled (hi : Inv s) (hk : s.handlers[k]? = some h) (hend : Ended s.db h.sub.requestId)
    {op : Database.Op} {st : Settlement} (hop : op.settles h.reservationId = some st) : s.db.run op = s.db :=
  Database.run_closed ((hi.backs k h hk).closed hi.sound hend) hop

theorem Inv.spares (hi : Inv s) {a : Act} {i j : ℕ} {h h' : Handler} (hs : step cfg s a = some s')
    (ha : actor s a = some j) (hh : s.handlers[i]? = some h) (hh' : s'.handlers[j]? = some h') (hij : i < j)
    (hid : h.sub.requestId = h'.sub.requestId) :
    s'.db.reservation? h.reservationId = s.db.reservation? h.reservationId ∧
      ∀ w, Holds s i h w → Supervisor.Admitted s'.supervisor w h.sub.requestId := by
  have hne := Nat.ne_of_lt hij
  cases a with
  | submit sub rid lid =>
    unfold step at hs
    simp only at hs
    split at hs
    · rename_i db rid' hres
      cases hs
      obtain ⟨q, hq, -⟩ := hi.backs i h hh
      exact ⟨(Database.reserve_kept hres hq).trans hq.symm, fun w hw => hw.1⟩
    · cases hs
  | handler k m =>
    cases ha
    obtain ⟨g, hg, hs⟩ := Option.bind_eq_some_iff.mp hs
    obtain ⟨g', hg', hsub, -⟩ := sameKeys_handler hg hs j h' hh'
    cases hg.symm.trans hg'
    obtain ⟨hend, -, -, hlease⟩ := hi.shared hh hg hne (hsub ▸ hid.symm)
    have hrid := hi.toBacked.reservation_eq hh hg (hsub ▸ hid.symm)
    constructor
    · rcases handler_db hs with hdb | ⟨op, hdb, rfl | ⟨st, hop⟩⟩
      · rw [hdb]
      · rw [hdb]
        exact Database.reservation_created _
      · rw [hdb, hi.settled hh hend (hrid ▸ hop)]
    · rintro w ⟨hadm, -⟩
      rcases handler_supervisor hs with hsup | ⟨l, hpc⟩
      · rwa [hsup]
      · rw [hpc] at hlease
        cases hlease
  | router t =>
    obtain ⟨r, hr, hrj⟩ := Option.map_eq_some_iff.mp ha
    obtain ⟨models, phase, hb⟩ : ∃ models phase, s.router = .busy models r phase := by
      revert hr
      cases s.router <;> simp [Router.request?]
    obtain ⟨f, hf⟩ := hi.entry r (mem_pending hb)
    obtain ⟨g, hg, hsub, -⟩ := sameKeys_router hs j h' hh'
    cases (hrj ▸ hf.handler).symm.trans hg
    obtain ⟨hend, hleases, hlease, -⟩ := hi.shared hh hg hne (hsub ▸ hid.symm)
    have hrid := hi.toBacked.reservation_eq hh hg (hsub ▸ hid.symm)
    constructor
    · have hs : routerStep cfg s (.busy models r phase) t = some s' := hb ▸ hs
      rcases router_db hs with hdb | ⟨op, hdb, ⟨w, now, rfl⟩ | ⟨st, hop⟩⟩
      · rw [hdb]
      · rw [hdb]
        exact Database.reservation_marked _
      · rw [hdb, hi.settled hh hend (hrid ▸ hf.reservation ▸ hop)]
    · rintro w ⟨-, ⟨l, hl, hreq, -⟩ | ⟨l, hl, -⟩ | ⟨models', r', phase', hb', hri, -⟩⟩
      · exact absurd hreq (hleases l hl)
      · rw [hlease] at hl
        cases hl
      · cases hb.symm.trans hb'
        exact absurd (hri.symm.trans hrj) hne
  | supervisor b => cases ha

theorem Inv.charges (hi : Inv s) {l : WorkerLease} (hk : s.handlers[k]? = some h) (hpc : h.pc = .serving l) :
    ∃ q, s.db.reservation? h.reservationId = some q ∧ q.requestId = h.sub.requestId ∧ q.state = .reserved ∧
      ∀ n p c e lid now, ∃ s', step cfg s (.handler k (.settle n p c e lid now)) = some s' ∧
        s'.db.reservation? h.reservationId =
            some (Database.closedReservation (min (max 0 n) q.reservedTokens) now q) ∧
          s'.db.account? q.accountId = (s.db.account? q.accountId).map
            (Database.credited (q.reservedTokens - min (max 0 n) q.reservedTokens)) := by
  have hend : ¬ Ended s.db h.sub.requestId := hi.live k h hk (.inl (by rw [hpc]; rfl))
  obtain ⟨q, hq, hreq, hstate⟩ := hi.backs k h hk
  have hreserved := hstate.resolve_left hend
  refine ⟨q, hq, hreq, hreserved, fun n p c e lid now => ?_⟩
  have hstep : step cfg s (.handler k (.settle n p c e lid now)) =
      some ((s.call (.settleQuota h.reservationId n p c e lid now)).goto k h (.settled l)) := by
    simp only [step, hk, Option.bind_some, hpc]
    rfl
  obtain ⟨hres, -, hacct⟩ := Database.run_reserved hi.sound.wf hq hreserved
    (Database.settles_settle h.reservationId n p c e lid now)
  exact ⟨_, hstep, hres, hacct⟩

/-! ### Runs -/

theorem inv_start {db : Database} (hdb : Sound db) (total tenant : Option ℕ) : Inv (start db total tenant) := by
  have hnone : ∀ (k : ℕ) (h : Handler), (start db total tenant).handlers[k]? ≠ some h := by
    intro k h hk
    cases hk
  refine ⟨⟨hdb, ?_, ?_, ?_⟩, ⟨List.nodup_nil, fun r hr => absurd hr List.not_mem_nil⟩,
    ⟨fun l hl => absurd hl List.not_mem_nil, ?_, ?_, ?_⟩⟩
  · exact fun k h hk => absurd hk (hnone k h)
  · exact fun k h hk => absurd hk (hnone k h)
  · exact fun k h hk => absurd hk (hnone k h)
  · exact fun k h l hk => absurd hk (hnone k h)
  · exact fun k h hk => absurd hk (hnone k h)
  · intro models r phase hr
    cases hr

/-- **Submissions do not disturb each other**, in every run in which an id is
only repeated when the request of before is over. -/
theorem undisturbed (models : List CatalogModel) (ops : List Database.Op) (db : Database)
    (hdb : exec Database.step (Database.fresh models) ops = some db) (cfg : Settings) (total tenant : Option ℕ)
    (as : List Act) (s : State)
    (h : exec (restrict (step cfg) fun s a => unrepeated s a = true) (start db total tenant) as = some s) :
    Undisturbed cfg s := by
  have hsound : Sound db :=
    exec_invariant (fun _ _ _ hd hs => Database.sound_step hd hs) (Database.sound_fresh models) hdb
  have hi : Inv s := by
    refine exec_invariant (fun _ _ _ hi hs => ?_) (inv_start hsound total tenant) h
    obtain ⟨ha, hs⟩ := restrict_eq_some.mp hs
    exact inv_step hi ha hs
  exact ⟨fun a s' i j g g' hs ha hg hg' hij hid => hi.spares hs ha hg hg' hij hid,
    fun k g l hk hpc => hi.charges hk hpc⟩

/-! ### The first request of an id and the second -/

/-- A key, and one model. -/
def oneKey : List Database.Op := [.createKey "k" "alice" .user "acct" "alice" "rio_k" 100 false]

def oneCatalog : List CatalogModel := [⟨"model", "model", .available, none⟩]

/-- What the client sends. -/
def chat : Submission := ⟨"r", "h", ⟨"k", "acct"⟩, "model", 60, false⟩

/-- A worker is launched and READY. -/
def workerReady : List Act :=
  ([.launch (oneGpu "static") ["gpu"] "w" 0, .launchSpawned 1, .launchDone, .task 0 true 1 0] :
    List Supervisor.Act).map .supervisor

/-- The handler `k` comes to wait for its assignment, and the router admits
its request to the worker. -/
def queuedAndMarked (k : ℕ) (rid lid : String) : List Act :=
  [.submit chat rid lid, .handler k .create, .handler k (.enqueue 1), .router .tick, .router .route,
    .router (.admitRequest 2), .router (.mark true 2)]

/-- The worker serves the first submission. -/
def serving : List Act :=
  workerReady ++ queuedAndMarked 0 "q1" "l1" ++
    [.router .grant, .router .route, .router .route, .handler 0 .resume]

/-- The id comes again: the request is QUEUED no longer, so the router releases
the admission and settles the reservation. -/
def repeatedRun : List Act :=
  serving ++ queuedAndMarked 1 "q2" "l2" ++ [.router (.retract 3), .router (.refuse true "l3" 3)]

/-- The first submission ends, and the id comes again. -/
def repeatedAfter : List Act :=
  serving ++ [.handler 0 (.settle 50 (some 10) (some 40) none "l4" 4), .handler 0 .pop, .handler 0 (.free 5)] ++
    queuedAndMarked 1 "q2" "l2" ++ [.router (.retract 6), .router (.refuse true "l3" 6)]

/-- The first submission is served, and its reservation has been settled with
nothing. -/
theorem repeated_run : ∃ db s, exec Database.step (Database.fresh oneCatalog) oneKey = some db ∧
    exec (step {}) (start db none none) repeatedRun = some s ∧
      ∃ h l q, s.handlers[0]? = some h ∧ h.pc = .serving l ∧ s.db.reservation? h.reservationId = some q ∧
        q.state = .settled ∧ q.actualTokens = some 0 := by
  let served : State → Bool := fun s => s.handlers[0]?.any fun h =>
    h.pc = .serving ⟨"w", "r", "q1", 60⟩ ∧
      (s.db.reservation? h.reservationId).any fun q => q.state = .settled ∧ q.actualTokens = some 0
  have hrun : ((exec Database.step (Database.fresh oneCatalog) oneKey).bind fun db =>
      exec (step {}) (start db none none) repeatedRun).map served = some true := by decide +kernel
  obtain ⟨s, hs, hserved⟩ := Option.map_eq_some_iff.mp hrun
  obtain ⟨db, hdb, hs⟩ := Option.bind_eq_some_iff.mp hs
  obtain ⟨h, hh, hp⟩ := (Option.any_eq_true _ _).mp hserved
  obtain ⟨hpc, hq⟩ := of_decide_eq_true hp
  obtain ⟨q, hq, hq'⟩ := (Option.any_eq_true _ _).mp hq
  obtain ⟨hstate, hactual⟩ := of_decide_eq_true hq'
  exact ⟨db, s, hdb, hs, h, _, q, hh, hpc, hq, hstate, hactual⟩

/-- A worker serves the first submission, and nothing will be charged. -/
theorem free_service : ∃ db s, exec Database.step (Database.fresh oneCatalog) oneKey = some db ∧
    exec (step {}) (start db none none) repeatedRun = some s ∧ ¬ Undisturbed {} s := by
  obtain ⟨db, s, hdb, hs, h, l, q, hh, hpc, hq, hsettled, -⟩ := repeated_run
  refine ⟨db, s, hdb, hs, fun hund => ?_⟩
  obtain ⟨q', hq', -, hreserved, -⟩ := hund.charges 0 h l hh hpc
  obtain rfl : q = q' := Option.some.inj (hq.symm.trans hq')
  rw [hsettled] at hreserved
  cases hreserved

theorem undisturbed_repeated : ∃ db s, exec Database.step (Database.fresh oneCatalog) oneKey = some db ∧
    exec (restrict (step {}) fun s a => unrepeated s a = true) (start db none none) repeatedAfter = some s ∧
      s.handlers.map (·.sub) = [chat, chat] ∧ Undisturbed {} s := by
  have hrun : ((exec Database.step (Database.fresh oneCatalog) oneKey).bind fun db =>
      exec (restrict (step {}) fun s a => unrepeated s a = true) (start db none none) repeatedAfter).map
        (fun s => s.handlers.map (·.sub)) = some [chat, chat] := by decide +kernel
  obtain ⟨s, hs, hsubs⟩ := Option.map_eq_some_iff.mp hrun
  obtain ⟨db, hdb, hs⟩ := Option.bind_eq_some_iff.mp hs
  exact ⟨db, s, hdb, hs, hsubs, undisturbed oneCatalog oneKey db hdb {} none none repeatedAfter s hs⟩

end Submissions
end LlmRio
