/-
# The order in which requests are taken

In the joint system the queue of a model is changed by the handlers that put and
remove requests and by the router that takes them, in any order. What each step
does to it is one operation of the queue or none (`QueueStep`), so the queue
stays well formed and has the requests of a tenant in the order in which they
were accepted (`queued_step`).

Whenever the router takes a request, every request of its tenant that still
waits has been accepted later (`taken_in_order`). While a request is the first
one of its tenant, other tenants overtake it a bounded number of times
(`bounded_overtaking`): what the router takes from another tenant is paid for by
its `debt`, which no step raises (`debt_step`).

Key definitions: `takes`, `QueueStep`, `Lined`, `Queued`.
Key theorems: `queue_step`, `queued_step`, `debt_step`, `taken_in_order`,
`bounded_overtaking`.
-/
import LlmRio.Runtime.Starvation
import LlmRio.Runtime.Pressures
import LlmRio.Runtime.Guarantees

namespace LlmRio

open Runs Rotation

namespace DeficitRoundRobinQueue

variable {q q' : DeficitRoundRobinQueue} {t u : AccountId} {r r' : QueuedRequest} {c : ℤ}

theorem debt_first (hrep : Rep q) (hq : 0 < q.quantum) (hwait : Waits t r q.queues) :
    debt q.quantum r.estimatedTokens t u q.queues q.deficits ≤ max 1 ⌈(r.estimatedTokens : ℚ) / q.quantum⌉ := by
  have hdeficit : 0 ≤ (q.deficits t).getD 0 := by
    obtain ⟨d, hd⟩ := Option.isSome_iff_exists.mp ((hrep.sameTenants t).mpr hwait.mem)
    rw [hd, Option.getD_some]
    exact hrep.nonneg t d hd
  have hrounds := rounds_le (c := r.estimatedTokens) hq hdeficit
  unfold debt
  split <;> omega

/-- A removal raises no debt to a tenant that still waits. -/
theorem debt_remove {id : RequestId} (hrep : Rep q) (hremove : q.remove id = some (r', q'))
    (hwait : t ∈ q'.queues.map (·.1)) :
    debt q.quantum c t u q'.queues q'.deficits ≤ debt q.quantum c t u q.queues q.deficits := by
  unfold remove at hremove
  obtain ⟨⟨r0, queues', emptied⟩, hfrom, heq⟩ := Option.map_eq_some_iff.mp hremove
  cases heq
  obtain ⟨pre, x, rs, post, hqueues, -, hcases⟩ := removeFrom_eq hfrom
  have htenants := hrep.tenants
  rw [hqueues] at htenants ⊢
  rcases hcases with ⟨-, rfl, rfl⟩ | ⟨-, rfl, rfl⟩
  · -- the entry of `x` goes with its last request
    have hnot : x ∉ (pre ++ post).map (·.1) := by
      rw [(List.perm_middle.map _).nodup_iff, List.map_cons, List.nodup_cons] at htenants
      exact htenants.1
    have hxt : x ≠ t := fun heq => hnot (heq ▸ hwait)
    unfold debt
    simp only [Option.elim_some, Function.update_of_ne (Ne.symm hxt), List.map_append, List.map_cons]
    by_cases hxu : x = u
    · subst hxu
      rw [← List.map_append, ahead_of_not_mem hnot, if_neg Bool.false_ne_true]
      split <;> omega
    · rw [ahead_leave hxu hxt]
  · unfold debt
    simp only [Option.elim_none, List.map_append, List.map_cons, le_refl]

end DeficitRoundRobinQueue

namespace Routing

open DeficitRoundRobinQueue (Rep ofTenant debt Waits SameConfig)

variable {cfg : Settings} {s s' : State} {m : ModelId}

/-- The request that the router takes in a step, and the model from whose queue. -/
def takes (s s' : State) : Option (ModelId × QueuedRequest) :=
  match s.scheduler, s'.scheduler with
  | .routing _, .busy (m :: _) r _ => some (m, r)
  | _, _ => none

/-- What a step does to the queue of the model. -/
inductive QueueStep (m : ModelId) (s s' : State) : Prop
  | same (hq : s'.queues.forModel m = s.queues.forModel m)
      (ha : s.history.accepted.Sublist s'.history.accepted) (ht : ∀ r, takes s s' ≠ some (m, r))
  | put (r : QueuedRequest) (hm : r.modelId = m) (hput : (s.queues.forModel m).put r = some (s'.queues.forModel m))
      (ha : s'.history.accepted = s.history.accepted ++ [r.id]) (ht : takes s s' = none)
  | removed (id : RequestId) (r : QueuedRequest)
      (hr : (s.queues.forModel m).remove id = some (r, s'.queues.forModel m))
      (ha : s'.history.accepted = s.history.accepted) (ht : takes s s' = none)
  | took (r : QueuedRequest) (hpop : (s.queues.forModel m).pop = some (r, s'.queues.forModel m))
      (ha : s'.history.accepted = s.history.accepted) (ht : takes s s' = some (m, r))

theorem takes_same (h : s'.scheduler = s.scheduler) : takes s s' = none := by
  unfold takes
  rw [h]
  split
  · rename_i h1 h2
    rw [h1] at h2
    cases h2
  · rfl

theorem takes_idle (h : s'.scheduler.request? = none) : takes s s' = none := by
  unfold takes
  split
  · rename_i hbusy
    rw [hbusy] at h
    cases h
  · rfl

theorem not_takes (h : takes s s' = none) (r : QueuedRequest) : takes s s' ≠ some (m, r) := by
  rw [h]
  exact Option.some_ne_none _ |>.symm

theorem QueueStep.frame (hq : s'.queues = s.queues) (ha : s'.history.accepted = s.history.accepted)
    (ht : takes s s' = none) : QueueStep m s s' :=
  .same (by rw [hq]) (by rw [ha]) (not_takes ht)

theorem QueueStep.handler {k : ℕ} {h : Handler} (he : HandlerEffect cfg s k h s') : QueueStep m s s' := by
  cases he with
  | accepted hpc hlock hput =>
    rename_i now
    rcases s.queues.forModel_put (h.queued k now) m with ⟨hfull, -⟩ | ⟨-, q, hq, hmodel⟩
    · rw [hput] at hfull
      cases hfull
    · by_cases hm : m = (h.queued k now).modelId
      · rw [if_pos hm] at hmodel
        subst hm
        exact .put (h.queued k now) rfl (hq.trans (congrArg some hmodel.symm)) rfl (takes_same rfl)
      · rw [if_neg hm] at hmodel
        exact .same hmodel (List.sublist_append_left _ _) (not_takes (takes_same rfl))
  | full hpc hput =>
    rename_i now
    rcases s.queues.forModel_put (h.queued k now) m with ⟨-, hmodel⟩ | ⟨hput', -⟩
    · exact .same hmodel (List.Sublist.refl _) (not_takes (takes_same rfl))
    · rw [hput] at hput'
      cases hput'
  | removed hpc hlock hr =>
    obtain ⟨q, hremove, hmodel⟩ := ModelQueues.forModel_remove hr
    by_cases hm : m = h.sub.modelId
    · subst hm
      have hself := hmodel h.sub.modelId
      rw [if_pos rfl] at hself
      exact .removed _ _ (hremove.trans (by rw [← hself]; rfl)) rfl (takes_same rfl)
    · have hother := hmodel m
      rw [if_neg hm] at hother
      exact .same hother (List.Sublist.refl _) (not_takes (takes_same rfl))
  | touched => exact .frame rfl rfl (takes_same rfl)
  | gone => exact .frame rfl rfl (takes_same rfl)
  | _ => exact .frame rfl rfl (takes_same rfl)

theorem QueueStep.scheduler (he : SchedulerEffect cfg s s') : QueueStep m s s' := by
  cases he with
  | took hb hpop =>
    rename_i m' models w r q
    have hmodel : (s.queues.update m' q).forModel m
        = if m = m' then q else s.queues.forModel m :=
      ModelQueues.forModel_update m' m q
    by_cases hm : m = m'
    · subst hm
      rw [if_pos rfl] at hmodel
      refine .took r (hpop.trans ?_) rfl (by simp only [takes, hb])
      exact congrArg some (Prod.ext rfl hmodel.symm)
    · rw [if_neg hm] at hmodel
      refine .same hmodel (List.Sublist.refl _) fun r' hr' => ?_
      simp only [takes, hb, Option.some.injEq, Prod.mk.injEq] at hr'
      exact hm hr'.1.symm
  | duty hb hd =>
    obtain ⟨hq, -, -, -, ha, -⟩ := hd.frame
    exact .frame hq ha (by simp only [takes, hb])
  | routes hb hnew =>
    refine .frame rfl rfl (takes_idle ?_)
    rcases hnew with rfl | ⟨models, rfl⟩ <;> rfl
  | _ => exact .frame rfl rfl (by simp only [takes, *])

theorem queue_step {a : Act} (hs : step cfg s a = some s') : QueueStep m s s' := by
  cases step_effect hs with
  | handler hk he => exact .handler he
  | scheduler he => exact .scheduler he
  | event hj he =>
    obtain ⟨hq, -, hb, -, ha, -⟩ := he.frame
    exact .frame hq ha (takes_same hb)
  | submitted => exact .frame rfl rfl (takes_same rfl)
  | supervisor => exact .frame rfl rfl (takes_same rfl)
  | aborted => exact .frame rfl rfl (takes_idle rfl)

/-! ### What is in the queues -/

/-- The queue is well formed and has the requests of its model, and those of a
tenant are in the order in which they were accepted. -/
structure Lined (accepted : List RequestId) (m : ModelId) (q : DeficitRoundRobinQueue) : Prop where
  rep : Rep q
  quantum : q.quantum = 4096
  model : ∀ r ∈ q.requests, r.modelId = m
  inOrder : ∀ t, ((ofTenant t q.requests).map (·.id)).Sublist accepted

def Queued (s : State) : Prop := ∀ m, Lined s.history.accepted m (s.queues.forModel m)

section lined

variable {accepted : List RequestId} {q q' : DeficitRoundRobinQueue} {r : QueuedRequest}

theorem Lined.pos (h : Lined accepted m q) : 0 < q.quantum := by
  rw [h.quantum]
  decide

theorem Lined.put (h : Lined accepted r.modelId q) (hput : q.put r = some q') :
    Lined (accepted ++ [r.id]) r.modelId q' where
  rep := DeficitRoundRobinQueue.rep_put h.rep hput
  quantum := (DeficitRoundRobinQueue.put_config hput).2.2.trans h.quantum
  model r' hr' := by
    rcases List.mem_cons.mp ((DeficitRoundRobinQueue.put_perm hput).mem_iff.mp hr') with rfl | hr'
    · rfl
    · exact h.model r' hr'
  inOrder t := by
    rw [DeficitRoundRobinQueue.ofTenant_put h.rep hput, DeficitRoundRobinQueue.ofTenant_append, List.map_append]
    refine (h.inOrder t).append ?_
    rw [DeficitRoundRobinQueue.ofTenant_singleton]
    split
    · exact List.Sublist.refl _
    · exact List.nil_sublist _

theorem Lined.remove {id : RequestId} (h : Lined accepted m q) (hr : q.remove id = some (r, q')) :
    Lined accepted m q' where
  rep := DeficitRoundRobinQueue.rep_remove h.rep hr
  quantum := (DeficitRoundRobinQueue.remove_config hr).2.2.trans h.quantum
  model r' hr' := h.model r' ((DeficitRoundRobinQueue.remove_perm hr).2.mem_iff.mpr (List.mem_cons_of_mem _ hr'))
  inOrder t := ((DeficitRoundRobinQueue.ofTenant_remove hr t).map _).trans (h.inOrder t)

/-- The request that is taken was the first of its tenant. -/
theorem Lined.first (h : Lined accepted m q) (hpop : q.pop = some (r, q')) :
    ((r :: ofTenant r.tenantId q'.requests).map (·.id)).Sublist accepted := by
  have hsame := DeficitRoundRobinQueue.ofTenant_pop h.rep h.pos hpop r.tenantId
  have horder := h.inOrder r.tenantId
  rw [hsame] at horder
  simpa [ofTenant] using horder

theorem Lined.pop (h : Lined accepted m q) (hpop : q.pop = some (r, q')) : Lined accepted m q' where
  rep := DeficitRoundRobinQueue.rep_pop h.rep h.pos hpop
  quantum := (DeficitRoundRobinQueue.pop_config hpop).2.2.trans h.quantum
  model r' hr' := h.model r' ((DeficitRoundRobinQueue.pop_perm hpop).mem_iff.mpr (List.mem_cons_of_mem _ hr'))
  inOrder t := by
    have hless : (ofTenant t q'.requests).Sublist (ofTenant t (r :: q'.requests)) :=
      (List.sublist_cons_self r q'.requests).filter _
    rw [← DeficitRoundRobinQueue.ofTenant_pop h.rep h.pos hpop t] at hless
    exact (hless.map _).trans (h.inOrder t)

end lined

theorem queued_start (db : Database) (total tenant : Option ℕ) : Queued (start db total tenant) := fun _ =>
  { rep := DeficitRoundRobinQueue.rep_new total tenant 4096
    quantum := rfl
    model := fun _ hr => absurd hr List.not_mem_nil
    inOrder := fun _ => List.nil_sublist _ }

theorem queued_step {a : Act} (h : Queued s) (hs : step cfg s a = some s') : Queued s' := by
  intro m
  have hm := h m
  cases queue_step (m := m) hs with
  | same hq ha ht =>
    rw [hq]
    exact { hm with inOrder := fun t => (hm.inOrder t).trans ha }
  | put r hmodel hput ha ht =>
    subst hmodel
    rw [ha]
    exact hm.put hput
  | removed id r hr ha ht =>
    rw [ha]
    exact hm.remove hr
  | took r hpop ha ht =>
    rw [ha]
    exact hm.pop hpop

/-! ### Overtaking -/

/-- A step pays for what the router takes from another tenant. -/
theorem debt_step {a : Act} {t u : AccountId} {r : QueuedRequest} (h : Queued s) (hut : u ≠ t)
    (hn : s.history.accepted.Nodup) (hfirst : (ofTenant t (s.queues.forModel m).requests).head? = some r)
    (hfirst' : (ofTenant t (s'.queues.forModel m).requests).head? = some r) (hs : step cfg s a = some s') :
    ((takes s s').toList.countP (fun x => x.1 = m ∧ x.2.tenantId = u) : ℤ) +
        debt 4096 r.estimatedTokens t u (s'.queues.forModel m).queues (s'.queues.forModel m).deficits ≤
      debt 4096 r.estimatedTokens t u (s.queues.forModel m).queues (s.queues.forModel m).deficits := by
  have hm := h m
  obtain ⟨rs, hrs⟩ := List.head?_eq_some_iff.mp hfirst
  obtain ⟨rs', hrs'⟩ := List.head?_eq_some_iff.mp hfirst'
  have hwait := DeficitRoundRobinQueue.waits_first hm.rep hrs
  have hwait' := DeficitRoundRobinQueue.waits_first (queued_step h hs m).rep hrs'
  cases queue_step (m := m) hs with
  | same hq ha ht =>
    have hnone : (takes s s').toList.countP (fun x => x.1 = m ∧ x.2.tenantId = u) = 0 := by
      rw [List.countP_eq_zero]
      rintro ⟨m', r'⟩ hx hpair
      obtain ⟨rfl, -⟩ := of_decide_eq_true hpair
      exact ht r' (Option.mem_toList.mp hx)
    rw [hnone, hq]
    simp
  | put r' hmodel hput ha ht =>
    have hdebt := (DeficitRoundRobinQueue.debt_put (u := u) hwait hput).2
    rw [hm.quantum] at hdebt
    rw [ht, hdebt]
    simp
  | removed id r' hr ha ht =>
    have hdebt := DeficitRoundRobinQueue.debt_remove (u := u) (c := r.estimatedTokens) hm.rep hr hwait'.mem
    rw [hm.quantum] at hdebt
    rw [ht]
    simpa using hdebt
  | took r' hpop ha ht =>
    have hother : r'.tenantId ≠ t := by
      -- it would be the first request of `t`, which waits
      rintro rfl
      have hline := hm.first hpop
      have hsame : r :: rs = r' :: _ :=
        hrs.symm.trans ((DeficitRoundRobinQueue.ofTenant_pop hm.rep hm.pos hpop r'.tenantId).trans
          (List.filter_cons_of_pos (decide_eq_true rfl)))
      obtain rfl := (List.cons.inj hsame).1
      rw [hrs', List.map_cons, List.map_cons] at hline
      exact (List.nodup_cons.mp (hn.sublist hline)).1 List.mem_cons_self
    have hdebt := (DeficitRoundRobinQueue.debt_pop hm.rep hm.pos hut hwait hpop hother).2
    rw [hm.quantum] at hdebt
    rw [ht]
    by_cases hu : r'.tenantId = u
    · simpa [hu] using hdebt
    · simpa [hu] using hdebt

theorem accepted_step {a : Act} (hs : step cfg s a = some s') : s.history.accepted.Sublist s'.history.accepted := by
  cases queue_step (m := "") hs with
  | same hq ha ht => exact ha
  | put r hmodel hput ha ht => exact ha ▸ List.sublist_append_left _ _
  | removed id r hr ha ht => exact ha ▸ List.Sublist.refl _
  | took r hpop ha ht => exact ha ▸ List.Sublist.refl _

theorem queued_of_reachable (h : Reachable cfg s) : Queued s := by
  obtain ⟨models, ops, db, total, tenant, as, -, -, hs⟩ := h
  exact exec_invariant (fun _ _ _ => queued_step) (queued_start db total tenant) hs

/-! ### Two tenants -/

open Submissions (oneKey oneCatalog)

def twoAccounts : List Database.Op :=
  oneKey ++ [.createKey "j" "bob" .user "acct-b" "bob" "rio_j" 10000 false]

/-- The request of the handler `k` comes into the queue. -/
def arrive (k : ℕ) (id : RequestId) (principal : Principal) (estimatedTokens : ℤ) : List Act :=
  [.submit ⟨id, id, principal, "model", estimatedTokens, false⟩ id id, .handler k .create, .handler k (.enqueue 1)]

/-- A worker is ready, and one tenant has three small requests, the other one a
request that needs two rounds. -/
def twoTenants : List Act :=
  ([.launch (Supervisor.oneGpu "static") ["gpu"] "w" 0, .launchSpawned 1, .launchDone, .task 0 true 1 0] :
      List Supervisor.Act).map .supervisor ++ arrive 0 "a" ⟨"k", "acct"⟩ 30 ++ arrive 1 "b" ⟨"j", "acct-b"⟩ 6000 ++
    arrive 2 "c" ⟨"k", "acct"⟩ 30 ++ arrive 3 "d" ⟨"k", "acct"⟩ 30

/-- The service after the arrivals and some turns of the scheduler. -/
def afterTurns (n : ℕ) : Option State :=
  (exec Database.step (Database.fresh oneCatalog) twoAccounts).bind fun db =>
    if db.quotaReservations = [] then exec (step {}) (start db none none) (twoTenants ++ turns n) else none

theorem reachable_afterTurns {n : ℕ} (h : afterTurns n = some s) : Reachable {} s := by
  obtain ⟨db, hdb, h⟩ := Option.bind_eq_some_iff.mp h
  obtain ⟨hempty, hs⟩ := Option.ite_none_right_eq_some.mp h
  have hnone : (turns n).filterMap Act.submits? = [] :=
    List.filterMap_eq_nil_iff.mpr fun a ha => by rw [List.eq_of_mem_replicate ha]; rfl
  refine ⟨oneCatalog, twoAccounts, db, none, none, _, hdb, ⟨?_, fun q hq => ?_⟩, hs⟩
  · rw [List.filterMap_append, hnone, List.append_nil]
    decide
  · rw [hempty] at hq
    cases hq

theorem afterTurns_turns {n k : ℕ} (h : afterTurns n = some s) (hs : exec (step {}) s (turns k) = some s') :
    afterTurns (n + k) = some s' := by
  obtain ⟨db, hdb, h⟩ := Option.bind_eq_some_iff.mp h
  obtain ⟨hempty, h⟩ := Option.ite_none_right_eq_some.mp h
  refine Option.bind_eq_some_iff.mpr ⟨db, hdb, Option.ite_none_right_eq_some.mpr ⟨hempty, ?_⟩⟩
  rw [turns, List.replicate_add, ← List.append_assoc]
  exact (exec_append _).mpr ⟨s, h, hs⟩

/-- **First come, first served.** Whenever the router takes a request from the
queue of a model, it has been accepted for this model, and every request of the
same tenant that still waits there has been accepted later. -/
theorem taken_in_order (cfg : Settings) (s : State) (h : Reachable cfg s) (a : Act) (s' : State)
    (hs : step cfg s a = some s') (m : ModelId) (r : QueuedRequest) (ht : takes s s' = some (m, r)) :
    s.history.accepted.Nodup ∧ r.modelId = m ∧ ∀ r' ∈ (s'.queues.forModel m).requests, r'.tenantId = r.tenantId →
      [r.id, r'.id].Sublist s.history.accepted := by
  have hm := queued_of_reachable h m
  refine ⟨(reachable_invariant h).custody.accepted, ?_⟩
  cases queue_step (m := m) hs with
  | same hq ha hnot => exact absurd ht (hnot r)
  | put r' hmodel hput ha hnone => cases hnone.symm.trans ht
  | removed id r' hr ha hnone => cases hnone.symm.trans ht
  | took r' hpop ha ht' =>
    cases ht'.symm.trans ht
    have hr := (DeficitRoundRobinQueue.pop_perm hpop).mem_iff.mpr List.mem_cons_self
    refine ⟨hm.model r hr, fun r' hr' htenant => ?_⟩
    have hin : r' ∈ ofTenant r.tenantId (s'.queues.forModel m).requests :=
      List.mem_filter.mpr ⟨hr', decide_eq_true htenant⟩
    refine List.Sublist.trans ?_ (hm.first hpop)
    exact (List.singleton_sublist.mpr (List.mem_map_of_mem hin)).cons_cons r.id

/-- The first request of a tenant is taken while its second one waits. -/
theorem taken_in_order_two : ∃ (s s' : State) (r r' : QueuedRequest),
    Reachable {} s ∧ step {} s (.scheduler true "l" 2) = some s' ∧ takes s s' = some ("model", r) ∧
    r' ∈ (s'.queues.forModel "model").requests ∧ r'.tenantId = r.tenantId ∧
    [r.id, r'.id].Sublist s.history.accepted := by
  have hrun : ((afterTurns 7).bind fun s => (step {} s (.scheduler true "l" 2)).bind fun s' =>
      (takes s s').bind fun x => (s'.queues.forModel "model").requests.find? fun r' =>
        x.1 = "model" ∧ r'.tenantId = x.2.tenantId).isSome = true := by decide +kernel
  obtain ⟨r', hrun⟩ := Option.isSome_iff_exists.mp hrun
  obtain ⟨s, h, hrun⟩ := Option.bind_eq_some_iff.mp hrun
  obtain ⟨s', hs, hrun⟩ := Option.bind_eq_some_iff.mp hrun
  obtain ⟨⟨m, r⟩, ht, hfind⟩ := Option.bind_eq_some_iff.mp hrun
  have hsame := List.find?_some hfind
  simp only [decide_eq_true_eq] at hsame
  obtain ⟨rfl, htenant⟩ := hsame
  have hreach := reachable_afterTurns h
  have hin := List.mem_of_find?_eq_some hfind
  exact ⟨s, s', r, r', hreach, hs, ht, hin, htenant,
    (taken_in_order {} s hreach _ s' hs "model" r ht).2.2 r' hin htenant⟩

/-- A turn of the router for a model takes a request, if one waits and a worker
is routable. -/
theorem router_takes (h : Queued s) {models : List ModelId} (hb : s.scheduler = .routing (m :: models))
    (hsize : (s.queues.forModel m).size ≠ 0)
    (hready : ∃ w ∈ s.supervisor.workers, w.modelId = m ∧ w.isRoutable = true) (ok : Bool) (lid : String)
    (now : Datetime) :
    ∃ s' r, step cfg s (.scheduler ok lid now) = some s' ∧ takes s s' = some (m, r) := by
  obtain ⟨⟨r, q⟩, hpop⟩ := Option.isSome_iff_exists.mp (DeficitRoundRobinQueue.pop_of_rep (h m).rep (h m).pos hsize)
  obtain ⟨w0, hw0, hroutable⟩ := hready
  cases hmin : Selection.minBy (·.outstandingTokenWork)
      (s.supervisor.workers.filter fun w => w.modelId = m ∧ w.isRoutable) with
  | none =>
    have hempty := Selection.minBy_eq_none.mp hmin
    exact absurd (decide_eq_true hroutable) (List.filter_eq_nil_iff.mp hempty w0 hw0)
  | some w =>
    refine ⟨{ s with queues := s.queues.update m q, scheduler := .busy (m :: models) r (.admitting w.id) }, r, ?_, ?_⟩
    · simp only [step, hb, schedulerStep, routeSection, hmin, hpop]
    · simp only [takes, hb]

/-- **Bounded overtaking.** As long as a request is the first one of its tenant in
the queue of its model, the router takes from there at most
`max 1 ⌈estimated_tokens / 4096⌉` requests of any other tenant, whatever is
submitted, cancelled or settled and whichever workers fail; and it takes a
request whenever it comes to the model and a worker is routable. -/
theorem bounded_overtaking (cfg : Settings) (s s' : State) (later : List Act) (h : Reachable cfg s)
    (hrun : exec (step cfg) s later = some s') (h' : Reachable cfg s') (m : ModelId) (t u : AccountId) (hut : u ≠ t)
    (r : QueuedRequest)
    (hwaits : ∀ v ∈ visited (step cfg) s later, (ofTenant t (v.queues.forModel m).requests).head? = some r) :
    (((observed (step cfg) takes s later).countP fun x => x.1 = m ∧ x.2.tenantId = u : ℕ) : ℤ) ≤
      max 1 ⌈(r.estimatedTokens : ℚ) / 4096⌉ ∧
    ∀ v ∈ visited (step cfg) s later, ∀ models, v.scheduler = .routing (m :: models) →
      (∃ w ∈ v.supervisor.workers, w.modelId = m ∧ w.isRoutable = true) → ∀ ok lid now,
        ∃ v' x, step cfg v (.scheduler ok lid now) = some v' ∧ takes v v' = some (m, x) := by
  have hqueued := queued_of_reachable h
  have hnodup : ∀ v ∈ visited (step cfg) s later, v.history.accepted.Nodup := by
    intro v hv
    obtain ⟨-, rest, -, -, hrest⟩ := exec_of_visited hrun hv
    exact (reachable_invariant h').custody.accepted.sublist
      (exec_invariant (I := fun w => v.history.accepted.Sublist w.history.accepted)
        (fun _ _ _ hsub hs => hsub.trans (accepted_step hs)) (List.Sublist.refl _) hrest)
  constructor
  · have hpaid : (((observed (step cfg) takes s later).countP fun x => x.1 = m ∧ x.2.tenantId = u : ℕ) : ℤ) +
        debt 4096 r.estimatedTokens t u (s'.queues.forModel m).queues (s'.queues.forModel m).deficits ≤
          debt 4096 r.estimatedTokens t u (s.queues.forModel m).queues (s.queues.forModel m).deficits :=
      exec_potential (I := Queued)
        (P := fun v => v.history.accepted.Nodup ∧ (ofTenant t (v.queues.forModel m).requests).head? = some r)
        (φ := fun v => debt 4096 r.estimatedTokens t u (v.queues.forModel m).queues (v.queues.forModel m).deficits)
        (fun _ _ _ hv hv' hi hs => ⟨queued_step hi hs, debt_step hi hut hv.1 hv.2 hv'.2 hs⟩)
        (fun v hv => ⟨hnodup v hv, hwaits v hv⟩) hqueued hrun
    have hleft := DeficitRoundRobinQueue.debt_nonneg 4096 r.estimatedTokens t u (s'.queues.forModel m).queues
      (s'.queues.forModel m).deficits
    obtain ⟨rs, hrs⟩ := List.head?_eq_some_iff.mp (hwaits s (mem_visited_self s later))
    have hstart := DeficitRoundRobinQueue.debt_first (u := u) (hqueued m).rep (hqueued m).pos
      (DeficitRoundRobinQueue.waits_first (hqueued m).rep hrs)
    rw [(hqueued m).quantum] at hstart
    push_cast at hstart
    omega
  · intro v hv models hb hready ok lid now
    obtain ⟨before, -, -, hbefore, -⟩ := exec_of_visited hrun hv
    have hqueued' : Queued v := exec_invariant (fun _ _ _ => queued_step) hqueued hbefore
    obtain ⟨rs, hrs⟩ := List.head?_eq_some_iff.mp (hwaits v hv)
    refine router_takes hqueued' hb (fun hsize => ?_) hready ok lid now
    rw [(hqueued' m).rep.size, List.length_eq_zero_iff] at hsize
    rw [hsize] at hrs
    cases hrs

/-- The large request waits while two small ones of the other tenant are taken. -/
theorem bounded_overtaking_two : ∃ (s s' : State) (r : QueuedRequest),
    Reachable {} s ∧ exec (step {}) s (turns 15) = some s' ∧
    (((observed (step {}) takes s (turns 15)).countP fun x => x.1 = "model" ∧ x.2.tenantId = "acct" : ℕ) : ℤ) ≤
      max 1 ⌈(r.estimatedTokens : ℚ) / 4096⌉ := by
  let first : State → Option QueuedRequest := fun v => (ofTenant "acct-b" (v.queues.forModel "model").requests).head?
  have hrun : ((afterTurns 0).bind fun s => (exec (step {}) s (turns 15)).bind fun _ => (first s).bind fun r =>
      if ∀ v ∈ visited (step {}) s (turns 15), first v = some r then some r else none).isSome = true := by
    decide +kernel
  obtain ⟨r, hrun⟩ := Option.isSome_iff_exists.mp hrun
  obtain ⟨s, h, hrun⟩ := Option.bind_eq_some_iff.mp hrun
  obtain ⟨s', hs, hrun⟩ := Option.bind_eq_some_iff.mp hrun
  obtain ⟨r0, -, hrun⟩ := Option.bind_eq_some_iff.mp hrun
  obtain ⟨hwaits, heq⟩ := Option.ite_none_right_eq_some.mp hrun
  cases heq
  have hreach := reachable_afterTurns h
  exact ⟨s, s', r, hreach, hs, (bounded_overtaking {} s s' (turns 15) hreach hs
    (reachable_afterTurns (afterTurns_turns h hs)) "model" "acct-b" "acct" (by decide) r hwaits).1⟩

end Routing
end LlmRio
