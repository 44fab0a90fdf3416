/-
# How long a model has waited

`_pressures` reports for every model in demand how long its demand waits, and
the planner compares that with `fair_share_seconds`. The demand of a model is
what is queued and what its workers have admitted: the time that is reported
is the earliest of the enqueue times of its requests and of `last_demand_at`
of its workers with admitted requests.

The queue looks at the first request of each tenant only. That is the oldest
one if requests are put in the order of their enqueue times: a tenant's
requests are always a part of what was put, in the same order (`Orderly`).

Key definitions: `accepted`, `observed`, `InOrder`, `Orderly`, `QueueStep`.
Key theorems: `oldest_least`, `orderly_run`, `pressure_oldest`.
-/
import LlmRio.Runtime.QueueRuns
import LlmRio.Runtime.Launching
import Mathlib.Order.Bounds.Basic

namespace LlmRio

/-! ### The queue of a model -/

namespace ModelQueues

variable {qs : ModelQueues}

theorem lookup_setModel (m m' : ModelId) (q : DeficitRoundRobinQueue) :
    ∀ models : List (ModelId × DeficitRoundRobinQueue),
      (setModel m q models).lookup m' = if m' = m then some q else models.lookup m'
  | [] => by
    by_cases hm : m' = m
    · simp [setModel, hm]
    · simp [setModel, List.lookup_cons, beq_false_of_ne hm, hm]
  | (k, p) :: models => by
    have ih := lookup_setModel m m' q models
    by_cases hk : k = m
    · by_cases hm : m' = m
      · simp [setModel, hk, hm]
      · simp [setModel, List.lookup_cons, hk, beq_false_of_ne hm, hm]
    · by_cases hm : m' = k
      · have hne : m' ≠ m := fun h => hk (hm.symm.trans h)
        simp [setModel, hk, hm]
      · simp only [setModel, hk, if_false, List.lookup_cons, beq_false_of_ne hm]
        exact ih

theorem forModel_update (m m' : ModelId) (q : DeficitRoundRobinQueue) :
    (qs.update m q).forModel m' = if m' = m then q else qs.forModel m' := by
  show ((setModel m q qs.models).lookup m').getD qs.newQueue = _
  rw [lookup_setModel]
  by_cases hm : m' = m
  · rw [if_pos hm, if_pos hm, Option.getD_some]
  · rw [if_neg hm, if_neg hm]
    rfl

/-- `for_model` changes the queue of no model. -/
theorem forModel_made (m : ModelId) : ∀ (order : List ModelId) (qs : ModelQueues),
    (order.foldl (fun queues m => queues.update m (queues.forModel m)) qs).forModel m = qs.forModel m
  | [], _ => rfl
  | m' :: order, qs => by
    rw [List.foldl_cons, forModel_made m order, forModel_update]
    by_cases hm : m = m'
    · rw [if_pos hm, hm]
    · rw [if_neg hm]

theorem forModel_put (r : QueuedRequest) (m : ModelId) :
    ((qs.put r).2 = false ∧ (qs.put r).1.forModel m = qs.forModel m) ∨
      ((qs.put r).2 = true ∧ ∃ q, (qs.forModel r.modelId).put r = some q ∧
        (qs.put r).1.forModel m = if m = r.modelId then q else qs.forModel m) := by
  unfold put
  cases hput : (qs.forModel r.modelId).put r with
  | none => exact .inl ⟨rfl, forModel_made m [r.modelId] qs⟩
  | some q => exact .inr ⟨rfl, q, rfl, forModel_update r.modelId m q⟩

theorem forModel_remove {m : ModelId} {id : RequestId} {r : QueuedRequest} {qs' : ModelQueues}
    (h : qs.remove m id = some (r, qs')) :
    ∃ q, (qs.forModel m).remove id = some (r, q) ∧
      ∀ m', qs'.forModel m' = if m' = m then q else qs.forModel m' := by
  unfold remove at h
  obtain ⟨q, hlook, h⟩ := Option.bind_eq_some_iff.mp h
  obtain ⟨⟨r', q'⟩, hremove, heq⟩ := Option.map_eq_some_iff.mp h
  cases heq
  refine ⟨q', ?_, fun m' => forModel_update m m' q'⟩
  have hqueue : qs.forModel m = q := by
    show (qs.models.lookup m).getD qs.newQueue = q
    rw [hlook, Option.getD_some]
  rw [hqueue]
  exact hremove

end ModelQueues

namespace DeficitRoundRobinQueue

open Scheduler (oldestEnqueuedAt)

variable {q q' : DeficitRoundRobinQueue} {r : QueuedRequest} {puts : List QueuedRequest}

/-- The requests of each tenant are some of those that were put, in the order
of their puts. -/
structure Orderly (puts : List QueuedRequest) (q : DeficitRoundRobinQueue) : Prop where
  rep : Rep q
  quantum : 0 < q.quantum
  inOrder : ∀ t, (ofTenant t q.requests).Sublist (ofTenant t puts)

theorem orderly_new (totalCapacity tenantCapacity : Option ℕ) {quantum : ℤ} (hq : 0 < quantum) :
    Orderly puts (new totalCapacity tenantCapacity quantum) :=
  ⟨rep_new totalCapacity tenantCapacity quantum, hq, fun _ => List.nil_sublist _⟩

namespace Orderly

theorem put (h : Orderly puts q) (hput : q.put r = some q') : Orderly (puts ++ [r]) q' := by
  refine ⟨rep_put h.rep hput, (put_config hput).2.2.symm ▸ h.quantum, fun t => ?_⟩
  rw [ofTenant_put h.rep hput, ofTenant_append, ofTenant_append]
  exact (h.inOrder t).append_right _

theorem pop (h : Orderly puts q) (hpop : q.pop = some (r, q')) : Orderly puts q' := by
  refine ⟨rep_pop h.rep h.quantum hpop, (pop_config hpop).2.2.symm ▸ h.quantum, fun t => ?_⟩
  have horder := h.inOrder t
  rw [ofTenant_pop h.rep h.quantum hpop] at horder
  have hless : (ofTenant t q'.requests).Sublist (ofTenant t (r :: q'.requests)) :=
    (List.sublist_cons_self r q'.requests).filter _
  exact hless.trans horder

theorem remove {id : RequestId} (h : Orderly puts q) (hremove : q.remove id = some (r, q')) : Orderly puts q' :=
  ⟨rep_remove h.rep hremove, (remove_config hremove).2.2.symm ▸ h.quantum,
    fun t => (ofTenant_remove hremove t).trans (h.inOrder t)⟩

end Orderly

/-- The first request of a tenant is the oldest of the tenant's. -/
theorem first_oldest (h : Orderly puts q) (hputs : puts.Pairwise fun r r' => r.enqueuedAt ≤ r'.enqueuedAt)
    {t : AccountId} {rs : List QueuedRequest} (hentry : (t, r :: rs) ∈ q.queues) :
    ∀ x ∈ r :: rs, r.enqueuedAt ≤ x.enqueuedAt := by
  obtain ⟨pre, post, hqueues⟩ := List.append_of_mem hentry
  have hagree := hqueues ▸ h.rep.toAgree
  have hown : ofTenant t q.requests = r :: rs := by
    show ofTenant t (q.queues.flatMap (·.2)) = r :: rs
    rw [hqueues, ofTenant_entry hagree, if_pos rfl]
  have hsub : (r :: rs).Sublist puts := hown ▸ (h.inOrder t).trans List.filter_sublist
  have hsorted : (r :: rs).Pairwise fun r r' => r.enqueuedAt ≤ r'.enqueuedAt := hputs.sublist hsub
  intro x hx
  rcases List.mem_cons.mp hx with rfl | hrest
  · exact le_refl _
  · exact List.rel_of_pairwise_cons hsorted hrest

/-- `oldest_enqueued_at` is the enqueue time of the oldest request. -/
theorem oldest_least (h : Orderly puts q) (hputs : puts.Pairwise fun r r' => r.enqueuedAt ≤ r'.enqueuedAt)
    (hsome : q.requests ≠ []) :
    ∃ o, oldestEnqueuedAt q = some o ∧ IsLeast { t | ∃ r ∈ q.requests, r.enqueuedAt = t } o := by
  have hfirst : ∀ x ∈ q.requests, ∃ t r rs, (t, r :: rs) ∈ q.queues ∧ r.enqueuedAt ≤ x.enqueuedAt := by
    intro x hx
    obtain ⟨⟨t, rs⟩, hentry, hmem⟩ := List.mem_flatMap.mp hx
    obtain ⟨r, rs, rfl⟩ := List.exists_cons_of_ne_nil (List.ne_nil_of_mem hmem)
    exact ⟨t, r, rs, hentry, first_oldest h hputs hentry x hmem⟩
  let heads := q.queues.filterMap fun entry => entry.2.head?.map (·.enqueuedAt)
  have hhead : ∀ {t r rs}, (t, r :: rs) ∈ q.queues → r.enqueuedAt ∈ heads := fun {t r rs} hentry =>
    List.mem_filterMap.mpr ⟨(t, r :: rs), hentry, rfl⟩
  obtain ⟨x, hx⟩ := List.exists_mem_of_ne_nil _ hsome
  obtain ⟨t, r, rs, hentry, -⟩ := hfirst x hx
  obtain ⟨o, ho⟩ : ∃ o, heads.min? = some o := by
    have hne : heads ≠ [] := List.ne_nil_of_mem (hhead hentry)
    exact Option.isSome_iff_exists.mp (by simpa [List.isSome_min?_iff] using hne)
  obtain ⟨hmem, hle⟩ := List.min?_eq_some_iff.mp ho
  refine ⟨o, ho, ?_, ?_⟩
  · obtain ⟨⟨t, rs⟩, hentry, hval⟩ := List.mem_filterMap.mp hmem
    obtain ⟨r, hr, hval⟩ := Option.map_eq_some_iff.mp hval
    exact ⟨r, List.mem_flatMap.mpr ⟨(t, rs), hentry, List.mem_of_mem_head? hr⟩, hval⟩
  · rintro _ ⟨x, hx, rfl⟩
    obtain ⟨t, r, rs, hentry, hrx⟩ := hfirst x hx
    exact (hle _ (hhead hentry)).trans hrx

end DeficitRoundRobinQueue

namespace Scheduler

open Runs DeficitRoundRobinQueue

variable {sv : Service} {s t : State} {a : Act} {m : ModelId} {puts : List QueuedRequest}

/-! ### The requests that are put -/

/-- What a step puts into the queues. -/
def accepted (s : State) : Act → List QueuedRequest
  | .enqueue k => (s.resolved[k]?.filter fun r => (s.queues.put r).2).toList
  | _ => []

/-- A step, with what has been put so far. -/
def observed (sv : Service) (x : State × List QueuedRequest) (a : Act) : Option (State × List QueuedRequest) :=
  (step sv x.1 a).map fun t => (t, x.2 ++ accepted x.1 a)

/-- The requests of a model are put in the order of their enqueue times. -/
def InOrder (puts : List QueuedRequest) : Prop :=
  puts.Pairwise fun r r' => r.modelId = r'.modelId → r.enqueuedAt ≤ r'.enqueuedAt

instance (puts : List QueuedRequest) : Decidable (InOrder puts) :=
  inferInstanceAs (Decidable (List.Pairwise _ _))

/-- What is put for a model. -/
def putsOf (m : ModelId) (puts : List QueuedRequest) : List QueuedRequest := puts.filter (·.modelId = m)

theorem InOrder.ofModel (h : InOrder puts) (m : ModelId) :
    (putsOf m puts).Pairwise fun r r' => r.enqueuedAt ≤ r'.enqueuedAt := by
  have hpart : (putsOf m puts).Pairwise fun r r' => r.modelId = r'.modelId → r.enqueuedAt ≤ r'.enqueuedAt :=
    h.sublist List.filter_sublist
  apply hpart.imp_of_mem
  intro r r' hr hr' hle
  have hmodel : r.modelId = m := of_decide_eq_true (List.mem_filter.mp hr).2
  have hmodel' : r'.modelId = m := of_decide_eq_true (List.mem_filter.mp hr').2
  exact hle (hmodel.trans hmodel'.symm)

/-- What a step does to the queues. -/
inductive QueueStep (s : State) (a : Act) (t : State) : Prop
  | same (h : t.queues = s.queues) (hnone : accepted s a = [])
  | put (r : QueuedRequest) (h : t.queues = (s.queues.put r).1)
      (hput : accepted s a = if (s.queues.put r).2 = true then [r] else [])
  | removed (m : ModelId) (id : RequestId) (r : QueuedRequest) (h : s.queues.remove m id = some (r, t.queues))
      (hnone : accepted s a = [])
  | popped (m : ModelId) (r : QueuedRequest) (q : DeficitRoundRobinQueue)
      (hpop : (s.queues.forModel m).pop = some (r, q)) (h : t.queues = s.queues.update m q)
      (hnone : accepted s a = [])
  | made (order : List ModelId)
      (h : t.queues = order.foldl (fun queues m => queues.update m (queues.forModel m)) s.queues)
      (hnone : accepted s a = [])

theorem routeSection_queues (s : State) (m : ModelId) (models : List ModelId) :
    (routeSection s m models).queues = s.queues ∨
      ∃ r q, (s.queues.forModel m).pop = some (r, q) ∧ (routeSection s m models).queues = s.queues.update m q := by
  simp only [routeSection]
  split
  · rename_i w r q hmin hpop
    exact .inr ⟨r, q, hpop, rfl⟩
  · exact .inl rfl

theorem actSection_queues {rest : List Planner.PlannerAction} {active : Bool} {now : Datetime}
    {action : Planner.PlannerAction} (h : actSection sv s rest active now action = some t) : t.queues = s.queues := by
  cases action <;> grind [actSection, Option.map_eq_some_iff]

theorem queueStep (h : step sv s a = some t) : QueueStep s a t := by
  cases a with
  | enqueue k =>
    unfold step at h
    simp only at h
    split at h
    · rename_i r hr
      split at h
      · cases h
      · cases h
        refine .put r rfl ?_
        simp only [accepted, hr]
        by_cases hput : (s.queues.put r).2 = true
        · simp [hput]
        · simp [hput]
    · cases h
  | cancel m id =>
    unfold step at h
    simp only at h
    split at h
    · cases h
    · obtain ⟨⟨r, queues⟩, hremove, rfl⟩ := Option.map_eq_some_iff.mp h
      exact .removed m id r hremove rfl
  | route =>
    unfold step at h
    simp only at h
    split at h
    · rename_i m models htick
      cases h
      rcases routeSection_queues s m models with hsame | ⟨r, q, hpop, hqueues⟩
      · exact .same hsame rfl
      · exact .popped m r q hpop hqueues rfl
    · cases h
  | pressures now order =>
    unfold step at h
    simp only at h
    split at h
    · split at h
      · cases h
        exact .made order rfl rfl
      · cases h
    · cases h
  | supervisor b =>
    unfold step at h
    simp only at h
    split at h
    · cases h
    · cases h
    · cases h
    · obtain ⟨sup, -, rfl⟩ := Option.map_eq_some_iff.mp h
      exact .same rfl rfl
  -- the other steps do not touch the queues
  | _ => exact .same (by grind [step, configureSection, actSection_queues, planSection, Option.map_eq_some_iff]) rfl

/-! ### Runs -/

/-- Every queue holds its tenants' requests in the order in which they were put. -/
def AllOrderly (puts : List QueuedRequest) (queues : ModelQueues) : Prop :=
  ∀ m, Orderly (putsOf m puts) (queues.forModel m)

theorem putsOf_append (m : ModelId) (puts puts' : List QueuedRequest) :
    putsOf m (puts ++ puts') = putsOf m puts ++ putsOf m puts' := List.filter_append puts puts'

theorem allOrderly_put {queues : ModelQueues} (h : AllOrderly puts queues) (r : QueuedRequest) :
    AllOrderly (puts ++ if (queues.put r).2 = true then [r] else []) (queues.put r).1 := by
  intro m
  rcases queues.forModel_put r m with ⟨hfull, hqueue⟩ | ⟨hok, q, hput, hqueue⟩
  · rw [if_neg (by simp [hfull]), List.append_nil, hqueue]
    exact h m
  · rw [if_pos hok, hqueue, putsOf_append]
    by_cases hm : m = r.modelId
    · have hown : putsOf m [r] = [r] := by simp [putsOf, hm]
      rw [if_pos hm, hown, hm]
      exact (h r.modelId).put hput
    · have hnone : putsOf m [r] = [] := by simp [putsOf, Ne.symm hm]
      rw [if_neg hm, hnone, List.append_nil]
      exact h m

/-- One queue is replaced. -/
theorem allOrderly_replace {queues queues' : ModelQueues} (h : AllOrderly puts queues) {q : DeficitRoundRobinQueue}
    (hq : Orderly (putsOf m puts) q)
    (hqueues : ∀ m', queues'.forModel m' = if m' = m then q else queues.forModel m') : AllOrderly puts queues' := by
  intro m'
  rw [hqueues m']
  by_cases hm : m' = m
  · rw [if_pos hm, hm]
    exact hq
  · rw [if_neg hm]
    exact h m'

theorem allOrderly_step (hi : AllOrderly puts s.queues) (h : step sv s a = some t) :
    AllOrderly (puts ++ accepted s a) t.queues := by
  rcases queueStep h with ⟨hqueues, hnone⟩ | ⟨r, hqueues, hput⟩ | ⟨m, id, r, hremove, hnone⟩ |
    ⟨m, r, q, hpop, hqueues, hnone⟩ | ⟨order, hqueues, hnone⟩
  · rw [hqueues, hnone, List.append_nil]
    exact hi
  · rw [hqueues, hput]
    exact allOrderly_put hi r
  · rw [hnone, List.append_nil]
    obtain ⟨q, hq, hqueue⟩ := ModelQueues.forModel_remove hremove
    exact allOrderly_replace hi ((hi m).remove hq) hqueue
  · rw [hqueues, hnone, List.append_nil]
    exact allOrderly_replace hi ((hi m).pop hpop) fun m' => ModelQueues.forModel_update m m' q
  · rw [hqueues, hnone, List.append_nil]
    intro m
    rw [ModelQueues.forModel_made]
    exact hi m

theorem orderly_run {db : Database} {profiles : List PlacementProfile} {total tenant : Option ℕ} {as : List Act}
    (h : exec (observed sv) (start db profiles total tenant, []) as = some (s, puts)) : AllOrderly puts s.queues := by
  have hstart : AllOrderly [] (start db profiles total tenant).queues := fun _ =>
    orderly_new total tenant (by decide)
  refine exec_invariant (I := fun x => AllOrderly x.2 x.1.queues) (fun x a y hi hs => ?_) hstart h
  obtain ⟨t, ht, rfl⟩ := Option.map_eq_some_iff.mp hs
  exact allOrderly_step hi ht

/-! ### What is reported -/

/-- When the demand of a model dates from: its requests were enqueued, and its
workers with admitted requests had their last demand. -/
def demandTimes (s : State) (m : ModelId) : Set Datetime :=
  { t | (∃ r ∈ (s.queues.forModel m).requests, r.enqueuedAt = t) ∨
    ∃ w ∈ s.supervisor.workers, (w.modelId = m ∧ w.admittedRequestIds ≠ []) ∧ w.lastDemandAt = t }

/-- The pressure of a model whose queue knows its oldest request. -/
theorem pressureOf_least {o : Datetime} (ho : oldestEnqueuedAt (s.queues.forModel m) = some o)
    (hleast : IsLeast { t | ∃ r ∈ (s.queues.forModel m).requests, r.enqueuedAt = t } o) :
    ∃ q, pressureOf s m = some q ∧ q.modelId = m ∧ IsLeast (demandTimes s m) q.oldestEnqueuedAt := by
  let active := s.supervisor.workers.filter fun w => w.modelId = m ∧ w.admittedRequestIds ≠ []
  have hactive : ∀ w, w ∈ active ↔ w ∈ s.supervisor.workers ∧ w.modelId = m ∧ w.admittedRequestIds ≠ [] := by
    simp [active]
  obtain ⟨v, hv⟩ : ∃ v, (o :: active.map (·.lastDemandAt)).min? = some v := ⟨_, rfl⟩
  have hpressure : ∃ q, pressureOf s m = some q ∧ q.modelId = m ∧ q.oldestEnqueuedAt = v := by
    simp only [pressureOf, ho, Option.toList_some, List.singleton_append]
    rw [show (s.supervisor.workers.filter fun w => w.modelId = m ∧ w.admittedRequestIds ≠ []) = active from rfl, hv]
    exact ⟨_, rfl, rfl, rfl⟩
  obtain ⟨q, hq, hm, hold⟩ := hpressure
  obtain ⟨hmem, hle⟩ := List.min?_eq_some_iff.mp hv
  refine ⟨q, hq, hm, ?_, ?_⟩
  · rw [hold]
    rcases List.mem_cons.mp hmem with rfl | hworker
    · exact .inl hleast.1
    · obtain ⟨w, hw, hlast⟩ := List.mem_map.mp hworker
      obtain ⟨hw, hadmitted⟩ := (hactive w).mp hw
      exact .inr ⟨w, hw, hadmitted, hlast⟩
  · rw [hold]
    rintro _ (hqueued | ⟨w, hw, hadmitted, rfl⟩)
    · exact (hle o List.mem_cons_self).trans (hleast.2 hqueued)
    · exact hle _ (List.mem_cons_of_mem _ (List.mem_map_of_mem ((hactive w).mpr ⟨hw, hadmitted⟩)))

theorem mem_demandedModels (hsize : (s.queues.forModel m).size ≠ 0) : m ∈ demandedModels s := by
  unfold demandedModels
  rw [List.mem_dedup, List.mem_append]
  exact .inl (ModelQueues.pending_of_size hsize)

/-- A model with queued requests is under a pressure that dates from its oldest
demand. -/
theorem pressure_least (hi : AllOrderly puts s.queues) (horder : InOrder puts)
    (hqueued : (s.queues.forModel m).requests ≠ []) :
    ∃ q, pressureOf s m = some q ∧ q.modelId = m ∧ IsLeast (demandTimes s m) q.oldestEnqueuedAt ∧
      ∀ now order, order.Perm (demandedModels s) → q ∈ tickPressures s now order := by
  obtain ⟨o, ho, hleast⟩ := oldest_least (hi m) (horder.ofModel m) hqueued
  obtain ⟨q, hq, hm, hmin⟩ := pressureOf_least ho hleast
  refine ⟨q, hq, hm, hmin, fun now order hperm => ?_⟩
  have hsize : (s.queues.forModel m).size ≠ 0 := by
    rw [(hi m).rep.size]
    exact fun h => hqueued (List.eq_nil_of_length_eq_zero h)
  have hmem : m ∈ order := hperm.mem_iff.mpr (mem_demandedModels hsize)
  exact List.mem_append_left _ (List.mem_filterMap.mpr ⟨m, hmem, hq⟩)

/-- The earliest of some times is long ago if and only if one of them is. -/
theorem waited_iff {times : Set Datetime} {o : Datetime} (h : IsLeast times o) (seconds now : Datetime) :
    seconds ≤ now - o ↔ ∃ t ∈ times, seconds ≤ now - t := by
  constructor
  · intro hwaited
    exact ⟨o, h.1, hwaited⟩
  · rintro ⟨t, ht, hwaited⟩
    have hle : o ≤ t := h.2 ht
    linarith

/-- **What the starvation override looks at.** After every run that puts a
model's requests in the order of their enqueue times, a model with queued
requests is reported with the earliest of their enqueue times and of the last
demands of its workers with admitted requests. So it counts as starved if and
only if one of these requests has waited, or one of these workers has had no
demand, for `fair_share_seconds`. -/
theorem pressure_oldest (sv : Service) (db : Database) (profiles : List PlacementProfile) (total tenant : Option ℕ)
    (as : List Act) (s : State) (puts : List QueuedRequest)
    (hrun : exec (observed sv) (start db profiles total tenant, []) as = some (s, puts)) (horder : InOrder puts)
    (m : ModelId) (hqueued : (s.queues.forModel m).requests ≠ []) :
    ∃ q, pressureOf s m = some q ∧ q.modelId = m ∧
      (∀ now order, order.Perm (demandedModels s) → q ∈ tickPressures s now order) ∧
      IsLeast (demandTimes s m) q.oldestEnqueuedAt ∧
      ∀ fairShareSeconds now : ℚ, fairShareSeconds ≤ now - q.oldestEnqueuedAt ↔
        (∃ r ∈ (s.queues.forModel m).requests, fairShareSeconds ≤ now - r.enqueuedAt) ∨
          ∃ w ∈ s.supervisor.workers, (w.modelId = m ∧ w.admittedRequestIds ≠ []) ∧
            fairShareSeconds ≤ now - w.lastDemandAt := by
  obtain ⟨q, hq, hm, hleast, hreported⟩ := pressure_least (orderly_run hrun) horder hqueued
  refine ⟨q, hq, hm, hreported, hleast, fun seconds now => ?_⟩
  rw [waited_iff hleast seconds now]
  constructor
  · rintro ⟨t, ⟨r, hr, rfl⟩ | ⟨w, hw, hadmitted, rfl⟩, hwaited⟩
    · exact .inl ⟨r, hr, hwaited⟩
    · exact .inr ⟨w, hw, hadmitted, hwaited⟩
  · rintro (⟨r, hr, hwaited⟩ | ⟨w, hw, hadmitted, hwaited⟩)
    · exact ⟨_, .inl ⟨r, hr, rfl⟩, hwaited⟩
    · exact ⟨_, .inr ⟨w, hw, hadmitted, rfl⟩, hwaited⟩

/-! ### A worker that serves for long -/

/-- The first request of a model is admitted by the worker that is launched for
it at 10. The second comes at 100. -/
def secondRequest : List Act :=
  submitted ++ tickRun true ++
    [.launch "w" 1, .supervisor (.launchSpawned 7), .supervisor .launchDone, .launchEnd false, .tickEnd,
      .supervisor (.task 0 true 2 1), .tick, .route, .admitNext 10, .route, .pressures 10 ["model"], .tickEnd,
      .resolve "name" { id := "r2", modelId := "", tenantId := "t", estimatedTokens := 10, reservationId := "q2"
                        enqueuedAt := 100, assignment := 1 }, .enqueue 0]

theorem second_run : ∃ s puts,
    exec (observed (oneGpuService false)) (oneModel false, []) secondRequest = some (s, puts) ∧ InOrder puts ∧
      (s.queues.forModel "model").requests.map (·.enqueuedAt) = [100] ∧
      (pressureOf s "model").map (·.oldestEnqueuedAt) = some 10 := by
  have hrun : (exec (observed (oneGpuService false)) (oneModel false, []) secondRequest).map (fun x =>
      decide (InOrder x.2 ∧ (x.1.queues.forModel "model").requests.map (·.enqueuedAt) = [100] ∧
        (pressureOf x.1 "model").map (·.oldestEnqueuedAt) = some 10)) = some true := by decide +kernel
  obtain ⟨⟨s, puts⟩, hs, h⟩ := Option.map_eq_some_iff.mp hrun
  exact ⟨s, puts, hs, of_decide_eq_true h⟩

/-- The model counts as starved when its only queued request has just come. -/
theorem starved_unwaited : ∃ s puts q,
    exec (observed (oneGpuService false)) (oneModel false, []) secondRequest = some (s, puts) ∧ InOrder puts ∧
      (s.queues.forModel "model").requests ≠ [] ∧ pressureOf s "model" = some q ∧
      (oneGpuService false).planner.fairShareSeconds ≤ 100 - q.oldestEnqueuedAt ∧
      ∀ r ∈ (s.queues.forModel "model").requests, q.oldestEnqueuedAt < r.enqueuedAt ∧
        ¬ (oneGpuService false).planner.fairShareSeconds ≤ 100 - r.enqueuedAt := by
  obtain ⟨s, puts, hs, horder, htimes, hpressure⟩ := second_run
  obtain ⟨q, hq, hold⟩ := Option.map_eq_some_iff.mp hpressure
  have hfair : (oneGpuService false).planner.fairShareSeconds = 60 := rfl
  refine ⟨s, puts, q, hs, horder, fun hnil => ?_, hq, ?_, fun r hr => ?_⟩
  · rw [hnil] at htimes
    cases htimes
  · rw [hold, hfair]
    norm_num
  · have hmem : r.enqueuedAt ∈ (s.queues.forModel "model").requests.map (·.enqueuedAt) := List.mem_map_of_mem hr
    rw [htimes, List.mem_singleton] at hmem
    rw [hold, hfair, hmem]
    norm_num

theorem pressure_oldest_second : ∃ s puts q,
    exec (observed (oneGpuService false)) (oneModel false, []) secondRequest = some (s, puts) ∧
      pressureOf s "model" = some q ∧ IsLeast (demandTimes s "model") q.oldestEnqueuedAt := by
  obtain ⟨s, puts, hs, horder, htimes, -⟩ := second_run
  have hqueued : (s.queues.forModel "model").requests ≠ [] := fun hnil => by
    rw [hnil] at htimes
    cases htimes
  obtain ⟨q, hq, -, -, hleast, -⟩ := pressure_oldest _ _ _ _ _ _ _ _ hs horder _ hqueued
  exact ⟨s, puts, q, hs, hq, hleast⟩

end Scheduler
end LlmRio
