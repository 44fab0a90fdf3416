/-
# The admission queues

`DeficitRoundRobinQueue` holds the requests of one model in a deque per
tenant and serves the tenants in turns: a turn adds the quantum to the
tenant's deficit and serves its first request if the deficit covers it.
`ModelQueues` has one such queue per model.

`pop` turns until a request is covered. A turn that serves nothing brings the
tenant's request closer by the quantum, so `shortfall` bounds the number of
turns (`turns_served`) and is the fuel of the loop.

Key definitions: `QueuedRequest`, `put`, `pop`, `remove`, `ModelQueues`.
Key theorems: `put_perm`, `pop_perm`, `remove_perm`, `pop_isSome`.
-/
import LlmRio.Storage.Schema
import Mathlib.Data.List.Perm.Basic
import Mathlib.Algebra.Order.BigOperators.Group.List
import Mathlib.Algebra.BigOperators.Group.List.Lemmas

namespace LlmRio

/-- A request that waits for a worker. `assignment` names the submission whose
future it is. -/
structure QueuedRequest where
  id : RequestId
  modelId : ModelId
  tenantId : AccountId
  estimatedTokens : ℤ
  reservationId : ReservationId
  isStream : Bool := false
  enqueuedAt : Datetime
  assignment : ℕ
deriving DecidableEq, Repr

/-- `_queues` is an ordered dict, the next tenant first. -/
structure DeficitRoundRobinQueue where
  totalCapacity : Option ℕ
  tenantCapacity : Option ℕ
  quantum : ℤ := 4096
  queues : List (AccountId × List QueuedRequest) := []
  deficits : AccountId → Option ℤ := fun _ => none
  size : ℕ := 0

namespace DeficitRoundRobinQueue

def requests (q : DeficitRoundRobinQueue) : List QueuedRequest := q.queues.flatMap (·.2)

/-! ### put -/

def full (capacity : Option ℕ) (n : ℕ) : Bool := capacity.any (· ≤ n)

/-- `self._queues.setdefault(tenant_id, deque()).append(request)` -/
def append (r : QueuedRequest) : List (AccountId × List QueuedRequest) → List (AccountId × List QueuedRequest)
  | [] => [(r.tenantId, [r])]
  | (t, rs) :: queues => if t = r.tenantId then (t, rs ++ [r]) :: queues else (t, rs) :: append r queues

/-- `put`; `none` is `QueueFullError`, which leaves the queue as it was. -/
def put (q : DeficitRoundRobinQueue) (r : QueuedRequest) : Option DeficitRoundRobinQueue :=
  if full q.totalCapacity q.size || full q.tenantCapacity ((q.queues.lookup r.tenantId).getD []).length then none
  else some
    { q with
      queues := append r q.queues
      deficits := Function.update q.deficits r.tenantId (some ((q.deficits r.tenantId).getD 0))
      size := q.size + 1 }

/-! ### pop -/

/-- How much the deficit of the tenant of an entry lacks for its first
request. -/
def shortfall (deficits : AccountId → Option ℤ) (entry : AccountId × List QueuedRequest) : ℕ :=
  match entry.2 with
  | [] => 0
  | r :: _ => (r.estimatedTokens - (deficits entry.1).getD 0).toNat

/-- The loop of `pop`, for a number of turns. Each tenant in `_queues` has a
request and a deficit, so the lookups of the source succeed. -/
def turns (quantum : ℤ) : ℕ → List (AccountId × List QueuedRequest) → (AccountId → Option ℤ) →
    Option (QueuedRequest × List (AccountId × List QueuedRequest) × (AccountId → Option ℤ))
  | 0, _, _ => none
  | _ + 1, [], _ => none
  | _ + 1, (_, []) :: _, _ => none
  | fuel + 1, (t, r :: rs) :: queues, deficits =>
    let deficit := (deficits t).getD 0 + quantum
    if r.estimatedTokens ≤ deficit then
      if rs = [] then some (r, queues, Function.update deficits t none)
      else some (r, queues ++ [(t, rs)], Function.update deficits t (some (deficit - r.estimatedTokens)))
    else turns quantum fuel (queues ++ [(t, r :: rs)]) (Function.update deficits t (some deficit))

def pop (q : DeficitRoundRobinQueue) : Option (QueuedRequest × DeficitRoundRobinQueue) :=
  if q.size = 0 then none
  else (turns q.quantum ((q.queues.map (shortfall q.deficits)).sum + 1) q.queues q.deficits).map
    fun (r, queues, deficits) => (r, { q with queues := queues, deficits := deficits, size := q.size - 1 })

/-! ### remove -/

/-- The loop of `remove`: the request, the queues without it, and its tenant
if it has no other request. -/
def removeFrom (id : RequestId) : List (AccountId × List QueuedRequest) →
    Option (QueuedRequest × List (AccountId × List QueuedRequest) × Option AccountId)
  | [] => none
  | (t, rs) :: queues =>
    match rs.find? (·.id = id) with
    | some r =>
      if rs.erase r = [] then some (r, queues, some t) else some (r, (t, rs.erase r) :: queues, none)
    | none => (removeFrom id queues).map fun (r, queues', t') => (r, (t, rs) :: queues', t')

def remove (q : DeficitRoundRobinQueue) (id : RequestId) : Option (QueuedRequest × DeficitRoundRobinQueue) :=
  (removeFrom id q.queues).map fun (r, queues, emptied) =>
    (r, { q with
      queues := queues
      deficits := emptied.elim q.deficits fun t => Function.update q.deficits t none
      size := q.size - 1 })

/-! ### What the queue holds -/

variable {q q' : DeficitRoundRobinQueue} {r : QueuedRequest}

theorem append_perm (r : QueuedRequest) : ∀ queues : List (AccountId × List QueuedRequest),
    ((append r queues).flatMap (·.2)).Perm (r :: queues.flatMap (·.2))
  | [] => List.Perm.refl _
  | (t, rs) :: queues => by
    unfold append
    split
    · simp only [List.flatMap_cons, List.append_assoc]
      exact List.perm_middle
    · simp only [List.flatMap_cons]
      exact ((append_perm r queues).append_left rs).trans List.perm_middle

theorem put_perm (h : q.put r = some q') : q'.requests.Perm (r :: q.requests) := by
  unfold put at h
  split at h
  · cases h
  · cases h
    exact append_perm r q.queues

theorem turns_perm {quantum : ℤ} : ∀ {fuel : ℕ} {queues queues' : List (AccountId × List QueuedRequest)}
    {deficits deficits' : AccountId → Option ℤ},
    turns quantum fuel queues deficits = some (r, queues', deficits') →
      (queues.flatMap (·.2)).Perm (r :: queues'.flatMap (·.2))
  | 0, _, _, _, _, h => by cases h
  | _ + 1, [], _, _, _, h => by cases h
  | _ + 1, (_, []) :: _, _, _, _, h => by cases h
  | fuel + 1, (t, r' :: rs) :: queues, _, deficits, _, h => by
    unfold turns at h
    simp only at h
    split at h
    · split at h
      · rename_i hempty
        cases h
        simp [hempty]
      · cases h
        simp only [List.flatMap_append, List.flatMap_cons, List.flatMap_nil, List.append_nil, List.cons_append]
        exact List.perm_append_comm.cons r
    · have hrest := turns_perm h
      simp only [List.flatMap_append, List.flatMap_cons, List.flatMap_nil, List.append_nil] at hrest ⊢
      exact List.perm_append_comm.trans hrest

theorem pop_perm (h : q.pop = some (r, q')) : q.requests.Perm (r :: q'.requests) := by
  unfold pop at h
  split at h
  · cases h
  · obtain ⟨⟨r', queues, deficits⟩, hturns, heq⟩ := Option.map_eq_some_iff.mp h
    cases heq
    exact turns_perm hturns

theorem removeFrom_perm {id : RequestId} {t : Option AccountId} :
    ∀ {queues queues' : List (AccountId × List QueuedRequest)}, removeFrom id queues = some (r, queues', t) →
      r.id = id ∧ (queues.flatMap (·.2)).Perm (r :: queues'.flatMap (·.2))
  | [], _, h => by cases h
  | (t', rs) :: queues, queues', h => by
    unfold removeFrom at h
    split at h
    · rename_i r' hfind
      have hmem := List.mem_of_find?_eq_some hfind
      have hid : r'.id = id := by simpa using List.find?_some hfind
      have herase := (List.perm_cons_erase hmem).append_right (queues.flatMap (·.2))
      split at h
      · rename_i hempty
        cases h
        rw [hempty] at herase
        exact ⟨hid, herase⟩
      · cases h
        exact ⟨hid, herase⟩
    · obtain ⟨⟨r', queues'', t''⟩, hrest, heq⟩ := Option.map_eq_some_iff.mp h
      cases heq
      obtain ⟨hid, hperm⟩ := removeFrom_perm hrest
      simp only [List.flatMap_cons]
      exact ⟨hid, (hperm.append_left rs).trans List.perm_middle⟩

theorem remove_perm {id : RequestId} (h : q.remove id = some (r, q')) :
    r.id = id ∧ q.requests.Perm (r :: q'.requests) := by
  unfold remove at h
  obtain ⟨⟨r', queues, t⟩, hremove, heq⟩ := Option.map_eq_some_iff.mp h
  cases heq
  exact removeFrom_perm hremove

theorem pop_size (h : q.pop = some (r, q')) : q.size ≠ 0 ∧ q'.size = q.size - 1 := by
  unfold pop at h
  split at h
  · cases h
  · rename_i hsize
    obtain ⟨⟨r', queues, deficits⟩, -, heq⟩ := Option.map_eq_some_iff.mp h
    cases heq
    exact ⟨hsize, rfl⟩

theorem remove_size {id : RequestId} (h : q.remove id = some (r, q')) : q'.size = q.size - 1 := by
  unfold remove at h
  obtain ⟨⟨r', queues, t⟩, -, heq⟩ := Option.map_eq_some_iff.mp h
  cases heq
  rfl

/-! ### The turns suffice -/

theorem shortfall_update {deficits : AccountId → Option ℤ} {t : AccountId} {v : Option ℤ}
    {queues : List (AccountId × List QueuedRequest)} (ht : t ∉ queues.map (·.1)) :
    queues.map (shortfall (Function.update deficits t v)) = queues.map (shortfall deficits) := by
  apply List.map_congr_left
  intro entry hentry
  have hne : entry.1 ≠ t := fun he => ht (he ▸ List.mem_map_of_mem hentry)
  simp only [shortfall, Function.update_of_ne hne]

theorem turns_served {quantum : ℤ} (hq : 0 < quantum) : ∀ {fuel : ℕ}
    {queues : List (AccountId × List QueuedRequest)} {deficits : AccountId → Option ℤ}, queues ≠ [] →
    (queues.map (·.1)).Nodup → (∀ entry ∈ queues, entry.2 ≠ []) →
    (queues.map (shortfall deficits)).sum < fuel → (turns quantum fuel queues deficits).isSome
  | 0, _, _, _, _, _, hfuel => by omega
  | _ + 1, [], _, hne, _, _, _ => absurd rfl hne
  | _ + 1, (_, []) :: _, _, _, _, hfull, _ => absurd rfl (hfull _ List.mem_cons_self)
  | fuel + 1, (t, r :: rs) :: queues, deficits, _, hnodup, hfull, hfuel => by
    unfold turns
    simp only
    split
    · split <;> rfl
    · rename_i hcost
      rw [List.map_cons, List.nodup_cons] at hnodup
      obtain ⟨ht, hnodup⟩ := hnodup
      -- the tenant of the turn comes closer by the quantum, the others stay where they are
      have hcloser : shortfall (Function.update deficits t (some ((deficits t).getD 0 + quantum))) (t, r :: rs) <
          shortfall deficits (t, r :: rs) := by
        simp only [shortfall, Function.update_self, Option.getD_some]
        omega
      apply turns_served hq
      · simp
      · rw [List.map_append]
        exact (List.nodup_append.mpr ⟨hnodup, by simp, by
          intro a ha b hb
          rw [List.map_singleton, List.mem_singleton] at hb
          rintro rfl
          exact ht (hb ▸ ha)⟩)
      · intro entry hentry
        rw [List.mem_append, List.mem_singleton] at hentry
        rcases hentry with hentry | rfl
        · exact hfull entry (List.mem_cons_of_mem _ hentry)
        · simp
      · rw [List.map_append, List.sum_append, shortfall_update ht]
        simp only [List.map_cons, List.map_nil, List.sum_cons, List.sum_nil] at hfuel ⊢
        omega

/-- A queue with a positive quantum whose tenants have requests serves one. -/
theorem pop_isSome (hq : 0 < q.quantum) (hsize : q.size ≠ 0) (hne : q.queues ≠ [])
    (hnodup : (q.queues.map (·.1)).Nodup) (hfull : ∀ entry ∈ q.queues, entry.2 ≠ []) : q.pop.isSome := by
  unfold pop
  rw [if_neg hsize, Option.isSome_map]
  exact turns_served hq hne hnodup hfull (Nat.lt_succ_self _)

end DeficitRoundRobinQueue

/-! ### One queue per model -/

/-- `_models` is a dict in insertion order. -/
structure ModelQueues where
  totalCapacity : Option ℕ
  tenantCapacity : Option ℕ
  models : List (ModelId × DeficitRoundRobinQueue) := []

namespace ModelQueues

variable (qs : ModelQueues)

def requests : List QueuedRequest := qs.models.flatMap (·.2.requests)

/-- The queue that `for_model` makes for a new model. -/
def newQueue : DeficitRoundRobinQueue := { totalCapacity := qs.totalCapacity, tenantCapacity := qs.tenantCapacity }

def forModel (m : ModelId) : DeficitRoundRobinQueue := (qs.models.lookup m).getD qs.newQueue

/-- The entry of a model in `_models`. -/
def setModel (m : ModelId) (q : DeficitRoundRobinQueue) :
    List (ModelId × DeficitRoundRobinQueue) → List (ModelId × DeficitRoundRobinQueue)
  | [] => [(m, q)]
  | (m', q') :: models => if m' = m then (m', q) :: models else (m', q') :: setModel m q models

def update (m : ModelId) (q : DeficitRoundRobinQueue) : ModelQueues :=
  { qs with models := setModel m q qs.models }

def pendingModels : List ModelId := (qs.models.filter (·.2.size ≠ 0)).map (·.1)

/-- `self.queues.for_model(request.model_id).put(request)`; the flag is False
when the queue is full. -/
def put (r : QueuedRequest) : ModelQueues × Bool :=
  match (qs.forModel r.modelId).put r with
  | some q => (qs.update r.modelId q, true)
  | none => (qs.update r.modelId (qs.forModel r.modelId), false)

def remove (m : ModelId) (id : RequestId) : Option (QueuedRequest × ModelQueues) :=
  (qs.models.lookup m).bind fun q => (q.remove id).map fun (r, q') => (r, qs.update m q')

variable {qs}

/-- The requests of the other models do not depend on the model's queue. -/
theorem setModel_perm (m : ModelId) (new : DeficitRoundRobinQueue) (hnew : new.requests = []) :
    ∀ models : List (ModelId × DeficitRoundRobinQueue), ∃ others : List QueuedRequest,
      (models.flatMap (·.2.requests)).Perm (((models.lookup m).getD new).requests ++ others) ∧
        ∀ q, ((setModel m q models).flatMap (·.2.requests)).Perm (q.requests ++ others) := by
  intro models
  induction models with
  | nil =>
    refine ⟨[], ?_, fun q => List.Perm.refl _⟩
    simp [hnew]
  | cons entry models ih =>
    obtain ⟨m', q'⟩ := entry
    by_cases hm : m' = m
    · subst hm
      refine ⟨models.flatMap (·.2.requests), ?_, fun q => ?_⟩
      · simp
      · simp [setModel]
    · obtain ⟨others, hold, hset⟩ := ih
      have hlook : ((m', q') :: models).lookup m = models.lookup m := by
        simp [List.lookup_cons, beq_false_of_ne (Ne.symm hm)]
      refine ⟨q'.requests ++ others, ?_, fun q => ?_⟩
      · rw [hlook, List.flatMap_cons]
        exact (hold.append_left _).trans (List.perm_append_comm_assoc _ _ _)
      · simp only [setModel, hm, if_false, List.flatMap_cons]
        exact ((hset q).append_left _).trans (List.perm_append_comm_assoc _ _ _)

theorem update_perm (qs : ModelQueues) (m : ModelId) : ∃ others : List QueuedRequest,
    qs.requests.Perm ((qs.forModel m).requests ++ others) ∧
      ∀ q, (qs.update m q).requests.Perm (q.requests ++ others) :=
  setModel_perm m qs.newQueue rfl qs.models

/-- A changed queue of one model changes the requests by what it changes. -/
theorem update_swap {m : ModelId} {q : DeficitRoundRobinQueue} {r : QueuedRequest}
    (h : (qs.forModel m).requests.Perm (r :: q.requests)) :
    qs.requests.Perm (r :: (qs.update m q).requests) := by
  obtain ⟨others, hold, hnew⟩ := update_perm qs m
  exact (hold.trans (h.append_right others)).trans ((hnew q).symm.cons r)

theorem put_perm {r : QueuedRequest} (h : (qs.put r).2 = true) : (qs.put r).1.requests.Perm (r :: qs.requests) := by
  obtain ⟨others, hold, hnew⟩ := update_perm qs r.modelId
  unfold put at h ⊢
  split at h
  · rename_i q hput
    have hperm := DeficitRoundRobinQueue.put_perm hput
    exact (hnew q).trans ((hperm.append_right others).trans (hold.symm.cons r))
  · cases h

/-- A `put` that is refused leaves the requests. -/
theorem put_refused {r : QueuedRequest} (h : (qs.put r).2 = false) : (qs.put r).1.requests.Perm qs.requests := by
  obtain ⟨others, hold, hnew⟩ := update_perm qs r.modelId
  unfold put at h ⊢
  split at h
  · cases h
  · exact (hnew _).trans hold.symm

theorem remove_perm {m : ModelId} {id : RequestId} {r : QueuedRequest} {qs' : ModelQueues}
    (h : qs.remove m id = some (r, qs')) : r.id = id ∧ qs.requests.Perm (r :: qs'.requests) := by
  unfold remove at h
  obtain ⟨q, hlook, h⟩ := Option.bind_eq_some_iff.mp h
  obtain ⟨⟨r', q'⟩, hremove, heq⟩ := Option.map_eq_some_iff.mp h
  cases heq
  obtain ⟨hid, hperm⟩ := DeficitRoundRobinQueue.remove_perm hremove
  refine ⟨hid, update_swap ?_⟩
  rw [forModel, hlook]
  exact hperm

/-! ### The models that wait -/

theorem mem_setModel {m : ModelId} {q : DeficitRoundRobinQueue} {entry : ModelId × DeficitRoundRobinQueue} :
    ∀ {models : List (ModelId × DeficitRoundRobinQueue)}, entry ∈ setModel m q models →
      entry ∈ models ∨ entry = (m, q)
  | [], h => .inr (List.mem_singleton.mp h)
  | (m', q') :: models, h => by
    unfold setModel at h
    split at h
    · rename_i hm
      rcases List.mem_cons.mp h with rfl | hrest
      · exact .inr (by rw [hm])
      · exact .inl (List.mem_cons_of_mem _ hrest)
    · rcases List.mem_cons.mp h with rfl | hrest
      · exact .inl List.mem_cons_self
      · exact (mem_setModel hrest).imp_left (List.mem_cons_of_mem _)

theorem mem_pendingModels {m : ModelId} : m ∈ qs.pendingModels ↔ ∃ q, (m, q) ∈ qs.models ∧ q.size ≠ 0 := by
  simp [pendingModels]

/-- `update` changes whether the model waits, and no other. -/
theorem pending_update {m m' : ModelId} {q : DeficitRoundRobinQueue} (h : m' ∈ (qs.update m q).pendingModels) :
    m' ∈ qs.pendingModels ∨ (m' = m ∧ q.size ≠ 0) := by
  obtain ⟨q', hmem, hsize⟩ := mem_pendingModels.mp h
  rcases mem_setModel hmem with hold | hnew
  · exact .inl (mem_pendingModels.mpr ⟨q', hold, hsize⟩)
  · cases hnew
    exact .inr ⟨rfl, hsize⟩

theorem pending_of_size {m : ModelId} (h : (qs.forModel m).size ≠ 0) : m ∈ qs.pendingModels := by
  unfold forModel at h
  rcases hlook : qs.models.lookup m with _ | q
  · rw [hlook] at h
    exact absurd rfl h
  · rw [hlook] at h
    obtain ⟨l, l', heq, -⟩ := List.lookup_eq_some_iff.mp hlook
    exact mem_pendingModels.mpr ⟨q, by simp [heq], h⟩

/-- A queue that is not longer than before makes no model wait. -/
theorem pending_shrunk {m m' : ModelId} {q : DeficitRoundRobinQueue} (hq : q.size ≤ (qs.forModel m).size)
    (h : m' ∈ (qs.update m q).pendingModels) : m' ∈ qs.pendingModels := by
  rcases pending_update h with hold | ⟨rfl, hsize⟩
  · exact hold
  · exact pending_of_size (by omega)

theorem pending_put {m : ModelId} {r : QueuedRequest} (h : m ∈ (qs.put r).1.pendingModels) :
    m ∈ qs.pendingModels ∨ m = r.modelId := by
  unfold put at h
  split at h
  · exact (pending_update h).imp_right And.left
  · exact .inl (pending_shrunk le_rfl h)

theorem pending_remove {m m' : ModelId} {id : RequestId} {r : QueuedRequest} {qs' : ModelQueues}
    (h : qs.remove m id = some (r, qs')) (hm : m' ∈ qs'.pendingModels) : m' ∈ qs.pendingModels := by
  unfold remove at h
  obtain ⟨q, hlook, h⟩ := Option.bind_eq_some_iff.mp h
  obtain ⟨⟨r', q'⟩, hremove, heq⟩ := Option.map_eq_some_iff.mp h
  cases heq
  have hsize := DeficitRoundRobinQueue.remove_size hremove
  refine pending_shrunk ?_ hm
  rw [forModel, hlook, Option.getD_some]
  omega

end ModelQueues
end LlmRio
