/-
# The admission queue over its runs

The deques, the deficits and the size counter of `DeficitRoundRobinQueue` agree
in every state that `put`, `pop`, `remove` and `drain` reach (`Rep`). `enqueue`
is `put` statement by statement, with the entry that it makes for a tenant and
takes back when the queue is full; it is `put` on every such state
(`enqueue_eq`).

`History` is a run with what was put and what has left. Nothing is lost or
served twice, and a tenant's requests are popped in the order in which they were
put (`queue_consistent`).

Key definitions: `enqueue`, `drain`, `Rep`, `History`, `act`.
Key theorems: `turns_rule`, `enqueue_eq`, `rep_run`, `conserved_run`,
`queue_consistent`.
-/
import LlmRio.Runtime.Queueing

namespace LlmRio

namespace DeficitRoundRobinQueue

abbrev Entries := List (AccountId × List QueuedRequest)

abbrev Deficits := AccountId → Option ℤ

/-! ### The statements of put, and drain -/

/-- `self._queues.setdefault(tenant_id, deque())` -/
def setDefault (t : AccountId) (queues : Entries) : Entries :=
  if t ∈ queues.map (·.1) then queues else queues ++ [(t, [])]

/-- The body of `put`; the flag says that it raises `QueueFullError`. -/
def enqueue (q : DeficitRoundRobinQueue) (r : QueuedRequest) : DeficitRoundRobinQueue × Bool :=
  let queues := setDefault r.tenantId q.queues
  let tenantQueue := (queues.lookup r.tenantId).getD []
  if full q.totalCapacity q.size || full q.tenantCapacity tenantQueue.length then
    if tenantQueue = [] then ({ q with queues := queues.filter (·.1 ≠ r.tenantId) }, true)
    else ({ q with queues := queues }, true)
  else
    ({ q with
      queues := append r queues
      deficits := Function.update q.deficits r.tenantId (some ((q.deficits r.tenantId).getD 0))
      size := q.size + 1 }, false)

def drain (q : DeficitRoundRobinQueue) : List QueuedRequest × DeficitRoundRobinQueue :=
  (q.requests, { q with queues := [], deficits := fun _ => none, size := 0 })

/-! ### One turn -/

variable {quantum : ℤ} {queues queues' : Entries} {deficits deficits' : Deficits} {r : QueuedRequest}

/-- The deficit of a tenant when it has its turn. -/
def credit (quantum : ℤ) (deficits : Deficits) (t : AccountId) : ℤ := (deficits t).getD 0 + quantum

/-- The turn of the tenant `t` serves `r`: its entry goes to the back with the
rest of its requests, or leaves. -/
inductive Served (quantum : ℤ) (t : AccountId) (r : QueuedRequest) (queues : Entries) (deficits : Deficits) :
    List QueuedRequest → Entries → Deficits → Prop
  | last : Served quantum t r queues deficits [] queues (Function.update deficits t none)
  | more {rs : List QueuedRequest} (hne : rs ≠ []) : Served quantum t r queues deficits rs (queues ++ [(t, rs)])
      (Function.update deficits t (some (credit quantum deficits t - r.estimatedTokens)))

/-- What turns that serve nobody keep, holds before the turn that serves. -/
theorem turns_rule {I : Entries → Deficits → Prop}
    (hpass : ∀ t r rs queues deficits, I ((t, r :: rs) :: queues) deficits →
      credit quantum deficits t < r.estimatedTokens →
      I (queues ++ [(t, r :: rs)]) (Function.update deficits t (some (credit quantum deficits t)))) :
    ∀ {fuel : ℕ} {queues : Entries} {deficits : Deficits}, I queues deficits →
      turns quantum fuel queues deficits = some (r, queues', deficits') →
        ∃ t rs queues0 deficits0, I ((t, r :: rs) :: queues0) deficits0 ∧
          r.estimatedTokens ≤ credit quantum deficits0 t ∧
          Served quantum t r queues0 deficits0 rs queues' deficits'
  | 0, _, _, _, h => by cases h
  | _ + 1, [], _, _, h => by cases h
  | _ + 1, (_, []) :: _, _, _, h => by cases h
  | fuel + 1, (t, r' :: rs) :: queues, deficits, hI, h => by
    unfold turns at h
    simp only at h
    split at h
    · rename_i hcost
      split at h
      · rename_i hempty
        cases h
        subst hempty
        exact ⟨t, [], _, _, hI, hcost, .last⟩
      · rename_i hne
        cases h
        exact ⟨t, rs, _, _, hI, hcost, .more hne⟩
    · rename_i hcost
      exact turns_rule hpass (hpass t r' rs queues deficits hI (not_le.mp hcost)) h

/-! ### The entries and the deficits agree -/

/-- The facts about `_queues` and `_deficits` that the loop of `pop` keeps. -/
structure Agree (tenantCapacity : Option ℕ) (queues : Entries) (deficits : Deficits) : Prop where
  nonempty : ∀ e ∈ queues, e.2 ≠ []
  tenants : (queues.map (·.1)).Nodup
  owners : ∀ e ∈ queues, ∀ r ∈ e.2, r.tenantId = e.1
  sameTenants : ∀ t, (deficits t).isSome ↔ t ∈ queues.map (·.1)
  nonneg : ∀ t d, deficits t = some d → 0 ≤ d
  withinTenant : ∀ c, tenantCapacity = some c → ∀ e ∈ queues, e.2.length ≤ c

/-- The representation invariant. -/
structure Rep (q : DeficitRoundRobinQueue) : Prop extends Agree q.tenantCapacity q.queues q.deficits where
  size : q.size = q.requests.length
  withinTotal : ∀ c, q.totalCapacity = some c → q.size ≤ c

namespace Agree

variable {cap : Option ℕ} {t : AccountId} {rs rs' : List QueuedRequest}

theorem empty (cap : Option ℕ) : Agree cap [] fun _ => none := by
  constructor <;> simp

theorem perm (h : Agree cap queues deficits) (hp : queues.Perm queues') : Agree cap queues' deficits := by
  refine ⟨fun e he => h.nonempty e (hp.mem_iff.mpr he), (hp.map _).nodup_iff.mp h.tenants,
    fun e he => h.owners e (hp.mem_iff.mpr he), fun t => ?_, h.nonneg,
    fun c hc e he => h.withinTenant c hc e (hp.mem_iff.mpr he)⟩
  rw [h.sameTenants t, (hp.map _).mem_iff]

/-- A tenant with an entry gets another deficit. -/
theorem charge (h : Agree cap queues deficits) (ht : t ∈ queues.map (·.1)) {d : ℤ} (hd : 0 ≤ d) :
    Agree cap queues (Function.update deficits t (some d)) := by
  refine ⟨h.nonempty, h.tenants, h.owners, fun u => ?_, fun u d' hu => ?_, h.withinTenant⟩
  · by_cases hut : u = t
    · subst hut
      simpa using ht
    · rw [Function.update_of_ne hut]
      exact h.sameTenants u
  · by_cases hut : u = t
    · subst hut
      rw [Function.update_self] at hu
      cases hu
      exact hd
    · rw [Function.update_of_ne hut] at hu
      exact h.nonneg u d' hu

/-- An entry leaves, with its deficit. -/
theorem drop (h : Agree cap ((t, rs) :: queues) deficits) : Agree cap queues (Function.update deficits t none) := by
  have htenants := h.tenants
  rw [List.map_cons, List.nodup_cons] at htenants
  refine ⟨fun e he => h.nonempty e (List.mem_cons_of_mem _ he), htenants.2,
    fun e he => h.owners e (List.mem_cons_of_mem _ he), fun u => ?_, fun u d hu => ?_,
    fun c hc e he => h.withinTenant c hc e (List.mem_cons_of_mem _ he)⟩
  · by_cases hut : u = t
    · subst hut
      simpa using htenants.1
    · rw [Function.update_of_ne hut, h.sameTenants u, List.map_cons, List.mem_cons]
      simp [hut]
  · by_cases hut : u = t
    · subst hut
      rw [Function.update_self] at hu
      cases hu
    · rw [Function.update_of_ne hut] at hu
      exact h.nonneg u d hu

/-- An entry joins, with a deficit. -/
theorem join (h : Agree cap queues deficits) (ht : t ∉ queues.map (·.1)) (hne : rs ≠ [])
    (howner : ∀ r ∈ rs, r.tenantId = t) (hcap : ∀ c, cap = some c → rs.length ≤ c) {d : ℤ} (hd : 0 ≤ d) :
    Agree cap ((t, rs) :: queues) (Function.update deficits t (some d)) := by
  refine ⟨?_, ?_, ?_, fun u => ?_, fun u d' hu => ?_, fun c hc => ?_⟩
  · exact List.forall_mem_cons.mpr ⟨hne, h.nonempty⟩
  · rw [List.map_cons, List.nodup_cons]
    exact ⟨ht, h.tenants⟩
  · exact List.forall_mem_cons.mpr ⟨howner, h.owners⟩
  · by_cases hut : u = t
    · subst hut
      simp
    · rw [Function.update_of_ne hut, h.sameTenants u, List.map_cons, List.mem_cons]
      simp [hut]
  · by_cases hut : u = t
    · subst hut
      rw [Function.update_self] at hu
      cases hu
      exact hd
    · rw [Function.update_of_ne hut] at hu
      exact h.nonneg u d' hu
  · exact List.forall_mem_cons.mpr ⟨hcap c hc, h.withinTenant c hc⟩

/-- An entry gets other requests of its tenant. -/
theorem replace (h : Agree cap ((t, rs) :: queues) deficits) (hne : rs' ≠ [])
    (howner : ∀ r ∈ rs', r.tenantId = t) (hcap : ∀ c, cap = some c → rs'.length ≤ c) :
    Agree cap ((t, rs') :: queues) deficits := by
  refine ⟨?_, h.tenants, ?_, h.sameTenants, h.nonneg, fun c hc => ?_⟩
  · exact List.forall_mem_cons.mpr ⟨hne, (List.forall_mem_cons.mp h.nonempty).2⟩
  · exact List.forall_mem_cons.mpr ⟨howner, (List.forall_mem_cons.mp h.owners).2⟩
  · exact List.forall_mem_cons.mpr ⟨hcap c hc, (List.forall_mem_cons.mp (h.withinTenant c hc)).2⟩

theorem credit_nonneg (h : Agree cap queues deficits) (hq : 0 < quantum) (t : AccountId) :
    0 ≤ credit quantum deficits t := by
  unfold credit
  cases hd : deficits t with
  | none => simpa using hq.le
  | some d =>
    have := h.nonneg t d hd
    simp only [Option.getD_some]
    omega

/-- A turn that serves nobody. -/
theorem pass (h : Agree cap ((t, rs) :: queues) deficits) (hq : 0 < quantum) :
    Agree cap (queues ++ [(t, rs)]) (Function.update deficits t (some (credit quantum deficits t))) := by
  have hcharged := h.charge (List.mem_map.mpr ⟨_, List.mem_cons_self, rfl⟩) (h.credit_nonneg hq t)
  exact hcharged.perm (List.perm_append_singleton _ _).symm

/-- The turn that serves a request. -/
theorem served {r : QueuedRequest} (h : Agree cap ((t, r :: rs) :: queues) deficits)
    (hcost : r.estimatedTokens ≤ credit quantum deficits t)
    (hs : Served quantum t r queues deficits rs queues' deficits') : Agree cap queues' deficits' := by
  cases hs with
  | last => exact h.drop
  | more hne =>
    have hcap : ∀ c, cap = some c → rs.length ≤ c := fun c hc =>
      le_trans (Nat.le_succ _) (h.withinTenant c hc _ List.mem_cons_self)
    have hrest : Agree cap ((t, rs) :: queues) deficits :=
      h.replace hne (fun r' hr' => h.owners _ List.mem_cons_self r' (List.mem_cons_of_mem _ hr')) hcap
    have hcharged := hrest.charge (List.mem_map.mpr ⟨_, List.mem_cons_self, rfl⟩) (sub_nonneg.mpr hcost)
    exact hcharged.perm (List.perm_append_singleton _ _).symm

end Agree

/-! ### What each operation does to the entries -/

theorem append_new : ∀ {queues : Entries}, r.tenantId ∉ queues.map (·.1) →
    append r queues = queues ++ [(r.tenantId, [r])]
  | [], _ => rfl
  | (t, rs) :: queues, h => by
    rw [List.map_cons, List.mem_cons, not_or] at h
    unfold append
    rw [if_neg (Ne.symm h.1), append_new h.2, List.cons_append]

theorem append_old {pre post : Entries} {rs : List QueuedRequest} : r.tenantId ∉ pre.map (·.1) →
    append r (pre ++ (r.tenantId, rs) :: post) = pre ++ (r.tenantId, rs ++ [r]) :: post := by
  induction pre with
  | nil =>
    intro _
    simp [append]
  | cons e pre ih =>
    intro h
    rw [List.map_cons, List.mem_cons, not_or] at h
    rw [List.cons_append, append, if_neg (Ne.symm h.1), ih h.2, List.cons_append]

/-- The entry of a tenant that has one. -/
theorem entry_of_mem {t : AccountId} : ∀ {queues : Entries}, t ∈ queues.map (·.1) →
    ∃ pre rs post, queues = pre ++ (t, rs) :: post ∧ t ∉ pre.map (·.1)
  | [], h => absurd h List.not_mem_nil
  | (u, rs) :: queues, h => by
    by_cases hu : u = t
    · subst hu
      exact ⟨[], rs, queues, rfl, List.not_mem_nil⟩
    · have hrest : t ∈ queues.map (·.1) := (List.mem_cons.mp h).resolve_left (Ne.symm hu)
      obtain ⟨pre, rs', post, rfl, hpre⟩ := entry_of_mem hrest
      refine ⟨(u, rs) :: pre, rs', post, rfl, ?_⟩
      rw [List.map_cons, List.mem_cons, not_or]
      exact ⟨Ne.symm hu, hpre⟩

theorem lookup_old {t : AccountId} {post : Entries} {rs : List QueuedRequest} : ∀ {pre : Entries},
    t ∉ pre.map (·.1) → (pre ++ (t, rs) :: post).lookup t = some rs
  | [], _ => by simp
  | (u, rs') :: pre, h => by
    rw [List.map_cons, List.mem_cons, not_or] at h
    rw [List.cons_append, List.lookup_cons, beq_false_of_ne h.1]
    exact lookup_old h.2

theorem lookup_new {t : AccountId} : ∀ {queues : Entries}, t ∉ queues.map (·.1) → queues.lookup t = none
  | [], _ => rfl
  | (u, rs) :: queues, h => by
    rw [List.map_cons, List.mem_cons, not_or] at h
    rw [List.lookup_cons, beq_false_of_ne h.1]
    exact lookup_new h.2

/-- `remove` takes the request out of one entry, and an entry that it empties
with it. -/
theorem removeFrom_eq {id : RequestId} {emptied : Option AccountId} : ∀ {queues queues' : Entries},
    removeFrom id queues = some (r, queues', emptied) → ∃ pre t rs post, queues = pre ++ (t, rs) :: post ∧ r ∈ rs ∧
      ((rs.erase r = [] ∧ queues' = pre ++ post ∧ emptied = some t) ∨
        (rs.erase r ≠ [] ∧ queues' = pre ++ (t, rs.erase r) :: post ∧ emptied = none))
  | [], _, h => by cases h
  | (t, rs) :: queues, queues', h => by
    unfold removeFrom at h
    split at h
    · rename_i r' hfind
      have hmem := List.mem_of_find?_eq_some hfind
      split at h
      · rename_i hempty
        cases h
        exact ⟨[], t, rs, _, rfl, hmem, .inl ⟨hempty, rfl, rfl⟩⟩
      · rename_i hne
        cases h
        exact ⟨[], t, rs, _, rfl, hmem, .inr ⟨hne, rfl, rfl⟩⟩
    · obtain ⟨⟨r', queues'', t''⟩, hrest, heq⟩ := Option.map_eq_some_iff.mp h
      cases heq
      obtain ⟨pre, t', rs', post, rfl, hmem, hcases⟩ := removeFrom_eq hrest
      refine ⟨(t, rs) :: pre, t', rs', post, rfl, hmem, ?_⟩
      rcases hcases with ⟨hempty, rfl, rfl⟩ | ⟨hne, rfl, rfl⟩
      · exact .inl ⟨hempty, rfl, rfl⟩
      · exact .inr ⟨hne, rfl, rfl⟩

/-! ### The representation invariant -/

variable {q q' : DeficitRoundRobinQueue}

/-- What a `put` that is not refused does. -/
theorem put_some (h : q.put r = some q') :
    full q.totalCapacity q.size = false ∧
      full q.tenantCapacity ((q.queues.lookup r.tenantId).getD []).length = false ∧
      q' = { q with
        queues := append r q.queues
        deficits := Function.update q.deficits r.tenantId (some ((q.deficits r.tenantId).getD 0))
        size := q.size + 1 } := by
  unfold put at h
  split at h
  · cases h
  · rename_i hfull
    rw [Bool.or_eq_true, not_or, Bool.not_eq_true, Bool.not_eq_true] at hfull
    exact ⟨hfull.1, hfull.2, (Option.some.inj h).symm⟩

theorem lt_of_not_full {cap : Option ℕ} {n c : ℕ} (h : full cap n = false) (hc : cap = some c) : n < c := by
  subst hc
  simpa [full] using h

theorem agree_put (h : Agree q.tenantCapacity q.queues q.deficits) (hput : q.put r = some q') :
    Agree q'.tenantCapacity q'.queues q'.deficits := by
  obtain ⟨-, htenant, rfl⟩ := put_some hput
  show Agree q.tenantCapacity (append r q.queues)
    (Function.update q.deficits r.tenantId (some ((q.deficits r.tenantId).getD 0)))
  by_cases ht : r.tenantId ∈ q.queues.map (·.1)
  · obtain ⟨pre, rs, post, heq, hpre⟩ := entry_of_mem ht
    rw [heq, lookup_old hpre, Option.getD_some] at htenant
    rw [heq] at h ht
    have hfront := h.perm List.perm_middle
    have hmem := List.mem_cons_self (a := (r.tenantId, rs)) (l := pre ++ post)
    have howner : ∀ r' ∈ rs ++ [r], r'.tenantId = r.tenantId := by
      intro r' hr'
      rcases List.mem_append.mp hr' with hr' | hr'
      · exact hfront.owners _ hmem r' hr'
      · rw [List.mem_singleton.mp hr']
    have hcap : ∀ c, q.tenantCapacity = some c → (rs ++ [r]).length ≤ c := fun c hc => by
      rw [List.length_append, List.length_singleton]
      exact lt_of_not_full htenant hc
    have hnew := hfront.replace (by simp) howner hcap
    rw [heq, append_old hpre]
    obtain ⟨d, hd⟩ := Option.isSome_iff_exists.mp ((h.sameTenants r.tenantId).mpr ht)
    rw [hd, Option.getD_some]
    exact (hnew.perm List.perm_middle.symm).charge (by simp) (h.nonneg _ d hd)
  · rw [lookup_new ht] at htenant
    have hnone : q.deficits r.tenantId = none := by
      rw [← Option.not_isSome_iff_eq_none, h.sameTenants]
      exact ht
    have hcap : ∀ c, q.tenantCapacity = some c → [r].length ≤ c := fun c hc => lt_of_not_full htenant hc
    rw [append_new ht, hnone, Option.getD_none]
    have hnew := h.join ht (by simp) (fun r' hr' => by rw [List.mem_singleton.mp hr']) hcap le_rfl
    exact hnew.perm (List.perm_append_singleton _ _).symm

theorem agree_pop (h : Agree q.tenantCapacity q.queues q.deficits) (hq : 0 < q.quantum)
    (hpop : q.pop = some (r, q')) : Agree q'.tenantCapacity q'.queues q'.deficits := by
  unfold pop at hpop
  split at hpop
  · cases hpop
  · obtain ⟨⟨r', queues', deficits'⟩, hturns, heq⟩ := Option.map_eq_some_iff.mp hpop
    cases heq
    obtain ⟨t, rs, queues0, deficits0, hagree, hcost, hserved⟩ :=
      turns_rule (I := Agree q.tenantCapacity) (fun _ _ _ _ _ hd _ => hd.pass hq) h hturns
    exact hagree.served hcost hserved

theorem agree_remove {id : RequestId} (h : Agree q.tenantCapacity q.queues q.deficits)
    (hremove : q.remove id = some (r, q')) : Agree q'.tenantCapacity q'.queues q'.deficits := by
  unfold remove at hremove
  obtain ⟨⟨r', queues', emptied⟩, hfrom, heq⟩ := Option.map_eq_some_iff.mp hremove
  cases heq
  obtain ⟨pre, t, rs, post, hqueues, hmem, hcases⟩ := removeFrom_eq hfrom
  rw [hqueues] at h
  have hfront := h.perm List.perm_middle
  rcases hcases with ⟨-, rfl, rfl⟩ | ⟨hne, rfl, rfl⟩
  · exact hfront.drop
  · have hin := List.mem_cons_self (a := (t, rs)) (l := pre ++ post)
    have hcap : ∀ c, q.tenantCapacity = some c → (rs.erase r).length ≤ c := fun c hc =>
      le_trans List.erase_sublist.length_le (hfront.withinTenant c hc _ hin)
    have hnew := hfront.replace hne (fun r' hr' => hfront.owners _ hin r' (List.mem_of_mem_erase hr')) hcap
    exact hnew.perm List.perm_middle.symm

/-- The arguments of the constructor stay. -/
def SameConfig (q q' : DeficitRoundRobinQueue) : Prop :=
  q'.totalCapacity = q.totalCapacity ∧ q'.tenantCapacity = q.tenantCapacity ∧ q'.quantum = q.quantum

theorem put_config (hput : q.put r = some q') : SameConfig q q' := by
  obtain ⟨-, -, rfl⟩ := put_some hput
  exact ⟨rfl, rfl, rfl⟩

theorem pop_config (hpop : q.pop = some (r, q')) : SameConfig q q' := by
  unfold pop at hpop
  split at hpop
  · cases hpop
  · obtain ⟨_, -, heq⟩ := Option.map_eq_some_iff.mp hpop
    cases heq
    exact ⟨rfl, rfl, rfl⟩

theorem remove_config {id : RequestId} (hremove : q.remove id = some (r, q')) : SameConfig q q' := by
  unfold remove at hremove
  obtain ⟨_, -, heq⟩ := Option.map_eq_some_iff.mp hremove
  cases heq
  exact ⟨rfl, rfl, rfl⟩

theorem rep_put (h : Rep q) (hput : q.put r = some q') : Rep q' := by
  refine ⟨agree_put h.toAgree hput, ?_, ?_⟩
  · have hlen := (put_perm hput).length_eq
    obtain ⟨-, -, rfl⟩ := put_some hput
    rw [hlen, List.length_cons, ← h.size]
  · obtain ⟨htotal, -, rfl⟩ := put_some hput
    exact fun c hc => lt_of_not_full htotal hc

theorem rep_pop (h : Rep q) (hq : 0 < q.quantum) (hpop : q.pop = some (r, q')) : Rep q' := by
  have hlen := (pop_perm hpop).length_eq
  obtain ⟨hsize, hsize'⟩ := pop_size hpop
  have hold := h.size
  rw [List.length_cons] at hlen
  refine ⟨agree_pop h.toAgree hq hpop, by omega, fun c hc => ?_⟩
  rw [(pop_config hpop).1] at hc
  have := h.withinTotal c hc
  omega

theorem rep_remove {id : RequestId} (h : Rep q) (hremove : q.remove id = some (r, q')) : Rep q' := by
  have hlen := (remove_perm hremove).2.length_eq
  have hsize := remove_size hremove
  have hold := h.size
  rw [List.length_cons] at hlen
  refine ⟨agree_remove h.toAgree hremove, by omega, fun c hc => ?_⟩
  rw [(remove_config hremove).1] at hc
  have := h.withinTotal c hc
  omega

theorem rep_drain (q : DeficitRoundRobinQueue) : Rep q.drain.2 :=
  ⟨Agree.empty q.tenantCapacity, rfl, fun _ _ => Nat.zero_le _⟩

/-! ### The statements of put -/

theorem append_setDefault (r : QueuedRequest) (queues : Entries) :
    append r (setDefault r.tenantId queues) = append r queues := by
  unfold setDefault
  split
  · rfl
  · rename_i ht
    rw [append_old ht, append_new ht, List.nil_append]

/-- `put` as it is written takes the request, or raises and leaves the queue
exactly as it was. -/
theorem enqueue_eq (h : Rep q) (r : QueuedRequest) :
    q.enqueue r = (q.put r).elim (q, true) fun q' => (q', false) := by
  unfold enqueue put
  simp only [append_setDefault]
  by_cases ht : r.tenantId ∈ q.queues.map (·.1)
  · obtain ⟨pre, rs, post, heq, hpre⟩ := entry_of_mem ht
    have hne : rs ≠ [] := h.nonempty (r.tenantId, rs) (by rw [heq]; simp)
    rw [setDefault, if_pos ht, heq, lookup_old hpre, Option.getD_some, if_neg hne, ← heq]
    split <;> rfl
  · have hfilter : (q.queues ++ [(r.tenantId, [])]).filter (·.1 ≠ r.tenantId) = q.queues := by
      have hkeep : q.queues.filter (·.1 ≠ r.tenantId) = q.queues := by
        rw [List.filter_eq_self]
        intro e he
        simpa using fun heq => ht (List.mem_map.mpr ⟨e, he, heq⟩)
      rw [List.filter_append, hkeep]
      simp
    rw [setDefault, if_neg ht, lookup_old ht, lookup_new ht, Option.getD_some, Option.getD_none]
    split
    · rw [if_pos rfl, hfilter]
      rfl
    · rfl

/-! ### The requests of one tenant -/

def ofTenant (t : AccountId) (rs : List QueuedRequest) : List QueuedRequest := rs.filter (·.tenantId = t)

theorem ofTenant_append (t : AccountId) (rs rs' : List QueuedRequest) :
    ofTenant t (rs ++ rs') = ofTenant t rs ++ ofTenant t rs' :=
  List.filter_append rs rs'

theorem ofTenant_singleton (t : AccountId) (r : QueuedRequest) :
    ofTenant t [r] = if r.tenantId = t then [r] else [] := by
  unfold ofTenant
  by_cases ht : r.tenantId = t
  · simp [ht]
  · simp [ht]

theorem ofTenant_none {t : AccountId} {rs : List QueuedRequest} (h : ∀ r ∈ rs, r.tenantId ≠ t) :
    ofTenant t rs = [] := by
  unfold ofTenant
  rw [List.filter_eq_nil_iff]
  exact fun r hr => by simpa using h r hr

/-- A tenant without an entry has nothing queued. -/
theorem ofTenant_absent {cap : Option ℕ} {t : AccountId} (h : Agree cap queues deficits)
    (ht : t ∉ queues.map (·.1)) : ofTenant t (queues.flatMap (·.2)) = [] := by
  apply ofTenant_none
  intro r hr heq
  obtain ⟨e, he, hr⟩ := List.mem_flatMap.mp hr
  exact ht (List.mem_map.mpr ⟨e, he, (h.owners e he r hr).symm.trans heq⟩)

/-- What a tenant has queued is its entry, wherever that stands. -/
theorem ofTenant_entry {cap : Option ℕ} {pre post : Entries} {t : AccountId} {rs : List QueuedRequest}
    (h : Agree cap (pre ++ (t, rs) :: post) deficits) (u : AccountId) :
    ofTenant u ((pre ++ (t, rs) :: post).flatMap (·.2)) =
      if u = t then rs else ofTenant u ((pre ++ post).flatMap (·.2)) := by
  have hfront := h.perm List.perm_middle
  have hrs : ∀ r ∈ rs, r.tenantId = t := hfront.owners _ List.mem_cons_self
  by_cases hut : u = t
  · subst hut
    have hrest := ofTenant_absent hfront.drop (by
      have htenants := hfront.tenants
      rw [List.map_cons, List.nodup_cons] at htenants
      exact htenants.1)
    rw [List.flatMap_append, ofTenant_append] at hrest
    obtain ⟨hpre, hpost⟩ := List.append_eq_nil_iff.mp hrest
    have hself : ofTenant u rs = rs := by
      unfold ofTenant
      rw [List.filter_eq_self]
      exact fun r hr => by simpa using hrs r hr
    rw [if_pos rfl, List.flatMap_append, List.flatMap_cons, ofTenant_append, ofTenant_append, hpre, hpost, hself,
      List.nil_append, List.append_nil]
  · have hnone : ofTenant u rs = [] := ofTenant_none fun r hr heq => hut (heq.symm.trans (hrs r hr))
    rw [if_neg hut, List.flatMap_append, List.flatMap_cons, ofTenant_append, ofTenant_append, hnone,
      List.nil_append, List.flatMap_append, ofTenant_append]

/-- A put request is the last of its tenant. -/
theorem ofTenant_put (h : Rep q) (hput : q.put r = some q') (u : AccountId) :
    ofTenant u q'.requests = ofTenant u (q.requests ++ [r]) := by
  have h' := agree_put h.toAgree hput
  obtain ⟨-, -, rfl⟩ := put_some hput
  show ofTenant u ((append r q.queues).flatMap (·.2)) = ofTenant u (q.queues.flatMap (·.2) ++ [r])
  simp only at h'
  rw [ofTenant_append, ofTenant_singleton]
  by_cases ht : r.tenantId ∈ q.queues.map (·.1)
  · obtain ⟨pre, rs, post, heq, hpre⟩ := entry_of_mem ht
    have hold := heq ▸ h.toAgree
    rw [heq, append_old hpre] at h' ⊢
    rw [ofTenant_entry h', ofTenant_entry hold]
    by_cases hu : u = r.tenantId
    · rw [if_pos hu, if_pos hu, if_pos hu.symm]
    · rw [if_neg hu, if_neg hu, if_neg (Ne.symm hu), List.append_nil]
  · rw [append_new ht] at h' ⊢
    rw [ofTenant_entry h', List.append_nil]
    by_cases hu : u = r.tenantId
    · rw [if_pos hu, if_pos hu.symm, hu, ofTenant_absent h.toAgree ht, List.nil_append]
    · rw [if_neg hu, if_neg (Ne.symm hu), List.append_nil]

/-- A turn that serves nobody changes no tenant's requests. -/
theorem ofTenant_pass {cap : Option ℕ} {t : AccountId} {rs : List QueuedRequest}
    (h : Agree cap ((t, rs) :: queues) deficits) (hq : 0 < quantum) (u : AccountId) :
    ofTenant u ((queues ++ [(t, rs)]).flatMap (·.2)) = ofTenant u (((t, rs) :: queues).flatMap (·.2)) := by
  have hempty : Agree cap ([] ++ (t, rs) :: queues) deficits := h
  have hfront := ofTenant_entry hempty u
  have hback := ofTenant_entry (h.pass hq) u
  rw [List.nil_append, List.nil_append] at hfront
  rw [List.append_nil] at hback
  exact hback.trans hfront.symm

/-- The turn that serves a request takes the first of its tenant. -/
theorem ofTenant_served {cap : Option ℕ} {t : AccountId} {rs : List QueuedRequest}
    (h : Agree cap ((t, r :: rs) :: queues) deficits) (hcost : r.estimatedTokens ≤ credit quantum deficits t)
    (hserved : Served quantum t r queues deficits rs queues' deficits') (u : AccountId) :
    ofTenant u (((t, r :: rs) :: queues).flatMap (·.2)) = ofTenant u [r] ++ ofTenant u (queues'.flatMap (·.2)) := by
  have howner : r.tenantId = t := h.owners _ List.mem_cons_self r List.mem_cons_self
  have htenants := h.tenants
  rw [List.map_cons, List.nodup_cons] at htenants
  have h' := h.served hcost hserved
  have hempty : Agree cap ([] ++ (t, r :: rs) :: queues) deficits := h
  have hfront := ofTenant_entry hempty u
  rw [List.nil_append, List.nil_append] at hfront
  have hleft : ofTenant u (queues'.flatMap (·.2)) = if u = t then rs else ofTenant u (queues.flatMap (·.2)) := by
    cases hserved with
    | last =>
      by_cases hu : u = t
      · rw [if_pos hu, hu, ofTenant_absent h' htenants.1]
      · rw [if_neg hu]
    | more hne =>
      have hback := ofTenant_entry h' u
      rwa [List.append_nil] at hback
  rw [hfront, hleft, ofTenant_singleton, howner]
  by_cases hu : u = t
  · rw [if_pos hu, if_pos hu, if_pos hu.symm, List.singleton_append]
  · rw [if_neg hu, if_neg hu, if_neg (Ne.symm hu), List.nil_append]

/-- A popped request is the first of its tenant. -/
theorem ofTenant_pop (h : Rep q) (hq : 0 < q.quantum) (hpop : q.pop = some (r, q')) (u : AccountId) :
    ofTenant u q.requests = ofTenant u (r :: q'.requests) := by
  unfold pop at hpop
  split at hpop
  · cases hpop
  · obtain ⟨⟨r', queues', deficits'⟩, hturns, heq⟩ := Option.map_eq_some_iff.mp hpop
    cases heq
    obtain ⟨t, rs, queues0, deficits0, ⟨hagree, hsame⟩, hcost, hserved⟩ := turns_rule
      (I := fun queues deficits => Agree q.tenantCapacity queues deficits ∧
        ofTenant u (queues.flatMap (·.2)) = ofTenant u q.requests)
      (fun _ _ _ _ _ hd _ => ⟨hd.1.pass hq, (ofTenant_pass hd.1 hq u).trans hd.2⟩) ⟨h.toAgree, rfl⟩ hturns
    rw [← hsame, ofTenant_served hagree hcost hserved, ← ofTenant_append]
    rfl

/-- A removal takes one request out of its tenant's. -/
theorem ofTenant_remove {id : RequestId} (h : q.remove id = some (r, q')) (u : AccountId) :
    (ofTenant u q'.requests).Sublist (ofTenant u q.requests) := by
  unfold remove at h
  obtain ⟨⟨r', queues', emptied⟩, hfrom, heq⟩ := Option.map_eq_some_iff.mp h
  cases heq
  obtain ⟨pre, t, rs, post, hqueues, -, hcases⟩ := removeFrom_eq hfrom
  apply List.Sublist.filter
  show (queues'.flatMap (·.2)).Sublist (q.queues.flatMap (·.2))
  rw [hqueues, List.flatMap_append, List.flatMap_cons]
  rcases hcases with ⟨-, rfl, -⟩ | ⟨-, rfl, -⟩
  · rw [List.flatMap_append]
    exact (List.sublist_append_right rs _).append_left _
  · rw [List.flatMap_append, List.flatMap_cons]
    exact (List.erase_sublist.append_right _).append_left _

/-! ### Runs -/

inductive Action
  | put (r : QueuedRequest)
  | pop
  | remove (id : RequestId)
  | drain

/-- A queue with what was put into it and what has left it, in order. -/
structure History where
  queue : DeficitRoundRobinQueue
  accepted : List QueuedRequest := []
  popped : List QueuedRequest := []
  removed : List QueuedRequest := []
  drained : List QueuedRequest := []

def act (h : History) : Action → History
  | .put r =>
    match h.queue.enqueue r with
    | (q, true) => { h with queue := q }
    | (q, false) => { h with queue := q, accepted := h.accepted ++ [r] }
  | .pop =>
    match h.queue.pop with
    | some (r, q) => { h with queue := q, popped := h.popped ++ [r] }
    | none => h
  | .remove id =>
    match h.queue.remove id with
    | some (r, q) => { h with queue := q, removed := h.removed ++ [r] }
    | none => h
  | .drain => { h with queue := h.queue.drain.2, drained := h.drained ++ h.queue.drain.1 }

/-- The queue that the constructor makes. -/
def new (totalCapacity tenantCapacity : Option ℕ) (quantum : ℤ) : DeficitRoundRobinQueue :=
  { totalCapacity := totalCapacity, tenantCapacity := tenantCapacity, quantum := quantum }

theorem rep_new (totalCapacity tenantCapacity : Option ℕ) (quantum : ℤ) :
    Rep (new totalCapacity tenantCapacity quantum) :=
  ⟨Agree.empty tenantCapacity, rfl, fun _ _ => Nat.zero_le _⟩

/-- What a `put` does to the history. -/
theorem act_put {h : History} (hrep : Rep h.queue) (r : QueuedRequest) :
    act h (.put r) = h ∨
      ∃ q, h.queue.put r = some q ∧ act h (.put r) = { h with queue := q, accepted := h.accepted ++ [r] } := by
  simp only [act, enqueue_eq hrep]
  cases hput : h.queue.put r with
  | none => exact .inl rfl
  | some q => exact .inr ⟨q, rfl, rfl⟩

theorem rep_act {h : History} (hrep : Rep h.queue) (hq : 0 < h.queue.quantum) (a : Action) :
    Rep (act h a).queue ∧ SameConfig h.queue (act h a).queue := by
  have hrefl : SameConfig h.queue h.queue := ⟨rfl, rfl, rfl⟩
  cases a with
  | put r =>
    rcases act_put hrep r with heq | ⟨q, hput, heq⟩
    · rw [heq]
      exact ⟨hrep, hrefl⟩
    · rw [heq]
      exact ⟨rep_put hrep hput, put_config hput⟩
  | pop =>
    simp only [act]
    cases hpop : h.queue.pop with
    | none => exact ⟨hrep, hrefl⟩
    | some result => exact ⟨rep_pop hrep hq hpop, pop_config hpop⟩
  | remove id =>
    simp only [act]
    cases hremove : h.queue.remove id with
    | none => exact ⟨hrep, hrefl⟩
    | some result => exact ⟨rep_remove hrep hremove, remove_config hremove⟩
  | drain => exact ⟨rep_drain h.queue, hrefl⟩

/-- The representation invariant holds over runs. -/
theorem rep_run {h : History} (hrep : Rep h.queue) (hq : 0 < h.queue.quantum) (actions : List Action) :
    Rep (actions.foldl act h).queue ∧ SameConfig h.queue (actions.foldl act h).queue := by
  induction actions generalizing h with
  | nil => exact ⟨hrep, rfl, rfl, rfl⟩
  | cons a actions ih =>
    obtain ⟨hrep', htotal', htenant', hquantum'⟩ := rep_act hrep hq a
    obtain ⟨hrun, htotal, htenant, hquantum⟩ := ih hrep' (hquantum'.symm ▸ hq)
    exact ⟨hrun, htotal.trans htotal', htenant.trans htenant', hquantum.trans hquantum'⟩

/-- Nothing is lost, and what a tenant has popped and queued is in the order of
its puts. -/
structure Conserved (h : History) : Prop where
  all : h.accepted.Perm (h.popped ++ (h.removed ++ (h.drained ++ h.queue.requests)))
  inOrder : ∀ t, (ofTenant t (h.popped ++ h.queue.requests)).Sublist (ofTenant t h.accepted)

theorem conserved_act {h : History} (hrep : Rep h.queue) (hq : 0 < h.queue.quantum) (hc : Conserved h) (a : Action) :
    Conserved (act h a) := by
  cases a with
  | put r =>
    rcases act_put hrep r with heq | ⟨q, hput, heq⟩
    · rwa [heq]
    · rw [heq]
      refine ⟨?_, fun t => ?_⟩
      · have hleft := (((put_perm hput).append_left h.drained).append_left h.removed).append_left h.popped
        have hadd := (List.perm_append_singleton r h.accepted).trans (hc.all.cons r)
        refine hadd.trans (List.Perm.trans ?_ hleft.symm)
        simp only [← List.append_assoc]
        exact List.perm_middle.symm
      · rw [ofTenant_append, ofTenant_put hrep hput, ofTenant_append, ← List.append_assoc, ← ofTenant_append,
          ofTenant_append _ h.accepted]
        exact (hc.inOrder t).append_right _
  | pop =>
    simp only [act]
    cases hpop : h.queue.pop with
    | none => exact hc
    | some result =>
      obtain ⟨r, q⟩ := result
      refine ⟨?_, fun t => ?_⟩
      · have hleft := (((pop_perm hpop).append_left h.drained).append_left h.removed).append_left h.popped
        refine hc.all.trans (hleft.trans ?_)
        simp only [← List.append_assoc]
        refine List.perm_middle.trans ?_
        exact (List.perm_append_singleton r h.popped).symm.append_right _ |>.append_right _ |>.append_right _
      · have hsame := ofTenant_pop hrep hq hpop t
        have horder := hc.inOrder t
        rw [ofTenant_append, hsame, ← ofTenant_append] at horder
        simpa using horder
  | remove id =>
    simp only [act]
    cases hremove : h.queue.remove id with
    | none => exact hc
    | some result =>
      obtain ⟨r, q⟩ := result
      refine ⟨?_, fun t => ?_⟩
      · have hleft := (((remove_perm hremove).2.append_left h.drained).append_left h.removed).append_left h.popped
        refine hc.all.trans (hleft.trans (List.Perm.append_left _ ?_))
        rw [List.append_assoc]
        exact List.perm_middle.append_left _
      · have hless := (ofTenant_remove hremove t).append_left (ofTenant t h.popped)
        rw [← ofTenant_append, ← ofTenant_append] at hless
        exact hless.trans (hc.inOrder t)
  | drain =>
    refine ⟨?_, fun t => ?_⟩
    · show h.accepted.Perm (h.popped ++ (h.removed ++ ((h.drained ++ h.queue.requests) ++ [])))
      rw [List.append_nil]
      exact hc.all
    · show (ofTenant t (h.popped ++ [])).Sublist (ofTenant t h.accepted)
      have hless := List.sublist_append_left (ofTenant t h.popped) (ofTenant t h.queue.requests)
      rw [← ofTenant_append] at hless
      rw [List.append_nil]
      exact hless.trans (hc.inOrder t)

theorem conserved_run {h : History} (hrep : Rep h.queue) (hq : 0 < h.queue.quantum) (hc : Conserved h)
    (actions : List Action) : Conserved (actions.foldl act h) := by
  induction actions generalizing h with
  | nil => exact hc
  | cons a actions ih =>
    obtain ⟨hrep', -, -, hquantum⟩ := rep_act hrep hq a
    exact ih hrep' (hquantum.symm ▸ hq) (conserved_act hrep hq hc a)

/-- **The queue is consistent.** After every sequence of operations the size is
the number of queued requests, no deque is empty, the tenants with a deficit are
those with a deque and no deficit is negative, and the capacities hold. A `put`
that raises leaves the queue exactly as it was, what was put is what has been
popped, removed and drained and what is queued, and each tenant's requests are
popped in the order in which they were put. -/
theorem queue_consistent (totalCapacity tenantCapacity : Option ℕ) (quantum : ℤ) (hq : 0 < quantum)
    (actions : List Action) :
    let h := actions.foldl act { queue := new totalCapacity tenantCapacity quantum }
    (h.queue.size = h.queue.requests.length ∧ (∀ e ∈ h.queue.queues, e.2 ≠ []) ∧
      (h.queue.queues.map (·.1)).Nodup ∧
      (∀ t, (h.queue.deficits t).isSome ↔ t ∈ h.queue.queues.map (·.1)) ∧
      (∀ t d, h.queue.deficits t = some d → 0 ≤ d) ∧
      (∀ c, totalCapacity = some c → h.queue.size ≤ c) ∧
      ∀ c, tenantCapacity = some c → ∀ e ∈ h.queue.queues, e.2.length ≤ c) ∧
    (∀ r, (h.queue.enqueue r).2 = true → (h.queue.enqueue r).1 = h.queue) ∧
    h.accepted.Perm (h.popped ++ (h.removed ++ (h.drained ++ h.queue.requests))) ∧
    ∀ t, (ofTenant t h.popped).Sublist (ofTenant t h.accepted) := by
  intro h
  have hnew := rep_new totalCapacity tenantCapacity quantum
  obtain ⟨hrep, htotal, htenant, -⟩ :=
    rep_run (h := { queue := new totalCapacity tenantCapacity quantum }) hnew hq actions
  have hc := conserved_run (h := { queue := new totalCapacity tenantCapacity quantum }) hnew hq
    ⟨List.Perm.refl _, fun _ => List.Sublist.refl _⟩ actions
  refine ⟨⟨hrep.size, hrep.nonempty, hrep.tenants, hrep.sameTenants, hrep.nonneg, fun c hcap => ?_, fun c hcap => ?_⟩,
    fun r hraise => ?_, hc.all, fun t => ?_⟩
  · exact hrep.withinTotal c (htotal.trans hcap)
  · exact hrep.withinTenant c (htenant.trans hcap)
  · rw [enqueue_eq hrep] at hraise ⊢
    cases hput : h.queue.put r with
    | none => rfl
    | some q =>
      rw [hput] at hraise
      cases hraise
  · have hless := List.sublist_append_left (ofTenant t h.popped) (ofTenant t h.queue.requests)
    rw [← ofTenant_append] at hless
    exact hless.trans (hc.inOrder t)

/-- Two tenants, a queue with two places, and all four operations. -/
theorem queue_consistent_full :
    let request := fun (id t : String) (cost : ℤ) =>
      ({ id := id, modelId := "m", tenantId := t, estimatedTokens := cost, reservationId := id,
         enqueuedAt := 0, assignment := 0 } : QueuedRequest)
    let h := [Action.put (request "1" "a" 9), .put (request "2" "b" 3), .put (request "3" "c" 1), .pop,
      .put (request "4" "b" 2), .remove "1", .drain].foldl act { queue := new (some 2) none 4 }
    h.accepted.Perm (h.popped ++ (h.removed ++ (h.drained ++ h.queue.requests))) :=
  (queue_consistent (some 2) none 4 (by decide) _).2.2.1

end DeficitRoundRobinQueue
end LlmRio
