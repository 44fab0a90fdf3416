/-
# Fairness in tokens

A turn adds the quantum to the tenant's deficit and serves one request, however
many the deficit would cover; the rest of the deficit is kept. The turns of two
backlogged tenants alternate, so what they are served differs by what their
deficits have gained: `balance` adds the two up, and no operation changes it
(`balance_run`).

A request that costs at least the quantum uses up what the turn has added, so
deficits stay below the largest cost, and two backlogged tenants are served the
same tokens up to `quantum + 2 * largest cost`. A cheaper request leaves a part
of the quantum in the deficit at each turn: the deficit grows without bound, and
a tenant with cheap requests is served as many requests as one with expensive
ones, not as many tokens (`cheap_rounds`). So the queue is fair in tokens if and
only if every request costs at least the quantum (`token_fairness`).

Key definitions: `servedTokens`, `TokenFair`, `lead`, `balance`, `Heavy`.
Key theorems: `lead_pass`, `lead_served`, `balance_run`, `heavy_run`,
`cheap_rounds`, `token_fairness`.
-/
import LlmRio.Runtime.Starvation

namespace LlmRio

open Rotation

namespace DeficitRoundRobinQueue

def servedTokens (t : AccountId) (popped : List QueuedRequest) : ℤ := ((ofTenant t popped).map (·.estimatedTokens)).sum

/-- Both tenants have queued requests. -/
def backlogged (a b : AccountId) (q : DeficitRoundRobinQueue) : Prop :=
  a ∈ q.queues.map (·.1) ∧ b ∈ q.queues.map (·.1)

/-- Both tenants have queued requests before and after each of the operations. -/
def staysBacklogged (a b : AccountId) : History → List Action → Prop
  | h, [] => backlogged a b h.queue
  | h, x :: xs => backlogged a b h.queue ∧ staysBacklogged a b (act h x) xs

/-- A pop, or a put of a request with one of the costs. -/
def Action.withCosts (costs : Set ℤ) : Action → Prop
  | .put r => r.estimatedTokens ∈ costs
  | .pop => True
  | .remove _ | .drain => False

/-- In every run of puts with these costs and of pops, deficits stay below the
quantum plus the largest cost, and two tenants that stay backlogged are served
the same tokens, up to `bound`. -/
def TokenFair (bound quantum largest : ℤ) (costs : Set ℤ) : Prop :=
  ∀ (totalCapacity tenantCapacity : Option ℕ) (before : List Action), (∀ x ∈ before, x.withCosts costs) →
    let q := (before.foldl act { queue := new totalCapacity tenantCapacity quantum }).queue
    (∀ t d, q.deficits t = some d → d < quantum + largest) ∧
    ∀ (a b : AccountId) (during : List Action), (∀ x ∈ during, x.withCosts costs) →
      staysBacklogged a b { queue := q } during →
      |servedTokens a (during.foldl act { queue := q }).popped -
        servedTokens b (during.foldl act { queue := q }).popped| ≤ bound

variable {quantum : ℤ} {cap : Option ℕ} {a b x : AccountId} {r : QueuedRequest} {rs : List QueuedRequest}
  {queues queues' : Entries} {deficits deficits' : Deficits} {q q' : DeficitRoundRobinQueue}

/-! ### The lead of one tenant on another -/

/-- What `a` may still be served more than `b`. -/
def lead (quantum : ℤ) (a b : AccountId) (queues : Entries) (deficits : Deficits) : ℤ :=
  (deficits a).getD 0 - (deficits b).getD 0 + if ahead a b (queues.map (·.1)) then quantum else 0

theorem lead_pass (hab : a ≠ b) (h : Agree cap ((x, rs) :: queues) deficits)
    (ha : a ∈ ((x, rs) :: queues).map (·.1)) (hb : b ∈ ((x, rs) :: queues).map (·.1)) :
    lead quantum a b (queues ++ [(x, rs)]) (Function.update deficits x (some (credit quantum deficits x))) =
      lead quantum a b ((x, rs) :: queues) deficits := by
  have htenants := h.tenants
  rw [List.map_cons, List.nodup_cons] at htenants
  rw [List.map_cons, List.mem_cons] at ha hb
  unfold lead
  rw [List.map_append, List.map_singleton, List.map_cons]
  by_cases hxa : x = a
  · subst hxa
    have hb' := hb.resolve_left (Ne.symm hab)
    rw [Function.update_self, Function.update_of_ne (Ne.symm hab), ahead_cons_first hab,
      ahead_turn hb' htenants.1, Option.getD_some]
    simp only [credit, Bool.false_eq_true, if_false, if_true]
    omega
  · have ha' := ha.resolve_left (Ne.symm hxa)
    by_cases hxb : x = b
    · subst hxb
      rw [Function.update_self, Function.update_of_ne hab, ahead_cons_self,
        ahead_turn_self htenants.1 ha', Option.getD_some]
      simp only [credit, Bool.false_eq_true, if_false, if_true]
      omega
    · have hb' := hb.resolve_left (Ne.symm hxb)
      rw [Function.update_of_ne (Ne.symm hxa), Function.update_of_ne (Ne.symm hxb), ahead_turn_other hxa hxb hb']

/-- The turn that serves a request moves its cost from the lead to the served
tokens. -/
theorem lead_served (hab : a ≠ b) (h : Agree cap ((x, r :: rs) :: queues) deficits)
    (hserved : Served quantum x r queues deficits rs queues' deficits')
    (ha : a ∈ queues'.map (·.1)) (hb : b ∈ queues'.map (·.1)) :
    (if x = a then r.estimatedTokens else 0) - (if x = b then r.estimatedTokens else 0) +
        lead quantum a b queues' deficits' =
      lead quantum a b ((x, r :: rs) :: queues) deficits := by
  have htenants := h.tenants
  rw [List.map_cons, List.nodup_cons] at htenants
  unfold lead
  rw [List.map_cons]
  cases hserved with
  | last =>
    have hxa : x ≠ a := fun heq => htenants.1 (heq ▸ ha)
    have hxb : x ≠ b := fun heq => htenants.1 (heq ▸ hb)
    rw [if_neg hxa, if_neg hxb, Function.update_of_ne (Ne.symm hxa), Function.update_of_ne (Ne.symm hxb),
      ahead_cons_ne hxa hxb, sub_self, zero_add]
  | more hne =>
    rw [List.map_append, List.map_singleton, List.mem_append, List.mem_singleton] at ha hb
    rw [List.map_append, List.map_singleton]
    by_cases hxa : x = a
    · subst hxa
      have hb' := hb.resolve_right (Ne.symm hab)
      rw [if_pos rfl, if_neg hab, Function.update_self, Function.update_of_ne (Ne.symm hab), ahead_cons_first hab,
        ahead_turn hb' htenants.1, Option.getD_some]
      simp only [credit, Bool.false_eq_true, if_false, if_true]
      omega
    · have ha' := ha.resolve_right (Ne.symm hxa)
      by_cases hxb : x = b
      · subst hxb
        rw [if_neg hxa, if_pos rfl, Function.update_self, Function.update_of_ne hab, ahead_cons_self,
          ahead_turn_self htenants.1 ha', Option.getD_some]
        simp only [credit, Bool.false_eq_true, if_false, if_true]
        omega
      · have hb' := hb.resolve_right (Ne.symm hxb)
        rw [if_neg hxa, if_neg hxb, Function.update_of_ne (Ne.symm hxa), Function.update_of_ne (Ne.symm hxb),
          ahead_turn_other hxa hxb hb', sub_self, zero_add]

theorem lead_pop (hrep : Rep q) (hq : 0 < q.quantum) (hab : a ≠ b) (hbefore : backlogged a b q)
    (hpop : q.pop = some (r, q')) (hafter : backlogged a b q') :
    (if r.tenantId = a then r.estimatedTokens else 0) - (if r.tenantId = b then r.estimatedTokens else 0) +
        lead q.quantum a b q'.queues q'.deficits = lead q.quantum a b q.queues q.deficits := by
  unfold pop at hpop
  split at hpop
  · cases hpop
  · obtain ⟨⟨r0, queues', deficits'⟩, hturns, heq⟩ := Option.map_eq_some_iff.mp hpop
    cases heq
    obtain ⟨x, rs, queues0, deficits0, ⟨hagree, -, -, hlead⟩, -, hserved⟩ := turns_rule
      (I := fun queues deficits => Agree q.tenantCapacity queues deficits ∧ a ∈ queues.map (·.1) ∧
        b ∈ queues.map (·.1) ∧ lead q.quantum a b queues deficits = lead q.quantum a b q.queues q.deficits)
      (fun t r rs queues deficits hd _ => by
        obtain ⟨hagree, ha, hb, hlead⟩ := hd
        have hsame := ((List.perm_append_singleton (t, r :: rs) queues).map (·.1)).symm
        exact ⟨hagree.pass hq, hsame.mem_iff.mp ha, hsame.mem_iff.mp hb,
          (lead_pass hab hagree ha hb).trans hlead⟩)
      ⟨hrep.toAgree, hbefore.1, hbefore.2, rfl⟩ hturns
    have howner : r.tenantId = x := hagree.owners _ List.mem_cons_self r List.mem_cons_self
    rw [howner, ← hlead]
    exact lead_served hab hagree hserved hafter.1 hafter.2

theorem lead_put (hbefore : backlogged a b q) (hput : q.put r = some q') :
    lead q.quantum a b q'.queues q'.deficits = lead q.quantum a b q.queues q.deficits := by
  obtain ⟨-, -, rfl⟩ := put_some hput
  have hdeficit : ∀ t, (Function.update q.deficits r.tenantId (some ((q.deficits r.tenantId).getD 0)) t).getD 0 =
      (q.deficits t).getD 0 := by
    intro t
    by_cases ht : t = r.tenantId
    · rw [ht, Function.update_self, Option.getD_some]
    · rw [Function.update_of_ne ht]
  unfold lead
  simp only [hdeficit]
  by_cases hr : r.tenantId ∈ q.queues.map (·.1)
  · obtain ⟨pre, rs, post, heq, hpre⟩ := entry_of_mem hr
    rw [heq, append_old hpre]
    simp only [List.map_append, List.map_cons]
  · rw [append_new hr, List.map_append, List.map_singleton, ahead_join hbefore.2]

/-! ### Runs -/

variable {h : History} {costs : Set ℤ} {largest : ℤ}

theorem servedTokens_append (t : AccountId) (popped popped' : List QueuedRequest) :
    servedTokens t (popped ++ popped') = servedTokens t popped + servedTokens t popped' := by
  unfold servedTokens
  rw [ofTenant_append, List.map_append, List.sum_append]

theorem servedTokens_singleton (t : AccountId) (r : QueuedRequest) :
    servedTokens t [r] = if r.tenantId = t then r.estimatedTokens else 0 := by
  unfold servedTokens
  rw [ofTenant_singleton]
  split <;> simp

/-- What `a` has been served more than `b`, and may still be. -/
def balance (a b : AccountId) (h : History) : ℤ :=
  servedTokens a h.popped - servedTokens b h.popped + lead h.queue.quantum a b h.queue.queues h.queue.deficits

theorem balance_act (hrep : Rep h.queue) (hq : 0 < h.queue.quantum) (hab : a ≠ b) {x : Action}
    (hx : x.withCosts costs) (hbefore : backlogged a b h.queue) (hafter : backlogged a b (act h x).queue) :
    balance a b (act h x) = balance a b h := by
  cases x with
  | put r =>
    rcases act_put hrep r with heq | ⟨q, hput, heq⟩
    · rw [heq]
    · rw [heq]
      unfold balance
      simp only
      rw [(put_config hput).2.2, lead_put hbefore hput]
  | pop =>
    simp only [act] at hafter ⊢
    cases hpop : h.queue.pop with
    | none => rfl
    | some result =>
      obtain ⟨r, q⟩ := result
      rw [hpop] at hafter
      have hlead := lead_pop hrep hq hab hbefore hpop hafter
      unfold balance
      simp only
      rw [(pop_config hpop).2.2, servedTokens_append, servedTokens_append, servedTokens_singleton,
        servedTokens_singleton]
      omega
  | remove id => cases hx
  | drain => cases hx

theorem staysBacklogged_start {actions : List Action} (hstays : staysBacklogged a b h actions) :
    backlogged a b h.queue := by
  cases actions with
  | nil => exact hstays
  | cons x xs => exact hstays.1

theorem balance_run (hab : a ≠ b) : ∀ {during : List Action} {h : History}, Rep h.queue → 0 < h.queue.quantum →
    (∀ x ∈ during, x.withCosts costs) → staysBacklogged a b h during →
      backlogged a b (during.foldl act h).queue ∧ balance a b (during.foldl act h) = balance a b h
  | [], _, _, _, _, hstays => ⟨hstays, rfl⟩
  | x :: xs, h, hrep, hq, hcosts, hstays => by
    obtain ⟨hrep', hconfig⟩ := rep_act hrep hq x
    have hstep := balance_act hrep hq hab (hcosts x List.mem_cons_self) hstays.1 (staysBacklogged_start hstays.2)
    obtain ⟨hend, hrun⟩ := balance_run hab hrep' (hconfig.2.2.symm ▸ hq)
      (fun y hy => hcosts y (List.mem_cons_of_mem _ hy)) hstays.2
    exact ⟨hend, hrun.trans hstep⟩

/-! ### Requests that cost at least the quantum -/

/-- Deficits stay below the largest cost. -/
structure Heavy (quantum largest : ℤ) (queues : Entries) (deficits : Deficits) : Prop where
  costs : ∀ e ∈ queues, ∀ r ∈ e.2, quantum ≤ r.estimatedTokens ∧ r.estimatedTokens ≤ largest
  low : ∀ t d, deficits t = some d → d < largest

theorem Heavy.empty (quantum largest : ℤ) : Heavy quantum largest [] fun _ => none := by
  constructor <;> simp

theorem Heavy.getD_lt (h : Heavy quantum largest queues deficits) (hpos : 0 < largest) (t : AccountId) :
    (deficits t).getD 0 < largest := by
  cases hd : deficits t with
  | none => exact hpos
  | some d => exact h.low t d hd

theorem Heavy.charge (h : Heavy quantum largest queues deficits) {d : ℤ} (hd : d < largest) (t : AccountId) :
    Heavy quantum largest queues (Function.update deficits t (some d)) := by
  refine ⟨h.costs, fun u d' hu => ?_⟩
  by_cases hut : u = t
  · subst hut
    rw [Function.update_self] at hu
    cases hu
    exact hd
  · rw [Function.update_of_ne hut] at hu
    exact h.low u d' hu

theorem Heavy.pass (h : Heavy quantum largest ((x, r :: rs) :: queues) deficits)
    (hcost : credit quantum deficits x < r.estimatedTokens) :
    Heavy quantum largest (queues ++ [(x, r :: rs)])
      (Function.update deficits x (some (credit quantum deficits x))) := by
  have hlargest := (h.costs _ List.mem_cons_self r List.mem_cons_self).2
  have hcharged := h.charge (lt_of_lt_of_le hcost hlargest) x
  refine ⟨fun e he => hcharged.costs e ?_, hcharged.low⟩
  exact (List.perm_append_singleton _ _).mem_iff.mp he

theorem Heavy.served (hq : 0 < quantum) (h : Heavy quantum largest ((x, r :: rs) :: queues) deficits)
    (hserved : Served quantum x r queues deficits rs queues' deficits') : Heavy quantum largest queues' deficits' := by
  have hcost := h.costs _ List.mem_cons_self r List.mem_cons_self
  have hothers : ∀ e ∈ queues, ∀ r ∈ e.2, quantum ≤ r.estimatedTokens ∧ r.estimatedTokens ≤ largest :=
    fun e he => h.costs e (List.mem_cons_of_mem _ he)
  cases hserved with
  | last =>
    refine ⟨hothers, fun u d hu => ?_⟩
    by_cases hux : u = x
    · subst hux
      rw [Function.update_self] at hu
      cases hu
    · rw [Function.update_of_ne hux] at hu
      exact h.low u d hu
  | more hne =>
    have hlow := h.getD_lt (lt_of_lt_of_le hq (hcost.1.trans hcost.2)) x
    have hspent : credit quantum deficits x - r.estimatedTokens < largest := by
      unfold credit
      omega
    refine ⟨fun e he => ?_, (h.charge hspent x).low⟩
    rcases List.mem_append.mp he with he | he
    · exact hothers e he
    · rw [List.mem_singleton.mp he]
      exact fun r' hr' => h.costs _ List.mem_cons_self r' (List.mem_cons_of_mem _ hr')

theorem heavy_put (hpos : 0 < largest) (hheavy : Heavy quantum largest q.queues q.deficits)
    (hcost : quantum ≤ r.estimatedTokens ∧ r.estimatedTokens ≤ largest) (hput : q.put r = some q') :
    Heavy quantum largest q'.queues q'.deficits := by
  obtain ⟨-, -, rfl⟩ := put_some hput
  refine ⟨?_, (hheavy.charge (hheavy.getD_lt hpos r.tenantId) r.tenantId).low⟩
  intro e he r' hr'
  have hin : r' ∈ (append r q.queues).flatMap (·.2) := List.mem_flatMap.mpr ⟨e, he, hr'⟩
  rcases List.mem_cons.mp ((append_perm r q.queues).mem_iff.mp hin) with rfl | hold
  · exact hcost
  · obtain ⟨e', he', hr'⟩ := List.mem_flatMap.mp hold
    exact hheavy.costs e' he' r' hr'

theorem heavy_pop (hq : 0 < q.quantum) (hheavy : Heavy q.quantum largest q.queues q.deficits)
    (hpop : q.pop = some (r, q')) : Heavy q.quantum largest q'.queues q'.deficits := by
  unfold pop at hpop
  split at hpop
  · cases hpop
  · obtain ⟨⟨r0, queues', deficits'⟩, hturns, heq⟩ := Option.map_eq_some_iff.mp hpop
    cases heq
    obtain ⟨x, rs, queues0, deficits0, hbefore, -, hserved⟩ := turns_rule
      (I := Heavy q.quantum largest) (fun _ _ _ _ _ hd hcost => hd.pass hcost) hheavy hturns
    exact hbefore.served hq hserved

theorem heavy_act (hrep : Rep h.queue) (hq : 0 < h.queue.quantum)
    (hheavy : Heavy h.queue.quantum largest h.queue.queues h.queue.deficits) {x : Action} (hx : x.withCosts costs)
    (hcosts : ∀ c ∈ costs, h.queue.quantum ≤ c ∧ c ≤ largest) :
    Heavy h.queue.quantum largest (act h x).queue.queues (act h x).queue.deficits := by
  cases x with
  | put r =>
    rcases act_put hrep r with heq | ⟨q, hput, heq⟩
    · rwa [heq]
    · rw [heq]
      have hcost := hcosts _ hx
      exact heavy_put (lt_of_lt_of_le hq (hcost.1.trans hcost.2)) hheavy hcost hput
  | pop =>
    simp only [act]
    cases hpop : h.queue.pop with
    | none => exact hheavy
    | some result => exact heavy_pop hq hheavy hpop
  | remove id => cases hx
  | drain => cases hx

theorem heavy_run : ∀ {actions : List Action} {h : History}, Rep h.queue → 0 < h.queue.quantum →
    Heavy h.queue.quantum largest h.queue.queues h.queue.deficits → (∀ x ∈ actions, x.withCosts costs) →
    (∀ c ∈ costs, h.queue.quantum ≤ c ∧ c ≤ largest) →
      Heavy h.queue.quantum largest (actions.foldl act h).queue.queues (actions.foldl act h).queue.deficits
  | [], _, _, _, hheavy, _, _ => hheavy
  | x :: xs, h, hrep, hq, hheavy, hactions, hcosts => by
    obtain ⟨hrep', -, -, hquantum⟩ := rep_act hrep hq x
    have hstep := heavy_act hrep hq hheavy (hactions x List.mem_cons_self) hcosts
    rw [← hquantum] at hstep hq hcosts ⊢
    exact heavy_run hrep' hq hstep (fun y hy => hactions y (List.mem_cons_of_mem _ hy)) hcosts

/-- The deficits of two backlogged tenants bound the lead. -/
theorem lead_bounds (hrep : Rep q) (hq : 0 < quantum) (hheavy : Heavy quantum largest q.queues q.deficits)
    (hbacklogged : backlogged a b q) :
    0 < largest ∧ -largest < lead quantum a b q.queues q.deficits ∧
      lead quantum a b q.queues q.deficits < quantum + largest := by
  have hdeficit : ∀ t ∈ q.queues.map (·.1), 0 ≤ (q.deficits t).getD 0 ∧ (q.deficits t).getD 0 < largest := by
    intro t ht
    obtain ⟨d, hd⟩ := Option.isSome_iff_exists.mp ((hrep.sameTenants t).mpr ht)
    rw [hd, Option.getD_some]
    exact ⟨hrep.nonneg t d hd, hheavy.low t d hd⟩
  have ha := hdeficit a hbacklogged.1
  have hb := hdeficit b hbacklogged.2
  unfold lead
  split <;> omega

/-! ### Requests that cost less than the quantum -/

theorem staysBacklogged_append {ys : List Action} : ∀ {xs : List Action} {h : History},
    staysBacklogged a b h xs → staysBacklogged a b (xs.foldl act h) ys → staysBacklogged a b h (xs ++ ys)
  | [], _, _, hys => hys
  | _ :: _, _, hxs, hys => ⟨hxs.1, staysBacklogged_append hxs.2 hys⟩

theorem pop_front (hsize : q.size ≠ 0) (hqueues : q.queues = (x, r :: rs) :: queues) (hrs : rs ≠ [])
    (hcost : r.estimatedTokens ≤ credit q.quantum q.deficits x) :
    q.pop = some (r, { q with
      queues := queues ++ [(x, rs)]
      deficits := Function.update q.deficits x (some (credit q.quantum q.deficits x - r.estimatedTokens))
      size := q.size - 1 }) := by
  have hturns : ∀ fuel, turns q.quantum (fuel + 1) q.queues q.deficits = some (r, queues ++ [(x, rs)],
      Function.update q.deficits x (some (credit q.quantum q.deficits x - r.estimatedTokens))) := by
    intro fuel
    rw [hqueues, turns]
    unfold credit at hcost ⊢
    rw [if_pos hcost, if_neg hrs]
  unfold pop
  rw [if_neg hsize, hturns]
  rfl

theorem enqueue_unlimited (htotal : q.totalCapacity = none) (htenant : q.tenantCapacity = none) (r : QueuedRequest) :
    q.enqueue r = ({ q with
      queues := append r q.queues
      deficits := Function.update q.deficits r.tenantId (some ((q.deficits r.tenantId).getD 0))
      size := q.size + 1 }, false) := by
  unfold enqueue
  simp only [append_setDefault, htotal, htenant]
  rfl

/-- A queue with two tenants, their deficits and what they have been served. -/
structure TwoTenants (x y : AccountId) (xs ys : List QueuedRequest) (deficitX deficitY servedX servedY quantum : ℤ)
    (h : History) : Prop where
  distinct : x ≠ y
  unlimited : h.queue.totalCapacity = none ∧ h.queue.tenantCapacity = none
  perTurn : h.queue.quantum = quantum
  queues : h.queue.queues = [(x, xs), (y, ys)]
  size : h.queue.size = xs.length + ys.length
  deficits : h.queue.deficits x = some deficitX ∧ h.queue.deficits y = some deficitY
  served : servedTokens x h.popped = servedX ∧ servedTokens y h.popped = servedY

namespace TwoTenants

variable {y : AccountId} {xs ys : List QueuedRequest} {deficitX deficitY servedX servedY : ℤ}

theorem backlogged (h2 : TwoTenants a b xs ys deficitX deficitY servedX servedY quantum h) :
    backlogged a b h.queue := by
  unfold DeficitRoundRobinQueue.backlogged
  rw [h2.queues]
  simp

theorem swapped (h2 : TwoTenants b a xs ys deficitX deficitY servedX servedY quantum h) :
    DeficitRoundRobinQueue.backlogged a b h.queue := by
  unfold DeficitRoundRobinQueue.backlogged
  rw [h2.queues]
  simp

/-- A request of one of the two is put into its queue. -/
theorem put (h2 : TwoTenants x y xs ys deficitX deficitY servedX servedY quantum h)
    (hr : r.tenantId = x ∨ r.tenantId = y) :
    TwoTenants x y (xs ++ [r].filter (·.tenantId = x)) (ys ++ [r].filter (·.tenantId = y)) deficitX deficitY
      servedX servedY quantum (act h (.put r)) := by
  have henqueue := enqueue_unlimited h2.unlimited.1 h2.unlimited.2 r
  have hkept : ∀ t, (h.queue.deficits t).isSome → Function.update h.queue.deficits r.tenantId
      (some ((h.queue.deficits r.tenantId).getD 0)) t = h.queue.deficits t := by
    intro t ht
    by_cases hsame : t = r.tenantId
    · obtain ⟨d, hd⟩ := Option.isSome_iff_exists.mp ht
      rw [hsame, Function.update_self, ← hsame, hd, Option.getD_some]
    · exact Function.update_of_ne hsame _ _
  simp only [act, henqueue]
  refine ⟨h2.distinct, h2.unlimited, h2.perTurn, ?_, ?_, ⟨?_, ?_⟩, h2.served⟩
  · simp only [h2.queues, append]
    rcases hr with hr | hr
    · simp [hr, h2.distinct]
    · simp [hr, h2.distinct, h2.distinct.symm]
  · simp only [h2.size, List.length_append]
    rcases hr with hr | hr
    · simp [hr, h2.distinct]
      omega
    · simp [hr, h2.distinct.symm]
      omega
  · exact (hkept x (by rw [h2.deficits.1]; rfl)).trans h2.deficits.1
  · exact (hkept y (by rw [h2.deficits.2]; rfl)).trans h2.deficits.2

/-- The tenant in front is served one request and goes to the back. -/
theorem pop (h2 : TwoTenants x y (r :: xs) ys deficitX deficitY servedX servedY quantum h) (hxs : xs ≠ [])
    (hr : r.tenantId = x) (hcost : r.estimatedTokens ≤ deficitX + quantum) :
    TwoTenants y x ys xs deficitY (deficitX + quantum - r.estimatedTokens) servedY (servedX + r.estimatedTokens)
      quantum (act h .pop) := by
  have hcredit : credit h.queue.quantum h.queue.deficits x = deficitX + quantum := by
    unfold credit
    rw [h2.deficits.1, h2.perTurn, Option.getD_some]
  have hsize : h.queue.size ≠ 0 := by
    rw [h2.size, List.length_cons]
    omega
  have hpop := pop_front hsize h2.queues hxs (hcredit.symm ▸ hcost)
  simp only [act, hpop]
  refine ⟨h2.distinct.symm, h2.unlimited, h2.perTurn, rfl, ?_, ?_, ?_⟩
  · simp only [h2.size, List.length_cons]
    omega
  · simp only
    rw [Function.update_self, Function.update_of_ne h2.distinct.symm, hcredit]
    exact ⟨h2.deficits.2, rfl⟩
  · simp only
    rw [servedTokens_append, servedTokens_append, servedTokens_singleton, servedTokens_singleton, if_pos hr,
      if_neg (hr ▸ h2.distinct), h2.served.1, h2.served.2, add_zero]
    exact ⟨rfl, rfl⟩

/-- What is served is counted anew. -/
theorem restart (h2 : TwoTenants x y xs ys deficitX deficitY servedX servedY quantum h) :
    TwoTenants x y xs ys deficitX deficitY 0 0 quantum { queue := h.queue } :=
  ⟨h2.distinct, h2.unlimited, h2.perTurn, h2.queues, h2.size, h2.deficits, rfl, rfl⟩

end TwoTenants

/-- The request number `i` of a tenant whose requests all cost the same. -/
def numbered (t : AccountId) (cost : ℤ) (i : ℕ) : QueuedRequest :=
  { id := toString i ++ t, modelId := "m", tenantId := t, estimatedTokens := cost,
    reservationId := toString i ++ t, enqueuedAt := i, assignment := i }

def firstPuts (a b : AccountId) (costA costB : ℤ) : List Action :=
  [.put (numbered a costA 0), .put (numbered b costB 0)]

/-- Both tenants put a request and two requests are popped. -/
def cheapRound (a b : AccountId) (costA costB : ℤ) (i : ℕ) : List Action :=
  [.put (numbered a costA (i + 1)), .put (numbered b costB (i + 1)), .pop, .pop]

def cheapRounds (a b : AccountId) (costA costB : ℤ) (n : ℕ) : List Action :=
  (List.range n).flatMap (cheapRound a b costA costB)

/-- After `n` rounds each tenant has been served `n` requests, and its deficit
has what they left of `n` quanta. -/
def AfterRounds (a b : AccountId) (costA costB quantum : ℤ) (n : ℕ) : History → Prop :=
  TwoTenants a b [numbered a costA n] [numbered b costB n] (n * (quantum - costA)) (n * (quantum - costB))
    (n * costA) (n * costB) quantum

variable {costA costB : ℤ}

theorem cheap_round {n : ℕ} (hA : costA ≤ quantum) (hB : costB ≤ quantum)
    (hn : AfterRounds a b costA costB quantum n h) :
    AfterRounds a b costA costB quantum (n + 1) ((cheapRound a b costA costB n).foldl act h) ∧
      staysBacklogged a b h (cheapRound a b costA costB n) := by
  have hdeficitA : 0 ≤ (n : ℤ) * (quantum - costA) := mul_nonneg (Int.natCast_nonneg n) (sub_nonneg.mpr hA)
  have hdeficitB : 0 ≤ (n : ℤ) * (quantum - costB) := mul_nonneg (Int.natCast_nonneg n) (sub_nonneg.mpr hB)
  have htenantA : (numbered a costA (n + 1)).tenantId = a := rfl
  have htenantB : (numbered b costB (n + 1)).tenantId = b := rfl
  have hputA := TwoTenants.put (r := numbered a costA (n + 1)) hn (.inl htenantA)
  have hputB := TwoTenants.put (r := numbered b costB (n + 1)) hputA (.inr htenantB)
  simp only [List.filter_singleton, htenantA, htenantB, hn.distinct, hn.distinct.symm, decide_true,
    decide_false] at hputA hputB
  have hpopA := TwoTenants.pop hputB (List.cons_ne_nil _ _) rfl (show costA ≤ _ by omega)
  have hpopB := TwoTenants.pop hpopA (List.cons_ne_nil _ _) rfl (show costB ≤ _ by omega)
  refine ⟨?_, TwoTenants.backlogged hn, hputA.backlogged, hputB.backlogged, hpopA.swapped, hpopB.backlogged⟩
  have hleft : ∀ cost : ℤ, ((n + 1 : ℕ) : ℤ) * (quantum - cost) = n * (quantum - cost) + quantum - cost := by
    intro cost
    push_cast
    ring
  have hpaid : ∀ cost : ℤ, ((n + 1 : ℕ) : ℤ) * cost = n * cost + cost := by
    intro cost
    push_cast
    ring
  unfold AfterRounds
  rw [hleft, hleft, hpaid, hpaid]
  exact hpopB

/-- While both tenants are backlogged they are served one request each in every
round, whatever their requests cost. -/
theorem cheap_rounds (hA : costA ≤ quantum) (hB : costB ≤ quantum)
    (hstart : AfterRounds a b costA costB quantum 0 h) : ∀ n : ℕ,
      AfterRounds a b costA costB quantum n ((cheapRounds a b costA costB n).foldl act h) ∧
        staysBacklogged a b h (cheapRounds a b costA costB n) := by
  intro n
  induction n with
  | zero => exact ⟨hstart, TwoTenants.backlogged hstart⟩
  | succ n ih =>
    obtain ⟨hround, hstays⟩ := cheap_round hA hB ih.1
    unfold cheapRounds at ih ⊢
    rw [List.range_succ, List.flatMap_append, List.flatMap_singleton, List.foldl_append]
    exact ⟨hround, staysBacklogged_append ih.2 hstays⟩

theorem afterRounds_start (hab : a ≠ b) (costA costB quantum : ℤ) :
    AfterRounds a b costA costB quantum 0
      ((firstPuts a b costA costB).foldl act { queue := new none none quantum }) := by
  unfold firstPuts
  simp only [List.foldl_cons, List.foldl_nil, act]
  rw [enqueue_unlimited rfl rfl]
  simp only
  rw [enqueue_unlimited rfl rfl]
  refine ⟨hab, ⟨rfl, rfl⟩, rfl, ?_, rfl, ?_, ?_⟩
  · simp [new, append, numbered, hab]
  · simp [new, numbered, hab, Ne.symm hab]
  · simp [servedTokens, ofTenant]

theorem withCosts_rounds (n : ℕ) (hA : costA ∈ costs) (hB : costB ∈ costs) :
    (∀ x ∈ firstPuts a b costA costB, x.withCosts costs) ∧ ∀ x ∈ cheapRounds a b costA costB n, x.withCosts costs := by
  refine ⟨?_, fun x hx => ?_⟩
  · simp [firstPuts, Action.withCosts, numbered, hA, hB]
  · obtain ⟨i, -, hx⟩ := List.mem_flatMap.mp hx
    have hround : ∀ y ∈ cheapRound a b costA costB i, y.withCosts costs := by
      simp [cheapRound, Action.withCosts, numbered, hA, hB]
    exact hround x hx

/-! ### When the queue is fair -/

theorem tokenFair_heavy (hq : 0 < quantum) (hcosts : ∀ c ∈ costs, quantum ≤ c ∧ c ≤ largest) :
    TokenFair (quantum + 2 * largest) quantum largest costs := by
  intro totalCapacity tenantCapacity before hbefore q
  have hnew := rep_new totalCapacity tenantCapacity quantum
  have hrun := rep_run (h := { queue := new totalCapacity tenantCapacity quantum }) hnew hq before
  have hrep : Rep q := hrun.1
  have hquantum : q.quantum = quantum := hrun.2.2.2
  have hheavy : Heavy quantum largest q.queues q.deficits :=
    heavy_run (h := { queue := new totalCapacity tenantCapacity quantum }) hnew hq (Heavy.empty quantum largest)
      hbefore hcosts
  clear_value q
  refine ⟨fun t d hd => ?_, fun a b during hduring hstays => ?_⟩
  · have := hheavy.low t d hd
    omega
  · obtain ⟨hpos, hlow, hhigh⟩ := lead_bounds hrep hq hheavy (staysBacklogged_start hstays)
    by_cases hab : a = b
    · rw [hab, sub_self, abs_zero]
      omega
    · -- what has been served in between is the lead before less the lead after
      have hq' : 0 < q.quantum := hquantum.symm ▸ hq
      obtain ⟨hend, hbalance⟩ := balance_run (h := { queue := q }) hab hrep hq' hduring hstays
      obtain ⟨hrep', -, -, hsame⟩ := rep_run (h := { queue := q }) hrep hq' during
      have hheavy' := heavy_run (h := { queue := q }) hrep hq' (hquantum.symm ▸ hheavy) hduring
        (hquantum.symm ▸ hcosts)
      simp only [hquantum] at hheavy' hsame
      obtain ⟨-, hlow', hhigh'⟩ := lead_bounds hrep' hq hheavy' hend
      unfold balance at hbalance
      have hnone : ∀ t, servedTokens t ({ queue := q } : History).popped = 0 := fun t => rfl
      simp only [hsame, hquantum, hnone] at hbalance
      rw [abs_le]
      omega

/-- The deficit of a tenant whose requests cost less than the quantum outgrows
every bound. -/
theorem not_tokenFair_cheap {bound c : ℤ} (hc : c ∈ costs) (hcheap : c < quantum) :
    ¬ TokenFair bound quantum largest costs := by
  intro hfair
  let n := (quantum + largest).toNat
  have hstart := afterRounds_start (a := "a") (b := "b") (by decide) c c quantum
  have hrounds := (cheap_rounds hcheap.le hcheap.le hstart n).1
  rw [← List.foldl_append] at hrounds
  have hcosts := withCosts_rounds (a := "a") (b := "b") n hc hc
  have hlow := (hfair none none _ fun x hx => (List.mem_append.mp hx).elim (hcosts.1 x) (hcosts.2 x)).1
    "a" _ hrounds.deficits.1
  have hgrown : (n : ℤ) * 1 ≤ n * (quantum - c) := mul_le_mul_of_nonneg_left (by omega) (Int.natCast_nonneg n)
  have hn : quantum + largest ≤ n := Int.self_le_toNat _
  omega

/-- **When the queue is fair in tokens.** In every run of puts and pops the
deficits stay below the quantum plus the largest cost, and two tenants that
stay backlogged are served the same tokens up to a bound, if and only if every
request costs at least the quantum. The bound is then the quantum plus twice the
largest cost. -/
theorem token_fairness (quantum largest : ℤ) (hq : 0 < quantum) (costs : Set ℤ) (hcosts : ∀ c ∈ costs, c ≤ largest) :
    ((∃ bound, TokenFair bound quantum largest costs) ↔ ∀ c ∈ costs, quantum ≤ c) ∧
      ((∀ c ∈ costs, quantum ≤ c) → TokenFair (quantum + 2 * largest) quantum largest costs) := by
  have hfair : (∀ c ∈ costs, quantum ≤ c) → TokenFair (quantum + 2 * largest) quantum largest costs :=
    fun hheavy => tokenFair_heavy hq fun c hc => ⟨hheavy c hc, hcosts c hc⟩
  refine ⟨⟨fun ⟨bound, hbound⟩ c hc => ?_, fun hheavy => ⟨_, hfair hheavy⟩⟩, hfair⟩
  by_contra hcheap
  exact not_tokenFair_cheap hc (not_le.mp hcheap) hbound

/-- A quantum that all requests use up. -/
theorem token_fairness_heavy : TokenFair (1000 + 2 * 5000) 1000 5000 {c | 1000 ≤ c ∧ c ≤ 5000} :=
  (token_fairness 1000 5000 (by decide) {c | 1000 ≤ c ∧ c ≤ 5000} fun c hc => hc.2).2 fun c hc => hc.1

/-- With the default quantum, a tenant whose requests cost 1 token and one whose
requests cost 4096 are served one request each in every round: no number bounds
the difference of their tokens. -/
theorem cheap_requests_unfair :
    ¬ ∃ bound : ℤ, ∀ before during : List Action, (∀ x ∈ before, x.withCosts {1, 4096}) →
      (∀ x ∈ during, x.withCosts {1, 4096}) →
      let q := (before.foldl act { queue := new none none 4096 }).queue
      ∀ a b, staysBacklogged a b { queue := q } during →
        |servedTokens a (during.foldl act { queue := q }).popped -
          servedTokens b (during.foldl act { queue := q }).popped| ≤ bound := by
  rintro ⟨bound, hbound⟩
  have hcosts : (∀ x ∈ firstPuts "a" "b" 1 4096, x.withCosts {1, 4096}) ∧
      ∀ x ∈ cheapRounds "a" "b" 1 4096 (bound.toNat + 1), x.withCosts {1, 4096} :=
    withCosts_rounds (bound.toNat + 1) (by simp) (by simp)
  have hstart := afterRounds_start (a := "a") (b := "b") (by decide) 1 4096 4096
  have hfresh : AfterRounds "a" "b" 1 4096 4096 0
      { queue := ((firstPuts "a" "b" 1 4096).foldl act { queue := new none none 4096 }).queue } := by
    simpa [AfterRounds] using hstart.restart
  obtain ⟨hrounds, hstays⟩ := cheap_rounds (by decide) le_rfl hfresh (bound.toNat + 1)
  have hclose := hbound _ _ hcosts.1 hcosts.2 "a" "b" hstays
  rw [hrounds.served.1, hrounds.served.2, abs_le] at hclose
  omega

end DeficitRoundRobinQueue
end LlmRio
