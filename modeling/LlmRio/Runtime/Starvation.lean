/-
# No tenant starves

`pop` serves a request of every queue that has one. While the first request of
a tenant waits, each turn of the tenant brings it closer by the quantum, and
between two of its turns every other tenant has one turn: `debt` counts the
turns that another tenant may still have before the request is served. A turn
of the other tenant pays for itself, and no other turn and no arrival raises
the debt, so no tenant is served more than `max 1 ⌈cost / quantum⌉` times
before it (`no_starvation`).

Key definitions: `rounds`, `debt`.
Key theorems: `debt_pass`, `debt_served`, `debt_put`, `no_starvation`.
-/
import LlmRio.Lib.Rotation
import LlmRio.Runtime.QueueRuns
import Mathlib.Data.Rat.Floor

namespace LlmRio

open Rotation

namespace DeficitRoundRobinQueue

/-- How many turns of its own a request of cost `c` waits, with a deficit of
`d`. -/
def rounds (quantum c d : ℤ) : ℤ := max 1 ((c - d + quantum - 1) / quantum)

theorem rounds_pos (quantum c d : ℤ) : 1 ≤ rounds quantum c d := le_max_left _ _

/-- A turn that does not serve the request is one of its rounds. -/
theorem rounds_pass {quantum c d : ℤ} (hq : 0 < quantum) (hd : d + quantum < c) :
    rounds quantum c d = rounds quantum c (d + quantum) + 1 := by
  unfold rounds
  have hsplit : (c - d + quantum - 1) / quantum = (c - (d + quantum) + quantum - 1) / quantum + 1 := by
    have heq : c - d + quantum - 1 = (c - (d + quantum) + quantum - 1) + 1 * quantum := by ring
    rw [heq, Int.add_mul_ediv_right _ _ hq.ne']
  have hone : 1 ≤ (c - (d + quantum) + quantum - 1) / quantum := by
    rw [Int.le_ediv_iff_mul_le hq]
    omega
  omega

theorem rounds_le {quantum c d : ℤ} (hq : 0 < quantum) (hd : 0 ≤ d) :
    rounds quantum c d ≤ max 1 ⌈(c : ℚ) / quantum⌉ := by
  unfold rounds
  apply max_le_max le_rfl
  have hq' : (0 : ℚ) < quantum := by exact_mod_cast hq
  have hceil : c ≤ ⌈(c : ℚ) / quantum⌉ * quantum := by
    have hle := Int.le_ceil ((c : ℚ) / quantum)
    rw [div_le_iff₀ hq'] at hle
    exact_mod_cast hle
  have hlt : (c - d + quantum - 1) / quantum < ⌈(c : ℚ) / quantum⌉ + 1 := by
    rw [Int.ediv_lt_iff_lt_mul hq, add_mul, one_mul]
    omega
  omega

variable {quantum c : ℤ} {cap : Option ℕ} {t u x : AccountId} {r r' : QueuedRequest} {rs : List QueuedRequest}
  {queues queues' : Entries} {deficits deficits' : Deficits}

/-- How many turns the tenant `u` may have before the first request of `t`, of
cost `c`, is served. -/
def debt (quantum c : ℤ) (t u : AccountId) (queues : Entries) (deficits : Deficits) : ℤ :=
  rounds quantum c ((deficits t).getD 0) - if ahead u t (queues.map (·.1)) then 0 else 1

theorem debt_nonneg (quantum c : ℤ) (t u : AccountId) (queues : Entries) (deficits : Deficits) :
    0 ≤ debt quantum c t u queues deficits := by
  unfold debt
  have := rounds_pos quantum c ((deficits t).getD 0)
  split <;> omega

/-- The first request of the tenant. -/
def Waits (t : AccountId) (r : QueuedRequest) (queues : Entries) : Prop := ∃ rs, (t, r :: rs) ∈ queues

theorem Waits.mem (h : Waits t r queues) : t ∈ queues.map (·.1) := by
  obtain ⟨rs, hmem⟩ := h
  exact List.mem_map.mpr ⟨_, hmem, rfl⟩

theorem Waits.rotate {e : AccountId × List QueuedRequest} (h : Waits t r (e :: queues)) :
    Waits t r (queues ++ [e]) := by
  obtain ⟨rs, hmem⟩ := h
  exact ⟨rs, (List.perm_append_singleton e queues).mem_iff.mpr hmem⟩

/-- The entry of another tenant in front. -/
theorem Waits.tail (h : Waits t r ((x, rs) :: queues)) (hx : x ≠ t) : Waits t r queues := by
  obtain ⟨rs', hmem⟩ := h
  rcases List.mem_cons.mp hmem with heq | hmem
  · exact absurd (congrArg Prod.fst heq).symm hx
  · exact ⟨rs', hmem⟩

theorem Waits.front (h : Waits t r ((t, r' :: rs) :: queues)) (hnodup : (((t, r' :: rs) :: queues).map (·.1)).Nodup) :
    r' = r := by
  obtain ⟨rs', hmem⟩ := h
  rcases List.mem_cons.mp hmem with heq | hmem
  · cases heq
    rfl
  · rw [List.map_cons, List.nodup_cons] at hnodup
    exact absurd (List.mem_map.mpr ⟨_, hmem, rfl⟩) hnodup.1

/-- A turn that serves nobody raises no debt. -/
theorem debt_pass (hq : 0 < quantum) (hut : u ≠ t) (h : Agree cap ((x, r' :: rs) :: queues) deficits)
    (hwait : Waits t r ((x, r' :: rs) :: queues)) (hcost : credit quantum deficits x < r'.estimatedTokens) :
    debt quantum r.estimatedTokens t u (queues ++ [(x, r' :: rs)])
        (Function.update deficits x (some (credit quantum deficits x))) ≤
      debt quantum r.estimatedTokens t u ((x, r' :: rs) :: queues) deficits := by
  have htenants := h.tenants
  rw [List.map_cons, List.nodup_cons] at htenants
  unfold debt
  rw [List.map_append, List.map_cons, List.map_cons, List.map_nil]
  by_cases hx : x = t
  · -- the turn of `t` itself: one round less, and all others are ahead of it
    subst hx
    have hfirst := hwait.front h.tenants
    subst hfirst
    have hpass := rounds_pass hq hcost
    rw [Function.update_self, Option.getD_some, ahead_cons_self]
    unfold credit at hpass ⊢
    split <;> simp <;> omega
  · rw [Function.update_of_ne (Ne.symm hx)]
    have hmem : t ∈ queues.map (·.1) := (hwait.tail hx).mem
    by_cases hxu : x = u
    · subst hxu
      rw [ahead_cons_first hut, ahead_turn hmem htenants.1]
      simp
    · rw [ahead_turn_other hxu hx hmem]

/-- The turn that serves a request of another tenant than `t`: if it is `u`, it
pays for itself. -/
theorem debt_served (hut : u ≠ t) (h : Agree cap ((x, r' :: rs) :: queues) deficits)
    (hwait : Waits t r ((x, r' :: rs) :: queues)) (hx : x ≠ t)
    (hserved : Served quantum x r' queues deficits rs queues' deficits') :
    Waits t r queues' ∧ (if x = u then 1 else 0) + debt quantum r.estimatedTokens t u queues' deficits' =
      debt quantum r.estimatedTokens t u ((x, r' :: rs) :: queues) deficits := by
  have htenants := h.tenants
  rw [List.map_cons, List.nodup_cons] at htenants
  have htail := hwait.tail hx
  have hdeficit : deficits' t = deficits t := by
    cases hserved with
    | last => exact Function.update_of_ne (Ne.symm hx) _ _
    | more hne => exact Function.update_of_ne (Ne.symm hx) _ _
  have hwait' : Waits t r queues' := by
    cases hserved with
    | last => exact htail
    | more hne =>
      obtain ⟨rs', hmem⟩ := htail
      exact ⟨rs', List.mem_append_left _ hmem⟩
  refine ⟨hwait', ?_⟩
  unfold debt
  rw [hdeficit, List.map_cons]
  by_cases hxu : x = u
  · subst hxu
    have hbehind : ahead x t (queues'.map (·.1)) = false := by
      cases hserved with
      | last => exact ahead_of_not_mem htenants.1
      | more hne =>
        rw [List.map_append, List.map_singleton]
        exact ahead_turn htail.mem htenants.1
    rw [hbehind, ahead_cons_first hut]
    simp
  · have hsame : ahead u t (queues'.map (·.1)) = ahead u t (queues.map (·.1)) := by
      cases hserved with
      | last => rfl
      | more hne =>
        rw [List.map_append, List.map_singleton]
        exact ahead_join htail.mem
    rw [hsame, ahead_cons_ne hxu hx, if_neg hxu, zero_add]

/-! ### Pops and puts -/

variable {q q' : DeficitRoundRobinQueue}

theorem debt_pop (hrep : Rep q) (hq : 0 < q.quantum) (hut : u ≠ t) (hwait : Waits t r q.queues)
    (hpop : q.pop = some (r', q')) (hother : r'.tenantId ≠ t) :
    Waits t r q'.queues ∧ (if r'.tenantId = u then 1 else 0) +
      debt q.quantum r.estimatedTokens t u q'.queues q'.deficits ≤
        debt q.quantum r.estimatedTokens t u q.queues q.deficits := by
  unfold pop at hpop
  split at hpop
  · cases hpop
  · obtain ⟨⟨r0, queues', deficits'⟩, hturns, heq⟩ := Option.map_eq_some_iff.mp hpop
    cases heq
    obtain ⟨x, rs, queues0, deficits0, ⟨hagree, hwait0, hdebt⟩, -, hserved⟩ := turns_rule
      (I := fun queues deficits => Agree q.tenantCapacity queues deficits ∧ Waits t r queues ∧
        debt q.quantum r.estimatedTokens t u queues deficits ≤
          debt q.quantum r.estimatedTokens t u q.queues q.deficits)
      (fun _ _ _ _ _ hd hcost =>
        ⟨hd.1.pass hq, hd.2.1.rotate, (debt_pass hq hut hd.1 hd.2.1 hcost).trans hd.2.2⟩)
      ⟨hrep.toAgree, hwait, le_rfl⟩ hturns
    have howner : r'.tenantId = x := hagree.owners _ List.mem_cons_self r' List.mem_cons_self
    rw [howner] at hother ⊢
    obtain ⟨hwait', hpaid⟩ := debt_served hut hagree hwait0 hother hserved
    exact ⟨hwait', hpaid.le.trans hdebt⟩

/-- An arrival leaves the debt. -/
theorem debt_put (hwait : Waits t r q.queues) (hput : q.put r' = some q') :
    Waits t r q'.queues ∧ debt q.quantum r.estimatedTokens t u q'.queues q'.deficits =
      debt q.quantum r.estimatedTokens t u q.queues q.deficits := by
  obtain ⟨-, -, rfl⟩ := put_some hput
  have hdeficit : (Function.update q.deficits r'.tenantId (some ((q.deficits r'.tenantId).getD 0)) t).getD 0 =
      (q.deficits t).getD 0 := by
    by_cases ht : t = r'.tenantId
    · rw [ht, Function.update_self, Option.getD_some]
    · rw [Function.update_of_ne ht]
  have hmem := hwait.mem
  unfold debt
  simp only [hdeficit]
  by_cases hr : r'.tenantId ∈ q.queues.map (·.1)
  · obtain ⟨pre, rs, post, heq, hpre⟩ := entry_of_mem hr
    rw [heq, append_old hpre]
    refine ⟨?_, by simp only [List.map_append, List.map_cons]⟩
    obtain ⟨rs', hin⟩ := hwait
    rw [heq, List.mem_append, List.mem_cons] at hin
    rcases hin with hin | hin | hin
    · exact ⟨rs', List.mem_append_left _ hin⟩
    · -- the arrival is behind the first request of its tenant
      obtain ⟨ht, hrs⟩ := Prod.mk.inj hin
      refine ⟨rs' ++ [r'], List.mem_append_right _ ?_⟩
      rw [ht, ← hrs, List.cons_append]
      exact List.mem_cons_self
    · exact ⟨rs', List.mem_append_right _ (List.mem_cons_of_mem _ hin)⟩
  · rw [append_new hr]
    refine ⟨?_, ?_⟩
    · obtain ⟨rs', hin⟩ := hwait
      exact ⟨rs', List.mem_append_left _ hin⟩
    · rw [List.map_append, List.map_singleton, ahead_join hmem]

/-! ### Runs -/

/-- The operations of a continuation: pops and arrivals. -/
def Action.putOrPop : Action → Bool
  | .put _ | .pop => true
  | .remove _ | .drain => false

/-- While the request of `t` waits: what `u` has been served and what it may
still be served. -/
structure Waiting (t u : AccountId) (r : QueuedRequest) (bound : ℤ) (h : History) : Prop where
  waits : Waits t r h.queue.queues
  paid : (ofTenant u h.popped).length +
    debt h.queue.quantum r.estimatedTokens t u h.queue.queues h.queue.deficits ≤ bound

theorem waiting_act {h : History} {bound : ℤ} (hrep : Rep h.queue) (hq : 0 < h.queue.quantum) (hut : u ≠ t)
    (hw : Waiting t u r bound h) {a : Action} (ha : a.putOrPop = true)
    (hother : ∀ r' ∈ (act h a).popped, r'.tenantId ≠ t) : Waiting t u r bound (act h a) := by
  cases a with
  | put r' =>
    rcases act_put hrep r' with heq | ⟨q, hput, heq⟩
    · rwa [heq]
    · obtain ⟨hwait, hsame⟩ := debt_put (u := u) hw.waits hput
      rw [heq]
      refine ⟨hwait, ?_⟩
      show (ofTenant u h.popped).length + debt q.quantum r.estimatedTokens t u q.queues q.deficits ≤ bound
      rw [(put_config hput).2.2, hsame]
      exact hw.paid
  | pop =>
    simp only [act] at hother ⊢
    cases hpop : h.queue.pop with
    | none => exact hw
    | some result =>
      obtain ⟨r', q⟩ := result
      rw [hpop] at hother
      have hr' := hother r' (List.mem_append_right _ (List.mem_singleton_self r'))
      obtain ⟨hwait, hpaid⟩ := debt_pop hrep hq hut hw.waits hpop hr'
      refine ⟨hwait, ?_⟩
      show (ofTenant u (h.popped ++ [r'])).length + debt q.quantum r.estimatedTokens t u q.queues q.deficits ≤ bound
      rw [(pop_config hpop).2.2, ofTenant_append, ofTenant_singleton, List.length_append]
      have hold := hw.paid
      split at hpaid <;> rename_i hu
      · rw [if_pos hu, List.length_singleton]
        push_cast
        omega
      · rw [if_neg hu, List.length_nil]
        push_cast
        omega
  | remove id => cases ha
  | drain => cases ha

theorem popped_subset {h : History} (a : Action) : ∀ r ∈ h.popped, r ∈ (act h a).popped := by
  intro r hr
  cases a with
  | put r' =>
    simp only [act]
    split <;> exact hr
  | pop =>
    simp only [act]
    split
    · exact List.mem_append_left _ hr
    · exact hr
  | remove id =>
    simp only [act]
    split <;> exact hr
  | drain => exact hr

theorem waiting_run {h : History} {bound : ℤ} (hrep : Rep h.queue) (hq : 0 < h.queue.quantum) (hut : u ≠ t)
    (hw : Waiting t u r bound h) : ∀ actions : List Action, (∀ a ∈ actions, a.putOrPop = true) →
      (∀ r' ∈ (actions.foldl act h).popped, r'.tenantId ≠ t) → Waiting t u r bound (actions.foldl act h) := by
  intro actions
  induction actions using List.reverseRecOn with
  | nil => exact fun _ _ => hw
  | append_singleton actions a ih =>
    intro hactions hother
    rw [List.foldl_append, List.foldl_cons, List.foldl_nil] at hother ⊢
    have hbefore := ih (fun b hb => hactions b (List.mem_append_left _ hb))
      fun r' hr' => hother r' (popped_subset a r' hr')
    have ha := hactions a (List.mem_append_right _ (List.mem_singleton_self a))
    obtain ⟨hrep', -, -, hquantum⟩ := rep_run hrep hq actions
    exact waiting_act hrep' (hquantum.symm ▸ hq) hut hbefore ha hother

theorem pop_of_rep (hrep : Rep q) (hq : 0 < q.quantum) (hsize : q.size ≠ 0) : q.pop.isSome := by
  refine pop_isSome hq hsize (fun hnil => hsize ?_) hrep.tenants hrep.nonempty
  rw [hrep.size, requests, hnil]
  rfl

theorem waits_first (hrep : Rep q) (hfirst : ofTenant t q.requests = r :: rs) : Waits t r q.queues := by
  have hmem : t ∈ q.queues.map (·.1) := by
    by_contra hnot
    have hnone : ofTenant t q.requests = [] := ofTenant_absent hrep.toAgree hnot
    rw [hfirst] at hnone
    cases hnone
  obtain ⟨pre, rs', post, heq, -⟩ := entry_of_mem hmem
  have hentry := ofTenant_entry (heq ▸ hrep.toAgree) t
  rw [← heq, if_pos rfl] at hentry
  have hrs : rs' = r :: rs := hentry.symm.trans hfirst
  exact ⟨rs, by rw [heq, hrs]; simp⟩

/-- **No tenant starves.** In every reachable state `pop` returns a request of a
queue that is not empty. If `r` is the first request of the tenant `t`, then in
every continuation by pops and arrivals every other tenant is served at most
`max 1 ⌈cost / quantum⌉` times before `r` is returned. -/
theorem no_starvation (totalCapacity tenantCapacity : Option ℕ) (quantum : ℤ) (hq : 0 < quantum)
    (before : List Action) :
    let q := (before.foldl act { queue := new totalCapacity tenantCapacity quantum }).queue
    (q.size ≠ 0 → q.pop.isSome) ∧
    ∀ t r rs, ofTenant t q.requests = r :: rs → ∀ later : List Action, (∀ a ∈ later, a.putOrPop = true) →
      (∀ r' ∈ (later.foldl act { queue := q }).popped, r'.tenantId ≠ t) →
      ∀ u, u ≠ t → ((ofTenant u (later.foldl act { queue := q }).popped).length : ℤ) ≤
        max 1 ⌈(r.estimatedTokens : ℚ) / quantum⌉ := by
  intro q
  obtain ⟨hrep, -, -, hquantum⟩ := rep_run (h := { queue := new totalCapacity tenantCapacity quantum })
    (rep_new totalCapacity tenantCapacity quantum) hq before
  have hquantum : q.quantum = quantum := hquantum
  have hq' : 0 < q.quantum := hquantum.symm ▸ hq
  refine ⟨pop_of_rep hrep hq', ?_⟩
  intro t r rs hfirst later hlater hother u hut
  have hwaits := waits_first hrep hfirst
  have hstart : Waiting t u r (max 1 ⌈(r.estimatedTokens : ℚ) / quantum⌉) { queue := q } := by
    refine ⟨hwaits, ?_⟩
    have hdeficit : 0 ≤ (q.deficits t).getD 0 := by
      obtain ⟨d, hd⟩ := Option.isSome_iff_exists.mp ((hrep.sameTenants t).mpr hwaits.mem)
      rw [hd, Option.getD_some]
      exact hrep.nonneg t d hd
    have hrounds := rounds_le (c := r.estimatedTokens) hq hdeficit
    show ((0 : ℕ) : ℤ) + debt q.quantum r.estimatedTokens t u q.queues q.deficits ≤ _
    unfold debt
    rw [hquantum]
    split <;> omega
  have hend := waiting_run (h := { queue := q }) hrep hq' hut hstart later hlater hother
  have hpaid := hend.paid
  have hdebt := debt_nonneg (later.foldl act { queue := q }).queue.quantum r.estimatedTokens t u
    (later.foldl act { queue := q }).queue.queues (later.foldl act { queue := q }).queue.deficits
  omega

/-- A large request of one tenant waits behind the small ones of another. -/
theorem no_starvation_large :
    let request := fun (id t : String) (cost : ℤ) =>
      ({ id := id, modelId := "m", tenantId := t, estimatedTokens := cost, reservationId := id,
         enqueuedAt := 0, assignment := 0 } : QueuedRequest)
    let q := ([Action.put (request "1" "a" 9), .put (request "2" "b" 1), .put (request "3" "b" 1),
      .put (request "4" "b" 1)].foldl act { queue := new none none 4 }).queue
    ((ofTenant "b" ([Action.pop, .pop].foldl act { queue := q }).popped).length : ℤ) ≤ max 1 ⌈((9 : ℤ) : ℚ) / (4 : ℤ)⌉ := by
  intro request q
  exact (no_starvation none none 4 (by decide) _).2 "a" (request "1" "a" 9) [] (by decide) _ (by decide)
    (by decide) "b" (by decide)

end DeficitRoundRobinQueue
end LlmRio
