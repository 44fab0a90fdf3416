/-
# Runs of a partial step function

A system is a step function `step : σ → α → Option σ`: from a state, an
action leads to at most one state, and `none` says that the action is not
enabled. A schedule is a list of actions, and `exec step s as` is the state
after the schedule `as`. An interleaving of several tasks is a schedule whose
actions name the task they move, so a fact about every schedule is a fact
about every interleaving.

`visited step s as` lists the states that the schedule goes through, so that
a run can be told of by what holds in all of them; `observed step f s as` lists
what its steps show.

`restrict step ok` keeps the steps that meet a condition on the state and the
action. What holds on every run of the restricted system holds on every run
whose steps all meet the condition (`exec_restrict` reads such a run back as
a run of the system).

Key definitions: `exec`, `visited`, `observed`, `restrict`.
Key theorems: `exec_append`, `exec_invariant`, `exec_invariant_visited`, `exec_since`,
`exec_potential`, `exec_restrict`, `exec_restrict_mono`.
-/
import Mathlib.Data.Int.Notation
import Mathlib.Data.List.Basic

namespace Runs

variable {σ α : Type*} (step : σ → α → Option σ)

/-- The state after the actions `as` from `s`; `none` if one of them is not
enabled where it is taken. -/
def exec : σ → List α → Option σ
  | s, [] => some s
  | s, a :: as => (step s a).bind fun s' => exec s' as

@[simp] theorem exec_nil (s : σ) : exec step s [] = some s := rfl

theorem exec_cons {s t : σ} {a : α} {as : List α} :
    exec step s (a :: as) = some t ↔ ∃ s', step s a = some s' ∧ exec step s' as = some t := by
  simp [exec, Option.bind_eq_some_iff]

/-- A schedule in two parts runs the first part, then the second. -/
theorem exec_append {t : σ} : ∀ {s : σ} {as bs : List α},
    exec step s (as ++ bs) = some t ↔ ∃ u, exec step s as = some u ∧ exec step u bs = some t
  | s, [], bs => by simp
  | s, a :: as, bs => by
    simp only [List.cons_append, exec_cons, exec_append]
    constructor
    · rintro ⟨s', hs, u, hu, ht⟩
      exact ⟨u, ⟨s', hs, hu⟩, ht⟩
    · rintro ⟨u, ⟨s', hs, hu⟩, ht⟩
      exact ⟨s', hs, u, hu, ht⟩

theorem exec_singleton {s t : σ} {a : α} : exec step s [a] = some t ↔ step s a = some t := by
  simp [exec_cons]

variable {step}

/-- What every step preserves, every run preserves. -/
theorem exec_invariant {I : σ → Prop} (hstep : ∀ s a s', I s → step s a = some s' → I s') :
    ∀ {as : List α} {s t : σ}, I s → exec step s as = some t → I t
  | [], s, t, hs, h => by
    cases h
    exact hs
  | a :: as, s, t, hs, h => by
    obtain ⟨s', h1, h2⟩ := (exec_cons step).mp h
    exact exec_invariant hstep (hstep s a s' hs h1) h2

/-- An invariant that only the actions of the schedule have to preserve. -/
theorem exec_invariant_mem {I : σ → Prop} : ∀ {as : List α} {s t : σ},
    (∀ s a s', a ∈ as → I s → step s a = some s' → I s') → I s → exec step s as = some t → I t
  | [], s, t, _, hs, h => by
    cases h
    exact hs
  | a :: as, s, t, hstep, hs, h => by
    obtain ⟨s', h1, h2⟩ := (exec_cons step).mp h
    exact exec_invariant_mem (fun u b u' hb => hstep u b u' (List.mem_cons_of_mem _ hb))
      (hstep s a s' List.mem_cons_self hs h1) h2

/-- The states of the run of `as` from `s`, with `s`. -/
def visited (step : σ → α → Option σ) : σ → List α → List σ
  | s, [] => [s]
  | s, a :: as => s :: (step s a).elim [] fun s' => visited step s' as

theorem mem_visited_self (s : σ) : ∀ as : List α, s ∈ visited step s as
  | [] => List.mem_singleton.mpr rfl
  | _ :: _ => List.mem_cons_self

/-- An invariant that a step has to preserve only between states with the
property `P`, which every state of the run has. -/
theorem exec_invariant_visited {I P : σ → Prop}
    (hstep : ∀ s a s', P s → P s' → I s → step s a = some s' → I s') :
    ∀ {as : List α} {s t : σ}, (∀ u ∈ visited step s as, P u) → I s → exec step s as = some t → I t
  | [], s, t, _, hs, h => by
    cases h
    exact hs
  | a :: as, s, t, hP, hs, h => by
    obtain ⟨s', h1, h2⟩ := (exec_cons step).mp h
    have hrest : ∀ u ∈ visited step s' as, P u := fun u hu =>
      hP u (List.mem_cons_of_mem _ (by rw [h1]; exact hu))
    exact exec_invariant_visited hstep hrest
      (hstep s a s' (hP s List.mem_cons_self) (hrest s' (mem_visited_self s' as)) hs h1) h2

/-- A run comes to every state that it visits, and goes on from there. -/
theorem exec_of_visited : ∀ {as : List α} {s t u : σ}, exec step s as = some t → u ∈ visited step s as →
    ∃ before later, as = before ++ later ∧ exec step s before = some u ∧ exec step u later = some t
  | [], s, t, u, h, hu => by
    rw [visited, List.mem_singleton] at hu
    exact ⟨[], [], rfl, by rw [hu]; rfl, hu ▸ h⟩
  | a :: as, s, t, u, h, hu => by
    obtain ⟨s', h1, h2⟩ := (exec_cons step).mp h
    rw [visited, h1, Option.elim_some, List.mem_cons] at hu
    rcases hu with rfl | hu
    · exact ⟨[], a :: as, rfl, rfl, h⟩
    · obtain ⟨before, later, rfl, hbefore, hlater⟩ := exec_of_visited h2 hu
      exact ⟨a :: before, later, rfl, (exec_cons step).mpr ⟨s', h1, hbefore⟩, hlater⟩

/-- What holds at the end of a run and not in all of its states has held since
one of its steps. -/
theorem exec_since {P : σ → Prop} : ∀ {as : List α} {s t : σ}, (∃ u ∈ visited step s as, ¬ P u) → P t →
    exec step s as = some t → ∃ before a later u u', as = before ++ a :: later ∧ exec step s before = some u ∧
      ¬ P u ∧ step u a = some u' ∧ exec step u' later = some t ∧ ∀ w ∈ visited step u' later, P w
  | [], s, t, hnot, ht, h => by
    obtain ⟨u, hu, hnot⟩ := hnot
    cases h
    rw [visited, List.mem_singleton] at hu
    exact absurd (hu ▸ ht) hnot
  | a :: as, s, t, hnot, ht, h => by
    obtain ⟨s', hs, h'⟩ := (exec_cons step).mp h
    by_cases hlater : ∃ u ∈ visited step s' as, ¬ P u
    · obtain ⟨before, b, later, u, u', rfl, hbefore, hrest⟩ := exec_since hlater ht h'
      exact ⟨a :: before, b, later, u, u', rfl, (exec_cons step).mpr ⟨s', hs, hbefore⟩, hrest⟩
    · simp only [not_exists, not_and, not_not] at hlater
      obtain ⟨u, hu, hnot⟩ := hnot
      rw [visited, hs, Option.elim_some, List.mem_cons] at hu
      rcases hu with rfl | hu
      · exact ⟨[], a, as, u, s', rfl, rfl, hnot, hs, h', hlater⟩
      · exact absurd (hlater u hu) hnot

/-- What the steps of a run show, in order. -/
def observed {β : Type*} (step : σ → α → Option σ) (f : σ → σ → Option β) : σ → List α → List β
  | _, [] => []
  | s, a :: as => (step s a).elim [] fun s' => (f s s').toList ++ observed step f s' as

/-- A run shows at most what its potential pays for, if each step does. -/
theorem exec_potential {β : Type*} {I P : σ → Prop} {f : σ → σ → Option β} {p : β → Bool} {φ : σ → ℤ}
    (hstep : ∀ s a s', P s → P s' → I s → step s a = some s' →
      I s' ∧ ((f s s').toList.countP p : ℤ) + φ s' ≤ φ s) :
    ∀ {as : List α} {s t : σ}, (∀ u ∈ visited step s as, P u) → I s → exec step s as = some t →
      ((observed step f s as).countP p : ℤ) + φ t ≤ φ s
  | [], s, t, _, _, h => by
    cases h
    simp [observed]
  | a :: as, s, t, hP, hs, h => by
    obtain ⟨s', h1, h2⟩ := (exec_cons step).mp h
    have hrest : ∀ u ∈ visited step s' as, P u := fun u hu =>
      hP u (List.mem_cons_of_mem _ (by rw [h1]; exact hu))
    obtain ⟨hs', hpaid⟩ := hstep s a s' (hP s List.mem_cons_self) (hrest s' (mem_visited_self s' as)) hs h1
    have hlater := exec_potential hstep hrest hs' h2
    rw [observed, h1, Option.elim_some, List.countP_append]
    push_cast
    omega

/-- The steps of the system that meet the condition `ok`. -/
def restrict (step : σ → α → Option σ) (ok : σ → α → Prop) [∀ s a, Decidable (ok s a)]
    (s : σ) (a : α) : Option σ :=
  if ok s a then step s a else none

variable {ok : σ → α → Prop} [∀ s a, Decidable (ok s a)]

theorem restrict_eq_some {s t : σ} {a : α} :
    restrict step ok s a = some t ↔ ok s a ∧ step s a = some t := by
  unfold restrict
  split <;> simp_all

/-- A run whose steps meet the condition is a run. -/
theorem exec_restrict : ∀ {as : List α} {s t : σ},
    exec (restrict step ok) s as = some t → exec step s as = some t
  | [], _, _, h => h
  | a :: as, s, t, h => by
    obtain ⟨s', h1, h2⟩ := (exec_cons _).mp h
    exact (exec_cons step).mpr ⟨s', (restrict_eq_some.mp h1).2, exec_restrict h2⟩

/-- A run whose steps meet the condition `ok` also meets `ok'`, if an invariant
of the former implies that. -/
theorem exec_restrict_mono {ok' : σ → α → Prop} [∀ s a, Decidable (ok' s a)] {I : σ → Prop}
    (hstep : ∀ s a s', I s → ok s a → step s a = some s' → I s') (hok : ∀ s a, I s → ok s a → ok' s a) :
    ∀ {as : List α} {s t : σ}, I s → exec (restrict step ok) s as = some t → exec (restrict step ok') s as = some t
  | [], _, _, _, h => h
  | a :: as, s, t, hs, h => by
    obtain ⟨s', h1, h2⟩ := (exec_cons _).mp h
    obtain ⟨ha, h1⟩ := restrict_eq_some.mp h1
    apply (exec_cons _).mpr
    exact ⟨s', restrict_eq_some.mpr ⟨hok s a hs ha, h1⟩, exec_restrict_mono hstep hok (hstep s a s' hs ha h1) h2⟩

theorem visited_restrict : ∀ {as : List α} {s t : σ},
    exec (restrict step ok) s as = some t → visited (restrict step ok) s as = visited step s as
  | [], _, _, _ => rfl
  | a :: as, s, t, h => by
    obtain ⟨s', h1, h2⟩ := (exec_cons _).mp h
    have h1' := (restrict_eq_some.mp h1).2
    simp only [visited, h1, h1', Option.elim_some, visited_restrict h2]

end Runs
