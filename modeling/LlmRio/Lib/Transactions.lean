/-
# Transactions that commit or roll back

A transaction on a state is a value of `Except ε σ`: the state it commits, or
the error it raises after it has rolled back. `commit s t` is the state that
the next transaction finds. The first lemmas take a transaction apart along
its binds and guards, so that no proof unfolds the monad. Two transactions
`Agree` if they raise the same or give related results, step by step
(`Agree.bind`).

Key definitions: `commit`, `Agree`.
Key theorems: `bind_eq_ok`, `guard_eq_ok`, `foldlM_cons_eq_ok`, `mem_of_mapM`,
`forall₂_of_mapM`, `mapM_congr`, `commit_invariant`, `Agree.bind`.
-/
import Mathlib.Data.List.Forall2

namespace Transactions

universe u

variable {ε τ : Type*} {α β σ : Type u}

theorem bind_eq_ok {x : Except ε α} {f : α → Except ε β} {b : β} :
    (x >>= f) = .ok b ↔ ∃ a, x = .ok a ∧ f a = .ok b := by
  cases x with
  | error e => simp [bind, Except.bind]
  | ok a => simp [bind, Except.bind]

/-- A guard that raises. -/
theorem guard_eq_ok {p : Prop} [Decidable p] {e : ε} {x : Except ε α} {a : α} :
    (if p then .error e else x) = .ok a ↔ ¬ p ∧ x = .ok a := by
  split <;> simp_all

/-- A guard whose other branch raises. -/
theorem guard_eq_ok' {p : Prop} [Decidable p] {e : ε} {x : Except ε α} {a : α} :
    (if p then x else .error e) = .ok a ↔ p ∧ x = .ok a := by
  split <;> simp_all

theorem pure_eq_ok {a b : α} : (pure a : Except ε α) = .ok b ↔ a = b := by
  simp [pure, Except.pure]

theorem map_eq_ok {x : Except ε α} {f : α → β} {b : β} (h : x.map f = .ok b) :
    ∃ a, x = .ok a ∧ f a = b := by
  cases x with
  | error e => cases h
  | ok a => exact ⟨a, rfl, Except.ok.inj h⟩

theorem toOption_eq_some {ε α : Type*} {x : Except ε α} {a : α} : x.toOption = some a ↔ x = .ok a := by
  cases x with
  | error e => simp [Except.toOption]
  | ok b => simp [Except.toOption]

theorem foldlM_cons_eq_ok {f : σ → τ → Except ε σ} {a : τ} {as : List τ} {s t : σ} :
    (a :: as).foldlM f s = .ok t ↔ ∃ s', f s a = .ok s' ∧ as.foldlM f s' = .ok t := by
  rw [List.foldlM_cons, bind_eq_ok]

theorem bind_eq_error {x : Except ε α} {f : α → Except ε β} {e : ε} :
    (x >>= f) = .error e ↔ x = .error e ∨ ∃ a, x = .ok a ∧ f a = .error e := by
  cases x with
  | error e' =>
    show Except.error e' = .error e ↔ _
    simp
  | ok a =>
    show f a = .error e ↔ _
    simp

/-- A fold raises what one of its steps raises. -/
theorem foldlM_error {f : σ → τ → Except ε σ} {P : ε → Prop} (hf : ∀ s a e, f s a = .error e → P e) :
    ∀ {as : List τ} {s : σ} {e : ε}, as.foldlM f s = .error e → P e
  | [], _, _, h => by cases h
  | a :: as, s, e, h => by
    rw [List.foldlM_cons] at h
    rcases bind_eq_error.mp h with h | ⟨s', -, h⟩
    · exact hf s a e h
    · exact foldlM_error hf h

/-- The results are those of the computations, in their order. -/
theorem forall₂_of_mapM {f : τ → Except ε β} : ∀ {as : List τ} {bs : List β}, as.mapM f = .ok bs →
    List.Forall₂ (fun a b => f a = .ok b) as bs
  | [], bs, h => by
    rw [List.mapM_nil] at h
    obtain rfl := Except.ok.inj h
    exact .nil
  | a :: as, bs, h => by
    rw [List.mapM_cons, bind_eq_ok] at h
    obtain ⟨b, hb, h⟩ := h
    obtain ⟨bs', hbs', h⟩ := bind_eq_ok.mp h
    obtain rfl := pure_eq_ok.mp h
    exact .cons hb (forall₂_of_mapM hbs')

/-- Lists that look alike to a computation. -/
theorem mapM_congr {f : τ → Except ε β} {R : τ → τ → Prop} (hf : ∀ a b, R a b → f a = f b) {as bs : List τ}
    (h : List.Forall₂ R as bs) : as.mapM f = bs.mapM f := by
  induction h with
  | nil => rfl
  | cons hab _ ih => rw [List.mapM_cons, List.mapM_cons, hf _ _ hab, ih]

/-- The state after a transaction: what it committed, or the state before. -/
def commit (s : σ) : Except ε σ → σ
  | .ok s' => s'
  | .error _ => s

/-- What every committed state has, and the state before. -/
theorem commit_invariant {I : σ → Prop} {s : σ} {t : Except ε σ} (hs : I s)
    (ht : ∀ s', t = .ok s' → I s') : I (commit s t) := by
  cases t with
  | error e => exact hs
  | ok s' => exact ht s' rfl

/-- Both raise the same, or give results that are related. -/
inductive Agree {α β : Type*} (R : α → β → Prop) : Except ε α → Except ε β → Prop
  | error (e : ε) : Agree R (.error e) (.error e)
  | ok {a : α} {b : β} (h : R a b) : Agree R (.ok a) (.ok b)

theorem Agree.bind {α' β' : Type u} {R : α → β → Prop} {S : α' → β' → Prop} {x : Except ε α} {y : Except ε β}
    {f : α → Except ε α'} {g : β → Except ε β'} (h : Agree R x y) (hfg : ∀ a b, R a b → Agree S (f a) (g b)) :
    Agree S (x >>= f) (y >>= g) := by
  cases h with
  | error e => exact .error e
  | ok h => exact hfg _ _ h

/-- A result of one is related to a result of the other. -/
theorem Agree.exists_of_ok {α β : Type*} {R : α → β → Prop} {a : α} {y : Except ε β} (h : Agree R (.ok a) y) :
    ∃ b, y = .ok b ∧ R a b := by
  cases h with
  | ok h => exact ⟨_, rfl, h⟩

theorem Agree.of_ok {α β : Type*} {R : α → β → Prop} {x : Except ε α} {b : β} (h : Agree R x (.ok b)) :
    ∃ a, x = .ok a ∧ R a b := by
  cases h with
  | ok h => exact ⟨_, rfl, h⟩

/-! ### Lists of computations that may fail -/

theorem exists_mapM {α β : Type} {f : α → Option β} {as : List α} (h : ∀ a ∈ as, ∃ b, f a = some b) :
    ∃ bs, as.mapM f = some bs ∧ ∀ a ∈ as, ∀ b, f a = some b → b ∈ bs := by
  induction as with
  | nil => exact ⟨[], rfl, nofun⟩
  | cons a as ih =>
    obtain ⟨b, hb⟩ := h a List.mem_cons_self
    obtain ⟨bs, hbs, hmem⟩ := ih fun c hc => h c (List.mem_cons_of_mem a hc)
    refine ⟨b :: bs, by rw [List.mapM_cons, hb, hbs]; rfl, fun c hc d hd => ?_⟩
    rcases List.mem_cons.mp hc with rfl | hc
    · rw [Option.some.inj (hd.symm.trans hb)]
      exact List.mem_cons_self
    · exact List.mem_cons_of_mem b (hmem c hc d hd)

/-- Each result is that of an element, each element has one, and what they share
is the same. -/
theorem mapM_eq_some {α β γ : Type} {f : α → Option β} {g : α → γ} {g' : β → γ}
    (hg : ∀ a b, f a = some b → g' b = g a) : ∀ {as : List α} {bs : List β}, as.mapM f = some bs →
      bs.map g' = as.map g ∧ (∀ b ∈ bs, ∃ a ∈ as, f a = some b) ∧ ∀ a ∈ as, ∃ b ∈ bs, f a = some b
  | [], bs, h => by
    rw [List.mapM_nil] at h
    obtain rfl := Option.some.inj h
    exact ⟨rfl, nofun, nofun⟩
  | a :: as, bs, h => by
    rw [List.mapM_cons] at h
    obtain ⟨b, hb, h⟩ := Option.bind_eq_some_iff.mp h
    obtain ⟨bs', hbs', h⟩ := Option.bind_eq_some_iff.mp h
    obtain rfl := Option.some.inj h
    obtain ⟨hmap, hfrom, hto⟩ := mapM_eq_some hg hbs'
    refine ⟨by rw [List.map_cons, List.map_cons, hg a b hb, hmap], fun d hd => ?_, fun c hc => ?_⟩
    · rcases List.mem_cons.mp hd with rfl | hd
      · exact ⟨a, List.mem_cons_self, hb⟩
      · obtain ⟨c, hc, hcd⟩ := hfrom d hd
        exact ⟨c, List.mem_cons_of_mem a hc, hcd⟩
    · rcases List.mem_cons.mp hc with rfl | hc
      · exact ⟨b, List.mem_cons_self, hb⟩
      · obtain ⟨d, hd, hcd⟩ := hto c hc
        exact ⟨d, List.mem_cons_of_mem b hd, hcd⟩

end Transactions
