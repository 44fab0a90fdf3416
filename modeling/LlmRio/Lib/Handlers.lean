/-
# Programs that raise

A program of `EStateM` works on a state and returns a value or raises an
exception; an exception does not undo what the program has done. `Ends P m Q E`
is a triple of `Std.Do` over plain predicates: from a state with `P` the
program `m` returns with `Q` or raises with `E`. Each construct has its rule;
`finally` runs on both ways out, and `Reaches P m J` speaks of both at once.

Key definitions: `Ends`, `Reaches`, `Keeps`.
Key theorems: `Ends.bind`, `Ends.tryCatch`, `Ends.tryFinally`, `Ends.weaken`,
`bind_ok`, `tryCatch_error`.
-/
import Mathlib

namespace Handlers

open Std.Do

universe u

variable {ε σ α β : Type u}

/-- From a state with `P` the program returns with `Q` or raises with `E`. -/
def Ends (P : σ → Prop) (m : EStateM ε σ α) (Q : α → σ → Prop) (E : ε → σ → Prop) : Prop :=
  Triple m (fun s => ⌜P s⌝) (post⟨fun a s => ⌜Q a s⌝, fun e s => ⌜E e s⌝⟩)

/-- From a state with `P` the program comes to `J`, whether it returns or raises. -/
def Reaches (P : σ → Prop) (m : EStateM ε σ α) (J : σ → Prop) : Prop := Ends P m (fun _ => J) fun _ => J

/-- The program keeps `I`, whether it returns or raises. -/
def Keeps (I : σ → Prop) (m : EStateM ε σ α) : Prop := Reaches I m I

theorem ends_iff {P : σ → Prop} {m : EStateM ε σ α} {Q : α → σ → Prop} {E : ε → σ → Prop} :
    Ends P m Q E ↔ ∀ s, P s → match m s with
      | .ok a s' => Q a s'
      | .error e s' => E e s' := by
  unfold Ends
  simp only [Triple.iff, wp, PredTrans.apply]
  refine ⟨fun h s hs => ?_, fun h s hs => ?_⟩
  · have := h s hs
    cases hm : m s <;> simpa [EStateM.run, hm] using this
  · have := h s hs
    cases hm : m s <;> simpa [EStateM.run, hm] using this

/-! ### How a program runs -/

section

variable {m : EStateM ε σ β} {f : β → EStateM ε σ α} {n : EStateM ε σ α} {h : ε → EStateM ε σ α} {s t : σ} {e : ε}

theorem bind_ok {b : β} (hm : m s = .ok b t) : (m >>= f) s = f b t := by
  simp only [bind, EStateM.bind, hm]

theorem bind_error (hm : m s = .error e t) : (m >>= f) s = .error e t := by
  simp only [bind, EStateM.bind, hm]

theorem modify_run {g : σ → σ} {f : PUnit → EStateM ε σ α} :
    ((modify g : EStateM ε σ PUnit) >>= f) s = f ⟨⟩ (g s) := rfl

theorem get_run {f : σ → EStateM ε σ α} : (get >>= f) s = f s s := rfl

theorem tryCatch_ok {a : α} (hn : n s = .ok a t) : tryCatch n h s = .ok a t := by
  simp only [tryCatch, tryCatchThe, MonadExceptOf.tryCatch, EStateM.tryCatch, hn]

/-- The handler goes on from the state in which the program has raised. -/
theorem tryCatch_error (hn : n s = .error e t) : tryCatch n h s = h e t := by
  simp only [tryCatch, tryCatchThe, MonadExceptOf.tryCatch, EStateM.tryCatch, hn]
  rfl

end

/-! ### The rules -/

namespace Ends

variable {P P' : σ → Prop} {m : EStateM ε σ α} {Q Q' : α → σ → Prop} {E E' : ε → σ → Prop}

theorem weaken (h : Ends P m Q E) (hP : ∀ s, P' s → P s) (hQ : ∀ a s, Q a s → Q' a s)
    (hE : ∀ e s, E e s → E' e s) : Ends P' m Q' E' := by
  rw [ends_iff] at h ⊢
  intro s hs
  have hend := h s (hP s hs)
  cases hm : m s with
  | ok a t => exact hQ a t (by simpa only [hm] using hend)
  | error e t => exact hE e t (by simpa only [hm] using hend)

/-- A rule applies from every stronger precondition. -/
theorem of_pre (h : Ends P m Q E) (hP : ∀ s, P' s → P s) : Ends P' m Q E :=
  h.weaken hP (fun _ _ => id) fun _ _ => id

theorem of_post (h : Ends P m Q E) (hQ : ∀ a s, Q a s → Q' a s) (hE : ∀ e s, E e s → E' e s) :
    Ends P m Q' E' :=
  h.weaken (fun _ => id) hQ hE

theorem both (h : Ends P m Q E) (h' : Ends P m Q' E') :
    Ends P m (fun a s => Q a s ∧ Q' a s) fun e s => E e s ∧ E' e s := by
  rw [ends_iff] at h h' ⊢
  intro s hs
  have hend := h s hs
  have hend' := h' s hs
  cases hm : m s with
  | ok a t => exact ⟨by simpa only [hm] using hend, by simpa only [hm] using hend'⟩
  | error e t => exact ⟨by simpa only [hm] using hend, by simpa only [hm] using hend'⟩

/-- What the precondition says apart from the state may be assumed. -/
theorem assume {p : Prop} (h : p → Ends P m Q E) : Ends (fun s => P s ∧ p) m Q E := by
  rw [ends_iff]
  rintro s ⟨hs, hp⟩
  exact ends_iff.mp (h hp) s hs

/-- A precondition that does not speak of the state may be assumed. -/
theorem of_pure {p : Prop} (h : p → Ends (fun _ => True) m Q E) : Ends (fun _ => p) m Q E :=
  of_pre (assume h) fun _ hp => ⟨trivial, hp⟩

/-- Nothing is said of the end. -/
theorem top : Ends P m (fun _ _ => True) fun _ _ => True := by
  rw [ends_iff]
  intro s _
  cases m s <;> trivial

theorem of_exists {ι : Sort*} {R : ι → σ → Prop} (h : ∀ i, Ends (R i) m Q E) :
    Ends (fun s => ∃ i, R i s) m Q E := by
  rw [ends_iff]
  rintro s ⟨i, hs⟩
  exact ends_iff.mp (h i) s hs

theorem of_false : Ends (fun _ : σ => False) m Q E := ends_iff.mpr fun _ hs => hs.elim

protected theorem pure {a : α} (h : ∀ s, P s → Q a s) : Ends P (pure a : EStateM ε σ α) Q E :=
  ends_iff.mpr h

protected theorem throw {e : ε} (h : ∀ s, P s → E e s) : Ends P (throw e : EStateM ε σ α) Q E :=
  ends_iff.mpr h

protected theorem modify {f : σ → σ} {Q : PUnit → σ → Prop} (h : ∀ s, P s → Q ⟨⟩ (f s)) :
    Ends P (modify f : EStateM ε σ PUnit) Q E :=
  ends_iff.mpr h

protected theorem bind {R : β → σ → Prop} {m : EStateM ε σ β} {f : β → EStateM ε σ α}
    (hm : Ends P m R E) (hf : ∀ b, Ends (R b) (f b) Q E) : Ends P (m >>= f) Q E := by
  rw [ends_iff] at hm ⊢
  intro s hs
  have hend := hm s hs
  simp only [bind, EStateM.bind]
  cases hr : m s with
  | ok b t => exact ends_iff.mp (hf b) t (by simpa only [hr] using hend)
  | error e t => simpa only [hr] using hend

/-- The value that `get` returns is the state. -/
theorem get_bind {f : σ → EStateM ε σ α} (h : ∀ t, Ends (fun s => P s ∧ s = t) (f t) Q E) :
    Ends P (get >>= f) Q E :=
  .bind (R := fun t s => P s ∧ s = t) (ends_iff.mpr fun _ hs => ⟨hs, rfl⟩) h

protected theorem tryCatch {F : ε → σ → Prop} {h : ε → EStateM ε σ α} (hm : Ends P m Q F)
    (hh : ∀ e, Ends (F e) (h e) Q E) : Ends P (tryCatch m h) Q E := by
  rw [ends_iff] at hm ⊢
  intro s hs
  have hend := hm s hs
  simp only [tryCatch, tryCatchThe, MonadExceptOf.tryCatch, EStateM.tryCatch]
  cases hr : m s with
  | ok a t => simpa only [hr] using hend
  | error e t => exact ends_iff.mp (hh e) t (by simpa only [hr] using hend)

/-- The finalizer runs on both ways out, and an exception of its own replaces
the one that it interrupts. -/
protected theorem tryFinally {R : α → σ → Prop} {F : ε → σ → Prop} {y : EStateM ε σ β}
    (hm : Ends P m R F) (hok : ∀ a, Ends (R a) y (fun _ => Q a) E)
    (herror : ∀ e, Ends (F e) y (fun _ => E e) E) : Ends P (tryFinally m y) Q E := by
  rw [ends_iff] at hm ⊢
  intro s hs
  have hend := hm s hs
  simp only [tryFinally, tryFinally', Functor.map, EStateM.map]
  cases hr : m s with
  | ok a t =>
    have := ends_iff.mp (hok a) t (by simpa only [hr] using hend)
    simp only
    cases hy : y t <;> simpa only [hy] using this
  | error e t =>
    have := ends_iff.mp (herror e) t (by simpa only [hr] using hend)
    simp only
    cases hy : y t <;> simpa only [hy] using this

protected theorem ite {p : Prop} [Decidable p] {n : EStateM ε σ α} (ht : p → Ends P m Q E)
    (hf : ¬ p → Ends P n Q E) : Ends P (if p then m else n) Q E := by
  by_cases h : p
  · rw [if_pos h]
    exact ht h
  · rw [if_neg h]
    exact hf h

end Ends

namespace Reaches

variable {P P' I J : σ → Prop} {m : EStateM ε σ α}

theorem of_pre (h : Reaches P m J) (hP : ∀ s, P' s → P s) : Reaches P' m J := Ends.of_pre h hP

/-- A finalizer that needs `I`, after a program that comes to `I`. -/
protected theorem tryFinally {y : EStateM ε σ β} (hm : Reaches P m I) (hy : Reaches I y J) :
    Reaches P (tryFinally m y) J :=
  Ends.tryFinally hm (fun _ => hy) fun _ => hy

end Reaches

namespace Keeps

variable {I : σ → Prop} {m : EStateM ε σ α}

protected theorem pure {a : α} : Keeps I (pure a : EStateM ε σ α) := Ends.pure fun _ => id

protected theorem throw {e : ε} : Keeps I (throw e : EStateM ε σ α) := Ends.throw fun _ => id

protected theorem modify {f : σ → σ} (h : ∀ s, I s → I (f s)) : Keeps I (modify f : EStateM ε σ PUnit) :=
  Ends.modify h

protected theorem bind {m : EStateM ε σ β} {f : β → EStateM ε σ α} (hm : Keeps I m)
    (hf : ∀ b, Keeps I (f b)) : Keeps I (m >>= f) :=
  Ends.bind hm hf

protected theorem tryCatch {h : ε → EStateM ε σ α} (hm : Keeps I m) (hh : ∀ e, Keeps I (h e)) :
    Keeps I (tryCatch m h) :=
  Ends.tryCatch hm hh

end Keeps

end Handlers
