/-
# A table of tasks

Tasks in flight are kept in a list: a task is known by its position, a new
one is appended, and a step replaces the entry at its own position. These are
the facts about such a table that invariants over all tasks use: what an
entry is after a step, and that the other entries are still there.

Key theorems: `set_cases`, `snoc_cases`, `set_self`, `set_other`, `snoc_old`,
`flatMap_set`.
-/
import Mathlib.Data.List.Basic

namespace Tasks

variable {α : Type*} {l : List α} {j k : ℕ} {c c' : α}

/-- After task `k` moves to `c`, an entry is `c` at `k` or one of before. -/
theorem set_cases (h : (l.set k c)[j]? = some c') :
    (j = k ∧ c' = c) ∨ (j ≠ k ∧ l[j]? = some c') := by
  rw [List.getElem?_set] at h
  split at h
  · rename_i hkj
    split at h
    · cases h
      exact .inl ⟨hkj.symm, rfl⟩
    · cases h
  · rename_i hkj
    exact .inr ⟨fun e => hkj e.symm, h⟩

/-- After a task is added, an entry is the new one or one of before. -/
theorem snoc_cases (h : (l ++ [c])[j]? = some c') : (j = l.length ∧ c' = c) ∨ l[j]? = some c' := by
  rw [List.getElem?_append] at h
  split at h
  · exact .inr h
  · rename_i hj
    rw [List.getElem?_singleton] at h
    split at h
    · cases h
      exact .inl ⟨by omega, rfl⟩
    · cases h

theorem set_self (h : l[k]? = some c') : (l.set k c)[k]? = some c := by
  obtain ⟨hk, -⟩ := List.getElem?_eq_some_iff.mp h
  simp [hk]

theorem set_other (h : l[j]? = some c') (hj : j ≠ k) : (l.set k c)[j]? = some c' := by
  rw [List.getElem?_set_ne hj.symm]
  exact h

theorem snoc_old (h : l[j]? = some c') : (l ++ [c])[j]? = some c' := by
  obtain ⟨hj, -⟩ := List.getElem?_eq_some_iff.mp h
  rw [List.getElem?_append_left hj]
  exact h

variable {β : Type*}

/-- What the tasks have together changes with what the one task has. -/
theorem flatMap_set (f : α → List β) (h : l[k]? = some c') :
    (f c' ++ (l.set k c).flatMap f).Perm (f c ++ l.flatMap f) := by
  induction l generalizing k with
  | nil => cases h
  | cons b l ih =>
    cases k with
    | zero =>
      cases h
      exact List.perm_append_comm_assoc _ _ _
    | succ k =>
      simp only [List.set_cons_succ, List.flatMap_cons]
      exact ((List.perm_append_comm_assoc _ _ _).trans ((ih h).append_left _)).trans
        (List.perm_append_comm_assoc _ _ _)

/-- A column that the task keeps is as it was. -/
theorem map_set_same {f : α → β} (h : l[k]? = some c') (hf : f c = f c') : (l.set k c).map f = l.map f := by
  obtain ⟨hk, rfl⟩ := List.getElem?_eq_some_iff.mp h
  have hk' : k < (l.map f).length := by rwa [List.length_map]
  rw [List.map_set, hf, ← List.getElem_map f (h := hk'), List.set_getElem_self hk']

theorem snoc_new : (l ++ [c])[l.length]? = some c := by simp

end Tasks
