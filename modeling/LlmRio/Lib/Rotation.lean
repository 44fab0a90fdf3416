/-
# Whose turn comes first

The members of a rotation take turns from the front of a list, and go to its
back. Between two turns of a member every other one has at most one turn:
what it takes to see that is who is ahead of whom, and how a turn changes it.
A member that leaves and comes back is behind all that stayed.

Key definitions: `ahead`.
Key theorems: `ahead_turn`, `ahead_turn_self`, `ahead_turn_other`, `ahead_join`,
`ahead_leave`.
-/
import Mathlib.Data.List.Nodup

namespace Rotation

variable {κ : Type*} [DecidableEq κ] {u t x : κ} {l : List κ}

/-- `u` has its turn before `t`. -/
def ahead (u t : κ) : List κ → Bool
  | [] => false
  | x :: l => if x = t then false else x = u || ahead u t l

theorem ahead_cons_self (u t : κ) (l : List κ) : ahead u t (t :: l) = false := by
  simp [ahead]

theorem ahead_cons_first (h : u ≠ t) (l : List κ) : ahead u t (u :: l) = true := by
  simp [ahead, h]

theorem ahead_cons_ne (hu : x ≠ u) (ht : x ≠ t) (l : List κ) : ahead u t (x :: l) = ahead u t l := by
  simp [ahead, hu, ht]

theorem ahead_of_not_mem : ∀ {l : List κ}, u ∉ l → ahead u t l = false
  | [], _ => rfl
  | x :: l, h => by
    rw [List.mem_cons, not_or] at h
    unfold ahead
    rw [ahead_of_not_mem h.2]
    simp [Ne.symm h.1]

/-- Who joins at the back is ahead of nobody. -/
theorem ahead_join : ∀ {l : List κ}, t ∈ l → ahead u t (l ++ [x]) = ahead u t l
  | [], h => absurd h List.not_mem_nil
  | y :: l, h => by
    rw [List.cons_append]
    unfold ahead
    by_cases hy : y = t
    · rw [if_pos hy, if_pos hy]
    · have ht : t ∈ l := (List.mem_cons.mp h).resolve_left (Ne.symm hy)
      rw [if_neg hy, if_neg hy, ahead_join ht]

/-- The member that takes the turn is behind the others. -/
theorem ahead_turn (ht : t ∈ l) (hu : u ∉ l) : ahead u t (l ++ [u]) = false := by
  rw [ahead_join ht, ahead_of_not_mem hu]

/-- After the turn of `t` the others are ahead of it. -/
theorem ahead_turn_self : ∀ {l : List κ}, t ∉ l → u ∈ l → ahead u t (l ++ [t]) = true
  | [], _, hu => absurd hu List.not_mem_nil
  | x :: l, ht, hu => by
    rw [List.mem_cons, not_or] at ht
    rw [List.cons_append]
    unfold ahead
    rw [if_neg (Ne.symm ht.1)]
    rcases List.mem_cons.mp hu with rfl | hu
    · simp
    · simp [ahead_turn_self ht.2 hu]

/-- The turn of another member changes nothing between `u` and `t`. -/
theorem ahead_turn_other (hu : x ≠ u) (ht : x ≠ t) (hmem : t ∈ l) :
    ahead u t (l ++ [x]) = ahead u t (x :: l) := by
  rw [ahead_join hmem, ahead_cons_ne hu ht]

/-- Another member leaves. -/
theorem ahead_leave (hu : x ≠ u) (ht : x ≠ t) : ∀ pre post : List κ,
    ahead u t (pre ++ post) = ahead u t (pre ++ x :: post)
  | [], post => (ahead_cons_ne hu ht post).symm
  | y :: pre, post => by
    rw [List.cons_append, List.cons_append]
    unfold ahead
    rw [ahead_leave hu ht pre post]

end Rotation
