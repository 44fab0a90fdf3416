/-
# Lines that come in pieces

`split sep text` cuts a text at every separator: the complete parts and the
rest after the last separator. A reader that keeps the rest and puts the next
piece behind it finds the parts of the whole text (`split_append`,
`feed_flatten`), however the text has been cut into pieces.

Key definitions: `split`, `feed`.
Key theorems: `split_append`, `split_rest`, `feed_flatten`.
-/
import Mathlib.Data.List.Basic

namespace Lines

variable {α : Type*} [DecidableEq α] (sep : α)

/-- An element is put in front of the first part. -/
def push (x : α) : List (List α) × List α → List (List α) × List α
  | ([], rest) => ([], x :: rest)
  | (part :: parts, rest) => ((x :: part) :: parts, rest)

/-- `text.split(sep)`: the parts but the last, and the last. -/
def split : List α → List (List α) × List α
  | [] => ([], [])
  | x :: xs => if x = sep then ([] :: (split xs).1, (split xs).2) else push x (split xs)

variable {sep} {xs : List α}

theorem split_sep : split sep (sep :: xs) = ([] :: (split sep xs).1, (split sep xs).2) := by
  rw [split, if_pos rfl]

theorem split_ne {x : α} (hx : x ≠ sep) : split sep (x :: xs) = push x (split sep xs) := by
  rw [split, if_neg hx]

/-- Pieces are split one after the other, each behind the rest of the one
before. -/
theorem split_append (xs ys : List α) : split sep (xs ++ ys) =
    ((split sep xs).1 ++ (split sep ((split sep xs).2 ++ ys)).1, (split sep ((split sep xs).2 ++ ys)).2) := by
  induction xs with
  | nil => rfl
  | cons x xs ih =>
    by_cases hx : x = sep
    · subst hx
      rw [List.cons_append, split_sep, split_sep, ih]
      rfl
    · rw [List.cons_append, split_ne hx, split_ne hx, ih]
      rcases hparts : split sep xs with ⟨_ | ⟨part, parts⟩, rest⟩
      · show push x _ = _
        rw [push, List.nil_append, List.cons_append, split_ne hx]
        rfl
      · rfl

/-- A part without a separator, and what follows it. -/
theorem split_part : ∀ {part : List α} (xs : List α), sep ∉ part →
    split sep (part ++ sep :: xs) = (part :: (split sep xs).1, (split sep xs).2)
  | [], _, _ => split_sep
  | x :: part, xs, h => by
    have hx : x ≠ sep := fun heq => h (heq ▸ List.mem_cons_self)
    rw [List.cons_append, split_ne hx, split_part xs fun hmem => h (List.mem_cons_of_mem _ hmem)]
    rfl

/-- The rest has no separator. -/
theorem split_rest (xs : List α) : split sep (split sep xs).2 = ([], (split sep xs).2) := by
  induction xs with
  | nil => rfl
  | cons x xs ih =>
    by_cases hx : x = sep
    · subst hx
      rw [split_sep]
      exact ih
    · rw [split_ne hx]
      rcases hparts : split sep xs with ⟨_ | ⟨part, parts⟩, rest⟩
      · rw [hparts] at ih
        show split sep (x :: rest) = ([], x :: rest)
        rw [split_ne hx, ih]
        rfl
      · rw [hparts] at ih
        exact ih

variable (sep)

/-- The parts that a reader finds that keeps the rest of each piece, and the
rest at the end. -/
def feed : List α → List (List α) → List (List α) × List α
  | rest, [] => ([], rest)
  | rest, piece :: pieces =>
    ((split sep (rest ++ piece)).1 ++ (feed (split sep (rest ++ piece)).2 pieces).1,
      (feed (split sep (rest ++ piece)).2 pieces).2)

theorem feed_flatten : ∀ (pieces : List (List α)) {rest : List α}, split sep rest = ([], rest) →
    feed sep rest pieces = split sep (rest ++ pieces.flatten)
  | [], rest, h => by
    rw [List.flatten_nil, List.append_nil, h]
    rfl
  | piece :: pieces, rest, _ => by
    rw [List.flatten_cons, ← List.append_assoc, split_append (rest ++ piece), feed,
      feed_flatten pieces (split_rest (rest ++ piece))]

end Lines
