/-
# Strided views

A view of a buffer gives each axis a size and a stride, and the element of an
index tuple is at the sum of the indices times the strides. Such a view is
`Dense` over its first `n` offsets if, from the innermost axis on, each
stride is the number of offsets that the axes inside it cover. The order of
the axes in the shape is free: the next one outside may be put anywhere
among those that are there.

In a dense view the index tuples are the offsets below `n`, each once
(`Dense.bijOn`), and a range of the outermost axis is a range of offsets
(`bijOn_outermost`).

Key definitions: `offset`, `Within`, `Dense`.
Key theorems: `Dense.bijOn`, `bijOn_outermost`.
-/
import Mathlib.Data.List.Forall2
import Mathlib.Data.Set.Function
import Mathlib.Order.Interval.Set.Defs
import Mathlib.Tactic.Ring

namespace Strides

/-- An axis of a view: its size and its stride. -/
structure Axis where
  size : ℕ
  stride : ℕ
deriving DecidableEq, Repr

/-- The offset of an index tuple. -/
def offset : List Axis → List ℕ → ℕ
  | axis :: axes, i :: index => i * axis.stride + offset axes index
  | _, _ => 0

/-- The index tuple has an entry for each axis, below its size. -/
def Within (axes : List Axis) (index : List ℕ) : Prop := List.Forall₂ (fun axis i => i < axis.size) axes index

/-- The axes cover the offsets below `n`. -/
inductive Dense : List Axis → ℕ → Prop
  | nil : Dense [] 1
  | insert {before after : List Axis} {n : ℕ} (size : ℕ) (h : Dense (before ++ after) n) :
      Dense (before ++ ⟨size, n⟩ :: after) (n * size)

/-! ### One axis among the others -/

theorem offset_append : ∀ {before : List Axis} {is : List ℕ} (after : List Axis) (js : List ℕ),
    before.length = is.length → offset (before ++ after) (is ++ js) = offset before is + offset after js
  | [], [], after, js, _ => by simp [offset]
  | axis :: before, i :: is, after, js, h => by
    have hlen : before.length = is.length := by simpa using h
    rw [List.cons_append, List.cons_append, offset, offset, offset_append after js hlen, Nat.add_assoc]

/-- An index tuple of the axes is one of the others with an entry below the
size put in. -/
theorem within_insert {after : List Axis} {axis : Axis} : ∀ {before : List Axis} {index : List ℕ},
    Within (before ++ axis :: after) index ↔
      ∃ is js i, index = is ++ i :: js ∧ before.length = is.length ∧ i < axis.size ∧
        Within (before ++ after) (is ++ js)
  | [], index => by
    constructor
    · intro h
      cases h with
      | cons hi hrest => exact ⟨[], _, _, rfl, rfl, hi, hrest⟩
    · rintro ⟨is, js, i, rfl, hlen, hi, h⟩
      obtain rfl := List.length_eq_zero_iff.mp hlen.symm
      exact .cons hi h
  | outer :: before, index => by
    constructor
    · intro h
      cases h with
      | cons ho hrest =>
        obtain ⟨is, js, i, rfl, hlen, hi, h⟩ := within_insert.mp hrest
        exact ⟨_ :: is, js, i, rfl, by simpa using hlen, hi, .cons ho h⟩
    · rintro ⟨is, js, i, rfl, hlen, hi, h⟩
      cases is with
      | nil => cases hlen
      | cons o is =>
        cases h with
        | cons ho hrest =>
          have hlen' : before.length = is.length := by simpa using hlen
          exact .cons ho (within_insert.mpr ⟨is, js, i, rfl, hlen', hi, hrest⟩)

theorem offset_insert {before after : List Axis} {is js : List ℕ} {i : ℕ} (axis : Axis)
    (hlen : before.length = is.length) :
    offset (before ++ axis :: after) (is ++ i :: js) = i * axis.stride + offset (before ++ after) (is ++ js) := by
  rw [offset_append _ _ hlen, offset_append _ _ hlen, offset]
  ring

theorem offset_lt {axes : List Axis} {n : ℕ} (h : Dense axes n) : ∀ {index}, Within axes index →
    offset axes index < n := by
  induction h with
  | nil =>
    intro index _
    exact Nat.one_pos
  | @insert before after n size _ ih =>
    intro index hin
    obtain ⟨is, js, i, rfl, hlen, hi, hrest⟩ := within_insert.mp hin
    rw [offset_insert _ hlen]
    calc i * n + offset (before ++ after) (is ++ js) < i * n + n := Nat.add_lt_add_left (ih hrest) _
      _ = n * (i + 1) := by ring
      _ ≤ n * size := Nat.mul_le_mul_left n hi

/-- The offset tells the entry of the axis of stride `n` and the offset of the
others. -/
theorem offset_injective {axes : List Axis} {n : ℕ} (h : Dense axes n) : ∀ {index index'}, Within axes index →
    Within axes index' → offset axes index = offset axes index' → index = index' := by
  induction h with
  | nil =>
    intro index index' hin hin' _
    cases hin
    cases hin'
    rfl
  | @insert before after n size hdense ih =>
    intro index index' hin hin' heq
    obtain ⟨is, js, i, rfl, hlen, -, hrest⟩ := within_insert.mp hin
    obtain ⟨is', js', i', rfl, hlen', -, hrest'⟩ := within_insert.mp hin'
    rw [offset_insert _ hlen, offset_insert _ hlen'] at heq
    have hlt := offset_lt hdense hrest
    have hlt' := offset_lt hdense hrest'
    have hi : i = i' := by
      have hdiv := congrArg (· / n) heq
      simpa [Nat.mul_add_div, Nat.mul_comm, Nat.div_eq_of_lt hlt, Nat.div_eq_of_lt hlt',
        Nat.zero_lt_of_lt hlt] using hdiv
    subst hi
    have hothers := ih hrest hrest' (Nat.add_left_cancel heq)
    obtain ⟨rfl, rfl⟩ := List.append_inj hothers (hlen.symm.trans hlen')
    rfl

theorem exists_offset {axes : List Axis} {n : ℕ} (h : Dense axes n) : ∀ {m : ℕ}, m < n →
    ∃ index, Within axes index ∧ offset axes index = m := by
  induction h with
  | nil =>
    intro m hm
    exact ⟨[], .nil, (Nat.lt_one_iff.mp hm).symm⟩
  | @insert before after n size _ ih =>
    intro m hm
    have hpos : 0 < n := Nat.pos_of_mul_pos_right (Nat.zero_lt_of_lt hm)
    obtain ⟨index, hin, hoffset⟩ := ih (Nat.mod_lt m hpos)
    have hsplit := List.take_append_drop before.length index
    have hlen : before.length = (index.take before.length).length := by
      have hall := hin.length_eq
      rw [List.length_append] at hall
      rw [List.length_take]
      omega
    rw [← hsplit] at hin hoffset
    refine ⟨index.take before.length ++ m / n :: index.drop before.length, ?_, ?_⟩
    · exact within_insert.mpr ⟨_, _, _, rfl, hlen, Nat.div_lt_of_lt_mul hm, hin⟩
    · rw [offset_insert _ hlen, hoffset]
      exact Nat.div_add_mod' m n

/-! ### Dense views -/

/-- The index tuples of a dense view are its offsets. -/
theorem Dense.bijOn {axes : List Axis} {n : ℕ} (h : Dense axes n) :
    Set.BijOn (offset axes) {index | Within axes index} (Set.Iio n) :=
  ⟨fun _ hin => offset_lt h hin, fun _ hin _ hin' => offset_injective h hin hin', fun _ hm => exists_offset h hm⟩

/-- A range of the outermost axis, put first, is a range of offsets. -/
theorem bijOn_outermost {axes : List Axis} {n size a b : ℕ} (h : Dense axes n) (hb : b ≤ size) :
    Set.BijOn (offset (⟨size, n⟩ :: axes))
      {index | Within (⟨size, n⟩ :: axes) index ∧ ∃ i ∈ index.head?, a ≤ i ∧ i < b}
      (Set.Ico (a * n) (b * n)) := by
  have hdense : Dense ([] ++ ⟨size, n⟩ :: axes) (n * size) := .insert size h
  have hall := hdense.bijOn
  refine ⟨?_, fun _ hin _ hin' => hall.injOn hin.1 hin'.1, ?_⟩
  · rintro _ ⟨hin, i, hi, hai, hib⟩
    cases hin with
    | @cons _ j _ rest hj hrest =>
      obtain rfl := Option.some.inj hi
      have hlt := offset_lt h hrest
      have hlow : a * n ≤ j * n := Nat.mul_le_mul_right n hai
      have hhigh : (j + 1) * n ≤ b * n := Nat.mul_le_mul_right n hib
      rw [Nat.succ_mul] at hhigh
      show a * n ≤ j * n + offset axes rest ∧ j * n + offset axes rest < b * n
      omega
  · rintro m ⟨hlow, hhigh⟩
    have hm : m < n * size := by
      calc m < b * n := hhigh
        _ ≤ size * n := Nat.mul_le_mul_right n hb
        _ = n * size := Nat.mul_comm size n
    obtain ⟨index, hin, rfl⟩ := hall.surjOn hm
    refine ⟨index, ⟨hin, ?_⟩, rfl⟩
    cases hin with
    | @cons _ j _ rest hj hrest =>
      have hlt := offset_lt h hrest
      change a * n ≤ j * n + offset axes rest at hlow
      change j * n + offset axes rest < b * n at hhigh
      have ha : a * n < (j + 1) * n := by
        rw [Nat.succ_mul]
        omega
      have hb' : j * n < b * n := by omega
      exact ⟨j, rfl, Nat.lt_succ_iff.mp (Nat.lt_of_mul_lt_mul_right ha), Nat.lt_of_mul_lt_mul_right hb'⟩

end Strides
