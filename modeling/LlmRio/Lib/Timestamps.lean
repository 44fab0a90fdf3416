/-
# UTC datetimes and their texts

A `datetime` in UTC is a date of the Gregorian calendar and a time of day to
the microsecond. Datetimes are ordered by their fields, and so are the instants
that they stand for (`strictMono_time`): the ordinal of a date counts the days
of the years and months before it.

`isoformat` writes each field with a fixed number of digits, except that it
leaves out a fraction of zero; then the offset follows the seconds, and `+` is
less than the point of a fraction. So the texts are ordered as the datetimes
are (`strictMono_isoformat`).

Key definitions: `Utc`, `Utc.ordinal`, `Utc.time`, `Utc.isoformat`.
Key theorems: `pad_append_lt_iff`, `fraction_lt_iff`, `strictMono_isoformat`,
`strictMono_time`.
-/
import Mathlib.Algebra.Order.Field.Rat
import Mathlib.Data.List.Lex
import Mathlib.Data.String.Basic
import Mathlib.Order.Monotone.Basic
import Mathlib.Tactic.IntervalCases
import Mathlib.Tactic.Linarith

namespace LlmRio
namespace Timestamps

/-! ### Texts of numbers -/

/-- `%0{width}d` -/
def pad (width n : ℕ) : List Char := (Nat.toDigits 10 n).leftpad width '0'

/-- The last `width` digits of a number. -/
def digits : ℕ → ℕ → List Char
  | 0, _ => []
  | width + 1, n => digits width (n / 10) ++ [Nat.digitChar (n % 10)]

theorem length_digits : ∀ width n : ℕ, (digits width n).length = width
  | 0, _ => rfl
  | width + 1, n => by rw [digits, List.length_append, length_digits, List.length_singleton]

theorem digits_zero : ∀ width : ℕ, digits width 0 = List.replicate width '0'
  | 0 => rfl
  | width + 1 => by
    rw [digits, Nat.zero_div, digits_zero, List.replicate_succ']
    rfl

theorem pad_eq_digits {width n : ℕ} (h : n < 10 ^ (width + 1)) : pad (width + 1) n = digits (width + 1) n := by
  induction width generalizing n with
  | zero =>
    have hn : n < 10 := by simpa using h
    rw [pad, Nat.toDigits_of_lt_base hn, digits, digits, Nat.mod_eq_of_lt hn]
    rfl
  | succ width ih =>
    by_cases hn : n < 10
    · rw [pad, Nat.toDigits_of_lt_base hn, digits, Nat.div_eq_of_lt hn, Nat.mod_eq_of_lt hn, digits_zero]
      rfl
    · have hdiv : n / 10 < 10 ^ (width + 1) := by
        rw [pow_succ] at h
        omega
      have hpad : pad (width + 2) n = pad (width + 1) (n / 10) ++ [Nat.digitChar (n % 10)] := by
        have hlength : width + 2 - ((Nat.toDigits 10 (n / 10)).length + 1) =
            width + 1 - (Nat.toDigits 10 (n / 10)).length := by omega
        rw [pad, Nat.toDigits_of_base_le (by decide) (not_lt.mp hn), pad, List.leftpad, List.leftpad,
          List.length_append, List.length_singleton, hlength, List.append_assoc]
      rw [hpad, ih hdiv]
      rfl

/-! ### The order of texts -/

/-- Texts that begin with blocks of one length. -/
theorem append_lt_append_iff {xs ys s t : List Char} (h : xs.length = ys.length) :
    xs ++ s < ys ++ t ↔ xs < ys ∨ xs = ys ∧ s < t := by
  induction xs generalizing ys with
  | nil =>
    obtain rfl := List.eq_nil_of_length_eq_zero h.symm
    simp
  | cons x xs ih =>
    cases ys with
    | nil => cases h
    | cons y ys =>
      have hlength : xs.length = ys.length := Nat.succ.inj h
      rw [List.cons_append, List.cons_append, List.cons_lt_cons_iff, List.cons_lt_cons_iff, ih hlength,
        List.cons.injEq]
      tauto

theorem digitChar_lt_iff {m n : ℕ} (hm : m < 10) (hn : n < 10) : Nat.digitChar m < Nat.digitChar n ↔ m < n := by
  interval_cases m <;> interval_cases n <;> decide

/-- Texts that are ordered as their numbers are tell the numbers apart. -/
theorem eq_iff_of_lt_iff {f : ℕ → List Char} {m n : ℕ} (hmn : f m < f n ↔ m < n) (hnm : f n < f m ↔ n < m) :
    f m = f n ↔ m = n := by
  constructor
  · intro h
    rw [h, lt_self_iff_false, false_iff] at hmn hnm
    omega
  · intro h
    rw [h]

theorem digits_lt_iff {width m n : ℕ} (hm : m < 10 ^ width) (hn : n < 10 ^ width) :
    digits width m < digits width n ↔ m < n := by
  induction width generalizing m n with
  | zero =>
    have hzero : m = 0 ∧ n = 0 := by simpa using And.intro hm hn
    obtain ⟨rfl, rfl⟩ := hzero
    simp
  | succ width ih =>
    have hm' : m / 10 < 10 ^ width := by
      rw [pow_succ] at hm
      omega
    have hn' : n / 10 < 10 ^ width := by
      rw [pow_succ] at hn
      omega
    have hlength : (digits width (m / 10)).length = (digits width (n / 10)).length := by
      rw [length_digits, length_digits]
    have heq : digits width (m / 10) = digits width (n / 10) ↔ m / 10 = n / 10 :=
      eq_iff_of_lt_iff (ih hm' hn') (ih hn' hm')
    have hlast : [Nat.digitChar (m % 10)] < [Nat.digitChar (n % 10)] ↔ m % 10 < n % 10 := by
      rw [List.cons_lt_cons_iff, digitChar_lt_iff (Nat.mod_lt m (by decide)) (Nat.mod_lt n (by decide))]
      simp
    rw [digits, digits, append_lt_append_iff hlength, ih hm' hn', heq, hlast]
    omega

/-- A number of fixed width comes before what follows it. -/
theorem pad_append_lt_iff {width m n : ℕ} {s t : List Char} (hm : m < 10 ^ (width + 1)) (hn : n < 10 ^ (width + 1)) :
    pad (width + 1) m ++ s < pad (width + 1) n ++ t ↔ m < n ∨ m = n ∧ s < t := by
  have hlength : (digits (width + 1) m).length = (digits (width + 1) n).length := by
    rw [length_digits, length_digits]
  have heq : digits (width + 1) m = digits (width + 1) n ↔ m = n :=
    eq_iff_of_lt_iff (digits_lt_iff hm hn) (digits_lt_iff hn hm)
  rw [pad_eq_digits hm, pad_eq_digits hn, append_lt_append_iff hlength, digits_lt_iff hm hn, heq]

theorem cons_lt_cons_self (c : Char) (s t : List Char) : c :: s < c :: t ↔ s < t := by
  rw [List.cons_lt_cons_iff]
  simp

/-! ### The calendar -/

def isLeap (year : ℕ) : Bool := year % 4 = 0 ∧ (year % 100 ≠ 0 ∨ year % 400 = 0)

def daysInMonth (year month : ℕ) : ℕ :=
  if month = 2 then if isLeap year then 29 else 28
  else if month = 4 ∨ month = 6 ∨ month = 9 ∨ month = 11 then 30
  else 31

/-- The days from the start of the year 1. -/
def daysBeforeYear (year : ℕ) : ℕ := (year - 1) * 365 + (year - 1) / 4 - (year - 1) / 100 + (year - 1) / 400

/-- The days from the start of the year. -/
def daysBeforeMonth (year : ℕ) : ℕ → ℕ
  | 0 | 1 => 0
  | month + 2 => daysBeforeMonth year (month + 1) + daysInMonth year (month + 1)

theorem daysInYear (year : ℕ) : daysBeforeMonth year 13 = if isLeap year then 366 else 365 := by
  have hmonths : daysBeforeMonth year 13 =
      0 + 31 + daysInMonth year 2 + 31 + 30 + 31 + 30 + 31 + 31 + 30 + 31 + 30 + 31 := rfl
  rw [hmonths, daysInMonth, if_pos rfl]
  split <;> rfl

theorem div_succ (n k : ℕ) : (n + 1) / k = if (n + 1) % k = 0 then n / k + 1 else n / k := by
  rw [Nat.succ_div]
  simp only [Nat.dvd_iff_mod_eq_zero]
  split <;> rfl

/-- The next year starts after the last day of December. -/
theorem daysBeforeYear_succ {year : ℕ} (h : 1 ≤ year) :
    daysBeforeYear (year + 1) = daysBeforeYear year + daysBeforeMonth year 13 := by
  obtain ⟨n, rfl⟩ := Nat.exists_eq_add_of_le' h
  have hle : n / 100 ≤ n / 4 := by omega
  rw [daysInYear]
  unfold daysBeforeYear isLeap
  simp only [decide_eq_true_eq, Nat.add_sub_cancel]
  rw [div_succ n 4, div_succ n 100, div_succ n 400]
  by_cases h4 : (n + 1) % 4 = 0
  · by_cases h100 : (n + 1) % 100 = 0
    · by_cases h400 : (n + 1) % 400 = 0
      · simp only [h4, h100, h400, if_true, ne_eq, not_true_eq_false, or_true, and_true]
        omega
      · simp only [h4, h100, h400, if_true, if_false, ne_eq, not_true_eq_false, or_false, and_false]
        omega
    · have h400 : ¬ (n + 1) % 400 = 0 := by omega
      simp only [h4, h100, h400, if_true, if_false, ne_eq, not_false_eq_true, or_false, and_true]
      omega
  · have h100 : ¬ (n + 1) % 100 = 0 := by omega
    have h400 : ¬ (n + 1) % 400 = 0 := by omega
    simp only [h4, h100, h400, if_false, false_and]
    omega

theorem monotone_daysBeforeYear : Monotone daysBeforeYear := by
  apply monotone_nat_of_le_succ
  intro year
  cases year with
  | zero => exact le_rfl
  | succ year =>
    rw [daysBeforeYear_succ (Nat.succ_pos year)]
    exact Nat.le_add_right _ _

theorem monotone_daysBeforeMonth (year : ℕ) : Monotone (daysBeforeMonth year) := by
  apply monotone_nat_of_le_succ
  intro month
  cases month with
  | zero => exact le_rfl
  | succ month => exact Nat.le_add_right _ _

theorem daysBeforeMonth_succ {year month : ℕ} (h : 1 ≤ month) :
    daysBeforeMonth year (month + 1) = daysBeforeMonth year month + daysInMonth year month := by
  obtain ⟨m, rfl⟩ := Nat.exists_eq_add_of_le' h
  rfl

/-! ### Datetimes -/

/-- A `datetime` with `tzinfo=UTC`. -/
structure Utc where
  year : ℕ
  month : ℕ
  day : ℕ
  hour : ℕ := 0
  minute : ℕ := 0
  second : ℕ := 0
  microsecond : ℕ := 0
  date : 1 ≤ year ∧ year ≤ 9999 ∧ 1 ≤ month ∧ month ≤ 12 ∧ 1 ≤ day ∧ day ≤ daysInMonth year month := by decide
  clock : hour < 24 ∧ minute < 60 ∧ second < 60 ∧ microsecond < 1000000 := by decide
deriving DecidableEq

namespace Utc

def fields (a : Utc) : List ℕ := [a.year, a.month, a.day, a.hour, a.minute, a.second, a.microsecond]

theorem fields_injective : Function.Injective fields := by
  intro a b h
  cases a
  cases b
  simpa [fields] using h

/-- Datetimes of one timezone compare by their fields. -/
instance : LinearOrder Utc := LinearOrder.lift' fields fields_injective

theorem lt_iff_fields {a b : Utc} : a < b ↔ a.fields < b.fields := Iff.rfl

/-- `toordinal()` -/
def ordinal (a : Utc) : ℕ := daysBeforeYear a.year + daysBeforeMonth a.year a.month + a.day

/-- The microseconds from the start of the day before the first of the calendar. -/
def ticks (a : Utc) : ℕ :=
  (((a.ordinal * 24 + a.hour) * 60 + a.minute) * 60 + a.second) * 1000000 + a.microsecond

/-- The ordinal of 1970-01-01. -/
def epoch : ℕ := 719163

/-- `timestamp()`, the seconds from the epoch. -/
def time (a : Utc) : ℚ := ((a.ticks : ℚ) - epoch * 86400 * 1000000) / 1000000

theorem ordinal_lt_of_year {a b : Utc} (h : a.year < b.year) : a.ordinal < b.ordinal := by
  obtain ⟨hyear, -, hmonth, hmonth', -, hday⟩ := a.date
  have hday' : daysBeforeMonth a.year a.month + a.day ≤ daysBeforeMonth a.year (a.month + 1) := by
    rw [daysBeforeMonth_succ hmonth]
    omega
  have hmonths : daysBeforeMonth a.year (a.month + 1) ≤ daysBeforeMonth a.year 13 := monotone_daysBeforeMonth _ (by omega)
  have hyears : daysBeforeYear (a.year + 1) ≤ daysBeforeYear b.year := monotone_daysBeforeYear h
  have hsucc := daysBeforeYear_succ hyear
  have hpos := b.date.2.2.2.2.1
  unfold ordinal
  omega

theorem ordinal_lt_of_month {a b : Utc} (hyear : a.year = b.year) (h : a.month < b.month) :
    a.ordinal < b.ordinal := by
  obtain ⟨-, -, hmonth, -, -, hday⟩ := a.date
  have hmonths : daysBeforeMonth a.year (a.month + 1) ≤ daysBeforeMonth a.year b.month := monotone_daysBeforeMonth _ h
  rw [daysBeforeMonth_succ hmonth] at hmonths
  have hpos := b.date.2.2.2.2.1
  unfold ordinal
  rw [← hyear]
  omega

theorem strictMono_ticks : StrictMono ticks := by
  intro a b h
  rw [lt_iff_fields] at h
  simp only [fields, List.cons_lt_cons_iff, List.lt_irrefl, and_false, or_false] at h
  obtain ⟨hhour, hminute, hsecond, hmicrosecond⟩ := a.clock
  have hday : a.ordinal < b.ordinal ∨ a.ordinal = b.ordinal ∧ (a.hour < b.hour ∨ a.hour = b.hour ∧
      (a.minute < b.minute ∨ a.minute = b.minute ∧ (a.second < b.second ∨ a.second = b.second ∧
        a.microsecond < b.microsecond))) := by
    rcases h with hyear | ⟨hyear, hmonth | ⟨hmonth, hday | ⟨hday, hclock⟩⟩⟩
    · exact .inl (ordinal_lt_of_year hyear)
    · exact .inl (ordinal_lt_of_month hyear hmonth)
    · refine .inl ?_
      unfold ordinal
      rw [hyear, hmonth]
      omega
    · refine .inr ⟨?_, hclock⟩
      unfold ordinal
      rw [hyear, hmonth, hday]
  unfold ticks
  omega

theorem strictMono_time : StrictMono time := by
  intro a b h
  have hticks : (a.ticks : ℚ) < b.ticks := by exact_mod_cast strictMono_ticks h
  unfold time
  linarith

/-! ### isoformat -/

/-- The microseconds; none are left out. -/
def fraction (microsecond : ℕ) : List Char := if microsecond = 0 then [] else '.' :: pad 6 microsecond

/-- The characters of `isoformat()`. -/
def isoText (a : Utc) : List Char :=
  pad 4 a.year ++ '-' :: (pad 2 a.month ++ '-' :: (pad 2 a.day ++ 'T' :: (pad 2 a.hour ++ ':' ::
    (pad 2 a.minute ++ ':' :: (pad 2 a.second ++ (fraction a.microsecond ++ "+00:00".toList))))))

/-- `isoformat()` -/
def isoformat (a : Utc) : String := String.ofList a.isoText

example : isoformat { year := 2024, month := 2, day := 29 } = "2024-02-29T00:00:00+00:00" := by decide

/-- Without a fraction the offset comes next, and `+` is less than the point. -/
theorem fraction_lt_iff {m n : ℕ} (hm : m < 1000000) (hn : n < 1000000) :
    fraction m ++ "+00:00".toList < fraction n ++ "+00:00".toList ↔ m < n := by
  have hpoint : ∀ s : List Char, "+00:00".toList < '.' :: s := fun s => List.cons_lt_cons_iff.mpr (.inl (by decide))
  have hnot : ∀ s : List Char, ¬ '.' :: s < "+00:00".toList := fun s => (hpoint s).not_gt
  unfold fraction
  by_cases hm0 : m = 0
  · by_cases hn0 : n = 0
    · simp [hm0, hn0]
    · rw [if_pos hm0, if_neg hn0, List.nil_append, List.cons_append]
      simp only [hpoint, true_iff]
      omega
  · by_cases hn0 : n = 0
    · rw [if_neg hm0, if_pos hn0, List.nil_append, List.cons_append]
      simp only [hnot, false_iff]
      omega
    · rw [if_neg hm0, if_neg hn0, List.cons_append, List.cons_append, cons_lt_cons_self, pad_append_lt_iff hm hn]
      simp

theorem isoText_lt_iff {a b : Utc} : a.isoText < b.isoText ↔ a < b := by
  have hyear : ∀ c : Utc, c.year < 10 ^ 4 := fun c => by have := c.date; omega
  have hmonth : ∀ c : Utc, c.month < 10 ^ 2 := fun c => by have := c.date; omega
  have hday : ∀ c : Utc, c.day < 10 ^ 2 := fun c => by
    have hlast : daysInMonth c.year c.month ≤ 31 := by
      unfold daysInMonth
      split_ifs <;> decide
    have := c.date
    omega
  have hhour : ∀ c : Utc, c.hour < 10 ^ 2 := fun c => by have := c.clock; omega
  have hminute : ∀ c : Utc, c.minute < 10 ^ 2 := fun c => by have := c.clock; omega
  have hsecond : ∀ c : Utc, c.second < 10 ^ 2 := fun c => by have := c.clock; omega
  rw [lt_iff_fields, isoText, isoText, pad_append_lt_iff (hyear a) (hyear b), cons_lt_cons_self,
    pad_append_lt_iff (hmonth a) (hmonth b), cons_lt_cons_self, pad_append_lt_iff (hday a) (hday b),
    cons_lt_cons_self, pad_append_lt_iff (hhour a) (hhour b), cons_lt_cons_self,
    pad_append_lt_iff (hminute a) (hminute b), cons_lt_cons_self, pad_append_lt_iff (hsecond a) (hsecond b),
    fraction_lt_iff a.clock.2.2.2 b.clock.2.2.2]
  simp only [fields, List.cons_lt_cons_iff, List.lt_irrefl, and_false, or_false]

theorem strictMono_isoformat : StrictMono isoformat := by
  intro a b h
  rw [String.lt_iff_toList_lt, isoformat, isoformat, String.toList_ofList, String.toList_ofList]
  exact isoText_lt_iff.mpr h

end Utc
end Timestamps
end LlmRio
