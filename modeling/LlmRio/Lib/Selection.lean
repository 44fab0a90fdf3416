/-
# Sorting and choosing by a key

Python's `sorted(xs, key=..)`, `min(xs, key=..)` and
`itertools.combinations(xs, n)`, on lists: the sort is stable, the minimum is
the first of the smallest, and the combinations come in the order of their
positions. A dict of lists that is filled with `setdefault` groups elements
by a key.

Key definitions: `sortedBy`, `minBy`, `combinations`, `groupedBy`.
Key theorems: `mem_sortedBy`, `minBy_eq_some`, `firstPair_isSome`, `mem_combinations`,
`nodup_combinations`, `groupedBy_eq`, `smallest_congr`.
-/
import Mathlib.Data.List.Induction
import Mathlib.Data.List.MinMax
import Mathlib.Data.List.Sort
import Mathlib.Data.Prod.Lex
import Mathlib.Order.MinMax

namespace Selection

variable {α κ : Type*} [LinearOrder κ]

/-- `sorted(xs, key=key)` -/
def sortedBy (key : α → κ) (xs : List α) : List α := xs.insertionSort fun a b => key a ≤ key b

theorem perm_sortedBy (key : α → κ) (xs : List α) : (sortedBy key xs).Perm xs := List.perm_insertionSort _ xs

theorem pairwise_sortedBy (key : α → κ) (xs : List α) : (sortedBy key xs).Pairwise fun a b => key a ≤ key b :=
  haveI : Std.Total fun a b : α => key a ≤ key b := ⟨fun a b => le_total (key a) (key b)⟩
  haveI : IsTrans α fun a b => key a ≤ key b := ⟨fun _ _ _ => le_trans⟩
  List.pairwise_insertionSort _ xs

theorem mem_sortedBy {key : α → κ} {xs : List α} {x : α} : x ∈ sortedBy key xs ↔ x ∈ xs :=
  List.mem_insertionSort _

/-- Of the elements with a property there is a last one. -/
theorem exists_last {p : α → Prop} : ∀ {xs : List α}, (∃ x ∈ xs, p x) →
    ∃ pre x post, xs = pre ++ x :: post ∧ p x ∧ ∀ y ∈ post, ¬ p y
  | [], ⟨x, hx, _⟩ => by cases hx
  | x :: xs, h => by
    by_cases hlater : ∃ y ∈ xs, p y
    · obtain ⟨pre, y, post, rfl, hy⟩ := exists_last hlater
      exact ⟨x :: pre, y, post, rfl, hy⟩
    · obtain ⟨y, hy, hpy⟩ := h
      rcases List.mem_cons.mp hy with rfl | hy
      · exact ⟨[], y, xs, rfl, hpy, fun z hz hpz => hlater ⟨z, hz, hpz⟩⟩
      · exact absurd ⟨y, hy, hpy⟩ hlater

/-- `min(xs, key=key)`, for a list that may be empty. -/
def minBy (key : α → κ) (xs : List α) : Option α := xs.argmin key

theorem minBy_eq_none {key : α → κ} {xs : List α} : minBy key xs = none ↔ xs = [] := List.argmin_eq_none

/-- `y` is smaller than all before it in the list, and no larger than all after it. -/
def FirstMin (key : α → κ) (xs : List α) (y : α) : Prop :=
  ∃ before after, xs = before ++ y :: after ∧ (∀ x ∈ before, key y < key x) ∧ ∀ x ∈ after, key y ≤ key x

theorem FirstMin.le {key : α → κ} {xs : List α} {y : α} (h : FirstMin key xs y) : ∀ x ∈ xs, key y ≤ key x := by
  obtain ⟨before, after, rfl, hb, ha⟩ := h
  intro x hx
  rcases List.mem_append.mp hx with hx | hx
  · exact le_of_lt (hb x hx)
  · rcases List.mem_cons.mp hx with rfl | hx
    · exact le_refl _
    · exact ha x hx

theorem mem_of_firstMin {key : α → κ} {xs : List α} {y : α} (h : FirstMin key xs y) : y ∈ xs := by
  obtain ⟨before, after, rfl, -, -⟩ := h
  simp

/-- The list comes to `x` before it comes to `y`. -/
def Sooner (xs : List α) (x y : α) : Prop := ∃ before after, xs = before ++ x :: after ∧ y ∉ x :: before

theorem sooner_of_mem {xs : List α} {x y : α} (hx : x ∈ xs) (hy : y ∉ xs) : Sooner xs x y := by
  obtain ⟨before, after, rfl⟩ := List.append_of_mem hx
  exact ⟨before, after, rfl, fun hmem => hy (by simp only [List.mem_cons, List.mem_append] at hmem ⊢; tauto)⟩

theorem mem_of_sooner {xs : List α} {x y : α} (h : Sooner xs x y) : x ∈ xs := by
  obtain ⟨before, after, rfl, -⟩ := h
  simp

theorem not_sooner_self {ys : List α} {x y : α} : ¬ Sooner (y :: ys) x y := by
  rintro ⟨before, after, heq, hnew⟩
  cases before with
  | nil =>
    cases heq
    exact hnew List.mem_cons_self
  | cons z before =>
    cases heq
    exact hnew (by simp)

theorem sooner_append {xs ys : List α} {x y : α} :
    Sooner (xs ++ ys) x y ↔ Sooner xs x y ∨ y ∉ xs ∧ Sooner ys x y := by
  constructor
  · rintro ⟨before, after, heq, hnew⟩
    rw [List.mem_cons, not_or] at hnew
    rcases List.append_eq_append_iff.mp heq with ⟨rest, rfl, hrest⟩ | ⟨rest, rfl, hrest⟩
    · rw [List.mem_append, not_or] at hnew
      exact .inr ⟨hnew.2.1, rest, after, hrest, by simp [hnew.1, hnew.2.2]⟩
    · cases rest with
      | nil => exact .inr ⟨by simpa using hnew.2, [], after, hrest.symm, by simp [hnew.1]⟩
      | cons z rest =>
        cases hrest
        exact .inl ⟨before, rest, rfl, by simp [hnew.1, hnew.2]⟩
  · rintro (⟨before, after, rfl, hnew⟩ | ⟨hxs, before, after, rfl, hnew⟩)
    · exact ⟨before, after ++ ys, by simp, hnew⟩
    · rw [List.mem_cons, not_or] at hnew
      exact ⟨xs ++ before, after, by simp, by simp [hnew.1, hnew.2, hxs]⟩

/-- An element is not the minimum if another one is smaller, or as small and
sooner. -/
theorem not_firstMin_iff {key : α → κ} {xs : List α} {y : α} (hy : y ∈ xs) : ¬ FirstMin key xs y ↔
    (∃ x ∈ xs, key x < key y) ∨ ∃ x, Sooner xs x y ∧ key x = key y := by
  constructor
  · intro hnot
    obtain ⟨before, after, rfl, hnew⟩ := List.eq_append_cons_of_mem hy
    by_contra hnone
    rw [not_or] at hnone
    have hle : ∀ x ∈ before ++ y :: after, key y ≤ key x := fun x hx => not_lt.mp fun hlt => hnone.1 ⟨x, hx, hlt⟩
    refine hnot ⟨before, after, rfl, fun x hx => ?_, fun x hx => hle x (by simp [hx])⟩
    refine lt_of_le_of_ne (hle x (List.mem_append_left _ hx)) fun heq => hnone.2 ⟨x, ?_, heq.symm⟩
    exact sooner_append.mpr (.inl (sooner_of_mem hx hnew))
  · rintro (⟨x, hx, hlt⟩ | ⟨x, hsooner, hsame⟩) hmin
    · exact absurd (hmin.le x hx) (not_le.mpr hlt)
    · obtain ⟨before, after, rfl, hb, -⟩ := hmin
      rcases sooner_append.mp hsooner with hfirst | ⟨-, hlater⟩
      · exact absurd (hb x (mem_of_sooner hfirst)) (not_lt.mpr hsame.le)
      · exact not_sooner_self hlater

/-- Through the parts of each element in turn. -/
theorem sooner_flatMap {β : Type*} {parts : β → List α} {x y : α} : ∀ {bs : List β},
    Sooner (bs.flatMap parts) x y ↔
      ∃ before b after, bs = before ++ b :: after ∧ (∀ c ∈ before, y ∉ parts c) ∧ Sooner (parts b) x y
  | [] => by simp [Sooner]
  | b :: bs => by
    rw [List.flatMap_cons, sooner_append, sooner_flatMap]
    constructor
    · rintro (hsooner | ⟨hb, before, c, after, rfl, hbefore, hsooner⟩)
      · exact ⟨[], b, bs, rfl, by simp, hsooner⟩
      · exact ⟨b :: before, c, after, rfl, List.forall_mem_cons.mpr ⟨hb, hbefore⟩, hsooner⟩
    · rintro ⟨before, c, after, heq, hbefore, hsooner⟩
      cases before with
      | nil =>
        cases heq
        exact .inl hsooner
      | cons d before =>
        cases heq
        rw [List.forall_mem_cons] at hbefore
        exact .inr ⟨hbefore.1, before, c, after, rfl, hbefore.2, hsooner⟩

/-- The minimum is the first of the smallest. -/
theorem minBy_eq_some {key : α → κ} {xs : List α} {y : α} : minBy key xs = some y ↔ FirstMin key xs y := by
  classical
  unfold minBy
  rw [List.argmin_eq_some_iff]
  constructor
  · rintro ⟨hmem, hle, hfirst⟩
    obtain ⟨before, after, rfl, hnew⟩ := List.eq_append_cons_of_mem hmem
    refine ⟨before, after, rfl, fun x hx => ?_, fun x hx => hle x (by simp [hx])⟩
    by_contra hlt
    have hindex := hfirst x (List.mem_append_left _ hx) (not_lt.mp hlt)
    rw [List.idxOf_append_of_notMem hnew, List.idxOf_append_of_mem hx, List.idxOf_cons_self] at hindex
    have := List.idxOf_lt_length_of_mem hx
    omega
  · rintro ⟨before, after, rfl, hb, ha⟩
    have hnew : y ∉ before := fun hy => lt_irrefl _ (hb y hy)
    refine ⟨by simp, FirstMin.le ⟨before, after, rfl, hb, ha⟩, fun x _ hle => ?_⟩
    have hlater : x ∉ before := fun hx => not_le.mpr (hb x hx) hle
    rw [List.idxOf_append_of_notMem hnew, List.idxOf_append_of_notMem hlater, List.idxOf_cons_self]
    omega

theorem mem_of_minBy {key : α → κ} {xs : List α} {x : α} (h : minBy key xs = some x) : x ∈ xs :=
  mem_of_firstMin (minBy_eq_some.mp h)

/-- The first pair of an element and one of its parts that passes a test. -/
theorem firstPair_eq_some {β : Type*} {parts : α → List β} {ok : α → β → Bool} {xs : List α} {x : α} {y : β}
    (h : xs.findSome? (fun a => ((parts a).find? (ok a)).map fun b => (a, b)) = some (x, y)) :
    x ∈ xs ∧ y ∈ parts x ∧ ok x y = true := by
  obtain ⟨a, ha, hfind⟩ := List.exists_of_findSome?_eq_some h
  obtain ⟨b, hb, heq⟩ := Option.map_eq_some_iff.mp hfind
  cases heq
  exact ⟨ha, List.mem_of_find?_eq_some hb, List.find?_some hb⟩

theorem firstPair_isSome {β : Type*} {parts : α → List β} {ok : α → β → Bool} {xs : List α} :
    (xs.findSome? fun a => ((parts a).find? (ok a)).map fun b => (a, b)).isSome = true ↔
      ∃ x ∈ xs, ∃ y ∈ parts x, ok x y = true := by
  rw [List.findSome?_isSome_iff]
  simp only [Option.isSome_map, List.find?_isSome]

/-- A search through the parts of each element, as one search. -/
theorem findSome_flatMap {β γ : Type*} {parts : α → List β} {f : β → Option γ} : ∀ xs : List α,
    (xs.flatMap parts).findSome? f = xs.findSome? fun x => (parts x).findSome? f
  | [] => rfl
  | x :: xs => by
    rw [List.flatMap_cons, List.findSome?_append, findSome_flatMap xs, List.findSome?_cons]
    cases (parts x).findSome? f <;> rfl

/-- `itertools.combinations(xs, n)` -/
def combinations : ℕ → List α → List (List α)
  | 0, _ => [[]]
  | _ + 1, [] => []
  | n + 1, x :: xs => (combinations n xs).map (x :: ·) ++ combinations (n + 1) xs

/-- The combinations are the subsequences of the length. -/
theorem mem_combinations {s : List α} : ∀ {n : ℕ} {xs : List α},
    s ∈ combinations n xs ↔ s.Sublist xs ∧ s.length = n
  | 0, xs => by
    rw [combinations, List.mem_singleton, List.length_eq_zero_iff]
    constructor
    · rintro rfl
      exact ⟨List.nil_sublist xs, rfl⟩
    · exact fun h => h.2
  | n + 1, [] => by
    rw [combinations, List.sublist_nil]
    constructor
    · intro h
      cases h
    · rintro ⟨rfl, h⟩
      cases h
  | n + 1, x :: xs => by
    rw [combinations, List.mem_append, mem_combinations, List.mem_map]
    simp only [mem_combinations]
    constructor
    · rintro (⟨t, ⟨ht, rfl⟩, rfl⟩ | ⟨hs, hlen⟩)
      · exact ⟨ht.cons_cons x, rfl⟩
      · exact ⟨hs.cons x, hlen⟩
    · rintro ⟨hs, hlen⟩
      cases hs with
      | cons _ hs => exact .inr ⟨hs, hlen⟩
      | cons_cons _ ht => exact .inl ⟨_, ⟨ht, by simpa using hlen⟩, rfl⟩

theorem combinations_map {β : Type*} (f : α → β) : ∀ (n : ℕ) (xs : List α),
    combinations n (xs.map f) = (combinations n xs).map (List.map f)
  | 0, xs => by rw [combinations, combinations, List.map_singleton, List.map_nil]
  | _ + 1, [] => rfl
  | n + 1, x :: xs => by
    rw [List.map_cons, combinations, combinations, combinations_map f n xs, combinations_map f (n + 1) xs,
      List.map_append, List.map_map, List.map_map]
    rfl

/-- No subsequence comes twice. -/
theorem nodup_combinations : ∀ (n : ℕ) {xs : List α}, xs.Nodup → (combinations n xs).Nodup
  | 0, xs, _ => by
    rw [combinations]
    exact List.nodup_singleton []
  | _ + 1, [], _ => List.nodup_nil
  | n + 1, x :: xs, h => by
    obtain ⟨hx, hxs⟩ := List.nodup_cons.mp h
    rw [combinations, List.nodup_append]
    refine ⟨(nodup_combinations n hxs).map (List.cons_injective), nodup_combinations (n + 1) hxs, ?_⟩
    rintro _ hs t ht rfl
    obtain ⟨s, -, rfl⟩ := List.mem_map.mp hs
    exact hx ((mem_combinations.mp ht).1.subset List.mem_cons_self)

/-- A subsequence of distinct elements is known by its members. -/
theorem filter_mem_sublist [DecidableEq α] {s xs : List α} (hs : s.Sublist xs) (h : xs.Nodup) :
    xs.filter (· ∈ s) = s := by
  induction hs with
  | slnil => rfl
  | @cons s xs x hs ih =>
    obtain ⟨hx, hxs⟩ := List.nodup_cons.mp h
    have hnot : x ∉ s := fun hmem => hx (hs.subset hmem)
    rw [List.filter_cons_of_neg (by simpa using hnot), ih hxs]
  | @cons_cons s xs x hs ih =>
    obtain ⟨hx, hxs⟩ := List.nodup_cons.mp h
    rw [List.filter_cons_of_pos (by simp)]
    congr 1
    calc xs.filter (· ∈ x :: s) = xs.filter (· ∈ s) := by
          apply List.filter_congr
          intro y hy
          have hne : y ≠ x := fun heq => hx (heq ▸ hy)
          simp [hne]
      _ = s := ih hxs

theorem eq_of_sublists [DecidableEq α] {s t xs : List α} (hs : s.Sublist xs) (ht : t.Sublist xs) (h : xs.Nodup)
    (heq : ∀ x, x ∈ s ↔ x ∈ t) : s = t := by
  calc s = xs.filter (· ∈ s) := (filter_mem_sublist hs h).symm
    _ = xs.filter (· ∈ t) := List.filter_congr fun x _ => by rw [decide_eq_decide, heq]
    _ = t := filter_mem_sublist ht h

/-! ### Groups of a key -/

section groups

variable {ι : Type*} [DecidableEq ι]

/-- `groups.setdefault(k, []).append(x)` -/
def addToGroup (k : ι) (x : α) : List (ι × List α) → List (ι × List α)
  | [] => [(k, [x])]
  | (j, ys) :: groups => if j = k then (j, ys ++ [x]) :: groups else (j, ys) :: addToGroup k x groups

/-- The elements grouped by a key, in the order in which the keys turn up. -/
def groupedBy (key : α → ι) (xs : List α) : List (ι × List α) :=
  xs.foldl (fun groups x => addToGroup (key x) x groups) []

theorem addToGroup_map (k : ι) (x : α) {f : ι → List α} : ∀ {keys : List ι}, keys.Nodup → (k ∉ keys → f k = []) →
    addToGroup k x (keys.map fun j => (j, f j)) =
      (if k ∈ keys then keys else keys ++ [k]).map fun j => (j, if j = k then f j ++ [x] else f j)
  | [], _, hnone => by simp [addToGroup, hnone]
  | j :: keys, hnodup, hnone => by
    obtain ⟨hj, hkeys⟩ := List.nodup_cons.mp hnodup
    rw [List.map_cons, addToGroup]
    by_cases hjk : j = k
    · subst hjk
      rw [if_pos rfl, if_pos List.mem_cons_self, List.map_cons, if_pos rfl]
      congr 1
      apply List.map_congr_left
      intro i hi
      have hij : i ≠ j := fun heq => hj (heq ▸ hi)
      rw [if_neg hij]
    · have hmem : k ∈ j :: keys ↔ k ∈ keys := by simp [Ne.symm hjk]
      rw [if_neg hjk, addToGroup_map k x hkeys fun hk => hnone (hmem.not.mpr hk)]
      simp only [hmem]
      split <;> simp [hjk]

/-- Each key that an element has is there once, with the elements that have it. -/
theorem groupedBy_eq (key : α → ι) (xs : List α) : ∃ keys : List ι, keys.Nodup ∧
    (∀ k, k ∈ keys ↔ ∃ x ∈ xs, key x = k) ∧ groupedBy key xs = keys.map fun k => (k, xs.filter (key · = k)) := by
  induction xs using List.reverseRecOn with
  | nil => exact ⟨[], List.nodup_nil, by simp, rfl⟩
  | append_singleton xs x ih =>
    obtain ⟨keys, hnodup, hkeys, heq⟩ := ih
    have hnone : key x ∉ keys → xs.filter (key · = key x) = [] := by
      intro hk
      rw [List.filter_eq_nil_iff]
      intro y hy hkey
      exact hk ((hkeys _).mpr ⟨y, hy, by simpa using hkey⟩)
    refine ⟨if key x ∈ keys then keys else keys ++ [key x], ?_, ?_, ?_⟩
    · split
      · exact hnodup
      · rename_i hk
        rw [List.nodup_append]
        refine ⟨hnodup, List.nodup_singleton _, ?_⟩
        rintro a ha b hb rfl
        exact hk (List.mem_singleton.mp hb ▸ ha)
    · intro k
      have hall : (∃ y ∈ xs ++ [x], key y = k) ↔ k ∈ keys ∨ key x = k := by
        simp [hkeys, or_and_right, exists_or]
      rw [hall]
      split
      · rename_i hk
        exact ⟨.inl, fun h => h.elim id fun heq => heq ▸ hk⟩
      · rw [List.mem_append, List.mem_singleton, @eq_comm ι k]
    · unfold groupedBy at heq ⊢
      rw [List.foldl_append, heq, List.foldl_cons, List.foldl_nil, addToGroup_map _ _ hnodup hnone]
      apply List.map_congr_left
      intro k _
      rw [List.filter_append]
      by_cases hk : k = key x
      · subst hk
        simp
      · simp [hk, Ne.symm hk]

end groups

/-- `min([x] + xs)` -/
def smallest (x : κ) (xs : List κ) : κ := xs.foldl min x

theorem smallest_le_head : ∀ (xs : List κ) (x : κ), smallest x xs ≤ x
  | [], x => le_refl x
  | y :: xs, x => le_trans (smallest_le_head xs (min x y)) (min_le_left x y)

theorem smallest_le_of_mem : ∀ (xs : List κ) (x y : κ), y ∈ xs → smallest x xs ≤ y
  | z :: xs, x, y, hy => by
    rcases List.mem_cons.mp hy with rfl | hy
    · exact le_trans (smallest_le_head xs (min x y)) (min_le_right x y)
    · exact smallest_le_of_mem xs (min x z) y hy

theorem smallest_mem : ∀ (xs : List κ) (x : κ), smallest x xs = x ∨ smallest x xs ∈ xs
  | [], x => .inl rfl
  | y :: xs, x => by
    have hrest : smallest x (y :: xs) = smallest (min x y) xs := rfl
    rw [hrest]
    rcases smallest_mem xs (min x y) with h | h
    · rw [h]
      rcases min_choice x y with hmin | hmin
      · exact .inl hmin
      · rw [hmin]
        exact .inr List.mem_cons_self
    · exact .inr (List.mem_cons_of_mem _ h)

/-- The smallest of some values depends on which values there are, not on
their order. -/
theorem smallest_congr {x y : κ} {xs ys : List κ} (h : ∀ z, z ∈ x :: xs ↔ z ∈ y :: ys) :
    smallest x xs = smallest y ys := by
  have hle : ∀ {x y : κ} {xs ys : List κ}, (∀ z, z ∈ y :: ys → z ∈ x :: xs) → smallest x xs ≤ smallest y ys := by
    intro x y xs ys hsub
    have hmem : smallest y ys ∈ y :: ys := by
      rcases smallest_mem ys y with hy | hy
      · rw [hy]
        exact List.mem_cons_self
      · exact List.mem_cons_of_mem _ hy
    rcases List.mem_cons.mp (hsub _ hmem) with heq | hin
    · exact heq ▸ smallest_le_head xs x
    · exact smallest_le_of_mem xs x _ hin
  exact le_antisymm (hle fun z hz => (h z).mpr hz) (hle fun z hz => (h z).mp hz)

end Selection
