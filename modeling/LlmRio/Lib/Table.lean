/-
# Tables of rows with a key

A table is the list of its rows in the order they were inserted; `key` reads
the primary key of a row, and a table with distinct keys is one whose list of
keys has no duplicates. `lookup` is `SELECT .. WHERE key = k`, `modify` is
`UPDATE .. WHERE key = k`. A column total is a sum over the rows, and it
changes under `modify` by what the one row it touches changes (`sum_modify`).
`groups` is `GROUP BY`: the total over all rows is the total of the totals of
the groups (`sum_groups`).

Key definitions: `lookup`, `modify`, `groups`, `insertOrIgnore`.
Key theorems: `lookup_modify_self`, `lookup_modify_ne`, `sum_modify`,
`mem_foldl_insertOrIgnore`, `sum_groups`.
-/
import Mathlib.Algebra.BigOperators.Group.List.Basic
import Mathlib.Data.List.Dedup
import Mathlib.Tactic.Abel

namespace Table

variable {ρ κ : Type*} [DecidableEq κ] (key : ρ → κ)

/-- The row with key `k`, if there is one. -/
def lookup (k : κ) (rows : List ρ) : Option ρ := rows.find? fun r => key r = k

/-- The rows with key `k` changed by `f`. -/
def modify (k : κ) (f : ρ → ρ) (rows : List ρ) : List ρ :=
  rows.map fun r => if key r = k then f r else r

/-- The distinct values of `key` in the table. -/
def groups (rows : List ρ) : List κ := (rows.map key).dedup

variable {key}

theorem lookup_some {k : κ} {rows : List ρ} {r : ρ} (h : lookup key k rows = some r) :
    r ∈ rows ∧ key r = k :=
  ⟨List.mem_of_find?_eq_some h, by simpa using List.find?_some h⟩

theorem lookup_none {k : κ} {rows : List ρ} :
    lookup key k rows = none ↔ ∀ r ∈ rows, key r ≠ k := by
  simp [lookup, List.find?_eq_none]

@[simp] theorem lookup_nil (k : κ) : lookup key k [] = none := rfl

theorem lookup_cons (k : κ) (r : ρ) (rows : List ρ) :
    lookup key k (r :: rows) = if key r = k then some r else lookup key k rows := by
  unfold lookup
  rw [List.find?_cons]
  split <;> simp_all

theorem lookup_of_mem {rows : List ρ} (hn : (rows.map key).Nodup) {r : ρ} (hr : r ∈ rows) :
    lookup key (key r) rows = some r := by
  induction rows with
  | nil => cases hr
  | cons r' rows ih =>
    rw [lookup_cons]
    rw [List.map_cons, List.nodup_cons] at hn
    obtain ⟨hnot, hn⟩ := hn
    rcases List.mem_cons.mp hr with rfl | hr
    · simp
    · rw [if_neg]
      · exact ih hn hr
      · intro he
        exact hnot (he ▸ List.mem_map_of_mem hr)

/-- Two rows of a table with distinct keys that have the same key are the same. -/
theorem eq_of_key {rows : List ρ} (hn : (rows.map key).Nodup) {r r' : ρ} (hr : r ∈ rows)
    (hr' : r' ∈ rows) (h : key r = key r') : r = r' := by
  have h1 := lookup_of_mem hn hr
  rw [h, lookup_of_mem hn hr'] at h1
  exact (Option.some.inj h1).symm

theorem lookup_append {k : κ} {rows rows' : List ρ} :
    lookup key k (rows ++ rows') = (lookup key k rows).or (lookup key k rows') := by
  simp [lookup, List.find?_append]

/-- Rows are changed within their keys. -/
theorem lookup_map {k : κ} {f : ρ → ρ} (hf : ∀ r, key (f r) = key r) (rows : List ρ) :
    lookup key k (rows.map f) = (lookup key k rows).map f := by
  unfold lookup
  rw [List.find?_map]
  congr 2
  funext r
  rw [Function.comp_apply, hf r]

/-! ### Updates -/

section modify

variable {k : κ} {f : ρ → ρ}

/-- Rows are changed within their key. -/
theorem map_key_modify (hf : ∀ r, key r = k → key (f r) = k) (rows : List ρ) :
    (modify key k f rows).map key = rows.map key := by
  unfold modify
  rw [List.map_map]
  refine List.map_congr_left fun r _ => ?_
  by_cases h : key r = k
  · simp [h, hf r h]
  · simp [h]

theorem mem_modify {rows : List ρ} {r : ρ} :
    r ∈ modify key k f rows ↔ (r ∈ rows ∧ key r ≠ k) ∨ ∃ r' ∈ rows, key r' = k ∧ r = f r' := by
  unfold modify
  rw [List.mem_map]
  constructor
  · rintro ⟨r', hr', rfl⟩
    by_cases h : key r' = k
    · exact .inr ⟨r', hr', h, by simp [h]⟩
    · exact .inl ⟨by simpa [h] using hr', by simp [h]⟩
  · rintro (⟨hr, h⟩ | ⟨r', hr', h, rfl⟩)
    · exact ⟨r, hr, by simp [h]⟩
    · exact ⟨r', hr', by simp [h]⟩

theorem lookup_modify_self (hf : ∀ r, key r = k → key (f r) = k) (rows : List ρ) :
    lookup key k (modify key k f rows) = (lookup key k rows).map f := by
  induction rows with
  | nil => rfl
  | cons r rows ih =>
    have hm : modify key k f (r :: rows) = (if key r = k then f r else r) :: modify key k f rows := rfl
    rw [hm, lookup_cons, lookup_cons]
    by_cases h : key r = k
    · simp [h, hf r h]
    · simp [h, ih]

theorem lookup_modify_ne {k' : κ} (hk : k' ≠ k) (hf : ∀ r, key r = k → key (f r) = k)
    (rows : List ρ) : lookup key k' (modify key k f rows) = lookup key k' rows := by
  induction rows with
  | nil => rfl
  | cons r rows ih =>
    have hm : modify key k f (r :: rows) = (if key r = k then f r else r) :: modify key k f rows := rfl
    rw [hm, lookup_cons, lookup_cons, ih]
    by_cases h : key r = k
    · simp [h, hf r h, hk.symm]
    · simp [h]

/-- A table without a row of key `k` is left as it is. -/
theorem modify_of_none {rows : List ρ} (h : lookup key k rows = none) : modify key k f rows = rows := by
  unfold modify
  conv_rhs => rw [← List.map_id rows]
  refine List.map_congr_left fun r hr => ?_
  simp [lookup_none.mp h r hr]

/-- The total is that of the other rows and of the changed one. -/
theorem sum_modify_filter {M : Type*} [AddCommGroup M] {rows : List ρ} (hn : (rows.map key).Nodup) {r : ρ}
    (h : lookup key k rows = some r) (g : ρ → M) :
    ((modify key k f rows).map g).sum = ((rows.filter fun r => key r ≠ k).map g).sum + g (f r) := by
  induction rows with
  | nil => cases h
  | cons r' rows ih =>
    have hm : modify key k f (r' :: rows) = (if key r' = k then f r' else r') :: modify key k f rows := rfl
    rw [List.map_cons, List.nodup_cons] at hn
    obtain ⟨hnot, hn⟩ := hn
    rw [lookup_cons] at h
    rw [hm]
    by_cases hk : key r' = k
    · simp only [hk, if_true, Option.some.injEq] at h
      subst h
      have hother : ∀ r ∈ rows, key r ≠ k := fun r hr he => hnot (hk.trans he.symm ▸ List.mem_map_of_mem hr)
      have hfilter : rows.filter (fun r => key r ≠ k) = rows := by
        rw [List.filter_eq_self]
        exact fun r hr => by simpa using hother r hr
      rw [modify_of_none (lookup_none.mpr hother), List.filter_cons_of_neg (by simp [hk]), hfilter]
      simp only [hk, if_true, List.map_cons, List.sum_cons]
      abel
    · simp only [hk, if_false] at h ⊢
      rw [List.filter_cons_of_pos (by simp [hk])]
      simp only [List.map_cons, List.sum_cons, ih hn h]
      abel

/-- A column total changes by what the one row changes. -/
theorem sum_modify {M : Type*} [AddCommGroup M] {rows : List ρ} (hn : (rows.map key).Nodup) {r : ρ}
    (h : lookup key k rows = some r) (g : ρ → M) :
    ((modify key k f rows).map g).sum = (rows.map g).sum - g r + g (f r) := by
  have hsame : modify key k id rows = rows := by
    unfold modify
    simp
  have hrows : (rows.map g).sum = ((rows.filter fun r => key r ≠ k).map g).sum + g r := by
    conv_lhs => rw [← hsame]
    exact sum_modify_filter hn h g
  rw [sum_modify_filter hn h g, hrows]
  abel

/-- A selection that the changed row is in neither before nor after. -/
theorem filter_modify_of_not {p : ρ → Bool} {rows : List ρ}
    (hp : ∀ r ∈ rows, key r = k → p r = false ∧ p (f r) = false) :
    (modify key k f rows).filter p = rows.filter p := by
  induction rows with
  | nil => rfl
  | cons r rows ih =>
    have hm : modify key k f (r :: rows) = (if key r = k then f r else r) :: modify key k f rows := rfl
    have hrest := ih fun r' hr' => hp r' (List.mem_cons_of_mem _ hr')
    rw [hm]
    by_cases hk : key r = k
    · obtain ⟨h1, h2⟩ := hp r List.mem_cons_self hk
      simp [hk, h1, h2, hrest]
    · simp [hk, List.filter_cons, hrest]

/-- A selection that the changed row stays in or stays out of. -/
theorem filter_modify_comm {p : ρ → Bool} {rows : List ρ} (hp : ∀ r ∈ rows, key r = k → p (f r) = p r) :
    (modify key k f rows).filter p = modify key k f (rows.filter p) := by
  induction rows with
  | nil => rfl
  | cons r rows ih =>
    have hm : modify key k f (r :: rows) = (if key r = k then f r else r) :: modify key k f rows := rfl
    have hrest := ih fun r' hr' => hp r' (List.mem_cons_of_mem _ hr')
    rw [hm, List.filter_cons, List.filter_cons, hrest]
    by_cases hk : key r = k
    · rw [if_pos hk, hp r List.mem_cons_self hk]
      split <;> simp [modify, hk]
    · rw [if_neg hk]
      split <;> simp [modify, hk]

/-- A column that the change leaves alone keeps its total. -/
theorem map_modify_of_eq {β : Type*} {g : ρ → β} {rows : List ρ}
    (hg : ∀ r ∈ rows, key r = k → g (f r) = g r) : (modify key k f rows).map g = rows.map g := by
  unfold modify
  rw [List.map_map]
  refine List.map_congr_left fun r hr => ?_
  by_cases h : key r = k
  · simp [h, hg r hr h]
  · simp [h]

end modify

/-- A sum over the rows that meet a condition. -/
theorem sum_filter {M : Type*} [AddCommMonoid M] (p : ρ → Bool) (g : ρ → M) (rows : List ρ) :
    ((rows.filter p).map g).sum = (rows.map fun r => if p r then g r else 0).sum := by
  induction rows with
  | nil => rfl
  | cons r rows ih =>
    rw [List.filter_cons]
    split <;> rename_i h <;> simp [h, ih]

/-- The row with key `k` is the only one that a sum over the key counts. -/
theorem sum_of_key {M : Type*} [AddCommMonoid M] {k : κ} {rows : List ρ} (hn : (rows.map key).Nodup) {r : ρ}
    (h : lookup key k rows = some r) (g : ρ → M) :
    (rows.map fun r' => if key r' = k then g r' else 0).sum = g r := by
  induction rows with
  | nil => cases h
  | cons r' rows ih =>
    rw [List.map_cons, List.nodup_cons] at hn
    obtain ⟨hnot, hn⟩ := hn
    rw [lookup_cons] at h
    rw [List.map_cons, List.sum_cons]
    by_cases hk : key r' = k
    · rw [if_pos hk, Option.some.injEq] at h
      subst h
      rw [if_pos hk, List.sum_eq_zero, add_zero]
      intro x hx
      obtain ⟨r, hr, rfl⟩ := List.mem_map.mp hx
      rw [if_neg]
      intro he
      exact hnot (hk.trans he.symm ▸ List.mem_map_of_mem hr)
    · rw [if_neg hk] at h
      rw [if_neg hk, zero_add, ih hn h]

/-- The rows with the key of a row are that row. -/
theorem filter_key {rows : List ρ} (hn : (rows.map key).Nodup) {r : ρ} (hr : r ∈ rows) :
    rows.filter (fun r' => key r' = key r) = [r] := by
  induction rows with
  | nil => cases hr
  | cons r' rows ih =>
    rw [List.map_cons, List.nodup_cons] at hn
    obtain ⟨hnot, hn⟩ := hn
    rcases List.mem_cons.mp hr with rfl | hr
    · have hrest : rows.filter (fun r' => key r' = key r) = [] := by
        rw [List.filter_eq_nil_iff]
        intro r' hr' he
        exact hnot (of_decide_eq_true he ▸ List.mem_map_of_mem hr')
      simp [hrest]
    · have hne : key r' ≠ key r := fun he => hnot (he ▸ List.mem_map_of_mem hr)
      rw [List.filter_cons_of_neg (by simpa using hne), ih hn hr]

/-- A row and the rows of the other keys are all rows. -/
theorem perm_filter_ne {rows : List ρ} (hn : (rows.map key).Nodup) {k : κ} {r : ρ}
    (h : lookup key k rows = some r) : rows.Perm (r :: rows.filter fun r' => key r' ≠ k) := by
  obtain ⟨hmem, rfl⟩ := lookup_some h
  have hsplit := (List.filter_append_perm (fun r' => decide (key r' = key r)) rows).symm
  rw [filter_key hn hmem] at hsplit
  simpa using hsplit

/-! ### Insertions -/

section insertions

variable {α : Type*} [BEq ρ] [LawfulBEq ρ]

/-- `INSERT OR IGNORE` -/
def insertOrIgnore (rows : List ρ) (r : ρ) : List ρ := if r ∈ rows then rows else rows ++ [r]

theorem mem_insertOrIgnore {rows : List ρ} {r r' : ρ} : r' ∈ insertOrIgnore rows r ↔ r' ∈ rows ∨ r' = r := by
  unfold insertOrIgnore
  split
  · rename_i hin
    refine ⟨.inl, fun h => h.elim id ?_⟩
    rintro rfl
    exact hin
  · rw [List.mem_append, List.mem_singleton]

theorem nodup_insertOrIgnore {rows : List ρ} (hn : rows.Nodup) (r : ρ) : (insertOrIgnore rows r).Nodup := by
  unfold insertOrIgnore
  split
  · exact hn
  · rename_i hnot
    exact List.concat_eq_append ▸ hn.concat hnot

/-- One row is inserted for each element of a list. -/
theorem mem_foldl_insertOrIgnore {f : α → ρ} {r : ρ} : ∀ {as : List α} {rows : List ρ},
    r ∈ as.foldl (fun rows a => insertOrIgnore rows (f a)) rows ↔ r ∈ rows ∨ ∃ a ∈ as, f a = r
  | [], rows => by simp
  | a :: as, rows => by
    rw [List.foldl_cons, mem_foldl_insertOrIgnore, mem_insertOrIgnore, or_assoc, eq_comm (a := r)]
    simp only [List.mem_cons, exists_eq_or_imp]

theorem nodup_foldl_insertOrIgnore {f : α → ρ} : ∀ {as : List α} {rows : List ρ}, rows.Nodup →
    (as.foldl (fun rows a => insertOrIgnore rows (f a)) rows).Nodup
  | [], _, hn => hn
  | a :: as, rows, hn => by
    rw [List.foldl_cons]
    exact nodup_foldl_insertOrIgnore (nodup_insertOrIgnore hn (f a))

end insertions

/-! ### Grouping -/

theorem nodup_groups (rows : List ρ) : (groups key rows).Nodup := List.nodup_dedup _

theorem mem_groups {rows : List ρ} {k : κ} : k ∈ groups key rows ↔ ∃ r ∈ rows, key r = k := by
  simp [groups, List.mem_dedup]

/-- A sum over distinct keys of the rows of each key is a sum over the rows
whose key is listed. -/
theorem sum_filter_keys {M : Type*} [AddCommMonoid M] (g : ρ → M) (rows : List ρ) :
    ∀ {ks : List κ}, ks.Nodup →
      (ks.map fun k => ((rows.filter fun r => key r = k).map g).sum).sum =
        ((rows.filter fun r => key r ∈ ks).map g).sum := by
  induction rows with
  | nil => simp
  | cons r rows ih =>
    intro ks hks
    have hsplit : ∀ k, ((List.filter (fun r => key r = k) (r :: rows)).map g).sum =
        (if key r = k then g r else 0) + ((rows.filter fun r => key r = k).map g).sum := by
      intro k
      by_cases h : key r = k <;> simp [h]
    simp only [hsplit, List.sum_map_add, ih hks]
    by_cases h : key r ∈ ks
    · have hone : (ks.map fun k => if key r = k then g r else 0).sum = g r := by
        rw [List.sum_map_eq_nsmul_single (key r) _ fun k hk _ => if_neg hk.symm,
          List.count_eq_one_of_mem hks h, one_nsmul, if_pos rfl]
      simp [h, hone]
    · have hzero : (ks.map fun k => if key r = k then g r else 0).sum = 0 := by
        refine List.sum_eq_zero fun x hx => ?_
        obtain ⟨k, hk, rfl⟩ := List.mem_map.mp hx
        rw [if_neg]
        rintro rfl
        exact h hk
      simp [h, hzero]

/-- The total is the total of the groups' totals. -/
theorem sum_groups {M : Type*} [AddCommMonoid M] (g : ρ → M) (rows : List ρ) :
    ((groups key rows).map fun k => ((rows.filter fun r => key r = k).map g).sum).sum =
      (rows.map g).sum := by
  rw [sum_filter_keys g rows (nodup_groups rows)]
  congr 2
  refine List.filter_eq_self.mpr fun r hr => ?_
  simpa using mem_groups.mpr ⟨r, hr, rfl⟩

end Table
