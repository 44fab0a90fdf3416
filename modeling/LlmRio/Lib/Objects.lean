/-
# Dicts as objects

A dict of Python is an object: a copy of it is a new one that shares its
values, and what is done to one of them is seen through every reference. A
heap has a cell for each dict object, a new object takes the next address,
and a reference is an address or a value that nobody changes (text, numbers,
and also a dict that was only just read from a text).

`Denotes` says which JSON value a reference stands for in a heap. A reference
keeps its value while the heap grows (`Denotes.grow`), and the operations on
dicts do to the cells what they do to the values (`DenotesAll.put`,
`DenotesAll.erase`, `DenotesAll.update`).

Key definitions: `put`, `erase`, `update`, `Heap`, `Denotes`.
Key theorems: `lookup_update`, `update_onto`, `loads_proper`, `Denotes.grow`,
`denotes_view`.
-/
import LlmRio.Lib.JsonText
import LlmRio.Lib.Transactions

namespace Objects

open Json Transactions Utf8

/-! ### Dicts -/

section dicts

variable {α : Type}

/-- `dict[key] = value` -/
def put (key : Text) (x : α) : List (Text × α) → List (Text × α)
  | [] => [(key, x)]
  | (k, y) :: entries => if k = key then (k, x) :: entries else (k, y) :: put key x entries

/-- `dict.pop(key, None)` -/
def erase (key : Text) (entries : List (Text × α)) : List (Text × α) := entries.filter fun e => e.1 ≠ key

/-- `dict.update(extra)` -/
def update (entries extra : List (Text × α)) : List (Text × α) := extra.foldl (fun d e => put e.1 e.2 d) entries

/-- The keys of a dict are distinct. -/
def Distinct (entries : List (Text × α)) : Prop := (entries.map Prod.fst).Nodup

variable {entries extra : List (Text × α)} {key k : Text} {x : α}

theorem lookup_cons (k key : Text) (x : α) (entries : List (Text × α)) :
    ((key, x) :: entries).lookup k = if k = key then some x else entries.lookup k := by
  rw [List.lookup_cons]
  split <;> simp_all

theorem lookup_put (entries : List (Text × α)) (key k : Text) (x : α) :
    (put key x entries).lookup k = if k = key then some x else entries.lookup k := by
  induction entries with
  | nil => rw [put, lookup_cons]
  | cons e entries ih =>
    obtain ⟨j, y⟩ := e
    rw [put]
    by_cases hj : j = key
    · subst hj
      rw [if_pos rfl, lookup_cons, lookup_cons]
      split <;> rfl
    · rw [if_neg hj, lookup_cons, lookup_cons, ih]
      by_cases hk : k = j
      · rw [if_pos hk, if_pos hk, if_neg fun h => hj (hk.symm.trans h)]
      · rw [if_neg hk, if_neg hk]

theorem lookup_erase (entries : List (Text × α)) (key k : Text) :
    (erase key entries).lookup k = if k = key then none else entries.lookup k := by
  unfold erase
  induction entries with
  | nil => simp
  | cons e entries ih =>
    obtain ⟨j, y⟩ := e
    by_cases hj : j = key
    · rw [List.filter_cons_of_neg (by simpa using hj), ih, lookup_cons]
      subst hj
      split <;> rfl
    · rw [List.filter_cons_of_pos (by simpa using hj), lookup_cons, lookup_cons, ih]
      by_cases hk : k = j
      · rw [if_pos hk, if_pos hk, if_neg fun h => hj (hk.symm.trans h)]
      · rw [if_neg hk, if_neg hk]

theorem lookup_of_notMem (h : k ∉ entries.map Prod.fst) : entries.lookup k = none := by
  rw [List.lookup_eq_none_iff]
  intro e he
  have hne : k ≠ e.1 := fun heq => h (heq ▸ List.mem_map_of_mem he)
  simpa using hne

/-- An entry of the update comes before the one that was there. -/
theorem lookup_update (h : Distinct extra) :
    (update entries extra).lookup k = (extra.lookup k).or (entries.lookup k) := by
  unfold update
  induction extra generalizing entries with
  | nil => simp
  | cons e extra ih =>
    obtain ⟨j, y⟩ := e
    obtain ⟨hj, hextra⟩ := List.nodup_cons.mp h
    rw [List.foldl_cons, ih hextra, lookup_put, lookup_cons]
    by_cases hk : k = j
    · subst hk
      rw [lookup_of_notMem hj, if_pos rfl, if_pos rfl, Option.none_or, Option.some_or]
    · rw [if_neg hk, if_neg hk]

theorem keys_put (entries : List (Text × α)) (key : Text) (x : α) :
    (put key x entries).map Prod.fst =
      if key ∈ entries.map Prod.fst then entries.map Prod.fst else entries.map Prod.fst ++ [key] := by
  induction entries with
  | nil => rfl
  | cons e entries ih =>
    obtain ⟨j, y⟩ := e
    rw [put]
    by_cases hj : j = key
    · simp [hj]
    · have hmem : key ∈ ((j, y) :: entries).map Prod.fst ↔ key ∈ entries.map Prod.fst := by simp [Ne.symm hj]
      rw [if_neg hj, List.map_cons, ih]
      simp only [hmem]
      split <;> rfl

theorem put_of_notMem (x : α) : ∀ {entries : List (Text × α)}, key ∉ entries.map Prod.fst →
    put key x entries = entries ++ [(key, x)]
  | [], _ => rfl
  | e :: entries, h => by
    have hne : e.1 ≠ key := fun heq => h (heq ▸ List.mem_cons_self)
    have hrest : put key x entries = entries ++ [(key, x)] :=
      put_of_notMem x fun hin => h (List.mem_cons_of_mem e.1 hin)
    rw [put, if_neg hne, hrest]
    rfl

theorem Distinct.put (h : Distinct entries) (key : Text) (x : α) : Distinct (put key x entries) := by
  unfold Distinct
  rw [keys_put]
  split
  · exact h
  · rename_i hnot
    refine List.nodup_append.mpr ⟨h, by simp, ?_⟩
    rintro a ha b hb rfl
    exact hnot (List.mem_singleton.mp hb ▸ ha)

theorem Distinct.update (h : Distinct entries) (extra : List (Text × α)) :
    Distinct (Objects.update entries extra) := by
  induction extra generalizing entries with
  | nil => exact h
  | cons e extra ih => exact ih (h.put e.1 e.2)

/-- Putting what is there changes nothing. -/
theorem put_same : ∀ {entries : List (Text × α)}, entries.lookup key = some x → put key x entries = entries
  | (j, y) :: entries, h => by
    rw [lookup_cons] at h
    rw [put]
    by_cases hj : j = key
    · rw [if_pos hj.symm] at h
      rw [if_pos hj, Option.some.inj h]
    · rw [if_neg (Ne.symm hj)] at h
      rw [if_neg hj, put_same h]

theorem erase_of_none (h : entries.lookup key = none) : erase key entries = entries := by
  unfold erase
  rw [List.filter_eq_self]
  intro e he
  have hne : (key == e.1) = false := by simpa using List.lookup_eq_none_iff.mp h e he
  have hne' : e.1 ≠ key := fun heq => beq_eq_false_iff_ne.mp hne heq.symm
  simpa using hne'

/-- So does an update with what is there. -/
theorem update_same : ∀ {extra : List (Text × α)}, (∀ e ∈ extra, entries.lookup e.1 = some e.2) →
    update entries extra = entries
  | [], _ => rfl
  | e :: extra, h => by
    have hput : put e.1 e.2 entries = entries := put_same (h e List.mem_cons_self)
    have hrest : update entries extra = entries := update_same fun d hd => h d (List.mem_cons_of_mem e hd)
    calc update entries (e :: extra) = update (put e.1 e.2 entries) extra := rfl
      _ = entries := by rw [hput, hrest]

/-- The keys that are new come after the others. -/
theorem keys_update (h : Distinct extra) : (update entries extra).map Prod.fst =
    entries.map Prod.fst ++ (extra.map Prod.fst).filter (· ∉ entries.map Prod.fst) := by
  induction extra generalizing entries with
  | nil => exact (List.append_nil _).symm
  | cons e extra ih =>
    obtain ⟨he, hextra⟩ := List.nodup_cons.mp h
    have hstep : update entries (e :: extra) = update (put e.1 e.2 entries) extra := rfl
    rw [hstep, ih hextra, keys_put, List.map_cons]
    by_cases hmem : e.1 ∈ entries.map Prod.fst
    · rw [if_pos hmem, List.filter_cons_of_neg (by simpa using hmem)]
    · rw [if_neg hmem, List.filter_cons_of_pos (by simpa using hmem), List.append_assoc, List.singleton_append]
      congr 2
      apply List.filter_congr
      intro k hk
      have hne : k ≠ e.1 := fun heq => he (heq ▸ hk)
      simp [hne]

/-- Dicts with the same keys in the same order and the same values are equal. -/
theorem ext_lookup : ∀ {d d' : List (Text × α)}, d.map Prod.fst = d'.map Prod.fst → Distinct d →
    (∀ k, d.lookup k = d'.lookup k) → d = d'
  | [], [], _, _, _ => rfl
  | (j, x) :: d, (j', x') :: d', hkeys, hdistinct, hlookup => by
    obtain ⟨rfl, hrest⟩ : j = j' ∧ d.map Prod.fst = d'.map Prod.fst := by simpa using hkeys
    obtain ⟨hj, hd⟩ := List.nodup_cons.mp hdistinct
    have hx := hlookup j
    rw [lookup_cons, lookup_cons, if_pos rfl, if_pos rfl] at hx
    rw [Option.some.inj hx]
    congr 1
    refine ext_lookup hrest hd fun k => ?_
    by_cases hk : k = j
    · subst hk
      rw [lookup_of_notMem hj, lookup_of_notMem (hrest ▸ hj)]
    · have hk' := hlookup k
      rwa [lookup_cons, lookup_cons, if_neg hk, if_neg hk] at hk'

theorem lookup_isSome_iff : (entries.lookup k).isSome = true ↔ k ∈ entries.map Prod.fst := by
  induction entries with
  | nil => simp
  | cons e entries ih =>
    obtain ⟨j, y⟩ := e
    rw [lookup_cons, List.map_cons, List.mem_cons, ← ih]
    split <;> simp_all

/-- An update keeps the keys that are there in front. -/
theorem exists_keys_update (entries extra : List (Text × α)) :
    ∃ new, (update entries extra).map Prod.fst = entries.map Prod.fst ++ new := by
  induction extra generalizing entries with
  | nil => exact ⟨[], (List.append_nil _).symm⟩
  | cons e extra ih =>
    obtain ⟨new, hnew⟩ := ih (put e.1 e.2 entries)
    rw [keys_put] at hnew
    by_cases hmem : e.1 ∈ entries.map Prod.fst
    · rw [if_pos hmem] at hnew
      exact ⟨new, hnew⟩
    · rw [if_neg hmem, List.append_assoc] at hnew
      exact ⟨[e.1] ++ new, hnew⟩

/-- A dict that was made on top of another can be put on top of it again. -/
theorem update_onto {new : List Text} (h : Distinct extra)
    (hkeys : extra.map Prod.fst = entries.map Prod.fst ++ new) : update entries extra = extra := by
  have hnodup : (entries.map Prod.fst ++ new).Nodup := hkeys ▸ h
  obtain ⟨hentries, -, hdisjoint⟩ := List.nodup_append.mp hnodup
  have hnew : (extra.map Prod.fst).filter (· ∉ entries.map Prod.fst) = new := by
    have hold : (entries.map Prod.fst).filter (· ∉ entries.map Prod.fst) = [] := by
      rw [List.filter_eq_nil_iff]
      intro k hk
      simpa using hk
    have hself : new.filter (· ∉ entries.map Prod.fst) = new := by
      rw [List.filter_eq_self]
      intro k hk
      exact decide_eq_true fun hmem => hdisjoint k hmem k hk rfl
    rw [hkeys, List.filter_append, hold, hself, List.nil_append]
  have hsame : (update entries extra).map Prod.fst = extra.map Prod.fst := by
    rw [keys_update h, hnew, hkeys]
  have hdistinct : Distinct entries := hentries
  refine ext_lookup hsame (hdistinct.update extra) fun k => ?_
  rw [lookup_update h]
  cases hk : extra.lookup k with
  | some x => rfl
  | none =>
    have hnot : k ∉ extra.map Prod.fst := by
      rw [← lookup_isSome_iff, hk]
      exact Bool.false_ne_true
    have hnot' : k ∉ entries.map Prod.fst := fun hmem => hnot (hkeys ▸ List.mem_append_left new hmem)
    rw [lookup_of_notMem hnot', Option.none_or]

theorem setKey_eq_put {φ : Type} (key : Text) (x : Value φ) : ∀ entries, setKey key x entries = put key x entries
  | [] => rfl
  | (k, y) :: entries => by
    rw [setKey, put, setKey_eq_put key x entries]

end dicts

/-! ### What `loads` makes -/

section loads

variable {φ : Type} {v : Value φ} {cs rest : List Char}

theorem properItems_append {ok : Text → Prop} : ∀ {items : List (Value φ)}, Value.ProperItems ok items →
    v.Proper ok → Value.ProperItems ok (items ++ [v])
  | [], _, hv => ⟨hv, trivial⟩
  | _ :: _, h, hv => ⟨h.1, properItems_append h.2 hv⟩

theorem properEntries_put {ok : Text → Prop} {key : Text} (hkey : ok key) (hv : v.Proper ok) :
    ∀ {entries : List (Text × Value φ)}, Value.ProperEntries ok entries → Value.ProperEntries ok (put key v entries)
  | [], _ => ⟨hkey, hv, trivial⟩
  | (k, y) :: entries, ⟨hk, hy, hrest⟩ => by
    rw [put]
    split
    · exact ⟨hk, hv, hrest⟩
    · exact ⟨hk, hy, properEntries_put hkey hv hrest⟩

variable [Interpreter φ]

theorem scanNumber_proper (h : scanNumber cs = .ok (v, rest)) : v.Proper Joined := by
  simp only [scanNumber] at h
  split at h
  · cases h
  · split at h
    · split at h
      · cases h
      · rw [← (Prod.mk.inj (Except.ok.inj h)).1, Value.Proper]
        trivial
    · rw [← (Prod.mk.inj (Except.ok.inj h)).1, Value.Proper]
      trivial

theorem scanScalar_proper (h : scanScalar cs = .ok (v, rest)) : v.Proper Joined := by
  unfold scanScalar at h
  split at h
  · rename_i word value hfind
    have hmem : (word, value) ∈ constants := List.mem_of_find?_eq_some hfind
    rw [← (Prod.mk.inj (Except.ok.inj h)).1]
    simp only [constants, List.map, List.mem_append, List.mem_cons, List.not_mem_nil, or_false, Prod.mk.injEq] at hmem
    rcases hmem with (⟨-, rfl⟩ | ⟨-, rfl⟩ | ⟨-, rfl⟩) | ⟨-, rfl⟩ | ⟨-, rfl⟩ | ⟨-, rfl⟩ <;> simp [Value.Proper]
  · exact scanNumber_proper h

theorem scanKey_joined {key : Text} (h : scanKey cs = .ok (key, rest)) : Joined key := by
  unfold scanKey at h
  split at h
  · split at h
    · split at h
      · rw [← (Prod.mk.inj (Except.ok.inj h)).1]
        exact joined_joinSurrogates _
      · cases h
    · cases h
  · cases h

/-- What the scanner reads, at each of its three places. -/
theorem scan_proper (fuel : ℕ) :
    (∀ {depth cs v rest}, (scanValue fuel depth cs : Except _ (Value φ × _)) = .ok (v, rest) →
      v.Proper Joined) ∧
    (∀ {depth items cs v rest}, (scanItems fuel depth items cs : Except _ (Value φ × _)) = .ok (v, rest) →
      Value.ProperItems Joined items → v.Proper Joined) ∧
    (∀ {depth entries cs v rest}, (scanEntries fuel depth entries cs : Except _ (Value φ × _)) = .ok (v, rest) →
      Distinct entries → Value.ProperEntries Joined entries → v.Proper Joined) := by
  induction fuel with
  | zero => exact ⟨by simp [scanValue], by simp [scanItems], by simp [scanEntries]⟩
  | succ fuel ih =>
    obtain ⟨ihvalue, ihitems, ihentries⟩ := ih
    refine ⟨fun {depth cs v rest} h => ?_, fun {depth items cs v rest} h hitems => ?_,
      fun {depth entries cs v rest} h hdistinct hentries => ?_⟩
    · cases cs with
      | nil => simp [scanValue] at h
      | cons c cs =>
        simp only [scanValue] at h
        split at h
        · obtain ⟨⟨s, rest'⟩, -, heq⟩ := map_eq_ok h
          rw [← (Prod.mk.inj heq).1, Value.Proper]
          exact joined_joinSurrogates s
        · split at h
          · split at h
            · cases h
            · rw [← (Prod.mk.inj (Except.ok.inj h)).1, Value.Proper]
              exact ⟨List.nodup_nil, trivial⟩
            · exact ihentries h List.nodup_nil trivial
          · split at h
            · split at h
              · cases h
              · rw [← (Prod.mk.inj (Except.ok.inj h)).1, Value.Proper]
                trivial
              · exact ihitems h trivial
            · exact scanScalar_proper h
    · rw [scanItems] at h
      split at h
      · cases h
      · rename_i x cs' hx
        have hall := properItems_append hitems (ihvalue hx)
        split at h
        · exact ihitems h hall
        · rw [← (Prod.mk.inj (Except.ok.inj h)).1, Value.Proper]
          exact hall
        · cases h
    · rw [scanEntries] at h
      split at h
      · cases h
      · split at h
        · cases h
        · rename_i key cs' hkey _ x cs'' hx
          have hall := @properEntries_put _ x _ key (scanKey_joined hkey) (ihvalue hx) entries hentries
          have hkeys := hdistinct.put key x
          rw [← setKey_eq_put] at hall hkeys
          split at h
          · exact ihentries h hkeys hall
          · rw [← (Prod.mk.inj (Except.ok.inj h)).1, Value.Proper]
            exact ⟨hkeys, hall⟩
          · cases h

/-- In what `json.loads` makes no dict has a key twice, and no text has a pair of
surrogates. -/
theorem loads_proper (h : (loads cs : Except _ (Value φ)) = .ok v) : v.Proper Joined := by
  unfold loads at h
  split at h
  · cases h
  · split at h
    · cases h
    · rename_i x rest hscan
      obtain rfl := Except.ok.inj (guard_eq_ok'.mp h).2
      exact (scan_proper _).1 hscan

/-- `json.loads` of a text without surrogates. -/
def loadsText (text : Text) : Except LoadError (Value φ) :=
  match text.mapM toChar? with
  | some cs => loads cs
  | none => .error .jsonDecodeError

theorem loadsText_proper (text : Text) (v : Value φ) (h : loadsText text = .ok v) : v.Proper Joined := by
  unfold loadsText at h
  split at h
  · exact loads_proper h
  · cases h

end loads

/-! ### The heap -/

variable {φ : Type}

/-- A reference to a dict object, or a value that nobody changes. -/
inductive Ref (φ : Type)
  | value (v : Value φ)
  | dict (address : ℕ)

abbrev Cell (φ : Type) := List (Text × Ref φ)

abbrev Heap (φ : Type) := List (Cell φ)

/-- The dict object at the address. -/
def contents (h : Heap φ) (address : ℕ) : Cell φ := (h[address]?).getD []

/-- `dict(..)`: a new object, at the next address. -/
def copy (cell : Cell φ) (h : Heap φ) : ℕ × Heap φ := (h.length, h ++ [cell])

/-- The entries of what is referred to, if it is a dict. -/
def view (h : Heap φ) : Ref φ → Option (Cell φ)
  | .dict address => h[address]?
  | .value (.dict entries) => some (entries.map fun e => (e.1, .value e.2))
  | .value _ => none

mutual

/-- The reference stands for the value. -/
inductive Denotes (h : Heap φ) : Ref φ → Value φ → Prop
  | value (v : Value φ) : Denotes h (.value v) v
  | dict {address : ℕ} {cell : Cell φ} {entries : List (Text × Value φ)} (hcell : h[address]? = some cell)
      (hall : DenotesAll h cell entries) : Denotes h (.dict address) (.dict entries)

/-- So does each reference of a cell for the value of its key. -/
inductive DenotesAll (h : Heap φ) : Cell φ → List (Text × Value φ) → Prop
  | nil : DenotesAll h [] []
  | cons (key : Text) {r : Ref φ} {v : Value φ} {cell : Cell φ} {entries : List (Text × Value φ)}
      (hd : Denotes h r v) (hall : DenotesAll h cell entries) : DenotesAll h ((key, r) :: cell) ((key, v) :: entries)

end

mutual

/-- A heap that grows keeps what its references stand for. -/
theorem Denotes.grow {h : Heap φ} (new : Heap φ) : ∀ {r : Ref φ} {v : Value φ}, Denotes h r v → Denotes (h ++ new) r v
  | _, _, .value v => .value v
  | _, _, .dict hcell hall => by
    have hlt := (List.getElem?_eq_some_iff.mp hcell).1
    exact .dict (by rw [List.getElem?_append_left hlt, hcell]) (hall.grow new)

theorem DenotesAll.grow {h : Heap φ} (new : Heap φ) : ∀ {cell : Cell φ} {entries : List (Text × Value φ)},
    DenotesAll h cell entries → DenotesAll (h ++ new) cell entries
  | _, _, .nil => .nil
  | _, _, .cons key hd hall => .cons key (hd.grow new) (hall.grow new)

end

variable {h : Heap φ} {cell extra : Cell φ} {entries extra' : List (Text × Value φ)} {r : Ref φ} {v : Value φ}

theorem denotesAll_values (h : Heap φ) : ∀ entries : List (Text × Value φ),
    DenotesAll h (entries.map fun e => (e.1, .value e.2)) entries
  | [] => .nil
  | e :: entries => .cons e.1 (.value e.2) (denotesAll_values h entries)

/-- A reference is to a dict if and only if it stands for one, and then its
entries stand for those of the value. -/
theorem denotes_view (hd : Denotes h r v) : (view h r = none ∧ ∀ entries, v ≠ .dict entries) ∨
    ∃ cell entries, view h r = some cell ∧ v = .dict entries ∧ DenotesAll h cell entries := by
  cases hd with
  | value v =>
    cases v with
    | dict entries => exact .inr ⟨_, entries, rfl, rfl, denotesAll_values h entries⟩
    | null | bool | int | float | string | list => exact .inl ⟨rfl, nofun⟩
  | dict hcell hall => exact .inr ⟨_, _, hcell, rfl, hall⟩

theorem DenotesAll.lookup (key : Text) : ∀ {cell : Cell φ} {entries : List (Text × Value φ)},
    DenotesAll h cell entries → (cell.lookup key = none ∧ entries.lookup key = none) ∨
      ∃ r v, cell.lookup key = some r ∧ entries.lookup key = some v ∧ Denotes h r v
  | _, _, .nil => .inl ⟨rfl, rfl⟩
  | _, _, .cons k hd hall => by
    rw [lookup_cons, lookup_cons]
    by_cases hk : key = k
    · rw [if_pos hk, if_pos hk]
      exact .inr ⟨_, _, rfl, rfl, hd⟩
    · rw [if_neg hk, if_neg hk]
      exact hall.lookup key

theorem DenotesAll.getD (key : Text) (default : Value φ) (hall : DenotesAll h cell entries) :
    Denotes h ((cell.lookup key).getD (.value default)) ((entries.lookup key).getD default) := by
  rcases hall.lookup key with ⟨hcell, hentries⟩ | ⟨r, v, hcell, hentries, hd⟩
  · rw [hcell, hentries]
    exact .value default
  · rw [hcell, hentries]
    exact hd

/-- What a reference shows stays the same while the heap grows. -/
theorem Denotes.view_grow (new : Heap φ) (hd : Denotes h r v) : view (h ++ new) r = view h r := by
  cases hd with
  | value v => cases v <;> rfl
  | dict hcell hall => exact List.getElem?_append_left (List.getElem?_eq_some_iff.mp hcell).1

theorem DenotesAll.put (key : Text) (hd : Denotes h r v) : ∀ {cell : Cell φ} {entries : List (Text × Value φ)},
    DenotesAll h cell entries → DenotesAll h (Objects.put key r cell) (Objects.put key v entries)
  | _, _, .nil => .cons key hd .nil
  | _, _, .cons k hd' hall => by
    rw [Objects.put, Objects.put]
    split
    · exact .cons k hd hall
    · exact .cons k hd' (hall.put key hd)

theorem DenotesAll.erase (key : Text) : ∀ {cell : Cell φ} {entries : List (Text × Value φ)},
    DenotesAll h cell entries → DenotesAll h (Objects.erase key cell) (Objects.erase key entries)
  | _, _, .nil => .nil
  | _, _, .cons k hd hall => by
    have hrest := hall.erase key
    unfold Objects.erase at hrest ⊢
    by_cases hk : k = key
    · rw [List.filter_cons_of_neg (by simpa using hk), List.filter_cons_of_neg (by simpa using hk)]
      exact hrest
    · rw [List.filter_cons_of_pos (by simpa using hk), List.filter_cons_of_pos (by simpa using hk)]
      exact .cons k hd hrest

theorem DenotesAll.update : ∀ {extra : Cell φ} {extra' : List (Text × Value φ)}, DenotesAll h extra extra' →
    ∀ {cell : Cell φ} {entries : List (Text × Value φ)}, DenotesAll h cell entries →
      DenotesAll h (Objects.update cell extra) (Objects.update entries extra')
  | _, _, .nil, _, _, hall => hall
  | _, _, .cons key hd hextra, _, _, hall => hextra.update (hall.put key hd)

/-- What is done to a new object leaves the old ones alone. -/
theorem modify_new (h new : Heap φ) (i : ℕ) (f : Cell φ → Cell φ) :
    (h ++ new).modify (h.length + i) f = h ++ new.modify i f := by
  apply List.ext_getElem?
  intro j
  rw [List.getElem?_modify]
  rcases Nat.lt_or_ge j h.length with hlt | hge
  · have hne : h.length + i ≠ j := by omega
    rw [List.getElem?_append_left hlt, List.getElem?_append_left hlt]
    simp [hne]
  · have hiff : h.length + i = j ↔ i = j - h.length := by omega
    rw [List.getElem?_append_right hge, List.getElem?_append_right hge, List.getElem?_modify]
    simp only [hiff]

theorem modify_first (h new : Heap φ) (cell : Cell φ) (f : Cell φ → Cell φ) :
    (h ++ cell :: new).modify h.length f = h ++ f cell :: new :=
  modify_new h (cell :: new) 0 f

theorem modify_append (h new : Heap φ) {i : ℕ} (hi : i < h.length) (f : Cell φ → Cell φ) :
    (h ++ new).modify i f = h.modify i f ++ new := by
  apply List.ext_getElem?
  intro j
  rw [List.getElem?_modify]
  rcases Nat.lt_or_ge j h.length with hlt | hge
  · rw [List.getElem?_append_left hlt, List.getElem?_append_left (by rwa [List.length_modify]), List.getElem?_modify]
  · have hne : i ≠ j := by omega
    rw [List.getElem?_append_right hge, List.getElem?_append_right (by rwa [List.length_modify]), List.length_modify]
    simp [hne]

theorem contents_of_getElem? {address : ℕ} (hcell : h[address]? = some cell) (new : Heap φ) :
    contents (h ++ new) address = cell := by
  have hlt := (List.getElem?_eq_some_iff.mp hcell).1
  rw [contents, List.getElem?_append_left hlt, hcell, Option.getD_some]

theorem getElem?_new (h new : Heap φ) (i : ℕ) : (h ++ new)[h.length + i]? = new[i]? := by
  rw [List.getElem?_append_right (Nat.le_add_right _ _), Nat.add_sub_cancel_left]

theorem contents_new (h new : Heap φ) (i : ℕ) : contents (h ++ new) (h.length + i) = (new[i]?).getD [] := by
  rw [contents, getElem?_new]

end Objects
