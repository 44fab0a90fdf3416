/-
# YaRN launch arguments

A clone with a longer context starts its engine with overrides of the model's
configuration. `_with_yarn_launch_args` copies the launch arguments, the
overrides in them and the part of these that holds the rope parameters, sets
what YaRN needs in the copies and hands the copy of the arguments out. It is
modelled on the heap of the dict objects, as it works on copies that share
their values with the originals.

What it is for is said by `yarnLaunchArgs` on values: the arguments with
other overrides. The objects that the code makes stand for these, and no
object that was there before is changed (`withYarn_denotes`). So the result
is exact (`yarn_extended`), and extending it again changes nothing
(`yarn_idempotent`).

`json.loads` is a parameter, of which only that its dicts have distinct keys
is used (`loads_proper`). What it gives and the empty dict that a missing key
defaults to are nobody else's, and stay values.

Key definitions: `withYarnLaunchArgs`, `yarnLaunchArgs`, `YarnExtended`.
Key theorems: `withYarn_denotes`, `yarn_extended`, `yarn_idempotent`,
`yarn_overrides`.
-/
import LlmRio.Lib.Objects
import LlmRio.Lib.Transactions
import LlmRio.Profiles.Profile

namespace LlmRio
namespace Profiles

open Json Objects Transactions Utf8

/-- `json.loads` may also raise what is no `JSONDecodeError`. -/
inductive YarnError
  | rioError (e : RioError)
  | loadError (e : LoadError)
deriving DecidableEq

/-- The arguments of `_with_yarn_launch_args` but the two dicts. -/
structure YarnArguments (φ : Type) where
  nestedTextConfig : Bool
  originalMaxModelLen : ℤ
  maxModelLen : ℤ
  factor : φ

variable {φ : Type} (loads : Text → Except LoadError (Value φ)) (args : YarnArguments φ)

def invalidHfOverrides (message : String) : YarnError :=
  .rioError { code := "invalid_hf_overrides", message := message, statusCode := 409 }

def invalidJson : YarnError := invalidHfOverrides "The source profile has invalid JSON in hf_overrides"

def noObject : YarnError := invalidHfOverrides "The source profile hf_overrides must be a JSON object"

def noTextObject : YarnError :=
  invalidHfOverrides "The source profile text_config override must be a JSON object"

/-- The entries that make a rope YaRN's. -/
def yarnEntries : List (Text × Value φ) :=
  [(ofString "rope_type", .string (ofString "yarn")), (ofString "factor", .float args.factor),
    (ofString "original_max_position_embeddings", .int args.originalMaxModelLen)]

/-- What a text with overrides is read as. -/
def parseOverrides (text : Text) : Except YarnError (Value φ) :=
  match loads text with
  | .ok value => .ok value
  | .error .jsonDecodeError => .error invalidJson
  | .error e => .error (.loadError e)

/-! ### `_with_yarn_launch_args` on objects -/

def readOverrides : Ref φ → Except YarnError (Ref φ)
  | .value (.string text) => (parseOverrides loads text).map .value
  | raw => .ok raw

/-- A guard `isinstance(raw, dict)` and the entries behind it. -/
def requireDict (e : YarnError) (h : Heap φ) (raw : Ref φ) : Except YarnError (Cell φ) :=
  match view h raw with
  | some cell => .ok cell
  | none => .error e

/-- `existing_rope`, if it is a dict. -/
def existingRope (h : Heap φ) (owner : Cell φ) : Option (Cell φ) :=
  ((owner.lookup (ofString "rope_parameters")).bind (view h)).or
    ((owner.lookup (ofString "rope_scaling")).bind (view h))

/-- `_with_yarn_launch_args`, with the addresses of `launch_args` and
`base_rope_parameters`; it returns that of `updated`. -/
def withYarnLaunchArgs (launchArgs baseRopeParameters : ℕ) (h : Heap φ) : Except YarnError (ℕ × Heap φ) := do
  let (updated, h) := copy (contents h launchArgs) h
  let raw ← readOverrides loads (((contents h updated).lookup (ofString "hf_overrides")).getD (.value (.dict [])))
  let rawOverrides ← requireDict noObject h raw
  let (hfOverrides, h) := copy rawOverrides h
  if args.nestedTextConfig then do
    let rawText ← requireDict noTextObject h
      (((contents h hfOverrides).lookup (ofString "text_config")).getD (.value (.dict [])))
    let (owner, h) := copy rawText h
    let h := extendOwner owner h
    let h := h.modify hfOverrides (put (ofString "text_config") (.dict owner))
    return (updated, h.modify updated (put (ofString "hf_overrides") (.dict hfOverrides)))
  else
    -- the owner is the copy of the overrides itself
    let h := extendOwner hfOverrides h
    return (updated, h.modify updated (put (ofString "hf_overrides") (.dict hfOverrides)))
where
  /-- From `existing_rope` to the last change of `owner`. -/
  extendOwner (owner : ℕ) (h : Heap φ) : Heap φ :=
    let existing := existingRope h (contents h owner)
    let (rope, h) := copy (contents h baseRopeParameters) h
    let h := h.modify rope fun d => update d (existing.getD [])
    let h := h.modify rope fun d => update d ((yarnEntries args).map fun e => (e.1, .value e.2))
    let h := h.modify owner (put (ofString "max_position_embeddings") (.value (.int args.maxModelLen)))
    let h := h.modify owner (erase (ofString "rope_scaling"))
    h.modify owner (put (ofString "rope_parameters") (.dict rope))

/-! ### The same on values -/

def asDict : Value φ → Option (List (Text × Value φ))
  | .dict entries => some entries
  | _ => none

def readText : Value φ → Except YarnError (Value φ)
  | .string text => parseOverrides loads text
  | raw => .ok raw

def requireEntries (e : YarnError) (raw : Value φ) : Except YarnError (List (Text × Value φ)) :=
  match asDict raw with
  | some entries => .ok entries
  | none => .error e

/-- The overrides of the launch arguments. -/
def overridesOf (launchArgs : List (Text × Value φ)) : Except YarnError (List (Text × Value φ)) := do
  let raw ← readText loads ((launchArgs.lookup (ofString "hf_overrides")).getD (.dict []))
  requireEntries noObject raw

/-- The part of the overrides that holds the rope. -/
def ownerOf (overrides : List (Text × Value φ)) : Except YarnError (List (Text × Value φ)) :=
  if args.nestedTextConfig then
    requireEntries noTextObject ((overrides.lookup (ofString "text_config")).getD (.dict []))
  else .ok overrides

/-- The rope that the owner has, under its new or its old name. -/
def existingOf (owner : List (Text × Value φ)) : List (Text × Value φ) :=
  (((owner.lookup (ofString "rope_parameters")).bind asDict).or
    ((owner.lookup (ofString "rope_scaling")).bind asDict)).getD []

def yarnRope (base owner : List (Text × Value φ)) : List (Text × Value φ) :=
  update (update base (existingOf owner)) (yarnEntries args)

def yarnOwner (base owner : List (Text × Value φ)) : List (Text × Value φ) :=
  put (ofString "rope_parameters") (.dict (yarnRope args base owner))
    (erase (ofString "rope_scaling") (put (ofString "max_position_embeddings") (.int args.maxModelLen) owner))

def yarnOverrides (base overrides owner : List (Text × Value φ)) : List (Text × Value φ) :=
  if args.nestedTextConfig then put (ofString "text_config") (.dict (yarnOwner args base owner)) overrides
  else yarnOwner args base owner

/-- The launch arguments with the overrides for YaRN. -/
def yarnLaunchArgs (base launchArgs : List (Text × Value φ)) : Except YarnError (List (Text × Value φ)) := do
  let overrides ← overridesOf loads launchArgs
  let owner ← ownerOf args overrides
  return put (ofString "hf_overrides") (.dict (yarnOverrides args base overrides owner)) launchArgs

/-! ### The objects stand for the values -/

variable {loads args} {h : Heap φ} {cell : Cell φ} {entries : List (Text × Value φ)} {r : Ref φ} {v : Value φ}

theorem readOverrides_agree (hd : Denotes h r v) : Agree (Denotes h) (readOverrides loads r) (readText loads v) := by
  cases hd with
  | value v =>
    cases v with
    | string text =>
      show Agree (Denotes h) ((parseOverrides loads text).map .value) (parseOverrides loads text)
      cases parseOverrides loads text with
      | error e => exact .error e
      | ok v => exact .ok (.value v)
    | null | bool | int | float | list | dict => exact .ok (.value _)
  | dict hcell hall => exact .ok (.dict hcell hall)

theorem requireDict_agree (e : YarnError) (hd : Denotes h r v) :
    Agree (DenotesAll h) (requireDict e h r) (requireEntries e v) := by
  rcases denotes_view hd with ⟨hview, hdict⟩ | ⟨cell, entries, hview, rfl, hall⟩
  · have hnone : asDict v = none := by
      cases v with
      | dict entries => exact absurd rfl (hdict entries)
      | null | bool | int | float | string | list => rfl
    rw [requireDict, hview, requireEntries, hnone]
    exact .error e
  · rw [requireDict, hview]
    exact .ok hall

theorem requireDict_grow (e : YarnError) (new : Heap φ) (hd : Denotes h r v) :
    requireDict e (h ++ new) r = requireDict e h r := by
  rw [requireDict, hd.view_grow new, requireDict]

/-- A dict under the key, on both sides. -/
theorem lookup_view (key : Text) (hall : DenotesAll h cell entries) :
    ((cell.lookup key).bind (view h) = none ∧ (entries.lookup key).bind asDict = none) ∨
      ∃ c d, (cell.lookup key).bind (view h) = some c ∧ (entries.lookup key).bind asDict = some d ∧
        DenotesAll h c d := by
  rcases hall.lookup key with ⟨hcell, hentries⟩ | ⟨r, v, hcell, hentries, hd⟩
  · exact .inl ⟨by rw [hcell]; rfl, by rw [hentries]; rfl⟩
  · rw [hcell, hentries, Option.bind_some, Option.bind_some]
    rcases denotes_view hd with ⟨hview, hdict⟩ | ⟨c, d, hview, rfl, hall⟩
    · refine .inl ⟨hview, ?_⟩
      cases v with
      | dict entries => exact absurd rfl (hdict entries)
      | null | bool | int | float | string | list => rfl
    · exact .inr ⟨c, d, hview, rfl, hall⟩

theorem existingRope_denotes (hall : DenotesAll h cell entries) :
    DenotesAll h ((existingRope h cell).getD []) (existingOf entries) := by
  unfold existingRope existingOf
  rcases lookup_view (ofString "rope_parameters") hall with ⟨hcell, hentries⟩ | ⟨c, d, hcell, hentries, hnew⟩
  · rw [hcell, hentries, Option.none_or, Option.none_or]
    rcases lookup_view (ofString "rope_scaling") hall with ⟨hcell', hentries'⟩ | ⟨c, d, hcell', hentries', hold⟩
    · rw [hcell', hentries']
      exact .nil
    · rw [hcell', hentries']
      exact hold
  · rw [hcell, hentries]
    exact hnew

theorem existingRope_grow (new : Heap φ) (hall : DenotesAll h cell entries) :
    existingRope (h ++ new) cell = existingRope h cell := by
  have hbind : ∀ key, (cell.lookup key).bind (view (h ++ new)) = (cell.lookup key).bind (view h) := by
    intro key
    rcases hall.lookup key with ⟨hcell, -⟩ | ⟨r, v, hcell, -, hd⟩
    · rw [hcell]
      rfl
    · rw [hcell]
      exact hd.view_grow new
  rw [existingRope, hbind, hbind, existingRope]

/-- The copy of the rope when `extendOwner` is done. -/
def ropeCell (args : YarnArguments φ) (base existing : Cell φ) : Cell φ :=
  update (update base existing) ((yarnEntries args).map fun e => (e.1, .value e.2))

/-- The owner when `extendOwner` is done. -/
def ownerCell (args : YarnArguments φ) (rope : ℕ) (owner : Cell φ) : Cell φ :=
  put (ofString "rope_parameters") (.dict rope)
    (erase (ofString "rope_scaling") (put (ofString "max_position_embeddings") (.value (.int args.maxModelLen)) owner))

/-- The owner is changed and the rope is new. -/
theorem extendOwner_eq {base owner : ℕ} (howner : owner < h.length) :
    withYarnLaunchArgs.extendOwner args base owner h = h.modify owner (ownerCell args h.length) ++
      [ropeCell args (contents h base) ((existingRope h (contents h owner)).getD [])] := by
  simp only [withYarnLaunchArgs.extendOwner, copy, modify_first, List.modify_modify_eq]
  exact modify_append h _ howner _

theorem ropeCell_denotes {base existing : Cell φ} {base' existing' : List (Text × Value φ)}
    (hbase : DenotesAll h base base') (hexisting : DenotesAll h existing existing') :
    DenotesAll h (ropeCell args base existing) (update (update base' existing') (yarnEntries args)) :=
  (denotesAll_values h (yarnEntries args)).update (hexisting.update hbase)

/-- The two objects of an owner stand for the owner that is to be. -/
theorem owner_denotes {address rope : ℕ} {owner base existing : Cell φ} {owner' base' : List (Text × Value φ)}
    (haddress : h[address]? = some (ownerCell args rope owner)) (hrope : h[rope]? = some (ropeCell args base existing))
    (howner : DenotesAll h owner owner') (hbase : DenotesAll h base base')
    (hexisting : DenotesAll h existing (existingOf owner')) :
    Denotes h (.dict address) (.dict (yarnOwner args base' owner')) := by
  have hnew : Denotes h (.dict rope) (.dict (yarnRope args base' owner')) :=
    .dict hrope (ropeCell_denotes hbase hexisting)
  have hmaximum : Denotes h (.value (.int args.maxModelLen)) (.int args.maxModelLen) := .value _
  exact .dict haddress (((howner.put _ hmaximum).erase _).put _ hnew)

/-- The objects that are new when the owner is an object of its own. -/
theorem nested_heap {base : ℕ} {bcell overrides owner : Cell φ} {owner' : List (Text × Value φ)}
    (hbase : h[base]? = some bcell) (howner : DenotesAll h owner owner') :
    ((withYarnLaunchArgs.extendOwner args base (h.length + 2) (h ++ [cell, overrides, owner])).modify (h.length + 1)
        (put (ofString "text_config") (.dict (h.length + 2)))).modify h.length
          (put (ofString "hf_overrides") (.dict (h.length + 1))) =
      h ++ [put (ofString "hf_overrides") (.dict (h.length + 1)) cell,
        put (ofString "text_config") (.dict (h.length + 2)) overrides, ownerCell args (h.length + 3) owner,
        ropeCell args bcell ((existingRope h owner).getD [])] := by
  have hlen : (h ++ [cell, overrides, owner]).length = h.length + 3 := List.length_append
  have hcontents : contents (h ++ [cell, overrides, owner]) (h.length + 2) = owner := contents_new h _ 2
  rw [extendOwner_eq (by omega), hcontents, contents_of_getElem? hbase, existingRope_grow _ howner, hlen, modify_new,
    List.append_assoc, modify_new]
  exact modify_first h _ cell _

/-- The objects that are new when the overrides are the owner. -/
theorem flat_heap {base : ℕ} {bcell owner : Cell φ} {owner' : List (Text × Value φ)}
    (hbase : h[base]? = some bcell) (howner : DenotesAll h owner owner') :
    (withYarnLaunchArgs.extendOwner args base (h.length + 1) (h ++ [cell, owner])).modify h.length
        (put (ofString "hf_overrides") (.dict (h.length + 1))) =
      h ++ [put (ofString "hf_overrides") (.dict (h.length + 1)) cell, ownerCell args (h.length + 2) owner,
        ropeCell args bcell ((existingRope h owner).getD [])] := by
  have hlen : (h ++ [cell, owner]).length = h.length + 2 := List.length_append
  have hcontents : contents (h ++ [cell, owner]) (h.length + 1) = owner := contents_new h _ 1
  rw [extendOwner_eq (by omega), hcontents, contents_of_getElem? hbase, existingRope_grow _ howner, hlen, modify_new,
    List.append_assoc]
  exact modify_first h _ cell _

/-- What the code makes stands for what is to be made, no object of before is
changed, and it raises where it is to raise. -/
theorem withYarn_denotes {launchArgs base : ℕ} {base' : List (Text × Value φ)}
    (hargs : Denotes h (.dict launchArgs) (.dict entries)) (hbase : Denotes h (.dict base) (.dict base')) :
    Agree (fun result entries' => (∃ new, result.2 = h ++ new) ∧ Denotes result.2 (.dict result.1) (.dict entries'))
      (withYarnLaunchArgs loads args launchArgs base h) (yarnLaunchArgs loads args base' entries) := by
  cases hargs with | dict hcell hall =>
  cases hbase with | dict hbase hbase' =>
  rename_i cell bcell
  have hcopied : contents h launchArgs = cell := by rw [contents, hcell, Option.getD_some]
  simp only [withYarnLaunchArgs, yarnLaunchArgs, overridesOf, ownerOf, copy, bind_assoc, hcopied]
  have hupdated : contents (h ++ [cell]) h.length = cell := contents_new h _ 0
  rw [hupdated]
  refine (readOverrides_agree (hall.getD _ _)).bind fun raw raw' hraw => ?_
  rw [requireDict_grow _ _ hraw]
  refine (requireDict_agree _ hraw).bind fun overrides overrides' hoverrides => ?_
  have hlen : (h ++ [cell]).length = h.length + 1 := List.length_append
  have hlen' : (h ++ [cell, overrides]).length = h.length + 2 := List.length_append
  have happend : h ++ [cell] ++ [overrides] = h ++ [cell, overrides] := List.append_assoc ..
  have hsecond : contents (h ++ [cell, overrides]) (h.length + 1) = overrides := contents_new h _ 1
  simp only [hlen, happend, hlen', hsecond]
  by_cases hnested : args.nestedTextConfig = true
  · rw [if_pos hnested, if_pos hnested, requireDict_grow _ _ (hoverrides.getD _ _)]
    refine (requireDict_agree _ (hoverrides.getD _ _)).bind fun owner owner' howner => ?_
    have happend' : h ++ [cell, overrides] ++ [owner] = h ++ [cell, overrides, owner] := List.append_assoc ..
    rw [happend', nested_heap hbase howner]
    refine .ok ⟨⟨_, rfl⟩, ?_⟩
    rw [yarnOverrides, if_pos hnested]
    refine .dict (getElem?_new h _ 0) ((hall.grow _).put _ (.dict (getElem?_new h _ 1) ((hoverrides.grow _).put _ ?_)))
    exact owner_denotes (getElem?_new h _ 2) (getElem?_new h _ 3) (howner.grow _) (hbase'.grow _)
      ((existingRope_denotes howner).grow _)
  · rw [if_neg hnested, if_neg hnested, flat_heap hbase hoverrides]
    refine .ok ⟨⟨_, rfl⟩, ?_⟩
    rw [yarnOverrides, if_neg hnested]
    refine .dict (getElem?_new h _ 0) ((hall.grow _).put _ ?_)
    exact owner_denotes (getElem?_new h _ 1) (getElem?_new h _ 2) (hoverrides.grow _) (hbase'.grow _)
      ((existingRope_denotes hoverrides).grow _)

/-! ### What the overrides are -/

variable {base existing rope owner owner' overrides overrides' entries' : List (Text × Value φ)}

/-- YaRN's entries, and for the other keys what the model overrides before
what it is. -/
structure RopeExtended (args : YarnArguments φ) (base existing rope : List (Text × Value φ)) : Prop where
  ropeType : rope.lookup (ofString "rope_type") = some (.string (ofString "yarn"))
  factor : rope.lookup (ofString "factor") = some (.float args.factor)
  original : rope.lookup (ofString "original_max_position_embeddings") = some (.int args.originalMaxModelLen)
  rest : ∀ key ∉ [ofString "rope_type", ofString "factor", ofString "original_max_position_embeddings"],
    rope.lookup key = (existing.lookup key).or (base.lookup key)

/-- The owner has the new rope, and it has it under the new name only. -/
structure OwnerExtended (args : YarnArguments φ) (base owner owner' : List (Text × Value φ)) : Prop where
  maximum : owner'.lookup (ofString "max_position_embeddings") = some (.int args.maxModelLen)
  noScaling : owner'.lookup (ofString "rope_scaling") = none
  rope : ∃ rope, owner'.lookup (ofString "rope_parameters") = some (.dict rope) ∧
    RopeExtended args base (existingOf owner) rope
  rest : ∀ key ∉ [ofString "max_position_embeddings", ofString "rope_scaling", ofString "rope_parameters"],
    owner'.lookup key = owner.lookup key

/-- The overrides with the new owner in them. -/
def OverridesExtended (args : YarnArguments φ) (overrides overrides' owner' : List (Text × Value φ)) : Prop :=
  if args.nestedTextConfig then overrides'.lookup (ofString "text_config") = some (.dict owner') ∧
    ∀ key, key ≠ ofString "text_config" → overrides'.lookup key = overrides.lookup key
  else overrides' = owner'

/-- The launch arguments with the new overrides in them. -/
structure YarnExtended (loads : Text → Except LoadError (Value φ)) (args : YarnArguments φ)
    (base launchArgs launchArgs' : List (Text × Value φ)) : Prop where
  overrides : ∃ overrides owner overrides' owner', overridesOf loads launchArgs = .ok overrides ∧
    ownerOf args overrides = .ok owner ∧ launchArgs'.lookup (ofString "hf_overrides") = some (.dict overrides') ∧
    OverridesExtended args overrides overrides' owner' ∧ OwnerExtended args base owner owner'
  rest : ∀ key, key ≠ ofString "hf_overrides" → launchArgs'.lookup key = launchArgs.lookup key

theorem distinct_yarnEntries (args : YarnArguments φ) : Distinct (yarnEntries args) := by
  show [ofString "rope_type", ofString "factor", ofString "original_max_position_embeddings"].Nodup
  decide

theorem rope_extended (h : Distinct existing) :
    RopeExtended args base existing (update (update base existing) (yarnEntries args)) where
  ropeType := by rw [lookup_update (distinct_yarnEntries args)]; rfl
  factor := by rw [lookup_update (distinct_yarnEntries args)]; rfl
  original := by rw [lookup_update (distinct_yarnEntries args)]; rfl
  rest key hkey := by
    have hnone : (yarnEntries args).lookup key = none := lookup_of_notMem hkey
    rw [lookup_update (distinct_yarnEntries args), hnone, Option.none_or, lookup_update h]

theorem lookup_yarnOwner (key : Text) : (yarnOwner args base owner).lookup key =
    if key = ofString "rope_parameters" then some (.dict (yarnRope args base owner))
    else if key = ofString "rope_scaling" then none
    else if key = ofString "max_position_embeddings" then some (.int args.maxModelLen) else owner.lookup key := by
  rw [yarnOwner, lookup_put, lookup_erase, lookup_put]

theorem owner_extended (h : Distinct (existingOf owner)) :
    OwnerExtended args base owner (yarnOwner args base owner) where
  maximum := by
    rw [lookup_yarnOwner, if_neg (by decide), if_neg (by decide), if_pos rfl]
  noScaling := by
    rw [lookup_yarnOwner, if_neg (by decide), if_pos rfl]
  rope := ⟨yarnRope args base owner, by rw [lookup_yarnOwner, if_pos rfl], rope_extended h⟩
  rest key hkey := by
    simp only [List.mem_cons, List.not_mem_nil, or_false, not_or] at hkey
    obtain ⟨hmaximum, hscaling, hparameters⟩ := hkey
    rw [lookup_yarnOwner, if_neg hparameters, if_neg hscaling, if_neg hmaximum]

theorem overrides_extended :
    OverridesExtended args overrides (yarnOverrides args base overrides owner) (yarnOwner args base owner) := by
  unfold OverridesExtended yarnOverrides
  by_cases hnested : args.nestedTextConfig = true
  · rw [if_pos hnested, if_pos hnested]
    refine ⟨by rw [lookup_put, if_pos rfl], fun key hkey => ?_⟩
    rw [lookup_put, if_neg hkey]
  · rw [if_neg hnested, if_neg hnested]

theorem requireEntries_eq_ok {e : YarnError} : requireEntries e v = .ok entries ↔ v = .dict entries := by
  cases v with
  | dict entries' => simp [requireEntries, asDict]
  | null | bool | int | float | string | list => simp [requireEntries, asDict]

/-- The launch arguments behind an extension. -/
theorem yarnLaunchArgs_eq_ok : yarnLaunchArgs loads args base entries = .ok entries' ↔
    ∃ overrides owner, overridesOf loads entries = .ok overrides ∧ ownerOf args overrides = .ok owner ∧
      entries' = put (ofString "hf_overrides") (.dict (yarnOverrides args base overrides owner)) entries := by
  constructor
  · intro h
    obtain ⟨overrides, hoverrides, h⟩ := bind_eq_ok.mp h
    obtain ⟨owner, howner, h⟩ := bind_eq_ok.mp h
    exact ⟨overrides, owner, hoverrides, howner, (pure_eq_ok.mp h).symm⟩
  · rintro ⟨overrides, owner, hoverrides, howner, rfl⟩
    exact bind_eq_ok.mpr ⟨overrides, hoverrides, bind_eq_ok.mpr ⟨owner, howner, rfl⟩⟩

section proper

/-! The dicts in proper launch arguments have distinct keys, and so have those
that `json.loads` makes. -/

variable {ok : Text → Prop}

theorem getD_proper {default : Value φ} (h : Value.ProperEntries ok entries) (hdefault : default.Proper ok)
    (key : Text) : ((entries.lookup key).getD default).Proper ok := by
  cases hkey : entries.lookup key with
  | none => exact hdefault
  | some v => exact h.lookup hkey

theorem properDict_nil : (.dict [] : Value φ).Proper ok := by
  simp [Value.Proper, Value.ProperEntries]

theorem overridesOf_proper (hloads : ∀ text v, loads text = .ok v → v.Proper ok) (h : Value.ProperEntries ok entries)
    (hok : overridesOf loads entries = .ok overrides) : (.dict overrides : Value φ).Proper ok := by
  obtain ⟨raw, hraw, hdict⟩ := bind_eq_ok.mp hok
  obtain rfl := requireEntries_eq_ok.mp hdict
  have hvalue := getD_proper h properDict_nil (ofString "hf_overrides")
  generalize (entries.lookup (ofString "hf_overrides")).getD (.dict []) = v at hvalue hraw
  cases v with
  | string text =>
    have hparsed : parseOverrides loads text = .ok (.dict overrides) := hraw
    unfold parseOverrides at hparsed
    split at hparsed
    · rename_i v hv
      exact Except.ok.inj hparsed ▸ hloads text v hv
    · cases hparsed
    · cases hparsed
  | null | bool | int | float | list | dict => exact Except.ok.inj hraw ▸ hvalue

theorem ownerOf_proper (h : (.dict overrides : Value φ).Proper ok) (hok : ownerOf args overrides = .ok owner) :
    (.dict owner : Value φ).Proper ok := by
  unfold ownerOf at hok
  split at hok
  · rw [Value.Proper] at h
    rw [← requireEntries_eq_ok.mp hok]
    exact getD_proper h.2 properDict_nil _
  · exact Except.ok.inj hok ▸ h

theorem distinct_existingOf (h : Value.ProperEntries ok owner) : Distinct (existingOf owner) := by
  have hdict : ∀ {key rope}, (owner.lookup key).bind asDict = some rope → Distinct rope := by
    intro key rope hrope
    obtain ⟨v, hv, hrope⟩ := Option.bind_eq_some_iff.mp hrope
    have hproper := h.lookup hv
    cases v with
    | dict entries =>
      rw [Value.Proper] at hproper
      exact Option.some.inj hrope ▸ hproper.1
    | null | bool | int | float | string | list => cases hrope
  unfold existingOf
  cases hnew : (owner.lookup (ofString "rope_parameters")).bind asDict with
  | some rope => exact hdict hnew
  | none =>
    rw [Option.none_or]
    cases hold : (owner.lookup (ofString "rope_scaling")).bind asDict with
    | some rope => exact hdict hold
    | none => exact List.nodup_nil

end proper

theorem yarn_extended {ok : Text → Prop} (hloads : ∀ text v, loads text = .ok v → v.Proper ok)
    (h : Value.ProperEntries ok entries) (hok : yarnLaunchArgs loads args base entries = .ok entries') :
    YarnExtended loads args base entries entries' := by
  obtain ⟨overrides, owner, hoverrides, howner, rfl⟩ := yarnLaunchArgs_eq_ok.mp hok
  have hproper := ownerOf_proper (overridesOf_proper hloads h hoverrides) howner
  rw [Value.Proper] at hproper
  refine ⟨⟨overrides, owner, _, _, hoverrides, howner, ?_, overrides_extended,
    owner_extended (distinct_existingOf hproper.2)⟩, fun key hkey => ?_⟩
  · rw [lookup_put, if_pos rfl]
  · rw [lookup_put, if_neg hkey]

/-! ### Extending again -/

theorem existingOf_yarnOwner : existingOf (yarnOwner args base owner) = yarnRope args base owner := by
  rw [existingOf, lookup_yarnOwner, if_pos rfl]
  rfl

/-- The rope of an extended owner is extended. -/
theorem yarnRope_again (hbase : Distinct base) :
    yarnRope args base (yarnOwner args base owner) = yarnRope args base owner := by
  have hdistinct : Distinct (yarnRope args base owner) := (hbase.update _).update _
  obtain ⟨new, hnew⟩ := exists_keys_update base (existingOf owner)
  obtain ⟨new', hnew'⟩ := exists_keys_update (update base (existingOf owner)) (yarnEntries args)
  rw [hnew, List.append_assoc] at hnew'
  have honto : update base (yarnRope args base owner) = yarnRope args base owner := update_onto hdistinct hnew'
  have hentries : ∀ e ∈ yarnEntries args, (yarnRope args base owner).lookup e.1 = some e.2 := by
    intro e he
    rw [yarnRope, lookup_update (distinct_yarnEntries args)]
    simp only [yarnEntries, List.mem_cons, List.not_mem_nil, or_false] at he
    rcases he with rfl | rfl | rfl <;> rfl
  rw [yarnRope, existingOf_yarnOwner, honto, update_same hentries]

theorem yarnOwner_again (hbase : Distinct base) :
    yarnOwner args base (yarnOwner args base owner) = yarnOwner args base owner := by
  have hmaximum : (yarnOwner args base owner).lookup (ofString "max_position_embeddings") =
      some (.int args.maxModelLen) := by
    rw [lookup_yarnOwner, if_neg (by decide), if_neg (by decide), if_pos rfl]
  have hscaling : (yarnOwner args base owner).lookup (ofString "rope_scaling") = none := by
    rw [lookup_yarnOwner, if_neg (by decide), if_pos rfl]
  have hrope : (yarnOwner args base owner).lookup (ofString "rope_parameters") =
      some (.dict (yarnRope args base owner)) := by
    rw [lookup_yarnOwner, if_pos rfl]
  rw [yarnOwner, yarnRope_again hbase, put_same hmaximum, erase_of_none hscaling, put_same hrope]

theorem yarn_idempotent (hbase : Distinct base) (hok : yarnLaunchArgs loads args base entries = .ok entries') :
    yarnLaunchArgs loads args base entries' = .ok entries' := by
  obtain ⟨overrides, owner, -, -, hentries⟩ := yarnLaunchArgs_eq_ok.mp hok
  have hlookup : entries'.lookup (ofString "hf_overrides") =
      some (.dict (yarnOverrides args base overrides owner)) := by
    rw [hentries, lookup_put, if_pos rfl]
  have hoverrides : overridesOf loads entries' = .ok (yarnOverrides args base overrides owner) := by
    rw [overridesOf, hlookup]
    rfl
  by_cases hnested : args.nestedTextConfig = true
  · have htext : (yarnOverrides args base overrides owner).lookup (ofString "text_config") =
        some (.dict (yarnOwner args base owner)) := by
      rw [yarnOverrides, if_pos hnested, lookup_put, if_pos rfl]
    have howner : ownerOf args (yarnOverrides args base overrides owner) = .ok (yarnOwner args base owner) := by
      rw [ownerOf, if_pos hnested, htext]
      rfl
    refine yarnLaunchArgs_eq_ok.mpr ⟨_, _, hoverrides, howner, ?_⟩
    have hsame : yarnOverrides args base (yarnOverrides args base overrides owner) (yarnOwner args base owner) =
        yarnOverrides args base overrides owner := by
      rw [yarnOverrides, if_pos hnested, yarnOwner_again hbase, put_same htext]
    rw [hsame, put_same hlookup]
  · have hself : yarnOverrides args base overrides owner = yarnOwner args base owner := by
      rw [yarnOverrides, if_neg hnested]
    have howner : ownerOf args (yarnOverrides args base overrides owner) = .ok (yarnOwner args base owner) := by
      rw [ownerOf, if_neg hnested, hself]
    refine yarnLaunchArgs_eq_ok.mpr ⟨_, _, hoverrides, howner, ?_⟩
    have hsame : yarnOverrides args base (yarnOverrides args base overrides owner) (yarnOwner args base owner) =
        yarnOverrides args base overrides owner := by
      rw [yarnOverrides, if_neg hnested, yarnOwner_again hbase, hself]
    rw [hsame, put_same hlookup]

/-- The objects that were there are not changed, the new launch arguments have
exactly YaRN's overrides, and to extend them again with the same arguments
gives the same launch arguments. -/
theorem yarn_overrides (hloads : ∀ text v, loads text = .ok v → v.Proper fun _ => True) {launchArgs base : ℕ}
    {base' : List (Text × Value φ)} (hargs : Denotes h (.dict launchArgs) (.dict entries))
    (hbase : Denotes h (.dict base) (.dict base')) (hproper : (.dict entries : Value φ).Proper fun _ => True)
    (hdistinct : Distinct base') {updated : ℕ} {h' : Heap φ}
    (hok : withYarnLaunchArgs loads args launchArgs base h = .ok (updated, h')) :
    (∃ new, h' = h ++ new) ∧ ∃ entries', Denotes h' (.dict updated) (.dict entries') ∧
      YarnExtended loads args base' entries entries' ∧
        ∃ updated' h'', withYarnLaunchArgs loads args updated base h' = .ok (updated', h'') ∧
          (∃ new, h'' = h' ++ new) ∧ Denotes h'' (.dict updated') (.dict entries') := by
  have hagree : Agree _ (withYarnLaunchArgs loads args launchArgs base h) (yarnLaunchArgs loads args base' entries) :=
    withYarn_denotes hargs hbase
  rw [hok] at hagree
  obtain ⟨entries', hvalue, ⟨new, rfl⟩, hresult⟩ := hagree.exists_of_ok
  rw [Value.Proper] at hproper
  have hextended := yarn_extended hloads hproper.2 hvalue
  have hagain : Agree _ (withYarnLaunchArgs loads args updated base (h ++ new))
      (yarnLaunchArgs loads args base' entries') := withYarn_denotes hresult (hbase.grow new)
  rw [yarn_idempotent hdistinct hvalue] at hagain
  obtain ⟨⟨updated', h''⟩, hok', hnew, hresult'⟩ := hagain.of_ok
  exact ⟨⟨new, rfl⟩, entries', hresult, hextended, updated', h'', hok', hnew, hresult'⟩

def fourfold : YarnArguments (List Char) where
  nestedTextConfig := true
  originalMaxModelLen := 4096
  maxModelLen := 16384
  factor := "4.0".toList

/-- The rope parameters of the model, and launch arguments with a rope of their
own, under its old name, in the configuration of the text model. -/
def nestedHeap : Heap (List Char) :=
  [[(ofString "rope_theta", .value (.int 10000))],
    [(ofString "enforce_eager", .value (.bool true)), (ofString "hf_overrides", .dict 2)],
    [(ofString "text_config", .dict 3)],
    [(ofString "rope_scaling", .dict 4), (ofString "hidden_size", .value (.int 64))],
    [(ofString "rope_type", .value (.string (ofString "linear"))), (ofString "rope_theta", .value (.int 500000))]]

/-- The rope of the arguments. -/
def linearRope : List (Text × Value (List Char)) :=
  [(ofString "rope_type", .string (ofString "linear")), (ofString "rope_theta", .int 500000)]

def nestedArgs : List (Text × Value (List Char)) :=
  [(ofString "enforce_eager", .bool true), (ofString "hf_overrides", .dict [(ofString "text_config",
    .dict [(ofString "rope_scaling", .dict linearRope), (ofString "hidden_size", .int 64)])])]

/-- The same with the copies: the base of the rope is overridden by the rope of
the arguments, and this by YaRN's. -/
def fourfoldHeap : Heap (List Char) := nestedHeap ++
  [[(ofString "enforce_eager", .value (.bool true)), (ofString "hf_overrides", .dict 6)],
    [(ofString "text_config", .dict 7)],
    [(ofString "hidden_size", .value (.int 64)), (ofString "max_position_embeddings", .value (.int 16384)),
      (ofString "rope_parameters", .dict 8)],
    [(ofString "rope_theta", .value (.int 500000)), (ofString "rope_type", .value (.string (ofString "yarn"))),
      (ofString "factor", .value (.float "4.0".toList)),
      (ofString "original_max_position_embeddings", .value (.int 4096))]]

theorem denotes_nested : Denotes nestedHeap (.dict 1) (.dict nestedArgs) := by
  have hrope : Denotes nestedHeap (.dict 4) (.dict linearRope) :=
    .dict rfl (.cons _ (.value _) (.cons _ (.value _) .nil))
  have htext : Denotes nestedHeap (.dict 3)
      (.dict [(ofString "rope_scaling", .dict linearRope), (ofString "hidden_size", .int 64)]) :=
    .dict rfl (.cons _ hrope (.cons _ (.value _) .nil))
  exact .dict rfl (.cons _ (.value _) (.cons _ (.dict rfl (.cons _ htext .nil)) .nil))

theorem yarn_overrides_nested :
    (∃ new, fourfoldHeap = nestedHeap ++ new) ∧ ∃ entries', Denotes fourfoldHeap (.dict 5) (.dict entries') ∧
      YarnExtended loadsText fourfold [(ofString "rope_theta", .int 10000)] nestedArgs entries' ∧
        ∃ updated' h'', withYarnLaunchArgs loadsText fourfold 5 0 fourfoldHeap = .ok (updated', h'') ∧
          (∃ new, h'' = fourfoldHeap ++ new) ∧ Denotes h'' (.dict updated') (.dict entries') := by
  have hok : withYarnLaunchArgs loadsText fourfold 1 0 nestedHeap = .ok (5, fourfoldHeap) := rfl
  have hloads : ∀ (text : Text) (v : Value (List Char)), loadsText text = .ok v → v.Proper fun _ => True :=
    fun text v h => (loadsText_proper text v h).mono fun _ _ => trivial
  have hproper : (.dict nestedArgs : Value (List Char)).Proper fun _ => True := by
    simp only [nestedArgs, linearRope, Value.Proper, Value.ProperEntries, and_true, true_and]
    decide
  exact yarn_overrides hloads denotes_nested (.dict rfl (.cons _ (.value _) .nil)) hproper
    (List.nodup_singleton _) hok

end Profiles
end LlmRio
