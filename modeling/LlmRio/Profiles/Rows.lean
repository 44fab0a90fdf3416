/-
# Rows of stored profiles

The table `model_profiles` with its texts. A registration upserts the profiles
that it has verified, an administrator updates one, and a clone inserts copies
for its model; the other calls only change which rows are active. The text of
a row is that of `profile_to_dict` with further fields after it, or what
`json_set` makes of it when the upsert finds a row with the key of the
profile.

Every row decodes to a profile with the row's id, model and machine
(`RowsOk`), which each call preserves; so `for_model` raises for no model and
returns the saved profile under the id of its row (`stored_profiles`), if the
row is active. An update without `make_default` leaves an inactive row
inactive.

`json_set`, the digest of a profile key and the order of SQLite are parameters.
Of the first is used that it puts the id into an object that `json.dumps` wrote
(`SetsId`); it writes null for a NaN, so the profiles of a registration have
none (`WithoutNan`). Of the second is used that it tells texts apart
(`TellsApart`).

Key definitions: `ProfileTable`, `upsert`, `ProfileTable.update`, `forModel`, `RowsOk`.
Key theorems: `upsert_ok`, `update_ok`, `rowsOk_exec`, `stored_profiles`.
-/
import LlmRio.Lib.Runs
import LlmRio.Lib.Table
import LlmRio.Profiles.Stored
import Mathlib.Data.List.Sort

namespace LlmRio
namespace Profiles

open Json Objects Runs Transactions Utf8

/-- A row of `model_profiles`. -/
structure TextRow (κ : Type) where
  id : Text
  modelId : Text
  machineFingerprint : Text
  profileKey : κ
  profileJson : List Char
  active : Bool := true

/-- The rows, the ids of `model_catalog` that they refer to, and the machine of
`service_state`. -/
structure ProfileTable (κ : Type) where
  rows : List (TextRow κ) := []
  models : List Text := []
  machine : Option Text := none

/-- A text that can be bound to a statement: it has no surrogates. -/
def bindable (text : Text) : Bool := (encode text).isSome

section sql

variable {φ κ : Type} [Conversions φ] (sha256 : List (Text × Value φ) → κ)
  (jsonSet : List Char → Text → Option (List Char)) (numberLe : Value φ → Value φ → Bool)

/-- The fields of `profile_key`. -/
def identifyingNames : List String :=
  ["model_revision", "model_id", "artifact_hashes", "engine", "engine_version", "machine_fingerprint", "gpu_models",
    "topology_class", "gpu_count", "tensor_parallel_size", "pipeline_parallel_size", "dtype", "quantization",
    "max_model_len", "max_num_seqs", "max_num_batched_tokens", "gpu_memory_utilization", "multimodal_limits",
    "tool_parser", "eligible_gpu_sets", "chat_template_hash", "launch_args", "memory_backend"]

def identifyingFields (raw : List (Text × Value φ)) : List (Text × Value φ) :=
  identifyingNames.map fun name => (ofString name, (raw.lookup (ofString name)).getD .null)

/-- `profile_key(raw)`: the digest of `json.dumps(.., sort_keys=True)`. -/
def profileKey (raw : List (Text × Value φ)) : κ := sha256 (identifyingFields raw)

/-- The key and the text that are stored for a dict. -/
def encoded (raw : List (Text × Field φ)) : Option (κ × List Char) := do
  let entries ← jsonObject raw
  let text ← dumpsAscii (.dict entries)
  return (profileKey sha256 entries, text)

variable (s : ProfileTable κ)

/-- `UPDATE model_profiles SET active = ? WHERE ..` -/
def setActiveWhere (select : TextRow κ → Bool) (active : Bool) : ProfileTable κ :=
  { s with rows := s.rows.map fun r => if select r then { r with active := active } else r }

def deactivate (fingerprint modelId : Text) : ProfileTable κ :=
  setActiveWhere s (fun r => r.modelId = modelId ∧ r.machineFingerprint = fingerprint) false

/-! ### for_model -/

/-- `json_extract(profile_json, '$.key')` -/
def jsonExtract (key : String) (r : TextRow κ) : Value φ :=
  match (loads r.profileJson : Except LoadError (Value φ)) with
  | .ok (.dict data) => (data.lookup (ofString key)).getD .null
  | _ => .null

/-- `ORDER BY gpu_count, predicted_tokens_per_second DESC` -/
def rowBefore (r t : TextRow κ) : Bool :=
  let count : TextRow κ → Value φ := jsonExtract "gpu_count"
  let speed : TextRow κ → Value φ := jsonExtract "predicted_tokens_per_second"
  numberLe (count r) (count t) && (! numberLe (count t) (count r) || numberLe (speed t) (speed r))

/-- A profile of a row: its id and the machine are put into what was read. -/
def decodeRow (fingerprint : Text) (r : TextRow κ) : Option (PlacementProfile Text φ) :=
  match (loads r.profileJson : Except LoadError (Value φ)) with
  | .ok (.dict data) =>
    profileFromDict (put (ofString "machine_fingerprint") (.string fingerprint)
      (put (ofString "id") (.string r.id) data))
  | _ => none

/-- `for_model`; `none` if it raises. -/
def forModel (fingerprint modelId : Text) : Option (List (PlacementProfile Text φ)) :=
  ((s.rows.filter fun r => r.modelId = modelId ∧ r.machineFingerprint = fingerprint ∧ r.active).insertionSort
    fun r t => rowBefore numberLe r t).mapM (decodeRow fingerprint)

end sql

/-! ### Calls -/

section calls

variable {φ κ : Type} [Conversions φ] [DecidableEq κ] (sha256 : List (Text × Value φ) → κ)
  (jsonSet : List Char → Text → Option (List Char)) (s : ProfileTable κ)

/-- An INSERT; `none` if it raises. -/
def insertRow (row : TextRow κ) : Option (ProfileTable κ) :=
  if ¬ (bindable row.id ∧ bindable row.modelId ∧ bindable row.machineFingerprint) then none
  else if (s.rows.any fun r => r.id = row.id ∨ r.profileKey = row.profileKey) ∨ row.modelId ∉ s.models then none
  else some { s with rows := s.rows ++ [row] }

/-- DO UPDATE SET: a row with the key gets the text with its own id in it, and is
active again. -/
def conflictRow (key : κ) (text : List Char) (r : TextRow κ) : Option (TextRow κ) :=
  if r.profileKey = key then (jsonSet text r.id).map fun text => { r with profileJson := text, active := true }
  else some r

/-- The INSERT of a verified profile, ON CONFLICT(profile_key) DO UPDATE: the
key is looked for first, and when it is there nothing is inserted, so that it
does not matter whether the id is there too. -/
def upsert (p : PlacementProfile Text φ) : Option (ProfileTable κ) := do
  let (key, text) ← encoded sha256 (profileToDict p)
  if s.rows.any (·.profileKey = key) then
    if ¬ (bindable p.id ∧ bindable p.modelId ∧ bindable p.machineFingerprint) then none
    else do
      let rows ← s.rows.mapM (conflictRow jsonSet key text)
      return { s with rows := rows }
  else insertRow s { id := p.id, modelId := p.modelId, machineFingerprint := p.machineFingerprint, profileKey := key,
                     profileJson := text }

/-- The profiles of a registration. -/
def register (fingerprint modelId : Text) (profiles : List (PlacementProfile Text φ)) : Option (ProfileTable κ) :=
  if profiles = [] then none else profiles.foldlM (upsert sha256 jsonSet) (deactivate s fingerprint modelId)

/-- What an administrator's update adds to the dict. -/
def overridden (now : Text) (raw : List (Text × Field φ)) : List (Text × Field φ) :=
  put (ofString "administrator_override_at") (.value (.string now))
    (put (ofString "administrator_override") (.value (.bool true)) raw)

/-- `SET profile_key = ?, profile_json = ?, active = ?` -/
def overwriteRow (key : κ) (text : List Char) (active : Bool) (r : TextRow κ) : TextRow κ :=
  { r with profileKey := key, profileJson := text, active := active }

/-- `update`; the flag is False when there is no such row. -/
def ProfileTable.update (fingerprint : Text) (p : PlacementProfile Text φ) (makeDefault : Bool) (now : Text) :
    Option (ProfileTable κ × Bool) := do
  let (key, text) ← encoded sha256 (overridden now (profileToDict p))
  match s.rows.find? fun r => r.id = p.id ∧ r.modelId = p.modelId ∧ r.machineFingerprint = fingerprint with
  | none => return (s, false)
  | some existing =>
    if s.rows.any fun r => r.id ≠ p.id ∧ r.profileKey = key then none
    else
      let s := if makeDefault then deactivate s fingerprint p.modelId else s
      return ({ s with
        rows := Table.modify TextRow.id p.id (overwriteRow key text (makeDefault || existing.active)) s.rows }, true)

/-- The model of a clone and the copies of its profiles, each with the id of
the profile that it was copied from. -/
def clone (modelId now : Text) (copies : List (PlacementProfile Text φ × Text)) : Option (ProfileTable κ) :=
  copies.foldlM (fun s (p, source) => do
    let (key, text) ← encoded sha256
      (put (ofString "cloned_from_profile_id") (.value (.string source)) (overridden now (profileToDict p)))
    insertRow s { id := p.id, modelId := modelId, machineFingerprint := p.machineFingerprint, profileKey := key,
                  profileJson := text }) { s with models := s.models ++ [modelId] }

/-- The calls that write the table, with what they are called with. -/
inductive TableOp (φ : Type)
  | addModel (modelId : Text)
  | register (fingerprint modelId : Text) (profiles : List (PlacementProfile Text φ))
  | update (fingerprint : Text) (p : PlacementProfile Text φ) (makeDefault : Bool) (now : Text)
  | clone (modelId now : Text) (copies : List (PlacementProfile Text φ × Text))
  | setActive (fingerprint modelId profileId : Text) (active : Bool)
  | startup (fingerprint : Text)

/-- One call; `none` if it raises. -/
def call : TableOp φ → Option (ProfileTable κ)
  | .addModel modelId => some { s with models := s.models ++ [modelId] }
  | .register fingerprint modelId profiles => register sha256 jsonSet s fingerprint modelId profiles
  | .update fingerprint p makeDefault now => (s.update sha256 fingerprint p makeDefault now).map (·.1)
  | .clone modelId now copies => clone sha256 s modelId now copies
  | .setActive fingerprint modelId profileId active =>
    some (setActiveWhere s
      (fun r => r.id = profileId ∧ r.modelId = modelId ∧ r.machineFingerprint = fingerprint) active)
  | .startup fingerprint =>
    let moved := s.machine.any fun previous => previous ≠ [] ∧ previous ≠ fingerprint
    let s' := if moved then setActiveWhere s (fun r => r.machineFingerprint ≠ fingerprint) false else s
    some { s' with machine := some fingerprint }

/-- A call that raises is rolled back. -/
def tableStep (op : TableOp φ) : Option (ProfileTable κ) := some ((call sha256 jsonSet s op).getD s)

end calls

/-! ### What a row holds -/

section rows

variable {φ κ : Type} [Conversions φ] {sha256 : List (Text × Value φ) → κ}

/-- Profiles with the same digest have the same texts in their fields. -/
def TellsApart (sha256 : List (Text × Value φ) → κ) : Prop :=
  ∀ f g : List (Text × Value φ), (.dict f : Value φ).Proper Joined → (.dict g : Value φ).Proper Joined →
    sha256 f = sha256 g → ∀ key text, f.lookup key = some (.string text) → g.lookup key = some (.string text)

/-- `json_set(text, '$.id', id)` puts the id into an object without NaN that
`json.dumps` wrote. -/
def SetsId (φ : Type) [Conversions φ] (jsonSet : List Char → Text → Option (List Char)) : Prop :=
  ∀ (text text' : List Char) (data : List (Text × Value φ)) (id : Text), (.dict data : Value φ).Proper Joined →
    (.dict data : Value φ).hasNan = false → dumpsAscii (.dict data) = some text → bindable id = true →
    jsonSet text id = some text' → loads text' = .ok (.dict (put (ofString "id") (.string id) data))

def WithoutNan (p : PlacementProfile Text φ) : Prop := (.dict (entriesOf p) : Value φ).hasNan = false

/-- The row holds the profile, with further fields after it. -/
structure Stored (sha256 : List (Text × Value φ) → κ) (r : TextRow κ) (p : PlacementProfile Text φ)
    (extra : List (Text × Value φ)) : Prop where
  text : loads r.profileJson = .ok (.dict (entriesOf p ++ extra))
  id : p.id = r.id
  modelId : p.modelId = r.modelId
  machine : p.machineFingerprint = r.machineFingerprint
  key : r.profileKey = profileKey sha256 (entriesOf p ++ extra)

/-- Every row holds a profile. -/
structure RowsOk (sha256 : List (Text × Value φ) → κ) (s : ProfileTable κ) : Prop where
  ids : (s.rows.map (·.id)).Nodup
  bindable : ∀ r ∈ s.rows, bindable r.id = true
  stored : ∀ r ∈ s.rows, ∃ p extra, Stored sha256 r p extra

variable {s s' : ProfileTable κ} {r : TextRow κ} {p q : PlacementProfile Text φ}
  {extra extra' : List (Text × Value φ)}

theorem Stored.decodeRow (h : Stored sha256 r p extra) : decodeRow p.machineFingerprint r = some p := by
  rw [Profiles.decodeRow, h.text]
  show profileFromDict (put _ _ (put (ofString "id") (.string r.id) (entriesOf p ++ extra))) = some p
  rw [put_id, put_machineFingerprint, profileFromDict_entries, ← h.id]

/-- What is read from a text is proper. -/
theorem Stored.proper (h : Stored sha256 r p extra) : (.dict (entriesOf p ++ extra) : Value φ).Proper Joined :=
  loads_proper h.text

omit [Conversions φ] in
theorem proper_identifyingFields {raw : List (Text × Value φ)} (h : (.dict raw : Value φ).Proper Joined) :
    (.dict (identifyingFields raw) : Value φ).Proper Joined := by
  have hkeys : (identifyingFields raw).map Prod.fst = identifyingNames.map ofString := rfl
  rw [Value.Proper] at h ⊢
  refine ⟨?_, properEntries_of_forall ?_ ?_⟩
  · rw [hkeys]
    exact List.Nodup.map ofString_injective (by decide)
  · rw [hkeys]
    intro k hk
    obtain ⟨name, -, rfl⟩ := List.mem_map.mp hk
    exact joined_ofString name
  · intro x hx
    obtain ⟨e, he, rfl⟩ := List.mem_map.mp hx
    obtain ⟨name, -, rfl⟩ := List.mem_map.mp he
    show ((raw.lookup (ofString name)).getD .null).Proper Joined
    cases hlookup : raw.lookup (ofString name) with
    | none => trivial
    | some v => exact h.2.lookup hlookup

omit [Conversions φ] in
theorem lookup_identifyingFields (raw : List (Text × Value φ)) {name : String} (h : name ∈ identifyingNames) :
    (identifyingFields raw).lookup (ofString name) = some ((raw.lookup (ofString name)).getD .null) := by
  unfold identifyingFields
  generalize identifyingNames = names at h ⊢
  induction names with
  | nil => cases h
  | cons n names ih =>
    rw [List.map_cons, lookup_cons]
    split
    · rename_i heq
      rw [ofString_injective heq]
    · rename_i hne
      exact ih ((List.mem_cons.mp h).resolve_left fun heq => hne (congrArg ofString heq))

omit [Conversions φ] in
/-- Profiles with the same key are of the same model and machine. -/
theorem same_owner (hsha : TellsApart sha256) (hp : (.dict (entriesOf p ++ extra) : Value φ).Proper Joined)
    (hq : (.dict (entriesOf q ++ extra') : Value φ).Proper Joined)
    (hkey : profileKey sha256 (entriesOf p ++ extra) = profileKey sha256 (entriesOf q ++ extra')) :
    p.modelId = q.modelId ∧ p.machineFingerprint = q.machineFingerprint := by
  have htexts := hsha _ _ (proper_identifyingFields hp) (proper_identifyingFields hq) hkey
  have hmodel := htexts (ofString "model_id") p.modelId (lookup_identifyingFields _ (by decide))
  have hmachine := htexts (ofString "machine_fingerprint") p.machineFingerprint
    (lookup_identifyingFields _ (by decide))
  rw [lookup_identifyingFields _ (by decide)] at hmodel hmachine
  exact ⟨(Value.string.inj (Option.some.inj hmodel)).symm, (Value.string.inj (Option.some.inj hmachine)).symm⟩

/-- `for_model` returns the profile of an active row. -/
theorem RowsOk.forModel (h : RowsOk sha256 s) (numberLe : Value φ → Value φ → Bool) (hr : r ∈ s.rows)
    (hactive : r.active = true) (hp : Stored sha256 r p extra) :
    ∃ profiles, forModel numberLe s p.machineFingerprint p.modelId = some profiles ∧ p ∈ profiles := by
  have hall : ∀ t ∈ (s.rows.filter fun t => t.modelId = p.modelId ∧ t.machineFingerprint = p.machineFingerprint ∧
      t.active).insertionSort fun t u => rowBefore numberLe t u,
      ∃ q : PlacementProfile Text φ, decodeRow p.machineFingerprint t = some q := by
    intro t ht
    rw [List.mem_insertionSort, List.mem_filter] at ht
    obtain ⟨q, extra', hq⟩ := h.stored t ht.1
    have hmachine : t.machineFingerprint = p.machineFingerprint := (of_decide_eq_true ht.2).2.1
    exact ⟨q, hmachine ▸ hq.machine ▸ hq.decodeRow⟩
  obtain ⟨profiles, hprofiles, hmem⟩ := exists_mapM hall
  refine ⟨profiles, hprofiles, hmem r ?_ p hp.decodeRow⟩
  rw [List.mem_insertionSort, List.mem_filter]
  exact ⟨hr, decide_eq_true ⟨hp.modelId.symm, hp.machine.symm, hactive⟩⟩

theorem forModel_single (numberLe : Value φ → Value φ → Bool) {fingerprint modelId : Text} (hs : s.rows = [r])
    (hr : r.modelId = modelId ∧ r.machineFingerprint = fingerprint ∧ r.active = true)
    (hp : Profiles.decodeRow fingerprint r = some p) : forModel numberLe s fingerprint modelId = some [p] := by
  have hfilter : [r].filter (fun r => r.modelId = modelId ∧ r.machineFingerprint = fingerprint ∧ r.active) = [r] := by
    rw [List.filter_eq_self]
    intro t ht
    rw [List.mem_singleton.mp ht]
    exact decide_eq_true hr
  rw [forModel, hs, hfilter, List.insertionSort_cons, List.insertionSort_nil, List.orderedInsert_nil, List.mapM_cons,
    hp]
  rfl

/-! ### What the calls do to the rows -/

theorem RowsOk.setActiveWhere (h : RowsOk sha256 s) (select : TextRow κ → Bool) (active : Bool) :
    RowsOk sha256 (setActiveWhere s select active) := by
  refine ⟨?_, List.forall_mem_map.mpr fun r hr => ?_, List.forall_mem_map.mpr fun r hr => ?_⟩
  · have hids : (Profiles.setActiveWhere s select active).rows.map (·.id) = s.rows.map (·.id) := by
      rw [Profiles.setActiveWhere, List.map_map]
      refine List.map_congr_left fun r _ => ?_
      rw [Function.comp_apply]
      split <;> rfl
    rw [hids]
    exact h.ids
  · split <;> exact h.bindable r hr
  · obtain ⟨p, extra, hp⟩ := h.stored r hr
    refine ⟨p, extra, ?_⟩
    split
    · exact ⟨hp.text, hp.id, hp.modelId, hp.machine, hp.key⟩
    · exact hp

/-- What is stored for the dict of a profile with further fields. -/
theorem encoded_eq_some (extra : List (Text × Value φ)) {key : κ} {text : List Char}
    (h : encoded sha256 (profileToDict p ++ extra.map fun e => (e.1, .value e.2)) = some (key, text)) :
    dumpsAscii (.dict (entriesOf p ++ extra)) = some text ∧ key = profileKey sha256 (entriesOf p ++ extra) := by
  unfold encoded at h
  rw [jsonObject_append] at h
  obtain ⟨entries, hentries, h⟩ := Option.bind_eq_some_iff.mp h
  obtain ⟨text', htext, h⟩ := Option.bind_eq_some_iff.mp h
  obtain rfl := Option.some.inj hentries
  obtain ⟨rfl, rfl⟩ := Prod.mk.inj (Option.some.inj h)
  exact ⟨htext, rfl⟩

variable [DecidableEq κ]

theorem RowsOk.insertRow {row : TextRow κ} (h : RowsOk sha256 s) (hok : insertRow s row = some s')
    (hp : Stored sha256 row p extra) : s' = { s with rows := s.rows ++ [row] } ∧ RowsOk sha256 s' := by
  unfold Profiles.insertRow at hok
  split at hok
  · cases hok
  · rename_i hbind
    split at hok
    · cases hok
    · rename_i hfresh
      obtain rfl := Option.some.inj hok
      rw [not_not] at hbind
      rw [not_or, List.any_eq_true] at hfresh
      have hid : row.id ∉ s.rows.map (·.id) := by
        intro hin
        obtain ⟨r, hr, hid⟩ := List.mem_map.mp hin
        exact hfresh.1 ⟨r, hr, by simp [hid]⟩
      refine ⟨rfl, ?_, ?_, ?_⟩
      · rw [List.map_append, List.map_singleton, List.nodup_append]
        refine ⟨h.ids, List.nodup_singleton _, fun a ha b hb => ?_⟩
        rw [List.mem_singleton.mp hb]
        exact fun heq => hid (heq ▸ ha)
      · intro r hr
        rcases List.mem_append.mp hr with hr | hr
        · exact h.bindable r hr
        · rw [List.mem_singleton.mp hr]
          exact hbind.1
      · intro r hr
        rcases List.mem_append.mp hr with hr | hr
        · exact h.stored r hr
        · rw [List.mem_singleton.mp hr]
          exact ⟨p, extra, hp⟩

omit [Conversions φ] [DecidableEq κ] in
/-- A field that does not identify a profile is not in its key. -/
theorem profileKey_put {name : String} (h : name ∉ identifyingNames) (x : Value φ) (raw : List (Text × Value φ)) :
    profileKey sha256 (put (ofString name) x raw) = profileKey sha256 raw := by
  have hfields : identifyingFields (put (ofString name) x raw) = identifyingFields raw := by
    refine List.map_congr_left fun n hn => ?_
    have hne : ofString n ≠ ofString name := fun heq => h (ofString_injective heq ▸ hn)
    rw [lookup_put, if_neg hne]
  rw [profileKey, profileKey, hfields]

omit [Conversions φ] [DecidableEq κ] in
theorem profileKey_id (p : PlacementProfile Text φ) (id : Text) :
    profileKey sha256 (entriesOf { p with id := id } ++ []) = profileKey sha256 (entriesOf p) := by
  rw [← put_id, profileKey_put (by decide), List.append_nil]

omit [DecidableEq κ] in
theorem encoded_profile {text : List Char} (htext : dumpsAscii (.dict (entriesOf p)) = some text) :
    encoded sha256 (profileToDict p) = some (profileKey sha256 (entriesOf p), text) := by
  rw [encoded, jsonObject_profileToDict, Option.bind_eq_bind, Option.bind_some, htext]
  rfl

/-- An upsert of a profile with a new key. -/
theorem upsert_new {jsonSet : List Char → Text → Option (List Char)} {key : κ} {text : List Char}
    (hencoded : encoded sha256 (profileToDict p) = some (key, text))
    (hnone : s.rows.any (·.profileKey = key) = false) :
    upsert sha256 jsonSet s p =
      insertRow s { id := p.id, modelId := p.modelId, machineFingerprint := p.machineFingerprint, profileKey := key,
                    profileJson := text } := by
  rw [upsert, hencoded, Option.bind_eq_bind, Option.bind_some]
  dsimp only
  rw [if_neg (by rw [hnone]; exact Bool.false_ne_true)]

/-- An upsert onto a key. -/
theorem upsert_conflict {jsonSet : List Char → Text → Option (List Char)} {key : κ} {text : List Char}
    {rows : List (TextRow κ)} (hencoded : encoded sha256 (profileToDict p) = some (key, text))
    (hany : s.rows.any (·.profileKey = key) = true)
    (hbound : bindable p.id ∧ bindable p.modelId ∧ bindable p.machineFingerprint)
    (hrows : s.rows.mapM (conflictRow jsonSet key text) = some rows) :
    upsert sha256 jsonSet s p = some { s with rows := rows } := by
  rw [upsert, hencoded, Option.bind_eq_bind, Option.bind_some]
  dsimp only
  rw [if_pos hany, if_neg (not_not_intro hbound), hrows]
  rfl

/-- An update of the only row that is not to become the default. -/
theorem update_row {fingerprint now : Text} {key : κ} {text : List Char}
    (hencoded : encoded sha256 (overridden now (profileToDict p)) = some (key, text)) (hs : s.rows = [r])
    (hr : r.id = p.id ∧ r.modelId = p.modelId ∧ r.machineFingerprint = fingerprint) :
    s.update sha256 fingerprint p false now = some ({ s with rows := [overwriteRow key text r.active r] }, true) := by
  have hfind : s.rows.find? (fun r => decide (r.id = p.id ∧ r.modelId = p.modelId ∧
      r.machineFingerprint = fingerprint)) = some r := by
    rw [hs]
    exact List.find?_cons_of_pos (decide_eq_true hr)
  have hkeys : ¬ (s.rows.any fun r => r.id ≠ p.id ∧ r.profileKey = key) = true := by
    rw [hs, List.any_cons, List.any_nil, Bool.or_false, decide_eq_true_eq]
    exact fun h => h.1 hr.1
  rw [ProfileTable.update, hencoded, Option.bind_eq_bind, Option.bind_some]
  dsimp only
  rw [hfind]
  dsimp only
  rw [if_neg hkeys]
  simp only [Bool.false_eq_true, if_false, Bool.false_or]
  rw [hs, Table.modify, List.map_singleton, if_pos hr.1]
  rfl

variable [LawfulInterpreter φ]

variable {jsonSet : List Char → Text → Option (List Char)} {fingerprint modelId : Text}

omit [LawfulInterpreter φ] in
/-- A row with the key of the profile comes to hold it, under its own id. -/
theorem conflictRow_ok (hsha : TellsApart sha256) (hset : SetsId φ jsonSet) (h : RowsOk sha256 s)
    (hproper : (.dict (entriesOf p ++ []) : Value φ).Proper Joined) (hnan : WithoutNan p) {text : List Char}
    (htext : dumpsAscii (.dict (entriesOf p ++ [])) = some text) {r r' : TextRow κ} (hr : r ∈ s.rows)
    (hr' : conflictRow jsonSet (profileKey sha256 (entriesOf p)) text r = some r') :
    (r.profileKey ≠ profileKey sha256 (entriesOf p) ∧ r' = r) ∨
      (r.profileKey = profileKey sha256 (entriesOf p) ∧ r'.id = r.id ∧ r'.active = true ∧
        Stored sha256 r' { p with id := r.id } []) := by
  unfold conflictRow at hr'
  split at hr'
  · rename_i hkey
    obtain ⟨text', htext', rfl⟩ := Option.map_eq_some_iff.mp hr'
    obtain ⟨q, extra, hq⟩ := h.stored r hr
    have hsame : p.modelId = q.modelId ∧ p.machineFingerprint = q.machineFingerprint :=
      same_owner hsha hproper hq.proper (by rw [List.append_nil, ← hkey, hq.key])
    have hloads := hset text text' _ r.id hproper (by rw [List.append_nil]; exact hnan) htext (h.bindable r hr) htext'
    rw [put_id] at hloads
    have hkey' : r.profileKey = profileKey sha256 (entriesOf { p with id := r.id } ++ []) := by
      rw [profileKey_id, hkey]
    exact .inr ⟨hkey, rfl, rfl, hloads, rfl, hsame.1.trans hq.modelId, hsame.2.trans hq.machine, hkey'⟩
  · rename_i hkey
    exact .inl ⟨hkey, (Option.some.inj hr').symm⟩

omit [Conversions φ] [LawfulInterpreter φ] in
theorem conflictRow_id {key : κ} {text : List Char} (r r' : TextRow κ)
    (h : conflictRow jsonSet key text r = some r') : r'.id = r.id := by
  unfold conflictRow at h
  split at h
  · obtain ⟨text', -, rfl⟩ := Option.map_eq_some_iff.mp h
    rfl
  · rw [Option.some.inj h]

/-- An upsert saves the profile under the id of the row with its key, or under
its own, and leaves the rows with other keys alone. -/
theorem upsert_ok (hsha : TellsApart sha256) (hset : SetsId φ jsonSet) (h : RowsOk sha256 s)
    (hp : Strings Joined p ∧ WithoutNan p) (hok : upsert sha256 jsonSet s p = some s') :
    RowsOk sha256 s' ∧
      (∀ r ∈ s.rows, r.profileKey = profileKey sha256 (entriesOf p) →
        ∃ r' ∈ s'.rows, r'.id = r.id ∧ r'.active = true ∧ Stored sha256 r' { p with id := r.id } []) ∧
      ((∀ r ∈ s.rows, r.profileKey ≠ profileKey sha256 (entriesOf p)) →
        ∃ r' ∈ s'.rows, r'.id = p.id ∧ r'.active = true ∧ Stored sha256 r' p []) ∧
      ∀ r ∈ s.rows, r.profileKey ≠ profileKey sha256 (entriesOf p) → r ∈ s'.rows := by
  have hproper : (.dict (entriesOf p ++ []) : Value φ).Proper Joined := by
    rw [List.append_nil]
    exact proper_entriesOf joined_ofString hp.1
  unfold upsert at hok
  obtain ⟨⟨key, text⟩, hencoded, hok⟩ := Option.bind_eq_some_iff.mp hok
  rw [← List.append_nil (profileToDict p)] at hencoded
  obtain ⟨htext, hkey⟩ := encoded_eq_some [] hencoded
  rw [List.append_nil] at hkey
  subst hkey
  dsimp only at hok
  split at hok
  · rename_i hany
    split at hok
    · cases hok
    · obtain ⟨rows, hrows, hok⟩ := Option.bind_eq_some_iff.mp hok
      obtain rfl := Option.some.inj hok
      obtain ⟨hids, hfrom, hto⟩ := mapM_eq_some conflictRow_id hrows
      refine ⟨⟨hids ▸ h.ids, fun r' hr' => ?_, fun r' hr' => ?_⟩, fun r hr hkey => ?_, fun hnone => ?_,
        fun r hr hkey => ?_⟩
      · obtain ⟨r, hr, hrr⟩ := hfrom r' hr'
        rw [conflictRow_id r r' hrr]
        exact h.bindable r hr
      · obtain ⟨r, hr, hrr⟩ := hfrom r' hr'
        rcases conflictRow_ok hsha hset h hproper hp.2 htext hr hrr with ⟨-, rfl⟩ | ⟨-, -, -, hstored⟩
        · exact h.stored r' hr
        · exact ⟨_, _, hstored⟩
      · obtain ⟨r', hr', hrr⟩ := hto r hr
        rcases conflictRow_ok hsha hset h hproper hp.2 htext hr hrr with ⟨hne, -⟩ | ⟨-, hid, hactive, hstored⟩
        · exact absurd hkey hne
        · exact ⟨r', hr', hid, hactive, hstored⟩
      · obtain ⟨r, hr, hkey⟩ := List.any_eq_true.mp hany
        exact absurd (of_decide_eq_true hkey) (hnone r hr)
      · obtain ⟨r', hr', hrr⟩ := hto r hr
        rcases conflictRow_ok hsha hset h hproper hp.2 htext hr hrr with ⟨-, rfl⟩ | ⟨hsame, -⟩
        · exact hr'
        · exact absurd hsame hkey
  · rename_i hany
    have hstored : Stored sha256 ⟨p.id, p.modelId, p.machineFingerprint, profileKey sha256 (entriesOf p), text, true⟩
        p [] :=
      ⟨loads_dumpsAscii hproper htext, rfl, rfl, rfl, by rw [List.append_nil]⟩
    obtain ⟨rfl, hrows⟩ := h.insertRow hok hstored
    refine ⟨hrows, fun r hr hkey => ?_, fun _ => ⟨_, List.mem_append_right _ (List.mem_singleton_self _), rfl, rfl,
      hstored⟩, fun r hr _ => List.mem_append_left _ hr⟩
    exact absurd (List.any_eq_true.mpr ⟨r, hr, decide_eq_true hkey⟩) hany

/-- The upserts of a registration leave the rows with other keys alone. -/
theorem upserts_ok (hsha : TellsApart sha256) (hset : SetsId φ jsonSet) {ps : List (PlacementProfile Text φ)}
    (h : RowsOk sha256 s) (hps : ∀ p ∈ ps, Strings Joined p ∧ WithoutNan p)
    (hok : ps.foldlM (upsert sha256 jsonSet) s = some s') : RowsOk sha256 s' ∧
      ∀ r ∈ s.rows, (∀ p ∈ ps, r.profileKey ≠ profileKey sha256 (entriesOf p)) → r ∈ s'.rows := by
  induction ps generalizing s with
  | nil =>
    obtain rfl := Option.some.inj hok
    exact ⟨h, fun r hr _ => hr⟩
  | cons p ps ih =>
    rw [List.foldlM_cons] at hok
    obtain ⟨t, ht, hok⟩ := Option.bind_eq_some_iff.mp hok
    obtain ⟨hrows, -, -, hkeep⟩ := upsert_ok hsha hset h (hps p List.mem_cons_self) ht
    obtain ⟨hrows', hkeep'⟩ := ih hrows (fun q hq => hps q (List.mem_cons_of_mem p hq)) hok
    exact ⟨hrows', fun r hr hne => hkeep' r (hkeep r hr (hne p List.mem_cons_self)) fun q hq =>
      hne q (List.mem_cons_of_mem p hq)⟩

/-- An upsert leaves an active row of the profile. -/
theorem upsert_saves (hsha : TellsApart sha256) (hset : SetsId φ jsonSet) (h : RowsOk sha256 s)
    (hp : Strings Joined p ∧ WithoutNan p) (hok : upsert sha256 jsonSet s p = some s') :
    ∃ r ∈ s'.rows, r.active = true ∧ Stored sha256 r { p with id := r.id } [] := by
  obtain ⟨-, hold, hnew, -⟩ := upsert_ok hsha hset h hp hok
  by_cases hkey : ∃ r ∈ s.rows, r.profileKey = profileKey sha256 (entriesOf p)
  · obtain ⟨r, hr, hkey⟩ := hkey
    obtain ⟨r', hr', hid, hactive, hstored⟩ := hold r hr hkey
    exact ⟨r', hr', hactive, hid ▸ hstored⟩
  · obtain ⟨r', hr', hid, hactive, hstored⟩ := hnew fun r hr heq => hkey ⟨r, hr, heq⟩
    exact ⟨r', hr', hactive, hid ▸ hstored⟩

/-- A registration leaves an active row of each profile that no later one of its
profiles has the key of. -/
theorem register_saves (hsha : TellsApart sha256) (hset : SetsId φ jsonSet) (h : RowsOk sha256 s)
    {before after : List (PlacementProfile Text φ)} (hps : ∀ q ∈ before ++ p :: after, Strings Joined q ∧ WithoutNan q)
    (hlast : ∀ q ∈ after, profileKey sha256 (entriesOf q) ≠ profileKey sha256 (entriesOf p))
    (hok : register sha256 jsonSet s fingerprint modelId (before ++ p :: after) = some s') :
    ∃ r ∈ s'.rows, r.active = true ∧ Stored sha256 r { p with id := r.id } [] := by
  unfold register at hok
  rw [if_neg (by simp), List.foldlM_append] at hok
  obtain ⟨t, ht, hok⟩ := Option.bind_eq_some_iff.mp hok
  rw [List.foldlM_cons] at hok
  obtain ⟨u, hu, hok⟩ := Option.bind_eq_some_iff.mp hok
  obtain ⟨hrows, -⟩ := upserts_ok hsha hset (h.setActiveWhere _ false)
    (fun q hq => hps q (List.mem_append_left _ hq)) ht
  have hp := hps p (List.mem_append_right _ List.mem_cons_self)
  obtain ⟨r, hr, hactive, hstored⟩ := upsert_saves hsha hset hrows hp hu
  have hrows' := (upsert_ok hsha hset hrows hp hu).1
  obtain ⟨-, hkeep⟩ := upserts_ok hsha hset hrows'
    (fun q hq => hps q (List.mem_append_right _ (List.mem_cons_of_mem p hq))) hok
  refine ⟨r, hkeep r hr fun q hq heq => hlast q hq ?_, hactive, hstored⟩
  rw [← heq, hstored.key, profileKey_id]

omit [DecidableEq κ] in
/-- What is stored for a profile with further fields, under other names, reads
back. -/
theorem encoded_append {names : List String} {key : κ} {text : List Char} (hp : Strings Joined p)
    (hnodup : (fieldNames ++ names).Nodup) (hkeys : extra.map Prod.fst = names.map ofString)
    (hvalues : ∀ x ∈ extra.map Prod.snd, x.Proper Joined)
    (h : encoded sha256 (profileToDict p ++ extra.map fun e => (e.1, .value e.2)) = some (key, text)) :
    loads text = .ok (.dict (entriesOf p ++ extra)) ∧ key = profileKey sha256 (entriesOf p ++ extra) := by
  obtain ⟨htext, hkey⟩ := encoded_eq_some extra h
  exact ⟨loads_dumpsAscii (proper_append joined_ofString hp hnodup hkeys hvalues) htext, hkey⟩

/-- The fields that an administrator's update adds. -/
def overriddenFields (now : Text) : List (Text × Value φ) :=
  [(ofString "administrator_override", .bool true), (ofString "administrator_override_at", .string now)]

omit [Conversions φ] [DecidableEq κ] [LawfulInterpreter φ] in
theorem put_after {α : Type} {raw : List (Text × α)} {names : List String} (h : raw.map Prod.fst = names.map ofString)
    {name : String} (hname : name ∉ names) (x : α) :
    put (ofString name) x raw = raw ++ [(ofString name, x)] := by
  refine put_of_notMem x ?_
  rw [h]
  intro hin
  obtain ⟨n, hn, heq⟩ := List.mem_map.mp hin
  exact hname (ofString_injective heq ▸ hn)

omit [Conversions φ] [DecidableEq κ] [LawfulInterpreter φ] in
theorem overridden_profileToDict (p : PlacementProfile Text φ) (now : Text) :
    overridden now (profileToDict p) =
      profileToDict p ++ (overriddenFields now).map fun e => (e.1, .value e.2) := by
  have hkeys := keys_profileToDict p
  have hkeys' : (profileToDict p ++ [(ofString "administrator_override", Field.value (.bool true))]).map Prod.fst =
      (fieldNames ++ ["administrator_override"]).map ofString := by
    rw [List.map_append, List.map_append, hkeys]
    rfl
  rw [overridden, put_after hkeys (by decide), put_after hkeys' (by decide), List.append_assoc]
  rfl

omit [DecidableEq κ] in
theorem encoded_overridden {now : Text} {key : κ} {text : List Char} (hp : Strings Joined p) (hnow : Joined now)
    (h : encoded sha256 (overridden now (profileToDict p)) = some (key, text)) :
    loads text = .ok (.dict (entriesOf p ++ overriddenFields now)) ∧
      key = profileKey sha256 (entriesOf p ++ overriddenFields now) := by
  rw [overridden_profileToDict] at h
  have hnodup : (fieldNames ++ ["administrator_override", "administrator_override_at"]).Nodup := by decide
  refine encoded_append hp hnodup rfl (fun x hx => ?_) h
  simp only [overriddenFields, List.map_cons, List.map_nil, List.mem_cons, List.not_mem_nil, or_false] at hx
  rcases hx with rfl | rfl
  · trivial
  · exact hnow

omit [DecidableEq κ] [LawfulInterpreter φ] in
/-- The row of a profile comes to hold it. -/
theorem RowsOk.modify (h : RowsOk sha256 s) {e : TextRow κ} (he : e ∈ s.rows) (hid : p.id = e.id)
    (hmodel : p.modelId = e.modelId) (hmachine : p.machineFingerprint = e.machineFingerprint) {text : List Char}
    (htext : loads text = .ok (.dict (entriesOf p ++ extra))) (active : Bool) :
    RowsOk sha256 { s with
      rows := Table.modify TextRow.id p.id
        (overwriteRow (profileKey sha256 (entriesOf p ++ extra)) text active) s.rows } ∧
      Stored sha256 (overwriteRow (profileKey sha256 (entriesOf p ++ extra)) text active e) p extra := by
  have hstored : Stored sha256 (overwriteRow (profileKey sha256 (entriesOf p ++ extra)) text active e) p extra :=
    ⟨htext, hid, hmodel, hmachine, rfl⟩
  have hkeep : ∀ r : TextRow κ, (overwriteRow (profileKey sha256 (entriesOf p ++ extra)) text active r).id = r.id :=
    fun r => rfl
  refine ⟨⟨?_, fun r hr => ?_, fun r hr => ?_⟩, hstored⟩
  · have hids : (Table.modify TextRow.id p.id
        (overwriteRow (profileKey sha256 (entriesOf p ++ extra)) text active) s.rows).map TextRow.id =
          s.rows.map TextRow.id := Table.map_key_modify (fun r hr => (hkeep r).trans hr) s.rows
    exact hids ▸ h.ids
  · rcases Table.mem_modify.mp hr with ⟨hr, -⟩ | ⟨t, ht, -, rfl⟩
    · exact h.bindable r hr
    · exact h.bindable t ht
  · rcases Table.mem_modify.mp hr with ⟨hr, -⟩ | ⟨t, ht, htid, rfl⟩
    · exact h.stored r hr
    · obtain rfl : t = e := List.inj_on_of_nodup_map h.ids ht he (htid.trans hid)
      exact ⟨p, extra, hstored⟩

/-- An update changes the row with the id of the profile only; if the flag is
True, that row holds the profile, and it is active if it was or is to be the
default. -/
theorem update_ok (h : RowsOk sha256 s) (hp : Strings Joined p) (hmachine : p.machineFingerprint = fingerprint)
    {makeDefault : Bool} {now : Text} (hnow : Joined now) {saved : Bool}
    (hok : s.update sha256 fingerprint p makeDefault now = some (s', saved)) :
    RowsOk sha256 s' ∧ (saved = true → ∃ r ∈ s'.rows, Stored sha256 r p (overriddenFields now) ∧
      ((makeDefault = true ∨ ∃ r ∈ s.rows, r.id = p.id ∧ r.active = true) → r.active = true)) := by
  unfold ProfileTable.update at hok
  obtain ⟨⟨key, text⟩, hencoded, hok⟩ := Option.bind_eq_some_iff.mp hok
  obtain ⟨htext, hkey⟩ := encoded_overridden hp hnow hencoded
  dsimp only at hok
  split at hok
  · obtain ⟨rfl, rfl⟩ := Prod.mk.inj (Option.some.inj hok)
    exact ⟨h, nofun⟩
  · rename_i existing hfind
    have hexisting := List.mem_of_find?_eq_some hfind
    have hselect := List.find?_some hfind
    simp only [decide_eq_true_eq] at hselect
    obtain ⟨hid, hmodel, hfp⟩ := hselect
    split at hok
    · cases hok
    · obtain ⟨rfl, rfl⟩ := Prod.mk.inj (Option.some.inj hok)
      have hrows : RowsOk sha256 (if makeDefault = true then deactivate s fingerprint p.modelId else s) := by
        split
        · exact h.setActiveWhere _ false
        · exact h
      obtain ⟨e, he, heid, hemodel, hefp⟩ : ∃ e ∈ (if makeDefault = true then deactivate s fingerprint p.modelId else
          s).rows, e.id = p.id ∧ e.modelId = p.modelId ∧ e.machineFingerprint = fingerprint := by
        split
        · refine ⟨_, List.mem_map_of_mem hexisting, ?_⟩
          split <;> exact ⟨hid, hmodel, hfp⟩
        · exact ⟨existing, hexisting, hid, hmodel, hfp⟩
      subst hkey
      obtain ⟨hrows', hstored⟩ := hrows.modify he heid.symm hemodel.symm (hmachine.trans hefp.symm) htext
        (makeDefault || existing.active)
      refine ⟨hrows', fun _ => ⟨_, Table.mem_modify.mpr (.inr ⟨e, he, heid, rfl⟩), hstored, ?_⟩⟩
      rintro (hdefault | ⟨r, hr, hrid, hactive⟩)
      · exact Bool.or_eq_true_iff.mpr (.inl hdefault)
      · obtain rfl : r = existing := List.inj_on_of_nodup_map h.ids hr hexisting (hrid.trans hid.symm)
        exact Bool.or_eq_true_iff.mpr (.inr hactive)

/-- The fields that a clone adds. -/
def clonedFields (now source : Text) : List (Text × Value φ) :=
  overriddenFields now ++ [(ofString "cloned_from_profile_id", .string source)]

omit [Conversions φ] [DecidableEq κ] [LawfulInterpreter φ] in
theorem cloned_profileToDict (p : PlacementProfile Text φ) (now source : Text) :
    put (ofString "cloned_from_profile_id") (.value (.string source)) (overridden now (profileToDict p)) =
      profileToDict p ++ (clonedFields now source).map fun e => (e.1, .value e.2) := by
  have hkeys : (profileToDict p ++ (overriddenFields now).map fun e : Text × Value φ => (e.1, Field.value e.2)).map
      Prod.fst = (fieldNames ++ ["administrator_override", "administrator_override_at"]).map ofString := by
    rw [List.map_append, List.map_append, keys_profileToDict]
    rfl
  rw [overridden_profileToDict, put_after hkeys (by decide), List.append_assoc, clonedFields, List.map_append]
  rfl

omit [DecidableEq κ] in
theorem encoded_cloned {now source : Text} {key : κ} {text : List Char} (hp : Strings Joined p) (hnow : Joined now)
    (hsource : Joined source)
    (h : encoded sha256 (put (ofString "cloned_from_profile_id") (.value (.string source))
      (overridden now (profileToDict p))) = some (key, text)) :
    loads text = .ok (.dict (entriesOf p ++ clonedFields now source)) ∧
      key = profileKey sha256 (entriesOf p ++ clonedFields now source) := by
  rw [cloned_profileToDict] at h
  have hnodup : (fieldNames ++ ["administrator_override", "administrator_override_at",
      "cloned_from_profile_id"]).Nodup := by decide
  refine encoded_append hp hnodup rfl (fun x hx => ?_) h
  simp only [clonedFields, overriddenFields, List.cons_append, List.nil_append, List.map_cons, List.map_nil,
    List.mem_cons, List.not_mem_nil, or_false] at hx
  rcases hx with rfl | rfl | rfl
  · trivial
  · exact hnow
  · exact hsource

theorem RowsOk.clone {now : Text} {copies : List (PlacementProfile Text φ × Text)} (hnow : Joined now)
    (hcopies : ∀ c ∈ copies, Strings Joined c.1 ∧ c.1.modelId = modelId ∧ Joined c.2) (h : RowsOk sha256 s)
    (hok : clone sha256 s modelId now copies = some s') : RowsOk sha256 s' := by
  have hmodels : RowsOk sha256 { s with models := s.models ++ [modelId] } := ⟨h.ids, h.bindable, h.stored⟩
  unfold Profiles.clone at hok
  generalize ({ s with models := s.models ++ [modelId] } : ProfileTable κ) = t at hmodels hok
  induction copies generalizing t with
  | nil =>
    obtain rfl := Option.some.inj hok
    exact hmodels
  | cons c copies ih =>
    rw [List.foldlM_cons] at hok
    obtain ⟨u, hu, hok⟩ := Option.bind_eq_some_iff.mp hok
    refine ih (fun d hd => hcopies d (List.mem_cons_of_mem c hd)) u ?_ hok
    obtain ⟨hc, hmodel, hsource⟩ := hcopies c List.mem_cons_self
    obtain ⟨p, source⟩ := c
    dsimp only at hu
    obtain ⟨⟨key, text⟩, hencoded, hu⟩ := Option.bind_eq_some_iff.mp hu
    obtain ⟨htext, hkey⟩ := encoded_cloned hc hnow hsource hencoded
    exact (hmodels.insertRow hu ⟨htext, rfl, hmodel, rfl, hkey⟩).2

/-! ### Runs -/

/-- What the callers see to: the strings are joined, a profile is of the model
and the machine that it is saved for, and no number of a measurement is NaN. -/
def Called : TableOp φ → Prop
  | .register fingerprint modelId profiles => ∀ p ∈ profiles, (Strings Joined p ∧ WithoutNan p) ∧ p.modelId = modelId ∧
    p.machineFingerprint = fingerprint
  | .update fingerprint p _ now => Strings Joined p ∧ p.machineFingerprint = fingerprint ∧ Joined now
  | .clone modelId now copies => Joined now ∧ ∀ c ∈ copies, Strings Joined c.1 ∧ c.1.modelId = modelId ∧ Joined c.2
  | .addModel _ | .setActive .. | .startup _ => True

theorem rowsOk_call (hsha : TellsApart sha256) (hset : SetsId φ jsonSet) (h : RowsOk sha256 s) {op : TableOp φ}
    (hop : Called op) (hok : call sha256 jsonSet s op = some s') : RowsOk sha256 s' := by
  cases op with
  | addModel modelId =>
    obtain rfl := Option.some.inj hok
    exact ⟨h.ids, h.bindable, h.stored⟩
  | register fingerprint modelId profiles =>
    have hok : register sha256 jsonSet s fingerprint modelId profiles = some s' := hok
    unfold register at hok
    split at hok
    · cases hok
    · exact (upserts_ok hsha hset (h.setActiveWhere _ false) (fun p hp => (hop p hp).1) hok).1
  | update fingerprint p makeDefault now =>
    obtain ⟨⟨t, saved⟩, ht, rfl⟩ := Option.map_eq_some_iff.mp hok
    exact (update_ok h hop.1 hop.2.1 hop.2.2 ht).1
  | clone modelId now copies => exact h.clone hop.1 hop.2 hok
  | setActive fingerprint modelId profileId active =>
    obtain rfl := Option.some.inj hok
    exact h.setActiveWhere _ active
  | startup fingerprint =>
    obtain rfl := Option.some.inj hok
    split
    · exact ⟨(h.setActiveWhere _ false).ids, (h.setActiveWhere _ false).bindable, (h.setActiveWhere _ false).stored⟩
    · exact ⟨h.ids, h.bindable, h.stored⟩

theorem rowsOk_exec (hsha : TellsApart sha256) (hset : SetsId φ jsonSet) {ops : List (TableOp φ)}
    (hops : ∀ op ∈ ops, Called op) (hrun : exec (tableStep sha256 jsonSet) {} ops = some s) : RowsOk sha256 s := by
  have hempty : RowsOk sha256 ({} : ProfileTable κ) := ⟨List.nodup_nil, nofun, nofun⟩
  refine exec_invariant_mem (fun t op t' hop ht hstep => ?_) hempty hrun
  obtain rfl := Option.some.inj hstep
  cases hcall : call sha256 jsonSet t op with
  | none => exact ht
  | some t' => exact rowsOk_call hsha hset ht (hops op hop) hcall

/-- `for_model` does not raise, and the profile is among what it returns. -/
def Returns (numberLe : Value φ → Value φ → Bool) (s : ProfileTable κ) (fingerprint modelId : Text)
    (p : PlacementProfile Text φ) : Prop :=
  ∃ profiles, forModel numberLe s fingerprint modelId = some profiles ∧ p ∈ profiles

/-- A stored profile decodes to itself. In every table that the calls lead to,
after a registration `for_model` returns each profile of it that no later one
replaces, under the id of its row, and after an upsert onto an existing key
under the id that this row has; after an administrator's update it returns the
profile if its row was active or it is to be the default. -/
theorem stored_profiles (hsha : TellsApart sha256) (hset : SetsId φ jsonSet) (numberLe : Value φ → Value φ → Bool) :
    (∀ (p : PlacementProfile Text φ) (text : List Char), Strings Joined p → profileText p = some text →
      decodeProfile text = some p) ∧
    ∀ (ops : List (TableOp φ)) (s : ProfileTable κ), (∀ op ∈ ops, Called op) →
      exec (tableStep sha256 jsonSet) {} ops = some s →
      (∀ fingerprint modelId before p after s', Called (.register fingerprint modelId (before ++ p :: after)) →
        (∀ q ∈ after, profileKey sha256 (entriesOf q) ≠ profileKey sha256 (entriesOf p)) →
        register sha256 jsonSet s fingerprint modelId (before ++ p :: after) = some s' →
        ∃ r ∈ s'.rows, r.profileKey = profileKey sha256 (entriesOf p) ∧
          Returns numberLe s' fingerprint modelId { p with id := r.id }) ∧
      (∀ p s', Strings Joined p → WithoutNan p → upsert sha256 jsonSet s p = some s' →
        ∀ r ∈ s.rows, r.profileKey = profileKey sha256 (entriesOf p) →
          Returns numberLe s' p.machineFingerprint p.modelId { p with id := r.id }) ∧
      ∀ fingerprint p makeDefault now s', Called (.update fingerprint p makeDefault now) →
        s.update sha256 fingerprint p makeDefault now = some (s', true) →
        (makeDefault = true ∨ ∃ r ∈ s.rows, r.id = p.id ∧ r.active = true) →
        Returns numberLe s' fingerprint p.modelId p := by
  refine ⟨fun p text => decode_profileText, fun ops s hops hrun => ?_⟩
  have hrows := rowsOk_exec hsha hset hops hrun
  refine ⟨?_, ?_, ?_⟩
  · intro fingerprint modelId before p after s' hcalled hlast hok
    have hstrings : ∀ q ∈ before ++ p :: after, Strings Joined q ∧ WithoutNan q := fun q hq => (hcalled q hq).1
    obtain ⟨-, hmodel, hmachine⟩ := hcalled p (List.mem_append_right _ List.mem_cons_self)
    obtain ⟨r, hr, hactive, hstored⟩ := register_saves hsha hset hrows hstrings hlast hok
    have hrows' : RowsOk sha256 s' := rowsOk_call hsha hset hrows hcalled hok
    have hreturns := hrows'.forModel numberLe hr hactive hstored
    exact ⟨r, hr, by rw [hstored.key, profileKey_id], hmodel ▸ hmachine ▸ hreturns⟩
  · intro p s' hp hnan hok r hr hkey
    obtain ⟨hrows', hold, -, -⟩ := upsert_ok hsha hset hrows ⟨hp, hnan⟩ hok
    obtain ⟨r', hr', -, hactive, hstored⟩ := hold r hr hkey
    exact hrows'.forModel numberLe hr' hactive hstored
  · intro fingerprint p makeDefault now s' hcalled hok hactive
    obtain ⟨hrows', hsaved⟩ := update_ok hrows hcalled.1 hcalled.2.1 hcalled.2.2 hok
    obtain ⟨r, hr, hstored, hr_active⟩ := hsaved rfl
    exact hcalled.2.1 ▸ hrows'.forModel numberLe hr (hr_active hactive) hstored

end rows

/-! ### A profile and its rows -/

/-- Two floats. -/
inductive Reading
  | half
  | one
deriving DecidableEq

instance : Conversions Reading where
  ofLiteral literal := if literal = "0.5".toList then .half else .one
  repr
    | .half => ofString "0.5"
    | .one => ofString "1.0"
  truncate
    | .half => some 0
    | .one => some 1
  isZero _ := false
  ofText _ := none
  recursionLimit := 1000
  floatOfInt n := if n = 1 then some .one else none
  floatOfText _ := none
  strOf _ := []

instance : LawfulInterpreter Reading where
  scan_repr x := by cases x <;> rfl

/-- The texts of the fields, for their digest. -/
def textsOf (fields : List (Text × Value Reading)) : List (Text × Option Text) :=
  fields.map fun e => (e.1, asText e.2)

/-- `json_set` by reading and writing. -/
def setId (text : List Char) (id : Text) : Option (List Char) :=
  match (loads text : Except LoadError (Value Reading)) with
  | .ok (.dict data) => dumpsAscii (.dict (put (ofString "id") (.string id) data))
  | _ => none

def sample : PlacementProfile Text Reading where
  id := ofString "p1"
  modelId := ofString "m1"
  modelRevision := ofString "main"
  engine := .vllm
  engineVersion := ofString "0.11"
  machineFingerprint := ofString "f1"
  gpuCount := 2
  tensorParallelSize := 2
  pipelineParallelSize := 1
  eligibleGpuSets := [[ofString "g1", ofString "g2"]]
  dtype := ofString "auto"
  quantization := none
  maxModelLen := 4096
  maxNumSeqs := some 64
  maxNumBatchedTokens := none
  predictedTokensPerSecond := .one
  loadAndWarmupSeconds := .half
  idleVramMibPerGpu := [900, 900]
  peakVramMibPerGpu := [1000, 1000]
  gpuHeadroomMibPerGpu := [100, 100]
  capabilities := {ofString "chat"}
  launchArgs := [(ofString "hf_overrides", .dict [])]
  gpuMemoryUtilization := .half
  kvCacheCapacityTokens := none
  maxFullLengthConcurrency := some .one
  memoryBackend := ofString "native"

def sampleText : List Char := (profileText sample).getD []

theorem strings_sample : Strings Joined sample where
  id := joined_ofString _
  modelId := joined_ofString _
  modelRevision := joined_ofString _
  engineVersion := joined_ofString _
  machineFingerprint := joined_ofString _
  eligibleGpuSets := by decide
  dtype := joined_ofString _
  quantization := nofun
  capabilities := by decide
  launchArgs := ⟨by decide, joined_ofString _, ⟨List.nodup_nil, trivial⟩, trivial⟩
  memoryBackend := joined_ofString _

theorem withoutNan_sample : WithoutNan sample := by unfold WithoutNan; decide

def sampleRow : TextRow (List (Text × Option Text)) :=
  ⟨ofString "p1", ofString "m1", ofString "f1", profileKey textsOf (entriesOf sample), sampleText, true⟩

/-- The table after a registration of the sample. -/
def sampleTable : ProfileTable (List (Text × Option Text)) where
  rows := [sampleRow]
  models := [ofString "m1"]

theorem lookup_textsOf (fields : List (Text × Value Reading)) (key : Text) :
    (textsOf fields).lookup key = (fields.lookup key).map asText := by
  induction fields with
  | nil => rfl
  | cons e fields ih =>
    obtain ⟨k, v⟩ := e
    show ((k, asText v) :: textsOf fields).lookup key = _
    rw [lookup_cons, lookup_cons, ih]
    split <;> rfl

theorem tellsApart_textsOf : TellsApart textsOf := by
  intro f g _ _ hfg key text hf
  have hg : (g.lookup key).map asText = some (some text) := by
    rw [← lookup_textsOf, ← hfg, lookup_textsOf, hf]
    rfl
  obtain ⟨v, hv, htext⟩ := Option.map_eq_some_iff.mp hg
  cases v with
  | string s => rw [hv, Option.some.inj htext]
  | null | bool | int | float | list | dict => cases htext

theorem setsId_setId : SetsId Reading setId := by
  intro text text' data id hproper _ htext hid hset
  have hloads := loads_dumpsAscii hproper htext
  rw [Value.Proper] at hproper
  have hdistinct : Distinct data := hproper.1
  rw [setId, hloads] at hset
  refine loads_dumpsAscii ?_ hset
  rw [Value.Proper]
  have hstring : (.string id : Value Reading).Proper Joined := joined_of_encode hid
  exact ⟨hdistinct.put _ _, properEntries_put (joined_ofString "id") hstring hproper.2⟩

theorem dumps_sample : dumpsAscii (.dict (entriesOf sample)) = some sampleText := by rfl

theorem register_sample : register textsOf setId { models := [ofString "m1"] } (ofString "f1") (ofString "m1")
    [sample] = some sampleTable := by
  have hencoded : encoded textsOf (profileToDict sample) = some (sampleRow.profileKey, sampleText) :=
    encoded_profile dumps_sample
  rw [register, if_neg (List.cons_ne_nil _ _), List.foldlM_cons, upsert_new hencoded rfl]
  rfl

/-- A profile with the key of the sample. -/
def second : PlacementProfile Text Reading := { sample with loadAndWarmupSeconds := .one }

def secondText : List Char := (profileText second).getD []

def secondTable : ProfileTable (List (Text × Option Text)) :=
  { sampleTable with rows := [{ sampleRow with profileJson := secondText }] }

theorem strings_second : Strings Joined second := { strings_sample with }

theorem dumps_second : dumpsAscii (.dict (entriesOf second)) = some secondText := by rfl

theorem key_second (id : Text) : profileKey textsOf (entriesOf { second with id := id }) = sampleRow.profileKey := by
  have hput : put (ofString "load_and_warmup_seconds") (.float .one) (entriesOf sample) = entriesOf second := rfl
  have hkey : profileKey textsOf (entriesOf second) = sampleRow.profileKey := by
    rw [← hput, profileKey_put (by decide)]
    rfl
  rw [← List.append_nil (entriesOf { second with id := id }), profileKey_id, hkey]

theorem upsert_second :
    upsert textsOf setId sampleTable { second with id := ofString "p2" } = some secondTable := by
  have hstrings : Strings Joined { second with id := ofString "p2" } :=
    { strings_second with id := joined_ofString _ }
  have hsome : (dumpsAscii (.dict (entriesOf { second with id := ofString "p2" }))).isSome = true := by rfl
  obtain ⟨text, htext⟩ := Option.isSome_iff_exists.mp hsome
  have hloads := loads_dumpsAscii (proper_entriesOf joined_ofString hstrings) htext
  have hset : setId text sampleRow.id = some secondText := by
    have hput := put_id { second with id := ofString "p2" } (ofString "p1") []
    rw [List.append_nil, List.append_nil] at hput
    rw [setId, hloads]
    exact (congrArg (fun entries => dumpsAscii (.dict entries)) hput).trans dumps_second
  have hrows : [sampleRow].mapM (conflictRow setId sampleRow.profileKey text) = some secondTable.rows := by
    rw [List.mapM_cons, conflictRow, if_pos rfl, hset]
    rfl
  have hany : [sampleRow].any (·.profileKey = sampleRow.profileKey) = true := by simp
  have hencoded : encoded textsOf (profileToDict { second with id := ofString "p2" }) =
      some (sampleRow.profileKey, text) := by
    rw [encoded_profile htext, key_second]
  exact upsert_conflict hencoded hany (by decide) hrows

theorem encoded_overridden_sample : ∃ key text,
    encoded textsOf (overridden (ofString "now") (profileToDict sample)) = some (key, text) := by
  have hsome : (encoded textsOf (overridden (ofString "now") (profileToDict sample))).isSome = true := by
    decide +kernel
  obtain ⟨⟨key, text⟩, h⟩ := Option.isSome_iff_exists.mp hsome
  exact ⟨key, text, h⟩

theorem called_sample : Called (.register (ofString "f1") (ofString "m1") [sample]) := by
  intro p hp
  rw [List.mem_singleton.mp hp]
  exact ⟨⟨strings_sample, withoutNan_sample⟩, rfl, rfl⟩

theorem exec_sample : exec (tableStep textsOf setId) {} [.addModel (ofString "m1"),
    .register (ofString "f1") (ofString "m1") [sample]] = some sampleTable := by
  show some ((register textsOf setId { models := [ofString "m1"] } (ofString "f1") (ofString "m1")
    [sample]).getD _) = _
  rw [register_sample]
  rfl

/-- The sample is registered; another profile is upserted onto its row; and an
administrator's update leaves it as it is. -/
theorem stored_profiles_sample :
    decodeProfile sampleText = some sample ∧
    (∃ r ∈ sampleTable.rows, r.profileKey = profileKey textsOf (entriesOf sample) ∧
      Returns (fun _ _ => true) sampleTable (ofString "f1") (ofString "m1") { sample with id := r.id }) ∧
    Returns (fun _ _ => true) secondTable (ofString "f1") (ofString "m1") second ∧
    ∃ s, sampleTable.update textsOf (ofString "f1") sample false (ofString "now") = some (s, true) ∧
      Returns (fun _ _ => true) s (ofString "f1") (ofString "m1") sample := by
  have hmodel : Called (.addModel (ofString "m1") : TableOp Reading) := trivial
  have hops : ∀ op ∈ [.addModel (ofString "m1"), .register (ofString "f1") (ofString "m1") [sample]], Called op :=
    List.forall_mem_cons.mpr ⟨hmodel, List.forall_mem_singleton.mpr called_sample⟩
  have htext : profileText sample = some sampleText := by
    rw [profileText_eq]
    exact dumps_sample
  obtain ⟨key, text, hencoded⟩ := encoded_overridden_sample
  have hupdate := update_row (s := sampleTable) hencoded rfl ⟨rfl, rfl, rfl⟩
  obtain ⟨hdecoded, hruns⟩ := stored_profiles tellsApart_textsOf setsId_setId fun _ _ => true
  have hempty : exec (tableStep textsOf setId) {} [.addModel (ofString "m1")] =
      some { models := [ofString "m1"] } := rfl
  obtain ⟨hregister, -⟩ := hruns _ _ (List.forall_mem_singleton.mpr hmodel) hempty
  obtain ⟨-, hupsert, hupdated⟩ := hruns _ _ hops exec_sample
  have hsecond : Strings Joined { second with id := ofString "p2" } :=
    { strings_second with id := joined_ofString _ }
  have hnan : WithoutNan { second with id := ofString "p2" } := by unfold WithoutNan; decide
  refine ⟨hdecoded sample sampleText strings_sample htext, ?_, ?_, _, hupdate, ?_⟩
  · have hlater : ∀ q ∈ ([] : List (PlacementProfile Text Reading)),
        profileKey textsOf (entriesOf q) ≠ profileKey textsOf (entriesOf sample) :=
      fun q hq => absurd hq List.not_mem_nil
    exact hregister (ofString "f1") (ofString "m1") [] sample [] sampleTable called_sample hlater register_sample
  · exact hupsert _ secondTable hsecond hnan upsert_second sampleRow (List.mem_singleton_self _) (key_second _).symm
  · have hcalled : Called (.update (ofString "f1") sample false (ofString "now")) :=
      ⟨strings_sample, rfl, joined_ofString _⟩
    exact hupdated _ sample false _ _ hcalled hupdate (.inr ⟨sampleRow, List.mem_singleton_self _, rfl, rfl⟩)

/-- Two surrogates come back as the character that they stand for. -/
def crooked : PlacementProfile Text Reading := { sample with dtype := [0xd83d, 0xde00] }

def straight : PlacementProfile Text Reading := { sample with dtype := [0x1f600] }

theorem profileText_crooked : ∃ text, profileText straight = some text ∧ profileText crooked = some text := by
  have hsome : (dumpsAscii (.dict (entriesOf straight))).isSome = true := by rfl
  have hsame : dumpsAscii (.dict (entriesOf crooked)) = dumpsAscii (.dict (entriesOf straight)) := by decide +kernel
  obtain ⟨text, h⟩ := Option.isSome_iff_exists.mp hsome
  rw [profileText_eq, profileText_eq]
  exact ⟨text, h, hsame.trans h⟩

/-- A profile with two such surrogates does not come back; of two profiles with
one key the first one does not; and neither does one whose row is not active,
though an administrator updates it. -/
theorem stored_profiles_fails :
    (∃ text, profileText crooked = some text ∧ decodeProfile text ≠ some crooked) ∧
    (∃ s, register textsOf setId { models := [ofString "m1"] } (ofString "f1") (ofString "m1")
        [sample, { second with id := ofString "p2" }] = some s ∧
      ¬ Returns (fun _ _ => true) s (ofString "f1") (ofString "m1") sample) ∧
    ∃ s s' : ProfileTable (List (Text × Option Text)),
      exec (tableStep textsOf setId) {} [.addModel (ofString "m1"),
        .register (ofString "f1") (ofString "m1") [sample],
        .setActive (ofString "f1") (ofString "m1") (ofString "p1") false] = some s ∧
      s.update textsOf (ofString "f1") sample false (ofString "now") = some (s', true) ∧
      ¬ Returns (fun _ _ => true) s' (ofString "f1") (ofString "m1") sample := by
  refine ⟨?_, ?_, ?_⟩
  · obtain ⟨text, hstraight, hcrooked⟩ := profileText_crooked
    have hdtype : ∀ p ∈ straight.dtype, isHigh p = false := by
      intro p hp
      rw [List.mem_singleton.mp hp]
      rfl
    have hstrings : Strings Joined straight := { strings_sample with dtype := joined_of_forall hdtype }
    refine ⟨text, hcrooked, ?_⟩
    rw [decode_profileText hstrings hstraight]
    exact fun h => absurd (congrArg PlacementProfile.dtype (Option.some.inj h)) (by decide)
  · have hregister : register textsOf setId { models := [ofString "m1"] } (ofString "f1") (ofString "m1")
        [sample, { second with id := ofString "p2" }] = some secondTable := by
      have hfirst := register_sample
      rw [register, if_neg (List.cons_ne_nil _ _), List.foldlM_cons] at hfirst ⊢
      obtain ⟨t, ht, hrest⟩ := Option.bind_eq_some_iff.mp hfirst
      obtain rfl := Option.some.inj hrest
      rw [ht, Option.bind_eq_bind, Option.bind_some, List.foldlM_cons, upsert_second]
      rfl
    have hloads := loads_dumpsAscii (proper_entriesOf joined_ofString strings_second) dumps_second
    have hstored : Stored textsOf { sampleRow with profileJson := secondText } second [] :=
      ⟨by rwa [List.append_nil], rfl, rfl, rfl, by rw [List.append_nil]; exact (key_second (ofString "p1")).symm⟩
    refine ⟨secondTable, hregister, ?_⟩
    rintro ⟨profiles, hprofiles, hin⟩
    have hsingle : forModel (fun _ _ => true) secondTable (ofString "f1") (ofString "m1") = some [second] :=
      forModel_single _ rfl ⟨rfl, rfl, rfl⟩ hstored.decodeRow
    rw [hsingle] at hprofiles
    rw [← Option.some.inj hprofiles, List.mem_singleton] at hin
    exact absurd (congrArg PlacementProfile.loadAndWarmupSeconds hin) (by decide)
  · obtain ⟨key, text, hencoded⟩ := encoded_overridden_sample
    have hrun : exec (tableStep textsOf setId) {} [.addModel (ofString "m1"),
        .register (ofString "f1") (ofString "m1") [sample],
        .setActive (ofString "f1") (ofString "m1") (ofString "p1") false] =
          some { sampleTable with rows := [{ sampleRow with active := false }] } := by
      exact (exec_append (tableStep textsOf setId)).mpr ⟨sampleTable, exec_sample, rfl⟩
    have hupdate := update_row (s := { sampleTable with rows := [{ sampleRow with active := false }] }) hencoded rfl
      ⟨rfl, rfl, rfl⟩
    refine ⟨_, _, hrun, hupdate, ?_⟩
    rintro ⟨profiles, hprofiles, hin⟩
    obtain rfl := Option.some.inj hprofiles
    cases hin

end Profiles
end LlmRio
