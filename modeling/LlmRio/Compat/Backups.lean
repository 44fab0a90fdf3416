/-
# Host backups of the weights

vLLM's allocator copies the memory that it puts to sleep into a new host
tensor, and drops the copy when it wakes. The shim around `sleep` hides the
selected entries that have a backup already, under a tag of its own, and the
shim around `wake_up` puts the backups back that were dropped; both do so
too if the call raises part-way.

The allocator's own calls are as the source's tests have them: `made` and
`reached` say of each entry which backup a call makes for it and whether it
clears it, so that a call that raises has reached some entries only. Its
entries are objects of their own, one for each index below `n`.

The tag that hides an entry is a string like any other. A `sleep` that
selects it selects the hidden entries, and these get a new backup
(`backup_lost`). Without it a backup stays for ever (`backups_persist`).

Key definitions: `sleep`, `wakeUp`, `run`.
Key theorems: `sleep_keeps`, `wakeUp_keeps`, `run_keeps`, `backups_persist`.
-/
import Mathlib.Data.List.Basic
import Mathlib.Data.Fintype.Basic

namespace LlmRio
namespace Compat

/-- A value of `pointer_to_data`; `τ` are the tensors. -/
structure AllocationData (τ : Type) where
  tag : String
  cpuBackupTensor : Option τ
deriving DecidableEq, Repr

/-- `allocator.pointer_to_data.values()` -/
abbrev Contents (n : ℕ) (τ : Type) := Fin n → AllocationData τ

/-- `offload_tags`: `None`, a string or a tuple. -/
inductive OffloadTags
  | none
  | one (tag : String)
  | many (tags : List String)

/-- `CuMemAllocator.default_tag` -/
def defaultTag : String := "default"

def sentinelTag : String := "llm_rio_persistent_host_backup"

/-- `selected_tags` -/
def OffloadTags.selected : OffloadTags → List String
  | .none => [defaultTag]
  | .one tag => [tag]
  | .many tags => tags

variable {n : ℕ} {τ : Type}

/-! ### The allocator's calls -/

/-- The allocator's `sleep`: a selected entry gets the backup that is made for
it, if the call gets there. -/
def originalSleep (tags : OffloadTags) (made : Fin n → Option τ) (s : Contents n τ) : Contents n τ := fun i =>
  if (s i).tag ∈ tags.selected then
    match made i with
    | some backup => { s i with cpuBackupTensor := some backup }
    | none => s i
  else s i

/-- `tags is None or data.tag in tags` -/
def wakes (tags : Option (List String)) (data : AllocationData τ) : Bool :=
  match tags with
  | none => true
  | some tags => data.tag ∈ tags

/-- The allocator's `wake_up`: the backup of a selected entry is cleared, if
the call gets there. -/
def originalWake (tags : Option (List String)) (reached : Fin n → Bool) (s : Contents n τ) : Contents n τ := fun i =>
  if wakes tags (s i) ∧ reached i then { s i with cpuBackupTensor := none } else s i

/-! ### The shim -/

/-- The entry is in `preserved`. -/
def preserved (tags : OffloadTags) (data : AllocationData τ) : Bool :=
  data.tag ∈ tags.selected ∧ data.cpuBackupTensor.isSome

/-- The preserved entries have the tag of the shim. -/
def hidden (tags : OffloadTags) (s : Contents n τ) : Contents n τ := fun i =>
  if preserved tags (s i) then { s i with tag := sentinelTag } else s i

/-- `sleep` with its `finally`. -/
def sleep (tags : OffloadTags) (made : Fin n → Option τ) (s : Contents n τ) : Contents n τ := fun i =>
  let data := originalSleep tags made (hidden tags s) i
  if preserved tags (s i) then { data with tag := (s i).tag } else data

/-- `wake_up` with its `finally`. -/
def wakeUp (tags : Option (List String)) (reached : Fin n → Bool) (s : Contents n τ) : Contents n τ := fun i =>
  let data := originalWake tags reached s i
  if (s i).cpuBackupTensor.isSome ∧ wakes tags (s i) ∧ data.cpuBackupTensor.isNone then
    { data with cpuBackupTensor := (s i).cpuBackupTensor }
  else data

/-- A call of the shim, with what the allocator's own call gets done. -/
inductive BackupCall (n : ℕ) (τ : Type)
  | sleep (tags : OffloadTags) (made : Fin n → Option τ)
  | wakeUp (tags : Option (List String)) (reached : Fin n → Bool)

def BackupCall.apply : BackupCall n τ → Contents n τ → Contents n τ
  | .sleep tags made, s => Compat.sleep tags made s
  | .wakeUp tags reached, s => Compat.wakeUp tags reached s

def run (calls : List (BackupCall n τ)) (s : Contents n τ) : Contents n τ := calls.foldl (fun s call => call.apply s) s

/-- The call does not name the tag of the shim to `sleep`. -/
def BackupCall.Plain : BackupCall n τ → Prop
  | .sleep tags _ => sentinelTag ∉ tags.selected
  | .wakeUp _ _ => True

/-- The backup that the allocator makes for the entry in a `sleep` of the shim. -/
def created (tags : OffloadTags) (made : Fin n → Option τ) (s : Contents n τ) (i : Fin n) : Option τ :=
  if (hidden tags s i).tag ∈ tags.selected then made i else none

/-- The entry keeps its tag, and its backup once it has one. -/
def Keeps (s s' : Contents n τ) : Prop :=
  ∀ i, (s' i).tag = (s i).tag ∧ ∀ backup, (s i).cpuBackupTensor = some backup → (s' i).cpuBackupTensor = some backup

/-! ### One call -/

variable {s s' s'' : Contents n τ} {tags : OffloadTags} {made : Fin n → Option τ}

theorem Keeps.refl (s : Contents n τ) : Keeps s s := fun _ => ⟨rfl, fun _ h => h⟩

theorem Keeps.trans (h : Keeps s s') (h' : Keeps s' s'') : Keeps s s'' := fun i =>
  ⟨(h' i).1.trans (h i).1, fun backup hb => (h' i).2 backup ((h i).2 backup hb)⟩

/-- The allocator makes a backup only for a selected entry that has none. -/
theorem created_new (hplain : sentinelTag ∉ tags.selected) {i : Fin n} {backup : τ}
    (h : created tags made s i = some backup) :
    (s i).tag ∈ tags.selected ∧ (s i).cpuBackupTensor = none := by
  unfold created hidden at h
  by_cases hp : preserved tags (s i) = true
  · rw [if_pos hp, if_neg hplain] at h
    cases h
  · rw [if_neg hp] at h
    by_cases hsel : (s i).tag ∈ tags.selected
    · refine ⟨hsel, ?_⟩
      by_contra hsome
      exact hp (decide_eq_true ⟨hsel, Option.isSome_iff_ne_none.mpr hsome⟩)
    · rw [if_neg hsel] at h
      cases h

/-- After a `sleep` an entry has the backup that was made for it, or what it
had before. -/
theorem sleep_eq (tags : OffloadTags) (made : Fin n → Option τ) (s : Contents n τ) (i : Fin n) :
    sleep tags made s i =
      { tag := (s i).tag, cpuBackupTensor := (created tags made s i).or (s i).cpuBackupTensor } := by
  unfold sleep originalSleep created hidden
  by_cases hp : preserved tags (s i) = true
  · simp only [if_pos hp]
    by_cases hsel : sentinelTag ∈ tags.selected
    · simp only [if_pos hsel]
      cases made i <;> rfl
    · simp only [if_neg hsel]
      rfl
  · simp only [if_neg hp]
    by_cases hsel : (s i).tag ∈ tags.selected
    · simp only [if_pos hsel]
      cases made i <;> rfl
    · simp only [if_neg hsel]
      rfl

theorem sleep_keeps (hplain : sentinelTag ∉ tags.selected) : Keeps s (sleep tags made s) := by
  intro i
  rw [sleep_eq]
  refine ⟨rfl, fun backup hbackup => ?_⟩
  cases hcreated : created tags made s i with
  | none => exact hbackup
  | some new =>
    have hnone := (created_new hplain hcreated).2
    rw [hbackup] at hnone
    cases hnone

/-- A `wake_up` leaves everything as it was. -/
theorem wakeUp_eq (tags : Option (List String)) (reached : Fin n → Bool) (s : Contents n τ) :
    wakeUp tags reached s = s := by
  funext i
  unfold wakeUp originalWake
  rcases s i with ⟨tag, backup⟩
  by_cases hwakes : wakes tags ⟨tag, backup⟩ = true ∧ reached i = true
  · -- the backup was cleared: it is put back if there was one
    rw [if_pos hwakes]
    cases backup with
    | none => rfl
    | some backup => exact if_pos ⟨rfl, hwakes.1, rfl⟩
  · rw [if_neg hwakes]
    cases backup with
    | none => rfl
    | some backup => exact if_neg fun h => nomatch h.2.2

theorem apply_keeps {call : BackupCall n τ} (hplain : call.Plain) : Keeps s (call.apply s) := by
  cases call with
  | sleep tags made => exact sleep_keeps hplain
  | wakeUp tags reached =>
    have hsame : (BackupCall.wakeUp tags reached).apply s = s := wakeUp_eq tags reached s
    rw [hsame]
    exact .refl s

/-! ### All calls -/

theorem run_keeps {calls : List (BackupCall n τ)} (hplain : ∀ call ∈ calls, call.Plain) : Keeps s (run calls s) := by
  induction calls generalizing s with
  | nil => exact .refl s
  | cons call calls ih =>
    exact (apply_keeps (hplain call List.mem_cons_self)).trans
      (ih fun c hc => hplain c (List.mem_cons_of_mem call hc))

theorem run_append (before after : List (BackupCall n τ)) (s : Contents n τ) :
    run (before ++ after) s = run after (run before s) := List.foldl_append

/-- **Host weight backups persist.** After every call each entry has the tag
it started with; a backup that it had at any time it has from then on; and a
`sleep` makes new ones for selected entries without a backup only. -/
theorem backups_persist {n : ℕ} {τ : Type} (s : Contents n τ) (before after : List (BackupCall n τ))
    (hplain : ∀ call ∈ before ++ after, call.Plain) :
    (∀ i, (run before s i).tag = (s i).tag) ∧
    (∀ i backup, (run before s i).cpuBackupTensor = some backup →
      (run (before ++ after) s i).cpuBackupTensor = some backup) ∧
    ∀ tags made rest, after = .sleep tags made :: rest → ∀ i backup,
      created tags made (run before s) i = some backup →
        (run before s i).tag ∈ tags.selected ∧ (run before s i).cpuBackupTensor = none := by
  refine ⟨fun i => ?_, fun i backup hbackup => ?_, ?_⟩
  · exact (run_keeps (fun call hcall => hplain call (List.mem_append_left after hcall)) i).1
  · rw [run_append]
    exact (run_keeps (fun call hcall => hplain call (List.mem_append_right before hcall)) i).2 backup hbackup
  · rintro tags made rest rfl i backup hcreated
    exact created_new (hplain (.sleep tags made) (List.mem_append_right before List.mem_cons_self)) hcreated

/-- One entry of weights with a backup. -/
def backedUp : Contents 1 ℕ := fun _ => { tag := "weights", cpuBackupTensor := some 7 }

theorem backups_persist_again :
    (run [.wakeUp none fun _ => true, .sleep (.one "weights") fun _ => some 8] backedUp 0).cpuBackupTensor = some 7 := by
  have hplain : ∀ call ∈ ([] : List (BackupCall 1 ℕ)) ++
      [.wakeUp none fun _ => true, .sleep (.one "weights") fun _ => some 8], call.Plain := by
    simp only [List.nil_append, List.forall_mem_cons, List.not_mem_nil, false_implies, implies_true, and_true]
    have hweights : sentinelTag ∉ (OffloadTags.one "weights").selected := by decide
    exact ⟨trivial, hweights⟩
  exact (backups_persist backedUp [] _ hplain).2.1 0 7 rfl

/-- The backup is lost if the tag of the shim is selected, too. -/
theorem backup_lost :
    (backedUp 0).cpuBackupTensor = some 7 ∧
      (run [.sleep (.many ["weights", sentinelTag]) fun _ => some 8] backedUp 0).cpuBackupTensor = some 8 := by
  decide

end Compat
end LlmRio
