/-
# Rolling back a partial allocation

vLLM's `allocate_slots` is taken to have no effect when it returns `None`.
With several KV-cache groups kvcached's does: a group may have given the
request blocks before a later one ran out. The shim around it remembers how
long the lists of each group were, cuts them back to that length and frees
the request, if the request was waiting. A running request is left to vLLM,
which frees it itself.

The wrapped call and `manager.free` are parameters, of which `Extends` and
`FreesOnly` say what the code relies on. The groups are objects of their own,
one for each index below `n`.

Key definitions: `allocateSlots`, `Extends`, `FreesOnly`.
Key theorems: `allocateSlots_of_kept`, `allocateSlots_rolled_back`,
`partial_allocation_rolled_back`.
-/
import LlmRio.Domain
import Mathlib.Data.Fintype.Basic
import Mathlib.Tactic.FinCases

namespace LlmRio
namespace Compat

/-- One of `single_type_managers`. `β`, `ι` and `κ` are its blocks, block ids
and copies. A list is `none` if the group has no such list. -/
structure Group (β ι κ : Type) where
  reqToBlocks : RequestId → Option (List β)
  newBlockIds : Option (List ι)
  pendingCowCopies : Option (List κ)

/-- The KV-cache manager: its groups, and `ω` for all else. -/
structure Manager (n : ℕ) (β ι κ ω : Type) where
  groups : Fin n → Group β ι κ
  rest : ω

structure KvRequest where
  requestId : RequestId
  status : String

variable {n : ℕ} {β ι κ ω ρ : Type}

namespace Group

/-- `group.req_to_blocks.get(request_id, ())` -/
def blocks (g : Group β ι κ) (requestId : RequestId) : List β := (g.reqToBlocks requestId).getD []

/-- The lists are cut back to these lengths. -/
def truncate (g : Group β ι κ) (newIdCount cowCount : ℕ) : Group β ι κ :=
  { g with
    newBlockIds := g.newBlockIds.map (·.take newIdCount)
    pendingCowCopies := g.pendingCowCopies.map (·.take cowCount) }

/-- `len(getattr(group, "new_block_ids", ()))` -/
def newIdCount (g : Group β ι κ) : ℕ := (g.newBlockIds.getD []).length

/-- `len(getattr(group, "_pending_cow_copies", ()))` -/
def cowCount (g : Group β ι κ) : ℕ := (g.pendingCowCopies.getD []).length

end Group

/-- `_request_status_name`; the names are ASCII. -/
def requestStatusName (request : KvRequest) : String :=
  String.ofList (request.status.toList.map Char.toUpper)

/-- The request is not running. -/
def Waits (request : KvRequest) : Prop := requestStatusName request ∈ ["WAITING", "PREEMPTED"]

instance (request : KvRequest) : Decidable (Waits request) := inferInstanceAs (Decidable (_ ∈ _))

/-- The shim's `allocate_slots`. `original` is what it wraps, with its result
and the manager afterwards, and `free` is `manager.free`. -/
def allocateSlots (original : Manager n β ι κ ω → Option ρ × Manager n β ι κ ω)
    (free : KvRequest → Manager n β ι κ ω → Manager n β ι κ ω) (request : Option KvRequest)
    (manager : Manager n β ι κ ω) : Option ρ × Manager n β ι κ ω :=
  match request with
  | none => original manager
  | some request =>
    if n = 0 then original manager
    else
      let (result, after) := original manager
      if result.isSome ∨ ¬ Waits request then (result, after)
      else if ¬ ∃ i, ((manager.groups i).blocks request.requestId).length <
          ((after.groups i).blocks request.requestId).length then (result, after)
      else
        let restored := { after with
          groups := fun i => (after.groups i).truncate (manager.groups i).newIdCount (manager.groups i).cowCount }
        (none, free request restored)

/-! ### What the code relies on -/

/-- The list was there before, if it is there now, and has grown at its end. -/
def Grown {α : Type} (before after : Option (List α)) : Prop :=
  (before = none ∧ after = none) ∨ ∃ xs suffix, before = some xs ∧ after = some (xs ++ suffix)

/-- The group has appended blocks for the request, or none, and grown its
lists; the other requests' blocks are as they were. -/
structure Extends (requestId : RequestId) (g g' : Group β ι κ) : Prop where
  blocks : ∃ appended, g'.blocks requestId = g.blocks requestId ++ appended
  others : ∀ other, other ≠ requestId → g'.reqToBlocks other = g.reqToBlocks other
  newBlockIds : Grown g.newBlockIds g'.newBlockIds
  pendingCowCopies : Grown g.pendingCowCopies g'.pendingCowCopies

/-- `manager.free(request)` removes exactly the blocks of the request. -/
def FreesOnly (free : KvRequest → Manager n β ι κ ω → Manager n β ι κ ω) : Prop :=
  ∀ request manager i,
    ((free request manager).groups i).blocks request.requestId = [] ∧
      (∀ other, other ≠ request.requestId →
        ((free request manager).groups i).reqToBlocks other = (manager.groups i).reqToBlocks other) ∧
      ((free request manager).groups i).newBlockIds = (manager.groups i).newBlockIds ∧
      ((free request manager).groups i).pendingCowCopies = (manager.groups i).pendingCowCopies

/-- The request holds nothing in the group, which is otherwise as before. -/
structure RolledBack (requestId : RequestId) (g g' : Group β ι κ) : Prop where
  blocks : g'.blocks requestId = []
  others : ∀ other, other ≠ requestId → g'.reqToBlocks other = g.reqToBlocks other
  newBlockIds : g'.newBlockIds = g.newBlockIds
  pendingCowCopies : g'.pendingCowCopies = g.pendingCowCopies

/-! ### The rollback -/

variable {original : Manager n β ι κ ω → Option ρ × Manager n β ι κ ω}
  {free : KvRequest → Manager n β ι κ ω → Manager n β ι κ ω} {request : KvRequest} {manager : Manager n β ι κ ω}

/-- A list that has grown is cut back to what it was. -/
theorem Grown.take {α : Type} {before after : Option (List α)} (h : Grown before after) :
    after.map (·.take (before.getD []).length) = before := by
  rcases h with ⟨rfl, rfl⟩ | ⟨xs, suffix, rfl, rfl⟩
  · rfl
  · simp

/-- A result, or a request that is not waiting, passes through. -/
theorem allocateSlots_of_kept (h : (original manager).1.isSome ∨ ¬ Waits request) :
    allocateSlots original free (some request) manager = original manager := by
  by_cases hgroups : n = 0
  · simp only [allocateSlots, if_pos hgroups]
  · simp only [allocateSlots, if_neg hgroups, if_pos h]

/-- Otherwise the groups are cut back and the request is freed, if a group has
appended blocks. -/
theorem allocateSlots_rolled_back (hnone : (original manager).1 = none) (hwaits : Waits request)
    (hgrown : ∃ i, ((manager.groups i).blocks request.requestId).length <
      (((original manager).2.groups i).blocks request.requestId).length) :
    allocateSlots original free (some request) manager =
      (none, free request { (original manager).2 with
        groups := fun i => ((original manager).2.groups i).truncate
          (manager.groups i).newIdCount (manager.groups i).cowCount }) := by
  obtain ⟨i, hi⟩ := hgrown
  have hgroups : n ≠ 0 := by
    have hlt := i.isLt
    omega
  have hpass : ¬ ((original manager).1.isSome ∨ ¬ Waits request) := by
    rw [hnone]
    simpa using hwaits
  have hsome : ∃ i, ((manager.groups i).blocks request.requestId).length <
      (((original manager).2.groups i).blocks request.requestId).length := ⟨i, hi⟩
  unfold allocateSlots
  simp only [if_neg hgroups, if_neg hpass, if_neg (not_not.mpr hsome)]

/-- A group that has grown is rolled back. -/
theorem rolledBack {g g' freed : Group β ι κ} {requestId : RequestId} (h : Extends requestId g g')
    (hblocks : freed.blocks requestId = [])
    (hothers : ∀ other, other ≠ requestId → freed.reqToBlocks other = g'.reqToBlocks other)
    (hids : freed.newBlockIds = (g'.truncate g.newIdCount g.cowCount).newBlockIds)
    (hcows : freed.pendingCowCopies = (g'.truncate g.newIdCount g.cowCount).pendingCowCopies) :
    RolledBack requestId g freed where
  blocks := hblocks
  others other hne := (hothers other hne).trans (h.others other hne)
  newBlockIds := hids.trans h.newBlockIds.take
  pendingCowCopies := hcows.trans h.pendingCowCopies.take

/-- **Partial KV allocations are rolled back.** A waiting request that held
nothing holds nothing after a failed allocation, whichever groups had served
it; a result and a running request pass through. -/
theorem partial_allocation_rolled_back {n : ℕ} {β ι κ ω ρ : Type}
    (original : Manager n β ι κ ω → Option ρ × Manager n β ι κ ω)
    (free : KvRequest → Manager n β ι κ ω → Manager n β ι κ ω) (hfree : FreesOnly free)
    (request : KvRequest) (manager : Manager n β ι κ ω) :
    (Waits request → (∀ i, (manager.groups i).blocks request.requestId = []) → (original manager).1 = none →
      (∀ i, Extends request.requestId (manager.groups i) ((original manager).2.groups i)) →
      (∃ i, ((original manager).2.groups i).blocks request.requestId ≠ []) →
      (allocateSlots original free (some request) manager).1 = none ∧
        ∀ i, RolledBack request.requestId (manager.groups i)
          ((allocateSlots original free (some request) manager).2.groups i)) ∧
    ((original manager).1.isSome ∨ ¬ Waits request →
      allocateSlots original free (some request) manager = original manager) := by
  refine ⟨fun hwaits hempty hnone hextends hserved => ?_, allocateSlots_of_kept⟩
  obtain ⟨i, hi⟩ := hserved
  have hgrown : ((manager.groups i).blocks request.requestId).length <
      (((original manager).2.groups i).blocks request.requestId).length := by
    rw [hempty i]
    exact List.length_pos_iff.mpr hi
  rw [allocateSlots_rolled_back hnone hwaits ⟨i, hgrown⟩]
  refine ⟨rfl, fun j => ?_⟩
  obtain ⟨hblocks, hothers, hids, hcows⟩ := hfree request { (original manager).2 with
    groups := fun i => ((original manager).2.groups i).truncate
      (manager.groups i).newIdCount (manager.groups i).cowCount } j
  exact rolledBack (hextends j) hblocks hothers hids hcows

/-! ### Two groups, the first of which has grown -/

/-- Nothing is held, and two lists of the second group are missing. -/
def idleManager : Manager 2 ℕ ℕ ℕ Unit where
  groups i := ⟨fun _ => none, if i = 0 then some [] else none, if i = 0 then some [3] else none⟩
  rest := ()

/-- The first group gives the request a block, the second has none. -/
def partialAllocation (requestId : RequestId) (manager : Manager 2 ℕ ℕ ℕ Unit) :
    Option Unit × Manager 2 ℕ ℕ ℕ Unit :=
  (none, { manager with
    groups := fun i =>
      if i = 0 then
        { manager.groups 0 with
          reqToBlocks := fun r =>
            if r = requestId then some ((manager.groups 0).blocks requestId ++ [7]) else (manager.groups 0).reqToBlocks r
          newBlockIds := (manager.groups 0).newBlockIds.map (· ++ [7]) }
      else manager.groups i })

/-- `req_to_blocks.pop(request.request_id, None)` in each group. -/
def popBlocks (request : KvRequest) (manager : Manager 2 ℕ ℕ ℕ Unit) : Manager 2 ℕ ℕ ℕ Unit :=
  { manager with
    groups := fun i =>
      { manager.groups i with
        reqToBlocks := fun r => if r = request.requestId then none else (manager.groups i).reqToBlocks r } }

theorem popBlocks_freesOnly : FreesOnly popBlocks := by
  intro request manager i
  refine ⟨by simp [popBlocks, Group.blocks], fun other hne => by simp [popBlocks, hne], rfl, rfl⟩

theorem partial_allocation_rolled_back_first :
    RolledBack "r" (idleManager.groups 0)
        ((allocateSlots (partialAllocation "r") popBlocks (some ⟨"r", "waiting"⟩) idleManager).2.groups 0) ∧
      RolledBack "r" (idleManager.groups 1)
        ((allocateSlots (partialAllocation "r") popBlocks (some ⟨"r", "waiting"⟩) idleManager).2.groups 1) := by
  have hextends : ∀ i, Extends "r" (idleManager.groups i) ((partialAllocation "r" idleManager).2.groups i) := by
    intro i
    fin_cases i
    · exact ⟨⟨[7], rfl⟩, fun other hne => if_neg hne, .inr ⟨[], [7], rfl, rfl⟩, .inr ⟨[3], [], rfl, rfl⟩⟩
    · exact ⟨⟨[], rfl⟩, fun other _ => rfl, .inl ⟨rfl, rfl⟩, .inl ⟨rfl, rfl⟩⟩
  have hall := ((partial_allocation_rolled_back (partialAllocation "r") popBlocks popBlocks_freesOnly ⟨"r", "waiting"⟩
    idleManager).1 (by decide +kernel) (fun _ => rfl) rfl hextends ⟨0, by decide⟩).2
  exact ⟨hall 0, hall 1⟩

end Compat
end LlmRio
