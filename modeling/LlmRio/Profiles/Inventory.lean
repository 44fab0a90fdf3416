/-
# The GPU sets of an inventory

`candidate_gpu_sets` enumerates the placements that are tried for a number of
GPUs: the subsets of that size whose GPUs are of one class, the pair of a
name and a VRAM size. The devices are grouped by class, each group is
enumerated in the order of its positions, and the candidates are sorted by
the cost of the links between their GPUs, ties by their UUIDs. As the UUIDs
of an inventory are distinct, each such subset comes out once
(`nodup_candidates`) and nothing else does (`mem_candidates`).

Key definitions: `MachineInventory`, `candidateGpuSets`, `Homogeneous`.
Key theorems: `nodup_candidates`, `mem_candidates`, `sorted_candidates`.
-/
import LlmRio.Domain
import LlmRio.Lib.Selection
import Mathlib.Algebra.GroupWithZero.Nat
import Mathlib.Data.Finset.Card
import Mathlib.Data.String.Basic

namespace LlmRio
namespace Profiles

open Selection

/-- `GpuDevice`, with the fields that a placement depends on. -/
structure GpuDevice where
  uuid : GpuUuid
  index : ℤ
  name : String
  totalVramMib : ℤ
deriving DecidableEq, Repr

/-- `MachineInventory`: the managed GPUs, each with a UUID of its own, and the
links between them by name. -/
structure MachineInventory where
  gpus : List GpuDevice
  topology : List (String × List (String × String)) := []
  distinct : (gpus.map (·.uuid)).Nodup

/-- The key of `by_model`. -/
def GpuDevice.gpuClass (device : GpuDevice) : String × ℤ := (device.name, device.totalVramMib)

/-! ### `candidate_gpu_sets` -/

def linkCost : List (String × ℕ) :=
  [("X", 0), ("NV18", 1), ("NV12", 2), ("NV8", 3), ("NV4", 4), ("NV2", 5), ("NV1", 6), ("PIX", 10), ("PXB", 20),
    ("PHB", 30), ("NODE", 40), ("SYS", 50)]

variable (inventory : MachineInventory)

/-- `f"GPU{device_by_uuid[uuid].index}"`; a candidate has UUIDs of the
inventory only. -/
def gpuName (uuid : GpuUuid) : String :=
  match inventory.gpus.find? (·.uuid = uuid) with
  | some device => "GPU" ++ toString device.index
  | none => "GPU"

def pairCost (left right : GpuUuid) : ℕ :=
  let peers := (inventory.topology.lookup (gpuName inventory left)).getD []
  let link := (peers.lookup (gpuName inventory right)).getD "SYS"
  let known := if ['N', 'V'] <+: link.toList ∧ (linkCost.lookup link).isNone then "NV1" else link
  (linkCost.lookup known).getD 50

/-- The first part of `topology_cost`. -/
def topologyCost (group : List GpuUuid) : ℕ :=
  ((combinations 2 group).map fun pair =>
    match pair with
    | [left, right] => pairCost inventory left right
    | _ => 0).sum

/-- `candidates` before they are sorted. -/
def unsortedCandidates (gpuCount : ℕ) : List (List GpuUuid) :=
  (groupedBy GpuDevice.gpuClass inventory.gpus).flatMap fun (_, devices) =>
    (combinations gpuCount devices).map fun group => group.map (·.uuid)

def candidateGpuSets (gpuCount : ℕ) : List (List GpuUuid) :=
  sortedBy (fun group => toLex (topologyCost inventory group, group)) (unsortedCandidates inventory gpuCount)

/-! ### The subsets of one class -/

/-- A set of that many GPUs of one class. -/
def Homogeneous (gpuCount : ℕ) (gpus : Finset GpuUuid) : Prop :=
  gpus.card = gpuCount ∧ ∃ name vram, ∀ uuid ∈ gpus, ∃ device ∈ inventory.gpus,
    device.uuid = uuid ∧ device.name = name ∧ device.totalVramMib = vram

/-- The UUIDs of a class. -/
def classUuids (c : String × ℤ) : List GpuUuid := (inventory.gpus.filter (·.gpuClass = c)).map (·.uuid)

variable {inventory} {gpuCount : ℕ} {gpuSet : List GpuUuid}

theorem mem_classUuids {c : String × ℤ} {uuid : GpuUuid} :
    uuid ∈ classUuids inventory c ↔ ∃ device ∈ inventory.gpus, device.uuid = uuid ∧ device.gpuClass = c := by
  rw [classUuids, List.mem_map]
  simp only [List.mem_filter, decide_eq_true_eq, and_assoc, and_comm (a := _ = uuid)]

theorem classUuids_sublist (c : String × ℤ) :
    (classUuids inventory c).Sublist (inventory.gpus.map (·.uuid)) :=
  List.filter_sublist.map _

theorem nodup_classUuids (c : String × ℤ) : (classUuids inventory c).Nodup :=
  inventory.distinct.sublist (classUuids_sublist c)

/-- A GPU has one class. -/
theorem class_unique {c c' : String × ℤ} {uuid : GpuUuid} (h : uuid ∈ classUuids inventory c)
    (h' : uuid ∈ classUuids inventory c') : c = c' := by
  obtain ⟨device, hdevice, huuid, rfl⟩ := mem_classUuids.mp h
  obtain ⟨device', hdevice', huuid', rfl⟩ := mem_classUuids.mp h'
  rw [List.inj_on_of_nodup_map inventory.distinct hdevice hdevice' (huuid.trans huuid'.symm)]

/-- The candidates are the combinations of each class that there is. -/
theorem exists_classes (inventory : MachineInventory) (gpuCount : ℕ) : ∃ classes : List (String × ℤ),
    classes.Nodup ∧ (∀ c, c ∈ classes ↔ ∃ device ∈ inventory.gpus, device.gpuClass = c) ∧
      unsortedCandidates inventory gpuCount =
        classes.flatMap fun c => combinations gpuCount (classUuids inventory c) := by
  obtain ⟨classes, hnodup, hclasses, heq⟩ := groupedBy_eq GpuDevice.gpuClass inventory.gpus
  refine ⟨classes, hnodup, hclasses, ?_⟩
  rw [unsortedCandidates, heq, List.flatMap_map]
  simp only [classUuids, combinations_map]

/-- A candidate has the GPUs of a class, in the order of the inventory. -/
theorem mem_unsorted (hpos : 1 ≤ gpuCount) : gpuSet ∈ unsortedCandidates inventory gpuCount ↔
    ∃ c, gpuSet.Sublist (classUuids inventory c) ∧ gpuSet.length = gpuCount := by
  obtain ⟨classes, -, hclasses, heq⟩ := exists_classes inventory gpuCount
  rw [heq, List.mem_flatMap]
  simp only [mem_combinations]
  constructor
  · rintro ⟨c, -, h⟩
    exact ⟨c, h⟩
  · rintro ⟨c, hsub, hlen⟩
    have hne : gpuSet ≠ [] := by
      rintro rfl
      rw [List.length_nil] at hlen
      omega
    obtain ⟨uuid, huuid⟩ := List.exists_mem_of_ne_nil gpuSet hne
    obtain ⟨device, hdevice, -, hclass⟩ := mem_classUuids.mp (hsub.subset huuid)
    exact ⟨c, (hclasses c).mpr ⟨device, hdevice, hclass⟩, hsub, hlen⟩

theorem nodup_unsorted (hpos : 1 ≤ gpuCount) : (unsortedCandidates inventory gpuCount).Nodup := by
  obtain ⟨classes, hnodup, -, heq⟩ := exists_classes inventory gpuCount
  rw [heq, List.nodup_flatMap]
  refine ⟨fun c _ => nodup_combinations gpuCount (nodup_classUuids c), hnodup.imp ?_⟩
  intro c c' hne s hs hs'
  obtain ⟨hsub, hlen⟩ := mem_combinations.mp hs
  obtain ⟨hsub', -⟩ := mem_combinations.mp hs'
  have hs : s ≠ [] := by
    rintro rfl
    rw [List.length_nil] at hlen
    omega
  obtain ⟨uuid, huuid⟩ := List.exists_mem_of_ne_nil s hs
  exact hne (class_unique (hsub.subset huuid) (hsub'.subset huuid))

theorem mem_candidateGpuSets (hpos : 1 ≤ gpuCount) : gpuSet ∈ candidateGpuSets inventory gpuCount ↔
    ∃ c, gpuSet.Sublist (classUuids inventory c) ∧ gpuSet.length = gpuCount :=
  mem_sortedBy.trans (mem_unsorted hpos)

/-- A candidate lists its GPUs once, in the order of the inventory. -/
theorem candidate_sublist (hpos : 1 ≤ gpuCount) (h : gpuSet ∈ candidateGpuSets inventory gpuCount) :
    gpuSet.Sublist (inventory.gpus.map (·.uuid)) ∧ gpuSet.Nodup ∧ gpuSet.length = gpuCount := by
  obtain ⟨c, hsub, hlen⟩ := (mem_candidateGpuSets hpos).mp h
  have hall := hsub.trans (classUuids_sublist c)
  exact ⟨hall, inventory.distinct.sublist hall, hlen⟩

/-! ### Each subset once -/

theorem nodup_candidates (hpos : 1 ≤ gpuCount) :
    ((candidateGpuSets inventory gpuCount).map List.toFinset).Nodup := by
  have hnodup : (candidateGpuSets inventory gpuCount).Nodup :=
    (perm_sortedBy _ _).nodup_iff.mpr (nodup_unsorted hpos)
  refine hnodup.map_on fun s hs t ht heq => ?_
  obtain ⟨hsub, -, -⟩ := candidate_sublist hpos hs
  obtain ⟨hsub', -, -⟩ := candidate_sublist hpos ht
  refine eq_of_sublists hsub hsub' inventory.distinct fun uuid => ?_
  rw [← List.mem_toFinset, heq, List.mem_toFinset]

theorem homogeneous_of_candidate (hpos : 1 ≤ gpuCount) (h : gpuSet ∈ candidateGpuSets inventory gpuCount) :
    Homogeneous inventory gpuCount gpuSet.toFinset := by
  obtain ⟨-, hnodup, hlen⟩ := candidate_sublist hpos h
  obtain ⟨c, hsub, -⟩ := (mem_candidateGpuSets hpos).mp h
  refine ⟨by rw [List.toFinset_card_of_nodup hnodup, hlen], c.1, c.2, fun uuid huuid => ?_⟩
  obtain ⟨device, hdevice, heq, hclass⟩ := mem_classUuids.mp (hsub.subset (List.mem_toFinset.mp huuid))
  exact ⟨device, hdevice, heq, congrArg Prod.fst hclass, congrArg Prod.snd hclass⟩

/-- The candidates are the subsets of one class. -/
theorem mem_candidates (hpos : 1 ≤ gpuCount) {gpus : Finset GpuUuid} :
    gpus ∈ (candidateGpuSets inventory gpuCount).map List.toFinset ↔ Homogeneous inventory gpuCount gpus := by
  constructor
  · intro h
    obtain ⟨gpuSet, hmem, rfl⟩ := List.mem_map.mp h
    exact homogeneous_of_candidate hpos hmem
  · rintro ⟨hcard, name, vram, hall⟩
    have hclass : ∀ uuid ∈ gpus, uuid ∈ classUuids inventory (name, vram) := by
      intro uuid huuid
      obtain ⟨device, hdevice, heq, hname, hvram⟩ := hall uuid huuid
      exact mem_classUuids.mpr ⟨device, hdevice, heq, by rw [← hname, ← hvram]; rfl⟩
    -- the candidate is the part of the class that is in the set
    have hsub : ((classUuids inventory (name, vram)).filter (· ∈ gpus)).Sublist
        (classUuids inventory (name, vram)) := List.filter_sublist
    have hfinset : ((classUuids inventory (name, vram)).filter (· ∈ gpus)).toFinset = gpus := by
      ext uuid
      rw [List.mem_toFinset, List.mem_filter, decide_eq_true_eq]
      exact ⟨fun h => h.2, fun h => ⟨hclass uuid h, h⟩⟩
    have hlen : ((classUuids inventory (name, vram)).filter (· ∈ gpus)).length = gpuCount := by
      rw [← hcard, ← List.toFinset_card_of_nodup ((nodup_classUuids _).sublist hsub), hfinset]
    exact List.mem_map.mpr ⟨_, (mem_candidateGpuSets hpos).mpr ⟨_, hsub, hlen⟩, hfinset⟩

theorem sorted_candidates (inventory : MachineInventory) (gpuCount : ℕ) :
    (candidateGpuSets inventory gpuCount).Pairwise fun a b => topologyCost inventory a ≤ topologyCost inventory b := by
  have hsorted := pairwise_sortedBy (fun group => toLex (topologyCost inventory group, group))
    (unsortedCandidates inventory gpuCount)
  exact hsorted.imp fun {a b} h => Prod.Lex.monotone_fst (toLex (_, a)) (toLex (_, b)) h

end Profiles
end LlmRio
