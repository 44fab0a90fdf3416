/-
# Candidate shapes

`build_candidate_shapes` makes a shape for each number of GPUs for which some
candidate set has the VRAM that the weights need, with these sets as the
eligible ones. A set that has it contains a GPU with more VRAM than is
reserved, and all its GPUs have as much, so the smallest VRAM that the
automatic utilization divides by is positive (`smallest_pos`).

The estimate of the weights, `int(weight_bytes / (1024 * 1024) * 1.15)`, is a
float product and is taken as it is, like the floats of the request. The
reserved VRAM is a setting that is at least 0.

Key definitions: `ShapeRequest`, `buildCandidateShapes`, `usableMib`.
Key theorems: `buildCandidateShapes_ok`, `candidate_placements`.
-/
import LlmRio.Lib.Transactions
import LlmRio.Profiles.Inventory
import Mathlib.Algebra.BigOperators.Group.List.Basic

namespace LlmRio
namespace Profiles

open Selection

/-- The arguments of `build_candidate_shapes` but the inventory. -/
structure ShapeRequest where
  weightMib : ℤ
  maxModelLen : ℤ
  reservedVramMib : ℕ
  dtype : String
  quantization : Option String
  gpuMemoryUtilization : Option ℚ := none
  maxModelLenLimit : Option ℤ := none
  maxNumSeqs : Option ℤ := none
  maxNumBatchedTokens : Option ℤ := none

structure CandidateShape where
  gpuCount : ℕ
  tensorParallelSize : ℕ
  maxModelLen : ℤ
  maxNumSeqs : Option ℤ
  maxNumBatchedTokens : Option ℤ
  gpuMemoryUtilization : ℚ
  dtype : String
  quantization : Option String
  eligibleGpuSets : List (List GpuUuid)
deriving DecidableEq, Repr

inductive ArithmeticError
  /-- `min()` of nothing. -/
  | emptyMin
  | zeroDivision
deriving DecidableEq, Repr

variable (inventory : MachineInventory) (request : ShapeRequest)

/-! ### `build_candidate_shapes` -/

def requiredMib : ℤ := max 1 request.weightMib

/-- `usable`, for the GPUs in a set. -/
def usableMib (gpus : Finset GpuUuid) : ℤ :=
  ((inventory.gpus.filter (·.uuid ∈ gpus)).map fun device =>
    max (0 : ℤ) (device.totalVramMib - request.reservedVramMib)).sum

def viableSets (gpuCount : ℕ) : List (List GpuUuid) :=
  (candidateGpuSets inventory gpuCount).filter fun gpuSet =>
    requiredMib request ≤ usableMib inventory request gpuSet.toFinset

def automaticUtilization (sets : List (List GpuUuid)) : Except ArithmeticError ℚ :=
  match (inventory.gpus.filter fun device => sets.any (device.uuid ∈ ·)).map (·.totalVramMib) with
  | [] => .error .emptyMin
  | total :: totals =>
    let smallestVramMib := smallest total totals
    if smallestVramMib = 0 then .error .zeroDivision
    else .ok (max (1 / 100) (min 1 (((smallestVramMib - request.reservedVramMib : ℤ) : ℚ) / smallestVramMib)))

/-- The shape with these eligible sets. -/
def shapeOf (gpuCount : ℕ) (sets : List (List GpuUuid)) (automatic : ℚ) : CandidateShape where
  gpuCount := gpuCount
  tensorParallelSize := gpuCount
  maxModelLen := (request.maxModelLenLimit.map (min request.maxModelLen)).getD request.maxModelLen
  maxNumSeqs := request.maxNumSeqs
  maxNumBatchedTokens := request.maxNumBatchedTokens
  gpuMemoryUtilization := request.gpuMemoryUtilization.getD automatic
  dtype := request.dtype
  quantization := request.quantization
  eligibleGpuSets := sets

/-- What one turn of the loop adds to `candidates`. -/
def candidateShapes (gpuCount : ℕ) : Except ArithmeticError (List CandidateShape) :=
  let sets := viableSets inventory request gpuCount
  if sets = [] then .ok []
  else (automaticUtilization inventory request sets).map fun automatic => [shapeOf request gpuCount sets automatic]

def buildCandidateShapes : Except ArithmeticError (List CandidateShape) :=
  ((List.range' 1 inventory.gpus.length).mapM (candidateShapes inventory request)).map List.flatten

variable {inventory request} {gpuCount : ℕ} {gpuSet : List GpuUuid}

/-! ### The division -/

/-- A set with usable VRAM has a GPU with more VRAM than is reserved. -/
theorem exists_larger {gpus : Finset GpuUuid} (h : 1 ≤ usableMib inventory request gpus) :
    ∃ device ∈ inventory.gpus, device.uuid ∈ gpus ∧ (request.reservedVramMib : ℤ) < device.totalVramMib := by
  by_contra hnone
  have hzero : usableMib inventory request gpus = 0 := by
    apply List.sum_eq_zero
    intro mib hmib
    obtain ⟨device, hdevice, rfl⟩ := List.mem_map.mp hmib
    obtain ⟨hmem, huuid⟩ := List.mem_filter.mp hdevice
    by_contra hpos
    exact hnone ⟨device, hmem, by simpa using huuid, by omega⟩
  omega

/-- All GPUs of a viable set have VRAM. -/
theorem total_pos (hpos : 1 ≤ gpuCount) (h : gpuSet ∈ viableSets inventory request gpuCount) {device : GpuDevice}
    (hdevice : device ∈ inventory.gpus) (huuid : device.uuid ∈ gpuSet) : 0 < device.totalVramMib := by
  obtain ⟨hcandidate, husable⟩ := List.mem_filter.mp h
  obtain ⟨c, hsub, -⟩ := (mem_candidateGpuSets hpos).mp hcandidate
  have hone : 1 ≤ usableMib inventory request gpuSet.toFinset :=
    le_trans (le_max_left 1 request.weightMib) (of_decide_eq_true husable)
  obtain ⟨larger, hlarger, hmem, hlt⟩ := exists_larger hone
  have hclass : ∀ d ∈ inventory.gpus, d.uuid ∈ gpuSet → d.totalVramMib = c.2 := by
    intro d hd hin
    obtain ⟨d', hd', heq, rfl⟩ := mem_classUuids.mp (hsub.subset hin)
    rw [List.inj_on_of_nodup_map inventory.distinct hd' hd heq]
    rfl
  rw [hclass device hdevice huuid, ← hclass larger hlarger (List.mem_toFinset.mp hmem)]
  omega

theorem automaticUtilization_ok (hpos : 1 ≤ gpuCount) (hne : viableSets inventory request gpuCount ≠ []) :
    ∃ automatic, automaticUtilization inventory request (viableSets inventory request gpuCount) = .ok automatic := by
  have hall : ∀ total ∈ (inventory.gpus.filter fun device =>
      (viableSets inventory request gpuCount).any (device.uuid ∈ ·)).map (·.totalVramMib), 0 < total := by
    intro total htotal
    obtain ⟨device, hdevice, rfl⟩ := List.mem_map.mp htotal
    obtain ⟨hmem, hany⟩ := List.mem_filter.mp hdevice
    obtain ⟨gpuSet, hset, huuid⟩ := List.any_eq_true.mp hany
    exact total_pos hpos hset hmem (of_decide_eq_true huuid)
  have hsome : ∃ device ∈ inventory.gpus, (viableSets inventory request gpuCount).any (device.uuid ∈ ·) = true := by
    obtain ⟨gpuSet, hset⟩ := List.exists_mem_of_ne_nil _ hne
    obtain ⟨hsub, -, hlen⟩ := candidate_sublist hpos (List.mem_of_mem_filter hset)
    obtain ⟨uuid, huuid⟩ := List.exists_mem_of_length_pos (hlen ▸ hpos)
    obtain ⟨device, hdevice, rfl⟩ := List.mem_map.mp (hsub.subset huuid)
    exact ⟨device, hdevice, List.any_eq_true.mpr ⟨gpuSet, hset, decide_eq_true huuid⟩⟩
  unfold automaticUtilization
  split
  · rename_i hnil
    obtain ⟨device, hdevice, hany⟩ := hsome
    rw [List.map_eq_nil_iff, List.filter_eq_nil_iff] at hnil
    exact absurd hany (hnil device hdevice)
  · rename_i total totals heq
    rw [heq] at hall
    have hsmallest : 0 < smallest total totals := by
      rcases smallest_mem totals total with h | h
      · rw [h]
        exact hall total List.mem_cons_self
      · exact hall _ (List.mem_cons_of_mem total h)
    exact ⟨_, if_neg hsmallest.ne'⟩

/-! ### The shapes -/

theorem candidateShapes_ok (hpos : 1 ≤ gpuCount) : ∃ shapes, candidateShapes inventory request gpuCount = .ok shapes ∧
    shapes.map (·.gpuCount) = [gpuCount].filter (viableSets inventory request · ≠ []) ∧
      ∀ shape ∈ shapes, shape.tensorParallelSize = shape.gpuCount ∧
        shape.eligibleGpuSets = viableSets inventory request shape.gpuCount := by
  unfold candidateShapes
  by_cases hnil : viableSets inventory request gpuCount = []
  · exact ⟨[], if_pos hnil, by simp [hnil], by simp⟩
  · obtain ⟨automatic, hok⟩ := automaticUtilization_ok hpos hnil
    refine ⟨[shapeOf request gpuCount (viableSets inventory request gpuCount) automatic], ?_, ?_, ?_⟩
    · rw [if_neg hnil, hok]
      rfl
    · simp [shapeOf, hnil]
    · intro shape hshape
      obtain rfl := List.mem_singleton.mp hshape
      exact ⟨rfl, rfl⟩

/-- No turn of the loop raises, and the shapes are those of the counts that
have a viable set. -/
theorem mapM_candidateShapes : ∀ {counts : List ℕ}, (∀ k ∈ counts, 1 ≤ k) →
    ∃ shapes, (counts.mapM (candidateShapes inventory request)).map List.flatten = .ok shapes ∧
      shapes.map (·.gpuCount) = counts.filter (viableSets inventory request · ≠ []) ∧
      ∀ shape ∈ shapes, shape.tensorParallelSize = shape.gpuCount ∧
        shape.eligibleGpuSets = viableSets inventory request shape.gpuCount
  | [], _ => ⟨[], rfl, rfl, by simp⟩
  | k :: counts, hpos => by
    obtain ⟨first, hfirst, hcount, hsets⟩ :=
      @candidateShapes_ok inventory request k (hpos k List.mem_cons_self)
    obtain ⟨rest, hrest, hcounts, hsets'⟩ :=
      mapM_candidateShapes fun j hj => hpos j (List.mem_cons_of_mem k hj)
    obtain ⟨turns, hturns, rfl⟩ := Transactions.map_eq_ok hrest
    refine ⟨first ++ turns.flatten, ?_, ?_, fun shape hshape => ?_⟩
    · rw [List.mapM_cons, hfirst, hturns]
      rfl
    · rw [List.map_append, hcount, hcounts, ← List.filter_append, List.singleton_append]
    · exact (List.mem_append.mp hshape).elim (hsets shape) (hsets' shape)

theorem buildCandidateShapes_ok (inventory : MachineInventory) (request : ShapeRequest) :
    ∃ shapes, buildCandidateShapes inventory request = .ok shapes ∧
      shapes.map (·.gpuCount) =
        (List.range' 1 inventory.gpus.length).filter (viableSets inventory request · ≠ []) ∧
      ∀ shape ∈ shapes, shape.tensorParallelSize = shape.gpuCount ∧
        shape.eligibleGpuSets = viableSets inventory request shape.gpuCount :=
  mapM_candidateShapes fun _ hk => (List.mem_range'_1.mp hk).1

/-- The shapes are in increasing count. -/
theorem increasing_shapes {shapes : List CandidateShape} (hok : buildCandidateShapes inventory request = .ok shapes) :
    shapes.Pairwise fun a b => a.gpuCount < b.gpuCount := by
  obtain ⟨shapes', hok', hcounts, -⟩ := buildCandidateShapes_ok inventory request
  rw [hok] at hok'
  cases hok'
  have hrange : (List.range' 1 inventory.gpus.length).Pairwise (· < ·) := List.pairwise_lt_range'
  have hincreasing : (shapes.map (·.gpuCount)).Pairwise (· < ·) := by
    rw [hcounts]
    exact hrange.filter _
  exact List.pairwise_map.mp hincreasing

theorem positive_shapes {shapes : List CandidateShape} (hok : buildCandidateShapes inventory request = .ok shapes) :
    ∀ shape ∈ shapes, 1 ≤ shape.gpuCount := by
  obtain ⟨shapes', hok', hcounts, -⟩ := buildCandidateShapes_ok inventory request
  rw [hok] at hok'
  cases hok'
  intro shape hshape
  have hcount : shape.gpuCount ∈ shapes.map (·.gpuCount) := List.mem_map_of_mem hshape
  rw [hcounts] at hcount
  exact (List.mem_range'_1.mp (List.mem_of_mem_filter hcount)).1

/-! ### The viable sets -/

theorem mem_viableSets (hpos : 1 ≤ gpuCount) {gpus : Finset GpuUuid} :
    gpus ∈ (viableSets inventory request gpuCount).map List.toFinset ↔
      Homogeneous inventory gpuCount gpus ∧ requiredMib request ≤ usableMib inventory request gpus := by
  rw [← mem_candidates hpos, List.mem_map, List.mem_map]
  constructor
  · rintro ⟨gpuSet, hset, rfl⟩
    obtain ⟨hmem, husable⟩ := List.mem_filter.mp hset
    exact ⟨⟨gpuSet, hmem, rfl⟩, of_decide_eq_true husable⟩
  · rintro ⟨⟨gpuSet, hmem, rfl⟩, husable⟩
    exact ⟨gpuSet, List.mem_filter.mpr ⟨hmem, decide_eq_true husable⟩, rfl⟩

theorem nodup_viableSets (hpos : 1 ≤ gpuCount) :
    ((viableSets inventory request gpuCount).map List.toFinset).Nodup :=
  (nodup_candidates hpos).sublist (List.filter_sublist.map _)

/-- The numbers of GPUs that some subset with the VRAM has. -/
theorem viable_iff : gpuCount ∈ (List.range' 1 inventory.gpus.length).filter (viableSets inventory request · ≠ []) ↔
    1 ≤ gpuCount ∧ ∃ gpus, Homogeneous inventory gpuCount gpus ∧
      requiredMib request ≤ usableMib inventory request gpus := by
  rw [List.mem_filter, decide_eq_true_eq, List.mem_range'_1]
  constructor
  · rintro ⟨⟨hpos, -⟩, hne⟩
    obtain ⟨gpuSet, hset⟩ := List.exists_mem_of_ne_nil _ hne
    exact ⟨hpos, gpuSet.toFinset, (mem_viableSets hpos).mp (List.mem_map_of_mem hset)⟩
  · rintro ⟨hpos, gpus, hgpus⟩
    obtain ⟨gpuSet, hset, -⟩ := List.mem_map.mp ((mem_viableSets hpos).mpr hgpus)
    obtain ⟨hsub, -, hlen⟩ := candidate_sublist hpos (List.mem_of_mem_filter hset)
    have hle := hsub.length_le
    rw [List.length_map] at hle
    exact ⟨⟨hpos, by omega⟩, List.ne_nil_of_mem hset⟩

/-- **Candidate placements are complete and exact.** The candidate sets are
the subsets of one class, each once, in the order of the topology cost, and
the shapes are those of the counts for which a subset has the VRAM, with
exactly these subsets, in increasing count; no division is by zero. -/
theorem candidate_placements (inventory : MachineInventory) (request : ShapeRequest) :
    (∀ gpuCount, 1 ≤ gpuCount →
      (∀ gpuSet ∈ candidateGpuSets inventory gpuCount, gpuSet.Nodup) ∧
      ((candidateGpuSets inventory gpuCount).map List.toFinset).Nodup ∧
      (∀ gpus, gpus ∈ (candidateGpuSets inventory gpuCount).map List.toFinset ↔
        Homogeneous inventory gpuCount gpus) ∧
      (candidateGpuSets inventory gpuCount).Pairwise fun a b =>
        topologyCost inventory a ≤ topologyCost inventory b) ∧
    ∃ shapes, buildCandidateShapes inventory request = .ok shapes ∧
      shapes.Pairwise (fun a b => a.gpuCount < b.gpuCount) ∧
      (∀ gpuCount, (∃ shape ∈ shapes, shape.gpuCount = gpuCount) ↔ 1 ≤ gpuCount ∧
        ∃ gpus, Homogeneous inventory gpuCount gpus ∧ requiredMib request ≤ usableMib inventory request gpus) ∧
      ∀ shape ∈ shapes, shape.tensorParallelSize = shape.gpuCount ∧
        (shape.eligibleGpuSets.map List.toFinset).Nodup ∧
        ∀ gpus, gpus ∈ shape.eligibleGpuSets.map List.toFinset ↔ Homogeneous inventory shape.gpuCount gpus ∧
          requiredMib request ≤ usableMib inventory request gpus := by
  constructor
  · intro gpuCount hpos
    exact ⟨fun gpuSet hset => (candidate_sublist hpos hset).2.1, nodup_candidates hpos,
      fun gpus => mem_candidates hpos, sorted_candidates inventory gpuCount⟩
  · obtain ⟨shapes, hok, hcounts, hsets⟩ := buildCandidateShapes_ok inventory request
    have hmem : ∀ gpuCount, (∃ shape ∈ shapes, shape.gpuCount = gpuCount) ↔ 1 ≤ gpuCount ∧
        ∃ gpus, Homogeneous inventory gpuCount gpus ∧
          requiredMib request ≤ usableMib inventory request gpus := by
      intro gpuCount
      rw [← List.mem_map, hcounts, viable_iff]
    refine ⟨shapes, hok, increasing_shapes hok, hmem, fun shape hshape => ?_⟩
    obtain ⟨hpos, -⟩ := (hmem shape.gpuCount).mp ⟨shape, hshape, rfl⟩
    obtain ⟨htensor, heligible⟩ := hsets shape hshape
    rw [heligible]
    exact ⟨htensor, nodup_viableSets hpos, fun gpus => mem_viableSets hpos⟩

/-- Three GPUs of two classes: two are tried together, and weights of 30 GiB
fit on these two only. -/
def threeGpus : MachineInventory where
  gpus := [⟨"a", 0, "A", 24000⟩, ⟨"b", 1, "B", 16000⟩, ⟨"c", 2, "A", 24000⟩]
  distinct := by decide

def thirtyGib : ShapeRequest where
  weightMib := 30720
  maxModelLen := 4096
  reservedVramMib := 2048
  dtype := "auto"
  quantization := none

example : (buildCandidateShapes threeGpus thirtyGib).map (·.map (·.eligibleGpuSets)) = .ok [[["a", "c"]]] := by
  decide +kernel

end Profiles
end LlmRio
