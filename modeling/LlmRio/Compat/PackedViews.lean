/-
# Packed views of the KV cache

vLLM packs K and V into the last dimension of an attention cache. kvcached
allocates such a cache as blocks of an explicit shape, and `_packed_views`
makes of each buffer the view that vLLM expects: its first axis counts kernel
blocks, its stride order (block, token, head, channel) is not the order of
the shape (block, head, token, channel), and a logical block is split into
`ratio` kernel blocks.

The strides are those of a dense view (`dense_packedAxes`): each index tuple
has an offset of its own, every offset below the number of elements is used,
and the kernel blocks of a logical block are its page.

PyTorch's `as_strided` is a view with the shape and the strides it is given.
Sizes are naturals; a kernel block size of `None` or 0 is that of the block.

Key definitions: `packedViews`, `packedAxes`, `allocPackedKvCache`.
Key theorems: `dense_packedAxes`, `alloc_page`, `packed_views_exact`.
-/
import LlmRio.Lib.Strides
import LlmRio.Lib.Transactions
import Mathlib.Algebra.Group.Even

namespace LlmRio
namespace Compat

open Strides

inductive Raised
  | valueError (message : String)
  | runtimeError (message : String)
  | zeroDivisionError
deriving DecidableEq, Repr

/-- What `torch.as_strided` returns for a buffer. -/
structure View (β : Type) where
  buffer : β
  shape : List ℕ
  strides : List ℕ
deriving DecidableEq, Repr

def View.axes {β : Type} (v : View β) : List Axis := List.zipWith Axis.mk v.shape v.strides

/-! ### `_packed_views` -/

/-- `kernel_block_size or block_size` -/
def kernelSize (kernelBlockSize : Option ℕ) (blockSize : ℕ) : ℕ :=
  match kernelBlockSize with
  | none | some 0 => blockSize
  | some size => size

def packedShape (numBlocks numHeads blockSize packedHeadSize kernel : ℕ) : List ℕ :=
  [numBlocks * (blockSize / kernel), numHeads, kernel, packedHeadSize]

def packedStrides (numHeads packedHeadSize kernel : ℕ) : List ℕ :=
  [numHeads * kernel * packedHeadSize, packedHeadSize, numHeads * packedHeadSize, 1]

def packedViews {β : Type} (buffers : List β) (numBlocks numHeads blockSize packedHeadSize : ℕ)
    (kernelBlockSize : Option ℕ) : Except Raised (List (View β)) :=
  let kernel := kernelSize kernelBlockSize blockSize
  -- `block_size % 0`
  if kernel = 0 then .error .zeroDivisionError
  else if blockSize % kernel ≠ 0 then
    .error (.valueError s!"block_size ({blockSize}) must be a multiple of kernel_block_size ({kernel})")
  else .ok (buffers.map fun buffer =>
    { buffer := buffer
      shape := packedShape numBlocks numHeads blockSize packedHeadSize kernel
      strides := packedStrides numHeads packedHeadSize kernel })

/-! ### `alloc_kv_cache` and `build_kv_views` on packed shapes -/

/-- `_validate_packed_shape`; a shape of another length does not get there. -/
def validatePackedShape (kvcacheShape : List ℕ) (blockSize : ℕ) (kvLayout : String) :
    Except Raised (ℕ × ℕ × ℕ) :=
  match kvcacheShape with
  | [requestedBlocks, numHeads, shapeBlockSize, packedHeadSize] =>
    if kvLayout ≠ "NHD" then .error (.valueError s!"LLM-RIO packed KV shim requires NHD, got {kvLayout}")
    else if shapeBlockSize ≠ blockSize then
      .error (.valueError
        s!"LLM-RIO packed KV shim received mismatched block sizes: {shapeBlockSize} != {blockSize}")
    else if packedHeadSize % 2 ≠ 0 then
      .error (.valueError "LLM-RIO packed KV shim requires an even packed head dimension")
    else .ok (requestedBlocks, numHeads, packedHeadSize)
  | _ => .error (.valueError "wrong number of values to unpack")

/-- `explicit_shape` -/
def explicitShape (requestedBlocks numHeads blockSize packedHeadSize : ℕ) : List ℕ :=
  [requestedBlocks, 2, blockSize, numHeads, packedHeadSize / 2]

/-- `raw_info`, what kvcached's own allocation returns. -/
structure RawInfo (β : Type) where
  buffers : List β
  numBlocks : ℕ
  isContiguous : Bool

/-- The packed branch of `alloc_kv_cache`. `original` is kvcached's
`alloc_kv_cache`, of which the shape and the raw information count here. -/
def allocPackedKvCache {β : Type} (original : List ℕ → Except Raised (RawInfo β)) (kvcacheShape : List ℕ)
    (blockSize : ℕ) (kvLayout : String) (kernelBlockSize : Option ℕ) : Except Raised (List (View β)) := do
  let (requestedBlocks, numHeads, packedHeadSize) ← validatePackedShape kvcacheShape blockSize kvLayout
  let rawInfo ← original (explicitShape requestedBlocks numHeads blockSize packedHeadSize)
  if rawInfo.isContiguous then
    .error (.runtimeError "LLM-RIO vLLM 0.26 packed KV support requires KVCACHED_CONTIGUOUS_LAYOUT=false")
  else
    packedViews rawInfo.buffers rawInfo.numBlocks numHeads blockSize packedHeadSize
      (some (kernelSize kernelBlockSize blockSize))

/-- The packed branch of `build_kv_views`: the views and `page_size_bytes`. -/
def buildPackedKvViews {β : Type} (rawKvTensors : List β) (kvcacheShape : List ℕ) (blockSize itemsize : ℕ)
    (numBlocksPerLayer : ℕ) (kernelBlockSize : Option ℕ) : Except Raised (List (View β) × ℕ) := do
  let (_, numHeads, packedHeadSize) ← validatePackedShape kvcacheShape blockSize "NHD"
  let views ← packedViews rawKvTensors numBlocksPerLayer numHeads blockSize packedHeadSize kernelBlockSize
  return (views, blockSize * numHeads * packedHeadSize * itemsize)

/-! ### The strides are dense -/

/-- The axes of a packed view. -/
def packedAxes (numBlocks numHeads blockSize packedHeadSize kernel : ℕ) : List Axis :=
  List.zipWith Axis.mk (packedShape numBlocks numHeads blockSize packedHeadSize kernel)
    (packedStrides numHeads packedHeadSize kernel)

/-- The elements of the page of a logical block. -/
def pageElements (numHeads blockSize packedHeadSize : ℕ) : ℕ := numHeads * blockSize * packedHeadSize

variable {numBlocks numHeads blockSize packedHeadSize kernel : ℕ}

/-- Within a kernel block the channels are innermost, then the heads, then the
tokens. -/
theorem dense_kernelBlock (numHeads packedHeadSize kernel : ℕ) :
    Dense [⟨numHeads, packedHeadSize⟩, ⟨kernel, numHeads * packedHeadSize⟩, ⟨packedHeadSize, 1⟩]
      (numHeads * kernel * packedHeadSize) := by
  have hchannel : Dense ([] ++ ⟨packedHeadSize, 1⟩ :: []) (1 * packedHeadSize) := .insert packedHeadSize .nil
  rw [Nat.one_mul] at hchannel
  have hhead : Dense ([] ++ ⟨numHeads, packedHeadSize⟩ :: [⟨packedHeadSize, 1⟩]) (packedHeadSize * numHeads) :=
    .insert numHeads hchannel
  rw [Nat.mul_comm] at hhead
  have htoken : Dense ([⟨numHeads, packedHeadSize⟩] ++ ⟨kernel, numHeads * packedHeadSize⟩ :: [⟨packedHeadSize, 1⟩])
      (numHeads * packedHeadSize * kernel) := .insert kernel hhead
  rwa [Nat.mul_right_comm] at htoken

theorem dense_packedAxes (hdvd : kernel ∣ blockSize) :
    Dense (packedAxes numBlocks numHeads blockSize packedHeadSize kernel)
      (numBlocks * numHeads * blockSize * packedHeadSize) := by
  have hblock : Dense ([] ++ ⟨numBlocks * (blockSize / kernel), numHeads * kernel * packedHeadSize⟩ :: _)
      (numHeads * kernel * packedHeadSize * (numBlocks * (blockSize / kernel))) :=
    .insert _ (dense_kernelBlock numHeads packedHeadSize kernel)
  have htotal : numHeads * kernel * packedHeadSize * (numBlocks * (blockSize / kernel)) =
      numBlocks * numHeads * blockSize * packedHeadSize := by
    calc numHeads * kernel * packedHeadSize * (numBlocks * (blockSize / kernel))
        = numBlocks * numHeads * (kernel * (blockSize / kernel)) * packedHeadSize := by ring
      _ = numBlocks * numHeads * blockSize * packedHeadSize := by rw [Nat.mul_div_cancel' hdvd]
  rwa [htotal] at hblock

/-- The kernel blocks of a logical block are its page. -/
theorem bijOn_page (hdvd : kernel ∣ blockSize) {j : ℕ} (hj : j < numBlocks) :
    Set.BijOn (offset (packedAxes numBlocks numHeads blockSize packedHeadSize kernel))
      {index | Within (packedAxes numBlocks numHeads blockSize packedHeadSize kernel) index ∧
        ∃ i ∈ index.head?, j * (blockSize / kernel) ≤ i ∧ i < (j + 1) * (blockSize / kernel)}
      (Set.Ico (j * pageElements numHeads blockSize packedHeadSize)
        ((j + 1) * pageElements numHeads blockSize packedHeadSize)) := by
  have hpage : ∀ k, k * (blockSize / kernel) * (numHeads * kernel * packedHeadSize) =
      k * pageElements numHeads blockSize packedHeadSize := by
    intro k
    calc k * (blockSize / kernel) * (numHeads * kernel * packedHeadSize)
        = k * (numHeads * (kernel * (blockSize / kernel)) * packedHeadSize) := by ring
      _ = k * pageElements numHeads blockSize packedHeadSize := by rw [Nat.mul_div_cancel' hdvd, pageElements]
  have hrange := bijOn_outermost (dense_kernelBlock numHeads packedHeadSize kernel)
    (a := j * (blockSize / kernel)) (Nat.mul_le_mul_right (blockSize / kernel) hj)
  rw [hpage, hpage] at hrange
  exact hrange

/-- The page of a block has the elements of an explicit block. -/
theorem explicit_block (requestedBlocks numHeads blockSize : ℕ) (heven : Even packedHeadSize) :
    (explicitShape requestedBlocks numHeads blockSize packedHeadSize).tail.prod =
      pageElements numHeads blockSize packedHeadSize := by
  have hhalf := Nat.two_mul_div_two_of_even heven
  calc (explicitShape requestedBlocks numHeads blockSize packedHeadSize).tail.prod
      = numHeads * blockSize * (2 * (packedHeadSize / 2)) := by
        simp only [explicitShape, List.tail_cons, List.prod_cons, List.prod_nil]
        ring
    _ = pageElements numHeads blockSize packedHeadSize := by rw [hhalf, pageElements]

theorem packedViews_ok {β : Type} (buffers : List β) (numBlocks numHeads packedHeadSize : ℕ)
    {kernelBlockSize : Option ℕ} (hpos : 0 < blockSize) (hdvd : kernelSize kernelBlockSize blockSize ∣ blockSize) :
    packedViews buffers numBlocks numHeads blockSize packedHeadSize kernelBlockSize =
      .ok (buffers.map fun buffer =>
        { buffer := buffer
          shape := packedShape numBlocks numHeads blockSize packedHeadSize (kernelSize kernelBlockSize blockSize)
          strides := packedStrides numHeads packedHeadSize (kernelSize kernelBlockSize blockSize) }) := by
  have hkernel : kernelSize kernelBlockSize blockSize ≠ 0 := by
    intro hzero
    rw [hzero, Nat.zero_dvd] at hdvd
    omega
  unfold packedViews
  simp only [if_neg hkernel, Nat.mod_eq_zero_of_dvd hdvd, ne_eq, not_true_eq_false, if_false]

theorem validatePackedShape_ok {kvcacheShape : List ℕ} {kvLayout : String} {requestedBlocks : ℕ}
    (h : validatePackedShape kvcacheShape blockSize kvLayout = .ok (requestedBlocks, numHeads, packedHeadSize)) :
    kvcacheShape = [requestedBlocks, numHeads, blockSize, packedHeadSize] ∧ Even packedHeadSize := by
  unfold validatePackedShape at h
  split at h
  · split at h
    · cases h
    · split at h
      · cases h
      · rename_i hblock
        split at h
        · cases h
        · rename_i heven
          cases h
          rw [not_not.mp hblock, Nat.even_iff]
          exact ⟨rfl, not_not.mp heven⟩
  · cases h

/-- The pages of the views that `alloc_kv_cache` returns are the blocks that
it had allocated. -/
theorem alloc_page {β : Type} {original : List ℕ → Except Raised (RawInfo β)} {kvcacheShape : List ℕ}
    {kvLayout : String} {kernelBlockSize : Option ℕ} {views : List (View β)}
    (h : allocPackedKvCache original kvcacheShape blockSize kvLayout kernelBlockSize = .ok views) :
    ∃ requestedBlocks numHeads packedHeadSize rawInfo,
      original (explicitShape requestedBlocks numHeads blockSize packedHeadSize) = .ok rawInfo ∧
      (explicitShape requestedBlocks numHeads blockSize packedHeadSize).tail.prod =
        pageElements numHeads blockSize packedHeadSize ∧
      packedViews rawInfo.buffers rawInfo.numBlocks numHeads blockSize packedHeadSize
        (some (kernelSize kernelBlockSize blockSize)) = .ok views := by
  obtain ⟨⟨requestedBlocks, numHeads, packedHeadSize⟩, hshape, hrest⟩ := Transactions.bind_eq_ok.mp h
  obtain ⟨rawInfo, horiginal, hviews⟩ := Transactions.bind_eq_ok.mp hrest
  obtain ⟨-, heven⟩ := validatePackedShape_ok hshape
  refine ⟨requestedBlocks, numHeads, packedHeadSize, rawInfo, horiginal,
    explicit_block requestedBlocks numHeads blockSize heven, ?_⟩
  split at hviews
  · cases hviews
  · exact hviews

/-- **Packed KV views address each element once.** The index tuples of a view
are the offsets of its elements, and the kernel blocks of a logical block
are its page, which is as large as the block that was allocated. -/
theorem packed_views_exact {β : Type} (buffers : List β) (numBlocks numHeads blockSize packedHeadSize : ℕ)
    (kernelBlockSize : Option ℕ) (hpos : 0 < blockSize)
    (hdvd : kernelSize kernelBlockSize blockSize ∣ blockSize) :
    ∃ views, packedViews buffers numBlocks numHeads blockSize packedHeadSize kernelBlockSize = .ok views ∧
      views.map View.buffer = buffers ∧
      (∀ view ∈ views, view.axes.length = 4 ∧
        Set.BijOn (offset view.axes) {index | Within view.axes index}
          (Set.Iio (numBlocks * numHeads * blockSize * packedHeadSize)) ∧
        ∀ j < numBlocks,
          Set.BijOn (offset view.axes)
            {index | Within view.axes index ∧ ∃ i ∈ index.head?,
              j * (blockSize / kernelSize kernelBlockSize blockSize) ≤ i ∧
                i < (j + 1) * (blockSize / kernelSize kernelBlockSize blockSize)}
            (Set.Ico (j * pageElements numHeads blockSize packedHeadSize)
              ((j + 1) * pageElements numHeads blockSize packedHeadSize))) ∧
      (Even packedHeadSize → ∀ requestedBlocks,
        (explicitShape requestedBlocks numHeads blockSize packedHeadSize).tail.prod =
          pageElements numHeads blockSize packedHeadSize) := by
  refine ⟨_, packedViews_ok buffers numBlocks numHeads packedHeadSize hpos hdvd, ?_, ?_, ?_⟩
  · rw [List.map_map]
    exact List.map_id buffers
  · intro view hview
    obtain ⟨buffer, -, rfl⟩ := List.mem_map.mp hview
    exact ⟨rfl, (dense_packedAxes hdvd).bijOn, fun j hj => bijOn_page hdvd hj⟩
  · exact fun heven requestedBlocks => explicit_block requestedBlocks numHeads blockSize heven

/-- Two kernel blocks of 8 tokens to a block of 16. -/
theorem packed_views_exact_halves :
    ∃ views, packedViews ["k0"] 3 2 16 128 (some 8) = .ok views ∧
      ∀ view ∈ views, Set.BijOn (offset view.axes) {index | Within view.axes index} (Set.Iio 12288) := by
  obtain ⟨views, hviews, -, hall, -⟩ := packed_views_exact ["k0"] 3 2 16 128 (some 8) (by decide) ⟨2, rfl⟩
  exact ⟨views, hviews, fun view hview => (hall view hview).2.1⟩

example : packedViews ["k0"] 3 2 16 128 (some 8) =
    .ok [{ buffer := "k0", shape := [6, 2, 8, 128], strides := [2048, 128, 256, 1] }] := by decide

end Compat
end LlmRio
