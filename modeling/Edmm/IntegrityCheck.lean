/-
  Edmm/IntegrityCheck.lean
  ========================
  **Torch tensors over VMM allocations, and the integrity check.**

  A KV cache tensor is a strided view of a storage.  `verify_edmm_tensor_integrity`
  looks its data pointer up in the registry and compares it with the base of the
  entry; it does not look at the expected shape and dtype it is given, nor at how far
  the tensor reaches.  `verify_sound` says what a passed check is worth in every
  reachable state.
-/
import Edmm.RemapFailure
import Edmm.Lib.Strided

namespace Edmm

open Program

/-! ## 1. Tensors -/

/-- `torch.dtype` -/
inductive DType where
  | bool | uint8 | int8 | int16 | int32 | int64
  | float8E4m3fn | float8E5m2 | float16 | bfloat16 | float32 | float64
  | complex64 | complex128
deriving DecidableEq, Repr

/-- `torch.tensor([], dtype=dtype).element_size()`, which is `get_dtype_size(dtype)` too. -/
def DType.itemsize : DType → Nat
  | .bool | .uint8 | .int8 | .float8E4m3fn | .float8E5m2 => 1
  | .int16 | .float16 | .bfloat16 => 2
  | .int32 | .float32 => 4
  | .int64 | .float64 | .complex64 => 8
  | .complex128 => 16

theorem DType.itemsize_pos (dtype : DType) : 0 < dtype.itemsize := by
  cases dtype <;> decide

/-- A view of a storage; the raw tensor that an allocation returns is its storage as
    bytes. -/
structure TorchTensor where
  storage : Tensor
  dtype : DType
  layout : Layout
deriving DecidableEq, Repr

namespace TorchTensor

/-- The raw tensor of a storage: its bytes in one dimension. -/
def raw (storage : Tensor) : TorchTensor :=
  { storage, dtype := .int8, layout := .contiguous [storage.nbytes] }

def dataPtr (t : TorchTensor) : Nat :=
  t.storage.dataPtr + t.layout.offset * t.dtype.itemsize

/-- The bytes from the data pointer to the end of the last element. -/
def extentBytes (t : TorchTensor) : Nat :=
  stridedExtent t.layout.shape t.layout.stride * t.dtype.itemsize

/-- The tensor as the allocator sees it. -/
def pointer (t : TorchTensor) : Tensor :=
  { dataPtr := t.dataPtr, nbytes := t.extentBytes, device := t.storage.device }

theorem dataPtr_of_offset {t : TorchTensor} (h : t.layout.offset = 0) :
    t.dataPtr = t.storage.dataPtr := by
  unfold dataPtr
  rw [h, Nat.zero_mul, Nat.add_zero]

end TorchTensor

/-! ## 2. The check -/

/-- `f"{value:x}"` -/
def hexOf (value : Nat) : String := String.ofList (Nat.toDigits 16 value)

def notBackedError (layerId : String) (dataPtr : Nat) : PyError :=
  .assertionError (s!"[EDMM INTEGRITY FAIL] layer={layerId}: tensor at 0x{hexOf dataPtr} " ++
    "is NOT VMM-backed — possible implicit copy or fallback allocation")

def movedError (layerId : String) (dataPtr vaPtr : Nat) : PyError :=
  .assertionError (s!"[EDMM INTEGRITY FAIL] layer={layerId}: data_ptr 0x{hexOf dataPtr} " ++
    s!"!= VMM VA 0x{hexOf vaPtr} — framework performed an implicit copy")

/-- The source reads neither the expected shape nor the dtype. -/
def verifyEdmmTensorIntegrity (w : AllocatorState) (layerId : String) (kvTensor : TorchTensor)
    (_expectedShape : List Nat) (_dtype : DType) : Except PyError Bool :=
  match getVmmAllocation w kvTensor.pointer with
  | none => .error (notBackedError layerId kvTensor.dataPtr)
  | some alloc =>
      if kvTensor.dataPtr = alloc.vaPtr then .ok true
      else .error (movedError layerId kvTensor.dataPtr alloc.vaPtr)

/-- What the check finds, where entries are keyed by their bases. -/
theorem verifyEdmmTensorIntegrity_eq {w : AllocatorState} (hreg : RegistryInv w)
    (layerId : String) (t : TorchTensor) (expectedShape : List Nat) (dtype : DType) :
    verifyEdmmTensorIntegrity w layerId t expectedShape dtype =
      if (getVmmAllocation w t.pointer).isSome then .ok true
      else .error (notBackedError layerId t.dataPtr) := by
  unfold verifyEdmmTensorIntegrity
  cases hget : getVmmAllocation w t.pointer with
  | none => rfl
  | some alloc =>
    have hkeyed : alloc.vaPtr = t.dataPtr := (hreg.entries _ alloc hget).keyed
    simp only [Option.isSome_some, if_true]
    rw [if_pos hkeyed.symm]

/-! ## 3. What a passed check is worth -/

/-- Every address of an allocation lies in one of its pages. -/
theorem Registered.page_of_inRange {s : DriverState} {va : Nat} {alloc : VMMAllocation}
    (h : Registered s va alloc) {a : Nat} (ha : inRange alloc.vaPtr alloc.totalBytes a = true) :
    ∃ block < alloc.numPages, inRange (alloc.pageVa block) alloc.pageSize a = true := by
  rw [inRange_iff, ← h.sized] at ha
  refine ⟨(a - alloc.vaPtr) / alloc.pageSize, ?_, ?_⟩
  · rw [VMMAllocation.numPages, Nat.div_lt_iff_lt_mul h.pageSize_pos]
    omega
  · have hdiv := Nat.div_add_mod (a - alloc.vaPtr) alloc.pageSize
    have hmod := Nat.mod_lt (a - alloc.vaPtr) h.pageSize_pos
    rw [Nat.mul_comm] at hdiv
    rw [inRange_iff]
    unfold VMMAllocation.pageVa
    omega

/-- The byte at `a` is a byte of this allocation and of no other, in a page that is
    mapped as recorded unless a remap of it raised a driver error. -/
def BackedByte (cuda : Cuda) (memory : Handle → Nat → UInt8) (ops : List AllocatorOp)
    (alloc : VMMAllocation) (a : Nat) : Prop :=
  (∀ va alloc', (runAllocator cuda memory ops).allocations.get? va = some alloc' →
    inRange alloc'.vaPtr alloc'.totalBytes a = true → alloc' = alloc) ∧
  ∃ block handle, alloc.handles[block]? = some handle ∧
    inRange (alloc.pageVa block) alloc.pageSize a = true ∧
    (NeverTorn cuda alloc.vaPtr block (AllocatorState.init memory) ops → ∃ access,
      (runAllocator cuda memory ops).driver.pages.get? (alloc.pageVa block) =
        some ⟨alloc.pageSize, handle, access⟩)

/-- **What a passed check is worth.**  In every reachable state and for every tensor,
    shape and dtype: the check returns `True` exactly if the tensor begins where a
    registered allocation begins, and raises otherwise; then the bytes of the tensor
    that lie within the size of that allocation are backed by it alone. -/
theorem verify_sound (cuda : Cuda) (hlawful : cuda.Lawful) (memory : Handle → Nat → UInt8)
    (ops : List AllocatorOp) (layerId : String) (t : TorchTensor) (expectedShape : List Nat)
    (dtype : DType) :
    (verifyEdmmTensorIntegrity (runAllocator cuda memory ops) layerId t expectedShape dtype =
        .ok true ↔
      ∃ alloc, getVmmAllocation (runAllocator cuda memory ops) t.pointer = some alloc) ∧
    (getVmmAllocation (runAllocator cuda memory ops) t.pointer = none →
      verifyEdmmTensorIntegrity (runAllocator cuda memory ops) layerId t expectedShape dtype =
        .error (notBackedError layerId t.dataPtr)) ∧
    ∀ alloc, getVmmAllocation (runAllocator cuda memory ops) t.pointer = some alloc →
      alloc.vaPtr = t.dataPtr ∧
      ∀ a, inRange t.dataPtr t.extentBytes a = true → a < t.dataPtr + alloc.totalBytes →
        BackedByte cuda memory ops alloc a := by
  have hreg := registryInv_runAllocator hlawful memory ops
  refine ⟨?_, fun hnone => ?_, fun alloc hget => ?_⟩
  · rw [verifyEdmmTensorIntegrity_eq hreg]
    cases getVmmAllocation (runAllocator cuda memory ops) t.pointer with
    | none => simp
    | some alloc => simp
  · rw [verifyEdmmTensorIntegrity_eq hreg, hnone]
    rfl
  · have hentry := hreg.entries _ alloc hget
    have hkeyed : alloc.vaPtr = t.dataPtr := hentry.keyed
    refine ⟨hkeyed, fun a ha hbelow => ⟨fun va alloc' hget' ha' => ?_, ?_⟩⟩
    · by_cases hva : va = t.dataPtr
      · subst hva
        exact Option.some.inj (hget'.symm.trans hget)
      · have hapart := hreg.ranges_disjoint hget' hget hva
        unfold RangesDisjoint at hapart
        rw [inRange_iff] at ha ha'
        omega
    · have hin : inRange alloc.vaPtr alloc.totalBytes a = true := by
        rw [inRange_iff] at ha ⊢
        omega
      obtain ⟨block, hblock, hpage⟩ := hentry.page_of_inRange hin
      refine ⟨block, _, List.getElem?_eq_getElem hblock, hpage, fun hwhole => ?_⟩
      exact blockMirrored_runAllocator hlawful memory hwhole alloc (hkeyed ▸ hget) _
        (List.getElem?_eq_getElem hblock)

theorem verify_sound_allocated :
    BackedByte .bump (fun _ _ => 0) [.allocateVmmKvCache ⟨4000000, by decide⟩ ⟨none⟩]
      ⟨0, 4194304, 2097152, [1, 2], some ⟨0, 4000000, 0⟩⟩ 3000000 :=
  ((verify_sound .bump Cuda.bump_lawful (fun _ _ => 0)
    [.allocateVmmKvCache ⟨4000000, by decide⟩ ⟨none⟩] "layer" (.raw ⟨0, 4000000, 0⟩) [4000000]
    .int8).2.2 ⟨0, 4194304, 2097152, [1, 2], some ⟨0, 4000000, 0⟩⟩ (by decide +kernel)).2 3000000
    (by decide +kernel) (by decide)

/-! ## 4. What the check does not see -/

/-- What a passed check would have to mean: the expected shape and dtype, and mapped
    bytes of one allocation as far as the tensor reaches. -/
def IntegrityChecked (w : AllocatorState) (t : TorchTensor) (expectedShape : List Nat)
    (dtype : DType) : Prop :=
  t.layout.shape = expectedShape ∧ t.dtype = dtype ∧
  ∀ a, inRange t.dataPtr t.extentBytes a = true →
    ∃ alloc, getVmmAllocation w t.pointer = some alloc ∧ alloc.vaPtr = t.dataPtr ∧
      inRange alloc.vaPtr alloc.totalBytes a = true ∧ w.driver.mappedAt a

/-- **The check passes for a tensor that reaches behind its allocation.**  A tensor of
    two pages is freed and an allocation of one page gets its address. -/
theorem verify_passes_stale :
    ¬ ∀ (cuda : Cuda), cuda.Lawful → ∀ (memory : Handle → Nat → UInt8) (ops : List AllocatorOp)
      (layerId : String) (t : TorchTensor) (expectedShape : List Nat) (dtype : DType),
      verifyEdmmTensorIntegrity (runAllocator cuda memory ops) layerId t expectedShape dtype =
        .ok true → IntegrityChecked (runAllocator cuda memory ops) t expectedShape dtype := by
  intro hclaim
  let ops : List AllocatorOp := [.allocateVmmKvCache ⟨4000000, by decide⟩ ⟨none⟩,
    .freeVmmKvCache ⟨0, 4000000, 0⟩, .allocateVmmKvCache 1 ⟨none⟩]
  have hget : getVmmAllocation (runAllocator .bump (fun _ _ => 0) ops)
      (TorchTensor.raw ⟨0, 4000000, 0⟩).pointer =
        some ⟨0, 2097152, 2097152, [1], some ⟨0, 1, 0⟩⟩ := by
    decide +kernel
  have hpasses : verifyEdmmTensorIntegrity (runAllocator .bump (fun _ _ => 0) ops) "layer"
      (.raw ⟨0, 4000000, 0⟩) [4000000] .int8 = .ok true := by
    unfold verifyEdmmTensorIntegrity
    rw [hget]
    rfl
  obtain ⟨_, _, hbytes⟩ := hclaim .bump Cuda.bump_lawful _ ops _ _ _ _ hpasses
  obtain ⟨alloc, hget', _, hin, _⟩ := hbytes 3000000 (by decide +kernel)
  rw [hget, Option.some.injEq] at hget'
  subst hget'
  cases hin

end Edmm
