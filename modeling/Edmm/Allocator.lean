/-
  Edmm/Allocator.lean
  ===================
  **The VMM allocator** (`vllm_v1_worker_gpu/edmm_allocator.py`).

  The module state is the registry `_allocations` next to the driver it talks to.
  Every function is the source function statement by statement: each driver call
  is made in the source's order, `_check` raises on a non-zero result code, and a
  call whose result the source drops is dropped here.  Nothing is undone when a
  call raises, exactly as in the source.

  The ctypes structures, the logging and the wrapping of a raw pointer as a torch
  tensor carry no state: a tensor is its data pointer, its extent in bytes and its
  device.  `_remap_lock` serialises threads and has no effect on a sequential run.
-/
import Edmm.Driver
import Edmm.Lib.Python
import Mathlib.Data.PNat.Defs

namespace Edmm

open Program

/-! ## 1. State -/

/-- `torch.device`: the index may be left out. -/
structure Device where
  index : Option DeviceId
deriving DecidableEq, Repr

structure Tensor where
  dataPtr : Nat
  nbytes : Nat
  device : DeviceId
deriving DecidableEq, Repr

structure VMMAllocation where
  vaPtr : Nat
  totalBytes : Nat
  pageSize : Nat
  handles : List Handle
  tensor : Option Tensor
deriving DecidableEq, Repr

def VMMAllocation.numPages (alloc : VMMAllocation) : Nat := alloc.handles.length

/-- The virtual address of the `i`-th page. -/
def VMMAllocation.pageVa (alloc : VMMAllocation) (i : Nat) : Nat :=
  alloc.vaPtr + i * alloc.pageSize

structure AllocatorState where
  driver : DriverState
  /-- `_allocations`, keyed by the start of the virtual range. -/
  allocations : Dict Nat VMMAllocation

def AllocatorState.init (memory : Handle → Nat → UInt8) : AllocatorState :=
  { driver := DriverState.init memory, allocations := ∅ }

abbrev AllocM := EStateM PyError AllocatorState

section Functions

variable (cuda : Cuda)

/-! ## 2. Driver calls and result codes -/

def call (c : DriverCall) : AllocM Nat := fun w =>
  .ok (cuda.result w.driver c) { w with driver := cuda.after w.driver c }

def check (result : Nat) (msg : String) : AllocM PUnit :=
  if result ≠ 0 then throw (.runtimeError s!"CUDA driver error {result}: {msg}") else pure ⟨⟩

/-- The call's result code and the address it stored through its first argument. -/
def cuMemAddressReserve (size : Nat) : AllocM (Nat × Nat) := do
  let va := cuda.pickVa (← get).driver size
  let result ← call cuda (.cuMemAddressReserve size)
  return (result, va)

/-- The call's result code and the handle it stored through its first argument. -/
def cuMemCreate (size : Nat) (device : DeviceId) : AllocM (Nat × Handle) := do
  let handle := cuda.pickHandle (← get).driver
  let result ← call cuda (.cuMemCreate size device)
  return (result, handle)

def cuMemGetAllocationGranularity (device : DeviceId) : AllocM (Nat × Nat) := do
  let granularity := cuda.granularity (← get).driver device
  let result ← call cuda (.cuMemGetAllocationGranularity device)
  return (result, granularity)

/-- The source drops the three result codes. -/
def ensureDriverContext (deviceId : DeviceId) : AllocM PUnit := do
  let _ ← call cuda (.cuDeviceGet deviceId)
  let _ ← call cuda (.cuDevicePrimaryCtxRetain deviceId)
  let _ ← call cuda (.cuCtxPushCurrent deviceId)

/-! ## 3. Allocation -/

/-- The `while offset < aligned_size` loop of `allocate_vmm_kv_cache`. -/
def mapChunks (deviceId va pageSize alignedSize : Nat) (hpage : 0 < pageSize)
    (handles : List Handle) (offset : Nat) : AllocM (List Handle) :=
  if _h : offset < alignedSize then do
    let chunk := min pageSize (alignedSize - offset)
    let (result, handle) ← cuMemCreate cuda chunk deviceId
    check result s!"cuMemCreate at offset {offset}"
    let result ← call cuda (.cuMemMap (va + offset) chunk handle)
    check result s!"cuMemMap at offset {offset}"
    mapChunks deviceId va pageSize alignedSize hpage (handles ++ [handle]) (offset + chunk)
  else
    pure handles
termination_by alignedSize - offset
decreasing_by omega

/-- `max(granularity.value, 2 * 1024 * 1024)` -/
def pageSizeOf (granularity : Nat) : Nat := max granularity (2 * 1024 * 1024)

theorem pageSizeOf_pos (granularity : Nat) : 0 < pageSizeOf granularity := by
  unfold pageSizeOf
  omega

def alignedSizeOf (sizeBytes pageSize : Nat) : Nat :=
  ((sizeBytes + pageSize - 1) / pageSize) * pageSize

def allocateVmmKvCache (sizeBytes : Nat) (device : Device) : AllocM Tensor := do
  let deviceId := device.index.getD 0
  ensureDriverContext cuda deviceId
  let (result, granularity) ← cuMemGetAllocationGranularity cuda deviceId
  check result "cuMemGetAllocationGranularity"
  let pageSize := pageSizeOf granularity
  let alignedSize := alignedSizeOf sizeBytes pageSize
  let (result, va) ← cuMemAddressReserve cuda alignedSize
  check result "cuMemAddressReserve"
  let handles ← mapChunks cuda deviceId va pageSize alignedSize (pageSizeOf_pos _) [] 0
  let result ← call cuda (.cuMemSetAccess va alignedSize deviceId)
  check result "cuMemSetAccess"
  let _ ← call cuda (.cudaMemset va 0 alignedSize)
  let tensor : Tensor := { dataPtr := va, nbytes := sizeBytes, device := deviceId }
  let alloc : VMMAllocation :=
    { vaPtr := va, totalBytes := alignedSize, pageSize, handles, tensor := some tensor }
  modify fun w => { w with allocations := w.allocations.set va alloc }
  return tensor

def getVmmAllocation (w : AllocatorState) (tensor : Tensor) : Option VMMAllocation :=
  w.allocations.get? tensor.dataPtr

/-! ## 4. Remapping -/

/-- The part of `remap_block` under `_remap_lock`, for a block that passed the
    checks.  Access is granted to device 0 (`access.location_id = 0`). -/
def swapBlock (tensor : Tensor) (alloc : VMMAllocation) (block : Nat)
    (newPhysicalHandle : Handle) : AllocM Handle := do
  let blockVa := alloc.pageVa block
  let result ← call cuda (.cuMemUnmap blockVa alloc.pageSize)
  check result s!"cuMemUnmap block {block}"
  let result ← call cuda (.cuMemMap blockVa alloc.pageSize newPhysicalHandle)
  check result s!"cuMemMap block {block}"
  let result ← call cuda (.cuMemSetAccess blockVa alloc.pageSize 0)
  check result s!"cuMemSetAccess block {block}"
  let oldHandle := alloc.handles.getD block 0
  modify fun w =>
    { w with
      allocations := w.allocations.set tensor.dataPtr
        { alloc with handles := alloc.handles.set block newPhysicalHandle } }
  return oldHandle

def remapBlock (tensor : Tensor) (blockId : Int) (newPhysicalHandle : Handle) :
    AllocM Handle := do
  match getVmmAllocation (← get) tensor with
  | none => throw (.valueError "Tensor is not VMM-backed")
  | some alloc =>
    if blockId < 0 ∨ blockId ≥ alloc.numPages then
      throw (.valueError s!"block_id {blockId} out of range [0, {alloc.numPages})")
    else
      swapBlock cuda tensor alloc blockId.toNat newPhysicalHandle

/-! ## 5. Physical handles and freeing -/

def createPhysicalHandle (sizeBytes : Nat) (deviceId : DeviceId) : AllocM Handle := do
  ensureDriverContext cuda deviceId
  let (result, handle) ← cuMemCreate cuda sizeBytes deviceId
  check result "cuMemCreate (new handle)"
  return handle

def releasePhysicalHandle (handle : Handle) : AllocM PUnit := do
  let result ← call cuda (.cuMemRelease handle)
  check result "cuMemRelease"

/-- `for h in alloc.handles: cuda.cuMemRelease(h)`, result codes dropped. -/
def releaseHandles : List Handle → AllocM PUnit
  | [] => pure ⟨⟩
  | handle :: rest => do
      let _ ← call cuda (.cuMemRelease handle)
      releaseHandles rest

def freeVmmKvCache (tensor : Tensor) : AllocM PUnit := do
  match getVmmAllocation (← get) tensor with
  | none => pure ⟨⟩
  | some alloc =>
    modify fun w => { w with allocations := w.allocations.erase tensor.dataPtr }
    let _ ← call cuda (.cuMemUnmap alloc.vaPtr alloc.totalBytes)
    releaseHandles cuda alloc.handles
    let _ ← call cuda (.cuMemAddressFree alloc.vaPtr alloc.totalBytes)

/-! ## 6. Operations and runs -/

end Functions

/-- One call into the module.  Sizes of KV caches are positive. -/
inductive AllocatorOp where
  | allocateVmmKvCache (sizeBytes : ℕ+) (device : Device)
  | createPhysicalHandle (sizeBytes : Nat) (deviceId : DeviceId)
  | remapBlock (tensor : Tensor) (blockId : Int) (newPhysicalHandle : Handle)
  | releasePhysicalHandle (handle : Handle)
  | freeVmmKvCache (tensor : Tensor)

/-- The call, with the handle it hands to its caller, if any. -/
def AllocatorOp.exec (cuda : Cuda) : AllocatorOp → AllocM (Option Handle)
  | .allocateVmmKvCache sizeBytes device => do
      let _ ← Edmm.allocateVmmKvCache cuda sizeBytes device
      return none
  | .createPhysicalHandle sizeBytes deviceId => do
      return some (← Edmm.createPhysicalHandle cuda sizeBytes deviceId)
  | .remapBlock tensor blockId handle => do
      return some (← Edmm.remapBlock cuda tensor blockId handle)
  | .releasePhysicalHandle handle => do
      Edmm.releasePhysicalHandle cuda handle
      return none
  | .freeVmmKvCache tensor => do
      Edmm.freeVmmKvCache cuda tensor
      return none

/-- The state after one call, whether it returned or raised. -/
def AllocatorOp.step (cuda : Cuda) (w : AllocatorState) (op : AllocatorOp) : AllocatorState :=
  finalState (op.exec cuda w)

/-- The state after a run from a fresh process. -/
def runAllocator (cuda : Cuda) (memory : Handle → Nat → UInt8) (ops : List AllocatorOp) :
    AllocatorState :=
  ops.foldl (AllocatorOp.step cuda) (AllocatorState.init memory)

/-- What the first state has and every call preserves holds after every run. -/
theorem runAllocator_induction {cuda : Cuda} {memory : Handle → Nat → UInt8}
    {I : AllocatorState → Prop} (hinit : I (AllocatorState.init memory))
    (hstep : ∀ w op, I w → I (AllocatorOp.step cuda w op)) (ops : List AllocatorOp) :
    I (runAllocator cuda memory ops) := by
  unfold runAllocator
  generalize AllocatorState.init memory = w at hinit
  induction ops generalizing w with
  | nil => exact hinit
  | cons op rest ih => exact ih _ (hstep w op hinit)

end Edmm
