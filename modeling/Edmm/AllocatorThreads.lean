/-
  Edmm/AllocatorThreads.lean
  ==========================
  **Threads in the VMM allocator.**

  `Edmm/Allocator.lean` runs one call of the module after another.  Here several
  threads are inside the module at once: each dictionary access, each acquisition
  and release of `_remap_lock`, each driver call and each access to a list of
  handles is one step, and the steps of different threads interleave.

  A thread that looked an allocation up holds a reference to it, whatever happens
  to the registry afterwards.  The registry therefore maps a data pointer to the
  number of a `VMMAllocation` object, and the handles live in the object.
-/
import Edmm.AllocatorEffects
import Edmm.Lib.Threads

namespace Edmm

open Program

/-! ## 1. The shared state -/

structure SharedAllocator where
  driver : DriverState
  /-- The `VMMAllocation` objects. -/
  objects : Nat → VMMAllocation
  nextObject : Nat
  /-- `_allocations`, from data pointers to objects. -/
  allocations : Dict Nat Nat
  /-- The thread that holds `_remap_lock`. -/
  remapLock : Option Nat

namespace SharedAllocator

/-- The state as a sequential call sees it. -/
def sequential (s : SharedAllocator) : AllocatorState :=
  { driver := s.driver, allocations := s.allocations.mapValues fun _ obj => s.objects obj }

/-- The driver state after a call. -/
def afterCall (cuda : Cuda) (s : SharedAllocator) (c : DriverCall) : SharedAllocator :=
  { s with driver := cuda.after s.driver c }

/-- `alloc.handles[block] = handle` -/
def writeHandle (s : SharedAllocator) (obj block : Nat) (handle : Handle) : SharedAllocator :=
  { s with
    objects := Function.update s.objects obj
      { s.objects obj with handles := (s.objects obj).handles.set block handle } }

end SharedAllocator

/-- The state as the threads share it: the objects are numbered by the data pointers
    they are registered under. -/
def AllocatorState.share (w : AllocatorState) : SharedAllocator :=
  { driver := w.driver
    objects := fun va => (w.allocations.get? va).getD
      { vaPtr := va, totalBytes := 0, pageSize := 0, handles := [], tensor := none }
    nextObject := w.allocations.keys.foldr max 0 + 1
    allocations := w.allocations.mapValues fun va _ => va
    remapLock := none }

/-- How a call ended. -/
def outcome {ε σ α : Type} : EStateM.Result ε σ α → Except ε α
  | .ok a _ => .ok a
  | .error e _ => .error e

/-! ## 2. A thread in `remap_block` -/

structure RemapCall where
  tensor : Tensor
  blockId : Int
  newPhysicalHandle : Handle

/-- What a thread in `remap_block` does next. -/
inductive RemapPc where
  | lookup
  | checkRange (obj : Nat)
  | acquire (obj : Nat)
  | unmap (obj : Nat)
  | map (obj : Nat)
  | setAccess (obj : Nat)
  | readOld (obj : Nat)
  | writeNew (obj : Nat) (oldHandle : Handle)
  | release (result : Except PyError Handle)
  | done (result : Except PyError Handle)

structure RemapThread where
  call : RemapCall
  pc : RemapPc

namespace RemapThread

def start (call : RemapCall) : RemapThread := { call, pc := .lookup }

def goto (p : RemapThread) (pc : RemapPc) : RemapThread := { p with pc }

def result (p : RemapThread) : Option (Except PyError Handle) :=
  match p.pc with
  | .done result => some result
  | _ => none

def block (p : RemapThread) : Nat := p.call.blockId.toNat

/-- `_check(cuda.cu…(…), msg)` under the lock: on to `next`, or out of the `with`. -/
def checkedCall (cuda : Cuda) (s : SharedAllocator) (p : RemapThread) (c : DriverCall)
    (msg : String) (next : RemapPc) : SharedAllocator × RemapThread :=
  (s.afterCall cuda c,
    p.goto (if cuda.result s.driver c ≠ 0 then
      .release (.error (.runtimeError s!"CUDA driver error {cuda.result s.driver c}: {msg}"))
    else next))

/-- One step of `remap_block`; `none` for a thread that waits for the lock or is done. -/
def step (cuda : Cuda) (me : Nat) (s : SharedAllocator) (p : RemapThread) :
    Option (SharedAllocator × RemapThread) :=
  match p.pc with
  | .lookup =>
      match s.allocations.get? p.call.tensor.dataPtr with
      | none => some (s, p.goto (.done (.error (.valueError "Tensor is not VMM-backed"))))
      | some obj => some (s, p.goto (.checkRange obj))
  | .checkRange obj =>
      if p.call.blockId < 0 ∨ p.call.blockId ≥ (s.objects obj).numPages then
        some (s, p.goto (.done (.error (.valueError
          s!"block_id {p.call.blockId} out of range [0, {(s.objects obj).numPages})"))))
      else some (s, p.goto (.acquire obj))
  | .acquire obj =>
      if s.remapLock = none then some ({ s with remapLock := some me }, p.goto (.unmap obj))
      else none
  | .unmap obj =>
      some (p.checkedCall cuda s
        (.cuMemUnmap ((s.objects obj).pageVa p.block) (s.objects obj).pageSize)
        s!"cuMemUnmap block {p.block}" (.map obj))
  | .map obj =>
      some (p.checkedCall cuda s
        (.cuMemMap ((s.objects obj).pageVa p.block) (s.objects obj).pageSize
          p.call.newPhysicalHandle)
        s!"cuMemMap block {p.block}" (.setAccess obj))
  | .setAccess obj =>
      some (p.checkedCall cuda s
        (.cuMemSetAccess ((s.objects obj).pageVa p.block) (s.objects obj).pageSize 0)
        s!"cuMemSetAccess block {p.block}" (.readOld obj))
  | .readOld obj =>
      some (s, p.goto (.writeNew obj ((s.objects obj).handles.getD p.block 0)))
  | .writeNew obj oldHandle =>
      some (s.writeHandle obj p.block p.call.newPhysicalHandle,
        p.goto (.release (.ok oldHandle)))
  | .release result => some ({ s with remapLock := none }, p.goto (.done result))
  | .done _ => none

end RemapThread

/-! ## 3. A thread in `free_vmm_kv_cache` -/

/-- What a thread in `free_vmm_kv_cache` does next.  `for h in alloc.handles` reads the
    list of the object anew in each round. -/
inductive FreePc where
  | pop
  | unmap (obj : Nat)
  | next (obj i : Nat)
  | release (obj i : Nat) (handle : Handle)
  | addressFree (obj : Nat)
  | done
deriving DecidableEq

structure FreeThread where
  tensor : Tensor
  pc : FreePc

namespace FreeThread

def start (tensor : Tensor) : FreeThread := { tensor, pc := .pop }

def goto (p : FreeThread) (pc : FreePc) : FreeThread := { p with pc }

/-- One step of `free_vmm_kv_cache`.  The result codes are dropped. -/
def step (cuda : Cuda) (s : SharedAllocator) (p : FreeThread) :
    Option (SharedAllocator × FreeThread) :=
  match p.pc with
  | .pop =>
      match s.allocations.get? p.tensor.dataPtr with
      | none => some (s, p.goto .done)
      | some obj =>
          some ({ s with allocations := s.allocations.erase p.tensor.dataPtr }, p.goto (.unmap obj))
  | .unmap obj =>
      some (s.afterCall cuda (.cuMemUnmap (s.objects obj).vaPtr (s.objects obj).totalBytes),
        p.goto (.next obj 0))
  | .next obj i =>
      match (s.objects obj).handles[i]? with
      | none => some (s, p.goto (.addressFree obj))
      | some handle => some (s, p.goto (.release obj i handle))
  | .release obj i handle =>
      some (s.afterCall cuda (.cuMemRelease handle), p.goto (.next obj (i + 1)))
  | .addressFree obj =>
      some (s.afterCall cuda (.cuMemAddressFree (s.objects obj).vaPtr (s.objects obj).totalBytes),
        p.goto .done)
  | .done => none

end FreeThread

/-! ## 4. A thread in `allocate_vmm_kv_cache` -/

/-- What a thread in `allocate_vmm_kv_cache` does next. -/
inductive AllocatePc where
  | deviceGet
  | ctxRetain
  | ctxPush
  | granularity
  | reserve
  | create
  | map (handle : Handle)
  | setAccess
  | memset
  | register
  | done (result : Except PyError Tensor)

/-- The thread's call and its local variables. -/
structure AllocateThread where
  sizeBytes : Nat
  device : Device
  pageSize : Nat
  alignedSize : Nat
  /-- The address that `cuMemAddressReserve` stored, once it succeeded. -/
  va : Option Nat
  handles : List Handle
  offset : Nat
  pc : AllocatePc

namespace AllocateThread

def start (sizeBytes : Nat) (device : Device) : AllocateThread :=
  { sizeBytes, device, pageSize := 0, alignedSize := 0, va := none, handles := [], offset := 0,
    pc := .deviceGet }

def goto (p : AllocateThread) (pc : AllocatePc) : AllocateThread := { p with pc }

def deviceId (p : AllocateThread) : DeviceId := p.device.index.getD 0

/-- `va.value` -/
def vaValue (p : AllocateThread) : Nat := p.va.getD 0

/-- `min(page_size, aligned_size - offset)` -/
def chunk (p : AllocateThread) : Nat := min p.pageSize (p.alignedSize - p.offset)

/-- `while offset < aligned_size` -/
def loopTest (p : AllocateThread) : AllocateThread :=
  p.goto (if p.offset < p.alignedSize then .create else .setAccess)

/-- `_check(cuda.cu…(…), msg)`: on as `next`, or out of the function. -/
def checkedCall (cuda : Cuda) (s : SharedAllocator) (p : AllocateThread) (c : DriverCall)
    (msg : String) (next : AllocateThread) : SharedAllocator × AllocateThread :=
  (s.afterCall cuda c,
    if cuda.result s.driver c ≠ 0 then
      p.goto (.done (.error (.runtimeError s!"CUDA driver error {cuda.result s.driver c}: {msg}")))
    else next)

/-- The tensor and the allocation that the call ends with. -/
def tensor (p : AllocateThread) : Tensor :=
  { dataPtr := p.vaValue, nbytes := p.sizeBytes, device := p.deviceId }

def alloc (p : AllocateThread) : VMMAllocation :=
  { vaPtr := p.vaValue, totalBytes := p.alignedSize, pageSize := p.pageSize,
    handles := p.handles, tensor := some p.tensor }

/-- One step of `allocate_vmm_kv_cache`. -/
def step (cuda : Cuda) (s : SharedAllocator) (p : AllocateThread) :
    Option (SharedAllocator × AllocateThread) :=
  match p.pc with
  | .deviceGet => some (s.afterCall cuda (.cuDeviceGet p.deviceId), p.goto .ctxRetain)
  | .ctxRetain =>
      some (s.afterCall cuda (.cuDevicePrimaryCtxRetain p.deviceId), p.goto .ctxPush)
  | .ctxPush => some (s.afterCall cuda (.cuCtxPushCurrent p.deviceId), p.goto .granularity)
  | .granularity =>
      some (p.checkedCall cuda s (.cuMemGetAllocationGranularity p.deviceId)
        "cuMemGetAllocationGranularity"
        { p with
          pageSize := pageSizeOf (cuda.granularity s.driver p.deviceId)
          alignedSize :=
            alignedSizeOf p.sizeBytes (pageSizeOf (cuda.granularity s.driver p.deviceId))
          pc := .reserve })
  | .reserve =>
      some (p.checkedCall cuda s (.cuMemAddressReserve p.alignedSize) "cuMemAddressReserve"
        { p with va := some (cuda.pickVa s.driver p.alignedSize) }.loopTest)
  | .create =>
      some (p.checkedCall cuda s (.cuMemCreate p.chunk p.deviceId)
        s!"cuMemCreate at offset {p.offset}" (p.goto (.map (cuda.pickHandle s.driver))))
  | .map handle =>
      some (p.checkedCall cuda s (.cuMemMap (p.vaValue + p.offset) p.chunk handle)
        s!"cuMemMap at offset {p.offset}"
        { p with handles := p.handles ++ [handle], offset := p.offset + p.chunk }.loopTest)
  | .setAccess =>
      some (p.checkedCall cuda s (.cuMemSetAccess p.vaValue p.alignedSize p.deviceId)
        "cuMemSetAccess" (p.goto .memset))
  | .memset =>
      some (s.afterCall cuda (.cudaMemset p.vaValue 0 p.alignedSize), p.goto .register)
  | .register =>
      some ({ s with
          objects := Function.update s.objects s.nextObject p.alloc
          nextObject := s.nextObject + 1
          allocations := s.allocations.set p.vaValue s.nextObject },
        p.goto (.done (.ok p.tensor)))
  | .done _ => none

end AllocateThread

/-! ## 5. What the sequential state shows -/

namespace SharedAllocator

theorem sequential_get? (s : SharedAllocator) (va : Nat) :
    s.sequential.allocations.get? va = (s.allocations.get? va).map s.objects := by
  simp [sequential]

@[simp] theorem driver_sequential (s : SharedAllocator) : s.sequential.driver = s.driver := rfl

@[simp] theorem sequential_afterCall (cuda : Cuda) (s : SharedAllocator) (c : DriverCall) :
    (s.afterCall cuda c).sequential = { s.sequential with driver := cuda.after s.driver c } := rfl

/-- Every registered object is numbered by its data pointer. -/
def Keyed (s : SharedAllocator) : Prop :=
  ∀ va obj, s.allocations.get? va = some obj → obj = va

/-- Writing a handle of a registered object is writing the registry. -/
theorem sequential_writeHandle {s : SharedAllocator} (hkeyed : s.Keyed) {va : Nat}
    (hget : s.allocations.get? va = some va) (block : Nat) (handle : Handle) :
    (s.writeHandle va block handle).sequential =
      { s.sequential with
        allocations := s.sequential.allocations.set va
          { s.objects va with handles := (s.objects va).handles.set block handle } } := by
  have hset := Dict.set_mapValues (f := fun _ obj => s.objects obj)
    (g := fun _ obj => (s.writeHandle va block handle).objects obj) hget (by
      intro k v hv hne
      rw [hkeyed k v hv]
      simp [writeHandle, hne])
  have hwritten : (s.writeHandle va block handle).objects va =
      { s.objects va with handles := (s.objects va).handles.set block handle } := by
    simp [writeHandle]
  rw [hwritten] at hset
  simp only [sequential, hset]
  rfl

end SharedAllocator

theorem keyed_share (w : AllocatorState) : w.share.Keyed := by
  intro va obj hget
  simp only [AllocatorState.share, Dict.get?_mapValues, Option.map_eq_some_iff] at hget
  obtain ⟨_, _, rfl⟩ := hget
  rfl

theorem sequential_share (w : AllocatorState) : w.share.sequential = w := by
  have hobjects : w.share.sequential.allocations = w.allocations := by
    simp only [SharedAllocator.sequential, AllocatorState.share, Dict.mapValues_mapValues]
    conv_rhs => rw [← w.allocations.mapValues_self]
    apply Dict.mapValues_congr
    intro va alloc hget
    rw [hget, Option.getD_some]
  exact congrArg (AllocatorState.mk w.driver) hobjects

end Edmm
