/-
  Edmm/CacheEngine.lean
  =====================
  **The cache engine** (`cache_engine_patched.py`): KV caches with and without EDMM.

  With EDMM enabled `CacheEngine._allocate_kv_cache` makes each layer a view of a VMM
  allocation, otherwise a tensor of `torch.zeros`.  What a caller sees of the two is
  the same but for the device: torch puts an index-less `"cuda"` on the current
  device, the allocator puts it on device 0 (`allocateKvCache_agrees_iff`).
-/
import Edmm.KvCacheTensors
import Edmm.PagedMemory

namespace Edmm

open Program

variable {cuda : Cuda} {w w' : AllocatorState}

/-! ## 1. The engine -/

/-- A device string: `"cpu"`, or `"cuda"` with or without an index. -/
inductive DeviceName where
  | cpu
  | cuda (device : Device)
deriving DecidableEq, Repr

/-- A tensor of a cache: the result of `torch.zeros`, or a view of an allocation. -/
inductive CacheTensor where
  | zeros (shape : List Nat) (dtype : DType) (pinMemory : Bool) (device : DeviceName)
  | view (t : TorchTensor)
deriving DecidableEq, Repr

structure CacheEngine where
  numAttentionLayers : Nat
  blockSize : Nat
  numKvHeads : Nat
  headSize : Nat
  dtype : DType
  /-- `attn_backend.get_kv_cache_shape(num_blocks, block_size, num_kv_heads, head_size)` -/
  getKvCacheShape : Nat → Nat → Nat → Nat → List Nat

abbrev EngineM := EStateM KvCacheError AllocatorState

namespace CacheEngine

def kvCacheShape (engine : CacheEngine) (numBlocks : Nat) : List Nat :=
  engine.getKvCacheShape numBlocks engine.blockSize engine.numKvHeads engine.headSize

/-- One turn of the loop over the layers. -/
def allocateLayer (cuda : Cuda) (edmmEnabled : Bool) (dtype : DType) (kvCacheShape : List Nat)
    (pinMemory : Bool) (device : DeviceName) : EngineM CacheTensor :=
  match edmmEnabled, device with
  | true, .cuda device => do
      let nbytes := kvCacheShape.prod * dtype.itemsize
      let raw ← EStateM.adaptExcept .raised (allocateVmmKvCache cuda nbytes device)
      let tensor ← ofExcept (viewDtype raw dtype)
      let tensor ← ofExcept (tensor.view kvCacheShape)
      return .view tensor
  | _, device => return .zeros kvCacheShape dtype pinMemory device

/-- `_allocate_kv_cache` -/
def allocateKvCache (cuda : Cuda) (edmmEnabled isPinMemoryAvailable : Bool) (engine : CacheEngine)
    (numBlocks : Nat) (device : DeviceName) : EngineM (List CacheTensor) := do
  let kvCacheShape := engine.kvCacheShape numBlocks
  let pinMemory := if device = .cpu then isPinMemoryAvailable else false
  (List.range engine.numAttentionLayers).foldlM (fun kvCache _ => do
    let tensor ← allocateLayer cuda edmmEnabled engine.dtype kvCacheShape pinMemory device
    return kvCache ++ [tensor]) []

end CacheEngine

/-! ## 2. What a caller sees -/

/-- Where a tensor lies. -/
inductive Placement where
  | cpu (pinned : Bool)
  | cuda (device : DeviceId)
deriving DecidableEq, Repr

/-- A tensor as its users see it; the bytes in the order of their addresses, `none`
    where the device takes an illegal access. -/
structure Observed where
  shape : List Nat
  stride : List Nat
  dtype : DType
  placement : Placement
  bytes : List (Option UInt8)
deriving DecidableEq, Repr

/-- Where torch puts a new tensor, if the current device is `d`. -/
def DeviceName.placement (pinMemory : Bool) (d : DeviceId) : DeviceName → Placement
  | .cpu => .cpu pinMemory
  | .cuda device => .cuda (device.index.getD d)

/-- A new tensor of zeros. -/
def Observed.zeros (shape : List Nat) (dtype : DType) (placement : Placement) : Observed :=
  { shape, stride := contiguousStrides shape, dtype, placement
    bytes := List.replicate (shape.prod * dtype.itemsize) (some 0) }

def CacheTensor.observed (w : AllocatorState) (d : DeviceId) : CacheTensor → Observed
  | .zeros shape dtype pinMemory device => .zeros shape dtype (device.placement pinMemory d)
  | .view t =>
      { shape := t.layout.shape
        stride := t.layout.stride
        dtype := t.dtype
        placement := .cuda t.storage.device
        bytes := (List.range t.extentBytes).map fun i =>
          w.driver.load t.storage.device (t.dataPtr + i) }

/-- Both modes return, and layer by layer the caller sees the same. -/
def CacheEngine.Agrees (cuda : Cuda) (isPinMemoryAvailable : Bool) (engine : CacheEngine)
    (numBlocks : Nat) (device : DeviceName) (d : DeviceId) (w : AllocatorState) : Prop :=
  ∃ kvCache w₁ standard w₂,
    engine.allocateKvCache cuda true isPinMemoryAvailable numBlocks device w = .ok kvCache w₁ ∧
    engine.allocateKvCache cuda false isPinMemoryAvailable numBlocks device w =
      .ok standard w₂ ∧
    kvCache.map (CacheTensor.observed w₁ d) = standard.map (CacheTensor.observed w₂ d)

/-! ## 3. Zeroed allocations -/

/-- The allocation behind the tensor is accessible and holds zeros. -/
def Zeroed (w : AllocatorState) (t : Tensor) : Prop :=
  ∃ alloc, Backed w t alloc ∧
    ∀ offset < t.nbytes, w.driver.memory (alloc.cell offset).1 (alloc.cell offset).2 = 0

theorem Zeroed.load (h : MappingInv w) {t : Tensor} (hzero : Zeroed w t) {offset : Nat}
    (ho : offset < t.nbytes) : w.driver.load t.device (t.dataPtr + offset) = some 0 := by
  obtain ⟨alloc, hbacked, hcells⟩ := hzero
  unfold DriverState.load
  rw [h.translate_eq hbacked.1 hbacked.2.2 (Nat.lt_of_lt_of_le ho hbacked.2.1), Option.map_some,
    hcells offset ho]

/-- Zeros stay when something else is allocated: an allocation writes only zeros. -/
theorem Zeroed.allocated (hlawful : cuda.Lawful) (hsucceeds : cuda.Succeeds)
    (hreg : RegistryInv w) {sizeBytes : Nat} (hsize : 0 < sizeBytes) {deviceId : DeviceId}
    {alloc : VMMAllocation} (hnew : Allocated cuda sizeBytes deviceId w w' alloc) {t : Tensor}
    (h : Zeroed w t) : Zeroed w' t := by
  obtain ⟨old, hbacked, hcells⟩ := h
  refine ⟨old, hbacked.allocated hlawful hreg hsize hnew, fun offset ho => ?_⟩
  rw [hnew.zeroed hsucceeds, hcells offset ho, ite_self]

/-- A new allocation holds zeros. -/
theorem Allocated.zeroed_self (hlawful : cuda.Lawful) (hsucceeds : cuda.Succeeds)
    (hreg : RegistryInv w) {sizeBytes : Nat} (hsize : 0 < sizeBytes) {deviceId : DeviceId}
    {alloc : VMMAllocation} (hnew : Allocated cuda sizeBytes deviceId w w' alloc) :
    Zeroed w' ⟨alloc.vaPtr, sizeBytes, deviceId⟩ := by
  have hself : w'.allocations.get? alloc.vaPtr = some alloc := by
    rw [hnew.registered, Dict.get?_set_self]
  have hentry : Registered w'.driver alloc.vaPtr alloc :=
    (hreg.allocated hlawful hsize hnew).entries _ _ hself
  refine ⟨alloc, hnew.backed, fun offset ho => ?_⟩
  have hin : offset < alloc.totalBytes := Nat.lt_of_lt_of_le ho hnew.covers
  obtain ⟨hi, hsplit⟩ := hentry.page_of_offset hin
  have hcell : (alloc.cell offset).1 = alloc.handles[offset / alloc.pageSize] := by
    simp only [VMMAllocation.cell, List.getD_eq_getElem?_getD, List.getElem?_eq_getElem hi,
      Option.getD_some]
  -- the page of the offset shows its cell
  have hshows : w'.driver.shows alloc.vaPtr alloc.totalBytes (alloc.cell offset).1
      (alloc.cell offset).2 = true := by
    simp only [DriverState.shows, List.any_eq_true, Bool.and_eq_true, decide_eq_true_eq,
      Prod.exists, Dict.mem_items_iff]
    refine ⟨_, _, hnew.mapped _ _ (List.getElem?_eq_getElem hi), ⟨hcell.symm, ?_⟩, ?_⟩
    · exact Nat.mod_lt offset hnew.pageSize_pos
    · rw [inRange_iff]
      simp only [VMMAllocation.cell]
      omega
  rw [hnew.zeroed hsucceeds, if_pos hshows]

/-! ## 4. The two modes -/

/-- A layer of a cache made with EDMM. -/
def EdmmLayer (w : AllocatorState) (shape : List Nat) (dtype : DType) (deviceId : DeviceId)
    (tensor : CacheTensor) : Prop :=
  ∃ raw, tensor = .view { storage := raw, dtype, layout := .contiguous shape } ∧
    raw.nbytes = shape.prod * dtype.itemsize ∧ raw.device = deviceId ∧ Zeroed w raw

/-- A layer is seen as a tensor of zeros on the device of its allocation. -/
theorem EdmmLayer.observed (h : MappingInv w) {shape : List Nat} (hshape : 0 ∉ shape)
    {dtype : DType} {deviceId : DeviceId} {tensor : CacheTensor}
    (hlayer : EdmmLayer w shape dtype deviceId tensor) (d : DeviceId) :
    tensor.observed w d = .zeros shape dtype (.cuda deviceId) := by
  obtain ⟨raw, rfl, hnbytes, rfl, hzeroed⟩ := hlayer
  have hextent : TorchTensor.extentBytes
      { storage := raw, dtype, layout := .contiguous shape } = raw.nbytes := by
    rw [hnbytes]
    exact congrArg (· * dtype.itemsize) (stridedExtent_contiguous hshape)
  have hbytes : (List.range raw.nbytes).map (fun i =>
      w.driver.load raw.device (raw.dataPtr + i)) = List.replicate raw.nbytes (some 0) := by
    rw [List.eq_replicate_iff]
    refine ⟨by simp, fun byte hbyte => ?_⟩
    obtain ⟨i, hi, rfl⟩ := List.mem_map.mp hbyte
    exact hzeroed.load h (List.mem_range.mp hi)
  have hptr : TorchTensor.dataPtr { storage := raw, dtype, layout := .contiguous shape } =
      raw.dataPtr := TorchTensor.dataPtr_of_offset rfl
  simp only [CacheTensor.observed, Observed.zeros, hextent, hptr, hbytes]
  rw [hnbytes]
  rfl

/-- The view of the whole allocation does not raise. -/
theorem view_of_bytes (raw : Tensor) (shape : List Nat) (dtype : DType)
    (hnbytes : raw.nbytes = shape.prod * dtype.itemsize) :
    viewDtype raw dtype =
        .ok { storage := raw, dtype, layout := .contiguous [shape.prod] } ∧
      TorchTensor.view { storage := raw, dtype, layout := .contiguous [shape.prod] } shape =
        .ok { storage := raw, dtype, layout := .contiguous shape } := by
  have hpos := dtype.itemsize_pos
  constructor
  · unfold viewDtype
    rw [hnbytes, Nat.mul_mod_left, if_pos rfl, Nat.mul_div_cancel _ hpos]
    rfl
  · have hview : (Layout.contiguous [shape.prod]).view shape = some (.contiguous shape) := by
      unfold Layout.view
      rw [if_pos (by simp [Layout.numel, Layout.contiguous])]
      rfl
    unfold TorchTensor.view
    rw [hview]
    rfl

theorem allocateLayer_edmm (hlawful : cuda.Lawful) (hsucceeds : cuda.Succeeds)
    (h : MappingInv w) {shape : List Nat} (hshape : 0 ∉ shape) (dtype : DType) (pinMemory : Bool)
    (device : Device) :
    wp (CacheEngine.allocateLayer cuda true dtype shape pinMemory (.cuda device))
      (fun tensor w' => MappingInv w' ∧ EdmmLayer w' shape dtype (device.index.getD 0) tensor ∧
        ∀ t, Zeroed w t → Zeroed w' t)
      (fun _ _ => False) w := by
  have hsize : 0 < shape.prod * dtype.itemsize :=
    Nat.mul_pos (prod_max_of_nonempty hshape ▸ one_le_prod_max shape) dtype.itemsize_pos
  unfold CacheEngine.allocateLayer
  simp only [wp_bind, wp_adaptExcept]
  refine wp_mono_ok (wp_and_returns (allocateVmmKvCache_spec _ device)
    (allocateVmmKvCache_returns hsucceeds _ _ w)) ?_
  rintro raw w' ⟨alloc, hnew, rfl⟩
  have hreg := h.toRegistryInv
  obtain ⟨hdtype, hview⟩ := view_of_bytes
    ⟨alloc.vaPtr, shape.prod * dtype.itemsize, device.index.getD 0⟩ shape dtype rfl
  simp only [hdtype, hview, wp_ofExcept_ok, wp_pure]
  refine ⟨h.allocated hlawful hsize hnew, ⟨_, rfl, rfl, rfl, ?_⟩, fun t ht => ?_⟩
  · exact hnew.zeroed_self hlawful hsucceeds hreg hsize
  · exact ht.allocated hlawful hsucceeds hreg hsize hnew

/-- **The loop over the layers, with EDMM.** -/
theorem allocateKvCache_edmm (hlawful : cuda.Lawful) (hsucceeds : cuda.Succeeds)
    (h : MappingInv w) (isPinMemoryAvailable : Bool) {engine : CacheEngine} {numBlocks : Nat}
    (hshape : 0 ∉ engine.kvCacheShape numBlocks) (device : Device) (d : DeviceId) :
    wp (engine.allocateKvCache cuda true isPinMemoryAvailable numBlocks (.cuda device))
      (fun kvCache w' => kvCache.map (CacheTensor.observed w' d) =
        List.replicate engine.numAttentionLayers
          (.zeros (engine.kvCacheShape numBlocks) engine.dtype (.cuda (device.index.getD 0))))
      (fun _ _ => False) w := by
  unfold CacheEngine.allocateKvCache
  refine wp_mono_ok (wp_foldlM_remaining (E := fun _ _ => False)
    (I := fun rest kvCache w => kvCache.length + rest.length = engine.numAttentionLayers ∧
      MappingInv w ∧ ∀ tensor ∈ kvCache, EdmmLayer w (engine.kvCacheShape numBlocks) engine.dtype
        (device.index.getD 0) tensor) ?_ ⟨by simp, h, by simp⟩) ?_
  · rintro _ rest kvCache w ⟨hlength, hmapping, hlayers⟩
    simp only [wp_bind, wp_pure]
    refine wp_mono_ok
      (allocateLayer_edmm hlawful hsucceeds hmapping hshape engine.dtype _ device) ?_
    rintro tensor w' ⟨hmapping', hlayer, hkept⟩
    refine ⟨?_, hmapping', fun tensor' hmem => ?_⟩
    · rw [List.length_append, List.length_singleton]
      rw [List.length_cons] at hlength
      omega
    · rcases List.mem_append.mp hmem with hold | hlast
      · obtain ⟨raw, hview, hnbytes, hdevice, hzeroed⟩ := hlayers tensor' hold
        exact ⟨raw, hview, hnbytes, hdevice, hkept raw hzeroed⟩
      · rw [List.mem_singleton.mp hlast]
        exact hlayer
  · rintro kvCache w' ⟨hlength, hmapping, hlayers⟩
    rw [List.eq_replicate_iff, List.length_map]
    refine ⟨hlength, fun observed hmem => ?_⟩
    obtain ⟨tensor, htensor, rfl⟩ := List.mem_map.mp hmem
    exact (hlayers tensor htensor).observed hmapping hshape d

/-- The same loop where no layer is allocated by EDMM. -/
theorem allocateKvCache_standard (cuda : Cuda) (w : AllocatorState) (edmmEnabled : Bool)
    (device : DeviceName) (hstandard : edmmEnabled = false ∨ device = .cpu)
    (isPinMemoryAvailable : Bool) (engine : CacheEngine) (numBlocks : Nat) (d : DeviceId) :
    wp (engine.allocateKvCache cuda edmmEnabled isPinMemoryAvailable numBlocks device)
      (fun kvCache w' => kvCache.map (CacheTensor.observed w' d) =
        List.replicate engine.numAttentionLayers (.zeros (engine.kvCacheShape numBlocks)
          engine.dtype (device.placement isPinMemoryAvailable d)))
      (fun _ _ => False) w := by
  unfold CacheEngine.allocateKvCache
  refine wp_mono_ok (wp_foldlM_remaining (E := fun _ _ => False)
    (I := fun rest kvCache _ => kvCache.length + rest.length = engine.numAttentionLayers ∧
      ∀ tensor ∈ kvCache, tensor = .zeros (engine.kvCacheShape numBlocks) engine.dtype
        (if device = .cpu then isPinMemoryAvailable else false) device) ?_
    ⟨by simp, by simp⟩) ?_
  · rintro _ rest kvCache w ⟨hlength, hlayers⟩
    have hlayer : CacheEngine.allocateLayer cuda edmmEnabled engine.dtype
        (engine.kvCacheShape numBlocks) (if device = .cpu then isPinMemoryAvailable else false)
        device = pure (.zeros (engine.kvCacheShape numBlocks) engine.dtype
          (if device = .cpu then isPinMemoryAvailable else false) device) := by
      rcases hstandard with rfl | rfl
      · rfl
      · cases edmmEnabled <;> rfl
    simp only [hlayer, wp_bind, wp_pure]
    refine ⟨?_, fun tensor hmem => ?_⟩
    · rw [List.length_append, List.length_singleton]
      rw [List.length_cons] at hlength
      omega
    · rcases List.mem_append.mp hmem with hold | hlast
      · exact hlayers tensor hold
      · exact List.mem_singleton.mp hlast
  · rintro kvCache w' ⟨hlength, hlayers⟩
    rw [List.eq_replicate_iff, List.length_map]
    refine ⟨hlength, fun observed hmem => ?_⟩
    obtain ⟨tensor, htensor, rfl⟩ := List.mem_map.mp hmem
    rw [hlayers tensor htensor]
    cases device <;> rfl

/-- With EDMM every name is resolved as if the current device were device 0. -/
theorem allocateKvCache_enabled (hlawful : cuda.Lawful) (hsucceeds : cuda.Succeeds)
    (h : MappingInv w) (isPinMemoryAvailable : Bool) {engine : CacheEngine} {numBlocks : Nat}
    (hshape : 0 ∉ engine.kvCacheShape numBlocks) (device : DeviceName) (d : DeviceId) :
    wp (engine.allocateKvCache cuda true isPinMemoryAvailable numBlocks device)
      (fun kvCache w' => kvCache.map (CacheTensor.observed w' d) =
        List.replicate engine.numAttentionLayers (.zeros (engine.kvCacheShape numBlocks)
          engine.dtype (device.placement isPinMemoryAvailable 0)))
      (fun _ _ => False) w := by
  cases device with
  | cpu =>
    exact allocateKvCache_standard cuda w true .cpu (Or.inr rfl) isPinMemoryAvailable engine
      numBlocks d
  | cuda device =>
    exact allocateKvCache_edmm hlawful hsucceeds h isPinMemoryAvailable hshape device d

/-- **Where the two modes agree.**  In every reachable state, for every engine, number
    of blocks and device, and for every current device `d`: both modes return the
    same cache, as it is seen, exactly if the device is named with its index (or is
    the CPU), or the current device is device 0, or there are no layers. -/
theorem allocateKvCache_agrees_iff (cuda : Cuda) (hlawful : cuda.Lawful)
    (hsucceeds : cuda.Succeeds) (memory : Handle → Nat → UInt8) (ops : List AllocatorOp)
    (isPinMemoryAvailable : Bool) (engine : CacheEngine) (numBlocks : Nat)
    (hshape : 0 ∉ engine.kvCacheShape numBlocks) (device : DeviceName) (d : DeviceId) :
    engine.Agrees cuda isPinMemoryAvailable numBlocks device d (runAllocator cuda memory ops) ↔
      (device = .cuda ⟨none⟩ → d = 0 ∨ engine.numAttentionLayers = 0) := by
  have hmapping := mappingInv_runAllocator hlawful hsucceeds memory ops
  obtain ⟨kvCache, w₁, hedmm, hkvCache⟩ := returns_of_wp
    (allocateKvCache_enabled hlawful hsucceeds hmapping isPinMemoryAvailable hshape device d)
  obtain ⟨standard, w₂, hzeros, hstandard⟩ := returns_of_wp
    (allocateKvCache_standard cuda (runAllocator cuda memory ops) false device (Or.inl rfl)
      isPinMemoryAvailable engine numBlocks d)
  have hagrees : engine.Agrees cuda isPinMemoryAvailable numBlocks device d
      (runAllocator cuda memory ops) ↔
        engine.numAttentionLayers = 0 ∨
          device.placement isPinMemoryAvailable 0 = device.placement isPinMemoryAvailable d := by
    constructor
    · rintro ⟨kvCache', w₁', standard', w₂', hedmm', hzeros', hsame⟩
      rw [hedmm] at hedmm'
      rw [hzeros] at hzeros'
      cases hedmm'
      cases hzeros'
      rw [hkvCache, hstandard, List.replicate_inj] at hsame
      exact hsame.2.imp_right (congrArg Observed.placement)
    · intro hplacement
      refine ⟨kvCache, w₁, standard, w₂, hedmm, hzeros, ?_⟩
      rw [hkvCache, hstandard, List.replicate_inj]
      exact ⟨rfl, hplacement.imp_right (congrArg (Observed.zeros _ _))⟩
  rw [hagrees]
  rcases device with _ | ⟨_ | index⟩
  · simp [DeviceName.placement]
  · simp [DeviceName.placement, eq_comm, or_comm]
  · simp [DeviceName.placement]

/-- Two layers of a float16 cache on device 0. -/
theorem allocateKvCache_agrees_device_zero :
    CacheEngine.Agrees .bump true ⟨2, 16, 2, 8, .float16,
        fun numBlocks blockSize numKvHeads headSize =>
          [2, numBlocks, blockSize, numKvHeads, headSize]⟩
      4 (.cuda ⟨none⟩) 0 (runAllocator .bump (fun _ _ => 255) []) :=
  (allocateKvCache_agrees_iff .bump Cuda.bump_lawful Cuda.bump_succeeds _ [] true _ 4 (by decide)
    (.cuda ⟨none⟩) 0).mpr fun _ => Or.inl rfl

/-- **A worker on device 1 gets its cache on device 0.** -/
theorem allocateKvCache_other_device :
    ¬ ∀ (cuda : Cuda), cuda.Lawful → cuda.Succeeds → ∀ (memory : Handle → Nat → UInt8)
      (ops : List AllocatorOp) (isPinMemoryAvailable : Bool) (engine : CacheEngine)
      (numBlocks : Nat), 0 ∉ engine.kvCacheShape numBlocks → ∀ (device : DeviceName) (d : DeviceId),
      engine.Agrees cuda isPinMemoryAvailable numBlocks device d (runAllocator cuda memory ops) := by
  intro hclaim
  obtain ⟨kvCache, w₁, standard, w₂, hedmm, hstandard, hsame⟩ := hclaim .bump Cuda.bump_lawful
    Cuda.bump_succeeds (fun _ _ => 0) [] false ⟨1, 1, 1, 1, .int8, fun numBlocks _ _ _ => [numBlocks]⟩
    2 (by decide) (.cuda ⟨none⟩) 1
  have hfirst : (returned (CacheEngine.allocateKvCache .bump true false
      ⟨1, 1, 1, 1, .int8, fun numBlocks _ _ _ => [numBlocks]⟩ 2 (.cuda ⟨none⟩)
      (runAllocator .bump (fun _ _ => 0) []))) =
        some [.view ⟨⟨0, 2, 0⟩, .int8, ⟨[2], [1], 0⟩⟩] := by
    decide +kernel
  have hzeros : (returned (CacheEngine.allocateKvCache .bump false false
      ⟨1, 1, 1, 1, .int8, fun numBlocks _ _ _ => [numBlocks]⟩ 2 (.cuda ⟨none⟩)
      (runAllocator .bump (fun _ _ => 0) []))) =
        some [.zeros [2] .int8 false (.cuda ⟨none⟩)] := by
    decide +kernel
  rw [hedmm] at hfirst
  rw [hstandard] at hzeros
  cases hfirst
  cases hzeros
  have hplaces := congrArg (List.map Observed.placement) hsame
  cases hplaces

end Edmm
