/-
  Edmm/KvCacheTensors.lean
  ========================
  **Allocating and reshaping KV caches** (`vllm_v1_worker_gpu/attn_utils.py`).

  `_allocate_kv_cache` makes one raw tensor for each entry of the configuration, which
  the layers of the entry share, and `_reshape_kv_cache` carves a view out of it for
  each layer: one for an attention layer, one for each state of a Mamba layer.  The
  specs and the attention backends are records of what these functions read of them;
  a tensor operation that torch refuses raises `torchRuntimeError`.
-/
import Edmm.IntegrityCheck

namespace Edmm

open Program

/-! ## 1. Configuration -/

structure AttentionSpec where
  pageSizeBytes : Nat
  blockSize : Nat
  storageBlockSize : Nat
  numKvHeads : Nat
  headSize : Nat
  dtype : DType
  pageSizePadded : Option Nat

structure MambaSpec where
  pageSizeBytes : Nat
  shapes : List (List Nat)
  dtypes : List DType

/-- The spec of one layer; the third kind is every other subclass of `KVCacheSpec`. -/
inductive LayerSpec where
  | attention (spec : AttentionSpec)
  | mamba (spec : MambaSpec)
  | other (typeName : String) (pageSizeBytes : Nat)

def LayerSpec.pageSizeBytes : LayerSpec → Nat
  | .attention spec => spec.pageSizeBytes
  | .mamba spec => spec.pageSizeBytes
  | .other _ pageSizeBytes => pageSizeBytes

/-- The spec of a group: one for all its layers, or `UniformTypeKVCacheSpecs`. -/
inductive KVCacheSpec where
  | single (spec : LayerSpec)
  | uniformType (kvCacheSpecs : Dict String LayerSpec)

structure KVCacheTensor where
  size : ℕ+
  sharedBy : List String

structure KVCacheGroupSpec where
  layerNames : List String
  kvCacheSpec : KVCacheSpec

structure KVCacheConfig where
  kvCacheTensors : List KVCacheTensor
  kvCacheGroups : List KVCacheGroupSpec

/-- What the two functions raise. -/
inductive KvCacheError where
  | raised (e : PyError)
  | zeroDivisionError
  | attributeError
  | notImplementedError (message : String)
  | torchRuntimeError
deriving DecidableEq, Repr

abbrev KvCacheM := Except KvCacheError

structure AttentionBackend where
  /-- `get_kv_cache_shape(num_blocks, block_size, num_kv_heads, head_size, cache_dtype)` -/
  getKvCacheShape : Nat → Nat → Nat → Nat → String → KvCacheM (List Nat)
  /-- `get_kv_cache_stride_order()`; `none` for a backend without it. -/
  getKvCacheStrideOrder : Option (List Nat)

/-- An entry of `kv_caches`: a tensor, or the state tensors of a Mamba layer. -/
inductive KvCache where
  | tensor (t : TorchTensor)
  | states (ts : List TorchTensor)

def KvCache.tensors : KvCache → List TorchTensor
  | .tensor t => [t]
  | .states ts => ts

/-! ## 2. Python and torch -/

/-- `a // b` -/
def floorDiv (a b : Nat) : KvCacheM Nat :=
  if b = 0 then throw .zeroDivisionError else pure (a / b)

/-- `a % b` -/
def floorMod (a b : Nat) : KvCacheM Nat :=
  if b = 0 then throw .zeroDivisionError else pure (a % b)

/-- `items[key]` -/
def Dict.getItem {α : Type} (items : Dict String α) (key : String) : KvCacheM α :=
  match items.get? key with
  | some item => pure item
  | none => throw (.raised .keyError)

/-- `items[i]` -/
def listItem (items : List Nat) (i : Nat) : KvCacheM Nat :=
  match items[i]? with
  | some item => pure item
  | none => throw (.raised .indexError)

/-- `items.index(item)` -/
def listIndex (items : List Nat) (item : Nat) : KvCacheM Nat :=
  match items.idxOf? item with
  | some i => pure i
  | none => throw (.raised (.valueError s!"{item} is not in list"))

/-- `assert condition` -/
def assertThat (holds : Bool) (condition : String) : KvCacheM PUnit :=
  if holds then pure ⟨⟩ else throw (.raised (.assertFailed condition))

def torchResult {α : Type} : Option α → KvCacheM α
  | some a => pure a
  | none => throw .torchRuntimeError

/-- `raw.view(dtype)` of the bytes of a storage. -/
def viewDtype (storage : Tensor) (dtype : DType) : KvCacheM TorchTensor :=
  if storage.nbytes % dtype.itemsize = 0 then
    pure { storage, dtype, layout := .contiguous [storage.nbytes / dtype.itemsize] }
  else throw .torchRuntimeError

namespace TorchTensor

/-- `t.view(shape)` of a contiguous tensor. -/
def view (t : TorchTensor) (shape : List Nat) : KvCacheM TorchTensor := do
  let layout ← torchResult (t.layout.view shape)
  return { t with layout }

/-- `torch.as_strided(t, size, stride, storage_offset)` -/
def asStrided (t : TorchTensor) (size stride : List Nat) (storageOffset : Nat) :
    KvCacheM TorchTensor := do
  let layout ← torchResult
    (Layout.asStrided size stride storageOffset (t.storage.nbytes / t.dtype.itemsize))
  return { t with layout }

/-- `t.permute(*dims)` -/
def permute (t : TorchTensor) (dims : List Nat) : KvCacheM TorchTensor := do
  let layout ← torchResult (t.layout.permute dims)
  return { t with layout }

end TorchTensor

/-! ## 3. `_allocate_kv_cache` -/

/-- The set of all layer names of the groups. -/
def KVCacheConfig.layerNames (config : KVCacheConfig) : List String :=
  config.kvCacheGroups.flatMap KVCacheGroupSpec.layerNames

/-- `for layer_name in shared_by: kv_cache_raw_tensors[layer_name] = tensor` -/
def setAll {α : Type} (items : Dict String α) (names : List String) (item : α) : Dict String α :=
  names.foldl (fun items name => items.set name item) items

/-- One entry of `kv_cache_tensors`. -/
def allocateKvCacheTensor (cuda : Cuda) (edmmEnabled : Bool) (torchZeros : Nat → Device → Tensor)
    (device : Device) (raws : Dict String Tensor) (entry : KVCacheTensor) :
    AllocM (Dict String Tensor) := do
  let tensor ← if edmmEnabled then allocateVmmKvCache cuda entry.size device
    else pure (torchZeros entry.size device)
  return setAll raws entry.sharedBy tensor

/-- `_allocate_kv_cache`; `torchZeros` is what the fallback allocates with. -/
def allocateKvCache (cuda : Cuda) (edmmEnabled : Bool) (torchZeros : Nat → Device → Tensor)
    (config : KVCacheConfig) (sharedLayers : Dict String String) (device : Device) :
    AllocM (Dict String Tensor) := do
  let raws ← config.kvCacheTensors.foldlM
    (allocateKvCacheTensor cuda edmmEnabled torchZeros device) ∅
  let initialized := raws.keys ++ sharedLayers.keys
  if config.layerNames ⊆ initialized ∧ initialized ⊆ config.layerNames then return raws
  else throw (.assertionError "Some layers are not correctly initialized")

/-! ## 4. `_reshape_kv_cache` -/

/-- The spec of a layer of the group. -/
def KVCacheSpec.ofLayer (spec : KVCacheSpec) (layerName : String) : KvCacheM LayerSpec :=
  match spec with
  | .single spec => pure spec
  | .uniformType kvCacheSpecs => kvCacheSpecs.getItem layerName

/-- The number of kernel blocks in `num_blocks` blocks. -/
def kernelNumBlocks (spec : AttentionSpec) (kernelBlockSize? : Option Nat) (numBlocks : Nat) :
    KvCacheM Nat :=
  match kernelBlockSize? with
  | some kernelBlockSize => do
      let ratio ← floorDiv spec.blockSize kernelBlockSize
      pure (numBlocks * ratio)
  | none => pure numBlocks

/-- The order of the dimensions in memory; the default is the order of the shape. -/
def strideOrderOf (backend : AttentionBackend) (shape : List Nat) : KvCacheM (List Nat) :=
  match backend.getKvCacheStrideOrder with
  | some strideOrder => do
      assertThat (strideOrder.length = shape.length)
        "len(kv_cache_stride_order) == len(kv_cache_shape)"
      pure strideOrder
  | none => pure (List.range shape.length)

/-- The view of an attention layer. -/
def reshapeAttention (backend : AttentionBackend) (spec : AttentionSpec)
    (kernelBlockSize? : Option Nat) (cacheDtype : String) (raw : Tensor) (numBlocks : Nat) :
    KvCacheM TorchTensor := do
  let numBlocks ← kernelNumBlocks spec kernelBlockSize? numBlocks
  let kernelBlockSize := kernelBlockSize?.getD spec.blockSize
  let shapeBlockSize :=
    if spec.storageBlockSize ≠ spec.blockSize then spec.storageBlockSize else kernelBlockSize
  let logicalShape ←
    backend.getKvCacheShape numBlocks shapeBlockSize spec.numKvHeads spec.headSize cacheDtype
  let strideOrder ← strideOrderOf backend logicalShape
  let kvCacheShape ← strideOrder.mapM (listItem logicalShape)
  let invOrder ← (List.range strideOrder.length).mapM (listIndex strideOrder)
  let kvTensor ← viewDtype raw spec.dtype
  let kvCache ← match spec.pageSizePadded with
    | some _ => do
        let pageStride := spec.pageSizeBytes / spec.dtype.itemsize
        let first ← listItem invOrder 0
        let strides := (contiguousStrides kvCacheShape).set first pageStride
        kvTensor.asStrided kvCacheShape strides kvTensor.layout.offset
    | none => kvTensor.view kvCacheShape
  kvCache.permute invOrder

/-- One turn of the loop over the states of a Mamba layer: the tensors so far and
    `storage_offset_bytes`. -/
def reshapeState (pageSizeBytes : Nat) (raw : Tensor) (numBlocks : Nat)
    (s : List TorchTensor × Nat) (state : List Nat × DType) :
    KvCacheM (List TorchTensor × Nat) := do
  let dtypeSize := state.2.itemsize
  let numElementPerPage := pageSizeBytes / dtypeSize
  let targetShape := numBlocks :: state.1
  let stride := contiguousStrides targetShape
  let targetStride := numElementPerPage :: stride.drop 1
  assertThat (s.2 % dtypeSize = 0) "storage_offset_bytes % dtype_size == 0"
  let tensor ← (← viewDtype raw state.2).asStrided targetShape targetStride (s.2 / dtypeSize)
  return (s.1 ++ [tensor], s.2 + stride.headD 0 * dtypeSize)

/-- The state tensors of a Mamba layer. -/
def reshapeMamba (spec : MambaSpec) (raw : Tensor) (numBlocks : Nat) :
    KvCacheM (List TorchTensor) := do
  let (stateTensors, _) ← (spec.shapes.zip spec.dtypes).foldlM
    (reshapeState spec.pageSizeBytes raw numBlocks) ([], 0)
  return stateTensors

structure ReshapeState where
  kvCaches : Dict String KvCache
  hasAttn : Bool
  hasMamba : Bool

/-- What `_reshape_kv_cache` reads next to the configuration. -/
structure ReshapeInputs where
  rawTensors : Dict String Tensor
  attnBackends : Dict String AttentionBackend
  cacheDtype : String
  kernelBlockSizes : List Nat
  sharedKvCacheLayers : Dict String String

/-- One layer of a group. -/
def reshapeLayer (inputs : ReshapeInputs) (groupId : Nat) (groupSpec : KVCacheSpec)
    (s : ReshapeState) (layerName : String) : KvCacheM ReshapeState :=
  if (inputs.sharedKvCacheLayers.get? layerName).isSome then pure s
  else do
    let kvCacheSpec ← groupSpec.ofLayer layerName
    let raw ← inputs.rawTensors.getItem layerName
    let rest ← floorMod raw.nbytes kvCacheSpec.pageSizeBytes
    assertThat (rest = 0) "kv_raw_tensor.numel() % kv_cache_spec.page_size_bytes == 0"
    let numBlocks := raw.nbytes / kvCacheSpec.pageSizeBytes
    match kvCacheSpec with
    | .attention spec => do
        let backend ← inputs.attnBackends.getItem layerName
        let t ← reshapeAttention backend spec inputs.kernelBlockSizes[groupId]?
          inputs.cacheDtype raw numBlocks
        return { s with kvCaches := s.kvCaches.set layerName (.tensor t), hasAttn := true }
    | .mamba spec => do
        let ts ← reshapeMamba spec raw numBlocks
        return { s with kvCaches := s.kvCaches.set layerName (.states ts), hasMamba := true }
    | .other typeName _ =>
        throw (.notImplementedError s!"Unsupported KV cache spec type: {typeName}")

/-- `str(kv_cache.shape)` -/
def shapeText (shape : List Nat) : String :=
  "torch.Size([" ++ String.intercalate ", " (shape.map toString) ++ "])"

/-- One layer of `_update_hybrid_attention_layout`; the view is changed in place. -/
def updateLayerLayout (groupSpec : KVCacheSpec) (kvCaches : Dict String KvCache)
    (layerName : String) : KvCacheM (Dict String KvCache) :=
  match kvCaches.get? layerName with
  | none => pure kvCaches
  | some kvCache => do
      match ← groupSpec.ofLayer layerName with
      | .attention _ =>
          match kvCache with
          | .states _ => throw .attributeError
          | .tensor t => do
              if (← listItem t.layout.shape 0) = 2 then
                if (← listItem t.layout.shape 1) = 2 then
                  throw (.raised (.assertionError
                    s!"Cannot determine layout for tensor of shape {shapeText t.layout.shape}"))
                else do
                  let hiddenSize := (t.layout.shape.drop 2).prod
                  let t ← t.asStrided t.layout.shape
                    (hiddenSize :: 2 * hiddenSize :: t.layout.stride.drop 2) t.layout.offset
                  return kvCaches.set layerName (.tensor t)
              else return kvCaches
      | _ => return kvCaches

def updateHybridAttentionLayout (kvCaches : Dict String KvCache) (config : KVCacheConfig) :
    KvCacheM (Dict String KvCache) :=
  config.kvCacheGroups.foldlM
    (fun kvCaches group => group.layerNames.foldlM (updateLayerLayout group.kvCacheSpec) kvCaches)
    kvCaches

/-- A sharing layer gets the KV cache of its target layer. -/
def aliasLayer (kvCaches : Dict String KvCache) (sharing : String × String) :
    KvCacheM (Dict String KvCache) := do
  let target ← kvCaches.getItem sharing.2
  return kvCaches.set sharing.1 target

def reshapeKvCache (config : KVCacheConfig) (inputs : ReshapeInputs) :
    KvCacheM (Dict String KvCache) := do
  let s ← config.kvCacheGroups.zipIdx.foldlM
    (fun s group => group.1.layerNames.foldlM
      (reshapeLayer inputs group.2 group.1.kvCacheSpec) s)
    { kvCaches := ∅, hasAttn := false, hasMamba := false }
  let kvCaches ←
    if s.hasAttn && s.hasMamba then updateHybridAttentionLayout s.kvCaches config
    else pure s.kvCaches
  inputs.sharedKvCacheLayers.items.foldlM aliasLayer kvCaches

end Edmm
