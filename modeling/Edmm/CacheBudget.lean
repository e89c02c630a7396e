/-
  Edmm/CacheBudget.lean
  =====================
  **The block budget and the physical memory of an EDMM cache.**

  The engine is sized by `get_cache_block_size`, which counts the bytes of one block
  over all layers; with EDMM each layer is then allocated in whole pages.  Creating
  the engine therefore takes at least the budget of its blocks, less than one page
  for each layer more, and exactly the budget if a layer is a whole number of pages
  (`init_physicalBytes`).
-/
import Edmm.CacheEngine
import Edmm.PageTiling
import Mathlib.Tactic.Ring

namespace Edmm

open Program

variable {cuda : Cuda} {w : AllocatorState}

/-! ## 1. Configurations -/

structure CacheConfig where
  blockSize : Nat
  cacheDtype : String
  numGpuBlocks : Nat
  numCpuBlocks : Nat
deriving DecidableEq, Repr

structure ParallelConfig where
  pipelineParallelSize : ℕ+
deriving DecidableEq

structure ModelConfig where
  dtype : DType
  isAttentionFree : Bool
  headSize : Nat
  getNumKvHeads : ParallelConfig → Nat
  /-- `get_num_layers_by_block_type(parallel_config, LayerBlockType.attention)` -/
  getNumAttentionLayers : ParallelConfig → Nat

/-- What the engine takes from other modules: the named dtypes, and the KV shape of the
    backend that `get_attn_backend` picks. -/
structure CacheLibrary where
  strDtypeToTorchDtype : String → Option DType
  getKvCacheShape : (headSize : Nat) → DType → (cacheDtype : String) → (blockSize : Nat) →
    (isAttentionFree : Bool) → Nat → Nat → Nat → Nat → List Nat

/-- The dtype of the cache; an unknown name is a `KeyError`. -/
def cacheTorchDtype (library : CacheLibrary) (cacheConfig : CacheConfig)
    (modelConfig : ModelConfig) : Except KvCacheError DType :=
  if cacheConfig.cacheDtype = "auto" then
    .ok modelConfig.dtype
  else
    match library.strDtypeToTorchDtype cacheConfig.cacheDtype with
    | some dtype => .ok dtype
    | none => .error (.raised .keyError)

/-- `get_cache_block_size` -/
def getCacheBlockSize (library : CacheLibrary) (cacheConfig : CacheConfig)
    (modelConfig : ModelConfig) (parallelConfig : ParallelConfig) : Except KvCacheError Nat := do
  let headSize := modelConfig.headSize
  let numHeads := modelConfig.getNumKvHeads parallelConfig
  let numAttentionLayers := modelConfig.getNumAttentionLayers parallelConfig
  let keyCacheBlock := cacheConfig.blockSize * numHeads * headSize
  let valueCacheBlock := keyCacheBlock
  let total := numAttentionLayers * (keyCacheBlock + valueCacheBlock)
  let dtype ← cacheTorchDtype library cacheConfig modelConfig
  return dtype.itemsize * total

/-- The attributes that `__init__` sets before it allocates. -/
def CacheEngine.ofConfig (library : CacheLibrary) (cacheConfig : CacheConfig)
    (modelConfig : ModelConfig) (parallelConfig : ParallelConfig) (dtype : DType) : CacheEngine :=
  { numAttentionLayers := modelConfig.getNumAttentionLayers parallelConfig
    blockSize := cacheConfig.blockSize
    numKvHeads := modelConfig.getNumKvHeads parallelConfig
    headSize := modelConfig.headSize
    dtype
    getKvCacheShape := library.getKvCacheShape modelConfig.headSize modelConfig.dtype
      cacheConfig.cacheDtype cacheConfig.blockSize modelConfig.isAttentionFree }

/-- An engine with its caches. -/
structure InitializedEngine extends CacheEngine where
  numGpuBlocks : Nat
  numCpuBlocks : Nat
  gpuCache : List CacheTensor
  cpuCache : List CacheTensor

/-- `CacheEngine.__init__` -/
def CacheEngine.init (cuda : Cuda) (edmmEnabled isPinMemoryAvailable : Bool)
    (library : CacheLibrary) (cacheConfig : CacheConfig) (modelConfig : ModelConfig)
    (parallelConfig : ParallelConfig) (deviceType : DeviceName) : EngineM InitializedEngine := do
  let numGpuBlocks := cacheConfig.numGpuBlocks / parallelConfig.pipelineParallelSize
  let numCpuBlocks := cacheConfig.numCpuBlocks / parallelConfig.pipelineParallelSize
  let dtype ← ofExcept (cacheTorchDtype library cacheConfig modelConfig)
  let engine := CacheEngine.ofConfig library cacheConfig modelConfig parallelConfig dtype
  let gpuCache ← engine.allocateKvCache cuda edmmEnabled isPinMemoryAvailable numGpuBlocks deviceType
  let cpuCache ← engine.allocateKvCache cuda edmmEnabled isPinMemoryAvailable numCpuBlocks .cpu
  return { engine with numGpuBlocks, numCpuBlocks, gpuCache, cpuCache }

/-! ## 2. The bytes of one layer -/

/-- The bytes of one layer of a cache of `numBlocks` blocks. -/
def CacheEngine.layerBytes (engine : CacheEngine) (numBlocks : Nat) : Nat :=
  (engine.kvCacheShape numBlocks).prod * engine.dtype.itemsize

/-- Rounding up to pages adds less than a page. -/
theorem alignedSizeOf_lt (sizeBytes : Nat) {pageSize : Nat} (hpage : 0 < pageSize) :
    alignedSizeOf sizeBytes pageSize < sizeBytes + pageSize := by
  have hdiv := Nat.div_mul_le_self (sizeBytes + pageSize - 1) pageSize
  unfold alignedSizeOf
  omega

/-- Rounding adds nothing exactly to whole pages. -/
theorem alignedSizeOf_eq_self_iff (sizeBytes : Nat) {pageSize : Nat} (hpage : 0 < pageSize) :
    alignedSizeOf sizeBytes pageSize = sizeBytes ↔ pageSize ∣ sizeBytes := by
  have hleast := alignedSizeOf_isLeast sizeBytes hpage
  constructor
  · intro heq
    exact heq ▸ hleast.1.1
  · intro hdvd
    exact Nat.le_antisymm (hleast.2 ⟨hdvd, Nat.le_refl _⟩) hleast.1.2

/-- What one layer creates: its pages. -/
theorem allocateLayer_sizes {device : Device} {granularity : Nat}
    (hgranularity : ∀ s, cuda.granularity s (device.index.getD 0) = granularity)
    (shape : List Nat) (dtype : DType) (pinMemory : Bool) :
    wp (CacheEngine.allocateLayer cuda true dtype shape pinMemory (.cuda device))
      (fun _ w' => w'.driver.createdSizes = w.driver.createdSizes ++
        List.replicate ((shape.prod * dtype.itemsize) ⌈/⌉ pageSizeOf granularity)
          (pageSizeOf granularity))
      (fun _ _ => ¬ cuda.Succeeds) w := by
  unfold CacheEngine.allocateLayer
  simp only [wp_bind, wp_adaptExcept]
  refine wp_mono_ok (allocateVmmKvCache_sized _ device) ?_
  intro raw w' hlaid
  rcases hlaid with ⟨s, alloc, -, rfl, hsized⟩
  obtain ⟨hdtype, hview⟩ := view_of_bytes
    ⟨alloc.vaPtr, shape.prod * dtype.itemsize, device.index.getD 0⟩ shape dtype rfl
  have hpage : alloc.pageSize = pageSizeOf granularity := by rw [hsized.pageSize, hgranularity]
  have hpages : alloc.handles.length = (shape.prod * dtype.itemsize) ⌈/⌉ pageSizeOf granularity :=
    hpage ▸ hsized.numPages
  simp only [hdtype, hview, wp_ofExcept_ok, wp_pure]
  rw [hsized.createdSizes, hpages, hpage]

/-- What the loop over the layers creates. -/
theorem allocateKvCache_sizes {device : Device} {granularity : Nat}
    (hgranularity : ∀ s, cuda.granularity s (device.index.getD 0) = granularity)
    (isPinMemoryAvailable : Bool) (engine : CacheEngine) (numBlocks : Nat) :
    wp (engine.allocateKvCache cuda true isPinMemoryAvailable numBlocks (.cuda device))
      (fun _ w' => w'.driver.createdSizes = w.driver.createdSizes ++
        List.replicate (engine.numAttentionLayers *
          (engine.layerBytes numBlocks ⌈/⌉ pageSizeOf granularity)) (pageSizeOf granularity))
      (fun _ _ => ¬ cuda.Succeeds) w := by
  unfold CacheEngine.allocateKvCache
  refine wp_mono_ok (wp_foldlM_remaining (E := fun _ _ => ¬ cuda.Succeeds)
    (I := fun rest _ w' => ∃ layers, layers + rest.length = engine.numAttentionLayers ∧
      w'.driver.createdSizes = w.driver.createdSizes ++
        List.replicate (layers * (engine.layerBytes numBlocks ⌈/⌉ pageSizeOf granularity))
          (pageSizeOf granularity)) ?_ ⟨0, by simp, by simp⟩) ?_
  · intro _ rest kvCache w₁ hbefore
    rcases hbefore with ⟨layers, hlength, hsizes⟩
    simp only [wp_bind, wp_pure]
    refine wp_mono_ok (allocateLayer_sizes hgranularity _ engine.dtype _) ?_
    intro tensor w₂ hlayer
    refine ⟨layers + 1, ?_, ?_⟩
    · rw [List.length_cons] at hlength
      omega
    · rw [hlayer, hsizes, List.append_assoc, List.replicate_append_replicate, Nat.succ_mul]
      rfl
  · intro kvCache w' hall
    rcases hall with ⟨layers, hlength, hsizes⟩
    rw [List.length_nil, Nat.add_zero] at hlength
    rw [hsizes, hlength]

/-- The CPU cache takes nothing from the driver. -/
theorem allocateKvCache_cpu (edmmEnabled isPinMemoryAvailable : Bool) (engine : CacheEngine)
    (numBlocks : Nat) :
    wp (engine.allocateKvCache cuda edmmEnabled isPinMemoryAvailable numBlocks .cpu)
      (fun _ w' => w' = w) (fun _ _ => False) w := by
  unfold CacheEngine.allocateKvCache
  refine wp_foldlM (I := fun _ w' => w' = w) (fun _ _ kvCache w₁ hsame => ?_) rfl
  cases edmmEnabled <;> exact hsame

/-! ## 3. Budget and physical memory -/

/-- Both raise for the same names. -/
theorem getCacheBlockSize_error {library : CacheLibrary} {cacheConfig : CacheConfig}
    {modelConfig : ModelConfig} (parallelConfig : ParallelConfig) {e : KvCacheError}
    (hdtype : cacheTorchDtype library cacheConfig modelConfig = .error e) :
    getCacheBlockSize library cacheConfig modelConfig parallelConfig = .error e := by
  unfold getCacheBlockSize
  rw [hdtype]
  rfl

/-- The budget of the blocks is the bytes of the layers. -/
theorem getCacheBlockSize_ok {library : CacheLibrary} {cacheConfig : CacheConfig}
    {modelConfig : ModelConfig} (parallelConfig : ParallelConfig) {dtype : DType}
    (hdtype : cacheTorchDtype library cacheConfig modelConfig = .ok dtype) {numBlocks : Nat}
    (hshape : ((CacheEngine.ofConfig library cacheConfig modelConfig parallelConfig
        dtype).kvCacheShape numBlocks).prod =
      2 * numBlocks * cacheConfig.blockSize * modelConfig.getNumKvHeads parallelConfig *
        modelConfig.headSize) :
    ∃ cacheBlockSize,
      getCacheBlockSize library cacheConfig modelConfig parallelConfig = .ok cacheBlockSize ∧
      numBlocks * cacheBlockSize = modelConfig.getNumAttentionLayers parallelConfig *
        (CacheEngine.ofConfig library cacheConfig modelConfig parallelConfig dtype).layerBytes
          numBlocks := by
  unfold getCacheBlockSize CacheEngine.layerBytes
  rw [hdtype, hshape]
  refine ⟨_, rfl, ?_⟩
  change _ = _ * (_ * dtype.itemsize)
  ring

/-- The pages of `layers` layers together. -/
theorem sum_pages (layers layerBytes pageSize : Nat) :
    (List.replicate (layers * (layerBytes ⌈/⌉ pageSize)) pageSize).sum =
      layers * alignedSizeOf layerBytes pageSize := by
  rw [List.sum_replicate, smul_eq_mul, alignedSizeOf_eq_ceilDiv]
  ring

/-- `layers` allocations of whole pages, against the bytes asked for. -/
theorem pages_bounds {layers : Nat} (hlayers : 0 < layers) (layerBytes : Nat) {pageSize : Nat}
    (hpage : 0 < pageSize) :
    layers * layerBytes ≤ layers * alignedSizeOf layerBytes pageSize ∧
      layers * alignedSizeOf layerBytes pageSize < layers * layerBytes + layers * pageSize ∧
      (layers * alignedSizeOf layerBytes pageSize = layers * layerBytes ↔ pageSize ∣ layerBytes) := by
  refine ⟨?_, ?_, ?_⟩
  · exact Nat.mul_le_mul_left _ (alignedSizeOf_isLeast layerBytes hpage).1.2
  · rw [← Nat.mul_add]
    exact Nat.mul_lt_mul_of_pos_left (alignedSizeOf_lt layerBytes hpage) hlayers
  · rw [Nat.mul_right_inj (by omega), alignedSizeOf_eq_self_iff layerBytes hpage]

/-- **Physical memory against the block budget.**  For every driver with one
    granularity, every backend shape of the assumed size and every configuration with
    a layer: creating the engine raises only if a driver call fails or the budget
    itself raises, and otherwise the bytes it creates are at least the budget of its
    GPU blocks, exceed it by less than a page for each layer, and equal it exactly if
    the bytes of a layer are whole pages. -/
theorem init_physicalBytes (cuda : Cuda) (device : Device) (granularity : Nat)
    (hgranularity : ∀ s, cuda.granularity s (device.index.getD 0) = granularity)
    (library : CacheLibrary)
    (hshape : ∀ headSize' dtype cacheDtype blockSize' isAttentionFree numBlocks blockSize
      numKvHeads headSize, (library.getKvCacheShape headSize' dtype cacheDtype blockSize'
        isAttentionFree numBlocks blockSize numKvHeads headSize).prod =
      2 * numBlocks * blockSize * numKvHeads * headSize)
    (isPinMemoryAvailable : Bool) (cacheConfig : CacheConfig) (modelConfig : ModelConfig)
    (parallelConfig : ParallelConfig)
    (hlayers : 0 < modelConfig.getNumAttentionLayers parallelConfig) (w : AllocatorState) :
    wp (CacheEngine.init cuda true isPinMemoryAvailable library cacheConfig modelConfig
        parallelConfig (.cuda device))
      (fun engine w' => ∃ cacheBlockSize created,
        getCacheBlockSize library cacheConfig modelConfig parallelConfig = .ok cacheBlockSize ∧
        w'.driver.createdSizes = w.driver.createdSizes ++ created ∧
        engine.numGpuBlocks * cacheBlockSize ≤ created.sum ∧
        created.sum < engine.numGpuBlocks * cacheBlockSize +
          engine.numAttentionLayers * pageSizeOf granularity ∧
        (created.sum = engine.numGpuBlocks * cacheBlockSize ↔
          pageSizeOf granularity ∣ engine.layerBytes engine.numGpuBlocks))
      (fun e _ => ¬ cuda.Succeeds ∨
        getCacheBlockSize library cacheConfig modelConfig parallelConfig = .error e) w := by
  unfold CacheEngine.init
  cases hdtype : cacheTorchDtype library cacheConfig modelConfig with
  | error e => exact Or.inr (getCacheBlockSize_error parallelConfig hdtype)
  | ok dtype =>
    simp only [wp_bind, wp_ofExcept_ok]
    refine wp_mono (allocateKvCache_sizes hgranularity _ _ _) ?_ (fun _ _ h => Or.inl h)
    intro gpuCache w₁ hgpu
    refine wp_mono_of_returns (allocateKvCache_cpu true _ _ _) ?_
    rintro cpuCache w₂ rfl
    obtain ⟨cacheBlockSize, hbudget, hbytes⟩ :=
      getCacheBlockSize_ok parallelConfig hdtype (hshape _ _ _ _ _ _ _ _ _)
    rw [wp_pure]
    refine ⟨cacheBlockSize, _, hbudget, hgpu, ?_⟩
    rw [sum_pages, hbytes]
    exact pages_bounds hlayers _ (pageSizeOf_pos granularity)

/-- Four blocks of 2048 bytes over two layers. -/
theorem init_physicalBytes_two_layers :
    ∃ engine w' created,
      CacheEngine.init .bump true false
          ⟨fun _ => none, fun _ _ _ _ _ numBlocks blockSize numKvHeads headSize =>
            [2, numBlocks, blockSize, numKvHeads, headSize]⟩
          ⟨16, "auto", 4, 0⟩ ⟨.float16, false, 8, fun _ => 2, fun _ => 2⟩ ⟨1⟩ (.cuda ⟨none⟩)
          (.init fun _ _ => 0) = .ok engine w' ∧
        w'.driver.createdSizes = created ∧ engine.numGpuBlocks * 2048 ≤ created.sum := by
  have hbytes := init_physicalBytes .bump ⟨none⟩ (2 * 1024 * 1024) (fun _ => rfl)
    ⟨fun _ => none, fun _ _ _ _ _ numBlocks blockSize numKvHeads headSize =>
      [2, numBlocks, blockSize, numKvHeads, headSize]⟩
    (by intros; simp [List.prod_cons, Nat.mul_assoc]) false ⟨16, "auto", 4, 0⟩
    ⟨.float16, false, 8, fun _ => 2, fun _ => 2⟩ ⟨1⟩ (by decide) (.init fun _ _ => 0)
  obtain ⟨engine, w', hrun, cacheBlockSize, created, hbudget, hcreated, hleast, -⟩ :=
    returns_of_wp (wp_mono hbytes (fun _ _ h => h) (fun e _ h => by
      rcases h with hfails | hraises
      · exact hfails Cuda.bump_succeeds
      · cases hraises))
  cases hbudget
  exact ⟨engine, w', created, hrun, hcreated, hleast⟩

end Edmm
