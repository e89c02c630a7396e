/-
  Edmm/KvCacheIntegrity.lean
  ==========================
  **Which KV cache tensors pass the integrity check.**

  The views that `_reshape_kv_cache` carves out begin where their raw tensor begins,
  except the states of a Mamba layer behind its first, which begin further inside.
  The registry is keyed by base addresses, so the check finds the allocation of the
  former and not that of the latter: it accepts every tensor of a configuration
  exactly if no Mamba layer has a second state (`kvCaches_verified_iff`).
-/
import Edmm.KvCacheTensors

namespace Edmm

open Program

/-! ## 1. Views that begin at the base -/

/-- A view of the raw tensor whose first element is element number `offset`. -/
def TorchTensor.StartsAt (t : TorchTensor) (raw : Tensor) (offset : Nat) : Prop :=
  t.storage = raw ∧ t.layout.offset = offset

theorem torchResult_ok {α : Type} {o : Option α} {a : α} (h : torchResult o = .ok a) :
    o = some a := by
  cases o with
  | none => cases h
  | some a' =>
    cases h
    rfl

theorem viewDtype_ok {raw : Tensor} {dtype : DType} {t : TorchTensor}
    (h : viewDtype raw dtype = .ok t) : t.StartsAt raw 0 := by
  unfold viewDtype at h
  split at h
  · cases h
    exact ⟨rfl, rfl⟩
  · cases h

section

variable {t t' : TorchTensor} {raw : Tensor} {offset : Nat}

theorem TorchTensor.view_ok {shape : List Nat} (ht : t.StartsAt raw offset)
    (h : t.view shape = .ok t') : t'.StartsAt raw offset := by
  obtain ⟨layout, hlayout, hresult⟩ := except_bind_eq_ok.mp h
  cases hresult
  exact ⟨ht.1, (Layout.offset_view (torchResult_ok hlayout)).trans ht.2⟩

theorem TorchTensor.asStrided_ok {size stride : List Nat} {storageOffset : Nat}
    (ht : t.storage = raw) (h : t.asStrided size stride storageOffset = .ok t') :
    t'.StartsAt raw storageOffset := by
  obtain ⟨layout, hlayout, hresult⟩ := except_bind_eq_ok.mp h
  cases hresult
  exact ⟨ht, Layout.offset_asStrided (torchResult_ok hlayout)⟩

theorem TorchTensor.permute_ok {dims : List Nat} (ht : t.StartsAt raw offset)
    (h : t.permute dims = .ok t') : t'.StartsAt raw offset := by
  obtain ⟨layout, hlayout, hresult⟩ := except_bind_eq_ok.mp h
  cases hresult
  exact ⟨ht.1, (Layout.offset_permute (torchResult_ok hlayout)).trans ht.2⟩

end

/-- The view of an attention layer begins at the base, padded pages or not. -/
theorem reshapeAttention_ok {backend : AttentionBackend} {spec : AttentionSpec}
    {kernelBlockSize? : Option Nat} {cacheDtype : String} {raw : Tensor} {numBlocks : Nat}
    {t : TorchTensor}
    (h : reshapeAttention backend spec kernelBlockSize? cacheDtype raw numBlocks = .ok t) :
    t.StartsAt raw 0 := by
  unfold reshapeAttention at h
  simp only [except_bind_eq_ok] at h
  obtain ⟨numBlocks', -, logicalShape, -, strideOrder, -, shape, -, invOrder, -, kvTensor,
    hview, h⟩ := h
  have hstart := viewDtype_ok hview
  cases hpadded : spec.pageSizePadded with
  | some _ =>
    rw [hpadded] at h
    simp only [except_bind_eq_ok] at h
    obtain ⟨first, -, kvCache, hstrided, h⟩ := h
    have hstrided' := TorchTensor.asStrided_ok hstart.1 hstrided
    rw [hstart.2] at hstrided'
    exact TorchTensor.permute_ok hstrided' h
  | none =>
    rw [hpadded] at h
    obtain ⟨kvCache, hkv, h⟩ := except_bind_eq_ok.mp h
    exact TorchTensor.permute_ok (TorchTensor.view_ok hstart hkv) h

/-! ## 2. Views that begin behind one another -/

theorem assertThat_ok {holds : Bool} {condition : String} {a : PUnit}
    (h : assertThat holds condition = .ok a) : holds = true := by
  unfold assertThat at h
  split at h
  · assumption
  · cases h

/-- A state begins where `storage_offset_bytes` says, and the next one behind it. -/
theorem reshapeState_ok {pageSizeBytes numBlocks : Nat} {raw : Tensor}
    {s s' : List TorchTensor × Nat} {state : List Nat × DType}
    (h : reshapeState pageSizeBytes raw numBlocks s state = .ok s') :
    s.2 % state.2.itemsize = 0 ∧ s.2 < s'.2 ∧
      ∃ t, s'.1 = s.1 ++ [t] ∧ t.StartsAt raw (s.2 / state.2.itemsize) := by
  unfold reshapeState at h
  simp only [except_bind_eq_ok] at h
  obtain ⟨_, haligned, kvTensor, hview, t, hstrided, hresult⟩ := h
  cases hresult
  refine ⟨of_decide_eq_true (assertThat_ok haligned), ?_, t, rfl, ?_⟩
  · have hstride := one_le_head_contiguousStrides numBlocks state.1
    exact Nat.lt_add_of_pos_right (Nat.mul_pos hstride state.2.itemsize_pos)
  · exact TorchTensor.asStrided_ok (viewDtype_ok hview).1 hstrided

/-- What the loop over the states has built after `count` turns. -/
structure StatesCarved (raw : Tensor) (count : Nat) (s : List TorchTensor × Nat) : Prop where
  length : s.1.length = count
  offset : s.2 = 0 ↔ count = 0
  starts : ∀ i t, s.1[i]? = some t → t.storage = raw ∧ (t.layout.offset = 0 ↔ i = 0)

theorem StatesCarved.step {raw : Tensor} {count pageSizeBytes numBlocks : Nat}
    {s s' : List TorchTensor × Nat} {state : List Nat × DType} (hs : StatesCarved raw count s)
    (h : reshapeState pageSizeBytes raw numBlocks s state = .ok s') :
    StatesCarved raw (count + 1) s' := by
  obtain ⟨haligned, hgrows, t, happend, hstart⟩ := reshapeState_ok h
  refine ⟨?_, by omega, fun i t' hget => ?_⟩
  · rw [happend, List.length_append, hs.length, List.length_singleton]
  · rw [happend, List.getElem?_append] at hget
    split at hget
    · exact hs.starts i t' hget
    · rename_i hbehind
      obtain ⟨hi, rfl⟩ : i - s.1.length = 0 ∧ t = t' := by
        rw [List.getElem?_singleton] at hget
        split at hget
        · exact ⟨by assumption, Option.some.inj hget⟩
        · cases hget
      -- the offset in elements is zero with the offset in bytes
      have hbytes : s.2 / state.2.itemsize = 0 ↔ s.2 = 0 := by
        constructor
        · intro hzero
          rw [← Nat.div_add_mod s.2 state.2.itemsize, hzero, haligned]
          simp
        · intro hzero
          rw [hzero, Nat.zero_div]
      refine ⟨hstart.1, ?_⟩
      rw [hstart.2, hbytes, hs.offset, ← hs.length]
      omega

/-- The first state begins at the base, and every other one behind it. -/
theorem reshapeMamba_ok {spec : MambaSpec} {raw : Tensor} {numBlocks : Nat}
    {ts : List TorchTensor} (h : reshapeMamba spec raw numBlocks = .ok ts) :
    ts.length = (spec.shapes.zip spec.dtypes).length ∧
      ∀ i t, ts[i]? = some t → t.storage = raw ∧ (t.layout.offset = 0 ↔ i = 0) := by
  obtain ⟨s, hloop, hresult⟩ := except_bind_eq_ok.mp h
  cases hresult
  have hcarved : StatesCarved raw
      ((spec.shapes.zip spec.dtypes).foldl (fun count _ => count + 1) 0) s :=
    foldlM_related _ (fun _ _ _ _ _ hs hstep => StatesCarved.step hs hstep)
      ⟨rfl, by simp, by simp⟩ hloop
  rw [List.foldl_add_const, Nat.zero_add, Nat.one_mul] at hcarved
  exact ⟨hcarved.length, hcarved.starts⟩

/-! ## 3. What each layer gets -/

/-- A KV cache made for a layer with this spec. -/
def CarvedFrom (raw : Tensor) : LayerSpec → KvCache → Prop
  | .attention _, .tensor t => t.StartsAt raw 0
  | .mamba spec, .states ts => ts.length = (spec.shapes.zip spec.dtypes).length ∧
      ∀ i t, ts[i]? = some t → t.storage = raw ∧ (t.layout.offset = 0 ↔ i = 0)
  | _, _ => False

/-- The spec of a layer that gets a view of its own; a later group replaces the spec of
    an earlier one. -/
def layerSpecStep (sharedLayers : Dict String String) (groupSpec : KVCacheSpec)
    (specs : Dict String LayerSpec) (layerName : String) : Dict String LayerSpec :=
  if (sharedLayers.get? layerName).isSome then specs
  else
    match groupSpec.ofLayer layerName with
    | .ok spec => specs.set layerName spec
    | .error _ => specs

def KVCacheConfig.layerSpecs (config : KVCacheConfig) (sharedLayers : Dict String String) :
    Dict String LayerSpec :=
  config.kvCacheGroups.foldl
    (fun specs group => group.layerNames.foldl (layerSpecStep sharedLayers group.kvCacheSpec) specs)
    ∅

/-- The layers with a view are the layers with a spec, and each view fits its spec. -/
def Carved (inputs : ReshapeInputs) (specs : Dict String LayerSpec)
    (kvCaches : Dict String KvCache) : Prop :=
  ∀ layerName, Option.Rel
    (fun spec kvCache => inputs.sharedKvCacheLayers.get? layerName = none ∧
      ∃ raw, inputs.rawTensors.get? layerName = some raw ∧ CarvedFrom raw spec kvCache)
    (specs.get? layerName) (kvCaches.get? layerName)

theorem getItem_ok {α : Type} {items : Dict String α} {key : String} {item : α}
    (h : items.getItem key = .ok item) : items.get? key = some item := by
  unfold Dict.getItem at h
  split at h
  · cases h
    assumption
  · cases h

section

variable {inputs : ReshapeInputs} {specs : Dict String LayerSpec} {kvCaches : Dict String KvCache}

theorem Carved.empty : Carved inputs ∅ ∅ := fun _ => Option.Rel.none

theorem Carved.of_view (h : Carved inputs specs kvCaches) {layerName : String}
    {kvCache : KvCache} (hget : kvCaches.get? layerName = some kvCache) :
    ∃ spec, specs.get? layerName = some spec ∧
      inputs.sharedKvCacheLayers.get? layerName = none ∧
      ∃ raw, inputs.rawTensors.get? layerName = some raw ∧ CarvedFrom raw spec kvCache := by
  have hlayer := h layerName
  rw [hget] at hlayer
  generalize specs.get? layerName = spec? at hlayer ⊢
  cases hlayer with
  | some hview => exact ⟨_, rfl, hview⟩

theorem Carved.of_spec (h : Carved inputs specs kvCaches) {layerName : String}
    {spec : LayerSpec} (hspec : specs.get? layerName = some spec) :
    ∃ kvCache, kvCaches.get? layerName = some kvCache ∧
      ∃ raw, inputs.rawTensors.get? layerName = some raw ∧ CarvedFrom raw spec kvCache := by
  have hlayer := h layerName
  rw [hspec] at hlayer
  generalize kvCaches.get? layerName = kvCache? at hlayer ⊢
  cases hlayer with
  | some hview => exact ⟨_, rfl, hview.2⟩

/-- A layer gets its view. -/
theorem Carved.set (h : Carved inputs specs kvCaches) {layerName : String} {spec : LayerSpec}
    {kvCache : KvCache} {raw : Tensor} (hown : inputs.sharedKvCacheLayers.get? layerName = none)
    (hraw : inputs.rawTensors.get? layerName = some raw) (hcarved : CarvedFrom raw spec kvCache) :
    Carved inputs (specs.set layerName spec) (kvCaches.set layerName kvCache) := by
  intro other
  rw [Dict.get?_set, Dict.get?_set]
  by_cases hother : other = layerName
  · subst hother
    rw [if_pos rfl, if_pos rfl]
    exact Option.Rel.some ⟨hown, raw, hraw, hcarved⟩
  · rw [if_neg hother, if_neg hother]
    exact h other

theorem Carved.replace (h : Carved inputs specs kvCaches) {layerName : String} {spec : LayerSpec}
    {kvCache : KvCache} {raw : Tensor} (hspec : specs.get? layerName = some spec)
    (hown : inputs.sharedKvCacheLayers.get? layerName = none)
    (hraw : inputs.rawTensors.get? layerName = some raw) (hcarved : CarvedFrom raw spec kvCache) :
    Carved inputs specs (kvCaches.set layerName kvCache) := by
  intro other
  rw [Dict.get?_set]
  by_cases hother : other = layerName
  · subst hother
    rw [if_pos rfl, hspec]
    exact Option.Rel.some ⟨hown, raw, hraw, hcarved⟩
  · rw [if_neg hother]
    exact h other

theorem Carved.reshapeLayer (h : Carved inputs specs kvCaches) {groupId : Nat}
    {groupSpec : KVCacheSpec} {s s' : ReshapeState} {layerName : String}
    (hs : s.kvCaches = kvCaches)
    (hlayer : reshapeLayer inputs groupId groupSpec s layerName = .ok s') :
    Carved inputs (layerSpecStep inputs.sharedKvCacheLayers groupSpec specs layerName)
      s'.kvCaches := by
  subst hs
  unfold Edmm.reshapeLayer at hlayer
  unfold layerSpecStep
  by_cases hshared : (inputs.sharedKvCacheLayers.get? layerName).isSome
  · rw [if_pos hshared] at hlayer ⊢
    cases hlayer
    exact h
  · rw [if_neg hshared] at hlayer ⊢
    simp only [except_bind_eq_ok] at hlayer
    obtain ⟨spec, hspec, raw, hraw, rest, -, _, -, hview⟩ := hlayer
    have hown : inputs.sharedKvCacheLayers.get? layerName = none := by
      simpa using hshared
    rw [hspec]
    cases spec with
    | attention spec =>
      simp only [except_bind_eq_ok] at hview
      obtain ⟨backend, -, t, hreshape, hresult⟩ := hview
      cases hresult
      exact h.set hown (getItem_ok hraw) (reshapeAttention_ok hreshape)
    | mamba spec =>
      obtain ⟨ts, hreshape, hresult⟩ := except_bind_eq_ok.mp hview
      cases hresult
      exact h.set hown (getItem_ok hraw) (reshapeMamba_ok hreshape)
    | other typeName pageSizeBytes => cases hview

/-- The hybrid layout changes the strides of a view and not where it begins. -/
theorem Carved.updateLayerLayout (h : Carved inputs specs kvCaches) {groupSpec : KVCacheSpec}
    {kvCaches' : Dict String KvCache} {layerName : String}
    (hupdate : updateLayerLayout groupSpec kvCaches layerName = .ok kvCaches') :
    Carved inputs specs kvCaches' := by
  unfold Edmm.updateLayerLayout at hupdate
  cases hget : kvCaches.get? layerName with
  | none =>
    rw [hget] at hupdate
    cases hupdate
    exact h
  | some kvCache =>
    rw [hget] at hupdate
    obtain ⟨spec, -, hupdate⟩ := except_bind_eq_ok.mp hupdate
    cases spec with
    | mamba _ | other _ _ =>
      cases hupdate
      exact h
    | attention _ =>
      cases kvCache with
      | states _ => cases hupdate
      | tensor t =>
        obtain ⟨dim, -, hupdate⟩ := except_bind_eq_ok.mp hupdate
        split at hupdate
        · obtain ⟨dim', -, hupdate⟩ := except_bind_eq_ok.mp hupdate
          split at hupdate
          · cases hupdate
          · obtain ⟨t', hstrided, hresult⟩ := except_bind_eq_ok.mp hupdate
            cases hresult
            obtain ⟨spec, hspec, hown, raw, hraw, hcarved⟩ := h.of_view hget
            refine h.replace hspec hown hraw ?_
            -- only an attention layer has a single tensor
            cases spec with
            | mamba _ | other _ _ => cases hcarved
            | attention _ =>
              have hstart := TorchTensor.asStrided_ok hcarved.1 hstrided
              rwa [hcarved.2] at hstart
        · cases hupdate
          exact h

/-- `kvCaches` serves all layers of `own`, and every layer from `own`. -/
def Served (own kvCaches : Dict String KvCache) : Prop :=
  (∀ layerName kvCache, own.get? layerName = some kvCache →
    kvCaches.get? layerName = some kvCache) ∧
  ∀ layerName kvCache, kvCaches.get? layerName = some kvCache →
    ∃ owner, own.get? owner = some kvCache

theorem Served.aliasLayer {own kvCaches' : Dict String KvCache} (h : Served own kvCaches)
    {sharing : String × String} (hown : own.get? sharing.1 = none)
    (halias : aliasLayer kvCaches sharing = .ok kvCaches') : Served own kvCaches' := by
  obtain ⟨target, htarget, hresult⟩ := except_bind_eq_ok.mp halias
  cases hresult
  constructor
  · intro layerName kvCache hget
    have hne : layerName ≠ sharing.1 := by
      rintro rfl
      rw [hown] at hget
      cases hget
    rw [Dict.get?_set_of_ne _ _ hne]
    exact h.1 layerName kvCache hget
  · intro layerName kvCache hget
    rw [Dict.get?_set] at hget
    split at hget
    · cases hget
      exact h.2 _ _ (getItem_ok htarget)
    · exact h.2 layerName kvCache hget

end

/-- **Reshaping.**  Every layer with a spec has views that fit it, and the layers that
    share serve the views of others. -/
theorem reshapeKvCache_ok {config : KVCacheConfig} {inputs : ReshapeInputs}
    {kvCaches : Dict String KvCache} (h : reshapeKvCache config inputs = .ok kvCaches) :
    ∃ own, Carved inputs (config.layerSpecs inputs.sharedKvCacheLayers) own ∧
      Served own kvCaches := by
  obtain ⟨s, hloop, h⟩ := except_bind_eq_ok.mp h
  have hspecs : config.layerSpecs inputs.sharedKvCacheLayers =
      config.kvCacheGroups.zipIdx.foldl (fun specs group => group.1.layerNames.foldl
        (layerSpecStep inputs.sharedKvCacheLayers group.1.kvCacheSpec) specs) ∅ := by
    unfold KVCacheConfig.layerSpecs
    conv_lhs => rw [← List.zipIdx_map_fst 0 config.kvCacheGroups, List.foldl_map]
  have hcarved : Carved inputs (config.layerSpecs inputs.sharedKvCacheLayers) s.kvCaches := by
    rw [hspecs]
    refine foldlM_related _ (R := fun specs (s : ReshapeState) => Carved inputs specs s.kvCaches)
      (fun group _ specs s s' hs hgroup => ?_) Carved.empty hloop
    refine foldlM_related _ (R := fun specs (s : ReshapeState) => Carved inputs specs s.kvCaches)
      (fun layerName _ specs s s' hs hlayer => ?_) hs hgroup
    exact hs.reshapeLayer rfl hlayer
  obtain ⟨own, hupdate, halias⟩ : ∃ own,
      Carved inputs (config.layerSpecs inputs.sharedKvCacheLayers) own ∧
      inputs.sharedKvCacheLayers.items.foldlM aliasLayer own = .ok kvCaches := by
    split at h
    · obtain ⟨own, hupdate, halias⟩ := except_bind_eq_ok.mp h
      refine ⟨own, ?_, halias⟩
      refine foldlM_invariant (fun group _ kvCaches kvCaches' hkv hgroup => ?_) hcarved hupdate
      exact foldlM_invariant (fun layerName _ kvCaches kvCaches' hkv hlayer =>
        hkv.updateLayerLayout hlayer) hkv hgroup
    · exact ⟨s.kvCaches, hcarved, h⟩
  refine ⟨own, hupdate, foldlM_invariant (fun sharing hsharing kvCaches kvCaches' hserved hstep =>
    hserved.aliasLayer ?_ hstep) ⟨fun _ _ hget => hget, fun _ _ hget => ⟨_, hget⟩⟩ halias⟩
  -- a layer that shares has no view of its own
  have hshares : inputs.sharedKvCacheLayers.get? sharing.1 = some sharing.2 :=
    Dict.mem_items_iff.mp hsharing
  cases hget : own.get? sharing.1 with
  | none => rfl
  | some kvCache =>
    obtain ⟨_, -, hown, -⟩ := hupdate.of_view hget
    rw [hshares] at hown
    cases hown

/-! ## 4. What an allocation registers -/

/-- Every raw tensor is the tensor of the allocation registered at its base. -/
def RawsRegistered (w : AllocatorState) (raws : Dict String Tensor) : Prop :=
  ∀ layerName raw, raws.get? layerName = some raw →
    ∃ alloc, getVmmAllocation w raw = some alloc ∧ alloc.tensor = some raw

theorem get?_setAll {α : Type} (items : Dict String α) (names : List String) (item : α)
    (key : String) :
    (setAll items names item).get? key = if key ∈ names then some item else items.get? key := by
  unfold setAll
  induction names generalizing items with
  | nil => simp
  | cons name rest ih =>
    rw [List.foldl_cons, ih, Dict.get?_set]
    by_cases hrest : key ∈ rest
    · rw [if_pos hrest, if_pos (List.mem_cons_of_mem name hrest)]
    · by_cases hname : key = name
      · simp [hname]
      · simp [hrest, hname]

theorem RawsRegistered.allocated {cuda : Cuda} (hlawful : cuda.Lawful) {w w' : AllocatorState}
    (hreg : RegistryInv w) {raws : Dict String Tensor} (h : RawsRegistered w raws)
    {size : ℕ+} {deviceId : DeviceId} {alloc : VMMAllocation}
    (hnew : Allocated cuda size deviceId w w' alloc) (layerNames : List String) :
    RawsRegistered w' (setAll raws layerNames ⟨alloc.vaPtr, size, deviceId⟩) := by
  intro layerName raw hget
  rw [get?_setAll] at hget
  split at hget
  · cases hget
    refine ⟨alloc, ?_, hnew.tensor⟩
    unfold getVmmAllocation
    rw [hnew.registered, Dict.get?_set_self]
  · obtain ⟨other, hother, htensor⟩ := h layerName raw hget
    exact ⟨other, hreg.kept hlawful size.2 hnew hother, htensor⟩

theorem allocateKvCache_spec {cuda : Cuda} (hlawful : cuda.Lawful) {w : AllocatorState}
    (hreg : RegistryInv w) (torchZeros : Nat → Device → Tensor) (config : KVCacheConfig)
    (sharedLayers : Dict String String) (device : Device) :
    wp (allocateKvCache cuda true torchZeros config sharedLayers device)
      (fun raws w' => RegistryInv w' ∧ RawsRegistered w' raws) (fun _ _ => True) w := by
  unfold allocateKvCache
  rw [wp_bind]
  refine wp_mono (wp_foldlM (I := fun raws w => RegistryInv w ∧ RawsRegistered w raws)
    (E := fun _ _ => True) (fun entry _ raws w h => ?_) ⟨hreg, ?_⟩) ?_ (fun _ _ _ => trivial)
  · unfold allocateKvCacheTensor
    rw [if_pos rfl, wp_bind]
    refine wp_mono (allocateVmmKvCache_spec entry.size device) ?_ (fun _ _ _ => trivial)
    rintro t w' ⟨alloc, hnew, rfl⟩
    exact ⟨h.1.allocated hlawful entry.size.2 hnew, h.2.allocated hlawful h.1 hnew entry.sharedBy⟩
  · intro layerName raw hget
    cases hget
  · intro raws w' h
    simp only [wp_ite, wp_pure, wp_throw]
    exact ⟨fun _ => h, fun _ => trivial⟩

/-! ## 5. Which tensors the check accepts -/

/-- The lookup finds the allocation behind the tensor, and the check accepts it. -/
structure Verified (w : AllocatorState) (t : TorchTensor) : Prop where
  backing : ∃ alloc, getVmmAllocation w t.storage = some alloc ∧ alloc.tensor = some t.storage ∧
    getVmmAllocation w t.pointer = some alloc
  accepted : ∀ layerId expectedShape dtype,
    verifyEdmmTensorIntegrity w layerId t expectedShape dtype = .ok true

/-- A view of a registered tensor is accepted exactly if it begins at the base. -/
theorem verified_iff {w : AllocatorState} (hreg : RegistryInv w) {t : TorchTensor}
    (hraw : ∃ alloc, getVmmAllocation w t.storage = some alloc ∧ alloc.tensor = some t.storage) :
    Verified w t ↔ t.layout.offset = 0 := by
  obtain ⟨alloc, hget, htensor⟩ := hraw
  have hkeyed : alloc.vaPtr = t.storage.dataPtr := (hreg.entries _ alloc hget).keyed
  constructor
  · intro h
    obtain ⟨alloc', hget', -, hpointer⟩ := h.backing
    obtain rfl : alloc = alloc' := Option.some.inj (hget.symm.trans hget')
    have hkeyed' : alloc.vaPtr = t.dataPtr := (hreg.entries _ alloc hpointer).keyed
    rw [hkeyed, TorchTensor.dataPtr, Nat.left_eq_add, Nat.mul_eq_zero] at hkeyed'
    exact hkeyed'.resolve_right (Nat.ne_of_gt t.dtype.itemsize_pos)
  · intro h
    have hpointer : getVmmAllocation w t.pointer = some alloc := by
      unfold getVmmAllocation at hget ⊢
      rw [← hget]
      exact congrArg w.allocations.get? (TorchTensor.dataPtr_of_offset h)
    refine ⟨⟨alloc, hget, htensor, hpointer⟩, fun layerId expectedShape dtype => ?_⟩
    rw [verifyEdmmTensorIntegrity_eq hreg, hpointer]
    rfl

/-- The number of state tensors of a layer. -/
def LayerSpec.numStates : LayerSpec → Nat
  | .mamba spec => (spec.shapes.zip spec.dtypes).length
  | .attention _ | .other _ _ => 0

/-- No layer has a second state tensor. -/
def KVCacheConfig.SingleStates (config : KVCacheConfig) (sharedLayers : Dict String String) :
    Prop :=
  ∀ spec ∈ (config.layerSpecs sharedLayers).values, spec.numStates ≤ 1

instance (config : KVCacheConfig) (sharedLayers : Dict String String) :
    Decidable (config.SingleStates sharedLayers) :=
  inferInstanceAs (Decidable (∀ spec ∈ (config.layerSpecs sharedLayers).values,
    spec.numStates ≤ 1))

/-- Views that fit a spec are accepted exactly if there is no second state among them. -/
theorem CarvedFrom.verified_iff {w : AllocatorState} (hreg : RegistryInv w) {raw : Tensor}
    (hraw : ∃ alloc, getVmmAllocation w raw = some alloc ∧ alloc.tensor = some raw)
    {spec : LayerSpec} {kvCache : KvCache} (h : CarvedFrom raw spec kvCache) :
    (∀ t ∈ kvCache.tensors, Verified w t) ↔ spec.numStates ≤ 1 := by
  cases spec with
  | attention spec =>
    cases kvCache with
    | states _ => cases h
    | tensor t =>
      obtain ⟨rfl, hoffset⟩ := h
      constructor
      · exact fun _ => Nat.zero_le 1
      · intro _ t' ht'
        obtain rfl := List.mem_singleton.mp ht'
        exact (Edmm.verified_iff hreg hraw).mpr hoffset
  | mamba spec =>
    cases kvCache with
    | tensor _ => cases h
    | states ts =>
      obtain ⟨hlength, hstates⟩ := h
      constructor
      · intro hverified
        rw [LayerSpec.numStates, ← hlength]
        by_contra hsecond
        have hget : ts[1]? = some ts[1] := List.getElem?_eq_getElem (by omega)
        obtain ⟨rfl, hoffset⟩ := hstates 1 _ hget
        have hbase := (Edmm.verified_iff hreg hraw).mp
          (hverified ts[1] (List.mem_of_getElem? hget))
        exact absurd (hoffset.mp hbase) Nat.one_ne_zero
      · intro hsingle t ht
        obtain ⟨i, hget⟩ := List.mem_iff_getElem?.mp ht
        obtain ⟨rfl, hoffset⟩ := hstates i t hget
        have hi : i < ts.length := (List.getElem?_eq_some_iff.mp hget).1
        rw [LayerSpec.numStates, ← hlength] at hsingle
        exact (Edmm.verified_iff hreg hraw).mpr (hoffset.mpr (by omega))
  | other typeName pageSizeBytes => cases kvCache <;> cases h

/-- **Which configurations pass the check.**  In every reachable state and for every
    configuration that is allocated and reshaped without an exception: the check
    accepts every tensor of the KV caches exactly if no Mamba layer has a second
    state. -/
theorem kvCaches_verified_iff (cuda : Cuda) (hlawful : cuda.Lawful)
    (memory : Handle → Nat → UInt8) (ops : List AllocatorOp)
    (torchZeros : Nat → Device → Tensor) (config : KVCacheConfig) (device : Device)
    (inputs : ReshapeInputs) (w : AllocatorState)
    (halloc : allocateKvCache cuda true torchZeros config inputs.sharedKvCacheLayers device
      (runAllocator cuda memory ops) = .ok inputs.rawTensors w)
    (kvCaches : Dict String KvCache) (hreshape : reshapeKvCache config inputs = .ok kvCaches) :
    (∀ layerName kvCache, kvCaches.get? layerName = some kvCache →
      ∀ t ∈ kvCache.tensors, Verified w t) ↔ config.SingleStates inputs.sharedKvCacheLayers := by
  obtain ⟨hreg, hraws⟩ := wp_ok (allocateKvCache_spec hlawful
    (registryInv_runAllocator hlawful memory ops) torchZeros config _ device) halloc
  obtain ⟨own, hcarved, hserves, hserved⟩ := reshapeKvCache_ok hreshape
  constructor
  · intro hverified spec hspec
    obtain ⟨layerName, hspec⟩ := Dict.mem_values_iff.mp hspec
    obtain ⟨kvCache, hget, raw, hraw, hview⟩ := hcarved.of_spec hspec
    exact (hview.verified_iff hreg (hraws layerName raw hraw)).mp
      (hverified layerName kvCache (hserves layerName kvCache hget))
  · intro hsingle layerName kvCache hget
    obtain ⟨owner, howner⟩ := hserved layerName kvCache hget
    obtain ⟨spec, hspec, -, raw, hraw, hview⟩ := hcarved.of_view howner
    exact (hview.verified_iff hreg (hraws owner raw hraw)).mpr
      (hsingle spec (Dict.mem_values_iff.mpr ⟨owner, hspec⟩))

/-- An attention layer with a layer that shares its view, and a Mamba layer over the
    same raw tensor. -/
def hybridConfig (mamba : MambaSpec) : KVCacheConfig where
  kvCacheTensors := [⟨⟨4096, by decide⟩, ["attn.0", "mamba.0"]⟩]
  kvCacheGroups :=
    [⟨["attn.0", "attn.1"], .single (.attention
        { pageSizeBytes := 1024, blockSize := 16, storageBlockSize := 16, numKvHeads := 2,
          headSize := 8, dtype := .float16, pageSizePadded := none })⟩,
      ⟨["mamba.0"], .single (.mamba mamba)⟩]

/-- The inputs that go with it; keys and values lie in the first dimension. -/
def hybridInputs : ReshapeInputs where
  rawTensors := ⟨[("attn.0", ⟨0, 4096, 0⟩), ("mamba.0", ⟨0, 4096, 0⟩)], by decide⟩
  attnBackends := ⟨[("attn.0",
    { getKvCacheShape := fun numBlocks blockSize numKvHeads headSize _ =>
        pure [2, numBlocks, blockSize, numKvHeads, headSize]
      getKvCacheStrideOrder := none })], by decide⟩
  cacheDtype := "auto"
  kernelBlockSizes := [16, 16]
  sharedKvCacheLayers := ⟨[("attn.1", "attn.0")], by decide⟩

/-- The state after the configuration was allocated. -/
def hybridState (mamba : MambaSpec) : AllocatorState :=
  finalState (allocateKvCache .bump true (fun size _ => ⟨0, size, 0⟩) (hybridConfig mamba)
    hybridInputs.sharedKvCacheLayers ⟨none⟩ (.init fun _ _ => 0))

theorem hybridState_allocated (mamba : MambaSpec)
    (h : returned (allocateKvCache .bump true (fun size _ => ⟨0, size, 0⟩) (hybridConfig mamba)
      hybridInputs.sharedKvCacheLayers ⟨none⟩ (.init fun _ _ => 0)) =
        some hybridInputs.rawTensors) :
    allocateKvCache .bump true (fun size _ => ⟨0, size, 0⟩) (hybridConfig mamba)
      hybridInputs.sharedKvCacheLayers ⟨none⟩ (runAllocator .bump (fun _ _ => 0) []) =
        .ok hybridInputs.rawTensors (hybridState mamba) := by
  obtain ⟨w, hw⟩ := returned_eq_some.mp h
  unfold hybridState
  rw [hw]
  exact hw

theorem hybrid_reshaped (mamba : MambaSpec)
    (h : (reshapeKvCache (hybridConfig mamba) hybridInputs).toBool = true) :
    ∃ kvCaches, reshapeKvCache (hybridConfig mamba) hybridInputs = .ok kvCaches := by
  cases hreshape : reshapeKvCache (hybridConfig mamba) hybridInputs with
  | ok kvCaches => exact ⟨kvCaches, rfl⟩
  | error e =>
    rw [hreshape] at h
    cases h

theorem kvCaches_verified_one_state :
    ∃ kvCaches, reshapeKvCache (hybridConfig ⟨1024, [[4, 8]], [.float32]⟩) hybridInputs =
        .ok kvCaches ∧
      ∀ layerName kvCache, kvCaches.get? layerName = some kvCache →
        ∀ t ∈ kvCache.tensors, Verified (hybridState ⟨1024, [[4, 8]], [.float32]⟩) t := by
  obtain ⟨kvCaches, hreshape⟩ :=
    hybrid_reshaped ⟨1024, [[4, 8]], [.float32]⟩ (by decide +kernel)
  refine ⟨kvCaches, hreshape, ?_⟩
  exact (kvCaches_verified_iff .bump Cuda.bump_lawful (fun _ _ => 0) [] _ _ _ _ _
    (hybridState_allocated _ (by decide +kernel)) kvCaches hreshape).mpr (by decide +kernel)

/-- **A second state is not found.**  It begins 128 bytes behind the base. -/
theorem kvCaches_second_state_unverified :
    ¬ ∀ (cuda : Cuda), cuda.Lawful → ∀ (memory : Handle → Nat → UInt8) (ops : List AllocatorOp)
      (torchZeros : Nat → Device → Tensor) (config : KVCacheConfig) (device : Device)
      (inputs : ReshapeInputs) (w : AllocatorState),
      allocateKvCache cuda true torchZeros config inputs.sharedKvCacheLayers device
        (runAllocator cuda memory ops) = .ok inputs.rawTensors w →
      ∀ kvCaches, reshapeKvCache config inputs = .ok kvCaches →
        ∀ layerName kvCache, kvCaches.get? layerName = some kvCache →
          ∀ t ∈ kvCache.tensors, Verified w t := by
  intro hclaim
  let mamba : MambaSpec := ⟨1024, [[4, 8], [8]], [.float32, .float32]⟩
  have hallocated := hybridState_allocated mamba (by decide +kernel)
  obtain ⟨kvCaches, hreshape⟩ := hybrid_reshaped mamba (by decide +kernel)
  have hverified := hclaim .bump Cuda.bump_lawful _ [] _ _ _ _ _ hallocated kvCaches hreshape
  have hsecond : ((reshapeKvCache (hybridConfig mamba) hybridInputs).toOption.bind
      fun kvCaches => kvCaches.get? "mamba.0").bind (fun kvCache => kvCache.tensors[1]?) =
      some ⟨⟨0, 4096, 0⟩, .float32, ⟨[4, 8], [256, 1], 32⟩⟩ := by
    decide +kernel
  rw [hreshape] at hsecond
  obtain ⟨kvCache, hget, hsecond⟩ := Option.bind_eq_some_iff.mp hsecond
  have h := hverified "mamba.0" kvCache hget _ (List.mem_of_getElem? hsecond)
  have hreg := (wp_ok (allocateKvCache_spec Cuda.bump_lawful
    (registryInv_runAllocator Cuda.bump_lawful _ []) _ _ _ _) hallocated).1
  have hfails : (getVmmAllocation (hybridState mamba)
      (TorchTensor.pointer ⟨⟨0, 4096, 0⟩, .float32, ⟨[4, 8], [256, 1], 32⟩⟩)).isSome = false := by
    decide +kernel
  have haccepted := h.accepted "mamba.0" [] .float32
  rw [verifyEdmmTensorIntegrity_eq hreg, hfails] at haccepted
  cases haccepted

end Edmm
