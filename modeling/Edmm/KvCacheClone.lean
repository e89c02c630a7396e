/-
  Edmm/KvCacheClone.lean
  ======================
  **Cloning a KV cache** (`clone_kv_cache`).

  A KV cache is a nesting of tuples, lists, `None`, tensors and `DynamicCache` objects,
  and the tensors are references into the heap.  A clone has the same nesting, equal
  contents and references of its own, so the benchmark can run on it without changing
  the cache it came from (`cloneKvCache_independent`).

  Keys and values that are `None` are handed on to the constructor of `DynamicCache`.
  It cannot concatenate `None`, so a cache that is not filled is not cloned: the call
  raises what the constructor raised (`cloneKvCache_not_filled`).
-/
import Edmm.Lib.Heap
import Edmm.Lib.Program

namespace Edmm

open Program

/-! ## 1. KV caches -/

/-- A layer of a `DynamicCache`, or the pair it is built from. -/
structure Layer (τ : Type) where
  keys : Option τ
  values : Option τ
deriving DecidableEq, Repr

inductive PastKeyValues (ω τ : Type) where
  | none
  | dynamicCache (layers : List (Layer τ))
  | tuple (items : List (PastKeyValues ω τ))
  | list (items : List (PastKeyValues ω τ))
  | tensor (tensor : τ)
  -- whatever is none of the kinds above
  | object (object : ω)

inductive CloneError where
  | typeError (message : String)
  | attributeError (message : String)
deriving DecidableEq, Repr

variable {ω τ α : Type}

/-- What is there without its tensors: their places only. -/
def Layer.nesting (layer : Layer τ) : Layer Unit where
  keys := layer.keys.map fun _ => ()
  values := layer.values.map fun _ => ()

def Layer.tensors (layer : Layer τ) : List τ := layer.keys.toList ++ layer.values.toList

/-- The layer has its keys and its values. -/
def Layer.Filled (layer : Layer τ) : Prop := layer.keys ≠ none ∧ layer.values ≠ none

instance (layer : Layer τ) : Decidable layer.Filled :=
  inferInstanceAs (Decidable (layer.keys ≠ none ∧ layer.values ≠ none))

theorem Layer.filled_nesting (layer : Layer τ) : layer.nesting.Filled ↔ layer.Filled := by
  simp [Layer.Filled, Layer.nesting]

def LayersFilled (layers : List (Layer τ)) : Prop := ∀ layer ∈ layers, layer.Filled

instance (layers : List (Layer τ)) : Decidable (LayersFilled layers) :=
  inferInstanceAs (Decidable (∀ layer ∈ layers, layer.Filled))

/-- Being filled is a matter of the nesting. -/
theorem layersFilled_congr {τ' : Type} {layers : List (Layer τ)} {layers' : List (Layer τ')}
    (hnesting : layers.map Layer.nesting = layers'.map Layer.nesting) :
    LayersFilled layers ↔ LayersFilled layers' := by
  have hnested : ∀ {σ : Type} (layers : List (Layer σ)),
      LayersFilled layers ↔ LayersFilled (layers.map Layer.nesting) := by
    intro σ layers
    simp [LayersFilled, Layer.filled_nesting]
  rw [hnested layers, hnesting, ← hnested layers']

namespace PastKeyValues

mutual

/-- The value without its tensors: their places only. -/
def nesting : PastKeyValues ω τ → PastKeyValues ω Unit
  | .none => .none
  | .dynamicCache layers => .dynamicCache (layers.map Layer.nesting)
  | .tuple items => .tuple (nestings items)
  | .list items => .list (nestings items)
  | .tensor _ => .tensor ()
  | .object leaf => .object leaf

def nestings : List (PastKeyValues ω τ) → List (PastKeyValues ω Unit)
  | [] => []
  | item :: items => item.nesting :: nestings items

end

mutual

/-- The tensors of a value, from left to right. -/
def tensors : PastKeyValues ω τ → List τ
  | .none => []
  | .dynamicCache layers => layers.flatMap Layer.tensors
  | .tuple items => tensorsOfItems items
  | .list items => tensorsOfItems items
  | .tensor leaf => [leaf]
  | .object _ => []

def tensorsOfItems : List (PastKeyValues ω τ) → List τ
  | [] => []
  | item :: items => item.tensors ++ tensorsOfItems items

end

mutual

/-- The leaves of other kinds, from left to right. -/
def objects : PastKeyValues ω τ → List ω
  | .none => []
  | .dynamicCache _ => []
  | .tuple items => objectsOfItems items
  | .list items => objectsOfItems items
  | .tensor _ => []
  | .object leaf => [leaf]

def objectsOfItems : List (PastKeyValues ω τ) → List ω
  | [] => []
  | item :: items => item.objects ++ objectsOfItems items

end

mutual

/-- The layers of each `DynamicCache` of a value, from left to right. -/
def caches : PastKeyValues ω τ → List (List (Layer τ))
  | .none => []
  | .dynamicCache layers => [layers]
  | .tuple items => cachesOfItems items
  | .list items => cachesOfItems items
  | .tensor _ => []
  | .object _ => []

def cachesOfItems : List (PastKeyValues ω τ) → List (List (Layer τ))
  | [] => []
  | item :: items => item.caches ++ cachesOfItems items

end

/-- Every layer of every `DynamicCache` has its keys and its values. -/
def Filled (value : PastKeyValues ω τ) : Prop := ∀ layers ∈ value.caches, LayersFilled layers

instance (value : PastKeyValues ω τ) : Decidable value.Filled :=
  inferInstanceAs (Decidable (∀ layers ∈ value.caches, LayersFilled layers))

theorem nestings_eq (items : List (PastKeyValues ω τ)) : nestings items = items.map nesting := by
  induction items with
  | nil => rfl
  | cons item items ih => simp [nestings, ih]

theorem tensorsOfItems_eq (items : List (PastKeyValues ω τ)) :
    tensorsOfItems items = items.flatMap tensors := by
  induction items with
  | nil => rfl
  | cons item items ih => simp [tensorsOfItems, ih]

theorem objectsOfItems_eq (items : List (PastKeyValues ω τ)) :
    objectsOfItems items = items.flatMap objects := by
  induction items with
  | nil => rfl
  | cons item items ih => simp [objectsOfItems, ih]

theorem cachesOfItems_eq (items : List (PastKeyValues ω τ)) :
    cachesOfItems items = items.flatMap caches := by
  induction items with
  | nil => rfl
  | cons item items ih => simp [cachesOfItems, ih]

@[simp] theorem nesting_tuple (items : List (PastKeyValues ω τ)) :
    (tuple items).nesting = tuple (items.map nesting) := by rw [nesting, nestings_eq]

@[simp] theorem nesting_list (items : List (PastKeyValues ω τ)) :
    (list items).nesting = list (items.map nesting) := by rw [nesting, nestings_eq]

@[simp] theorem tensors_tuple (items : List (PastKeyValues ω τ)) :
    (tuple items).tensors = items.flatMap tensors := by rw [tensors, tensorsOfItems_eq]

@[simp] theorem tensors_list (items : List (PastKeyValues ω τ)) :
    (list items).tensors = items.flatMap tensors := by rw [tensors, tensorsOfItems_eq]

@[simp] theorem objects_tuple (items : List (PastKeyValues ω τ)) :
    (tuple items).objects = items.flatMap objects := by rw [objects, objectsOfItems_eq]

@[simp] theorem objects_list (items : List (PastKeyValues ω τ)) :
    (list items).objects = items.flatMap objects := by rw [objects, objectsOfItems_eq]

@[simp] theorem caches_tuple (items : List (PastKeyValues ω τ)) :
    (tuple items).caches = items.flatMap caches := by rw [caches, cachesOfItems_eq]

@[simp] theorem caches_list (items : List (PastKeyValues ω τ)) :
    (list items).caches = items.flatMap caches := by rw [caches, cachesOfItems_eq]

/-- Induction with every item of a tuple or a list as a hypothesis. -/
@[elab_as_elim]
theorem nested_induction {P : PastKeyValues ω τ → Prop} (none : P .none)
    (dynamicCache : ∀ layers, P (.dynamicCache layers))
    (tuple : ∀ items, (∀ item ∈ items, P item) → P (.tuple items))
    (list : ∀ items, (∀ item ∈ items, P item) → P (.list items))
    (tensor : ∀ tensor, P (.tensor tensor)) (object : ∀ object, P (.object object))
    (value : PastKeyValues ω τ) : P value := by
  refine @PastKeyValues.rec ω τ P (fun items => ∀ item ∈ items, P item) none dynamicCache tuple list
    tensor object ?_ ?_ value
  · simp
  · intro item items hitem hitems
    rw [List.forall_mem_cons]
    exact ⟨hitem, hitems⟩

end PastKeyValues

/-! ## 2. The function -/

/-- What `clone_kv_cache` calls: the constructor of `DynamicCache`, the `clone` method of
    an object that has one, and `repr` of its type. -/
structure CloneCalls (ω α : Type) where
  dynamicCache : List (Layer Nat) → EStateM CloneError (Heap α) (List (Layer Nat))
  cloneMethod : ω → Option (EStateM CloneError (Heap α) (PastKeyValues ω Nat))
  typeRepr : ω → String

/-- `tensor.clone()` -/
def cloneTensor (tensor : Nat) : EStateM CloneError (Heap α) Nat := do
  let h ← get
  modify fun h => h.push (h.contents tensor)
  return h.next

def cloneUnlessNone : Option Nat → EStateM CloneError (Heap α) (Option Nat)
  | none => return none
  | some tensor => do
    let copy ← cloneTensor tensor
    return some copy

def cloneLayer (layer : Layer Nat) : EStateM CloneError (Heap α) (Layer Nat) := do
  let keys ← cloneUnlessNone layer.keys
  let values ← cloneUnlessNone layer.values
  return { keys, values }

section Clone

variable (calls : CloneCalls ω α)

def unsupportedMessage (object : ω) : String :=
  "Unsupported KV cache type: " ++ calls.typeRepr object

mutual

def cloneKvCache : PastKeyValues ω Nat → EStateM CloneError (Heap α) (PastKeyValues ω Nat)
  | .none => return .none
  | .dynamicCache layers => do
    let clonedLayers ← layers.mapM cloneLayer
    let made ← calls.dynamicCache clonedLayers
    return .dynamicCache made
  | .tuple items => do
    let copies ← cloneItems items
    return .tuple copies
  | .list items => do
    let copies ← cloneItems items
    return .list copies
  | .tensor tensor => do
    let copy ← cloneTensor tensor
    return .tensor copy
  | .object object =>
    match calls.cloneMethod object with
    | some clone => clone
    | none => throw (.typeError (unsupportedMessage calls object))

def cloneItems : List (PastKeyValues ω Nat) → EStateM CloneError (Heap α) (List (PastKeyValues ω Nat))
  | [] => return []
  | item :: items => do
    let copy ← cloneKvCache item
    let copies ← cloneItems items
    return copy :: copies

end

theorem cloneItems_eq (items : List (PastKeyValues ω Nat)) :
    cloneItems calls items = items.mapM (cloneKvCache calls) := by
  induction items with
  | nil => rfl
  | cons item items ih => rw [cloneItems, List.mapM_cons, ih]

end Clone

/-! ## 3. What a clone is -/

/-- `copy` has the nesting of `value`, and new tensors with the contents of its tensors. -/
structure Cloned (h : Heap α) (value copy : PastKeyValues ω Nat) (h' : Heap α) : Prop where
  nesting : copy.nesting = value.nesting
  tensors : Heap.Copied h h' value.tensors copy.tensors

/-- The constructor of `DynamicCache`, as far as `clone_kv_cache` relies on it. -/
structure BuildsLayers (calls : CloneCalls ω α) : Prop where
  /-- Pairs of tensors fill a new cache, one layer for each pair.  Their tensors are kept
      or copied, and none that exist are changed. -/
  filled : ∀ (data : List (Layer Nat)) (h : Heap α), LayersFilled data →
    (∀ r ∈ data.flatMap Layer.tensors, r < h.next) →
    wp (calls.dynamicCache data)
      (fun layers h' => h.Extends h' ∧ layers.map Layer.nesting = data.map Layer.nesting ∧
        (layers.flatMap Layer.tensors).map h'.contents =
          (data.flatMap Layer.tensors).map h.contents ∧
        ∀ r ∈ layers.flatMap Layer.tensors,
          r ∈ data.flatMap Layer.tensors ∨ h.next ≤ r ∧ r < h'.next)
      (fun _ _ => False) h
  /-- With `None` in a pair it may raise, and changes no tensor that exists either. -/
  keeps : ∀ (data : List (Layer Nat)) (h : Heap α),
    (∀ r ∈ data.flatMap Layer.tensors, r < h.next) →
    wp (calls.dynamicCache data) (fun _ h' => h.Extends h') (fun _ h' => h.Extends h') h

/-- The constructor raises on a pair with `None`. -/
def RejectsNone (calls : CloneCalls ω α) : Prop :=
  ∀ (data : List (Layer Nat)) (h : Heap α) (layers : List (Layer Nat)) (h' : Heap α),
    calls.dynamicCache data h = .ok layers h' → LayersFilled data

/-- The `clone` method of an object, where it has one, returns and changes no tensor that
    exists. -/
def ClonesReturn (calls : CloneCalls ω α) (object : ω) : Prop :=
  ∀ clone, calls.cloneMethod object = some clone → ∀ h : Heap α,
    wp clone (fun _ h' => h.Extends h') (fun _ _ => False) h

theorem cloneTensor_copied (tensor : Nat) (h : Heap α) :
    wp (cloneTensor tensor) (fun copy h' => Heap.Copied h h' [tensor] [copy])
      (fun _ _ => False) h := by
  simp only [cloneTensor, wp_bind, wp_get, wp_modify, wp_pure]
  exact Heap.Copied.push h tensor

theorem cloneUnlessNone_copied (tensor : Option Nat) (h : Heap α) :
    wp (cloneUnlessNone tensor)
      (fun copy h' => (copy.map fun _ => ()) = (tensor.map fun _ => ()) ∧
        Heap.Copied h h' tensor.toList copy.toList) (fun _ _ => False) h := by
  cases tensor with
  | none => simpa [cloneUnlessNone] using Heap.Copied.nil h
  | some tensor =>
    simp only [cloneUnlessNone, wp_bind, wp_pure]
    exact wp_mono_ok (cloneTensor_copied tensor h) fun copy h' hcopy => ⟨rfl, hcopy⟩

theorem cloneLayer_copied (layer : Layer Nat) (h : Heap α)
    (hlive : ∀ r ∈ layer.tensors, r < h.next) :
    wp (cloneLayer layer)
      (fun copy h' => copy.nesting = layer.nesting ∧
        Heap.Copied h h' layer.tensors copy.tensors) (fun _ _ => False) h := by
  simp only [cloneLayer, wp_bind, wp_pure]
  refine wp_mono_ok (cloneUnlessNone_copied layer.keys h) ?_
  intro keys h₁ hkeys
  refine wp_mono_ok (cloneUnlessNone_copied layer.values h₁) ?_
  intro values h₂ hvalues
  refine ⟨?_, hkeys.2.append hvalues.2 fun r hr => hlive r (List.mem_append_right _ hr)⟩
  simp only [Layer.nesting, hkeys.1, hvalues.1]

section Clone

variable {calls : CloneCalls ω α}

/-- Items that can be cloned one by one can be cloned together. -/
theorem cloneItems_cloned {items : List (PastKeyValues ω Nat)}
    (hitems : ∀ item ∈ items, ∀ h : Heap α, (∀ r ∈ item.tensors, r < h.next) →
      wp (cloneKvCache calls item) (Cloned h item) (fun _ _ => False) h)
    (h : Heap α) (hlive : ∀ r ∈ items.flatMap PastKeyValues.tensors, r < h.next) :
    wp (cloneItems calls items)
      (fun copies h' => copies.map PastKeyValues.nesting = items.map PastKeyValues.nesting ∧
        Heap.Copied h h' (items.flatMap PastKeyValues.tensors)
          (copies.flatMap PastKeyValues.tensors)) (fun _ _ => False) h := by
  rw [cloneItems_eq]
  refine Heap.wp_mapM_copied (fun item hmem h hlive => ?_) h hlive
  exact wp_mono_ok (hitems item hmem h hlive) fun _ _ hcloned =>
    ⟨hcloned.nesting, hcloned.tensors⟩

variable (hbuilds : BuildsLayers calls)

include hbuilds

/-- The layers of a filled `DynamicCache`, cloned and put into a new one. -/
theorem cloneDynamicCache_copied (layers : List (Layer Nat)) (hfilled : LayersFilled layers)
    (h : Heap α) (hlive : ∀ r ∈ layers.flatMap Layer.tensors, r < h.next) :
    wp (layers.mapM cloneLayer >>= calls.dynamicCache)
      (fun made h' => made.map Layer.nesting = layers.map Layer.nesting ∧
        Heap.Copied h h' (layers.flatMap Layer.tensors) (made.flatMap Layer.tensors))
      (fun _ _ => False) h := by
  rw [wp_bind]
  have hcloned := Heap.wp_mapM_copied (fun layer _ => cloneLayer_copied layer) h hlive
  refine wp_mono_ok hcloned ?_
  intro data h₁ hdata
  have hdataFilled := (layersFilled_congr hdata.1).mpr hfilled
  refine wp_mono_ok (hbuilds.filled data h₁ hdataFilled hdata.2.live) ?_
  intro made h₂ hmade
  rcases hmade with ⟨hgrown, hnesting, hsame, hrefs⟩
  exact ⟨hnesting.trans hdata.1, hdata.2.handOn hgrown hsame hrefs⟩

/-- **A filled value of the known kinds is cloned.** -/
theorem cloneKvCache_cloned (value : PastKeyValues ω Nat) (hobjects : value.objects = [])
    (hfilled : value.Filled) (h : Heap α) (hlive : ∀ r ∈ value.tensors, r < h.next) :
    wp (cloneKvCache calls value) (Cloned h value) (fun _ _ => False) h := by
  induction value using PastKeyValues.nested_induction generalizing h with
  | none => exact ⟨rfl, Heap.Copied.nil h⟩
  | dynamicCache layers =>
    have hlayersFilled := hfilled layers (by simp [PastKeyValues.caches])
    have hlayers := cloneDynamicCache_copied hbuilds layers hlayersFilled h hlive
    rw [wp_bind] at hlayers
    simp only [cloneKvCache, wp_bind, wp_pure]
    refine wp_mono_ok hlayers ?_
    intro data h₁ hdata
    refine wp_mono_ok hdata ?_
    intro made h₂ hmade
    exact ⟨congrArg PastKeyValues.dynamicCache hmade.1, hmade.2⟩
  | tuple items ih =>
    rw [PastKeyValues.objects_tuple, List.flatMap_eq_nil_iff] at hobjects
    rw [PastKeyValues.Filled, PastKeyValues.caches_tuple, List.forall_mem_flatMap] at hfilled
    rw [PastKeyValues.tensors_tuple] at hlive
    have hitems := cloneItems_cloned
      (fun item hmem => ih item hmem (hobjects item hmem) (hfilled item hmem)) h hlive
    simp only [cloneKvCache, wp_bind, wp_pure]
    refine wp_mono_ok hitems ?_
    intro copies h' hcopies
    exact ⟨by simp [hcopies.1], by simpa using hcopies.2⟩
  | list items ih =>
    rw [PastKeyValues.objects_list, List.flatMap_eq_nil_iff] at hobjects
    rw [PastKeyValues.Filled, PastKeyValues.caches_list, List.forall_mem_flatMap] at hfilled
    rw [PastKeyValues.tensors_list] at hlive
    have hitems := cloneItems_cloned
      (fun item hmem => ih item hmem (hobjects item hmem) (hfilled item hmem)) h hlive
    simp only [cloneKvCache, wp_bind, wp_pure]
    refine wp_mono_ok hitems ?_
    intro copies h' hcopies
    exact ⟨by simp [hcopies.1], by simpa using hcopies.2⟩
  | tensor tensor =>
    simp only [cloneKvCache, wp_bind, wp_pure]
    exact wp_mono_ok (cloneTensor_copied tensor h) fun copy h' hcopy => ⟨rfl, hcopy⟩
  | object object => simp [PastKeyValues.objects] at hobjects

end Clone

/-! ## 4. Leaves of other kinds, and `None` in a cache -/

section Outcome

variable {calls : CloneCalls ω α}

/-- How a call from `h` returns: every leaf it met can be cloned, and every cache was
    taken by the constructor. -/
structure Supported (calls : CloneCalls ω α) (h : Heap α) (objects : List ω)
    (caches : List (List (Layer Nat))) (h' : Heap α) : Prop where
  cloned : ∀ object ∈ objects, calls.cloneMethod object ≠ none
  filled : RejectsNone calls → ∀ layers ∈ caches, LayersFilled layers
  grown : h.Extends h'

/-- The exception is that of a leaf that cannot be cloned. -/
def UnsupportedLeaf (calls : CloneCalls ω α) (objects : List ω) (e : CloneError) : Prop :=
  ∃ object ∈ objects, calls.cloneMethod object = none ∧
    e = .typeError (unsupportedMessage calls object)

/-- The exception is that of the constructor of `DynamicCache`, given `None` for the keys or
    the values of some layer. -/
def RejectedLayers (calls : CloneCalls ω α) (caches : List (List (Layer Nat)))
    (e : CloneError) : Prop :=
  ∃ layers ∈ caches, ¬ LayersFilled layers ∧ ∃ data h h',
    data.map Layer.nesting = layers.map Layer.nesting ∧ calls.dynamicCache data h = .error e h'

/-- How a call from `h` raises. -/
structure Unsupported (calls : CloneCalls ω α) (h : Heap α) (objects : List ω)
    (caches : List (List (Layer Nat))) (e : CloneError) (h' : Heap α) : Prop where
  reason : UnsupportedLeaf calls objects e ∨ RejectedLayers calls caches e
  grown : h.Extends h'

/-- What a call came to, in its leaves and caches. -/
def Outcome (calls : CloneCalls ω α) (h : Heap α) (objects : List ω)
    (caches : List (List (Layer Nat))) {β : Type} (prog : EStateM CloneError (Heap α) β) : Prop :=
  wp prog (fun _ => Supported calls h objects caches) (Unsupported calls h objects caches) h

theorem Supported.append {h h₁ h₂ : Heap α} {objects objects' : List ω}
    {caches caches' : List (List (Layer Nat))} (hfirst : Supported calls h objects caches h₁)
    (hrest : Supported calls h₁ objects' caches' h₂) :
    Supported calls h (objects ++ objects') (caches ++ caches') h₂ where
  cloned := List.forall_mem_append.mpr ⟨hfirst.cloned, hrest.cloned⟩
  filled hrejects := List.forall_mem_append.mpr ⟨hfirst.filled hrejects, hrest.filled hrejects⟩
  grown := hfirst.grown.trans hrest.grown

/-- What was wrong with some leaves or caches is wrong with more of them. -/
theorem Unsupported.mono {h h₀ h' : Heap α} {objects objects' : List ω}
    {caches caches' : List (List (Layer Nat))} {e : CloneError}
    (hraised : Unsupported calls h objects caches e h') (hobjects : objects ⊆ objects')
    (hcaches : caches ⊆ caches') (hgrown : h₀.Extends h) :
    Unsupported calls h₀ objects' caches' e h' where
  grown := hgrown.trans hraised.grown
  reason := by
    rcases hraised.reason with ⟨object, hmem, hnone, he⟩ | ⟨layers, hmem, hrejected⟩
    · exact Or.inl ⟨object, hobjects hmem, hnone, he⟩
    · exact Or.inr ⟨layers, hcaches hmem, hrejected⟩

theorem cloneItems_outcome {items : List (PastKeyValues ω Nat)}
    (hitems : ∀ item ∈ items, ∀ h : Heap α, (∀ r ∈ item.tensors, r < h.next) →
      Outcome calls h item.objects item.caches (cloneKvCache calls item))
    (h : Heap α) (hlive : ∀ r ∈ items.flatMap PastKeyValues.tensors, r < h.next) :
    Outcome calls h (items.flatMap PastKeyValues.objects) (items.flatMap PastKeyValues.caches)
      (cloneItems calls items) := by
  unfold Outcome at hitems ⊢
  induction items generalizing h with
  | nil => exact ⟨by simp, by simp, Heap.Extends.refl h⟩
  | cons item items ih =>
    rw [List.flatMap_cons, List.forall_mem_append] at hlive
    simp only [cloneItems, wp_bind, wp_pure, List.flatMap_cons]
    refine wp_mono (hitems item (by simp) h hlive.1) ?_ ?_
    · intro _ h₁ hfirst
      have hlater : ∀ r ∈ items.flatMap PastKeyValues.tensors, r < h₁.next := fun r hr =>
        (hlive.2 r hr).trans_le hfirst.grown.next_le
      have hrest := ih (fun item' hmem => hitems item' (by simp [hmem])) h₁ hlater
      refine wp_mono hrest ?_ ?_
      · intro _ h₂ hothers
        exact hfirst.append hothers
      · intro e h₂ hraised
        exact hraised.mono (List.subset_append_right _ _) (List.subset_append_right _ _)
          hfirst.grown
    · intro e h₁ hraised
      exact hraised.mono (List.subset_append_left _ _) (List.subset_append_left _ _)
        (Heap.Extends.refl h)

/-- A `DynamicCache` is cloned, or its constructor raises on a layer that is not filled. -/
theorem cloneDynamicCache_outcome (hbuilds : BuildsLayers calls) (layers : List (Layer Nat))
    (h : Heap α) (hlive : ∀ r ∈ layers.flatMap Layer.tensors, r < h.next) :
    Outcome calls h [] [layers] (layers.mapM cloneLayer >>= calls.dynamicCache) := by
  unfold Outcome
  rw [wp_bind]
  have hcloned := Heap.wp_mapM_copied (fun layer _ => cloneLayer_copied layer) h hlive
  refine wp_mono_of_returns hcloned ?_
  intro data h₁ hdata
  have hsameFilled := layersFilled_congr hdata.1
  have hgrown := hdata.2.grown
  cases hrun : calls.dynamicCache data h₁ with
  | ok made h₂ =>
    have hkept := wp_ok (hbuilds.keeps data h₁ hdata.2.live) hrun
    unfold wp
    rw [hrun]
    refine ⟨by simp, fun hrejects => ?_, hgrown.trans hkept⟩
    rw [List.forall_mem_singleton]
    exact hsameFilled.mp (hrejects data h₁ made h₂ hrun)
  | error e h₂ =>
    have hkept := wp_error (hbuilds.keeps data h₁ hdata.2.live) hrun
    -- given tensors only, the constructor would have returned
    have hnotFilled : ¬ LayersFilled layers := fun hfilled =>
      wp_error (hbuilds.filled data h₁ (hsameFilled.mpr hfilled) hdata.2.live) hrun
    unfold wp
    rw [hrun]
    exact ⟨Or.inr ⟨layers, by simp, hnotFilled, data, h₁, h₂, hdata.1, hrun⟩,
      hgrown.trans hkept⟩

/-- **What a call comes to.**  It returns only if every leaf can be cloned, and raises only
    for a leaf that cannot be or for a cache that the constructor rejects. -/
theorem cloneKvCache_outcome (hbuilds : BuildsLayers calls) (value : PastKeyValues ω Nat)
    (hclones : ∀ object ∈ value.objects, ClonesReturn calls object) (h : Heap α)
    (hlive : ∀ r ∈ value.tensors, r < h.next) :
    Outcome calls h value.objects value.caches (cloneKvCache calls value) := by
  induction value using PastKeyValues.nested_induction generalizing h with
  | none => exact ⟨by simp [PastKeyValues.objects], by simp [PastKeyValues.caches],
      Heap.Extends.refl h⟩
  | dynamicCache layers =>
    have hlayers := cloneDynamicCache_outcome hbuilds layers h hlive
    unfold Outcome at hlayers ⊢
    rw [wp_bind] at hlayers
    simp only [cloneKvCache, wp_bind, wp_pure]
    exact hlayers
  | tuple items ih =>
    rw [PastKeyValues.objects_tuple, List.forall_mem_flatMap] at hclones
    rw [PastKeyValues.tensors_tuple] at hlive
    have hitems := cloneItems_outcome (fun item hmem => ih item hmem (hclones item hmem)) h hlive
    unfold Outcome at hitems ⊢
    simp only [cloneKvCache, wp_bind, wp_pure, PastKeyValues.objects_tuple,
      PastKeyValues.caches_tuple]
    exact hitems
  | list items ih =>
    rw [PastKeyValues.objects_list, List.forall_mem_flatMap] at hclones
    rw [PastKeyValues.tensors_list] at hlive
    have hitems := cloneItems_outcome (fun item hmem => ih item hmem (hclones item hmem)) h hlive
    unfold Outcome at hitems ⊢
    simp only [cloneKvCache, wp_bind, wp_pure, PastKeyValues.objects_list,
      PastKeyValues.caches_list]
    exact hitems
  | tensor tensor =>
    have hcopied := cloneTensor_copied tensor h
    unfold Outcome
    simp only [cloneKvCache, wp_bind, wp_pure]
    refine wp_mono_of_returns hcopied ?_
    intro copy h' hcopy
    exact ⟨by simp [PastKeyValues.objects], by simp [PastKeyValues.caches], hcopy.grown⟩
  | object leaf =>
    have hclone := hclones leaf (by simp [PastKeyValues.objects])
    unfold Outcome
    rw [cloneKvCache]
    cases hmethod : calls.cloneMethod leaf with
    | none =>
      exact ⟨Or.inl ⟨leaf, by simp [PastKeyValues.objects], hmethod, rfl⟩, Heap.Extends.refl h⟩
    | some clone =>
      refine wp_mono_of_returns (hclone clone hmethod h) ?_
      intro copy h' hgrown
      exact ⟨by simp [PastKeyValues.objects, hmethod], by simp [PastKeyValues.caches], hgrown⟩

/-- A filled value is rejected for a leaf that cannot be cloned, and only for that. -/
theorem raised_typeError_iff {value : PastKeyValues ω Nat} {h : Heap α}
    (houtcome : Outcome calls h value.objects value.caches (cloneKvCache calls value))
    (hfilled : value.Filled) :
    (∃ message, raised (cloneKvCache calls value h) = some (.typeError message)) ↔
      ∃ object ∈ value.objects, calls.cloneMethod object = none := by
  cases hrun : cloneKvCache calls value h with
  | ok copy h' =>
    have hsupported := wp_ok houtcome hrun
    simp only [raised, reduceCtorEq, exists_false, false_iff]
    intro hunsupported
    rcases hunsupported with ⟨object, hmem, hnone⟩
    exact hsupported.cloned object hmem hnone
  | error e h' =>
    rcases (wp_error houtcome hrun).reason with hleaf | hrejected
    · rcases hleaf with ⟨object, hmem, hnone, rfl⟩
      simp only [raised, Option.some.injEq, CloneError.typeError.injEq, exists_eq', true_iff]
      exact ⟨object, hmem, hnone⟩
    · rcases hrejected with ⟨layers, hmem, hnotFilled, -⟩
      exact (hnotFilled (hfilled layers hmem)).elim

/-- **A clone is a copy that shares nothing.**  The tensors there were keep their contents,
    whatever the call comes to.  A value of tuples, lists, `None`, tensors and filled
    `DynamicCache` objects is returned with the same nesting and contents and with tensors
    of its own, and no updates of the tensors of one of the two are seen in the other; the
    call raises `TypeError` exactly when some leaf is of a kind that cannot be cloned.  The
    only other exceptions are those of the constructor of `DynamicCache` given `None`, and
    where it always raises on `None` a value that is not filled is not cloned. -/
theorem cloneKvCache_independent (hbuilds : BuildsLayers calls) (value : PastKeyValues ω Nat)
    (h : Heap α) (hlive : ∀ r ∈ value.tensors, r < h.next)
    (hclones : ∀ object ∈ value.objects, ClonesReturn calls object) :
    (∀ r < h.next, (finalState (cloneKvCache calls value h)).contents r = h.contents r) ∧
    (value.Filled →
      ((∃ message, raised (cloneKvCache calls value h) = some (.typeError message)) ↔
        ∃ object ∈ value.objects, calls.cloneMethod object = none) ∧
      (value.objects = [] → ∃ copy h',
        cloneKvCache calls value h = .ok copy h' ∧
        copy.nesting = value.nesting ∧
        copy.tensors.map h'.contents = value.tensors.map h.contents ∧
        (∀ r ∈ copy.tensors, h.next ≤ r ∧ r ∉ value.tensors) ∧
        ∀ updates : List (Nat × α),
          ((∀ update ∈ updates, update.1 ∈ value.tensors) →
            copy.tensors.map (h'.writes updates).contents = copy.tensors.map h'.contents) ∧
          ((∀ update ∈ updates, update.1 ∈ copy.tensors) →
            value.tensors.map (h'.writes updates).contents =
              value.tensors.map h'.contents))) ∧
    (∀ e, raised (cloneKvCache calls value h) = some e →
      UnsupportedLeaf calls value.objects e ∨ RejectedLayers calls value.caches e) ∧
    (RejectsNone calls → ¬ value.Filled → returned (cloneKvCache calls value h) = none) := by
  have houtcome := cloneKvCache_outcome hbuilds value hclones h hlive
  have hgrown : h.Extends (finalState (cloneKvCache calls value h)) :=
    finalState_of_wp (wp_mono houtcome (fun _ _ hends => hends.grown) fun _ _ hends => hends.grown)
  refine ⟨hgrown.kept, fun hfilled => ⟨raised_typeError_iff houtcome hfilled, fun hobjects => ?_⟩,
    fun e hraised => ?_, fun hrejects hnotFilled => ?_⟩
  · obtain ⟨copy, h', hrun, hcloned⟩ :=
      returns_of_wp (cloneKvCache_cloned hbuilds value hobjects hfilled h hlive)
    have hapart : ∀ r ∈ copy.tensors, r ∉ value.tensors := fun r hcopy hvalue =>
      hcloned.tensors.disjoint hlive hcopy hvalue
    have hapart' : ∀ r ∈ value.tensors, r ∉ copy.tensors := fun r hvalue hcopy =>
      hapart r hcopy hvalue
    have hnew : ∀ r ∈ copy.tensors, h.next ≤ r ∧ r ∉ value.tensors := fun r hcopy =>
      ⟨hcloned.tensors.fresh r hcopy, hapart r hcopy⟩
    exact ⟨copy, h', hrun, hcloned.nesting, hcloned.tensors.same, hnew, fun updates =>
      ⟨Heap.map_contents_writes h' hapart, Heap.map_contents_writes h' hapart'⟩⟩
  · obtain ⟨h', hrun⟩ := raised_eq_some.mp hraised
    exact (wp_error houtcome hrun).reason
  · cases hrun : cloneKvCache calls value h with
    | ok copy h' => exact (hnotFilled ((wp_ok houtcome hrun).filled hrejects)).elim
    | error e h' => rfl

end Outcome

/-! ## 5. A constructor that concatenates -/

/-- A new layer updated with a pair: both are concatenated to what the layer holds. -/
def updateLayer (layer : Layer Nat) : EStateM CloneError (Heap α) (Layer Nat) :=
  match layer.keys, layer.values with
  | none, _ => throw (.attributeError "'NoneType' object has no attribute 'dtype'")
  | some _, none =>
    throw (.typeError "expected Tensor as element 1 in argument 0, but got NoneType")
  | some _, some _ => cloneLayer layer

/-- A `DynamicCache` with a layer updated with each pair; other leaves are named by their
    types. -/
def layersUpdated (α : Type) : CloneCalls String α where
  dynamicCache data := data.mapM updateLayer
  cloneMethod _ := none
  typeRepr object := object

theorem updateLayer_of_filled {layer : Layer Nat} (hfilled : layer.Filled) :
    updateLayer (α := α) layer = cloneLayer layer := by
  obtain ⟨keys, values⟩ := layer
  cases keys with
  | none => exact (hfilled.1 rfl).elim
  | some keys =>
    cases values with
    | none => exact (hfilled.2 rfl).elim
    | some values => rfl

theorem updateLayers_keeps (data : List (Layer Nat)) (h : Heap α)
    (hlive : ∀ r ∈ data.flatMap Layer.tensors, r < h.next) :
    wp (data.mapM updateLayer) (fun _ h' => LayersFilled data ∧ h.Extends h')
      (fun _ h' => h.Extends h') h := by
  induction data generalizing h with
  | nil => exact ⟨by simp [LayersFilled], Heap.Extends.refl h⟩
  | cons layer data ih =>
    rw [List.flatMap_cons, List.forall_mem_append] at hlive
    simp only [List.mapM_cons, wp_bind, wp_pure]
    by_cases hfilled : layer.Filled
    · rw [updateLayer_of_filled hfilled]
      refine wp_mono_of_returns (cloneLayer_copied layer h hlive.1) ?_
      intro _ h₁ hcopy
      have hgrown := hcopy.2.grown
      have hlater : ∀ r ∈ data.flatMap Layer.tensors, r < h₁.next := fun r hr =>
        (hlive.2 r hr).trans_le hgrown.next_le
      refine wp_mono (ih h₁ hlater) ?_ ?_
      · intro _ h₂ hrest
        exact ⟨List.forall_mem_cons.mpr ⟨hfilled, hrest.1⟩, hgrown.trans hrest.2⟩
      · intro _ h₂ hrest
        exact hgrown.trans hrest
    · obtain ⟨keys, values⟩ := layer
      cases keys with
      | none => exact Heap.Extends.refl h
      | some keys =>
        cases values with
        | none => exact Heap.Extends.refl h
        | some values => exact (hfilled (by simp [Layer.Filled])).elim

theorem layersUpdated_buildsLayers : BuildsLayers (layersUpdated α) where
  filled data h hfilled hlive := by
    have hupdate : ∀ layer ∈ data, ∀ h : Heap α, (∀ r ∈ layer.tensors, r < h.next) →
        wp (updateLayer layer)
          (fun copy h' => copy.nesting = layer.nesting ∧
            Heap.Copied h h' layer.tensors copy.tensors) (fun _ _ => False) h := by
      intro layer hmem h hlive
      rw [updateLayer_of_filled (hfilled layer hmem)]
      exact cloneLayer_copied layer h hlive
    refine wp_mono_ok (Heap.wp_mapM_copied hupdate h hlive) ?_
    intro layers h' hcopy
    exact ⟨hcopy.2.grown, hcopy.1, hcopy.2.same, fun r hr =>
      Or.inr ⟨hcopy.2.fresh r hr, hcopy.2.live r hr⟩⟩
  keeps data h hlive := by
    refine wp_mono (updateLayers_keeps data h hlive) ?_ ?_
    · intro _ h' hends
      exact hends.2
    · intro _ h' hends
      exact hends

/-- A key and a value, twice; adding to the key does not change the clone. -/
theorem cloneKvCache_independent_key :
    ∃ copy h', cloneKvCache (layersUpdated Nat)
        (.tuple [.tuple [.tensor 0, .tensor 1], .dynamicCache [⟨some 0, some 1⟩], .none])
        ⟨fun r => if r = 0 then 7 else 8, 2⟩ = .ok copy h' ∧
      copy.tensors.map (h'.writes [(0, 107)]).contents = [7, 8, 7, 8] := by
  obtain ⟨-, hclones, -⟩ := cloneKvCache_independent (layersUpdated_buildsLayers)
    (.tuple [.tuple [.tensor 0, .tensor 1], .dynamicCache [⟨some 0, some 1⟩], .none])
    ⟨fun r => if r = 0 then 7 else 8, 2⟩ (by decide) fun _ _ _ hmethod => by cases hmethod
  obtain ⟨copy, h', hrun, -, hsame, -, hupdates⟩ := (hclones (by decide)).2 (by decide)
  refine ⟨copy, h', hrun, ?_⟩
  rw [(hupdates [(0, 107)]).1 (by decide), hsame]
  rfl

/-- **A cache whose layer is not filled yet is not cloned**: no leaf is of a kind that cannot
    be cloned, and the call raises what the constructor raised. -/
theorem cloneKvCache_not_filled :
    BuildsLayers (layersUpdated Nat) ∧
      (PastKeyValues.dynamicCache [⟨none, none⟩] : PastKeyValues String Nat).objects = [] ∧
      raised (cloneKvCache (layersUpdated Nat) (.dynamicCache [⟨none, none⟩]) ⟨fun _ => 0, 0⟩) =
        some (.attributeError "'NoneType' object has no attribute 'dtype'") :=
  ⟨layersUpdated_buildsLayers, rfl, rfl⟩

end Edmm
