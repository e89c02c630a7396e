/-
  Edmm/Lib/Strided.lean
  =====================
  **Strided layouts**: how an array of some shape lies in a flat buffer.

  A layout is a shape, a stride for each dimension and the offset of the first
  element, counted in elements.  Viewing a contiguous array in another shape and
  permuting its dimensions keep the offset; `asStrided` is the one way to move it.
-/
import Mathlib.Algebra.BigOperators.Group.List.Basic
import Mathlib.Algebra.GroupWithZero.Nat
import Mathlib.Data.List.Basic

namespace Edmm

/-- The strides of a contiguous array: the last dimension varies fastest, and an empty
    dimension counts as one. -/
def contiguousStrides : List Nat → List Nat
  | [] => []
  | _ :: rest => (rest.map (max 1)).prod :: contiguousStrides rest

/-- One more than the distance of the last element from the first. -/
def stridedExtent (shape stride : List Nat) : Nat :=
  if 0 ∈ shape then 0 else 1 + ((shape.zip stride).map fun x => (x.1 - 1) * x.2).sum

structure Layout where
  shape : List Nat
  stride : List Nat
  offset : Nat
deriving DecidableEq, Repr

namespace Layout

def contiguous (shape : List Nat) : Layout :=
  { shape, stride := contiguousStrides shape, offset := 0 }

def numel (l : Layout) : Nat := l.shape.prod

/-- Another shape for a contiguous array. -/
def view (l : Layout) (shape : List Nat) : Option Layout :=
  if shape.prod = l.numel then some { l with shape, stride := contiguousStrides shape } else none

/-- Any shape and strides that stay below the limit of the buffer. -/
def asStrided (size stride : List Nat) (offset limit : Nat) : Option Layout :=
  if size.length = stride.length ∧ (0 ∈ size ∨ offset + stridedExtent size stride ≤ limit) then
    some { shape := size, stride, offset }
  else none

/-- The dimensions in another order. -/
def permute (l : Layout) (dims : List Nat) : Option Layout :=
  if dims.Perm (List.range l.shape.length) then
    some { l with
      shape := dims.map fun dim => l.shape.getD dim 0
      stride := dims.map fun dim => l.stride.getD dim 0 }
  else none

variable {l l' : Layout}

theorem offset_view {shape : List Nat} (h : l.view shape = some l') : l'.offset = l.offset := by
  unfold view at h
  split at h
  · cases h
    rfl
  · cases h

theorem offset_permute {dims : List Nat} (h : l.permute dims = some l') :
    l'.offset = l.offset := by
  unfold permute at h
  split at h
  · cases h
    rfl
  · cases h

theorem offset_asStrided {size stride : List Nat} {offset limit : Nat}
    (h : asStrided size stride offset limit = some l) : l.offset = offset := by
  unfold asStrided at h
  split at h
  · cases h
    rfl
  · cases h

end Layout

theorem one_le_prod_max (shape : List Nat) : 1 ≤ (shape.map (max 1)).prod := by
  induction shape with
  | nil => exact Nat.le_refl 1
  | cons dim rest ih =>
    rw [List.map_cons, List.prod_cons]
    exact Nat.mul_pos (by omega) ih

/-- The stride of the outermost dimension is never zero. -/
theorem one_le_head_contiguousStrides (dim : Nat) (rest : List Nat) :
    1 ≤ (contiguousStrides (dim :: rest)).headD 0 :=
  one_le_prod_max rest

theorem prod_max_of_nonempty {shape : List Nat} (h : 0 ∉ shape) :
    (shape.map (max 1)).prod = shape.prod := by
  induction shape with
  | nil => rfl
  | cons dim rest ih =>
    obtain ⟨hdim, hrest⟩ : dim ≠ 0 ∧ 0 ∉ rest := by simpa [eq_comm] using h
    rw [List.map_cons, List.prod_cons, List.prod_cons, ih hrest, Nat.max_eq_right (by omega)]

/-- A contiguous array fills its extent. -/
theorem stridedExtent_contiguous {shape : List Nat} (h : 0 ∉ shape) :
    stridedExtent shape (contiguousStrides shape) = shape.prod := by
  unfold stridedExtent
  rw [if_neg h]
  induction shape with
  | nil => rfl
  | cons dim rest ih =>
    obtain ⟨hdim, hrest⟩ : dim ≠ 0 ∧ 0 ∉ rest := by simpa [eq_comm] using h
    have hsum := ih hrest
    rw [contiguousStrides, List.zip_cons_cons, List.map_cons, List.sum_cons, List.prod_cons,
      prod_max_of_nonempty hrest]
    calc 1 + ((dim - 1) * rest.prod + ((rest.zip (contiguousStrides rest)).map
            fun x => (x.1 - 1) * x.2).sum)
        = (dim - 1) * rest.prod + rest.prod := by omega
      _ = dim * rest.prod := by
        rw [← Nat.succ_mul, Nat.succ_eq_add_one, Nat.sub_add_cancel (by omega)]

end Edmm
