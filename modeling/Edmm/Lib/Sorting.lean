/-
  Edmm/Lib/Sorting.lean
  =====================
  **Sorting a list whose parts are in order.**

  A sorted list is determined by its elements.  So when every element of one list is
  at most every element of another, sorting their concatenation sorts each of them,
  and the smallest elements can be cut off without looking at the others.
-/
import Mathlib.Data.List.Sort
import Mathlib.Algebra.Order.BigOperators.Group.List

namespace Edmm

namespace Sorting

universe u

variable {α : Type u} [LinearOrder α]

/-- The elements in ascending order. -/
def sorted (l : List α) : List α := l.mergeSort (· ≤ ·)

theorem sorted_perm (l : List α) : (sorted l).Perm l := List.mergeSort_perm l _

@[simp] theorem length_sorted (l : List α) : (sorted l).length = l.length :=
  List.length_mergeSort l

@[simp] theorem mem_sorted {l : List α} {a : α} : a ∈ sorted l ↔ a ∈ l := List.mem_mergeSort

theorem pairwise_sorted (l : List α) : (sorted l).Pairwise (· ≤ ·) :=
  List.pairwise_mergeSort' (· ≤ ·) l

/-- Only one list in order has these elements. -/
theorem sorted_eq_of_perm {l s : List α} (h : l.Perm s) (hs : s.Pairwise (· ≤ ·)) :
    sorted l = s :=
  ((sorted_perm l).trans h).eq_of_pairwise' (pairwise_sorted l) hs

/-- The order of a list does not matter. -/
theorem sorted_congr {l l' : List α} (h : l.Perm l') : sorted l = sorted l' :=
  sorted_eq_of_perm (h.trans (sorted_perm l').symm) (pairwise_sorted l')

/-- **Parts in order are sorted one by one.** -/
theorem sorted_append {l l' : List α} (h : ∀ a ∈ l, ∀ b ∈ l', a ≤ b) :
    sorted (l ++ l') = sorted l ++ sorted l' := by
  refine sorted_eq_of_perm ((sorted_perm l).append (sorted_perm l')).symm ?_
  rw [List.pairwise_append]
  refine ⟨pairwise_sorted l, pairwise_sorted l', fun a ha b hb => ?_⟩
  exact h a (mem_sorted.mp ha) b (mem_sorted.mp hb)

/-- What is left when the `t` smallest and the `t` largest are cut off. -/
def middle (t : Nat) (l : List α) : List α := ((sorted l).take (l.length - t)).drop t

theorem length_middle (t : Nat) (l : List α) : (middle t l).length = l.length - 2 * t := by
  simp only [middle, List.length_drop, List.length_take, length_sorted]
  omega

/-- The middle element by element. -/
theorem middle_eq_map (t : Nat) (l : List α) (default : α) :
    middle t l =
      (List.range (l.length - 2 * t)).map fun i => (sorted l)[t + i]?.getD default := by
  refine List.ext_getElem (by simp [length_middle]) fun i hi hi' => ?_
  have hindex : t + i < (sorted l).length := by
    rw [length_middle] at hi
    rw [length_sorted]
    omega
  simp [middle, List.getElem?_eq_getElem hindex]

theorem middle_congr (t : Nat) {l l' : List α} (h : l.Perm l') : middle t l = middle t l' := by
  unfold middle
  rw [sorted_congr h, h.length_eq]

/-- With the `t` smallest and the `t` largest named, the others are left. -/
theorem middle_of_parts {low mid high : List α} {t : Nat} (hlow : low.length = t)
    (hhigh : high.length = t) (hlowest : ∀ a ∈ low, ∀ b ∈ mid ++ high, a ≤ b)
    (hhighest : ∀ a ∈ mid, ∀ b ∈ high, a ≤ b) :
    middle t (low ++ (mid ++ high)) = sorted mid := by
  have hlength : (low ++ (mid ++ high)).length - t = (sorted low ++ sorted mid).length := by
    simp only [List.length_append, length_sorted]
    omega
  unfold middle
  rw [hlength, sorted_append hlowest, sorted_append hhighest, ← List.append_assoc, List.take_left,
    ← hlow, ← length_sorted low, List.drop_left]

/-- The ends of the middle are the smallest and the largest left. -/
theorem mem_middle_bounds {t : Nat} {l : List α} {lo hi : α} (hlo : (sorted l)[t]? = some lo)
    (hhi : (sorted l)[l.length - 1 - t]? = some hi) {a : α} (ha : a ∈ middle t l) :
    lo ≤ a ∧ a ≤ hi := by
  obtain ⟨i, hi'⟩ := List.mem_iff_getElem?.mp ha
  unfold middle at hi'
  rw [List.getElem?_drop, List.getElem?_take] at hi'
  have hrange : t + i < l.length - t := by
    by_contra hout
    rw [if_neg hout] at hi'
    cases hi'
  rw [if_pos hrange] at hi'
  have hsorted := List.pairwise_iff_getElem.mp (pairwise_sorted l)
  obtain ⟨ht, rfl⟩ := List.getElem?_eq_some_iff.mp hlo
  obtain ⟨hn, rfl⟩ := List.getElem?_eq_some_iff.mp hhi
  obtain ⟨hj, rfl⟩ := List.getElem?_eq_some_iff.mp hi'
  constructor
  · rcases Nat.eq_zero_or_pos i with rfl | hpos
    · exact le_of_eq rfl
    · exact hsorted t (t + i) ht hj (by omega)
  · rcases Nat.lt_or_ge (t + i) (l.length - 1 - t) with hlt | hge
    · exact hsorted (t + i) _ hj hn hlt
    · have heq : t + i = l.length - 1 - t := by omega
      exact le_of_eq (getElem_congr rfl heq _)

end Sorting

end Edmm
