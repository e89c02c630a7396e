/-
  Edmm/Lib/Ranking.lean
  =====================
  **Heaps of ranked items, and picking from them in order.**

  A binary heap keeps an item of the least rank in front.  Picking takes an item of the
  least rank again and again; each item picked is taken or put aside.  So the items are
  picked in the order of their ranks, and nothing overtakes an item of lower rank unless
  that one was put aside.
-/
import Mathlib.Data.List.Basic
import Mathlib.Logic.Relation
import Mathlib.Order.Lattice

namespace Edmm

namespace Ranking

universe u v

variable {α : Type u} {β : Type v} [LinearOrder β] {rank : α → β}

/-! ## 1. Heaps -/

/-- No item ranks before its parent; the parent of item `i + 1` is item `i / 2`. -/
def IsHeap (rank : α → β) (items : List α) : Prop :=
  ∀ i parent child, items[i / 2]? = some parent → items[i + 1]? = some child →
    rank parent ≤ rank child

theorem isHeap_nil (rank : α → β) : IsHeap rank [] := by
  intro i parent child hparent
  simp at hparent

/-- An item of the least rank is in front. -/
theorem IsHeap.first_le {first : α} {rest : List α} (h : IsHeap rank (first :: rest)) {x : α}
    (hx : x ∈ first :: rest) : rank first ≤ rank x := by
  have hle : ∀ (i : Nat) (x : α), (first :: rest)[i]? = some x → rank first ≤ rank x := by
    intro i
    induction i using Nat.strongRecOn with
    | _ i ih =>
      intro x hx
      cases i with
      | zero =>
        simp at hx
        rw [hx]
      | succ i =>
        have hless : i / 2 < i + 1 := by omega
        obtain ⟨hlength, _⟩ := List.getElem?_eq_some_iff.mp hx
        obtain ⟨parent, hparent⟩ : ∃ parent, (first :: rest)[i / 2]? = some parent :=
          ⟨_, List.getElem?_eq_getElem (Nat.lt_trans hless hlength)⟩
        exact (ih (i / 2) hless parent hparent).trans (h i parent x hparent hx)
  obtain ⟨i, hi⟩ := List.getElem?_of_mem hx
  exact hle i x hi

/-- Only the ranks of the items count. -/
theorem IsHeap.congr {rank' : α → β} {items : List α} (h : IsHeap rank items)
    (hrank : ∀ x ∈ items, rank' x = rank x) : IsHeap rank' items := by
  intro i parent child hparent hchild
  rw [hrank parent (List.mem_of_getElem? hparent), hrank child (List.mem_of_getElem? hchild)]
  exact h i parent child hparent hchild

/-- A sorted list is a heap. -/
theorem isHeap_of_sorted {items : List α}
    (h : items.Pairwise fun x y => rank x ≤ rank y) : IsHeap rank items := by
  intro i parent child hparent hchild
  obtain ⟨hlt, rfl⟩ := List.getElem?_eq_some_iff.mp hparent
  obtain ⟨hlt', rfl⟩ := List.getElem?_eq_some_iff.mp hchild
  exact List.pairwise_iff_getElem.mp h _ _ hlt hlt' (by omega)

/-! ## 2. Picking -/

/-- Items being picked. -/
structure Picking (α : Type u) where
  taken : List α
  aside : List α
  ahead : List α

namespace Picking

/-- An item of the least rank is taken, or put aside if it may be. -/
inductive Step (rank : α → β) (MayWait : α → Prop) (p : Picking α) : Picking α → Prop where
  | take {x : α} {rest : List α} (hahead : p.ahead.Perm (x :: rest))
      (hleast : ∀ y ∈ rest, rank x ≤ rank y) :
      Step rank MayWait p ⟨p.taken ++ [x], p.aside, rest⟩
  | putAside {x : α} {rest aside : List α} (hahead : p.ahead.Perm (x :: rest))
      (hleast : ∀ y ∈ rest, rank x ≤ rank y) (haside : aside.Perm (x :: p.aside))
      (hmay : MayWait x) : Step rank MayWait p ⟨p.taken, aside, rest⟩

abbrev Steps (rank : α → β) (MayWait : α → Prop) : Picking α → Picking α → Prop :=
  Relation.ReflTransGen (Step rank MayWait)

/-- What was picked from `p` to `p'`: the items `taken` and, in any order, `passed`. -/
structure Picked (rank : α → β) (MayWait : α → Prop) (p p' : Picking α)
    (taken passed : List α) : Prop where
  taken_eq : p'.taken = p.taken ++ taken
  aside : p'.aside.Perm (passed ++ p.aside)
  ahead : p.ahead.Perm (taken ++ (passed ++ p'.ahead))
  sorted : taken.Pairwise fun x y => rank x ≤ rank y
  least : ∀ x ∈ taken ++ passed, ∀ y ∈ p'.ahead, rank x ≤ rank y
  mayWait : ∀ x ∈ passed, MayWait x

variable {MayWait : α → Prop} {p p' p'' : Picking α} {taken passed : List α}

theorem Picked.refl (p : Picking α) : Picked rank MayWait p p [] [] where
  taken_eq := (List.append_nil _).symm
  aside := List.Perm.refl _
  ahead := List.Perm.refl _
  sorted := List.Pairwise.nil
  least := by simp
  mayWait := by simp

theorem Picked.take {x : α} {rest : List α} (h : Picked rank MayWait p p' taken passed)
    (hahead : p'.ahead.Perm (x :: rest)) (hleast : ∀ y ∈ rest, rank x ≤ rank y) :
    Picked rank MayWait p ⟨p'.taken ++ [x], p'.aside, rest⟩ (taken ++ [x]) passed where
  taken_eq := by simp [h.taken_eq]
  aside := h.aside
  ahead := by
    have hpassed : (passed ++ p'.ahead).Perm (x :: (passed ++ rest)) :=
      (hahead.append_left passed).trans List.perm_middle
    have htaken := h.ahead.trans (hpassed.append_left taken)
    rw [List.append_assoc]
    exact htaken
  sorted := by
    rw [List.pairwise_append]
    refine ⟨h.sorted, List.pairwise_singleton _ _, ?_⟩
    intro y hy z hz
    rw [List.mem_singleton.mp hz]
    exact h.least y (List.mem_append_left _ hy) x (hahead.mem_iff.mpr List.mem_cons_self)
  least := by
    intro y hy z hz
    have hz' : z ∈ p'.ahead := hahead.mem_iff.mpr (List.mem_cons_of_mem _ hz)
    simp only [List.mem_append, List.mem_singleton] at hy
    rcases hy with (htaken | rfl) | hpassed
    · exact h.least y (List.mem_append_left _ htaken) z hz'
    · exact hleast z hz
    · exact h.least y (List.mem_append_right _ hpassed) z hz'
  mayWait := h.mayWait

theorem Picked.putAside {x : α} {rest aside : List α}
    (h : Picked rank MayWait p p' taken passed) (hahead : p'.ahead.Perm (x :: rest))
    (hleast : ∀ y ∈ rest, rank x ≤ rank y) (haside : aside.Perm (x :: p'.aside))
    (hmay : MayWait x) :
    Picked rank MayWait p ⟨p'.taken, aside, rest⟩ taken (x :: passed) where
  taken_eq := h.taken_eq
  aside := haside.trans (h.aside.cons x)
  ahead := by
    have hpassed : (passed ++ p'.ahead).Perm (x :: (passed ++ rest)) :=
      (hahead.append_left passed).trans List.perm_middle
    exact h.ahead.trans (hpassed.append_left taken)
  sorted := h.sorted
  least := by
    intro y hy z hz
    have hz' : z ∈ p'.ahead := hahead.mem_iff.mpr (List.mem_cons_of_mem _ hz)
    simp only [List.mem_append, List.mem_cons] at hy
    rcases hy with htaken | rfl | hpassed
    · exact h.least y (List.mem_append_left _ htaken) z hz'
    · exact hleast z hz
    · exact h.least y (List.mem_append_right _ hpassed) z hz'
  mayWait := by
    intro y hy
    rcases List.mem_cons.mp hy with rfl | hpassed
    · exact hmay
    · exact h.mayWait y hpassed

/-- **Picking is in order.** -/
theorem picked_of_steps (h : Steps rank MayWait p p') :
    ∃ taken passed, Picked rank MayWait p p' taken passed := by
  induction h with
  | refl => exact ⟨[], [], Picked.refl p⟩
  | tail _ step ih =>
    obtain ⟨taken, passed, hpicked⟩ := ih
    cases step with
    | take hahead hleast => exact ⟨_, _, hpicked.take hahead hleast⟩
    | putAside hahead hleast haside hmay =>
      exact ⟨_, _, hpicked.putAside hahead hleast haside hmay⟩

/-- An item that ranks before one taken is taken as well, or it was put aside. -/
theorem Picked.overtaken (h : Picked rank MayWait p p' taken passed) {x y : α} (hx : x ∈ taken)
    (hy : y ∈ p.ahead) (hbefore : rank y < rank x) : y ∈ taken ∨ y ∈ passed := by
  have hy' := h.ahead.mem_iff.mp hy
  simp only [List.mem_append] at hy'
  rcases hy' with htaken | hpassed | hahead
  · exact Or.inl htaken
  · exact Or.inr hpassed
  · exact absurd hbefore (h.least x (List.mem_append_left _ hx) y hahead).not_gt

end Picking

end Ranking

end Edmm
