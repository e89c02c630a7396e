/-
  Edmm/Lib/Traversal.lean
  =======================
  **Walking along a queue.**

  A walk visits the items of a queue in order.  Each visited item is taken out of
  the queue or passed over; when the walk ends, the items passed over stand again
  before those that were not visited.  Whatever the walk takes and wherever it
  ends, the queue keeps its order and loses nothing but what was taken.
-/
import Mathlib.Data.List.Basic
import Mathlib.Logic.Relation

namespace Edmm

universe u

/-- A walk under way: the items taken so far, those passed over, those ahead. -/
structure Traversal (α : Type u) where
  taken : List α
  passed : List α
  ahead : List α

namespace Traversal

variable {α : Type u}

/-- The queue as it is if the walk ends here. -/
def line (t : Traversal α) : List α := t.passed ++ t.ahead

inductive Step : Traversal α → Traversal α → Prop where
  | pass (taken passed ahead : List α) (x : α) :
      Step ⟨taken, passed, x :: ahead⟩ ⟨taken, passed ++ [x], ahead⟩
  | take (taken passed ahead : List α) (x : α) :
      Step ⟨taken, passed, x :: ahead⟩ ⟨taken ++ [x], passed, ahead⟩

/-- From `t` to `t'` the queue kept its order and lost only what was taken. -/
structure KeepsOrder (t t' : Traversal α) : Prop where
  order : t'.line.Sublist t.line
  taken : ∃ added, t'.taken = t.taken ++ added ∧ t.line.Perm (t'.line ++ added)

theorem KeepsOrder.refl (t : Traversal α) : KeepsOrder t t :=
  { order := List.Sublist.refl _
    taken := ⟨[], by simp⟩ }

theorem KeepsOrder.trans {t t' t'' : Traversal α} (h : KeepsOrder t t')
    (h' : KeepsOrder t' t'') : KeepsOrder t t'' := by
  obtain ⟨added, htaken, hperm⟩ := h.taken
  obtain ⟨added', htaken', hperm'⟩ := h'.taken
  constructor
  · exact h'.order.trans h.order
  · refine ⟨added ++ added', by rw [htaken', htaken, List.append_assoc], ?_⟩
    calc
      t.line.Perm (t'.line ++ added) := hperm
      List.Perm _ ((t''.line ++ added') ++ added) := hperm'.append_right added
      List.Perm _ (t''.line ++ (added ++ added')) := by
        rw [List.append_assoc]
        exact List.perm_append_comm.append_left t''.line

theorem Step.keepsOrder {t t' : Traversal α} (h : Step t t') : KeepsOrder t t' := by
  cases h with
  | pass taken passed ahead x =>
    have hline : line ⟨taken, passed ++ [x], ahead⟩ = line ⟨taken, passed, x :: ahead⟩ := by
      simp [line]
    exact
      { order := by rw [hline]
        taken := ⟨[], by rw [hline]; simp⟩ }
  | take taken passed ahead x =>
    exact
      { order := (List.sublist_cons_self x ahead).append_left passed
        taken := ⟨[x], rfl, List.perm_middle.trans (List.perm_append_singleton _ _).symm⟩ }

/-- **Order of a walk.** -/
theorem keepsOrder_of_steps {t t' : Traversal α} (h : Relation.ReflTransGen Step t t') :
    KeepsOrder t t' := by
  induction h with
  | refl => exact KeepsOrder.refl t
  | tail _ step ih => exact ih.trans step.keepsOrder

end Traversal

end Edmm
