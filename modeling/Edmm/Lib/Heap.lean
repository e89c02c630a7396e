/-
  Edmm/Lib/Heap.lean
  ==================
  **References into a heap, and copies that share none of them.**

  A heap gives every reference its contents; the references below `next` are the
  allocated ones, and `next` is the one an allocation returns.  A list of references
  is a *copy* of another (`Copied`) when the contents agree and every reference of
  the copy was allocated in between.  Copies are put together with `append`, and
  writing through one of two disjoint lists is never seen through the other.  A program
  that copies every element of a list copies the list (`wp_mapM_copied`).
-/
import Edmm.Lib.Program
import Mathlib.Data.List.Basic
import Mathlib.Data.Nat.Basic
import Mathlib.Logic.Function.Basic
import Mathlib.Order.Basic

namespace Edmm

universe u

structure Heap (α : Type u) where
  contents : Nat → α
  next : Nat

namespace Heap

variable {α : Type u}

/-- The heap after allocating `h.next` with contents `a`. -/
def push (h : Heap α) (a : α) : Heap α where
  contents := Function.update h.contents h.next a
  next := h.next + 1

/-- Writing through a list of references, one after another. -/
def writes (h : Heap α) (updates : List (Nat × α)) : Heap α :=
  updates.foldl (fun h update =>
    { h with contents := Function.update h.contents update.1 update.2 }) h

/-! ### 1. Heaps that only grow -/

/-- What was allocated is as it was. -/
structure Extends (h h' : Heap α) : Prop where
  next_le : h.next ≤ h'.next
  kept : ∀ r < h.next, h'.contents r = h.contents r

theorem Extends.refl (h : Heap α) : h.Extends h := ⟨le_refl _, fun _ _ => rfl⟩

theorem Extends.trans {h₁ h₂ h₃ : Heap α} (h : h₁.Extends h₂) (h' : h₂.Extends h₃) :
    h₁.Extends h₃ where
  next_le := h.next_le.trans h'.next_le
  kept r hr := (h'.kept r (hr.trans_le h.next_le)).trans (h.kept r hr)

theorem extends_push (h : Heap α) (a : α) : h.Extends (h.push a) where
  next_le := Nat.le_succ _
  kept r hr := by simp [push, Function.update_of_ne hr.ne]

/-- Allocated references have the contents they had. -/
theorem Extends.map_contents {h h' : Heap α} (hext : h.Extends h') {refs : List Nat}
    (hlive : ∀ r ∈ refs, r < h.next) : refs.map h'.contents = refs.map h.contents :=
  List.map_congr_left fun r hr => hext.kept r (hlive r hr)

/-! ### 2. Copies -/

/-- `copies` are new references, with the contents of `refs`. -/
structure Copied (h h' : Heap α) (refs copies : List Nat) : Prop where
  grown : h.Extends h'
  same : copies.map h'.contents = refs.map h.contents
  fresh : ∀ r ∈ copies, h.next ≤ r
  live : ∀ r ∈ copies, r < h'.next

namespace Copied

variable {h h₁ h₂ : Heap α} {refs refs' copies copies' : List Nat}

theorem nil (h : Heap α) : Copied h h [] [] where
  grown := Extends.refl h
  same := rfl
  fresh := by simp
  live := by simp

/-- One reference, copied. -/
theorem push (h : Heap α) (r : Nat) : Copied h (h.push (h.contents r)) [r] [h.next] where
  grown := h.extends_push _
  same := by simp [Heap.push]
  fresh := by simp
  live := by simp [Heap.push]

/-- **Copies made one after the other.** -/
theorem append (hcopied : Copied h h₁ refs copies) (hcopied' : Copied h₁ h₂ refs' copies')
    (hlive : ∀ r ∈ refs', r < h.next) :
    Copied h h₂ (refs ++ refs') (copies ++ copies') where
  grown := hcopied.grown.trans hcopied'.grown
  same := by
    rw [List.map_append, List.map_append, hcopied'.grown.map_contents hcopied.live, hcopied.same,
      hcopied'.same, hcopied.grown.map_contents hlive]
  fresh r hr := by
    rcases List.mem_append.mp hr with hfirst | hsecond
    · exact hcopied.fresh r hfirst
    · exact hcopied.grown.next_le.trans (hcopied'.fresh r hsecond)
  live r hr := by
    rcases List.mem_append.mp hr with hfirst | hsecond
    · exact (hcopied.live r hfirst).trans_le hcopied'.grown.next_le
    · exact hcopied'.live r hsecond

/-- A copy that is handed on, each reference as it is or copied once more. -/
theorem handOn (hcopied : Copied h h₁ refs copies) (hgrown : h₁.Extends h₂)
    (hsame : copies'.map h₂.contents = copies.map h₁.contents)
    (hrefs : ∀ r ∈ copies', r ∈ copies ∨ h₁.next ≤ r ∧ r < h₂.next) :
    Copied h h₂ refs copies' where
  grown := hcopied.grown.trans hgrown
  same := hsame.trans hcopied.same
  fresh r hr := by
    rcases hrefs r hr with hold | hnew
    · exact hcopied.fresh r hold
    · exact hcopied.grown.next_le.trans hnew.1
  live r hr := by
    rcases hrefs r hr with hold | hnew
    · exact (hcopied.live r hold).trans_le hgrown.next_le
    · exact hnew.2

/-- No reference of a copy is one that was copied. -/
theorem disjoint (hcopied : Copied h h₁ refs copies) (hlive : ∀ r ∈ refs, r < h.next) {r : Nat}
    (hcopy : r ∈ copies) (href : r ∈ refs) : False := by
  have hfresh := hcopied.fresh r hcopy
  have hold := hlive r href
  omega

end Copied

/-! ### 3. Writing through references -/

theorem contents_writes_of_ne (h : Heap α) {updates : List (Nat × α)} {r : Nat}
    (hother : ∀ update ∈ updates, update.1 ≠ r) : (h.writes updates).contents r = h.contents r := by
  induction updates generalizing h with
  | nil => rfl
  | cons update updates ih =>
    have hne : r ≠ update.1 := (hother update (by simp)).symm
    have hrest := ih { h with contents := Function.update h.contents update.1 update.2 }
      fun update' hmem => hother update' (by simp [hmem])
    exact hrest.trans (Function.update_of_ne hne _ _)

/-- **Writes through some references are not seen through others.** -/
theorem map_contents_writes (h : Heap α) {refs written : List Nat} {updates : List (Nat × α)}
    (hdisjoint : ∀ r ∈ refs, r ∉ written) (hupdates : ∀ update ∈ updates, update.1 ∈ written) :
    refs.map (h.writes updates).contents = refs.map h.contents := by
  refine List.map_congr_left fun r hr => contents_writes_of_ne h fun update hmem heq => ?_
  exact hdisjoint r hr (heq ▸ hupdates update hmem)

/-! ### 4. Programs that copy -/

/-- **Copying a list element by element.**  `shape` is what a copy has in common with the
    original besides the contents of its references. -/
theorem wp_mapM_copied {ε β γ α : Type} {copy : β → EStateM ε (Heap α) β} {shape : β → γ}
    {refs : β → List Nat} {xs : List β}
    (hcopy : ∀ x ∈ xs, ∀ h : Heap α, (∀ r ∈ refs x, r < h.next) →
      Program.wp (copy x) (fun y h' => shape y = shape x ∧ Copied h h' (refs x) (refs y))
        (fun _ _ => False) h)
    (h : Heap α) (hlive : ∀ r ∈ xs.flatMap refs, r < h.next) :
    Program.wp (xs.mapM copy)
      (fun ys h' => ys.map shape = xs.map shape ∧
        Copied h h' (xs.flatMap refs) (ys.flatMap refs)) (fun _ _ => False) h := by
  induction xs generalizing h with
  | nil => simpa using Copied.nil h
  | cons x xs ih =>
    rw [List.flatMap_cons, List.forall_mem_append] at hlive
    simp only [List.mapM_cons, Program.wp_bind, Program.wp_pure]
    refine Program.wp_mono_ok (hcopy x (by simp) h hlive.1) ?_
    intro y h₁ hy
    have hlater : ∀ r ∈ xs.flatMap refs, r < h₁.next := fun r hr =>
      (hlive.2 r hr).trans_le hy.2.grown.next_le
    have hrest := ih (fun x' hx' => hcopy x' (by simp [hx'])) h₁ hlater
    refine Program.wp_mono_ok hrest ?_
    intro ys h₂ hys
    refine ⟨by simp [hy.1, hys.1], ?_⟩
    rw [List.flatMap_cons, List.flatMap_cons]
    exact hy.2.append hys.2 hlive.2

end Heap

end Edmm
