/-
  Edmm/Lib/Visited.lean
  =====================
  **Loops that remember what they have visited.**

  The invariant of such a loop speaks of the items that were visited so far; after the
  loop it holds of all items.
-/
import Edmm.Lib.Program

namespace Edmm

universe u v w

variable {α : Type u} {β : Type v}

/-- **Loop rule.** -/
theorem foldl_visited {step : β → α → β} {I : List α → β → Prop} {items : List α} {b : β}
    (hstart : I [] b)
    (hstep : ∀ visited a rest b, items = visited ++ a :: rest → I visited b →
      I (visited ++ [a]) (step b a)) : I items (items.foldl step b) := by
  have hrest : ∀ rest visited b, items = visited ++ rest → I visited b →
      I items (rest.foldl step b) := by
    intro rest
    induction rest with
    | nil =>
      intro visited b hitems hvisited
      rw [hitems, List.append_nil]
      exact hvisited
    | cons a rest ih =>
      intro visited b hitems hvisited
      apply ih (visited ++ [a])
      · simp [hitems]
      · exact hstep visited a rest b hitems hvisited
  exact hrest items [] b rfl hstart

namespace Program

variable {ε σ α β : Type w} {E : ε → σ → Prop} {s : σ}

/-- **Loop rule.** -/
theorem wp_foldlM_visited {step : β → α → EStateM ε σ β} {I : List α → β → σ → Prop}
    {items : List α}
    (hstep : ∀ visited a rest b s, items = visited ++ a :: rest → I visited b s →
      wp (step b a) (I (visited ++ [a])) E s)
    {b : β} (h : I [] b s) : wp (items.foldlM step b) (I items) E s := by
  have hloop : wp (items.foldlM step b)
      (fun b s => ∃ visited, items = visited ++ [] ∧ I visited b s) E s := by
    apply wp_foldlM_remaining (I := fun rest b s => ∃ visited, items = visited ++ rest ∧
      I visited b s) _ ⟨[], rfl, h⟩
    intro a rest b s hbefore
    obtain ⟨visited, hitems, hvisited⟩ := hbefore
    apply wp_mono (hstep visited a rest b s hitems hvisited) _ (fun _ _ he => he)
    intro b' s' hafter
    exact ⟨visited ++ [a], by simp [hitems], hafter⟩
  apply wp_mono hloop _ (fun _ _ he => he)
  intro b' s' hafter
  obtain ⟨visited, hitems, hvisited⟩ := hafter
  rw [hitems, List.append_nil]
  exact hvisited

end Program

end Edmm
