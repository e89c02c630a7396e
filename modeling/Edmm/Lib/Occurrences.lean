/-
  Edmm/Lib/Occurrences.lean
  =========================
  **Occurrences of a pattern in a text that comes in pieces.**

  A text is the concatenation of what its pieces decode to.  A window of pieces
  shows an occurrence of a pattern exactly if the occurrence begins and ends in it
  (`infix_window`), and where it begins and ends is said by the pieces of its first
  and last character (`PieceAt`).
-/
import Mathlib.Data.List.Infix

namespace Edmm

universe u v

variable {α : Type u} {τ : Type v}

/-! ## 1. Occurrences -/

/-- The pattern occurs in the text at this position. -/
def OccursAt (pattern text : List α) (position : Nat) : Prop := pattern <+: text.drop position

instance [DecidableEq α] (pattern text : List α) (position : Nat) :
    Decidable (OccursAt pattern text position) :=
  inferInstanceAs (Decidable (pattern <+: text.drop position))

theorem OccursAt.le_length {pattern text : List α} {position : Nat}
    (h : OccursAt pattern text position) (hpattern : pattern ≠ []) :
    position + pattern.length ≤ text.length := by
  have hlength := h.length_le
  have hpos := List.length_pos_iff.mpr hpattern
  rw [List.length_drop] at hlength
  omega

theorem infix_iff_occursAt {pattern text : List α} :
    pattern <:+: text ↔ ∃ position, OccursAt pattern text position := by
  constructor
  · rintro ⟨before, after, rfl⟩
    refine ⟨before.length, after, ?_⟩
    rw [List.append_assoc, List.drop_left]
  · rintro ⟨position, hbegins⟩
    exact hbegins.isInfix.trans (List.drop_suffix position text).isInfix

/-- An occurrence in the middle of a text is one of the text that fits there. -/
theorem occursAt_middle {pattern : List α} (hpattern : pattern ≠ []) (before text after : List α)
    (position : Nat) :
    OccursAt pattern text position ↔
      OccursAt pattern (before ++ (text ++ after)) (before.length + position) ∧
        position + pattern.length ≤ text.length := by
  have hdrop : position ≤ text.length →
      (before ++ (text ++ after)).drop (before.length + position) =
        text.drop position ++ after := by
    intro hle
    rw [← List.drop_drop, List.drop_left, List.drop_append_of_le_length hle]
  unfold OccursAt
  constructor
  · intro h
    have hle := OccursAt.le_length h hpattern
    refine ⟨?_, hle⟩
    rw [hdrop (by omega)]
    exact h.trans (List.prefix_append _ _)
  · rintro ⟨hbegins, hle⟩
    rw [hdrop (by omega)] at hbegins
    refine List.prefix_of_prefix_length_le hbegins (List.prefix_append _ _) ?_
    rw [List.length_drop]
    omega

/-! ## 2. Texts in pieces -/

section Pieces

variable (decode : List τ → List α)

/-- How many characters come before piece `k`. -/
def charsBefore (pieces : List τ) (k : Nat) : Nat := (decode (pieces.take k)).length

/-- The character at this position belongs to piece `i`. -/
def PieceAt (pieces : List τ) (i position : Nat) : Prop :=
  charsBefore decode pieces i ≤ position ∧ position < charsBefore decode pieces (i + 1)

variable {decode}

/-- The piece of a character of the text is one of the pieces. -/
theorem PieceAt.lt_length {pieces : List τ} {i position : Nat}
    (h : PieceAt decode pieces i position) : i < pieces.length := by
  by_contra hle
  have hall : ∀ k, pieces.length ≤ k → charsBefore decode pieces k = (decode pieces).length := by
    intro k hk
    unfold charsBefore
    rw [List.take_of_length_le hk]
  obtain ⟨hbegins, hends⟩ := h
  rw [hall i (by omega)] at hbegins
  rw [hall (i + 1) (by omega)] at hends
  omega

variable (hdecode : ∀ xs ys, decode (xs ++ ys) = decode xs ++ decode ys)
include hdecode

theorem decode_nil : decode [] = [] := by
  have h := hdecode [] []
  rw [List.append_nil] at h
  exact List.self_eq_append_right.mp h

theorem charsBefore_zero (pieces : List τ) : charsBefore decode pieces 0 = 0 := by
  unfold charsBefore
  rw [List.take_zero, decode_nil hdecode, List.length_nil]

theorem charsBefore_mono (pieces : List τ) {k l : Nat} (h : k ≤ l) :
    charsBefore decode pieces k ≤ charsBefore decode pieces l := by
  unfold charsBefore
  obtain ⟨extra, rfl⟩ := Nat.exists_eq_add_of_le h
  rw [List.take_add, hdecode, List.length_append]
  exact Nat.le_add_right _ _

/-- A piece is at or after `k` exactly if its characters are. -/
theorem PieceAt.le_iff {pieces : List τ} {i position k : Nat}
    (h : PieceAt decode pieces i position) :
    charsBefore decode pieces k ≤ position ↔ k ≤ i := by
  constructor
  · intro hk
    by_contra hlt
    have hmono := charsBefore_mono hdecode pieces (Nat.succ_le_of_lt (Nat.lt_of_not_le hlt))
    exact absurd (Nat.lt_of_lt_of_le h.2 hmono) (Nat.not_lt.mpr hk)
  · exact fun hk => Nat.le_trans (charsBefore_mono hdecode pieces hk) h.1

theorem PieceAt.lt_iff {pieces : List τ} {i position k : Nat}
    (h : PieceAt decode pieces i position) :
    position < charsBefore decode pieces k ↔ i < k := by
  rw [← Nat.not_le, ← Nat.not_le, h.le_iff hdecode]

/-- Every character belongs to a piece. -/
theorem exists_pieceAt {pieces : List τ} {position : Nat}
    (h : position < (decode pieces).length) :
    ∃ i < pieces.length, PieceAt decode pieces i position := by
  have hall : ∀ k, position < charsBefore decode pieces k →
      ∃ i < k, PieceAt decode pieces i position := by
    intro k
    induction k with
    | zero =>
      intro hzero
      rw [charsBefore_zero hdecode] at hzero
      exact absurd hzero (Nat.not_lt_zero _)
    | succ k ih =>
      intro hsucc
      by_cases hk : position < charsBefore decode pieces k
      · obtain ⟨i, hi, hat⟩ := ih hk
        exact ⟨i, Nat.lt_succ_of_lt hi, hat⟩
      · exact ⟨k, Nat.lt_succ_self k, Nat.not_lt.mp hk, hsucc⟩
  apply hall
  unfold charsBefore
  rwa [List.take_length]

/-- **A window of pieces** shows the occurrences of the whole text that begin and
    end in it. -/
theorem occursAt_window {pattern : List α} (hpattern : pattern ≠ []) (pieces : List τ) {m n : Nat}
    (hle : m ≤ n) (offset : Nat) :
    OccursAt pattern (decode ((pieces.take n).drop m)) offset ↔
      OccursAt pattern (decode pieces) (charsBefore decode pieces m + offset) ∧
        charsBefore decode pieces m + offset + pattern.length ≤ charsBefore decode pieces n := by
  have htake : pieces.take n = pieces.take m ++ (pieces.take n).drop m := by
    conv_lhs => rw [← List.take_append_drop m (pieces.take n)]
    rw [List.take_take, Nat.min_eq_left hle]
  have hpieces : decode pieces =
      decode (pieces.take m) ++ (decode ((pieces.take n).drop m) ++ decode (pieces.drop n)) := by
    rw [← List.append_assoc, ← hdecode, ← htake, ← hdecode, List.take_append_drop]
  have hend : charsBefore decode pieces n =
      charsBefore decode pieces m + (decode ((pieces.take n).drop m)).length := by
    unfold charsBefore
    conv_lhs => rw [htake]
    rw [hdecode, List.length_append]
  rw [occursAt_middle hpattern (decode (pieces.take m)) _ (decode (pieces.drop n)), ← hpieces, hend]
  apply and_congr_right
  intro _
  rw [Nat.add_assoc, Nat.add_le_add_iff_left]

end Pieces

end Edmm
