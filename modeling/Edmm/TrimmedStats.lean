/-
  Edmm/TrimmedStats.lean
  ======================
  **Trimmed means** (`stats`, `trimmed_stats`).

  The reported latencies are means of a sorted list without its `t` smallest and `t`
  largest values, `t = max(1, int(n * pct))`.  For at least three values and less than
  half of them trimmed at each end something is always left, and what is left depends
  on neither the order of the list nor the size of the values cut off
  (`trimmedStats_robust`).
-/
import Edmm.Lib.Python
import Edmm.Lib.Sorting
import Mathlib.Data.Rat.Floor
import Mathlib.Tactic.Linarith

namespace Edmm

open Sorting

inductive StatsError where
  | zeroDivisionError
deriving DecidableEq, Repr

variable {σ : Type}

/-! ## 1. The functions -/

section Functions

-- `variance ** 0.5`, the only step that leaves the rationals
variable (halfPower : ℚ → σ)

def quotient (a b : ℚ) : Except StatsError ℚ :=
  if b = 0 then .error .zeroDivisionError else .ok (a / b)

def stats (values : List ℚ) : Except StatsError (ℚ × σ) := do
  let n : ℚ := values.length
  let mean ← quotient values.sum n
  let variance ← quotient (values.map fun x => (x - mean) ^ 2).sum n
  return (mean, halfPower variance)

/-- `int(x)`, which drops the fraction. -/
def pythonInt (x : ℚ) : Int := if 0 ≤ x then x.floor else x.ceil

def trimmedStats (values : List ℚ) (pct : ℚ) : Except StatsError (ℚ × σ) :=
  let s := sorted values
  let trim : Int := max 1 (pythonInt (s.length * pct))
  stats halfPower (Python.slice s trim (-trim))

end Functions

/-! ## 2. What is averaged -/

/-- How many values are cut off at each end. -/
def trimCount (n : Nat) (pct : ℚ) : Nat := max 1 ⌊(n : ℚ) * pct⌋₊

theorem trim_eq (n : Nat) {pct : ℚ} (hpct : 0 ≤ pct) :
    max 1 (pythonInt (n * pct)) = (trimCount n pct : Int) := by
  have hnonneg : 0 ≤ (n : ℚ) * pct := mul_nonneg (Nat.cast_nonneg n) hpct
  have hfloor : pythonInt (n * pct) = ((⌊(n : ℚ) * pct⌋₊ : Nat) : Int) := by
    unfold pythonInt
    rw [if_pos hnonneg, Int.natCast_floor_eq_floor hnonneg]
    rfl
  rw [hfloor]
  unfold trimCount
  push_cast
  rfl

/-- Something is left. -/
theorem two_mul_trimCount_lt {n : Nat} {pct : ℚ} (hn : 3 ≤ n) (hpct : 0 ≤ pct)
    (hhalf : pct < 1 / 2) : 2 * trimCount n pct < n := by
  have hcast : (3 : ℚ) ≤ n := by exact_mod_cast hn
  have hfloor : (⌊(n : ℚ) * pct⌋₊ : ℚ) ≤ n * pct :=
    Nat.floor_le (mul_nonneg (Nat.cast_nonneg n) hpct)
  have hless : (n : ℚ) * pct < n * (1 / 2) := mul_lt_mul_of_pos_left hhalf (by linarith)
  have htwice : (2 * ⌊(n : ℚ) * pct⌋₊ : ℚ) < n := by linarith
  have htwice' : 2 * ⌊(n : ℚ) * pct⌋₊ < n := by exact_mod_cast htwice
  unfold trimCount
  omega

theorem slice_middle {t : Nat} (ht : 0 < t) (values : List ℚ) :
    Python.slice (sorted values) t (-t) = middle t values := by
  have hstop : Python.sliceBound (sorted values).length (-(t : Int)) = values.length - t := by
    unfold Python.sliceBound
    rw [if_pos (by omega), length_sorted]
    omega
  have hstart : ((sorted values).take (values.length - t)).drop
        (Python.sliceBound (sorted values).length t) =
      ((sorted values).take (values.length - t)).drop t := by
    unfold Python.sliceBound
    rw [if_neg (by omega), Int.toNat_natCast]
    rcases Nat.le_total t (sorted values).length with hle | hge
    · rw [Nat.min_eq_left hle]
    · have hlength : ((sorted values).take (values.length - t)).length ≤ t := by
        rw [List.length_take, length_sorted]
        rw [length_sorted] at hge
        omega
      rw [Nat.min_eq_right hge, List.drop_eq_nil_of_le hlength,
        List.drop_eq_nil_of_le (List.length_take_le' _ _)]
  unfold Python.slice middle
  rw [hstop, hstart]

theorem trimmedStats_eq (halfPower : ℚ → σ) (values : List ℚ) {pct : ℚ} (hpct : 0 ≤ pct) :
    trimmedStats halfPower values pct =
      stats halfPower (middle (trimCount values.length pct) values) := by
  unfold trimmedStats
  simp only [length_sorted, trim_eq _ hpct]
  rw [slice_middle (by unfold trimCount; omega)]

theorem stats_of_nonempty (halfPower : ℚ → σ) {values : List ℚ} (h : 0 < values.length) :
    ∃ sd, stats halfPower values = .ok (values.sum / values.length, sd) := by
  have hpos : (values.length : ℚ) ≠ 0 := by exact_mod_cast h.ne'
  unfold stats quotient
  simp only [if_neg hpos]
  exact ⟨_, rfl⟩

/-- A mean lies between the bounds of its values. -/
theorem mean_bounds {values : List ℚ} (h : 0 < values.length) {lo hi : ℚ}
    (hbounds : ∀ x ∈ values, lo ≤ x ∧ x ≤ hi) :
    lo ≤ values.sum / values.length ∧ values.sum / values.length ≤ hi := by
  have hpos : (0 : ℚ) < values.length := by exact_mod_cast h
  have hlow := List.card_nsmul_le_sum values lo fun x hx => (hbounds x hx).1
  have hhigh := List.sum_le_card_nsmul values hi fun x hx => (hbounds x hx).2
  rw [nsmul_eq_mul] at hlow hhigh
  rw [le_div_iff₀ hpos, div_le_iff₀ hpos]
  constructor <;> linarith

/-! ## 3. Moving the tails -/

/-- Which values are cut off. -/
inductive Part where
  | lowest
  | middle
  | highest
deriving DecidableEq, Repr

/-- A value, and what it is changed to. -/
structure Change where
  part : Part
  before : ℚ
  after : ℚ

/-- The changes of one part. -/
def partOf (changes : List Change) (part : Part) : List Change :=
  changes.filter fun change => change.part = part

/-- Of `t` smallest and `t` largest values of a list the former are decreased and the
    latter increased, or left as they are. -/
structure TailsMoved (t : Nat) (changes : List Change) : Prop where
  lowest : (partOf changes .lowest).length = t
  highest : (partOf changes .highest).length = t
  smallest : ∀ low ∈ changes, low.part = .lowest → ∀ other ∈ changes, other.part ≠ .lowest →
    low.before ≤ other.before
  largest : ∀ high ∈ changes, high.part = .highest → ∀ other ∈ changes, other.part ≠ .highest →
    other.before ≤ high.before
  decreased : ∀ low ∈ changes, low.part = .lowest → low.after ≤ low.before
  increased : ∀ high ∈ changes, high.part = .highest → high.before ≤ high.after
  kept : ∀ change ∈ changes, change.part = .middle → change.after = change.before

theorem mem_partOf {changes : List Change} {part : Part} {change : Change} :
    change ∈ partOf changes part ↔ change ∈ changes ∧ change.part = part := by
  simp [partOf]

/-- The parts together are the list. -/
theorem parts_perm (changes : List Change) :
    changes.Perm (partOf changes .lowest ++
      (partOf changes .middle ++ partOf changes .highest)) := by
  induction changes with
  | nil => exact List.Perm.nil
  | cons change changes ih =>
    rcases change with ⟨_ | _ | _, before, after⟩
    · simpa [partOf] using ih
    · refine (ih.cons _).trans ?_
      simpa [partOf] using List.perm_middle.symm
    · refine (ih.cons _).trans ?_
      simpa [partOf, ← List.append_assoc] using List.perm_middle.symm

/-- With the tails at both ends, the values between them are left. -/
theorem middle_of_tails {t : Nat} {changes : List Change} {value : Change → ℚ}
    (hlow : (partOf changes .lowest).length = t) (hhigh : (partOf changes .highest).length = t)
    (hsmallest : ∀ low ∈ changes, low.part = .lowest → ∀ other ∈ changes,
      other.part ≠ .lowest → value low ≤ value other)
    (hlargest : ∀ high ∈ changes, high.part = .highest → ∀ other ∈ changes,
      other.part ≠ .highest → value other ≤ value high) :
    middle t (changes.map value) = sorted ((partOf changes .middle).map value) := by
  rw [middle_congr t ((parts_perm changes).map value)]
  simp only [List.map_append]
  refine middle_of_parts (by simpa using hlow) (by simpa using hhigh) ?_ ?_
  · intro a ha b hb
    obtain ⟨low, hmem, rfl⟩ := List.mem_map.mp ha
    rw [← List.map_append] at hb
    obtain ⟨other, hother, rfl⟩ := List.mem_map.mp hb
    have hlowest := mem_partOf.mp hmem
    rcases List.mem_append.mp hother with hmiddle | hhighest
    · have hpart := mem_partOf.mp hmiddle
      exact hsmallest low hlowest.1 hlowest.2 other hpart.1 (by simp [hpart.2])
    · have hpart := mem_partOf.mp hhighest
      exact hsmallest low hlowest.1 hlowest.2 other hpart.1 (by simp [hpart.2])
  · intro a ha b hb
    obtain ⟨other, hother, rfl⟩ := List.mem_map.mp ha
    obtain ⟨high, hmem, rfl⟩ := List.mem_map.mp hb
    have hhighest := mem_partOf.mp hmem
    have hpart := mem_partOf.mp hother
    exact hlargest high hhighest.1 hhighest.2 other hpart.1 (by simp [hpart.2])

namespace TailsMoved

variable {t : Nat} {changes : List Change}

theorem not_lowest_le (h : TailsMoved t changes) {change : Change} (hmem : change ∈ changes)
    (hpart : change.part ≠ .lowest) : change.before ≤ change.after := by
  cases hcase : change.part with
  | lowest => exact absurd hcase hpart
  | middle => exact le_of_eq (h.kept change hmem hcase).symm
  | highest => exact h.increased change hmem hcase

theorem not_highest_le (h : TailsMoved t changes) {change : Change} (hmem : change ∈ changes)
    (hpart : change.part ≠ .highest) : change.after ≤ change.before := by
  cases hcase : change.part with
  | lowest => exact h.decreased change hmem hcase
  | middle => exact le_of_eq (h.kept change hmem hcase)
  | highest => exact absurd hcase hpart

/-- **The middle does not see the tails move.** -/
theorem middle_eq (h : TailsMoved t changes) :
    middle t (changes.map Change.after) = middle t (changes.map Change.before) := by
  have hbefore : middle t (changes.map Change.before) =
      sorted ((partOf changes .middle).map Change.before) :=
    middle_of_tails h.lowest h.highest h.smallest h.largest
  have hafter : middle t (changes.map Change.after) =
      sorted ((partOf changes .middle).map Change.after) := by
    refine middle_of_tails h.lowest h.highest ?_ ?_
    · intro low hlow hlowest other hother hpart
      calc low.after ≤ low.before := h.decreased low hlow hlowest
        _ ≤ other.before := h.smallest low hlow hlowest other hother hpart
        _ ≤ other.after := h.not_lowest_le hother hpart
    · intro high hhigh hhighest other hother hpart
      calc other.after ≤ other.before := h.not_highest_le hother hpart
        _ ≤ high.before := h.largest high hhigh hhighest other hother hpart
        _ ≤ high.after := h.increased high hhigh hhighest
  have hsame : (partOf changes .middle).map Change.after =
      (partOf changes .middle).map Change.before :=
    List.map_congr_left fun change hchange =>
      h.kept change (mem_partOf.mp hchange).1 (mem_partOf.mp hchange).2
  rw [hafter, hbefore, hsame]

end TailsMoved

/-! ## 4. Robustness -/

/-- What is trimmed to lies between the ends of the trimmed list. -/
theorem middle_mean_bounds {values : List ℚ} {t : Nat} (ht : 2 * t < values.length) :
    ∃ lo hi, (sorted values)[t]? = some lo ∧ (sorted values)[values.length - 1 - t]? = some hi ∧
      lo ≤ (middle t values).sum / (middle t values).length ∧
      (middle t values).sum / (middle t values).length ≤ hi := by
  have hlow : t < (sorted values).length := by
    rw [length_sorted]
    omega
  have hhigh : values.length - 1 - t < (sorted values).length := by
    rw [length_sorted]
    omega
  have hpos : 0 < (middle t values).length := by
    rw [length_middle]
    omega
  have hlo := List.getElem?_eq_getElem hlow
  have hhi := List.getElem?_eq_getElem hhigh
  have hbounds := mean_bounds hpos fun x hx => mem_middle_bounds hlo hhi hx
  exact ⟨_, _, hlo, hhi, hbounds⟩

/-- **Trimmed means are defined and robust.**  With at least three values and less than
    half of them trimmed at each end, the mean is that of the `n - 2t` values in the
    middle of the sorted list, between the smallest and the largest of them.  The order
    of the values does not matter, nor does moving the `t` largest up or the `t`
    smallest down. -/
theorem trimmedStats_robust (halfPower : ℚ → σ) (values : List ℚ) (pct : ℚ) {n t : Nat}
    (hlength : values.length = n) (htrim : t = max 1 ⌊(n : ℚ) * pct⌋₊) (hn : 3 ≤ n)
    (hpct : 0 ≤ pct) (hhalf : pct < 1 / 2) :
    (∃ mean sd lo hi,
      trimmedStats halfPower values pct = .ok (mean, sd) ∧
      0 < n - 2 * t ∧
      mean = ((List.range (n - 2 * t)).map fun i => (sorted values)[t + i]?.getD 0).sum /
        (n - 2 * t : Nat) ∧
      (sorted values)[t]? = some lo ∧ (sorted values)[n - 1 - t]? = some hi ∧
      lo ≤ mean ∧ mean ≤ hi) ∧
    (∀ values' : List ℚ, values'.Perm values →
      trimmedStats halfPower values' pct = trimmedStats halfPower values pct) ∧
    (∀ changes : List Change, changes.map Change.before = values → TailsMoved t changes →
      trimmedStats halfPower (changes.map Change.after) pct =
        trimmedStats halfPower values pct) := by
  subst hlength
  obtain rfl : t = trimCount values.length pct := htrim
  have hleft := two_mul_trimCount_lt hn hpct hhalf
  refine ⟨?_, ?_, ?_⟩
  · have hlength := length_middle (trimCount values.length pct) values
    have hpos : 0 < (middle (trimCount values.length pct) values).length := by omega
    obtain ⟨lo, hi, hlo, hhi, hbounds⟩ := middle_mean_bounds hleft
    obtain ⟨sd, hstats⟩ := stats_of_nonempty halfPower hpos
    rw [← trimmedStats_eq halfPower values hpct] at hstats
    refine ⟨_, sd, lo, hi, hstats, by omega, ?_, hlo, hhi, hbounds⟩
    rw [hlength, middle_eq_map _ _ 0]
  · intro values' hperm
    rw [trimmedStats_eq halfPower values' hpct, trimmedStats_eq halfPower values hpct,
      hperm.length_eq, middle_congr _ hperm]
  · intro changes hbefore hmoved
    have hlength : (changes.map Change.after).length = values.length := by
      simp [← hbefore]
    rw [trimmedStats_eq halfPower _ hpct, trimmedStats_eq halfPower values hpct, hlength,
      hmoved.middle_eq, hbefore]

/-- Four values, of which the smallest and the largest are cut off. -/
theorem trimmedStats_robust_four :
    trimmedStats (fun variance => variance) [20, 1, -5, 3] (1 / 10) = .ok (2, 1) := by
  have hmoved : TailsMoved 1
      [⟨.highest, 10, 20⟩, ⟨.middle, 1, 1⟩, ⟨.lowest, 0, -5⟩, ⟨.middle, 3, 3⟩] := by
    constructor <;> decide +kernel
  have htrim : 1 = max 1 ⌊((4 : Nat) : ℚ) * (1 / 10)⌋₊ := by
    rw [Nat.floor_eq_zero.mpr (by norm_num)]
    rfl
  have hrobust := trimmedStats_robust (fun variance => variance) [10, 1, 0, 3] (1 / 10) rfl
    htrim (by decide) (by norm_num) (by norm_num)
  have hsorted : sorted [10, 1, 0, 3] = ([0, 1, 3, 10] : List ℚ) :=
    sorted_eq_of_perm (by decide +kernel) (by decide +kernel)
  refine (hrobust.2.2 _ rfl hmoved).trans ?_
  unfold trimmedStats
  rw [hsorted]
  decide +kernel

end Edmm
