/-
  Edmm/Lib/Python.lean
  ====================
  **Pieces of Python that the modelled code is written with.**

  An exception carries the text it is raised with; a bare `assert` has none and
  carries the source text of its condition.  `KeyError` and `IndexError` are
  raised by the containers themselves.  A slice clamps its bounds to the list,
  and a negative bound counts from the end.  A `while` loop is run with fuel, and
  returns the same from some fuel on if its test ever fails.
-/
import Mathlib.Data.List.Basic
import Mathlib.Data.Nat.Find
import Mathlib.Logic.Function.Iterate
import Mathlib.Order.Lattice

namespace Edmm

inductive PyError where
  | valueError (message : String)
  | runtimeError (message : String)
  | assertionError (message : String)
  | assertFailed (condition : String)
  | keyError
  | indexError
deriving DecidableEq, Repr

namespace Python

/-- Where a slice bound falls in a list of this length. -/
def sliceBound (length : Nat) (bound : Int) : Nat :=
  if bound < 0 then (bound + length).toNat else min bound.toNat length

theorem sliceBound_of_nonneg {length : Nat} {bound : Int} (h : 0 ≤ bound) :
    sliceBound length bound = min bound.toNat length := by
  rw [sliceBound, if_neg (by omega)]

/-- `items[start:stop]` -/
def slice {α : Type} (items : List α) (start stop : Int) : List α :=
  (items.take (sliceBound items.length stop)).drop (sliceBound items.length start)

/-- A slice between two positions of the list. -/
theorem slice_natCast {α : Type} (items : List α) (start stop : Nat) :
    slice items start stop = (items.take stop).drop start := by
  have hbound : ∀ bound : Nat, sliceBound items.length bound = min bound items.length := by
    intro bound
    rw [sliceBound_of_nonneg (Int.natCast_nonneg bound), Int.toNat_natCast]
  rw [slice, hbound, hbound, ← List.take_eq_take_min]
  rcases Nat.le_total start items.length with hle | hge
  · rw [Nat.min_eq_left hle]
  · rw [Nat.min_eq_right hge, List.drop_eq_nil_of_le (by simp), List.drop_eq_nil_of_le (by simp; omega)]

/-- `items[:stop]` is the first `stop` items, where there are that many. -/
theorem slice_zero_isPrefix {α : Type} (items : List α) (stop : Int) :
    slice items 0 stop <+: items := by
  simpa [slice, sliceBound] using List.take_prefix _ items

theorem length_slice_zero {α : Type} {items : List α} {stop : Int} (hstop : 0 ≤ stop)
    (hlength : stop ≤ items.length) : ((slice items 0 stop).length : Int) = stop := by
  obtain ⟨stop, rfl⟩ := Int.eq_ofNat_of_zero_le hstop
  have hslice : slice items 0 stop = (items.take stop).drop 0 := slice_natCast items 0 stop
  rw [hslice, List.drop_zero, List.length_take, Nat.min_eq_left (by omega)]

/-- `range(start, stop, step)` for a positive step. -/
def range (start stop step : Nat) : List Nat :=
  List.range' start ((stop - start + step - 1) / step) step

/-- What `del items[start:]` leaves. -/
def deleteFrom {α : Type} (items : List α) (start : Int) : List α :=
  items.take (sliceBound items.length start)

/-- The first of the items with the largest key, as `max(items, key=...)`. -/
def maxBy {α : Type} (before : α → α → Bool) : List α → Option α
  | [] => none
  | item :: rest => some (rest.foldl (fun best next => if before best next then next else best) item)

theorem maxBy_mem {α : Type} {before : α → α → Bool} {items : List α} {best : α}
    (h : maxBy before items = some best) : best ∈ items := by
  cases items with
  | nil => cases h
  | cons item rest =>
    simp only [maxBy, Option.some.injEq] at h
    subst h
    suffices hfold : ∀ first : α,
        rest.foldl (fun best next => if before best next then next else best) first ∈
          first :: rest from hfold item
    induction rest with
    | nil => intro first; exact List.mem_cons_self
    | cons next rest ih =>
      intro first
      have hrest := ih (if before first next then next else first)
      rw [List.foldl_cons]
      rcases List.mem_cons.mp hrest with hfirst | htail
      · rw [hfirst]
        split
        · exact List.mem_cons_of_mem _ List.mem_cons_self
        · exact List.mem_cons_self
      · exact List.mem_cons_of_mem _ (List.mem_cons_of_mem _ htail)

/-- `max(items, key=key)` has the greatest key. -/
theorem le_maxBy {α : Type} {β : Type} [LinearOrder β] {before : α → α → Bool} (key : α → β)
    {items : List α} {best : α} (hbefore : ∀ a b, before a b = true ↔ key a < key b)
    (h : maxBy before items = some best) : ∀ item ∈ items, key item ≤ key best := by
  cases items with
  | nil => cases h
  | cons item rest =>
    simp only [maxBy, Option.some.injEq] at h
    subst h
    suffices hfold : ∀ first : α, ∀ other ∈ first :: rest,
        key other ≤ key (rest.foldl (fun best next => if before best next then next else best) first)
      from hfold item
    induction rest with
    | nil =>
      intro first other hother
      rw [List.mem_singleton.mp hother]
      exact le_refl _
    | cons next rest ih =>
      intro first other hother
      rw [List.foldl_cons]
      -- the winner of the first two is at least as good as both
      have hwinner : key first ≤ key (if before first next then next else first) ∧
          key next ≤ key (if before first next then next else first) := by
        split
        · rename_i hless
          exact ⟨((hbefore first next).mp hless).le, le_refl _⟩
        · rename_i hnot
          exact ⟨le_refl _, not_lt.mp fun hless => hnot ((hbefore first next).mpr hless)⟩
      have hbest := ih (if before first next then next else first) _ List.mem_cons_self
      simp only [List.mem_cons] at hother
      rcases hother with rfl | rfl | hrest
      · exact hwinner.1.trans hbest
      · exact hwinner.2.trans hbest
      · exact ih _ other (List.mem_cons_of_mem _ hrest)

/-- `text * count` -/
def repeated (text : String) : Nat → String
  | 0 => ""
  | count + 1 => repeated text count ++ text

/-- `while test: body` on a state, for at most `fuel` tests. -/
def whileLoop {σ : Type} (test : σ → Bool) (body : σ → σ) : Nat → σ → Option σ
  | 0, _ => none
  | fuel + 1, s => if test s then whileLoop test body fuel (body s) else some s

section WhileLoop

variable {σ : Type} {test : σ → Bool} {body : σ → σ}

theorem whileLoop_of_first {n fuel : Nat} {s : σ} (hstop : test (body^[n] s) = false)
    (hgo : ∀ i < n, test (body^[i] s) = true) (hfuel : n < fuel) :
    whileLoop test body fuel s = some (body^[n] s) := by
  induction n generalizing fuel s with
  | zero =>
    obtain ⟨fuel, rfl⟩ := Nat.exists_eq_succ_of_ne_zero hfuel.ne'
    have hs : test s = false := hstop
    simp [whileLoop, hs]
  | succ n ih =>
    obtain ⟨fuel, rfl⟩ := Nat.exists_eq_succ_of_ne_zero (Nat.zero_lt_of_lt hfuel).ne'
    have hs : test s = true := hgo 0 n.succ_pos
    have hrest := ih (s := body s) hstop (fun i hi => hgo (i + 1) (by omega))
      (Nat.lt_of_succ_lt_succ hfuel)
    simp only [whileLoop, hs, if_true]
    exact hrest

/-- **A loop whose test fails at some time ends**, the first time it fails. -/
theorem whileLoop_ends {s : σ} (hends : ∃ n, test (body^[n] s) = false) :
    ∃ n, test (body^[n] s) = false ∧
      ∀ fuel, n < fuel → whileLoop test body fuel s = some (body^[n] s) := by
  have hfirst : ∀ i < Nat.find hends, test (body^[i] s) = true := fun i hi => by
    simpa using Nat.find_min hends hi
  exact ⟨Nat.find hends, Nat.find_spec hends, fun fuel hfuel =>
    whileLoop_of_first (Nat.find_spec hends) hfirst hfuel⟩

end WhileLoop

end Python

end Edmm
