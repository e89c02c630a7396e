/-
  Edmm/Lib/HashChain.lean
  =======================
  **Chained hashes of the blocks of a list.**

  A list is cut into blocks of `blockSize` items.  The hash of a block covers its
  items and the hash of the block before it, so it stands for everything up to the
  end of the block.  A chain of hashes is *faithful* to a list when each hash is
  the one of that prefix of the list; it then depends on the hashed blocks only,
  and can be extended by hashing the blocks that follow.
-/
import Mathlib.Data.List.Basic
import Mathlib.Logic.Function.Basic

namespace Edmm

namespace HashChain

universe u v

variable {τ : Type u} {η : Type v} (hash : Option η → List τ → η) (blockSize : Nat)

/-- The chained hash of the first `n` blocks, `previous` being the one before them. -/
def chainedHash : Nat → Option η → List τ → Option η
  | 0, previous, _ => previous
  | n + 1, previous, items =>
      chainedHash n (some (hash previous (items.take blockSize))) (items.drop blockSize)

/-- The chained hashes of the first `n` blocks. -/
def chain : Nat → Option η → List τ → List η
  | 0, _, _ => []
  | n + 1, previous, items =>
      hash previous (items.take blockSize) ::
        chain n (some (hash previous (items.take blockSize))) (items.drop blockSize)

/-- The hashes of the full blocks beyond the hashed ones. -/
def newHashes (hashes : List η) (items : List τ) : List η :=
  chain hash blockSize (items.length / blockSize - hashes.length) hashes.getLast?
    (items.drop (hashes.length * blockSize))

/-- Every hash is the chained hash of a prefix of the items. -/
structure Faithful (hashes : List η) (items : List τ) : Prop where
  hashed : ∀ i < hashes.length,
    hashes[i]? = chainedHash hash blockSize (i + 1) none (items.take ((i + 1) * blockSize))
  full : hashes.length ≤ items.length / blockSize

/-! ### 1. Chains -/

@[simp] theorem length_chain (n : Nat) (previous : Option η) (items : List τ) :
    (chain hash blockSize n previous items).length = n := by
  induction n generalizing previous items with
  | zero => rfl
  | succ n ih => simp [chain, ih]

/-- The `i`-th hash of a chain. -/
theorem getElem?_chain {n i : Nat} (h : i < n) (previous : Option η) (items : List τ) :
    (chain hash blockSize n previous items)[i]? =
      chainedHash hash blockSize (i + 1) previous items := by
  induction n generalizing i previous items with
  | zero => omega
  | succ n ih =>
    cases i with
    | zero => simp [chain, chainedHash]
    | succ i =>
      have hi : i < n := by omega
      simp only [chain, List.getElem?_cons_succ, ih hi]
      rfl

/-- The last hash of a chain. -/
theorem getLast?_chain (n : Nat) (items : List τ) :
    (chain hash blockSize n none items).getLast? = chainedHash hash blockSize n none items := by
  cases n with
  | zero => rfl
  | succ n =>
    rw [List.getLast?_eq_getElem?, length_chain]
    exact getElem?_chain hash blockSize (Nat.lt_succ_self n) none items

theorem chain_append (m n : Nat) (previous : Option η) (items : List τ) :
    chain hash blockSize (m + n) previous items =
      chain hash blockSize m previous items ++
        chain hash blockSize n (chainedHash hash blockSize m previous items)
          (items.drop (m * blockSize)) := by
  induction m generalizing previous items with
  | zero => simp [chain, chainedHash]
  | succ m ih =>
    have hcount : m + 1 + n = (m + n) + 1 := by omega
    have hdrop : (m + 1) * blockSize = blockSize + m * blockSize := by
      rw [Nat.succ_mul, Nat.add_comm]
    rw [hcount, hdrop, ← List.drop_drop]
    simp only [chain, chainedHash, ih, List.cons_append]

/-- A chained hash depends on the hashed blocks only. -/
theorem chainedHash_congr {n : Nat} {items items' : List τ} (previous : Option η)
    (h : items.take (n * blockSize) = items'.take (n * blockSize)) :
    chainedHash hash blockSize n previous items = chainedHash hash blockSize n previous items' := by
  induction n generalizing previous items items' with
  | zero => rfl
  | succ n ih =>
    have hsize : (n + 1) * blockSize = n * blockSize + blockSize := Nat.succ_mul n blockSize
    have hfirst : items.take blockSize = items'.take blockSize := by
      have hle : blockSize ≤ (n + 1) * blockSize := by omega
      have htake := congrArg (List.take blockSize) h
      rwa [List.take_take, List.take_take, Nat.min_eq_left hle] at htake
    have hrest : (items.drop blockSize).take (n * blockSize) =
        (items'.drop blockSize).take (n * blockSize) := by
      have hdrop := congrArg (List.drop blockSize) h
      rwa [List.drop_take, List.drop_take, hsize, Nat.add_sub_cancel] at hdrop
    simp only [chainedHash, hfirst]
    exact ih _ hrest

/-- If `hash` has no collisions, a chained hash determines the hashed blocks. -/
theorem chainedHash_injective (hinjective : Function.Injective2 hash) (n : Nat)
    (previous previous' : Option η) (items items' : List τ)
    (hlength : items.length = n * blockSize) (hlength' : items'.length = n * blockSize)
    (h : chainedHash hash blockSize n previous items =
      chainedHash hash blockSize n previous' items') :
    previous = previous' ∧ items = items' := by
  induction n generalizing items items' previous previous' with
  | zero =>
    have hnil : items = [] := List.eq_nil_of_length_eq_zero (by omega)
    have hnil' : items' = [] := List.eq_nil_of_length_eq_zero (by omega)
    exact ⟨h, by rw [hnil, hnil']⟩
  | succ n ih =>
    have hsize : (n + 1) * blockSize = n * blockSize + blockSize := Nat.succ_mul n blockSize
    obtain ⟨hfirst, hrest⟩ := ih _ _ (items.drop blockSize) (items'.drop blockSize)
      (by rw [List.length_drop]; omega) (by rw [List.length_drop]; omega) h
    obtain ⟨hprevious, htake⟩ := hinjective (Option.some.inj hfirst)
    refine ⟨hprevious, ?_⟩
    rw [← List.take_append_drop blockSize items, ← List.take_append_drop blockSize items', htake,
      hrest]

/-- Peeling off the last block instead of the first. -/
theorem chainedHash_succ (n : Nat) (previous : Option η) (items : List τ) :
    chainedHash hash blockSize (n + 1) previous items =
      some (hash (chainedHash hash blockSize n previous items)
        ((items.drop (n * blockSize)).take blockSize)) := by
  induction n generalizing previous items with
  | zero => simp [chainedHash]
  | succ n ih =>
    have hdrop : (n + 1) * blockSize = blockSize + n * blockSize := by
      rw [Nat.succ_mul, Nat.add_comm]
    rw [hdrop, ← List.drop_drop]
    exact ih _ _

/-- If `hash` has no collisions, equal chained hashes cover equally many blocks. -/
theorem chainedHash_count (hinjective : Function.Injective2 hash) {m n : Nat}
    {items items' : List τ}
    (h : chainedHash hash blockSize m none items = chainedHash hash blockSize n none items') :
    m = n := by
  induction m generalizing n with
  | zero =>
    cases n with
    | zero => rfl
    | succ n =>
      rw [chainedHash_succ] at h
      cases h
  | succ m ih =>
    cases n with
    | zero =>
      rw [chainedHash_succ] at h
      cases h
    | succ n =>
      rw [chainedHash_succ, chainedHash_succ, Option.some.injEq] at h
      rw [ih (hinjective h).1]

/-- If `hash` has no collisions, chained hashes of full blocks are equal exactly if
    the blocks are. -/
theorem chainedHash_eq_iff (hinjective : Function.Injective2 hash) {n : Nat}
    {items items' : List τ} (hfull : n * blockSize ≤ items.length)
    (hfull' : n * blockSize ≤ items'.length) :
    chainedHash hash blockSize n none items = chainedHash hash blockSize n none items' ↔
      items.take (n * blockSize) = items'.take (n * blockSize) := by
  have htake : ∀ items : List τ, chainedHash hash blockSize n none items =
      chainedHash hash blockSize n none (items.take (n * blockSize)) := fun items =>
    chainedHash_congr hash blockSize none (by rw [List.take_take, Nat.min_self])
  constructor
  · intro h
    rw [htake items, htake items'] at h
    refine (chainedHash_injective hash blockSize hinjective n none none _ _ ?_ ?_ h).2
    · rw [List.length_take, Nat.min_eq_left hfull]
    · rw [List.length_take, Nat.min_eq_left hfull']
  · exact chainedHash_congr hash blockSize none

/-! ### 2. Faithful chains -/

variable {hash blockSize}

/-- A faithful chain is the chain of its blocks. -/
theorem faithful_iff {hashes : List η} {items : List τ} :
    Faithful hash blockSize hashes items ↔
      hashes = chain hash blockSize hashes.length none items ∧
        hashes.length ≤ items.length / blockSize := by
  have hbegins : ∀ i, chainedHash hash blockSize (i + 1) none (items.take ((i + 1) * blockSize)) =
      chainedHash hash blockSize (i + 1) none items := fun i =>
    chainedHash_congr hash blockSize none (by rw [List.take_take, Nat.min_self])
  constructor
  · intro h
    refine ⟨List.ext_getElem? fun i => ?_, h.full⟩
    by_cases hi : i < hashes.length
    · rw [getElem?_chain hash blockSize hi, h.hashed i hi, hbegins]
    · rw [List.getElem?_eq_none (by omega), List.getElem?_eq_none (by rw [length_chain]; omega)]
  · rintro ⟨hchain, hfull⟩
    refine ⟨fun i hi => ?_, hfull⟩
    rw [hbegins, ← getElem?_chain hash blockSize hi, ← hchain]

theorem Faithful.nil (items : List τ) : Faithful hash blockSize [] items :=
  { hashed := fun i hi => by cases hi
    full := Nat.zero_le _ }

/-- Hashing the new blocks keeps a chain faithful. -/
theorem Faithful.newHashes {hashes : List η} {items : List τ}
    (h : Faithful hash blockSize hashes items) :
    Faithful hash blockSize (hashes ++ newHashes hash blockSize hashes items) items := by
  obtain ⟨hchain, hfull⟩ := faithful_iff.mp h
  have hlast : hashes.getLast? = chainedHash hash blockSize hashes.length none items := by
    have hgetLast := getLast?_chain hash blockSize hashes.length items
    rwa [← hchain] at hgetLast
  have hlength : (hashes ++ HashChain.newHashes hash blockSize hashes items).length =
      hashes.length + (items.length / blockSize - hashes.length) := by
    simp [HashChain.newHashes]
  refine faithful_iff.mpr ⟨?_, by omega⟩
  rw [hlength, chain_append, ← hchain, ← hlast]
  rfl

/-- What stands before the last hashes is faithful without them. -/
theorem Faithful.of_append {hashes added : List η} {items : List τ}
    (h : Faithful hash blockSize (hashes ++ added) items) :
    Faithful hash blockSize hashes items := by
  have hlength : hashes.length ≤ (hashes ++ added).length := by simp
  constructor
  · intro i hi
    rw [← h.hashed i (Nat.lt_of_lt_of_le hi hlength), List.getElem?_append_left hi]
  · exact Nat.le_trans hlength h.full

/-- A chain stays faithful when the items change behind the hashed blocks. -/
theorem Faithful.congr {hashes : List η} {items items' : List τ}
    (h : Faithful hash blockSize hashes items)
    (hsame : items.take (hashes.length * blockSize) = items'.take (hashes.length * blockSize))
    (hfull : hashes.length ≤ items'.length / blockSize) :
    Faithful hash blockSize hashes items' := by
  refine ⟨fun i hi => ?_, hfull⟩
  have hle : (i + 1) * blockSize ≤ hashes.length * blockSize := Nat.mul_le_mul_right _ hi
  have htake := congrArg (List.take ((i + 1) * blockSize)) hsame
  rw [List.take_take, List.take_take, Nat.min_eq_left hle] at htake
  rw [h.hashed i hi, htake]

theorem Faithful.length_le {hashes : List η} {items : List τ}
    (h : Faithful hash blockSize hashes items) : hashes.length * blockSize ≤ items.length :=
  Nat.le_trans (Nat.mul_le_mul_right _ h.full) (Nat.div_mul_le_self _ _)

/-- A chain that is faithful to more items than before is faithful to these. -/
theorem Faithful.append {hashes : List η} {items : List τ}
    (h : Faithful hash blockSize hashes items) (added : List τ) :
    Faithful hash blockSize hashes (items ++ added) := by
  apply h.congr
  · rw [List.take_append_of_le_length h.length_le]
  · refine Nat.le_trans h.full (Nat.div_le_div_right ?_)
    simp

/-- The hashed blocks alone make a chain faithful. -/
theorem Faithful.of_prefix {hashes : List η} {items items' : List τ}
    (h : Faithful hash blockSize hashes items)
    (hbegins : items.take (hashes.length * blockSize) <+: items') :
    Faithful hash blockSize hashes items' := by
  obtain ⟨rest, rfl⟩ := hbegins
  have hlength : (items.take (hashes.length * blockSize)).length = hashes.length * blockSize := by
    rw [List.length_take, Nat.min_eq_left h.length_le]
  apply h.congr
  · rw [List.take_append_of_le_length (Nat.le_of_eq hlength.symm), List.take_take, Nat.min_self]
  · rcases Nat.eq_zero_or_pos blockSize with rfl | hpositive
    · simpa using h.full
    · rw [Nat.le_div_iff_mul_le hpositive, List.length_append, hlength]
      exact Nat.le_add_right _ _

/-- If `hash` has no collisions, one chain is faithful to two lists only if they
    agree on the hashed blocks. -/
theorem Faithful.same_blocks (hinjective : Function.Injective2 hash) {hashes : List η}
    {items items' : List τ} (h : Faithful hash blockSize hashes items)
    (h' : Faithful hash blockSize hashes items') :
    items.take (hashes.length * blockSize) = items'.take (hashes.length * blockSize) := by
  cases hcount : hashes.length with
  | zero => simp
  | succ n =>
    have hn : n < hashes.length := by omega
    have hlength := h.length_le
    have hlength' := h'.length_le
    rw [hcount] at hlength hlength'
    refine (chainedHash_injective hash blockSize hinjective (n + 1) none none _ _ ?_ ?_ ?_).2
    · rw [List.length_take, Nat.min_eq_left hlength]
    · rw [List.length_take, Nat.min_eq_left hlength']
    · rw [← h.hashed n hn, ← h'.hashed n hn]

end HashChain

end Edmm
