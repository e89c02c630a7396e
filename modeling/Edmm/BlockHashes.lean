/-
  Edmm/BlockHashes.lean
  =====================
  **Block hashes of a prompt** (`compute_block_hashes`).

  The benchmarks hash a prompt the way the prefix cache does: block after block, each
  hash over the block's tokens and the hash before it, and a partial last block is
  left out.  Without collisions the hashes of two prompts agree at a block exactly if
  the prompts agree up to its end (`computeBlockHashes_prefix_iff`), so a change in
  one block changes every later hash.
-/
import Edmm.Lib.HashChain
import Edmm.Lib.Python

namespace Edmm

variable {τ η : Type}

/-! ## 1. The loop -/

section Functions

-- `PrefixCachingBlock.hash_block_tokens(is_first_block, prev_block_hash, cur_block_token_ids)`
variable (hashBlockTokens : Bool → Option η → List τ → η) (blockSize : Nat)

/-- The `for i in range(0, len(token_ids), block_size)` loop. -/
def hashBlocks (tokenIds : List τ) : List Nat → List η → Option η → List η
  | [], hashes, _ => hashes
  | i :: rest, hashes, prevHash =>
      let blockTokens := Python.slice tokenIds i ((i + blockSize : Nat) : Int)
      if blockTokens.length < blockSize then hashes
      else
        let h := hashBlockTokens (i == 0) prevHash blockTokens
        hashBlocks tokenIds rest (hashes ++ [h]) (some h)

def computeBlockHashes (tokenIds : List τ) : List η :=
  hashBlocks hashBlockTokens blockSize tokenIds (Python.range 0 tokenIds.length blockSize) [] none

/-- The flag says no more than the hash before the block. -/
def hashAfter (previous : Option η) (tokens : List τ) : η :=
  hashBlockTokens previous.isNone previous tokens

/-- The tokens of a block. -/
def block (tokenIds : List τ) (j : Nat) : List τ := (tokenIds.drop (j * blockSize)).take blockSize

end Functions

/-! ## 2. The loop computes the chain of the full blocks -/

section

variable {hashBlockTokens : Bool → Option η → List τ → η} {blockSize : Nat}

theorem slice_block (tokenIds : List τ) (i : Nat) :
    Python.slice tokenIds i ((i + blockSize : Nat) : Int) =
      (tokenIds.drop i).take blockSize := by
  rw [Python.slice_natCast, List.drop_take, Nat.add_sub_cancel_left]

/-- **The loop, from block `j` on.** -/
theorem hashBlocks_eq (hblock : 0 < blockSize) (tokenIds : List τ) (turns : Nat) :
    ∀ (j : Nat) (hashes : List η) (prevHash : Option η), prevHash.isNone = (j == 0) →
      hashBlocks hashBlockTokens blockSize tokenIds
          (List.range' (j * blockSize) turns blockSize) hashes prevHash =
        hashes ++ HashChain.chain (hashAfter hashBlockTokens) blockSize
          (min turns ((tokenIds.drop (j * blockSize)).length / blockSize)) prevHash
          (tokenIds.drop (j * blockSize)) := by
  induction turns with
  | zero =>
    intro j hashes prevHash _
    simp [hashBlocks, HashChain.chain]
  | succ turns ih =>
    intro j hashes prevHash hfirst
    rw [List.range'_succ, hashBlocks]
    simp only [slice_block]
    by_cases hpartial : ((tokenIds.drop (j * blockSize)).take blockSize).length < blockSize
    · -- a partial block: the loop stops, and no full block is left
      have hnone : (tokenIds.drop (j * blockSize)).length / blockSize = 0 := by
        rw [List.length_take] at hpartial
        exact Nat.div_eq_of_lt (by omega)
      rw [if_pos hpartial, hnone, Nat.min_zero]
      simp [HashChain.chain]
    · have hnext : (j * blockSize + blockSize) = (j + 1) * blockSize := (Nat.succ_mul _ _).symm
      have hdrop : tokenIds.drop ((j + 1) * blockSize) =
          (tokenIds.drop (j * blockSize)).drop blockSize := by
        rw [List.drop_drop, hnext]
      have hcount : (tokenIds.drop (j * blockSize)).length / blockSize =
          (tokenIds.drop ((j + 1) * blockSize)).length / blockSize + 1 := by
        rw [List.length_take] at hpartial
        rw [hdrop, List.length_drop (i := blockSize), ← Nat.add_div_right _ hblock,
          Nat.sub_add_cancel (by omega)]
      have hflag : (j * blockSize == 0) = prevHash.isNone := by
        rw [hfirst, Bool.eq_iff_iff, beq_iff_eq, beq_iff_eq, Nat.mul_eq_zero]
        omega
      rw [if_neg hpartial, hnext, ih (j + 1) _ _ (by simp), hcount, Nat.add_min_add_right, hdrop,
        hflag, List.append_assoc]
      rfl

theorem computeBlockHashes_eq (hblock : 0 < blockSize) (tokenIds : List τ) :
    computeBlockHashes hashBlockTokens blockSize tokenIds =
      HashChain.chain (hashAfter hashBlockTokens) blockSize (tokenIds.length / blockSize) none
        tokenIds := by
  have hturns : tokenIds.length / blockSize ≤
      (tokenIds.length - 0 + blockSize - 1) / blockSize := Nat.div_le_div_right (by omega)
  have hloop := @hashBlocks_eq _ _ hashBlockTokens _ hblock tokenIds
    ((tokenIds.length - 0 + blockSize - 1) / blockSize) 0 [] none rfl
  rw [Nat.zero_mul, List.drop_zero, Nat.min_eq_right hturns, List.nil_append] at hloop
  exact hloop

theorem length_computeBlockHashes (hblock : 0 < blockSize) (tokenIds : List τ) :
    (computeBlockHashes hashBlockTokens blockSize tokenIds).length =
      tokenIds.length / blockSize := by
  rw [computeBlockHashes_eq hblock, HashChain.length_chain]

/-- The hash of a full block is the chained hash of everything up to its end. -/
theorem getElem?_computeBlockHashes (hblock : 0 < blockSize) {tokenIds : List τ} {i : Nat}
    (hi : i < tokenIds.length / blockSize) :
    (computeBlockHashes hashBlockTokens blockSize tokenIds)[i]? =
      HashChain.chainedHash (hashAfter hashBlockTokens) blockSize (i + 1) none tokenIds := by
  rw [computeBlockHashes_eq hblock]
  exact HashChain.getElem?_chain _ _ hi none tokenIds

/-! ## 3. Hashes and prefixes -/

/-- `hash_block_tokens` has no collisions. -/
def CollisionFree (hashBlockTokens : Bool → Option η → List τ → η) : Prop :=
  ∀ isFirst previous tokens isFirst' previous' tokens',
    hashBlockTokens isFirst previous tokens = hashBlockTokens isFirst' previous' tokens' →
      isFirst = isFirst' ∧ previous = previous' ∧ tokens = tokens'

theorem CollisionFree.injective (h : CollisionFree hashBlockTokens) :
    Function.Injective2 (hashAfter hashBlockTokens) := by
  intro previous previous' tokens tokens' heq
  exact (h _ _ _ _ _ _ heq).2

/-- `i + 1` full blocks fit. -/
theorem blocks_le_length {tokenIds : List τ} {i : Nat} (hi : i < tokenIds.length / blockSize) :
    (i + 1) * blockSize ≤ tokenIds.length :=
  Nat.le_trans (Nat.mul_le_mul_right _ hi) (Nat.div_mul_le_self _ _)

/-- Lists that agree block by block agree up to the end of the last one. -/
theorem take_eq_of_blocks {a b : List τ} {n : Nat}
    (h : ∀ i < n, block blockSize a i = block blockSize b i) :
    a.take (n * blockSize) = b.take (n * blockSize) := by
  induction n with
  | zero => simp
  | succ n ih =>
    have hlast := h n (Nat.lt_succ_self n)
    have hfirst := ih fun i hi => h i (Nat.lt_succ_of_lt hi)
    rw [Nat.succ_mul, List.take_add, List.take_add, hfirst]
    exact congrArg _ hlast

theorem block_eq_of_take {a b : List τ} {i n : Nat} (hi : i < n)
    (h : a.take (n * blockSize) = b.take (n * blockSize)) :
    block blockSize a i = block blockSize b i := by
  have hle : (i + 1) * blockSize ≤ n * blockSize := Nat.mul_le_mul_right _ hi
  have hblock : ∀ tokens : List τ, block blockSize tokens i =
      ((tokens.take (n * blockSize)).drop (i * blockSize)).take blockSize := by
    intro tokens
    rw [Nat.succ_mul] at hle
    unfold block
    rw [List.drop_take, List.take_take, Nat.min_eq_left (by omega)]
  rw [hblock a, hblock b, h]

/-- **Block hashes identify prefixes.**  For every block size and all prompts: there
    is a hash for each full block; the `i`-th hashes of two prompts agree exactly if
    the prompts agree on their first `i + 1` blocks; and if block `j` is the first in
    which they differ, as after an insertion, they agree exactly before `j`. -/
theorem computeBlockHashes_prefix_iff (hashBlockTokens : Bool → Option η → List τ → η)
    (hinjective : CollisionFree hashBlockTokens) (blockSize : Nat) (hblock : 0 < blockSize)
    (a b : List τ) :
    (computeBlockHashes hashBlockTokens blockSize a).length = a.length / blockSize ∧
    (∀ i < a.length / blockSize, i < b.length / blockSize →
      ((computeBlockHashes hashBlockTokens blockSize a)[i]? =
          (computeBlockHashes hashBlockTokens blockSize b)[i]? ↔
        a.take ((i + 1) * blockSize) = b.take ((i + 1) * blockSize))) ∧
    ∀ j, (∀ i < j, block blockSize a i = block blockSize b i) →
      block blockSize a j ≠ block blockSize b j →
      ∀ i < a.length / blockSize, i < b.length / blockSize →
        ((computeBlockHashes hashBlockTokens blockSize a)[i]? =
          (computeBlockHashes hashBlockTokens blockSize b)[i]? ↔ i < j) := by
  have hagree : ∀ i < a.length / blockSize, i < b.length / blockSize →
      ((computeBlockHashes hashBlockTokens blockSize a)[i]? =
          (computeBlockHashes hashBlockTokens blockSize b)[i]? ↔
        a.take ((i + 1) * blockSize) = b.take ((i + 1) * blockSize)) := by
    intro i hi hi'
    rw [getElem?_computeBlockHashes hblock hi, getElem?_computeBlockHashes hblock hi']
    exact HashChain.chainedHash_eq_iff _ _ hinjective.injective (blocks_le_length hi)
      (blocks_le_length hi')
  refine ⟨length_computeBlockHashes hblock a, hagree, ?_⟩
  intro j hbefore hchanged i hi hi'
  rw [hagree i hi hi']
  constructor
  · intro hsame
    by_contra hlate
    exact hchanged (block_eq_of_take (by omega) hsame)
  · intro hearly
    exact take_eq_of_blocks fun k hk => hbefore k (by omega)

end

/-- A hash that keeps all it is given. -/
def keepingHash (isFirst : Bool) (previous : Option (List (List Nat))) (tokens : List Nat) :
    List (List Nat) :=
  [if isFirst then 1 else 0] :: tokens ::
    match previous with
    | none => []
    | some hash => [] :: hash

theorem keepingHash_collisionFree : CollisionFree keepingHash := by
  intro isFirst previous tokens isFirst' previous' tokens' h
  simp only [keepingHash, List.cons.injEq, and_true] at h
  obtain ⟨hflag, htokens, hprevious⟩ := h
  refine ⟨?_, ?_, htokens⟩
  · cases isFirst <;> cases isFirst' <;> simp at hflag ⊢
  · cases previous <;> cases previous' <;> simp at hprevious ⊢
    exact hprevious

/-- A token inserted in front of the second block. -/
theorem computeBlockHashes_insertion :
    (computeBlockHashes keepingHash 2 [1, 2, 3, 4, 5])[0]? =
        (computeBlockHashes keepingHash 2 [1, 2, 9, 3, 4, 5])[0]? ∧
      (computeBlockHashes keepingHash 2 [1, 2, 3, 4, 5])[1]? ≠
        (computeBlockHashes keepingHash 2 [1, 2, 9, 3, 4, 5])[1]? := by
  have hagree := (computeBlockHashes_prefix_iff keepingHash keepingHash_collisionFree 2 (by decide)
    [1, 2, 3, 4, 5] [1, 2, 9, 3, 4, 5]).2.2 1 (by decide) (by decide)
  exact ⟨(hagree 0 (by decide) (by decide)).mpr (by decide), fun heq =>
    absurd ((hagree 1 (by decide) (by decide)).mp heq) (by decide)⟩

end Edmm
