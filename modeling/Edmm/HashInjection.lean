/-
  Edmm/HashInjection.lean
  =======================
  **Hash injection and the prefix cache** (`run` of `verify_b4_semantic_correctness.py`,
  `inject_hashes_into_cache`).

  The B4 benchmark writes the block hashes of a contaminated prompt into the prefix
  cache, pointing to the blocks that are registered already, in the order of their
  registration.  The registry is sound if every entry points to a block whose KV was
  computed for the tokens its hash stands for.  Injection keeps it sound exactly if
  the blocks, in that order, were computed for the contaminated prompt
  (`injectB4_sound_iff`).
-/
import Edmm.BlockHashes
import Edmm.Lib.Dict

namespace Edmm

abbrev BlockId := Nat

variable {τ η : Type}

/-! ## 1. The injection step -/

section Functions

variable [DecidableEq η]

def injectHashesIntoCache (cachedBlocks : Dict η BlockId) (targetHashes : List η)
    (sourceBlockIds : List BlockId) : Dict η BlockId :=
  cachedBlocks.setAll (targetHashes.zip sourceBlockIds)

/-- The hash injection of B4. -/
def injectB4 (hashBlockTokens : Bool → Option η → List τ → η) (blockSize : Nat)
    (cachedBlocks : Dict η BlockId) (contamIds : List τ) : Dict η BlockId :=
  let baseBlockIds := cachedBlocks.values
  let contamHashes := computeBlockHashes hashBlockTokens blockSize contamIds
  let nInject := min contamHashes.length baseBlockIds.length
  injectHashesIntoCache cachedBlocks (contamHashes.take nInject) (baseBlockIds.take nInject)

/-! ## 2. Soundness -/

/-- `h` is the hash of the tokens for whose last block the KV of the block was
    computed; `kv` tells these tokens of each block. -/
def SoundEntry (hashBlockTokens : Bool → Option η → List τ → η) (blockSize : Nat)
    (kv : BlockId → List τ) (h : η) (bid : BlockId) : Prop :=
  ∃ k, 0 < k ∧ (kv bid).length = k * blockSize ∧
    (computeBlockHashes hashBlockTokens blockSize (kv bid)).getLast? = some h

/-- The prefix cache is sound. -/
def SoundCache (hashBlockTokens : Bool → Option η → List τ → η) (blockSize : Nat)
    (kv : BlockId → List τ) (cachedBlocks : Dict η BlockId) : Prop :=
  ∀ h bid, cachedBlocks.get? h = some bid → SoundEntry hashBlockTokens blockSize kv h bid

/-- Every block hash of the prompt is registered. -/
def Warmed (hashBlockTokens : Bool → Option η → List τ → η) (blockSize : Nat)
    (cachedBlocks : Dict η BlockId) (tokenIds : List τ) : Prop :=
  ∀ h ∈ computeBlockHashes hashBlockTokens blockSize tokenIds,
    ∃ bid, cachedBlocks.get? h = some bid

/-- A lookup of the prompt returns KV computed for the tokens looked up. -/
def SoundLookup (hashBlockTokens : Bool → Option η → List τ → η) (blockSize : Nat)
    (kv : BlockId → List τ) (cachedBlocks : Dict η BlockId) (tokenIds : List τ) : Prop :=
  ∀ (i : Nat) h bid, (computeBlockHashes hashBlockTokens blockSize tokenIds)[i]? = some h →
    cachedBlocks.get? h = some bid → kv bid = tokenIds.take ((i + 1) * blockSize)

end Functions

variable {hashBlockTokens : Bool → Option η → List τ → η} {blockSize : Nat}
  {kv : BlockId → List τ}

/-- A block hash of a prompt, as a chained hash. -/
theorem chainedHash_of_getElem? (hblock : 0 < blockSize) {tokenIds : List τ} {i : Nat} {h : η}
    (hi : (computeBlockHashes hashBlockTokens blockSize tokenIds)[i]? = some h) :
    i < tokenIds.length / blockSize ∧
      HashChain.chainedHash (hashAfter hashBlockTokens) blockSize (i + 1) none tokenIds =
        some h := by
  have hlt : i < tokenIds.length / blockSize := by
    have hlength := (List.getElem?_eq_some_iff.mp hi).1
    rwa [length_computeBlockHashes hblock] at hlength
  exact ⟨hlt, (getElem?_computeBlockHashes hblock hlt).symm.trans hi⟩

/-- The last block hash of `k` full blocks, as a chained hash. -/
theorem getLast?_computeBlockHashes (hblock : 0 < blockSize) {tokenIds : List τ} {k : Nat}
    (hlength : tokenIds.length = k * blockSize) :
    (computeBlockHashes hashBlockTokens blockSize tokenIds).getLast? =
      HashChain.chainedHash (hashAfter hashBlockTokens) blockSize k none tokenIds := by
  rw [computeBlockHashes_eq hblock, HashChain.getLast?_chain, hlength, Nat.mul_div_cancel k hblock]

/-- **One entry.**  A block is sound under the `i`-th hash of a prompt exactly if its
    KV was computed for the first `i + 1` blocks of that prompt. -/
theorem soundEntry_iff (hinjective : CollisionFree hashBlockTokens) (hblock : 0 < blockSize)
    {tokenIds : List τ} {i : Nat} {h : η}
    (hi : (computeBlockHashes hashBlockTokens blockSize tokenIds)[i]? = some h) (bid : BlockId) :
    SoundEntry hashBlockTokens blockSize kv h bid ↔
      kv bid = tokenIds.take ((i + 1) * blockSize) := by
  obtain ⟨hlt, hhash⟩ := chainedHash_of_getElem? hblock hi
  have hfull := blocks_le_length hlt
  constructor
  · intro hprefix
    rcases hprefix with ⟨k, -, hlength, hlast⟩
    rw [getLast?_computeBlockHashes hblock hlength, ← hhash] at hlast
    -- equal hashes cover equally many blocks, and the same tokens
    have hcount := HashChain.chainedHash_count _ _ hinjective.injective hlast
    subst hcount
    rw [HashChain.chainedHash_eq_iff _ _ hinjective.injective hlength.ge hfull, ← hlength,
      List.take_length] at hlast
    rw [hlast, hlength]
  · intro hkv
    have hlength : (kv bid).length = (i + 1) * blockSize := by
      rw [hkv, List.length_take, Nat.min_eq_left hfull]
    refine ⟨i + 1, Nat.succ_pos i, hlength, ?_⟩
    rw [getLast?_computeBlockHashes hblock hlength, ← hhash, hkv]
    exact HashChain.chainedHash_congr _ _ none (by rw [List.take_take, Nat.min_self])

section

variable [DecidableEq η] {cachedBlocks : Dict η BlockId}

/-- A sound registry answers every prompt soundly. -/
theorem SoundCache.lookup (hinjective : CollisionFree hashBlockTokens) (hblock : 0 < blockSize)
    (hsound : SoundCache hashBlockTokens blockSize kv cachedBlocks) (tokenIds : List τ) :
    SoundLookup hashBlockTokens blockSize kv cachedBlocks tokenIds := by
  intro i h bid hi hget
  exact (soundEntry_iff hinjective hblock hi bid).mp (hsound h bid hget)

end

/-! ## 3. What injection writes -/

/-- Without collisions no hash of a prompt repeats. -/
theorem computeBlockHashes_nodup (hinjective : CollisionFree hashBlockTokens)
    (hblock : 0 < blockSize) (tokenIds : List τ) :
    (computeBlockHashes hashBlockTokens blockSize tokenIds).Nodup := by
  rw [List.nodup_iff_getElem?_ne_getElem?]
  intro i j hij hj heq
  have hj' := List.getElem?_eq_getElem hj
  have hi' := heq.trans hj'
  obtain ⟨-, hhash⟩ := chainedHash_of_getElem? hblock hi'
  obtain ⟨-, hhash'⟩ := chainedHash_of_getElem? hblock hj'
  have hcount := HashChain.chainedHash_count _ _ hinjective.injective (hhash.trans hhash'.symm)
  omega

/-- The pairs that are written: the `i`-th hash and the block registered as number `i`. -/
theorem mem_injected {hashes : List η} {ids : List BlockId} {h : η} {bid : BlockId} :
    (h, bid) ∈ (hashes.take (min hashes.length ids.length)).zip
        (ids.take (min hashes.length ids.length)) ↔
      ∃ i : Nat, hashes[i]? = some h ∧ ids[i]? = some bid := by
  rw [← List.zip_eq_zip_take_min]
  simp only [List.mem_iff_getElem?, List.getElem?_zip_eq_some]

theorem map_fst_injected (hashes : List η) (ids : List BlockId) :
    ((hashes.take (min hashes.length ids.length)).zip
        (ids.take (min hashes.length ids.length))).map Prod.fst =
      hashes.take (min hashes.length ids.length) :=
  List.map_fst_zip (by simp)

section

variable [DecidableEq η] (cachedBlocks : Dict η BlockId)

/-- An injected hash. -/
theorem get?_injectB4_hit (hinjective : CollisionFree hashBlockTokens) (hblock : 0 < blockSize)
    {contamIds : List τ} {i : Nat} {h : η} {bid : BlockId}
    (hi : (computeBlockHashes hashBlockTokens blockSize contamIds)[i]? = some h)
    (hbid : cachedBlocks.values[i]? = some bid) :
    (injectB4 hashBlockTokens blockSize cachedBlocks contamIds).get? h = some bid := by
  apply Dict.get?_setAll_of_mem
  · rw [map_fst_injected]
    exact (computeBlockHashes_nodup hinjective hblock contamIds).sublist (List.take_sublist _ _)
  · exact mem_injected.mpr ⟨i, hi, hbid⟩

/-- Every other hash. -/
theorem get?_injectB4_miss {contamIds : List τ} {h : η}
    (hmiss : ∀ (i : Nat) (bid : BlockId),
      (computeBlockHashes hashBlockTokens blockSize contamIds)[i]? = some h →
        cachedBlocks.values[i]? ≠ some bid) :
    (injectB4 hashBlockTokens blockSize cachedBlocks contamIds).get? h = cachedBlocks.get? h := by
  apply Dict.get?_setAll_of_not_mem
  rw [List.mem_map]
  intro hinjected
  rcases hinjected with ⟨⟨h', bid⟩, hmem, rfl⟩
  obtain ⟨i, hi, hbid⟩ := mem_injected.mp hmem
  exact hmiss i bid hi hbid

end

/-! ## 4. When injection is sound -/

/-- The block registered as number `i` was computed for the first `i + 1` blocks of the
    prompt, for every number that is injected. -/
def ComputedFor (blockSize : Nat) (kv : BlockId → List τ) (blockIds : List BlockId)
    (tokenIds : List τ) : Prop :=
  ∀ i bid, i < tokenIds.length / blockSize → blockIds[i]? = some bid →
    kv bid = tokenIds.take ((i + 1) * blockSize)

/-- **When hash injection keeps the prefix cache sound.**  For every sound registry, in
    any order and from any prompts, and every contaminated prompt: the registry is
    sound after the injection exactly if each registered block it is paired with was
    computed for that many blocks of the contaminated prompt; and then every lookup
    returns KV computed for the tokens looked up.  A block whose prefix is not one of
    the contaminated prompt is looked up as before in any case. -/
theorem injectB4_sound_iff [DecidableEq η] (hashBlockTokens : Bool → Option η → List τ → η)
    (hinjective : CollisionFree hashBlockTokens) (blockSize : Nat) (hblock : 0 < blockSize)
    (kv : BlockId → List τ) (cachedBlocks : Dict η BlockId)
    (hsound : SoundCache hashBlockTokens blockSize kv cachedBlocks) (contamIds : List τ) :
    (SoundCache hashBlockTokens blockSize kv
        (injectB4 hashBlockTokens blockSize cachedBlocks contamIds) ↔
      ComputedFor blockSize kv cachedBlocks.values contamIds) ∧
    (ComputedFor blockSize kv cachedBlocks.values contamIds → ∀ tokenIds,
      SoundLookup hashBlockTokens blockSize kv
        (injectB4 hashBlockTokens blockSize cachedBlocks contamIds) tokenIds) ∧
    ∀ tokenIds (i : Nat) h, (computeBlockHashes hashBlockTokens blockSize tokenIds)[i]? = some h →
      tokenIds.take ((i + 1) * blockSize) ≠ contamIds.take ((i + 1) * blockSize) →
      (injectB4 hashBlockTokens blockSize cachedBlocks contamIds).get? h =
        cachedBlocks.get? h := by
  have hcache : SoundCache hashBlockTokens blockSize kv
        (injectB4 hashBlockTokens blockSize cachedBlocks contamIds) ↔
      ComputedFor blockSize kv cachedBlocks.values contamIds := by
    constructor
    · intro hafter i bid hi hbid
      have hlt : i < (computeBlockHashes hashBlockTokens blockSize contamIds).length := by
        rwa [length_computeBlockHashes hblock]
      have hhash := List.getElem?_eq_getElem hlt
      exact (soundEntry_iff hinjective hblock hhash bid).mp
        (hafter _ _ (get?_injectB4_hit cachedBlocks hinjective hblock hhash hbid))
    · intro hcomputed h bid hget
      by_cases hinjected : ∃ (i : Nat) (bid : BlockId),
          (computeBlockHashes hashBlockTokens blockSize contamIds)[i]? = some h ∧
            cachedBlocks.values[i]? = some bid
      · obtain ⟨i, written, hi, hwritten⟩ := hinjected
        rw [get?_injectB4_hit cachedBlocks hinjective hblock hi hwritten, Option.some.injEq] at hget
        subst hget
        exact (soundEntry_iff hinjective hblock hi written).mpr
          (hcomputed i written (chainedHash_of_getElem? hblock hi).1 hwritten)
      · push Not at hinjected
        rw [get?_injectB4_miss cachedBlocks hinjected] at hget
        exact hsound h bid hget
  refine ⟨hcache, fun hcomputed tokenIds => ?_, fun tokenIds i h hi hother => ?_⟩
  · exact (hcache.mpr hcomputed).lookup hinjective hblock tokenIds
  · apply get?_injectB4_miss
    intro j bid hj
    exfalso
    -- the same hash at position `j` of the contaminated prompt would mean the same tokens
    obtain ⟨hlt, hhash⟩ := chainedHash_of_getElem? hblock hi
    obtain ⟨hlt', hhash'⟩ := chainedHash_of_getElem? hblock hj
    have hsame := hhash.trans hhash'.symm
    have hcount := HashChain.chainedHash_count _ _ hinjective.injective hsame
    have hij : i = j := by omega
    subst hij
    exact hother ((HashChain.chainedHash_eq_iff _ _ hinjective.injective (blocks_le_length hlt)
      (blocks_le_length hlt')).mp hsame)

/-! ## 5. One prompt pair -/

/-- The registry after the clean prompt `[1, 2]`, with blocks of one token. -/
def cleanRegistry : Dict (List (List Nat)) BlockId :=
  Dict.setAll ∅ ((computeBlockHashes keepingHash 1 [1, 2]).zip [0, 1])

/-- Block 0 was computed for `[1]`, block 1 for `[1, 2]`. -/
def cleanKv (bid : BlockId) : List Nat := [1, 2].take (bid + 1)

theorem cleanRegistry_sound : SoundCache keepingHash 1 cleanKv cleanRegistry := by
  intro h bid hget
  have hitem : (h, bid) ∈ cleanRegistry.items := Dict.mem_items_iff.mpr hget
  have hitems : cleanRegistry.items = (computeBlockHashes keepingHash 1 [1, 2]).zip [0, 1] := by
    decide
  rw [hitems, List.mem_iff_getElem?] at hitem
  obtain ⟨i, hi⟩ := hitem
  obtain ⟨hhash, hbid⟩ := List.getElem?_zip_eq_some.mp hi
  refine (soundEntry_iff keepingHash_collisionFree (by decide) hhash bid).mpr ?_
  have hsame : bid = i := by
    rcases i with _ | _ | i
    · cases hbid
      rfl
    · cases hbid
      rfl
    · cases hbid
  rw [hsame, Nat.mul_one]
  rfl

/-- Injecting the hashes of the prompt that was warmed changes nothing. -/
theorem injectB4_sound_same_prompt :
    SoundCache keepingHash 1 cleanKv (injectB4 keepingHash 1 cleanRegistry [1, 2]) :=
  (injectB4_sound_iff keepingHash keepingHash_collisionFree 1 (by decide) cleanKv cleanRegistry
    cleanRegistry_sound [1, 2]).1.mpr (by
      intro i bid hi hbid
      rcases i with _ | _ | i
      · cases hbid
        rfl
      · cases hbid
        rfl
      · simp only [List.length_cons, List.length_nil] at hi
        omega)

/-- **The second block of `[1, 3]` is answered with the KV of `[1, 2]`.** -/
theorem injectB4_unsound :
    ¬ ∀ (hashBlockTokens : Bool → Option (List (List Nat)) → List Nat → List (List Nat)),
      CollisionFree hashBlockTokens → ∀ (blockSize : Nat), 0 < blockSize →
      ∀ (kv : BlockId → List Nat) (cachedBlocks : Dict (List (List Nat)) BlockId),
        SoundCache hashBlockTokens blockSize kv cachedBlocks →
        ∀ cleanIds contamIds, Warmed hashBlockTokens blockSize cachedBlocks cleanIds →
          SoundCache hashBlockTokens blockSize kv
            (injectB4 hashBlockTokens blockSize cachedBlocks contamIds) ∧
          SoundLookup hashBlockTokens blockSize kv
            (injectB4 hashBlockTokens blockSize cachedBlocks contamIds) contamIds ∧
          SoundLookup hashBlockTokens blockSize kv
            (injectB4 hashBlockTokens blockSize cachedBlocks contamIds) cleanIds := by
  intro hclaim
  have hwarmed : Warmed keepingHash 1 cleanRegistry [1, 2] := by
    intro h hmem
    have hkeys : cleanRegistry.keys = computeBlockHashes keepingHash 1 [1, 2] := by decide
    exact Dict.mem_keys_iff.mp (hkeys ▸ hmem)
  obtain ⟨-, hlookup, -⟩ := hclaim keepingHash keepingHash_collisionFree 1 (by decide) cleanKv
    cleanRegistry cleanRegistry_sound [1, 2] [1, 3] hwarmed
  have hwrong := hlookup 1 _ 1 rfl (by decide)
  exact absurd hwrong (by decide)

end Edmm
