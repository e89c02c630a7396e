/-
  Edmm/PrefixHashes.lean
  ======================
  **The prefix hashes of a request and its tokens.**

  A request hashes its full blocks as tokens arrive, sampled tokens included.  A
  streaming continuation takes back the tokens that were not computed, usually the
  last sampled one, and goes on with the next chunk; it never takes back a hash.
  If the token taken back had completed a block, the hash of that block stays, and
  stands for tokens that the request does not hold any more.

  The hashes are faithful throughout exactly when every continuation puts the same
  tokens where hashed ones were taken back.
-/
import Edmm.Lib.HashChain
import Edmm.UpdateEffects

namespace Edmm

open Program

variable {W : Type}

/-- A block hasher that chains the hashes of full blocks. -/
def chainedHasher (hash : Option BlockHash → List Token → BlockHash) (blockSize : Nat)
    (request : Request) : List BlockHash :=
  HashChain.newHashes hash blockSize request.blockHashes request.allTokenIds

/-! ### 1. What happens to the tokens of a request -/

/-- What changes the tokens of a request, or how many of them are computed. -/
inductive TokenOp where
  | appendOutputTokenIds (tokenIds : List Token)
  | setNumComputedTokens (numComputedTokens : Int)
  | updateRequestAsSession (update : StreamingUpdate)

namespace TokenOp

def apply (self : Scheduler W) (r : Request) : TokenOp → Request
  | .appendOutputTokenIds tokenIds =>
      r.appendOutputTokenIds self.externals.blockHasher tokenIds
  | .setNumComputedTokens numComputedTokens => { r with numComputedTokens }
  | .updateRequestAsSession update =>
      -- without prompt tokens an assertion fails after the tokens are taken back
      if r.promptTokenIds.isSome then self.continueSession update r
      else Scheduler.dropUncomputed r

/-- What a continuation keeps, and the next chunk. -/
def nextTokens (r : Request) (update : StreamingUpdate) : List Token :=
  Python.deleteFrom r.allTokenIds r.numComputedTokens ++
    if r.promptTokenIds.isSome then update.promptTokenIds.getD [] else []

/-- Tokens of hashed blocks that the operation takes back come again in their place. -/
def KeepsHashedBlocks (blockSize : Nat) (r : Request) : TokenOp → Prop
  | .appendOutputTokenIds _ => True
  | .setNumComputedTokens _ => True
  | .updateRequestAsSession update =>
      r.allTokenIds.take (r.blockHashes.length * blockSize) <+: nextTokens r update

end TokenOp

/-- The operations keep the hashed blocks, each in the state it meets. -/
def HashedBlocksKept (self : Scheduler W) (blockSize : Nat) : Request → List TokenOp → Prop
  | _, [] => True
  | r, op :: rest =>
      op.KeepsHashedBlocks blockSize r ∧ HashedBlocksKept self blockSize (op.apply self r) rest

/-- The hashes of a request are those of its tokens. -/
def HashesFaithful (hash : Option BlockHash → List Token → BlockHash) (blockSize : Nat)
    (r : Request) : Prop :=
  HashChain.Faithful hash blockSize r.blockHashes r.allTokenIds

/-- The hashes are faithful before, between and after the operations. -/
def FaithfulThroughout (self : Scheduler W) (hash : Option BlockHash → List Token → BlockHash)
    (blockSize : Nat) : Request → List TokenOp → Prop
  | r, [] => HashesFaithful hash blockSize r
  | r, op :: rest =>
      HashesFaithful hash blockSize r ∧
        FaithfulThroughout self hash blockSize (op.apply self r) rest

/-- `_update_request_as_session` leaves the session as the operation says, also when
    it raises. -/
theorem updateRequestAsSession_request (self : Scheduler W) (s : SchedulerState W) (session : Ref)
    (update : StreamingUpdate) :
    (finalState (self.updateRequestAsSession session update s)).objs session =
      (TokenOp.updateRequestAsSession update).apply self (s.objs session) := by
  apply finalState_of_wp (I := fun s' : SchedulerState W => s'.objs session =
    (TokenOp.updateRequestAsSession update).apply self (s.objs session))
  simp only [Scheduler.updateRequestAsSession, wp_bind, wp_modifyRequest, wp_getRequest,
    wp_pyAssert, wp_onlyIf, wp_setStatus, wp_modify, SchedulerState.objs_updateRequest_self]
  have hsome : (Scheduler.dropUncomputed (s.objs session)).promptTokenIds.isSome =
      (s.objs session).promptTokenIds.isSome := by
    simp [Scheduler.dropUncomputed]
  rw [hsome]
  constructor
  · intro hprompt
    simp [TokenOp.apply, hprompt, Scheduler.continueSession]
  · intro hprompt
    simp [TokenOp.apply, hprompt]

/-! ### 2. One operation -/

section

variable {self : Scheduler W} {hash : Option BlockHash → List Token → BlockHash}
  {blockSize : Nat} (hhasher : self.externals.blockHasher = some (chainedHasher hash blockSize))

include hhasher

/-- Hashing the new full blocks keeps the hashes faithful. -/
theorem hashesFaithful_updateBlockHashes {r : Request} (h : HashesFaithful hash blockSize r) :
    HashesFaithful hash blockSize (r.updateBlockHashes self.externals.blockHasher) := by
  rw [hhasher]
  exact HashChain.Faithful.newHashes h

/-- A request that was just built. -/
theorem hashesFaithful_init {params : RequestParams} {r : Request}
    (h : Request.init self.externals.blockHasher params = .ok r) :
    HashesFaithful hash blockSize r := by
  obtain ⟨limits, hlimits, h⟩ := except_bind_eq_ok.mp h
  obtain ⟨numPromptTokens, hlength, h⟩ := except_bind_eq_ok.mp h
  injection h with h
  rw [← h]
  apply hashesFaithful_updateBlockHashes hhasher
  exact HashChain.Faithful.nil _

/-- The tokens and the hashes that a continuation leaves. -/
theorem continued_hashes (r : Request) (update : StreamingUpdate) :
    ((TokenOp.updateRequestAsSession update).apply self r).allTokenIds =
        TokenOp.nextTokens r update ∧
      ∃ added, ((TokenOp.updateRequestAsSession update).apply self r).blockHashes =
          r.blockHashes ++ added ∧
        (HashChain.Faithful hash blockSize r.blockHashes (TokenOp.nextTokens r update) →
          HashChain.Faithful hash blockSize (r.blockHashes ++ added)
            (TokenOp.nextTokens r update)) := by
  by_cases hprompt : r.promptTokenIds.isSome = true
  · refine ⟨?_, HashChain.newHashes hash blockSize r.blockHashes
      (TokenOp.nextTokens r update), ?_, fun h => h.newHashes⟩
    · simp [TokenOp.apply, TokenOp.nextTokens, hprompt, Scheduler.continueSession,
        Scheduler.extendPrompt, Scheduler.dropUncomputed, Request.updateBlockHashes, hhasher]
    · simp [TokenOp.apply, TokenOp.nextTokens, hprompt, Scheduler.continueSession,
        Scheduler.extendPrompt, Scheduler.dropUncomputed, Request.updateBlockHashes, hhasher,
        chainedHasher]
  · refine ⟨?_, [], ?_, fun h => by rwa [List.append_nil]⟩
    · simp [TokenOp.apply, TokenOp.nextTokens, hprompt, Scheduler.dropUncomputed]
    · simp [TokenOp.apply, hprompt, Scheduler.dropUncomputed]

/-- **Step lemma.**  An operation that keeps the hashed blocks keeps the hashes
    faithful. -/
theorem HashesFaithful.step {r : Request} (h : HashesFaithful hash blockSize r) {op : TokenOp}
    (hkeeps : op.KeepsHashedBlocks blockSize r) :
    HashesFaithful hash blockSize (op.apply self r) := by
  cases op with
  | appendOutputTokenIds tokenIds =>
    apply hashesFaithful_updateBlockHashes hhasher
    exact HashChain.Faithful.append h tokenIds
  | setNumComputedTokens numComputedTokens => exact h
  | updateRequestAsSession update =>
    obtain ⟨htokens, added, hhashes, hnew⟩ := continued_hashes hhasher r update
    unfold HashesFaithful
    rw [htokens, hhashes]
    exact hnew (h.of_prefix hkeeps)

/-- Without collisions, hashes that stay faithful mean that the operation keeps the
    hashed blocks. -/
theorem keepsHashedBlocks_of_faithful (hinjective : Function.Injective2 hash) {r : Request}
    (h : HashesFaithful hash blockSize r) {op : TokenOp}
    (hafter : HashesFaithful hash blockSize (op.apply self r)) :
    op.KeepsHashedBlocks blockSize r := by
  cases op with
  | appendOutputTokenIds tokenIds => trivial
  | setNumComputedTokens numComputedTokens => trivial
  | updateRequestAsSession update =>
    obtain ⟨htokens, added, hhashes, _⟩ := continued_hashes hhasher r update
    unfold HashesFaithful at hafter
    rw [htokens, hhashes] at hafter
    have hsame := h.same_blocks hinjective hafter.of_append
    change r.allTokenIds.take (r.blockHashes.length * blockSize) <+: TokenOp.nextTokens r update
    rw [hsame]
    exact List.take_prefix _ _

/-! ### 3. All operations -/

/-- **Prefix hashes.**  The hashes are faithful throughout if every continuation
    keeps the hashed blocks; when `hash` has no collisions, only then. -/
theorem hashes_faithful_throughout {params : RequestParams} {r : Request}
    (hinit : Request.init self.externals.blockHasher params = .ok r) (ops : List TokenOp) :
    (HashedBlocksKept self blockSize r ops → FaithfulThroughout self hash blockSize r ops) ∧
      (Function.Injective2 hash → FaithfulThroughout self hash blockSize r ops →
        HashedBlocksKept self blockSize r ops) := by
  have h := hashesFaithful_init hhasher hinit
  clear hinit
  induction ops generalizing r with
  | nil => exact ⟨fun _ => h, fun _ _ => trivial⟩
  | cons op rest ih =>
    constructor
    · intro hkept
      have hnext := h.step hhasher hkept.1
      exact ⟨h, (ih hnext).1 hkept.2⟩
    · intro hinjective hfaithful
      have hnext : HashesFaithful hash blockSize (op.apply self r) := by
        cases rest with
        | nil => exact hfaithful.2
        | cons _ _ => exact hfaithful.2.1
      exact ⟨keepsHashedBlocks_of_faithful hhasher hinjective h hnext,
        (ih hnext).2 hinjective hfaithful.2⟩

end

/-- A small engine that hashes blocks of two tokens. -/
def Scheduler.hashing : Scheduler Unit :=
  { Scheduler.roomy with
    externals := { Externals.roomy with
      blockHasher := some (chainedHasher (fun _ tokenIds => tokenIds.sum.toNat) 2) } }

/-- The last sampled token is taken back, and the next chunk begins with it. -/
theorem hashes_faithful_throughout_same_token : ∃ r,
    Request.init Scheduler.hashing.externals.blockHasher (.text "a" [1] 1 true) = .ok r ∧
      FaithfulThroughout Scheduler.hashing (fun _ tokenIds => tokenIds.sum.toNat) 2 r
        [.setNumComputedTokens 1, .appendOutputTokenIds [2],
          .updateRequestAsSession ⟨[], some [2, 3], 1, 0, none⟩] := by
  have hinit : Request.init Scheduler.hashing.externals.blockHasher (.text "a" [1] 1 true) =
      .ok _ := rfl
  refine ⟨_, hinit, (hashes_faithful_throughout rfl hinit _).1 ⟨trivial, trivial, ?_, trivial⟩⟩
  exact ⟨[3], by decide⟩

/-- The sampled token 2 completes a block with the prompt, is taken back, and the next
    chunk puts 5 in its place: the hash of the block is still that of 1 and 2. -/
theorem session_keeps_stale_hash :
    ¬ ∀ (hash : Option BlockHash → List Token → BlockHash) (blockSize : Nat)
      (self : Scheduler Unit) (params : RequestParams) (r : Request) (ops : List TokenOp),
      self.externals.blockHasher = some (chainedHasher hash blockSize) →
      Request.init self.externals.blockHasher params = .ok r →
      FaithfulThroughout self hash blockSize r ops := by
  intro hclaim
  have hfaithful := hclaim (fun _ tokenIds => tokenIds.sum.toNat) 2 Scheduler.hashing
    (.text "a" [1] 1 true) _ [.setNumComputedTokens 1, .appendOutputTokenIds [2],
      .updateRequestAsSession ⟨[], some [5], 1, 0, none⟩] rfl rfl
  have hlast := hfaithful.2.2.2.hashed 0 (by decide)
  revert hlast
  decide

end Edmm
