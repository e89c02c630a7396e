/-
  Edmm/SessionTokens.lean
  =======================
  **The token lists of a session.**

  A session keeps its prompt, its outputs and both together in three lists, and
  counts the computed tokens in `num_computed_tokens`.  An output adds to two of the
  lists; a stop may trim its last tokens, which are computed already if they were
  drafts.  A continuation reads the counter as the length of the history to keep: it
  cuts the list of all tokens there, and moves the outputs before it to the prompt.

  So the lists stay consistent when the cut leaves the prompt whole, and only then
  (`TokensConsistent.continueSession_iff`): after a preemption the counter is 0.
-/
import Edmm.OperationEffects

namespace Edmm

open Program Scheduler

variable {W : Type}

/-- The token lists belong together. -/
structure Request.TokensConsistent (r : Request) : Prop where
  tokens : ∃ prompt, r.promptTokenIds = some prompt ∧
    r.allTokenIds = prompt ++ r.outputTokenIds ∧ r.numPromptTokens = prompt.length

/-! ## 1. Outputs -/

/-- The tokens that are kept of an output, and the counter it does not touch. -/
theorem Scheduler.updateRequestWithOutput_kept (self : Scheduler W) (r : Request)
    (tokenIds : List Token) :
    (self.updateRequestWithOutput r tokenIds).1.numComputedTokens = r.numComputedTokens ∧
      (self.updateRequestWithOutput r tokenIds).2.1 <+: tokenIds ∧
      ((self.updateRequestWithOutput r tokenIds).2.2 = false →
        (self.updateRequestWithOutput r tokenIds).2.1 = tokenIds) := by
  induction tokenIds generalizing r with
  | nil => exact ⟨rfl, List.prefix_rfl, fun _ => rfl⟩
  | cons tokenId rest ih =>
    obtain ⟨hashes, happend⟩ :=
      Request.appendOutputTokenIds_eq self.externals.blockHasher r [tokenId]
    simp only [updateRequestWithOutput]
    rw [happend]
    split
    · exact ⟨rfl, ⟨rest, rfl⟩, fun h => by cases h⟩
    · obtain ⟨hcomputed, hbegins, hall⟩ := ih { r with
        outputTokenIds := r.outputTokenIds ++ [tokenId]
        allTokenIds := r.allTokenIds ++ [tokenId]
        blockHashes := hashes }
      refine ⟨hcomputed, ?_, fun h => ?_⟩
      · exact (List.prefix_cons_inj tokenId).mpr hbegins
      · exact congrArg (tokenId :: ·) (hall h)

/-- What an output does to the request and which tokens are kept of it. -/
theorem Scheduler.applyOutput_kept (self : Scheduler W) (specTokenIds generated : List Token)
    (hasPoolerOutput : Bool) (r : Request) :
    ∃ kept, (self.applyOutput specTokenIds generated hasPoolerOutput r).1.promptTokenIds =
        r.promptTokenIds ∧
      (self.applyOutput specTokenIds generated hasPoolerOutput r).1.numPromptTokens =
        r.numPromptTokens ∧
      (self.applyOutput specTokenIds generated hasPoolerOutput r).1.allTokenIds =
        r.allTokenIds ++ kept ∧
      (self.applyOutput specTokenIds generated hasPoolerOutput r).1.outputTokenIds =
        r.outputTokenIds ++ kept ∧
      (self.applyOutput specTokenIds generated hasPoolerOutput r).1.numComputedTokens =
        (rejectDrafts specTokenIds generated r).numComputedTokens ∧
      kept <+: generated ∧
      ((self.applyOutput specTokenIds generated hasPoolerOutput r).2.2 = false →
        kept = generated) := by
  obtain ⟨hashes, computed, placeholders, status, reason, hform⟩ :=
    (self.applyOutput_extends specTokenIds generated hasPoolerOutput r).form
  refine ⟨(self.applyOutput specTokenIds generated hasPoolerOutput r).2.1,
    by rw [hform], by rw [hform], by rw [hform], by rw [hform], ?_⟩
  unfold applyOutput
  dsimp only
  split
  · exact self.updateRequestWithOutput_kept _ generated
  · rename_i hnone
    rw [not_not.mp hnone]
    split
    · exact ⟨rfl, List.prefix_rfl, fun _ => rfl⟩
    · exact ⟨rfl, List.prefix_rfl, fun _ => rfl⟩

/-- How many tokens stay computed after an answer to drafts. -/
theorem Scheduler.rejectDrafts_numComputedTokens {specTokenIds generated : List Token} {r : Request}
    (hspec : specTokenIds ≠ []) (hgenerated : generated ≠ []) :
    (rejectDrafts specTokenIds generated r).numComputedTokens =
      if r.numComputedTokens > 0 then
        r.numComputedTokens - (specTokenIds.length - ((generated.length : Int) - 1))
      else r.numComputedTokens := by
  simp [rejectDrafts, hspec, hgenerated]

/-! ## 2. Continuations -/

/-- The tokens that a continuation leaves. -/
theorem Scheduler.continueSession_tokens (self : Scheduler W) (update : StreamingUpdate)
    (r : Request) :
    (self.continueSession update r).allTokenIds =
        Python.deleteFrom r.allTokenIds r.numComputedTokens ++ update.promptTokenIds.getD [] ∧
      (self.continueSession update r).promptTokenIds = r.promptTokenIds.map (fun prompt =>
        prompt ++ Python.slice r.allTokenIds r.numPromptTokens r.numComputedTokens ++
          update.promptTokenIds.getD []) ∧
      (self.continueSession update r).outputTokenIds = [] ∧
      (self.continueSession update r).numPromptTokens =
        (((self.continueSession update r).promptTokenIds.getD []).length : Int) ∧
      (self.continueSession update r).numComputedTokens = r.numComputedTokens ∧
      (self.continueSession update r).numOutputPlaceholders = r.numOutputPlaceholders := by
  obtain ⟨hashes, h⟩ := self.extendPrompt_eq update (dropUncomputed r)
  unfold continueSession
  rw [h]
  refine ⟨rfl, ?_, rfl, ?_, rfl, rfl⟩
  · cases hprompt : r.promptTokenIds with
    | none => simp [dropUncomputed, hprompt]
    | some prompt => simp [dropUncomputed, hprompt]
  · simp [dropUncomputed]

/-- What `_update_request_as_session` moves to the prompt is what the cut leaves behind it. -/
theorem slice_eq_drop_deleteFrom {items : List Token} {start : Nat} (stop : Int)
    (h : start ≤ items.length) :
    Python.slice items start stop = (Python.deleteFrom items stop).drop start := by
  have hstart : Python.sliceBound items.length (start : Int) = start := by
    rw [Python.sliceBound_of_nonneg (Int.natCast_nonneg start)]
    simp [h]
  rw [Python.slice, hstart, Python.deleteFrom]

/-- A continuation keeps the lists consistent exactly when the cut leaves the prompt whole. -/
theorem Request.TokensConsistent.continueSession_iff (self : Scheduler W) {r : Request}
    (h : r.TokensConsistent) (update : StreamingUpdate) :
    (self.continueSession update r).TokensConsistent ↔
      r.numPromptTokens ≤ (Python.deleteFrom r.allTokenIds r.numComputedTokens).length := by
  obtain ⟨prompt, hprompt, htokens, hcount⟩ := h.tokens
  obtain ⟨hall, hprompts, houtput, hnumPrompt, _, _⟩ := continueSession_tokens self update r
  have hlength : prompt.length ≤ r.allTokenIds.length := by
    rw [htokens, List.length_append]
    omega
  rw [hprompt, Option.map_some, hcount, slice_eq_drop_deleteFrom _ hlength] at hprompts
  have hbegins : Python.deleteFrom r.allTokenIds r.numComputedTokens <+: r.allTokenIds :=
    List.take_prefix _ _
  rw [hcount]
  constructor
  · rintro ⟨prompt', hprompt', htokens', _⟩
    rw [hprompts, Option.some.injEq] at hprompt'
    rw [hall, houtput, List.append_nil, ← hprompt'] at htokens'
    have hkept := congrArg List.length (List.append_cancel_right htokens')
    rw [List.length_append, List.length_drop] at hkept
    omega
  · intro hle
    refine ⟨⟨_, hprompts, ?_, ?_⟩⟩
    · -- the prompt begins all tokens, so it begins what is left of them
      have hwhole : prompt <+: r.allTokenIds := by
        rw [htokens]
        exact List.prefix_append _ _
      obtain ⟨outputs, houtputs⟩ := List.prefix_of_prefix_length_le hwhole hbegins (by omega)
      rw [hall, houtput, List.append_nil, ← houtputs, List.drop_left]
    · rw [hnumPrompt, hprompts, Option.getD_some]

end Edmm
