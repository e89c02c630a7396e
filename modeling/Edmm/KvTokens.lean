/-
  Edmm/KvTokens.lean
  ==================
  **The tokens that the KV cache of a request was computed from.**

  `KvTokens` is what an observer of a run knows about the KV cache of one request:
  the token behind each computed position, and the drafts whose answer is still to
  come.  `KvAgrees` relates it to the token lists.  Up to `num_computed_tokens` the
  KV cache was computed from the tokens of the request and, behind them, from the
  drafts in flight; where a stop trimmed accepted drafts, the counter lies behind all
  of them and says nothing.

  Each section is one thing that happens to a request.
-/
import Edmm.StepOutcomes
import Edmm.SessionTokens

namespace Edmm

open Program

variable {W : Type}

/-! ## 1. The KV cache of a request -/

/-- The token that each position was computed from, and the drafts that are not answered. -/
structure KvTokens where
  token : Nat → Option Token
  inFlight : List Token

namespace KvTokens

def empty : KvTokens := { token := fun _ => none, inFlight := [] }

/-- What the request still counts as computed. -/
def keep (kv : KvTokens) (r : Request) : KvTokens :=
  { kv with token := fun p => if (p : Int) < r.numComputedTokens then kv.token p else none }

/-- A step that computes the tokens handed over with `entry`, the drafts behind the tokens of
    the request.  What was not computed before them comes from a prefix cache or a KV
    connector.  `r` is the request after `_update_after_schedule`. -/
def scheduled (kv : KvTokens) (entry : Option Int) (drafts : List Token) (r : Request) :
    KvTokens :=
  { token := fun p =>
      if r.numComputedTokens ≤ p then none
      else if r.numComputedTokens - entry.getD 0 ≤ p then (r.allTokenIds ++ drafts)[p]?
      else (kv.token p).or r.allTokenIds[p]?
    inFlight := if entry.isSome then drafts else kv.inFlight }

/-- An answer of the worker. -/
def answered (kv : KvTokens) (generated : List Token) : KvTokens :=
  { kv with inFlight := if generated = [] then kv.inFlight else [] }

end KvTokens

/-- How the token lists of a request and its KV cache agree. -/
structure KvAgrees (r : Request) (kv : KvTokens) : Prop where
  consistent : r.promptTokenIds.isSome = true → r.TokensConsistent
  numOutputPlaceholders : r.numOutputPlaceholders = 0
  inFlight : kv.inFlight ≠ [] → r.numComputedTokens ≤ r.numTokens + kv.inFlight.length
  token : ∀ p : Nat, (p : Int) < r.numComputedTokens → p < (r.allTokenIds ++ kv.inFlight).length →
    kv.token p = (r.allTokenIds ++ kv.inFlight)[p]?

namespace KvAgrees

variable {r r' : Request} {kv : KvTokens} {p : Nat}

/-- Within the tokens of the request. -/
theorem token_eq (h : KvAgrees r kv) (hp : (p : Int) < r.numComputedTokens)
    (hlength : p < r.allTokenIds.length) : kv.token p = r.allTokenIds[p]? := by
  rw [h.token p hp (by rw [List.length_append]; omega), List.getElem?_append_left hlength]

/-- The same tokens, with another KV cache. -/
theorem of_tokens (h : KvAgrees r kv) (hsame : Request.SamePayload r r') {kv' : KvTokens}
    (hinFlight : kv'.inFlight ≠ [] →
      r'.numComputedTokens ≤ r.numTokens + kv'.inFlight.length)
    (htoken : ∀ p : Nat, (p : Int) < r'.numComputedTokens →
      p < (r.allTokenIds ++ kv'.inFlight).length →
        kv'.token p = (r.allTokenIds ++ kv'.inFlight)[p]?) : KvAgrees r' kv' where
  consistent := by
    rw [hsame.promptTokenIds]
    intro hprompt
    obtain ⟨prompt, hprompt, htokens, hcount⟩ := (h.consistent hprompt).tokens
    refine ⟨⟨prompt, hsame.promptTokenIds.trans hprompt, ?_, hsame.numPromptTokens.trans hcount⟩⟩
    rw [hsame.allTokenIds, hsame.outputTokenIds, htokens]
  numOutputPlaceholders := hsame.numOutputPlaceholders h.numOutputPlaceholders
  inFlight := by
    rw [Request.numTokens, hsame.allTokenIds]
    exact hinFlight
  token := by
    rw [hsame.allTokenIds]
    exact htoken

/-- The same tokens, of which no more are computed. -/
theorem of_same (h : KvAgrees r kv) (hsame : Request.SamePayload r r')
    (hcomputed : r'.numComputedTokens ≤ max r.numComputedTokens 0) : KvAgrees r' kv := by
  apply h.of_tokens hsame
  · intro hsome
    have hbound := h.inFlight hsome
    have hlength : 0 ≤ r.numTokens := Int.natCast_nonneg _
    omega
  · exact fun p hp => h.token p (by omega)

/-- An answer that is not applied. -/
theorem answered (h : KvAgrees r kv) (generated : List Token) :
    KvAgrees r (kv.answered generated) := by
  by_cases hnone : generated = []
  · subst hnone
    exact h
  have hinFlight : (kv.answered generated).inFlight = [] := if_neg hnone
  refine ⟨h.consistent, h.numOutputPlaceholders, fun hsome => absurd hinFlight hsome, ?_⟩
  intro p hp hlength
  rw [hinFlight, List.append_nil] at hlength ⊢
  exact h.token_eq hp hlength

theorem keep (h : KvAgrees r kv) : KvAgrees r (kv.keep r) where
  consistent := h.consistent
  numOutputPlaceholders := h.numOutputPlaceholders
  inFlight := h.inFlight
  token := by
    intro p hp hlength
    exact (if_pos hp).trans (h.token p hp hlength)

end KvAgrees

/-! ## 2. Scheduling -/

namespace Scheduler

theorem samePayload_advanced (n : Int) (r : Request) : Request.SamePayload r (advanced n r) :=
  { Request.SamePayload.refl r with }

/-- The drafts that are scheduled end where the step ends. -/
theorem scheduledSpecTokens_length {r : Request} {n : Int}
    (hplaceholders : r.numOutputPlaceholders = 0)
    (hbound : n ≤ r.numTokensWithSpec + r.numOutputPlaceholders - r.numComputedTokens)
    (hsome : scheduledSpecTokens r n ≠ []) :
    r.numComputedTokens + n = r.numTokens + (scheduledSpecTokens r n).length := by
  have hlength : r.numTokens = r.allTokenIds.length := rfl
  unfold Request.numTokensWithSpec at hbound
  unfold scheduledSpecTokens at hsome ⊢
  dsimp only at hsome ⊢
  split
  · split
    · rw [List.length_take]
      omega
    · omega
  · rename_i hnone
    rw [if_neg hnone] at hsome
    exact absurd rfl hsome

end Scheduler

/-- What `schedule()` must find of a running request: while drafts are unanswered it has got
    no new ones. -/
def DraftsAnswered (r : Request) : Prop :=
  r.numComputedTokens ≤ r.numTokens ∨ r.specTokenIds = []

instance (r : Request) : Decidable (DraftsAnswered r) := inferInstanceAs (Decidable (_ ∨ _))

section
variable {r r' : Request} {kv : KvTokens}

/-- Below the tokens of the request, where nothing behind the counter is known. -/
theorem KvAgrees.or_eq (h : KvAgrees r kv)
    (hbeyond : ∀ p : Nat, r.numComputedTokens ≤ p → kv.token p = none) {p : Nat}
    (hp : p < r.allTokenIds.length) :
    (kv.token p).or r.allTokenIds[p]? = r.allTokenIds[p]? := by
  rcases lt_or_ge (p : Int) r.numComputedTokens with hlt | hge
  · rw [h.token_eq hlt hp, Option.or_self]
  · rw [hbeyond p hge, Option.none_or]

/-- A request that is handed nothing, whatever drafts are listed under its id. -/
theorem KvAgrees.passed (h : KvAgrees r kv)
    (hbeyond : ∀ p : Nat, r.numComputedTokens ≤ p → kv.token p = none)
    (hsame : Request.SamePayload r r')
    (hcomputed : r'.numComputedTokens = r.numComputedTokens ∨
      r'.numComputedTokens ≤ r.numTokens) (drafts : List Token) :
    KvAgrees r' (kv.scheduled none drafts r') := by
  apply h.of_tokens hsame
  · intro hsome
    rcases hcomputed with hcomputed | hcomputed
    · rw [hcomputed]
      exact h.inFlight hsome
    · omega
  · intro p hp hlength
    have hlength : p < (r.allTokenIds ++ kv.inFlight).length := hlength
    have hnumTokens : r.numTokens = r.allTokenIds.length := rfl
    change (if r'.numComputedTokens ≤ p then none
      else if r'.numComputedTokens - 0 ≤ p then (r'.allTokenIds ++ drafts)[p]?
      else (kv.token p).or r'.allTokenIds[p]?) = (r.allTokenIds ++ kv.inFlight)[p]?
    rw [if_neg (by omega), if_neg (by omega), hsame.allTokenIds]
    rcases hcomputed with hcomputed | hcomputed
    · rw [h.token p (by omega) hlength, List.getElem?_eq_getElem hlength, Option.some_or]
    · rw [h.or_eq hbeyond (by omega), List.getElem?_append_left (by omega)]

/-- A running request that is handed tokens, with the drafts among them. -/
theorem KvAgrees.ran (h : KvAgrees r kv) (hanswered : DraftsAnswered r) {n : Int}
    (hbound : n ≤ r.numTokensWithSpec + r.numOutputPlaceholders - r.numComputedTokens) :
    KvAgrees (Scheduler.advanced n (Scheduler.clearSpecTokens r))
      (kv.scheduled (some n) (Scheduler.scheduledSpecTokens r n)
        (Scheduler.advanced n (Scheduler.clearSpecTokens r))) := by
  have hnumTokens : r.numTokens = r.allTokenIds.length := rfl
  apply h.of_tokens
    ((Scheduler.samePayload_clearSpecTokens r).trans (Scheduler.samePayload_advanced n _))
  · intro hsome
    exact le_of_eq (Scheduler.scheduledSpecTokens_length h.numOutputPlaceholders hbound hsome)
  · intro p hp hlength
    have hp : (p : Int) < r.numComputedTokens + n := hp
    change (if r.numComputedTokens + n ≤ p then none
      else if r.numComputedTokens + n - n ≤ p then
        (r.allTokenIds ++ Scheduler.scheduledSpecTokens r n)[p]?
      else (kv.token p).or r.allTokenIds[p]?) =
        (r.allTokenIds ++ Scheduler.scheduledSpecTokens r n)[p]?
    rw [if_neg (by omega)]
    split
    · rfl
    · rename_i hbefore
      have hwithin : p < r.allTokenIds.length := by
        rcases hanswered with hbehind | hnone
        · omega
        · rw [Request.numTokensWithSpec, hnone, h.numOutputPlaceholders] at hbound
          simp only [List.length_nil] at hbound
          omega
      rw [h.token_eq (by omega) hwithin, Option.or_self, List.getElem?_append_left hwithin]

/-- A waiting request that is handed some of the tokens it has to compute. -/
theorem KvAgrees.admitted (h : KvAgrees r kv)
    (hbeyond : ∀ p : Nat, r.numComputedTokens ≤ p → kv.token p = none)
    (hsame : Request.SamePayload r r') {n : Int} (hbound : n ≤ r.numTokens - r'.numComputedTokens) :
    KvAgrees (Scheduler.advanced n r')
      (kv.scheduled (some n) [] (Scheduler.advanced n r')) := by
  have hnumTokens : r.numTokens = r.allTokenIds.length := rfl
  apply h.of_tokens (hsame.trans (Scheduler.samePayload_advanced n r'))
  · exact fun hsome => absurd rfl hsome
  · intro p hp hlength
    have hp : (p : Int) < r'.numComputedTokens + n := hp
    have hwithin : p < r.allTokenIds.length := by omega
    change (if r'.numComputedTokens + n ≤ p then none
      else if r'.numComputedTokens + n - n ≤ p then (r'.allTokenIds ++ [])[p]?
      else (kv.token p).or r'.allTokenIds[p]?) = (r.allTokenIds ++ [])[p]?
    rw [if_neg (by omega), hsame.allTokenIds]
    split
    · rfl
    · rw [h.or_eq hbeyond hwithin, List.append_nil]

/-- **`schedule()`.** -/
theorem KvAgrees.scheduled {runs : Prop} {entry : Option Int} {drafts : List Token}
    (h : KvAgrees r kv) (hbeyond : ∀ p : Nat, r.numComputedTokens ≤ p → kv.token p = none)
    (houtcome : Scheduler.StepOutcome runs r r' entry drafts)
    (hanswered : runs → DraftsAnswered r) :
    KvAgrees (Scheduler.advancedBy entry r')
      (kv.scheduled entry drafts (Scheduler.advancedBy entry r')) := by
  cases houtcome with
  | passed hsame hcomputed => exact h.passed hbeyond hsame hcomputed []
  | running n hruns hbound => exact h.ran (hanswered hruns) hbound
  | admitted n hsame hsome hbound => exact h.admitted hbeyond hsame hbound

end

/-! ## 3. Answers -/

/-- An answer that pairs with what is computed: it is empty, or nothing behind the tokens is
    computed, or it answers the drafts in flight and accepts the first of them. -/
def AnswerFits (r : Request) (inFlight drafts generated : List Token) : Prop :=
  generated = [] ∨
    (r.numComputedTokens ≤ r.numTokens ∧ (drafts = [] ∨ generated.length ≤ drafts.length + 1)) ∨
    (drafts ≠ [] ∧ drafts = inFlight ∧ generated.dropLast <+: drafts)

instance (r : Request) (inFlight drafts generated : List Token) :
    Decidable (AnswerFits r inFlight drafts generated) :=
  inferInstanceAs (Decidable (_ ∨ _ ∨ _))

/-- Fewer computed tokens do not matter. -/
theorem AnswerFits.cut {r r' : Request} {inFlight drafts generated : List Token}
    (h : AnswerFits r inFlight drafts generated) (htokens : r'.numTokens = r.numTokens)
    (hcomputed : r'.numComputedTokens ≤ max r.numComputedTokens 0) :
    AnswerFits r' inFlight drafts generated := by
  have hlength : 0 ≤ r.numTokens := Int.natCast_nonneg _
  rcases h with hnone | ⟨hbehind, hshort⟩ | hdrafts
  · exact Or.inl hnone
  · exact Or.inr (Or.inl ⟨by omega, hshort⟩)
  · exact Or.inr (Or.inr hdrafts)

/-- The computed tokens after an answer. -/
theorem AnswerFits.numComputedTokens_le {r : Request} {inFlight drafts generated : List Token}
    (h : AnswerFits r inFlight drafts generated) :
    (Scheduler.rejectDrafts drafts generated r).numComputedTokens ≤ r.numComputedTokens := by
  by_cases hsome : drafts ≠ [] ∧ generated ≠ []
  · rw [Scheduler.rejectDrafts_numComputedTokens hsome.1 hsome.2]
    have hshort : generated.length ≤ drafts.length + 1 := by
      rcases h with hnone | ⟨_, hnone | hshort⟩ | ⟨_, _, haccepted⟩
      · exact absurd hnone hsome.2
      · exact absurd hnone hsome.1
      · exact hshort
      · have hlength := haccepted.length_le
        rw [List.length_dropLast] at hlength
        omega
    split <;> omega
  · rw [Scheduler.rejectDrafts, if_neg hsome]

theorem getElem?_of_prefix {items items' : List Token} (h : items <+: items') {i : Nat}
    (hi : i < items.length) : items'[i]? = items[i]? := by
  obtain ⟨rest, rfl⟩ := h
  exact List.getElem?_append_left hi

/-- **`update_from_output`**, for one request. -/
theorem KvAgrees.answer (self : Scheduler W) {r : Request} {kv : KvTokens} (h : KvAgrees r kv)
    {drafts generated : List Token} (hfits : AnswerFits r kv.inFlight drafts generated)
    (hasPoolerOutput : Bool) :
    KvAgrees (self.applyOutput drafts generated hasPoolerOutput r).1 (kv.answered generated) := by
  obtain ⟨kept, hprompt, hnumPrompt, hall, houtput, hcomputed, hkept, _⟩ :=
    self.applyOutput_kept drafts generated hasPoolerOutput r
  have hextends := self.applyOutput_extends drafts generated hasPoolerOutput r
  have hplaceholders := hextends.placeholders h.numOutputPlaceholders
  clear hextends
  generalize (self.applyOutput drafts generated hasPoolerOutput r).1 = r' at *
  have hconsistent : r'.promptTokenIds.isSome = true → r'.TokensConsistent := by
    rw [hprompt]
    intro hsome
    obtain ⟨prompt, hprompt', htokens, hcount⟩ := (h.consistent hsome).tokens
    refine ⟨⟨prompt, hprompt.trans hprompt', ?_, hnumPrompt.trans hcount⟩⟩
    rw [hall, houtput, htokens, List.append_assoc]
  by_cases hnone : generated = []
  · subst hnone
    rw [List.prefix_nil.mp hkept, List.append_nil] at hall
    rw [Scheduler.rejectDrafts, if_neg (fun hsome => hsome.2 rfl)] at hcomputed
    refine ⟨hconsistent, hplaceholders, ?_, ?_⟩
    · rw [Request.numTokens, hall, hcomputed]
      exact h.inFlight
    · rw [hall, hcomputed]
      exact h.token
  have hfewer := hfits.numComputedTokens_le
  rw [← hcomputed] at hfewer
  have hinFlight : (kv.answered generated).inFlight = [] := if_neg hnone
  refine ⟨hconsistent, hplaceholders, fun hsome => absurd hinFlight hsome, ?_⟩
  intro p hp hlength
  rw [hinFlight, List.append_nil, hall] at hlength ⊢
  change kv.token p = (r.allTokenIds ++ kept)[p]?
  rcases lt_or_ge p r.allTokenIds.length with hwithin | hbehind
  · rw [h.token_eq (by omega) hwithin, List.getElem?_append_left hwithin]
  · -- behind the tokens only accepted drafts are computed
    have hnumTokens : r.numTokens = r.allTokenIds.length := rfl
    obtain ⟨hdrafts, rfl, haccepted⟩ : drafts ≠ [] ∧ drafts = kv.inFlight ∧
        generated.dropLast <+: drafts := by
      rcases hfits with h | ⟨hle, _⟩ | h
      · exact absurd h hnone
      · omega
      · exact h
    have hbound := h.inFlight hdrafts
    have hshort := haccepted.length_le
    rw [Scheduler.rejectDrafts_numComputedTokens hdrafts hnone, if_pos (by omega)] at hcomputed
    rw [List.length_append] at hlength
    have hposition : p - r.allTokenIds.length < generated.dropLast.length := by
      rw [List.length_dropLast]
      omega
    have hkeptAt : p - r.allTokenIds.length < kept.length := by omega
    rw [h.token p (by omega) (by rw [List.length_append]; omega),
      List.getElem?_append_right hbehind, List.getElem?_append_right hbehind,
      getElem?_of_prefix haccepted hposition, ← getElem?_of_prefix hkept hkeptAt]
    rw [List.length_dropLast] at hposition
    rw [List.getElem?_dropLast, if_pos hposition]

/-- The answer of the worker, whether or not a grammar accepts it. -/
theorem KvAgrees.delivered {self : Scheduler W} {r r' : Request} {kv : KvTokens}
    (h : KvAgrees r kv) {drafts : List Token} {generated : List Token × Bool} {stopped : Bool}
    (hfits : AnswerFits r kv.inFlight drafts generated.1)
    (hdelivered : self.Delivered drafts generated r r' stopped) :
    KvAgrees r' (kv.answered generated.1) := by
  cases hdelivered with
  | applied => exact h.answer self hfits generated.2
  | rejected htokens hgrammar =>
    exact (h.answer self hfits generated.2).of_same { Request.SamePayload.refl _ with }
      (le_max_left _ _)

/-! ## 4. Continuations -/

/-- The continuation cuts behind the prompt, and no more is computed than there are tokens. -/
def ComputedWithinTokens (r : Request) : Prop :=
  r.numPromptTokens ≤ (Python.deleteFrom r.allTokenIds r.numComputedTokens).length ∧
    r.numComputedTokens ≤ r.numTokens

instance (r : Request) : Decidable (ComputedWithinTokens r) :=
  inferInstanceAs (Decidable (_ ∧ _))

/-- Of a session that was `taken` and is now `r`, the computed tokens are within the history
    that was kept, and are those the KV cache was computed from. -/
def HistoryKept (kv : KvTokens) (taken r : Request) : Prop :=
  r.numComputedTokens ≤ (Python.deleteFrom taken.allTokenIds taken.numComputedTokens).length ∧
    ∀ p < r.numComputedTokens.toNat, r.allTokenIds[p]? = kv.token p

instance (kv : KvTokens) (taken r : Request) : Decidable (HistoryKept kv taken r) :=
  inferInstanceAs (Decidable (_ ∧ _))

section
variable (self : Scheduler W) {r : Request} {kv : KvTokens}

/-- What the cut keeps, below the computed tokens. -/
theorem getElem?_deleteFrom {items : List Token} {stop : Int} (hstop : stop ≤ items.length)
    {p : Nat} (hp : (p : Int) < stop) :
    p < (Python.deleteFrom items stop).length ∧ (Python.deleteFrom items stop)[p]? = items[p]? := by
  rw [Python.deleteFrom, Python.sliceBound_of_nonneg (by omega), List.length_take,
    List.getElem?_take, if_pos (by omega)]
  exact ⟨by omega, rfl⟩

/-- **`_update_request_as_session`**, when it cuts behind the prompt and within the tokens. -/
theorem KvAgrees.continued (h : KvAgrees r kv) (hprompt : r.promptTokenIds.isSome = true)
    (hwithin : ComputedWithinTokens r) (update : StreamingUpdate) :
    KvAgrees (self.continueSession update r) kv ∧
      HistoryKept kv r (self.continueSession update r) := by
  obtain ⟨hcut, hbound⟩ := hwithin
  have hnumTokens : r.numTokens = r.allTokenIds.length := rfl
  obtain ⟨hall, _, _, _, hcomputed, hplaceholders⟩ := self.continueSession_tokens update r
  have hconsistent := ((h.consistent hprompt).continueSession_iff self update).mpr hcut
  have hkept : ∀ p : Nat, (p : Int) < r.numComputedTokens →
      p < (self.continueSession update r).allTokenIds.length ∧
        (self.continueSession update r).allTokenIds[p]? = kv.token p := by
    intro p hp
    obtain ⟨hlength, hget⟩ := getElem?_deleteFrom (hnumTokens ▸ hbound) hp
    rw [hall, List.length_append, List.getElem?_append_left hlength, hget,
      h.token_eq hp (by omega)]
    exact ⟨by omega, rfl⟩
  constructor
  · refine ⟨fun _ => hconsistent, hplaceholders.trans h.numOutputPlaceholders, fun _ => ?_, ?_⟩
    · rw [hcomputed, Request.numTokens]
      by_contra hgreater
      have hlast := (hkept (r.numComputedTokens - 1).toNat (by omega)).1
      omega
    · intro p hp hlength
      rw [hcomputed] at hp
      obtain ⟨hwithin, hget⟩ := hkept p hp
      rw [List.getElem?_append_left hwithin, hget]
  · rw [HistoryKept, hcomputed]
    constructor
    · by_contra hgreater
      have hlast : ((r.numComputedTokens - 1).toNat : Int) < r.numComputedTokens := by omega
      have hlength := (getElem?_deleteFrom (hnumTokens ▸ hbound) hlast).1
      omega
    · exact fun p hp => (hkept p (by omega)).2

/-- A continuation that keeps the lists consistent and the history is such a one. -/
theorem KvAgrees.within_of_kept (h : KvAgrees r kv) (hprompt : r.promptTokenIds.isSome = true)
    (update : StreamingUpdate)
    (hconsistent : (self.continueSession update r).TokensConsistent)
    (hkept : HistoryKept kv r (self.continueSession update r)) : ComputedWithinTokens r := by
  obtain ⟨_, _, _, _, hcomputed, _⟩ := self.continueSession_tokens update r
  refine ⟨((h.consistent hprompt).continueSession_iff self update).mp hconsistent, ?_⟩
  have hbound := hkept.1
  rw [hcomputed, Python.deleteFrom, List.length_take] at hbound
  unfold Request.numTokens
  omega

end

end Edmm
