/-
  Edmm/SessionRuns.lean
  =====================
  **The token lists of all sessions, along a run.**

  The counter that a continuation cuts at means the end of what is computed only while it lies
  between the end of the prompt and the end of the tokens:

    * after accepted drafts of which a stop trims the last ones it lies behind the tokens, and
      the first tokens of the next chunk count as computed;
    * after a preemption it is 0, and the continuation takes back the prompt from one list but
      not from the other (`trimmed_and_preempted_sessions`).

  A run in which the answers pair with what was scheduled keeps the lists consistent and the
  computed tokens those that were computed exactly when every continuation meets such a counter
  (`sessionsKept_iff`).
-/
import Edmm.KvTokens
import Edmm.RequestLife
import Edmm.WorkerPayload

namespace Edmm

open Program Scheduler

variable {W : Type}

/-! ## 1. The law -/

/-- The tokens that the worker generated for a scheduled request. -/
def answerFor (out : SchedulerOutput) (mro : ModelRunnerOutput) (reqId : RequestId) : List Token :=
  if reqId ∈ out.numScheduledTokens.keys then
    match generatedFor mro reqId with
    | .ok generated => generated.1
    | .error _ => []
  else []

/-- What one step makes of the KV cache of a request. -/
def KvTokens.after (x : Ref) (kv : KvTokens) (step : SchedulerStep W) : KvTokens :=
  let reqId := (step.before.objs x).requestId
  let r := step.after.objs x
  if step.before.requests.get? reqId = some x then
    match step.op, step.output with
    | .schedule, some out =>
        kv.scheduled (out.numScheduledTokens.get? reqId) (scheduledSpecFor out reqId) r
    | .updateFromOutput out mro, _ => (kv.answered (answerFor out mro reqId)).keep r
    | _, _ => kv.keep r
  else kv.keep r

/-- The KV cache of a request after a run. -/
def kvTokens (history : List (SchedulerStep W)) (x : Ref) : KvTokens :=
  history.foldl (KvTokens.after x) KvTokens.empty

theorem kvTokens_append (history : List (SchedulerStep W)) (step : SchedulerStep W) (x : Ref) :
    kvTokens (history ++ [step]) x = (kvTokens history x).after x step := by
  rw [kvTokens, List.foldl_append]
  rfl

/-- The session took its next input from its queue. -/
def TookInput (r r' : Request) : Prop :=
  r.hasNextInput = true ∧ r'.streamingQueue ≠ r.streamingQueue

instance (r r' : Request) : Decidable (TookInput r r') := inferInstanceAs (Decidable (_ ∧ _))

/-- The sessions that a step continues, as `_update_request_as_session` finds them. -/
def Scheduler.continuedBy (self : Scheduler W) (step : SchedulerStep W) : List (Ref × Request) :=
  match step.op with
  | .addRequest params =>
      match Request.init self.externals.blockHasher params with
      | .error _ => []
      | .ok request =>
          match step.before.requests.get? request.requestId with
          | none => []
          | some session =>
              if (step.before.objs session).status = .waitingForStreamingReq ∧
                  (StreamingUpdate.fromRequest request).isSome = true then
                [(session, step.before.objs session)]
              else []
  | .updateFromOutput out mro =>
      let loaded := finalState (self.handleFailedLoads out mro (traceless step.before))
      out.numScheduledTokens.keys.filterMap fun reqId =>
        match step.before.requests.get? reqId, generatedFor mro reqId with
        | some session, .ok generated =>
            if TookInput (step.before.objs session) (step.after.objs session) then
              some (session, (self.applyOutput (scheduledSpecFor out reqId) generated.1
                generated.2 (loaded.objs session)).1)
            else none
        | _, _ => none
  | _ => []

/-- After a step the token lists belong together, and the sessions that it continued keep what
    was computed. -/
def KeepsSessions (self : Scheduler W) (earlier : List (SchedulerStep W))
    (step : SchedulerStep W) : Prop :=
  (∀ x < step.after.nextRef, (step.after.objs x).promptTokenIds.isSome = true →
    (step.after.objs x).TokensConsistent) ∧
  ∀ entry ∈ self.continuedBy step,
    HistoryKept (kvTokens earlier entry.1) entry.2 (step.after.objs entry.1)

def SessionsKept (self : Scheduler W) (history : List (SchedulerStep W)) : Prop :=
  ∀ earlier step later, history = earlier ++ step :: later → KeepsSessions self earlier step

/-! What a run must meet. -/

/-- What `schedule()` must find: every request once in the queues, none finished there, and no
    new drafts while others are unanswered. -/
structure ReadyForDrafts (s : SchedulerState W) : Prop where
  once : (heldQueues s []).Nodup
  unfinished : ∀ x, Queued s x → (s.objs x).isFinished = false
  answered : ∀ x ∈ s.running, DraftsAnswered (s.objs x)

theorem readyForDrafts_iff (s : SchedulerState W) :
    ((heldQueues s []).Nodup ∧ (∀ x ∈ heldQueues s [], (s.objs x).isFinished = false) ∧
      ∀ x ∈ s.running, DraftsAnswered (s.objs x)) ↔ ReadyForDrafts s := by
  constructor
  · intro h
    exact ⟨h.1, fun x hx => h.2.1 x ((mem_heldQueues_nil x).mpr hx), h.2.2⟩
  · intro h
    exact ⟨h.once, fun x hx => h.unfinished x ((mem_heldQueues_nil x).mp hx), h.answered⟩

instance (s : SchedulerState W) : Decidable (ReadyForDrafts s) :=
  decidable_of_iff _ (readyForDrafts_iff s)

/-- The answers of a step pair with what was scheduled. -/
def SchedulerStep.PairsAnswers (kv : Ref → KvTokens) (step : SchedulerStep W) : Prop :=
  match step.op with
  | .schedule => ReadyForDrafts step.before
  | .updateFromOutput out mro => ∀ reqId ∈ out.numScheduledTokens.keys,
      0 ≤ (out.numScheduledTokens.get? reqId).getD 0 ∧
      ∀ x ∈ step.before.unfinished? reqId,
        AnswerFits (step.before.objs x) (kv x).inFlight (scheduledSpecFor out reqId)
          (answerFor out mro reqId)
  | _ => True

def AnswersPaired (history : List (SchedulerStep W)) : Prop :=
  ∀ earlier step later, history = earlier ++ step :: later →
    SchedulerStep.PairsAnswers (kvTokens earlier) step

/-- Every continuation cuts behind the prompt and within the tokens. -/
def ContinuesWithinTokens (self : Scheduler W) (history : List (SchedulerStep W)) : Prop :=
  ∀ step ∈ history, ∀ entry ∈ self.continuedBy step, ComputedWithinTokens entry.2

namespace Scheduler

variable {self : Scheduler W}

/-! ## 2. `update_from_output` -/

/-- What `update_from_output` makes of the request `x`; `start` is the state before its loop. -/
inductive UpdateOutcome (scheduler : Scheduler W) (out : SchedulerOutput)
    (mro : ModelRunnerOutput) (start : SchedulerState W) (x : Ref) : Request → Prop where
  | passed {r' : Request} (hsame : Request.SamePayload (start.objs x) r')
      (hcomputed : r'.numComputedTokens = (start.objs x).numComputedTokens)
      (hqueue : r'.streamingQueue = (start.objs x).streamingQueue) :
      UpdateOutcome scheduler out mro start x r'
  | answered {generated : List Token × Bool} {r r' : Request} {stopped : Bool}
      (hkey : (start.objs x).requestId ∈ out.numScheduledTokens.keys)
      (hunfinished : start.unfinished? (start.objs x).requestId = some x)
      (hgenerated : generatedFor mro (start.objs x).requestId = .ok generated)
      (hdelivered : scheduler.Delivered (scheduledSpecFor out (start.objs x).requestId) generated
        (start.objs x) r stopped)
      (hsame : Request.SamePayload r r') (hcomputed : r'.numComputedTokens = r.numComputedTokens)
      (hqueue : r'.streamingQueue = (start.objs x).streamingQueue ∨
        (start.objs x).hasNextInput = false) :
      UpdateOutcome scheduler out mro start x r'
  | continued {generated : List Token × Bool} {r r' : Request} {update : StreamingUpdate}
      {rest : List (Option StreamingUpdate)}
      (hkey : (start.objs x).requestId ∈ out.numScheduledTokens.keys)
      (hunfinished : start.unfinished? (start.objs x).requestId = some x)
      (hgenerated : generatedFor mro (start.objs x).requestId = .ok generated)
      (hdelivered : scheduler.Delivered (scheduledSpecFor out (start.objs x).requestId) generated
        (start.objs x) r true)
      (hresumable : r.resumable = true) (hprompt : r.promptTokenIds.isSome = true)
      (hinput : (start.objs x).streamingQueue = some (some update :: rest))
      (hsame : Request.SamePayload
        (scheduler.continueSession update { r with streamingQueue := some rest }) r')
      (hcomputed : r'.numComputedTokens = r.numComputedTokens)
      (hqueue : r'.streamingQueue = some rest) :
      UpdateOutcome scheduler out mro start x r'

section
variable {out : SchedulerOutput} {mro : ModelRunnerOutput} {start : SchedulerState W} {x : Ref}

/-- A later write that touches neither the tokens nor the queue. -/
theorem UpdateOutcome.write {r r' : Request} (h : self.UpdateOutcome out mro start x r)
    (hwrite : Request.SamePayload r r') (hcomputed' : r'.numComputedTokens = r.numComputedTokens)
    (hqueue' : r'.streamingQueue = r.streamingQueue) : self.UpdateOutcome out mro start x r' := by
  cases h with
  | passed hsame hcomputed hqueue =>
    exact UpdateOutcome.passed (hsame.trans hwrite) (hcomputed'.trans hcomputed)
      (hqueue'.trans hqueue)
  | answered hkey hunfinished hgenerated hdelivered hsame hcomputed hqueue =>
    refine UpdateOutcome.answered hkey hunfinished hgenerated hdelivered (hsame.trans hwrite)
      (hcomputed'.trans hcomputed) ?_
    rw [hqueue']
    exact hqueue
  | continued hkey hunfinished hgenerated hdelivered hresumable hprompt hinput hsame hcomputed
      hqueue =>
    exact UpdateOutcome.continued hkey hunfinished hgenerated hdelivered hresumable hprompt hinput
      (hsame.trans hwrite) (hcomputed'.trans hcomputed) (hqueue'.trans hqueue)

theorem Delivered.streamingQueue {specTokenIds : List Token} {generated : List Token × Bool}
    {before after : Request} {stopped : Bool}
    (h : self.Delivered specTokenIds generated before after stopped) :
    after.streamingQueue = before.streamingQueue := by
  obtain ⟨kept, hashes, computed, placeholders, status, reason, resumable, rfl⟩ := h.form
  rfl

/-- The output of a request that was not touched before. -/
theorem Answered.outcome {s : SchedulerState W} {reqId : RequestId} {r r' : Request}
    {stopped : Bool} (h : self.Answered out mro start s reqId x r stopped)
    (hsame : Request.SamePayload r r') (hcomputed : r'.numComputedTokens = r.numComputedTokens)
    (hqueue : r'.streamingQueue = r.streamingQueue ∨ r.hasNextInput = false) :
    self.UpdateOutcome out mro start x r' := by
  have hcarries := h.carries
  rw [h.untouched] at hcarries
  subst hcarries
  obtain ⟨generated, hgenerated, hdelivered⟩ := h.delivered
  rw [h.untouched] at hdelivered
  refine UpdateOutcome.answered h.scheduled h.unfinished hgenerated hdelivered hsame hcomputed ?_
  rw [Request.hasNextInput, hdelivered.streamingQueue] at hqueue
  exact hqueue

theorem Answered.outcome_continued {s : SchedulerState W} {reqId : RequestId} {r r' : Request}
    (h : self.Answered out mro start s reqId x r true) (hcontinues : self.Continues r r') :
    self.UpdateOutcome out mro start x r' := by
  have hcarries := h.carries
  rw [h.untouched] at hcarries
  subst hcarries
  obtain ⟨generated, hgenerated, hdelivered⟩ := h.delivered
  rw [h.untouched] at hdelivered
  obtain ⟨hresumable, update, rest, hqueue, hprompt, rfl⟩ := hcontinues
  rw [hdelivered.streamingQueue] at hqueue
  refine UpdateOutcome.continued h.scheduled h.unfinished hgenerated hdelivered hresumable hprompt
    hqueue (Request.SamePayload.refl _) ?_ ?_
  · exact (self.continueSession_tokens update _).2.2.2.2.1
  · obtain ⟨hashes, hextend⟩ :=
      self.extendPrompt_eq update (dropUncomputed { r with streamingQueue := some rest })
    unfold continueSession
    rw [hextend]
    rfl

/-- A write to one request leaves what became of the others alone. -/
theorem UpdateOutcome.update (objs : Ref → Request)
    (h : self.UpdateOutcome out mro start x (objs x)) (request : Ref) {r : Request}
    (hself : x = request → self.UpdateOutcome out mro start x r) :
    self.UpdateOutcome out mro start x (Function.update objs request r x) := by
  rw [Function.update_apply]
  split
  · rename_i heq
    exact hself heq
  · exact h

/-- **Step lemma.** -/
theorem OutputEffect.outcome {reqId : RequestId} {p p' : SchedulerState W × OutputLocals}
    (h : self.OutputEffect out mro start reqId p p')
    (hx : self.UpdateOutcome out mro start x (p.1.objs x)) :
    self.UpdateOutcome out mro start x (p'.1.objs x) := by
  cases h with
  | touch s acc w => exact hx
  | report s acc request outputs hscheduled hunfinished =>
    refine UpdateOutcome.update s.objs hx request fun heq => ?_
    subst heq
    exact hx.write { Request.SamePayload.refl (s.objs x) with } rfl rfl
  | @deliver s acc request r w hanswered =>
    refine UpdateOutcome.update s.objs hx request fun heq => ?_
    subst heq
    exact hanswered.outcome (Request.SamePayload.refl r) rfl (Or.inl rfl)
  | @finish s acc request r r' delayed w w' hanswered hends hdelayed =>
    refine UpdateOutcome.update s.objs hx request fun heq => ?_
    subst heq
    rcases hends with ⟨_, rfl⟩ | ⟨rest, hqueue, rfl⟩
    · exact hanswered.outcome (Request.SamePayload.refl r') rfl (Or.inl rfl)
    · refine hanswered.outcome { Request.SamePayload.refl r with } rfl (Or.inr ?_)
      rw [Request.hasNextInput, hqueue]
  | @idle s acc request r w hanswered hresumable hempty =>
    refine UpdateOutcome.update s.objs hx request fun heq => ?_
    subst heq
    exact hanswered.outcome { Request.SamePayload.refl r with } rfl (Or.inl rfl)
  | @proceed s acc request r r' w hanswered hcontinues =>
    refine UpdateOutcome.update s.objs hx request fun heq => ?_
    subst heq
    exact hanswered.outcome_continued hcontinues

/-- **`update_from_output`**, for one request. -/
theorem Updated.outcome {s done s' : SchedulerState W} {acc : OutputLocals}
    (h : self.Updated out mro s start done acc s') (x : Ref) :
    self.UpdateOutcome out mro start x (s'.objs x) := by
  have hdone : self.UpdateOutcome out mro start x (done.objs x) := by
    apply invariant_of_chain (I := fun p : SchedulerState W × OutputLocals =>
      self.UpdateOutcome out mro start x (p.1.objs x)) _ h.outputs
    · exact UpdateOutcome.passed (Request.SamePayload.refl _) rfl rfl
    · rintro p p' ⟨reqId, heffect⟩ hbefore
      exact heffect.outcome hbefore
  obtain ⟨status, hstatus⟩ := h.objs x
  rw [hstatus]
  exact hdone.write { Request.SamePayload.refl (done.objs x) with } rfl rfl

/-- What is registered in the loop was registered before. -/
theorem Updated.registered_of_start {s done s' : SchedulerState W} {acc : OutputLocals}
    (h : self.Updated out mro s start done acc s') {reqId : RequestId}
    (hget : start.requests.get? reqId = some x) : s.requests.get? reqId = some x := by
  refine invariant_of_chain (I := fun t : SchedulerState W =>
    t.requests.get? reqId = some x → s.requests.get? reqId = some x) ?_ h.invalid id hget
  intro t t' heffect hbefore hafter
  cases heffect with
  | drop w hregistered hfinished =>
    rw [Dict.get?_erase] at hafter
    split at hafter
    · cases hafter
    · exact hbefore hafter
  | touch | loads | recompute => exact hbefore hafter

end

/-! ## 3. One step -/

/-- The session `taken` was continued and is now `r`. -/
structure ContinuedAs (scheduler : Scheduler W) (kv : KvTokens) (taken r : Request) : Prop where
  agrees : KvAgrees taken kv
  prompt : taken.promptTokenIds.isSome = true
  continued : ∃ update streamingQueue,
    Request.SamePayload (scheduler.continueSession update { taken with streamingQueue }) r
  computed : r.numComputedTokens = taken.numComputedTokens

section
variable {kv : KvTokens} {taken r : Request}

theorem ContinuedAs.kept (h : self.ContinuedAs kv taken r) (hwithin : ComputedWithinTokens taken) :
    KvAgrees r kv ∧ HistoryKept kv taken r := by
  obtain ⟨update, streamingQueue, hsame⟩ := h.continued
  have hagrees : KvAgrees { taken with streamingQueue } kv :=
    h.agrees.of_same { Request.SamePayload.refl taken with } (le_max_left _ _)
  have hcomputed := (self.continueSession_tokens update { taken with streamingQueue }).2.2.2.2.1
  have hcomputed : r.numComputedTokens =
      (self.continueSession update { taken with streamingQueue }).numComputedTokens :=
    h.computed.trans hcomputed.symm
  obtain ⟨hafter, hkept⟩ := hagrees.continued self h.prompt hwithin update
  refine ⟨hafter.of_same hsame (hcomputed ▸ le_max_left _ _), ?_⟩
  rw [HistoryKept, hcomputed, hsame.allTokenIds]
  exact hkept

theorem ContinuedAs.within (h : self.ContinuedAs kv taken r)
    (hconsistent : r.promptTokenIds.isSome = true → r.TokensConsistent)
    (hkept : HistoryKept kv taken r) : ComputedWithinTokens taken := by
  obtain ⟨update, streamingQueue, hsame⟩ := h.continued
  have hagrees : KvAgrees { taken with streamingQueue } kv :=
    h.agrees.of_same { Request.SamePayload.refl taken with } (le_max_left _ _)
  obtain ⟨_, hprompt, _, _, hcomputed, _⟩ :=
    self.continueSession_tokens update { taken with streamingQueue }
  have hcomputed : r.numComputedTokens =
      (self.continueSession update { taken with streamingQueue }).numComputedTokens :=
    h.computed.trans hcomputed.symm
  rw [HistoryKept, hcomputed, hsame.allTokenIds] at hkept
  refine hagrees.within_of_kept self h.prompt update ?_ hkept
  have hsome : r.promptTokenIds.isSome = true := by
    rw [hsame.promptTokenIds, hprompt, Option.isSome_map]
    exact h.prompt
  obtain ⟨prompt, hprompt, htokens, hcount⟩ := (hconsistent hsome).tokens
  rw [hsame.promptTokenIds] at hprompt
  rw [hsame.allTokenIds, hsame.outputTokenIds] at htokens
  rw [hsame.numPromptTokens] at hcount
  exact ⟨⟨prompt, hprompt, htokens, hcount⟩⟩

end

/-- What is behind the computed tokens is not kept. -/
theorem KvTokens.after_beyond (kv : KvTokens) (x : Ref) (step : SchedulerStep W) (p : Nat)
    (hp : (step.after.objs x).numComputedTokens ≤ p) : (kv.after x step).token p = none := by
  have hkeep : ∀ kv : KvTokens, (kv.keep (step.after.objs x)).token p = none :=
    fun _ => if_neg (by omega)
  unfold KvTokens.after
  dsimp only
  split
  · split
    · exact if_pos hp
    · exact hkeep _
    · exact hkeep _
  · exact hkeep _

/-- Steps that compute nothing and answer nothing. -/
theorem KvTokens.after_keep (kv : KvTokens) (x : Ref) {step : SchedulerStep W}
    (hop : step.op ≠ .schedule ∧ ∀ out mro, step.op ≠ .updateFromOutput out mro) :
    kv.after x step = kv.keep (step.after.objs x) := by
  unfold KvTokens.after
  dsimp only
  split
  · split
    · exact absurd ‹_› hop.1
    · exact absurd ‹_› (hop.2 _ _)
    · rfl
  · rfl

/-- What a step makes of all requests, when `kv` are their KV caches before. -/
structure StepAgrees (scheduler : Scheduler W) (kv : Ref → KvTokens) (step : SchedulerStep W) :
    Prop where
  continued : ∀ entry ∈ scheduler.continuedBy step, entry.1 < step.before.nextRef ∧
    ∃ kv', kv'.token = (kv entry.1).token ∧
      (kv entry.1).after entry.1 step = kv'.keep (step.after.objs entry.1) ∧
      scheduler.ContinuedAs kv' entry.2 (step.after.objs entry.1)
  others : ∀ x < step.after.nextRef, (∀ taken, (x, taken) ∉ scheduler.continuedBy step) →
    KvAgrees (step.after.objs x) ((kv x).after x step)

/-- A request that was just added. -/
theorem kvAgrees_new {params : RequestParams} {request : Request}
    (hinit : Request.init self.externals.blockHasher params = .ok request) {kv : KvTokens}
    (hnone : kv.inFlight = []) : KvAgrees (sessionStarted request) kv := by
  have hfresh := Request.fresh_init hinit
  have hstarted : ∃ streamingQueue, sessionStarted request = { request with streamingQueue } := by
    unfold sessionStarted
    split
    · exact ⟨some [], rfl⟩
    · exact ⟨request.streamingQueue, rfl⟩
  obtain ⟨streamingQueue, hstarted⟩ := hstarted
  rw [hstarted]
  exact
    { consistent := by
        intro hsome
        obtain ⟨prompt, hprompt⟩ := Option.isSome_iff_exists.mp hsome
        have hall := hfresh.allTokenIds prompt hprompt
        refine ⟨⟨prompt, hprompt, ?_, ?_⟩⟩
        · dsimp only
          rw [hall, hfresh.outputTokenIds, List.append_nil]
        · dsimp only
          rw [hfresh.numPromptTokens, Request.numTokens, hall]
      numOutputPlaceholders := hfresh.numOutputPlaceholders
      inFlight := fun hsome => absurd hnone hsome
      token := by
        intro p hp
        dsimp only at hp
        rw [hfresh.numComputedTokens] at hp
        omega }

section
variable {s s' : SchedulerState W} {out : Option SchedulerOutput} {kv : Ref → KvTokens}

/-- Steps that continue nothing, compute nothing and answer nothing. -/
theorem stepAgrees_of_same {op : SchedulerOp W} (hnone : self.continuedBy ⟨s, op, out, s'⟩ = [])
    (hop : op ≠ .schedule ∧ ∀ out mro, op ≠ .updateFromOutput out mro)
    (hagrees : ∀ x < s'.nextRef, KvAgrees (s'.objs x) (kv x)) :
    StepAgrees self kv ⟨s, op, out, s'⟩ where
  continued := by
    rw [hnone]
    exact fun _ hentry => by cases hentry
  others := by
    intro x hx _
    rw [KvTokens.after_keep (kv x) x hop]
    exact (hagrees x hx).keep

/-- `add_request` of the next input of a session that waits for it. -/
theorem proceed_agrees {params : RequestParams} {request : Request} {existing : Ref}
    {update : StreamingUpdate} (hok : RegistryOk s)
    (hinit : Request.init self.externals.blockHasher params = .ok request)
    (hexisting : s.requests.get? request.requestId = some existing)
    (hstatus : (s.objs existing).status = .waitingForStreamingReq)
    (hprompt : (s.objs existing).promptTokenIds.isSome = true)
    (hupdate : StreamingUpdate.fromRequest request = some update)
    (hagrees : ∀ x < s.nextRef, KvAgrees (s.objs x) (kv x)) (hnextRef : s'.nextRef = s.nextRef)
    (hobjs : s'.objs = (s.updateRequest existing (self.continueSession update)).objs) :
    StepAgrees self kv ⟨s, .addRequest params, out, s'⟩ := by
  have hknown := hok.known hexisting
  have hcontinued : self.continuedBy ⟨s, .addRequest params, out, s'⟩ =
      [(existing, s.objs existing)] := by
    simp [continuedBy, hinit, hexisting, hstatus, hupdate]
  constructor
  · rw [hcontinued]
    intro entry hentry
    rw [List.mem_singleton.mp hentry]
    refine ⟨hknown, kv existing, rfl, KvTokens.after_keep _ _ (by simp), ?_⟩
    dsimp only
    rw [hobjs, SchedulerState.objs_updateRequest_self]
    exact
      { agrees := hagrees existing hknown
        prompt := hprompt
        continued := ⟨update, (s.objs existing).streamingQueue, Request.SamePayload.refl _⟩
        computed := (self.continueSession_tokens update _).2.2.2.2.1 }
  · rw [hcontinued]
    intro x hx hnot
    have hne : x ≠ existing := by
      rintro rfl
      exact hnot _ (List.mem_singleton.mpr rfl)
    rw [KvTokens.after_keep (kv x) x (by simp)]
    dsimp only at hx ⊢
    rw [hobjs, SchedulerState.objs_updateRequest_of_ne _ _ hne]
    exact (hagrees x (hnextRef ▸ hx)).keep

/-- `add_request` -/
theorem addRequest_agrees {params : RequestParams} (hok : RegistryOk s)
    (h : self.OperationEffect (traceless s) (.addRequest params) out s')
    (hagrees : ∀ x < s.nextRef, KvAgrees (s.objs x) (kv x))
    (hfresh : ∀ x, s.nextRef ≤ x → (kv x).inFlight = []) :
    StepAgrees self kv ⟨s, .addRequest params, out, s'⟩ := by
  cases h with
  | @register params request w hinit habsent =>
    have habsent : s.requests.get? request.requestId = none := habsent
    apply stepAgrees_of_same
    · simp [continuedBy, hinit, habsent]
    · simp
    · intro x hx
      have hx : x < s.nextRef + 1 := hx
      change KvAgrees (Function.update s.objs s.nextRef (sessionStarted request) x) (kv x)
      rw [Function.update_apply]
      split
      · rename_i heq
        exact kvAgrees_new hinit (hfresh x heq.ge)
      · rename_i hne
        exact hagrees x (lt_of_le_of_ne (Nat.lt_succ_iff.mp hx) hne)
  | @session params request existing s' hinit hexisting heffect =>
    have hexisting : s.requests.get? request.requestId = some existing := hexisting
    cases heffect with
    | append hstatus =>
      have hstatus : (s.objs existing).status ≠ .waitingForStreamingReq := hstatus
      apply stepAgrees_of_same
      · simp [continuedBy, hinit, hexisting, hstatus]
      · simp
      · intro x hx
        rw [SchedulerState.objs_updateRequest]
        split
        · rename_i heq
          subst heq
          exact (hagrees x hx).of_same { Request.SamePayload.refl (s.objs x) with }
            (le_max_left _ _)
        · exact hagrees x hx
    | @proceed update hstatus hprompt hupdate =>
      exact proceed_agrees hok hinit hexisting hstatus hprompt hupdate hagrees rfl rfl
    | endSession hstatus hfinished hupdate =>
      apply stepAgrees_of_same
      · simp [continuedBy, hinit, hexisting, hupdate]
      · simp
      · intro x hx
        have hnextRef : s'.nextRef = s.nextRef := hfinished.kept.nextRef
        obtain ⟨status, hobjs⟩ := hfinished.objs x
        have hobjs : s'.objs x = { s.objs x with status } := hobjs
        rw [hobjs]
        exact (hagrees x (hnextRef ▸ hx)).of_same { Request.SamePayload.refl (s.objs x) with }
          (le_max_left _ _)

/-- `schedule()` -/
theorem schedule_agrees {s : SchedulerState W} (hnames : RegistryNames s (Queued s))
    (hready : ReadyForDrafts s) (hagrees : ∀ x < s.nextRef, KvAgrees (s.objs x) (kv x))
    (hbeyond : ∀ x, ∀ p : Nat, (s.objs x).numComputedTokens ≤ p → (kv x).token p = none)
    {out : SchedulerOutput} (h : StepOutcomes s out s') (hnextRef : s'.nextRef = s.nextRef) :
    StepAgrees self kv ⟨s, .schedule, some out, s'⟩ where
  continued := fun _ hentry => by cases hentry
  others := by
    intro x hx _
    have hx : x < s.nextRef := hnextRef ▸ hx
    have hregistered : ∀ x, Queued s x → s.requests.get? (s.objs x).requestId = some x :=
      fun x hqueued => hnames.registered x hqueued (hready.unfinished x hqueued)
    by_cases hqueued : Queued s x
    · obtain ⟨r, houtcome, hafter⟩ := h.queued x hqueued
      have hkv : (kv x).after x ⟨s, .schedule, some out, s'⟩ =
          (kv x).scheduled (out.numScheduledTokens.get? (s.objs x).requestId)
            (scheduledSpecFor out (s.objs x).requestId) (s'.objs x) :=
        if_pos (hregistered x hqueued)
      rw [hkv]
      dsimp only
      rw [hafter]
      exact (hagrees x hx).scheduled (hbeyond x) houtcome (hready.answered x)
    · have hafter := h.others x hqueued
      by_cases hget : s.requests.get? (s.objs x).requestId = some x
      · have hkv : (kv x).after x ⟨s, .schedule, some out, s'⟩ =
            (kv x).scheduled (out.numScheduledTokens.get? (s.objs x).requestId)
              (scheduledSpecFor out (s.objs x).requestId) (s'.objs x) := if_pos hget
        rw [hkv, h.unscheduled hregistered hqueued hget]
        dsimp only
        rw [hafter]
        exact (hagrees x hx).passed (hbeyond x) (Request.SamePayload.refl _) (Or.inl rfl) _
      · have hkv : (kv x).after x ⟨s, .schedule, some out, s'⟩ = (kv x).keep (s'.objs x) :=
          if_neg hget
        rw [hkv]
        dsimp only
        rw [hafter]
        exact (hagrees x hx).keep

/-- The sessions that `update_from_output` continues. -/
theorem mem_continuedBy {output : Option SchedulerOutput} {out : SchedulerOutput}
    {mro : ModelRunnerOutput} {start : SchedulerState W} {failed : List RequestId}
    (hbegins : self.handleFailedLoads out mro (traceless s) = .ok failed start)
    {entry : Ref × Request} :
    entry ∈ self.continuedBy ⟨s, .updateFromOutput out mro, output, s'⟩ ↔
      ∃ reqId ∈ out.numScheduledTokens.keys, s.requests.get? reqId = some entry.1 ∧
        ∃ generated, generatedFor mro reqId = .ok generated ∧
          TookInput (s.objs entry.1) (s'.objs entry.1) ∧
          entry.2 = (self.applyOutput (scheduledSpecFor out reqId) generated.1 generated.2
            (start.objs entry.1)).1 := by
  obtain ⟨x, taken⟩ := entry
  unfold continuedBy
  dsimp only
  rw [hbegins, List.mem_filterMap]
  constructor
  · rintro ⟨reqId, hkey, hentry⟩
    split at hentry
    · rename_i session generated hget hgenerated
      split at hentry
      · rename_i htook
        obtain ⟨rfl, rfl⟩ := Prod.mk.inj (Option.some.inj hentry)
        exact ⟨reqId, hkey, hget, generated, hgenerated, htook, rfl⟩
      · cases hentry
    · cases hentry
  · rintro ⟨reqId, hkey, hget, generated, hgenerated, htook, rfl⟩
    refine ⟨reqId, hkey, ?_⟩
    rw [hget, hgenerated]
    exact if_pos htook

theorem answerFor_eq {out : SchedulerOutput} {mro : ModelRunnerOutput} {reqId : RequestId}
    {generated : List Token × Bool} (hkey : reqId ∈ out.numScheduledTokens.keys)
    (hgenerated : generatedFor mro reqId = .ok generated) :
    answerFor out mro reqId = generated.1 := by
  rw [answerFor, if_pos hkey, hgenerated]

/-- A session goes on only if the grammar accepted its output. -/
theorem Delivered.eq_applied {specTokenIds : List Token} {generated : List Token × Bool}
    {before after : Request} {stopped : Bool}
    (h : self.Delivered specTokenIds generated before after stopped)
    (hresumable : after.resumable = true) :
    after = (self.applyOutput specTokenIds generated.1 generated.2 before).1 := by
  cases h with
  | applied => rfl
  | rejected htokens hgrammar => cases hresumable

section
variable {output : Option SchedulerOutput} {out : SchedulerOutput} {mro : ModelRunnerOutput}
  {start done : SchedulerState W} {acc : OutputLocals}
  (h : self.Updated out mro (traceless s) start done acc s')
  (hpairs : SchedulerStep.PairsAnswers kv ⟨s, .updateFromOutput out mro, output, s'⟩)

include h

theorem Updated.objs_start (x : Ref) :
    ∃ numComputedTokens, start.objs x = { s.objs x with numComputedTokens } := by
  obtain ⟨numComputedTokens, hx, _⟩ := h.cut x
  exact ⟨numComputedTokens, hx⟩

include hpairs

theorem Updated.numComputedTokens_start_le (x : Ref) :
    (start.objs x).numComputedTokens ≤ max (s.objs x).numComputedTokens 0 := by
  obtain ⟨numComputedTokens, hx, hcut⟩ := h.cut x
  have hcount : 0 ≤ (out.numScheduledTokens.get? (s.objs x).requestId).getD 0 := by
    cases hget : out.numScheduledTokens.get? (s.objs x).requestId with
    | none => exact le_refl _
    | some n =>
      have hkey := (hpairs _ (Dict.mem_keys_iff.mpr ⟨n, hget⟩)).1
      rw [hget] at hkey
      exact hkey
  rw [hx]
  exact hcut hcount

/-- The request before its answer. -/
theorem Updated.agrees_start (x : Ref) (hagrees : KvAgrees (s.objs x) (kv x)) :
    KvAgrees (start.objs x) (kv x) := by
  have hle := h.numComputedTokens_start_le hpairs x
  obtain ⟨numComputedTokens, hx⟩ := h.objs_start x
  rw [hx] at hle ⊢
  exact hagrees.of_same { Request.SamePayload.refl (s.objs x) with } hle

/-- The request after its answer. -/
theorem Updated.agrees_delivered {x : Ref} (hagrees : KvAgrees (s.objs x) (kv x))
    {generated : List Token × Bool} {r : Request} {stopped : Bool}
    (hkey : (start.objs x).requestId ∈ out.numScheduledTokens.keys)
    (hunfinished : start.unfinished? (start.objs x).requestId = some x)
    (hgenerated : generatedFor mro (start.objs x).requestId = .ok generated)
    (hdelivered : self.Delivered (scheduledSpecFor out (start.objs x).requestId) generated
      (start.objs x) r stopped) :
    KvAgrees r ((kv x).answered generated.1) := by
  have hle := h.numComputedTokens_start_le hpairs x
  have hstart := h.agrees_start hpairs x hagrees
  obtain ⟨hregistered, hnotFinished⟩ := start.unfinished?_eq_some.mp hunfinished
  have hregistered : s.requests.get? (start.objs x).requestId = some x :=
    h.registered_of_start hregistered
  obtain ⟨numComputedTokens, hx⟩ := h.objs_start x
  have hnotFinished : (s.objs x).isFinished = false := by
    rw [hx] at hnotFinished
    exact hnotFinished
  have hfits := (hpairs _ hkey).2 x (s.unfinished?_eq_some.mpr ⟨hregistered, hnotFinished⟩)
  rw [answerFor_eq hkey hgenerated] at hfits
  refine hstart.delivered (hfits.cut ?_ hle) hdelivered
  rw [hx]
  rfl

end

/-- `update_from_output` -/
theorem update_agrees {output : Option SchedulerOutput} {out : SchedulerOutput}
    {mro : ModelRunnerOutput} {start done : SchedulerState W} {acc : OutputLocals}
    (h : self.Updated out mro (traceless s) start done acc s') (hok : RegistryOk s)
    (hpairs : SchedulerStep.PairsAnswers kv ⟨s, .updateFromOutput out mro, output, s'⟩)
    (hagrees : ∀ x < s.nextRef, KvAgrees (s.objs x) (kv x)) (hnextRef : s'.nextRef = s.nextRef) :
    StepAgrees self kv ⟨s, .updateFromOutput out mro, output, s'⟩ := by
  obtain ⟨failed, hbegins⟩ := h.begins
  have hstart : ∀ x, (start.objs x).requestId = (s.objs x).requestId ∧
      (start.objs x).streamingQueue = (s.objs x).streamingQueue := by
    intro x
    obtain ⟨numComputedTokens, hx⟩ := h.objs_start x
    rw [hx]
    exact ⟨rfl, rfl⟩
  have hkv : ∀ x, s.requests.get? (s.objs x).requestId = some x →
      (kv x).after x ⟨s, .updateFromOutput out mro, output, s'⟩ =
        ((kv x).answered (answerFor out mro (s.objs x).requestId)).keep (s'.objs x) :=
    fun _ hget => if_pos hget
  constructor
  · rintro ⟨x, taken⟩ hentry
    obtain ⟨reqId, hkey, hget, generated, hgenerated, ⟨hinput, htook⟩, htaken⟩ :=
      (mem_continuedBy hbegins).mp hentry
    have hknown : x < s.nextRef := hok.known hget
    obtain rfl : (s.objs x).requestId = reqId := hok.carries hget
    obtain ⟨hid, hqueue⟩ := hstart x
    refine ⟨hknown, (kv x).answered generated.1, rfl, ?_, ?_⟩
    · rw [hkv x hget, answerFor_eq hkey hgenerated]
    · cases h.outcome x with
      | passed hsame hcomputed hqueue' => exact absurd (hqueue'.trans hqueue) htook
      | answered hkey' hunfinished hgenerated' hdelivered hsame hcomputed hqueue' =>
        rcases hqueue' with hqueue' | hnone
        · exact absurd (hqueue'.trans hqueue) htook
        · rw [Request.hasNextInput, hqueue] at hnone
          rw [Request.hasNextInput, hnone] at hinput
          cases hinput
      | continued hkey' hunfinished hgenerated' hdelivered hresumable hprompt hinput' hsame
          hcomputed hqueue' =>
        have hagrees := h.agrees_delivered hpairs (hagrees x hknown) hkey' hunfinished hgenerated'
          hdelivered
        have hr := hdelivered.eq_applied hresumable
        rw [hid] at hgenerated' hr
        rw [hgenerated] at hgenerated'
        cases hgenerated'
        rw [← htaken] at hr
        subst hr
        exact ⟨hagrees, hprompt, ⟨_, _, hsame⟩, hcomputed⟩
  · intro x hx hnot
    have hknown : x < s.nextRef := hnextRef ▸ hx
    obtain ⟨hid, hqueue⟩ := hstart x
    cases h.outcome x with
    | passed hsame hcomputed hqueue' =>
      have hafter : KvAgrees (s'.objs x) (kv x) :=
        (h.agrees_start hpairs x (hagrees x hknown)).of_same hsame (hcomputed ▸ le_max_left _ _)
      by_cases hget : s.requests.get? (s.objs x).requestId = some x
      · rw [hkv x hget]
        exact (hafter.answered _).keep
      · have hkeep : (kv x).after x ⟨s, .updateFromOutput out mro, output, s'⟩ =
            (kv x).keep (s'.objs x) := if_neg hget
        rw [hkeep]
        exact hafter.keep
    | answered hkey hunfinished hgenerated hdelivered hsame hcomputed hqueue' =>
      have hafter := (h.agrees_delivered hpairs (hagrees x hknown) hkey hunfinished hgenerated
        hdelivered).of_same hsame (hcomputed ▸ le_max_left _ _)
      have hget := h.registered_of_start (start.unfinished?_eq_some.mp hunfinished).1
      rw [← answerFor_eq hkey hgenerated, hid] at hafter
      rw [hid] at hget
      rw [hkv x hget]
      exact hafter.keep
    | @continued generated r r' update rest hkey hunfinished hgenerated hdelivered hresumable
        hprompt hinput hsame hcomputed hqueue' =>
      have hget : s.requests.get? (start.objs x).requestId = some x :=
        h.registered_of_start (start.unfinished?_eq_some.mp hunfinished).1
      have htook : TookInput (s.objs x) (s'.objs x) := by
        rw [hqueue] at hinput
        rw [TookInput, Request.hasNextInput, hinput, hqueue']
        refine ⟨rfl, fun heq => ?_⟩
        exact List.cons_ne_self _ _ (Option.some.inj heq).symm
      exact absurd ((mem_continuedBy hbegins).mpr
        ⟨_, hkey, hget, generated, hgenerated, htook, hdelivered.eq_applied hresumable⟩) (hnot _)

/-- The `while self.running` loop of `reset_prefix_cache`. -/
theorem ResetEffects.agrees (h : self.ResetEffects s s') {x : Ref} {kv : KvTokens}
    (hagrees : KvAgrees (s.objs x) kv) : KvAgrees (s'.objs x) kv := by
  apply invariant_of_chain (I := fun s : SchedulerState W => KvAgrees (s.objs x) kv) _ h hagrees
  intro s s' heffect hbefore
  cases heffect with
  | @preempt victim rest w hvictim hstatus =>
    by_cases hx : x = victim
    · subst hx
      rw [SchedulerState.objs_updateRequest_self]
      have hself : (self.afterPreempt { s with running := rest } x w).objs x =
          preempted (s.objs x) := SchedulerState.objs_updateRequest_self ..
      rw [hself]
      refine hbefore.of_same ((samePayload_preempted (s.objs x)).trans ?_) (le_max_right _ _)
      exact { Request.SamePayload.refl (preempted (s.objs x)) with
        numOutputPlaceholders := fun _ => rfl }
    · rw [SchedulerState.objs_updateRequest_of_ne _ _ hx]
      have hother : (self.afterPreempt { s with running := rest } victim w).objs x = s.objs x :=
        SchedulerState.objs_updateRequest_of_ne _ _ hx
      rw [hother]
      exact hbefore

/-- A status is written to a request. -/
theorem agrees_toolPaused {s : SchedulerState W} {request x : Ref} {kv : KvTokens}
    (hagrees : KvAgrees (s.objs x) kv) :
    KvAgrees ((s.updateRequest request toolPaused).objs x) kv := by
  rw [SchedulerState.objs_updateRequest]
  split
  · rename_i hx
    subst hx
    exact hagrees.of_same { Request.SamePayload.refl (s.objs x) with } (le_max_left _ _)
  · exact hagrees

/-- **One operation.** -/
theorem OperationEffect.agrees {op : SchedulerOp W}
    (h : self.OperationEffect (traceless s) op out s')
    (hnames : RegistryNames s (Queued s))
    (hpairs : SchedulerStep.PairsAnswers kv ⟨s, op, out, s'⟩)
    (houtcomes : op = .schedule → ∀ o ∈ out, StepOutcomes (traceless s) o s')
    (hagrees : ∀ x < s.nextRef, KvAgrees (s.objs x) (kv x))
    (hbeyond : ∀ x, ∀ p : Nat, (s.objs x).numComputedTokens ≤ p → (kv x).token p = none)
    (hfresh : ∀ x, s.nextRef ≤ x → (kv x).inFlight = []) : StepAgrees self kv ⟨s, op, out, s'⟩ := by
  have hnextRef : (∀ params, op ≠ .addRequest params) → s'.nextRef = s.nextRef := by
    intro hop
    rcases h.nextRef_cases with hsame | ⟨params, _, _, rfl, _⟩
    · exact hsame
    · exact absurd rfl (hop params)
  have hsame : ∀ x, x < s'.nextRef → (∀ params, op ≠ .addRequest params) → x < s.nextRef :=
    fun x hx hop => hnextRef hop ▸ hx
  cases op with
  | addRequest params => exact addRequest_agrees hnames.registry h hagrees hfresh
  | schedule =>
    cases h with
    | schedule hscheduled =>
      have hsteps := houtcomes rfl _ rfl
      exact schedule_agrees hnames hpairs hagrees hbeyond
        ⟨hsteps.queued, hsteps.others, hsteps.keys⟩ (hnextRef (by simp))
  | updateFromOutput o mro =>
    cases h with
    | updateFromOutput hupdated =>
      exact update_agrees hupdated hnames.registry hpairs hagrees (hnextRef (by simp))
  | finishRequests requestIds finishedStatus =>
    apply stepAgrees_of_same rfl (by simp)
    intro x hx
    cases h with
    | finishRequests hfinished =>
      obtain ⟨status, hobjs⟩ := hfinished.objs x
      rw [hobjs]
      exact (hagrees x (hsame x hx (by simp))).of_same { Request.SamePayload.refl (s.objs x) with }
        (le_max_left _ _)
  | updateDraftTokenIds drafts =>
    apply stepAgrees_of_same rfl (by simp)
    intro x hx
    cases h with
    | updateDraftTokenIds objs hobjs =>
      obtain ⟨specTokenIds, hobjs⟩ := hobjs x
      dsimp only
      rw [hobjs]
      exact (hagrees x hx).of_same { Request.SamePayload.refl (s.objs x) with } (le_max_left _ _)
  | resetPrefixCache resetRunningRequests resetConnector =>
    apply stepAgrees_of_same rfl (by simp)
    intro x hx
    have hknown := hsame x hx (by simp)
    cases h with
    | resetPrefixCache previous w hreset hprevious =>
      exact ResetEffects.agrees hreset (hagrees x hknown)
  | pauseInPlace reqId reading =>
    apply stepAgrees_of_same rfl (by simp)
    intro x hx
    have hknown := hsame x hx (by simp)
    cases h with
    | pauseInPlace hpausable => exact agrees_toolPaused (hagrees x hknown)
    | pauseInPlaceIgnored hnone => exact hagrees x hknown
  | holdForToolCall reqId reading =>
    apply stepAgrees_of_same rfl (by simp)
    intro x hx
    have hknown := hsame x hx (by simp)
    cases h with
    | holdForToolCall hpausable => exact agrees_toolPaused (hagrees x hknown)
    | holdForToolCallIgnored hnone => exact hagrees x hknown
  | setPauseState | submitToolResponse | recordSpeculativeHandle | environment =>
    apply stepAgrees_of_same rfl (by simp)
    intro x hx
    have hknown := hsame x hx (by simp)
    cases h
    exact hagrees x hknown

end

/-! ## 4. Runs -/

/-- The invariant of a run. -/
structure SessionsAgree (history : List (SchedulerStep W)) (s : SchedulerState W) : Prop where
  names : RegistryNames s (Queued s)
  agrees : ∀ x < s.nextRef, KvAgrees (s.objs x) (kvTokens history x)
  beyond : ∀ x, ∀ p : Nat, (s.objs x).numComputedTokens ≤ p → (kvTokens history x).token p = none
  fresh : ∀ x, s.nextRef ≤ x → (kvTokens history x).inFlight = []

section
variable {s s' : SchedulerState W} {op : SchedulerOp W} {out : Option SchedulerOutput}
  {history : List (SchedulerStep W)}

/-- A `schedule()` call that returned. -/
theorem outcomes_of_exec (hnames : RegistryNames s (Queued s)) (hready : ReadyForDrafts s)
    (hexec : SchedulerOp.exec self .schedule s = .ok out s') :
    ∀ o ∈ out, StepOutcomes (traceless s) o s' := by
  have hwp : wp (SchedulerOp.exec self .schedule)
      (fun output s' => ∀ o ∈ output, StepOutcomes (traceless s) o s') (fun _ _ => True) s := by
    unfold SchedulerOp.exec SchedulerOp.run
    rw [wp_bind, wp_modify, wp_bind]
    apply wp_mono (self.schedule_outcomes hnames.traceless hready.once hready.unfinished)
    · rintro o s' houtcomes _ ⟨⟩
      exact houtcomes
    · exact fun _ _ _ => trivial
  exact wp_ok hwp hexec

/-- **Step lemma.** -/
theorem SessionsAgree.step (h : SessionsAgree history s)
    (hexec : SchedulerOp.exec self op s = .ok out s')
    (hpairs : SchedulerStep.PairsAnswers (kvTokens history) ⟨s, op, out, s'⟩) :
    StepAgrees self (kvTokens history) ⟨s, op, out, s'⟩ := by
  refine (effect_of_exec h.names.registry hexec).agrees h.names hpairs ?_ h.agrees h.beyond h.fresh
  rintro rfl
  exact outcomes_of_exec h.names hpairs hexec

/-- A step whose continuations cut behind the prompt and within the tokens. -/
theorem SessionsAgree.exec (h : SessionsAgree history s)
    (hexec : SchedulerOp.exec self op s = .ok out s')
    (hpairs : SchedulerStep.PairsAnswers (kvTokens history) ⟨s, op, out, s'⟩)
    (hwithin : ∀ entry ∈ self.continuedBy ⟨s, op, out, s'⟩, ComputedWithinTokens entry.2) :
    SessionsAgree (history ++ [⟨s, op, out, s'⟩]) s' ∧
      KeepsSessions self history ⟨s, op, out, s'⟩ := by
  have hok : RegistryOk s := h.names.registry
  have heffect := effect_of_exec hok hexec
  have hstep := h.step hexec hpairs
  have hcontinued : ∀ entry ∈ self.continuedBy ⟨s, op, out, s'⟩,
      KvAgrees (s'.objs entry.1) (kvTokens (history ++ [⟨s, op, out, s'⟩]) entry.1) ∧
        HistoryKept (kvTokens history entry.1) entry.2 (s'.objs entry.1) := by
    intro entry hentry
    obtain ⟨_, kv', htoken, hafter, hcontinued⟩ := hstep.continued entry hentry
    obtain ⟨hagrees, hkept⟩ := hcontinued.kept (hwithin entry hentry)
    rw [kvTokens_append, hafter, HistoryKept, ← htoken]
    exact ⟨hagrees.keep, hkept⟩
  have hagrees : ∀ x < s'.nextRef,
      KvAgrees (s'.objs x) (kvTokens (history ++ [⟨s, op, out, s'⟩]) x) := by
    intro x hx
    by_cases hentry : ∃ taken, (x, taken) ∈ self.continuedBy ⟨s, op, out, s'⟩
    · obtain ⟨taken, hentry⟩ := hentry
      exact (hcontinued (x, taken) hentry).1
    · rw [kvTokens_append]
      exact hstep.others x hx fun taken hmem => hentry ⟨taken, hmem⟩
  refine ⟨⟨?_, hagrees, ?_, ?_⟩, fun x hx => (hagrees x hx).consistent,
    fun entry hentry => (hcontinued entry hentry).2⟩
  · apply heffect.registered h.names.traceless
    rintro rfl _ x hx
    exact hpairs.unfinished x (Or.inr hx)
  · intro x p hp
    rw [kvTokens_append]
    exact KvTokens.after_beyond _ x _ p hp
  · intro x hx
    have hx : s.nextRef ≤ x := le_trans heffect.nextRef hx
    have hnot : s.requests.get? (s.objs x).requestId ≠ some x := fun hget =>
      absurd (hok.known hget) (not_lt.mpr hx)
    rw [kvTokens_append]
    have hkeep : (kvTokens history x).after x ⟨s, op, out, s'⟩ =
        (kvTokens history x).keep (s'.objs x) := if_neg hnot
    rw [hkeep]
    exact h.fresh x hx

/-- A step that keeps the sessions cuts behind the prompt and within the tokens. -/
theorem SessionsAgree.within (h : SessionsAgree history s)
    (hexec : SchedulerOp.exec self op s = .ok out s')
    (hpairs : SchedulerStep.PairsAnswers (kvTokens history) ⟨s, op, out, s'⟩)
    (hkeeps : KeepsSessions self history ⟨s, op, out, s'⟩) :
    ∀ entry ∈ self.continuedBy ⟨s, op, out, s'⟩, ComputedWithinTokens entry.2 := by
  intro entry hentry
  have heffect := effect_of_exec h.names.registry hexec
  obtain ⟨hknown, kv', htoken, _, hcontinued⟩ := (h.step hexec hpairs).continued entry hentry
  have hkept := hkeeps.2 entry hentry
  rw [HistoryKept, ← htoken] at hkept
  exact hcontinued.within (hkeeps.1 entry.1 (lt_of_lt_of_le hknown heffect.nextRef)) hkept

theorem answersPaired_append {step : SchedulerStep W} (h : AnswersPaired (history ++ [step])) :
    AnswersPaired history ∧ SchedulerStep.PairsAnswers (kvTokens history) step := by
  refine ⟨?_, h history step [] rfl⟩
  rintro earlier step' later rfl
  exact h earlier step' (later ++ [step]) (by simp)

theorem sessionsKept_append {step : SchedulerStep W}
    (h : SessionsKept self (history ++ [step])) :
    SessionsKept self history ∧ KeepsSessions self history step := by
  refine ⟨?_, h history step [] rfl⟩
  rintro earlier step' later rfl
  exact h earlier step' (later ++ [step]) (by simp)

/-- **Run lemma.** -/
theorem sessionsAgree_of_run {objs : Ref → Request} {edmmHook : Option EdmmSchedulerHook} {w : W}
    (run : SchedulerRun self (SchedulerState.init objs edmmHook w) history s)
    (hanswers : AnswersPaired history) (hwithin : ContinuesWithinTokens self history) :
    SessionsAgree history s ∧ SessionsKept self history := by
  induction run with
  | nil =>
    refine ⟨⟨registered_init objs edmmHook w, ?_, fun _ _ _ => rfl, fun _ _ => rfl⟩, ?_⟩
    · intro x hx
      cases hx
    · intro earlier step later hhistory
      cases earlier <;> cases hhistory
  | @snoc history s s' op out run hexec ih =>
    obtain ⟨hearlier, hpairs⟩ := answersPaired_append hanswers
    obtain ⟨hagree, hkept⟩ :=
      ih hearlier fun step hstep => hwithin step (List.mem_append_left _ hstep)
    obtain ⟨hafter, hkeeps⟩ := hagree.exec hexec hpairs
      (hwithin _ (List.mem_append_right _ (List.mem_singleton.mpr rfl)))
    refine ⟨hafter, ?_⟩
    intro earlier step later hhistory
    rcases List.eq_nil_or_concat later with rfl | ⟨later, last, rfl⟩
    · obtain ⟨rfl, hlast⟩ := List.append_inj' hhistory rfl
      cases hlast
      exact hkeeps
    · rw [List.concat_eq_append, ← List.cons_append, ← List.append_assoc] at hhistory
      exact hkept earlier step later (List.append_inj' hhistory rfl).1

/-- **Session tokens.**  In a run whose answers pair with what was scheduled, the token lists stay
    consistent and every continuation keeps what was computed exactly when every continuation
    cuts behind the prompt and within the tokens. -/
theorem sessionsKept_iff {objs : Ref → Request} {edmmHook : Option EdmmSchedulerHook} {w : W}
    (run : SchedulerRun self (SchedulerState.init objs edmmHook w) history s)
    (hanswers : AnswersPaired history) :
    SessionsKept self history ↔ ContinuesWithinTokens self history := by
  constructor
  · intro hkept
    induction run with
    | nil => exact fun _ hstep => by cases hstep
    | @snoc history s s' op out run hexec ih =>
      obtain ⟨hearlier, hpairs⟩ := answersPaired_append hanswers
      obtain ⟨hbefore, hkeeps⟩ := sessionsKept_append hkept
      have hwithin := ih hearlier hbefore
      have hagree := (sessionsAgree_of_run run hearlier hwithin).1
      intro step hstep
      rcases List.mem_append.mp hstep with hstep | hstep
      · exact hwithin step hstep
      · rw [List.mem_singleton.mp hstep]
        exact hagree.within hexec hpairs hkeeps
  · exact fun hwithin => (sessionsAgree_of_run run hanswers hwithin).2

end

instance (kv : Ref → KvTokens) (step : SchedulerStep W) :
    Decidable (SchedulerStep.PairsAnswers kv step) :=
  match step with
  | ⟨s, .schedule, _, _⟩ => inferInstanceAs (Decidable (ReadyForDrafts s))
  | ⟨s, .updateFromOutput out mro, _, _⟩ =>
      inferInstanceAs (Decidable (∀ reqId ∈ out.numScheduledTokens.keys,
        0 ≤ (out.numScheduledTokens.get? reqId).getD 0 ∧ ∀ x ∈ s.unfinished? reqId,
          AnswerFits (s.objs x) (kv x).inFlight (scheduledSpecFor out reqId)
            (answerFor out mro reqId)))
  | ⟨_, .addRequest _, _, _⟩ | ⟨_, .finishRequests _ _, _, _⟩ | ⟨_, .updateDraftTokenIds _, _, _⟩
  | ⟨_, .resetPrefixCache _ _, _, _⟩ | ⟨_, .setPauseState _, _, _⟩ | ⟨_, .pauseInPlace _ _, _, _⟩
  | ⟨_, .holdForToolCall _ _, _, _⟩ | ⟨_, .submitToolResponse _, _, _⟩
  | ⟨_, .recordSpeculativeHandle _ _, _, _⟩ | ⟨_, .environment _, _, _⟩ => isTrue trivial

/-- The condition can be checked step by step. -/
theorem answersPaired_of_getElem? {history : List (SchedulerStep W)}
    (h : ∀ i < history.length, ∀ step ∈ history[i]?,
      SchedulerStep.PairsAnswers (kvTokens (history.take i)) step) : AnswersPaired history := by
  rintro earlier step later rfl
  have hstep := h earlier.length (by simp) step (by simp)
  rwa [List.take_left] at hstep

/-- A session accepts a draft, stops and continues. -/
theorem sessionsKept_accepted_draft : ∃ history s, SchedulerRun roomy start history s ∧
    history.length = 7 ∧ (s.objs 0).allTokenIds = [1, 2, 3, 9] ∧
      (s.objs 0).numComputedTokens = 3 ∧ SessionsKept roomy history := by
  have hplayed : ∃ p ∈ roomy.play start
      [.op (.addRequest (.text "a" [1] 3 true)), .op .schedule, .deliver 0 [("a", [2])],
        .op (.updateDraftTokenIds [("a", [3])]), .op .schedule, .deliver 1 [("a", [3, 4])],
        .op (.addRequest (.text "a" [9] 3 true))],
      p.1.length = 7 ∧ (p.2.objs 0).allTokenIds = [1, 2, 3, 9] ∧
        (p.2.objs 0).numComputedTokens = 3 ∧
        (∀ i < p.1.length, ∀ step ∈ p.1[i]?,
          SchedulerStep.PairsAnswers (kvTokens (p.1.take i)) step) ∧
        ∀ step ∈ p.1, ∀ entry ∈ roomy.continuedBy step, ComputedWithinTokens entry.2 := by
    decide +kernel
  obtain ⟨⟨history, s⟩, hhistory, hlength, hall, hcomputed, hanswers, hwithin⟩ := hplayed
  have run := run_of_play (Option.mem_def.mp hhistory)
  exact ⟨history, s, run, hlength, hall, hcomputed,
    (sessionsKept_iff run (answersPaired_of_getElem? hanswers)).mpr hwithin⟩

/-- **Two histories that a continuation loses.**  Two drafts are accepted and the stop at the
    first of them trims the second: the first token of the next chunk counts as computed.  And a
    session that was preempted, with its counter at 0, stops on its outstanding output: the
    continuation takes the prompt out of one list only. -/
theorem trimmed_and_preempted_sessions :
    (¬ ∀ history s, SchedulerRun roomy start history s → AnswersPaired history →
      ∀ earlier step later, history = earlier ++ step :: later →
        ∀ entry ∈ roomy.continuedBy step,
          HistoryKept (kvTokens earlier entry.1) entry.2 (step.after.objs entry.1)) ∧
    ¬ ∀ history s, SchedulerRun roomy start history s → AnswersPaired history →
      ∀ x < s.nextRef, (s.objs x).promptTokenIds.isSome = true → (s.objs x).TokensConsistent := by
  constructor
  · intro hclaim
    have hplayed : ∃ p ∈ roomy.play start
        [.op (.addRequest (.text "a" [1] 2 true)), .op .schedule, .deliver 0 [("a", [2])],
          .op (.updateDraftTokenIds [("a", [3, 4])]), .op .schedule,
          .deliver 1 [("a", [3, 4, 5])], .op (.addRequest (.text "a" [9] 2 true))],
        (∀ i < p.1.length, ∀ step ∈ p.1[i]?,
          SchedulerStep.PairsAnswers (kvTokens (p.1.take i)) step) ∧
        ∃ step ∈ p.1[6]?, ∃ entry ∈ roomy.continuedBy step,
          ¬ HistoryKept (kvTokens (p.1.take 6) entry.1) entry.2 (step.after.objs entry.1) := by
      decide +kernel
    obtain ⟨⟨history, s⟩, hhistory, hanswers, step, hstep, entry, hentry, hlost⟩ := hplayed
    have hsplit : history = history.take 6 ++ step :: history.drop 7 := by
      obtain ⟨hlt, rfl⟩ := List.getElem?_eq_some_iff.mp (Option.mem_def.mp hstep)
      rw [← List.drop_eq_getElem_cons, List.take_append_drop]
    exact hlost (hclaim history s (run_of_play (Option.mem_def.mp hhistory))
      (answersPaired_of_getElem? hanswers) _ step _ hsplit entry hentry)
  · intro hclaim
    have hplayed : ∃ p ∈ roomy.play start
        [.op (.addRequest (.text "a" [1, 2, 3] 1 true)), .op .schedule,
          .op (.resetPrefixCache true false), .deliver 0 [("a", [4])],
          .op (.addRequest (.text "a" [9] 1 true))],
        (∀ i < p.1.length, ∀ step ∈ p.1[i]?,
          SchedulerStep.PairsAnswers (kvTokens (p.1.take i)) step) ∧ 0 < p.2.nextRef ∧
        (p.2.objs 0).promptTokenIds = some [1, 2, 3, 9] ∧ (p.2.objs 0).allTokenIds = [9] := by
      decide +kernel
    obtain ⟨⟨history, s⟩, hhistory, hanswers, hknown, hprompt, hall⟩ := hplayed
    obtain ⟨prompt, hprompt', htokens, _⟩ := (hclaim history s
      (run_of_play (Option.mem_def.mp hhistory)) (answersPaired_of_getElem? hanswers) 0 hknown
      (by rw [hprompt]; rfl)).tokens
    rw [hprompt] at hprompt'
    obtain rfl := Option.some.inj hprompt'
    rw [hall] at htokens
    exact absurd htokens (by simp)

end Scheduler

end Edmm
