/-
  Edmm/PayloadInvariant.lean
  ==========================
  **Which requests the worker can be given by their prompt alone.**

  `schedule()` sends a request that it admits with status WAITING by its prompt, and
  every other one by all its tokens, unless the worker ran it in the previous step.
  That is right as long as no WAITING request has output tokens.  The status is
  written in many places: a request is built, promoted, continued as a session,
  preempted or loaded.  `PayloadOk` says what these places owe each other, and
  `WorkerTokens` counts what the worker holds of each request.
-/
import Edmm.SessionTokens
import Edmm.PausedRequests
import Edmm.Queues

namespace Edmm

open Program

variable {W : Type}

/-! ## 1. What the worker holds -/

/-- The length of a prompt, in token ids or in rows of embeddings. -/
def promptLength (promptTokenIds : Option (List Token)) (promptEmbeds : Option Nat) : Nat :=
  match promptTokenIds with
  | some tokenIds => tokenIds.length
  | none => promptEmbeds.getD 0

/-- How many tokens of each request the worker was sent or has generated. -/
abbrev WorkerTokens := RequestId → Nat

namespace WorkerTokens

/-- A cached request comes with all its tokens or with none, a new one with its prompt. -/
def receive (held : WorkerTokens) (out : SchedulerOutput) : WorkerTokens := fun reqId =>
  match out.scheduledCachedReqs.allTokenIds.get? reqId with
  | some tokenIds => tokenIds.length
  | none =>
      match out.scheduledNewReqs.find? fun data => data.reqId = reqId with
      | some data => promptLength data.promptTokenIds data.promptEmbeds
      | none => held reqId

/-- What the model generated for an id. -/
def generated (mro : ModelRunnerOutput) (reqId : RequestId) : Nat :=
  match Scheduler.generatedFor mro reqId with
  | .ok (tokenIds, _) => tokenIds.length
  | .error _ => 0

/-- The worker keeps the tokens that it generates. -/
def generate (held : WorkerTokens) (mro : ModelRunnerOutput) : WorkerTokens := fun reqId =>
  held reqId + generated mro reqId

/-- What the worker holds after a step of the scheduler. -/
def after (held : WorkerTokens) (step : SchedulerStep W) : WorkerTokens :=
  match step.op, step.output with
  | .updateFromOutput _ mro, _ => held.generate mro
  | _, some out => held.receive out
  | _, none => held

end WorkerTokens

/-- What the worker holds after a run. -/
def workerTokens (history : List (SchedulerStep W)) : WorkerTokens :=
  history.foldl WorkerTokens.after fun _ => 0

/-! ## 2. One request -/

namespace Request

/-- The request is new to the worker when it is admitted: it waits, or will wait once
    it is promoted. -/
def WaitsAsNew (r : Request) : Prop :=
  r.status = .waiting ∨ r.status = .waitingForStructuredOutputGrammar ∨
    (r.status = .waitingForRemoteKvs ∧ r.numPreemptions = 0)

/-- The request is resumed when it is admitted. -/
def WaitsAsResumed (r : Request) : Prop :=
  r.status = .preempted ∨ (r.status = .waitingForRemoteKvs ∧ r.numPreemptions ≠ 0)

/-- A request that is new to the worker has nothing but its prompt. -/
structure PayloadOk (r : Request) : Prop where
  fresh : r.WaitsAsNew → r.outputTokenIds = [] ∧ r.numPreemptions = 0
  preempted : r.status = .preempted → r.numPreemptions ≠ 0
  prompt : r.allTokenIds.length ≤
    promptLength r.promptTokenIds r.promptEmbeds + r.outputTokenIds.length
  count : ∀ prompt, r.promptTokenIds = some prompt → r.numPromptTokens = prompt.length
  placeholders : r.numOutputPlaceholders = 0

/-- The requests agree on their id and their tokens. -/
structure SamePayload (r r' : Request) : Prop where
  requestId : r'.requestId = r.requestId
  promptTokenIds : r'.promptTokenIds = r.promptTokenIds
  promptEmbeds : r'.promptEmbeds = r.promptEmbeds
  numPromptTokens : r'.numPromptTokens = r.numPromptTokens
  allTokenIds : r'.allTokenIds = r.allTokenIds
  outputTokenIds : r'.outputTokenIds = r.outputTokenIds
  numOutputPlaceholders : r.numOutputPlaceholders = 0 → r'.numOutputPlaceholders = 0
  numPreemptions : r.numPreemptions ≤ r'.numPreemptions

theorem SamePayload.refl (r : Request) : SamePayload r r :=
  { requestId := rfl
    promptTokenIds := rfl
    promptEmbeds := rfl
    numPromptTokens := rfl
    allTokenIds := rfl
    outputTokenIds := rfl
    numOutputPlaceholders := id
    numPreemptions := le_refl _ }

theorem SamePayload.trans {r r' r'' : Request} (h : SamePayload r r') (h' : SamePayload r' r'') :
    SamePayload r r'' :=
  { requestId := h'.requestId.trans h.requestId
    promptTokenIds := h'.promptTokenIds.trans h.promptTokenIds
    promptEmbeds := h'.promptEmbeds.trans h.promptEmbeds
    numPromptTokens := h'.numPromptTokens.trans h.numPromptTokens
    allTokenIds := h'.allTokenIds.trans h.allTokenIds
    outputTokenIds := h'.outputTokenIds.trans h.outputTokenIds
    numOutputPlaceholders := fun hr => h'.numOutputPlaceholders (h.numOutputPlaceholders hr)
    numPreemptions := le_trans h.numPreemptions h'.numPreemptions }

/-- Only the status can break what is promised of a request with the same tokens. -/
theorem PayloadOk.of_same {r r' : Request} (h : r.PayloadOk) (hsame : SamePayload r r')
    (hfresh : r'.WaitsAsNew → r'.outputTokenIds = [] ∧ r'.numPreemptions = 0)
    (hpreempted : r'.status = .preempted → r'.numPreemptions ≠ 0) : r'.PayloadOk where
  fresh := hfresh
  preempted := hpreempted
  prompt := by
    rw [hsame.allTokenIds, hsame.promptTokenIds, hsame.promptEmbeds, hsame.outputTokenIds]
    exact h.prompt
  count := by
    rw [hsame.promptTokenIds, hsame.numPromptTokens]
    exact h.count
  placeholders := hsame.numOutputPlaceholders h.placeholders

/-- A request that keeps its status and its number of preemptions. -/
theorem PayloadOk.of_status {r r' : Request} (h : r.PayloadOk) (hsame : SamePayload r r')
    (hstatus : r'.status = r.status) (hnumPreemptions : r'.numPreemptions = r.numPreemptions) :
    r'.PayloadOk := by
  apply h.of_same hsame
  · unfold WaitsAsNew
    rw [hstatus, hsame.outputTokenIds, hnumPreemptions]
    exact h.fresh
  · rw [hstatus, hnumPreemptions]
    exact h.preempted

/-- A request that leaves the statuses of the waiting queues. -/
theorem PayloadOk.of_leaves {r r' : Request} (h : r.PayloadOk) (hsame : SamePayload r r')
    (hnew : ¬ r'.WaitsAsNew) (hpreempted : r'.status ≠ .preempted) : r'.PayloadOk :=
  h.of_same hsame (fun hwaits => absurd hwaits hnew) (fun hstatus => absurd hstatus hpreempted)

theorem not_waitsAsNew_of_isFinished {r : Request} (h : r.isFinished = true) :
    ¬ r.WaitsAsNew ∧ r.status ≠ .preempted := by
  unfold WaitsAsNew
  constructor
  · rintro (hstatus | hstatus | ⟨hstatus, _⟩) <;> rw [isFinished, hstatus] at h <;> cases h
  · intro hstatus
    rw [isFinished, hstatus] at h
    cases h

/-- A request that was just built. -/
theorem payloadOk_init {blockHasher : Option (Request → List BlockHash)} {params : RequestParams}
    {r : Request} (h : init blockHasher params = .ok r) : r.PayloadOk := by
  have hfresh := fresh_init h
  obtain ⟨limits, hlimits, h⟩ := except_bind_eq_ok.mp h
  obtain ⟨numPromptTokens, hlength, h⟩ := except_bind_eq_ok.mp h
  injection h with h
  obtain ⟨hashes, hhashes⟩ := updateBlockHashes_eq blockHasher _
  rw [hhashes] at h
  subst h
  exact
    { fresh := fun _ => ⟨rfl, rfl⟩
      preempted := by
        intro hstatus
        rcases hfresh.status with hwaiting | hgrammar
        · rw [hwaiting] at hstatus
          cases hstatus
        · rw [hgrammar] at hstatus
          cases hstatus
      prompt := by
        cases hprompt : params.promptTokenIds with
        | some tokenIds => simp [promptLength]
        | none =>
          rw [hprompt] at hlength
          cases hembeds : params.promptEmbeds with
          | none =>
            rw [hembeds] at hlength
            cases hlength
          | some rows =>
            rw [hembeds] at hlength
            cases hlength
            simp [promptLength]
      count := by
        rintro prompt (hprompt : params.promptTokenIds = some prompt)
        have hcount := hfresh.numPromptTokens
        simp only [numTokens, hprompt, Option.getD_some] at hcount
        exact hcount
      placeholders := rfl }

/-- What an output makes of a request.  The tokens that are kept of it were generated. -/
theorem delivered_payload {self : Scheduler W} {specTokenIds : List Token}
    {generated : List Token × Bool} {r r' : Request} {stopped : Bool}
    (h : self.Delivered specTokenIds generated r r' stopped) :
    ∃ kept, kept.length ≤ generated.1.length ∧
      r'.allTokenIds = r.allTokenIds ++ kept ∧ r'.outputTokenIds = r.outputTokenIds ++ kept ∧
      r'.promptTokenIds = r.promptTokenIds ∧ r'.promptEmbeds = r.promptEmbeds ∧
      r'.numPromptTokens = r.numPromptTokens ∧ r'.numPreemptions = r.numPreemptions ∧
      (r.numOutputPlaceholders = 0 → r'.numOutputPlaceholders = 0) ∧
      r'.streamingQueue = r.streamingQueue ∧ (stopped = false → r'.status = r.status) := by
  have hextends := self.applyOutput_extends specTokenIds generated.1 generated.2 r
  obtain ⟨kept, _, _, hall, _, _, hkept, _⟩ :=
    self.applyOutput_kept specTokenIds generated.1 generated.2 r
  obtain ⟨hashes, computed, placeholders, status, reason, hform⟩ := hextends.form
  have hsame : (self.applyOutput specTokenIds generated.1 generated.2 r).2.1 = kept := by
    rw [hform] at hall
    exact List.append_cancel_left hall
  rw [hsame] at hform
  have hplaceholders := hextends.placeholders
  have hstatus := hextends.running
  rw [hform] at hplaceholders hstatus
  cases h with
  | applied =>
    refine ⟨kept, hkept.length_le, ?_⟩
    rw [hform]
    exact ⟨rfl, rfl, rfl, rfl, rfl, rfl, hplaceholders, rfl, hstatus⟩
  | rejected htokens hgrammar =>
    refine ⟨kept, hkept.length_le, ?_⟩
    rw [hform]
    exact ⟨rfl, rfl, rfl, rfl, rfl, rfl, hplaceholders, rfl, nofun⟩

/-- A request that got output.  If it is new to the worker, nothing was generated for it. -/
theorem PayloadOk.deliver {self : Scheduler W} {specTokenIds : List Token}
    {generated : List Token × Bool} {r r' : Request} {stopped : Bool} (hr : r.PayloadOk)
    (h : self.Delivered specTokenIds generated r r' stopped)
    (hnew : r.WaitsAsNew → generated.1.length = 0) : r'.PayloadOk := by
  obtain ⟨kept, hkept, hall, houtput, hprompt, hembeds, hcount, hnumPreemptions, hplaceholders, _,
    hstatus⟩ := delivered_payload h
  exact
    { fresh := by
        intro hwaits
        cases stopped with
        | false =>
          rw [WaitsAsNew, hstatus rfl, hnumPreemptions] at hwaits
          obtain ⟨hempty, hnever⟩ := hr.fresh hwaits
          have hnone : kept = [] := by
            apply List.eq_nil_of_length_eq_zero
            rw [hnew hwaits] at hkept
            exact Nat.le_zero.mp hkept
          rw [houtput, hnumPreemptions, hempty, hnone]
          exact ⟨rfl, hnever⟩
        | true => exact absurd hwaits (not_waitsAsNew_of_isFinished (h.finished rfl)).1
      preempted := by
        intro hpreempted
        cases stopped with
        | false =>
          rw [hstatus rfl] at hpreempted
          rw [hnumPreemptions]
          exact hr.preempted hpreempted
        | true => exact absurd hpreempted (not_waitsAsNew_of_isFinished (h.finished rfl)).2
      prompt := by
        have hprompt' := hr.prompt
        rw [hall, houtput, hprompt, hembeds, List.length_append, List.length_append]
        omega
      count := by
        rw [hprompt, hcount]
        exact hr.count
      placeholders := hplaceholders hr.placeholders }

/-- How many tokens a continuation keeps. -/
theorem length_deleteFrom_le (items : List Token) (start : Nat) (stop : Int) :
    (Python.deleteFrom items stop).length ≤
      start + (Python.slice items (start : Int) stop).length := by
  have hstart : Python.sliceBound items.length (start : Int) = min start items.length :=
    Python.sliceBound_of_nonneg (Int.natCast_nonneg start)
  rw [Python.deleteFrom, Python.slice, hstart, List.length_drop]
  omega

/-- A continued session that was never preempted is new again: its prompt holds all
    its tokens. -/
theorem PayloadOk.continueSession (self : Scheduler W) {r : Request} (hr : r.PayloadOk)
    (update : StreamingUpdate) (hprompt : r.promptTokenIds.isSome = true)
    (hnumPreemptions : r.numPreemptions = 0) : (self.continueSession update r).PayloadOk := by
  obtain ⟨prompt, hprompt⟩ := Option.isSome_iff_exists.mp hprompt
  obtain ⟨hall, hprompts, houtput, hcount, _, hplaceholders⟩ :=
    self.continueSession_tokens update r
  have hkept := length_deleteFrom_le r.allTokenIds prompt.length r.numComputedTokens
  rw [hr.count prompt hprompt, hprompt, Option.map_some] at hprompts
  have hnever : (self.continueSession update r).numPreemptions = 0 := by
    obtain ⟨hashes, hextend⟩ := self.extendPrompt_eq update (Scheduler.dropUncomputed r)
    unfold Scheduler.continueSession
    rw [hextend]
    exact hnumPreemptions
  exact
    { fresh := fun _ => ⟨houtput, hnever⟩
      preempted := nofun
      prompt := by
        rw [hall, hprompts, houtput]
        simp only [promptLength, List.length_append, List.length_nil]
        omega
      count := by
        intro prompt' hprompt'
        rw [hcount, hprompt']
        rfl
      placeholders := hplaceholders.trans hr.placeholders }

end Request

/-! ## 3. The invariant -/

/-- The worker got tokens of the request: it runs, or it is resumed when it is admitted. -/
def Sent (s : SchedulerState W) (held : Ref → Prop) (x : Ref) : Prop :=
  x ∈ s.running ∨ (held x ∧ (s.objs x).WaitsAsResumed)

/-- Between two operations.  `excused` are the requests that `update_from_output` stopped
    and did not take out of `running` yet. -/
structure PayloadsOk (tokens : WorkerTokens) (excused : Ref → Prop) (s : SchedulerState W) :
    Prop where
  requests : ∀ x, x < s.nextRef → (s.objs x).PayloadOk
  waiting : ∀ x, x ∈ s.waiting ∨ x ∈ s.skippedWaiting → (s.objs x).status ≠ .running
  running : ∀ x ∈ s.running, ¬ excused x → (s.objs x).status ≠ .waitingForStreamingReq
  covered : ∀ x, Sent s (Queued s) x → ¬ excused x →
    (s.objs x).requestId ∈ s.prevStepScheduledReqIds →
    (s.objs x).allTokenIds.length ≤ tokens (s.objs x).requestId

/-- What `schedule()` must find: every request once in the queues, none finished there, no
    count of computed tokens below zero, and only requests without output tokens, never
    preempted, among those whose tool response arrived. -/
structure ReadyToSchedule (s : SchedulerState W) : Prop where
  once : (heldQueues s []).Nodup
  unfinished : ∀ x, Queued s x → (s.objs x).isFinished = false
  counted : ∀ x, Queued s x → 0 ≤ (s.objs x).numComputedTokens
  answered : ∀ x, x ∈ s.waiting ∨ x ∈ s.skippedWaiting →
    (s.objs x).status = .waitingForToolCall → ResponseReady s (s.objs x).requestId →
    (s.objs x).outputTokenIds = [] ∧ (s.objs x).numPreemptions = 0

theorem mem_heldQueues_nil {s : SchedulerState W} (x : Ref) :
    x ∈ heldQueues s [] ↔ Queued s x := by
  simp [heldQueues, waitingQueues, Queued]

instance (s : SchedulerState W) : Decidable (ReadyToSchedule s) :=
  have hready : ∀ reqId, ResponseReady s reqId ↔
      (s.edmmHook.any fun hook => hook.isToolResponseReady reqId) = true := fun reqId => by
    simp [ResponseReady, Option.any_eq_true]
  decidable_of_iff
    ((heldQueues s []).Nodup ∧
      (∀ x ∈ heldQueues s [], (s.objs x).isFinished = false ∧
        0 ≤ (s.objs x).numComputedTokens) ∧
      ∀ x ∈ s.waiting ++ s.skippedWaiting, (s.objs x).status = .waitingForToolCall →
        (s.edmmHook.any fun hook => hook.isToolResponseReady (s.objs x).requestId) = true →
        (s.objs x).outputTokenIds = [] ∧ (s.objs x).numPreemptions = 0)
    ⟨fun ⟨honce, hheld, hanswered⟩ =>
      { once := honce
        unfinished := fun x hx => (hheld x ((mem_heldQueues_nil x).mpr hx)).1
        counted := fun x hx => (hheld x ((mem_heldQueues_nil x).mpr hx)).2
        answered := fun x hx hstatus hresponse =>
          hanswered x (List.mem_append.mpr hx) hstatus ((hready _).mp hresponse) },
      fun h => ⟨h.once, fun x hx => ⟨h.unfinished x ((mem_heldQueues_nil x).mp hx),
        h.counted x ((mem_heldQueues_nil x).mp hx)⟩, fun x hx hstatus hresponse =>
          h.answered x (List.mem_append.mp hx) hstatus ((hready _).mpr hresponse)⟩⟩

/-! ## 4. The loops of `schedule()` -/

namespace Scheduler

variable {self : Scheduler W} {before : SchedulerState W}

/-- The request is handed to the worker in this step. -/
def HandedOver (l : StepLocals) (x : Ref) : Prop :=
  x ∈ l.scheduledNewReqs ∨ x ∈ l.scheduledRunningReqs ∨ x ∈ l.scheduledResumedReqs

/-- The tokens scheduled for a request are its own, or drafts that are sent along.
    A count of computed tokens is not negative. -/
def Fits (before : SchedulerState W) (p : Frame W) (x : Ref) (n : Int) : Prop :=
  0 ≤ (before.objs x).numComputedTokens →
    (p.1.objs x).numComputedTokens + n ≤ (p.1.objs x).numTokens +
      ((p.2.scheduledSpecDecodeTokens.get? (p.1.objs x).requestId).getD []).length

/-- Within `schedule()`.  `before` is the state in which it was called. -/
structure HandingOver (before : SchedulerState W) (p : Frame W) : Prop where
  previous : p.1.prevStepScheduledReqIds = before.prevStepScheduledReqIds
  once : (heldQueues p.1 p.2.stepSkippedWaiting).Nodup
  held : ∀ x, Held p x → Queued before x
  unfinished : ∀ x, Held p x → (p.1.objs x).isFinished = false
  same : ∀ x, Request.SamePayload (before.objs x) (p.1.objs x)
  requests : ∀ x, x < before.nextRef → (p.1.objs x).PayloadOk
  waiting : ∀ x, HeldWaiting p x → (p.1.objs x).status ≠ .running
  running : ∀ x ∈ p.1.running, (p.1.objs x).status ≠ .waitingForStreamingReq
  answered : ∀ x, HeldWaiting p x → (p.1.objs x).status = .waitingForToolCall →
    ResponseReady p.1 (p.1.objs x).requestId →
    (p.1.objs x).outputTokenIds = [] ∧ (p.1.objs x).numPreemptions = 0
  sent : ∀ x, Sent p.1 (Held p) x → Sent before (Queued before) x ∨ x ∈ p.2.scheduledNewReqs
  new : ∀ x ∈ p.2.scheduledNewReqs, x ∈ p.1.running ∧ (p.1.objs x).outputTokenIds = [] ∧
    (before.objs x).numPreemptions = 0
  cached : ∀ x, x ∈ p.2.scheduledRunningReqs ∨ x ∈ p.2.scheduledResumedReqs →
    Sent before (Queued before) x
  stays : p.2.preemptedReqs = [] → ∀ x, HandedOver p.2 x → x ∈ p.1.running
  fits : ∀ reqId n, p.2.numScheduledTokens.get? reqId = some n →
    ∃ x, HandedOver p.2 x ∧ (p.1.objs x).requestId = reqId ∧ Fits before p x n

/-- One change of the RUNNING loop preempts a request, or takes its drafts. -/
theorem RunningEffect.request_cases {p p' : Frame W} (h : self.RunningEffect p p') (x : Ref) :
    (∃ specTokenIds, p'.1.objs x = { p.1.objs x with specTokenIds }) ∨
      ((p.1.objs x).status = .running ∧ x ∈ p.1.running ∧ HeldWaiting p' x ∧
        p'.2.preemptedReqs ≠ [] ∧ p'.1.objs x = preempted (p.1.objs x)) := by
  cases h with
  | touch s l w => exact Or.inl ⟨_, rfl⟩
  | pass s l reqIndex scheduledLoras => exact Or.inl ⟨_, rfl⟩
  | @preempt s l l' victim rest w hvictim hstatus hlocals =>
    by_cases hx : x = victim
    · subst hx
      refine Or.inr ⟨hstatus, hvictim.mem_iff.mpr List.mem_cons_self, ?_, by simp, ?_⟩
      · exact Or.inl (self.mem_prependRequest.mpr (Or.inl rfl))
      · exact SchedulerState.objs_updateRequest_self ..
    · exact Or.inl ⟨_, SchedulerState.objs_updateRequest_of_ne _ _ hx⟩
  | @schedule s l l' request numNewTokens newBlocks w hrunning hsome hbound hlocals =>
    left
    by_cases hx : x = request
    · subst hx
      exact ⟨[], SchedulerState.objs_updateRequest_self ..⟩
    · exact ⟨_, SchedulerState.objs_updateRequest_of_ne _ _ hx⟩

theorem samePayload_preempted (r : Request) : Request.SamePayload r (preempted r) :=
  { Request.SamePayload.refl r with numPreemptions := Nat.le_succ _ }

theorem RunningEffect.samePayload {p p' : Frame W} (h : self.RunningEffect p p') (x : Ref) :
    Request.SamePayload (p.1.objs x) (p'.1.objs x) := by
  rcases h.request_cases x with ⟨specTokenIds, hx⟩ | ⟨_, _, _, _, hx⟩
  · rw [hx]
    exact { Request.SamePayload.refl (p.1.objs x) with }
  · rw [hx]
    exact samePayload_preempted _

theorem RunningEffect.payloadOk {p p' : Frame W} (h : self.RunningEffect p p') (x : Ref)
    (hx : (p.1.objs x).PayloadOk) : (p'.1.objs x).PayloadOk := by
  have hsame := h.samePayload x
  rcases h.request_cases x with ⟨specTokenIds, hobjs⟩ | ⟨_, _, _, _, hobjs⟩
  · rw [hobjs] at hsame ⊢
    exact hx.of_status hsame rfl rfl
  · rw [hobjs] at hsame ⊢
    apply hx.of_same hsame
    · rintro (hstatus | hstatus | ⟨hstatus, _⟩) <;> cases hstatus
    · exact fun _ => Nat.succ_ne_zero _

/-- The locals that the RUNNING loop changes. -/
theorem RunningEffect.locals_cases {p p' : Frame W} (h : self.RunningEffect p p') :
    (p'.2.scheduledRunningReqs = p.2.scheduledRunningReqs ∧
      p'.2.numScheduledTokens = p.2.numScheduledTokens ∧
      p'.2.scheduledSpecDecodeTokens = p.2.scheduledSpecDecodeTokens) ∨
    (∃ victim, p'.2.scheduledRunningReqs = p.2.scheduledRunningReqs.erase victim ∧
      p'.2.numScheduledTokens = p.2.numScheduledTokens.erase (p.1.objs victim).requestId ∧
      p'.2.scheduledSpecDecodeTokens =
        p.2.scheduledSpecDecodeTokens.erase (p.1.objs victim).requestId) ∨
    (∃ request numNewTokens newBlocks, request ∈ p.1.running ∧
      (∃ specTokenIds, p'.1.objs request = { p.1.objs request with specTokenIds }) ∧
      numNewTokens ≤ (p.1.objs request).numTokensWithSpec +
        (p.1.objs request).numOutputPlaceholders - (p.1.objs request).numComputedTokens ∧
      SameButEncoder (addRunning p.2 request (p.1.objs request) numNewTokens newBlocks) p'.2) := by
  cases h with
  | touch s l w => exact Or.inl ⟨rfl, rfl, rfl⟩
  | pass s l reqIndex scheduledLoras => exact Or.inl ⟨rfl, rfl, rfl⟩
  | @preempt s l l' victim rest w hvictim hstatus hlocals =>
    rcases hlocals with rfl | ⟨numTokens, rfl⟩
    · exact Or.inl ⟨rfl, rfl, rfl⟩
    · exact Or.inr (Or.inl ⟨victim, rfl, rfl, rfl⟩)
  | @schedule s l l' request numNewTokens newBlocks w hrunning hsome hbound hlocals =>
    exact Or.inr (Or.inr ⟨request, numNewTokens, newBlocks, hrunning,
      ⟨[], SchedulerState.objs_updateRequest_self ..⟩, hbound, hlocals⟩)

/-- A request enters the waiting queues by being preempted. -/
theorem RunningEffect.heldWaiting {p p' : Frame W} (h : self.RunningEffect p p') {x : Ref}
    (hx : HeldWaiting p' x) : HeldWaiting p x ∨ p'.1.objs x = preempted (p.1.objs x) := by
  cases h with
  | touch s l w => exact Or.inl hx
  | pass s l reqIndex scheduledLoras => exact Or.inl hx
  | @preempt s l l' victim rest w hvictim hstatus hlocals =>
    have haside : l'.stepSkippedWaiting = l.stepSkippedWaiting := by
      rcases hlocals with rfl | ⟨numTokens, rfl⟩
      · rfl
      · rfl
    rcases hx with hx | hx | hx
    · rcases self.mem_prependRequest.mp hx with rfl | hx
      · exact Or.inr (SchedulerState.objs_updateRequest_self ..)
      · exact Or.inl (Or.inl hx)
    · exact Or.inl (Or.inr (Or.inl hx))
    · exact Or.inl (Or.inr (Or.inr (haside ▸ hx)))
  | schedule newBlocks w hrunning hsome hbound hlocals =>
    rcases hx with hx | hx | hx
    · exact Or.inl (Or.inl hx)
    · exact Or.inl (Or.inr (Or.inl hx))
    · exact Or.inl (Or.inr (Or.inr (hlocals.stepSkippedWaiting ▸ hx)))

/-- Without a preemption nothing leaves `running`. -/
theorem RunningEffect.running_eq {p p' : Frame W} (h : self.RunningEffect p p')
    (hnone : p'.2.preemptedReqs = []) :
    p.2.preemptedReqs = [] ∧ p'.1.running = p.1.running := by
  cases h with
  | touch s l w => exact ⟨hnone, rfl⟩
  | pass s l reqIndex scheduledLoras => exact ⟨hnone, rfl⟩
  | preempt w hvictim hstatus hlocals => simp at hnone
  | schedule newBlocks w hrunning hsome hbound hlocals =>
    obtain ⟨inputs, budget, rfl⟩ := hlocals
    exact ⟨hnone, rfl⟩

/-- Within the RUNNING loop, which resets the computed tokens of what it preempts. -/
structure HandingOverRunning (before : SchedulerState W) (p : Frame W) : Prop extends
    HandingOver before p where
  computed : ∀ x, (p.1.objs x).numComputedTokens = (before.objs x).numComputedTokens ∨
    (p.1.objs x).numComputedTokens = 0
  noNew : p.2.scheduledNewReqs = []
  noResumed : p.2.scheduledResumedReqs = []

/-- A request that fits still fits after it was preempted. -/
theorem HandingOverRunning.fits_step {p p' : Frame W} (hp : HandingOverRunning before p)
    (h : self.RunningEffect p p') {x : Ref} {n : Int}
    (hdrafts : p'.2.scheduledSpecDecodeTokens.get? (p.1.objs x).requestId =
      p.2.scheduledSpecDecodeTokens.get? (p.1.objs x).requestId)
    (hfits : Fits before p x n) : Fits before p' x n := by
  intro hnonneg
  have hle := hfits hnonneg
  have hcomputed := hp.computed x
  have hsame := h.samePayload x
  rw [Request.numTokens, hsame.allTokenIds, hsame.requestId, hdrafts]
  rw [Request.numTokens] at hle
  rcases h.request_cases x with ⟨specTokenIds, hx⟩ | ⟨_, _, _, _, hx⟩
  · rw [hx]
    exact hle
  · rw [hx]
    change 0 + n ≤ _
    omega

/-- The tokens that a running request asks for fit. -/
theorem fits_addRunning {p p' : Frame W} {request : Ref} {numNewTokens : Int}
    {newBlocks : KVCacheBlocks} (hplaceholders : (p.1.objs request).numOutputPlaceholders = 0)
    (hbound : numNewTokens ≤ (p.1.objs request).numTokensWithSpec +
      (p.1.objs request).numOutputPlaceholders - (p.1.objs request).numComputedTokens)
    (hobjs : ∃ specTokenIds, p'.1.objs request = { p.1.objs request with specTokenIds })
    (hlocals : SameButEncoder
      (addRunning p.2 request (p.1.objs request) numNewTokens newBlocks) p'.2) :
    Fits before p' request numNewTokens := by
  intro _
  obtain ⟨specTokenIds, hx⟩ := hobjs
  obtain ⟨inputs, budget, hl⟩ := hlocals
  rw [hx, hl]
  generalize p.1.objs request = r at hplaceholders hbound
  simp only [addRunning, scheduledSpecTokens, hplaceholders, Request.numTokens,
    Request.numTokensWithSpec] at hbound ⊢
  by_cases hdrafts : numNewTokens + r.numComputedTokens - r.allTokenIds.length - 0 > 0
  · have hsome : r.specTokenIds ≠ [] := by
      intro hnone
      rw [hnone, List.length_nil] at hbound
      omega
    have hpos : 0 < r.specTokenIds.length := List.length_pos_of_ne_nil hsome
    rw [if_pos hdrafts]
    split
    · rw [if_pos, Dict.get?_set_self, Option.getD_some, List.length_take]
      · omega
      · refine ⟨hsome, ?_⟩
        apply List.ne_nil_of_length_pos
        rw [List.length_take]
        omega
    · rw [if_pos ⟨hsome, hsome⟩, Dict.get?_set_self, Option.getD_some]
      omega
  · rw [if_neg hdrafts, if_neg (by simp)]
    omega

/-- What is scheduled fits after one change of the RUNNING loop. -/
theorem RunningEffect.fits {p p' : Frame W} (h : self.RunningEffect p p')
    (hqueued : ∀ x, Queued before x → x < before.nextRef) (hp : HandingOverRunning before p)
    (reqId : RequestId) (n : Int) (hget : p'.2.numScheduledTokens.get? reqId = some n) :
    ∃ x, HandedOver p'.2 x ∧ (p'.1.objs x).requestId = reqId ∧ Fits before p' x n := by
  obtain ⟨_, _, hnew, hresumed⟩ := h.locals
  rcases h.locals_cases with ⟨hlists, htokens, hdrafts⟩ | ⟨victim, hlists, htokens, hdrafts⟩ |
    ⟨request, numNewTokens, blocks, hrequest, hobjs, hbound, hlocals⟩
  · rw [htokens] at hget
    obtain ⟨x, hx, hid, hfits⟩ := hp.fits reqId n hget
    refine ⟨x, ?_, (h.samePayload x).requestId.trans hid, ?_⟩
    · rw [HandedOver, hnew, hresumed, hlists]
      exact hx
    · exact hp.fits_step h (by rw [hdrafts]) hfits
  · rw [htokens, Dict.get?_erase] at hget
    split at hget
    · cases hget
    rename_i hne
    obtain ⟨x, hx, hid, hfits⟩ := hp.fits reqId n hget
    have hother : x ≠ victim := by
      rintro rfl
      exact hne hid.symm
    refine ⟨x, ?_, (h.samePayload x).requestId.trans hid, ?_⟩
    · rw [HandedOver, hnew, hresumed, hlists]
      exact hx.imp_right (Or.imp_left (List.mem_erase_of_ne hother).mpr)
    · apply hp.fits_step h _ hfits
      rw [hdrafts, hid, Dict.get?_erase_of_ne _ hne]
  · have hknown := hqueued request (hp.held request (Or.inl hrequest))
    by_cases hid : (p.1.objs request).requestId = reqId
    · refine ⟨request, ?_, (h.samePayload request).requestId.trans hid, ?_⟩
      · obtain ⟨inputs, budget, hl⟩ := hlocals
        rw [hl]
        exact Or.inr (Or.inl (List.mem_append_right _ (List.mem_singleton.mpr rfl)))
      · have hfits : Fits before p' request numNewTokens :=
          fits_addRunning (hp.requests request hknown).placeholders hbound hobjs hlocals
        obtain ⟨inputs, budget, hl⟩ := hlocals
        rw [hl, ← hid] at hget
        have hget := Dict.get?_set_self p.2.numScheduledTokens
          (p.1.objs request).requestId numNewTokens ▸ hget
        cases hget
        exact hfits
    · obtain ⟨inputs, budget, hl⟩ := hlocals
      have hkey : (addRunning p.2 request (p.1.objs request) numNewTokens
          blocks).numScheduledTokens.get? reqId = some n := by
        rw [hl] at hget
        exact hget
      rw [numScheduledTokens_addRunning_of_ne hid] at hkey
      obtain ⟨x, hx, hxid, hfits⟩ := hp.fits reqId n hkey
      refine ⟨x, ?_, (h.samePayload x).requestId.trans hxid, ?_⟩
      · rw [HandedOver, hnew, hresumed, hl]
        exact hx.imp_right (Or.imp_left (List.mem_append_left _))
      · apply hp.fits_step h _ hfits
        rw [hl]
        simp only [addRunning]
        split
        · rw [hxid, Dict.get?_set_of_ne _ _ (Ne.symm hid)]
        · rfl

/-- **Step lemma** of the RUNNING loop. -/
theorem RunningEffect.handingOver {p p' : Frame W} (h : self.RunningEffect p p')
    (hqueued : ∀ x, Queued before x → x < before.nextRef)
    (hp : HandingOverRunning before p) : HandingOverRunning before p' := by
  obtain ⟨hhook, _, hnew, hresumed⟩ := h.locals
  have hsame : ∀ x, Request.SamePayload (before.objs x) (p'.1.objs x) :=
    fun x => (hp.same x).trans (h.samePayload x)
  have hsent : ∀ x, Sent p.1 (Held p) x → Sent before (Queued before) x := by
    intro x hx
    rcases hp.sent x hx with hx | hx
    · exact hx
    · rw [hp.noNew] at hx
      cases hx
  exact
    { previous := Eq.trans (by cases h <;> rfl) hp.previous
      once := h.perm.nodup_iff.mpr hp.once
      held := fun x hx => hp.held x (h.held_iff hx)
      unfinished := by
        intro x hx
        rw [h.sameRegistry.2]
        exact hp.unfinished x (h.held_iff hx)
      same := hsame
      requests := fun x hx => h.payloadOk x (hp.requests x hx)
      waiting := by
        intro x hx hstatus
        rcases h.heldWaiting hx with hx | hobjs
        · rcases h.request_cases x with ⟨specTokenIds, hobjs⟩ | ⟨hrunning, _, _, _, hobjs⟩
          · rw [hobjs] at hstatus
            exact hp.waiting x hx hstatus
          · exact hp.waiting x hx hrunning
        · rw [hobjs] at hstatus
          cases hstatus
      running := by
        intro x hx hstatus
        have hx := (h.held x).1 hx
        rcases h.request_cases x with ⟨specTokenIds, hobjs⟩ | ⟨_, _, _, _, hobjs⟩
        · rw [hobjs] at hstatus
          exact hp.running x hx hstatus
        · rw [hobjs] at hstatus
          cases hstatus
      answered := by
        intro x hx hstatus hready
        rcases h.request_cases x with ⟨specTokenIds, hobjs⟩ | ⟨_, _, _, _, hobjs⟩
        · rw [hobjs] at hstatus hready ⊢
          rcases h.heldWaiting hx with hx | hpreempted
          · obtain ⟨hook, hsome, hanswered⟩ := hready
            exact hp.answered x hx hstatus ⟨hook, hhook ▸ hsome, hanswered⟩
          · rw [hobjs] at hpreempted
            have hpreempted := congrArg Request.status hpreempted
            change (p.1.objs x).status = .preempted at hpreempted
            rw [hpreempted] at hstatus
            cases hstatus
        · rw [hobjs] at hstatus
          cases hstatus
      sent := by
        rintro x (hx | ⟨hx, hwaits⟩)
        · exact Or.inl (hsent x (Or.inl ((h.held x).1 hx)))
        · rcases h.request_cases x with ⟨specTokenIds, hobjs⟩ | ⟨_, hx, _, _, _⟩
          · rw [hobjs] at hwaits
            exact Or.inl (hsent x (Or.inr ⟨h.held_iff hx, hwaits⟩))
          · exact Or.inl (hsent x (Or.inl hx))
      new := by
        rw [hnew, hp.noNew]
        exact nofun
      cached := by
        rw [hresumed]
        intro x hx
        rcases h.locals_cases with ⟨hlists, _, _⟩ | ⟨victim, hlists, _, _⟩ |
          ⟨request, n, blocks, hrequest, _, _, inputs, budget, hl⟩
        · rw [hlists] at hx
          exact hp.cached x hx
        · rw [hlists] at hx
          exact hp.cached x (hx.imp_left List.mem_of_mem_erase)
        · rw [hl] at hx
          rcases hx with hx | hx
          · rcases List.mem_append.mp hx with hx | hx
            · exact hp.cached x (Or.inl hx)
            · rw [List.mem_singleton.mp hx]
              exact hsent request (Or.inl hrequest)
          · exact hp.cached x (Or.inr hx)
      stays := by
        intro hnone x hx
        obtain ⟨hbefore, hrunning⟩ := h.running_eq hnone
        rw [hrunning]
        rw [HandedOver, hnew, hresumed] at hx
        rcases h.locals_cases with ⟨hlists, _, _⟩ | ⟨victim, hlists, _, _⟩ |
          ⟨request, n, blocks, hrequest, _, _, inputs, budget, hl⟩
        · rw [hlists] at hx
          exact hp.stays hbefore x hx
        · rw [hlists] at hx
          exact hp.stays hbefore x (hx.imp_right (Or.imp_left List.mem_of_mem_erase))
        · rw [hl] at hx
          rcases hx with hx | hx | hx
          · exact hp.stays hbefore x (Or.inl hx)
          · rcases List.mem_append.mp hx with hx | hx
            · exact hp.stays hbefore x (Or.inr (Or.inl hx))
            · rw [List.mem_singleton.mp hx]
              exact hrequest
          · exact hp.stays hbefore x (Or.inr (Or.inr hx))
      fits := h.fits hqueued hp
      computed := by
        intro x
        rcases h.request_cases x with ⟨specTokenIds, hobjs⟩ | ⟨_, _, _, _, hobjs⟩
        · rw [hobjs]
          exact hp.computed x
        · rw [hobjs]
          exact Or.inr rfl
      noNew := hnew.trans hp.noNew
      noResumed := hresumed.trans hp.noResumed }

/-- What the WAITING loop makes of a request.  `answered` says that its tool response
    arrived. -/
inductive WaitingChange (answered : Prop) (r : Request) : Request → Prop where
  | loaded (numComputedTokens : Int) (hstatus : r.status = .waitingForRemoteKvs) :
      WaitingChange answered r
        { r with numComputedTokens, status := if r.numPreemptions ≠ 0 then .preempted else .waiting }
  | grammar (hstatus : r.status = .waitingForStructuredOutputGrammar) :
      WaitingChange answered r { r with status := .waiting }
  | toolCall (hstatus : r.status = .waitingForToolCall) (hanswered : answered) :
      WaitingChange answered r { r with status := .waiting }
  | load (numComputedTokens : Int) (hunblocked : r.status.isBlockedWaitingStatus = false) :
      WaitingChange answered r { r with status := .waitingForRemoteKvs, numComputedTokens }
  | admission (numComputedTokens : Int) (hstatus : r.status = .waiting ∨ r.status = .preempted) :
      WaitingChange answered r { r with status := .running, numComputedTokens }

theorem Promotion.change {s s' : SchedulerState W} {request : Ref}
    (h : self.Promotion s request s') :
    WaitingChange (ResponseReady s (s.objs request).requestId) (s.objs request)
      (s'.objs request) := by
  cases h with
  | remoteKvs loaded w finishedRecving failedRecving hconnector hstatus hloaded =>
    rw [SchedulerState.objs_updateRequest_self]
    rcases hloaded with rfl | rfl
    · exact WaitingChange.loaded (s.objs request).numComputedTokens hstatus
    · exact WaitingChange.loaded ((s.objs request).numTokens - 1) hstatus
  | grammar hstatus =>
    rw [SchedulerState.objs_updateRequest_self]
    exact WaitingChange.grammar hstatus
  | @toolCall hook hstatus henabled hhook hready =>
    rw [SchedulerState.objs_updateRequest_self]
    exact WaitingChange.toolCall hstatus ⟨hook, hhook, hready⟩

/-- The WAITING loop changes the head of a waiting queue. -/
theorem WaitingEffect.request_cases {p p' : Frame W} (h : self.WaitingEffect p p') (x : Ref) :
    p'.1.objs x = p.1.objs x ∨ (HeldWaiting p x ∧
      WaitingChange (ResponseReady p.1 (p.1.objs x).requestId) (p.1.objs x) (p'.1.objs x)) := by
  cases h with
  | touch s l w => exact Or.inl rfl
  | examine l hhead => exact Or.inl rfl
  | lookup l w hcomputed => exact Or.inl rfl
  | @promote s s' which request l hhead hpromotion =>
    by_cases hx : x = request
    · subst hx
      exact Or.inr ⟨heldWaiting_of_head hhead, hpromotion.change⟩
    · exact Or.inl (hpromotion.objs_of_ne hx)
  | @skip s which request l hhead =>
    left
    dsimp only
    rw [self.objs_popRequest]
  | @load s which request l objs numComputedTokens hhead hconnector hunblocked hcomputed =>
    by_cases hx : x = request
    · subst hx
      refine Or.inr ⟨heldWaiting_of_head hhead, ?_⟩
      dsimp only
      rw [SchedulerState.objs_updateRequest_self, self.objs_popRequest]
      exact WaitingChange.load numComputedTokens hunblocked
    · left
      dsimp only
      rw [SchedulerState.objs_updateRequest_of_ne _ _ hx, self.objs_popRequest]
  | @admitWaiting s which request l l' numNewTokens numComputedTokens blocks w hhead hstatus
      hcomputed hsome hbound hlocals =>
    have hobjs : ((self.popRequest which s).startRunning request w).objs = s.objs :=
      self.objs_popRequest which s
    by_cases hx : x = request
    · subst hx
      refine Or.inr ⟨heldWaiting_of_head hhead, ?_⟩
      dsimp only
      rw [SchedulerState.objs_updateRequest_self, hobjs]
      exact WaitingChange.admission numComputedTokens hstatus
    · left
      dsimp only
      rw [SchedulerState.objs_updateRequest_of_ne _ _ hx, hobjs]

theorem WaitingChange.samePayload {answered : Prop} {r r' : Request}
    (h : WaitingChange answered r r') : Request.SamePayload r r' := by
  cases h <;> exact { Request.SamePayload.refl r with }

/-- A waiting request that is not blocked is new, or it is resumed. -/
theorem status_of_unblocked {r : Request} (hunblocked : r.status.isBlockedWaitingStatus = false)
    (hunfinished : r.isFinished = false) (hrunning : r.status ≠ .running) :
    r.status = .waiting ∨ r.status = .preempted := by
  unfold Request.isFinished at hunfinished
  generalize r.status = status at hunblocked hunfinished hrunning
  revert hunblocked hunfinished hrunning
  cases status <;> decide

/-- **The case analysis.**  The WAITING loop keeps what is promised of a request, unless it
    promotes a request that has output tokens or was preempted. -/
theorem WaitingChange.payloadOk {answered : Prop} {r r' : Request}
    (h : WaitingChange answered r r') (hr : r.PayloadOk) (hunfinished : r.isFinished = false)
    (hrunning : r.status ≠ .running)
    (hanswered : r.status = .waitingForToolCall → answered →
      r.outputTokenIds = [] ∧ r.numPreemptions = 0) :
    r'.PayloadOk ∧ (r'.WaitsAsResumed → r.WaitsAsResumed) := by
  have hsame := h.samePayload
  cases h with
  | loaded numComputedTokens hstatus =>
    by_cases hpreempted : r.numPreemptions = 0
    · have hfresh := hr.fresh (Or.inr (Or.inr ⟨hstatus, hpreempted⟩))
      rw [if_neg (not_not.mpr hpreempted)] at hsame ⊢
      refine ⟨hr.of_same hsame (fun _ => hfresh) nofun, ?_⟩
      rintro (hwaiting | ⟨hwaiting, _⟩) <;> cases hwaiting
    · rw [if_pos hpreempted] at hsame ⊢
      constructor
      · apply hr.of_same hsame
        · rintro (hwaiting | hwaiting | ⟨hwaiting, _⟩) <;> cases hwaiting
        · exact fun _ => hpreempted
      · exact fun _ => Or.inr ⟨hstatus, hpreempted⟩
  | grammar hstatus =>
    refine ⟨hr.of_same hsame (fun _ => hr.fresh (Or.inr (Or.inl hstatus))) nofun, ?_⟩
    rintro (hwaiting | ⟨hwaiting, _⟩) <;> cases hwaiting
  | toolCall hstatus hready =>
    refine ⟨hr.of_same hsame (fun _ => hanswered hstatus hready) nofun, ?_⟩
    rintro (hwaiting | ⟨hwaiting, _⟩) <;> cases hwaiting
  | load numComputedTokens hunblocked =>
    rcases status_of_unblocked hunblocked hunfinished hrunning with hstatus | hstatus
    · have hfresh := hr.fresh (Or.inl hstatus)
      refine ⟨hr.of_same hsame (fun _ => hfresh) nofun, ?_⟩
      rintro (hwaiting | ⟨_, hpreempted⟩)
      · cases hwaiting
      · exact absurd hfresh.2 hpreempted
    · constructor
      · apply hr.of_same hsame
        · rintro (hwaiting | hwaiting | ⟨_, hnever⟩)
          · cases hwaiting
          · cases hwaiting
          · exact absurd hnever (hr.preempted hstatus)
        · exact nofun
      · exact fun _ => Or.inl hstatus
  | admission numComputedTokens hstatus =>
    constructor
    · apply hr.of_leaves hsame
      · rintro (hwaiting | hwaiting | ⟨hwaiting, _⟩) <;> cases hwaiting
      · exact nofun
    · rintro (hwaiting | ⟨hwaiting, _⟩) <;> cases hwaiting

/-- What the WAITING loop writes. -/
theorem WaitingChange.status {answered : Prop} {r r' : Request}
    (h : WaitingChange answered r r') :
    r'.status = .waiting ∨ r'.status = .preempted ∨ r'.status = .waitingForRemoteKvs ∨
      r'.status = .running := by
  cases h with
  | loaded numComputedTokens hstatus =>
    dsimp only
    split
    · exact Or.inr (Or.inl rfl)
    · exact Or.inl rfl
  | grammar hstatus => exact Or.inl rfl
  | toolCall hstatus hanswered => exact Or.inl rfl
  | load numComputedTokens hunblocked => exact Or.inr (Or.inr (Or.inl rfl))
  | admission numComputedTokens hstatus => exact Or.inr (Or.inr (Or.inr rfl))

theorem WaitingChange.status_ne {answered : Prop} {r r' : Request}
    (h : WaitingChange answered r r') :
    r'.status ≠ .waitingForStreamingReq ∧ r'.status ≠ .waitingForToolCall ∧
      r'.isFinished = false := by
  unfold Request.isFinished
  rcases h.status with hstatus | hstatus | hstatus | hstatus <;> rw [hstatus] <;> decide

theorem WaitingEffect.responseReady {p p' : Frame W} (h : self.WaitingEffect p p')
    {reqId : RequestId} (hready : ResponseReady p'.1 reqId) : ResponseReady p.1 reqId := by
  obtain ⟨hook, hsome, hanswered⟩ := hready
  cases h with
  | touch s l w => exact ⟨hook, hsome, hanswered⟩
  | examine l hhead => exact ⟨hook, hsome, hanswered⟩
  | lookup l w hcomputed => exact ⟨hook, hsome, hanswered⟩
  | promote l hhead hpromotion => exact hpromotion.responseReady ⟨hook, hsome, hanswered⟩
  | skip l hhead => exact ⟨hook, by simpa using hsome, hanswered⟩
  | load objs numComputedTokens hhead hconnector hunblocked hcomputed =>
    refine ⟨hook, ?_, hanswered⟩
    rw [← self.edmmHook_popRequest]
    exact hsome
  | admitWaiting blocks w hhead hstatus hcomputed hsomeTokens hbound hlocals =>
    refine ⟨hook, ?_, hanswered⟩
    rw [← self.edmmHook_popRequest]
    exact hsome

/-- The WAITING loop admits a request, or it leaves `running` and the lists of the
    requests handed over as they are. -/
theorem WaitingEffect.locals_cases {p p' : Frame W} (h : self.WaitingEffect p p') :
    p'.2.preemptedReqs = p.2.preemptedReqs ∧
    ((p'.1.running = p.1.running ∧ p'.2.scheduledNewReqs = p.2.scheduledNewReqs ∧
      p'.2.scheduledRunningReqs = p.2.scheduledRunningReqs ∧
      p'.2.scheduledResumedReqs = p.2.scheduledResumedReqs ∧
      p'.2.numScheduledTokens = p.2.numScheduledTokens ∧
      p'.2.scheduledSpecDecodeTokens = p.2.scheduledSpecDecodeTokens ∧
      ∀ x, p'.1.objs x = p.1.objs x ∨ (p'.1.objs x).status ≠ .running) ∨
    (∃ request numNewTokens numComputedTokens blocks, HeldWaiting p request ∧
      ((p.1.objs request).status = .waiting ∨ (p.1.objs request).status = .preempted) ∧
      numNewTokens ≤ (p.1.objs request).numTokens - numComputedTokens ∧
      p'.1.running = p.1.running ++ [request] ∧
      p'.1.objs request = { p.1.objs request with status := .running, numComputedTokens } ∧
      (∀ x, x ≠ request → p'.1.objs x = p.1.objs x) ∧
      SameButEncoder (self.addWaiting p.2 request (p.1.objs request) numNewTokens blocks)
        p'.2)) := by
  cases h with
  | touch s l w => exact ⟨rfl, Or.inl ⟨rfl, rfl, rfl, rfl, rfl, rfl, fun _ => Or.inl rfl⟩⟩
  | examine l hhead => exact ⟨rfl, Or.inl ⟨rfl, rfl, rfl, rfl, rfl, rfl, fun _ => Or.inl rfl⟩⟩
  | lookup l w hcomputed =>
    exact ⟨rfl, Or.inl ⟨rfl, rfl, rfl, rfl, rfl, rfl, fun _ => Or.inl rfl⟩⟩
  | @promote s s' which request l hhead hpromotion =>
    refine ⟨rfl, Or.inl ⟨hpromotion.statuses.2.1, rfl, rfl, rfl, rfl, rfl, fun x => ?_⟩⟩
    by_cases hx : x = request
    · right
      rw [hx]
      rcases hpromotion.status with hstatus | hstatus <;> rw [hstatus] <;> decide
    · exact Or.inl (hpromotion.objs_of_ne hx)
  | @skip s which request l hhead =>
    refine ⟨rfl, Or.inl ⟨self.running_popRequest which s, rfl, rfl, rfl, rfl, rfl, fun x => ?_⟩⟩
    dsimp only
    exact Or.inl (by rw [self.objs_popRequest])
  | @load s which request l objs numComputedTokens hhead hconnector hunblocked hcomputed =>
    refine ⟨rfl, Or.inl ⟨self.running_popRequest which s, rfl, rfl, rfl, rfl, rfl, fun x => ?_⟩⟩
    dsimp only
    by_cases hx : x = request
    · right
      rw [hx, SchedulerState.objs_updateRequest_self]
      change RequestStatus.waitingForRemoteKvs ≠ .running
      decide
    · left
      rw [SchedulerState.objs_updateRequest_of_ne _ _ hx, self.objs_popRequest]
  | @admitWaiting s which request l l' numNewTokens numComputedTokens blocks w hhead hstatus
      hcomputed hsome hbound hlocals =>
    have hobjs : ((self.popRequest which s).startRunning request w).objs = s.objs :=
      self.objs_popRequest which s
    have hpreempted : l'.preemptedReqs = l.preemptedReqs := by
      obtain ⟨inputs, budget, rfl⟩ := hlocals
      rfl
    refine ⟨hpreempted, Or.inr ⟨request, numNewTokens, numComputedTokens, blocks,
      heldWaiting_of_head hhead, hstatus, hbound, ?_, ?_, ?_, hlocals⟩⟩
    · change (self.popRequest which s).running ++ [request] = _
      rw [self.running_popRequest]
    · dsimp only
      rw [SchedulerState.objs_updateRequest_self, hobjs]
    · intro x hx
      dsimp only
      rw [SchedulerState.objs_updateRequest_of_ne _ _ hx, hobjs]

theorem WaitingEffect.previous {p p' : Frame W} (h : self.WaitingEffect p p') :
    p'.1.prevStepScheduledReqIds = p.1.prevStepScheduledReqIds := by
  have hpop : ∀ which (s : SchedulerState W),
      (self.popRequest which s).prevStepScheduledReqIds = s.prevStepScheduledReqIds := by
    intro which s
    cases which <;> rfl
  cases h with
  | touch s l w => rfl
  | examine l hhead => rfl
  | lookup l w hcomputed => rfl
  | promote l hhead hpromotion => cases hpromotion <;> rfl
  | skip l hhead => exact hpop _ _
  | load objs numComputedTokens hhead hconnector hunblocked hcomputed => exact hpop _ _
  | admitWaiting blocks w hhead hstatus hcomputed hsome hbound hlocals => exact hpop _ _

theorem not_heldWaiting_of_running {p : Frame W}
    (honce : (heldQueues p.1 p.2.stepSkippedWaiting).Nodup) {x : Ref}
    (hx : x ∈ p.1.running) : ¬ HeldWaiting p x := by
  intro hwaits
  exact (List.nodup_append.mp honce).2.2 x hx x (mem_waitingQueues.mpr hwaits) rfl

/-- What an admission adds to the lists. -/
theorem mem_addWaiting {l l' : StepLocals} {request x : Ref} {r : Request} {n : Int}
    {blocks : KVCacheBlocks} (h : SameButEncoder (self.addWaiting l request r n blocks) l') :
    (x ∈ l'.scheduledNewReqs ↔ x ∈ l.scheduledNewReqs ∨ (x = request ∧ r.status = .waiting)) ∧
      (x ∈ l'.scheduledResumedReqs ↔
        x ∈ l.scheduledResumedReqs ∨ (x = request ∧ r.status ≠ .waiting)) ∧
      l'.scheduledRunningReqs = l.scheduledRunningReqs ∧
      l'.numScheduledTokens = l.numScheduledTokens.set r.requestId n ∧
      l'.scheduledSpecDecodeTokens = l.scheduledSpecDecodeTokens := by
  obtain ⟨inputs, budget, rfl⟩ := h
  refine ⟨?_, ?_, rfl, rfl, rfl⟩
  · unfold addWaiting
    dsimp only
    split <;> simp [*]
  · unfold addWaiting
    dsimp only
    split <;> simp [*]

theorem WaitingEffect.samePayload {p p' : Frame W} (h : self.WaitingEffect p p') (x : Ref) :
    Request.SamePayload (p.1.objs x) (p'.1.objs x) := by
  rcases h.request_cases x with hobjs | ⟨_, hchanged⟩
  · rw [hobjs]
    exact Request.SamePayload.refl _
  · exact hchanged.samePayload

/-- The requests in `running` stay as they are. -/
theorem WaitingEffect.objs_of_running {p p' : Frame W} (h : self.WaitingEffect p p')
    (honce : (heldQueues p.1 p.2.stepSkippedWaiting).Nodup) {x : Ref} (hx : x ∈ p.1.running) :
    p'.1.objs x = p.1.objs x := by
  rcases h.request_cases x with hobjs | ⟨hwaits, _⟩
  · exact hobjs
  · exact absurd hwaits (not_heldWaiting_of_running honce hx)

/-- What is scheduled fits after one change of the WAITING loop. -/
theorem WaitingEffect.fits {p p' : Frame W} (h : self.WaitingEffect p p')
    (hnone : p.2.preemptedReqs = []) (hp : HandingOver before p)
    (reqId : RequestId) (n : Int) (hget : p'.2.numScheduledTokens.get? reqId = some n) :
    ∃ x, HandedOver p'.2 x ∧ (p'.1.objs x).requestId = reqId ∧ Fits before p' x n := by
  -- what was handed over before this change
  have hbefore : ∀ {x}, HandedOver p.2 x → (p.1.objs x).requestId = reqId →
      p'.2.scheduledSpecDecodeTokens = p.2.scheduledSpecDecodeTokens →
      Fits before p x n → (p'.1.objs x).requestId = reqId ∧ Fits before p' x n := by
    intro x hx hid hdrafts hfits
    rw [Fits, h.objs_of_running hp.once (hp.stays hnone x hx), hdrafts]
    exact ⟨hid, hfits⟩
  rcases h.locals_cases.2 with ⟨_, hnew, hlist, hresumed, htokens, hdrafts, _⟩ |
    ⟨request, m, computed, blocks, _, _, hbound, _, hobjs, _, hl⟩
  · rw [htokens] at hget
    obtain ⟨x, hx, hid, hfits⟩ := hp.fits reqId n hget
    refine ⟨x, ?_, hbefore hx hid hdrafts hfits⟩
    rw [HandedOver, hnew, hlist, hresumed]
    exact hx
  · obtain ⟨hnew, hresumed, hlist, htokens, hdrafts⟩ := mem_addWaiting (x := request) hl
    by_cases hid : (p.1.objs request).requestId = reqId
    · refine ⟨request, ?_, (h.samePayload request).requestId.trans hid, ?_⟩
      · rw [HandedOver, hnew, hresumed]
        by_cases hstatus : (p.1.objs request).status = .waiting
        · exact Or.inl (Or.inr ⟨rfl, hstatus⟩)
        · exact Or.inr (Or.inr (Or.inr ⟨rfl, hstatus⟩))
      · rw [htokens, ← hid, Dict.get?_set_self, Option.some.injEq] at hget
        intro _
        rw [hobjs]
        change computed + n ≤ (p.1.objs request).numTokens + _
        omega
    · rw [htokens, Dict.get?_set_of_ne _ _ (Ne.symm hid)] at hget
      obtain ⟨x, hx, hxid, hfits⟩ := hp.fits reqId n hget
      refine ⟨x, ?_, hbefore hx hxid hdrafts hfits⟩
      obtain ⟨hnew, hresumed, hlist, _⟩ := mem_addWaiting (x := x) hl
      rw [HandedOver, hnew, hresumed, hlist]
      exact hx.imp Or.inl (Or.imp_right Or.inl)

/-- What one change of the WAITING loop does to a request that waits. -/
theorem HandingOver.change {p : Frame W} (hp : HandingOver before p)
    (hqueued : ∀ x, Queued before x → x < before.nextRef) {x : Ref} (hx : HeldWaiting p x)
    {r : Request}
    (hchanged : WaitingChange (ResponseReady p.1 (p.1.objs x).requestId) (p.1.objs x) r) :
    r.PayloadOk ∧ (r.WaitsAsResumed → (p.1.objs x).WaitsAsResumed) :=
  hchanged.payloadOk (hp.requests x (hqueued x (hp.held x (Or.inr hx))))
    (hp.unfinished x (Or.inr hx)) (hp.waiting x hx) (hp.answered x hx)

/-- The WAITING loop sends nothing but what it admits. -/
theorem WaitingEffect.sent {p p' : Frame W} (h : self.WaitingEffect p p')
    (hqueued : ∀ x, Queued before x → x < before.nextRef) (hp : HandingOver before p) :
    ∀ x, Sent p'.1 (Held p') x → Sent before (Queued before) x ∨ x ∈ p'.2.scheduledNewReqs := by
  have hresumed : ∀ {x}, Held p' x → (p'.1.objs x).WaitsAsResumed →
      Sent p.1 (Held p) x := by
    intro x hx hwaits
    rcases h.request_cases x with hobjs | ⟨hheld, hchanged⟩
    · rw [hobjs] at hwaits
      exact Or.inr ⟨h.held_iff hx, hwaits⟩
    · exact Or.inr ⟨Or.inr hheld, (hp.change hqueued hheld hchanged).2 hwaits⟩
  rcases h.locals_cases.2 with ⟨hrunning, hnew, _⟩ |
    ⟨request, n, computed, blocks, hwaits, hstatus, _, hrunning, _, _, hl⟩
  · rintro x (hx | ⟨hx, hwaits⟩)
    · rw [hrunning] at hx
      rw [hnew]
      exact hp.sent x (Or.inl hx)
    · rw [hnew]
      exact hp.sent x (hresumed hx hwaits)
  · have hmono : ∀ {x}, x ∈ p.2.scheduledNewReqs → x ∈ p'.2.scheduledNewReqs :=
      fun hx => (mem_addWaiting hl).1.mpr (Or.inl hx)
    rintro x (hx | ⟨hx, hx'⟩)
    · rw [hrunning, List.mem_append, List.mem_singleton] at hx
      rcases hx with hx | rfl
      · exact (hp.sent x (Or.inl hx)).imp_right hmono
      · rcases hstatus with hstatus | hstatus
        · exact Or.inr ((mem_addWaiting hl).1.mpr (Or.inr ⟨rfl, hstatus⟩))
        · exact (hp.sent x (Or.inr ⟨Or.inr hwaits, Or.inl hstatus⟩)).imp_right hmono
    · exact (hp.sent x (hresumed hx hx')).imp_right hmono

/-- **Step lemma** of the WAITING loop. -/
theorem WaitingEffect.handingOver {p p' : Frame W} (h : self.WaitingEffect p p')
    (hqueued : ∀ x, Queued before x → x < before.nextRef)
    (hnone : p.2.preemptedReqs = []) (hp : HandingOver before p) :
    p'.2.preemptedReqs = [] ∧ HandingOver before p' := by
  obtain ⟨hpreempted, hlocals⟩ := h.locals_cases
  refine ⟨hpreempted.trans hnone, ?_⟩
  have hruns : ∀ {x}, x ∈ p.1.running → p'.1.objs x = p.1.objs x :=
    fun hx => h.objs_of_running hp.once hx
  have honce : (heldQueues p'.1 p'.2.stepSkippedWaiting).Nodup := h.perm.nodup_iff.mpr hp.once
  exact
    { previous := h.previous.trans hp.previous
      once := honce
      held := fun x hx => hp.held x (h.held_iff hx)
      unfinished := by
        intro x hx
        rw [h.unfinished (fun _ y hy => hp.unfinished y (Or.inr hy))]
        exact hp.unfinished x (h.held_iff hx)
      same := fun x => (hp.same x).trans (h.samePayload x)
      requests := by
        intro x hx
        rcases h.request_cases x with hobjs | ⟨hwaits, hchanged⟩
        · rw [hobjs]
          exact hp.requests x hx
        · exact (hp.change hqueued hwaits hchanged).1
      waiting := by
        intro x hx
        rcases hlocals with ⟨_, _, _, _, _, _, hstay⟩ |
          ⟨request, n, computed, blocks, _, _, _, hrunning, _, hothers, _⟩
        · rcases hstay x with hobjs | hstatus
          · rw [hobjs]
            exact hp.waiting x ((h.held x).2 hx)
          · exact hstatus
        · have hne : x ≠ request := by
            rintro rfl
            apply not_heldWaiting_of_running honce _ hx
            rw [hrunning]
            exact List.mem_append_right _ (List.mem_singleton.mpr rfl)
          rw [hothers x hne]
          exact hp.waiting x ((h.held x).2 hx)
      running := by
        intro x hx
        rcases h.request_cases x with hobjs | ⟨_, hchanged⟩
        · rw [hobjs]
          rcases (h.held x).1 hx with hx | ⟨_, hstatus | hstatus⟩
          · exact hp.running x hx
          · rw [hstatus]
            decide
          · rw [hstatus]
            decide
        · exact hchanged.status_ne.1
      answered := by
        intro x hx hstatus hready
        rcases h.request_cases x with hobjs | ⟨_, hchanged⟩
        · rw [hobjs] at hstatus hready ⊢
          exact hp.answered x ((h.held x).2 hx) hstatus (h.responseReady hready)
        · exact absurd hstatus hchanged.status_ne.2.1
      sent := h.sent hqueued hp
      new := by
        rcases hlocals with ⟨hrunning, hnew, _⟩ |
          ⟨request, n, computed, blocks, hwaits, _, _, hrunning, hobjs, _, hl⟩
        · intro x hx
          rw [hnew] at hx
          obtain ⟨hx, hfresh⟩ := hp.new x hx
          rw [hrunning, hruns hx]
          exact ⟨hx, hfresh⟩
        · intro x hx
          rw [hrunning, List.mem_append, List.mem_singleton]
          rcases (mem_addWaiting hl).1.mp hx with hx | ⟨rfl, hstatus⟩
          · obtain ⟨hx, hfresh⟩ := hp.new x hx
            rw [hruns hx]
            exact ⟨Or.inl hx, hfresh⟩
          · have hknown := hp.requests x (hqueued x (hp.held x (Or.inr hwaits)))
            obtain ⟨houtput, hnever⟩ := hknown.fresh (Or.inl hstatus)
            rw [hobjs]
            exact ⟨Or.inr rfl, houtput, Nat.le_zero.mp (hnever ▸ (hp.same x).numPreemptions)⟩
      cached := by
        rcases hlocals with ⟨_, _, hlist, hresumed, _⟩ |
          ⟨request, n, computed, blocks, hwaits, hstatus, _, _, _, _, hl⟩
        · intro x hx
          rw [hlist, hresumed] at hx
          exact hp.cached x hx
        · obtain ⟨_, hresumed, hlist, _⟩ := mem_addWaiting (x := request) hl
          rintro x (hx | hx)
          · rw [hlist] at hx
            exact hp.cached x (Or.inl hx)
          · rcases (mem_addWaiting hl).2.1.mp hx with hx | ⟨rfl, hne⟩
            · exact hp.cached x (Or.inr hx)
            · have hresumes := hp.sent x
                (Or.inr ⟨Or.inr hwaits, Or.inl (hstatus.resolve_left hne)⟩)
              apply hresumes.resolve_right
              exact fun hx => not_heldWaiting_of_running hp.once (hp.new x hx).1 hwaits
      stays := by
        intro _
        rcases hlocals with ⟨hrunning, hnew, hlist, hresumed, _⟩ |
          ⟨request, n, computed, blocks, _, _, _, hrunning, _, _, hl⟩
        · intro x hx
          rw [HandedOver, hnew, hlist, hresumed] at hx
          rw [hrunning]
          exact hp.stays hnone x hx
        · intro x hx
          rw [hrunning, List.mem_append, List.mem_singleton]
          obtain ⟨hnew, hresumed, hlist, _⟩ := mem_addWaiting (x := x) hl
          rw [HandedOver, hnew, hresumed, hlist] at hx
          rcases hx with (hx | ⟨rfl, _⟩) | hx | hx | ⟨rfl, _⟩
          · exact Or.inl (hp.stays hnone x (Or.inl hx))
          · exact Or.inr rfl
          · exact Or.inl (hp.stays hnone x (Or.inr (Or.inl hx)))
          · exact Or.inl (hp.stays hnone x (Or.inr (Or.inr hx)))
          · exact Or.inr rfl
      fits := h.fits hnone hp }

/-- The frame that `schedule()` starts with. -/
theorem handingOver_start {tokens : WorkerTokens} {s : SchedulerState W}
    (hs : PayloadsOk tokens (fun _ => False) s) (hready : ReadyToSchedule s) :
    HandingOverRunning s (s, self.startLocals s) := by
  have hwaits : ∀ {x}, HeldWaiting (s, self.startLocals s) x →
      x ∈ s.waiting ∨ x ∈ s.skippedWaiting := by
    rintro x (hx | hx | hx)
    · exact Or.inl hx
    · exact Or.inr hx
    · cases hx
  have hheld : ∀ {x}, Held (s, self.startLocals s) x → Queued s x :=
    fun hx => hx.imp_right hwaits
  exact
    { previous := rfl
      once := hready.once
      held := fun _ hx => hheld hx
      unfinished := fun x hx => hready.unfinished x (hheld hx)
      same := fun _ => Request.SamePayload.refl _
      requests := hs.requests
      waiting := fun x hx => hs.waiting x (hwaits hx)
      running := fun x hx => hs.running x hx id
      answered := fun x hx => hready.answered x (hwaits hx)
      sent := fun x hx => Or.inl (hx.imp_right fun h => ⟨hheld h.1, h.2⟩)
      new := nofun
      cached := fun x hx => by rcases hx with hx | hx <;> cases hx
      stays := fun _ x hx => by rcases hx with hx | hx | hx <;> cases hx
      fits := nofun
      computed := fun _ => Or.inl rfl
      noNew := rfl
      noResumed := rfl }

/-- After the two loops of `schedule()`. -/
theorem Scheduled.handingOver {tokens : WorkerTokens} {s s' : SchedulerState W}
    {afterRunning afterWaiting : Frame W} {out : SchedulerOutput}
    (h : self.Scheduled s afterRunning afterWaiting out s')
    (hqueued : ∀ x, Queued s x → x < s.nextRef)
    (hs : PayloadsOk tokens (fun _ => False) s) (hready : ReadyToSchedule s) :
    HandingOver s afterWaiting := by
  have hrunning : HandingOverRunning s afterRunning :=
    invariant_of_chain (fun _ _ heffect hp => heffect.handingOver hqueued hp) h.running
      (handingOver_start hs hready)
  by_cases hnone : afterRunning.2.preemptedReqs = []
  · have hafter := invariant_of_chain
      (I := fun p => p.2.preemptedReqs = [] ∧ HandingOver s p)
      (fun _ _ heffect hp => heffect.handingOver hqueued hp.1 hp.2) h.waiting
      ⟨hnone, hrunning.toHandingOver⟩
    exact hafter.2
  · rw [h.stayed (Or.inl hnone)]
    exact hrunning.toHandingOver

/-- Which tokens are sent whole. -/
theorem get?_addAllTokenIds (s : SchedulerState W) (requests : List Ref)
    (sent : Dict RequestId (List Token)) (reqId : RequestId) :
    (∀ tokenIds, (addAllTokenIds s requests sent).get? reqId = some tokenIds →
      sent.get? reqId = some tokenIds ∨ ∃ x ∈ requests, (s.objs x).requestId = reqId ∧
        tokenIds = (s.objs x).allTokenIds) ∧
    ((sent.get? reqId).isSome = true ∨ (∃ x ∈ requests, (s.objs x).requestId = reqId ∧
        reqId ∉ s.prevStepScheduledReqIds) →
      ((addAllTokenIds s requests sent).get? reqId).isSome = true) := by
  induction requests generalizing sent with
  | nil =>
    refine ⟨fun _ h => Or.inl h, ?_⟩
    rintro (h | ⟨x, hx, _⟩)
    · exact h
    · cases hx
  | cons request rest ih =>
    have hrest := ih (if (s.objs request).requestId ∈ s.prevStepScheduledReqIds then sent
      else sent.set (s.objs request).requestId (s.objs request).allTokenIds)
    constructor
    · intro tokenIds hget
      rcases hrest.1 tokenIds hget with hget | ⟨x, hx, hid⟩
      · split at hget
        · exact Or.inl hget
        · rw [Dict.get?_set] at hget
          split at hget
          · rename_i hid
            cases hget
            exact Or.inr ⟨request, List.mem_cons_self, hid.symm, rfl⟩
          · exact Or.inl hget
      · exact Or.inr ⟨x, List.mem_cons_of_mem _ hx, hid⟩
    · intro hsome
      apply hrest.2
      split
      · rename_i hprevious
        apply hsome.imp_right
        rintro ⟨x, hx, hid, hnew⟩
        rcases List.mem_cons.mp hx with rfl | hx
        · exact absurd (hid ▸ hprevious) hnew
        · exact ⟨x, hx, hid, hnew⟩
      · rw [Dict.get?_set]
        by_cases hid : reqId = (s.objs request).requestId
        · exact Or.inl (by rw [if_pos hid]; rfl)
        · rw [if_neg hid]
          apply hsome.imp_right
          rintro ⟨x, hx, hxid, hnew⟩
          rcases List.mem_cons.mp hx with rfl | hx
          · exact absurd hxid.symm hid
          · exact ⟨x, hx, hxid, hnew⟩

end Scheduler

end Edmm
