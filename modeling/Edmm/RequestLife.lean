/-
  Edmm/RequestLife.lean
  =====================
  **What can happen to a request, said once, and its life cycle.**

  In an engine without a KV connector every operation is, for each request, a chain of
  a few kinds of change (`RequestChange`).  From these the life of a request follows:
  a finished request keeps its status and its tokens, and its identity never changes
  (`LivesOn`).  Each kind of operation moves the status of a request in its own ways only
  (`SchedulerOp.mayMove`): it starts and is preempted in `schedule`, say, and its tool call
  ends there.
-/
import Edmm.QueueConservation

namespace Edmm

open Program

variable {W : Type}

/-! ## 1. The life cycle -/

/-- The moves of the life cycle, of an engine without a KV connector.  RUNNING comes
    after WAITING or PREEMPTED only, PREEMPTED after RUNNING only, a tool call is called
    by a request that is not blocked, and nothing follows a finished status. -/
def RequestStatus.mayBecome (status status' : RequestStatus) : Bool :=
  !status.isFinished && (status'.isFinished ||
    match status' with
    | .running => status = .waiting ∨ status = .preempted
    | .preempted => status = .running
    | .waitingForToolCall => !status.isBlockedWaitingStatus
    | .waiting | .waitingForStreamingReq => true
    | _ => false)

theorem RequestStatus.mayBecome_waiting {status : RequestStatus} (h : status.isFinished = false) :
    status.mayBecome .waiting = true := by
  simp [mayBecome, h]

theorem RequestStatus.mayBecome_finished {status status' : RequestStatus}
    (h : status.isFinished = false) (h' : status'.isFinished = true) :
    status.mayBecome status' = true := by
  simp [mayBecome, h, h']

/-- Nothing follows a finished status. -/
theorem RequestStatus.not_mayBecome {status : RequestStatus} (h : status.isFinished = true)
    (status' : RequestStatus) : status.mayBecome status' = false := by
  simp [mayBecome, h]

/-- The moves of one call of `schedule`: a request starts or is preempted, and one whose
    grammar or tool response is there waits again, and may start at once. -/
def RequestStatus.mayBeScheduled (status status' : RequestStatus) : Bool :=
  status' = status ||
    match status with
    | .waiting | .preempted => status' = .running
    | .running => status' = .preempted
    | .waitingForStructuredOutputGrammar | .waitingForToolCall =>
        status' = .waiting || status' = .running
    | _ => false

/-- The moves of the output of a step: the request stops, or goes on as a session that
    waits for its next input or has it. -/
def RequestStatus.mayBeAnswered (status status' : RequestStatus) : Bool :=
  status' = status || (!status.isFinished &&
    (status'.isFinished || status' = .waitingForStreamingReq || status' = .waiting))

/-- The moves of the status of a request that one operation can make, in an engine without
    a KV connector. -/
def SchedulerOp.mayMove (op : SchedulerOp W) (status status' : RequestStatus) : Bool :=
  match op with
  | .schedule => status.mayBeScheduled status'
  | .updateFromOutput _ _ => status.mayBeAnswered status'
  | .addRequest _ => status' = status || (status = .waitingForStreamingReq &&
      (status' = .waiting || status' = .finishedAborted))
  | .finishRequests _ finishedStatus => status' = status || (!status.isFinished &&
      status'.isFinished && status' = finishedStatus)
  | .resetPrefixCache _ _ => status' = status || (status = .running && status' = .preempted)
  | .pauseInPlace _ _ | .holdForToolCall _ _ => status' = status || (!status.isFinished &&
      !status.isBlockedWaitingStatus && status' = .waitingForToolCall)
  | _ => status' = status

@[simp] theorem SchedulerOp.mayMove_refl (op : SchedulerOp W) (status : RequestStatus) :
    op.mayMove status status = true := by
  cases op <;> simp [mayMove, RequestStatus.mayBeScheduled, RequestStatus.mayBeAnswered]

namespace RequestStatus

/-- Who may be scheduled as `waiting` or `preempted` may start. -/
theorem mayBeScheduled_running {status status' : RequestStatus}
    (h : status.mayBeScheduled status' = true)
    (hstarts : status' = .waiting ∨ status' = .preempted) :
    status.mayBeScheduled .running = true := by
  rcases hstarts with rfl | rfl <;> revert h <;> cases status <;> decide

/-- Who may be scheduled as a blocked request may wait again. -/
theorem mayBeScheduled_waiting {status status' : RequestStatus}
    (h : status.mayBeScheduled status' = true)
    (hblocked : status' = .waitingForStructuredOutputGrammar ∨ status' = .waitingForToolCall) :
    status.mayBeScheduled .waiting = true := by
  rcases hblocked with rfl | rfl <;> revert h <;> cases status <;> decide

theorem mayBeAnswered_refl (status : RequestStatus) : status.mayBeAnswered status = true := by
  simp [mayBeAnswered]

/-- An answered request that is not finished may be answered again. -/
theorem mayBeAnswered_trans {status status' status'' : RequestStatus}
    (h : status.mayBeAnswered status' = true) (h' : status'.mayBeAnswered status'' = true) :
    status.mayBeAnswered status'' = true := by
  simp only [mayBeAnswered, Bool.or_eq_true, decide_eq_true_eq, Bool.and_eq_true,
    Bool.not_eq_true'] at h h' ⊢
  rcases h with rfl | ⟨hunfinished, hmoved⟩
  · exact h'
  · rcases h' with rfl | ⟨_, hnext⟩
    · exact Or.inr ⟨hunfinished, hmoved⟩
    · exact Or.inr ⟨hunfinished, hnext⟩

end RequestStatus

/-- How the life of a request goes on. -/
structure LivesOn (r r' : Request) : Prop where
  /-- A finished request keeps its status and its tokens. -/
  finished : r.isFinished = true → r'.status = r.status ∧ r'.allTokenIds = r.allTokenIds ∧
    r'.outputTokenIds = r.outputTokenIds ∧ r'.promptTokenIds = r.promptTokenIds
  requestId : r'.requestId = r.requestId
  clientIndex : r'.clientIndex = r.clientIndex
  priority : r'.priority = r.priority
  loraRequest : r'.loraRequest = r.loraRequest
  resumable : r'.resumable = true → r.resumable = true

namespace LivesOn

variable {r r' r'' : Request}

theorem refl (r : Request) : LivesOn r r where
  finished _ := ⟨rfl, rfl, rfl, rfl⟩
  requestId := rfl
  clientIndex := rfl
  priority := rfl
  loraRequest := rfl
  resumable h := h

theorem trans (h : LivesOn r r') (h' : LivesOn r' r'') : LivesOn r r'' where
  finished hfinished := by
    obtain ⟨hstatus, hall, houtput, hprompt⟩ := h.finished hfinished
    have hfinished' : r'.isFinished = true := by
      rw [Request.isFinished, hstatus]
      exact hfinished
    obtain ⟨hstatus', hall', houtput', hprompt'⟩ := h'.finished hfinished'
    exact ⟨hstatus'.trans hstatus, hall'.trans hall, houtput'.trans houtput,
      hprompt'.trans hprompt⟩
  requestId := h'.requestId.trans h.requestId
  clientIndex := h'.clientIndex.trans h.clientIndex
  priority := h'.priority.trans h.priority
  loraRequest := h'.loraRequest.trans h.loraRequest
  resumable hresumable := h.resumable (h'.resumable hresumable)

end LivesOn

namespace Scheduler

variable {self : Scheduler W}

/-! ## 2. The changes -/

/-- One change of a request, in an engine without a KV connector. -/
inductive RequestChange (scheduler : Scheduler W) (r : Request) : Request → Prop where
  /-- What is computed, planned and counted for the request is written. -/
  | planned (numComputedTokens : Int) (specTokenIds : List Token) (isPrefillChunk : Bool)
      (numOutputPlaceholders asyncTokensToDiscard : Int) (numPreemptions : Nat)
      (prefillStats : Bool) (streamingQueue : Option (List (Option StreamingUpdate))) :
      RequestChange scheduler r
        { r with
          numComputedTokens
          specTokenIds
          isPrefillChunk
          numOutputPlaceholders
          asyncTokensToDiscard
          numPreemptions
          prefillStats
          streamingQueue }
  | moved {status : RequestStatus} (hmay : r.status.mayBecome status = true)
      (hinput : status ≠ .waitingForStreamingReq) : RequestChange scheduler r { r with status }
  /-- Its output arrived. -/
  | answered {specTokenIds : List Token} {generated : List Token × Bool} {r' : Request}
      {stopped : Bool} (hunfinished : r.isFinished = false)
      (hdelivered : scheduler.Delivered specTokenIds generated r r' stopped) :
      RequestChange scheduler r r'
  /-- Its output stopped it, and it waits for the next input of its session. -/
  | idled {specTokenIds : List Token} {generated : List Token × Bool} {stopped : Request}
      (hunfinished : r.isFinished = false)
      (hdelivered : scheduler.Delivered specTokenIds generated r stopped true)
      (hresumable : stopped.resumable = true) : RequestChange scheduler r (idled stopped)
  /-- Its output stopped it, and it continues with the next input of its session. -/
  | proceeded {specTokenIds : List Token} {generated : List Token × Bool}
      {stopped r' : Request} (hunfinished : r.isFinished = false)
      (hdelivered : scheduler.Delivered specTokenIds generated r stopped true)
      (hcontinues : scheduler.Continues stopped r') : RequestChange scheduler r r'
  /-- The next input of its session arrived. -/
  | resumed (hstatus : r.status = .waitingForStreamingReq) (update : StreamingUpdate) :
      RequestChange scheduler r (scheduler.continueSession update r)

abbrev RequestChanges (scheduler : Scheduler W) : Request → Request → Prop :=
  Relation.ReflTransGen scheduler.RequestChange

/-- The fields of book-keeping, one at a time. -/
theorem changes_of_planned {r r' : Request} (h : ∃ numComputedTokens specTokenIds isPrefillChunk
    numOutputPlaceholders asyncTokensToDiscard numPreemptions prefillStats streamingQueue,
    r' = { r with
      numComputedTokens
      specTokenIds
      isPrefillChunk
      numOutputPlaceholders
      asyncTokensToDiscard
      numPreemptions
      prefillStats
      streamingQueue }) : self.RequestChanges r r' := by
  obtain ⟨computed, spec, chunk, placeholders, discard, preemptions, stats, queue, rfl⟩ := h
  exact Relation.ReflTransGen.single (.planned computed spec chunk placeholders discard
    preemptions stats queue)

/-- An output lets an unfinished request live on. -/
theorem Delivered.livesOn {specTokenIds : List Token} {generated : List Token × Bool}
    {r r' : Request} {stopped : Bool} (hunfinished : r.isFinished = false)
    (h : self.Delivered specTokenIds generated r r' stopped) : LivesOn r r' := by
  have hresumable := h.resumable
  obtain ⟨kept, hashes, computed, placeholders, status, reason, resumable, rfl⟩ := h.form
  exact
    { finished := by
        intro hfinished
        rw [hunfinished] at hfinished
        cases hfinished
      requestId := rfl
      clientIndex := rfl
      priority := rfl
      loraRequest := rfl
      resumable := hresumable }

/-- The next input of a session; what it continues from may be stopped already. -/
theorem livesOn_continueSession {r stopped : Request} (update : StreamingUpdate)
    (hunfinished : r.isFinished = false) (h : LivesOn r stopped) :
    LivesOn r (self.continueSession update stopped) := by
  obtain ⟨hashes, hform⟩ := self.extendPrompt_eq update (dropUncomputed stopped)
  unfold continueSession
  rw [hform]
  exact
    { finished := by
        intro hfinished
        rw [hunfinished] at hfinished
        cases hfinished
      requestId := h.requestId
      clientIndex := h.clientIndex
      priority := h.priority
      loraRequest := h.loraRequest
      resumable := h.resumable }

theorem RequestChange.livesOn {r r' : Request} (h : self.RequestChange r r') : LivesOn r r' := by
  cases h with
  | planned computed spec chunk placeholders discard preemptions stats queue =>
    exact
      { finished := fun _ => ⟨rfl, rfl, rfl, rfl⟩
        requestId := rfl
        clientIndex := rfl
        priority := rfl
        loraRequest := rfl
        resumable := id }
  | moved hmay hinput =>
    exact
      { finished := by
          intro hfinished
          rw [RequestStatus.not_mayBecome hfinished] at hmay
          cases hmay
        requestId := rfl
        clientIndex := rfl
        priority := rfl
        loraRequest := rfl
        resumable := id }
  | answered hunfinished hdelivered => exact hdelivered.livesOn hunfinished
  | idled hunfinished hdelivered hresumable =>
    have hlives := hdelivered.livesOn hunfinished
    exact
      { finished := by
          intro hfinished
          rw [hunfinished] at hfinished
          cases hfinished
        requestId := hlives.requestId
        clientIndex := hlives.clientIndex
        priority := hlives.priority
        loraRequest := hlives.loraRequest
        resumable := hlives.resumable }
  | @proceeded _ _ stopped _ hunfinished hdelivered hcontinues =>
    have hlives := hdelivered.livesOn hunfinished
    obtain ⟨_, update, rest, _, _, rfl⟩ := hcontinues
    apply livesOn_continueSession update hunfinished
    exact
      { finished := hlives.finished
        requestId := hlives.requestId
        clientIndex := hlives.clientIndex
        priority := hlives.priority
        loraRequest := hlives.loraRequest
        resumable := hlives.resumable }
  | resumed hstatus update =>
    apply livesOn_continueSession update _ (LivesOn.refl r)
    rw [Request.isFinished, hstatus]
    rfl

theorem RequestChanges.livesOn {r r' : Request} (h : self.RequestChanges r r') : LivesOn r r' := by
  induction h with
  | refl => exact LivesOn.refl r
  | tail _ last ih => exact ih.trans last.livesOn

/-! ## 3. One operation -/

section
variable {s s' : SchedulerState W}

/-- A write to one request leaves the others alone. -/
theorem changes_updateRequest {request : Ref} {f : Request → Request}
    (h : self.RequestChanges (s.objs request) (f (s.objs request))) (hobjs : s'.objs = s.objs)
    (x : Ref) : self.RequestChanges (s.objs x) ((s'.updateRequest request f).objs x) := by
  rw [SchedulerState.objs_updateRequest, hobjs]
  split
  · rename_i hx
    rw [hx]
    exact h
  · exact Relation.ReflTransGen.refl

theorem changes_preempted {r : Request} (h : r.status = .running) :
    self.RequestChanges r (preempted r) := by
  have hmoved : self.RequestChanges r { r with status := .preempted } :=
    Relation.ReflTransGen.single (.moved (by rw [h]; decide) (by decide))
  exact hmoved.trans (changes_of_planned ⟨_, _, _, _, _, _, _, _, rfl⟩)

theorem RunningEffect.changes {p p' : Frame W} (h : self.RunningEffect p p') (x : Ref) :
    self.RequestChanges (p.1.objs x) (p'.1.objs x) := by
  cases h with
  | touch s l w => exact Relation.ReflTransGen.refl
  | pass s l reqIndex scheduledLoras => exact Relation.ReflTransGen.refl
  | @preempt s l l' victim rest w hvictim hstatus hlocals =>
    exact changes_updateRequest (changes_preempted hstatus) rfl x
  | schedule newBlocks w hrunning hsome hbound hlocals =>
    exact changes_updateRequest (changes_of_planned ⟨_, _, _, _, _, _, _, _, rfl⟩) rfl x

/-- Without a connector, nothing is loaded. -/
theorem Promotion.changes (hconnector : self.hasConnector = false) {request : Ref}
    (h : self.Promotion s request s') (x : Ref) :
    self.RequestChanges (s.objs x) (s'.objs x) := by
  cases h with
  | remoteKvs loaded w finishedRecving failedRecving hhas hstatus hloaded =>
    rw [hconnector] at hhas
    cases hhas
  | grammar hstatus =>
    apply changes_updateRequest
    · exact Relation.ReflTransGen.single
        (.moved (RequestStatus.mayBecome_waiting (by rw [hstatus]; rfl)) (by decide))
    · rfl
  | toolCall hstatus henabled hhook hready =>
    apply changes_updateRequest
    · exact Relation.ReflTransGen.single
        (.moved (RequestStatus.mayBecome_waiting (by rw [hstatus]; rfl)) (by decide))
    · rfl

theorem WaitingEffect.changes (hconnector : self.hasConnector = false) {p p' : Frame W}
    (h : self.WaitingEffect p p') (x : Ref) :
    self.RequestChanges (p.1.objs x) (p'.1.objs x) := by
  cases h with
  | touch s l w => exact Relation.ReflTransGen.refl
  | examine l hhead => exact Relation.ReflTransGen.refl
  | lookup l w hcomputed => exact Relation.ReflTransGen.refl
  | promote l hhead hpromotion => exact hpromotion.changes hconnector x
  | skip l hhead =>
    dsimp only
    rw [objs_popRequest]
  | load objs numComputedTokens hhead hhas hunblocked hcomputed =>
    rw [hconnector] at hhas
    cases hhas
  | @admitWaiting s which request l l' numNewTokens numComputedTokens blocks w hhead hstatus
      hcomputed hsome hbound hlocals =>
    have hadmitted : self.RequestChanges (s.objs request)
        { s.objs request with status := .running, numComputedTokens } := by
      have hmoved : self.RequestChanges (s.objs request)
          { s.objs request with status := .running } := by
        apply Relation.ReflTransGen.single
        apply RequestChange.moved _ (by decide)
        rcases hstatus with hwaiting | hpreempted
        · rw [hwaiting]
          decide
        · rw [hpreempted]
          decide
      exact hmoved.trans (changes_of_planned ⟨_, _, _, _, _, _, _, _, rfl⟩)
    have hobjs : ((self.popRequest which s).startRunning request w).objs = s.objs :=
      self.objs_popRequest which s
    dsimp only
    apply changes_updateRequest
    · exact hadmitted
    · exact hobjs

/-- A chain of effects, each of which changes every request. -/
theorem changes_of_chain (self : Scheduler W) {S : Type} {Step : S → S → Prop}
    (objs : S → Ref → Request)
    (hstep : ∀ p p', Step p p' → ∀ x, self.RequestChanges (objs p x) (objs p' x)) {p p' : S}
    (chain : Relation.ReflTransGen Step p p') (x : Ref) :
    self.RequestChanges (objs p x) (objs p' x) := by
  induction chain with
  | refl => exact Relation.ReflTransGen.refl
  | tail _ last ih => exact ih.trans (hstep _ _ last x)

theorem Scheduled.changes (hconnector : self.hasConnector = false)
    {afterRunning afterWaiting : Frame W} {out : SchedulerOutput}
    (h : self.Scheduled s afterRunning afterWaiting out s') (x : Ref) :
    self.RequestChanges (s.objs x) (s'.objs x) := by
  obtain ⟨w, s₁, hadvanced, rfl⟩ := h.advanced
  have hrunning := changes_of_chain self (fun p : Frame W => p.1.objs)
    (fun _ _ heffect => heffect.changes) h.running x
  have hwaiting := changes_of_chain self (fun p : Frame W => p.1.objs)
    (fun _ _ heffect => heffect.changes hconnector) h.waiting x
  have hlast := changes_of_chain self SchedulerState.objs (p := SchedulerState.mk
    afterWaiting.1.objs afterWaiting.1.nextRef afterWaiting.1.requests afterWaiting.1.running
    afterWaiting.1.waiting _ _ _ _ _ _ _ _ _ _) (fun _ _ heffect => by
      cases heffect with
      | advance hitem hregistered =>
        exact changes_updateRequest (changes_of_planned ⟨_, _, _, _, _, _, _, _, rfl⟩) rfl)
    hadvanced x
  exact (hrunning.trans hwaiting).trans hlast

theorem OutputEffect.changes {out : SchedulerOutput} {mro : ModelRunnerOutput}
    {start : SchedulerState W} {reqId : RequestId} {p p' : SchedulerState W × OutputLocals}
    (h : self.OutputEffect out mro start reqId p p') (x : Ref) :
    self.RequestChanges (p.1.objs x) (p'.1.objs x) := by
  have hunfinished : ∀ {s : SchedulerState W} {request : Ref} {r : Request} {stopped : Bool},
      self.Answered out mro start s reqId request r stopped →
      (s.objs request).isFinished = false := by
    intro s request r stopped hanswered
    rw [hanswered.untouched]
    exact (start.unfinished?_eq_some.mp hanswered.unfinished).2
  cases h with
  | touch s acc w => exact Relation.ReflTransGen.refl
  | report s acc request outputs hscheduled hstart =>
    exact changes_updateRequest (changes_of_planned ⟨_, _, _, _, _, _, _, _, rfl⟩) rfl x
  | deliver w hanswered =>
    obtain ⟨generated, _, hdelivered⟩ := hanswered.delivered
    dsimp only
    apply changes_updateRequest
    · exact Relation.ReflTransGen.single (.answered (hunfinished hanswered) hdelivered)
    · rfl
  | @finish s acc request r r' delayed w w' hanswered hends hdelayed =>
    obtain ⟨generated, _, hdelivered⟩ := hanswered.delivered
    have hended : self.RequestChanges (s.objs request) r' := by
      apply (Relation.ReflTransGen.single
        (.answered (hunfinished hanswered) hdelivered)).trans
      rcases hends with ⟨_, rfl⟩ | ⟨rest, _, rfl⟩
      · exact Relation.ReflTransGen.refl
      · exact changes_of_planned ⟨_, _, _, _, _, _, _, _, rfl⟩
    exact changes_updateRequest (f := fun _ => r') hended rfl x
  | idle w hanswered hresumable hempty =>
    obtain ⟨generated, _, hdelivered⟩ := hanswered.delivered
    dsimp only
    apply changes_updateRequest
    · exact Relation.ReflTransGen.single
        (.idled (hunfinished hanswered) hdelivered hresumable)
    · rfl
  | proceed w hanswered hcontinues =>
    obtain ⟨generated, _, hdelivered⟩ := hanswered.delivered
    dsimp only
    apply changes_updateRequest
    · exact Relation.ReflTransGen.single
        (.proceeded (hunfinished hanswered) hdelivered hcontinues)
    · rfl

theorem FinishEffect.changes {finishedStatus : RequestStatus} {valid : List Ref}
    (h : self.FinishEffect finishedStatus valid s s') (x : Ref) :
    self.RequestChanges (s.objs x) (s'.objs x) := by
  cases h with
  | finish w finishedRecving failedRecving hvalid hregistered hunfinished hfinished hdelayed =>
    have hinput : finishedStatus ≠ .waitingForStreamingReq := by
      intro hidle
      rw [hidle] at hfinished
      cases hfinished
    have hmoved : self.RequestChanges _ _ := Relation.ReflTransGen.single
      (.moved (RequestStatus.mayBecome_finished hunfinished hfinished) hinput)
    exact changes_updateRequest (f := fun r => { r with status := finishedStatus }) hmoved rfl x

theorem FinishedBy.changes {requestIds : Option (List RequestId)} {finishedStatus : RequestStatus}
    (h : self.FinishedBy requestIds finishedStatus s s') (x : Ref) :
    self.RequestChanges (s.objs x) (s'.objs x) :=
  changes_of_chain self SchedulerState.objs (fun _ _ heffect => heffect.changes) h.effects x

theorem SessionEffect.changes {request : Request} {existing : Ref}
    (h : self.SessionEffect request existing s s') (x : Ref) :
    self.RequestChanges (s.objs x) (s'.objs x) := by
  cases h with
  | append hstatus =>
    exact changes_updateRequest (changes_of_planned ⟨_, _, _, _, _, _, _, _, rfl⟩) rfl x
  | proceed hstatus hprompt =>
    apply changes_updateRequest
    · exact Relation.ReflTransGen.single (.resumed hstatus _)
    · rfl
  | endSession hstatus hfinished => exact hfinished.changes x

theorem ResetEffect.changes (h : self.ResetEffect s s') (x : Ref) :
    self.RequestChanges (s.objs x) (s'.objs x) := by
  cases h with
  | @preempt victim rest w hvictim hstatus =>
    have hpreempted : self.RequestChanges (s.objs x)
        ((self.afterPreempt { s with running := rest } victim w).objs x) :=
      changes_updateRequest (changes_preempted hstatus) rfl x
    apply hpreempted.trans
    exact changes_updateRequest (s := self.afterPreempt { s with running := rest } victim w)
      (changes_of_planned ⟨_, _, _, _, _, _, _, _, rfl⟩) rfl x

/-- The output of a KV connector does not come with this operation. -/
def WithoutKvOutput : SchedulerOp W → Prop
  | .updateFromOutput _ mro => mro.kvConnectorOutput = none
  | _ => True

theorem withoutKvOutput_of_local {op : SchedulerOp W} (h : op.WithoutConnector) :
    WithoutKvOutput op := by
  cases op with
  | updateFromOutput out mro => exact h
  | _ => trivial

/-- The pause for a tool call. -/
theorem changes_toolPaused {reqId : RequestId} {request : Ref}
    (hpausable : pausable? s reqId = some request) :
    self.RequestChanges (s.objs request) (toolPaused (s.objs request)) := by
  obtain ⟨_, hunfinished, hunblocked⟩ := pausable?_eq_some hpausable
  apply Relation.ReflTransGen.single
  apply RequestChange.moved _ (by decide)
  rw [Request.isFinished] at hunfinished
  simp [RequestStatus.mayBecome, hunfinished, hunblocked]

/-- **Step lemma.**  One operation, for a request that exists. -/
theorem OperationEffect.changes (hconnector : self.hasConnector = false) {op : SchedulerOp W}
    {out : Option SchedulerOutput} (h : self.OperationEffect s op out s')
    (hlocal : WithoutKvOutput op) {x : Ref} (hx : x < s.nextRef) :
    self.RequestChanges (s.objs x) (s'.objs x) := by
  cases h with
  | @register params request w hinit habsent =>
    have hold : (self.afterRegister s (sessionStarted request) w).objs x = s.objs x :=
      Function.update_of_ne hx.ne _ _
    rw [hold]
  | session hinit hexisting heffect => exact heffect.changes x
  | schedule hscheduled => exact hscheduled.changes hconnector x
  | @updateFromOutput out mro start done s' acc hupdated =>
    obtain ⟨rfl, rfl⟩ := hupdated.withoutConnector hlocal
    apply changes_of_chain self (fun p : SchedulerState W × OutputLocals => p.1.objs) _
      hupdated.outputs x
    intro p p' heffect y
    obtain ⟨_, heffect⟩ := heffect
    exact heffect.changes y
  | finishRequests hfinished => exact hfinished.changes x
  | updateDraftTokenIds objs hobjs =>
    obtain ⟨specTokenIds, hx⟩ := hobjs x
    exact changes_of_planned ⟨_, specTokenIds, _, _, _, _, _, _, hx⟩
  | @resetPrefixCache _ _ s₁ previous w hreset hprevious =>
    exact changes_of_chain self SchedulerState.objs (fun _ _ heffect => heffect.changes) hreset x
  | pauseInPlace hpausable => exact changes_updateRequest (changes_toolPaused hpausable) rfl x
  | holdForToolCall hpausable => exact changes_updateRequest (changes_toolPaused hpausable) rfl x
  | setPauseState | pauseInPlaceIgnored | holdForToolCallIgnored | submitToolResponse
  | recordSpeculativeHandle | environment => exact Relation.ReflTransGen.refl

/-- Requests are never forgotten, and only `add_request` makes a new one. -/
theorem OperationEffect.nextRef_cases {op : SchedulerOp W} {out : Option SchedulerOutput}
    (h : self.OperationEffect s op out s') : s'.nextRef = s.nextRef ∨
      ∃ params request w, op = .addRequest params ∧
        Request.init self.externals.blockHasher params = .ok request ∧
        s.requests.get? request.requestId = none ∧
        s' = self.afterRegister s (sessionStarted request) w := by
  have hfinish : ∀ {requestIds : Option (List RequestId)} {finishedStatus : RequestStatus}
      {s₁ s₂ : SchedulerState W}, self.FinishedBy requestIds finishedStatus s₁ s₂ →
      s₂.nextRef = s₁.nextRef := by
    intro requestIds finishedStatus s₁ s₂ hfinished
    apply invariant_of_chain (I := fun s => s.nextRef = s₁.nextRef) _ hfinished.effects rfl
    rintro s s' ⟨w, finishedRecving, failedRecving⟩ hsame
    exact hsame
  have hconnector : ∀ {s₁ s₂ : SchedulerState W}, ConnectorEffects s₁ s₂ →
      s₂.nextRef = s₁.nextRef := by
    intro s₁ s₂ hchain
    apply invariant_of_chain (I := fun s => s.nextRef = s₁.nextRef) _ hchain rfl
    intro s s' heffect hsame
    cases heffect <;> exact hsame
  cases h with
  | register w hinit habsent => exact Or.inr ⟨_, _, w, rfl, hinit, habsent, rfl⟩
  | session hinit hexisting heffect =>
    left
    cases heffect with
    | append hstatus => rfl
    | proceed hstatus hprompt hupdate => rfl
    | endSession hstatus hfinished hupdate => exact hfinish hfinished
  | schedule hscheduled => exact Or.inl hscheduled.sameRegistry.nextRef
  | @updateFromOutput out mro start done s' acc hupdated =>
    left
    have hdone : done.nextRef = start.nextRef := by
      apply invariant_of_chain
        (I := fun p : SchedulerState W × OutputLocals => p.1.nextRef = start.nextRef) _
        hupdated.outputs rfl
      rintro p p' ⟨reqId, heffect⟩ hsame
      cases heffect <;> exact hsame
    obtain ⟨failed, hfailed, hloads⟩ := hupdated.loaded
    have hlast : failed.nextRef = done.nextRef := by
      rcases hfailed with rfl | ⟨ids, _, hfinished⟩
      · rfl
      · have hsame := hfinish hfinished
        exact hsame
    rw [hconnector hloads, hlast, hdone, hconnector hupdated.invalid]
  | finishRequests hfinished => exact Or.inl (hfinish hfinished)
  | resetPrefixCache previous w hreset hprevious =>
    left
    have hsame : ∀ s₁ s₂, self.ResetEffect s₁ s₂ → s₂.nextRef = s₁.nextRef :=
      fun _ _ heffect => heffect.sameRegistry.nextRef
    exact invariant_of_chain (I := fun s₁ => s₁.nextRef = s.nextRef)
      (fun s₁ s₂ heffect hbefore => (hsame s₁ s₂ heffect).trans hbefore) hreset rfl
  | updateDraftTokenIds | setPauseState | pauseInPlace | holdForToolCall | pauseInPlaceIgnored
  | holdForToolCallIgnored | submitToolResponse | recordSpeculativeHandle | environment =>
    exact Or.inl rfl

theorem OperationEffect.nextRef {op : SchedulerOp W} {out : Option SchedulerOutput}
    (h : self.OperationEffect s op out s') : s.nextRef ≤ s'.nextRef := by
  rcases h.nextRef_cases with hsame | ⟨params, request, w, _, _, _, rfl⟩
  · exact hsame.ge
  · exact Nat.le_succ _

end

/-! ## 4. The status in one operation -/

section
variable {s s' : SchedulerState W}

/-- A write to one request leaves the status of the others alone. -/
theorem status_updateRequest {P : RequestStatus → RequestStatus → Prop}
    (hrefl : ∀ status, P status status) {request : Ref} {f : Request → Request}
    (h : P (s.objs request).status (f (s.objs request)).status) (hobjs : s'.objs = s.objs)
    (x : Ref) : P (s.objs x).status ((s'.updateRequest request f).objs x).status := by
  rw [SchedulerState.objs_updateRequest, hobjs]
  split
  · rename_i hx
    rw [hx]
    exact h
  · exact hrefl _

/-- A running request may be preempted, and nothing else happens to a status. -/
def PreemptedOrSame (status status' : RequestStatus) : Prop :=
  status' = status ∨ status = .running ∧ status' = .preempted

theorem PreemptedOrSame.refl (status : RequestStatus) : PreemptedOrSame status status := Or.inl rfl

theorem PreemptedOrSame.trans {status status' status'' : RequestStatus}
    (h : PreemptedOrSame status status')
    (h' : PreemptedOrSame status' status'') : PreemptedOrSame status status'' := by
  rcases h with rfl | ⟨hwas, rfl⟩
  · exact h'
  · rcases h' with rfl | ⟨hrunning, _⟩
    · exact Or.inr ⟨hwas, rfl⟩
    · cases hrunning

/-- The RUNNING loop preempts running requests. -/
theorem RunningEffect.status {p p' : Frame W} (h : self.RunningEffect p p') (x : Ref) :
    PreemptedOrSame (p.1.objs x).status (p'.1.objs x).status := by
  cases h with
  | touch s l w => exact PreemptedOrSame.refl _
  | pass s l reqIndex scheduledLoras => exact PreemptedOrSame.refl _
  | preempt w hvictim hstatus hlocals =>
    exact status_updateRequest PreemptedOrSame.refl (Or.inr ⟨hstatus, rfl⟩) rfl x
  | schedule newBlocks w hrunning hsome hbound hlocals =>
    exact status_updateRequest PreemptedOrSame.refl (Or.inl rfl) rfl x

/-- A step of the WAITING loop: a blocked request waits again, or one that waits starts. -/
def AdmittedOrSame (status status' : RequestStatus) : Prop :=
  status' = status ∨
    ((status = .waitingForStructuredOutputGrammar ∨ status = .waitingForToolCall) ∧
      status' = .waiting) ∨
    ((status = .waiting ∨ status = .preempted) ∧ status' = .running)

theorem WaitingEffect.status (hconnector : self.hasConnector = false) {p p' : Frame W}
    (h : self.WaitingEffect p p') (x : Ref) :
    AdmittedOrSame (p.1.objs x).status (p'.1.objs x).status := by
  have hrefl : ∀ status, AdmittedOrSame status status := fun _ => Or.inl rfl
  cases h with
  | touch s l w => exact hrefl _
  | examine l hhead => exact hrefl _
  | lookup l w hcomputed => exact hrefl _
  | promote l hhead hpromotion =>
    cases hpromotion with
    | remoteKvs loaded w finishedRecving failedRecving hhas hstatus hloaded =>
      rw [hconnector] at hhas
      cases hhas
    | grammar hstatus =>
      dsimp only
      apply status_updateRequest hrefl
      · exact Or.inr (Or.inl ⟨Or.inl hstatus, rfl⟩)
      · rfl
    | toolCall hstatus henabled hhook hready =>
      dsimp only
      apply status_updateRequest hrefl
      · exact Or.inr (Or.inl ⟨Or.inr hstatus, rfl⟩)
      · rfl
  | skip l hhead =>
    dsimp only
    rw [objs_popRequest]
    exact hrefl _
  | load objs numComputedTokens hhead hhas hunblocked hcomputed =>
    rw [hconnector] at hhas
    cases hhas
  | @admitWaiting s which request l l' numNewTokens numComputedTokens blocks w hhead hstatus
      hcomputed hsome hbound hlocals =>
    have hobjs : ((self.popRequest which s).startRunning request w).objs = s.objs :=
      self.objs_popRequest which s
    dsimp only
    apply status_updateRequest hrefl
    · exact Or.inr (Or.inr ⟨hstatus, rfl⟩)
    · exact hobjs

/-- **The status in one call of `schedule`.** -/
theorem Scheduled.status (hconnector : self.hasConnector = false)
    {afterRunning afterWaiting : Frame W} {out : SchedulerOutput}
    (h : self.Scheduled s afterRunning afterWaiting out s') (x : Ref) :
    (s.objs x).status.mayBeScheduled (s'.objs x).status = true := by
  obtain ⟨w, s₁, hadvanced, rfl⟩ := h.advanced
  -- the RUNNING loop preempts a request once
  have hrunning : PreemptedOrSame (s.objs x).status (afterRunning.1.objs x).status :=
    invariant_of_chain (I := fun p : Frame W => PreemptedOrSame (s.objs x).status (p.1.objs x).status)
      (fun _ _ heffect hbefore => hbefore.trans (heffect.status x)) h.running (PreemptedOrSame.refl _)
  have hscheduled : (s.objs x).status.mayBeScheduled (afterRunning.1.objs x).status = true := by
    rcases hrunning with hsame | ⟨hwas, hnow⟩
    · simp [RequestStatus.mayBeScheduled, hsame]
    · simp [RequestStatus.mayBeScheduled, hwas, hnow]
  have hwaiting : (s.objs x).status.mayBeScheduled (afterWaiting.1.objs x).status = true := by
    apply invariant_of_chain
      (I := fun p : Frame W => (s.objs x).status.mayBeScheduled (p.1.objs x).status = true) _
      h.waiting hscheduled
    intro p p' heffect hbefore
    rcases heffect.status hconnector x with hsame | ⟨hblocked, hnow⟩ | ⟨hstarts, hnow⟩
    · rwa [hsame]
    · rw [hnow]
      exact RequestStatus.mayBeScheduled_waiting hbefore hblocked
    · rw [hnow]
      exact RequestStatus.mayBeScheduled_running hbefore hstarts
  -- advancing writes counters only
  apply invariant_of_chain
    (I := fun t : SchedulerState W => (s.objs x).status.mayBeScheduled (t.objs x).status = true) _
    hadvanced hwaiting
  intro t t' heffect hbefore
  cases heffect with
  | advance hitem hregistered =>
    rw [status_updateRequest (P := fun a b => b = a) (fun _ => rfl) rfl rfl x]
    exact hbefore

/-- A write that an answer may make to the status of a request. -/
theorem mayBeAnswered_updateRequest {request : Ref} {f : Request → Request}
    (h : (s.objs request).status.mayBeAnswered (f (s.objs request)).status = true)
    (hobjs : s'.objs = s.objs) (x : Ref) :
    (s.objs x).status.mayBeAnswered ((s'.updateRequest request f).objs x).status = true :=
  status_updateRequest (P := fun a b => a.mayBeAnswered b = true)
    RequestStatus.mayBeAnswered_refl h hobjs x

theorem OutputEffect.status {out : SchedulerOutput} {mro : ModelRunnerOutput}
    {start : SchedulerState W} {reqId : RequestId} {p p' : SchedulerState W × OutputLocals}
    (h : self.OutputEffect out mro start reqId p p') (x : Ref) :
    (p.1.objs x).status.mayBeAnswered (p'.1.objs x).status = true := by
  have hanswers : ∀ {s : SchedulerState W} {request : Ref} {r : Request} {stopped : Bool},
      self.Answered out mro start s reqId request r stopped → ∀ status' : RequestStatus,
      (status'.isFinished = true ∨ status' = .waitingForStreamingReq ∨ status' = .waiting) →
      (s.objs request).status.mayBeAnswered status' = true := by
    intro s request r stopped hanswered status' hstatus'
    have hunfinished := (start.unfinished?_eq_some.mp hanswered.unfinished).2
    rw [← hanswered.untouched, Request.isFinished] at hunfinished
    simp only [RequestStatus.mayBeAnswered, hunfinished, Bool.not_false, Bool.true_and,
      Bool.or_eq_true, decide_eq_true_eq]
    rcases hstatus' with hfinished | hidle | hwaiting
    · exact Or.inr (Or.inl (Or.inl hfinished))
    · exact Or.inr (Or.inl (Or.inr hidle))
    · exact Or.inr (Or.inr hwaiting)
  cases h with
  | touch s acc w => exact RequestStatus.mayBeAnswered_refl _
  | report s acc request outputs hscheduled hstart =>
    dsimp only
    apply mayBeAnswered_updateRequest
    · exact RequestStatus.mayBeAnswered_refl _
    · rfl
  | deliver w hanswered =>
    obtain ⟨generated, _, hdelivered⟩ := hanswered.delivered
    dsimp only
    apply mayBeAnswered_updateRequest
    · rw [hdelivered.same.2 rfl]
      exact RequestStatus.mayBeAnswered_refl _
    · rfl
  | @finish s acc request r r' delayed w w' hanswered hends hdelayed =>
    obtain ⟨generated, _, hdelivered⟩ := hanswered.delivered
    have hfinished := hdelivered.finished rfl
    have hended : r'.isFinished = true := by
      rcases hends with ⟨_, rfl⟩ | ⟨rest, _, rfl⟩
      · exact hfinished
      · exact hfinished
    exact mayBeAnswered_updateRequest (s := s) (f := fun _ => r')
      (hanswers hanswered _ (Or.inl hended)) rfl x
  | idle w hanswered hresumable hempty =>
    dsimp only
    apply mayBeAnswered_updateRequest
    · exact hanswers hanswered _ (Or.inr (Or.inl rfl))
    · rfl
  | proceed w hanswered hcontinues =>
    obtain ⟨_, update, rest, _, _, rfl⟩ := hcontinues
    dsimp only
    apply mayBeAnswered_updateRequest
    · exact hanswers hanswered _ (Or.inr (Or.inr rfl))
    · rfl

theorem FinishedBy.status {requestIds : Option (List RequestId)} {finishedStatus : RequestStatus}
    (h : self.FinishedBy requestIds finishedStatus s s') (x : Ref) :
    (s'.objs x).status = (s.objs x).status ∨ (s.objs x).isFinished = false ∧
      finishedStatus.isFinished = true ∧ (s'.objs x).status = finishedStatus := by
  apply invariant_of_chain (I := fun t : SchedulerState W =>
    (t.objs x).status = (s.objs x).status ∨ (s.objs x).isFinished = false ∧
      finishedStatus.isFinished = true ∧ (t.objs x).status = finishedStatus) _ h.effects
    (Or.inl rfl)
  intro t t' heffect hbefore
  cases heffect with
  | @finish request delayed w finishedRecving failedRecving hvalid hregistered hunfinished hfinished
      hdelayed =>
    have hwritten : ((t.updateRequest request fun r =>
          { r with status := finishedStatus }).objs x).status = (t.objs x).status ∨
        (t.objs x).status.isFinished = false ∧ ((t.updateRequest request fun r =>
          { r with status := finishedStatus }).objs x).status = finishedStatus :=
      status_updateRequest (P := fun a b => b = a ∨ a.isFinished = false ∧ b = finishedStatus)
        (fun _ => Or.inl rfl) (Or.inr ⟨hunfinished, rfl⟩) rfl x
    rcases hwritten with hsame | ⟨hwas, hnow⟩
    · rcases hbefore with hstart | hended
      · exact Or.inl (hsame.trans hstart)
      · exact Or.inr ⟨hended.1, hfinished, hsame.trans hended.2.2⟩
    · rcases hbefore with hstart | hended
      · rw [hstart] at hwas
        exact Or.inr ⟨hwas, hfinished, hnow⟩
      · rw [hended.2.2, hfinished] at hwas
        cases hwas

/-- Resetting preempts running requests. -/
theorem ResetEffect.status (h : self.ResetEffect s s') (x : Ref) :
    PreemptedOrSame (s.objs x).status (s'.objs x).status := by
  cases h with
  | @preempt victim rest w hvictim hstatus =>
    have hpreempted : PreemptedOrSame (s.objs x).status
        ((self.afterPreempt { s with running := rest } victim w).objs x).status :=
      status_updateRequest PreemptedOrSame.refl (Or.inr ⟨hstatus, rfl⟩) rfl x
    have hdiscarded : (((self.afterPreempt { s with running := rest } victim w).updateRequest
          victim discardPlaceholders).objs x).status =
        ((self.afterPreempt { s with running := rest } victim w).objs x).status :=
      status_updateRequest (P := fun a b => b = a) (fun _ => rfl) rfl rfl x
    rw [hdiscarded]
    exact hpreempted

/-- The pause for a tool call, in place or held. -/
theorem status_toolPaused {reqId : RequestId} {request : Ref}
    (hpausable : pausable? s reqId = some request) {hook : Option EdmmSchedulerHook} (x : Ref) :
    ((SchedulerState.updateRequest { s with edmmHook := hook } request toolPaused).objs x).status =
        (s.objs x).status ∨
      (s.objs x).status.isFinished = false ∧
        (s.objs x).status.isBlockedWaitingStatus = false ∧
        ((SchedulerState.updateRequest { s with edmmHook := hook } request
          toolPaused).objs x).status = .waitingForToolCall := by
  obtain ⟨_, hunfinished, hunblocked⟩ := pausable?_eq_some hpausable
  exact status_updateRequest (P := fun a b => b = a ∨ a.isFinished = false ∧
    a.isBlockedWaitingStatus = false ∧ b = .waitingForToolCall) (fun _ => Or.inl rfl)
    (Or.inr ⟨hunfinished, hunblocked, rfl⟩) rfl x

/-- **Step lemma.**  What one operation does to the status of a request that exists. -/
theorem OperationEffect.mayMove (hconnector : self.hasConnector = false) {op : SchedulerOp W}
    {out : Option SchedulerOutput} (h : self.OperationEffect s op out s')
    (hlocal : WithoutKvOutput op) {x : Ref} (hx : x < s.nextRef) :
    op.mayMove (s.objs x).status (s'.objs x).status = true := by
  cases h with
  | @register params request w hinit habsent =>
    have hold : (self.afterRegister s (sessionStarted request) w).objs x = s.objs x :=
      Function.update_of_ne hx.ne _ _
    rw [hold]
    exact SchedulerOp.mayMove_refl _ _
  | @session params request existing _ hinit hexisting heffect =>
    have hrefl : ∀ status : RequestStatus,
        (SchedulerOp.addRequest (W := W) params).mayMove status status = true :=
      fun status => SchedulerOp.mayMove_refl _ status
    cases heffect with
    | append hstatus =>
      apply status_updateRequest
        (P := fun a b => (SchedulerOp.addRequest (W := W) params).mayMove a b = true) hrefl
      · exact hrefl _
      · rfl
    | proceed hstatus hprompt =>
      apply status_updateRequest
        (P := fun a b => (SchedulerOp.addRequest (W := W) params).mayMove a b = true) hrefl
      · simp [SchedulerOp.mayMove, hstatus, continueSession]
      · rfl
    | endSession hstatus hfinished =>
      by_cases hvalid : x ∈ validRequests s (some [request.requestId])
      · -- the one request that is finished is the session itself
        obtain ⟨reqId, hunfinished, hlisted⟩ := mem_validRequests hvalid
        have hid := hlisted _ rfl
        rw [List.mem_singleton] at hid
        subst hid
        have hget := (s.unfinished?_eq_some.mp hunfinished).1
        rw [hexisting, Option.some.injEq] at hget
        subst hget
        rcases hfinished.status existing with hsame | ⟨_, _, hnow⟩
        · rw [hsame]
          exact hrefl _
        · simp [SchedulerOp.mayMove, hstatus, hnow]
      · rw [hfinished.others x hvalid]
        exact hrefl _
  | schedule hscheduled => exact hscheduled.status hconnector x
  | @updateFromOutput out mro start done s' acc hupdated =>
    obtain ⟨rfl, rfl⟩ := hupdated.withoutConnector hlocal
    apply invariant_of_chain (I := fun p : SchedulerState W × OutputLocals =>
      (start.objs x).status.mayBeAnswered (p.1.objs x).status = true) _ hupdated.outputs
      (by simp [RequestStatus.mayBeAnswered])
    rintro p p' ⟨reqId, heffect⟩ hbefore
    exact RequestStatus.mayBeAnswered_trans hbefore (heffect.status x)
  | finishRequests hfinished =>
    rcases hfinished.status x with hsame | ⟨hunfinished, hends, hnow⟩
    · rw [hsame]
      exact SchedulerOp.mayMove_refl _ _
    · rw [Request.isFinished] at hunfinished
      simp [SchedulerOp.mayMove, hunfinished, hends, hnow]
  | updateDraftTokenIds objs hobjs =>
    obtain ⟨specTokenIds, hx⟩ := hobjs x
    simp [hx]
  | @resetPrefixCache _ _ s₁ previous w hreset hprevious =>
    have hpreempted : PreemptedOrSame (s.objs x).status (s₁.objs x).status :=
      invariant_of_chain
        (I := fun t : SchedulerState W => PreemptedOrSame (s.objs x).status (t.objs x).status)
        (fun _ _ heffect hbefore => hbefore.trans (heffect.status x)) hreset (PreemptedOrSame.refl _)
    rcases hpreempted with hsame | ⟨hwas, hnow⟩
    · simp [SchedulerOp.mayMove, hsame]
    · simp [SchedulerOp.mayMove, hwas, hnow]
  | pauseInPlace hpausable =>
    rcases status_toolPaused hpausable x with hsame | ⟨hunfinished, hunblocked, hnow⟩
    · exact (congrArg _ hsame).trans (SchedulerOp.mayMove_refl _ _)
    · refine (congrArg _ hnow).trans ?_
      simp [SchedulerOp.mayMove, hunfinished, hunblocked]
  | holdForToolCall hpausable =>
    rcases status_toolPaused hpausable x with hsame | ⟨hunfinished, hunblocked, hnow⟩
    · exact (congrArg _ hsame).trans (SchedulerOp.mayMove_refl _ _)
    · refine (congrArg _ hnow).trans ?_
      simp [SchedulerOp.mayMove, hunfinished, hunblocked]
  | setPauseState | pauseInPlaceIgnored | holdForToolCallIgnored | submitToolResponse
  | recordSpeculativeHandle | environment => exact SchedulerOp.mayMove_refl _ _

end

/-! ## 5. Runs -/

theorem nextRef_le_of_run {start s : SchedulerState W} {history : List (SchedulerStep W)}
    (run : SchedulerRun self start history s) (hok : RegistryOk start) :
    start.nextRef ≤ s.nextRef := by
  have hboth : RegistryOk s ∧ start.nextRef ≤ s.nextRef :=
    run.invariant (P := fun _ => True) (I := fun s => RegistryOk s ∧ start.nextRef ≤ s.nextRef)
      (fun _ _ _ _ hbefore hstep _ =>
        ⟨(effect_of_exec hbefore.1 hstep).registryOk hbefore.1,
          hbefore.2.trans (effect_of_exec hbefore.1 hstep).nextRef⟩)
      (fun _ _ => trivial) ⟨hok, le_refl _⟩
  exact hboth.2

/-- A request that exists lives on. -/
theorem livesOn_of_run {start s : SchedulerState W} {history : List (SchedulerStep W)}
    (hconnector : self.hasConnector = false) (run : SchedulerRun self start history s)
    (hok : RegistryOk start) (hlocal : ∀ step ∈ history, WithoutKvOutput step.op) {x : Ref}
    (hx : x < start.nextRef) : LivesOn (start.objs x) (s.objs x) := by
  have hlives : RegistryOk s ∧ start.nextRef ≤ s.nextRef ∧ LivesOn (start.objs x) (s.objs x) := by
    apply Machine.Run.invariant (P := fun step : SchedulerStep W => WithoutKvOutput step.op)
      (I := fun s => RegistryOk s ∧ start.nextRef ≤ s.nextRef ∧
        LivesOn (start.objs x) (s.objs x)) _ run hlocal
      ⟨hok, le_refl _, LivesOn.refl _⟩
    rintro s s' op output ⟨hregistry, hknown, hlives⟩ hexec hop
    have heffect := effect_of_exec hregistry hexec
    refine ⟨heffect.registryOk hregistry, hknown.trans heffect.nextRef, hlives.trans ?_⟩
    have hchanges := heffect.changes hconnector hop (lt_of_lt_of_le hx hknown)
    exact RequestChanges.livesOn hchanges
  exact hlives.2.2

/-- **The life cycle of a request**, from any state of a run on: each operation moves its
    status only as operations of its kind do, it keeps its identity, and once it is
    finished its status and its tokens stay. -/
theorem livesOn_run {start s : SchedulerState W} {history : List (SchedulerStep W)}
    (hconnector : self.hasConnector = false) (run : SchedulerRun self start history s)
    (hok : RegistryOk start) (hlocal : ∀ step ∈ history, WithoutKvOutput step.op) {x : Ref}
    (hx : x < start.nextRef) :
    (∀ step ∈ history,
      step.op.mayMove (step.before.objs x).status (step.after.objs x).status = true) ∧
    LivesOn (start.objs x) (s.objs x) := by
  refine ⟨fun step hstep => ?_, livesOn_of_run hconnector run hok hlocal hx⟩
  obtain ⟨earlier, later, rfl⟩ := List.append_of_mem hstep
  obtain ⟨hrun, hexec, _⟩ := run.split rfl
  have hbefore := registryOk_of_run hrun hok
  have hknown : start.nextRef ≤ step.before.nextRef :=
    nextRef_le_of_run hrun hok
  have heffect := effect_of_exec hbefore hexec
  exact heffect.mayMove hconnector (hlocal step (by simp)) (lt_of_lt_of_le hx hknown)

/-- A request runs, is preempted, held for a tool call, resumed and finished. -/
theorem livesOn_run_finished : ∃ earlier before history s,
    SchedulerRun roomy start earlier before ∧ (before.objs 0).status = .waiting ∧
      SchedulerRun roomy before history s ∧ history.length = 9 ∧
      (s.objs 0).status = .finishedLengthCapped ∧
      (∀ step ∈ history,
        step.op.mayMove (step.before.objs 0).status (step.after.objs 0).status = true) ∧
      LivesOn (before.objs 0) (s.objs 0) := by
  have hplayed : ∃ p ∈ roomy.play start [.op (.addRequest (.text "a" [1, 2, 3] 3 false))],
      0 < p.2.nextRef ∧ (p.2.objs 0).status = .waiting ∧
        ∃ q ∈ roomy.play p.2
          [.op .schedule, .deliver 0 [("a", [4])], .op (.resetPrefixCache true false),
            .op .schedule, .deliver 1 [("a", [5])], .op (.holdForToolCall "a" ⟨0, none, 0⟩),
            .op (.submitToolResponse "a"), .op .schedule, .deliver 2 [("a", [6])]],
          q.1.length = 9 ∧ (∀ step ∈ q.1, step.op.WithoutConnector) ∧
            (q.2.objs 0).status = .finishedLengthCapped := by
    decide +kernel
  obtain ⟨⟨earlier, before⟩, hearlier, hknown, hwaiting, ⟨history, s⟩, hhistory, hlength, hlocal,
    hfinished⟩ := hplayed
  have reached := run_of_play (Option.mem_def.mp hearlier)
  have run := run_of_play (Option.mem_def.mp hhistory)
  have hok := registryOk_of_run reached (registered_init _ _ _).registry
  refine ⟨earlier, before, history, s, reached, hwaiting, run, hlength, hfinished,
    livesOn_run rfl run hok ?_ hknown⟩
  intro step hstep
  exact withoutKvOutput_of_local (hlocal step hstep)

end Scheduler

end Edmm
