/-
  Edmm/OperationEffects.lean
  ==========================
  **What one operation of the scheduler can do, and what no operation undoes.**

  `OperationEffect` is the inversion of `SchedulerOp.exec`: it lists how each
  operation that returns changes the state.  The last section is the invariant of
  the registry, `Registered`: an id is registered for a request that carries it,
  and an unfinished request in a queue is the one registered under its id.
-/
import Edmm.UpdateEffects

namespace Edmm

open Program

namespace Scheduler

variable {W : Type} (self : Scheduler W)

/-! ## 1. Adding a request -/

/-- The heap with a new request. -/
def allocated (s : SchedulerState W) (added : Request) : Ref → Request :=
  Function.update s.objs s.nextRef added

/-- The state after `add_request` registered a new request. -/
def afterRegister (s : SchedulerState W) (added : Request) (w : W) : SchedulerState W :=
  { s with
    objs := allocated s added
    nextRef := s.nextRef + 1
    waiting :=
      if added.status.isBlockedWaitingStatus then s.waiting
      else self.requestQueue.addRequest (allocated s added) s.waiting s.nextRef
    skippedWaiting :=
      if added.status.isBlockedWaitingStatus then
        self.requestQueue.addRequest (allocated s added) s.skippedWaiting s.nextRef
      else s.skippedWaiting
    requests := s.requests.set added.requestId s.nextRef
    world := w
    trace := s.trace ++ [.registered s.nextRef] }

/-- A resumable request starts a session without updates. -/
def sessionStarted (request : Request) : Request :=
  if request.resumable then { request with streamingQueue := some [] } else request

theorem sessionStarted_requestId (request : Request) :
    (sessionStarted request).requestId = request.requestId := by
  unfold sessionStarted
  split
  · rfl
  · rfl

theorem registerRequest_wp (s : SchedulerState W) (request : Request)
    (habsent : s.requests.get? request.requestId = none) :
    wp (self.addRequest request)
      (fun _ s' => ∃ w, s' = self.afterRegister s (sessionStarted request) w)
      (fun _ _ => False) s := by
  unfold addRequest
  rw [wp_bind, wp_get, habsent]
  change wp (modify _ >>= _) _ _ s
  rw [wp_bind, wp_modify, wp_bind]
  unfold enqueueWaitingRequest
  rw [wp_bind, wp_get]
  simp only [Function.update_self]
  have hid := sessionStarted_requestId request
  unfold sessionStarted at hid
  generalize hadded : (if request.resumable = true then
    { request with streamingQueue := some [] } else request) = added at hid ⊢
  have hsession : sessionStarted request = added := hadded
  rw [wp_ite]
  constructor
  · intro hblocked
    rw [wp_modify, wp_bind, wp_modify, wp_bind, wp_record, wp_onlyIf]
    constructor
    · intro _
      rw [wp_onWorld]
      refine ⟨self.externals.onNewRequest s.world added, ?_⟩
      rw [hsession]
      simp only [afterRegister, hblocked, if_true, hid]
      rfl
    · intro _
      refine ⟨s.world, ?_⟩
      rw [hsession]
      simp only [afterRegister, hblocked, if_true, hid]
      rfl
  · intro hblocked
    rw [wp_modify, wp_bind, wp_modify, wp_bind, wp_record, wp_onlyIf]
    constructor
    · intro _
      rw [wp_onWorld]
      refine ⟨self.externals.onNewRequest s.world added, ?_⟩
      rw [hsession]
      simp only [afterRegister, hblocked, hid]
      rfl
    · intro _
      refine ⟨s.world, ?_⟩
      rw [hsession]
      simp only [afterRegister, hblocked, hid]
      rfl

/-- Another update waits in the session's queue. -/
def appendUpdate (update : Option StreamingUpdate) (r : Request) : Request :=
  { r with streamingQueue := r.streamingQueue.map fun updates => updates ++ [update] }

/-- What `add_request` does for an id that is registered already. -/
inductive SessionEffect (scheduler : Scheduler W) (request : Request) (existing : Ref)
    (s : SchedulerState W) : SchedulerState W → Prop where
  | append (hstatus : (s.objs existing).status ≠ .waitingForStreamingReq) :
      SessionEffect scheduler request existing s
        (s.updateRequest existing (appendUpdate (StreamingUpdate.fromRequest request)))
  | proceed {update : StreamingUpdate}
      (hstatus : (s.objs existing).status = .waitingForStreamingReq)
      (hprompt : (s.objs existing).promptTokenIds.isSome = true)
      (hupdate : StreamingUpdate.fromRequest request = some update) :
      SessionEffect scheduler request existing s
        (SchedulerState.updateRequest
          { s with numWaitingForStreamingInput := s.numWaitingForStreamingInput - 1 }
          existing (scheduler.continueSession update))
  | endSession {s' : SchedulerState W}
      (hstatus : (s.objs existing).status = .waitingForStreamingReq)
      (hfinished : scheduler.FinishedBy (some [request.requestId]) .finishedAborted s s')
      (hupdate : StreamingUpdate.fromRequest request = none) :
      SessionEffect scheduler request existing s s'

theorem addExisting_wp (s : SchedulerState W) (hok : RegistryOk s) (request : Request)
    {existing : Ref} (hexisting : s.requests.get? request.requestId = some existing) :
    wp (self.addRequest request) (fun _ s' => self.SessionEffect request existing s s')
      (fun _ _ => True) s := by
  unfold addRequest
  rw [wp_bind, wp_get, hexisting]
  dsimp only
  split
  · rename_i hstatus
    rw [wp_bind, wp_pyAssert]
    exact ⟨fun _ => SessionEffect.append hstatus, fun _ => trivial⟩
  rename_i hstatus
  have hstatus : (s.objs existing).status = .waitingForStreamingReq := not_not.mp hstatus
  split
  · rename_i update hupdate
    apply wp_mono (self.updateRequestAsSession_wp s existing update)
    · rintro _ s' ⟨hprompt, rfl⟩
      rw [if_pos hstatus]
      exact SessionEffect.proceed hstatus hprompt hupdate
    · exact fun _ _ _ => trivial
  · rename_i hupdate
    rw [wp_bind]
    apply wp_mono (self.finishRequests_effects s hok (some [request.requestId]) .finishedAborted)
    · exact fun _ s' h => SessionEffect.endSession hstatus h hupdate
    · exact fun _ _ _ => trivial

/-! ## 2. Drafts and resets -/

theorem updateDraftTokenIds_wp (s : SchedulerState W)
    (drafts : List (RequestId × List Token)) :
    wp (self.updateDraftTokenIds drafts)
      (fun _ s' => ∃ objs, (∀ x, ∃ specTokenIds, objs x = { s.objs x with specTokenIds }) ∧
        s' = { s with objs })
      (fun _ _ => False) s := by
  apply wp_forM (I := fun s' : SchedulerState W => ∃ objs,
    (∀ x, ∃ specTokenIds, objs x = { s.objs x with specTokenIds }) ∧ s' = { s with objs })
  · rintro draft _ s₁ ⟨objs, hobjs, rfl⟩
    have hwrite : ∀ request specTokenIds, ∃ objs',
        (∀ x, ∃ specTokenIds, objs' x = { s.objs x with specTokenIds }) ∧
        ({ s with objs } : SchedulerState W).updateRequest request
          (fun r => { r with specTokenIds }) = { s with objs := objs' } := by
      intro request specTokenIds
      refine ⟨_, ?_, rfl⟩
      intro x
      by_cases hx : x = request
      · obtain ⟨old, hold⟩ := hobjs request
        refine ⟨specTokenIds, ?_⟩
        rw [hx, Function.update_self]
        dsimp only
        rw [hold]
      · rw [Function.update_of_ne hx]
        exact hobjs x
    rw [wp_bind, wp_get]
    split
    · exact ⟨objs, hobjs, rfl⟩
    · dsimp only
      split
      · exact hwrite _ _
      · exact hwrite _ _
  · exact ⟨s.objs, fun x => ⟨(s.objs x).specTokenIds, rfl⟩, rfl⟩

/-- What `reset_prefix_cache` writes into a request it preempts. -/
def discardPlaceholders (r : Request) : Request :=
  { r with asyncTokensToDiscard := r.numOutputPlaceholders, numOutputPlaceholders := 0 }

/-- One iteration of the `while self.running` loop of `reset_prefix_cache`. -/
inductive ResetEffect : SchedulerState W → SchedulerState W → Prop where
  | preempt {s : SchedulerState W} {victim : Ref} {rest : List Ref} (w : W)
      (hvictim : s.running = rest ++ [victim]) (hstatus : (s.objs victim).status = .running) :
      ResetEffect s
        ((self.afterPreempt { s with running := rest } victim w).updateRequest victim
          discardPlaceholders)

abbrev ResetEffects : SchedulerState W → SchedulerState W → Prop :=
  Relation.ReflTransGen self.ResetEffect

theorem preemptAllRunning_wp (fuel : Nat) (s : SchedulerState W) :
    wp (self.preemptAllRunning fuel) (fun _ s' => self.ResetEffects s s') (fun _ _ => True) s := by
  induction fuel generalizing s with
  | zero => exact Relation.ReflTransGen.refl
  | succ fuel ih =>
    unfold preemptAllRunning
    rw [wp_bind, wp_get]
    split
    · exact Relation.ReflTransGen.refl
    rename_i victim hvictim
    obtain ⟨rest, hrest⟩ := List.getLast?_eq_some_iff.mp hvictim
    have hdrop : s.running.dropLast = rest := by rw [hrest, List.dropLast_concat]
    rw [wp_bind, wp_modify, hdrop, wp_bind]
    apply self.preemptRequest_wp
    · intro hstatus w
      rw [wp_bind, wp_modifyRequest]
      apply wp_mono (ih _)
      · intro _ s' hreach
        exact Relation.ReflTransGen.head (ResetEffect.preempt w hrest hstatus) hreach
      · exact fun _ _ _ => trivial
    · exact fun _ => trivial

theorem resetPrefixCache_wp (s : SchedulerState W) (resetRunningRequests resetConnector : Bool) :
    wp (self.resetPrefixCache resetRunningRequests resetConnector)
      (fun _ s' => ∃ s₁ previous w, self.ResetEffects s s₁ ∧
        (previous = [] ∨ (previous = s₁.prevStepScheduledReqIds ∧ s₁ = s)) ∧
        s' = { s₁ with prevStepScheduledReqIds := previous, world := w })
      (fun _ _ => True) s := by
  have hreset : wp
      (onlyIf (resetRunningRequests = true) (do
        let s ← get
        self.preemptAllRunning s.running.length
        modify fun s => { s with prevStepScheduledReqIds := [] }))
      (fun _ s' => ∃ s₁ previous, self.ResetEffects s s₁ ∧
        (previous = [] ∨ (previous = s₁.prevStepScheduledReqIds ∧ s₁ = s)) ∧
        s' = { s₁ with prevStepScheduledReqIds := previous })
      (fun _ _ => True) s := by
    rw [wp_onlyIf]
    constructor
    · intro _
      rw [wp_bind, wp_get, wp_bind]
      apply wp_mono (self.preemptAllRunning_wp _ s)
      · intro _ s₁ hreach
        exact ⟨s₁, [], hreach, Or.inl rfl, rfl⟩
      · exact fun _ _ _ => trivial
    · intro _
      exact ⟨s, s.prevStepScheduledReqIds, Relation.ReflTransGen.refl, Or.inr ⟨rfl, rfl⟩, rfl⟩
  unfold resetPrefixCache
  rw [wp_bind]
  apply wp_mono hreset
  swap
  · exact fun _ _ _ => trivial
  rintro _ s' ⟨s₁, previous, hreach, hprevious, rfl⟩
  rw [wp_bind, wp_callWorld, wp_bind, wp_pyAssert]
  refine ⟨fun _ => ?_, fun _ => trivial⟩
  rw [wp_ite]
  constructor
  · intro _
    rw [wp_bind]
    unfold resetConnectorCache
    rw [wp_ite]
    exact ⟨fun _ => ⟨s₁, previous, _, hreach, hprevious, rfl⟩,
      fun _ => ⟨s₁, previous, _, hreach, hprevious, rfl⟩⟩
  · intro _
    exact ⟨s₁, previous, _, hreach, hprevious, rfl⟩

/-! ## 3. Pauses -/

/-- `request.status = WAITING_FOR_TOOL_CALL` -/
def toolPaused (r : Request) : Request := { r with status := .waitingForToolCall }

/-- The state after the pause of the hook's docstring. -/
def afterPause (s : SchedulerState W) (reqId : RequestId)
    (reading : EdmmSchedulerHook.PauseReading) (request : Ref) : SchedulerState W :=
  SchedulerState.updateRequest
    { s with edmmHook := s.edmmHook.map fun hook => (hook.onToolCallPause reqId reading).2 }
    request toolPaused

/-- The state after the pause that also holds the request in `skipped_waiting`. -/
def afterHold (s : SchedulerState W) (reqId : RequestId)
    (reading : EdmmSchedulerHook.PauseReading) (request : Ref) : SchedulerState W :=
  let objs := (s.updateRequest request toolPaused).objs
  { afterPause s reqId reading request with
    running := s.running.filter (· ≠ request)
    waiting := self.requestQueue.removeRequests objs s.waiting [request]
    skippedWaiting := self.requestQueue.addRequest objs
      (self.requestQueue.removeRequests objs s.skippedWaiting [request]) request }

theorem pauseInPlace_wp {Q : Unit → SchedulerState W → Prop}
    {E : PyError → SchedulerState W → Prop} (s : SchedulerState W) (reqId : RequestId)
    (reading : EdmmSchedulerHook.PauseReading)
    (hpause : ∀ request, pausable? s reqId = some request →
      Q () (afterPause s reqId reading request))
    (hignore : pausable? s reqId = none → Q () s) :
    wp (pauseInPlace reqId reading) Q E s := by
  unfold pauseInPlace
  rw [wp_bind, wp_get]
  cases h : pausable? s reqId with
  | none => exact hignore h
  | some request =>
    dsimp only
    rw [wp_bind, wp_setStatus]
    exact hpause request h

theorem holdForToolCall_wp {Q : Unit → SchedulerState W → Prop}
    {E : PyError → SchedulerState W → Prop} (s : SchedulerState W) (reqId : RequestId)
    (reading : EdmmSchedulerHook.PauseReading)
    (hhold : ∀ request, pausable? s reqId = some request →
      Q () (self.afterHold s reqId reading request))
    (hignore : pausable? s reqId = none → Q () s) :
    wp (self.holdForToolCall reqId reading) Q E s := by
  unfold holdForToolCall
  rw [wp_bind, wp_get]
  cases h : pausable? s reqId with
  | none => exact hignore h
  | some request =>
    dsimp only
    rw [wp_bind]
    apply pauseInPlace_wp
    · intro request' h'
      rw [h] at h'
      cases h'
      rw [wp_bind, wp_modify, wp_modify]
      exact hhold request h
    · intro h'
      rw [h] at h'
      cases h'

/-! ## 4. One operation -/

/-- How an operation that returns changes the state. -/
inductive OperationEffect (scheduler : Scheduler W) (s : SchedulerState W) :
    SchedulerOp W → Option SchedulerOutput → SchedulerState W → Prop where
  | register {params : RequestParams} {request : Request} (w : W)
      (hinit : Request.init scheduler.externals.blockHasher params = .ok request)
      (habsent : s.requests.get? request.requestId = none) :
      OperationEffect scheduler s (.addRequest params) none
        (scheduler.afterRegister s (sessionStarted request) w)
  | session {params : RequestParams} {request : Request} {existing : Ref}
      {s' : SchedulerState W}
      (hinit : Request.init scheduler.externals.blockHasher params = .ok request)
      (hexisting : s.requests.get? request.requestId = some existing)
      (heffect : scheduler.SessionEffect request existing s s') :
      OperationEffect scheduler s (.addRequest params) none s'
  | schedule {afterRunning afterWaiting : Frame W} {out : SchedulerOutput}
      {s' : SchedulerState W}
      (hscheduled : scheduler.Scheduled s afterRunning afterWaiting out s') :
      OperationEffect scheduler s .schedule (some out) s'
  | updateFromOutput {out : SchedulerOutput} {mro : ModelRunnerOutput}
      {start done s' : SchedulerState W} {acc : OutputLocals}
      (hupdated : scheduler.Updated out mro s start done acc s') :
      OperationEffect scheduler s (.updateFromOutput out mro) none s'
  | finishRequests {requestIds : Option (List RequestId)} {finishedStatus : RequestStatus}
      {s' : SchedulerState W}
      (hfinished : scheduler.FinishedBy requestIds finishedStatus s s') :
      OperationEffect scheduler s (.finishRequests requestIds finishedStatus) none s'
  | updateDraftTokenIds {drafts : List (RequestId × List Token)} (objs : Ref → Request)
      (hobjs : ∀ x, ∃ specTokenIds, objs x = { s.objs x with specTokenIds }) :
      OperationEffect scheduler s (.updateDraftTokenIds drafts) none { s with objs }
  | resetPrefixCache {resetRunningRequests resetConnector : Bool} {s₁ : SchedulerState W}
      (previous : List RequestId) (w : W) (hreset : scheduler.ResetEffects s s₁)
      (hprevious : previous = [] ∨ (previous = s₁.prevStepScheduledReqIds ∧ s₁ = s)) :
      OperationEffect scheduler s (.resetPrefixCache resetRunningRequests resetConnector) none
        { s₁ with prevStepScheduledReqIds := previous, world := w }
  | setPauseState (pauseState : PauseState) :
      OperationEffect scheduler s (.setPauseState pauseState) none { s with pauseState }
  | pauseInPlace {reqId : RequestId} {reading : EdmmSchedulerHook.PauseReading} {request : Ref}
      (hpausable : pausable? s reqId = some request) :
      OperationEffect scheduler s (.pauseInPlace reqId reading) none
        (afterPause s reqId reading request)
  | holdForToolCall {reqId : RequestId} {reading : EdmmSchedulerHook.PauseReading}
      {request : Ref} (hpausable : pausable? s reqId = some request) :
      OperationEffect scheduler s (.holdForToolCall reqId reading) none
        (scheduler.afterHold s reqId reading request)
  | pauseInPlaceIgnored {reqId : RequestId} {reading : EdmmSchedulerHook.PauseReading}
      (hnone : pausable? s reqId = none) :
      OperationEffect scheduler s (.pauseInPlace reqId reading) none s
  | holdForToolCallIgnored {reqId : RequestId} {reading : EdmmSchedulerHook.PauseReading}
      (hnone : pausable? s reqId = none) :
      OperationEffect scheduler s (.holdForToolCall reqId reading) none s
  | submitToolResponse {reqId : RequestId} :
      OperationEffect scheduler s (.submitToolResponse reqId) none
        { s with edmmHook := s.edmmHook.map fun hook => hook.submitToolResponse reqId }
  | recordSpeculativeHandle {reqId : RequestId} {handle : Handle} :
      OperationEffect scheduler s (.recordSpeculativeHandle reqId handle) none
        { s with edmmHook := s.edmmHook.map fun hook =>
            hook.recordSpeculativeHandle reqId handle }
  | environment (f : W → W) :
      OperationEffect scheduler s (.environment f) none { s with world := f s.world }

/-- The state with an empty trace, in which every operation starts. -/
def traceless (s : SchedulerState W) : SchedulerState W := { s with trace := [] }

/-- **One operation.** -/
theorem exec_effect (s : SchedulerState W) (hok : RegistryOk s) (op : SchedulerOp W) :
    wp (op.exec self) (fun out s' => self.OperationEffect (traceless s) op out s')
      (fun _ _ => True) s := by
  have hok : RegistryOk (traceless s) := hok
  unfold SchedulerOp.exec
  rw [wp_bind, wp_modify]
  change wp (op.run self) _ _ (traceless s)
  generalize traceless s = s at hok
  unfold SchedulerOp.run
  cases op with
  | addRequest params =>
    dsimp only
    rw [wp_bind]
    unfold addNewRequest
    cases hinit : Request.init self.externals.blockHasher params with
    | error e => exact trivial
    | ok request =>
      dsimp only
      cases hget : s.requests.get? request.requestId with
      | none =>
        apply wp_mono (self.registerRequest_wp s request hget)
        · rintro _ s' ⟨w, rfl⟩
          exact OperationEffect.register w hinit hget
        · exact fun _ _ _ => trivial
      | some existing =>
        apply wp_mono (self.addExisting_wp s hok request hget)
        · exact fun _ s' heffect => OperationEffect.session hinit hget heffect
        · exact fun _ _ _ => trivial
  | schedule =>
    dsimp only
    rw [wp_bind]
    apply wp_mono (self.schedule_effects s)
    · rintro out s' ⟨afterRunning, afterWaiting, hscheduled⟩
      exact OperationEffect.schedule hscheduled
    · exact fun _ _ _ => trivial
  | updateFromOutput out mro =>
    dsimp only
    rw [wp_bind]
    apply wp_mono (self.updateFromOutput_effects s hok out mro)
    · rintro _ s' ⟨start, done, acc, hupdated⟩
      exact OperationEffect.updateFromOutput hupdated
    · exact fun _ _ _ => trivial
  | finishRequests requestIds finishedStatus =>
    dsimp only
    rw [wp_bind]
    apply wp_mono (self.finishRequests_effects s hok requestIds finishedStatus)
    · exact fun _ s' hfinished => OperationEffect.finishRequests hfinished
    · exact fun _ _ _ => trivial
  | updateDraftTokenIds drafts =>
    dsimp only
    rw [wp_bind]
    apply wp_mono (self.updateDraftTokenIds_wp s drafts)
    · rintro _ s' ⟨objs, hobjs, rfl⟩
      exact OperationEffect.updateDraftTokenIds objs hobjs
    · exact fun _ _ _ => trivial
  | resetPrefixCache resetRunningRequests resetConnector =>
    dsimp only
    rw [wp_bind]
    apply wp_mono (self.resetPrefixCache_wp s resetRunningRequests resetConnector)
    · rintro _ s' ⟨s₁, previous, w, hreset, hprevious, rfl⟩
      exact OperationEffect.resetPrefixCache previous w hreset hprevious
    · exact fun _ _ _ => trivial
  | setPauseState pauseState => exact OperationEffect.setPauseState pauseState
  | pauseInPlace reqId reading =>
    dsimp only
    rw [wp_bind]
    apply pauseInPlace_wp
    · exact fun request h => OperationEffect.pauseInPlace h
    · exact fun h => OperationEffect.pauseInPlaceIgnored h
  | holdForToolCall reqId reading =>
    dsimp only
    rw [wp_bind]
    apply self.holdForToolCall_wp
    · exact fun request h => OperationEffect.holdForToolCall h
    · exact fun h => OperationEffect.holdForToolCallIgnored h
  | submitToolResponse reqId => exact OperationEffect.submitToolResponse
  | recordSpeculativeHandle reqId handle => exact OperationEffect.recordSpeculativeHandle
  | environment f => exact OperationEffect.environment f

end Scheduler

end Edmm
