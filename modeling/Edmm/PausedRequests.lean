/-
  Edmm/PausedRequests.lean
  ========================
  **A request that is paused for a tool call gets no tokens.**

  The pause of the hook's docstring sets the status and leaves the request where it
  is.  In a waiting queue that is enough: the WAITING loop promotes it or skips it.
  The RUNNING loop never looks at the status, so a request that is paused while it
  sits in `running` is scheduled like any other, and `_preempt_request` fails on it
  (`paused_in_running_is_scheduled`).  As long as `schedule()` finds only RUNNING
  requests in `running`, neither happens (`paused_until_promoted`).
-/
import Edmm.KvSurvival

namespace Edmm

open Program

variable {W : Type}

/-! ## 1. The law -/

/-- The output hands tokens to the request: it names an id the request is registered under. -/
def SchedulerOutput.Schedules (out : SchedulerOutput) (s : SchedulerState W) (r : Ref) : Prop :=
  ∃ reqId ∈ out.numScheduledTokens.keys, s.requests.get? reqId = some r

/-- Until `r` is promoted, no `schedule()` call hands tokens to it. -/
def UnscheduledUntilPromoted (r : Ref) (history : List (SchedulerStep W)) : Prop :=
  (∀ step ∈ history, .promoted r ∉ step.after.trace) →
    ∀ step ∈ history, ∀ out ∈ step.output, ¬ out.Schedules step.before r

/-- A `schedule()` call does not try to preempt a request that is not RUNNING. -/
def PreemptsRunningOnly (self : Scheduler W) (s : SchedulerState W) : Prop :=
  ∀ e s', SchedulerOp.exec self .schedule s = .error e s' → e ≠ onlyRunningPreempted

/-- `schedule()` finds only RUNNING requests in `running`, unless it hands out no tokens
    at all.  With a KV connector, it also finds each of them once, and no finished
    request waits. -/
structure OnlyRunningRun (scheduler : Scheduler W) (s : SchedulerState W) : Prop where
  running : s.pauseState ≠ .pausedAll → ∀ x ∈ s.running, (s.objs x).status = .running
  once : scheduler.hasConnector = true → s.running.Nodup
  waiting : NoFinishedWaiting scheduler s

theorem OnlyRunningRun.traceless {self : Scheduler W} {s : SchedulerState W}
    (h : OnlyRunningRun self s) : OnlyRunningRun self (Scheduler.traceless s) :=
  { running := h.running, once := h.once, waiting := h.waiting }

/-- An output that stops `r` ends it: it is no session, or its session is over.  Invalid
    blocks can take back computed tokens before. -/
def StopEnds (self : Scheduler W) (r : Ref) (out : SchedulerOutput) (mro : ModelRunnerOutput)
    (s : SchedulerState W) : Prop :=
  ∀ reqId generated numComputedTokens after, reqId ∈ out.numScheduledTokens.keys →
    s.unfinished? reqId = some r → Scheduler.generatedFor mro reqId = .ok generated →
    (mro.kvConnectorOutput = none → numComputedTokens = (s.objs r).numComputedTokens) →
    self.Delivered (Scheduler.scheduledSpecFor out reqId) generated
      { s.objs r with numComputedTokens } after true →
    after.resumable = false ∨ ∃ rest, after.streamingQueue = some (none :: rest)

/-- The operation pauses the request of an id, in place or in `skipped_waiting`. -/
def SchedulerOp.Pauses (reqId : RequestId) : SchedulerOp W → Prop
  | .pauseInPlace other _ | .holdForToolCall other _ => other = reqId
  | _ => False

instance (reqId : RequestId) : ∀ op : SchedulerOp W, Decidable (op.Pauses reqId)
  | .pauseInPlace other _ | .holdForToolCall other _ => String.decEq other reqId
  | .addRequest _ | .schedule | .updateFromOutput _ _ | .finishRequests _ _
  | .updateDraftTokenIds _ | .resetPrefixCache _ _ | .setPauseState _ | .submitToolResponse _
  | .recordSpeculativeHandle _ _ | .environment _ => instDecidableFalse

/-- The step pauses `r`. -/
def SchedulerStep.Pauses (r : Ref) (step : SchedulerStep W) : Prop :=
  ∃ reqId, step.op.Pauses reqId ∧ Scheduler.pausable? step.before reqId = some r

namespace Scheduler

variable {self : Scheduler W} {r : Ref}

/-! ## 2. Within `schedule()` -/

/-- The request is paused for a tool call, or it ended meanwhile. -/
def Halted (r : Ref) (s : SchedulerState W) : Prop :=
  (s.objs r).status = .waitingForToolCall ∨ (s.objs r).isFinished = true

theorem Halted.of_status {s s' : SchedulerState W} (h : Halted r s)
    (hstatus : (s'.objs r).status = (s.objs r).status) : Halted r s' := by
  unfold Halted Request.isFinished
  rw [hstatus]
  exact h

/-- A paused request is neither RUNNING nor ready to be admitted. -/
theorem Halted.status_ne {s : SchedulerState W} (h : Halted r s) :
    (s.objs r).status ≠ .running ∧ (s.objs r).status ≠ .waiting ∧
      (s.objs r).status ≠ .preempted := by
  rcases h with h | h
  · simp [h]
  · refine ⟨?_, ?_, ?_⟩
    all_goals
      intro hstatus
      rw [Request.isFinished, hstatus] at h
      cases h

/-- The RUNNING loop writes PREEMPTED into RUNNING requests, and no other status. -/
theorem RunningEffect.status_of_ne {p p' : Frame W} (h : self.RunningEffect p p')
    (hr : (p.1.objs r).status ≠ .running) : (p'.1.objs r).status = (p.1.objs r).status := by
  cases h with
  | touch s l w => rfl
  | pass s l reqIndex scheduledLoras => rfl
  | @preempt s l l' victim rest w hvictim hstatus hlocals =>
    have hne : r ≠ victim := by
      rintro rfl
      exact hr hstatus
    exact congrArg Request.status (Function.update_of_ne hne _ _)
  | @schedule s l l' request numNewTokens newBlocks w hrunning hsome hbound hlocals =>
    dsimp only
    rw [SchedulerState.objs_updateRequest]
    split
    · rename_i heq
      rw [heq]
      rfl
    · rfl

theorem RunningEffect.halted {p p' : Frame W} (h : self.RunningEffect p p')
    (hp : Halted r p.1) : Halted r p'.1 :=
  hp.of_status (h.status_of_ne hp.status_ne.1)

/-- Within the RUNNING loop: `r` is paused, not in `running`, and has no tokens. -/
structure NotRun (scheduler : Scheduler W) (r : Ref) (p : Frame W) : Prop where
  frame : scheduler.FrameRegistered p
  halted : Halted r p.1
  notRunning : r ∉ p.1.running
  unfinished : ∀ x ∈ p.1.running, (p.1.objs x).isFinished = false
  unscheduled : ∀ reqId ∈ p.2.numScheduledTokens.keys, p.1.requests.get? reqId ≠ some r

theorem RunningEffect.notRun {p p' : Frame W} (h : self.RunningEffect p p')
    (hp : self.NotRun r p) : self.NotRun r p' where
  frame := h.frameRegistered hp.frame
  halted := h.halted hp.halted
  notRunning := fun hr => hp.notRunning ((h.held r).1 hr)
  unfinished := by
    intro x hx
    rw [h.sameRegistry.2]
    exact hp.unfinished x ((h.held x).1 hx)
  unscheduled := by
    intro reqId hkey
    rw [h.sameRegistry.1.requests]
    rcases h.numScheduledTokens hkey with hkey | ⟨x, hx, rfl⟩
    · exact hp.unscheduled reqId hkey
    · -- `x` is registered under its id, so `r` is not
      rw [hp.frame.registered.registered x (Or.inl hx) (hp.unfinished x hx)]
      intro heq
      cases heq
      exact hp.notRunning hx

/-- The RUNNING loop takes requests out of `running`. -/
theorem RunningEffect.once {p p' : Frame W} (h : self.RunningEffect p p')
    (hp : p.1.running.Nodup) : p'.1.running.Nodup := by
  cases h with
  | touch s l w => exact hp
  | pass s l reqIndex scheduledLoras => exact hp
  | preempt w hvictim hstatus hlocals =>
    have hnodup := hvictim.nodup_iff.mp hp
    exact (List.nodup_cons.mp hnodup).2
  | schedule newBlocks w hrunning hsome hbound hlocals => exact hp

/-- Every request in `running` is RUNNING and is there once. -/
def AllRunning (s : SchedulerState W) : Prop :=
  (∀ x ∈ s.running, (s.objs x).status = .running) ∧ s.running.Nodup

theorem RunningEffect.allRunning {p p' : Frame W} (h : self.RunningEffect p p')
    (hp : AllRunning p.1) : AllRunning p'.1 := by
  refine ⟨?_, h.once hp.2⟩
  cases h with
  | touch s l w => exact hp.1
  | pass s l reqIndex scheduledLoras => exact hp.1
  | @preempt s l l' victim rest w hvictim hstatus hlocals =>
    have hnodup := List.nodup_cons.mp (hvictim.nodup_iff.mp hp.2)
    intro x hx
    have hx : x ∈ rest := hx
    have hne : x ≠ victim := by
      rintro rfl
      exact hnodup.1 hx
    have hbefore := hp.1 x (hvictim.mem_iff.mpr (List.mem_cons_of_mem _ hx))
    rw [← hbefore]
    exact congrArg Request.status (Function.update_of_ne hne _ _)
  | @schedule s l l' request numNewTokens newBlocks w hrunning hsome hbound hlocals =>
    intro x hx
    rw [← hp.1 x hx]
    dsimp only
    rw [SchedulerState.objs_updateRequest]
    split
    · rename_i heq
      rw [heq]
      rfl
    · rfl

/-- The WAITING loop only adds to the trace. -/
theorem WaitingEffect.mem_trace {p p' : Frame W} (h : self.WaitingEffect p p')
    {event : SchedulerEvent} (hevent : event ∈ p.1.trace) : event ∈ p'.1.trace := by
  cases h with
  | touch s l w => exact hevent
  | examine l hhead => exact List.mem_append_left _ hevent
  | lookup l w hcomputed => exact List.mem_append_left _ hevent
  | promote l hhead hpromotion =>
    dsimp only
    rw [hpromotion.trace_eq]
    exact List.mem_append_left _ hevent
  | skip l hhead => simpa using hevent
  | load objs numComputedTokens hhead hconnector hunblocked hcomputed => simpa using hevent
  | @admitWaiting s which request l l' numNewTokens numComputedTokens blocks w hhead hstatus
      hcomputed hsome hbound hlocals =>
    exact (self.trace_popRequest which s).symm ▸ hevent

/-- Within the WAITING loop: `r` is paused and has no tokens. -/
structure NotAdmitted (scheduler : Scheduler W) (r : Ref) (p : Frame W) : Prop where
  frame : scheduler.FrameRegistered p
  halted : Halted r p.1
  unscheduled : ∀ reqId ∈ p.2.numScheduledTokens.keys, p.1.requests.get? reqId ≠ some r

/-- One change of the WAITING loop: a paused request is promoted, or it stays paused. -/
theorem WaitingEffect.notAdmitted {p p' : Frame W} (h : self.WaitingEffect p p')
    (hp : self.NotAdmitted r p) : .promoted r ∈ p'.1.trace ∨ self.NotAdmitted r p' := by
  have hframe := h.frameRegistered hp.frame
  have hsame := h.sameRegistry
  -- no tokens are handed out
  have hkeep : (p'.1.objs r).status = (p.1.objs r).status →
      p'.2.numScheduledTokens = p.2.numScheduledTokens → self.NotAdmitted r p' := by
    intro hstatus hkeys
    exact
      { frame := hframe
        halted := hp.halted.of_status hstatus
        unscheduled := by
          rw [hkeys, hsame.requests]
          exact hp.unscheduled }
  cases h with
  | touch s l w => exact Or.inr (hkeep rfl rfl)
  | examine l hhead => exact Or.inr (hkeep rfl rfl)
  | lookup l w hcomputed => exact Or.inr (hkeep rfl rfl)
  | @promote s s' which request l hhead hpromotion =>
    by_cases hx : r = request
    · left
      rw [hx]
      dsimp only
      rw [hpromotion.trace_eq]
      exact List.mem_append_right _ (List.mem_singleton.mpr rfl)
    · right
      apply hkeep _ rfl
      dsimp only
      rw [hpromotion.objs_of_ne hx]
  | skip l hhead =>
    right
    apply hkeep _ rfl
    dsimp only
    rw [objs_popRequest]
  | @load s which request l objs numComputedTokens hhead hconnector hunblocked hcomputed =>
    right
    have hx : r ≠ request := by
      rintro rfl
      rcases hp.halted with hstatus | hfinished
      · rw [hstatus] at hunblocked
        cases hunblocked
      · have hunfinished := hp.frame.unfinished hconnector r (heldWaiting_of_head hhead)
        rw [hunfinished] at hfinished
        cases hfinished
    apply hkeep _ rfl
    dsimp only
    rw [SchedulerState.objs_updateRequest_of_ne _ _ hx, objs_popRequest]
  | @admitWaiting s which request l l' numNewTokens numComputedTokens blocks w hhead hstatus
      hcomputed hsome hbound hlocals =>
    right
    have hx : r ≠ request := by
      rintro rfl
      rcases hstatus with h | h
      · exact hp.halted.status_ne.2.1 h
      · exact hp.halted.status_ne.2.2 h
    have hunfinished : (s.objs request).isFinished = false := by
      unfold Request.isFinished
      rcases hstatus with h | h
      · rw [h]
        rfl
      · rw [h]
        rfl
    have hregistered := hp.frame.registered.registered request
      (Or.inr (heldWaiting_of_head hhead)) hunfinished
    exact
      { frame := hframe
        halted := by
          apply hp.halted.of_status
          dsimp only
          rw [SchedulerState.objs_updateRequest_of_ne _ _ hx]
          change ((self.popRequest which s).objs r).status = _
          rw [objs_popRequest]
        unscheduled := by
          intro reqId hkey
          rw [hsame.requests]
          obtain ⟨inputs, budget, rfl⟩ := hlocals
          obtain ⟨n, hn⟩ := Dict.mem_keys_iff.mp hkey
          have hn : (l.numScheduledTokens.set (s.objs request).requestId numNewTokens).get?
            reqId = some n := hn
          by_cases hid : reqId = (s.objs request).requestId
          · subst hid
            dsimp only at hregistered ⊢
            rw [hregistered]
            intro heq
            exact hx (Option.some.inj heq).symm
          · rw [Dict.get?_set_of_ne _ _ hid] at hn
            exact hp.unscheduled reqId (Dict.mem_keys_iff.mpr ⟨n, hn⟩) }

theorem WaitingEffects.notAdmitted {p p' : Frame W} (h : self.WaitingEffects p p')
    (hp : self.NotAdmitted r p) : .promoted r ∈ p'.1.trace ∨ self.NotAdmitted r p' := by
  apply invariant_of_chain
    (I := fun p => .promoted r ∈ p.1.trace ∨ self.NotAdmitted r p) _ h (Or.inr hp)
  intro p p' heffect hbefore
  rcases hbefore with hpromoted | hp
  · exact Or.inl (heffect.mem_trace hpromoted)
  · exact heffect.notAdmitted hp

/-- **`schedule()`.**  A paused request that is not promoted stays paused and gets no
    tokens. -/
theorem Scheduled.halted {s s' : SchedulerState W} {afterRunning afterWaiting : Frame W}
    {out : SchedulerOutput} (h : self.Scheduled s afterRunning afterWaiting out s')
    (hs : RegistryNames s (Queued s)) (hready : OnlyRunningRun self s) (hr : Halted r s)
    (hunpromoted : .promoted r ∉ s'.trace) : Halted r s' ∧ ¬ out.Schedules s r := by
  have hstart : self.FrameRegistered (s, self.startLocals s) :=
    frameRegistered_start hs hready.waiting
  by_cases hpaused : s.pauseState = .pausedAll
  · -- no tokens for anybody, and the WAITING loop is not entered
    have hrunning : Halted r afterRunning.1 :=
      invariant_of_chain (I := fun p : Frame W => Halted r p.1)
        (fun _ _ heffect hp => heffect.halted hp) h.running hr
    have hstayed : afterWaiting = afterRunning := by
      apply h.stayed
      right
      rw [hpaused]
      decide
    constructor
    · rw [← hstayed] at hrunning
      exact hrunning.of_status (h.final.status r)
    · rintro ⟨reqId, hkey, -⟩
      rw [h.output.numScheduledTokens, h.pausedAll hpaused] at hkey
      cases hkey
  · have hnotRun : self.NotRun r (s, self.startLocals s) :=
      { frame := hstart
        halted := hr
        notRunning := fun hmem => hr.status_ne.1 (hready.running hpaused r hmem)
        unfinished := by
          intro x hx
          rw [Request.isFinished, hready.running hpaused x hx]
          rfl
        unscheduled := by
          intro reqId hkey
          cases hkey }
    have hafter : self.NotRun r afterRunning :=
      invariant_of_chain (fun _ _ heffect hp => heffect.notRun hp) h.running hnotRun
    rcases WaitingEffects.notAdmitted h.waiting
      { frame := hafter.frame
        halted := hafter.halted
        unscheduled := hafter.unscheduled } with hpromoted | hnot
    · rw [← h.final.trace] at hpromoted
      exact absurd hpromoted hunpromoted
    · refine ⟨hnot.halted.of_status (h.final.status r), ?_⟩
      rintro ⟨reqId, hkey, hget⟩
      rw [h.output.numScheduledTokens] at hkey
      apply hnot.unscheduled reqId hkey
      rw [← hget, ← h.final.requests, h.sameRegistry.requests]

/-! ## 3. The other operations -/

/-- Between two operations: `r` exists, and it is paused or it ended. -/
structure HaltedRequest (r : Ref) (s : SchedulerState W) : Prop where
  known : r < s.nextRef
  halted : Halted r s

theorem HaltedRequest.of_status {s s' : SchedulerState W} (h : HaltedRequest r s)
    (hnextRef : s'.nextRef = s.nextRef) (hstatus : (s'.objs r).status = (s.objs r).status) :
    HaltedRequest r s' :=
  { known := hnextRef ▸ h.known, halted := h.halted.of_status hstatus }

/-- A write to another request, or one that leaves the request paused or ended. -/
theorem HaltedRequest.of_update {s s₁ : SchedulerState W} (h : HaltedRequest r s)
    (hnextRef : s₁.nextRef = s.nextRef) (hobjs : s₁.objs = s.objs) {x : Ref}
    {f : Request → Request}
    (hself : x = r → (f (s.objs r)).status = .waitingForToolCall ∨
      (f (s.objs r)).isFinished = true) :
    HaltedRequest r (s₁.updateRequest x f) where
  known := hnextRef ▸ h.known
  halted := by
    unfold Halted
    by_cases hx : r = x
    · subst hx
      rw [SchedulerState.objs_updateRequest_self, hobjs]
      exact hself rfl
    · rw [SchedulerState.objs_updateRequest_of_ne _ _ hx, hobjs]
      exact h.halted

theorem FinishEffect.haltedRequest {finishedStatus : RequestStatus} {valid : List Ref}
    {s s' : SchedulerState W} (h : self.FinishEffect finishedStatus valid s s')
    (hr : HaltedRequest r s) : HaltedRequest r s' := by
  cases h with
  | @finish request delayed w finishedRecving failedRecving hvalid hregistered hunfinished
      hfinished hdelayed =>
    have hwritten : HaltedRequest r (SchedulerState.updateRequest
        { s with
          finishedRecvingKvReqIds := finishedRecving
          failedRecvingKvReqIds := failedRecving }
        request fun r => { r with status := finishedStatus }) := by
      apply hr.of_update
      · rfl
      · rfl
      · exact fun _ => Or.inr hfinished
    exact { known := hwritten.known, halted := hwritten.halted }

theorem FinishedBy.haltedRequest {requestIds : Option (List RequestId)}
    {finishedStatus : RequestStatus} {s s' : SchedulerState W}
    (h : self.FinishedBy requestIds finishedStatus s s') (hr : HaltedRequest r s) :
    HaltedRequest r s' :=
  invariant_of_chain (fun _ _ heffect hbefore => heffect.haltedRequest hbefore) h.effects
    { known := hr.known, halted := hr.halted }

/-- The output of a KV connector registers nothing, and writes computed tokens only. -/
structure OnlyRecomputed (s s' : SchedulerState W) : Prop where
  requests : ∀ reqId x, s'.requests.get? reqId = some x → s.requests.get? reqId = some x
  nextRef : s'.nextRef = s.nextRef
  objs : ∀ x, ∃ numComputedTokens, s'.objs x = { s.objs x with numComputedTokens }

theorem ConnectorEffect.onlyRecomputed {s s' : SchedulerState W} (h : ConnectorEffect s s') :
    OnlyRecomputed s s' := by
  cases h with
  | touch w => exact ⟨fun _ _ hx => hx, rfl, fun x => ⟨_, rfl⟩⟩
  | loads finishedRecving failedRecving => exact ⟨fun _ _ hx => hx, rfl, fun x => ⟨_, rfl⟩⟩
  | @recompute request numComputedTokens haffected =>
    refine ⟨fun _ _ hx => hx, rfl, ?_⟩
    intro x
    rw [SchedulerState.objs_updateRequest]
    split
    · rename_i hx
      rw [hx]
      exact ⟨numComputedTokens, rfl⟩
    · exact ⟨_, rfl⟩
  | @drop request w hregistered hfinished =>
    refine ⟨?_, rfl, fun x => ⟨_, rfl⟩⟩
    intro reqId x hx
    rw [Dict.get?_erase] at hx
    split at hx
    · cases hx
    · exact hx

theorem ConnectorEffects.onlyRecomputed {s s' : SchedulerState W} (h : ConnectorEffects s s') :
    OnlyRecomputed s s' := by
  apply invariant_of_chain (I := fun s' => OnlyRecomputed s s') _ h
  · exact ⟨fun _ _ hx => hx, rfl, fun x => ⟨_, rfl⟩⟩
  · intro s₁ s₂ heffect hbefore
    have hafter := heffect.onlyRecomputed
    refine ⟨fun reqId x hx => hbefore.requests reqId x (hafter.requests reqId x hx),
      hafter.nextRef.trans hbefore.nextRef, ?_⟩
    intro x
    obtain ⟨n, hn⟩ := hbefore.objs x
    obtain ⟨m, hm⟩ := hafter.objs x
    exact ⟨m, by rw [hm, hn]⟩

theorem ConnectorEffects.haltedRequest {s s' : SchedulerState W} (h : ConnectorEffects s s')
    (hr : HaltedRequest r s) : HaltedRequest r s' := by
  have hsame := ConnectorEffects.onlyRecomputed h
  apply hr.of_status hsame.nextRef
  obtain ⟨n, hn⟩ := hsame.objs r
  rw [hn]

/-- An output that does not stop the request leaves its status. -/
theorem Delivered.status {specTokenIds : List Token} {generated : List Token × Bool}
    {before after : Request} (h : self.Delivered specTokenIds generated before after false) :
    after.status = before.status := by
  generalize hstopped : false = stopped at h
  cases h with
  | applied =>
    exact (self.applyOutput_extends specTokenIds generated.1 generated.2 before).running hstopped.symm
  | rejected => cases hstopped

/-- A stopped request that is no session, or whose session is over, does not go idle. -/
theorem hasStreamingUpdate_of_ends {r' : Request}
    (h : r'.resumable = false ∨ ∃ rest, r'.streamingQueue = some (none :: rest))
    (hresumable : r'.resumable = true) : r'.hasStreamingUpdate = true := by
  rcases h with hnot | ⟨rest, hqueue⟩
  · rw [hnot] at hresumable
    cases hresumable
  · simp [Request.hasStreamingUpdate, hqueue]

/-- Nor does it continue. -/
theorem not_continues_of_ends {r' next : Request}
    (h : r'.resumable = false ∨ ∃ rest, r'.streamingQueue = some (none :: rest)) :
    ¬ self.Continues r' next := by
  rintro ⟨hresumable, update, rest, hqueue, -, -⟩
  rcases h with hnot | ⟨rest', hqueue'⟩
  · rw [hnot] at hresumable
    cases hresumable
  · rw [hqueue] at hqueue'
    cases hqueue'

/-- **Step lemma.**  The output of one request; `start` is the state before the loop. -/
theorem OutputEffect.haltedRequest {out : SchedulerOutput} {mro : ModelRunnerOutput}
    {start : SchedulerState W} {reqId : RequestId} {p p' : SchedulerState W × OutputLocals}
    (h : self.OutputEffect out mro start reqId p p')
    (hstops : ∀ generated after, reqId ∈ out.numScheduledTokens.keys →
      start.unfinished? reqId = some r → generatedFor mro reqId = .ok generated →
      self.Delivered (scheduledSpecFor out reqId) generated (start.objs r) after true →
      after.resumable = false ∨ ∃ rest, after.streamingQueue = some (none :: rest))
    (hr : HaltedRequest r p.1) : HaltedRequest r p'.1 := by
  -- what the condition says of an output that stops `r`
  have hends : ∀ {s : SchedulerState W} {request : Ref} {after : Request},
      self.Answered out mro start s reqId request after true → request = r →
      after.resumable = false ∨ ∃ rest, after.streamingQueue = some (none :: rest) := by
    rintro s request after hanswered rfl
    obtain ⟨generated, hgenerated, hdelivered⟩ := hanswered.delivered
    rw [hanswered.untouched] at hdelivered
    exact hstops generated after hanswered.scheduled hanswered.unfinished hgenerated hdelivered
  cases h with
  | touch s acc w => exact { known := hr.known, halted := hr.halted }
  | report s acc request outputs hscheduled hunfinished =>
    apply hr.of_update
    · rfl
    · rfl
    · rintro rfl
      exact hr.halted
  | @deliver s acc request after w hanswered =>
    dsimp only at hr ⊢
    apply hr.of_update
    · rfl
    · rfl
    · rintro rfl
      obtain ⟨generated, hgenerated, hdelivered⟩ := hanswered.delivered
      have hstatus := hdelivered.status
      unfold Request.isFinished
      rw [hstatus]
      exact hr.halted
  | @finish s acc request after ended delayed w w' hanswered hended hdelayed =>
    have hfinished : HaltedRequest r
        (SchedulerState.updateRequest { s with world := w } request fun _ => ended) := by
      apply hr.of_update
      · rfl
      · rfl
      · intro _
        obtain ⟨generated, hgenerated, hdelivered⟩ := hanswered.delivered
        have hafter := hdelivered.finished rfl
        rcases hended with ⟨-, rfl⟩ | ⟨rest, -, rfl⟩
        · exact Or.inr hafter
        · exact Or.inr hafter
    exact { known := hfinished.known, halted := hfinished.halted }
  | @idle s acc request after w hanswered hresumable hempty =>
    dsimp only at hr ⊢
    apply hr.of_update
    · rfl
    · rfl
    · intro hx
      rw [hasStreamingUpdate_of_ends (hends hanswered hx) hresumable] at hempty
      cases hempty
  | @proceed s acc request after next w hanswered hcontinues =>
    dsimp only at hr ⊢
    apply hr.of_update
    · rfl
    · rfl
    · intro hx
      exact absurd hcontinues (not_continues_of_ends (hends hanswered hx))

/-- **`update_from_output`.** -/
theorem Updated.haltedRequest {out : SchedulerOutput} {mro : ModelRunnerOutput}
    {s start done s' : SchedulerState W} {acc : OutputLocals}
    (h : self.Updated out mro s start done acc s') (hstops : StopEnds self r out mro s)
    (hr : HaltedRequest r s) : HaltedRequest r s' := by
  have hsame := ConnectorEffects.onlyRecomputed h.invalid
  obtain ⟨n, hn⟩ := hsame.objs r
  have hdone : HaltedRequest r done := by
    apply invariant_of_chain (I := fun p : SchedulerState W × OutputLocals =>
      HaltedRequest r p.1) _ h.outputs (ConnectorEffects.haltedRequest h.invalid hr)
    rintro p p' ⟨reqId, heffect⟩ hp
    apply heffect.haltedRequest _ hp
    intro generated after hkey hunfinished hgenerated hdelivered
    rw [hn] at hdelivered
    apply hstops reqId generated n after hkey _ hgenerated _ hdelivered
    · obtain ⟨hget, hfinished⟩ := start.unfinished?_eq_some.mp hunfinished
      rw [hn] at hfinished
      exact s.unfinished?_eq_some.mpr ⟨hsame.requests reqId r hget, hfinished⟩
    · intro hnone
      have hstart := (h.withoutConnector hnone).1
      rw [hstart] at hn
      exact (congrArg Request.numComputedTokens hn).symm
  obtain ⟨failed, hfailed, hloads⟩ := h.loaded
  apply ConnectorEffects.haltedRequest hloads
  rcases hfailed with rfl | ⟨ids, -, hfinished⟩
  · exact { known := hdone.known, halted := hdone.halted }
  · exact hfinished.haltedRequest { known := hdone.known, halted := hdone.halted }

/-- **`add_request`** of an id that is registered already. -/
theorem SessionEffect.haltedRequest {request : Request} {existing : Ref}
    {s s' : SchedulerState W} (h : self.SessionEffect request existing s s')
    (hr : HaltedRequest r s) : HaltedRequest r s' := by
  cases h with
  | append hstatus =>
    apply hr.of_update
    · rfl
    · rfl
    · exact fun _ => hr.halted
  | @proceed update hstatus hprompt =>
    apply hr.of_update
    · rfl
    · rfl
    · -- a paused request is not the idle one that continues
      rintro rfl
      rcases hr.halted with hpaused | hfinished
      · rw [hpaused] at hstatus
        cases hstatus
      · rw [Request.isFinished, hstatus] at hfinished
        cases hfinished
  | endSession hstatus hfinished => exact hfinished.haltedRequest hr

/-- **Step lemma.**  One operation: the request stays paused unless it is promoted, and
    it gets no tokens. -/
theorem OperationEffect.haltedRequest {s s' : SchedulerState W} {op : SchedulerOp W}
    {out : Option SchedulerOutput} (h : self.OperationEffect s op out s')
    (hs : RegistryNames s (Queued s)) (hready : op = .schedule → OnlyRunningRun self s)
    (hstops : ∀ out mro, op = .updateFromOutput out mro → StopEnds self r out mro s)
    (hunpromoted : .promoted r ∉ s'.trace) (hr : HaltedRequest r s) :
    HaltedRequest r s' ∧ ∀ output ∈ out, ¬ output.Schedules s r := by
  cases h with
  | @register params request w hinit habsent =>
    refine ⟨?_, fun _ h => by cases h⟩
    have hne : r ≠ s.nextRef := Nat.ne_of_lt hr.known
    exact
      { known := Nat.lt_succ_of_lt hr.known
        halted := hr.halted.of_status (congrArg Request.status (Function.update_of_ne hne _ _)) }
  | session hinit hexisting heffect => exact ⟨heffect.haltedRequest hr, fun _ h => by cases h⟩
  | @schedule afterRunning afterWaiting out s' hscheduled =>
    obtain ⟨hhalted, hunscheduled⟩ :=
      hscheduled.halted hs (hready rfl) hr.halted hunpromoted
    refine ⟨{ known := ?_, halted := hhalted }, ?_⟩
    · rw [hscheduled.sameRegistry.nextRef]
      exact hr.known
    · intro output houtput
      cases houtput
      exact hunscheduled
  | @updateFromOutput out mro start done s' acc hupdated =>
    exact ⟨hupdated.haltedRequest (hstops out mro rfl) hr, fun _ h => by cases h⟩
  | finishRequests hfinished => exact ⟨hfinished.haltedRequest hr, fun _ h => by cases h⟩
  | updateDraftTokenIds objs hobjs =>
    refine ⟨hr.of_status rfl ?_, fun _ h => by cases h⟩
    obtain ⟨specTokenIds, hspec⟩ := hobjs r
    change (objs r).status = _
    rw [hspec]
  | @resetPrefixCache _ _ s₁ previous w hreset hprevious =>
    have hafter : HaltedRequest r s₁ := by
      apply invariant_of_chain (I := fun s => HaltedRequest r s) _ hreset hr
      intro s₂ s₃ heffect hbefore
      cases heffect with
      | @preempt victim rest w hvictim hstatus =>
        have hne : victim ≠ r := by
          rintro rfl
          exact hbefore.halted.status_ne.1 hstatus
        have hpreempted : HaltedRequest r
            (self.afterPreempt { s₂ with running := rest } victim w) := by
          apply hbefore.of_update
          · rfl
          · rfl
          · exact fun hx => absurd hx hne
        apply hpreempted.of_update
        · rfl
        · rfl
        · exact fun hx => absurd hx hne
    exact ⟨{ known := hafter.known, halted := hafter.halted }, fun _ h => by cases h⟩
  | @pauseInPlace reqId reading request hpausable =>
    refine ⟨?_, fun _ h => by cases h⟩
    apply hr.of_update
    · rfl
    · rfl
    · exact fun _ => Or.inl rfl
  | @holdForToolCall reqId reading request hpausable =>
    refine ⟨?_, fun _ h => by cases h⟩
    have hpaused : HaltedRequest r (afterPause s reqId reading request) := by
      apply hr.of_update
      · rfl
      · rfl
      · exact fun _ => Or.inl rfl
    exact { known := hpaused.known, halted := hpaused.halted }
  | setPauseState | pauseInPlaceIgnored | holdForToolCallIgnored | submitToolResponse
  | recordSpeculativeHandle | environment =>
    exact ⟨{ known := hr.known, halted := hr.halted }, fun _ h => by cases h⟩

/-! ## 4. `running` holds each request once -/

/-- Without a KV connector, only requests that are ready to run are admitted, and those
    in `running` are not. -/
theorem WaitingEffect.allRunning {p p' : Frame W} (h : self.WaitingEffect p p')
    (hconnector : self.hasConnector = false) (hp : AllRunning p.1) : AllRunning p'.1 := by
  cases h with
  | touch s l w => exact hp
  | examine l hhead => exact hp
  | lookup l w hcomputed => exact hp
  | @promote s s' which request l hhead hpromotion =>
    have hrunning : s'.running = s.running := by
      cases hpromotion <;> rfl
    unfold AllRunning
    dsimp only
    rw [hrunning]
    refine ⟨?_, hp.2⟩
    intro x hx
    have hne : x ≠ request := by
      rintro rfl
      have hblocked := hpromotion.blocked
      rw [hp.1 x hx] at hblocked
      cases hblocked
    rw [hpromotion.objs_of_ne hne]
    exact hp.1 x hx
  | skip l hhead => simpa [AllRunning] using hp
  | load objs numComputedTokens hhead hloads hunblocked hcomputed =>
    rw [hconnector] at hloads
    cases hloads
  | @admitWaiting s which request l l' numNewTokens numComputedTokens blocks w hhead hstatus
      hcomputed hsome hbound hlocals =>
    have hne : request ∉ s.running := by
      intro hmem
      rw [hp.1 request hmem] at hstatus
      rcases hstatus with h | h <;> cases h
    have hrunning : ((self.popRequest which s).startRunning request w).running =
        s.running ++ [request] := by
      simp [SchedulerState.startRunning]
    unfold AllRunning
    dsimp only
    rw [SchedulerState.running_updateRequest, hrunning]
    refine ⟨?_, List.nodup_append.mpr ⟨hp.2, List.nodup_singleton _, ?_⟩⟩
    · intro x hx
      rw [SchedulerState.objs_updateRequest]
      split
      · rfl
      · rename_i hx'
        change ((self.popRequest which s).objs x).status = _
        rw [objs_popRequest]
        rw [List.mem_append, List.mem_singleton] at hx
        exact hp.1 x (hx.resolve_right hx')
    · rintro x hx y hy rfl
      rw [List.mem_singleton] at hy
      exact hne (hy ▸ hx)

theorem ConnectorEffect.running {s s' : SchedulerState W} (h : ConnectorEffect s s') :
    s'.running = s.running := by
  cases h <;> rfl

theorem ConnectorEffects.running {s s' : SchedulerState W} (h : ConnectorEffects s s') :
    s'.running = s.running :=
  invariant_of_chain (I := fun s' => s'.running = s.running)
    (fun _ _ heffect hbefore => heffect.running.trans hbefore) h rfl

theorem FinishedBy.running_sublist {requestIds : Option (List RequestId)}
    {finishedStatus : RequestStatus} {s s' : SchedulerState W}
    (h : self.FinishedBy requestIds finishedStatus s s') : s'.running.Sublist s.running := by
  apply invariant_of_chain (I := fun s' => s'.running.Sublist s.running) _ h.effects
    List.filter_sublist
  intro s₁ s₂ heffect hbefore
  cases heffect
  exact hbefore

theorem Updated.running_sublist {out : SchedulerOutput} {mro : ModelRunnerOutput}
    {s start done s' : SchedulerState W} {acc : OutputLocals}
    (h : self.Updated out mro s start done acc s') : s'.running.Sublist s.running := by
  have hstart : start.running = s.running := ConnectorEffects.running h.invalid
  have hdone : done.running = start.running :=
    invariant_of_chain (I := fun p : SchedulerState W × OutputLocals =>
      p.1.running = start.running)
      (fun _ _ ⟨_, heffect⟩ hbefore => heffect.unchanged.1.trans hbefore) h.outputs rfl
  have hremoved : (self.removeStopped acc done).running.Sublist s.running := by
    rw [← hstart, ← hdone]
    exact List.filter_sublist
  obtain ⟨failed, hfailed, hloads⟩ := h.loaded
  rw [ConnectorEffects.running hloads]
  rcases hfailed with rfl | ⟨ids, -, hfinished⟩
  · exact hremoved
  · exact hfinished.running_sublist.trans hremoved

/-- Only `schedule()` adds to `running`. -/
theorem OperationEffect.running_sublist {s s' : SchedulerState W} {op : SchedulerOp W}
    {out : Option SchedulerOutput} (h : self.OperationEffect s op out s') (hop : op ≠ .schedule) :
    s'.running.Sublist s.running := by
  cases h with
  | session hinit hexisting heffect =>
    cases heffect with
    | append hstatus => exact List.Sublist.refl _
    | proceed hstatus hprompt => exact List.Sublist.refl _
    | endSession hstatus hfinished => exact hfinished.running_sublist
  | schedule hscheduled => exact absurd rfl hop
  | updateFromOutput hupdated => exact hupdated.running_sublist
  | finishRequests hfinished => exact hfinished.running_sublist
  | @resetPrefixCache _ _ s₁ previous w hreset hprevious =>
    apply invariant_of_chain (I := fun s₁ => s₁.running.Sublist s.running) _ hreset
      (List.Sublist.refl _)
    intro s₂ s₃ heffect hbefore
    cases heffect with
    | @preempt victim rest w hvictim hstatus =>
      rw [hvictim] at hbefore
      exact (List.sublist_append_left rest [victim]).trans hbefore
  | holdForToolCall hpausable => exact List.filter_sublist
  | register | updateDraftTokenIds | setPauseState | pauseInPlace | pauseInPlaceIgnored
  | holdForToolCallIgnored | submitToolResponse | recordSpeculativeHandle | environment =>
    exact List.Sublist.refl _

/-- **Step lemma.**  Without a KV connector, `running` holds each request once. -/
theorem OperationEffect.once {s s' : SchedulerState W} {op : SchedulerOp W}
    {out : Option SchedulerOutput} (h : self.OperationEffect s op out s')
    (hconnector : self.hasConnector = false)
    (hready : op = .schedule → OnlyRunningRun self s) (hs : s.running.Nodup) :
    s'.running.Nodup := by
  by_cases hop : op = .schedule
  · cases h with
    | @schedule afterRunning afterWaiting out s' hscheduled =>
      rw [hscheduled.final.running]
      by_cases hpaused : s.pauseState = .pausedAll
      · have hstayed : afterWaiting = afterRunning := by
          apply hscheduled.stayed
          right
          rw [hpaused]
          decide
        rw [hstayed]
        exact invariant_of_chain (I := fun p : Frame W => p.1.running.Nodup)
          (fun _ _ heffect hp => heffect.once hp) hscheduled.running hs
      · have hstart : AllRunning s := ⟨(hready rfl).running hpaused, hs⟩
        have hrunning : AllRunning afterRunning.1 :=
          invariant_of_chain (I := fun p : Frame W => AllRunning p.1)
            (fun _ _ heffect hp => heffect.allRunning hp) hscheduled.running hstart
        have hwaiting : AllRunning afterWaiting.1 :=
          invariant_of_chain (I := fun p : Frame W => AllRunning p.1)
            (fun _ _ heffect hp => heffect.allRunning hconnector hp) hscheduled.waiting hrunning
        exact hwaiting.2
    | _ => cases hop
  · exact hs.sublist (h.running_sublist hop)

/-! ## 5. Runs -/

/-- The invariant of a run whose `schedule()` calls find only RUNNING requests. -/
structure Orderly (scheduler : Scheduler W) (s : SchedulerState W) : Prop where
  registered : RegistryNames s (Queued s)
  once : scheduler.hasConnector = false → s.running.Nodup

theorem Orderly.traceless {s : SchedulerState W} (h : self.Orderly s) :
    self.Orderly (traceless s) where
  registered := h.registered.traceless
  once := h.once

theorem orderly_of_exec {s s' : SchedulerState W} {op : SchedulerOp W}
    {out : Option SchedulerOutput} (hs : self.Orderly s)
    (hexec : SchedulerOp.exec self op s = .ok out s')
    (hready : op = .schedule → OnlyRunningRun self s) : self.Orderly s' := by
  have heffect := effect_of_exec hs.registered.registry hexec
  exact
    { registered := heffect.registered hs.traceless.registered fun hop => (hready hop).waiting
      once := fun hconnector =>
        heffect.once hconnector (fun hop => (hready hop).traceless) (hs.once hconnector) }

/-- **Run lemma.** -/
theorem orderly_of_run {start s : SchedulerState W} {history : List (SchedulerStep W)}
    (run : SchedulerRun self start history s) (hstart : self.Orderly start)
    (hready : ∀ step ∈ history, step.op = .schedule → OnlyRunningRun self step.before) :
    self.Orderly s :=
  run.invariant (P := fun step => step.op = .schedule → OnlyRunningRun self step.before)
    (fun _ _ _ _ hbefore hexec hstep => orderly_of_exec hbefore hexec hstep) hready hstart

/-- **Run lemma.**  While the request is not promoted, it stays paused and gets no
    tokens. -/
theorem haltedRequest_of_run {start s : SchedulerState W} {history : List (SchedulerStep W)}
    (run : SchedulerRun self start history s) (hstart : self.Orderly start)
    (hr : HaltedRequest r start)
    (hready : ∀ step ∈ history, step.op = .schedule → OnlyRunningRun self step.before)
    (hstops : ∀ step ∈ history, ∀ out mro, step.op = .updateFromOutput out mro →
      StopEnds self r out mro step.before)
    (hunpromoted : ∀ step ∈ history, .promoted r ∉ step.after.trace) :
    HaltedRequest r s ∧ ∀ step ∈ history, ∀ out ∈ step.output, ¬ out.Schedules step.before r := by
  induction run with
  | nil => exact ⟨hr, fun _ h => by cases h⟩
  | @snoc history s s' op output run hexec ih =>
    have hbefore : ∀ step ∈ history, step ∈ history ++ [⟨s, op, output, s'⟩] :=
      fun step h => List.mem_append_left _ h
    have hlast : (⟨s, op, output, s'⟩ : SchedulerStep W) ∈ history ++ [⟨s, op, output, s'⟩] :=
      List.mem_append_right _ (List.mem_singleton.mpr rfl)
    obtain ⟨hhalted, hsteps⟩ := ih (fun step h => hready step (hbefore step h))
      (fun step h => hstops step (hbefore step h))
      (fun step h => hunpromoted step (hbefore step h))
    have horderly := orderly_of_run run hstart fun step h => hready step (hbefore step h)
    have heffect := effect_of_exec horderly.registered.registry hexec
    obtain ⟨hafter, hunscheduled⟩ := heffect.haltedRequest horderly.traceless.registered
      (fun hop => (hready _ hlast hop).traceless) (fun out mro hop => hstops _ hlast out mro hop)
      (hunpromoted _ hlast) (r := r) { known := hhalted.known, halted := hhalted.halted }
    refine ⟨hafter, ?_⟩
    intro step hmem
    rw [List.mem_append, List.mem_singleton] at hmem
    rcases hmem with hmem | rfl
    · exact hsteps step hmem
    · exact hunscheduled

/-- The pause itself. -/
theorem haltedRequest_of_pause {s s' : SchedulerState W} {op : SchedulerOp W}
    {out : Option SchedulerOutput} {reqId : RequestId} (hok : RegistryOk s)
    (hop : op.Pauses reqId) (hpausable : pausable? s reqId = some r)
    (hexec : SchedulerOp.exec self op s = .ok out s') : HaltedRequest r s' := by
  have hknown : r < s.nextRef := hok.known (pausable?_eq_some hpausable).1
  have hpaused : ∀ {s₁ : SchedulerState W} {f : Request → Request}, s₁.nextRef = s.nextRef →
      (f (s₁.objs r)).status = .waitingForToolCall → HaltedRequest r (s₁.updateRequest r f) := by
    intro s₁ f hnextRef hstatus
    refine { known := hnextRef ▸ hknown, halted := Or.inl ?_ }
    rw [SchedulerState.objs_updateRequest_self]
    exact hstatus
  have heffect := effect_of_exec hok hexec
  cases heffect with
  | @pauseInPlace other reading request hpause =>
    cases hop
    have hsame : request = r := Option.some.inj (hpause.symm.trans hpausable)
    subst hsame
    exact hpaused rfl rfl
  | @holdForToolCall other reading request hpause =>
    cases hop
    have hsame : request = r := Option.some.inj (hpause.symm.trans hpausable)
    subst hsame
    have hwritten : HaltedRequest request (afterPause (traceless s) reqId reading request) :=
      hpaused rfl rfl
    exact { known := hwritten.known, halted := hwritten.halted }
  | pauseInPlaceIgnored hnone =>
    cases hop
    cases hnone.symm.trans hpausable
  | holdForToolCallIgnored hnone =>
    cases hop
    cases hnone.symm.trans hpausable
  | _ => cases hop

/-- `running` holds only RUNNING requests throughout the RUNNING loop, so only these are
    preempted. -/
theorem Orderly.preemptsRunningOnly {s : SchedulerState W} (hs : self.Orderly s)
    (hready : OnlyRunningRun self s) : PreemptsRunningOnly self s := by
  rintro e s' hexec rfl
  obtain ⟨hpaused, p, hrunning, request, hmem, hstatus⟩ :=
    (scheduleError_of_exec hexec).preempting rfl
  have honce : s.running.Nodup := by
    cases hconnector : self.hasConnector with
    | false => exact hs.once hconnector
    | true => exact hready.once hconnector
  have hstart : AllRunning (Scheduler.traceless s) := ⟨hready.running hpaused, honce⟩
  have hafter : AllRunning p.1 :=
    invariant_of_chain (I := fun p : Frame W => AllRunning p.1)
      (fun _ _ heffect hp => heffect.allRunning hp) hrunning hstart
  exact hstatus (hafter.1 request hmem)

/-- **A paused request gets no tokens** until it is promoted, and no `schedule()` call
    tries to preempt it, in every run whose `schedule()` calls find only RUNNING requests
    in `running`. -/
theorem paused_until_promoted {objs : Ref → Request} {edmmHook : Option EdmmSchedulerHook} {w : W}
    {history : List (SchedulerStep W)} {s : SchedulerState W}
    (run : SchedulerRun self (SchedulerState.init objs edmmHook w) history s)
    (hready : ∀ step ∈ history, step.op = .schedule → OnlyRunningRun self step.before) :
    (∀ earlier pause later r, history = earlier ++ pause :: later →
      SchedulerStep.Pauses r pause →
      (∀ step ∈ later, ∀ out mro, step.op = .updateFromOutput out mro →
        StopEnds self r out mro step.before) →
      UnscheduledUntilPromoted r later) ∧
    (OnlyRunningRun self s → PreemptsRunningOnly self s) := by
  have hinit : self.Orderly (SchedulerState.init objs edmmHook w) :=
    { registered := registered_init objs edmmHook w
      once := fun _ => List.nodup_nil }
  refine ⟨?_, fun hlast => (orderly_of_run run hinit hready).preemptsRunningOnly hlast⟩
  rintro earlier pause later r rfl ⟨reqId, hop, hpausable⟩ hstops hunpromoted
  obtain ⟨hearlier, hexec, hlater⟩ := run.split rfl
  have hbefore := orderly_of_run hearlier hinit fun step h =>
    hready step (List.mem_append_left _ h)
  have hafter : self.Orderly pause.after := orderly_of_exec hbefore hexec
    (hready pause (List.mem_append_right _ List.mem_cons_self))
  have hpaused : HaltedRequest r pause.after :=
    haltedRequest_of_pause hbefore.registered.registry hop hpausable hexec
  exact (haltedRequest_of_run hlater hafter hpaused
    (fun step h => hready step (List.mem_append_right _ (List.mem_cons_of_mem _ h))) hstops
    hunpromoted).2

/-- An output does not continue a request that is no session. -/
theorem stopEnds_of_not_resumable {out : SchedulerOutput} {mro : ModelRunnerOutput}
    {s : SchedulerState W} (h : (s.objs r).resumable = false) : StopEnds self r out mro s := by
  intro reqId generated numComputedTokens after _ _ _ _ hdelivered
  left
  cases hresumable : after.resumable with
  | false => rfl
  | true =>
    have hbefore : (s.objs r).resumable = true := hdelivered.resumable hresumable
    rw [h] at hbefore
    cases hbefore

/-- A request is preempted, its late output calls a tool, and another request is
    scheduled meanwhile. -/
theorem paused_until_promoted_waiting : ∃ history s earlier pause later,
    SchedulerRun roomy start history s ∧ history = earlier ++ pause :: later ∧
      SchedulerStep.Pauses 0 pause ∧ later.length = 4 ∧ UnscheduledUntilPromoted 0 later ∧
      PreemptsRunningOnly roomy s := by
  have hplayed : ∃ p ∈ roomy.play start
      [.op (.addRequest (.text "a" [1, 2, 3] 8 false)), .op .schedule,
        .op (.resetPrefixCache true false), .deliver 0 [("a", [4])],
        .op (.pauseInPlace "a" ⟨0, none, 0⟩), .op (.addRequest (.text "b" [5, 6] 8 false)),
        .op .schedule, .deliver 1 [("b", [7])], .op .schedule],
      (∃ pause ∈ p.1[4]?, pause.op.Pauses "a" ∧ pausable? pause.before "a" = some 0) ∧
        (p.1.drop 5).length = 4 ∧
        (∀ step ∈ p.1, ∀ x ∈ step.before.running, (step.before.objs x).status = .running) ∧
        (∀ step ∈ p.1, (step.before.objs 0).resumable = false) ∧
        ∀ x ∈ p.2.running, (p.2.objs x).status = .running := by
    decide +kernel
  obtain ⟨⟨history, s⟩, hhistory, ⟨pause, hpause, hpauses⟩, hlength, hrunning, hresumable,
    hlast⟩ := hplayed
  have run := run_of_play (Option.mem_def.mp hhistory)
  have hsplit : history = history.take 4 ++ pause :: history.drop 5 := by
    obtain ⟨hlt, rfl⟩ := List.getElem?_eq_some_iff.mp (Option.mem_def.mp hpause)
    rw [← List.drop_eq_getElem_cons, List.take_append_drop]
  -- without a KV connector only `running` matters
  have hready : ∀ s : SchedulerState Unit, (∀ x ∈ s.running, (s.objs x).status = .running) →
      OnlyRunningRun roomy s := by
    intro s h
    exact
      { running := fun _ => h
        once := fun hconnector => by cases hconnector
        waiting := fun hconnector => by cases hconnector }
  obtain ⟨hpaused, hpreempts⟩ := paused_until_promoted run fun step h _ =>
    hready _ (hrunning step h)
  refine ⟨history, s, _, pause, _, run, hsplit, ⟨"a", hpauses⟩, hlength, ?_,
    hpreempts (hready s hlast)⟩
  apply hpaused _ pause _ 0 hsplit ⟨"a", hpauses⟩
  intro step hstep out mro _
  exact stopEnds_of_not_resumable (hresumable step (List.mem_of_mem_drop hstep))

/-- A KV cache with room for prompts only. -/
def cramped : Scheduler Unit :=
  { roomy with externals := { Externals.roomy with
      allocateSlots := fun w r _ => (if r.outputTokenIds = [] then some ⟨[]⟩ else none, w) } }

/-- **A request that is paused while it runs stays in `running`.**  The next `schedule()`
    call hands tokens to it; and where it is picked to be preempted, the call fails. -/
theorem paused_in_running_is_scheduled :
    (¬ ∀ (history : List (SchedulerStep Unit)) (s : SchedulerState Unit),
      SchedulerRun roomy start history s →
      ∀ earlier pause later r reqId reading, history = earlier ++ pause :: later →
        pause.op = .pauseInPlace reqId reading → pausable? pause.before reqId = some r →
        (pause.before.objs r).status = .running → UnscheduledUntilPromoted r later) ∧
    ¬ ∀ (history : List (SchedulerStep Unit)) (s : SchedulerState Unit),
      SchedulerRun cramped start history s → PreemptsRunningOnly cramped s := by
  constructor
  · intro hclaim
    let pause : SchedulerOp Unit := .pauseInPlace "a" ⟨0, none, 0⟩
    have hplayed : ∃ p ∈ roomy.play start
        [.op (.addRequest (.text "a" [1, 2, 3] 8 false)), .op .schedule,
          .deliver 0 [("a", [4])]],
        pausable? p.2 "a" = some 0 ∧ (p.2.objs 0).status = .running ∧
          (returned (SchedulerOp.exec roomy pause p.2)).isSome = true ∧
          (finalState (SchedulerOp.exec roomy pause p.2)).requests.get? "a" = some 0 ∧
          ∃ out ∈ returned (SchedulerOp.exec roomy .schedule
              (finalState (SchedulerOp.exec roomy pause p.2))),
            (out.map fun out => out.numScheduledTokens.keys) = some ["a"] ∧
            .promoted 0 ∉ (finalState (SchedulerOp.exec roomy .schedule
              (finalState (SchedulerOp.exec roomy pause p.2)))).trace := by
      decide +kernel
    obtain ⟨⟨earlier, before⟩, hearlier, hpausable, hstatus, hreturns, hregistered, out, hout,
      hkeys, hunpromoted⟩ := hplayed
    obtain ⟨output, houtput⟩ := Option.isSome_iff_exists.mp hreturns
    obtain ⟨paused, hpause⟩ := returned_eq_some.mp houtput
    rw [hpause] at hregistered hout hunpromoted
    obtain ⟨scheduled, hschedule⟩ := returned_eq_some.mp (Option.mem_def.mp hout)
    dsimp only [finalState] at hregistered hschedule hunpromoted
    rw [hschedule] at hunpromoted
    obtain ⟨out, rfl, hnames⟩ := Option.map_eq_some_iff.mp hkeys
    have run := run_of_play (Option.mem_def.mp hearlier)
    have hlaw := hclaim _ scheduled ((run.snoc hpause).snoc hschedule) earlier
      ⟨before, pause, output, paused⟩ [⟨paused, .schedule, some out, scheduled⟩] 0 "a" _
      (List.append_assoc ..) rfl hpausable hstatus
    refine hlaw ?_ _ (List.mem_singleton.mpr rfl) out rfl ⟨"a", ?_, hregistered⟩
    · intro step hstep
      rw [List.mem_singleton] at hstep
      subst hstep
      exact hunpromoted
    · rw [hnames]
      exact List.mem_singleton.mpr rfl
  · intro hclaim
    have hplayed : ∃ p ∈ cramped.play start
        [.op (.addRequest (.text "a" [1, 2, 3] 8 false)),
          .op (.addRequest (.text "b" [5, 6] 8 false)), .op .schedule,
          .deliver 0 [("a", [4]), ("b", [7])], .op (.pauseInPlace "b" ⟨0, none, 0⟩)],
        raised (SchedulerOp.exec cramped .schedule p.2) = some onlyRunningPreempted := by
      decide +kernel
    obtain ⟨⟨history, s⟩, hhistory, hraised⟩ := hplayed
    obtain ⟨s', hexec⟩ := raised_eq_some.mp hraised
    exact hclaim history s (run_of_play (Option.mem_def.mp hhistory)) _ s' hexec rfl

end Scheduler

end Edmm
