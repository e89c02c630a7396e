/-
  Edmm/QueueConservation.lean
  ===========================
  **No request is lost, duplicated or left queued after finishing.**

  Without a KV connector every registered request is in exactly one of `running`,
  `waiting` and `skipped_waiting`, between any two operations.  The one exception
  is a late stop: an output that stops a request which is not RUNNING any more.
  `update_from_output` then purges `waiting` only, after the request may have been
  put back into a queue.  So a request stopped in `skipped_waiting` stays there, and
  a session that continues from `waiting` is lost.  `LateStopsHandled` excludes
  exactly these steps.
-/
import Edmm.Queues

namespace Edmm

open Program

variable {W : Type}

/-! ## 1. The law -/

/-- Every unfinished request is in exactly one queue, once, and no finished request is
    in a queue. -/
structure QueuesConserved (s : SchedulerState W) : Prop where
  once : ∀ reqId x, s.unfinished? reqId = some x →
    (s.running ++ s.waiting ++ s.skippedWaiting).count x = 1
  unfinished : ∀ x ∈ s.running ++ s.waiting ++ s.skippedWaiting, (s.objs x).isFinished = false

/-- The stopped session has a next input to continue with. -/
def HasNextInput (r : Request) : Prop :=
  r.resumable = true ∧ ∃ update rest, r.streamingQueue = some (some update :: rest)

/-- Every output that stops a request which is not RUNNING any more finds it where
    `update_from_output` can handle it: in `waiting` if the request ends or goes
    idle, in `skipped_waiting` if it continues. -/
def LateStopsHandled (self : Scheduler W) (out : SchedulerOutput) (mro : ModelRunnerOutput)
    (s : SchedulerState W) : Prop :=
  ∀ reqId x generated r, reqId ∈ out.numScheduledTokens.keys → s.unfinished? reqId = some x →
    (s.objs x).status ≠ .running → Scheduler.generatedFor mro reqId = .ok generated →
    self.Delivered (Scheduler.scheduledSpecFor out reqId) generated (s.objs x) r true →
    (x ∈ s.waiting ∧ ¬ HasNextInput r) ∨ (x ∈ s.skippedWaiting ∧ HasNextInput r)

/-- An operation of an engine without a KV connector; a pause also holds the request
    in `skipped_waiting`. -/
def SchedulerOp.WithoutConnector : SchedulerOp W → Prop
  | .updateFromOutput _ mro => mro.kvConnectorOutput = none
  | .pauseInPlace _ _ => False
  | _ => True

instance : ∀ op : SchedulerOp W, Decidable op.WithoutConnector
  | .updateFromOutput _ mro => Option.decidableEqNone mro.kvConnectorOutput
  | .pauseInPlace _ _ => instDecidableFalse
  | .addRequest _ | .schedule | .finishRequests _ _ | .updateDraftTokenIds _ | .resetPrefixCache _ _
  | .setPauseState _ | .holdForToolCall _ _ | .submitToolResponse _ | .recordSpeculativeHandle _ _
  | .environment _ => instDecidableTrue

/-- The late stops of the step are handled. -/
def SchedulerStep.StopsHandled (self : Scheduler W) (step : SchedulerStep W) : Prop :=
  ∀ out mro, step.op = .updateFromOutput out mro → LateStopsHandled self out mro step.before

/-! ## 2. The invariant -/

namespace Scheduler

variable {self : Scheduler W}

/-- Without a connector, `waiting` holds no blocked request and nobody waits for remote KVs. -/
def localRule (hconnector : self.hasConnector = false) : QueueRule self where
  waiting status := status = .waiting ∨ status = .preempted
  skipped status :=
    (status ≠ .running ∧ status.isFinished = false) ∧ status ≠ .waitingForRemoteKvs
  skipped_of_waiting := by
    rintro status (rfl | rfl)
    · decide
    · decide
  unfinished := fun _ h => h.1
  waiting_waiting := Or.inl rfl
  waiting_preempted := Or.inr rfl
  skipped_remoteKvs := by
    intro h
    rw [hconnector] at h
    cases h

/-- The queues are in order, and they hold the registered requests. -/
structure Conserves {scheduler : Scheduler W} (hconnector : scheduler.hasConnector = false)
    (s : SchedulerState W) : Prop where
  registry : RegistryOk s
  inOrder : QueuesInOrder (localRule hconnector) s []
  registered : ∀ x, x ∈ heldQueues s [] ↔ s.requests.get? (s.objs x).requestId = some x

variable {hconnector : self.hasConnector = false}

theorem Conserves.queuesConserved {s : SchedulerState W} (hs : Conserves hconnector s) :
    QueuesConserved s := by
  have hqueues : heldQueues s [] = s.running ++ s.waiting ++ s.skippedWaiting := by
    unfold heldQueues waitingQueues
    rw [List.append_nil, List.append_assoc]
  constructor
  · intro reqId x hx
    obtain ⟨hget, _⟩ := s.unfinished?_eq_some.mp hx
    have hregistered : s.requests.get? (s.objs x).requestId = some x := by
      rw [hs.registry.carries hget]
      exact hget
    rw [← hqueues]
    exact List.count_eq_one_of_mem hs.inOrder.nodup ((hs.registered x).mpr hregistered)
  · intro x hx
    rw [← hqueues] at hx
    exact hs.inOrder.unfinished hx

/-- A registered request is unfinished. -/
theorem Conserves.unfinished {s : SchedulerState W} (hs : Conserves hconnector s) {x : Ref}
    (hx : s.requests.get? (s.objs x).requestId = some x) : (s.objs x).isFinished = false :=
  hs.inOrder.unfinished ((hs.registered x).mpr hx)

theorem conserves_init (objs : Ref → Request) (edmmHook : Option EdmmSchedulerHook) (w : W) :
    Conserves hconnector (SchedulerState.init objs edmmHook w) where
  registry := (registered_init objs edmmHook w).registry
  inOrder :=
    { nodup := List.nodup_nil
      running := nofun
      waiting := nofun
      skipped := by
        rintro x (hx | hx)
        · cases hx
        · cases hx }
  registered := by
    intro x
    constructor
    · intro hx
      cases hx
    · intro hx
      cases hx

/-- One request moved; it obeys the rule where it is now. -/
theorem inOrder_of_moved {rule : QueueRule self} {s s' : SchedulerState W} {x : Ref}
    (hs : QueuesInOrder rule s []) (hnodup : (heldQueues s' []).Nodup)
    (hobjs : ∀ y, y ≠ x → (s'.objs y).status = (s.objs y).status)
    (hrunning : ∀ y ∈ s'.running, y ∈ s.running ∧ y ≠ x)
    (hwaiting : ∀ y ∈ s'.waiting, (y ∈ s.waiting ∧ y ≠ x) ∨
      (y = x ∧ rule.waiting (s'.objs x).status))
    (hskipped : ∀ y ∈ s'.skippedWaiting, (y ∈ s.skippedWaiting ∧ y ≠ x) ∨
      (y = x ∧ rule.skipped (s'.objs x).status)) : QueuesInOrder rule s' [] where
  nodup := hnodup
  running := by
    intro y hy
    obtain ⟨hmem, hne⟩ := hrunning y hy
    rw [hobjs y hne]
    exact hs.running y hmem
  waiting := by
    intro y hy
    rcases hwaiting y hy with ⟨hmem, hne⟩ | ⟨rfl, hrule⟩
    · rw [hobjs y hne]
      exact hs.waiting y hmem
    · exact hrule
  skipped := by
    rintro y (hy | hy)
    · rcases hskipped y hy with ⟨hmem, hne⟩ | ⟨rfl, hrule⟩
      · rw [hobjs y hne]
        exact hs.skipped y (Or.inl hmem)
      · exact hrule
    · cases hy

/-- The heap changed, but no status and no id. -/
theorem Conserves.of_statuses {s s' : SchedulerState W} (hs : Conserves hconnector s)
    (hsame : SameRegistry s s') (hrunning : s'.running = s.running)
    (hwaiting : s'.waiting = s.waiting) (hskipped : s'.skippedWaiting = s.skippedWaiting)
    (hstatus : ∀ x, (s'.objs x).status = (s.objs x).status) : Conserves hconnector s' := by
  have hqueues : heldQueues s' [] = heldQueues s [] := by
    unfold heldQueues waitingQueues
    rw [hrunning, hwaiting, hskipped]
  constructor
  · exact hsame.registryOk hs.registry
  · apply hs.inOrder.of_same
    · rw [hqueues]
      exact hs.inOrder.nodup
    · exact fun x hx => hrunning ▸ hx
    · exact fun x hx => hwaiting ▸ hx
    · intro x hx
      rw [hskipped] at hx
      exact mem_waitingQueues.mpr (Or.inr hx)
    · exact fun x _ => hstatus x
  · intro x
    rw [hqueues, hsame.requests, hsame.requestId]
    exact hs.registered x

/-! ## 3. Outputs -/

/-- The request that stops leaves the list that `update_from_output` will purge. -/
theorem perm_filter_insert {queue stopped : List Ref} {x : Ref}
    (hnodup : (queue.filter fun y => y ∉ stopped).Nodup) (hx : x ∈ queue) (hnot : x ∉ stopped) :
    (queue.filter fun y => y ∉ stopped).Perm
      (x :: queue.filter fun y => y ∉ stopped.insert x) := by
  have hmem : x ∈ queue.filter fun y => y ∉ stopped :=
    List.mem_filter.mpr ⟨hx, decide_eq_true hnot⟩
  have herase : (queue.filter fun y => y ∉ stopped.insert x) =
      (queue.filter fun y => y ∉ stopped).erase x := by
    rw [hnodup.erase_eq_filter, List.filter_filter]
    apply List.filter_congr
    intro y _
    simp only [List.mem_insert_iff, not_or, Bool.decide_and, bne]
    by_cases heq : y = x <;> simp [heq]
  rw [herase]
  exact List.perm_cons_erase hmem

/-- The state with the stopped requests purged, up to the order of `waiting`. -/
def purged (acc : OutputLocals) (s : SchedulerState W) : SchedulerState W :=
  { s with
    running := s.running.filter fun y => y ∉ acc.stoppedRunningReqs
    waiting := s.waiting.filter fun y => y ∉ acc.stoppedPreemptedReqs }

theorem mem_running_purged {acc : OutputLocals} {s : SchedulerState W} {x : Ref} :
    x ∈ (purged acc s).running ↔ x ∈ s.running ∧ x ∉ acc.stoppedRunningReqs := by
  simp only [purged, List.mem_filter, decide_eq_true_eq]

theorem mem_waiting_purged {acc : OutputLocals} {s : SchedulerState W} {x : Ref} :
    x ∈ (purged acc s).waiting ↔ x ∈ s.waiting ∧ x ∉ acc.stoppedPreemptedReqs := by
  simp only [purged, List.mem_filter, decide_eq_true_eq]

/-- `update_from_output` purges `waiting` only if a request stopped late. -/
theorem waiting_removeStopped (s : SchedulerState W) (acc : OutputLocals) :
    (self.removeStopped acc s).waiting.Perm (purged acc s).waiting := by
  simp only [removeStopped, purged]
  split
  · rename_i hnone
    rw [hnone]
    simp
  · exact self.requestQueue.removeRequests_perm s.objs s.waiting acc.stoppedPreemptedReqs

theorem mem_addStopped {acc : OutputLocals} {x y : Ref} {status : RequestStatus} :
    (y ∈ (acc.addStopped x status).stoppedRunningReqs ∨
        y ∈ (acc.addStopped x status).stoppedPreemptedReqs) ↔
      y = x ∨ y ∈ acc.stoppedRunningReqs ∨ y ∈ acc.stoppedPreemptedReqs := by
  unfold OutputLocals.addStopped
  split
  · rw [List.mem_insert_iff, or_assoc]
  · rw [List.mem_insert_iff, or_left_comm]

/-- The loop of `update_from_output`: the queues are in order once the stopped requests
    are purged, and a stopped request shows that it was stopped. -/
structure OutputsInOrder {scheduler : Scheduler W} (hconnector : scheduler.hasConnector = false)
    (start : SchedulerState W) (p : SchedulerState W × OutputLocals) : Prop where
  inOrder : QueuesInOrder (localRule hconnector) (purged p.2 p.1) []
  registered : ∀ x, x ∈ heldQueues (purged p.2 p.1) [] ↔
    p.1.requests.get? (p.1.objs x).requestId = some x
  stopped : ∀ x, x ∈ p.2.stoppedRunningReqs ∨ x ∈ p.2.stoppedPreemptedReqs →
    (p.1.objs x).status ≠ (start.objs x).status ∨
      (p.1.objs x).streamingQueue ≠ (start.objs x).streamingQueue
  unmoved : ∀ x, ¬ (x ∈ p.2.stoppedRunningReqs ∨ x ∈ p.2.stoppedPreemptedReqs) →
    (x ∈ p.1.waiting ↔ x ∈ start.waiting) ∧ (x ∈ p.1.skippedWaiting ↔ x ∈ start.skippedWaiting)

namespace OutputsInOrder

variable {start s s' : SchedulerState W} {acc : OutputLocals}

theorem start_of_conserves (hs : Conserves hconnector start) :
    OutputsInOrder hconnector start (start, OutputLocals.init) := by
  have hpurged : purged OutputLocals.init start = start := by
    unfold purged OutputLocals.init
    simp
  constructor
  · rw [hpurged]
    exact hs.inOrder
  · rw [hpurged]
    exact hs.registered
  · rintro x (hx | hx)
    · cases hx
    · cases hx
  · exact fun x _ => ⟨Iff.rfl, Iff.rfl⟩

/-- The heap changed, but neither what the queues depend on nor the sessions. -/
theorem of_same (hp : OutputsInOrder hconnector start (s, acc)) {acc' : OutputLocals}
    (hstoppedRunning : acc'.stoppedRunningReqs = acc.stoppedRunningReqs)
    (hstoppedPreempted : acc'.stoppedPreemptedReqs = acc.stoppedPreemptedReqs)
    (hrequests : s'.requests = s.requests) (hrunning : s'.running = s.running)
    (hwaiting : s'.waiting = s.waiting) (hskipped : s'.skippedWaiting = s.skippedWaiting)
    (hobjs : ∀ x, (s'.objs x).status = (s.objs x).status ∧
      (s'.objs x).streamingQueue = (s.objs x).streamingQueue ∧
      (s'.objs x).requestId = (s.objs x).requestId) :
    OutputsInOrder hconnector start (s', acc') := by
  have hqueues : heldQueues (purged acc' s') [] = heldQueues (purged acc s) [] := by
    unfold heldQueues waitingQueues purged
    rw [hstoppedRunning, hstoppedPreempted, hrunning, hwaiting, hskipped]
  constructor
  · apply hp.inOrder.of_same
    · rw [hqueues]
      exact hp.inOrder.nodup
    · intro x hx
      rw [mem_running_purged, hrunning, hstoppedRunning] at hx
      exact mem_running_purged.mpr hx
    · intro x hx
      rw [mem_waiting_purged, hwaiting, hstoppedPreempted] at hx
      exact mem_waiting_purged.mpr hx
    · intro x hx
      rw [show (purged acc' s').skippedWaiting = s.skippedWaiting from hskipped] at hx
      exact mem_waitingQueues.mpr (Or.inr hx)
    · exact fun x _ => (hobjs x).1
  · intro x
    rw [hqueues]
    dsimp only
    rw [hrequests, (hobjs x).2.2]
    exact hp.registered x
  · intro x hx
    dsimp only at hx ⊢
    rw [hstoppedRunning, hstoppedPreempted] at hx
    rw [(hobjs x).1, (hobjs x).2.1]
    exact hp.stopped x hx
  · intro x hx
    dsimp only at hx ⊢
    rw [hstoppedRunning, hstoppedPreempted] at hx
    rw [hwaiting, hskipped]
    exact hp.unmoved x hx

/-- A request that is as it was at the start has not stopped. -/
theorem not_stopped (hp : OutputsInOrder hconnector start (s, acc)) {x : Ref}
    (huntouched : s.objs x = start.objs x) :
    ¬ (x ∈ acc.stoppedRunningReqs ∨ x ∈ acc.stoppedPreemptedReqs) := by
  intro hx
  rcases hp.stopped x hx with hne | hne
  · exact hne (congrArg Request.status huntouched)
  · exact hne (congrArg Request.streamingQueue huntouched)

/-- A stopped request is purged from the queue that `update_from_output` looks at. -/
theorem purges (hp : OutputsInOrder hconnector start (s, acc)) {x : Ref}
    (huntouched : s.objs x = start.objs x)
    (hplace : ((s.objs x).status = .running ∧ x ∈ s.running) ∨
      ((s.objs x).status ≠ .running ∧ x ∈ s.waiting)) :
    (heldQueues (purged acc s) []).Perm
      (x :: heldQueues (purged (acc.addStopped x (s.objs x).status) s) []) := by
  have hnot := hp.not_stopped huntouched
  have hnodup := List.nodup_append.mp hp.inOrder.nodup
  rcases hplace with ⟨hstatus, hmem⟩ | ⟨hstatus, hmem⟩
  · have hrunning := perm_filter_insert hnodup.1 hmem fun h => hnot (Or.inl h)
    rw [OutputLocals.addStopped, if_pos hstatus]
    exact hrunning.append_right _
  · have hwaiting := perm_filter_insert (List.nodup_append.mp hnodup.2.1).1 hmem
      fun h => hnot (Or.inr h)
    rw [OutputLocals.addStopped, if_neg hstatus]
    have hqueues := (hwaiting.append_right (s.skippedWaiting ++ [])).append_left
      (purged acc s).running
    exact hqueues.trans List.perm_middle

/-- Only more is purged. -/
theorem mem_of_addStopped {x y : Ref} {status : RequestStatus} :
    (y ∈ (purged (acc.addStopped x status) s).running → y ∈ (purged acc s).running) ∧
      (y ∈ (purged (acc.addStopped x status) s).waiting → y ∈ (purged acc s).waiting) := by
  constructor
  · intro hy
    rw [mem_running_purged] at hy ⊢
    refine ⟨hy.1, fun h => hy.2 ?_⟩
    unfold OutputLocals.addStopped
    split
    · exact List.mem_insert_of_mem h
    · exact h
  · intro hy
    rw [mem_waiting_purged] at hy ⊢
    refine ⟨hy.1, fun h => hy.2 ?_⟩
    unfold OutputLocals.addStopped
    split
    · exact h
    · exact List.mem_insert_of_mem h

/-- One request stopped: what is left to check is where it is now. -/
theorem of_stop (hp : OutputsInOrder hconnector start (s, acc)) {x : Ref}
    (hrunning : s'.running = s.running) (hobjs : ∀ y, y ≠ x → s'.objs y = s.objs y)
    (hnodup : (heldQueues (purged (acc.addStopped x (s.objs x).status) s') []).Nodup)
    (hregistered : ∀ y, y ∈ heldQueues (purged (acc.addStopped x (s.objs x).status) s') [] ↔
      s'.requests.get? (s'.objs y).requestId = some y)
    (hwaiting : ∀ y ∈ (purged (acc.addStopped x (s.objs x).status) s').waiting,
      (y ∈ (purged acc s).waiting ∧ y ≠ x) ∨
        (y = x ∧ (localRule hconnector).waiting (s'.objs x).status))
    (hskipped : ∀ y ∈ s'.skippedWaiting, (y ∈ s.skippedWaiting ∧ y ≠ x) ∨
      (y = x ∧ (localRule hconnector).skipped (s'.objs x).status))
    (hstopped : (s'.objs x).status ≠ (start.objs x).status ∨
      (s'.objs x).streamingQueue ≠ (start.objs x).streamingQueue)
    (hunmoved : ∀ y, y ≠ x → (y ∈ s'.waiting ↔ y ∈ s.waiting) ∧
      (y ∈ s'.skippedWaiting ↔ y ∈ s.skippedWaiting)) :
    OutputsInOrder hconnector start (s', acc.addStopped x (s.objs x).status) := by
  constructor
  · apply inOrder_of_moved (x := x) hp.inOrder hnodup
    · exact fun y hy => congrArg Request.status (hobjs y hy)
    · intro y hy
      have hmem : y ∈ (purged acc s).running := by
        apply mem_of_addStopped.1
        rw [mem_running_purged, hrunning] at hy
        exact mem_running_purged.mpr hy
      refine ⟨hmem, ?_⟩
      -- a RUNNING request is purged, and the others are not in `running`
      rintro rfl
      have hstatus : (s.objs y).status = .running := hp.inOrder.running y hmem
      rw [mem_running_purged, OutputLocals.addStopped, if_pos hstatus] at hy
      exact hy.2 List.mem_insert_self
    · exact hwaiting
    · exact hskipped
  · exact hregistered
  · intro y hy
    rcases mem_addStopped.mp hy with rfl | hy
    · exact hstopped
    · by_cases heq : y = x
      · rw [heq]
        exact hstopped
      · rw [hobjs y heq]
        exact hp.stopped y hy
  · intro y hy
    rw [mem_addStopped, not_or] at hy
    obtain ⟨hwaiting, hskipped⟩ := hunmoved y hy.1
    obtain ⟨hwaiting', hskipped'⟩ := hp.unmoved y hy.2
    exact ⟨hwaiting.trans hwaiting', hskipped.trans hskipped'⟩

/-- One request stopped and was put into another queue. -/
theorem of_moved (hp : OutputsInOrder hconnector start (s, acc)) {x : Ref}
    (hperm : (heldQueues (purged (acc.addStopped x (s.objs x).status) s') []).Perm
      (heldQueues (purged acc s) []))
    (hrequests : s'.requests = s.requests) (hrunning : s'.running = s.running)
    (hobjs : ∀ y, y ≠ x → s'.objs y = s.objs y)
    (hid : (s'.objs x).requestId = (s.objs x).requestId)
    (hwaiting : ∀ y ∈ (purged (acc.addStopped x (s.objs x).status) s').waiting,
      (y ∈ (purged acc s).waiting ∧ y ≠ x) ∨
        (y = x ∧ (localRule hconnector).waiting (s'.objs x).status))
    (hskipped : ∀ y ∈ s'.skippedWaiting, (y ∈ s.skippedWaiting ∧ y ≠ x) ∨
      (y = x ∧ (localRule hconnector).skipped (s'.objs x).status))
    (hstopped : (s'.objs x).status ≠ (start.objs x).status ∨
      (s'.objs x).streamingQueue ≠ (start.objs x).streamingQueue)
    (hunmoved : ∀ y, y ≠ x → (y ∈ s'.waiting ↔ y ∈ s.waiting) ∧
      (y ∈ s'.skippedWaiting ↔ y ∈ s.skippedWaiting)) :
    OutputsInOrder hconnector start (s', acc.addStopped x (s.objs x).status) := by
  apply hp.of_stop hrunning hobjs
  · exact hperm.nodup_iff.mpr hp.inOrder.nodup
  · intro y
    rw [hperm.mem_iff, hp.registered y]
    dsimp only
    rw [hrequests]
    by_cases heq : y = x
    · rw [heq, hid]
    · rw [hobjs y heq]
  · exact hwaiting
  · exact hskipped
  · exact hstopped
  · exact hunmoved

end OutputsInOrder

theorem Delivered.same {specTokenIds : List Token} {generated : List Token × Bool}
    {before after : Request} {stopped : Bool}
    (h : self.Delivered specTokenIds generated before after stopped) :
    after.streamingQueue = before.streamingQueue ∧
      (stopped = false → after.status = before.status) := by
  constructor
  · obtain ⟨kept, hashes, computed, placeholders, status, reason, resumable, rfl⟩ := h.form
    rfl
  · cases h with
    | applied =>
      exact (self.applyOutput_extends specTokenIds generated.1 generated.2 before).running
    | rejected => exact fun h => by cases h

theorem continueSession_streamingQueue (update : StreamingUpdate) (r : Request) :
    (self.continueSession update r).streamingQueue = r.streamingQueue := by
  obtain ⟨hashes, h⟩ := self.extendPrompt_eq update (dropUncomputed r)
  unfold continueSession
  rw [h]
  rfl

/-- Where the stopped request was. -/
theorem OutputsInOrder.place {out : SchedulerOutput} {mro : ModelRunnerOutput}
    {start s : SchedulerState W} {acc : OutputLocals} {reqId : RequestId} {x : Ref} {r : Request}
    (hp : OutputsInOrder hconnector start (s, acc)) (hstops : LateStopsHandled self out mro start)
    (hanswered : self.Answered out mro start s reqId x r true) :
    ((s.objs x).status = .running ∧ x ∈ s.running) ∨
      ((s.objs x).status ≠ .running ∧ x ∈ s.waiting ∧ ¬ HasNextInput r) ∨
      ((s.objs x).status ≠ .running ∧ x ∈ s.skippedWaiting ∧ x ∉ s.waiting ∧ HasNextInput r) := by
  have huntouched := hanswered.untouched
  have hnot := hp.not_stopped huntouched
  have hmem : x ∈ heldQueues (purged acc s) [] :=
    (hp.registered x).mpr hanswered.self_registered
  by_cases hstatus : (s.objs x).status = .running
  · exact Or.inl ⟨hstatus, (mem_running_purged.mp (hp.inOrder.mem_running hmem hstatus)).1⟩
  · obtain ⟨generated, hgenerated, hdelivered⟩ := hanswered.delivered
    rw [huntouched] at hdelivered
    obtain ⟨hwaiting, hskipped⟩ := hp.unmoved x hnot
    rcases hstops reqId x generated r hanswered.scheduled hanswered.unfinished
      (huntouched ▸ hstatus) hgenerated hdelivered with ⟨hplace, hnext⟩ | ⟨hplace, hnext⟩
    · exact Or.inr (Or.inl ⟨hstatus, hwaiting.mpr hplace, hnext⟩)
    · refine Or.inr (Or.inr ⟨hstatus, hskipped.mpr hplace, ?_, hnext⟩)
      intro hxwaiting
      have hleft : x ∈ (purged acc s).waiting :=
        mem_waiting_purged.mpr ⟨hxwaiting, fun h => hnot (Or.inr h)⟩
      have hnodup := (List.nodup_append.mp hp.inOrder.nodup).2.1
      exact (List.nodup_append.mp hnodup).2.2 x hleft x
        (List.mem_append_left _ (hskipped.mpr hplace)) rfl

/-- Erasing a registered request unregisters this request only. -/
theorem erase_eq_some_iff {requests : Dict RequestId Ref} (idOf : Ref → RequestId) {x y : Ref}
    (hx : requests.get? (idOf x) = some x) :
    (requests.erase (idOf x)).get? (idOf y) = some y ↔
      requests.get? (idOf y) = some y ∧ y ≠ x := by
  rw [Dict.get?_erase]
  split
  · rename_i heq
    constructor
    · intro h
      cases h
    · rintro ⟨hy, hne⟩
      rw [heq, hx] at hy
      exact absurd (Option.some.inj hy).symm hne
  · rename_i hne
    constructor
    · intro hy
      refine ⟨hy, ?_⟩
      rintro rfl
      exact hne rfl
    · exact fun h => h.1

section
variable {out : SchedulerOutput} {mro : ModelRunnerOutput} {start s : SchedulerState W}
  {acc : OutputLocals} {reqId : RequestId} {request : Ref} {r r' : Request}
  (hp : OutputsInOrder hconnector start (s, acc))

include hp

/-- A request is written to that stays where it is. -/
theorem OutputsInOrder.update {acc' : OutputLocals} (w : W)
    (hstoppedRunning : acc'.stoppedRunningReqs = acc.stoppedRunningReqs)
    (hstoppedPreempted : acc'.stoppedPreemptedReqs = acc.stoppedPreemptedReqs)
    (hstatus : r.status = (s.objs request).status)
    (hqueue : r.streamingQueue = (s.objs request).streamingQueue)
    (hid : r.requestId = (s.objs request).requestId) :
    OutputsInOrder hconnector start
      (SchedulerState.updateRequest { s with world := w } request fun _ => r, acc') := by
  refine hp.of_same hstoppedRunning hstoppedPreempted rfl rfl rfl rfl ?_
  intro x
  rw [SchedulerState.objs_updateRequest]
  split
  · rename_i heq
    rw [heq]
    exact ⟨hstatus, hqueue, hid⟩
  · exact ⟨rfl, rfl, rfl⟩

/-- The purge takes the stopped request out of the queues. -/
theorem OutputsInOrder.purged_left (huntouched : s.objs request = start.objs request)
    (hplace : ((s.objs request).status = .running ∧ request ∈ s.running) ∨
      ((s.objs request).status ≠ .running ∧ request ∈ s.waiting)) :
    (heldQueues (purged (acc.addStopped request (s.objs request).status) s) []).Nodup ∧
      ∀ y ∈ heldQueues (purged (acc.addStopped request (s.objs request).status) s) [],
        y ≠ request := by
  have hperm := hp.purges huntouched hplace
  obtain ⟨hnotin, hnodup⟩ := List.nodup_cons.mp (hperm.nodup_iff.mp hp.inOrder.nodup)
  refine ⟨hnodup, ?_⟩
  rintro y hy rfl
  exact hnotin hy

/-- A stopped request that is freed. -/
theorem OutputsInOrder.finish (w w' : W)
    (hanswered : self.Answered out mro start s reqId request r true) (hends : Ends r r')
    (hplace : ((s.objs request).status = .running ∧ request ∈ s.running) ∨
      ((s.objs request).status ≠ .running ∧ request ∈ s.waiting)) :
    OutputsInOrder hconnector start
      (afterFree (SchedulerState.updateRequest { s with world := w } request fun _ => r') request w'
        false, acc.addStopped request (s.objs request).status) := by
  have hperm := hp.purges hanswered.untouched hplace
  obtain ⟨hnodup, hleft⟩ := hp.purged_left hanswered.untouched hplace
  have hid : r'.requestId = (s.objs request).requestId :=
    hends.requestId.trans hanswered.requestId
  apply hp.of_stop
  · rfl
  · exact fun y hy => Function.update_of_ne hy _ _
  · exact hnodup
  · intro y
    have hidOf : ∀ y, ((s.updateRequest request fun _ => r').objs y).requestId =
        (s.objs y).requestId := by
      intro y
      rw [SchedulerState.objs_updateRequest]
      split
      · rename_i heq
        rw [heq]
        exact hid
      · rfl
    have hmem : y ∈ heldQueues (purged acc s) [] ↔ y = request ∨
        y ∈ heldQueues (purged (acc.addStopped request (s.objs request).status) s) [] := by
      rw [hperm.mem_iff, List.mem_cons]
    change _ ↔ (s.requests.erase
      ((s.updateRequest request fun _ => r').objs request).requestId).get?
        ((s.updateRequest request fun _ => r').objs y).requestId = some y
    rw [hidOf, hidOf, erase_eq_some_iff (fun y => (s.objs y).requestId)
      hanswered.self_registered, ← hp.registered y, hmem]
    constructor
    · exact fun hy => ⟨Or.inr hy, hleft y hy⟩
    · exact fun hy => hy.1.resolve_left hy.2
  · intro y hy
    refine Or.inl ⟨OutputsInOrder.mem_of_addStopped.2 hy, hleft y ?_⟩
    exact mem_heldQueues.mpr (Or.inr (mem_waitingQueues.mpr (Or.inl hy)))
  · intro y hy
    refine Or.inl ⟨hy, hleft y ?_⟩
    exact mem_heldQueues.mpr (Or.inr (mem_waitingQueues.mpr (Or.inr (Or.inl hy))))
  · refine Or.inl fun heq => ?_
    have hfinished : ((s.updateRequest request fun _ => r').objs request).isFinished = true := by
      rw [SchedulerState.objs_updateRequest_self]
      exact hends.finished hanswered.finished
    have hunfinished := (start.unfinished?_eq_some.mp hanswered.unfinished).2
    rw [Request.isFinished, ← heq] at hunfinished
    exact Bool.noConfusion (hfinished.symm.trans hunfinished)
  · exact fun y _ => ⟨Iff.rfl, Iff.rfl⟩

/-- A stopped session that waits for its next input, in `skipped_waiting`. -/
theorem OutputsInOrder.idle (w : W)
    (hanswered : self.Answered out mro start s reqId request r true)
    (hplace : ((s.objs request).status = .running ∧ request ∈ s.running) ∨
      ((s.objs request).status ≠ .running ∧ request ∈ s.waiting)) :
    OutputsInOrder hconnector start
      (SchedulerState.updateRequest
        { s with
          world := w
          numWaitingForStreamingInput := s.numWaitingForStreamingInput + 1
          skippedWaiting := self.requestQueue.addRequest
            (s.updateRequest request fun _ => idled r).objs s.skippedWaiting request }
        request fun _ => idled r,
      acc.addStopped request (s.objs request).status) := by
  have hperm := hp.purges hanswered.untouched hplace
  obtain ⟨_, hleft⟩ := hp.purged_left hanswered.untouched hplace
  have hadd := self.requestQueue.addRequest_perm (s.updateRequest request fun _ => idled r).objs
    s.skippedWaiting request
  apply hp.of_moved
  · apply List.Perm.trans _ hperm.symm
    have hskipped := (hadd.append_right []).append_left
      (purged (acc.addStopped request (s.objs request).status) s).waiting
    have hqueues := (hskipped.trans List.perm_middle).append_left
      (purged (acc.addStopped request (s.objs request).status) s).running
    exact hqueues.trans List.perm_middle
  · rfl
  · rfl
  · exact fun y hy => Function.update_of_ne hy _ _
  · rw [SchedulerState.objs_updateRequest_self]
    exact hanswered.requestId
  · intro y hy
    refine Or.inl ⟨OutputsInOrder.mem_of_addStopped.2 hy, hleft y ?_⟩
    exact mem_heldQueues.mpr (Or.inr (mem_waitingQueues.mpr (Or.inl hy)))
  · intro y hy
    by_cases heq : y = request
    · refine Or.inr ⟨heq, ?_⟩
      rw [SchedulerState.objs_updateRequest_self]
      exact ⟨⟨(fun h => by cases h), rfl⟩, (fun h => by cases h)⟩
    · exact Or.inl ⟨(self.mem_addRequest.mp hy).resolve_left heq, heq⟩
  · refine Or.inl fun heq => ?_
    rw [SchedulerState.objs_updateRequest_self, ← hanswered.untouched] at heq
    -- a request of `running` or `waiting` is not blocked
    rcases hplace with ⟨hstatus, _⟩ | ⟨_, hmem⟩
    · rw [hstatus] at heq
      cases heq
    · have hnot := hp.not_stopped hanswered.untouched
      have hrule := hp.inOrder.waiting request
        (mem_waiting_purged.mpr ⟨hmem, fun h => hnot (Or.inr h)⟩)
      change (s.objs request).status = .waiting ∨ (s.objs request).status = .preempted at hrule
      rw [← heq] at hrule
      rcases hrule with h | h
      · cases h
      · cases h
  · intro y hy
    refine ⟨Iff.rfl, ?_⟩
    exact (self.mem_addRequest).trans (or_iff_right hy)

/-- A running session that goes on is put into `waiting`. -/
theorem OutputsInOrder.proceed_running (w : W)
    (huntouched : s.objs request = start.objs request)
    (hrunning : (s.objs request).status = .running ∧ request ∈ s.running)
    (hid : r'.requestId = (s.objs request).requestId) (hstatus : r'.status = .waiting)
    (hstopped : r'.streamingQueue ≠ (start.objs request).streamingQueue) :
    OutputsInOrder hconnector start
      (SchedulerState.updateRequest
        { s with
          world := w
          waiting := self.requestQueue.addRequest (s.updateRequest request fun _ => r').objs
            s.waiting request }
        request fun _ => r',
      acc.addStopped request (s.objs request).status) := by
  have hperm := hp.purges huntouched (Or.inl hrunning)
  obtain ⟨_, hleft⟩ := hp.purged_left huntouched (Or.inl hrunning)
  have hnot := hp.not_stopped huntouched
  have hacc : (acc.addStopped request (s.objs request).status).stoppedPreemptedReqs =
      acc.stoppedPreemptedReqs := by
    rw [OutputLocals.addStopped, if_pos hrunning.1]
  have hfilter := (self.requestQueue.addRequest_perm (s.updateRequest request fun _ => r').objs
    s.waiting request).filter fun y => decide
      (y ∉ (acc.addStopped request (s.objs request).status).stoppedPreemptedReqs)
  rw [List.filter_cons_of_pos (by
    rw [hacc]
    exact decide_eq_true fun h => hnot (Or.inr h))] at hfilter
  have hwaiting : ∀ y, y ≠ request →
      (y ∈ self.requestQueue.addRequest (s.updateRequest request fun _ => r').objs s.waiting
        request ↔ y ∈ s.waiting) :=
    fun y hy => (self.mem_addRequest).trans (or_iff_right hy)
  apply hp.of_moved
  · apply List.Perm.trans _ hperm.symm
    have hqueues := (hfilter.append_right (s.skippedWaiting ++ [])).append_left
      (purged (acc.addStopped request (s.objs request).status) s).running
    exact hqueues.trans List.perm_middle
  · rfl
  · rfl
  · exact fun y hy => Function.update_of_ne hy _ _
  · rw [SchedulerState.objs_updateRequest_self]
    exact hid
  · intro y hy
    by_cases heq : y = request
    · refine Or.inr ⟨heq, ?_⟩
      rw [SchedulerState.objs_updateRequest_self]
      exact Or.inl hstatus
    · rw [mem_waiting_purged, hacc] at hy
      exact Or.inl ⟨mem_waiting_purged.mpr ⟨(hwaiting y heq).mp hy.1, hy.2⟩, heq⟩
  · intro y hy
    refine Or.inl ⟨hy, hleft y ?_⟩
    exact mem_heldQueues.mpr (Or.inr (mem_waitingQueues.mpr (Or.inr (Or.inl hy))))
  · rw [SchedulerState.objs_updateRequest_self]
    exact Or.inr hstopped
  · exact fun y hy => ⟨hwaiting y hy, Iff.rfl⟩

/-- A session that goes on while it is in `skipped_waiting` stays there: the purge of `waiting`
    takes back what was added. -/
theorem OutputsInOrder.proceed_skipped (w : W) (hne : (s.objs request).status ≠ .running)
    (hmissing : request ∉ s.waiting) (hid : r'.requestId = (s.objs request).requestId)
    (hstatus : r'.status = .waiting)
    (hstopped : r'.streamingQueue ≠ (start.objs request).streamingQueue) :
    OutputsInOrder hconnector start
      (SchedulerState.updateRequest
        { s with
          world := w
          waiting := self.requestQueue.addRequest (s.updateRequest request fun _ => r').objs
            s.waiting request }
        request fun _ => r',
      acc.addStopped request (s.objs request).status) := by
  have hacc : acc.addStopped request (s.objs request).status =
      { acc with stoppedPreemptedReqs := acc.stoppedPreemptedReqs.insert request } := by
    rw [OutputLocals.addStopped, if_neg hne]
  have hfilter := (self.requestQueue.addRequest_perm (s.updateRequest request fun _ => r').objs
    s.waiting request).filter fun y => decide (y ∉ acc.stoppedPreemptedReqs.insert request)
  rw [List.filter_cons_of_neg (by simp)] at hfilter
  have hsame : (s.waiting.filter fun y => y ∉ acc.stoppedPreemptedReqs.insert request) =
      s.waiting.filter fun y => y ∉ acc.stoppedPreemptedReqs := by
    apply List.filter_congr
    intro y hy
    have hyne : y ≠ request := by
      rintro rfl
      exact hmissing hy
    simp only [List.mem_insert_iff, hyne, false_or]
  rw [hsame] at hfilter
  have hwaiting : ∀ y, y ≠ request →
      (y ∈ self.requestQueue.addRequest (s.updateRequest request fun _ => r').objs s.waiting
        request ↔ y ∈ s.waiting) :=
    fun y hy => (self.mem_addRequest).trans (or_iff_right hy)
  apply hp.of_moved
  · rw [hacc]
    exact (hfilter.append_right _).append_left _
  · rfl
  · rfl
  · exact fun y hy => Function.update_of_ne hy _ _
  · rw [SchedulerState.objs_updateRequest_self]
    exact hid
  · intro y hy
    rw [hacc, mem_waiting_purged, List.mem_insert_iff, not_or] at hy
    exact Or.inl ⟨mem_waiting_purged.mpr ⟨(hwaiting y hy.2.1).mp hy.1, hy.2.2⟩, hy.2.1⟩
  · intro y hy
    by_cases heq : y = request
    · refine Or.inr ⟨heq, ?_⟩
      rw [SchedulerState.objs_updateRequest_self, hstatus]
      exact ⟨⟨(fun h => by cases h), rfl⟩, (fun h => by cases h)⟩
    · exact Or.inl ⟨hy, heq⟩
  · rw [SchedulerState.objs_updateRequest_self]
    exact Or.inr hstopped
  · exact fun y hy => ⟨hwaiting y hy, Iff.rfl⟩

end

/-- **Step lemma** of the loop of `update_from_output`. -/
theorem OutputEffect.inOrder {out : SchedulerOutput} {mro : ModelRunnerOutput}
    {start : SchedulerState W} {reqId : RequestId} {p p' : SchedulerState W × OutputLocals}
    (h : self.OutputEffect out mro start reqId p p')
    (hstops : LateStopsHandled self out mro start)
    (hp : OutputsInOrder hconnector start p) : OutputsInOrder hconnector start p' := by
  cases h with
  | touch s acc w => exact hp.of_same rfl rfl rfl rfl rfl rfl fun _ => ⟨rfl, rfl, rfl⟩
  | report s acc request outputs hscheduled hunfinished =>
    exact hp.update s.world rfl rfl rfl rfl rfl
  | @deliver s acc request r w hanswered =>
    obtain ⟨generated, hgenerated, hdelivered⟩ := hanswered.delivered
    exact hp.update w rfl rfl (hdelivered.same.2 rfl) hdelivered.same.1 hdelivered.requestId
  | @finish s acc request r r' delayed w w' hanswered hends hdelayed =>
    obtain rfl : delayed = false := by
      cases delayed with
      | true => exact absurd (hdelayed rfl) (by rw [hconnector]; decide)
      | false => rfl
    apply hp.finish w w' hanswered hends
    rcases hp.place hstops hanswered with hplace | ⟨hne, hmem, _⟩ | ⟨_, _, _, hcontinues⟩
    · exact Or.inl hplace
    · exact Or.inr ⟨hne, hmem⟩
    · -- a session that ends has no next input
      obtain ⟨hresumable, update, rest, hqueue⟩ := hcontinues
      rcases hends with ⟨hnot, _⟩ | ⟨rest', hnone, _⟩
      · rw [hresumable] at hnot
        cases hnot
      · rw [hqueue] at hnone
        cases hnone
  | @idle s acc request r w hanswered hresumable hempty =>
    apply hp.idle w hanswered
    rcases hp.place hstops hanswered with hplace | ⟨hne, hmem, _⟩ | ⟨_, _, _, _, hnext⟩
    · exact Or.inl hplace
    · exact Or.inr ⟨hne, hmem⟩
    · obtain ⟨update, rest, hqueue⟩ := hnext
      rw [Request.hasStreamingUpdate, hqueue] at hempty
      cases hempty
  | @proceed s acc request r r' w hanswered hcontinues =>
    obtain ⟨hresumable, update, rest, hqueue, hprompt, hr'⟩ := hcontinues
    have hid : r'.requestId = (s.objs request).requestId := by
      rw [hr', self.continueSession_requestId]
      exact hanswered.requestId
    have hstatus : r'.status = .waiting := by
      rw [hr']
      rfl
    have hstopped : r'.streamingQueue ≠ (start.objs request).streamingQueue := by
      obtain ⟨generated, _, hdelivered⟩ := hanswered.delivered
      rw [hr', continueSession_streamingQueue, ← hanswered.untouched, ← hdelivered.same.1, hqueue]
      intro h
      injection h with h
      exact List.cons_ne_self _ _ h.symm
    rcases hp.place hstops hanswered with hrunning | ⟨_, _, hended⟩ | ⟨hne, _, hmissing, _⟩
    · exact hp.proceed_running w hanswered.untouched hrunning hid hstatus hstopped
    · exact absurd ⟨hresumable, update, rest, hqueue⟩ hended
    · exact hp.proceed_skipped w hne hmissing hid hstatus hstopped

/-- **`update_from_output` keeps the queues**, if it handles the late stops. -/
theorem Updated.conserves {out : SchedulerOutput} {mro : ModelRunnerOutput}
    {s start done s' : SchedulerState W} {acc : OutputLocals}
    (h : self.Updated out mro s start done acc s') (hlocal : mro.kvConnectorOutput = none)
    (hstops : LateStopsHandled self out mro s) (hs : Conserves hconnector s) :
    Conserves hconnector s' := by
  obtain ⟨rfl, rfl⟩ := h.withoutConnector hlocal
  have hloop : OutputsInOrder hconnector start (done, acc) := by
    apply invariant_of_chain (I := OutputsInOrder hconnector start) _ h.outputs
      (OutputsInOrder.start_of_conserves hs)
    rintro p p' ⟨reqId, heffect⟩ hp
    exact heffect.inOrder hstops hp
  have hqueues : (heldQueues (self.removeStopped acc done) []).Perm
      (heldQueues (purged acc done) []) :=
    ((waiting_removeStopped done acc).append_right _).append_left _
  constructor
  · exact h.registryOk hs.registry
  · apply hloop.inOrder.of_same
    · exact hqueues.nodup_iff.mpr hloop.inOrder.nodup
    · exact fun x hx => hx
    · exact fun x hx => (waiting_removeStopped done acc).mem_iff.mp hx
    · exact fun x hx => mem_waitingQueues.mpr (Or.inr hx)
    · exact fun x _ => rfl
  · intro x
    rw [hqueues.mem_iff]
    exact hloop.registered x

/-! ## 4. The other operations -/

theorem filter_notMem_filter {queue valid : List Ref} {keep : Ref → Prop} [DecidablePred keep]
    (hkeep : ∀ x ∈ queue, keep x) :
    (queue.filter fun x => x ∉ valid.filter fun x => keep x) = queue.filter fun x => x ∉ valid := by
  apply List.filter_congr
  intro x hx
  simp [hkeep x hx]

/-- What `finish_requests` leaves of a waiting queue. -/
theorem removeWaiting_perm {s : SchedulerState W} {queue valid : List Ref}
    (hqueue : ∀ x ∈ queue, (s.objs x).status ≠ .running) :
    (if (valid.filter fun x => (s.objs x).status ≠ .running) = [] then queue
      else self.requestQueue.removeRequests s.objs queue
        (valid.filter fun x => (s.objs x).status ≠ .running)).Perm
      (queue.filter fun x => x ∉ valid) := by
  rw [← filter_notMem_filter hqueue]
  split
  · rename_i hnone
    rw [hnone]
    simp
  · exact self.requestQueue.removeRequests_perm s.objs queue _

/-- `finish_requests` takes the requests out of whichever queue they are in. -/
theorem heldQueues_removeFromQueues {rule : QueueRule self} {s : SchedulerState W}
    (hs : QueuesInOrder rule s []) (valid : List Ref) :
    (heldQueues (self.removeFromQueues valid s) []).Perm
      ((heldQueues s []).filter fun x => x ∉ valid) := by
  have hrunning : (s.running.filter fun x =>
      x ∉ valid.filter fun x => (s.objs x).status = .running) =
      s.running.filter fun x => x ∉ valid :=
    filter_notMem_filter hs.running
  have hwaiting : ∀ x ∈ s.waiting, (s.objs x).status ≠ .running :=
    fun x hx => hs.status_ne (mem_waitingQueues.mpr (Or.inl hx))
  have hskipped : ∀ x ∈ s.skippedWaiting, (s.objs x).status ≠ .running :=
    fun x hx => hs.status_ne (mem_waitingQueues.mpr (Or.inr (Or.inl hx)))
  unfold heldQueues waitingQueues
  rw [List.filter_append, List.filter_append, List.append_nil, List.append_nil, ← hrunning]
  exact ((removeWaiting_perm hwaiting).append (removeWaiting_perm hskipped)).append_left _

/-- Between the finished requests: the registered requests are those that were
    registered and are still unfinished. -/
structure Finishing {scheduler : Scheduler W} (hconnector : scheduler.hasConnector = false)
    (s t : SchedulerState W) : Prop where
  running : t.running = s.running
  waiting : t.waiting = s.waiting
  skippedWaiting : t.skippedWaiting = s.skippedWaiting
  requestId : ∀ x, (t.objs x).requestId = (s.objs x).requestId
  untouched : ∀ x, (t.objs x).isFinished = false → t.objs x = s.objs x
  registered : ∀ x, t.requests.get? (t.objs x).requestId = some x ↔
    s.requests.get? (s.objs x).requestId = some x ∧ (t.objs x).isFinished = false

theorem FinishEffect.finishing {finishedStatus : RequestStatus} {valid : List Ref}
    {s t t' : SchedulerState W} (h : self.FinishEffect finishedStatus valid t t')
    (hs : ∀ x, s.requests.get? (s.objs x).requestId = some x →
      (s.objs x).status ≠ .waitingForRemoteKvs)
    (ht : Finishing hconnector s t) : Finishing hconnector s t' := by
  cases h with
  | @finish request delayed w finishedRecving failedRecving hvalid hregistered hunfinished
      hfinished hdelayed =>
    have hdelayed' : delayed = false := by
      cases delayed with
      | true =>
        rcases hdelayed rfl with hremote | hconnected
        · rw [ht.untouched request hunfinished] at hremote
          exact absurd hremote (hs request ((ht.registered request).mp hregistered).1)
        · rw [hconnector] at hconnected
          cases hconnected
      | false => rfl
    subst hdelayed'
    generalize hf : (fun r : Request => { r with status := finishedStatus }) = f
    have hfid : (f (t.objs request)).requestId = (t.objs request).requestId := by
      rw [← hf]
    have hffinished : (f (t.objs request)).isFinished = true := by
      rw [← hf]
      exact hfinished
    have hobjs : ∀ x, x ≠ request → (t.updateRequest request f).objs x = t.objs x :=
      fun x hx => Function.update_of_ne hx _ _
    have hself : (t.updateRequest request f).objs request = f (t.objs request) :=
      Function.update_self ..
    have hid : ∀ x, ((t.updateRequest request f).objs x).requestId = (t.objs x).requestId := by
      intro x
      by_cases heq : x = request
      · rw [heq, hself, hfid]
      · rw [hobjs x heq]
    constructor
    · exact ht.running
    · exact ht.waiting
    · exact ht.skippedWaiting
    · exact fun x => (hid x).trans (ht.requestId x)
    · intro x hx
      have hx : ((t.updateRequest request f).objs x).isFinished = false := hx
      have hne : x ≠ request := by
        rintro rfl
        rw [hself, hffinished] at hx
        cases hx
      rw [hobjs x hne] at hx
      exact (hobjs x hne).trans (ht.untouched x hx)
    · intro x
      change (t.requests.erase ((t.updateRequest request f).objs request).requestId).get?
        ((t.updateRequest request f).objs x).requestId = some x ↔
          _ ∧ ((t.updateRequest request f).objs x).isFinished = false
      rw [hid, hid, erase_eq_some_iff (fun x => (t.objs x).requestId) hregistered, ht.registered x]
      by_cases heq : x = request
      · rw [heq, hself, hffinished]
        simp
      · rw [hobjs x heq]
        simp [heq]

/-- **`finish_requests` keeps the queues.** -/
theorem FinishedBy.conserves {requestIds : Option (List RequestId)}
    {finishedStatus : RequestStatus} {s s' : SchedulerState W}
    (h : self.FinishedBy requestIds finishedStatus s s') (hs : Conserves hconnector s) :
    Conserves hconnector s' := by
  have hremote : ∀ x, s.requests.get? (s.objs x).requestId = some x →
      (s.objs x).status ≠ .waitingForRemoteKvs := by
    intro x hx
    rcases mem_heldQueues.mp ((hs.registered x).mpr hx) with hmem | hmem
    · rw [hs.inOrder.running x hmem]
      decide
    · exact (hs.inOrder.skipped_of_mem hmem).2
  have hstart : Finishing hconnector (self.removeFromQueues (validRequests s requestIds) s)
      (self.removeFromQueues (validRequests s requestIds) s) :=
    { running := rfl
      waiting := rfl
      skippedWaiting := rfl
      requestId := fun _ => rfl
      untouched := fun _ _ => rfl
      registered := fun x => (and_iff_left_of_imp fun hx => hs.unfinished hx).symm }
  have hfinishing := invariant_of_chain
    (I := Finishing hconnector (self.removeFromQueues (validRequests s requestIds) s))
    (fun _ _ heffect ht => heffect.finishing hremote ht) h.effects hstart
  have hqueues : heldQueues s' [] =
      heldQueues (self.removeFromQueues (validRequests s requestIds) s) [] := by
    unfold heldQueues waitingQueues
    rw [hfinishing.running, hfinishing.waiting, hfinishing.skippedWaiting]
  have hperm := heldQueues_removeFromQueues hs.inOrder (validRequests s requestIds)
  have hmem : ∀ x, x ∈ heldQueues s' [] ↔
      x ∈ heldQueues s [] ∧ x ∉ validRequests s requestIds := by
    intro x
    rw [hqueues, hperm.mem_iff, List.mem_filter, decide_eq_true_eq]
  constructor
  · exact h.registryOk hs.registry
  · apply hs.inOrder.of_same
    · rw [hqueues]
      exact hperm.nodup_iff.mpr (hs.inOrder.nodup.filter _)
    · intro x hx
      rw [hfinishing.running] at hx
      exact List.mem_of_mem_filter hx
    · intro x hx
      rw [hfinishing.waiting] at hx
      exact List.mem_of_mem_filter ((removeWaiting_perm fun y hy =>
        hs.inOrder.status_ne (mem_waitingQueues.mpr (Or.inl hy))).mem_iff.mp hx)
    · rintro x (hx | hx)
      · rw [hfinishing.skippedWaiting] at hx
        exact mem_waitingQueues.mpr (Or.inr (Or.inl (List.mem_of_mem_filter
          ((removeWaiting_perm fun y hy => hs.inOrder.status_ne
            (mem_waitingQueues.mpr (Or.inr (Or.inl hy)))).mem_iff.mp hx))))
      · cases hx
    · intro x hx
      rw [h.others x ((hmem x).mp hx).2]
  · intro x
    rw [hmem, hs.registered, hfinishing.registered x]
    by_cases hvalid : x ∈ validRequests s requestIds
    · simp [hvalid, h.finished x hvalid]
    · rw [h.others x hvalid]
      have hunfinished : s.requests.get? (s.objs x).requestId = some x →
        (s.objs x).isFinished = false := hs.unfinished
      tauto

/-- One registered request was written, and moved from one queue to another. -/
theorem Conserves.of_moved {s s' : SchedulerState W} (hs : Conserves hconnector s) {x : Ref}
    {f : Request → Request} (hobjs : s'.objs = (s.updateRequest x f).objs)
    (hid : (f (s.objs x)).requestId = (s.objs x).requestId)
    (hrequests : s'.requests = s.requests) (hnextRef : s'.nextRef = s.nextRef)
    (hperm : (heldQueues s' []).Perm (heldQueues s []))
    (hrunning : ∀ y ∈ s'.running, y ∈ s.running ∧ y ≠ x)
    (hwaiting : ∀ y ∈ s'.waiting, (y ∈ s.waiting ∧ y ≠ x) ∨
      (y = x ∧ (localRule hconnector).waiting (f (s.objs x)).status))
    (hskipped : ∀ y ∈ s'.skippedWaiting, (y ∈ s.skippedWaiting ∧ y ≠ x) ∨
      (y = x ∧ (localRule hconnector).skipped (f (s.objs x)).status)) :
    Conserves hconnector s' := by
  have hself : s'.objs x = f (s.objs x) := by
    rw [hobjs, SchedulerState.objs_updateRequest_self]
  have hother : ∀ y, y ≠ x → s'.objs y = s.objs y := by
    intro y hy
    rw [hobjs, SchedulerState.objs_updateRequest_of_ne _ _ hy]
  have hsame : SameRegistry s s' :=
    { requests := hrequests
      nextRef := hnextRef
      requestId := by
        intro y
        by_cases heq : y = x
        · rw [heq, hself, hid]
        · rw [hother y heq] }
  constructor
  · exact hsame.registryOk hs.registry
  · rw [← hself] at hwaiting hskipped
    apply inOrder_of_moved hs.inOrder _ _ hrunning hwaiting hskipped
    · exact hperm.nodup_iff.mpr hs.inOrder.nodup
    · exact fun y hy => congrArg Request.status (hother y hy)
  · intro y
    rw [hperm.mem_iff, hs.registered y, hrequests, hsame.requestId]

theorem SessionEffect.conserves {request : Request} {existing : Ref} {s s' : SchedulerState W}
    (h : self.SessionEffect request existing s s')
    (hexisting : s.requests.get? request.requestId = some existing)
    (hs : Conserves hconnector s) : Conserves hconnector s' := by
  cases h with
  | append hstatus =>
    refine hs.of_statuses (SameRegistry.updateRequest (SameRegistry.refl s) rfl) rfl rfl rfl ?_
    intro x
    rw [SchedulerState.objs_updateRequest]
    split
    · rename_i heq
      rw [heq]
      rfl
    · rfl
  | @proceed update hstatus hprompt =>
    have hnotRunning : existing ∉ s.running := by
      intro hmem
      rw [hs.inOrder.running existing hmem] at hstatus
      cases hstatus
    have hnotWaiting : existing ∉ s.waiting := by
      intro hmem
      have hrule : (s.objs existing).status = .waiting ∨ (s.objs existing).status = .preempted :=
        hs.inOrder.waiting existing hmem
      rw [hstatus] at hrule
      rcases hrule with hrule | hrule
      · cases hrule
      · cases hrule
    apply hs.of_moved (x := existing) (f := self.continueSession update)
    · rfl
    · exact self.continueSession_requestId update _
    · rfl
    · rfl
    · exact List.Perm.refl _
    · intro y hy
      refine ⟨hy, ?_⟩
      rintro rfl
      exact hnotRunning hy
    · intro y hy
      refine Or.inl ⟨hy, ?_⟩
      rintro rfl
      exact hnotWaiting hy
    · intro y hy
      by_cases heq : y = existing
      · exact Or.inr ⟨heq, ⟨(fun h => by cases h), rfl⟩, (fun h => by cases h)⟩
      · exact Or.inl ⟨hy, heq⟩
  | endSession hstatus hfinished => exact hfinished.conserves hs

theorem ResetEffect.conserves {s s' : SchedulerState W} (h : self.ResetEffect s s')
    (hs : Conserves hconnector s) : Conserves hconnector s' := by
  cases h with
  | @preempt victim rest w hvictim hstatus =>
    have hadd := self.requestQueue.prependRequest_perm
      (({ s with running := rest } : SchedulerState W).updateRequest victim preempted).objs
      s.waiting victim
    have hrunning : s.running.Perm (victim :: rest) := by
      rw [hvictim]
      exact List.perm_append_singleton victim rest
    have hnodup : (victim :: rest).Nodup :=
      hrunning.nodup_iff.mp (List.nodup_append.mp hs.inOrder.nodup).1
    have hmem : victim ∈ s.running := hrunning.mem_iff.mpr List.mem_cons_self
    apply hs.of_moved (x := victim) (f := fun r => discardPlaceholders (preempted r))
    · funext y
      by_cases heq : y = victim
      · rw [heq, SchedulerState.objs_updateRequest_self, SchedulerState.objs_updateRequest_self,
          afterPreempt, SchedulerState.objs_updateRequest_self]
      · rw [SchedulerState.objs_updateRequest_of_ne _ _ heq,
          SchedulerState.objs_updateRequest_of_ne _ _ heq, afterPreempt,
          SchedulerState.objs_updateRequest_of_ne _ _ heq]
    · rfl
    · rfl
    · rfl
    · exact perm_move hrunning (hadd.append_right _)
    · intro y hy
      refine ⟨hrunning.mem_iff.mpr (List.mem_cons_of_mem _ hy), ?_⟩
      rintro rfl
      exact (List.nodup_cons.mp hnodup).1 hy
    · intro y hy
      rcases self.mem_prependRequest.mp hy with rfl | hy
      · exact Or.inr ⟨rfl, Or.inr rfl⟩
      · exact Or.inl ⟨hy, (hs.inOrder.ne_of_running hmem
          (mem_waitingQueues.mpr (Or.inl hy))).symm⟩
    · intro y hy
      exact Or.inl ⟨hy, (hs.inOrder.ne_of_running hmem
        (mem_waitingQueues.mpr (Or.inr (Or.inl hy)))).symm⟩

theorem conserves_afterRegister {s : SchedulerState W} (hs : Conserves hconnector s)
    {added : Request} (w : W) (habsent : s.requests.get? added.requestId = none)
    (hstatus : added.status = .waiting ∨ added.status = .waitingForStructuredOutputGrammar) :
    Conserves hconnector (self.afterRegister s added w) := by
  have hknown : ∀ y ∈ heldQueues s [], y ≠ s.nextRef :=
    fun y hy => Nat.ne_of_lt (hs.registry.known ((hs.registered y).mp hy))
  have hobjs : ∀ y, y ≠ s.nextRef → (self.afterRegister s added w).objs y = s.objs y :=
    fun y hy => Function.update_of_ne hy _ _
  have hself : (self.afterRegister s added w).objs s.nextRef = added := Function.update_self ..
  have hperm : (heldQueues (self.afterRegister s added w) []).Perm
      (s.nextRef :: heldQueues s []) := by
    have hadd := fun queue =>
      self.requestQueue.addRequest_perm (allocated s added) queue s.nextRef
    unfold heldQueues waitingQueues afterRegister
    dsimp only
    split
    · have hskipped := ((hadd s.skippedWaiting).append_right []).append_left s.waiting
      exact ((hskipped.trans List.perm_middle).append_left s.running).trans List.perm_middle
    · exact (((hadd s.waiting).append_right _).append_left s.running).trans List.perm_middle
  have hnew : ∀ y, y ∈ s.running ∨ y ∈ s.waiting ∨ y ∈ s.skippedWaiting → y ≠ s.nextRef := by
    intro y hy
    apply hknown y
    rw [mem_heldQueues, mem_waitingQueues]
    exact hy.imp_right fun h => h.imp_right Or.inl
  constructor
  · exact registryOk_afterRegister hs.registry added w
  · apply inOrder_of_moved (x := s.nextRef) hs.inOrder
    · rw [hperm.nodup_iff, List.nodup_cons]
      exact ⟨fun h => hknown _ h rfl, hs.inOrder.nodup⟩
    · exact fun y hy => congrArg Request.status (hobjs y hy)
    · exact fun y hy => ⟨hy, hnew y (Or.inl hy)⟩
    · intro y hy
      simp only [afterRegister] at hy
      split at hy
      · exact Or.inl ⟨hy, hnew y (Or.inr (Or.inl hy))⟩
      · rename_i hblocked
        rcases self.mem_addRequest.mp hy with rfl | hy
        · refine Or.inr ⟨rfl, ?_⟩
          rw [hself]
          rcases hstatus with hstatus | hstatus
          · exact Or.inl hstatus
          · rw [hstatus] at hblocked
            exact absurd rfl hblocked
        · exact Or.inl ⟨hy, hnew y (Or.inr (Or.inl hy))⟩
    · intro y hy
      simp only [afterRegister] at hy
      split at hy
      · rcases self.mem_addRequest.mp hy with rfl | hy
        · refine Or.inr ⟨rfl, ?_⟩
          rw [hself]
          rcases hstatus with hstatus | hstatus
          · rw [hstatus]
            exact ⟨⟨(fun h => by cases h), rfl⟩, (fun h => by cases h)⟩
          · rw [hstatus]
            exact ⟨⟨(fun h => by cases h), rfl⟩, (fun h => by cases h)⟩
        · exact Or.inl ⟨hy, hnew y (Or.inr (Or.inr hy))⟩
      · exact Or.inl ⟨hy, hnew y (Or.inr (Or.inr hy))⟩
  · intro y
    rw [hperm.mem_iff, List.mem_cons]
    change _ ↔ (s.requests.set added.requestId s.nextRef).get? _ = some y
    by_cases heq : y = s.nextRef
    · rw [heq, hself, Dict.get?_set_self]
      simp
    · rw [hobjs y heq, hs.registered y, Dict.get?_set]
      split
      · rename_i hid
        rw [hid, habsent]
        simp [heq, Ne.symm heq]
      · simp [heq]

/-- A request that enters a pause moves to `skipped_waiting`. -/
theorem conserves_afterHold {s : SchedulerState W} (hs : Conserves hconnector s)
    {reqId : RequestId} (reading : EdmmSchedulerHook.PauseReading) {request : Ref}
    (hpausable : pausable? s reqId = some request) :
    Conserves hconnector (self.afterHold s reqId reading request) := by
  obtain ⟨hget, _, _⟩ := pausable?_eq_some hpausable
  have hmem : request ∈ heldQueues s [] := by
    rw [hs.registered, hs.registry.carries hget]
    exact hget
  have hremove := fun queue => self.requestQueue.removeRequests_perm
    (s.updateRequest request toolPaused).objs queue [request]
  have hfilter : ∀ queue : List Ref, (queue.filter fun y => y ∉ [request]) =
      queue.filter fun y => y ≠ request := by
    intro queue
    apply List.filter_congr
    intro y _
    simp
  have hleft : (heldQueues s []).Perm
      (request :: (heldQueues s []).filter fun y => y ≠ request) := by
    have herase := List.perm_cons_erase hmem
    rw [hs.inOrder.nodup.erase_eq_filter] at herase
    have hne : (fun y => decide (y ≠ request)) = fun y => y != request := by
      funext y
      by_cases heq : y = request <;> simp [heq]
    rw [hne]
    exact herase
  have hadd := self.requestQueue.addRequest_perm (s.updateRequest request toolPaused).objs
    (self.requestQueue.removeRequests (s.updateRequest request toolPaused).objs
      s.skippedWaiting [request]) request
  have hperm : (heldQueues (self.afterHold s reqId reading request) []).Perm
      (heldQueues s []) := by
    apply List.Perm.trans _ hleft.symm
    unfold heldQueues waitingQueues
    rw [List.filter_append, List.filter_append, List.filter_append, ← hfilter s.waiting,
      ← hfilter s.skippedWaiting, List.filter_nil]
    have hskipped := (hadd.trans ((hremove s.skippedWaiting).cons request)).append_right []
    have hwaiting := ((hremove s.waiting).append hskipped).trans List.perm_middle
    exact (hwaiting.append_left _).trans List.perm_middle
  apply hs.of_moved (x := request) (f := toolPaused)
  · rfl
  · rfl
  · rfl
  · rfl
  · exact hperm
  · intro y hy
    obtain ⟨hmem, hne⟩ := List.mem_filter.mp hy
    exact ⟨hmem, of_decide_eq_true hne⟩
  · intro y hy
    obtain ⟨hmem, hne⟩ := self.mem_removeRequests.mp hy
    exact Or.inl ⟨hmem, fun heq => hne (List.mem_singleton.mpr heq)⟩
  · intro y hy
    rcases self.mem_addRequest.mp hy with heq | hy
    · exact Or.inr ⟨heq, ⟨(fun h => by cases h), rfl⟩, (fun h => by cases h)⟩
    · obtain ⟨hmem, hne⟩ := self.mem_removeRequests.mp hy
      exact Or.inl ⟨hmem, fun heq => hne (List.mem_singleton.mpr heq)⟩

/-! ## 5. Runs -/

/-- **Step lemma.** -/
theorem OperationEffect.conserves {s s' : SchedulerState W} {op : SchedulerOp W}
    {out : Option SchedulerOutput} (h : self.OperationEffect s op out s')
    (hlocal : op.WithoutConnector)
    (hstops : ∀ out mro, op = .updateFromOutput out mro → LateStopsHandled self out mro s)
    (hs : Conserves hconnector s) : Conserves hconnector s' := by
  cases h with
  | @register params request w hinit habsent =>
    apply conserves_afterRegister hs w
    · rw [sessionStarted_requestId]
      exact habsent
    · have hfresh := (Request.fresh_init hinit).status
      unfold sessionStarted
      split
      · exact hfresh
      · exact hfresh
  | session hinit hexisting heffect => exact heffect.conserves hexisting hs
  | schedule hscheduled =>
    have hinOrder := hscheduled.inOrder hs.inOrder
    constructor
    · exact hscheduled.sameRegistry.registryOk hs.registry
    · exact hinOrder
    · intro x
      rw [hscheduled.perm.mem_iff, hs.registered x, hscheduled.sameRegistry.requests,
        hscheduled.sameRegistry.requestId]
  | @updateFromOutput out mro start done s' acc hupdated =>
    exact hupdated.conserves hlocal (hstops out mro rfl) hs
  | finishRequests hfinished => exact hfinished.conserves hs
  | updateDraftTokenIds objs hobjs =>
    have hform : ∀ x, (objs x).status = (s.objs x).status ∧
        (objs x).requestId = (s.objs x).requestId := by
      intro x
      obtain ⟨specTokenIds, hx⟩ := hobjs x
      rw [hx]
      exact ⟨rfl, rfl⟩
    exact hs.of_statuses { requests := rfl, nextRef := rfl, requestId := fun x => (hform x).2 }
      rfl rfl rfl fun x => (hform x).1
  | @resetPrefixCache resetRunningRequests resetConnector s₁ previous w hreset hprevious =>
    have h₁ : Conserves hconnector s₁ :=
      invariant_of_chain (fun _ _ heffect hbefore => heffect.conserves hbefore) hreset hs
    exact h₁.of_statuses { requests := rfl, nextRef := rfl, requestId := fun _ => rfl }
      rfl rfl rfl fun _ => rfl
  | pauseInPlace hpausable => cases hlocal
  | holdForToolCall hpausable => exact conserves_afterHold hs _ hpausable
  | pauseInPlaceIgnored hnone => exact hs
  | holdForToolCallIgnored hnone => exact hs
  | setPauseState | submitToolResponse | recordSpeculativeHandle | environment =>
    exact hs.of_statuses { requests := rfl, nextRef := rfl, requestId := fun _ => rfl }
      rfl rfl rfl fun _ => rfl

/-- **No request is lost, duplicated or left queued after finishing**, in every run
    without a KV connector whose late stops are handled. -/
theorem queuesConserved_run {objs : Ref → Request} {edmmHook : Option EdmmSchedulerHook} {w : W}
    {history : List (SchedulerStep W)} {s : SchedulerState W}
    (hconnector : self.hasConnector = false)
    (run : SchedulerRun self (SchedulerState.init objs edmmHook w) history s)
    (hlocal : ∀ step ∈ history, step.op.WithoutConnector)
    (hstops : ∀ step ∈ history, SchedulerStep.StopsHandled self step) : QueuesConserved s := by
  have hs : Conserves hconnector s := by
    apply Machine.Run.invariant
      (I := Conserves hconnector) (P := fun step : SchedulerStep W =>
        step.op.WithoutConnector ∧ SchedulerStep.StopsHandled self step) _ run
      (fun step hstep => ⟨hlocal step hstep, hstops step hstep⟩) (conserves_init objs edmmHook w)
    intro s s' op output hs hexec hpermitted
    have htraceless : Conserves hconnector (traceless s) :=
      hs.of_statuses { requests := rfl, nextRef := rfl, requestId := fun _ => rfl }
        rfl rfl rfl fun _ => rfl
    exact (effect_of_exec hs.registry hexec).conserves hpermitted.1 hpermitted.2 htraceless
  exact hs.queuesConserved

/-- A late stop is handled if the request is in `waiting` and no session. -/
theorem lateStopsHandled_of_waiting {out : SchedulerOutput} {mro : ModelRunnerOutput}
    {s : SchedulerState W}
    (h : ∀ reqId ∈ out.numScheduledTokens.keys, ∀ x ∈ s.unfinished? reqId,
      (s.objs x).status = .running ∨ (x ∈ s.waiting ∧ (s.objs x).resumable = false)) :
    LateStopsHandled self out mro s := by
  intro reqId x generated r hkey hx hstatus hgenerated hdelivered
  rcases h reqId hkey x hx with hrunning | ⟨hwaiting, hresumable⟩
  · exact absurd hrunning hstatus
  · refine Or.inl ⟨hwaiting, ?_⟩
    rintro ⟨hnext, _⟩
    rw [hdelivered.resumable hnext] at hresumable
    cases hresumable

/-- A request is preempted by a reset, and its only output token arrives afterwards. -/
theorem queuesConserved_late_stop : ∃ history s, SchedulerRun roomy start history s ∧
    history.length = 4 ∧ QueuesConserved s ∧ s.requests.keys = [] := by
  have hplayed : ∃ p ∈ roomy.play start
      [.op (.addRequest (.text "a" [1, 2, 3] 1 false)), .op .schedule,
        .op (.resetPrefixCache true false), .deliver 0 [("a", [4])]],
      p.1.length = 4 ∧ (∀ step ∈ p.1, step.op.WithoutConnector) ∧
        (∀ step ∈ p.1, ∀ x ∈ step.before.running ++ step.before.waiting,
          (step.before.objs x).status = .running ∨
            (x ∈ step.before.waiting ∧ (step.before.objs x).resumable = false)) ∧
        (∀ step ∈ p.1, ∀ reqId ∈ step.before.requests.keys, ∀ x ∈ step.before.unfinished? reqId,
          x ∈ step.before.running ++ step.before.waiting) ∧
        p.2.requests.keys = [] := by
    decide +kernel
  obtain ⟨⟨history, s⟩, hhistory, hlength, hlocal, hplain, hqueued, hnone⟩ := hplayed
  have run := run_of_play (Option.mem_def.mp hhistory)
  refine ⟨history, s, run, hlength, queuesConserved_run rfl run hlocal ?_, hnone⟩
  intro step hstep out mro _
  apply lateStopsHandled_of_waiting
  intro reqId _ x hx
  have hkey : reqId ∈ step.before.requests.keys := by
    rw [Dict.mem_keys_iff]
    exact ⟨x, (step.before.unfinished?_eq_some.mp hx).1⟩
  exact hplain step hstep x (hqueued step hstep reqId hkey x hx)

/-- A request that is held for a tool call stops when its late output arrives, and stays
    in `skipped_waiting` although it is finished. -/
theorem lateStop_stays_queued :
    ¬ ∀ (history : List (SchedulerStep Unit)) (s : SchedulerState Unit),
      SchedulerRun roomy start history s → (∀ step ∈ history, step.op.WithoutConnector) →
      QueuesConserved s := by
  intro hclaim
  have hplayed : ∃ p ∈ roomy.play start
      [.op (.addRequest (.text "a" [1, 2, 3] 1 false)), .op .schedule,
        .op (.holdForToolCall "a" ⟨0, none, 0⟩), .deliver 0 [("a", [4])]],
      (∀ step ∈ p.1, step.op.WithoutConnector) ∧ 0 ∈ p.2.skippedWaiting ∧
        (p.2.objs 0).isFinished = true := by
    decide +kernel
  obtain ⟨⟨history, s⟩, hhistory, hlocal, hskipped, hfinished⟩ := hplayed
  have hconserved := hclaim history s (run_of_play (Option.mem_def.mp hhistory)) hlocal
  have hunfinished := hconserved.unfinished 0 (List.mem_append_right _ hskipped)
  rw [hfinished] at hunfinished
  cases hunfinished

end Scheduler

end Edmm
