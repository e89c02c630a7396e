/-
  Edmm/Queues.lean
  ================
  **Where the requests are while `schedule()` runs.**

  Within `schedule()` a request is in `running`, in one of the waiting queues, or
  set aside in `step_skipped_waiting`.  The two loops move requests between these
  lists: they neither lose a request nor copy one.

  A `QueueRule` says which statuses the waiting queues may hold.  The queues are in
  order when no request occurs twice in them, the requests in `running` are RUNNING,
  and the waiting queues obey the rule.
-/
import Edmm.Registry

namespace Edmm

open Program

variable {W : Type}

/-! ## 1. The lists -/

/-- Everything that waits.  `aside` are the requests that `schedule()` set aside. -/
def waitingQueues (s : SchedulerState W) (aside : List Ref) : List Ref :=
  s.waiting ++ (s.skippedWaiting ++ aside)

def heldQueues (s : SchedulerState W) (aside : List Ref) : List Ref :=
  s.running ++ waitingQueues s aside

theorem mem_waitingQueues {s : SchedulerState W} {aside : List Ref} {x : Ref} :
    x ∈ waitingQueues s aside ↔ x ∈ s.waiting ∨ x ∈ s.skippedWaiting ∨ x ∈ aside := by
  unfold waitingQueues
  rw [List.mem_append, List.mem_append]

theorem mem_heldQueues {s : SchedulerState W} {aside : List Ref} {x : Ref} :
    x ∈ heldQueues s aside ↔ x ∈ s.running ∨ x ∈ waitingQueues s aside := by
  unfold heldQueues
  rw [List.mem_append]

/-- A member of one list moves to another one. -/
theorem perm_move {x : Ref} {source source' target target' : List Ref}
    (hsource : source.Perm (x :: source')) (htarget : target'.Perm (x :: target)) :
    (source' ++ target').Perm (source ++ target) :=
  calc
    (source' ++ target').Perm (source' ++ x :: target) := htarget.append_left source'
    List.Perm _ (x :: (source' ++ target)) := List.perm_middle
    List.Perm _ (source ++ target) := (hsource.append_right target).symm

namespace Scheduler

variable (self : Scheduler W)

theorem queue_perm_of_head {s : SchedulerState W} {which : WaitingQueue} {request : Ref}
    (h : (queue s which).head? = some request) :
    (queue s which).Perm (request :: self.requestQueue.popRest s.objs (queue s which)) := by
  obtain ⟨tail, htail⟩ := List.head?_eq_some_iff.mp h
  rw [htail]
  exact ((self.requestQueue.popRest_perm s.objs (request :: tail)).symm).cons request

/-- `pop_request` takes the head away. -/
theorem waitingQueues_popRequest {s : SchedulerState W} {which : WaitingQueue} {request : Ref}
    (h : (queue s which).head? = some request) (aside : List Ref) :
    (waitingQueues s aside).Perm (request :: waitingQueues (self.popRequest which s) aside) := by
  have hqueue := self.queue_perm_of_head h
  cases which with
  | waiting => exact hqueue.append_right _
  | skippedWaiting =>
    have hskipped := (hqueue.append_right aside).append_left s.waiting
    exact hskipped.trans List.perm_middle

/-- `step_skipped_waiting.prepend_request(request)` -/
theorem waitingQueues_prepend (s : SchedulerState W) (objs : Ref → Request) (aside : List Ref)
    (request : Ref) :
    (waitingQueues s (self.requestQueue.prependRequest objs aside request)).Perm
      (request :: waitingQueues s aside) := by
  have haside := self.requestQueue.prependRequest_perm objs aside request
  have hskipped := (haside.append_left s.skippedWaiting).trans List.perm_middle
  exact (hskipped.append_left s.waiting).trans List.perm_middle

variable {self}

/-- The RUNNING loop moves preempted requests. -/
theorem RunningEffect.perm {p p' : Frame W} (h : self.RunningEffect p p') :
    (heldQueues p'.1 p'.2.stepSkippedWaiting).Perm (heldQueues p.1 p.2.stepSkippedWaiting) := by
  cases h with
  | touch s l w => exact List.Perm.refl _
  | pass s l reqIndex scheduledLoras => exact List.Perm.refl _
  | @preempt s l l' victim rest w hvictim hstatus hlocals =>
    have haside : l'.stepSkippedWaiting = l.stepSkippedWaiting := by
      rcases hlocals with rfl | ⟨numTokens, rfl⟩
      · rfl
      · rfl
    change (rest ++ _).Perm (s.running ++ waitingQueues s l.stepSkippedWaiting)
    apply perm_move hvictim
    rw [← haside]
    exact (self.requestQueue.prependRequest_perm _ s.waiting victim).append_right _
  | schedule newBlocks w hrunning hsome hbound hlocals =>
    rw [hlocals.stepSkippedWaiting]
    exact List.Perm.refl _

/-- The WAITING loop moves requests that are skipped, loaded or admitted. -/
theorem WaitingEffect.perm {p p' : Frame W} (h : self.WaitingEffect p p') :
    (heldQueues p'.1 p'.2.stepSkippedWaiting).Perm (heldQueues p.1 p.2.stepSkippedWaiting) := by
  cases h with
  | touch s l w => exact List.Perm.refl _
  | examine l hhead => exact List.Perm.refl _
  | lookup l w hcomputed => exact List.Perm.refl _
  | promote l hhead hpromotion =>
    cases hpromotion <;> exact List.Perm.refl _
  | @skip s which request l hhead =>
    have hpop := self.waitingQueues_popRequest hhead l.stepSkippedWaiting
    have haside := self.waitingQueues_prepend (self.popRequest which s) s.objs
      l.stepSkippedWaiting request
    change ((self.popRequest which s).running ++ _).Perm _
    rw [running_popRequest]
    exact (haside.trans hpop.symm).append_left s.running
  | @load s which request l objs numComputedTokens hhead hconnector hunblocked hcomputed =>
    have hpop := self.waitingQueues_popRequest hhead l.stepSkippedWaiting
    have haside := self.waitingQueues_prepend (self.popRequest which s) objs
      l.stepSkippedWaiting request
    change ((self.popRequest which s).running ++ _).Perm _
    rw [running_popRequest]
    exact (haside.trans hpop.symm).append_left s.running
  | @admitWaiting s which request l l' numNewTokens numComputedTokens blocks w hhead hstatus
      hcomputed hsome hbound hlocals =>
    have hpop := self.waitingQueues_popRequest hhead l.stepSkippedWaiting
    have haside : l'.stepSkippedWaiting = l.stepSkippedWaiting := hlocals.stepSkippedWaiting
    rw [haside]
    change (((self.popRequest which s).running ++ [request]) ++ _).Perm _
    rw [running_popRequest, List.append_assoc]
    exact hpop.symm.append_left s.running

end Scheduler

/-! ## 2. The rule -/

/-- The statuses that the waiting queues may hold.  `skipped_waiting` may hold more
    than `waiting`. -/
structure QueueRule (scheduler : Scheduler W) where
  waiting : RequestStatus → Prop
  skipped : RequestStatus → Prop
  skipped_of_waiting : ∀ status, waiting status → skipped status
  unfinished : ∀ status, skipped status → status ≠ .running ∧ status.isFinished = false
  waiting_waiting : waiting .waiting
  waiting_preempted : waiting .preempted
  skipped_remoteKvs : scheduler.hasConnector = true → skipped .waitingForRemoteKvs

/-- The queues are in order. -/
structure QueuesInOrder {scheduler : Scheduler W} (rule : QueueRule scheduler) (s : SchedulerState W)
    (aside : List Ref) : Prop where
  nodup : (heldQueues s aside).Nodup
  running : ∀ x ∈ s.running, (s.objs x).status = .running
  waiting : ∀ x ∈ s.waiting, rule.waiting (s.objs x).status
  skipped : ∀ x, x ∈ s.skippedWaiting ∨ x ∈ aside → rule.skipped (s.objs x).status

namespace QueuesInOrder

variable {self : Scheduler W} {rule : QueueRule self} {s s' : SchedulerState W}
  {aside aside' : List Ref}

theorem skipped_of_mem (h : QueuesInOrder rule s aside) {x : Ref}
    (hx : x ∈ waitingQueues s aside) : rule.skipped (s.objs x).status := by
  rcases mem_waitingQueues.mp hx with hx | hx
  · exact rule.skipped_of_waiting _ (h.waiting x hx)
  · exact h.skipped x hx

theorem status_ne (h : QueuesInOrder rule s aside) {x : Ref} (hx : x ∈ waitingQueues s aside) :
    (s.objs x).status ≠ .running :=
  (rule.unfinished _ (h.skipped_of_mem hx)).1

/-- No finished request is queued. -/
theorem unfinished (h : QueuesInOrder rule s aside) {x : Ref} (hx : x ∈ heldQueues s aside) :
    (s.objs x).isFinished = false := by
  rcases mem_heldQueues.mp hx with hx | hx
  · rw [Request.isFinished, h.running x hx]
    rfl
  · exact (rule.unfinished _ (h.skipped_of_mem hx)).2

/-- The RUNNING requests are in `running`. -/
theorem mem_running (h : QueuesInOrder rule s aside) {x : Ref} (hx : x ∈ heldQueues s aside)
    (hstatus : (s.objs x).status = .running) : x ∈ s.running := by
  rcases mem_heldQueues.mp hx with hx | hx
  · exact hx
  · exact absurd hstatus (h.status_ne hx)

theorem ne_of_running (h : QueuesInOrder rule s aside) {x y : Ref} (hx : x ∈ s.running)
    (hy : y ∈ waitingQueues s aside) : x ≠ y := by
  rintro rfl
  exact h.status_ne hy (h.running x hx)

/-- Statuses stayed, and requests were moved among the waiting queues only. -/
theorem of_same (h : QueuesInOrder rule s aside) (hnodup : (heldQueues s' aside').Nodup)
    (hrunning : ∀ x ∈ s'.running, x ∈ s.running) (hwaiting : ∀ x ∈ s'.waiting, x ∈ s.waiting)
    (hskipped : ∀ x, x ∈ s'.skippedWaiting ∨ x ∈ aside' → x ∈ waitingQueues s aside)
    (hstatus : ∀ x ∈ heldQueues s' aside', (s'.objs x).status = (s.objs x).status) :
    QueuesInOrder rule s' aside' where
  nodup := hnodup
  running := by
    intro x hx
    rw [hstatus x (mem_heldQueues.mpr (Or.inl hx))]
    exact h.running x (hrunning x hx)
  waiting := by
    intro x hx
    rw [hstatus x (mem_heldQueues.mpr (Or.inr (mem_waitingQueues.mpr (Or.inl hx))))]
    exact h.waiting x (hwaiting x hx)
  skipped := by
    intro x hx
    rw [hstatus x (mem_heldQueues.mpr (Or.inr (mem_waitingQueues.mpr (Or.inr hx))))]
    exact h.skipped_of_mem (hskipped x hx)

end QueuesInOrder

/-! ## 3. `schedule()` keeps the queues in order -/

namespace Scheduler

variable {self : Scheduler W} {rule : QueueRule self}

theorem RunningEffect.inOrder {p p' : Frame W} (h : self.RunningEffect p p')
    (hp : QueuesInOrder rule p.1 p.2.stepSkippedWaiting) :
    QueuesInOrder rule p'.1 p'.2.stepSkippedWaiting := by
  have hnodup := h.perm.nodup_iff.mpr hp.nodup
  cases h with
  | touch s l w => exact ⟨hnodup, hp.running, hp.waiting, hp.skipped⟩
  | pass s l reqIndex scheduledLoras => exact ⟨hnodup, hp.running, hp.waiting, hp.skipped⟩
  | @preempt s l l' victim rest w hvictim hstatus hlocals =>
    have haside : l'.stepSkippedWaiting = l.stepSkippedWaiting := by
      rcases hlocals with rfl | ⟨numTokens, rfl⟩
      · rfl
      · rfl
    have hrunning : (victim :: rest).Nodup := hvictim.nodup_iff.mp (List.nodup_append.mp hp.nodup).1
    have hmem : victim ∈ s.running := hvictim.mem_iff.mpr List.mem_cons_self
    have hobjs : ∀ x, x ≠ victim →
        ((self.afterPreempt { s with running := rest } victim w).objs x).status =
          (s.objs x).status := by
      intro x hx
      exact congrArg Request.status (Function.update_of_ne hx _ _)
    constructor
    · exact hnodup
    · intro x hx
      have hx : x ∈ rest := hx
      rw [hobjs x (fun heq => (List.nodup_cons.mp hrunning).1 (heq ▸ hx))]
      exact hp.running x (hvictim.mem_iff.mpr (List.mem_cons_of_mem _ hx))
    · intro x hx
      rcases self.mem_prependRequest.mp hx with heq | hx
      · rw [heq, afterPreempt, SchedulerState.objs_updateRequest_self]
        exact rule.waiting_preempted
      · rw [hobjs x (hp.ne_of_running hmem (mem_waitingQueues.mpr (Or.inl hx))).symm]
        exact hp.waiting x hx
    · intro x hx
      have hx : x ∈ s.skippedWaiting ∨ x ∈ l.stepSkippedWaiting := by
        rw [← haside]
        exact hx
      rw [hobjs x (hp.ne_of_running hmem (mem_waitingQueues.mpr (Or.inr hx))).symm]
      exact hp.skipped x hx
  | @schedule s l l' request numNewTokens newBlocks w hrunning hsome hbound hlocals =>
    apply hp.of_same hnodup
    · exact fun x hx => hx
    · exact fun x hx => hx
    · intro x hx
      rw [hlocals.stepSkippedWaiting] at hx
      exact mem_waitingQueues.mpr (Or.inr hx)
    · intro x _
      rw [SchedulerState.objs_updateRequest]
      split
      · rename_i heq
        rw [heq]
        rfl
      · rfl

/-- A promoted request is WAITING or PREEMPTED, the others stay as they are. -/
theorem Promotion.statuses {s s' : SchedulerState W} {request : Ref}
    (h : self.Promotion s request s') :
    ((s'.objs request).status = .waiting ∨ (s'.objs request).status = .preempted) ∧
      s'.running = s.running ∧ s'.waiting = s.waiting ∧ s'.skippedWaiting = s.skippedWaiting := by
  refine ⟨h.status, ?_⟩
  cases h with
  | remoteKvs => exact ⟨rfl, rfl, rfl⟩
  | grammar => exact ⟨rfl, rfl, rfl⟩
  | toolCall => exact ⟨rfl, rfl, rfl⟩

theorem WaitingEffect.inOrder {p p' : Frame W} (h : self.WaitingEffect p p')
    (hp : QueuesInOrder rule p.1 p.2.stepSkippedWaiting) :
    QueuesInOrder rule p'.1 p'.2.stepSkippedWaiting := by
  have hnodup := h.perm.nodup_iff.mpr hp.nodup
  have hhead : ∀ {s : SchedulerState W} {l : StepLocals} {which : WaitingQueue} {request : Ref},
      (queue s which).head? = some request → request ∈ waitingQueues s l.stepSkippedWaiting := by
    intro s l which request hrequest
    exact mem_waitingQueues.mpr (heldWaiting_of_head hrequest)
  -- the head does not occur a second time
  have hpopped : ∀ {s : SchedulerState W} {l : StepLocals} {which : WaitingQueue} {request : Ref},
      (queue s which).head? = some request → (heldQueues s l.stepSkippedWaiting).Nodup →
      request ∉ waitingQueues (self.popRequest which s) l.stepSkippedWaiting := by
    intro s l which request hrequest hheld
    have hperm := self.waitingQueues_popRequest hrequest l.stepSkippedWaiting
    have hwaiting := hperm.nodup_iff.mp (List.nodup_append.mp hheld).2.1
    exact (List.nodup_cons.mp hwaiting).1
  have hleft : ∀ {s : SchedulerState W} {which : WaitingQueue} {x : Ref},
      (x ∈ (self.popRequest which s).waiting → x ∈ s.waiting) ∧
        (x ∈ (self.popRequest which s).skippedWaiting → x ∈ s.skippedWaiting) :=
    self.mem_of_mem_popRequest
  cases h with
  | touch s l w => exact ⟨hnodup, hp.running, hp.waiting, hp.skipped⟩
  | examine l hrequest => exact ⟨hnodup, hp.running, hp.waiting, hp.skipped⟩
  | lookup l w hcomputed => exact ⟨hnodup, hp.running, hp.waiting, hp.skipped⟩
  | @promote s s' which request l hrequest hpromotion =>
    obtain ⟨hstatus, hrunning, hwaiting, hskipped⟩ := hpromotion.statuses
    have hpromoted : rule.waiting (s'.objs request).status := by
      rcases hstatus with hstatus | hstatus
      · rw [hstatus]
        exact rule.waiting_waiting
      · rw [hstatus]
        exact rule.waiting_preempted
    constructor
    · exact hnodup
    · intro x hx
      rw [hrunning] at hx
      rw [hpromotion.objs_of_ne (hp.ne_of_running hx (hhead hrequest))]
      exact hp.running x hx
    · intro x hx
      rw [hwaiting] at hx
      by_cases heq : x = request
      · rw [heq]
        exact hpromoted
      · rw [hpromotion.objs_of_ne heq]
        exact hp.waiting x hx
    · intro x hx
      rw [hskipped] at hx
      by_cases heq : x = request
      · rw [heq]
        exact rule.skipped_of_waiting _ hpromoted
      · rw [hpromotion.objs_of_ne heq]
        exact hp.skipped x hx
  | @skip s which request l hrequest =>
    apply hp.of_same hnodup
    · intro x hx
      rwa [running_popRequest] at hx
    · exact fun x hx => hleft.1 hx
    · rintro x (hx | hx)
      · exact mem_waitingQueues.mpr (Or.inr (Or.inl (hleft.2 hx)))
      · rcases self.mem_prependRequest.mp hx with rfl | hx
        · exact hhead hrequest
        · exact mem_waitingQueues.mpr (Or.inr (Or.inr hx))
    · intro x _
      rw [show (self.popRequest which s).objs x = s.objs x by cases which <;> rfl]
  | @load s which request l objs numComputedTokens hrequest hconnector hunblocked hcomputed =>
    have hobjs : ∀ x, x ≠ request →
        (((self.popRequest which s).updateRequest request fun r =>
          { r with status := .waitingForRemoteKvs, numComputedTokens }).objs x).status =
          (s.objs x).status := by
      intro x hx
      rw [SchedulerState.objs_updateRequest_of_ne _ _ hx]
      cases which <;> rfl
    have hmissing := hpopped (l := l) hrequest hp.nodup
    constructor
    · exact hnodup
    · intro x hx
      have hx : x ∈ s.running := by rwa [← self.running_popRequest which s]
      rw [hobjs x (hp.ne_of_running hx (hhead hrequest))]
      exact hp.running x hx
    · intro x hx
      rw [hobjs x (fun heq => hmissing (mem_waitingQueues.mpr (Or.inl (heq ▸ hx))))]
      exact hp.waiting x (hleft.1 hx)
    · intro x hx
      by_cases heq : x = request
      · rw [heq, SchedulerState.objs_updateRequest_self]
        exact rule.skipped_remoteKvs hconnector
      · rw [hobjs x heq]
        rcases hx with hx | hx
        · exact hp.skipped x (Or.inl (hleft.2 hx))
        · rcases self.mem_prependRequest.mp hx with hx | hx
          · exact absurd hx heq
          · exact hp.skipped x (Or.inr hx)
  | @admitWaiting s which request l l' numNewTokens numComputedTokens blocks w hrequest hstatus
      hcomputed hsome hbound hlocals =>
    have hobjs : ∀ x, x ≠ request →
        ((((self.popRequest which s).startRunning request w).updateRequest request fun r =>
          { r with status := .running, numComputedTokens }).objs x).status =
          (s.objs x).status := by
      intro x hx
      rw [SchedulerState.objs_updateRequest_of_ne _ _ hx]
      cases which <;> rfl
    have hmissing := hpopped (l := l) hrequest hp.nodup
    have haside : l'.stepSkippedWaiting = l.stepSkippedWaiting := hlocals.stepSkippedWaiting
    constructor
    · exact hnodup
    · intro x hx
      by_cases heq : x = request
      · rw [heq, SchedulerState.objs_updateRequest_self]
      · rw [hobjs x heq]
        have hx : x ∈ (self.popRequest which s).running ++ [request] := hx
        rw [running_popRequest, List.mem_append, List.mem_singleton] at hx
        rcases hx with hx | hx
        · exact hp.running x hx
        · exact absurd hx heq
    · intro x hx
      rw [hobjs x (fun heq => hmissing (mem_waitingQueues.mpr (Or.inl (heq ▸ hx))))]
      exact hp.waiting x (hleft.1 hx)
    · intro x hx
      have hx : x ∈ (self.popRequest which s).skippedWaiting ∨ x ∈ l.stepSkippedWaiting := by
        rw [← haside]
        exact hx
      rw [hobjs x (fun heq => hmissing (mem_waitingQueues.mpr (Or.inr (heq ▸ hx))))]
      rcases hx with hx | hx
      · exact hp.skipped x (Or.inl (hleft.2 hx))
      · exact hp.skipped x (Or.inr hx)

/-- The requests set aside are put back into `skipped_waiting`. -/
theorem requeueSkipped_perm (s : SchedulerState W) (l : StepLocals) :
    (self.requeueSkipped s l).Perm (s.skippedWaiting ++ l.stepSkippedWaiting) := by
  unfold requeueSkipped
  split
  · rename_i hnone
    rw [hnone, List.append_nil]
  · exact (self.requestQueue.prependRequests_perm s.objs s.skippedWaiting
      l.stepSkippedWaiting).trans List.perm_append_comm

/-- A `schedule()` call loses no request and copies none. -/
theorem Scheduled.perm {s s' : SchedulerState W} {afterRunning afterWaiting : Frame W}
    {out : SchedulerOutput} (h : self.Scheduled s afterRunning afterWaiting out s') :
    (heldQueues s' []).Perm (heldQueues s []) := by
  have hrunning : (heldQueues afterRunning.1 afterRunning.2.stepSkippedWaiting).Perm
      (heldQueues s []) :=
    invariant_of_chain
      (I := fun p : Frame W => (heldQueues p.1 p.2.stepSkippedWaiting).Perm (heldQueues s []))
      (fun _ _ heffect hp => heffect.perm.trans hp) h.running (List.Perm.refl _)
  have hwaiting : (heldQueues afterWaiting.1 afterWaiting.2.stepSkippedWaiting).Perm
      (heldQueues s []) :=
    invariant_of_chain
      (I := fun p : Frame W => (heldQueues p.1 p.2.stepSkippedWaiting).Perm (heldQueues s []))
      (fun _ _ heffect hp => heffect.perm.trans hp) h.waiting hrunning
  apply List.Perm.trans _ hwaiting
  unfold heldQueues waitingQueues
  rw [h.final.running, h.final.waiting, h.final.skippedWaiting, List.append_nil]
  exact ((requeueSkipped_perm _ _).append_left _).append_left _

/-- **`schedule()` keeps the queues in order.** -/
theorem Scheduled.inOrder {s s' : SchedulerState W} {afterRunning afterWaiting : Frame W}
    {out : SchedulerOutput} (h : self.Scheduled s afterRunning afterWaiting out s')
    (hs : QueuesInOrder rule s []) : QueuesInOrder rule s' [] := by
  have hrunning : QueuesInOrder rule afterRunning.1 afterRunning.2.stepSkippedWaiting :=
    invariant_of_chain (I := fun p : Frame W => QueuesInOrder rule p.1 p.2.stepSkippedWaiting)
      (fun _ _ heffect hp => heffect.inOrder hp) h.running hs
  have hwaiting : QueuesInOrder rule afterWaiting.1 afterWaiting.2.stepSkippedWaiting :=
    invariant_of_chain (I := fun p : Frame W => QueuesInOrder rule p.1 p.2.stepSkippedWaiting)
      (fun _ _ heffect hp => heffect.inOrder hp) h.waiting hrunning
  have hfinal := h.final
  apply hwaiting.of_same
  · exact h.perm.nodup_iff.mpr hs.nodup
  · intro x hx
    rwa [hfinal.running] at hx
  · intro x hx
    rwa [hfinal.waiting] at hx
  · rintro x (hx | hx)
    · rw [hfinal.skippedWaiting] at hx
      exact mem_waitingQueues.mpr (Or.inr (self.mem_requeueSkipped.mp hx))
    · cases hx
  · exact fun x _ => hfinal.status x

end Scheduler

end Edmm
