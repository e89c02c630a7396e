/-
  Edmm/Registry.lean
  ==================
  **The registry of requests over runs.**

  `self.requests` names one live request for each id, and a request in a queue
  that is not finished is the one registered under its id.  One thing could break
  this: a finished request that is still in a waiting queue can be sent to load
  its KV cache, which makes it unfinished again.  So the invariant asks that with
  a KV connector no finished request waits when `schedule()` is called
  (`NoFinishedWaiting`).
-/
import Edmm.OperationEffects

namespace Edmm

open Program

variable {W : Type}

/-! ## 1. Queues -/

/-- The request is in one of the three queues. -/
def Queued (s : SchedulerState W) (x : Ref) : Prop :=
  x ∈ s.running ∨ x ∈ s.waiting ∨ x ∈ s.skippedWaiting

/-- The request waits, or is set aside by the WAITING loop. -/
def HeldWaiting (p : Scheduler.Frame W) (x : Ref) : Prop :=
  x ∈ p.1.waiting ∨ x ∈ p.1.skippedWaiting ∨ x ∈ p.2.stepSkippedWaiting

/-- The request is in one of the queues within `schedule()`. -/
def Held (p : Scheduler.Frame W) (x : Ref) : Prop := x ∈ p.1.running ∨ HeldWaiting p x

/-- With a KV connector, no finished request waits. -/
def NoFinishedWaiting (self : Scheduler W) (s : SchedulerState W) : Prop :=
  self.hasConnector = true → ∀ x, x ∈ s.waiting ∨ x ∈ s.skippedWaiting →
    (s.objs x).isFinished = false

namespace Scheduler

variable (self : Scheduler W)

theorem mem_queue_of_head {s : SchedulerState W} {which : WaitingQueue} {request : Ref}
    (h : (queue s which).head? = some request) :
    request ∈ s.waiting ∨ request ∈ s.skippedWaiting := by
  have hmem := List.mem_of_mem_head? h
  cases which with
  | waiting => exact Or.inl hmem
  | skippedWaiting => exact Or.inr hmem

theorem heldWaiting_of_head {s : SchedulerState W} {l : StepLocals} {which : WaitingQueue}
    {x : Ref} (h : (queue s which).head? = some x) : HeldWaiting (s, l) x := by
  rcases mem_queue_of_head h with hx | hx
  · exact Or.inl hx
  · exact Or.inr (Or.inl hx)

theorem mem_of_mem_popRest {s : SchedulerState W} {queue : List Ref} {x : Ref}
    (h : x ∈ self.requestQueue.popRest s.objs queue) : x ∈ queue :=
  List.mem_of_mem_tail ((self.requestQueue.popRest_perm s.objs queue).mem_iff.mp h)

/-- What is left in the waiting queues was there. -/
theorem mem_of_mem_popRequest {s : SchedulerState W} {which : WaitingQueue} {x : Ref} :
    (x ∈ (self.popRequest which s).waiting → x ∈ s.waiting) ∧
      (x ∈ (self.popRequest which s).skippedWaiting → x ∈ s.skippedWaiting) := by
  cases which with
  | waiting => exact ⟨self.mem_of_mem_popRest, id⟩
  | skippedWaiting => exact ⟨id, self.mem_of_mem_popRest⟩

@[simp] theorem running_popRequest (which : WaitingQueue) (s : SchedulerState W) :
    (self.popRequest which s).running = s.running := by
  cases which <;> rfl

@[simp] theorem requests_popRequest (which : WaitingQueue) (s : SchedulerState W) :
    (self.popRequest which s).requests = s.requests := by
  cases which <;> rfl

@[simp] theorem nextRef_popRequest (which : WaitingQueue) (s : SchedulerState W) :
    (self.popRequest which s).nextRef = s.nextRef := by
  cases which <;> rfl

@[simp] theorem trace_popRequest (which : WaitingQueue) (s : SchedulerState W) :
    (self.popRequest which s).trace = s.trace := by
  cases which <;> rfl

@[simp] theorem edmmHook_popRequest (which : WaitingQueue) (s : SchedulerState W) :
    (self.popRequest which s).edmmHook = s.edmmHook := by
  cases which <;> rfl

theorem mem_prependRequest {objs : Ref → Request} {queue : List Ref} {request x : Ref} :
    x ∈ self.requestQueue.prependRequest objs queue request ↔ x = request ∨ x ∈ queue := by
  rw [(self.requestQueue.prependRequest_perm objs queue request).mem_iff, List.mem_cons]

theorem mem_addRequest {objs : Ref → Request} {queue : List Ref} {request x : Ref} :
    x ∈ self.requestQueue.addRequest objs queue request ↔ x = request ∨ x ∈ queue := by
  rw [(self.requestQueue.addRequest_perm objs queue request).mem_iff, List.mem_cons]

theorem mem_removeRequests {objs : Ref → Request} {queue removed : List Ref} {x : Ref} :
    x ∈ self.requestQueue.removeRequests objs queue removed ↔ x ∈ queue ∧ x ∉ removed := by
  rw [(self.requestQueue.removeRequests_perm objs queue removed).mem_iff, List.mem_filter]
  simp

theorem mem_requeueSkipped {s : SchedulerState W} {l : StepLocals} {x : Ref} :
    x ∈ self.requeueSkipped s l ↔ x ∈ s.skippedWaiting ∨ x ∈ l.stepSkippedWaiting := by
  unfold requeueSkipped
  split
  · rename_i hnone
    rw [hnone]
    simp
  · rw [(self.requestQueue.prependRequests_perm s.objs s.skippedWaiting
      l.stepSkippedWaiting).mem_iff, List.mem_append, or_comm]

variable {self}

/-- The RUNNING loop moves requests from `running` to `waiting`. -/
theorem RunningEffect.held {p p' : Frame W} (h : self.RunningEffect p p') (x : Ref) :
    (x ∈ p'.1.running → x ∈ p.1.running) ∧
      (HeldWaiting p' x → HeldWaiting p x ∨ (x ∈ p.1.running ∧
        (p.1.objs x).status = .running)) := by
  cases h with
  | touch s l w => exact ⟨id, Or.inl⟩
  | pass s l reqIndex scheduledLoras => exact ⟨id, Or.inl⟩
  | @preempt s l l' victim rest w hvictim hstatus hlocals =>
    have hskipped : l'.stepSkippedWaiting = l.stepSkippedWaiting := by
      rcases hlocals with rfl | ⟨numTokens, rfl⟩
      · rfl
      · rfl
    constructor
    · intro hx
      exact hvictim.mem_iff.mpr (List.mem_cons_of_mem _ hx)
    · rintro (hx | hx | hx)
      · rcases self.mem_prependRequest.mp hx with rfl | hx
        · exact Or.inr ⟨hvictim.mem_iff.mpr List.mem_cons_self, hstatus⟩
        · exact Or.inl (Or.inl hx)
      · exact Or.inl (Or.inr (Or.inl hx))
      · exact Or.inl (Or.inr (Or.inr (hskipped ▸ hx)))
  | schedule newBlocks w hrunning hsome hbound hlocals =>
    refine ⟨id, fun hx => Or.inl ?_⟩
    rcases hx with hx | hx | hx
    · exact Or.inl hx
    · exact Or.inr (Or.inl hx)
    · rw [hlocals.stepSkippedWaiting] at hx
      exact Or.inr (Or.inr hx)

/-- The WAITING loop moves requests from the waiting queues to `running`. -/
theorem WaitingEffect.held {p p' : Frame W} (h : self.WaitingEffect p p') (x : Ref) :
    (x ∈ p'.1.running → x ∈ p.1.running ∨ (HeldWaiting p x ∧
      ((p.1.objs x).status = .waiting ∨ (p.1.objs x).status = .preempted))) ∧
      (HeldWaiting p' x → HeldWaiting p x) := by
  have hpop : ∀ {s : SchedulerState W} {which : WaitingQueue} {l : StepLocals},
      x ∈ (self.popRequest which s).waiting ∨ x ∈ (self.popRequest which s).skippedWaiting ∨
        x ∈ l.stepSkippedWaiting → HeldWaiting (s, l) x := by
    rintro s which l (hx | hx | hx)
    · exact Or.inl (self.mem_of_mem_popRequest.1 hx)
    · exact Or.inr (Or.inl (self.mem_of_mem_popRequest.2 hx))
    · exact Or.inr (Or.inr hx)
  cases h with
  | touch s l w => exact ⟨Or.inl, id⟩
  | examine l hhead => exact ⟨Or.inl, id⟩
  | lookup l w hcomputed => exact ⟨Or.inl, id⟩
  | promote l hhead hpromotion =>
    cases hpromotion <;> exact ⟨Or.inl, id⟩
  | skip l hrequest =>
    refine ⟨fun hx => Or.inl (by rwa [running_popRequest] at hx), ?_⟩
    rintro (hx | hx | hx)
    · exact hpop (Or.inl hx)
    · exact hpop (Or.inr (Or.inl hx))
    · rcases self.mem_prependRequest.mp hx with rfl | hx
      · exact heldWaiting_of_head hrequest
      · exact Or.inr (Or.inr hx)
  | load objs numComputedTokens hrequest hconnector hunblocked hcomputed =>
    refine ⟨fun hx => Or.inl (by simpa using hx), ?_⟩
    rintro (hx | hx | hx)
    · exact hpop (Or.inl hx)
    · exact hpop (Or.inr (Or.inl hx))
    · rcases self.mem_prependRequest.mp hx with rfl | hx
      · exact heldWaiting_of_head hrequest
      · exact Or.inr (Or.inr hx)
  | @admitWaiting s which request l l' numNewTokens numComputedTokens blocks w hrequest hstatus
      hcomputed hsome hbound hlocals =>
    constructor
    · intro hx
      have hx : x ∈ (self.popRequest which s).running ++ [request] := hx
      rw [running_popRequest, List.mem_append, List.mem_singleton] at hx
      rcases hx with hx | rfl
      · exact Or.inl hx
      · exact Or.inr ⟨heldWaiting_of_head hrequest, hstatus⟩
    · rintro (hx | hx | hx)
      · exact hpop (Or.inl hx)
      · exact hpop (Or.inr (Or.inl hx))
      · have hx : x ∈ l.stepSkippedWaiting := by
          rw [← show _ = l.stepSkippedWaiting from hlocals.stepSkippedWaiting]
          exact hx
        exact Or.inr (Or.inr hx)

/-- Between the two loops of `schedule()` no request is lost or added. -/
theorem RunningEffect.held_iff {p p' : Frame W} (h : self.RunningEffect p p') {x : Ref}
    (hx : Held p' x) : Held p x := by
  rcases hx with hx | hx
  · exact Or.inl ((h.held x).1 hx)
  · rcases (h.held x).2 hx with hx | hx
    · exact Or.inr hx
    · exact Or.inl hx.1

theorem WaitingEffect.held_iff {p p' : Frame W} (h : self.WaitingEffect p p') {x : Ref}
    (hx : Held p' x) : Held p x := by
  rcases hx with hx | hx
  · rcases (h.held x).1 hx with hx | hx
    · exact Or.inl hx
    · exact Or.inr hx.1
  · exact Or.inr ((h.held x).2 hx)

end Scheduler

/-! ## 2. The invariant -/

/-- The registry names the requests in `held`, where these are not finished. -/
structure RegistryNames (s : SchedulerState W) (held : Ref → Prop) : Prop where
  registry : RegistryOk s
  heldKnown : ∀ x, held x → x < s.nextRef
  registered : ∀ x, held x → (s.objs x).isFinished = false →
    s.requests.get? (s.objs x).requestId = some x

/-- The same requests are registered, under the same ids. -/
structure SameRegistry (s s' : SchedulerState W) : Prop where
  requests : s'.requests = s.requests
  nextRef : s'.nextRef = s.nextRef
  requestId : ∀ x, (s'.objs x).requestId = (s.objs x).requestId

namespace SameRegistry

variable {s s' s'' : SchedulerState W}

theorem refl (s : SchedulerState W) : SameRegistry s s :=
  { requests := rfl, nextRef := rfl, requestId := fun _ => rfl }

theorem trans (h : SameRegistry s s') (h' : SameRegistry s' s'') : SameRegistry s s'' :=
  { requests := h'.requests.trans h.requests
    nextRef := h'.nextRef.trans h.nextRef
    requestId := fun x => (h'.requestId x).trans (h.requestId x) }

theorem updateRequest (h : SameRegistry s s') {request : Ref} {f : Request → Request}
    (hf : (f (s'.objs request)).requestId = (s'.objs request).requestId) :
    SameRegistry s (s'.updateRequest request f) :=
  { requests := h.requests
    nextRef := h.nextRef
    requestId := by
      intro x
      rw [SchedulerState.objs_updateRequest, ← h.requestId x]
      split
      · rename_i hx
        rw [hx, hf]
      · rfl }

theorem registryOk (h : SameRegistry s s') (hok : RegistryOk s) : RegistryOk s' := by
  apply hok.of_shrink h.requestId
  · intro reqId x hx
    rwa [h.requests] at hx
  · exact h.nextRef

end SameRegistry

namespace RegistryNames

variable {s s' : SchedulerState W} {held held' : Ref → Prop}

/-- Two unfinished requests in the queues have different ids. -/
theorem unique (h : RegistryNames s held) {x y : Ref} (hx : held x) (hy : held y)
    (hxunfinished : (s.objs x).isFinished = false) (hyunfinished : (s.objs y).isFinished = false)
    (hid : (s.objs x).requestId = (s.objs y).requestId) : x = y := by
  have hx' := h.registered x hx hxunfinished
  have hy' := h.registered y hy hyunfinished
  rw [hid, hy'] at hx'
  exact (Option.some.inj hx').symm

/-- The registry stays, and no finished request comes back. -/
theorem of_same (h : RegistryNames s held) (hsame : SameRegistry s s')
    (hheld : ∀ x, held' x → held x)
    (hunfinished : ∀ x, held' x → (s'.objs x).isFinished = false →
      (s.objs x).isFinished = false) : RegistryNames s' held' where
  registry := hsame.registryOk h.registry
  heldKnown := by
    intro x hx
    rw [hsame.nextRef]
    exact h.heldKnown x (hheld x hx)
  registered := by
    intro x hx hxunfinished
    rw [hsame.requests, hsame.requestId]
    exact h.registered x (hheld x hx) (hunfinished x hx hxunfinished)

/-- Forgetting the trace changes no name. -/
theorem traceless (h : RegistryNames s (Queued s)) :
    RegistryNames (Scheduler.traceless s) (Queued (Scheduler.traceless s)) :=
  h.of_same { requests := rfl, nextRef := rfl, requestId := fun _ => rfl } (fun _ hx => hx)
    (fun _ _ hx => hx)

/-- One registered request changes, and may enter a queue. -/
theorem of_request (h : RegistryNames s held) (request : Ref) (hsame : SameRegistry s s')
    (hregistered : s.requests.get? (s.objs request).requestId = some request)
    (hothers : ∀ x, x ≠ request → s'.objs x = s.objs x)
    (hheld : ∀ x, held' x → x ≠ request → held x) : RegistryNames s' held' where
  registry := hsame.registryOk h.registry
  heldKnown := by
    intro x hx
    rw [hsame.nextRef]
    by_cases hne : x = request
    · rw [hne]
      exact h.registry.known hregistered
    · exact h.heldKnown x (hheld x hx hne)
  registered := by
    intro x hx hxunfinished
    rw [hsame.requests, hsame.requestId]
    by_cases hne : x = request
    · rw [hne]
      exact hregistered
    · rw [hothers x hne] at hxunfinished
      exact h.registered x (hheld x hx hne) hxunfinished

/-- A finished request loses its registration. -/
theorem of_erase (h : RegistryNames s held) {request : Ref}
    (hregistered : s.requests.get? (s.objs request).requestId = some request)
    (hfinished : (s.objs request).isFinished = true) (hobjs : s'.objs = s.objs)
    (hnextRef : s'.nextRef = s.nextRef)
    (hrequests : s'.requests = s.requests.erase (s.objs request).requestId)
    (hheld : ∀ x, held' x → held x) : RegistryNames s' held' where
  registry := by
    apply h.registry.of_shrink
    · exact fun x => by rw [hobjs]
    · intro reqId x hx
      rw [hrequests, Dict.get?_erase] at hx
      split at hx
      · cases hx
      · exact hx
    · exact hnextRef
  heldKnown := by
    intro x hx
    rw [hnextRef]
    exact h.heldKnown x (hheld x hx)
  registered := by
    intro x hx hxunfinished
    rw [hobjs] at hxunfinished ⊢
    have hxregistered := h.registered x (hheld x hx) hxunfinished
    rw [hrequests, Dict.get?_erase_of_ne, hxregistered]
    intro hid
    rw [hid, hregistered] at hxregistered
    cases hxregistered
    rw [hfinished] at hxunfinished
    cases hxunfinished

end RegistryNames

/-! ## 3. `schedule()` -/

namespace Scheduler

variable {self : Scheduler W}

theorem RunningEffect.sameRegistry {p p' : Frame W} (h : self.RunningEffect p p') :
    SameRegistry p.1 p'.1 ∧
      ∀ x, (p'.1.objs x).isFinished = (p.1.objs x).isFinished := by
  cases h with
  | touch s l w =>
    exact ⟨{ requests := rfl, nextRef := rfl, requestId := fun _ => rfl }, fun _ => rfl⟩
  | pass s l reqIndex scheduledLoras => exact ⟨SameRegistry.refl s, fun _ => rfl⟩
  | @preempt s l l' victim rest w hvictim hstatus hlocals =>
    constructor
    · apply SameRegistry.updateRequest
      · exact { requests := rfl, nextRef := rfl, requestId := fun _ => rfl }
      · rfl
    · intro x
      change Request.isFinished ((SchedulerState.updateRequest _ victim preempted).objs x) = _
      rw [SchedulerState.objs_updateRequest]
      split
      · rename_i hx
        rw [hx]
        change RequestStatus.preempted.isFinished = (s.objs victim).status.isFinished
        rw [hstatus]
        rfl
      · rfl
  | @schedule s l l' request numNewTokens newBlocks w hrunning hsome hbound hlocals =>
    constructor
    · apply SameRegistry.updateRequest
      · exact { requests := rfl, nextRef := rfl, requestId := fun _ => rfl }
      · rfl
    · intro x
      change Request.isFinished ((SchedulerState.updateRequest _ request clearSpecTokens).objs x) = _
      rw [SchedulerState.objs_updateRequest]
      split
      · rename_i hx
        rw [hx]
        rfl
      · rfl

theorem Promotion.sameRegistry {s s' : SchedulerState W} {request : Ref}
    (h : self.Promotion s request s') : SameRegistry s s' := by
  cases h with
  | remoteKvs loaded w finishedRecving failedRecving hconnector hstatus hloaded =>
    apply SameRegistry.updateRequest
    · exact { requests := rfl, nextRef := rfl, requestId := fun _ => rfl }
    · rcases hloaded with rfl | rfl
      · rfl
      · rfl
  | grammar hstatus =>
    apply SameRegistry.updateRequest
    · exact { requests := rfl, nextRef := rfl, requestId := fun _ => rfl }
    · rfl
  | toolCall hstatus henabled hhook hready =>
    apply SameRegistry.updateRequest
    · exact { requests := rfl, nextRef := rfl, requestId := fun _ => rfl }
    · rfl

/-- Only the promoted request changes, which was blocked before. -/
theorem Promotion.objs_of_ne {s s' : SchedulerState W} {request x : Ref}
    (h : self.Promotion s request s') (hx : x ≠ request) : s'.objs x = s.objs x := by
  cases h <;> exact Function.update_of_ne hx _ _

theorem Promotion.blocked {s s' : SchedulerState W} {request : Ref}
    (h : self.Promotion s request s') :
    (s.objs request).status.isBlockedWaitingStatus = true := by
  cases h with
  | remoteKvs loaded w finishedRecving failedRecving hconnector hstatus hloaded =>
    rw [hstatus]
    rfl
  | grammar hstatus =>
    rw [hstatus]
    rfl
  | toolCall hstatus henabled hhook hready =>
    rw [hstatus]
    rfl

theorem WaitingEffect.sameRegistry {p p' : Frame W} (h : self.WaitingEffect p p') :
    SameRegistry p.1 p'.1 := by
  cases h with
  | touch s l w => exact { requests := rfl, nextRef := rfl, requestId := fun _ => rfl }
  | examine l hhead => exact { requests := rfl, nextRef := rfl, requestId := fun _ => rfl }
  | lookup l w hcomputed => exact { requests := rfl, nextRef := rfl, requestId := fun _ => rfl }
  | promote l hhead hpromotion => exact hpromotion.sameRegistry
  | skip l hhead =>
    exact
      { requests := self.requests_popRequest _ _
        nextRef := self.nextRef_popRequest _ _
        requestId := fun x => by rw [objs_popRequest] }
  | load objs numComputedTokens hhead hconnector hunblocked hcomputed =>
    dsimp only
    apply SameRegistry.updateRequest
    · exact
        { requests := self.requests_popRequest _ _
          nextRef := self.nextRef_popRequest _ _
          requestId := fun x => by rw [objs_popRequest] }
    · rfl
  | admitWaiting blocks w hhead hstatus hcomputed hsome hbound hlocals =>
    dsimp only
    apply SameRegistry.updateRequest
    · exact
        { requests := self.requests_popRequest _ _
          nextRef := self.nextRef_popRequest _ _
          requestId := fun x => by
            change ((self.popRequest _ _).objs x).requestId = _
            rw [objs_popRequest] }
    · rfl

/-- The WAITING loop makes a request finished never, and unfinished only when it
    loads the KV cache of a request that waits. -/
theorem WaitingEffect.isFinished_cases {p p' : Frame W} (h : self.WaitingEffect p p')
    (x : Ref) : (p'.1.objs x).isFinished = (p.1.objs x).isFinished ∨
      (self.hasConnector = true ∧ HeldWaiting p x ∧ (p'.1.objs x).isFinished = false) := by
  cases h with
  | touch s l w => exact Or.inl rfl
  | examine l hrequest => exact Or.inl rfl
  | lookup l w hcomputed => exact Or.inl rfl
  | @promote s s' which request l hrequest hpromotion =>
    left
    by_cases hx : x = request
    · rw [hx]
      have hbefore := RequestStatus.isFinished_of_blocked hpromotion.blocked
      change (s'.objs request).status.isFinished = (s.objs request).status.isFinished
      rw [hbefore]
      rcases hpromotion.status with h | h
      · rw [h]
        rfl
      · rw [h]
        rfl
    · change Request.isFinished (s'.objs x) = Request.isFinished (s.objs x)
      rw [hpromotion.objs_of_ne hx]
  | skip l hrequest =>
    left
    change Request.isFinished ((self.popRequest _ _).objs x) = _
    rw [objs_popRequest]
  | @load s which request l objs numComputedTokens hrequest hconnector hunblocked hcomputed =>
    dsimp only
    rw [SchedulerState.objs_updateRequest, objs_popRequest]
    split
    · rename_i hx
      rw [hx]
      exact Or.inr ⟨hconnector, heldWaiting_of_head hrequest, rfl⟩
    · exact Or.inl rfl
  | @admitWaiting s which request l l' numNewTokens numComputedTokens blocks w hrequest hstatus
      hcomputed hsome hbound hlocals =>
    left
    dsimp only
    rw [SchedulerState.objs_updateRequest]
    split
    · rename_i hx
      rw [hx]
      change RequestStatus.running.isFinished = (s.objs request).status.isFinished
      rcases hstatus with h | h
      · rw [h]
        rfl
      · rw [h]
        rfl
    · change Request.isFinished ((self.popRequest which s).objs x) = _
      rw [objs_popRequest]

theorem WaitingEffect.unfinished {p p' : Frame W} (h : self.WaitingEffect p p')
    (hwaiting : self.hasConnector = true → ∀ x, HeldWaiting p x →
      (p.1.objs x).isFinished = false) (x : Ref) :
    (p'.1.objs x).isFinished = (p.1.objs x).isFinished := by
  rcases h.isFinished_cases x with hsame | ⟨hconnector, hheld, hunfinished⟩
  · exact hsame
  · rw [hunfinished, hwaiting hconnector x hheld]

/-- The registry and its invariant within `schedule()`. -/
structure FrameRegistered (scheduler : Scheduler W) (p : Frame W) : Prop where
  registered : RegistryNames p.1 (Held p)
  unfinished : scheduler.hasConnector = true → ∀ x, HeldWaiting p x →
    (p.1.objs x).isFinished = false

theorem RunningEffect.frameRegistered {p p' : Frame W} (h : self.RunningEffect p p')
    (hp : self.FrameRegistered p) : self.FrameRegistered p' where
  registered := hp.registered.of_same h.sameRegistry.1 (fun _ hx => h.held_iff hx)
    (fun x _ hx => by rwa [h.sameRegistry.2] at hx)
  unfinished := by
    intro hconnector x hx
    rw [h.sameRegistry.2]
    rcases (h.held x).2 hx with hx | ⟨_, hstatus⟩
    · exact hp.unfinished hconnector x hx
    · rw [Request.isFinished, hstatus]
      rfl

theorem WaitingEffect.frameRegistered {p p' : Frame W} (h : self.WaitingEffect p p')
    (hp : self.FrameRegistered p) : self.FrameRegistered p' where
  registered := hp.registered.of_same h.sameRegistry (fun _ hx => h.held_iff hx)
    (fun x _ hx => by rwa [h.unfinished hp.unfinished] at hx)
  unfinished := by
    intro hconnector x hx
    rw [h.unfinished hp.unfinished]
    exact hp.unfinished hconnector x ((h.held x).2 hx)

/-- The frame that `schedule()` starts with. -/
theorem frameRegistered_start {s : SchedulerState W} (h : RegistryNames s (Queued s))
    (hwaiting : NoFinishedWaiting self s) : self.FrameRegistered (s, self.startLocals s) where
  registered := by
    apply h.of_same (SameRegistry.refl s)
    · rintro x (hx | hx | hx | hx)
      · exact Or.inl hx
      · exact Or.inr (Or.inl hx)
      · exact Or.inr (Or.inr hx)
      · cases hx
    · exact fun _ _ hx => hx
  unfinished := by
    rintro hconnector x (hx | hx | hx)
    · exact hwaiting hconnector x (Or.inl hx)
    · exact hwaiting hconnector x (Or.inr hx)
    · cases hx

theorem AdvanceEffect.sameRegistry {items : List (RequestId × Int)} {s s' : SchedulerState W}
    (h : AdvanceEffect items s s') : SameRegistry s s' := by
  cases h with
  | advance hitem hregistered =>
    apply SameRegistry.updateRequest (SameRegistry.refl s)
    rfl

/-- `_update_after_schedule` changes two counters of the requests, nothing else. -/
theorem AdvanceEffects.unchanged {items : List (RequestId × Int)} {s s' : SchedulerState W}
    (h : AdvanceEffects items s s') :
    (∃ objs, s' = { s with objs }) ∧ ∀ x, ∃ numComputedTokens isPrefillChunk,
      s'.objs x = { s.objs x with numComputedTokens, isPrefillChunk } := by
  induction h with
  | refl => exact ⟨⟨s.objs, rfl⟩, fun x => ⟨_, _, rfl⟩⟩
  | tail _ last ih =>
    obtain ⟨⟨objs, rfl⟩, hobjs⟩ := ih
    cases last with
    | @advance item request hitem hregistered =>
      refine ⟨⟨_, rfl⟩, ?_⟩
      intro x
      obtain ⟨computed, chunk, hx⟩ := hobjs x
      rw [SchedulerState.objs_updateRequest]
      split
      · rename_i heq
        subst heq
        refine ⟨computed + item.2, decide (computed + item.2 <
          (s.objs x).numTokens + (s.objs x).numOutputPlaceholders), ?_⟩
        rw [hx]
        rfl
      · exact ⟨computed, chunk, hx⟩

theorem RunningEffects.sameRegistry {p p' : Frame W} (h : self.RunningEffects p p') :
    SameRegistry p.1 p'.1 :=
  invariant_of_chain (I := fun q : Frame W => SameRegistry p.1 q.1)
    (fun _ _ heffect hbefore => hbefore.trans heffect.sameRegistry.1) h (SameRegistry.refl p.1)

theorem WaitingEffects.sameRegistry {p p' : Frame W} (h : self.WaitingEffects p p') :
    SameRegistry p.1 p'.1 :=
  invariant_of_chain (I := fun q : Frame W => SameRegistry p.1 q.1)
    (fun _ _ heffect hbefore => hbefore.trans heffect.sameRegistry) h (SameRegistry.refl p.1)

/-- How the state after `schedule()` comes from the state after its two loops. -/
structure FinalState (scheduler : Scheduler W) (p : Frame W) (out : SchedulerOutput)
    (s' : SchedulerState W) : Prop where
  requests : s'.requests = p.1.requests
  nextRef : s'.nextRef = p.1.nextRef
  running : s'.running = p.1.running
  waiting : s'.waiting = p.1.waiting
  skippedWaiting : s'.skippedWaiting = scheduler.requeueSkipped p.1 p.2
  prevStepScheduledReqIds : s'.prevStepScheduledReqIds = out.numScheduledTokens.keys
  pauseState : s'.pauseState = p.1.pauseState
  edmmHook : s'.edmmHook = p.1.edmmHook
  trace : s'.trace = p.1.trace
  objs : ∀ x, ∃ numComputedTokens isPrefillChunk,
    s'.objs x = { p.1.objs x with numComputedTokens, isPrefillChunk }
  unscheduled : RegistryOk p.1 → ∀ x, (p.1.objs x).requestId ∉ out.numScheduledTokens.keys →
    s'.objs x = p.1.objs x

/-- A request without tokens in this step is not advanced. -/
theorem AdvanceEffects.objs_of_unscheduled {items : List (RequestId × Int)} {r : Ref}
    {s s' : SchedulerState W} (h : AdvanceEffects items s s') (hok : RegistryOk s)
    (hr : ∀ item ∈ items, item.1 ≠ (s.objs r).requestId) : s'.objs r = s.objs r := by
  have hinv : s'.objs r = s.objs r ∧ SameRegistry s s' := by
    apply invariant_of_chain (I := fun s' => s'.objs r = s.objs r ∧ SameRegistry s s') _ h
      ⟨rfl, SameRegistry.refl s⟩
    rintro s₁ s₂ heffect ⟨hobjs, hsame⟩
    refine ⟨?_, hsame.trans heffect.sameRegistry⟩
    cases heffect with
    | @advance item request hitem hregistered =>
      rw [SchedulerState.objs_updateRequest_of_ne _ _ _, hobjs]
      rintro rfl
      rw [hsame.requests] at hregistered
      exact hr item hitem (hok.carries hregistered).symm
  exact hinv.1

theorem Scheduled.final {s s' : SchedulerState W} {afterRunning afterWaiting : Frame W}
    {out : SchedulerOutput} (h : self.Scheduled s afterRunning afterWaiting out s') :
    self.FinalState afterWaiting out s' := by
  obtain ⟨w, s₁, hadvanced, rfl⟩ := h.advanced
  obtain ⟨⟨objs, rfl⟩, hobjs⟩ := hadvanced.unchanged
  exact
    { requests := rfl
      nextRef := rfl
      running := rfl
      waiting := rfl
      skippedWaiting := rfl
      prevStepScheduledReqIds := rfl
      pauseState := rfl
      edmmHook := rfl
      trace := rfl
      objs := hobjs
      unscheduled := by
        intro hok x hx
        apply AdvanceEffects.objs_of_unscheduled hadvanced
        · exact hok
        · intro item hitem hid
          apply hx
          rw [← show item.1 = (afterWaiting.1.objs x).requestId from hid]
          exact List.mem_map_of_mem hitem }

theorem FinalState.sameRegistry {p : Frame W} {out : SchedulerOutput} {s' : SchedulerState W}
    (h : self.FinalState p out s') : SameRegistry p.1 s' where
  requests := h.requests
  nextRef := h.nextRef
  requestId := by
    intro x
    obtain ⟨computed, chunk, hx⟩ := h.objs x
    rw [hx]

/-- `_update_after_schedule` does not change the status. -/
theorem FinalState.status {p : Frame W} {out : SchedulerOutput} {s' : SchedulerState W}
    (h : self.FinalState p out s') (x : Ref) : (s'.objs x).status = (p.1.objs x).status := by
  obtain ⟨computed, chunk, hx⟩ := h.objs x
  rw [hx]

theorem FinalState.queued {p : Frame W} {out : SchedulerOutput} {s' : SchedulerState W}
    (h : self.FinalState p out s') (x : Ref) : Queued s' x ↔ Held p x := by
  unfold Queued Held HeldWaiting
  rw [h.running, h.waiting, h.skippedWaiting, self.mem_requeueSkipped]

theorem Scheduled.sameRegistry {s s' : SchedulerState W} {afterRunning afterWaiting : Frame W}
    {out : SchedulerOutput} (h : self.Scheduled s afterRunning afterWaiting out s') :
    SameRegistry s s' :=
  ((RunningEffects.sameRegistry h.running).trans (WaitingEffects.sameRegistry h.waiting)).trans
    h.final.sameRegistry

theorem Scheduled.registered {s s' : SchedulerState W} {afterRunning afterWaiting : Frame W}
    {out : SchedulerOutput} (h : self.Scheduled s afterRunning afterWaiting out s')
    (hs : RegistryNames s (Queued s)) (hwaiting : NoFinishedWaiting self s) :
    self.FrameRegistered afterRunning ∧ self.FrameRegistered afterWaiting ∧
      RegistryNames s' (Queued s') := by
  have hrunning : self.FrameRegistered afterRunning :=
    invariant_of_chain (fun _ _ heffect hp => heffect.frameRegistered hp) h.running
      (frameRegistered_start hs hwaiting)
  have hafter : self.FrameRegistered afterWaiting :=
    invariant_of_chain (fun _ _ heffect hp => heffect.frameRegistered hp) h.waiting hrunning
  refine ⟨hrunning, hafter, ?_⟩
  apply hafter.registered.of_same h.final.sameRegistry
  · exact fun x hx => (h.final.queued x).mp hx
  · intro x _ hx
    rwa [Request.isFinished, h.final.status] at hx

/-! ## 4. The other operations -/

theorem FinishEffect.registered {finishedStatus : RequestStatus} {valid : List Ref}
    {s s' : SchedulerState W} (h : self.FinishEffect finishedStatus valid s s')
    (hs : RegistryNames s (Queued s)) : RegistryNames s' (Queued s') := by
  cases h with
  | @finish request delayed w finishedRecving failedRecving hvalid hregistered hunfinished
      hfinished hdelayed =>
    generalize hs₁ : SchedulerState.updateRequest
      { s with
        finishedRecvingKvReqIds := finishedRecving
        failedRecvingKvReqIds := failedRecving }
      request (fun r => { r with status := finishedStatus }) = s₁
    have hself : s₁.objs request = { s.objs request with status := finishedStatus } := by
      rw [← hs₁, SchedulerState.objs_updateRequest_self]
    have h₁ : RegistryNames s₁ (Queued s₁) := by
      subst hs₁
      apply hs.of_request request
      · apply SameRegistry.updateRequest
        · exact { requests := rfl, nextRef := rfl, requestId := fun _ => rfl }
        · rfl
      · exact hregistered
      · exact fun x hx => Function.update_of_ne hx _ _
      · exact fun x hx _ => hx
    have hregistered₁ : s₁.requests.get? (s₁.objs request).requestId = some request := by
      rw [hself, ← hs₁]
      exact hregistered
    cases delayed with
    | true =>
      exact h₁.of_same { requests := rfl, nextRef := rfl, requestId := fun _ => rfl }
        (fun _ hx => hx) (fun _ _ hx => hx)
    | false =>
      apply h₁.of_erase hregistered₁
      · rw [Request.isFinished, hself]
        exact hfinished
      · rfl
      · rfl
      · rfl
      · exact fun _ hx => hx

/-- Taking requests out of a queue adds none, whether or not there is one to take. -/
theorem mem_of_removeRequests {c : Prop} [Decidable c] {objs : Ref → Request}
    {queue removed : List Ref} {x : Ref}
    (h : x ∈ if c then queue else self.requestQueue.removeRequests objs queue removed) :
    x ∈ queue := by
  split at h
  · exact h
  · exact (self.mem_removeRequests.mp h).1

theorem waits_removeFromQueues {s : SchedulerState W} {valid : List Ref} {x : Ref}
    (h : x ∈ (self.removeFromQueues valid s).waiting ∨
      x ∈ (self.removeFromQueues valid s).skippedWaiting) :
    x ∈ s.waiting ∨ x ∈ s.skippedWaiting :=
  h.imp self.mem_of_removeRequests self.mem_of_removeRequests

theorem queued_removeFromQueues {s : SchedulerState W} {valid : List Ref} {x : Ref}
    (h : Queued (self.removeFromQueues valid s) x) : Queued s x := by
  rcases h with hx | hx
  · exact Or.inl (List.mem_filter.mp hx).1
  · exact Or.inr (waits_removeFromQueues hx)

theorem FinishedBy.registered {requestIds : Option (List RequestId)}
    {finishedStatus : RequestStatus} {s s' : SchedulerState W}
    (h : self.FinishedBy requestIds finishedStatus s s') (hs : RegistryNames s (Queued s)) :
    RegistryNames s' (Queued s') := by
  apply invariant_of_chain (I := fun s => RegistryNames s (Queued s))
    (fun _ _ heffect hbefore => heffect.registered hbefore) h.effects
  exact hs.of_same { requests := rfl, nextRef := rfl, requestId := fun _ => rfl }
    (fun _ hx => queued_removeFromQueues hx) (fun _ _ hx => hx)

/-- The answered request is registered under the id it carries. -/
theorem Answered.self_registered {out : SchedulerOutput} {mro : ModelRunnerOutput}
    {start s : SchedulerState W} {reqId : RequestId} {request : Ref} {r : Request} {stopped : Bool}
    (h : self.Answered out mro start s reqId request r stopped) :
    s.requests.get? (s.objs request).requestId = some request := by
  rw [h.carries]
  exact h.registered

theorem OutputEffect.registered {out : SchedulerOutput} {mro : ModelRunnerOutput}
    {start : SchedulerState W} {reqId : RequestId} {p p' : SchedulerState W × OutputLocals}
    (h : self.OutputEffect out mro start reqId p p') (hp : RegistryNames p.1 (Queued p.1)) :
    RegistryNames p'.1 (Queued p'.1) := by
  cases h with
  | touch s acc w =>
    exact hp.of_same { requests := rfl, nextRef := rfl, requestId := fun _ => rfl }
      (fun _ hx => hx) (fun _ _ hx => hx)
  | report s acc request outputs hscheduled hunfinished =>
    apply hp.of_same
    · exact SameRegistry.updateRequest (SameRegistry.refl s) rfl
    · exact fun _ hx => hx
    · intro x _ hx
      dsimp only at hx ⊢
      rw [SchedulerState.objs_updateRequest] at hx
      split at hx
      · rename_i heq
        rw [heq]
        exact hx
      · exact hx
  | @deliver s acc request r w hanswered =>
    dsimp only at hp ⊢
    apply hp.of_request request
    · apply SameRegistry.updateRequest
      · exact { requests := rfl, nextRef := rfl, requestId := fun _ => rfl }
      · exact hanswered.requestId
    · exact hanswered.self_registered
    · exact fun x hx => Function.update_of_ne hx _ _
    · exact fun x hx _ => hx
  | @finish s acc request r r' delayed w w' hanswered hends hdelayed =>
    generalize hs₁ : SchedulerState.updateRequest { s with world := w } request
      (fun _ => r') = s₁
    have hself : s₁.objs request = r' := by
      rw [← hs₁, SchedulerState.objs_updateRequest_self]
    have hid : r'.requestId = (s.objs request).requestId :=
      hends.requestId.trans hanswered.requestId
    have h₁ : RegistryNames s₁ (Queued s₁) := by
      subst hs₁
      apply hp.of_request request
      · apply SameRegistry.updateRequest
        · exact { requests := rfl, nextRef := rfl, requestId := fun _ => rfl }
        · exact hid
      · exact hanswered.self_registered
      · exact fun x hx => Function.update_of_ne hx _ _
      · exact fun x hx _ => hx
    have hregistered₁ : s₁.requests.get? (s₁.objs request).requestId = some request := by
      rw [hself, hid, ← hs₁]
      exact hanswered.self_registered
    cases delayed with
    | true =>
      exact h₁.of_same { requests := rfl, nextRef := rfl, requestId := fun _ => rfl }
        (fun _ hx => hx) (fun _ _ hx => hx)
    | false =>
      apply h₁.of_erase hregistered₁
      · rw [hself]
        exact hends.finished hanswered.finished
      · rfl
      · rfl
      · rfl
      · exact fun _ hx => hx
  | @idle s acc request r w hanswered hresumable hempty =>
    dsimp only at hp ⊢
    apply hp.of_request request
    · apply SameRegistry.updateRequest
      · exact { requests := rfl, nextRef := rfl, requestId := fun _ => rfl }
      · exact hanswered.requestId
    · exact hanswered.self_registered
    · exact fun x hx => Function.update_of_ne hx _ _
    · rintro x (hx | hx | hx) hne
      · exact Or.inl hx
      · exact Or.inr (Or.inl hx)
      · exact Or.inr (Or.inr ((self.mem_addRequest.mp hx).resolve_left hne))
  | @proceed s acc request r r' w hanswered hcontinues =>
    dsimp only at hp ⊢
    apply hp.of_request request
    · apply SameRegistry.updateRequest
      · exact { requests := rfl, nextRef := rfl, requestId := fun _ => rfl }
      · exact hcontinues.requestId.trans hanswered.requestId
    · exact hanswered.self_registered
    · exact fun x hx => Function.update_of_ne hx _ _
    · rintro x (hx | hx | hx) hne
      · exact Or.inl hx
      · exact Or.inr (Or.inl ((self.mem_addRequest.mp hx).resolve_left hne))
      · exact Or.inr (Or.inr hx)

/-- The output of a request leaves these as they were. -/
theorem OutputEffect.unchanged {out : SchedulerOutput} {mro : ModelRunnerOutput}
    {start : SchedulerState W} {reqId : RequestId} {p p' : SchedulerState W × OutputLocals}
    (h : self.OutputEffect out mro start reqId p p') :
    p'.1.running = p.1.running ∧ p'.1.edmmHook = p.1.edmmHook ∧
      p'.1.nextRef = p.1.nextRef ∧
      p'.1.prevStepScheduledReqIds = p.1.prevStepScheduledReqIds := by
  cases h <;> exact ⟨rfl, rfl, rfl, rfl⟩

/-- Only the request of the id enters a queue, is freed or changes; it keeps its id. -/
theorem OutputEffect.affects {out : SchedulerOutput} {mro : ModelRunnerOutput}
    {start : SchedulerState W} {reqId : RequestId} {p p' : SchedulerState W × OutputLocals}
    (h : self.OutputEffect out mro start reqId p p') :
    (∀ x, x ∈ p'.1.waiting → x ∈ p.1.waiting ∨
      (reqId ∈ out.numScheduledTokens.keys ∧ start.unfinished? reqId = some x)) ∧
    (∀ x, x ∈ p'.1.skippedWaiting → x ∈ p.1.skippedWaiting ∨
      (reqId ∈ out.numScheduledTokens.keys ∧ start.unfinished? reqId = some x)) ∧
    (∀ x, x ∈ p.1.skippedWaiting → x ∈ p'.1.skippedWaiting) ∧
    (∀ event, event ∈ p'.1.trace → event ∈ p.1.trace ∨ ∃ x, event = .freed x ∧
      reqId ∈ out.numScheduledTokens.keys ∧ start.unfinished? reqId = some x) ∧
    ∀ x, (p'.1.objs x).requestId = (p.1.objs x).requestId := by
  have hwrite : ∀ {s : SchedulerState W} {request : Ref} {r : Request},
      r.requestId = (s.objs request).requestId →
      ∀ x, ((s.updateRequest request fun _ => r).objs x).requestId = (s.objs x).requestId := by
    intro s request r hr x
    rw [SchedulerState.objs_updateRequest]
    split
    · rename_i hx
      rw [hx, hr]
    · rfl
  cases h with
  | touch s acc w =>
    exact ⟨fun _ => Or.inl, fun _ => Or.inl, fun _ => id, fun _ => Or.inl, fun _ => rfl⟩
  | report s acc request outputs hscheduled hunfinished =>
    refine ⟨fun _ => Or.inl, fun _ => Or.inl, fun _ => id, fun _ => Or.inl, ?_⟩
    exact hwrite rfl
  | deliver w hanswered =>
    refine ⟨fun _ => Or.inl, fun _ => Or.inl, fun _ => id, fun _ => Or.inl, ?_⟩
    exact hwrite hanswered.requestId
  | @finish s acc request r r' delayed w w' hanswered hends hdelayed =>
    refine ⟨fun _ => Or.inl, fun _ => Or.inl, fun _ => id, ?_, ?_⟩
    · intro event hevent
      have hevent : event ∈ s.trace ++ [.freed request] := hevent
      rw [List.mem_append, List.mem_singleton] at hevent
      apply hevent.imp id
      rintro rfl
      exact ⟨request, rfl, hanswered.scheduled, hanswered.unfinished⟩
    · exact hwrite (hends.requestId.trans hanswered.requestId)
  | idle w hanswered hresumable hempty =>
    refine ⟨fun _ => Or.inl, ?_, ?_, fun _ => Or.inl, ?_⟩
    · intro x hx
      rcases self.mem_addRequest.mp hx with rfl | hx
      · exact Or.inr ⟨hanswered.scheduled, hanswered.unfinished⟩
      · exact Or.inl hx
    · exact fun x hx => self.mem_addRequest.mpr (Or.inr hx)
    · exact hwrite hanswered.requestId
  | proceed w hanswered hcontinues =>
    refine ⟨?_, fun _ => Or.inl, fun _ => id, fun _ => Or.inl, ?_⟩
    · intro x hx
      rcases self.mem_addRequest.mp hx with rfl | hx
      · exact Or.inr ⟨hanswered.scheduled, hanswered.unfinished⟩
      · exact Or.inl hx
    · exact hwrite (hcontinues.requestId.trans hanswered.requestId)

theorem ConnectorEffect.registered {s s' : SchedulerState W} (h : ConnectorEffect s s')
    (hs : RegistryNames s (Queued s)) : RegistryNames s' (Queued s') := by
  cases h with
  | touch w =>
    exact hs.of_same { requests := rfl, nextRef := rfl, requestId := fun _ => rfl }
      (fun _ hx => hx) (fun _ _ hx => hx)
  | loads finishedRecving failedRecving =>
    exact hs.of_same { requests := rfl, nextRef := rfl, requestId := fun _ => rfl }
      (fun _ hx => hx) (fun _ _ hx => hx)
  | recompute numComputedTokens haffected =>
    apply hs.of_same
    · exact SameRegistry.updateRequest (SameRegistry.refl s) rfl
    · exact fun _ hx => hx
    · intro x _ hx
      rw [SchedulerState.objs_updateRequest] at hx
      split at hx
      · rename_i heq
        rw [heq]
        exact hx
      · exact hx
  | drop w hregistered hfinished =>
    exact hs.of_erase hregistered hfinished rfl rfl rfl fun _ hx => hx

theorem waits_removeStopped {s : SchedulerState W} {acc : OutputLocals} {x : Ref}
    (h : x ∈ (self.removeStopped acc s).waiting ∨
      x ∈ (self.removeStopped acc s).skippedWaiting) :
    x ∈ s.waiting ∨ x ∈ s.skippedWaiting :=
  h.imp_left self.mem_of_removeRequests

theorem queued_removeStopped {s : SchedulerState W} {acc : OutputLocals} {x : Ref}
    (h : Queued (self.removeStopped acc s) x) : Queued s x := by
  rcases h with hx | hx
  · exact Or.inl (List.mem_filter.mp hx).1
  · exact Or.inr (waits_removeStopped hx)

theorem Updated.registered {out : SchedulerOutput} {mro : ModelRunnerOutput}
    {s start done s' : SchedulerState W} {acc : OutputLocals}
    (h : self.Updated out mro s start done acc s') (hs : RegistryNames s (Queued s)) :
    RegistryNames start (Queued start) ∧ RegistryNames s' (Queued s') := by
  have hconnector : ∀ {s s' : SchedulerState W}, ConnectorEffects s s' →
      RegistryNames s (Queued s) → RegistryNames s' (Queued s') := fun hchain =>
    invariant_of_chain (I := fun s => RegistryNames s (Queued s))
      (fun _ _ heffect hbefore => heffect.registered hbefore) hchain
  have hstart := hconnector h.invalid hs
  have hdone : RegistryNames done (Queued done) :=
    invariant_of_chain (I := fun p : SchedulerState W × OutputLocals => RegistryNames p.1 (Queued p.1))
      (fun _ _ ⟨_, heffect⟩ hbefore => heffect.registered hbefore) h.outputs hstart
  have hremoved : RegistryNames (self.removeStopped acc done)
      (Queued (self.removeStopped acc done)) :=
    hdone.of_same { requests := rfl, nextRef := rfl, requestId := fun _ => rfl }
      (fun _ hx => queued_removeStopped hx) (fun _ _ hx => hx)
  obtain ⟨failed, hfailed, hloads⟩ := h.loaded
  refine ⟨hstart, hconnector hloads ?_⟩
  rcases hfailed with rfl | ⟨ids, _, hfinished⟩
  · exact hremoved
  · exact hfinished.registered hremoved

theorem ResetEffect.sameRegistry {s s' : SchedulerState W} (h : self.ResetEffect s s') :
    SameRegistry s s' := by
  cases h with
  | preempt w hvictim hstatus =>
    apply SameRegistry.updateRequest
    · apply SameRegistry.updateRequest
      · exact { requests := rfl, nextRef := rfl, requestId := fun _ => rfl }
      · rfl
    · rfl

theorem ResetEffect.registered {s s' : SchedulerState W} (h : self.ResetEffect s s')
    (hs : RegistryNames s (Queued s)) : RegistryNames s' (Queued s') := by
  apply hs.of_same h.sameRegistry
  all_goals
    cases h
    rename_i victim rest w hvictim hstatus
  · have hmem : ∀ y, y ∈ s.running ↔ y ∈ rest ∨ y = victim := by
      intro y
      rw [hvictim, List.mem_append, List.mem_singleton]
    rintro x (hx | hx | hx)
    · exact Or.inl ((hmem x).mpr (Or.inl hx))
    · rcases self.mem_prependRequest.mp hx with rfl | hx
      · exact Or.inl ((hmem x).mpr (Or.inr rfl))
      · exact Or.inr (Or.inl hx)
    · exact Or.inr (Or.inr hx)
  · intro x _ hx
    by_cases heq : x = victim
    · rw [heq, Request.isFinished, hstatus]
      rfl
    · rw [SchedulerState.objs_updateRequest_of_ne _ _ heq] at hx
      change Request.isFinished
        ((SchedulerState.updateRequest _ victim preempted).objs x) = false at hx
      rw [SchedulerState.objs_updateRequest_of_ne _ _ heq] at hx
      exact hx

theorem registryOk_afterRegister {s : SchedulerState W} (hok : RegistryOk s)
    (added : Request) (w : W) : RegistryOk (self.afterRegister s added w) := by
  have hrequests : (self.afterRegister s added w).requests =
      s.requests.set added.requestId s.nextRef := rfl
  constructor
  · intro reqId x hx
    rw [hrequests, Dict.get?_set] at hx
    split at hx
    · rename_i hid
      cases hx
      rw [hid]
      exact congrArg Request.requestId (Function.update_self ..)
    · rw [← hok.carries hx]
      exact congrArg Request.requestId (Function.update_of_ne (Nat.ne_of_lt (hok.known hx)) _ _)
  · intro reqId x hx
    rw [hrequests, Dict.get?_set] at hx
    split at hx
    · cases hx
      exact Nat.lt_succ_self _
    · exact Nat.lt_succ_of_lt (hok.known hx)

theorem queued_afterRegister {s : SchedulerState W} {added : Request} {w : W} {x : Ref}
    (h : Queued (self.afterRegister s added w) x) : x = s.nextRef ∨ Queued s x := by
  rcases h with hx | hx | hx
  · exact Or.inr (Or.inl hx)
  · simp only [afterRegister] at hx
    split at hx
    · exact Or.inr (Or.inr (Or.inl hx))
    · exact (self.mem_addRequest.mp hx).imp id fun h => Or.inr (Or.inl h)
  · simp only [afterRegister] at hx
    split at hx
    · exact (self.mem_addRequest.mp hx).imp id fun h => Or.inr (Or.inr h)
    · exact Or.inr (Or.inr (Or.inr hx))

theorem registered_afterRegister {s : SchedulerState W} (hs : RegistryNames s (Queued s))
    (added : Request) (w : W) (habsent : s.requests.get? added.requestId = none) :
    RegistryNames (self.afterRegister s added w) (Queued (self.afterRegister s added w)) where
  registry := registryOk_afterRegister hs.registry added w
  heldKnown := by
    intro x hx
    rcases queued_afterRegister hx with rfl | hx
    · exact Nat.lt_succ_self _
    · exact Nat.lt_succ_of_lt (hs.heldKnown x hx)
  registered := by
    intro x hx hunfinished
    have hrequests : (self.afterRegister s added w).requests =
        s.requests.set added.requestId s.nextRef := rfl
    rw [hrequests]
    rcases queued_afterRegister hx with rfl | hx
    · rw [show (self.afterRegister s added w).objs s.nextRef = added from Function.update_self ..,
        Dict.get?_set_self]
    · have hobjs : (self.afterRegister s added w).objs x = s.objs x :=
        Function.update_of_ne (Nat.ne_of_lt (hs.heldKnown x hx)) _ _
      rw [hobjs] at hunfinished ⊢
      have hregistered := hs.registered x hx hunfinished
      rw [Dict.get?_set_of_ne _ _ ?_, hregistered]
      intro hid
      rw [hid, habsent] at hregistered
      cases hregistered

theorem SessionEffect.registered {request : Request} {existing : Ref} {s s' : SchedulerState W}
    (h : self.SessionEffect request existing s s')
    (hexisting : s.requests.get? request.requestId = some existing)
    (hs : RegistryNames s (Queued s)) : RegistryNames s' (Queued s') := by
  have hregistered : s.requests.get? (s.objs existing).requestId = some existing := by
    rw [hs.registry.carries hexisting]
    exact hexisting
  cases h with
  | append hstatus =>
    apply hs.of_request existing _ hregistered
    · exact fun x hx => Function.update_of_ne hx _ _
    · exact fun x hx _ => hx
    · exact SameRegistry.updateRequest (SameRegistry.refl s) rfl
  | proceed hstatus hprompt =>
    apply hs.of_request existing _ hregistered
    · exact fun x hx => Function.update_of_ne hx _ _
    · exact fun x hx _ => hx
    · apply SameRegistry.updateRequest
      · exact { requests := rfl, nextRef := rfl, requestId := fun _ => rfl }
      · exact self.continueSession_requestId _ _
  | endSession hstatus hfinished => exact hfinished.registered hs

/-- A request that can enter a pause is registered and unfinished. -/
theorem pausable?_eq_some {s : SchedulerState W} {reqId : RequestId} {request : Ref}
    (h : pausable? s reqId = some request) :
    s.requests.get? reqId = some request ∧ (s.objs request).isFinished = false ∧
      (s.objs request).status.isBlockedWaitingStatus = false := by
  unfold pausable? at h
  rw [Option.filter_eq_some_iff] at h
  obtain ⟨hget, hblocked⟩ := h
  obtain ⟨hregistered, hunfinished⟩ := s.unfinished?_eq_some.mp hget
  exact ⟨hregistered, hunfinished, by simpa using hblocked⟩

theorem registered_afterPause {s : SchedulerState W} (hs : RegistryNames s (Queued s))
    {reqId : RequestId} (reading : EdmmSchedulerHook.PauseReading) {request : Ref}
    (hpausable : pausable? s reqId = some request) {held : Ref → Prop}
    (hheld : ∀ x, held x → x ≠ request → Queued s x) :
    RegistryNames (afterPause s reqId reading request) held := by
  obtain ⟨hregistered, _, _⟩ := pausable?_eq_some hpausable
  apply hs.of_request request
  · apply SameRegistry.updateRequest
    · exact { requests := rfl, nextRef := rfl, requestId := fun _ => rfl }
    · rfl
  · rw [hs.registry.carries hregistered]
    exact hregistered
  · exact fun x hx => Function.update_of_ne hx _ _
  · exact hheld

theorem queued_afterHold {s : SchedulerState W} {reqId : RequestId}
    {reading : EdmmSchedulerHook.PauseReading} {request x : Ref}
    (h : Queued (self.afterHold s reqId reading request) x) (hne : x ≠ request) : Queued s x := by
  rcases h with hx | hx | hx
  · exact Or.inl (List.mem_filter.mp hx).1
  · exact Or.inr (Or.inl (self.mem_removeRequests.mp hx).1)
  · rcases self.mem_addRequest.mp hx with rfl | hx
    · exact absurd rfl hne
    · exact Or.inr (Or.inr (self.mem_removeRequests.mp hx).1)

/-! ## 5. Runs -/

/-- **Step lemma.** -/
theorem OperationEffect.registered {s s' : SchedulerState W} {op : SchedulerOp W}
    {out : Option SchedulerOutput} (h : self.OperationEffect s op out s')
    (hs : RegistryNames s (Queued s)) (hwaiting : op = .schedule → NoFinishedWaiting self s) :
    RegistryNames s' (Queued s') := by
  have hsame : ∀ {s' : SchedulerState W}, s'.requests = s.requests → s'.nextRef = s.nextRef →
      s'.objs = s.objs → (∀ x, Queued s' x → Queued s x) → RegistryNames s' (Queued s') := by
    intro s' hrequests hnextRef hobjs hqueued
    apply hs.of_same
      { requests := hrequests, nextRef := hnextRef, requestId := fun x => by rw [hobjs] } hqueued
    intro x _ hx
    rwa [hobjs] at hx
  cases h with
  | @register params request w hinit habsent =>
    apply registered_afterRegister hs
    rw [sessionStarted_requestId]
    exact habsent
  | session hinit hexisting heffect => exact heffect.registered hexisting hs
  | schedule hscheduled => exact (hscheduled.registered hs (hwaiting rfl)).2.2
  | updateFromOutput hupdated => exact (hupdated.registered hs).2
  | finishRequests hfinished => exact hfinished.registered hs
  | updateDraftTokenIds objs hobjs =>
    apply hs.of_same
    · exact
        { requests := rfl
          nextRef := rfl
          requestId := by
            intro x
            obtain ⟨specTokenIds, hx⟩ := hobjs x
            change (objs x).requestId = _
            rw [hx] }
    · exact fun _ hx => hx
    · intro x _ hx
      obtain ⟨specTokenIds, hspec⟩ := hobjs x
      change Request.isFinished (objs x) = false at hx
      rw [hspec] at hx
      exact hx
  | resetPrefixCache previous w hreset hprevious =>
    have hafter := invariant_of_chain (I := fun s => RegistryNames s (Queued s))
      (fun _ _ heffect hbefore => heffect.registered hbefore) hreset hs
    exact hafter.of_same { requests := rfl, nextRef := rfl, requestId := fun _ => rfl }
      (fun _ hx => hx) (fun _ _ hx => hx)
  | setPauseState pauseState => exact hsame rfl rfl rfl fun _ hx => hx
  | pauseInPlace hpausable => exact registered_afterPause hs _ hpausable fun _ hx _ => hx
  | @holdForToolCall reqId reading request hpausable =>
    have hpaused : RegistryNames (afterPause s reqId reading request)
        (Queued (self.afterHold s reqId reading request)) :=
      registered_afterPause hs _ hpausable fun _ hx hne => queued_afterHold hx hne
    exact hpaused.of_same { requests := rfl, nextRef := rfl, requestId := fun _ => rfl }
      (fun _ hx => hx) (fun _ _ hx => hx)
  | pauseInPlaceIgnored hnone => exact hs
  | holdForToolCallIgnored hnone => exact hs
  | submitToolResponse => exact hsame rfl rfl rfl fun _ hx => hx
  | recordSpeculativeHandle => exact hsame rfl rfl rfl fun _ hx => hx
  | environment f => exact hsame rfl rfl rfl fun _ hx => hx

/-- **Step lemma.**  The registry itself needs no condition. -/
theorem OperationEffect.registryOk {s s' : SchedulerState W} {op : SchedulerOp W}
    {out : Option SchedulerOutput} (h : self.OperationEffect s op out s') (hok : RegistryOk s) :
    RegistryOk s' := by
  cases h with
  | register w hinit habsent => exact registryOk_afterRegister hok _ w
  | session hinit hexisting heffect =>
    cases heffect with
    | append hstatus =>
      apply hok.updateRequest
      rfl
    | proceed hstatus hprompt =>
      apply RegistryOk.updateRequest
      · exact hok
      · exact self.continueSession_requestId _ _
    | endSession hstatus hfinished => exact hfinished.registryOk hok
  | schedule hscheduled => exact hscheduled.sameRegistry.registryOk hok
  | updateFromOutput hupdated => exact hupdated.registryOk hok
  | finishRequests hfinished => exact hfinished.registryOk hok
  | updateDraftTokenIds objs hobjs =>
    apply hok.of_shrink
    · intro x
      obtain ⟨specTokenIds, hx⟩ := hobjs x
      change (objs x).requestId = _
      rw [hx]
    · exact fun _ _ hx => hx
    · rfl
  | resetPrefixCache previous w hreset hprevious =>
    have hafter := invariant_of_chain (I := fun s => RegistryOk s)
      (fun _ _ heffect hbefore => heffect.sameRegistry.registryOk hbefore) hreset hok
    exact hafter
  | setPauseState pauseState => exact hok
  | pauseInPlace hpausable =>
    apply RegistryOk.updateRequest
    · exact hok
    · rfl
  | @holdForToolCall reqId reading request hpausable =>
    have hpaused : RegistryOk (afterPause s reqId reading request) := by
      apply RegistryOk.updateRequest
      · exact hok
      · rfl
    exact hpaused
  | pauseInPlaceIgnored hnone => exact hok
  | holdForToolCallIgnored hnone => exact hok
  | submitToolResponse => exact hok
  | recordSpeculativeHandle => exact hok
  | environment f => exact hok

theorem registered_init (objs : Ref → Request) (edmmHook : Option EdmmSchedulerHook) (w : W) :
    RegistryNames (SchedulerState.init objs edmmHook w)
      (Queued (SchedulerState.init objs edmmHook w)) where
  registry := ⟨nofun, nofun⟩
  heldKnown := by
    rintro x (hx | hx | hx)
    all_goals cases hx
  registered := by
    rintro x (hx | hx | hx)
    all_goals cases hx

/-- An operation that returned, as an effect. -/
theorem effect_of_exec {s s' : SchedulerState W} {op : SchedulerOp W}
    {out : Option SchedulerOutput} (hok : RegistryOk s) (h : op.exec self s = .ok out s') :
    self.OperationEffect (traceless s) op out s' :=
  wp_ok (self.exec_effect s hok op) h

/-- **Run lemma.** -/
theorem registryOk_of_run {start s : SchedulerState W} {history : List (SchedulerStep W)}
    (run : SchedulerRun self start history s) (hok : RegistryOk start) : RegistryOk s :=
  run.invariant (P := fun _ => True)
    (fun _ _ _ _ hbefore hstep _ => (effect_of_exec hbefore hstep).registryOk hbefore)
    (fun _ _ => trivial) hok

end Scheduler

end Edmm
