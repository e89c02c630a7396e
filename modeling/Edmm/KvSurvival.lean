/-
  Edmm/KvSurvival.lean
  ====================
  **Computed KV survives a tool-call pause.**

  A request that is held in `skipped_waiting` for a tool call keeps its tokens and
  its computed tokens while other requests are scheduled, preempted, stopped or
  finished.  It is promoted only once its response arrived, and the first
  `schedule()` that gives it tokens starts at its computed tokens.

  The invariant has two halves.  `SameRequest` is about the request itself and
  holds also while `schedule()` runs.  Within `schedule()` the request is either
  still waiting (`StillPaused`) or was admitted in this very call (`JustAdmitted`).
-/
import Edmm.Registry

namespace Edmm

open Program

variable {W : Type}

/-! ## 1. The paused request -/

/-- The same token lists and the same computed tokens. -/
structure SameTokens (before after : Request) : Prop where
  requestId : after.requestId = before.requestId
  promptTokenIds : after.promptTokenIds = before.promptTokenIds
  outputTokenIds : after.outputTokenIds = before.outputTokenIds
  allTokenIds : after.allTokenIds = before.allTokenIds
  numComputedTokens : after.numComputedTokens = before.numComputedTokens

theorem SameTokens.refl (r : Request) : SameTokens r r :=
  { requestId := rfl
    promptTokenIds := rfl
    outputTokenIds := rfl
    allTokenIds := rfl
    numComputedTokens := rfl }

theorem SameTokens.trans {r r' r'' : Request} (h : SameTokens r r') (h' : SameTokens r' r'') :
    SameTokens r r'' :=
  { requestId := h'.requestId.trans h.requestId
    promptTokenIds := h'.promptTokenIds.trans h.promptTokenIds
    outputTokenIds := h'.outputTokenIds.trans h.outputTokenIds
    allTokenIds := h'.allTokenIds.trans h.allTokenIds
    numComputedTokens := h'.numComputedTokens.trans h.numComputedTokens }

/-- A response for the request is pending in the hook. -/
def ResponseReady (s : SchedulerState W) (reqId : RequestId) : Prop :=
  ∃ hook, s.edmmHook = some hook ∧ hook.isToolResponseReady reqId = true

/-- The event is about what the request would lose, or its promotion. -/
def Concerns (r : Ref) : SchedulerEvent → Prop
  | .preempted x | .freed x | .prefixLookup x | .promoted x => x = r
  | .examined _ | .registered _ => False

/-- `before` is the request when it was paused.  `held` are the requests in the
    queues, and `arrived` says that its response arrived. -/
structure SameRequest (before : Request) (r : Ref) (arrived : Prop) (s : SchedulerState W)
    (held : Ref → Prop) : Prop where
  tokens : SameTokens before (s.objs r)
  status : (s.objs r).status = .waitingForToolCall ∨ (s.objs r).status = .waiting ∨
    (s.objs r).status = .running
  registered : s.requests.get? before.requestId = some r
  own : ∀ x, held x → (s.objs x).requestId = before.requestId → x = r
  undisturbed : ∀ event ∈ s.trace, Concerns r event → event = .promoted r ∧ arrived
  hook : ResponseReady s before.requestId → arrived

namespace SameRequest

variable {before : Request} {r : Ref} {arrived : Prop} {s s' : SchedulerState W}
  {held held' : Ref → Prop}

/-- Other requests changed. -/
theorem of_frame (h : SameRequest before r arrived s held)
    (hregistered : s'.requests.get? before.requestId = some r)
    (hown : ∀ x, held' x → (s'.objs x).requestId = before.requestId → x = r)
    (hobjs : s'.objs r = s.objs r)
    (htrace : ∀ event ∈ s'.trace, event ∈ s.trace ∨ ¬ Concerns r event)
    (hhook : ResponseReady s' before.requestId → ResponseReady s before.requestId) :
    SameRequest before r arrived s' held' where
  tokens := by
    rw [hobjs]
    exact h.tokens
  status := by
    rw [hobjs]
    exact h.status
  registered := hregistered
  own := hown
  undisturbed := by
    intro event hevent hconcerns
    rcases htrace event hevent with hold | hnot
    · exact h.undisturbed event hold hconcerns
    · exact absurd hconcerns hnot
  hook := fun hready => h.hook (hhook hready)

/-- Other requests changed, and the registry stayed. -/
theorem of_others (h : SameRequest before r arrived s held) (hsame : SameRegistry s s')
    (hheld : ∀ x, held' x → held x) (hobjs : s'.objs r = s.objs r)
    (htrace : ∀ event ∈ s'.trace, event ∈ s.trace ∨ ¬ Concerns r event)
    (hhook : ResponseReady s' before.requestId → ResponseReady s before.requestId) :
    SameRequest before r arrived s' held' := by
  apply h.of_frame _ _ hobjs htrace hhook
  · rw [hsame.requests]
    exact h.registered
  · intro x hx hid
    rw [hsame.requestId] at hid
    exact h.own x (hheld x hx) hid

theorem isFinished (h : SameRequest before r arrived s held) : (s.objs r).isFinished = false := by
  rcases h.status with hstatus | hstatus | hstatus
  · rw [Request.isFinished, hstatus]
    rfl
  · rw [Request.isFinished, hstatus]
    rfl
  · rw [Request.isFinished, hstatus]
    rfl

/-- The request is not blocked for another reason. -/
theorem status_ne (h : SameRequest before r arrived s held) :
    (s.objs r).status ≠ .waitingForRemoteKvs ∧
      (s.objs r).status ≠ .waitingForStructuredOutputGrammar ∧
      (s.objs r).status ≠ .waitingForStreamingReq := by
  rcases h.status with hstatus | hstatus | hstatus
  · rw [hstatus]
    decide
  · rw [hstatus]
    decide
  · rw [hstatus]
    decide

/-- The registered request is not another one. -/
theorem ne_of_id (h : SameRequest before r arrived s held) {x : Ref} (hx : held x)
    (hne : x ≠ r) : (s.objs x).requestId ≠ before.requestId :=
  fun hid => hne (h.own x hx hid)

end SameRequest

/-! ## 2. Within `schedule()` -/

namespace Scheduler

variable {self : Scheduler W} {before : Request} {r : Ref} {arrived : Prop}

/-- A request in the queues, or handed tokens from a waiting queue in this step. -/
def InStep (p : Frame W) (x : Ref) : Prop :=
  Held p x ∨ x ∈ p.2.scheduledNewReqs ∨ x ∈ p.2.scheduledResumedReqs

/-- The request waits, and got no tokens in this step. -/
structure StillPaused (before : Request) (r : Ref) (arrived : Prop) (p : Frame W) : Prop where
  same : SameRequest before r arrived p.1 (InStep p)
  notRunning : (p.1.objs r).status ≠ .running ∧ r ∉ p.1.running
  skipped : r ∈ p.1.skippedWaiting ∨ r ∈ p.2.stepSkippedWaiting
  unscheduled : before.requestId ∉ p.2.numScheduledTokens.keys

/-- The request was admitted in this step. -/
structure JustAdmitted (before : Request) (r : Ref) (arrived : Prop) (p : Frame W) : Prop where
  same : SameRequest before r arrived p.1 (InStep p)
  running : (p.1.objs r).status = .running
  scheduled : ∃ n, p.2.numScheduledTokens.get? before.requestId = some n ∧ 0 < n ∧
    n ≤ before.numTokens - before.numComputedTokens
  new : r ∈ p.2.scheduledNewReqs

theorem numScheduledTokens_addRunning_of_ne {l : StepLocals} {x : Ref} {request : Request}
    {n : Int} {blocks : KVCacheBlocks} {reqId : RequestId} (hne : request.requestId ≠ reqId) :
    (addRunning l x request n blocks).numScheduledTokens.get? reqId =
      l.numScheduledTokens.get? reqId :=
  Dict.get?_set_of_ne _ _ (Ne.symm hne)

/-- The RUNNING loop leaves a request alone that is not in `running`. -/
theorem RunningEffect.objs_of_not_mem {p p' : Frame W} (h : self.RunningEffect p p')
    (hr : r ∉ p.1.running) : p'.1.objs r = p.1.objs r := by
  cases h with
  | touch s l w => rfl
  | pass s l reqIndex scheduledLoras => rfl
  | preempt w hvictim hstatus hlocals =>
    apply Function.update_of_ne
    rintro rfl
    exact hr (hvictim.mem_iff.mpr List.mem_cons_self)
  | schedule newBlocks w hrunning hsome hbound hlocals =>
    apply Function.update_of_ne
    rintro rfl
    exact hr hrunning

/-- The events of the RUNNING loop are preemptions of requests in `running`. -/
theorem RunningEffect.trace_cases {p p' : Frame W} (h : self.RunningEffect p p')
    {event : SchedulerEvent} (hevent : event ∈ p'.1.trace) :
    event ∈ p.1.trace ∨ ∃ x ∈ p.1.running, event = .preempted x := by
  cases h with
  | touch s l w => exact Or.inl hevent
  | pass s l reqIndex scheduledLoras => exact Or.inl hevent
  | @preempt s l l' victim rest w hvictim hstatus hlocals =>
    have hevent : event ∈ s.trace ++ [.preempted victim] := hevent
    rw [List.mem_append, List.mem_singleton] at hevent
    apply hevent.imp id
    rintro rfl
    exact ⟨victim, hvictim.mem_iff.mpr List.mem_cons_self, rfl⟩
  | schedule newBlocks w hrunning hsome hbound hlocals => exact Or.inl hevent

/-- What the RUNNING loop leaves as it was. -/
theorem RunningEffect.locals {p p' : Frame W} (h : self.RunningEffect p p') :
    p'.1.edmmHook = p.1.edmmHook ∧ p'.1.skippedWaiting = p.1.skippedWaiting ∧
      p'.2.scheduledNewReqs = p.2.scheduledNewReqs ∧
      p'.2.scheduledResumedReqs = p.2.scheduledResumedReqs := by
  cases h with
  | touch s l w => exact ⟨rfl, rfl, rfl, rfl⟩
  | pass s l reqIndex scheduledLoras => exact ⟨rfl, rfl, rfl, rfl⟩
  | preempt w hvictim hstatus hlocals =>
    rcases hlocals with rfl | ⟨numTokens, rfl⟩
    · exact ⟨rfl, rfl, rfl, rfl⟩
    · exact ⟨rfl, rfl, rfl, rfl⟩
  | schedule newBlocks w hrunning hsome hbound hlocals =>
    obtain ⟨inputs, budget, rfl⟩ := hlocals
    exact ⟨rfl, rfl, rfl, rfl⟩

/-- The RUNNING loop gives tokens to requests in `running` only. -/
theorem RunningEffect.numScheduledTokens {p p' : Frame W} (h : self.RunningEffect p p')
    {reqId : RequestId} (hkey : reqId ∈ p'.2.numScheduledTokens.keys) :
    reqId ∈ p.2.numScheduledTokens.keys ∨
      ∃ x ∈ p.1.running, (p.1.objs x).requestId = reqId := by
  cases h with
  | touch s l w => exact Or.inl hkey
  | pass s l reqIndex scheduledLoras => exact Or.inl hkey
  | preempt w hvictim hstatus hlocals =>
    rcases hlocals with rfl | ⟨numTokens, rfl⟩
    · exact Or.inl hkey
    · obtain ⟨n, hn⟩ := Dict.mem_keys_iff.mp hkey
      have hn : (Dict.erase _ _).get? reqId = some n := hn
      rw [Dict.get?_erase] at hn
      split at hn
      · cases hn
      · exact Or.inl (Dict.mem_keys_iff.mpr ⟨n, hn⟩)
  | @schedule s l l' request numNewTokens newBlocks w hrunning hsome hbound hlocals =>
    obtain ⟨inputs, budget, rfl⟩ := hlocals
    by_cases hid : (s.objs request).requestId = reqId
    · exact Or.inr ⟨request, hrunning, hid⟩
    · obtain ⟨n, hn⟩ := Dict.mem_keys_iff.mp hkey
      have hn : (addRunning l request (s.objs request) numNewTokens
        newBlocks).numScheduledTokens.get? reqId = some n := hn
      rw [numScheduledTokens_addRunning_of_ne hid] at hn
      exact Or.inl (Dict.mem_keys_iff.mpr ⟨n, hn⟩)

theorem RunningEffect.stillPaused {p p' : Frame W} (h : self.RunningEffect p p')
    (hp : StillPaused before r arrived p) : StillPaused before r arrived p' := by
  have hobjs := h.objs_of_not_mem hp.notRunning.2
  obtain ⟨hhook, hskipped, hnew, hresumed⟩ := h.locals
  exact
    { same := by
        apply hp.same.of_others h.sameRegistry.1
        · rintro x (hx | hx | hx)
          · exact Or.inl (h.held_iff hx)
          · exact Or.inr (Or.inl (hnew ▸ hx))
          · exact Or.inr (Or.inr (hresumed ▸ hx))
        · exact hobjs
        · intro event hevent
          apply (h.trace_cases hevent).imp id
          rintro ⟨x, hx, rfl⟩ rfl
          exact hp.notRunning.2 hx
        · rintro ⟨hook, hsome, hready⟩
          exact ⟨hook, hhook ▸ hsome, hready⟩
      notRunning := by
        rw [hobjs]
        exact ⟨hp.notRunning.1, fun hr => hp.notRunning.2 ((h.held r).1 hr)⟩
      skipped := by
        rw [hskipped, h.unchanged.2]
        exact hp.skipped
      unscheduled := by
        intro hkey
        rcases h.numScheduledTokens hkey with hkey | ⟨x, hx, hid⟩
        · exact hp.unscheduled hkey
        · have hxr := hp.same.own x (Or.inl (Or.inl hx)) hid
          exact hp.notRunning.2 (hxr ▸ hx) }

/-- A promotion makes no response ready. -/
theorem Promotion.responseReady {s s' : SchedulerState W} {x : Ref} {reqId : RequestId}
    (h : self.Promotion s x s') (hready : ResponseReady s' reqId) : ResponseReady s reqId := by
  cases h with
  | remoteKvs loaded w finishedRecving failedRecving hconnector hstatus hloaded => exact hready
  | grammar hstatus => exact hready
  | @toolCall hook hstatus henabled hhook hanswered =>
    obtain ⟨hook', hhook', hready'⟩ := hready
    cases hhook'
    refine ⟨hook, hhook, ?_⟩
    rw [EdmmSchedulerHook.isToolResponseReady_erase rfl] at hready'
    exact (Bool.and_eq_true_iff.mp hready').2

/-- The promotion of a request that is paused or that waits leaves its tokens alone. -/
theorem Promotion.sameRequest {s s' : SchedulerState W} {x : Ref} {held : Ref → Prop}
    (h : self.Promotion s x s') (hs : SameRequest before r arrived s held) :
    SameRequest before r arrived s' held := by
  have hready : ResponseReady s' before.requestId → ResponseReady s before.requestId :=
    h.responseReady
  by_cases hx : x = r
  · subst hx
    cases h with
    | remoteKvs loaded w finishedRecving failedRecving hconnector hstatus hloaded =>
      exact absurd hstatus hs.status_ne.1
    | grammar hstatus => exact absurd hstatus hs.status_ne.2.1
    | @toolCall hook hstatus henabled hhook hanswered =>
      have harrived : arrived := by
        apply hs.hook
        rw [← hs.tokens.requestId]
        exact ⟨hook, hhook, hanswered⟩
      exact
        { tokens := by
            rw [SchedulerState.objs_updateRequest_self]
            exact hs.tokens.trans
              { requestId := rfl
                promptTokenIds := rfl
                outputTokenIds := rfl
                allTokenIds := rfl
                numComputedTokens := rfl }
          status := by
            rw [SchedulerState.objs_updateRequest_self]
            exact Or.inr (Or.inl rfl)
          registered := hs.registered
          own := by
            intro y hy hid
            rw [SchedulerState.objs_updateRequest] at hid
            split at hid
            · assumption
            · exact hs.own y hy hid
          undisturbed := by
            intro event hevent hconcerns
            have hevent : event ∈ s.trace ++ [.promoted x] := hevent
            rw [List.mem_append, List.mem_singleton] at hevent
            rcases hevent with hevent | rfl
            · exact hs.undisturbed event hevent hconcerns
            · exact ⟨rfl, harrived⟩
          hook := fun _ => harrived }
  · apply hs.of_others h.sameRegistry (fun _ hy => hy) (h.objs_of_ne (Ne.symm hx)) _ hready
    intro event hevent
    rw [h.trace_eq, List.mem_append, List.mem_singleton] at hevent
    apply hevent.imp id
    rintro rfl
    exact hx

theorem inStep_of_head {s : SchedulerState W} {l : StepLocals} {which : WaitingQueue} {x : Ref}
    (h : (queue s which).head? = some x) : InStep (s, l) x :=
  Or.inl (Or.inr (heldWaiting_of_head h))

theorem mem_scheduled_addWaiting {l l' : StepLocals} {x y : Ref} {request : Request} {n : Int}
    {blocks : KVCacheBlocks} (h : SameButEncoder (self.addWaiting l x request n blocks) l') :
    (y ∈ l'.scheduledNewReqs → y ∈ l.scheduledNewReqs ∨ y = x) ∧
      (y ∈ l'.scheduledResumedReqs → y ∈ l.scheduledResumedReqs ∨ y = x) := by
  obtain ⟨inputs, budget, rfl⟩ := h
  unfold addWaiting
  dsimp only
  constructor
  · intro hy
    split at hy
    · rwa [List.mem_append, List.mem_singleton] at hy
    · exact Or.inl hy
  · intro hy
    split at hy
    · exact Or.inl hy
    · rwa [List.mem_append, List.mem_singleton] at hy

/-- The WAITING loop adds no request from outside. -/
theorem WaitingEffect.inStep {p p' : Frame W} (h : self.WaitingEffect p p') {x : Ref}
    (hx : InStep p' x) : InStep p x := by
  rcases hx with hx | hx
  · exact Or.inl (h.held_iff hx)
  cases h with
  | touch s l w => exact Or.inr hx
  | examine l hhead => exact Or.inr hx
  | lookup l w hcomputed => exact Or.inr hx
  | promote l hhead hpromotion => exact Or.inr hx
  | skip l hhead => exact Or.inr hx
  | load objs numComputedTokens hhead hconnector hunblocked hcomputed => exact Or.inr hx
  | admitWaiting blocks w hhead hstatus hcomputed hsome hbound hlocals =>
    rcases hx with hx | hx
    · rcases (mem_scheduled_addWaiting hlocals).1 hx with hx | rfl
      · exact Or.inr (Or.inl hx)
      · exact inStep_of_head hhead
    · rcases (mem_scheduled_addWaiting hlocals).2 hx with hx | rfl
      · exact Or.inr (Or.inr hx)
      · exact inStep_of_head hhead

/-- The WAITING loop keeps the tokens of a request with computed tokens. -/
theorem WaitingEffect.sameRequest {p p' : Frame W} (h : self.WaitingEffect p p')
    (hcomputed : before.numComputedTokens ≠ 0)
    (hp : SameRequest before r arrived p.1 (InStep p)) :
    SameRequest before r arrived p'.1 (InStep p') := by
  have hsame := h.sameRegistry
  have hheld : ∀ x, InStep p' x → InStep p x := fun x hx => h.inStep hx
  cases h with
  | touch s l w => exact hp.of_others hsame hheld rfl (fun _ h => Or.inl h) id
  | @examine s which request l hhead =>
    apply hp.of_others hsame hheld rfl _ id
    intro event hevent
    have hevent : event ∈ s.trace ++ [.examined request] := hevent
    rw [List.mem_append, List.mem_singleton] at hevent
    apply hevent.imp id
    rintro rfl
    exact id
  | @lookup s request l w hnone =>
    apply hp.of_others hsame hheld rfl _ id
    intro event hevent
    have hevent : event ∈ s.trace ++ [.prefixLookup request] := hevent
    rw [List.mem_append, List.mem_singleton] at hevent
    apply hevent.imp id
    rintro rfl rfl
    rw [hp.tokens.numComputedTokens] at hnone
    exact hcomputed hnone
  | promote l hhead hpromotion =>
    have hafter := hpromotion.sameRequest hp
    exact hafter.of_others (SameRegistry.refl _) hheld rfl (fun _ h => Or.inl h) id
  | @skip s which request l hhead =>
    apply hp.of_others hsame hheld
    · dsimp only
      rw [objs_popRequest]
    · intro event hevent
      dsimp only at hevent
      rw [trace_popRequest] at hevent
      exact Or.inl hevent
    · rintro ⟨hook, hsome, hready⟩
      dsimp only at hsome
      rw [edmmHook_popRequest] at hsome
      exact ⟨hook, hsome, hready⟩
  | @load s which request l objs numComputedTokens hhead hconnector hunblocked hnone =>
    apply hp.of_others hsame hheld
    · dsimp only
      rw [SchedulerState.objs_updateRequest_of_ne _ _ _, objs_popRequest]
      rintro rfl
      rw [hp.tokens.numComputedTokens] at hnone
      exact hcomputed hnone
    · intro event hevent
      dsimp only at hevent
      rw [SchedulerState.trace_updateRequest, trace_popRequest] at hevent
      exact Or.inl hevent
    · rintro ⟨hook, hsome, hready⟩
      dsimp only at hsome
      rw [SchedulerState.edmmHook_updateRequest, edmmHook_popRequest] at hsome
      exact ⟨hook, hsome, hready⟩
  | @admitWaiting s which request l l' numNewTokens numComputedTokens blocks w hhead hstatus hkeeps
      hsome hbound hlocals =>
    have htrace : (((self.popRequest which s).startRunning request w).updateRequest request
        fun r => { r with status := .running, numComputedTokens }).trace = s.trace :=
      self.trace_popRequest which s
    have hhook : (((self.popRequest which s).startRunning request w).updateRequest request
        fun r => { r with status := .running, numComputedTokens }).edmmHook = s.edmmHook :=
      self.edmmHook_popRequest which s
    have hobjs : ((self.popRequest which s).startRunning request w).objs = s.objs :=
      self.objs_popRequest which s
    by_cases hx : request = r
    · subst hx
      have hsome : numComputedTokens = before.numComputedTokens := by
        rw [← hp.tokens.numComputedTokens]
        apply hkeeps
        rw [hp.tokens.numComputedTokens]
        exact hcomputed
      exact
        { tokens := by
            dsimp only
            rw [SchedulerState.objs_updateRequest_self, hobjs]
            exact
              { requestId := hp.tokens.requestId
                promptTokenIds := hp.tokens.promptTokenIds
                outputTokenIds := hp.tokens.outputTokenIds
                allTokenIds := hp.tokens.allTokenIds
                numComputedTokens := hsome }
          status := by
            dsimp only
            rw [SchedulerState.objs_updateRequest_self]
            exact Or.inr (Or.inr rfl)
          registered := by
            rw [hsame.requests]
            exact hp.registered
          own := by
            intro y hy hid
            rw [hsame.requestId] at hid
            exact hp.own y (hheld y hy) hid
          undisturbed := by
            intro event hevent
            dsimp only at hevent
            rw [htrace] at hevent
            exact hp.undisturbed event hevent
          hook := by
            rintro ⟨hook, hsome, hready⟩
            dsimp only at hsome
            rw [hhook] at hsome
            exact hp.hook ⟨hook, hsome, hready⟩ }
    · apply hp.of_others hsame hheld
      · dsimp only
        rw [SchedulerState.objs_updateRequest_of_ne _ _ (Ne.symm hx), hobjs]
      · intro event hevent
        dsimp only at hevent
        rw [htrace] at hevent
        exact Or.inl hevent
      · rintro ⟨hook, hsome, hready⟩
        dsimp only at hsome
        rw [hhook] at hsome
        exact ⟨hook, hsome, hready⟩

/-- What is at the head of a queue and is not `r` leaves `r` in `skipped_waiting`. -/
theorem mem_skippedWaiting_popRequest {s : SchedulerState W} {which : WaitingQueue} {x : Ref}
    (hhead : (queue s which).head? = some x) (hx : r ≠ x) (hr : r ∈ s.skippedWaiting) :
    r ∈ (self.popRequest which s).skippedWaiting := by
  cases which with
  | waiting => exact hr
  | skippedWaiting =>
    have hhead : s.skippedWaiting.head? = some x := hhead
    obtain ⟨rest, hrest⟩ := List.head?_eq_some_iff.mp hhead
    apply (self.requestQueue.popRest_perm s.objs s.skippedWaiting).mem_iff.mpr
    rw [hrest] at hr ⊢
    exact (List.mem_cons.mp hr).resolve_left hx

section
variable {s s' : SchedulerState W} {which : WaitingQueue} {request : Ref} {l l' : StepLocals}
  (hp : StillPaused before r arrived (s, l))

include hp

/-- A blocked request is promoted: it stays at the head of its queue. -/
theorem StillPaused.promote (hsame : SameRequest before r arrived s' (InStep (s', l)))
    (hpromotion : self.Promotion s request s') : StillPaused before r arrived (s', l) where
  same := hsame
  notRunning := by
    have hrunning : s'.running = s.running := by
      cases hpromotion <;> rfl
    dsimp only
    rw [hrunning]
    refine ⟨?_, hp.notRunning.2⟩
    by_cases hx : r = request
    · rw [hx]
      rcases hpromotion.status with hstatus | hstatus
      · rw [hstatus]
        decide
      · rw [hstatus]
        decide
    · rw [hpromotion.objs_of_ne hx]
      exact hp.notRunning.1
  skipped := by
    have hskipped : s'.skippedWaiting = s.skippedWaiting := hpromotion.queue_eq .skippedWaiting
    dsimp only
    rw [hskipped]
    exact hp.skipped
  unscheduled := hp.unscheduled

/-- The head of a queue is put aside. -/
theorem StillPaused.skip (hhead : (queue s which).head? = some request) {aside : List Ref}
    (hsame : SameRequest before r arrived s'
      (InStep (s', { l with stepSkippedWaiting := aside })))
    (hobjs : s'.objs r = s.objs r) (hrunning : s'.running = s.running)
    (hskipped : s'.skippedWaiting = (self.popRequest which s).skippedWaiting)
    (haside : ∀ x, x ∈ aside ↔ x = request ∨ x ∈ l.stepSkippedWaiting) :
    StillPaused before r arrived (s', { l with stepSkippedWaiting := aside }) where
  same := hsame
  notRunning := by
    dsimp only
    rw [hobjs, hrunning]
    exact hp.notRunning
  skipped := by
    dsimp only
    rw [hskipped, haside]
    by_cases hx : r = request
    · exact Or.inr (Or.inl hx)
    · exact hp.skipped.imp (mem_skippedWaiting_popRequest hhead hx) Or.inr
  unscheduled := hp.unscheduled

/-- The request is admitted. -/
theorem StillPaused.admitted {numNewTokens numComputedTokens : Int} {blocks : KVCacheBlocks}
    {w : W}
    (hstatus : (s.objs r).status = .waiting ∨ (s.objs r).status = .preempted)
    (hkeeps : numComputedTokens = (s.objs r).numComputedTokens) (hsome : 0 < numNewTokens)
    (hbound : numNewTokens ≤ (s.objs r).numTokens - numComputedTokens)
    (hlocals : SameButEncoder (self.addWaiting l r (s.objs r) numNewTokens blocks) l')
    (hsame : SameRequest before r arrived
      (((self.popRequest which s).startRunning r w).updateRequest r
        fun r => { r with status := .running, numComputedTokens })
      (InStep (((self.popRequest which s).startRunning r w).updateRequest r
        fun r => { r with status := .running, numComputedTokens }, l'))) :
    JustAdmitted before r arrived (((self.popRequest which s).startRunning r w).updateRequest r
      fun r => { r with status := .running, numComputedTokens }, l') := by
  have hwaiting : (s.objs r).status = .waiting := by
    rcases hp.same.status with h | h | h
    · rcases hstatus with hstatus | hstatus
      · exact hstatus
      · exact absurd (h.symm.trans hstatus) (by decide)
    · exact h
    · exact absurd h hp.notRunning.1
  have hnumTokens : (s.objs r).numTokens = before.numTokens := by
    unfold Request.numTokens
    rw [hp.same.tokens.allTokenIds]
  obtain ⟨inputs, budget, rfl⟩ := hlocals
  refine ⟨hsame, ?_, ⟨numNewTokens, ?_, hsome, ?_⟩, ?_⟩
  · dsimp only
    rw [SchedulerState.objs_updateRequest_self]
  · rw [← hp.same.tokens.requestId]
    exact Dict.get?_set_self _ _ _
  · rw [hkeeps, hp.same.tokens.numComputedTokens, hnumTokens] at hbound
    exact hbound
  · unfold addWaiting
    dsimp only
    rw [if_pos hwaiting]
    exact List.mem_append_right _ (List.mem_singleton.mpr rfl)

/-- Another request is admitted. -/
theorem StillPaused.admitted_other (hx : r ≠ request)
    (hhead : (queue s which).head? = some request)
    {numNewTokens numComputedTokens : Int} {blocks : KVCacheBlocks} {w : W}
    (hlocals : SameButEncoder (self.addWaiting l request (s.objs request) numNewTokens blocks) l')
    (hsame : SameRequest before r arrived
      (((self.popRequest which s).startRunning request w).updateRequest request
        fun r => { r with status := .running, numComputedTokens })
      (InStep (((self.popRequest which s).startRunning request w).updateRequest request
        fun r => { r with status := .running, numComputedTokens }, l'))) :
    StillPaused before r arrived
      (((self.popRequest which s).startRunning request w).updateRequest request
        fun r => { r with status := .running, numComputedTokens }, l') where
  same := hsame
  notRunning := by
    constructor
    · dsimp only
      rw [SchedulerState.objs_updateRequest_of_ne _ _ hx]
      change ((self.popRequest which s).objs r).status ≠ _
      rw [objs_popRequest]
      exact hp.notRunning.1
    · intro hr
      have hr : r ∈ (self.popRequest which s).running ++ [request] := hr
      rw [running_popRequest, List.mem_append, List.mem_singleton] at hr
      exact hr.elim hp.notRunning.2 hx
  skipped := by
    apply hp.skipped.imp
    · exact mem_skippedWaiting_popRequest hhead hx
    · intro hr
      rw [hlocals.stepSkippedWaiting]
      exact hr
  unscheduled := by
    intro hkey
    obtain ⟨inputs, budget, rfl⟩ := hlocals
    obtain ⟨n, hn⟩ := Dict.mem_keys_iff.mp hkey
    have hn : (l.numScheduledTokens.set (s.objs request).requestId numNewTokens).get?
        before.requestId = some n := hn
    have hne := hp.same.ne_of_id (inStep_of_head hhead) (Ne.symm hx)
    rw [Dict.get?_set_of_ne _ _ (Ne.symm hne)] at hn
    exact hp.unscheduled (Dict.mem_keys_iff.mpr ⟨n, hn⟩)

end

/-- One change of the WAITING loop while the request waits. -/
theorem WaitingEffect.stillPaused {p p' : Frame W} (h : self.WaitingEffect p p')
    (hcomputed : before.numComputedTokens ≠ 0) (hp : StillPaused before r arrived p) :
    StillPaused before r arrived p' ∨ JustAdmitted before r arrived p' := by
  have hsame := h.sameRequest hcomputed hp.same
  cases h with
  | touch s l w => exact Or.inl ⟨hsame, hp.notRunning, hp.skipped, hp.unscheduled⟩
  | examine l hhead => exact Or.inl ⟨hsame, hp.notRunning, hp.skipped, hp.unscheduled⟩
  | lookup l w hnone => exact Or.inl ⟨hsame, hp.notRunning, hp.skipped, hp.unscheduled⟩
  | promote l hhead hpromotion => exact Or.inl (hp.promote hsame hpromotion)
  | @skip s which request l hhead =>
    refine Or.inl (hp.skip hhead hsame ?_ ?_ rfl fun x => self.mem_prependRequest)
    · rw [objs_popRequest]
    · rw [running_popRequest]
  | @load s which request l objs numComputedTokens hhead hconnector hunblocked hnone =>
    have hx : r ≠ request := by
      rintro rfl
      rw [hp.same.tokens.numComputedTokens] at hnone
      exact hcomputed hnone
    refine Or.inl (hp.skip hhead hsame ?_ ?_ rfl fun x => self.mem_prependRequest)
    · rw [SchedulerState.objs_updateRequest_of_ne _ _ hx, objs_popRequest]
    · rw [SchedulerState.running_updateRequest, running_popRequest]
  | @admitWaiting s which request l l' numNewTokens numComputedTokens blocks w hhead hstatus hkeeps
      hsome hbound hlocals =>
    by_cases hx : r = request
    · subst hx
      refine Or.inr (hp.admitted hstatus (hkeeps ?_) hsome hbound hlocals hsame)
      rw [hp.same.tokens.numComputedTokens]
      exact hcomputed
    · exact Or.inl (hp.admitted_other hx hhead hlocals hsame)

/-- One change of the WAITING loop once the request runs. -/
theorem WaitingEffect.justAdmitted {p p' : Frame W} (h : self.WaitingEffect p p')
    (hcomputed : before.numComputedTokens ≠ 0) (hp : JustAdmitted before r arrived p) :
    JustAdmitted before r arrived p' := by
  have hsame := h.sameRequest hcomputed hp.same
  cases h with
  | touch s l w =>
    exact { same := hsame, running := hp.running, scheduled := hp.scheduled, new := hp.new }
  | examine l hhead =>
    exact { same := hsame, running := hp.running, scheduled := hp.scheduled, new := hp.new }
  | lookup l w hnone =>
    exact { same := hsame, running := hp.running, scheduled := hp.scheduled, new := hp.new }
  | @promote s s' which request l hhead hpromotion =>
    have hx : r ≠ request := by
      rintro rfl
      have hblocked := hpromotion.blocked
      rw [show (s.objs r).status = .running from hp.running] at hblocked
      cases hblocked
    refine { same := hsame, running := ?_, scheduled := hp.scheduled, new := hp.new }
    dsimp only
    rw [hpromotion.objs_of_ne hx]
    exact hp.running
  | skip l hhead =>
    refine { same := hsame, running := ?_, scheduled := hp.scheduled, new := hp.new }
    dsimp only
    rw [objs_popRequest]
    exact hp.running
  | @load s which request l objs numComputedTokens hhead hconnector hunblocked hnone =>
    have hx : r ≠ request := by
      rintro rfl
      rw [hp.same.tokens.numComputedTokens] at hnone
      exact hcomputed hnone
    refine { same := hsame, running := ?_, scheduled := hp.scheduled, new := hp.new }
    dsimp only
    rw [SchedulerState.objs_updateRequest_of_ne _ _ hx, objs_popRequest]
    exact hp.running
  | @admitWaiting s which request l l' numNewTokens numComputedTokens blocks w hhead hstatus hkeeps
      hsome hbound hlocals =>
    have hx : r ≠ request := by
      rintro rfl
      rw [show (s.objs r).status = .running from hp.running] at hstatus
      rcases hstatus with h | h <;> cases h
    obtain ⟨inputs, budget, rfl⟩ := hlocals
    refine { same := hsame, running := ?_, scheduled := ?_, new := ?_ }
    · dsimp only
      rw [SchedulerState.objs_updateRequest_of_ne _ _ hx]
      change ((self.popRequest which s).objs r).status = _
      rw [objs_popRequest]
      exact hp.running
    · obtain ⟨n, hn, hbounds⟩ := hp.scheduled
      have hne := hp.same.ne_of_id (inStep_of_head hhead) (Ne.symm hx)
      exact ⟨n, (Dict.get?_set_of_ne _ _ (Ne.symm hne)).trans hn, hbounds⟩
    · unfold addWaiting
      dsimp only
      split
      · exact List.mem_append_left _ hp.new
      · exact hp.new

/-! ## 3. One operation -/

/-- The request between two operations. -/
structure PausedIn (before : Request) (r : Ref) (arrived : Prop) (s : SchedulerState W) :
    Prop where
  same : SameRequest before r arrived s (Queued s)
  notRunning : (s.objs r).status ≠ .running ∧ r ∉ s.running
  skipped : r ∈ s.skippedWaiting

/-- The first tokens of a request after its pause: at least one, at most what is left
    to compute, and the worker is told to start at the computed tokens. -/
structure StartsAtComputed (before : Request) (out : SchedulerOutput) : Prop where
  tokens : ∃ n, out.numScheduledTokens.get? before.requestId = some n ∧ 0 < n ∧
    n ≤ before.numTokens - before.numComputedTokens
  sent : ∃ data ∈ out.scheduledNewReqs, data.reqId = before.requestId
  start : ∀ data ∈ out.scheduledNewReqs, data.reqId = before.requestId →
    data.numComputedTokens = before.numComputedTokens

theorem stillPaused_start {s : SchedulerState W} (hs : PausedIn before r arrived s) :
    StillPaused before r arrived (s, self.startLocals s) where
  same := by
    apply hs.same.of_others (SameRegistry.refl s) _ rfl (fun _ h => Or.inl h) id
    rintro x ((hx | hx | hx | hx) | hx | hx)
    · exact Or.inl hx
    · exact Or.inr (Or.inl hx)
    · exact Or.inr (Or.inr hx)
    · cases hx
    · cases hx
    · cases hx
  notRunning := hs.notRunning
  skipped := Or.inl hs.skipped
  unscheduled := by
    intro hkey
    cases hkey

theorem RunningEffects.stillPaused {p p' : Frame W} (h : self.RunningEffects p p')
    (hp : StillPaused before r arrived p) : StillPaused before r arrived p' :=
  invariant_of_chain (I := fun p => StillPaused before r arrived p)
    (fun _ _ heffect hbefore => heffect.stillPaused hbefore) h hp

theorem WaitingEffects.stillPaused {p p' : Frame W} (h : self.WaitingEffects p p')
    (hcomputed : before.numComputedTokens ≠ 0) (hp : StillPaused before r arrived p) :
    StillPaused before r arrived p' ∨ JustAdmitted before r arrived p' := by
  apply invariant_of_chain
    (I := fun p => StillPaused before r arrived p ∨ JustAdmitted before r arrived p) _ h
    (Or.inl hp)
  rintro p p' heffect (hstill | hadmitted)
  · exact heffect.stillPaused hcomputed hstill
  · exact Or.inr (heffect.justAdmitted hcomputed hadmitted)

theorem exists_of_forall₂ {α β : Type} {R : α → β → Prop} {as : List α} {bs : List β}
    (h : List.Forall₂ R as bs) :
    (∀ a ∈ as, ∃ b ∈ bs, R a b) ∧ ∀ b ∈ bs, ∃ a ∈ as, R a b := by
  induction h with
  | nil => exact ⟨nofun, nofun⟩
  | cons hhead _ ih =>
    constructor
    · intro a ha
      rcases List.mem_cons.mp ha with rfl | ha
      · exact ⟨_, List.mem_cons_self, hhead⟩
      · obtain ⟨b, hb, hab⟩ := ih.1 a ha
        exact ⟨b, List.mem_cons_of_mem _ hb, hab⟩
    · intro b hb
      rcases List.mem_cons.mp hb with rfl | hb
      · exact ⟨_, List.mem_cons_self, hhead⟩
      · obtain ⟨a, ha, hab⟩ := ih.2 b hb
        exact ⟨a, List.mem_cons_of_mem _ ha, hab⟩

/-- **`schedule()`.**  The request stays paused, or gets its first tokens. -/
theorem Scheduled.pausedIn {s s' : SchedulerState W} {afterRunning afterWaiting : Frame W}
    {out : SchedulerOutput} (h : self.Scheduled s afterRunning afterWaiting out s')
    (hok : RegistryOk s) (hcomputed : before.numComputedTokens ≠ 0)
    (hs : PausedIn before r arrived s) :
    (before.requestId ∉ out.numScheduledTokens.keys ∧ PausedIn before r arrived s') ∨
      (StartsAtComputed before out ∧ ∀ event ∈ s'.trace, Concerns r event →
        event = .promoted r ∧ arrived) := by
  have hwaiting := WaitingEffects.stillPaused h.waiting hcomputed
    (RunningEffects.stillPaused h.running (stillPaused_start hs))
  have hsame : SameRegistry s afterWaiting.1 :=
    (RunningEffects.sameRegistry h.running).trans (WaitingEffects.sameRegistry h.waiting)
  have hfinal := h.final
  rcases hwaiting with hstill | hadmitted
  · have hunscheduled : before.requestId ∉ out.numScheduledTokens.keys := by
      rw [h.output.numScheduledTokens]
      exact hstill.unscheduled
    have hobjs : s'.objs r = afterWaiting.1.objs r := by
      apply hfinal.unscheduled (hsame.registryOk hok)
      rw [hstill.same.tokens.requestId]
      exact hunscheduled
    refine Or.inl ⟨hunscheduled, ?_⟩
    exact
      { same := by
          apply hstill.same.of_others hfinal.sameRegistry _ hobjs
          · intro event hevent
            rw [hfinal.trace] at hevent
            exact Or.inl hevent
          · rintro ⟨hook, hsome, hready⟩
            rw [hfinal.edmmHook] at hsome
            exact ⟨hook, hsome, hready⟩
          · exact fun x hx => Or.inl ((hfinal.queued x).mp hx)
        notRunning := by
          rw [hobjs, hfinal.running]
          exact hstill.notRunning
        skipped := by
          rw [hfinal.skippedWaiting]
          exact self.mem_requeueSkipped.mpr hstill.skipped }
  · refine Or.inr ⟨?_, by rw [hfinal.trace]; exact hadmitted.same.undisturbed⟩
    obtain ⟨hsent, hall⟩ := exists_of_forall₂ h.output.newReqs
    exact
      { tokens := by
          rw [h.output.numScheduledTokens]
          exact hadmitted.scheduled
        sent := by
          obtain ⟨data, hdata, blocks, hnew, _⟩ := hsent r (by
            split
            · exact List.mem_append_left _ hadmitted.new
            · exact hadmitted.new)
          refine ⟨data, hdata, ?_⟩
          rw [hnew]
          exact hadmitted.same.tokens.requestId
        start := by
          intro data hdata hid
          obtain ⟨x, hx, blocks, hnew, _⟩ := hall data hdata
          have hstep : InStep afterWaiting x := by
            split at hx
            · exact Or.inr (List.mem_append.mp hx)
            · exact Or.inr (Or.inl hx)
          rw [hnew] at hid ⊢
          have hxr := hadmitted.same.own x hstep hid
          rw [hxr]
          exact hadmitted.same.tokens.numComputedTokens }

/-- `num_new_tokens > 0` does not fail for the request. -/
theorem ScheduleError.not_paused {s s' : SchedulerState W} {e : PyError}
    (h : self.ScheduleError s e s') (he : e = numNewTokensPositive)
    (hcomputed : before.numComputedTokens ≠ 0)
    (hremaining : before.numComputedTokens < before.numTokens)
    (hs : PausedIn before r arrived s) : lastExamined s'.trace ≠ some r := by
  obtain ⟨p, hrunning, hwaiting⟩ := h.examining he
  obtain ⟨l', which, request, heffects, hexamined, _, htokens⟩ := hwaiting.2 he
  have hsame : SameRequest before r arrived s' (InStep (s', l')) := by
    rcases WaitingEffects.stillPaused heffects hcomputed
      (RunningEffects.stillPaused hrunning (stillPaused_start hs)) with hstill | hadmitted
    · exact hstill.same
    · exact hadmitted.same
  intro hlast
  rw [hexamined] at hlast
  cases hlast
  have hnumTokens : (s'.objs r).numTokens = before.numTokens := by
    unfold Request.numTokens
    rw [hsame.tokens.allTokenIds]
  rw [hnumTokens, hsame.tokens.numComputedTokens] at htokens
  exact absurd (htokens hcomputed) (not_le.mpr hremaining)

/-- Other requests changed between two operations. -/
theorem PausedIn.of_others {s s' : SchedulerState W} (hs : PausedIn before r arrived s)
    (hsame : SameRegistry s s') (hqueued : ∀ x, Queued s' x → Queued s x)
    (hrunning : r ∈ s'.running → r ∈ s.running) (hskipped : r ∈ s'.skippedWaiting)
    (hobjs : s'.objs r = s.objs r)
    (htrace : ∀ event ∈ s'.trace, event ∈ s.trace ∨ ¬ Concerns r event)
    (hhook : ResponseReady s' before.requestId → ResponseReady s before.requestId) :
    PausedIn before r arrived s' where
  same := hs.same.of_others hsame hqueued hobjs htrace hhook
  notRunning := by
    rw [hobjs]
    exact ⟨hs.notRunning.1, fun hr => hs.notRunning.2 (hrunning hr)⟩
  skipped := hskipped

/-- A registered request that is not `r` has another id. -/
theorem PausedIn.ne_id {s : SchedulerState W} (hs : PausedIn before r arrived s) {x : Ref}
    {reqId : RequestId} (hregistered : s.requests.get? reqId = some x) (hx : x ≠ r) :
    before.requestId ≠ reqId := by
  rintro rfl
  rw [hs.same.registered] at hregistered
  exact hx (Option.some.inj hregistered).symm

theorem FinishEffect.pausedIn {finishedStatus : RequestStatus} {valid : List Ref}
    {s s' : SchedulerState W} (h : self.FinishEffect finishedStatus valid s s')
    (hvalid : r ∉ valid) (hs : PausedIn before r arrived s) : PausedIn before r arrived s' := by
  cases h with
  | @finish request delayed w finishedRecving failedRecving hmem hregistered hunfinished
      hfinished hdelayed =>
    have hx : r ≠ request := by
      rintro rfl
      exact hvalid hmem
    have hobjs : ∀ x, ((afterFree (SchedulerState.updateRequest
        { s with
          finishedRecvingKvReqIds := finishedRecving
          failedRecvingKvReqIds := failedRecving }
        request fun r => { r with status := finishedStatus }) request w delayed).objs x).requestId =
          (s.objs x).requestId := by
      intro x
      change (Function.update s.objs request _ x).requestId = _
      by_cases heq : x = request
      · rw [heq, Function.update_self]
      · rw [Function.update_of_ne heq]
    have hsameObj : (afterFree (SchedulerState.updateRequest
        { s with
          finishedRecvingKvReqIds := finishedRecving
          failedRecvingKvReqIds := failedRecving }
        request fun r => { r with status := finishedStatus }) request w delayed).objs r =
          s.objs r := Function.update_of_ne hx _ _
    exact
      { same := by
          apply hs.same.of_frame _ _ hsameObj
          · intro event hevent
            have hevent : event ∈ s.trace ++ [.freed request] := hevent
            rw [List.mem_append, List.mem_singleton] at hevent
            apply hevent.imp id
            rintro rfl
            exact Ne.symm hx
          · exact id
          · cases delayed with
            | true => exact hs.same.registered
            | false =>
              refine Eq.trans ?_ hs.same.registered
              apply Dict.get?_erase_of_ne
              rw [SchedulerState.objs_updateRequest_self]
              exact hs.ne_id hregistered (Ne.symm hx)
          · intro x hxheld hid
            rw [hobjs] at hid
            exact hs.same.own x hxheld hid
        notRunning := by
          rw [hsameObj]
          exact hs.notRunning
        skipped := hs.skipped }

theorem FinishedBy.pausedIn {requestIds : Option (List RequestId)}
    {finishedStatus : RequestStatus} {s s' : SchedulerState W}
    (h : self.FinishedBy requestIds finishedStatus s s')
    (hvalid : r ∉ validRequests s requestIds) (hs : PausedIn before r arrived s) :
    PausedIn before r arrived s' := by
  apply invariant_of_chain (I := fun s => PausedIn before r arrived s)
    (fun _ _ heffect hbefore => heffect.pausedIn hvalid hbefore) h.effects
  apply PausedIn.of_others hs
  · exact { requests := rfl, nextRef := rfl, requestId := fun _ => rfl }
  · exact fun _ hx => queued_removeFromQueues hx
  · exact fun hr => (List.mem_filter.mp hr).1
  · simp only [removeFromQueues]
    split
    · exact hs.skipped
    · apply self.mem_removeRequests.mpr
      exact ⟨hs.skipped, fun hr => hvalid (List.mem_filter.mp hr).1⟩
  · rfl
  · exact fun _ h => Or.inl h
  · exact id

/-- The request is not named, so it is not finished. -/
theorem not_mem_validRequests {s : SchedulerState W} (hok : RegistryOk s)
    (hs : PausedIn before r arrived s) {ids : List RequestId} (hids : before.requestId ∉ ids) :
    r ∉ validRequests s (some ids) := by
  intro hr
  obtain ⟨reqId, hreqId, hmem⟩ := mem_validRequests hr
  have hid := hok.carries (s.unfinished?_eq_some.mp hreqId).1
  rw [hs.same.tokens.requestId] at hid
  exact hids (hid ▸ hmem ids rfl)

theorem ConnectorEffect.pausedIn {s s' : SchedulerState W} (h : ConnectorEffect s s')
    (hs : PausedIn before r arrived s) : PausedIn before r arrived s' := by
  cases h with
  | touch w =>
    exact hs.of_others { requests := rfl, nextRef := rfl, requestId := fun _ => rfl }
      (fun _ h => h) id hs.skipped rfl (fun _ h => Or.inl h) id
  | loads finishedRecving failedRecving =>
    exact hs.of_others { requests := rfl, nextRef := rfl, requestId := fun _ => rfl }
      (fun _ h => h) id hs.skipped rfl (fun _ h => Or.inl h) id
  | @recompute request numComputedTokens haffected =>
    have hx : r ≠ request := by
      rintro rfl
      rcases haffected with hrunning | hstatus
      · exact hs.notRunning.2 hrunning
      · exact hs.same.status_ne.1 hstatus
    apply PausedIn.of_others hs
    · exact SameRegistry.updateRequest (SameRegistry.refl s) rfl
    · exact fun _ h => h
    · exact id
    · exact hs.skipped
    · exact SchedulerState.objs_updateRequest_of_ne _ _ hx
    · exact fun _ h => Or.inl h
    · exact id
  | @drop request w hregistered hfinished =>
    have hx : request ≠ r := by
      rintro rfl
      rw [hs.same.isFinished] at hfinished
      cases hfinished
    exact
      { same := by
          apply SameRequest.of_frame hs.same
          · exact (Dict.get?_erase_of_ne _ (hs.ne_id hregistered hx)).trans hs.same.registered
          · exact hs.same.own
          · rfl
          · exact fun _ h => Or.inl h
          · exact id
        notRunning := hs.notRunning
        skipped := hs.skipped }

/-- **`update_from_output`.** -/
theorem Updated.pausedIn {out : SchedulerOutput} {mro : ModelRunnerOutput}
    {s start done s' : SchedulerState W} {acc : OutputLocals}
    (h : self.Updated out mro s start done acc s') (hok : RegistryOk s)
    (hothers : before.requestId ∉ out.numScheduledTokens.keys)
    (hs : PausedIn before r arrived s) : PausedIn before r arrived s' := by
  have hconnector : ∀ {s s' : SchedulerState W}, ConnectorEffects s s' →
      PausedIn before r arrived s → PausedIn before r arrived s' := fun hchain =>
    invariant_of_chain (I := fun s => PausedIn before r arrived s)
      (fun _ _ heffect hbefore => heffect.pausedIn hbefore) hchain
  have hokStart : RegistryOk start :=
    invariant_of_chain (fun _ _ heffect hbefore => heffect.registryOk hbefore) h.invalid hok
  have hstart := hconnector h.invalid hs
  have hne : ∀ {reqId x}, reqId ∈ out.numScheduledTokens.keys →
      start.unfinished? reqId = some x → x ≠ r ∧ before.requestId ≠ reqId := by
    intro reqId x hkey hx
    have hreqId : before.requestId ≠ reqId := fun hid => hothers (hid ▸ hkey)
    refine ⟨?_, hreqId⟩
    rintro rfl
    have hid := hokStart.carries (start.unfinished?_eq_some.mp hx).1
    exact hreqId (hstart.same.tokens.requestId ▸ hid)
  have hdone : PausedIn before r arrived done ∧
      ∀ x, (done.objs x).requestId = (start.objs x).requestId := by
    apply invariant_of_chain
      (I := fun p : SchedulerState W × OutputLocals => PausedIn before r arrived p.1 ∧
        ∀ x, (p.1.objs x).requestId = (start.objs x).requestId) _ h.outputs
      ⟨hstart, fun _ => rfl⟩
    rintro p p' ⟨reqId, heffect⟩ ⟨hp, hpids⟩
    obtain ⟨hobjs, hrequests⟩ := heffect.frame
    obtain ⟨hwaiting, hskipped, hmono, htrace, hids⟩ := heffect.affects
    obtain ⟨hrunning, hhook, _, _⟩ := heffect.unchanged
    have hids' : ∀ x, (p'.1.objs x).requestId = (start.objs x).requestId :=
      fun x => (hids x).trans (hpids x)
    have hown : ∀ {x}, reqId ∈ out.numScheduledTokens.keys ∧ start.unfinished? reqId = some x →
        (p'.1.objs x).requestId = before.requestId → x = r := by
      rintro x ⟨hkey, hx⟩ hid
      have hstartId := hokStart.carries (start.unfinished?_eq_some.mp hx).1
      rw [hids', hstartId] at hid
      exact absurd hid.symm (hne hkey hx).2
    have hobjsr : p'.1.objs r = p.1.objs r := hobjs r fun hkey hr => (hne hkey hr).1 rfl
    refine ⟨?_, hids'⟩
    exact
      { same := by
          apply SameRequest.of_frame hp.same
          · rw [hrequests before.requestId fun hkey hid => hothers (hid ▸ hkey)]
            exact hp.same.registered
          · intro x hx hid
            have hold : Queued p.1 x → x = r := by
              intro hx
              rw [hids] at hid
              exact hp.same.own x hx hid
            rcases hx with hx | hx | hx
            · rw [hrunning] at hx
              exact hold (Or.inl hx)
            · rcases hwaiting x hx with hx | hx
              · exact hold (Or.inr (Or.inl hx))
              · exact hown hx hid
            · rcases hskipped x hx with hx | hx
              · exact hold (Or.inr (Or.inr hx))
              · exact hown hx hid
          · exact hobjsr
          · intro event hevent
            apply (htrace event hevent).imp id
            rintro ⟨x, rfl, hkey, hx⟩
            exact (hne hkey hx).1
          · rintro ⟨hook, hsome, hready⟩
            exact ⟨hook, hhook ▸ hsome, hready⟩
        notRunning := by
          rw [hobjsr, hrunning]
          exact hp.notRunning
        skipped := hmono r hp.skipped }
  have hremoved : PausedIn before r arrived (self.removeStopped acc done) := by
    apply PausedIn.of_others hdone.1
    · exact { requests := rfl, nextRef := rfl, requestId := fun _ => rfl }
    · exact fun _ hx => queued_removeStopped hx
    · exact fun hr => (List.mem_filter.mp hr).1
    · exact hdone.1.skipped
    · rfl
    · exact fun _ h => Or.inl h
    · exact id
  obtain ⟨failed, hfailed, hloads⟩ := h.loaded
  apply hconnector hloads
  rcases hfailed with rfl | ⟨ids, haffected, hfinished⟩
  · exact hremoved
  · apply hfinished.pausedIn _ hremoved
    have hokRemoved : RegistryOk (self.removeStopped acc done) :=
      invariant_of_chain (I := fun p : SchedulerState W × OutputLocals => RegistryOk p.1)
        (fun _ _ ⟨_, heffect⟩ hbefore => heffect.registryOk hbefore) h.outputs hokStart
    apply not_mem_validRequests hokRemoved hremoved
    -- invalid blocks belong to requests that run or load, so to other ones
    intro hid
    obtain ⟨x, hxid, hx⟩ := haffected _ hid
    have hxr : x = r := by
      apply hs.same.own x _ hxid
      rcases hx with hx | hx
      · exact Or.inl hx
      · exact Or.inr (Or.inr hx.1)
    subst hxr
    rcases hx with hx | ⟨_, hstatus⟩
    · exact hs.notRunning.2 hx
    · exact hs.same.status_ne.1 hstatus

/-- **`reset_prefix_cache`** preempts requests in `running` only. -/
theorem ResetEffect.pausedIn {s s' : SchedulerState W} (h : self.ResetEffect s s')
    (hs : PausedIn before r arrived s) : PausedIn before r arrived s' := by
  have hsame := h.sameRegistry
  cases h with
  | @preempt victim rest w hvictim hstatus =>
    have hmem : ∀ y, y ∈ s.running ↔ y ∈ rest ∨ y = victim := by
      intro y
      rw [hvictim, List.mem_append, List.mem_singleton]
    have hx : r ≠ victim := by
      rintro rfl
      exact hs.notRunning.2 ((hmem r).mpr (Or.inr rfl))
    apply PausedIn.of_others hs hsame
    · rintro x (hx | hx | hx)
      · exact Or.inl ((hmem x).mpr (Or.inl hx))
      · rcases self.mem_prependRequest.mp hx with rfl | hx
        · exact Or.inl ((hmem x).mpr (Or.inr rfl))
        · exact Or.inr (Or.inl hx)
      · exact Or.inr (Or.inr hx)
    · exact fun hr => (hmem r).mpr (Or.inl hr)
    · exact hs.skipped
    · rw [SchedulerState.objs_updateRequest_of_ne _ _ hx]
      exact SchedulerState.objs_updateRequest_of_ne _ _ hx
    · intro event hevent
      have hevent : event ∈ s.trace ++ [.preempted victim] := hevent
      rw [List.mem_append, List.mem_singleton] at hevent
      apply hevent.imp id
      rintro rfl
      exact Ne.symm hx
    · exact id

/-- **`add_request`** of a new request. -/
theorem pausedIn_afterRegister {s : SchedulerState W} (hok : RegistryOk s) {added : Request}
    (w : W) (habsent : s.requests.get? added.requestId = none)
    (hs : PausedIn before r arrived s) :
    PausedIn before r arrived (self.afterRegister s added w) := by
  have hknown : r < s.nextRef := hok.known hs.same.registered
  have hobjs : (self.afterRegister s added w).objs r = s.objs r :=
    Function.update_of_ne (Nat.ne_of_lt hknown) _ _
  have hid : before.requestId ≠ added.requestId := by
    intro hid
    rw [← hid, hs.same.registered] at habsent
    cases habsent
  exact
    { same := by
        apply hs.same.of_frame _ _ hobjs
        · intro event hevent
          have hevent : event ∈ s.trace ++ [.registered s.nextRef] := hevent
          rw [List.mem_append, List.mem_singleton] at hevent
          apply hevent.imp id
          rintro rfl
          exact id
        · exact id
        · exact (Dict.get?_set_of_ne _ _ hid).trans hs.same.registered
        · intro x hx hxid
          by_cases hnew : x = s.nextRef
          · rw [hnew, show (self.afterRegister s added w).objs s.nextRef = added from
              Function.update_self ..] at hxid
            exact absurd hxid.symm hid
          · rw [show (self.afterRegister s added w).objs x = s.objs x from
              Function.update_of_ne hnew _ _] at hxid
            exact hs.same.own x ((queued_afterRegister hx).resolve_left hnew) hxid
      notRunning := by
        rw [hobjs]
        exact hs.notRunning
      skipped := by
        unfold afterRegister
        dsimp only
        split
        · exact self.mem_addRequest.mpr (Or.inr hs.skipped)
        · exact hs.skipped }

/-- A write that keeps tokens, status and id of the requests. -/
theorem PausedIn.of_update {s s' : SchedulerState W} (hs : PausedIn before r arrived s)
    (hsame : SameRegistry s s') (hqueued : ∀ x, Queued s' x → Queued s x)
    (hrunning : s'.running = s.running) (hskipped : s'.skippedWaiting = s.skippedWaiting)
    (htokens : SameTokens (s.objs r) (s'.objs r)) (hstatus : (s'.objs r).status = (s.objs r).status)
    (htrace : s'.trace = s.trace) (hhook : s'.edmmHook = s.edmmHook) :
    PausedIn before r arrived s' where
  same :=
    { tokens := hs.same.tokens.trans htokens
      status := by
        rw [hstatus]
        exact hs.same.status
      registered := by
        rw [hsame.requests]
        exact hs.same.registered
      own := by
        intro x hx hid
        rw [hsame.requestId] at hid
        exact hs.same.own x (hqueued x hx) hid
      undisturbed := by
        rw [htrace]
        exact hs.same.undisturbed
      hook := by
        rintro ⟨hook, hsome, hready⟩
        exact hs.same.hook ⟨hook, hhook ▸ hsome, hready⟩ }
  notRunning := by
    rw [hstatus, hrunning]
    exact hs.notRunning
  skipped := by
    rw [hskipped]
    exact hs.skipped

/-- **`add_request`** of a registered id. -/
theorem SessionEffect.pausedIn {request : Request} {existing : Ref} {s s' : SchedulerState W}
    (h : self.SessionEffect request existing s s')
    (hexisting : s.requests.get? request.requestId = some existing) (hok : RegistryOk s)
    (hs : PausedIn before r arrived s) : PausedIn before r arrived s' := by
  cases h with
  | append hstatus =>
    by_cases hx : r = existing
    · subst hx
      apply PausedIn.of_update hs
      · exact SameRegistry.updateRequest (SameRegistry.refl s) rfl
      · exact fun _ h => h
      · rfl
      · rfl
      · rw [SchedulerState.objs_updateRequest_self]
        exact
          { requestId := rfl
            promptTokenIds := rfl
            outputTokenIds := rfl
            allTokenIds := rfl
            numComputedTokens := rfl }
      · rw [SchedulerState.objs_updateRequest_self]
        rfl
      · rfl
      · rfl
    · apply PausedIn.of_others hs
      · exact SameRegistry.updateRequest (SameRegistry.refl s) rfl
      · exact fun _ h => h
      · exact id
      · exact hs.skipped
      · exact SchedulerState.objs_updateRequest_of_ne _ _ hx
      · exact fun _ h => Or.inl h
      · exact id
  | @proceed update hstatus hprompt =>
    have hx : r ≠ existing := by
      rintro rfl
      exact hs.same.status_ne.2.2 hstatus
    apply PausedIn.of_others hs
    · apply SameRegistry.updateRequest
      · exact { requests := rfl, nextRef := rfl, requestId := fun _ => rfl }
      · exact self.continueSession_requestId update _
    · exact fun _ h => h
    · exact id
    · exact hs.skipped
    · exact SchedulerState.objs_updateRequest_of_ne _ _ hx
    · exact fun _ h => Or.inl h
    · exact id
  | endSession hstatus hfinished =>
    apply hfinished.pausedIn _ hs
    apply not_mem_validRequests hok hs
    intro hid
    rw [List.mem_singleton] at hid
    rw [← hid, hs.same.registered] at hexisting
    cases hexisting
    exact hs.same.status_ne.2.2 hstatus

/-- The pause of another request. -/
theorem pausedIn_afterPause {s : SchedulerState W} {reqId : RequestId}
    (reading : EdmmSchedulerHook.PauseReading) {request : Ref} (hx : r ≠ request)
    (hs : PausedIn before r arrived s) :
    PausedIn before r arrived (afterPause s reqId reading request) := by
  apply PausedIn.of_others hs
  · apply SameRegistry.updateRequest
    · exact { requests := rfl, nextRef := rfl, requestId := fun _ => rfl }
    · rfl
  · exact fun _ h => h
  · exact id
  · exact hs.skipped
  · exact SchedulerState.objs_updateRequest_of_ne _ _ hx
  · exact fun _ h => Or.inl h
  · rintro ⟨hook, hsome, hready⟩
    obtain ⟨old, hold, rfl⟩ := Option.map_eq_some_iff.mp hsome
    refine ⟨old, hold, ?_⟩
    rw [EdmmSchedulerHook.isToolResponseReady,
      EdmmSchedulerHook.toolResponses_onToolCallPause] at hready
    exact hready

theorem pausedIn_afterHold {s : SchedulerState W} {reqId : RequestId}
    (reading : EdmmSchedulerHook.PauseReading) {request : Ref} (hx : r ≠ request)
    (hqueued : (s.objs request).requestId ≠ before.requestId)
    (hs : PausedIn before r arrived s) :
    PausedIn before r arrived (self.afterHold s reqId reading request) := by
  have hpaused : PausedIn before r arrived (afterPause s reqId reading request) :=
    pausedIn_afterPause reading hx hs
  exact
    { same := by
        apply SameRequest.of_frame hpaused.same
        · exact hpaused.same.registered
        · intro x hxq hid
          by_cases hxr : x = request
          · rw [hxr, show (self.afterHold s reqId reading request).objs request = _ from
              SchedulerState.objs_updateRequest_self ..] at hid
            exact absurd hid hqueued
          · exact hpaused.same.own x (show Queued s x from queued_afterHold hxq hxr) hid
        · rfl
        · exact fun _ h => Or.inl h
        · exact id
      notRunning := by
        refine ⟨hpaused.notRunning.1, fun hr => ?_⟩
        exact hs.notRunning.2 (List.mem_filter.mp hr).1
      skipped := by
        apply self.mem_addRequest.mpr
        refine Or.inr (self.mem_removeRequests.mpr ⟨hs.skipped, ?_⟩)
        rwa [List.mem_singleton] }

end Scheduler

/-! ## 4. Runs -/

/-- The operation concerns other requests only. -/
def SchedulerOp.ConcernsOthers (reqId : RequestId) : SchedulerOp W → Prop
  | .updateFromOutput out _ => reqId ∉ out.numScheduledTokens.keys
  | .finishRequests requestIds _ => ∃ ids ∈ requestIds, reqId ∉ ids
  | .pauseInPlace other _ => other ≠ reqId
  | .holdForToolCall other _ => other ≠ reqId
  | _ => True

instance (reqId : RequestId) (op : SchedulerOp W) : Decidable (op.ConcernsOthers reqId) := by
  unfold SchedulerOp.ConcernsOthers
  split <;> infer_instance

/-- The operation delivers the response of the request. -/
def SchedulerOp.Answers (reqId : RequestId) (op : SchedulerOp W) : Prop :=
  op = .submitToolResponse reqId

namespace Scheduler

variable {self : Scheduler W} {before : Request} {r : Ref} {arrived : Prop}

/-- **Step lemma.** -/
theorem OperationEffect.pausedIn {s s' : SchedulerState W} {op : SchedulerOp W}
    {out : Option SchedulerOutput} (h : self.OperationEffect s op out s') (hok : RegistryOk s)
    (hcomputed : before.numComputedTokens ≠ 0) (hothers : op.ConcernsOthers before.requestId)
    (hanswers : ¬ op.Answers before.requestId)
    (hunscheduled : ∀ output ∈ out, before.requestId ∉ output.numScheduledTokens.keys)
    (hs : PausedIn before r arrived s) : PausedIn before r arrived s' := by
  have hne : ∀ {reqId request}, reqId ≠ before.requestId → pausable? s reqId = some request →
      r ≠ request ∧ (s.objs request).requestId ≠ before.requestId := by
    intro reqId request hreqId hpausable
    have hid := hok.carries (pausable?_eq_some hpausable).1
    constructor
    · rintro rfl
      rw [hs.same.tokens.requestId] at hid
      exact hreqId hid.symm
    · rw [hid]
      exact hreqId
  cases h with
  | register w hinit habsent =>
    apply pausedIn_afterRegister hok w _ hs
    rw [sessionStarted_requestId]
    exact habsent
  | session hinit hexisting heffect => exact heffect.pausedIn hexisting hok hs
  | schedule hscheduled =>
    rcases hscheduled.pausedIn hok hcomputed hs with ⟨_, hpaused⟩ | ⟨hstarts, _⟩
    · exact hpaused
    · obtain ⟨n, hn, _⟩ := hstarts.tokens
      exact absurd (Dict.mem_keys_iff.mpr ⟨n, hn⟩) (hunscheduled _ rfl)
  | updateFromOutput hupdated => exact hupdated.pausedIn hok hothers hs
  | finishRequests hfinished =>
    obtain ⟨ids, hids, hnamed⟩ := hothers
    cases hids
    exact hfinished.pausedIn (not_mem_validRequests hok hs hnamed) hs
  | updateDraftTokenIds objs hobjs =>
    obtain ⟨specTokenIds, hspec⟩ := hobjs r
    apply PausedIn.of_update hs
    · exact
        { requests := rfl
          nextRef := rfl
          requestId := by
            intro x
            obtain ⟨specTokenIds, hx⟩ := hobjs x
            change (objs x).requestId = _
            rw [hx] }
    · exact fun _ h => h
    · rfl
    · rfl
    · dsimp only
      rw [hspec]
      exact
        { requestId := rfl
          promptTokenIds := rfl
          outputTokenIds := rfl
          allTokenIds := rfl
          numComputedTokens := rfl }
    · dsimp only
      rw [hspec]
    · rfl
    · rfl
  | @resetPrefixCache _ _ s₁ previous w hreset hprevious =>
    have hafter := invariant_of_chain (I := fun s => PausedIn before r arrived s)
      (fun _ _ heffect hbefore => heffect.pausedIn hbefore) hreset hs
    apply PausedIn.of_others hafter
    · exact { requests := rfl, nextRef := rfl, requestId := fun _ => rfl }
    · exact fun _ h => h
    · exact id
    · exact hafter.skipped
    · rfl
    · exact fun _ h => Or.inl h
    · exact id
  | setPauseState pauseState =>
    apply PausedIn.of_others hs
    · exact { requests := rfl, nextRef := rfl, requestId := fun _ => rfl }
    · exact fun _ h => h
    · exact id
    · exact hs.skipped
    · rfl
    · exact fun _ h => Or.inl h
    · exact id
  | pauseInPlace hpausable => exact pausedIn_afterPause _ (hne hothers hpausable).1 hs
  | holdForToolCall hpausable =>
    obtain ⟨hx, hid⟩ := hne hothers hpausable
    exact pausedIn_afterHold _ hx hid hs
  | pauseInPlaceIgnored hnone => exact hs
  | holdForToolCallIgnored hnone => exact hs
  | @submitToolResponse reqId =>
    have hreqId : before.requestId ≠ reqId := by
      rintro rfl
      exact hanswers rfl
    apply PausedIn.of_others hs
    · exact { requests := rfl, nextRef := rfl, requestId := fun _ => rfl }
    · exact fun _ h => h
    · exact id
    · exact hs.skipped
    · rfl
    · exact fun _ h => Or.inl h
    · rintro ⟨hook, hsome, hready⟩
      obtain ⟨old, hold, rfl⟩ := Option.map_eq_some_iff.mp hsome
      refine ⟨old, hold, ?_⟩
      rw [EdmmSchedulerHook.isToolResponseReady_submit] at hready
      simpa [hreqId] using hready
  | @recordSpeculativeHandle reqId handle =>
    apply PausedIn.of_others hs
    · exact { requests := rfl, nextRef := rfl, requestId := fun _ => rfl }
    · exact fun _ h => h
    · exact id
    · exact hs.skipped
    · rfl
    · exact fun _ h => Or.inl h
    · rintro ⟨hook, hsome, hready⟩
      obtain ⟨old, hold, rfl⟩ := Option.map_eq_some_iff.mp hsome
      refine ⟨old, hold, ?_⟩
      rw [EdmmSchedulerHook.isToolResponseReady,
        EdmmSchedulerHook.toolResponses_recordSpeculativeHandle] at hready
      exact hready
  | environment f =>
    apply PausedIn.of_others hs
    · exact { requests := rfl, nextRef := rfl, requestId := fun _ => rfl }
    · exact fun _ h => h
    · exact id
    · exact hs.skipped
    · rfl
    · exact fun _ h => Or.inl h
    · exact id

/-- The response arrived before the run, or in it. -/
def ArrivedIn (reqId : RequestId) (start : SchedulerState W) (history : List (SchedulerStep W)) :
    Prop :=
  ResponseReady start reqId ∨ ∃ step ∈ history, step.op.Answers reqId

theorem PausedIn.mono {s : SchedulerState W} {arrived' : Prop} (hs : PausedIn before r arrived s)
    (h : arrived → arrived') : PausedIn before r arrived' s where
  same :=
    { tokens := hs.same.tokens
      status := hs.same.status
      registered := hs.same.registered
      own := hs.same.own
      undisturbed := fun event hevent hconcerns =>
        (hs.same.undisturbed event hevent hconcerns).imp id h
      hook := fun hready => h (hs.same.hook hready) }
  notRunning := hs.notRunning
  skipped := hs.skipped

/-- The next operation starts with an empty trace. -/
theorem PausedIn.traceless {s : SchedulerState W} (hs : PausedIn before r arrived s) :
    PausedIn before r arrived (traceless s) where
  same :=
    { tokens := hs.same.tokens
      status := hs.same.status
      registered := hs.same.registered
      own := hs.same.own
      undisturbed := nofun
      hook := hs.same.hook }
  notRunning := hs.notRunning
  skipped := hs.skipped

/-- **Run lemma.**  The request stays paused, and each operation that concerns it
    is its promotion, after its response arrived. -/
theorem pausedIn_run {start s : SchedulerState W} {history : List (SchedulerStep W)}
    (run : SchedulerRun self start history s) (hok : RegistryOk start)
    (hcomputed : before.numComputedTokens ≠ 0)
    (hothers : ∀ step ∈ history, step.op.ConcernsOthers before.requestId)
    (hunscheduled : ∀ step ∈ history, ∀ output ∈ step.output,
      before.requestId ∉ output.numScheduledTokens.keys)
    (hstart : PausedIn before r (ResponseReady start before.requestId) (traceless start)) :
    PausedIn before r (ArrivedIn before.requestId start history) (traceless s) ∧
      ∀ earlier step later, history = earlier ++ step :: later →
        ∀ event ∈ step.after.trace, Concerns r event →
          event = .promoted r ∧ ArrivedIn before.requestId start earlier := by
  induction run with
  | nil =>
    refine ⟨hstart.mono Or.inl, ?_⟩
    intro earlier step later hhistory
    cases earlier <;> cases hhistory
  | @snoc history s s' op output run hstep ih =>
    obtain ⟨hpaused, hevents⟩ := ih (fun step h => hothers step (List.mem_append_left _ h))
      (fun step h => hunscheduled step (List.mem_append_left _ h))
    have hmem : (⟨s, op, output, s'⟩ : SchedulerStep W) ∈ history ++ [⟨s, op, output, s'⟩] :=
      List.mem_append_right _ (List.mem_singleton.mpr rfl)
    have hok' := registryOk_of_run run hok
    have heffect := effect_of_exec hok' hstep
    -- an answer has no events; any other operation is an instance of the step lemma
    have hafter : PausedIn before r
        (ArrivedIn before.requestId start (history ++ [⟨s, op, output, s'⟩])) (traceless s') ∧
        ∀ event ∈ s'.trace, Concerns r event →
          event = .promoted r ∧ ArrivedIn before.requestId start history := by
      by_cases hanswers : op.Answers before.requestId
      · have harrived : ArrivedIn before.requestId start (history ++ [⟨s, op, output, s'⟩]) :=
          Or.inr ⟨_, hmem, hanswers⟩
        cases hanswers
        cases heffect
        refine ⟨?_, nofun⟩
        exact
          { same :=
              { tokens := hpaused.same.tokens
                status := hpaused.same.status
                registered := hpaused.same.registered
                own := hpaused.same.own
                undisturbed := nofun
                hook := fun _ => harrived }
            notRunning := hpaused.notRunning
            skipped := hpaused.skipped }
      · have hpaused' := heffect.pausedIn hok' hcomputed (hothers _ hmem) hanswers
          (hunscheduled _ hmem) hpaused
        refine ⟨?_, hpaused'.same.undisturbed⟩
        have hlater : ArrivedIn before.requestId start history →
            ArrivedIn before.requestId start (history ++ [⟨s, op, output, s'⟩]) := by
          rintro (hready | ⟨step, hstep, hanswered⟩)
          · exact Or.inl hready
          · exact Or.inr ⟨step, List.mem_append_left _ hstep, hanswered⟩
        exact hpaused'.traceless.mono hlater
    refine ⟨hafter.1, ?_⟩
    intro earlier step later hhistory
    rcases List.eq_nil_or_concat later with rfl | ⟨later', last, rfl⟩
    · obtain ⟨rfl, hlast⟩ := List.append_inj' hhistory rfl
      cases hlast
      exact hafter.2
    · rw [List.concat_eq_append, ← List.cons_append, ← List.append_assoc] at hhistory
      obtain ⟨hfirst, _⟩ := List.append_inj' hhistory rfl
      exact hevents earlier step later' hfirst

/-- A request that is held in `skipped_waiting` for a tool call, as the one request of
    its id. -/
structure HeldForToolCall (s : SchedulerState W) (r : Ref) : Prop where
  status : (s.objs r).status = .waitingForToolCall
  skipped : r ∈ s.skippedWaiting
  notRunning : r ∉ s.running
  registered : s.requests.get? (s.objs r).requestId = some r
  own : ∀ x ∈ s.running ++ s.waiting ++ s.skippedWaiting,
    (s.objs x).requestId = (s.objs r).requestId → x = r

theorem HeldForToolCall.pausedIn {s : SchedulerState W} (h : HeldForToolCall s r) :
    PausedIn (s.objs r) r (ResponseReady s (s.objs r).requestId) (traceless s) where
  same :=
    { tokens := SameTokens.refl _
      status := Or.inl h.status
      registered := h.registered
      own := by
        intro x hx
        apply h.own x
        rw [List.mem_append, List.mem_append, or_assoc]
        exact hx
      undisturbed := nofun
      hook := id }
  notRunning := by
    refine ⟨?_, h.notRunning⟩
    change (s.objs r).status ≠ .running
    rw [h.status]
    decide
  skipped := h.skipped

instance (s : SchedulerState W) (r : Ref) : Decidable (HeldForToolCall s r) :=
  decidable_of_iff
    ((s.objs r).status = .waitingForToolCall ∧ r ∈ s.skippedWaiting ∧ r ∉ s.running ∧
      s.requests.get? (s.objs r).requestId = some r ∧
      ∀ x ∈ s.running ++ s.waiting ++ s.skippedWaiting,
        (s.objs x).requestId = (s.objs r).requestId → x = r)
    ⟨fun h => ⟨h.1, h.2.1, h.2.2.1, h.2.2.2.1, h.2.2.2.2⟩,
      fun h => ⟨h.status, h.skipped, h.notRunning, h.registered, h.own⟩⟩

/-- The request still sits in `skipped_waiting`, with the tokens it was paused with. -/
structure StaysPaused (paused : SchedulerState W) (r : Ref) (s : SchedulerState W) : Prop where
  tokens : SameTokens (paused.objs r) (s.objs r)
  skipped : r ∈ s.skippedWaiting
  notRunning : r ∉ s.running
  registered : s.requests.get? (paused.objs r).requestId = some r

/-- What the next `schedule()` call promises of the request. -/
structure SchedulesAtComputed (scheduler : Scheduler W) (paused : SchedulerState W) (r : Ref)
    (history : List (SchedulerStep W)) (s : SchedulerState W) : Prop where
  first : ∀ out s', SchedulerOp.exec scheduler .schedule s = .ok (some out) s' →
    (paused.objs r).requestId ∈ out.numScheduledTokens.keys →
    StartsAtComputed (paused.objs r) out ∧ ∀ event ∈ s'.trace, Concerns r event →
      event = .promoted r ∧ ArrivedIn (paused.objs r).requestId paused history
  asserts : ∀ s', SchedulerOp.exec scheduler .schedule s = .error numNewTokensPositive s' →
    lastExamined s'.trace ≠ some r

theorem scheduleError_of_exec {s s' : SchedulerState W} {e : PyError}
    (h : SchedulerOp.exec self .schedule s = .error e s') :
    self.ScheduleError (traceless s) e s' := by
  have hwp : wp (SchedulerOp.exec self .schedule) (fun _ _ => True)
      (fun e s' => self.ScheduleError (traceless s) e s') s := by
    unfold SchedulerOp.exec SchedulerOp.run
    rw [wp_bind, wp_modify, wp_bind]
    exact wp_mono_ok (self.schedule_effects (traceless s)) (fun _ _ _ => trivial)
  exact wp_error hwp h

/-- **Computed KV survives a tool-call pause.**  As long as the steps concern other
    requests and no `schedule()` gives the request tokens, the request keeps its
    tokens and its place, and every event that concerns it is its promotion after
    the response arrived.  The first `schedule()` that gives it tokens starts at the
    computed ones. -/
theorem computedKv_survives_toolCall {objs : Ref → Request} {edmmHook : Option EdmmSchedulerHook}
    {w : W} {earlier history : List (SchedulerStep W)} {paused s : SchedulerState W} {r : Ref}
    (reached : SchedulerRun self (SchedulerState.init objs edmmHook w) earlier paused)
    (hheld : HeldForToolCall paused r)
    (hcomputed : 0 < (paused.objs r).numComputedTokens)
    (hremaining : (paused.objs r).numComputedTokens < (paused.objs r).numTokens)
    (run : SchedulerRun self paused history s)
    (hothers : ∀ step ∈ history, step.op.ConcernsOthers (paused.objs r).requestId)
    (hunscheduled : ∀ step ∈ history, ∀ output ∈ step.output,
      (paused.objs r).requestId ∉ output.numScheduledTokens.keys) :
    StaysPaused paused r s ∧
      (∀ before step after, history = before ++ step :: after →
        ∀ event ∈ step.after.trace, Concerns r event →
          event = .promoted r ∧ ArrivedIn (paused.objs r).requestId paused before) ∧
      self.SchedulesAtComputed paused r history s := by
  have hok : RegistryOk paused :=
    registryOk_of_run reached (registered_init objs edmmHook w).registry
  have hne : (paused.objs r).numComputedTokens ≠ 0 := ne_of_gt hcomputed
  obtain ⟨hpaused, hevents⟩ :=
    pausedIn_run run hok hne hothers hunscheduled hheld.pausedIn
  have hok' : RegistryOk s := registryOk_of_run run hok
  refine ⟨?_, hevents, ?_⟩
  · exact
      { tokens := hpaused.same.tokens
        skipped := hpaused.skipped
        notRunning := hpaused.notRunning.2
        registered := hpaused.same.registered }
  · constructor
    · intro out s' hschedule hkey
      have heffect := effect_of_exec hok' hschedule
      cases heffect with
      | schedule hscheduled =>
        rcases hscheduled.pausedIn hok' hne hpaused with ⟨hunkeyed, _⟩ | hfirst
        · exact absurd hkey hunkeyed
        · exact hfirst
    · intro s' hschedule
      exact (scheduleError_of_exec hschedule).not_paused rfl hne hremaining hpaused

/-- A request is paused after its first token; another one is scheduled meanwhile, and the
    response arrives. -/
theorem computedKv_survives_toolCall_answered :
    ∃ earlier paused history s, SchedulerRun roomy start earlier paused ∧
      HeldForToolCall paused 0 ∧ SchedulerRun roomy paused history s ∧ history.length = 4 ∧
      StaysPaused paused 0 s := by
  have hplayed : ∃ p ∈ roomy.play start
      [.op (.addRequest (.text "a" [1, 2, 3] 8 false)), .op .schedule, .deliver 0 [("a", [4])],
        .op (.holdForToolCall "a" ⟨0, none, 0⟩)],
      HeldForToolCall p.2 0 ∧ 0 < (p.2.objs 0).numComputedTokens ∧
        (p.2.objs 0).numComputedTokens < (p.2.objs 0).numTokens ∧
        ∃ q ∈ roomy.play p.2
          [.op (.addRequest (.text "b" [5, 6] 8 false)), .op .schedule, .deliver 0 [("b", [7])],
            .op (.submitToolResponse "a")],
          q.1.length = 4 ∧
          (∀ step ∈ q.1, step.op.ConcernsOthers (p.2.objs 0).requestId) ∧
          (∀ step ∈ q.1, ∀ output ∈ step.output,
            (p.2.objs 0).requestId ∉ output.numScheduledTokens.keys) := by
    decide +kernel
  obtain ⟨⟨earlier, paused⟩, hearlier, hheld, hcomputed, hremaining, ⟨history, s⟩, hhistory,
    hlength, hothers, hunscheduled⟩ := hplayed
  have reached := run_of_play (Option.mem_def.mp hearlier)
  have run := run_of_play (Option.mem_def.mp hhistory)
  have hstays := computedKv_survives_toolCall reached hheld hcomputed hremaining run hothers
    hunscheduled
  exact ⟨earlier, paused, history, s, reached, hheld, run, hlength, hstays.1⟩

end Scheduler

end Edmm
