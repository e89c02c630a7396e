/-
  Edmm/HookCleanup.lean
  =====================
  **What a finished request leaves in the hook.**

  The scheduler calls `on_tool_call_resume` when it promotes a paused request, and no
  other method that takes something out of the hook (`OperationEffect.calls`): neither
  `_free_request` nor any of its callers calls `cleanup_request`.  So a request that is
  freed leaves in the hook what was there before, and no recorded handle is ever
  released.  `nothingLeft_iff` says in which runs nothing was there.
-/
import Edmm.PausedRequests
import Edmm.HookIsolation

namespace Edmm

open Program

variable {W : Type}

/-! ## 1. The law -/

/-- The hook holds no active pause and no tool response for the id. -/
def EdmmSchedulerHook.HoldsNothing (hook : EdmmSchedulerHook) (reqId : RequestId) : Prop :=
  hook.getActivePause reqId = none ∧ hook.isToolResponseReady reqId = false

def HoldsNothing (s : SchedulerState W) (reqId : RequestId) : Prop :=
  ∀ hook ∈ s.edmmHook, hook.HoldsNothing reqId

/-- A step of the history freed `r`, which carried this id. -/
def FreedIn (history : List (SchedulerStep W)) (r : Ref) (reqId : RequestId) : Prop :=
  ∃ step ∈ history, .freed r ∈ step.after.trace ∧ (step.before.objs r).requestId = reqId

/-- A step of the history recorded the handle in the pause state of `r`. -/
def RecordedIn (history : List (SchedulerStep W)) (r : Ref) (handle : Handle) : Prop :=
  ∃ step ∈ history, ∃ reqId, step.op = .recordSpeculativeHandle reqId handle ∧
    step.before.requests.get? reqId = some r ∧
    ∃ hook ∈ step.before.edmmHook, (hook.getActivePause reqId).isSome = true

/-- After the history: nothing is left in the hook of a freed request, unless another
    request uses its id, and the handles recorded for it were released. -/
structure NothingLeft (history : List (SchedulerStep W)) (s : SchedulerState W) : Prop where
  hook : ∀ r reqId, FreedIn history r reqId → s.unfinished? reqId = none → HoldsNothing s reqId
  handles : ∀ r reqId handle, FreedIn history r reqId → RecordedIn history r handle →
    ∃ hook ∈ s.edmmHook, handle ∈ hook.releaseAttempts

/-- A request is freed only when the hook holds nothing for it, no response comes for a
    freed one unless its id is in use again, and no handle is recorded for it. -/
structure LeavesNothing (history : List (SchedulerStep W)) : Prop where
  frees : ∀ step ∈ history, ∀ r, .freed r ∈ step.after.trace →
    HoldsNothing step.before (step.before.objs r).requestId
  submits : ∀ earlier step later r reqId, history = earlier ++ step :: later →
    step.op = .submitToolResponse reqId → FreedIn earlier r reqId →
    step.before.unfinished? reqId ≠ none
  handles : ∀ r reqId handle, FreedIn history r reqId → ¬ RecordedIn history r handle

/-! ## 2. The calls into the hook -/

namespace Scheduler

variable {self : Scheduler W}

/-- The calls into the hook that an operation can make. -/
def MayCall (s : SchedulerState W) (op : SchedulerOp W) : HookOp → Prop
  | .onToolCallPause reqId _ => op.Pauses reqId ∧ (pausable? s reqId).isSome = true
  | .submitToolResponse reqId => op = .submitToolResponse reqId
  | .onToolCallResume _ => op = .schedule
  | .recordSpeculativeHandle reqId handle => op = .recordSpeculativeHandle reqId handle
  | .isToolResponseReady _ | .cleanupRequest _ | .cleanupAll => False

/-- The hook changes by calls of this kind. -/
def Calls (allowed : HookOp → Prop) (s s' : SchedulerState W) : Prop :=
  ∃ calls, (∀ call ∈ calls, allowed call) ∧
    s'.edmmHook = s.edmmHook.map fun hook => runHook hook calls

namespace Calls

variable {allowed : HookOp → Prop} {s s' s'' : SchedulerState W}

theorem of_same (h : s'.edmmHook = s.edmmHook) : Calls allowed s s' := by
  refine ⟨[], ?_, ?_⟩
  · intro call hcall
    cases hcall
  · rw [h]
    cases s.edmmHook with
    | none => rfl
    | some hook => rfl

theorem of_call (call : HookOp) (hallowed : allowed call)
    (h : s'.edmmHook = s.edmmHook.map fun hook => call.step hook) : Calls allowed s s' := by
  refine ⟨[call], ?_, h⟩
  intro other hother
  rw [List.mem_singleton] at hother
  rwa [hother]

theorem trans (h : Calls allowed s s') (h' : Calls allowed s' s'') : Calls allowed s s'' := by
  obtain ⟨calls, hcalls, hhook⟩ := h
  obtain ⟨calls', hcalls', hhook'⟩ := h'
  refine ⟨calls ++ calls', ?_, ?_⟩
  · intro call hcall
    rcases List.mem_append.mp hcall with hcall | hcall
    · exact hcalls call hcall
    · exact hcalls' call hcall
  · rw [hhook', hhook, Option.map_map]
    congr 1
    funext hook
    simp [runHook, List.foldl_append]

end Calls

theorem WaitingEffect.calls {p p' : Frame W} (h : self.WaitingEffect p p') :
    Calls (MayCall p.1 .schedule) p.1 p'.1 := by
  cases h with
  | touch s l w => exact Calls.of_same rfl
  | examine l hhead => exact Calls.of_same rfl
  | lookup l w hcomputed => exact Calls.of_same rfl
  | @promote s s' which request l hhead hpromotion =>
    cases hpromotion with
    | remoteKvs loaded w finishedRecving failedRecving hconnector hstatus hloaded =>
      exact Calls.of_same rfl
    | grammar hstatus => exact Calls.of_same rfl
    | @toolCall hook hstatus henabled hhook hready =>
      apply Calls.of_call (.onToolCallResume (s.objs request).requestId)
      · rfl
      · dsimp only
        rw [hhook]
        rfl
  | skip l hhead =>
    apply Calls.of_same
    dsimp only
    rw [edmmHook_popRequest]
  | load objs numComputedTokens hhead hconnector hunblocked hcomputed =>
    apply Calls.of_same
    dsimp only
    rw [SchedulerState.edmmHook_updateRequest, edmmHook_popRequest]
  | @admitWaiting s which request l l' numNewTokens numComputedTokens blocks w hhead hstatus
      hcomputed hsome hbound hlocals =>
    apply Calls.of_same
    exact self.edmmHook_popRequest which s

theorem RunningEffects.edmmHook {p p' : Frame W} (h : self.RunningEffects p p') :
    p'.1.edmmHook = p.1.edmmHook :=
  invariant_of_chain (I := fun p' : Frame W => p'.1.edmmHook = p.1.edmmHook)
    (fun _ _ heffect hbefore => heffect.locals.1.trans hbefore) h rfl

theorem Scheduled.calls {s s' : SchedulerState W} {afterRunning afterWaiting : Frame W}
    {out : SchedulerOutput} (h : self.Scheduled s afterRunning afterWaiting out s') :
    Calls (MayCall s .schedule) s s' := by
  have hwaiting : Calls (MayCall s .schedule) afterRunning.1 afterWaiting.1 := by
    apply invariant_of_chain
      (I := fun p : Frame W => Calls (MayCall s .schedule) afterRunning.1 p.1) _ h.waiting
      (Calls.of_same rfl)
    intro p p' heffect hbefore
    obtain ⟨calls, hcalls, hhook⟩ := heffect.calls
    refine hbefore.trans ⟨calls, ?_, hhook⟩
    intro call hcall
    have hallowed := hcalls call hcall
    cases call with
    | onToolCallPause reqId reading => cases hallowed.1
    | _ => exact hallowed
  have hrunning : Calls (MayCall s .schedule) s afterRunning.1 :=
    Calls.of_same (RunningEffects.edmmHook h.running)
  exact (hrunning.trans hwaiting).trans (Calls.of_same h.final.edmmHook)

theorem ConnectorEffects.edmmHook {s s' : SchedulerState W} (h : ConnectorEffects s s') :
    s'.edmmHook = s.edmmHook := by
  apply invariant_of_chain (I := fun s' => s'.edmmHook = s.edmmHook) _ h rfl
  intro s₁ s₂ heffect hbefore
  rw [← hbefore]
  cases heffect <;> rfl

theorem FinishedBy.edmmHook {requestIds : Option (List RequestId)}
    {finishedStatus : RequestStatus} {s s' : SchedulerState W}
    (h : self.FinishedBy requestIds finishedStatus s s') : s'.edmmHook = s.edmmHook := by
  apply invariant_of_chain (I := fun s' => s'.edmmHook = s.edmmHook) _ h.effects rfl
  intro s₁ s₂ heffect hbefore
  rw [← hbefore]
  cases heffect
  rfl

theorem Updated.edmmHook {out : SchedulerOutput} {mro : ModelRunnerOutput}
    {s start done s' : SchedulerState W} {acc : OutputLocals}
    (h : self.Updated out mro s start done acc s') : s'.edmmHook = s.edmmHook := by
  have hdone : done.edmmHook = start.edmmHook :=
    invariant_of_chain (I := fun p : SchedulerState W × OutputLocals =>
      p.1.edmmHook = start.edmmHook)
      (fun _ _ ⟨_, heffect⟩ hbefore => heffect.unchanged.2.1.trans hbefore) h.outputs rfl
  have hremoved : (self.removeStopped acc done).edmmHook = s.edmmHook :=
    hdone.trans (ConnectorEffects.edmmHook h.invalid)
  obtain ⟨failed, hfailed, hloads⟩ := h.loaded
  rw [ConnectorEffects.edmmHook hloads]
  rcases hfailed with rfl | ⟨ids, -, hfinished⟩
  · exact hremoved
  · exact hfinished.edmmHook.trans hremoved

/-- **The calls of one operation.**  The hook is cleaned up by none. -/
theorem OperationEffect.calls {s s' : SchedulerState W} {op : SchedulerOp W}
    {out : Option SchedulerOutput} (h : self.OperationEffect s op out s') :
    Calls (MayCall s op) s s' := by
  cases h with
  | session hinit hexisting heffect =>
    apply Calls.of_same
    cases heffect with
    | append hstatus => rfl
    | proceed hstatus hprompt => rfl
    | endSession hstatus hfinished => exact hfinished.edmmHook
  | schedule hscheduled => exact hscheduled.calls
  | updateFromOutput hupdated => exact Calls.of_same hupdated.edmmHook
  | finishRequests hfinished => exact Calls.of_same hfinished.edmmHook
  | @resetPrefixCache _ _ s₁ previous w hreset hprevious =>
    apply Calls.of_same
    apply invariant_of_chain (I := fun s₁ => s₁.edmmHook = s.edmmHook) _ hreset rfl
    intro s₂ s₃ heffect hbefore
    rw [← hbefore]
    cases heffect
    rfl
  | @pauseInPlace reqId reading request hpausable =>
    apply Calls.of_call (.onToolCallPause reqId reading) _ rfl
    exact ⟨rfl, Option.isSome_iff_exists.mpr ⟨request, hpausable⟩⟩
  | @holdForToolCall reqId reading request hpausable =>
    apply Calls.of_call (.onToolCallPause reqId reading) _ rfl
    exact ⟨rfl, Option.isSome_iff_exists.mpr ⟨request, hpausable⟩⟩
  | @submitToolResponse reqId =>
    exact Calls.of_call (.submitToolResponse reqId) rfl rfl
  | @recordSpeculativeHandle reqId handle =>
    exact Calls.of_call (.recordSpeculativeHandle reqId handle) rfl rfl
  | register | updateDraftTokenIds | setPauseState | pauseInPlaceIgnored | holdForToolCallIgnored
  | environment => exact Calls.of_same rfl

/-! ## 3. What the calls keep -/

/-- A request that is not registered, or is finished, cannot be paused. -/
theorem pausable?_of_gone {s : SchedulerState W} {reqId : RequestId}
    (hgone : s.unfinished? reqId = none) : pausable? s reqId = none := by
  unfold pausable?
  rw [hgone]
  rfl

/-- While no request is live under the id and no response comes for it, the calls
    leave nothing for it. -/
theorem MayCall.holdsNothing {s : SchedulerState W} {op : SchedulerOp W} {call : HookOp}
    {hook : EdmmSchedulerHook} {reqId : RequestId} (hcall : MayCall s op call)
    (hgone : s.unfinished? reqId = none) (hsubmits : op ≠ .submitToolResponse reqId)
    (h : hook.HoldsNothing reqId) : (call.step hook).HoldsNothing reqId := by
  obtain ⟨hpause, hready⟩ := h
  cases call with
  | onToolCallPause other reading =>
    have hne : reqId ≠ other := by
      rintro rfl
      have hpausable := hcall.2
      rw [pausable?_of_gone hgone] at hpausable
      cases hpausable
    constructor
    · rw [HookOp.step, EdmmSchedulerHook.getActivePause_onToolCallPause, if_neg hne]
      exact hpause
    · simpa [HookOp.step, EdmmSchedulerHook.isToolResponseReady] using hready
  | submitToolResponse other =>
    have hne : reqId ≠ other := by
      rintro rfl
      exact hsubmits hcall
    refine ⟨hpause, ?_⟩
    simp [HookOp.step, EdmmSchedulerHook.isToolResponseReady_submit, hne, hready]
  | onToolCallResume other =>
    constructor
    · simp only [HookOp.step, EdmmSchedulerHook.onToolCallResume, EdmmSchedulerHook.popRequest,
        EdmmSchedulerHook.getActivePause, Dict.get?_erase]
      split
      · rfl
      · exact hpause
    · rw [HookOp.step, EdmmSchedulerHook.isToolResponseReady_erase rfl, hready, Bool.and_false]
  | recordSpeculativeHandle other handle =>
    constructor
    · rw [HookOp.step, HookMemory.getActivePause_recordSpeculativeHandle, hpause]
      rfl
    · simpa [HookOp.step, EdmmSchedulerHook.isToolResponseReady] using hready
  | isToolResponseReady other => cases hcall
  | cleanupRequest other => cases hcall
  | cleanupAll => cases hcall

/-- None of the calls releases a handle. -/
theorem MayCall.releaseAttempts {s : SchedulerState W} {op : SchedulerOp W} {call : HookOp}
    (hcall : MayCall s op call) (hook : EdmmSchedulerHook) :
    (call.step hook).releaseAttempts = hook.releaseAttempts := by
  cases call with
  | onToolCallPause other reading =>
    exact HookMemory.releaseAttempts_onToolCallPause hook other reading
  | submitToolResponse other => rfl
  | onToolCallResume other => rfl
  | recordSpeculativeHandle other handle =>
    exact HookMemory.releaseAttempts_recordSpeculativeHandle hook other handle
  | isToolResponseReady other => cases hcall
  | cleanupRequest other => cases hcall
  | cleanupAll => cases hcall

/-- What every allowed call keeps, the calls keep. -/
theorem Calls.invariant {allowed : HookOp → Prop} {P : EdmmSchedulerHook → Prop}
    {s s' : SchedulerState W} (h : Calls allowed s s')
    (hstep : ∀ call hook, allowed call → P hook → P (call.step hook))
    (hs : ∀ hook ∈ s.edmmHook, P hook) : ∀ hook ∈ s'.edmmHook, P hook := by
  obtain ⟨calls, hcalls, hhook⟩ := h
  have hrun : ∀ hook, P hook → P (runHook hook calls) := by
    clear hhook
    induction calls with
    | nil => exact fun _ hbefore => hbefore
    | cons call rest ih =>
      intro hook hbefore
      apply ih (fun other hother => hcalls other (List.mem_cons_of_mem _ hother))
      exact hstep call hook (hcalls call List.mem_cons_self) hbefore
  intro after hafter
  rw [hhook] at hafter
  obtain ⟨hook, hmem, rfl⟩ := Option.mem_map.mp hafter
  exact hrun hook (hs hook hmem)

theorem Calls.isSome {allowed : HookOp → Prop} {s s' : SchedulerState W}
    (h : Calls allowed s s') : s'.edmmHook.isSome = s.edmmHook.isSome := by
  obtain ⟨calls, _, hhook⟩ := h
  rw [hhook, Option.isSome_map]

/-! ## 4. Freed requests -/

theorem unfinished?_congr {s s' : SchedulerState W} (hrequests : s'.requests = s.requests)
    (hfinished : ∀ x, (s'.objs x).isFinished = (s.objs x).isFinished) (reqId : RequestId) :
    s'.unfinished? reqId = s.unfinished? reqId := by
  apply Option.ext
  intro x
  rw [s'.unfinished?_eq_some, s.unfinished?_eq_some, hrequests, hfinished]

/-- An id whose request is live stays so, and nothing is freed. -/
structure Unfreed (s s' : SchedulerState W) : Prop where
  kept : ∀ reqId x, s.unfinished? reqId = some x → s'.unfinished? reqId = some x
  trace : ∀ x, .freed x ∈ s'.trace → .freed x ∈ s.trace

/-- A live request goes only when it is freed, a freed one is gone, and what is gone
    does not come back. -/
structure Frees (s s' : SchedulerState W) : Prop where
  kept : ∀ reqId x, s.unfinished? reqId = some x →
    s'.unfinished? reqId = some x ∨ .freed x ∈ s'.trace
  freed : ∀ x, .freed x ∈ s'.trace →
    .freed x ∈ s.trace ∨ s'.unfinished? (s.objs x).requestId = none
  gone : ∀ reqId, s.unfinished? reqId = none → s'.unfinished? reqId = none
  trace : ∀ event ∈ s.trace, event ∈ s'.trace
  requestId : ∀ x, (s'.objs x).requestId = (s.objs x).requestId

namespace Unfreed

variable {s s' s'' : SchedulerState W}

theorem of_same (hsame : ∀ reqId, s'.unfinished? reqId = s.unfinished? reqId)
    (htrace : ∀ x, .freed x ∈ s'.trace → .freed x ∈ s.trace) : Unfreed s s' where
  kept := by
    intro reqId x hx
    rw [hsame]
    exact hx
  trace := htrace

theorem refl (s : SchedulerState W) : Unfreed s s := of_same (fun _ => rfl) fun _ hx => hx

theorem trans (h : Unfreed s s') (h' : Unfreed s' s'') : Unfreed s s'' where
  kept := fun reqId x hx => h'.kept reqId x (h.kept reqId x hx)
  trace := fun x hx => h.trace x (h'.trace x hx)

end Unfreed

namespace Frees

variable {s s' s'' : SchedulerState W}

theorem of_same (hsame : ∀ reqId, s'.unfinished? reqId = s.unfinished? reqId)
    (htrace : s'.trace = s.trace)
    (hid : ∀ x, (s'.objs x).requestId = (s.objs x).requestId) : Frees s s' where
  kept := by
    intro reqId x hx
    rw [hsame]
    exact Or.inl hx
  freed := by
    intro x hx
    rw [htrace] at hx
    exact Or.inl hx
  gone := by
    intro reqId hgone
    rw [hsame]
    exact hgone
  trace := by
    rw [htrace]
    exact fun _ hevent => hevent
  requestId := hid

theorem refl (s : SchedulerState W) : Frees s s :=
  of_same (fun _ => rfl) rfl fun _ => rfl

theorem trans (h : Frees s s') (h' : Frees s' s'') : Frees s s'' where
  kept := by
    intro reqId x hx
    rcases h.kept reqId x hx with hkept | hfreed
    · exact h'.kept reqId x hkept
    · exact Or.inr (h'.trace _ hfreed)
  freed := by
    intro x hx
    rcases h'.freed x hx with hfreed | hgone
    · exact (h.freed x hfreed).imp_right fun hgone => h'.gone _ hgone
    · rw [h.requestId] at hgone
      exact Or.inr hgone
  gone := fun reqId hgone => h'.gone reqId (h.gone reqId hgone)
  trace := fun event hevent => h'.trace event (h.trace event hevent)
  requestId := fun x => (h'.requestId x).trans (h.requestId x)

/-- One request changes, but not its id nor whether it is finished. -/
theorem of_request {request : Ref} {r : Request}
    (hr : r.isFinished = (s.objs request).isFinished)
    (hid : r.requestId = (s.objs request).requestId) (hrequests : s'.requests = s.requests)
    (hobjs : s'.objs = Function.update s.objs request r) (htrace : s'.trace = s.trace) :
    Frees s s' := by
  apply of_same _ htrace
  · intro x
    rw [hobjs]
    by_cases hx : x = request
    · rw [hx, Function.update_self, hid]
    · rw [Function.update_of_ne hx]
  · apply unfinished?_congr hrequests
    intro x
    rw [hobjs]
    by_cases hx : x = request
    · rw [hx, Function.update_self, hr]
    · rw [Function.update_of_ne hx]

/-- `_free_request`, after the request got a finished status. -/
theorem of_free {request : Ref} {w : W} {delayed : Bool} {s₁ : SchedulerState W}
    (hregistered : s.requests.get? (s.objs request).requestId = some request)
    (hfinished : (s₁.objs request).isFinished = true)
    (hid : (s₁.objs request).requestId = (s.objs request).requestId)
    (hothers : ∀ x, x ≠ request → s₁.objs x = s.objs x)
    (hrequests : s₁.requests = s.requests) (htrace : s₁.trace = s.trace) :
    Frees s (afterFree s₁ request w delayed) := by
  have hlive : ∀ reqId x, (afterFree s₁ request w delayed).unfinished? reqId = some x ↔
      s.unfinished? reqId = some x ∧ x ≠ request := by
    intro reqId x
    rw [SchedulerState.unfinished?_eq_some, SchedulerState.unfinished?_eq_some]
    change (afterFree s₁ request w delayed).requests.get? reqId = some x ∧
      (s₁.objs x).isFinished = false ↔ _
    constructor
    · rintro ⟨hget, hunfinished⟩
      have hne : x ≠ request := by
        rintro rfl
        rw [hfinished] at hunfinished
        cases hunfinished
      rw [hothers x hne] at hunfinished
      refine ⟨⟨?_, hunfinished⟩, hne⟩
      cases delayed with
      | true => rwa [← hrequests]
      | false =>
        have hget : (s₁.requests.erase (s₁.objs request).requestId).get? reqId = some x := hget
        rw [Dict.get?_erase] at hget
        split at hget
        · cases hget
        · rwa [← hrequests]
    · rintro ⟨⟨hget, hunfinished⟩, hne⟩
      rw [hothers x hne]
      refine ⟨?_, hunfinished⟩
      cases delayed with
      | true =>
        change s₁.requests.get? reqId = some x
        rwa [hrequests]
      | false =>
        change (s₁.requests.erase (s₁.objs request).requestId).get? reqId = some x
        rw [hrequests, Dict.get?_erase_of_ne _ _]
        · exact hget
        · rintro rfl
          rw [hid, hregistered] at hget
          exact hne (Option.some.inj hget).symm
  have hevents : (afterFree s₁ request w delayed).trace = s.trace ++ [.freed request] := by
    rw [← htrace]
    rfl
  constructor
  · intro reqId x hx
    by_cases hne : x = request
    · rw [hevents, hne]
      exact Or.inr List.mem_concat_self
    · exact Or.inl ((hlive reqId x).mpr ⟨hx, hne⟩)
  · intro x hx
    rw [hevents, List.mem_append, List.mem_singleton] at hx
    refine hx.imp_right ?_
    intro heq
    cases heq
    rw [Option.eq_none_iff_forall_ne_some]
    intro y hy
    obtain ⟨hy, hne⟩ := (hlive _ y).mp hy
    rw [s.unfinished?_eq_some, hregistered] at hy
    exact hne (Option.some.inj hy.1).symm
  · intro reqId hgone
    rw [Option.eq_none_iff_forall_ne_some]
    intro y hy
    rw [((hlive _ y).mp hy).1] at hgone
    cases hgone
  · intro event hevent
    rw [hevents]
    exact List.mem_append_left _ hevent
  · intro x
    change (s₁.objs x).requestId = _
    by_cases hne : x = request
    · rw [hne, hid]
    · rw [hothers x hne]

end Frees

theorem FinishEffect.frees {finishedStatus : RequestStatus} {valid : List Ref}
    {s s' : SchedulerState W} (h : self.FinishEffect finishedStatus valid s s') :
    Frees s s' := by
  cases h with
  | finish w finishedRecving failedRecving hvalid hregistered hunfinished hfinished hdelayed =>
    apply Frees.of_free hregistered
    · rw [SchedulerState.objs_updateRequest_self]
      exact hfinished
    · rw [SchedulerState.objs_updateRequest_self]
    · exact fun x hx => Function.update_of_ne hx _ _
    · rfl
    · rfl

theorem FinishedBy.frees {requestIds : Option (List RequestId)}
    {finishedStatus : RequestStatus} {s s' : SchedulerState W}
    (h : self.FinishedBy requestIds finishedStatus s s') : Frees s s' := by
  apply invariant_of_chain (I := fun s' => Frees s s') _ h.effects
  · exact Frees.of_same (fun _ => rfl) rfl fun _ => rfl
  · exact fun _ _ heffect hbefore => hbefore.trans heffect.frees

theorem OutputEffect.frees {out : SchedulerOutput} {mro : ModelRunnerOutput}
    {start : SchedulerState W} {reqId : RequestId} {p p' : SchedulerState W × OutputLocals}
    (h : self.OutputEffect out mro start reqId p p') : Frees p.1 p'.1 := by
  have hanswered : ∀ {s : SchedulerState W} {request : Ref} {r : Request} {stopped : Bool},
      self.Answered out mro start s reqId request r stopped →
      (s.objs request).isFinished = false := by
    intro s request r stopped hanswered
    rw [hanswered.untouched]
    exact (start.unfinished?_eq_some.mp hanswered.unfinished).2
  cases h with
  | touch s acc w => exact Frees.of_same (fun _ => rfl) rfl fun _ => rfl
  | report s acc request outputs hscheduled hunfinished =>
    exact Frees.of_request (r := (s.objs request).takePrefillStats) rfl rfl rfl rfl rfl
  | @deliver s acc request r w hdelivers =>
    obtain ⟨generated, _, hdelivered⟩ := hdelivers.delivered
    refine Frees.of_request ?_ hdelivers.requestId rfl rfl rfl
    rw [Request.isFinished, hdelivered.status]
    rfl
  | @finish s acc request r r' delayed w w' hstops hends hdelayed =>
    apply Frees.of_free hstops.self_registered
    · rw [SchedulerState.objs_updateRequest_self]
      exact hends.finished hstops.finished
    · rw [SchedulerState.objs_updateRequest_self]
      exact hends.requestId.trans hstops.requestId
    · exact fun x hx => Function.update_of_ne hx _ _
    · rfl
    · rfl
  | @idle s acc request r w hstops hresumable hempty =>
    refine Frees.of_request (r := idled r) ?_ hstops.requestId rfl rfl rfl
    exact (hanswered hstops).symm
  | @proceed s acc request r r' w hstops hcontinues =>
    refine Frees.of_request (r := r') ?_ (hcontinues.requestId.trans hstops.requestId) rfl rfl rfl
    obtain ⟨_, update, rest, _, _, rfl⟩ := hcontinues
    exact (hanswered hstops).symm

theorem ConnectorEffect.frees {s s' : SchedulerState W} (h : ConnectorEffect s s') :
    Frees s s' := by
  cases h with
  | touch w => exact Frees.of_same (fun _ => rfl) rfl fun _ => rfl
  | loads finishedRecving failedRecving => exact Frees.of_same (fun _ => rfl) rfl fun _ => rfl
  | @recompute request numComputedTokens haffected =>
    exact Frees.of_request (r := { s.objs request with numComputedTokens }) rfl rfl rfl rfl rfl
  | @drop request w hregistered hfinished =>
    refine Frees.of_same ?_ rfl fun _ => rfl
    intro reqId
    apply Option.ext
    intro x
    rw [SchedulerState.unfinished?_eq_some, SchedulerState.unfinished?_eq_some]
    apply and_congr_left
    intro hunfinished
    dsimp only
    by_cases hid : reqId = (s.objs request).requestId
    · rw [hid, Dict.get?_erase, if_pos rfl, hregistered]
      constructor
      · intro hnone
        cases hnone
      · intro heq
        cases heq
        rw [hfinished] at hunfinished
        cases hunfinished
    · rw [Dict.get?_erase_of_ne _ hid]

theorem ConnectorEffects.frees {s s' : SchedulerState W} (h : ConnectorEffects s s') :
    Frees s s' :=
  invariant_of_chain (I := fun s' => Frees s s')
    (fun _ _ heffect hbefore => hbefore.trans heffect.frees) h (Frees.refl s)

theorem Updated.frees {out : SchedulerOutput} {mro : ModelRunnerOutput}
    {s start done s' : SchedulerState W} {acc : OutputLocals}
    (h : self.Updated out mro s start done acc s') : Frees s s' := by
  have hstart : Frees s start := ConnectorEffects.frees h.invalid
  have hdone : Frees s done :=
    invariant_of_chain (I := fun p : SchedulerState W × OutputLocals => Frees s p.1)
      (fun _ _ ⟨_, heffect⟩ hbefore => hbefore.trans heffect.frees) h.outputs hstart
  have hremoved : Frees s (self.removeStopped acc done) :=
    hdone.trans (Frees.of_same (fun _ => rfl) rfl fun _ => rfl)
  obtain ⟨failed, hfailed, hloads⟩ := h.loaded
  have hlast : Frees failed s' := ConnectorEffects.frees hloads
  rcases hfailed with rfl | ⟨ids, -, hfinished⟩
  · exact hremoved.trans hlast
  · exact (hremoved.trans hfinished.frees).trans hlast

/-! ## 5. The operations that free none -/

theorem RunningEffect.unfreed {p p' : Frame W} (h : self.RunningEffect p p') :
    Unfreed p.1 p'.1 := by
  apply Unfreed.of_same (unfinished?_congr h.sameRegistry.1.requests h.sameRegistry.2)
  intro x hx
  rcases h.trace_cases hx with hx | ⟨y, -, heq⟩
  · exact hx
  · cases heq

theorem WaitingEffect.unfreed {p p' : Frame W} (h : self.WaitingEffect p p') :
    Unfreed p.1 p'.1 where
  kept := by
    intro reqId x hx
    rw [SchedulerState.unfinished?_eq_some] at hx ⊢
    rw [h.sameRegistry.requests]
    refine ⟨hx.1, ?_⟩
    rcases h.isFinished_cases x with hsame | ⟨_, _, hunfinished⟩
    · rw [hsame]
      exact hx.2
    · exact hunfinished
  trace := by
    intro x hx
    cases h with
    | touch s l w => exact hx
    | examine l hhead =>
      rcases List.mem_append.mp hx with hx | hx
      · exact hx
      · cases List.mem_singleton.mp hx
    | lookup l w hcomputed =>
      rcases List.mem_append.mp hx with hx | hx
      · exact hx
      · cases List.mem_singleton.mp hx
    | promote l hhead hpromotion =>
      dsimp only at hx
      rw [hpromotion.trace_eq] at hx
      rcases List.mem_append.mp hx with hx | hx
      · exact hx
      · cases List.mem_singleton.mp hx
    | skip l hhead => simpa using hx
    | load objs numComputedTokens hhead hconnector hunblocked hcomputed => simpa using hx
    | @admitWaiting s which request l l' numNewTokens numComputedTokens blocks w hhead hstatus
        hcomputed hsome hbound hlocals =>
      exact self.trace_popRequest which s ▸ hx

theorem Scheduled.unfreed {s s' : SchedulerState W} {afterRunning afterWaiting : Frame W}
    {out : SchedulerOutput} (h : self.Scheduled s afterRunning afterWaiting out s') :
    Unfreed s s' := by
  have hrunning : Unfreed s afterRunning.1 :=
    invariant_of_chain (I := fun p : Frame W => Unfreed s p.1)
      (fun _ _ heffect hbefore => hbefore.trans heffect.unfreed) h.running (Unfreed.refl s)
  have hwaiting : Unfreed s afterWaiting.1 :=
    invariant_of_chain (I := fun p : Frame W => Unfreed s p.1)
      (fun _ _ heffect hbefore => hbefore.trans heffect.unfreed) h.waiting hrunning
  apply hwaiting.trans
  apply Unfreed.of_same
  · apply unfinished?_congr h.final.requests
    intro x
    rw [Request.isFinished, h.final.status]
    rfl
  · intro x hx
    rwa [h.final.trace] at hx

theorem ResetEffect.unfreed {s s' : SchedulerState W} (h : self.ResetEffect s s') :
    Unfreed s s' := by
  have hrequests := h.sameRegistry.requests
  cases h with
  | @preempt victim rest w hvictim hstatus =>
    apply Unfreed.of_same
    · apply unfinished?_congr hrequests
      intro x
      change Request.isFinished (((SchedulerState.updateRequest _ victim preempted).updateRequest
        victim discardPlaceholders).objs x) = _
      rw [SchedulerState.updateRequest_updateRequest, SchedulerState.objs_updateRequest]
      split
      · rename_i hx
        rw [hx, Request.isFinished, Request.isFinished, hstatus]
        rfl
      · rfl
    · intro x hx
      rcases List.mem_append.mp hx with hx | hx
      · exact hx
      · cases List.mem_singleton.mp hx

theorem unfreed_afterRegister {s : SchedulerState W} (hok : RegistryOk s) (added : Request)
    (w : W) (habsent : s.requests.get? added.requestId = none) :
    Unfreed s (self.afterRegister s added w) where
  kept := by
    intro reqId x hx
    rw [SchedulerState.unfinished?_eq_some] at hx ⊢
    obtain ⟨hget, hunfinished⟩ := hx
    have hne : reqId ≠ added.requestId := by
      rintro rfl
      rw [hget] at habsent
      cases habsent
    constructor
    · exact (Dict.get?_set_of_ne _ _ hne).trans hget
    · rw [show (self.afterRegister s added w).objs x = s.objs x from
        Function.update_of_ne (Nat.ne_of_lt (hok.known hget)) _ _]
      exact hunfinished
  trace := by
    intro x hx
    rcases List.mem_append.mp hx with hx | hx
    · exact hx
    · cases List.mem_singleton.mp hx

/-- A pause keeps its request unfinished. -/
theorem unfreed_afterPause {s : SchedulerState W} {reqId : RequestId}
    (reading : EdmmSchedulerHook.PauseReading) {request : Ref}
    (hpausable : pausable? s reqId = some request) :
    Unfreed s (afterPause s reqId reading request) := by
  refine Unfreed.of_same (unfinished?_congr rfl ?_) fun _ hx => hx
  intro x
  unfold afterPause
  rw [SchedulerState.objs_updateRequest]
  split
  · rename_i hx
    rw [hx, (pausable?_eq_some hpausable).2.1]
    rfl
  · rfl

/-- What an operation that starts with an empty trace frees. -/
structure OperationFrees (s s' : SchedulerState W) : Prop where
  kept : ∀ reqId x, s.unfinished? reqId = some x →
    s'.unfinished? reqId = some x ∨ .freed x ∈ s'.trace
  gone : ∀ x, .freed x ∈ s'.trace → s'.unfinished? (s.objs x).requestId = none
  edmmHook : ∀ x, .freed x ∈ s'.trace → s'.edmmHook = s.edmmHook

theorem Frees.operation {s s' : SchedulerState W} (h : Frees s s') (htrace : s.trace = [])
    (hhook : s'.edmmHook = s.edmmHook) : OperationFrees s s' where
  kept := h.kept
  gone := by
    intro x hx
    rcases h.freed x hx with hfreed | hgone
    · rw [htrace] at hfreed
      cases hfreed
    · exact hgone
  edmmHook := fun _ _ => hhook

theorem Unfreed.operation {s s' : SchedulerState W} (h : Unfreed s s') (htrace : s.trace = []) :
    OperationFrees s s' := by
  have hnone : ∀ x, .freed x ∉ s'.trace := by
    intro x hx
    have hfreed := h.trace x hx
    rw [htrace] at hfreed
    cases hfreed
  exact
    { kept := fun reqId x hx => Or.inl (h.kept reqId x hx)
      gone := fun x hx => absurd hx (hnone x)
      edmmHook := fun x hx => absurd hx (hnone x) }

/-- **The frees of one operation.**  One that frees does not call the hook. -/
theorem OperationEffect.frees {s s' : SchedulerState W} {op : SchedulerOp W}
    {out : Option SchedulerOutput} (h : self.OperationEffect s op out s') (hok : RegistryOk s)
    (htrace : s.trace = []) : OperationFrees s s' := by
  have hsame : ∀ {s' : SchedulerState W}, s'.requests = s.requests → s'.objs = s.objs →
      s'.trace = s.trace → OperationFrees s s' := by
    intro s' hrequests hobjs htrace'
    refine Unfreed.operation (Unfreed.of_same ?_ ?_) htrace
    · exact unfinished?_congr hrequests fun x => by rw [hobjs]
    · exact fun x hx => htrace' ▸ hx
  cases h with
  | register w hinit habsent =>
    apply Unfreed.operation _ htrace
    apply unfreed_afterRegister hok
    rw [sessionStarted_requestId]
    exact habsent
  | @session params request existing _ hinit hexisting heffect =>
    cases heffect with
    | append hstatus =>
      refine Frees.operation ?_ htrace rfl
      exact Frees.of_request
        (r := appendUpdate (StreamingUpdate.fromRequest request) (s.objs existing)) rfl rfl rfl
        rfl rfl
    | @proceed update hstatus hprompt =>
      refine Frees.operation ?_ htrace rfl
      refine Frees.of_request (r := self.continueSession update (s.objs existing)) ?_
        (self.continueSession_requestId _ _) rfl rfl rfl
      rw [Request.isFinished, Request.isFinished, hstatus]
      rfl
    | endSession hstatus hfinished => exact hfinished.frees.operation htrace hfinished.edmmHook
  | schedule hscheduled => exact hscheduled.unfreed.operation htrace
  | updateFromOutput hupdated => exact hupdated.frees.operation htrace hupdated.edmmHook
  | finishRequests hfinished => exact hfinished.frees.operation htrace hfinished.edmmHook
  | updateDraftTokenIds objs hobjs =>
    refine Unfreed.operation (Unfreed.of_same (unfinished?_congr rfl ?_) fun _ hx => hx) htrace
    intro x
    obtain ⟨specTokenIds, hx⟩ := hobjs x
    dsimp only
    rw [hx]
    rfl
  | @resetPrefixCache _ _ s₁ previous w hreset hprevious =>
    have hafter : Unfreed s s₁ :=
      invariant_of_chain (I := fun s₁ => Unfreed s s₁)
        (fun _ _ heffect hbefore => hbefore.trans heffect.unfreed) hreset (Unfreed.refl s)
    apply Unfreed.operation _ htrace
    exact hafter.trans (Unfreed.of_same (fun _ => rfl) fun _ hx => hx)
  | pauseInPlace hpausable => exact (unfreed_afterPause _ hpausable).operation htrace
  | holdForToolCall hpausable =>
    apply Unfreed.operation _ htrace
    exact (unfreed_afterPause _ hpausable).trans (Unfreed.of_same (fun _ => rfl) fun _ hx => hx)
  | setPauseState | pauseInPlaceIgnored | holdForToolCallIgnored | submitToolResponse
  | recordSpeculativeHandle | environment => exact hsame rfl rfl rfl

/-! ## 6. Runs -/

/-- **Step lemma.**  The calls into the hook and the frees of one operation. -/
theorem calls_of_exec {s s' : SchedulerState W} {op : SchedulerOp W}
    {out : Option SchedulerOutput} (hok : RegistryOk s) (h : op.exec self s = .ok out s') :
    Calls (MayCall s op) s s' ∧ OperationFrees s s' := by
  have heffect := effect_of_exec hok h
  have hfrees := heffect.frees hok rfl
  exact ⟨heffect.calls,
    { kept := hfrees.kept
      gone := hfrees.gone
      edmmHook := hfrees.edmmHook }⟩

/-- The hook is there and has released nothing. -/
structure KeepsHandles (s : SchedulerState W) : Prop where
  registry : RegistryOk s
  isSome : s.edmmHook.isSome = true
  releaseAttempts : ∀ hook ∈ s.edmmHook, hook.releaseAttempts = []

/-- **Run lemma.** -/
theorem keepsHandles_of_run {start s : SchedulerState W} {history : List (SchedulerStep W)}
    (run : SchedulerRun self start history s) (hstart : KeepsHandles start) : KeepsHandles s := by
  refine run.invariant (P := fun _ => True) ?_ (fun _ _ => trivial) hstart
  intro s s' op out hs hexec _
  obtain ⟨hcalls, _⟩ := calls_of_exec hs.registry hexec
  exact
    { registry := (effect_of_exec hs.registry hexec).registryOk hs.registry
      isSome := hcalls.isSome.trans hs.isSome
      releaseAttempts := by
        apply hcalls.invariant (P := fun hook => hook.releaseAttempts = []) _ hs.releaseAttempts
        intro call hook hcall hnone
        exact (hcall.releaseAttempts hook).trans hnone }

theorem freedIn_append {history later : List (SchedulerStep W)} {r : Ref} {reqId : RequestId}
    (h : FreedIn history r reqId) : FreedIn (history ++ later) r reqId := by
  obtain ⟨step, hstep, hfreed⟩ := h
  exact ⟨step, List.mem_append_left _ hstep, hfreed⟩

theorem recordedIn_append {history later : List (SchedulerStep W)} {r : Ref} {handle : Handle}
    (h : RecordedIn history r handle) : RecordedIn (history ++ later) r handle := by
  obtain ⟨step, hstep, hrecorded⟩ := h
  exact ⟨step, List.mem_append_left _ hstep, hrecorded⟩

theorem leavesNothing_left {history later : List (SchedulerStep W)}
    (h : LeavesNothing (history ++ later)) : LeavesNothing history where
  frees := fun step hstep => h.frees step (List.mem_append_left _ hstep)
  submits := by
    rintro earlier step rest r reqId rfl
    exact h.submits earlier step (rest ++ later) r reqId (List.append_assoc ..)
  handles := fun r reqId handle hfreed hrecorded =>
    h.handles r reqId handle (freedIn_append hfreed) (recordedIn_append hrecorded)

/-- **Run lemma.** -/
theorem nothingLeft_of_run {start s : SchedulerState W} {history : List (SchedulerStep W)}
    (run : SchedulerRun self start history s) (hok : RegistryOk start)
    (h : LeavesNothing history) : NothingLeft history s := by
  induction run with
  | nil =>
    exact
      { hook := fun _ _ ⟨_, hstep, _⟩ => by cases hstep
        handles := fun _ _ _ ⟨_, hstep, _⟩ => by cases hstep }
  | @snoc history s s' op out run hexec ih =>
    have hbefore := ih (leavesNothing_left h)
    have hregistry := registryOk_of_run run hok
    obtain ⟨hcalls, hfrees⟩ := calls_of_exec hregistry hexec
    have hlast : ⟨s, op, out, s'⟩ ∈ history ++ [⟨s, op, out, s'⟩] := List.mem_concat_self
    -- a request that goes now had nothing in the hook, which this step leaves alone
    have hnow : ∀ x, .freed x ∈ s'.trace → HoldsNothing s' (s.objs x).requestId := by
      intro x hfreed hook hhook
      rw [hfrees.edmmHook x hfreed] at hhook
      exact h.frees _ hlast x hfreed hook hhook
    refine { hook := ?_, handles := ?_ }
    · intro r reqId hfreed hgone
      obtain ⟨step, hstep, hevent, hid⟩ := hfreed
      rcases List.mem_append.mp hstep with hstep | hstep
      · have hfreed : FreedIn history r reqId := ⟨step, hstep, hevent, hid⟩
        cases hlive : s.unfinished? reqId with
        | none =>
          apply hcalls.invariant (P := fun hook => hook.HoldsNothing reqId) _
            (hbefore.hook r reqId hfreed hlive)
          intro call hook hcall
          apply hcall.holdsNothing hlive
          intro hop
          exact h.submits history _ [] r reqId rfl hop hfreed hlive
        | some x =>
          have hxid := hregistry.carries (s.unfinished?_eq_some.mp hlive).1
          rcases hfrees.kept reqId x hlive with hkept | hnowFreed
          · rw [hgone] at hkept
            cases hkept
          · rw [← hxid]
            exact hnow x hnowFreed
      · cases List.mem_singleton.mp hstep
        rw [← hid]
        exact hnow r hevent
    · exact fun r reqId handle hfreed hrecorded =>
        absurd hrecorded (h.handles r reqId handle hfreed)

/-- A response that comes is ready. -/
theorem isToolResponseReady_of_submit {s s' : SchedulerState W} {reqId : RequestId}
    {out : Option SchedulerOutput} (hs : KeepsHandles s)
    (h : SchedulerOp.exec self (.submitToolResponse reqId) s = .ok out s') :
    s'.unfinished? reqId = s.unfinished? reqId ∧ ¬ HoldsNothing s' reqId := by
  cases effect_of_exec hs.registry h
  refine ⟨rfl, ?_⟩
  intro hnothing
  obtain ⟨hook, hhook⟩ := Option.isSome_iff_exists.mp hs.isSome
  have hready := (hnothing (hook.submitToolResponse reqId) (by
    change (s.edmmHook.map fun hook => hook.submitToolResponse reqId) = _
    rw [hhook]
    rfl)).2
  rw [EdmmSchedulerHook.isToolResponseReady_submit, decide_eq_true rfl, Bool.true_or] at hready
  cases hready

/-- **When a finished request leaves nothing in the hook.**  Throughout a run nothing
    is left exactly if every request was freed with nothing in the hook, no response
    came afterwards, and no handle was recorded for it. -/
theorem nothingLeft_iff {objs : Ref → Request} {allocatorImportable : Bool} {w : W}
    {history : List (SchedulerStep W)} {s : SchedulerState W}
    (run : SchedulerRun self
      (SchedulerState.init objs (some (EdmmSchedulerHook.init allocatorImportable)) w) history s) :
    (∀ earlier step later, history = earlier ++ step :: later →
      NothingLeft (earlier ++ [step]) step.after) ↔ LeavesNothing history := by
  have hinit : KeepsHandles
      (SchedulerState.init objs (some (EdmmSchedulerHook.init allocatorImportable)) w) :=
    { registry := (registered_init objs _ w).registry
      isSome := rfl
      releaseAttempts := by
        intro hook hhook
        cases hhook
        rfl }
  constructor
  · intro hleft
    refine { frees := ?_, submits := ?_, handles := ?_ }
    · intro step hstep r hfreed
      obtain ⟨earlier, later, rfl⟩ := List.append_of_mem hstep
      obtain ⟨hearlier, hexec, _⟩ := run.split rfl
      obtain ⟨_, hfrees⟩ := calls_of_exec (keepsHandles_of_run hearlier hinit).registry hexec
      have hafter := (hleft earlier step later rfl).hook r _
        ⟨step, List.mem_concat_self, hfreed, rfl⟩ (hfrees.gone r hfreed)
      unfold HoldsNothing at hafter
      rwa [hfrees.edmmHook r hfreed] at hafter
    · rintro earlier ⟨before, op, out, after⟩ later r reqId hhistory rfl hfreed hgone
      obtain ⟨hearlier, hexec, _⟩ := run.split hhistory
      obtain ⟨hlive, hready⟩ :=
        isToolResponseReady_of_submit (keepsHandles_of_run hearlier hinit) hexec
      apply hready
      apply (hleft earlier _ later hhistory).hook r reqId (freedIn_append hfreed)
      rw [hlive]
      exact hgone
    · intro r reqId handle hfreed hrecorded
      rcases List.eq_nil_or_concat history with rfl | ⟨earlier, last, rfl⟩
      · obtain ⟨_, hstep, _⟩ := hfreed
        cases hstep
      rw [List.concat_eq_append] at run hleft hfreed hrecorded
      obtain ⟨hook, hhook, hreleased⟩ :=
        (hleft earlier last [] rfl).handles r reqId handle hfreed hrecorded
      obtain ⟨hearlier, hexec, _⟩ := run.split rfl
      have hnone := (keepsHandles_of_run (hearlier.snoc hexec) hinit).releaseAttempts hook hhook
      rw [hnone] at hreleased
      cases hreleased
  · rintro hleaves earlier ⟨before, op, out, after⟩ later rfl
    obtain ⟨hearlier, hexec, _⟩ := run.split rfl
    apply nothingLeft_of_run (hearlier.snoc hexec) hinit.registry
    rw [List.append_cons] at hleaves
    exact leavesNothing_left hleaves

/-- A request pauses, is answered, runs to its end and leaves nothing. -/
theorem nothingLeft_iff_answered : ∃ history s, SchedulerRun roomy start history s ∧
    FreedIn history 0 "a" ∧ ∀ earlier step later, history = earlier ++ step :: later →
      NothingLeft (earlier ++ [step]) step.after := by
  have hplayed : ∃ p ∈ roomy.play start
      [.op (.addRequest (.text "a" [1, 2, 3] 2 false)), .op .schedule, .deliver 0 [("a", [4])],
        .op (.holdForToolCall "a" ⟨0, none, 0⟩), .op (.submitToolResponse "a"), .op .schedule,
        .deliver 1 [("a", [5])]],
      (∃ step ∈ p.1, .freed 0 ∈ step.after.trace ∧ (step.before.objs 0).requestId = "a") ∧
      (∀ step ∈ p.1, ∀ event ∈ step.after.trace,
        (match event with
        | .freed r => step.before.edmmHook.all fun hook =>
            (hook.getActivePause (step.before.objs r).requestId).isNone &&
              !hook.isToolResponseReady (step.before.objs r).requestId
        | _ => true) = true) ∧
      ∀ step ∈ p.1,
        (match step.op with
        | .submitToolResponse reqId => (step.before.unfinished? reqId).isSome
        | .recordSpeculativeHandle _ _ => false
        | _ => true) = true := by
    decide +kernel
  obtain ⟨⟨history, s⟩, hhistory, hfreed, hfrees, hops⟩ := hplayed
  have run := run_of_play (Option.mem_def.mp hhistory)
  refine ⟨history, s, run, hfreed, (nothingLeft_iff run).mpr ?_⟩
  refine { frees := ?_, submits := ?_, handles := ?_ }
  · intro step hstep r hevent hook hhook
    have hnothing := hfrees step hstep _ hevent
    dsimp only at hnothing
    rw [Option.mem_def.mp hhook] at hnothing
    simpa [EdmmSchedulerHook.HoldsNothing] using hnothing
  · rintro earlier step later r reqId rfl hop _ hgone
    have hlive := hops step (List.mem_append_right _ List.mem_cons_self)
    rw [hop] at hlive
    dsimp only at hlive
    rw [hgone] at hlive
    cases hlive
  · rintro r reqId handle _ ⟨step, hstep, other, hop, _⟩
    have hnone := hops step hstep
    rw [hop] at hnone
    cases hnone

/-- **An aborted request stays in the hook.**  It is aborted in WAITING_FOR_TOOL_CALL:
    its pause stays active, and its speculative handle is not released. -/
theorem aborted_leaves_pause : ¬ ∀ (history : List (SchedulerStep Unit)) (s : SchedulerState Unit),
    SchedulerRun roomy start history s → NothingLeft history s := by
  intro hclaim
  have hplayed : ∃ p ∈ roomy.play start
      [.op (.addRequest (.text "a" [1, 2, 3] 8 false)), .op .schedule, .deliver 0 [("a", [4])],
        .op (.holdForToolCall "a" ⟨0, none, 0⟩), .op (.recordSpeculativeHandle "a" 7),
        .op (.finishRequests (some ["a"]) .finishedAborted)],
      (∃ step ∈ p.1, .freed 0 ∈ step.after.trace ∧ (step.before.objs 0).requestId = "a") ∧
        p.2.unfinished? "a" = none ∧
        ∃ hook ∈ p.2.edmmHook, (hook.getActivePause "a").isNone = false := by
    decide +kernel
  obtain ⟨⟨history, s⟩, hhistory, hfreed, hgone, hook, hhook, hpaused⟩ := hplayed
  have hnothing := (hclaim history s (run_of_play (Option.mem_def.mp hhistory))).hook 0 "a"
    hfreed hgone hook hhook
  rw [hnothing.1] at hpaused
  cases hpaused

end Scheduler

end Edmm
