/-
  Edmm/HookIsolation.lean
  =======================
  **Requests do not see each other through the hook.**

  `RequestView` is all that the hook knows about one request, and `RequestView.step`
  says what a call does to it without looking at any other request.  A call on
  another request leaves the view alone (`view_step_of_ne`); a call on the request
  itself, or `cleanup_all`, acts on the view as `RequestView.step` says, and the
  request is told the same (`view_step`).  The hook and the hook that never heard
  of the other requests therefore run through the same views.

  Timestamps and the speculation decision depend on clocks and CPU load that all
  requests share; `Observation` leaves them out.
-/
import Edmm.HookReferences

namespace Edmm

/-! ## 1. What a request sees -/

/-- A reply without timestamps and speculation decisions. -/
inductive Observation where
  | none
  | ready (isReady : Bool)
  | state (state : Option (RequestId × List Handle))
  | active (state : Option (PauseRef × RequestId × List Handle))
deriving DecidableEq, Repr

def ToolCallState.untimed (state : ToolCallState) : RequestId × List Handle :=
  (state.requestId, state.speculativeHandles)

def HookReply.observed : HookReply → Observation
  | .none => .none
  | .decision _ => .none
  | .ready isReady => .ready isReady
  | .state popped => .state (popped.map ToolCallState.untimed)
  | .active entry => .active (entry.map fun (ref, current) => (ref, current.untimed))

/-- What the hook knows about one request. -/
structure RequestView where
  /-- The pause entry: its `request_id` and its speculative handles. -/
  paused : Option (RequestId × List Handle)
  begun : Nat
  response : Option Bool
  /-- Handles of the request that were released, oldest first. -/
  released : List Handle
deriving DecidableEq, Repr

def HookMemory.view (m : HookMemory) (r : RequestId) : RequestView :=
  { paused := (m.hook.getActivePause r).map ToolCallState.untimed
    begun := m.begun r
    response := m.hook.toolResponses.get? r
    released := (m.released.filter fun release => release.1 = r).map Prod.snd }

namespace RequestView

def resume (v : RequestView) : RequestView := { v with paused := none, response := none }

/-- What `cleanup_request` gives to `release_physical_handle`. -/
def releases (importable : Bool) (v : RequestView) : List Handle :=
  match v.paused with
  | none => []
  | some state => if importable then state.2 else []

def cleanup (importable : Bool) (v : RequestView) : RequestView :=
  { v.resume with released := v.released ++ v.releases importable }

def append (r : RequestId) (v : RequestView) (state : PauseRef) (handle : Handle) : RequestView :=
  match v.paused with
  | none => v
  | some (requestId, handles) =>
      if state = ⟨r, v.begun⟩ then { v with paused := some (requestId, handles ++ [handle]) } else v

/-- A call on request `r`, or `cleanup_all`, as `r` sees it. -/
def step (importable : Bool) (r : RequestId) (v : RequestView) :
    HookCall → RequestView × Observation
  | .onToolCallPause _ _ => ({ v with paused := some (r, []), begun := v.begun + 1 }, .none)
  | .submitToolResponse _ => ({ v with response := some true }, .none)
  | .isToolResponseReady _ => (v, .ready v.response.isSome)
  | .onToolCallResume _ => (v.resume, .state v.paused)
  | .getActivePause _ => (v, .active (v.paused.map fun state => (⟨r, v.begun⟩, state)))
  | .append state handle => (v.append r state handle, .none)
  | .cleanupRequest _ => (v.cleanup importable, .none)
  -- the bulk cleanup reaches `r` exactly if `r` is paused
  | .cleanupAll => (if v.paused.isSome then v.cleanup importable else v, .none)

end RequestView

/-! ## 2. One call -/

namespace HookMemory

/-- Everything a view is made of. -/
theorem view_eq {m m' : HookMemory} {r : RequestId}
    (hpaused : m'.hook.getActivePause r = m.hook.getActivePause r)
    (hbegun : m'.begun r = m.begun r)
    (hresponse : m'.hook.toolResponses.get? r = m.hook.toolResponses.get? r)
    (hreleased : m'.released = m.released) : m'.view r = m.view r := by
  simp only [view, hpaused, hbegun, hresponse, hreleased]

theorem getActivePause_recordSpeculativeHandle (hook : EdmmSchedulerHook) (q r : RequestId)
    (handle : Handle) :
    (hook.recordSpeculativeHandle q handle).getActivePause r =
      (hook.getActivePause r).map fun state =>
        if r = q then { state with speculativeHandles := state.speculativeHandles ++ [handle] }
        else state := by
  unfold EdmmSchedulerHook.recordSpeculativeHandle
  by_cases hr : r = q
  · subst hr
    cases hstate : hook.getActivePause r with
    | none => simp [hstate]
    | some state => simp [EdmmSchedulerHook.getActivePause]
  · cases hook.getActivePause q with
    | none => simp [hr]
    | some state => simp [EdmmSchedulerHook.getActivePause, Dict.get?_set_of_ne _ _ hr, hr]

theorem view_append_of_ne {m : HookMemory} {r : RequestId} {state : PauseRef} (handle : Handle)
    (hne : state.requestId ≠ r) : (m.append state handle).view r = m.view r := by
  unfold append
  split
  · apply view_eq
    · rw [getActivePause_recordSpeculativeHandle]
      simp [Ne.symm hne]
    · rfl
    · simp
    · rfl
  · rfl

theorem view_append (m : HookMemory) (state : PauseRef) (handle : Handle) :
    (m.append state handle).view state.requestId =
      (m.view state.requestId).append state.requestId state handle := by
  unfold append RequestView.append
  cases hpause : m.hook.getActivePause state.requestId with
  | none => simp [activeRef?, view, hpause]
  | some current =>
    by_cases hactive : state = ⟨state.requestId, m.begun state.requestId⟩
    · rw [if_pos (activeRef?_eq_some.mpr ⟨by simp [hpause], hactive⟩)]
      simp [view, hpause, ToolCallState.untimed, ← hactive,
        getActivePause_recordSpeculativeHandle]
    · rw [if_neg fun h => hactive (activeRef?_eq_some.mp h).2]
      simp [view, hpause, ToolCallState.untimed, hactive]

theorem getActivePause_cleanupRequest (hook : EdmmSchedulerHook) (q r : RequestId) :
    (hook.cleanupRequest q).getActivePause r =
      if r = q then none else hook.getActivePause r := by
  simp only [EdmmSchedulerHook.getActivePause, EdmmSchedulerHook.activePauses_cleanupRequest,
    Dict.get?_erase]

theorem view_cleanupRequest_of_ne {m : HookMemory} {q r : RequestId} (hne : q ≠ r) :
    (m.cleanupRequest q).view r = m.view r := by
  simp [view, cleanupRequest, getActivePause_cleanupRequest, Ne.symm hne,
    EdmmSchedulerHook.toolResponses_cleanupRequest, Dict.get?_erase, hne, List.filter_map,
    Function.comp_def]

theorem releases_view (m : HookMemory) (r : RequestId) :
    (m.view r).releases m.hook.allocatorImportable = m.cleanupReleases r := by
  unfold RequestView.releases cleanupReleases view
  cases m.hook.getActivePause r with
  | none => rfl
  | some state => rfl

theorem view_cleanupRequest (m : HookMemory) (r : RequestId) :
    (m.cleanupRequest r).view r = (m.view r).cleanup m.hook.allocatorImportable := by
  unfold RequestView.cleanup
  rw [releases_view]
  simp [view, cleanupRequest, RequestView.resume, getActivePause_cleanupRequest,
    EdmmSchedulerHook.toolResponses_cleanupRequest, List.filter_map, Function.comp_def]

@[simp] theorem allocatorImportable_cleanupRequest (m : HookMemory) (q : RequestId) :
    (m.cleanupRequest q).hook.allocatorImportable = m.hook.allocatorImportable := by
  simp only [cleanupRequest, EdmmSchedulerHook.cleanupRequest]
  split
  · rfl
  · split <;> rfl

/-- A bulk cleanup of different requests cleans up `r` once or not at all. -/
theorem view_foldl_cleanupRequest {r : RequestId} {ids : List RequestId} (hnodup : ids.Nodup)
    (m : HookMemory) :
    (ids.foldl cleanupRequest m).view r =
      if r ∈ ids then (m.view r).cleanup m.hook.allocatorImportable else m.view r := by
  induction ids generalizing m with
  | nil => simp
  | cons id rest ih =>
    rw [List.nodup_cons] at hnodup
    rw [List.foldl_cons, ih hnodup.2, allocatorImportable_cleanupRequest]
    by_cases hid : id = r
    · subst hid
      simp [hnodup.1, view_cleanupRequest]
    · simp [view_cleanupRequest_of_ne hid, Ne.symm hid]

theorem view_cleanupAll (m : HookMemory) (r : RequestId) :
    m.cleanupAll.view r =
      if (m.view r).paused.isSome then (m.view r).cleanup m.hook.allocatorImportable
      else m.view r := by
  have hkeys : r ∈ m.hook.activePauses.keys ↔ (m.view r).paused.isSome = true := by
    rw [Dict.mem_keys_iff]
    simp [view, EdmmSchedulerHook.getActivePause, Option.isSome_iff_exists]
  have hnodup : m.hook.activePauses.keys.Nodup := m.hook.activePauses.nodupKeys
  unfold cleanupAll
  rw [view_foldl_cleanupRequest hnodup]
  simp only [hkeys]

/-- **A call on another request** does not touch what `r` sees. -/
theorem view_step_of_ne {m : HookMemory} {call : HookCall} {q r : RequestId}
    (hcall : call.requestId? = some q) (hne : q ≠ r) : (m.step call).1.view r = m.view r := by
  cases call with
  | onToolCallPause requestId reading =>
    cases hcall
    apply view_eq
    · simp [step, onToolCallPause, EdmmSchedulerHook.getActivePause_onToolCallPause, Ne.symm hne]
    · exact Function.update_of_ne (Ne.symm hne) _ _
    · simp [step, onToolCallPause]
    · rfl
  | submitToolResponse requestId =>
    cases hcall
    apply view_eq
    · rfl
    · rfl
    · exact Dict.get?_set_of_ne _ _ (Ne.symm hne)
    · rfl
  | isToolResponseReady requestId => rfl
  | onToolCallResume requestId =>
    cases hcall
    apply view_eq
    · exact Dict.get?_erase_of_ne _ (Ne.symm hne)
    · rfl
    · exact Dict.get?_erase_of_ne _ (Ne.symm hne)
    · rfl
  | getActivePause requestId => rfl
  | append state handle =>
    cases hcall
    exact view_append_of_ne handle hne
  | cleanupRequest requestId =>
    cases hcall
    exact view_cleanupRequest_of_ne hne
  | cleanupAll => cases hcall

/-- **A call on `r`, or `cleanup_all`,** does to what `r` sees what `RequestView.step`
    says, and a call on `r` replies what it says. -/
theorem view_step {m : HookMemory} {call : HookCall} {r : RequestId}
    (hcall : call.requestId? = some r ∨ call.requestId? = none) :
    (m.step call).1.view r = ((m.view r).step m.hook.allocatorImportable r call).1 ∧
      (m.step call).2.observed = ((m.view r).step m.hook.allocatorImportable r call).2 := by
  cases call with
  | onToolCallPause requestId reading =>
    obtain rfl : requestId = r := by simpa [HookCall.requestId?] using hcall
    simp [step, view, onToolCallPause, RequestView.step, HookReply.observed,
      EdmmSchedulerHook.getActivePause_onToolCallPause, ToolCallState.untimed]
  | submitToolResponse requestId =>
    obtain rfl : requestId = r := by simpa [HookCall.requestId?] using hcall
    simp [step, view, RequestView.step, HookReply.observed, EdmmSchedulerHook.submitToolResponse,
      EdmmSchedulerHook.getActivePause]
  | isToolResponseReady requestId =>
    obtain rfl : requestId = r := by simpa [HookCall.requestId?] using hcall
    simp [step, view, RequestView.step, HookReply.observed, EdmmSchedulerHook.isToolResponseReady]
  | onToolCallResume requestId =>
    obtain rfl : requestId = r := by simpa [HookCall.requestId?] using hcall
    simp [step, view, RequestView.step, RequestView.resume, HookReply.observed,
      EdmmSchedulerHook.onToolCallResume, EdmmSchedulerHook.popRequest,
      EdmmSchedulerHook.getActivePause]
  | getActivePause requestId =>
    obtain rfl : requestId = r := by simpa [HookCall.requestId?] using hcall
    simp [step, view, RequestView.step, HookReply.observed, Function.comp_def]
  | append state handle =>
    obtain rfl : state.requestId = r := by simpa [HookCall.requestId?] using hcall
    exact ⟨m.view_append state handle, rfl⟩
  | cleanupRequest requestId =>
    obtain rfl : requestId = r := by simpa [HookCall.requestId?] using hcall
    exact ⟨m.view_cleanupRequest requestId, rfl⟩
  | cleanupAll => exact ⟨m.view_cleanupAll r, rfl⟩

theorem allocatorImportable_step (m : HookMemory) (call : HookCall) :
    (m.step call).1.hook.allocatorImportable = m.hook.allocatorImportable := by
  cases call with
  | onToolCallPause requestId reading =>
    obtain ⟨load, time, hsampled⟩ :=
      m.hook.sampleCpuLoad_state reading.monotonic reading.procStat
    simp only [step, onToolCallPause, EdmmSchedulerHook.onToolCallPause, hsampled]
  | submitToolResponse requestId => rfl
  | isToolResponseReady requestId => rfl
  | onToolCallResume requestId => rfl
  | getActivePause requestId => rfl
  | append state handle =>
    rcases m.hook_append state handle with h | h
    · exact congrArg EdmmSchedulerHook.allocatorImportable h
    · simp only [step, h, EdmmSchedulerHook.recordSpeculativeHandle]
      split <;> rfl
  | cleanupRequest requestId => exact m.allocatorImportable_cleanupRequest requestId
  | cleanupAll =>
    simp only [step, cleanupAll]
    generalize m.hook.activePauses.keys = ids
    induction ids generalizing m with
    | nil => rfl
    | cons id rest ih => exact (ih (m.cleanupRequest id)).trans (by simp)

/-! ## 3. Whole runs -/

/-- What the calls on `r` reply, in order. -/
def observations (r : RequestId) : HookMemory → List HookCall → List Observation
  | _, [] => []
  | m, call :: rest =>
      if call.requestId? = some r then
        (m.step call).2.observed :: observations r (m.step call).1 rest
      else observations r (m.step call).1 rest

end HookMemory

/-- The call is on `r` or on no request in particular. -/
def HookCall.concerns (r : RequestId) (call : HookCall) : Bool :=
  call.requestId? = some r || call.requestId? = none

namespace HookMemory

/-- Two hooks on which `r` sees the same show `r` the same in the next calls, of
    which the second leaves out those on other requests. -/
theorem isolated_of_view {r : RequestId} (calls : List HookCall) {m m' : HookMemory}
    (hview : m.view r = m'.view r)
    (himportable : m.hook.allocatorImportable = m'.hook.allocatorImportable) :
    (m.run calls).view r = (m'.run (calls.filter (HookCall.concerns r))).view r ∧
      observations r m calls = observations r m' (calls.filter (HookCall.concerns r)) := by
  induction calls generalizing m m' with
  | nil => exact ⟨hview, rfl⟩
  | cons call rest ih =>
    by_cases hconcerns : call.concerns r = true
    · have hcall : call.requestId? = some r ∨ call.requestId? = none := by
        simpa [HookCall.concerns] using hconcerns
      have hboth : ∀ m : HookMemory, _ := fun m => view_step (m := m) hcall
      obtain ⟨hstep, hreply⟩ := hboth m
      obtain ⟨hstep', hreply'⟩ := hboth m'
      rw [hview, himportable] at hstep hreply
      have hnext := ih (hstep.trans hstep'.symm) (by
        rw [allocatorImportable_step, allocatorImportable_step, himportable])
      rw [List.filter_cons_of_pos hconcerns]
      refine ⟨hnext.1, ?_⟩
      simp only [observations, hreply, hreply', hnext.2]
    · rw [List.filter_cons_of_neg hconcerns]
      cases hid : call.requestId? with
      | none => simp [HookCall.concerns, hid] at hconcerns
      | some q =>
        have hne : q ≠ r := by
          rintro rfl
          simp [HookCall.concerns, hid] at hconcerns
        have hnext := ih ((view_step_of_ne (m := m) hid hne).trans hview)
          ((m.allocatorImportable_step call).trans himportable)
        refine ⟨hnext.1, ?_⟩
        simp only [observations, hid, Option.some.injEq, hne, if_false, hnext.2]

/-- **Isolation.**  After every run of the hook, the pause entry of `r` with its
    handles, its response flag, its released handles and the replies to all calls
    on `r` are those of the run without the calls on other requests. -/
theorem requests_isolated (allocatorImportable : Bool) (calls : List HookCall) (r : RequestId) :
    ((init allocatorImportable).run calls).view r =
        ((init allocatorImportable).run (calls.filter (HookCall.concerns r))).view r ∧
      observations r (init allocatorImportable) calls =
        observations r (init allocatorImportable) (calls.filter (HookCall.concerns r)) :=
  isolated_of_view calls rfl rfl

end HookMemory

end Edmm
