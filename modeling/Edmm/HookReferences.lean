/-
  Edmm/HookReferences.lean
  ========================
  **Callers of the hook that keep the state objects they got.**

  `get_active_pause` hands out the `ToolCallState` object itself, and its caller
  appends to `speculative_handles` when the speculation is done, whatever the hook
  did with the object in between.  An object is named by its request and its
  number among the pauses of that request, so that no name stands for two objects.
  Once the hook popped or replaced an object, nothing that happens to it changes
  the hook: `append` then leaves the hook alone.

  `released` files every handle given to `release_physical_handle` under the
  request it was recorded for; `releaseAttempts` of the hook lists the same
  handles without the requests (`releaseAttempts_run`).
-/
import Edmm.SchedulerHook

namespace Edmm

/-! ## 1. State objects -/

/-- The `ToolCallState` object of a pause: the requests' pauses are numbered. -/
structure PauseRef where
  requestId : RequestId
  number : Nat
deriving DecidableEq, Repr

structure HookMemory where
  hook : EdmmSchedulerHook
  /-- How many pauses of a request began. -/
  begun : RequestId → Nat
  /-- Handles given to `release_physical_handle`, oldest first. -/
  released : List (RequestId × Handle)

namespace HookMemory

def init (allocatorImportable : Bool) : HookMemory :=
  { hook := .init allocatorImportable, begun := fun _ => 0, released := [] }

/-- The object that `_active_pauses` holds for the request. -/
def activeRef? (m : HookMemory) (requestId : RequestId) : Option PauseRef :=
  (m.hook.getActivePause requestId).map fun _ => ⟨requestId, m.begun requestId⟩

def onToolCallPause (m : HookMemory) (requestId : RequestId)
    (reading : EdmmSchedulerHook.PauseReading) : HookMemory :=
  { m with
    hook := (m.hook.onToolCallPause requestId reading).2
    begun := Function.update m.begun requestId (m.begun requestId + 1) }

/-- `state.speculative_handles.append(handle)` -/
def append (m : HookMemory) (state : PauseRef) (handle : Handle) : HookMemory :=
  if m.activeRef? state.requestId = some state then
    { m with hook := m.hook.recordSpeculativeHandle state.requestId handle }
  else m

/-- The handles `cleanup_request` gives to `release_physical_handle`. -/
def cleanupReleases (m : HookMemory) (requestId : RequestId) : List Handle :=
  match m.hook.getActivePause requestId with
  | none => []
  | some state => if m.hook.allocatorImportable then state.speculativeHandles else []

def cleanupRequest (m : HookMemory) (requestId : RequestId) : HookMemory :=
  { m with
    hook := m.hook.cleanupRequest requestId
    released := m.released ++ (m.cleanupReleases requestId).map fun handle => (requestId, handle) }

def cleanupAll (m : HookMemory) : HookMemory :=
  m.hook.activePauses.keys.foldl cleanupRequest m

end HookMemory

/-! ## 2. Calls -/

inductive HookCall where
  | onToolCallPause (requestId : RequestId) (reading : EdmmSchedulerHook.PauseReading)
  | submitToolResponse (requestId : RequestId)
  | isToolResponseReady (requestId : RequestId)
  | onToolCallResume (requestId : RequestId)
  | getActivePause (requestId : RequestId)
  | append (state : PauseRef) (handle : Handle)
  | cleanupRequest (requestId : RequestId)
  | cleanupAll

/-- What a call returns. -/
inductive HookReply where
  | none
  | decision (decision : SpeculationDecision)
  | ready (isReady : Bool)
  | state (state : Option ToolCallState)
  | active (state : Option (PauseRef × ToolCallState))

/-- The request a call is about; `cleanup_all` is about none in particular. -/
def HookCall.requestId? : HookCall → Option RequestId
  | .onToolCallPause requestId _ => some requestId
  | .submitToolResponse requestId => some requestId
  | .isToolResponseReady requestId => some requestId
  | .onToolCallResume requestId => some requestId
  | .getActivePause requestId => some requestId
  | .append state _ => some state.requestId
  | .cleanupRequest requestId => some requestId
  | .cleanupAll => none

namespace HookMemory

def step (m : HookMemory) : HookCall → HookMemory × HookReply
  | .onToolCallPause requestId reading =>
      (m.onToolCallPause requestId reading,
        .decision (m.hook.onToolCallPause requestId reading).1)
  | .submitToolResponse requestId =>
      ({ m with hook := m.hook.submitToolResponse requestId }, .none)
  | .isToolResponseReady requestId => (m, .ready (m.hook.isToolResponseReady requestId))
  | .onToolCallResume requestId =>
      ({ m with hook := (m.hook.onToolCallResume requestId).2 },
        .state (m.hook.onToolCallResume requestId).1)
  | .getActivePause requestId =>
      (m, .active ((m.hook.getActivePause requestId).map fun state =>
        (⟨requestId, m.begun requestId⟩, state)))
  | .append state handle => (m.append state handle, .none)
  | .cleanupRequest requestId => (m.cleanupRequest requestId, .none)
  | .cleanupAll => (m.cleanupAll, .none)

/-- The hook after a sequence of calls. -/
def run (m : HookMemory) (calls : List HookCall) : HookMemory :=
  calls.foldl (fun m call => (m.step call).1) m

@[simp] theorem run_nil (m : HookMemory) : m.run [] = m := rfl

@[simp] theorem run_cons (m : HookMemory) (call : HookCall) (rest : List HookCall) :
    m.run (call :: rest) = (m.step call).1.run rest := rfl

/-! ## 3. The hook underneath -/

/-- An object is active exactly if it belongs to the last pause of its request. -/
theorem activeRef?_eq_some {m : HookMemory} {r : RequestId} {state : PauseRef} :
    m.activeRef? r = some state ↔
      (m.hook.getActivePause r).isSome ∧ state = ⟨r, m.begun r⟩ := by
  unfold activeRef?
  cases m.hook.getActivePause r with
  | none => simp
  | some current => simp [eq_comm]

theorem hook_append (m : HookMemory) (state : PauseRef) (handle : Handle) :
    (m.append state handle).hook = m.hook ∨
      (m.append state handle).hook = m.hook.recordSpeculativeHandle state.requestId handle := by
  unfold append
  split
  · exact Or.inr rfl
  · exact Or.inl rfl

theorem begun_append (m : HookMemory) (state : PauseRef) (handle : Handle) :
    (m.append state handle).begun = m.begun := by
  unfold append
  split <;> rfl

/-- Appending neither begins nor ends a pause. -/
theorem isSome_getActivePause_append (m : HookMemory) (state : PauseRef) (handle : Handle)
    (r : RequestId) :
    ((m.append state handle).hook.getActivePause r).isSome =
      (m.hook.getActivePause r).isSome := by
  rcases m.hook_append state handle with h | h
  · rw [h]
  · rw [h]
    unfold EdmmSchedulerHook.recordSpeculativeHandle
    cases hget : m.hook.getActivePause state.requestId with
    | none => rfl
    | some current =>
      by_cases hr : r = state.requestId
      · subst hr
        simp only [EdmmSchedulerHook.getActivePause] at hget
        simp [EdmmSchedulerHook.getActivePause, hget]
      · simp [EdmmSchedulerHook.getActivePause, Dict.get?_set, hr]

theorem hook_foldl_cleanupRequest (m : HookMemory) (ids : List RequestId) :
    (ids.foldl cleanupRequest m).hook = ids.foldl EdmmSchedulerHook.cleanupRequest m.hook := by
  induction ids generalizing m with
  | nil => rfl
  | cons id rest ih => exact ih (m.cleanupRequest id)

@[simp] theorem hook_cleanupAll (m : HookMemory) : m.cleanupAll.hook = m.hook.cleanupAll :=
  m.hook_foldl_cleanupRequest _

/-- **One call** is at most one operation of the hook. -/
theorem hook_step (m : HookMemory) (call : HookCall) :
    (m.step call).1.hook = m.hook ∨ ∃ op : HookOp, (m.step call).1.hook = op.step m.hook := by
  cases call with
  | onToolCallPause requestId reading => exact Or.inr ⟨.onToolCallPause requestId reading, rfl⟩
  | submitToolResponse requestId => exact Or.inr ⟨.submitToolResponse requestId, rfl⟩
  | isToolResponseReady requestId => exact Or.inl rfl
  | onToolCallResume requestId => exact Or.inr ⟨.onToolCallResume requestId, rfl⟩
  | getActivePause requestId => exact Or.inl rfl
  | append state handle =>
    rcases m.hook_append state handle with h | h
    · exact Or.inl h
    · exact Or.inr ⟨.recordSpeculativeHandle state.requestId handle, h⟩
  | cleanupRequest requestId => exact Or.inr ⟨.cleanupRequest requestId, rfl⟩
  | cleanupAll => exact Or.inr ⟨.cleanupAll, m.hook_cleanupAll⟩

/-- **A run through references is a run of the hook.** -/
theorem hook_run (m : HookMemory) (calls : List HookCall) :
    ∃ ops : List HookOp, (m.run calls).hook = runHook m.hook ops := by
  induction calls generalizing m with
  | nil => exact ⟨[], rfl⟩
  | cons call rest ih =>
    obtain ⟨ops, hops⟩ := ih (m.step call).1
    rcases m.hook_step call with h | ⟨op, h⟩
    · exact ⟨ops, by rw [run_cons, hops, h]⟩
    · exact ⟨op :: ops, by rw [run_cons, hops, h]; rfl⟩

/-! ## 4. The releases underneath -/

/-- The releases of the memory are those of the hook. -/
def Agrees (m : HookMemory) : Prop := m.released.map Prod.snd = m.hook.releaseAttempts

theorem releaseAttempts_cleanupRequest (m : HookMemory) (requestId : RequestId) :
    (m.hook.cleanupRequest requestId).releaseAttempts =
      m.hook.releaseAttempts ++ m.cleanupReleases requestId := by
  unfold EdmmSchedulerHook.cleanupRequest cleanupReleases EdmmSchedulerHook.getActivePause
  cases m.hook.activePauses.get? requestId with
  | none => simp [EdmmSchedulerHook.popRequest]
  | some state =>
    dsimp only
    split <;> simp [EdmmSchedulerHook.popRequest]

theorem Agrees.cleanupRequest {m : HookMemory} (h : m.Agrees) (requestId : RequestId) :
    (m.cleanupRequest requestId).Agrees := by
  unfold Agrees at h ⊢
  simp only [HookMemory.cleanupRequest, List.map_append, List.map_map,
    m.releaseAttempts_cleanupRequest, h]
  simp [Function.comp_def]

theorem Agrees.foldl_cleanupRequest {m : HookMemory} (h : m.Agrees) (ids : List RequestId) :
    (ids.foldl HookMemory.cleanupRequest m).Agrees := by
  induction ids generalizing m with
  | nil => exact h
  | cons id rest ih => exact ih (h.cleanupRequest id)

theorem releaseAttempts_recordSpeculativeHandle (hook : EdmmSchedulerHook) (r : RequestId)
    (handle : Handle) :
    (hook.recordSpeculativeHandle r handle).releaseAttempts = hook.releaseAttempts := by
  unfold EdmmSchedulerHook.recordSpeculativeHandle
  split <;> rfl

theorem releaseAttempts_onToolCallPause (hook : EdmmSchedulerHook) (r : RequestId)
    (reading : EdmmSchedulerHook.PauseReading) :
    (hook.onToolCallPause r reading).2.releaseAttempts = hook.releaseAttempts := by
  obtain ⟨load, time, hsampled⟩ := hook.sampleCpuLoad_state reading.monotonic reading.procStat
  simp only [EdmmSchedulerHook.onToolCallPause, hsampled]

theorem Agrees.step {m : HookMemory} (h : m.Agrees) (call : HookCall) : (m.step call).1.Agrees := by
  cases call with
  | onToolCallPause requestId reading =>
    exact h.trans (releaseAttempts_onToolCallPause m.hook requestId reading).symm
  | submitToolResponse requestId => exact h
  | isToolResponseReady requestId => exact h
  | onToolCallResume requestId => exact h
  | getActivePause requestId => exact h
  | append state handle =>
    simp only [HookMemory.step, HookMemory.append]
    split
    · exact h.trans (releaseAttempts_recordSpeculativeHandle m.hook _ handle).symm
    · exact h
  | cleanupRequest requestId => exact h.cleanupRequest requestId
  | cleanupAll => exact h.foldl_cleanupRequest _

/-- **Over a whole run**, `released` lists the handles of `releaseAttempts`. -/
theorem releaseAttempts_run (allocatorImportable : Bool) (calls : List HookCall) :
    ((init allocatorImportable).run calls).released.map Prod.snd =
      ((init allocatorImportable).run calls).hook.releaseAttempts := by
  suffices h : ∀ m : HookMemory, m.Agrees → (m.run calls).Agrees from h _ rfl
  induction calls with
  | nil => exact fun m h => h
  | cons call rest ih => exact fun m h => ih _ (h.step call)

end HookMemory

end Edmm
