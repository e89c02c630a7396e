/-
  Edmm/SchedulerHook.lean
  =======================
  **The scheduler hook for tool calls** (`vllm_v1_core_sched/edmm_hook.py`).

  The hook keeps two dictionaries keyed by request id: the active pauses and the
  tool responses that arrived.  What the process reads from outside (the clocks,
  `/proc/stat`) is an argument of the call that reads it, floats are rationals, and
  a handle given to `release_physical_handle` is recorded in `releaseAttempts`,
  since a failing release is only logged.  The lock serialises the dictionary
  accesses and has no effect on a sequence of calls.

  The second half is about the matching of responses to pauses.  A response is
  filed under the request id alone, so one that is still there when a pause
  begins answers that pause: `toolResponseReady_iff` says exactly when a pause is
  answered by its own response only.
-/
import Edmm.Driver
import Mathlib.Algebra.Order.Field.Rat
import Mathlib.Algebra.BigOperators.Group.List.Basic
import Mathlib.Data.List.Infix

namespace Edmm

abbrev RequestId := String

/-! ## 1. State -/

inductive SpeculationDecision where
  | speculate
  | defer
deriving DecidableEq, Repr

structure ToolCallState where
  requestId : RequestId
  pausedAtNs : Nat
  speculativeHandles : List Handle
  speculationDecision : Option SpeculationDecision
deriving DecidableEq, Repr

structure EdmmSchedulerHook where
  /-- `_active_pauses` -/
  activePauses : Dict RequestId ToolCallState
  /-- `_tool_responses` -/
  toolResponses : Dict RequestId Bool
  cpuLoadCache : ℚ
  cpuLoadCacheTime : ℚ
  /-- Whether `edmm_allocator` can be imported; without it a cleanup releases nothing. -/
  allocatorImportable : Bool
  /-- Handles given to `release_physical_handle`, oldest first. -/
  releaseAttempts : List Handle

def EdmmSchedulerHook.init (allocatorImportable : Bool) : EdmmSchedulerHook :=
  { activePauses := ∅
    toolResponses := ∅
    cpuLoadCache := 0
    cpuLoadCacheTime := 0
    allocatorImportable
    releaseAttempts := [] }

namespace EdmmSchedulerHook

/-! ## 2. Operations -/

def toolSentinelToken : String := "<|call_tool|>"

def cpuLoadThreshold : ℚ := 75

def shouldPauseForToolCall (decode : List Int → String) (outputTokenIds : List Int) : Bool :=
  if outputTokenIds = [] then false
  else
    let lastText := decode (outputTokenIds.drop (outputTokenIds.length - min 10 outputTokenIds.length))
    decide (toolSentinelToken.toList <:+: lastText.toList)

/-- The first line of `/proc/stat`, split: `none` for an I/O error, and `none` for
    a field that is not a number. -/
abbrev ProcStat := Option (List (Option ℚ))

/-- `_cpu_load_cache` after a read; every failure reads as `0.0`. -/
def cpuLoadOf : ProcStat → ℚ
  | none => 0
  | some parts =>
      if parts.length ≥ 8 then
        match parts.getD 4 none, ((parts.drop 1).take 7).mapM id with
        | some idle, some counters =>
            let total := counters.sum
            if total > 0 then 100 * (1 - idle / total) else 0
        | _, _ => 0
      else 0

def sampleCpuLoad (hook : EdmmSchedulerHook) (now : ℚ) (procStat : ProcStat) :
    ℚ × EdmmSchedulerHook :=
  if now - hook.cpuLoadCacheTime < 1 / 10 then (hook.cpuLoadCache, hook)
  else
    (cpuLoadOf procStat,
      { hook with cpuLoadCache := cpuLoadOf procStat, cpuLoadCacheTime := now })

/-- What `on_tool_call_pause` reads from outside. -/
structure PauseReading where
  monotonic : ℚ
  procStat : ProcStat
  perfCounterNs : Nat

def onToolCallPause (hook : EdmmSchedulerHook) (requestId : RequestId) (reading : PauseReading) :
    SpeculationDecision × EdmmSchedulerHook :=
  let sampled := hook.sampleCpuLoad reading.monotonic reading.procStat
  let decision := if sampled.1 > cpuLoadThreshold then SpeculationDecision.defer else .speculate
  let state : ToolCallState :=
    { requestId
      pausedAtNs := reading.perfCounterNs
      speculativeHandles := []
      speculationDecision := some decision }
  (decision, { sampled.2 with activePauses := sampled.2.activePauses.set requestId state })

def submitToolResponse (hook : EdmmSchedulerHook) (requestId : RequestId) : EdmmSchedulerHook :=
  { hook with toolResponses := hook.toolResponses.set requestId true }

def isToolResponseReady (hook : EdmmSchedulerHook) (requestId : RequestId) : Bool :=
  (hook.toolResponses.get? requestId).isSome

/-- The two `pop`s that resuming and cleaning up share. -/
def popRequest (hook : EdmmSchedulerHook) (requestId : RequestId) : EdmmSchedulerHook :=
  { hook with
    toolResponses := hook.toolResponses.erase requestId
    activePauses := hook.activePauses.erase requestId }

def onToolCallResume (hook : EdmmSchedulerHook) (requestId : RequestId) :
    Option ToolCallState × EdmmSchedulerHook :=
  (hook.activePauses.get? requestId, hook.popRequest requestId)

def getActivePause (hook : EdmmSchedulerHook) (requestId : RequestId) : Option ToolCallState :=
  hook.activePauses.get? requestId

/-- `get_active_pause(request_id).speculative_handles.append(handle)` -/
def recordSpeculativeHandle (hook : EdmmSchedulerHook) (requestId : RequestId) (handle : Handle) :
    EdmmSchedulerHook :=
  match hook.getActivePause requestId with
  | none => hook
  | some state =>
      { hook with
        activePauses := hook.activePauses.set requestId
          { state with speculativeHandles := state.speculativeHandles ++ [handle] } }

def cleanupRequest (hook : EdmmSchedulerHook) (requestId : RequestId) : EdmmSchedulerHook :=
  let popped := hook.popRequest requestId
  match hook.activePauses.get? requestId with
  | none => popped
  | some state =>
      if hook.allocatorImportable then
        { popped with releaseAttempts := popped.releaseAttempts ++ state.speculativeHandles }
      else popped

def cleanupAll (hook : EdmmSchedulerHook) : EdmmSchedulerHook :=
  hook.activePauses.keys.foldl cleanupRequest hook

end EdmmSchedulerHook

/-- One call into the hook. -/
inductive HookOp where
  | onToolCallPause (requestId : RequestId) (reading : EdmmSchedulerHook.PauseReading)
  | submitToolResponse (requestId : RequestId)
  | isToolResponseReady (requestId : RequestId)
  | onToolCallResume (requestId : RequestId)
  | recordSpeculativeHandle (requestId : RequestId) (handle : Handle)
  | cleanupRequest (requestId : RequestId)
  | cleanupAll

def HookOp.step (hook : EdmmSchedulerHook) : HookOp → EdmmSchedulerHook
  | .onToolCallPause requestId reading => (hook.onToolCallPause requestId reading).2
  | .submitToolResponse requestId => hook.submitToolResponse requestId
  | .isToolResponseReady _ => hook
  | .onToolCallResume requestId => (hook.onToolCallResume requestId).2
  | .recordSpeculativeHandle requestId handle => hook.recordSpeculativeHandle requestId handle
  | .cleanupRequest requestId => hook.cleanupRequest requestId
  | .cleanupAll => hook.cleanupAll

/-- The hook after a sequence of calls. -/
def runHook (hook : EdmmSchedulerHook) (ops : List HookOp) : EdmmSchedulerHook :=
  ops.foldl HookOp.step hook

/-! ## 3. What each operation does to the two dictionaries -/

namespace EdmmSchedulerHook

/-- Sampling the CPU load changes the cached load only. -/
theorem sampleCpuLoad_state (hook : EdmmSchedulerHook) (now : ℚ) (procStat : ProcStat) :
    ∃ load time, (hook.sampleCpuLoad now procStat).2 =
      { hook with cpuLoadCache := load, cpuLoadCacheTime := time } := by
  unfold sampleCpuLoad
  split
  · exact ⟨_, _, rfl⟩
  · exact ⟨_, _, rfl⟩

@[simp] theorem toolResponses_onToolCallPause (hook : EdmmSchedulerHook) (r : RequestId)
    (reading : PauseReading) :
    (hook.onToolCallPause r reading).2.toolResponses = hook.toolResponses := by
  obtain ⟨load, time, hsampled⟩ := hook.sampleCpuLoad_state reading.monotonic reading.procStat
  simp only [onToolCallPause, hsampled]

theorem getActivePause_onToolCallPause (hook : EdmmSchedulerHook) (r other : RequestId)
    (reading : PauseReading) :
    (hook.onToolCallPause r reading).2.getActivePause other =
      if other = r then
        some ⟨r, reading.perfCounterNs, [], some (hook.onToolCallPause r reading).1⟩
      else hook.getActivePause other := by
  obtain ⟨load, time, hsampled⟩ := hook.sampleCpuLoad_state reading.monotonic reading.procStat
  simp only [onToolCallPause, getActivePause, hsampled, Dict.get?_set]

@[simp] theorem toolResponses_recordSpeculativeHandle (hook : EdmmSchedulerHook) (r : RequestId)
    (handle : Handle) :
    (hook.recordSpeculativeHandle r handle).toolResponses = hook.toolResponses := by
  unfold recordSpeculativeHandle
  split <;> rfl

theorem toolResponses_cleanupRequest (hook : EdmmSchedulerHook) (r : RequestId) :
    (hook.cleanupRequest r).toolResponses = hook.toolResponses.erase r := by
  unfold cleanupRequest
  split
  · rfl
  · split <;> rfl

theorem activePauses_cleanupRequest (hook : EdmmSchedulerHook) (r : RequestId) :
    (hook.cleanupRequest r).activePauses = hook.activePauses.erase r := by
  unfold cleanupRequest
  split
  · rfl
  · split <;> rfl

theorem isToolResponseReady_submit (hook : EdmmSchedulerHook) (r other : RequestId) :
    (hook.submitToolResponse r).isToolResponseReady other =
      (decide (other = r) || hook.isToolResponseReady other) := by
  unfold submitToolResponse isToolResponseReady
  by_cases h : other = r <;> simp [Dict.get?_set, h]

theorem isToolResponseReady_erase {hook hook' : EdmmSchedulerHook} {r : RequestId}
    (h : hook'.toolResponses = hook.toolResponses.erase r) (other : RequestId) :
    hook'.isToolResponseReady other = (!decide (other = r) && hook.isToolResponseReady other) := by
  unfold isToolResponseReady
  by_cases hother : other = r <;> simp [h, Dict.get?_erase, hother]

end EdmmSchedulerHook

/-! ## 4. Responses and the pauses they answer -/

/-- The call ends the pause of `r`, or begins another one. -/
def HookOp.EndsPause (r : RequestId) : HookOp → Prop
  | .onToolCallPause requestId _ => requestId = r
  | .onToolCallResume requestId => requestId = r
  | .cleanupRequest requestId => requestId = r
  | .cleanupAll => True
  | _ => False

/-- **One call.**  While the pause of `r` lasts, only a response to `r` changes
    whether `r` is ready. -/
theorem isToolResponseReady_step {r : RequestId} {op : HookOp} (h : ¬ op.EndsPause r)
    (hook : EdmmSchedulerHook) :
    (op.step hook).isToolResponseReady r = true ↔
      hook.isToolResponseReady r = true ∨ op = .submitToolResponse r := by
  cases op with
  | onToolCallPause requestId reading =>
    simp [HookOp.step, EdmmSchedulerHook.isToolResponseReady]
  | submitToolResponse requestId =>
    simp only [HookOp.step, EdmmSchedulerHook.isToolResponseReady_submit, Bool.or_eq_true,
      decide_eq_true_eq, HookOp.submitToolResponse.injEq]
    constructor
    · rintro (rfl | hready)
      · exact Or.inr rfl
      · exact Or.inl hready
    · rintro (hready | rfl)
      · exact Or.inr hready
      · exact Or.inl rfl
  | isToolResponseReady requestId => simp [HookOp.step]
  | onToolCallResume requestId =>
    have hne : r ≠ requestId := fun heq => h heq.symm
    simp only [HookOp.step, reduceCtorEq, or_false]
    rw [EdmmSchedulerHook.isToolResponseReady_erase rfl]
    simp [hne]
  | recordSpeculativeHandle requestId handle =>
    simp [HookOp.step, EdmmSchedulerHook.isToolResponseReady]
  | cleanupRequest requestId =>
    have hne : r ≠ requestId := fun heq => h heq.symm
    simp only [HookOp.step, reduceCtorEq, or_false]
    rw [EdmmSchedulerHook.isToolResponseReady_erase
      (EdmmSchedulerHook.toolResponses_cleanupRequest _ _)]
    simp [hne]
  | cleanupAll => exact absurd trivial h

/-- **A whole pause.**  `r` is ready exactly if it was ready when the pause began
    or a response arrived since. -/
theorem isToolResponseReady_run {r : RequestId} {ops : List HookOp}
    (h : ∀ op ∈ ops, ¬ op.EndsPause r) (hook : EdmmSchedulerHook) :
    (runHook hook ops).isToolResponseReady r = true ↔
      hook.isToolResponseReady r = true ∨ .submitToolResponse r ∈ ops := by
  unfold runHook
  induction ops generalizing hook with
  | nil => simp
  | cons op rest ih =>
    rw [List.foldl_cons, ih (fun op hop => h op (List.mem_cons_of_mem _ hop)),
      isToolResponseReady_step (h op List.mem_cons_self), List.mem_cons, or_assoc]
    exact or_congr_right (or_congr_left eq_comm)

/-- **One call.**  While the pause of `r` lasts, it stays the one that was begun. -/
theorem getActivePause_step {r : RequestId} {op : HookOp} (h : ¬ op.EndsPause r)
    {hook : EdmmSchedulerHook} {state : ToolCallState}
    (hpaused : hook.getActivePause r = some state) :
    ∃ handles, (op.step hook).getActivePause r =
      some { state with speculativeHandles := state.speculativeHandles ++ handles } := by
  have hsame : ∃ handles, hook.getActivePause r =
      some { state with speculativeHandles := state.speculativeHandles ++ handles } :=
    ⟨[], by rw [hpaused, List.append_nil]⟩
  cases op with
  | onToolCallPause requestId reading =>
    have hne : r ≠ requestId := fun heq => h heq.symm
    simp only [HookOp.step, EdmmSchedulerHook.getActivePause_onToolCallPause, if_neg hne]
    exact hsame
  | submitToolResponse requestId => exact hsame
  | isToolResponseReady requestId => exact hsame
  | onToolCallResume requestId =>
    have hne : r ≠ requestId := fun heq => h heq.symm
    simp only [HookOp.step, EdmmSchedulerHook.onToolCallResume, EdmmSchedulerHook.popRequest,
      EdmmSchedulerHook.getActivePause, Dict.get?_erase_of_ne _ hne]
    exact hsame
  | recordSpeculativeHandle requestId handle =>
    simp only [HookOp.step, EdmmSchedulerHook.recordSpeculativeHandle]
    by_cases hr : r = requestId
    · subst hr
      rw [hpaused]
      exact ⟨[handle], by simp only [EdmmSchedulerHook.getActivePause, Dict.get?_set_self]⟩
    · cases hook.getActivePause requestId with
      | none => exact hsame
      | some other =>
        simp only [EdmmSchedulerHook.getActivePause, Dict.get?_set_of_ne _ _ hr]
        exact hsame
  | cleanupRequest requestId =>
    have hne : r ≠ requestId := fun heq => h heq.symm
    simp only [HookOp.step, EdmmSchedulerHook.getActivePause,
      EdmmSchedulerHook.activePauses_cleanupRequest, Dict.get?_erase_of_ne _ hne]
    exact hsame
  | cleanupAll => exact absurd trivial h

theorem getActivePause_run {r : RequestId} {ops : List HookOp}
    (h : ∀ op ∈ ops, ¬ op.EndsPause r) {hook : EdmmSchedulerHook} {state : ToolCallState}
    (hpaused : hook.getActivePause r = some state) :
    ∃ handles, (runHook hook ops).getActivePause r =
      some { state with speculativeHandles := state.speculativeHandles ++ handles } := by
  unfold runHook
  induction ops generalizing hook state with
  | nil => exact ⟨[], by rw [List.append_nil]; exact hpaused⟩
  | cons op rest ih =>
    obtain ⟨handles, hnext⟩ := getActivePause_step (h op List.mem_cons_self) hpaused
    obtain ⟨more, hrest⟩ := ih (fun op hop => h op (List.mem_cons_of_mem _ hop)) hnext
    exact ⟨handles ++ more, by rw [List.foldl_cons, hrest, List.append_assoc]⟩

/-- **Which pauses are answered by their own response only.**  Take any run of the
    hook in which a pause of `r` begins and is neither ended nor begun anew since:
    that pause is the active one.  "`r` is ready exactly if a response to `r` was
    submitted after the pause began" holds of it exactly if no response to `r` was
    pending when the pause began, or one was submitted since. -/
theorem toolResponseReady_iff (allocatorImportable : Bool) (before after : List HookOp)
    (r : RequestId) (reading : EdmmSchedulerHook.PauseReading)
    (hactive : ∀ op ∈ after, ¬ op.EndsPause r) :
    (∃ state, (runHook (.init allocatorImportable)
        (before ++ .onToolCallPause r reading :: after)).getActivePause r = some state ∧
      state.pausedAtNs = reading.perfCounterNs) ∧
    (((runHook (.init allocatorImportable)
        (before ++ .onToolCallPause r reading :: after)).isToolResponseReady r = true ↔
      .submitToolResponse r ∈ after) ↔
    ((runHook (.init allocatorImportable) before).isToolResponseReady r = false ∨
      .submitToolResponse r ∈ after)) := by
  have hrun : runHook (.init allocatorImportable) (before ++ .onToolCallPause r reading :: after) =
      runHook ((runHook (.init allocatorImportable) before).onToolCallPause r reading).2 after := by
    simp only [runHook, List.foldl_append, List.foldl_cons, HookOp.step]
  generalize runHook (.init allocatorImportable) before = hook at hrun ⊢
  rw [hrun]
  constructor
  · have hbegun := hook.getActivePause_onToolCallPause r r reading
    rw [if_pos rfl] at hbegun
    obtain ⟨handles, hstate⟩ := getActivePause_run hactive hbegun
    exact ⟨_, hstate, rfl⟩
  · rw [isToolResponseReady_run hactive]
    simp only [EdmmSchedulerHook.isToolResponseReady,
      EdmmSchedulerHook.toolResponses_onToolCallPause]
    -- a pending response counts as this pause's own
    cases (hook.toolResponses.get? r).isSome with
    | false => simp
    | true => simp

/-- The pause of a fresh hook is answered by the response submitted after it. -/
theorem toolResponseReady_first_pause :
    (runHook (.init true) [.onToolCallPause "r" ⟨0, none, 0⟩, .isToolResponseReady "r",
      .submitToolResponse "r"]).isToolResponseReady "r" = true := by
  have h := toolResponseReady_iff true [] [.isToolResponseReady "r", .submitToolResponse "r"] "r"
    ⟨0, none, 0⟩ (by
      intro op hop
      simp only [List.mem_cons, List.not_mem_nil, or_false] at hop
      rcases hop with rfl | rfl <;> exact id)
  exact (h.2.mpr (Or.inl rfl)).mpr (by simp)

/-- A second delivery of the first response answers the second pause at once. -/
theorem toolResponse_duplicate_answers_next_pause :
    ¬ ∀ (before after : List HookOp) (r : RequestId) (reading : EdmmSchedulerHook.PauseReading),
      (∀ op ∈ after, ¬ op.EndsPause r) →
      ((runHook (.init true) (before ++ .onToolCallPause r reading :: after)).isToolResponseReady r
        = true ↔ .submitToolResponse r ∈ after) := by
  intro hclaim
  have hready := hclaim
    [.onToolCallPause "r" ⟨0, none, 0⟩, .submitToolResponse "r", .onToolCallResume "r",
      .submitToolResponse "r"] [] "r" ⟨1, none, 1⟩ (by intro op hop; cases hop)
  exact List.not_mem_nil (hready.mp (by decide +kernel))

end Edmm
