/-
  Edmm/HookHandles.lean
  =====================
  **What becomes of a speculative handle when calls of the hook interleave.**

  Any number of threads call into the hook.  A `HookSection` is what one of them
  does between two acquisitions of `_lock`: the locked section of a call and the
  code that follows it, so that `cleanup_request` pops the pause and releases its
  handles in one step.  Appending to a state object takes no lock and is a step of
  its own, at any time after `get_active_pause` handed the object out; `cleanup_all`
  locks once for its list of requests and once for each of them.

  `on_tool_call_resume` returns the state object too, so a handle that is appended to
  it later is in the caller's hands like those appended before.

  A handle is recorded in an active pause, in a state that `on_tool_call_resume`
  returned, or given to `release_physical_handle`.  `handlesKept_iff` says exactly which
  runs lose none: a pause must not begin over recorded handles, an appended handle must
  find its state active or returned, and a cleanup needs the allocator.
-/
import Edmm.HookReferences
import Mathlib.Data.List.Count

namespace Edmm

/-! ## 1. Threads -/

structure HookThreads where
  memory : HookMemory
  /-- The state objects that `get_active_pause` handed out. -/
  handedOut : List PauseRef
  /-- What each running `cleanup_all` has still to clean up. -/
  sweeps : List (List RequestId)
  /-- Every handle that was appended to a state object. -/
  appended : List Handle
  /-- The state objects that `on_tool_call_resume` returned. -/
  resumed : List PauseRef
  /-- The handles in them, whenever they were appended. -/
  returned : List Handle

inductive HookSection where
  | onToolCallPause (requestId : RequestId) (reading : EdmmSchedulerHook.PauseReading)
  | getActivePause (requestId : RequestId)
  | append (state : PauseRef) (handle : Handle)
  | onToolCallResume (requestId : RequestId)
  | cleanupRequest (requestId : RequestId)
  /-- `cleanup_all` lists the paused requests. -/
  | cleanupAll
  /-- A running `cleanup_all` goes on to its next request. -/
  | cleanupNext (sweep : Nat)

namespace HookThreads

def init (allocatorImportable : Bool) : HookThreads :=
  { memory := .init allocatorImportable
    handedOut := []
    sweeps := []
    appended := []
    resumed := []
    returned := [] }

/-- The handles recorded in the active pause of a request. -/
def handlesOf (s : HookThreads) (requestId : RequestId) : List Handle :=
  match s.memory.hook.getActivePause requestId with
  | none => []
  | some state => state.speculativeHandles

/-- `none` if no thread can take the step. -/
def step (s : HookThreads) : HookSection → Option HookThreads
  | .onToolCallPause requestId reading =>
      some { s with memory := s.memory.onToolCallPause requestId reading }
  | .getActivePause requestId =>
      some { s with handedOut := (s.memory.activeRef? requestId).toList ++ s.handedOut }
  | .append state handle =>
      if state ∈ s.handedOut then
        some { s with
          memory := s.memory.append state handle
          appended := s.appended ++ [handle]
          returned := if state ∈ s.resumed then s.returned ++ [handle] else s.returned }
      else none
  | .onToolCallResume requestId =>
      some { s with
        memory := (s.memory.step (.onToolCallResume requestId)).1
        resumed := (s.memory.activeRef? requestId).toList ++ s.resumed
        returned := s.returned ++ s.handlesOf requestId }
  | .cleanupRequest requestId => some { s with memory := s.memory.cleanupRequest requestId }
  | .cleanupAll => some { s with sweeps := s.sweeps ++ [s.memory.hook.activePauses.keys] }
  | .cleanupNext sweep =>
      match s.sweeps[sweep]? with
      | some (requestId :: rest) =>
          some { s with
            memory := s.memory.cleanupRequest requestId
            sweeps := s.sweeps.set sweep rest }
      | _ => none

end HookThreads

def HookSection.exec (taken : HookSection) : EStateM PUnit HookThreads PUnit := fun s =>
  match s.step taken with
  | some s' => .ok ⟨⟩ s'
  | none => .error ⟨⟩ s

theorem HookSection.exec_ok {taken : HookSection} {s s' : HookThreads} {u : PUnit}
    (h : taken.exec s = .ok u s') : s.step taken = some s' := by
  unfold exec at h
  cases hstep : s.step taken with
  | none => simp [hstep] at h
  | some s'' => simpa [hstep] using h

/-! ## 2. The three places of a handle -/

/-- The handles recorded in the pauses of a dictionary. -/
def Dict.recorded (pauses : Dict RequestId ToolCallState) : List Handle :=
  pauses.values.flatMap ToolCallState.speculativeHandles

namespace HookThreads

def recorded (s : HookThreads) : List Handle := s.memory.hook.activePauses.recorded

/-- Every appended handle is recorded, returned or released, as often as it was
    appended: a handle appended once is in exactly one place, and there once. -/
def HandlesKept (s : HookThreads) : Prop :=
  ∀ h : Handle, s.appended.count h =
    s.recorded.count h + s.returned.count h + s.memory.hook.releaseAttempts.count h

/-- The step loses no handle. -/
def Keeps (s : HookThreads) : HookSection → Prop
  | .onToolCallPause requestId _ => s.handlesOf requestId = []
  | .append state _ => s.memory.activeRef? state.requestId = some state ∨ state ∈ s.resumed
  | .cleanupRequest requestId =>
      s.memory.hook.allocatorImportable = true ∨ s.handlesOf requestId = []
  | .cleanupNext sweep => ∀ requestId ∈ (s.sweeps.getD sweep []).head?,
      s.memory.hook.allocatorImportable = true ∨ s.handlesOf requestId = []
  | _ => True

instance (s : HookThreads) (taken : HookSection) : Decidable (s.Keeps taken) := by
  cases taken <;> unfold Keeps <;> infer_instance

end HookThreads

/-- The handles of one pause next to those of the others. -/
theorem count_recorded {pauses : Dict RequestId ToolCallState} {r : RequestId}
    {state : ToolCallState} (hget : pauses.get? r = some state) (h : Handle) :
    pauses.recorded.count h =
      state.speculativeHandles.count h + (pauses.erase r).recorded.count h := by
  have hperm := (Dict.values_perm_cons_erase hget).flatMap_right ToolCallState.speculativeHandles
  rw [Dict.recorded, hperm.count_eq, List.flatMap_cons, List.count_append]
  rfl

theorem count_recorded_set (pauses : Dict RequestId ToolCallState) (r : RequestId)
    (state : ToolCallState) (h : Handle) :
    (pauses.set r state).recorded.count h =
      state.speculativeHandles.count h + (pauses.erase r).recorded.count h := by
  have hperm := (Dict.values_set_perm_cons_erase pauses r state).flatMap_right
    ToolCallState.speculativeHandles
  rw [Dict.recorded, hperm.count_eq, List.flatMap_cons, List.count_append]
  rfl

theorem count_recorded_erase_of_absent {pauses : Dict RequestId ToolCallState} {r : RequestId}
    (hget : pauses.get? r = none) (h : Handle) :
    (pauses.erase r).recorded.count h = pauses.recorded.count h := by
  have hperm : (pauses.erase r).items.Perm pauses.items := by
    apply Dict.items_perm_of_get?_eq
    intro key
    by_cases hkey : key = r
    · simp [hkey, hget]
    · exact Dict.get?_erase_of_ne _ hkey
  exact ((hperm.map Prod.snd).flatMap_right ToolCallState.speculativeHandles).count_eq h

namespace HookThreads

/-- What is recorded is recorded for `r` or for another request. -/
theorem count_recorded_split (s : HookThreads) (r : RequestId) (h : Handle) :
    s.recorded.count h =
      (s.handlesOf r).count h + (s.memory.hook.activePauses.erase r).recorded.count h := by
  unfold recorded handlesOf EdmmSchedulerHook.getActivePause
  cases hget : s.memory.hook.activePauses.get? r with
  | none => simp [count_recorded_erase_of_absent hget]
  | some state => exact count_recorded hget h

theorem eq_nil_iff_count {l : List Handle} : l = [] ↔ ∀ h, l.count h = 0 := by
  simp only [List.eq_nil_iff_forall_not_mem, List.count_eq_zero]

/-! ## 3. State objects that were returned -/

/-- No state object that was returned is active again, nor will be: later pauses of its
    request have higher numbers. -/
def Settled (s : HookThreads) : Prop :=
  ∀ state ∈ s.resumed, state.number ≤ s.memory.begun state.requestId ∧
    s.memory.activeRef? state.requestId ≠ some state

theorem settled_init (allocatorImportable : Bool) : (init allocatorImportable).Settled := by
  simp [Settled, init]

/-- The hook only forgets pauses: what is active was active before. -/
theorem Settled.forgets {s s' : HookThreads} (h : s.Settled) (hresumed : s'.resumed = s.resumed)
    (hbegun : s'.memory.begun = s.memory.begun)
    (hactive : ∀ r, (s'.memory.hook.getActivePause r).isSome →
      (s.memory.hook.getActivePause r).isSome) : s'.Settled := by
  intro state hstate
  rw [hresumed] at hstate
  obtain ⟨hnumber, hinactive⟩ := h state hstate
  refine ⟨by rwa [hbegun], fun hagain => hinactive ?_⟩
  rw [HookMemory.activeRef?_eq_some, hbegun] at hagain
  exact HookMemory.activeRef?_eq_some.mpr ⟨hactive _ hagain.1, hagain.2⟩

theorem Settled.onToolCallPause {s : HookThreads} (h : s.Settled) (r : RequestId)
    (reading : EdmmSchedulerHook.PauseReading) :
    Settled { s with memory := s.memory.onToolCallPause r reading } := by
  intro state hstate
  obtain ⟨hnumber, hinactive⟩ := h state hstate
  by_cases hr : state.requestId = r
  · subst hr
    simp only [HookMemory.onToolCallPause, Function.update_self]
    refine ⟨by omega, fun hagain => ?_⟩
    -- the new pause has the next number
    have hstate' := (HookMemory.activeRef?_eq_some.mp hagain).2
    simp only [Function.update_self] at hstate'
    have hnumber' := congrArg PauseRef.number hstate'
    simp only at hnumber'
    omega
  · simp only [HookMemory.onToolCallPause, Function.update_of_ne hr]
    refine ⟨hnumber, fun hagain => hinactive ?_⟩
    rw [HookMemory.activeRef?_eq_some] at hagain ⊢
    simpa only [Function.update_of_ne hr, EdmmSchedulerHook.getActivePause_onToolCallPause,
      if_neg hr] using hagain

theorem Settled.onToolCallResume {s : HookThreads} (h : s.Settled) (r : RequestId) :
    Settled { s with
      memory := (s.memory.step (.onToolCallResume r)).1
      resumed := (s.memory.activeRef? r).toList ++ s.resumed
      returned := s.returned ++ s.handlesOf r } := by
  have hpopped : ∀ other, (s.memory.step (.onToolCallResume r)).1.hook.getActivePause other =
      if other = r then none else s.memory.hook.getActivePause other := by
    intro other
    simp [HookMemory.step, EdmmSchedulerHook.onToolCallResume, EdmmSchedulerHook.popRequest,
      EdmmSchedulerHook.getActivePause, Dict.get?_erase]
  intro state hstate
  rcases List.mem_append.mp hstate with hnew | hold
  · -- the object just returned is no longer in the dictionary
    obtain ⟨-, rfl⟩ := HookMemory.activeRef?_eq_some.mp (by simpa using hnew)
    refine ⟨le_refl _, fun hagain => ?_⟩
    have hsome := (HookMemory.activeRef?_eq_some.mp hagain).1
    rw [hpopped] at hsome
    simp at hsome
  · obtain ⟨hnumber, hinactive⟩ := h state hold
    refine ⟨hnumber, fun hagain => hinactive ?_⟩
    rw [HookMemory.activeRef?_eq_some] at hagain ⊢
    rw [hpopped] at hagain
    by_cases hr : state.requestId = r
    · simp [hr] at hagain
    · rw [if_neg hr] at hagain
      exact hagain

theorem Settled.cleanupRequest {s : HookThreads} (h : s.Settled) (r : RequestId)
    (sweeps : List (List RequestId)) :
    Settled { s with memory := s.memory.cleanupRequest r, sweeps } := by
  refine h.forgets rfl rfl fun other hsome => ?_
  simp only [HookMemory.cleanupRequest, EdmmSchedulerHook.getActivePause,
    EdmmSchedulerHook.activePauses_cleanupRequest, Dict.get?_erase] at hsome
  by_cases hother : other = r
  · simp [hother] at hsome
  · rw [if_neg hother] at hsome
    exact hsome

theorem Settled.step {s s' : HookThreads} {taken : HookSection}
    (hstep : s.step taken = some s') (h : s.Settled) : s'.Settled := by
  cases taken with
  | onToolCallPause requestId reading =>
    cases hstep
    exact h.onToolCallPause requestId reading
  | getActivePause requestId =>
    cases hstep
    exact h
  | append state handle =>
    simp only [HookThreads.step] at hstep
    split at hstep
    · cases hstep
      refine h.forgets rfl (s.memory.begun_append state handle) fun r hsome => ?_
      rwa [s.memory.isSome_getActivePause_append] at hsome
    · cases hstep
  | onToolCallResume requestId =>
    cases hstep
    exact h.onToolCallResume requestId
  | cleanupRequest requestId =>
    cases hstep
    exact h.cleanupRequest requestId s.sweeps
  | cleanupAll =>
    cases hstep
    exact h
  | cleanupNext sweep =>
    simp only [HookThreads.step] at hstep
    split at hstep
    · cases hstep
      exact h.cleanupRequest _ _
    · cases hstep

theorem settled_run {allocatorImportable : Bool}
    {history : List (Machine.Performed HookThreads HookSection PUnit)} {s : HookThreads}
    (run : Machine.Run HookSection.exec (init allocatorImportable) history s) : s.Settled :=
  run.invariant (P := fun _ => True) (I := Settled)
    (fun _ _ _ _ hbefore hstep _ => Settled.step (HookSection.exec_ok hstep) hbefore)
    (fun _ _ => trivial) (settled_init allocatorImportable)

/-! ## 4. One step -/

theorem kept_onToolCallPause_iff {s : HookThreads} (hs : s.HandlesKept) (r : RequestId)
    (reading : EdmmSchedulerHook.PauseReading) :
    HandlesKept { s with memory := s.memory.onToolCallPause r reading } ↔ s.handlesOf r = [] := by
  obtain ⟨load, time, hsampled⟩ :=
    s.memory.hook.sampleCpuLoad_state reading.monotonic reading.procStat
  rw [eq_nil_iff_count]
  apply forall_congr'
  intro h
  have hkept := hs h
  rw [s.count_recorded_split r h] at hkept
  simp only [recorded, HookMemory.onToolCallPause, EdmmSchedulerHook.onToolCallPause, hsampled,
    count_recorded_set, List.count_nil]
  omega

theorem kept_append_iff {s : HookThreads} (hs : s.HandlesKept) (hsettled : s.Settled)
    (state : PauseRef) (handle : Handle) :
    HandlesKept { s with
        memory := s.memory.append state handle
        appended := s.appended ++ [handle]
        returned := if state ∈ s.resumed then s.returned ++ [handle] else s.returned } ↔
      s.memory.activeRef? state.requestId = some state ∨ state ∈ s.resumed := by
  by_cases hactive : s.memory.activeRef? state.requestId = some state
  · have hheld : state ∉ s.resumed := fun hresumed => (hsettled state hresumed).2 hactive
    refine iff_of_true (fun h => ?_) (Or.inl hactive)
    have hkept := hs h
    rw [s.count_recorded_split state.requestId h] at hkept
    obtain ⟨current, hget⟩ :=
      Option.isSome_iff_exists.mp (HookMemory.activeRef?_eq_some.mp hactive).1
    simp only [handlesOf, hget] at hkept
    simp only [HookMemory.append, if_pos hactive, EdmmSchedulerHook.recordSpeculativeHandle, hget,
      recorded, count_recorded_set, List.count_append, if_neg hheld]
    omega
  · -- the hook is left alone, so the handle is where its object is
    rw [or_iff_right hactive]
    by_cases hresumed : state ∈ s.resumed
    · refine iff_of_true (fun h => ?_) hresumed
      have hkept := hs h
      simp only [HookMemory.append, if_neg hactive, recorded, List.count_append,
        if_pos hresumed] at hkept ⊢
      omega
    · refine iff_of_false (fun hkept => ?_) hresumed
      have hbefore := hs handle
      have hafter := hkept handle
      simp only [HookMemory.append, if_neg hactive, recorded, List.count_append,
        List.count_singleton_self, if_neg hresumed] at hbefore hafter
      omega

theorem kept_onToolCallResume {s : HookThreads} (hs : s.HandlesKept) (r : RequestId) :
    HandlesKept { s with
      memory := (s.memory.step (.onToolCallResume r)).1
      resumed := (s.memory.activeRef? r).toList ++ s.resumed
      returned := s.returned ++ s.handlesOf r } := by
  intro h
  have hkept := hs h
  rw [s.count_recorded_split r h] at hkept
  simp only [recorded, HookMemory.step, EdmmSchedulerHook.onToolCallResume,
    EdmmSchedulerHook.popRequest, List.count_append]
  omega

theorem cleanupReleases_eq (s : HookThreads) (r : RequestId) :
    s.memory.cleanupReleases r =
      if s.memory.hook.allocatorImportable then s.handlesOf r else [] := by
  unfold HookMemory.cleanupReleases handlesOf
  cases s.memory.hook.getActivePause r with
  | none => simp
  | some state => rfl

theorem kept_cleanupRequest_iff {s : HookThreads} (hs : s.HandlesKept) (r : RequestId)
    (sweeps : List (List RequestId)) :
    HandlesKept { s with memory := s.memory.cleanupRequest r, sweeps } ↔
      (s.memory.hook.allocatorImportable = true ∨ s.handlesOf r = []) := by
  have hcount : ∀ h : Handle,
      (s.appended.count h =
        (s.memory.cleanupRequest r).hook.activePauses.recorded.count h + s.returned.count h +
          (s.memory.cleanupRequest r).hook.releaseAttempts.count h) ↔
      (s.memory.cleanupReleases r).count h = (s.handlesOf r).count h := by
    intro h
    have hkept := hs h
    rw [s.count_recorded_split r h] at hkept
    simp only [HookMemory.cleanupRequest, s.memory.releaseAttempts_cleanupRequest,
      EdmmSchedulerHook.activePauses_cleanupRequest, List.count_append]
    omega
  rw [show HandlesKept { s with memory := s.memory.cleanupRequest r, sweeps } ↔
    ∀ h, (s.memory.cleanupReleases r).count h = (s.handlesOf r).count h from forall_congr' hcount,
    cleanupReleases_eq]
  by_cases himportable : s.memory.hook.allocatorImportable = true
  · simp [himportable]
  · rw [if_neg himportable, or_iff_right himportable, eq_nil_iff_count]
    simp only [List.count_nil, eq_comm]

/-- **One step.**  Handles that were kept before the step are kept after it exactly
    if the step loses none. -/
theorem kept_step_iff {s s' : HookThreads} {taken : HookSection} (hstep : s.step taken = some s')
    (hs : s.HandlesKept) (hsettled : s.Settled) : s'.HandlesKept ↔ s.Keeps taken := by
  cases taken with
  | onToolCallPause requestId reading =>
    cases hstep
    exact kept_onToolCallPause_iff hs requestId reading
  | getActivePause requestId =>
    cases hstep
    exact iff_of_true hs trivial
  | append state handle =>
    simp only [step] at hstep
    split at hstep
    · cases hstep
      exact kept_append_iff hs hsettled state handle
    · cases hstep
  | onToolCallResume requestId =>
    cases hstep
    exact iff_of_true (kept_onToolCallResume hs requestId) trivial
  | cleanupRequest requestId =>
    cases hstep
    exact kept_cleanupRequest_iff hs requestId s.sweeps
  | cleanupAll =>
    cases hstep
    exact iff_of_true hs trivial
  | cleanupNext sweep =>
    simp only [step] at hstep
    split at hstep
    · rename_i requestId rest hnext
      cases hstep
      rw [kept_cleanupRequest_iff hs requestId]
      simp [Keeps, List.getD_eq_getElem?_getD, hnext]
    · cases hstep

/-! ## 5. Whole runs -/

theorem handlesKept_init (allocatorImportable : Bool) :
    (init allocatorImportable).HandlesKept := fun _ => rfl

/-- The last state reached is one of the states reached. -/
theorem handlesKept_last {allocatorImportable : Bool}
    {history : List (Machine.Performed HookThreads HookSection PUnit)} {s : HookThreads}
    (run : Machine.Run HookSection.exec (init allocatorImportable) history s)
    (h : ∀ step ∈ history, step.after.HandlesKept) : s.HandlesKept := by
  cases run with
  | nil => exact handlesKept_init allocatorImportable
  | snoc run step => exact h _ (List.mem_append_right _ (List.mem_singleton.mpr rfl))

/-- **Which interleavings lose no handle.**  In every interleaving of pauses,
    appended handles, resumes and cleanups, each handle is in exactly one of its
    three places in every state reached, if and only if no pause begins over
    recorded handles, each handle is appended to a state that is active or was
    returned by a resume, and no recorded handles are cleaned up without the allocator. -/
theorem handlesKept_iff {allocatorImportable : Bool}
    {history : List (Machine.Performed HookThreads HookSection PUnit)} {s : HookThreads}
    (run : Machine.Run HookSection.exec (init allocatorImportable) history s) :
    (∀ step ∈ history, step.after.HandlesKept) ↔
      ∀ step ∈ history, step.before.Keeps step.op := by
  induction run with
  | nil => simp
  | snoc run step ih =>
    rename_i history s s' taken u
    simp only [List.mem_append, List.mem_singleton, or_imp, forall_and, forall_eq]
    have hsettled := settled_run run
    constructor
    · rintro ⟨hearlier, hlast⟩
      have hs := handlesKept_last run hearlier
      exact ⟨ih.mp hearlier, (kept_step_iff (HookSection.exec_ok step) hs hsettled).mp hlast⟩
    · rintro ⟨hearlier, hlast⟩
      have hkept := ih.mpr hearlier
      have hs := handlesKept_last run hkept
      exact ⟨hkept, (kept_step_iff (HookSection.exec_ok step) hs hsettled).mpr hlast⟩

/-- The state after some steps, each of which a thread can take. -/
def interleave (s : HookThreads) (sections : List HookSection) :
    Option (List (Machine.Performed HookThreads HookSection PUnit) × HookThreads) :=
  Machine.perform HookSection.exec [] s (sections.map fun taken _ => taken)

/-- Two requests are paused; one is resumed and gets another handle after that, the other
    is cleaned up with all the rest. -/
theorem handlesKept_two_requests :
    ∃ p ∈ interleave (init true) [.onToolCallPause "a" ⟨0, none, 0⟩, .getActivePause "a",
        .onToolCallPause "b" ⟨0, none, 1⟩, .append ⟨"a", 1⟩ 7, .getActivePause "b", .cleanupAll,
        .append ⟨"b", 1⟩ 8, .onToolCallResume "a", .append ⟨"a", 1⟩ 9, .cleanupNext 0,
        .cleanupNext 0],
      ∀ step ∈ p.1, step.after.HandlesKept := by
  have hplayed : ∃ p ∈ interleave (init true) [.onToolCallPause "a" ⟨0, none, 0⟩,
        .getActivePause "a", .onToolCallPause "b" ⟨0, none, 1⟩, .append ⟨"a", 1⟩ 7,
        .getActivePause "b", .cleanupAll, .append ⟨"b", 1⟩ 8, .onToolCallResume "a",
        .append ⟨"a", 1⟩ 9, .cleanupNext 0, .cleanupNext 0],
      ∀ step ∈ p.1, step.before.Keeps step.op := by
    decide +kernel
  obtain ⟨p, hp, hkeeps⟩ := hplayed
  exact ⟨p, hp, (handlesKept_iff (Machine.run_of_perform .nil (Option.mem_def.mp hp))).mpr hkeeps⟩

/-- A second pause over a recorded handle, and a handle appended after the cleanup,
    each leave a handle in no place. -/
theorem handle_forgotten :
    (∃ p ∈ interleave (init true) [.onToolCallPause "r" ⟨0, none, 0⟩, .getActivePause "r",
        .append ⟨"r", 1⟩ 7, .onToolCallPause "r" ⟨1, none, 1⟩],
      p.2.appended = [7] ∧ p.2.recorded = [] ∧ p.2.returned = [] ∧
        p.2.memory.hook.releaseAttempts = [] ∧ ¬ p.2.HandlesKept) ∧
    (∃ p ∈ interleave (init true) [.onToolCallPause "r" ⟨0, none, 0⟩, .getActivePause "r",
        .cleanupRequest "r", .append ⟨"r", 1⟩ 7],
      p.2.appended = [7] ∧ p.2.recorded = [] ∧ p.2.returned = [] ∧
        p.2.memory.hook.releaseAttempts = [] ∧ ¬ p.2.HandlesKept) := by
  have hlost : ∀ s : HookThreads, s.appended = [7] ∧ s.recorded = [] ∧ s.returned = [] ∧
      s.memory.hook.releaseAttempts = [] → ¬ s.HandlesKept := by
    rintro s ⟨happended, hrecorded, hreturned, hreleased⟩ hkept
    have hcount := hkept 7
    rw [happended, hrecorded, hreturned, hreleased] at hcount
    exact absurd hcount (by decide)
  constructor
  · have hplayed : ∃ p ∈ interleave (init true) [.onToolCallPause "r" ⟨0, none, 0⟩,
        .getActivePause "r", .append ⟨"r", 1⟩ 7, .onToolCallPause "r" ⟨1, none, 1⟩],
        p.2.appended = [7] ∧ p.2.recorded = [] ∧ p.2.returned = [] ∧
          p.2.memory.hook.releaseAttempts = [] := by
      decide +kernel
    obtain ⟨p, hp, h⟩ := hplayed
    exact ⟨p, hp, h.1, h.2.1, h.2.2.1, h.2.2.2, hlost p.2 h⟩
  · have hplayed : ∃ p ∈ interleave (init true) [.onToolCallPause "r" ⟨0, none, 0⟩,
        .getActivePause "r", .cleanupRequest "r", .append ⟨"r", 1⟩ 7],
        p.2.appended = [7] ∧ p.2.recorded = [] ∧ p.2.returned = [] ∧
          p.2.memory.hook.releaseAttempts = [] := by
      decide +kernel
    obtain ⟨p, hp, h⟩ := hplayed
    exact ⟨p, hp, h.1, h.2.1, h.2.2.1, h.2.2.2, hlost p.2 h⟩

end HookThreads

end Edmm
