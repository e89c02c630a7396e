/-
  Edmm/CleanupRaces.lean
  ======================
  **Cleanups and resumes of the hook that interleave, with failing releases.**

  Any number of threads are in `cleanup_request`, `cleanup_all` or
  `on_tool_call_resume`.  Each section under `_lock` is one step, and so is each
  `release_physical_handle`, which the driver may refuse for any handle at any time.

  The pause of a request is in the dictionary until one thread pops it, and that
  thread alone knows the handles from then on.  `Whereabouts` says where the pause
  is, `Whereabouts.move` that a step keeps it there or hands it over, and
  `cleanup_survives` reads off what the calls have done when they have returned.
-/
import Edmm.SchedulerHook
import Edmm.Allocator
import Edmm.Lib.Threads

namespace Edmm

open Program

/-! ## 1. The threads -/

inductive PauseCall where
  | cleanupRequest (requestId : RequestId)
  | cleanupAll
  | onToolCallResume (requestId : RequestId)

namespace PauseCall

/-- `cleanup_all` is about every paused request. -/
def Targets : PauseCall → RequestId → Prop
  | .cleanupRequest requestId, r => requestId = r
  | .cleanupAll, _ => True
  | .onToolCallResume requestId, r => requestId = r

def IsCleanup : PauseCall → Prop
  | .onToolCallResume _ => False
  | _ => True

end PauseCall

/-- What `except Exception` catches: all of these, and no `KeyboardInterrupt`. -/
def PyError.isException : PyError → Bool
  | .valueError _ | .runtimeError _ | .assertionError _ | .assertFailed _ | .keyError
  | .indexError => true

structure SharedHook where
  hook : EdmmSchedulerHook
  allocator : AllocatorState
  /-- The threads that popped a pause of the request. -/
  popped : RequestId → List (Nat × ToolCallState)
  /-- Which thread gave which handle of the request's pause to
      `release_physical_handle`, oldest first. -/
  attempts : RequestId → List (Nat × Handle)

namespace SharedHook

/-- The two `pop`s of a request, under the lock. -/
def pop (s : SharedHook) (me : Nat) (requestId : RequestId) : SharedHook :=
  { s with
    hook := s.hook.popRequest requestId
    popped := Function.update s.popped requestId
      (s.popped requestId ++ ((s.hook.getActivePause requestId).map (me, ·)).toList) }

/-- After `release_physical_handle(handle)`, which left the allocator like this. -/
def attempt (s : SharedHook) (me : Nat) (requestId : RequestId) (handle : Handle)
    (allocator : AllocatorState) : SharedHook :=
  { s with
    hook := { s.hook with releaseAttempts := s.hook.releaseAttempts ++ [handle] }
    allocator
    attempts := Function.update s.attempts requestId (s.attempts requestId ++ [(me, handle)]) }

end SharedHook

/-- What a thread in the hook does next; `rest` is what `cleanup_all` has still to
    clean up. -/
inductive HookPc where
  | resume (requestId : RequestId)
  | listPauses
  | cleanUp (requestIds : List RequestId)
  | importAllocator (requestId : RequestId) (handles : List Handle) (rest : List RequestId)
  | release (requestId : RequestId) (handles : List Handle) (rest : List RequestId)
  | done (result : Except PyError (Option ToolCallState))

structure HookThread where
  call : PauseCall
  pc : HookPc

namespace HookThread

def start (call : PauseCall) : HookThread :=
  { call
    pc := match call with
      | .cleanupRequest requestId => .cleanUp [requestId]
      | .cleanupAll => .listPauses
      | .onToolCallResume requestId => .resume requestId }

def goto (p : HookThread) (pc : HookPc) : HookThread := { p with pc }

def result (p : HookThread) : Option (Except PyError (Option ToolCallState)) :=
  match p.pc with
  | .done result => some result
  | _ => none

/-- `if state and state.speculative_handles` -/
def afterPop (requestId : RequestId) (rest : List RequestId) : Option ToolCallState → HookPc
  | none => .cleanUp rest
  | some state =>
      if state.speculativeHandles = [] then .cleanUp rest
      else .importAllocator requestId state.speculativeHandles rest

/-- One step of a call; `none` once it has ended. -/
def step (cuda : Cuda) (me : Nat) (s : SharedHook) (p : HookThread) :
    Option (SharedHook × HookThread) :=
  match p.pc with
  | .resume requestId =>
      some (s.pop me requestId, p.goto (.done (.ok (s.hook.getActivePause requestId))))
  | .listPauses => some (s, p.goto (.cleanUp s.hook.activePauses.keys))
  | .cleanUp [] => some (s, p.goto (.done (.ok none)))
  | .cleanUp (requestId :: rest) =>
      some (s.pop me requestId, p.goto (afterPop requestId rest (s.hook.getActivePause requestId)))
  | .importAllocator requestId handles rest =>
      -- the `ImportError` of a missing allocator is caught
      some (s, p.goto (if s.hook.allocatorImportable then .release requestId handles rest
        else .cleanUp rest))
  | .release _ [] rest => some (s, p.goto (.cleanUp rest))
  | .release requestId (handle :: handles) rest =>
      match releasePhysicalHandle cuda handle s.allocator with
      | .ok _ w => some (s.attempt me requestId handle w, p.goto (.release requestId handles rest))
      | .error e w =>
          some (s.attempt me requestId handle w,
            p.goto (if e.isException then .release requestId handles rest else .done (.error e)))
  | .done _ => none

end HookThread

/-- The calls before their first steps. -/
def startCalls (hook : EdmmSchedulerHook) (w : AllocatorState) (calls : List PauseCall) :
    Threads SharedHook HookThread :=
  { shared := { hook, allocator := w, popped := fun _ => [], attempts := fun _ => [] }
    locals := calls.map HookThread.start }

/-! ## 2. What one step does to the pause of one request -/

namespace HookPc

/-- The thread is still going to pop the pause of `r`. -/
def Ahead (r : RequestId) : HookPc → Prop
  | .resume requestId => requestId = r
  | .listPauses => True
  | .cleanUp rest | .importAllocator _ _ rest | .release _ _ rest => r ∈ rest
  | .done _ => False

/-- The handles of the pause of `r` that the thread has still to release. -/
def pending (r : RequestId) : HookPc → List Handle
  | .importAllocator requestId handles _ | .release requestId handles _ =>
      if requestId = r then handles else []
  | _ => []

/-- Where a thread can be in its call. -/
def Within (call : PauseCall) : HookPc → Prop
  | .resume requestId => call = .onToolCallResume requestId
  | .listPauses => call = .cleanupAll
  | .cleanUp rest => call.IsCleanup ∧ ∀ r ∈ rest, call.Targets r
  | .importAllocator requestId _ rest | .release requestId _ rest =>
      call.IsCleanup ∧ ∀ r ∈ requestId :: rest, call.Targets r
  | .done result => ∃ state, result = .ok state ∧ (call.IsCleanup → state = none)

end HookPc

namespace HookThread

/-- The thread has nothing of the pause of `r`. -/
structure Idle (r : RequestId) (p : HookThread) : Prop where
  pending : p.pc.pending r = []
  result : p.call = .onToolCallResume r → ∀ state, p.pc ≠ .done (.ok (some state))

theorem within_start (call : PauseCall) : (start call).pc.Within call := by
  cases call with
  | cleanupRequest requestId =>
    refine ⟨trivial, ?_⟩
    intro r hr
    exact (List.mem_singleton.mp hr).symm
  | cleanupAll => rfl
  | onToolCallResume requestId => rfl

theorem idle_start (r : RequestId) (call : PauseCall) : (start call).Idle r := by
  cases call with
  | cleanupRequest requestId => exact ⟨rfl, fun hcall => by cases hcall⟩
  | cleanupAll => exact ⟨rfl, fun hcall => by cases hcall⟩
  | onToolCallResume requestId => exact ⟨rfl, fun _ _ hpc => by cases hpc⟩

theorem ahead_start {r : RequestId} {call : PauseCall} (h : call.Targets r) :
    (start call).pc.Ahead r := by
  cases call with
  | cleanupRequest requestId => exact List.mem_singleton.mpr (Eq.symm h)
  | cleanupAll => trivial
  | onToolCallResume requestId => exact h

end HookThread

/-- The steps, case by case; a release that raises goes on like one that returns. -/
inductive HookStep (me : Nat) (s : SharedHook) (p : HookThread) : SharedHook → HookThread → Prop
  | resume (requestId : RequestId) (hpc : p.pc = .resume requestId) :
      HookStep me s p (s.pop me requestId)
        (p.goto (.done (.ok (s.hook.getActivePause requestId))))
  | listPauses (hpc : p.pc = .listPauses) :
      HookStep me s p s (p.goto (.cleanUp s.hook.activePauses.keys))
  | cleanedUp (hpc : p.pc = .cleanUp []) : HookStep me s p s (p.goto (.done (.ok none)))
  | cleanUp (requestId : RequestId) (rest : List RequestId)
      (hpc : p.pc = .cleanUp (requestId :: rest)) :
      HookStep me s p (s.pop me requestId)
        (p.goto (HookThread.afterPop requestId rest (s.hook.getActivePause requestId)))
  | importAllocator (requestId : RequestId) (handles : List Handle) (rest : List RequestId)
      (hpc : p.pc = .importAllocator requestId handles rest) :
      HookStep me s p s (p.goto (if s.hook.allocatorImportable then
        .release requestId handles rest else .cleanUp rest))
  | released (requestId : RequestId) (rest : List RequestId)
      (hpc : p.pc = .release requestId [] rest) : HookStep me s p s (p.goto (.cleanUp rest))
  | release (requestId : RequestId) (handle : Handle) (handles : List Handle)
      (rest : List RequestId) (w : AllocatorState)
      (hpc : p.pc = .release requestId (handle :: handles) rest) :
      HookStep me s p (s.attempt me requestId handle w)
        (p.goto (.release requestId handles rest))

theorem PyError.isException_eq_true (e : PyError) : e.isException = true := by
  cases e <;> rfl

namespace HookThread

variable {cuda : Cuda} {me : Nat} {s s' : SharedHook} {p p' : HookThread} {r : RequestId}

theorem step_cases (h : p.step cuda me s = some (s', p')) : HookStep me s p s' p' := by
  unfold step at h
  split at h
  · rename_i requestId hpc
    cases h
    exact .resume requestId hpc
  · rename_i hpc
    cases h
    exact .listPauses hpc
  · rename_i hpc
    cases h
    exact .cleanedUp hpc
  · rename_i requestId rest hpc
    cases h
    exact .cleanUp requestId rest hpc
  · rename_i requestId handles rest hpc
    cases h
    exact .importAllocator requestId handles rest hpc
  · rename_i requestId rest hpc
    cases h
    exact .released requestId rest hpc
  · rename_i requestId handle handles rest hpc
    split at h
    · cases h
      exact .release requestId handle handles rest _ hpc
    · rename_i e w _
      rw [e.isException_eq_true, if_pos rfl] at h
      cases h
      exact .release requestId handle handles rest _ hpc
  · cases h

theorem call_step (h : HookStep me s p s' p') : p'.call = p.call := by
  cases h <;> rfl

theorem importable_step (h : HookStep me s p s' p') :
    s'.hook.allocatorImportable = s.hook.allocatorImportable := by
  cases h <;> rfl

theorem within_afterPop {call : PauseCall} {requestId : RequestId} {rest : List RequestId}
    (hcleanup : call.IsCleanup) (htargets : ∀ r ∈ requestId :: rest, call.Targets r)
    (paused : Option ToolCallState) : (afterPop requestId rest paused).Within call := by
  have hrest : (HookPc.cleanUp rest).Within call :=
    ⟨hcleanup, fun r hr => htargets r (List.mem_cons_of_mem _ hr)⟩
  unfold afterPop
  cases paused with
  | none => exact hrest
  | some state =>
    change HookPc.Within call (if _ then _ else _)
    split
    · exact hrest
    · exact ⟨hcleanup, htargets⟩

/-- A call stays in its own code, and raises nothing. -/
theorem within_step (h : HookStep me s p s' p') (hwithin : p.pc.Within p.call) :
    p'.pc.Within p.call := by
  cases h with
  | resume requestId hpc =>
    rw [hpc] at hwithin
    have hcall : p.call = .onToolCallResume requestId := hwithin
    exact ⟨_, rfl, fun hcleanup => by rw [hcall] at hcleanup; exact hcleanup.elim⟩
  | listPauses hpc =>
    rw [hpc] at hwithin
    have hcall : p.call = .cleanupAll := hwithin
    rw [hcall]
    exact ⟨trivial, fun _ _ => trivial⟩
  | cleanedUp hpc => exact ⟨none, rfl, fun _ => rfl⟩
  | cleanUp requestId rest hpc =>
    rw [hpc] at hwithin
    exact within_afterPop hwithin.1 hwithin.2 _
  | importAllocator requestId handles rest hpc =>
    rw [hpc] at hwithin
    change HookPc.Within p.call (if _ then _ else _)
    split
    · exact hwithin
    · exact ⟨hwithin.1, fun r hr => hwithin.2 r (List.mem_cons_of_mem _ hr)⟩
  | released requestId rest hpc =>
    rw [hpc] at hwithin
    exact ⟨hwithin.1, fun r hr => hwithin.2 r (List.mem_cons_of_mem _ hr)⟩
  | release requestId handle handles rest w hpc =>
    rw [hpc] at hwithin
    exact hwithin

end HookThread

/-- What one step of thread `me` does to the pause of `r`. -/
inductive PauseEffect (r : RequestId) (me : Nat) (s : SharedHook) (p : HookThread)
    (s' : SharedHook) (p' : HookThread) : Prop
  | pops (hpending : p.pc.pending r = [])
      (hpause : s'.hook.getActivePause r = none)
      (hpopped : s'.popped r = s.popped r ++ ((s.hook.getActivePause r).map (me, ·)).toList)
      (hattempts : s'.attempts r = s.attempts r)
      (hgot : (p.call = .onToolCallResume r ∧
          p'.pc = .done (.ok (s.hook.getActivePause r))) ∨
        (p.call.IsCleanup ∧ p.call.Targets r ∧ p'.pc.pending r =
          ((s.hook.getActivePause r).map ToolCallState.speculativeHandles).getD []))
  | attempts (handle : Handle) (hpending : p.pc.pending r = handle :: p'.pc.pending r)
      (hpause : s'.hook.getActivePause r = s.hook.getActivePause r)
      (hpopped : s'.popped r = s.popped r)
      (hattempts : s'.attempts r = s.attempts r ++ [(me, handle)])
  | keeps (hpause : s'.hook.getActivePause r = s.hook.getActivePause r)
      (hpopped : s'.popped r = s.popped r)
      (hattempts : s'.attempts r = s.attempts r)
      (hpending : p'.pc.pending r = p.pc.pending r)
      (hahead : (s.hook.getActivePause r).isSome = true → p.pc.Ahead r → p'.pc.Ahead r)
      (hidle : p.Idle r → p'.Idle r)

namespace SharedHook

theorem getActivePause_pop (s : SharedHook) (me : Nat) (requestId r : RequestId) :
    (s.pop me requestId).hook.getActivePause r =
      if r = requestId then none else s.hook.getActivePause r := by
  exact Dict.get?_erase _ _ _

theorem popped_pop_self (s : SharedHook) (me : Nat) (r : RequestId) :
    (s.pop me r).popped r =
      s.popped r ++ ((s.hook.getActivePause r).map (me, ·)).toList :=
  Function.update_self _ _ _

theorem popped_pop_of_ne (s : SharedHook) (me : Nat) {requestId r : RequestId}
    (hne : r ≠ requestId) : (s.pop me requestId).popped r = s.popped r :=
  Function.update_of_ne hne _ _

theorem attempts_attempt_self (s : SharedHook) (me : Nat) (r : RequestId) (handle : Handle)
    (w : AllocatorState) :
    (s.attempt me r handle w).attempts r = s.attempts r ++ [(me, handle)] :=
  Function.update_self _ _ _

theorem attempts_attempt_of_ne (s : SharedHook) (me : Nat) {requestId r : RequestId}
    (handle : Handle) (w : AllocatorState) (hne : r ≠ requestId) :
    (s.attempt me requestId handle w).attempts r = s.attempts r :=
  Function.update_of_ne hne _ _

end SharedHook

namespace HookThread

variable {cuda : Cuda} {me : Nat} {s s' : SharedHook} {p p' : HookThread} {r : RequestId}

theorem pending_afterPop_self (r : RequestId) (rest : List RequestId)
    (paused : Option ToolCallState) :
    (afterPop r rest paused).pending r =
      (paused.map ToolCallState.speculativeHandles).getD [] := by
  unfold afterPop
  cases paused with
  | none => rfl
  | some state =>
    change HookPc.pending r (if _ then _ else _) = state.speculativeHandles
    split
    · rename_i hnone
      exact hnone.symm
    · exact if_pos rfl

theorem pending_afterPop_of_ne {requestId r : RequestId} (rest : List RequestId)
    (paused : Option ToolCallState) (hne : r ≠ requestId) :
    (afterPop requestId rest paused).pending r = [] := by
  unfold afterPop
  cases paused with
  | none => rfl
  | some state =>
    change HookPc.pending r (if _ then _ else _) = []
    split
    · rfl
    · exact if_neg (Ne.symm hne)

theorem ahead_afterPop (requestId r : RequestId) (rest : List RequestId)
    (paused : Option ToolCallState) : (afterPop requestId rest paused).Ahead r ↔ r ∈ rest := by
  unfold afterPop
  cases paused with
  | none => rfl
  | some state =>
    change HookPc.Ahead r (if _ then _ else _) ↔ _
    split <;> rfl

/-- A cleanup that goes on has no result. -/
theorem idle_goto (hidle : p.Idle r) (hcleanup : p.call.IsCleanup) {pc : HookPc}
    (hpending : pc.pending r = p.pc.pending r) : (p.goto pc).Idle r where
  pending := hpending.trans hidle.pending
  result := by
    intro hcall
    change p.call = _ at hcall
    rw [hcall] at hcleanup
    exact hcleanup.elim

theorem pauseEffect_step (h : HookStep me s p s' p') (hwithin : p.pc.Within p.call)
    (himportable : s.hook.allocatorImportable = true) (r : RequestId) :
    PauseEffect r me s p s' p' := by
  cases h with
  | resume requestId hpc =>
    rw [hpc] at hwithin
    have hcall : p.call = .onToolCallResume requestId := hwithin
    by_cases hr : r = requestId
    · subst hr
      refine .pops (by rw [hpc]; rfl) ?_ (s.popped_pop_self me r) rfl (Or.inl ⟨hcall, rfl⟩)
      rw [SharedHook.getActivePause_pop, if_pos rfl]
    · refine .keeps ?_ (s.popped_pop_of_ne me hr) rfl (by rw [hpc]; rfl) ?_ ?_
      · rw [SharedHook.getActivePause_pop, if_neg hr]
      · rw [hpc]
        exact fun _ hahead => absurd (Eq.symm hahead) hr
      · intro hidle
        refine ⟨rfl, fun hother => ?_⟩
        have hsame : PauseCall.onToolCallResume requestId = .onToolCallResume r :=
          hcall.symm.trans hother
        cases hsame
        exact absurd rfl hr
  | listPauses hpc =>
    rw [hpc] at hwithin
    have hcall : p.call = .cleanupAll := hwithin
    have hcleanup : p.call.IsCleanup := by rw [hcall]; trivial
    refine .keeps rfl rfl rfl (by rw [hpc]; rfl) ?_
      (fun hidle => idle_goto hidle hcleanup (by rw [hpc]; rfl))
    intro hpaused _
    change r ∈ s.hook.activePauses.keys
    obtain ⟨state, hstate⟩ := Option.isSome_iff_exists.mp hpaused
    exact Dict.mem_keys_iff.mpr ⟨state, hstate⟩
  | cleanedUp hpc =>
    rw [hpc] at hwithin
    refine .keeps rfl rfl rfl (by rw [hpc]; rfl) ?_
      (fun hidle => idle_goto hidle hwithin.1 (by rw [hpc]; rfl))
    rw [hpc]
    exact fun _ hahead => absurd hahead List.not_mem_nil
  | cleanUp requestId rest hpc =>
    rw [hpc] at hwithin
    by_cases hr : r = requestId
    · subst hr
      refine .pops (by rw [hpc]; rfl) ?_ (s.popped_pop_self me r) rfl
        (Or.inr ⟨hwithin.1, hwithin.2 r List.mem_cons_self, pending_afterPop_self r rest _⟩)
      rw [SharedHook.getActivePause_pop, if_pos rfl]
    · have hpending := pending_afterPop_of_ne rest (s.hook.getActivePause requestId) hr
      have hsame : (afterPop requestId rest (s.hook.getActivePause requestId)).pending r =
          p.pc.pending r := by
        rw [hpending, hpc]
        rfl
      refine .keeps ?_ (s.popped_pop_of_ne me hr) rfl hsame ?_
        (fun hidle => idle_goto hidle hwithin.1 hsame)
      · rw [SharedHook.getActivePause_pop, if_neg hr]
      · rw [hpc]
        intro _ hahead
        rcases List.mem_cons.mp hahead with rfl | hrest
        · exact absurd rfl hr
        · exact (ahead_afterPop _ _ _ _).mpr hrest
  | importAllocator requestId handles rest hpc =>
    rw [hpc] at hwithin
    rw [himportable, if_pos rfl]
    refine .keeps rfl rfl rfl (by rw [hpc]; rfl) ?_
      (fun hidle => idle_goto hidle hwithin.1 (by rw [hpc]; rfl))
    rw [hpc]
    exact fun _ hahead => hahead
  | released requestId rest hpc =>
    rw [hpc] at hwithin
    have hsame : (HookPc.cleanUp rest).pending r = p.pc.pending r := by
      rw [hpc]
      exact (ite_self []).symm
    refine .keeps rfl rfl rfl hsame ?_ (fun hidle => idle_goto hidle hwithin.1 hsame)
    rw [hpc]
    exact fun _ hahead => hahead
  | release requestId handle handles rest w hpc =>
    rw [hpc] at hwithin
    by_cases hr : r = requestId
    · subst hr
      refine .attempts handle ?_ rfl rfl (s.attempts_attempt_self me r handle w)
      rw [hpc]
      simp [HookPc.pending, goto]
    · have hsame : (HookPc.release requestId handles rest).pending r = p.pc.pending r := by
        rw [hpc]
        simp [HookPc.pending, Ne.symm hr]
      refine .keeps rfl rfl (s.attempts_attempt_of_ne me handle w hr) hsame ?_
        (fun hidle => idle_goto hidle hwithin.1 hsame)
      rw [hpc]
      exact fun _ hahead => hahead

end HookThread

/-! ## 3. Where the pause of a request is -/

/-- The pause of `r`, which was `paused` when the calls began: still in the hook, or
    with the one thread that popped it. -/
inductive Whereabouts (r : RequestId) (paused : Option ToolCallState)
    (σ : Threads SharedHook HookThread) : Prop
  | active (hpause : σ.shared.hook.getActivePause r = paused)
      (hpopped : σ.shared.popped r = [])
      (hattempts : σ.shared.attempts r = [])
      (hidle : ∀ (t : Nat) (p : HookThread), σ.locals[t]? = some p → p.Idle r)
      (hahead : paused.isSome = true →
        ∀ (t : Nat) (p : HookThread), σ.locals[t]? = some p → p.call.Targets r → p.pc.Ahead r)
  | obtained (state : ToolCallState) (t : Nat) (p : HookThread) (hpaused : paused = some state)
      (hlocal : σ.locals[t]? = some p)
      (hpause : σ.shared.hook.getActivePause r = none)
      (hpopped : σ.shared.popped r = [(t, state)])
      (hfate : (p.call = .onToolCallResume r ∧ p.pc = .done (.ok (some state)) ∧
          σ.shared.attempts r = []) ∨
        (p.call.IsCleanup ∧ p.call.Targets r ∧
          σ.shared.attempts r ++ (p.pc.pending r).map (t, ·) =
            state.speculativeHandles.map (t, ·)))
      (hidle : ∀ (t' : Nat) (q : HookThread), t' ≠ t → σ.locals[t']? = some q → q.Idle r)

/-- What holds of the calls at any time. -/
structure CleanupInv (hook : EdmmSchedulerHook) (calls : List PauseCall)
    (σ : Threads SharedHook HookThread) : Prop where
  importable : σ.shared.hook.allocatorImportable = true
  calls : σ.locals.map HookThread.call = calls
  within : ∀ (t : Nat) (p : HookThread), σ.locals[t]? = some p → p.pc.Within p.call
  whereabouts : ∀ r, Whereabouts r (hook.getActivePause r) σ

section Moves

variable {cuda : Cuda} {hook : EdmmSchedulerHook} {calls : List PauseCall} {r : RequestId}
  {paused : Option ToolCallState} {σ : Threads SharedHook HookThread} {t : Nat}
  {p p' : HookThread} {s' : SharedHook}

theorem HookThread.not_done_of_step {s : SharedHook} (h : HookStep t s p s' p')
    (result : Except PyError (Option ToolCallState)) : p.pc ≠ .done result := by
  intro hdone
  cases h <;> rename_i hpc <;> rw [hdone] at hpc <;> cases hpc

/-- Who pops a request that has no pause gets nothing. -/
theorem HookThread.idle_of_nothing (hcall : p'.call = p.call)
    (hgot : (p.call = .onToolCallResume r ∧ p'.pc = .done (.ok none)) ∨
      (p.call.IsCleanup ∧ p.call.Targets r ∧ p'.pc.pending r = [])) : p'.Idle r := by
  rcases hgot with ⟨_, hpc⟩ | ⟨hcleanup, _, hpending⟩
  · refine ⟨by rw [hpc]; rfl, fun _ state hdone => ?_⟩
    rw [hpc] at hdone
    cases hdone
  · refine ⟨hpending, fun hresume => ?_⟩
    rw [← hcall, hresume] at hcleanup
    exact hcleanup.elim

/-- What held of all threads holds after a step if it holds of the one that moved. -/
theorem forall_locals_set {Q : Nat → HookThread → Prop} {ps : List HookThread}
    (hall : ∀ t' q, ps[t']? = some q → t' ≠ t → Q t' q) (hlocal : ps[t]? = some p)
    (hmoved : Q t p') : ∀ t' q, (ps.set t p')[t']? = some q → Q t' q := by
  intro t' q hq
  by_cases ht : t' = t
  · subst ht
    rw [Threads.getElem?_set_of_local hlocal] at hq
    obtain rfl := Option.some.inj hq
    exact hmoved
  · rw [Threads.getElem?_set_of_ne ht] at hq
    exact hall t' q hq ht

/-- **Step lemma.** -/
theorem Whereabouts.move (h : Whereabouts r paused σ) (hlocal : σ.locals[t]? = some p)
    (hstep : HookStep t σ.shared p s' p') (heffect : PauseEffect r t σ.shared p s' p') :
    Whereabouts r paused ⟨s', σ.locals.set t p'⟩ := by
  have hcall : p'.call = p.call := HookThread.call_step hstep
  cases h with
  | active hpause hpopped hattempts hidle hahead =>
    cases heffect with
    | pops _ hpause' hpopped' hattempts' hgot =>
      rw [hpause] at hgot hpopped'
      rw [hpopped, List.nil_append] at hpopped'
      cases paused with
      | none =>
        refine .active hpause' hpopped' (hattempts'.trans hattempts) ?_ (fun hsome => by cases hsome)
        exact forall_locals_set (fun t' q hq _ => hidle t' q hq) hlocal
          (HookThread.idle_of_nothing hcall hgot)
      | some state =>
        refine .obtained state t p' rfl (Threads.getElem?_set_of_local hlocal p') hpause' hpopped' ?_ ?_
        · change _ ∨ p'.call.IsCleanup ∧ p'.call.Targets r ∧ s'.attempts r ++ _ = _
          rw [hattempts', hattempts, hcall]
          rcases hgot with ⟨hresume, hpc⟩ | ⟨hcleanup, htargets, hpending⟩
          · exact Or.inl ⟨hresume, hpc, rfl⟩
          · refine Or.inr ⟨hcleanup, htargets, ?_⟩
            rw [hpending, List.nil_append]
            rfl
        · intro t' q ht' hq
          rw [Threads.getElem?_set_of_ne ht'] at hq
          exact hidle t' q hq
    | attempts handle hpending =>
      rw [(hidle t p hlocal).pending] at hpending
      cases hpending
    | keeps hpause' hpopped' hattempts' _ hahead' hidle' =>
      refine .active (hpause'.trans hpause) (hpopped'.trans hpopped) (hattempts'.trans hattempts) ?_ ?_
      · exact forall_locals_set (fun t' q hq _ => hidle t' q hq) hlocal
          (hidle' (hidle t p hlocal))
      · intro hsome
        refine forall_locals_set (Q := fun _ q => q.call.Targets r → q.pc.Ahead r)
          (fun t' q hq _ => hahead hsome t' q hq) hlocal ?_
        rw [hcall]
        intro htargets
        exact hahead' (by rw [hpause]; exact hsome) (hahead hsome t p hlocal htargets)
  | obtained state holder held hpaused hholder hpause hpopped hfate hidle =>
    by_cases ht : t = holder
    · subst ht
      rw [hlocal, Option.some.injEq] at hholder
      subst hholder
      have hothers : ∀ (t' : Nat) (q : HookThread), t' ≠ t → (σ.locals.set t p')[t']? = some q →
          q.Idle r := by
        intro t' q ht' hq
        rw [Threads.getElem?_set_of_ne ht'] at hq
        exact hidle t' q ht' hq
      rcases hfate with ⟨_, hdone, _⟩ | ⟨hcleanup, htargets, hreleases⟩
      · exact absurd hdone (HookThread.not_done_of_step hstep _)
      have hlocal' := Threads.getElem?_set_of_local hlocal p'
      -- what the thread attempted and what it has still to attempt is the list
      cases heffect with
      | pops hpending hpause' hpopped' hattempts' hgot =>
        rw [hpause] at hgot hpopped'
        refine .obtained state t p' hpaused hlocal' hpause' (by rw [hpopped', hpopped]; rfl)
          (Or.inr ⟨by rwa [hcall], by rwa [hcall], ?_⟩) hothers
        rcases hgot with ⟨hresume, _⟩ | ⟨_, _, hpending'⟩
        · rw [hresume] at hcleanup
          exact hcleanup.elim
        · change s'.attempts r ++ _ = _
          rw [hattempts', hpending', ← hreleases, hpending]
          rfl
      | attempts handle hpending hpause' hpopped' hattempts' =>
        refine .obtained state t p' hpaused hlocal' (hpause'.trans hpause)
          (hpopped'.trans hpopped) (Or.inr ⟨by rwa [hcall], by rwa [hcall], ?_⟩) hothers
        change s'.attempts r ++ _ = _
        rw [hattempts', ← hreleases, hpending, List.append_assoc]
        rfl
      | keeps hpause' hpopped' hattempts' hpending =>
        refine .obtained state t p' hpaused hlocal' (hpause'.trans hpause)
          (hpopped'.trans hpopped) (Or.inr ⟨by rwa [hcall], by rwa [hcall], ?_⟩) hothers
        change s'.attempts r ++ _ = _
        rw [hattempts', hpending, hreleases]
    · have hidleMover := hidle t p ht hlocal
      have hholder' : (σ.locals.set t p')[holder]? = some held := by
        rw [Threads.getElem?_set_of_ne (Ne.symm ht), hholder]
      have hothers : p'.Idle r → ∀ (t' : Nat) (q : HookThread), t' ≠ holder →
          (σ.locals.set t p')[t']? = some q → q.Idle r := by
        intro hmoved t' q ht' hq
        refine forall_locals_set (Q := fun t' q => t' ≠ holder → q.Idle r)
          (fun t' q hq _ ht' => hidle t' q ht' hq) hlocal (fun _ => hmoved) t' q hq ht'
      cases heffect with
      | pops _ hpause' hpopped' hattempts' hgot =>
        rw [hpause] at hgot hpopped'
        refine .obtained state holder held hpaused hholder' hpause' (by rw [hpopped', hpopped]; rfl)
          ?_ (hothers (HookThread.idle_of_nothing hcall hgot))
        change _ ∨ _ ∧ _ ∧ s'.attempts r ++ _ = _
        rw [hattempts']
        exact hfate
      | attempts handle hpending =>
        rw [hidleMover.pending] at hpending
        cases hpending
      | keeps hpause' hpopped' hattempts' _ _ hidle' =>
        refine .obtained state holder held hpaused hholder' (hpause'.trans hpause)
          (hpopped'.trans hpopped) ?_ (hothers (hidle' hidleMover))
        change _ ∨ _ ∧ _ ∧ s'.attempts r ++ _ = _
        rw [hattempts']
        exact hfate

end Moves

section Runs

variable {cuda : Cuda} {hook : EdmmSchedulerHook} {w : AllocatorState} {calls : List PauseCall}
  {σ σ' : Threads SharedHook HookThread}

theorem getElem?_startCalls {t : Nat} {p : HookThread}
    (hlocal : (startCalls hook w calls).locals[t]? = some p) :
    ∃ call ∈ calls, p = HookThread.start call := by
  have hmem : p ∈ calls.map HookThread.start := List.mem_of_getElem? hlocal
  obtain ⟨call, hcall, rfl⟩ := List.mem_map.mp hmem
  exact ⟨call, hcall, rfl⟩

theorem cleanupInv_start (himportable : hook.allocatorImportable = true) :
    CleanupInv hook calls (startCalls hook w calls) where
  importable := himportable
  calls := by
    change (calls.map HookThread.start).map HookThread.call = calls
    rw [List.map_map]
    exact List.map_id calls
  within := by
    intro t p hlocal
    obtain ⟨call, _, rfl⟩ := getElem?_startCalls hlocal
    exact HookThread.within_start call
  whereabouts := by
    intro r
    refine .active rfl rfl rfl ?_ ?_
    · intro t p hlocal
      obtain ⟨call, _, rfl⟩ := getElem?_startCalls hlocal
      exact HookThread.idle_start r call
    · intro _ t p hlocal htargets
      obtain ⟨call, _, rfl⟩ := getElem?_startCalls hlocal
      exact HookThread.ahead_start htargets

theorem CleanupInv.move (h : CleanupInv hook calls σ)
    (hmove : Threads.Move (HookThread.step cuda) σ σ') : CleanupInv hook calls σ' := by
  obtain ⟨hlocal, hstep⟩ := hmove
  rename_i t p p' s'
  have hcases := HookThread.step_cases hstep
  have hcall := HookThread.call_step hcases
  have hwithin := h.within t p hlocal
  exact
    { importable := (HookThread.importable_step hcases).trans h.importable
      calls := by
        change (σ.locals.set t p').map HookThread.call = calls
        have hcalling : (σ.locals.map HookThread.call)[t]? = some p.call := by
          rw [List.getElem?_map, hlocal]
          rfl
        obtain ⟨hlt, hget⟩ := List.getElem?_eq_some_iff.mp hcalling
        rw [List.map_set, hcall, ← hget, List.set_getElem_self, h.calls]
      within := by
        apply forall_locals_set (fun t' q hq _ => h.within t' q hq) hlocal
        rw [hcall]
        exact HookThread.within_step hcases hwithin
      whereabouts := fun r => (h.whereabouts r).move hlocal hcases
        (HookThread.pauseEffect_step hcases hwithin h.importable r) }

/-- **Run lemma.** -/
theorem cleanupInv_moves (himportable : hook.allocatorImportable = true)
    (hmoves : Threads.Moves (HookThread.step cuda) (startCalls hook w calls) σ) :
    CleanupInv hook calls σ :=
  invariant_of_chain (I := CleanupInv hook calls) (fun _ _ hmove h => h.move hmove) hmoves
    (cleanupInv_start himportable)

end Runs

/-! ## 4. Every call returns -/

namespace HookThread

variable {cuda : Cuda} {t : Nat}

/-- A thread that is here returns when it runs on alone. -/
def Returns (cuda : Cuda) (t : Nat) (pc : HookPc) : Prop :=
  ∀ (σ : Threads SharedHook HookThread) (p : HookThread), σ.locals[t]? = some p → p.pc = pc →
    ∃ σ' p', Threads.Moves (step cuda) σ σ' ∧ σ'.locals = σ.locals.set t p' ∧
      p'.result.isSome = true

theorem returns_done (result : Except PyError (Option ToolCallState)) :
    Returns cuda t (.done result) := by
  intro σ p hlocal hpc
  obtain ⟨hlt, hp⟩ := List.getElem?_eq_some_iff.mp hlocal
  refine ⟨σ, p, Relation.ReflTransGen.refl, ?_, ?_⟩
  · rw [← hp, List.set_getElem_self]
  · rw [HookThread.result, hpc]
    rfl

theorem returns_of_step {pc : HookPc}
    (h : ∀ s p, p.pc = pc → ∃ s' p', step cuda t s p = some (s', p') ∧ Returns cuda t p'.pc) :
    Returns cuda t pc := by
  intro σ p hlocal hpc
  obtain ⟨s', p', hstep, hreturns⟩ := h σ.shared p hpc
  obtain ⟨σ', p'', hmoves, hlocals, hresult⟩ := hreturns ⟨s', σ.locals.set t p'⟩ p'
    (Threads.getElem?_set_of_local hlocal p') rfl
  refine ⟨σ', p'', (Relation.ReflTransGen.single (.move hlocal hstep)).trans hmoves, ?_, hresult⟩
  rw [hlocals, List.set_set]

theorem returns_release (requestId : RequestId) (handles : List Handle) {rest : List RequestId}
    (hrest : Returns cuda t (.cleanUp rest)) :
    Returns cuda t (.release requestId handles rest) := by
  induction handles with
  | nil =>
    refine returns_of_step fun s p hpc => ⟨s, p.goto (.cleanUp rest), ?_, hrest⟩
    rw [step, hpc]
  | cons handle handles ih =>
    refine returns_of_step fun s p hpc =>
      ⟨s.attempt t requestId handle (finalState (releasePhysicalHandle cuda handle s.allocator)),
        p.goto (.release requestId handles rest), ?_, ih⟩
    rw [step, hpc]
    cases hrelease : releasePhysicalHandle cuda handle s.allocator with
    | ok _ w => simp only [hrelease, finalState]
    | error e w => simp only [hrelease, finalState, e.isException_eq_true, if_true]

theorem returns_cleanUp (requestIds : List RequestId) : Returns cuda t (.cleanUp requestIds) := by
  induction requestIds with
  | nil =>
    refine returns_of_step fun s p hpc => ⟨s, p.goto (.done (.ok none)), ?_, returns_done _⟩
    rw [step, hpc]
  | cons requestId rest ih =>
    refine returns_of_step fun s p hpc => ?_
    rw [step, hpc]
    refine ⟨_, _, rfl, ?_⟩
    change Returns cuda t (afterPop requestId rest (s.hook.getActivePause requestId))
    unfold afterPop
    cases s.hook.getActivePause requestId with
    | none => exact ih
    | some state =>
      change Returns cuda t (if _ then _ else _)
      split
      · exact ih
      · refine returns_of_step fun s p hpc => ?_
        rw [step, hpc]
        refine ⟨_, _, rfl, ?_⟩
        change Returns cuda t (if _ then _ else _)
        split
        · exact returns_release requestId _ ih
        · exact ih

theorem returns (cuda : Cuda) (t : Nat) (pc : HookPc) : Returns cuda t pc := by
  cases pc with
  | resume requestId =>
    refine returns_of_step fun s p hpc => ?_
    rw [step, hpc]
    exact ⟨_, _, rfl, returns_done _⟩
  | listPauses =>
    refine returns_of_step fun s p hpc => ?_
    rw [step, hpc]
    exact ⟨_, _, rfl, returns_cleanUp _⟩
  | cleanUp requestIds => exact returns_cleanUp requestIds
  | importAllocator requestId handles rest =>
    refine returns_of_step fun s p hpc => ?_
    rw [step, hpc]
    refine ⟨_, _, rfl, ?_⟩
    change Returns cuda t (if _ then _ else _)
    split
    · exact returns_release requestId handles (returns_cleanUp rest)
    · exact returns_cleanUp rest
  | release requestId handles rest => exact returns_release requestId handles (returns_cleanUp rest)
  | done result => exact returns_done result

end HookThread

/-- From wherever the calls are, all of them can return. -/
theorem exists_all_returned (cuda : Cuda) (σ : Threads SharedHook HookThread) :
    ∃ σ', Threads.Moves (HookThread.step cuda) σ σ' ∧
      ∀ p ∈ σ'.locals, p.result.isSome = true := by
  have hfirst : ∀ n, ∃ σ', Threads.Moves (HookThread.step cuda) σ σ' ∧
      ∀ (t : Nat) (p : HookThread), t < n → σ'.locals[t]? = some p → p.result.isSome = true := by
    intro n
    induction n with
    | zero => exact ⟨σ, Relation.ReflTransGen.refl, fun t p ht => absurd ht (Nat.not_lt_zero t)⟩
    | succ n ih =>
      obtain ⟨σ₁, hmoves₁, hreturned₁⟩ := ih
      cases hnext : σ₁.locals[n]? with
      | none =>
        refine ⟨σ₁, hmoves₁, fun t p ht hp => ?_⟩
        have hne : t ≠ n := by
          rintro rfl
          rw [hnext] at hp
          cases hp
        exact hreturned₁ t p (by omega) hp
      | some p₁ =>
        obtain ⟨σ₂, p₂, hmoves₂, hlocals, hreturned₂⟩ :=
          HookThread.returns cuda n p₁.pc σ₁ p₁ hnext rfl
        refine ⟨σ₂, hmoves₁.trans hmoves₂, fun t p ht hp => ?_⟩
        rw [hlocals] at hp
        exact forall_locals_set (Q := fun t p => t < n + 1 → p.result.isSome = true)
          (fun t' q hq hne ht' => hreturned₁ t' q (by omega) hq) hnext (fun _ => hreturned₂)
          t p hp ht
  obtain ⟨σ', hmoves, hreturned⟩ := hfirst σ.locals.length
  refine ⟨σ', hmoves, fun p hp => ?_⟩
  obtain ⟨t, ht, hget⟩ := List.getElem_of_mem hp
  rw [Threads.length_of_moves hmoves] at ht
  exact hreturned t p ht (by rw [List.getElem?_eq_some_iff]; exact ⟨_, hget⟩)

/-! ## 5. A call that runs alone -/

/-- The call on the hook, one call after another. -/
def PauseCall.sequential (hook : EdmmSchedulerHook) : PauseCall → EdmmSchedulerHook
  | .cleanupRequest requestId => hook.cleanupRequest requestId
  | .cleanupAll => hook.cleanupAll
  | .onToolCallResume requestId => (hook.onToolCallResume requestId).2

/-- The hook that a thread which runs on alone leaves. -/
def HookPc.leaves (hook : EdmmSchedulerHook) : HookPc → EdmmSchedulerHook
  | .resume requestId => (hook.onToolCallResume requestId).2
  | .listPauses => hook.cleanupAll
  | .cleanUp rest => rest.foldl EdmmSchedulerHook.cleanupRequest hook
  | .importAllocator _ handles rest =>
      rest.foldl EdmmSchedulerHook.cleanupRequest (if hook.allocatorImportable then
        { hook with releaseAttempts := hook.releaseAttempts ++ handles } else hook)
  | .release _ handles rest =>
      rest.foldl EdmmSchedulerHook.cleanupRequest
        { hook with releaseAttempts := hook.releaseAttempts ++ handles }
  | .done _ => hook

theorem HookThread.leaves_afterPop (s : SharedHook) (me : Nat) (requestId : RequestId)
    (rest : List RequestId) :
    (afterPop requestId rest (s.hook.getActivePause requestId)).leaves (s.pop me requestId).hook =
      (HookPc.cleanUp (requestId :: rest)).leaves s.hook := by
  have hsequential : (HookPc.cleanUp (requestId :: rest)).leaves s.hook =
      rest.foldl EdmmSchedulerHook.cleanupRequest (s.hook.cleanupRequest requestId) := rfl
  rw [hsequential]
  unfold afterPop EdmmSchedulerHook.cleanupRequest EdmmSchedulerHook.getActivePause
  cases s.hook.activePauses.get? requestId with
  | none => rfl
  | some state =>
    by_cases hhandles : state.speculativeHandles = []
    · simp only [hhandles, if_true, List.append_nil, ite_self]
      rfl
    · simp only [hhandles, if_false]
      rfl

theorem HookThread.leaves_step {me : Nat} {s s' : SharedHook} {p p' : HookThread}
    (h : HookStep me s p s' p') : p'.pc.leaves s'.hook = p.pc.leaves s.hook := by
  cases h with
  | resume requestId hpc =>
    rw [hpc]
    rfl
  | listPauses hpc =>
    rw [hpc]
    rfl
  | cleanedUp hpc =>
    rw [hpc]
    rfl
  | cleanUp requestId rest hpc =>
    rw [hpc]
    exact leaves_afterPop s me requestId rest
  | importAllocator requestId handles rest hpc =>
    rw [hpc]
    change HookPc.leaves s.hook (if _ then _ else _) = rest.foldl _ (if _ then _ else _)
    split <;> rfl
  | released requestId rest hpc =>
    rw [hpc]
    simp only [goto, HookPc.leaves, List.append_nil]
  | release requestId handle handles rest w hpc =>
    rw [hpc]
    simp only [goto, HookPc.leaves, SharedHook.attempt, List.append_assoc, List.singleton_append]

/-- **Refinement.**  A call that runs alone has the effect of the call of
    `Edmm/SchedulerHook.lean`, whatever its releases raise. -/
theorem alone_sequential {cuda : Cuda} {hook : EdmmSchedulerHook} {w : AllocatorState}
    {call : PauseCall} {s : SharedHook} {p : HookThread}
    {result : Except PyError (Option ToolCallState)}
    (hmoves : Threads.Moves (HookThread.step cuda) (startCalls hook w [call]) ⟨s, [p]⟩)
    (hdone : p.pc = .done result) : s.hook = call.sequential hook := by
  have hinv : ∃ p', [p] = [p'] ∧ p'.pc.leaves s.hook = call.sequential hook := by
    refine invariant_of_chain (I := fun σ : Threads SharedHook HookThread =>
      ∃ p', σ.locals = [p'] ∧ p'.pc.leaves σ.shared.hook = call.sequential hook) ?_ hmoves ?_
    · rintro σ σ' ⟨hlocal, hstep⟩ ⟨p₀, hp₀, hleaves⟩
      rename_i t q q' s'
      rw [hp₀] at hlocal
      cases t with
      | succ t => cases hlocal
      | zero =>
        obtain rfl := Option.some.inj hlocal
        refine ⟨q', by rw [hp₀]; rfl, ?_⟩
        rw [← hleaves]
        exact HookThread.leaves_step (HookThread.step_cases hstep)
    · refine ⟨HookThread.start call, rfl, ?_⟩
      cases call <;> rfl
  obtain ⟨p', hp', hleaves⟩ := hinv
  obtain rfl := List.singleton_inj.mp hp'
  rw [hdone] at hleaves
  exact hleaves

/-! ## 6. Who obtains a pause -/

/-- Thread `t` obtained the pause of `r`, and no other thread did. -/
structure ObtainedBy (r : RequestId) (state : ToolCallState)
    (σ : Threads SharedHook HookThread) (t : Nat) (call : PauseCall) : Prop where
  targets : call.Targets r
  popped : σ.shared.popped r = [(t, state)]
  gone : σ.shared.hook.getActivePause r = none
  /-- A cleanup attempts each of the handles once, in their order. -/
  cleanup : call.IsCleanup → σ.shared.attempts r = state.speculativeHandles.map (t, ·)
  /-- A resume returns the pause, and nobody releases a handle of it. -/
  resume : ¬ call.IsCleanup → (∃ p, σ.locals[t]? = some p ∧ p.result = some (.ok (some state))) ∧
    σ.shared.attempts r = []
  others : ∀ t' (q : HookThread), t' ≠ t → σ.locals[t']? = some q →
    q.call = .onToolCallResume r → q.result = some (.ok none)

section Results

variable {cuda : Cuda} {hook : EdmmSchedulerHook} {calls : List PauseCall}
  {σ : Threads SharedHook HookThread} {r : RequestId} {state : ToolCallState}

theorem CleanupInv.getElem?_calls (h : CleanupInv hook calls σ) {t : Nat} {p : HookThread}
    (hlocal : σ.locals[t]? = some p) : calls[t]? = some p.call := by
  rw [← h.calls, List.getElem?_map, hlocal]
  rfl

theorem CleanupInv.result_ok (h : CleanupInv hook calls σ) {p : HookThread} (hp : p ∈ σ.locals)
    {result : Except PyError (Option ToolCallState)} (hresult : p.result = some result) :
    ∃ state, result = .ok state ∧ (p.call.IsCleanup → state = none) := by
  obtain ⟨t, hlocal⟩ := List.mem_iff_getElem?.mp hp
  have hwithin := h.within t p hlocal
  unfold HookThread.result at hresult
  split at hresult
  · rename_i hpc
    cases hresult
    rw [hpc] at hwithin
    exact hwithin
  · cases hresult

/-- A thread that has returned is not going to pop anything. -/
theorem HookThread.not_ahead_of_returned {p : HookThread} (h : p.result.isSome = true) :
    p.pc.pending r = [] ∧ ¬ p.pc.Ahead r := by
  unfold HookThread.result at h
  split at h
  · rename_i hpc
    rw [hpc]
    exact ⟨rfl, id⟩
  · cases h

/-- Which releases there were, at any time. -/
theorem CleanupInv.attempts_targeted (h : CleanupInv hook calls σ) {t : Nat} {handle : Handle}
    (hattempt : (t, handle) ∈ σ.shared.attempts r) :
    ∃ state call, hook.getActivePause r = some state ∧ handle ∈ state.speculativeHandles ∧
      calls[t]? = some call ∧ call.IsCleanup ∧ call.Targets r := by
  rcases h.whereabouts r with ⟨_, _, hattempts, _, _⟩ |
    ⟨state, holder, p, hpaused, hlocal, _, _, hfate, _⟩
  · rw [hattempts] at hattempt
    cases hattempt
  · rcases hfate with ⟨_, _, hattempts⟩ | ⟨hcleanup, htargets, hreleases⟩
    · rw [hattempts] at hattempt
      cases hattempt
    · have hlisted : (t, handle) ∈ state.speculativeHandles.map (holder, ·) := by
        rw [← hreleases]
        exact List.mem_append_left _ hattempt
      obtain ⟨_, hhandle, heq⟩ := List.mem_map.mp hlisted
      cases heq
      exact ⟨state, p.call, hpaused, hhandle, h.getElem?_calls hlocal, hcleanup, htargets⟩

/-- A pause that no call is about stays. -/
theorem CleanupInv.untargeted (h : CleanupInv hook calls σ)
    (huntargeted : ∀ call ∈ calls, ¬ call.Targets r) :
    σ.shared.hook.getActivePause r = hook.getActivePause r := by
  rcases h.whereabouts r with ⟨hpause, _, _, _, _⟩ |
    ⟨state, holder, p, hpaused, hlocal, _, _, hfate, _⟩
  · exact hpause
  · have hcall := huntargeted p.call (List.mem_of_getElem? (h.getElem?_calls hlocal))
    rcases hfate with ⟨hresume, _, _⟩ | ⟨_, htargets, _⟩
    · rw [hresume] at hcall
      exact absurd rfl hcall
    · exact absurd htargets hcall

/-- When all calls have returned, one of them obtained the pause. -/
theorem CleanupInv.exists_obtainedBy (h : CleanupInv hook calls σ)
    (hreturned : ∀ p ∈ σ.locals, p.result.isSome = true)
    (hpaused : hook.getActivePause r = some state) (htargeted : ∃ call ∈ calls, call.Targets r) :
    ∃ t call, calls[t]? = some call ∧ ObtainedBy r state σ t call := by
  rcases h.whereabouts r with ⟨_, _, _, _, hahead⟩ |
    ⟨state', t, p, hpaused', hlocal, hpause, hpopped, hfate, hidle⟩
  · obtain ⟨call, hcall, htargets⟩ := htargeted
    rw [← h.calls] at hcall
    obtain ⟨p, hp, rfl⟩ := List.mem_map.mp hcall
    obtain ⟨t, hlocal⟩ := List.mem_iff_getElem?.mp hp
    have hcalling := hahead (by rw [hpaused]; rfl) t p hlocal htargets
    exact absurd hcalling (HookThread.not_ahead_of_returned (hreturned p hp)).2
  · rw [hpaused, Option.some.injEq] at hpaused'
    subst hpaused'
    have hothers : ∀ t' (q : HookThread), t' ≠ t → σ.locals[t']? = some q →
        q.call = .onToolCallResume r → q.result = some (.ok none) := by
      intro t' q hne hq hresume
      have hmem := List.mem_of_getElem? hq
      obtain ⟨result, hresult⟩ := Option.isSome_iff_exists.mp (hreturned q hmem)
      obtain ⟨popped, rfl, _⟩ := h.result_ok hmem hresult
      cases popped with
      | none => exact hresult
      | some other =>
        have hpc : q.pc = .done (.ok (some other)) := by
          unfold HookThread.result at hresult
          split at hresult
          · rename_i hpc
            rw [hpc, Option.some.inj hresult]
          · cases hresult
        exact absurd hpc ((hidle t' q hne hq).result hresume other)
    refine ⟨t, p.call, h.getElem?_calls hlocal, ?_⟩
    rcases hfate with ⟨hresume, hpc, hattempts⟩ | ⟨hcleanup, htargets, hreleases⟩
    · exact
        { targets := by rw [hresume]; exact rfl
          popped := hpopped
          gone := hpause
          cleanup := by
            intro hcleanup
            rw [hresume] at hcleanup
            exact hcleanup.elim
          resume := fun _ => ⟨⟨p, hlocal, by rw [HookThread.result, hpc]⟩, hattempts⟩
          others := hothers }
    · have hnone := (HookThread.not_ahead_of_returned (r := r)
        (hreturned p (List.mem_of_getElem? hlocal))).1
      rw [hnone, List.map_nil, List.append_nil] at hreleases
      exact
        { targets := htargets
          popped := hpopped
          gone := hpause
          cleanup := fun _ => hreleases
          resume := fun hnot => absurd hcleanup hnot
          others := hothers }

end Results

/-- **Cleanup survives failing releases and races.**  For every hook and all calls, in
    every interleaving and whatever the driver refuses: no call raises, all can return,
    a pause that a call is about is obtained by one call, and nothing else is
    released or popped. -/
theorem cleanup_survives (cuda : Cuda) {hook : EdmmSchedulerHook}
    (himportable : hook.allocatorImportable = true) (w : AllocatorState) (calls : List PauseCall)
    {σ : Threads SharedHook HookThread}
    (hmoves : Threads.Moves (HookThread.step cuda) (startCalls hook w calls) σ) :
    (∀ p ∈ σ.locals, ∀ e, p.result ≠ some (.error e)) ∧
    (∃ σ', Threads.Moves (HookThread.step cuda) σ σ' ∧
      ∀ p ∈ σ'.locals, p.result.isSome = true) ∧
    (∀ r t handle, (t, handle) ∈ σ.shared.attempts r →
      ∃ state call, hook.getActivePause r = some state ∧ handle ∈ state.speculativeHandles ∧
        calls[t]? = some call ∧ call.IsCleanup ∧ call.Targets r) ∧
    (∀ r, (∀ call ∈ calls, ¬ call.Targets r) →
      σ.shared.hook.getActivePause r = hook.getActivePause r) ∧
    ((∀ p ∈ σ.locals, p.result.isSome = true) → ∀ r state,
      hook.getActivePause r = some state → (∃ call ∈ calls, call.Targets r) →
        ∃ t call, calls[t]? = some call ∧ ObtainedBy r state σ t call) := by
  have h := cleanupInv_moves himportable hmoves
  refine ⟨?_, exists_all_returned cuda σ, fun r t handle => h.attempts_targeted,
    fun r => h.untargeted, fun hreturned r state => h.exists_obtainedBy hreturned⟩
  intro p hp e hresult
  obtain ⟨state, herror, _⟩ := h.result_ok hp hresult
  cases herror

/-- A driver that refuses to release this handle. -/
def Cuda.keeping (kept : Handle) : Cuda :=
  { Cuda.bump with result := fun _ c => if c = .cuMemRelease kept then 1 else 0 }

/-- Two cleanups and a resume of a pause with the handles 7 and 8, of which the driver
    keeps the first: `cleanup_all` lists the pause, `cleanup_request` pops it. -/
theorem cleanup_survives_three :
    let hook := runHook (.init true) [.onToolCallPause "r" ⟨0, none, 0⟩,
      .recordSpeculativeHandle "r" 7, .recordSpeculativeHandle "r" 8]
    let calls := [PauseCall.cleanupRequest "r", .cleanupAll, .onToolCallResume "r"]
    let σ := Threads.follow (HookThread.step (Cuda.keeping 7))
      (startCalls hook (.init fun _ _ => 0) calls) [1, 0, 2, 0, 1, 0, 0, 1, 0, 0]
    σ.shared.attempts "r" = [(0, 7), (0, 8)] ∧ ∃ t call, calls[t]? = some call ∧
      ObtainedBy "r" ⟨"r", 0, [7, 8], some .speculate⟩ σ t call := by
  intro hook calls σ
  refine ⟨by decide +kernel, ?_⟩
  have himportable : hook.allocatorImportable = true := by decide +kernel
  exact (cleanup_survives (Cuda.keeping 7) himportable (.init fun _ _ => 0) calls
    (Threads.moves_follow _ _ _)).2.2.2.2 (by decide +kernel) "r" _ (by decide +kernel)
    ⟨_, List.mem_cons_self, rfl⟩

end Edmm
