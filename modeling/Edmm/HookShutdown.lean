/-
  Edmm/HookShutdown.lean
  ======================
  **What `cleanup_all` leaves in the hook.**

  `cleanup_all` cleans up the requests of `_active_pauses` and no others.  A response
  for a request that is not paused, because it came early, late or for an unknown id,
  stays in `_tool_responses`, and a later pause of that id finds it there.
  `cleanupAll_clears_iff` says after which calls nothing stays.
-/
import Edmm.HookIsolation

namespace Edmm

namespace HookMemory

/-- The handles recorded in the active pause of the request. -/
def recordedFor (m : HookMemory) (r : RequestId) : List Handle :=
  match (m.view r).paused with
  | none => []
  | some state => state.2

/-- The hook is empty after `before` was cleaned up: no later pause finds anything,
    and each recorded handle was given to `release_physical_handle` once. -/
structure ClearsEverything (before after : HookMemory) : Prop where
  activePauses : after.hook.activePauses.items = []
  toolResponses : after.hook.toolResponses.items = []
  laterPause : ∀ r reading, ((after.onToolCallPause r reading).view r).paused = some (r, []) ∧
    (after.onToolCallPause r reading).hook.isToolResponseReady r = false
  released : ∀ r, (after.view r).released = (before.view r).released ++ before.recordedFor r

theorem items_eq_nil_iff {α : Type} {d : Dict RequestId α} :
    d.items = [] ↔ ∀ r, d.get? r = none := by
  constructor
  · intro h r
    rw [Dict.get?_eq_none_iff, Dict.keys, h]
    exact List.not_mem_nil
  · intro h
    have hperm : d.items.Perm (∅ : Dict RequestId α).items :=
      Dict.items_perm_of_get?_eq fun r => (h r).trans rfl
    exact hperm.eq_nil

theorem recordedFor_eq_nil {m : HookMemory} {r : RequestId} (h : (m.view r).paused = none) :
    m.recordedFor r = [] := by
  unfold recordedFor
  rw [h]

theorem releases_recordedFor (m : HookMemory) (r : RequestId) :
    (m.view r).releases m.hook.allocatorImportable =
      if m.hook.allocatorImportable then m.recordedFor r else [] := by
  unfold RequestView.releases recordedFor
  cases (m.view r).paused with
  | none => rw [ite_self]
  | some state => rfl

/-- What a request sees after `cleanup_all`. -/
theorem view_cleanupAll_fields (m : HookMemory) (r : RequestId) :
    (m.cleanupAll.view r).paused = none ∧
    ((m.cleanupAll.view r).response = none ↔
      ((m.view r).response.isSome = true → (m.view r).paused.isSome = true)) ∧
    (m.cleanupAll.view r).released = (m.view r).released ++
      if m.hook.allocatorImportable then m.recordedFor r else [] := by
  rw [view_cleanupAll]
  split
  · rename_i hpaused
    refine ⟨rfl, ?_, ?_⟩
    · exact ⟨fun _ _ => hpaused, fun _ => rfl⟩
    · rw [← releases_recordedFor]
      rfl
  · rename_i hpaused
    have hnone : (m.view r).paused = none := by simpa using hpaused
    refine ⟨hnone, ?_, ?_⟩
    · cases (m.view r).response with
      | none => simp
      | some ready => simp [hnone]
    · rw [recordedFor_eq_nil hnone, ite_self, List.append_nil]

/-- **When `cleanup_all` clears everything.**  After any sequence of calls: exactly if
    only paused requests have a response, and the allocator is there if handles are
    recorded. -/
theorem cleanupAll_clears_iff (allocatorImportable : Bool) (calls : List HookCall) :
    let m := (init allocatorImportable).run calls
    ClearsEverything m m.cleanupAll ↔
      (∀ r, m.hook.isToolResponseReady r = true → (m.hook.getActivePause r).isSome = true) ∧
      (m.hook.allocatorImportable = true ∨
        ∀ r state, m.hook.getActivePause r = some state → state.speculativeHandles = []) := by
  intro m
  have hpauses : ∀ r, (m.hook.getActivePause r).isSome = (m.view r).paused.isSome := by
    intro r
    exact Option.isSome_map.symm
  have hresponses : m.cleanupAll.hook.toolResponses.items = [] ↔
      ∀ r, m.hook.isToolResponseReady r = true → (m.hook.getActivePause r).isSome = true := by
    rw [items_eq_nil_iff]
    apply forall_congr'
    intro r
    rw [hpauses]
    exact (m.view_cleanupAll_fields r).2.1
  have hreleased : (∀ r, (m.cleanupAll.view r).released =
        (m.view r).released ++ m.recordedFor r) ↔
      (m.hook.allocatorImportable = true ∨
        ∀ r state, m.hook.getActivePause r = some state → state.speculativeHandles = []) := by
    cases himportable : m.hook.allocatorImportable with
    | true =>
      refine iff_of_true ?_ (Or.inl rfl)
      intro r
      rw [(m.view_cleanupAll_fields r).2.2, himportable, if_pos rfl]
    | false =>
      rw [or_iff_right Bool.false_ne_true]
      apply forall_congr'
      intro r
      rw [(m.view_cleanupAll_fields r).2.2, himportable, if_neg Bool.false_ne_true,
        List.append_right_inj]
      unfold recordedFor view
      cases m.hook.getActivePause r with
      | none => simp
      | some state => simp [ToolCallState.untimed, eq_comm]
  constructor
  · exact fun h => ⟨hresponses.mp h.toolResponses, hreleased.mp h.released⟩
  · rintro ⟨hpaused, himportable⟩
    have hempty := hresponses.mpr hpaused
    exact
      { activePauses := by
          rw [items_eq_nil_iff]
          intro r
          have hnone := (m.view_cleanupAll_fields r).1
          unfold view at hnone
          exact Option.map_eq_none_iff.mp hnone
        toolResponses := hempty
        laterPause := by
          intro r reading
          constructor
          · simp [view, onToolCallPause, EdmmSchedulerHook.getActivePause_onToolCallPause,
              ToolCallState.untimed]
          · have hnone := items_eq_nil_iff.mp hempty r
            rw [hook_cleanupAll] at hnone
            simp [onToolCallPause, EdmmSchedulerHook.isToolResponseReady, hnone]
        released := hreleased.mpr himportable }

/-- **A response for a request that is not paused stays**, here an early one. -/
theorem cleanupAll_leaves_response : ¬ ∀ calls : List HookCall,
    ClearsEverything ((init true).run calls) ((init true).run calls).cleanupAll := by
  intro hclaim
  have hstays : ((init true).run [.submitToolResponse "r"]).cleanupAll.hook.toolResponses.items =
      [("r", true)] := by
    decide +kernel
  have hempty := (hclaim [.submitToolResponse "r"]).toolResponses
  rw [hstays] at hempty
  cases hempty

end HookMemory

end Edmm
