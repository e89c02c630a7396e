/-
  Edmm/ForcedReset.lean
  =====================
  **Resetting the prefix cache by force.**

  `reset_prefix_cache(reset_running_requests=True)` preempts every request in
  `running` and expects the KV cache to be free of holders then.  A request that was
  paused for a tool call keeps its blocks and is in `skipped_waiting`, or is in
  `running` without being RUNNING: then the call raises, after it preempted the
  requests it met before.  `forcedReset_iff` says from which states it succeeds.
-/
import Edmm.PausedRequests

namespace Edmm

open Program

/-! ## 1. Who holds KV blocks -/

/-- What the KV cache manager does to the holders of KV blocks. -/
structure TracksBlocks {W : Type} (externals : Externals W) (holds : W → RequestId → Prop) :
    Prop where
  /-- `reset_prefix_cache` succeeds exactly if no request holds KV blocks. -/
  resetPrefixCache : ∀ w, (externals.resetPrefixCache w).1 = true ↔ ∀ reqId, ¬ holds w reqId
  freeKvCache : ∀ w r reqId, holds (externals.freeKvCache w r) reqId ↔
    holds w reqId ∧ reqId ≠ r.requestId
  freeEncoder : ∀ w r reqId, holds (externals.freeEncoder w r) reqId ↔ holds w reqId

/-- Paused for a tool call, or idle until a session is continued. -/
def RequestStatus.isPaused (status : RequestStatus) : Bool :=
  status = .waitingForToolCall || status = .waitingForStreamingReq

namespace Scheduler

variable {W : Type} {self : Scheduler W} {holds : W → RequestId → Prop}

/-! ## 2. The law and its condition -/

/-- Nothing runs any more, and the requests that ran or were paused have no computed
    tokens left: when they are scheduled next, they start with a prefix lookup. -/
structure ResetForced (s s' : SchedulerState W) : Prop where
  running : s'.running = []
  preempted : ∀ x ∈ s.running, (s'.objs x).numComputedTokens = 0
  paused : ∀ reqId x, s.requests.get? reqId = some x → (s.objs x).status.isPaused = true →
    (s'.objs x).numComputedTokens = 0

/-- The forced reset does not raise, and does what it promises. -/
def ForcedResetSucceeds (self : Scheduler W) (resetConnector : Bool) (s : SchedulerState W) :
    Prop :=
  wp (self.resetPrefixCache true resetConnector) (fun _ s' => ResetForced s s')
    (fun _ _ => False) s

/-- What a forced reset needs: all of `running` can be preempted, nobody else holds KV
    blocks, and no paused request has computed tokens. -/
structure ResetReady (holds : W → RequestId → Prop) (s : SchedulerState W) : Prop where
  running : AllRunning s
  holders : ∀ reqId, holds s.world reqId → ∃ x ∈ s.running, (s.objs x).requestId = reqId
  paused : ∀ reqId x, s.requests.get? reqId = some x → (s.objs x).status.isPaused = true →
    (s.objs x).numComputedTokens = 0

/-! ## 3. Preempting everything -/

/-- What the loop over `running` leaves of `s`. -/
structure AllPreempted (holds : W → RequestId → Prop) (s s' : SchedulerState W) : Prop where
  running : s'.running = []
  requests : s'.requests = s.requests
  preempted : ∀ x ∈ s.running, (s'.objs x).numComputedTokens = 0
  others : ∀ x ∉ s.running, s'.objs x = s.objs x
  holders : ∀ reqId, holds s'.world reqId ↔
    holds s.world reqId ∧ ∀ x ∈ s.running, (s.objs x).requestId ≠ reqId

/-- The state after one turn of the loop. -/
def afterTurn (self : Scheduler W) (s : SchedulerState W) (rest : List Ref) (victim : Ref) :
    SchedulerState W :=
  (self.afterPreempt { s with running := rest } victim
    (self.externals.freeEncoder (self.externals.freeKvCache s.world (s.objs victim))
      (s.objs victim))).updateRequest victim discardPlaceholders

theorem objs_afterTurn (s : SchedulerState W) (rest : List Ref) (victim x : Ref) :
    (self.afterTurn s rest victim).objs x =
      if x = victim then discardPlaceholders (preempted (s.objs victim)) else s.objs x := by
  unfold afterTurn
  rw [SchedulerState.objs_updateRequest]
  split
  · exact congrArg discardPlaceholders (Function.update_self victim _ _)
  · rename_i hx
    exact Function.update_of_ne hx _ _

theorem preemptAllRunning_succ (fuel : Nat) {s : SchedulerState W} {rest : List Ref} {victim : Ref}
    (hrunning : s.running = rest ++ [victim]) (Q : Unit → SchedulerState W → Prop)
    (E : PyError → SchedulerState W → Prop) :
    wp (self.preemptAllRunning (fuel + 1)) Q E s ↔
      ((s.objs victim).status = .running →
        wp (self.preemptAllRunning fuel) Q E (self.afterTurn s rest victim)) ∧
      ((s.objs victim).status ≠ .running →
        E onlyRunningPreempted { s with running := rest }) := by
  have hlast : s.running.getLast? = some victim := by rw [hrunning, List.getLast?_concat]
  have hdrop : s.running.dropLast = rest := by rw [hrunning, List.dropLast_concat]
  rw [preemptAllRunning, wp_bind, wp_get, hlast]
  simp only [preemptRequest, wp_bind, wp_get, wp_modify, wp_pyAssert, wp_onWorld, wp_modifyRequest,
    wp_record, hdrop]
  exact Iff.rfl

/-- All of `running` is RUNNING exactly if its last request is and the turn leaves a
    list that is. -/
theorem allRunning_iff_afterTurn (self : Scheduler W) {s : SchedulerState W} {rest : List Ref}
    {victim : Ref}
    (hrunning : s.running = rest ++ [victim]) :
    AllRunning s ↔ (s.objs victim).status = .running ∧ AllRunning (self.afterTurn s rest victim) := by
  have hrest : (self.afterTurn s rest victim).running = rest := rfl
  have hstopped : ((self.afterTurn s rest victim).objs victim).status ≠ .running := by
    rw [objs_afterTurn, if_pos rfl]
    exact nofun
  unfold AllRunning
  rw [hrest, hrunning]
  constructor
  · rintro ⟨hstatus, hnodup⟩
    have hapart : victim ∉ rest := by
      rw [List.nodup_append] at hnodup
      exact fun hmem => hnodup.2.2 victim hmem victim (List.mem_singleton.mpr rfl) rfl
    refine ⟨hstatus victim (by simp), fun x hx => ?_, (List.nodup_append.mp hnodup).1⟩
    have hne : x ≠ victim := fun heq => hapart (heq ▸ hx)
    rw [objs_afterTurn, if_neg hne]
    exact hstatus x (List.mem_append_left _ hx)
  · rintro ⟨hvictim, hstatus, hnodup⟩
    have hapart : victim ∉ rest := fun hmem => hstopped (hstatus victim hmem)
    constructor
    · intro x hx
      rcases List.mem_append.mp hx with hx | hx
      · have hne : x ≠ victim := fun heq => hapart (heq ▸ hx)
        have hafter := hstatus x hx
        rwa [objs_afterTurn, if_neg hne] at hafter
      · rw [List.mem_singleton.mp hx]
        exact hvictim
    · rw [List.nodup_append]
      refine ⟨hnodup, List.nodup_singleton victim, fun x hx y hy heq => ?_⟩
      rw [heq, List.mem_singleton.mp hy] at hx
      exact hapart hx

/-- The victim's blocks are freed, and those of the rest by the rest of the loop. -/
theorem AllPreempted.of_turn (htracks : TracksBlocks self.externals holds)
    {s s' : SchedulerState W} {rest : List Ref} {victim : Ref}
    (hrunning : s.running = rest ++ [victim])
    (h : AllPreempted holds (self.afterTurn s rest victim) s') : AllPreempted holds s s' := by
  have hmem : ∀ x, x ∈ s.running ↔ x ∈ rest ∨ x = victim := by
    intro x
    rw [hrunning, List.mem_append, List.mem_singleton]
  have hid : ∀ x, ((self.afterTurn s rest victim).objs x).requestId = (s.objs x).requestId := by
    intro x
    rw [objs_afterTurn]
    split
    · rename_i heq
      rw [heq]
      rfl
    · rfl
  refine ⟨h.running, h.requests, fun x hx => ?_, fun x hx => ?_, fun reqId => ?_⟩
  · by_cases hrest : x ∈ rest
    · exact h.preempted x hrest
    · -- the victim is not preempted again
      obtain rfl := ((hmem x).mp hx).resolve_left hrest
      rw [h.others x hrest, objs_afterTurn, if_pos rfl]
      rfl
  · rw [hmem, not_or] at hx
    rw [h.others x hx.1, objs_afterTurn, if_neg hx.2]
  · have hworld : holds (self.afterTurn s rest victim).world reqId ↔
        holds s.world reqId ∧ reqId ≠ (s.objs victim).requestId :=
      (htracks.freeEncoder _ _ _).trans (htracks.freeKvCache _ _ _)
    rw [h.holders, hworld]
    constructor
    · rintro ⟨⟨hholds, hvictim⟩, hothers⟩
      refine ⟨hholds, fun x hx => ?_⟩
      rcases (hmem x).mp hx with hrest | rfl
      · rw [← hid]
        exact hothers x hrest
      · exact Ne.symm hvictim
    · rintro ⟨hholds, hothers⟩
      refine ⟨⟨hholds, Ne.symm (hothers victim ((hmem victim).mpr (Or.inr rfl)))⟩, fun x hx => ?_⟩
      rw [hid]
      exact hothers x ((hmem x).mpr (Or.inl hx))

/-- **The loop.**  It returns exactly if all of `running` is RUNNING. -/
theorem preemptAllRunning_spec (htracks : TracksBlocks self.externals holds) (running : List Ref) :
    ∀ s : SchedulerState W, s.running = running →
      wp (self.preemptAllRunning running.length)
        (fun _ s' => AllRunning s ∧ AllPreempted holds s s') (fun _ _ => ¬ AllRunning s) s := by
  induction running using List.reverseRecOn with
  | nil =>
    intro s hrunning
    refine ⟨⟨?_, ?_⟩, ?_⟩
    · rw [hrunning]
      exact nofun
    · rw [hrunning]
      exact List.nodup_nil
    · exact
        { running := hrunning
          requests := rfl
          preempted := fun x hx => by rw [hrunning] at hx; cases hx
          others := fun _ _ => rfl
          holders := fun reqId => by simp [hrunning] }
  | append_singleton rest victim ih =>
    intro s hrunning
    have hsplit := allRunning_iff_afterTurn self hrunning
    rw [List.length_append, List.length_singleton, preemptAllRunning_succ _ hrunning]
    constructor
    · intro hstatus
      refine wp_mono (ih (self.afterTurn s rest victim) rfl) ?_ ?_
      · rintro _ s' ⟨hall, hpreempted⟩
        exact ⟨hsplit.mpr ⟨hstatus, hall⟩, hpreempted.of_turn htracks hrunning⟩
      · exact fun _ _ hall hs => hall (hsplit.mp hs).2
    · exact fun hstatus hs => hstatus (hsplit.mp hs).1

/-! ## 4. The reset -/

/-- What is left of a forced reset after the loop: it succeeds exactly if nobody holds
    KV blocks any more. -/
theorem afterLoop_iff (htracks : TracksBlocks self.externals holds) (resetConnector : Bool)
    (s s₁ : SchedulerState W) (message : PyError) :
    wp (do
      let resetSuccessful ← callWorld self.externals.resetPrefixCache
      pyAssert ((true && !resetSuccessful) = false) message
      if resetConnector then do
        let connectorReset ← self.resetConnectorCache
        pure (connectorReset && resetSuccessful)
      else pure resetSuccessful)
      (fun _ s' => ResetForced s s') (fun _ _ => False) s₁ ↔
    (∀ reqId, ¬ holds s₁.world reqId) ∧ ResetForced s s₁ := by
  -- only the world changes, which the promise does not look at
  have hworld : ∀ w, ResetForced s { s₁ with world := w } ↔ ResetForced s s₁ := fun w =>
    ⟨fun h => ⟨h.running, h.preempted, h.paused⟩, fun h => ⟨h.running, h.preempted, h.paused⟩⟩
  rw [← htracks.resetPrefixCache]
  simp only [wp_bind, wp_callWorld, wp_pyAssert, wp_ite, resetConnectorCache, wp_pure, hworld]
  cases (self.externals.resetPrefixCache s₁.world).1 <;> cases resetConnector <;>
    cases self.hasConnector <;> simp

/-- The call succeeds with its loop. -/
theorem forcedResetSucceeds_iff_loop (htracks : TracksBlocks self.externals holds)
    (resetConnector : Bool) (s : SchedulerState W) :
    self.ForcedResetSucceeds resetConnector s ↔
      wp (self.preemptAllRunning s.running.length)
        (fun _ s₁ => (∀ reqId, ¬ holds s₁.world reqId) ∧
          ResetForced s { s₁ with prevStepScheduledReqIds := [] }) (fun _ _ => False) s := by
  unfold ForcedResetSucceeds resetPrefixCache
  rw [wp_bind, wp_onlyIf]
  simp only [true_implies, not_true_eq_false, false_implies, and_true]
  rw [wp_bind, wp_get, wp_bind]
  constructor
  · intro h
    exact wp_mono_ok h fun _ s₁ hafter =>
      (afterLoop_iff htracks resetConnector s _ _).mp hafter
  · intro h
    exact wp_mono_ok h fun _ s₁ hafter =>
      (afterLoop_iff htracks resetConnector s _ _).mpr hafter

theorem ForcedResetSucceeds.ready (htracks : TracksBlocks self.externals holds)
    {resetConnector : Bool} {s : SchedulerState W}
    (h : self.ForcedResetSucceeds resetConnector s) : ResetReady holds s := by
  obtain ⟨_, s₁, hrun, hnone, hforced⟩ :=
    returns_of_wp ((forcedResetSucceeds_iff_loop htracks resetConnector s).mp h)
  obtain ⟨hall, hpreempted⟩ := wp_ok (preemptAllRunning_spec htracks s.running s rfl) hrun
  refine ⟨hall, fun reqId hholds => ?_, fun reqId x hget hpaused => ?_⟩
  · by_contra habsent
    refine hnone reqId ((hpreempted.holders reqId).mpr ⟨hholds, fun x hx hid => ?_⟩)
    exact habsent ⟨x, hx, hid⟩
  · -- a paused request is not in `running`, so the loop left it alone
    have hx : x ∉ s.running := by
      intro hx
      rw [hall.1 x hx] at hpaused
      cases hpaused
    rw [← hpreempted.others x hx]
    exact hforced.paused reqId x hget hpaused

theorem ResetReady.succeeds (htracks : TracksBlocks self.externals holds)
    (resetConnector : Bool) {s : SchedulerState W} (h : ResetReady holds s) :
    self.ForcedResetSucceeds resetConnector s := by
  rw [forcedResetSucceeds_iff_loop htracks]
  refine wp_mono (preemptAllRunning_spec htracks s.running s rfl) ?_
    (fun _ _ hraised => hraised h.running)
  rintro _ s₁ ⟨-, hpreempted⟩
  refine ⟨fun reqId hholds => ?_, hpreempted.running, hpreempted.preempted, ?_⟩
  · obtain ⟨hbefore, hnone⟩ := (hpreempted.holders reqId).mp hholds
    obtain ⟨x, hx, hid⟩ := h.holders reqId hbefore
    exact hnone x hx hid
  · intro reqId x hget hpaused
    by_cases hx : x ∈ s.running
    · exact hpreempted.preempted x hx
    · change (s₁.objs x).numComputedTokens = 0
      rw [hpreempted.others x hx]
      exact h.paused reqId x hget hpaused

/-- **When a forced reset succeeds.**  From every state: exactly if every request in
    `running` is RUNNING, no other request holds KV blocks, and no paused request has
    computed tokens. -/
theorem forcedResetSucceeds_iff (htracks : TracksBlocks self.externals holds)
    (resetConnector : Bool) (s : SchedulerState W) :
    self.ForcedResetSucceeds resetConnector s ↔ ResetReady holds s :=
  ⟨fun h => h.ready htracks, fun h => h.succeeds htracks resetConnector⟩

end Scheduler

/-! ## 5. A KV cache that knows its holders -/

/-- The small engine with a KV cache that lists the requests that hold blocks. -/
def Externals.holding : Externals (List RequestId) where
  newStepStarts w := w
  getComputedBlocks w _ := ((⟨[]⟩, 0), w)
  emptyKvCacheBlocks := ⟨[]⟩
  allocateSlots w r _ := (some ⟨[]⟩, w.insert r.requestId)
  getBlocks _ _ := ⟨[]⟩
  freeKvCache w r := w.filter (· ≠ r.requestId)
  cacheBlocks w _ _ := w
  evictBlocks w _ := w
  removeSkippedBlocks w _ _ := w
  getNumCommonPrefixBlocks _ _ := []
  takeNewBlockIds w := ([], w)
  resetPrefixCache w := (w.isEmpty, w)
  checkAndUpdateCache w _ _ := (false, w)
  canAllocate w _ _ _ _ := (true, w)
  allocateEncoder w _ _ := w
  freeEncoder w _ := w
  getCachedInputIds _ _ := []
  freeEncoderInput w _ _ := w
  getFreedMmHashes w := ([], w)
  getEmbedsIndicesInRange _ _ _ := (0, 0)
  getNumNewMatchedTokens w _ _ := ((some 0, false), w)
  updateStateAfterAlloc w _ _ _ := w
  buildConnectorMeta w _ := w
  onNewRequest w _ := w
  requestFinished w _ _ := (false, w)
  updateConnectorOutput w _ := w
  resetConnectorCache w := (true, w)
  hasCacheItem _ _ := false
  ecUpdateStateAfterAlloc w _ _ := w
  ecBuildConnectorMeta w _ := w
  grammarReady _ _ := true
  shouldAdvance _ _ := false
  acceptTokens w _ _ := (true, w)
  validateTokens _ _ specTokenIds := specTokenIds
  checkStop := Externals.roomy.checkStop
  blockHasher := none

theorem Externals.holding_tracksBlocks :
    TracksBlocks Externals.holding fun w reqId => reqId ∈ w where
  resetPrefixCache w := by
    simp only [Externals.holding, List.isEmpty_iff]
    exact List.eq_nil_iff_forall_not_mem
  freeKvCache w r reqId := by
    simp [Externals.holding]
  freeEncoder _ _ _ := Iff.rfl

namespace Scheduler

def holding : Scheduler (List RequestId) := { roomy with externals := Externals.holding }

def holdingStart : SchedulerState (List RequestId) := { start with world := [] }

/-- One request runs and another waits for its turn. -/
theorem forcedResetSucceeds_running : ∃ history s, SchedulerRun holding holdingStart history s ∧
    s.running = [0] ∧ s.world = ["a"] ∧ holding.ForcedResetSucceeds false s := by
  have hplayed : ∃ p ∈ holding.play holdingStart
      [.op (.addRequest (.text "a" [1, 2, 3] 8 false)), .op .schedule, .deliver 0 [("a", [4])],
        .op (.addRequest (.text "b" [5, 6] 8 false))],
      p.2.running = [0] ∧ p.2.world = ["a"] ∧
        (∀ x ∈ p.2.running, (p.2.objs x).status = .running) ∧
        (∀ reqId ∈ p.2.world, ∃ x ∈ p.2.running, (p.2.objs x).requestId = reqId) ∧
        ∀ x ∈ p.2.requests.values, (p.2.objs x).status.isPaused = true →
          (p.2.objs x).numComputedTokens = 0 := by
    decide +kernel
  obtain ⟨⟨history, s⟩, hhistory, hrunning, hworld, hstatus, hholders, hpaused⟩ := hplayed
  refine ⟨history, s, run_of_play (Option.mem_def.mp hhistory), hrunning, hworld, ?_⟩
  refine (forcedResetSucceeds_iff Externals.holding_tracksBlocks false s).mpr
    ⟨⟨hstatus, hrunning ▸ List.nodup_singleton 0⟩, hholders, fun reqId x hget => ?_⟩
  exact hpaused x (Dict.mem_values_iff.mpr ⟨reqId, hget⟩)

/-- **A request that waits for a tool result keeps its blocks**, and the reset raises. -/
theorem forcedReset_fails_while_held :
    ¬ ∀ (W : Type) (self : Scheduler W) (holds : W → RequestId → Prop),
      TracksBlocks self.externals holds → ∀ (objs : Ref → Request)
      (edmmHook : Option EdmmSchedulerHook) (w : W), (∀ reqId, ¬ holds w reqId) →
      ∀ (history : List (SchedulerStep W)) (s : SchedulerState W),
      SchedulerRun self (SchedulerState.init objs edmmHook w) history s →
      (∀ x ∈ s.requests.values, (s.objs x).status ≠ .waitingForRemoteKvs ∧
        (s.objs x).isFinished = false) →
      ∀ resetConnector, self.ForcedResetSucceeds resetConnector s := by
  intro hclaim
  have hplayed : ∃ p ∈ holding.play holdingStart
      [.op (.addRequest (.text "a" [1, 2, 3] 8 false)), .op .schedule, .deliver 0 [("a", [4])],
        .op (.holdForToolCall "a" ⟨0, none, 0⟩)],
      p.2.running = [] ∧ "a" ∈ p.2.world ∧
        ∀ x ∈ p.2.requests.values, (p.2.objs x).status ≠ .waitingForRemoteKvs ∧
          (p.2.objs x).isFinished = false := by
    decide +kernel
  obtain ⟨⟨history, s⟩, hhistory, hrunning, hholds, hpremises⟩ := hplayed
  have hsucceeds := hclaim _ holding _ Externals.holding_tracksBlocks _ _ [] (by simp) history s
    (run_of_play (Option.mem_def.mp hhistory)) hpremises false
  have hready := ForcedResetSucceeds.ready Externals.holding_tracksBlocks hsucceeds
  obtain ⟨x, hx, -⟩ := hready.holders "a" hholds
  rw [hrunning] at hx
  cases hx

end Scheduler

end Edmm
