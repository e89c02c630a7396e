/-
  Edmm/LoopBounds.lean
  ====================
  **The loops of the scheduler end.**

  The two loops of `schedule()`, the loop that preempts until a request fits, and the
  loop of `reset_prefix_cache()` each make a variant smaller: the requests of `running`
  that are not looked at yet, the requests that wait, and the requests of `running`.
  So each `while` loop ends from every state, whatever the collaborators answer, and the
  bounds of the model's loops cut nothing off (`loops_end`).

  On the way, `WaitingTurn` says what one turn of the WAITING loop does to the queues.
-/
import Edmm.Registry

namespace Edmm

open Program

variable {W : Type}

namespace Scheduler

variable {self : Scheduler W}

/-! ## 1. The RUNNING loop -/

/-- The requests that the RUNNING loop has not looked at yet. -/
def unexamined (s : SchedulerState W) (l : StepLocals) : Nat := s.running.length - l.reqIndex

theorem popPreemptionVictim_unexamined (s : SchedulerState W) (l : StepLocals) :
    wp (self.popPreemptionVictim l)
      (fun victim s' => unexamined s' victim.2 ≤ unexamined s l ∧
        s'.running.length < s.running.length)
      (fun _ _ => True) s := by
  apply wp_mono (self.popPreemptionVictim_wp s l) _ (fun _ _ _ => trivial)
  rintro victim s' ⟨rest, hperm, rfl, hlocals⟩
  have hlength : s.running.length = rest.length + 1 := hperm.length_eq
  dsimp only [unexamined]
  rcases hlocals with hsame | ⟨numTokens, hdropped⟩
  · rw [hsame]
    omega
  · rw [hdropped]
    dsimp only [dropScheduled]
    omega

/-- The request that is looked at, or a victim that was: either way less is left. -/
theorem allocateOrPreempt_unexamined (request : Ref) (numNewTokens : Int) (bound : Nat)
    (s : SchedulerState W) (l : StepLocals) :
    wp (self.allocateOrPreempt request numNewTokens bound l)
      (fun allocated s' => unexamined s' allocated.2 ≤ unexamined s l) (fun _ _ => True) s := by
  induction bound generalizing s l with
  | zero => exact le_refl _
  | succ bound ih =>
    unfold allocateOrPreempt
    rw [wp_bind, wp_getRequest, wp_bind, wp_callWorld]
    split
    · exact le_refl _
    · rw [wp_bind]
      apply wp_mono (popPreemptionVictim_unexamined _ l) _ (fun _ _ _ => trivial)
      rintro ⟨victim, l'⟩ s' ⟨hless, _⟩
      rw [wp_bind]
      apply self.preemptRequest_wp
      · intro _ w
        split
        · exact hless
        · exact wp_mono_ok (ih _ _) fun _ _ hrest => hrest.trans hless
      · exact fun _ => trivial

/-- A turn of the loop that preempts until the request fits. -/
def allocateTurn (self : Scheduler W) (request : Ref) (numNewTokens : Int) (l : StepLocals) :
    SchedM W (Turn StepLocals (Option KVCacheBlocks × StepLocals)) := do
  let r ← getRequest request
  let newBlocks ← callWorld fun w => self.externals.allocateSlots w r
    { numNewTokens
      numNewComputedTokens := 0
      newComputedBlocks := self.externals.emptyKvCacheBlocks
      numLookaheadTokens := self.numLookaheadTokens
      numExternalComputedTokens := 0
      delayCacheBlocks := false
      numEncoderTokens := 0
      fullSequenceMustFit := false }
  match newBlocks with
  | some blocks => pure (.done (some blocks, l))
  | none => do
      let victim ← self.popPreemptionVictim l
      self.preemptRequest victim.1
      let l := { victim.2 with preemptedReqs := victim.2.preemptedReqs ++ [victim.1] }
      pure (if victim.1 = request then .done (none, l) else .again l)

/-- In the end the request itself is preempted. -/
theorem allocateOrPreempt_ends {request : Ref} (numNewTokens : Int) {s : SchedulerState W}
    (l : StepLocals) (hrequest : request ∈ s.running) :
    LoopEnds (self.allocateTurn request numNewTokens) l s
      (self.allocateOrPreempt request numNewTokens s.running.length l s) := by
  apply loopEnds_of_variant (self.allocateOrPreempt request numNewTokens)
    (fun _ s => request ∈ s.running) (fun _ s => s.running.length) _ _ _ hrequest (le_refl _)
  · intro bound l
    unfold allocateOrPreempt allocateTurn
    rw [bind_assoc]
    apply bind_congr
    intro r
    rw [bind_assoc]
    apply bind_congr
    intro newBlocks
    cases newBlocks with
    | some blocks => rfl
    | none =>
      dsimp only
      rw [bind_assoc]
      apply bind_congr
      intro victim
      rw [bind_assoc]
      apply bind_congr
      intro _
      rw [pure_bind]
      split
      · rfl
      · rfl
  · intro l s hrequest hnone
    rw [List.length_eq_zero_iff.mp hnone] at hrequest
    cases hrequest
  · intro l s hrequest
    unfold allocateTurn
    rw [wp_bind, wp_getRequest, wp_bind, wp_callWorld]
    split
    · rintro l' ⟨⟩
    · rw [wp_bind]
      apply wp_mono (self.popPreemptionVictim_wp _ l) _ (fun _ _ _ => trivial)
      rintro victim _ ⟨rest, hperm, rfl, _⟩
      have hlength : s.running.length = rest.length + 1 := hperm.length_eq
      rw [wp_bind]
      apply self.preemptRequest_wp
      · intro _ w
        dsimp only [wp_pure]
        rintro l' hagain
        split at hagain
        · cases hagain
        · rename_i hother
          refine ⟨(List.mem_cons.mp (hperm.mem_iff.mp hrequest)).resolve_left (Ne.symm hother), ?_⟩
          rw [hlength]
          exact Nat.lt_succ_self _
      · exact fun _ => trivial

theorem runningStep_unexamined {s : SchedulerState W} {l : StepLocals} (request : Ref)
    (hsome : 0 < unexamined s l) :
    wp (self.runningStep l request)
      (fun control s' => ∀ l', control = .next l' → unexamined s' l' < unexamined s l)
      (fun _ _ => True) s := by
  have hpass : ∀ w : W, unexamined { s with world := w } { l with reqIndex := l.reqIndex + 1 } <
      unexamined s l := by
    intro w
    unfold unexamined at hsome ⊢
    dsimp only
    omega
  unfold runningStep
  rw [wp_bind, wp_getRequest]
  split
  · rintro l' ⟨⟩
    exact hpass s.world
  rw [wp_bind]
  apply wp_mono (self.planEncoderInputs_touches _ _ _ _ s) _ (fun _ _ _ => trivial)
  rintro plan s' ⟨_, w, rfl⟩
  have hsplit : TouchesWorld
      (if self.needMambaBlockAlignedSplit then
        self.mambaBlockAlignedSplit (s.objs request) plan.numNewTokens 0 0
      else pure plan.numNewTokens : SchedM W Int) fun _ => True := by
    split
    · exact (self.mambaBlockAlignedSplit_touches _ _ _ _).mono fun _ _ => trivial
    · exact TouchesWorld.pure trivial
  rw [wp_bind]
  apply wp_mono (hsplit _) _ (fun _ _ _ => trivial)
  rintro n s' ⟨_, w', rfl⟩
  split
  · rintro l' ⟨⟩
    exact hpass w'
  rw [wp_bind, wp_get, wp_bind]
  apply wp_mono (allocateOrPreempt_unexamined request n _ _ l) _ (fun _ _ _ => trivial)
  rintro ⟨newBlocks, l₁⟩ s₁ hrest
  cases newBlocks with
  | none =>
    rintro l' ⟨⟩
  | some blocks =>
    dsimp only
    unfold scheduleRunning
    rw [wp_bind, wp_bind, wp_getRequest, wp_bind, wp_modifyRequest]
    apply wp_mono (self.scheduleEncoderInputs_touches request _ _ _ _) _ (fun _ _ _ => trivial)
    rintro l₂ s₂ ⟨⟨inputs, budget, rfl⟩, w₂, rfl⟩
    rintro l' ⟨⟩
    have hless : s₁.running.length - l₁.reqIndex ≤ s.running.length - l.reqIndex := hrest
    unfold unexamined at hsome ⊢
    simp only [addRunning, SchedulerState.running_updateRequest]
    omega

/-- A turn of the RUNNING loop, with its test. -/
def runningTurn (self : Scheduler W) (l : StepLocals) : SchedM W (Turn StepLocals StepLocals) := do
  let s ← get
  match s.running[l.reqIndex]? with
  | none => pure (.done l)
  | some request =>
      if l.tokenBudget > 0 then do
        match ← self.runningStep l request with
        | .stop l => pure (.done l)
        | .next l => pure (.again l)
      else pure (.done l)

theorem runningLoop_ends {bound : Nat} {s : SchedulerState W} {l : StepLocals}
    (hbound : unexamined s l ≤ bound) : LoopEnds self.runningTurn l s (self.runningLoop bound l s) := by
  have hloop : ∀ bound l, self.runningLoop (bound + 1) l =
      self.runningTurn l >>= afterTurn (self.runningLoop bound) := by
    intro bound l
    unfold runningLoop runningTurn
    rw [bind_assoc]
    apply bind_congr
    intro s
    cases s.running[l.reqIndex]? with
    | none => rfl
    | some request =>
      dsimp only
      split
      · rw [bind_assoc]
        apply bind_congr
        intro control
        cases control <;> rfl
      · rfl
  apply loopEnds_of_variant self.runningLoop (fun _ _ => True) (fun l s => unexamined s l) hloop _ _
    trivial hbound
  · intro l s _ hnone
    have hend : s.running[l.reqIndex]? = none := by
      apply List.getElem?_eq_none
      unfold unexamined at hnone
      omega
    unfold runningLoop
    rw [run_get_bind, hend]
  · intro l s _
    unfold runningTurn
    rw [wp_bind, wp_get]
    split
    · rintro l' ⟨⟩
    rename_i request hrequest
    split
    · have hsome : 0 < unexamined s l := by
        have hlt := (List.getElem?_eq_some_iff.mp hrequest).1
        unfold unexamined
        omega
      rw [wp_bind]
      apply wp_mono_ok (runningStep_unexamined request hsome)
      intro control s' hless
      cases control with
      | stop l' => rintro l' ⟨⟩
      | next l' =>
        rintro l' ⟨⟩
        exact ⟨trivial, hless l' rfl⟩
    · rintro l' ⟨⟩

/-! ## 2. The WAITING loop -/

/-- No request changes its place; only `request` changes at all, and nothing that orders
    the requests. -/
structure SamePlaces (request : Ref) (s s' : SchedulerState W) : Prop where
  running : s'.running = s.running
  waiting : s'.waiting = s.waiting
  skippedWaiting : s'.skippedWaiting = s.skippedWaiting
  others : ∀ x ≠ request, s'.objs x = s.objs x
  priority : (s'.objs request).priority = (s.objs request).priority
  arrivalTime : (s'.objs request).arrivalTime = (s.objs request).arrivalTime
  requestId : (s'.objs request).requestId = (s.objs request).requestId
  loraRequest : (s'.objs request).loraRequest = (s.objs request).loraRequest

theorem SamePlaces.of_objs {request : Ref} {s s' : SchedulerState W}
    (hrunning : s'.running = s.running) (hwaiting : s'.waiting = s.waiting)
    (hskipped : s'.skippedWaiting = s.skippedWaiting) (hobjs : s'.objs = s.objs) :
    SamePlaces request s s' := by
  constructor <;> simp [hrunning, hwaiting, hskipped, hobjs]

theorem SamePlaces.refl (request : Ref) (s : SchedulerState W) : SamePlaces request s s :=
  SamePlaces.of_objs rfl rfl rfl rfl

theorem SamePlaces.trans {request : Ref} {s s' s'' : SchedulerState W}
    (h : SamePlaces request s s') (h' : SamePlaces request s' s'') :
    SamePlaces request s s'' where
  running := h'.running.trans h.running
  waiting := h'.waiting.trans h.waiting
  skippedWaiting := h'.skippedWaiting.trans h.skippedWaiting
  others x hx := (h'.others x hx).trans (h.others x hx)
  priority := h'.priority.trans h.priority
  arrivalTime := h'.arrivalTime.trans h.arrivalTime
  requestId := h'.requestId.trans h.requestId
  loraRequest := h'.loraRequest.trans h.loraRequest

theorem SamePlaces.queue {request : Ref} {s s' : SchedulerState W} (h : SamePlaces request s s')
    (which : WaitingQueue) : queue s' which = queue s which := by
  cases which with
  | waiting => exact h.waiting
  | skippedWaiting => exact h.skippedWaiting

theorem SamePlaces.updateRequest {s : SchedulerState W} {request : Ref} {f : Request → Request}
    (hpriority : (f (s.objs request)).priority = (s.objs request).priority)
    (harrivalTime : (f (s.objs request)).arrivalTime = (s.objs request).arrivalTime)
    (hrequestId : (f (s.objs request)).requestId = (s.objs request).requestId)
    (hloraRequest : (f (s.objs request)).loraRequest = (s.objs request).loraRequest) :
    SamePlaces request s (s.updateRequest request f) := by
  constructor
  · rfl
  · rfl
  · rfl
  · intro x hx
    rw [SchedulerState.objs_updateRequest, if_neg hx]
  all_goals rw [SchedulerState.objs_updateRequest, if_pos rfl]; assumption

theorem Promotion.samePlaces {s s' : SchedulerState W} {request : Ref}
    (h : self.Promotion s request s') : SamePlaces request s s' := by
  have hrest : ∀ {s₁ : SchedulerState W} {f : Request → Request},
      SamePlaces request s₁ (s₁.updateRequest request f) → SamePlaces request s s₁ →
      SamePlaces request s (s₁.updateRequest request f) := fun hupdated hsame => hsame.trans hupdated
  cases h with
  | remoteKvs loaded w finishedRecving failedRecving hconnector hstatus hloaded =>
    refine hrest ?_ (SamePlaces.of_objs rfl rfl rfl rfl)
    rcases hloaded with rfl | rfl
    · exact SamePlaces.updateRequest rfl rfl rfl rfl
    · exact SamePlaces.updateRequest rfl rfl rfl rfl
  | grammar hstatus =>
    exact hrest (SamePlaces.updateRequest rfl rfl rfl rfl) (SamePlaces.of_objs rfl rfl rfl rfl)
  | toolCall hstatus henabled hhook hready =>
    exact hrest (SamePlaces.updateRequest rfl rfl rfl rfl) (SamePlaces.of_objs rfl rfl rfl rfl)

/-- Why a request is put aside: it is blocked, or enough LoRAs are in use already, or a
    KV connector lets it wait. -/
inductive AsideReason (self : Scheduler W) (s : SchedulerState W) (l : StepLocals)
    (request : Ref) : Prop where
  | blocked (h : (s.objs request).status.isBlockedWaitingStatus = true)
  | loras (h : self.exceedsMaxLoras l (s.objs request))
  | connector (h : self.hasConnector = true)

theorem AsideReason.of_samePlaces {s before : SchedulerState W} {l : StepLocals} {request : Ref}
    (h : SamePlaces request s before)
    (hblocked : (before.objs request).status.isBlockedWaitingStatus = true →
      (s.objs request).status.isBlockedWaitingStatus = true)
    (hreason : AsideReason self before l request) : AsideReason self s l request := by
  cases hreason with
  | blocked hstatus => exact .blocked (hblocked hstatus)
  | loras hexceeds =>
    apply AsideReason.loras
    rw [exceedsMaxLoras] at hexceeds ⊢
    rw [← h.loraRequest]
    exact hexceeds
  | connector hconnector => exact .connector hconnector

/-- One turn of the WAITING loop that looked at `request`, the head of the queue `which`. -/
inductive WaitingTurn (self : Scheduler W) (s : SchedulerState W) (l : StepLocals)
    (which : WaitingQueue) (request : Ref) : LoopControl → SchedulerState W → Prop where
  | stop {s' : SchedulerState W} (h : SamePlaces request s s') :
      WaitingTurn self s l which request (.stop l) s'
  /-- The request is put aside. -/
  | aside {before s' : SchedulerState W} {l' : StepLocals} (h : SamePlaces request s before)
      (hpop : SamePlaces request (self.popRequest which before) s')
      (haside : l'.stepSkippedWaiting.Perm (request :: l.stepSkippedWaiting))
      (hreason : AsideReason self s l request) :
      WaitingTurn self s l which request (.next l') s'
  /-- The request is taken into `running`. -/
  | admitted {before s' : SchedulerState W} {l' : StepLocals} (h : SamePlaces request s before)
      (hpop : SamePlaces request
        { self.popRequest which before with running := before.running ++ [request] } s')
      (haside : l'.stepSkippedWaiting = l.stepSkippedWaiting) :
      WaitingTurn self s l which request (.next l') s'

theorem WaitingTurn.of_samePlaces {s before s' : SchedulerState W} {l : StepLocals}
    {which : WaitingQueue} {request : Ref} {control : LoopControl}
    (h : SamePlaces request s before)
    (hblocked : (before.objs request).status.isBlockedWaitingStatus = true →
      (s.objs request).status.isBlockedWaitingStatus = true)
    (hturn : WaitingTurn self before l which request control s') :
    WaitingTurn self s l which request control s' := by
  cases hturn with
  | stop h' => exact .stop (h.trans h')
  | aside h' hpop haside hreason =>
    exact .aside (h.trans h') hpop haside (hreason.of_samePlaces h hblocked)
  | admitted h' hpop haside => exact .admitted (h.trans h') hpop haside

section
variable {s : SchedulerState W} {which : WaitingQueue} {request : Ref}

theorem skipRequest_turn {l : StepLocals} (hreason : AsideReason self s l request) :
    wp (self.skipRequest which request l)
      (fun control s' => WaitingTurn self s l which request control s') (fun _ _ => False) s := by
  unfold skipRequest
  rw [wp_bind, wp_modify, wp_bind, wp_get, wp_pure]
  exact .aside (SamePlaces.refl request s) (SamePlaces.refl request _)
    (self.requestQueue.prependRequest_perm _ _ _) hreason

theorem loadAsync_turn (found : ComputedTokens) {l : StepLocals}
    (hconnector : self.hasConnector = true) :
    wp (self.loadAsync which request found l)
      (fun control s' => WaitingTurn self s l which request control s') (fun _ _ => False) s := by
  unfold loadAsync
  rw [wp_bind, wp_modify, wp_bind, wp_setStatus, wp_bind, wp_get, wp_bind, wp_modifyRequest,
    wp_pure]
  have hstatus : SamePlaces request (self.popRequest which s)
      ((self.popRequest which s).updateRequest request
        fun r => { r with status := .waitingForRemoteKvs }) :=
    SamePlaces.updateRequest rfl rfl rfl rfl
  exact .aside (SamePlaces.refl request s)
    (hstatus.trans (SamePlaces.updateRequest rfl rfl rfl rfl))
    (self.requestQueue.prependRequest_perm _ _ _) (.connector hconnector)

theorem admitWaiting_turn (found : ComputedTokens) (plan : EncoderPlan) (l : StepLocals) :
    wp (self.admitWaiting which request found plan l)
      (fun control s' => WaitingTurn self s l which request control s') (fun _ _ => True) s := by
  unfold admitWaiting
  rw [wp_bind, wp_modify, wp_bind, wp_modify, wp_bind, wp_get, wp_bind, wp_pyAssert]
  refine ⟨fun _ => ?_, fun _ => trivial⟩
  rw [wp_bind, wp_modifyRequest, wp_bind]
  apply wp_mono (self.scheduleEncoderInputs_touches request _ plan _ _) _ (fun _ _ _ => trivial)
  rintro l' s' ⟨⟨inputs, budget, rfl⟩, w, rfl⟩
  refine .admitted (SamePlaces.refl request s) ?_ rfl
  have hupdated : SamePlaces request
      { self.popRequest which s with running := s.running ++ [request] }
      (SchedulerState.updateRequest
        { self.popRequest which s with running := s.running ++ [request] } request
        fun r => { r with status := .running, numComputedTokens := found.numComputedTokens }) :=
    SamePlaces.updateRequest rfl rfl rfl rfl
  rw [running_popRequest]
  exact hupdated.trans (SamePlaces.of_objs rfl rfl rfl rfl)

/-- Only a KV connector can leave the lookup without an answer. -/
theorem findComputedTokens_answers (s : SchedulerState W) (request : Ref) :
    wp (self.findComputedTokens request)
      (fun found _ => found = none → self.hasConnector = true) (fun _ _ => True) s := by
  unfold findComputedTokens
  rw [wp_bind, wp_getRequest, wp_ite]
  constructor
  swap
  · intro _
    rw [wp_pure]
    intro hnone
    cases hnone
  intro _
  rw [wp_bind, wp_record, wp_bind, wp_callWorld, wp_bind]
  cases hconnector : self.hasConnector with
  | true =>
    apply wp_of_run
    · intro matched s' _
      exact wp_of_run (fun _ _ _ _ => rfl) (fun _ _ _ => trivial)
    · exact fun _ _ _ => trivial
  | false =>
    rw [if_neg Bool.false_ne_true, wp_pure]
    dsimp only
    rw [wp_bind, wp_pyAssert]
    refine ⟨fun _ => ?_, fun _ => trivial⟩
    rw [wp_bind, wp_pyAssert]
    refine ⟨fun _ => ?_, fun _ => trivial⟩
    rw [wp_pure]
    intro hnone
    cases hnone

theorem considerRequest_turn {l : StepLocals} (hbudget : 0 < l.tokenBudget) :
    wp (self.considerRequest which request l)
      (fun control s' => WaitingTurn self s l which request control s') (fun _ _ => True) s := by
  have htouched : ∀ (w : W) (trace : List SchedulerEvent),
      SamePlaces request s { s with world := w, trace } :=
    fun _ _ => SamePlaces.of_objs rfl rfl rfl rfl
  have hturn : ∀ {s₁ : SchedulerState W} {prog : SchedM W LoopControl}, SamePlaces request s s₁ →
      s₁.objs = s.objs →
      wp prog (fun control s' => WaitingTurn self s₁ l which request control s')
        (fun _ _ => True) s₁ →
      wp prog (fun control s' => WaitingTurn self s l which request control s')
        (fun _ _ => True) s₁ :=
    fun hsame hobjs hprog => wp_mono_ok hprog fun _ _ h =>
      h.of_samePlaces hsame fun hblocked => by rwa [hobjs] at hblocked
  unfold considerRequest
  rw [wp_bind, wp_getRequest]
  split
  · rename_i hexceeds
    exact wp_mono_of_returns (skipRequest_turn (.loras hexceeds)) fun _ _ h => h
  rw [wp_bind]
  apply wp_mono (wp_and (self.findComputedTokens_wp s request)
    (findComputedTokens_answers s request)) _ (fun _ _ _ => trivial)
  rintro found s' ⟨⟨hlookup, hsame, hfound⟩, hanswers⟩
  obtain ⟨w, trace, rfl⟩ : ∃ w trace, s' = { s with world := w, trace } := by
    by_cases hcomputed : (s.objs request).numComputedTokens = 0
    · obtain ⟨w, hs'⟩ := hlookup hcomputed
      exact ⟨w, _, hs'⟩
    · exact ⟨s.world, s.trace, hsame hcomputed⟩
  cases found with
  | none =>
    apply hturn (htouched w trace) rfl
    exact wp_mono_of_returns (skipRequest_turn (.connector (hanswers rfl))) fun _ _ h => h
  | some found =>
    dsimp only
    rw [wp_bind]
    apply wp_mono (self.planWaiting_wp _ l (s.objs request) found hbudget) _
      (fun _ _ _ => trivial)
    rintro plan s' ⟨_, w', rfl⟩
    cases plan with
    | none => exact .stop (htouched w' trace)
    | some plan =>
      dsimp only
      rw [wp_bind]
      apply wp_mono (self.allocateWaiting_touches _ found plan _) _ (fun _ _ _ => trivial)
      rintro allocated s' ⟨_, w'', rfl⟩
      split
      · exact .stop (htouched w'' trace)
      apply hturn (htouched w'' trace) rfl
      split
      · rename_i hload
        have hconnector := ((hfound found rfl).2.1 hload).1
        exact wp_mono_of_returns (loadAsync_turn found hconnector) fun _ _ h => h
      · exact admitWaiting_turn found plan l

end

/-- **Inversion of a turn of the WAITING loop.** -/
theorem waitingStep_turn (s : SchedulerState W) {l : StepLocals} (hbudget : 0 < l.tokenBudget) :
    wp (self.waitingStep l)
      (fun control s' => ∃ which request,
        self.selectWaitingQueueForScheduling s = some which ∧
        (queue s which).head? = some request ∧
        WaitingTurn self s l which request control s')
      (fun _ _ => True) s := by
  unfold waitingStep
  rw [wp_bind, wp_get]
  split
  · trivial
  rename_i which hselect
  split
  · trivial
  rename_i request hhead
  rw [wp_bind, wp_record, wp_bind]
  have hrecorded : SamePlaces request s (s.record (.examined request)) :=
    SamePlaces.of_objs rfl rfl rfl rfl
  have hconsidered : ∀ {s₁ : SchedulerState W}, SamePlaces request s s₁ →
      ((s₁.objs request).status.isBlockedWaitingStatus = true →
        (s.objs request).status.isBlockedWaitingStatus = true) →
      wp (self.considerRequest which request l)
        (fun control s' => ∃ which request,
          self.selectWaitingQueueForScheduling s = some which ∧
          (queue s which).head? = some request ∧
          WaitingTurn self s l which request control s')
        (fun _ _ => True) s₁ := by
    intro s₁ hsame hstatus
    apply wp_mono_ok (considerRequest_turn hbudget)
    exact fun control s' hturn =>
      ⟨which, request, hselect, hhead, hturn.of_samePlaces hsame hstatus⟩
  by_cases hblocked : (s.objs request).status.isBlockedWaitingStatus = true
  · rw [if_pos hblocked]
    apply wp_mono (self.tryPromote_wp (s.record (.examined request)) request hblocked) _
      (fun _ _ _ => trivial)
    intro promoted s' hpromoted
    cases promoted with
    | false =>
      rw [if_neg Bool.false_ne_true] at hpromoted
      rw [if_pos rfl, hpromoted]
      have hreason : AsideReason self (s.record (.examined request)) l request := .blocked hblocked
      apply wp_mono_of_returns (skipRequest_turn hreason)
      exact fun control s' hturn =>
        ⟨which, request, hselect, hhead, hturn.of_samePlaces hrecorded id⟩
    | true =>
      rw [if_pos rfl] at hpromoted
      rw [if_neg (by decide)]
      exact hconsidered (hrecorded.trans hpromoted.samePlaces) fun _ => hblocked
  · rw [if_neg hblocked, wp_pure, if_neg (by decide)]
    exact hconsidered hrecorded fun hstatus => hstatus

/-- The requests that wait. -/
def numWaiting (s : SchedulerState W) : Nat := s.waiting.length + s.skippedWaiting.length

theorem numWaiting_popRequest (self : Scheduler W) {s : SchedulerState W} {which : WaitingQueue}
    {request : Ref}
    (hhead : (queue s which).head? = some request) :
    numWaiting (self.popRequest which s) < numWaiting s := by
  obtain ⟨rest, hqueue⟩ := List.head?_eq_some_iff.mp hhead
  have hlength := (self.requestQueue.popRest_perm s.objs (queue s which)).length_eq
  rw [hqueue] at hlength
  cases which with
  | waiting =>
    have hwaiting : s.waiting = request :: rest := hqueue
    simp only [numWaiting, popRequest, hwaiting]
    simp only [List.tail_cons] at hlength
    simp [hlength]
  | skippedWaiting =>
    have hskipped : s.skippedWaiting = request :: rest := hqueue
    simp only [numWaiting, popRequest, hskipped]
    simp only [List.tail_cons] at hlength
    simp [hlength]

theorem WaitingTurn.numWaiting_lt {s s' : SchedulerState W} {l l' : StepLocals}
    {which : WaitingQueue} {request : Ref}
    (h : WaitingTurn self s l which request (.next l') s')
    (hhead : (queue s which).head? = some request) : numWaiting s' < numWaiting s := by
  have hpopped : ∀ {before : SchedulerState W}, SamePlaces request s before →
      numWaiting (self.popRequest which before) < numWaiting s := by
    intro before hsame
    have hless := self.numWaiting_popRequest ((congrArg _ (hsame.queue which)).trans hhead)
    unfold numWaiting at hless ⊢
    rw [hsame.waiting, hsame.skippedWaiting] at hless
    exact hless
  cases h with
  | aside h hpop haside hreason =>
    unfold numWaiting
    rw [hpop.waiting, hpop.skippedWaiting]
    exact hpopped h
  | admitted h hpop haside =>
    unfold numWaiting
    rw [hpop.waiting, hpop.skippedWaiting]
    exact hpopped h

/-- A turn of the WAITING loop, with its test. -/
def waitingTurn (self : Scheduler W) (l : StepLocals) : SchedM W (Turn StepLocals StepLocals) := do
  let s ← get
  if (s.waiting ≠ [] ∨ s.skippedWaiting ≠ []) ∧ l.tokenBudget > 0 then
    if s.running.length = self.maxNumRunningReqs then pure (.done l)
    else do
      match ← self.waitingStep l with
      | .stop l => pure (.done l)
      | .next l => pure (.again l)
  else pure (.done l)

theorem waitingLoop_ends {bound : Nat} {s : SchedulerState W} (l : StepLocals)
    (hbound : numWaiting s ≤ bound) : LoopEnds self.waitingTurn l s (self.waitingLoop bound l s) := by
  have hloop : ∀ bound l, self.waitingLoop (bound + 1) l =
      self.waitingTurn l >>= afterTurn (self.waitingLoop bound) := by
    intro bound l
    unfold waitingLoop waitingTurn
    rw [bind_assoc]
    apply bind_congr
    intro s
    split
    · split
      · rfl
      · rw [bind_assoc]
        apply bind_congr
        intro control
        cases control <;> rfl
    · rfl
  apply loopEnds_of_variant self.waitingLoop (fun _ _ => True) (fun _ s => numWaiting s) hloop _ _
    trivial hbound
  · intro l s _ hnone
    unfold numWaiting at hnone
    have hwaiting : s.waiting = [] := List.length_eq_zero_iff.mp (by omega)
    have hskipped : s.skippedWaiting = [] := List.length_eq_zero_iff.mp (by omega)
    unfold waitingLoop
    rw [run_get_bind, if_neg (by simp [hwaiting, hskipped])]
  · intro l s _
    unfold waitingTurn
    rw [wp_bind, wp_get]
    split
    · rename_i hcontinue
      split
      · rintro l' ⟨⟩
      · rw [wp_bind]
        apply wp_mono_ok (waitingStep_turn s hcontinue.2)
        rintro control s' ⟨which, request, _, hhead, hturn⟩
        cases control with
        | stop l' => rintro l' ⟨⟩
        | next l' =>
          rintro l' ⟨⟩
          exact ⟨trivial, hturn.numWaiting_lt hhead⟩
    · rintro l' ⟨⟩

/-! ## 3. The loop of `reset_prefix_cache()` -/

/-- A turn of `while self.running`. -/
def resetTurn (self : Scheduler W) (_ : Unit) : SchedM W (Turn Unit Unit) := do
  let s ← get
  match s.running.getLast? with
  | none => pure (.done ())
  | some request => do
      modify fun s => { s with running := s.running.dropLast }
      self.preemptRequest request
      modifyRequest request fun r =>
        { r with
          asyncTokensToDiscard := r.numOutputPlaceholders
          numOutputPlaceholders := 0 }
      pure (.again ())

theorem preemptAllRunning_ends (s : SchedulerState W) :
    LoopEnds self.resetTurn () s (self.preemptAllRunning s.running.length s) := by
  have hloop : ∀ (bound : Nat) (u : Unit), self.preemptAllRunning (bound + 1) =
      self.resetTurn u >>= afterTurn fun _ => self.preemptAllRunning bound := by
    intro bound u
    conv_lhs => unfold preemptAllRunning
    unfold resetTurn
    rw [bind_assoc]
    apply bind_congr
    intro s
    cases s.running.getLast? with
    | none => rfl
    | some request =>
      dsimp only
      rw [bind_assoc]
      apply bind_congr
      intro _
      rw [bind_assoc]
      apply bind_congr
      intro _
      rw [bind_assoc]
      apply bind_congr
      intro _
      rw [pure_bind]
      rfl
  apply loopEnds_of_variant (fun bound (_ : Unit) => self.preemptAllRunning bound) (fun _ _ => True)
    (fun _ s => s.running.length) hloop _ _ trivial (le_refl _)
  · intro _ s _ hnone
    unfold preemptAllRunning
    rw [run_get_bind, List.length_eq_zero_iff.mp hnone]
    rfl
  · intro _ s _
    unfold resetTurn
    rw [wp_bind, wp_get]
    split
    · rintro _ ⟨⟩
    · rename_i request hlast
      have hsome : s.running ≠ [] := by
        intro hnil
        rw [hnil] at hlast
        cases hlast
      rw [wp_bind, wp_modify, wp_bind]
      apply self.preemptRequest_wp
      · intro _ w
        rw [wp_bind, wp_modifyRequest, wp_pure]
        rintro _ ⟨⟩
        refine ⟨trivial, ?_⟩
        have hless : s.running.dropLast.length < s.running.length := by
          rw [List.length_dropLast]
          exact Nat.sub_lt (List.length_pos_iff.mpr hsome) Nat.one_pos
        exact hless
      · exact fun _ => trivial

/-- **Every loop of the scheduler ends**, from every state and whatever the collaborators
    answer, with the result of the model's loop. -/
theorem loops_end (s : SchedulerState W) (l : StepLocals) :
    LoopEnds self.runningTurn l s (self.runningLoop s.running.length l s) ∧
      LoopEnds self.waitingTurn l s
        (self.waitingLoop (s.waiting.length + s.skippedWaiting.length) l s) ∧
      (∀ request ∈ s.running, ∀ numNewTokens,
        LoopEnds (self.allocateTurn request numNewTokens) l s
          (self.allocateOrPreempt request numNewTokens s.running.length l s)) ∧
      LoopEnds self.resetTurn () s (self.preemptAllRunning s.running.length s) :=
  ⟨runningLoop_ends (Nat.sub_le _ _), waitingLoop_ends l (le_refl _),
    fun _ hrequest numNewTokens => allocateOrPreempt_ends numNewTokens l hrequest,
    preemptAllRunning_ends s⟩

end Scheduler

end Edmm
