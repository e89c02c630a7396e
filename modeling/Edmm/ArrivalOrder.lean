/-
  Edmm/ArrivalOrder.lean
  ======================
  **Skipping preserves arrival order.**

  With the FCFS policy the WAITING loop walks along `skipped_waiting` and then
  `waiting`.  A request it cannot schedule is put aside, in front of those put
  aside before; after the loop they are put back one by one in front of
  `skipped_waiting`.  The two reversals cancel, so the walk is a `Traversal`: the
  requests put aside, read backwards, are those passed over.
-/
import Edmm.Lib.Traversal
import Edmm.Registry

namespace Edmm

open Program

variable {W : Type}

/-- `skipped_waiting ++ waiting`: the order in which FCFS considers the requests. -/
def arrivals (s : SchedulerState W) : List Ref := s.skippedWaiting ++ s.waiting

namespace Scheduler

variable (self : Scheduler W)

/-- `schedule()` gets to its WAITING loop: it preempted nothing, and the scheduler
    is not paused. -/
def entersWaitingLoop (s : SchedulerState W) : Bool :=
  decide (s.pauseState = .unpaused) &&
    match self.runningLoop s.running.length (self.startLocals s)
      { s with world := self.externals.newStepStarts s.world } with
    | .ok l _ => l.preemptedReqs.isEmpty
    | .error _ _ => false

/-! ### 1. The RUNNING loop -/

variable {self}

/-- As long as nothing is preempted, the RUNNING loop leaves all queues alone. -/
theorem RunningEffect.queues {p p' : Frame W} (h : self.RunningEffect p p')
    (hnone : p'.2.preemptedReqs = []) :
    p.2.preemptedReqs = [] ∧ p'.1.running = p.1.running ∧ arrivals p'.1 = arrivals p.1 := by
  cases h with
  | touch s l w => exact ⟨hnone, rfl, rfl⟩
  | pass s l reqIndex scheduledLoras => exact ⟨hnone, rfl, rfl⟩
  | preempt w hvictim hstatus hlocals => simp at hnone
  | schedule newBlocks w hrunning hsome hbound hlocals =>
    obtain ⟨inputs, budget, rfl⟩ := hlocals
    exact ⟨hnone, rfl, rfl⟩

theorem RunningEffects.queues {p p' : Frame W} (h : self.RunningEffects p p')
    (hnone : p'.2.preemptedReqs = []) :
    p'.1.running = p.1.running ∧ arrivals p'.1 = arrivals p.1 := by
  induction h with
  | refl => exact ⟨rfl, rfl⟩
  | tail _ last ih =>
    obtain ⟨hbefore, hrunning, harrivals⟩ := last.queues hnone
    obtain ⟨hrunning', harrivals'⟩ := ih hbefore
    exact ⟨hrunning.trans hrunning', harrivals.trans harrivals'⟩

/-! ### 2. The WAITING loop -/

/-- The walk of the WAITING loop. -/
def walk (p : Frame W) : Traversal Ref :=
  { taken := p.1.running
    passed := p.2.stepSkippedWaiting.reverse
    ahead := arrivals p.1 }

/-- The walk goes on by some steps. -/
abbrev Walks (p p' : Frame W) : Prop := Relation.ReflTransGen Traversal.Step (walk p) (walk p')

/-- The request is first in line. -/
structure Selected (s : SchedulerState W) (which : WaitingQueue) (request : Ref) : Prop where
  head : (queue s which).head? = some request
  first : which = .waiting → s.skippedWaiting = []

/-- FCFS takes from `waiting` only when `skipped_waiting` is empty. -/
theorem selected_of_fcfs (hpolicy : self.policy = .fcfs) {s : SchedulerState W}
    {which : WaitingQueue} {request : Ref}
    (hselect : self.selectWaitingQueueForScheduling s = some which)
    (hhead : (queue s which).head? = some request) : Selected s which request := by
  refine ⟨hhead, ?_⟩
  rintro rfl
  by_contra hskipped
  simp [selectWaitingQueueForScheduling, hpolicy, hskipped] at hselect

theorem Selected.withWorld {s : SchedulerState W} {which : WaitingQueue} {request : Ref}
    (h : Selected s which request) (w : W) (trace : List SchedulerEvent) :
    Selected { s with world := w, trace } which request := by
  refine ⟨?_, h.first⟩
  cases which <;> exact h.head

/-- `pop_request` steps over the first in line. -/
theorem Selected.arrivals_eq (hqueue : self.requestQueue = fcfsRequestQueue)
    {s : SchedulerState W} {which : WaitingQueue} {request : Ref}
    (h : Selected s which request) :
    arrivals s = request :: arrivals (self.popRequest which s) := by
  obtain ⟨rest, hrest⟩ := List.head?_eq_some_iff.mp h.head
  cases which with
  | waiting =>
    have hwaiting : s.waiting = request :: rest := hrest
    simp [arrivals, popRequest, hqueue, fcfsRequestQueue, h.first rfl, hwaiting]
  | skippedWaiting =>
    have hskipped : s.skippedWaiting = request :: rest := hrest
    simp [arrivals, popRequest, hqueue, fcfsRequestQueue, hskipped]

/-- The first in line is put aside. -/
theorem Selected.walks_aside (hqueue : self.requestQueue = fcfsRequestQueue)
    {s s' : SchedulerState W} {l l' : StepLocals} {which : WaitingQueue} {request : Ref}
    (objs : Ref → Request) (h : Selected s which request)
    (hrunning : s'.running = s.running)
    (harrivals : arrivals s' = arrivals (self.popRequest which s))
    (haside : l'.stepSkippedWaiting =
      self.requestQueue.prependRequest objs l.stepSkippedWaiting request) :
    Walks (s, l) (s', l') := by
  have hstep := Traversal.Step.pass s.running l.stepSkippedWaiting.reverse
    (arrivals (self.popRequest which s)) request
  rw [← h.arrivals_eq hqueue] at hstep
  have hpassed : l'.stepSkippedWaiting.reverse = l.stepSkippedWaiting.reverse ++ [request] := by
    rw [haside, hqueue]
    exact List.reverse_cons
  refine Relation.ReflTransGen.single ?_
  simp only [walk, hrunning, harrivals, hpassed]
  exact hstep

/-- The first in line starts running. -/
theorem Selected.walks_running (hqueue : self.requestQueue = fcfsRequestQueue)
    {s s' : SchedulerState W} {l l' : StepLocals} {which : WaitingQueue} {request : Ref}
    (h : Selected s which request) (hrunning : s'.running = s.running ++ [request])
    (harrivals : arrivals s' = arrivals (self.popRequest which s))
    (haside : l'.stepSkippedWaiting = l.stepSkippedWaiting) : Walks (s, l) (s', l') := by
  have hstep := Traversal.Step.take s.running l.stepSkippedWaiting.reverse
    (arrivals (self.popRequest which s)) request
  rw [← h.arrivals_eq hqueue] at hstep
  refine Relation.ReflTransGen.single ?_
  simp only [walk, hrunning, harrivals, haside]
  exact hstep

variable (self)

theorem skipRequest_walks (hqueue : self.requestQueue = fcfsRequestQueue)
    {s : SchedulerState W} {which : WaitingQueue} {request : Ref} (l : StepLocals)
    (hselected : Selected s which request) :
    wp (self.skipRequest which request l)
      (fun control s' => Walks (s, l) (s', control.locals)) (fun _ _ => True) s := by
  unfold skipRequest
  rw [wp_bind, wp_modify, wp_bind, wp_get, wp_pure]
  exact hselected.walks_aside hqueue _ (self.running_popRequest which s) rfl rfl

theorem loadAsync_walks (hqueue : self.requestQueue = fcfsRequestQueue)
    {s : SchedulerState W} {which : WaitingQueue} {request : Ref} (found : ComputedTokens)
    (l : StepLocals) (hselected : Selected s which request) :
    wp (self.loadAsync which request found l)
      (fun control s' => Walks (s, l) (s', control.locals)) (fun _ _ => True) s := by
  unfold loadAsync
  rw [wp_bind, wp_modify, wp_bind, wp_setStatus, wp_bind, wp_get, wp_bind, wp_modifyRequest,
    wp_pure]
  exact hselected.walks_aside hqueue _ (self.running_popRequest which s) rfl rfl

theorem admitWaiting_walks (hqueue : self.requestQueue = fcfsRequestQueue)
    {s : SchedulerState W} {which : WaitingQueue} {request : Ref} (found : ComputedTokens)
    (plan : EncoderPlan) (l : StepLocals) (hselected : Selected s which request) :
    wp (self.admitWaiting which request found plan l)
      (fun control s' => Walks (s, l) (s', control.locals)) (fun _ _ => True) s := by
  unfold admitWaiting
  rw [wp_bind, wp_modify, wp_bind, wp_modify, wp_bind, wp_get, wp_bind, wp_pyAssert]
  refine ⟨fun _ => ?_, fun _ => trivial⟩
  rw [wp_bind, wp_modifyRequest, wp_bind]
  apply wp_mono (self.scheduleEncoderInputs_touches request _ plan _ _)
  · rintro l' s' ⟨⟨inputs, budget, rfl⟩, w, rfl⟩
    apply hselected.walks_running hqueue
    · simp [running_popRequest]
    · rfl
    · rfl
  · exact fun e s' he => trivial

theorem considerRequest_walks (hqueue : self.requestQueue = fcfsRequestQueue)
    {s : SchedulerState W} {which : WaitingQueue} {request : Ref} (l : StepLocals)
    (hbudget : 0 < l.tokenBudget) (hselected : Selected s which request) :
    wp (self.considerRequest which request l)
      (fun control s' => Walks (s, l) (s', control.locals)) (fun _ _ => True) s := by
  unfold considerRequest
  rw [wp_bind, wp_getRequest]
  split
  · exact self.skipRequest_walks hqueue l hselected
  rw [wp_bind]
  apply wp_mono (self.findComputedTokens_wp s request)
  swap
  · exact fun e s' he => trivial
  rintro found s' ⟨hlookup, hsame, _⟩
  -- finding the computed tokens moves no request
  obtain ⟨w, trace, rfl⟩ : ∃ w trace, s' = { s with world := w, trace } := by
    by_cases hcomputed : (s.objs request).numComputedTokens = 0
    · obtain ⟨w, hs'⟩ := hlookup hcomputed
      exact ⟨w, _, hs'⟩
    · exact ⟨s.world, s.trace, hsame hcomputed⟩
  have hselected' := hselected.withWorld w trace
  cases found with
  | none => exact self.skipRequest_walks hqueue l hselected'
  | some found =>
    dsimp only
    rw [wp_bind]
    apply wp_mono (self.planWaiting_wp _ l (s.objs request) found hbudget)
    swap
    · exact fun e s' he => trivial
    rintro plan s' ⟨_, w', rfl⟩
    cases plan with
    | none => exact Relation.ReflTransGen.refl
    | some plan =>
      dsimp only
      rw [wp_bind]
      apply wp_mono (self.allocateWaiting_touches _ found plan _)
      swap
      · exact fun e s' he => trivial
      rintro allocated s' ⟨_, w'', rfl⟩
      have hselected'' := hselected.withWorld w'' trace
      split
      · exact Relation.ReflTransGen.refl
      split
      · exact self.loadAsync_walks hqueue found l hselected''
      · exact self.admitWaiting_walks hqueue found plan l hselected''

/-- One iteration of the WAITING loop. -/
theorem waitingStep_walks (hqueue : self.requestQueue = fcfsRequestQueue)
    (hpolicy : self.policy = .fcfs) (s : SchedulerState W) (l : StepLocals)
    (hbudget : 0 < l.tokenBudget) :
    wp (self.waitingStep l)
      (fun control s' => Walks (s, l) (s', control.locals)) (fun _ _ => True) s := by
  unfold waitingStep
  rw [wp_bind, wp_get]
  split
  · trivial
  rename_i which hselect
  split
  · trivial
  rename_i request hhead
  rw [wp_bind, wp_record, wp_bind]
  have hselected : Selected (s.record (.examined request)) which request :=
    (selected_of_fcfs hpolicy hselect hhead).withWorld s.world _
  by_cases hblocked : (s.objs request).status.isBlockedWaitingStatus = true
  · rw [if_pos hblocked]
    apply wp_mono (self.tryPromote_wp (s.record (.examined request)) request hblocked)
    swap
    · exact fun e s' he => trivial
    intro promoted s' hpromoted
    cases promoted with
    | false =>
      rw [if_neg Bool.false_ne_true] at hpromoted
      rw [if_pos rfl, hpromoted]
      exact self.skipRequest_walks hqueue l hselected
    | true =>
      rw [if_pos rfl] at hpromoted
      rw [if_neg (by decide)]
      have hrunning : s'.running = s.running := by
        cases hpromoted <;> rfl
      have harrivals : arrivals s' = arrivals s := by
        cases hpromoted <;> rfl
      have hselected' : Selected s' which request := by
        refine ⟨by rw [hpromoted.queue_eq]; exact hselected.head, fun h => ?_⟩
        rw [← hselected.first h]
        exact hpromoted.queue_eq .skippedWaiting
      apply wp_mono (self.considerRequest_walks hqueue l hbudget hselected')
      · intro control s'' hwalks
        simp only [Walks, walk, hrunning, harrivals] at hwalks
        exact hwalks
      · exact fun e s'' he => trivial
  · rw [if_neg hblocked, wp_pure, if_neg (by decide)]
    exact self.considerRequest_walks hqueue l hbudget hselected

theorem waitingLoop_walks (hqueue : self.requestQueue = fcfsRequestQueue)
    (hpolicy : self.policy = .fcfs) (fuel : Nat) (s : SchedulerState W) (l : StepLocals) :
    wp (self.waitingLoop fuel l) (fun l' s' => Walks (s, l) (s', l')) (fun _ _ => True) s := by
  induction fuel generalizing s l with
  | zero => exact Relation.ReflTransGen.refl
  | succ fuel ih =>
    unfold waitingLoop
    rw [wp_bind, wp_get]
    split
    · rename_i hcontinue
      split
      · exact Relation.ReflTransGen.refl
      · rw [wp_bind]
        apply wp_mono (self.waitingStep_walks hqueue hpolicy s l hcontinue.2)
        · intro control s' hwalks
          cases control with
          | stop l' => exact hwalks
          | next l' => exact wp_mono_ok (ih s' l') (fun _ _ h => hwalks.trans h)
        · exact fun e s' he => he
    · exact Relation.ReflTransGen.refl

/-! ### 3. A whole call -/

/-- What is left to do after the WAITING loop moves no request. -/
theorem finishSchedule_queues (s : SchedulerState W) (l : StepLocals) :
    wp (do
        self.checkConstraints l
        let out ← self.makeSchedulerOutput l
        onlyIf (self.hasConnector = true)
          (onWorld fun w => self.externals.buildConnectorMeta w out)
        onlyIf (self.hasEcConnector = true)
          (onWorld fun w => self.externals.ecBuildConnectorMeta w out)
        updateAfterSchedule out)
      (fun _ s' => s'.running = s.running ∧ arrivals s' = arrivals s) (fun _ _ => True) s := by
  rw [wp_bind]
  apply wp_mono (self.checkConstraints_wp s l) _ (fun _ _ _ => trivial)
  rintro _ s' rfl
  rw [wp_bind]
  apply wp_mono (self.makeSchedulerOutput_wp s' l) _ (fun _ _ _ => trivial)
  rintro out s'' ⟨_, w, rfl⟩
  apply wp_buildMeta
  intro w'
  apply wp_mono (updateAfterSchedule_wp _ out) _ (fun _ _ _ => trivial)
  rintro _ s₃ ⟨_, s₄, hadvanced, rfl⟩
  obtain ⟨⟨objs, rfl⟩, _⟩ := hadvanced.unchanged
  exact ⟨rfl, rfl⟩

/-- The requests put aside are put back in front, the last one first. -/
theorem scheduleWaiting_keepsOrder (hqueue : self.requestQueue = fcfsRequestQueue)
    (hpolicy : self.policy = .fcfs) {s : SchedulerState W} {l : StepLocals}
    (hnone : l.preemptedReqs = []) (hunpaused : s.pauseState = .unpaused)
    (haside : l.stepSkippedWaiting = []) :
    wp (self.scheduleWaiting l)
      (fun _ s' => Traversal.KeepsOrder ⟨s.running, [], arrivals s⟩ ⟨s'.running, [], arrivals s'⟩)
      (fun _ _ => True) s := by
  have hstart : walk (s, l) = ⟨s.running, [], arrivals s⟩ := by
    simp [walk, haside]
  unfold scheduleWaiting
  rw [wp_bind, wp_get, if_pos ⟨hnone, hunpaused⟩, wp_bind]
  apply wp_mono (self.waitingLoop_walks hqueue hpolicy _ s l) _ (fun _ _ _ => trivial)
  intro l' s' hwalks
  have hkeeps := Traversal.keepsOrder_of_steps hwalks
  rw [hstart] at hkeeps
  rw [wp_bind, wp_onlyIf]
  constructor
  · intro _
    have hline : (walk (s', l')).line = arrivals { s' with
        skippedWaiting :=
          self.requestQueue.prependRequests s'.objs s'.skippedWaiting l'.stepSkippedWaiting } := by
      simp [walk, Traversal.line, arrivals, hqueue, fcfsRequestQueue]
    exact
      { order := hline ▸ hkeeps.order
        taken := hline ▸ hkeeps.taken }
  · intro hskips
    have hline : (walk (s', l')).line = arrivals s' := by
      simp [walk, Traversal.line, not_not.mp hskips]
    exact
      { order := hline ▸ hkeeps.order
        taken := hline ▸ hkeeps.taken }

variable {self}

/-- **Arrival order.**  In an FCFS `schedule()` call that enters the WAITING loop,
    the requests that were queued before keep their order, and those that are not
    queued any more are the ones appended to `running`. -/
theorem arrivalOrder_schedule (hqueue : self.requestQueue = fcfsRequestQueue)
    (hpolicy : self.policy = .fcfs) {s s' : SchedulerState W} {out : SchedulerOutput}
    (hrun : self.schedule s = .ok out s') (henters : self.entersWaitingLoop s = true) :
    ((arrivals s').filter (· ∈ arrivals s)).Sublist (arrivals s) ∧
      ∃ admitted, s'.running = s.running ++ admitted ∧
        (arrivals s).Perm ((arrivals s').filter (· ∈ arrivals s) ++ admitted) := by
  simp only [entersWaitingLoop, Bool.and_eq_true, decide_eq_true_eq] at henters
  obtain ⟨hunpaused, hnothing⟩ := henters
  -- the RUNNING loop changes no queue
  have hrunning : wp (self.runningLoop s.running.length (self.startLocals s))
      (fun l s₁ => l.preemptedReqs = [] ∧ s₁.pauseState = .unpaused ∧
        l.stepSkippedWaiting = [] ∧ s₁.running = s.running ∧ arrivals s₁ = arrivals s)
      (fun _ _ => False) { s with world := self.externals.newStepStarts s.world } := by
    apply wp_of_run
    · intro l s₁ hloop
      rw [hloop] at hnothing
      have hnone : l.preemptedReqs = [] := List.isEmpty_iff.mp hnothing
      have heffects := wp_ok (self.runningLoop_effects _ _ _) hloop
      have hqueues := heffects.queues hnone
      obtain ⟨hpause, haside⟩ : s₁.pauseState = s.pauseState ∧ l.stepSkippedWaiting = [] :=
        invariant_of_chain
          (I := fun p : Frame W => p.1.pauseState = s.pauseState ∧ p.2.stepSkippedWaiting = [])
          (fun p p' h hp => ⟨h.unchanged.1.trans hp.1, h.unchanged.2.trans hp.2⟩)
          heffects ⟨rfl, rfl⟩
      exact ⟨hnone, hpause.trans hunpaused, haside, hqueues.1, hqueues.2⟩
    · intro e s₁ hloop
      rw [hloop] at hnothing
      cases hnothing
  have hschedule : wp self.schedule
      (fun _ s' => Traversal.KeepsOrder ⟨s.running, [], arrivals s⟩ ⟨s'.running, [], arrivals s'⟩)
      (fun _ _ => True) s := by
    unfold schedule
    rw [wp_bind, wp_get, wp_bind, wp_onWorld, wp_bind]
    apply wp_mono hrunning _ (fun _ _ _ => trivial)
    rintro l s₁ ⟨hnone, hpause, haside, hsame, harrivals⟩
    rw [wp_bind]
    apply wp_mono (self.recordScheduledLoras_wp s₁ l) _ (fun _ _ _ => trivial)
    rintro _ s₂ ⟨rfl, loras, rfl⟩
    rw [wp_bind]
    apply wp_mono (self.scheduleWaiting_keepsOrder (l := { l with scheduledLoras := loras })
      hqueue hpolicy hnone hpause haside) _ (fun _ _ _ => trivial)
    rintro l' s₃ hkeeps
    apply wp_mono (self.finishSchedule_queues s₃ l') _ (fun _ _ _ => trivial)
    rintro _ s₄ ⟨hsame', harrivals'⟩
    rw [hsame', harrivals', ← hsame, ← harrivals]
    exact hkeeps
  have hkeeps := wp_ok hschedule hrun
  have horder : (arrivals s').Sublist (arrivals s) := hkeeps.order
  obtain ⟨admitted, hadmitted, hperm⟩ := hkeeps.taken
  have hall : (arrivals s').filter (· ∈ arrivals s) = arrivals s' :=
    List.filter_eq_self.mpr fun x hx => decide_eq_true (horder.subset hx)
  rw [hall]
  exact ⟨horder, admitted, hadmitted, hperm⟩

/-- With room for two requests: the first one waits for its tool and is skipped, the
    next two start, the last one does not fit any more. -/
theorem arrivalOrder_schedule_blocked : ∃ s out s',
    { roomy with maxNumRunningReqs := 2 }.schedule s = .ok out s' ∧ arrivals s = [0, 1, 2, 3] ∧
      arrivals s' = [0, 3] ∧ ((arrivals s').filter (· ∈ arrivals s)).Sublist (arrivals s) ∧
      ∃ admitted, s'.running = s.running ++ admitted ∧
        (arrivals s).Perm ((arrivals s').filter (· ∈ arrivals s) ++ admitted) := by
  have hplayed : ∃ p ∈ { roomy with maxNumRunningReqs := 2 }.play start
      [.op (.addRequest (.text "a" [1, 2, 3] 9 false)), .op .schedule,
        .op (.holdForToolCall "a" ⟨0, none, 0⟩), .op (.addRequest (.text "b" [4] 9 false)),
        .op (.addRequest (.text "c" [5] 9 false)), .op (.addRequest (.text "d" [6] 9 false))],
      arrivals p.2 = [0, 1, 2, 3] ∧
        { roomy with maxNumRunningReqs := 2 }.entersWaitingLoop p.2 = true ∧
        arrivals (finalState ({ roomy with maxNumRunningReqs := 2 }.schedule p.2)) = [0, 3] ∧
        (returned ({ roomy with maxNumRunningReqs := 2 }.schedule p.2)).isSome = true := by
    decide +kernel
  obtain ⟨⟨history, s⟩, _, hbefore, henters, hafter, hreturns⟩ := hplayed
  obtain ⟨out, hout⟩ := Option.isSome_iff_exists.mp hreturns
  obtain ⟨s', hrun⟩ := returned_eq_some.mp hout
  rw [hrun] at hafter
  exact ⟨s, out, s', hrun, hbefore, hafter, arrivalOrder_schedule rfl rfl hrun henters⟩

end Scheduler

end Edmm
