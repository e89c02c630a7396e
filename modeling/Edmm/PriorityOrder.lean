/-
  Edmm/PriorityOrder.lean
  =======================
  **With the PRIORITY policy requests start in the order of their ranks.**

  `_select_waiting_queue_for_scheduling` compares the heads of the two waiting queues.
  Both are heaps, so the WAITING loop is a `Picking` from the two queues together: what
  it takes or puts aside next has the least rank of all that wait.  A request that starts
  overtakes only requests that had to wait.
-/
import Edmm.ArrivalOrder
import Edmm.PriorityQueues
import Edmm.ScheduleOutput

namespace Edmm

open Program Ranking

variable {W : Type}

namespace Scheduler

variable {self : Scheduler W}

/-! ## 1. The WAITING loop picks in order -/

/-- The WAITING loop as a picking. -/
def picking (p : Frame W) : Picking Ref :=
  { taken := p.1.running
    aside := p.2.stepSkippedWaiting
    ahead := p.1.waiting ++ p.1.skippedWaiting }

/-- `schedule()` may let the request wait though there is room: it is blocked, or it needs
    a LoRA and their number is limited, or a KV connector decides. -/
def MayWait (self : Scheduler W) (s : SchedulerState W) (x : Ref) : Prop :=
  (s.objs x).status.isBlockedWaitingStatus = true ∨
    (self.maxLoras.isSome = true ∧ (s.objs x).loraRequest.isSome = true) ∨
    self.hasConnector = true

theorem AsideReason.mayWait {s : SchedulerState W} {l : StepLocals} {request : Ref}
    (h : AsideReason self s l request) : self.MayWait s request := by
  cases h with
  | blocked hblocked => exact Or.inl hblocked
  | loras hexceeds =>
    obtain ⟨maxLoras, hmax, lora, hlora, _⟩ := hexceeds
    refine Or.inr (Or.inl ⟨?_, ?_⟩)
    · rw [Option.mem_def.mp hmax]
      rfl
    · rw [Option.mem_def.mp hlora]
      rfl
  | connector hconnector => exact Or.inr (Or.inr hconnector)

/-- The request selected has the least rank of all that wait. -/
theorem selected_least (hpolicy : self.policy = .priority) {s : SchedulerState W}
    (hwaiting : IsHeap (ranks s.objs) s.waiting)
    (hskipped : IsHeap (ranks s.objs) s.skippedWaiting) {which : WaitingQueue} {request : Ref}
    (hselect : self.selectWaitingQueueForScheduling s = some which)
    (hhead : (queue s which).head? = some request) {x : Ref}
    (hx : x ∈ s.waiting ++ s.skippedWaiting) : ranks s.objs request ≤ ranks s.objs x := by
  unfold selectWaitingQueueForScheduling at hselect
  rw [hpolicy] at hselect
  dsimp only at hselect
  cases hw : s.waiting with
  | nil =>
    cases hk : s.skippedWaiting with
    | nil => simp [hw, hk] at hx
    | cons first rest =>
      simp only [hw, hk, List.head?_nil, List.head?_cons, Option.some.injEq] at hselect
      subst hselect
      simp only [queue, hk, List.head?_cons, Option.some.injEq] at hhead
      subst hhead
      rw [hk] at hskipped
      rw [hw, hk, List.nil_append] at hx
      exact hskipped.first_le hx
  | cons first rest =>
    rw [hw] at hwaiting
    cases hk : s.skippedWaiting with
    | nil =>
      simp only [hw, hk, List.head?_nil, List.head?_cons, Option.some.injEq] at hselect
      subst hselect
      simp only [queue, hw, List.head?_cons, Option.some.injEq] at hhead
      subst hhead
      rw [hw, hk, List.append_nil] at hx
      exact hwaiting.first_le hx
    | cons first' rest' =>
      rw [hk] at hskipped
      simp only [hw, hk, List.head?_cons] at hselect
      rw [hw, hk, List.mem_append] at hx
      split at hselect
      · rename_i hlt
        have hless : ranks s.objs first < ranks s.objs first' :=
          (Request.lt_iff_rank _ _ _ _).mp hlt
        rw [Option.some.injEq] at hselect
        subst hselect
        simp only [queue, hw, List.head?_cons, Option.some.injEq] at hhead
        subst hhead
        rcases hx with hx | hx
        · exact hwaiting.first_le hx
        · exact hless.le.trans (hskipped.first_le hx)
      · rename_i hnot
        have hle : ranks s.objs first' ≤ ranks s.objs first :=
          not_lt.mp fun hless => hnot ((Request.lt_iff_rank _ _ _ _).mpr hless)
        rw [Option.some.injEq] at hselect
        subst hselect
        simp only [queue, hk, List.head?_cons, Option.some.injEq] at hhead
        subst hhead
        rcases hx with hx | hx
        · exact hle.trans (hwaiting.first_le hx)
        · exact hskipped.first_le hx

section
variable {start : SchedulerState W}

/-- What waits has not changed since `start`. -/
structure PickingSince (start s : SchedulerState W) : Prop where
  untouched : ∀ x ∈ s.waiting ++ s.skippedWaiting, s.objs x = start.objs x
  nodup : (s.waiting ++ s.skippedWaiting).Nodup
  waiting : IsHeap (ranks s.objs) s.waiting
  skipped : IsHeap (ranks s.objs) s.skippedWaiting

theorem SamePlaces.ranks {s s' : SchedulerState W} {request : Ref} (h : SamePlaces request s s')
    (x : Ref) : ranks s'.objs x = ranks s.objs x := by
  by_cases hx : x = request
  · rw [hx]
    exact Request.rank_congr h.priority h.arrivalTime h.requestId request
  · exact congrArg (Request.rank · x) (h.others x hx)

theorem popRequest_perm (s : SchedulerState W) {which : WaitingQueue} {request : Ref}
    (hhead : (queue s which).head? = some request) :
    (s.waiting ++ s.skippedWaiting).Perm (request ::
      ((self.popRequest which s).waiting ++ (self.popRequest which s).skippedWaiting)) := by
  have hperm := self.waitingQueues_popRequest hhead []
  simpa [waitingQueues] using hperm

/-- The head is popped, and only the popped request has changed. -/
theorem PickingSince.pop (laws : KeepsHeaps self.requestQueue) {s before s' : SchedulerState W}
    (h : PickingSince start s) {which : WaitingQueue} {request : Ref}
    (hhead : (queue s which).head? = some request) (hbefore : SamePlaces request s before)
    (hwaiting : s'.waiting = (self.popRequest which before).waiting)
    (hskipped : s'.skippedWaiting = (self.popRequest which before).skippedWaiting)
    (hothers : ∀ x ≠ request, s'.objs x = before.objs x)
    (hranks : ∀ x, ranks s'.objs x = ranks before.objs x) :
    PickingSince start s' ∧
      (s.waiting ++ s.skippedWaiting).Perm (request :: (s'.waiting ++ s'.skippedWaiting)) := by
  have hhead' : (queue before which).head? = some request := by
    rw [hbefore.queue]
    exact hhead
  have hperm : (s.waiting ++ s.skippedWaiting).Perm
      (request :: (s'.waiting ++ s'.skippedWaiting)) := by
    rw [hwaiting, hskipped, ← hbefore.waiting, ← hbefore.skippedWaiting]
    exact popRequest_perm before hhead'
  have hnodup := hperm.nodup_iff.mp h.nodup
  rw [List.nodup_cons] at hnodup
  have hheaps : IsHeap (ranks before.objs) before.waiting ∧
      IsHeap (ranks before.objs) before.skippedWaiting := by
    rw [hbefore.waiting, hbefore.skippedWaiting]
    exact ⟨h.waiting.congr fun x _ => hbefore.ranks x, h.skipped.congr fun x _ => hbefore.ranks x⟩
  have hpopped : IsHeap (ranks before.objs) (self.popRequest which before).waiting ∧
      IsHeap (ranks before.objs) (self.popRequest which before).skippedWaiting := by
    cases which with
    | waiting => exact ⟨laws.popRest _ _ hheaps.1, hheaps.2⟩
    | skippedWaiting => exact ⟨hheaps.1, laws.popRest _ _ hheaps.2⟩
  refine ⟨?_, hperm⟩
  constructor
  · intro x hx
    have hne : x ≠ request := by
      intro heq
      rw [heq] at hx
      exact hnodup.1 hx
    rw [hothers x hne, hbefore.others x hne]
    exact h.untouched x (hperm.mem_iff.mpr (List.mem_cons_of_mem _ hx))
  · exact hnodup.2
  · rw [hwaiting]
    exact hpopped.1.congr fun x _ => hranks x
  · rw [hskipped]
    exact hpopped.2.congr fun x _ => hranks x

/-- A turn of the WAITING loop that goes on is a step of the picking. -/
theorem WaitingTurn.picks (laws : KeepsHeaps self.requestQueue)
    (hpolicy : self.policy = .priority) {s s' : SchedulerState W} {l l' : StepLocals}
    {which : WaitingQueue} {request : Ref} (h : PickingSince start s)
    (hselect : self.selectWaitingQueueForScheduling s = some which)
    (hhead : (queue s which).head? = some request)
    (hturn : WaitingTurn self s l which request (.next l') s') :
    PickingSince start s' ∧ Picking.Step (ranks start.objs) (self.MayWait start)
      (picking (s, l)) (picking (s', l')) := by
  have hmem : request ∈ s.waiting ++ s.skippedWaiting := by
    cases which with
    | waiting => exact List.mem_append_left _ (List.mem_of_mem_head? hhead)
    | skippedWaiting => exact List.mem_append_right _ (List.mem_of_mem_head? hhead)
  have hranks : ∀ x ∈ s.waiting ++ s.skippedWaiting, ranks start.objs x = ranks s.objs x :=
    fun x hx => congrArg (Request.rank · x) (h.untouched x hx).symm
  have hleast : ∀ {rest : List Ref}, (s.waiting ++ s.skippedWaiting).Perm (request :: rest) →
      ∀ x ∈ rest, ranks start.objs request ≤ ranks start.objs x := by
    intro rest hperm x hx
    have hx' := hperm.mem_iff.mpr (List.mem_cons_of_mem request hx)
    rw [hranks request hmem, hranks x hx']
    exact selected_least hpolicy h.waiting h.skipped hselect hhead hx'
  cases hturn with
  | @aside before _ _ hbefore hpop haside hreason =>
    have hobjs := self.objs_popRequest which before
    obtain ⟨hsince, hperm⟩ := h.pop laws hhead hbefore hpop.waiting hpop.skippedWaiting
      (fun x hx => (hpop.others x hx).trans (congrFun hobjs x))
      (fun x => (hpop.ranks x).trans (congrArg (ranks · x) hobjs))
    have hmay : self.MayWait start request := by
      have hmay := hreason.mayWait
      unfold MayWait at hmay ⊢
      rwa [h.untouched request hmem] at hmay
    refine ⟨hsince, ?_⟩
    have hstep := Picking.Step.putAside (p := picking (s, l)) hperm (hleast hperm) haside hmay
    have hrunning : s'.running = s.running := by
      rw [hpop.running, running_popRequest, hbefore.running]
    unfold picking at hstep ⊢
    dsimp only at hstep ⊢
    rw [hrunning]
    exact hstep
  | @admitted before _ _ hbefore hpop haside =>
    have hobjs := self.objs_popRequest which before
    obtain ⟨hsince, hperm⟩ := h.pop laws hhead hbefore hpop.waiting hpop.skippedWaiting
      (fun x hx => (hpop.others x hx).trans (congrFun hobjs x))
      (fun x => (hpop.ranks x).trans (congrArg (ranks · x) hobjs))
    refine ⟨hsince, ?_⟩
    have hstep : Picking.Step (ranks start.objs) (self.MayWait start) (picking (s, l)) _ :=
      .take hperm (hleast hperm)
    have hrunning : s'.running = s.running ++ [request] := by
      rw [hpop.running, ← hbefore.running]
    unfold picking at hstep ⊢
    dsimp only at hstep ⊢
    rw [hrunning, haside]
    exact hstep

theorem waitingLoop_picks (laws : KeepsHeaps self.requestQueue)
    (hpolicy : self.policy = .priority) (bound : Nat) {s : SchedulerState W} (l : StepLocals)
    (h : PickingSince start s) :
    wp (self.waitingLoop bound l)
      (fun l' s' => Picking.Steps (ranks start.objs) (self.MayWait start)
        (picking (s, l)) (picking (s', l')))
      (fun _ _ => True) s := by
  induction bound generalizing s l with
  | zero => exact Relation.ReflTransGen.refl
  | succ bound ih =>
    unfold waitingLoop
    rw [wp_bind, wp_get]
    split
    · rename_i hcontinue
      split
      · exact Relation.ReflTransGen.refl
      · rw [wp_bind]
        apply wp_mono_ok (waitingStep_turn s hcontinue.2)
        intro control s' hturn
        obtain ⟨which, request, hselect, hhead, hturn⟩ := hturn
        cases control with
        | stop l' =>
          cases hturn with
          | stop hsame =>
            have hpicking : picking (s', l) = picking (s, l) := by
              simp [picking, hsame.running, hsame.waiting, hsame.skippedWaiting]
            change Picking.Steps _ _ (picking (s, l)) (picking (s', l))
            rw [hpicking]
        | next l' =>
          obtain ⟨hsince, hstep⟩ := hturn.picks laws hpolicy h hselect hhead
          exact wp_mono_ok (ih l' hsince) fun _ _ hsteps => hsteps.head hstep
    · exact Relation.ReflTransGen.refl

end

/-! ## 2. A whole call -/

/-- As long as nothing is preempted, the RUNNING loop changes running requests only. -/
theorem RunningEffect.waitsOn {p p' : Frame W} (h : self.RunningEffect p p')
    (hnone : p'.2.preemptedReqs = []) :
    p.2.preemptedReqs = [] ∧ p'.1.running = p.1.running ∧ p'.1.waiting = p.1.waiting ∧
      p'.1.skippedWaiting = p.1.skippedWaiting ∧ ∀ x ∉ p.1.running, p'.1.objs x = p.1.objs x := by
  cases h with
  | touch s l w => exact ⟨hnone, rfl, rfl, rfl, fun _ _ => rfl⟩
  | pass s l reqIndex scheduledLoras => exact ⟨hnone, rfl, rfl, rfl, fun _ _ => rfl⟩
  | preempt w hvictim hstatus hlocals => simp at hnone
  | schedule newBlocks w hrunning hsome hbound hlocals =>
    obtain ⟨inputs, budget, rfl⟩ := hlocals
    refine ⟨hnone, rfl, rfl, rfl, fun x hx => ?_⟩
    exact SchedulerState.objs_updateRequest_of_ne _ _ fun heq => hx (heq ▸ hrunning)

theorem RunningEffects.waitsOn {p p' : Frame W} (h : self.RunningEffects p p')
    (hnone : p'.2.preemptedReqs = []) :
    p'.1.running = p.1.running ∧ p'.1.waiting = p.1.waiting ∧
      p'.1.skippedWaiting = p.1.skippedWaiting ∧ ∀ x ∉ p.1.running, p'.1.objs x = p.1.objs x := by
  induction h with
  | refl => exact ⟨rfl, rfl, rfl, fun _ _ => rfl⟩
  | tail _ last ih =>
    obtain ⟨hbefore, hrunning, hwaiting, hskipped, hobjs⟩ := last.waitsOn hnone
    obtain ⟨hrunning', hwaiting', hskipped', hobjs'⟩ := ih hbefore
    refine ⟨hrunning.trans hrunning', hwaiting.trans hwaiting', hskipped.trans hskipped', ?_⟩
    intro x hx
    exact (hobjs x (hrunning' ▸ hx)).trans (hobjs' x hx)

/-- The RUNNING loop starts no request. -/
theorem RunningEffects.running_subset {p p' : Frame W} (h : self.RunningEffects p p') :
    p'.1.running ⊆ p.1.running := by
  induction h with
  | refl => exact List.Subset.refl _
  | tail _ last ih =>
    apply List.Subset.trans _ ih
    cases last with
    | touch | pass | schedule => exact List.Subset.refl _
    | preempt w hvictim hstatus hlocals =>
      exact fun x hx => hvictim.mem_iff.mpr (List.mem_cons_of_mem _ hx)

/-- The requests that `schedule()` starts, compared with those that waited. -/
structure StartsInOrder (scheduler : Scheduler W) (s s' : SchedulerState W) : Prop where
  /-- They are added to `running` in the order of their ranks. -/
  sorted : (s'.running.filter fun x => x ∉ s.running).Pairwise fun x y =>
    ranks s.objs x < ranks s.objs y
  waited : ∀ x ∈ s'.running, x ∉ s.running → x ∈ s.waiting ++ s.skippedWaiting
  /-- A request of lower rank starts as well, or it may wait and still does. -/
  overtaken : ∀ x ∈ s'.running, x ∉ s.running → ∀ y ∈ s.waiting ++ s.skippedWaiting,
    ranks s.objs y < ranks s.objs x →
      y ∈ s'.running ∨ (y ∈ arrivals s' ∧ scheduler.MayWait s y)

theorem ranks_injective (objs : Ref → Request) : Function.Injective (ranks objs) := by
  intro x y hxy
  simp only [ranks, Request.rank, EmbeddingLike.apply_eq_iff_eq, Prod.mk.injEq] at hxy
  exact hxy.2.2.2

/-- The WAITING loop was not entered. -/
theorem startsInOrder_of_subset {s s' : SchedulerState W} (h : s'.running ⊆ s.running) :
    StartsInOrder self s s' where
  sorted := by
    have hnone : (s'.running.filter fun x => x ∉ s.running) = [] :=
      List.filter_eq_nil_iff.mpr fun x hx => by simp [h hx]
    rw [hnone]
    exact List.Pairwise.nil
  waited x hx hnot := absurd (h hx) hnot
  overtaken x hx hnot := absurd (h hx) hnot

theorem startsInOrder_of_picked {s s' : SchedulerState W} {p : Picking Ref}
    {taken passed : List Ref} (hnodup : (s.running ++ (s.waiting ++ s.skippedWaiting)).Nodup)
    (hrunning : s'.running = p.taken) (hpassed : ∀ x ∈ p.aside, x ∈ arrivals s')
    (h : Picking.Picked (ranks s.objs) (self.MayWait s)
      ⟨s.running, [], s.waiting ++ s.skippedWaiting⟩ p taken passed) :
    StartsInOrder self s s' := by
  have htaken : s'.running = s.running ++ taken := hrunning.trans h.taken_eq
  have hahead : (s.waiting ++ s.skippedWaiting).Perm (taken ++ (passed ++ p.ahead)) := h.ahead
  have hwaited : ∀ x ∈ taken, x ∈ s.waiting ++ s.skippedWaiting :=
    fun x hx => hahead.mem_iff.mpr (List.mem_append_left _ hx)
  have hfresh : ∀ x ∈ taken, x ∉ s.running :=
    fun x hx hmem => (List.nodup_append.mp hnodup).2.2 x hmem x (hwaited x hx) rfl
  have hstarted : ∀ x ∈ s'.running, x ∉ s.running → x ∈ taken := by
    intro x hx hnot
    rw [htaken, List.mem_append] at hx
    exact hx.resolve_left hnot
  constructor
  · have hfilter : (s'.running.filter fun x => x ∉ s.running) = taken := by
      rw [htaken, List.filter_append, List.filter_eq_nil_iff.mpr fun x hx => by simp [hx],
        List.nil_append]
      exact List.filter_eq_self.mpr fun x hx => decide_eq_true (hfresh x hx)
    have hdistinct : taken.Nodup :=
      (List.nodup_append.mp (hahead.nodup_iff.mp (List.nodup_append.mp hnodup).2.1)).1
    rw [hfilter]
    apply List.Pairwise.imp₂ _ h.sorted hdistinct
    exact fun x y hle hne => lt_of_le_of_ne hle fun heq => hne (ranks_injective s.objs heq)
  · exact fun x hx hnot => hwaited x (hstarted x hx hnot)
  · intro x hx hnot y hy hbefore
    rcases h.overtaken (hstarted x hx hnot) hy hbefore with hy | hy
    · left
      rw [htaken]
      exact List.mem_append_right _ hy
    · right
      refine ⟨hpassed y ?_, h.mayWait y hy⟩
      exact h.aside.mem_iff.mpr (List.mem_append_left _ hy)

/-- **`schedule()` starts requests in the order of their ranks.** -/
theorem schedule_startsInOrder (laws : KeepsHeaps self.requestQueue)
    (hpolicy : self.policy = .priority) {s : SchedulerState W}
    (hnodup : (s.running ++ (s.waiting ++ s.skippedWaiting)).Nodup)
    (hwaiting : IsHeap (ranks s.objs) s.waiting)
    (hskipped : IsHeap (ranks s.objs) s.skippedWaiting) :
    wp self.schedule (fun _ s' => StartsInOrder self s s') (fun _ _ => True) s := by
  unfold schedule
  rw [wp_bind, wp_get, wp_bind, wp_onWorld, wp_bind]
  apply wp_mono (self.runningLoop_effects _ _ _) _ (fun _ _ _ => trivial)
  intro l s₁ hrunning
  rw [wp_bind]
  apply wp_mono (self.recordScheduledLoras_wp s₁ l) _ (fun _ _ _ => trivial)
  rintro _ s₁ ⟨rfl, loras, rfl⟩
  rw [wp_bind]
  -- what the WAITING loop does, if it is entered
  have hstarts : wp (self.scheduleWaiting { l with scheduledLoras := loras })
      (fun _ s' => ∀ s'', s''.running = s'.running → arrivals s'' = arrivals s' →
        StartsInOrder self s s'') (fun _ _ => True) s₁ := by
    unfold scheduleWaiting
    rw [wp_bind, wp_get]
    split
    · rename_i henters
      have hwaits := hrunning.waitsOn henters.1
      have hsame : s₁.running = s.running := hwaits.1
      have hwaiting₁ : s₁.waiting = s.waiting := hwaits.2.1
      have hskipped₁ : s₁.skippedWaiting = s.skippedWaiting := hwaits.2.2.1
      have hobjs : ∀ x ∉ s.running, s₁.objs x = s.objs x := hwaits.2.2.2
      have hsince : PickingSince s s₁ := by
        have huntouched : ∀ x ∈ s₁.waiting ++ s₁.skippedWaiting, s₁.objs x = s.objs x := by
          intro x hx
          rw [hwaiting₁, hskipped₁] at hx
          apply hobjs x
          exact fun hmem => (List.nodup_append.mp hnodup).2.2 x hmem x hx rfl
        constructor
        · exact huntouched
        · rw [hwaiting₁, hskipped₁]
          exact (List.nodup_append.mp hnodup).2.1
        · have hheap : IsHeap (ranks s.objs) s₁.waiting := by
            rw [hwaiting₁]
            exact hwaiting
          exact hheap.congr fun x hx =>
            congrArg (Request.rank · x) (huntouched x (List.mem_append_left _ hx))
        · have hheap : IsHeap (ranks s.objs) s₁.skippedWaiting := by
            rw [hskipped₁]
            exact hskipped
          exact hheap.congr fun x hx =>
            congrArg (Request.rank · x) (huntouched x (List.mem_append_right _ hx))
      rw [wp_bind]
      apply wp_mono_ok (waitingLoop_picks laws hpolicy _ _ hsince)
      intro l' s₂ hsteps
      obtain ⟨taken, passed, hpicked⟩ := Picking.picked_of_steps hsteps
      have hstart : picking (s₁, { l with scheduledLoras := loras }) =
          ⟨s.running, [], s.waiting ++ s.skippedWaiting⟩ := by
        have haside : l.stepSkippedWaiting = [] :=
          invariant_of_chain (I := fun p : Frame W => p.2.stepSkippedWaiting = [])
            (fun p p' heffect hp => heffect.unchanged.2.trans hp) hrunning rfl
        simp [picking, hsame, hwaiting₁, hskipped₁, haside]
      rw [hstart] at hpicked
      rw [wp_bind, wp_onlyIf]
      constructor
      · intro _ s'' hsame'' harrivals
        apply startsInOrder_of_picked hnodup hsame'' _ hpicked
        intro x hx
        rw [harrivals]
        apply List.mem_append_left
        apply (self.requestQueue.prependRequests_perm _ _ _).mem_iff.mpr
        exact List.mem_append_left _ hx
      · intro hnone s'' hsame'' harrivals
        apply startsInOrder_of_picked hnodup hsame'' _ hpicked
        intro x hx
        have haside : (picking (s₂, l')).aside = [] := not_not.mp hnone
        rw [haside] at hx
        cases hx
    · intro s'' hsame _
      apply startsInOrder_of_subset
      rw [hsame]
      exact hrunning.running_subset
  apply wp_mono_ok hstarts
  intro l' s₂ hstarts
  apply wp_mono (self.finishSchedule_queues s₂ l') _ (fun _ _ _ => trivial)
  rintro _ s₃ ⟨hsame, harrivals⟩
  exact hstarts s₃ hsame harrivals

/-! ## 3. Runs -/

section
variable {objs : Ref → Request} {edmmHook : Option EdmmSchedulerHook} {w : W}
  {history : List (SchedulerStep W)} {s : SchedulerState W}

/-- The waiting queues are heaps in every run without sessions. -/
theorem ranked_of_run (laws : KeepsHeaps self.requestQueue) (hconnector : self.hasConnector = false)
    (run : SchedulerRun self (SchedulerState.init objs edmmHook w) history s)
    (hlocal : ∀ step ∈ history, step.op.WithoutConnector)
    (hsessions : ∀ step ∈ history, WithoutSessions step.op)
    (hstops : ∀ step ∈ history, SchedulerStep.StopsHandled self step) :
    Conserves hconnector s ∧ Ranked s := by
  apply Machine.Run.invariant
    (I := fun s => Conserves hconnector s ∧ Ranked s) (P := fun step : SchedulerStep W =>
      step.op.WithoutConnector ∧ WithoutSessions step.op ∧ SchedulerStep.StopsHandled self step)
    _ run (fun step hstep => ⟨hlocal step hstep, hsessions step hstep, hstops step hstep⟩)
  · refine ⟨conserves_init objs edmmHook w, ?_⟩
    constructor
    · intro x hx
      cases hx
    · intro x hx
      cases hx
    · exact isHeap_nil _
    · exact isHeap_nil _
  · intro s s' op output ⟨hs, hranked⟩ hexec ⟨hlocal, hsession, hstops⟩
    have heffect := effect_of_exec hs.registry hexec
    have htraceless : Ranked (traceless s) :=
      ⟨hranked.known, hranked.sessionless, hranked.waiting, hranked.skipped⟩
    exact ⟨heffect.conserves hlocal hstops hs.traceless,
      heffect.ranked laws hconnector hlocal hsession hs.traceless.registry htraceless⟩

/-- **Requests start in the order of their ranks**, in every run of the PRIORITY policy
    without sessions: at each `schedule()` call both waiting queues are heaps. -/
theorem startsInOrder_run (laws : KeepsHeaps self.requestQueue)
    (hpolicy : self.policy = .priority) (hconnector : self.hasConnector = false)
    (run : SchedulerRun self (SchedulerState.init objs edmmHook w) history s)
    (hlocal : ∀ step ∈ history, step.op.WithoutConnector)
    (hsessions : ∀ step ∈ history, WithoutSessions step.op)
    (hstops : ∀ step ∈ history, SchedulerStep.StopsHandled self step)
    {step : SchedulerStep W} (hstep : step ∈ history) (hop : step.op = .schedule) :
    IsHeap (ranks step.before.objs) step.before.waiting ∧
      IsHeap (ranks step.before.objs) step.before.skippedWaiting ∧
      StartsInOrder self step.before step.after := by
  obtain ⟨earlier, later, rfl⟩ := List.append_of_mem hstep
  obtain ⟨hearlier, hexec, _⟩ := run.split rfl
  obtain ⟨hs, hranked⟩ := ranked_of_run laws hconnector hearlier
    (fun step h => hlocal step (List.mem_append_left _ h))
    (fun step h => hsessions step (List.mem_append_left _ h))
    (fun step h => hstops step (List.mem_append_left _ h))
  have hnodup : (step.before.running ++
      (step.before.waiting ++ step.before.skippedWaiting)).Nodup := by
    simpa [heldQueues, waitingQueues] using hs.inOrder.nodup
  have hstarts : wp (SchedulerOp.exec self .schedule)
      (fun _ s' => StartsInOrder self step.before s') (fun _ _ => True) step.before := by
    unfold SchedulerOp.exec SchedulerOp.run
    rw [wp_bind, wp_modify, wp_bind]
    exact wp_mono_ok (schedule_startsInOrder laws hpolicy (s := traceless step.before) hnodup
      hranked.waiting hranked.skipped) fun _ _ h => ⟨h.sorted, h.waited, h.overtaken⟩
  rw [hop] at hexec
  exact ⟨hranked.waiting, hranked.skipped, wp_ok hstarts hexec⟩

end

/-- The roomy scheduler with the PRIORITY policy, and room for one request. -/
def pressed : Scheduler Unit :=
  { roomy with
    policy := .priority
    requestQueue := sortedRequestQueue
    maxNumRunningReqs := 1 }

/-- The first request is held for its tool call; of the others the second one starts, which
    has the lower priority number. -/
theorem startsInOrder_run_held : ∃ history s, SchedulerRun pressed start history s ∧
    ∃ step ∈ history, step.after.running = [2] ∧ step.after.waiting = [1] ∧
      step.after.skippedWaiting = [0] ∧
      IsHeap (ranks step.before.objs) step.before.waiting ∧
      IsHeap (ranks step.before.objs) step.before.skippedWaiting ∧
      StartsInOrder pressed step.before step.after := by
  have hplayed : ∃ p ∈ pressed.play start
      [.op (.addRequest (.text "a" [1, 2, 3] 8 false)), .op (.holdForToolCall "a" ⟨0, none, 0⟩),
        .op (.addRequest { RequestParams.text "b" [4] 8 false with priority := 2 }),
        .op (.addRequest { RequestParams.text "c" [5] 8 false with priority := 1 }),
        .op .schedule],
      (∀ step ∈ p.1, step.op.WithoutConnector ∧ WithoutSessions step.op ∧
          step.op.ctorIdx ≠ 2) ∧
        ∃ step ∈ p.1[4]?, step.op matches .schedule ∧ step.after.running = [2] ∧
          step.after.waiting = [1] ∧ step.after.skippedWaiting = [0] := by
    decide +kernel
  obtain ⟨⟨history, s⟩, hhistory, hplain, step, hstep, hop, hrunning, hwaiting, hskipped⟩ := hplayed
  have run := run_of_play (Option.mem_def.mp hhistory)
  have hmem : step ∈ history := List.mem_of_getElem? (Option.mem_def.mp hstep)
  refine ⟨history, s, run, step, hmem, hrunning, hwaiting, hskipped,
    startsInOrder_run keepsHeaps_sorted rfl rfl run (fun step hstep => (hplain step hstep).1)
      (fun step hstep => (hplain step hstep).2.1) ?_ hmem ?_⟩
  · intro step hstep out mro hupdate
    have hother := (hplain step hstep).2.2
    rw [hupdate] at hother
    exact absurd rfl hother
  · cases hcase : step.op with
    | schedule => rfl
    | _ => simp [hcase] at hop

/-- Sessions can start out of order: the first session continues with a later arrival time
    while it heads `skipped_waiting`, and still starts before the second one. -/
theorem session_overtakes : ∃ history s, SchedulerRun pressed start history s ∧
    ∃ step ∈ history, step.op matches .schedule ∧
      ¬ StartsInOrder pressed step.before step.after := by
  have hplayed : ∃ p ∈ pressed.play start
      [.op (.addRequest (.text "a" [1] 1 true)), .op .schedule, .deliver 0 [("a", [3])],
        .op (.addRequest { RequestParams.text "b" [2] 1 true with arrivalTime := 1 }),
        .op .schedule, .deliver 1 [("b", [4])],
        .op (.addRequest { RequestParams.text "a" [5] 1 true with arrivalTime := 2 }),
        .op (.addRequest { RequestParams.text "b" [6] 1 true with arrivalTime := 1 }),
        .op .schedule],
      ∃ step ∈ p.1[8]?, step.op matches .schedule ∧ 0 ∈ step.after.running ∧
        0 ∉ step.before.running ∧ 1 ∈ step.before.waiting ++ step.before.skippedWaiting ∧
        ranks step.before.objs 1 < ranks step.before.objs 0 ∧ 1 ∉ step.after.running ∧
        (step.before.objs 1).status = .waiting := by
    decide +kernel
  obtain ⟨⟨history, s⟩, hhistory, step, hstep, hop, hstarted, hnew, hwaited, hbefore, hpassed,
    hstatus⟩ := hplayed
  refine ⟨history, s, run_of_play (Option.mem_def.mp hhistory), step,
    List.mem_of_getElem? (Option.mem_def.mp hstep), hop, ?_⟩
  intro horder
  rcases horder.overtaken 0 hstarted hnew 1 hwaited hbefore with hstarts | ⟨_, hmay⟩
  · exact hpassed hstarts
  · unfold MayWait at hmay
    rw [hstatus] at hmay
    rcases hmay with hblocked | ⟨hloras, _⟩ | hconnector
    · cases hblocked
    · cases hloras
    · cases hconnector

end Scheduler

end Edmm
