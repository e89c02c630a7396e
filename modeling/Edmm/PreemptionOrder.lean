/-
  Edmm/PreemptionOrder.lean
  =========================
  **Which requests `schedule()` preempts.**

  A call either starts requests or preempts some, never both.  The PRIORITY policy
  preempts the requests of the worst priority, and of these the latest: none that keeps
  running is worse.  The FCFS policy preempts from the end of `running`.
-/
import Edmm.ArrivalOrder
import Edmm.PausedRequests
import Edmm.PriorityQueues

namespace Edmm

open Program

variable {W : Type}

/-- What the PRIORITY policy compares to find its victim. -/
def Request.preemptionKey (r : Request) : ℤ ×ₗ ℚ := toLex (r.priority, r.arrivalTime)

namespace Scheduler

variable {self : Scheduler W}

/-! ## 1. The victims -/

/-- The policy takes `victim` out of `running`, which leaves `rest`. -/
inductive MayPreempt (scheduler : Scheduler W) (objs : Ref → Request) :
    List Ref → Ref → List Ref → Prop where
  | worst {running : List Ref} {victim : Ref} (hpolicy : scheduler.policy = .priority)
      (hworst : ∀ x ∈ running, (objs x).preemptionKey ≤ (objs victim).preemptionKey) :
      MayPreempt scheduler objs running victim (running.erase victim)
  | last {rest : List Ref} {victim : Ref} (hpolicy : scheduler.policy = .fcfs) :
      MayPreempt scheduler objs (rest ++ [victim]) victim rest

/-- `running` and the requests preempted so far. -/
abbrev Preempting := List Ref × List Ref

/-- The next victim. -/
inductive Preempts (scheduler : Scheduler W) (objs : Ref → Request) :
    Preempting → Preempting → Prop where
  | preempt {running rest preempted : List Ref} {victim : Ref}
      (h : scheduler.MayPreempt objs running victim rest) :
      Preempts scheduler objs (running, preempted) (rest, preempted ++ [victim])

/-- From `s` and `l` on, requests were preempted in this order; nothing that orders them
    changed. -/
structure PreemptedSince (scheduler : Scheduler W) (s : SchedulerState W) (l : StepLocals)
    (s' : SchedulerState W) (l' : StepLocals) : Prop where
  steps : Relation.ReflTransGen (scheduler.Preempts s.objs)
    (s.running, l.preemptedReqs) (s'.running, l'.preemptedReqs)
  keys : ∀ x, (s'.objs x).preemptionKey = (s.objs x).preemptionKey

theorem MayPreempt.congr {objs objs' : Ref → Request} {running rest : List Ref} {victim : Ref}
    (h : self.MayPreempt objs' running victim rest)
    (hkeys : ∀ x, (objs' x).preemptionKey = (objs x).preemptionKey) :
    self.MayPreempt objs running victim rest := by
  cases h with
  | worst hpolicy hworst =>
    apply MayPreempt.worst hpolicy
    intro x hx
    rw [← hkeys x, ← hkeys victim]
    exact hworst x hx
  | last hpolicy => exact .last hpolicy

namespace PreemptedSince

variable {s s' s'' : SchedulerState W} {l l' l'' : StepLocals}

theorem of_same (hrunning : s'.running = s.running) (hlocals : l'.preemptedReqs = l.preemptedReqs)
    (hkeys : ∀ x, (s'.objs x).preemptionKey = (s.objs x).preemptionKey) :
    self.PreemptedSince s l s' l' where
  steps := by rw [hrunning, hlocals]
  keys := hkeys

theorem trans (h : self.PreemptedSince s l s' l') (h' : self.PreemptedSince s' l' s'' l'') :
    self.PreemptedSince s l s'' l'' where
  steps := by
    refine h.steps.trans (Relation.ReflTransGen.mono ?_ _ _ h'.steps)
    intro p p' hstep
    cases hstep with
    | preempt hmay => exact .preempt (hmay.congr h.keys)
  keys x := (h'.keys x).trans (h.keys x)

end PreemptedSince

/-! ## 2. The RUNNING loop -/

theorem unschedule_preemptedReqs (s : SchedulerState W) (objs : Ref → Request) (l : StepLocals)
    (victim : Ref) :
    wp (unschedule objs l victim)
      (fun l' s' => s' = s ∧ l'.preemptedReqs = l.preemptedReqs) (fun _ _ => True) s := by
  apply wp_mono (unschedule_wp s l victim objs) _ (fun _ _ _ => trivial)
  intro l' s' ⟨hs', hlocals⟩
  refine ⟨hs', ?_⟩
  rcases hlocals with hsame | ⟨numTokens, hdropped⟩
  · rw [hsame]
  · rw [hdropped]
    rfl

/-- The victim is the one the policy asks for. -/
theorem popPreemptionVictim_picks (s : SchedulerState W) (l : StepLocals) :
    wp (self.popPreemptionVictim l)
      (fun victim s' => ∃ rest, self.MayPreempt s.objs s.running victim.1 rest ∧
        s' = { s with running := rest } ∧ victim.2.preemptedReqs = l.preemptedReqs)
      (fun _ _ => True) s := by
  unfold popPreemptionVictim
  rw [wp_bind, wp_get]
  split
  · rename_i hpolicy
    dsimp only
    split
    · trivial
    · rename_i victim hvictim
      have hworst : ∀ x ∈ s.running, (s.objs x).preemptionKey ≤ (s.objs victim).preemptionKey := by
        apply Python.le_maxBy (fun x => (s.objs x).preemptionKey) _ hvictim
        intro a b
        simp [Request.preemptionKey, Prod.Lex.toLex_lt_toLex]
      rw [wp_bind, wp_modify, wp_bind]
      apply wp_mono (unschedule_preemptedReqs _ s.objs l victim) _ (fun _ _ _ => trivial)
      rintro l' s' ⟨rfl, hlocals⟩
      exact ⟨s.running.erase victim, .worst hpolicy hworst, rfl, hlocals⟩
  · rename_i hpolicy
    split
    · trivial
    · rename_i victim hvictim
      obtain ⟨others, hothers⟩ := List.getLast?_eq_some_iff.mp hvictim
      rw [wp_bind, wp_modify, wp_pure]
      refine ⟨others, ?_, ?_, rfl⟩
      · rw [hothers]
        exact .last hpolicy
      · rw [hothers, List.dropLast_concat]

theorem allocateOrPreempt_preempts (request : Ref) (numNewTokens : Int) (bound : Nat)
    (s : SchedulerState W) (l : StepLocals) :
    wp (self.allocateOrPreempt request numNewTokens bound l)
      (fun allocated s' => self.PreemptedSince s l s' allocated.2) (fun _ _ => True) s := by
  induction bound generalizing s l with
  | zero => exact .of_same rfl rfl fun _ => rfl
  | succ bound ih =>
    unfold allocateOrPreempt
    rw [wp_bind, wp_getRequest, wp_bind, wp_callWorld]
    split
    · exact .of_same rfl rfl fun _ => rfl
    · rw [wp_bind]
      apply wp_mono (popPreemptionVictim_picks _ l) _ (fun _ _ _ => trivial)
      rintro ⟨victim, l'⟩ _ ⟨rest, hmay, rfl, hlocals⟩
      rw [wp_bind]
      apply self.preemptRequest_wp
      · intro _ w
        have hpreempted : self.PreemptedSince s l
            (self.afterPreempt { s with running := rest } victim w)
            { l' with preemptedReqs := l'.preemptedReqs ++ [victim] } := by
          constructor
          · have hstep : self.Preempts s.objs (s.running, l.preemptedReqs) _ := .preempt hmay
            rw [← hlocals] at hstep ⊢
            exact Relation.ReflTransGen.single hstep
          · intro x
            unfold afterPreempt
            rw [SchedulerState.objs_updateRequest]
            split
            · rename_i hx
              rw [hx]
              rfl
            · rfl
        split
        · exact hpreempted
        · exact wp_mono_ok (ih _ _) fun _ _ hrest => hpreempted.trans hrest
      · exact fun _ => trivial

theorem runningStep_preempts (request : Ref) (s : SchedulerState W) (l : StepLocals) :
    wp (self.runningStep l request)
      (fun control s' => self.PreemptedSince s l s' control.locals) (fun _ _ => True) s := by
  unfold runningStep
  rw [wp_bind, wp_getRequest]
  split
  · exact .of_same rfl rfl fun _ => rfl
  rw [wp_bind]
  apply wp_mono (self.planEncoderInputs_touches _ _ _ _ s) _ (fun _ _ _ => trivial)
  rintro plan s' ⟨_, w, rfl⟩
  have hsplit : TouchesWorld
      (if self.needMambaBlockAlignedSplit then
        self.mambaBlockAlignedSplit (s.objs request) plan.numNewTokens 0 0
      else pure plan.numNewTokens : SchedM W Int) fun _ => True := by
    split
    · exact (self.mambaBlockAlignedSplit_touches _ _ _ _).mono fun _ _ => trivial
    · exact TouchesWorld.pure trivial
  rw [wp_bind]
  apply wp_mono (hsplit _) _ (fun _ _ _ => trivial)
  rintro n s' ⟨_, w', rfl⟩
  split
  · exact .of_same rfl rfl fun _ => rfl
  rw [wp_bind, wp_get, wp_bind]
  apply wp_mono (allocateOrPreempt_preempts request n _ _ l) _ (fun _ _ _ => trivial)
  rintro ⟨newBlocks, l₁⟩ s₁ hpreempted
  cases newBlocks with
  | none => exact ⟨hpreempted.steps, hpreempted.keys⟩
  | some blocks =>
    dsimp only
    unfold scheduleRunning
    rw [wp_bind, wp_bind, wp_getRequest, wp_bind, wp_modifyRequest]
    apply wp_mono (self.scheduleEncoderInputs_touches request _ _ _ _) _ (fun _ _ _ => trivial)
    rintro l₂ s₂ ⟨⟨inputs, budget, rfl⟩, w₂, rfl⟩
    refine ⟨hpreempted.steps, fun x => ?_⟩
    apply Eq.trans _ (hpreempted.keys x)
    rw [SchedulerState.objs_updateRequest]
    split
    · rename_i hx
      rw [hx]
      rfl
    · rfl

theorem runningLoop_preempts (bound : Nat) (s : SchedulerState W) (l : StepLocals) :
    wp (self.runningLoop bound l) (fun l' s' => self.PreemptedSince s l s' l')
      (fun _ _ => True) s := by
  induction bound generalizing s l with
  | zero => exact .of_same rfl rfl fun _ => rfl
  | succ bound ih =>
    unfold runningLoop
    rw [wp_bind, wp_get]
    split
    · exact .of_same rfl rfl fun _ => rfl
    rename_i request _
    split
    · rw [wp_bind]
      apply wp_mono_ok (runningStep_preempts request s l)
      intro control s' hpreempted
      cases control with
      | stop l' => exact hpreempted
      | next l' => exact wp_mono_ok (ih s' l') fun _ _ hrest => hpreempted.trans hrest
    · exact .of_same rfl rfl fun _ => rfl

/-! ## 3. What the policies preempt -/

section
variable {objs : Ref → Request} {p p' : Preempting}

/-- What was preempted is not in front of what is left. -/
theorem running_isPrefix (hpolicy : self.policy = .fcfs)
    (h : Relation.ReflTransGen (self.Preempts objs) p p') : p'.1 <+: p.1 := by
  induction h with
  | refl => exact List.prefix_rfl
  | tail _ last ih =>
    cases last with
    | preempt hmay =>
      cases hmay with
      | worst hpriority hworst =>
        rw [hpolicy] at hpriority
        cases hpriority
      | last _ => exact (List.prefix_append _ _).trans ih

theorem running_sublist (h : Relation.ReflTransGen (self.Preempts objs) p p') :
    p'.1.Sublist p.1 := by
  induction h with
  | refl => exact List.Sublist.refl _
  | tail _ last ih =>
    cases last with
    | preempt hmay =>
      cases hmay with
      | worst hpolicy hworst => exact List.erase_sublist.trans ih
      | last hpolicy => exact (List.sublist_append_left _ _).trans ih

/-- What is left is not worse than what was preempted. -/
theorem running_le (hpolicy : self.policy = .priority)
    (h : Relation.ReflTransGen (self.Preempts objs) p p') :
    ∀ x ∈ p.1, x ∉ p'.1 → ∀ y ∈ p'.1, (objs y).preemptionKey ≤ (objs x).preemptionKey := by
  induction h with
  | refl => exact fun x hx hnot => absurd hx hnot
  | @tail p₁ p₂ _ last ih =>
    cases last with
    | @preempt running rest preempted victim hmay =>
      cases hmay with
      | last hfcfs =>
        rw [hpolicy] at hfcfs
        cases hfcfs
      | worst _ hworst =>
        intro x hx hnot y hy
        have hmem : y ∈ running := List.mem_of_mem_erase hy
        by_cases hbefore : x ∈ running
        · -- `x` is the victim
          have hvictim : x = victim := by
            by_contra hne
            exact hnot ((List.mem_erase_of_ne hne).mpr hbefore)
          rw [hvictim]
          exact hworst y hmem
        · exact ih x hx hbefore y hmem

/-- Nothing was preempted. -/
theorem running_eq (h : Relation.ReflTransGen (self.Preempts objs) p p') (hnone : p'.2 = []) :
    p'.1 = p.1 := by
  induction h with
  | refl => rfl
  | tail _ last ih =>
    cases last with
    | preempt hmay => simp at hnone

end

/-- What `schedule()` preempts and what keeps running. -/
structure PreemptsWorst (scheduler : Scheduler W) (s s' : SchedulerState W) : Prop where
  /-- The call starts requests, or it preempts some: never both. -/
  exclusive : s.running <+: s'.running ∨ s'.running.Sublist s.running
  /-- PRIORITY: none that keeps running is worse than one that was preempted. -/
  worst : scheduler.policy = .priority → ∀ x ∈ s.running, x ∉ s'.running → ∀ y ∈ s'.running,
    (s.objs y).preemptionKey ≤ (s.objs x).preemptionKey
  /-- FCFS: the last ones are preempted. -/
  last : scheduler.policy = .fcfs → s.running <+: s'.running ∨ s'.running <+: s.running

theorem preemptsWorst_of_prefix {s s' : SchedulerState W} (h : s.running <+: s'.running) :
    PreemptsWorst self s s' where
  exclusive := Or.inl h
  worst _ _ hx hnot := absurd (h.subset hx) hnot
  last _ := Or.inl h

theorem preemptsWorst_of_preempts {s s' : SchedulerState W} {preempted preempted' : List Ref}
    (h : Relation.ReflTransGen (self.Preempts s.objs) (s.running, preempted)
      (s'.running, preempted')) : PreemptsWorst self s s' where
  exclusive := Or.inr (running_sublist h)
  worst hpolicy := running_le hpolicy h
  last hpolicy := Or.inr (running_isPrefix hpolicy h)

theorem WaitingEffects.running_isPrefix {p p' : Frame W} (h : self.WaitingEffects p p') :
    p.1.running <+: p'.1.running := by
  induction h with
  | refl => exact List.prefix_rfl
  | tail _ last ih =>
    apply ih.trans
    cases last with
    | touch | examine | lookup => exact List.prefix_rfl
    | promote l hhead hpromotion => cases hpromotion <;> exact List.prefix_rfl
    | skip l hhead =>
      rw [running_popRequest]
    | load objs numComputedTokens hhead hconnector hunblocked hcomputed =>
      change _ <+: (self.popRequest _ _).running
      rw [running_popRequest]
    | admitWaiting blocks w hhead hstatus hcomputed hsome hbound hlocals =>
      change _ <+: (self.popRequest _ _).running ++ [_]
      rw [running_popRequest]
      exact List.prefix_append _ _

/-- **`schedule()` preempts the worst requests**, from any state. -/
theorem schedule_preemptsWorst {s s' : SchedulerState W} {out : SchedulerOutput}
    (hrun : self.schedule s = .ok out s') : PreemptsWorst self s s' := by
  have hschedule : wp self.schedule (fun _ s' => PreemptsWorst self s s') (fun _ _ => True) s := by
    unfold schedule
    rw [wp_bind, wp_get, wp_bind, wp_onWorld, wp_bind]
    apply wp_mono_ok (runningLoop_preempts _ _ _)
    intro l s₁ hpreempted
    rw [wp_bind]
    apply wp_mono (self.recordScheduledLoras_wp s₁ l) _ (fun _ _ _ => trivial)
    rintro _ s₁ ⟨rfl, loras, rfl⟩
    rw [wp_bind]
    have hwaiting : wp (self.scheduleWaiting { l with scheduledLoras := loras })
        (fun _ s' => ∀ s'', s''.running = s'.running → PreemptsWorst self s s'')
        (fun _ _ => True) s₁ := by
      unfold scheduleWaiting
      rw [wp_bind, wp_get]
      split
      · rename_i henters
        rw [wp_bind]
        apply wp_mono (self.waitingLoop_effects _ _ _) _ (fun _ _ _ => trivial)
        intro l' s₂ heffects
        have hsame : s₁.running = s.running := running_eq hpreempted.steps henters.1
        have hstarted : s.running <+: s₂.running := by
          rw [← hsame]
          exact WaitingEffects.running_isPrefix heffects
        rw [wp_bind, wp_onlyIf]
        constructor
        · intro _ s'' hsame
          exact preemptsWorst_of_prefix (hsame ▸ hstarted)
        · intro _ s'' hsame
          exact preemptsWorst_of_prefix (hsame ▸ hstarted)
      · intro s'' hsame
        apply preemptsWorst_of_preempts
        rw [hsame]
        exact hpreempted.steps
    apply wp_mono_ok hwaiting
    intro l' s₂ hpreempts
    apply wp_mono (self.finishSchedule_queues s₂ l') _ (fun _ _ _ => trivial)
    intro _ s₃ hqueues
    exact hpreempts s₃ hqueues.1
  exact wp_ok hschedule hrun

/-- The first request runs out of room; it has the worst priority, and the second one keeps
    running. -/
theorem schedule_preemptsWorst_itself : ∃ s out s',
    { cramped with policy := .priority, requestQueue := sortedRequestQueue }.schedule s =
      .ok out s' ∧ s.running = [0, 1] ∧ s'.running = [1] ∧
      PreemptsWorst { cramped with policy := .priority, requestQueue := sortedRequestQueue }
        s s' := by
  have hplayed : ∃ p ∈ { cramped with policy := .priority, requestQueue := sortedRequestQueue }.play
      start
      [.op (.addRequest { RequestParams.text "a" [1] 8 false with priority := 5 }), .op .schedule,
        .op (.addRequest { RequestParams.text "b" [2] 8 false with priority := 0 }), .op .schedule,
        .deliver 0 [("a", [4])]],
      p.2.running = [0, 1] ∧
        (finalState ({ cramped with policy := .priority, requestQueue := sortedRequestQueue }.schedule
          p.2)).running = [1] ∧
        (returned ({ cramped with policy := .priority, requestQueue := sortedRequestQueue }.schedule
          p.2)).isSome = true := by
    decide +kernel
  obtain ⟨⟨history, s⟩, _, hbefore, hafter, hreturns⟩ := hplayed
  obtain ⟨out, hout⟩ := Option.isSome_iff_exists.mp hreturns
  obtain ⟨s', hrun⟩ := returned_eq_some.mp hout
  rw [hrun] at hafter
  exact ⟨s, out, s', hrun, hbefore, hafter, schedule_preemptsWorst hrun⟩

end Scheduler

end Edmm
