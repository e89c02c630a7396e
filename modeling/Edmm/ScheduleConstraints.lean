/-
  Edmm/ScheduleConstraints.lean
  =============================
  **`schedule()` meets its own constraints.**

  After its two loops `schedule()` asserts that the tokens fit into the budget and
  the requests into `max_num_running_reqs`, and while it builds the output it looks
  requests and blocks up by id.  None of this can fail: `schedule()` raises one of
  the exceptions of `ScheduleFailure`, which concern the requests, the collaborators
  and the LoRAs, or it returns.

  The invariant of the RUNNING loop has the `Account` of the step and the place of
  the loop: what is scheduled lies before it in `running`, so no request is scheduled
  twice, and with the FCFS policy no victim was scheduled.
-/
import Edmm.PayloadInvariant
import Edmm.ScheduleAccount

namespace Edmm

open Program

/-! ## 1. What may be raised -/

section
variable {W α : Type} {P : PyError → Prop}

theorem raises_onWorld (f : W → W) : RaisesOnly P (onWorld f) := fun _ => trivial

theorem raises_callWorld (f : W → α × W) : RaisesOnly P (callWorld f) := fun _ => trivial

theorem raises_pyAssert {condition : Prop} [Decidable condition] {error : PyError}
    (h : ¬ condition → P error) :
    RaisesOnly P (pyAssert condition error : SchedM W Unit) := by
  intro s
  rw [wp_pyAssert]
  exact ⟨fun _ => trivial, h⟩

theorem raises_onlyIf {condition : Prop} [Decidable condition] {prog : SchedM W Unit}
    (h : RaisesOnly P prog) : RaisesOnly P (onlyIf condition prog) := by
  unfold onlyIf
  split
  · exact h
  · exact RaisesOnly.pure ()

end

namespace Scheduler

variable {W : Type}

def encoderInputsFirst : PyError :=
  .assertionError
    ("Encoder input should be processed at the beginning of " ++
      "the sequence when encoder-decoder models are used.")

/-- The exceptions of `schedule()` that its own accounts cannot exclude. -/
inductive ScheduleFailure (scheduler : Scheduler W) : PyError → Prop where
  | encoderInputs (h : scheduler.isEncoderDecoder = true) :
      ScheduleFailure scheduler encoderInputsFirst
  | loras (h : scheduler.maxLoras.isSome = true) :
      ScheduleFailure scheduler (.assertFailed "len(scheduled_loras) <= self.lora_config.max_loras")
  | streamingQueue : ScheduleFailure scheduler (.assertFailed "not request.streaming_queue")
  | computedTokens :
      ScheduleFailure scheduler (.assertFailed "num_computed_tokens <= request.num_tokens")
  | computedPrompt :
      ScheduleFailure scheduler (.assertFailed "num_computed_tokens <= request.num_prompt_tokens")
  | externalTokens (h : scheduler.hasConnector = true) :
      ScheduleFailure scheduler (.assertFailed "num_external_computed_tokens > 0")
  | newTokens : ScheduleFailure scheduler numNewTokensPositive
  | splitExternalTokens (h : scheduler.hasConnector = true) :
      ScheduleFailure scheduler
        (.assertionError "External KV connector is not verified yet")
  | previousStep : ScheduleFailure scheduler (.assertFailed "not scheduled_in_prev_step")

section
variable (self : Scheduler W)

theorem encoderInputsLoop_raises (r : Request) (numComputed shift : Int)
    (features : List (MultiModalFeatureSpec × Nat)) (acc : EncoderLocals) :
    RaisesOnly (fun e => self.isEncoderDecoder = true ∧ e = encoderInputsFirst)
      (self.encoderInputsLoop r numComputed shift features acc) := by
  induction features generalizing acc with
  | nil => exact RaisesOnly.pure acc
  | cons feature rest ih =>
    rcases feature with ⟨mmFeature, i⟩
    unfold encoderInputsLoop
    dsimp only
    split
    · exact RaisesOnly.pure acc
    split
    · rename_i hencoderDecoder
      apply RaisesOnly.bind (raises_pyAssert fun _ => ⟨hencoderDecoder.1, rfl⟩)
      exact fun _ => ih acc
    split
    · exact ih acc
    split
    · exact ih acc
    apply RaisesOnly.bind
    · split
      · exact RaisesOnly.pure false
      · exact raises_callWorld _
    intro cached
    split
    · exact ih acc
    split
    · exact RaisesOnly.pure _
    apply RaisesOnly.bind (raises_callWorld _)
    intro allocatable
    split
    · exact RaisesOnly.pure _
    apply RaisesOnly.get_bind
    intro s
    split
    · exact ih acc
    split
    · exact ih _
    · exact ih _

theorem planEncoderInputs_raises (r : Request) (numComputed numNewTokens budget : Int) :
    RaisesOnly (fun e => self.isEncoderDecoder = true ∧ e = encoderInputsFirst)
      (self.planEncoderInputs r numComputed numNewTokens budget) := by
  unfold planEncoderInputs
  split
  · unfold tryScheduleEncoderInputs
    split
    · exact RaisesOnly.pure _
    · apply RaisesOnly.bind (self.encoderInputsLoop_raises r numComputed _ _ _)
      exact fun acc => RaisesOnly.pure acc.plan
  · exact RaisesOnly.pure _

theorem mambaBlockAlignedSplit_raises (r : Request) (n localTokens externalTokens : Int) :
    RaisesOnly (fun e => externalTokens ≠ 0 ∧
        e = .assertionError "External KV connector is not verified yet")
      (self.mambaBlockAlignedSplit r n localTokens externalTokens) := by
  apply RaisesOnly.bind (raises_pyAssert fun hne => ⟨hne, rfl⟩)
  intro _
  dsimp only
  split
  · split
    · exact RaisesOnly.pure _
    · split
      · exact RaisesOnly.pure _
      · exact RaisesOnly.pure _
  · exact RaisesOnly.pure _

theorem allocateEncoderInputs_raises (request : Ref) (inputs : List Nat) :
    RaisesOnly (fun _ => False) (self.allocateEncoderInputs request inputs) := by
  apply RaisesOnly.forM
  intro i _
  apply RaisesOnly.get_bind
  intro s
  exact RaisesOnly.bind (raises_onWorld _) fun _ => raises_onlyIf (raises_onWorld _)

theorem allocateWaiting_raises (r : Request) (found : ComputedTokens) (plan : EncoderPlan) :
    RaisesOnly (fun _ => False) (self.allocateWaiting r found plan) := by
  apply RaisesOnly.bind (raises_callWorld _)
  intro newBlocks
  cases newBlocks with
  | none => exact RaisesOnly.bind (raises_onlyIf (raises_onWorld _)) fun _ => RaisesOnly.pure false
  | some blocks =>
    exact RaisesOnly.bind (raises_onlyIf (raises_onWorld _)) fun _ => RaisesOnly.pure true

/-- A program that touches the collaborators only and raises nothing. -/
theorem returns_of_touches {α : Type} {prog : SchedM W α} {Q : α → Prop}
    (htouches : TouchesWorld prog Q) (hraises : RaisesOnly (fun _ => False) prog)
    (s : SchedulerState W) :
    wp prog (fun a s' => Q a ∧ ∃ w, s' = { s with world := w }) (fun _ _ => False) s :=
  wp_mono (wp_and_raisesOnly (htouches s) hraises) (fun _ _ h => h) fun _ _ h => h.2

theorem scheduleEncoderInputs_wp (request : Ref) (requestId : RequestId) (plan : EncoderPlan)
    (l : StepLocals) (s : SchedulerState W) :
    wp (self.scheduleEncoderInputs request requestId plan l)
      (fun l' s' => l' = withEncoderInputs requestId plan l ∧ ∃ w, s' = { s with world := w })
      (fun _ _ => False) s := by
  have hallocate : ∀ inputs s', (∃ w, s' = { s with world := w }) →
      wp (self.allocateEncoderInputs request inputs)
        (fun _ s'' => ∃ w, s'' = { s with world := w }) (fun _ _ => False) s' := by
    rintro inputs s' ⟨w, rfl⟩
    apply wp_mono_ok (returns_of_touches (self.allocateEncoderInputs_touches request inputs)
      (self.allocateEncoderInputs_raises request inputs) _)
    rintro _ s'' ⟨_, w', rfl⟩
    exact ⟨w', rfl⟩
  unfold scheduleEncoderInputs
  rw [wp_bind]
  apply wp_mono_ok (hallocate _ s ⟨s.world, rfl⟩)
  intro _ s' hs'
  rw [wp_bind]
  apply wp_mono_ok (hallocate _ s' hs')
  exact fun _ s'' hs'' => ⟨rfl, hs''⟩

end

/-! ## 2. The place of the RUNNING loop -/

/-- The RUNNING loop looks at `request`: what is scheduled lies before it. -/
def Stands (request : Ref) (running scheduled : List Ref) (reqIndex : Nat) : Prop :=
  ∃ before after, running = before ++ request :: after ∧ (∀ x ∈ scheduled, x ∈ before) ∧
    before.length ≤ reqIndex

section
variable {request victim : Ref} {running scheduled : List Ref} {reqIndex : Nat}

theorem stands_of_getElem? (hrequest : running[reqIndex]? = some request)
    (hexamined : ∀ x ∈ scheduled, x ∈ running.take reqIndex) :
    Stands request running scheduled reqIndex := by
  obtain ⟨hlt, hget⟩ := List.getElem?_eq_some_iff.mp hrequest
  refine ⟨running.take reqIndex, running.drop (reqIndex + 1), ?_, hexamined, ?_⟩
  · rw [← hget, List.getElem_cons_drop, List.take_append_drop]
  · exact List.length_take_le reqIndex running

namespace Stands

theorem mem (h : Stands request running scheduled reqIndex) : request ∈ running := by
  obtain ⟨before, after, rfl, _, _⟩ := h
  simp

theorem not_mem (h : Stands request running scheduled reqIndex) (hnodup : running.Nodup) :
    request ∉ scheduled := by
  obtain ⟨before, after, rfl, hscheduled, _⟩ := h
  intro hmem
  rw [List.nodup_append] at hnodup
  exact hnodup.2.2 request (hscheduled request hmem) request List.mem_cons_self rfl

/-- The request is scheduled, and the loop goes on. -/
theorem examined (h : Stands request running scheduled reqIndex) :
    ∀ x ∈ scheduled ++ [request], x ∈ running.take (reqIndex + 1) := by
  obtain ⟨before, after, rfl, hscheduled, hlength⟩ := h
  have htake : before ++ [request] <+: (before ++ request :: after).take (reqIndex + 1) := by
    rw [List.prefix_take_iff]
    constructor
    · exact ⟨after, by simp⟩
    · simpa using hlength
  intro x hx
  apply htake.subset
  rcases List.mem_append.mp hx with hx | hx
  · exact List.mem_append_left _ (hscheduled x hx)
  · exact List.mem_append_right _ hx

/-- Another request leaves `running`; the requests scheduled before it stay. -/
theorem erase (h : Stands request running scheduled reqIndex) (hne : victim ≠ request)
    (hunscheduled : victim ∉ scheduled) :
    Stands request (running.erase victim) scheduled reqIndex := by
  obtain ⟨before, after, rfl, hscheduled, hlength⟩ := h
  by_cases hbefore : victim ∈ before
  · refine ⟨before.erase victim, after, List.erase_append_left _ hbefore, ?_, ?_⟩
    · intro x hx
      have hx' : x ≠ victim := by
        rintro rfl
        exact hunscheduled hx
      exact (List.mem_erase_of_ne hx').mpr (hscheduled x hx)
    · exact (List.length_erase_le).trans hlength
  · refine ⟨before, after.erase victim, ?_, hscheduled, hlength⟩
    rw [List.erase_append_right _ hbefore, List.erase_cons_tail (by simpa using hne.symm)]

/-- A scheduled request leaves `running`, and the loop steps back. -/
theorem eraseScheduled (h : Stands request running scheduled reqIndex)
    (hvictim : victim ∈ scheduled) (honce : scheduled.Nodup) :
    Stands request (running.erase victim) (scheduled.erase victim) (reqIndex - 1) := by
  obtain ⟨before, after, rfl, hscheduled, hlength⟩ := h
  have hbefore := hscheduled victim hvictim
  refine ⟨before.erase victim, after, List.erase_append_left _ hbefore, ?_, ?_⟩
  · intro x hx
    rw [honce.mem_erase_iff] at hx
    exact (List.mem_erase_of_ne hx.1).mpr (hscheduled x hx.2)
  · rw [List.length_erase_of_mem hbefore]
    omega

/-- The last request was not scheduled yet. -/
theorem last_not_mem {others : List Ref} (h : Stands request (others ++ [victim]) scheduled reqIndex)
    (hnodup : (others ++ [victim]).Nodup) : victim ∉ scheduled := by
  obtain ⟨before, after, heq, hscheduled, _⟩ := h
  intro hmem
  have hbefore := hscheduled victim hmem
  rw [heq, List.nodup_append] at hnodup
  have hlast : victim ∈ request :: after := by
    have hgetLast : (before ++ request :: after).getLast? = some victim := by
      rw [← heq, List.getLast?_concat]
    rw [List.getLast?_append_of_ne_nil _ (List.cons_ne_nil _ _)] at hgetLast
    exact List.mem_of_getLast? hgetLast
  exact hnodup.2.2 victim hbefore victim hlast rfl

end Stands

end

/-! ## 3. The RUNNING loop -/

/-- No more tokens of the request are computed than it has, or than the model takes. -/
def NotAhead (self : Scheduler W) (r : Request) : Prop :=
  r.numComputedTokens ≤ r.numTokensWithSpec + r.numOutputPlaceholders ∧
    r.numComputedTokens < self.maxModelLen

/-- Taking a victim back returns tokens: with the FCFS policy no victim was scheduled, and
    otherwise no request was handed less than none. -/
def Refundable (self : Scheduler W) (s : SchedulerState W) : Prop :=
  self.policy = .fcfs ∨ ∀ x ∈ s.running, self.NotAhead (s.objs x)

/-- The invariant of the RUNNING loop that `schedule()` enters in the state `start`. -/
structure InRunningLoop (scheduler : Scheduler W) (start : SchedulerState W) (budget : Int)
    (s : SchedulerState W) (l : StepLocals) : Prop where
  allRunning : AllRunning s
  requestId : ∀ x, (s.objs x).requestId = (start.objs x).requestId
  distinct : DistinctIds (fun x => (start.objs x).requestId) s.running
  account : Account (fun x => (start.objs x).requestId) budget s.running l
  noneNew : l.scheduledNewReqs = [] ∧ l.scheduledResumedReqs = []
  untouched : ∀ x ∈ s.running, x ∉ l.scheduledRunningReqs → s.objs x = start.objs x
  charged : (∀ x ∈ start.running, scheduler.NotAhead (start.objs x)) →
    ∀ reqId n, l.numScheduledTokens.get? reqId = some n → 0 < n
  preempted : ∀ x ∈ l.preemptedReqs, x ∈ s.waiting ∧ (s.objs x).status = .preempted
  sublist : s.running.Sublist start.running

section
variable {self : Scheduler W} {start s s' : SchedulerState W} {budget : Int} {l l' : StepLocals}
  {request victim : Ref}

theorem InRunningLoop.scheduledReqs_eq (h : self.InRunningLoop start budget s l) :
    scheduledReqs l = l.scheduledRunningReqs := by
  rw [scheduledReqs, h.noneNew.1, h.noneNew.2, List.append_nil, List.append_nil]

theorem InRunningLoop.withWorld (h : self.InRunningLoop start budget s l) (w : W) :
    self.InRunningLoop start budget { s with world := w } l :=
  ⟨h.allRunning, h.requestId, h.distinct, h.account, h.noneNew, h.untouched, h.charged,
    h.preempted, h.sublist⟩

/-- The loop goes on to the next request. -/
theorem InRunningLoop.pass (h : self.InRunningLoop start budget s l) :
    self.InRunningLoop start budget s { l with reqIndex := l.reqIndex + 1 } :=
  ⟨h.allRunning, h.requestId, h.distinct, h.account.of_locals (l.reqIndex + 1) l.scheduledLoras
    l.stepSkippedWaiting, h.noneNew, h.untouched, h.charged, h.preempted, h.sublist⟩

/-- The victim is picked, and what it was handed in this step is given back. -/
structure VictimTaken (start : SchedulerState W) (budget : Int) (running : List Ref)
    (l : StepLocals) (victim : Ref) (l' : StepLocals) : Prop where
  mem : victim ∈ running
  account : Account (fun x => (start.objs x).requestId) budget running l'
  unscheduled : victim ∉ l'.scheduledRunningReqs
  noneNew : l'.scheduledNewReqs = [] ∧ l'.scheduledResumedReqs = []
  others : ∀ x, x ≠ victim → x ∉ l'.scheduledRunningReqs → x ∉ l.scheduledRunningReqs
  tokens : ∀ reqId n, l'.numScheduledTokens.get? reqId = some n →
    l.numScheduledTokens.get? reqId = some n
  budget : l.tokenBudget ≤ l'.tokenBudget
  preempted : l'.preemptedReqs = l.preemptedReqs

theorem VictimTaken.of_unscheduled (h : self.InRunningLoop start budget s l)
    (hmem : victim ∈ s.running) (hunscheduled : victim ∉ l.scheduledRunningReqs) :
    VictimTaken start budget s.running l victim l :=
  ⟨hmem, h.account, hunscheduled, h.noneNew, fun _ _ hx => hx, fun _ _ hget => hget, le_refl _, rfl⟩

theorem popPreemptionVictim_account (h : self.InRunningLoop start budget s l)
    (hstands : Stands request s.running l.scheduledRunningReqs l.reqIndex)
    (hrefundable : self.Refundable start) :
    wp (self.popPreemptionVictim l)
      (fun victim s' => VictimTaken start budget s.running l victim.1 victim.2 ∧
        s' = { s with running := s.running.erase victim.1 } ∧
        (victim.1 ≠ request → Stands request s'.running victim.2.scheduledRunningReqs
          victim.2.reqIndex))
      (fun _ _ => False) s := by
  unfold popPreemptionVictim
  rw [wp_bind, wp_get]
  split
  · rename_i hpolicy
    dsimp only
    have hahead : ∀ x ∈ start.running, self.NotAhead (start.objs x) := by
      rcases hrefundable with hfcfs | hahead
      · rw [hfcfs] at hpolicy
        cases hpolicy
      · exact hahead
    split
    · rename_i hnone
      have hmem := hstands.mem
      cases hrunning : s.running with
      | nil =>
        rw [hrunning] at hmem
        cases hmem
      | cons x rest =>
        rw [hrunning] at hnone
        simp [Python.maxBy] at hnone
    · rename_i victim hvictim
      have hmem : victim ∈ s.running := Python.maxBy_mem hvictim
      rw [wp_bind, wp_modify, wp_bind]
      unfold unschedule
      split
      · rename_i hscheduled
        have hscheduled' : victim ∈ scheduledReqs l := List.mem_append_left _ hscheduled
        simp only [wp_bind, wp_getOrRaise, wp_pyAssert, wp_pure, h.requestId]
        constructor
        · intro numTokens htokens
          have hpositive := h.charged hahead _ _ htokens
          have hsolvent := h.account.solvent
          obtain ⟨haccount, hunscheduled⟩ := h.account.dropScheduled h.requestId h.distinct
            hscheduled htokens (by omega)
          have honce := h.account.once
          rw [h.scheduledReqs_eq] at honce
          constructor
          · intro _
            refine ⟨?_, trivial, fun _ => hstands.eraseScheduled hscheduled honce⟩
            exact
              { mem := hmem
                account := haccount
                unscheduled := fun hv => hunscheduled (List.mem_append_left _ hv)
                noneNew := h.noneNew
                others := fun x hx hnot hin => hnot ((List.mem_erase_of_ne hx).mpr hin)
                tokens := by
                  intro reqId n hget
                  simp only [dropScheduled, h.requestId, Dict.get?_erase] at hget
                  split at hget
                  · cases hget
                  · exact hget
                budget := by
                  simp only [dropScheduled]
                  omega
                preempted := rfl }
          · intro hblocks
            obtain ⟨blocks, hget⟩ := h.account.blocks.get?_isSome hscheduled'
            rw [hget] at hblocks
            exact hblocks rfl
        · intro hnone
          obtain ⟨numTokens, hget⟩ := h.account.tokens.get?_isSome hscheduled'
          rw [hget] at hnone
          cases hnone
      · rename_i hunscheduled
        rw [wp_pure]
        exact ⟨.of_unscheduled h hmem hunscheduled, rfl,
          fun hne => hstands.erase hne hunscheduled⟩
  · split
    · rename_i hnone
      have hmem := hstands.mem
      rw [List.getLast?_eq_none_iff.mp hnone] at hmem
      cases hmem
    · rename_i victim hvictim
      obtain ⟨others, hothers⟩ := List.getLast?_eq_some_iff.mp hvictim
      have hnodup := h.allRunning.2
      rw [hothers] at hnodup
      have hunscheduled : victim ∉ l.scheduledRunningReqs := by
        rw [hothers] at hstands
        exact hstands.last_not_mem hnodup
      have hdropLast : s.running.dropLast = s.running.erase victim := by
        have hfresh : victim ∉ others := by
          intro hmem
          exact (List.nodup_append.mp hnodup).2.2 victim hmem victim (by simp) rfl
        rw [hothers, List.dropLast_concat, List.erase_append_right _ hfresh]
        simp
      rw [wp_bind, wp_modify, wp_pure, hdropLast]
      exact ⟨.of_unscheduled h (by rw [hothers]; simp) hunscheduled, rfl,
        fun hne => hstands.erase hne hunscheduled⟩

/-- The victim is preempted. -/
theorem InRunningLoop.preempt (h : self.InRunningLoop start budget s l)
    (htaken : VictimTaken start budget s.running l victim l') (w w' : W) :
    self.InRunningLoop start budget
      (self.afterPreempt { s with world := w, running := s.running.erase victim } victim w')
      { l' with preemptedReqs := l'.preemptedReqs ++ [victim] } := by
  have hmem : ∀ x ∈ s.running.erase victim, x ∈ s.running :=
    fun x hx => List.mem_of_mem_erase hx
  have hne : ∀ x ∈ s.running.erase victim, x ≠ victim :=
    fun x hx => ((h.allRunning.2.mem_erase_iff).mp hx).1
  have hobjs : ∀ x, x ≠ victim → (self.afterPreempt
      { s with world := w, running := s.running.erase victim } victim w').objs x = s.objs x :=
    fun x hx => Function.update_of_ne hx _ _
  have hreqs : scheduledReqs l' = l'.scheduledRunningReqs := by
    rw [scheduledReqs, htaken.noneNew.1, htaken.noneNew.2, List.append_nil, List.append_nil]
  constructor
  · refine ⟨?_, h.allRunning.2.erase victim⟩
    intro x hx
    rw [hobjs x (hne x hx)]
    exact h.allRunning.1 x (hmem x hx)
  · intro x
    by_cases hx : x = victim
    · rw [hx, ← h.requestId victim]
      simp [afterPreempt, Scheduler.preempted]
    · rw [hobjs x hx]
      exact h.requestId x
  · exact h.distinct.mono hmem
  · exact htaken.account.preempt h.allRunning.2 htaken.mem (hreqs ▸ htaken.unscheduled)
  · exact htaken.noneNew
  · intro x hx hunscheduled
    rw [hobjs x (hne x hx)]
    exact h.untouched x (hmem x hx) (htaken.others x (hne x hx) hunscheduled)
  · exact fun hahead reqId n hget => h.charged hahead reqId n (htaken.tokens reqId n hget)
  · intro x hx
    by_cases hvictim : x = victim
    · rw [hvictim, afterPreempt, SchedulerState.objs_updateRequest_self]
      exact ⟨self.mem_prependRequest.mpr (Or.inl rfl), rfl⟩
    · have hx : x ∈ l.preemptedReqs := by
        rw [← htaken.preempted]
        exact (List.mem_append.mp hx).resolve_right fun hmem => hvictim (List.mem_singleton.mp hmem)
      obtain ⟨hwaiting, hstatus⟩ := h.preempted x hx
      rw [hobjs x hvictim]
      exact ⟨self.mem_prependRequest.mpr (Or.inr hwaiting), hstatus⟩
  · exact (List.erase_sublist).trans h.sublist

/-- Slots are allocated for the request, or it is preempted itself.  Every victim leaves
    `running`, so `running` is long enough as a bound of the loop. -/
theorem allocateOrPreempt_account (request : Ref) (numNewTokens : Int) (fuel : Nat)
    (h : self.InRunningLoop start budget s l)
    (hstands : Stands request s.running l.scheduledRunningReqs l.reqIndex)
    (hrefundable : self.Refundable start) (hfuel : s.running.length ≤ fuel)
    (hfits : numNewTokens ≤ l.tokenBudget) :
    wp (self.allocateOrPreempt request numNewTokens fuel l)
      (fun allocated s' => self.InRunningLoop start budget s' allocated.2 ∧
        (allocated.1 = none → request ∈ allocated.2.preemptedReqs) ∧
        (allocated.1.isSome = true → numNewTokens ≤ allocated.2.tokenBudget ∧
          Stands request s'.running allocated.2.scheduledRunningReqs allocated.2.reqIndex))
      (fun _ _ => False) s := by
  induction fuel generalizing s l with
  | zero =>
    have hmem := hstands.mem
    rw [List.length_eq_zero_iff.mp (Nat.le_zero.mp hfuel)] at hmem
    cases hmem
  | succ fuel ih =>
    unfold allocateOrPreempt
    rw [wp_bind, wp_getRequest, wp_bind, wp_callWorld]
    generalize self.externals.allocateSlots s.world (s.objs request) _ = answer
    cases hblocks : answer.1 with
    | some blocks => exact ⟨h.withWorld answer.2, (fun h => by cases h), fun _ => ⟨hfits, hstands⟩⟩
    | none =>
      dsimp only
      rw [wp_bind]
      apply wp_mono_of_returns
        (popPreemptionVictim_account (h.withWorld answer.2) hstands hrefundable)
      rintro ⟨victim, l'⟩ s' ⟨htaken, rfl, hother⟩
      have hstatus : (s.objs victim).status = .running := h.allRunning.1 victim htaken.mem
      rw [wp_bind]
      apply self.preemptRequest_wp
      · intro _ w
        have hafter := h.preempt htaken answer.2 w
        split
        · rename_i hself
          have hself : victim = request := hself
          subst hself
          exact ⟨hafter, fun _ => List.mem_append_right _ (List.mem_singleton.mpr rfl),
            fun h => by cases h⟩
        · rename_i hne
          have hbudget : l.tokenBudget ≤ l'.tokenBudget := htaken.budget
          have hshorter : (s.running.erase victim).length ≤ fuel := by
            have hmem : victim ∈ s.running := htaken.mem
            have hlength : s.running.length ≤ fuel + 1 := hfuel
            rw [List.length_erase_of_mem hmem]
            omega
          apply ih hafter (hother hne) hshorter
          exact hfits.trans hbudget
      · exact fun hnot => hnot hstatus

theorem scheduleRunning_account (plan : EncoderPlan) (newBlocks : KVCacheBlocks)
    (h : self.InRunningLoop start budget s l)
    (hstands : Stands request s.running l.scheduledRunningReqs l.reqIndex)
    (hfits : plan.numNewTokens ≤ l.tokenBudget)
    (hpositive : (∀ x ∈ start.running, self.NotAhead (start.objs x)) → 0 < plan.numNewTokens) :
    wp (self.scheduleRunning request plan newBlocks l)
      (fun l' s' => self.InRunningLoop start budget s' l' ∧
        ∀ x ∈ l'.scheduledRunningReqs, x ∈ s'.running.take l'.reqIndex)
      (fun _ _ => False) s := by
  have hunscheduled : request ∉ l.scheduledRunningReqs := hstands.not_mem h.allRunning.2
  have haccount := h.account.schedule newBlocks (h.requestId request) hfits
    (by rwa [h.scheduledReqs_eq]) hstands.mem h.distinct
  unfold scheduleRunning
  rw [wp_bind, wp_getRequest, wp_bind, wp_modifyRequest]
  apply wp_mono_of_returns (self.scheduleEncoderInputs_wp request _ plan _ _)
  rintro l' s' ⟨rfl, w, rfl⟩
  obtain ⟨inputs, encoderBudget, hlocals⟩ := withEncoderInputs_eq (s.objs request).requestId plan
    (addRunning l request (s.objs request) plan.numNewTokens newBlocks)
  rw [hlocals] at haccount ⊢
  refine ⟨?_, hstands.examined⟩
  have hsame : ∀ x, (((s.updateRequest request clearSpecTokens).objs x).status =
      (s.objs x).status) ∧ ((s.updateRequest request clearSpecTokens).objs x).requestId =
      (s.objs x).requestId := by
    intro x
    rw [SchedulerState.objs_updateRequest]
    split
    · rename_i hx
      rw [hx]
      exact ⟨rfl, rfl⟩
    · exact ⟨rfl, rfl⟩
  constructor
  · refine ⟨?_, h.allRunning.2⟩
    intro x hx
    rw [← h.allRunning.1 x hx]
    exact (hsame x).1
  · intro x
    rw [← h.requestId x]
    exact (hsame x).2
  · exact h.distinct
  · exact haccount
  · exact h.noneNew
  · intro x hx hnot
    have hnot : x ∉ l.scheduledRunningReqs ∧ x ≠ request := by
      simpa [addRunning] using hnot
    rw [← h.untouched x hx hnot.1]
    exact SchedulerState.objs_updateRequest_of_ne _ _ hnot.2
  · intro hahead reqId n hget
    simp only [addRunning, Dict.get?_set] at hget
    split at hget
    · cases hget
      exact hpositive hahead
    · exact h.charged hahead reqId n hget
  · intro x hx
    obtain ⟨hwaiting, hstatus⟩ := h.preempted x hx
    rw [← hstatus]
    exact ⟨hwaiting, (hsame x).1⟩
  · exact h.sublist

/-- The number of tokens planned for a running request fits into the budget. -/
theorem runningNewTokens_le (tokenBudget : Int) (r : Request) :
    self.runningNewTokens tokenBudget r ≤ tokenBudget := by
  unfold runningNewTokens
  omega

/-- It is not negative, unless more is computed of the request than there is. -/
theorem runningNewTokens_nonneg {tokenBudget : Int} {r : Request} (hbudget : 0 < tokenBudget)
    (hahead : self.NotAhead r) : 0 ≤ self.runningNewTokens tokenBudget r := by
  have htokens := hahead.1
  have hmodel := hahead.2
  unfold runningNewTokens clampToThreshold
  split <;> omega

/-- One iteration of the RUNNING loop. -/
theorem runningStep_account (h : self.InRunningLoop start budget s l)
    (hrequest : s.running[l.reqIndex]? = some request)
    (hexamined : ∀ x ∈ l.scheduledRunningReqs, x ∈ s.running.take l.reqIndex)
    (hrefundable : self.Refundable start) (hbudget : 0 < l.tokenBudget) :
    wp (self.runningStep l request)
      (fun control s' => self.InRunningLoop start budget s' control.locals ∧
        ∀ l', control = .next l' → ∀ x ∈ l'.scheduledRunningReqs,
          x ∈ s'.running.take l'.reqIndex)
      (fun e _ => self.ScheduleFailure e) s := by
  have hstands := stands_of_getElem? hrequest hexamined
  have hpass : ∀ s' : SchedulerState W, s'.running = s.running →
      ∀ l', LoopControl.next { l with reqIndex := l.reqIndex + 1 } = .next l' →
        ∀ x ∈ l'.scheduledRunningReqs, x ∈ s'.running.take l'.reqIndex := by
    rintro s' hrunning l' ⟨⟩ x hx
    rw [hrunning]
    exact (List.take_prefix_take_left (Nat.le_succ _)).subset (hexamined x hx)
  have hunscheduled : request ∉ l.scheduledRunningReqs := hstands.not_mem h.allRunning.2
  have hobjs : s.objs request = start.objs request := h.untouched request hstands.mem hunscheduled
  unfold runningStep
  rw [wp_bind, wp_getRequest]
  split
  · exact ⟨h.pass, hpass s rfl⟩
  rw [wp_bind]
  apply wp_mono (wp_and_raisesOnly (self.planEncoderInputs_touches _ _ _ _ s)
    (self.planEncoderInputs_raises _ _ _ _))
  swap
  · rintro e s' ⟨_, hencoderDecoder, rfl⟩
    exact ScheduleFailure.encoderInputs hencoderDecoder
  rintro plan s' ⟨hplan, w, rfl⟩
  have hsplit : TouchesWorld
      (if self.needMambaBlockAlignedSplit then
        self.mambaBlockAlignedSplit (s.objs request) plan.numNewTokens 0 0
      else pure plan.numNewTokens : SchedM W Int)
      fun n => n ≤ plan.numNewTokens ∧ (0 ≤ plan.numNewTokens → 0 ≤ n) := by
    split
    · exact self.mambaBlockAlignedSplit_touches _ _ _ _
    · exact TouchesWorld.pure ⟨le_refl _, id⟩
  have hsplitReturns : RaisesOnly (fun _ => False)
      (if self.needMambaBlockAlignedSplit then
        self.mambaBlockAlignedSplit (s.objs request) plan.numNewTokens 0 0
      else pure plan.numNewTokens : SchedM W Int) := by
    split
    · exact (self.mambaBlockAlignedSplit_raises _ _ _ _).mono fun e he => he.1 rfl
    · exact RaisesOnly.pure _
  rw [wp_bind]
  apply wp_mono_of_returns (returns_of_touches hsplit hsplitReturns _)
  rintro n s' ⟨hn, w', rfl⟩
  split
  · exact ⟨h.withWorld w' |>.pass, hpass _ rfl⟩
  rename_i hsome
  have hwanted := self.runningNewTokens_le l.tokenBudget (s.objs request)
  have hfits : n ≤ l.tokenBudget := by
    rcases hplan.1 with hzero | hle <;> omega
  have hpositive : (∀ x ∈ start.running, self.NotAhead (start.objs x)) → 0 < n := by
    intro hahead
    have hnonneg := runningNewTokens_nonneg hbudget
      (hahead request (h.sublist.subset hstands.mem))
    rw [← hobjs] at hnonneg
    have hplanned := hplan.2 hnonneg
    have := hn.2 hplanned
    omega
  rw [wp_bind, wp_get, wp_bind]
  apply wp_mono_of_returns (allocateOrPreempt_account request n _ (h.withWorld w') hstands
    hrefundable (le_refl _) hfits)
  rintro ⟨newBlocks, l'⟩ s' ⟨hafter, _, hallocated⟩
  cases newBlocks with
  | none => exact ⟨hafter, fun _ h => by cases h⟩
  | some newBlocks =>
    obtain ⟨hfits', hstands'⟩ := hallocated rfl
    dsimp only
    rw [wp_bind]
    apply wp_mono_of_returns (scheduleRunning_account { plan with numNewTokens := n } newBlocks
      hafter hstands' hfits' hpositive)
    rintro l'' s'' ⟨hscheduled, hexamined''⟩
    exact ⟨hscheduled, fun l₁ hl₁ => by cases hl₁; exact hexamined''⟩

theorem runningLoop_account (fuel : Nat) (h : self.InRunningLoop start budget s l)
    (hexamined : ∀ x ∈ l.scheduledRunningReqs, x ∈ s.running.take l.reqIndex)
    (hrefundable : self.Refundable start) :
    wp (self.runningLoop fuel l)
      (fun l' s' => self.InRunningLoop start budget s' l') (fun e _ => self.ScheduleFailure e)
      s := by
  induction fuel generalizing s l with
  | zero => exact h
  | succ fuel ih =>
    unfold runningLoop
    rw [wp_bind, wp_get]
    split
    · exact h
    rename_i request hrequest
    split
    · rename_i hbudget
      rw [wp_bind]
      apply wp_mono_ok (runningStep_account h hrequest hexamined hrefundable hbudget)
      rintro control s' ⟨hafter, hnext⟩
      cases control with
      | stop l' => exact hafter
      | next l' => exact ih hafter (hnext l' rfl)
    · exact h

end

/-! ## 4. The WAITING loop -/

section
variable (self : Scheduler W) {s : SchedulerState W} {l : StepLocals}

/-- What one iteration of the WAITING loop does to `running` and the account: nothing, or
    one waiting request is admitted. -/
def Admission (s : SchedulerState W) (l : StepLocals) (s' : SchedulerState W) (l' : StepLocals) :
    Prop :=
  (s'.running = s.running ∧ ∃ aside, l' = { l with stepSkippedWaiting := aside }) ∨
  ∃ request r plan blocks, request ∈ waitingQueues s l.stepSkippedWaiting ∧
    r.requestId = (s.objs request).requestId ∧ s'.running = s.running ++ [request] ∧
    0 < plan.numNewTokens ∧ plan.numNewTokens ≤ l.tokenBudget ∧
    l' = withEncoderInputs r.requestId plan
      (self.addWaiting l request r plan.numNewTokens blocks)

theorem select_of_waiting (s : SchedulerState W) (h : s.waiting ≠ [] ∨ s.skippedWaiting ≠ []) :
    ∃ which request, self.selectWaitingQueueForScheduling s = some which ∧
      (queue s which).head? = some request := by
  have hhead : ∀ which, queue s which ≠ [] → ∃ request, (queue s which).head? = some request :=
    fun which hne => ⟨_, List.head?_eq_some_head hne⟩
  unfold selectWaitingQueueForScheduling
  split
  · by_cases hskipped : s.skippedWaiting = []
    · have hwaiting : s.waiting ≠ [] := h.resolve_right (not_not.mpr hskipped)
      obtain ⟨request, hrequest⟩ := hhead .waiting hwaiting
      exact ⟨.waiting, request, by simp [hskipped, hwaiting], hrequest⟩
    · obtain ⟨request, hrequest⟩ := hhead .skippedWaiting hskipped
      exact ⟨.skippedWaiting, request, by simp [hskipped], hrequest⟩
  · split
    · rename_i waitingReq skippedReq hwaiting hskipped
      split
      · exact ⟨.waiting, waitingReq, rfl, hwaiting⟩
      · exact ⟨.skippedWaiting, skippedReq, rfl, hskipped⟩
    · rename_i waitingReq hwaiting _
      exact ⟨.waiting, waitingReq, rfl, hwaiting⟩
    · rename_i skippedReq _ hskipped
      exact ⟨.skippedWaiting, skippedReq, rfl, hskipped⟩
    · rename_i hwaiting hskipped
      rw [List.head?_eq_none_iff] at hwaiting hskipped
      exact absurd h (by simp [hwaiting, hskipped])

/-- The exceptions of a promotion; whether the KV cache was received is checked before. -/
theorem tryPromote_raises (s : SchedulerState W) (request : Ref)
    (hblocked : (s.objs request).status.isBlockedWaitingStatus = true)
    (hconnector : (s.objs request).status = .waitingForRemoteKvs → self.hasConnector = true) :
    wp (self.tryPromoteBlockedWaitingRequest request) (fun _ _ => True)
      (fun e _ => self.ScheduleFailure e) s := by
  unfold tryPromoteBlockedWaitingRequest
  rw [wp_bind, wp_get]
  dsimp only
  split
  · rename_i hstatus
    rw [wp_ite]
    refine ⟨fun _ => trivial, fun hreceived => ?_⟩
    have hreceived : (s.objs request).requestId ∈ s.finishedRecvingKvReqIds :=
      not_not.mp hreceived
    have hload : wp (self.updateWaitingForRemoteKv request) (fun _ _ => True)
        (fun e _ => self.ScheduleFailure e) s := by
      unfold updateWaitingForRemoteKv
      simp only [wp_bind, wp_pyAssert, wp_get, wp_ite, wp_onWorld, wp_modify, wp_onlyIf,
        wp_modifyRequest, hreceived, not_true, false_implies, and_true, implies_true]
      exact ⟨trivial, fun hnone => absurd (hconnector hstatus) hnone⟩
    rw [wp_bind]
    exact wp_mono_ok hload fun _ _ _ => trivial
  · rw [wp_ite]
    exact ⟨fun _ => trivial, fun _ => trivial⟩
  · rw [wp_bind, wp_pyAssert]
    exact ⟨fun _ => trivial, fun _ => ScheduleFailure.streamingQueue⟩
  · split
    · trivial
    · split
      · trivial
      · split
        · trivial
        · trivial
  · rename_i status h₁ h₂ h₃ h₄
    exfalso
    revert hblocked
    cases hs : (s.objs request).status <;> simp_all [RequestStatus.isBlockedWaitingStatus]

/-- Tokens are loaded from outside through the connector only. -/
def ExternallyLoaded (found : ComputedTokens) : Prop :=
  (found.numExternalComputedTokens ≠ 0 → self.hasConnector = true) ∧
    (found.loadKvAsync = true → self.hasConnector = true)

theorem findComputedTokens_account (s : SchedulerState W) (request : Ref) :
    wp (self.findComputedTokens request)
      (fun found s' => (∃ w trace, s' = { s with world := w, trace }) ∧
        ∀ computed, found = some computed → self.ExternallyLoaded computed)
      (fun e _ => self.ScheduleFailure e) s := by
  unfold findComputedTokens
  rw [wp_bind, wp_getRequest, wp_ite]
  constructor
  · intro hzero
    rw [wp_bind, wp_record, wp_bind, wp_callWorld]
    generalize self.externals.getComputedBlocks _ _ = cached
    have hmatched : wp
        (if self.hasConnector then
          callWorld fun w => self.externals.getNumNewMatchedTokens w (s.objs request) cached.1.2
        else pure (some 0, false) : SchedM W (Option Int × Bool))
        (fun matched s' => (∃ w trace, s' = { s with world := w, trace }) ∧
          (self.hasConnector = true ∨ matched = (some 0, false)))
        (fun e _ => self.ScheduleFailure e)
        { s with world := cached.2, trace := s.trace ++ [.prefixLookup request] } := by
      split
      · rename_i hconnector
        exact ⟨⟨_, _, rfl⟩, Or.inl hconnector⟩
      · exact ⟨⟨_, _, rfl⟩, Or.inr rfl⟩
    rw [wp_bind]
    apply wp_mono_ok hmatched
    rintro ⟨extTokens, loadKvAsync⟩ s' ⟨hs', hexternal⟩
    cases extTokens with
    | none => exact ⟨hs', fun _ h => by cases h⟩
    | some extTokens =>
      dsimp only
      rw [wp_bind, wp_pyAssert]
      refine ⟨fun _ => ?_, fun _ => ScheduleFailure.computedTokens⟩
      rw [wp_bind, wp_pyAssert]
      refine ⟨fun _ => ⟨hs', ?_⟩, fun _ => ScheduleFailure.computedPrompt⟩
      intro computed hcomputed
      cases hcomputed
      rcases hexternal with hconnector | hnone
      · exact ⟨fun _ => hconnector, fun _ => hconnector⟩
      · cases hnone
        exact ⟨fun h => absurd rfl h, fun h => by cases h⟩
  · intro hsome
    refine ⟨⟨s.world, s.trace, rfl⟩, ?_⟩
    intro computed hcomputed
    cases hcomputed
    exact ⟨fun h => absurd rfl h, fun h => by cases h⟩

/-- The tokens planned for a request that is not loading: at least one, within the budget. -/
def PlanFits (l : StepLocals) (found : ComputedTokens) (plan : Option EncoderPlan) : Prop :=
  ∀ planned, plan = some planned → found.loadKvAsync = false →
    0 < planned.numNewTokens ∧ planned.numNewTokens ≤ l.tokenBudget

theorem planNewTokens_account (s : SchedulerState W) (l : StepLocals) (r : Request)
    (found : ComputedTokens) (hexternal : self.ExternallyLoaded found) :
    wp (self.planNewTokens l r found)
      (fun plan s' => PlanFits l found plan ∧ ∃ w, s' = { s with world := w })
      (fun e _ => self.ScheduleFailure e) s := by
  unfold planNewTokens
  split
  · rename_i hasync
    rw [wp_bind, wp_pyAssert]
    constructor
    · intro _
      exact ⟨fun planned _ h => absurd hasync (by simp [h]), s.world, rfl⟩
    · exact fun _ => ScheduleFailure.externalTokens (hexternal.2 hasync)
  · dsimp only
    split
    · exact ⟨(fun _ h => by cases h), s.world, rfl⟩
    rw [wp_bind, wp_pyAssert]
    refine ⟨fun hpositive => ?_, fun _ => ScheduleFailure.newTokens⟩
    rw [wp_bind]
    apply wp_mono (wp_and_raisesOnly (self.planEncoderInputs_touches r found.numComputedTokens _ _ s)
      (self.planEncoderInputs_raises _ _ _ _))
    · rintro plan s' ⟨hplan, w, rfl⟩
      refine ⟨?_, w, rfl⟩
      intro planned hplanned _
      split at hplanned
      · cases hplanned
      rename_i hnonzero
      cases hplanned
      have hnonneg := hplan.2 (by omega)
      rcases hplan.1 with hzero | hle
      · exact absurd hzero hnonzero
      · constructor <;> omega
    · rintro e s' ⟨_, hencoderDecoder, rfl⟩
      exact ScheduleFailure.encoderInputs hencoderDecoder

theorem planWaiting_account (s : SchedulerState W) (l : StepLocals) (r : Request)
    (found : ComputedTokens) (hexternal : self.ExternallyLoaded found) :
    wp (self.planWaiting l r found)
      (fun plan s' => PlanFits l found plan ∧ ∃ w, s' = { s with world := w })
      (fun e _ => self.ScheduleFailure e) s := by
  unfold planWaiting
  rw [wp_bind]
  apply wp_mono_ok (self.planNewTokens_account s l r found hexternal)
  rintro plan s' ⟨hplan, w, rfl⟩
  cases plan with
  | none => exact ⟨(fun _ h => by cases h), w, rfl⟩
  | some plan =>
    dsimp only
    split
    · rw [wp_bind]
      apply wp_mono (wp_and_raisesOnly (self.mambaBlockAlignedSplit_touches r plan.numNewTokens _ _ _)
        (self.mambaBlockAlignedSplit_raises _ _ _ _))
      · rintro n s' ⟨hn, w', rfl⟩
        refine ⟨?_, w', rfl⟩
        intro planned hplanned hnotasync
        obtain ⟨hpositive, hle⟩ := hplan plan rfl hnotasync
        split at hplanned
        · cases hplanned
        rename_i hnonzero
        cases hplanned
        have hnonneg := hn.2 hpositive.le
        dsimp only
        omega
      · rintro e s' ⟨_, hne, rfl⟩
        exact ScheduleFailure.splitExternalTokens (hexternal.1 hne)
    · exact ⟨hplan, w, rfl⟩

theorem skipRequest_account (which : WaitingQueue) (request : Ref) {s₀ : SchedulerState W}
    (hrunning : s.running = s₀.running) :
    wp (self.skipRequest which request l)
      (fun control s' => self.Admission s₀ l s' control.locals) (fun e _ => self.ScheduleFailure e)
      s := by
  unfold skipRequest
  rw [wp_bind, wp_modify, wp_bind, wp_get, wp_pure]
  exact Or.inl ⟨(self.running_popRequest which s).trans hrunning, _, rfl⟩

theorem admitWaiting_account (which : WaitingQueue) (request : Ref) (found : ComputedTokens)
    (plan : EncoderPlan) {s₀ : SchedulerState W} (hrunning : s.running = s₀.running)
    (hid : (s.objs request).requestId = (s₀.objs request).requestId)
    (hmem : request ∈ waitingQueues s₀ l.stepSkippedWaiting)
    (hstatus : (s.objs request).status = .waiting ∨ (s.objs request).status = .preempted)
    (hpositive : 0 < plan.numNewTokens) (hfits : plan.numNewTokens ≤ l.tokenBudget) :
    wp (self.admitWaiting which request found plan l)
      (fun control s' => self.Admission s₀ l s' control.locals) (fun e _ => self.ScheduleFailure e)
      s := by
  unfold admitWaiting
  rw [wp_bind, wp_modify, wp_bind, wp_modify, wp_bind, wp_get]
  dsimp only
  rw [self.objs_popRequest, wp_bind, wp_pyAssert]
  refine ⟨fun _ => ?_, fun hnot => absurd hstatus hnot⟩
  rw [wp_bind, wp_modifyRequest, wp_bind]
  apply wp_mono_of_returns (self.scheduleEncoderInputs_wp request _ plan _ _)
  rintro l' s' ⟨rfl, w, rfl⟩
  refine Or.inr ⟨request, s.objs request, plan, _, hmem, hid, ?_, hpositive, hfits, rfl⟩
  rw [← hrunning]
  exact congrArg (· ++ [request]) (self.running_popRequest which s)

theorem considerRequest_account (which : WaitingQueue) (request : Ref) {s₀ : SchedulerState W}
    (hrunning : s.running = s₀.running)
    (hid : (s.objs request).requestId = (s₀.objs request).requestId)
    (hmem : request ∈ waitingQueues s₀ l.stepSkippedWaiting)
    (hstatus : (s.objs request).status = .waiting ∨ (s.objs request).status = .preempted) :
    wp (self.considerRequest which request l)
      (fun control s' => self.Admission s₀ l s' control.locals) (fun e _ => self.ScheduleFailure e)
      s := by
  have hstay : ∀ s' : SchedulerState W, s'.running = s₀.running → self.Admission s₀ l s' l :=
    fun s' hs' => Or.inl ⟨hs', l.stepSkippedWaiting, rfl⟩
  unfold considerRequest
  rw [wp_bind, wp_getRequest]
  split
  · exact self.skipRequest_account which request hrunning
  rw [wp_bind]
  apply wp_mono_ok (self.findComputedTokens_account s request)
  rintro found s' ⟨⟨w, trace, rfl⟩, hexternal⟩
  cases found with
  | none => exact self.skipRequest_account which request hrunning
  | some found =>
    dsimp only
    rw [wp_bind]
    apply wp_mono_ok (self.planWaiting_account _ l (s.objs request) found (hexternal found rfl))
    rintro plan s' ⟨hplan, w', rfl⟩
    cases plan with
    | none => exact hstay _ hrunning
    | some plan =>
      dsimp only
      rw [wp_bind]
      apply wp_mono_of_returns (returns_of_touches
        (self.allocateWaiting_touches (s.objs request) found plan)
        (self.allocateWaiting_raises (s.objs request) found plan) _)
      rintro allocated s' ⟨_, w'', rfl⟩
      split
      · exact hstay _ hrunning
      split
      · unfold loadAsync
        rw [wp_bind, wp_modify, wp_bind, wp_setStatus, wp_bind, wp_get, wp_bind,
          wp_modifyRequest, wp_pure]
        exact Or.inl ⟨(self.running_popRequest which _).trans hrunning, _, rfl⟩
      · rename_i hload
        obtain ⟨hpositive, hfits⟩ := hplan plan rfl (by simpa using hload)
        exact self.admitWaiting_account which request found plan hrunning hid hmem hstatus
          hpositive hfits

/-- One iteration of the WAITING loop. -/
theorem waitingStep_account {rule : QueueRule self}
    (hrule : rule.skipped .waitingForRemoteKvs → self.hasConnector = true)
    (hinOrder : QueuesInOrder rule s l.stepSkippedWaiting)
    (hwaiting : s.waiting ≠ [] ∨ s.skippedWaiting ≠ []) :
    wp (self.waitingStep l) (fun control s' => self.Admission s l s' control.locals)
      (fun e _ => self.ScheduleFailure e) s := by
  obtain ⟨which, request, hselect, hhead⟩ := self.select_of_waiting s hwaiting
  have hmem : request ∈ waitingQueues s l.stepSkippedWaiting :=
    mem_waitingQueues.mpr (heldWaiting_of_head hhead)
  have hskipped := hinOrder.skipped_of_mem hmem
  have hunfinished := rule.unfinished _ hskipped
  unfold waitingStep
  simp only [wp_bind, wp_get, hselect, hhead, wp_record]
  by_cases hblocked : (s.objs request).status.isBlockedWaitingStatus = true
  · rw [if_pos hblocked]
    have hpromote := self.tryPromote_raises (s.record (.examined request)) request hblocked
      fun hstatus => hrule (hstatus ▸ hskipped)
    have heffect := self.tryPromote_wp (s.record (.examined request)) request hblocked
    apply wp_mono (wp_and heffect hpromote)
    · rintro promoted s' ⟨hpromoted, _⟩
      cases promoted with
      | false =>
        rw [if_neg Bool.false_ne_true] at hpromoted
        rw [if_pos rfl, hpromoted]
        exact self.skipRequest_account which request rfl
      | true =>
        rw [if_pos rfl] at hpromoted
        rw [if_neg (by decide)]
        obtain ⟨hstatus, hrunning, _, _⟩ := hpromoted.statuses
        exact self.considerRequest_account which request hrunning
          (hpromoted.sameRegistry.requestId request) hmem hstatus
    · exact fun e s' he => he.2
  · rw [if_neg hblocked, wp_pure, if_neg (by decide)]
    apply self.considerRequest_account (s := s.record _) which request rfl rfl hmem
    exact status_of_unblocked (Bool.eq_false_of_not_eq_true hblocked) hunfinished.2 hunfinished.1

end

/-- The invariant of a `schedule()` call from the state `start`, once the RUNNING loop ended. -/
structure StepInOrder {scheduler : Scheduler W} (rule : QueueRule scheduler)
    (start : SchedulerState W) (budget : Int) (s : SchedulerState W) (l : StepLocals) : Prop where
  inOrder : QueuesInOrder rule s l.stepSkippedWaiting
  sameRegistry : SameRegistry start s
  held : (heldQueues s l.stepSkippedWaiting).Perm (heldQueues start [])
  distinct : DistinctIds (fun x => (start.objs x).requestId) (heldQueues start [])
  account : Account (fun x => (start.objs x).requestId) budget s.running l
  charged : (∀ x ∈ start.running, scheduler.NotAhead (start.objs x)) →
    ∀ reqId n, l.numScheduledTokens.get? reqId = some n → 0 < n
  preempted : ∀ x ∈ l.preemptedReqs, x ∈ s.waiting ∧ (s.objs x).status = .preempted
  fits : s.running.length ≤ scheduler.maxNumRunningReqs

section
variable {self : Scheduler W} {rule : QueueRule self} {start s s' : SchedulerState W} {budget : Int}
  {l l' : StepLocals}

theorem Admission.preemptedReqs (h : self.Admission s l s' l') :
    l'.preemptedReqs = l.preemptedReqs := by
  rcases h with ⟨_, aside, rfl⟩ | ⟨request, r, plan, blocks, _, _, _, _, _, rfl⟩
  · rfl
  · obtain ⟨inputs, encoderBudget, heq⟩ := withEncoderInputs_eq r.requestId plan
      (self.addWaiting l request r plan.numNewTokens blocks)
    rw [heq]
    rfl

/-- **Step lemma.** -/
theorem StepInOrder.admission (h : StepInOrder rule start budget s l) (hnone : l.preemptedReqs = [])
    (hroom : s.running.length ≠ self.maxNumRunningReqs)
    (heffects : self.WaitingEffects (s, l) (s', l')) (hadmission : self.Admission s l s' l') :
    StepInOrder rule start budget s' l' := by
  have hsame := WaitingEffects.sameRegistry heffects
  have hperm : (heldQueues s' l'.stepSkippedWaiting).Perm (heldQueues s l.stepSkippedWaiting) :=
    invariant_of_chain
      (I := fun p : Frame W => (heldQueues p.1 p.2.stepSkippedWaiting).Perm
        (heldQueues s l.stepSkippedWaiting))
      (fun _ _ heffect hp => heffect.perm.trans hp) heffects (List.Perm.refl _)
  have hinOrder : QueuesInOrder rule s' l'.stepSkippedWaiting :=
    invariant_of_chain (I := fun p : Frame W => QueuesInOrder rule p.1 p.2.stepSkippedWaiting)
      (fun _ _ heffect hp => heffect.inOrder hp) heffects h.inOrder
  have hsame' : SameRegistry start s' := h.sameRegistry.trans hsame
  have hheld := hperm.trans h.held
  have hpreempted : ∀ x ∈ l'.preemptedReqs, x ∈ s'.waiting ∧ (s'.objs x).status = .preempted := by
    rw [hadmission.preemptedReqs, hnone]
    exact nofun
  rcases hadmission with ⟨hrunning, aside, hlocals⟩ |
    ⟨request, r, plan, blocks, hmem, hid, hrunning, hpositive, hfits, hlocals⟩
  · have haccount := h.account.of_locals l.reqIndex l.scheduledLoras aside
    exact
      { inOrder := hinOrder
        sameRegistry := hsame'
        held := hheld
        distinct := h.distinct
        account := by rw [hrunning, hlocals]; exact haccount
        charged := by rw [hlocals]; exact h.charged
        preempted := hpreempted
        fits := by rw [hrunning]; exact h.fits }
  · have hfresh : request ∉ s.running := fun hin => h.inOrder.ne_of_running hin hmem rfl
    have hid' : r.requestId = (start.objs request).requestId :=
      hid.trans (h.sameRegistry.requestId request)
    have hids : DistinctIds (fun x => (start.objs x).requestId) (s.running ++ [request]) := by
      rw [← hrunning]
      exact h.distinct.mono fun x hx => hheld.mem_iff.mp (mem_heldQueues.mpr (Or.inl hx))
    have haccount := h.account.admitted self blocks hid' hfits hfresh
      (by rw [hnone]; exact List.not_mem_nil) hids
    obtain ⟨inputs, encoderBudget, heq⟩ := withEncoderInputs_eq r.requestId plan
      (self.addWaiting l request r plan.numNewTokens blocks)
    rw [heq] at hlocals haccount
    exact
      { inOrder := hinOrder
        sameRegistry := hsame'
        held := hheld
        distinct := h.distinct
        account := by rw [hrunning, hlocals]; exact haccount
        preempted := hpreempted
        charged := by
          intro hahead reqId n hget
          rw [hlocals] at hget
          simp only [addWaiting, Dict.get?_set] at hget
          split at hget
          · cases hget
            exact hpositive
          · exact h.charged hahead reqId n hget
        fits := by
          have hbefore := h.fits
          rw [hrunning, List.length_append, List.length_singleton]
          omega }

theorem waitingLoop_account (fuel : Nat)
    (hrule : rule.skipped .waitingForRemoteKvs → self.hasConnector = true)
    (h : StepInOrder rule start budget s l) (hnone : l.preemptedReqs = []) :
    wp (self.waitingLoop fuel l)
      (fun l' s' => StepInOrder rule start budget s' l') (fun e _ => self.ScheduleFailure e)
      s := by
  induction fuel generalizing s l with
  | zero => exact h
  | succ fuel ih =>
    unfold waitingLoop
    rw [wp_bind, wp_get]
    split
    · rename_i hcontinue
      split
      · exact h
      rename_i hroom
      rw [wp_bind]
      apply wp_mono (wp_and (self.waitingStep_effects s l hcontinue.2)
        (self.waitingStep_account hrule h.inOrder hcontinue.1))
      · rintro control s' ⟨heffects, hadmission⟩
        have hafter := h.admission hnone hroom heffects hadmission
        cases control with
        | stop l' => exact hafter
        | next l' => exact ih hafter (hadmission.preemptedReqs.trans hnone)
      · exact fun e s' he => he.2
    · exact h

end

/-! ## 5. The constraints -/

/-- What `schedule()` finds: the queues are in order, and the registry names the requests. -/
structure ReadyForStep {scheduler : Scheduler W} (rule : QueueRule scheduler)
    (s : SchedulerState W) : Prop where
  inOrder : QueuesInOrder rule s []
  registered : RegistryNames s (Queued s)
  fits : s.running.length ≤ scheduler.maxNumRunningReqs
  refundable : scheduler.Refundable s

section
variable {self : Scheduler W} {rule : QueueRule self} {start s s' : SchedulerState W} {budget : Int}
  {l l' : StepLocals}

theorem ReadyForStep.distinct (h : ReadyForStep rule s) :
    DistinctIds (fun x => (s.objs x).requestId) (heldQueues s []) := by
  have hqueued : ∀ x ∈ heldQueues s [], Queued s x := by
    intro x hx
    simpa [heldQueues, waitingQueues, Queued] using hx
  intro x hx y hy hid
  exact h.registered.unique (hqueued x hx) (hqueued y hy) (h.inOrder.unfinished hx)
    (h.inOrder.unfinished hy) hid

theorem ReadyForStep.inRunningLoop (h : ReadyForStep rule start) (hbudget : 0 ≤ budget)
    (encoderBudget : Int) (w : W) :
    self.InRunningLoop start budget { start with world := w }
      (StepLocals.init budget encoderBudget) where
  allRunning := ⟨h.inOrder.running, (List.nodup_append.mp h.inOrder.nodup).1⟩
  requestId := fun _ => rfl
  distinct := h.distinct.mono fun _ hx => mem_heldQueues.mpr (Or.inl hx)
  account := account_init hbudget encoderBudget start.running
  noneNew := ⟨rfl, rfl⟩
  untouched := fun _ _ _ => rfl
  charged := nofun
  preempted := nofun
  sublist := List.Sublist.refl _

/-- The RUNNING loop ends, and the step is in order. -/
theorem InRunningLoop.stepInOrder (h : self.InRunningLoop start budget s l)
    (hready : ReadyForStep rule start) {l₀ : StepLocals} (hl₀ : l₀.stepSkippedWaiting = [])
    (heffects : self.RunningEffects (start, l₀) (s, l)) : StepInOrder rule start budget s l := by
  have hperm : (heldQueues s l.stepSkippedWaiting).Perm (heldQueues start []) := by
    rw [← hl₀]
    exact invariant_of_chain
      (I := fun p : Frame W => (heldQueues p.1 p.2.stepSkippedWaiting).Perm
        (heldQueues start l₀.stepSkippedWaiting))
      (fun _ _ heffect hp => heffect.perm.trans hp) heffects (List.Perm.refl _)
  exact
    { inOrder := invariant_of_chain
        (I := fun p : Frame W => QueuesInOrder rule p.1 p.2.stepSkippedWaiting)
        (fun _ _ heffect hp => heffect.inOrder hp) heffects (hl₀ ▸ hready.inOrder)
      sameRegistry := RunningEffects.sameRegistry heffects
      held := hperm
      distinct := hready.distinct
      account := h.account
      charged := h.charged
      preempted := h.preempted
      fits := h.sublist.length_le.trans hready.fits }

/-- The LoRAs are not accounted for. -/
theorem StepInOrder.withLoras (h : StepInOrder rule start budget s l) (scheduledLoras : List Int) :
    StepInOrder rule start budget s { l with scheduledLoras } :=
  { h with account := h.account.of_locals l.reqIndex scheduledLoras l.stepSkippedWaiting }

theorem recordScheduledLoras_raises :
    RaisesOnly (fun e => self.ScheduleFailure e) (self.recordScheduledLoras l) := by
  unfold recordScheduledLoras
  split
  · exact RaisesOnly.pure l
  · rename_i maxLoras hmaxLoras
    apply RaisesOnly.get_bind
    intro s
    apply RaisesOnly.bind (raises_pyAssert fun _ => ScheduleFailure.loras (by rw [hmaxLoras]; rfl))
    exact fun _ => RaisesOnly.pure _

/-- Both loops, and the requests set aside put back. -/
theorem scheduleWaiting_account
    (hrule : rule.skipped .waitingForRemoteKvs → self.hasConnector = true)
    (h : StepInOrder rule start budget s l) (hskipped : l.stepSkippedWaiting = []) :
    wp (self.scheduleWaiting l)
      (fun l' s' => ∃ s₁, StepInOrder rule start budget s₁ l' ∧
        s' = { s₁ with skippedWaiting := self.requeueSkipped s₁ l' })
      (fun e _ => self.ScheduleFailure e) s := by
  unfold scheduleWaiting
  rw [wp_bind, wp_get]
  split
  · rename_i hwaits
    rw [wp_bind]
    apply wp_mono_ok (waitingLoop_account _ hrule h hwaits.1)
    intro l' s₁ h'
    rw [wp_bind, wp_onlyIf]
    constructor
    · intro hskips
      refine ⟨s₁, h', ?_⟩
      simp only [requeueSkipped, if_neg hskips]
    · intro hskips
      refine ⟨s₁, h', ?_⟩
      simp only [requeueSkipped, if_pos (not_not.mp hskips)]
  · refine ⟨s, h, ?_⟩
    simp only [requeueSkipped, if_pos hskipped]

/-- **The scheduling constraints hold**, so their assertions do nothing. -/
theorem StepInOrder.checkConstraints (h : StepInOrder rule start budget s l)
    (hbudget : budget ≤ self.maxNumScheduledTokens) (skippedWaiting : List Ref) :
    wp (self.checkConstraints l) (fun _ s' => s' = { s with skippedWaiting }) (fun _ _ => False)
      { s with skippedWaiting } := by
  have hbalance := h.account.balance
  have hsolvent := h.account.solvent
  have hlength : (scheduledReqs l).length ≤ s.running.length :=
    (List.subperm_of_subset h.account.once h.account.inRunning).length_le
  simp only [scheduledReqs, List.length_append] at hlength
  unfold Scheduler.checkConstraints
  simp only [wp_bind, wp_get, wp_pyAssert]
  have htotal : l.numScheduledTokens.values.sum ≤ self.maxNumScheduledTokens := by omega
  have hscheduled : l.scheduledNewReqs.length + l.scheduledResumedReqs.length +
      l.scheduledRunningReqs.length ≤ s.running.length := by omega
  exact ⟨fun _ => ⟨fun _ => ⟨fun _ => ⟨fun _ => trivial, fun hnot => hnot hscheduled⟩,
    fun hnot => hnot h.fits⟩, fun hnot => hnot hsolvent⟩, fun hnot => hnot htotal⟩

end

end Scheduler

end Edmm
