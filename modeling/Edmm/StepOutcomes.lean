/-
  Edmm/StepOutcomes.lean
  ======================
  **What one `schedule()` call makes of each request.**

  The effects of `schedule()` say what its loops can do to the queues; they forget
  which request was handed which tokens.  Here each queued request is followed
  through a call: it is passed over, or it runs on and is handed tokens, drafts
  among them, or it is admitted and handed some of the tokens it still has to
  compute.  `_update_after_schedule` then advances it by exactly these tokens.
-/
import Edmm.ScheduleOutput

namespace Edmm

open Program

variable {W : Type}

namespace Scheduler

variable {self : Scheduler W}

/-! ## 1. One request -/

/-- What the loops of `schedule()` make of a queued request `r`, with the tokens it is handed
    and the drafts among them.  `runs` says that it was running when the call began. -/
inductive StepOutcome (runs : Prop) (r : Request) : Request → Option Int → List Token → Prop where
  /-- It is handed nothing, and it may have been preempted or loaded. -/
  | passed {r' : Request} (hsame : Request.SamePayload r r')
      (hcomputed : r'.numComputedTokens = r.numComputedTokens ∨
        r'.numComputedTokens ≤ r.numTokens) :
      StepOutcome runs r r' none []
  | running (numNewTokens : Int) (hruns : runs)
      (hbound : numNewTokens ≤
        r.numTokensWithSpec + r.numOutputPlaceholders - r.numComputedTokens) :
      StepOutcome runs r (clearSpecTokens r) (some numNewTokens)
        (scheduledSpecTokens r numNewTokens)
  | admitted {r' : Request} (numNewTokens : Int) (hsame : Request.SamePayload r r')
      (hsome : 0 < numNewTokens)
      (hbound : numNewTokens ≤ r.numTokens - r'.numComputedTokens) :
      StepOutcome runs r r' (some numNewTokens) []

/-- The request as `_update_after_schedule` leaves it. -/
def advancedBy : Option Int → Request → Request
  | none, r => r
  | some numNewTokens, r => advanced numNewTokens r

theorem samePayload_clearSpecTokens (r : Request) : Request.SamePayload r (clearSpecTokens r) :=
  { Request.SamePayload.refl r with }

theorem StepOutcome.samePayload {runs : Prop} {r r' : Request} {entry : Option Int}
    {drafts : List Token} (h : StepOutcome runs r r' entry drafts) : Request.SamePayload r r' := by
  cases h with
  | passed hsame hcomputed => exact hsame
  | running n hruns hbound => exact samePayload_clearSpecTokens r
  | admitted n hsame hsome hbound => exact hsame

/-- The drafts that are scheduled for an id. -/
def draftsFor (l : StepLocals) (reqId : RequestId) : List Token :=
  (l.scheduledSpecDecodeTokens.get? reqId).getD []

/-! ## 2. The RUNNING loop -/

/-- The RUNNING loop of a `schedule()` call in the state `start`, request by request. -/
structure RunningLedger (start s : SchedulerState W) (l : StepLocals) : Prop where
  sublist : s.running.Sublist start.running
  requestId : ∀ x, (s.objs x).requestId = (start.objs x).requestId
  once : l.scheduledRunningReqs.Nodup
  scheduled : ∀ x ∈ l.scheduledRunningReqs, x ∈ s.running
  keys : ∀ reqId ∈ l.numScheduledTokens.keys,
    ∃ x ∈ l.scheduledRunningReqs, (start.objs x).requestId = reqId
  unscheduled : ∀ x, Queued start x → x ∉ l.scheduledRunningReqs →
    l.numScheduledTokens.get? (start.objs x).requestId = none ∧
      l.scheduledSpecDecodeTokens.get? (start.objs x).requestId = none
  untouched : ∀ x, (x ∈ s.running ∧ x ∉ l.scheduledRunningReqs) ∨ x ∉ start.running →
    s.objs x = start.objs x
  outcome : ∀ x, Queued start x → StepOutcome (x ∈ start.running) (start.objs x) (s.objs x)
    (l.numScheduledTokens.get? (start.objs x).requestId)
    (draftsFor l (start.objs x).requestId)

/-- The victim is taken back from what was scheduled in this step. -/
structure VictimDropped (victim : Ref) (victimId : RequestId) (l l' : StepLocals) : Prop where
  reqs : l'.scheduledRunningReqs = l.scheduledRunningReqs.erase victim
  tokens : ∀ reqId, l'.numScheduledTokens.get? reqId =
    if reqId = victimId then none else l.numScheduledTokens.get? reqId
  drafts : ∀ reqId, l'.scheduledSpecDecodeTokens.get? reqId =
    if reqId = victimId then none else l.scheduledSpecDecodeTokens.get? reqId

/-- What `schedule()` needs to find to tell the requests apart: each queued one has an id of
    its own, and none runs twice. -/
structure ToldApart (s : SchedulerState W) : Prop where
  nodup : s.running.Nodup
  distinct : ∀ x y, Queued s x → Queued s y →
    (s.objs x).requestId = (s.objs y).requestId → x = y

section
variable {start s : SchedulerState W} {l l' : StepLocals} {request victim : Ref}

theorem RunningLedger.nodup (h : RunningLedger start s l) (hstart : ToldApart start) :
    s.running.Nodup := h.sublist.nodup hstart.nodup

theorem RunningLedger.queued (h : RunningLedger start s l) {x : Ref} (hx : x ∈ s.running) :
    Queued start x := Or.inl (h.sublist.subset hx)

theorem runningLedger_start (start : SchedulerState W) (w : W) :
    RunningLedger start { start with world := w } (self.startLocals start) where
  sublist := List.Sublist.refl _
  requestId := fun _ => rfl
  once := List.nodup_nil
  scheduled := fun _ h => by cases h
  keys := fun _ h => by cases h
  unscheduled := fun _ _ _ => ⟨rfl, rfl⟩
  untouched := fun _ _ => rfl
  outcome := fun x _ => StepOutcome.passed (Request.SamePayload.refl (start.objs x)) (Or.inl rfl)

/-- The locals may change in what is not written for a request. -/
theorem RunningLedger.of_locals (h : RunningLedger start s l) (w : W)
    (hreqs : l'.scheduledRunningReqs = l.scheduledRunningReqs)
    (htokens : l'.numScheduledTokens = l.numScheduledTokens)
    (hdrafts : l'.scheduledSpecDecodeTokens = l.scheduledSpecDecodeTokens) :
    RunningLedger start { s with world := w } l' where
  sublist := h.sublist
  requestId := h.requestId
  once := hreqs ▸ h.once
  scheduled := by
    rw [hreqs]
    exact h.scheduled
  keys := by
    rw [hreqs, htokens]
    exact h.keys
  unscheduled := by
    rw [hreqs, htokens, hdrafts]
    exact h.unscheduled
  untouched := by
    rw [hreqs]
    exact h.untouched
  outcome := by
    unfold draftsFor
    rw [htokens, hdrafts]
    exact h.outcome

/-- The victim leaves `running` and starts over. -/
theorem RunningLedger.preempt (self : Scheduler W) (h : RunningLedger start s l)
    (hstart : ToldApart start)
    (hvictim : victim ∈ s.running)
    (hdropped : VictimDropped victim (start.objs victim).requestId l l') (w w' : W) :
    RunningLedger start
      (self.afterPreempt { s with world := w, running := s.running.erase victim } victim w')
      { l' with preemptedReqs := l'.preemptedReqs ++ [victim] } := by
  have hobjs : ∀ x, x ≠ victim → (self.afterPreempt
      { s with world := w, running := s.running.erase victim } victim w').objs x = s.objs x :=
    fun x hx => SchedulerState.objs_updateRequest_of_ne _ _ hx
  have hself : (self.afterPreempt { s with world := w, running := s.running.erase victim } victim
      w').objs victim = Scheduler.preempted (s.objs victim) :=
    SchedulerState.objs_updateRequest_self ..
  have hid : ∀ {x}, Queued start x → x ≠ victim →
      (start.objs x).requestId ≠ (start.objs victim).requestId :=
    fun hx hne hsame => hne (hstart.distinct _ _ hx (h.queued hvictim) hsame)
  constructor
  · exact (List.erase_sublist).trans h.sublist
  · intro x
    by_cases hx : x = victim
    · rw [hx, hself]
      exact h.requestId victim
    · rw [hobjs x hx]
      exact h.requestId x
  · dsimp only
    rw [hdropped.reqs]
    exact h.once.erase victim
  · intro x hx
    dsimp only at hx
    rw [hdropped.reqs, h.once.mem_erase_iff] at hx
    exact (List.mem_erase_of_ne hx.1).mpr (h.scheduled x hx.2)
  · intro reqId hkey
    obtain ⟨n, hget⟩ := Dict.mem_keys_iff.mp hkey
    rw [hdropped.tokens] at hget
    split at hget
    · cases hget
    rename_i hne
    obtain ⟨x, hx, hxid⟩ := h.keys reqId (Dict.mem_keys_iff.mpr ⟨n, hget⟩)
    refine ⟨x, ?_, hxid⟩
    dsimp only
    rw [hdropped.reqs, h.once.mem_erase_iff]
    exact ⟨fun heq => hne (by rw [← hxid, heq]), hx⟩
  · intro x hx hnot
    dsimp only at hnot ⊢
    rw [hdropped.tokens, hdropped.drafts]
    split
    · exact ⟨rfl, rfl⟩
    · rename_i hne
      apply h.unscheduled x hx
      intro hmem
      apply hnot
      rw [hdropped.reqs, h.once.mem_erase_iff]
      exact ⟨fun heq => hne (by rw [heq]), hmem⟩
  · rintro x (⟨hx, hnot⟩ | hnot)
    · have hx := (h.nodup hstart).mem_erase_iff.mp hx
      rw [hobjs x hx.1]
      apply h.untouched x (Or.inl ⟨hx.2, fun hmem => hnot ?_⟩)
      dsimp only
      rw [hdropped.reqs, h.once.mem_erase_iff]
      exact ⟨hx.1, hmem⟩
    · have hx : x ≠ victim := by
        rintro rfl
        exact hnot (h.sublist.subset hvictim)
      rw [hobjs x hx]
      exact h.untouched x (Or.inr hnot)
  · intro x hx
    unfold draftsFor
    dsimp only
    rw [hdropped.tokens, hdropped.drafts]
    by_cases hxv : x = victim
    · subst hxv
      rw [if_pos rfl, if_pos rfl, hself]
      have hsame := (h.outcome x hx).samePayload
      exact StepOutcome.passed (hsame.trans (samePayload_preempted _))
        (Or.inr (Int.natCast_nonneg _))
    · rw [if_neg (hid hx hxv), if_neg (hid hx hxv), hobjs x hxv]
      exact h.outcome x hx

theorem scheduledSpecDecodeTokens_addRunning_of_ne {x : Ref} {r : Request} {n : Int}
    {blocks : KVCacheBlocks} {reqId : RequestId} (hne : r.requestId ≠ reqId) :
    (addRunning l x r n blocks).scheduledSpecDecodeTokens.get? reqId =
      l.scheduledSpecDecodeTokens.get? reqId := by
  simp only [addRunning]
  split
  · exact Dict.get?_set_of_ne _ _ (Ne.symm hne)
  · rfl

/-- The drafts written for a request that had none are those that fit into the step. -/
theorem draftsFor_addRunning_self {x : Ref} {r : Request} {n : Int} {blocks : KVCacheBlocks}
    (hnone : l.scheduledSpecDecodeTokens.get? r.requestId = none) :
    draftsFor (addRunning l x r n blocks) r.requestId = scheduledSpecTokens r n := by
  simp only [draftsFor, addRunning]
  split
  · rw [Dict.get?_set_self, Option.getD_some]
  · rename_i hskipped
    rw [hnone, Option.getD_none]
    by_cases hspec : r.specTokenIds = []
    · simp [scheduledSpecTokens, hspec]
    · by_contra hsome
      exact hskipped ⟨hspec, fun hempty => hsome hempty.symm⟩

/-- A running request is handed tokens. -/
theorem RunningLedger.schedule (h : RunningLedger start s l) (hstart : ToldApart start)
    (hrequest : request ∈ s.running) (hfresh : request ∉ l.scheduledRunningReqs)
    {numNewTokens : Int} (newBlocks : KVCacheBlocks) (w : W)
    (hbound : numNewTokens ≤ (s.objs request).numTokensWithSpec +
      (s.objs request).numOutputPlaceholders - (s.objs request).numComputedTokens)
    (hlocals : SameButEncoder
      (addRunning l request (s.objs request) numNewTokens newBlocks) l') :
    RunningLedger start
      (SchedulerState.updateRequest { s with world := w } request clearSpecTokens) l' := by
  obtain ⟨inputs, budget, rfl⟩ := hlocals
  have hqueued := h.queued hrequest
  have hsame : s.objs request = start.objs request :=
    h.untouched request (Or.inl ⟨hrequest, hfresh⟩)
  obtain ⟨hnoTokens, hnoDrafts⟩ := h.unscheduled request hqueued hfresh
  have hother : ∀ x, x ≠ request → ((SchedulerState.updateRequest { s with world := w } request
      clearSpecTokens).objs x) = s.objs x :=
    fun x hx => SchedulerState.objs_updateRequest_of_ne _ _ hx
  have hid : ∀ {x}, Queued start x → x ≠ request →
      (s.objs request).requestId ≠ (start.objs x).requestId := by
    intro x hx hne heq
    rw [hsame] at heq
    exact hne (hstart.distinct _ _ hx hqueued heq.symm)
  constructor
  · exact h.sublist
  · intro x
    rw [SchedulerState.objs_updateRequest]
    split
    · rename_i hx
      rw [hx]
      exact h.requestId request
    · exact h.requestId x
  · dsimp only [addRunning]
    rw [List.nodup_append]
    refine ⟨h.once, List.nodup_singleton request, ?_⟩
    intro x hx y hy heq
    rw [List.mem_singleton] at hy
    exact hfresh (hy ▸ heq ▸ hx)
  · intro x hx
    dsimp only [addRunning] at hx
    rcases List.mem_append.mp hx with hx | hx
    · exact h.scheduled x hx
    · rw [List.mem_singleton.mp hx]
      exact hrequest
  · intro reqId hkey
    dsimp only [addRunning] at hkey ⊢
    rcases Dict.mem_keys_set.mp hkey with rfl | hkey
    · exact ⟨request, List.mem_append_right _ (List.mem_singleton.mpr rfl), by rw [hsame]⟩
    · obtain ⟨x, hx, hxid⟩ := h.keys reqId hkey
      exact ⟨x, List.mem_append_left _ hx, hxid⟩
  · intro x hx hnot
    have hnot : x ∉ l.scheduledRunningReqs ∧ x ≠ request := by
      simpa [addRunning] using hnot
    have hne := hid hx hnot.2
    dsimp only
    rw [numScheduledTokens_addRunning_of_ne hne, scheduledSpecDecodeTokens_addRunning_of_ne hne]
    exact h.unscheduled x hx hnot.1
  · intro x hx
    have hne : x ≠ request := by
      rintro rfl
      rcases hx with ⟨_, hnot⟩ | hnot
      · exact hnot (List.mem_append_right _ (List.mem_singleton.mpr rfl))
      · exact hnot (h.sublist.subset hrequest)
    rw [hother x hne]
    exact h.untouched x (hx.imp_left (And.imp_right fun hnot hmem =>
      hnot (List.mem_append_left _ hmem)))
  · intro x hx
    by_cases hxr : x = request
    · subst hxr
      rw [SchedulerState.objs_updateRequest_self]
      change StepOutcome _ _ (clearSpecTokens (s.objs x)) _ _
      rw [hsame] at hbound ⊢
      have htokens : (addRunning l x (start.objs x) numNewTokens
          newBlocks).numScheduledTokens.get? (start.objs x).requestId = some numNewTokens :=
        Dict.get?_set_self _ _ _
      have hdraft : draftsFor (addRunning l x (start.objs x) numNewTokens newBlocks)
          (start.objs x).requestId = scheduledSpecTokens (start.objs x) numNewTokens :=
        draftsFor_addRunning_self hnoDrafts
      have houtcome := StepOutcome.running (r := start.objs x) numNewTokens
        (h.sublist.subset hrequest) hbound
      rw [← htokens, ← hdraft] at houtcome
      exact houtcome
    · rw [hother x hxr]
      have hne := hid hx hxr
      unfold draftsFor
      dsimp only
      rw [numScheduledTokens_addRunning_of_ne hne, scheduledSpecDecodeTokens_addRunning_of_ne hne]
      exact h.outcome x hx

/-! Now the loop itself.  Its place in `running` tells that no request is handed tokens twice,
    and that a victim picked at the end was handed none. -/

theorem RunningLedger.notDropped (h : RunningLedger start s l) (hvictim : victim ∈ s.running)
    (hfresh : victim ∉ l.scheduledRunningReqs) :
    VictimDropped victim (start.objs victim).requestId l l := by
  obtain ⟨hnoTokens, hnoDrafts⟩ := h.unscheduled victim (h.queued hvictim) hfresh
  constructor
  · rw [List.erase_of_not_mem hfresh]
  · intro reqId
    split
    · rename_i heq
      rw [heq, hnoTokens]
    · rfl
  · intro reqId
    split
    · rename_i heq
      rw [heq, hnoDrafts]
    · rfl

theorem popPreemptionVictim_ledger (h : RunningLedger start s l) (hstart : ToldApart start)
    (hstands : Stands request s.running l.scheduledRunningReqs l.reqIndex) :
    wp (self.popPreemptionVictim l)
      (fun victim s' => victim.1 ∈ s.running ∧
        VictimDropped victim.1 (start.objs victim.1).requestId l victim.2 ∧
        s' = { s with running := s.running.erase victim.1 } ∧
        (victim.1 ≠ request → Stands request s'.running victim.2.scheduledRunningReqs
          victim.2.reqIndex))
      (fun _ _ => True) s := by
  have hnodup := h.nodup hstart
  unfold popPreemptionVictim
  rw [wp_bind, wp_get]
  split
  · dsimp only
    split
    · trivial
    rename_i victim hvictim
    have hmem : victim ∈ s.running := Python.maxBy_mem hvictim
    rw [wp_bind, wp_modify, wp_bind]
    unfold unschedule
    split
    · rename_i hscheduled
      simp only [wp_bind, wp_getOrRaise, wp_pyAssert, wp_pure]
      refine ⟨fun numTokens _ => ⟨fun _ => ?_, fun _ => trivial⟩, fun _ => trivial⟩
      refine ⟨hmem, ?_, trivial, fun _ => hstands.eraseScheduled hscheduled h.once⟩
      constructor
      · rfl
      · intro reqId
        simp only [dropScheduled, h.requestId, Dict.get?_erase]
      · intro reqId
        simp only [dropScheduled, h.requestId, Dict.get?_erase]
    · rename_i hfresh
      rw [wp_pure]
      exact ⟨hmem, h.notDropped hmem hfresh, rfl, fun hne => hstands.erase hne hfresh⟩
  · split
    · trivial
    rename_i victim hvictim
    obtain ⟨others, hothers⟩ := List.getLast?_eq_some_iff.mp hvictim
    have hmem : victim ∈ s.running := by
      rw [hothers]
      simp
    have hfresh : victim ∉ l.scheduledRunningReqs := by
      rw [hothers] at hstands hnodup
      exact hstands.last_not_mem hnodup
    have hdropLast : s.running.dropLast = s.running.erase victim := by
      rw [hothers] at hnodup ⊢
      have hnotin : victim ∉ others := fun hin =>
        (List.nodup_append.mp hnodup).2.2 victim hin victim (by simp) rfl
      rw [List.dropLast_concat, List.erase_append_right _ hnotin]
      simp
    rw [wp_bind, wp_modify, wp_pure, hdropLast]
    exact ⟨hmem, h.notDropped hmem hfresh, rfl, fun hne => hstands.erase hne hfresh⟩

theorem allocateOrPreempt_ledger (request : Ref) (numNewTokens : Int) (fuel : Nat)
    (h : RunningLedger start s l) (hstart : ToldApart start)
    (hstands : Stands request s.running l.scheduledRunningReqs l.reqIndex) :
    wp (self.allocateOrPreempt request numNewTokens fuel l)
      (fun allocated s' => RunningLedger start s' allocated.2 ∧
        (allocated.1.isSome = true → s'.objs request = s.objs request ∧
          Stands request s'.running allocated.2.scheduledRunningReqs allocated.2.reqIndex))
      (fun _ _ => True) s := by
  induction fuel generalizing s l with
  | zero => exact ⟨h, fun hnone => by cases hnone⟩
  | succ fuel ih =>
    unfold allocateOrPreempt
    rw [wp_bind, wp_getRequest, wp_bind, wp_callWorld]
    generalize self.externals.allocateSlots s.world (s.objs request) _ = answer
    have htouched : RunningLedger start { s with world := answer.2 } l :=
      h.of_locals answer.2 rfl rfl rfl
    cases hblocks : answer.1 with
    | some blocks => exact ⟨htouched, fun _ => ⟨rfl, hstands⟩⟩
    | none =>
      dsimp only
      rw [wp_bind]
      apply wp_mono_ok (popPreemptionVictim_ledger htouched hstart hstands)
      rintro ⟨victim, l'⟩ s' ⟨hmem, hdropped, rfl, hother⟩
      rw [wp_bind]
      apply self.preemptRequest_wp
      · intro _ w
        have hafter := h.preempt self hstart hmem hdropped answer.2 w
        split
        · exact ⟨hafter, fun hnone => by cases hnone⟩
        · rename_i hne
          apply wp_mono_ok (ih hafter (hother hne))
          rintro allocated s' ⟨hledger, hsome⟩
          refine ⟨hledger, fun hallocated => ?_⟩
          obtain ⟨hobjs, hstands'⟩ := hsome hallocated
          refine ⟨hobjs.trans ?_, hstands'⟩
          exact SchedulerState.objs_updateRequest_of_ne _ _ (Ne.symm hne)
      · exact fun _ => trivial

/-- One iteration of the RUNNING loop. -/
theorem runningStep_ledger (h : RunningLedger start s l) (hstart : ToldApart start)
    (hrequest : s.running[l.reqIndex]? = some request)
    (hexamined : ∀ x ∈ l.scheduledRunningReqs, x ∈ s.running.take l.reqIndex) :
    wp (self.runningStep l request)
      (fun control s' => RunningLedger start s' control.locals ∧
        ∀ l', control = .next l' → ∀ x ∈ l'.scheduledRunningReqs,
          x ∈ s'.running.take l'.reqIndex)
      (fun _ _ => True) s := by
  have hstands := stands_of_getElem? hrequest hexamined
  have hpass : ∀ s' : SchedulerState W, s'.running = s.running →
      ∀ l', LoopControl.next { l with reqIndex := l.reqIndex + 1 } = .next l' →
        ∀ x ∈ l'.scheduledRunningReqs, x ∈ s'.running.take l'.reqIndex := by
    rintro s' hrunning l' ⟨⟩ x hx
    rw [hrunning]
    exact (List.take_prefix_take_left (Nat.le_succ _)).subset (hexamined x hx)
  have hskip : ∀ w, RunningLedger start { s with world := w }
      { l with reqIndex := l.reqIndex + 1 } := fun w => h.of_locals w rfl rfl rfl
  unfold runningStep
  rw [wp_bind, wp_getRequest]
  split
  · exact ⟨hskip s.world, hpass s rfl⟩
  rw [wp_bind]
  apply wp_mono (self.planEncoderInputs_touches _ _ _ _ s)
  swap
  · exact fun _ _ _ => trivial
  rintro plan s' ⟨hplan, w, rfl⟩
  have hsplit : TouchesWorld
      (if self.needMambaBlockAlignedSplit then
        self.mambaBlockAlignedSplit (s.objs request) plan.numNewTokens 0 0
      else pure plan.numNewTokens : SchedM W Int)
      fun n => n ≤ plan.numNewTokens ∧ (0 ≤ plan.numNewTokens → 0 ≤ n) := by
    split
    · exact self.mambaBlockAlignedSplit_touches _ _ _ _
    · exact TouchesWorld.pure ⟨le_refl _, id⟩
  rw [wp_bind]
  apply wp_mono (hsplit _)
  swap
  · exact fun _ _ _ => trivial
  rintro n s' ⟨hn, w', rfl⟩
  split
  · exact ⟨hskip w', hpass _ rfl⟩
  rename_i hsome
  have hbound : n ≤ (s.objs request).numTokensWithSpec +
      (s.objs request).numOutputPlaceholders - (s.objs request).numComputedTokens := by
    have hwanted := self.runningNewTokens_le_remaining l.tokenBudget (s.objs request)
    rcases hplan.1 with hzero | hle <;> omega
  rw [wp_bind, wp_get, wp_bind]
  apply wp_mono_ok (allocateOrPreempt_ledger request n _
    (h.of_locals w' rfl rfl rfl : RunningLedger start { s with world := w' } l) hstart hstands)
  rintro ⟨newBlocks, l'⟩ s' ⟨hledger, hallocated⟩
  cases newBlocks with
  | none => exact ⟨hledger, fun _ h => by cases h⟩
  | some newBlocks =>
    obtain ⟨hobjs, hstands'⟩ := hallocated rfl
    dsimp only
    rw [wp_bind]
    unfold scheduleRunning
    rw [wp_bind, wp_getRequest, wp_bind, wp_modifyRequest]
    apply wp_mono (self.scheduleEncoderInputs_touches request _ _ _ _)
    · rintro l'' s'' ⟨hlocals, w'', rfl⟩
      have hfresh := hstands'.not_mem (hledger.nodup hstart)
      have hobjs : s'.objs request = s.objs request := hobjs
      rw [← hobjs] at hbound
      refine ⟨hledger.schedule hstart hstands'.mem hfresh newBlocks w'' hbound hlocals, ?_⟩
      rintro l₁ ⟨⟩
      obtain ⟨inputs, budget, rfl⟩ := hlocals
      exact hstands'.examined
    · exact fun _ _ _ => trivial

theorem runningLoop_ledger (fuel : Nat) (h : RunningLedger start s l) (hstart : ToldApart start)
    (hexamined : ∀ x ∈ l.scheduledRunningReqs, x ∈ s.running.take l.reqIndex) :
    wp (self.runningLoop fuel l) (fun l' s' => RunningLedger start s' l') (fun _ _ => True) s := by
  induction fuel generalizing s l with
  | zero => exact h
  | succ fuel ih =>
    unfold runningLoop
    rw [wp_bind, wp_get]
    split
    · exact h
    rename_i request hrequest
    split
    · rw [wp_bind]
      apply wp_mono_ok (runningStep_ledger h hstart hrequest hexamined)
      rintro control s' ⟨hafter, hnext⟩
      cases control with
      | stop l' => exact hafter
      | next l' => exact ih hafter (hnext l' rfl)
    · exact h

end

/-! ## 3. The WAITING loop -/

/-- What the WAITING loop makes of a request that it does not admit. -/
structure StillWaiting (r r' : Request) : Prop where
  same : Request.SamePayload r r'
  computed : r'.numComputedTokens = r.numComputedTokens ∨ r'.numComputedTokens ≤ r.numTokens

theorem StillWaiting.passed {r r' : Request} (h : StillWaiting r r') (runs : Prop) :
    StepOutcome runs r r' none [] := StepOutcome.passed h.same h.computed

/-- Another status. -/
theorem StillWaiting.status {r r' : Request} (h : StillWaiting r r') (status : RequestStatus) :
    StillWaiting r { r' with status } where
  same := h.same.trans { Request.SamePayload.refl r' with }
  computed := h.computed

/-- Another count of computed tokens, for a request that is loaded. -/
theorem StillWaiting.counted {r r' : Request} (h : StillWaiting r r') {numComputedTokens : Int}
    (hbound : numComputedTokens ≤ r.numTokens) (status : RequestStatus) :
    StillWaiting r { r' with numComputedTokens, status } where
  same := h.same.trans { Request.SamePayload.refl r' with }
  computed := Or.inr hbound

theorem StillWaiting.numTokens {r r' : Request} (h : StillWaiting r r') :
    r'.numTokens = r.numTokens := by
  rw [Request.numTokens, h.same.allTokenIds]
  rfl

/-- A promoted request. -/
theorem StillWaiting.promoted {r : Request} {s s' : SchedulerState W} {request : Ref}
    (h : StillWaiting r (s.objs request)) (hpromotion : self.Promotion s request s') :
    StillWaiting r (s'.objs request) := by
  cases hpromotion with
  | remoteKvs loaded w finishedRecving failedRecving hconnector hstatus hloaded =>
    rw [SchedulerState.objs_updateRequest_self]
    rcases hloaded with rfl | rfl
    · exact h.status _
    · have htokens := h.numTokens
      have hless : (s.objs request).numTokens - 1 ≤ r.numTokens := by omega
      exact h.counted hless _
  | grammar hstatus =>
    rw [SchedulerState.objs_updateRequest_self]
    exact h.status _
  | toolCall hstatus henabled hhook hready =>
    rw [SchedulerState.objs_updateRequest_self]
    exact h.status _

/-- The loops of a `schedule()` call in the state `start`, request by request. -/
structure StepLedger (start : SchedulerState W) (p : Frame W) : Prop where
  keys : ∀ reqId ∈ p.2.numScheduledTokens.keys,
    ∃ x, Queued start x ∧ (start.objs x).requestId = reqId
  others : ∀ x, ¬ Queued start x → p.1.objs x = start.objs x
  outcome : ∀ x, Queued start x → StepOutcome (x ∈ start.running) (start.objs x) (p.1.objs x)
    (p.2.numScheduledTokens.get? (start.objs x).requestId)
    (draftsFor p.2 (start.objs x).requestId)

/-- Within the WAITING loop, where what waits was handed nothing yet. -/
structure WaitingLedger (start : SchedulerState W) (p : Frame W) : Prop extends
    StepLedger start p where
  once : (heldQueues p.1 p.2.stepSkippedWaiting).Nodup
  held : ∀ x, Held p x → Queued start x
  waits : ∀ x, HeldWaiting p x → StillWaiting (start.objs x) (p.1.objs x) ∧
    p.2.numScheduledTokens.get? (start.objs x).requestId = none ∧
    p.2.scheduledSpecDecodeTokens.get? (start.objs x).requestId = none

section
variable {start : SchedulerState W} {p p' : Frame W}

/-- Nothing is admitted. -/
theorem WaitingLedger.unadmitted (hp : WaitingLedger start p) (h : self.WaitingEffect p p')
    (htokens : p'.2.numScheduledTokens = p.2.numScheduledTokens)
    (hdrafts : p'.2.scheduledSpecDecodeTokens = p.2.scheduledSpecDecodeTokens)
    (hobjs : ∀ x, p'.1.objs x = p.1.objs x ∨ (HeldWaiting p x ∧
      ∀ {r}, StillWaiting r (p.1.objs x) → StillWaiting r (p'.1.objs x))) :
    WaitingLedger start p' where
  once := h.perm.nodup_iff.mpr hp.once
  held := fun x hx => hp.held x (h.held_iff hx)
  keys := by
    rw [htokens]
    exact hp.keys
  others := by
    intro x hx
    rcases hobjs x with hsame | ⟨hwaits, _⟩
    · exact hsame.trans (hp.others x hx)
    · exact absurd (hp.held x (Or.inr hwaits)) hx
  waits := by
    intro x hx
    obtain ⟨hstill, hnone⟩ := hp.waits x ((h.held x).2 hx)
    rw [htokens, hdrafts]
    rcases hobjs x with hsame | ⟨_, hkeeps⟩
    · exact ⟨hsame ▸ hstill, hnone⟩
    · exact ⟨hkeeps hstill, hnone⟩
  outcome := by
    intro x hx
    unfold draftsFor
    rw [htokens, hdrafts]
    rcases hobjs x with hsame | ⟨hwaits, hkeeps⟩
    · rw [hsame]
      exact hp.outcome x hx
    · obtain ⟨hstill, hnoTokens, hnoDrafts⟩ := hp.waits x hwaits
      rw [hnoTokens, hnoDrafts]
      exact (hkeeps hstill).passed _

/-- A waiting request is admitted. -/
theorem WaitingLedger.admit (hp : WaitingLedger start p) (hstart : ToldApart start)
    (h : self.WaitingEffect p p') {request : Ref} {n computed : Int} {blocks : KVCacheBlocks}
    (hwaits : HeldWaiting p request) (hrunning : request ∈ p'.1.running)
    (hsome : 0 < n) (hbound : n ≤ (p.1.objs request).numTokens - computed)
    (hself : p'.1.objs request =
      { p.1.objs request with status := .running, numComputedTokens := computed })
    (hother : ∀ x, x ≠ request → p'.1.objs x = p.1.objs x)
    (hlocals : SameButEncoder (self.addWaiting p.2 request (p.1.objs request) n blocks) p'.2) :
    WaitingLedger start p' := by
  have hqueued := hp.held request (Or.inr hwaits)
  obtain ⟨hstill, _, hnoDrafts⟩ := hp.waits request hwaits
  obtain ⟨_, _, _, htokens, hdrafts⟩ := mem_addWaiting (x := request) hlocals
  have honce : (heldQueues p'.1 p'.2.stepSkippedWaiting).Nodup := h.perm.nodup_iff.mpr hp.once
  rw [hstill.same.requestId] at htokens
  have hid : ∀ {x}, Queued start x → x ≠ request →
      (start.objs x).requestId ≠ (start.objs request).requestId :=
    fun hx hne heq => hne (hstart.distinct _ _ hx hqueued heq)
  refine
    { once := honce
      held := fun x hx => hp.held x (h.held_iff hx)
      keys := ?_
      others := ?_
      outcome := ?_
      waits := ?_ }
  · intro reqId hkey
    rw [htokens] at hkey
    rcases Dict.mem_keys_set.mp hkey with rfl | hkey
    · exact ⟨request, hqueued, rfl⟩
    · exact hp.keys reqId hkey
  · intro x hx
    have hne : x ≠ request := by
      rintro rfl
      exact hx hqueued
    rw [hother x hne]
    exact hp.others x hx
  · intro x hx
    unfold draftsFor
    rw [hdrafts, htokens]
    by_cases hne : x = request
    · subst hne
      rw [Dict.get?_set_self, hself, hnoDrafts]
      have hnumTokens := hstill.numTokens
      refine StepOutcome.admitted n
        (hstill.same.trans { Request.SamePayload.refl (p.1.objs x) with }) hsome ?_
      dsimp only
      omega
    · rw [Dict.get?_set_of_ne _ _ (hid hx hne), hother x hne]
      exact hp.outcome x hx
  · intro x hx
    have hne : x ≠ request := by
      rintro rfl
      exact not_heldWaiting_of_running honce hrunning hx
    have hbefore := (h.held x).2 hx
    rw [hother x hne, htokens, hdrafts,
      Dict.get?_set_of_ne _ _ (hid (hp.held x (Or.inr hbefore)) hne)]
    exact hp.waits x hbefore

/-- **Step lemma** of the WAITING loop. -/
theorem WaitingEffect.ledger (h : self.WaitingEffect p p') (hstart : ToldApart start)
    (hp : WaitingLedger start p) : WaitingLedger start p' := by
  have heffect := h
  cases h with
  | touch s l w => exact hp.unadmitted heffect rfl rfl fun _ => Or.inl rfl
  | examine l hhead => exact hp.unadmitted heffect rfl rfl fun _ => Or.inl rfl
  | lookup l w hcomputed => exact hp.unadmitted heffect rfl rfl fun _ => Or.inl rfl
  | @promote s s' which request l hhead hpromotion =>
    apply hp.unadmitted heffect rfl rfl
    intro x
    by_cases hx : x = request
    · subst hx
      exact Or.inr ⟨heldWaiting_of_head hhead, fun hstill => hstill.promoted hpromotion⟩
    · exact Or.inl (hpromotion.objs_of_ne hx)
  | @skip s which request l hhead =>
    apply hp.unadmitted heffect rfl rfl
    intro x
    left
    dsimp only
    rw [self.objs_popRequest]
  | @load s which request l objs numComputedTokens hhead hconnector hunblocked hcomputed hbound =>
    apply hp.unadmitted heffect rfl rfl
    intro x
    by_cases hx : x = request
    · subst hx
      refine Or.inr ⟨heldWaiting_of_head hhead, fun {r} hstill => ?_⟩
      dsimp only at hstill ⊢
      rw [SchedulerState.objs_updateRequest_self, self.objs_popRequest]
      rw [hstill.numTokens] at hbound
      exact hstill.counted hbound _
    · left
      dsimp only
      rw [SchedulerState.objs_updateRequest_of_ne _ _ hx, self.objs_popRequest]
  | @admitWaiting s which request l l' numNewTokens numComputedTokens blocks w hhead hstatus
      hcomputed hsome hbound hlocals =>
    have hobjs : ((self.popRequest which s).startRunning request w).objs = s.objs :=
      self.objs_popRequest which s
    refine hp.admit hstart heffect (heldWaiting_of_head hhead) ?_ hsome hbound ?_ ?_ hlocals
    · change request ∈ (self.popRequest which s).running ++ [request]
      exact List.mem_append_right _ (List.mem_singleton.mpr rfl)
    · dsimp only
      rw [SchedulerState.objs_updateRequest_self, hobjs]
    · intro x hx
      dsimp only
      rw [SchedulerState.objs_updateRequest_of_ne _ _ hx, hobjs]

end

/-! ## 4. A whole call -/

/-- What a `schedule()` call that returned made of the requests. -/
structure StepOutcomes (s : SchedulerState W) (out : SchedulerOutput) (s' : SchedulerState W) :
    Prop where
  queued : ∀ x, Queued s x → ∃ r, StepOutcome (x ∈ s.running) (s.objs x) r
    (out.numScheduledTokens.get? (s.objs x).requestId)
    (scheduledSpecFor out (s.objs x).requestId) ∧
    s'.objs x = advancedBy (out.numScheduledTokens.get? (s.objs x).requestId) r
  others : ∀ x, ¬ Queued s x → s'.objs x = s.objs x
  keys : ∀ reqId ∈ out.numScheduledTokens.keys, ∃ x, Queued s x ∧ (s.objs x).requestId = reqId

section
variable {s s₁ s₂ s₃ : SchedulerState W} {l : StepLocals} {out : SchedulerOutput}

/-- The rest of the call, after its loops. -/
theorem StepLedger.conclude (h : StepLedger s (s₁, l)) (hsame : SameRegistry s s₁)
    (hregistry : RegistryOk s)
    (hregistered : ∀ x, Queued s x → s.requests.get? (s.objs x).requestId = some x)
    (hout : self.IsOutputOf s₂ l out) (hobjs : s₂.objs = s₁.objs)
    (hrequests : s₂.requests = s₁.requests)
    (hadvanced : AdvancedBy s₂ out.numScheduledTokens.items s₃) : StepOutcomes s out s₃ := by
  have hitems : ∀ item ∈ out.numScheduledTokens.items,
      out.numScheduledTokens.get? item.1 = some item.2 :=
    fun item hitem => Dict.mem_items_iff.mp hitem
  have htokens := hout.numScheduledTokens
  have hkeys : ∀ reqId ∈ out.numScheduledTokens.keys,
      ∃ x, Queued s x ∧ (s.objs x).requestId = reqId := by
    rw [htokens]
    exact h.keys
  refine ⟨?_, ?_, hkeys⟩
  · intro x hx
    have houtcome := h.outcome x hx
    unfold draftsFor at houtcome
    rw [← htokens, ← hout.scheduledSpecDecodeTokens] at houtcome
    refine ⟨s₁.objs x, houtcome, ?_⟩
    cases hget : out.numScheduledTokens.get? (s.objs x).requestId with
    | none =>
      rw [hadvanced.others x, hobjs]
      · rfl
      · intro item hitem hitemx
        rw [hrequests, hsame.requests] at hitemx
        rw [hregistry.carries hitemx, hitems item hitem] at hget
        cases hget
    | some n =>
      have hitem := Dict.mem_items_iff.mpr hget
      rw [hadvanced.advanced _ hitem x ?_, hobjs]
      · rfl
      · rw [hrequests, hsame.requests]
        exact hregistered x hx
  · intro x hx
    rw [hadvanced.others x, hobjs]
    · exact h.others x hx
    · intro item hitem hitemx
      obtain ⟨y, hy, hyid⟩ := hkeys item.1 (Dict.mem_keys_iff.mpr ⟨item.2, hitems item hitem⟩)
      rw [hrequests, hsame.requests, ← hyid, hregistered y hy] at hitemx
      exact hx (Option.some.inj hitemx ▸ hy)

/-- A registered request that is not queued is handed nothing. -/
theorem StepOutcomes.unscheduled (h : StepOutcomes s out s₁)
    (hregistered : ∀ x, Queued s x → s.requests.get? (s.objs x).requestId = some x) {x : Ref}
    (hx : ¬ Queued s x) (hget : s.requests.get? (s.objs x).requestId = some x) :
    out.numScheduledTokens.get? (s.objs x).requestId = none := by
  cases hentry : out.numScheduledTokens.get? (s.objs x).requestId with
  | none => rfl
  | some n =>
    obtain ⟨y, hy, hid⟩ := h.keys _ (Dict.mem_keys_iff.mpr ⟨n, hentry⟩)
    have hyget := hregistered y hy
    rw [hid, hget] at hyget
    exact absurd (Option.some.inj hyget ▸ hy) hx

/-- What the RUNNING loop leaves to the rest of the call. -/
structure RunningLeaves (start : SchedulerState W) (p : Frame W) : Prop where
  once : (heldQueues p.1 p.2.stepSkippedWaiting).Nodup
  held : ∀ x, Held p x → Queued start x
  nothingAside : p.2.stepSkippedWaiting = []
  stays : p.2.preemptedReqs = [] → p.1.running = start.running

theorem RunningEffects.leaves {p : Frame W} (honce : (heldQueues s []).Nodup)
    (h : self.RunningEffects (s, self.startLocals s) p) : RunningLeaves s p := by
  apply invariant_of_chain (I := RunningLeaves s) ?_ h
  · exact
      { once := honce
        held := by
          rintro x (hx | hx | hx | hx)
          · exact Or.inl hx
          · exact Or.inr (Or.inl hx)
          · exact Or.inr (Or.inr hx)
          · cases hx
        nothingAside := rfl
        stays := fun _ => rfl }
  · intro p p' heffect hp
    exact
      { once := heffect.perm.nodup_iff.mpr hp.once
        held := fun x hx => hp.held x (heffect.held_iff hx)
        nothingAside := heffect.unchanged.2.trans hp.nothingAside
        stays := fun hnone =>
          (heffect.running_eq hnone).2.trans (hp.stays (heffect.running_eq hnone).1) }

theorem RunningLedger.stepLedger (h : RunningLedger s s₁ l) : StepLedger s (s₁, l) where
  keys := by
    intro reqId hkey
    obtain ⟨x, hx, hid⟩ := h.keys reqId hkey
    exact ⟨x, h.queued (h.scheduled x hx), hid⟩
  others := fun x hx => h.untouched x (Or.inr fun hmem => hx (Or.inl hmem))
  outcome := h.outcome

/-- Between the two loops, if nothing was preempted. -/
theorem RunningLedger.waitingLedger (h : RunningLedger s s₁ l) (hleaves : RunningLeaves s (s₁, l))
    (hnone : l.preemptedReqs = []) : WaitingLedger s (s₁, l) where
  toStepLedger := h.stepLedger
  once := hleaves.once
  held := hleaves.held
  waits := by
    intro x hx
    have hqueued := hleaves.held x (Or.inr hx)
    have hrunning : s₁.running = s.running := hleaves.stays hnone
    have hnot : x ∉ s₁.running := fun hmem =>
      not_heldWaiting_of_running hleaves.once hmem hx
    have hsame : s₁.objs x = s.objs x := h.untouched x (Or.inr (hrunning ▸ hnot))
    refine ⟨?_, h.unscheduled x hqueued fun hmem => hnot (h.scheduled x hmem)⟩
    dsimp only
    rw [hsame]
    exact ⟨Request.SamePayload.refl _, Or.inl rfl⟩

/-- **One `schedule()` call**, request by request. -/
theorem schedule_outcomes (self : Scheduler W) (hnames : RegistryNames s (Queued s))
    (honce : (heldQueues s []).Nodup)
    (hunfinished : ∀ x, Queued s x → (s.objs x).isFinished = false) :
    wp self.schedule (fun out s' => StepOutcomes s out s') (fun _ _ => True) s := by
  have hstart : ToldApart s :=
    { nodup := (List.nodup_append.mp honce).1
      distinct := fun x y hx hy =>
        hnames.unique hx hy (hunfinished x hx) (hunfinished y hy) }
  have hregistered : ∀ x, Queued s x → s.requests.get? (s.objs x).requestId = some x :=
    fun x hx => hnames.registered x hx (hunfinished x hx)
  have hfirst : self.RunningEffects (s, self.startLocals s)
      ({ s with world := self.externals.newStepStarts s.world }, self.startLocals s) :=
    Relation.ReflTransGen.single (RunningEffect.touch s (self.startLocals s) _)
  unfold schedule
  rw [wp_bind, wp_get, wp_bind, wp_onWorld, wp_bind]
  apply wp_mono (wp_and (self.runningLoop_effects s.running.length _ (self.startLocals s))
    (runningLoop_ledger s.running.length
      (runningLedger_start s (self.externals.newStepStarts s.world)) hstart fun _ h => by cases h))
  swap
  · exact fun _ _ _ => trivial
  rintro l₁ s₁ ⟨heffects₁, hledger₁⟩
  rw [wp_bind]
  apply wp_mono (self.recordScheduledLoras_wp s₁ l₁)
  swap
  · exact fun _ _ _ => trivial
  rintro l₂ s₂ ⟨rfl, scheduledLoras, rfl⟩
  have heffects : self.RunningEffects (s, self.startLocals s) (s₂, { l₁ with scheduledLoras }) :=
    (hfirst.trans heffects₁).tail (RunningEffect.pass s₂ l₁ l₁.reqIndex scheduledLoras)
  have hledger : RunningLedger s s₂ { l₁ with scheduledLoras } :=
    hledger₁.of_locals s₂.world rfl rfl rfl
  generalize ({ l₁ with scheduledLoras } : StepLocals) = l₂ at heffects hledger
  have hleaves := RunningEffects.leaves honce heffects
  rw [wp_bind]
  apply wp_mono (self.scheduleWaiting_effects s₂ l₂ hleaves.nothingAside)
  swap
  · exact fun _ _ _ => trivial
  rintro l₃ s₃ ⟨s₄, hwaiting, hstayed, rfl⟩
  have hsame : SameRegistry s s₄ :=
    (RunningEffects.sameRegistry heffects).trans (WaitingEffects.sameRegistry hwaiting)
  have hafter : StepLedger s (s₄, l₃) := by
    by_cases hnone : l₂.preemptedReqs = []
    · exact (invariant_of_chain (I := WaitingLedger s)
        (fun _ _ heffect hp => heffect.ledger hstart hp) hwaiting
        (hledger.waitingLedger hleaves hnone)).toStepLedger
    · obtain ⟨rfl, rfl⟩ := hstayed (Or.inl hnone)
      exact hledger.stepLedger
  rw [wp_bind]
  apply wp_mono (self.checkConstraints_wp _ l₃)
  swap
  · exact fun _ _ _ => trivial
  rintro _ s' rfl
  rw [wp_bind]
  apply wp_mono (self.makeSchedulerOutput_wp _ l₃)
  swap
  · exact fun _ _ _ => trivial
  rintro out s' ⟨hout, w, rfl⟩
  apply wp_buildMeta
  intro w'
  have hok : RegistryOk s₄ := hsame.registryOk hnames.registry
  have hkeys : ∀ reqId ∈ out.numScheduledTokens.keys, ∃ x, s₄.requests.get? reqId = some x := by
    intro reqId hkey
    rw [hout.numScheduledTokens] at hkey
    obtain ⟨x, hx, rfl⟩ := hafter.keys reqId hkey
    refine ⟨x, ?_⟩
    rw [hsame.requests]
    exact hregistered x hx
  apply wp_mono_of_returns (updateAfterSchedule_account (s := { s₄ with
    skippedWaiting := self.requeueSkipped s₄ l₃
    prevStepScheduledReqIds := l₃.numScheduledTokens.keys
    world := w' }) ⟨hok.1, hok.2⟩ out hkeys)
  rintro out' s' ⟨rfl, hadvanced⟩
  have hconcluded : StepOutcomes s out s' :=
    hafter.conclude hsame hnames.registry hregistered hout rfl rfl
      ⟨hadvanced.requests, hadvanced.advanced, hadvanced.others⟩
  exact ⟨hconcluded.queued, hconcluded.others, hconcluded.keys⟩

end

end Scheduler

end Edmm
