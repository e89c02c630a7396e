/-
  Edmm/ScheduleEffects.lean
  =========================
  **What `schedule()` can do to the state, said once.**

  A `schedule()` call is a chain of small effects: first those of the RUNNING loop
  (`RunningEffect`), then those of the WAITING loop (`WaitingEffect`), then the
  requests skipped are put back and every scheduled request is advanced
  (`AdvanceEffect`).  `schedule_effects` derives this chain from the program once;
  an invariant of `schedule()` is a case analysis over the effects.

  Two of the assertions of `schedule()` matter to the callers:
  "Only running requests can be preempted" and `num_new_tokens > 0`.  For these the
  lemmas also say in which state they fail.
-/
import Edmm.SchedulerUpdate

namespace Edmm

open Program

/-! ## 1. Building blocks under `wp` -/

section
variable {W α : Type} {s : SchedulerState W} {E : PyError → SchedulerState W → Prop}

@[simp] theorem wp_onWorld {Q : Unit → SchedulerState W → Prop} (f : W → W) :
    wp (onWorld f) Q E s ↔ Q () { s with world := f s.world } := Iff.rfl

@[simp] theorem wp_callWorld {Q : α → SchedulerState W → Prop} (f : W → α × W) :
    wp (callWorld f) Q E s ↔ Q (f s.world).1 { s with world := (f s.world).2 } := Iff.rfl

@[simp] theorem wp_getRequest {Q : Request → SchedulerState W → Prop} (request : Ref) :
    wp (getRequest request) Q E s ↔ Q (s.objs request) s := Iff.rfl

@[simp] theorem wp_modifyRequest {Q : Unit → SchedulerState W → Prop} (request : Ref)
    (f : Request → Request) :
    wp (modifyRequest request f) Q E s ↔ Q () (s.updateRequest request f) := Iff.rfl

@[simp] theorem wp_setStatus {Q : Unit → SchedulerState W → Prop} (request : Ref)
    (status : RequestStatus) :
    wp (setStatus request status) Q E s ↔
      Q () (s.updateRequest request fun r => { r with status }) := Iff.rfl

@[simp] theorem wp_record {Q : Unit → SchedulerState W → Prop} (event : SchedulerEvent) :
    wp (Edmm.record event) Q E s ↔ Q () (s.record event) := Iff.rfl

@[simp] theorem wp_pyAssert {Q : Unit → SchedulerState W → Prop} (condition : Prop)
    [Decidable condition] (error : PyError) :
    wp (pyAssert condition error) Q E s ↔
      (condition → Q () s) ∧ (¬ condition → E error s) := by
  simp [pyAssert]

@[simp] theorem wp_onlyIf {Q : Unit → SchedulerState W → Prop} (condition : Prop)
    [Decidable condition] (prog : SchedM W Unit) :
    wp (onlyIf condition prog) Q E s ↔
      (condition → wp prog Q E s) ∧ (¬ condition → Q () s) := by
  simp [onlyIf]

/-- A conditional call of a component leaves all but the world as it is. -/
theorem wp_onlyIf_onWorld {Q : Unit → SchedulerState W → Prop} {condition : Prop}
    [Decidable condition] (f : W → W) (h : ∀ w, Q () { s with world := w }) :
    wp (onlyIf condition (onWorld f)) Q E s := by
  rw [wp_onlyIf]
  exact ⟨fun _ => h (f s.world), fun _ => h s.world⟩

@[simp] theorem wp_getOrRaise {Q : α → SchedulerState W → Prop} (entry : Option α)
    (error : PyError) :
    wp (getOrRaise entry error) Q E s ↔
      (∀ value, entry = some value → Q value s) ∧ (entry = none → E error s) := by
  cases entry <;> simp [getOrRaise]

end

/-! ## 2. Errors -/

def onlyRunningPreempted : PyError := .assertionError "Only running requests can be preempted"

def numNewTokensPositive : PyError := .assertFailed "num_new_tokens > 0"

/-- Neither of the two assertions. -/
def Benign (e : PyError) : Prop := e ≠ onlyRunningPreempted ∧ e ≠ numNewTokensPositive

theorem benign_keyError : Benign .keyError := ⟨nofun, nofun⟩

theorem benign_indexError : Benign .indexError := ⟨nofun, nofun⟩

theorem benign_valueError (message : String) : Benign (.valueError message) := ⟨nofun, nofun⟩

theorem benign_runtimeError (message : String) : Benign (.runtimeError message) :=
  ⟨nofun, nofun⟩

theorem benign_assertFailed {condition : String} (h : condition ≠ "num_new_tokens > 0") :
    Benign (.assertFailed condition) :=
  ⟨nofun, fun heq => h (PyError.assertFailed.inj heq)⟩

theorem benign_assertionError {message : String}
    (h : message ≠ "Only running requests can be preempted") :
    Benign (.assertionError message) :=
  ⟨fun heq => h (PyError.assertionError.inj heq), nofun⟩

/-- The program changes nothing but the collaborators, and raises no assertion
    that matters. -/
def TouchesWorld {W α : Type} (prog : SchedM W α) (Q : α → Prop) : Prop :=
  ∀ s, wp prog (fun a s' => Q a ∧ ∃ w, s' = { s with world := w })
    (fun e s' => Benign e ∧ ∃ w, s' = { s with world := w }) s

section
variable {W α β : Type} {s : SchedulerState W}

theorem TouchesWorld.pure {a : α} {Q : α → Prop} (h : Q a) :
    TouchesWorld (pure a : SchedM W α) Q :=
  fun s => ⟨h, s.world, rfl⟩

theorem TouchesWorld.throw {e : PyError} {Q : α → Prop} (h : Benign e) :
    TouchesWorld (throw e : SchedM W α) Q :=
  fun s => ⟨h, s.world, rfl⟩

theorem TouchesWorld.bind {prog : SchedM W α} {rest : α → SchedM W β} {P : α → Prop}
    {Q : β → Prop} (hprog : TouchesWorld prog P) (hrest : ∀ a, P a → TouchesWorld (rest a) Q) :
    TouchesWorld (prog >>= rest) Q := by
  intro s
  rw [wp_bind]
  apply wp_mono (hprog s)
  · rintro a s' ⟨ha, w, rfl⟩
    apply wp_mono (hrest a ha _)
    · rintro b s'' ⟨hb, w', rfl⟩
      exact ⟨hb, w', rfl⟩
    · rintro e s'' ⟨he, w', rfl⟩
      exact ⟨he, w', rfl⟩
  · exact fun e s' he => he

theorem TouchesWorld.onWorld {Q : Unit → Prop} (f : W → W) (h : Q ()) :
    TouchesWorld (onWorld f) Q :=
  fun s => ⟨h, f s.world, rfl⟩

theorem TouchesWorld.callWorld {Q : α → Prop} (f : W → α × W) (h : ∀ a, Q a) :
    TouchesWorld (callWorld f) Q :=
  fun s => ⟨h _, (f s.world).2, rfl⟩

theorem TouchesWorld.get {rest : SchedulerState W → SchedM W α} {Q : α → Prop}
    (h : ∀ s, TouchesWorld (rest s) Q) : TouchesWorld (get >>= rest) Q :=
  fun s => h s s

theorem TouchesWorld.pyAssert {condition : Prop} [Decidable condition] {error : PyError}
    {Q : Unit → Prop} (h : condition → Q ()) (herror : Benign error) :
    TouchesWorld (pyAssert condition error : SchedM W Unit) Q := by
  intro s
  rw [wp_pyAssert]
  exact ⟨fun hc => ⟨h hc, s.world, rfl⟩, fun _ => ⟨herror, s.world, rfl⟩⟩

theorem TouchesWorld.getOrRaise {entry : Option α} {error : PyError} {Q : α → Prop}
    (h : ∀ a, entry = some a → Q a) (herror : Benign error) :
    TouchesWorld (getOrRaise entry error : SchedM W α) Q := by
  intro s
  rw [wp_getOrRaise]
  exact ⟨fun a ha => ⟨h a ha, s.world, rfl⟩, fun _ => ⟨herror, s.world, rfl⟩⟩

theorem TouchesWorld.onlyIf {condition : Prop} [Decidable condition] {prog : SchedM W Unit}
    (h : TouchesWorld prog fun _ => True) :
    TouchesWorld (onlyIf condition prog) fun _ => True := by
  unfold Edmm.onlyIf
  split
  · exact h
  · exact TouchesWorld.pure trivial

theorem TouchesWorld.mono {prog : SchedM W α} {P Q : α → Prop} (hprog : TouchesWorld prog P)
    (h : ∀ a, P a → Q a) : TouchesWorld prog Q :=
  fun s => wp_mono (hprog s) (fun a _ ha => ⟨h a ha.1, ha.2⟩) (fun _ _ he => he)

theorem TouchesWorld.forM {body : α → SchedM W PUnit} (items : List α)
    (h : ∀ a, TouchesWorld (body a) fun _ => True) :
    TouchesWorld (items.forM body) fun _ => True := by
  induction items with
  | nil => exact TouchesWorld.pure trivial
  | cons a rest ih => exact TouchesWorld.bind (h a) fun _ _ => ih

end

/-! ## 3. Helpers that touch only the collaborators -/

namespace Scheduler

variable {W : Type} (self : Scheduler W)

/-- The split never asks for more tokens, and keeps the sign. -/
theorem mambaBlockAlignedSplit_touches (r : Request) (n localTokens externalTokens : Int) :
    TouchesWorld (self.mambaBlockAlignedSplit r n localTokens externalTokens)
      fun m => m ≤ n ∧ (0 ≤ n → 0 ≤ m) := by
  have hpos : (0 : Int) < self.cacheBlockSize := by exact_mod_cast self.cacheBlockSize_pos
  apply TouchesWorld.bind
    (TouchesWorld.pyAssert (Q := fun _ => True) (fun _ => trivial)
      (benign_assertionError (by decide)))
  intro _ _
  dsimp only
  have hfloor : n / self.cacheBlockSize * self.cacheBlockSize ≤ n := Int.ediv_mul_le n hpos.ne'
  split
  · split
    · apply TouchesWorld.pure
      exact ⟨hfloor, fun hn => Int.mul_nonneg (Int.ediv_nonneg hn hpos.le) hpos.le⟩
    · split
      · apply TouchesWorld.pure
        constructor <;> omega
      · exact TouchesWorld.pure ⟨le_refl n, id⟩
  · exact TouchesWorld.pure ⟨le_refl n, id⟩

/-- Encoder inputs can only lower the number of tokens, down to none. -/
def LowersTokens (before after : Int) : Prop :=
  (after = 0 ∨ after ≤ before) ∧ (0 ≤ before → 0 ≤ after)

theorem LowersTokens.refl (n : Int) : LowersTokens n n := ⟨Or.inr (le_refl n), id⟩

theorem encoderInputsLoop_touches (r : Request) (numComputed shift : Int)
    (features : List (MultiModalFeatureSpec × Nat)) (acc : EncoderLocals) :
    TouchesWorld (self.encoderInputsLoop r numComputed shift features acc)
      fun acc' => LowersTokens acc.plan.numNewTokens acc'.plan.numNewTokens := by
  induction features generalizing acc with
  | nil => exact TouchesWorld.pure (LowersTokens.refl _)
  | cons feature rest ih =>
    rcases feature with ⟨mmFeature, i⟩
    unfold encoderInputsLoop
    dsimp only
    split
    · exact TouchesWorld.pure (LowersTokens.refl _)
    rename_i hneeded
    split
    · apply TouchesWorld.bind (TouchesWorld.pyAssert (Q := fun _ => True) (fun _ => trivial)
        (benign_assertionError (by decide)))
      exact fun _ _ => ih acc
    split
    · exact ih acc
    split
    · exact ih acc
    have hcached : TouchesWorld
        (if self.isEncoderDecoder = true then pure false
          else callWorld fun w => self.externals.checkAndUpdateCache w r i)
        fun _ => True := by
      split
      · exact TouchesWorld.pure trivial
      · exact TouchesWorld.callWorld _ fun _ => trivial
    apply TouchesWorld.bind hcached
    intro cached _
    split
    · exact ih acc
    split
    · apply TouchesWorld.pure
      constructor
      · dsimp only
        omega
      · intro _
        exact le_max_left _ _
    apply TouchesWorld.bind (TouchesWorld.callWorld (Q := fun _ => True) _ fun _ => trivial)
    intro allocatable _
    split
    · apply TouchesWorld.pure
      constructor
      · dsimp only
        split <;> omega
      · intro _
        dsimp only
        split <;> omega
    apply TouchesWorld.get
    intro s
    split
    · exact ih acc
    split
    · exact ih _
    · exact ih _

theorem planEncoderInputs_touches (r : Request) (numComputed numNewTokens budget : Int) :
    TouchesWorld (self.planEncoderInputs r numComputed numNewTokens budget)
      fun plan => LowersTokens numNewTokens plan.numNewTokens := by
  unfold planEncoderInputs
  split
  · unfold tryScheduleEncoderInputs
    split
    · exact TouchesWorld.pure (LowersTokens.refl _)
    · apply TouchesWorld.bind (self.encoderInputsLoop_touches r numComputed _ _ _)
      exact fun acc hacc => TouchesWorld.pure hacc
  · exact TouchesWorld.pure (LowersTokens.refl _)

theorem allocateEncoderInputs_touches (request : Ref) (inputs : List Nat) :
    TouchesWorld (self.allocateEncoderInputs request inputs) fun _ => True := by
  apply TouchesWorld.forM
  intro i
  apply TouchesWorld.get
  intro s
  apply TouchesWorld.bind (TouchesWorld.onWorld (Q := fun _ => True) _ trivial)
  intro _ _
  exact TouchesWorld.onlyIf (TouchesWorld.onWorld _ trivial)

/-- Equal up to the encoder inputs scheduled and their budget. -/
def SameButEncoder (l l' : StepLocals) : Prop :=
  ∃ inputs budget,
    l' = { l with scheduledEncoderInputs := inputs, encoderComputeBudget := budget }

theorem scheduleEncoderInputs_touches (request : Ref) (requestId : RequestId)
    (plan : EncoderPlan) (l : StepLocals) :
    TouchesWorld (self.scheduleEncoderInputs request requestId plan l) (SameButEncoder l) := by
  apply TouchesWorld.bind (self.allocateEncoderInputs_touches request _)
  intro _ _
  apply TouchesWorld.bind (self.allocateEncoderInputs_touches request _)
  intro _ _
  apply TouchesWorld.pure
  split
  · exact ⟨_, _, rfl⟩
  · exact ⟨_, _, rfl⟩

theorem allocateWaiting_touches (r : Request) (found : ComputedTokens) (plan : EncoderPlan) :
    TouchesWorld (self.allocateWaiting r found plan) fun _ => True := by
  apply TouchesWorld.bind (TouchesWorld.callWorld (Q := fun _ => True) _ fun _ => trivial)
  intro newBlocks _
  cases newBlocks with
  | none =>
    apply TouchesWorld.bind (TouchesWorld.onlyIf (TouchesWorld.onWorld _ trivial))
    exact fun _ _ => TouchesWorld.pure trivial
  | some blocks =>
    apply TouchesWorld.bind (TouchesWorld.onlyIf (TouchesWorld.onWorld _ trivial))
    exact fun _ _ => TouchesWorld.pure trivial

/-! ## 4. The RUNNING loop -/

/-- The state and the locals of `schedule()`. -/
abbrev Frame (W : Type) := SchedulerState W × StepLocals

/-- The state after `_preempt_request`. -/
def afterPreempt (s : SchedulerState W) (request : Ref) (w : W) : SchedulerState W :=
  SchedulerState.updateRequest
    { s with
      waiting := self.requestQueue.prependRequest (s.updateRequest request preempted).objs
        s.waiting request
      world := w
      trace := s.trace ++ [.preempted request] }
    request preempted

theorem preemptRequest_wp {Q : Unit → SchedulerState W → Prop}
    {E : PyError → SchedulerState W → Prop} (s : SchedulerState W) (request : Ref)
    (hstatus : (s.objs request).status = .running →
      ∀ w, Q () (self.afterPreempt s request w))
    (herror : (s.objs request).status ≠ .running → E onlyRunningPreempted s) :
    wp (self.preemptRequest request) Q E s := by
  simp only [preemptRequest, wp_bind, wp_get, wp_pyAssert, wp_onWorld, wp_modifyRequest, wp_record,
    wp_modify]
  exact ⟨fun h => hstatus h _, herror⟩

/-- One change made by the RUNNING loop. -/
inductive RunningEffect : Frame W → Frame W → Prop where
  | touch (s : SchedulerState W) (l : StepLocals) (w : W) :
      RunningEffect (s, l) ({ s with world := w }, l)
  | pass (s : SchedulerState W) (l : StepLocals) (reqIndex : Nat) (scheduledLoras : List Int) :
      RunningEffect (s, l) (s, { l with reqIndex, scheduledLoras })
  | preempt {s : SchedulerState W} {l l' : StepLocals} {victim : Ref} {rest : List Ref} (w : W)
      (hvictim : s.running.Perm (victim :: rest))
      (hstatus : (s.objs victim).status = .running)
      (hlocals : l' = l ∨ ∃ numTokens, l' = dropScheduled s.objs l victim numTokens) :
      RunningEffect (s, l)
        (self.afterPreempt { s with running := rest } victim w,
          { l' with preemptedReqs := l'.preemptedReqs ++ [victim] })
  | schedule {s : SchedulerState W} {l l' : StepLocals} {request : Ref} {numNewTokens : Int}
      (newBlocks : KVCacheBlocks) (w : W)
      (hrunning : request ∈ s.running) (hsome : numNewTokens ≠ 0)
      (hbound : numNewTokens ≤ (s.objs request).numTokensWithSpec +
        (s.objs request).numOutputPlaceholders - (s.objs request).numComputedTokens)
      (hlocals : SameButEncoder
        (addRunning l request (s.objs request) numNewTokens newBlocks) l') :
      RunningEffect (s, l)
        (SchedulerState.updateRequest { s with world := w } request clearSpecTokens, l')

abbrev RunningEffects : Frame W → Frame W → Prop := Relation.ReflTransGen self.RunningEffect

/-- How the RUNNING loop can raise: `num_new_tokens > 0` is not asserted there, and
    "Only running requests can be preempted" fails for a member of `running`. -/
def RunningError (p : Frame W) (e : PyError) : Prop :=
  e ≠ numNewTokensPositive ∧ (e = onlyRunningPreempted →
    ∃ p', self.RunningEffects p p' ∧ ∃ request ∈ p'.1.running,
      (p'.1.objs request).status ≠ .running)

variable {self}

theorem RunningError.of_benign {p : Frame W} {e : PyError} (h : Benign e) :
    self.RunningError p e :=
  ⟨h.2, fun he => absurd he h.1⟩

theorem RunningError.of_effects {p p' : Frame W} {e : PyError} (h : self.RunningEffects p p')
    (he : self.RunningError p' e) : self.RunningError p e := by
  constructor
  · exact he.1
  · intro hmessage
    obtain ⟨p'', heffects, hrequest⟩ := he.2 hmessage
    exact ⟨p'', h.trans heffects, hrequest⟩

variable (self)

/-- What happens to the locals when the victim is taken back. -/
theorem unschedule_wp (s : SchedulerState W) (l : StepLocals) (victim : Ref)
    (objs : Ref → Request) :
    wp (unschedule objs l victim)
      (fun l' s' => s' = s ∧ (l' = l ∨ ∃ numTokens, l' = dropScheduled objs l victim numTokens))
      (fun e s' => Benign e ∧ s' = s) s := by
  unfold unschedule
  split
  · simp only [wp_bind, wp_getOrRaise, wp_pyAssert, wp_pure]
    constructor
    · intro numTokens _
      exact ⟨fun _ => ⟨trivial, Or.inr ⟨numTokens, rfl⟩⟩, fun _ => ⟨benign_keyError, trivial⟩⟩
    · exact fun _ => ⟨benign_keyError, trivial⟩
  · exact ⟨rfl, Or.inl rfl⟩

theorem popPreemptionVictim_wp (s : SchedulerState W) (l : StepLocals) :
    wp (self.popPreemptionVictim l)
      (fun victim s' => ∃ rest, s.running.Perm (victim.1 :: rest) ∧
        s' = { s with running := rest } ∧
        (victim.2 = l ∨ ∃ numTokens, victim.2 = dropScheduled s.objs l victim.1 numTokens))
      (fun e _ => Benign e) s := by
  unfold popPreemptionVictim
  rw [wp_bind, wp_get]
  split
  · dsimp only
    split
    · exact benign_valueError _
    · rename_i victim hvictim
      rw [wp_bind, wp_modify, wp_bind]
      apply wp_mono (unschedule_wp _ l victim s.objs)
      · rintro l' s' ⟨rfl, hl'⟩
        exact ⟨s.running.erase victim, List.perm_cons_erase (Python.maxBy_mem hvictim), rfl, hl'⟩
      · exact fun e s' he => he.1
  · split
    · exact benign_indexError
    · rename_i victim hvictim
      obtain ⟨others, hothers⟩ := List.getLast?_eq_some_iff.mp hvictim
      rw [wp_bind, wp_modify, wp_pure]
      refine ⟨s.running.dropLast, ?_, rfl, Or.inl rfl⟩
      rw [hothers, List.dropLast_concat]
      exact List.perm_append_singleton victim others

theorem allocateOrPreempt_effects (request : Ref) (numNewTokens : Int) (fuel : Nat)
    (s : SchedulerState W) (l : StepLocals) (hrunning : request ∈ s.running) :
    wp (self.allocateOrPreempt request numNewTokens fuel l)
      (fun allocated s' => self.RunningEffects (s, l) (s', allocated.2) ∧
        (s'.objs request).requestId = (s.objs request).requestId ∧
        (allocated.1.isSome = true → request ∈ s'.running ∧ s'.objs request = s.objs request))
      (fun e _ => self.RunningError (s, l) e) s := by
  induction fuel generalizing s l with
  | zero => exact ⟨Relation.ReflTransGen.refl, rfl, nofun⟩
  | succ fuel ih =>
    unfold allocateOrPreempt
    rw [wp_bind, wp_getRequest, wp_bind, wp_callWorld]
    generalize hcall : self.externals.allocateSlots s.world (s.objs request) _ = answer
    have htouch : self.RunningEffects (s, l) ({ s with world := answer.2 }, l) :=
      Relation.ReflTransGen.single (RunningEffect.touch s l answer.2)
    cases hblocks : answer.1 with
    | some blocks => exact ⟨htouch, rfl, fun _ => ⟨hrunning, rfl⟩⟩
    | none =>
      dsimp only
      rw [wp_bind]
      apply wp_mono (self.popPreemptionVictim_wp _ l)
      · rintro ⟨victim, l'⟩ s' ⟨rest, hperm, rfl, hl'⟩
        rw [wp_bind]
        apply self.preemptRequest_wp
        · intro hstatus w
          have heffect : self.RunningEffects (s, l)
              (self.afterPreempt { s with world := answer.2, running := rest } victim w,
                { l' with preemptedReqs := l'.preemptedReqs ++ [victim] }) :=
            htouch.tail (RunningEffect.preempt w hperm hstatus hl')
          split
          · rename_i hself
            subst hself
            refine ⟨heffect, ?_, nofun⟩
            simp [afterPreempt, preempted]
          · rename_i hother
            have hother : request ≠ victim := fun h => hother h.symm
            have hrest : request ∈ rest := by
              have hmem := hperm.mem_iff.mp hrunning
              exact (List.mem_cons.mp hmem).resolve_left hother
            have hsame : (self.afterPreempt { s with world := answer.2, running := rest } victim
                w).objs request = s.objs request := by
              simp [afterPreempt, hother]
            apply wp_mono (ih _ _ hrest)
            · rintro allocated s' ⟨heffects, hid, hsome⟩
              refine ⟨heffect.trans heffects, hid.trans (by rw [hsame]), ?_⟩
              intro h
              obtain ⟨hmem, hobjs⟩ := hsome h
              exact ⟨hmem, hobjs.trans hsame⟩
            · exact fun e s' he => he.of_effects heffect
        · intro hstatus
          refine ⟨nofun, fun _ => ⟨_, htouch, victim, ?_, hstatus⟩⟩
          exact hperm.mem_iff.mpr List.mem_cons_self
      · exact fun e s' he => RunningError.of_benign he

theorem clampToThreshold_le (n : Int) : self.clampToThreshold n ≤ n := by
  unfold clampToThreshold
  split <;> omega

/-- A running request asks for no more than what is left to compute, drafts included. -/
theorem runningNewTokens_le_remaining (tokenBudget : Int) (r : Request) :
    self.runningNewTokens tokenBudget r ≤
      r.numTokensWithSpec + r.numOutputPlaceholders - r.numComputedTokens := by
  have hclamp := self.clampToThreshold_le
    (r.numTokensWithSpec + r.numOutputPlaceholders - r.numComputedTokens)
  unfold runningNewTokens
  omega

theorem scheduleRunning_effects (s : SchedulerState W) (l : StepLocals) (request : Ref)
    (plan : EncoderPlan) (newBlocks : KVCacheBlocks) (hrunning : request ∈ s.running)
    (hsome : plan.numNewTokens ≠ 0)
    (hbound : plan.numNewTokens ≤ (s.objs request).numTokensWithSpec +
      (s.objs request).numOutputPlaceholders - (s.objs request).numComputedTokens) :
    wp (self.scheduleRunning request plan newBlocks l)
      (fun l' s' => self.RunningEffects (s, l) (s', l')) (fun e _ => Benign e) s := by
  unfold scheduleRunning
  rw [wp_bind, wp_getRequest, wp_bind, wp_modifyRequest]
  apply wp_mono (self.scheduleEncoderInputs_touches request _ plan _ _)
  · rintro l' s' ⟨hl', w, rfl⟩
    exact Relation.ReflTransGen.single
      (RunningEffect.schedule newBlocks w hrunning hsome hbound hl')
  · exact fun e s' he => he.1

/-- One iteration of the RUNNING loop. -/
theorem runningStep_effects (s : SchedulerState W) (l : StepLocals) (request : Ref)
    (hrunning : request ∈ s.running) :
    wp (self.runningStep l request)
      (fun control s' => self.RunningEffects (s, l) (s', control.locals))
      (fun e _ => self.RunningError (s, l) e) s := by
  unfold runningStep
  rw [wp_bind, wp_getRequest]
  have hpass : self.RunningEffects (s, l) (s, { l with reqIndex := l.reqIndex + 1 }) :=
    Relation.ReflTransGen.single (RunningEffect.pass s l (l.reqIndex + 1) l.scheduledLoras)
  split
  · exact hpass
  rw [wp_bind]
  apply wp_mono (self.planEncoderInputs_touches _ _ _ _ s)
  swap
  · exact fun e s' he => RunningError.of_benign he.1
  rintro plan s' ⟨hplan, w, rfl⟩
  have hsplit : TouchesWorld
      (if self.needMambaBlockAlignedSplit then
        self.mambaBlockAlignedSplit (s.objs request) plan.numNewTokens 0 0
      else pure plan.numNewTokens : SchedM W Int)
      fun n => n ≤ plan.numNewTokens ∧ (0 ≤ plan.numNewTokens → 0 ≤ n) := by
    split
    · exact self.mambaBlockAlignedSplit_touches _ _ _ _
    · exact TouchesWorld.pure ⟨le_refl _, id⟩
  rw [wp_bind]
  apply wp_mono (hsplit _)
  swap
  · exact fun e s' he => RunningError.of_benign he.1
  rintro n s' ⟨hn, w, rfl⟩
  have htouch : self.RunningEffects (s, l) ({ s with world := w }, l) :=
    Relation.ReflTransGen.single (RunningEffect.touch s l w)
  split
  · exact htouch.trans (Relation.ReflTransGen.single
      (RunningEffect.pass _ l (l.reqIndex + 1) l.scheduledLoras))
  rename_i hsome
  have hbound : n ≤ (s.objs request).numTokensWithSpec +
      (s.objs request).numOutputPlaceholders - (s.objs request).numComputedTokens := by
    have hwanted := self.runningNewTokens_le_remaining l.tokenBudget (s.objs request)
    rcases hplan.1 with hzero | hle <;> omega
  rw [wp_bind, wp_get, wp_bind]
  apply wp_mono (self.allocateOrPreempt_effects request n _ { s with world := w } l hrunning)
  swap
  · exact fun e s' he => he.of_effects htouch
  rintro ⟨newBlocks, l'⟩ s' ⟨heffects, _, hallocated⟩
  cases newBlocks with
  | none => exact htouch.trans heffects
  | some newBlocks =>
    obtain ⟨hmem, hobjs⟩ := hallocated rfl
    dsimp only
    rw [wp_bind]
    apply wp_mono (self.scheduleRunning_effects s' l' request { plan with numNewTokens := n }
      newBlocks hmem hsome (by rw [hobjs]; exact hbound))
    · intro l'' s'' hscheduled
      exact (htouch.trans heffects).trans hscheduled
    · exact fun e s'' he => RunningError.of_benign he

theorem runningLoop_effects (fuel : Nat) (s : SchedulerState W) (l : StepLocals) :
    wp (self.runningLoop fuel l) (fun l' s' => self.RunningEffects (s, l) (s', l'))
      (fun e _ => self.RunningError (s, l) e) s := by
  induction fuel generalizing s l with
  | zero => exact Relation.ReflTransGen.refl
  | succ fuel ih =>
    unfold runningLoop
    rw [wp_bind, wp_get]
    split
    · exact Relation.ReflTransGen.refl
    rename_i request hrequest
    split
    · rw [wp_bind]
      apply wp_mono (self.runningStep_effects s l request (List.mem_of_getElem? hrequest))
      · intro control s' heffects
        cases control with
        | stop l' => exact heffects
        | next l' =>
          apply wp_mono (ih s' l')
          · exact fun l'' s'' hrest => heffects.trans hrest
          · exact fun e s'' he => he.of_effects heffects
      · exact fun e s' he => he
    · exact Relation.ReflTransGen.refl

theorem recordScheduledLoras_wp (s : SchedulerState W) (l : StepLocals) :
    wp (self.recordScheduledLoras l)
      (fun l' s' => s' = s ∧ ∃ scheduledLoras, l' = { l with scheduledLoras })
      (fun e _ => Benign e) s := by
  unfold recordScheduledLoras
  split
  · exact ⟨rfl, l.scheduledLoras, rfl⟩
  · rw [wp_bind, wp_get, wp_bind, wp_pyAssert]
    constructor
    · exact fun _ => ⟨rfl, _, rfl⟩
    · exact fun _ => benign_assertFailed (by decide)

/-! ## 5. The WAITING loop -/

/-- What a successful `_try_promote_blocked_waiting_request` does. -/
inductive Promotion (s : SchedulerState W) (request : Ref) : SchedulerState W → Prop where
  | remoteKvs (loaded : Request → Request) (w : W)
      (finishedRecving failedRecving : List RequestId)
      (hconnector : self.hasConnector = true)
      (hstatus : (s.objs request).status = .waitingForRemoteKvs)
      (hloaded : loaded = id ∨ loaded = recomputeLastToken) :
      Promotion s request (SchedulerState.updateRequest
        { s with
          world := w
          finishedRecvingKvReqIds := finishedRecving
          failedRecvingKvReqIds := failedRecving
          trace := s.trace ++ [.promoted request] }
        request fun r =>
          { loaded r with status := if r.numPreemptions ≠ 0 then .preempted else .waiting })
  | grammar (hstatus : (s.objs request).status = .waitingForStructuredOutputGrammar) :
      Promotion s request (SchedulerState.updateRequest
        { s with trace := s.trace ++ [.promoted request] }
        request fun r => { r with status := .waiting })
  | toolCall {hook : EdmmSchedulerHook}
      (hstatus : (s.objs request).status = .waitingForToolCall)
      (henabled : self.edmmEnabled = true) (hhook : s.edmmHook = some hook)
      (hready : hook.isToolResponseReady (s.objs request).requestId = true) :
      Promotion s request (SchedulerState.updateRequest
        { s with
          edmmHook := some (hook.onToolCallResume (s.objs request).requestId).2
          trace := s.trace ++ [.promoted request] }
        request fun r => { r with status := .waiting })

theorem updateWaitingForRemoteKv_wp (s : SchedulerState W) (request : Ref) :
    wp (self.updateWaitingForRemoteKv request)
      (fun _ s' => self.hasConnector = true ∧ ∃ loaded w finishedRecving failedRecving,
        (loaded = id ∨ loaded = recomputeLastToken) ∧
        s' = SchedulerState.updateRequest
          { s with
            world := w
            finishedRecvingKvReqIds := finishedRecving
            failedRecvingKvReqIds := failedRecving }
          request loaded)
      (fun e _ => Benign e) s := by
  have hid : ∀ s' : SchedulerState W, s' = s'.updateRequest request id :=
    fun s' => (s'.updateRequest_same request).symm
  unfold updateWaitingForRemoteKv
  rw [wp_bind, wp_pyAssert]
  constructor
  swap
  · exact fun _ => benign_assertFailed (by decide)
  intro hconnector
  rw [wp_bind, wp_get, wp_bind, wp_ite]
  constructor
  · intro _
    rw [wp_bind, wp_onWorld, wp_modify, wp_bind, wp_pyAssert]
    constructor
    · intro _
      exact ⟨hconnector, id, _, _, _, Or.inl rfl, hid _⟩
    · exact fun _ => benign_keyError
  · intro _
    rw [wp_bind, wp_onWorld, wp_onlyIf]
    constructor
    · intro _
      rw [wp_modifyRequest, wp_bind, wp_pyAssert]
      constructor
      · intro _
        refine ⟨hconnector, recomputeLastToken,
          self.externals.cacheBlocks s.world (s.objs request) (s.objs request).numComputedTokens,
          s.finishedRecvingKvReqIds.filter (· ≠ (s.objs request).requestId),
          s.failedRecvingKvReqIds, Or.inr rfl, rfl⟩
      · exact fun _ => benign_keyError
    · intro _
      rw [wp_bind, wp_pyAssert]
      constructor
      · intro _
        exact ⟨hconnector, id, _, _, _, Or.inl rfl, hid _⟩
      · exact fun _ => benign_keyError

theorem tryPromote_wp (s : SchedulerState W) (request : Ref)
    (hblocked : (s.objs request).status.isBlockedWaitingStatus = true) :
    wp (self.tryPromoteBlockedWaitingRequest request)
      (fun promoted s' =>
        if promoted then self.Promotion s request s' else s' = s)
      (fun e _ => Benign e) s := by
  unfold tryPromoteBlockedWaitingRequest
  rw [wp_bind, wp_get]
  dsimp only
  split
  · rename_i hstatus
    rw [wp_ite]
    constructor
    · exact fun _ => rfl
    · intro _
      rw [wp_bind]
      apply wp_mono (self.updateWaitingForRemoteKv_wp s request)
      · rintro _ s' ⟨hconnector, loaded, w, finishedRecving, failedRecving, hloaded, rfl⟩
        have hpromotion := Promotion.remoteKvs loaded w finishedRecving failedRecving hconnector
          hstatus hloaded
        rw [wp_bind, wp_setStatus, wp_bind, wp_record, wp_pure, if_pos rfl,
          SchedulerState.updateRequest_updateRequest]
        exact hpromotion
      · exact fun e s' he => he
  · rename_i hstatus
    rw [wp_ite]
    exact ⟨fun _ => rfl, fun _ => Promotion.grammar hstatus⟩
  · rw [wp_bind, wp_pyAssert]
    exact ⟨fun _ => rfl, fun _ => benign_assertFailed (by decide)⟩
  · rename_i hstatus
    split
    · rfl
    · rename_i hook hhook
      rw [wp_ite]
      constructor
      · exact fun _ => rfl
      · intro henabled
        rw [wp_ite]
        constructor
        · exact fun _ => rfl
        · intro hready
          exact Promotion.toolCall hstatus (by simpa using henabled) hhook (by simpa using hready)
  · rename_i status h₁ h₂ h₃ h₄
    exfalso
    revert hblocked
    cases hs : (s.objs request).status <;> simp_all [RequestStatus.isBlockedWaitingStatus]

/-- One change made by the WAITING loop. -/
inductive WaitingEffect : Frame W → Frame W → Prop where
  | touch (s : SchedulerState W) (l : StepLocals) (w : W) :
      WaitingEffect (s, l) ({ s with world := w }, l)
  | examine {s : SchedulerState W} {which : WaitingQueue} {request : Ref} (l : StepLocals)
      (hhead : (queue s which).head? = some request) :
      WaitingEffect (s, l) (s.record (.examined request), l)
  | lookup {s : SchedulerState W} {request : Ref} (l : StepLocals) (w : W)
      (hcomputed : (s.objs request).numComputedTokens = 0) :
      WaitingEffect (s, l)
        ({ s with world := w, trace := s.trace ++ [.prefixLookup request] }, l)
  | promote {s s' : SchedulerState W} {which : WaitingQueue} {request : Ref} (l : StepLocals)
      (hhead : (queue s which).head? = some request)
      (hpromotion : self.Promotion s request s') : WaitingEffect (s, l) (s', l)
  | skip {s : SchedulerState W} {which : WaitingQueue} {request : Ref} (l : StepLocals)
      (hhead : (queue s which).head? = some request) :
      WaitingEffect (s, l) (self.popRequest which s,
        { l with stepSkippedWaiting :=
            self.requestQueue.prependRequest s.objs l.stepSkippedWaiting request })
  | load {s : SchedulerState W} {which : WaitingQueue} {request : Ref} {l : StepLocals}
      (objs : Ref → Request) (numComputedTokens : Int)
      (hhead : (queue s which).head? = some request) (hconnector : self.hasConnector = true)
      (hunblocked : (s.objs request).status.isBlockedWaitingStatus = false)
      (hcomputed : (s.objs request).numComputedTokens = 0)
      (hbound : numComputedTokens ≤ (s.objs request).numTokens) :
      WaitingEffect (s, l)
        ((self.popRequest which s).updateRequest request
            fun r => { r with status := .waitingForRemoteKvs, numComputedTokens },
          { l with stepSkippedWaiting :=
              self.requestQueue.prependRequest objs l.stepSkippedWaiting request })
  | admitWaiting {s : SchedulerState W} {which : WaitingQueue} {request : Ref} {l l' : StepLocals}
      {numNewTokens numComputedTokens : Int} (blocks : KVCacheBlocks) (w : W)
      (hhead : (queue s which).head? = some request)
      (hstatus : (s.objs request).status = .waiting ∨ (s.objs request).status = .preempted)
      (hcomputed : (s.objs request).numComputedTokens ≠ 0 →
        numComputedTokens = (s.objs request).numComputedTokens)
      (hsome : 0 < numNewTokens)
      (hbound : numNewTokens ≤ (s.objs request).numTokens - numComputedTokens)
      (hlocals : SameButEncoder
        (self.addWaiting l request (s.objs request) numNewTokens blocks) l') :
      WaitingEffect (s, l)
        (((self.popRequest which s).startRunning request w).updateRequest request
            fun r => { r with status := .running, numComputedTokens },
          l')

abbrev WaitingEffects : Frame W → Frame W → Prop := Relation.ReflTransGen self.WaitingEffect

/-- How the WAITING loop can raise: nothing is preempted there, and
    `num_new_tokens > 0` fails only for a request without tokens left to compute. -/
def WaitingError (p : Frame W) (e : PyError) (s' : SchedulerState W) : Prop :=
  e ≠ onlyRunningPreempted ∧ (e = numNewTokensPositive →
    ∃ l' which request, self.WaitingEffects p (s', l') ∧ lastExamined s'.trace = some request ∧
      (queue s' which).head? = some request ∧ ((s'.objs request).numComputedTokens ≠ 0 →
        (s'.objs request).numTokens ≤ (s'.objs request).numComputedTokens))

variable {self}

theorem WaitingError.of_benign {p : Frame W} {e : PyError} {s' : SchedulerState W}
    (h : Benign e) : self.WaitingError p e s' :=
  ⟨h.1, fun he => absurd he h.2⟩

theorem WaitingError.of_effects {p p' : Frame W} {e : PyError} {s' : SchedulerState W}
    (h : self.WaitingEffects p p') (he : self.WaitingError p' e s') :
    self.WaitingError p e s' := by
  constructor
  · exact he.1
  · intro hmessage
    obtain ⟨l', which, request, heffects, hrequest⟩ := he.2 hmessage
    exact ⟨l', which, request, h.trans heffects, hrequest⟩

variable (self)

theorem findComputedTokens_wp (s : SchedulerState W) (request : Ref) :
    wp (self.findComputedTokens request)
      (fun found s' =>
        ((s.objs request).numComputedTokens = 0 →
          ∃ w, s' = { s with world := w, trace := s.trace ++ [.prefixLookup request] }) ∧
        ((s.objs request).numComputedTokens ≠ 0 → s' = s) ∧
        ∀ computed, found = some computed →
          ((s.objs request).numComputedTokens ≠ 0 →
            computed.numComputedTokens = (s.objs request).numComputedTokens) ∧
          (computed.loadKvAsync = true →
            self.hasConnector = true ∧ (s.objs request).numComputedTokens = 0) ∧
          ((s.objs request).numComputedTokens = 0 →
            computed.numComputedTokens ≤ (s.objs request).numTokens))
      (fun e _ => Benign e) s := by
  unfold findComputedTokens
  rw [wp_bind, wp_getRequest, wp_ite]
  constructor
  · intro hzero
    rw [wp_bind, wp_record, wp_bind, wp_callWorld]
    generalize self.externals.getComputedBlocks _ _ = cached
    have hmatched : wp
        (if self.hasConnector then
          callWorld fun w => self.externals.getNumNewMatchedTokens w (s.objs request) cached.1.2
        else pure (some 0, false) : SchedM W (Option Int × Bool))
        (fun matched s' => (∃ w, s' =
            { s with world := w, trace := s.trace ++ [.prefixLookup request] }) ∧
          (matched.2 = true → self.hasConnector = true))
        (fun e _ => Benign e)
        { s with world := cached.2, trace := s.trace ++ [.prefixLookup request] } := by
      split
      · rename_i hconnector
        exact ⟨⟨_, rfl⟩, fun _ => hconnector⟩
      · exact ⟨⟨_, rfl⟩, nofun⟩
    rw [wp_bind]
    apply wp_mono hmatched
    · rintro ⟨extTokens, loadKvAsync⟩ s' ⟨⟨w, rfl⟩, hasync⟩
      cases extTokens with
      | none => exact ⟨fun _ => ⟨w, rfl⟩, fun h => absurd hzero h, nofun⟩
      | some extTokens =>
        dsimp only
        rw [wp_bind, wp_pyAssert]
        constructor
        · intro hbound
          rw [wp_bind, wp_pyAssert]
          constructor
          · intro _
            refine ⟨fun _ => ⟨w, rfl⟩, fun h => absurd hzero h, ?_⟩
            intro computed hcomputed
            cases hcomputed
            exact ⟨fun h => absurd hzero h, fun h => ⟨hasync h, hzero⟩, fun _ => hbound⟩
          · exact fun _ => benign_assertFailed (by decide)
        · exact fun _ => benign_assertFailed (by decide)
    · exact fun e s' he => he
  · intro hsome
    refine ⟨fun h => absurd h hsome, fun _ => rfl, ?_⟩
    intro computed hcomputed
    cases hcomputed
    exact ⟨fun _ => rfl, nofun, fun h => absurd h hsome⟩

/-- The tokens planned for a request that is not loading: at least one, at most
    what is left to compute. -/
def PlansRemaining (r : Request) (found : ComputedTokens) (plan : Option EncoderPlan) : Prop :=
  ∀ planned, plan = some planned → found.loadKvAsync = false →
    0 < planned.numNewTokens ∧ planned.numNewTokens ≤ r.numTokens - found.numComputedTokens

theorem planNewTokens_wp (s : SchedulerState W) (l : StepLocals) (r : Request)
    (found : ComputedTokens) (hbudget : 0 < l.tokenBudget) :
    wp (self.planNewTokens l r found)
      (fun plan s' => PlansRemaining r found plan ∧ ∃ w, s' = { s with world := w })
      (fun e s' => e ≠ onlyRunningPreempted ∧ (∃ w, s' = { s with world := w }) ∧
        (e = numNewTokensPositive →
          found.loadKvAsync = false ∧ r.numTokens ≤ found.numComputedTokens)) s := by
  unfold planNewTokens
  split
  · rename_i hasync
    rw [wp_bind, wp_pyAssert]
    constructor
    · intro _
      exact ⟨fun planned _ h => absurd hasync (by simp [h]), s.world, rfl⟩
    · intro _
      have hbenign : Benign (.assertFailed "num_external_computed_tokens > 0") :=
        benign_assertFailed (by decide)
      exact ⟨hbenign.1, ⟨s.world, rfl⟩, fun h => absurd h hbenign.2⟩
  · rename_i hasync
    have hnotasync : found.loadKvAsync = false := by simpa using hasync
    dsimp only
    have hclamp := self.clampToThreshold_le (r.numTokens - found.numComputedTokens)
    split
    · exact ⟨nofun, s.world, rfl⟩
    · rw [wp_bind, wp_pyAssert]
      constructor
      · intro hpositive
        rw [wp_bind]
        apply wp_mono (self.planEncoderInputs_touches r found.numComputedTokens _ _ s)
        · rintro plan s' ⟨hplan, w, rfl⟩
          refine ⟨?_, w, rfl⟩
          intro planned hplanned _
          split at hplanned
          · cases hplanned
          · rename_i hnonzero
            cases hplanned
            have hnonneg := hplan.2 (by omega)
            rcases hplan.1 with hzero | hle
            · exact absurd hzero hnonzero
            · constructor <;> omega
        · rintro e s' ⟨he, w, rfl⟩
          exact ⟨he.1, ⟨w, rfl⟩, fun h => absurd h he.2⟩
      · intro hfails
        refine ⟨nofun, ⟨s.world, rfl⟩, fun _ => ⟨hnotasync, ?_⟩⟩
        unfold clampToThreshold at hfails
        split at hfails <;> omega

theorem planWaiting_wp (s : SchedulerState W) (l : StepLocals) (r : Request)
    (found : ComputedTokens) (hbudget : 0 < l.tokenBudget) :
    wp (self.planWaiting l r found)
      (fun plan s' => PlansRemaining r found plan ∧ ∃ w, s' = { s with world := w })
      (fun e s' => e ≠ onlyRunningPreempted ∧ (∃ w, s' = { s with world := w }) ∧
        (e = numNewTokensPositive →
          found.loadKvAsync = false ∧ r.numTokens ≤ found.numComputedTokens)) s := by
  unfold planWaiting
  rw [wp_bind]
  apply wp_mono (self.planNewTokens_wp s l r found hbudget)
  · rintro plan s' ⟨hplan, w, rfl⟩
    cases plan with
    | none => exact ⟨nofun, w, rfl⟩
    | some plan =>
      dsimp only
      split
      · rw [wp_bind]
        apply wp_mono (self.mambaBlockAlignedSplit_touches r plan.numNewTokens _ _ _)
        · rintro n s' ⟨hn, w', rfl⟩
          refine ⟨?_, w', rfl⟩
          intro planned hplanned hnotasync
          obtain ⟨hpositive, hle⟩ := hplan plan rfl hnotasync
          split at hplanned
          · cases hplanned
          · rename_i hnonzero
            cases hplanned
            have hnonneg := hn.2 hpositive.le
            dsimp only
            omega
        · rintro e s' ⟨he, w', rfl⟩
          exact ⟨he.1, ⟨w', rfl⟩, fun h => absurd h he.2⟩
      · exact ⟨hplan, w, rfl⟩
  · exact fun e s' he => he

@[simp] theorem objs_popRequest (which : WaitingQueue) (s : SchedulerState W) :
    (self.popRequest which s).objs = s.objs := by
  cases which <;> rfl

/-- The request at the head of the queue, just examined and schedulable. -/
structure Considered (s : SchedulerState W) (which : WaitingQueue) (request : Ref) : Prop where
  head : (queue s which).head? = some request
  examined : lastExamined s.trace = some request
  unblocked : (s.objs request).status.isBlockedWaitingStatus = false

theorem skipRequest_effects (s : SchedulerState W) (which : WaitingQueue) (request : Ref)
    (l : StepLocals) (hhead : (queue s which).head? = some request) :
    wp (self.skipRequest which request l)
      (fun control s' => self.WaitingEffects (s, l) (s', control.locals))
      (fun e s' => self.WaitingError (s, l) e s') s := by
  unfold skipRequest
  rw [wp_bind, wp_modify, wp_bind, wp_get, wp_pure, self.objs_popRequest]
  exact Relation.ReflTransGen.single (WaitingEffect.skip l hhead)

theorem loadAsync_effects (s : SchedulerState W) (which : WaitingQueue) (request : Ref)
    (found : ComputedTokens) (l : StepLocals) (hconsidered : Considered s which request)
    (hconnector : self.hasConnector = true)
    (hcomputed : (s.objs request).numComputedTokens = 0)
    (hbound : found.numComputedTokens ≤ (s.objs request).numTokens) :
    wp (self.loadAsync which request found l)
      (fun control s' => self.WaitingEffects (s, l) (s', control.locals))
      (fun e s' => self.WaitingError (s, l) e s') s := by
  unfold loadAsync
  rw [wp_bind, wp_modify, wp_bind, wp_setStatus, wp_bind, wp_get, wp_bind, wp_modifyRequest,
    wp_pure]
  have heffect := WaitingEffect.load (l := l)
    ((self.popRequest which s).updateRequest request
      fun r => { r with status := .waitingForRemoteKvs }).objs
    found.numComputedTokens hconsidered.head hconnector hconsidered.unblocked hcomputed hbound
  rw [SchedulerState.updateRequest_updateRequest]
  exact Relation.ReflTransGen.single heffect

theorem admitWaiting_effects (s : SchedulerState W) (which : WaitingQueue) (request : Ref)
    (found : ComputedTokens) (plan : EncoderPlan) (l : StepLocals)
    (hconsidered : Considered s which request)
    (hcomputed : (s.objs request).numComputedTokens ≠ 0 →
      found.numComputedTokens = (s.objs request).numComputedTokens)
    (hsome : 0 < plan.numNewTokens)
    (hbound : plan.numNewTokens ≤ (s.objs request).numTokens - found.numComputedTokens) :
    wp (self.admitWaiting which request found plan l)
      (fun control s' => self.WaitingEffects (s, l) (s', control.locals))
      (fun e s' => self.WaitingError (s, l) e s') s := by
  unfold admitWaiting
  rw [wp_bind, wp_modify, wp_bind, wp_modify, wp_bind, wp_get]
  dsimp only
  rw [self.objs_popRequest, wp_bind, wp_pyAssert]
  constructor
  · intro hstatus
    rw [wp_bind, wp_modifyRequest, wp_bind]
    apply wp_mono (self.scheduleEncoderInputs_touches request _ plan _ _)
    · rintro l' s' ⟨hl', w, rfl⟩
      have heffect := WaitingEffect.admitWaiting _ w hconsidered.head hstatus hcomputed hsome hbound hl'
      convert Relation.ReflTransGen.single heffect using 2
      cases which <;> rfl
    · exact fun e s' he => WaitingError.of_benign he.1
  · exact fun _ => WaitingError.of_benign (benign_runtimeError _)

theorem considerRequest_effects (s : SchedulerState W) (which : WaitingQueue) (request : Ref)
    (l : StepLocals) (hbudget : 0 < l.tokenBudget)
    (hconsidered : Considered s which request) :
    wp (self.considerRequest which request l)
      (fun control s' => self.WaitingEffects (s, l) (s', control.locals))
      (fun e s' => self.WaitingError (s, l) e s') s := by
  unfold considerRequest
  rw [wp_bind, wp_getRequest]
  split
  · exact self.skipRequest_effects s which request l hconsidered.head
  rw [wp_bind]
  apply wp_mono (self.findComputedTokens_wp s request)
  swap
  · exact fun e s' he => WaitingError.of_benign he
  rintro found s' ⟨hlookup, hsame, hfound⟩
  -- the lookup leaves the request where it is, and is recorded
  have hreach : self.WaitingEffects (s, l) (s', l) ∧ Considered s' which request ∧
      s'.objs = s.objs := by
    by_cases hcomputed : (s.objs request).numComputedTokens = 0
    · obtain ⟨w, rfl⟩ := hlookup hcomputed
      refine ⟨Relation.ReflTransGen.single (WaitingEffect.lookup l w hcomputed), ?_, rfl⟩
      exact
        { head := by cases which <;> exact hconsidered.head
          examined := by
            rw [lastExamined_concat]
            exact hconsidered.examined
          unblocked := hconsidered.unblocked }
    · rw [hsame hcomputed]
      exact ⟨Relation.ReflTransGen.refl, hconsidered, rfl⟩
  obtain ⟨hreach, hconsidered', hobjs⟩ := hreach
  cases found with
  | none =>
    apply wp_mono (self.skipRequest_effects s' which request l hconsidered'.head)
    · exact fun control s'' heffects => hreach.trans heffects
    · exact fun e s'' he => he.of_effects hreach
  | some found =>
    obtain ⟨hcomputed, hasync, hwithin⟩ := hfound found rfl
    dsimp only
    rw [wp_bind]
    apply wp_mono (self.planWaiting_wp s' l (s.objs request) found hbudget)
    · rintro plan s'' ⟨hplan, w, rfl⟩
      have htouch : self.WaitingEffects (s, l) ({ s' with world := w }, l) :=
        hreach.tail (WaitingEffect.touch s' l w)
      cases plan with
      | none => exact htouch
      | some plan =>
        dsimp only
        rw [wp_bind]
        apply wp_mono (self.allocateWaiting_touches _ found plan _)
        · rintro allocated s'' ⟨_, w', rfl⟩
          have htouch : self.WaitingEffects (s, l) ({ s' with world := w' }, l) :=
            hreach.tail (WaitingEffect.touch s' l w')
          have hconsidered'' : Considered { s' with world := w' } which request :=
            { head := by cases which <;> exact hconsidered'.head
              examined := hconsidered'.examined
              unblocked := hconsidered'.unblocked }
          split
          · exact htouch
          split
          · rename_i hload
            obtain ⟨hconnector, hzero⟩ := hasync hload
            rw [← hobjs] at hwithin hzero
            apply wp_mono (self.loadAsync_effects _ which request found l hconsidered''
              hconnector hzero (hwithin hzero))
            · exact fun control s'' heffects => htouch.trans heffects
            · exact fun e s'' he => he.of_effects htouch
          · rename_i hload
            obtain ⟨hpositive, hle⟩ := hplan plan rfl (by simpa using hload)
            rw [← hobjs] at hcomputed hle
            apply wp_mono (self.admitWaiting_effects _ which request found plan l hconsidered''
              hcomputed hpositive hle)
            · exact fun control s'' heffects => htouch.trans heffects
            · exact fun e s'' he => he.of_effects htouch
        · exact fun e s'' he => WaitingError.of_benign he.1
    · rintro e s'' ⟨honly, ⟨w, rfl⟩, hmessage⟩
      refine ⟨honly, fun he => ?_⟩
      obtain ⟨_, hle⟩ := hmessage he
      refine ⟨l, which, request, hreach.tail (WaitingEffect.touch s' l w),
        hconsidered'.examined, ?_, ?_⟩
      · cases which <;> exact hconsidered'.head
      · intro hsome
        have hsome : (s.objs request).numComputedTokens ≠ 0 := by
          rw [← hobjs]
          exact hsome
        rw [hcomputed hsome] at hle
        rw [← hobjs] at hle
        exact hle

variable {self}

theorem Promotion.queue_eq {s s' : SchedulerState W} {request : Ref}
    (h : self.Promotion s request s') (which : WaitingQueue) : queue s' which = queue s which := by
  cases h <;> cases which <;> rfl

theorem Promotion.trace_eq {s s' : SchedulerState W} {request : Ref}
    (h : self.Promotion s request s') : s'.trace = s.trace ++ [.promoted request] := by
  cases h <;> rfl

/-- A promoted request waits, or is preempted. -/
theorem Promotion.status {s s' : SchedulerState W} {request : Ref}
    (h : self.Promotion s request s') :
    (s'.objs request).status = .waiting ∨ (s'.objs request).status = .preempted := by
  cases h with
  | remoteKvs loaded w finishedRecving failedRecving hconnector hstatus hloaded =>
    simp only [SchedulerState.objs_updateRequest_self]
    split
    · exact Or.inr rfl
    · exact Or.inl rfl
  | grammar hstatus => simp
  | toolCall hstatus henabled hhook hready => simp

variable (self)

/-- One iteration of the WAITING loop. -/
theorem waitingStep_effects (s : SchedulerState W) (l : StepLocals) (hbudget : 0 < l.tokenBudget) :
    wp (self.waitingStep l)
      (fun control s' => self.WaitingEffects (s, l) (s', control.locals))
      (fun e s' => self.WaitingError (s, l) e s') s := by
  unfold waitingStep
  rw [wp_bind, wp_get]
  split
  · exact WaitingError.of_benign (benign_assertFailed (by decide))
  rename_i which _
  split
  · exact WaitingError.of_benign benign_indexError
  rename_i request hhead
  rw [wp_bind, wp_record, wp_bind]
  have hexamine : self.WaitingEffects (s, l) (s.record (.examined request), l) :=
    Relation.ReflTransGen.single (WaitingEffect.examine l hhead)
  have hhead' : (queue (s.record (.examined request)) which).head? = some request := by
    cases which <;> exact hhead
  have hexamined : lastExamined (s.record (.examined request)).trace = some request :=
    lastExamined_concat _ _
  have hskip : wp (self.skipRequest which request l)
      (fun control s' => self.WaitingEffects (s, l) (s', control.locals))
      (fun e s' => self.WaitingError (s, l) e s') (s.record (.examined request)) := by
    apply wp_mono (self.skipRequest_effects _ which request l hhead')
    · exact fun control s' heffects => hexamine.trans heffects
    · exact fun e s' he => he.of_effects hexamine
  have hconsider : ∀ s', self.WaitingEffects (s, l) (s', l) → Considered s' which request →
      wp (self.considerRequest which request l)
        (fun control s' => self.WaitingEffects (s, l) (s', control.locals))
        (fun e s' => self.WaitingError (s, l) e s') s' := by
    intro s' hreach hconsidered
    apply wp_mono (self.considerRequest_effects s' which request l hbudget hconsidered)
    · exact fun control s'' heffects => hreach.trans heffects
    · exact fun e s'' he => he.of_effects hreach
  by_cases hblocked : (s.objs request).status.isBlockedWaitingStatus = true
  · rw [if_pos hblocked]
    apply wp_mono (self.tryPromote_wp (s.record (.examined request)) request hblocked)
    · intro promoted s' hpromoted
      cases promoted with
      | false =>
        rw [if_neg Bool.false_ne_true] at hpromoted
        rw [if_pos rfl, hpromoted]
        exact hskip
      | true =>
        rw [if_pos rfl] at hpromoted
        rw [if_neg (by decide)]
        apply hconsider s' (hexamine.tail (WaitingEffect.promote l hhead' hpromoted))
        exact
          { head := by rw [hpromoted.queue_eq]; exact hhead'
            examined := by rw [hpromoted.trace_eq, lastExamined_concat]; exact hexamined
            unblocked := by rcases hpromoted.status with h | h <;> rw [h] <;> rfl }
    · exact fun e s' he => WaitingError.of_benign he
  · rw [if_neg hblocked, wp_pure, if_neg (by decide)]
    apply hconsider _ hexamine
    exact
      { head := hhead'
        examined := hexamined
        unblocked := Bool.eq_false_of_not_eq_true hblocked }

theorem waitingLoop_effects (fuel : Nat) (s : SchedulerState W) (l : StepLocals) :
    wp (self.waitingLoop fuel l) (fun l' s' => self.WaitingEffects (s, l) (s', l'))
      (fun e s' => self.WaitingError (s, l) e s') s := by
  induction fuel generalizing s l with
  | zero => exact Relation.ReflTransGen.refl
  | succ fuel ih =>
    unfold waitingLoop
    rw [wp_bind, wp_get]
    split
    · rename_i hcontinue
      split
      · exact Relation.ReflTransGen.refl
      · rw [wp_bind]
        apply wp_mono (self.waitingStep_effects s l hcontinue.2)
        · intro control s' heffects
          cases control with
          | stop l' => exact heffects
          | next l' =>
            apply wp_mono (ih s' l')
            · exact fun l'' s'' hrest => heffects.trans hrest
            · exact fun e s'' he => he.of_effects heffects
        · exact fun e s' he => he
    · exact Relation.ReflTransGen.refl

/-! ## 6. The output -/

/-- The entry of `new_reqs_data` for a request. -/
def IsNewRequestData (l : StepLocals) (s : SchedulerState W) (request : Ref)
    (data : NewRequestData) : Prop :=
  ∃ blocks, data = NewRequestData.fromRequest (s.objs request) blocks
    (if self.useV2ModelRunner then some (s.objs request).allTokenIds else none) ∧
    (l.reqToNewBlocks.get? (s.objs request).requestId).map KVCacheBlocks.getBlockIds = some blocks

theorem newRequestsData_wp (s : SchedulerState W) (l : StepLocals) (requests : List Ref)
    (data : List NewRequestData) :
    wp (requests.foldlM (self.newRequestData l) data)
      (fun data' s' => s' = s ∧ ∃ added, data' = data ++ added ∧
        List.Forall₂ (self.IsNewRequestData l s) requests added)
      (fun e _ => Benign e) s := by
  induction requests generalizing data with
  | nil => exact ⟨rfl, [], (List.append_nil data).symm, List.Forall₂.nil⟩
  | cons request rest ih =>
    rw [List.foldlM_cons, wp_bind]
    unfold newRequestData
    rw [wp_bind, wp_getRequest, wp_bind, wp_getOrRaise]
    constructor
    · intro blocks hblocks
      rw [wp_pure]
      apply wp_mono (ih _)
      · rintro data' s' ⟨rfl, added, rfl, hadded⟩
        refine ⟨rfl, _ :: added, List.append_assoc .., List.Forall₂.cons ?_ hadded⟩
        exact ⟨blocks.getBlockIds, rfl, by rw [hblocks]; rfl⟩
      · exact fun e s' he => he
    · exact fun _ => benign_keyError

/-- `all_token_ids` after some requests: those not scheduled in the previous step
    are sent whole. -/
def addAllTokenIds (s : SchedulerState W) (requests : List Ref)
    (allTokenIds : Dict RequestId (List Token)) : Dict RequestId (List Token) :=
  requests.foldl (fun sent request =>
    if (s.objs request).requestId ∈ s.prevStepScheduledReqIds then sent
    else sent.set (s.objs request).requestId (s.objs request).allTokenIds) allTokenIds

theorem cachedRequests_wp (s : SchedulerState W) (l : StepLocals) (resumed : Bool)
    (requests : List Ref) (data : CachedRequestData) :
    wp (requests.foldlM (self.addCachedRequest l resumed) data)
      (fun data' s' => s' = s ∧
        data'.reqIds = data.reqIds ++ requests.map (fun request => (s.objs request).requestId) ∧
        data'.numComputedTokens = data.numComputedTokens ++
          requests.map (fun request => (s.objs request).numComputedTokens) ∧
        data'.allTokenIds = addAllTokenIds s requests data.allTokenIds)
      (fun e _ => Benign e) s := by
  induction requests generalizing data with
  | nil => exact ⟨rfl, (List.append_nil _).symm, (List.append_nil _).symm, rfl⟩
  | cons request rest ih =>
    have hnew : wp
        (if self.usePp && !self.asyncScheduling then do
          let numScheduled ← getOrRaise
            (l.numScheduledTokens.get? (s.objs request).requestId) .keyError
          let numTokens : Int := numScheduled -
            ((l.scheduledSpecDecodeTokens.get? (s.objs request).requestId).getD []).length
          pure (data.newTokenIds ++ [Python.slice (s.objs request).allTokenIds
            (s.objs request).numComputedTokens
            ((s.objs request).numComputedTokens + numTokens)])
        else pure data.newTokenIds : SchedM W (List (List Token)))
        (fun _ s' => s' = s) (fun e _ => Benign e) s := by
      split
      · rw [wp_bind, wp_getOrRaise]
        exact ⟨fun _ _ => rfl, fun _ => benign_keyError⟩
      · rfl
    rw [List.foldlM_cons, wp_bind]
    unfold addCachedRequest
    rw [wp_bind, wp_get, wp_bind]
    apply wp_mono hnew
    · rintro newTokenIds s' rfl
      rw [wp_bind, wp_pyAssert]
      constructor
      · intro _
        rw [wp_bind, wp_getOrRaise]
        constructor
        · intro blocks _
          rw [wp_pure]
          apply wp_mono (ih _)
          · rintro data' s' ⟨rfl, hids, hcomputed, hall⟩
            refine ⟨rfl, ?_, ?_, ?_⟩
            · rw [hids, List.append_assoc]
              rfl
            · rw [hcomputed, List.append_assoc]
              rfl
            · rw [hall]
              simp only [addAllTokenIds, List.foldl_cons, decide_eq_true_eq]
          · exact fun e s' he => he
        · exact fun _ => benign_keyError
      · exact fun _ => benign_assertFailed (by decide)
    · exact fun e s' he => he

/-- What the output of `schedule()` says, given the state and the locals it is made from. -/
structure IsOutputOf (scheduler : Scheduler W) (s : SchedulerState W) (l : StepLocals)
    (out : SchedulerOutput) : Prop where
  numScheduledTokens : out.numScheduledTokens = l.numScheduledTokens
  scheduledSpecDecodeTokens : out.scheduledSpecDecodeTokens = l.scheduledSpecDecodeTokens
  newReqs : List.Forall₂ (scheduler.IsNewRequestData l s)
    (if scheduler.useV2ModelRunner then l.scheduledNewReqs ++ l.scheduledResumedReqs
      else l.scheduledNewReqs) out.scheduledNewReqs
  cachedReqIds : out.scheduledCachedReqs.reqIds =
    (l.scheduledRunningReqs ++
      if scheduler.useV2ModelRunner then [] else l.scheduledResumedReqs).map
      fun request => (s.objs request).requestId
  cachedComputedTokens : out.scheduledCachedReqs.numComputedTokens =
    (l.scheduledRunningReqs ++
      if scheduler.useV2ModelRunner then [] else l.scheduledResumedReqs).map
      fun request => (s.objs request).numComputedTokens
  allTokenIds : out.scheduledCachedReqs.allTokenIds = addAllTokenIds s
    (l.scheduledRunningReqs ++ if scheduler.useV2ModelRunner then [] else l.scheduledResumedReqs) ∅

theorem makeCachedRequestData_wp (s : SchedulerState W) (l : StepLocals)
    (runningReqs resumedReqs : List Ref) :
    wp (self.makeCachedRequestData l runningReqs resumedReqs)
      (fun data s' => s' = s ∧
        data.reqIds = (runningReqs ++ resumedReqs).map (fun r => (s.objs r).requestId) ∧
        data.numComputedTokens =
          (runningReqs ++ resumedReqs).map (fun r => (s.objs r).numComputedTokens) ∧
        data.allTokenIds = addAllTokenIds s (runningReqs ++ resumedReqs) ∅)
      (fun e _ => Benign e) s := by
  unfold makeCachedRequestData
  rw [wp_bind]
  apply wp_mono (self.cachedRequests_wp s l false runningReqs _)
  · rintro data s' ⟨rfl, hids, hcomputed, hall⟩
    apply wp_mono (self.cachedRequests_wp s' l true resumedReqs data)
    · rintro data' s'' ⟨rfl, hids', hcomputed', hall'⟩
      refine ⟨rfl, ?_, ?_, ?_⟩
      · rw [hids', hids, List.map_append]
        rfl
      · rw [hcomputed', hcomputed, List.map_append]
        rfl
      · rw [hall', hall]
        simp only [addAllTokenIds, List.foldl_append]
        rfl
    · exact fun e s'' he => he
  · exact fun e s' he => he

theorem makeSchedulerOutput_wp (s : SchedulerState W) (l : StepLocals) :
    wp (self.makeSchedulerOutput l)
      (fun out s' => self.IsOutputOf s l out ∧
        ∃ w, s' = { s with prevStepScheduledReqIds := l.numScheduledTokens.keys, world := w })
      (fun e _ => Benign e) s := by
  have hzero : TouchesWorld
      (if self.needsKvCacheZeroing then do
        let blockIds ← callWorld self.externals.takeNewBlockIds
        pure (if blockIds = [] then none else some blockIds)
      else pure none : SchedM W (Option (List Nat))) fun _ => True := by
    split
    · apply TouchesWorld.bind (TouchesWorld.callWorld (Q := fun _ => True) _ fun _ => trivial)
      exact fun _ _ => TouchesWorld.pure trivial
    · exact TouchesWorld.pure trivial
  unfold makeSchedulerOutput
  rw [wp_bind, wp_get, wp_bind]
  apply wp_mono (self.newRequestsData_wp s l _ [])
  swap
  · exact fun e s' he => he
  rintro newReqsData s' ⟨rfl, added, hdata, hadded⟩
  rw [List.nil_append] at hdata
  rw [wp_bind]
  apply wp_mono (self.makeCachedRequestData_wp s' l _ _)
  swap
  · exact fun e s'' he => he
  rintro cachedReqsData s'' ⟨rfl, hids, hcomputed, hall⟩
  rw [wp_bind, wp_modify, wp_bind]
  apply wp_mono (hzero _)
  swap
  · exact fun e s'' he => he.1
  rintro newBlockIdsToZero s₁ ⟨_, w, rfl⟩
  rw [wp_bind, wp_callWorld, wp_pure]
  refine ⟨?_, _, rfl⟩
  exact
    { numScheduledTokens := rfl
      scheduledSpecDecodeTokens := rfl
      newReqs := by rw [hdata]; exact hadded
      cachedReqIds := hids
      cachedComputedTokens := hcomputed
      allTokenIds := hall }

/-- One change made by `_update_after_schedule`. -/
inductive AdvanceEffect (items : List (RequestId × Int)) :
    SchedulerState W → SchedulerState W → Prop where
  | advance {s : SchedulerState W} {item : RequestId × Int} {request : Ref}
      (hitem : item ∈ items) (hregistered : s.requests.get? item.1 = some request) :
      AdvanceEffect items s (s.updateRequest request (advanced item.2))

abbrev AdvanceEffects (items : List (RequestId × Int)) :
    SchedulerState W → SchedulerState W → Prop :=
  Relation.ReflTransGen (AdvanceEffect items)

theorem updateAfterSchedule_wp (s : SchedulerState W) (out : SchedulerOutput) :
    wp (updateAfterSchedule out)
      (fun out' s' => (∃ flag, out' = { out with hasStructuredOutputRequests := flag }) ∧
        ∃ s₁, AdvanceEffects out.numScheduledTokens.items s s₁ ∧
          s' = { s₁ with finishedReqIds := [] })
      (fun e _ => Benign e) s := by
  unfold updateAfterSchedule
  rw [wp_bind]
  have hloop : wp (out.numScheduledTokens.items.foldlM advanceRequest
      out.hasStructuredOutputRequests)
      (fun _ s' => AdvanceEffects out.numScheduledTokens.items s s') (fun e _ => Benign e) s := by
    apply wp_foldlM
    · intro item hitem flag s₁ hreach
      unfold advanceRequest
      rw [wp_bind, wp_get, wp_bind, wp_getOrRaise]
      constructor
      · intro request hregistered
        exact hreach.tail (AdvanceEffect.advance hitem hregistered)
      · exact fun _ => benign_keyError
    · exact Relation.ReflTransGen.refl
  apply wp_mono hloop
  · exact fun flag s₁ hreach => ⟨⟨flag, rfl⟩, s₁, hreach, rfl⟩
  · exact fun e s' he => he

/-! ## 7. A whole call -/

/-- The locals `schedule()` starts with. -/
def startLocals (s : SchedulerState W) : StepLocals :=
  StepLocals.init (if s.pauseState = .pausedAll then 0 else self.maxNumScheduledTokens)
    self.maxNumEncoderInputTokens

/-- `skipped_waiting` with the requests skipped in this step put back. -/
def requeueSkipped (s : SchedulerState W) (l : StepLocals) : List Ref :=
  if l.stepSkippedWaiting = [] then s.skippedWaiting
  else self.requestQueue.prependRequests s.objs s.skippedWaiting l.stepSkippedWaiting

/-- A `schedule()` call that returned: the frames after its two loops, and how the
    output and the final state come from them. -/
structure Scheduled (scheduler : Scheduler W) (s : SchedulerState W)
    (afterRunning afterWaiting : Frame W) (out : SchedulerOutput) (s' : SchedulerState W) : Prop where
  running : scheduler.RunningEffects (s, scheduler.startLocals s) afterRunning
  waiting : scheduler.WaitingEffects afterRunning afterWaiting
  stayed : afterRunning.2.preemptedReqs ≠ [] ∨ s.pauseState ≠ .unpaused →
    afterWaiting = afterRunning
  pausedAll : s.pauseState = .pausedAll → afterWaiting.2.numScheduledTokens = ∅
  output : scheduler.IsOutputOf
    { afterWaiting.1 with
      skippedWaiting := scheduler.requeueSkipped afterWaiting.1 afterWaiting.2 }
    afterWaiting.2 out
  advanced : ∃ w s₁, AdvanceEffects out.numScheduledTokens.items
    { afterWaiting.1 with
      skippedWaiting := scheduler.requeueSkipped afterWaiting.1 afterWaiting.2
      prevStepScheduledReqIds := out.numScheduledTokens.keys
      world := w } s₁ ∧ s' = { s₁ with finishedReqIds := [] }

/-- How a `schedule()` call can raise one of the two assertions. -/
structure ScheduleError (scheduler : Scheduler W) (s : SchedulerState W) (e : PyError)
    (s' : SchedulerState W) : Prop where
  preempting : e = onlyRunningPreempted → s.pauseState ≠ .pausedAll ∧
    ∃ p, scheduler.RunningEffects (s, scheduler.startLocals s) p ∧
      ∃ request ∈ p.1.running, (p.1.objs request).status ≠ .running
  examining : e = numNewTokensPositive →
    ∃ p, scheduler.RunningEffects (s, scheduler.startLocals s) p ∧ scheduler.WaitingError p e s'

variable {self}

theorem SameButEncoder.stepSkippedWaiting {l l' : StepLocals} (h : SameButEncoder l l') :
    l'.stepSkippedWaiting = l.stepSkippedWaiting := by
  obtain ⟨inputs, budget, rfl⟩ := h
  rfl

/-- The RUNNING loop skips nothing and does not pause the scheduler. -/
theorem RunningEffect.unchanged {p p' : Frame W} (h : self.RunningEffect p p') :
    p'.1.pauseState = p.1.pauseState ∧
      p'.2.stepSkippedWaiting = p.2.stepSkippedWaiting := by
  cases h with
  | touch s l w => exact ⟨rfl, rfl⟩
  | pass s l reqIndex scheduledLoras => exact ⟨rfl, rfl⟩
  | preempt w hvictim hstatus hlocals =>
    rcases hlocals with rfl | ⟨numTokens, rfl⟩ <;> exact ⟨rfl, rfl⟩
  | schedule newBlocks w hrunning hsome hbound hlocals =>
    exact ⟨rfl, hlocals.stepSkippedWaiting⟩

variable (self)

theorem runningLoop_without_budget (fuel : Nat) (s : SchedulerState W) (l : StepLocals)
    (hbudget : ¬ l.tokenBudget > 0) :
    wp (self.runningLoop fuel l) (fun l' s' => l' = l ∧ s' = s) (fun _ _ => False) s := by
  cases fuel with
  | zero => exact ⟨rfl, rfl⟩
  | succ fuel =>
    unfold runningLoop
    rw [wp_bind, wp_get]
    split
    · exact ⟨rfl, rfl⟩
    · rw [if_neg hbudget]
      exact ⟨rfl, rfl⟩

theorem scheduleWaiting_effects (s : SchedulerState W) (l : StepLocals)
    (hskipped : l.stepSkippedWaiting = []) :
    wp (self.scheduleWaiting l)
      (fun l' s' => ∃ s₁, self.WaitingEffects (s, l) (s₁, l') ∧
        (l.preemptedReqs ≠ [] ∨ s.pauseState ≠ .unpaused → l' = l ∧ s₁ = s) ∧
        s' = { s₁ with skippedWaiting := self.requeueSkipped s₁ l' })
      (fun e s' => (l.preemptedReqs = [] ∧ s.pauseState = .unpaused) ∧
        self.WaitingError (s, l) e s') s := by
  unfold scheduleWaiting
  rw [wp_bind, wp_get]
  split
  · rename_i hwaits
    rw [wp_bind]
    apply wp_mono (self.waitingLoop_effects _ s l)
    · intro l' s₁ heffects
      rw [wp_bind, wp_onlyIf]
      have hnostay : l.preemptedReqs ≠ [] ∨ s.pauseState ≠ .unpaused → l' = l ∧ s₁ = s := by
        rintro (h | h)
        · exact absurd hwaits.1 h
        · exact absurd hwaits.2 h
      constructor
      · intro hskips
        refine ⟨s₁, heffects, hnostay, ?_⟩
        simp only [requeueSkipped, if_neg hskips]
      · intro hskips
        refine ⟨s₁, heffects, hnostay, ?_⟩
        simp only [requeueSkipped, if_pos (not_not.mp hskips)]
    · exact fun e s' he => ⟨hwaits, he⟩
  · refine ⟨s, Relation.ReflTransGen.refl, fun _ => ⟨rfl, rfl⟩, ?_⟩
    simp only [requeueSkipped, if_pos hskipped]

theorem checkConstraints_wp (s : SchedulerState W) (l : StepLocals) :
    wp (self.checkConstraints l) (fun _ s' => s' = s) (fun e _ => Benign e) s := by
  unfold checkConstraints
  rw [wp_bind, wp_get, wp_bind, wp_pyAssert]
  refine ⟨fun _ => ?_, fun _ => benign_assertFailed (by decide)⟩
  rw [wp_bind, wp_pyAssert]
  refine ⟨fun _ => ?_, fun _ => benign_assertFailed (by decide)⟩
  rw [wp_bind, wp_pyAssert]
  refine ⟨fun _ => ?_, fun _ => benign_assertFailed (by decide)⟩
  rw [wp_pyAssert]
  exact ⟨fun _ => rfl, fun _ => benign_assertFailed (by decide)⟩

/-- The connectors build their metadata: only the world changes, and nothing is raised. -/
theorem wp_buildMeta {s : SchedulerState W} {α : Type} {rest : SchedM W α}
    {Q : α → SchedulerState W → Prop} {E : PyError → SchedulerState W → Prop}
    (out : SchedulerOutput) (h : ∀ w, wp rest Q E { s with world := w }) :
    wp (do
        onlyIf (self.hasConnector = true)
          (onWorld fun w => self.externals.buildConnectorMeta w out)
        onlyIf (self.hasEcConnector = true)
          (onWorld fun w => self.externals.ecBuildConnectorMeta w out)
        rest) Q E s := by
  rw [wp_bind]
  apply wp_onlyIf_onWorld
  intro w
  rw [wp_bind]
  apply wp_onlyIf_onWorld
  exact h

theorem ScheduleError.of_benign {s s' : SchedulerState W} {e : PyError} (h : Benign e) :
    self.ScheduleError s e s' :=
  { preempting := fun he => absurd he h.1
    examining := fun he => absurd he h.2 }

/-- **`schedule()`.** -/
theorem schedule_effects (s : SchedulerState W) :
    wp self.schedule
      (fun out s' => ∃ afterRunning afterWaiting,
        self.Scheduled s afterRunning afterWaiting out s')
      (fun e s' => self.ScheduleError s e s') s := by
  have htouch : self.RunningEffects (s, self.startLocals s)
      ({ s with world := self.externals.newStepStarts s.world }, self.startLocals s) :=
    Relation.ReflTransGen.single (RunningEffect.touch s (self.startLocals s) _)
  have hrunning : wp (self.runningLoop s.running.length (self.startLocals s))
      (fun l s₁ => self.RunningEffects (s, self.startLocals s) (s₁, l) ∧
        (s.pauseState = .pausedAll → l = self.startLocals s))
      (fun e _ => s.pauseState ≠ .pausedAll ∧ self.RunningError (s, self.startLocals s) e)
      { s with world := self.externals.newStepStarts s.world } := by
    by_cases hpaused : s.pauseState = .pausedAll
    · apply wp_mono (self.runningLoop_without_budget _ _ (self.startLocals s)
        (by simp [startLocals, StepLocals.init, hpaused]))
      · rintro l s₁ ⟨rfl, rfl⟩
        exact ⟨htouch, fun _ => rfl⟩
      · exact fun e s₁ he => he.elim
    · apply wp_mono (self.runningLoop_effects _ _ (self.startLocals s))
      · exact fun l s₁ heffects => ⟨htouch.trans heffects, fun h => absurd h hpaused⟩
      · exact fun e s₁ he => ⟨hpaused, he.of_effects htouch⟩
  unfold schedule
  rw [wp_bind, wp_get, wp_bind, wp_onWorld, wp_bind]
  apply wp_mono hrunning
  swap
  · intro e s' he
    exact
      { preempting := fun h => ⟨he.1, he.2.2 h⟩
        examining := fun h => absurd h he.2.1 }
  rintro l₁ s₁ ⟨heffects₁, hidle⟩
  rw [wp_bind]
  apply wp_mono (self.recordScheduledLoras_wp s₁ l₁)
  swap
  · exact fun e s' he => ScheduleError.of_benign self he
  rintro l₂ s₂ ⟨rfl, scheduledLoras, rfl⟩
  have heffects : self.RunningEffects (s, self.startLocals s) (s₂, { l₁ with scheduledLoras }) :=
    heffects₁.tail (RunningEffect.pass s₂ l₁ l₁.reqIndex scheduledLoras)
  generalize hl₂ : ({ l₁ with scheduledLoras } : StepLocals) = l₂ at heffects
  have hidle : s.pauseState = .pausedAll → l₂.numScheduledTokens = ∅ := by
    intro h
    rw [← hl₂, hidle h]
    rfl
  obtain ⟨hpauseState, hskipped⟩ : s₂.pauseState = s.pauseState ∧ l₂.stepSkippedWaiting = [] :=
    invariant_of_chain
      (I := fun p : Frame W => p.1.pauseState = s.pauseState ∧ p.2.stepSkippedWaiting = [])
      (fun p p' h hp => ⟨h.unchanged.1.trans hp.1, h.unchanged.2.trans hp.2⟩) heffects ⟨rfl, rfl⟩
  rw [wp_bind]
  apply wp_mono (self.scheduleWaiting_effects s₂ l₂ hskipped)
  swap
  · rintro e s' ⟨_, he⟩
    exact
      { preempting := fun h => absurd h he.1
        examining := fun _ => ⟨(s₂, l₂), heffects, he⟩ }
  rintro l₃ s₃ ⟨s₄, hwaiting, hstayed, rfl⟩
  rw [wp_bind]
  apply wp_mono (self.checkConstraints_wp _ l₃)
  swap
  · exact fun e s' he => ScheduleError.of_benign self he
  rintro _ s' rfl
  rw [wp_bind]
  apply wp_mono (self.makeSchedulerOutput_wp _ l₃)
  swap
  · exact fun e s' he => ScheduleError.of_benign self he
  rintro out s' ⟨hout, w, rfl⟩
  apply wp_buildMeta
  intro w'
  apply wp_mono (updateAfterSchedule_wp _ out)
  swap
  · exact fun e s' he => ScheduleError.of_benign self he
  rintro out' s' ⟨⟨flag, rfl⟩, s₇, hadvanced, rfl⟩
  refine ⟨(s₂, l₂), (s₄, l₃), ?_⟩
  exact
    { running := heffects
      waiting := hwaiting
      stayed := by
        intro h
        rw [← hpauseState] at h
        obtain ⟨rfl, rfl⟩ := hstayed h
        rfl
      pausedAll := by
        intro h
        obtain ⟨rfl, rfl⟩ := hstayed (Or.inr (by rw [hpauseState, h]; decide))
        exact hidle h
      output :=
        { numScheduledTokens := hout.numScheduledTokens
          scheduledSpecDecodeTokens := hout.scheduledSpecDecodeTokens
          newReqs := hout.newReqs
          cachedReqIds := hout.cachedReqIds
          cachedComputedTokens := hout.cachedComputedTokens
          allTokenIds := hout.allTokenIds }
      advanced := ⟨w', s₇, by
        have hkeys : out.numScheduledTokens.keys = l₃.numScheduledTokens.keys := by
          rw [hout.numScheduledTokens]
        rw [hkeys]
        exact hadvanced, rfl⟩ }

end Scheduler

end Edmm
