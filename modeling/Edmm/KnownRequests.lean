/-
  Edmm/KnownRequests.lean
  =======================
  **What the worker knows of the requests.**

  The worker learns of a request from `scheduled_new_reqs` and forgets it by
  `finished_req_ids`; `scheduled_cached_reqs` only updates what the worker knows.

  So the two must agree: a cached request is one that the worker knows (`KeepsUp`), and
  what the worker knows is still registered, or it is among the ids that the next output
  reports (`WorkerAgrees`).
-/
import Edmm.HookCleanup
import Edmm.RequestLife
import Edmm.ScheduleOutput

namespace Edmm

open Program

variable {W : Type}

/-! ## 1. The law -/

/-- The request that the event frees. -/
def SchedulerEvent.freed? : SchedulerEvent → Option Ref
  | .freed request => some request
  | _ => none

/-- The ids of the requests that the last operation freed. -/
def freedIds (s : SchedulerState W) : List RequestId :=
  (s.trace.filterMap SchedulerEvent.freed?).map fun x => (s.objs x).requestId

def insertAll (base ids : List RequestId) : List RequestId :=
  ids.foldl (fun ids reqId => ids.insert reqId) base

namespace SchedulerOutput

/-- What the worker knows after the output. -/
def updateKnown (out : SchedulerOutput) (known : List RequestId) : List RequestId :=
  (known.filter fun reqId => reqId ∉ out.finishedReqIds) ∪
    out.scheduledNewReqs.map NewRequestData.reqId

end SchedulerOutput

/-- What the worker knows after a run. -/
def knownRequests (history : List (SchedulerStep W)) : List RequestId :=
  history.foldl (fun known step =>
    (step.output.map fun out => out.updateKnown known).getD known) []

/-- The ids that were freed since the last output. -/
def unreported (history : List (SchedulerStep W)) : List RequestId :=
  history.foldl (fun ids step =>
    insertAll (if step.output.isSome then [] else ids) (freedIds step.after)) []

/-- The worker got the request, and is not told to forget it. -/
def RequestStatus.Given (status : RequestStatus) : Prop := status = .running ∨ status = .preempted

/-- The worker can follow the output. -/
structure KeepsUp (known unreported : List RequestId) (out : SchedulerOutput) : Prop where
  finished : out.finishedReqIds = unreported
  cached : ∀ reqId ∈ out.scheduledCachedReqs.reqIds, reqId ∈ known ∧ reqId ∉ out.finishedReqIds
  preempted : ∀ reqId ∈ out.preemptedReqIds, reqId ∈ known ∧ reqId ∉ out.finishedReqIds

/-- The worker and the scheduler agree. -/
structure WorkerAgrees (known unreported : List RequestId) (s : SchedulerState W) : Prop where
  finished : s.finishedReqIds = unreported
  given : ∀ reqId x, s.requests.get? reqId = some x → (s.objs x).status.Given →
    reqId ∈ known ∧ reqId ∉ unreported
  forgets : ∀ reqId ∈ known, (∃ x, s.requests.get? reqId = some x) ∨ reqId ∈ unreported

theorem mem_insertAll {base ids : List RequestId} {reqId : RequestId} :
    reqId ∈ insertAll base ids ↔ reqId ∈ base ∨ reqId ∈ ids := by
  unfold insertAll
  induction ids generalizing base with
  | nil => simp
  | cons id rest ih => simp [ih, or_assoc, or_left_comm]

theorem insertAll_append (base ids ids' : List RequestId) :
    insertAll base (ids ++ ids') = insertAll (insertAll base ids) ids' :=
  List.foldl_append

theorem knownRequests_append (history : List (SchedulerStep W)) (step : SchedulerStep W) :
    knownRequests (history ++ [step]) = (step.output.map fun out =>
      out.updateKnown (knownRequests history)).getD (knownRequests history) := by
  unfold knownRequests
  rw [List.foldl_append]
  rfl

theorem unreported_append (history : List (SchedulerStep W)) (step : SchedulerStep W) :
    unreported (history ++ [step]) =
      insertAll (if step.output.isSome then [] else unreported history) (freedIds step.after) := by
  unfold unreported
  rw [List.foldl_append]
  rfl

theorem RequestStatus.Given.unfinished {status : RequestStatus} (h : status.Given) :
    status.isFinished = false := by
  rcases h with rfl | rfl
  · rfl
  · rfl

instance (status : RequestStatus) : Decidable status.Given :=
  inferInstanceAs (Decidable (_ ∨ _))

namespace Scheduler

variable {self : Scheduler W}

/-! ## 2. The operations that free -/

section
variable {s s' s'' : SchedulerState W}

/-- The ids that are freed are reported and no longer registered; nothing starts to run. -/
structure Retires (s s' : SchedulerState W) : Prop where
  requestId : ∀ x, (s'.objs x).requestId = (s.objs x).requestId
  given : ∀ x, (s'.objs x).status.Given → (s.objs x).status.Given
  retired : ∃ ids, freedIds s' = freedIds s ++ ids ∧
    s'.finishedReqIds = insertAll s.finishedReqIds ids ∧
    ∀ reqId, s'.requests.get? reqId = if reqId ∈ ids then none else s.requests.get? reqId

namespace Retires

theorem trans (h : Retires s s') (h' : Retires s' s'') : Retires s s'' where
  requestId x := (h'.requestId x).trans (h.requestId x)
  given x hx := h.given x (h'.given x hx)
  retired := by
    obtain ⟨ids, hfreed, hfinished, hrequests⟩ := h.retired
    obtain ⟨ids', hfreed', hfinished', hrequests'⟩ := h'.retired
    refine ⟨ids ++ ids', ?_, ?_, ?_⟩
    · rw [hfreed', hfreed, List.append_assoc]
    · rw [hfinished', hfinished, insertAll_append]
    · intro reqId
      rw [hrequests', hrequests]
      simp only [List.mem_append]
      split_ifs <;> simp_all

/-- Nothing is freed. -/
theorem of_same (hid : ∀ x, (s'.objs x).requestId = (s.objs x).requestId)
    (hgiven : ∀ x, (s'.objs x).status.Given → (s.objs x).status.Given)
    (htrace : s'.trace.filterMap SchedulerEvent.freed? = s.trace.filterMap SchedulerEvent.freed?)
    (hfinished : s'.finishedReqIds = s.finishedReqIds) (hrequests : s'.requests = s.requests) :
    Retires s s' where
  requestId := hid
  given := hgiven
  retired := by
    refine ⟨[], ?_, hfinished, fun reqId => by simp [hrequests]⟩
    simp [freedIds, htrace, hid]

theorem refl (s : SchedulerState W) : Retires s s :=
  of_same (fun _ => rfl) (fun _ h => h) rfl rfl rfl

theorem of_chain {S : Type} {Step : S → S → Prop} (state : S → SchedulerState W)
    (hstep : ∀ p p', Step p p' → Retires (state p) (state p')) {p p' : S}
    (chain : Relation.ReflTransGen Step p p') : Retires (state p) (state p') :=
  invariant_of_chain (I := fun p' => Retires (state p) (state p'))
    (fun p₁ p₂ hlast hbefore => hbefore.trans (hstep p₁ p₂ hlast)) chain (refl _)

/-- A request is freed at once. -/
theorem of_afterFree {request : Ref} {w : W} {delayed : Bool} (hdelayed : delayed = false)
    (hid : ∀ x, (s'.objs x).requestId = (s.objs x).requestId)
    (hgiven : ∀ x, (s'.objs x).status.Given → (s.objs x).status.Given)
    (htrace : s'.trace = s.trace) (hfinished : s'.finishedReqIds = s.finishedReqIds)
    (hrequests : s'.requests = s.requests) :
    Retires s (afterFree s' request w delayed) where
  requestId := hid
  given := hgiven
  retired := by
    subst hdelayed
    refine ⟨[(s.objs request).requestId], ?_, ?_, ?_⟩
    · simp [freedIds, afterFree, htrace, hid, SchedulerEvent.freed?]
    · simp [afterFree, insertAll, hfinished, hid]
    · intro reqId
      simp [afterFree, Dict.get?_erase, hrequests, hid]

end Retires

theorem given_updateRequest {request : Ref} {f : Request → Request} (hobjs : s'.objs = s.objs)
    (hgiven : (f (s.objs request)).status.Given → (s.objs request).status.Given)
    (x : Ref) (hx : ((s'.updateRequest request f).objs x).status.Given) :
    (s.objs x).status.Given := by
  rw [SchedulerState.objs_updateRequest, hobjs] at hx
  split at hx
  · rename_i heq
    rw [heq]
    exact hgiven hx
  · exact hx

/-- No registered request waits for remote KVs. -/
def NoneRemote (s : SchedulerState W) : Prop :=
  ∀ reqId x, s.requests.get? reqId = some x → (s.objs x).status ≠ .waitingForRemoteKvs

theorem FinishEffect.noneRemote {finishedStatus : RequestStatus} {valid : List Ref}
    (h : self.FinishEffect finishedStatus valid s s') (hs : NoneRemote s) : NoneRemote s' := by
  cases h with
  | @finish request delayed w finishedRecving failedRecving hvalid hregistered hunfinished hfinished
      hdelayed =>
    intro reqId x hget
    have hbefore : s.requests.get? reqId = some x := by
      cases delayed with
      | true => exact hget
      | false =>
        simp only [afterFree, Bool.false_eq_true, if_false, Dict.get?_erase] at hget
        split at hget
        · cases hget
        · exact hget
    dsimp only [afterFree]
    rw [SchedulerState.objs_updateRequest]
    split
    · rintro rfl
      cases hfinished
    · exact hs reqId x hbefore

theorem FinishEffect.retires (hconnector : self.hasConnector = false)
    {finishedStatus : RequestStatus} {valid : List Ref}
    (h : self.FinishEffect finishedStatus valid s s') (hs : NoneRemote s) : Retires s s' := by
  have hid := fun x => (RequestChanges.livesOn (h.changes x)).requestId
  cases h with
  | @finish request delayed w finishedRecving failedRecving hvalid hregistered hunfinished hfinished
      hdelayed =>
    have hnow : delayed = false := by
      cases delayed with
      | false => rfl
      | true =>
        rcases hdelayed rfl with hremote | hhas
        · exact absurd hremote (hs _ request hregistered)
        · rw [hconnector] at hhas
          cases hhas
    refine Retires.of_afterFree hnow hid (given_updateRequest rfl ?_) rfl rfl rfl
    intro hgiven
    rw [hgiven.unfinished] at hfinished
    cases hfinished

theorem OutputEffect.retires (hconnector : self.hasConnector = false) {out : SchedulerOutput}
    {mro : ModelRunnerOutput} {start : SchedulerState W} {reqId : RequestId}
    {p p' : SchedulerState W × OutputLocals} (h : self.OutputEffect out mro start reqId p p') :
    Retires p.1 p'.1 := by
  have hid := fun x => (RequestChanges.livesOn (h.changes x)).requestId
  cases h with
  | touch s acc w => exact Retires.of_same hid (fun _ h => h) rfl rfl rfl
  | report s acc request outputs hscheduled hunfinished =>
    exact Retires.of_same hid (given_updateRequest rfl id) rfl rfl rfl
  | deliver w hanswered =>
    obtain ⟨generated, _, hdelivered⟩ := hanswered.delivered
    refine Retires.of_same hid ?_ rfl rfl rfl
    dsimp only
    apply given_updateRequest
    · rfl
    · rw [hdelivered.same.2 rfl]
      exact id
  | @finish s acc request r r' delayed w w' hanswered hends hdelayed =>
    obtain ⟨generated, _, hdelivered⟩ := hanswered.delivered
    have hnow : delayed = false := by
      cases delayed with
      | false => rfl
      | true =>
        have hhas := hdelayed rfl
        rw [hconnector] at hhas
        cases hhas
    have hfinished : r'.isFinished = true := by
      rcases hends with ⟨_, rfl⟩ | ⟨rest, _, rfl⟩
      · exact hdelivered.finished rfl
      · exact hdelivered.finished rfl
    refine Retires.of_afterFree hnow hid (given_updateRequest rfl ?_) rfl rfl rfl
    intro hgiven
    rw [Request.isFinished, hgiven.unfinished] at hfinished
    cases hfinished
  | idle w hanswered hresumable hempty =>
    refine Retires.of_same hid ?_ rfl rfl rfl
    dsimp only
    apply given_updateRequest
    · rfl
    · simp [idled, RequestStatus.Given]
  | proceed w hanswered hcontinues =>
    obtain ⟨_, update, rest, _, _, rfl⟩ := hcontinues
    refine Retires.of_same hid ?_ rfl rfl rfl
    dsimp only
    apply given_updateRequest
    · rfl
    · simp [continueSession, RequestStatus.Given]

theorem ResetEffect.retires (h : self.ResetEffect s s') : Retires s s' := by
  have hid := h.sameRegistry.requestId
  cases h with
  | @preempt victim rest w hvictim hstatus =>
    refine Retires.of_same hid ?_ ?_ rfl rfl
    · intro x hx
      by_cases hvictim : x = victim
      · rw [hvictim]
        exact Or.inl hstatus
      · rw [SchedulerState.objs_updateRequest_of_ne _ _ hvictim, afterPreempt,
          SchedulerState.objs_updateRequest_of_ne _ _ hvictim] at hx
        exact hx
    · change (s.trace ++ [SchedulerEvent.preempted victim]).filterMap SchedulerEvent.freed? = _
      simp [SchedulerEvent.freed?]

/-- A pause for a tool call. -/
theorem retires_afterPause (s : SchedulerState W) (reqId : RequestId)
    (reading : EdmmSchedulerHook.PauseReading) (request : Ref) :
    Retires s (afterPause s reqId reading request) := by
  refine Retires.of_same ?_ (given_updateRequest rfl ?_) rfl rfl rfl
  · intro x
    unfold afterPause
    rw [SchedulerState.objs_updateRequest]
    split
    · rename_i hx
      rw [hx]
      rfl
    · rfl
  · simp [toolPaused, RequestStatus.Given]

theorem FinishedBy.retires (hconnector : self.hasConnector = false)
    {requestIds : Option (List RequestId)} {finishedStatus : RequestStatus}
    (h : self.FinishedBy requestIds finishedStatus s s') (hs : NoneRemote s) :
    Retires s s' := by
  have hfirst : Retires s (self.removeFromQueues (validRequests s requestIds) s) :=
    Retires.of_same (fun _ => rfl) (fun _ h => h) rfl rfl rfl
  have hrest : NoneRemote s' ∧
      Retires (self.removeFromQueues (validRequests s requestIds) s) s' :=
    invariant_of_chain (I := fun s' => NoneRemote s' ∧
        Retires (self.removeFromQueues (validRequests s requestIds) s) s')
      (fun _ _ heffect hbefore => ⟨heffect.noneRemote hbefore.1,
        hbefore.2.trans (heffect.retires hconnector hbefore.1)⟩)
      h.effects ⟨hs, Retires.refl _⟩
  exact hfirst.trans hrest.2

/-- **Step lemma.**  Every operation but `schedule()` and the registration of a request. -/
theorem OperationEffect.retires (hconnector : self.hasConnector = false) {op : SchedulerOp W}
    {out : Option SchedulerOutput} (h : self.OperationEffect s op out s')
    (hlocal : WithoutKvOutput op) (hs : NoneRemote s) :
    Retires s s' ∨ (op = .schedule ∧ out.isSome = true) ∨
      ∃ params request w, Request.init self.externals.blockHasher params = .ok request ∧
        s.requests.get? request.requestId = none ∧
        s' = self.afterRegister s (sessionStarted request) w := by
  cases h with
  | @register params request w hinit habsent =>
    exact Or.inr (Or.inr ⟨params, request, w, hinit, habsent, rfl⟩)
  | @session _ _ existing _ hinit hexisting heffect =>
    left
    have hid := fun x => (RequestChanges.livesOn (heffect.changes x)).requestId
    cases heffect with
    | append hstatus => exact Retires.of_same hid (given_updateRequest rfl id) rfl rfl rfl
    | proceed hstatus hprompt =>
      refine Retires.of_same hid ?_ rfl rfl rfl
      apply given_updateRequest
      · rfl
      · simp [continueSession, RequestStatus.Given]
    | endSession hstatus hfinished => exact hfinished.retires hconnector hs
  | schedule hscheduled => exact Or.inr (Or.inl ⟨rfl, rfl⟩)
  | @updateFromOutput out mro start done s' acc hupdated =>
    left
    obtain ⟨rfl, rfl⟩ := hupdated.withoutConnector hlocal
    have houtputs : Retires start done :=
      Retires.of_chain (fun p : SchedulerState W × OutputLocals => p.1)
        (fun p p' heffect => heffect.elim fun _ h => h.retires hconnector) hupdated.outputs
    exact houtputs.trans (Retires.of_same (fun _ => rfl) (fun _ h => h) rfl rfl rfl)
  | finishRequests hfinished => exact Or.inl (hfinished.retires hconnector hs)
  | updateDraftTokenIds objs hobjs =>
    left
    refine Retires.of_same ?_ ?_ rfl rfl rfl
    · intro x
      obtain ⟨specTokenIds, hx⟩ := hobjs x
      dsimp only
      rw [hx]
    · intro x hgiven
      obtain ⟨specTokenIds, hx⟩ := hobjs x
      dsimp only at hgiven
      rwa [hx] at hgiven
  | resetPrefixCache previous w hreset hprevious =>
    left
    have hpreempted := Retires.of_chain (fun s => s) (fun _ _ heffect => heffect.retires) hreset
    exact hpreempted.trans (Retires.of_same (fun _ => rfl) (fun _ h => h) rfl rfl rfl)
  | pauseInPlace hpausable => exact Or.inl (retires_afterPause s _ _ _)
  | holdForToolCall hpausable =>
    left
    exact (retires_afterPause s _ _ _).trans
      (Retires.of_same (fun _ => rfl) (fun _ h => h) rfl rfl rfl)
  | setPauseState | pauseInPlaceIgnored | holdForToolCallIgnored | submitToolResponse
  | recordSpeculativeHandle | environment =>
    exact Or.inl (Retires.of_same (fun _ => rfl) (fun _ h => h) rfl rfl rfl)

variable {known pending : List RequestId}

/-- The worker hears nothing of it. -/
theorem agrees_retire (h : WorkerAgrees known pending s) (htrace : s.trace = [])
    (hretires : Retires s s') :
    WorkerAgrees known (insertAll pending (freedIds s')) s' := by
  obtain ⟨ids, hfreed, hfinished, hrequests⟩ := hretires.retired
  have hids : freedIds s' = ids := by
    rw [hfreed]
    simp [freedIds, htrace]
  rw [hids]
  constructor
  · rw [hfinished, h.finished]
  · intro reqId x hget hgiven
    rw [hrequests] at hget
    split at hget
    · cases hget
    · rename_i hkept
      obtain ⟨hknown, hnot⟩ := h.given reqId x hget (hretires.given x hgiven)
      refine ⟨hknown, ?_⟩
      rw [mem_insertAll]
      exact fun hmem => hmem.elim hnot hkept
  · intro reqId hknown
    rw [mem_insertAll, hrequests]
    rcases h.forgets reqId hknown with hregistered | hreported
    · by_cases hmem : reqId ∈ ids
      · exact Or.inr (Or.inr hmem)
      · rw [if_neg hmem]
        exact Or.inl hregistered
    · exact Or.inr (Or.inl hreported)

/-- A request that is added is not known, and does not run. -/
theorem agrees_register (h : WorkerAgrees known pending s) (htrace : s.trace = [])
    (hok : RegistryOk s) {params : RequestParams} {request : Request} (w : W)
    (hinit : Request.init self.externals.blockHasher params = .ok request) :
    WorkerAgrees known (insertAll pending
      (freedIds (self.afterRegister s (sessionStarted request) w)))
      (self.afterRegister s (sessionStarted request) w) := by
  have hnone : freedIds (self.afterRegister s (sessionStarted request) w) = [] := by
    simp [freedIds, afterRegister, htrace, SchedulerEvent.freed?]
  rw [hnone]
  constructor
  · exact h.finished
  · intro reqId x hget hgiven
    have hget' : (s.requests.set (sessionStarted request).requestId s.nextRef).get? reqId =
        some x := hget
    rw [Dict.get?_set] at hget'
    split at hget'
    · -- the new one
      cases hget'
      have hnew : (self.afterRegister s (sessionStarted request) w).objs s.nextRef =
          sessionStarted request := Function.update_self ..
      rw [hnew] at hgiven
      have hfresh := (Request.fresh_init hinit).status
      have hstatus : (sessionStarted request).status = request.status := by
        unfold sessionStarted
        split <;> rfl
      rw [hstatus] at hgiven
      rcases hfresh with hfresh | hfresh
      · rw [hfresh] at hgiven
        exact absurd hgiven (by decide)
      · rw [hfresh] at hgiven
        exact absurd hgiven (by decide)
    · have hold : (self.afterRegister s (sessionStarted request) w).objs x = s.objs x :=
        Function.update_of_ne (hok.known hget').ne _ _
      rw [hold] at hgiven
      exact h.given reqId x hget' hgiven
  · intro reqId hknown
    rcases h.forgets reqId hknown with ⟨x, hx⟩ | hreported
    · left
      change ∃ x, (s.requests.set (sessionStarted request).requestId s.nextRef).get? reqId = some x
      rw [Dict.get?_set]
      split
      · exact ⟨_, rfl⟩
      · exact ⟨x, hx⟩
    · exact Or.inr hreported

end

/-! ## 3. What `schedule()` reports -/

theorem makeSchedulerOutput_reports (s : SchedulerState W) (l : StepLocals) :
    wp (self.makeSchedulerOutput l)
      (fun out _ => out.finishedReqIds = s.finishedReqIds ∧
        out.preemptedReqIds = (l.preemptedReqs.map fun x => (s.objs x).requestId).dedup)
      (fun _ _ => True) s := by
  have hzero : TouchesWorld
      (if self.needsKvCacheZeroing then do
        let blockIds ← callWorld self.externals.takeNewBlockIds
        pure (if blockIds = [] then none else some blockIds)
      else pure none : SchedM W (Option (List Nat))) fun _ => True := by
    split
    · apply TouchesWorld.bind (TouchesWorld.callWorld (Q := fun _ => True) _ fun _ => trivial)
      exact fun _ _ => TouchesWorld.pure trivial
    · exact TouchesWorld.pure trivial
  unfold makeSchedulerOutput
  rw [wp_bind, wp_get, wp_bind]
  apply wp_mono (self.newRequestsData_wp s l _ []) _ (fun _ _ _ => trivial)
  rintro newReqsData s' ⟨rfl, _⟩
  rw [wp_bind]
  apply wp_mono (self.makeCachedRequestData_wp s' l _ _) _ (fun _ _ _ => trivial)
  rintro cachedReqsData s'' ⟨rfl, _⟩
  rw [wp_bind, wp_modify, wp_bind]
  apply wp_mono (hzero _) _ (fun _ _ _ => trivial)
  intro newBlockIdsToZero s₁ _
  rw [wp_bind, wp_callWorld, wp_pure]
  exact ⟨rfl, rfl⟩

/-- What is left to do after the WAITING loop reports what was finished and preempted. -/
theorem finishSchedule_reports (s : SchedulerState W) (l : StepLocals) :
    wp (do
        self.checkConstraints l
        let out ← self.makeSchedulerOutput l
        onlyIf (self.hasConnector = true)
          (onWorld fun w => self.externals.buildConnectorMeta w out)
        onlyIf (self.hasEcConnector = true)
          (onWorld fun w => self.externals.ecBuildConnectorMeta w out)
        updateAfterSchedule out)
      (fun out s' => out.finishedReqIds = s.finishedReqIds ∧ s'.finishedReqIds = [] ∧
        out.preemptedReqIds = (l.preemptedReqs.map fun x => (s.objs x).requestId).dedup ∧
        ∀ x, (s'.objs x).status = (s.objs x).status)
      (fun _ _ => True) s := by
  rw [wp_bind]
  apply wp_mono (self.checkConstraints_wp s l) _ (fun _ _ _ => trivial)
  rintro _ s' rfl
  rw [wp_bind]
  apply wp_mono (wp_and (self.makeSchedulerOutput_wp s' l) (makeSchedulerOutput_reports s' l)) _
    (fun _ _ _ => trivial)
  rintro out s'' ⟨⟨_, w, rfl⟩, hfinished, hpreempted⟩
  apply wp_buildMeta
  intro w'
  apply wp_mono (updateAfterSchedule_wp _ out) _ (fun _ _ _ => trivial)
  rintro out' s₃ ⟨⟨flag, rfl⟩, s₄, hadvanced, rfl⟩
  obtain ⟨_, hobjs⟩ := hadvanced.unchanged
  refine ⟨hfinished, rfl, hpreempted, ?_⟩
  intro x
  obtain ⟨computed, chunk, hx⟩ := hobjs x
  dsimp only at hx ⊢
  rw [hx]

/-- The RUNNING loop runs over `running`, and every preemption is listed. -/
structure InRunning (s : SchedulerState W) (p : Frame W) : Prop where
  running : ∀ x ∈ p.1.running, x ∈ s.running
  listed : ∀ x, x ∈ p.2.scheduledRunningReqs ∨ x ∈ p.2.preemptedReqs → x ∈ s.running
  noNew : p.2.scheduledNewReqs = []
  noResumed : p.2.scheduledResumedReqs = []
  status : ∀ x, (p.1.objs x).status =
    if x ∈ p.2.preemptedReqs then .preempted else (s.objs x).status

theorem inRunning_start (s : SchedulerState W) : InRunning s (s, self.startLocals s) where
  running _ hx := hx
  listed x hx := by rcases hx with hx | hx <;> cases hx
  noNew := rfl
  noResumed := rfl
  status _ := rfl

theorem RunningEffect.inRunning {s : SchedulerState W} {p p' : Frame W}
    (h : self.RunningEffect p p') (hp : InRunning s p) : InRunning s p' := by
  cases h with
  | touch s₁ l w => exact ⟨hp.running, hp.listed, hp.noNew, hp.noResumed, hp.status⟩
  | pass s₁ l reqIndex scheduledLoras =>
    exact ⟨hp.running, hp.listed, hp.noNew, hp.noResumed, hp.status⟩
  | @preempt s₁ l l' victim rest w hvictim hstatus hlocals =>
    have hin : victim ∈ s.running := hp.running victim (hvictim.mem_iff.mpr List.mem_cons_self)
    have hl' : l'.preemptedReqs = l.preemptedReqs ∧ l'.scheduledNewReqs = l.scheduledNewReqs ∧
        l'.scheduledResumedReqs = l.scheduledResumedReqs ∧
        ∀ x ∈ l'.scheduledRunningReqs, x ∈ l.scheduledRunningReqs := by
      rcases hlocals with rfl | ⟨numTokens, rfl⟩
      · exact ⟨rfl, rfl, rfl, fun _ hx => hx⟩
      · exact ⟨rfl, rfl, rfl, fun _ hx => List.mem_of_mem_erase hx⟩
    obtain ⟨hpreempted, hnew, hresumed, hsubset⟩ := hl'
    constructor
    · intro x hx
      exact hp.running x (hvictim.mem_iff.mpr (List.mem_cons_of_mem _ hx))
    · intro x hx
      dsimp only at hx
      rw [List.mem_append, List.mem_singleton, hpreempted] at hx
      rcases hx with hx | hx | rfl
      · exact hp.listed x (Or.inl (hsubset x hx))
      · exact hp.listed x (Or.inr hx)
      · exact hin
    · exact hnew.trans hp.noNew
    · exact hresumed.trans hp.noResumed
    · intro x
      have hbefore := hp.status x
      dsimp only at hbefore ⊢
      rw [afterPreempt, SchedulerState.objs_updateRequest, hpreempted]
      by_cases hx : x = victim
      · simp [hx, preempted]
      · simp only [List.mem_append, List.mem_singleton, hx, or_false]
        exact hbefore
  | @schedule s₁ l l' request numNewTokens newBlocks w hrunning hsome hbound hlocals =>
    obtain ⟨inputs, budget, rfl⟩ := hlocals
    constructor
    · exact hp.running
    · intro x hx
      change x ∈ l.scheduledRunningReqs ++ [request] ∨ x ∈ l.preemptedReqs at hx
      rw [List.mem_append, List.mem_singleton] at hx
      rcases hx with (hx | rfl) | hx
      · exact hp.listed x (Or.inl hx)
      · exact hp.running x hrunning
      · exact hp.listed x (Or.inr hx)
    · exact hp.noNew
    · exact hp.noResumed
    · intro x
      refine Eq.trans ?_ (hp.status x)
      dsimp only
      rw [SchedulerState.objs_updateRequest]
      split
      · rename_i hx
        rw [hx]
        rfl
      · rfl

theorem RunningEffect.finishedReqIds {p p' : Frame W} (h : self.RunningEffect p p') :
    p'.1.finishedReqIds = p.1.finishedReqIds := by
  cases h <;> rfl

theorem WaitingEffect.finishedReqIds {p p' : Frame W} (h : self.WaitingEffect p p') :
    p'.1.finishedReqIds = p.1.finishedReqIds := by
  have hpop : ∀ which (s : SchedulerState W),
      (self.popRequest which s).finishedReqIds = s.finishedReqIds := by
    intro which s
    cases which <;> rfl
  cases h with
  | touch | examine | lookup => rfl
  | promote l hhead hpromotion => cases hpromotion <;> rfl
  | skip l hhead => exact hpop _ _
  | load objs numComputedTokens hhead hconnector hunblocked hcomputed => exact hpop _ _
  | admitWaiting blocks w hhead hstatus hcomputed hsome hbound hlocals => exact hpop _ _

/-- **What `schedule()` reports**: the ids that were freed before, and the requests that it
    preempts, which stay preempted. -/
theorem schedule_reports (s : SchedulerState W) :
    wp self.schedule
      (fun out s' => out.finishedReqIds = s.finishedReqIds ∧ s'.finishedReqIds = [] ∧
        ∀ reqId ∈ out.preemptedReqIds, ∃ x ∈ s.running, (s.objs x).requestId = reqId ∧
          (s'.objs x).status = .preempted)
      (fun _ _ => True) s := by
  have hfirst : self.RunningEffects (s, self.startLocals s)
      ({ s with world := self.externals.newStepStarts s.world }, self.startLocals s) :=
    Relation.ReflTransGen.single (RunningEffect.touch s (self.startLocals s) _)
  unfold schedule
  rw [wp_bind, wp_get, wp_bind, wp_onWorld, wp_bind]
  apply wp_mono (self.runningLoop_effects s.running.length _ (self.startLocals s)) _
    (fun _ _ _ => trivial)
  intro l₁ s₁ heffects
  have hrunning : self.RunningEffects (s, self.startLocals s) (s₁, l₁) := hfirst.trans heffects
  have hin : InRunning s (s₁, l₁) :=
    invariant_of_chain (fun _ _ heffect hp => heffect.inRunning hp) hrunning (inRunning_start s)
  obtain ⟨hfinished, hskipped, hsame⟩ : s₁.finishedReqIds = s.finishedReqIds ∧
      l₁.stepSkippedWaiting = [] ∧ SameRegistry s s₁ :=
    invariant_of_chain (I := fun p : Frame W => p.1.finishedReqIds = s.finishedReqIds ∧
        p.2.stepSkippedWaiting = [] ∧ SameRegistry s p.1)
      (fun _ _ heffect hp => ⟨heffect.finishedReqIds.trans hp.1,
        heffect.unchanged.2.trans hp.2.1, hp.2.2.trans heffect.sameRegistry.1⟩)
      hrunning ⟨rfl, rfl, SameRegistry.refl s⟩
  rw [wp_bind]
  apply wp_mono (self.recordScheduledLoras_wp s₁ l₁) _ (fun _ _ _ => trivial)
  rintro _ s₂ ⟨rfl, loras, rfl⟩
  rw [wp_bind]
  apply wp_mono (self.scheduleWaiting_effects s₂ { l₁ with scheduledLoras := loras } hskipped) _
    (fun _ _ _ => trivial)
  rintro l₃ s₃ ⟨s₄, hwaiting, hstayed, rfl⟩
  obtain ⟨hfinished', hpreempted, hsame'⟩ : s₄.finishedReqIds = s₂.finishedReqIds ∧
      l₃.preemptedReqs = l₁.preemptedReqs ∧ SameRegistry s₂ s₄ :=
    invariant_of_chain (I := fun p : Frame W => p.1.finishedReqIds = s₂.finishedReqIds ∧
        p.2.preemptedReqs = l₁.preemptedReqs ∧ SameRegistry s₂ p.1)
      (fun _ _ heffect hp => ⟨heffect.finishedReqIds.trans hp.1,
        heffect.locals_cases.1.trans hp.2.1, hp.2.2.trans heffect.sameRegistry⟩)
      hwaiting ⟨rfl, rfl, SameRegistry.refl s₂⟩
  apply wp_mono (finishSchedule_reports _ l₃) _ (fun _ _ _ => trivial)
  rintro out s' ⟨hout, hreported, hids, hstatus⟩
  refine ⟨hout.trans (hfinished'.trans hfinished), hreported, ?_⟩
  intro reqId hmem
  rw [hids, hpreempted, List.mem_dedup] at hmem
  obtain ⟨x, hx, rfl⟩ := List.mem_map.mp hmem
  refine ⟨x, hin.listed x (Or.inr hx), ?_, ?_⟩
  · exact ((hsame.trans hsame').requestId x).symm
  · have hnone : l₁.preemptedReqs ≠ [] := List.ne_nil_of_mem hx
    obtain ⟨_, rfl⟩ := hstayed (Or.inl hnone)
    rw [hstatus]
    have hlast := hin.status x
    dsimp only at hlast
    rw [if_pos hx] at hlast
    exact hlast

/-! ## 4. What `schedule()` presents as new and as cached -/

/-- The requests that the output presents as new. -/
def presentedNew (self : Scheduler W) (l : StepLocals) : List Ref :=
  if self.useV2ModelRunner then l.scheduledNewReqs ++ l.scheduledResumedReqs else l.scheduledNewReqs

/-- The requests that the output presents as known. -/
def presentedCached (self : Scheduler W) (l : StepLocals) : List Ref :=
  l.scheduledRunningReqs ++ if self.useV2ModelRunner then [] else l.scheduledResumedReqs

theorem mem_presentedNew {l : StepLocals} {x : Ref} : x ∈ self.presentedNew l ↔
    x ∈ l.scheduledNewReqs ∨ (self.useV2ModelRunner = true ∧ x ∈ l.scheduledResumedReqs) := by
  unfold presentedNew
  cases self.useV2ModelRunner <;> simp

theorem mem_presentedCached {l : StepLocals} {x : Ref} : x ∈ self.presentedCached l ↔
    x ∈ l.scheduledRunningReqs ∨ (self.useV2ModelRunner = false ∧ x ∈ l.scheduledResumedReqs) := by
  unfold presentedCached
  cases self.useV2ModelRunner <;> simp

/-- Within `schedule()`, called in `s`: whoever runs was given to the worker before, or it
    is presented as new; only requests that were given before are presented as known. -/
structure Presents (scheduler : Scheduler W) (s : SchedulerState W) (p : Frame W) : Prop where
  held : ∀ x, x ∈ heldQueues p.1 p.2.stepSkippedWaiting → x ∈ heldQueues s []
  given : ∀ x, (p.1.objs x).status.Given →
    (s.objs x).status.Given ∨ x ∈ scheduler.presentedNew p.2
  new : ∀ x ∈ scheduler.presentedNew p.2, x ∈ heldQueues s [] ∧ (p.1.objs x).status = .running
  cached : ∀ x ∈ scheduler.presentedCached p.2,
    x ∈ heldQueues s [] ∧ (s.objs x).status.Given

theorem InRunning.presents {s : SchedulerState W} {p : Frame W} (hp : InRunning s p)
    (hperm : (heldQueues p.1 p.2.stepSkippedWaiting).Perm (heldQueues s []))
    (hs : ∀ x ∈ s.running, (s.objs x).status = .running) : Presents self s p where
  held _ hx := hperm.mem_iff.mp hx
  given x hx := by
    left
    rw [hp.status x] at hx
    split at hx
    · rename_i hpreempted
      exact Or.inl (hs x (hp.listed x (Or.inr hpreempted)))
    · exact hx
  new x hx := by
    rw [mem_presentedNew, hp.noNew, hp.noResumed] at hx
    rcases hx with hx | ⟨_, hx⟩
    · cases hx
    · cases hx
  cached x hx := by
    rw [mem_presentedCached, hp.noResumed] at hx
    rcases hx with hx | ⟨_, hx⟩
    · have hin := hp.listed x (Or.inl hx)
      exact ⟨mem_heldQueues.mpr (Or.inl hin), Or.inl (hs x hin)⟩
    · cases hx

/-- **Step lemma** of the WAITING loop: what it admits is new to the worker, or resumed. -/
theorem WaitingEffect.presents (hconnector : self.hasConnector = false) {s : SchedulerState W}
    {p p' : Frame W} (h : self.WaitingEffect p p') (hp : Presents self s p) :
    Presents self s p' := by
  have hheld : ∀ x, x ∈ heldQueues p'.1 p'.2.stepSkippedWaiting → x ∈ heldQueues s [] :=
    fun x hx => hp.held x (h.perm.mem_iff.mp hx)
  -- one that is not admitted now stays as it is, or it was not given to the worker
  have hsame : p'.2.scheduledNewReqs = p.2.scheduledNewReqs →
      p'.2.scheduledRunningReqs = p.2.scheduledRunningReqs →
      p'.2.scheduledResumedReqs = p.2.scheduledResumedReqs →
      (∀ x, p'.1.objs x = p.1.objs x ∨ (¬ (p'.1.objs x).status.Given ∧
        (p.1.objs x).status ≠ .running)) → Presents self s p' := by
    intro hnew hrunning hresumed hobjs
    have hpresentedNew : self.presentedNew p'.2 = self.presentedNew p.2 := by
      unfold presentedNew
      rw [hnew, hresumed]
    have hpresentedCached : self.presentedCached p'.2 = self.presentedCached p.2 := by
      unfold presentedCached
      rw [hrunning, hresumed]
    constructor
    · exact hheld
    · intro x hx
      rw [hpresentedNew]
      rcases hobjs x with hx' | ⟨hforgotten, _⟩
      · rw [hx'] at hx
        exact hp.given x hx
      · exact absurd hx hforgotten
    · intro x hx
      rw [hpresentedNew] at hx
      obtain ⟨hin, hstatus⟩ := hp.new x hx
      refine ⟨hin, ?_⟩
      rcases hobjs x with hx' | ⟨_, hother⟩
      · rw [hx']
        exact hstatus
      · exact absurd hstatus hother
    · intro x hx
      rw [hpresentedCached] at hx
      exact hp.cached x hx
  cases h with
  | touch s₁ l w => exact hsame rfl rfl rfl fun _ => Or.inl rfl
  | examine l hhead => exact hsame rfl rfl rfl fun _ => Or.inl rfl
  | lookup l w hcomputed => exact hsame rfl rfl rfl fun _ => Or.inl rfl
  | @promote s₁ s₂ which request l hhead hpromotion =>
    apply hsame rfl rfl rfl
    intro x
    by_cases hx : x = request
    · subst hx
      right
      cases hpromotion with
      | remoteKvs loaded w finishedRecving failedRecving hhas hstatus hloaded =>
        rw [hconnector] at hhas
        cases hhas
      | grammar hstatus =>
        rw [SchedulerState.objs_updateRequest_self]
        simp [RequestStatus.Given, hstatus]
      | toolCall hstatus henabled hhook hready =>
        rw [SchedulerState.objs_updateRequest_self]
        simp [RequestStatus.Given, hstatus]
    · exact Or.inl (hpromotion.objs_of_ne hx)
  | skip l hhead =>
    apply hsame rfl rfl rfl
    intro x
    left
    dsimp only
    rw [objs_popRequest]
  | load objs numComputedTokens hhead hhas hunblocked hcomputed =>
    rw [hconnector] at hhas
    cases hhas
  | @admitWaiting s₁ which request l l' numNewTokens numComputedTokens blocks w hhead hstatus
      hcomputed hsome hbound hlocals =>
    have hobjs : ((self.popRequest which s₁).startRunning request w).objs = s₁.objs :=
      self.objs_popRequest which s₁
    have hwaits : request ∈ heldQueues s [] := by
      apply hp.held
      exact mem_heldQueues.mpr (Or.inr (mem_waitingQueues.mpr (heldWaiting_of_head hhead)))
    have hadded := fun x => mem_addWaiting (x := x) hlocals
    have hrunning : l'.scheduledRunningReqs = l.scheduledRunningReqs := (hadded request).2.2.1
    have hmono : ∀ x, x ∈ self.presentedNew l → x ∈ self.presentedNew l' := by
      intro x hx
      rw [mem_presentedNew] at hx ⊢
      rw [(hadded x).1, (hadded x).2.1]
      exact hx.imp Or.inl (And.imp_right Or.inl)
    -- it is presented as new, or it was given before
    have hrequest : request ∈ self.presentedNew l' ∨ (s.objs request).status.Given := by
      by_cases hfresh : (s₁.objs request).status = .waiting
      · left
        rw [mem_presentedNew, (hadded request).1]
        exact Or.inl (Or.inr ⟨rfl, hfresh⟩)
      · have hgiven : (s₁.objs request).status.Given := Or.inr (hstatus.resolve_left hfresh)
        exact (hp.given request hgiven).symm.imp (hmono request) id
    constructor
    · exact hheld
    · intro x hx
      dsimp only at hx ⊢
      rw [SchedulerState.objs_updateRequest, hobjs] at hx
      split at hx
      · rename_i heq
        rw [heq]
        exact hrequest.symm
      · exact (hp.given x hx).imp id (hmono x)
    · intro x hx
      dsimp only at hx ⊢
      rw [SchedulerState.objs_updateRequest, hobjs]
      split
      · rename_i heq
        rw [heq]
        exact ⟨hwaits, rfl⟩
      · rename_i hne
        apply hp.new x
        rw [mem_presentedNew] at hx ⊢
        rw [(hadded x).1, (hadded x).2.1] at hx
        simp only [hne, false_and, or_false] at hx
        exact hx
    · intro x hx
      dsimp only at hx
      rw [mem_presentedCached, hrunning, (hadded x).2.1] at hx
      rcases hx with hx | ⟨hversion, hx | ⟨rfl, hresumed⟩⟩
      · exact hp.cached x (mem_presentedCached.mpr (Or.inl hx))
      · exact hp.cached x (mem_presentedCached.mpr (Or.inr ⟨hversion, hx⟩))
      · refine ⟨hwaits, ?_⟩
        have hpreempted : (s₁.objs x).status = .preempted := hstatus.resolve_left hresumed
        rcases hp.given x (Or.inr hpreempted) with hbefore | hnew
        · exact hbefore
        · have hrunning := (hp.new x hnew).2
          dsimp only at hrunning
          rw [hpreempted] at hrunning
          cases hrunning

theorem Scheduled.presents (hconnector : self.hasConnector = false) {s s' : SchedulerState W}
    {afterRunning afterWaiting : Frame W} {out : SchedulerOutput}
    (h : self.Scheduled s afterRunning afterWaiting out s')
    (hs : ∀ x ∈ s.running, (s.objs x).status = .running) : Presents self s afterWaiting := by
  obtain ⟨hin, hperm⟩ : InRunning s afterRunning ∧
      (heldQueues afterRunning.1 afterRunning.2.stepSkippedWaiting).Perm (heldQueues s []) :=
    invariant_of_chain (I := fun p : Frame W => InRunning s p ∧
        (heldQueues p.1 p.2.stepSkippedWaiting).Perm (heldQueues s []))
      (fun _ _ heffect hp => ⟨heffect.inRunning hp.1, heffect.perm.trans hp.2⟩)
      h.running ⟨inRunning_start s, List.Perm.refl _⟩
  exact invariant_of_chain (fun _ _ heffect hp => heffect.presents hconnector hp) h.waiting
    (hin.presents hperm hs)

/-! ## 5. One call, and runs -/

/-- A call frees nothing. -/
theorem Scheduled.freedIds {s s' : SchedulerState W} {afterRunning afterWaiting : Frame W}
    {out : SchedulerOutput} (h : self.Scheduled s afterRunning afterWaiting out s')
    (htrace : s.trace = []) : freedIds s' = [] := by
  have hnone : s'.trace.filterMap SchedulerEvent.freed? = [] := by
    rw [List.filterMap_eq_nil_iff]
    intro event hevent
    cases event with
    | freed x =>
      have hbefore := h.unfreed.trace x hevent
      rw [htrace] at hbefore
      cases hbefore
    | _ => rfl
  simp [Edmm.freedIds, hnone]

variable {hconnector : self.hasConnector = false} {s s' : SchedulerState W}
  {known pending : List RequestId} {out : SchedulerOutput}

/-- **Step lemma** of `schedule()`. -/
theorem agrees_schedule (h : WorkerAgrees known pending s) (hs : Conserves hconnector s)
    (htrace : s.trace = []) {afterRunning afterWaiting : Frame W}
    (hscheduled : self.Scheduled s afterRunning afterWaiting out s')
    (hout : out.finishedReqIds = s.finishedReqIds) (hreported : s'.finishedReqIds = [])
    (hpreempted : ∀ reqId ∈ out.preemptedReqIds, ∃ x ∈ s.running, (s.objs x).requestId = reqId) :
    KeepsUp known pending out ∧
      WorkerAgrees (out.updateKnown known) (insertAll [] (Edmm.freedIds s')) s' := by
  have hpresents := hscheduled.presents hconnector hs.inOrder.running
  have hsame := hscheduled.sameRegistry
  have hlast := hscheduled.final.objs
  have hstatus : ∀ x, (s'.objs x).status = (afterWaiting.1.objs x).status := by
    intro x
    obtain ⟨computed, chunk, hx⟩ := hlast x
    rw [hx]
  have hid : ∀ x, (afterWaiting.1.objs x).requestId = (s.objs x).requestId := by
    intro x
    obtain ⟨computed, chunk, hx⟩ := hlast x
    rw [← hsame.requestId, hx]
  have hknown : ∀ x, x ∈ heldQueues s [] → (s.objs x).status.Given →
      (s.objs x).requestId ∈ known ∧ (s.objs x).requestId ∉ out.finishedReqIds := by
    intro x hx hgiven
    rw [hout, h.finished]
    exact h.given _ x ((hs.registered x).mp hx) hgiven
  have hnew : ∀ reqId, reqId ∈ out.scheduledNewReqs.map NewRequestData.reqId ↔
      ∃ x ∈ self.presentedNew afterWaiting.2, (s.objs x).requestId = reqId := by
    intro reqId
    obtain ⟨hdata, hrequest⟩ := exists_of_forall₂ hscheduled.output.newReqs
    rw [List.mem_map]
    constructor
    · rintro ⟨data, hmem, rfl⟩
      obtain ⟨x, hx, blocks, rfl, _⟩ := hrequest data hmem
      exact ⟨x, hx, (hid x).symm⟩
    · rintro ⟨x, hx, rfl⟩
      obtain ⟨data, hmem, blocks, rfl, _⟩ := hdata x hx
      exact ⟨_, hmem, hid x⟩
  constructor
  · constructor
    · exact hout.trans h.finished
    · intro reqId hmem
      rw [hscheduled.output.cachedReqIds] at hmem
      obtain ⟨x, hx, rfl⟩ := List.mem_map.mp hmem
      obtain ⟨hheld, hgiven⟩ := hpresents.cached x hx
      dsimp only
      rw [hid]
      exact hknown x hheld hgiven
    · intro reqId hmem
      obtain ⟨x, hx, rfl⟩ := hpreempted reqId hmem
      exact hknown x (mem_heldQueues.mpr (Or.inl hx)) (Or.inl (hs.inOrder.running x hx))
  · rw [hscheduled.freedIds htrace]
    constructor
    · exact hreported
    · intro reqId x hget hgiven
      refine ⟨?_, List.not_mem_nil⟩
      have hcarries : (s.objs x).requestId = reqId := by
        rw [hsame.requests] at hget
        exact hs.registry.carries hget
      have hheld : x ∈ heldQueues s [] := by
        rw [hs.registered x, hcarries, ← hsame.requests]
        exact hget
      unfold SchedulerOutput.updateKnown
      rw [List.mem_union_iff, List.mem_filter, hnew]
      rw [hstatus] at hgiven
      rcases hpresents.given x hgiven with hbefore | hpresented
      · obtain ⟨hmem, hnot⟩ := hknown x hheld hbefore
        rw [hcarries] at hmem hnot
        exact Or.inl ⟨hmem, decide_eq_true hnot⟩
      · exact Or.inr ⟨x, hpresented, hcarries⟩
    · intro reqId hmem
      left
      unfold SchedulerOutput.updateKnown at hmem
      rw [List.mem_union_iff, List.mem_filter, hnew, decide_eq_true_eq] at hmem
      rw [hsame.requests]
      rcases hmem with ⟨hmem, hnot⟩ | ⟨x, hx, rfl⟩
      · rw [hout, h.finished] at hnot
        exact (h.forgets reqId hmem).resolve_right hnot
      · exact ⟨x, (hs.registered x).mp (hpresents.new x hx).1⟩

theorem Conserves.noneRemote (hs : Conserves hconnector s) : NoneRemote s := by
  intro reqId x hget hremote
  have hheld : x ∈ heldQueues s [] := by
    rw [hs.registered x, hs.registry.carries hget]
    exact hget
  rcases mem_heldQueues.mp hheld with hx | hx
  · rw [hs.inOrder.running x hx] at hremote
    cases hremote
  · rcases mem_waitingQueues.mp hx with hx | hx
    · rcases hs.inOrder.waiting x hx with hstatus | hstatus
      · rw [hstatus] at hremote
        cases hremote
      · rw [hstatus] at hremote
        cases hremote
    · exact (hs.inOrder.skipped x hx).2 hremote

/-- **Step lemma.** -/
theorem agrees_exec (h : WorkerAgrees known pending s) (hs : Conserves hconnector s)
    {op : SchedulerOp W} {output : Option SchedulerOutput}
    (hexec : op.exec self s = .ok output s') (hlocal : op.WithoutConnector) :
    (∀ out ∈ output, KeepsUp known pending out) ∧
      WorkerAgrees ((output.map fun out => out.updateKnown known).getD known)
        (insertAll (if output.isSome then [] else pending) (Edmm.freedIds s')) s' := by
  have heffect := effect_of_exec hs.registry hexec
  have hbefore : WorkerAgrees known pending (traceless s) := ⟨h.finished, h.given, h.forgets⟩
  have hnone : ∀ {op : SchedulerOp W} {output : Option SchedulerOutput} {s' : SchedulerState W},
      self.OperationEffect (traceless s) op output s' → op ≠ .schedule → output = none := by
    intro op output s' heffect hop
    cases heffect with
    | schedule hscheduled => exact absurd rfl hop
    | _ => rfl
  have hquiet : op ≠ .schedule → WorkerAgrees known (insertAll pending (Edmm.freedIds s')) s' →
      (∀ out ∈ output, KeepsUp known pending out) ∧
        WorkerAgrees ((output.map fun out => out.updateKnown known).getD known)
          (insertAll (if output.isSome then [] else pending) (Edmm.freedIds s')) s' := by
    intro hop hafter
    rw [hnone heffect hop]
    refine ⟨?_, hafter⟩
    intro out hout
    cases hout
  by_cases hop : op = .schedule
  · subst hop
    cases heffect with
    | @schedule afterRunning afterWaiting out s' hscheduled =>
      have hreports : wp (SchedulerOp.exec self .schedule)
          (fun output s' => ∀ out ∈ output, out.finishedReqIds = s.finishedReqIds ∧
            s'.finishedReqIds = [] ∧
            ∀ reqId ∈ out.preemptedReqIds, ∃ x ∈ s.running, (s.objs x).requestId = reqId)
          (fun _ _ => True) s := by
        unfold SchedulerOp.exec SchedulerOp.run
        rw [wp_bind, wp_modify, wp_bind]
        apply wp_mono_ok (schedule_reports _)
        rintro out s' ⟨hfinished, hreported, hpreempted⟩ _ ⟨⟩
        refine ⟨hfinished, hreported, ?_⟩
        intro reqId hmem
        obtain ⟨x, hx, hid, _⟩ := hpreempted reqId hmem
        exact ⟨x, hx, hid⟩
      obtain ⟨hfinished, hreported, hpreempted⟩ := wp_ok hreports hexec out rfl
      obtain ⟨hkeeps, hafter⟩ := agrees_schedule hbefore hs.traceless rfl hscheduled hfinished
        hreported hpreempted
      refine ⟨?_, hafter⟩
      intro other hother
      cases hother
      exact hkeeps
  · apply hquiet hop
    rcases heffect.retires hconnector (withoutKvOutput_of_local hlocal)
      hs.traceless.noneRemote with hretires | ⟨hschedule, _⟩ | ⟨params, request, w, hinit, _, rfl⟩
    · exact agrees_retire hbefore rfl hretires
    · exact absurd hschedule hop
    · exact agrees_register hbefore rfl hs.traceless.registry w hinit

/-- **Run lemma.** -/
theorem agrees_of_run (hconnector : self.hasConnector = false) {objs : Ref → Request}
    {edmmHook : Option EdmmSchedulerHook} {w : W} {history : List (SchedulerStep W)}
    (run : SchedulerRun self (SchedulerState.init objs edmmHook w) history s)
    (hlocal : ∀ step ∈ history, step.op.WithoutConnector)
    (hstops : ∀ step ∈ history, SchedulerStep.StopsHandled self step) :
    Conserves hconnector s ∧ WorkerAgrees (knownRequests history) (unreported history) s := by
  apply Machine.Run.invariant_of_history
    (P := fun step : SchedulerStep W => step.op.WithoutConnector ∧
      SchedulerStep.StopsHandled self step)
    (I := fun history s => Conserves hconnector s ∧
      WorkerAgrees (knownRequests history) (unreported history) s)
    _ run (fun step hstep => ⟨hlocal step hstep, hstops step hstep⟩)
  · refine ⟨conserves_init objs edmmHook w, ?_⟩
    constructor
    · rfl
    · intro reqId x hget
      cases hget
    · intro reqId hmem
      cases hmem
  · intro history s s' op output hbefore hexec hpermitted
    obtain ⟨hs, hagrees⟩ := hbefore
    have heffect := effect_of_exec hs.registry hexec
    refine ⟨heffect.conserves hpermitted.1 hpermitted.2 hs.traceless, ?_⟩
    rw [knownRequests_append, unreported_append]
    exact (agrees_exec hagrees hs hexec hpermitted.1).2

/-- **The worker can follow every output**, and what it knows is registered or about to be
    reported, in every run without a KV connector whose late stops are handled. -/
theorem workerAgrees_run {objs : Ref → Request} {edmmHook : Option EdmmSchedulerHook} {w : W}
    {history : List (SchedulerStep W)} {s : SchedulerState W}
    (hconnector : self.hasConnector = false)
    (run : SchedulerRun self (SchedulerState.init objs edmmHook w) history s)
    (hlocal : ∀ step ∈ history, step.op.WithoutConnector)
    (hstops : ∀ step ∈ history, SchedulerStep.StopsHandled self step) :
    WorkerAgrees (knownRequests history) (unreported history) s ∧
      ∀ earlier step later, history = earlier ++ step :: later → ∀ out ∈ step.output,
        KeepsUp (knownRequests earlier) (unreported earlier) out := by
  refine ⟨(agrees_of_run hconnector run hlocal hstops).2, ?_⟩
  rintro earlier step later rfl out hout
  obtain ⟨hearlier, hexec, _⟩ := run.split rfl
  have hstep : step ∈ earlier ++ step :: later :=
    List.mem_append_right _ List.mem_cons_self
  obtain ⟨hs, hagrees⟩ := agrees_of_run hconnector hearlier
    (fun step h => hlocal step (List.mem_append_left _ h))
    (fun step h => hstops step (List.mem_append_left _ h))
  exact (agrees_exec hagrees hs hexec (hlocal step hstep)).1 out hout

/-- An id is used again before the worker heard that its first request was aborted, and the
    other request is resumed. -/
theorem workerAgrees_run_reused : ∃ history s, SchedulerRun roomy start history s ∧
    (∃ step ∈ history, ∃ out ∈ step.output, out.finishedReqIds = ["b"] ∧
      out.scheduledNewReqs.map NewRequestData.reqId = ["b"] ∧
      out.scheduledCachedReqs.reqIds = ["a"]) ∧
    WorkerAgrees (knownRequests history) (unreported history) s ∧
      ∀ earlier step later, history = earlier ++ step :: later → ∀ out ∈ step.output,
        KeepsUp (knownRequests earlier) (unreported earlier) out := by
  have hplayed : ∃ p ∈ roomy.play start
      [.op (.addRequest (.text "a" [1, 2, 3] 8 false)), .op (.addRequest (.text "b" [5] 8 false)),
        .op .schedule, .deliver 0 [("a", [4]), ("b", [6])],
        .op (.finishRequests (some ["b"]) .finishedAborted),
        .op (.addRequest (.text "b" [7] 8 false)), .op (.resetPrefixCache true false),
        .op .schedule],
      (∀ step ∈ p.1, step.op.WithoutConnector) ∧
        (∀ step ∈ p.1, ∀ reqId ∈ step.before.requests.keys,
          ∀ x ∈ step.before.unfinished? reqId,
            (step.before.objs x).status = .running ∨
              (x ∈ step.before.waiting ∧ (step.before.objs x).resumable = false)) ∧
        ∃ step ∈ p.1, ∃ out ∈ step.output, out.finishedReqIds = ["b"] ∧
          out.scheduledNewReqs.map NewRequestData.reqId = ["b"] ∧
          out.scheduledCachedReqs.reqIds = ["a"] := by
    decide +kernel
  obtain ⟨⟨history, s⟩, hhistory, hlocal, hplain, hout⟩ := hplayed
  have run := run_of_play (Option.mem_def.mp hhistory)
  exact ⟨history, s, run, hout, workerAgrees_run rfl run hlocal
    fun step hstep => stopsHandled_of_waiting (hplain step hstep)⟩

end Scheduler

end Edmm
