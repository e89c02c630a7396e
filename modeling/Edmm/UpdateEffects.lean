/-
  Edmm/UpdateEffects.lean
  =======================
  **What the other operations can do to the state, said once.**

  `update_from_output` is a chain of effects, one small group for each request of
  the output (`OutputEffect`), followed by the removal of the stopped requests.
  `finish_requests` removes the valid requests from the queues and finishes them
  one after another (`FinishEffect`).  What only a KV connector can cause is a
  chain of `ConnectorEffect`s.
-/
import Edmm.ScheduleEffects
import Mathlib.Data.List.Dedup

namespace Edmm

open Program

/-! ## 1. The registry -/

/-- Every id is registered for a request that carries it, and that exists. -/
def RegistryOk {W : Type} (s : SchedulerState W) : Prop :=
  (∀ reqId request, s.requests.get? reqId = some request →
    (s.objs request).requestId = reqId) ∧
  ∀ reqId request, s.requests.get? reqId = some request → request < s.nextRef

namespace RegistryOk

variable {W : Type} {s s' : SchedulerState W}

theorem carries (h : RegistryOk s) {reqId : RequestId} {request : Ref}
    (hget : s.requests.get? reqId = some request) : (s.objs request).requestId = reqId :=
  h.1 reqId request hget

theorem known (h : RegistryOk s) {reqId : RequestId} {request : Ref}
    (hget : s.requests.get? reqId = some request) : request < s.nextRef :=
  h.2 reqId request hget

/-- Requests keep their ids, and registrations are only dropped. -/
theorem of_shrink (h : RegistryOk s)
    (hids : ∀ x, (s'.objs x).requestId = (s.objs x).requestId)
    (hrequests : ∀ reqId x, s'.requests.get? reqId = some x → s.requests.get? reqId = some x)
    (hnextRef : s'.nextRef = s.nextRef) : RegistryOk s' := by
  constructor
  · intro reqId x hx
    rw [hids]
    exact h.carries (hrequests reqId x hx)
  · intro reqId x hx
    rw [hnextRef]
    exact h.known (hrequests reqId x hx)

theorem updateRequest (h : RegistryOk s) {request : Ref} {f : Request → Request}
    (hf : (f (s.objs request)).requestId = (s.objs request).requestId) :
    RegistryOk (s.updateRequest request f) := by
  apply h.of_shrink
  · intro x
    rw [SchedulerState.objs_updateRequest]
    split
    · rename_i hx
      rw [hx, hf]
    · rfl
  · exact fun _ _ hx => hx
  · rfl

end RegistryOk

namespace Scheduler

variable {W : Type} (self : Scheduler W)

/-! ## 2. Freeing and finishing -/

/-- The state after `_free_request`. -/
def afterFree (s : SchedulerState W) (request : Ref) (w : W) (delayed : Bool) :
    SchedulerState W :=
  { s with
    world := w
    finishedReqIds := s.finishedReqIds.insert (s.objs request).requestId
    trace := s.trace ++ [.freed request]
    requests :=
      if delayed then s.requests else s.requests.erase (s.objs request).requestId }

theorem connectorFinished_touches (r : Request) :
    TouchesWorld (self.connectorFinished r) fun delayed =>
      delayed = true → self.hasConnector = true := by
  unfold connectorFinished
  split
  · rename_i hconnector
    apply TouchesWorld.bind (TouchesWorld.onWorld (Q := fun _ => True) _ trivial)
    exact fun _ _ => TouchesWorld.callWorld _ fun _ _ => hconnector
  · exact TouchesWorld.pure nofun

theorem freeBlocks_wp (s : SchedulerState W) (request : Ref) :
    wp (self.freeBlocks request)
      (fun _ s' => (s.objs request).isFinished = true ∧ ∃ w, s' =
        { s with world := w, requests := s.requests.erase (s.objs request).requestId })
      (fun e _ => Benign e) s := by
  unfold freeBlocks
  rw [wp_bind, wp_get, wp_bind, wp_pyAssert]
  refine ⟨fun hfinished => ?_, fun _ => benign_assertFailed (by decide)⟩
  rw [wp_bind, wp_onWorld, wp_bind, wp_pyAssert]
  exact ⟨fun _ => ⟨hfinished, _, rfl⟩, fun _ => benign_keyError⟩

theorem freeRequest_wp (s : SchedulerState W) (request : Ref) (delay : Bool) :
    wp (self.freeRequest request delay)
      (fun _ s' => (s.objs request).isFinished = true ∧ ∃ w delayed,
        (delayed = true → delay = true ∨ self.hasConnector = true) ∧
        s' = afterFree s request w delayed)
      (fun e _ => Benign e) s := by
  unfold freeRequest
  rw [wp_bind, wp_getRequest, wp_bind, wp_pyAssert]
  refine ⟨fun hfinished => ?_, fun _ => benign_assertFailed (by decide)⟩
  rw [wp_bind]
  apply wp_mono (self.connectorFinished_touches (s.objs request) s)
  swap
  · exact fun e s' he => he.1
  rintro connectorDelay s' ⟨hconnector, w, rfl⟩
  rw [wp_bind, wp_onWorld, wp_bind, wp_modify, wp_bind, wp_record, wp_onlyIf]
  constructor
  · intro _
    apply wp_mono (self.freeBlocks_wp _ request)
    · rintro _ s' ⟨_, w', rfl⟩
      exact ⟨hfinished, w', false, nofun, rfl⟩
    · exact fun e s' he => he
  · intro hdelayed
    refine ⟨hfinished, _, true, ?_, rfl⟩
    intro _
    cases delay with
    | true => exact Or.inl rfl
    | false => exact Or.inr (hconnector (by simpa using hdelayed))

/-- One request finished by `finish_requests`. -/
inductive FinishEffect (finishedStatus : RequestStatus) (valid : List Ref) :
    SchedulerState W → SchedulerState W → Prop where
  | finish {s : SchedulerState W} {request : Ref} {delayed : Bool} (w : W)
      (finishedRecving failedRecving : List RequestId)
      (hvalid : request ∈ valid)
      (hregistered : s.requests.get? (s.objs request).requestId = some request)
      (hunfinished : (s.objs request).isFinished = false)
      (hfinished : finishedStatus.isFinished = true)
      (hdelayed : delayed = true →
        (s.objs request).status = .waitingForRemoteKvs ∨ self.hasConnector = true) :
      FinishEffect finishedStatus valid s
        (afterFree
          (SchedulerState.updateRequest
            { s with
              finishedRecvingKvReqIds := finishedRecving
              failedRecvingKvReqIds := failedRecving }
            request fun r => { r with status := finishedStatus })
          request w delayed)

abbrev FinishEffects (finishedStatus : RequestStatus) (valid : List Ref) :
    SchedulerState W → SchedulerState W → Prop :=
  Relation.ReflTransGen (self.FinishEffect finishedStatus valid)

theorem registryOk_afterFree {s : SchedulerState W} (hok : RegistryOk s) (request : Ref) (w : W)
    (delayed : Bool) : RegistryOk (afterFree s request w delayed) := by
  apply hok.of_shrink
  · exact fun _ => rfl
  · intro reqId x hx
    cases delayed with
    | true => exact hx
    | false =>
      simp only [afterFree, Bool.false_eq_true, if_false, Dict.get?_erase] at hx
      split at hx
      · cases hx
      · exact hx
  · rfl

theorem FinishEffect.registryOk {self : Scheduler W} {finishedStatus : RequestStatus}
    {valid : List Ref} {s s' : SchedulerState W}
    (h : self.FinishEffect finishedStatus valid s s') (hok : RegistryOk s) : RegistryOk s' := by
  cases h with
  | finish w finishedRecving failedRecving _ _ _ _ _ =>
    apply registryOk_afterFree
    apply RegistryOk.updateRequest
    · exact hok
    · rfl

theorem finishRequest_wp (s : SchedulerState W) (finishedStatus : RequestStatus)
    (valid : List Ref) (request : Ref) (hvalid : request ∈ valid)
    (hregistered : s.requests.get? (s.objs request).requestId = some request)
    (hunfinished : (s.objs request).isFinished = false)
    (hfinished : finishedStatus.isFinished = true) :
    wp (self.finishRequest finishedStatus request)
      (fun _ s' => self.FinishEffect finishedStatus valid s s' ∧
        (s'.objs request).isFinished = true ∧
        ∀ other, other ≠ request → s'.objs other = s.objs other ∧
          ∀ reqId, reqId ≠ (s.objs request).requestId →
            s'.requests.get? reqId = s.requests.get? reqId)
      (fun e _ => Benign e) s := by
  have hfree : ∀ finishedRecving failedRecving,
      wp (do
        setStatus request finishedStatus
        self.freeRequest request (decide ((s.objs request).status = .waitingForRemoteKvs ∧
          (s.objs request).requestId ∉ s.finishedRecvingKvReqIds)))
        (fun _ s' => self.FinishEffect finishedStatus valid s s' ∧
          (s'.objs request).isFinished = true ∧
          ∀ other, other ≠ request → s'.objs other = s.objs other ∧
            ∀ reqId, reqId ≠ (s.objs request).requestId →
              s'.requests.get? reqId = s.requests.get? reqId)
        (fun e _ => Benign e)
        { s with
          finishedRecvingKvReqIds := finishedRecving
          failedRecvingKvReqIds := failedRecving } := by
    intro finishedRecving failedRecving
    rw [wp_bind, wp_setStatus]
    apply wp_mono (self.freeRequest_wp _ request _)
    · rintro _ s' ⟨_, w, delayed, hdelayed, rfl⟩
      refine ⟨?_, ?_, ?_⟩
      · apply FinishEffect.finish w finishedRecving failedRecving hvalid hregistered hunfinished
          hfinished
        intro h
        rcases hdelayed h with hdelay | hconnector
        · exact Or.inl (of_decide_eq_true hdelay).1
        · exact Or.inr hconnector
      · simp [afterFree, Request.isFinished, hfinished]
      · intro other hother
        constructor
        · simp [afterFree, hother]
        · intro reqId hreqId
          cases delayed with
          | true => rfl
          | false =>
            simp only [afterFree, SchedulerState.objs_updateRequest_self,
              SchedulerState.requests_updateRequest]
            exact Dict.get?_erase_of_ne _ hreqId
    · exact fun e s' he => he
  unfold finishRequest
  rw [wp_bind, wp_get, wp_bind, wp_onlyIf]
  constructor
  · exact fun _ => hfree _ _
  · exact fun _ => hfree s.finishedRecvingKvReqIds s.failedRecvingKvReqIds

theorem mem_validRequests {s : SchedulerState W} {requestIds : Option (List RequestId)}
    {request : Ref} (h : request ∈ validRequests s requestIds) :
    ∃ reqId, s.unfinished? reqId = some request ∧
      ∀ ids, requestIds = some ids → reqId ∈ ids := by
  obtain ⟨reqId, hmem, hreqId⟩ := List.mem_filterMap.mp h
  refine ⟨reqId, hreqId, ?_⟩
  rintro ids rfl
  exact List.mem_dedup.mp hmem

theorem validRequests_nodup {s : SchedulerState W} (hok : RegistryOk s)
    (requestIds : Option (List RequestId)) : (validRequests s requestIds).Nodup := by
  have hinjective : ∀ reqId reqId' request, request ∈ s.unfinished? reqId →
      request ∈ s.unfinished? reqId' → reqId = reqId' := by
    intro reqId reqId' request hreqId hreqId'
    have h := hok.carries (s.unfinished?_eq_some.mp hreqId).1
    have h' := hok.carries (s.unfinished?_eq_some.mp hreqId').1
    exact h.symm.trans h'
  cases requestIds with
  | none => exact List.Nodup.filterMap hinjective s.requests.nodupKeys
  | some ids => exact List.Nodup.filterMap hinjective (List.nodup_dedup ids)

/-- The second pass over requests that are registered and unfinished. -/
theorem finishAll_wp (finishedStatus : RequestStatus) (valid : List Ref)
    (hfinished : finishedStatus.isFinished = true) (rest : List Ref) (s : SchedulerState W)
    (hvalid : ∀ x ∈ rest, x ∈ valid) (hnodup : rest.Nodup) (hok : RegistryOk s)
    (hrest : ∀ x ∈ rest, s.requests.get? (s.objs x).requestId = some x ∧
      (s.objs x).isFinished = false) :
    wp (rest.forM (self.finishRequest finishedStatus))
      (fun _ s' => self.FinishEffects finishedStatus valid s s' ∧
        (∀ x ∈ rest, (s'.objs x).isFinished = true) ∧
        ∀ x ∉ rest, s'.objs x = s.objs x)
      (fun e _ => Benign e) s := by
  induction rest generalizing s with
  | nil => exact ⟨Relation.ReflTransGen.refl, nofun, fun _ _ => rfl⟩
  | cons request rest ih =>
    obtain ⟨hregistered, hunfinished⟩ := hrest request List.mem_cons_self
    obtain ⟨hnotin, hnodup⟩ := List.nodup_cons.mp hnodup
    change wp (self.finishRequest finishedStatus request >>= fun _ =>
      rest.forM (self.finishRequest finishedStatus)) _ _ s
    rw [wp_bind]
    apply wp_mono (self.finishRequest_wp s finishedStatus valid request
      (hvalid request List.mem_cons_self) hregistered hunfinished hfinished)
    swap
    · exact fun e s' he => he
    rintro _ s₁ ⟨heffect, hdone, hother⟩
    have hok' := heffect.registryOk hok
    have hrest' : ∀ x ∈ rest, s₁.requests.get? (s₁.objs x).requestId = some x ∧
        (s₁.objs x).isFinished = false := by
      intro x hx
      have hne : x ≠ request := fun h => hnotin (h ▸ hx)
      obtain ⟨hxregistered, hxunfinished⟩ := hrest x (List.mem_cons_of_mem _ hx)
      obtain ⟨hobjs, hrequests⟩ := hother x hne
      rw [hobjs]
      refine ⟨?_, hxunfinished⟩
      rw [hrequests _ ?_]
      · exact hxregistered
      · intro hid
        rw [hid, hregistered] at hxregistered
        exact hne (Option.some.inj hxregistered).symm
    apply wp_mono (ih s₁ (fun x hx => hvalid x (List.mem_cons_of_mem _ hx)) hnodup hok' hrest')
    · rintro _ s' ⟨heffects, hfinishedRest, hsame⟩
      refine ⟨(Relation.ReflTransGen.single heffect).trans heffects, ?_, ?_⟩
      · intro x hx
        rcases List.mem_cons.mp hx with rfl | hx
        · rw [hsame x hnotin]
          exact hdone
        · exact hfinishedRest x hx
      · intro x hx
        rw [List.mem_cons, not_or] at hx
        rw [hsame x hx.2, (hother x hx.1).1]
    · exact fun e s' he => he

/-- What `finish_requests` did. -/
structure FinishedBy (scheduler : Scheduler W) (requestIds : Option (List RequestId))
    (finishedStatus : RequestStatus) (s s' : SchedulerState W) : Prop where
  effects : scheduler.FinishEffects finishedStatus (validRequests s requestIds)
    (scheduler.removeFromQueues (validRequests s requestIds) s) s'
  finished : ∀ x ∈ validRequests s requestIds, (s'.objs x).isFinished = true
  others : ∀ x ∉ validRequests s requestIds, s'.objs x = s.objs x

/-- **`finish_requests`.** -/
theorem finishRequests_effects (s : SchedulerState W) (hok : RegistryOk s)
    (requestIds : Option (List RequestId)) (finishedStatus : RequestStatus) :
    wp (self.finishRequests requestIds finishedStatus)
      (fun _ s' => self.FinishedBy requestIds finishedStatus s s')
      (fun e _ => Benign e) s := by
  unfold finishRequests
  rw [wp_bind, wp_pyAssert]
  refine ⟨fun hfinished => ?_, fun _ => benign_assertFailed (by decide)⟩
  rw [wp_bind, wp_get, wp_bind, wp_modify, wp_bind]
  apply wp_mono (self.finishAll_wp finishedStatus (validRequests s requestIds) hfinished
    (validRequests s requestIds) (self.removeFromQueues (validRequests s requestIds) s)
    (fun _ hx => hx) (validRequests_nodup hok requestIds) hok ?_)
  · exact fun _ s' h => { effects := h.1, finished := h.2.1, others := h.2.2 }
  · exact fun e s' he => he
  · intro x hx
    obtain ⟨reqId, hreqId, _⟩ := mem_validRequests hx
    obtain ⟨hget, hunfinished⟩ := s.unfinished?_eq_some.mp hreqId
    have hid := hok.carries hget
    exact ⟨by rw [← hid] at hget; exact hget, hunfinished⟩

theorem FinishedBy.registryOk {self : Scheduler W} {requestIds : Option (List RequestId)}
    {finishedStatus : RequestStatus} {s s' : SchedulerState W}
    (h : self.FinishedBy requestIds finishedStatus s s') (hok : RegistryOk s) : RegistryOk s' :=
  invariant_of_chain (fun _ _ heffect hbefore => heffect.registryOk hbefore) h.effects hok

/-- Finishing a request changes only its status. -/
theorem FinishedBy.objs {self : Scheduler W} {requestIds : Option (List RequestId)}
    {finishedStatus : RequestStatus} {s s' : SchedulerState W}
    (h : self.FinishedBy requestIds finishedStatus s s') (x : Ref) :
    ∃ status, s'.objs x = { s.objs x with status } := by
  apply invariant_of_chain (I := fun t : SchedulerState W =>
    ∃ status, t.objs x = { s.objs x with status }) _ h.effects ⟨(s.objs x).status, rfl⟩
  intro t t' heffect ⟨status, hbefore⟩
  cases heffect with
  | @finish request delayed w finishedRecving failedRecving =>
    dsimp only [afterFree]
    rw [SchedulerState.objs_updateRequest]
    split
    · rename_i heq
      dsimp only
      rw [← heq, hbefore]
      exact ⟨finishedStatus, rfl⟩
    · exact ⟨status, hbefore⟩

/-! ## 3. Output of one request -/

/-- Output tokens are appended, computed tokens may be taken back, and the status
    stays or becomes a finished one. -/
structure Extends (before after : Request) (kept : List Token) (stopped : Bool) : Prop where
  form : ∃ hashes computed placeholders status reason, after =
    { before with
      outputTokenIds := before.outputTokenIds ++ kept
      allTokenIds := before.allTokenIds ++ kept
      blockHashes := hashes
      numComputedTokens := computed
      numOutputPlaceholders := placeholders
      status
      stopReason := reason }
  running : stopped = false → after.status = before.status
  finished : stopped = true → after.isFinished = true
  placeholders : before.numOutputPlaceholders = 0 → after.numOutputPlaceholders = 0

theorem Extends.refl (r : Request) : Extends r r [] false where
  form := ⟨r.blockHashes, r.numComputedTokens, r.numOutputPlaceholders, r.status, r.stopReason,
    by simp only [List.append_nil]⟩
  running _ := rfl
  finished := nofun
  placeholders h := h

theorem rejectDrafts_extends (specTokenIds generatedTokenIds : List Token) (r : Request) :
    Extends r (rejectDrafts specTokenIds generatedTokenIds r) [] false := by
  unfold rejectDrafts
  split
  · exact
      { form := ⟨r.blockHashes, _, _, r.status, r.stopReason, by
          simp only [List.append_nil]
          rfl⟩
        running := fun _ => rfl
        finished := nofun
        placeholders := by
          intro h
          simp [h] }
  · exact Extends.refl r

theorem updateRequestWithOutput_extends (r : Request) (tokenIds : List Token) :
    Extends r (self.updateRequestWithOutput r tokenIds).1
      (self.updateRequestWithOutput r tokenIds).2.1
      (self.updateRequestWithOutput r tokenIds).2.2 := by
  induction tokenIds generalizing r with
  | nil => exact Extends.refl r
  | cons tokenId rest ih =>
    obtain ⟨hashes, happend⟩ :=
      Request.appendOutputTokenIds_eq self.externals.blockHasher r [tokenId]
    simp only [updateRequestWithOutput]
    rw [happend]
    generalize hr' : ({ r with
      outputTokenIds := r.outputTokenIds ++ [tokenId]
      allTokenIds := r.allTokenIds ++ [tokenId]
      blockHashes := hashes } : Request) = r'
    cases hstop : self.externals.checkStop r' self.maxModelLen with
    | some outcome =>
      subst hr'
      exact
        { form := ⟨_, _, _, _, _, rfl⟩
          running := nofun
          finished := fun _ => outcome.finished
          placeholders := fun h => h }
    | none =>
      have hrest := ih r'
      obtain ⟨hashes', computed, placeholders, status, reason, hform⟩ := hrest.form
      subst hr'
      exact
        { form := by
            refine ⟨hashes', computed, placeholders, status, reason, ?_⟩
            rw [hform]
            simp only [List.append_assoc, List.singleton_append]
          running := hrest.running
          finished := hrest.finished
          placeholders := hrest.placeholders }

theorem Extends.trans {r r' r'' : Request} {kept kept' : List Token} {stopped : Bool}
    (h : Extends r r' kept false) (h' : Extends r' r'' kept' stopped) :
    Extends r r'' (kept ++ kept') stopped := by
  obtain ⟨hashes, computed, placeholders, status, reason, rfl⟩ := h.form
  obtain ⟨hashes', computed', placeholders', status', reason', hform⟩ := h'.form
  exact
    { form := ⟨hashes', computed', placeholders', status', reason', by
        rw [hform]
        simp only [List.append_assoc]⟩
      running := fun hs => (h'.running hs).trans (h.running rfl)
      finished := h'.finished
      placeholders := fun hp => h'.placeholders (h.placeholders hp) }

theorem applyOutput_extends (specTokenIds generatedTokenIds : List Token)
    (hasPoolerOutput : Bool) (r : Request) :
    Extends r (self.applyOutput specTokenIds generatedTokenIds hasPoolerOutput r).1
      (self.applyOutput specTokenIds generatedTokenIds hasPoolerOutput r).2.1
      (self.applyOutput specTokenIds generatedTokenIds hasPoolerOutput r).2.2 := by
  have hreject := rejectDrafts_extends specTokenIds generatedTokenIds r
  unfold applyOutput
  dsimp only
  split
  · have happend := self.updateRequestWithOutput_extends
      (rejectDrafts specTokenIds generatedTokenIds r) generatedTokenIds
    exact hreject.trans happend
  split
  · obtain ⟨hashes, computed, placeholders, status, reason, hform⟩ := hreject.form
    exact
      { form := ⟨hashes, computed, placeholders, _, reason, by rw [hform]⟩
        running := nofun
        finished := fun _ => rfl
        placeholders := hreject.placeholders }
  · exact hreject

/-- What a request is after its output, and whether it stops: the tokens are
    applied, and a grammar may reject them. -/
inductive Delivered (specTokenIds : List Token) (generated : List Token × Bool)
    (before : Request) : Request → Bool → Prop where
  | applied :
      Delivered specTokenIds generated before
        (self.applyOutput specTokenIds generated.1 generated.2 before).1
        (self.applyOutput specTokenIds generated.1 generated.2 before).2.2
  | rejected
      (htokens : (self.applyOutput specTokenIds generated.1 generated.2 before).2.1 ≠ [])
      (hgrammar : before.useStructuredOutput = true) :
      Delivered specTokenIds generated before
        (rejectedByGrammar (self.applyOutput specTokenIds generated.1 generated.2 before).1) true

theorem advanceGrammar_wp (s : SchedulerState W) (request : Ref) (specTokenIds : List Token)
    (generated : List Token × Bool) (before : Request)
    (hafter : s.objs request =
      (self.applyOutput specTokenIds generated.1 generated.2 before).1) :
    wp (self.advanceGrammar request
        (self.applyOutput specTokenIds generated.1 generated.2 before).2.1
        (self.applyOutput specTokenIds generated.1 generated.2 before).2.2)
      (fun stopped s' => ∃ r w, self.Delivered specTokenIds generated before r stopped ∧
        s' = SchedulerState.updateRequest { s with world := w } request fun _ => r)
      (fun e _ => Benign e) s := by
  have hsame : ∀ w, ({ s with world := w } : SchedulerState W) =
      SchedulerState.updateRequest { s with world := w } request fun _ =>
        (self.applyOutput specTokenIds generated.1 generated.2 before).1 := by
    intro w
    rw [← hafter]
    exact (SchedulerState.updateRequest_same { s with world := w } request).symm
  unfold advanceGrammar
  rw [wp_bind, wp_get]
  dsimp only
  split
  · rename_i hadvance
    rw [wp_bind, wp_pyAssert]
    refine ⟨fun hgrammar => ?_, fun _ => benign_assertFailed (by decide)⟩
    rw [wp_bind, wp_callWorld]
    split
    · exact ⟨_, _, Delivered.applied, hsame _⟩
    · rw [wp_bind, wp_modifyRequest, wp_pure]
      have hstructured : before.useStructuredOutput = true := by
        obtain ⟨hashes, computed, placeholders, status, reason, hform⟩ :=
          (self.applyOutput_extends specTokenIds generated.1 generated.2 before).form
        rw [hafter, hform] at hgrammar
        exact hgrammar
      refine ⟨_, (self.externals.acceptTokens s.world (s.objs request).requestId
        (self.applyOutput specTokenIds generated.1 generated.2 before).2.1).2,
        Delivered.rejected hadvance.1 hstructured, ?_⟩
      rw [← hafter]
      rfl
  · exact ⟨_, s.world, Delivered.applied, hsame s.world⟩

theorem Delivered.finished {self : Scheduler W} {specTokenIds : List Token}
    {generated : List Token × Bool} {before after : Request} {stopped : Bool}
    (h : self.Delivered specTokenIds generated before after stopped) :
    stopped = true → after.isFinished = true := by
  cases h with
  | applied => exact (self.applyOutput_extends specTokenIds generated.1 generated.2 before).finished
  | rejected => exact fun _ => rfl

/-- An output changes neither the id of a request nor what it never writes. -/
theorem Delivered.form {self : Scheduler W} {specTokenIds : List Token}
    {generated : List Token × Bool} {before after : Request} {stopped : Bool}
    (h : self.Delivered specTokenIds generated before after stopped) :
    ∃ kept hashes computed placeholders status reason resumable, after =
      { before with
        outputTokenIds := before.outputTokenIds ++ kept
        allTokenIds := before.allTokenIds ++ kept
        blockHashes := hashes
        numComputedTokens := computed
        numOutputPlaceholders := placeholders
        status
        stopReason := reason
        resumable } := by
  obtain ⟨hashes, computed, placeholders, status, reason, hform⟩ :=
    (self.applyOutput_extends specTokenIds generated.1 generated.2 before).form
  cases h with
  | applied => exact ⟨_, hashes, computed, placeholders, status, reason, before.resumable, hform⟩
  | rejected htokens hgrammar =>
    exact ⟨_, hashes, computed, placeholders, .finishedError, reason, false, by
      rw [hform]
      rfl⟩

theorem Delivered.requestId {self : Scheduler W} {specTokenIds : List Token}
    {generated : List Token × Bool} {before after : Request} {stopped : Bool}
    (h : self.Delivered specTokenIds generated before after stopped) :
    after.requestId = before.requestId := by
  obtain ⟨kept, hashes, computed, placeholders, status, reason, resumable, rfl⟩ := h.form
  rfl

theorem Delivered.resumable {self : Scheduler W} {specTokenIds : List Token}
    {generated : List Token × Bool}
    {before after : Request} {stopped : Bool}
    (h : self.Delivered specTokenIds generated before after stopped)
    (hresumable : after.resumable = true) : before.resumable = true := by
  cases h with
  | applied =>
    obtain ⟨hashes, computed, placeholders, status, reason, hform⟩ :=
      (self.applyOutput_extends specTokenIds generated.1 generated.2 before).form
    rw [hform] at hresumable
    exact hresumable
  | rejected => cases hresumable

theorem generatedFor_error {mro : ModelRunnerOutput} {reqId : RequestId} {e : PyError}
    (h : generatedFor mro reqId = .error e) : e = .keyError ∨ e = .indexError := by
  unfold generatedFor at h
  split at h
  · cases h
    exact Or.inl rfl
  · dsimp only at h
    split at h
    · cases h
    · cases h
      exact Or.inr rfl

/-- The next input of a session is appended, and it waits again. -/
def continueSession (update : StreamingUpdate) (r : Request) : Request :=
  { self.extendPrompt update (dropUncomputed r) with status := .waiting }

theorem updateRequestAsSession_wp (s : SchedulerState W) (session : Ref)
    (update : StreamingUpdate) :
    wp (self.updateRequestAsSession session update)
      (fun _ s' => (s.objs session).promptTokenIds.isSome = true ∧
        s' = SchedulerState.updateRequest
          { s with
            numWaitingForStreamingInput :=
              if (s.objs session).status = .waitingForStreamingReq then
                s.numWaitingForStreamingInput - 1
              else s.numWaitingForStreamingInput }
          session (self.continueSession update))
      (fun e _ => Benign e) s := by
  unfold updateRequestAsSession
  rw [wp_bind, wp_modifyRequest, wp_bind, wp_getRequest, wp_bind, wp_pyAssert]
  refine ⟨fun hprompt => ?_, fun _ => benign_assertFailed (by decide)⟩
  rw [SchedulerState.objs_updateRequest_self] at hprompt ⊢
  have hprompt : (s.objs session).promptTokenIds.isSome = true := by
    simpa [dropUncomputed] using hprompt
  have hstatus : (dropUncomputed (s.objs session)).status = (s.objs session).status := rfl
  rw [wp_bind, wp_modifyRequest, wp_bind, wp_onlyIf, hstatus]
  constructor
  · intro hstreaming
    rw [wp_modify, wp_setStatus]
    refine ⟨hprompt, ?_⟩
    rw [if_pos hstreaming]
    simp only [SchedulerState.updateRequest, Function.update_self, Function.update_idem]
    rfl
  · intro hstreaming
    rw [wp_setStatus]
    refine ⟨hprompt, ?_⟩
    rw [if_neg hstreaming]
    simp only [SchedulerState.updateRequest, Function.update_self, Function.update_idem]
    rfl

/-- How a stopped request ends: it is no session, or the session is over. -/
def Ends (r r' : Request) : Prop :=
  (r.resumable = false ∧ r' = r) ∨ ∃ rest, r.streamingQueue = some (none :: rest) ∧
    r' = { r with streamingQueue := some rest }

/-- How a stopped session continues with its next input. -/
def Continues (r r' : Request) : Prop :=
  r.resumable = true ∧ ∃ update rest, r.streamingQueue = some (some update :: rest) ∧
    r.promptTokenIds.isSome = true ∧
    r' = self.continueSession update { r with streamingQueue := some rest }

/-- A session without a next input waits for one. -/
def idled (r : Request) : Request := { r with status := .waitingForStreamingReq }

theorem handleStoppedRequest_wp (s : SchedulerState W) (request : Ref)
    (hfinished : (s.objs request).isFinished = true) :
    wp (self.handleStoppedRequest request)
      (fun finished s' =>
        (finished = true ∧ ∃ r', Ends (s.objs request) r' ∧
          s' = s.updateRequest request fun _ => r') ∨
        (finished = false ∧ (s.objs request).resumable = true ∧
          (s.objs request).hasStreamingUpdate = false ∧ s' = SchedulerState.updateRequest
            { s with
              numWaitingForStreamingInput := s.numWaitingForStreamingInput + 1
              skippedWaiting := self.requestQueue.addRequest
                (s.updateRequest request idled).objs s.skippedWaiting request }
            request idled) ∨
        (finished = false ∧ ∃ r', self.Continues (s.objs request) r' ∧
          s' = SchedulerState.updateRequest
            { s with
              waiting := self.requestQueue.addRequest
                (s.updateRequest request fun _ => r').objs s.waiting request }
            request fun _ => r'))
      (fun e _ => Benign e) s := by
  unfold handleStoppedRequest
  rw [wp_bind, wp_getRequest]
  split
  · rename_i hresumable
    refine Or.inl ⟨rfl, s.objs request, Or.inl ⟨hresumable, rfl⟩, ?_⟩
    exact (s.updateRequest_same request).symm
  rename_i hresumable
  have hresumable : (s.objs request).resumable = true := by simpa using hresumable
  split
  · rename_i update rest hqueue
    rw [wp_bind, wp_modifyRequest]
    cases update with
    | none =>
      refine Or.inl ⟨rfl, { s.objs request with streamingQueue := some rest }, ?_, ?_⟩
      · exact Or.inr ⟨rest, hqueue, rfl⟩
      · rfl
    | some update =>
      dsimp only
      rw [wp_bind]
      apply wp_mono (self.updateRequestAsSession_wp _ request update)
      swap
      · exact fun e s' he => he
      rintro _ s' ⟨hprompt, rfl⟩
      rw [SchedulerState.objs_updateRequest_self] at hprompt ⊢
      have hnot : (s.objs request).status ≠ .waitingForStreamingReq := by
        intro h
        rw [Request.isFinished, h] at hfinished
        cases hfinished
      have hcontinues : self.Continues (s.objs request)
          (self.continueSession update { s.objs request with streamingQueue := some rest }) :=
        ⟨hresumable, update, rest, hqueue, hprompt, rfl⟩
      have hwaiting : (self.continueSession update
          { s.objs request with streamingQueue := some rest }).status = .waiting := rfl
      unfold enqueueWaitingRequest
      rw [wp_bind, wp_bind, wp_get, SchedulerState.objs_updateRequest_self, if_neg]
      swap
      · rw [SchedulerState.objs_updateRequest_self, hwaiting]
        decide
      rw [wp_modify, wp_pure]
      refine Or.inr (Or.inr ⟨rfl, _, hcontinues, ?_⟩)
      rw [if_neg hnot]
      simp only [SchedulerState.updateRequest, Function.update_self, Function.update_idem]
  · rename_i hqueue
    have hempty : (s.objs request).hasStreamingUpdate = false := by
      unfold Request.hasStreamingUpdate
      cases h : (s.objs request).streamingQueue with
      | none => rfl
      | some updates =>
        cases updates with
        | nil => rfl
        | cons update rest => exact absurd h (hqueue update rest)
    rw [wp_bind, wp_setStatus, wp_bind, wp_modify]
    unfold enqueueWaitingRequest
    rw [wp_bind, wp_bind, wp_get, if_pos, wp_modify, wp_pure]
    · exact Or.inr (Or.inl ⟨rfl, hresumable, hempty, rfl⟩)
    · simp only [SchedulerState.objs_updateRequest_self]
      decide

/-- The request of an id when its output is applied: unfinished since the start of
    the loop, and not touched before.  `r` is what the output makes of it. -/
structure Answered (scheduler : Scheduler W) (out : SchedulerOutput) (mro : ModelRunnerOutput)
    (start s : SchedulerState W) (reqId : RequestId) (request : Ref) (r : Request)
    (stopped : Bool) : Prop where
  scheduled : reqId ∈ out.numScheduledTokens.keys
  unfinished : start.unfinished? reqId = some request
  untouched : s.objs request = start.objs request
  registered : s.requests.get? reqId = some request
  carries : (s.objs request).requestId = reqId
  delivered : ∃ generated, generatedFor mro reqId = .ok generated ∧
    scheduler.Delivered (scheduledSpecFor out reqId) generated (s.objs request) r stopped

/-- The effects of one request's output.  `start` is the state before the loop. -/
inductive OutputEffect (out : SchedulerOutput) (mro : ModelRunnerOutput)
    (start : SchedulerState W) (reqId : RequestId) :
    SchedulerState W × OutputLocals → SchedulerState W × OutputLocals → Prop where
  | touch (s : SchedulerState W) (acc : OutputLocals) (w : W) :
      OutputEffect out mro start reqId (s, acc) ({ s with world := w }, acc)
  | report (s : SchedulerState W) (acc : OutputLocals) (request : Ref)
      (outputs : List EngineCoreOutput) (hscheduled : reqId ∈ out.numScheduledTokens.keys)
      (hunfinished : start.unfinished? reqId = some request) :
      OutputEffect out mro start reqId (s, acc)
        (s.updateRequest request Request.takePrefillStats, { acc with outputs })
  | deliver {s : SchedulerState W} {acc : OutputLocals} {request : Ref} {r : Request} (w : W)
      (hanswered : self.Answered out mro start s reqId request r false) :
      OutputEffect out mro start reqId (s, acc)
        (SchedulerState.updateRequest { s with world := w } request fun _ => r, acc)
  | finish {s : SchedulerState W} {acc : OutputLocals} {request : Ref} {r r' : Request}
      {delayed : Bool} (w w' : W)
      (hanswered : self.Answered out mro start s reqId request r true) (hends : Ends r r')
      (hdelayed : delayed = true → self.hasConnector = true) :
      OutputEffect out mro start reqId (s, acc)
        (afterFree (SchedulerState.updateRequest { s with world := w } request fun _ => r')
          request w' delayed, acc.addStopped request (s.objs request).status)
  | idle {s : SchedulerState W} {acc : OutputLocals} {request : Ref} {r : Request} (w : W)
      (hanswered : self.Answered out mro start s reqId request r true)
      (hresumable : r.resumable = true) (hempty : r.hasStreamingUpdate = false) :
      OutputEffect out mro start reqId (s, acc)
        (SchedulerState.updateRequest
          { s with
            world := w
            numWaitingForStreamingInput := s.numWaitingForStreamingInput + 1
            skippedWaiting := self.requestQueue.addRequest
              (s.updateRequest request fun _ => idled r).objs s.skippedWaiting request }
          request fun _ => idled r,
        acc.addStopped request (s.objs request).status)
  | proceed {s : SchedulerState W} {acc : OutputLocals} {request : Ref} {r r' : Request} (w : W)
      (hanswered : self.Answered out mro start s reqId request r true)
      (hcontinues : self.Continues r r') :
      OutputEffect out mro start reqId (s, acc)
        (SchedulerState.updateRequest
          { s with
            world := w
            waiting := self.requestQueue.addRequest (s.updateRequest request fun _ => r').objs
              s.waiting request }
          request fun _ => r',
        acc.addStopped request (s.objs request).status)

/-- The effects of the output of one id, and of all ids. -/
abbrev OutputEffectsFor (out : SchedulerOutput) (mro : ModelRunnerOutput)
    (start : SchedulerState W) (reqId : RequestId) :
    SchedulerState W × OutputLocals → SchedulerState W × OutputLocals → Prop :=
  Relation.ReflTransGen (self.OutputEffect out mro start reqId)

abbrev OutputEffects (out : SchedulerOutput) (mro : ModelRunnerOutput)
    (start : SchedulerState W) :
    SchedulerState W × OutputLocals → SchedulerState W × OutputLocals → Prop :=
  Relation.ReflTransGen fun p p' => ∃ reqId, self.OutputEffect out mro start reqId p p'

theorem freeEncoderInputs_touches (r : Request) :
    TouchesWorld (self.freeEncoderInputs r) fun _ => True := by
  apply TouchesWorld.get
  intro s
  apply TouchesWorld.forM
  intro inputId
  apply TouchesWorld.bind (TouchesWorld.getOrRaise (Q := fun _ => True) (fun _ _ => trivial)
    benign_indexError)
  intro feature _
  exact TouchesWorld.onlyIf (TouchesWorld.onWorld _ trivial)

/-- The stop of a request that was answered. -/
theorem stopRequest_effects {out : SchedulerOutput} {mro : ModelRunnerOutput}
    {start s : SchedulerState W} {reqId : RequestId} {request : Ref} {r : Request}
    (acc : OutputLocals) (w : W)
    (hanswered : self.Answered out mro start s reqId request r true) :
    wp (self.stopRequest request (s.objs request).status acc)
      (fun acc' s' => self.OutputEffectsFor out mro start reqId (s, acc) (s', acc'))
      (fun e _ => Benign e)
      (SchedulerState.updateRequest { s with world := w } request fun _ => r) := by
  obtain ⟨generated, _, hdelivered⟩ := hanswered.delivered
  have hfinished := hdelivered.finished rfl
  unfold stopRequest
  rw [wp_bind]
  apply wp_mono (self.handleStoppedRequest_wp _ request
    (by rw [SchedulerState.objs_updateRequest_self]; exact hfinished))
  swap
  · exact fun e s' he => he
  intro finished s'
  rw [SchedulerState.objs_updateRequest_self]
  rintro (⟨rfl, r', hends, rfl⟩ | ⟨rfl, hresumable, hempty, rfl⟩ | ⟨rfl, r', hcontinues, rfl⟩)
  · rw [wp_bind, wp_onlyIf, SchedulerState.updateRequest_updateRequest]
    refine ⟨fun _ => ?_, fun h => absurd rfl h⟩
    apply wp_mono (self.freeRequest_wp _ request false)
    · rintro _ s' ⟨_, w', delayed, hdelayed, rfl⟩
      rw [wp_pure]
      apply Relation.ReflTransGen.single
      apply OutputEffect.finish w w' hanswered hends
      intro h
      exact (hdelayed h).resolve_left Bool.false_ne_true
    · exact fun e s' he => he
  · rw [wp_bind, wp_onlyIf]
    refine ⟨nofun, fun _ => ?_⟩
    rw [wp_pure]
    convert Relation.ReflTransGen.single (OutputEffect.idle w hanswered hresumable hempty) using 2
    simp only [SchedulerState.updateRequest, Function.update_self, Function.update_idem]
  · rw [wp_bind, wp_onlyIf]
    refine ⟨nofun, fun _ => ?_⟩
    rw [wp_pure]
    convert Relation.ReflTransGen.single (OutputEffect.proceed w hanswered hcontinues) using 2
    simp only [SchedulerState.updateRequest, Function.update_idem]

theorem processOutput_effects {out : SchedulerOutput} {mro : ModelRunnerOutput}
    {start s : SchedulerState W} {reqId : RequestId} {request : Ref}
    {generated : List Token × Bool} (acc : OutputLocals)
    (hscheduled : reqId ∈ out.numScheduledTokens.keys)
    (hunfinished : start.unfinished? reqId = some request)
    (huntouched : s.objs request = start.objs request)
    (hregistered : s.requests.get? reqId = some request)
    (hcarries : (s.objs request).requestId = reqId)
    (hgenerated : generatedFor mro reqId = .ok generated) :
    wp (self.processOutput (scheduledSpecFor out reqId) reqId generated request acc)
      (fun acc' s' => self.OutputEffectsFor out mro start reqId (s, acc) (s', acc'))
      (fun e _ => Benign e) s := by
  have hanswered : ∀ {r stopped},
      self.Delivered (scheduledSpecFor out reqId) generated (s.objs request) r stopped →
      self.Answered out mro start s reqId request r stopped := by
    intro r stopped hdelivered
    exact
      { scheduled := hscheduled
        unfinished := hunfinished
        untouched := huntouched
        registered := hregistered
        carries := hcarries
        delivered := ⟨generated, hgenerated, hdelivered⟩ }
  unfold processOutput
  rw [wp_bind, wp_get, wp_bind]
  apply wp_mono (TouchesWorld.onlyIf (self.freeEncoderInputs_touches _) s)
  swap
  · exact fun e s' he => he.1
  rintro _ s₁ ⟨_, w, rfl⟩
  dsimp only
  rw [wp_bind, wp_modifyRequest, wp_bind]
  apply wp_mono (self.advanceGrammar_wp _ request (scheduledSpecFor out reqId) generated
    (s.objs request) (by rw [SchedulerState.objs_updateRequest_self]))
  swap
  · exact fun e s' he => he
  rintro stopped s₂ ⟨r, w', hdelivered, rfl⟩
  have hstate : SchedulerState.updateRequest
      { SchedulerState.updateRequest { s with world := w } request fun _ =>
          (self.applyOutput (scheduledSpecFor out reqId) generated.1 generated.2
            (s.objs request)).1 with world := w' } request (fun _ => r) =
      SchedulerState.updateRequest { s with world := w' } request fun _ => r := by
    simp only [SchedulerState.updateRequest, Function.update_idem]
  rw [hstate, wp_bind, wp_getRequest, wp_bind]
  have hstop : wp
      (if stopped then self.stopRequest request (s.objs request).status acc else pure acc :
        SchedM W OutputLocals)
      (fun acc' s' => self.OutputEffectsFor out mro start reqId (s, acc) (s', acc'))
      (fun e _ => Benign e)
      (SchedulerState.updateRequest { s with world := w' } request fun _ => r) := by
    cases stopped with
    | true => exact self.stopRequest_effects acc w' (hanswered hdelivered)
    | false =>
      exact Relation.ReflTransGen.single (OutputEffect.deliver w' (hanswered hdelivered))
  apply wp_mono hstop
  swap
  · exact fun e s' he => he
  intro acc' s₃ heffects
  split
  · rw [wp_bind, wp_modifyRequest, wp_pure]
    exact heffects.tail (OutputEffect.report s₃ acc' request _ hscheduled hunfinished)
  · exact heffects

/-- The output of one id does not touch the requests of other ids. -/
theorem OutputEffect.frame {self : Scheduler W} {out : SchedulerOutput} {mro : ModelRunnerOutput}
    {start : SchedulerState W} {reqId : RequestId} {p p' : SchedulerState W × OutputLocals}
    (h : self.OutputEffect out mro start reqId p p') :
    (∀ x, (reqId ∈ out.numScheduledTokens.keys → start.unfinished? reqId ≠ some x) →
      p'.1.objs x = p.1.objs x) ∧
    ∀ other, (reqId ∈ out.numScheduledTokens.keys → other ≠ reqId) →
      p'.1.requests.get? other = p.1.requests.get? other := by
  have hne : ∀ {x request}, start.unfinished? reqId = some request →
      reqId ∈ out.numScheduledTokens.keys →
      (reqId ∈ out.numScheduledTokens.keys → start.unfinished? reqId ≠ some x) →
      x ≠ request := by
    intro x request hrequest hkey hx heq
    exact hx hkey (heq ▸ hrequest)
  cases h with
  | touch s acc w => exact ⟨fun _ _ => rfl, fun _ _ => rfl⟩
  | report s acc request outputs hscheduled hunfinished =>
    refine ⟨fun x hx => ?_, fun _ _ => rfl⟩
    exact Function.update_of_ne (hne hunfinished hscheduled hx) _ _
  | deliver w hanswered =>
    refine ⟨fun x hx => ?_, fun _ _ => rfl⟩
    exact Function.update_of_ne (hne hanswered.unfinished hanswered.scheduled hx) _ _
  | @finish s acc request r r' delayed w w' hanswered hends hdelayed =>
    constructor
    · intro x hx
      exact Function.update_of_ne (hne hanswered.unfinished hanswered.scheduled hx) _ _
    · intro other hother
      cases delayed with
      | true => rfl
      | false =>
        apply Dict.get?_erase_of_ne
        have hid : r'.requestId = reqId := by
          obtain ⟨generated, _, hdelivered⟩ := hanswered.delivered
          have hr := hdelivered.requestId
          rcases hends with ⟨_, rfl⟩ | ⟨rest, _, rfl⟩
          · rw [hr, hanswered.carries]
          · rw [← hanswered.carries, ← hr]
        rw [SchedulerState.objs_updateRequest_self, hid]
        exact hother hanswered.scheduled
  | idle w hanswered hresumable hempty =>
    refine ⟨fun x hx => ?_, fun _ _ => rfl⟩
    exact Function.update_of_ne (hne hanswered.unfinished hanswered.scheduled hx) _ _
  | proceed w hanswered hcontinues =>
    refine ⟨fun x hx => ?_, fun _ _ => rfl⟩
    exact Function.update_of_ne (hne hanswered.unfinished hanswered.scheduled hx) _ _

/-- The loop of `update_from_output`. -/
theorem consumeOutputs_effects (start : SchedulerState W) (hok : RegistryOk start)
    (out : SchedulerOutput) (mro : ModelRunnerOutput) (failedKvLoadReqIds : List RequestId) :
    wp (out.numScheduledTokens.items.foldlM (self.consumeOutput out mro failedKvLoadReqIds)
        OutputLocals.init)
      (fun acc s' => self.OutputEffects out mro start (start, OutputLocals.init) (s', acc))
      (fun e _ => Benign e) start := by
  -- the ids still to come are as they were at the start
  refine wp_mono (wp_foldlM_remaining (E := fun e (_ : SchedulerState W) => Benign e)
    (I := fun rest acc s =>
      self.OutputEffects out mro start (start, OutputLocals.init) (s, acc) ∧
      (rest.map Prod.fst).Nodup ∧ (∀ item ∈ rest, item.1 ∈ out.numScheduledTokens.keys) ∧
      ∀ item ∈ rest, s.requests.get? item.1 = start.requests.get? item.1 ∧
        ∀ x, start.requests.get? item.1 = some x → s.objs x = start.objs x) ?_ ?_) ?_ ?_
  · rintro item rest acc s ⟨heffects, hnodup, hkeys, hsame⟩
    rw [List.map_cons, List.nodup_cons] at hnodup
    obtain ⟨hitemRequests, hitemObjs⟩ := hsame item List.mem_cons_self
    have hkeep : wp (self.consumeOutput out mro failedKvLoadReqIds acc item)
        (fun acc' s' => self.OutputEffectsFor out mro start item.1 (s, acc) (s', acc'))
        (fun e _ => Benign e) s := by
      unfold consumeOutput
      rw [wp_bind, wp_pyAssert]
      refine ⟨fun _ => ?_, fun _ => benign_assertFailed (by decide)⟩
      rw [wp_bind, wp_get]
      cases hget : s.unfinished? item.1 with
      | none => exact Relation.ReflTransGen.refl
      | some request =>
        dsimp only
        split
        · exact Relation.ReflTransGen.refl
        cases hgenerated : generatedFor mro item.1 with
        | error e =>
          have he : e = .keyError ∨ e = .indexError := generatedFor_error hgenerated
          rcases he with rfl | rfl
          · exact benign_keyError
          · exact benign_indexError
        | ok generated =>
          obtain ⟨hregistered, hunfinished⟩ := s.unfinished?_eq_some.mp hget
          have hstart : start.requests.get? item.1 = some request := by
            rw [← hitemRequests, hregistered]
          have hobjs := hitemObjs request hstart
          apply self.processOutput_effects acc (hkeys item List.mem_cons_self) ?_ hobjs
            hregistered ?_ hgenerated
          · rw [SchedulerState.unfinished?_eq_some]
            exact ⟨hstart, by rw [← hobjs]; exact hunfinished⟩
          · rw [hobjs]
            exact hok.carries hstart
    apply wp_mono hkeep
    swap
    · exact fun e s' he => he
    intro acc' s' hfor
    refine ⟨?_, hnodup.2, fun other hother => hkeys other (List.mem_cons_of_mem _ hother), ?_⟩
    · exact heffects.trans (hfor.lift id fun p p' h => ⟨item.1, h⟩)
    · intro other hother
      have hne : other.1 ≠ item.1 := by
        intro h
        exact hnodup.1 (h ▸ List.mem_map_of_mem hother)
      obtain ⟨hrequests, hobjs⟩ := hsame other (List.mem_cons_of_mem _ hother)
      apply invariant_of_chain
        (I := fun p : SchedulerState W × OutputLocals =>
          p.1.requests.get? other.1 = start.requests.get? other.1 ∧
          ∀ x, start.requests.get? other.1 = some x → p.1.objs x = start.objs x)
        ?_ hfor ⟨hrequests, hobjs⟩
      rintro p p' heffect ⟨hrequests, hobjs⟩
      obtain ⟨hframeObjs, hframeRequests⟩ := heffect.frame
      refine ⟨(hframeRequests other.1 fun _ => hne).trans hrequests, ?_⟩
      intro x hx
      rw [hframeObjs x ?_]
      · exact hobjs x hx
      · intro _ hitem
        have hx' := (start.unfinished?_eq_some.mp hitem).1
        exact hne ((hok.carries hx).symm.trans (hok.carries hx'))
  · refine ⟨Relation.ReflTransGen.refl, out.numScheduledTokens.nodupKeys, ?_, ?_⟩
    · exact fun item hitem => List.mem_map_of_mem hitem
    · exact fun item _ => ⟨rfl, fun _ _ => rfl⟩
  · exact fun acc s' h => h.1
  · exact fun e s' he => he

/-- What an output does to a request never changes its id. -/
theorem Answered.requestId {self : Scheduler W} {out : SchedulerOutput} {mro : ModelRunnerOutput}
    {start s : SchedulerState W} {reqId : RequestId} {request : Ref} {r : Request} {stopped : Bool}
    (h : self.Answered out mro start s reqId request r stopped) :
    r.requestId = (s.objs request).requestId := by
  obtain ⟨generated, _, hdelivered⟩ := h.delivered
  exact hdelivered.requestId

/-- A request that an output stops is finished before its session goes on. -/
theorem Answered.finished {self : Scheduler W} {out : SchedulerOutput} {mro : ModelRunnerOutput}
    {start s : SchedulerState W} {reqId : RequestId} {request : Ref} {r : Request}
    (h : self.Answered out mro start s reqId request r true) : r.isFinished = true := by
  obtain ⟨generated, _, hdelivered⟩ := h.delivered
  exact hdelivered.finished rfl

theorem Ends.finished {r r' : Request} (h : Ends r r') (hr : r.isFinished = true) :
    r'.isFinished = true := by
  rcases h with ⟨_, rfl⟩ | ⟨rest, _, rfl⟩
  · exact hr
  · exact hr

theorem Ends.requestId {r r' : Request} (h : Ends r r') : r'.requestId = r.requestId := by
  rcases h with ⟨_, rfl⟩ | ⟨rest, _, rfl⟩
  · rfl
  · rfl

/-- Extending the prompt changes these fields only. -/
theorem extendPrompt_eq (update : StreamingUpdate) (r : Request) :
    ∃ hashes, self.extendPrompt update r =
      { r with
        mmFeatures := r.mmFeatures ++ update.mmFeatures.map fun feature =>
          { feature with mmPosition :=
            { feature.mmPosition with offset := feature.mmPosition.offset + r.numTokens } }
        allTokenIds := r.allTokenIds ++ update.promptTokenIds.getD []
        promptTokenIds := r.promptTokenIds.map fun promptTokenIds =>
          promptTokenIds ++ update.promptTokenIds.getD []
        numPromptTokens := (((r.promptTokenIds.map fun promptTokenIds =>
          promptTokenIds ++ update.promptTokenIds.getD []).getD []).length : Int)
        blockHashes := hashes
        arrivalTime := update.arrivalTime
        samplingParams := update.samplingParams } := by
  unfold extendPrompt
  dsimp only
  obtain ⟨hashes, hhashes⟩ := Request.updateBlockHashes_eq self.externals.blockHasher
    { r with
      mmFeatures := r.mmFeatures ++ update.mmFeatures.map fun feature =>
        { feature with mmPosition :=
          { feature.mmPosition with offset := feature.mmPosition.offset + r.numTokens } }
      allTokenIds := r.allTokenIds ++ update.promptTokenIds.getD []
      promptTokenIds := r.promptTokenIds.map fun promptTokenIds =>
        promptTokenIds ++ update.promptTokenIds.getD [] }
  refine ⟨hashes, ?_⟩
  rw [hhashes]

theorem continueSession_requestId (update : StreamingUpdate) (r : Request) :
    (self.continueSession update r).requestId = r.requestId := by
  obtain ⟨hashes, h⟩ := self.extendPrompt_eq update (dropUncomputed r)
  unfold continueSession
  rw [h]
  rfl

theorem Continues.requestId {self : Scheduler W} {r r' : Request} (h : self.Continues r r') :
    r'.requestId = r.requestId := by
  obtain ⟨_, update, rest, _, _, rfl⟩ := h
  exact self.continueSession_requestId update _

theorem OutputEffect.registryOk {self : Scheduler W} {out : SchedulerOutput}
    {mro : ModelRunnerOutput} {start : SchedulerState W} {reqId : RequestId}
    {p p' : SchedulerState W × OutputLocals} (h : self.OutputEffect out mro start reqId p p')
    (hok : RegistryOk p.1) : RegistryOk p'.1 := by
  cases h with
  | touch s acc w => exact hok
  | report s acc request outputs hscheduled hunfinished =>
    apply RegistryOk.updateRequest hok
    rfl
  | deliver w hanswered =>
    apply RegistryOk.updateRequest
    · exact hok
    · exact hanswered.requestId
  | finish w w' hanswered hends hdelayed =>
    apply registryOk_afterFree
    apply RegistryOk.updateRequest
    · exact hok
    · exact hends.requestId.trans hanswered.requestId
  | idle w hanswered hresumable hempty =>
    apply RegistryOk.updateRequest
    · exact hok
    · exact hanswered.requestId
  | proceed w hanswered hcontinues =>
    apply RegistryOk.updateRequest
    · exact hok
    · exact hcontinues.requestId.trans hanswered.requestId

/-! ## 4. Output of a KV connector -/

/-- One change that only the output of a KV connector causes. -/
inductive ConnectorEffect : SchedulerState W → SchedulerState W → Prop where
  | touch (s : SchedulerState W) (w : W) : ConnectorEffect s { s with world := w }
  | loads (s : SchedulerState W) (finishedRecving failedRecving : List RequestId) :
      ConnectorEffect s
        { s with
          finishedRecvingKvReqIds := finishedRecving
          failedRecvingKvReqIds := failedRecving }
  | recompute {s : SchedulerState W} {request : Ref} (numComputedTokens : Int)
      (haffected : request ∈ s.running ∨ (s.objs request).status = .waitingForRemoteKvs) :
      ConnectorEffect s (s.updateRequest request fun r => { r with numComputedTokens })
  | drop {s : SchedulerState W} {request : Ref} (w : W)
      (hregistered : s.requests.get? (s.objs request).requestId = some request)
      (hfinished : (s.objs request).isFinished = true) :
      ConnectorEffect s
        { s with world := w, requests := s.requests.erase (s.objs request).requestId }

abbrev ConnectorEffects : SchedulerState W → SchedulerState W → Prop :=
  Relation.ReflTransGen ConnectorEffect

theorem ConnectorEffect.registryOk {s s' : SchedulerState W} (h : ConnectorEffect s s')
    (hok : RegistryOk s) : RegistryOk s' := by
  cases h with
  | touch w => exact hok
  | loads finishedRecving failedRecving => exact hok
  | recompute numComputedTokens haffected =>
    apply hok.updateRequest
    rfl
  | drop w hregistered hfinished =>
    apply hok.of_shrink
    · exact fun _ => rfl
    · intro reqId x hx
      rw [Dict.get?_erase] at hx
      split at hx
      · cases hx
      · exact hx
    · rfl

/-- The id of a request that invalid blocks can affect. -/
def Affected (s : SchedulerState W) (reqId : RequestId) : Prop :=
  ∃ x, (s.objs x).requestId = reqId ∧ (x ∈ s.running ∨
    (x ∈ s.skippedWaiting ∧ (s.objs x).status = .waitingForRemoteKvs))

/-- Invalid blocks take back computed tokens only, if none was scheduled in the negative. -/
def CutBy (numScheduledTokens : Dict RequestId Int) (r r' : Request) : Prop :=
  ∃ numComputedTokens, r' = { r with numComputedTokens } ∧
    (0 ≤ (numScheduledTokens.get? r.requestId).getD 0 →
      numComputedTokens ≤ max r.numComputedTokens 0)

/-- The state and the locals while invalid blocks are handled; `start` is the
    state before. -/
structure Rescanned (numScheduledTokens : Dict RequestId Int) (start : SchedulerState W)
    (acc : InvalidBlocks) (s : SchedulerState W) : Prop where
  effects : ConnectorEffects start s
  running : s.running = start.running
  objs : ∀ x, CutBy numScheduledTokens (start.objs x) (s.objs x)
  affected : ∀ reqId ∈ acc.affectedReqIds, Affected start reqId

theorem place_lt {blocks : List Nat} {n : Nat} {entry : Nat × Nat}
    (h : entry ∈ blocks.zipIdx.take n) : entry.2 < n := by
  obtain ⟨i, hi⟩ := List.getElem?_of_mem h
  rw [List.getElem?_take] at hi
  split at hi
  · rw [List.getElem?_zipIdx, Option.map_eq_some_iff] at hi
    obtain ⟨block, _, rfl⟩ := hi
    simpa
  · cases hi

/-- The scan of blocks that all begin within this many tokens. -/
theorem scanBlocks_le (invalidBlockIds reqBlockIds : List Nat) (evictBlocks : Bool) {bound : Int}
    {entries : List (Nat × Nat)}
    (hentries : ∀ entry ∈ entries, (entry.2 : Int) * self.blockSize ≤ bound) (scan : InvalidScan)
    (hscan : scan.numComputedTokens ≤ bound) :
    (entries.foldl (self.scanBlock invalidBlockIds reqBlockIds evictBlocks)
      scan).numComputedTokens ≤ bound := by
  induction entries generalizing scan with
  | nil => exact hscan
  | cons entry rest ih =>
    apply ih fun other hother => hentries other (List.mem_cons_of_mem _ hother)
    unfold scanBlock
    split
    · exact hscan
    split
    · exact hscan
    split
    · exact hscan
    · exact hentries entry List.mem_cons_self

/-- The blocks of the first `computed` tokens begin within them. -/
theorem blockStart_le {place : Nat} {computed : Int}
    (h : place < ((computed + self.blockSize - 1) / self.blockSize).toNat) :
    (place : Int) * self.blockSize ≤ max computed 0 := by
  rcases le_or_gt self.blockSize 0 with hsize | hsize
  · have hnonpos := Int.mul_nonpos_of_nonneg_of_nonpos (Int.natCast_nonneg place) hsize
    omega
  · have hplace : (place : Int) + 1 ≤ (computed + self.blockSize - 1) / self.blockSize := by omega
    have hbegins := (Int.le_ediv_iff_mul_le hsize).mp hplace
    rw [Int.add_mul] at hbegins
    omega

theorem updateRequestWithInvalidBlocks_wp (start s : SchedulerState W)
    (invalidBlockIds : List Nat) (numScheduledTokens : Dict RequestId Int) (evictBlocks : Bool)
    (acc : InvalidBlocks) (request : Ref) (hrescanned : Rescanned numScheduledTokens start acc s)
    (haffected : request ∈ start.running ∨ (request ∈ start.skippedWaiting ∧
      (start.objs request).status = .waitingForRemoteKvs)) :
    wp (self.updateRequestWithInvalidBlocks invalidBlockIds numScheduledTokens evictBlocks acc
        request)
      (fun acc' s' => Rescanned numScheduledTokens start acc' s') (fun e _ => Benign e) s := by
  unfold updateRequestWithInvalidBlocks
  rw [wp_bind, wp_get]
  dsimp only
  split
  swap
  · exact benign_valueError _
  rename_i reqBlockIds hblocks
  have hbound := self.scanBlocks_le invalidBlockIds reqBlockIds evictBlocks
    (fun entry (hentry : entry ∈ reqBlockIds.zipIdx.take _) => self.blockStart_le (place_lt hentry))
    { isAffected := false
      markedInvalidBlock := false
      markedInvalidBlockIds := acc.markedInvalidBlockIds
      numComputedTokens := (s.objs request).numComputedTokens -
        (numScheduledTokens.get? (s.objs request).requestId).getD 0
      blocksToEvict := acc.blocksToEvict } (le_max_left _ 0)
  generalize List.foldl _ _ _ = scan at hbound ⊢
  obtain ⟨computed, hrequest, hcomputed⟩ := hrescanned.objs request
  have hcut : CutBy numScheduledTokens (start.objs request)
      { s.objs request with numComputedTokens := scan.numComputedTokens } := by
    rw [hrequest] at hbound ⊢
    refine ⟨scan.numComputedTokens, rfl, fun hcount => ?_⟩
    have hcomputed := hcomputed hcount
    dsimp only at hbound
    omega
  have hinsert : ∀ reqId ∈ (if scan.isAffected = true then
        acc.affectedReqIds.insert (s.objs request).requestId else acc.affectedReqIds),
      Affected start reqId := by
    intro reqId hreqId
    split at hreqId
    · rcases List.mem_insert_iff.mp hreqId with rfl | hreqId
      · exact ⟨request, by rw [hrequest], haffected⟩
      · exact hrescanned.affected reqId hreqId
    · exact hrescanned.affected reqId hreqId
  rw [wp_bind, wp_onlyIf]
  constructor
  · intro _
    rw [wp_modifyRequest, wp_pure]
    exact
      { effects := hrescanned.effects.tail (ConnectorEffect.recompute scan.numComputedTokens (by
          rw [hrescanned.running, hrequest]
          exact haffected.imp_right And.right))
        running := hrescanned.running
        objs := by
          intro x
          rw [SchedulerState.objs_updateRequest]
          split
          · rename_i hx
            subst hx
            exact hcut
          · exact hrescanned.objs x
        affected := hinsert }
  · intro _
    exact
      { effects := hrescanned.effects
        running := hrescanned.running
        objs := hrescanned.objs
        affected := hinsert }

theorem rescanAll_wp (start s : SchedulerState W) (invalidBlockIds : List Nat)
    (numScheduledTokens : Dict RequestId Int) (evictBlocks : Bool) (acc : InvalidBlocks)
    (requests : List Ref) (hrescanned : Rescanned numScheduledTokens start acc s)
    (haffected : ∀ x ∈ requests, x ∈ start.running ∨ (x ∈ start.skippedWaiting ∧
      (start.objs x).status = .waitingForRemoteKvs)) :
    wp (requests.foldlM
        (self.updateRequestWithInvalidBlocks invalidBlockIds numScheduledTokens evictBlocks) acc)
      (fun acc' s' => Rescanned numScheduledTokens start acc' s') (fun e _ => Benign e) s :=
  wp_foldlM (fun x hx acc s h => self.updateRequestWithInvalidBlocks_wp start s invalidBlockIds
    numScheduledTokens evictBlocks acc x h (haffected x hx)) hrescanned

theorem handleInvalidBlocks_wp (s : SchedulerState W) (invalidBlockIds : List Nat)
    (numScheduledTokens : Dict RequestId Int) :
    wp (self.handleInvalidBlocks invalidBlockIds numScheduledTokens)
      (fun failed s' => (ConnectorEffects s s' ∧ ∀ reqId ∈ failed, Affected s reqId) ∧
        ∀ x, CutBy numScheduledTokens (s.objs x) (s'.objs x))
      (fun e _ => Benign e) s := by
  have hstart : Rescanned numScheduledTokens s
      { affectedReqIds := [], blocksToEvict := [], markedInvalidBlockIds := [] } s :=
    { effects := Relation.ReflTransGen.refl
      running := rfl
      objs := fun x => ⟨(s.objs x).numComputedTokens, rfl, fun _ => le_max_left _ _⟩
      affected := fun _ hreqId => by cases hreqId }
  unfold handleInvalidBlocks
  rw [wp_bind, wp_get, wp_bind]
  apply wp_mono (self.rescanAll_wp s s invalidBlockIds numScheduledTokens false _ _ hstart ?_)
  rotate_left
  · exact fun e s' he => he
  · intro x hx
    obtain ⟨hskipped, hstatus⟩ := List.mem_filter.mp hx
    exact Or.inr ⟨(self.requestQueue.iter_perm s.objs s.skippedWaiting).mem_iff.mp hskipped,
      of_decide_eq_true hstatus⟩
  intro asyncFailed s₁ hasync
  rw [wp_bind]
  apply wp_mono (self.rescanAll_wp s s₁ invalidBlockIds numScheduledTokens true _ _
    { effects := hasync.effects
      running := hasync.running
      objs := hasync.objs
      affected := hstart.affected } ?_)
  rotate_left
  · exact fun e s' he => he
  · exact fun x hx => Or.inl hx
  intro syncFailed s₂ hsync
  split
  · exact ⟨⟨hsync.effects, fun _ h => by cases h⟩, hsync.objs⟩
  rw [wp_bind]
  apply wp_mono (TouchesWorld.onlyIf (TouchesWorld.onWorld _ trivial) s₂)
  swap
  · exact fun e s' he => he.1
  rintro _ s₃ ⟨_, w, rfl⟩
  have htouch := hsync.effects.tail (ConnectorEffect.touch s₂ w)
  split
  · refine ⟨⟨htouch, ?_⟩, hsync.objs⟩
    intro reqId hreqId
    rcases List.mem_union_iff.mp hreqId with h | h
    · exact hasync.affected reqId h
    · exact hsync.affected reqId h
  · rw [wp_bind, wp_modify, wp_pure]
    exact ⟨⟨htouch.tail (ConnectorEffect.loads _ _ _), hsync.affected⟩, hsync.objs⟩

theorem updateFromKvXferFinished_wp (s : SchedulerState W) (hok : RegistryOk s)
    (output : KVConnectorOutput) :
    wp (self.updateFromKvXferFinished output)
      (fun _ s' => ConnectorEffects s s' ∧ s'.objs = s.objs) (fun e _ => Benign e) s := by
  have hfree : ∀ s₁ reqId request, ConnectorEffects s s₁ ∧ s₁.objs = s.objs →
      s₁.requests.get? reqId = some request →
      wp (self.freeBlocks request) (fun _ s' => ConnectorEffects s s' ∧ s'.objs = s.objs)
        (fun e _ => Benign e) s₁ := by
    intro s₁ reqId request ⟨hreach, hobjs⟩ hregistered
    have hok₁ : RegistryOk s₁ :=
      invariant_of_chain (fun _ _ h hbefore => h.registryOk hbefore) hreach hok
    rw [← hok₁.carries hregistered] at hregistered
    apply wp_mono (self.freeBlocks_wp s₁ request)
    · rintro _ s' ⟨hfinished, w, rfl⟩
      exact ⟨hreach.tail (ConnectorEffect.drop w hregistered hfinished), hobjs⟩
    · exact fun e s' he => he
  unfold updateFromKvXferFinished
  rw [wp_bind]
  apply wp_mono (TouchesWorld.onlyIf (TouchesWorld.onWorld _ trivial) s)
  swap
  · exact fun e s' he => he.1
  rintro _ s₁ ⟨_, w, rfl⟩
  have htouch : ConnectorEffects s { s with world := w } :=
    Relation.ReflTransGen.single (ConnectorEffect.touch s w)
  rw [wp_bind]
  apply wp_mono (wp_forM (E := fun e _ => Benign e)
    (I := fun s' => ConnectorEffects s s' ∧ s'.objs = s.objs) ?_ ⟨htouch, rfl⟩)
  rotate_left
  · exact fun e s' he => he
  · rintro reqId _ s₂ ⟨hreach, hobjs⟩
    rw [wp_bind, wp_get, wp_bind, wp_getOrRaise]
    refine ⟨fun request hrequest => ?_, fun _ => benign_assertFailed (by decide)⟩
    split
    · exact ⟨hreach.tail (ConnectorEffect.loads s₂ _ s₂.failedRecvingKvReqIds), hobjs⟩
    · rw [wp_bind, wp_pyAssert]
      exact ⟨fun _ => hfree s₂ reqId request ⟨hreach, hobjs⟩ hrequest,
        fun _ => benign_assertFailed (by decide)⟩
  intro _ s₂ hreach₂
  apply wp_forM (E := fun e _ => Benign e)
    (I := fun s' => ConnectorEffects s s' ∧ s'.objs = s.objs) ?_ hreach₂
  intro reqId _ s₃ hreach
  rw [wp_bind, wp_get, wp_bind, wp_getOrRaise]
  exact ⟨fun request hrequest => hfree s₃ reqId request hreach hrequest,
    fun _ => benign_assertFailed (by decide)⟩

theorem finishFailedLoads_wp (s : SchedulerState W) (hok : RegistryOk s)
    (failedKvLoadReqIds : List RequestId) :
    wp (self.finishFailedLoads failedKvLoadReqIds)
      (fun _ s' => self.FinishedBy (some failedKvLoadReqIds) .finishedError s s')
      (fun e _ => Benign e) s := by
  unfold finishFailedLoads
  rw [wp_bind, wp_get, wp_bind]
  apply wp_mono (wp_foldlM (E := fun e _ => Benign e) (I := fun _ s' => s' = s) ?_ rfl)
  rotate_left
  · exact fun e s' he => he
  · rintro reqId _ requests s' rfl
    rw [wp_bind, wp_getOrRaise]
    exact ⟨fun _ _ => rfl, fun _ => benign_keyError⟩
  rintro requests s' rfl
  rw [wp_bind]
  apply wp_mono (self.finishRequests_effects s' hok (some failedKvLoadReqIds) .finishedError)
  · exact fun _ s' h => h
  · exact fun e s' he => he

/-! ## 5. A whole call -/

/-- The first part of `update_from_output`. -/
def handleFailedLoads (scheduler : Scheduler W) (out : SchedulerOutput)
    (mro : ModelRunnerOutput) : SchedM W (List RequestId) :=
  if (mro.kvConnectorOutput.map KVConnectorOutput.invalidBlockIds).getD [] = [] then pure []
  else scheduler.handleInvalidBlocks
    ((mro.kvConnectorOutput.map KVConnectorOutput.invalidBlockIds).getD [])
    out.numScheduledTokens

/-- An `update_from_output` call that returned: the states before and after its
    loop, and how the final state comes from them. -/
structure Updated (scheduler : Scheduler W) (out : SchedulerOutput) (mro : ModelRunnerOutput)
    (s start done : SchedulerState W) (acc : OutputLocals) (s' : SchedulerState W) : Prop where
  invalid : ConnectorEffects s start
  outputs : scheduler.OutputEffects out mro start (start, OutputLocals.init) (done, acc)
  loaded : ∃ failed, (failed = scheduler.removeStopped acc done ∨ ∃ ids,
      (∀ reqId ∈ ids, Affected s reqId) ∧
      scheduler.FinishedBy (some ids) .finishedError (scheduler.removeStopped acc done) failed) ∧
    ConnectorEffects failed s'
  withoutConnector : mro.kvConnectorOutput = none →
    start = s ∧ s' = scheduler.removeStopped acc done
  begins : ∃ failed, scheduler.handleFailedLoads out mro s = .ok failed start
  cut : ∀ x, CutBy out.numScheduledTokens (s.objs x) (start.objs x)
  -- after the loop a request can only be finished
  objs : ∀ x, ∃ status, s'.objs x = { done.objs x with status }

theorem Updated.registryOk {self : Scheduler W} {out : SchedulerOutput} {mro : ModelRunnerOutput}
    {s start done s' : SchedulerState W} {acc : OutputLocals}
    (h : self.Updated out mro s start done acc s') (hok : RegistryOk s) : RegistryOk s' := by
  have hconnector : ∀ {s s' : SchedulerState W}, ConnectorEffects s s' → RegistryOk s →
      RegistryOk s' := fun hchain =>
    invariant_of_chain (fun _ _ heffect hbefore => heffect.registryOk hbefore) hchain
  have hdone : RegistryOk done :=
    invariant_of_chain (I := fun p : SchedulerState W × OutputLocals => RegistryOk p.1)
      (fun _ _ ⟨_, heffect⟩ hbefore => heffect.registryOk hbefore) h.outputs
      (hconnector h.invalid hok)
  obtain ⟨failed, hfailed, hloads⟩ := h.loaded
  apply hconnector hloads
  rcases hfailed with rfl | ⟨ids, _, hfinished⟩
  · exact hdone
  · exact hfinished.registryOk hdone

/-- **`update_from_output`.** -/
theorem updateFromOutput_effects (s : SchedulerState W) (hok : RegistryOk s)
    (out : SchedulerOutput) (mro : ModelRunnerOutput) :
    wp (self.updateFromOutput out mro)
      (fun _ s' => ∃ start done acc, self.Updated out mro s start done acc s')
      (fun e _ => Benign e) s := by
  have hinvalid : wp (self.handleFailedLoads out mro)
      (fun failed start => (ConnectorEffects s start ∧ ∀ reqId ∈ failed, Affected s reqId) ∧
        (∀ x, CutBy out.numScheduledTokens (s.objs x) (start.objs x)) ∧
        ((mro.kvConnectorOutput.map KVConnectorOutput.invalidBlockIds).getD [] = [] →
          failed = [] ∧ start = s))
      (fun e _ => Benign e) s := by
    unfold handleFailedLoads
    split
    · refine ⟨⟨Relation.ReflTransGen.refl, nofun⟩, fun x => ?_, fun _ => ⟨rfl, rfl⟩⟩
      exact ⟨(s.objs x).numComputedTokens, rfl, fun _ => le_max_left _ _⟩
    · rename_i hsome
      apply wp_mono (self.handleInvalidBlocks_wp s _ _)
      · rintro failed start ⟨heffects, hcut⟩
        exact ⟨heffects, hcut, fun hempty => absurd hempty hsome⟩
      · exact fun e s' he => he
  have hbegins : wp (self.handleFailedLoads out mro)
      (fun failed start => self.handleFailedLoads out mro s = .ok failed start)
      (fun _ _ => True) s := wp_of_run (fun _ _ h => h) fun _ _ _ => trivial
  unfold updateFromOutput
  dsimp only
  rw [wp_bind]
  apply wp_mono (wp_and hinvalid hbegins)
  swap
  · exact fun e s' he => he.1
  rintro failed start ⟨⟨⟨hreach, haffected⟩, hcut, hnone⟩, hbegins⟩
  have hok₁ : RegistryOk start :=
    invariant_of_chain (fun _ _ h hbefore => h.registryOk hbefore) hreach hok
  rw [wp_bind]
  apply wp_mono (self.consumeOutputs_effects start hok₁ out mro failed)
  swap
  · exact fun e s' he => he
  intro acc done houtputs
  have hok₂ : RegistryOk done :=
    invariant_of_chain (I := fun p : SchedulerState W × OutputLocals => RegistryOk p.1)
      (fun _ _ ⟨_, h⟩ hbefore => h.registryOk hbefore) houtputs hok₁
  rw [wp_bind, wp_modify, wp_bind]
  have hfailed : wp
      (if failed ≠ [] ∧ self.recomputeKvLoadFailures = false then self.finishFailedLoads failed
      else pure [] : SchedM W (List EngineCoreOutput))
      (fun _ s' => (s' = self.removeStopped acc done ∨
          self.FinishedBy (some failed) .finishedError (self.removeStopped acc done) s') ∧
        (failed = [] → s' = self.removeStopped acc done))
      (fun e _ => Benign e) (self.removeStopped acc done) := by
    split
    · rename_i hsome
      apply wp_mono (self.finishFailedLoads_wp (self.removeStopped acc done) hok₂ failed)
      · exact fun _ s' h => ⟨Or.inr h, fun hempty => absurd hempty hsome.1⟩
      · exact fun e s' he => he
    · exact ⟨Or.inl rfl, fun _ => rfl⟩
  apply wp_mono hfailed
  swap
  · exact fun e s' he => he
  rintro failedOutputs s₁ ⟨hfinished, hsame⟩
  have hok₃ : RegistryOk s₁ := by
    rcases hfinished with rfl | h
    · exact hok₂
    · exact h.registryOk hok₂
  rw [wp_bind]
  have hxfer : wp (mro.kvConnectorOutput.toList.forM self.updateFromKvXferFinished)
      (fun _ s' => (ConnectorEffects s₁ s' ∧ s'.objs = s₁.objs) ∧
        (mro.kvConnectorOutput = none → s' = s₁))
      (fun e _ => Benign e) s₁ := by
    cases mro.kvConnectorOutput with
    | none => exact ⟨⟨Relation.ReflTransGen.refl, rfl⟩, fun _ => rfl⟩
    | some output =>
      change wp (self.updateFromKvXferFinished output >>= fun _ => pure ()) _ _ s₁
      rw [wp_bind]
      apply wp_mono (self.updateFromKvXferFinished_wp s₁ hok₃ output)
      · exact fun _ s' h => ⟨h, nofun⟩
      · exact fun e s' he => he
  apply wp_mono hxfer
  swap
  · exact fun e s' he => he
  rintro _ s' ⟨⟨hloads, hobjs⟩, hstays⟩
  refine ⟨start, done, acc, ?_⟩
  exact
    { invalid := hreach
      outputs := houtputs
      loaded := ⟨s₁, hfinished.imp_right fun h => ⟨failed, haffected, h⟩, hloads⟩
      withoutConnector := by
        intro hempty
        obtain ⟨hfailed, hstart⟩ := hnone (by rw [hempty]; rfl)
        exact ⟨hstart, (hstays hempty).trans (hsame hfailed)⟩
      begins := ⟨failed, hbegins⟩
      cut := hcut
      objs := by
        intro x
        rw [hobjs]
        rcases hfinished with rfl | hdone
        · exact ⟨(done.objs x).status, rfl⟩
        · exact hdone.objs x }

end Scheduler

end Edmm
