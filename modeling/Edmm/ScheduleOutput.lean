/-
  Edmm/ScheduleOutput.lean
  ========================
  **What a `SchedulerOutput` promises to the worker.**

  `schedule()` hands every id of `num_scheduled_tokens` to the worker in exactly one
  entry of the output, within the token budget and within `max_num_running_reqs`; no
  preempted request is among them.  `_update_after_schedule` advances each of them by
  its tokens, from where the worker was told to start (`StepOutput`).

  Both results hold in every run of an engine without a KV connector, as long as its
  late stops are handled (`LateStopsHandled`).
-/
import Edmm.ArrivalOrder
import Edmm.QueueConservation
import Edmm.ScheduleConstraints
import Edmm.WorkerPayload

namespace Edmm

open Program

variable {W : Type}

/-! ## 1. The law -/

/-- What a `schedule()` call from `s` to `s'` promises with its output. -/
structure StepOutput (scheduler : Scheduler W) (s s' : SchedulerState W) (out : SchedulerOutput) :
    Prop where
  /-- Every scheduled request is in exactly one entry. -/
  handedOver : out.numScheduledTokens.keys.Perm
    (out.scheduledNewReqs.map NewRequestData.reqId ++ out.scheduledCachedReqs.reqIds)
  total : out.totalNumScheduledTokens = out.numScheduledTokens.values.sum
  budget : out.totalNumScheduledTokens ≤ scheduler.maxNumScheduledTokens
  room : s'.running.length ≤ scheduler.maxNumRunningReqs
  running : ∀ reqId ∈ out.numScheduledTokens.keys,
    ∃ x ∈ s'.running, s.requests.get? reqId = some x
  drafts : ∀ reqId ∈ out.scheduledSpecDecodeTokens.keys, reqId ∈ out.numScheduledTokens.keys
  encoder : ∀ reqId ∈ out.scheduledEncoderInputs.keys, reqId ∈ out.numScheduledTokens.keys
  preempted : ∀ reqId ∈ out.preemptedReqIds, reqId ∉ out.numScheduledTokens.keys ∧
    ∃ x ∈ s'.waiting, s.requests.get? reqId = some x ∧ (s'.objs x).status = .preempted
  /-- A request is advanced from where the worker starts it. -/
  advanced : ∀ reqId n x, out.numScheduledTokens.get? reqId = some n →
    s.requests.get? reqId = some x →
    ∃ start, out.Starts reqId start ∧ (s'.objs x).numComputedTokens = start + n
  positive : (∀ x ∈ s.running, scheduler.NotAhead (s.objs x)) →
    ∀ reqId n, out.numScheduledTokens.get? reqId = some n → 0 < n

namespace Scheduler

variable {self : Scheduler W} {s : SchedulerState W} {l : StepLocals}

/-! ## 2. Building the output -/

/-- Every request of the output has its new blocks. -/
def HasBlocks (s : SchedulerState W) (l : StepLocals) (requests : List Ref) : Prop :=
  ∀ x ∈ requests, ∃ blocks, l.reqToNewBlocks.get? (s.objs x).requestId = some blocks

theorem newRequestsData_returns {requests : List Ref} (hblocks : HasBlocks s l requests)
    (data : List NewRequestData) :
    wp (requests.foldlM (self.newRequestData l) data) (fun _ s' => s' = s) (fun _ _ => False)
      s := by
  apply wp_foldlM (I := fun _ s' => s' = s)
  · rintro x hx data s' rfl
    obtain ⟨blocks, hget⟩ := hblocks x hx
    unfold newRequestData
    rw [wp_bind, wp_getRequest, wp_bind, wp_getOrRaise, hget]
    exact ⟨fun _ _ => rfl, fun h => by cases h⟩
  · rfl

/-- The only exception is about a resumed request that ran in the previous step. -/
theorem cachedRequests_raises {requests : List Ref} (hblocks : HasBlocks s l requests)
    (htokens : ∀ x ∈ requests, ∃ n, l.numScheduledTokens.get? (s.objs x).requestId = some n)
    (resumed : Bool) (data : CachedRequestData) :
    wp (requests.foldlM (self.addCachedRequest l resumed) data) (fun _ s' => s' = s)
      (fun e _ => self.ScheduleFailure e) s := by
  apply wp_foldlM (I := fun _ s' => s' = s)
  · rintro x hx data s' rfl
    obtain ⟨blocks, hget⟩ := hblocks x hx
    obtain ⟨n, htoken⟩ := htokens x hx
    have hnew : wp
        (if self.usePp && !self.asyncScheduling then do
          let numScheduled ← getOrRaise
            (l.numScheduledTokens.get? (s'.objs x).requestId) .keyError
          let numTokens : Int := numScheduled -
            ((l.scheduledSpecDecodeTokens.get? (s'.objs x).requestId).getD []).length
          pure (data.newTokenIds ++ [Python.slice (s'.objs x).allTokenIds
            (s'.objs x).numComputedTokens
            ((s'.objs x).numComputedTokens + numTokens)])
        else pure data.newTokenIds : SchedM W (List (List Token)))
        (fun _ s'' => s'' = s') (fun e _ => self.ScheduleFailure e) s' := by
      split
      · rw [wp_bind, wp_getOrRaise, htoken]
        exact ⟨fun _ _ => rfl, fun h => by cases h⟩
      · rfl
    unfold addCachedRequest
    rw [wp_bind, wp_get, wp_bind]
    apply wp_mono_ok hnew
    rintro newTokenIds s'' rfl
    rw [wp_bind, wp_pyAssert]
    refine ⟨fun _ => ?_, fun _ => ScheduleFailure.previousStep⟩
    rw [wp_bind, wp_getOrRaise, hget]
    exact ⟨fun _ _ => rfl, fun h => by cases h⟩
  · rfl

/-- The parts of the output that come from the locals. -/
theorem makeSchedulerOutput_account (hblocks : HasBlocks s l (scheduledReqs l))
    (htokens : ∀ x ∈ scheduledReqs l,
      ∃ n, l.numScheduledTokens.get? (s.objs x).requestId = some n) :
    wp (self.makeSchedulerOutput l)
      (fun out _ => out.totalNumScheduledTokens = l.numScheduledTokens.values.sum ∧
        out.scheduledEncoderInputs = l.scheduledEncoderInputs ∧
        out.preemptedReqIds = (l.preemptedReqs.map fun x => (s.objs x).requestId).dedup)
      (fun e _ => self.ScheduleFailure e) s := by
  have hzero : RaisesOnly (fun _ => False)
      (if self.needsKvCacheZeroing then do
        let blockIds ← callWorld self.externals.takeNewBlockIds
        pure (if blockIds = [] then none else some blockIds)
      else pure none : SchedM W (Option (List Nat))) := by
    split
    · exact RaisesOnly.bind (raises_callWorld _) fun _ => RaisesOnly.pure _
    · exact RaisesOnly.pure _
  have hscheduled : ∀ x, x ∈ scheduledReqs l ↔
      x ∈ l.scheduledRunningReqs ∨ x ∈ l.scheduledNewReqs ∨ x ∈ l.scheduledResumedReqs := by
    intro x
    rw [scheduledReqs, List.mem_append, List.mem_append]
  unfold makeSchedulerOutput
  rw [wp_bind, wp_get, wp_bind]
  have hnew : HasBlocks s l
      (if self.useV2ModelRunner then l.scheduledNewReqs ++ l.scheduledResumedReqs
        else l.scheduledNewReqs) := by
    intro x hx
    apply hblocks x
    split at hx
    · exact (hscheduled x).mpr (Or.inr (List.mem_append.mp hx))
    · exact (hscheduled x).mpr (Or.inr (Or.inl hx))
  apply wp_mono_of_returns (newRequestsData_returns hnew [])
  rintro newReqsData s' rfl
  have hresumed : ∀ x ∈ (if self.useV2ModelRunner then [] else l.scheduledResumedReqs),
      x ∈ scheduledReqs l := by
    intro x hx
    split at hx
    · cases hx
    · exact (hscheduled x).mpr (Or.inr (Or.inr hx))
  have hrunning : ∀ x ∈ l.scheduledRunningReqs, x ∈ scheduledReqs l :=
    fun x hx => (hscheduled x).mpr (Or.inl hx)
  rw [wp_bind, makeCachedRequestData, wp_bind]
  apply wp_mono_ok (cachedRequests_raises (fun x hx => hblocks x (hrunning x hx))
    (fun x hx => htokens x (hrunning x hx)) false _)
  rintro running s' rfl
  apply wp_mono_ok (cachedRequests_raises (fun x hx => hblocks x (hresumed x hx))
    (fun x hx => htokens x (hresumed x hx)) true running)
  rintro cachedReqsData s' rfl
  rw [wp_bind, wp_modify, wp_bind]
  apply wp_mono_of_returns (hzero _)
  intro newBlockIdsToZero s₁ _
  rw [wp_bind, wp_callWorld, wp_pure]
  exact ⟨rfl, rfl, rfl⟩

/-! ## 3. Advancing the scheduled requests -/

/-- The request is advanced by its tokens, and its grammar will be needed. -/
def needsGrammar (s : SchedulerState W) (item : RequestId × Int) : Bool :=
  (s.requests.get? item.1).any fun x =>
    (s.objs x).useStructuredOutput && !(advanced item.2 (s.objs x)).isPrefillChunk

/-- The loop of `_update_after_schedule` after some items. -/
structure AdvancedBy (s : SchedulerState W) (done : List (RequestId × Int))
    (s' : SchedulerState W) : Prop where
  requests : s'.requests = s.requests
  advanced : ∀ item ∈ done, ∀ x, s.requests.get? item.1 = some x →
    s'.objs x = Scheduler.advanced item.2 (s.objs x)
  others : ∀ x, (∀ item ∈ done, s.requests.get? item.1 ≠ some x) → s'.objs x = s.objs x

/-- **`_update_after_schedule`** cannot raise, and it advances every request once. -/
theorem updateAfterSchedule_account (hok : RegistryOk s) (out : SchedulerOutput)
    (hregistered : ∀ reqId ∈ out.numScheduledTokens.keys, ∃ x, s.requests.get? reqId = some x) :
    wp (updateAfterSchedule out)
      (fun out' s' => out' = { out with
          hasStructuredOutputRequests := out.hasStructuredOutputRequests ||
            out.numScheduledTokens.items.any (needsGrammar s) } ∧
        AdvancedBy s out.numScheduledTokens.items s')
      (fun _ _ => False) s := by
  have hloop : wp (out.numScheduledTokens.items.foldlM advanceRequest
      out.hasStructuredOutputRequests)
      (fun flag s' => flag = (out.hasStructuredOutputRequests ||
          out.numScheduledTokens.items.any (needsGrammar s)) ∧
        AdvancedBy s out.numScheduledTokens.items s') (fun _ _ => False) s := by
    have hremaining : wp (out.numScheduledTokens.items.foldlM advanceRequest
        out.hasStructuredOutputRequests)
        (fun flag s' => ∃ done, out.numScheduledTokens.items = done ++ [] ∧
          flag = (out.hasStructuredOutputRequests || done.any (needsGrammar s)) ∧
          AdvancedBy s done s') (fun _ _ => False) s := by
      apply wp_foldlM_remaining (I := fun rest flag s' => ∃ done,
        out.numScheduledTokens.items = done ++ rest ∧
        flag = (out.hasStructuredOutputRequests || done.any (needsGrammar s)) ∧
        AdvancedBy s done s') ?_ ⟨[], rfl, by simp, rfl, nofun, fun _ _ => rfl⟩
      rintro item rest flag s' ⟨done, hitems, hflag, hadvanced⟩
      have hkey : item.1 ∈ out.numScheduledTokens.keys :=
        List.mem_map_of_mem (hitems ▸ List.mem_append_right done List.mem_cons_self)
      obtain ⟨x, hx⟩ := hregistered item.1 hkey
      -- the keys of the items differ, and so do the requests registered under them
      have hfresh : ∀ before ∈ done, s.requests.get? before.1 ≠ some x := by
        intro before hbefore hbeforex
        have hnodup := out.numScheduledTokens.nodupKeys
        rw [hitems, List.map_append, List.nodup_append] at hnodup
        apply hnodup.2.2 before.1 (List.mem_map_of_mem hbefore) item.1
          (List.mem_map_of_mem List.mem_cons_self)
        rw [← hok.carries hbeforex, ← hok.carries hx]
      have hsame := hadvanced.others x hfresh
      unfold advanceRequest
      rw [wp_bind, wp_get, wp_bind, wp_getOrRaise, hadvanced.requests, hx]
      refine ⟨?_, fun h => by cases h⟩
      rintro _ ⟨⟩
      rw [wp_bind, wp_modifyRequest, wp_bind, wp_getRequest, wp_pure,
        SchedulerState.objs_updateRequest_self, hsame]
      refine ⟨done ++ [item], by rw [hitems]; simp, ?_, ?_⟩
      · rw [hflag, List.any_append, Bool.or_assoc]
        simp [needsGrammar, hx, Scheduler.advanced]
      · constructor
        · exact hadvanced.requests
        · intro item' hitem' y hy
          rcases List.mem_append.mp hitem' with hbefore | hlast
          · have hne : y ≠ x := by
              rintro rfl
              exact hfresh item' hbefore hy
            rw [SchedulerState.objs_updateRequest_of_ne _ _ hne]
            exact hadvanced.advanced item' hbefore y hy
          · rw [List.mem_singleton.mp hlast, hx] at hy
            cases hy
            rw [List.mem_singleton.mp hlast, SchedulerState.objs_updateRequest_self, hsame]
        · intro y hy
          have hne : y ≠ x := by
            rintro rfl
            exact hy item (List.mem_append_right _ (List.mem_singleton.mpr rfl)) hx
          rw [SchedulerState.objs_updateRequest_of_ne _ _ hne]
          exact hadvanced.others y fun item' hitem' => hy item' (List.mem_append_left _ hitem')
    apply wp_mono_ok hremaining
    rintro flag s' ⟨done, hitems, hflag, hadvanced⟩
    rw [List.append_nil] at hitems
    rw [hitems]
    exact ⟨hflag, hadvanced⟩
  unfold updateAfterSchedule
  rw [wp_bind]
  apply wp_mono_ok hloop
  rintro flag s' ⟨rfl, hadvanced⟩
  exact ⟨rfl, hadvanced.requests, hadvanced.advanced, hadvanced.others⟩

/-! ## 4. The output of a step -/

section
variable {rule : QueueRule self} {s₁ s₂ s₃ s' : SchedulerState W} {budget : Int}
  {out : SchedulerOutput}

/-- The entries of the output name the scheduled requests. -/
theorem IsOutputOf.reqIds_perm (hout : self.IsOutputOf s l out) :
    (out.scheduledNewReqs.map NewRequestData.reqId ++ out.scheduledCachedReqs.reqIds).Perm
      ((scheduledReqs l).map fun x => (s.objs x).requestId) := by
  have hnew : ∀ {requests : List Ref} {data : List NewRequestData},
      List.Forall₂ (self.IsNewRequestData l s) requests data →
      data.map NewRequestData.reqId = requests.map fun x => (s.objs x).requestId := by
    intro requests data hdata
    induction hdata with
    | nil => rfl
    | cons hfirst _ ih =>
      obtain ⟨blocks, rfl, _⟩ := hfirst
      rw [List.map_cons, List.map_cons, ih]
      rfl
  rw [hnew hout.newReqs, hout.cachedReqIds, ← List.map_append]
  apply List.Perm.map
  unfold scheduledReqs
  split
  · rw [List.append_nil]
    exact List.perm_append_comm
  · rw [← List.append_assoc, ← List.append_assoc]
    exact List.perm_append_comm.append_right _

/-- The worker starts a scheduled request at its computed tokens. -/
theorem IsOutputOf.starts (hout : self.IsOutputOf s l out) {x : Ref} (hx : x ∈ scheduledReqs l) :
    out.Starts (s.objs x).requestId (s.objs x).numComputedTokens := by
  have hnew : x ∈ (if self.useV2ModelRunner then l.scheduledNewReqs ++ l.scheduledResumedReqs
        else l.scheduledNewReqs) →
      out.Starts (s.objs x).requestId (s.objs x).numComputedTokens := by
    intro hmem
    obtain ⟨data, hdata, blocks, rfl, _⟩ := (exists_of_forall₂ hout.newReqs).1 x hmem
    exact Or.inl ⟨_, hdata, rfl, rfl⟩
  have hcached : x ∈ (l.scheduledRunningReqs ++
        if self.useV2ModelRunner then [] else l.scheduledResumedReqs) →
      out.Starts (s.objs x).requestId (s.objs x).numComputedTokens := by
    intro hmem
    refine Or.inr ?_
    rw [hout.cachedReqIds, hout.cachedComputedTokens, List.zip_map']
    exact List.mem_map.mpr ⟨x, hmem, rfl⟩
  rw [scheduledReqs, List.mem_append, List.mem_append] at hx
  cases hv2 : self.useV2ModelRunner with
  | true =>
    rw [hv2] at hnew hcached
    rcases hx with hx | hx
    · exact hcached (List.mem_append_left _ hx)
    · exact hnew (by simpa using hx)
  | false =>
    rw [hv2] at hnew hcached
    rcases hx with hx | hx | hx
    · exact hcached (List.mem_append_left _ hx)
    · exact hnew (by simpa using hx)
    · exact hcached (List.mem_append_right _ (by simpa using hx))

/-- A scheduled request is registered under its id. -/
theorem StepInOrder.registered (h : StepInOrder rule s budget s₁ l) (hready : ReadyForStep rule s)
    {x : Ref} (hx : x ∈ heldQueues s₁ l.stepSkippedWaiting) :
    s.requests.get? (s.objs x).requestId = some x := by
  have hheld := h.held.mem_iff.mp hx
  have hqueued : Queued s x := by simpa [heldQueues, waitingQueues, Queued] using hheld
  exact hready.registered.registered x hqueued (hready.inOrder.unfinished hheld)

theorem StepInOrder.stepOutput (h : StepInOrder rule s budget s₁ l)
    (hready : ReadyForStep rule s) (hbudget : budget ≤ self.maxNumScheduledTokens)
    (hout : self.IsOutputOf s₁ l out)
    (htotal : out.totalNumScheduledTokens = l.numScheduledTokens.values.sum)
    (hencoder : out.scheduledEncoderInputs = l.scheduledEncoderInputs)
    (hpreempted : out.preemptedReqIds = (l.preemptedReqs.map fun x => (s₁.objs x).requestId).dedup)
    (hobjs : s₂.objs = s₁.objs) (hrequests : s₂.requests = s₁.requests)
    (hadvanced : AdvancedBy s₂ out.numScheduledTokens.items s')
    (hrunning : s'.running = s₁.running) (hwaiting : s'.waiting = s₁.waiting)
    (hstatus : ∀ x, (s'.objs x).status = (s₁.objs x).status) : StepOutput self s s' out := by
  have hid : ∀ x, (s₁.objs x).requestId = (s.objs x).requestId := h.sameRegistry.requestId
  have hids : DistinctIds (fun x => (s.objs x).requestId) s₁.running :=
    h.distinct.mono fun x hx => h.held.mem_iff.mp (mem_heldQueues.mpr (Or.inl hx))
  have hkeys : out.numScheduledTokens.keys.Perm
      ((scheduledReqs l).map fun x => (s.objs x).requestId) := by
    rw [hout.numScheduledTokens]
    exact h.account.tokens.keys_perm (h.account.distinct hids) h.account.once
  have hscheduled : ∀ reqId ∈ out.numScheduledTokens.keys,
      ∃ x ∈ scheduledReqs l, (s.objs x).requestId = reqId :=
    fun reqId hkey => List.mem_map.mp (hkeys.mem_iff.mp hkey)
  have hregistered : ∀ x ∈ scheduledReqs l, s.requests.get? (s.objs x).requestId = some x :=
    fun x hx => h.registered hready (mem_heldQueues.mpr (Or.inl (h.account.inRunning x hx)))
  constructor
  · refine hkeys.trans (List.Perm.trans ?_ hout.reqIds_perm.symm)
    simp only [hid]
    exact List.Perm.refl _
  · rw [htotal, hout.numScheduledTokens]
  · have hbalance := h.account.balance
    have hsolvent := h.account.solvent
    omega
  · rw [hrunning]
    exact h.fits
  · intro reqId hkey
    obtain ⟨x, hx, rfl⟩ := hscheduled reqId hkey
    rw [hrunning]
    exact ⟨x, h.account.inRunning x hx, hregistered x hx⟩
  · rw [hout.scheduledSpecDecodeTokens, hout.numScheduledTokens]
    exact h.account.spec
  · rw [hencoder, hout.numScheduledTokens]
    exact h.account.encoder
  · intro reqId hmem
    rw [hpreempted, List.mem_dedup, List.mem_map] at hmem
    obtain ⟨x, hx, rfl⟩ := hmem
    obtain ⟨hxwaiting, hxstatus⟩ := h.preempted x hx
    have hheld : x ∈ heldQueues s₁ l.stepSkippedWaiting :=
      mem_heldQueues.mpr (Or.inr (mem_waitingQueues.mpr (Or.inl hxwaiting)))
    rw [hid]
    refine ⟨?_, x, hwaiting ▸ hxwaiting, h.registered hready hheld, (hstatus x).trans hxstatus⟩
    intro hkey
    obtain ⟨y, hy, hyid⟩ := hscheduled _ hkey
    have hsame := (hregistered y hy).symm.trans (hyid ▸ h.registered hready hheld)
    cases hsame
    exact h.account.preempted _ hx (h.account.inRunning _ hy)
  · intro reqId n x hn hx
    obtain ⟨y, hy, rfl⟩ := hscheduled reqId (Dict.mem_keys_iff.mpr ⟨n, hn⟩)
    have hxy : x = y := Option.some.inj (hx.symm.trans (hregistered y hy))
    subst hxy
    refine ⟨(s₁.objs x).numComputedTokens, by rw [← hid]; exact hout.starts hy, ?_⟩
    have hitem := Dict.mem_items_iff.mpr hn
    rw [hadvanced.advanced _ hitem x (by rw [hrequests, h.sameRegistry.requests]; exact hx), hobjs]
    rfl
  · intro hahead reqId n hn
    rw [hout.numScheduledTokens] at hn
    exact h.charged hahead reqId n hn

/-- The flag of the structured output says nothing about what is handed out. -/
theorem StepOutput.withFlag (h : StepOutput self s s' out) (flag : Bool) :
    StepOutput self s s' { out with hasStructuredOutputRequests := flag } :=
  ⟨h.handedOver, h.total, h.budget, h.room, h.running, h.drafts, h.encoder, h.preempted,
    h.advanced, h.positive⟩

/-- The rest of `schedule()` after its loops. -/
theorem StepInOrder.conclude (h : StepInOrder rule s budget s₁ l) (hready : ReadyForStep rule s)
    (hbudget : budget ≤ self.maxNumScheduledTokens) (skippedWaiting : List Ref) :
    wp (do
        self.checkConstraints l
        let out ← self.makeSchedulerOutput l
        onlyIf (self.hasConnector = true)
          (onWorld fun w => self.externals.buildConnectorMeta w out)
        onlyIf (self.hasEcConnector = true)
          (onWorld fun w => self.externals.ecBuildConnectorMeta w out)
        updateAfterSchedule out)
      (fun out s' => StepOutput self s s' out) (fun e _ => self.ScheduleFailure e)
      { s₁ with skippedWaiting } := by
  have hid : ∀ x, (s₁.objs x).requestId = (s.objs x).requestId := h.sameRegistry.requestId
  have hok : RegistryOk s₁ := h.sameRegistry.registryOk hready.registered.registry
  have hblocks : HasBlocks { s₁ with skippedWaiting } l (scheduledReqs l) := by
    intro x hx
    dsimp only
    rw [hid]
    exact h.account.blocks.get?_isSome hx
  have htokens : ∀ x ∈ scheduledReqs l,
      ∃ n, l.numScheduledTokens.get? (s₁.objs x).requestId = some n := by
    intro x hx
    rw [hid]
    exact h.account.tokens.get?_isSome hx
  rw [wp_bind]
  apply wp_mono_of_returns (h.checkConstraints hbudget skippedWaiting)
  rintro _ s' rfl
  rw [wp_bind]
  apply wp_mono (wp_and (self.makeSchedulerOutput_wp { s₁ with skippedWaiting } l)
    (makeSchedulerOutput_account hblocks htokens))
  swap
  · exact fun e s' he => he.2
  rintro out s' ⟨⟨hout, w, rfl⟩, htotal, hencoder, hpreempted⟩
  apply wp_buildMeta
  intro w'
  have hregistered : ∀ reqId ∈ out.numScheduledTokens.keys,
      ∃ x, s₁.requests.get? reqId = some x := by
    intro reqId hkey
    rw [hout.numScheduledTokens] at hkey
    obtain ⟨x, hx, rfl⟩ := (h.account.tokens reqId).mp hkey
    refine ⟨x, ?_⟩
    rw [h.sameRegistry.requests]
    exact h.registered hready (mem_heldQueues.mpr (Or.inl (h.account.inRunning x hx)))
  apply wp_mono (wp_and (updateAfterSchedule_wp _ out)
    (updateAfterSchedule_account
      (s := { s₁ with
        skippedWaiting
        prevStepScheduledReqIds := l.numScheduledTokens.keys
        world := w' }) ⟨hok.1, hok.2⟩ out hregistered))
  swap
  · exact fun e s' he => he.2.elim
  rintro out' s' ⟨⟨_, s₂, heffects, rfl⟩, rfl, hadvanced⟩
  obtain ⟨⟨objs, rfl⟩, hobjs⟩ := heffects.unchanged
  have hout' : self.IsOutputOf s₁ l out :=
    { numScheduledTokens := hout.numScheduledTokens
      scheduledSpecDecodeTokens := hout.scheduledSpecDecodeTokens
      newReqs := hout.newReqs
      cachedReqIds := hout.cachedReqIds
      cachedComputedTokens := hout.cachedComputedTokens
      allTokenIds := hout.allTokenIds }
  have hstatus : ∀ x, (objs x).status = (s₁.objs x).status := by
    intro x
    obtain ⟨computed, chunk, hx⟩ := hobjs x
    dsimp only at hx
    rw [hx]
  apply StepOutput.withFlag
  refine h.stepOutput hready hbudget hout' htotal hencoder hpreempted ?_ ?_ hadvanced ?_ ?_
    hstatus
  all_goals rfl

/-- **`schedule()`** hands out what it promises, or raises one of the exceptions of
    `ScheduleFailure`. -/
theorem schedule_account (hrule : rule.skipped .waitingForRemoteKvs → self.hasConnector = true)
    (hbudget : 0 ≤ self.maxNumScheduledTokens) (hready : ReadyForStep rule s) :
    wp self.schedule (fun out s' => StepOutput self s s' out) (fun e _ => self.ScheduleFailure e)
      s := by
  have hstart : (0 : Int) ≤ (if s.pauseState = .pausedAll then 0 else self.maxNumScheduledTokens) ∧
      (if s.pauseState = .pausedAll then 0 else self.maxNumScheduledTokens) ≤
        self.maxNumScheduledTokens := by
    split <;> omega
  have hloop := hready.inRunningLoop hstart.1 self.maxNumEncoderInputTokens
    (self.externals.newStepStarts s.world)
  have hfirst : self.RunningEffects
      (s, self.startLocals s)
      ({ s with world := self.externals.newStepStarts s.world }, self.startLocals s) :=
    Relation.ReflTransGen.single (RunningEffect.touch s (self.startLocals s) _)
  unfold schedule
  rw [wp_bind, wp_get, wp_bind, wp_onWorld, wp_bind]
  apply wp_mono (wp_and (self.runningLoop_effects s.running.length _ (self.startLocals s))
    (runningLoop_account s.running.length hloop nofun hready.refundable))
  swap
  · exact fun e s' he => he.2
  rintro l₁ s₁ ⟨heffects, hloop₁⟩
  have hstep := hloop₁.stepInOrder hready rfl (hfirst.trans heffects)
  have hskipped : l₁.stepSkippedWaiting = [] :=
    invariant_of_chain (I := fun p : Frame W => p.2.stepSkippedWaiting = [])
      (fun p p' h hp => h.unchanged.2.trans hp) (hfirst.trans heffects) rfl
  rw [wp_bind]
  apply wp_mono (wp_and_raisesOnly (self.recordScheduledLoras_wp s₁ l₁)
    recordScheduledLoras_raises)
  swap
  · exact fun e s' he => he.2
  rintro l₂ s₂ ⟨rfl, scheduledLoras, rfl⟩
  rw [wp_bind]
  apply wp_mono_ok (scheduleWaiting_account hrule (hstep.withLoras scheduledLoras) hskipped)
  rintro l₃ s₃ ⟨s₄, hstep', rfl⟩
  exact hstep'.conclude hready hstart.2 _

end

/-! ## 5. Runs -/

/-- A call that returned asserted `len(self.running) <= self.max_num_running_reqs`. -/
theorem schedule_fits (s : SchedulerState W) :
    wp self.schedule (fun _ s' => s'.running.length ≤ self.maxNumRunningReqs) (fun _ _ => True)
      s := by
  have hfinish : ∀ (s : SchedulerState W) (l : StepLocals), wp
      (do
        self.checkConstraints l
        let out ← self.makeSchedulerOutput l
        onlyIf (self.hasConnector = true)
          (onWorld fun w => self.externals.buildConnectorMeta w out)
        onlyIf (self.hasEcConnector = true)
          (onWorld fun w => self.externals.ecBuildConnectorMeta w out)
        updateAfterSchedule out)
      (fun _ s' => s'.running.length ≤ self.maxNumRunningReqs) (fun _ _ => True) s := by
    intro s l
    by_cases hfits : s.running.length ≤ self.maxNumRunningReqs
    · apply wp_mono_ok (self.finishSchedule_queues s l)
      rintro _ s' ⟨hrunning, _⟩
      rw [hrunning]
      exact hfits
    · have hraises : wp (self.checkConstraints l) (fun _ _ => False) (fun _ _ => True) s := by
        unfold checkConstraints
        rw [wp_bind, wp_get, wp_bind, wp_pyAssert]
        refine ⟨fun _ => ?_, fun _ => trivial⟩
        rw [wp_bind, wp_pyAssert]
        refine ⟨fun _ => ?_, fun _ => trivial⟩
        rw [wp_bind, wp_pyAssert]
        exact ⟨fun h => absurd h hfits, fun _ => trivial⟩
      rw [wp_bind]
      exact wp_mono_ok hraises fun _ _ h => h.elim
  have hany : ∀ {α : Type} (prog : SchedM W α) (s : SchedulerState W),
      wp prog (fun _ _ => True) (fun _ _ => True) s :=
    fun _ _ => wp_of_run (fun _ _ _ => trivial) fun _ _ _ => trivial
  unfold schedule
  rw [wp_bind, wp_get, wp_bind, wp_onWorld, wp_bind]
  apply wp_mono_ok (hany _ _)
  intro l s₁ _
  rw [wp_bind]
  apply wp_mono_ok (hany _ _)
  intro l s₂ _
  rw [wp_bind]
  apply wp_mono_ok (hany _ _)
  intro l s₃ _
  exact hfinish s₃ l

section
variable {objs : Ref → Request} {edmmHook : Option EdmmSchedulerHook} {w : W}
  {history : List (SchedulerStep W)} {s : SchedulerState W}
  {hconnector : self.hasConnector = false}

/-- What every operation of a local run keeps. -/
structure Schedulable {scheduler : Scheduler W} (hconnector : scheduler.hasConnector = false)
    (s : SchedulerState W) : Prop where
  conserves : Conserves hconnector s
  fits : s.running.length ≤ scheduler.maxNumRunningReqs

theorem Conserves.traceless (hs : Conserves hconnector s) :
    Conserves hconnector (traceless s) :=
  hs.of_statuses { requests := rfl, nextRef := rfl, requestId := fun _ => rfl }
    rfl rfl rfl fun _ => rfl

theorem schedulable_of_run
    (run : SchedulerRun self (SchedulerState.init objs edmmHook w) history s)
    (hlocal : ∀ step ∈ history, step.op.WithoutConnector)
    (hstops : ∀ step ∈ history, SchedulerStep.StopsHandled self step) :
    Schedulable hconnector s := by
  apply Machine.Run.invariant
    (I := Schedulable hconnector) (P := fun step : SchedulerStep W =>
      step.op.WithoutConnector ∧ SchedulerStep.StopsHandled self step) _ run
    (fun step hstep => ⟨hlocal step hstep, hstops step hstep⟩)
    ⟨conserves_init objs edmmHook w, Nat.zero_le _⟩
  intro s s' op output hs hexec hpermitted
  have heffect := effect_of_exec hs.conserves.registry hexec
  refine ⟨heffect.conserves hpermitted.1 hpermitted.2 hs.conserves.traceless, ?_⟩
  by_cases hop : op = .schedule
  · subst hop
    have hfits : wp (SchedulerOp.exec self .schedule)
        (fun _ s' => s'.running.length ≤ self.maxNumRunningReqs) (fun _ _ => True) s := by
      unfold SchedulerOp.exec SchedulerOp.run
      rw [wp_bind, wp_modify, wp_bind]
      exact wp_mono_ok (schedule_fits _) fun _ _ h => h
    exact wp_ok hfits hexec
  · exact (heffect.running_sublist hop).length_le.trans hs.fits

theorem Schedulable.readyForStep (hs : Schedulable hconnector s)
    (hrefundable : self.Refundable s) : ReadyForStep (localRule hconnector) s where
  inOrder := hs.conserves.inOrder
  registered :=
    { registry := hs.conserves.registry
      heldKnown := by
        intro x hx
        have hheld : x ∈ heldQueues s [] := by simpa [heldQueues, waitingQueues, Queued] using hx
        exact hs.conserves.registry.known ((hs.conserves.registered x).mp hheld)
      registered := by
        intro x hx _
        have hheld : x ∈ heldQueues s [] := by simpa [heldQueues, waitingQueues, Queued] using hx
        exact (hs.conserves.registered x).mp hheld }
  fits := hs.fits
  refundable := hrefundable

/-- One `schedule()` operation, whose trace starts empty. -/
theorem Schedulable.exec (hs : Schedulable hconnector s) (hrefundable : self.Refundable s)
    (hbudget : 0 ≤ self.maxNumScheduledTokens) :
    wp (SchedulerOp.exec self .schedule)
      (fun output s' => ∃ out, output = some out ∧ StepOutput self s s' out)
      (fun e _ => self.ScheduleFailure e) s := by
  have hready : ReadyForStep (localRule hconnector) (traceless s) :=
    Schedulable.readyForStep ⟨hs.conserves.traceless, hs.fits⟩ hrefundable
  have hrule : (localRule hconnector).skipped .waitingForRemoteKvs →
      self.hasConnector = true := fun h => absurd rfl h.2
  unfold SchedulerOp.exec SchedulerOp.run
  rw [wp_bind, wp_modify, wp_bind]
  apply wp_mono_ok (schedule_account hrule hbudget hready)
  intro out s' h
  exact ⟨out, rfl, h.handedOver, h.total, h.budget, h.room, h.running, h.drafts, h.encoder,
    h.preempted, h.advanced, h.positive⟩

/-- **The scheduling constraints hold**: whatever `schedule()` raises after a local run is
    one of the exceptions of `ScheduleFailure`, and none of its accounts fails. -/
theorem scheduleConstraints_run (hconnector : self.hasConnector = false)
    (run : SchedulerRun self (SchedulerState.init objs edmmHook w) history s)
    (hlocal : ∀ step ∈ history, step.op.WithoutConnector)
    (hstops : ∀ step ∈ history, SchedulerStep.StopsHandled self step)
    (hbudget : 0 ≤ self.maxNumScheduledTokens) (hrefundable : self.Refundable s) :
    wp (SchedulerOp.exec self .schedule) (fun _ _ => True) (fun e _ => self.ScheduleFailure e)
      s := by
  have hs : Schedulable hconnector s := schedulable_of_run run hlocal hstops
  exact wp_mono_ok (hs.exec hrefundable hbudget) fun _ _ _ => trivial

/-- The late stops of a step are handled if every request that does not run is in
    `waiting` and no session. -/
theorem stopsHandled_of_waiting {step : SchedulerStep W}
    (h : ∀ reqId ∈ step.before.requests.keys, ∀ x ∈ step.before.unfinished? reqId,
      (step.before.objs x).status = .running ∨
        (x ∈ step.before.waiting ∧ (step.before.objs x).resumable = false)) :
    SchedulerStep.StopsHandled self step := by
  intro out mro _
  apply lateStopsHandled_of_waiting
  intro reqId _ x hx
  have hkey : reqId ∈ step.before.requests.keys := by
    rw [Dict.mem_keys_iff]
    exact ⟨x, (step.before.unfinished?_eq_some.mp hx).1⟩
  exact h reqId hkey x hx

/-- A request is preempted, its last output arrives late, and the next one is scheduled. -/
theorem scheduleConstraints_run_late : ∃ history s, SchedulerRun roomy start history s ∧
    history.length = 5 ∧ s.requests.keys = ["b"] ∧
    wp (SchedulerOp.exec roomy .schedule) (fun _ _ => True) (fun e _ => roomy.ScheduleFailure e)
      s := by
  have hplayed : ∃ p ∈ roomy.play start
      [.op (.addRequest (.text "a" [1, 2, 3] 1 false)), .op .schedule,
        .op (.resetPrefixCache true false), .deliver 0 [("a", [4])],
        .op (.addRequest (.text "b" [5, 6] 8 false))],
      p.1.length = 5 ∧ p.2.requests.keys = ["b"] ∧ (∀ step ∈ p.1, step.op.WithoutConnector) ∧
        ∀ step ∈ p.1, ∀ reqId ∈ step.before.requests.keys,
          ∀ x ∈ step.before.unfinished? reqId,
            (step.before.objs x).status = .running ∨
              (x ∈ step.before.waiting ∧ (step.before.objs x).resumable = false) := by
    decide +kernel
  obtain ⟨⟨history, s⟩, hhistory, hlength, hkeys, hlocal, hplain⟩ := hplayed
  have run := run_of_play (Option.mem_def.mp hhistory)
  exact ⟨history, s, run, hlength, hkeys, scheduleConstraints_run rfl run hlocal
    (fun step hstep => stopsHandled_of_waiting (hplain step hstep)) (by decide) (Or.inl rfl)⟩

/-- **Every output keeps its promises** in such a run. -/
theorem stepOutput_run (hconnector : self.hasConnector = false)
    (run : SchedulerRun self (SchedulerState.init objs edmmHook w) history s)
    (hlocal : ∀ step ∈ history, step.op.WithoutConnector)
    (hstops : ∀ step ∈ history, SchedulerStep.StopsHandled self step)
    (hbudget : 0 ≤ self.maxNumScheduledTokens) {step : SchedulerStep W} (hstep : step ∈ history)
    (hop : step.op = .schedule) (hrefundable : self.Refundable step.before) :
    ∃ out, step.output = some out ∧ StepOutput self step.before step.after out := by
  obtain ⟨earlier, later, rfl⟩ := List.append_of_mem hstep
  obtain ⟨hearlier, hexec, _⟩ := run.split rfl
  have hs : Schedulable hconnector step.before :=
    schedulable_of_run hearlier
      (fun step h => hlocal step (List.mem_append_left _ h))
      (fun step h => hstops step (List.mem_append_left _ h))
  rw [hop] at hexec
  exact wp_ok (hs.exec hrefundable hbudget) hexec

end

/-- Two requests run, until there is no room for the second token of the first one. -/
theorem stepOutput_run_preempted : ∃ history s, SchedulerRun cramped start history s ∧
    ∃ step ∈ history, (∃ out ∈ step.output, out.preemptedReqIds = ["b", "a"]) ∧
      ∃ out, step.output = some out ∧ StepOutput cramped step.before step.after out := by
  have hplayed : ∃ p ∈ cramped.play start
      [.op (.addRequest (.text "a" [1, 2, 3] 8 false)),
        .op (.addRequest (.text "b" [5, 6] 8 false)), .op .schedule,
        .deliver 0 [("a", [4]), ("b", [7])], .op .schedule],
      (∀ step ∈ p.1, step.op.WithoutConnector) ∧
        (∀ step ∈ p.1, ∀ reqId ∈ step.before.requests.keys,
          ∀ x ∈ step.before.unfinished? reqId,
            (step.before.objs x).status = .running ∨
              (x ∈ step.before.waiting ∧ (step.before.objs x).resumable = false)) ∧
        ∃ step ∈ p.1[4]?, step.op matches .schedule ∧
          ∃ out ∈ step.output, out.preemptedReqIds = ["b", "a"] := by
    decide +kernel
  obtain ⟨⟨history, s⟩, hhistory, hlocal, hplain, step, hstep, hop, hout⟩ := hplayed
  have run := run_of_play (Option.mem_def.mp hhistory)
  have hmem : step ∈ history := List.mem_of_getElem? (Option.mem_def.mp hstep)
  refine ⟨history, s, run, step, hmem, hout, stepOutput_run rfl run hlocal
    (fun step hstep => stopsHandled_of_waiting (hplain step hstep)) (by decide) hmem ?_
    (Or.inl rfl)⟩
  cases hcase : step.op with
  | schedule => rfl
  | _ => simp [hcase] at hop

end Scheduler

end Edmm
