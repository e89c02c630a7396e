/-
  Edmm/WorkerPayload.lean
  =======================
  **What the worker is sent of the requests that `schedule()` hands over.**

  A resumed tool call is WAITING again, whatever it generated before the pause, and
  so the worker gets its prompt without these tokens
  (`resumed_toolCall_loses_output`).  The promotion of a loaded request restores
  PREEMPTED.  As long as only requests without output tokens are promoted this way,
  and outputs and session updates come for requests that the worker knows, every
  request is handed over with its tokens (`workerPayload_run`).
-/
import Edmm.PayloadInvariant

namespace Edmm

open Program

variable {W : Type}

/-! ## 1. The law -/

/-- The computed tokens that the worker is told to start a request at. -/
def SchedulerOutput.Starts (out : SchedulerOutput) (reqId : RequestId) (start : Int) : Prop :=
  (∃ data ∈ out.scheduledNewReqs, data.reqId = reqId ∧ data.numComputedTokens = start) ∨
    (reqId, start) ∈ out.scheduledCachedReqs.reqIds.zip out.scheduledCachedReqs.numComputedTokens

/-- The output of a `schedule()` call in `s` hands the requests over.  `tokens` is what the
    worker held before. -/
structure HandsOver (tokens : WorkerTokens) (s : SchedulerState W) (out : SchedulerOutput) :
    Prop where
  /-- A new request has no output tokens. -/
  new : ∀ data ∈ out.scheduledNewReqs, ∃ r, s.requests.get? data.reqId = some r ∧
    (s.objs r).outputTokenIds = []
  /-- A request with output tokens, or preempted before, is running or resumed, and sent
      whole if it was not scheduled in the previous step. -/
  cached : ∀ reqId ∈ out.numScheduledTokens.keys, ∃ r, s.requests.get? reqId = some r ∧
    ((s.objs r).outputTokenIds ≠ [] ∨ (s.objs r).numPreemptions ≠ 0 →
      reqId ∈ out.scheduledCachedReqs.reqIds ∧ (reqId ∉ s.prevStepScheduledReqIds →
        out.scheduledCachedReqs.allTokenIds.get? reqId = some (s.objs r).allTokenIds))
  /-- The worker is told where each request starts. -/
  started : ∀ reqId ∈ out.numScheduledTokens.keys, ∃ start, out.Starts reqId start
  /-- The worker holds the tokens at the scheduled positions, or gets them as drafts. -/
  covered : ∀ reqId n start, out.numScheduledTokens.get? reqId = some n →
    out.Starts reqId start → ∀ position : Nat, start ≤ position → (position : Int) < start + n →
      position < tokens.receive out reqId +
        ((out.scheduledSpecDecodeTokens.get? reqId).getD []).length

/-- The next input of a session waits in its queue. -/
def Request.hasNextInput (r : Request) : Bool :=
  match r.streamingQueue with
  | some (some _ :: _) => true
  | _ => false

/-- What `update_from_output` must find of a request with an output: if it is to be given to
    the worker as new, nothing was generated for it; a session is RUNNING if it is in
    `running`, and it continues only if it was never preempted. -/
structure Answerable (mro : ModelRunnerOutput) (reqId : RequestId) (s : SchedulerState W)
    (x : Ref) : Prop where
  known : (s.objs x).WaitsAsNew → WorkerTokens.generated mro reqId = 0
  idles : (s.objs x).resumable = true → x ∈ s.running → (s.objs x).status = .running
  continues : (s.objs x).resumable = true → (s.objs x).hasNextInput = true →
    (s.objs x).numPreemptions = 0

instance (mro : ModelRunnerOutput) (reqId : RequestId) (s : SchedulerState W) (x : Ref) :
    Decidable (Answerable mro reqId s x) :=
  have : Decidable (s.objs x).WaitsAsNew := inferInstanceAs (Decidable (_ ∨ _ ∨ _))
  decidable_of_iff
    (((s.objs x).WaitsAsNew → WorkerTokens.generated mro reqId = 0) ∧
      ((s.objs x).resumable = true → x ∈ s.running → (s.objs x).status = .running) ∧
      ((s.objs x).resumable = true → (s.objs x).hasNextInput = true →
        (s.objs x).numPreemptions = 0))
    ⟨fun ⟨hknown, hidles, hcontinues⟩ => ⟨hknown, hidles, hcontinues⟩,
      fun h => ⟨h.known, h.idles, h.continues⟩⟩

/-- What a step must meet: a session that was preempted gets no further input,
    `schedule()` finds only promotions that it can hand over, and the outputs are those of
    requests that the worker was given. -/
def SchedulerStep.KeepsPayloads (step : SchedulerStep W) : Prop :=
  match step.op with
  | .addRequest params => params.resumable = true →
      ∀ existing ∈ step.before.requests.get? params.requestId,
        (step.before.objs existing).status = .waitingForStreamingReq →
        (step.before.objs existing).numPreemptions = 0
  | .schedule => ReadyToSchedule step.before
  | .updateFromOutput out mro => ∀ reqId ∈ out.numScheduledTokens.keys,
      ∀ x ∈ step.before.unfinished? reqId, Answerable mro reqId step.before x
  | _ => True

instance (step : SchedulerStep W) : Decidable (SchedulerStep.KeepsPayloads step) := by
  unfold SchedulerStep.KeepsPayloads
  split <;> infer_instance

/-- Every output of the run hands its requests over. -/
def HandsOverAll (history : List (SchedulerStep W)) : Prop :=
  ∀ earlier step later, history = earlier ++ step :: later → ∀ out ∈ step.output,
    HandsOver (workerTokens earlier) step.before out

theorem Sent.queued {s : SchedulerState W} {x : Ref} (h : Sent s (Queued s) x) : Queued s x := by
  rcases h with hrunning | ⟨hqueued, _⟩
  · exact Or.inl hrunning
  · exact hqueued

/-! ## 2. `schedule()` -/

namespace Scheduler

variable {self : Scheduler W}

/-- A request that is handed over is queued, and it is the one registered under its id. -/
theorem HandingOver.registered {s : SchedulerState W} {p : Frame W} (hp : HandingOver s p)
    (hnames : RegistryNames s (Queued s)) (hready : ReadyToSchedule s) {x : Ref}
    (hx : HandedOver p.2 x) :
    Queued s x ∧ s.requests.get? (p.1.objs x).requestId = some x := by
  have hqueued : Queued s x := by
    rcases hx with hx | hx | hx
    · exact hp.held x (Or.inl (hp.new x hx).1)
    · exact (hp.cached x (Or.inl hx)).queued
    · exact (hp.cached x (Or.inr hx)).queued
  refine ⟨hqueued, ?_⟩
  rw [(hp.same x).requestId]
  exact hnames.registered x hqueued (hready.unfinished x hqueued)

/-- The new requests of an output are those of the list. -/
theorem mem_newReqs {s : SchedulerState W} {l : StepLocals} {out : SchedulerOutput}
    (hv1 : self.useV2ModelRunner = false) (h : self.IsOutputOf s l out) :
    (∀ data ∈ out.scheduledNewReqs, ∃ x ∈ l.scheduledNewReqs, ∃ blocks,
      data = NewRequestData.fromRequest (s.objs x) blocks none) ∧
    ∀ x ∈ l.scheduledNewReqs, ∃ data ∈ out.scheduledNewReqs,
      data.reqId = (s.objs x).requestId := by
  have hnew := exists_of_forall₂ h.newReqs
  rw [hv1] at hnew
  constructor
  · intro data hdata
    obtain ⟨x, hx, blocks, hform, _⟩ := hnew.2 data hdata
    refine ⟨x, hx, blocks, ?_⟩
    rw [hv1] at hform
    exact hform
  · intro x hx
    obtain ⟨data, hdata, blocks, hform, _⟩ := hnew.1 x hx
    refine ⟨data, hdata, ?_⟩
    rw [hform]
    rfl

section
variable {tokens : WorkerTokens} {s s' : SchedulerState W} {afterRunning afterWaiting : Frame W}
  {out : SchedulerOutput} (h : self.Scheduled s afterRunning afterWaiting out s')
  (hv1 : self.useV2ModelRunner = false) (hnames : RegistryNames s (Queued s))
  (hready : ReadyToSchedule s) (hs : PayloadsOk tokens (fun _ => False) s)

include h hnames hready hs

theorem Scheduled.handedOver : HandingOver s afterWaiting :=
  h.handingOver hnames.heldKnown hs hready

/-- Two requests that are handed over have different ids. -/
theorem Scheduled.unique {x y : Ref} (hx : HandedOver afterWaiting.2 x)
    (hy : HandedOver afterWaiting.2 y)
    (hid : (afterWaiting.1.objs y).requestId = (afterWaiting.1.objs x).requestId) : y = x := by
  have hp := h.handedOver hnames hready hs
  have hxget := (hp.registered hnames hready hx).2
  have hyget := (hp.registered hnames hready hy).2
  rw [hid, hxget] at hyget
  exact (Option.some.inj hyget).symm

/-- The request that got tokens under an id is the one registered under it. -/
theorem Scheduled.scheduledRequest {reqId : RequestId} {n : Int}
    (hget : out.numScheduledTokens.get? reqId = some n) :
    ∃ r, s.requests.get? reqId = some r ∧ HandedOver afterWaiting.2 r ∧
      (afterWaiting.1.objs r).requestId = reqId ∧ Fits s afterWaiting r n := by
  have hp := h.handedOver hnames hready hs
  rw [h.output.numScheduledTokens] at hget
  obtain ⟨x, hx, hid, hfits⟩ := hp.fits reqId n hget
  have hregistered := (hp.registered hnames hready hx).2
  rw [hid] at hregistered
  exact ⟨x, hregistered, hx, hid, hfits⟩

include hv1

/-- The requests whose tokens can be sent whole. -/
theorem Scheduled.sentWhole {reqId : RequestId} :
    (∀ tokenIds, out.scheduledCachedReqs.allTokenIds.get? reqId = some tokenIds →
      ∃ x, HandedOver afterWaiting.2 x ∧ (afterWaiting.1.objs x).requestId = reqId ∧
        tokenIds = (afterWaiting.1.objs x).allTokenIds) ∧
    ∀ x, x ∈ afterWaiting.2.scheduledRunningReqs ∨ x ∈ afterWaiting.2.scheduledResumedReqs →
      (afterWaiting.1.objs x).requestId = reqId → reqId ∉ s.prevStepScheduledReqIds →
      (out.scheduledCachedReqs.allTokenIds.get? reqId).isSome = true := by
  have hall := h.output.allTokenIds
  rw [hv1] at hall
  rw [hall]
  constructor
  · intro tokenIds hget
    rcases (get?_addAllTokenIds _ _ _ reqId).1 tokenIds hget with hnone | ⟨x, hx, hid, htokens⟩
    · cases hnone
    · exact ⟨x, Or.inr (List.mem_append.mp hx), hid, htokens⟩
  · intro x hx hid hprevious
    apply (get?_addAllTokenIds _ _ _ reqId).2
    refine Or.inr ⟨x, List.mem_append.mpr hx, hid, ?_⟩
    change reqId ∉ afterWaiting.1.prevStepScheduledReqIds
    rw [(h.handedOver hnames hready hs).previous]
    exact hprevious

/-- The worker holds all tokens of a request that is handed over. -/
theorem Scheduled.received {x : Ref} (hx : HandedOver afterWaiting.2 x) :
    (afterWaiting.1.objs x).allTokenIds.length ≤
      tokens.receive out (afterWaiting.1.objs x).requestId := by
  have hp := h.handedOver hnames hready hs
  obtain ⟨hnew, hlisted⟩ := mem_newReqs hv1 h.output
  unfold WorkerTokens.receive
  cases hsent : out.scheduledCachedReqs.allTokenIds.get? (afterWaiting.1.objs x).requestId with
  | some tokenIds =>
    obtain ⟨y, hy, hid, rfl⟩ := (h.sentWhole hv1 hnames hready hs).1 tokenIds hsent
    rw [h.unique hnames hready hs hx hy hid]
  | none =>
    dsimp only
    cases hfind : out.scheduledNewReqs.find?
        fun data => data.reqId = (afterWaiting.1.objs x).requestId with
    | some data =>
      have hid := of_decide_eq_true (List.find?_some
        (p := fun data : NewRequestData => data.reqId = (afterWaiting.1.objs x).requestId) hfind)
      obtain ⟨y, hy, blocks, rfl⟩ := hnew data (List.mem_of_find?_eq_some hfind)
      obtain rfl : y = x := h.unique hnames hready hs hx (Or.inl hy) hid
      have hknown := hnames.heldKnown y (hp.registered hnames hready hx).1
      have hprompt := (hp.requests y hknown).prompt
      rw [(hp.new y hy).2.1] at hprompt
      exact hprompt
    | none =>
      rcases hx with hx | hx
      · obtain ⟨data, hdata, hid⟩ := hlisted x hx
        have hnone := List.find?_eq_none.mp hfind data hdata
        exact absurd (decide_eq_true hid) hnone
      · have hprevious : (afterWaiting.1.objs x).requestId ∈ s.prevStepScheduledReqIds := by
          by_contra hnot
          have hsome := (h.sentWhole hv1 hnames hready hs).2 x hx rfl hnot
          rw [hsent] at hsome
          cases hsome
        have hcovered := hs.covered x (hp.cached x hx) id
        rw [← (hp.same x).requestId, ← (hp.same x).allTokenIds] at hcovered
        exact hcovered hprevious

/-- The start that the worker is told is the count of computed tokens. -/
theorem Scheduled.starts {x : Ref} (hx : HandedOver afterWaiting.2 x) {start : Int}
    (hstart : out.Starts (afterWaiting.1.objs x).requestId start) :
    start = (afterWaiting.1.objs x).numComputedTokens := by
  rcases hstart with ⟨data, hdata, hid, rfl⟩ | hzip
  · obtain ⟨y, hy, blocks, rfl⟩ := (mem_newReqs hv1 h.output).1 data hdata
    obtain rfl : y = x := h.unique hnames hready hs hx (Or.inl hy) hid
    rfl
  · rw [h.output.cachedReqIds, h.output.cachedComputedTokens, hv1, List.zip_map',
      List.mem_map] at hzip
    obtain ⟨y, hy, hpair⟩ := hzip
    obtain ⟨hid, rfl⟩ := Prod.mk.inj hpair
    obtain rfl : y = x :=
      h.unique hnames hready hs hx (Or.inr (List.mem_append.mp hy)) hid
    rfl

/-- The worker is told where a request that is handed over starts. -/
theorem Scheduled.exists_starts {x : Ref} (hx : HandedOver afterWaiting.2 x) :
    out.Starts (afterWaiting.1.objs x).requestId (afterWaiting.1.objs x).numComputedTokens := by
  rcases hx with hx | hx
  · obtain ⟨data, hdata, hid⟩ := (mem_newReqs hv1 h.output).2 x hx
    obtain ⟨y, hy, blocks, rfl⟩ := (mem_newReqs hv1 h.output).1 data hdata
    obtain rfl : y = x := h.unique hnames hready hs (Or.inl hx) (Or.inl hy) hid
    exact Or.inl ⟨_, hdata, rfl, rfl⟩
  · right
    rw [h.output.cachedReqIds, h.output.cachedComputedTokens, hv1, List.zip_map']
    exact List.mem_map.mpr ⟨x, List.mem_append.mpr hx, rfl⟩

/-- **The output of `schedule()` hands its requests over.** -/
theorem Scheduled.handsOver : HandsOver tokens s out := by
  have hp := h.handedOver hnames hready hs
  refine ⟨?_, ?_, ?_, ?_⟩
  · intro data hdata
    obtain ⟨x, hx, blocks, rfl⟩ := (mem_newReqs hv1 h.output).1 data hdata
    refine ⟨x, (hp.registered hnames hready (Or.inl hx)).2, ?_⟩
    rw [← (hp.same x).outputTokenIds]
    exact (hp.new x hx).2.1
  · intro reqId hkey
    obtain ⟨n, hget⟩ := Dict.mem_keys_iff.mp hkey
    obtain ⟨r, hr, hx, hid, _⟩ := h.scheduledRequest hnames hready hs hget
    refine ⟨r, hr, fun hused => ?_⟩
    have hcached := hx.resolve_left fun hnew => by
      obtain ⟨_, houtput, hnever⟩ := hp.new r hnew
      rw [(hp.same r).outputTokenIds] at houtput
      exact hused.elim (fun h => h houtput) (fun h => h hnever)
    constructor
    · rw [h.output.cachedReqIds, hv1]
      exact List.mem_map.mpr ⟨r, List.mem_append.mpr hcached, hid⟩
    · intro hprevious
      have hsome := (h.sentWhole hv1 hnames hready hs).2 r hcached hid hprevious
      obtain ⟨tokenIds, hsent⟩ := Option.isSome_iff_exists.mp hsome
      obtain ⟨y, hy, hyid, rfl⟩ := (h.sentWhole hv1 hnames hready hs).1 tokenIds hsent
      obtain rfl : y = r := h.unique hnames hready hs hx hy (hyid.trans hid.symm)
      rw [hsent, (hp.same y).allTokenIds]
  · intro reqId hkey
    obtain ⟨n, hget⟩ := Dict.mem_keys_iff.mp hkey
    obtain ⟨r, _, hx, hid, _⟩ := h.scheduledRequest hnames hready hs hget
    subst hid
    exact ⟨_, h.exists_starts hv1 hnames hready hs hx⟩
  · intro reqId n start hget hstart position hfrom hto
    obtain ⟨r, _, hx, hid, hfits⟩ := h.scheduledRequest hnames hready hs hget
    subst hid
    have hreceived := h.received hv1 hnames hready hs hx
    have hfits := hfits (hready.counted r (hp.registered hnames hready hx).1)
    rw [h.starts hv1 hnames hready hs hx hstart] at hto
    rw [Request.numTokens] at hfits
    rw [h.output.scheduledSpecDecodeTokens]
    omega

/-- After `schedule()` the worker holds the tokens of what runs or will be resumed. -/
theorem Scheduled.payloadsOk : PayloadsOk (tokens.receive out) (fun _ => False) s' := by
  have hp := h.handedOver hnames hready hs
  have hfinal := h.final
  have hsame : ∀ x, Request.SamePayload (afterWaiting.1.objs x) (s'.objs x) ∧
      (s'.objs x).status = (afterWaiting.1.objs x).status ∧
      (s'.objs x).numPreemptions = (afterWaiting.1.objs x).numPreemptions := by
    intro x
    obtain ⟨computed, isPrefillChunk, hobjs⟩ := hfinal.objs x
    rw [hobjs]
    exact ⟨{ Request.SamePayload.refl (afterWaiting.1.objs x) with }, rfl, rfl⟩
  have hwaiting : ∀ x, x ∈ s'.waiting ∨ x ∈ s'.skippedWaiting → HeldWaiting afterWaiting x := by
    intro x hx
    rw [hfinal.waiting, hfinal.skippedWaiting, self.mem_requeueSkipped] at hx
    exact hx
  have hqueued : ∀ x, Queued s' x → Held afterWaiting x := by
    rintro x (hx | hx)
    · rw [hfinal.running] at hx
      exact Or.inl hx
    · exact Or.inr (hwaiting x hx)
  have hnextRef : s'.nextRef = s.nextRef := h.sameRegistry.nextRef
  exact
    { requests := by
        intro x hx
        rw [hnextRef] at hx
        obtain ⟨hsame, hstatus, hnumPreemptions⟩ := hsame x
        exact (hp.requests x hx).of_status hsame hstatus hnumPreemptions
      waiting := by
        intro x hx
        rw [(hsame x).2.1]
        exact hp.waiting x (hwaiting x hx)
      running := by
        intro x hx _
        rw [hfinal.running] at hx
        rw [(hsame x).2.1]
        exact hp.running x hx
      covered := by
        intro x hx _ hkey
        have hheld : Held afterWaiting x := hqueued x hx.queued
        have hbefore := hp.held x hheld
        have hregistered := hnames.registered x hbefore (hready.unfinished x hbefore)
        obtain ⟨hsame, _, _⟩ := hsame x
        rw [hfinal.prevStepScheduledReqIds, hsame.requestId, (hp.same x).requestId] at hkey
        obtain ⟨n, hget⟩ := Dict.mem_keys_iff.mp hkey
        obtain ⟨r, hr, hscheduled, _, _⟩ := h.scheduledRequest hnames hready hs hget
        rw [hregistered] at hr
        obtain rfl := Option.some.inj hr
        rw [hsame.allTokenIds, hsame.requestId]
        exact h.received hv1 hnames hready hs hscheduled }

end

end Scheduler

/-! ## 3. The operations that leave all tokens alone -/

/-- Every request keeps its tokens, and none that the worker does not know enters
    `running` or will be resumed. -/
structure TokensKept (s s' : SchedulerState W) : Prop where
  nextRef : s'.nextRef = s.nextRef
  previous : ∀ reqId, reqId ∈ s'.prevStepScheduledReqIds → reqId ∈ s.prevStepScheduledReqIds
  same : ∀ x, Request.SamePayload (s.objs x) (s'.objs x)
  requests : ∀ x, (s.objs x).PayloadOk → (s'.objs x).PayloadOk
  waiting : ∀ x, x ∈ s'.waiting ∨ x ∈ s'.skippedWaiting →
    ((x ∈ s.waiting ∨ x ∈ s.skippedWaiting) ∧ (s'.objs x).status = (s.objs x).status) ∨
      (s'.objs x).status ≠ .running
  running : ∀ x ∈ s'.running, x ∈ s.running ∧
    ((s'.objs x).status = .waitingForStreamingReq → (s.objs x).status = .waitingForStreamingReq)
  sent : ∀ x, Sent s' (Queued s') x → Sent s (Queued s) x

theorem TokensKept.trans {s s' s'' : SchedulerState W} (h : TokensKept s s')
    (h' : TokensKept s' s'') : TokensKept s s'' where
  nextRef := h'.nextRef.trans h.nextRef
  previous := fun reqId hreqId => h.previous reqId (h'.previous reqId hreqId)
  same := fun x => (h.same x).trans (h'.same x)
  requests := fun x hx => h'.requests x (h.requests x hx)
  waiting := by
    intro x hx
    rcases h'.waiting x hx with ⟨hx, hstatus⟩ | hstatus
    · rw [hstatus]
      exact h.waiting x hx
    · exact Or.inr hstatus
  running := fun x hx =>
    ⟨(h.running x (h'.running x hx).1).1,
      fun hstatus => (h.running x (h'.running x hx).1).2 ((h'.running x hx).2 hstatus)⟩
  sent := fun x hx => h.sent x (h'.sent x hx)

/-- The queues shrink, and the requests keep their tokens and their statuses. -/
theorem TokensKept.of_statuses {s s' : SchedulerState W} (hnextRef : s'.nextRef = s.nextRef)
    (hprevious : ∀ reqId, reqId ∈ s'.prevStepScheduledReqIds →
      reqId ∈ s.prevStepScheduledReqIds)
    (hobjs : ∀ x, Request.SamePayload (s.objs x) (s'.objs x) ∧
      (s'.objs x).status = (s.objs x).status ∧
      (s'.objs x).numPreemptions = (s.objs x).numPreemptions)
    (hwaiting : ∀ x, x ∈ s'.waiting ∨ x ∈ s'.skippedWaiting →
      x ∈ s.waiting ∨ x ∈ s.skippedWaiting)
    (hrunning : ∀ x ∈ s'.running, x ∈ s.running) : TokensKept s s' where
  nextRef := hnextRef
  previous := hprevious
  same := fun x => (hobjs x).1
  requests := fun x hx => hx.of_status (hobjs x).1 (hobjs x).2.1 (hobjs x).2.2
  waiting := fun x hx => Or.inl ⟨hwaiting x hx, (hobjs x).2.1⟩
  running := fun x hx => ⟨hrunning x hx, fun h => (hobjs x).2.1 ▸ h⟩
  sent := by
    rintro x (hx | ⟨hx, hwaits⟩)
    · exact Or.inl (hrunning x hx)
    · rw [Request.WaitsAsResumed, (hobjs x).2.1, (hobjs x).2.2] at hwaits
      exact Or.inr ⟨hx.imp (hrunning x) (hwaiting x), hwaits⟩

/-- The queues shrink and the requests stay as they are. -/
theorem TokensKept.of_objs {s s' : SchedulerState W} (hnextRef : s'.nextRef = s.nextRef)
    (hprevious : ∀ reqId, reqId ∈ s'.prevStepScheduledReqIds →
      reqId ∈ s.prevStepScheduledReqIds)
    (hobjs : s'.objs = s.objs)
    (hwaiting : ∀ x, x ∈ s'.waiting ∨ x ∈ s'.skippedWaiting →
      x ∈ s.waiting ∨ x ∈ s.skippedWaiting)
    (hrunning : ∀ x ∈ s'.running, x ∈ s.running) : TokensKept s s' := by
  apply TokensKept.of_statuses hnextRef hprevious _ hwaiting hrunning
  rw [hobjs]
  exact fun x => ⟨Request.SamePayload.refl _, rfl, rfl⟩

/-- Neither the queues nor the requests change. -/
theorem TokensKept.of_eq {s s' : SchedulerState W} (hnextRef : s'.nextRef = s.nextRef)
    (hprevious : s'.prevStepScheduledReqIds = s.prevStepScheduledReqIds)
    (hobjs : s'.objs = s.objs) (hwaiting : s'.waiting = s.waiting)
    (hskipped : s'.skippedWaiting = s.skippedWaiting) (hrunning : s'.running = s.running) :
    TokensKept s s' := by
  apply TokensKept.of_objs hnextRef _ hobjs
  · rw [hwaiting, hskipped]
    exact fun _ h => h
  · rw [hrunning]
    exact fun _ h => h
  · rw [hprevious]
    exact fun _ h => h

theorem TokensKept.refl (s : SchedulerState W) : TokensKept s s :=
  TokensKept.of_eq rfl rfl rfl rfl rfl rfl

/-- One request is written and the queues stay as they are. -/
theorem TokensKept.updateRequest (s : SchedulerState W) (request : Ref) (f : Request → Request)
    (hsame : Request.SamePayload (s.objs request) (f (s.objs request)))
    (hrequest : (s.objs request).PayloadOk → (f (s.objs request)).PayloadOk)
    (hstatus : (f (s.objs request)).status = (s.objs request).status ∨
      ((f (s.objs request)).status ≠ .running ∧
        (f (s.objs request)).status ≠ .waitingForStreamingReq))
    (hwaits : (f (s.objs request)).WaitsAsResumed → (s.objs request).WaitsAsResumed) :
    TokensKept s (s.updateRequest request f) where
  nextRef := rfl
  previous := fun _ h => h
  same := by
    intro x
    by_cases hx : x = request
    · rw [hx, SchedulerState.objs_updateRequest_self]
      exact hsame
    · rw [SchedulerState.objs_updateRequest_of_ne _ _ hx]
      exact Request.SamePayload.refl _
  requests := by
    intro x
    by_cases hx : x = request
    · rw [hx, SchedulerState.objs_updateRequest_self]
      exact hrequest
    · rw [SchedulerState.objs_updateRequest_of_ne _ _ hx]
      exact id
  waiting := by
    intro x hheld
    by_cases hx : x = request
    · rw [hx, SchedulerState.objs_updateRequest_self]
      subst hx
      rcases hstatus with hstatus | ⟨hstatus, _⟩
      · exact Or.inl ⟨hheld, hstatus⟩
      · exact Or.inr hstatus
    · rw [SchedulerState.objs_updateRequest_of_ne _ _ hx]
      exact Or.inl ⟨hheld, rfl⟩
  running := by
    intro x hheld
    refine ⟨hheld, ?_⟩
    by_cases hx : x = request
    · rw [hx, SchedulerState.objs_updateRequest_self]
      rcases hstatus with hstatus | ⟨_, hstatus⟩
      · rw [hstatus]
        exact id
      · exact fun h => absurd h hstatus
    · rw [SchedulerState.objs_updateRequest_of_ne _ _ hx]
      exact id
  sent := by
    rintro x (hheld | ⟨hheld, hresumed⟩)
    · exact Or.inl hheld
    · refine Or.inr ⟨hheld, ?_⟩
      by_cases hx : x = request
      · rw [hx, SchedulerState.objs_updateRequest_self] at hresumed
        rw [hx]
        exact hwaits hresumed
      · rw [SchedulerState.objs_updateRequest_of_ne _ _ hx] at hresumed
        exact hresumed

/-- **Step lemma** of these operations. -/
theorem PayloadsOk.of_kept {tokens : WorkerTokens} {excused : Ref → Prop}
    {s s' : SchedulerState W} (hs : PayloadsOk tokens excused s) (h : TokensKept s s') :
    PayloadsOk tokens excused s' where
  requests := by
    intro x hx
    rw [h.nextRef] at hx
    exact h.requests x (hs.requests x hx)
  waiting := by
    intro x hx
    rcases h.waiting x hx with ⟨hx, hstatus⟩ | hstatus
    · rw [hstatus]
      exact hs.waiting x hx
    · exact hstatus
  running := by
    intro x hx hexcused hstatus
    obtain ⟨hx, hbefore⟩ := h.running x hx
    exact hs.running x hx hexcused (hbefore hstatus)
  covered := by
    intro x hx hexcused hprevious
    rw [(h.same x).requestId] at hprevious ⊢
    rw [(h.same x).allTokenIds]
    exact hs.covered x (h.sent x hx) hexcused (h.previous _ hprevious)

namespace Scheduler

variable {self : Scheduler W}

/-- A request that is finished neither runs nor waits from then on. -/
theorem TokensKept.of_finish (s : SchedulerState W) (request : Ref) {finishedStatus : RequestStatus}
    (hfinished : finishedStatus.isFinished = true) :
    TokensKept s (s.updateRequest request fun r => { r with status := finishedStatus }) := by
  obtain ⟨hnew, hpreempted⟩ := Request.not_waitsAsNew_of_isFinished
    (r := { s.objs request with status := finishedStatus }) hfinished
  have hsame : Request.SamePayload (s.objs request)
      { s.objs request with status := finishedStatus } :=
    { Request.SamePayload.refl (s.objs request) with }
  apply TokensKept.updateRequest s request _ hsame
  · exact fun hr => hr.of_leaves hsame hnew hpreempted
  · right
    dsimp only
    constructor <;> rintro rfl <;> cases hfinished
  · rintro (hstatus | ⟨hstatus, _⟩)
    · exact absurd hstatus hpreempted
    · change finishedStatus = _ at hstatus
      rw [hstatus] at hfinished
      cases hfinished

theorem FinishEffect.kept {finishedStatus : RequestStatus} {valid : List Ref}
    {s s' : SchedulerState W} (h : self.FinishEffect finishedStatus valid s s') :
    TokensKept s s' := by
  cases h with
  | @finish request delayed w finishedRecving failedRecving hvalid hregistered hunfinished
      hfinished hdelayed =>
    have hloads : TokensKept s
        { s with
          finishedRecvingKvReqIds := finishedRecving
          failedRecvingKvReqIds := failedRecving } :=
      TokensKept.of_eq rfl rfl rfl rfl rfl rfl
    have hstatus := hloads.trans (TokensKept.of_finish _ request hfinished)
    exact hstatus.trans
      (TokensKept.of_eq rfl rfl rfl rfl rfl rfl)

theorem kept_removeFromQueues (s : SchedulerState W) (valid : List Ref) :
    TokensKept s (self.removeFromQueues valid s) := by
  apply TokensKept.of_objs
  · rfl
  · exact fun _ h => h
  · rfl
  · exact fun _ hx => waits_removeFromQueues hx
  · exact fun x hx => (List.mem_filter.mp hx).1

theorem FinishedBy.kept {requestIds : Option (List RequestId)} {finishedStatus : RequestStatus}
    {s s' : SchedulerState W} (h : self.FinishedBy requestIds finishedStatus s s') :
    TokensKept s s' :=
  invariant_of_chain (I := fun s' => TokensKept s s')
    (fun _ _ heffect hbefore => hbefore.trans heffect.kept) h.effects (kept_removeFromQueues s _)

theorem ConnectorEffect.kept {s s' : SchedulerState W} (h : ConnectorEffect s s') :
    TokensKept s s' := by
  cases h with
  | touch w => exact TokensKept.of_eq rfl rfl rfl rfl rfl rfl
  | loads finishedRecving failedRecving =>
    exact TokensKept.of_eq rfl rfl rfl rfl rfl rfl
  | @recompute request numComputedTokens haffected =>
    have hsame : Request.SamePayload (s.objs request) { s.objs request with numComputedTokens } :=
      { Request.SamePayload.refl (s.objs request) with }
    exact TokensKept.updateRequest s request _ hsame (fun hr => hr.of_status hsame rfl rfl)
      (Or.inl rfl) id
  | drop w hregistered hfinished =>
    exact TokensKept.of_eq rfl rfl rfl rfl rfl rfl

theorem ConnectorEffects.kept {s s' : SchedulerState W} (h : ConnectorEffects s s') :
    TokensKept s s' :=
  invariant_of_chain (I := fun s' => TokensKept s s')
    (fun _ _ heffect hbefore => hbefore.trans heffect.kept) h (TokensKept.refl s)

/-- A running request that is preempted will be resumed. -/
theorem ResetEffect.kept {s s' : SchedulerState W} (h : self.ResetEffect s s') :
    TokensKept s s' := by
  cases h with
  | @preempt victim rest w hvictim hstatus =>
    have hmem : victim ∈ s.running := by
      rw [hvictim]
      exact List.mem_append_right _ (List.mem_singleton.mpr rfl)
    have hobjs : ∀ x, ((self.afterPreempt { s with running := rest } victim w).updateRequest
        victim discardPlaceholders).objs x =
        if x = victim then discardPlaceholders (preempted (s.objs x)) else s.objs x := by
      intro x
      unfold afterPreempt
      rw [SchedulerState.objs_updateRequest, SchedulerState.objs_updateRequest,
        SchedulerState.objs_updateRequest, if_pos rfl]
      split
      · rename_i hx
        rw [hx]
      · rfl
    have hsame : ∀ r : Request, Request.SamePayload r (discardPlaceholders (preempted r)) :=
      fun r => { Request.SamePayload.refl r with
        numOutputPlaceholders := fun _ => rfl
        numPreemptions := Nat.le_succ _ }
    exact
      { nextRef := rfl
        previous := fun _ h => h
        same := by
          intro x
          rw [hobjs]
          split
          · exact hsame _
          · exact Request.SamePayload.refl _
        requests := by
          intro x hx
          rw [hobjs]
          split
          · apply hx.of_same (hsame _)
            · rintro (hwaits | hwaits | ⟨hwaits, _⟩) <;> cases hwaits
            · exact fun _ => Nat.succ_ne_zero _
          · exact hx
        waiting := by
          intro x hx
          rw [hobjs]
          split
          · right
            change RequestStatus.preempted ≠ .running
            decide
          · rename_i hne
            refine Or.inl ⟨?_, rfl⟩
            rcases hx with hx | hx
            · exact Or.inl ((self.mem_prependRequest.mp hx).resolve_left hne)
            · exact Or.inr hx
        running := by
          intro x (hx : x ∈ rest)
          rw [hobjs, hvictim]
          refine ⟨List.mem_append_left _ hx, ?_⟩
          split
          · rintro ⟨⟩
          · exact id
        sent := by
          rintro x (hx | ⟨hx, hwaits⟩)
          · rw [Sent, hvictim]
            exact Or.inl (List.mem_append_left _ hx)
          · by_cases hne : x = victim
            · exact Or.inl (hne ▸ hmem)
            · rw [hobjs, if_neg hne] at hwaits
              refine Or.inr ⟨?_, hwaits⟩
              rcases hx with hx | hx | hx
              · left
                rw [hvictim]
                exact List.mem_append_left _ hx
              · exact Or.inr (Or.inl ((self.mem_prependRequest.mp hx).resolve_left hne))
              · exact Or.inr (Or.inr hx) }

theorem ResetEffects.kept {s s' : SchedulerState W} (h : self.ResetEffects s s') :
    TokensKept s s' :=
  invariant_of_chain (I := fun s' => TokensKept s s')
    (fun _ _ heffect hbefore => hbefore.trans heffect.kept) h (TokensKept.refl s)

/-- A pause sends nothing. -/
theorem kept_afterPause (s : SchedulerState W) (reqId : RequestId)
    (reading : EdmmSchedulerHook.PauseReading) (request : Ref) :
    TokensKept s (afterPause s reqId reading request) := by
  have hhook : TokensKept s
      { s with edmmHook := s.edmmHook.map fun hook => (hook.onToolCallPause reqId reading).2 } :=
    TokensKept.of_eq rfl rfl rfl rfl rfl rfl
  have hsame : Request.SamePayload (s.objs request) (toolPaused (s.objs request)) :=
    { Request.SamePayload.refl (s.objs request) with }
  apply hhook.trans (TokensKept.updateRequest _ request toolPaused hsame _ _ _)
  · intro hr
    apply hr.of_leaves hsame
    · rintro (hstatus | hstatus | ⟨hstatus, _⟩) <;> cases hstatus
    · exact nofun
  · right
    change RequestStatus.waitingForToolCall ≠ .running ∧
      RequestStatus.waitingForToolCall ≠ .waitingForStreamingReq
    decide
  · rintro (hstatus | ⟨hstatus, _⟩) <;> cases hstatus

/-- A pause that holds the request moves it to `skipped_waiting`. -/
theorem kept_afterHold (s : SchedulerState W) (reqId : RequestId)
    (reading : EdmmSchedulerHook.PauseReading) (request : Ref) :
    TokensKept s (self.afterHold s reqId reading request) := by
  have hpause := kept_afterPause s reqId reading request
  have hself : ((self.afterHold s reqId reading request).objs request).status =
      .waitingForToolCall := by
    unfold afterHold afterPause
    dsimp only
    rw [SchedulerState.objs_updateRequest_self]
    rfl
  -- a request that waits afterwards waited before, or it is the one that was paused
  have hwaited : ∀ x, x ∈ (self.afterHold s reqId reading request).waiting ∨
      x ∈ (self.afterHold s reqId reading request).skippedWaiting →
      (x ∈ s.waiting ∨ x ∈ s.skippedWaiting) ∨ x = request := by
    rintro x (hx | hx)
    · exact Or.inl (Or.inl (self.mem_removeRequests.mp hx).1)
    · rcases self.mem_addRequest.mp hx with hx | hx
      · exact Or.inr hx
      · exact Or.inl (Or.inr (self.mem_removeRequests.mp hx).1)
  have hrunning : ∀ x ∈ (self.afterHold s reqId reading request).running, x ∈ s.running :=
    fun x hx => (List.mem_filter.mp hx).1
  exact
    { nextRef := rfl
      previous := fun _ h => h
      same := hpause.same
      requests := hpause.requests
      waiting := by
        intro x hx
        rcases hwaited x hx with hx | rfl
        · exact hpause.waiting x hx
        · right
          rw [hself]
          decide
      running := fun x hx => hpause.running x (hrunning x hx)
      sent := by
        rintro x (hx | ⟨hx, hwaits⟩)
        · exact Or.inl (hrunning x hx)
        · have hne : x ≠ request := by
            rintro rfl
            rcases hwaits with hstatus | ⟨hstatus, _⟩ <;> rw [hself] at hstatus <;> cases hstatus
          refine hpause.sent x (Or.inr ⟨?_, hwaits⟩)
          exact hx.imp (hrunning x) fun hx => (hwaited x hx).resolve_right hne }

/-! ## 4. Adding a request -/

/-- A new request is new to the worker. -/
theorem payloadsOk_register {tokens : WorkerTokens} {excused : Ref → Prop} {s : SchedulerState W}
    (hs : PayloadsOk tokens excused s) (hqueued : ∀ x, Queued s x → x < s.nextRef)
    {params : RequestParams} {request : Request} (w : W)
    (hinit : Request.init self.externals.blockHasher params = .ok request) :
    PayloadsOk tokens excused (self.afterRegister s (sessionStarted request) w) := by
  have hself : (self.afterRegister s (sessionStarted request) w).objs s.nextRef =
      sessionStarted request := Function.update_self ..
  have hothers : ∀ x, x ≠ s.nextRef →
      (self.afterRegister s (sessionStarted request) w).objs x = s.objs x :=
    fun x hx => Function.update_of_ne hx ..
  have hstatus : (sessionStarted request).status = request.status := by
    unfold sessionStarted
    split
    · rfl
    · rfl
  have hfresh := Request.fresh_init hinit
  have hwaits : ∀ x, x ∈ (self.afterRegister s (sessionStarted request) w).waiting ∨
      x ∈ (self.afterRegister s (sessionStarted request) w).skippedWaiting →
      x = s.nextRef ∨ x ∈ s.waiting ∨ x ∈ s.skippedWaiting := by
    intro x hx
    simp only [afterRegister] at hx
    split at hx
    · rw [self.mem_addRequest] at hx
      tauto
    · rw [self.mem_addRequest] at hx
      tauto
  have hold : ∀ x, Queued s x → x ≠ s.nextRef := fun x hx => (hqueued x hx).ne
  exact
    { requests := by
        intro x hx
        by_cases hne : x = s.nextRef
        · rw [hne, hself]
          have hpayload := Request.payloadOk_init hinit
          unfold sessionStarted
          split
          · have hsame : Request.SamePayload request { request with streamingQueue := some [] } :=
              { Request.SamePayload.refl request with }
            exact hpayload.of_status hsame rfl rfl
          · exact hpayload
        · rw [hothers x hne]
          exact hs.requests x (Nat.lt_of_le_of_ne (Nat.le_of_lt_succ hx) hne)
      waiting := by
        intro x hx
        rcases hwaits x hx with rfl | hx
        · rw [hself, hstatus]
          rcases hfresh.status with hnew | hnew <;> rw [hnew] <;> decide
        · rw [hothers x (hold x (Or.inr hx))]
          exact hs.waiting x hx
      running := by
        intro x hx hexcused
        rw [hothers x (hold x (Or.inl hx))]
        exact hs.running x hx hexcused
      covered := by
        rintro x hx hexcused
        have hne : x ≠ s.nextRef := by
          rintro rfl
          rcases hx with hx | ⟨_, hresumed⟩
          · exact hold s.nextRef (Or.inl hx) rfl
          · rw [Request.WaitsAsResumed, hself, hstatus] at hresumed
            rcases hfresh.status with hnew | hnew <;> rw [hnew] at hresumed <;>
              rcases hresumed with hresumed | ⟨hresumed, _⟩ <;> cases hresumed
        rw [hothers x hne]
        apply hs.covered x _ hexcused
        rcases hx with hx | ⟨hx, hresumed⟩
        · exact Or.inl hx
        · rw [hothers x hne] at hresumed
          exact Or.inr ⟨hx.imp_right fun hx => (hwaits x hx).resolve_left hne, hresumed⟩ }

/-- A session that was never preempted continues. -/
theorem payloadsOk_continueSession {tokens : WorkerTokens} {s : SchedulerState W}
    (hs : PayloadsOk tokens (fun _ => False) s) {existing : Ref} (hknown : existing < s.nextRef)
    (hstatus : (s.objs existing).status = .waitingForStreamingReq)
    (hprompt : (s.objs existing).promptTokenIds.isSome = true)
    (hnumPreemptions : (s.objs existing).numPreemptions = 0) (update : StreamingUpdate) :
    PayloadsOk tokens (fun _ => False)
      (s.updateRequest existing (self.continueSession update)) := by
  have hpayload := (hs.requests existing hknown).continueSession self update hprompt
    hnumPreemptions
  have hidle : existing ∉ s.running := fun hx => hs.running existing hx id hstatus
  exact
    { requests := by
        intro x hx
        by_cases hne : x = existing
        · rw [hne, SchedulerState.objs_updateRequest_self]
          exact hpayload
        · rw [SchedulerState.objs_updateRequest_of_ne _ _ hne]
          exact hs.requests x hx
      waiting := by
        intro x hx
        by_cases hne : x = existing
        · rw [hne, SchedulerState.objs_updateRequest_self]
          change RequestStatus.waiting ≠ .running
          decide
        · rw [SchedulerState.objs_updateRequest_of_ne _ _ hne]
          exact hs.waiting x hx
      running := by
        rintro x (hx : x ∈ s.running) hexcused
        have hne : x ≠ existing := fun h => hidle (h ▸ hx)
        rw [SchedulerState.objs_updateRequest_of_ne _ _ hne]
        exact hs.running x hx hexcused
      covered := by
        intro x hx hexcused
        have hne : x ≠ existing := by
          rintro rfl
          rcases hx with hx | ⟨_, hresumed⟩
          · exact hidle hx
          · rw [SchedulerState.objs_updateRequest_self] at hresumed
            rcases hresumed with hresumed | ⟨hresumed, _⟩ <;> cases hresumed
        rw [SchedulerState.objs_updateRequest_of_ne _ _ hne]
        apply hs.covered x _ hexcused
        rcases hx with hx | ⟨hx, hresumed⟩
        · exact Or.inl hx
        · rw [SchedulerState.objs_updateRequest_of_ne _ _ hne] at hresumed
          exact Or.inr ⟨hx, hresumed⟩ }

/-! ## 5. `update_from_output` -/

/-- Within the loop of `update_from_output`, which started in `start`. -/
structure Answering (tokens : WorkerTokens) (mro : ModelRunnerOutput) (start : SchedulerState W)
    (p : SchedulerState W × OutputLocals) : Prop where
  nextRef : p.1.nextRef = start.nextRef
  previous : p.1.prevStepScheduledReqIds = start.prevStepScheduledReqIds
  running : p.1.running = start.running
  sent : ∀ x, Sent p.1 (Queued p.1) x → Sent start (Queued start) x
  stopped : ∀ x ∈ p.2.stoppedRunningReqs, ¬ (p.1.objs x).WaitsAsResumed
  payloads : PayloadsOk (tokens.generate mro) (fun x => x ∈ p.2.stoppedRunningReqs) p.1

section
variable {tokens : WorkerTokens} {mro : ModelRunnerOutput} {start s s' : SchedulerState W}
  {acc acc' : OutputLocals}

/-- An output rewrites one request. -/
theorem Answering.write (hp : Answering tokens mro start (s, acc)) {request : Ref} {r : Request}
    (hobjs : s'.objs = Function.update s.objs request r) (hnextRef : s'.nextRef = s.nextRef)
    (hprevious : s'.prevStepScheduledReqIds = s.prevStepScheduledReqIds)
    (hrunning : s'.running = s.running)
    (hwaiting : ∀ x, x ∈ s'.waiting ∨ x ∈ s'.skippedWaiting →
      (x ∈ s.waiting ∨ x ∈ s.skippedWaiting) ∨
        (x = request ∧ r.status ≠ .running ∧ ¬ r.WaitsAsResumed))
    (hmono : ∀ x ∈ acc.stoppedRunningReqs, x ∈ acc'.stoppedRunningReqs)
    (hstopped : ∀ x ∈ acc'.stoppedRunningReqs, x ∈ acc.stoppedRunningReqs ∨
      (x = request ∧ ¬ r.WaitsAsResumed))
    (hpayload : r.PayloadOk) (hstatus : r.status = .running → (s.objs request).status = .running)
    (hresumed : r.WaitsAsResumed → (s.objs request).WaitsAsResumed)
    (hidle : request ∈ s.running → request ∉ acc'.stoppedRunningReqs →
      r.status = .waitingForStreamingReq → (s.objs request).status = .waitingForStreamingReq)
    (hcovered : Sent s (Queued s) request → request ∈ s.running ∨ r.WaitsAsResumed →
      request ∉ acc'.stoppedRunningReqs → r.requestId ∈ s.prevStepScheduledReqIds →
      r.allTokenIds.length ≤ tokens.generate mro r.requestId) :
    Answering tokens mro start (s', acc') := by
  have hself : s'.objs request = r := by
    rw [hobjs, Function.update_self]
  have hothers : ∀ x, x ≠ request → s'.objs x = s.objs x := by
    intro x hx
    rw [hobjs, Function.update_of_ne hx]
  have hresume : ∀ x, (s'.objs x).WaitsAsResumed → (s.objs x).WaitsAsResumed := by
    intro x
    by_cases hx : x = request
    · rw [hx, hself]
      exact hresumed
    · rw [hothers x hx]
      exact id
  have hsent : ∀ x, Sent s' (Queued s') x → Sent s (Queued s) x := by
    rintro x (hx | ⟨hx, hwaits⟩)
    · rw [hrunning] at hx
      exact Or.inl hx
    · refine Or.inr ⟨?_, hresume x hwaits⟩
      rcases hx with hx | hx
      · rw [hrunning] at hx
        exact Or.inl hx
      · apply Or.inr
        rcases hwaiting x hx with hx | ⟨rfl, _, hnot⟩
        · exact hx
        · rw [hself] at hwaits
          exact absurd hwaits hnot
  exact
    { nextRef := hnextRef.trans hp.nextRef
      previous := hprevious.trans hp.previous
      running := hrunning.trans hp.running
      sent := fun x hx => hp.sent x (hsent x hx)
      stopped := by
        intro x hx hwaits
        rcases hstopped x hx with hx | ⟨rfl, hnot⟩
        · exact hp.stopped x hx (hresume x hwaits)
        · dsimp only at hwaits
          rw [hself] at hwaits
          exact hnot hwaits
      payloads :=
        { requests := by
            intro x hx
            by_cases hne : x = request
            · rw [hne]
              dsimp only
              rw [hself]
              exact hpayload
            · dsimp only at hx ⊢
              rw [hnextRef] at hx
              rw [hothers x hne]
              exact hp.payloads.requests x hx
          waiting := by
            intro x hx hrun
            dsimp only at hrun
            rcases hwaiting x hx with hx | ⟨rfl, hnot, _⟩
            · apply hp.payloads.waiting x hx
              by_cases hne : x = request
              · rw [hne, hself] at hrun
                rw [hne]
                exact hstatus hrun
              · rw [hothers x hne] at hrun
                exact hrun
            · rw [hself] at hrun
              exact hnot hrun
          running := by
            intro x hx hexcused hidles
            dsimp only at hx hidles
            rw [hrunning] at hx
            apply hp.payloads.running x hx (fun h => hexcused (hmono x h))
            by_cases hne : x = request
            · rw [hne, hself] at hidles
              rw [hne] at hx hexcused ⊢
              exact hidle hx hexcused hidles
            · rw [hothers x hne] at hidles
              exact hidles
          covered := by
            intro x hafter hexcused hkey
            have hx := hsent x hafter
            dsimp only at hafter hkey ⊢
            rw [hprevious] at hkey
            by_cases hne : x = request
            · rw [hne] at hafter hx hexcused hkey ⊢
              rw [Sent, hself, hrunning] at hafter
              rw [hself] at hkey ⊢
              exact hcovered hx (hafter.imp_right And.right) hexcused hkey
            · rw [hothers x hne] at hkey ⊢
              exact hp.payloads.covered x hx (fun h => hexcused (hmono x h)) hkey } }

theorem mem_stoppedRunningReqs_addStopped {request x : Ref} {status : RequestStatus} :
    x ∈ (acc.addStopped request status).stoppedRunningReqs ↔
      x ∈ acc.stoppedRunningReqs ∨ (x = request ∧ status = .running) := by
  unfold OutputLocals.addStopped
  split
  · rename_i hstatus
    rw [List.mem_insert_iff, or_comm]
    simp [hstatus]
  · rename_i hstatus
    simp [hstatus]

section
variable {out : SchedulerOutput} {reqId : RequestId} {request : Ref} {r : Request}
  {stopped : Bool}

/-- What the model generated for a request that was answered. -/
theorem Answered.generated (h : self.Answered out mro start s reqId request r stopped) :
    ∃ generated, WorkerTokens.generated mro reqId = generated.1.length ∧
      self.Delivered (scheduledSpecFor out reqId) generated (s.objs request) r stopped := by
  obtain ⟨generated, hgenerated, hdelivered⟩ := h.delivered
  refine ⟨generated, ?_, hdelivered⟩
  unfold WorkerTokens.generated
  rw [hgenerated]

/-- The worker holds the tokens that it generated for a request. -/
theorem Answered.covered (h : self.Answered out mro start s reqId request r stopped)
    (hp : Answering tokens mro start (s, acc)) (hstart : PayloadsOk tokens (fun _ => False) start)
    (hsent : Sent s (Queued s) request) (hkey : r.requestId ∈ s.prevStepScheduledReqIds) :
    r.allTokenIds.length ≤ tokens.generate mro r.requestId := by
  obtain ⟨generated, hcount, hdelivered⟩ := h.generated
  obtain ⟨kept, hkept, hall, _⟩ := Request.delivered_payload hdelivered
  have hbefore := hstart.covered request (hp.sent request hsent) id
  rw [← h.untouched, h.carries, ← hp.previous] at hbefore
  rw [hdelivered.requestId, h.carries] at hkey ⊢
  have hle := hbefore hkey
  rw [hall, List.length_append, WorkerTokens.generate]
  omega

/-- What an output makes of a request that the worker knows. -/
theorem Answered.payloadOk (h : self.Answered out mro start s reqId request r stopped)
    (hp : Answering tokens mro start (s, acc)) (hok : RegistryOk start)
    (hanswerable : Answerable mro reqId start request) : r.PayloadOk := by
  obtain ⟨generated, hcount, hdelivered⟩ := h.generated
  have hknown : request < start.nextRef := hok.known (start.unfinished?_eq_some.mp h.unfinished).1
  rw [← hp.nextRef] at hknown
  have hnew := hanswerable.known
  rw [← h.untouched, hcount] at hnew
  exact (hp.payloads.requests request hknown).deliver hdelivered hnew

/-- A stopped request leaves the statuses of a request that runs or will be resumed. -/
theorem Answering.stop (hp : Answering tokens mro start (s, acc))
    (hobjs : s'.objs = Function.update s.objs request r) (hnextRef : s'.nextRef = s.nextRef)
    (hprevious : s'.prevStepScheduledReqIds = s.prevStepScheduledReqIds)
    (hrunning : s'.running = s.running)
    (hwaiting : ∀ x, x ∈ s'.waiting ∨ x ∈ s'.skippedWaiting →
      (x ∈ s.waiting ∨ x ∈ s.skippedWaiting) ∨ x = request)
    (hpayload : r.PayloadOk) (hstatus : r.status ≠ .running) (hresumed : ¬ r.WaitsAsResumed)
    (hidle : request ∈ s.running → (s.objs request).status ≠ .running →
      r.status ≠ .waitingForStreamingReq)
    (hcovered : request ∈ s.running → (s.objs request).status ≠ .running →
      r.requestId ∈ s.prevStepScheduledReqIds →
      r.allTokenIds.length ≤ tokens.generate mro r.requestId) :
    Answering tokens mro start (s', acc.addStopped request (s.objs request).status) := by
  have hnot : request ∉ (acc.addStopped request (s.objs request).status).stoppedRunningReqs →
      (s.objs request).status ≠ .running :=
    fun h hrun => h (mem_stoppedRunningReqs_addStopped.mpr (Or.inr ⟨rfl, hrun⟩))
  apply hp.write hobjs hnextRef hprevious hrunning
  · exact fun x hx => (hwaiting x hx).imp_right fun h => ⟨h, hstatus, hresumed⟩
  · exact fun x hx => mem_stoppedRunningReqs_addStopped.mpr (Or.inl hx)
  · intro x hx
    rcases mem_stoppedRunningReqs_addStopped.mp hx with hx | ⟨hx, _⟩
    · exact Or.inl hx
    · exact Or.inr ⟨hx, hresumed⟩
  · exact hpayload
  · exact fun h => absurd h hstatus
  · exact fun h => absurd h hresumed
  · exact fun hmem hexcused h => absurd h (hidle hmem (hnot hexcused))
  · exact fun _ hsent hexcused hkey =>
      hcovered (hsent.resolve_right hresumed) (hnot hexcused) hkey

/-- The prefill statistics are taken. -/
theorem Answering.report (hp : Answering tokens mro start (s, acc))
    (outputs : List EngineCoreOutput) :
    Answering tokens mro start
      (s.updateRequest request Request.takePrefillStats, { acc with outputs }) := by
  have hsame : Request.SamePayload (s.objs request) (s.objs request).takePrefillStats :=
    { Request.SamePayload.refl (s.objs request) with }
  have hkept : TokensKept s (s.updateRequest request Request.takePrefillStats) :=
    TokensKept.updateRequest s request _ hsame (fun hr => hr.of_status hsame rfl rfl)
      (Or.inl rfl) id
  exact
    { nextRef := hp.nextRef
      previous := hp.previous
      running := hp.running
      sent := fun x hx => hp.sent x (hkept.sent x hx)
      stopped := by
        intro x hx
        dsimp only
        rw [SchedulerState.objs_updateRequest]
        split
        · rename_i hrequest
          rw [← hrequest]
          exact hp.stopped x hx
        · exact hp.stopped x hx
      payloads := hp.payloads.of_kept hkept }

section
variable {r' : Request} (hp : Answering tokens mro start (s, acc)) (hok : RegistryOk start)
  (hanswerable : Answerable mro reqId start request)

include hp hok hanswerable

/-- The request goes on. -/
theorem Answering.deliver (hstart : PayloadsOk tokens (fun _ => False) start) (w : W)
    (hanswered : self.Answered out mro start s reqId request r false) :
    Answering tokens mro start
      (SchedulerState.updateRequest { s with world := w } request fun _ => r, acc) := by
  obtain ⟨generated, hgenerated, hdelivered⟩ := hanswered.delivered
  have hstatus := hdelivered.status
  have hpreempted : r.numPreemptions = (s.objs request).numPreemptions := by
    obtain ⟨_, _, _, _, _, _, _, hpreempted, _⟩ := Request.delivered_payload hdelivered
    exact hpreempted
  refine hp.write rfl rfl rfl rfl (fun _ h => Or.inl h) (fun _ h => h) (fun _ h => Or.inl h)
    (hanswered.payloadOk hp hok hanswerable) ?_ ?_ ?_ ?_
  · rw [hstatus]
    exact id
  · rw [Request.WaitsAsResumed, hstatus, hpreempted]
    exact id
  · rw [hstatus]
    exact fun _ _ h => h
  · exact fun hsent _ _ hkey => hanswered.covered hp hstart hsent hkey

/-- The request stopped and is freed. -/
theorem Answering.finish (hstart : PayloadsOk tokens (fun _ => False) start) (w w' : W)
    (delayed : Bool) (hanswered : self.Answered out mro start s reqId request r true)
    (hends : Ends r r') :
    Answering tokens mro start
      (afterFree (SchedulerState.updateRequest { s with world := w } request fun _ => r') request
        w' delayed, acc.addStopped request (s.objs request).status) := by
  obtain ⟨generated, hgenerated, hdelivered⟩ := hanswered.delivered
  have hfinished := hdelivered.finished rfl
  have hform : ∃ streamingQueue, r' = { r with streamingQueue } := by
    rcases hends with ⟨_, rfl⟩ | ⟨rest, _, rfl⟩
    · exact ⟨_, rfl⟩
    · exact ⟨_, rfl⟩
  obtain ⟨streamingQueue, rfl⟩ := hform
  have hsame : Request.SamePayload r { r with streamingQueue } :=
    { Request.SamePayload.refl r with }
  have hstatus : ∀ status : RequestStatus, status.isFinished = false → r.status ≠ status := by
    rintro status hunfinished rfl
    rw [Request.isFinished, hunfinished] at hfinished
    cases hfinished
  refine hp.stop rfl rfl rfl rfl (fun _ h => Or.inl h)
    ((hanswered.payloadOk hp hok hanswerable).of_status hsame rfl rfl) (hstatus _ rfl) ?_ ?_ ?_
  · rintro (hresumed | ⟨hresumed, _⟩)
    · exact hstatus .preempted rfl hresumed
    · exact hstatus .waitingForRemoteKvs rfl hresumed
  · exact fun _ _ => hstatus .waitingForStreamingReq rfl
  · exact fun hmem _ hkey => hanswered.covered hp hstart (Or.inl hmem) hkey

/-- The session waits for its next input. -/
theorem Answering.idle (hstart : PayloadsOk tokens (fun _ => False) start) (w : W)
    (hanswered : self.Answered out mro start s reqId request r true)
    (hresumable : r.resumable = true) :
    Answering tokens mro start
      (SchedulerState.updateRequest
        { s with
          world := w
          numWaitingForStreamingInput := s.numWaitingForStreamingInput + 1
          skippedWaiting := self.requestQueue.addRequest
            (s.updateRequest request fun _ => idled r).objs s.skippedWaiting request }
        request fun _ => idled r,
      acc.addStopped request (s.objs request).status) := by
  obtain ⟨generated, hgenerated, hdelivered⟩ := hanswered.delivered
  have hsame : Request.SamePayload r (idled r) := { Request.SamePayload.refl r with }
  have hsession : (start.objs request).resumable = true := by
    rw [← hanswered.untouched]
    exact hdelivered.resumable hresumable
  refine hp.stop rfl rfl rfl rfl ?_ ?_ ?_ ?_ ?_ ?_
  · rintro x (hx | hx)
    · exact Or.inl (Or.inl hx)
    · rcases self.mem_addRequest.mp hx with hx | hx
      · exact Or.inr hx
      · exact Or.inl (Or.inr hx)
  · apply (hanswered.payloadOk hp hok hanswerable).of_leaves hsame
    · rintro (hwaits | hwaits | ⟨hwaits, _⟩) <;> cases hwaits
    · intro hstatus
      cases hstatus
  · intro hstatus
    cases hstatus
  · rintro (hwaits | ⟨hwaits, _⟩) <;> cases hwaits
  · intro hmem hne
    rw [hanswered.untouched] at hne
    exact absurd (hanswerable.idles hsession (hp.running ▸ hmem)) hne
  · exact fun hmem _ hkey => hanswered.covered hp hstart (Or.inl hmem) hkey

/-- The session takes its next input. -/
theorem Answering.proceed (w : W)
    (hanswered : self.Answered out mro start s reqId request r true)
    (hcontinues : self.Continues r r') :
    Answering tokens mro start
      (SchedulerState.updateRequest
        { s with
          world := w
          waiting := self.requestQueue.addRequest (s.updateRequest request fun _ => r').objs
            s.waiting request }
        request fun _ => r',
      acc.addStopped request (s.objs request).status) := by
  obtain ⟨generated, hgenerated, hdelivered⟩ := hanswered.delivered
  obtain ⟨hresumable, update, rest, hqueue, hprompt, rfl⟩ := hcontinues
  obtain ⟨_, _, _, _, _, _, _, hpreempted, _, hsameQueue, _⟩ := Request.delivered_payload hdelivered
  have hsession : (start.objs request).resumable = true := by
    rw [← hanswered.untouched]
    exact hdelivered.resumable hresumable
  have hnever : r.numPreemptions = 0 := by
    rw [hpreempted, hanswered.untouched]
    apply hanswerable.continues hsession
    rw [← hanswered.untouched, Request.hasNextInput, ← hsameQueue, hqueue]
  have hsame : Request.SamePayload r { r with streamingQueue := some rest } :=
    { Request.SamePayload.refl r with }
  have hpayload := ((hanswered.payloadOk hp hok hanswerable).of_status hsame rfl
    rfl).continueSession self update hprompt hnever
  have hruns : request ∈ s.running → (s.objs request).status = .running := by
    intro hmem
    rw [hanswered.untouched]
    exact hanswerable.idles hsession (hp.running ▸ hmem)
  refine hp.stop rfl rfl rfl rfl ?_ hpayload ?_ ?_ ?_ ?_
  · rintro x (hx | hx)
    · rcases self.mem_addRequest.mp hx with hx | hx
      · exact Or.inr hx
      · exact Or.inl (Or.inl hx)
    · exact Or.inl (Or.inr hx)
  · intro hstatus
    cases hstatus
  · rintro (hwaits | ⟨hwaits, _⟩) <;> cases hwaits
  · exact fun hmem hne => absurd (hruns hmem) hne
  · exact fun hmem hne => absurd (hruns hmem) hne

end

/-- **Step lemma.**  The output of one request; `start` is the state before the loop. -/
theorem OutputEffect.answering {p p' : SchedulerState W × OutputLocals}
    (h : self.OutputEffect out mro start reqId p p') (hok : RegistryOk start)
    (hstart : PayloadsOk tokens (fun _ => False) start)
    (hanswerable : reqId ∈ out.numScheduledTokens.keys → ∀ x, start.unfinished? reqId = some x →
      Answerable mro reqId start x)
    (hp : Answering tokens mro start p) : Answering tokens mro start p' := by
  have hcan : ∀ {s request r stopped}, self.Answered out mro start s reqId request r stopped →
      Answerable mro reqId start request :=
    fun hanswered => hanswerable hanswered.scheduled _ hanswered.unfinished
  cases h with
  | touch s acc w =>
    exact
      { nextRef := hp.nextRef
        previous := hp.previous
        running := hp.running
        sent := hp.sent
        stopped := hp.stopped
        payloads := hp.payloads.of_kept
          (TokensKept.of_eq rfl rfl rfl rfl rfl rfl) }
  | report s acc request outputs hscheduled hunfinished => exact hp.report outputs
  | deliver w hanswered => exact hp.deliver hok (hcan hanswered) hstart w hanswered
  | finish w w' hanswered hends hdelayed =>
    exact hp.finish hok (hcan hanswered) hstart w w' _ hanswered hends
  | idle w hanswered hresumable hempty =>
    exact hp.idle hok (hcan hanswered) hstart w hanswered hresumable
  | proceed w hanswered hcontinues => exact hp.proceed hok (hcan hanswered) w hanswered hcontinues

end

/-- Before the loop. -/
theorem answering_start (mro : ModelRunnerOutput)
    (hs : PayloadsOk tokens (fun _ => False) start) :
    Answering tokens mro start (start, OutputLocals.init) :=
  { nextRef := rfl
    previous := rfl
    running := rfl
    sent := fun _ hx => hx
    stopped := nofun
    payloads :=
      { requests := hs.requests
        waiting := hs.waiting
        running := fun x hx _ => hs.running x hx id
        covered := fun x hx _ hkey =>
          le_trans (hs.covered x hx id hkey) (Nat.le_add_right _ _) } }

/-- After the loop the stopped requests leave `running`. -/
theorem Answering.removeStopped (hp : Answering tokens mro start (s, acc)) :
    PayloadsOk (tokens.generate mro) (fun _ => False) (self.removeStopped acc s) := by
  have hrunning : ∀ x ∈ (self.removeStopped acc s).running,
      x ∈ s.running ∧ x ∉ acc.stoppedRunningReqs := by
    intro x hx
    obtain ⟨hx, hnot⟩ := List.mem_filter.mp hx
    exact ⟨hx, of_decide_eq_true hnot⟩
  exact
    { requests := hp.payloads.requests
      waiting := fun x hx => hp.payloads.waiting x (waits_removeStopped hx)
      running := fun x hx _ => hp.payloads.running x (hrunning x hx).1 (hrunning x hx).2
      covered := by
        rintro x hx _
        apply hp.payloads.covered x
        · rcases hx with hx | ⟨hx, hresumed⟩
          · exact Or.inl (hrunning x hx).1
          · exact Or.inr ⟨queued_removeStopped hx, hresumed⟩
        · intro hstopped
          rcases hx with hx | ⟨_, hresumed⟩
          · exact (hrunning x hx).2 hstopped
          · exact hp.stopped x hstopped hresumed }

/-- **`update_from_output`** adds what the worker generated. -/
theorem Updated.payloadsOk {out : SchedulerOutput} {done : SchedulerState W}
    (h : self.Updated out mro s start done acc s') (hok : RegistryOk s)
    (hs : PayloadsOk tokens (fun _ => False) s)
    (hanswerable : ∀ reqId ∈ out.numScheduledTokens.keys, ∀ x, s.unfinished? reqId = some x →
      Answerable mro reqId s x) :
    PayloadsOk (tokens.generate mro) (fun _ => False) s' := by
  have hstart : PayloadsOk tokens (fun _ => False) start :=
    hs.of_kept (ConnectorEffects.kept h.invalid)
  have hokStart : RegistryOk start :=
    invariant_of_chain (fun _ _ heffect hbefore => heffect.registryOk hbefore) h.invalid hok
  have hrecomputed := ConnectorEffects.onlyRecomputed h.invalid
  have hcan : ∀ reqId ∈ out.numScheduledTokens.keys, ∀ x, start.unfinished? reqId = some x →
      Answerable mro reqId start x := by
    intro reqId hkey x hx
    obtain ⟨hget, hunfinished⟩ := start.unfinished?_eq_some.mp hx
    obtain ⟨computed, hobjs⟩ := hrecomputed.objs x
    have hbefore : Answerable mro reqId s x := by
      apply hanswerable reqId hkey x
      apply s.unfinished?_eq_some.mpr
      refine ⟨hrecomputed.requests reqId x hget, ?_⟩
      rw [hobjs] at hunfinished
      exact hunfinished
    constructor
    · rw [hobjs]
      exact hbefore.known
    · rw [hobjs, ConnectorEffects.running h.invalid]
      exact hbefore.idles
    · rw [hobjs]
      exact hbefore.continues
  have hdone : Answering tokens mro start (done, acc) :=
    invariant_of_chain
      (I := fun p : SchedulerState W × OutputLocals => Answering tokens mro start p)
      (fun _ _ ⟨reqId, heffect⟩ hp => heffect.answering hokStart hstart (hcan reqId) hp) h.outputs
      (answering_start mro hstart)
  have hremoved : PayloadsOk (tokens.generate mro) (fun _ => False)
      (self.removeStopped acc done) := hdone.removeStopped
  obtain ⟨failed, hfailed, hloads⟩ := h.loaded
  have hkept : PayloadsOk (tokens.generate mro) (fun _ => False) failed := by
    rcases hfailed with rfl | ⟨ids, _, hfinished⟩
    · exact hremoved
    · exact hremoved.of_kept hfinished.kept
  exact hkept.of_kept (ConnectorEffects.kept hloads)

end

/-! ## 6. Runs -/

/-- Only a session is continued. -/
theorem resumable_of_fromRequest {request : Request} {update : StreamingUpdate}
    (h : StreamingUpdate.fromRequest request = some update) : request.resumable = true := by
  cases hresumable : request.resumable with
  | true => rfl
  | false =>
    unfold StreamingUpdate.fromRequest at h
    rw [hresumable] at h
    cases h

/-- **Step lemma.** -/
theorem OperationEffect.payloadsOk {tokens : WorkerTokens} {s s' : SchedulerState W}
    {op : SchedulerOp W} {out : Option SchedulerOutput} (h : self.OperationEffect s op out s')
    (hv1 : self.useV2ModelRunner = false) (hs : PayloadsOk tokens (fun _ => False) s)
    (hnames : RegistryNames s (Queued s))
    (hstep : SchedulerStep.KeepsPayloads ⟨s, op, out, s'⟩) :
    PayloadsOk (tokens.after ⟨s, op, out, s'⟩) (fun _ => False) s' ∧
      ∀ o ∈ out, HandsOver tokens s o := by
  cases h with
  | register w hinit habsent => exact ⟨payloadsOk_register hs hnames.heldKnown w hinit, nofun⟩
  | @session params request existing s' hinit hexisting heffect =>
    refine ⟨?_, nofun⟩
    cases heffect with
    | append hstatus =>
      have hsame : Request.SamePayload (s.objs existing)
          (appendUpdate (StreamingUpdate.fromRequest request) (s.objs existing)) :=
        { Request.SamePayload.refl (s.objs existing) with }
      exact hs.of_kept (TokensKept.updateRequest _ existing _ hsame
        (fun hr => hr.of_status hsame rfl rfl) (Or.inl rfl) id)
    | @proceed update hstatus hprompt hupdate =>
      obtain ⟨hid, hresumable⟩ := Request.init_params hinit
      have hsession := resumable_of_fromRequest hupdate
      have hnever := hstep (hresumable ▸ hsession) existing (hid ▸ hexisting) hstatus
      have hwaits : PayloadsOk tokens (fun _ => False)
          { s with numWaitingForStreamingInput := s.numWaitingForStreamingInput - 1 } :=
        hs.of_kept (TokensKept.of_eq rfl rfl rfl rfl rfl rfl)
      exact payloadsOk_continueSession hwaits (hnames.registry.known hexisting) hstatus hprompt
        hnever update
    | endSession hstatus hfinished => exact hs.of_kept hfinished.kept
  | schedule hscheduled =>
    refine ⟨hscheduled.payloadsOk hv1 hnames hstep hs, ?_⟩
    rintro out' ⟨⟩
    exact hscheduled.handsOver hv1 hnames hstep hs
  | updateFromOutput hupdated => exact ⟨hupdated.payloadsOk hnames.registry hs hstep, nofun⟩
  | finishRequests hfinished => exact ⟨hs.of_kept hfinished.kept, nofun⟩
  | updateDraftTokenIds objs hobjs =>
    refine ⟨hs.of_kept ?_, nofun⟩
    refine TokensKept.of_statuses rfl (fun _ h => h) ?_ (fun _ h => h) (fun _ h => h)
    intro x
    obtain ⟨specTokenIds, hx⟩ := hobjs x
    dsimp only
    rw [hx]
    exact ⟨{ Request.SamePayload.refl (s.objs x) with }, rfl, rfl⟩
  | @resetPrefixCache _ _ s₁ previous w hreset hprevious =>
    refine ⟨hs.of_kept ((ResetEffects.kept hreset).trans ?_), nofun⟩
    refine TokensKept.of_objs rfl ?_ rfl (fun _ h => h) (fun _ h => h)
    rcases hprevious with rfl | ⟨rfl, _⟩
    · exact nofun
    · exact fun _ h => h
  | pauseInPlace hpausable => exact ⟨hs.of_kept (kept_afterPause ..), nofun⟩
  | holdForToolCall hpausable => exact ⟨hs.of_kept (kept_afterHold ..), nofun⟩
  | setPauseState | pauseInPlaceIgnored | holdForToolCallIgnored | submitToolResponse
  | recordSpeculativeHandle | environment =>
    exact ⟨hs.of_kept (TokensKept.of_eq rfl rfl rfl rfl rfl rfl), nofun⟩

/-- The invariant of a run. -/
structure PayloadsSent (tokens : WorkerTokens) (s : SchedulerState W) : Prop where
  payloads : PayloadsOk tokens (fun _ => False) s
  names : RegistryNames s (Queued s)

theorem payloadsSent_init (objs : Ref → Request) (edmmHook : Option EdmmSchedulerHook) (w : W)
    (tokens : WorkerTokens) : PayloadsSent tokens (SchedulerState.init objs edmmHook w) where
  payloads :=
    { requests := nofun
      waiting := by rintro x (hx | hx) <;> cases hx
      running := nofun
      covered := by rintro x (hx | ⟨hx | hx | hx, _⟩) <;> cases hx }
  names := registered_init objs edmmHook w

theorem keepsPayloads_traceless {s s' : SchedulerState W} {op : SchedulerOp W}
    {out : Option SchedulerOutput} (h : SchedulerStep.KeepsPayloads ⟨s, op, out, s'⟩) :
    SchedulerStep.KeepsPayloads ⟨traceless s, op, out, s'⟩ := by
  cases op with
  | schedule =>
    have hready : ReadyToSchedule s := h
    exact
      { once := hready.once
        unfinished := hready.unfinished
        counted := hready.counted
        answered := hready.answered }
  | updateFromOutput out' mro =>
    intro reqId hkey x hx
    have hcan := h reqId hkey x hx
    exact { known := hcan.known, idles := hcan.idles, continues := hcan.continues }
  | _ => exact h

theorem PayloadsSent.exec {tokens : WorkerTokens} {s s' : SchedulerState W} {op : SchedulerOp W}
    {out : Option SchedulerOutput} (hs : PayloadsSent tokens s)
    (hv1 : self.useV2ModelRunner = false) (hexec : SchedulerOp.exec self op s = .ok out s')
    (hstep : SchedulerStep.KeepsPayloads ⟨s, op, out, s'⟩) :
    PayloadsSent (tokens.after ⟨s, op, out, s'⟩) s' ∧ ∀ o ∈ out, HandsOver tokens s o := by
  have heffect := effect_of_exec hs.names.registry hexec
  have hnames := hs.names.traceless
  obtain ⟨hpayloads, hhands⟩ := heffect.payloadsOk hv1
    (hs.payloads.of_kept (TokensKept.of_eq rfl rfl rfl rfl rfl rfl)) hnames
    (keepsPayloads_traceless hstep)
  have hregistered : RegistryNames s' (Queued s') := by
    apply heffect.registered hnames
    rintro rfl _ x hx
    exact hstep.unfinished x (Or.inr hx)
  refine ⟨{ payloads := hpayloads, names := hregistered }, ?_⟩
  intro o ho
  have hout := hhands o ho
  exact
    { new := hout.new
      cached := hout.cached
      started := hout.started
      covered := hout.covered }

theorem workerTokens_append (history : List (SchedulerStep W)) (step : SchedulerStep W) :
    workerTokens (history ++ [step]) = (workerTokens history).after step := by
  rw [workerTokens, List.foldl_append]
  rfl

/-- **Run lemma.** -/
theorem payloadsSent_of_run {start s : SchedulerState W} {history : List (SchedulerStep W)}
    (hv1 : self.useV2ModelRunner = false) (run : SchedulerRun self start history s)
    (hsteps : ∀ step ∈ history, SchedulerStep.KeepsPayloads step)
    (hstart : PayloadsSent (fun _ => 0) start) : PayloadsSent (workerTokens history) s := by
  apply run.invariant_of_history (I := fun history s => PayloadsSent (workerTokens history) s) _
    hsteps hstart
  intro history s s' op output hbefore hexec hstep
  rw [workerTokens_append]
  exact (hbefore.exec hv1 hexec hstep).1

/-- **The worker is given the tokens of what it runs** in every run that promotes only
    requests without output tokens after a tool call, continues only sessions that were
    never preempted, and takes outputs of requests that the worker knows. -/
theorem workerPayload_run {objs : Ref → Request} {edmmHook : Option EdmmSchedulerHook} {w : W}
    {history : List (SchedulerStep W)} {s : SchedulerState W}
    (hv1 : self.useV2ModelRunner = false)
    (run : SchedulerRun self (SchedulerState.init objs edmmHook w) history s)
    (hsteps : ∀ step ∈ history, SchedulerStep.KeepsPayloads step) : HandsOverAll history := by
  rintro earlier step later rfl
  obtain ⟨hearlier, hexec, _⟩ := run.split rfl
  have hbefore := payloadsSent_of_run hv1 hearlier
    (fun step h => hsteps step (List.mem_append_left _ h)) (payloadsSent_init objs edmmHook w _)
  exact (hbefore.exec hv1 hexec
    (hsteps step (List.mem_append_right _ List.mem_cons_self))).2

/-- Of two requests, one is paused before it gets its first token.  Its response arrives,
    both run, both are preempted, and both are resumed. -/
theorem workerPayload_run_resumed : ∃ history s, SchedulerRun roomy start history s ∧
    history.length = 10 ∧ HandsOverAll history := by
  have hplayed : ∃ p ∈ roomy.play start
      [.op (.addRequest (.text "a" [1, 2, 3] 8 false)),
        .op (.addRequest (.text "b" [5, 6] 8 true)), .op (.holdForToolCall "b" ⟨0, none, 0⟩),
        .op (.submitToolResponse "b"), .op .schedule, .deliver 0 [("a", [4]), ("b", [7])],
        .op (.resetPrefixCache true false), .op .schedule, .deliver 1 [("a", [8]), ("b", [9])],
        .op .schedule],
      p.1.length = 10 ∧ ∀ step ∈ p.1, SchedulerStep.KeepsPayloads step := by
    decide +kernel
  obtain ⟨⟨history, s⟩, hhistory, hlength, hsteps⟩ := hplayed
  have run := run_of_play (Option.mem_def.mp hhistory)
  exact ⟨history, s, run, hlength, workerPayload_run rfl run hsteps⟩

/-- **A resumed tool call loses its output.**  It is WAITING again, so the worker is given
    its prompt, without the token that it generated before the pause. -/
theorem resumed_toolCall_loses_output :
    ¬ ∀ (history : List (SchedulerStep Unit)) (s : SchedulerState Unit),
      SchedulerRun roomy start history s → HandsOverAll history := by
  intro hclaim
  have hplayed : ∃ p ∈ roomy.play start
      [.op (.addRequest (.text "a" [1, 2, 3] 8 false)), .op .schedule, .deliver 0 [("a", [4])],
        .op (.holdForToolCall "a" ⟨0, none, 0⟩), .op (.submitToolResponse "a"), .op .schedule],
      ∃ step ∈ p.1[5]?, ∃ out ∈ step.output, ∃ data ∈ out.scheduledNewReqs,
        step.before.requests.get? data.reqId = some 0 ∧
          (step.before.objs 0).outputTokenIds = [4] := by
    decide +kernel
  obtain ⟨⟨history, s⟩, hhistory, step, hstep, out, hout, data, hdata, hget, houtput⟩ := hplayed
  have hsplit : history = history.take 5 ++ step :: history.drop 6 := by
    obtain ⟨hlt, rfl⟩ := List.getElem?_eq_some_iff.mp (Option.mem_def.mp hstep)
    rw [← List.drop_eq_getElem_cons, List.take_append_drop]
  have hlaw := hclaim history s (run_of_play (Option.mem_def.mp hhistory)) _ step _ hsplit out hout
  obtain ⟨r, hr, hnone⟩ := hlaw.new data hdata
  rw [hget] at hr
  obtain rfl := Option.some.inj hr
  rw [houtput] at hnone
  cases hnone

end Scheduler

end Edmm
