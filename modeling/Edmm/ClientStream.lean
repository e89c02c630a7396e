/-
  Edmm/ClientStream.lean
  ======================
  **What the client of a request receives.**

  `update_from_output` sends the new tokens of a request in one `EngineCoreOutput`.  The
  outputs of a request that is no session add up to its output tokens: none is lost,
  sent twice or sent after the request stopped, although `_update_request_with_output`
  trims what was sampled.  The output that comes with the stop says why it stopped.
-/
import Edmm.PriorityQueues
import Edmm.WorkerPayload

namespace Edmm

open Program

variable {W : Type}

/-! ## 1. The law -/

/-- What a step sends to the clients. -/
def SchedulerStep.outputs (scheduler : Scheduler W) (step : SchedulerStep W) :
    List EngineCoreOutput :=
  match step.op with
  | .updateFromOutput out mro =>
      match scheduler.updateFromOutput out mro (Scheduler.traceless step.before) with
      | .ok outputs _ => outputs
      | .error _ _ => []
  | _ => []

/-- The outputs for a request. -/
def outputsFor (reqId : RequestId) (outputs : List EngineCoreOutput) : List EngineCoreOutput :=
  outputs.filter fun output => output.requestId = reqId

/-- The tokens that were sent for a request. -/
def sentTokens (scheduler : Scheduler W) (reqId : RequestId) (history : List (SchedulerStep W)) :
    List Token :=
  history.flatMap fun step =>
    (outputsFor reqId (SchedulerStep.outputs scheduler step)).flatMap EngineCoreOutput.newTokenIds

/-- The outputs for a request say what happened to it. -/
structure Streams (before after : Request) (outputs : List EngineCoreOutput) : Prop where
  once : outputs.length ≤ 1
  tokens : after.outputTokenIds =
    before.outputTokenIds ++ outputs.flatMap EngineCoreOutput.newTokenIds
  reason : ∀ output ∈ outputs, output.finishReason = after.status.getFinishedReason
  client : ∀ output ∈ outputs, output.clientIndex = before.clientIndex

theorem Streams.silent {r r' : Request} (h : r'.outputTokenIds = r.outputTokenIds) :
    Streams r r' [] where
  once := Nat.zero_le 1
  tokens := by simp [h]
  reason _ houtput := by cases houtput
  client _ houtput := by cases houtput

namespace Scheduler

variable {self : Scheduler W}

/-! ## 2. The output of one request -/

/-- The tokens that are kept are the new output tokens. -/
theorem Delivered.outputTokenIds {specTokenIds : List Token} {generated : List Token × Bool}
    {before after : Request} {stopped : Bool}
    (h : self.Delivered specTokenIds generated before after stopped) :
    after.outputTokenIds = before.outputTokenIds ++
      (self.applyOutput specTokenIds generated.1 generated.2 before).2.1 := by
  obtain ⟨hashes, computed, placeholders, status, reason, hform⟩ :=
    (self.applyOutput_extends specTokenIds generated.1 generated.2 before).form
  cases h with
  | applied => rw [hform]
  | rejected htokens hgrammar =>
    rw [rejectedByGrammar, hform]

theorem Delivered.clientIndex {specTokenIds : List Token} {generated : List Token × Bool}
    {before after : Request} {stopped : Bool}
    (h : self.Delivered specTokenIds generated before after stopped) :
    after.clientIndex = before.clientIndex := by
  obtain ⟨kept, hashes, computed, placeholders, status, reason, resumable, rfl⟩ := h.form
  rfl

/-- A request that is not blocked for input has a finish reason only if it is finished. -/
theorem getFinishedReason_eq_none {status : RequestStatus}
    (hunfinished : status.isFinished = false) (hidle : status ≠ .waitingForStreamingReq) :
    status.getFinishedReason = none := by
  revert hunfinished hidle
  cases status <;> decide

/-- What becomes of a request that stopped and is no session. -/
theorem stopRequest_streams (self : Scheduler W) (s : SchedulerState W) (request : Ref)
    (status : RequestStatus) (acc : OutputLocals) (hfinished : (s.objs request).isFinished = true) :
    wp (self.stopRequest request status acc)
      (fun acc' s' => acc'.outputs = acc.outputs ∧ ((s.objs request).resumable = false →
        (s'.objs request).outputTokenIds = (s.objs request).outputTokenIds ∧
          (s'.objs request).status = (s.objs request).status))
      (fun _ _ => True) s := by
  have hadd : (acc.addStopped request status).outputs = acc.outputs := by
    unfold OutputLocals.addStopped
    split <;> rfl
  unfold stopRequest
  rw [wp_bind]
  apply wp_mono (self.handleStoppedRequest_wp s request hfinished) _ (fun _ _ _ => trivial)
  intro finished s'
  rintro (⟨rfl, r', hends, rfl⟩ | ⟨rfl, hresumable, _, rfl⟩ | ⟨rfl, r', hcontinues, rfl⟩)
  · rw [wp_bind, wp_onlyIf]
    refine ⟨fun _ => ?_, fun h => absurd rfl h⟩
    apply wp_mono (self.freeRequest_wp _ request false) _ (fun _ _ _ => trivial)
    rintro _ s' ⟨_, w', delayed, _, rfl⟩
    rw [wp_pure]
    refine ⟨hadd, fun _ => ?_⟩
    dsimp only [afterFree]
    rw [SchedulerState.objs_updateRequest_self]
    rcases hends with ⟨_, rfl⟩ | ⟨rest, _, rfl⟩
    · exact ⟨rfl, rfl⟩
    · exact ⟨rfl, rfl⟩
  · rw [wp_bind, wp_onlyIf]
    refine ⟨fun h => absurd h Bool.false_ne_true, fun _ => ?_⟩
    rw [wp_pure]
    refine ⟨hadd, fun hsession => ?_⟩
    rw [hresumable] at hsession
    cases hsession
  · rw [wp_bind, wp_onlyIf]
    refine ⟨fun h => absurd h Bool.false_ne_true, fun _ => ?_⟩
    rw [wp_pure]
    refine ⟨hadd, fun hsession => ?_⟩
    rw [hcontinues.1] at hsession
    cases hsession

/-- **One output.**  It is sent with the tokens that the request keeps. -/
theorem processOutput_streams (self : Scheduler W) (s : SchedulerState W)
    (specTokenIds : List Token) (reqId : RequestId) (generated : List Token × Bool)
    (request : Ref) (acc : OutputLocals) (hunfinished : (s.objs request).isFinished = false) :
    wp (self.processOutput specTokenIds reqId generated request acc)
      (fun acc' s' => ∃ answers, acc'.outputs = acc.outputs ++ answers ∧
        (∀ output ∈ answers, output.requestId = reqId) ∧
        (Sessionless (s.objs request) → Streams (s.objs request) (s'.objs request) answers ∧
          ((s'.objs request).isFinished = true → answers ≠ [])))
      (fun _ _ => True) s := by
  unfold processOutput
  rw [wp_bind, wp_get, wp_bind]
  apply wp_mono (TouchesWorld.onlyIf (self.freeEncoderInputs_touches _) s) _ (fun _ _ _ => trivial)
  rintro _ s₁ ⟨_, w, rfl⟩
  dsimp only
  rw [wp_bind, wp_modifyRequest, wp_bind]
  apply wp_mono (self.advanceGrammar_wp _ request specTokenIds generated (s.objs request)
    (by rw [SchedulerState.objs_updateRequest_self])) _ (fun _ _ _ => trivial)
  rintro stopped s₂ ⟨r, w', hdelivered, rfl⟩
  rw [wp_bind, wp_getRequest, SchedulerState.objs_updateRequest_self, wp_bind]
  -- the request keeps the tokens and the status that its output gave it
  have hstop : wp
      (if stopped then self.stopRequest request (s.objs request).status acc else pure acc :
        SchedM W OutputLocals)
      (fun acc' s' => acc'.outputs = acc.outputs ∧ (r.resumable = false →
        (s'.objs request).outputTokenIds = r.outputTokenIds ∧ (s'.objs request).status = r.status))
      (fun _ _ => True)
      (SchedulerState.updateRequest
        { SchedulerState.updateRequest { s with world := w } request fun _ =>
            (self.applyOutput specTokenIds generated.1 generated.2 (s.objs request)).1 with
          world := w' } request fun _ => r) := by
    cases stopped with
    | true =>
      have hfinished := hdelivered.finished rfl
      have hstopped := self.stopRequest_streams (SchedulerState.updateRequest
        { SchedulerState.updateRequest { s with world := w } request fun _ =>
            (self.applyOutput specTokenIds generated.1 generated.2 (s.objs request)).1 with
          world := w' } request fun _ => r) request (s.objs request).status acc
        (by rw [SchedulerState.objs_updateRequest_self]; exact hfinished)
      rw [SchedulerState.objs_updateRequest_self] at hstopped
      exact hstopped
    | false =>
      refine ⟨rfl, fun _ => ?_⟩
      rw [SchedulerState.objs_updateRequest_self]
      exact ⟨rfl, rfl⟩
  apply wp_mono hstop _ (fun _ _ _ => trivial)
  rintro acc' s₃ ⟨houtputs, hsame⟩
  have hresumable : Sessionless (s.objs request) → r.resumable = false := by
    intro hsession
    cases hr : r.resumable with
    | false => rfl
    | true =>
      have hbefore := hdelivered.resumable hr
      rw [hsession.1] at hbefore
      cases hbefore
  have hreason : Sessionless (s.objs request) →
      (if stopped then r.status.getFinishedReason else none) = r.status.getFinishedReason := by
    intro hsession
    cases stopped with
    | true => rfl
    | false =>
      rw [hdelivered.same.2 rfl]
      exact (getFinishedReason_eq_none hunfinished hsession.2).symm
  split
  · rw [wp_bind, wp_modifyRequest, wp_pure]
    refine ⟨_, by rw [houtputs], ?_, ?_⟩
    · intro output houtput
      rw [List.mem_singleton.mp houtput]
    · intro hsession
      obtain ⟨htokens, hstatus⟩ := hsame (hresumable hsession)
      rw [SchedulerState.objs_updateRequest_self]
      refine ⟨?_, fun _ h => by cases h⟩
      constructor
      · exact le_refl 1
      · change (s₃.objs request).outputTokenIds = _
        rw [htokens, hdelivered.outputTokenIds]
        simp
      · intro output houtput
        rw [List.mem_singleton.mp houtput]
        change _ = (s₃.objs request).status.getFinishedReason
        rw [hstatus]
        exact hreason hsession
      · intro output houtput
        rw [List.mem_singleton.mp houtput]
        exact hdelivered.clientIndex
  · rename_i hsilent
    rw [not_or, not_or, not_not] at hsilent
    obtain ⟨hnone, _, hgoes⟩ := hsilent
    refine ⟨[], by rw [houtputs, List.append_nil], fun _ h => absurd h List.not_mem_nil, ?_⟩
    intro hsession
    obtain ⟨htokens, hstatus⟩ := hsame (hresumable hsession)
    constructor
    · apply Streams.silent
      rw [htokens, hdelivered.outputTokenIds, hnone, List.append_nil]
    · intro hfinished
      have hstopped : stopped = false := by simpa using hgoes
      rw [Request.isFinished, hstatus, hdelivered.same.2 hstopped] at hfinished
      rw [Request.isFinished, hfinished] at hunfinished
      cases hunfinished

/-! ## 3. The outputs of one call -/

theorem outputsFor_append (reqId : RequestId) (outputs outputs' : List EngineCoreOutput) :
    outputsFor reqId (outputs ++ outputs') =
      outputsFor reqId outputs ++ outputsFor reqId outputs' :=
  List.filter_append ..

theorem outputsFor_self {reqId : RequestId} {outputs : List EngineCoreOutput}
    (h : ∀ output ∈ outputs, output.requestId = reqId) : outputsFor reqId outputs = outputs := by
  unfold outputsFor
  simpa using h

theorem outputsFor_other {reqId other : RequestId} {outputs : List EngineCoreOutput}
    (h : ∀ output ∈ outputs, output.requestId = other) (hne : reqId ≠ other) :
    outputsFor reqId outputs = [] := by
  unfold outputsFor
  rw [List.filter_eq_nil_iff]
  intro output houtput
  rw [h output houtput, decide_eq_true_eq]
  exact hne.symm

/-- What the outputs say of the request that the id had at the start. -/
structure StreamsFrom (start : SchedulerState W) (reqId : RequestId)
    (outputs : List EngineCoreOutput) (s : SchedulerState W) : Prop where
  streams : ∀ x, start.unfinished? reqId = some x → Sessionless (start.objs x) →
    Streams (start.objs x) (s.objs x) outputs ∧
      ((s.objs x).isFinished = true → outputs ≠ [])
  silent : start.unfinished? reqId = none → outputs = []

theorem StreamsFrom.refl (start : SchedulerState W) (reqId : RequestId) :
    StreamsFrom start reqId [] start where
  streams x hx _ := by
    refine ⟨Streams.silent rfl, fun hfinished => ?_⟩
    rw [(start.unfinished?_eq_some.mp hx).2] at hfinished
    cases hfinished
  silent _ := rfl

/-- Only the request of the id counts. -/
theorem StreamsFrom.congr {start s s' : SchedulerState W} {reqId : RequestId}
    {outputs : List EngineCoreOutput} (h : StreamsFrom start reqId outputs s)
    (hobjs : ∀ x, start.unfinished? reqId = some x → s'.objs x = s.objs x) :
    StreamsFrom start reqId outputs s' where
  streams x hx := by
    rw [hobjs x hx]
    exact h.streams x hx
  silent := h.silent

/-- The id is passed over. -/
structure PassedOver (start : SchedulerState W) (reqId : RequestId)
    (outputs : List EngineCoreOutput) (s : SchedulerState W) : Prop where
  silent : outputs = []
  requests : s.requests.get? reqId = start.requests.get? reqId
  objs : ∀ x, start.requests.get? reqId = some x → s.objs x = start.objs x

/-- What the loop did for an id: the ids whose blocks failed to load are passed over. -/
structure Consumed (failedKvLoadReqIds : List RequestId) (start : SchedulerState W)
    (reqId : RequestId) (outputs : List EngineCoreOutput) (s : SchedulerState W) : Prop where
  streams : reqId ∉ failedKvLoadReqIds → StreamsFrom start reqId outputs s
  skipped : reqId ∈ failedKvLoadReqIds → PassedOver start reqId outputs s

theorem Consumed.refl (failedKvLoadReqIds : List RequestId) (start : SchedulerState W)
    (reqId : RequestId) : Consumed failedKvLoadReqIds start reqId [] start where
  streams _ := StreamsFrom.refl start reqId
  skipped _ := ⟨rfl, rfl, fun _ _ => rfl⟩

/-- Only the request of the id counts. -/
theorem Consumed.congr {failedKvLoadReqIds : List RequestId} {start s s' : SchedulerState W}
    {reqId : RequestId} {outputs : List EngineCoreOutput}
    (h : Consumed failedKvLoadReqIds start reqId outputs s)
    (hrequests : s'.requests.get? reqId = s.requests.get? reqId)
    (hobjs : ∀ x, start.requests.get? reqId = some x → s'.objs x = s.objs x) :
    Consumed failedKvLoadReqIds start reqId outputs s' where
  streams hnot := (h.streams hnot).congr fun x hx => hobjs x (start.unfinished?_eq_some.mp hx).1
  skipped hmem := by
    constructor
    · exact (h.skipped hmem).silent
    · exact hrequests.trans (h.skipped hmem).requests
    · intro x hx
      rw [hobjs x hx]
      exact (h.skipped hmem).objs x hx

/-- The outputs of one id, when its turn comes. -/
theorem consumeOutput_streams {start s : SchedulerState W} (hok : RegistryOk start)
    {out : SchedulerOutput} (mro : ModelRunnerOutput) (failedKvLoadReqIds : List RequestId)
    (acc : OutputLocals) {item : RequestId × Int} (hkey : item.1 ∈ out.numScheduledTokens.keys)
    (hrequests : s.requests.get? item.1 = start.requests.get? item.1)
    (hobjs : ∀ x, start.requests.get? item.1 = some x → s.objs x = start.objs x) :
    wp (self.consumeOutput out mro failedKvLoadReqIds acc item)
      (fun acc' s' => self.OutputEffectsFor out mro start item.1 (s, acc) (s', acc') ∧
        ∃ answers, acc'.outputs = acc.outputs ++ answers ∧
          (∀ output ∈ answers, output.requestId = item.1) ∧
          Consumed failedKvLoadReqIds start item.1 answers s')
      (fun _ _ => True) s := by
  have hkept : Consumed failedKvLoadReqIds start item.1 [] s :=
    (Consumed.refl failedKvLoadReqIds start item.1).congr hrequests hobjs
  have hsilent : self.OutputEffectsFor out mro start item.1 (s, acc) (s, acc) ∧
      ∃ answers, acc.outputs = acc.outputs ++ answers ∧
        (∀ output ∈ answers, output.requestId = item.1) ∧
        Consumed failedKvLoadReqIds start item.1 answers s :=
    ⟨Relation.ReflTransGen.refl, [], by rw [List.append_nil],
      fun _ h => absurd h List.not_mem_nil, hkept⟩
  unfold consumeOutput
  rw [wp_bind, wp_pyAssert]
  refine ⟨fun _ => ?_, fun _ => trivial⟩
  rw [wp_bind, wp_get]
  cases hget : s.unfinished? item.1 with
  | none => exact hsilent
  | some request =>
    dsimp only
    split
    · exact hsilent
    rename_i hnot
    cases hgenerated : generatedFor mro item.1 with
    | error e => exact trivial
    | ok generated =>
      obtain ⟨hregistered, hunfinished⟩ := s.unfinished?_eq_some.mp hget
      have hstart : start.requests.get? item.1 = some request := by
        rw [← hrequests, hregistered]
      have hsame := hobjs request hstart
      have hbefore : start.unfinished? item.1 = some request := by
        rw [SchedulerState.unfinished?_eq_some]
        exact ⟨hstart, by rw [← hsame]; exact hunfinished⟩
      have heffects := self.processOutput_effects acc hkey hbefore hsame hregistered
        (by rw [hsame]; exact hok.carries hstart) hgenerated
      have hstreams := self.processOutput_streams s (scheduledSpecFor out item.1) item.1 generated
        request acc hunfinished
      apply wp_mono (wp_and heffects hstreams) _ (fun _ _ _ => trivial)
      rintro acc' s' ⟨hfor, answers, houtputs, hids, htold⟩
      refine ⟨hfor, answers, houtputs, hids, fun _ => ?_, fun hmem => absurd hmem hnot⟩
      constructor
      · intro x hx hsession
        rw [hbefore] at hx
        cases hx
        rw [← hsame] at hsession ⊢
        exact htold hsession
      · intro hnone
        rw [hbefore] at hnone
        cases hnone

/-- Between the turns: the ids in `rest` are still to come. -/
structure StreamsUntil (out : SchedulerOutput) (failedKvLoadReqIds : List RequestId)
    (start : SchedulerState W) (rest : List (RequestId × Int)) (acc : OutputLocals)
    (s : SchedulerState W) : Prop where
  nodup : (rest.map Prod.fst).Nodup
  keys : ∀ item ∈ rest, item.1 ∈ out.numScheduledTokens.keys
  requests : ∀ item ∈ rest, s.requests.get? item.1 = start.requests.get? item.1
  objs : ∀ item ∈ rest, ∀ x, start.requests.get? item.1 = some x → s.objs x = start.objs x
  waits : ∀ item ∈ rest, outputsFor item.1 acc.outputs = []
  consumed : ∀ reqId, Consumed failedKvLoadReqIds start reqId (outputsFor reqId acc.outputs) s

/-- What the effects of one id leave alone. -/
theorem OutputEffectsFor.frame {start : SchedulerState W} (hok : RegistryOk start)
    {out : SchedulerOutput} {mro : ModelRunnerOutput} {reqId other : RequestId}
    {p p' : SchedulerState W × OutputLocals}
    (h : self.OutputEffectsFor out mro start reqId p p') (hne : other ≠ reqId) :
    p'.1.requests.get? other = p.1.requests.get? other ∧
      ∀ x, start.requests.get? other = some x → p'.1.objs x = p.1.objs x := by
  apply invariant_of_chain
    (I := fun p' : SchedulerState W × OutputLocals =>
      p'.1.requests.get? other = p.1.requests.get? other ∧
        ∀ x, start.requests.get? other = some x → p'.1.objs x = p.1.objs x) _ h
    ⟨rfl, fun _ _ => rfl⟩
  rintro p₁ p₂ heffect ⟨hrequests, hobjs⟩
  obtain ⟨hframeObjs, hframeRequests⟩ := heffect.frame
  refine ⟨(hframeRequests other fun _ => hne).trans hrequests, ?_⟩
  intro x hx
  rw [hframeObjs x ?_]
  · exact hobjs x hx
  · intro _ hitem
    have hx' := (start.unfinished?_eq_some.mp hitem).1
    exact hne ((hok.carries hx).symm.trans (hok.carries hx'))

/-- **Step lemma** of the loop. -/
theorem StreamsUntil.next {start s : SchedulerState W} (hok : RegistryOk start)
    {out : SchedulerOutput} (mro : ModelRunnerOutput) {failedKvLoadReqIds : List RequestId}
    {item : RequestId × Int} {rest : List (RequestId × Int)} {acc : OutputLocals}
    (h : StreamsUntil out failedKvLoadReqIds start (item :: rest) acc s) :
    wp (self.consumeOutput out mro failedKvLoadReqIds acc item)
      (fun acc' s' => StreamsUntil out failedKvLoadReqIds start rest acc' s')
      (fun _ _ => True) s := by
  have hnodup := h.nodup
  rw [List.map_cons, List.nodup_cons] at hnodup
  have hne : ∀ other ∈ rest, other.1 ≠ item.1 := by
    intro other hother heq
    exact hnodup.1 (heq ▸ List.mem_map_of_mem hother)
  have hfirst : item ∈ item :: rest := List.mem_cons_self
  apply wp_mono (consumeOutput_streams hok mro failedKvLoadReqIds acc (h.keys item hfirst)
    (h.requests item hfirst) (h.objs item hfirst)) _ (fun _ _ _ => trivial)
  rintro acc' s' ⟨hfor, answers, houtputs, hids, hanswers⟩
  constructor
  · exact hnodup.2
  · exact fun other hother => h.keys other (List.mem_cons_of_mem _ hother)
  · intro other hother
    rw [(OutputEffectsFor.frame hok hfor (hne other hother)).1]
    exact h.requests other (List.mem_cons_of_mem _ hother)
  · intro other hother x hx
    exact ((OutputEffectsFor.frame hok hfor (hne other hother)).2 x hx).trans
      (h.objs other (List.mem_cons_of_mem _ hother) x hx)
  · intro other hother
    rw [houtputs, outputsFor_append, outputsFor_other hids (hne other hother), List.append_nil]
    exact h.waits other (List.mem_cons_of_mem _ hother)
  · intro reqId
    rw [houtputs, outputsFor_append]
    by_cases hid : reqId = item.1
    · -- the turn of the id
      subst hid
      rw [outputsFor_self hids, h.waits item hfirst, List.nil_append]
      exact hanswers
    · rw [outputsFor_other hids hid, List.append_nil]
      obtain ⟨hrequests, hobjs⟩ := OutputEffectsFor.frame hok hfor hid
      exact (h.consumed reqId).congr hrequests hobjs

/-- The loop of `update_from_output`. -/
theorem consumeOutputs_consumed {start : SchedulerState W} (hok : RegistryOk start)
    (out : SchedulerOutput) (mro : ModelRunnerOutput) (failedKvLoadReqIds : List RequestId) :
    wp (out.numScheduledTokens.items.foldlM (self.consumeOutput out mro failedKvLoadReqIds)
        OutputLocals.init)
      (fun acc s' => ∀ reqId,
        Consumed failedKvLoadReqIds start reqId (outputsFor reqId acc.outputs) s')
      (fun _ _ => True) start := by
  have hstart : StreamsUntil out failedKvLoadReqIds start out.numScheduledTokens.items
      OutputLocals.init start :=
    { nodup := out.numScheduledTokens.nodupKeys
      keys := fun item hitem => List.mem_map_of_mem hitem
      requests := fun _ _ => rfl
      objs := fun _ _ _ _ => rfl
      waits := fun _ _ => rfl
      consumed := Consumed.refl failedKvLoadReqIds start }
  apply wp_mono (wp_foldlM_remaining (E := fun _ (_ : SchedulerState W) => True)
    (I := fun rest acc s' => StreamsUntil out failedKvLoadReqIds start rest acc s')
    (fun item rest acc s' h => h.next hok mro) hstart) _ (fun _ _ _ => trivial)
  exact fun acc s' h => h.consumed

/-- **`update_from_output`** without a KV connector. -/
theorem updateFromOutput_streams {s : SchedulerState W} (hok : RegistryOk s)
    (out : SchedulerOutput) {mro : ModelRunnerOutput} (hlocal : mro.kvConnectorOutput = none)
    (reqId : RequestId) :
    wp (self.updateFromOutput out mro)
      (fun outputs s' => StreamsFrom s reqId (outputsFor reqId outputs) s')
      (fun _ _ => True) s := by
  unfold updateFromOutput
  rw [hlocal]
  dsimp only [Option.map_none, Option.getD_none, Option.toList_none]
  rw [if_pos rfl, wp_bind, wp_pure, wp_bind]
  apply wp_mono (consumeOutputs_consumed hok out mro []) _ (fun _ _ _ => trivial)
  intro acc done hdone
  rw [wp_bind, wp_modify, wp_bind, if_neg (by simp), wp_pure, wp_bind]
  change wp (pure _) _ _ _
  rw [wp_pure, List.append_nil]
  obtain ⟨hstreams, hsilent⟩ := (hdone reqId).streams List.not_mem_nil
  exact ⟨hstreams, hsilent⟩

/-! ## 4. The other operations -/

section
variable {s s' s'' : SchedulerState W}

/-- Only requests that are finished leave the registry. -/
structure Unregisters (s s' : SchedulerState W) : Prop where
  finished : ∀ x, (s.objs x).isFinished = true → (s'.objs x).isFinished = true
  before : ∀ reqId x, s'.requests.get? reqId = some x → s.requests.get? reqId = some x
  kept : ∀ reqId x, s.requests.get? reqId = some x → (s'.objs x).isFinished = false →
    s'.requests.get? reqId = some x

theorem RequestChanges.staysFinished {r r' : Request} (h : self.RequestChanges r r')
    (hfinished : r.isFinished = true) : r'.isFinished = true := by
  rw [Request.isFinished, (h.livesOn.finished hfinished).1]
  exact hfinished

namespace Unregisters

theorem trans (h : Unregisters s s') (h' : Unregisters s' s'') : Unregisters s s'' where
  finished x hx := h'.finished x (h.finished x hx)
  before reqId x hx := h.before reqId x (h'.before reqId x hx)
  kept reqId x hx hunfinished := by
    apply h'.kept reqId x _ hunfinished
    apply h.kept reqId x hx
    cases hbefore : (s'.objs x).isFinished with
    | false => rfl
    | true =>
      rw [h'.finished x hbefore] at hunfinished
      cases hunfinished

theorem of_same (self : Scheduler W) (hchanges : ∀ x, self.RequestChanges (s.objs x) (s'.objs x))
    (hrequests : s'.requests = s.requests) : Unregisters s s' where
  finished x hx := (hchanges x).staysFinished hx
  before reqId x hx := by rwa [hrequests] at hx
  kept reqId x hx _ := by rwa [hrequests]

theorem refl (self : Scheduler W) (s : SchedulerState W) : Unregisters s s :=
  of_same self (fun _ => Relation.ReflTransGen.refl) rfl

theorem of_chain (self : Scheduler W) {S : Type} {Step : S → S → Prop}
    (state : S → SchedulerState W)
    (hstep : ∀ p p', Step p p' → Unregisters (state p) (state p')) {p p' : S}
    (chain : Relation.ReflTransGen Step p p') : Unregisters (state p) (state p') :=
  invariant_of_chain (I := fun p' => Unregisters (state p) (state p'))
    (fun p₁ p₂ hlast hbefore => hbefore.trans (hstep p₁ p₂ hlast)) chain (refl self _)

/-- A finished request is freed. -/
theorem of_afterFree (self : Scheduler W) {request : Ref} {w : W} {delayed : Bool}
    (hchanges : ∀ x, self.RequestChanges (s.objs x) (s'.objs x))
    (hrequests : s'.requests = s.requests)
    (hregistered : s.requests.get? (s'.objs request).requestId = some request)
    (hfinished : (s'.objs request).isFinished = true) :
    Unregisters s (afterFree s' request w delayed) where
  finished x hx := (hchanges x).staysFinished hx
  before reqId x hx := by
    cases delayed with
    | true =>
      rw [← hrequests]
      exact hx
    | false =>
      simp only [afterFree, Bool.false_eq_true, if_false, Dict.get?_erase, hrequests] at hx
      split at hx
      · cases hx
      · exact hx
  kept reqId x hx hunfinished := by
    cases delayed with
    | true =>
      rw [← hrequests] at hx
      exact hx
    | false =>
      simp only [afterFree, Bool.false_eq_true, if_false, Dict.get?_erase, hrequests]
      rw [if_neg, hx]
      intro hid
      rw [hid, hregistered] at hx
      cases hx
      have hstill : (s'.objs request).isFinished = false := hunfinished
      rw [hfinished] at hstill
      cases hstill

end Unregisters

theorem FinishEffect.unregisters {finishedStatus : RequestStatus} {valid : List Ref}
    (h : self.FinishEffect finishedStatus valid s s') : Unregisters s s' := by
  have hchanges := h.changes
  cases h with
  | finish w finishedRecving failedRecving hvalid hregistered hunfinished hfinished hdelayed =>
    refine Unregisters.of_afterFree self hchanges rfl ?_ ?_
    · rw [SchedulerState.objs_updateRequest_self]
      exact hregistered
    · rw [SchedulerState.objs_updateRequest_self]
      exact hfinished

theorem FinishedBy.unregisters {requestIds : Option (List RequestId)}
    {finishedStatus : RequestStatus} (h : self.FinishedBy requestIds finishedStatus s s') :
    Unregisters s s' := by
  have hfirst : Unregisters s (self.removeFromQueues (validRequests s requestIds) s) :=
    Unregisters.of_same self (fun _ => Relation.ReflTransGen.refl) rfl
  exact hfirst.trans (Unregisters.of_chain self (fun s => s)
    (fun _ _ heffect => heffect.unregisters) h.effects)

theorem OutputEffect.unregisters {out : SchedulerOutput} {mro : ModelRunnerOutput}
    {start : SchedulerState W} {reqId : RequestId} {p p' : SchedulerState W × OutputLocals}
    (h : self.OutputEffect out mro start reqId p p') : Unregisters p.1 p'.1 := by
  have hchanges := h.changes
  cases h with
  | @finish s acc request r r' delayed w w' hanswered hends hdelayed =>
    have hid := (RequestChanges.livesOn (hchanges request)).requestId
    dsimp only [afterFree] at hid
    rw [SchedulerState.objs_updateRequest_self, hanswered.carries] at hid
    refine Unregisters.of_afterFree self hchanges rfl ?_ ?_
    · rw [SchedulerState.objs_updateRequest_self, hid]
      exact hanswered.registered
    · rw [SchedulerState.objs_updateRequest_self]
      exact hends.finished hanswered.finished
  | touch | report | deliver | idle | proceed => exact Unregisters.of_same self hchanges rfl

/-- **Step lemma.**  Only `add_request` registers a request. -/
theorem OperationEffect.unregisters (hconnector : self.hasConnector = false)
    {op : SchedulerOp W} {output : Option SchedulerOutput}
    (h : self.OperationEffect s op output s') (hlocal : WithoutKvOutput op) :
    Unregisters s s' ∨ ∃ params request w, op = .addRequest params ∧
      Request.init self.externals.blockHasher params = .ok request ∧
      s' = self.afterRegister s (sessionStarted request) w := by
  cases h with
  | @register params request w hinit habsent =>
    exact Or.inr ⟨params, request, w, rfl, hinit, rfl⟩
  | session hinit hexisting heffect =>
    left
    have hchanges := heffect.changes
    cases heffect with
    | append hstatus => exact Unregisters.of_same self hchanges rfl
    | proceed hstatus hprompt => exact Unregisters.of_same self hchanges rfl
    | endSession hstatus hfinished => exact hfinished.unregisters
  | schedule hscheduled =>
    exact Or.inl (Unregisters.of_same self (hscheduled.changes hconnector)
      hscheduled.sameRegistry.requests)
  | @updateFromOutput out mro start done s' acc hupdated =>
    left
    obtain ⟨rfl, rfl⟩ := hupdated.withoutConnector hlocal
    have houtputs : Unregisters start done := by
      apply Unregisters.of_chain self (fun p : SchedulerState W × OutputLocals => p.1) _
        hupdated.outputs
      intro p p' heffect
      obtain ⟨_, heffect⟩ := heffect
      exact heffect.unregisters
    exact houtputs.trans (Unregisters.of_same self (fun _ => Relation.ReflTransGen.refl) rfl)
  | finishRequests hfinished => exact Or.inl hfinished.unregisters
  | @resetPrefixCache _ _ s₁ previous w hreset hprevious =>
    left
    have hpreempted : Unregisters s s₁ := by
      apply Unregisters.of_chain self (fun s => s) _ hreset
      exact fun _ _ heffect =>
        Unregisters.of_same self heffect.changes heffect.sameRegistry.requests
    exact hpreempted.trans (Unregisters.of_same self (fun _ => Relation.ReflTransGen.refl) rfl)
  | updateDraftTokenIds objs hobjs =>
    left
    refine Unregisters.of_same self (fun x => ?_) rfl
    obtain ⟨specTokenIds, hx⟩ := hobjs x
    exact changes_of_planned ⟨_, specTokenIds, _, _, _, _, _, _, hx⟩
  | pauseInPlace hpausable =>
    exact Or.inl (Unregisters.of_same self
      (changes_updateRequest (changes_toolPaused hpausable) rfl) rfl)
  | holdForToolCall hpausable =>
    exact Or.inl (Unregisters.of_same self
      (changes_updateRequest (changes_toolPaused hpausable) rfl) rfl)
  | setPauseState | pauseInPlaceIgnored | holdForToolCallIgnored | submitToolResponse
  | recordSpeculativeHandle | environment =>
    exact Or.inl (Unregisters.of_same self (fun _ => Relation.ReflTransGen.refl) rfl)

/-- `schedule()` leaves the tokens alone. -/
theorem Scheduled.outputTokenIds {afterRunning afterWaiting : Frame W} {out : SchedulerOutput}
    (h : self.Scheduled s afterRunning afterWaiting out s') (x : Ref) :
    (s'.objs x).outputTokenIds = (s.objs x).outputTokenIds := by
  obtain ⟨w, s₁, hadvanced, rfl⟩ := h.advanced
  have hrunning : (afterRunning.1.objs x).outputTokenIds = (s.objs x).outputTokenIds :=
    invariant_of_chain (I := fun p : Frame W =>
        (p.1.objs x).outputTokenIds = (s.objs x).outputTokenIds)
      (fun _ _ heffect hp => (heffect.samePayload x).outputTokenIds.trans hp) h.running rfl
  have hwaiting : (afterWaiting.1.objs x).outputTokenIds = (s.objs x).outputTokenIds :=
    invariant_of_chain (I := fun p : Frame W =>
        (p.1.objs x).outputTokenIds = (s.objs x).outputTokenIds)
      (fun _ _ heffect hp => (heffect.samePayload x).outputTokenIds.trans hp) h.waiting hrunning
  obtain ⟨_, hobjs⟩ := hadvanced.unchanged
  obtain ⟨computed, chunk, hx⟩ := hobjs x
  dsimp only at hx ⊢
  rw [hx]
  exact hwaiting

/-- **Step lemma.**  The other operations leave the output tokens alone. -/
theorem OperationEffect.outputTokenIds {op : SchedulerOp W} {output : Option SchedulerOutput}
    (h : self.OperationEffect s op output s')
    (hop : ∀ out mro, op ≠ .updateFromOutput out mro) {x : Ref} (hx : x < s.nextRef)
    (hsession : Sessionless (s.objs x)) :
    (s'.objs x).outputTokenIds = (s.objs x).outputTokenIds := by
  have hupdate : ∀ {request : Ref} {f : Request → Request},
      (f (s.objs request)).outputTokenIds = (s.objs request).outputTokenIds →
      ((s.updateRequest request f).objs x).outputTokenIds = (s.objs x).outputTokenIds := by
    intro request f hf
    rw [SchedulerState.objs_updateRequest]
    split
    · rename_i heq
      rw [heq, hf]
    · rfl
  cases h with
  | @register params request w hinit habsent =>
    have hold : (self.afterRegister s (sessionStarted request) w).objs x = s.objs x :=
      Function.update_of_ne hx.ne _ _
    rw [hold]
  | @session _ _ existing _ hinit hexisting heffect =>
    cases heffect with
    | append hstatus => exact hupdate rfl
    | proceed hstatus hprompt =>
      by_cases heq : x = existing
      · rw [heq] at hsession
        exact absurd hstatus hsession.2
      · rw [SchedulerState.objs_updateRequest_of_ne _ _ heq]
    | endSession hstatus hfinished => exact (hfinished.kept.same x).outputTokenIds
  | schedule hscheduled => exact hscheduled.outputTokenIds x
  | updateFromOutput hupdated => exact absurd rfl (hop _ _)
  | finishRequests hfinished => exact (hfinished.kept.same x).outputTokenIds
  | updateDraftTokenIds objs hobjs =>
    obtain ⟨specTokenIds, hx⟩ := hobjs x
    dsimp only
    rw [hx]
  | resetPrefixCache previous w hreset hprevious =>
    exact ((ResetEffects.kept hreset).same x).outputTokenIds
  | pauseInPlace hpausable => exact ((kept_afterPause s _ _ _).same x).outputTokenIds
  | holdForToolCall hpausable => exact ((kept_afterHold s _ _ _).same x).outputTokenIds
  | setPauseState | pauseInPlaceIgnored | holdForToolCallIgnored | submitToolResponse
  | recordSpeculativeHandle | environment => rfl

end

/-! ## 5. Runs -/

theorem updateFromOutput_of_exec {s s' : SchedulerState W} {out : SchedulerOutput}
    {mro : ModelRunnerOutput} {output : Option SchedulerOutput}
    (hexec : SchedulerOp.exec self (.updateFromOutput out mro) s = .ok output s') :
    ∃ outputs, self.updateFromOutput out mro (traceless s) = .ok outputs s' := by
  have hreturns : wp (SchedulerOp.exec self (.updateFromOutput out mro))
      (fun _ s' => ∃ outputs, self.updateFromOutput out mro (traceless s) = .ok outputs s')
      (fun _ _ => True) s := by
    unfold SchedulerOp.exec SchedulerOp.run
    rw [wp_bind, wp_modify, wp_bind]
    apply wp_of_run
    · intro outputs s' hrun
      exact ⟨outputs, hrun⟩
    · exact fun _ _ _ => trivial
  exact wp_ok hreturns hexec

theorem requestId_init {blockHasher : Option (Request → List BlockHash)} {params : RequestParams}
    {r : Request} (h : Request.init blockHasher params = .ok r) :
    r.requestId = params.requestId := by
  obtain ⟨limits, hlimits, h⟩ := except_bind_eq_ok.mp h
  obtain ⟨numPromptTokens, hlength, h⟩ := except_bind_eq_ok.mp h
  injection h with h
  obtain ⟨hashes, hhashes⟩ := Request.updateBlockHashes_eq blockHasher _
  rw [hhashes] at h
  rw [← h]

/-- The id means this request, until the request is finished. -/
structure Follows (reqId : RequestId) (x : Ref) (s : SchedulerState W) : Prop where
  registry : RegistryOk s
  known : x < s.nextRef
  sessionless : Sessionless (s.objs x)
  only : ∀ y, s.requests.get? reqId = some y → y = x
  live : (s.objs x).isFinished = false → s.requests.get? reqId = some x

/-- **Step lemma.** -/
theorem Follows.exec (hconnector : self.hasConnector = false) {reqId : RequestId} {x : Ref}
    {s s' : SchedulerState W} (h : Follows reqId x s) {op : SchedulerOp W}
    {output : Option SchedulerOutput} (hexec : op.exec self s = .ok output s')
    (hlocal : WithoutKvOutput op)
    (hadded : ∀ params, op = .addRequest params → params.requestId ≠ reqId) :
    Follows reqId x s' := by
  have heffect := effect_of_exec h.registry hexec
  have hchanges : self.RequestChanges (s.objs x) (s'.objs x) :=
    heffect.changes hconnector hlocal h.known
  have hregistry : (∀ y, s'.requests.get? reqId = some y → y = x) ∧
      ((s'.objs x).isFinished = false → s'.requests.get? reqId = some x) := by
    have hunfinished : (s'.objs x).isFinished = false → (s.objs x).isFinished = false := by
      intro hafter
      cases hbefore : (s.objs x).isFinished with
      | false => rfl
      | true =>
        rw [hchanges.staysFinished hbefore] at hafter
        cases hafter
    rcases heffect.unregisters hconnector hlocal with hsame | ⟨params, request, w, hop, hinit, rfl⟩
    · constructor
      · exact fun y hy => h.only y (hsame.before reqId y hy)
      · exact fun hafter => hsame.kept reqId x (h.live (hunfinished hafter)) hafter
    · have hid : (sessionStarted request).requestId ≠ reqId := by
        rw [sessionStarted_requestId, requestId_init hinit]
        exact hadded params hop
      have hget : (self.afterRegister (traceless s) (sessionStarted request) w).requests.get?
          reqId = s.requests.get? reqId := Dict.get?_set_of_ne _ _ hid.symm
      rw [hget]
      exact ⟨h.only, fun hafter => h.live (hunfinished hafter)⟩
  constructor
  · exact heffect.registryOk h.registry
  · exact lt_of_lt_of_le h.known heffect.nextRef
  · exact (hchanges.sessionless h.sessionless).1
  · exact hregistry.1
  · exact hregistry.2

/-- What a step tells the client of the request. -/
structure Tells (scheduler : Scheduler W) (reqId : RequestId) (x : Ref) (step : SchedulerStep W) :
    Prop where
  streams : Streams (step.before.objs x) (step.after.objs x)
    (outputsFor reqId (step.outputs scheduler))
  silent : (step.before.objs x).isFinished = true →
    outputsFor reqId (step.outputs scheduler) = []
  told : ∀ out mro, step.op = .updateFromOutput out mro →
    (step.before.objs x).isFinished = false → (step.after.objs x).isFinished = true →
      ∃ output ∈ outputsFor reqId (step.outputs scheduler), output.finishReason.isSome = true

theorem getFinishedReason_isSome {status : RequestStatus} (h : status.isFinished = true) :
    status.getFinishedReason.isSome = true := by
  revert h
  cases status <;> decide

/-- **Step lemma.** -/
theorem Follows.tells (hconnector : self.hasConnector = false) {reqId : RequestId} {x : Ref}
    {step : SchedulerStep W} (h : Follows reqId x step.before)
    (hexec : step.op.exec self step.before = .ok step.output step.after)
    (hlocal : WithoutKvOutput step.op) : Tells self reqId x step := by
  obtain ⟨before, op, output, after⟩ := step
  dsimp only at h hexec hlocal
  have heffect := effect_of_exec h.registry hexec
  cases op with
  | updateFromOutput out mro =>
    obtain ⟨outputs, hupdate⟩ := updateFromOutput_of_exec hexec
    have houtputs : SchedulerStep.outputs self ⟨before, .updateFromOutput out mro, output, after⟩ =
        outputs := by
      unfold SchedulerStep.outputs
      dsimp only
      rw [hupdate]
    have hok : RegistryOk (traceless before) := h.registry
    have hfrom : StreamsFrom (traceless before) reqId (outputsFor reqId outputs) after :=
      wp_ok (updateFromOutput_streams hok out hlocal reqId) hupdate
    rw [← houtputs] at hfrom
    cases hbefore : (before.objs x).isFinished with
    | false =>
      have hx : (traceless before).unfinished? reqId = some x :=
        (SchedulerState.unfinished?_eq_some _).mpr ⟨h.live hbefore, hbefore⟩
      obtain ⟨hstreams, htold⟩ := hfrom.streams x hx h.sessionless
      constructor
      · exact hstreams
      · intro hfinished
        rw [hbefore] at hfinished
        cases hfinished
      · intro _ _ _ _ hafter
        obtain ⟨answer, hanswer⟩ := List.exists_mem_of_ne_nil _ (htold hafter)
        refine ⟨answer, hanswer, ?_⟩
        rw [hstreams.reason answer hanswer]
        exact getFinishedReason_isSome hafter
    | true =>
      have hnone : (traceless before).unfinished? reqId = none := by
        cases hget : (traceless before).unfinished? reqId with
        | none => rfl
        | some y =>
          obtain ⟨hregistered, hunfinished⟩ := (SchedulerState.unfinished?_eq_some _).mp hget
          rw [h.only y hregistered] at hunfinished
          change (before.objs x).isFinished = false at hunfinished
          rw [hbefore] at hunfinished
          cases hunfinished
      have hsilent := hfrom.silent hnone
      have hchanges := heffect.changes hconnector hlocal (x := x) h.known
      constructor
      · rw [hsilent]
        exact Streams.silent (hchanges.livesOn.finished hbefore).2.2.1
      · exact fun _ => hsilent
      · intro _ _ _ hunfinished
        rw [hbefore] at hunfinished
        cases hunfinished
  | _ =>
    constructor
    · exact Streams.silent
        (heffect.outputTokenIds (fun _ _ hop => by cases hop) h.known h.sessionless)
    · exact fun _ => rfl
    · exact fun _ _ hop => by cases hop

/-- What the client of a request receives in a run. -/
structure ClientStream (scheduler : Scheduler W) (reqId : RequestId) (x : Ref)
    (start : SchedulerState W) (history : List (SchedulerStep W)) (s : SchedulerState W) :
    Prop where
  /-- The tokens that were sent are the new output tokens, in order. -/
  tokens : (s.objs x).outputTokenIds =
    (start.objs x).outputTokenIds ++ sentTokens scheduler reqId history
  /-- One output a step, with the tokens, the client and the reason of the request. -/
  each : ∀ step ∈ history, Tells scheduler reqId x step
  /-- Nothing follows the output that has a reason. -/
  last : ∀ earlier step later, history = earlier ++ step :: later →
    (∃ output ∈ outputsFor reqId (step.outputs scheduler), output.finishReason.isSome = true) →
      ∀ step' ∈ later, outputsFor reqId (step'.outputs scheduler) = []

theorem sentTokens_append (reqId : RequestId) (history : List (SchedulerStep W))
    (step : SchedulerStep W) : sentTokens self reqId (history ++ [step]) =
      sentTokens self reqId history ++
        (outputsFor reqId (step.outputs self)).flatMap EngineCoreOutput.newTokenIds := by
  unfold sentTokens
  simp

/-- **Run lemma.** -/
theorem Follows.run (hconnector : self.hasConnector = false) {reqId : RequestId} {x : Ref}
    {start s : SchedulerState W} {history : List (SchedulerStep W)}
    (run : SchedulerRun self start history s) (hstart : Follows reqId x start)
    (hlocal : ∀ step ∈ history, WithoutKvOutput step.op)
    (hadded : ∀ step ∈ history, ∀ params, step.op = .addRequest params →
      params.requestId ≠ reqId) : Follows reqId x s := by
  apply Machine.Run.invariant
    (P := fun step : SchedulerStep W => WithoutKvOutput step.op ∧
      ∀ params, step.op = .addRequest params → params.requestId ≠ reqId)
    (I := fun s => Follows reqId x s) _ run
    (fun step hstep => ⟨hlocal step hstep, hadded step hstep⟩) hstart
  intro s s' op output hbefore hexec hpermitted
  exact hbefore.exec hconnector hexec hpermitted.1 hpermitted.2

/-- **The client receives the output of its request**: all of its tokens, each once and in
    order, and last of all the reason why it stopped. -/
theorem clientStream_run {start s : SchedulerState W} {history : List (SchedulerStep W)}
    {reqId : RequestId} {x : Ref} (hconnector : self.hasConnector = false)
    (run : SchedulerRun self start history s) (hok : RegistryOk start)
    (hregistered : start.unfinished? reqId = some x) (hsession : Sessionless (start.objs x))
    (hlocal : ∀ step ∈ history, WithoutKvOutput step.op)
    (hadded : ∀ step ∈ history, ∀ params, step.op = .addRequest params →
      params.requestId ≠ reqId) : ClientStream self reqId x start history s := by
  have hget := (start.unfinished?_eq_some.mp hregistered).1
  have hstart : Follows reqId x start := by
    constructor
    · exact hok
    · exact hok.known hget
    · exact hsession
    · intro y hy
      rw [hget] at hy
      cases hy
      rfl
    · exact fun _ => hget
  -- what was followed up to a step, the step tells
  have hfollows : ∀ earlier step later, history = earlier ++ step :: later →
      Follows reqId x step.before ∧ Tells self reqId x step := by
    intro earlier step later hsplit
    obtain ⟨hearlier, hexec, _⟩ := run.split hsplit
    have hmem : ∀ other, other ∈ earlier ∨ other = step → other ∈ history := by
      intro other hother
      rw [hsplit]
      simp only [List.mem_append, List.mem_cons]
      exact hother.imp_right Or.inl
    have hbefore := hstart.run hconnector hearlier
      (fun other hother => hlocal other (hmem other (Or.inl hother)))
      (fun other hother => hadded other (hmem other (Or.inl hother)))
    exact ⟨hbefore, hbefore.tells hconnector hexec (hlocal step (hmem step (Or.inr rfl)))⟩
  have heach : ∀ step ∈ history, Tells self reqId x step := by
    intro step hstep
    obtain ⟨earlier, later, hsplit⟩ := List.append_of_mem hstep
    exact (hfollows earlier step later hsplit).2
  constructor
  · have htokens : ∀ history s, SchedulerRun self start history s →
        (∀ step ∈ history, Tells self reqId x step) → (s.objs x).outputTokenIds =
          (start.objs x).outputTokenIds ++ sentTokens self reqId history := by
      intro history s run heach
      apply Machine.Run.invariant_of_history (P := fun step => Tells self reqId x step)
        (I := fun history s => (s.objs x).outputTokenIds =
          (start.objs x).outputTokenIds ++ sentTokens self reqId history) _ run heach
      · simp [sentTokens]
      · intro history s s' op output hbefore _ htells
        rw [sentTokens_append, ← List.append_assoc, ← hbefore]
        exact htells.streams.tokens
    exact htokens history s run heach
  · exact heach
  · intro earlier step later hsplit hreason step' hstep'
    obtain ⟨hearlier, hexec, hlater⟩ := run.split hsplit
    have hstep : step ∈ history := by
      rw [hsplit]
      exact List.mem_append_right _ List.mem_cons_self
    have hafter : ∀ other ∈ later, other ∈ history := by
      intro other hother
      rw [hsplit]
      exact List.mem_append_right _ (List.mem_cons_of_mem _ hother)
    have hnext := (hfollows earlier step later hsplit).1.exec hconnector hexec
      (hlocal step hstep) (hadded step hstep)
    have hfinished : (step.after.objs x).isFinished = true := by
      by_contra hunfinished
      rw [Bool.not_eq_true, Request.isFinished] at hunfinished
      obtain ⟨answer, hanswer, hsome⟩ := hreason
      rw [(heach step hstep).streams.reason answer hanswer,
        getFinishedReason_eq_none hunfinished hnext.sessionless.2] at hsome
      cases hsome
    -- the request stays finished until that step
    obtain ⟨between, rest, hbetween⟩ := List.append_of_mem hstep'
    obtain ⟨hrun, _, _⟩ := hlater.split hbetween
    have hlives := livesOn_of_run hconnector hrun hnext.registry (fun other hother => by
      apply hlocal other
      apply hafter
      rw [hbetween]
      exact List.mem_append_left _ hother) hnext.known
    apply (heach step' (hafter step' hstep')).silent
    rw [Request.isFinished, (hlives.finished hfinished).1]
    exact hfinished

/-- A request is preempted, and at last more is sampled for it than it may have. -/
theorem clientStream_run_trimmed : ∃ before history s, SchedulerRun roomy before history s ∧
    sentTokens roomy "a" history = [4, 5, 6] ∧ (s.objs 0).status = .finishedLengthCapped ∧
      ClientStream roomy "a" 0 before history s := by
  have hplayed : ∃ p ∈ roomy.play start
      [.op (.addRequest (.text "a" [1, 2, 3] 3 false)),
        .op (.addRequest (.text "b" [5] 8 false))],
      p.2.unfinished? "a" = some 0 ∧ (p.2.objs 0).resumable = false ∧
        (p.2.objs 0).status = .waiting ∧
        ∃ q ∈ roomy.play p.2
          [.op .schedule, .deliver 0 [("a", [4]), ("b", [7])], .op (.resetPrefixCache true false),
            .op .schedule, .deliver 1 [("a", [5, 6, 8]), ("b", [9])], .op .schedule,
            .deliver 2 [("b", [11])]],
          (∀ step ∈ q.1, step.op.WithoutConnector ∧ step.op.ctorIdx ≠ 0) ∧
            sentTokens roomy "a" q.1 = [4, 5, 6] ∧
            (q.2.objs 0).status = .finishedLengthCapped := by
    decide +kernel
  obtain ⟨⟨earlier, before⟩, hearlier, hregistered, hresumable, hwaiting, ⟨history, s⟩, hhistory,
    hlocal, hsent, hfinished⟩ := hplayed
  have reached := run_of_play (Option.mem_def.mp hearlier)
  have run := run_of_play (Option.mem_def.mp hhistory)
  have hok := registryOk_of_run reached (registered_init _ _ _).registry
  refine ⟨before, history, s, run, hsent, hfinished, ?_⟩
  apply clientStream_run rfl run hok hregistered
  · dsimp only at hresumable hwaiting
    refine ⟨hresumable, ?_⟩
    rw [hwaiting]
    decide
  · exact fun step hstep => withoutKvOutput_of_local (hlocal step hstep).1
  · intro step hstep params hop
    have hnot := (hlocal step hstep).2
    rw [hop] at hnot
    exact absurd rfl hnot

end Scheduler

end Edmm
