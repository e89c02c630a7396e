/-
  Edmm/SchedulerUpdate.lean
  =========================
  **The other operations of the scheduler** (`vllm_v1_core_sched/scheduler.py`):
  `add_request`, `finish_requests`, `update_from_output`, `update_draft_token_ids`,
  `reset_prefix_cache`, and the two ways a request enters a tool-call pause.

  The scheduler never sets `WAITING_FOR_TOOL_CALL` itself.  The docstring of
  `EdmmSchedulerHook` sets the status and calls `on_tool_call_pause`
  (`pauseInPlace`); `holdForToolCall` also moves the request to `skipped_waiting`,
  the queue of the other blocked statuses.

  The last section lists all operations as `SchedulerOp`; a run is a sequence of
  operations that return (an exception ends the engine).
-/
import Edmm.Scheduler

namespace Edmm

namespace Scheduler

variable {W : Type}

/-! ## 1. Streaming sessions -/

/-- `_enqueue_waiting_request` -/
def enqueueWaitingRequest (self : Scheduler W) (request : Ref) : SchedM W Unit := do
  let s ← get
  if (s.objs request).status.isBlockedWaitingStatus then
    modify fun s =>
      { s with skippedWaiting := self.requestQueue.addRequest s.objs s.skippedWaiting request }
  else
    modify fun s => { s with waiting := self.requestQueue.addRequest s.objs s.waiting request }

/-- Keep the computed tokens only, all of them as prompt. -/
def dropUncomputed (r : Request) : Request :=
  { r with
    promptTokenIds := r.promptTokenIds.map fun promptTokenIds =>
      promptTokenIds ++ Python.slice r.allTokenIds r.numPromptTokens r.numComputedTokens
    allTokenIds := Python.deleteFrom r.allTokenIds r.numComputedTokens
    outputTokenIds := [] }

/-- Add the next input chunk. -/
def extendPrompt (self : Scheduler W) (update : StreamingUpdate) (r : Request) : Request :=
  let tokenIds := update.promptTokenIds.getD []
  let extended := Request.updateBlockHashes self.externals.blockHasher
    { r with
      mmFeatures := r.mmFeatures ++ update.mmFeatures.map fun feature =>
        { feature with mmPosition :=
          { feature.mmPosition with offset := feature.mmPosition.offset + r.numTokens } }
      allTokenIds := r.allTokenIds ++ tokenIds
      promptTokenIds := r.promptTokenIds.map fun promptTokenIds => promptTokenIds ++ tokenIds }
  { extended with
    numPromptTokens := ((extended.promptTokenIds.getD []).length : Int)
    arrivalTime := update.arrivalTime
    samplingParams := update.samplingParams }

/-- `_update_request_as_session` -/
def updateRequestAsSession (self : Scheduler W) (session : Ref) (update : StreamingUpdate) :
    SchedM W Unit := do
  modifyRequest session dropUncomputed
  let r ← getRequest session
  pyAssert (r.promptTokenIds.isSome = true) (.assertFailed "session.prompt_token_ids is not None")
  modifyRequest session (self.extendPrompt update)
  onlyIf (r.status = .waitingForStreamingReq) (modify fun s =>
    { s with numWaitingForStreamingInput := s.numWaitingForStreamingInput - 1 })
  setStatus session .waiting

/-- `_handle_stopped_request`: whether the request is finished. -/
def handleStoppedRequest (self : Scheduler W) (request : Ref) : SchedM W Bool := do
  let r ← getRequest request
  if r.resumable = false then pure true
  else
    match r.streamingQueue with
    | some (update :: rest) => do
        modifyRequest request fun r => { r with streamingQueue := some rest }
        match update with
        | none => pure true
        | some update => do
            self.updateRequestAsSession request update
            self.enqueueWaitingRequest request
            pure false
    | _ => do
        setStatus request .waitingForStreamingReq
        modify fun s => { s with numWaitingForStreamingInput := s.numWaitingForStreamingInput + 1 }
        self.enqueueWaitingRequest request
        pure false

/-! ## 2. Finishing from outside -/

/-- The second pass of `finish_requests`, for one request. -/
def finishRequest (self : Scheduler W) (finishedStatus : RequestStatus) (request : Ref) :
    SchedM W Unit := do
  let s ← get
  let r := s.objs request
  onlyIf (r.status = .waitingForRemoteKvs) (modify fun s => { s with
    finishedRecvingKvReqIds := s.finishedRecvingKvReqIds.filter (· ≠ r.requestId)
    failedRecvingKvReqIds := s.failedRecvingKvReqIds.filter (· ≠ r.requestId) })
  setStatus request finishedStatus
  self.freeRequest request
    (decide (r.status = .waitingForRemoteKvs ∧ r.requestId ∉ s.finishedRecvingKvReqIds))

/-- The valid requests among the ids given to `finish_requests`. -/
def validRequests (s : SchedulerState W) (requestIds : Option (List RequestId)) : List Ref :=
  (match requestIds with
    | none => s.requests.keys
    | some ids => ids.dedup).filterMap s.unfinished?

/-- What the first pass of `finish_requests` leaves in the queues. -/
def removeFromQueues (self : Scheduler W) (valid : List Ref) (s : SchedulerState W) :
    SchedulerState W :=
  let inRunning := valid.filter fun request => (s.objs request).status = .running
  let inWaiting := valid.filter fun request => (s.objs request).status ≠ .running
  let streaming := valid.filter fun request =>
    (s.objs request).status = .waitingForStreamingReq
  { s with
    numWaitingForStreamingInput := s.numWaitingForStreamingInput - streaming.length
    running := s.running.filter fun request => request ∉ inRunning
    waiting :=
      if inWaiting = [] then s.waiting
      else self.requestQueue.removeRequests s.objs s.waiting inWaiting
    skippedWaiting :=
      if inWaiting = [] then s.skippedWaiting
      else self.requestQueue.removeRequests s.objs s.skippedWaiting inWaiting }

/-- `finish_requests` -/
def finishRequests (self : Scheduler W) (requestIds : Option (List RequestId))
    (finishedStatus : RequestStatus) : SchedM W (List (RequestId × Int)) := do
  pyAssert (finishedStatus.isFinished = true)
    (.assertFailed "RequestStatus.is_finished(finished_status)")
  let s ← get
  let valid := validRequests s requestIds
  modify (self.removeFromQueues valid)
  valid.forM (self.finishRequest finishedStatus)
  pure (valid.map fun request => ((s.objs request).requestId, (s.objs request).clientIndex))

/-- `add_request` -/
def addRequest (self : Scheduler W) (request : Request) : SchedM W Unit := do
  let s ← get
  match s.requests.get? request.requestId with
  | some existing =>
      let update := StreamingUpdate.fromRequest request
      if (s.objs existing).status ≠ .waitingForStreamingReq then do
        pyAssert ((s.objs existing).streamingQueue.isSome = true)
          (.assertionError "duplicate request id")
        modifyRequest existing fun r =>
          { r with streamingQueue := r.streamingQueue.map fun updates => updates ++ [update] }
      else
        match update with
        | some update => self.updateRequestAsSession existing update
        | none => do
            let _ ← self.finishRequests (some [request.requestId]) .finishedAborted
            pure ()
  | none => do
      let ref := s.nextRef
      let added :=
        if request.resumable then { request with streamingQueue := some [] } else request
      modify fun s => { s with objs := Function.update s.objs ref added, nextRef := ref + 1 }
      self.enqueueWaitingRequest ref
      modify fun s => { s with requests := s.requests.set request.requestId ref }
      record (.registered ref)
      onlyIf (self.hasConnector = true)
        (onWorld fun w => self.externals.onNewRequest w added)

/-! ## 3. KV connector -/

/-- The scan of one request's blocks for invalid ones. -/
structure InvalidScan where
  isAffected : Bool
  markedInvalidBlock : Bool
  markedInvalidBlockIds : List Nat
  numComputedTokens : Int
  blocksToEvict : List Nat

def scanBlock (self : Scheduler W) (invalidBlockIds reqBlockIds : List Nat) (evictBlocks : Bool)
    (scan : InvalidScan) (entry : Nat × Nat) : InvalidScan :=
  if entry.1 ∉ invalidBlockIds then scan
  else if entry.1 ∈ scan.markedInvalidBlockIds then { scan with isAffected := true }
  else if scan.markedInvalidBlock then
    { scan with
      isAffected := true
      markedInvalidBlockIds := scan.markedInvalidBlockIds ++ [entry.1] }
  else
    { isAffected := true
      markedInvalidBlock := true
      markedInvalidBlockIds := scan.markedInvalidBlockIds ++ [entry.1]
      numComputedTokens := entry.2 * self.blockSize
      blocksToEvict :=
        if evictBlocks then scan.blocksToEvict ++ reqBlockIds.drop entry.2
        else scan.blocksToEvict }

/-- The locals of `_update_requests_with_invalid_blocks`. -/
structure InvalidBlocks where
  affectedReqIds : List RequestId
  blocksToEvict : List Nat
  markedInvalidBlockIds : List Nat

/-- One iteration of `_update_requests_with_invalid_blocks`. -/
def updateRequestWithInvalidBlocks (self : Scheduler W) (invalidBlockIds : List Nat)
    (numScheduledTokens : Dict RequestId Int) (evictBlocks : Bool) (acc : InvalidBlocks)
    (request : Ref) : SchedM W InvalidBlocks := do
  let s ← get
  let r := s.objs request
  match (self.externals.getBlocks s.world r.requestId).getBlockIds with
  | [reqBlockIds] =>
      let reqNumComputedTokens :=
        r.numComputedTokens - (numScheduledTokens.get? r.requestId).getD 0
      let reqNumComputedBlocks := (reqNumComputedTokens + self.blockSize - 1) / self.blockSize
      let scan := (reqBlockIds.zipIdx.take reqNumComputedBlocks.toNat).foldl
        (self.scanBlock invalidBlockIds reqBlockIds evictBlocks)
        { isAffected := false
          markedInvalidBlock := false
          markedInvalidBlockIds := acc.markedInvalidBlockIds
          numComputedTokens := reqNumComputedTokens
          blocksToEvict := acc.blocksToEvict }
      onlyIf (scan.isAffected = true)
        (modifyRequest request fun r => { r with numComputedTokens := scan.numComputedTokens })
      pure
        { affectedReqIds :=
            if scan.isAffected then acc.affectedReqIds.insert r.requestId
            else acc.affectedReqIds
          blocksToEvict := scan.blocksToEvict
          markedInvalidBlockIds := scan.markedInvalidBlockIds }
  | _ => throw (.valueError "too many values to unpack (expected 1)")

/-- `_handle_invalid_blocks` -/
def handleInvalidBlocks (self : Scheduler W) (invalidBlockIds : List Nat)
    (numScheduledTokens : Dict RequestId Int) : SchedM W (List RequestId) := do
  let s ← get
  let asyncLoadReqs := (self.requestQueue.iter s.objs s.skippedWaiting).filter fun request =>
    (s.objs request).status = .waitingForRemoteKvs
  let start : InvalidBlocks :=
    { affectedReqIds := [], blocksToEvict := [], markedInvalidBlockIds := [] }
  let asyncFailed ← asyncLoadReqs.foldlM
    (self.updateRequestWithInvalidBlocks invalidBlockIds numScheduledTokens false) start
  let syncFailed ← s.running.foldlM
    (self.updateRequestWithInvalidBlocks invalidBlockIds numScheduledTokens true) start
  if asyncFailed.affectedReqIds = [] ∧ syncFailed.affectedReqIds = [] then pure []
  else do
    onlyIf (syncFailed.blocksToEvict ≠ [] ∧ self.recomputeKvLoadFailures = false)
      (onWorld fun w => self.externals.evictBlocks w syncFailed.blocksToEvict)
    if self.recomputeKvLoadFailures = false then
      pure (asyncFailed.affectedReqIds ∪ syncFailed.affectedReqIds)
    else do
      modify fun s => { s with
        failedRecvingKvReqIds := s.failedRecvingKvReqIds ∪ asyncFailed.affectedReqIds }
      pure syncFailed.affectedReqIds

/-- `_update_from_kv_xfer_finished` -/
def updateFromKvXferFinished (self : Scheduler W) (output : KVConnectorOutput) :
    SchedM W Unit := do
  onlyIf (self.hasConnector = true)
    (onWorld fun w => self.externals.updateConnectorOutput w output)
  output.finishedRecving.forM fun reqId => do
    let s ← get
    let request ← getOrRaise (s.requests.get? reqId) (.assertFailed "req_id in self.requests")
    if (s.objs request).status = .waitingForRemoteKvs then
      modify fun s =>
        { s with finishedRecvingKvReqIds := s.finishedRecvingKvReqIds.insert reqId }
    else do
      pyAssert ((s.objs request).isFinished = true)
        (.assertFailed "RequestStatus.is_finished(req.status)")
      self.freeBlocks request
  output.finishedSending.forM fun reqId => do
    let s ← get
    let request ← getOrRaise (s.requests.get? reqId) (.assertFailed "req_id in self.requests")
    self.freeBlocks request

/-! ## 4. Output of a step -/

/-- `_update_request_with_output`: the request, the tokens kept, and whether it stops. -/
def updateRequestWithOutput (self : Scheduler W) (r : Request) :
    List Token → Request × List Token × Bool
  | [] => (r, [], false)
  | tokenId :: rest =>
      let r := r.appendOutputTokenIds self.externals.blockHasher [tokenId]
      match self.externals.checkStop r self.maxModelLen with
      | some outcome =>
          ({ r with status := outcome.status, stopReason := outcome.stopReason.or r.stopReason },
            [tokenId], true)
      | none =>
          let next := self.updateRequestWithOutput r rest
          (next.1, tokenId :: next.2.1, next.2.2)

/-- Take back the computed tokens of rejected drafts. -/
def rejectDrafts (scheduledSpecTokenIds generatedTokenIds : List Token) (r : Request) : Request :=
  if scheduledSpecTokenIds ≠ [] ∧ generatedTokenIds ≠ [] then
    let numRejected : Int :=
      scheduledSpecTokenIds.length - ((generatedTokenIds.length : Int) - 1)
    { r with
      numComputedTokens :=
        if r.numComputedTokens > 0 then r.numComputedTokens - numRejected
        else r.numComputedTokens
      numOutputPlaceholders :=
        if r.numOutputPlaceholders > 0 then r.numOutputPlaceholders - numRejected
        else r.numOutputPlaceholders }
  else r

/-- `_free_encoder_inputs` -/
def freeEncoderInputs (self : Scheduler W) (r : Request) : SchedM W Unit := do
  let s ← get
  (self.externals.getCachedInputIds s.world r).forM fun inputId => do
    let feature ← getOrRaise r.mmFeatures[inputId]? .indexError
    onlyIf ((self.isEncoderDecoder = true ∧ r.numComputedTokens > 0) ∨
        feature.mmPosition.offset + feature.mmPosition.length ≤ r.numComputedTokens)
      (onWorld fun w => self.externals.freeEncoderInput w r inputId)

/-- The locals that the loop of `update_from_output` carries along. -/
structure OutputLocals where
  stoppedRunningReqs : List Ref
  stoppedPreemptedReqs : List Ref
  outputs : List EngineCoreOutput

def OutputLocals.init : OutputLocals :=
  { stoppedRunningReqs := [], stoppedPreemptedReqs := [], outputs := [] }

/-- The request with what this step generated for it, the tokens kept, and
    whether it stops: the part before the grammar. -/
def applyOutput (self : Scheduler W) (scheduledSpecTokenIds generatedTokenIds : List Token)
    (hasPoolerOutput : Bool) (r : Request) : Request × List Token × Bool :=
  let r := rejectDrafts scheduledSpecTokenIds generatedTokenIds r
  if generatedTokenIds ≠ [] then self.updateRequestWithOutput r generatedTokenIds
  else if r.poolingParams.isSome && hasPoolerOutput then
    ({ r with status := .finishedStopped }, [], true)
  else (r, [], false)

/-- What a rejection by the grammar writes into the request. -/
def rejectedByGrammar (r : Request) : Request :=
  { r with status := .finishedError, resumable := false }

/-- Advance the grammar of a structured-output request; a rejection stops it. -/
def advanceGrammar (self : Scheduler W) (request : Ref) (newTokenIds : List Token)
    (stopped : Bool) : SchedM W Bool := do
  let s ← get
  let r := s.objs request
  if newTokenIds ≠ [] ∧ self.externals.shouldAdvance s.world r = true then do
    pyAssert (r.useStructuredOutput = true) (.assertFailed "struct_output_request is not None")
    let accepted ← callWorld fun w => self.externals.acceptTokens w r.requestId newTokenIds
    if accepted then pure stopped
    else do
      modifyRequest request rejectedByGrammar
      pure true
  else pure stopped

def OutputLocals.addStopped (acc : OutputLocals) (request : Ref)
    (statusBeforeStop : RequestStatus) : OutputLocals :=
  if statusBeforeStop = .running then
    { acc with stoppedRunningReqs := acc.stoppedRunningReqs.insert request }
  else { acc with stoppedPreemptedReqs := acc.stoppedPreemptedReqs.insert request }

/-- A stopped request goes idle, continues or is freed. -/
def stopRequest (self : Scheduler W) (request : Ref) (statusBeforeStop : RequestStatus)
    (acc : OutputLocals) : SchedM W OutputLocals := do
  let finished ← self.handleStoppedRequest request
  onlyIf (finished = true) (self.freeRequest request false)
  pure (acc.addStopped request statusBeforeStop)

/-- The tokens generated for a request, and whether it has a pooler output. -/
def generatedFor (mro : ModelRunnerOutput) (reqId : RequestId) :
    Except PyError (List Token × Bool) :=
  match mro.reqIdToIndex.get? reqId with
  | none => .error .keyError
  | some reqIndex =>
      let generatedTokenIds :=
        if mro.sampledTokenIds = [] then some [] else mro.sampledTokenIds[reqIndex]?
      let hasPoolerOutput :=
        if mro.poolerOutput = [] then some false else mro.poolerOutput[reqIndex]?
      match generatedTokenIds, hasPoolerOutput with
      | some generatedTokenIds, some hasPoolerOutput => .ok (generatedTokenIds, hasPoolerOutput)
      | _, _ => .error .indexError

/-- The draft tokens that were scheduled for a request. -/
def scheduledSpecFor (out : SchedulerOutput) (reqId : RequestId) : List Token :=
  (out.scheduledSpecDecodeTokens.get? reqId).getD []

/-- The loop body of `update_from_output` for a request that is still unfinished. -/
def processOutput (self : Scheduler W) (specTokenIds : List Token) (reqId : RequestId)
    (generated : List Token × Bool) (request : Ref) (acc : OutputLocals) :
    SchedM W OutputLocals := do
  let s ← get
  onlyIf ((s.objs request).hasEncoderInputs = true)
    (self.freeEncoderInputs (rejectDrafts specTokenIds generated.1 (s.objs request)))
  let applied := self.applyOutput specTokenIds generated.1 generated.2 (s.objs request)
  modifyRequest request fun _ => applied.1
  let stopped ← self.advanceGrammar request applied.2.1 applied.2.2
  let r ← getRequest request
  let acc ←
    (if stopped then self.stopRequest request (s.objs request).status acc else pure acc :
      SchedM W OutputLocals)
  if applied.2.1 ≠ [] ∨ generated.2 = true ∨ stopped = true then do
    modifyRequest request Request.takePrefillStats
    pure { acc with
      outputs := acc.outputs ++
        [{ requestId := reqId
           clientIndex := r.clientIndex
           newTokenIds := applied.2.1
           finishReason := if stopped then r.status.getFinishedReason else none
           stopReason := r.stopReason }] }
  else pure acc

/-- One iteration of the loop of `update_from_output`. -/
def consumeOutput (self : Scheduler W) (out : SchedulerOutput) (mro : ModelRunnerOutput)
    (failedKvLoadReqIds : List RequestId) (acc : OutputLocals) (item : RequestId × Int) :
    SchedM W OutputLocals := do
  pyAssert (item.2 > 0) (.assertFailed "num_tokens_scheduled > 0")
  let s ← get
  match s.unfinished? item.1 with
  | none => pure acc
  | some request =>
      if item.1 ∈ failedKvLoadReqIds then pure acc
      else
        match generatedFor mro item.1 with
        | .error e => throw e
        | .ok generated =>
            self.processOutput (scheduledSpecFor out item.1) item.1 generated request acc

/-- Finish the requests whose KV cache failed to load. -/
def finishFailedLoads (self : Scheduler W) (failedKvLoadReqIds : List RequestId) :
    SchedM W (List EngineCoreOutput) := do
  let s ← get
  let requests ← failedKvLoadReqIds.foldlM (fun requests reqId => do
    let request ← getOrRaise (s.requests.get? reqId) .keyError
    pure (requests ++ [request])) []
  let _ ← self.finishRequests (some failedKvLoadReqIds) .finishedError
  let s ← get
  pure (requests.map fun request =>
    { requestId := (s.objs request).requestId
      clientIndex := (s.objs request).clientIndex
      newTokenIds := []
      finishReason := (s.objs request).status.getFinishedReason
      stopReason := none })

/-- Take the stopped requests out of `running` and `waiting`. -/
def removeStopped (self : Scheduler W) (acc : OutputLocals) (s : SchedulerState W) :
    SchedulerState W :=
  { s with
    running := s.running.filter fun request => request ∉ acc.stoppedRunningReqs
    waiting :=
      if acc.stoppedPreemptedReqs = [] then s.waiting
      else self.requestQueue.removeRequests s.objs s.waiting acc.stoppedPreemptedReqs }

/-- `update_from_output` -/
def updateFromOutput (self : Scheduler W) (out : SchedulerOutput) (mro : ModelRunnerOutput) :
    SchedM W (List EngineCoreOutput) := do
  let invalidBlockIds := (mro.kvConnectorOutput.map KVConnectorOutput.invalidBlockIds).getD []
  let failedKvLoadReqIds ←
    (if invalidBlockIds = [] then pure []
    else self.handleInvalidBlocks invalidBlockIds out.numScheduledTokens :
      SchedM W (List RequestId))
  let acc ← out.numScheduledTokens.items.foldlM (self.consumeOutput out mro failedKvLoadReqIds)
    OutputLocals.init
  modify (self.removeStopped acc)
  let failedOutputs ←
    (if failedKvLoadReqIds ≠ [] ∧ self.recomputeKvLoadFailures = false then
      self.finishFailedLoads failedKvLoadReqIds
    else pure [] : SchedM W (List EngineCoreOutput))
  mro.kvConnectorOutput.toList.forM self.updateFromKvXferFinished
  pure (acc.outputs ++ failedOutputs)

/-- `update_draft_token_ids` -/
def updateDraftTokenIds (self : Scheduler W) (drafts : List (RequestId × List Token)) :
    SchedM W Unit :=
  drafts.forM fun draft => do
    let s ← get
    match s.unfinished? draft.1 with
    | none => pure ()
    | some request =>
        let r := s.objs request
        if r.isPrefillChunk then modifyRequest request fun r => { r with specTokenIds := [] }
        else
          let specTokenIds :=
            if self.externals.shouldAdvance s.world r then
              self.externals.validateTokens s.world r draft.2
            else draft.2
          modifyRequest request fun r => { r with specTokenIds }

/-! ## 5. Reset and pause -/

/-- `while self.running` of `reset_prefix_cache`: the last request first. -/
def preemptAllRunning (self : Scheduler W) : Nat → SchedM W Unit
  | 0 => pure ()
  | fuel + 1 => do
      let s ← get
      match s.running.getLast? with
      | none => pure ()
      | some request => do
          modify fun s => { s with running := s.running.dropLast }
          self.preemptRequest request
          modifyRequest request fun r =>
            { r with
              asyncTokensToDiscard := r.numOutputPlaceholders
              numOutputPlaceholders := 0 }
          self.preemptAllRunning fuel

/-- `reset_connector_cache` -/
def resetConnectorCache (self : Scheduler W) : SchedM W Bool :=
  if self.hasConnector then callWorld self.externals.resetConnectorCache else pure false

/-- `reset_prefix_cache` -/
def resetPrefixCache (self : Scheduler W) (resetRunningRequests resetConnector : Bool) :
    SchedM W Bool := do
  onlyIf (resetRunningRequests = true) (do
    let s ← get
    self.preemptAllRunning s.running.length
    modify fun s => { s with prevStepScheduledReqIds := [] })
  let resetSuccessful ← callWorld self.externals.resetPrefixCache
  pyAssert ((resetRunningRequests && !resetSuccessful) = false) (.runtimeError
    ("Failed to reset KV cache even when all the running requests are " ++
      "preempted and moved to the waiting queue. This is likely due to " ++
      "the presence of running requests waiting for remote KV transfer, " ++
      "which is not supported yet."))
  if resetConnector then do
    let connectorReset ← self.resetConnectorCache
    pure (connectorReset && resetSuccessful)
  else pure resetSuccessful

def modifyHook (f : EdmmSchedulerHook → EdmmSchedulerHook) : SchedM W Unit :=
  modify fun s => { s with edmmHook := s.edmmHook.map f }

/-- The registered request, if it can enter a pause now: unfinished, and not
    blocked for another reason. -/
def pausable? (s : SchedulerState W) (reqId : RequestId) : Option Ref :=
  (s.unfinished? reqId).filter fun request => !(s.objs request).status.isBlockedWaitingStatus

/-- The pause of the hook's docstring: the status is set and the hook told. -/
def pauseInPlace (reqId : RequestId) (reading : EdmmSchedulerHook.PauseReading) :
    SchedM W Unit := do
  let s ← get
  match pausable? s reqId with
  | none => pure ()
  | some request => do
      setStatus request .waitingForToolCall
      modifyHook fun hook => (hook.onToolCallPause reqId reading).2

/-- The pause that also holds the request in `skipped_waiting`. -/
def holdForToolCall (self : Scheduler W) (reqId : RequestId)
    (reading : EdmmSchedulerHook.PauseReading) : SchedM W Unit := do
  let s ← get
  match pausable? s reqId with
  | none => pure ()
  | some request => do
      pauseInPlace reqId reading
      modify fun s => { s with
        running := s.running.filter (· ≠ request)
        waiting := self.requestQueue.removeRequests s.objs s.waiting [request] }
      modify fun s => { s with
        skippedWaiting := self.requestQueue.addRequest s.objs
          (self.requestQueue.removeRequests s.objs s.skippedWaiting [request]) request }

end Scheduler

/-! ## 6. Runs -/

/-- One operation on the scheduler, or one step of what surrounds it. -/
inductive SchedulerOp (W : Type) where
  | addRequest (params : RequestParams)
  | schedule
  | updateFromOutput (out : SchedulerOutput) (mro : ModelRunnerOutput)
  | finishRequests (requestIds : Option (List RequestId)) (finishedStatus : RequestStatus)
  | updateDraftTokenIds (drafts : List (RequestId × List Token))
  | resetPrefixCache (resetRunningRequests resetConnector : Bool)
  | setPauseState (pauseState : PauseState)
  | pauseInPlace (reqId : RequestId) (reading : EdmmSchedulerHook.PauseReading)
  | holdForToolCall (reqId : RequestId) (reading : EdmmSchedulerHook.PauseReading)
  | submitToolResponse (reqId : RequestId)
  | recordSpeculativeHandle (reqId : RequestId) (handle : Handle)
  /-- The collaborators make progress on their own, such as a compiled grammar. -/
  | environment (f : W → W)

/-- `add_request` of a request that is built from its parameters. -/
def Scheduler.addNewRequest {W : Type} (self : Scheduler W) (params : RequestParams) :
    SchedM W Unit :=
  match Request.init self.externals.blockHasher params with
  | .error e => throw e
  | .ok request => self.addRequest request

def SchedulerOp.run {W : Type} (self : Scheduler W) :
    SchedulerOp W → SchedM W (Option SchedulerOutput)
  | .addRequest params => do
      self.addNewRequest params
      pure none
  | .schedule => do
      let out ← self.schedule
      pure (some out)
  | .updateFromOutput out mro => do
      let _ ← self.updateFromOutput out mro
      pure none
  | .finishRequests requestIds finishedStatus => do
      let _ ← self.finishRequests requestIds finishedStatus
      pure none
  | .updateDraftTokenIds drafts => do
      self.updateDraftTokenIds drafts
      pure none
  | .resetPrefixCache resetRunningRequests resetConnector => do
      let _ ← self.resetPrefixCache resetRunningRequests resetConnector
      pure none
  | .setPauseState pauseState => do
      modify fun s => { s with pauseState }
      pure none
  | .pauseInPlace reqId reading => do
      Scheduler.pauseInPlace reqId reading
      pure none
  | .holdForToolCall reqId reading => do
      self.holdForToolCall reqId reading
      pure none
  | .submitToolResponse reqId => do
      Scheduler.modifyHook fun hook => hook.submitToolResponse reqId
      pure none
  | .recordSpeculativeHandle reqId handle => do
      Scheduler.modifyHook fun hook => hook.recordSpeculativeHandle reqId handle
      pure none
  | .environment f => do
      onWorld f
      pure none

/-- One operation, with a trace of its own. -/
def SchedulerOp.exec {W : Type} (self : Scheduler W) (op : SchedulerOp W) :
    SchedM W (Option SchedulerOutput) := do
  modify fun s => { s with trace := [] }
  op.run self

abbrev SchedulerStep (W : Type) :=
  Machine.Performed (SchedulerState W) (SchedulerOp W) (Option SchedulerOutput)

/-- A run of operations that all returned. -/
abbrev SchedulerRun {W : Type} (self : Scheduler W) (start : SchedulerState W)
    (history : List (SchedulerStep W)) (s : SchedulerState W) : Prop :=
  Machine.Run (SchedulerOp.exec self) start history s

/-! ## 7. A small engine -/

/-- The collaborators of an engine whose KV cache has room for every request: no
    prefix cache, no encoder, no connector, no grammar. -/
def Externals.roomy : Externals Unit where
  newStepStarts w := w
  getComputedBlocks w _ := ((⟨[]⟩, 0), w)
  emptyKvCacheBlocks := ⟨[]⟩
  allocateSlots w _ _ := (some ⟨[]⟩, w)
  getBlocks _ _ := ⟨[]⟩
  freeKvCache w _ := w
  cacheBlocks w _ _ := w
  evictBlocks w _ := w
  removeSkippedBlocks w _ _ := w
  getNumCommonPrefixBlocks _ _ := []
  takeNewBlockIds w := ([], w)
  resetPrefixCache w := (true, w)
  checkAndUpdateCache w _ _ := (false, w)
  canAllocate w _ _ _ _ := (true, w)
  allocateEncoder w _ _ := w
  freeEncoder w _ := w
  getCachedInputIds _ _ := []
  freeEncoderInput w _ _ := w
  getFreedMmHashes w := ([], w)
  getEmbedsIndicesInRange _ _ _ := (0, 0)
  getNumNewMatchedTokens w _ _ := ((some 0, false), w)
  updateStateAfterAlloc w _ _ _ := w
  buildConnectorMeta w _ := w
  onNewRequest w _ := w
  requestFinished w _ _ := (false, w)
  updateConnectorOutput w _ := w
  resetConnectorCache w := (true, w)
  hasCacheItem _ _ := false
  ecUpdateStateAfterAlloc w _ _ := w
  ecBuildConnectorMeta w _ := w
  grammarReady _ _ := true
  shouldAdvance _ _ := false
  acceptTokens w _ _ := (true, w)
  validateTokens _ _ specTokenIds := specTokenIds
  checkStop r _ :=
    if r.numOutputTokens ≥ r.maxTokens then some ⟨.finishedLengthCapped, rfl, none⟩ else none
  blockHasher := none

/-- A first-come-first-served scheduler of that engine, for four requests at a time. -/
def Scheduler.roomy : Scheduler Unit :=
  { policy := .fcfs
    requestQueue := fcfsRequestQueue
    externals := Externals.roomy
    maxNumRunningReqs := 4
    maxNumScheduledTokens := 64
    longPrefillTokenThreshold := 0
    enableChunkedPrefill := true
    disableChunkedMmInput := false
    asyncScheduling := false
    maxModelLen := 1024
    maxLoras := none
    isEncoderDecoder := false
    maxNumEncoderInputTokens := 0
    useEagle := false
    numLookaheadTokens := 0
    needMambaBlockAlignedSplit := false
    cacheBlockSize := 16
    cacheBlockSize_pos := by decide
    blockSize := 16
    numKvCacheGroups := 1
    needsKvCacheZeroing := false
    usePp := false
    useV2ModelRunner := false
    schedulerReserveFullIsl := false
    hasConnector := false
    recomputeKvLoadFailures := false
    hasEcConnector := false
    edmmEnabled := true }

/-- A text request with this prompt. -/
def RequestParams.text (requestId : RequestId) (promptTokenIds : List Token) (maxTokens : Int)
    (resumable : Bool) : RequestParams :=
  { requestId
    promptTokenIds := some promptTokenIds
    samplingParams := some
      { maxTokens := some maxTokens
        minTokens := 0
        eosTokenId := none
        stopTokenIds := []
        structuredOutputs := false
        skipReadingPrefixCache := none }
    poolingParams := none
    clientIndex := 0
    arrivalTime := 0
    promptEmbeds := none
    mmFeatures := []
    loraRequest := none
    priority := 0
    resumable }

/-- What the worker answers when it sampled these tokens. -/
def ModelRunnerOutput.sampling (sampled : List (RequestId × List Token)) : ModelRunnerOutput :=
  { reqIdToIndex := (sampled.map Prod.fst).zipIdx.foldl
      (fun reqIdToIndex entry => reqIdToIndex.set entry.1 entry.2) ∅
    sampledTokenIds := sampled.map Prod.snd
    poolerOutput := []
    kvConnectorOutput := none }

/-- What happens next: an operation, or the worker answers the `n`-th `schedule()` call. -/
inductive SchedulerMove (W : Type) where
  | op (operation : SchedulerOp W)
  | deliver (n : Nat) (sampled : List (RequestId × List Token))

/-- The operation that a move stands for, given what happened so far. -/
def SchedulerMove.choose {W : Type} (history : List (SchedulerStep W)) :
    SchedulerMove W → SchedulerOp W
  | .op operation => operation
  | .deliver n sampled =>
      match (history.filterMap fun step => step.output)[n]? with
      | some out => .updateFromOutput out (.sampling sampled)
      | none => .environment id

/-- Play the moves, as long as every operation returns. -/
def Scheduler.play {W : Type} (self : Scheduler W) (s : SchedulerState W)
    (moves : List (SchedulerMove W)) : Option (List (SchedulerStep W) × SchedulerState W) :=
  Machine.perform (SchedulerOp.exec self) [] s
    (moves.map fun move history => move.choose history)

theorem Scheduler.run_of_play {W : Type} {self : Scheduler W} {s s' : SchedulerState W}
    {moves : List (SchedulerMove W)} {history : List (SchedulerStep W)}
    (h : self.play s moves = some (history, s')) : SchedulerRun self s history s' :=
  Machine.run_of_perform Machine.Run.nil h

/-- The state of an engine with a hook that starts. -/
def Scheduler.start : SchedulerState Unit :=
  SchedulerState.init
    (fun _ =>
      { requestId := ""
        clientIndex := 0
        priority := 0
        samplingParams := none
        poolingParams := none
        loraRequest := none
        useStructuredOutput := false
        arrivalTime := 0
        status := .waiting
        stopReason := none
        maxTokens := 0
        promptTokenIds := none
        promptEmbeds := none
        numPromptTokens := 0
        outputTokenIds := []
        allTokenIds := []
        numOutputPlaceholders := 0
        asyncTokensToDiscard := 0
        specTokenIds := []
        numComputedTokens := 0
        mmFeatures := []
        isPrefillChunk := false
        numPreemptions := 0
        prefillStats := false
        blockHashes := []
        skipReadingPrefixCache := false
        resumable := false
        streamingQueue := none })
    (some (EdmmSchedulerHook.init true)) ()

end Edmm
