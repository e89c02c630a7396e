/-
  Edmm/Scheduler.lean
  ===================
  **The operations of the scheduler** (`vllm_v1_core_sched/scheduler.py`).

  Each method of `Scheduler` is a program over the scheduler's state that may
  raise.  `schedule()` is cut at its two loops and at the stages of a loop body,
  with its locals in a `StepLocals` record.  A `while` loop takes the number of
  iterations it can make at most; every iteration makes its bound smaller.  Statistics,
  log output, routed experts, log probabilities and KV cache events are left out.
-/
import Edmm.SchedulerState

namespace Edmm

/-! ## 1. Building blocks -/

section
variable {W : Type} {α : Type}

/-- A call into a collaborator. -/
def onWorld (f : W → W) : SchedM W Unit := modify fun s => { s with world := f s.world }

/-- A call into a collaborator that answers. -/
def callWorld (f : W → α × W) : SchedM W α := do
  let s ← get
  onWorld fun w => (f w).2
  pure (f s.world).1

def getRequest (request : Ref) : SchedM W Request := do
  let s ← get
  pure (s.objs request)

def modifyRequest (request : Ref) (f : Request → Request) : SchedM W Unit :=
  modify fun s => s.updateRequest request f

def setStatus (request : Ref) (status : RequestStatus) : SchedM W Unit :=
  modifyRequest request fun r => { r with status }

def record (event : SchedulerEvent) : SchedM W Unit := modify fun s => s.record event

def pyAssert (condition : Prop) [Decidable condition] (error : PyError) : SchedM W Unit :=
  if condition then pure () else throw error

/-- `if condition: prog` -/
def onlyIf (condition : Prop) [Decidable condition] (prog : SchedM W Unit) : SchedM W Unit :=
  if condition then prog else pure ()

/-- `container[key]` -/
def getOrRaise (entry : Option α) (error : PyError) : SchedM W α :=
  match entry with
  | some value => pure value
  | none => throw error

end

namespace Scheduler

variable {W : Type}

/-! ## 2. Promotion of blocked requests -/

/-- A full prompt hit: the last token is recomputed, to sample the next one. -/
def recomputeLastToken (r : Request) : Request :=
  { r with numComputedTokens := r.numTokens - 1 }

/-- `_update_waiting_for_remote_kv` -/
def updateWaitingForRemoteKv (self : Scheduler W) (request : Ref) : SchedM W Unit := do
  pyAssert (self.hasConnector = true) (.assertFailed "self.connector is not None")
  let s ← get
  let r := s.objs request
  (if r.requestId ∈ s.failedRecvingKvReqIds then do
    onWorld fun w =>
      if r.numComputedTokens ≠ 0 then self.externals.cacheBlocks w r r.numComputedTokens
      else self.externals.freeKvCache w r
    modify fun s =>
      { s with failedRecvingKvReqIds := s.failedRecvingKvReqIds.filter (· ≠ r.requestId) }
  else do
    onWorld fun w => self.externals.cacheBlocks w r r.numComputedTokens
    onlyIf (r.numComputedTokens = r.numTokens) (modifyRequest request recomputeLastToken) :
    SchedM W Unit)
  pyAssert (r.requestId ∈ s.finishedRecvingKvReqIds) .keyError
  modify fun s =>
    { s with finishedRecvingKvReqIds := s.finishedRecvingKvReqIds.filter (· ≠ r.requestId) }

/-- `_try_promote_blocked_waiting_request` -/
def tryPromoteBlockedWaitingRequest (self : Scheduler W) (request : Ref) : SchedM W Bool := do
  let s ← get
  let r := s.objs request
  match r.status with
  | .waitingForRemoteKvs =>
      if r.requestId ∉ s.finishedRecvingKvReqIds then pure false
      else do
        self.updateWaitingForRemoteKv request
        setStatus request (if r.numPreemptions ≠ 0 then .preempted else .waiting)
        record (.promoted request)
        pure true
  | .waitingForStructuredOutputGrammar =>
      if (r.useStructuredOutput && self.externals.grammarReady s.world r) = false then pure false
      else do
        setStatus request .waiting
        record (.promoted request)
        pure true
  | .waitingForStreamingReq => do
      pyAssert (r.hasStreamingUpdate = false) (.assertFailed "not request.streaming_queue")
      pure false
  | .waitingForToolCall =>
      match s.edmmHook with
      | none => pure false
      | some hook =>
          if self.edmmEnabled = false then pure false
          else if hook.isToolResponseReady r.requestId = false then pure false
          else do
            modify fun s => { s with edmmHook := some (hook.onToolCallResume r.requestId).2 }
            setStatus request .waiting
            record (.promoted request)
            pure true
  | status =>
      throw (.assertionError ("Unexpected blocked waiting status in promotion: " ++ status.name ++
        " for request " ++ r.requestId))

/-! ## 3. Preempting and freeing -/

/-- What `_preempt_request` writes into the request. -/
def preempted (r : Request) : Request :=
  { r with
    status := .preempted
    numComputedTokens := 0
    specTokenIds := []
    numPreemptions := r.numPreemptions + 1 }

/-- `_preempt_request` -/
def preemptRequest (self : Scheduler W) (request : Ref) : SchedM W Unit := do
  let s ← get
  pyAssert ((s.objs request).status = .running)
    (.assertionError "Only running requests can be preempted")
  onWorld fun w => self.externals.freeKvCache w (s.objs request)
  onWorld fun w => self.externals.freeEncoder w (s.objs request)
  modifyRequest request preempted
  record (.preempted request)
  modify fun s => { s with waiting := self.requestQueue.prependRequest s.objs s.waiting request }

/-- `_connector_finished`: whether the connector delays the freeing of the blocks. -/
def connectorFinished (self : Scheduler W) (r : Request) : SchedM W Bool :=
  if self.hasConnector then do
    onWorld fun w => self.externals.removeSkippedBlocks w r.requestId r.numComputedTokens
    callWorld fun w =>
      self.externals.requestFinished w r (self.externals.getBlocks w r.requestId).getBlockIds
  else pure false

/-- `_free_blocks` -/
def freeBlocks (self : Scheduler W) (request : Ref) : SchedM W Unit := do
  let s ← get
  let r := s.objs request
  pyAssert (r.isFinished = true) (.assertFailed "request.is_finished()")
  onWorld fun w => self.externals.freeKvCache w r
  pyAssert ((s.requests.get? r.requestId).isSome = true) .keyError
  modify fun s => { s with requests := s.requests.erase r.requestId }

/-- `_free_request` -/
def freeRequest (self : Scheduler W) (request : Ref) (delayFreeBlocks : Bool) :
    SchedM W Unit := do
  let r ← getRequest request
  pyAssert (r.isFinished = true) (.assertFailed "request.is_finished()")
  let connectorDelayFreeBlocks ← self.connectorFinished r
  onWorld fun w => self.externals.freeEncoder w r
  modify fun s => { s with finishedReqIds := s.finishedReqIds.insert r.requestId }
  record (.freed request)
  onlyIf ((delayFreeBlocks || connectorDelayFreeBlocks) = false) (self.freeBlocks request)

/-! ## 4. Token counts of one request -/

/-- `last_cache_position`; with Eagle the last matching block is pruned. -/
def lastCachePosition (self : Scheduler W) (r : Request) : Int :=
  let lastFull := r.numTokens - r.numTokens % self.cacheBlockSize
  if self.useEagle then max (lastFull - self.cacheBlockSize) 0 else lastFull

/-- `_mamba_block_aligned_split` -/
def mambaBlockAlignedSplit (self : Scheduler W) (r : Request)
    (numNewTokens numNewLocalComputedTokens numExternalComputedTokens : Int) : SchedM W Int := do
  pyAssert (numExternalComputedTokens = 0)
    (.assertionError "External KV connector is not verified yet")
  let numComputedTokens :=
    r.numComputedTokens + numNewLocalComputedTokens + numExternalComputedTokens
  if numComputedTokens < max r.numPromptTokens (r.numTokens - 1) then
    let blockSize : Int := self.cacheBlockSize
    let numComputedTokensAfterSched := numComputedTokens + numNewTokens
    if numComputedTokensAfterSched < self.lastCachePosition r then
      pure (numNewTokens / blockSize * blockSize)
    else if numComputedTokens < self.lastCachePosition r ∧
        self.lastCachePosition r < numComputedTokensAfterSched then
      pure (self.lastCachePosition r - numComputedTokens)
    else pure numNewTokens
  else pure numNewTokens

/-- What `_try_schedule_encoder_inputs` decides for a request. -/
structure EncoderPlan where
  encoderInputsToSchedule : List Nat
  numNewTokens : Int
  encoderComputeBudget : Int
  externalLoadEncoderInput : List Nat

/-- The locals of the loop over the multimodal features. -/
structure EncoderLocals where
  plan : EncoderPlan
  mmHashesToSchedule : List String
  numEmbedsToSchedule : Int

/-- The loop of `_try_schedule_encoder_inputs`, from feature `i` on. -/
def encoderInputsLoop (self : Scheduler W) (r : Request)
    (numComputedTokens shiftComputedTokens : Int) :
    List (MultiModalFeatureSpec × Nat) → EncoderLocals → SchedM W EncoderLocals
  | [], acc => pure acc
  | (mmFeature, i) :: rest, acc => do
      let startPos := mmFeature.mmPosition.offset
      let numEncoderTokens := mmFeature.mmPosition.length
      let numEncoderEmbeds := mmFeature.mmPosition.numEmbeds
      let itemIdentifier := mmFeature.identifier
      let numNewTokens := acc.plan.numNewTokens
      if startPos ≥ numComputedTokens + numNewTokens + shiftComputedTokens then pure acc
      else if self.isEncoderDecoder = true ∧ numComputedTokens > 0 then do
        pyAssert (startPos = 0) (.assertionError
          ("Encoder input should be processed at the beginning of " ++
            "the sequence when encoder-decoder models are used."))
        self.encoderInputsLoop r numComputedTokens shiftComputedTokens rest acc
      else if startPos + numEncoderTokens ≤ numComputedTokens then
        self.encoderInputsLoop r numComputedTokens shiftComputedTokens rest acc
      else if self.isEncoderDecoder = false ∧ itemIdentifier ∈ acc.mmHashesToSchedule then
        self.encoderInputsLoop r numComputedTokens shiftComputedTokens rest acc
      else do
        let cached ←
          (if self.isEncoderDecoder then pure false
          else callWorld fun w => self.externals.checkAndUpdateCache w r i : SchedM W Bool)
        if cached then self.encoderInputsLoop r numComputedTokens shiftComputedTokens rest acc
        else if self.disableChunkedMmInput = true ∧ numComputedTokens < startPos ∧
            numComputedTokens + numNewTokens < startPos + numEncoderTokens then
          pure { acc with plan := { acc.plan with
            numNewTokens := max 0 (startPos - (numComputedTokens + shiftComputedTokens)) } }
        else do
          let allocatable ← callWorld fun w =>
            self.externals.canAllocate w r i acc.plan.encoderComputeBudget acc.numEmbedsToSchedule
          if allocatable = false then
            pure { acc with plan := { acc.plan with
              numNewTokens :=
                if numComputedTokens + shiftComputedTokens < startPos then
                  startPos - (numComputedTokens + shiftComputedTokens)
                else 0 } }
          else do
            let s ← get
            let range := self.externals.getEmbedsIndicesInRange mmFeature.mmPosition
              (max 0 (numComputedTokens - startPos))
              (min numEncoderTokens (numComputedTokens + numNewTokens - startPos))
            if range.2 - range.1 = 0 then
              self.encoderInputsLoop r numComputedTokens shiftComputedTokens rest acc
            else if self.hasEcConnector = true ∧
                self.externals.hasCacheItem s.world itemIdentifier = true then
              self.encoderInputsLoop r numComputedTokens shiftComputedTokens rest
                { plan := { acc.plan with
                    externalLoadEncoderInput := acc.plan.externalLoadEncoderInput ++ [i] }
                  mmHashesToSchedule := acc.mmHashesToSchedule ++ [itemIdentifier]
                  numEmbedsToSchedule := acc.numEmbedsToSchedule + numEncoderEmbeds }
            else
              self.encoderInputsLoop r numComputedTokens shiftComputedTokens rest
                { plan := { acc.plan with
                    encoderInputsToSchedule := acc.plan.encoderInputsToSchedule ++ [i]
                    encoderComputeBudget := acc.plan.encoderComputeBudget - numEncoderEmbeds }
                  mmHashesToSchedule := acc.mmHashesToSchedule ++ [itemIdentifier]
                  numEmbedsToSchedule := acc.numEmbedsToSchedule + numEncoderEmbeds }

/-- `_try_schedule_encoder_inputs` -/
def tryScheduleEncoderInputs (self : Scheduler W) (r : Request)
    (numComputedTokens numNewTokens encoderComputeBudget shiftComputedTokens : Int) :
    SchedM W EncoderPlan :=
  let plan : EncoderPlan :=
    { encoderInputsToSchedule := []
      numNewTokens
      encoderComputeBudget
      externalLoadEncoderInput := [] }
  if numNewTokens = 0 ∨ r.hasEncoderInputs = false then pure plan
  else do
    let acc ← self.encoderInputsLoop r numComputedTokens shiftComputedTokens r.mmFeatures.zipIdx
      { plan, mmHashesToSchedule := [], numEmbedsToSchedule := 0 }
    pure acc.plan

/-- The part that both loops of `schedule()` share: encoder inputs, if there are any. -/
def planEncoderInputs (self : Scheduler W) (r : Request)
    (numComputedTokens numNewTokens encoderComputeBudget : Int) : SchedM W EncoderPlan :=
  if r.hasEncoderInputs then
    self.tryScheduleEncoderInputs r numComputedTokens numNewTokens encoderComputeBudget
      (if self.useEagle then 1 else 0)
  else
    pure
      { encoderInputsToSchedule := []
        numNewTokens
        encoderComputeBudget
        externalLoadEncoderInput := [] }

/-- Allocate the encoder cache of some inputs. -/
def allocateEncoderInputs (self : Scheduler W) (request : Ref) (inputs : List Nat) :
    SchedM W Unit :=
  inputs.forM fun i => do
    let r ← getRequest request
    onWorld fun w => self.externals.allocateEncoder w r i
    onlyIf (self.hasEcConnector = true)
      (onWorld fun w => self.externals.ecUpdateStateAfterAlloc w r i)

/-- The encoder part at the end of both loop bodies. -/
def scheduleEncoderInputs (self : Scheduler W) (request : Ref) (requestId : RequestId)
    (plan : EncoderPlan) (l : StepLocals) : SchedM W StepLocals := do
  self.allocateEncoderInputs request plan.encoderInputsToSchedule
  self.allocateEncoderInputs request plan.externalLoadEncoderInput
  pure
    (if plan.encoderInputsToSchedule ≠ [] then
      { l with
        scheduledEncoderInputs :=
          l.scheduledEncoderInputs.set requestId plan.encoderInputsToSchedule
        encoderComputeBudget := plan.encoderComputeBudget }
    else l)

/-! ## 5. The RUNNING loop of `schedule()` -/

/-- The request has reached `max_tokens` in a step whose output is not back yet. -/
def reachesMaxTokens (r : Request) : Prop :=
  r.numOutputPlaceholders > 0 ∧
    r.numComputedTokens + 2 - r.numOutputPlaceholders ≥ r.numPromptTokens + r.maxTokens

instance (r : Request) : Decidable (reachesMaxTokens r) := by
  unfold reachesMaxTokens
  infer_instance

/-- `request.spec_token_ids = []` -/
def clearSpecTokens (r : Request) : Request := { r with specTokenIds := [] }

def clampToThreshold (self : Scheduler W) (numNewTokens : Int) : Int :=
  if 0 < self.longPrefillTokenThreshold ∧ self.longPrefillTokenThreshold < numNewTokens then
    self.longPrefillTokenThreshold
  else numNewTokens

/-- Number of tokens a running request asks for, before encoder inputs. -/
def runningNewTokens (self : Scheduler W) (tokenBudget : Int) (r : Request) : Int :=
  min
    (min
      (self.clampToThreshold
        (r.numTokensWithSpec + r.numOutputPlaceholders - r.numComputedTokens))
      tokenBudget)
    (self.maxModelLen - 1 - r.numComputedTokens)

/-- The locals after the victim is taken back from the requests scheduled in this step. -/
def dropScheduled (objs : Ref → Request) (l : StepLocals) (victim : Ref) (numTokens : Int) :
    StepLocals :=
  let victimId := (objs victim).requestId
  let encoderInputs := (l.scheduledEncoderInputs.get? victimId).getD []
  { l with
    scheduledRunningReqs := l.scheduledRunningReqs.erase victim
    tokenBudget := l.tokenBudget + numTokens
    numScheduledTokens := l.numScheduledTokens.erase victimId
    reqToNewBlocks := l.reqToNewBlocks.erase victimId
    scheduledSpecDecodeTokens := l.scheduledSpecDecodeTokens.erase victimId
    scheduledEncoderInputs := l.scheduledEncoderInputs.erase victimId
    encoderComputeBudget := l.encoderComputeBudget +
      (encoderInputs.map (objs victim).getNumEncoderEmbeds).sum
    reqIndex := l.reqIndex - 1 }

/-- Take the victim back, if it was scheduled in this step. -/
def unschedule (objs : Ref → Request) (l : StepLocals) (victim : Ref) : SchedM W StepLocals :=
  if victim ∈ l.scheduledRunningReqs then do
    let numTokens ← getOrRaise (l.numScheduledTokens.get? (objs victim).requestId) .keyError
    pyAssert ((l.reqToNewBlocks.get? (objs victim).requestId).isSome = true) .keyError
    pure (dropScheduled objs l victim numTokens)
  else pure l

/-- Pick the running request to preempt and take it out of `running`. -/
def popPreemptionVictim (self : Scheduler W) (l : StepLocals) : SchedM W (Ref × StepLocals) := do
  let s ← get
  match self.policy with
  | .priority =>
      let keyLess := fun a b =>
        decide ((s.objs a).priority < (s.objs b).priority) ||
          (decide ((s.objs a).priority = (s.objs b).priority) &&
            decide ((s.objs a).arrivalTime < (s.objs b).arrivalTime))
      match Python.maxBy keyLess s.running with
      | none => throw (.valueError "max() iterable argument is empty")
      | some victim => do
          modify fun s => { s with running := s.running.erase victim }
          let l ← unschedule s.objs l victim
          pure (victim, l)
  | .fcfs =>
      match s.running.getLast? with
      | none => throw .indexError
      | some victim => do
          modify fun s => { s with running := s.running.dropLast }
          pure (victim, l)

/-- Allocate slots for a running request, preempting others (and in the end the
    request itself) until it fits. -/
def allocateOrPreempt (self : Scheduler W) (request : Ref) (numNewTokens : Int) :
    Nat → StepLocals → SchedM W (Option KVCacheBlocks × StepLocals)
  | 0, l => pure (none, l)
  | fuel + 1, l => do
      let r ← getRequest request
      let newBlocks ← callWorld fun w => self.externals.allocateSlots w r
        { numNewTokens
          numNewComputedTokens := 0
          newComputedBlocks := self.externals.emptyKvCacheBlocks
          numLookaheadTokens := self.numLookaheadTokens
          numExternalComputedTokens := 0
          delayCacheBlocks := false
          numEncoderTokens := 0
          fullSequenceMustFit := false }
      match newBlocks with
      | some blocks => pure (some blocks, l)
      | none => do
          let victim ← self.popPreemptionVictim l
          self.preemptRequest victim.1
          let l := { victim.2 with preemptedReqs := victim.2.preemptedReqs ++ [victim.1] }
          if victim.1 = request then pure (none, l)
          else self.allocateOrPreempt request numNewTokens fuel l

/-- The draft tokens of a running request that fit into its scheduled tokens. -/
def scheduledSpecTokens (r : Request) (numNewTokens : Int) : List Token :=
  let numScheduledSpecTokens :=
    numNewTokens + r.numComputedTokens - r.numTokens - r.numOutputPlaceholders
  if numScheduledSpecTokens > 0 then
    if (r.specTokenIds.length : Int) > numScheduledSpecTokens then
      r.specTokenIds.take numScheduledSpecTokens.toNat
    else r.specTokenIds
  else []

/-- The locals after `numNewTokens` tokens are handed to a running request. -/
def addRunning (l : StepLocals) (request : Ref) (r : Request) (numNewTokens : Int)
    (newBlocks : KVCacheBlocks) : StepLocals :=
  let specTokens := scheduledSpecTokens r numNewTokens
  { l with
    scheduledRunningReqs := l.scheduledRunningReqs ++ [request]
    reqToNewBlocks := l.reqToNewBlocks.set r.requestId newBlocks
    numScheduledTokens := l.numScheduledTokens.set r.requestId numNewTokens
    tokenBudget := l.tokenBudget - numNewTokens
    reqIndex := l.reqIndex + 1
    scheduledSpecDecodeTokens :=
      if r.specTokenIds ≠ [] ∧ specTokens ≠ [] then
        l.scheduledSpecDecodeTokens.set r.requestId specTokens
      else l.scheduledSpecDecodeTokens }

/-- Hand the planned tokens to a running request. -/
def scheduleRunning (self : Scheduler W) (request : Ref) (plan : EncoderPlan)
    (newBlocks : KVCacheBlocks) (l : StepLocals) : SchedM W StepLocals := do
  let r ← getRequest request
  modifyRequest request clearSpecTokens
  self.scheduleEncoderInputs request r.requestId plan
    (addRunning l request r plan.numNewTokens newBlocks)

/-- One iteration of the RUNNING loop. -/
def runningStep (self : Scheduler W) (l : StepLocals) (request : Ref) :
    SchedM W LoopControl := do
  let r ← getRequest request
  if reachesMaxTokens r then pure (.next { l with reqIndex := l.reqIndex + 1 })
  else do
    let plan ← self.planEncoderInputs r r.numComputedTokens
      (self.runningNewTokens l.tokenBudget r) l.encoderComputeBudget
    let numNewTokens ←
      (if self.needMambaBlockAlignedSplit then
        self.mambaBlockAlignedSplit r plan.numNewTokens 0 0
      else pure plan.numNewTokens : SchedM W Int)
    if numNewTokens = 0 then pure (.next { l with reqIndex := l.reqIndex + 1 })
    else do
      let s ← get
      let allocated ← self.allocateOrPreempt request numNewTokens s.running.length l
      match allocated.1 with
      | none => pure (.stop allocated.2)
      | some newBlocks => do
          let l ← self.scheduleRunning request { plan with numNewTokens } newBlocks allocated.2
          pure (.next l)

/-- `while req_index < len(self.running) and token_budget > 0` -/
def runningLoop (self : Scheduler W) : Nat → StepLocals → SchedM W StepLocals
  | 0, l => pure l
  | fuel + 1, l => do
      let s ← get
      match s.running[l.reqIndex]? with
      | none => pure l
      | some request =>
          if l.tokenBudget > 0 then do
            match ← self.runningStep l request with
            | .stop l => pure l
            | .next l => self.runningLoop fuel l
          else pure l

/-- The LoRAs of the scheduled running requests. -/
def recordScheduledLoras (self : Scheduler W) (l : StepLocals) : SchedM W StepLocals :=
  match self.maxLoras with
  | none => pure l
  | some maxLoras => do
      let s ← get
      let loras := (l.scheduledRunningReqs.filterMap fun request =>
        (s.objs request).loraRequest.filter fun loraId => decide (loraId > 0)).dedup
      pyAssert (loras.length ≤ maxLoras)
        (.assertFailed "len(scheduled_loras) <= self.lora_config.max_loras")
      pure { l with scheduledLoras := loras }

/-! ## 6. The WAITING loop of `schedule()` -/

/-- The queue that `_select_waiting_queue_for_scheduling` returns. -/
inductive WaitingQueue where
  | waiting
  | skippedWaiting
deriving DecidableEq, Repr

def queue (s : SchedulerState W) : WaitingQueue → List Ref
  | .waiting => s.waiting
  | .skippedWaiting => s.skippedWaiting

/-- `request_queue.pop_request()` -/
def popRequest (self : Scheduler W) (which : WaitingQueue) (s : SchedulerState W) :
    SchedulerState W :=
  match which with
  | .waiting => { s with waiting := self.requestQueue.popRest s.objs s.waiting }
  | .skippedWaiting =>
      { s with skippedWaiting := self.requestQueue.popRest s.objs s.skippedWaiting }

/-- `_select_waiting_queue_for_scheduling` -/
def selectWaitingQueueForScheduling (self : Scheduler W) (s : SchedulerState W) :
    Option WaitingQueue :=
  match self.policy with
  | .fcfs =>
      if s.skippedWaiting ≠ [] then some .skippedWaiting
      else if s.waiting ≠ [] then some .waiting
      else none
  | .priority =>
      match s.waiting.head?, s.skippedWaiting.head? with
      | some waitingReq, some skippedReq =>
          if Request.lt (s.objs waitingReq) (s.objs skippedReq) waitingReq skippedReq then
            some .waiting
          else some .skippedWaiting
      | some _, none => some .waiting
      | none, some _ => some .skippedWaiting
      | none, none => none

/-- Put the request aside for the rest of this step. -/
def skipRequest (self : Scheduler W) (which : WaitingQueue) (request : Ref) (l : StepLocals) :
    SchedM W LoopControl := do
  modify (self.popRequest which)
  let s ← get
  pure (.next { l with
    stepSkippedWaiting :=
      self.requestQueue.prependRequest s.objs l.stepSkippedWaiting request })

def exceedsMaxLoras (self : Scheduler W) (l : StepLocals) (r : Request) : Prop :=
  ∃ maxLoras ∈ self.maxLoras, ∃ loraId ∈ r.loraRequest,
    l.scheduledLoras.length = maxLoras ∧ loraId ∉ l.scheduledLoras

instance (self : Scheduler W) (l : StepLocals) (r : Request) :
    Decidable (self.exceedsMaxLoras l r) := by
  unfold exceedsMaxLoras
  infer_instance

/-- What is already computed of a waiting request. -/
structure ComputedTokens where
  newComputedBlocks : KVCacheBlocks
  numNewLocalComputedTokens : Int
  numExternalComputedTokens : Int
  loadKvAsync : Bool
  numComputedTokens : Int

/-- Already cached tokens; `none` when the connector cannot tell yet. -/
def findComputedTokens (self : Scheduler W) (request : Ref) :
    SchedM W (Option ComputedTokens) := do
  let r ← getRequest request
  if r.numComputedTokens = 0 then do
    record (.prefixLookup request)
    let cached ← callWorld fun w => self.externals.getComputedBlocks w r
    let matched ←
      (if self.hasConnector then
        callWorld fun w => self.externals.getNumNewMatchedTokens w r cached.2
      else pure (some 0, false) : SchedM W (Option Int × Bool))
    match matched.1 with
    | none => pure none
    | some extTokens => do
        let numComputedTokens := cached.2 + extTokens
        pyAssert (numComputedTokens ≤ r.numTokens)
          (.assertFailed "num_computed_tokens <= request.num_tokens")
        pyAssert (r.prefillStats = true → numComputedTokens ≤ r.numPromptTokens)
          (.assertFailed "num_computed_tokens <= request.num_prompt_tokens")
        pure (some
          { newComputedBlocks := cached.1
            numNewLocalComputedTokens := cached.2
            numExternalComputedTokens := extTokens
            loadKvAsync := matched.2
            numComputedTokens })
  else
    pure (some
      { newComputedBlocks := self.externals.emptyKvCacheBlocks
        numNewLocalComputedTokens := 0
        numExternalComputedTokens := 0
        loadKvAsync := false
        numComputedTokens := r.numComputedTokens })

/-- Number of tokens to compute for a waiting request, before the Mamba split;
    `none` ends the loop. -/
def planNewTokens (self : Scheduler W) (l : StepLocals) (r : Request) (found : ComputedTokens) :
    SchedM W (Option EncoderPlan) :=
  if found.loadKvAsync then do
    pyAssert (found.numExternalComputedTokens > 0)
      (.assertFailed "num_external_computed_tokens > 0")
    pure (some
      { encoderInputsToSchedule := []
        numNewTokens := 0
        encoderComputeBudget := l.encoderComputeBudget
        externalLoadEncoderInput := [] })
  else
    let numNewTokens := self.clampToThreshold (r.numTokens - found.numComputedTokens)
    if self.enableChunkedPrefill = false ∧ numNewTokens > l.tokenBudget then pure none
    else do
      pyAssert (min numNewTokens l.tokenBudget > 0) (.assertFailed "num_new_tokens > 0")
      let plan ← self.planEncoderInputs r found.numComputedTokens
        (min numNewTokens l.tokenBudget) l.encoderComputeBudget
      pure (if plan.numNewTokens = 0 then none else some plan)

/-- Number of tokens to compute for a waiting request; `none` ends the loop. -/
def planWaiting (self : Scheduler W) (l : StepLocals) (r : Request) (found : ComputedTokens) :
    SchedM W (Option EncoderPlan) := do
  match ← self.planNewTokens l r found with
  | none => pure none
  | some plan =>
      if self.needMambaBlockAlignedSplit then do
        let numNewTokens ← self.mambaBlockAlignedSplit r plan.numNewTokens
          found.numNewLocalComputedTokens found.numExternalComputedTokens
        pure (if numNewTokens = 0 then none else some { plan with numNewTokens })
      else pure (some plan)

/-- Allocate slots for a waiting request. -/
def allocateWaiting (self : Scheduler W) (r : Request) (found : ComputedTokens)
    (plan : EncoderPlan) : SchedM W Bool := do
  let newBlocks ← callWorld fun w => self.externals.allocateSlots w r
    { numNewTokens := plan.numNewTokens
      numNewComputedTokens := found.numNewLocalComputedTokens
      newComputedBlocks := found.newComputedBlocks
      numLookaheadTokens := if r.numComputedTokens = 0 then 0 else self.numLookaheadTokens
      numExternalComputedTokens := found.numExternalComputedTokens
      delayCacheBlocks := found.loadKvAsync
      numEncoderTokens :=
        if self.isEncoderDecoder && r.hasEncoderInputs then
          (plan.encoderInputsToSchedule.map r.getNumEncoderEmbeds).sum
        else 0
      fullSequenceMustFit := self.schedulerReserveFullIsl }
  match newBlocks with
  | none => do
      onlyIf (r.hasEncoderInputs = true) (onWorld fun w => self.externals.freeEncoder w r)
      pure false
  | some _ => do
      onlyIf (self.hasConnector = true) (onWorld fun w =>
        self.externals.updateStateAfterAlloc w r (self.externals.getBlocks w r.requestId)
          found.numExternalComputedTokens)
      pure true

/-- The request waits for its KV cache to be loaded. -/
def loadAsync (self : Scheduler W) (which : WaitingQueue) (request : Ref)
    (found : ComputedTokens) (l : StepLocals) : SchedM W LoopControl := do
  modify (self.popRequest which)
  setStatus request .waitingForRemoteKvs
  let s ← get
  let l := { l with
    stepSkippedWaiting :=
      self.requestQueue.prependRequest s.objs l.stepSkippedWaiting request }
  modifyRequest request fun r => { r with numComputedTokens := found.numComputedTokens }
  pure (.next l)

/-- The locals after `numNewTokens` tokens are handed to a waiting request. -/
def addWaiting (self : Scheduler W) (l : StepLocals) (request : Ref) (r : Request)
    (numNewTokens : Int) (blocks : KVCacheBlocks) : StepLocals :=
  { l with
    scheduledNewReqs :=
      if r.status = .waiting then l.scheduledNewReqs ++ [request] else l.scheduledNewReqs
    scheduledResumedReqs :=
      if r.status = .waiting then l.scheduledResumedReqs
      else l.scheduledResumedReqs ++ [request]
    scheduledLoras :=
      if self.maxLoras.isSome then l.scheduledLoras ++
        r.loraRequest.toList.filter fun loraId => loraId ∉ l.scheduledLoras
      else l.scheduledLoras
    reqToNewBlocks := l.reqToNewBlocks.set r.requestId blocks
    numScheduledTokens := l.numScheduledTokens.set r.requestId numNewTokens
    tokenBudget := l.tokenBudget - numNewTokens }

/-- The request starts running. -/
def admitWaiting (self : Scheduler W) (which : WaitingQueue) (request : Ref) (found : ComputedTokens)
    (plan : EncoderPlan) (l : StepLocals) : SchedM W LoopControl := do
  modify (self.popRequest which)
  modify fun s => { s with running := s.running ++ [request] }
  let s ← get
  let r := s.objs request
  pyAssert (r.status = .waiting ∨ r.status = .preempted)
    (.runtimeError ("Invalid request status: " ++ r.status.name))
  modifyRequest request fun r =>
    { r with status := .running, numComputedTokens := found.numComputedTokens }
  let l ← self.scheduleEncoderInputs request r.requestId plan
    (self.addWaiting l request r plan.numNewTokens (self.externals.getBlocks s.world r.requestId))
  pure (.next l)

/-- The loop body for a request that is not blocked, or not any more. -/
def considerRequest (self : Scheduler W) (which : WaitingQueue) (request : Ref)
    (l : StepLocals) : SchedM W LoopControl := do
  let r ← getRequest request
  if self.exceedsMaxLoras l r then self.skipRequest which request l
  else do
    match ← self.findComputedTokens request with
    | none => self.skipRequest which request l
    | some found => do
      match ← self.planWaiting l r found with
      | none => pure (.stop l)
      | some plan => do
        let allocated ← self.allocateWaiting r found plan
        if allocated = false then pure (.stop l)
        else if found.loadKvAsync then self.loadAsync which request found l
        else self.admitWaiting which request found plan l

/-- One iteration of the WAITING loop. -/
def waitingStep (self : Scheduler W) (l : StepLocals) : SchedM W LoopControl := do
  let s ← get
  match self.selectWaitingQueueForScheduling s with
  | none => throw (.assertFailed "request_queue is not None")
  | some which =>
    match (queue s which).head? with
    | none => throw .indexError
    | some request => do
      record (.examined request)
      let schedulable ←
        (if (s.objs request).status.isBlockedWaitingStatus then
          self.tryPromoteBlockedWaitingRequest request
        else pure true : SchedM W Bool)
      if schedulable = false then self.skipRequest which request l
      else self.considerRequest which request l

/-- `while (self.waiting or self.skipped_waiting) and token_budget > 0` -/
def waitingLoop (self : Scheduler W) : Nat → StepLocals → SchedM W StepLocals
  | 0, l => pure l
  | fuel + 1, l => do
      let s ← get
      if (s.waiting ≠ [] ∨ s.skippedWaiting ≠ []) ∧ l.tokenBudget > 0 then
        if s.running.length = self.maxNumRunningReqs then pure l
        else do
          match ← self.waitingStep l with
          | .stop l => pure l
          | .next l => self.waitingLoop fuel l
      else pure l

/-- The WAITING loop, and the requests skipped in it put back. -/
def scheduleWaiting (self : Scheduler W) (l : StepLocals) : SchedM W StepLocals := do
  let s ← get
  if l.preemptedReqs = [] ∧ s.pauseState = .unpaused then do
    let l ← self.waitingLoop (s.waiting.length + s.skippedWaiting.length) l
    onlyIf (l.stepSkippedWaiting ≠ []) (modify fun s => { s with
      skippedWaiting :=
        self.requestQueue.prependRequests s.objs s.skippedWaiting l.stepSkippedWaiting })
    pure l
  else pure l

/-! ## 7. The output of `schedule()` -/

def CachedRequestData.empty : CachedRequestData :=
  { reqIds := []
    resumedReqIds := []
    newTokenIds := []
    allTokenIds := ∅
    newBlockIds := []
    numComputedTokens := []
    numOutputTokens := [] }

/-- One iteration of `_make_cached_request_data`. -/
def addCachedRequest (self : Scheduler W) (l : StepLocals) (resumed : Bool)
    (data : CachedRequestData) (request : Ref) : SchedM W CachedRequestData := do
  let s ← get
  let r := s.objs request
  let newTokenIds ←
    (if self.usePp && !self.asyncScheduling then do
      let numScheduled ← getOrRaise (l.numScheduledTokens.get? r.requestId) .keyError
      let numTokens : Int := numScheduled -
        ((l.scheduledSpecDecodeTokens.get? r.requestId).getD []).length
      pure (data.newTokenIds ++
        [Python.slice r.allTokenIds r.numComputedTokens (r.numComputedTokens + numTokens)])
    else pure data.newTokenIds : SchedM W (List (List Token)))
  let scheduledInPrevStep := decide (r.requestId ∈ s.prevStepScheduledReqIds)
  pyAssert ((resumed && scheduledInPrevStep) = false) (.assertFailed "not scheduled_in_prev_step")
  let newBlocks ← getOrRaise (l.reqToNewBlocks.get? r.requestId) .keyError
  pure
    { reqIds := data.reqIds ++ [r.requestId]
      resumedReqIds :=
        if resumed then data.resumedReqIds ++ [r.requestId] else data.resumedReqIds
      newTokenIds
      allTokenIds :=
        if scheduledInPrevStep then data.allTokenIds
        else data.allTokenIds.set r.requestId r.allTokenIds
      newBlockIds := data.newBlockIds ++ [newBlocks.getBlockIdsAllowNone]
      numComputedTokens := data.numComputedTokens ++ [r.numComputedTokens]
      numOutputTokens := data.numOutputTokens ++ [r.numOutputTokens + r.numOutputPlaceholders] }

/-- `_make_cached_request_data` -/
def makeCachedRequestData (self : Scheduler W) (l : StepLocals)
    (runningReqs resumedReqs : List Ref) : SchedM W CachedRequestData := do
  let data ← runningReqs.foldlM (self.addCachedRequest l false) CachedRequestData.empty
  resumedReqs.foldlM (self.addCachedRequest l true) data

/-- One entry of `new_reqs_data`. -/
def newRequestData (self : Scheduler W) (l : StepLocals) (data : List NewRequestData)
    (request : Ref) : SchedM W (List NewRequestData) := do
  let r ← getRequest request
  let newBlocks ← getOrRaise (l.reqToNewBlocks.get? r.requestId) .keyError
  pure (data ++ [NewRequestData.fromRequest r newBlocks.getBlockIds
    (if self.useV2ModelRunner then some r.allTokenIds else none)])

/-- The scheduling constraints asserted after the loops. -/
def checkConstraints (self : Scheduler W) (l : StepLocals) : SchedM W Unit := do
  let s ← get
  pyAssert (l.numScheduledTokens.values.sum ≤ self.maxNumScheduledTokens)
    (.assertFailed "total_num_scheduled_tokens <= self.max_num_scheduled_tokens")
  pyAssert (0 ≤ l.tokenBudget) (.assertFailed "token_budget >= 0")
  pyAssert (s.running.length ≤ self.maxNumRunningReqs)
    (.assertFailed "len(self.running) <= self.max_num_running_reqs")
  pyAssert (l.scheduledNewReqs.length + l.scheduledResumedReqs.length +
      l.scheduledRunningReqs.length ≤ s.running.length)
    (.assertFailed "scheduled requests <= len(self.running)")

def makeSchedulerOutput (self : Scheduler W) (l : StepLocals) : SchedM W SchedulerOutput := do
  let s ← get
  let newReqs :=
    if self.useV2ModelRunner then l.scheduledNewReqs ++ l.scheduledResumedReqs
    else l.scheduledNewReqs
  let resumedReqs := if self.useV2ModelRunner then [] else l.scheduledResumedReqs
  let newReqsData ← newReqs.foldlM (self.newRequestData l) []
  let cachedReqsData ← self.makeCachedRequestData l l.scheduledRunningReqs resumedReqs
  modify fun s => { s with prevStepScheduledReqIds := l.numScheduledTokens.keys }
  let newBlockIdsToZero ←
    (if self.needsKvCacheZeroing then do
      let blockIds ← callWorld self.externals.takeNewBlockIds
      pure (if blockIds = [] then none else some blockIds)
    else pure none : SchedM W (Option (List Nat)))
  let freeEncoderMmHashes ← callWorld self.externals.getFreedMmHashes
  pure
    { scheduledNewReqs := newReqsData
      scheduledCachedReqs := cachedReqsData
      numScheduledTokens := l.numScheduledTokens
      totalNumScheduledTokens := l.numScheduledTokens.values.sum
      scheduledSpecDecodeTokens := l.scheduledSpecDecodeTokens
      scheduledEncoderInputs := l.scheduledEncoderInputs
      numCommonPrefixBlocks :=
        match s.running with
        | [] => List.replicate self.numKvCacheGroups 0
        | request :: _ =>
            self.externals.getNumCommonPrefixBlocks s.world (s.objs request).requestId
      preemptedReqIds := (l.preemptedReqs.map fun request => (s.objs request).requestId).dedup
      finishedReqIds := s.finishedReqIds
      freeEncoderMmHashes
      newBlockIdsToZero
      hasStructuredOutputRequests := false }

/-- What `_update_after_schedule` writes into a scheduled request. -/
def advanced (numScheduledToken : Int) (r : Request) : Request :=
  { r with
    numComputedTokens := r.numComputedTokens + numScheduledToken
    isPrefillChunk :=
      decide (r.numComputedTokens + numScheduledToken < r.numTokens + r.numOutputPlaceholders) }

/-- One iteration of `_update_after_schedule`. -/
def advanceRequest (hasStructuredOutputRequests : Bool) (item : RequestId × Int) :
    SchedM W Bool := do
  let s ← get
  let request ← getOrRaise (s.requests.get? item.1) .keyError
  modifyRequest request (advanced item.2)
  let r ← getRequest request
  pure (hasStructuredOutputRequests || (r.useStructuredOutput && !r.isPrefillChunk))

/-- `_update_after_schedule` -/
def updateAfterSchedule (out : SchedulerOutput) : SchedM W SchedulerOutput := do
  let hasStructuredOutputRequests ←
    out.numScheduledTokens.items.foldlM advanceRequest out.hasStructuredOutputRequests
  modify fun s => { s with finishedReqIds := [] }
  pure { out with hasStructuredOutputRequests }

/-- `schedule` -/
def schedule (self : Scheduler W) : SchedM W SchedulerOutput := do
  let s ← get
  onWorld self.externals.newStepStarts
  let l ← self.runningLoop s.running.length
    (StepLocals.init (if s.pauseState = .pausedAll then 0 else self.maxNumScheduledTokens)
      self.maxNumEncoderInputTokens)
  let l ← self.recordScheduledLoras l
  let l ← self.scheduleWaiting l
  self.checkConstraints l
  let out ← self.makeSchedulerOutput l
  onlyIf (self.hasConnector = true) (onWorld fun w => self.externals.buildConnectorMeta w out)
  onlyIf (self.hasEcConnector = true)
    (onWorld fun w => self.externals.ecBuildConnectorMeta w out)
  updateAfterSchedule out

end Scheduler

end Edmm
