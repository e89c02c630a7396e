/-
  Edmm/SchedulerState.lean
  ========================
  **The scheduler's data** (`vllm_v1_core_sched/scheduler.py`).

  Requests are Python objects with an identity: a `Ref` is the identity, `objs`
  the heap, and `requests` maps an id to the object registered under it.  What
  the scheduler calls but does not own (KV cache manager, encoder cache,
  connectors, grammars, `check_stop`, the block hasher) acts on a state `W` of
  its own and is the parameter `Externals W`.  `Scheduler W` holds what
  `__init__` fixes.

  `trace` is not in the source: it records what the current operation did to
  which request.  No operation reads it.
-/
import Edmm.Request
import Edmm.Lib.Program
import Mathlib.Logic.Function.Basic

namespace Edmm

abbrev Ref := Nat

/-! ## 1. Queues -/

inductive SchedulingPolicy where
  | fcfs
  | priority
deriving DecidableEq, Repr

inductive PauseState where
  | unpaused
  | pausedNew
  | pausedAll
deriving DecidableEq, Repr

/-- The request queue of a policy, as the list behind it (a deque, or a binary
    heap): `peek_request` and `pop_request` give its first entry.  The heap of
    requests is an argument since a priority queue compares the requests. -/
structure RequestQueue where
  addRequest : (Ref → Request) → List Ref → Ref → List Ref
  prependRequest : (Ref → Request) → List Ref → Ref → List Ref
  /-- `prepend_requests`: the queue, then the queue put in front of it. -/
  prependRequests : (Ref → Request) → List Ref → List Ref → List Ref
  /-- What `pop_request` leaves. -/
  popRest : (Ref → Request) → List Ref → List Ref
  removeRequests : (Ref → Request) → List Ref → List Ref → List Ref
  /-- The order of `for request in queue`. -/
  iter : (Ref → Request) → List Ref → List Ref
  addRequest_perm : ∀ objs queue request, (addRequest objs queue request).Perm (request :: queue)
  prependRequest_perm :
    ∀ objs queue request, (prependRequest objs queue request).Perm (request :: queue)
  prependRequests_perm :
    ∀ objs queue others, (prependRequests objs queue others).Perm (others ++ queue)
  popRest_perm : ∀ objs queue, (popRest objs queue).Perm queue.tail
  removeRequests_perm : ∀ objs queue (removed : List Ref),
    (removeRequests objs queue removed).Perm (queue.filter fun request => request ∉ removed)
  iter_perm : ∀ objs queue, (iter objs queue).Perm queue

/-- `FCFSRequestQueue`: a deque. -/
def fcfsRequestQueue : RequestQueue where
  addRequest _ queue request := queue ++ [request]
  prependRequest _ queue request := request :: queue
  prependRequests _ queue others := others.reverse ++ queue
  popRest _ queue := queue.tail
  removeRequests _ queue removed := queue.filter fun request => request ∉ removed
  iter _ queue := queue
  addRequest_perm _ queue request := List.perm_append_singleton request queue
  prependRequest_perm _ _ _ := List.Perm.refl _
  prependRequests_perm _ _ others := (List.reverse_perm others).append_right _
  popRest_perm _ _ := List.Perm.refl _
  removeRequests_perm _ _ _ := List.Perm.refl _
  iter_perm _ _ := List.Perm.refl _

/-! ## 2. Messages to and from the worker -/

/-- `KVCacheBlocks`: block ids by cache group. -/
structure KVCacheBlocks where
  groups : List (List Nat)
deriving DecidableEq, Repr

namespace KVCacheBlocks

def getBlockIds (blocks : KVCacheBlocks) : List (List Nat) := blocks.groups

/-- `get_block_ids(allow_none=True)` -/
def getBlockIdsAllowNone (blocks : KVCacheBlocks) : Option (List (List Nat)) :=
  if blocks.groups.all List.isEmpty then none else some blocks.groups

end KVCacheBlocks

structure NewRequestData where
  reqId : RequestId
  promptTokenIds : Option (List Token)
  promptEmbeds : Option Nat
  mmFeatures : List MultiModalFeatureSpec
  samplingParams : Option SamplingParams
  poolingParams : Option PoolingParams
  blockIds : List (List Nat)
  numComputedTokens : Int
  loraRequest : Option Int
  prefillTokenIds : Option (List Token)
deriving DecidableEq, Repr

def NewRequestData.fromRequest (request : Request) (blockIds : List (List Nat))
    (prefillTokenIds : Option (List Token)) : NewRequestData :=
  { reqId := request.requestId
    promptTokenIds := request.promptTokenIds
    promptEmbeds := request.promptEmbeds
    mmFeatures := request.mmFeatures
    samplingParams := request.samplingParams
    poolingParams := request.poolingParams
    blockIds
    numComputedTokens := request.numComputedTokens
    loraRequest := request.loraRequest
    prefillTokenIds }

structure CachedRequestData where
  reqIds : List RequestId
  resumedReqIds : List RequestId
  newTokenIds : List (List Token)
  allTokenIds : Dict RequestId (List Token)
  newBlockIds : List (Option (List (List Nat)))
  numComputedTokens : List Int
  numOutputTokens : List Int

structure SchedulerOutput where
  scheduledNewReqs : List NewRequestData
  scheduledCachedReqs : CachedRequestData
  numScheduledTokens : Dict RequestId Int
  totalNumScheduledTokens : Int
  scheduledSpecDecodeTokens : Dict RequestId (List Token)
  scheduledEncoderInputs : Dict RequestId (List Nat)
  numCommonPrefixBlocks : List Int
  preemptedReqIds : List RequestId
  finishedReqIds : List RequestId
  freeEncoderMmHashes : List String
  newBlockIdsToZero : Option (List Nat)
  hasStructuredOutputRequests : Bool

structure KVConnectorOutput where
  invalidBlockIds : List Nat
  finishedRecving : List RequestId
  finishedSending : List RequestId
deriving DecidableEq, Repr

structure ModelRunnerOutput where
  reqIdToIndex : Dict RequestId Nat
  sampledTokenIds : List (List Token)
  /-- `pooler_output`: whether each request has one. -/
  poolerOutput : List Bool
  kvConnectorOutput : Option KVConnectorOutput

structure EngineCoreOutput where
  requestId : RequestId
  clientIndex : Int
  newTokenIds : List Token
  finishReason : Option FinishReason
  stopReason : Option Token
deriving DecidableEq, Repr

/-! ## 3. Collaborators -/

/-- The keyword arguments of `allocate_slots`. -/
structure SlotRequest where
  numNewTokens : Int
  numNewComputedTokens : Int
  newComputedBlocks : KVCacheBlocks
  numLookaheadTokens : Int
  numExternalComputedTokens : Int
  delayCacheBlocks : Bool
  numEncoderTokens : Int
  fullSequenceMustFit : Bool
deriving DecidableEq, Repr

/-- What `check_stop` writes when it returns `True`. -/
structure StopOutcome where
  status : RequestStatus
  finished : status.isFinished = true
  stopReason : Option Token

structure Externals (W : Type) where
  newStepStarts : W → W
  getComputedBlocks : W → Request → (KVCacheBlocks × Int) × W
  emptyKvCacheBlocks : KVCacheBlocks
  allocateSlots : W → Request → SlotRequest → Option KVCacheBlocks × W
  getBlocks : W → RequestId → KVCacheBlocks
  freeKvCache : W → Request → W
  cacheBlocks : W → Request → Int → W
  evictBlocks : W → List Nat → W
  removeSkippedBlocks : W → RequestId → Int → W
  getNumCommonPrefixBlocks : W → RequestId → List Int
  takeNewBlockIds : W → List Nat × W
  resetPrefixCache : W → Bool × W
  checkAndUpdateCache : W → Request → Nat → Bool × W
  canAllocate : W → Request → Nat → Int → Int → Bool × W
  allocateEncoder : W → Request → Nat → W
  freeEncoder : W → Request → W
  getCachedInputIds : W → Request → List Nat
  freeEncoderInput : W → Request → Nat → W
  getFreedMmHashes : W → List String × W
  getEmbedsIndicesInRange : PlaceholderRange → Int → Int → Int × Int
  getNumNewMatchedTokens : W → Request → Int → (Option Int × Bool) × W
  updateStateAfterAlloc : W → Request → KVCacheBlocks → Int → W
  buildConnectorMeta : W → SchedulerOutput → W
  onNewRequest : W → Request → W
  /-- Whether the connector delays the freeing of the blocks. -/
  requestFinished : W → Request → List (List Nat) → Bool × W
  updateConnectorOutput : W → KVConnectorOutput → W
  resetConnectorCache : W → Bool × W
  hasCacheItem : W → String → Bool
  ecUpdateStateAfterAlloc : W → Request → Nat → W
  ecBuildConnectorMeta : W → SchedulerOutput → W
  /-- Whether the request's grammar is compiled. -/
  grammarReady : W → Request → Bool
  shouldAdvance : W → Request → Bool
  acceptTokens : W → RequestId → List Token → Bool × W
  validateTokens : W → Request → List Token → List Token
  checkStop : Request → Int → Option StopOutcome
  blockHasher : Option (Request → List BlockHash)

/-- What `__init__` fixes. -/
structure Scheduler (W : Type) where
  policy : SchedulingPolicy
  requestQueue : RequestQueue
  externals : Externals W
  maxNumRunningReqs : Nat
  maxNumScheduledTokens : Int
  longPrefillTokenThreshold : Int
  enableChunkedPrefill : Bool
  disableChunkedMmInput : Bool
  asyncScheduling : Bool
  maxModelLen : Int
  /-- `lora_config.max_loras` -/
  maxLoras : Option Nat
  isEncoderDecoder : Bool
  maxNumEncoderInputTokens : Int
  useEagle : Bool
  numLookaheadTokens : Int
  needMambaBlockAlignedSplit : Bool
  /-- `cache_config.block_size` -/
  cacheBlockSize : Nat
  cacheBlockSize_pos : 0 < cacheBlockSize
  blockSize : Int
  numKvCacheGroups : Nat
  needsKvCacheZeroing : Bool
  usePp : Bool
  useV2ModelRunner : Bool
  schedulerReserveFullIsl : Bool
  /-- `connector is not None` -/
  hasConnector : Bool
  recomputeKvLoadFailures : Bool
  /-- `ec_connector is not None` -/
  hasEcConnector : Bool
  edmmEnabled : Bool

/-! ## 4. State -/

inductive SchedulerEvent where
  /-- The waiting loop looks at the request. -/
  | examined (request : Ref)
  /-- `kv_cache_manager.get_computed_blocks(request)` -/
  | prefixLookup (request : Ref)
  /-- `_try_promote_blocked_waiting_request` returned `True`. -/
  | promoted (request : Ref)
  /-- `_preempt_request` -/
  | preempted (request : Ref)
  /-- `_free_request` -/
  | freed (request : Ref)
  /-- `add_request` registered the request. -/
  | registered (request : Ref)
deriving DecidableEq, Repr

/-- The request that the waiting loop looked at last. -/
def lastExamined : List SchedulerEvent → Option Ref :=
  List.foldl (fun last event =>
    match event with
    | .examined request => some request
    | _ => last) none

structure SchedulerState (W : Type) where
  objs : Ref → Request
  nextRef : Ref
  requests : Dict RequestId Ref
  running : List Ref
  waiting : List Ref
  skippedWaiting : List Ref
  finishedReqIds : List RequestId
  prevStepScheduledReqIds : List RequestId
  numWaitingForStreamingInput : Int
  finishedRecvingKvReqIds : List RequestId
  failedRecvingKvReqIds : List RequestId
  pauseState : PauseState
  edmmHook : Option EdmmSchedulerHook
  world : W
  trace : List SchedulerEvent

abbrev SchedM (W : Type) := EStateM PyError (SchedulerState W)

namespace SchedulerState

variable {W : Type}

/-- The state `__init__` leaves; no request exists, so the heap is irrelevant. -/
def init (objs : Ref → Request) (edmmHook : Option EdmmSchedulerHook) (world : W) :
    SchedulerState W :=
  { objs
    nextRef := 0
    requests := ∅
    running := []
    waiting := []
    skippedWaiting := []
    finishedReqIds := []
    prevStepScheduledReqIds := []
    numWaitingForStreamingInput := 0
    finishedRecvingKvReqIds := []
    failedRecvingKvReqIds := []
    pauseState := .unpaused
    edmmHook
    world
    trace := [] }

/-- Write the attributes of one request. -/
def updateRequest (s : SchedulerState W) (request : Ref) (f : Request → Request) :
    SchedulerState W :=
  { s with objs := Function.update s.objs request (f (s.objs request)) }

/-- `self.running.append(request)`, and what the collaborators did since. -/
def startRunning (s : SchedulerState W) (request : Ref) (w : W) : SchedulerState W :=
  { s with running := s.running ++ [request], world := w }

def record (s : SchedulerState W) (event : SchedulerEvent) : SchedulerState W :=
  { s with trace := s.trace ++ [event] }

/-- The request registered under an id, as `self.requests.get(req_id)` when it is
    not finished. -/
def unfinished? (s : SchedulerState W) (reqId : RequestId) : Option Ref :=
  (s.requests.get? reqId).filter fun request => !(s.objs request).isFinished

end SchedulerState

/-- The locals of one `schedule()` call. -/
structure StepLocals where
  tokenBudget : Int
  encoderComputeBudget : Int
  reqIndex : Nat
  scheduledNewReqs : List Ref
  scheduledResumedReqs : List Ref
  scheduledRunningReqs : List Ref
  preemptedReqs : List Ref
  reqToNewBlocks : Dict RequestId KVCacheBlocks
  numScheduledTokens : Dict RequestId Int
  scheduledEncoderInputs : Dict RequestId (List Nat)
  scheduledSpecDecodeTokens : Dict RequestId (List Token)
  scheduledLoras : List Int
  stepSkippedWaiting : List Ref

def StepLocals.init (tokenBudget encoderComputeBudget : Int) : StepLocals :=
  { tokenBudget
    encoderComputeBudget
    reqIndex := 0
    scheduledNewReqs := []
    scheduledResumedReqs := []
    scheduledRunningReqs := []
    preemptedReqs := []
    reqToNewBlocks := ∅
    numScheduledTokens := ∅
    scheduledEncoderInputs := ∅
    scheduledSpecDecodeTokens := ∅
    scheduledLoras := []
    stepSkippedWaiting := [] }

/-- How a loop body ends: with the next iteration, or with `break`. -/
inductive LoopControl where
  | next (locals : StepLocals)
  | stop (locals : StepLocals)

def LoopControl.locals : LoopControl → StepLocals
  | .next l => l
  | .stop l => l

/-! ## 5. Field equations -/

theorem lastExamined_concat (trace : List SchedulerEvent) (event : SchedulerEvent) :
    lastExamined (trace ++ [event]) =
      match event with
      | .examined request => some request
      | _ => lastExamined trace := by
  simp only [lastExamined, List.foldl_append, List.foldl_cons, List.foldl_nil]

section
variable {W : Type} (s : SchedulerState W) (request other : Ref) (f : Request → Request)
  (event : SchedulerEvent)

namespace SchedulerState

@[simp] theorem objs_updateRequest_self :
    (s.updateRequest request f).objs request = f (s.objs request) :=
  Function.update_self ..

@[simp] theorem objs_updateRequest_of_ne {request other : Ref} (h : other ≠ request) :
    (s.updateRequest request f).objs other = s.objs other :=
  Function.update_of_ne h ..

theorem objs_updateRequest :
    (s.updateRequest request f).objs other =
      if other = request then f (s.objs request) else s.objs other := by
  by_cases h : other = request
  · rw [h, objs_updateRequest_self, if_pos rfl]
  · rw [objs_updateRequest_of_ne s f h, if_neg h]

/-- Two writes to one request are one. -/
theorem updateRequest_updateRequest (g : Request → Request) :
    (s.updateRequest request f).updateRequest request g =
      s.updateRequest request fun r => g (f r) := by
  simp only [updateRequest, Function.update_self, Function.update_idem]

theorem updateRequest_same : (s.updateRequest request fun _ => s.objs request) = s := by
  unfold updateRequest
  rw [Function.update_eq_self]

@[simp] theorem requests_updateRequest : (s.updateRequest request f).requests = s.requests := rfl

@[simp] theorem running_updateRequest : (s.updateRequest request f).running = s.running := rfl

@[simp] theorem waiting_updateRequest : (s.updateRequest request f).waiting = s.waiting := rfl

@[simp] theorem skippedWaiting_updateRequest :
    (s.updateRequest request f).skippedWaiting = s.skippedWaiting := rfl

@[simp] theorem nextRef_updateRequest : (s.updateRequest request f).nextRef = s.nextRef := rfl

@[simp] theorem edmmHook_updateRequest : (s.updateRequest request f).edmmHook = s.edmmHook := rfl

@[simp] theorem trace_updateRequest : (s.updateRequest request f).trace = s.trace := rfl

@[simp] theorem prevStepScheduledReqIds_updateRequest :
    (s.updateRequest request f).prevStepScheduledReqIds = s.prevStepScheduledReqIds := rfl

@[simp] theorem pauseState_updateRequest :
    (s.updateRequest request f).pauseState = s.pauseState := rfl

/-- A registered, unfinished request. -/
theorem unfinished?_eq_some {reqId : RequestId} {request : Ref} :
    s.unfinished? reqId = some request ↔
      s.requests.get? reqId = some request ∧ (s.objs request).isFinished = false := by
  unfold unfinished?
  rw [Option.filter_eq_some_iff]
  simp

end SchedulerState

end

end Edmm
