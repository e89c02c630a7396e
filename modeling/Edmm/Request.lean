/-
  Edmm/Request.lean
  =================
  **Requests, their statuses and their token lists** (`request.py`).

  A `Request` carries the fields that the scheduler and its collaborators read.
  Logging data (events, trace headers, statistics) is left out; of
  `prefill_stats` only its presence matters.  A prompt given as embeddings is
  represented by its number of rows.  `check_stop`, the block hasher and the
  multimodal ranges come from other packages and are parameters of the scheduler.
-/
import Edmm.SchedulerHook
import Edmm.Lib.Python

namespace Edmm

abbrev Token := Int

abbrev BlockHash := Nat

/-! ## 1. Status -/

inductive RequestStatus where
  | waiting
  | waitingForStructuredOutputGrammar
  | waitingForRemoteKvs
  | waitingForStreamingReq
  | waitingForToolCall
  | running
  | preempted
  | finishedStopped
  | finishedLengthCapped
  | finishedAborted
  | finishedIgnored
  | finishedError
  | finishedRepetition
deriving DecidableEq, Repr

inductive FinishReason where
  | stop
  | length
  | abort
  | error
  | repetition
deriving DecidableEq, Repr

namespace RequestStatus

/-- The value `enum.auto()` gives. -/
def value : RequestStatus → Nat
  | waiting => 1
  | waitingForStructuredOutputGrammar => 2
  | waitingForRemoteKvs => 3
  | waitingForStreamingReq => 4
  | waitingForToolCall => 5
  | running => 6
  | preempted => 7
  | finishedStopped => 8
  | finishedLengthCapped => 9
  | finishedAborted => 10
  | finishedIgnored => 11
  | finishedError => 12
  | finishedRepetition => 13

/-- `str(status)` -/
def name : RequestStatus → String
  | waiting => "WAITING"
  | waitingForStructuredOutputGrammar => "WAITING_FOR_STRUCTURED_OUTPUT_GRAMMAR"
  | waitingForRemoteKvs => "WAITING_FOR_REMOTE_KVS"
  | waitingForStreamingReq => "WAITING_FOR_STREAMING_REQ"
  | waitingForToolCall => "WAITING_FOR_TOOL_CALL"
  | running => "RUNNING"
  | preempted => "PREEMPTED"
  | finishedStopped => "FINISHED_STOPPED"
  | finishedLengthCapped => "FINISHED_LENGTH_CAPPED"
  | finishedAborted => "FINISHED_ABORTED"
  | finishedIgnored => "FINISHED_IGNORED"
  | finishedError => "FINISHED_ERROR"
  | finishedRepetition => "FINISHED_REPETITION"

def isFinished (status : RequestStatus) : Bool := decide (preempted.value < status.value)

/-- `_FINISHED_REASON_MAP` -/
def getFinishedReason : RequestStatus → Option FinishReason
  | finishedStopped => some .stop
  | finishedLengthCapped => some .length
  | finishedAborted => some .abort
  | finishedIgnored => some .length
  | finishedError => some .error
  | waitingForStreamingReq => some .stop
  | finishedRepetition => some .repetition
  | _ => none

/-- `_is_blocked_waiting_status` -/
def isBlockedWaitingStatus (status : RequestStatus) : Bool :=
  status ∈ [waitingForStructuredOutputGrammar, waitingForRemoteKvs, waitingForStreamingReq,
    waitingForToolCall]

/-- A blocked request is not finished. -/
theorem isFinished_of_blocked {status : RequestStatus} (h : status.isBlockedWaitingStatus = true) :
    status.isFinished = false := by
  cases status
  all_goals first | rfl | cases h

end RequestStatus

/-! ## 2. Requests -/

structure SamplingParams where
  maxTokens : Option Int
  minTokens : Int
  eosTokenId : Option Token
  stopTokenIds : List Token
  /-- Whether any structured-output constraint is set. -/
  structuredOutputs : Bool
  skipReadingPrefixCache : Option Bool
deriving DecidableEq, Repr

structure PoolingParams where
  skipReadingPrefixCache : Option Bool
deriving DecidableEq, Repr

structure PlaceholderRange where
  offset : Int
  length : Int
  /-- `get_num_embeds()` -/
  numEmbeds : Int
deriving DecidableEq, Repr

structure MultiModalFeatureSpec where
  identifier : String
  mmPosition : PlaceholderRange
deriving DecidableEq, Repr

structure StreamingUpdate where
  mmFeatures : List MultiModalFeatureSpec
  promptTokenIds : Option (List Token)
  maxTokens : Int
  arrivalTime : ℚ
  samplingParams : Option SamplingParams
deriving DecidableEq, Repr

/-- The arguments of `Request.__init__`. -/
structure RequestParams where
  requestId : RequestId
  promptTokenIds : Option (List Token)
  samplingParams : Option SamplingParams
  poolingParams : Option PoolingParams
  clientIndex : Int
  arrivalTime : ℚ
  /-- Number of rows of `prompt_embeds`. -/
  promptEmbeds : Option Nat
  mmFeatures : List MultiModalFeatureSpec
  /-- `lora_request.lora_int_id` -/
  loraRequest : Option Int
  priority : Int
  resumable : Bool
deriving DecidableEq, Repr

structure Request where
  requestId : RequestId
  clientIndex : Int
  priority : Int
  samplingParams : Option SamplingParams
  poolingParams : Option PoolingParams
  loraRequest : Option Int
  /-- `structured_output_request is not None` -/
  useStructuredOutput : Bool
  arrivalTime : ℚ
  status : RequestStatus
  stopReason : Option Token
  maxTokens : Int
  promptTokenIds : Option (List Token)
  promptEmbeds : Option Nat
  numPromptTokens : Int
  /-- `_output_token_ids` -/
  outputTokenIds : List Token
  /-- `_all_token_ids` -/
  allTokenIds : List Token
  numOutputPlaceholders : Int
  asyncTokensToDiscard : Int
  specTokenIds : List Token
  numComputedTokens : Int
  mmFeatures : List MultiModalFeatureSpec
  isPrefillChunk : Bool
  numPreemptions : Nat
  /-- `prefill_stats is not None` -/
  prefillStats : Bool
  blockHashes : List BlockHash
  skipReadingPrefixCache : Bool
  resumable : Bool
  /-- `None` outside a streaming session; a `None` entry is the end of the session. -/
  streamingQueue : Option (List (Option StreamingUpdate))
deriving DecidableEq, Repr

namespace Request

def numTokens (request : Request) : Int := request.allTokenIds.length

def numTokensWithSpec (request : Request) : Int :=
  request.allTokenIds.length + request.specTokenIds.length

def numOutputTokens (request : Request) : Int := request.outputTokenIds.length

def hasEncoderInputs (request : Request) : Bool := decide (0 < request.mmFeatures.length)

def isFinished (request : Request) : Bool := request.status.isFinished

def getNumEncoderEmbeds (request : Request) (inputId : Nat) : Int :=
  ((request.mmFeatures[inputId]?).map fun feature => feature.mmPosition.numEmbeds).getD 0

/-- `if request.streaming_queue` -/
def hasStreamingUpdate (request : Request) : Bool :=
  match request.streamingQueue with
  | none => false
  | some updates => !updates.isEmpty

/-- `update_block_hashes` -/
def updateBlockHashes (blockHasher : Option (Request → List BlockHash)) (request : Request) :
    Request :=
  match blockHasher with
  | none => request
  | some hasher => { request with blockHashes := request.blockHashes ++ hasher request }

def appendOutputTokenIds (blockHasher : Option (Request → List BlockHash)) (request : Request)
    (tokenIds : List Token) : Request :=
  updateBlockHashes blockHasher
    { request with
      outputTokenIds := request.outputTokenIds ++ tokenIds
      allTokenIds := request.allTokenIds ++ tokenIds }

def takePrefillStats (request : Request) : Request := { request with prefillStats := false }

/-- `length_from_prompt_token_ids_or_embeds` -/
def lengthFromPromptTokenIdsOrEmbeds (promptTokenIds : Option (List Token))
    (promptEmbeds : Option Nat) : Except PyError Nat :=
  match promptTokenIds, promptEmbeds with
  | none, none =>
      throw (.valueError "Neither prompt_token_ids nor prompt_embeds were defined.")
  | none, some rows => pure rows
  | some tokenIds, none => pure tokenIds.length
  | some tokenIds, some rows =>
      if rows ≠ tokenIds.length then
        throw (.valueError "Prompt token ids and prompt embeds had different lengths")
      else pure tokenIds.length

def getSkipReadingPrefixCache (samplingParams : Option SamplingParams)
    (poolingParams : Option PoolingParams) : Bool :=
  match samplingParams.bind SamplingParams.skipReadingPrefixCache with
  | some skip => skip
  | none => (poolingParams.bind PoolingParams.skipReadingPrefixCache).getD false

/-- `self.max_tokens` and the first `self.status` -/
def initialLimits (params : RequestParams) : Except PyError (Int × RequestStatus) :=
  match params.poolingParams, params.samplingParams with
  | some _, _ => pure (1, .waiting)
  | none, none =>
      throw (.valueError "sampling_params and pooling_params can't both be unset")
  | none, some samplingParams =>
      match samplingParams.maxTokens with
      | none => throw (.assertFailed "sampling_params.max_tokens is not None")
      | some maxTokens =>
          pure (maxTokens,
            if samplingParams.structuredOutputs then .waitingForStructuredOutputGrammar
            else .waiting)

/-- `Request.__init__` -/
def init (blockHasher : Option (Request → List BlockHash)) (params : RequestParams) :
    Except PyError Request := do
  let limits ← initialLimits params
  let numPromptTokens ←
    lengthFromPromptTokenIdsOrEmbeds params.promptTokenIds params.promptEmbeds
  pure (updateBlockHashes blockHasher
    { requestId := params.requestId
      clientIndex := params.clientIndex
      priority := params.priority
      samplingParams := params.samplingParams
      poolingParams := params.poolingParams
      loraRequest := params.loraRequest
      useStructuredOutput :=
        (params.samplingParams.map SamplingParams.structuredOutputs).getD false
      arrivalTime := params.arrivalTime
      status := limits.2
      stopReason := none
      maxTokens := limits.1
      promptTokenIds := params.promptTokenIds
      promptEmbeds := params.promptEmbeds
      numPromptTokens
      outputTokenIds := []
      allTokenIds := params.promptTokenIds.getD (List.replicate numPromptTokens 0)
      numOutputPlaceholders := 0
      asyncTokensToDiscard := 0
      specTokenIds := []
      numComputedTokens := 0
      mmFeatures := params.mmFeatures
      isPrefillChunk := false
      numPreemptions := 0
      prefillStats := true
      blockHashes := []
      skipReadingPrefixCache :=
        getSkipReadingPrefixCache params.samplingParams params.poolingParams
      resumable := params.resumable
      streamingQueue := none })

/-- `__lt__`; `id()` orders what the other keys leave equal. -/
def lt (request other : Request) (address otherAddress : Nat) : Bool :=
  if request.priority ≠ other.priority then decide (request.priority < other.priority)
  else if request.arrivalTime ≠ other.arrivalTime then
    decide (request.arrivalTime < other.arrivalTime)
  else if request.requestId ≠ other.requestId then decide (request.requestId < other.requestId)
  else decide (address < otherAddress)

end Request

/-- `StreamingUpdate.from_request` -/
def StreamingUpdate.fromRequest (request : Request) : Option StreamingUpdate :=
  if request.resumable then
    some
      { mmFeatures := request.mmFeatures
        promptTokenIds := request.promptTokenIds
        maxTokens := request.maxTokens
        arrivalTime := request.arrivalTime
        samplingParams := request.samplingParams }
  else none

/-! ## 3. What the updates keep -/

namespace Request

/-- Hashing new blocks changes the block hashes only. -/
theorem updateBlockHashes_eq (blockHasher : Option (Request → List BlockHash)) (request : Request) :
    ∃ hashes, updateBlockHashes blockHasher request = { request with blockHashes := hashes } := by
  unfold updateBlockHashes
  split
  · exact ⟨request.blockHashes, rfl⟩
  · exact ⟨_, rfl⟩

/-- Appending output tokens extends the two token lists and the block hashes. -/
theorem appendOutputTokenIds_eq (blockHasher : Option (Request → List BlockHash))
    (request : Request) (tokenIds : List Token) :
    ∃ hashes, appendOutputTokenIds blockHasher request tokenIds =
      { request with
        outputTokenIds := request.outputTokenIds ++ tokenIds
        allTokenIds := request.allTokenIds ++ tokenIds
        blockHashes := hashes } := by
  obtain ⟨hashes, hhashes⟩ := updateBlockHashes_eq blockHasher
    { request with
      outputTokenIds := request.outputTokenIds ++ tokenIds
      allTokenIds := request.allTokenIds ++ tokenIds }
  exact ⟨hashes, hhashes⟩

/-- A request that was just built: nothing computed, nothing generated, never
    preempted, and waiting or blocked on its grammar. -/
structure Fresh (request : Request) : Prop where
  status : request.status = .waiting ∨ request.status = .waitingForStructuredOutputGrammar
  outputTokenIds : request.outputTokenIds = []
  numPreemptions : request.numPreemptions = 0
  numOutputPlaceholders : request.numOutputPlaceholders = 0
  numPromptTokens : request.numPromptTokens = request.numTokens
  streamingQueue : request.streamingQueue = none
  numComputedTokens : request.numComputedTokens = 0
  allTokenIds : ∀ prompt, request.promptTokenIds = some prompt → request.allTokenIds = prompt

theorem fresh_init {blockHasher : Option (Request → List BlockHash)} {params : RequestParams}
    {request : Request} (h : init blockHasher params = .ok request) : request.Fresh := by
  obtain ⟨limits, hlimits, h⟩ := Program.except_bind_eq_ok.mp h
  obtain ⟨numPromptTokens, hlength, h⟩ := Program.except_bind_eq_ok.mp h
  injection h with h
  obtain ⟨hashes, hhashes⟩ := updateBlockHashes_eq blockHasher _
  rw [hhashes] at h
  subst h
  have hstatus : limits.2 = .waiting ∨
      limits.2 = .waitingForStructuredOutputGrammar := by
    unfold initialLimits at hlimits
    split at hlimits
    · cases hlimits; exact Or.inl rfl
    · cases hlimits
    · split at hlimits
      · cases hlimits
      · cases hlimits
        dsimp only
        split
        · exact Or.inr rfl
        · exact Or.inl rfl
  have hall : (params.promptTokenIds.getD (List.replicate numPromptTokens 0)).length =
      numPromptTokens := by
    unfold lengthFromPromptTokenIdsOrEmbeds at hlength
    split at hlength
    · cases hlength
    · cases hlength; simp_all
    · cases hlength; simp_all
    · split at hlength
      · cases hlength
      · cases hlength; simp_all
  exact
    { status := hstatus
      outputTokenIds := rfl
      numPreemptions := rfl
      numOutputPlaceholders := rfl
      numPromptTokens := by simp only [numTokens, hall]
      streamingQueue := rfl
      numComputedTokens := rfl
      allTokenIds := by
        intro prompt hprompt
        dsimp only at hprompt ⊢
        rw [hprompt, Option.getD_some] }

/-- A request carries the id it was built with, and is a session if it was asked to be one. -/
theorem init_params {blockHasher : Option (Request → List BlockHash)} {params : RequestParams}
    {request : Request} (h : init blockHasher params = .ok request) :
    request.requestId = params.requestId ∧ request.resumable = params.resumable := by
  obtain ⟨limits, hlimits, h⟩ := Program.except_bind_eq_ok.mp h
  obtain ⟨numPromptTokens, hlength, h⟩ := Program.except_bind_eq_ok.mp h
  injection h with h
  obtain ⟨hashes, hhashes⟩ := updateBlockHashes_eq blockHasher _
  rw [hhashes] at h
  subst h
  exact ⟨rfl, rfl⟩

end Request

end Edmm
