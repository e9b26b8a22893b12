import Xllm.Lib.Outcome
import Xllm.Request.RequestState

/-!
# Creating a text request

`LLMRequestFactory::create` (`core/framework/request/llm_request_factory.cpp`) turns the parameters of
a request into its state, with the projections of `core/framework/request/request_params.cpp`. The
tokenizer and the construction of the JSON grammar are functions of the configuration; whether
thinking is on, which follows from the template arguments, is an input.
-/

namespace Xllm.Request

open Xllm.Lib

/-- A `std::vector<int32_t>`, which is never longer than its `max_size`. -/
abbrev TokenVector := { tokens : List Int // tokens.length < 2 ^ 61 }

inductive ResponseFormatType
  | none
  | jsonObject
  deriving DecidableEq, Repr

inductive ChatTemplateGenerationMode
  | chat
  | reasoning
  | unknown
  deriving DecidableEq, Repr

inductive TaskType
  | generate
  | embed
  | mmEmbed
  deriving DecidableEq, Repr

structure RequestParams (F : Type) where
  streaming : Bool := false
  maxTokens : UInt32 := 5120
  n : UInt32 := 1
  bestOf : Option UInt32 := none
  echo : Bool := false
  frequencyPenalty : F
  presencePenalty : F
  repetitionPenalty : F
  temperature : F
  topP : F
  topK : Int64 := -1
  logprobs : Bool := false
  topLogprobs : Int64 := 0
  skipSpecialTokens : Bool := true
  includeStopStrInOutput : Bool := false
  ignoreEos : Bool := false
  isEmbeddings : Bool := false
  stop : Option (List String) := none
  stopTokenIds : Option (List Int) := none
  decodeAddress : String := ""
  offline : Bool := false
  ttltSloMs : Int32 := Int32.maxValue
  ttftSloMs : Int32 := Int32.maxValue
  tpotSloMs : Int32 := Int32.maxValue
  tpotPriorityWeight : Int32 := 1
  ttftPriorityWeight : Int32 := 1
  ttltPriorityWeight : Int32 := 1
  priorityWeight : Int32 := 1
  priority : RequestPriority := .normal
  beamWidth : Int32 := 0
  addSpecialTokens : Bool := false
  thinkingEnabled : Bool := false
  responseFormat : ResponseFormatType := .none
  isSampleRequest : Bool := false
  sampleSlots : List SampleSlot := []

namespace RequestParams

variable {F : Type}

/-- The number of sequences to choose from. -/
def bestOfOrN (sp : RequestParams F) : UInt32 :=
  sp.bestOf.getD sp.n

def toSamplingParam (sp : RequestParams F) (bestOf : Nat) : RequestSamplingParam F :=
  { frequencyPenalty := sp.frequencyPenalty
    presencePenalty := sp.presencePenalty
    repetitionPenalty := sp.repetitionPenalty
    temperature := sp.temperature
    topP := sp.topP
    topK := sp.topK
    logprobs := if sp.n.toNat < bestOf then true else sp.logprobs
    topLogprobs := sp.topLogprobs
    isEmbeddings := sp.isEmbeddings }

def toSchedulerParam (sp : RequestParams F) : SchedulerParam :=
  if sp.offline then { offline := true, priority := sp.priority }
  else
    { offline := false
      priority := sp.priority
      ttftSloMs := sp.ttftSloMs
      tpotSloMs := sp.tpotSloMs
      ttltSloMs := sp.ttltSloMs
      tpotPriorityWeight := sp.tpotPriorityWeight
      ttftPriorityWeight := sp.ttftPriorityWeight
      ttltPriorityWeight := sp.ttltPriorityWeight
      priorityWeight := sp.priorityWeight }

/-- `max_tokens`, 5120 for 0. -/
def maxTokensOrDefault (sp : RequestParams F) : UInt32 :=
  if sp.maxTokens = 0 then 5120 else sp.maxTokens

/-- At least one token for every sample slot. -/
def effectiveMaxTokens (sp : RequestParams F) : UInt32 :=
  let sampleSlotTokens := UInt32.ofNat sp.sampleSlots.length
  if sp.isSampleRequest && sp.maxTokensOrDefault < sampleSlotTokens then sampleSlotTokens
  else sp.maxTokensOrDefault

theorem maxTokensOrDefault_pos (sp : RequestParams F) : 0 < sp.maxTokensOrDefault.toNat := by
  unfold maxTokensOrDefault
  split
  · decide
  · rename_i h
    exact Nat.pos_of_ne_zero fun h0 => h (UInt32.toNat_inj.mp h0)

theorem effectiveMaxTokens_pos (sp : RequestParams F) : 0 < sp.effectiveMaxTokens.toNat := by
  unfold effectiveMaxTokens
  simp only
  split
  · rename_i h
    rw [Bool.and_eq_true, decide_eq_true_eq, UInt32.lt_iff_toNat_lt] at h
    omega
  · exact sp.maxTokensOrDefault_pos

end RequestParams

/-- What the factory knows besides the request: the model, the options and the tokenizer. -/
structure FactoryConfig (G : Type) where
  maxPositionEmbeddings : Int64
  vocabSize : Int64
  eosTokenId : Int
  stopTokenIds : List Int
  numSpeculativeTokens : Fin (2 ^ 31)
  enableScheduleOverlap : Bool
  enableChunkedPrefill : Bool
  maxTokensPerBatch : Int32
  taskType : TaskType
  enableJsonObjectOutput : Bool
  encode : String → Bool → Option TokenVector
  jsonObjectGrammar : Bool → Except String G

/-- A request that is not created is answered with a status, or stops the program. -/
inductive CreateError
  | rejected (status : Status)
  | stopping (check : StoppingCheck)
  | bestOfLessThanN
  deriving DecidableEq, Repr

namespace CreateError

def invalidArgument (message : String) : CreateError :=
  .rejected { code := .invalidArgument, message }

end CreateError

namespace LLMRequestFactory

variable {F G : Type}

def maxContextLen (config : FactoryConfig G) : Int32 :=
  config.maxPositionEmbeddings.toInt32

/-- `util::find_out_of_vocab_token`. -/
def findOutOfVocabToken (tokenIds : List Int) (vocabSize : Int64) : Option Int :=
  tokenIds.find? fun tokenId => tokenId < 0 || vocabSize.toInt ≤ tokenId

def promptTokenLimit (config : FactoryConfig G) : Int32 :=
  if config.enableChunkedPrefill then maxContextLen config
  else min (maxContextLen config) config.maxTokensPerBatch

def encodeAndValidatePrompt (config : FactoryConfig G) (prompt : String)
    (promptTokens : Option TokenVector) (sp : RequestParams F) :
    Except CreateError TokenVector :=
  let given := promptTokens.filter fun tokens => !tokens.val.isEmpty
  if prompt = "" && given.isNone then .error (.invalidArgument "Prompt is empty")
  else
    match given.orElse fun _ => config.encode prompt sp.addSpecialTokens with
    | none => .error (.invalidArgument "Failed to encode prompt")
    | some localPromptTokens =>
      -- Only tokens that came with the request are compared with the vocabulary.
      let invalid :=
        if given.isSome && 0 < config.vocabSize then
          findOutOfVocabToken localPromptTokens.val config.vocabSize
        else none
      match invalid with
      | some token =>
        .error (.invalidArgument ("Prompt token id out of vocabulary range: " ++ toString token))
      | none =>
        if sizeOfInt32 (promptTokenLimit config) ≤ localPromptTokens.val.length then
          .error (.rejected ⟨.invalidArgument, "Prompt is too long", .promptTooLong, none⟩)
        else .ok localPromptTokens

/-- Room for the prompt, the tokens to generate and speculative tokens with a bonus token, the last
twice when steps overlap. -/
def capacity (config : FactoryConfig G) (numPromptTokens : Nat) (sp : RequestParams F) : Nat :=
  let capacity := numPromptTokens + sp.effectiveMaxTokens.toNat + config.numSpeculativeTokens.val + 1
  if config.enableScheduleOverlap then capacity + (config.numSpeculativeTokens.val + 1)
  else capacity

def buildSamplingParam (config : FactoryConfig G) (sp : RequestParams F) (bestOf : Nat) :
    RequestSamplingParam F :=
  let samplingParam :=
    { sp.toSamplingParam bestOf with
      jsonObject :=
        config.enableJsonObjectOutput && sp.responseFormat = ResponseFormatType.jsonObject }
  samplingParam.enableBeamSearch sp.beamWidth

def buildStoppingChecker (config : FactoryConfig G) (sp : RequestParams F) :
    Except CreateError StoppingChecker :=
  let stop := (sp.stop.getD []).mapM fun s => (config.encode s true).map Subtype.val
  match stop with
  | none => .error (.invalidArgument "Failed to encode stop sequence")
  | some stopSequences =>
    .ok
      { maxGeneratedTokens := sp.effectiveMaxTokens.toNat
        maxContextLen :=
          sizeOfInt32 (maxContextLen config - Int32.ofNat config.numSpeculativeTokens.val)
        eosToken := config.eosTokenId
        ignoreEos := sp.ignoreEos
        stopTokens := sp.stopTokenIds.getD config.stopTokenIds
        stopSequences := stopSequences }

def validatePromptNotFinished (config : FactoryConfig G) (stoppingChecker : StoppingChecker)
    (promptTokens : List Int) : Except CreateError Unit :=
  if config.taskType = .embed || config.taskType = .mmEmbed then .ok ()
  else
    match stoppingChecker.check promptTokens promptTokens.length with
    | .error check => .error (.stopping check)
    | .ok (.none, _) => .ok ()
    | .ok _ => .error (.invalidArgument "Invalid Prompt")

/-- Whether a JSON answer starts in a reasoning part. A rendered chat says so itself. -/
def reasoningEnabled (sp : RequestParams F) :
    Option ChatTemplateGenerationMode → Bool
  | some mode => decide (mode = .reasoning)
  | none => sp.thinkingEnabled

/-- The grammar of a JSON request, and its reasoning mode. -/
def applyJsonObjectGrammar (config : FactoryConfig G) (sp : RequestParams F)
    (generationMode : Option ChatTemplateGenerationMode) : Except CreateError (G × Bool) :=
  if generationMode = some .unknown then
    .error (.invalidArgument
      "JSON object constraint requires a recognizable chat generation mode")
  else
    match config.jsonObjectGrammar (reasoningEnabled sp generationMode) with
    | .error grammarError =>
      .error (.invalidArgument ("Failed to initialize json_object constraint: " ++ grammarError))
    | .ok grammar => .ok (grammar, reasoningEnabled sp generationMode)

/-- The grammar fields of a request state. -/
def jsonSettings (config : FactoryConfig G) (sp : RequestParams F)
    (generationMode : Option ChatTemplateGenerationMode) (jsonObject : Bool) :
    Except CreateError (Option G × Bool) :=
  if jsonObject then do
    let (grammar, reasoning) ← applyJsonObjectGrammar config sp generationMode
    .ok (some grammar, reasoning)
  else .ok (none, false)

def create (config : FactoryConfig G) (prompt : String) (promptTokens : Option TokenVector)
    (sp : RequestParams F) (generationMode : Option ChatTemplateGenerationMode) :
    Except CreateError (RequestState F G) := do
  let localPromptTokens ← encodeAndValidatePrompt config prompt promptTokens sp
  let bestOf := sp.bestOfOrN.toNat
  let samplingParam := buildSamplingParam config sp bestOf
  match samplingParam.topLogprobsVocabError config.vocabSize with
  | some error => .error (.invalidArgument error)
  | none =>
    let stoppingChecker ← buildStoppingChecker config sp
    let _ ← validatePromptNotFinished config stoppingChecker localPromptTokens.val
    if h : sp.n.toNat ≤ bestOf then do
      let (grammar, reasoning) ← jsonSettings config sp generationMode samplingParam.jsonObject
      .ok
        { prompt := prompt
          promptTokens := localPromptTokens.val
          samplingParam := samplingParam
          schedulerParam := sp.toSchedulerParam
          stoppingChecker := stoppingChecker
          seqCapacity := capacity config localPromptTokens.val.length sp
          n := sp.n.toNat
          bestOf := bestOf
          logprobs := sp.logprobs
          -- Results cannot be streamed when they are still to be chosen from.
          stream := if bestOf ≠ sp.n.toNat then false else sp.streaming
          echo := sp.echo
          skipSpecialTokens := sp.skipSpecialTokens
          enableScheduleOverlap := config.enableScheduleOverlap
          decodeAddress := sp.decodeAddress
          includeStopStrInOutput := sp.includeStopStrInOutput
          sampleSlots := sp.sampleSlots
          jsonObjectGrammar := grammar
          jsonReasoningEnabled := reasoning
          n_le_bestOf := h }
    else .error .bestOfLessThanN

/-! ## What is created -/

/-- The fields of a created request, by the parameters. -/
structure Created (config : FactoryConfig G) (sp : RequestParams F) (state : RequestState F G) :
    Prop where
  samplingParam : state.samplingParam = buildSamplingParam config sp sp.bestOfOrN.toNat
  schedulerParam : state.schedulerParam = sp.toSchedulerParam
  stoppingChecker : buildStoppingChecker config sp = .ok state.stoppingChecker
  seqCapacity : state.seqCapacity = capacity config state.promptTokens.length sp
  n : state.n = sp.n.toNat
  bestOf : state.bestOf = sp.bestOfOrN.toNat
  logprobs : state.logprobs = sp.logprobs
  enableScheduleOverlap : state.enableScheduleOverlap = config.enableScheduleOverlap
  promptTokens_lt : state.promptTokens.length < 2 ^ 61
  notFinished : config.taskType = .generate →
    ∃ matched, state.stoppingChecker.check state.promptTokens state.promptTokens.length =
      .ok (.none, matched)
  json : ∃ mode, jsonSettings config sp mode state.samplingParam.jsonObject =
    .ok (state.jsonObjectGrammar, state.jsonReasoningEnabled)

variable {config : FactoryConfig G}

theorem of_validatePromptNotFinished {checker : StoppingChecker}
    {promptTokens : List Int} (h : validatePromptNotFinished config checker promptTokens = .ok ())
    (htask : config.taskType = .generate) :
    ∃ matched, checker.check promptTokens promptTokens.length = .ok (.none, matched) := by
  rw [validatePromptNotFinished, if_neg (by simp [htask])] at h
  split at h
  · cases h
  · rename_i matched hcheck
    exact ⟨matched, hcheck⟩
  · cases h

variable {sp : RequestParams F} {mode : Option ChatTemplateGenerationMode}

theorem of_applyJsonObjectGrammar {grammar : G} {reasoning : Bool}
    (h : applyJsonObjectGrammar config sp mode = .ok (grammar, reasoning)) :
    config.jsonObjectGrammar reasoning = .ok grammar := by
  rw [applyJsonObjectGrammar] at h
  split at h
  · cases h
  split at h
  · cases h
  · rename_i hgrammar
    cases h
    exact hgrammar

theorem created {prompt : String} {promptTokens : Option TokenVector} {state : RequestState F G}
    (h : create config prompt promptTokens sp mode = .ok state) : Created config sp state := by
  rw [create, bind_eq_ok] at h
  obtain ⟨localPromptTokens, -, h⟩ := h
  simp only at h
  split at h
  · cases h
  obtain ⟨checker, hchecker, h⟩ := bind_eq_ok.mp h
  rw [bind_eq_ok] at h
  obtain ⟨_, hvalid, h⟩ := h
  split at h
  · rw [bind_eq_ok] at h
    obtain ⟨⟨grammar, reasoning⟩, hjson, h⟩ := h
    cases h
    exact
      { samplingParam := rfl
        schedulerParam := rfl
        stoppingChecker := hchecker
        seqCapacity := rfl
        n := rfl
        bestOf := rfl
        logprobs := rfl
        enableScheduleOverlap := rfl
        promptTokens_lt := localPromptTokens.property
        notFinished := of_validatePromptNotFinished hvalid
        json := ⟨mode, hjson⟩ }
  · cases h

/-! ## A plain instance -/

/-- An instance that serves one model to requests that bring their tokens. -/
def plainConfig : FactoryConfig Unit :=
  { maxPositionEmbeddings := 4096
    vocabSize := 1000
    eosTokenId := 2
    stopTokenIds := [2]
    numSpeculativeTokens := 0
    enableScheduleOverlap := true
    enableChunkedPrefill := true
    maxTokensPerBatch := 512
    taskType := .generate
    enableJsonObjectOutput := true
    encode := fun _ _ => none
    jsonObjectGrammar := fun _ => .ok () }

/-- A request with the default parameters; floats are given by their bits. -/
def plainParams : RequestParams UInt32 :=
  { frequencyPenalty := 0
    presencePenalty := 0
    repetitionPenalty := 0x3F800000
    temperature := 0
    topP := 0x3F800000 }

/-- A prompt of one token. -/
def plainPrompt : TokenVector :=
  ⟨[5], by decide⟩

/-- What the factory makes of that prompt. -/
def plainState (config : FactoryConfig Unit) (sp : RequestParams UInt32)
    (h : sp.n.toNat ≤ sp.bestOfOrN.toNat) : RequestState UInt32 Unit :=
  { prompt := ""
    promptTokens := plainPrompt.val
    samplingParam := buildSamplingParam config sp sp.bestOfOrN.toNat
    schedulerParam := sp.toSchedulerParam
    stoppingChecker :=
      { maxGeneratedTokens := sp.effectiveMaxTokens.toNat
        maxContextLen :=
          sizeOfInt32 (maxContextLen config - Int32.ofNat config.numSpeculativeTokens.val)
        eosToken := config.eosTokenId
        ignoreEos := sp.ignoreEos
        stopTokens := config.stopTokenIds
        stopSequences := [] }
    seqCapacity := capacity config 1 sp
    n := sp.n.toNat
    bestOf := sp.bestOfOrN.toNat
    logprobs := sp.logprobs
    stream := sp.streaming
    echo := sp.echo
    skipSpecialTokens := sp.skipSpecialTokens
    enableScheduleOverlap := config.enableScheduleOverlap
    n_le_bestOf := h }

end LLMRequestFactory

end Xllm.Request
