import Xllm.Lib.Outcome
import Xllm.Request.RequestState

/-!
# Requests as their responses see them

The scheduler appends tokens to the sequences of a request (`core/framework/request/sequence.cpp`),
and the threads of the response processor draw outputs from the live sequences:
`generate_streaming_output` gives the tokens since the last delta, whatever the notification that
asked for them saw. `Request::claim_terminal_outcome` lets one terminal response through
(`core/framework/request/request.cpp`).

A `Detokenizer` is the tokenizer with the incremental decoder of a sequence; only texts depend on
it. What `SequencesGroup::generate_outputs` makes of a request that does not stream is its
`wholeOutputs`. Requests with sample slots or beams, log probabilities, embeddings and the fields of
an output that only these have are left out, as are statistics and latencies.
-/

namespace Xllm.Scheduler.Response

open Xllm.Lib
open Xllm.Request (Status StatusCode)

/-- Checks that abort the process. -/
inductive ResponseCheck where
  | finishedSequence
  | noPlaceholder
  | notStreaming
  | promptLonger
  | withheldTooMany
  | outOfRange
  | queueEmpty
  | counterWaits
  deriving DecidableEq, Repr

/-- `SequenceOutput`. -/
structure SequenceOutput where
  index : Nat
  text : String := ""
  tokenIds : List Int := []
  finishReason : Option String := none
  deriving DecidableEq, Repr

/-- `Usage`. -/
structure Usage where
  numPromptTokens : Nat
  numGeneratedTokens : Nat
  numTotalTokens : Nat
  numCachedTokens : Nat
  deriving DecidableEq, Repr

/-- `RequestOutput`. A delta has no status. -/
structure RequestOutput where
  requestId : Nat
  serviceRequestId : String := ""
  targetXserviceAddr : String := ""
  status : Option Status := none
  outputs : List SequenceOutput := []
  usage : Option Usage := none
  finished : Bool := false
  finishedOnPrefillInstance : Bool := false
  cancelled : Bool := false
  deriving DecidableEq, Repr

/-- `RequestTerminalOutcome`. -/
inductive TerminalOutcome where
  | none
  | success
  | cancelled
  | failure
  deriving DecidableEq, Repr

/-- A sequence, with the tokens that `tokens()` returns. A placeholder of schedule overlap is
negative. -/
structure Sequence (D : Type) where
  index : Nat
  tokens : List Int
  numPromptTokens : Nat
  echo : Bool
  isOnerecModel : Bool
  includeStopStrInOutput : Bool
  maxStopSequenceTokenCount : Nat
  matchedStopTokenCount : Nat
  decoder : D
  streamOutputTokenOffset : Nat
  finished : Bool
  finishReason : Option String
  closed : Bool

/-- A request. `terminalRequested` is history: the scheduler has notified a terminal response. -/
structure Request (D : Type) where
  stream : Bool
  serviceRequestId : String
  sourceXserviceAddr : String
  numPromptTokens : Nat
  numPrefixCacheTokens : Nat
  sequences : List (Sequence D)
  bestOf : Nat
  cancelled : Bool
  errorStatus : Option Status
  terminalOutcome : TerminalOutcome
  responseThreadId : Option Nat
  terminalRequested : Bool

/-- The tokenizer, as the outputs use it. -/
structure Detokenizer (D : Type) where
  outputOffset : D → Nat
  decode : D → List Int → String × D
  wholeOutputs : Request D → List SequenceOutput

namespace Sequence

variable {D : Type}

/-- `Slice(tokens_, num_valid_tokens())`: the placeholders at the end are not valid. -/
def validTokens (seq : Sequence D) : List Int :=
  seq.tokens.take seq.numPromptTokens ++
    (seq.tokens.drop seq.numPromptTokens).rdropWhile fun token => decide (token < 0)

/-- `num_valid_tokens`. -/
def numValidTokens (seq : Sequence D) : Nat := seq.validTokens.length

/-- Where the stream of a sequence begins. -/
def streamStart (seq : Sequence D) : Nat := if seq.echo then 0 else seq.numPromptTokens

/-- `has_new_tokens_generated`. -/
def hasNewTokensGenerated (seq : Sequence D) : Bool :=
  seq.streamOutputTokenOffset < seq.tokens.length

/-- `get_decodable_token_count`: a potential stop suffix is held back from the text. -/
def getDecodableTokenCount (seq : Sequence D) (size : Nat) : Except ResponseCheck Nat :=
  if size < seq.numPromptTokens then .error .promptLonger
  else if seq.includeStopStrInOutput then .ok size
  else
    let numGeneratedTokens := size - seq.numPromptTokens
    let withheld :=
      if !seq.finished && 0 < seq.maxStopSequenceTokenCount then
        min (seq.maxStopSequenceTokenCount - 1) numGeneratedTokens
      else seq.matchedStopTokenCount
    if numGeneratedTokens < withheld then .error .withheldTooMany else .ok (size - withheld)

/-- `generate_streaming_output`. The size it is called with is overwritten by the number of valid
tokens. -/
def generateStreamingOutput (tokenizer : Detokenizer D) (seq : Sequence D) :
    Except ResponseCheck (Option SequenceOutput × Sequence D) :=
  let size := seq.numValidTokens
  let ids := seq.validTokens
  if seq.isOnerecModel then
    .ok (some { index := seq.index, tokenIds := ids.drop seq.numPromptTokens }, seq)
  else do
    let count ← seq.getDecodableTokenCount size
    let decodable := max count (tokenizer.outputOffset seq.decoder)
    let tokenStart := seq.streamOutputTokenOffset
    let decoded := tokenizer.decode seq.decoder (ids.take decodable)
    let seq := { seq with decoder := decoded.2 }
    if decoded.1 = "" ∧ tokenStart = size then .ok (none, seq)
    else
      .ok (some { index := seq.index, text := decoded.1, tokenIds := ids.drop tokenStart },
        { seq with streamOutputTokenOffset := size })

/-- `append_token`, and what `finished()` then makes of it. -/
def appendToken (seq : Sequence D) (token : Int) (finish : Option (String × Nat)) :
    Except ResponseCheck (Sequence D) :=
  if seq.finished then .error .finishedSequence
  else
    let seq := { seq with tokens := seq.tokens ++ [token] }
    match finish with
    | none => .ok seq
    | some (reason, matched) =>
      .ok { seq with finished := true, finishReason := some reason, matchedStopTokenCount := matched }

/-- `update_last_step_token` for the tokens of a step: they take the place of its placeholder. A
finished sequence takes no more. -/
def updateLastStepTokens (seq : Sequence D) (tokens : List Int) (finish : Option (String × Nat)) :
    Except ResponseCheck (Sequence D) :=
  if seq.finished then .ok seq
  else if seq.tokens.length ≤ seq.numValidTokens then .error .noPlaceholder
  else
    let seq := { seq with
      tokens := seq.validTokens ++ tokens ++ seq.tokens.drop (seq.numValidTokens + 1) }
    match finish with
    | none => .ok seq
    | some (reason, matched) =>
      .ok { seq with finished := true, finishReason := some reason, matchedStopTokenCount := matched }

/-- `Sequence::generate_output()` of a streaming request: the finish reason only. -/
def generateOutput (seq : Sequence D) : SequenceOutput :=
  { index := seq.index, finishReason := seq.finishReason }

end Sequence

namespace Request

variable {D : Type}

/-- `Request::finished`. -/
def finished (req : Request D) : Bool :=
  req.errorStatus.isSome ||
    (req.bestOf ≤ req.sequences.length && req.sequences.all Sequence.finished)

/-- `Sequence::finished` of a sequence, which shares the failure state of its request. -/
def sequenceFinished (req : Request D) (seq : Sequence D) : Bool :=
  req.errorStatus.isSome || seq.finished

/-- `has_terminal_outcome`. -/
def hasTerminalOutcome (req : Request D) : Bool := req.terminalOutcome ≠ .none

/-- The outcome that a terminal response claims. -/
def outcomeFor (req : Request D) (status : Option Status) : TerminalOutcome :=
  match status with
  | some ⟨code, _, _, _⟩ =>
    if code ≠ .ok then (if code = .cancelled then .cancelled else .failure)
    else if req.cancelled then .cancelled
    else if req.finished then .success
    else .none
  | none =>
    if req.cancelled then .cancelled
    else if req.finished then .success
    else .none

/-- `claim_terminal_outcome`: whether this response has claimed the outcome. -/
def claimTerminalOutcome (req : Request D) (status : Option Status) : Bool × Request D :=
  let outcome := req.outcomeFor status
  if outcome = .none then (false, req)
  else if req.terminalOutcome = .none then (true, { req with terminalOutcome := outcome })
  else (false, req)

/-- `Request::generate_output`. -/
def generateOutput (tokenizer : Detokenizer D) (requestId : Nat) (req : Request D) :
    RequestOutput :=
  let generated := (req.sequences.map fun seq => seq.numValidTokens - seq.numPromptTokens).sum
  let output : RequestOutput :=
    { requestId
      serviceRequestId := req.serviceRequestId
      targetXserviceAddr := req.sourceXserviceAddr
      usage := some
        { numPromptTokens := req.numPromptTokens
          numGeneratedTokens := generated
          numTotalTokens := req.numPromptTokens + generated
          numCachedTokens := req.numPrefixCacheTokens }
      finished := req.finished
      cancelled := req.cancelled }
  match req.errorStatus with
  | some status => { output with status := some status }
  | none =>
    if req.cancelled then { output with status := some { code := .cancelled } }
    else
      { output with
        status := some { code := .ok }
        outputs :=
          if req.stream then req.sequences.map Sequence.generateOutput
          else tokenizer.wholeOutputs req }

/-- The deltas of the sequences that a notification named, drawn one after the other. -/
def drawStream (tokenizer : Detokenizer D) (req : Request D) :
    List Nat → Except ResponseCheck (List SequenceOutput × Request D)
  | [] => .ok ([], req)
  | index :: indexes =>
    match req.sequences[index]? with
    | none => .error .outOfRange
    | some seq => do
      let drawn ← seq.generateStreamingOutput tokenizer
      let rest ← drawStream tokenizer
        { req with sequences := req.sequences.set index drawn.2 } indexes
      return (drawn.1.toList ++ rest.1, rest.2)

/-- The sequences that a stream notification asks for: those with new tokens, and those that
finished since the last one. -/
def streamIndexes (req : Request D) : List Nat :=
  (req.sequences.zipIdx.filter fun (seq, _) =>
    !seq.closed && (seq.hasNewTokensGenerated || req.sequenceFinished seq)).map Prod.snd

/-- A stream notification closes the sequences that are finished. -/
def closeFinished (req : Request D) : Request D :=
  { req with
    sequences := req.sequences.map fun seq =>
      if !seq.closed && req.sequenceFinished seq then { seq with closed := true } else seq }

end Request

end Xllm.Scheduler.Response
