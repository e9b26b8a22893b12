import Xllm.Lib.Outcome
import Xllm.Request.RequestState

/-!
# The tokens of a sequence under overlapped steps

With schedule overlap a step appends a placeholder for its token before the step has run; when it has,
the token takes the placeholder's place, and speculative tokens that were accepted with it are
inserted behind it. This file is that part of `core/framework/request/sequence.cpp`, with the loop of
`Batch::process_sample_output` (`core/framework/batch/batch.cpp`) that commits a row.

The token buffer is allocated once, and reads and writes outside it stop the model
(`SequenceCheck.outOfRange`). The JSON grammar is a type `J` of states with the tokens they accept. Log
probabilities, counts of tokens and latencies, which the calls update beside the tokens, are left out,
as are recommendation and embedding models, cancelled sequences and the prefill of a prompt in chunks.
-/

namespace Xllm.Request

open Xllm.Lib

inductive SequenceCheck
  | promptEmpty
  | capacityTooSmall
  | tokenCapacity
  | finished
  | prefill
  | overlap
  | kvCapacity
  | outOfRange
  | stopping (check : StoppingCheck)
  deriving DecidableEq, Repr

structure SequenceParams (J : Type) where
  seqCapacity : Nat
  enableScheduleOverlap : Bool
  stoppingChecker : StoppingChecker
  acceptToken : J → Int → Option J

/-- How many tokens are in the cache, and how many its blocks have room for. -/
structure KVCacheState where
  kvCacheTokensNum : Nat
  currentMaxTokensCapacity : Nat
  deriving DecidableEq, Repr

structure Sequence (J : Type) where
  tokens : List Int
  numTokens : Nat
  numPromptTokens : Nat
  volatileNumPromptTokens : Nat
  curGeneratedTokenIdx : Nat
  kvState : KVCacheState
  acceptedLength : Nat := 0
  jsonObjectState : Option J
  errorStatus : Option Status := none
  finished : Bool := false
  finishStatusInvalidated : Bool := true
  finishReason : FinishReason := .none
  matchedStopTokenCount : Nat := 0
  deriving DecidableEq

namespace Sequence

variable {J : Type}

def create (p : SequenceParams J) (promptTokenIds : List Int) (kvState : KVCacheState)
    (jsonObjectState : Option J) : Except SequenceCheck (Sequence J) :=
  if promptTokenIds = [] then .error .promptEmpty
  else if p.seqCapacity ≤ promptTokenIds.length then .error .capacityTooSmall
  else
    .ok
      { tokens := promptTokenIds ++ List.replicate (p.seqCapacity - promptTokenIds.length) 0
        numTokens := promptTokenIds.length
        numPromptTokens := promptTokenIds.length
        volatileNumPromptTokens := promptTokenIds.length
        curGeneratedTokenIdx := promptTokenIds.length
        kvState
        jsonObjectState }

def validTokens (s : Sequence J) : List Int :=
  s.tokens.take s.numTokens

def isChunkedPrefillStage (s : Sequence J) : Bool :=
  s.kvState.kvCacheTokensNum < max s.volatileNumPromptTokens s.numPromptTokens &&
    0 < s.kvState.kvCacheTokensNum

/-- The first failure of a request is kept. -/
def fail (s : Sequence J) (status : Status) : Sequence J :=
  { s with
    errorStatus := s.errorStatus.orElse fun _ => some status
    finished := true
    finishStatusInvalidated := false
    finishReason := .none }

def grammarViolation (tokenSource : String) (tokenId : Int) : Status :=
  { code := .unknown
    message := tokenSource ++ " violates json_object grammar, token_id=" ++ toString tokenId }

/-- `try_commit_json_object_token`. A placeholder is no token of the text. -/
def tryCommitJsonObjectToken (p : SequenceParams J) (s : Sequence J) (tokenSource : String)
    (tokenId : Int) : Bool × Sequence J :=
  match s.jsonObjectState with
  | none => (true, s)
  | some state =>
    if tokenId < 0 then (true, s)
    else
      match p.acceptToken state tokenId with
      | some next => (true, { s with jsonObjectState := some next })
      | none => (false, s.fail (grammarViolation tokenSource tokenId))

def readToken (s : Sequence J) (index : Nat) : Except SequenceCheck Int :=
  match s.tokens[index]? with
  | none => .error .outOfRange
  | some token => .ok token

def writeToken (s : Sequence J) (index : Nat) (token : Int) : Except SequenceCheck (Sequence J) :=
  if index < s.tokens.length then .ok { s with tokens := s.tokens.set index token }
  else .error .outOfRange

def appendToken (p : SequenceParams J) (s : Sequence J) (tokenId : Int) :
    Except SequenceCheck (Sequence J) :=
  if s.tokens.length ≤ s.numTokens then .error .tokenCapacity
  else if s.finished || s.errorStatus.isSome then .error .finished
  else if s.kvState.kvCacheTokensNum = 0 || s.isChunkedPrefillStage then .error .prefill
  else
    match tryCommitJsonObjectToken p s "generated token" tokenId with
    | (false, s) => .ok s
    | (true, s) =>
      let curIdx := s.numTokens
      let s :=
        { s with
          numTokens := curIdx + 1
          kvState := { s.kvState with kvCacheTokensNum := curIdx } }
      (s.writeToken curIdx tokenId).map fun s => { s with finishStatusInvalidated := true }

/-- Makes room for one more token at the current index: what stands there, and behind it, moves up by
one. -/
def insertGap (s : Sequence J) : Except SequenceCheck (Sequence J) :=
  if s.kvState.currentMaxTokensCapacity < s.kvState.kvCacheTokensNum + 1 then .error .kvCapacity
  else do
    let cur := s.curGeneratedTokenIdx
    let s :=
      { s with
        kvState := { s.kvState with kvCacheTokensNum := s.kvState.kvCacheTokensNum + 1 }
        numTokens := s.numTokens + 1 }
    let second ← s.readToken (cur + 1)
    let s ← s.writeToken (cur + 2) second
    let first ← s.readToken cur
    s.writeToken (cur + 1) first

def updateLastStepToken (p : SequenceParams J) (s : Sequence J) (tokenId : Int)
    (tokenOffset : Nat) : Except SequenceCheck (Sequence J) :=
  if !p.enableScheduleOverlap then .error .overlap
  else if s.errorStatus.isSome then .ok s
  -- A preempted sequence has no blocks left for more than the token at offset 0.
  else if 0 < tokenOffset && s.kvState.currentMaxTokensCapacity = 0 then .ok s
  else
    match tryCommitJsonObjectToken p s "accepted MTP token" tokenId with
    | (false, s) => .ok s
    | (true, s) => do
      let s ← if 0 < tokenOffset then s.insertGap else .ok s
      let s ← s.writeToken s.curGeneratedTokenIdx tokenId
      .ok
        { s with
          curGeneratedTokenIdx := s.curGeneratedTokenIdx + 1
          acceptedLength := tokenOffset
          finishStatusInvalidated := true }

/-- `finished()`, which computes and keeps the answer when it was invalidated. -/
def isFinished (p : SequenceParams J) (s : Sequence J) :
    Except SequenceCheck (Bool × Sequence J) :=
  if s.errorStatus.isSome then .ok (true, s)
  else if !s.finishStatusInvalidated then .ok (s.finished, s)
  else
    match p.stoppingChecker.check s.validTokens s.numPromptTokens with
    | .error check => .error (.stopping check)
    | .ok (reason, matched) =>
      let s := { s with finishStatusInvalidated := false, matchedStopTokenCount := matched }
      if reason = .none then .ok (false, s)
      else .ok (true, { s with finishReason := reason, finished := true })

end Sequence

namespace Batch

variable {J : Type}

/-- A step is scheduled: its placeholder is appended, unless the sequence is finished. -/
def appendFakeToken (p : SequenceParams J) (s : Sequence J) (token : Int) :
    Except SequenceCheck (Sequence J) := do
  let (finished, s) ← s.isFinished p
  if finished then .ok s else s.appendToken p token

/-- One turn of the loop over a row: a token is committed, and the sequence looked at. -/
def commitToken (p : SequenceParams J) (s : Sequence J) (token : Int) (tokenIdx : Nat) :
    Except SequenceCheck (Bool × Sequence J) := do
  let s ← s.updateLastStepToken p token tokenIdx
  s.isFinished p

/-- The loop over a row, from `token_idx` on. It ends at a negative token and when the sequence is
finished. -/
def commitTokens (p : SequenceParams J) (s : Sequence J) (tokenIdx : Nat) :
    List Int → Except SequenceCheck (Sequence J)
  | [] => .ok s
  | token :: row =>
    if token < 0 then .ok s
    else do
      let (finished, s) ← commitToken p s token tokenIdx
      if finished then .ok s else commitTokens p s (tokenIdx + 1) row

/-- A step's row replaces its placeholder. -/
def commitRow (p : SequenceParams J) (s : Sequence J) (row : List Int) :
    Except SequenceCheck (Sequence J) :=
  if s.errorStatus.isSome then .ok s
  else do
    let (finished, s) ← s.isFinished p
    if finished then .ok s else commitTokens p s 0 row

end Batch

end Xllm.Request
