import Xllm.Lib.Rows

/-!
# The cache of target contexts

`EmbeddingCache` (`core/framework/speculative/embedding_cache.cpp`): for every embedding id the state
from which the next decode step of its sequence starts, written after the target's prefill, after a
handoff, and after every validation, and read back by the host path of the draft model.

A hidden state is any type `E`, a triple of rotary coordinates any type `P`, and an undefined tensor is
`none`. Entries are written one after the other; a write that stops at a CHECK has no result.
-/

namespace Xllm.Speculative

open Xllm.Lib

inductive CacheCheck
  | tokenCount
  | requestIdCount
  | embeddingSelection
  | embeddingCount
  | positionSelection
  | embeddingWidth
  | invalidToken
  | tokenOverflow
  | noAcceptedToken
  | embeddingId
  | emptyIds
  | missingToken
  | missingEmbedding
  | missingPreviousEmbedding
  | missingCorrection
  | acceptedLength
  | checkpointCapacity
  deriving DecidableEq, Repr

/-- `std::numeric_limits<int32_t>::max()`. -/
def maxInt32 : Int := 2147483647

structure DecodeState (E P : Type) where
  valid : Bool := false
  requestId : String := ""
  allDraftAccepted : Bool := false
  tokenId : Int := -1
  positionOffset : Int := 0
  embedding : Option E := none
  prevTokenId : Int := -1
  prevEmbedding : Option E := none
  replayTokenIds : List Int := []
  replayEmbeddings : Option (List E) := none
  replayMropePositions : Option P := none
  correctionTokenId : Int := 0
  correctionPositionOffset : Int := 0

structure EmbeddingCache (E P : Type) where
  decodeTails : List (DecodeState E P)
  retainReplaySpan : Bool

/-- The arguments of `write_prefill_target_context`; positions that are not `[3, n]` are `none`. -/
structure PrefillContext (E P : Type) where
  ids : List Int
  requestIds : List String
  nextTokens : List Int
  embeddings : List E
  selectedTokenIdxes : Option (List Nat)
  targetPositions : Option (List P)

/-- The arguments of `write_mtp_bootstrap_context`. -/
structure BootstrapContext (E P : Type) where
  id : Int
  requestId : String
  tokenId : Int
  embedding : E
  targetPosition : Option P

/-- The arguments of `write_target_context`. -/
structure TargetContext (E : Type) where
  ids : List Int
  requestIds : List String
  acceptedTokens : List (List Int)
  acceptedEmbeddings : List (List E)
  numSpeculativeTokens : Nat

/-- Rows picked by an index unless there is one for each id already. -/
def selectRows {α : Type} (check : CacheCheck) (count : Nat) (rows : List α)
    (selectedTokenIdxes : Option (List Nat)) : Except CacheCheck (List α) :=
  if rows.length = count then .ok rows
  else
    match selectedTokenIdxes with
    | none => .error check
    | some idxes =>
      match indexSelect rows idxes with
      | none => .error check
      | some selected => if selected.length = count then .ok selected else .error check

/-- What the loop over the columns of an accepted row knows. -/
structure AcceptedScan where
  acceptedLen : Int := 0
  lastTokenId : Int := -1
  correctionToken : Int := -1
  correctionOffset : Int := -1

/-- The loop, from column `j` on: it stops at the first negative token. -/
def scanAccepted (s : AcceptedScan) (j : Nat) : List Int → Except CacheCheck AcceptedScan
  | [] => .ok s
  | token :: rest =>
    if token < 0 then .ok s
    else if maxInt32 < token then .error .tokenOverflow
    else scanAccepted ⟨s.acceptedLen + 1, token, token, j⟩ (j + 1) rest

namespace EmbeddingCache

variable {E P : Type}

def init (totalNums : Nat) (retainReplaySpan : Bool) : EmbeddingCache E P :=
  ⟨List.replicate totalNums {}, retainReplaySpan⟩

def getTail (c : EmbeddingCache E P) (id : Int) : Except CacheCheck (DecodeState E P) :=
  if id < 0 then .error .embeddingId
  else
    match c.decodeTails[id.toNat]? with
    | none => .error .embeddingId
    | some state => .ok state

/-- An assignment to `mutable_tail(id)`. -/
def setTail (c : EmbeddingCache E P) (id : Int) (state : DecodeState E P) :
    Except CacheCheck (EmbeddingCache E P) :=
  if 0 ≤ id ∧ id.toNat < c.decodeTails.length then
    .ok { c with decodeTails := c.decodeTails.set id.toNat state }
  else .error .embeddingId

def setTails (c : EmbeddingCache E P) (entries : List (Int × DecodeState E P)) :
    Except CacheCheck (EmbeddingCache E P) :=
  entries.foldlM (fun c entry => c.setTail entry.1 entry.2) c

/-- The state of a first token, sampled by the prefill or handed over. -/
def firstState (retainReplaySpan : Bool) (requestId : String) (token : Int) (embedding : E)
    (position : Option P) : DecodeState E P :=
  { valid := true
    requestId := requestId
    allDraftAccepted := false
    tokenId := token
    positionOffset := 0
    embedding := some embedding
    replayTokenIds := if retainReplaySpan then [token] else []
    replayEmbeddings := if retainReplaySpan then some [embedding] else none
    replayMropePositions := if retainReplaySpan then position else none }

def prefillEntry (retainReplaySpan : Bool) (x : PrefillContext E P) (embeddings : List E)
    (positions : Option (List P)) (i : Nat) : Except CacheCheck (Int × DecodeState E P) :=
  let token := x.nextTokens.getD i 0
  if token < 0 then .error .invalidToken
  else if maxInt32 < token then .error .tokenOverflow
  else
    match embeddings[i]? with
    | none => .error .embeddingCount
    | some embedding =>
      .ok (x.ids.getD i 0, firstState retainReplaySpan (x.requestIds.getD i "") token embedding
        (positions.bind (·[i]?)))

def writePrefillTargetContext (c : EmbeddingCache E P) (x : PrefillContext E P) :
    Except CacheCheck (EmbeddingCache E P) :=
  if x.nextTokens.length ≠ x.ids.length then .error .tokenCount
  else if x.requestIds ≠ [] ∧ x.requestIds.length ≠ x.ids.length then .error .requestIdCount
  else do
    let embeddings ← selectRows .embeddingSelection x.ids.length x.embeddings x.selectedTokenIdxes
    let positions ← x.targetPositions.mapM fun positions =>
      selectRows .positionSelection x.ids.length positions x.selectedTokenIdxes
    let entries ←
      (List.range x.ids.length).mapM (prefillEntry c.retainReplaySpan x embeddings positions)
    c.setTails entries

/-- A request that has its context already keeps it. -/
def writeMtpBootstrapContext (c : EmbeddingCache E P) (x : BootstrapContext E P) :
    Except CacheCheck (EmbeddingCache E P) :=
  if x.tokenId < 0 then .error .invalidToken
  else do
    let tail ← c.getTail x.id
    if tail.valid ∧ x.requestId ≠ "" ∧ tail.requestId = x.requestId then pure c
    else
      c.setTail x.id
        (firstState c.retainReplaySpan x.requestId x.tokenId x.embedding x.targetPosition)

/-- The state a row of accepted tokens leaves. -/
def targetState (retainReplaySpan : Bool) (requestId : String) (row : List Int) (embeddings : List E)
    (numSpeculativeTokens : Nat) : Except CacheCheck (DecodeState E P) := do
  let scan ← scanAccepted {} 0 row
  if scan.acceptedLen ≤ 0 then .error .noAcceptedToken
  else
    let acceptedLen := scan.acceptedLen.toNat
    let lastIdx := acceptedLen - 1
    .ok
      { valid := true
        requestId := requestId
        allDraftAccepted := decide (acceptedLen = numSpeculativeTokens + 1)
        tokenId := scan.lastTokenId
        positionOffset := lastIdx
        correctionTokenId := scan.correctionToken
        correctionPositionOffset := scan.correctionOffset
        replayTokenIds := if retainReplaySpan then row.take acceptedLen else []
        replayEmbeddings := if retainReplaySpan then some (embeddings.take acceptedLen) else none
        embedding := embeddings[lastIdx]?
        prevTokenId := if lastIdx > 0 then row.getD (lastIdx - 1) 0 else -1
        prevEmbedding := if lastIdx > 0 then embeddings[lastIdx - 1]? else none }

def targetEntry (retainReplaySpan : Bool) (x : TargetContext E) (i : Nat) :
    Except CacheCheck (Int × DecodeState E P) := do
  let state ← targetState retainReplaySpan (x.requestIds.getD i "") (x.acceptedTokens.getD i [])
    (x.acceptedEmbeddings.getD i []) x.numSpeculativeTokens
  pure (x.ids.getD i 0, state)

/-- The rows of a tensor are equally wide. -/
def sameWidths (x : TargetContext E) : Bool :=
  (List.range x.ids.length).all fun i =>
    (x.acceptedEmbeddings.getD i []).length = (x.acceptedTokens.getD i []).length

def writeTargetContext (c : EmbeddingCache E P) (x : TargetContext E) :
    Except CacheCheck (EmbeddingCache E P) :=
  if x.acceptedTokens.length ≠ x.ids.length then .error .tokenCount
  else if x.requestIds ≠ [] ∧ x.requestIds.length ≠ x.ids.length then .error .requestIdCount
  else if x.acceptedEmbeddings.length ≠ x.ids.length then .error .embeddingCount
  else if ¬ sameWidths x then .error .embeddingWidth
  else do
    let entries ← (List.range x.ids.length).mapM (targetEntry c.retainReplaySpan x)
    c.setTails entries

def clear (c : EmbeddingCache E P) (ids : List Int) : Except CacheCheck (EmbeddingCache E P) :=
  c.setTails (ids.map fun id => (id, {}))

/-- One turn of the loop of `read_decode_states`; `none` when no request ids are given. -/
def readDecodeState (c : EmbeddingCache E P) (id : Int) (requestId : Option String) :
    Except CacheCheck (DecodeState E P) := do
  let cached ← c.getTail id
  let state : DecodeState E P :=
    if cached.valid ∧ requestId.any (cached.requestId ≠ ·) then {} else cached
  if ¬ state.valid then
    .ok { state with tokenId := 0, positionOffset := 0, allDraftAccepted := false }
  else if state.tokenId < 0 then .error .missingToken
  else if state.embedding.isNone then .error .missingEmbedding
  else if 0 ≤ state.prevTokenId ∧ state.prevEmbedding.isNone then .error .missingPreviousEmbedding
  else .ok state

def readRequests (ids : List Int) (requestIds : List String) : List (Int × Option String) :=
  ids.mapIdx fun i id => (id, requestIds[i]?)

def readDecodeStates (c : EmbeddingCache E P) (ids : List Int) (requestIds : List String) :
    Except CacheCheck (List (DecodeState E P)) :=
  if ids = [] then .error .emptyIds
  else if requestIds ≠ [] ∧ requestIds.length ≠ ids.length then .error .requestIdCount
  else (readRequests ids requestIds).mapM fun r => c.readDecodeState r.1 r.2

/-- One turn of the loop of `read_accepted_prefix_lengths`. -/
def readAcceptedPrefixLength (c : EmbeddingCache E P) (maxAcceptedTokens : Int) (id : Int)
    (requestId : Option String) : Except CacheCheck Int := do
  let state ← c.getTail id
  let usable := state.valid ∧ requestId.all (state.requestId = ·)
  if usable ∧ state.correctionTokenId < 0 then .error .missingCorrection
  else
    let acceptedLength := if usable then state.correctionPositionOffset + 1 else 1
    if acceptedLength < 1 then .error .acceptedLength
    else if maxAcceptedTokens < acceptedLength then .error .checkpointCapacity
    else .ok acceptedLength

def readAcceptedPrefixLengths (c : EmbeddingCache E P) (ids : List Int) (requestIds : List String)
    (maxAcceptedTokens : Int) : Except CacheCheck (List Int) :=
  if ids = [] then .error .emptyIds
  else if requestIds ≠ [] ∧ requestIds.length ≠ ids.length then .error .requestIdCount
  else if maxAcceptedTokens ≤ 0 then .error .checkpointCapacity
  else (readRequests ids requestIds).mapM fun r => c.readAcceptedPrefixLength maxAcceptedTokens r.1 r.2

end EmbeddingCache

/-! ## Histories -/

/-- A call that writes. -/
inductive CacheWrite (E P : Type)
  | prefillTarget (x : PrefillContext E P)
  | mtpBootstrap (x : BootstrapContext E P)
  | target (x : TargetContext E)
  | clear (ids : List Int)

def EmbeddingCache.step {E P : Type} (c : EmbeddingCache E P) :
    CacheWrite E P → Except CacheCheck (EmbeddingCache E P)
  | .prefillTarget x => c.writePrefillTargetContext x
  | .mtpBootstrap x => c.writeMtpBootstrapContext x
  | .target x => c.writeTargetContext x
  | .clear ids => c.clear ids

end Xllm.Speculative
