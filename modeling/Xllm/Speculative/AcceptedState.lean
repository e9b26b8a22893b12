import Xllm.Speculative.EmbeddingCache

/-!
# The other readings of accepted tokens

A validated row holds the accepted tokens of a sequence, then -1. Besides the cache, two places read it:
`build_accepted_state` (`core/framework/speculative/mtp_async_state.cpp`) for a whole batch on the
device, and `resolve_token_with_position_offset` (`core/framework/speculative/spec_input_builder.cpp`)
for one row of the flattened batch, named by a placeholder token.
-/

namespace Xllm.Speculative

/-- The CHECKs. -/
inductive AcceptedCheck
  | width
  | basePositions
  | baseKvSeqLens
  | embeddingBatch
  | gather
  | decodeNum
  | lastStepTokens
  | tokenOverflow
  deriving DecidableEq, Repr

/-- A tensor `[batch, width]` of tokens. -/
structure TokenRows where
  width : Nat
  rows : List (List Int)
  rectangular : ∀ row ∈ rows, row.length = width

structure AcceptedTokenMetadata where
  acceptedLengths : List Int
  lastTokens : List Int
  basePositions : List Int
  baseKvSeqLens : List Int

structure AcceptedState (E : Type) where
  acceptedLengths : List Int
  allDraftAccepted : List Bool
  lastTokens : List Int
  previousTokens : List Int
  lastEmbeddings : List E
  previousEmbeddings : List E
  basePositions : List Int
  baseKvSeqLens : List Int

/-- One column of every row. -/
def gatherSequenceRows {α : Type} (values : List (List α)) (indices : List Int) :
    Except AcceptedCheck (List α) :=
  if values.length ≠ indices.length then .error .gather
  else
    (values.zip indices).mapM fun entry =>
      match entry.1[entry.2.toNat]? with
      | none => .error .gather
      | some value => .ok value

/-- `accepted_lengths`: the tokens of each row that are not negative. -/
def acceptedLengths (rows : List (List Int)) : List Int :=
  rows.map fun row => (row.countP fun token => 0 ≤ token : Nat)

/-- `(accepted_lengths - n).clamp_min(0)`. -/
def indicesBefore (acceptedLengths : List Int) (n : Int) : List Int :=
  acceptedLengths.map fun length => max (length - n) 0

def buildAcceptedTokenMetadata (tokens : TokenRows) (basePositions baseKvSeqLens : List Int) :
    Except AcceptedCheck AcceptedTokenMetadata :=
  if tokens.width = 0 then .error .width
  else if basePositions.length < tokens.rows.length then .error .basePositions
  else if baseKvSeqLens.length < tokens.rows.length then .error .baseKvSeqLens
  else do
    let lengths := acceptedLengths tokens.rows
    let lastTokens ← gatherSequenceRows tokens.rows (indicesBefore lengths 1)
    .ok
      { acceptedLengths := lengths
        lastTokens := lastTokens
        basePositions := List.zipWith (· + ·) (basePositions.take tokens.rows.length) lengths
        baseKvSeqLens := List.zipWith (· + ·) (baseKvSeqLens.take tokens.rows.length) lengths }

/-- `torch::where`. -/
def whereRows {α : Type} (conditions : List Bool) (values others : List α) : List α :=
  List.zipWith (fun (condition : Bool) (v : α × α) => if condition then v.1 else v.2) conditions
    (values.zip others)

def buildAcceptedState {E : Type} (tokens : TokenRows) (acceptedEmbeddings : List (List E))
    (embeddingPlaceholder : E) (basePositions baseKvSeqLens : List Int) :
    Except AcceptedCheck (AcceptedState E) := do
  let metadata ← buildAcceptedTokenMetadata tokens basePositions baseKvSeqLens
  if acceptedEmbeddings.length ≠ tokens.rows.length then .error .embeddingBatch
  else
    let lengths := metadata.acceptedLengths
    let previousTokens ← gatherSequenceRows tokens.rows (indicesBefore lengths 2)
    let lastEmbeddings ← gatherSequenceRows acceptedEmbeddings (indicesBefore lengths 1)
    let previousEmbeddings ← gatherSequenceRows acceptedEmbeddings (indicesBefore lengths 2)
    let hasPrevious := lengths.map fun length => decide (1 < length)
    .ok
      { acceptedLengths := lengths
        allDraftAccepted := lengths.map fun (length : Int) => decide (length = tokens.width)
        lastTokens := metadata.lastTokens
        previousTokens := whereRows hasPrevious previousTokens metadata.lastTokens
        lastEmbeddings := lastEmbeddings
        previousEmbeddings := whereRows hasPrevious previousEmbeddings
          (List.replicate tokens.rows.length embeddingPlaceholder)
        basePositions := metadata.basePositions
        baseKvSeqLens := metadata.baseKvSeqLens }

structure TokenWithOffset where
  tokenId : Int := 0
  positionOffset : Int := 0
  deriving DecidableEq, Repr

/-- One turn of the loop over a window of tokens. -/
def resolveCandidate (resolved : TokenWithOffset) (candidate : Int) :
    Except AcceptedCheck TokenWithOffset :=
  if candidate < 0 then .ok resolved
  else if maxInt32 < candidate then .error .tokenOverflow
  else .ok ⟨candidate, resolved.positionOffset + 1⟩

def resolveTokenWithPositionOffset (inputTokenId : Int) (lastStepTokens : List Int)
    (lastStepDecodeNum : Nat) : Except AcceptedCheck TokenWithOffset :=
  if lastStepDecodeNum = 0 then .error .decodeNum
  else if 0 ≤ inputTokenId then .ok ⟨inputTokenId, 0⟩
  else
    let placeholderIdx := (-inputTokenId - 1).toNat
    let baseIdx := placeholderIdx * lastStepDecodeNum
    if lastStepTokens.length < baseIdx + lastStepDecodeNum then .error .lastStepTokens
    else
      ((lastStepTokens.drop baseIdx).take lastStepDecodeNum).foldlM resolveCandidate
        { positionOffset := -1 }

end Xllm.Speculative
