import Xllm.Lib.MaskedRows
import Xllm.Lib.Tally

/-!
# Scheduling multimodal items and gathering their embeddings

`core/framework/multimodal/mm_visitor.cpp`. A multimodal item takes a span of tokens of its prompt,
and has an embedding row for every token of the span that its mask marks. When a chunk of the prompt
is scheduled, `UpdateMMItemScheduleStateVisitor` picks the items that the chunk meets and says which
part of their spans it is; `EncoderEmbeddingGatherVisitor` then makes, for the flattened tokens of the
batch, a mask for each kind of item and the rows that go with it.

The rows of an embedding are of any type, a tensor is the list of its rows, and a mask is a list of
bits. A CHECK that fails, or an operation that throws, is an error. `kv_seq_lens` and `q_seq_lens` are
cumulative on some backends and not on others (`cumulative`).
-/

namespace Xllm.Framework

open Xllm.Lib

universe u

variable {α : Type u}

inductive MMType
  | image
  | video
  | audio
  deriving DecidableEq, Repr

def getEmbeddingKey : MMType → String
  | .image => "image|embedding"
  | .video => "video|embedding"
  | .audio => "audio|embedding"

def maskKey : MMType → String
  | .image => "image|mask"
  | .video => "video|mask"
  | .audio => "audio|mask"

structure TokenPos where
  offset : Int := 0
  length : Int := 0
  deriving DecidableEq, Repr

structure ScheduleData where
  startPos : Int := 0
  endPos : Int := 0
  deriving DecidableEq, Repr

structure MMItemState where
  tokenPos : TokenPos := {}
  mmTokenMask : Option (List Bool) := none
  mmTokenNum : Int := 0
  scheduleData : ScheduleData := {}
  seqIndex : Int := -1
  deriving DecidableEq, Repr

/-- `embedding` is the tensor under the embedding key of the item's type. -/
structure MMDataItem (α : Type u) where
  type : MMType
  state : MMItemState := {}
  embedding : Option (List α) := none

inductive MMValue (α : Type u)
  | rows (tensor : List α)
  | mask (tensor : List Bool)
  deriving DecidableEq

/-- `MMDict`. -/
abbrev MMDict (α : Type u) := Table String (MMValue α)

/-! ## Scheduling a chunk -/

/-- `UpdateMMItemScheduleStateVisitor::visit`: the item as it is scheduled, if it is. -/
def updateMMItemScheduleState (computedTokenNum qSeqLen seqIdx : Int) (item : MMDataItem α) :
    Option (MMDataItem α) :=
  let tokenPos := item.state.tokenPos
  let mmEndIdx := tokenPos.offset + tokenPos.length - 1
  if mmEndIdx < computedTokenNum then none
  else if computedTokenNum + qSeqLen ≤ tokenPos.offset then none
  else
    let scheduleData : ScheduleData :=
      { startPos := max (computedTokenNum - tokenPos.offset) 0
        endPos := min (computedTokenNum - tokenPos.offset + qSeqLen) tokenPos.length }
    some { item with state := { item.state with scheduleData, seqIndex := seqIdx } }

/-- What a batch takes of a sequence: `qSeqLen` tokens after the `nKvCacheTokens` that are computed. -/
structure ScheduledSequence (α : Type u) where
  mmItems : List (MMDataItem α)
  numPromptTokens : Nat
  nKvCacheTokens : Nat
  qSeqLen : Nat

/-- The sequence is past its prompt. -/
def ScheduledSequence.isDecode (sequence : ScheduledSequence α) : Prop :=
  sequence.numPromptTokens ≤ sequence.nKvCacheTokens

instance (sequence : ScheduledSequence α) : Decidable sequence.isDecode :=
  inferInstanceAs (Decidable (_ ≤ _))

/-- `process_multi_modal_inputs`. -/
def processMultiModalInputs (sequence : ScheduledSequence α) (seqIndex : Nat) :
    List (MMDataItem α) :=
  if sequence.isDecode then []
  else sequence.mmItems.filterMap
    (updateMMItemScheduleState sequence.nKvCacheTokens sequence.qSeqLen seqIndex)

/-! ## Gathering -/

/-- The rows of the embedding for a part of the span. -/
def computeEmbRange (startPos endPos : Int) (mask : Option (List Bool)) : Int × Int :=
  match mask with
  | none => (startPos, endPos)
  | some [] => (startPos, endPos)
  | some bits => ((slice bits 0 startPos).count true, (slice bits 0 endPos).count true)

def normalizeToPerSeqLens (cumulative : Bool) (seqLens : List Int) : List Int :=
  if cumulative then List.zipWith (fun next last => next - last) seqLens.tail seqLens else seqLens

/-- The state of the visitor; `masks` are `image_mask_`, `video_mask_` and `audio_mask_`. -/
structure EncoderEmbeddingGather (α : Type u) where
  perSeqContextLens : List Int
  perSeqScheduledLens : List Int
  perSeqScheduledOffsets : List Int
  totalScheduledTokens : Int
  masks : MMType → Option (List Bool) := fun _ => none
  datas : Table String (List (List α)) := ∅

namespace EncoderEmbeddingGather

def make (cumulative : Bool) (seqLens scheduledSeqLens : List Int) :
    Except String (EncoderEmbeddingGather α) :=
  let contextLens := normalizeToPerSeqLens cumulative seqLens
  let scheduledLens := normalizeToPerSeqLens cumulative scheduledSeqLens
  if contextLens.length ≠ scheduledLens.length then
    .error "sequence length counts do not match"
  else if (contextLens.zip scheduledLens).any fun lens => lens.1 < lens.2 then
    .error "kv length below q length"
  else .ok
    { perSeqContextLens := contextLens
      perSeqScheduledLens := scheduledLens
      perSeqScheduledOffsets := (scheduledLens.scanl (· + ·) 0).dropLast
      totalScheduledTokens := scheduledLens.sum }

/-- `update_mask`; a slice of no tensor throws. -/
def updateMask (v : EncoderEmbeddingGather α) (item : MMDataItem α) (reqStartPos reqEndPos : Int) :
    Except String (List Bool) :=
  let mask := (v.masks item.type).getD (List.replicate v.totalScheduledTokens.toNat false)
  match item.state.mmTokenMask with
  | none => .error "slice of an undefined tensor"
  | some bits =>
    match sliceAssign mask reqStartPos reqEndPos
        (slice bits item.state.scheduleData.startPos item.state.scheduleData.endPos) with
    | none => .error "sizes of the slices do not match"
    | some mask => .ok mask

/-- `visit` is false when it only logs an error. -/
def visit (v : EncoderEmbeddingGather α) (item : MMDataItem α) :
    Except String (Bool × EncoderEmbeddingGather α) :=
  let state := item.state
  if state.seqIndex < 0 then .error "CHECK_GE(seq_index, 0)"
  else
    match v.perSeqScheduledLens[state.seqIndex.toNat]?,
        v.perSeqContextLens[state.seqIndex.toNat]?,
        v.perSeqScheduledOffsets[state.seqIndex.toNat]? with
    | some scheduleTokensNum, some contextTokensNum, some reqStartIdx =>
      let startPos := state.scheduleData.startPos
      let endPos := state.scheduleData.endPos
      let (embStart, embEnd) := computeEmbRange startPos endPos state.mmTokenMask
      let computedTokensNum := contextTokensNum - scheduleTokensNum
      let reqStartPos := reqStartIdx + state.tokenPos.offset - computedTokensNum + startPos
      let reqEndPos := reqStartIdx + state.tokenPos.offset - computedTokensNum + endPos
      if reqStartPos < reqStartIdx then
        .error "scatter range starts before its sequence window"
      else if reqStartIdx + scheduleTokensNum < reqEndPos then
        .error "scatter range ends past its sequence window"
      else
        match item.embedding with
        | none => .ok (false, v)
        | some embedding =>
          if (embedding.length : Int) ≠ state.mmTokenNum then .ok (false, v)
          else
            match v.updateMask item reqStartPos reqEndPos with
            | .error e => .error e
            | .ok mask =>
              let key := getEmbeddingKey item.type
              let tensors := (v.datas.lookup key).getD [] ++ [slice embedding embStart embEnd]
              .ok (true, { v with
                masks := Function.update v.masks item.type (some mask)
                datas := v.datas.insert key tensors })
    | _, _, _ => .error "item sequence index outside scheduled batch"

/-- `foreach` of the batch: it stops at the first item that `visit` is false for. -/
def visitAll (v : EncoderEmbeddingGather α) :
    List (MMDataItem α) → Except String (Bool × EncoderEmbeddingGather α)
  | [] => .ok (true, v)
  | item :: items =>
    match v.visit item with
    | .error e => .error e
    | .ok (false, v) => .ok (false, v)
    | .ok (true, v) => v.visitAll items

/-- `safe_concat` of tensors that differ in their numbers of rows only. -/
def safeConcat : List (List α) → Option (List α)
  | [] => none
  | tensors => some tensors.flatten

/-- The mask of a kind, if there is one, is put into the data. -/
def insertMask (masks : MMType → Option (List Bool)) (data : MMDict α) (type : MMType) : MMDict α :=
  match masks type with
  | some mask => data.insert (maskKey type) (.mask mask)
  | none => data

def finish (v : EncoderEmbeddingGather α) : Option (MMDict α) :=
  (v.datas.entries.foldlM (fun data e =>
    (safeConcat e.2).map fun tensor => data.insert e.1 (.rows tensor)) (∅ : MMDict α)).map
      ([MMType.image, .video, .audio].foldl (insertMask v.masks))

end EncoderEmbeddingGather

def batchSeqLens (cumulative : Bool) (lens : List Nat) : List Int :=
  if cumulative then (lens.map Int.ofNat).scanl (· + ·) 0 else lens.map Int.ofNat

/-- A step: the items of each sequence are scheduled, and their embeddings gathered, as
`EncoderExecutor::prepare` does it. -/
def prepareEmbeddings (cumulative : Bool) (batch : List (ScheduledSequence α)) :
    Except String (MMDict α) :=
  let items := (batch.zipIdx.map fun entry => processMultiModalInputs entry.1 entry.2).flatten
  match EncoderEmbeddingGather.make cumulative
      (batchSeqLens cumulative (batch.map fun s => s.nKvCacheTokens + s.qSeqLen))
      (batchSeqLens cumulative (batch.map (·.qSeqLen))) with
  | .error e => .error e
  | .ok gather =>
    match gather.visitAll items with
    | .error e => .error e
    | .ok (false, _) => .error "CHECK(data.foreach(gather))"
    | .ok (true, gather) =>
      match gather.finish with
      | none => .error "CHECK(gather.finish(data))"
      | some data => .ok data

end Xllm.Framework
