import Xllm.ApiService.Pieces

/-!
# The Anthropic event stream

`api_service/anthropic_service_impl.cpp` writes a streamed response as content blocks, one after the
other: text, or one call of a tool. Which block is open is kept as an index and the type of the last
block. A write may fail; the stream then ends where it is (`WriteFailed`).
-/

namespace Xllm.ApiService

open Xllm.Lib

inductive ContentBlockType
  | text
  | toolUse
  deriving DecidableEq, Repr

inductive ContentBlock
  | text
  | toolUse (id name : Text)
  deriving DecidableEq, Repr

inductive Delta
  | textDelta (text : Text)
  | inputJsonDelta (partialJson : Text)
  deriving DecidableEq, Repr

structure AnthropicUsage where
  inputTokens : Int := 0
  outputTokens : Int := 0
  cacheReadInputTokens : Option Int := none
  deriving DecidableEq, Repr

/-- The events behind `message_start`. -/
inductive StreamEvent
  | contentBlockStart (index : Int) (block : ContentBlock)
  | contentBlockDelta (index : Int) (delta : Delta)
  | contentBlockStop (index : Int)
  | messageDelta (stopReason : Text) (usage : AnthropicUsage)
  | messageStop
  deriving DecidableEq, Repr

structure FunctionCallInfo where
  id : Text := []
  name : Text := []
  arguments : Text := []
  deriving DecidableEq, Repr

inductive WriteFailed
  | event (event : StreamEvent)
  deriving DecidableEq, Repr

structure BlockWriter where
  events : List StreamEvent := []
  contentBlockIndex : Int := -1
  lastContentBlockType : Option ContentBlockType := none
  deriving DecidableEq, Repr

namespace BlockWriter

def write (env : Surroundings) (w : BlockWriter) (event : StreamEvent) :
    Except WriteFailed BlockWriter :=
  if env.accepts w.events.length then .ok { w with events := w.events ++ [event] }
  else .error (.event event)

/-- The start of a block shows the call it is given, whether or not that has a name. -/
def contentBlock (type : ContentBlockType) (call : FunctionCallInfo) : ContentBlock :=
  match type with
  | .text => .text
  | .toolUse => .toolUse call.id call.name

def startNewContentBlock (env : Surroundings) (w : BlockWriter) (type : ContentBlockType)
    (call : FunctionCallInfo) : Except WriteFailed BlockWriter := do
  let w ←
    if w.lastContentBlockType = none then .ok w
    else w.write env (.contentBlockStop w.contentBlockIndex)
  let w :=
    { w with lastContentBlockType := some type, contentBlockIndex := w.contentBlockIndex + 1 }
  w.write env (.contentBlockStart w.contentBlockIndex (contentBlock type call))

/-- `send_content_block_delta` for `text_delta`. -/
def sendTextDelta (env : Surroundings) (w : BlockWriter) (text : Text) :
    Except WriteFailed BlockWriter := do
  let w ←
    if w.lastContentBlockType = some .text then .ok w
    else w.startNewContentBlock env .text {}
  w.write env (.contentBlockDelta w.contentBlockIndex (.textDelta text))

/-- `send_content_block_delta` for `tool_use_delta`: a name opens a block. -/
def sendToolUseDelta (env : Surroundings) (w : BlockWriter) (call : FunctionCallInfo) :
    Except WriteFailed BlockWriter := do
  let w ←
    if w.lastContentBlockType = some .toolUse ∧ call.name = [] then .ok w
    else w.startNewContentBlock env .toolUse call
  if call.arguments = [] then .ok w
  else w.write env (.contentBlockDelta w.contentBlockIndex (.inputJsonDelta call.arguments))

end BlockWriter

/-! ## Stop reason and usage -/

def convertFinishReasonToAnthropic (finishReason : Text) : Text :=
  if finishReason = "stop".toList then "end_turn".toList
  else if finishReason = "length".toList then "max_tokens".toList
  else if finishReason = "function_call".toList ∨ finishReason = "tool_calls".toList then
    "tool_use".toList
  else "end_turn".toList

def getStreamStopReason (finished hasToolCall : Bool) (finishReason : Text) : Text :=
  if !finished then "stop".toList
  else if hasToolCall then "tool_use".toList
  else convertFinishReasonToAnthropic finishReason

def makeAnthropicUsage (usage : Usage) : AnthropicUsage :=
  let promptTokens := max 0 usage.numPromptTokens
  let cachedTokens := min (max usage.numCachedTokens 0) promptTokens
  { inputTokens := promptTokens - cachedTokens
    outputTokens := max 0 usage.numGeneratedTokens
    cacheReadInputTokens := some cachedTokens }

/-! ## One output after the other -/

structure AnthropicWriter where
  blocks : BlockWriter := {}
  toolCallIds : Nat := 0
  finished : Bool := false
  deriving DecidableEq, Repr

structure OutputEnd where
  finishReason : Text := []
  hasToolCall : Bool := false

namespace AnthropicWriter

def sendText (env : Surroundings) (w : AnthropicWriter) (text : Text) :
    Except WriteFailed AnthropicWriter := do
  let blocks ← w.blocks.sendTextDelta env text
  .ok { w with blocks }

def sendCallItem (env : Surroundings) (w : AnthropicWriter) (item : ToolCallItem) :
    Except WriteFailed AnthropicWriter :=
  match item.name with
  | none => do
    let blocks ← w.blocks.sendToolUseDelta env { arguments := item.parameters }
    .ok { w with blocks }
  | some name => do
    let blocks ← w.blocks.sendToolUseDelta env
      { id := generateToolCallId env w.toolCallIds, name, arguments := item.parameters }
    .ok { w with blocks, toolCallIds := w.toolCallIds + 1 }

/-- All sequences share the blocks, and what remained of the arguments goes to the open one. -/
def sink (env : Surroundings) : PieceSink AnthropicWriter WriteFailed where
  sendReasoning w _ text := w.sendText env text
  sendText w _ text := w.sendText env text
  sendCallItem w _ item := w.sendCallItem env item
  sendRest w _ arguments toolIndex := w.sendCallItem env ⟨toolIndex, none, arguments⟩

def finishMessage (env : Surroundings) (w : AnthropicWriter) (output : RequestOutput)
    (last : OutputEnd) : Except WriteFailed AnthropicWriter := do
  let stopReason := getStreamStopReason output.finished last.hasToolCall last.finishReason
  let blocks ←
    if 0 ≤ w.blocks.contentBlockIndex then
      w.blocks.write env (.contentBlockStop w.blocks.contentBlockIndex)
    else .ok w.blocks
  let blocks ← blocks.write env
    (.messageDelta stopReason ((output.usage.map makeAnthropicUsage).getD {}))
  let blocks ← blocks.write env .messageStop
  .ok { w with blocks, finished := true }

end AnthropicWriter

namespace AnthropicStream

variable {σ ρ : Type}

def sendSequenceOutput (env : Surroundings)
    (turn : ParserStream AnthropicWriter σ ρ × OutputEnd) (seqOutput : SequenceOutput) :
    Except WriteFailed (ParserStream AnthropicWriter σ ρ × OutputEnd) := do
  let (st, called) ← turn.1.sendSequencePieces (AnthropicWriter.sink env) seqOutput
  .ok (st,
    { finishReason := seqOutput.finishReason.getD turn.2.finishReason
      hasToolCall := turn.2.hasToolCall || called })

def sendDeltaToClient (env : Surroundings) (st : ParserStream AnthropicWriter σ ρ)
    (output : RequestOutput) : Except WriteFailed (ParserStream AnthropicWriter σ ρ) := do
  let (st, last) ← output.outputs.foldlM (sendSequenceOutput env) (st.checkResize output, {})
  if output.finished || output.cancelled then do
    let w ← st.writer.finishMessage env output last
    .ok { st with writer := w }
  else .ok st

end AnthropicStream

def anthropicStream {σ ρ : Type} (env : Surroundings) (parser : Option (StreamOutputParser σ ρ))
    (outputs : List RequestOutput) : Except WriteFailed (ParserStream AnthropicWriter σ ρ) :=
  outputs.foldlM (AnthropicStream.sendDeltaToClient env) { writer := {}, parser }

end Xllm.ApiService
