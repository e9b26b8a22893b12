import Xllm.ApiService.Pieces

/-!
# Chat responses

`api_service/chat_service_impl.cpp` answers a chat request with chunks while it runs, or with one message
for every sequence at its end. A chunk belongs to the choice of a sequence; the first chunk of a choice
gives its role, the last its finish reason. A failed write ends the stream, except for reasoning, where
it is not looked at.
-/

namespace Xllm.ApiService

open Xllm.Lib

inductive ChatChunk
  | role (index : Nat)
  | reasoning (index : Nat) (text : Text)
  | content (index : Nat) (text : Text)
  | toolCall (index : Nat) (id name arguments : Text) (toolIndex : Int)
  | finish (index : Nat) (finishReason : Text)
  | usage (usage : Usage)
  deriving DecidableEq, Repr

inductive ChatWriteFailed
  | chunk (chunk : ChatChunk)
  deriving DecidableEq, Repr

structure ChatWriter where
  chunks : List ChatChunk := []
  firstMessageSent : List Nat := []
  toolCallIds : Nat := 0
  finished : Bool := false
  deriving DecidableEq, Repr

namespace ChatWriter

def write (env : Surroundings) (w : ChatWriter) (chunk : ChatChunk) :
    Except ChatWriteFailed ChatWriter :=
  if env.accepts w.chunks.length then .ok { w with chunks := w.chunks ++ [chunk] }
  else .error (.chunk chunk)

def sendFirstMessage (env : Surroundings) (w : ChatWriter) (index : Nat) :
    Except ChatWriteFailed ChatWriter :=
  if index ∈ w.firstMessageSent then .ok w
  else { w with firstMessageSent := w.firstMessageSent ++ [index] }.write env (.role index)

/-- `send_reasoning_text_chunk`, whose result is not looked at. -/
def sendReasoningTextChunk (env : Surroundings) (w : ChatWriter) (index : Nat) (text : Text) :
    ChatWriter :=
  match w.write env (.reasoning index text) with
  | .ok w => w
  | .error _ => w

def sendCallItem (env : Surroundings) (w : ChatWriter) (index : Nat) (item : ToolCallItem) :
    Except ChatWriteFailed ChatWriter :=
  match item.name with
  | none => w.write env (.toolCall index [] [] item.parameters item.toolIndex)
  | some name =>
    { w with toolCallIds := w.toolCallIds + 1 }.write env
      (.toolCall index (generateToolCallId env w.toolCallIds) name item.parameters item.toolIndex)

def sink (env : Surroundings) : PieceSink ChatWriter ChatWriteFailed where
  sendReasoning w index text := .ok (w.sendReasoningTextChunk env index text)
  sendText w index text := w.write env (.content index text)
  sendCallItem w index item := w.sendCallItem env index item
  sendRest w index arguments toolIndex := w.write env (.toolCall index [] [] arguments toolIndex)

/-- Calls change the reason of a stop. -/
def streamFinishReason (called : Bool) (finishReason : Text) : Text :=
  if called ∧ finishReason = "stop".toList then "tool_calls".toList else finishReason

def sendFinish (env : Surroundings) (w : ChatWriter) (seqOutput : SequenceOutput) (called : Bool) :
    Except ChatWriteFailed ChatWriter :=
  match seqOutput.finishReason with
  | none => .ok w
  | some finishReason =>
    w.write env (.finish seqOutput.index (streamFinishReason called finishReason))

def sendUsage (env : Surroundings) (w : ChatWriter) (includeUsage : Bool)
    (output : RequestOutput) : Except ChatWriteFailed ChatWriter :=
  match output.usage with
  | none => .ok w
  | some usage => if includeUsage then w.write env (.usage usage) else .ok w

end ChatWriter

namespace ChatStream

variable {σ ρ : Type}

def sendSequenceOutput (env : Surroundings) (st : ParserStream ChatWriter σ ρ)
    (seqOutput : SequenceOutput) : Except ChatWriteFailed (ParserStream ChatWriter σ ρ) := do
  let w ← st.writer.sendFirstMessage env seqOutput.index
  let (st, called) ←
    ({ st with writer := w } : ParserStream ChatWriter σ ρ).sendSequencePieces
      (ChatWriter.sink env) seqOutput
  let w ← st.writer.sendFinish env seqOutput called
  .ok { st with writer := w }

def sendDeltaToClientBrpc (env : Surroundings) (includeUsage : Bool)
    (st : ParserStream ChatWriter σ ρ) (output : RequestOutput) :
    Except ChatWriteFailed (ParserStream ChatWriter σ ρ) := do
  let st ← output.outputs.foldlM (sendSequenceOutput env) (st.checkResize output)
  let w ← st.writer.sendUsage env includeUsage output
  if output.finished || output.cancelled then .ok { st with writer := { w with finished := true } }
  else .ok { st with writer := w }

end ChatStream

def chatStream {σ ρ : Type} (env : Surroundings) (includeUsage : Bool)
    (parser : Option (StreamOutputParser σ ρ)) (outputs : List RequestOutput) :
    Except ChatWriteFailed (ParserStream ChatWriter σ ρ) :=
  outputs.foldlM (ChatStream.sendDeltaToClientBrpc env includeUsage) { writer := {}, parser }

/-! ## One message for the whole text -/

structure ChatToolCall where
  id : Text
  name : Text
  arguments : Text
  deriving DecidableEq, Repr

structure ChatChoice where
  index : Nat
  content : Text := []
  reasoningContent : Text := []
  toolCalls : List ChatToolCall := []
  finishReason : Text := []
  deriving DecidableEq, Repr

structure ToolCallResult where
  toolCalls : List ChatToolCall := []
  text : Text
  finishReason : Text
  deriving DecidableEq, Repr

/-- `process_tool_calls`, with the number of ids that were made before. -/
def processToolCalls {σ : Type} (env : Surroundings) (ids : Nat) (parser : FunctionCallParser σ)
    (text finishReason : Text) : ToolCallResult :=
  if !parser.hasToolCall text && !parser.parsesResponseEnvelope then { text, finishReason }
  else
    match parser.parseNonStream text with
    | none => { text, finishReason }
    | some result =>
      if result.calls.isEmpty then { text := result.normalText, finishReason }
      else
        { toolCalls := result.calls.zipIdx.map fun call =>
            { id := generateToolCallId env (ids + call.2)
              name := call.1.name.getD []
              arguments := call.1.parameters }
          text := result.normalText
          finishReason :=
            if finishReason = "stop".toList then "tool_calls".toList else finishReason }

/-- The reasoning of a whole text, and the text that is left. -/
def parseReasoning {ρ : Type} (reasoning : Option (ReasoningParser ρ)) (text : Text) :
    Text × Text :=
  match reasoning with
  | none => ([], text)
  | some parser =>
    let result := parser.parseNonStream text
    (result.reasoningText.getD [], result.normalText.getD [])

/-- The choice `send_result_to_client_brpc` adds for one output. -/
def resultChoice {σ ρ : Type} (env : Surroundings) (toolCalls : Option (FunctionCallParser σ))
    (reasoning : Option (ReasoningParser ρ)) (ids : Nat) (output : SequenceOutput) : ChatChoice :=
  let reasoningContent := (parseReasoning reasoning output.text).1
  let curText := (parseReasoning reasoning output.text).2
  let finishReason := output.finishReason.getD []
  match toolCalls with
  | none => { index := output.index, content := curText, reasoningContent, finishReason }
  | some parser =>
    if curText = [] then
      { index := output.index, content := curText, reasoningContent, finishReason }
    else
      let result := processToolCalls env ids parser curText finishReason
      { index := output.index
        content := result.text
        reasoningContent
        toolCalls := result.toolCalls
        finishReason := result.finishReason }

/-- The choices of `send_result_to_client_brpc`. -/
def sendResultToClientBrpc {σ ρ : Type} (env : Surroundings)
    (toolCalls : Option (FunctionCallParser σ)) (reasoning : Option (ReasoningParser ρ)) (ids : Nat) :
    List SequenceOutput → List ChatChoice
  | [] => []
  | output :: outputs =>
    let choice := resultChoice env toolCalls reasoning ids output
    choice :: sendResultToClientBrpc env toolCalls reasoning
      (ids + choice.toolCalls.length) outputs

end Xllm.ApiService
