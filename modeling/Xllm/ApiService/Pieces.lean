import Xllm.ApiService.StreamOutputParser
import Xllm.Lib.Outcome

/-!
# Reading an output through the parsers

The services that stream read an output of a sequence in the same way: reasoning first, then the text
with its calls, and with the finish reason the arguments that were not streamed
(`sendSequencePieces`). They differ in what they write, which is a `PieceSink` here.

What is written comes from the outputs and the two machines alone (`turnPieces`), and reading an output
is sending these pieces one by one (`sendSequencePieces_eq`).
-/

namespace Xllm.ApiService

open Xllm.Lib

structure PieceSink (W ε : Type) where
  sendReasoning : W → Nat → Text → Except ε W
  sendText : W → Nat → Text → Except ε W
  sendCallItem : W → Nat → ToolCallItem → Except ε W
  sendRest : W → Nat → Text → Int → Except ε W

/-- The writer of a call and the parsers of its sequences. -/
structure ParserStream (W σ ρ : Type) where
  writer : W
  parser : Option (StreamOutputParser σ ρ)

namespace ParserStream

variable {W ε σ ρ : Type}

/-- `process_tool_call_stream`. -/
def processToolCallStream (sink : PieceSink W ε) (st : ParserStream W σ ρ)
    (p : StreamOutputParser σ ρ) (parser : FunctionCallParser σ) (index : Nat) (delta : Text) :
    Except ε (ParserStream W σ ρ) := do
  let result := parser.parseStreamingIncrement (p.toolCallState parser index) delta
  let p := p.setToolCallState index result.2
  let p := if result.1.calls.isEmpty then p else p.setHasToolCall index
  let w ←
    if result.1.normalText = [] then .ok st.writer
    else sink.sendText st.writer index result.1.normalText
  let w ← result.1.calls.foldlM (fun w item => sink.sendCallItem w index item) w
  .ok ⟨w, some p⟩

/-- Reasoning text is written; what is left of the text is returned. -/
def processReasoning (sink : PieceSink W ε) (st : ParserStream W σ ρ)
    (seqOutput : SequenceOutput) : Except ε (ParserStream W σ ρ × Text) :=
  match st.parser with
  | none => .ok (st, seqOutput.text)
  | some p =>
    match p.reasoning with
    | none => .ok (st, seqOutput.text)
    | some parser =>
      if seqOutput.text = [] then .ok (st, seqOutput.text)
      else do
        let result :=
          parser.parseStreamChunk (p.reasoningState parser seqOutput.index) seqOutput.text
        let w ←
          match result.1.reasoningText with
          | none => .ok st.writer
          | some reasoning => sink.sendReasoning st.writer seqOutput.index reasoning
        .ok (⟨w, some (p.setReasoningState seqOutput.index result.2)⟩, result.1.normalText.getD [])

def processText (sink : PieceSink W ε) (st : ParserStream W σ ρ) (index : Nat) (curText : Text) :
    Except ε (ParserStream W σ ρ) :=
  if curText = [] then .ok st
  else
    match st.parser with
    | none => do
      let w ← sink.sendText st.writer index curText
      .ok { st with writer := w }
    | some p =>
      match p.toolCalls with
      | none => do
        let w ← sink.sendText st.writer index curText
        .ok { st with writer := w }
      | some parser => st.processToolCallStream sink p parser index curText

def sendUnstreamedToolArgs (sink : PieceSink W ε) (st : ParserStream W σ ρ) (index : Nat) :
    Except ε (ParserStream W σ ρ) :=
  match st.parser with
  | none => .ok st
  | some p =>
    match p.toolCalls with
    | none => .ok st
    | some parser =>
      match unstreamedToolArgs parser (p.toolCallState parser index) with
      | none => .ok st
      | some (arguments, toolIndex) => do
        let w ← sink.sendRest st.writer index arguments toolIndex
        .ok { st with writer := w }

end ParserStream

def calledBy {σ ρ : Type} (parser : Option (StreamOutputParser σ ρ)) (index : Nat) : Bool :=
  match parser with
  | none => false
  | some p => p.getHasToolCall index

/-- What both services do with an output of a sequence; with the stream, whether the sequence has
made a call. -/
def ParserStream.sendSequencePieces {W ε σ ρ : Type} (sink : PieceSink W ε)
    (st : ParserStream W σ ρ) (seqOutput : SequenceOutput) :
    Except ε (ParserStream W σ ρ × Bool) := do
  let (st, curText) ← st.processReasoning sink seqOutput
  let st ← st.processText sink seqOutput.index curText
  let called := calledBy st.parser seqOutput.index
  let st ←
    if seqOutput.finishReason.isSome && called then st.sendUnstreamedToolArgs sink seqOutput.index
    else .ok st
  .ok (st, called)

/-- The parsers are made for all sequences of an output. -/
def ParserStream.checkResize {W σ ρ : Type} (st : ParserStream W σ ρ) (output : RequestOutput) :
    ParserStream W σ ρ :=
  if output.outputs.isEmpty then st
  else { st with parser := st.parser.map (·.checkResizeForIndex (output.outputs.length - 1)) }

/-! ## Pieces -/

inductive Piece
  | reasoning (text : Text)
  | text (text : Text)
  | item (item : ToolCallItem)
  | rest (arguments : Text) (toolIndex : Int)
  deriving DecidableEq, Repr

structure Parsed (σ ρ : Type) where
  pieces : List Piece
  parser : Option (StreamOutputParser σ ρ)

section Pieces

variable {σ ρ : Type}

/-- The reasoning text of an output, and the text that is left. -/
def reasoningPieces (parser : Option (StreamOutputParser σ ρ)) (seqOutput : SequenceOutput) :
    Parsed σ ρ × Text :=
  match parser with
  | none => (⟨[], none⟩, seqOutput.text)
  | some p =>
    match p.reasoning with
    | none => (⟨[], some p⟩, seqOutput.text)
    | some reasoning =>
      if seqOutput.text = [] then (⟨[], some p⟩, seqOutput.text)
      else
        let result :=
          reasoning.parseStreamChunk (p.reasoningState reasoning seqOutput.index) seqOutput.text
        (⟨(result.1.reasoningText.map Piece.reasoning).toList,
          some (p.setReasoningState seqOutput.index result.2)⟩, result.1.normalText.getD [])

def resultPieces (result : StreamingParseResult) : List Piece :=
  (if result.normalText = [] then [] else [.text result.normalText]) ++ result.calls.map .item

def textPieces (parser : Option (StreamOutputParser σ ρ)) (index : Nat) (curText : Text) :
    Parsed σ ρ :=
  if curText = [] then ⟨[], parser⟩
  else
    match parser with
    | none => ⟨[.text curText], none⟩
    | some p =>
      match p.toolCalls with
      | none => ⟨[.text curText], some p⟩
      | some toolCalls =>
        let result := toolCalls.parseStreamingIncrement (p.toolCallState toolCalls index) curText
        let p := p.setToolCallState index result.2
        ⟨resultPieces result.1, some (if result.1.calls.isEmpty then p else p.setHasToolCall index)⟩

def restPieces (parser : Option (StreamOutputParser σ ρ)) (index : Nat) : List Piece :=
  match parser with
  | none => []
  | some p =>
    match p.toolCalls with
    | none => []
    | some toolCalls =>
      match unstreamedToolArgs toolCalls (p.toolCallState toolCalls index) with
      | none => []
      | some (arguments, toolIndex) => [.rest arguments toolIndex]

def turnPieces (parser : Option (StreamOutputParser σ ρ)) (seqOutput : SequenceOutput) :
    Parsed σ ρ :=
  let (reasoned, curText) := reasoningPieces parser seqOutput
  let parsed := textPieces reasoned.parser seqOutput.index curText
  let rest :=
    if seqOutput.finishReason.isSome && calledBy parsed.parser seqOutput.index then
      restPieces parsed.parser seqOutput.index
    else []
  ⟨reasoned.pieces ++ parsed.pieces ++ rest, parsed.parser⟩

end Pieces

/-! ## Sending pieces -/

namespace PieceSink

variable {W ε : Type}

def send (sink : PieceSink W ε) (index : Nat) (w : W) : Piece → Except ε W
  | .reasoning text => sink.sendReasoning w index text
  | .text text => sink.sendText w index text
  | .item item => sink.sendCallItem w index item
  | .rest arguments toolIndex => sink.sendRest w index arguments toolIndex

def sendAll (sink : PieceSink W ε) (index : Nat) (w : W) (pieces : List Piece) : Except ε W :=
  pieces.foldlM (sink.send index) w

theorem sendAll_singleton (sink : PieceSink W ε) (index : Nat) (w : W) (piece : Piece) :
    sink.sendAll index w [piece] = sink.send index w piece := by
  exact bind_pure _

theorem sendAll_append (sink : PieceSink W ε) (index : Nat) (w : W) (pieces pieces' : List Piece) :
    sink.sendAll index w (pieces ++ pieces') =
      (sink.sendAll index w pieces >>= fun w => sink.sendAll index w pieces') :=
  List.foldlM_append

theorem sendAll_items (sink : PieceSink W ε) (index : Nat) (w : W) (items : List ToolCallItem) :
    sink.sendAll index w (items.map .item) =
      items.foldlM (fun w item => sink.sendCallItem w index item) w := by
  rw [sendAll, List.foldlM_map]
  rfl

end PieceSink

namespace ParserStream

variable {W ε σ ρ : Type} (sink : PieceSink W ε) (st : ParserStream W σ ρ)

theorem processReasoning_eq (seqOutput : SequenceOutput) :
    st.processReasoning sink seqOutput =
      (sink.sendAll seqOutput.index st.writer (reasoningPieces st.parser seqOutput).1.pieces >>=
        fun w => .ok (⟨w, (reasoningPieces st.parser seqOutput).1.parser⟩,
          (reasoningPieces st.parser seqOutput).2)) := by
  obtain ⟨w, parser⟩ := st
  rw [processReasoning, reasoningPieces.eq_def]
  cases parser with
  | none => rfl
  | some p =>
    dsimp only
    cases p.reasoning with
    | none => rfl
    | some reasoning =>
      by_cases htext : seqOutput.text = []
      · simp only [if_pos htext]
        rfl
      · simp only [if_neg htext]
        generalize reasoning.parseStreamChunk (p.reasoningState reasoning seqOutput.index)
          seqOutput.text = result
        cases result.1.reasoningText with
        | none => rfl
        | some text =>
          rw [Option.map_some, Option.toList_some, PieceSink.sendAll_singleton]
          rfl

theorem processText_eq (index : Nat) (curText : Text) :
    st.processText sink index curText =
      (sink.sendAll index st.writer (textPieces st.parser index curText).pieces >>= fun w =>
        .ok ⟨w, (textPieces st.parser index curText).parser⟩) := by
  obtain ⟨w, parser⟩ := st
  rw [processText, textPieces.eq_def]
  by_cases htext : curText = []
  · rw [if_pos htext, if_pos htext]
    rfl
  rw [if_neg htext, if_neg htext]
  cases parser with
  | none =>
    rw [PieceSink.sendAll_singleton]
    rfl
  | some p =>
    dsimp only
    cases p.toolCalls with
    | none =>
      rw [PieceSink.sendAll_singleton]
      rfl
    | some toolCalls =>
      dsimp only [processToolCallStream]
      generalize toolCalls.parseStreamingIncrement (p.toolCallState toolCalls index) curText =
        result
      rw [resultPieces, PieceSink.sendAll_append]
      simp only [PieceSink.sendAll_items]
      by_cases hnormal : result.1.normalText = []
      · rw [if_pos hnormal, if_pos hnormal, bind_assoc]
        rfl
      · rw [if_neg hnormal, if_neg hnormal, PieceSink.sendAll_singleton, bind_assoc]
        rfl

theorem sendUnstreamedToolArgs_eq (index : Nat) :
    st.sendUnstreamedToolArgs sink index =
      (sink.sendAll index st.writer (restPieces st.parser index) >>= fun w =>
        .ok { st with writer := w }) := by
  obtain ⟨w, parser⟩ := st
  rw [sendUnstreamedToolArgs, restPieces.eq_def]
  cases parser with
  | none => rfl
  | some p =>
    dsimp only
    cases p.toolCalls with
    | none => rfl
    | some toolCalls =>
      dsimp only
      cases unstreamedToolArgs toolCalls (p.toolCallState toolCalls index) with
      | none => rfl
      | some found =>
        rw [PieceSink.sendAll_singleton]
        rfl

theorem sendSequencePieces_eq (seqOutput : SequenceOutput) :
    st.sendSequencePieces sink seqOutput =
      (sink.sendAll seqOutput.index st.writer (turnPieces st.parser seqOutput).pieces >>= fun w =>
        .ok (⟨w, (turnPieces st.parser seqOutput).parser⟩,
          calledBy (turnPieces st.parser seqOutput).parser seqOutput.index)) := by
  rw [sendSequencePieces, processReasoning_eq, turnPieces]
  simp only [bind_assoc, ok_bind, processText_eq, PieceSink.sendAll_append]
  congr 1
  funext w₁
  congr 1
  funext w₂
  by_cases hrest : (seqOutput.finishReason.isSome &&
      calledBy (textPieces (reasoningPieces st.parser seqOutput).1.parser seqOutput.index
        (reasoningPieces st.parser seqOutput).2).parser seqOutput.index) = true
  · rw [if_pos hrest, if_pos hrest, sendUnstreamedToolArgs_eq, bind_assoc]
    rfl
  · rw [if_neg hrest, if_neg hrest]
    rfl

end ParserStream

end Xllm.ApiService
