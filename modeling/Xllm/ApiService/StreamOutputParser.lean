import Mathlib.Data.List.Basic

/-!
# The parsers of a stream

A streamed response is read by two parsers for every sequence: one tells reasoning from the rest, the
other tool calls from text. `StreamOutputParser` (`api_service/stream_output_parser.cpp`) makes them on
the first use of an index. The parsers themselves are machines with a state, and what they do with an
increment is a parameter; `check_for_unstreamed_tool_args` (`api_service/utils.h`) looks at two tables
of the tool call machine.
-/

namespace Xllm.ApiService

abbrev Text := List Char

structure ToolCallItem where
  toolIndex : Int
  name : Option Text
  parameters : Text
  deriving DecidableEq, Repr

structure StreamingParseResult where
  normalText : Text := []
  calls : List ToolCallItem := []
  deriving DecidableEq, Repr

structure ReasoningResult where
  normalText : Option Text := none
  reasoningText : Option Text := none
  deriving DecidableEq, Repr

/-- What a callback says about one sequence of a request: text that is new, and at its end a reason. -/
structure SequenceOutput where
  index : Nat
  text : Text
  finishReason : Option Text := none
  deriving DecidableEq, Repr

structure Usage where
  numPromptTokens : Int
  numGeneratedTokens : Int
  numTotalTokens : Int
  numCachedTokens : Int
  deriving DecidableEq, Repr

structure RequestOutput where
  outputs : List SequenceOutput := []
  usage : Option Usage := none
  finished : Bool := false
  cancelled : Bool := false
  deriving DecidableEq, Repr

/-- A function call parser with its detector. `prevToolCallArguments` is the entry `arguments` of each
entry of `prev_tool_call_arr_`; `parseNonStream` may throw. -/
structure FunctionCallParser (σ : Type) where
  hasToolCall : Text → Bool
  parsesResponseEnvelope : Bool
  parseNonStream : Text → Option StreamingParseResult
  initial : σ
  parseStreamingIncrement : σ → Text → StreamingParseResult × σ
  prevToolCallArguments : σ → List (Option Text)
  streamedArgsForTool : σ → List Text

structure ReasoningParser (ρ : Type) where
  parseNonStream : Text → ReasoningResult
  initial : ρ
  parseStreamChunk : ρ → Text → ReasoningResult × ρ

structure SequenceParser (σ ρ : Type) where
  toolCallParser : Option σ := none
  hasToolCall : Bool := false
  reasoningParser : Option ρ := none

structure StreamOutputParser (σ ρ : Type) where
  toolCalls : Option (FunctionCallParser σ)
  reasoning : Option (ReasoningParser ρ)
  sequenceParsers : List (SequenceParser σ ρ)

namespace StreamOutputParser

variable {σ ρ : Type}

def create (toolCalls : Option (FunctionCallParser σ)) (reasoning : Option (ReasoningParser ρ)) :
    StreamOutputParser σ ρ :=
  { toolCalls
    reasoning
    sequenceParsers :=
      [{ toolCallParser := toolCalls.map fun parser => parser.initial
         reasoningParser := reasoning.map fun parser => parser.initial }] }

def checkResizeForIndex (p : StreamOutputParser σ ρ) (index : Nat) : StreamOutputParser σ ρ :=
  { p with
    sequenceParsers :=
      p.sequenceParsers ++ List.replicate (index + 1 - p.sequenceParsers.length) {} }

def sequenceParser (p : StreamOutputParser σ ρ) (index : Nat) : SequenceParser σ ρ :=
  (p.sequenceParsers[index]?).getD {}

def modifySequenceParser (p : StreamOutputParser σ ρ) (index : Nat)
    (f : SequenceParser σ ρ → SequenceParser σ ρ) : StreamOutputParser σ ρ :=
  let p := p.checkResizeForIndex index
  { p with sequenceParsers := p.sequenceParsers.modify index f }

/-- The state of a sequence's tool call parser; a parser that was not made yet is a new one. -/
def toolCallState (p : StreamOutputParser σ ρ) (parser : FunctionCallParser σ) (index : Nat) : σ :=
  (p.sequenceParser index).toolCallParser.getD parser.initial

def reasoningState (p : StreamOutputParser σ ρ) (parser : ReasoningParser ρ) (index : Nat) : ρ :=
  (p.sequenceParser index).reasoningParser.getD parser.initial

def setToolCallState (p : StreamOutputParser σ ρ) (index : Nat) (state : σ) :
    StreamOutputParser σ ρ :=
  p.modifySequenceParser index fun s => { s with toolCallParser := some state }

def setReasoningState (p : StreamOutputParser σ ρ) (index : Nat) (state : ρ) :
    StreamOutputParser σ ρ :=
  p.modifySequenceParser index fun s => { s with reasoningParser := some state }

def getHasToolCall (p : StreamOutputParser σ ρ) (index : Nat) : Bool :=
  (p.sequenceParser index).hasToolCall

def setHasToolCall (p : StreamOutputParser σ ρ) (index : Nat) : StreamOutputParser σ ρ :=
  p.modifySequenceParser index fun s => { s with hasToolCall := true }

end StreamOutputParser

/-- What `check_for_unstreamed_tool_args` finds: the rest of the arguments of the last tool, and its
index. -/
def unstreamedToolArgs {σ : Type} (parser : FunctionCallParser σ) (state : σ) :
    Option (Text × Nat) :=
  let expected := parser.prevToolCallArguments state
  let streamed := parser.streamedArgsForTool state
  if expected.isEmpty || streamed.isEmpty then none
  else
    let toolIndex := expected.length - 1
    match expected[toolIndex]?, streamed[toolIndex]? with
    | some (some expectedCall), some actualArgs =>
      if actualArgs.length < expectedCall.length then
        some (expectedCall.drop actualArgs.length, toolIndex)
      else none
    | _, _ => none

/-- What a write finds: whether the n-th write of a call succeeds, and the random parts of ids. -/
structure Surroundings where
  accepts : Nat → Bool
  shortUuid : Nat → Text

def generateToolCallId (env : Surroundings) (n : Nat) : Text :=
  "call_".toList ++ env.shortUuid n

/-! ## Reading and writing the table of parsers -/

namespace StreamOutputParser

variable {σ ρ : Type}

@[simp] theorem sequenceParser_checkResize (p : StreamOutputParser σ ρ) (index j : Nat) :
    (p.checkResizeForIndex index).sequenceParser j = p.sequenceParser j := by
  rw [sequenceParser, sequenceParser, checkResizeForIndex]
  by_cases h : j < p.sequenceParsers.length
  · rw [List.getElem?_append_left h]
  · rw [List.getElem?_append_right (Nat.le_of_not_lt h), List.getElem?_eq_none (Nat.le_of_not_lt h)]
    cases hget : (List.replicate (index + 1 - p.sequenceParsers.length)
        ({} : SequenceParser σ ρ))[j - p.sequenceParsers.length]? with
    | none => rfl
    | some s => rw [List.eq_of_mem_replicate (List.mem_of_getElem? hget)]; rfl

theorem sequenceParser_modify (p : StreamOutputParser σ ρ) (index j : Nat)
    (f : SequenceParser σ ρ → SequenceParser σ ρ) :
    (p.modifySequenceParser index f).sequenceParser j =
      if index = j then f (p.sequenceParser j) else p.sequenceParser j := by
  rw [← sequenceParser_checkResize p index j, sequenceParser, modifySequenceParser]
  simp only [List.getElem?_modify]
  by_cases h : index = j
  · subst h
    have hlt : index < (p.checkResizeForIndex index).sequenceParsers.length := by
      rw [checkResizeForIndex, List.length_append, List.length_replicate]
      omega
    rw [if_pos rfl, sequenceParser, List.getElem?_eq_getElem hlt]
    simp
  · simp [h, sequenceParser]

end StreamOutputParser

end Xllm.ApiService
