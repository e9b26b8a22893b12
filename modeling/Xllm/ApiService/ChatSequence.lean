import Xllm.ApiService.ChatChoices
import Xllm.ApiService.SequenceStreams
import Xllm.Lib.Trim

/-!
# What a stream tells of a sequence, and what it keeps

A parser may hold text back that could still become a marker, and gives it out with an empty increment
(`Streams` is the law). The stream never sends the empty increment: at the finish it only looks for
arguments that were not streamed. A stream therefore tells the whole message exactly when what both
parsers hold back is white space, and of calls just these arguments (`NothingHeld`).
-/

namespace Xllm.ApiService

open Xllm.Lib List

variable {σ ρ : Type}

def trimText (text : Text) : Text := trim Char.isWhitespace text

/-! ## Calls from deltas -/

def ToolCallItem.toDelta (item : ToolCallItem) : ToolDelta :=
  ⟨item.toolIndex, item.name.getD [], item.parameters⟩

def nameOf (toolIndex : Int) (deltas : List ToolDelta) : Text :=
  deltas.flatMap fun delta => if delta.toolIndex = toolIndex then delta.name else []

def argumentsOf (toolIndex : Int) (deltas : List ToolDelta) : Text :=
  deltas.flatMap fun delta => if delta.toolIndex = toolIndex then delta.arguments else []

def toolIndices (deltas : List ToolDelta) : List Int := deltas.map (·.toolIndex)

def callsAt (indices : List Int) (deltas : List ToolDelta) : List (Text × Text) :=
  indices.map fun toolIndex => (nameOf toolIndex deltas, argumentsOf toolIndex deltas)

/-- A client puts the deltas of an index together, in the order the indices first appear. -/
def assembled (deltas : List ToolDelta) : List (Text × Text) :=
  callsAt (toolIndices deltas).eraseDups deltas

def newCalls (before deltas : List ToolDelta) : List (Text × Text) :=
  callsAt ((toolIndices deltas).removeAll (toolIndices before)).eraseDups deltas

/-- Behind the same deltas, these and those make the same calls. -/
structure SameCalls (before deltas deltas' : List ToolDelta) : Prop where
  started : ∀ toolIndex ∈ toolIndices before,
    nameOf toolIndex deltas = nameOf toolIndex deltas' ∧
      argumentsOf toolIndex deltas = argumentsOf toolIndex deltas'
  new : newCalls before deltas = newCalls before deltas'

theorem nameOf_append (toolIndex : Int) (deltas deltas' : List ToolDelta) :
    nameOf toolIndex (deltas ++ deltas') = nameOf toolIndex deltas ++ nameOf toolIndex deltas' :=
  flatMap_append

theorem argumentsOf_append (toolIndex : Int) (deltas deltas' : List ToolDelta) :
    argumentsOf toolIndex (deltas ++ deltas') =
      argumentsOf toolIndex deltas ++ argumentsOf toolIndex deltas' :=
  flatMap_append

theorem flatMap_of_not_mem {toolIndex : Int} {deltas : List ToolDelta}
    (h : toolIndex ∉ toolIndices deltas) (f : ToolDelta → Text) :
    (deltas.flatMap fun delta => if delta.toolIndex = toolIndex then f delta else []) = [] := by
  rw [flatMap_eq_nil_iff]
  intro delta hdelta
  refine if_neg fun heq => h ?_
  rw [← heq]
  exact mem_map_of_mem hdelta

theorem assembled_append (before deltas : List ToolDelta) :
    assembled (before ++ deltas) =
      callsAt (toolIndices before).eraseDups (before ++ deltas) ++ newCalls before deltas := by
  rw [assembled, toolIndices, map_append, eraseDups_append]
  rw [callsAt, map_append]
  congr 1
  refine map_congr_left fun toolIndex hmem => ?_
  have hnew : toolIndex ∉ toolIndices before := by
    rw [mem_eraseDups, List.removeAll, mem_filter] at hmem
    simpa [toolIndices] using hmem.2
  rw [nameOf_append, argumentsOf_append, nameOf, argumentsOf, flatMap_of_not_mem hnew,
    flatMap_of_not_mem hnew, nil_append, nil_append]

theorem assembled_append_eq_iff (before deltas deltas' : List ToolDelta) :
    assembled (before ++ deltas) = assembled (before ++ deltas') ↔
      SameCalls before deltas deltas' := by
  have hstarted : callsAt (toolIndices before).eraseDups (before ++ deltas) =
      callsAt (toolIndices before).eraseDups (before ++ deltas') ↔
        ∀ toolIndex ∈ toolIndices before, nameOf toolIndex deltas = nameOf toolIndex deltas' ∧
          argumentsOf toolIndex deltas = argumentsOf toolIndex deltas' := by
    rw [callsAt, callsAt, map_inj_left]
    refine forall_congr' fun toolIndex => ?_
    rw [mem_eraseDups, Prod.mk.injEq, nameOf_append, nameOf_append, argumentsOf_append,
      argumentsOf_append, append_cancel_left_eq, append_cancel_left_eq]
  rw [assembled_append, assembled_append]
  constructor
  · intro h
    obtain ⟨hfirst, hnew⟩ := append_inj h (by simp [callsAt])
    exact ⟨hstarted.mp hfirst, hnew⟩
  · intro h
    rw [hstarted.mpr h.started, h.new]

theorem assembled_eq_nil_iff {deltas : List ToolDelta} : assembled deltas = [] ↔ deltas = [] := by
  constructor
  · intro h
    cases deltas with
    | nil => rfl
    | cons delta deltas =>
      rw [assembled, toolIndices, map_cons, eraseDups_cons] at h
      cases h
  · rintro rfl
    rfl

/-! ## The law of the parsers -/

/-- The increments and an empty one give what reading the whole text gives. -/
structure ReasoningParser.Streams (m : ReasoningParser ρ) : Prop where
  normal : ∀ texts : List Text, (∀ text ∈ texts, text ≠ []) →
    (normalTexts (m.transducer.outputs (texts ++ [[]]))).flatten =
      (m.parseNonStream texts.flatten).normalText.getD []
  reasoning : ∀ texts : List Text, (∀ text ∈ texts, text ≠ []) →
    trimText (reasoningText (m.transducer.outputs (texts ++ [[]]))) =
      trimText ((m.parseNonStream texts.flatten).reasoningText.getD [])

/-- The reading of a whole text: without a sign of a call it is content. -/
def FunctionCallParser.oneShot (m : FunctionCallParser σ) (text : Text) : StreamingParseResult :=
  if !m.hasToolCall text && !m.parsesResponseEnvelope then { normalText := text }
  else (m.parseNonStream text).getD { normalText := text }

structure FunctionCallParser.Streams (m : FunctionCallParser σ) : Prop where
  content : ∀ texts : List Text, (∀ text ∈ texts, text ≠ []) →
    trimText (contentText (m.transducer.outputs (texts ++ [[]]))) =
      trimText (m.oneShot texts.flatten).normalText
  calls : ∀ texts : List Text, (∀ text ∈ texts, text ≠ []) →
    assembled ((callItems (m.transducer.outputs (texts ++ [[]]))).map (·.toDelta)) =
      (m.oneShot texts.flatten).calls.map fun item => (item.name.getD [], item.parameters)
  streamed : ∀ texts : List Text, (∀ text ∈ texts, text ≠ []) → ∀ (k : Nat) (arguments : Text),
    (m.streamedArgsForTool (m.transducer.after texts))[k]? = some arguments →
      arguments = argumentsOf k ((callItems (m.transducer.outputs texts)).map (·.toDelta))

/-! ## What is held back -/

/-- What the reasoning parser would give out behind these increments. -/
def heldReasoning (reasoning : Option (ReasoningParser ρ)) (fed : List Text) :
    List ReasoningResult :=
  match reasoning with
  | none => []
  | some m => m.transducer.outputsFrom (m.transducer.after fed) [[]]

/-- What the tool call parser would give out, reading what the reasoning parser held. -/
def heldContent (toolCalls : Option (FunctionCallParser σ)) (reasoning : Option (ReasoningParser ρ))
    (fed : List Text) : List StreamingParseResult :=
  let normal := normals reasoning fed
  let held := (normalTexts (heldReasoning reasoning fed)).flatten
  match toolCalls with
  | none => [{ normalText := held }]
  | some m =>
    if normal.flatten ++ held = [] then []
    else m.transducer.outputsFrom (m.transducer.after normal) (increments [held] ++ [[]])

def callDeltas (toolCalls : Option (FunctionCallParser σ)) (reasoning : Option (ReasoningParser ρ))
    (fed : List Text) : List ToolDelta :=
  (callItems (toolOutputs toolCalls (normals reasoning fed))).map (·.toDelta)

/-- The arguments the finish sends, if a call was made. -/
def restDeltas (toolCalls : Option (FunctionCallParser σ)) (reasoning : Option (ReasoningParser ρ))
    (fed : List Text) : List ToolDelta :=
  if (callDeltas toolCalls reasoning fed).isEmpty then []
  else (({} : ChoiceReader).addAll (restOf toolCalls (normals reasoning fed))).calls

structure NothingHeld (toolCalls : Option (FunctionCallParser σ))
    (reasoning : Option (ReasoningParser ρ)) (fed : List Text) : Prop where
  reasoningBlank : ∀ c ∈ reasoningText (heldReasoning reasoning fed), c.isWhitespace = true
  contentBlank : ∀ c ∈ contentText (heldContent toolCalls reasoning fed), c.isWhitespace = true
  callsRest : SameCalls (callDeltas toolCalls reasoning fed)
    ((callItems (heldContent toolCalls reasoning fed)).map (·.toDelta))
    (restDeltas toolCalls reasoning fed)

/-! ## One sequence -/

/-- What a client has of a sequence behind its last output. -/
def toldAtEnd (toolCalls : Option (FunctionCallParser σ)) (reasoning : Option (ReasoningParser ρ))
    (fed : List Text) (finishReason : Text) : ChoiceReader where
  reasoning := reasoningText (reasoningOutputs reasoning fed)
  content := contentText (toolOutputs toolCalls (normals reasoning fed))
  calls := callDeltas toolCalls reasoning fed ++ restDeltas toolCalls reasoning fed
  finishReason := some (ChatWriter.streamFinishReason
    (!(callDeltas toolCalls reasoning fed).isEmpty) finishReason)

/-- The message of the stream is the message of the whole text. -/
structure SameMessage (r : ChoiceReader) (choice : ChatChoice) : Prop where
  reasoning : trimText r.reasoning = trimText choice.reasoningContent
  content : trimText r.content = trimText choice.content
  calls : assembled r.calls = choice.toolCalls.map fun call => (call.name, call.arguments)
  finishReason : r.finishReason = some choice.finishReason

theorem trimText_append_eq_iff (text held : Text) :
    trimText text = trimText (text ++ held) ↔ ∀ c ∈ held, c.isWhitespace = true :=
  trim_append_eq_iff Char.isWhitespace text held

section OneSequence

variable {toolCalls : Option (FunctionCallParser σ)} {reasoning : Option (ReasoningParser ρ)}
  {fed : List Text}

theorem parseReasoning_whole (hlaw : ∀ m, reasoning = some m → m.Streams)
    (hfed : ∀ text ∈ fed, text ≠ []) :
    trimText (parseReasoning reasoning fed.flatten).1 =
        trimText (reasoningText (reasoningOutputs reasoning fed) ++
          reasoningText (heldReasoning reasoning fed)) ∧
      (parseReasoning reasoning fed.flatten).2 =
        (normals reasoning fed).flatten ++
          (normalTexts (heldReasoning reasoning fed)).flatten := by
  rw [normals, flatten_increments]
  cases reasoning with
  | none =>
    rw [reasoningText_plain, normalTexts_plain]
    exact ⟨rfl, (append_nil _).symm⟩
  | some m =>
    have hall := m.transducer.outputs_append fed [[]]
    constructor
    · have hreasoning := (hlaw m rfl).reasoning fed hfed
      rw [hall, reasoningText_append] at hreasoning
      exact hreasoning.symm
    · have hnormal := (hlaw m rfl).normal fed hfed
      rw [hall, normalTexts_append, flatten_append] at hnormal
      exact hnormal.symm

theorem processToolCalls_oneShot (env : Surroundings) (ids : Nat) (m : FunctionCallParser σ)
    (text finishReason : Text) :
    (processToolCalls env ids m text finishReason).text = (m.oneShot text).normalText ∧
      ((processToolCalls env ids m text finishReason).toolCalls.map fun call =>
        (call.name, call.arguments)) =
          (m.oneShot text).calls.map (fun item => (item.name.getD [], item.parameters)) ∧
      (processToolCalls env ids m text finishReason).finishReason =
        ChatWriter.streamFinishReason (!(m.oneShot text).calls.isEmpty) finishReason := by
  rw [processToolCalls, FunctionCallParser.oneShot]
  by_cases hplain : (!m.hasToolCall text && !m.parsesResponseEnvelope) = true
  · rw [if_pos hplain, if_pos hplain]
    exact ⟨rfl, rfl, (if_neg (by simp)).symm⟩
  rw [if_neg hplain, if_neg hplain]
  cases m.parseNonStream text with
  | none => exact ⟨rfl, rfl, (if_neg (by simp)).symm⟩
  | some result =>
    rw [Option.getD_some]
    dsimp only
    cases hempty : result.calls.isEmpty with
    | true =>
      rw [if_pos rfl, List.isEmpty_iff.mp hempty]
      exact ⟨rfl, rfl, (if_neg (by simp)).symm⟩
    | false =>
      rw [if_neg Bool.false_ne_true]
      refine ⟨rfl, ?_, ?_⟩
      · rw [map_map]
        conv_rhs => rw [← zipIdx_map_fst 0 result.calls, map_map]
        rfl
      · by_cases hstop : finishReason = "stop".toList
        · rw [if_pos hstop]
          exact (if_pos ⟨rfl, hstop⟩).symm
        · rw [if_neg hstop]
          exact (if_neg fun h => hstop h.2).symm

theorem resultChoice_whole (toolCalls : Option (FunctionCallParser σ)) (fed : List Text)
    (hreasoning : ∀ m, reasoning = some m → m.Streams)
    (htoolCalls : ∀ m, toolCalls = some m → m.Streams) (hfed : ∀ text ∈ fed, text ≠ [])
    (env : Surroundings) (ids : Nat) (index : Nat) (finishReason : Text) :
    ∃ choice, resultChoice env toolCalls reasoning ids
        { index, text := fed.flatten, finishReason := some finishReason } = choice ∧
      trimText choice.reasoningContent =
        trimText (reasoningText (reasoningOutputs reasoning fed) ++
          reasoningText (heldReasoning reasoning fed)) ∧
      trimText choice.content =
        trimText (contentText (toolOutputs toolCalls (normals reasoning fed)) ++
          contentText (heldContent toolCalls reasoning fed)) ∧
      (choice.toolCalls.map fun call => (call.name, call.arguments)) =
        assembled (callDeltas toolCalls reasoning fed ++
          (callItems (heldContent toolCalls reasoning fed)).map (·.toDelta)) ∧
      choice.finishReason =
        ChatWriter.streamFinishReason (!choice.toolCalls.isEmpty) finishReason := by
  obtain ⟨hshown, hleft⟩ := parseReasoning_whole hreasoning hfed
  refine ⟨_, rfl, ?_⟩
  rw [resultChoice.eq_def]
  simp only [hleft]
  cases toolCalls with
  | none =>
    refine ⟨hshown, ?_, ?_, (if_neg (by simp)).symm⟩
    · rw [contentText_plain, heldContent]
      simp [contentText]
    · rw [callDeltas, callItems_plain, heldContent]
      rfl
  | some m =>
    dsimp only
    by_cases hempty : (normals reasoning fed).flatten ++
        (normalTexts (heldReasoning reasoning fed)).flatten = []
    · -- nothing is left for the tool call parser
      rw [if_pos hempty, hempty]
      have hnormals : normals reasoning fed = [] := by
        have hflat := (append_eq_nil_iff.mp hempty).1
        rw [flatten_eq_nil_iff] at hflat
        refine eq_nil_iff_forall_not_mem.mpr fun text htext => ?_
        exact ne_nil_of_mem_increments htext (hflat text htext)
      have hheld : heldContent (some m) reasoning fed = [] := if_pos hempty
      refine ⟨hshown, ?_, ?_, (if_neg (by simp)).symm⟩
      · rw [hheld, hnormals]
        rfl
      · rw [callDeltas, hheld, hnormals]
        rfl
    · rw [if_neg hempty]
      -- the law, for what the parser was given and what the reasoning parser held
      generalize hheldText : (normalTexts (heldReasoning reasoning fed)).flatten = held at hempty ⊢
      have hheld : heldContent (some m) reasoning fed =
          m.transducer.outputsFrom (m.transducer.after (normals reasoning fed))
            (increments [held] ++ [[]]) := by
        rw [heldContent, hheldText]
        exact if_neg hempty
      have hall : m.transducer.outputs (normals reasoning fed ++ increments [held] ++ [[]]) =
          m.transducer.outputs (normals reasoning fed) ++ heldContent (some m) reasoning fed := by
        rw [List.append_assoc, m.transducer.outputs_append, hheld]
      have hne : ∀ text ∈ normals reasoning fed ++ increments [held], text ≠ [] := by
        intro text htext
        rcases mem_append.mp htext with htext | htext
        · exact ne_nil_of_mem_increments htext
        · exact ne_nil_of_mem_increments htext
      have hflat : (normals reasoning fed ++ increments [held]).flatten =
          (normals reasoning fed).flatten ++ held := by
        rw [flatten_append, flatten_increments, flatten_singleton]
      have hcontent := (htoolCalls m rfl).content _ hne
      have hcalls := (htoolCalls m rfl).calls _ hne
      rw [hall, hflat, contentText_append] at hcontent
      rw [hall, hflat, callItems_append, map_append] at hcalls
      obtain ⟨htext, hlist, hfinish⟩ := processToolCalls_oneShot env ids m
        ((normals reasoning fed).flatten ++ held) ((some finishReason).getD [])
      refine ⟨hshown, ?_, ?_, ?_⟩
      · rw [htext]
        exact hcontent.symm
      · rw [hlist]
        exact hcalls.symm
      · rw [hfinish]
        have hsame := congrArg List.isEmpty hlist
        rw [isEmpty_map, isEmpty_map] at hsame
        rw [hsame]
        rfl

/-- The stream tells the whole message exactly when nothing of it is held. -/
theorem sameMessage_iff (toolCalls : Option (FunctionCallParser σ)) (fed : List Text)
    (hreasoning : ∀ m, reasoning = some m → m.Streams)
    (htoolCalls : ∀ m, toolCalls = some m → m.Streams) (hfed : ∀ text ∈ fed, text ≠ [])
    (env : Surroundings) (ids : Nat) (index : Nat) (finishReason : Text) :
    SameMessage (toldAtEnd toolCalls reasoning fed finishReason)
        (resultChoice env toolCalls reasoning ids
          { index, text := fed.flatten, finishReason := some finishReason }) ↔
      NothingHeld toolCalls reasoning fed := by
  obtain ⟨choice, hchoice, hshown, hcontent, hcalls, hfinish⟩ :=
    resultChoice_whole toolCalls fed hreasoning htoolCalls hfed env ids index finishReason
  rw [hchoice]
  constructor
  · intro h
    refine ⟨?_, ?_, ?_⟩
    · exact (trimText_append_eq_iff _ _).mp (h.reasoning.trans hshown)
    · exact (trimText_append_eq_iff _ _).mp (h.content.trans hcontent)
    · exact (assembled_append_eq_iff _ _ _).mp (hcalls.symm.trans h.calls.symm)
  · intro h
    have hcalls' : assembled (toldAtEnd toolCalls reasoning fed finishReason).calls =
        choice.toolCalls.map fun call => (call.name, call.arguments) := by
      rw [hcalls]
      exact ((assembled_append_eq_iff _ _ _).mpr h.callsRest).symm
    refine ⟨?_, ?_, hcalls', ?_⟩
    · rw [hshown]
      exact (trimText_append_eq_iff _ _).mpr h.reasoningBlank
    · rw [hcontent]
      exact (trimText_append_eq_iff _ _).mpr h.contentBlank
    · -- a call was started exactly when one is in the message
      have hsome : choice.toolCalls.isEmpty = (callDeltas toolCalls reasoning fed).isEmpty := by
        have hnil := congrArg List.isEmpty hcalls'
        rw [isEmpty_map] at hnil
        rw [← hnil, Bool.eq_iff_iff, List.isEmpty_iff, List.isEmpty_iff, assembled_eq_nil_iff,
          toldAtEnd, append_eq_nil_iff, restDeltas]
        constructor
        · exact fun hboth => hboth.1
        · intro hnone
          refine ⟨hnone, ?_⟩
          rw [hnone]
          rfl
      rw [hfinish, hsome]
      rfl

end OneSequence

end Xllm.ApiService
