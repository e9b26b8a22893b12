import Mathlib
import Xllm.ApiService.Pieces
import Xllm.Lib.Transducer

/-!
# The parsers of every sequence

Each sequence has its own two machines, and a machine reads increments that are not empty: the reasoning
parser the texts of the outputs, the tool call parser what the other leaves (`normals`). `ReadSoFar`
says of the table of parsers that every sequence's machines have read its own increments and nothing
else, in whatever order the outputs of the sequences came.
-/

namespace Xllm.ApiService

open Xllm.Lib List

variable {σ ρ : Type}

def FunctionCallParser.transducer (parser : FunctionCallParser σ) :
    Transducer σ Text StreamingParseResult where
  start := parser.initial
  step := parser.parseStreamingIncrement

def ReasoningParser.transducer (parser : ReasoningParser ρ) :
    Transducer ρ Text ReasoningResult where
  start := parser.initial
  step := parser.parseStreamChunk

def increments (texts : List Text) : List Text := texts.filter (fun text => !text.isEmpty)

@[simp] theorem increments_append (texts texts' : List Text) :
    increments (texts ++ texts') = increments texts ++ increments texts' :=
  filter_append ..

theorem increments_of_ne {text : Text} (h : text ≠ []) : increments [text] = [text] := by
  cases text with
  | nil => exact absurd rfl h
  | cons c text => rfl

theorem ne_nil_of_mem_increments {texts : List Text} {text : Text}
    (h : text ∈ increments texts) : text ≠ [] := by
  rintro rfl
  simp [increments] at h

@[simp] theorem flatten_increments (texts : List Text) :
    (increments texts).flatten = texts.flatten := by
  induction texts with
  | nil => rfl
  | cons text texts ih =>
    rw [← singleton_append, increments_append, flatten_append, flatten_append, ih]
    cases text <;> rfl

/-! ## What the machines make of a sequence -/

/-- Without a reasoning parser every text is normal. -/
def reasoningOutputs (reasoning : Option (ReasoningParser ρ)) (fed : List Text) :
    List ReasoningResult :=
  match reasoning with
  | none => fed.map fun text => { normalText := some text }
  | some parser => parser.transducer.outputs fed

/-- Without a tool call parser every text is content. -/
def toolOutputs (toolCalls : Option (FunctionCallParser σ)) (fed : List Text) :
    List StreamingParseResult :=
  match toolCalls with
  | none => fed.map fun text => { normalText := text }
  | some parser => parser.transducer.outputs fed

def reasoningText (results : List ReasoningResult) : Text :=
  results.flatMap fun result => result.reasoningText.getD []

def normalTexts (results : List ReasoningResult) : List Text :=
  results.map fun result => result.normalText.getD []

/-- What the tool call parser of a sequence is given. -/
def normals (reasoning : Option (ReasoningParser ρ)) (fed : List Text) : List Text :=
  increments (normalTexts (reasoningOutputs reasoning fed))

def contentText (results : List StreamingParseResult) : Text :=
  results.flatMap fun result => result.normalText

def callItems (results : List StreamingParseResult) : List ToolCallItem :=
  results.flatMap fun result => result.calls

@[simp] theorem reasoningText_append (results results' : List ReasoningResult) :
    reasoningText (results ++ results') = reasoningText results ++ reasoningText results' :=
  flatMap_append

@[simp] theorem normalTexts_append (results results' : List ReasoningResult) :
    normalTexts (results ++ results') = normalTexts results ++ normalTexts results' :=
  map_append

@[simp] theorem contentText_append (results results' : List StreamingParseResult) :
    contentText (results ++ results') = contentText results ++ contentText results' :=
  flatMap_append

@[simp] theorem callItems_append (results results' : List StreamingParseResult) :
    callItems (results ++ results') = callItems results ++ callItems results' :=
  flatMap_append

theorem reasoningText_plain (texts : List Text) :
    reasoningText (reasoningOutputs (none : Option (ReasoningParser ρ)) texts) = [] := by
  rw [reasoningText, reasoningOutputs, flatMap_map]
  exact flatMap_eq_nil_iff.mpr fun _ _ => rfl

theorem normalTexts_plain (texts : List Text) :
    normalTexts (reasoningOutputs (none : Option (ReasoningParser ρ)) texts) = texts := by
  rw [normalTexts, reasoningOutputs, map_map]
  exact map_id texts

theorem contentText_plain (texts : List Text) :
    contentText (toolOutputs (none : Option (FunctionCallParser σ)) texts) = texts.flatten := by
  rw [contentText, toolOutputs, flatMap_map, flatMap_def]
  exact congrArg List.flatten (map_id texts)

theorem callItems_plain (texts : List Text) :
    callItems (toolOutputs (none : Option (FunctionCallParser σ)) texts) = [] := by
  rw [callItems, toolOutputs, flatMap_map]
  exact flatMap_eq_nil_iff.mpr fun _ _ => rfl

/-! ## The table of parsers -/

/-- The parsers of a stream are these, or there are none. -/
def Configured (parser : Option (StreamOutputParser σ ρ))
    (toolCalls : Option (FunctionCallParser σ)) (reasoning : Option (ReasoningParser ρ)) : Prop :=
  match parser with
  | none => toolCalls = none ∧ reasoning = none
  | some p => p.toolCalls = toolCalls ∧ p.reasoning = reasoning

def parserOf (parser : Option (StreamOutputParser σ ρ)) (index : Nat) : SequenceParser σ ρ :=
  match parser with
  | none => {}
  | some p => p.sequenceParser index

theorem calledBy_eq (parser : Option (StreamOutputParser σ ρ)) (index : Nat) :
    calledBy parser index = (parserOf parser index).hasToolCall := by
  cases parser <;> rfl

/-- Every sequence's machines have read what it was given. -/
structure ReadSoFar (toolCalls : Option (FunctionCallParser σ))
    (reasoning : Option (ReasoningParser ρ)) (parser : Option (StreamOutputParser σ ρ))
    (fed normal : Nat → List Text) : Prop where
  configured : Configured parser toolCalls reasoning
  reasoned : ∀ i m, reasoning = some m →
    (parserOf parser i).reasoningParser.getD m.initial = m.transducer.after (fed i)
  parsed : ∀ i m, toolCalls = some m →
    (parserOf parser i).toolCallParser.getD m.initial = m.transducer.after (normal i)
  called : ∀ i, (parserOf parser i).hasToolCall =
    !(callItems (toolOutputs toolCalls (normal i))).isEmpty

def feed (fed : Nat → List Text) (index : Nat) (texts : List Text) : Nat → List Text :=
  Function.update fed index (fed index ++ increments texts)

theorem feed_self (fed : Nat → List Text) (index : Nat) (texts : List Text) :
    feed fed index texts index = fed index ++ increments texts :=
  Function.update_self ..

theorem feed_of_ne (fed : Nat → List Text) {index i : Nat} (h : i ≠ index) (texts : List Text) :
    feed fed index texts i = fed i :=
  Function.update_of_ne h ..

theorem feed_of_no_increments (fed : Nat → List Text) (index : Nat) {texts : List Text}
    (h : increments texts = []) : feed fed index texts = fed := by
  rw [feed, h, append_nil, Function.update_eq_self]

namespace ReadSoFar

variable {toolCalls : Option (FunctionCallParser σ)} {reasoning : Option (ReasoningParser ρ)}
  {parser : Option (StreamOutputParser σ ρ)} {fed normal : Nat → List Text}

theorem start (toolCalls : Option (FunctionCallParser σ)) (reasoning : Option (ReasoningParser ρ)) :
    ReadSoFar toolCalls reasoning (some (.create toolCalls reasoning)) (fun _ => [])
      fun _ => [] := by
  have entry : ∀ i, parserOf (some (StreamOutputParser.create toolCalls reasoning)) i =
      if i = 0 then
        { toolCallParser := toolCalls.map fun m => m.initial
          reasoningParser := reasoning.map fun m => m.initial }
      else {} := by
    intro i
    cases i with
    | zero => rfl
    | succ i => rfl
  refine ⟨⟨rfl, rfl⟩, fun i m hm => ?_, fun i m hm => ?_, fun i => ?_⟩
  · rw [entry, hm]
    split <;> rfl
  · rw [entry, hm]
    split <;> rfl
  · rw [entry]
    cases toolCalls with
    | none => split <;> rfl
    | some m => split <;> rfl

theorem start_none : ReadSoFar (none : Option (FunctionCallParser σ))
    (none : Option (ReasoningParser ρ)) none (fun _ => []) fun _ => [] :=
  ⟨⟨rfl, rfl⟩, fun _ _ h => (nomatch h), fun _ _ h => (nomatch h), fun _ => rfl⟩

theorem checkResize (h : ReadSoFar toolCalls reasoning parser fed normal) (index : Nat) :
    ReadSoFar toolCalls reasoning (parser.map (·.checkResizeForIndex index)) fed normal := by
  cases parser with
  | none => exact h
  | some p =>
    have hsame : ∀ i, parserOf (some (p.checkResizeForIndex index)) i = parserOf (some p) i :=
      fun i => p.sequenceParser_checkResize index i
    refine ⟨h.configured, fun i m hm => ?_, fun i m hm => ?_, fun i => ?_⟩
    · rw [Option.map_some, hsame]
      exact h.reasoned i m hm
    · rw [Option.map_some, hsame]
      exact h.parsed i m hm
    · rw [Option.map_some, hsame]
      exact h.called i

theorem readReasoning (h : ReadSoFar toolCalls reasoning parser fed normal)
    (seqOutput : SequenceOutput) :
    ∃ results, reasoningOutputs reasoning (feed fed seqOutput.index [seqOutput.text]
          seqOutput.index) = reasoningOutputs reasoning (fed seqOutput.index) ++ results ∧
      increments [(reasoningPieces parser seqOutput).2] = increments (normalTexts results) ∧
      (reasoningPieces parser seqOutput).1.pieces =
        (results.filterMap (·.reasoningText)).map Piece.reasoning ∧
      ReadSoFar toolCalls reasoning (reasoningPieces parser seqOutput).1.parser
        (feed fed seqOutput.index [seqOutput.text]) normal := by
  by_cases htext : seqOutput.text = []
  · -- an empty text is read by nobody
    have hnone : reasoningPieces parser seqOutput = (⟨[], parser⟩, []) := by
      rw [reasoningPieces.eq_def]
      cases parser with
      | none => simp only [htext]
      | some p =>
        cases hr : p.reasoning with
        | none => simp only [hr, htext]
        | some m => simp only [hr, htext, if_pos]
    rw [hnone, feed_of_no_increments fed _ (by rw [htext]; rfl)]
    exact ⟨[], (append_nil _).symm, rfl, rfl, h⟩
  have hfed : increments [seqOutput.text] = [seqOutput.text] := increments_of_ne htext
  have hself := feed_self fed seqOutput.index [seqOutput.text]
  rw [hfed] at hself
  have plain : ∀ (hreasoning : reasoning = none),
      reasoningPieces parser seqOutput = (⟨[], parser⟩, seqOutput.text) := by
    intro hreasoning
    rw [reasoningPieces.eq_def]
    cases parser with
    | none => rfl
    | some p =>
      have hp : p.reasoning = none := h.configured.2.trans hreasoning
      simp only [hp]
  cases hr : reasoning with
  | none =>
    rw [plain hr, hself]
    refine ⟨[{ normalText := some seqOutput.text }], map_append, rfl, rfl, ?_⟩
    rw [hr] at h
    exact ⟨h.configured, fun _ _ hm => (by cases hm), h.parsed, h.called⟩
  | some m =>
    cases parser with
    | none => cases h.configured.2.symm.trans hr
    | some p =>
      have hp : p.reasoning = some m := h.configured.2.trans hr
      have hstate : p.reasoningState m seqOutput.index = m.transducer.after (fed seqOutput.index) :=
        h.reasoned seqOutput.index m hr
      generalize hresult : m.transducer.step (m.transducer.after (fed seqOutput.index))
        seqOutput.text = result
      have hread : reasoningPieces (some p) seqOutput =
          (⟨(result.1.reasoningText.map Piece.reasoning).toList,
              some (p.setReasoningState seqOutput.index result.2)⟩,
            result.1.normalText.getD []) := by
        rw [reasoningPieces.eq_def]
        simp only [hp, if_neg htext, hstate, ← hresult]
        rfl
      have hout : m.transducer.outputs (fed seqOutput.index ++ [seqOutput.text]) =
          m.transducer.outputs (fed seqOutput.index) ++ [result.1] := by
        rw [m.transducer.outputs_concat, hresult]
      rw [hread, hself]
      refine ⟨[result.1], hout, rfl, ?_, ?_⟩
      · cases ho : result.1.reasoningText <;> simp [ho]
      · rw [hr] at h
        -- the entry of the sequence, and the others as they were
        have hentry : ∀ i, parserOf (some (p.setReasoningState seqOutput.index result.2)) i =
            if seqOutput.index = i then
              { p.sequenceParser i with reasoningParser := some result.2 }
            else p.sequenceParser i := fun i => StreamOutputParser.sequenceParser_modify ..
        refine ⟨h.configured, fun i m' hm => ?_, fun i m' hm => ?_, fun i => ?_⟩
        · cases hm
          rw [hentry]
          by_cases hi : seqOutput.index = i
          · rw [if_pos hi, ← hi, hself, m.transducer.after_concat, hresult]
            rfl
          · rw [if_neg hi, feed_of_ne _ (Ne.symm hi)]
            exact h.reasoned i m rfl
        · have hi := h.parsed i m' hm
          rw [hentry]
          split <;> exact hi
        · have hi := h.called i
          rw [hentry]
          split <;> exact hi

theorem readText (h : ReadSoFar toolCalls reasoning parser fed normal) (index : Nat)
    (curText : Text) :
    ∃ results, toolOutputs toolCalls (feed normal index [curText] index) =
        toolOutputs toolCalls (normal index) ++ results ∧
      (textPieces parser index curText).pieces = results.flatMap resultPieces ∧
      ReadSoFar toolCalls reasoning (textPieces parser index curText).parser fed
        (feed normal index [curText]) := by
  by_cases htext : curText = []
  · have hnone : textPieces parser index curText = ⟨[], parser⟩ := by
      rw [textPieces.eq_def, if_pos htext]
    rw [hnone, feed_of_no_increments normal _ (by rw [htext]; rfl)]
    exact ⟨[], (append_nil _).symm, rfl, h⟩
  have hself := feed_self normal index [curText]
  rw [increments_of_ne htext] at hself
  cases ht : toolCalls with
  | none =>
    have hplain : textPieces parser index curText = ⟨[.text curText], parser⟩ := by
      rw [textPieces.eq_def, if_neg htext]
      cases parser with
      | none => rfl
      | some p =>
        have hp : p.toolCalls = none := h.configured.1.trans ht
        simp only [hp]
    rw [hplain, hself]
    refine ⟨[{ normalText := curText }], map_append, ?_, ?_⟩
    · simp [resultPieces, htext]
    · rw [ht] at h
      refine ⟨h.configured, h.reasoned, fun _ _ hm => (by cases hm), fun i => ?_⟩
      have hcalled := h.called i
      rw [callItems_plain] at hcalled ⊢
      exact hcalled
  | some m =>
    cases parser with
    | none => cases h.configured.1.symm.trans ht
    | some p =>
      have hp : p.toolCalls = some m := h.configured.1.trans ht
      have hstate : p.toolCallState m index = m.transducer.after (normal index) :=
        h.parsed index m ht
      generalize hresult : m.transducer.step (m.transducer.after (normal index)) curText = result
      have hread : textPieces (some p) index curText =
          ⟨resultPieces result.1, some (if result.1.calls.isEmpty then
            p.setToolCallState index result.2
            else (p.setToolCallState index result.2).setHasToolCall index)⟩ := by
        rw [textPieces.eq_def, if_neg htext]
        simp only [hp, hstate, ← hresult]
        rfl
      have hout : m.transducer.outputs (normal index ++ [curText]) =
          m.transducer.outputs (normal index) ++ [result.1] := by
        rw [m.transducer.outputs_concat, hresult]
      rw [hread, hself]
      refine ⟨[result.1], hout, (append_nil _).symm, ?_⟩
      rw [ht] at h
      -- the entry of the sequence, and the others as they were
      have hentry : ∀ i, parserOf (some (if result.1.calls.isEmpty then
            p.setToolCallState index result.2
            else (p.setToolCallState index result.2).setHasToolCall index)) i =
          if index = i then
            { p.sequenceParser i with
              toolCallParser := some result.2
              hasToolCall := (p.sequenceParser i).hasToolCall || !result.1.calls.isEmpty }
          else p.sequenceParser i := by
        intro i
        cases hempty : result.1.calls.isEmpty with
        | true =>
          rw [if_pos rfl, parserOf, StreamOutputParser.setToolCallState,
            StreamOutputParser.sequenceParser_modify, Bool.not_true, Bool.or_false]
        | false =>
          rw [if_neg Bool.false_ne_true, parserOf, StreamOutputParser.setHasToolCall,
            StreamOutputParser.sequenceParser_modify, StreamOutputParser.setToolCallState,
            StreamOutputParser.sequenceParser_modify, Bool.not_false, Bool.or_true]
          split <;> rfl
      refine ⟨?_, fun i m' hm => ?_, fun i m' hm => ?_, fun i => ?_⟩
      · split <;> exact h.configured
      · have hi := h.reasoned i m' hm
        rw [hentry]
        split <;> exact hi
      · cases hm
        rw [hentry]
        by_cases hi : index = i
        · rw [if_pos hi, ← hi, hself, m.transducer.after_concat, hresult]
          rfl
        · rw [if_neg hi, feed_of_ne _ (Ne.symm hi)]
          exact h.parsed i m rfl
      · have hcalled := h.called i
        rw [hentry]
        by_cases hi : index = i
        · subst hi
          rw [if_pos rfl, hself]
          show ((p.sequenceParser index).hasToolCall || !result.1.calls.isEmpty) =
            !(callItems (m.transducer.outputs (normal index ++ [curText]))).isEmpty
          have hcalls : callItems [result.1] = result.1.calls := append_nil _
          have hempty : ∀ xs ys : List ToolCallItem,
              (xs ++ ys).isEmpty = (xs.isEmpty && ys.isEmpty) := by
            intro xs ys
            cases xs <;> rfl
          rw [hout, callItems_append, hcalls, hempty, Bool.not_and]
          exact congrArg (· || !result.1.calls.isEmpty) hcalled
        · rw [if_neg hi, feed_of_ne _ (Ne.symm hi)]
          exact hcalled

end ReadSoFar

/-- The arguments that were not streamed when these texts were read. -/
def restOf (toolCalls : Option (FunctionCallParser σ)) (fed : List Text) : List Piece :=
  match toolCalls with
  | none => []
  | some m =>
    match unstreamedToolArgs m (m.transducer.after fed) with
    | none => []
    | some (arguments, toolIndex) => [.rest arguments toolIndex]

theorem ReadSoFar.rest {toolCalls : Option (FunctionCallParser σ)}
    {reasoning : Option (ReasoningParser ρ)} {parser : Option (StreamOutputParser σ ρ)}
    {fed normal : Nat → List Text} (h : ReadSoFar toolCalls reasoning parser fed normal)
    (index : Nat) : restPieces parser index = restOf toolCalls (normal index) := by
  rw [restPieces.eq_def]
  cases parser with
  | none => rw [h.configured.1]; rfl
  | some p =>
    have hp : p.toolCalls = toolCalls := h.configured.1
    dsimp only
    rw [hp]
    cases ht : toolCalls with
    | none => rfl
    | some m =>
      have hstate : p.toolCallState m index = m.transducer.after (normal index) :=
        h.parsed index m ht
      dsimp only
      rw [hstate]
      rfl

end Xllm.ApiService
