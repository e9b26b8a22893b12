import Xllm.ApiService.ChatSequence

/-!
# What chat streaming delivers

Outputs of several sequences come interleaved, and the last of each carries its finish reason
(`FinishesLast`). The stream tells every sequence what its own texts say (`Streamed`), so streaming
delivers the messages of the whole texts exactly when nothing of any sequence is held back at its end.
-/

namespace Xllm.ApiService

open Xllm.Lib List Function

variable {σ ρ : Type}

def outputsOf (index : Nat) (turns : List SequenceOutput) : List SequenceOutput :=
  turns.filter fun output => output.index == index

def textsOf (index : Nat) (turns : List SequenceOutput) : List Text :=
  (outputsOf index turns).map (·.text)

def finishReasonOf (index : Nat) (turns : List SequenceOutput) : Option Text :=
  (outputsOf index turns).getLast?.bind (·.finishReason)

/-- The finish reason of a sequence is in its last output. -/
structure FinishesLast (turns : List SequenceOutput) : Prop where
  before : turns.Pairwise fun output later => output.index = later.index → output.finishReason = none
  reaches : ∀ output ∈ turns, ∃ last ∈ turns, last.index = output.index ∧
    last.finishReason.isSome = true

/-- What a client has of a sequence behind some of its outputs. -/
def told (toolCalls : Option (FunctionCallParser σ)) (reasoning : Option (ReasoningParser ρ))
    (fed : List Text) (finishReason : Option Text) : ChoiceReader :=
  match finishReason with
  | none =>
    { reasoning := reasoningText (reasoningOutputs reasoning fed)
      content := contentText (toolOutputs toolCalls (normals reasoning fed))
      calls := callDeltas toolCalls reasoning fed }
  | some finishReason => toldAtEnd toolCalls reasoning fed finishReason

/-- Behind these turns the parsers have read their sequences, and so have the clients. -/
structure Streamed (toolCalls : Option (FunctionCallParser σ))
    (reasoning : Option (ReasoningParser ρ)) (st : ParserStream ChatWriter σ ρ)
    (turns : List SequenceOutput) : Prop where
  read : ReadSoFar toolCalls reasoning st.parser (fun i => increments (textsOf i turns))
    fun i => normals reasoning (increments (textsOf i turns))
  clients : ∀ i, readChoice i st.writer.chunks =
    some (told toolCalls reasoning (increments (textsOf i turns)) (finishReasonOf i turns))

theorem outputsOf_concat_self (turns : List SequenceOutput) (output : SequenceOutput) :
    outputsOf output.index (turns ++ [output]) = outputsOf output.index turns ++ [output] := by
  simp [outputsOf]

theorem outputsOf_concat_of_ne {i : Nat} (turns : List SequenceOutput) {output : SequenceOutput}
    (h : i ≠ output.index) : outputsOf i (turns ++ [output]) = outputsOf i turns := by
  simp [outputsOf, Ne.symm h]

/-! ## The pieces of a turn at a client -/

theorem addAll_reasoning (results : List ReasoningResult) (r : ChoiceReader) :
    r.addAll ((results.filterMap (·.reasoningText)).map Piece.reasoning) =
      { r with reasoning := r.reasoning ++ reasoningText results } := by
  induction results generalizing r with
  | nil => simp [ChoiceReader.addAll, reasoningText]
  | cons result results ih =>
    have hcons : reasoningText (result :: results) =
        result.reasoningText.getD [] ++ reasoningText results := flatMap_cons
    cases htext : result.reasoningText with
    | none =>
      rw [filterMap_cons_none htext, ih, hcons, htext]
      rfl
    | some text =>
      rw [filterMap_cons_some htext, map_cons, hcons, htext, Option.getD_some,
        ← List.append_assoc]
      exact ih (r.addPiece (.reasoning text))

theorem addAll_items (items : List ToolCallItem) (r : ChoiceReader) :
    r.addAll (items.map .item) = { r with calls := r.calls ++ items.map (·.toDelta) } := by
  induction items generalizing r with
  | nil => simp [ChoiceReader.addAll]
  | cons item items ih =>
    have hitem := ih (r.addPiece (.item item))
    rw [map_cons, map_cons, append_cons]
    exact hitem

theorem addAll_result (result : StreamingParseResult) (r : ChoiceReader) :
    r.addAll (resultPieces result) =
      { r with
        content := r.content ++ result.normalText
        calls := r.calls ++ result.calls.map (·.toDelta) } := by
  rw [resultPieces]
  by_cases htext : result.normalText = []
  · rw [if_pos htext, htext, nil_append, addAll_items, append_nil]
  · rw [if_neg htext, ChoiceReader.addAll_append, addAll_items]
    rfl

theorem addAll_results (results : List StreamingParseResult) (r : ChoiceReader) :
    r.addAll (results.flatMap resultPieces) =
      { r with
        content := r.content ++ contentText results
        calls := r.calls ++ (callItems results).map (·.toDelta) } := by
  induction results generalizing r with
  | nil => simp [ChoiceReader.addAll, contentText, callItems]
  | cons result results ih =>
    have hcontent : contentText (result :: results) = result.normalText ++ contentText results :=
      flatMap_cons
    have hcalls : callItems (result :: results) = result.calls ++ callItems results :=
      flatMap_cons
    rw [flatMap_cons, ChoiceReader.addAll_append, addAll_result, ih, hcontent, hcalls,
      map_append, List.append_assoc, List.append_assoc]

theorem addAll_restOf (toolCalls : Option (FunctionCallParser σ)) (fed : List Text)
    (r : ChoiceReader) :
    r.addAll (restOf toolCalls fed) =
      { r with calls := r.calls ++ (({} : ChoiceReader).addAll (restOf toolCalls fed)).calls } := by
  rw [restOf.eq_def]
  cases toolCalls with
  | none => simp [ChoiceReader.addAll]
  | some m =>
    dsimp only
    cases unstreamedToolArgs m (m.transducer.after fed) with
    | none => simp [ChoiceReader.addAll]
    | some found => rfl

/-! ## Runs

By induction on the outputs: each sequence has its own parser, so an output of one leaves what the
others have said. -/

section Runs

variable {toolCalls : Option (FunctionCallParser σ)} {reasoning : Option (ReasoningParser ρ)}
  {env : Surroundings}

/-- The client of a sequence follows a turn of it. -/
theorem told_turn {parser : Option (StreamOutputParser σ ρ)} {fed normal : Nat → List Text}
    (h : ReadSoFar toolCalls reasoning parser fed normal) (seqOutput : SequenceOutput)
    (hnormal : normal seqOutput.index = normals reasoning (fed seqOutput.index)) :
    ReadSoFar toolCalls reasoning (turnPieces parser seqOutput).parser
        (feed fed seqOutput.index [seqOutput.text]) (Function.update normal seqOutput.index
          (normals reasoning (fed seqOutput.index ++ increments [seqOutput.text]))) ∧
      ((told toolCalls reasoning (fed seqOutput.index) none).addAll
          (turnPieces parser seqOutput).pieces).finish
          (calledBy (turnPieces parser seqOutput).parser seqOutput.index) seqOutput.finishReason =
        told toolCalls reasoning (fed seqOutput.index ++ increments [seqOutput.text])
          seqOutput.finishReason := by
  obtain ⟨reasoned, hreasoned, hleft, hpieces, hread⟩ := h.readReasoning seqOutput
  obtain ⟨results, hresults, hresultPieces, hread'⟩ :=
    hread.readText seqOutput.index (reasoningPieces parser seqOutput).2
  rw [feed_self] at hreasoned
  -- what the tool call parser has read is what reasoning leaves of the whole
  have hnow : feed normal seqOutput.index [(reasoningPieces parser seqOutput).2]
      seqOutput.index =
      normals reasoning (fed seqOutput.index ++ increments [seqOutput.text]) := by
    rw [feed_self, hnormal, hleft, normals, normals, hreasoned, normalTexts_append,
      increments_append]
  have hfeed : feed normal seqOutput.index [(reasoningPieces parser seqOutput).2] =
      Function.update normal seqOutput.index
        (normals reasoning (fed seqOutput.index ++ increments [seqOutput.text])) := by
    rw [← hnow, feed_self, feed]
  rw [hnow, hnormal] at hresults
  rw [hfeed] at hread'
  refine ⟨hread', ?_⟩
  have hcalled : calledBy (turnPieces parser seqOutput).parser seqOutput.index =
      !(callDeltas toolCalls reasoning
        (fed seqOutput.index ++ increments [seqOutput.text])).isEmpty := by
    have hflag := hread'.called seqOutput.index
    rw [update_self] at hflag
    rw [callDeltas, isEmpty_map, ← hflag, calledBy_eq]
    rfl
  have htold : (told toolCalls reasoning (fed seqOutput.index) none).addAll
      ((reasoningPieces parser seqOutput).1.pieces ++
        (textPieces (reasoningPieces parser seqOutput).1.parser seqOutput.index
          (reasoningPieces parser seqOutput).2).pieces) =
      told toolCalls reasoning (fed seqOutput.index ++ increments [seqOutput.text]) none := by
    rw [ChoiceReader.addAll_append, hpieces, hresultPieces, addAll_reasoning, addAll_results]
    simp only [told, callDeltas, hreasoned, hresults, reasoningText_append, contentText_append,
      callItems_append, map_append]
  have hrest := hread'.rest seqOutput.index
  rw [update_self] at hrest
  have hsplit : (turnPieces parser seqOutput).pieces =
      (reasoningPieces parser seqOutput).1.pieces ++
        (textPieces (reasoningPieces parser seqOutput).1.parser seqOutput.index
          (reasoningPieces parser seqOutput).2).pieces ++
        (if seqOutput.finishReason.isSome &&
            calledBy (turnPieces parser seqOutput).parser seqOutput.index then
          restOf toolCalls
            (normals reasoning (fed seqOutput.index ++ increments [seqOutput.text]))
        else []) := by
    rw [← hrest]
    rfl
  rw [hsplit, ChoiceReader.addAll_append, htold, hcalled]
  cases seqOutput.finishReason with
  | none => rfl
  | some finishReason =>
    -- with the finish comes what was not streamed, if a call was made
    simp only [told, Option.isSome_some, Bool.true_and, toldAtEnd, restDeltas]
    cases hempty : (callDeltas toolCalls reasoning
        (fed seqOutput.index ++ increments [seqOutput.text])).isEmpty with
    | true =>
      rw [Bool.not_true, if_neg Bool.false_ne_true, if_pos rfl, append_nil]
      rfl
    | false =>
      rw [Bool.not_false, if_pos rfl, if_neg Bool.false_ne_true, addAll_restOf]
      rfl

theorem Streamed.start {parser : Option (StreamOutputParser σ ρ)}
    (h : ReadSoFar toolCalls reasoning parser (fun _ => []) fun _ => []) :
    Streamed toolCalls reasoning { writer := {}, parser } [] := by
  have hnormals : normals reasoning [] = [] := by
    cases reasoning <;> rfl
  have htools : toolOutputs toolCalls [] = [] := by
    cases toolCalls <;> rfl
  have hreasoned : reasoningOutputs reasoning [] = [] := by
    cases reasoning <;> rfl
  constructor
  · show ReadSoFar toolCalls reasoning parser (fun _ => []) fun _ => normals reasoning []
    rw [hnormals]
    exact h
  · intro i
    show some {} = some (told toolCalls reasoning [] none)
    rw [told, callDeltas, hnormals, htools, hreasoned]
    rfl

variable {st : ParserStream ChatWriter σ ρ}

theorem Streamed.turn (hacc : ∀ n, env.accepts n = true)
    {turns : List SequenceOutput} (h : Streamed toolCalls reasoning st turns)
    (seqOutput : SequenceOutput)
    (hopen : ∀ output ∈ turns, output.index = seqOutput.index → output.finishReason = none) :
    ∃ st', ChatStream.sendSequenceOutput env st seqOutput = .ok st' ∧
      Streamed toolCalls reasoning st' (turns ++ [seqOutput]) := by
  obtain ⟨w, parser⟩ := st
  obtain ⟨w', hw', hsent⟩ := sent_sendSequenceOutput hacc w parser seqOutput
  obtain ⟨hread, hclient⟩ := told_turn h.read seqOutput rfl
  refine ⟨_, hw', ?_, ?_⟩
  · -- the texts of the sequence, and the others as they were
    have hfed : (fun i => increments (textsOf i (turns ++ [seqOutput]))) =
        feed (fun i => increments (textsOf i turns)) seqOutput.index [seqOutput.text] := by
      funext i
      by_cases hi : i = seqOutput.index
      · rw [hi, feed_self, textsOf, outputsOf_concat_self, map_append, increments_append]
        rfl
      · rw [feed_of_ne _ hi, textsOf, outputsOf_concat_of_ne turns hi]
        rfl
    have hnormal : (fun i => normals reasoning (increments (textsOf i (turns ++ [seqOutput])))) =
        Function.update (fun i => normals reasoning (increments (textsOf i turns)))
          seqOutput.index (normals reasoning
            (increments (textsOf seqOutput.index turns) ++ increments [seqOutput.text])) := by
      funext i
      have hi := congrFun hfed i
      rw [hi]
      by_cases hsame : i = seqOutput.index
      · rw [hsame, feed_self, update_self]
      · rw [feed_of_ne _ hsame, update_of_ne hsame]
    rw [hfed, hnormal]
    exact hread
  · intro i
    by_cases hi : i = seqOutput.index
    · subst hi
      have hnone : finishReasonOf seqOutput.index turns = none := by
        rw [finishReasonOf, Option.bind_eq_none_iff]
        intro output houtput
        have hmem := mem_of_getLast? houtput
        rw [outputsOf, mem_filter] at hmem
        exact hopen output hmem.1 (by simpa using hmem.2)
      have htold := h.clients seqOutput.index
      rw [hnone] at htold
      have hnow := (hsent _ _ htold).2 rfl rfl
      refine hnow.trans ((congrArg some hclient).trans ?_)
      rw [finishReasonOf, textsOf, textsOf, outputsOf_concat_self, map_append,
        increments_append, List.getLast?_concat]
      rfl
    · have htold := (hsent i _ (h.clients i)).1 hi
      rw [finishReasonOf, textsOf] at htold
      rw [htold, finishReasonOf, textsOf, outputsOf_concat_of_ne turns hi]

theorem Streamed.turns (hacc : ∀ n, env.accepts n = true) (later : List SequenceOutput)
    {turns : List SequenceOutput} (h : Streamed toolCalls reasoning st turns)
    (hlast : (turns ++ later).Pairwise fun output later =>
      output.index = later.index → output.finishReason = none) :
    ∃ st', later.foldlM (ChatStream.sendSequenceOutput env) st = .ok st' ∧
      Streamed toolCalls reasoning st' (turns ++ later) := by
  induction later generalizing st turns with
  | nil => exact ⟨st, rfl, by rwa [append_nil]⟩
  | cons seqOutput later ih =>
    have hopen := (pairwise_append.mp hlast).2.2
    obtain ⟨st₁, hst₁, h₁⟩ := h.turn hacc seqOutput fun output houtput =>
      hopen output houtput seqOutput mem_cons_self
    rw [append_cons] at hlast ⊢
    obtain ⟨st₂, hst₂, h₂⟩ := ih h₁ hlast
    refine ⟨st₂, ?_, h₂⟩
    rw [foldlM_cons, hst₁, ok_bind, hst₂]

/-- What a callback does beside its outputs is not seen by a sequence. -/
theorem Streamed.output (hacc : ∀ n, env.accepts n = true) (includeUsage : Bool)
    {turns : List SequenceOutput}
    (h : Streamed toolCalls reasoning st turns) (output : RequestOutput)
    (hlast : (turns ++ output.outputs).Pairwise fun output later =>
      output.index = later.index → output.finishReason = none) :
    ∃ st', ChatStream.sendDeltaToClientBrpc env includeUsage st output = .ok st' ∧
      Streamed toolCalls reasoning st' (turns ++ output.outputs) := by
  have hresized : Streamed toolCalls reasoning (st.checkResize output) turns := by
    rw [ParserStream.checkResize]
    split
    · exact h
    · exact ⟨h.read.checkResize _, h.clients⟩
  obtain ⟨st₁, hst₁, h₁⟩ := hresized.turns hacc output.outputs hlast
  have husage : ∃ w, st₁.writer.sendUsage env includeUsage output = .ok w ∧
      ∀ i, readChoice i w.chunks = readChoice i st₁.writer.chunks := by
    rw [ChatWriter.sendUsage]
    cases output.usage with
    | none => exact ⟨_, rfl, fun _ => rfl⟩
    | some usage =>
      dsimp only
      split
      · refine ⟨_, ChatWriter.write_ok hacc _ _, fun i => ?_⟩
        rw [readChoice_concat (h₁.clients i), h₁.clients i, ChoiceReader.receive, if_neg]
        intro hsame
        cases hsame
      · exact ⟨_, rfl, fun _ => rfl⟩
  obtain ⟨w, hw, hsame⟩ := husage
  rw [ChatStream.sendDeltaToClientBrpc, hst₁, ok_bind, hw, ok_bind]
  split
  · exact ⟨_, rfl, h₁.read, fun i => (hsame i).trans (h₁.clients i)⟩
  · exact ⟨_, rfl, h₁.read, fun i => (hsame i).trans (h₁.clients i)⟩

/-- The outputs of all callbacks of a request. -/
def turnsOf (outputs : List RequestOutput) : List SequenceOutput := outputs.flatMap (·.outputs)

theorem Streamed.run (hacc : ∀ n, env.accepts n = true) (includeUsage : Bool)
    (outputs : List RequestOutput)
    {turns : List SequenceOutput} (h : Streamed toolCalls reasoning st turns)
    (hlast : (turns ++ turnsOf outputs).Pairwise fun output later =>
      output.index = later.index → output.finishReason = none) :
    ∃ st', outputs.foldlM (ChatStream.sendDeltaToClientBrpc env includeUsage) st = .ok st' ∧
      Streamed toolCalls reasoning st' (turns ++ turnsOf outputs) := by
  induction outputs generalizing st turns with
  | nil => exact ⟨st, rfl, by rw [turnsOf, flatMap_nil, append_nil]; exact h⟩
  | cons output outputs ih =>
    have hcons : turnsOf (output :: outputs) = output.outputs ++ turnsOf outputs :=
      flatMap_cons
    rw [hcons, ← List.append_assoc] at hlast ⊢
    obtain ⟨st₁, hst₁, h₁⟩ := h.output hacc includeUsage output (pairwise_append.mp hlast).1
    obtain ⟨st₂, hst₂, h₂⟩ := ih h₁ hlast
    refine ⟨st₂, ?_, h₂⟩
    rw [foldlM_cons, hst₁, ok_bind, hst₂]

end Runs

/-! ## A parser that holds the start of a marker -/

/-- It keeps a `<` at the end of its text until it sees what follows. -/
def markerParser : FunctionCallParser Text where
  hasToolCall _ := false
  parsesResponseEnvelope := false
  parseNonStream _ := none
  initial := []
  parseStreamingIncrement held text :=
    if text ≠ [] ∧ (held ++ text).getLast? = some '<' then
      ({ normalText := (held ++ text).dropLast }, ['<'])
    else ({ normalText := held ++ text }, [])
  prevToolCallArguments _ := []
  streamedArgsForTool _ := []

theorem markerParser_step (held text : Text) :
    (markerParser.transducer.step held text).1.normalText ++
        (markerParser.transducer.step held text).2 = held ++ text ∧
      (markerParser.transducer.step held text).1.calls = [] := by
  simp only [FunctionCallParser.transducer, markerParser]
  split
  · rename_i h
    obtain ⟨pre, hpre⟩ := List.getLast?_eq_some_iff.mp h.2
    rw [hpre, dropLast_concat]
    exact ⟨rfl, rfl⟩
  · exact ⟨append_nil _, rfl⟩

theorem markerParser_outputsFrom (texts : List Text) (held : Text) :
    contentText (markerParser.transducer.outputsFrom held texts) ++
        markerParser.transducer.stateFrom held texts = held ++ texts.flatten ∧
      callItems (markerParser.transducer.outputsFrom held texts) = [] := by
  induction texts generalizing held with
  | nil => exact ⟨(append_nil _).symm, rfl⟩
  | cons text texts ih =>
    obtain ⟨htext, hcalls⟩ := markerParser_step held text
    obtain ⟨hrest, hnone⟩ := ih (markerParser.transducer.step held text).2
    rw [Transducer.outputsFrom, Transducer.stateFrom]
    constructor
    · rw [contentText, flatMap_cons, List.append_assoc]
      refine (congrArg (_ ++ ·) hrest).trans ?_
      rw [← List.append_assoc, htext, flatten_cons, List.append_assoc]
    · rw [callItems, flatMap_cons, hcalls]
      exact hnone

theorem markerParser_streams : markerParser.Streams := by
  have whole : ∀ texts : List Text,
      contentText (markerParser.transducer.outputs (texts ++ [[]])) = texts.flatten := by
    intro texts
    have h := (markerParser_outputsFrom (texts ++ [[]]) []).1
    have hstate : markerParser.transducer.stateFrom [] (texts ++ [[]]) = [] := by
      rw [Transducer.stateFrom_append]
      rfl
    rw [hstate, append_nil, nil_append, flatten_append] at h
    exact h.trans (append_nil _)
  refine ⟨fun texts _ => ?_, fun texts _ => ?_, fun texts _ k arguments hk => ?_⟩
  · rw [whole]
    rfl
  · have hnone := (markerParser_outputsFrom (texts ++ [[]]) []).2
    exact congrArg (fun items : List ToolCallItem => assembled (items.map (·.toDelta))) hnone
  · cases hk

/-- Two sequences whose outputs come in turn, and a sequence that ends in `<`. -/
def interleavedOutputs : List RequestOutput :=
  [{ outputs := [{ index := 0, text := "a <".toList }, { index := 1, text := "b".toList }] },
    { outputs := [{ index := 1, text := [], finishReason := some "stop".toList }] },
    { outputs := [{ index := 0, text := " c".toList, finishReason := some "stop".toList }]
      finished := true }]

def markerAtEnd : List RequestOutput :=
  [{ outputs := [{ index := 0, text := "x <".toList, finishReason := some "length".toList }]
     finished := true }]

def markerStream : Option (StreamOutputParser Text Unit) :=
  some (.create (some markerParser) none)

def everyWrite : Surroundings := { accepts := fun _ => true, shortUuid := fun _ => [] }

theorem finishesLast_interleaved : FinishesLast (turnsOf interleavedOutputs) :=
  ⟨by decide, by decide⟩

/-- Every item without a call, and nothing is held behind these texts. -/
theorem nothingHeld_of_marker {fed : List Text}
    (hheld : contentText (heldContent (some markerParser)
      (none : Option (ReasoningParser Unit)) fed) = []) :
    NothingHeld (some markerParser) (none : Option (ReasoningParser Unit)) fed := by
  have hitems : ∀ texts, callItems (markerParser.transducer.outputs texts) = [] :=
    fun texts => (markerParser_outputsFrom texts []).2
  have hnone : callDeltas (some markerParser) (none : Option (ReasoningParser Unit)) fed = [] := by
    rw [callDeltas, toolOutputs, hitems]
    rfl
  have hheldCalls : callItems (heldContent (some markerParser)
      (none : Option (ReasoningParser Unit)) fed) = [] := by
    rw [heldContent]
    split
    · rfl
    · exact (markerParser_outputsFrom _ _).2
  refine ⟨fun c hc => (by cases hc), fun c hc => ?_, ?_⟩
  · rw [hheld] at hc
    cases hc
  · rw [hheldCalls, restDeltas, hnone]
    exact ⟨fun i hi => (by cases hi), rfl⟩

/-! ## Delivery -/

def wholeOutputs (turns : List SequenceOutput) : List SequenceOutput :=
  (turns.map (·.index)).eraseDups.map fun i =>
    { index := i
      text := (textsOf i turns).flatten
      finishReason := finishReasonOf i turns }

/-- The parsers of a stream are new ones, or there is nothing to parse. -/
def MadeFor (parser : Option (StreamOutputParser σ ρ)) (toolCalls : Option (FunctionCallParser σ))
    (reasoning : Option (ReasoningParser ρ)) : Prop :=
  parser = some (.create toolCalls reasoning) ∨ (parser = none ∧ toolCalls = none ∧ reasoning = none)

/-- Every choice of the whole texts is what the stream told its client. -/
def DeliversWhole (env : Surroundings) (includeUsage : Bool)
    (parser : Option (StreamOutputParser σ ρ)) (toolCalls : Option (FunctionCallParser σ))
    (reasoning : Option (ReasoningParser ρ)) (outputs : List RequestOutput) : Prop :=
  ∃ st, chatStream env includeUsage parser outputs = .ok st ∧
    ∀ choice ∈ sendResultToClientBrpc env toolCalls reasoning 0 (wholeOutputs (turnsOf outputs)),
      ∃ r, readChoice choice.index st.writer.chunks = some r ∧ SameMessage r choice

theorem FinishesLast.finishReasonOf {turns : List SequenceOutput} (h : FinishesLast turns)
    {output : SequenceOutput} (houtput : output ∈ turns) :
    ∃ finishReason, finishReasonOf output.index turns = some finishReason := by
  obtain ⟨last, hlast, hindex, hreason⟩ := h.reaches output houtput
  have hmem : last ∈ outputsOf output.index turns := by
    rw [outputsOf, mem_filter]
    exact ⟨hlast, by simpa using hindex⟩
  obtain ⟨pre, final, hsplit⟩ := (eq_nil_or_concat _).resolve_left (ne_nil_of_mem hmem)
  rw [concat_eq_append] at hsplit
  have hpairs : (outputsOf output.index turns).Pairwise fun output later =>
      output.index = later.index → output.finishReason = none := h.before.filter _
  rw [ApiService.finishReasonOf, hsplit, List.getLast?_concat]
  rw [hsplit, mem_append, mem_singleton] at hmem
  rcases hmem with hpre | rfl
  · -- an earlier output of the sequence has no finish reason
    have hfinal : final ∈ outputsOf output.index turns := by
      rw [hsplit]
      exact mem_append_right _ mem_cons_self
    rw [outputsOf, mem_filter] at hfinal
    rw [hsplit] at hpairs
    have hnone := (pairwise_append.mp hpairs).2.2 last hpre final mem_cons_self
      (hindex.trans (beq_iff_eq.mp hfinal.2).symm)
    rw [hnone] at hreason
    cases hreason
  · exact Option.isSome_iff_exists.mp hreason

@[simp] theorem resultChoice_index (env : Surroundings)
    (toolCalls : Option (FunctionCallParser σ)) (reasoning : Option (ReasoningParser ρ)) (ids : Nat)
    (output : SequenceOutput) :
    (resultChoice env toolCalls reasoning ids output).index = output.index := by
  rw [resultChoice.eq_def]
  cases toolCalls with
  | none => rfl
  | some m =>
    dsimp only
    split <;> rfl

theorem forall_sendResult {env : Surroundings} {toolCalls : Option (FunctionCallParser σ)}
    {reasoning : Option (ReasoningParser ρ)} {P : ChatChoice → Prop} {Q : SequenceOutput → Prop}
    (outputs : List SequenceOutput)
    (h : ∀ output ∈ outputs, ∀ ids, P (resultChoice env toolCalls reasoning ids output) ↔ Q output)
    (ids : Nat) :
    (∀ choice ∈ sendResultToClientBrpc env toolCalls reasoning ids outputs, P choice) ↔
      ∀ output ∈ outputs, Q output := by
  induction outputs generalizing ids with
  | nil => exact ⟨nofun, nofun⟩
  | cons output outputs ih =>
    rw [sendResultToClientBrpc, forall_mem_cons, forall_mem_cons,
      h output mem_cons_self,
      ih (fun output houtput => h output (mem_cons_of_mem _ houtput))]

theorem deliversWhole_iff_nothingHeld {env : Surroundings} (hacc : ∀ n, env.accepts n = true)
    (includeUsage : Bool) {parser : Option (StreamOutputParser σ ρ)}
    {toolCalls : Option (FunctionCallParser σ)} {reasoning : Option (ReasoningParser ρ)}
    (hparser : MadeFor parser toolCalls reasoning)
    (htoolCalls : ∀ m, toolCalls = some m → m.Streams)
    (hreasoning : ∀ m, reasoning = some m → m.Streams) (outputs : List RequestOutput)
    (hlast : FinishesLast (turnsOf outputs)) :
    DeliversWhole env includeUsage parser toolCalls reasoning outputs ↔
      ∀ output ∈ turnsOf outputs, NothingHeld toolCalls reasoning
        (increments (textsOf output.index (turnsOf outputs))) := by
  have hstart : ReadSoFar toolCalls reasoning parser (fun _ => []) fun _ => [] := by
    rcases hparser with rfl | ⟨rfl, rfl, rfl⟩
    · exact .start toolCalls reasoning
    · exact .start_none
  obtain ⟨st, hst, hstreamed⟩ := (Streamed.start hstart).run hacc includeUsage outputs hlast.before
  rw [nil_append] at hstreamed
  -- one choice, for whatever ids its calls are given
  have hone : ∀ output ∈ wholeOutputs (turnsOf outputs), ∀ ids,
      (∃ r, readChoice (resultChoice env toolCalls reasoning ids output).index st.writer.chunks =
          some r ∧ SameMessage r (resultChoice env toolCalls reasoning ids output)) ↔
        NothingHeld toolCalls reasoning
          (increments (textsOf output.index (turnsOf outputs))) := by
    intro output houtput ids
    rw [wholeOutputs, mem_map] at houtput
    obtain ⟨i, hi, rfl⟩ := houtput
    rw [mem_eraseDups, mem_map] at hi
    obtain ⟨turn, hturn, rfl⟩ := hi
    obtain ⟨finishReason, hfinish⟩ := hlast.finishReasonOf hturn
    have hread := hstreamed.clients turn.index
    have hsame := sameMessage_iff toolCalls (increments (textsOf turn.index (turnsOf outputs)))
      hreasoning htoolCalls (fun text htext => ne_nil_of_mem_increments htext) env ids turn.index
      finishReason
    rw [flatten_increments] at hsame
    rw [resultChoice_index, hread, hfinish, ← hsame]
    constructor
    · rintro ⟨r, hr, hmessage⟩
      cases hr
      exact hmessage
    · intro hmessage
      exact ⟨_, rfl, hmessage⟩
  have hall := forall_sendResult (P := fun choice => ∃ r,
    readChoice choice.index st.writer.chunks = some r ∧ SameMessage r choice) _ hone 0
  have hindices : (∀ output ∈ wholeOutputs (turnsOf outputs), NothingHeld toolCalls reasoning
        (increments (textsOf output.index (turnsOf outputs)))) ↔
      ∀ output ∈ turnsOf outputs, NothingHeld toolCalls reasoning
        (increments (textsOf output.index (turnsOf outputs))) := by
    rw [wholeOutputs, forall_mem_map]
    simp only [mem_eraseDups, forall_mem_map]
  rw [← hindices, ← hall]
  constructor
  · rintro ⟨st', hst', hchoices⟩
    rw [chatStream, hst] at hst'
    cases hst'
    exact hchoices
  · intro hchoices
    exact ⟨st, hst, hchoices⟩

theorem deliversWhole_interleaved :
    DeliversWhole everyWrite false markerStream (some markerParser) none interleavedOutputs := by
  refine (deliversWhole_iff_nothingHeld (fun _ => rfl) false (.inl rfl)
    (fun m hm => Option.some.inj hm ▸ markerParser_streams) (fun m hm => absurd hm (by simp))
    interleavedOutputs finishesLast_interleaved).mpr fun output houtput => ?_
  refine nothingHeld_of_marker ?_
  revert output
  decide +kernel

/-- What a parser holds back at the finish is lost. -/
theorem held_marker_lost :
    markerParser.Streams ∧ FinishesLast (turnsOf markerAtEnd) ∧
      ¬ DeliversWhole everyWrite false markerStream (some markerParser) none markerAtEnd := by
  refine ⟨markerParser_streams, ⟨by decide, by decide⟩, ?_⟩
  rintro ⟨st, hst, hchoices⟩
  have hchunks : st.writer.chunks =
      [.role 0, .content 0 "x ".toList, .finish 0 "length".toList] := by
    have hrun := congrArg (fun x : Except ChatWriteFailed (ParserStream ChatWriter Text Unit) =>
      match x with
      | .ok st => st.writer.chunks
      | .error _ => []) hst
    exact hrun.symm
  obtain ⟨r, hr, hmessage⟩ := hchoices
    { index := 0, content := "x <".toList, finishReason := "length".toList } mem_cons_self
  rw [hchunks] at hr
  cases hr
  exact absurd hmessage.content (by decide +kernel)

end Xllm.ApiService
