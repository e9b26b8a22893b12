import Xllm.ApiService.MessageReader

/-!
# Pieces as events

The Anthropic stream writes one piece after the other, and a client that reads what is written has the
blocks of `Drawing` (`message_of_run`).
-/

namespace Xllm.ApiService

open Xllm.Lib List

/-! ## Drawing pieces -/

/-- The blocks a client has, and the number of ids that were given. -/
structure Drawing where
  reader : MessageReader := {}
  ids : Nat := 0

namespace Drawing

def addItem (env : Surroundings) (d : Drawing) (item : ToolCallItem) : Drawing :=
  match item.name with
  | none => { d with reader := d.reader.toolUseDelta { arguments := item.parameters } }
  | some name =>
    { reader :=
        d.reader.toolUseDelta
          { id := generateToolCallId env d.ids, name, arguments := item.parameters }
      ids := d.ids + 1 }

def add (env : Surroundings) (d : Drawing) : Piece → Drawing
  | .reasoning text => { d with reader := d.reader.textDelta text }
  | .text text => { d with reader := d.reader.textDelta text }
  | .item item => d.addItem env item
  | .rest arguments toolIndex => d.addItem env ⟨toolIndex, none, arguments⟩

def addAll (env : Surroundings) (d : Drawing) (pieces : List Piece) : Drawing :=
  pieces.foldl (add env) d

@[simp] theorem addAll_cons (env : Surroundings) (d : Drawing) (piece : Piece)
    (pieces : List Piece) : d.addAll env (piece :: pieces) = (d.add env piece).addAll env pieces :=
  rfl

theorem addAll_append (env : Surroundings) (d : Drawing) (pieces pieces' : List Piece) :
    d.addAll env (pieces ++ pieces') = (d.addAll env pieces).addAll env pieces' :=
  foldl_append

end Drawing

/-! ## The stream draws its pieces -/

section Outputs

variable {σ ρ : Type}

def turnsPieces (parser : Option (StreamOutputParser σ ρ)) : List SequenceOutput → Parsed σ ρ
  | [] => ⟨[], parser⟩
  | seqOutput :: outputs =>
    let turn := turnPieces parser seqOutput
    let parsed := turnsPieces turn.parser outputs
    ⟨turn.pieces ++ parsed.pieces, parsed.parser⟩

def outputPieces (parser : Option (StreamOutputParser σ ρ)) (output : RequestOutput) :
    Parsed σ ρ :=
  turnsPieces
    (if output.outputs.isEmpty then parser
      else parser.map (·.checkResizeForIndex (output.outputs.length - 1)))
    output.outputs

def runPieces (parser : Option (StreamOutputParser σ ρ)) : List RequestOutput → List Piece
  | [] => []
  | output :: outputs =>
    let parsed := outputPieces parser output
    parsed.pieces ++ runPieces parsed.parser outputs

end Outputs

structure Drawn (w : AnthropicWriter) (d : Drawing) : Prop where
  shown : Shown w.blocks d.reader
  ids : w.toolCallIds = d.ids

namespace Drawn

variable {env : Surroundings} {w : AnthropicWriter} {d : Drawing}

theorem sendText (h : Drawn w d) (hacc : ∀ n, env.accepts n = true) (text : Text) :
    ∃ w', w.sendText env text = .ok w' ∧
      Drawn w' { d with reader := d.reader.textDelta text } := by
  obtain ⟨blocks, hblocks, hshown⟩ := h.shown.sendTextDelta hacc text
  refine ⟨{ w with blocks }, ?_, hshown, h.ids⟩
  rw [AnthropicWriter.sendText, hblocks, ok_bind]

/-- An item is drawn in the same way whether a parser gave it or it is what remained. -/
theorem sendCallItem (h : Drawn w d) (hacc : ∀ n, env.accepts n = true) (item : ToolCallItem) :
    ∃ w', w.sendCallItem env item = .ok w' ∧ Drawn w' (d.addItem env item) := by
  rw [AnthropicWriter.sendCallItem, Drawing.addItem]
  cases item.name with
  | none =>
    obtain ⟨blocks, hblocks, hshown⟩ :=
      h.shown.sendToolUseDelta hacc { arguments := item.parameters }
    refine ⟨{ w with blocks }, ?_, hshown, h.ids⟩
    rw [hblocks, ok_bind]
  | some name =>
    rw [h.ids]
    obtain ⟨blocks, hblocks, hshown⟩ := h.shown.sendToolUseDelta hacc
      { id := generateToolCallId env d.ids, name, arguments := item.parameters }
    refine ⟨{ w with blocks, toolCallIds := d.ids + 1 }, ?_, hshown, rfl⟩
    simp only [hblocks, ok_bind]

theorem send (h : Drawn w d) (hacc : ∀ n, env.accepts n = true) (index : Nat) (piece : Piece) :
    ∃ w', (AnthropicWriter.sink env).send index w piece = .ok w' ∧ Drawn w' (d.add env piece) := by
  cases piece with
  | reasoning text => exact h.sendText hacc text
  | text text => exact h.sendText hacc text
  | item item => exact h.sendCallItem hacc item
  | rest arguments toolIndex => exact h.sendCallItem hacc ⟨toolIndex, none, arguments⟩

theorem sendAll (h : Drawn w d) (hacc : ∀ n, env.accepts n = true) (index : Nat)
    (pieces : List Piece) :
    ∃ w', (AnthropicWriter.sink env).sendAll index w pieces = .ok w' ∧
      Drawn w' (d.addAll env pieces) := by
  induction pieces generalizing w d with
  | nil => exact ⟨w, rfl, h⟩
  | cons piece pieces ih =>
    obtain ⟨w₁, hw₁, h₁⟩ := h.send hacc index piece
    obtain ⟨w₂, hw₂, h₂⟩ := ih h₁
    refine ⟨w₂, ?_, h₂⟩
    rw [PieceSink.sendAll, foldlM_cons, hw₁, ok_bind]
    exact hw₂

theorem sendSequenceOutputs {σ ρ : Type} (hacc : ∀ n, env.accepts n = true)
    (outputs : List SequenceOutput) (h : Drawn w d) (parser : Option (StreamOutputParser σ ρ))
    (last : OutputEnd) :
    ∃ w' last', outputs.foldlM (AnthropicStream.sendSequenceOutput env) (⟨w, parser⟩, last) =
        .ok (⟨w', (turnsPieces parser outputs).parser⟩, last') ∧
      Drawn w' (d.addAll env (turnsPieces parser outputs).pieces) := by
  induction outputs generalizing w d parser last with
  | nil => exact ⟨w, last, rfl, h⟩
  | cons seqOutput outputs ih =>
    obtain ⟨w₁, hw₁, h₁⟩ := h.sendAll hacc seqOutput.index (turnPieces parser seqOutput).pieces
    have hturn : AnthropicStream.sendSequenceOutput env (⟨w, parser⟩, last) seqOutput =
        .ok (⟨w₁, (turnPieces parser seqOutput).parser⟩,
          { finishReason := seqOutput.finishReason.getD last.finishReason
            hasToolCall := last.hasToolCall ||
              calledBy (turnPieces parser seqOutput).parser seqOutput.index }) := by
      rw [AnthropicStream.sendSequenceOutput, ParserStream.sendSequencePieces_eq, hw₁]
      rfl
    obtain ⟨w₂, last₂, hw₂, h₂⟩ := ih h₁ (turnPieces parser seqOutput).parser
      { finishReason := seqOutput.finishReason.getD last.finishReason
        hasToolCall := last.hasToolCall ||
          calledBy (turnPieces parser seqOutput).parser seqOutput.index }
    refine ⟨w₂, last₂, ?_, ?_⟩
    · rw [foldlM_cons, hturn, ok_bind, hw₂]
      rfl
    · rw [turnsPieces, Drawing.addAll_append]
      exact h₂

theorem sendDeltaToClient {σ ρ : Type} (h : Drawn w d) (hacc : ∀ n, env.accepts n = true)
    (parser : Option (StreamOutputParser σ ρ)) (output : RequestOutput) :
    ∃ w' last', AnthropicStream.sendDeltaToClient env ⟨w, parser⟩ output =
        (if output.finished || output.cancelled then
            (w'.finishMessage env output last' >>= fun w =>
              .ok ⟨w, (outputPieces parser output).parser⟩)
          else .ok ⟨w', (outputPieces parser output).parser⟩) ∧
      Drawn w' (d.addAll env (outputPieces parser output).pieces) := by
  have hresize : (ParserStream.mk w parser).checkResize output =
      ⟨w, if output.outputs.isEmpty then parser
        else parser.map (·.checkResizeForIndex (output.outputs.length - 1))⟩ := by
    rw [ParserStream.checkResize]
    split <;> rfl
  rw [AnthropicStream.sendDeltaToClient, hresize, outputPieces]
  obtain ⟨w', last', hw', h'⟩ := h.sendSequenceOutputs hacc output.outputs
    (if output.outputs.isEmpty then parser
      else parser.map (·.checkResizeForIndex (output.outputs.length - 1))) {}
  exact ⟨w', last', by rw [hw', ok_bind], h'⟩

/-- The end of a message closes the block that is open. -/
theorem finishMessage (h : Drawn w d) (hacc : ∀ n, env.accepts n = true)
    (output : RequestOutput) (last : OutputEnd) :
    ∃ w', w.finishMessage env output last = .ok w' ∧
      MessageReader.message w'.blocks.events = some d.reader.all := by
  -- behind the last block
  have ending : ∀ (blocks : BlockWriter) (r : MessageReader) (stopReason : Text)
      (usage : AnthropicUsage),
      MessageReader.read blocks.events = some r → r.phase = .body → r.current = none →
      r.blocks = d.reader.all →
      ∃ w' : AnthropicWriter,
        (do
          let blocks ← blocks.write env (.messageDelta stopReason usage)
          let blocks ← blocks.write env .messageStop
          .ok { w with blocks, finished := true }) = .ok w' ∧
        MessageReader.message w'.blocks.events = some d.reader.all := by
    intro blocks r stopReason usage hread hbody hcurrent hblocks
    rw [Shown.write_ok hacc, ok_bind, Shown.write_ok hacc, ok_bind]
    refine ⟨_, rfl, ?_⟩
    have hdelta : r.receive (.messageDelta stopReason usage) = some { r with phase := .ended } :=
      if_pos ⟨hbody, hcurrent⟩
    have hstop : MessageReader.receive { r with phase := .ended } .messageStop =
        some { r with phase := .stopped } := rfl
    rw [MessageReader.message,
      MessageReader.read_concat (MessageReader.read_concat hread hdelta) hstop]
    exact (if_pos rfl).trans (congrArg some hblocks)
  simp only [AnthropicWriter.finishMessage]
  cases hb : d.reader.current with
  | none =>
    have hneg : ¬ 0 ≤ w.blocks.contentBlockIndex := by
      rw [h.shown.index, MessageReader.all, hb, h.shown.empty hb]
      simp
    rw [if_neg hneg, ok_bind]
    refine ending _ d.reader _ _ h.shown.read h.shown.body hb ?_
    rw [MessageReader.all, hb]
    exact (append_nil _).symm
  | some b =>
    have hindex := h.shown.index_of_open hb
    rw [if_pos (by rw [hindex]; exact Int.natCast_nonneg _), Shown.write_ok hacc, ok_bind]
    refine ending _ { d.reader with blocks := d.reader.blocks ++ [b], current := none } _ _
      (MessageReader.read_concat h.shown.read ?_) h.shown.body rfl ?_
    · rw [MessageReader.receive, hb]
      exact if_pos hindex
    · rw [MessageReader.all, hb]
      rfl

end Drawn

/-- Of a run whose last output ends the request, a client reads the pieces it was drawn from. -/
theorem message_of_run {σ ρ : Type} {env : Surroundings} (hacc : ∀ n, env.accepts n = true)
    (outputs : List RequestOutput) (last : RequestOutput)
    (hbody : ∀ output ∈ outputs, (output.finished || output.cancelled) = false)
    (hlast : (last.finished || last.cancelled) = true) (parser : Option (StreamOutputParser σ ρ)) :
    ∃ st, anthropicStream env parser (outputs ++ [last]) = .ok st ∧
      MessageReader.message st.writer.blocks.events =
        some (({} : Drawing).addAll env (runPieces parser (outputs ++ [last]))).reader.all := by
  have run : ∀ (outputs : List RequestOutput),
      (∀ output ∈ outputs, (output.finished || output.cancelled) = false) →
      ∀ (w : AnthropicWriter) (parser : Option (StreamOutputParser σ ρ)) (d : Drawing), Drawn w d →
        ∃ st', (outputs ++ [last]).foldlM (AnthropicStream.sendDeltaToClient env) ⟨w, parser⟩ =
            .ok st' ∧
          MessageReader.message st'.writer.blocks.events =
            some (d.addAll env (runPieces parser (outputs ++ [last]))).reader.all := by
    intro outputs
    induction outputs with
    | nil =>
      intro _ w parser d h
      obtain ⟨w₁, last₁, hw₁, h₁⟩ := h.sendDeltaToClient hacc parser last
      obtain ⟨w₂, hw₂, hmessage⟩ := h₁.finishMessage hacc last last₁
      refine ⟨⟨w₂, (outputPieces parser last).parser⟩, ?_, ?_⟩
      · rw [nil_append, foldlM_cons, hw₁, if_pos hlast, hw₂]
        rfl
      · rw [hmessage]
        simp only [nil_append, runPieces, append_nil]
    | cons output outputs ih =>
      intro hbody w parser d h
      obtain ⟨w₁, last₁, hw₁, h₁⟩ := h.sendDeltaToClient hacc parser output
      have hgoes := hbody output mem_cons_self
      obtain ⟨st₂, hst₂, hmessage⟩ :=
        ih (fun o ho => hbody o (mem_cons_of_mem _ ho)) w₁ (outputPieces parser output).parser
          _ h₁
      refine ⟨st₂, ?_, ?_⟩
      · rw [cons_append, foldlM_cons, hw₁, hgoes]
        exact hst₂
      · rw [hmessage]
        simp only [cons_append, runPieces, Drawing.addAll_append]
  exact run outputs hbody {} parser {} ⟨Shown.start, rfl⟩

end Xllm.ApiService
