import Xllm.ApiService.ChatStream

/-!
# What a client reads of a choice

A client collects the deltas of a choice until the choice finishes, and takes nothing for it after that
(`readChoice`). A turn of the stream adds the pieces of its output to the choice of the sequence and
leaves the other choices as they are (`Sent`).
-/

namespace Xllm.ApiService

open Xllm.Lib

structure ToolDelta where
  toolIndex : Int
  name : Text
  arguments : Text
  deriving DecidableEq, Repr

structure ChoiceReader where
  reasoning : Text := []
  content : Text := []
  calls : List ToolDelta := []
  finishReason : Option Text := none
  deriving DecidableEq, Repr

def ChatChunk.choice : ChatChunk → Option Nat
  | .role index => some index
  | .reasoning index _ => some index
  | .content index _ => some index
  | .toolCall index .. => some index
  | .finish index _ => some index
  | .usage _ => none

namespace ChoiceReader

def add (r : ChoiceReader) : ChatChunk → ChoiceReader
  | .role _ => r
  | .reasoning _ text => { r with reasoning := r.reasoning ++ text }
  | .content _ text => { r with content := r.content ++ text }
  | .toolCall _ _ name arguments toolIndex =>
    { r with calls := r.calls ++ [⟨toolIndex, name, arguments⟩] }
  | .finish _ finishReason => { r with finishReason := some finishReason }
  | .usage _ => r

def receive (index : Nat) (r : ChoiceReader) (chunk : ChatChunk) : Option ChoiceReader :=
  if chunk.choice = some index then
    if r.finishReason = none then some (r.add chunk) else none
  else some r

def addPiece (r : ChoiceReader) : Piece → ChoiceReader
  | .reasoning text => { r with reasoning := r.reasoning ++ text }
  | .text text => { r with content := r.content ++ text }
  | .item item => { r with calls := r.calls ++ [⟨item.toolIndex, item.name.getD [], item.parameters⟩] }
  | .rest arguments toolIndex => { r with calls := r.calls ++ [⟨toolIndex, [], arguments⟩] }

def addAll (r : ChoiceReader) (pieces : List Piece) : ChoiceReader := pieces.foldl addPiece r

@[simp] theorem addPiece_finishReason (r : ChoiceReader) (piece : Piece) :
    (r.addPiece piece).finishReason = r.finishReason := by
  cases piece <;> rfl

@[simp] theorem addAll_finishReason (pieces : List Piece) (r : ChoiceReader) :
    (r.addAll pieces).finishReason = r.finishReason := by
  induction pieces generalizing r with
  | nil => rfl
  | cons piece pieces ih => exact (ih (r.addPiece piece)).trans (r.addPiece_finishReason piece)

theorem addAll_append (r : ChoiceReader) (pieces pieces' : List Piece) :
    r.addAll (pieces ++ pieces') = (r.addAll pieces).addAll pieces' :=
  List.foldl_append

end ChoiceReader

def readChoice (index : Nat) (chunks : List ChatChunk) : Option ChoiceReader :=
  chunks.foldlM (ChoiceReader.receive index) {}

/-- Writing took the client of the sequence along by `f`, and no other client anywhere. -/
def Sent (index : Nat) (f : ChoiceReader → ChoiceReader) (w w' : ChatWriter) : Prop :=
  ∀ i r, readChoice i w.chunks = some r →
    (i ≠ index → readChoice i w'.chunks = some r) ∧
      (i = index → r.finishReason = none → readChoice i w'.chunks = some (f r))

namespace Sent

variable {index : Nat} {f g : ChoiceReader → ChoiceReader} {w w' w'' : ChatWriter}

theorem refl (index : Nat) (w : ChatWriter) : Sent index id w w :=
  fun _ _ h => ⟨fun _ => h, fun _ _ => h⟩

theorem trans (h : Sent index f w w') (h' : Sent index g w' w'')
    (hf : ∀ r, r.finishReason = none → (f r).finishReason = none) : Sent index (g ∘ f) w w'' := by
  intro i r hr
  constructor
  · intro hi
    exact (h' i r ((h i r hr).1 hi)).1 hi
  · intro hi hopen
    exact (h' i (f r) ((h i r hr).2 hi hopen)).2 hi (hf r hopen)

end Sent

section Writes

variable {env : Surroundings}

theorem ChatWriter.write_ok (hacc : ∀ n, env.accepts n = true) (w : ChatWriter)
    (chunk : ChatChunk) : w.write env chunk = .ok { w with chunks := w.chunks ++ [chunk] } := by
  rw [ChatWriter.write, if_pos (hacc _)]

theorem readChoice_concat {i : Nat} {chunks : List ChatChunk} {r : ChoiceReader}
    (h : readChoice i chunks = some r) (chunk : ChatChunk) :
    readChoice i (chunks ++ [chunk]) = r.receive i chunk := by
  rw [readChoice, List.foldlM_append, ← readChoice, h]
  simp

theorem sent_write (hacc : ∀ n, env.accepts n = true) (w : ChatWriter) (chunk : ChatChunk)
    {index : Nat} (hchoice : chunk.choice = some index) :
    ∃ w', w.write env chunk = .ok w' ∧ Sent index (fun r => r.add chunk) w w' := by
  refine ⟨_, ChatWriter.write_ok hacc w chunk, fun i r hr => ⟨fun hi => ?_, fun hi hopen => ?_⟩⟩
  · rw [readChoice_concat hr, ChoiceReader.receive, hchoice, if_neg]
    rintro h
    exact hi (Option.some.inj h).symm
  · rw [readChoice_concat hr, ChoiceReader.receive, hchoice, hi, if_pos rfl, if_pos hopen]

theorem sent_sendFirstMessage (hacc : ∀ n, env.accepts n = true) (w : ChatWriter) (index : Nat) :
    ∃ w', w.sendFirstMessage env index = .ok w' ∧ Sent index id w w' := by
  rw [ChatWriter.sendFirstMessage]
  by_cases hsent : index ∈ w.firstMessageSent
  · rw [if_pos hsent]
    exact ⟨w, rfl, .refl index w⟩
  · rw [if_neg hsent]
    exact sent_write hacc { w with firstMessageSent := w.firstMessageSent ++ [index] }
      (.role index) rfl

theorem sent_send (hacc : ∀ n, env.accepts n = true) (w : ChatWriter) (index : Nat)
    (piece : Piece) :
    ∃ w', (ChatWriter.sink env).send index w piece = .ok w' ∧
      Sent index (fun r => r.addPiece piece) w w' := by
  cases piece with
  | reasoning text =>
    obtain ⟨w', hw', hsent⟩ := sent_write hacc w (.reasoning index text) rfl
    refine ⟨w', ?_, hsent⟩
    show Except.ok (w.sendReasoningTextChunk env index text) = .ok w'
    rw [ChatWriter.sendReasoningTextChunk, hw']
  | text text => exact sent_write hacc w (.content index text) rfl
  | rest arguments toolIndex =>
    exact sent_write hacc w (.toolCall index [] [] arguments toolIndex) rfl
  | item item =>
    obtain ⟨toolIndex, name, parameters⟩ := item
    cases name with
    | none => exact sent_write hacc w (.toolCall index [] [] parameters toolIndex) rfl
    | some name =>
      exact sent_write hacc { w with toolCallIds := w.toolCallIds + 1 }
        (.toolCall index (generateToolCallId env w.toolCallIds) name parameters toolIndex)
        rfl

theorem sent_sendAll (hacc : ∀ n, env.accepts n = true) (index : Nat) (pieces : List Piece)
    (w : ChatWriter) :
    ∃ w', (ChatWriter.sink env).sendAll index w pieces = .ok w' ∧
      Sent index (fun r => r.addAll pieces) w w' := by
  induction pieces generalizing w with
  | nil => exact ⟨w, rfl, .refl index w⟩
  | cons piece pieces ih =>
    obtain ⟨w₁, hw₁, h₁⟩ := sent_send hacc w index piece
    obtain ⟨w₂, hw₂, h₂⟩ := ih w₁
    refine ⟨w₂, ?_, h₁.trans h₂ fun r hr => ?_⟩
    · rw [PieceSink.sendAll, List.foldlM_cons, hw₁, ok_bind]
      exact hw₂
    · rw [ChoiceReader.addPiece_finishReason, hr]

/-- The end of a turn: a finish reason closes the choice. -/
def ChoiceReader.finish (called : Bool) (finishReason : Option Text) (r : ChoiceReader) :
    ChoiceReader :=
  match finishReason with
  | none => r
  | some reason => { r with finishReason := some (ChatWriter.streamFinishReason called reason) }

theorem sent_sendFinish (hacc : ∀ n, env.accepts n = true) (w : ChatWriter)
    (seqOutput : SequenceOutput) (called : Bool) :
    ∃ w', w.sendFinish env seqOutput called = .ok w' ∧
      Sent seqOutput.index (ChoiceReader.finish called seqOutput.finishReason) w w' := by
  rw [ChatWriter.sendFinish]
  cases seqOutput.finishReason with
  | none => exact ⟨w, rfl, .refl _ w⟩
  | some reason =>
    exact sent_write hacc w
      (.finish seqOutput.index (ChatWriter.streamFinishReason called reason)) rfl

theorem sent_sendSequenceOutput {σ ρ : Type} (hacc : ∀ n, env.accepts n = true) (w : ChatWriter)
    (parser : Option (StreamOutputParser σ ρ)) (seqOutput : SequenceOutput) :
    ∃ w', ChatStream.sendSequenceOutput env ⟨w, parser⟩ seqOutput =
        .ok ⟨w', (turnPieces parser seqOutput).parser⟩ ∧
      Sent seqOutput.index
        (fun r => (r.addAll (turnPieces parser seqOutput).pieces).finish
          (calledBy (turnPieces parser seqOutput).parser seqOutput.index) seqOutput.finishReason)
        w w' := by
  obtain ⟨w₁, hw₁, h₁⟩ := sent_sendFirstMessage hacc w seqOutput.index
  obtain ⟨w₂, hw₂, h₂⟩ :=
    sent_sendAll hacc seqOutput.index (turnPieces parser seqOutput).pieces w₁
  obtain ⟨w₃, hw₃, h₃⟩ := sent_sendFinish hacc w₂ seqOutput
    (calledBy (turnPieces parser seqOutput).parser seqOutput.index)
  refine ⟨w₃, ?_, ?_⟩
  · rw [ChatStream.sendSequenceOutput, hw₁, ok_bind, ParserStream.sendSequencePieces_eq, hw₂,
      ok_bind, ok_bind]
    dsimp only
    rw [hw₃, ok_bind]
  · exact h₁.trans (h₂.trans h₃ fun r hr => (r.addAll_finishReason _).trans hr) fun _ hr => hr

end Writes

end Xllm.ApiService
