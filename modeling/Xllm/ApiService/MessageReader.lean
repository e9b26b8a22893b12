import Xllm.ApiService.AnthropicStream

/-!
# What a client reads

A client follows the events of a stream one by one and rejects the first that does not fit: a block
starts when no other is open and has the next index, its deltas and its stop have that index, and
behind the last block come one `message_delta` and one `message_stop`. `MessageReader.receive` is this
client. `Shown` relates it to the writer of the stream: the client has read what was written, and the
writer's index and type are those of the block the client has open.
-/

namespace Xllm.ApiService

open Xllm.Lib

structure ReadBlock where
  block : ContentBlock
  deltas : List Text := []
  deriving DecidableEq, Repr

namespace ReadBlock

def append (b : ReadBlock) (content : Text) : ReadBlock :=
  { b with deltas := b.deltas ++ [content] }

end ReadBlock

def ContentBlock.type : ContentBlock → ContentBlockType
  | .text => .text
  | .toolUse .. => .toolUse

namespace Delta

def content : Delta → Text
  | .textDelta text => text
  | .inputJsonDelta partialJson => partialJson

def type : Delta → ContentBlockType
  | .textDelta _ => .text
  | .inputJsonDelta _ => .toolUse

end Delta

inductive MessagePhase
  | body
  | ended
  | stopped
  deriving DecidableEq, Repr

structure MessageReader where
  blocks : List ReadBlock := []
  current : Option ReadBlock := none
  phase : MessagePhase := .body
  deriving DecidableEq, Repr

namespace MessageReader

def receive (r : MessageReader) : StreamEvent → Option MessageReader
  | .contentBlockStart index block =>
    if r.phase = .body ∧ r.current = none ∧ index = r.blocks.length then
      some { r with current := some { block } }
    else none
  | .contentBlockDelta index delta =>
    match r.current with
    | none => none
    | some b =>
      if index = r.blocks.length ∧ delta.type = b.block.type then
        some { r with current := some (b.append delta.content) }
      else none
  | .contentBlockStop index =>
    match r.current with
    | none => none
    | some b =>
      if index = r.blocks.length then some { r with blocks := r.blocks ++ [b], current := none }
      else none
  | .messageDelta .. =>
    if r.phase = .body ∧ r.current = none then some { r with phase := .ended } else none
  | .messageStop => if r.phase = .ended then some { r with phase := .stopped } else none

def read (events : List StreamEvent) : Option MessageReader :=
  events.foldlM receive {}

def message (events : List StreamEvent) : Option (List ReadBlock) :=
  match read events with
  | some r => if r.phase = .stopped then some r.blocks else none
  | none => none

theorem read_concat {events : List StreamEvent} {r r' : MessageReader} {event : StreamEvent}
    (h : read events = some r) (he : r.receive event = some r') :
    read (events ++ [event]) = some r' := by
  rw [read, List.foldlM_append, ← read, h]
  simp [he]

/-! ## Blocks as a client has them -/

def all (r : MessageReader) : List ReadBlock := r.blocks ++ r.current.toList

def openBlock (r : MessageReader) (block : ContentBlock) : MessageReader :=
  { r with blocks := r.all, current := some { block } }

def append (r : MessageReader) (content : Text) : MessageReader :=
  { r with current := r.current.map (·.append content) }

def currentType (r : MessageReader) : Option ContentBlockType :=
  r.current.map (·.block.type)

@[simp] theorem append_currentType (r : MessageReader) (content : Text) :
    (r.append content).currentType = r.currentType := by
  cases r with
  | mk blocks current phase => cases current <;> rfl

theorem openBlock_all (r : MessageReader) (block : ContentBlock) :
    (r.openBlock block).all = r.all ++ [ReadBlock.mk block []] := rfl

theorem append_all {r : MessageReader} {b : ReadBlock} (h : r.current = some b) (content : Text) :
    (r.append content).all = r.blocks ++ [b.append content] := by
  rw [all, append, h]
  rfl

/-- A text delta opens a block unless text is open. -/
def textDelta (r : MessageReader) (text : Text) : MessageReader :=
  (if r.currentType = some .text then r else r.openBlock .text).append text

/-- Arguments that are empty are not shown. -/
def addArguments (r : MessageReader) (arguments : Text) : MessageReader :=
  if arguments = [] then r else r.append arguments

/-- A tool use delta opens a block when it has a name or no call is open. -/
def toolUseDelta (r : MessageReader) (call : FunctionCallInfo) : MessageReader :=
  (if r.currentType = some .toolUse ∧ call.name = [] then r
    else r.openBlock (.toolUse call.id call.name)).addArguments call.arguments

end MessageReader

/-! ## The writer and its client -/

/-- The client has read what was written, and both agree on the open block. -/
structure Shown (w : BlockWriter) (r : MessageReader) : Prop where
  read : MessageReader.read w.events = some r
  body : r.phase = .body
  index : w.contentBlockIndex = (r.all.length : Int) - 1
  type : w.lastContentBlockType = r.currentType
  empty : r.current = none → r.blocks = []

namespace Shown

open BlockWriter

variable {env : Surroundings} {w : BlockWriter} {r : MessageReader}

theorem start : Shown {} {} where
  read := rfl
  body := rfl
  index := rfl
  type := rfl
  empty := fun _ => rfl

theorem write_ok (hacc : ∀ n, env.accepts n = true) (event : StreamEvent) :
    w.write env event = .ok { w with events := w.events ++ [event] } := by
  rw [write, if_pos (hacc _)]

theorem index_of_open {b : ReadBlock} (h : Shown w r) (hb : r.current = some b) :
    w.contentBlockIndex = r.blocks.length := by
  rw [h.index, MessageReader.all, hb]
  simp

/-- A new block closes the one that is open. -/
theorem startNewContentBlock (h : Shown w r) (hacc : ∀ n, env.accepts n = true)
    (type : ContentBlockType) (call : FunctionCallInfo) :
    ∃ w', w.startNewContentBlock env type call = .ok w' ∧
      Shown w' (r.openBlock (contentBlock type call)) := by
  rw [BlockWriter.startNewContentBlock]
  have hkind : some type = some (contentBlock type call).type := by cases type <;> rfl
  cases hb : r.current with
  | none =>
    -- nothing was written before
    have hlast : w.lastContentBlockType = none := by rw [h.type, MessageReader.currentType, hb]; rfl
    have hall : r.all = [] := by rw [MessageReader.all, hb, h.empty hb]; rfl
    rw [if_pos hlast, ok_bind]
    refine ⟨_, write_ok hacc _, ?_, h.body, ?_, hkind,
      nofun⟩
    · refine MessageReader.read_concat h.read ?_
      have hindex : w.contentBlockIndex = -1 := by rw [h.index, hall]; rfl
      rw [MessageReader.receive, if_pos ⟨h.body, hb, by rw [hindex, h.empty hb]; rfl⟩,
        MessageReader.openBlock, hall, h.empty hb]
    · rw [h.index, MessageReader.openBlock_all, List.length_append]
      simp
  | some b =>
    have hlast : w.lastContentBlockType ≠ none := by
      rw [h.type, MessageReader.currentType, hb]
      exact Option.some_ne_none _
    have hall : r.all = r.blocks ++ [b] := by rw [MessageReader.all, hb]; rfl
    rw [if_neg hlast, write_ok hacc, ok_bind]
    refine ⟨_, write_ok hacc _, ?_, h.body, ?_, hkind,
      nofun⟩
    · have hstop : r.receive (.contentBlockStop w.contentBlockIndex) =
          some { r with blocks := r.blocks ++ [b], current := none } := by
        rw [MessageReader.receive, hb]
        exact if_pos (h.index_of_open hb)
      refine MessageReader.read_concat (MessageReader.read_concat h.read hstop) ?_
      rw [MessageReader.receive,
        if_pos ⟨h.body, rfl, by rw [h.index_of_open hb, List.length_append]; rfl⟩,
        MessageReader.openBlock, hall]
    · rw [h.index, MessageReader.openBlock_all, List.length_append]
      simp

theorem write_delta (h : Shown w r) (hacc : ∀ n, env.accepts n = true) (delta : Delta)
    (htype : r.currentType = some delta.type) :
    ∃ w', w.write env (.contentBlockDelta w.contentBlockIndex delta) = .ok w' ∧
      Shown w' (r.append delta.content) := by
  cases hb : r.current with
  | none => rw [MessageReader.currentType, hb] at htype; cases htype
  | some b =>
    rw [MessageReader.currentType, hb] at htype
    refine ⟨_, write_ok hacc _, ?_, h.body, ?_, ?_, ?_⟩
    · refine MessageReader.read_concat h.read ?_
      rw [MessageReader.receive, hb]
      refine (if_pos ⟨h.index_of_open hb, (Option.some.inj htype).symm⟩).trans ?_
      rw [MessageReader.append, hb]
      rfl
    · rw [MessageReader.append_all hb, h.index, MessageReader.all, hb]
      simp
    · rw [MessageReader.append_currentType]
      exact h.type
    · intro hnone
      rw [MessageReader.append, hb] at hnone
      cases hnone

theorem sendTextDelta (h : Shown w r) (hacc : ∀ n, env.accepts n = true) (text : Text) :
    ∃ w', w.sendTextDelta env text = .ok w' ∧ Shown w' (r.textDelta text) := by
  rw [BlockWriter.sendTextDelta, MessageReader.textDelta, h.type]
  by_cases hopen : r.currentType = some .text
  · rw [if_pos hopen, if_pos hopen, ok_bind]
    exact h.write_delta hacc (.textDelta text) hopen
  · rw [if_neg hopen, if_neg hopen]
    obtain ⟨w₁, hw₁, h₁⟩ := h.startNewContentBlock hacc .text {}
    rw [hw₁, ok_bind]
    exact h₁.write_delta hacc (.textDelta text) rfl

theorem sendToolUseDelta (h : Shown w r) (hacc : ∀ n, env.accepts n = true)
    (call : FunctionCallInfo) :
    ∃ w', w.sendToolUseDelta env call = .ok w' ∧ Shown w' (r.toolUseDelta call) := by
  -- behind the test of the name a call is open on both sides
  have args : ∀ {w₁ r₁}, Shown w₁ r₁ → r₁.currentType = some .toolUse →
      ∃ w', (if call.arguments = [] then .ok w₁
          else w₁.write env
            (.contentBlockDelta w₁.contentBlockIndex (.inputJsonDelta call.arguments))) = .ok w' ∧
        Shown w' (r₁.addArguments call.arguments) := by
    intro w₁ r₁ h₁ htype
    rw [MessageReader.addArguments]
    by_cases hargs : call.arguments = []
    · rw [if_pos hargs, if_pos hargs]
      exact ⟨w₁, rfl, h₁⟩
    · rw [if_neg hargs, if_neg hargs]
      exact h₁.write_delta hacc (.inputJsonDelta call.arguments) htype
  rw [BlockWriter.sendToolUseDelta, MessageReader.toolUseDelta, h.type]
  by_cases hopen : r.currentType = some .toolUse ∧ call.name = []
  · rw [if_pos hopen, if_pos hopen, ok_bind]
    exact args h hopen.1
  · rw [if_neg hopen, if_neg hopen]
    obtain ⟨w₁, hw₁, h₁⟩ := h.startNewContentBlock hacc .toolUse call
    rw [hw₁, ok_bind]
    exact args h₁ rfl

end Shown

end Xllm.ApiService
