import Xllm.ApiService.AnthropicDrawing
import Xllm.Lib.PositionWeight

/-!
# The blocks of a message and the calls of its pieces

The pieces of a stream say which calls there are: an item with a name starts one, and every other item
adds its arguments to the call of its own tool index (`nextCalls`). The blocks a client reads follow the
pieces (`Follows`) when they hold the same text and one block for every call. A block that shows
arguments is the last one, whatever the tool index of the item, so the blocks follow the pieces exactly
when every item comes while its own call is the last block (`Attached`).
-/

namespace Xllm.ApiService

open Xllm.Lib List

/-! ## Calls -/

structure Call where
  toolIndex : Int
  name : Text
  arguments : List Text := []
  deriving DecidableEq, Repr

/-- Arguments that are empty are no piece. -/
def argumentPieces (arguments : Text) : List Text :=
  if arguments = [] then [] else [arguments]

def Call.give (toolIndex : Int) (arguments : Text) (c : Call) : Call :=
  if c.toolIndex = toolIndex then { c with arguments := c.arguments ++ argumentPieces arguments }
  else c

def nextCalls (calls : List Call) : Piece → List Call
  | .reasoning _ => calls
  | .text _ => calls
  | .item ⟨toolIndex, none, arguments⟩ => calls.map (Call.give toolIndex arguments)
  | .item ⟨toolIndex, some name, arguments⟩ =>
    calls ++ [⟨toolIndex, name, argumentPieces arguments⟩]
  | .rest arguments toolIndex => calls.map (Call.give toolIndex arguments)

def callsOf (pieces : List Piece) : List Call := pieces.foldl nextCalls []

def Piece.shownText : Piece → Text
  | .reasoning shown => shown
  | .text shown => shown
  | .item _ => []
  | .rest .. => []

/-- A tool call parser names every call once, with an index of its own, before it gives the other
items of the call. -/
def NamesFirst : List Int → List Piece → Prop
  | _, [] => True
  | named, .item ⟨toolIndex, none, _⟩ :: pieces => toolIndex ∈ named ∧ NamesFirst named pieces
  | named, .item ⟨toolIndex, some name, _⟩ :: pieces =>
    name ≠ [] ∧ toolIndex ∉ named ∧ NamesFirst (named ++ [toolIndex]) pieces
  | named, .reasoning _ :: pieces => NamesFirst named pieces
  | named, .text _ :: pieces => NamesFirst named pieces
  | named, .rest .. :: pieces => NamesFirst named pieces

/-- The call whose name is the last thing shown. -/
def openCall (last : Option Int) : Piece → Option Int
  | .reasoning _ => none
  | .text _ => none
  | .item ⟨_, none, _⟩ => last
  | .item ⟨toolIndex, some _, _⟩ => some toolIndex
  | .rest .. => last

/-- Some call is open, and the one of the arguments if there are any. -/
def Belongs (last : Option Int) (toolIndex : Int) (arguments : Text) : Prop :=
  ∃ i ∈ last, arguments ≠ [] → i = toolIndex

instance (last : Option Int) (toolIndex : Int) (arguments : Text) :
    Decidable (Belongs last toolIndex arguments) :=
  inferInstanceAs (Decidable (∃ i ∈ last, arguments ≠ [] → i = toolIndex))

def PieceAttached (last : Option Int) : Piece → Prop
  | .reasoning _ => True
  | .text _ => True
  | .item ⟨toolIndex, none, arguments⟩ => Belongs last toolIndex arguments
  | .item ⟨_, some _, _⟩ => True
  | .rest arguments toolIndex => Belongs last toolIndex arguments

def Attached : Option Int → List Piece → Prop
  | _, [] => True
  | last, piece :: pieces => PieceAttached last piece ∧ Attached (openCall last piece) pieces

/-! ## Blocks -/

structure ToolUse where
  id : Text
  name : Text
  inputs : List Text
  deriving DecidableEq, Repr

def ReadBlock.shownText (b : ReadBlock) : Text :=
  match b.block with
  | .text => b.deltas.flatten
  | .toolUse .. => []

def ReadBlock.toolUse? (b : ReadBlock) : Option ToolUse :=
  match b.block with
  | .text => none
  | .toolUse id name => some ⟨id, name, b.deltas⟩

def toolUses (blocks : List ReadBlock) : List ToolUse := blocks.filterMap ReadBlock.toolUse?

structure Follows (blocks : List ReadBlock) (pieces : List Piece) : Prop where
  texts : blocks.flatMap ReadBlock.shownText = pieces.flatMap Piece.shownText
  calls : (toolUses blocks).map (fun t => (t.name, t.inputs)) =
    (callsOf pieces).map (fun c => (c.name, c.arguments))
  ids : ∀ t ∈ toolUses blocks, t.id ≠ []

namespace MessageReader

variable (r : MessageReader)

def texts : Text := r.all.flatMap ReadBlock.shownText

theorem append_last {b : ReadBlock} (h : r.current = some b) (content : Text) :
    r.all = r.blocks ++ [b] ∧ (r.append content).all = r.blocks ++ [b.append content] := by
  constructor
  · rw [all, h]; rfl
  · exact append_all h content

theorem exists_current {type : ContentBlockType} (h : r.currentType = some type) :
    ∃ b, r.current = some b ∧ b.block.type = type := by
  rw [currentType, Option.map_eq_some_iff] at h
  exact h

theorem toolUses_append_text (h : r.currentType = some .text) (content : Text) :
    toolUses (r.append content).all = toolUses r.all ∧
      (r.append content).texts = r.texts ++ content := by
  obtain ⟨⟨block, deltas⟩, hb, htype⟩ := r.exists_current h
  obtain ⟨hall, happend⟩ := r.append_last hb content
  cases block with
  | toolUse id name => cases htype
  | text =>
    rw [texts, texts, happend, hall]
    constructor
    · rw [toolUses, toolUses, filterMap_append, filterMap_append]
      rfl
    · simp [ReadBlock.shownText, ReadBlock.append]

theorem toolUses_append_toolUse (h : r.currentType = some .toolUse) (content : Text) :
    (∃ before t, toolUses r.all = before ++ [t] ∧
        toolUses (r.append content).all = before ++ [{ t with inputs := t.inputs ++ [content] }]) ∧
      (r.append content).texts = r.texts := by
  obtain ⟨⟨block, deltas⟩, hb, htype⟩ := r.exists_current h
  obtain ⟨hall, happend⟩ := r.append_last hb content
  cases block with
  | text => cases htype
  | toolUse id name =>
    rw [texts, texts, happend, hall]
    constructor
    · refine ⟨toolUses r.blocks, ⟨id, name, deltas⟩, ?_, ?_⟩ <;>
        simp [toolUses, ReadBlock.toolUse?, ReadBlock.append]
    · simp [ReadBlock.shownText, ReadBlock.append]

theorem textDelta_currentType (text : Text) :
    (r.textDelta text).currentType = some .text := by
  rw [textDelta]
  split
  · rename_i h; rw [append_currentType, h]
  · rfl

theorem textDelta_shown (text : Text) :
    toolUses (r.textDelta text).all = toolUses r.all ∧
      (r.textDelta text).texts = r.texts ++ text := by
  rw [textDelta]
  by_cases h : r.currentType = some .text
  · rw [if_pos h]
    exact r.toolUses_append_text h text
  · rw [if_neg h]
    have hnew := (r.openBlock .text).toolUses_append_text rfl text
    rw [hnew.1, hnew.2, texts, texts, openBlock_all]
    simp [toolUses, ReadBlock.toolUse?, ReadBlock.shownText]

theorem addArguments_shown (h : r.currentType = some .toolUse) (arguments : Text) :
    (r.addArguments arguments).currentType = some .toolUse ∧
      (r.addArguments arguments).texts = r.texts ∧
      ∃ before t, toolUses r.all = before ++ [t] ∧
        toolUses (r.addArguments arguments).all =
          before ++ [{ t with inputs := t.inputs ++ argumentPieces arguments }] := by
  obtain ⟨⟨before, t, hbefore, hafter⟩, htexts⟩ := r.toolUses_append_toolUse h arguments
  rw [addArguments, argumentPieces]
  by_cases hempty : arguments = []
  · rw [if_pos hempty, if_pos hempty]
    exact ⟨h, rfl, before, t, hbefore, by rw [append_nil]; exact hbefore⟩
  · rw [if_neg hempty, if_neg hempty]
    exact ⟨(r.append_currentType arguments).trans h, htexts, before, t, hbefore, hafter⟩

theorem toolUseDelta_currentType (call : FunctionCallInfo) :
    (r.toolUseDelta call).currentType = some .toolUse := by
  rw [toolUseDelta]
  by_cases h : r.currentType = some .toolUse ∧ call.name = []
  · rw [if_pos h]
    exact (r.addArguments_shown h.1 call.arguments).1
  · rw [if_neg h]
    exact ((r.openBlock (.toolUse call.id call.name)).addArguments_shown rfl call.arguments).1

theorem toolUseDelta_opens (call : FunctionCallInfo)
    (h : ¬ (r.currentType = some .toolUse ∧ call.name = [])) :
    toolUses (r.toolUseDelta call).all =
        toolUses r.all ++ [⟨call.id, call.name, argumentPieces call.arguments⟩] ∧
      (r.toolUseDelta call).texts = r.texts := by
  rw [toolUseDelta, if_neg h]
  obtain ⟨_, htexts, before, t, hbefore, hafter⟩ :=
    (r.openBlock (.toolUse call.id call.name)).addArguments_shown rfl call.arguments
  have hopened : toolUses (r.openBlock (.toolUse call.id call.name)).all =
      toolUses r.all ++ [⟨call.id, call.name, []⟩] := by
    rw [openBlock_all]
    simp [toolUses, ReadBlock.toolUse?]
  obtain ⟨hsame, hlast⟩ := append_inj' (hopened.symm.trans hbefore) rfl
  cases hlast
  constructor
  · rw [hafter, ← hsame]
    rfl
  · rw [htexts, texts, openBlock_all]
    simp [ReadBlock.shownText, texts]

theorem toolUseDelta_extends (call : FunctionCallInfo) (h : r.currentType = some .toolUse)
    (hname : call.name = []) :
    (∃ before t, toolUses r.all = before ++ [t] ∧ toolUses (r.toolUseDelta call).all =
          before ++ [{ t with inputs := t.inputs ++ argumentPieces call.arguments }]) ∧
      (r.toolUseDelta call).texts = r.texts := by
  rw [toolUseDelta, if_pos ⟨h, hname⟩]
  obtain ⟨_, htexts, hinputs⟩ := r.addArguments_shown h call.arguments
  exact ⟨hinputs, htexts⟩

theorem toolUseDelta_texts (call : FunctionCallInfo) :
    (r.toolUseDelta call).texts = r.texts := by
  by_cases h : r.currentType = some .toolUse ∧ call.name = []
  · exact (r.toolUseDelta_extends call h.1 h.2).2
  · exact (r.toolUseDelta_opens call h).2

end MessageReader

/-! ## Drawing keeps the blocks with the calls -/

def shownUses (d : Drawing) : List ToolUse := toolUses d.reader.all

theorem texts_add (env : Surroundings) (d : Drawing) (piece : Piece) :
    (d.add env piece).reader.texts = d.reader.texts ++ piece.shownText := by
  have items : ∀ item : ToolCallItem, (d.addItem env item).reader.texts = d.reader.texts := by
    intro item
    rw [Drawing.addItem]
    cases item.name with
    | none => exact d.reader.toolUseDelta_texts _
    | some name => exact d.reader.toolUseDelta_texts _
  cases piece with
  | reasoning text => exact (d.reader.textDelta_shown text).2
  | text text => exact (d.reader.textDelta_shown text).2
  | item item => exact (items item).trans (append_nil _).symm
  | rest arguments toolIndex => exact (items _).trans (append_nil _).symm

theorem texts_addAll (env : Surroundings) (pieces : List Piece) (d : Drawing) :
    (d.addAll env pieces).reader.texts =
      d.reader.texts ++ pieces.flatMap Piece.shownText := by
  induction pieces generalizing d with
  | nil => exact (append_nil _).symm
  | cons piece pieces ih =>
    rw [Drawing.addAll_cons, ih, texts_add, flatMap_cons, List.append_assoc]

/-- The calls are named in this order, each once. -/
structure Named (calls : List Call) (named : List Int) : Prop where
  order : calls.map (·.toolIndex) = named
  once : named.Nodup

/-- The blocks of the calls are those of a client that read every item into its own call. -/
structure Kept (d : Drawing) (calls : List Call) (last : Option Int) : Prop where
  shown : (shownUses d).map (fun t => (t.name, t.inputs)) =
    calls.map (fun c => (c.name, c.arguments))
  ids : ∀ t ∈ shownUses d, t.id ≠ []
  isOpen : d.reader.currentType = some .toolUse ↔ last.isSome = true
  last : ∀ i, last = some i → ∃ before c, calls = before ++ [c] ∧ c.toolIndex = i

/-- More was shown than the calls have, or it was shown later. -/
def Excess (d : Drawing) (calls : List Call) : Prop :=
  calls.length < (shownUses d).length ∨
    (calls.length = (shownUses d).length ∧ weightFrom (fun c : Call => c.arguments.length) 0 calls <
        weightFrom (fun t : ToolUse => t.inputs.length) 0 (shownUses d))

variable {calls : List Call}

theorem weight_of_shown {uses : List ToolUse}
    (h : uses.map (fun t => (t.name, t.inputs)) = calls.map (fun c => (c.name, c.arguments))) :
    calls.length = uses.length ∧ weightFrom (fun c : Call => c.arguments.length) 0 calls =
      weightFrom (fun t : ToolUse => t.inputs.length) 0 uses := by
  constructor
  · have hlen := congrArg List.length h
    rw [length_map, length_map] at hlen
    exact hlen.symm
  · have hweight := congrArg (weightFrom (fun p : Text × List Text => p.2.length) 0) h
    rw [weightFrom_map, weightFrom_map] at hweight
    exact hweight.symm

variable {d : Drawing}

theorem Excess.not_shown (h : Excess d calls) :
    (shownUses d).map (fun t => (t.name, t.inputs)) ≠
      calls.map (fun c => (c.name, c.arguments)) := by
  intro heq
  obtain ⟨hlen, hweight⟩ := weight_of_shown heq
  rcases h with h | ⟨_, h⟩ <;> omega

/-! ### Items without a name -/

variable {named : List Int}

/-- What the calls weigh after arguments were given to one of them. -/
theorem weight_give_le (h : Named calls named) (toolIndex : Int) (arguments : Text) :
    weightFrom (fun c : Call => c.arguments.length) 0 (calls.map (Call.give toolIndex arguments)) ≤
      weightFrom (fun c : Call => c.arguments.length) 0 calls +
        calls.length * (argumentPieces arguments).length := by
  rw [weightFrom_map]
  have hone : calls.Pairwise fun a b => a.toolIndex = toolIndex → ¬ b.toolIndex = toolIndex := by
    have hdistinct := h.once
    rw [← h.order, List.Nodup, pairwise_map] at hdistinct
    exact hdistinct.imp fun hne ha hb => hne (ha.trans hb.symm)
  have hgrows : ∀ c : Call, (c.give toolIndex arguments).arguments.length ≤
      c.arguments.length + (argumentPieces arguments).length := by
    intro c
    rw [Call.give]
    split
    · exact Nat.le_of_eq length_append
    · exact Nat.le_add_right _ _
  have hbound := weightFrom_le_of_one (fun c : Call => c.arguments.length)
    (fun c => (c.give toolIndex arguments).arguments.length) (argumentPieces arguments).length hone
    hgrows (fun c hc => by rw [Call.give, if_neg hc]) 0
  rwa [Nat.zero_add] at hbound

theorem shownUses_give (env : Surroundings) (hopen : d.reader.currentType = some .toolUse)
    (toolIndex : Int) (arguments : Text) : ∃ before t, shownUses d = before ++ [t] ∧
      shownUses (d.addItem env ⟨toolIndex, none, arguments⟩) =
        before ++ [{ t with inputs := t.inputs ++ argumentPieces arguments }] := by
  obtain ⟨⟨before, t, hbefore, hafter⟩, _⟩ :=
    d.reader.toolUseDelta_extends { arguments } hopen rfl
  exact ⟨before, t, hbefore, hafter⟩

theorem shownUses_nameless (env : Surroundings) (hclosed : d.reader.currentType ≠ some .toolUse)
    (toolIndex : Int) (arguments : Text) :
    shownUses (d.addItem env ⟨toolIndex, none, arguments⟩) =
      shownUses d ++ [⟨[], [], argumentPieces arguments⟩] :=
  (d.reader.toolUseDelta_opens { arguments } fun hc => hclosed hc.1).1

theorem Excess.give (env : Surroundings)
    (h : Excess d calls) (hnamed : Named calls named) (toolIndex : Int) (arguments : Text) :
    Excess (d.addItem env ⟨toolIndex, none, arguments⟩)
      (calls.map (Call.give toolIndex arguments)) := by
  rw [Excess, length_map]
  by_cases hopen : d.reader.currentType = some .toolUse
  · obtain ⟨before, t, hbefore, hshown⟩ := shownUses_give env hopen toolIndex arguments
    have hlen : (shownUses d).length = before.length + 1 := by
      rw [hbefore, length_append]; rfl
    rcases h with h | ⟨hcount, hweight⟩
    · left
      rw [hshown, length_append, length_singleton]
      omega
    · right
      constructor
      · rw [hshown, length_append, length_singleton]
        omega
      · rw [hbefore, weightFrom_concat] at hweight
        rw [hshown, weightFrom_concat]
        have hgive := weight_give_le hnamed toolIndex arguments
        rw [hcount, hlen] at hgive
        rw [length_append, Nat.mul_add]
        omega
  · left
    rw [shownUses_nameless env hopen, length_append, length_singleton]
    rcases h with h | ⟨hcount, _⟩ <;> omega

variable {last : Option Int}

theorem Kept.give
    (env : Surroundings) (h : Kept d calls last) (hnamed : Named calls named) {toolIndex : Int}
    {arguments : Text} (hb : Belongs last toolIndex arguments) :
    Kept (d.addItem env ⟨toolIndex, none, arguments⟩)
      (calls.map (Call.give toolIndex arguments)) last := by
  obtain ⟨i, hlast, hown⟩ := hb
  rw [Option.mem_def] at hlast
  have hopen : d.reader.currentType = some .toolUse := h.isOpen.mpr (by rw [hlast]; rfl)
  obtain ⟨before, t, hbefore, hshown⟩ := shownUses_give env hopen toolIndex arguments
  obtain ⟨earlier, c, hcalls, hc⟩ := h.last i hlast
  -- the other calls have other indices
  have hgiven : calls.map (Call.give toolIndex arguments) =
      earlier ++ [{ c with arguments := c.arguments ++ argumentPieces arguments }] := by
    by_cases hempty : arguments = []
    · have hsame : ∀ c : Call, c.give toolIndex arguments = c := by
        intro c
        rw [Call.give, argumentPieces, if_pos hempty, append_nil]
        exact ite_self _
      rw [funext hsame, map_id', hcalls, argumentPieces, if_pos hempty, append_nil]
    · have hi := hown hempty
      have hdistinct := hnamed.once
      rw [← hnamed.order, hcalls, map_append, nodup_append] at hdistinct
      have hothers : earlier.map (Call.give toolIndex arguments) = earlier := by
        refine (map_congr_left fun a ha => ?_).trans (map_id _)
        refine if_neg fun hsame => ?_
        refine hdistinct.2.2 a.toolIndex (mem_map_of_mem ha) c.toolIndex
          (mem_cons_self) ?_
        rw [hsame, hc, hi]
      rw [hcalls, map_append, hothers, map_singleton, Call.give, if_pos (hc.trans hi)]
  have hmap := h.shown
  rw [hbefore, hcalls, map_append, map_append] at hmap
  obtain ⟨hearlier, hends⟩ := append_inj' hmap rfl
  rw [map_singleton, map_singleton, singleton_inj, Prod.mk.injEq] at hends
  refine ⟨?_, ?_, ?_, ?_⟩
  · rw [hshown, hgiven, map_append, map_append, hearlier]
    simp only [map_singleton, hends.1, hends.2]
  · intro u hu
    rw [hshown, mem_append, mem_singleton] at hu
    rcases hu with hu | hu
    · exact h.ids u (by rw [hbefore]; exact mem_append_left _ hu)
    · rw [hu]
      exact h.ids t (by rw [hbefore]; simp)
  · have hnow : (d.addItem env ⟨toolIndex, none, arguments⟩).reader.currentType = some .toolUse :=
      d.reader.toolUseDelta_currentType _
    simp [hnow, hlast]
  · intro j hj
    rw [hlast] at hj
    cases hj
    exact ⟨earlier, _, hgiven, hc⟩

/-- Arguments that come while their call is not open: a block without a name, or too much in the
block of another call. -/
theorem Kept.excess_of_not_belongs (env : Surroundings) (h : Kept d calls last)
    (hnamed : Named calls named) {toolIndex : Int} {arguments : Text}
    (hb : ¬ Belongs last toolIndex arguments) :
    Excess (d.addItem env ⟨toolIndex, none, arguments⟩)
      (calls.map (Call.give toolIndex arguments)) := by
  obtain ⟨hcount, hweight⟩ := weight_of_shown h.shown
  rw [Excess, length_map]
  cases hlast : last with
  | none =>
    have hclosed : d.reader.currentType ≠ some .toolUse := by
      rw [Ne, h.isOpen, hlast]
      exact Bool.false_ne_true
    left
    rw [shownUses_nameless env hclosed, length_append, length_singleton, hcount]
    exact Nat.lt_succ_self _
  | some i =>
    have hwrong : arguments ≠ [] ∧ i ≠ toolIndex := by
      constructor
      · intro hempty; exact hb ⟨i, hlast, fun hne => absurd hempty hne⟩
      · intro hi; exact hb ⟨i, hlast, fun _ => hi⟩
    have hopen : d.reader.currentType = some .toolUse := h.isOpen.mpr (by rw [hlast]; rfl)
    obtain ⟨before, t, hbefore, hshown⟩ := shownUses_give env hopen toolIndex arguments
    obtain ⟨earlier, c, hcalls, hc⟩ := h.last i hlast
    have hlen : (shownUses d).length = before.length + 1 := by
      rw [hbefore, length_append]; rfl
    have hearlier : earlier.length = before.length := by
      rw [hcalls, length_append, length_singleton] at hcount
      omega
    -- the call that is given arguments is an earlier one
    have hnamedEarlier : Named earlier (earlier.map (·.toolIndex)) := by
      have hdistinct := hnamed.once
      rw [← hnamed.order, hcalls, map_append, nodup_append] at hdistinct
      exact ⟨rfl, hdistinct.1⟩
    have hgive := weight_give_le hnamedEarlier toolIndex arguments
    right
    constructor
    · rw [hshown, length_append, length_singleton]
      omega
    · rw [hcalls, hbefore, weightFrom_concat, weightFrom_concat] at hweight
      rw [hshown, hcalls, map_append, map_singleton, weightFrom_concat,
        weightFrom_concat, length_map, Call.give, if_neg (hc ▸ hwrong.2), length_append,
        Nat.mul_add]
      have hone : (argumentPieces arguments).length = 1 := by
        rw [argumentPieces, if_neg hwrong.1]; rfl
      rw [hone] at hgive ⊢
      omega

/-! ### Texts and names -/

theorem Kept.text (env : Surroundings)
    (h : Kept d calls last) (text : Text) : Kept (d.add env (.text text)) calls none := by
  have hshown : shownUses (d.add env (.text text)) = shownUses d := (d.reader.textDelta_shown text).1
  refine ⟨by rw [hshown]; exact h.shown, by rw [hshown]; exact h.ids, ?_,
    fun i hi => nomatch hi⟩
  have htype : (d.add env (.text text)).reader.currentType = some .text :=
    d.reader.textDelta_currentType text
  simp [htype]

theorem Excess.text (env : Surroundings) (h : Excess d calls)
    (text : Text) : Excess (d.add env (.text text)) calls := by
  have hshown : shownUses (d.add env (.text text)) = shownUses d := (d.reader.textDelta_shown text).1
  rw [Excess, hshown]
  exact h

/-- A name always opens a block, with an id that was made for it. -/
theorem shownUses_name (env : Surroundings) (d : Drawing) (toolIndex : Int) {name : Text}
    (hname : name ≠ []) (arguments : Text) :
    shownUses (d.addItem env ⟨toolIndex, some name, arguments⟩) =
      shownUses d ++ [⟨generateToolCallId env d.ids, name, argumentPieces arguments⟩] :=
  (d.reader.toolUseDelta_opens { id := generateToolCallId env d.ids, name, arguments }
    fun hc => hname hc.2).1

theorem Kept.name (env : Surroundings)
    (h : Kept d calls last) (toolIndex : Int) {name : Text} (hname : name ≠ []) (arguments : Text) :
    Kept (d.addItem env ⟨toolIndex, some name, arguments⟩)
      (calls ++ [⟨toolIndex, name, argumentPieces arguments⟩]) (some toolIndex) := by
  have hshown := shownUses_name env d toolIndex hname arguments
  refine ⟨?_, ?_, ?_, ?_⟩
  · rw [hshown, map_append, map_append, h.shown]
    rfl
  · intro t ht
    rw [hshown, mem_append, mem_singleton] at ht
    rcases ht with ht | rfl
    · exact h.ids t ht
    · exact cons_ne_nil _ _
  · have htype : (d.addItem env ⟨toolIndex, some name, arguments⟩).reader.currentType =
        some .toolUse := d.reader.toolUseDelta_currentType _
    simp [htype]
  · intro i hi
    cases hi
    exact ⟨calls, _, rfl, rfl⟩

theorem Excess.name (env : Surroundings) (h : Excess d calls)
    (toolIndex : Int) {name : Text} (hname : name ≠ []) (arguments : Text) :
    Excess (d.addItem env ⟨toolIndex, some name, arguments⟩)
      (calls ++ [⟨toolIndex, name, argumentPieces arguments⟩]) := by
  rw [Excess, shownUses_name env d toolIndex hname arguments, length_append,
    length_append, weightFrom_concat, weightFrom_concat]
  rcases h with h | ⟨hcount, hweight⟩
  · left
    simp only [length_singleton]
    omega
  · right
    rw [hcount]
    exact ⟨rfl, Nat.add_lt_add_right hweight _⟩

/-! ### A whole stream -/

theorem Named.give (h : Named calls named) (toolIndex : Int) (arguments : Text) :
    Named (calls.map (Call.give toolIndex arguments)) named := by
  refine ⟨?_, h.once⟩
  rw [map_map, ← h.order]
  refine map_congr_left fun c _ => ?_
  rw [Function.comp_apply, Call.give]
  split <;> rfl

variable {piece : Piece} {pieces : List Piece}

theorem Named.next (h : Named calls named) (hlaw : NamesFirst named (piece :: pieces)) :
    ∃ named', Named (nextCalls calls piece) named' ∧ NamesFirst named' pieces := by
  cases piece with
  | reasoning text => exact ⟨named, h, hlaw⟩
  | text text => exact ⟨named, h, hlaw⟩
  | rest arguments toolIndex => exact ⟨named, h.give toolIndex arguments, hlaw⟩
  | item item =>
    obtain ⟨toolIndex, name, arguments⟩ := item
    cases name with
    | none => exact ⟨named, h.give toolIndex arguments, hlaw.2⟩
    | some name =>
      obtain ⟨_, hnew, hlaw⟩ := hlaw
      refine ⟨named ++ [toolIndex], ⟨?_, ?_⟩, hlaw⟩
      · rw [nextCalls, map_append, h.order]
        rfl
      · rw [nodup_append]
        refine ⟨h.once, by simp, fun a ha b hb => ?_⟩
        rw [mem_singleton] at hb
        rintro rfl
        exact hnew (hb ▸ ha)

theorem Kept.add (env : Surroundings) (h : Kept d calls last) (hnamed : Named calls named)
    (hlaw : NamesFirst named (piece :: pieces)) (hattached : PieceAttached last piece) :
    Kept (d.add env piece) (nextCalls calls piece) (openCall last piece) := by
  cases piece with
  | reasoning text => exact h.text env text
  | text text => exact h.text env text
  | rest arguments toolIndex => exact h.give env hnamed hattached
  | item item =>
    obtain ⟨toolIndex, name, arguments⟩ := item
    cases name with
    | none => exact h.give env hnamed hattached
    | some name => exact h.name env toolIndex hlaw.1 arguments

theorem Excess.add (env : Surroundings) (h : Excess d calls) (hnamed : Named calls named)
    (hlaw : NamesFirst named (piece :: pieces)) :
    Excess (d.add env piece) (nextCalls calls piece) := by
  cases piece with
  | reasoning text => exact h.text env text
  | text text => exact h.text env text
  | rest arguments toolIndex => exact h.give env hnamed toolIndex arguments
  | item item =>
    obtain ⟨toolIndex, name, arguments⟩ := item
    cases name with
    | none => exact h.give env hnamed toolIndex arguments
    | some name => exact h.name env toolIndex hlaw.1 arguments

theorem Kept.excess_add (env : Surroundings) (h : Kept d calls last) (hnamed : Named calls named)
    (hdetached : ¬ PieceAttached last piece) :
    Excess (d.add env piece) (nextCalls calls piece) := by
  cases piece with
  | reasoning text => exact absurd trivial hdetached
  | text text => exact absurd trivial hdetached
  | rest arguments toolIndex => exact h.excess_of_not_belongs env hnamed hdetached
  | item item =>
    obtain ⟨toolIndex, name, arguments⟩ := item
    cases name with
    | none => exact h.excess_of_not_belongs env hnamed hdetached
    | some name => exact absurd trivial hdetached

theorem Excess.addAll {env : Surroundings} (pieces : List Piece)
    (h : Excess d calls) (hnamed : Named calls named) (hlaw : NamesFirst named pieces) :
    Excess (d.addAll env pieces) (pieces.foldl nextCalls calls) := by
  induction pieces generalizing d calls named with
  | nil => exact h
  | cons piece pieces ih =>
    obtain ⟨named', hnamed', hlaw'⟩ := hnamed.next hlaw
    exact ih (h.add env hnamed hlaw) hnamed' hlaw'

/-- From blocks that show the calls: attached pieces keep them so, others leave an excess. -/
theorem Kept.addAll (env : Surroundings) (pieces : List Piece)
    (h : Kept d calls last) (hnamed : Named calls named) (hlaw : NamesFirst named pieces) :
    (Attached last pieces ∧
        ∃ last', Kept (d.addAll env pieces) (pieces.foldl nextCalls calls) last') ∨
      (¬ Attached last pieces ∧ Excess (d.addAll env pieces) (pieces.foldl nextCalls calls)) := by
  induction pieces generalizing d calls named last with
  | nil => exact .inl ⟨trivial, last, h⟩
  | cons piece pieces ih =>
    obtain ⟨named', hnamed', hlaw'⟩ := hnamed.next hlaw
    by_cases hattached : PieceAttached last piece
    · rcases ih (h.add env hnamed hlaw hattached) hnamed' hlaw' with ⟨hrest, hkept⟩ | ⟨hrest, hex⟩
      · exact .inl ⟨⟨hattached, hrest⟩, hkept⟩
      · exact .inr ⟨fun hall => hrest hall.2, hex⟩
    · -- from here on the excess stays
      exact .inr ⟨fun hall => hattached hall.1,
        (h.excess_add env hnamed hattached).addAll pieces hnamed' hlaw'⟩

theorem follows_iff_attached (env : Surroundings) (hlaw : NamesFirst [] pieces) :
    Follows (({} : Drawing).addAll env pieces).reader.all pieces ↔ Attached none pieces := by
  have hstart : Kept {} [] none :=
    ⟨rfl, fun t ht => (nomatch ht), by simp [MessageReader.currentType],
      fun i hi => nomatch hi⟩
  rcases hstart.addAll env pieces ⟨rfl, nodup_nil⟩ hlaw with
    ⟨hattached, last, hkept⟩ | ⟨hdetached, hexcess⟩
  · refine ⟨fun _ => hattached, fun _ => ⟨?_, hkept.shown, hkept.ids⟩⟩
    exact texts_addAll env pieces {}
  · exact ⟨fun hf => absurd hf.calls hexcess.not_shown, fun h => absurd h hdetached⟩

/-- A client reads the whole stream as one message, and its blocks follow the pieces. -/
def EventsFollow {σ ρ : Type} (env : Surroundings) (parser : Option (StreamOutputParser σ ρ))
    (outputs : List RequestOutput) : Prop :=
  ∃ st blocks, anthropicStream env parser outputs = .ok st ∧
    MessageReader.message st.writer.blocks.events = some blocks ∧
    Follows blocks (runPieces parser outputs)

theorem eventsFollow_iff_follows {σ ρ : Type} {env : Surroundings}
    (hacc : ∀ n, env.accepts n = true) (parser : Option (StreamOutputParser σ ρ))
    (outputs : List RequestOutput) (last : RequestOutput)
    (hbody : ∀ output ∈ outputs, (output.finished || output.cancelled) = false)
    (hlast : (last.finished || last.cancelled) = true) :
    EventsFollow env parser (outputs ++ [last]) ↔
      Follows (({} : Drawing).addAll env (runPieces parser (outputs ++ [last]))).reader.all
        (runPieces parser (outputs ++ [last])) := by
  obtain ⟨st, hst, hmessage⟩ := message_of_run hacc outputs last hbody hlast parser
  constructor
  · rintro ⟨st', blocks, hst', hblocks, hf⟩
    rw [hst] at hst'
    cases hst'
    rw [hmessage] at hblocks
    cases hblocks
    exact hf
  · intro hf
    exact ⟨st, _, hst, hmessage, hf⟩

instance NamesFirst.instDecidable : ∀ named pieces, Decidable (NamesFirst named pieces)
  | _, [] => .isTrue trivial
  | named, .item ⟨toolIndex, none, _⟩ :: pieces =>
    have := instDecidable named pieces
    inferInstanceAs (Decidable (toolIndex ∈ named ∧ NamesFirst named pieces))
  | named, .item ⟨toolIndex, some name, _⟩ :: pieces =>
    have := instDecidable (named ++ [toolIndex]) pieces
    inferInstanceAs (Decidable
      (name ≠ [] ∧ toolIndex ∉ named ∧ NamesFirst (named ++ [toolIndex]) pieces))
  | named, .reasoning _ :: pieces => instDecidable named pieces
  | named, .text _ :: pieces => instDecidable named pieces
  | named, .rest .. :: pieces => instDecidable named pieces

instance (last : Option Int) : ∀ piece, Decidable (PieceAttached last piece)
  | .reasoning _ => .isTrue trivial
  | .text _ => .isTrue trivial
  | .item ⟨toolIndex, none, arguments⟩ =>
    inferInstanceAs (Decidable (Belongs last toolIndex arguments))
  | .item ⟨_, some _, _⟩ => .isTrue trivial
  | .rest arguments toolIndex => inferInstanceAs (Decidable (Belongs last toolIndex arguments))

instance Attached.instDecidable : ∀ last pieces, Decidable (Attached last pieces)
  | _, [] => .isTrue trivial
  | last, piece :: pieces =>
    have := instDecidable (openCall last piece) pieces
    inferInstanceAs (Decidable (PieceAttached last piece ∧ Attached (openCall last piece) pieces))

theorem eventsFollow_iff_attached {σ ρ : Type} {env : Surroundings}
    (hacc : ∀ n, env.accepts n = true) (parser : Option (StreamOutputParser σ ρ))
    (outputs : List RequestOutput) (last : RequestOutput)
    (hbody : ∀ output ∈ outputs, (output.finished || output.cancelled) = false)
    (hlast : (last.finished || last.cancelled) = true)
    (hlaw : NamesFirst [] (runPieces parser (outputs ++ [last]))) :
    EventsFollow env parser (outputs ++ [last]) ↔
      Attached none (runPieces parser (outputs ++ [last])) := by
  rw [eventsFollow_iff_follows hacc parser outputs last hbody hlast]
  exact follows_iff_attached env hlaw

/-! ## Two streams of a call -/

/-- A parser that names a call with its first increment and gives its arguments with the second,
with text before them or not. -/
def callParser (text : Text) : FunctionCallParser Nat where
  initial := 0
  parseStreamingIncrement n _ :=
    (if n = 0 then { calls := [⟨0, some "f".toList, []⟩] }
      else { normalText := text, calls := [⟨0, none, "\x7b\x7d".toList⟩] }, n + 1)
  prevToolCallArguments _ := []
  streamedArgsForTool _ := []
  hasToolCall _ := true
  parsesResponseEnvelope := false
  parseNonStream _ :=
    some { normalText := text, calls := [⟨0, some "f".toList, "\x7b\x7d".toList⟩] }

def callOutputs : List RequestOutput :=
  [{ outputs := [{ index := 0, text := "a".toList }] }]

def lastOutput : RequestOutput :=
  { outputs := [{ index := 0, text := "b".toList, finishReason := some "stop".toList }]
    finished := true }

def allAccepted : Surroundings := { accepts := fun _ => true, shortUuid := fun _ => [] }

def callStream (text : Text) : Option (StreamOutputParser Nat Nat) :=
  some (.create (some (callParser text)) none)

theorem eventsFollow_named_call :
    EventsFollow allAccepted (callStream []) (callOutputs ++ [lastOutput]) :=
  (eventsFollow_iff_attached (fun _ => rfl) (callStream []) callOutputs lastOutput (by decide)
    (by decide) (by decide +kernel)).mpr (by decide +kernel)

/-- Text that comes with the rest of a call closes its block, and the rest is shown without name and
id. -/
theorem text_detaches_arguments :
    NamesFirst [] (runPieces (callStream "t".toList) (callOutputs ++ [lastOutput])) ∧
      ¬ EventsFollow allAccepted (callStream "t".toList) (callOutputs ++ [lastOutput]) := by
  refine ⟨by decide +kernel, ?_⟩
  rw [eventsFollow_iff_follows (fun _ => rfl) _ callOutputs lastOutput (by decide) (by decide)]
  intro hf
  exact absurd hf.calls (by decide +kernel)

end Xllm.ApiService
