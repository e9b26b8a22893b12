import Xllm.Sampling.JsonObjectRest
import Mathlib.Data.List.GetD

/-!
# The constraint accepts exactly the JSON objects

The matcher is a residual automaton for `objectText` (`matcher_residual`): it reads a text exactly as
long as the text begins a JSON object, and its root is complete exactly when the text is one. No
residual is empty, and every residual has a word of ASCII bytes, so a vocabulary that can write every
ASCII byte never runs into a state without an allowed token.

On tokens, the text of a run is what its tokens other than stop tokens append.
-/

namespace Xllm.Framework

open Xllm.Lib Json JsonObjectGrammarState List
open scoped Computability

/-! ## Every state can be completed in ASCII -/

/-- The language has a word of ASCII bytes. -/
def HasAscii (L : Language UInt8) : Prop := HasWord (fun b => b < 0x80) L

section

theorem hasAscii_byte {c : Char} (h : ascii c < 0x80) : HasAscii (byte c) :=
  HasWord.word fun b hb => by
    rw [mem_singleton] at hb
    rw [hb]
    exact h

theorem hasAscii_ws : HasAscii ws := .of_nil (Language.nil_mem_kstar _)

theorem hasAscii_digits : HasAscii digits := .of_nil nil_mem_digits

theorem hasAscii_digit : HasAscii (oneOf isDigit) :=
  HasWord.oneOf (a := ascii '0') (by decide) (by decide)

theorem hasAscii_exponent : HasAscii exponent := .of_nil nil_mem_exponent

theorem hasAscii_fraction : HasAscii fraction := .of_nil nil_mem_fraction

theorem hasAscii_stringRest : HasAscii stringRest :=
  (HasWord.of_nil (Language.nil_mem_kstar _)).mul (hasAscii_byte (by decide))

theorem hasAscii_hexDigits (n : Nat) : HasAscii (hexDigits n) := by
  induction n with
  | zero => exact .of_nil Language.nil_mem_one
  | succ n ih =>
    exact ih.mul (HasWord.oneOf (a := ascii '0') (by decide) (by decide))

theorem hasAscii_escapeRest : HasAscii escapeRest :=
  (HasWord.oneOf (a := ascii 'n') (by decide) (by decide)).left _

theorem hasAscii_numberRest (n : NumberState) : HasAscii (numberRest n) := by
  have hinteger : HasAscii integer := (hasAscii_byte (by decide)).left _
  have hsign : HasAscii (1 + byte '+' + byte '-') :=
    HasWord.left (HasWord.left (.of_nil Language.nil_mem_one) _) _
  cases n with
  | afterMinus => exact hinteger.mul (hasAscii_fraction.mul hasAscii_exponent)
  | zero => exact hasAscii_fraction.mul hasAscii_exponent
  | integer => exact hasAscii_digits.mul (hasAscii_fraction.mul hasAscii_exponent)
  | fractionPoint => exact hasAscii_digit.mul (hasAscii_digits.mul hasAscii_exponent)
  | fraction => exact hasAscii_digits.mul hasAscii_exponent
  | exponent => exact hsign.mul (hasAscii_digit.mul hasAscii_digits)
  | exponentSign => exact hasAscii_digit.mul hasAscii_digits
  | exponentDigits => exact hasAscii_digits

theorem hasAscii_object : HasAscii object := by
  rw [object_eq]
  exact (hasAscii_byte (by decide)).mul
    (hasAscii_ws.mul ((hasAscii_byte (by decide)).left _))

theorem hasAscii_value : HasAscii value := by
  rw [value_eq]
  exact (((hasAscii_object.left _).left _).left _).left _

theorem hasAscii_valueTail (type : ContainerType) : HasAscii (valueTail type) := by
  cases type with
  | object => exact hasAscii_ws.mul ((hasAscii_byte (by decide)).left _)
  | array => exact hasAscii_ws.mul ((hasAscii_byte (by decide)).left _)

theorem hasAscii_keyTail : HasAscii keyTail :=
  hasAscii_ws.mul ((hasAscii_byte (by decide)).mul
    (hasAscii_ws.mul (hasAscii_value.mul (hasAscii_valueTail .object))))

theorem hasAscii_frameRest (state : ContainerState) : HasAscii (frameRest state) := by
  have hstring : HasAscii Json.string :=
    (hasAscii_byte (by decide)).mul hasAscii_stringRest
  cases state with
  | objectKeyOrEnd => exact hasAscii_ws.mul ((hasAscii_byte (by decide)).left _)
  | objectKeyAfterComma => exact hasAscii_ws.mul (hstring.mul hasAscii_keyTail)
  | objectColon => exact hasAscii_keyTail
  | objectValue => exact hasAscii_ws.mul (hasAscii_value.mul (hasAscii_valueTail .object))
  | objectCommaOrEnd => exact hasAscii_valueTail .object
  | arrayValueOrEnd => exact hasAscii_ws.mul ((hasAscii_byte (by decide)).left _)
  | arrayValueAfterComma => exact hasAscii_ws.mul (hasAscii_value.mul (hasAscii_valueTail .array))
  | arrayCommaOrEnd => exact hasAscii_valueTail .array

theorem hasAscii_after (containers : List ContainerFrame) : HasAscii (after containers) := by
  induction containers with
  | nil => exact hasAscii_ws
  | cons frame outer ih => exact (hasAscii_valueTail frame.type).mul ih

variable {s : JsonObjectGrammarState}

theorem hasAscii_innerRest (h : Matching s) (frame : ContainerFrame) :
    HasAscii (s.innerRest frame) := by
  have hrole : HasAscii (s.roleTail frame) := by
    unfold roleTail
    cases s.stringRole with
    | objectKey => exact hasAscii_keyTail
    | value => exact hasAscii_valueTail _
  unfold innerRest
  cases hmode : s.parseMode with
  | none => exact hasAscii_frameRest _
  | string => exact hasAscii_stringRest.mul hrole
  | stringEscape => exact hasAscii_escapeRest.mul (hasAscii_stringRest.mul hrole)
  | stringUnicode => exact (hasAscii_hexDigits _).mul (hasAscii_stringRest.mul hrole)
  | number => exact (hasAscii_numberRest _).mul (hasAscii_valueTail _)
  | literal =>
    exact (HasWord.word fun b hb => (h.literal hmode).2 b (mem_of_mem_drop hb)).mul
      (hasAscii_valueTail _)

theorem hasAscii_rest (h : Matching s) : HasAscii s.rest := by
  unfold rest
  split
  · exact hasAscii_ws
  · split
    · exact hasAscii_ws.mul (hasAscii_object.mul hasAscii_ws)
    · exact (hasAscii_innerRest h _).mul (hasAscii_after _)

end

/-! ## Acceptance -/

section

variable {s : JsonObjectGrammarState}

theorem nil_notMem_valueTail (type : ContainerType) : [] ∉ valueTail type := by
  cases type with
  | object => exact nil_notMem_frameRest .objectCommaOrEnd
  | array => exact nil_notMem_frameRest .arrayCommaOrEnd

theorem nil_notMem_objectText : [] ∉ objectText := by
  unfold objectText
  rw [nil_mem_mul, nil_mem_mul, object_eq, nil_mem_mul]
  exact fun h => nil_notMem_byte _ h.2.1.1

/-- Something is left to write in every container. -/
theorem nil_notMem_innerRest (s : JsonObjectGrammarState) (frame : ContainerFrame) :
    [] ∉ s.innerRest frame := by
  have hstring : [] ∉ stringRest := by
    unfold stringRest
    rw [nil_mem_mul]
    exact fun h => nil_notMem_byte _ h.2
  unfold innerRest
  cases s.parseMode with
  | none => exact nil_notMem_frameRest _
  | string => exact fun h => hstring (nil_mem_mul.mp h).1
  | stringEscape => exact fun h => hstring (nil_mem_mul.mp (nil_mem_mul.mp h).2).1
  | stringUnicode => exact fun h => hstring (nil_mem_mul.mp (nil_mem_mul.mp h).2).1
  | number => exact fun h => nil_notMem_valueTail _ (nil_mem_mul.mp h).2
  | literal => exact fun h => nil_notMem_valueTail _ (nil_mem_mul.mp h).2

/-- Nothing has to follow exactly when the root is complete. -/
theorem nil_mem_rest (s : JsonObjectGrammarState) : [] ∈ s.rest ↔ s.rootComplete = true := by
  unfold rest
  by_cases hcomplete : s.rootComplete = true
  · rw [if_pos hcomplete]
    exact iff_of_true (Language.nil_mem_kstar _) hcomplete
  · rw [if_neg hcomplete]
    refine iff_of_false ?_ hcomplete
    split
    · exact nil_notMem_objectText
    · exact fun h => nil_notMem_innerRest s _ (nil_mem_mul.mp h).1

theorem Matching.parseMode_of_complete (h : Matching s) (hcomplete : s.rootComplete = true) :
    s.parseMode = .none :=
  (h.root (h.complete hcomplete)).1

theorem matcher_residual :
    Residual consumeCharacter Matching rest (fun s => s.rootComplete = true) := by
  refine ⟨fun s _ => nil_mem_rest s, fun s c s' h hstep => ?_, fun s c h hstep => ?_⟩
  · have hleaves := consumeCharacter_leaves h c
    rw [hstep] at hleaves
    exact ⟨hleaves.1, hleaves.2.symm⟩
  · have hleaves := consumeCharacter_leaves h c
    rw [hstep] at hleaves
    exact hleaves

theorem matching_initialState : Matching (JsonObjectGrammar.initialState false) :=
  .of_none rfl rfl (fun _ _ => rfl) (fun _ => rfl) (fun _ hf => absurd hf (by
    simp [JsonObjectGrammar.initialState]))

theorem exists_ascii_next (h : Matching s) : ∃ b < 0x80, ∃ s', s.consumeCharacter b = some s' := by
  obtain ⟨b, hb, z, hz⟩ : ∃ b < 0x80, ∃ z, b :: z ∈ s.rest := by
    by_cases hcomplete : s.rootComplete = true
    · refine ⟨ascii ' ', by decide, [], ?_⟩
      unfold rest
      rw [if_pos hcomplete, cons_mem_iff, leftQuotient_ws, if_pos (by decide)]
      exact Language.nil_mem_kstar _
    · obtain ⟨w, hw, hascii⟩ := hasAscii_rest h
      cases w with
      | nil => exact absurd ((nil_mem_rest s).mp hw) hcomplete
      | cons b z => exact ⟨b, hascii b mem_cons_self, z, hw⟩
  refine ⟨b, hb, ?_⟩
  cases hstep : s.consumeCharacter b with
  | some s' => exact ⟨s', rfl⟩
  | none =>
    rw [cons_mem_iff, matcher_residual.stuck s b h hstep] at hz
    exact absurd hz (Language.notMem_zero z)

end

/-! ## The matcher stays valid -/

section

variable {s s' : JsonObjectGrammarState} {c : UInt8}

/-- A character leaves the matcher valid, and starts only literals of at most five bytes. -/
def Keeps (s s' : JsonObjectGrammarState) : Prop :=
  s'.valid = s.valid ∧ (s.literalTarget.length ≤ 5 → s'.literalTarget.length ≤ 5)

theorem completeValue_keeps (s : JsonObjectGrammarState) : Keeps s s.completeValue := by
  unfold completeValue
  cases s.containers <;> exact ⟨rfl, id⟩

theorem setState_keeps (s : JsonObjectGrammarState) (state : ContainerState) :
    Keeps s (s.setState state) := by
  unfold setState
  cases s.containers <;> exact ⟨rfl, id⟩

theorem closeContainer_keeps {type : ContainerType} (h : s.closeContainer type = some s') :
    Keeps s s' := by
  unfold closeContainer at h
  split at h
  · cases h
  · split at h
    · cases h
      exact completeValue_keeps _
    · cases h

theorem startValue_keeps (h : s.startValue c = some s') : Keeps s s' := by
  unfold startValue at h
  repeat' split at h
  all_goals cases h
  all_goals first
    | exact ⟨rfl, id⟩
    | exact ⟨rfl, fun _ => by simp [startLiteral]⟩

theorem consumeStructural_keeps (h : s.consumeStructural c = some s') : Keeps s s' := by
  unfold consumeStructural at h
  repeat' split at h
  all_goals first
    | exact closeContainer_keeps h
    | exact startValue_keeps h
    | (cases h <;> first | exact ⟨rfl, id⟩ | exact setState_keeps s _)

theorem consumeStringCharacter_keeps (h : s.consumeStringCharacter c = some s') : Keeps s s' := by
  unfold consumeStringCharacter at h
  dsimp only at h
  repeat' split at h
  all_goals cases h
  all_goals first
    | exact ⟨rfl, id⟩
    | exact setState_keeps _ _
    | exact completeValue_keeps _

theorem consumeNumberCharacter_keeps (h : s.consumeNumberCharacter c = some s') : Keeps s s' := by
  unfold consumeNumberCharacter at h
  split at h
  · cases h
    exact ⟨rfl, id⟩
  · split at h
    · have hvalue := completeValue_keeps { s with parseMode := .none }
      have hstep := consumeStructural_keeps h
      exact ⟨hstep.1.trans hvalue.1, hstep.2 ∘ hvalue.2⟩
    · cases h

theorem consumeLiteralCharacter_keeps (h : s.consumeLiteralCharacter c = some s') : Keeps s s' := by
  unfold consumeLiteralCharacter at h
  dsimp only at h
  repeat' split at h
  all_goals cases h
  · exact completeValue_keeps _
  · exact ⟨rfl, id⟩

theorem consumeCharacter_keeps (h : s.consumeCharacter c = some s') : Keeps s s' := by
  unfold consumeCharacter at h
  split at h
  · cases h
    exact ⟨rfl, id⟩
  · split at h
    · exact consumeStringCharacter_keeps h
    · exact consumeStringCharacter_keeps h
    · exact consumeStringCharacter_keeps h
    · exact consumeNumberCharacter_keeps h
    · exact consumeLiteralCharacter_keeps h
    · exact consumeStructural_keeps h

theorem foldlM_keeps (w : List UInt8) : ∀ s s' : JsonObjectGrammarState,
    w.foldlM consumeCharacter s = some s' → Keeps s s' := by
  induction w with
  | nil =>
    intro s s' h
    cases h
    exact ⟨rfl, id⟩
  | cons c w ih =>
    intro s s' h
    obtain ⟨t, hstep, hrest⟩ := Option.bind_eq_some_iff.mp h
    have hfirst := consumeCharacter_keeps hstep
    have hlater := ih t s' hrest
    exact ⟨hlater.1.trans hfirst.1, hlater.2 ∘ hfirst.2⟩

end

/-! ## Tokens -/

namespace JsonObjectGrammar

/-- What a sequence of tokens writes: stop tokens write nothing. -/
def text (g : JsonObjectGrammar) (tokenIds : List Int) : List UInt8 :=
  (tokenIds.filter fun tokenId => tokenId ∉ g.stopTokenIds).flatMap fun tokenId =>
    (g.tokenPiece? tokenId).getD []

/-- `accept_token` on one token after the other, as long as they are accepted. -/
def acceptAll (g : JsonObjectGrammar) (s : JsonObjectGrammarState) (tokenIds : List Int) :
    Option JsonObjectGrammarState :=
  tokenIds.foldlM (fun s tokenId => match g.acceptToken s tokenId with
    | (s, true) => some s
    | (_, false) => none) s

/-- `accept_token` on one token after the other, whatever it answers. -/
def offerAll (g : JsonObjectGrammar) (s : JsonObjectGrammarState) (tokenIds : List Int) :
    JsonObjectGrammarState :=
  tokenIds.foldl (fun s tokenId => (g.acceptToken s tokenId).1) s

section

variable {g : JsonObjectGrammar} {s s' : JsonObjectGrammarState} {tokenId : Int}
  {tokenIds : List Int} {piece : List UInt8}

theorem text_cons (g : JsonObjectGrammar) (tokenId : Int) (tokenIds : List Int) :
    g.text (tokenId :: tokenIds) = g.text [tokenId] ++ g.text tokenIds := by
  unfold text
  rw [← flatMap_append, ← filter_append, singleton_append]

theorem text_stop (h : tokenId ∈ g.stopTokenIds) : g.text [tokenId] = [] := by
  simp [text, h]

theorem text_piece (h : tokenId ∉ g.stopTokenIds) (hpiece : g.tokenPiece? tokenId = some piece) :
    g.text [tokenId] = piece := by
  simp [text, h, hpiece]

theorem acceptToken_of_no_piece (h : g.tokenPiece? tokenId = none) :
    g.acceptToken s tokenId = (s, false) := by
  unfold acceptToken
  rw [h]
  cases s.valid <;> rfl

theorem acceptToken_of_invalid (h : s.valid = false) : g.acceptToken s tokenId = (s, false) := by
  unfold acceptToken
  rw [h]

theorem acceptToken_stop (h : Matching s) (hvalid : s.valid = true)
    (hpiece : g.tokenPiece? tokenId = some piece) (hstop : tokenId ∈ g.stopTokenIds) :
    g.acceptToken s tokenId =
      if s.rootComplete = true then (s.commit tokenId, true) else (s, false) := by
  unfold acceptToken
  rw [hvalid, hpiece]
  dsimp only
  rw [if_pos hstop, h.reasoning]
  by_cases hcomplete : s.rootComplete = true
  · simp [hcomplete, h.parseMode_of_complete hcomplete]
  · rw [if_neg hcomplete, if_pos (Or.inr (Or.inl hcomplete))]

theorem acceptToken_piece (h : Matching s) (hvalid : s.valid = true)
    (hpiece : g.tokenPiece? tokenId = some piece) (hstop : tokenId ∉ g.stopTokenIds) :
    g.acceptToken s tokenId =
      if s.rootComplete = true ∧ g.stopTokenIds ≠ ∅ ∨ piece = [] then (s, false)
      else
        match piece.foldlM consumeCharacter s with
        | some s' => (s'.commit tokenId, true)
        | none => ({ s with valid := false }, false) := by
  unfold acceptToken
  rw [hvalid, hpiece]
  dsimp only
  rw [if_neg hstop, if_neg (by rw [h.reasoning]; simp)]
  by_cases hend : s.rootComplete = true ∧ g.stopTokenIds ≠ ∅
  · rw [if_pos ⟨hend.1, h.parseMode_of_complete hend.1, hend.2⟩, if_pos (Or.inl hend)]
  · rw [if_neg fun hc => hend ⟨hc.1, hc.2.2⟩]
    unfold acceptPiece
    by_cases hempty : piece = []
    · rw [if_pos (Or.inr hempty), if_pos (Or.inr hempty)]
    · rw [if_neg (by simp [hvalid, hempty]), if_neg (by simp only [not_or]; exact ⟨hend, hempty⟩)]
      cases piece.foldlM consumeCharacter s <;> rfl

/-! ## Runs -/

theorem matching_commit (h : Matching s) (tokenId : Int) : Matching (s.commit tokenId) :=
  ⟨h.reasoning, h.root, h.complete, h.typed, h.key, h.unicode, h.literal⟩

/-- What an accepted token leaves. -/
structure Accepted (g : JsonObjectGrammar) (s : JsonObjectGrammarState) (tokenIds : List Int)
    (s' : JsonObjectGrammarState) : Prop where
  matching : Matching s'
  valid : s'.valid = true
  rest : s.rest.leftQuotient (g.text tokenIds) = s'.rest

theorem accepted_cases (h : Matching s) (hvalid : s.valid = true)
    (haccept : g.acceptToken s tokenId = (s', true)) :
    ∃ piece, g.tokenPiece? tokenId = some piece ∧
      (tokenId ∈ g.stopTokenIds ∧ s' = s.commit tokenId ∨ tokenId ∉ g.stopTokenIds ∧
        ∃ t, piece.foldlM consumeCharacter s = some t ∧ s' = t.commit tokenId) := by
  cases hpiece : g.tokenPiece? tokenId with
  | none =>
    rw [acceptToken_of_no_piece hpiece] at haccept
    cases haccept
  | some piece =>
    refine ⟨piece, rfl, ?_⟩
    by_cases hstop : tokenId ∈ g.stopTokenIds
    · rw [acceptToken_stop h hvalid hpiece hstop] at haccept
      split at haccept
      · cases haccept
        exact Or.inl ⟨hstop, rfl⟩
      · cases haccept
    · rw [acceptToken_piece h hvalid hpiece hstop] at haccept
      split at haccept
      · cases haccept
      · cases hrun : piece.foldlM consumeCharacter s with
        | none =>
          rw [hrun] at haccept
          cases haccept
        | some t =>
          rw [hrun] at haccept
          cases haccept
          exact Or.inr ⟨hstop, t, rfl, rfl⟩

theorem acceptToken_accepted (h : Matching s) (hvalid : s.valid = true)
    (haccept : g.acceptToken s tokenId = (s', true)) : g.Accepted s [tokenId] s' := by
  obtain ⟨piece, hpiece, ⟨hstop, rfl⟩ | ⟨hstop, t, hrun, rfl⟩⟩ := accepted_cases h hvalid haccept
  · refine ⟨matching_commit h _, hvalid, ?_⟩
    rw [text_stop hstop, Language.leftQuotient_nil]
    rfl
  · obtain ⟨ht, hquot⟩ := matcher_residual.run piece s t h hrun
    refine ⟨matching_commit ht _, (foldlM_keeps piece s t hrun).1.trans hvalid, ?_⟩
    rw [text_piece hstop hpiece, hquot]
    rfl

/-- A rejected token leaves the state as it was, or invalid. -/
theorem acceptToken_rejected (h : Matching s) (hvalid : s.valid = true)
    (hreject : (g.acceptToken s tokenId).2 = false) :
    (g.acceptToken s tokenId).1 = s ∨ (g.acceptToken s tokenId).1 = { s with valid := false } := by
  cases hpiece : g.tokenPiece? tokenId with
  | none =>
    rw [acceptToken_of_no_piece hpiece]
    exact Or.inl rfl
  | some piece =>
    by_cases hstop : tokenId ∈ g.stopTokenIds
    · rw [acceptToken_stop h hvalid hpiece hstop] at hreject ⊢
      split at hreject
      · cases hreject
      · rw [if_neg ‹_›]
        exact Or.inl rfl
    · rw [acceptToken_piece h hvalid hpiece hstop] at hreject ⊢
      split at hreject
      · rw [if_pos ‹_›]
        exact Or.inl rfl
      · rw [if_neg ‹_›]
        cases hrun : piece.foldlM consumeCharacter s with
        | none => exact Or.inr rfl
        | some t =>
          rw [hrun] at hreject
          cases hreject

theorem acceptAll_cons (g : JsonObjectGrammar) (s : JsonObjectGrammarState) (tokenId : Int)
    (tokenIds : List Int) :
    g.acceptAll s (tokenId :: tokenIds) =
      match g.acceptToken s tokenId with
      | (s, true) => g.acceptAll s tokenIds
      | (_, false) => none := by
  unfold acceptAll
  rw [foldlM_cons]
  rcases g.acceptToken s tokenId with ⟨t, ok⟩
  cases ok <;> rfl

theorem acceptAll_accepted : ∀ (tokenIds : List Int) (s s' : JsonObjectGrammarState), Matching s →
    s.valid = true → g.acceptAll s tokenIds = some s' → g.Accepted s tokenIds s' := by
  intro tokenIds
  induction tokenIds with
  | nil =>
    intro s s' h hvalid hrun
    cases hrun
    exact ⟨h, hvalid, Language.leftQuotient_nil _⟩
  | cons tokenId tokenIds ih =>
    intro s s' h hvalid hrun
    rw [acceptAll_cons] at hrun
    rcases haccept : g.acceptToken s tokenId with ⟨t, ok⟩
    rw [haccept] at hrun
    cases ok with
    | false => exact nomatch hrun
    | true =>
      have hfirst := acceptToken_accepted h hvalid haccept
      have hrest := ih t s' hfirst.matching hfirst.valid hrun
      refine ⟨hrest.matching, hrest.valid, ?_⟩
      rw [text_cons, Language.leftQuotient_append, hfirst.rest, hrest.rest]

theorem offerAll_of_invalid (g : JsonObjectGrammar) (tokenIds : List Int)
    (h : s.valid = false) : g.offerAll s tokenIds = s := by
  unfold offerAll
  induction tokenIds with
  | nil => rfl
  | cons tokenId tokenIds ih =>
    rw [foldl_cons, acceptToken_of_invalid h]
    exact ih

/-- A valid state is reached by the accepted tokens alone. -/
theorem exists_acceptAll_of_offerAll : ∀ (tokenIds : List Int) (s : JsonObjectGrammarState),
    Matching s → s.valid = true → (g.offerAll s tokenIds).valid = true →
      ∃ accepted, g.acceptAll s accepted = some (g.offerAll s tokenIds) := by
  intro tokenIds
  induction tokenIds with
  | nil => exact fun s _ _ _ => ⟨[], rfl⟩
  | cons tokenId tokenIds ih =>
    intro s h hvalid hend
    have hoffer : g.offerAll s (tokenId :: tokenIds) =
        g.offerAll (g.acceptToken s tokenId).1 tokenIds := rfl
    rw [hoffer] at hend ⊢
    rcases haccept : g.acceptToken s tokenId with ⟨t, ok⟩
    cases ok with
    | true =>
      rw [haccept] at hend
      have hfirst := acceptToken_accepted h hvalid haccept
      obtain ⟨accepted, hrun⟩ := ih t hfirst.matching hfirst.valid hend
      refine ⟨tokenId :: accepted, ?_⟩
      rw [acceptAll_cons, haccept]
      exact hrun
    | false =>
      rcases acceptToken_rejected h hvalid (by rw [haccept]) with hsame | hdead
      · rw [haccept] at hsame hend
        rw [hsame] at hend ⊢
        exact ih s h hvalid hend
      · rw [hdead, offerAll_of_invalid g tokenIds rfl] at hend
        cases hend

theorem exists_acceptAll_of_prefix (g : JsonObjectGrammar) : ∀ (tokenIds : List Int)
    (s : JsonObjectGrammarState) (z : List UInt8), Matching s → s.valid = true →
    (∀ tokenId ∈ tokenIds, tokenId ∉ g.stopTokenIds ∧
      ∃ piece, g.tokenPiece? tokenId = some piece ∧ piece ≠ []) →
    (g.stopTokenIds ≠ ∅ → ∀ n < tokenIds.length, g.text (tokenIds.take n) ∉ s.rest) →
    g.text tokenIds ++ z ∈ s.rest → ∃ s', g.acceptAll s tokenIds = some s' := by
  intro tokenIds
  induction tokenIds with
  | nil => exact fun s _ _ _ _ _ _ => ⟨s, rfl⟩
  | cons tokenId tokenIds ih =>
    intro s z h hvalid hpieces hproper hprefix
    obtain ⟨hstop, piece, hpiece, hne⟩ := hpieces tokenId mem_cons_self
    rw [text_cons, text_piece hstop hpiece, List.append_assoc] at hprefix
    have hopen : ¬ (s.rootComplete = true ∧ g.stopTokenIds ≠ ∅ ∨ piece = []) := by
      rintro (⟨hcomplete, hsome⟩ | hempty)
      · exact hproper hsome 0 (by simp) ((nil_mem_rest s).mpr hcomplete)
      · exact hne hempty
    have hstep := acceptToken_piece h hvalid hpiece hstop
    rw [if_neg hopen] at hstep
    cases hrun : piece.foldlM consumeCharacter s with
    | none => exact absurd hprefix (matcher_residual.run_none piece s h hrun _)
    | some t =>
      rw [hrun] at hstep
      obtain ⟨ht, hquot⟩ := matcher_residual.run piece s t h hrun
      rw [acceptAll_cons, hstep]
      refine ih (t.commit tokenId) z (matching_commit ht tokenId)
        ((foldlM_keeps piece s t hrun).1.trans hvalid)
        (fun i hi => hpieces i (mem_cons_of_mem _ hi)) (fun hsome n hn hmem => ?_) ?_
      · refine hproper hsome (n + 1) (Nat.succ_lt_succ hn) ?_
        have hmem : g.text (tokenIds.take n) ∈ t.rest := hmem
        rw [take_succ_cons, text_cons, text_piece hstop hpiece]
        rw [← hquot] at hmem
        exact hmem
      · have hrest : (t.commit tokenId).rest = s.rest.leftQuotient piece := hquot.symm
        rw [hrest]
        exact hprefix

/-! ## The mask -/

def hasBit (bitmask : List Nat) (tokenId : Nat) : Bool :=
  (bitmask.getD (tokenId / 32) 0).testBit (tokenId % 32)

theorem hasBit_modify {bitmask : List Nat} {i : Nat} (f : Nat → Nat) (hi : i < bitmask.length)
    (t : Nat) : hasBit (bitmask.modify i f) t =
      if t / 32 = i then (f (bitmask.getD i 0)).testBit (t % 32) else hasBit bitmask t := by
  unfold hasBit
  by_cases ht : t / 32 = i
  · simp [ht, hi]
  · simp [ht, Ne.symm ht]

theorem hasBit_foldl_setBit (tokenIds : List Nat) {bitmask : List Nat}
    (hlt : ∀ tokenId ∈ tokenIds, tokenId / 32 < bitmask.length) (t : Nat) :
    hasBit (tokenIds.foldl setBit bitmask) t = true ↔ hasBit bitmask t = true ∨ t ∈ tokenIds := by
  induction tokenIds generalizing bitmask with
  | nil => simp
  | cons tokenId tokenIds ih =>
    have hlength : (setBit bitmask tokenId).length = bitmask.length := length_modify ..
    rw [foldl_cons, ih fun i hi => hlength ▸ hlt i (mem_cons_of_mem _ hi), setBit,
      hasBit_modify _ (hlt tokenId mem_cons_self), mem_cons, ← or_assoc]
    refine or_congr_left ?_
    by_cases hword : t / 32 = tokenId / 32
    · have hbit : tokenId % 32 = t % 32 ↔ t = tokenId := by omega
      rw [if_pos hword, Nat.testBit_or, Nat.one_shiftLeft, Nat.testBit_two_pow, ← hword]
      simp [hasBit, hbit]
    · have hne : t ≠ tokenId := fun he => hword (he ▸ rfl)
      rw [if_neg hword]
      simp [hne]

theorem any_of_hasBit {bitmask : List Nat} {t : Nat} (h : hasBit bitmask t = true) :
    bitmask.any (fun word => word ≠ 0) = true := by
  unfold hasBit at h
  rw [List.getD_eq_getElem?_getD] at h
  cases hword : bitmask[t / 32]? with
  | none =>
    rw [hword] at h
    exact absurd h (by simp)
  | some word =>
    refine any_eq_true.mpr ⟨word, mem_of_getElem? hword, decide_eq_true fun hzero => ?_⟩
    rw [hword, hzero] at h
    exact absurd h (by simp)

/-- The computed mask of a matcher is the tokens it accepts. -/
theorem hasBit_computeAllowedBitmask (hvalid : s.valid = true) (hphase : s.reasoningPhase = false)
    (t : Nat) : hasBit (g.computeAllowedBitmask s) t = true ↔
      t < g.vocabSize ∧ g.canAcceptToken s t = true := by
  unfold computeAllowedBitmask
  rw [if_neg (by rw [hvalid]; simp), if_neg (by rw [hphase]; simp), hasBit_foldl_setBit]
  · simp [hasBit]
  · intro tokenId hmem
    have := mem_range.mp (mem_of_mem_filter hmem)
    rw [length_replicate, bitmaskNumWords]
    omega

theorem tokenPiece?_eq_some (h : g.tokenPiece? tokenId = some piece) :
    ∃ n < g.vocabSize, (n : Int) = tokenId := by
  unfold tokenPiece? at h
  split at h
  · cases h
  · refine ⟨tokenId.toNat, (List.getElem?_eq_some_iff.mp h).1, ?_⟩
    omega

theorem someTokenAllowed_of_accept (h : Matching s) (hvalid : s.valid = true)
    (hpiece : g.tokenPiece? tokenId = some piece)
    (haccept : (g.acceptToken s tokenId).2 = true) : g.someTokenAllowed s = true := by
  obtain ⟨n, hn, hcast⟩ := tokenPiece?_eq_some hpiece
  refine any_of_hasBit (t := n) ?_
  rw [hasBit_computeAllowedBitmask hvalid h.reasoning, hcast]
  exact ⟨hn, haccept⟩

/-- Every single ASCII character is the piece of a token that is no stop token. -/
def WritesAscii (g : JsonObjectGrammar) : Prop :=
  ∀ b < 0x80, ∃ tokenId, tokenId ∉ g.stopTokenIds ∧ g.tokenPiece? tokenId = some [b]

/-- There is no stop token, or one that the vocabulary has. -/
def CanStop (g : JsonObjectGrammar) : Prop :=
  g.stopTokenIds = ∅ ∨ ∃ tokenId ∈ g.stopTokenIds, ∃ piece, g.tokenPiece? tokenId = some piece

theorem someTokenAllowed_of_matching (h : Matching s) (hvalid : s.valid = true)
    (hascii : g.WritesAscii) (hstop : g.CanStop) : g.someTokenAllowed s = true := by
  by_cases hend : s.rootComplete = true ∧ g.stopTokenIds ≠ ∅
  · -- the object is complete, and a stop token is due
    rcases hstop with hnone | ⟨tokenId, hmem, piece, hpiece⟩
    · exact absurd hnone hend.2
    · refine someTokenAllowed_of_accept h hvalid hpiece ?_
      rw [acceptToken_stop h hvalid hpiece hmem, if_pos hend.1]
  · obtain ⟨b, hb, s', hstep⟩ := exists_ascii_next h
    obtain ⟨tokenId, hmem, hpiece⟩ := hascii b hb
    refine someTokenAllowed_of_accept h hvalid hpiece ?_
    rw [acceptToken_piece h hvalid hpiece hmem, if_neg (by
      simp only [cons_ne_nil, or_false]
      exact hend)]
    rw [foldlM_cons, hstep]
    rfl

end

/-! ## The constraint -/

/-- Tokens accepted one after the other write the beginning of a JSON object; tokens that write the
beginning of one are accepted as long as no stop token is due; the matcher is complete exactly when
the object is, which is when it takes stop tokens; and with a vocabulary that can go on, every
valid state allows a token. -/
theorem json_object_exact (g : JsonObjectGrammar) :
    (∀ (tokenIds : List Int) (s : JsonObjectGrammarState),
      g.acceptAll (initialState false) tokenIds = some s →
      (∃ z, g.text tokenIds ++ z ∈ objectText) ∧
      (s.isComplete = true ↔ g.text tokenIds ∈ objectText) ∧
      ∀ tokenId ∈ g.stopTokenIds, ∀ piece, g.tokenPiece? tokenId = some piece →
        ((g.acceptToken s tokenId).2 = true ↔ s.isComplete = true ∧ s.parseMode = .none)) ∧
    (∀ (tokenIds : List Int) (z : List UInt8), (∀ tokenId ∈ tokenIds, tokenId ∉ g.stopTokenIds ∧
        ∃ piece, g.tokenPiece? tokenId = some piece ∧ piece ≠ []) →
      (g.stopTokenIds ≠ ∅ → ∀ n < tokenIds.length, g.text (tokenIds.take n) ∉ objectText) →
      g.text tokenIds ++ z ∈ objectText → ∃ s, g.acceptAll (initialState false) tokenIds = some s) ∧
    (g.WritesAscii → g.CanStop → ∀ tokenIds : List Int,
      (g.offerAll (initialState false) tokenIds).valid = true →
      g.someTokenAllowed (g.offerAll (initialState false) tokenIds) = true) := by
  refine ⟨fun tokenIds s hrun => ?_, fun tokenIds z hpieces hproper hprefix => ?_,
    fun hascii hstop tokenIds hvalid => ?_⟩
  · have hend := acceptAll_accepted tokenIds _ s matching_initialState rfl hrun
    have hrest : objectText.leftQuotient (g.text tokenIds) = s.rest := hend.rest
    have hcomplete : s.isComplete = true ↔ s.rootComplete = true := by
      unfold isComplete
      rw [hend.valid, Bool.true_and]
    refine ⟨?_, ?_, fun tokenId hmem piece hpiece => ?_⟩
    · obtain ⟨z, hz, -⟩ := hasAscii_rest hend.matching
      rw [← hrest] at hz
      exact ⟨z, hz⟩
    · rw [hcomplete, ← nil_mem_rest, ← hrest, Language.mem_leftQuotient, append_nil]
    · rw [acceptToken_stop hend.matching hend.valid hpiece hmem, hcomplete]
      by_cases hroot : s.rootComplete = true
      · rw [if_pos hroot]
        exact iff_of_true rfl ⟨hroot, hend.matching.parseMode_of_complete hroot⟩
      · rw [if_neg hroot]
        exact iff_of_false (by simp) fun h => hroot h.1
  · exact exists_acceptAll_of_prefix g tokenIds _ z matching_initialState rfl hpieces hproper
      hprefix
  · obtain ⟨accepted, hrun⟩ :=
      exists_acceptAll_of_offerAll tokenIds _ matching_initialState rfl hvalid
    have hend := acceptAll_accepted accepted _ _ matching_initialState rfl hrun
    exact someTokenAllowed_of_matching hend.matching hvalid hascii hstop

/-- The ASCII characters as tokens. -/
def asciiPieces : List (List UInt8) := (List.range 128).map fun n => [UInt8.ofNat n]

theorem asciiPieces_getElem? (b : UInt8) (h : b < 0x80) : asciiPieces[b.toNat]? = some [b] := by
  have hlt : b.toNat < 128 := h
  unfold asciiPieces
  rw [List.getElem?_map, List.getElem?_range hlt, Option.map_some, UInt8.ofNat_toNat]

/-- With one more token that stops, nothing the model may say leads to an empty mask. -/
theorem json_object_exact_ascii :
    let g : JsonObjectGrammar := { tokenPieces := asciiPieces ++ [[]], stopTokenIds := {128} }
    g.someTokenAllowed (g.offerAll (initialState false) [123, 34, 97, 34, 58, 116, 114, 117]) =
      true := by
  intro g
  refine (json_object_exact g).2.2 (fun b hb => ⟨b.toNat, ?_, ?_⟩)
    (Or.inr ⟨128, by decide, [], by decide +kernel⟩) _ (by decide +kernel)
  · have hlt : b.toNat < 128 := hb
    have hne : (b.toNat : Int) ≠ 128 := by omega
    simpa [g] using hne
  · have hget := asciiPieces_getElem? b hb
    have hlt := (List.getElem?_eq_some_iff.mp hget).1
    unfold tokenPiece?
    rw [if_neg (by omega), Int.toNat_natCast, List.getElem?_append_left hlt]
    exact hget

/-- Where the letter `e` stops the generation, `true` cannot be written: behind
`{"a":tru` no token is allowed. -/
theorem no_token_allowed_when_letter_stops :
    let g : JsonObjectGrammar := { tokenPieces := asciiPieces, stopTokenIds := {101} }
    (∀ b < 0x80, ∃ tokenId, g.tokenPiece? tokenId = some [b]) ∧
    (∃ tokenId ∈ g.stopTokenIds, ∃ piece, g.tokenPiece? tokenId = some piece) ∧
    ∃ s, g.acceptAll (initialState false) [123, 34, 97, 34, 58, 116, 114, 117] = some s ∧
      s.valid = true ∧ g.someTokenAllowed s = false := by
  intro g
  refine ⟨fun b hb => ⟨b.toNat, ?_⟩, ⟨101, by decide, [101], by decide +kernel⟩, ?_⟩
  · exact asciiPieces_getElem? b hb
  · refine ⟨_, rfl, ?_, ?_⟩
    · decide +kernel
    · decide +kernel

/-! ## Every generation can be completed -/

theorem exists_completion {g : JsonObjectGrammar} (hascii : g.WritesAscii) (w : List UInt8) :
    ∀ s : JsonObjectGrammarState, Matching s → s.valid = true → (∀ b ∈ w, b < 0x80) → w ∈ s.rest →
      ∃ tokenIds s', g.acceptAll s tokenIds = some s' ∧ s'.isComplete = true := by
  induction w with
  | nil =>
    intro s _ hvalid _ hw
    refine ⟨[], s, rfl, ?_⟩
    rw [isComplete, hvalid, (nil_mem_rest s).mp hw]
    rfl
  | cons b w ih =>
    intro s h hvalid hbytes hw
    by_cases hcomplete : s.rootComplete = true
    · refine ⟨[], s, rfl, ?_⟩
      rw [isComplete, hvalid, hcomplete]
      rfl
    obtain ⟨tokenId, hstop, hpiece⟩ := hascii b (hbytes b mem_cons_self)
    have hstep := acceptToken_piece h hvalid hpiece hstop
    rw [if_neg (by simp [hcomplete])] at hstep
    cases hrun : [b].foldlM consumeCharacter s with
    | none => exact absurd hw (matcher_residual.run_none [b] s h hrun w)
    | some t =>
      rw [hrun] at hstep
      obtain ⟨ht, hquot⟩ := matcher_residual.run [b] s t h hrun
      have hw : w ∈ (t.commit tokenId).rest := by
        show w ∈ t.rest
        rw [← hquot]
        exact hw
      obtain ⟨tokenIds, s', hall, hend⟩ := ih _ (matching_commit ht tokenId)
        ((foldlM_keeps [b] s t hrun).1.trans hvalid) (fun a ha => hbytes a (mem_cons_of_mem _ ha)) hw
      refine ⟨tokenId :: tokenIds, s', ?_, hend⟩
      rw [acceptAll_cons, hstep]
      exact hall

/-- Whatever was offered before, some tokens that are all accepted complete the object. -/
theorem generation_completes (g : JsonObjectGrammar) (hascii : g.WritesAscii) (tokenIds : List Int)
    (hvalid : (g.offerAll (initialState false) tokenIds).valid = true) :
    ∃ rest s', g.acceptAll (g.offerAll (initialState false) tokenIds) rest = some s' ∧
      s'.isComplete = true := by
  obtain ⟨accepted, hrun⟩ :=
    exists_acceptAll_of_offerAll tokenIds _ matching_initialState rfl hvalid
  have hend := acceptAll_accepted accepted _ _ matching_initialState rfl hrun
  obtain ⟨w, hw, hbytes⟩ := hasAscii_rest hend.matching
  exact exists_completion hascii w _ hend.matching hvalid hbytes hw

theorem generation_completes_ascii :
    let g : JsonObjectGrammar := { tokenPieces := asciiPieces, stopTokenIds := ∅ }
    ∃ rest s', g.acceptAll (g.offerAll (initialState false) [123, 34, 97]) rest = some s' ∧
      s'.isComplete = true := by
  intro g
  exact generation_completes g (fun b hb => ⟨b.toNat, by simp [g], asciiPieces_getElem? b hb⟩) _
    (by decide +kernel)

end JsonObjectGrammar

end Xllm.Framework
