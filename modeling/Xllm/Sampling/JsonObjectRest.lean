import Xllm.Sampling.JsonQuotients

/-!
# The matcher is an automaton of residuals

`rest s` is the language of what may follow in a state of the matcher: the rest of the scalar that is
open, then the rest of the innermost container, then what follows a value in each container around
it, and at last whitespace. Consuming a byte takes the left quotient of this language
(`consumeCharacter_leaves`), over any nesting, because the stack of containers is a product of
languages.

`Matching` is the matcher's invariant: a state that belongs to its container's type, and the fields
of the open scalar in range.
-/

namespace Xllm.Framework

open Xllm.Lib Json List
open scoped Computability

namespace JsonObjectGrammarState

/-! ## What may follow -/

/-- Behind the containers' closing bracket. -/
def after : List ContainerFrame → Language UInt8
  | [] => ws
  | frame :: outer => valueTail frame.type * after outer

/-- Behind the closing quote. -/
def roleTail (s : JsonObjectGrammarState) (frame : ContainerFrame) : Language UInt8 :=
  match s.stringRole with
  | .objectKey => keyTail
  | .value => valueTail frame.type

/-- Up to the closing bracket of the innermost container. -/
def innerRest (s : JsonObjectGrammarState) (frame : ContainerFrame) : Language UInt8 :=
  match s.parseMode with
  | .none => frameRest frame.state
  | .string => stringRest * s.roleTail frame
  | .stringEscape => escapeRest * (stringRest * s.roleTail frame)
  | .stringUnicode => hexDigits (4 - s.unicodeDigits) * (stringRest * s.roleTail frame)
  | .number => numberRest s.numberState * valueTail frame.type
  | .literal => word (s.literalTarget.drop s.literalIndex) * valueTail frame.type

def rest (s : JsonObjectGrammarState) : Language UInt8 :=
  if s.rootComplete = true then ws
  else
    match s.containers with
    | [] => objectText
    | frame :: outer => s.innerRest frame * after outer

/-! ## The invariant -/

end JsonObjectGrammarState

def ContainerState.type : ContainerState → ContainerType
  | .objectKeyOrEnd | .objectKeyAfterComma | .objectColon | .objectValue | .objectCommaOrEnd =>
    .object
  | .arrayValueOrEnd | .arrayValueAfterComma | .arrayCommaOrEnd => .array

def ParseMode.inString : ParseMode → Bool
  | .string | .stringEscape | .stringUnicode => true
  | .none | .number | .literal => false

structure Matching (s : JsonObjectGrammarState) : Prop where
  reasoning : s.reasoningPhase = false
  root : s.containers = [] → s.parseMode = .none ∧ (s.rootComplete = false → s.rootStarted = false)
  complete : s.rootComplete = true → s.containers = []
  typed : ∀ frame ∈ s.containers, frame.state.type = frame.type
  key : s.parseMode.inString = true → s.stringRole = .objectKey →
    ∀ frame, s.containers.head? = some frame → frame.type = .object
  unicode : s.parseMode = .stringUnicode → s.unicodeDigits < 4
  literal : s.parseMode = .literal → s.literalIndex < s.literalTarget.length ∧
    ∀ b ∈ s.literalTarget, b < 0x80

theorem Matching.of_none {s : JsonObjectGrammarState} (reasoning : s.reasoningPhase = false)
    (mode : s.parseMode = .none)
    (root : s.containers = [] → s.rootComplete = false → s.rootStarted = false)
    (complete : s.rootComplete = true → s.containers = [])
    (typed : ∀ frame ∈ s.containers, frame.state.type = frame.type) : Matching s := by
  refine ⟨reasoning, fun hs => ⟨mode, root hs⟩, complete, typed, fun hm => ?_, fun hm => ?_,
    fun hm => ?_⟩
  · rw [mode] at hm
    cases hm
  · rw [mode] at hm
    cases hm
  · rw [mode] at hm
    cases hm

/-- The result of a step that was to leave the language `L`. -/
def Leaves (L : Language UInt8) : Option JsonObjectGrammarState → Prop
  | some s => Matching s ∧ s.rest = L
  | none => L = 0

section

open JsonObjectGrammarState

variable {s : JsonObjectGrammarState} {frame : ContainerFrame} {outer : List ContainerFrame}
  {c : UInt8}

theorem rest_inner (h : Matching s) (hs : s.containers = frame :: outer) :
    s.rest = s.innerRest frame * after outer := by
  have hopen : ¬ s.rootComplete = true := by
    intro hc
    rw [h.complete hc] at hs
    cases hs
  unfold rest
  rw [if_neg hopen, hs]

/-! ## Completing a value -/

/-- A completed value leaves what may follow it in the containers around it. -/
theorem completeValue_leaves (hreasoning : s.reasoningPhase = false)
    (hopen : s.rootComplete = false) (hmode : s.parseMode = .none)
    (htyped : ∀ frame ∈ s.containers, frame.state.type = frame.type) :
    Leaves (after s.containers) (some s.completeValue) := by
  unfold completeValue
  cases hs : s.containers with
  | nil =>
    refine ⟨.of_none hreasoning hmode (nofun) (fun _ => rfl)
      (fun f hf => nomatch hf), ?_⟩
    unfold rest
    rfl
  | cons frame outer =>
    have hframe : (if frame.type = .object then ContainerState.objectCommaOrEnd
        else .arrayCommaOrEnd).type = frame.type ∧
        frameRest (if frame.type = .object then ContainerState.objectCommaOrEnd
          else .arrayCommaOrEnd) = valueTail frame.type := by
      cases frame.type with
      | object => exact ⟨rfl, rfl⟩
      | array => exact ⟨rfl, rfl⟩
    refine ⟨.of_none hreasoning hmode (nofun) (fun hc => ?_) ?_, ?_⟩
    · rw [hopen] at hc
      cases hc
    · intro f hf
      rcases mem_cons.mp hf with rfl | hf
      · exact hframe.1
      · exact htyped f (by rw [hs]; exact mem_cons_of_mem _ hf)
    · unfold rest innerRest
      rw [if_neg (by rw [hopen]; simp), hmode]
      dsimp only
      rw [hframe.2]
      rfl

theorem Matching.open_of_containers (h : Matching s) (hs : s.containers = frame :: outer) :
    s.rootComplete = false := by
  cases hc : s.rootComplete with
  | false => rfl
  | true =>
    rw [h.complete hc] at hs
    cases hs

/-- Closing a container of the right type leaves what follows its closing bracket. -/
theorem closeContainer_leaves (h : Matching s) (hmode : s.parseMode = .none)
    (hs : s.containers = frame :: outer) :
    Leaves (after outer) (s.closeContainer frame.type) := by
  unfold closeContainer
  rw [hs]
  dsimp only
  rw [if_pos rfl]
  have hopen := h.open_of_containers hs
  refine completeValue_leaves (s := { s with containers := outer }) h.reasoning hopen hmode
    fun f hf => ?_
  exact h.typed f (by rw [hs]; exact mem_cons_of_mem _ hf)

/-! ## Starting a value -/

theorem Matching.scalar {s' : JsonObjectGrammarState} (h : Matching s)
    (hs : s.containers = frame :: outer) (hcontainers : s'.containers = s.containers)
    (hcomplete : s'.rootComplete = s.rootComplete)
    (hreasoning : s'.reasoningPhase = s.reasoningPhase)
    (hkey : s'.parseMode.inString = true → s'.stringRole = .objectKey → frame.type = .object)
    (hunicode : s'.parseMode = .stringUnicode → s'.unicodeDigits < 4)
    (hliteral : s'.parseMode = .literal → s'.literalIndex < s'.literalTarget.length ∧
      ∀ b ∈ s'.literalTarget, b < 0x80) : Matching s' := by
  refine ⟨hreasoning.trans h.reasoning, fun hnil => ?_, fun hc => ?_, ?_, ?_, hunicode, hliteral⟩
  · rw [hcontainers, hs] at hnil
    cases hnil
  · rw [hcontainers]
    exact h.complete (hcomplete.symm.trans hc)
  · rw [hcontainers]
    exact h.typed
  · intro hm hr f hf
    rw [hcontainers, hs, List.head?_cons, Option.some.injEq] at hf
    rw [← hf]
    exact hkey hm hr

theorem Matching.push (h : Matching s) (hs : s.containers = frame :: outer)
    (hmode : s.parseMode = .none) (state : ContainerState) :
    Matching (s.pushContainer state.type state) := by
  refine .of_none h.reasoning hmode (nofun) ?_ ?_
  · intro hc
    exact absurd (h.open_of_containers hs) (by
      have hc : s.rootComplete = true := hc
      rw [hc]
      simp)
  · intro f hf
    rcases mem_cons.mp hf with rfl | hf
    · rfl
    · exact h.typed f hf

theorem startValue_leaves (h : Matching s) (hmode : s.parseMode = .none)
    (hs : s.containers = frame :: outer) (c : UInt8) :
    Leaves (valueRest c * after (frame :: outer)) (s.startValue c) := by
  have hafter : after (frame :: outer) = valueTail frame.type * after outer := rfl
  -- a container that opens has the present containers around it
  have hpush : ∀ state : ContainerState, Leaves (frameRest state * after (frame :: outer))
      (some (s.pushContainer state.type state)) := by
    intro state
    refine ⟨h.push hs hmode state, ?_⟩
    rw [rest_inner (h.push hs hmode state) rfl, hs]
    unfold innerRest pushContainer
    rw [hmode]
  have hscalar : ∀ s' : JsonObjectGrammarState, ∀ L : Language UInt8, Matching s' →
      s'.containers = s.containers → s'.innerRest frame = L * valueTail frame.type →
      Leaves (L * after (frame :: outer)) (some s') := by
    intro s' L hs' hcontainers hinner
    refine ⟨hs', ?_⟩
    rw [rest_inner hs' (hcontainers.trans hs), hinner, hafter, mul_assoc]
  have hnumber : ∀ n : NumberState, Leaves (numberRest n * after (frame :: outer))
      (some (s.startNumber n)) := by
    intro n
    exact hscalar _ _ (h.scalar hs rfl rfl rfl (nofun) (nofun) fun hm =>
        nomatch hm) rfl rfl
  have hliteral : ∀ (b : UInt8) (target : List UInt8), target ≠ [] →
      (b :: target).all (fun x => x < 0x80) = true →
      Leaves (word target * after (frame :: outer)) (some (s.startLiteral (b :: target))) := by
    intro b target hne hall
    have hascii : ∀ x ∈ b :: target, x < 0x80 := fun x hx =>
      of_decide_eq_true (all_eq_true.mp hall x hx)
    refine hscalar _ _ (h.scalar hs rfl rfl rfl (nofun) (nofun) fun _ =>
        ⟨?_, hascii⟩) rfl rfl
    have := length_pos_iff.mpr hne
    simp only [startLiteral, length_cons]
    omega
  unfold startValue valueRest
  split
  · exact hpush .objectKeyOrEnd
  split
  · exact hpush .arrayValueOrEnd
  split
  · exact hscalar _ _ (h.scalar hs rfl rfl rfl (nofun)
      (nofun) fun hm =>
        nomatch hm) rfl rfl
  split
  · exact hnumber .afterMinus
  split
  · exact hnumber .zero
  split
  · exact hnumber .integer
  split
  · exact hliteral _ _ (by simp) rfl
  split
  · exact hliteral _ _ (by simp) rfl
  split
  · exact hliteral _ _ (by simp) rfl
  · exact zero_mul _

/-! ## Outside scalars -/

theorem setState_leaves (h : Matching s) (hmode : s.parseMode = .none)
    (hs : s.containers = frame :: outer) {state : ContainerState}
    (htype : state.type = frame.type) :
    Leaves (frameRest state * after outer) (some (s.setState state)) := by
  have hmatch : Matching (s.setState state) := by
    unfold setState
    rw [hs]
    refine .of_none h.reasoning hmode (nofun) (fun hc => ?_)
      fun f hf => ?_
    · have hopen := h.open_of_containers hs
      rw [hopen] at hc
      cases hc
    · rcases mem_cons.mp hf with rfl | hf
      · exact htype
      · exact h.typed f (by rw [hs]; exact mem_cons_of_mem _ hf)
  have hset : (s.setState state).containers = { frame with state } :: outer := by
    unfold setState
    rw [hs]
  refine ⟨hmatch, ?_⟩
  rw [rest_inner hmatch hset]
  unfold innerRest setState
  rw [hs]
  rw [hmode]

theorem startKey_leaves (h : Matching s) (hs : s.containers = frame :: outer)
    (htype : frame.type = .object) :
    Leaves (if c = ascii '"' then stringRest * (keyTail * after outer) else 0)
      (if ContainerType.object = .object ∧ c = ascii '"' then some (s.startString .objectKey)
        else none) := by
  by_cases hquote : c = ascii '"'
  · have hmatch : Matching (s.startString .objectKey) :=
      h.scalar hs rfl rfl rfl (fun _ _ => htype) (nofun)
        nofun
    rw [if_pos hquote, if_pos ⟨rfl, hquote⟩]
    refine ⟨hmatch, ?_⟩
    rw [rest_inner hmatch hs, ← mul_assoc]
    rfl
  · rw [if_neg hquote, if_neg (fun hq => hquote hq.2)]
    exact rfl

/-- By the innermost container and its state: what may follow there, divided by the character, is what
may follow the state after it. -/
theorem consumeStructural_leaves (h : Matching s) (hmode : s.parseMode = .none) (c : UInt8) :
    Leaves (s.rest.leftQuotient [c]) (s.consumeStructural c) := by
  unfold consumeStructural
  by_cases hcomplete : s.rootComplete = true
  · have hrest : s.rest = ws := by
      unfold rest
      rw [if_pos hcomplete]
    rw [if_pos hcomplete, hrest, leftQuotient_ws]
    by_cases hws : isJsonWhitespace c = true
    · rw [if_pos hws, if_pos hws]
      exact ⟨h, hrest⟩
    · rw [if_neg hws, if_neg hws]
      exact rfl
  · rw [if_neg hcomplete]
    have hopen : s.rootComplete = false := Bool.eq_false_iff.mpr hcomplete
    cases hs : s.containers with
    | nil =>
      have hstarted := (h.root hs).2 hopen
      have hrest : s.rest = objectText := by
        unfold rest
        rw [if_neg hcomplete, hs]
      -- the object is not empty, so the character is whitespace before it or its brace
      have hobject : [] ∉ object := by
        rw [object_eq, nil_mem_mul]
        exact fun hnil => nil_notMem_byte _ hnil.1
      have hquot : s.rest.leftQuotient [c] =
          (if isJsonWhitespace c = true then objectText else 0) +
            (if c = ascii '{' then frameRest .objectKeyOrEnd * ws else 0) := by
        rw [hrest]
        unfold objectText
        rw [leftQuotient_ws_mul, leftQuotient_mul hobject, leftQuotient_object]
        congr 1
        split
        · rfl
        · exact zero_mul _
      rw [hquot]
      by_cases hws : isJsonWhitespace c = true
      · have hbrace : c ≠ ascii '{' := isJsonWhitespace_ne hws (by decide)
        rw [if_pos hws, if_pos hws, if_neg hbrace, if_neg (by rw [hstarted]; simp), add_zero]
        exact ⟨h, hrest⟩
      · rw [if_neg hws, if_neg hws, zero_add]
        by_cases hbrace : c = ascii '{'
        · rw [if_pos hbrace, if_pos ⟨by rw [hstarted]; simp, hbrace⟩]
          have hmatch : Matching ({ s with rootStarted := true, containers := [] }.pushContainer
              .object .objectKeyOrEnd) := by
            refine .of_none h.reasoning hmode (nofun)
              (fun hc => absurd hc hcomplete) fun f hf => ?_
            rcases mem_cons.mp hf with rfl | hf
            · rfl
            · cases hf
          refine ⟨hmatch, ?_⟩
          rw [rest_inner hmatch rfl]
          rw [hmode]
          rfl
        · rw [if_neg hbrace, if_neg (fun hb => hbrace hb.2)]
          exact rfl
    | cons frame outer =>
      have hrest : s.rest = frameRest frame.state * after outer := by
        rw [rest_inner h hs]
        unfold innerRest
        rw [hmode]
      have htype := h.typed frame (by rw [hs]; exact mem_cons_self)
      dsimp only
      rw [hrest]
      by_cases hws : isJsonWhitespace c = true
      · rw [if_pos hws, leftQuotient_frameRest_ws hws]
        exact ⟨h, hrest⟩
      · rw [if_neg hws, leftQuotient_frameRest (Bool.eq_false_iff.mpr hws)]
        have hclose := closeContainer_leaves h hmode hs
        have hvalue := startValue_leaves h hmode hs c
        unfold frameNext
        cases hstate : frame.state with
        | objectKeyOrEnd =>
          rw [hstate] at htype
          rw [← htype] at hclose ⊢
          dsimp only
          by_cases hbrace : c = ascii '}'
          · rw [if_pos hbrace, if_pos ⟨rfl, hbrace⟩]
            exact hclose
          · have hother : ¬ (ContainerState.objectKeyOrEnd.type = .object ∧ c = ascii '}') :=
              fun hb => hbrace hb.2
            rw [if_neg hbrace, if_neg hother]
            exact startKey_leaves h hs htype.symm
        | objectKeyAfterComma =>
          rw [hstate] at htype
          rw [← htype]
          exact startKey_leaves h hs htype.symm
        | objectColon =>
          dsimp only
          split
          · exact setState_leaves h hmode hs (by rw [← htype, hstate]; rfl)
          · exact rfl
        | objectValue =>
          rw [hstate] at htype
          unfold JsonObjectGrammarState.after at hvalue
          rw [← htype] at hvalue
          exact hvalue
        | objectCommaOrEnd =>
          rw [hstate] at htype
          rw [← htype] at hclose
          dsimp only
          split
          · exact setState_leaves h hmode hs htype
          split
          · exact hclose
          · exact rfl
        | arrayValueOrEnd =>
          rw [hstate] at htype
          unfold JsonObjectGrammarState.after at hvalue
          rw [← htype] at hclose hvalue
          dsimp only
          split
          · exact hclose
          · exact hvalue
        | arrayValueAfterComma =>
          rw [hstate] at htype
          unfold JsonObjectGrammarState.after at hvalue
          rw [← htype] at hvalue
          exact hvalue
        | arrayCommaOrEnd =>
          rw [hstate] at htype
          rw [← htype] at hclose
          dsimp only
          split
          · exact setState_leaves h hmode hs htype
          split
          · exact hclose
          · exact rfl

/-! ## Scalars -/

theorem Matching.exists_frame (h : Matching s) (hmode : s.parseMode ≠ .none) :
    ∃ frame outer, s.containers = frame :: outer := by
  cases hs : s.containers with
  | nil => exact absurd (h.root hs).1 hmode
  | cons frame outer => exact ⟨frame, outer, rfl⟩

theorem after_containers (hs : s.containers = frame :: outer) :
    after s.containers = valueTail frame.type * after outer := by
  rw [hs]
  rfl

theorem scalar_leaves {s' : JsonObjectGrammarState} {L M : Language UInt8} (hmatch : Matching s')
    (hs : s'.containers = frame :: outer) (hinner : s'.innerRest frame = L * M) :
    Leaves (L * (M * after outer)) (some s') := by
  refine ⟨hmatch, ?_⟩
  rw [rest_inner hmatch hs, hinner, mul_assoc]

theorem consumeStringCharacter_leaves (h : Matching s) (hmode : s.parseMode.inString = true)
    (c : UInt8) : Leaves (s.rest.leftQuotient [c]) (s.consumeStringCharacter c) := by
  have hne : s.parseMode ≠ .none := by
    intro hm
    rw [hm] at hmode
    cases hmode
  obtain ⟨frame, outer, hs⟩ := h.exists_frame hne
  have hopen := h.open_of_containers hs
  have hkey : s.stringRole = .objectKey → frame.type = .object := fun hr =>
    h.key hmode hr frame (by rw [hs]; rfl)
  -- back to the ordinary characters of the string
  have hstring : ∀ s' : JsonObjectGrammarState, s'.containers = s.containers →
      s'.rootComplete = s.rootComplete → s'.reasoningPhase = s.reasoningPhase →
      s'.stringRole = s.stringRole → s'.parseMode = .string →
      Leaves (stringRest * (s.roleTail frame * after outer)) (some s') := by
    intro s' hc hr hp hrole hm
    refine scalar_leaves (h.scalar hs hc hr hp (fun _ hk => hkey (hrole.symm.trans hk))
      (fun hu => ?_) fun hl => ?_) (hc.trans hs) ?_
    · rw [hm] at hu
      cases hu
    · rw [hm] at hl
      cases hl
    · unfold innerRest roleTail
      rw [hm, hrole]
  rw [rest_inner h hs]
  cases hm : s.parseMode with
  | string =>
    have hinner : s.innerRest frame = stringRest * s.roleTail frame := by
      unfold innerRest
      rw [hm]
    unfold consumeStringCharacter
    rw [hinner, mul_assoc, leftQuotient_stringRest_mul, hm]
    by_cases hquote : c = ascii '"'
    · rw [if_pos hquote, if_pos hquote]
      have hclosed : ∀ stringRole, Matching { s with parseMode := .none, stringRole } :=
        fun _ => .of_none h.reasoning rfl (fun hnil => absurd hnil (by rw [hs]; simp)) h.complete
          h.typed
      cases hrole : s.stringRole with
      | objectKey =>
        have htail : s.roleTail frame = keyTail := by
          unfold roleTail
          rw [hrole]
        rw [htail]
        exact setState_leaves (hclosed .objectKey) rfl hs (hkey hrole).symm
      | value =>
        have htail : s.roleTail frame = valueTail frame.type := by
          unfold roleTail
          rw [hrole]
        rw [htail, ← after_containers hs]
        exact completeValue_leaves (s := { s with parseMode := .none, stringRole := .value })
          h.reasoning hopen rfl h.typed
    · rw [if_neg hquote, if_neg hquote]
      by_cases hescape : c = ascii '\\'
      · rw [if_pos hescape, if_pos hescape]
        have hmatch : Matching { s with parseMode := .stringEscape } :=
          h.scalar hs rfl rfl rfl (fun _ hk => hkey hk) (nofun)
            nofun
        rw [← mul_assoc stringRest]
        exact scalar_leaves hmatch hs rfl
      · rw [if_neg hescape, if_neg hescape]
        by_cases hprint : 0x20 ≤ c
        · rw [if_pos hprint, if_pos hprint]
          exact hstring s rfl rfl rfl rfl hm
        · rw [if_neg hprint, if_neg hprint]
          exact rfl
  | stringEscape =>
    have hinner : s.innerRest frame = escapeRest * (stringRest * s.roleTail frame) := by
      unfold innerRest
      rw [hm]
    unfold consumeStringCharacter
    rw [hinner, mul_assoc, leftQuotient_escapeRest_mul, hm]
    by_cases hescape : isJsonEscape c = true
    · rw [if_pos hescape, if_neg (not_not.mpr hescape)]
      by_cases hu : c = ascii 'u'
      · rw [if_pos hu, if_pos hu]
        have hmatch : Matching { s with parseMode := .stringUnicode, unicodeDigits := 0 } :=
          h.scalar hs rfl rfl rfl (fun _ hk => hkey hk) (fun _ => by simp)
            nofun
        exact scalar_leaves hmatch hs rfl
      · rw [if_neg hu, if_neg hu, mul_assoc]
        exact hstring _ rfl rfl rfl rfl rfl
    · rw [if_neg hescape, if_pos hescape]
      exact rfl
  | stringUnicode =>
    have hinner : s.innerRest frame =
        hexDigits (4 - s.unicodeDigits) * (stringRest * s.roleTail frame) := by
      unfold innerRest
      rw [hm]
    have hlt := h.unicode hm
    have hcount : 4 - s.unicodeDigits = (4 - (s.unicodeDigits + 1)) + 1 := by omega
    unfold consumeStringCharacter
    rw [hinner, mul_assoc, hcount, leftQuotient_hexDigits_mul, hm]
    by_cases hhex : isHexDigit c = true
    · rw [if_pos hhex, if_neg (not_not.mpr hhex)]
      by_cases hlast : s.unicodeDigits + 1 = 4
      · have hnone : hexDigits (4 - (s.unicodeDigits + 1)) = 1 := by
          rw [hlast]
          rfl
        rw [if_pos hlast, hnone, one_mul, mul_assoc]
        exact hstring _ rfl rfl rfl rfl rfl
      · rw [if_neg hlast]
        have hmore : s.unicodeDigits + 1 < 4 := by omega
        have hmatch : Matching { s with
            parseMode := .stringUnicode
            unicodeDigits := s.unicodeDigits + 1 } :=
          h.scalar hs rfl rfl rfl (fun _ hk => hkey hk) (fun _ => hmore)
            nofun
        exact scalar_leaves hmatch hs rfl
    · rw [if_neg hhex, if_pos hhex]
      exact rfl
  | none => exact absurd hm hne
  | number => rw [hm] at hmode; exact nomatch hmode
  | literal => rw [hm] at hmode; exact nomatch hmode

theorem consumeLiteralCharacter_leaves (h : Matching s) (hmode : s.parseMode = .literal)
    (c : UInt8) : Leaves (s.rest.leftQuotient [c]) (s.consumeLiteralCharacter c) := by
  obtain ⟨frame, outer, hs⟩ := h.exists_frame (by rw [hmode]; simp)
  have hopen := h.open_of_containers hs
  obtain ⟨hlt, hascii⟩ := h.literal hmode
  have hinner : s.innerRest frame =
      word (s.literalTarget.drop s.literalIndex) * valueTail frame.type := by
    unfold innerRest
    rw [hmode]
  obtain ⟨b, hb⟩ : ∃ b, s.literalTarget[s.literalIndex]? = some b :=
    ⟨_, List.getElem?_eq_getElem hlt⟩
  have hdrop : s.literalTarget.drop s.literalIndex =
      b :: s.literalTarget.drop (s.literalIndex + 1) := by
    rw [drop_eq_getElem_cons hlt]
    congr 1
    exact Option.some.inj ((List.getElem?_eq_getElem hlt).symm.trans hb)
  have hnil : [] ∉ word (b :: s.literalTarget.drop (s.literalIndex + 1)) := by
    rw [nil_mem_word]
    simp
  unfold consumeLiteralCharacter
  rw [rest_inner h hs, hinner, mul_assoc, hdrop, leftQuotient_mul hnil, leftQuotient_word_cons, hb]
  by_cases hc : b = c
  · rw [if_pos hc, if_pos (congrArg some hc)]
    by_cases hlast : s.literalIndex + 1 = s.literalTarget.length
    · rw [if_pos hlast, drop_of_length_le (Nat.le_of_eq hlast.symm), ← one_eq_word, one_mul]
      rw [← after_containers hs]
      exact completeValue_leaves
        (s := { s with literalIndex := s.literalIndex + 1, parseMode := .none }) h.reasoning hopen
        rfl h.typed
    · rw [if_neg hlast]
      have hmatch : Matching { s with literalIndex := s.literalIndex + 1 } := by
        refine h.scalar hs rfl rfl rfl (fun hm => ?_) (fun hm => ?_) fun _ => ⟨?_, hascii⟩
        · rw [hmode] at hm
          cases hm
        · exact nomatch hmode.symm.trans hm
        · dsimp only
          omega
      refine scalar_leaves hmatch hs ?_
      unfold innerRest
      rw [hmode]
  · rw [if_neg hc, if_neg fun hb => hc (Option.some.inj hb)]
    exact zero_mul _

theorem not_delimiter_of_next {n n' : NumberState} (h : nextNumberState n c = some n') :
    isJsonDelimiter c = false := by
  have hnumber : isDigit c = true ∨ c = ascii '.' ∨ c = ascii 'e' ∨ c = ascii 'E' ∨
      c = ascii '+' ∨ c = ascii '-' := by
    by_contra hnone
    simp only [not_or] at hnone
    obtain ⟨hdigit, hpoint, he, hE, hplus, hminus⟩ := hnone
    have hdigit19 : ¬ isDigit19 c = true := fun hd => hdigit (isDigit_of_isDigit19 hd)
    have hzero : c ≠ ascii '0' := by
      rintro rfl
      exact hdigit (by decide)
    cases n <;>
      simp [nextNumberState, hdigit, hdigit19, hpoint, he, hE, hplus, hminus, hzero] at h
  have hdigits : isDigit c = true → isJsonDelimiter c = false := by
    intro hd
    have hspace : c ≠ ascii ' ' := isDigit_ne hd (by decide)
    have hnewline : c ≠ ascii '\n' := isDigit_ne hd (by decide)
    have hreturn : c ≠ ascii '\r' := isDigit_ne hd (by decide)
    have htab : c ≠ ascii '\t' := isDigit_ne hd (by decide)
    have hcomma : c ≠ ascii ',' := isDigit_ne hd (by decide)
    have hbracket : c ≠ ascii ']' := isDigit_ne hd (by decide)
    have hbrace : c ≠ ascii '}' := isDigit_ne hd (by decide)
    simp [isJsonDelimiter, isJsonWhitespace, hspace, hnewline, hreturn, htab, hcomma, hbracket,
      hbrace]
  rcases hnumber with hd | rfl | rfl | rfl | rfl | rfl
  · exact hdigits hd
  all_goals decide

theorem leftQuotient_after_eq_zero (h : isJsonDelimiter c = false) :
    (valueTail frame.type * after outer).leftQuotient [c] = 0 := by
  unfold isJsonDelimiter at h
  rw [decide_eq_false_iff_not] at h
  simp only [not_or] at h
  obtain ⟨hws, hcomma, hbracket, hbrace⟩ := h
  have hclose : c ≠ ascii (closing frame.type) := by
    cases frame.type with
    | object => exact hbrace
    | array => exact hbracket
  rw [leftQuotient_valueTail_mul, if_neg hws, if_neg hcomma, if_neg hclose]

theorem consumeNumberCharacter_leaves (h : Matching s) (hmode : s.parseMode = .number)
    (c : UInt8) : Leaves (s.rest.leftQuotient [c]) (s.consumeNumberCharacter c) := by
  obtain ⟨frame, outer, hs⟩ := h.exists_frame (by rw [hmode]; simp)
  have hopen := h.open_of_containers hs
  have hinner : s.innerRest frame = numberRest s.numberState * valueTail frame.type := by
    unfold innerRest
    rw [hmode]
  have hquot := leftQuotient_numberRest (c := c) s.numberState
  unfold consumeNumberCharacter
  rw [rest_inner h hs, hinner, mul_assoc]
  cases hnext : nextNumberState s.numberState c with
  | some numberState =>
    rw [hnext] at hquot
    -- the character goes on with the number, and what follows the number cannot start with it
    have hrest : (numberRest s.numberState *
        (valueTail frame.type * after outer)).leftQuotient [c] =
          numberRest numberState * (valueTail frame.type * after outer) := by
      by_cases hcomplete : s.hasCompleteNumber = true
      · rw [leftQuotient_mul_of_nil ((nil_mem_numberRest s).mpr hcomplete), hquot,
          leftQuotient_after_eq_zero (not_delimiter_of_next hnext), add_zero]
      · rw [leftQuotient_mul fun hnil => hcomplete ((nil_mem_numberRest s).mp hnil), hquot]
    rw [hrest]
    have hmatch : Matching { s with numberState } := by
      refine h.scalar hs rfl rfl rfl (fun hm => ?_) (fun hm => ?_) fun hm => ?_
      · rw [hmode] at hm
        cases hm
      · exact nomatch hmode.symm.trans hm
      · exact nomatch hmode.symm.trans hm
    refine scalar_leaves hmatch hs ?_
    unfold innerRest
    rw [hmode]
  | none =>
    rw [hnext] at hquot
    by_cases hcomplete : s.hasCompleteNumber = true
    · rw [leftQuotient_mul_of_nil ((nil_mem_numberRest s).mpr hcomplete), hquot, zero_mul, zero_add]
      by_cases hdelimiter : isJsonDelimiter c = true
      · rw [if_pos ⟨hcomplete, hdelimiter⟩]
        have hvalue := completeValue_leaves (s := { s with parseMode := .none }) h.reasoning hopen
          rfl h.typed
        have hnone : ({ s with parseMode := .none } :
            JsonObjectGrammarState).completeValue.parseMode = .none := by
          unfold completeValue
          rw [hs]
        have hstep := consumeStructural_leaves hvalue.1 hnone c
        rw [hvalue.2] at hstep
        rw [← after_containers hs]
        exact hstep
      · rw [if_neg fun hb => hdelimiter hb.2,
          leftQuotient_after_eq_zero (Bool.eq_false_iff.mpr hdelimiter)]
        exact rfl
    · rw [if_neg fun hb => hcomplete hb.1,
        leftQuotient_mul fun hnil => hcomplete ((nil_mem_numberRest s).mp hnil), hquot]
      exact zero_mul _

/-- Consuming a byte takes the left quotient of what may follow. -/
theorem consumeCharacter_leaves (h : Matching s) (c : UInt8) :
    Leaves (s.rest.leftQuotient [c]) (s.consumeCharacter c) := by
  unfold consumeCharacter
  rw [if_neg (by rw [h.reasoning]; simp)]
  cases hmode : s.parseMode with
  | none => exact consumeStructural_leaves h hmode c
  | string => exact consumeStringCharacter_leaves h (by rw [hmode]; rfl) c
  | stringEscape => exact consumeStringCharacter_leaves h (by rw [hmode]; rfl) c
  | stringUnicode => exact consumeStringCharacter_leaves h (by rw [hmode]; rfl) c
  | number => exact consumeNumberCharacter_leaves h hmode c
  | literal => exact consumeLiteralCharacter_leaves h hmode c

end

end Xllm.Framework
