import Mathlib.Data.Finset.Basic

/-!
# The JSON object constraint

`core/framework/sampling/json_object_grammar.{h,cpp}`: a recogniser that decides, token by token,
whether the output is still the beginning of a JSON object. `JsonObjectGrammarState` is the matcher;
`JsonObjectGrammar` holds the decoded pieces of the vocabulary, the stop tokens and the marker that
ends a reasoning phase, and computes the mask of allowed tokens.

A piece is a list of bytes. `containers` has the innermost container first. A function that returns
`false` in the source is `none` here: its caller invalidates the matcher, and what it left in the
other fields is never read again. The tensors built from a mask are not modelled.
-/

namespace Xllm.Framework

def ascii (c : Char) : UInt8 := c.toUInt8

inductive ParseMode
  | none
  | string
  | stringEscape
  | stringUnicode
  | number
  | literal
  deriving DecidableEq, Repr

inductive StringRole
  | value
  | objectKey
  deriving DecidableEq, Repr

inductive ContainerType
  | object
  | array
  deriving DecidableEq, Repr

inductive ContainerState
  | objectKeyOrEnd
  | objectKeyAfterComma
  | objectColon
  | objectValue
  | objectCommaOrEnd
  | arrayValueOrEnd
  | arrayValueAfterComma
  | arrayCommaOrEnd
  deriving DecidableEq, Repr

inductive NumberState
  | afterMinus
  | zero
  | integer
  | fractionPoint
  | fraction
  | exponent
  | exponentSign
  | exponentDigits
  deriving DecidableEq, Repr

structure ContainerFrame where
  type : ContainerType := .object
  state : ContainerState := .objectKeyOrEnd
  deriving DecidableEq, Repr

structure JsonObjectGrammarState where
  containers : List ContainerFrame := []
  parseMode : ParseMode := .none
  stringRole : StringRole := .value
  numberState : NumberState := .afterMinus
  literalTarget : List UInt8 := []
  literalIndex : Nat := 0
  unicodeDigits : Nat := 0
  valid : Bool := true
  rootStarted : Bool := false
  rootComplete : Bool := false
  reasoningPhase : Bool := false
  reasoningMarkerIndex : Nat := 0
  committedTokenIds : List Int := []
  deriving DecidableEq, Repr

structure JsonObjectGrammar where
  tokenPieces : List (List UInt8)
  stopTokenIds : Finset Int := ∅
  reasoningEndTokenIds : List Int := []

/-! ## Character classes -/

def isDigit (character : UInt8) : Bool := ascii '0' ≤ character ∧ character ≤ ascii '9'

def isDigit19 (character : UInt8) : Bool := ascii '1' ≤ character ∧ character ≤ ascii '9'

def isHexDigit (character : UInt8) : Bool :=
  isDigit character ∨ (ascii 'a' ≤ character ∧ character ≤ ascii 'f') ∨
    (ascii 'A' ≤ character ∧ character ≤ ascii 'F')

def isJsonWhitespace (character : UInt8) : Bool :=
  character = ascii ' ' ∨ character = ascii '\n' ∨ character = ascii '\r' ∨ character = ascii '\t'

def isJsonDelimiter (character : UInt8) : Bool :=
  isJsonWhitespace character ∨ character = ascii ',' ∨ character = ascii ']' ∨
    character = ascii '}'

def isJsonEscape (character : UInt8) : Bool :=
  character = ascii '"' ∨ character = ascii '\\' ∨ character = ascii '/' ∨
    character = ascii 'b' ∨ character = ascii 'f' ∨ character = ascii 'n' ∨
    character = ascii 'r' ∨ character = ascii 't' ∨ character = ascii 'u'

/-! ## The matcher -/

namespace JsonObjectGrammarState

def isComplete (s : JsonObjectGrammarState) : Bool := s.valid && s.rootComplete

def completeValue (s : JsonObjectGrammarState) : JsonObjectGrammarState :=
  match s.containers with
  | [] => { s with rootComplete := true }
  | frame :: outer =>
    { s with containers :=
        { frame with state :=
            if frame.type = .object then .objectCommaOrEnd else .arrayCommaOrEnd } :: outer }

def closeContainer (s : JsonObjectGrammarState) (type : ContainerType) :
    Option JsonObjectGrammarState :=
  match s.containers with
  | [] => none
  | frame :: outer =>
    if frame.type = type then some { s with containers := outer }.completeValue else none

/-- `containers_.back().state = state`. -/
def setState (s : JsonObjectGrammarState) (state : ContainerState) : JsonObjectGrammarState :=
  match s.containers with
  | [] => s
  | frame :: outer => { s with containers := { frame with state } :: outer }

def pushContainer (s : JsonObjectGrammarState) (type : ContainerType) (state : ContainerState) :
    JsonObjectGrammarState :=
  { s with containers := { type, state } :: s.containers }

def startString (s : JsonObjectGrammarState) (stringRole : StringRole) : JsonObjectGrammarState :=
  { s with parseMode := .string, stringRole }

def startNumber (s : JsonObjectGrammarState) (numberState : NumberState) :
    JsonObjectGrammarState :=
  { s with parseMode := .number, numberState }

def startLiteral (s : JsonObjectGrammarState) (literalTarget : List UInt8) :
    JsonObjectGrammarState :=
  { s with parseMode := .literal, literalTarget, literalIndex := 1 }

def startValue (s : JsonObjectGrammarState) (character : UInt8) : Option JsonObjectGrammarState :=
  if character = ascii '{' then some (s.pushContainer .object .objectKeyOrEnd)
  else if character = ascii '[' then some (s.pushContainer .array .arrayValueOrEnd)
  else if character = ascii '"' then some (s.startString .value)
  else if character = ascii '-' then some (s.startNumber .afterMinus)
  else if character = ascii '0' then some (s.startNumber .zero)
  else if isDigit19 character then some (s.startNumber .integer)
  else if character = ascii 't' then
    some (s.startLiteral [ascii 't', ascii 'r', ascii 'u', ascii 'e'])
  else if character = ascii 'f' then
    some (s.startLiteral [ascii 'f', ascii 'a', ascii 'l', ascii 's', ascii 'e'])
  else if character = ascii 'n' then
    some (s.startLiteral [ascii 'n', ascii 'u', ascii 'l', ascii 'l'])
  else none

def consumeStringCharacter (s : JsonObjectGrammarState) (character : UInt8) :
    Option JsonObjectGrammarState :=
  match s.parseMode with
  | .stringEscape =>
    if ¬ isJsonEscape character then none
    else if character = ascii 'u' then
      some { s with parseMode := .stringUnicode, unicodeDigits := 0 }
    else some { s with parseMode := .string }
  | .stringUnicode =>
    if ¬ isHexDigit character then none
    else if s.unicodeDigits + 1 = 4 then some { s with parseMode := .string, unicodeDigits := 0 }
    else some { s with unicodeDigits := s.unicodeDigits + 1 }
  | _ =>
    if character = ascii '"' then
      let s := { s with parseMode := .none }
      match s.stringRole with
      | .objectKey => some (s.setState .objectColon)
      | .value => some s.completeValue
    else if character = ascii '\\' then some { s with parseMode := .stringEscape }
    else if 0x20 ≤ character then some s
    else none

def consumeLiteralCharacter (s : JsonObjectGrammarState) (character : UInt8) :
    Option JsonObjectGrammarState :=
  if s.literalTarget[s.literalIndex]? = some character then
    let s := { s with literalIndex := s.literalIndex + 1 }
    if s.literalIndex = s.literalTarget.length then
      some { s with parseMode := .none }.completeValue
    else some s
  else none

/-- `consume_character` outside scalars: the root, and the states of the innermost container. -/
def consumeStructural (s : JsonObjectGrammarState) (character : UInt8) :
    Option JsonObjectGrammarState :=
  if s.rootComplete then
    if isJsonWhitespace character then some s else none
  else
    match s.containers with
    | [] =>
      if isJsonWhitespace character then
        if s.rootStarted then none else some s
      else if ¬ s.rootStarted ∧ character = ascii '{' then
        some ({ s with rootStarted := true }.pushContainer .object .objectKeyOrEnd)
      else none
    | frame :: _ =>
      if isJsonWhitespace character then some s
      else
        match frame.state with
        | .objectKeyOrEnd =>
          if frame.type = .object ∧ character = ascii '}' then s.closeContainer .object
          else if frame.type = .object ∧ character = ascii '"' then
            some (s.startString .objectKey)
          else none
        | .objectKeyAfterComma =>
          if frame.type = .object ∧ character = ascii '"' then some (s.startString .objectKey)
          else none
        | .objectColon => if character = ascii ':' then some (s.setState .objectValue) else none
        | .objectValue => s.startValue character
        | .objectCommaOrEnd =>
          if character = ascii ',' then some (s.setState .objectKeyAfterComma)
          else if character = ascii '}' then s.closeContainer .object
          else none
        | .arrayValueOrEnd =>
          if character = ascii ']' then s.closeContainer .array else s.startValue character
        | .arrayValueAfterComma => s.startValue character
        | .arrayCommaOrEnd =>
          if character = ascii ',' then some (s.setState .arrayValueAfterComma)
          else if character = ascii ']' then s.closeContainer .array
          else none

def hasCompleteNumber (s : JsonObjectGrammarState) : Bool :=
  s.numberState = .zero ∨ s.numberState = .integer ∨ s.numberState = .fraction ∨
    s.numberState = .exponentDigits

/-- The next state of a number that goes on with this character. -/
def nextNumberState (numberState : NumberState) (character : UInt8) : Option NumberState :=
  match numberState with
  | .afterMinus =>
    if character = ascii '0' then some .zero
    else if isDigit19 character then some .integer
    else none
  | .zero =>
    if character = ascii '.' then some .fractionPoint
    else if character = ascii 'e' ∨ character = ascii 'E' then some .exponent
    else none
  | .integer =>
    if isDigit character then some .integer
    else if character = ascii '.' then some .fractionPoint
    else if character = ascii 'e' ∨ character = ascii 'E' then some .exponent
    else none
  | .fractionPoint => if isDigit character then some .fraction else none
  | .fraction =>
    if isDigit character then some .fraction
    else if character = ascii 'e' ∨ character = ascii 'E' then some .exponent
    else none
  | .exponent =>
    if character = ascii '+' ∨ character = ascii '-' then some .exponentSign
    else if isDigit character then some .exponentDigits
    else none
  | .exponentSign => if isDigit character then some .exponentDigits else none
  | .exponentDigits => if isDigit character then some .exponentDigits else none

/-- A complete number is closed by a delimiter, which is then consumed again: with the mode reset,
`consume_character` is its structural part. -/
def consumeNumberCharacter (s : JsonObjectGrammarState) (character : UInt8) :
    Option JsonObjectGrammarState :=
  match nextNumberState s.numberState character with
  | some numberState => some { s with numberState }
  | none =>
    if s.hasCompleteNumber ∧ isJsonDelimiter character then
      { s with parseMode := .none }.completeValue.consumeStructural character
    else none

def consumeCharacter (s : JsonObjectGrammarState) (character : UInt8) :
    Option JsonObjectGrammarState :=
  if s.reasoningPhase then some s
  else
    match s.parseMode with
    | .string | .stringEscape | .stringUnicode => s.consumeStringCharacter character
    | .number => s.consumeNumberCharacter character
    | .literal => s.consumeLiteralCharacter character
    | .none => s.consumeStructural character

/-- `accept_piece`: the matcher afterwards, and whether it took the whole piece. -/
def acceptPiece (s : JsonObjectGrammarState) (piece : List UInt8) :
    JsonObjectGrammarState × Bool :=
  if ¬ s.valid ∨ piece = [] then (s, false)
  else
    match piece.foldlM consumeCharacter s with
    | some s => (s, true)
    | none => ({ s with valid := false }, false)

def commit (s : JsonObjectGrammarState) (tokenId : Int) : JsonObjectGrammarState :=
  { s with committedTokenIds := s.committedTokenIds ++ [tokenId] }

end JsonObjectGrammarState

/-! ## Tokens -/

namespace JsonObjectGrammar

open JsonObjectGrammarState

def vocabSize (g : JsonObjectGrammar) : Nat := g.tokenPieces.length

def tokenPiece? (g : JsonObjectGrammar) (tokenId : Int) : Option (List UInt8) :=
  if tokenId < 0 then none else g.tokenPieces[tokenId.toNat]?

def initialState (reasoningPhase : Bool) : JsonObjectGrammarState := { reasoningPhase }

/-- One token of the reasoning phase: follow the end marker, and start over behind it. -/
def acceptReasoning (g : JsonObjectGrammar) (s : JsonObjectGrammarState) (tokenId : Int) :
    JsonObjectGrammarState :=
  if g.reasoningEndTokenIds = [] then s
  else if g.reasoningEndTokenIds[s.reasoningMarkerIndex]? = some tokenId then
    if s.reasoningMarkerIndex + 1 = g.reasoningEndTokenIds.length then
      { s with
        reasoningPhase := false
        reasoningMarkerIndex := 0
        containers := []
        parseMode := .none
        rootStarted := false
        rootComplete := false }
    else { s with reasoningMarkerIndex := s.reasoningMarkerIndex + 1 }
  else
    { s with reasoningMarkerIndex :=
        if g.reasoningEndTokenIds.head? = some tokenId then 1 else 0 }

def acceptToken (g : JsonObjectGrammar) (s : JsonObjectGrammarState) (tokenId : Int) :
    JsonObjectGrammarState × Bool :=
  match s.valid, g.tokenPiece? tokenId with
  | true, some piece =>
    if tokenId ∈ g.stopTokenIds then
      if s.reasoningPhase ∨ ¬ s.rootComplete ∨ s.parseMode ≠ .none then (s, false)
      else (s.commit tokenId, true)
    else if s.reasoningPhase then ((g.acceptReasoning s tokenId).commit tokenId, true)
    else if s.rootComplete ∧ s.parseMode = .none ∧ g.stopTokenIds ≠ ∅ then (s, false)
    else
      match s.acceptPiece piece with
      | (s, true) => (s.commit tokenId, true)
      | (s, false) => (s, false)
  | _, _ => (s, false)

def canAcceptToken (g : JsonObjectGrammar) (s : JsonObjectGrammarState) (tokenId : Int) : Bool :=
  (g.acceptToken s tokenId).2

/-! ## The mask -/

/-- `bitmask[token_id / 32] |= 1 << (token_id & 31)`. -/
def setBit (bitmask : List Nat) (tokenId : Nat) : List Nat :=
  bitmask.modify (tokenId / 32) (fun word => word ||| 1 <<< (tokenId % 32))

def bitmaskNumWords (g : JsonObjectGrammar) : Nat := (g.vocabSize + 31) / 32

/-- `reasoning_bitmask_`: every token but the stop tokens. -/
def reasoningBitmask (g : JsonObjectGrammar) : List Nat :=
  ((List.range g.vocabSize).filter fun (tokenId : Nat) =>
    (tokenId : Int) ∉ g.stopTokenIds).foldl setBit (List.replicate g.bitmaskNumWords 0)

def computeAllowedBitmask (g : JsonObjectGrammar) (s : JsonObjectGrammarState) : List Nat :=
  if ¬ s.valid then List.replicate g.bitmaskNumWords 0
  else if s.reasoningPhase then g.reasoningBitmask
  else
    ((List.range g.vocabSize).filter fun (tokenId : Nat) => g.canAcceptToken s tokenId).foldl setBit
      (List.replicate g.bitmaskNumWords 0)

/-- The CHECK of `cached_mask_for_state` on a newly computed mask: some word is not zero. -/
def someTokenAllowed (g : JsonObjectGrammar) (s : JsonObjectGrammarState) : Bool :=
  (g.computeAllowedBitmask s).any fun word => word ≠ 0

end JsonObjectGrammar

end Xllm.Framework
