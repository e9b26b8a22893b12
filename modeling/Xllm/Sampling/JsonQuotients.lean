import Xllm.Sampling.JsonText

/-!
# What may follow one byte

The left quotients of the languages of `JsonText`: each is another language of the grammar, or
nothing. They follow the matcher's states: `numberRest` is what may follow in each state of a number,
`frameRest` in each state of a container up to its closing bracket, and `valueRest` behind the first
byte of a value.
-/

namespace Xllm.Framework

open Xllm.Lib JsonObjectGrammarState
open scoped Computability

namespace Json

/-! ## Bytes and whitespace -/

section

variable {c : UInt8} {L M : Language UInt8}

@[simp] theorem leftQuotient_byte (ch : Char) :
    (byte ch).leftQuotient [c] = if c = ascii ch then 1 else 0 := by
  unfold byte
  rw [leftQuotient_word_cons, one_eq_word]
  simp only [eq_comm]

@[simp] theorem nil_notMem_byte (ch : Char) : [] ∉ byte ch := by
  unfold byte
  rw [nil_mem_word]
  simp

@[simp] theorem leftQuotient_byte_mul (ch : Char) :
    (byte ch * L).leftQuotient [c] = if c = ascii ch then L else 0 := by
  rw [leftQuotient_mul (nil_notMem_byte ch), leftQuotient_byte]
  split
  · rw [one_mul]
  · rw [zero_mul]

@[simp] theorem leftQuotient_oneOf_mul (p : UInt8 → Bool) :
    (oneOf p * L).leftQuotient [c] = if p c = true then L else 0 := by
  rw [leftQuotient_mul (nil_notMem_oneOf p), leftQuotient_oneOf]
  split
  · rw [one_mul]
  · rw [zero_mul]

theorem leftQuotient_many_mul (p : UInt8 → Bool) :
    ((oneOf p)∗ * L).leftQuotient [c] =
      (if p c = true then (oneOf p)∗ * L else 0) + L.leftQuotient [c] := by
  rw [leftQuotient_mul_of_nil (Language.nil_mem_kstar _), leftQuotient_kstar, leftQuotient_oneOf]
  split
  · rw [one_mul]
  · rw [zero_mul, zero_mul]

theorem leftQuotient_ws_mul :
    (ws * L).leftQuotient [c] =
      (if isJsonWhitespace c = true then ws * L else 0) + L.leftQuotient [c] :=
  leftQuotient_many_mul isJsonWhitespace

@[simp] theorem leftQuotient_digits_mul :
    (digits * L).leftQuotient [c] =
      (if isDigit c = true then digits * L else 0) + L.leftQuotient [c] :=
  leftQuotient_many_mul isDigit

@[simp] theorem leftQuotient_digits :
    digits.leftQuotient [c] = if isDigit c = true then digits else 0 := by
  have h := leftQuotient_digits_mul (c := c) (L := 1)
  rw [mul_one, leftQuotient_one, add_zero] at h
  exact h

@[simp] theorem leftQuotient_ws :
    ws.leftQuotient [c] = if isJsonWhitespace c = true then ws else 0 := by
  have h := leftQuotient_ws_mul (c := c) (L := 1)
  rw [mul_one, leftQuotient_one, add_zero] at h
  exact h

@[simp] theorem leftQuotient_skip :
    ((1 + L) * M).leftQuotient [c] = (L * M).leftQuotient [c] + M.leftQuotient [c] := by
  rw [add_mul, one_mul, leftQuotient_add, add_comm]

end

/-! ## Strings -/

/-- Behind a backslash. -/
def escapeRest : Language UInt8 := oneOf simpleEscape + byte 'u' * hexDigits 4

/-- Behind the opening quote. -/
def stringRest : Language UInt8 := stringCharacter∗ * byte '"'

section

variable {c : UInt8} {L : Language UInt8}

theorem leftQuotient_stringRest_mul :
    (stringRest * L).leftQuotient [c] =
      if c = ascii '"' then L
      else if c = ascii '\\' then escapeRest * (stringRest * L)
      else if 0x20 ≤ c then stringRest * L
      else 0 := by
  have hquot : stringCharacter.leftQuotient [c] =
      (if unescaped c = true then 1 else 0) + (if c = ascii '\\' then escapeRest else 0) := by
    unfold stringCharacter
    rw [leftQuotient_add, leftQuotient_oneOf, leftQuotient_byte_mul]
    rfl
  unfold stringRest
  rw [mul_assoc, leftQuotient_mul_of_nil (Language.nil_mem_kstar _), leftQuotient_kstar, hquot,
    leftQuotient_byte_mul]
  by_cases hquote : c = ascii '"'
  · subst hquote
    simp +decide [unescaped]
  · by_cases hescape : c = ascii '\\'
    · subst hescape
      simp +decide [unescaped, mul_assoc]
    · by_cases hprint : 0x20 ≤ c
      · simp [unescaped, hquote, hescape, hprint]
      · simp [unescaped, hquote, hescape, hprint]

theorem leftQuotient_escapeRest_mul :
    (escapeRest * L).leftQuotient [c] =
      if isJsonEscape c = true then (if c = ascii 'u' then hexDigits 4 * L else L) else 0 := by
  unfold escapeRest
  rw [add_mul, leftQuotient_add, leftQuotient_oneOf_mul, mul_assoc, leftQuotient_byte_mul]
  by_cases hu : c = ascii 'u'
  · subst hu
    simp +decide [simpleEscape]
  · simp [simpleEscape, hu]

theorem leftQuotient_hexDigits_mul (n : Nat) :
    (hexDigits (n + 1) * L).leftQuotient [c] =
      if isHexDigit c = true then hexDigits n * L else 0 := by
  unfold hexDigits
  rw [pow_succ', mul_assoc, leftQuotient_oneOf_mul]

end

/-! ## Numbers -/

/-- What may follow in each state of a number. -/
def numberRest : NumberState → Language UInt8
  | .afterMinus => integer * (fraction * exponent)
  | .zero => fraction * exponent
  | .integer => digits * (fraction * exponent)
  | .fractionPoint => oneOf isDigit * (digits * exponent)
  | .fraction => digits * exponent
  | .exponent => (1 + byte '+' + byte '-') * (oneOf isDigit * digits)
  | .exponentSign => oneOf isDigit * digits
  | .exponentDigits => digits

section

variable {c : UInt8}

theorem leftQuotient_exponent :
    exponent.leftQuotient [c] =
      if c = ascii 'e' ∨ c = ascii 'E' then numberRest .exponent else 0 := by
  unfold exponent numberRest
  rw [leftQuotient_add, leftQuotient_one, add_mul, leftQuotient_add, leftQuotient_byte_mul,
    leftQuotient_byte_mul, zero_add]
  by_cases he : c = ascii 'e'
  · subst he
    simp +decide
  · simp [he]

theorem leftQuotient_fraction_mul (L : Language UInt8) :
    (fraction * L).leftQuotient [c] =
      (if c = ascii '.' then oneOf isDigit * (digits * L) else 0) + L.leftQuotient [c] := by
  unfold fraction
  rw [leftQuotient_skip, mul_assoc, leftQuotient_byte_mul, mul_assoc]

theorem isDigit_of_isDigit19 (h : isDigit19 c = true) : isDigit c = true := by
  unfold isDigit19 isDigit at *
  rw [decide_eq_true_eq] at *
  exact ⟨UInt8.le_trans (by decide) h.1, h.2⟩

theorem isJsonWhitespace_ne {d : UInt8} (h : isJsonWhitespace c = true)
    (hd : isJsonWhitespace d = false) : c ≠ d := by
  rintro rfl
  rw [h] at hd
  cases hd

theorem isDigit_ne {d : UInt8} (h : isDigit c = true) (hd : isDigit d = false) : c ≠ d := by
  rintro rfl
  rw [h] at hd
  cases hd

/-- The steps of a number are the quotients of its states. -/
theorem leftQuotient_numberRest (n : NumberState) :
    (numberRest n).leftQuotient [c] =
      match nextNumberState n c with
      | some n' => numberRest n'
      | none => 0 := by
  cases n with
  | afterMinus =>
    simp only [numberRest, integer, add_mul, mul_assoc, leftQuotient_add, leftQuotient_byte_mul,
      leftQuotient_oneOf_mul, nextNumberState]
    by_cases hzero : c = ascii '0'
    · subst hzero
      simp +decide
    · by_cases hdigit : isDigit19 c = true
      · simp [hzero, hdigit, numberRest]
      · simp [hzero, hdigit]
  | zero =>
    simp only [numberRest, leftQuotient_fraction_mul, leftQuotient_exponent, nextNumberState]
    by_cases hpoint : c = ascii '.'
    · subst hpoint
      simp +decide
    · by_cases he : c = ascii 'e' ∨ c = ascii 'E'
      · simp [hpoint, he]
      · simp [hpoint, he]
  | integer =>
    simp only [numberRest, leftQuotient_digits_mul, leftQuotient_fraction_mul,
      leftQuotient_exponent, nextNumberState]
    by_cases hdigit : isDigit c = true
    · have hpoint : c ≠ ascii '.' := isDigit_ne hdigit (by decide)
      have he : c ≠ ascii 'e' := isDigit_ne hdigit (by decide)
      have hE : c ≠ ascii 'E' := isDigit_ne hdigit (by decide)
      simp [hdigit, hpoint, he, hE, numberRest]
    · by_cases hpoint : c = ascii '.'
      · subst hpoint
        simp +decide [numberRest]
      · by_cases he : c = ascii 'e' ∨ c = ascii 'E'
        · simp [hdigit, hpoint, he, numberRest]
        · simp [hdigit, hpoint, he]
  | fractionPoint =>
    simp only [numberRest, leftQuotient_oneOf_mul, nextNumberState]
    by_cases hdigit : isDigit c = true
    · simp [hdigit, numberRest]
    · simp [hdigit]
  | fraction =>
    simp only [numberRest, leftQuotient_digits_mul, leftQuotient_exponent, nextNumberState]
    by_cases hdigit : isDigit c = true
    · have he : c ≠ ascii 'e' := isDigit_ne hdigit (by decide)
      have hE : c ≠ ascii 'E' := isDigit_ne hdigit (by decide)
      simp [hdigit, he, hE, numberRest]
    · by_cases he : c = ascii 'e' ∨ c = ascii 'E'
      · simp [hdigit, he, numberRest]
      · simp [hdigit, he]
  | exponent =>
    simp only [numberRest, add_mul, one_mul, leftQuotient_add, leftQuotient_byte_mul,
      leftQuotient_oneOf_mul, nextNumberState]
    by_cases hplus : c = ascii '+'
    · subst hplus
      simp +decide [numberRest]
    · by_cases hminus : c = ascii '-'
      · subst hminus
        simp +decide [numberRest]
      · by_cases hdigit : isDigit c = true
        · simp [hplus, hminus, hdigit, numberRest]
        · simp [hplus, hminus, hdigit]
  | exponentSign =>
    simp only [numberRest, leftQuotient_oneOf_mul, nextNumberState]
    by_cases hdigit : isDigit c = true
    · simp [hdigit, numberRest]
    · simp [hdigit]
  | exponentDigits =>
    simp only [numberRest, leftQuotient_digits, nextNumberState]
    by_cases hdigit : isDigit c = true
    · simp [hdigit, numberRest]
    · simp [hdigit]

theorem nil_mem_exponent : [] ∈ exponent := Or.inl rfl

theorem nil_mem_fraction : [] ∈ fraction := Or.inl rfl

theorem nil_mem_digits : [] ∈ digits := Language.nil_mem_kstar _

/-- A number may end exactly in the states the matcher calls complete. -/
theorem nil_mem_numberRest (s : JsonObjectGrammarState) :
    [] ∈ numberRest s.numberState ↔ s.hasCompleteNumber = true := by
  unfold JsonObjectGrammarState.hasCompleteNumber
  cases s.numberState with
  | afterMinus =>
    simp only [numberRest, integer, nil_mem_mul, Language.mem_add, nil_notMem_byte, nil_notMem_oneOf]
    simp
  | zero =>
    simp [numberRest, nil_mem_mul, nil_mem_fraction, nil_mem_exponent]
  | integer =>
    simp [numberRest, nil_mem_mul, nil_mem_digits, nil_mem_fraction, nil_mem_exponent]
  | fractionPoint => simp [numberRest, nil_mem_mul, nil_notMem_oneOf]
  | fraction => simp [numberRest, nil_mem_mul, nil_mem_digits, nil_mem_exponent]
  | exponent => simp [numberRest, nil_mem_mul, nil_notMem_oneOf]
  | exponentSign => simp [numberRest, nil_mem_mul, nil_notMem_oneOf]
  | exponentDigits => simp [numberRest, nil_mem_digits]

end

/-! ## Containers and values -/

/-- Behind a value in a container of this type. -/
def valueTail : ContainerType → Language UInt8
  | .object => objectTail
  | .array => arrayTail

/-- What may follow in each state of a container, up to its closing bracket. -/
def frameRest : ContainerState → Language UInt8
  | .objectKeyOrEnd => ws * (byte '}' + string * keyTail)
  | .objectKeyAfterComma => ws * (string * keyTail)
  | .objectColon => keyTail
  | .objectValue => ws * (value * objectTail)
  | .objectCommaOrEnd => objectTail
  | .arrayValueOrEnd => ws * (byte ']' + value * arrayTail)
  | .arrayValueAfterComma => ws * (value * arrayTail)
  | .arrayCommaOrEnd => arrayTail

/-- Behind the first byte of a value. -/
def valueRest (c : UInt8) : Language UInt8 :=
  if c = ascii '{' then frameRest .objectKeyOrEnd
  else if c = ascii '[' then frameRest .arrayValueOrEnd
  else if c = ascii '"' then stringRest
  else if c = ascii '-' then numberRest .afterMinus
  else if c = ascii '0' then numberRest .zero
  else if isDigit19 c = true then numberRest .integer
  else if c = ascii 't' then word [ascii 'r', ascii 'u', ascii 'e']
  else if c = ascii 'f' then word [ascii 'a', ascii 'l', ascii 's', ascii 'e']
  else if c = ascii 'n' then word [ascii 'u', ascii 'l', ascii 'l']
  else 0

section

variable {c : UInt8} {L : Language UInt8}

theorem leftQuotient_object :
    object.leftQuotient [c] = if c = ascii '{' then frameRest .objectKeyOrEnd else 0 := by
  rw [object_eq, leftQuotient_byte_mul, members_close]
  rfl

theorem leftQuotient_array :
    array.leftQuotient [c] = if c = ascii '[' then frameRest .arrayValueOrEnd else 0 := by
  rw [array_eq, leftQuotient_byte_mul, elements_close]
  rfl

theorem leftQuotient_string_mul :
    (string * L).leftQuotient [c] = if c = ascii '"' then stringRest * L else 0 := by
  unfold string
  rw [mul_assoc, leftQuotient_byte_mul]
  rfl

theorem leftQuotient_number :
    number.leftQuotient [c] =
      (if c = ascii '-' then numberRest .afterMinus else 0) +
        (if c = ascii '0' then numberRest .zero
          else if isDigit19 c = true then numberRest .integer else 0) := by
  have hint : (integer * (fraction * exponent)).leftQuotient [c] = _ :=
    leftQuotient_numberRest .afterMinus
  unfold number
  rw [leftQuotient_skip, leftQuotient_byte_mul, hint]
  simp only [nextNumberState]
  by_cases hzero : c = ascii '0'
  · rw [if_pos hzero, if_pos hzero]
    rfl
  · by_cases hdigit : isDigit19 c = true
    · rw [if_neg hzero, if_neg hzero, if_pos hdigit, if_pos hdigit]
      rfl
    · rw [if_neg hzero, if_neg hzero, if_neg hdigit, if_neg hdigit]
      rfl

theorem leftQuotient_literal :
    literal.leftQuotient [c] =
      (if c = ascii 't' then word [ascii 'r', ascii 'u', ascii 'e'] else 0) +
        (if c = ascii 'f' then word [ascii 'a', ascii 'l', ascii 's', ascii 'e'] else 0) +
        (if c = ascii 'n' then word [ascii 'u', ascii 'l', ascii 'l'] else 0) := by
  unfold literal
  rw [leftQuotient_add, leftQuotient_add, leftQuotient_word_cons, leftQuotient_word_cons,
    leftQuotient_word_cons]
  simp only [eq_comm]

/-- The first byte of a value decides what kind of value it is. -/
theorem leftQuotient_value : value.leftQuotient [c] = valueRest c := by
  have hstring : string.leftQuotient [c] = if c = ascii '"' then stringRest else 0 := by
    have h := leftQuotient_string_mul (c := c) (L := 1)
    rw [mul_one, mul_one] at h
    exact h
  rw [value_eq, leftQuotient_add, leftQuotient_add, leftQuotient_add, leftQuotient_add,
    leftQuotient_object, leftQuotient_array, hstring, leftQuotient_number, leftQuotient_literal]
  unfold valueRest
  by_cases hobject : c = ascii '{'
  · subst hobject
    simp +decide
  by_cases harray : c = ascii '['
  · subst harray
    simp +decide
  by_cases hquote : c = ascii '"'
  · subst hquote
    simp +decide
  by_cases hminus : c = ascii '-'
  · subst hminus
    simp +decide
  by_cases hzero : c = ascii '0'
  · subst hzero
    simp +decide
  by_cases hdigit : isDigit19 c = true
  · have ht : c ≠ ascii 't' := isDigit_ne (isDigit_of_isDigit19 hdigit) (by decide)
    have hf : c ≠ ascii 'f' := isDigit_ne (isDigit_of_isDigit19 hdigit) (by decide)
    have hn : c ≠ ascii 'n' := isDigit_ne (isDigit_of_isDigit19 hdigit) (by decide)
    simp [hobject, harray, hquote, hminus, hzero, hdigit, ht, hf, hn]
  by_cases ht : c = ascii 't'
  · subst ht
    simp +decide
  by_cases hf : c = ascii 'f'
  · subst hf
    simp +decide
  by_cases hn : c = ascii 'n'
  · subst hn
    simp +decide
  simp [hobject, harray, hquote, hminus, hzero, hdigit, ht, hf, hn]

theorem nil_notMem_value : [] ∉ value := by
  rw [value_eq, object_eq, array_eq]
  simp only [string, number, integer, literal, Language.mem_add, nil_mem_mul, nil_mem_word,
    nil_notMem_byte, nil_notMem_oneOf]
  simp

theorem leftQuotient_value_mul : (value * L).leftQuotient [c] = valueRest c * L := by
  rw [leftQuotient_mul nil_notMem_value, leftQuotient_value]

/-- What closes a container of this type. -/
def closing : ContainerType → Char
  | .object => '}'
  | .array => ']'

/-- The state behind a comma. -/
def afterComma : ContainerType → ContainerState
  | .object => .objectKeyAfterComma
  | .array => .arrayValueAfterComma

theorem valueTail_eq (type : ContainerType) :
    valueTail type = ws * (byte (closing type) + byte ',' * frameRest (afterComma type)) := by
  cases type with
  | object =>
    unfold valueTail objectTail
    rw [members_close]
    rfl
  | array =>
    unfold valueTail
    conv_lhs => unfold arrayTail
    rw [elements_close]
    rfl

/-- Behind a value comes whitespace, a comma, or the bracket of its container. -/
theorem leftQuotient_valueTail_mul (type : ContainerType) :
    (valueTail type * L).leftQuotient [c] =
      if isJsonWhitespace c = true then valueTail type * L
      else if c = ascii ',' then frameRest (afterComma type) * L
      else if c = ascii (closing type) then L
      else 0 := by
  have hclosing : isJsonWhitespace (ascii (closing type)) = false ∧
      ascii ',' ≠ ascii (closing type) := by
    cases type with
    | object => decide
    | array => decide
  have hquot : (valueTail type * L).leftQuotient [c] =
      (if isJsonWhitespace c = true then valueTail type * L else 0) +
        ((if c = ascii (closing type) then L else 0) +
          if c = ascii ',' then frameRest (afterComma type) * L else 0) := by
    conv_lhs => rw [valueTail_eq]
    rw [mul_assoc, leftQuotient_ws_mul, ← mul_assoc, ← valueTail_eq, add_mul, leftQuotient_add,
      mul_assoc, leftQuotient_byte_mul, leftQuotient_byte_mul]
  rw [hquot]
  by_cases hws : isJsonWhitespace c = true
  · have hcomma : c ≠ ascii ',' := isJsonWhitespace_ne hws (by decide)
    have hclose : c ≠ ascii (closing type) := isJsonWhitespace_ne hws hclosing.1
    rw [if_pos hws, if_pos hws, if_neg hcomma, if_neg hclose, add_zero, add_zero]
  · rw [if_neg hws, if_neg hws, zero_add]
    by_cases hcomma : c = ascii ','
    · subst hcomma
      rw [if_neg hclosing.2, zero_add, if_pos rfl]
    · rw [if_neg hcomma, if_neg hcomma, add_zero]

/-- No value starts with whitespace or a bracket that closes one. -/
theorem valueRest_eq_zero (h : isJsonWhitespace c = true ∨ c = ascii ']') : valueRest c = 0 := by
  have hall : c = ascii ' ' ∨ c = ascii '\n' ∨ c = ascii '\r' ∨ c = ascii '\t' ∨
      c = ascii ']' := by
    unfold isJsonWhitespace at h
    rw [decide_eq_true_eq] at h
    rcases h with (h | h | h | h) | h
    · exact Or.inl h
    · exact Or.inr (Or.inl h)
    · exact Or.inr (Or.inr (Or.inl h))
    · exact Or.inr (Or.inr (Or.inr (Or.inl h)))
    · exact Or.inr (Or.inr (Or.inr (Or.inr h)))
  rcases hall with rfl | rfl | rfl | rfl | rfl <;> simp +decide [valueRest]

/-- A container ignores whitespace between its tokens. -/
theorem leftQuotient_frameRest_ws (h : isJsonWhitespace c = true) (state : ContainerState) :
    (frameRest state * L).leftQuotient [c] = frameRest state * L := by
  have hquote : c ≠ ascii '"' := isJsonWhitespace_ne h (by decide)
  have hcolon : c ≠ ascii ':' := isJsonWhitespace_ne h (by decide)
  have hobject : c ≠ ascii '}' := isJsonWhitespace_ne h (by decide)
  have harray : c ≠ ascii ']' := isJsonWhitespace_ne h (by decide)
  have hvalue : valueRest c = 0 := valueRest_eq_zero (Or.inl h)
  cases state with
  | objectCommaOrEnd => exact (leftQuotient_valueTail_mul .object).trans (if_pos h)
  | arrayCommaOrEnd => exact (leftQuotient_valueTail_mul .array).trans (if_pos h)
  | _ =>
    simp only [frameRest, keyTail, mul_assoc, leftQuotient_ws_mul, add_mul, leftQuotient_add,
      leftQuotient_byte_mul, leftQuotient_string_mul, leftQuotient_value_mul, if_pos h,
      if_neg hquote, if_neg hcolon, if_neg hobject, if_neg harray, hvalue, zero_mul, add_zero]

/-- What a byte that is no whitespace leaves of a container in this state. -/
def frameNext (state : ContainerState) (c : UInt8) (L : Language UInt8) : Language UInt8 :=
  match state with
  | .objectKeyOrEnd =>
    if c = ascii '}' then L
    else if c = ascii '"' then stringRest * (keyTail * L)
    else 0
  | .objectKeyAfterComma => if c = ascii '"' then stringRest * (keyTail * L) else 0
  | .objectColon => if c = ascii ':' then frameRest .objectValue * L else 0
  | .objectValue => valueRest c * (objectTail * L)
  | .objectCommaOrEnd =>
    if c = ascii ',' then frameRest .objectKeyAfterComma * L
    else if c = ascii '}' then L
    else 0
  | .arrayValueOrEnd => if c = ascii ']' then L else valueRest c * (arrayTail * L)
  | .arrayValueAfterComma => valueRest c * (arrayTail * L)
  | .arrayCommaOrEnd =>
    if c = ascii ',' then frameRest .arrayValueAfterComma * L
    else if c = ascii ']' then L
    else 0

theorem leftQuotient_frameRest (h : isJsonWhitespace c = false) (state : ContainerState) :
    (frameRest state * L).leftQuotient [c] = frameNext state c L := by
  have hws : ¬ isJsonWhitespace c = true := by rw [h]; simp
  cases state with
  | objectCommaOrEnd => exact (leftQuotient_valueTail_mul .object).trans (if_neg hws)
  | arrayCommaOrEnd => exact (leftQuotient_valueTail_mul .array).trans (if_neg hws)
  | objectKeyOrEnd =>
    simp only [frameRest, frameNext, mul_assoc, leftQuotient_ws_mul, add_mul, leftQuotient_add,
      leftQuotient_byte_mul, leftQuotient_string_mul, if_neg hws, zero_add]
    by_cases hclose : c = ascii '}'
    · subst hclose
      rw [if_pos rfl, if_pos rfl, if_neg (by decide), add_zero]
    · rw [if_neg hclose, if_neg hclose, zero_add]
  | arrayValueOrEnd =>
    simp only [frameRest, frameNext, mul_assoc, leftQuotient_ws_mul, add_mul, leftQuotient_add,
      leftQuotient_byte_mul, leftQuotient_value_mul, if_neg hws, zero_add]
    by_cases hclose : c = ascii ']'
    · rw [if_pos hclose, if_pos hclose, valueRest_eq_zero (Or.inr hclose), zero_mul, add_zero]
    · rw [if_neg hclose, if_neg hclose, zero_add]
  | _ =>
    simp only [frameRest, frameNext, keyTail, mul_assoc, leftQuotient_ws_mul,
      leftQuotient_byte_mul, leftQuotient_string_mul, leftQuotient_value_mul, if_neg hws, zero_add]

theorem nil_notMem_frameRest (state : ContainerState) : [] ∉ frameRest state := by
  cases state with
  | objectCommaOrEnd =>
    rw [show frameRest .objectCommaOrEnd = valueTail .object from rfl, valueTail_eq]
    simp only [nil_mem_mul, Language.mem_add, nil_notMem_byte]
    simp
  | arrayCommaOrEnd =>
    rw [show frameRest .arrayCommaOrEnd = valueTail .array from rfl, valueTail_eq]
    simp only [nil_mem_mul, Language.mem_add, nil_notMem_byte]
    simp
  | _ =>
    simp only [frameRest, keyTail, string, nil_mem_mul, Language.mem_add, nil_notMem_byte,
      nil_notMem_value]
    simp

end

end Json

end Xllm.Framework
