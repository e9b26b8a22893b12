import Xllm.Tokenizer.RwkvText

/-!
# Python literals in the RWKV vocabulary

What a literal is in Python, and what its value is: for `str` the UTF-8 bytes of the characters, and in
`bytes` the letters `u` and `U` escape nothing, so that a backslash before them stays.
`parse_iff` says for which literals `parse_python_literal` gives this value. It takes `\u` and `\U` for
escapes in `bytes` too, and knows neither three quotes nor the marks `u`, `U` and `B`.
-/

namespace Xllm.Tokenizer.RwkvTokenizer

open Xllm.Lib.Utf8 List
open String (utf8EncodeChar)

/-! ## Literals of Python -/

structure HexDigit where
  value : Fin 16
  isUpper : Bool
  deriving DecidableEq, Repr

def HexDigit.byte (digit : HexDigit) : UInt8 :=
  if digit.value.val < 10 then UInt8.ofNat (0x30 + digit.value)
  else if digit.isUpper then UInt8.ofNat (0x37 + digit.value)
  else UInt8.ofNat (0x57 + digit.value)

def numberOf (digits : List HexDigit) : Nat :=
  digits.foldl (fun number digit => 16 * number + digit.value) 0

/-- The escapes for one character. -/
inductive SimpleEscape where
  | backslash | singleQuote | doubleQuote | a | b | f | n | r | t | v
  deriving DecidableEq, Repr

def SimpleEscape.letter : SimpleEscape → UInt8
  | backslash => 0x5C
  | singleQuote => 0x27
  | doubleQuote => 0x22
  | a => 0x61
  | b => 0x62
  | f => 0x66
  | n => 0x6E
  | r => 0x72
  | t => 0x74
  | v => 0x76

/-- The character that is meant. -/
def SimpleEscape.byte : SimpleEscape → UInt8
  | backslash => 0x5C
  | singleQuote => 0x27
  | doubleQuote => 0x22
  | a => 0x07
  | b => 0x08
  | f => 0x0C
  | n => 0x0A
  | r => 0x0D
  | t => 0x09
  | v => 0x0B

/-- `\xHH`, `\uHHHH` and `\UHHHHHHHH`. -/
inductive HexForm where
  | x | u | upperU
  deriving DecidableEq, Repr

def HexForm.letter : HexForm → UInt8
  | x => 0x78
  | u => 0x75
  | upperU => 0x55

def HexForm.width : HexForm → Nat
  | x => 2
  | u => 4
  | upperU => 8

/-- A piece of a literal. -/
inductive LiteralItem where
  | plain (c : Char)
  | simple (escape : SimpleEscape)
  | hex (form : HexForm) (digits : { digits : List HexDigit // digits.length = form.width })

def LiteralItem.render : LiteralItem → Bytes
  | plain c => utf8EncodeChar c
  | simple escape => [0x5C, escape.letter]
  | hex form digits => 0x5C :: form.letter :: digits.val.map HexDigit.byte

/-- What comes before the quotes. -/
inductive Mark where
  | none | u | upperU | b | upperB
  deriving DecidableEq, Repr

def Mark.render : Mark → Bytes
  | none => []
  | u => [0x75]
  | upperU => [0x55]
  | b => [0x62]
  | upperB => [0x42]

def Mark.isBytes : Mark → Bool
  | b | upperB => true
  | none | u | upperU => false

inductive Quote where
  | single | double
  deriving DecidableEq, Repr

def Quote.char : Quote → Char
  | single => '\''
  | double => '"'

def Quote.byte : Quote → UInt8
  | single => 0x27
  | double => 0x22

/-- A literal that is not raw. -/
structure PythonLiteral where
  mark : Mark
  quote : Quote
  isTriple : Bool
  items : List LiteralItem

namespace PythonLiteral

/-- A piece that a literal may hold: plain characters of `bytes` are ASCII, and a number of `str` is a
character. -/
def ItemFits (isBytes : Bool) : LiteralItem → Prop
  | .plain c => c ≠ '\\' ∧ (isBytes = true → c.val.toNat < 0x80)
  | .simple _ => True
  | .hex _ digits => isBytes = false → (numberOf digits.val).isValidChar

/-- A plain piece does not end a literal between two quotes. -/
def Inside (quote : Quote) : LiteralItem → Prop
  | .plain c => c ≠ quote.char ∧ c ≠ '\n' ∧ c ≠ '\r'
  | _ => True

/-- Between triple quotes there are no three plain quotes, and none at the end. The number is that of
the quotes before. -/
def InsideTriple (quote : Quote) : Nat → List LiteralItem → Prop
  | quotes, [] => quotes = 0
  | quotes, .plain c :: items =>
    if c = quote.char then quotes < 2 ∧ InsideTriple quote (quotes + 1) items
    else InsideTriple quote 0 items
  | _, _ :: items => InsideTriple quote 0 items

/-- What is a literal. -/
structure WellFormed (literal : PythonLiteral) : Prop where
  itemFits : ∀ item ∈ literal.items, ItemFits literal.mark.isBytes item
  inside : literal.isTriple = false → ∀ item ∈ literal.items, Inside literal.quote item
  insideTriple : literal.isTriple = true → InsideTriple literal.quote 0 literal.items

def quotes (literal : PythonLiteral) : Bytes :=
  List.replicate (if literal.isTriple then 3 else 1) literal.quote.byte

def render (literal : PythonLiteral) : Bytes :=
  literal.mark.render ++ (literal.quotes ++ (literal.items.flatMap LiteralItem.render ++ literal.quotes))

/-- The bytes of a piece in Python. -/
def itemValue (isBytes : Bool) : LiteralItem → Bytes
  | .plain c => utf8EncodeChar c
  | .simple escape => [escape.byte]
  | .hex .x digits =>
    if isBytes then [UInt8.ofNat (numberOf digits.val)]
    else utf8EncodeChar (Char.ofNat (numberOf digits.val))
  | item@(.hex _ digits) =>
    if isBytes then item.render else utf8EncodeChar (Char.ofNat (numberOf digits.val))

/-- The bytes of a literal in Python. -/
def value (literal : PythonLiteral) : Bytes :=
  literal.items.flatMap (itemValue literal.mark.isBytes)

/-- A piece that is an escape in `str` only. -/
def IsCodePoint : LiteralItem → Prop
  | .hex form _ => form ≠ .x
  | _ => False

/-- The literals that the vocabulary may use. -/
structure Handled (literal : PythonLiteral) : Prop where
  mark : literal.mark = .none ∨ literal.mark = .b
  isTriple : literal.isTriple = false
  codePoints : literal.mark.isBytes = true → ∀ item ∈ literal.items, ¬ IsCodePoint item

end PythonLiteral

open PythonLiteral

/-! ## Pieces -/

/-- What the code makes of a piece. -/
def parsedItem (isBytes : Bool) : LiteralItem → Option Bytes
  | .plain c => some (utf8EncodeChar c)
  | .simple escape => some [escape.byte]
  | .hex _ digits => appendCodepoint isBytes (UInt32.ofNat (numberOf digits.val))

/-- What the code makes of pieces. -/
def parsedItems (isBytes : Bool) : List LiteralItem → Option Bytes
  | [] => some []
  | item :: items => do
    let out ← parsedItem isBytes item
    return out ++ (← parsedItems isBytes items)

theorem HexDigit.byte_spec (digit : HexDigit) :
    isXDigit digit.byte = true ∧ digitValue digit.byte = UInt32.ofNat digit.value := by
  cases digit with
  | mk value isUpper =>
    revert value isUpper
    decide

theorem foldl_digits (digits : List HexDigit) (number : Nat) :
    (digits.map HexDigit.byte).foldl (fun (parsed : UInt32) ch => (parsed <<< 4) + digitValue ch)
      (UInt32.ofNat number) =
    UInt32.ofNat (digits.foldl (fun number digit => 16 * number + digit.value) number) := by
  induction digits generalizing number with
  | nil => rfl
  | cons digit digits ih =>
    rw [map_cons, foldl_cons, foldl_cons, ← ih, digit.byte_spec.2]
    congr 1
    rw [← UInt32.toNat_inj, UInt32.toNat_add, UInt32.toNat_shiftLeft]
    simp only [UInt32.toNat_ofNat', Nat.shiftLeft_eq, UInt32.reduceToNat, Nat.reduceMod,
      Nat.reducePow]
    omega

theorem parseHexDigits_map (digits : List HexDigit) (rest : Bytes) :
    parseHexDigits (digits.map HexDigit.byte ++ rest) digits.length =
      some (UInt32.ofNat (numberOf digits)) := by
  have hlength : ¬ (digits.map HexDigit.byte ++ rest).length < digits.length := by
    rw [length_append, length_map]
    omega
  have htake : (digits.map HexDigit.byte ++ rest).take digits.length = digits.map HexDigit.byte :=
    take_left' (length_map _)
  have hall : (digits.map HexDigit.byte).all isXDigit = true := by
    rw [all_map, all_eq_true]
    intro digit _
    exact digit.byte_spec.1
  rw [parseHexDigits, if_neg hlength, htake, if_pos hall]
  exact congrArg some (foldl_digits digits 0)

theorem appendCodepoint_simple (isBytes : Bool) (escape : SimpleEscape) :
    appendCodepoint isBytes escape.byte.toUInt32 = some [escape.byte] := by
  cases escape <;> cases isBytes <;> rfl

theorem parseEscape_simple (isBytes : Bool) (escape : SimpleEscape) (rest : Bytes) :
    parseEscape isBytes (escape.letter :: rest) = some ([escape.byte], rest) := by
  have hsimple : simpleEscape escape.letter = some escape.byte := by cases escape <;> rfl
  simp only [parseEscape, hsimple, appendCodepoint_simple, Option.map_some]

theorem parseEscape_hex (isBytes : Bool) (form : HexForm)
    (digits : { digits : List HexDigit // digits.length = form.width }) (rest : Bytes) :
    parseEscape isBytes (form.letter :: (digits.val.map HexDigit.byte ++ rest)) =
      (appendCodepoint isBytes (UInt32.ofNat (numberOf digits.val))).map fun out => (out, rest) := by
  have hsimple : simpleEscape form.letter = none := by cases form <;> rfl
  have hhex : hexEscape form.letter = some digits.val.length := by
    rw [digits.property]
    cases form <;> rfl
  have hdrop : (digits.val.map HexDigit.byte ++ rest).drop digits.val.length = rest :=
    drop_left' (length_map _)
  simp only [parseEscape, hsimple, hhex, parseHexDigits_map, hdrop, Option.bind_eq_bind,
    Option.bind_some]
  cases appendCodepoint isBytes (UInt32.ofNat (numberOf digits.val)) <;> rfl

theorem head_ne {c other : Char} {byte head : UInt8} {tail : Bytes} (hne : c ≠ other)
    (hother : utf8EncodeChar other = [byte]) (h : utf8EncodeChar c = head :: tail) : head ≠ byte := by
  intro heq
  apply hne
  have hbytes : utf8EncodeChar c ++ [] = utf8EncodeChar other ++ tail := by
    rw [h, hother, heq, append_nil]
    rfl
  exact char_unique hbytes

theorem Quote.encode (quote : Quote) : utf8EncodeChar quote.char = [quote.byte] := by
  cases quote <;> decide

variable {quote : Quote} {item : LiteralItem}

theorem parseBody_item {isBytes : Bool}
    (hfits : ItemFits isBytes item) (hinside : Inside quote item) (turns : Nat) (rest : Bytes) :
    parseBody isBytes quote.byte (turns + 1) (item.render ++ rest) =
      (parsedItem isBytes item).bind fun out =>
        (parseBody isBytes quote.byte turns rest).bind fun parsed => some (out ++ parsed) := by
  have hback : ¬ (0x5C : UInt8) = quote.byte := by cases quote <;> decide
  cases item with
  | plain c =>
    obtain ⟨head, tail, h⟩ := exists_cons_of_ne_nil String.utf8EncodeChar_ne_nil
    have hquote : ¬ head = quote.byte := head_ne hinside.1 quote.encode h
    have hslash : ¬ head = 0x5C := head_ne hfits.1 (by decide) h
    rw [LiteralItem.render, parsedItem, Option.bind_some]
    cases isBytes with
    | true =>
      -- A plain character of `bytes` is one byte.
      have htail : tail = [] := by
        rcases utf8EncodeChar_cases c with ⟨-, hc⟩ | ⟨hlt, -⟩ | ⟨hlt, -⟩ | ⟨hlt, -⟩
        · rw [hc] at h
          exact (List.cons.inj h).2.symm
        all_goals exact absurd (hfits.2 rfl) (by omega)
      rw [h, htail]
      simp only [cons_append, nil_append, parseBody, if_neg hquote, if_neg hslash,
        ↓reduceIte]
      rfl
    | false =>
      have hdecode := decodeUtf8Codepoint_char c rest
      have hdrop : (utf8EncodeChar c ++ rest).drop (utf8EncodeChar c).length = rest :=
        drop_left
      rw [h, cons_append] at hdecode hdrop ⊢
      simp only [parseBody, if_neg hquote, if_neg hslash, hdecode, hdrop, Option.bind_eq_bind,
        Option.bind_some, utf8AppendCodepoint_val, h, Bool.false_eq_true, ↓reduceIte]
      rfl
  | simple escape =>
    simp only [LiteralItem.render, cons_append, nil_append, parseBody, if_neg hback,
      ↓reduceIte, parseEscape_simple, parsedItem]
    rfl
  | hex form digits =>
    simp only [LiteralItem.render, cons_append, parseBody, if_neg hback,
      ↓reduceIte, parseEscape_hex, parsedItem]
    cases appendCodepoint isBytes (UInt32.ofNat (numberOf digits.val)) <;> rfl

variable {items : List LiteralItem}

theorem parseBody_items {isBytes : Bool}
    (hfits : ∀ item ∈ items, ItemFits isBytes item) (hinside : ∀ item ∈ items, Inside quote item)
    (turns : Nat) (hturns : items.length < turns) :
    parseBody isBytes quote.byte turns (items.flatMap LiteralItem.render ++ [quote.byte]) =
      parsedItems isBytes items := by
  induction items generalizing turns with
  | nil =>
    cases turns with
    | zero => exact absurd hturns (Nat.not_lt_zero _)
    | succ turns => simp only [flatMap_nil, nil_append, parseBody, ↓reduceIte, parsedItems]
  | cons item items ih =>
    cases turns with
    | zero => exact absurd hturns (Nat.not_lt_zero _)
    | succ turns =>
      rw [flatMap_cons, List.append_assoc,
        parseBody_item (hfits item mem_cons_self) (hinside item mem_cons_self),
        ih (fun item h => hfits item (mem_cons_of_mem _ h))
          (fun item h => hinside item (mem_cons_of_mem _ h)) turns (Nat.lt_of_succ_lt_succ hturns)]
      rfl

theorem numberOf_lt (digits : List HexDigit) : numberOf digits < 16 ^ digits.length := by
  have hfold : ∀ (digits : List HexDigit) (number bound : Nat), number < bound →
      digits.foldl (fun number digit => 16 * number + digit.value.val) number <
        bound * 16 ^ digits.length := by
    intro digits
    induction digits with
    | nil =>
      intro number bound h
      rw [length_nil, Nat.pow_zero, Nat.mul_one]
      exact h
    | cons digit digits ih =>
      intro number bound h
      have hnext := ih (16 * number + digit.value.val) (16 * bound) (by omega)
      rw [foldl_cons, length_cons, Nat.pow_succ, Nat.mul_comm _ 16, ← Nat.mul_assoc,
        Nat.mul_comm bound 16]
      exact hnext
  have h := hfold digits 0 1 Nat.one_pos
  rw [Nat.one_mul] at h
  exact h

theorem appendCodepoint_char {n : Nat} (h : n.isValidChar) :
    appendCodepoint false (UInt32.ofNat n) = some (utf8EncodeChar (Char.ofNat n)) := by
  have hval : (Char.ofNat n).val = UInt32.ofNat n := by
    have hlt : n < 2 ^ 32 := by
      cases h with
      | inl h => exact Nat.lt_trans h (by decide)
      | inr h => exact Nat.lt_trans h.2 (by decide)
    rw [← UInt32.toNat_inj, val_ofNat h, UInt32.toNat_ofNat', Nat.mod_eq_of_lt hlt]
  rw [← utf8AppendCodepoint_val, hval]
  rfl

theorem parsedItem_eq {isBytes : Bool} (hfits : ItemFits isBytes item)
    (hcode : isBytes = true → ¬ IsCodePoint item) :
    parsedItem isBytes item = some (itemValue isBytes item) := by
  cases item with
  | plain c => rfl
  | simple escape => rfl
  | hex form digits =>
    cases isBytes with
    | true =>
      have hx : form = .x := Decidable.byContradiction fun h => hcode rfl h
      subst hx
      have hlt : numberOf digits.val < 16 ^ 2 := by
        have h := numberOf_lt digits.val
        rw [digits.property] at h
        exact h
      have hle : ¬ (0xFF : UInt32) < UInt32.ofNat (numberOf digits.val) := by
        rw [UInt32.lt_iff_toNat_lt, UInt32.toNat_ofNat', Nat.mod_eq_of_lt (by omega)]
        exact Nat.not_lt_of_le (Nat.le_of_lt_succ hlt)
      rw [parsedItem, appendCodepoint, if_pos rfl, if_neg hle, UInt32.toUInt8_ofNat']
      rfl
    | false =>
      rw [parsedItem, appendCodepoint_char (hfits rfl)]
      cases form <;> rfl

variable {out : Bytes}

/-- A code point in `bytes` becomes a byte, and in Python it stays the letters it is written with. -/
theorem parsedItem_length (h : parsedItem true item = some out) :
    out.length ≤ (itemValue true item).length ∧
      (IsCodePoint item → out.length < (itemValue true item).length) := by
  cases item with
  | plain c => exact ⟨Nat.le_of_eq (Option.some.inj h ▸ rfl), False.elim⟩
  | simple escape => exact ⟨Nat.le_of_eq (Option.some.inj h ▸ rfl), False.elim⟩
  | hex form digits =>
    have hout : out.length = 1 := by
      rw [parsedItem, appendCodepoint, if_pos rfl] at h
      split at h
      · cases h
      · rw [← Option.some.inj h]
        rfl
    have hvalue : 1 ≤ (itemValue true (.hex form digits)).length ∧
        (IsCodePoint (.hex form digits) → 1 < (itemValue true (.hex form digits)).length) := by
      cases form with
      | x => exact ⟨Nat.le_refl 1, fun h => absurd rfl h⟩
      | u => exact ⟨Nat.le_add_left 1 _, fun _ => Nat.le_add_left 2 _⟩
      | upperU => exact ⟨Nat.le_add_left 1 _, fun _ => Nat.le_add_left 2 _⟩
    rw [hout]
    exact hvalue

theorem parsedItems_eq {isBytes : Bool} (hfits : ∀ item ∈ items, ItemFits isBytes item)
    (hcode : isBytes = true → ∀ item ∈ items, ¬ IsCodePoint item) :
    parsedItems isBytes items = some (items.flatMap (itemValue isBytes)) := by
  induction items with
  | nil => rfl
  | cons item items ih =>
    have hitems := ih (fun item h => hfits item (mem_cons_of_mem _ h))
      (fun hbytes item h => hcode hbytes item (mem_cons_of_mem _ h))
    have hitem := parsedItem_eq (hfits item mem_cons_self)
      (fun hbytes => hcode hbytes item mem_cons_self)
    rw [parsedItems, hitem, hitems, flatMap_cons]
    rfl

theorem parsedItems_length (h : parsedItems true items = some out) :
    out.length ≤ (items.flatMap (itemValue true)).length ∧
      ((∃ item ∈ items, IsCodePoint item) →
        out.length < (items.flatMap (itemValue true)).length) := by
  induction items generalizing out with
  | nil =>
    rw [← Option.some.inj h]
    exact ⟨Nat.le_refl _, fun ⟨_, hmem, _⟩ => nomatch hmem⟩
  | cons item items ih =>
    obtain ⟨first, hfirst, h⟩ := Option.bind_eq_some_iff.mp h
    obtain ⟨others, hothers, h⟩ := Option.bind_eq_some_iff.mp h
    have hout : first ++ others = out := Option.some.inj h
    obtain ⟨hle, hlt⟩ := parsedItem_length hfirst
    obtain ⟨hle', hlt'⟩ := ih hothers
    rw [← hout, flatMap_cons, length_append, length_append]
    refine ⟨Nat.add_le_add hle hle', fun ⟨point, hmem, hpoint⟩ => ?_⟩
    cases mem_cons.mp hmem with
    | inl heq => exact Nat.add_lt_add_of_lt_of_le (hlt (heq ▸ hpoint)) hle'
    | inr htail => exact Nat.add_lt_add_of_le_of_lt hle (hlt' ⟨point, htail, hpoint⟩)

/-! ## Literals -/

theorem length_le_render (items : List LiteralItem) :
    items.length ≤ (items.flatMap LiteralItem.render).length := by
  induction items with
  | nil => exact Nat.le_refl 0
  | cons item items ih =>
    have hpos : 1 ≤ item.render.length := by
      cases item with
      | plain c => exact utf8EncodeChar_length_pos c
      | simple escape => exact Nat.le_add_left 1 _
      | hex form digits => exact Nat.le_add_left 1 _
    rw [flatMap_cons, length_append, length_cons]
    omega

theorem parsePythonLiteral_str (quote : Quote) (body : Bytes) (hbody : body ≠ []) :
    parsePythonLiteral (quote.byte :: body) = parseBody false quote.byte (body.length + 1) body := by
  obtain ⟨next, rest, rfl⟩ := exists_cons_of_ne_nil hbody
  cases quote <;> rfl

theorem parsePythonLiteral_bytes (quote : Quote) (body : Bytes) :
    parsePythonLiteral (0x62 :: quote.byte :: body) =
      parseBody true quote.byte (body.length + 2) body := by
  cases quote <;> rfl

theorem parseBody_quote (isBytes : Bool) (quote : UInt8) (turns : Nat) {rest : Bytes}
    (hrest : rest ≠ []) : parseBody isBytes quote turns (quote :: rest) = none := by
  cases turns with
  | zero => rfl
  | succ turns => simp only [parseBody, ↓reduceIte, if_neg hrest]

variable {literal : PythonLiteral}

theorem parse_eq (h : literal.WellFormed) :
    parsePythonLiteral literal.render =
      if (literal.mark = .none ∨ literal.mark = .b) ∧ literal.isTriple = false then
        parsedItems literal.mark.isBytes literal.items
      else none := by
  obtain ⟨mark, quote, isTriple, items⟩ := literal
  cases isTriple with
  | true =>
    cases mark with
    | none =>
      exact (parsePythonLiteral_str quote _ (cons_ne_nil _ _)).trans
        (parseBody_quote false quote.byte _ (cons_ne_nil _ _))
    | b =>
      exact (parsePythonLiteral_bytes quote _).trans
        (parseBody_quote true quote.byte _ (cons_ne_nil _ _))
    | u => cases quote <;> rfl
    | upperU => cases quote <;> rfl
    | upperB => cases quote <;> rfl
  | false =>
    have hinside := h.inside rfl
    have hlt : items.length < (items.flatMap LiteralItem.render ++ [quote.byte]).length := by
      rw [length_append]
      exact Nat.lt_succ_of_le (length_le_render items)
    cases mark with
    | none =>
      have hparse := parseBody_items h.itemFits hinside
        ((items.flatMap LiteralItem.render ++ [quote.byte]).length + 1) (Nat.lt_succ_of_lt hlt)
      exact (parsePythonLiteral_str quote _
        (append_ne_nil_of_right_ne_nil _ (cons_ne_nil _ _))).trans hparse
    | b =>
      have hparse := parseBody_items h.itemFits hinside
        ((items.flatMap LiteralItem.render ++ [quote.byte]).length + 2)
        (Nat.lt_succ_of_lt (Nat.lt_succ_of_lt hlt))
      exact (parsePythonLiteral_bytes quote _).trans hparse
    | u => rw [if_neg (by simp)]; cases quote <;> rfl
    | upperU => rw [if_neg (by simp)]; cases quote <;> rfl
    | upperB => rw [if_neg (by simp)]; cases quote <;> rfl

theorem parse_iff (h : literal.WellFormed) :
    parsePythonLiteral literal.render = some literal.value ↔ literal.Handled := by
  rw [parse_eq h]
  constructor
  · intro hvalue
    split at hvalue
    · rename_i hhandled
      refine ⟨hhandled.1, hhandled.2, ?_⟩
      intro hbytes item hmem hpoint
      rw [hbytes] at hvalue
      have hlt := (parsedItems_length hvalue).2 ⟨item, hmem, hpoint⟩
      rw [PythonLiteral.value, hbytes] at hlt
      exact Nat.lt_irrefl _ hlt
    · cases hvalue
  · intro hhandled
    rw [if_pos ⟨hhandled.mark, hhandled.isTriple⟩]
    exact parsedItems_eq h.itemFits hhandled.codePoints

end Xllm.Tokenizer.RwkvTokenizer
