import Xllm.Lib.Residual
import Xllm.Sampling.JsonObjectGrammar

/-!
# JSON objects as a language of bytes

RFC 8259 read at byte level: any byte from 0x20 on other than quote and backslash is a string
character, and keys may repeat. Strings, numbers and literals are regular and are written with
Mathlib's operations on languages. Values nest, so they are derived by productions (`Derives`); the
languages of the nonterminals satisfy one equation each (`value_eq` and its companions), and later
modules use nothing else about them.
-/

namespace Xllm.Framework

open Xllm.Lib
open scoped Computability

namespace Json

/-! ## Lexical grammar -/

def byte (c : Char) : Language UInt8 := word [ascii c]

def ws : Language UInt8 := (oneOf isJsonWhitespace)∗

def unescaped (character : UInt8) : Bool :=
  0x20 ≤ character ∧ character ≠ ascii '"' ∧ character ≠ ascii '\\'

def simpleEscape (character : UInt8) : Bool := isJsonEscape character ∧ character ≠ ascii 'u'

def hexDigits (n : Nat) : Language UInt8 := oneOf isHexDigit ^ n

def stringCharacter : Language UInt8 :=
  oneOf unescaped + byte '\\' * (oneOf simpleEscape + byte 'u' * hexDigits 4)

def string : Language UInt8 := byte '"' * (stringCharacter∗ * byte '"')

def digits : Language UInt8 := (oneOf isDigit)∗

def fraction : Language UInt8 := 1 + byte '.' * (oneOf isDigit * digits)

def exponent : Language UInt8 :=
  1 + (byte 'e' + byte 'E') * ((1 + byte '+' + byte '-') * (oneOf isDigit * digits))

def integer : Language UInt8 := byte '0' + oneOf isDigit19 * digits

def number : Language UInt8 := (1 + byte '-') * (integer * (fraction * exponent))

def literal : Language UInt8 :=
  word [ascii 't', ascii 'r', ascii 'u', ascii 'e'] +
    word [ascii 'f', ascii 'a', ascii 'l', ascii 's', ascii 'e'] +
    word [ascii 'n', ascii 'u', ascii 'l', ascii 'l']

/-! ## Productions -/

inductive Nonterminal
  | value
  | object
  | members
  | array
  | elements

/-- `member = string ws ":" ws value`; members and elements are separated by commas. -/
inductive Derives : Nonterminal → List UInt8 → Prop
  | valueObject {x : List UInt8} (object : Derives .object x) : Derives .value x
  | valueArray {x : List UInt8} (array : Derives .array x) : Derives .value x
  | valueString {x : List UInt8} (string : x ∈ string) : Derives .value x
  | valueNumber {x : List UInt8} (number : x ∈ number) : Derives .value x
  | valueLiteral {x : List UInt8} (literal : x ∈ literal) : Derives .value x
  | emptyObject {u : List UInt8} (ws : u ∈ ws) :
      Derives .object ([ascii '{'] ++ (u ++ [ascii '}']))
  | someObject {u m v : List UInt8} (before : u ∈ ws) (members : Derives .members m)
      (after : v ∈ ws) : Derives .object ([ascii '{'] ++ (u ++ (m ++ (v ++ [ascii '}']))))
  | lastMember {k u v x : List UInt8} (key : k ∈ string) (before : u ∈ ws) (after : v ∈ ws)
      (value : Derives .value x) : Derives .members (k ++ (u ++ ([ascii ':'] ++ (v ++ x))))
  | moreMembers {k u v x y z m : List UInt8} (key : k ∈ string) (before : u ∈ ws)
      (after : v ∈ ws) (value : Derives .value x) (beforeComma : y ∈ ws) (afterComma : z ∈ ws)
      (members : Derives .members m) :
      Derives .members ((k ++ (u ++ ([ascii ':'] ++ (v ++ x)))) ++ (y ++ ([ascii ','] ++ (z ++ m))))
  | emptyArray {u : List UInt8} (ws : u ∈ ws) : Derives .array ([ascii '['] ++ (u ++ [ascii ']']))
  | someArray {u m v : List UInt8} (before : u ∈ ws) (elements : Derives .elements m)
      (after : v ∈ ws) : Derives .array ([ascii '['] ++ (u ++ (m ++ (v ++ [ascii ']']))))
  | lastElement {x : List UInt8} (value : Derives .value x) : Derives .elements x
  | moreElements {x y z m : List UInt8} (value : Derives .value x) (beforeComma : y ∈ ws)
      (afterComma : z ∈ ws) (elements : Derives .elements m) :
      Derives .elements (x ++ (y ++ ([ascii ','] ++ (z ++ m))))

def value : Language UInt8 := {x | Derives .value x}

def object : Language UInt8 := {x | Derives .object x}

def members : Language UInt8 := {x | Derives .members x}

def array : Language UInt8 := {x | Derives .array x}

def elements : Language UInt8 := {x | Derives .elements x}

/-- A JSON text whose value is an object. -/
def objectText : Language UInt8 := ws * (object * ws)

/-! ## One equation for each nonterminal -/

theorem value_eq : value = object + array + string + number + literal := by
  ext x
  constructor
  · intro h
    cases h with
    | valueObject h => exact Or.inl (Or.inl (Or.inl (Or.inl h)))
    | valueArray h => exact Or.inl (Or.inl (Or.inl (Or.inr h)))
    | valueString h => exact Or.inl (Or.inl (Or.inr h))
    | valueNumber h => exact Or.inl (Or.inr h)
    | valueLiteral h => exact Or.inr h
  · rintro ((((h | h) | h) | h) | h)
    · exact .valueObject h
    · exact .valueArray h
    · exact .valueString h
    · exact .valueNumber h
    · exact .valueLiteral h

theorem mem_byte {c : Char} {x : List UInt8} : x ∈ byte c ↔ x = [ascii c] := Iff.rfl

theorem object_eq :
    object = byte '{' * (ws * (byte '}' + members * (ws * byte '}'))) := by
  ext x
  constructor
  · intro h
    cases h with
    | emptyObject hu =>
      exact Language.append_mem_mul rfl (Language.append_mem_mul hu (Or.inl rfl))
    | someObject hu hm hv =>
      exact Language.append_mem_mul rfl (Language.append_mem_mul hu (Or.inr
        (Language.append_mem_mul hm (Language.append_mem_mul hv rfl))))
  · rintro ⟨b, hb, r, ⟨u, hu, t, ht, rfl⟩, rfl⟩
    rw [mem_byte.mp hb]
    rcases ht with ht | ⟨m, hm, r, ⟨v, hv, e, he, rfl⟩, rfl⟩
    · rw [mem_byte.mp ht]
      exact .emptyObject hu
    · rw [mem_byte.mp he]
      exact .someObject hu hm hv

theorem array_eq :
    array = byte '[' * (ws * (byte ']' + elements * (ws * byte ']'))) := by
  ext x
  constructor
  · intro h
    cases h with
    | emptyArray hu =>
      exact Language.append_mem_mul rfl (Language.append_mem_mul hu (Or.inl rfl))
    | someArray hu hm hv =>
      exact Language.append_mem_mul rfl (Language.append_mem_mul hu (Or.inr
        (Language.append_mem_mul hm (Language.append_mem_mul hv rfl))))
  · rintro ⟨b, hb, r, ⟨u, hu, t, ht, rfl⟩, rfl⟩
    rw [mem_byte.mp hb]
    rcases ht with ht | ⟨m, hm, r, ⟨v, hv, e, he, rfl⟩, rfl⟩
    · rw [mem_byte.mp ht]
      exact .emptyArray hu
    · rw [mem_byte.mp he]
      exact .someArray hu hm hv

def member : Language UInt8 := string * (ws * (byte ':' * (ws * value)))

theorem members_eq : members = member + member * (ws * (byte ',' * (ws * members))) := by
  ext x
  constructor
  · intro h
    cases h with
    | lastMember hk hu hv hx =>
      exact Or.inl (Language.append_mem_mul hk (Language.append_mem_mul hu
        (Language.append_mem_mul rfl (Language.append_mem_mul hv hx))))
    | moreMembers hk hu hv hx hy hz hm =>
      exact Or.inr (Language.append_mem_mul (Language.append_mem_mul hk (Language.append_mem_mul hu
        (Language.append_mem_mul rfl (Language.append_mem_mul hv hx))))
        (Language.append_mem_mul hy (Language.append_mem_mul rfl (Language.append_mem_mul hz hm))))
  · rintro (⟨k, hk, r, ⟨u, hu, r, ⟨b, hb, r, ⟨v, hv, x, hx, rfl⟩, rfl⟩, rfl⟩, rfl⟩ |
      ⟨f, ⟨k, hk, r, ⟨u, hu, r, ⟨b, hb, r, ⟨v, hv, x, hx, rfl⟩, rfl⟩, rfl⟩, rfl⟩,
        s, ⟨y, hy, s, ⟨c, hc, s, ⟨z, hz, m, hm, rfl⟩, rfl⟩, rfl⟩, rfl⟩)
    · rw [mem_byte.mp hb]
      exact .lastMember hk hu hv hx
    · rw [mem_byte.mp hb, mem_byte.mp hc]
      exact .moreMembers hk hu hv hx hy hz hm

theorem elements_eq : elements = value + value * (ws * (byte ',' * (ws * elements))) := by
  ext x
  constructor
  · intro h
    cases h with
    | lastElement hx => exact Or.inl hx
    | moreElements hx hy hz hm =>
      exact Or.inr (Language.append_mem_mul hx (Language.append_mem_mul hy
        (Language.append_mem_mul rfl (Language.append_mem_mul hz hm))))
  · rintro (hx | ⟨x, hx, s, ⟨y, hy, s, ⟨c, hc, s, ⟨z, hz, m, hm, rfl⟩, rfl⟩, rfl⟩, rfl⟩)
    · exact .lastElement hx
    · rw [mem_byte.mp hc]
      exact .moreElements hx hy hz hm

/-! ## From a position inside a container to its closing bracket -/

/-- Behind a value of an object: its end, or more members and its end. -/
def objectTail : Language UInt8 :=
  ws * (byte '}' + byte ',' * (ws * (members * (ws * byte '}'))))

/-- Behind a key. -/
def keyTail : Language UInt8 := ws * (byte ':' * (ws * (value * objectTail)))

/-- Behind a value of an array. -/
def arrayTail : Language UInt8 :=
  ws * (byte ']' + byte ',' * (ws * (elements * (ws * byte ']'))))

theorem members_close : members * (ws * byte '}') = string * keyTail := by
  have hmember : member * objectTail = string * keyTail := by
    unfold member keyTail
    simp only [mul_assoc]
  rw [← hmember]
  conv_lhs => rw [members_eq]
  unfold objectTail
  simp only [add_mul, mul_add, mul_assoc]

theorem elements_close : elements * (ws * byte ']') = value * arrayTail := by
  conv_lhs => rw [elements_eq]
  unfold arrayTail
  simp only [add_mul, mul_add, mul_assoc]

end Json

end Xllm.Framework
