import Mathlib.Data.List.Basic

/-!
# Fields of a key

A key is put together from fields: texts with their length in front, and decimal numbers, each with a
colon behind it. Fields are read back in one way only, so that equal keys have equal fields.
-/

namespace Xllm.Lib.Framing

/-- A number in decimal. -/
def decimal (n : Nat) : List Char := Nat.toDigits 10 n

def number (n : Nat) : List Char := decimal n ++ [':']

def field (value : List Char) : List Char := number value.length ++ (value ++ [':'])

theorem decimal_injective {m n : Nat} (h : decimal m = decimal n) : m = n := by
  have hdigits := congrArg (fun digits => Nat.ofDigitChars 10 digits 0) h
  unfold decimal at hdigits
  rw [Nat.ofDigitChars_ten_toDigits, Nat.ofDigitChars_ten_toDigits] at hdigits
  exact hdigits

theorem isDigit_of_mem_decimal {n : Nat} {c : Char} (h : c ∈ decimal n) : c.isDigit :=
  Nat.isDigit_of_mem_toDigits (by decide) (by decide) h

/-- Digits end where the colon is. -/
theorem digits_colon_inj {digits digits' rest rest' : List Char} (hdigits : ∀ c ∈ digits, c.isDigit)
    (hdigits' : ∀ c ∈ digits', c.isDigit)
    (h : digits ++ ':' :: rest = digits' ++ ':' :: rest') : digits = digits' ∧ rest = rest' := by
  induction digits generalizing digits' with
  | nil =>
    cases digits' with
    | nil => exact ⟨rfl, (List.cons.inj h).2⟩
    | cons c digits' =>
      have hc := hdigits' c List.mem_cons_self
      rw [← (List.cons.inj h).1] at hc
      exact absurd hc (by decide)
  | cons c digits ih =>
    cases digits' with
    | nil =>
      have hc := hdigits c List.mem_cons_self
      rw [(List.cons.inj h).1] at hc
      exact absurd hc (by decide)
    | cons c' digits' =>
      obtain ⟨hdigits'', hrest⟩ := ih (fun c hc => hdigits c (List.mem_cons_of_mem _ hc))
        (fun c hc => hdigits' c (List.mem_cons_of_mem _ hc)) (List.cons.inj h).2
      exact ⟨by rw [(List.cons.inj h).1, hdigits''], hrest⟩

theorem number_inj {m n : Nat} {rest rest' : List Char} (h : number m ++ rest = number n ++ rest') :
    m = n ∧ rest = rest' := by
  unfold number at h
  rw [List.append_assoc, List.append_assoc] at h
  obtain ⟨hdigits, hrest⟩ := digits_colon_inj (fun c hc => isDigit_of_mem_decimal hc)
    (fun c hc => isDigit_of_mem_decimal hc) h
  exact ⟨decimal_injective hdigits, hrest⟩

theorem field_inj {value value' rest rest' : List Char}
    (h : field value ++ rest = field value' ++ rest') : value = value' ∧ rest = rest' := by
  unfold field at h
  rw [List.append_assoc, List.append_assoc (number value'.length)] at h
  obtain ⟨hlength, hvalue⟩ := number_inj h
  rw [List.append_assoc, List.append_assoc] at hvalue
  obtain ⟨hvalue, hrest⟩ := List.append_inj hvalue hlength
  exact ⟨hvalue, (List.cons.inj hrest).2⟩

end Xllm.Lib.Framing
