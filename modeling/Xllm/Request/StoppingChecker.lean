import Xllm.Lib.MachineInt

/-!
# The stopping checker

`core/framework/request/stopping_checker.cpp` decides from the tokens of a sequence whether it is
finished. Tokens below zero at the end are placeholders of steps that are still running; the checker
looks at what stands before them.
-/

namespace Xllm.Request

open Xllm.Lib

inductive FinishReason
  | none
  | stop
  | length
  | functionCall
  deriving DecidableEq, Repr

/-- The CHECKs of `StoppingChecker::check`. -/
inductive StoppingCheck
  | noTokens
  | noCommittedToken
  | unknown
  deriving DecidableEq, Repr

structure StoppingChecker where
  maxGeneratedTokens : Nat
  maxContextLen : Nat
  eosToken : Int
  ignoreEos : Bool
  stopTokens : List Int
  stopSequences : List (List Int)
  deriving DecidableEq, Repr

namespace StoppingChecker

/-- The tokens before the placeholders at the end. -/
def committedTokens (tokenIds : List Int) : List Int :=
  tokenIds.rdropWhile fun token => token < 0

/-- `seq.back() == last_token_id && util::match_suffix(...)`. An empty sequence has no last token. -/
def matchesStop (committed : List Int) (lastTokenId : Int) (seq : List Int) : Bool :=
  seq.getLast? = some lastTokenId && seq.isSuffixOf committed

/-- What `check` returns on committed tokens that end in `lastTokenId`. -/
def checkCommitted (c : StoppingChecker) (committed : List Int) (lastTokenId : Int)
    (numPromptTokens : Nat) : Except StoppingCheck (FinishReason × Nat) :=
  if !c.ignoreEos && lastTokenId = c.eosToken then .ok (.stop, 1)
  else if !c.ignoreEos && lastTokenId ∈ c.stopTokens then .ok (.stop, 1)
  else
    match c.stopSequences.find? (matchesStop committed lastTokenId) with
    | some seq => .ok (.stop, min seq.length (subSize committed.length numPromptTokens))
    | none =>
      if 0 < c.maxGeneratedTokens &&
          c.maxGeneratedTokens ≤ subSize committed.length numPromptTokens then .ok (.length, 0)
      else if 0 < c.maxContextLen && c.maxContextLen ≤ committed.length then
        if committed.length < numPromptTokens then .error .unknown else .ok (.length, 0)
      else .ok (.none, 0)

/-- The finish reason, and how many tokens at the end are part of what stopped the sequence. -/
def check (c : StoppingChecker) (tokenIds : List Int) (numPromptTokens : Nat) :
    Except StoppingCheck (FinishReason × Nat) :=
  if tokenIds = [] then .error .noTokens
  else
    match (committedTokens tokenIds).getLast? with
    | none => .error .noCommittedToken
    | some lastTokenId =>
      c.checkCommitted (committedTokens tokenIds) lastTokenId numPromptTokens

/-! ## Placeholders do not count -/

variable {tokens fakes : List Int}

theorem committedTokens_append (h : ∀ f ∈ fakes, f < 0) :
    committedTokens (tokens ++ fakes) = committedTokens tokens := by
  rw [committedTokens, committedTokens, List.rdropWhile, List.rdropWhile, List.reverse_append,
    List.dropWhile_append, List.dropWhile_eq_nil_iff.mpr fun f hf =>
      decide_eq_true (h f (List.mem_reverse.mp hf))]
  rfl

variable {t : Int}

theorem committedTokens_of_last (h : 0 ≤ t) :
    committedTokens (tokens ++ [t]) = tokens ++ [t] :=
  List.rdropWhile_concat_neg _ _ _ (by simpa using h)

/-- The checker answers as if the placeholders were not there. -/
theorem check_append (hne : tokens ≠ []) (h : ∀ f ∈ fakes, f < 0)
    (c : StoppingChecker) (numPromptTokens : Nat) :
    c.check (tokens ++ fakes) numPromptTokens = c.check tokens numPromptTokens := by
  have hne' : tokens ++ fakes ≠ [] := fun hnil => hne (List.append_eq_nil_iff.mp hnil).1
  rw [check, check, if_neg hne', if_neg hne, committedTokens_append h]

theorem check_of_last (h : 0 ≤ t) (c : StoppingChecker) (numPromptTokens : Nat) :
    c.check (tokens ++ [t]) numPromptTokens =
      c.checkCommitted (tokens ++ [t]) t numPromptTokens := by
  rw [check, if_neg (by simp), committedTokens_of_last h, List.getLast?_concat]

variable {c : StoppingChecker} {committed : List Int} {numPromptTokens : Nat}

/-- What the checker has let pass is shorter than both limits. -/
theorem of_checkCommitted_none {lastTokenId : Int} {matched : Nat}
    (h : c.checkCommitted committed lastTokenId numPromptTokens = .ok (.none, matched)) :
    matched = 0 ∧
      (0 < c.maxGeneratedTokens → subSize committed.length numPromptTokens < c.maxGeneratedTokens) ∧
      (0 < c.maxContextLen → committed.length < c.maxContextLen) := by
  unfold checkCommitted at h
  split at h
  · cases h
  split at h
  · cases h
  split at h
  · cases h
  split at h
  · cases h
  split at h
  · split at h <;> cases h
  rename_i hgenerated hcontext
  cases h
  simp only [Bool.and_eq_true, decide_eq_true_eq, not_and, Nat.not_le] at hgenerated hcontext
  exact ⟨rfl, hgenerated, hcontext⟩

/-- The only CHECK behind a last token is that the tokens hold the prompt. -/
theorem exists_checkCommitted (hlen : numPromptTokens ≤ committed.length) (lastTokenId : Int) :
    ∃ reason, c.checkCommitted committed lastTokenId numPromptTokens = .ok reason := by
  unfold checkCommitted
  split
  · exact ⟨_, rfl⟩
  split
  · exact ⟨_, rfl⟩
  split
  · exact ⟨_, rfl⟩
  split
  · exact ⟨_, rfl⟩
  split
  · rw [if_neg (Nat.not_lt.mpr hlen)]
    exact ⟨_, rfl⟩
  · exact ⟨_, rfl⟩

end StoppingChecker

end Xllm.Request
