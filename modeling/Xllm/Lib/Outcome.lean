import Mathlib.Logic.Basic

/-!
# Outcomes of programs that may stop

A program that can stop with an error is an `Except ε α`. `Outcome E P x` is its one-state
specification: if `x` returns, the value satisfies `P`; if it stops, the error satisfies `E`.
With `E` the empty predicate it is total correctness, and with `E` a set of errors it says which
stops are possible, so a run can be followed through the checks that may fire without losing what
the other checks promise.

The rules are the usual ones: consequence, sequencing, and a rule for the left-to-right traversal
of a list whose invariant is indexed by what is still to come.
-/

namespace Xllm.Lib

open List

universe u v w

variable {ε : Type u} {α : Type v} {β : Type v}

/-- `x` returns a value in `P` or stops with an error in `E`. -/
def Outcome (E : ε → Prop) (P : α → Prop) : Except ε α → Prop
  | .ok a => P a
  | .error e => E e

namespace Outcome

variable {E E' : ε → Prop} {P Q : α → Prop} {R : β → Prop}

@[simp] theorem ok_iff {a : α} : Outcome E P (.ok a) ↔ P a := Iff.rfl

variable {x : Except ε α}

theorem mono (h : Outcome E P x) (hE : ∀ e, E e → E' e) (hP : ∀ a, P a → Q a) : Outcome E' Q x := by
  cases x with
  | ok a => exact hP a h
  | error e => exact hE e h

theorem imp (h : Outcome E P x) (hP : ∀ a, P a → Q a) : Outcome E Q x :=
  h.mono (fun _ he => he) hP

theorem bind {f : α → Except ε β} (h : Outcome E P x)
    (hf : ∀ a, P a → Outcome E R (f a)) : Outcome E R (x >>= f) := by
  cases x with
  | ok a => exact hf a h
  | error e => exact h

theorem of_ok {a : α} (h : Outcome E P x) (hx : x = .ok a) : P a := by
  subst hx
  exact h

theorem of_error {e : ε} (h : Outcome E P x) (hx : x = .error e) : E e := by
  subst hx
  exact h

end Outcome

variable {f : α → Except ε β}

/-- Inversion of a sequence that returned. -/
theorem bind_eq_ok {x : Except ε α} {b : β} :
    (x >>= f) = .ok b ↔ ∃ a, x = .ok a ∧ f a = .ok b := by
  cases x with
  | ok a =>
    constructor
    · intro h; exact ⟨a, rfl, h⟩
    · rintro ⟨a', h, hf⟩; cases h; exact hf
  | error e =>
    constructor
    · intro h; cases h
    · rintro ⟨a', h, _⟩; cases h

/-- A loop that returned has kept what every turn over an element of the list keeps. -/
theorem foldlM_keeps {γ : Type w} {σ : Type v} {f : σ → γ → Except ε σ} {I : σ → Prop}
    {cs : List γ} {s s' : σ} (keep : ∀ c ∈ cs, ∀ t t', I t → f t c = .ok t' → I t')
    (h : cs.foldlM f s = .ok s') (start : I s) : I s' := by
  induction cs generalizing s with
  | nil =>
    cases h
    exact start
  | cons c cs ih =>
    rw [foldlM_cons, bind_eq_ok] at h
    obtain ⟨t, hturn, h⟩ := h
    have hstart := keep c mem_cons_self s t start hturn
    exact ih (fun d hd => keep d (mem_cons_of_mem _ hd)) h hstart

@[simp] theorem ok_bind (a : α) (f : α → Except ε β) : (Except.ok a >>= f) = f a := rfl

/-! ## Checks -/

/-- A condition holds, or the failure is raised. -/
def check (condition : Prop) [Decidable condition] (failure : ε) : Except ε Unit :=
  if condition then .ok () else .error failure

theorem check_eq_ok {condition : Prop} [Decidable condition] {failure : ε} :
    check condition failure = .ok () ↔ condition := by
  unfold check
  by_cases h : condition
  · rw [if_pos h]
    exact ⟨fun _ => h, fun _ => rfl⟩
  · rw [if_neg h]
    constructor
    · intro hf
      cases hf
    · intro hf
      exact absurd hf h

theorem check_bind_eq_ok {γ : Type} {condition : Prop} [Decidable condition] {failure : ε}
    {f : Unit → Except ε γ} {b : γ} :
    (check condition failure >>= f) = .ok b ↔ condition ∧ f () = .ok b := by
  unfold check
  by_cases h : condition
  · rw [if_pos h, ok_bind]
    exact ⟨fun hf => ⟨h, hf⟩, fun hf => hf.2⟩
  · rw [if_neg h]
    constructor
    · intro hf
      cases hf
    · intro hf
      exact absurd hf.1 h

/-! ## Mapping a list -/

variable {l : List α}

theorem exists_mapM_ok (h : ∀ a ∈ l, ∃ b, f a = .ok b) :
    ∃ bs, l.mapM f = .ok bs := by
  induction l with
  | nil => exact ⟨[], rfl⟩
  | cons a l ih =>
    obtain ⟨b, hb⟩ := h a mem_cons_self
    obtain ⟨bs, hbs⟩ := ih fun c hc => h c (mem_cons_of_mem _ hc)
    refine ⟨b :: bs, ?_⟩
    rw [mapM_cons, hb, hbs]
    rfl

theorem mapM_eq_ok {g : α → β} (h : ∀ a ∈ l, f a = .ok (g a)) : l.mapM f = .ok (l.map g) := by
  induction l with
  | nil => rfl
  | cons a l ih =>
    rw [mapM_cons, h a mem_cons_self, ok_bind,
      ih fun c hc => h c (mem_cons_of_mem _ hc)]
    rfl

variable {bs : List β}

theorem of_mapM_ok (h : l.mapM f = .ok bs) :
    bs.length = l.length ∧ ∀ (i : Nat) a, l[i]? = some a → ∃ b, bs[i]? = some b ∧ f a = .ok b := by
  induction l generalizing bs with
  | nil =>
    cases h
    exact ⟨rfl, fun i a ha => nomatch ha⟩
  | cons a l ih =>
    rw [mapM_cons, bind_eq_ok] at h
    obtain ⟨b, hb, h⟩ := h
    obtain ⟨cs, hcs, h⟩ := bind_eq_ok.mp h
    cases h
    obtain ⟨hlen, hget⟩ := ih hcs
    refine ⟨by rw [length_cons, length_cons, hlen], fun i c hc => ?_⟩
    cases i with
    | zero =>
      cases hc
      exact ⟨b, rfl, hb⟩
    | succ i => exact hget i c hc

theorem exists_mem_of_mapM (h : l.mapM f = .ok bs)
    {a : α} (ha : a ∈ l) : ∃ b ∈ bs, f a = .ok b := by
  obtain ⟨i, hi⟩ := List.getElem?_of_mem ha
  obtain ⟨b, hb, hfa⟩ := (of_mapM_ok h).2 i a hi
  exact ⟨b, mem_of_getElem? hb, hfa⟩

end Xllm.Lib
