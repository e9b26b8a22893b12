import Mathlib.Logic.Basic

/-!
# Programs that return or give up

A program that can give up is an `Option`. `Yields ok P x` says that whatever `x` returns
satisfies `P`, and that it does return when `ok` holds: partial correctness, and totality under a
condition.
-/

namespace Xllm.Lib

universe u v

variable {σ τ : Type u} {ok : Prop}

structure Yields (ok : Prop) (P : σ → Prop) (x : Option σ) : Prop where
  sound : ∀ s, x = some s → P s
  returns : ok → ∃ s, x = some s

namespace Yields

variable {P Q : σ → Prop} {R : τ → Prop}

theorem some {s : σ} (h : P s) : Yields ok P (some s) :=
  ⟨fun _ heq => Option.some.inj heq ▸ h, fun _ => ⟨s, rfl⟩⟩

theorem imp {x : Option σ} (h : Yields ok P x) (hPQ : ∀ s, P s → Q s) : Yields ok Q x :=
  ⟨fun s hs => hPQ s (h.sound s hs), h.returns⟩

theorem check {c : Prop} [Decidable c] {x : Option σ} (hc : ok → c) (h : c → Yields ok P x) :
    Yields ok P (if c then x else none) := by
  by_cases hcond : c
  · rw [if_pos hcond]
    exact h hcond
  · rw [if_neg hcond]
    exact ⟨fun _ hs => (by cases hs), fun hok => absurd (hc hok) hcond⟩

theorem bind {x : Option σ} {f : σ → Option τ} (h : Yields ok P x)
    (hf : ∀ s, P s → Yields ok R (f s)) : Yields ok R (x >>= f) := by
  cases hx : x with
  | none =>
    refine ⟨fun _ hs => (by cases hs), fun hok => ?_⟩
    obtain ⟨s, hs⟩ := h.returns hok
    rw [hx] at hs
    cases hs
  | some s => exact hf s (h.sound s hx)

/-- A traversal, by an invariant on what has been visited. -/
theorem foldlM {α : Type v} {f : σ → α → Option σ} {I : List α → σ → Prop} {xs : List α}
    (step : ∀ visited x s, x ∈ xs → I visited s → Yields ok (I (visited ++ [x])) (f s x)) {s : σ}
    (h : I [] s) : Yields ok (I xs) (xs.foldlM f s) := by
  have hfrom : ∀ todo visited s, (∀ x ∈ todo, x ∈ xs) → I visited s →
      Yields ok (I (visited ++ todo)) (todo.foldlM f s) := by
    intro todo
    induction todo with
    | nil =>
      intro visited s _ hs
      rw [List.append_nil]
      exact .some hs
    | cons x todo ih =>
      intro visited s hmem hs
      rw [List.foldlM_cons, List.append_cons]
      apply (step visited x s (hmem x List.mem_cons_self) hs).bind
      intro s' hs'
      exact ih (visited ++ [x]) s' (fun y hy => hmem y (List.mem_cons_of_mem _ hy)) hs'
  exact hfrom xs [] s (fun _ hx => hx) h

end Yields

end Xllm.Lib
