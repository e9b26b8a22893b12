import Mathlib.Data.List.Basic

/-!
# Machines that read increments

A transducer answers every increment it reads with an output. The run on a list of increments is kept
from an arbitrary state, so that what a machine says about `xs ++ ys` is what it says about `xs`,
followed by what it says about `ys` from where it is then.
-/

namespace Xllm.Lib

universe u v w

structure Transducer (σ : Type u) (ι : Type v) (ω : Type w) where
  start : σ
  step : σ → ι → ω × σ

namespace Transducer

variable {σ : Type u} {ι : Type v} {ω : Type w}

def stateFrom (t : Transducer σ ι ω) (s : σ) : List ι → σ
  | [] => s
  | x :: xs => t.stateFrom (t.step s x).2 xs

def outputsFrom (t : Transducer σ ι ω) (s : σ) : List ι → List ω
  | [] => []
  | x :: xs => (t.step s x).1 :: t.outputsFrom (t.step s x).2 xs

variable (t : Transducer σ ι ω)

/-- The state behind a list of increments. -/
def after (xs : List ι) : σ := t.stateFrom t.start xs

def outputs (xs : List ι) : List ω := t.outputsFrom t.start xs

theorem stateFrom_append (s : σ) (xs ys : List ι) :
    t.stateFrom s (xs ++ ys) = t.stateFrom (t.stateFrom s xs) ys := by
  induction xs generalizing s with
  | nil => rfl
  | cons x xs ih => exact ih (t.step s x).2

theorem outputsFrom_append (s : σ) (xs ys : List ι) :
    t.outputsFrom s (xs ++ ys) = t.outputsFrom s xs ++ t.outputsFrom (t.stateFrom s xs) ys := by
  induction xs generalizing s with
  | nil => rfl
  | cons x xs ih =>
    rw [List.cons_append, outputsFrom, outputsFrom, ih, stateFrom]
    rfl

theorem after_append (xs ys : List ι) : t.after (xs ++ ys) = t.stateFrom (t.after xs) ys :=
  t.stateFrom_append t.start xs ys

theorem outputs_append (xs ys : List ι) :
    t.outputs (xs ++ ys) = t.outputs xs ++ t.outputsFrom (t.after xs) ys :=
  t.outputsFrom_append t.start xs ys

theorem after_concat (xs : List ι) (x : ι) : t.after (xs ++ [x]) = (t.step (t.after xs) x).2 :=
  t.after_append xs [x]

theorem outputs_concat (xs : List ι) (x : ι) :
    t.outputs (xs ++ [x]) = t.outputs xs ++ [(t.step (t.after xs) x).1] :=
  t.outputs_append xs [x]

end Transducer

end Xllm.Lib
