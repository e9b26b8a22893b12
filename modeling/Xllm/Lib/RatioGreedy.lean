import Mathlib.Algebra.Order.Field.Basic
import Mathlib.Algebra.Order.BigOperators.Group.List
import Mathlib.Tactic.Ring
import Mathlib.Tactic.Linarith

/-!
# Maximising a ratio one item at a time

Items with gains are taken in the order of non-increasing gains, and the ratio of what was gained to
what it cost decides whether the next one is taken. Two facts carry the optimality of such a choice.
No selection of items gains more than as many of the first ones (`sum_sublist_le_sum_take`). And once
an item does not raise the ratio, no number of later items does, as long as they gain no more and cost
no less each (`ratio_le_of_stopped`).
-/

namespace Xllm.Lib

open List

universe u v

/-! ## The first items gain the most -/

section

variable {α : Type u} {K : Type v} [AddCommMonoid K] [PartialOrder K] [IsOrderedAddMonoid K]
  {gain : α → K}

/-- In a list of non-increasing gains, a later item may be moved to the front of what was taken. -/
theorem sum_take_succ_le {a : α} {l : List α} (h : (a :: l).Pairwise fun b c => gain c ≤ gain b)
    (n : Nat) (hn : n ≤ l.length) :
    ((l.take n).map gain).sum ≤ (((a :: l).take n).map gain).sum := by
  induction l generalizing a n with
  | nil =>
    have : n = 0 := Nat.le_zero.mp hn
    subst this
    exact le_refl _
  | cons b l ih =>
    cases n with
    | zero => exact le_refl _
    | succ n =>
      have hab : gain b ≤ gain a := (pairwise_cons.mp h).1 b mem_cons_self
      have hrest := ih (pairwise_cons.mp h).2 n (Nat.le_of_succ_le_succ hn)
      exact add_le_add hab hrest

/-- No selection gains more than as many of the first items. -/
theorem sum_sublist_le_sum_take {s l : List α} (hs : s.Sublist l)
    (h : l.Pairwise fun b c => gain c ≤ gain b) :
    (s.map gain).sum ≤ ((l.take s.length).map gain).sum := by
  induction hs with
  | slnil => exact le_refl _
  | cons a hs ih =>
    exact le_trans (ih (pairwise_cons.mp h).2) (sum_take_succ_le h _ hs.length_le)
  | cons_cons a hs ih =>
    exact add_le_add (le_refl _) (ih (pairwise_cons.mp h).2)

end

/-! ## A ratio that has stopped rising -/

section

variable {K : Type v} [Field K] [LinearOrder K] [IsStrictOrderedRing K]

/-- One more item with gain `p` does not raise the ratio of `a` to `t`, so `n` items that gain `p` each
at most, and cost as much each at least, do not raise it either. -/
theorem ratio_le_of_stopped {a p t t₁ t₂ m : K} {n : Nat} (ha : 0 ≤ a) (ht : 0 < t) (ht₁ : 0 < t₁)
    (ht₂ : 0 < t₂) (stopped : (a + p) / t₁ ≤ a / t) (gained : m ≤ n * p)
    (cost : n * (t₁ - t) ≤ t₂ - t) : (a + m) / t₂ ≤ a / t := by
  have hitem : p * t ≤ a * (t₁ - t) := by
    have := (div_le_div_iff₀ ht₁ ht).mp stopped
    linarith
  have hitems : m * t ≤ a * (t₂ - t) :=
    calc m * t ≤ n * p * t := mul_le_mul_of_nonneg_right gained ht.le
      _ = n * (p * t) := by ring
      _ ≤ n * (a * (t₁ - t)) := mul_le_mul_of_nonneg_left hitem (Nat.cast_nonneg n)
      _ = a * (n * (t₁ - t)) := by ring
      _ ≤ a * (t₂ - t) := mul_le_mul_of_nonneg_left cost ha
  rw [div_le_div_iff₀ ht₂ ht]
  linarith

/-- The cost of `n` steps above a floor: the steps never get cheaper. -/
theorem floored_steps_le (v floor : K) {c : K} (hc : 0 ≤ c) (n : Nat) :
    n * (max (v + c) floor - max v floor) ≤ max (v + n * c) floor - max v floor := by
  cases n with
  | zero => simp
  | succ n =>
    have hn : (0 : K) ≤ n := Nat.cast_nonneg n
    have hnc : 0 ≤ (n : K) * c := mul_nonneg hn hc
    push_cast
    rcases le_total floor v with hv | hv
    · rw [max_eq_left hv, max_eq_left (by linarith), max_eq_left (by linarith)]
      linarith
    · rw [max_eq_right hv]
      rcases le_total floor (v + c) with hvc | hvc
      · rw [max_eq_left hvc, max_eq_left (by linarith)]
        nlinarith
      · rw [max_eq_right hvc, sub_self, mul_zero]
        exact sub_nonneg.mpr (le_max_right _ _)

end

end Xllm.Lib
