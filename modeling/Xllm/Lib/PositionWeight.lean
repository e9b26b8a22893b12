import Mathlib.Data.List.Basic

/-!
# Weighing a list by position

`weightFrom f k xs` counts `f x` as often as the place of `x` says, the first place being `k + 1`.
What is put later in a list weighs more, so moving something to an earlier place is seen in the
weight.
-/

namespace Xllm.Lib

universe u v

variable {α : Type u} {β : Type v}

def weightFrom (f : α → ℕ) : ℕ → List α → ℕ
  | _, [] => 0
  | k, x :: xs => (k + 1) * f x + weightFrom f (k + 1) xs

theorem weightFrom_append (f : α → ℕ) (xs ys : List α) (k : ℕ) :
    weightFrom f k (xs ++ ys) = weightFrom f k xs + weightFrom f (k + xs.length) ys := by
  induction xs generalizing k with
  | nil => simp [weightFrom]
  | cons x xs ih =>
    rw [List.cons_append, weightFrom, weightFrom, ih, List.length_cons,
      show k + 1 + xs.length = k + (xs.length + 1) by omega, Nat.add_assoc]

theorem weightFrom_concat (f : α → ℕ) (xs : List α) (x : α) :
    weightFrom f 0 (xs ++ [x]) = weightFrom f 0 xs + (xs.length + 1) * f x := by
  rw [weightFrom_append, Nat.zero_add]
  rfl

theorem weightFrom_map (f : β → ℕ) (g : α → β) (xs : List α) (k : ℕ) :
    weightFrom f k (xs.map g) = weightFrom (fun x => f (g x)) k xs := by
  induction xs generalizing k with
  | nil => rfl
  | cons x xs ih => rw [List.map_cons, weightFrom, weightFrom, ih]

theorem weightFrom_congr {f f' : α → ℕ} {xs : List α} (h : ∀ x ∈ xs, f x = f' x) (k : ℕ) :
    weightFrom f k xs = weightFrom f' k xs := by
  induction xs generalizing k with
  | nil => rfl
  | cons x xs ih =>
    rw [weightFrom, weightFrom, h x List.mem_cons_self,
      ih fun y hy => h y (List.mem_cons_of_mem _ hy)]

/-- When at most one element grows, by at most `n`, the weight grows at most as at the last place. -/
theorem weightFrom_le_of_one (f f' : α → ℕ) (n : ℕ) {grows : α → Prop} {xs : List α}
    (hone : xs.Pairwise fun x y => grows x → ¬ grows y)
    (hgrows : ∀ x, f' x ≤ f x + n) (hsame : ∀ x, ¬ grows x → f' x = f x) (k : ℕ) :
    weightFrom f' k xs ≤ weightFrom f k xs + (k + xs.length) * n := by
  induction xs generalizing k with
  | nil => exact Nat.zero_le _
  | cons x xs ih =>
    rw [List.pairwise_cons] at hone
    rw [weightFrom, weightFrom, List.length_cons]
    by_cases hx : grows x
    · -- nothing behind the element grows
      have hrest : weightFrom f' (k + 1) xs = weightFrom f (k + 1) xs :=
        weightFrom_congr (fun y hy => hsame y (hone.1 y hy hx)) (k + 1)
      have hfirst : (k + 1) * f' x ≤ (k + 1) * (f x + n) := Nat.mul_le_mul_left _ (hgrows x)
      have hplace : (k + 1) * n ≤ (k + (xs.length + 1)) * n :=
        Nat.mul_le_mul_right _ (by omega)
      rw [Nat.mul_add] at hfirst
      omega
    · have hrest := ih hone.2 (k + 1)
      rw [hsame x hx, show k + (xs.length + 1) = k + 1 + xs.length by omega]
      omega

end Xllm.Lib
