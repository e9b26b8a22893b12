import Mathlib.Data.List.DropRight

/-!
# Dropping what surrounds a list

`trim p xs` is `xs` without the elements that satisfy `p` at both ends. A list that is put behind another
is seen after trimming as soon as one of its elements does not satisfy `p`.
-/

namespace Xllm.Lib

open List

universe u

variable {α : Type u} (p : α → Bool)

def trim (xs : List α) : List α := (xs.dropWhile p).rdropWhile p

theorem rdropWhile_append_of_all {ys : List α} (h : ∀ y ∈ ys, p y = true) (xs : List α) :
    (xs ++ ys).rdropWhile p = xs.rdropWhile p := by
  rw [List.rdropWhile, List.rdropWhile, reverse_append,
    dropWhile_append_of_pos fun y hy => h y (mem_reverse.mp hy)]

theorem rdropWhile_prefix_append (xs ys : List α) :
    xs.rdropWhile p <+: (xs ++ ys).rdropWhile p := by
  induction ys using List.reverseRecOn with
  | nil =>
    rewrite [append_nil]
    exact prefix_rfl
  | append_singleton ys y ih =>
    rw [← List.append_assoc]
    by_cases hy : p y = true
    · rw [rdropWhile_concat_pos p _ _ hy]
      exact ih
    · rw [rdropWhile_concat_neg p _ _ hy, List.append_assoc]
      exact (List.rdropWhile_prefix p xs).trans (prefix_append xs _)

theorem filter_trim (xs : List α) :
    (trim p xs).filter (fun x => !p x) = xs.filter fun x => !p x := by
  have drop : ∀ xs : List α, (xs.dropWhile p).filter (fun x => !p x) = xs.filter fun x => !p x := by
    intro xs
    induction xs with
    | nil => rfl
    | cons x xs ih =>
      by_cases hx : p x = true
      · rw [dropWhile_cons_of_pos hx, ih, filter_cons_of_neg (by simp [hx])]
      · rw [dropWhile_cons_of_neg hx]
  rw [trim, List.rdropWhile, filter_reverse, drop, filter_reverse, reverse_reverse,
    drop]

theorem trim_append_eq_iff (xs ys : List α) :
    trim p xs = trim p (xs ++ ys) ↔ ∀ y ∈ ys, p y = true := by
  constructor
  · intro h y hy
    have hfilter := congrArg (fun l : List α => (l.filter fun x => !p x).length) h
    simp only [filter_trim, filter_append, length_append] at hfilter
    have hnone : ys.filter (fun x => !p x) = [] := length_eq_zero_iff.mp (by omega)
    by_contra hy'
    have hmem : y ∈ ys.filter fun x => !p x := mem_filter.mpr ⟨hy, by simpa using hy'⟩
    rw [hnone] at hmem
    exact nomatch hmem
  · intro h
    by_cases hxs : ∀ x ∈ xs, p x = true
    · -- both lists are dropped as a whole
      have hall : ∀ z ∈ xs ++ ys, p z = true := by
        intro z hz
        rcases mem_append.mp hz with hz | hz
        · exact hxs z hz
        · exact h z hz
      rw [trim, trim, dropWhile_eq_nil_iff.mpr hxs, dropWhile_eq_nil_iff.mpr hall]
    · have hne : (xs.dropWhile p).isEmpty = false := by
        rw [isEmpty_eq_false_iff]
        exact fun hnil => hxs (dropWhile_eq_nil_iff.mp hnil)
      rw [trim, trim, dropWhile_append, hne, if_neg Bool.false_ne_true,
        rdropWhile_append_of_all p h]

end Xllm.Lib
