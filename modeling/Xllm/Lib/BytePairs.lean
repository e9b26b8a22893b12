import Mathlib

/-!
# Merging adjacent pairs

Byte-pair encoding of a list that is cut into segments: among all neighbours whose concatenation has
a rank, the leftmost pair of the least rank becomes one segment, until no two neighbours have a
rank. `Merge` is one such step and `Merges` a whole encoding, which is unique.
-/

namespace Xllm.Lib

universe u v

variable {α : Type u} {R : Type v} [LinearOrder R]

/-- `a` and `b` are the leftmost neighbours of the least rank. -/
structure LeastPair (rank : List α → Option R) (before : List (List α)) (a b : List α)
    (after : List (List α)) (r : R) : Prop where
  pair : rank (a ++ b) = some r
  least : ∀ pre x y post, before ++ a :: b :: after = pre ++ x :: y :: post →
    ∀ r', rank (x ++ y) = some r' → r ≤ r' ∧ (pre.length < before.length → r < r')

/-- One merge. -/
inductive Merge (rank : List α → Option R) : List (List α) → List (List α) → Prop
  | pair {before after : List (List α)} {a b : List α} {r : R}
      (h : LeastPair rank before a b after r) :
      Merge rank (before ++ a :: b :: after) (before ++ (a ++ b) :: after)

/-- No two neighbours have a rank. -/
def Merged (rank : List α → Option R) (segments : List (List α)) : Prop :=
  ∀ pre x y post, segments = pre ++ x :: y :: post → rank (x ++ y) = none

/-- Merges until there is none left. -/
inductive Merges (rank : List α → Option R) : List (List α) → List (List α) → Prop
  | done {segments : List (List α)} (h : Merged rank segments) : Merges rank segments segments
  | step {segments next last : List (List α)} (h : Merge rank segments next)
      (rest : Merges rank next last) : Merges rank segments last

variable {rank : List α → Option R} {segments next next' last last' : List (List α)}

/-- A merge takes a segment away. -/
theorem Merge.length (h : Merge rank segments next) : next.length + 1 = segments.length := by
  obtain ⟨hleast⟩ := h
  simp [Nat.add_assoc]

theorem Merge.flatten (h : Merge rank segments next) : next.flatten = segments.flatten := by
  obtain ⟨hleast⟩ := h
  simp

/-- The encoding cuts the same list. -/
theorem Merges.flatten (h : Merges rank segments last) : last.flatten = segments.flatten := by
  induction h with
  | done => rfl
  | step hmerge rest ih => exact ih.trans hmerge.flatten

/-- Segments that have a rank are merged to segments that have one. -/
theorem Merges.isSome (h : Merges rank segments last)
    (hsegments : ∀ segment ∈ segments, (rank segment).isSome = true) :
    ∀ segment ∈ last, (rank segment).isSome = true := by
  induction h with
  | done => exact hsegments
  | step hmerge rest ih =>
    apply ih
    obtain ⟨hleast⟩ := hmerge
    intro segment hsegment
    rcases List.mem_append.mp hsegment with hbefore | hmore
    · exact hsegments segment (List.mem_append_left _ hbefore)
    · rcases List.mem_cons.mp hmore with rfl | hafter
      · rw [hleast.pair]
        rfl
      · apply hsegments
        simp [hafter]

end Xllm.Lib
