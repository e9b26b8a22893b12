import Mathlib.Data.List.Infix

/-!
# Searching a text that arrives in pieces

`find` is the first place a pattern occurs in a text, and `findFrom` the first one at or after an
offset. When the text is still growing three questions arise, and each has a rule here.

* Does an occurrence that was found move? No: `find_append`.
* May a searcher skip what it has searched? Yes, up to the last `pattern.length - 1` elements,
  which may be the beginning of an occurrence: `Occurs.lt_of_append` and `findFrom_eq_find`.
* What of the text may already be given away? All but its `overlap` with the pattern, its longest
  suffix that an occurrence could begin with: `find_append_overlap` finds in the retained suffix
  what `find` finds in the whole, and `overlap_append` retains the same suffix again.
-/

namespace Xllm.Lib

open List

universe u

variable {α : Type u}

/-! ## Occurrences -/

/-- `pattern` occurs in `text` at `i`. -/
def Occurs (pattern text : List α) (i : Nat) : Prop :=
  pattern <+: text.drop i

namespace Occurs

variable {pattern text : List α} {i : Nat}

theorem drop_iff {k : Nat} : Occurs pattern (text.drop k) i ↔ Occurs pattern text (k + i) := by
  rw [Occurs, Occurs, drop_drop]

theorem add_length_le (h : Occurs pattern text i) (hp : pattern ≠ []) :
    i + pattern.length ≤ text.length := by
  have hpos : 0 < pattern.length := length_pos_iff.mpr hp
  have hle := h.length_le
  rw [length_drop] at hle
  omega

theorem append (h : Occurs pattern text i) (more : List α) : Occurs pattern (text ++ more) i := by
  refine h.trans ?_
  rw [drop_append]
  exact prefix_append _ _

/-- An occurrence that ends before the new part was there before it came. -/
theorem of_append {more : List α} (h : Occurs pattern (text ++ more) i)
    (hle : i + pattern.length ≤ text.length) : Occurs pattern text i := by
  have hi : i ≤ text.length := by omega
  rw [Occurs, drop_append_of_le_length hi] at h
  refine prefix_of_prefix_length_le h (prefix_append _ _) ?_
  rw [length_drop]
  omega

/-- Where nothing occurs yet, an occurrence that more text completes reaches into that text. -/
theorem lt_of_append {more : List α} (h : Occurs pattern (text ++ more) i)
    (hnone : ∀ j, ¬ Occurs pattern text j) : text.length < i + pattern.length := by
  by_contra hle
  exact hnone i (h.of_append (by omega))

end Occurs

/-! ## The first occurrence -/

section Find

variable [DecidableEq α]

/-- The first place where `pattern` occurs in the text. -/
def find (pattern : List α) : List α → Option Nat
  | [] => if pattern <+: [] then some 0 else none
  | a :: text => if pattern <+: a :: text then some 0 else (find pattern text).map (· + 1)

/-- The first place at or after `start` where `pattern` occurs in `text`. -/
def findFrom (pattern text : List α) (start : Nat) : Option Nat :=
  if start ≤ text.length then (find pattern (text.drop start)).map (· + start) else none

variable {pattern text : List α}

theorem find_some {k : Nat} (h : find pattern text = some k) :
    Occurs pattern text k ∧ ∀ j < k, ¬ Occurs pattern text j := by
  induction text generalizing k with
  | nil =>
    rw [find] at h
    split at h
    · rename_i hp
      cases h
      exact ⟨hp, fun j hj => absurd hj (by omega)⟩
    · cases h
  | cons a text ih =>
    rw [find] at h
    split at h
    · rename_i hp
      cases h
      exact ⟨hp, fun j hj => absurd hj (by omega)⟩
    · rename_i hp
      obtain ⟨k', hk', rfl⟩ := Option.map_eq_some_iff.mp h
      obtain ⟨hocc, hfirst⟩ := ih hk'
      refine ⟨hocc, fun j hj => ?_⟩
      cases j with
      | zero => exact hp
      | succ j => exact hfirst j (by omega)

theorem find_none (h : find pattern text = none) (j : Nat) (hj : j ≤ text.length) :
    ¬ Occurs pattern text j := by
  induction text generalizing j with
  | nil =>
    rw [find] at h
    split at h
    · cases h
    · rwa [Occurs, drop_nil]
  | cons a text ih =>
    rw [find] at h
    split at h
    · cases h
    · rename_i hp
      cases j with
      | zero => exact hp
      | succ j =>
        exact ih (Option.map_eq_none_iff.mp h) j (by simpa using hj)

/-- `find` is characterised by its occurrence and the absence of an earlier one. -/
theorem find_eq_some {k : Nat} (hk : k ≤ text.length) (hocc : Occurs pattern text k)
    (hfirst : ∀ j < k, ¬ Occurs pattern text j) : find pattern text = some k := by
  cases hf : find pattern text with
  | none => exact absurd hocc (find_none hf k hk)
  | some k' =>
    obtain ⟨hocc', hfirst'⟩ := find_some hf
    rcases Nat.lt_trichotomy k k' with hlt | heq | hgt
    · exact absurd hocc (hfirst' k hlt)
    · rw [heq]
    · exact absurd hocc' (hfirst k' hgt)

theorem find_eq_none (h : ∀ j, ¬ Occurs pattern text j) : find pattern text = none := by
  cases hf : find pattern text with
  | none => rfl
  | some k => exact absurd (find_some hf).1 (h k)

section Nonempty

variable (hp : pattern ≠ [])
include hp

theorem find_none_iff : find pattern text = none ↔ ∀ j, ¬ Occurs pattern text j := by
  refine ⟨fun h j hocc => ?_, find_eq_none⟩
  have := hocc.add_length_le hp
  exact find_none h j (by omega) hocc

theorem find_add_length_le {k : Nat} (h : find pattern text = some k) :
    k + pattern.length ≤ text.length :=
  (find_some h).1.add_length_le hp

/-- What was found stays found as the text grows. -/
theorem find_append {k : Nat} (h : find pattern text = some k) (more : List α) :
    find pattern (text ++ more) = some k := by
  obtain ⟨hocc, hfirst⟩ := find_some h
  have hle := hocc.add_length_le hp
  refine find_eq_some ?_ (hocc.append more) (fun j hj hj' => ?_)
  · rw [length_append]
    omega
  · exact hfirst j hj (hj'.of_append (by omega))

/-- A search that starts at an offset finds the first occurrence of all when nothing occurs before
the offset. -/
theorem findFrom_eq_find {start : Nat} (hstart : start ≤ text.length)
    (h : ∀ j < start, ¬ Occurs pattern text j) :
    findFrom pattern text start = find pattern text := by
  rw [findFrom, if_pos hstart]
  cases hf : find pattern (text.drop start) with
  | none =>
    symm
    rw [Option.map_none, find_none_iff hp]
    intro j hocc
    rcases Nat.lt_or_ge j start with hj | hj
    · exact h j hj hocc
    · refine (find_none_iff hp).mp hf (j - start) (Occurs.drop_iff.mpr ?_)
      rwa [Nat.add_sub_cancel' hj]
  | some k =>
    symm
    have hle := find_add_length_le hp hf
    rw [length_drop] at hle
    obtain ⟨hocc, hfirst⟩ := find_some hf
    rw [Option.map_some]
    refine find_eq_some (by omega) ?_ (fun j hj hocc' => ?_)
    · rw [Nat.add_comm]
      exact Occurs.drop_iff.mp hocc
    · rcases Nat.lt_or_ge j start with hj' | hj'
      · exact h j hj' hocc'
      · refine hfirst (j - start) (by omega) (Occurs.drop_iff.mpr ?_)
        rwa [Nat.add_sub_cancel' hj']

theorem findFrom_append {start k : Nat} (h : findFrom pattern text start = some k)
    (more : List α) : findFrom pattern (text ++ more) start = some k := by
  rw [findFrom] at h
  split at h
  · rename_i hstart
    obtain ⟨k', hk', rfl⟩ := Option.map_eq_some_iff.mp h
    rw [findFrom, if_pos (by rw [length_append]; omega),
      drop_append_of_le_length hstart, find_append hp hk', Option.map_some]
  · cases h

theorem findFrom_add_length_le {start k : Nat} (h : findFrom pattern text start = some k) :
    k + pattern.length ≤ text.length := by
  rw [findFrom] at h
  split at h
  · obtain ⟨k', hk', rfl⟩ := Option.map_eq_some_iff.mp h
    have := find_add_length_le hp hk'
    rw [length_drop] at this
    omega
  · cases h

end Nonempty

theorem findFrom_le {start k : Nat} (h : findFrom pattern text start = some k) : start ≤ k := by
  rw [findFrom] at h
  split at h
  · obtain ⟨k', -, rfl⟩ := Option.map_eq_some_iff.mp h
    exact Nat.le_add_left _ _
  · cases h

end Find

/-! ## The suffix that an occurrence could begin with -/

section Overlap

variable [DecidableEq α]

/-- The longest suffix of `text` of at most the given length that `marker` begins with. -/
def overlapUpTo (text marker : List α) : Nat → Nat
  | 0 => 0
  | o + 1 =>
    if text.drop (text.length - (o + 1)) = marker.take (o + 1) then o + 1
    else overlapUpTo text marker o

/-- The length of the longest suffix of `text` that is a proper beginning of `marker`. -/
def overlap (text marker : List α) : Nat :=
  overlapUpTo text marker (min text.length (marker.length - 1))

variable {text marker : List α}

theorem overlapUpTo_le (bound : Nat) : overlapUpTo text marker bound ≤ bound := by
  induction bound with
  | zero => exact Nat.le_refl 0
  | succ o ih =>
    rw [overlapUpTo]
    split
    · exact Nat.le_refl _
    · omega

theorem overlapUpTo_eq (bound : Nat) :
    text.drop (text.length - overlapUpTo text marker bound) =
      marker.take (overlapUpTo text marker bound) := by
  induction bound with
  | zero => simp [overlapUpTo]
  | succ o ih =>
    rw [overlapUpTo]
    split
    · assumption
    · exact ih

theorem le_overlapUpTo {bound o : Nat} (ho : o ≤ bound)
    (h : text.drop (text.length - o) = marker.take o) : o ≤ overlapUpTo text marker bound := by
  induction bound with
  | zero => omega
  | succ b ih =>
    rw [overlapUpTo]
    split
    · exact ho
    · rename_i hne
      rcases Nat.lt_or_ge b o with hb | hb
      · obtain rfl : o = b + 1 := by omega
        exact absurd h hne
      · exact ih hb

theorem overlap_le_length : overlap text marker ≤ text.length :=
  le_trans (overlapUpTo_le _) (Nat.min_le_left _ _)

theorem overlap_lt (hm : marker ≠ []) : overlap text marker < marker.length := by
  have hpos : 0 < marker.length := length_pos_iff.mpr hm
  have : overlap text marker ≤ marker.length - 1 :=
    le_trans (overlapUpTo_le _) (Nat.min_le_right _ _)
  omega

theorem overlap_eq : text.drop (text.length - overlap text marker) =
    marker.take (overlap text marker) :=
  overlapUpTo_eq _

/-- Every suffix that could begin an occurrence lies inside the overlap. -/
theorem le_overlap {o : Nat} (ht : o ≤ text.length) (hm : o < marker.length)
    (h : text.drop (text.length - o) = marker.take o) : o ≤ overlap text marker :=
  le_overlapUpTo (by omega) h

/-- While nothing occurs, an occurrence that more text completes begins inside the overlap. -/
theorem Occurs.sub_overlap_le {more : List α} {i : Nat} (h : Occurs marker (text ++ more) i)
    (hnone : ∀ j, ¬ Occurs marker text j) : text.length - overlap text marker ≤ i := by
  rcases Nat.lt_or_ge i text.length with hi | hi
  · have hend := h.lt_of_append hnone
    rw [Occurs, drop_append_of_le_length (by omega)] at h
    -- the part of the occurrence that is already there is a proper beginning of the marker
    have hbegin : text.drop i = marker.take (text.length - i) := by
      have hpre : text.drop i <+: marker := by
        refine prefix_of_prefix_length_le (prefix_append _ more) h ?_
        rw [length_drop]
        omega
      have := prefix_iff_eq_take.mp hpre
      rwa [length_drop] at this
    have hle : text.length - i ≤ overlap text marker := by
      refine le_overlap (by omega) (by omega) ?_
      rw [← hbegin]
      congr 1
      omega
    omega
  · omega

/-- The suffix of `text` that has to be kept while more text is to come. -/
def retained (text marker : List α) : List α :=
  text.drop (text.length - overlap text marker)

theorem retained_length : (retained text marker).length = overlap text marker := by
  have := @overlap_le_length _ _ text marker
  rw [retained, length_drop]
  omega

/-- A suffix that reaches no further back than the overlap is a suffix of what is retained. -/
theorem drop_retained_append (more : List α) {o : Nat}
    (ho : o ≤ overlap text marker + more.length) :
    (retained text marker ++ more).drop ((retained text marker ++ more).length - o) =
      (text ++ more).drop ((text ++ more).length - o) := by
  have hret := @retained_length _ _ text marker
  have hle := @overlap_le_length _ _ text marker
  rw [length_append, length_append, hret, retained,
    ← drop_append_of_le_length (by omega), drop_drop]
  congr 1
  omega

theorem overlap_retained_append_le (hm : marker ≠ []) (more : List α) :
    overlap (retained text marker ++ more) marker ≤ overlap (text ++ more) marker := by
  have hret := @retained_length _ _ text marker
  have hle := @overlap_le_length _ _ text marker
  have hlen := @overlap_le_length _ _ (retained text marker ++ more) marker
  rw [length_append, hret] at hlen
  refine le_overlap (by rw [length_append]; omega) (overlap_lt hm) ?_
  rw [← drop_retained_append more hlen]
  exact overlap_eq

/-- Keeping the overlap and reading on, the overlap is the one of the whole text. -/
theorem overlap_append (hm : marker ≠ []) (more : List α) :
    overlap (text ++ more) marker = overlap (retained text marker ++ more) marker := by
  refine Nat.le_antisymm ?_ (overlap_retained_append_le hm more)
  have hlen := @overlap_le_length _ _ (text ++ more) marker
  have hlt := @overlap_lt _ _ (text ++ more) marker hm
  have heq := @overlap_eq _ _ (text ++ more) marker
  generalize overlap (text ++ more) marker = o at hlen hlt heq
  rw [length_append] at hlen
  have hret := @retained_length _ _ text marker
  -- the part of the suffix that lies in `text` is a beginning of the marker too
  have hkeep : o ≤ overlap text marker + more.length := by
    rcases Nat.lt_or_ge more.length o with ho | ho
    · have hpart : o - more.length ≤ overlap text marker := by
        refine le_overlap (by omega) (by omega) ?_
        have := congrArg (List.take (o - more.length)) heq
        rw [take_take, Nat.min_eq_left (by omega)] at this
        rw [← this, length_append, drop_append_of_le_length (by omega),
          take_append_of_le_length (by rw [length_drop]; omega),
          take_of_length_le (by rw [length_drop]; omega)]
        congr 1
        omega
      omega
    · omega
  refine le_overlap (by rw [length_append, hret]; omega) hlt ?_
  rw [drop_retained_append more hkeep]
  exact heq

/-- Keeping the overlap and reading on, the same occurrence is found. -/
theorem find_append_overlap (hm : marker ≠ []) (hnone : find marker text = none) (more : List α) :
    find marker (text ++ more) = (find marker (retained text marker ++ more)).map
      (· + (text.length - overlap text marker)) := by
  have hstart : text.length - overlap text marker ≤ (text ++ more).length := by
    rw [length_append]
    omega
  rw [← findFrom_eq_find hm hstart fun j hj hocc => ?_]
  · rw [findFrom, if_pos hstart, drop_append_of_le_length (by omega)]
    rfl
  · have := hocc.sub_overlap_le ((find_none_iff hm).mp hnone)
    omega

end Overlap

end Xllm.Lib
