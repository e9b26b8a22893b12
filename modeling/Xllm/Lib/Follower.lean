import Mathlib.Data.List.Infix
import Mathlib.Data.Nat.Find

/-!
# Following a marker with one index

A follower reads a text element by element and keeps one number, how much of a marker it has just
seen. On an element that does not go on it tries the first one of the marker again, and nothing else.
What it sees is there (`followFrom_spec`). It sees the marker in every text that has it exactly when
the marker, wherever it begins again inside itself, goes on so to its end (`Restarts`):
`followFrom_eq_none_iff` and `exists_missed`.
-/

namespace Xllm.Lib

open List

universe u

variable {α : Type u}

variable [DecidableEq α]

/-- Where a follower is in the marker behind one more element: it goes on, and where it cannot it
tries the beginning of the marker once more. -/
def follow (marker : List α) (k : Nat) (a : α) : Nat :=
  if marker[k]? = some a then k + 1 else if marker.head? = some a then 1 else 0

/-- Where a follower is behind a text, or `none` once it has seen the marker. -/
def followFrom (marker : List α) (k : Nat) (text : List α) : Option Nat :=
  text.foldlM (fun k a =>
    if follow marker k a = marker.length then none else some (follow marker k a)) k

/-- Where the marker begins again inside itself, it does so to its end. -/
def Restarts (marker : List α) : Prop :=
  ∀ j, marker[j + 1]? = marker.head? → marker.drop (j + 1) <+: marker

/-- The index of a follower that has missed nothing. -/
structure Follows (marker text : List α) (k : Nat) : Prop where
  lt : k < marker.length
  isSuffix : marker.take k <:+ text
  longest : ∀ o < marker.length, marker.take o <:+ text → o ≤ k
  absent : ¬ marker <:+: text

variable {marker text : List α} {k : Nat} {a : α}

theorem follow_le (marker : List α) (k : Nat) (a : α) : follow marker k a ≤ k + 1 := by
  unfold follow
  split
  · exact Nat.le_refl _
  · split <;> omega

omit [DecidableEq α] in
theorem take_succ_of_getElem? (h : marker[k]? = some a) :
    marker.take (k + 1) = marker.take k ++ [a] := by
  rw [take_add_one, h, Option.toList_some]

theorem follow_isSuffix (h : marker.take k <:+ text) :
    marker.take (follow marker k a) <:+ text ++ [a] := by
  unfold follow
  split
  · next hnext =>
    rw [take_succ_of_getElem? hnext]
    exact (suffix_append_inj_of_length_eq rfl).mpr ⟨h, rfl⟩
  · split
    · next hfirst =>
      rw [head?_eq_getElem?] at hfirst
      rw [take_succ_of_getElem? hfirst]
      exact suffix_append _ _
    · exact nil_suffix

theorem follow_longest (hmarker : Restarts marker) (h : Follows marker text k) {o : Nat}
    (ho : o ≤ marker.length) (hsuffix : marker.take o <:+ text ++ [a]) : o ≤ follow marker k a := by
  cases o with
  | zero => exact Nat.zero_le _
  | succ o =>
    have hget := getElem?_eq_getElem ho
    rw [take_succ_of_getElem? hget] at hsuffix
    obtain ⟨hsuffix, hlast⟩ := (suffix_append_inj_of_length_eq (by rfl)).mp hsuffix
    rw [singleton_inj.mp hlast] at hget
    have hle := h.longest o ho hsuffix
    unfold follow
    by_cases hnext : marker[k]? = some a
    · rw [if_pos hnext]
      exact Nat.succ_le_succ hle
    rw [if_neg hnext]
    have hlt : o < k := lt_of_le_of_ne hle fun heq => hnext (heq ▸ hget)
    cases o with
    | zero =>
      rw [head?_eq_getElem?, if_pos hget]
    | succ o =>
      -- the marker begins again `k - (o + 1)` elements on, and so goes on with the same element
      obtain ⟨front, hfront⟩ : marker.take (o + 1) <:+ marker.take k :=
        suffix_of_suffix_length_le hsuffix h.isSuffix (by rw [length_take, length_take]; omega)
      have hlength := congrArg length hfront
      rw [length_append, length_take, length_take, min_eq_left (by omega),
        min_eq_left h.lt.le] at hlength
      obtain ⟨j, hj⟩ : ∃ j, front.length = j + 1 := ⟨front.length - 1, by omega⟩
      have hagain : marker[j + 1]? = marker.head? := by
        rw [← getElem?_take_of_lt (show j + 1 < k by omega), ← hfront, ← hj,
          getElem?_append_right le_rfl, Nat.sub_self, getElem?_take_of_lt (by omega),
          head?_eq_getElem?]
      have hrest := prefix_iff_eq_take.mp (hmarker j hagain)
      refine absurd ?_ hnext
      rw [← hget, ← getElem?_take_of_lt (show o + 1 < (marker.drop (j + 1)).length by
        have := h.lt
        rw [length_drop]
        omega), ← hrest, getElem?_drop]
      congr 1
      omega

theorem followFrom_concat (k : Nat) : followFrom marker k (text ++ [a]) =
    (followFrom marker k text).bind fun k =>
      if follow marker k a = marker.length then none else some (follow marker k a) := by
  unfold followFrom
  rw [foldlM_append]
  simp only [foldlM_cons, foldlM_nil, bind_pure]
  rfl

/-- A follower that has not seen the marker is at a beginning of it that the text ends with. -/
theorem followFrom_spec (h : marker ≠ []) (text : List α) :
    match followFrom marker 0 text with
    | none => marker <:+: text
    | some k => k < marker.length ∧ marker.take k <:+ text := by
  induction text using reverseRecOn with
  | nil => exact ⟨length_pos_iff.mpr h, nil_suffix⟩
  | append_singleton text a ih =>
    rw [followFrom_concat]
    cases hk : followFrom marker 0 text with
    | none =>
      rw [hk] at ih
      exact infix_concat_iff.mpr (.inr ih)
    | some k =>
      rw [hk] at ih
      obtain ⟨hlt, hsuffix⟩ := ih
      have hstep := follow_isSuffix hsuffix (a := a)
      rw [Option.bind_some]
      by_cases hend : follow marker k a = marker.length
      · rw [if_pos hend]
        rw [hend, take_length] at hstep
        exact hstep.isInfix
      · rw [if_neg hend]
        have := follow_le marker k a
        exact ⟨by omega, hstep⟩

theorem Follows.concat (hmarker : Restarts marker) (h : Follows marker text k)
    (hend : follow marker k a ≠ marker.length) :
    Follows marker (text ++ [a]) (follow marker k a) := by
  have hlt : follow marker k a < marker.length := by
    have := follow_le marker k a
    have := h.lt
    omega
  refine ⟨hlt, follow_isSuffix h.isSuffix, fun o ho => follow_longest hmarker h ho.le, ?_⟩
  intro hinfix
  rcases infix_concat_iff.mp hinfix with hsuffix | hinfix
  · have := follow_longest hmarker h le_rfl (by rwa [take_length])
    omega
  · exact h.absent hinfix

/-- A marker that only restarts to its end is seen wherever it is. -/
theorem followFrom_eq_none_iff (h : marker ≠ []) (hmarker : Restarts marker) (text : List α) :
    followFrom marker 0 text = none ↔ marker <:+: text := by
  constructor
  · intro hnone
    have := followFrom_spec h text
    rwa [hnone] at this
  intro hinfix
  have hall : followFrom marker 0 text = none ∨
      ∃ k, followFrom marker 0 text = some k ∧ Follows marker text k := by
    clear hinfix
    induction text using reverseRecOn with
    | nil =>
      refine .inr ⟨0, rfl, length_pos_iff.mpr h, nil_suffix, fun o ho hsuffix => ?_, ?_⟩
      · have := hsuffix.length_le
        rw [length_take, length_nil] at this
        omega
      · rw [infix_nil]
        exact h
    | append_singleton text a ih =>
      rw [followFrom_concat]
      obtain hnone | ⟨k, hk, hfollows⟩ := ih
      · rw [hnone]
        exact .inl rfl
      · rw [hk, Option.bind_some]
        by_cases hend : follow marker k a = marker.length
        · exact .inl (if_pos hend)
        · exact .inr ⟨_, if_neg hend, hfollows.concat hmarker hend⟩
  obtain hnone | ⟨k, -, hfollows⟩ := hall
  · exact hnone
  · exact absurd hinfix hfollows.absent

theorem followFrom_take (h : k < marker.length) :
    followFrom marker 0 (marker.take k) = some k := by
  induction k with
  | zero => rfl
  | succ k ih =>
    have hget := getElem?_eq_getElem (Nat.lt_of_succ_lt h)
    rw [take_succ_of_getElem? hget, followFrom_concat, ih (Nat.lt_of_succ_lt h), Option.bind_some]
    unfold follow
    rw [if_pos hget, if_neg h.ne]

/-- The marker is not seen before there was room for it. -/
theorem followFrom_ne_none (h : k + text.length < marker.length) :
    followFrom marker k text ≠ none := by
  induction text generalizing k with
  | nil => exact nofun
  | cons a text ih =>
    rw [length_cons] at h
    have hle := follow_le marker k a
    unfold followFrom
    rw [foldlM_cons, if_neg (by omega)]
    exact ih (by omega)

/-- A marker that begins again inside itself and goes on differently is missed in some text. -/
theorem exists_missed (h : ¬ Restarts marker) : ∃ text : List α, (∀ a ∈ text, a ∈ marker) ∧
    marker <:+: text ∧ followFrom marker 0 text ≠ none := by
  unfold Restarts at h
  push Not at h
  obtain ⟨j, hagain, hdiffers⟩ := h
  -- the first place where the two differ
  have hplace : ∃ i, j + 1 + i < marker.length ∧ marker[j + 1 + i]? ≠ marker[i]? := by
    by_contra hsame
    push Not at hsame
    refine hdiffers (prefix_iff_eq_take.mpr (ext_getElem? fun i => ?_))
    by_cases hi : j + 1 + i < marker.length
    · rw [getElem?_drop, hsame i hi, getElem?_take_of_lt (by rw [length_drop]; omega)]
    · rw [getElem?_eq_none (by rw [length_drop]; omega),
        getElem?_eq_none (by rw [length_take, length_drop]; omega)]
  classical
  obtain ⟨hi, hne⟩ := Nat.find_spec hplace
  have hbefore := fun i => @Nat.find_min _ _ hplace i
  generalize Nat.find hplace = i at hi hne hbefore
  have hpos : i ≠ 0 := by
    rintro rfl
    exact hne (hagain.trans head?_eq_getElem?)
  have hcommon : marker.take (j + 1) ++ marker.take i = marker.take (j + 1 + i) := by
    rw [take_add (i := j + 1) (j := i)]
    congr 1
    refine ext_getElem? fun o => ?_
    by_cases ho : o < i
    · have := hbefore o ho
      push Not at this
      rw [getElem?_take_of_lt ho, getElem?_take_of_lt ho, getElem?_drop, this (by omega)]
    · rw [getElem?_eq_none (by rw [length_take]; omega),
        getElem?_eq_none (by rw [length_take]; omega)]
  have hsplit : marker.take (j + 1) ++ marker = marker.take (j + 1 + i) ++ marker.drop i := by
    rw [← hcommon, append_assoc, take_append_drop]
  refine ⟨marker.take (j + 1) ++ marker, ?_, (suffix_append _ _).isInfix, ?_⟩
  · intro a ha
    exact (mem_append.mp ha).elim mem_of_mem_take id
  · rw [hsplit]
    unfold followFrom
    rw [foldlM_append]
    change (followFrom marker 0 _).bind (fun k => followFrom marker k (marker.drop i)) ≠ none
    rw [followFrom_take hi, Option.bind_some]
    have hget := getElem?_eq_getElem (show i < marker.length by omega)
    rw [drop_eq_getElem_cons (by omega)]
    unfold followFrom
    rw [foldlM_cons]
    have hmiss : follow marker (j + 1 + i) marker[i] ≤ 1 := by
      unfold follow
      rw [if_neg (hget ▸ hne)]
      split <;> omega
    rw [if_neg (by omega)]
    exact followFrom_ne_none (by rw [length_drop]; omega)

end Xllm.Lib
