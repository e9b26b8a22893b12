import Mathlib.Data.List.Range
import Mathlib.Data.List.Count

/-!
# Slices, and rows that belong to the marked positions of a mask

A slice of a tensor along its first dimension, and the assignment to one; negative indices count from
the end. A table with one row for each marked position of a mask is a partial function on positions
(`cell`), and a slice of the table is what the function gives on a range of positions
(`drop_take_rows`).
-/

namespace Xllm.Lib

open List

universe u v

variable {α : Type u} {β : Type v}

/-! ## Slices -/

/-- Where an index of a slice falls in a dimension of this size. -/
def sliceIndex (size : Nat) (i : Int) : Nat := min (if i < 0 then i + size else i).toNat size

def slice (xs : List α) (start stop : Int) : List α :=
  (xs.take (sliceIndex xs.length stop)).drop (sliceIndex xs.length start)

/-- The slice becomes `ys`; one element fills it, and any other number has to fit. -/
def sliceAssign (xs : List α) (start stop : Int) (ys : List α) : Option (List α) :=
  let first := sliceIndex xs.length start
  let last := max first (sliceIndex xs.length stop)
  let put (zs : List α) := some (xs.take first ++ zs ++ xs.drop last)
  if ys.length = last - first then put ys
  else
    match ys with
    | [y] => put (List.replicate (last - first) y)
    | _ => none

variable {i : Nat}

theorem sliceIndex_natCast {size : Nat} (h : i ≤ size) : sliceIndex size i = i := by
  unfold sliceIndex
  rw [if_neg (by simp), Int.toNat_natCast, Nat.min_eq_left h]

variable {xs : List α} {a b : Nat}

theorem slice_natCast (hab : a ≤ b) (hb : b ≤ xs.length) :
    slice xs a b = (xs.take b).drop a := by
  unfold slice
  rw [sliceIndex_natCast hb, sliceIndex_natCast (hab.trans hb)]

variable {ys : List α}

theorem sliceAssign_natCast (hab : a ≤ b) (hb : b ≤ xs.length) (hlen : ys.length = b - a) :
    sliceAssign xs a b ys = some (xs.take a ++ ys ++ xs.drop b) := by
  simp only [sliceAssign, sliceIndex_natCast hb, sliceIndex_natCast (hab.trans hb),
    Nat.max_eq_right hab, if_pos hlen]

theorem sliceAssign_middle {pre mid post : List α} (hab : a ≤ b)
    (hb : b ≤ mid.length) (hlen : ys.length = b - a) (hxs : xs = pre ++ mid ++ post) :
    sliceAssign xs ((pre.length + a : Nat) : Int) ((pre.length + b : Nat) : Int) ys =
      some (pre ++ (mid.take a ++ ys ++ mid.drop b) ++ post) := by
  have htotal : xs.length = pre.length + mid.length + post.length := by
    rw [hxs, length_append, length_append]
  rw [sliceAssign_natCast (by omega) (by omega) (by omega), hxs, List.append_assoc pre,
    take_length_add_append, take_append_of_le_length (hab.trans hb),
    drop_length_add_append, drop_append_of_le_length hb]
  simp only [List.append_assoc]

/-! ## Ranges -/

variable {k n : Nat}

theorem range'_split (hab : a ≤ b) (hb : b ≤ n) :
    List.range' k n =
      List.range' k a ++ List.range' (k + a) (b - a) ++ List.range' (k + b) (n - b) := by
  have hfirst := @List.range'_append_1 k a (b - a)
  have hsecond := @List.range'_append_1 k b (n - b)
  rw [Nat.add_sub_cancel' hab] at hfirst
  rw [Nat.add_sub_cancel' hb] at hsecond
  rw [hfirst, hsecond]

/-- On the image of a range, a slice assignment changes the function. -/
theorem take_append_map_drop (f g : Nat → β) (hab : a ≤ b) (hb : b ≤ n) :
    ((List.range' k n).map f).take a ++ (List.range' (k + a) (b - a)).map g ++
        ((List.range' k n).map f).drop b =
      (List.range' k n).map fun p => if k + a ≤ p ∧ p < k + b then g p else f p := by
  have hlen : (List.range' k a ++ List.range' (k + a) (b - a)).length = b := by
    rw [length_append, length_range', length_range', Nat.add_sub_cancel' hab]
  rw [range'_split hab hb, ← map_take, ← map_drop, List.append_assoc (List.range' k a),
    take_left' (length_range' ..), ← List.append_assoc, drop_left' hlen]
  simp only [map_append]
  congr 1
  · congr 1
    · refine map_congr_left fun p hp => ?_
      rw [List.mem_range'_1] at hp
      rw [if_neg (by omega)]
    · refine map_congr_left fun p hp => ?_
      rw [List.mem_range'_1] at hp
      rw [if_pos (by omega)]
  · refine map_congr_left fun p hp => ?_
    rw [List.mem_range'_1] at hp
    rw [if_neg (by omega)]

theorem filterMap_range' {f : Nat → Option β} (hab : a ≤ b) (hb : b ≤ n)
    (hout : ∀ p, k ≤ p → p < k + n → p < k + a ∨ k + b ≤ p → f p = none) :
    (List.range' k n).filterMap f = (List.range' (k + a) (b - a)).filterMap f := by
  have hleft : (List.range' k a).filterMap f = [] := by
    refine filterMap_eq_nil_iff.mpr fun p hp => ?_
    rw [List.mem_range'_1] at hp
    exact hout p hp.1 (by omega) (Or.inl hp.2)
  have hright : (List.range' (k + b) (n - b)).filterMap f = [] := by
    refine filterMap_eq_nil_iff.mpr fun p hp => ?_
    rw [List.mem_range'_1] at hp
    exact hout p (by omega) (by omega) (Or.inr hp.1)
  rw [range'_split hab hb, filterMap_append, filterMap_append, hleft, hright,
    nil_append, append_nil]

/-! ## Rows of marked positions -/

/-- The row of a position: there is one when the position is marked, and the rows stand in the order
of the marked positions. -/
def cell (mask : List Bool) (rows : List α) (i : Nat) : Option α :=
  if mask[i]? = some true then rows[(mask.take i).count true]? else none

theorem count_take_succ (mask : List Bool) (i : Nat) :
    (mask.take (i + 1)).count true =
      (mask.take i).count true + if mask[i]? = some true then 1 else 0 := by
  rw [take_add_one, count_append]
  cases hi : mask[i]? with
  | none => rfl
  | some bit =>
    cases bit with
    | true => rfl
    | false => rfl

theorem count_take_lt {mask : List Bool} (h : mask[i]? = some true) :
    (mask.take i).count true < mask.count true := by
  have hsucc := count_take_succ mask i
  rw [if_pos h] at hsucc
  have hle : (mask.take (i + 1)).count true ≤ mask.count true :=
    (take_sublist _ _).count_le _
  omega

theorem count_take_mono (mask : List Bool) (h : a ≤ b) :
    (mask.take a).count true ≤ (mask.take b).count true :=
  (take_sublist_take_left h).count_le _

variable {mask : List Bool} {rows : List α}

theorem isSome_cell (hrows : rows.length = mask.count true) (i : Nat) :
    (cell mask rows i).isSome = decide (mask[i]? = some true) := by
  unfold cell
  split
  · next h =>
    have hlt := count_take_lt h
    rw [List.getElem?_eq_getElem (hrows ▸ hlt), Option.isSome_some, decide_eq_true h]
  · next h => rw [Option.isSome_none, decide_eq_false h]

theorem map_isSome_cell (hrows : rows.length = mask.count true) (hb : a + n ≤ mask.length) :
    (List.range' a n).map (fun i => (cell mask rows i).isSome) = (mask.take (a + n)).drop a := by
  refine ext_getElem (by simp; omega) fun i hi hi' => ?_
  simp only [getElem_map, getElem_range', getElem_drop, getElem_take,
    isSome_cell hrows, Nat.one_mul]
  rw [length_map, length_range'] at hi
  rw [List.getElem?_eq_getElem (by omega)]
  simp

/-- A slice of the rows, between the ranks of two positions, is the rows of the positions between
them. -/
theorem drop_take_rows (hrows : rows.length = mask.count true) (a n : Nat) :
    (rows.take ((mask.take (a + n)).count true)).drop ((mask.take a).count true) =
      (List.range' a n).filterMap (cell mask rows) := by
  induction n with
  | zero => simp
  | succ n ih =>
    rw [List.range'_concat, filterMap_append, ← ih, Nat.one_mul, ← Nat.add_assoc,
      count_take_succ]
    unfold cell
    split
    · next h =>
      have hlt := count_take_lt h
      have hmono := count_take_mono mask (Nat.le_add_right a n)
      rw [take_add_one, drop_append_of_le_length (by rw [length_take]; omega)]
      simp [h, List.getElem?_eq_getElem (hrows ▸ hlt)]
    · next h => simp [h]

/-! ## Choosing between functions -/

/-- When the positions of one function stand before those of another, the values of both are those of
the first and then those of the other. -/
theorem filterMap_orElse {γ : Type u} {f g : γ → Option β} {r : γ → γ → Prop} {xs : List γ}
    (hsorted : xs.Pairwise r) (hbefore : ∀ x ∈ xs, ∀ y ∈ xs, r x y → (g x).isSome → f y = none)
    (hdisjoint : ∀ x ∈ xs, (g x).isSome → f x = none) :
    xs.filterMap (fun x => (f x).or (g x)) = xs.filterMap f ++ xs.filterMap g := by
  induction xs with
  | nil => rfl
  | cons x xs ih =>
    obtain ⟨hhead, htail⟩ := pairwise_cons.mp hsorted
    have ih := ih htail
      (fun y hy z hz => hbefore y (mem_cons_of_mem x hy) z (mem_cons_of_mem x hz))
      (fun y hy => hdisjoint y (mem_cons_of_mem x hy))
    rw [filterMap_cons, filterMap_cons, filterMap_cons, ih]
    cases hg : g x with
    | none =>
      cases f x with
      | none => rfl
      | some b => rfl
    | some c =>
      have hsome : (g x).isSome := by rw [hg]; rfl
      have hnone : xs.filterMap f = [] := by
        refine filterMap_eq_nil_iff.mpr fun y hy => ?_
        exact hbefore x mem_cons_self y (mem_cons_of_mem x hy) (hhead y hy) hsome
      rw [hdisjoint x mem_cons_self hsome, hnone]
      rfl

end Xllm.Lib
