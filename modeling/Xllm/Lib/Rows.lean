import Mathlib.Data.List.Nodup
import Mathlib.Data.List.Range

/-!
# Row selection and scattered writes

A tensor whose only interesting axis is the first one is a list of rows. Two operations
move rows between layouts, and both refuse an index outside the row range:

* `indexSelect xs is` reads `xs[i]` for every `i` of `is`, in order;
* `indexPut xs is vs` writes `vs[k]` at `is[k]`, one write after the other.

The facts below are the ones a layout proof needs: when the indices are in range the
operation succeeds, and what each row of the result is. For `indexPut` that is only
determined when no index is written twice, so the reading lemma asks for `Nodup`.
-/

namespace Xllm.Lib

open List

universe u

variable {α : Type u}

/-- `xs[i]` for every `i` of `is`; `none` when an index is out of range. -/
def indexSelect (xs : List α) (is : List Nat) : Option (List α) :=
  is.mapM (fun i => xs[i]?)

/-- Write `v` at `i` for every pair of `ws`, in order; `none` on an index out of range. -/
def indexPutPairs (xs : List α) : List (Nat × α) → Option (List α)
  | [] => some xs
  | (i, v) :: ws => if i < xs.length then indexPutPairs (xs.set i v) ws else none

/-- `xs` with `vs[k]` written at `is[k]`; the two lists must be equally long. -/
def indexPut (xs : List α) (is : List Nat) (vs : List α) : Option (List α) :=
  if is.length = vs.length then indexPutPairs xs (is.zip vs) else none

variable {xs : List α} {is : List Nat}

variable {ys : List α}

theorem indexSelect_iff : indexSelect xs is = some ys ↔ is.map (fun i => xs[i]?) = ys.map some := by
  unfold indexSelect
  induction is generalizing ys with
  | nil => cases ys <;> simp
  | cons i is ih =>
    cases ys with
    | nil => simp [Option.bind_eq_some_iff]
    | cons y ys => simp [Option.bind_eq_some_iff, ih]

theorem indexSelect_eq_map {f : Nat → α}
    (h : ∀ i ∈ is, xs[i]? = some (f i)) : indexSelect xs is = some (is.map f) := by
  rw [indexSelect_iff, map_map]
  exact map_congr_left h

/-- Reading `ys[k]` at the `k`-th index for every `k` makes the selection `ys`. -/
theorem indexSelect_eq_of_getElem? (hlen : is.length = ys.length)
    (h : ∀ k < ys.length, ∃ i, is[k]? = some i ∧ xs[i]? = ys[k]?) :
    indexSelect xs is = some ys := by
  refine indexSelect_iff.mpr (ext_getElem? fun k => ?_)
  by_cases hk : k < ys.length
  · obtain ⟨i, hi, hy⟩ := h k hk
    simp [hi, hy, hk]
  · simp [hlen, hk]

/-- What a selection holds: the `k`-th element is the row the `k`-th index names. -/
theorem getElem?_of_indexSelect (h : indexSelect xs is = some ys) :
    is.length = ys.length ∧
      ∀ (k i : Nat) (y : α), is[k]? = some i → ys[k]? = some y → xs[i]? = some y := by
  have hmap := indexSelect_iff.mp h
  refine ⟨by simpa using congrArg List.length hmap, fun k i y hi hy => ?_⟩
  have hk := congrArg (fun l => l[k]?) hmap
  simpa [hi, hy] using hk

theorem mem_of_indexSelect (h : indexSelect xs is = some ys) :
    ∀ y ∈ ys, ∃ i ∈ is, xs[i]? = some y := by
  intro y hy
  have hmem : some y ∈ is.map fun i => xs[i]? := by
    rw [indexSelect_iff.mp h]
    exact mem_map_of_mem hy
  exact mem_map.mp hmem

theorem indexSelect_isSome_iff :
    (indexSelect xs is).isSome ↔ ∀ i ∈ is, i < xs.length := by
  constructor
  · intro h i hi
    obtain ⟨ys, hys⟩ := Option.isSome_iff_exists.mp h
    have hmem : xs[i]? ∈ ys.map some := by
      rw [← indexSelect_iff.mp hys]
      exact mem_map_of_mem hi
    obtain ⟨y, -, hy⟩ := mem_map.mp hmem
    exact (List.getElem?_eq_some_iff.mp hy.symm).1
  · intro h
    induction is with
    | nil => rfl
    | cons i is ih =>
      obtain ⟨ys, hys⟩ := Option.isSome_iff_exists.mp (ih fun j hj => h j (mem_cons_of_mem _ hj))
      unfold indexSelect at hys ⊢
      rw [mapM_cons, List.getElem?_eq_getElem (h i mem_cons_self), hys]
      rfl

variable {ws : List (Nat × α)}

theorem indexPutPairs_cons {w : Nat × α} : indexPutPairs xs (w :: ws) = some ys ↔
    w.1 < xs.length ∧ indexPutPairs (xs.set w.1 w.2) ws = some ys :=
  Option.ite_none_right_eq_some

theorem length_of_indexPutPairs (h : indexPutPairs xs ws = some ys) : ys.length = xs.length := by
  induction ws generalizing xs with
  | nil =>
    cases h
    rfl
  | cons w ws ih => rw [ih (indexPutPairs_cons.mp h).2, length_set]

theorem indexPutPairs_isSome (h : ∀ w ∈ ws, w.1 < xs.length) : (indexPutPairs xs ws).isSome := by
  induction ws generalizing xs with
  | nil => rfl
  | cons w ws ih =>
    have hrest : (indexPutPairs (xs.set w.1 w.2) ws).isSome := ih fun w hw => by
      rw [length_set]
      exact h w (mem_cons_of_mem _ hw)
    obtain ⟨ys, hys⟩ := Option.isSome_iff_exists.mp hrest
    exact Option.isSome_of_eq_some (indexPutPairs_cons.mpr ⟨h w mem_cons_self, hys⟩)

/-- A row no write names keeps its value. -/
theorem getElem?_indexPutPairs_of_not_mem {i : Nat}
    (h : indexPutPairs xs ws = some ys) (hi : i ∉ ws.map Prod.fst) : ys[i]? = xs[i]? := by
  induction ws generalizing xs with
  | nil =>
    cases h
    rfl
  | cons w ws ih =>
    rw [ih (indexPutPairs_cons.mp h).2 fun hm => hi (mem_cons_of_mem _ hm)]
    have hwi : w.1 ≠ i := fun e => hi (by rw [← e]; exact mem_cons_self)
    exact List.getElem?_set_ne hwi

/-- With no index written twice, a written row holds what was written there. -/
theorem getElem?_indexPutPairs_of_mem {i : Nat} {v : α}
    (h : indexPutPairs xs ws = some ys) (hn : (ws.map Prod.fst).Nodup) (hm : (i, v) ∈ ws) :
    ys[i]? = some v := by
  induction ws generalizing xs with
  | nil => exact nomatch hm
  | cons w ws ih =>
    rw [map_cons, nodup_cons] at hn
    obtain ⟨hlt, h⟩ := indexPutPairs_cons.mp h
    rcases mem_cons.mp hm with rfl | hm
    · rw [getElem?_indexPutPairs_of_not_mem h hn.1, List.getElem?_set_self hlt]
    · exact ih h hn.2 hm

/-- Writes that do not change what `f` sees of a row leave the `f`-image of the list alone. -/
theorem indexPutPairs_map {β : Type u} (f : α → β) :
    ∀ {ws : List (Nat × α)} {xs : List α},
      (∀ w ∈ ws, (xs.map f)[w.1]? = some (f w.2)) →
      ∃ ys, indexPutPairs xs ws = some ys ∧ ys.map f = xs.map f := by
  intro ws
  induction ws with
  | nil => intro xs _; exact ⟨xs, rfl, rfl⟩
  | cons w ws ih =>
    obtain ⟨i, v⟩ := w
    intro xs h
    have hi := h (i, v) mem_cons_self
    have hlt : i < xs.length := by simpa using (List.getElem?_eq_some_iff.mp hi).1
    have hsame : (xs.set i v).map f = xs.map f := by
      rw [map_set]
      refine ext_getElem? fun k => ?_
      by_cases hk : i = k
      · subst hk
        rw [List.getElem?_set_self (by simpa using hlt), hi]
      · rw [List.getElem?_set_ne hk]
    obtain ⟨ys, hys, hmap⟩ := @ih (xs.set i v)
      (fun w hw => by rw [hsame]; exact h w (mem_cons_of_mem _ hw))
    exact ⟨ys, indexPutPairs_cons.mpr ⟨hlt, hys⟩, hmap.trans hsame⟩

/-- Writing back to the selected places what `f` cannot tell from the selection. -/
theorem indexPut_map_of_indexSelect {β : Type u} (f : α → β) {zs : List α}
    (h : indexSelect xs is = some ys) (hz : zs.map f = ys.map f) :
    ∃ xs', indexPut xs is zs = some xs' ∧ xs'.map f = xs.map f := by
  obtain ⟨hlen, hget⟩ := getElem?_of_indexSelect h
  have hzlen : zs.length = ys.length := by
    have := congrArg List.length hz
    simpa using this
  have hpairs : ∀ w ∈ is.zip zs, (xs.map f)[w.1]? = some (f w.2) := by
    rintro ⟨i, z⟩ hw
    obtain ⟨k, hk⟩ := mem_iff_getElem?.mp hw
    obtain ⟨hi, hzk⟩ := List.getElem?_zip_eq_some.mp hk
    have hf := congrArg (fun l => l[k]?) hz
    simp only [List.getElem?_map, hzk, Option.map_some] at hf ⊢
    obtain ⟨y, hy, hf⟩ := Option.map_eq_some_iff.mp hf.symm
    rw [hget k i y hi hy, Option.map_some, hf]
  obtain ⟨xs', hput, hmap⟩ := indexPutPairs_map f hpairs
  exact ⟨xs', by unfold indexPut; rw [if_pos (by omega), hput], hmap⟩

/-! ## Concatenating blocks of one length -/

variable {n : Nat}

theorem getElem?_flatten_of_length {r d : Nat} (hd : d < n) :
    ∀ {xss : List (List α)}, (∀ xs ∈ xss, xs.length = n) →
      xss.flatten[r * n + d]? = xss[r]?.bind (fun xs => xs[d]?) := by
  induction r with
  | zero =>
    intro xss h
    cases xss with
    | nil => rfl
    | cons xs xss =>
      have hx : xs.length = n := h xs mem_cons_self
      rw [flatten_cons, Nat.zero_mul, Nat.zero_add,
        List.getElem?_append_left (by omega)]
      rfl
  | succ r ih =>
    intro xss h
    cases xss with
    | nil => rfl
    | cons xs xss =>
      have hx : xs.length = n := h xs mem_cons_self
      have hidx : (r + 1) * n + d = xs.length + (r * n + d) := by rw [hx, Nat.succ_mul]; omega
      rw [flatten_cons, hidx, List.getElem?_append_right (Nat.le_add_right _ _),
        Nat.add_sub_cancel_left, ih fun ys hy => h ys (mem_cons_of_mem _ hy)]
      rfl

theorem length_flatten_of_length {xss : List (List α)} (h : ∀ xs ∈ xss, xs.length = n) :
    xss.flatten.length = xss.length * n := by
  induction xss with
  | nil => simp
  | cons xs xss ih =>
    rw [flatten_cons, length_append, h xs mem_cons_self,
      ih fun ys hy => h ys (mem_cons_of_mem _ hy), length_cons, Nat.succ_mul, Nat.add_comm]

theorem take_drop_flatten_of_length {r : Nat} {xss : List (List α)}
    (h : ∀ xs ∈ xss, xs.length = n) (hr : xss[r]? = some xs) :
    (xss.flatten.drop (r * n)).take n = xs := by
  have hlen : xs.length = n := h xs (mem_of_getElem? hr)
  apply ext_getElem?
  intro d
  rw [List.getElem?_take]
  by_cases hd : d < n
  · rw [if_pos hd, List.getElem?_drop, getElem?_flatten_of_length hd h, hr]
    rfl
  · rw [if_neg hd, List.getElem?_eq_none (by omega)]

end Xllm.Lib
