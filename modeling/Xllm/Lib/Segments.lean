import Mathlib
import Xllm.Lib.Rows

/-!
# Segments laid out one after the other

A loop over the segments of a batch carries the offset at which the next one begins (`withOffsets`).
Unrolled, segment `i` begins at the sum of the widths before it (`offsetOf`), and the loop is the
concatenation of what it does to each segment. A row of a concatenation is found at its segment's
offset, so a selection that goes segment by segment is computed segment by segment.
-/

namespace Xllm.Lib

open List

universe u v w

variable {α : Type u} {β : Type v} {γ : Type w}

/-- A loop over segments that carries the offset of the next one. -/
def withOffsets (width : β → Nat) (body : β → Nat → List γ) : Nat → List β → List γ
  | _, [] => []
  | offset, b :: bs => body b offset ++ withOffsets width body (offset + width b) bs

/-- Where segment `i` begins. -/
def offsetOf (width : β → Nat) (bs : List β) (i : Nat) : Nat := ((bs.take i).map width).sum

section

variable {width : β → Nat} {bs : List β}

@[simp] theorem offsetOf_zero : offsetOf width bs 0 = 0 := rfl

@[simp] theorem offsetOf_cons_succ (b : β) (i : Nat) :
    offsetOf width (b :: bs) (i + 1) = width b + offsetOf width bs i := rfl

variable {i : Nat} {b : β}

theorem offsetOf_add_le (h : bs[i]? = some b) :
    offsetOf width bs i + width b ≤ (bs.map width).sum := by
  induction bs generalizing i with
  | nil => exact nomatch h
  | cons c cs ih =>
    rw [map_cons, sum_cons]
    cases i with
    | zero =>
      cases h
      rw [offsetOf_zero]
      omega
    | succ i =>
      have := ih (i := i) h
      rw [offsetOf_cons_succ]
      omega

variable {δ : Type v}

theorem offsetOf_map (f : δ → β) (ds : List δ) (i : Nat) :
    offsetOf width (ds.map f) i = offsetOf (fun d => width (f d)) ds i := by
  unfold offsetOf
  rw [← map_take, map_map]
  rfl

theorem map_mapIdx {δ : Type w} (f : γ → δ) (value : Nat → β → γ) (bs : List β) :
    (bs.mapIdx value).map f = bs.mapIdx fun i b => f (value i b) :=
  ext_getElem (by simp) fun _ _ _ => by simp

theorem withOffsets_eq (body : β → Nat → List γ) (offset : Nat) :
    withOffsets width body offset bs =
      (bs.mapIdx fun i b => body b (offset + offsetOf width bs i)).flatten := by
  induction bs generalizing offset with
  | nil => rfl
  | cons b bs ih =>
    rw [mapIdx_cons, flatten_cons]
    show body b offset ++ withOffsets width body (offset + width b) bs = _
    rw [ih]
    simp only [offsetOf_zero, offsetOf_cons_succ, Nat.add_zero, Nat.add_assoc]

theorem withOffsets_singleton (value : β → Nat → γ) (offset : Nat) :
    withOffsets width (fun b offset => [value b offset]) offset bs =
      bs.mapIdx fun i b => value b (offset + offsetOf width bs i) := by
  rw [withOffsets_eq, ← map_mapIdx fun c => [c], ← flatMap_def, flatMap_singleton']

theorem withOffsets_range' (offset : Nat) :
    withOffsets width (fun b offset => List.range' offset (width b)) offset bs =
      List.range' offset (bs.map width).sum := by
  induction bs generalizing offset with
  | nil => rfl
  | cons b bs ih =>
    show List.range' offset (width b) ++
      withOffsets width (fun b offset => List.range' offset (width b)) (offset + width b) bs = _
    rw [ih, map_cons, sum_cons, List.range'_append_1]

theorem withOffsets_map (f : δ → β) (body : β → Nat → List γ) (offset : Nat)
    (ds : List δ) : withOffsets width body offset (ds.map f) =
      withOffsets (fun d => width (f d)) (fun d => body (f d)) offset ds := by
  induction ds generalizing offset with
  | nil => rfl
  | cons d ds ih =>
    show body (f d) offset ++ withOffsets width body (offset + width (f d)) (ds.map f) = _
    rw [ih]
    rfl

theorem filter_flatten_mapIdx {key : γ → Nat} {f : Nat → β → List γ} {offset : Nat}
    (hkey : ∀ i b, ∀ c ∈ f i b, key c = offset + i) (bs : List β) (i : Nat) :
    (bs.mapIdx f).flatten.filter (fun c => key c = offset + i) = (bs[i]?.map (f i)).getD [] := by
  induction bs generalizing f offset i with
  | nil => rfl
  | cons b bs ih =>
    rw [mapIdx_cons, flatten_cons, filter_append]
    have hrest : ∀ k, (bs.mapIdx fun i => f (i + 1)).flatten.filter
        (fun c => key c = offset + 1 + k) = (bs[k]?.map (f (k + 1))).getD [] :=
      ih fun k b c hc => by rw [hkey (k + 1) b c hc]; omega
    cases i with
    | zero =>
      have hfirst : (f 0 b).filter (fun c => key c = offset + 0) = f 0 b :=
        filter_eq_self.mpr fun c hc => decide_eq_true (hkey 0 b c hc)
      have hlater : (bs.mapIdx fun i => f (i + 1)).flatten.filter
          (fun c => key c = offset + 0) = [] := by
        refine filter_eq_nil_iff.mpr fun c hc => ?_
        obtain ⟨row, hrow, hc⟩ := mem_flatten.mp hc
        obtain ⟨k, hk, rfl⟩ := mem_mapIdx.mp hrow
        have := hkey (k + 1) _ c hc
        simp only [decide_eq_true_eq]
        omega
      rw [hfirst, hlater, append_nil]
      rfl
    | succ i =>
      have hfirst : (f 0 b).filter (fun c => key c = offset + (i + 1)) = [] := by
        refine filter_eq_nil_iff.mpr fun c hc => ?_
        have := hkey 0 b c hc
        simp only [decide_eq_true_eq]
        omega
      have hnext : offset + (i + 1) = offset + 1 + i := by omega
      rw [hfirst, nil_append, hnext, hrest i]
      rfl

variable {rows : Nat → β → List α}

theorem getElem?_flatten_mapIdx {k : Nat}
    (hwidth : ∀ i b, bs[i]? = some b → (rows i b).length = width b) (hi : bs[i]? = some b)
    (hk : k < width b) :
    (bs.mapIdx rows).flatten[offsetOf width bs i + k]? = (rows i b)[k]? := by
  induction bs generalizing i rows with
  | nil => exact nomatch hi
  | cons c cs ih =>
    rw [mapIdx_cons, flatten_cons]
    have hhead : (rows 0 c).length = width c := hwidth 0 c rfl
    cases i with
    | zero =>
      cases hi
      rw [offsetOf_zero, Nat.zero_add, List.getElem?_append_left (by omega)]
    | succ i =>
      rw [offsetOf_cons_succ, List.getElem?_append_right (by omega)]
      have hsub : width c + offsetOf width cs i + k - (rows 0 c).length =
          offsetOf width cs i + k := by omega
      rw [hsub]
      exact ih (fun i b hb => hwidth (i + 1) b hb) hi

/-- The rows from a segment's offset on, as many as it is wide. -/
theorem take_drop_flatten_mapIdx
    (hwidth : ∀ i b, bs[i]? = some b → (rows i b).length = width b) (hi : bs[i]? = some b) :
    ((bs.mapIdx rows).flatten.drop (offsetOf width bs i)).take (width b) = rows i b := by
  apply ext_getElem?
  intro k
  by_cases hk : k < width b
  · rw [List.getElem?_take_of_lt hk, List.getElem?_drop, getElem?_flatten_mapIdx hwidth hi hk]
  · rw [List.getElem?_eq_none (by rw [length_take]; omega),
      List.getElem?_eq_none (by rw [hwidth i b hi]; omega)]

theorem length_flatten_mapIdx (hwidth : ∀ i b, bs[i]? = some b → (rows i b).length = width b) :
    (bs.mapIdx rows).flatten.length = (bs.map width).sum := by
  induction bs generalizing rows with
  | nil => rfl
  | cons c cs ih =>
    rw [mapIdx_cons, flatten_cons, length_append, hwidth 0 c rfl, map_cons,
      sum_cons]
    rw [ih fun i b hb => hwidth (i + 1) b hb]

end

/-! ## Selections by segments -/

section

variable {xs : List α}

variable {ys : List α} {is js : List Nat}

theorem indexSelect_comp {ks : List Nat} (his : indexSelect xs is = some ys)
    (hjs : indexSelect is js = some ks) : indexSelect ys js = indexSelect xs ks := by
  have hrow : ∀ j : Nat, is[j]?.bind (fun i => xs[i]?) = ys[j]? := fun j => by
    have hj := congrArg (fun l => l[j]?.join) (indexSelect_iff.mp his)
    cases hi : is[j]? <;> cases hy : ys[j]? <;> simp_all
  have hks := congrArg (map (Option.bind · fun i => xs[i]?)) (indexSelect_iff.mp hjs)
  rw [map_map, map_map] at hks
  refine Option.ext fun zs => ?_
  rw [indexSelect_iff, indexSelect_iff, map_congr_left fun j _ => (hrow j).symm]
  exact iff_of_eq (congrArg (· = zs.map some) hks)

theorem indexSelect_range (xs : List α) : indexSelect xs (List.range xs.length) = some xs :=
  indexSelect_iff.mpr (ext_getElem (by simp) fun _ _ _ => by simp_all)

variable {zs : List α}

theorem indexSelect_append (hi : indexSelect xs is = some ys)
    (hj : indexSelect xs js = some zs) : indexSelect xs (is ++ js) = some (ys ++ zs) := by
  rw [indexSelect_iff] at hi hj ⊢
  rw [map_append, map_append, hi, hj]

variable {start n : Nat}

theorem indexSelect_range' {f : Nat → α} (h : ∀ k < n, xs[start + k]? = some (f k)) :
    indexSelect xs (List.range' start n) = some ((List.range n).map f) := by
  rw [indexSelect_iff, range'_eq_map_range, map_map, map_map]
  exact map_congr_left fun k hk => h k (mem_range.mp hk)

theorem indexSelect_range'_of_getElem? (h : ∀ k < ys.length, xs[start + k]? = ys[k]?) :
    indexSelect xs (List.range' start ys.length) = some ys := by
  refine indexSelect_eq_of_getElem? length_range' fun k hk => ⟨start + k, ?_, h k hk⟩
  rw [List.getElem?_range' hk, Nat.one_mul]

theorem indexSelect_append_left (h : indexSelect xs is = some zs) :
    indexSelect (xs ++ ys) is = some zs := by
  have hlt := indexSelect_isSome_iff.mp (Option.isSome_of_eq_some h)
  rw [indexSelect_iff] at h ⊢
  rw [← h]
  exact map_congr_left fun i hi => List.getElem?_append_left (hlt i hi)

theorem indexSelect_append_right (hn : ys.length = n)
    (h : indexSelect xs is = some zs) : indexSelect (ys ++ xs) (is.map (· + n)) = some zs := by
  rw [indexSelect_iff] at h ⊢
  rw [← h, map_map]
  refine map_congr_left fun i _ => ?_
  rw [Function.comp_apply, List.getElem?_append_right (by omega), hn, Nat.add_sub_cancel]

theorem indexSelect_flatten_mapIdx {bs : List β} {indices : Nat → β → List Nat}
    {rows : Nat → β → List α}
    (h : ∀ i b, bs[i]? = some b → indexSelect xs (indices i b) = some (rows i b)) :
    indexSelect xs (bs.mapIdx indices).flatten = some (bs.mapIdx rows).flatten := by
  induction bs generalizing indices rows with
  | nil => rfl
  | cons b bs ih =>
    rw [mapIdx_cons, mapIdx_cons, flatten_cons, flatten_cons]
    exact indexSelect_append (h 0 b rfl) (ih fun i b hb => h (i + 1) b hb)

theorem indexSelect_flatMap_range {indices : Nat → List Nat} {rows : Nat → List α}
    (h : ∀ j < n, indexSelect xs (indices j) = some (rows j)) :
    indexSelect xs ((List.range n).flatMap indices) = some ((List.range n).flatMap rows) := by
  induction n with
  | zero => rfl
  | succ n ih =>
    rw [range_succ, flatMap_append, flatMap_append]
    refine indexSelect_append (ih fun j hj => h j (Nat.lt_succ_of_lt hj)) ?_
    rw [flatMap_singleton, flatMap_singleton]
    exact h n (Nat.lt_succ_self n)

end

/-! ## Blocks of one width -/

section

variable {xs : List α} {bs : List β} {width : Nat}

theorem map_add_range (n offset : Nat) :
    (List.range n).map (· + offset) = List.range' offset n := by
  rw [range'_eq_map_range]
  exact map_congr_left fun _ _ => Nat.add_comm _ _

theorem offsetOf_const {i : Nat} (hi : i ≤ bs.length) :
    offsetOf (fun _ => width) bs i = i * width := by
  unfold offsetOf
  rw [map_const', length_take, Nat.min_eq_left hi, sum_replicate_nat]

theorem flatten_mapIdx_range (bs : List β) (width : Nat) :
    (bs.mapIdx fun i _ => (List.range width).map (· + i * width)).flatten =
      List.range (bs.length * width) := by
  have hloop : withOffsets (fun _ : β => width) (fun _ offset => List.range' offset width) 0 bs =
      List.range' 0 (bs.map fun _ => width).sum := withOffsets_range' 0
  rw [withOffsets_eq, map_const', sum_replicate_nat, ← range_eq_range'] at hloop
  rw [← hloop]
  congr 1
  apply mapIdx_eq_mapIdx_iff.mpr
  intro i hi
  rw [map_add_range, Nat.zero_add, offsetOf_const (Nat.le_of_lt hi)]

theorem indexSelect_blocks {rows : Nat → β → List α} {count : β → Nat}
    (hrows : ∀ i b, bs[i]? = some b → (rows i b).length = width)
    (hcount : ∀ (i : Nat) b, bs[i]? = some b → count b ≤ width) :
    indexSelect (bs.mapIdx rows).flatten
        (bs.mapIdx fun i b => (List.range (count b)).map (· + i * width)).flatten =
      some (bs.mapIdx fun i b => (rows i b).take (count b)).flatten := by
  refine indexSelect_flatten_mapIdx fun i b hb => ?_
  have hi : i < bs.length := (List.getElem?_eq_some_iff.mp hb).1
  have hlength : ((rows i b).take (count b)).length = count b := by
    rw [length_take, hrows i b hb]
    exact Nat.min_eq_left (hcount i b hb)
  rw [map_add_range]
  conv => lhs; rw [← hlength]
  refine indexSelect_range'_of_getElem? fun k hk => ?_
  rw [hlength] at hk
  have hkwidth : k < width := Nat.lt_of_lt_of_le hk (hcount i b hb)
  rw [List.getElem?_take_of_lt hk, ← offsetOf_const (Nat.le_of_lt hi)]
  exact getElem?_flatten_mapIdx hrows hb hkwidth

theorem flatMap_slices (xs : List α) (count width : Nat) :
    ((List.range count).flatMap fun t => (xs.drop (t * width)).take width) =
      xs.take (count * width) := by
  induction count with
  | zero => simp
  | succ count ih =>
    rw [range_succ, flatMap_append, ih, flatMap_singleton, Nat.succ_mul,
      take_add]

end

end Xllm.Lib
