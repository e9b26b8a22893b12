import Mathlib.Algebra.BigOperators.Group.List.Basic
import Mathlib.Data.List.Nodup
import Mathlib.Data.Nat.Init

/-!
# Numbers in mixed radix, and groups of them

A dimension has a size, and is varied in a group or fixed. `combine` puts the number of a group,
whose digits are those of the fixed dimensions, and a place in it, with the digits of the others,
together; `groupOf` and `placeOf` take them apart again. Two choices of dimensions with none in
common have groups that meet in one number at most (`eq_of_groups`). The list of all groups goes
through every number once (`flatten_groups_perm`).
-/

namespace Xllm.Lib.MixedRadix

open List

/-- Sizes, the fastest dimension first, and whether a dimension is varied in a group. -/
abbrev Dims := List (Nat × Bool)

def volume (dims : Dims) : Nat := (dims.map Prod.fst).prod

def groupCount (dims : Dims) : Nat := ((dims.filter fun dim => !dim.2).map Prod.fst).prod

def groupSize (dims : Dims) : Nat := ((dims.filter fun dim => dim.2).map Prod.fst).prod

/-- The number at a place of a group. -/
def combine : Dims → Nat → Nat → Nat
  | [], _, _ => 0
  | (size, true) :: dims, group, place => place % size + size * combine dims group (place / size)
  | (size, false) :: dims, group, place => group % size + size * combine dims (group / size) place

/-- The group of a number. -/
def groupOf : Dims → Nat → Nat
  | [], _ => 0
  | (size, true) :: dims, n => groupOf dims (n / size)
  | (size, false) :: dims, n => n % size + size * groupOf dims (n / size)

/-- The place of a number in its group. -/
def placeOf : Dims → Nat → Nat
  | [], _ => 0
  | (size, true) :: dims, n => n % size + size * placeOf dims (n / size)
  | (size, false) :: dims, n => placeOf dims (n / size)

@[simp] theorem volume_cons (size : Nat) (varied : Bool) (dims : Dims) :
    volume ((size, varied) :: dims) = size * volume dims := by
  unfold volume
  rw [map_cons, prod_cons]

@[simp] theorem groupCount_fixed (size : Nat) (dims : Dims) :
    groupCount ((size, false) :: dims) = size * groupCount dims := by
  simp [groupCount]

@[simp] theorem groupCount_varied (size : Nat) (dims : Dims) :
    groupCount ((size, true) :: dims) = groupCount dims := by
  simp [groupCount]

@[simp] theorem groupSize_fixed (size : Nat) (dims : Dims) :
    groupSize ((size, false) :: dims) = groupSize dims := by
  simp [groupSize]

@[simp] theorem groupSize_varied (size : Nat) (dims : Dims) :
    groupSize ((size, true) :: dims) = size * groupSize dims := by
  simp [groupSize]

theorem groupSize_mul_groupCount (dims : Dims) : groupSize dims * groupCount dims = volume dims := by
  induction dims with
  | nil => rfl
  | cons dim dims ih =>
    obtain ⟨size, varied⟩ := dim
    cases varied with
    | true => rw [groupSize_varied, groupCount_varied, volume_cons, Nat.mul_assoc, ih]
    | false => rw [groupSize_fixed, groupCount_fixed, volume_cons, Nat.mul_left_comm, ih]

theorem digit_mod {size : Nat} (n rest : Nat) : (n % size + size * rest) % size = n % size := by
  rw [Nat.add_mul_mod_self_left, Nat.mod_mod]

theorem digit_div {size : Nat} (hsize : 0 < size) (n rest : Nat) :
    (n % size + size * rest) / size = rest := by
  rw [Nat.add_mul_div_left _ _ hsize, Nat.div_eq_of_lt (Nat.mod_lt _ hsize), Nat.zero_add]

/-- Induction over dimensions of positive sizes. -/
theorem Dims.induction {motive : (dims : Dims) → (∀ dim ∈ dims, 0 < dim.1) → Prop}
    (nil : motive [] nofun)
    (varied : ∀ size dims (hsize : 0 < size) h, motive dims h →
      motive ((size, true) :: dims) (forall_mem_cons.mpr ⟨hsize, h⟩))
    (fixed : ∀ size dims (hsize : 0 < size) h, motive dims h →
      motive ((size, false) :: dims) (forall_mem_cons.mpr ⟨hsize, h⟩)) :
    ∀ dims h, motive dims h
  | [], _ => nil
  | (size, true) :: dims, h => varied size dims (h _ mem_cons_self) _
      (Dims.induction nil varied fixed dims fun dim hdim => h dim (mem_cons_of_mem _ hdim))
  | (size, false) :: dims, h => fixed size dims (h _ mem_cons_self) _
      (Dims.induction nil varied fixed dims fun dim hdim => h dim (mem_cons_of_mem _ hdim))

variable {dims : Dims}

theorem combine_lt (h : ∀ dim ∈ dims, 0 < dim.1) (group place : Nat) :
    combine dims group place < volume dims := by
  induction dims, h using Dims.induction generalizing group place with
  | nil => exact Nat.one_pos
  | varied size dims hsize h ih =>
    exact Nat.add_mul_lt_mul_of_lt_of_lt (Nat.mod_lt _ hsize) (ih _ _)
  | fixed size dims hsize h ih =>
    exact Nat.add_mul_lt_mul_of_lt_of_lt (Nat.mod_lt _ hsize) (ih _ _)

theorem groupOf_combine (h : ∀ dim ∈ dims, 0 < dim.1) {group : Nat}
    (hgroup : group < groupCount dims) (place : Nat) :
    groupOf dims (combine dims group place) = group := by
  induction dims, h using Dims.induction generalizing group place with
  | nil => exact (Nat.lt_one_iff.mp hgroup).symm
  | varied size dims hsize h ih =>
    rw [combine, groupOf, digit_div hsize, ih hgroup]
  | fixed size dims hsize h ih =>
    rw [combine, groupOf, digit_div hsize, ih (Nat.div_lt_of_lt_mul hgroup), digit_mod]
    exact Nat.mod_add_div group size

theorem placeOf_combine (h : ∀ dim ∈ dims, 0 < dim.1) (group : Nat) {place : Nat}
    (hplace : place < groupSize dims) : placeOf dims (combine dims group place) = place := by
  induction dims, h using Dims.induction generalizing group place with
  | nil => exact (Nat.lt_one_iff.mp hplace).symm
  | varied size dims hsize h ih =>
    rw [combine, placeOf, digit_div hsize, ih _ (Nat.div_lt_of_lt_mul hplace), digit_mod]
    exact Nat.mod_add_div place size
  | fixed size dims hsize h ih =>
    rw [combine, placeOf, digit_div hsize, ih _ hplace]

theorem groupOf_lt (h : ∀ dim ∈ dims, 0 < dim.1) (n : Nat) :
    groupOf dims n < groupCount dims := by
  induction dims, h using Dims.induction generalizing n with
  | nil => exact Nat.one_pos
  | varied size dims hsize h ih => rw [groupCount_varied]; exact ih _
  | fixed size dims hsize h ih =>
    exact Nat.add_mul_lt_mul_of_lt_of_lt (Nat.mod_lt _ hsize) (ih _)

theorem placeOf_lt (h : ∀ dim ∈ dims, 0 < dim.1) (n : Nat) :
    placeOf dims n < groupSize dims := by
  induction dims, h using Dims.induction generalizing n with
  | nil => exact Nat.one_pos
  | varied size dims hsize h ih =>
    exact Nat.add_mul_lt_mul_of_lt_of_lt (Nat.mod_lt _ hsize) (ih _)
  | fixed size dims hsize h ih => rw [groupSize_fixed]; exact ih _

variable {n : Nat}

/-- A number is at its place of its group. -/
theorem combine_groupOf (h : ∀ dim ∈ dims, 0 < dim.1)
    (hn : n < volume dims) : combine dims (groupOf dims n) (placeOf dims n) = n := by
  induction dims, h using Dims.induction generalizing n with
  | nil => exact (Nat.lt_one_iff.mp hn).symm
  | varied size dims hsize h ih =>
    rw [combine, groupOf, placeOf, digit_mod, digit_div hsize, ih (Nat.div_lt_of_lt_mul hn)]
    exact Nat.mod_add_div n size
  | fixed size dims hsize h ih =>
    rw [combine, groupOf, placeOf, digit_mod, digit_div hsize, ih (Nat.div_lt_of_lt_mul hn)]
    exact Nat.mod_add_div n size

/-- Numbers that share their groups for two choices of dimensions are equal, if no dimension is in
both choices. -/
theorem eq_of_groups {sizes : List (Nat × Bool × Bool)} (h : ∀ size ∈ sizes, 0 < size.1)
    (hdisjoint : ∀ size ∈ sizes, size.2.1 = false ∨ size.2.2 = false) {m : Nat}
    (hm : m < volume (sizes.map fun size => (size.1, size.2.1)))
    (hn : n < volume (sizes.map fun size => (size.1, size.2.1)))
    (hfirst : groupOf (sizes.map fun size => (size.1, size.2.1)) m =
      groupOf (sizes.map fun size => (size.1, size.2.1)) n)
    (hsecond : groupOf (sizes.map fun size => (size.1, size.2.2)) m =
      groupOf (sizes.map fun size => (size.1, size.2.2)) n) : m = n := by
  induction sizes generalizing m n with
  | nil => rw [Nat.lt_one_iff.mp hm, Nat.lt_one_iff.mp hn]
  | cons dim sizes ih =>
    obtain ⟨size, first, second⟩ := dim
    have hsize : 0 < size := h _ mem_cons_self
    simp only [map_cons] at hfirst hsecond
    have hdigits : ∀ {a b : Nat}, m % size + size * a = n % size + size * b →
        m % size = n % size ∧ a = b := by
      intro a b heq
      have hmod := congrArg (· % size) heq
      have hdiv := congrArg (· / size) heq
      simp only [digit_mod] at hmod
      simp only [digit_div hsize] at hdiv
      exact ⟨hmod, hdiv⟩
    have hparts : m % size = n % size ∧
        groupOf (sizes.map fun size => (size.1, size.2.1)) (m / size) =
          groupOf (sizes.map fun size => (size.1, size.2.1)) (n / size) ∧
        groupOf (sizes.map fun size => (size.1, size.2.2)) (m / size) =
          groupOf (sizes.map fun size => (size.1, size.2.2)) (n / size) := by
      cases first with
      | false =>
        obtain ⟨hdigit, hfirst⟩ := hdigits hfirst
        cases second with
        | false =>
          exact ⟨hdigit, hfirst, (hdigits hsecond).2⟩
        | true =>
          exact ⟨hdigit, hfirst, hsecond⟩
      | true =>
        cases second with
        | false =>
          obtain ⟨hdigit, hsecond⟩ := hdigits hsecond
          exact ⟨hdigit, hfirst, hsecond⟩
        | true =>
          cases hdisjoint _ mem_cons_self with
          | inl h => cases h
          | inr h => cases h
    obtain ⟨hdigit, hfirst', hsecond'⟩ := hparts
    have heq := ih (fun d hd => h d (mem_cons_of_mem _ hd))
      (fun d hd => hdisjoint d (mem_cons_of_mem _ hd)) (Nat.div_lt_of_lt_mul hm)
      (Nat.div_lt_of_lt_mul hn) hfirst' hsecond'
    rw [← Nat.mod_add_div m size, ← Nat.mod_add_div n size, hdigit, heq]

/-! ## The list of the groups -/

def groupAt (dims : Dims) (group : Nat) : List Nat :=
  (List.range (groupSize dims)).map (combine dims group)

def groups (dims : Dims) : List (List Nat) := (List.range (groupCount dims)).map (groupAt dims)

theorem length_groupAt (dims : Dims) (group : Nat) : (groupAt dims group).length = groupSize dims := by
  unfold groupAt
  rw [length_map, length_range]

theorem mem_groupAt (h : ∀ dim ∈ dims, 0 < dim.1) {group : Nat} (hgroup : group < groupCount dims) :
    n ∈ groupAt dims group ↔ n < volume dims ∧ groupOf dims n = group := by
  unfold groupAt
  rw [mem_map]
  constructor
  · intro hmem
    obtain ⟨place, _, heq⟩ := hmem
    subst heq
    exact ⟨combine_lt h group place, groupOf_combine h hgroup place⟩
  · intro hn
    obtain ⟨hlt, heq⟩ := hn
    refine ⟨placeOf dims n, mem_range.mpr (placeOf_lt h n), ?_⟩
    rw [← heq]
    exact combine_groupOf h hlt

theorem nodup_groupAt (h : ∀ dim ∈ dims, 0 < dim.1) (group : Nat) :
    (groupAt dims group).Nodup := by
  refine List.Nodup.map_on ?_ nodup_range
  intro a ha b hb heq
  -- The place of a number is where it was put.
  rw [← placeOf_combine h group (mem_range.mp ha),
    ← placeOf_combine h group (mem_range.mp hb), heq]

theorem mem_flatten_groups (h : ∀ dim ∈ dims, 0 < dim.1) :
    n ∈ (groups dims).flatten ↔ n < volume dims := by
  rw [mem_flatten]
  constructor
  · intro hmem
    obtain ⟨_, hg, hn⟩ := hmem
    obtain ⟨group, hgroup, heq⟩ := mem_map.mp hg
    subst heq
    exact ((mem_groupAt h (mem_range.mp hgroup)).mp hn).1
  · intro hn
    refine ⟨groupAt dims (groupOf dims n), ?_, (mem_groupAt h (groupOf_lt h n)).mpr ⟨hn, rfl⟩⟩
    exact mem_map.mpr ⟨groupOf dims n, mem_range.mpr (groupOf_lt h n), rfl⟩

theorem nodup_flatten_groups (h : ∀ dim ∈ dims, 0 < dim.1) :
    (groups dims).flatten.Nodup := by
  unfold groups
  rw [nodup_flatten]
  constructor
  · intro g hg
    obtain ⟨group, _, heq⟩ := mem_map.mp hg
    subst heq
    exact nodup_groupAt h group
  · rw [pairwise_map]
    refine nodup_range.imp_of_mem ?_
    intro a b ha hb hne n hna hnb
    apply hne
    rw [← ((mem_groupAt h (mem_range.mp ha)).mp hna).2,
      ← ((mem_groupAt h (mem_range.mp hb)).mp hnb).2]

theorem flatten_groups_perm (h : ∀ dim ∈ dims, 0 < dim.1) :
    (groups dims).flatten.Perm (List.range (volume dims)) := by
  rw [perm_ext_iff_of_nodup (nodup_flatten_groups h) nodup_range]
  intro n
  rw [mem_flatten_groups h, mem_range]

/-! ## The group of each number -/

/-- Every number below `world` has a group of `size` of them, which is the group of each of its
members. -/
structure GroupPartition (world size : Nat) (group : Nat → List Nat) : Prop where
  length_eq : ∀ n < world, (group n).length = size
  nodup : ∀ n < world, (group n).Nodup
  self_mem : ∀ n < world, n ∈ group n
  lt_of_mem : ∀ n < world, ∀ m ∈ group n, m < world
  eq_of_mem : ∀ n < world, ∀ m ∈ group n, group m = group n

theorem groupPartition_groupAt (h : ∀ dim ∈ dims, 0 < dim.1) :
    GroupPartition (volume dims) (groupSize dims) fun n => groupAt dims (groupOf dims n) where
  length_eq _ _ := length_groupAt dims _
  nodup _ _ := nodup_groupAt h _
  self_mem n hn := (mem_groupAt h (groupOf_lt h n)).mpr ⟨hn, rfl⟩
  lt_of_mem n _ _ hm := ((mem_groupAt h (groupOf_lt h n)).mp hm).1
  eq_of_mem n _ _ hm := congrArg (groupAt dims) ((mem_groupAt h (groupOf_lt h n)).mp hm).2

theorem GroupPartition.congr {world size : Nat} {group group' : Nat → List Nat}
    (h : GroupPartition world size group) (heq : ∀ n < world, group' n = group n) :
    GroupPartition world size group' where
  length_eq n hn := by
    rw [heq n hn]
    exact h.length_eq n hn
  nodup n hn := by
    rw [heq n hn]
    exact h.nodup n hn
  self_mem n hn := by
    rw [heq n hn]
    exact h.self_mem n hn
  lt_of_mem n hn m hm := by
    rw [heq n hn] at hm
    exact h.lt_of_mem n hn m hm
  eq_of_mem n hn m hm := by
    rw [heq n hn] at hm ⊢
    rw [heq m (h.lt_of_mem n hn m hm)]
    exact h.eq_of_mem n hn m hm

theorem groupAt_eq_iff (h : ∀ dim ∈ dims, 0 < dim.1) {m : Nat} (hm : m < volume dims) :
    groupAt dims (groupOf dims m) = groupAt dims (groupOf dims n) ↔
      groupOf dims m = groupOf dims n := by
  constructor
  · intro heq
    have hself := (groupPartition_groupAt h).self_mem m hm
    rw [heq] at hself
    exact ((mem_groupAt h (groupOf_lt h n)).mp hself).2
  · intro heq
    rw [heq]

/-! ## Two digits exchanged -/

/-- The two lowest digits of a number, of sizes `low` and `high`, exchanged. -/
def swapDigits (low high n : Nat) : Nat := n / low % high + high * (n % low + low * (n / low / high))

theorem swapDigits_swapDigits {low high : Nat} (hlow : 0 < low) (hhigh : 0 < high) (n : Nat) :
    swapDigits high low (swapDigits low high n) = n := by
  have hdiv : swapDigits low high n / high = n % low + low * (n / low / high) :=
    digit_div hhigh _ _
  have hmod : swapDigits low high n % high = n / low % high := digit_mod _ _
  rw [swapDigits, hdiv, hmod, digit_mod, digit_div hlow, Nat.mod_add_div, Nat.mod_add_div]

theorem swapDigits_lt {low high rest : Nat} (hlow : 0 < low) (hhigh : 0 < high)
    (hn : n < low * (high * rest)) : swapDigits low high n < high * (low * rest) := by
  refine Nat.add_mul_lt_mul_of_lt_of_lt (Nat.mod_lt _ hhigh) ?_
  refine Nat.add_mul_lt_mul_of_lt_of_lt (Nat.mod_lt _ hlow) ?_
  exact Nat.div_lt_of_lt_mul (Nat.div_lt_of_lt_mul hn)

end Xllm.Lib.MixedRadix
