import Mathlib.Algebra.Order.BigOperators.Group.List
import Mathlib.Data.List.Count
import Xllm.Lib.Double

/-!
# The greedy placement of experts

`GreedyEplbPolicy` of `core/framework/eplb/eplb_policy.cpp`: the redundancy slots are given one by
one to the expert whose copies weigh most, the copies are placed, and then the experts themselves.

The weight of a copy is a whole number. After each slot it is taken down by the factor by which the
expert's copies have become more, and the fraction is dropped (`newWeight`), so it is a function of
the load and of the number of slots (`copyWeight`, `Filled.weights`) and falls behind the load per
copy by half a unit for a slot at most (`copyWeight_bounds`). Two experts that differ by less may
come in the wrong order (`not_keepsExperts_pair`).

A row-major vector is the list of its rows, and an access that leaves its row is `none`. That is
the end of a plan for no experts with a redundancy slot to give; every other plan keeps every expert
(`planLayer_keepsExperts`).
-/

namespace Xllm.Framework.GreedyEplbPolicy

open Xllm.Lib List

/-- `int64_t` arithmetic. -/
def wrap64 (x : Int) : Int := x.bmod (2 ^ 64)

/-- `static_cast<int64_t>(weight * redundancy_count / (redundancy_count + 1.0))`. -/
def newWeight (weight : Int) (redundancyCount : Nat) : Int :=
  let quotient := toDouble (toDouble (wrap64 (weight * redundancyCount)) / (redundancyCount + 1))
  quotient.num.tdiv quotient.den

structure Redundancy where
  currentWeights : List Int
  redundancyMap : List (List Int)

def heavier (weights : List Int) (best j : Nat) : Nat :=
  if weights.getD best 0 < weights.getD j 0 then j else best

/-- The search for `max_idx`; `max_val` is the weight there. -/
def maxIdx (weights : List Int) : Nat :=
  (List.range' 1 (weights.length - 1)).foldl (heavier weights) 0

/-- The redundancy slots of an expert. -/
def Redundancy.copies (s : Redundancy) (expert : Nat) : Nat :=
  (s.redundancyMap.getD expert []).countP (· ≠ -1)

def giveSlot (numExperts : Nat) (s : Redundancy) (i : Nat) : Option Redundancy := do
  let maxIdx := maxIdx s.currentWeights
  let row ← s.redundancyMap[maxIdx]?
  let redundancyCount := row.countP (· ≠ -1) + 1
  let weight ← s.currentWeights[maxIdx]?
  if redundancyCount - 1 < row.length then
    some {
      currentWeights := s.currentWeights.set maxIdx (newWeight weight redundancyCount)
      redundancyMap := s.redundancyMap.set maxIdx (row.set (redundancyCount - 1) (numExperts + i)) }
  else none

/-- The first passes of the loop of `update_origin_weights_host`. -/
def givenSlots (expertLoads : List Int) (redundancyExperts passes : Nat) : Option Redundancy :=
  (List.range passes).foldlM (giveSlot expertLoads.length) {
    currentWeights := expertLoads
    redundancyMap := replicate expertLoads.length (replicate redundancyExperts (-1)) }

def updateOriginWeightsHost (expertLoads : List Int) (redundancyExperts : Nat) :
    Option Redundancy :=
  givenSlots expertLoads redundancyExperts redundancyExperts

/-! ## Placement -/

/-- A row of `device_assignments`, with the load and the free slots of the device. -/
structure Device where
  assignments : List Int
  load : Int := 0
  freeSlots : Int

/-- `place_on_device`, `none` for `false`. -/
def Device.place (d : Device) (expertId : Nat) (weight : Int) : Option Device :=
  let slot := d.assignments.idxOf (-1)
  if slot < d.assignments.length then
    some {
      assignments := d.assignments.set slot expertId
      load := wrap64 (d.load + weight)
      freeSlots := d.freeSlots - 1 }
  else none

def lighter (best : Option (Nat × Int)) (d : Device × Nat) : Option (Nat × Int) :=
  if d.1.freeSlots ≤ 0 then best
  else match best with
    | none => some (d.2, d.1.load)
    | some (_, bestLoad) => if d.1.load < bestLoad then some (d.2, d.1.load) else best

def minLoadedDeviceWithCapacity (devices : List Device) : Option Nat :=
  (devices.zipIdx.foldl lighter none).map Prod.fst

def placeOnDevice (weights : List Int) (devices : List Device) (expertId target : Nat) :
    Option (List Device) := do
  let d ← devices[target]?
  let d ← d.place expertId (weights.getD expertId 0)
  some (devices.set target d)

/-- A turn of phase 1, `none` where it gives the plan up. -/
def placeRedundant (weights : List Int) (devices : List Device) (originId : Nat) :
    Option (List Device) := do
  let target ← minLoadedDeviceWithCapacity devices
  placeOnDevice weights devices originId target

/-- The turns of phase 1: the row of an expert up to its first -1. -/
def redundantExperts (redundancyMap : List (List Int)) : List Nat :=
  (List.range redundancyMap.length).flatMap fun originId =>
    ((redundancyMap.getD originId []).takeWhile (· ≠ -1)).map fun _ => originId

/-- Phase 2, which stops where no device has a slot. -/
def placePrimaries (weights : List Int) : List Nat → List Device → Option (List Device)
  | [], devices => some devices
  | expertId :: sorted, devices =>
    match minLoadedDeviceWithCapacity devices with
    | none => some devices
    | some target =>
      (placeOnDevice weights devices expertId target).bind (placePrimaries weights sorted)

/-- What `std::sort` leaves: the heavier experts first, equal ones in any order. -/
structure SortedIndices (weights : List Int) (sorted : List Nat) : Prop where
  perm : sorted.Perm (List.range weights.length)
  descending : sorted.Pairwise fun a b => weights.getD b 0 ≤ weights.getD a 0

def freshDevices (deviceNum deviceExpertsNum : Nat) : List Device :=
  replicate deviceNum
    { assignments := replicate deviceExpertsNum (-1), freeSlots := deviceExpertsNum }

variable (sort : List Int → List Nat) (deviceNum deviceExpertsNum redundantExpertsNum : Nat)
  (expertLoads : List Int)

/-- The plan is empty where the code gives up. -/
def computeBalancedPackHost : Option (List Int) := do
  let updated ← updateOriginWeightsHost expertLoads (deviceNum * redundantExpertsNum)
  match (redundantExperts updated.redundancyMap).foldlM (placeRedundant updated.currentWeights)
    (freshDevices deviceNum deviceExpertsNum) with
  | none => some []
  | some devices =>
    match placePrimaries updated.currentWeights (sort updated.currentWeights) devices with
    | none => some []
    | some devices => some (devices.flatMap Device.assignments)

def planLayer : Option (List Int) :=
  computeBalancedPackHost sort deviceNum deviceExpertsNum redundantExpertsNum expertLoads

/-- What a copy of an expert carries when all of its copies carry the same. -/
def loadPerCopy (s : Redundancy) (expert : Nat) : ℚ :=
  expertLoads.getD expert 0 / (s.copies expert + 1)

/-- No copy of another expert carries more. -/
def HeaviestCopies (s : Redundancy) (expert : Nat) : Prop :=
  ∀ j < expertLoads.length, loadPerCopy expertLoads s j ≤ loadPerCopy expertLoads s expert

/-- The weight of an expert's copies behind so many redundancy slots. -/
def copyWeight (load : Int) : Nat → Int
  | 0 => load
  | copies + 1 => newWeight (copyWeight load copies) (copies + 1)

/-- No copy of another expert has a larger weight; by its load per copy another expert may be ahead
by what its weight has lost to the dropped fractions. -/
structure HeaviestWeight (s : Redundancy) (expert : Nat) : Prop where
  weight : ∀ j < expertLoads.length, copyWeight (expertLoads.getD j 0) (s.copies j) ≤
    copyWeight (expertLoads.getD expert 0) (s.copies expert)
  load : (∀ load ∈ expertLoads, 0 ≤ load ∧ load < 2 ^ 53) → ∀ j < expertLoads.length,
    loadPerCopy expertLoads s j ≤ loadPerCopy expertLoads s expert + s.copies j / 2

/-- The pass gives its slot, the next in the row, to the expert. -/
structure Gives (numExperts i : Nat) (s s' : Redundancy) (expert : Nat) : Prop where
  lt : expert < numExperts
  inRow : s.copies expert < (s.redundancyMap.getD expert []).length
  given : s'.redundancyMap = s.redundancyMap.set expert
    ((s.redundancyMap.getD expert []).set (s.copies expert) (numExperts + i))

/-- Every expert is in the plan once, and once more for each redundancy slot it was given, and each
slot goes to an expert that `Heaviest` admits. -/
def KeepsExperts (Heaviest : Redundancy → Nat → Prop) : Prop :=
  ∃ updated, updateOriginWeightsHost expertLoads (deviceNum * redundantExpertsNum) = some updated ∧
    ((List.range expertLoads.length).map updated.copies).sum = deviceNum * redundantExpertsNum ∧
    (∀ i < deviceNum * redundantExpertsNum, ∃ s s' expert,
      givenSlots expertLoads (deviceNum * redundantExpertsNum) i = some s ∧
      givenSlots expertLoads (deviceNum * redundantExpertsNum) (i + 1) = some s' ∧
      Gives expertLoads.length i s s' expert ∧ Heaviest s expert) ∧
    ∀ sort : List Int → List Nat, (∀ weights, SortedIndices weights (sort weights)) →
      ∃ plan, planLayer sort deviceNum deviceExpertsNum redundantExpertsNum expertLoads =
          some plan ∧
        plan.length = deviceNum * deviceExpertsNum ∧ (-1 : Int) ∉ plan ∧
        ∀ e < expertLoads.length, plan.count (e : Int) = 1 + updated.copies e

/-! ## The weights -/

theorem newWeight_eq {weight : Int} {count : Nat} (h : 0 ≤ weight) (hlt : weight * count < 2 ^ 53) :
    newWeight weight count = weight * count / (count + 1) := by
  have hnonneg : 0 ≤ weight * count := Int.mul_nonneg h (Int.natCast_nonneg count)
  have hwrap : wrap64 (weight * count) = weight * count :=
    Int.bmod_eq_of_le (by omega) (by omega)
  have hfloor := floor_toDouble_div hnonneg hlt count.succ_pos
  unfold newWeight
  dsimp only
  rw [hwrap, toDouble_intCast hnonneg hlt]
  push_cast at hfloor ⊢
  have hquotient : 0 ≤ toDouble (weight * count / (count + 1)) :=
    Int.floor_nonneg.mp (hfloor ▸ Int.ediv_nonneg hnonneg (by omega))
  rw [Int.tdiv_eq_ediv_of_nonneg (Rat.num_nonneg.mpr hquotient), ← Rat.floor_def', hfloor]

/-- A slot costs less than one in the product of weight and copies, on top of what the earlier ones
did, which is half of the copies that there are for each copy. -/
theorem copyWeight_bounds {load : Int} (h : 0 ≤ load) (hlt : load < 2 ^ 53) (copies : Nat) :
    0 ≤ copyWeight load copies ∧ copyWeight load copies * (copies + 1) ≤ load ∧
      2 * load ≤ (2 * copyWeight load copies + copies) * (copies + 1) := by
  induction copies with
  | zero => simp [copyWeight, h]
  | succ copies ih =>
    obtain ⟨hnonneg, hle, hge⟩ := ih
    have hfits : copyWeight load copies * ((copies + 1 : Nat) : Int) < 2 ^ 53 := by
      push_cast
      omega
    rw [copyWeight, newWeight_eq hnonneg hfits]
    have hdiv := Int.ediv_mul_le (copyWeight load copies * ((copies + 1 : Nat) : Int))
      (show ((copies + 1 : Nat) : Int) + 1 ≠ 0 by omega)
    have hrest := Int.lt_ediv_add_one_mul_self (copyWeight load copies * ((copies + 1 : Nat) : Int))
      (show 0 < ((copies + 1 : Nat) : Int) + 1 by omega)
    refine ⟨Int.ediv_nonneg (Int.mul_nonneg hnonneg (by omega)) (by omega), ?_, ?_⟩
    · exact hdiv.trans (by push_cast; exact hle)
    · generalize copyWeight load copies * ((copies + 1 : Nat) : Int) /
        (((copies + 1 : Nat) : Int) + 1) = weight at hdiv hrest ⊢
      push_cast at hdiv hrest hge ⊢
      nlinarith

theorem loadPerCopy_le {expertLoads : List Int} {s : Redundancy} {j expert : Nat}
    (hfits : ∀ load ∈ expertLoads, 0 ≤ load ∧ load < 2 ^ 53) (hj : j < expertLoads.length)
    (he : expert < expertLoads.length)
    (hle : copyWeight (expertLoads.getD j 0) (s.copies j) ≤
      copyWeight (expertLoads.getD expert 0) (s.copies expert)) :
    loadPerCopy expertLoads s j ≤ loadPerCopy expertLoads s expert + s.copies j / 2 := by
  have hload (e : Nat) (he : e < expertLoads.length) :
      0 ≤ expertLoads.getD e 0 ∧ expertLoads.getD e 0 < 2 ^ 53 := by
    rw [List.getD_eq_getElem?_getD, List.getElem?_eq_getElem he]
    exact hfits _ (getElem_mem he)
  obtain ⟨-, -, hahead⟩ := copyWeight_bounds (hload j hj).1 (hload j hj).2 (s.copies j)
  obtain ⟨-, hbehind, -⟩ := copyWeight_bounds (hload expert he).1 (hload expert he).2
    (s.copies expert)
  have hahead' : loadPerCopy expertLoads s j ≤
      copyWeight (expertLoads.getD j 0) (s.copies j) + s.copies j / 2 := by
    have hcast : (2 * expertLoads.getD j 0 : ℚ) ≤
        (2 * copyWeight (expertLoads.getD j 0) (s.copies j) + s.copies j) * (s.copies j + 1) := by
      exact_mod_cast hahead
    rw [loadPerCopy, div_le_iff₀ (by positivity)]
    linarith
  have hbehind' : (copyWeight (expertLoads.getD expert 0) (s.copies expert) : ℚ) ≤
      loadPerCopy expertLoads s expert := by
    rw [loadPerCopy, le_div_iff₀ (by positivity)]
    exact_mod_cast hbehind
  have hle' : (copyWeight (expertLoads.getD j 0) (s.copies j) : ℚ) ≤
      copyWeight (expertLoads.getD expert 0) (s.copies expert) := by
    exact_mod_cast hle
  linarith

/-! ## The redundancy slots -/

theorem set_perm {α : Type} {l : List α} {k : Nat} {x : α} (h : l[k]? = some x) (a : α) :
    (x :: l.set k a).Perm (a :: l) := by
  obtain ⟨hk, hx⟩ := List.getElem?_eq_some_iff.mp h
  refine ((set_perm_cons_eraseIdx hk a).cons x).trans ((Perm.swap a x _).trans ?_)
  rw [← hx]
  exact (getElem_cons_eraseIdx_perm hk).cons a

theorem foldl_heavier {weights : List Int} {js : List Nat} {best : Nat}
    (hbest : best < weights.length) (hjs : ∀ j ∈ js, j < weights.length) :
    js.foldl (heavier weights) best < weights.length ∧ ∀ j, j = best ∨ j ∈ js →
      weights.getD j 0 ≤ weights.getD (js.foldl (heavier weights) best) 0 := by
  induction js generalizing best with
  | nil => exact ⟨hbest, fun j hj => hj.elim (fun heq => heq ▸ le_rfl) nofun⟩
  | cons j js ih =>
    obtain ⟨hj, hjs⟩ := forall_mem_cons.mp hjs
    have hkept : heavier weights best j < weights.length ∧
        weights.getD best 0 ≤ weights.getD (heavier weights best j) 0 ∧
        weights.getD j 0 ≤ weights.getD (heavier weights best j) 0 := by
      unfold heavier
      split
      · exact ⟨hj, by omega, le_rfl⟩
      · exact ⟨hbest, le_rfl, by omega⟩
    obtain ⟨hlt, hall⟩ := ih hkept.1 hjs
    refine ⟨hlt, fun k hk => ?_⟩
    rcases hk with rfl | hk
    · exact hkept.2.1.trans (hall _ (.inl rfl))
    · rcases mem_cons.mp hk with rfl | hk
      · exact hkept.2.2.trans (hall _ (.inl rfl))
      · exact hall k (.inr hk)

theorem maxIdx_spec {weights : List Int} (h : 0 < weights.length) :
    maxIdx weights < weights.length ∧
      ∀ j < weights.length, weights.getD j 0 ≤ weights.getD (maxIdx weights) 0 := by
  have hjs : ∀ j, j = 0 ∨ j ∈ List.range' 1 (weights.length - 1) ↔ j < weights.length := by
    intro j
    rw [mem_range'_1]
    omega
  obtain ⟨hlt, hall⟩ := foldl_heavier h fun j hj => (hjs j).mp (.inr hj)
  exact ⟨hlt, fun j hj => hall j ((hjs j).mpr hj)⟩

/-- A row is filled from its start. -/
def RowFilled (redundancyExperts : Nat) (row : List Int) : Prop :=
  ∃ slots, (-1 : Int) ∉ slots ∧ slots.length ≤ redundancyExperts ∧
    row = slots ++ replicate (redundancyExperts - slots.length) (-1)

/-- The slots that were given are in the rows of the map, and the weights are those of so many. -/
structure Filled (expertLoads : List Int) (redundancyExperts i : Nat) (s : Redundancy) : Prop where
  length : s.currentWeights.length = expertLoads.length
  weights : ∀ e < expertLoads.length,
    s.currentWeights[e]? = some (copyWeight (expertLoads.getD e 0) (s.copies e))
  rows : s.redundancyMap.length = expertLoads.length
  filled : ∀ row ∈ s.redundancyMap, RowFilled redundancyExperts row
  given : (s.redundancyMap.map fun row => row.countP (· ≠ -1)).sum = i

variable {redundancyExperts : Nat} {row slots : List Int}

theorem all_given (h : (-1 : Int) ∉ slots) : ∀ x ∈ slots, decide (x ≠ -1) = true :=
  fun _ hx => decide_eq_true fun heq => h (heq ▸ hx)

theorem countP_filled (h : (-1 : Int) ∉ slots) (n : Nat) :
    (slots ++ replicate n (-1)).countP (· ≠ -1) = slots.length := by
  rw [countP_append, countP_eq_length.mpr (all_given h), countP_replicate]
  rfl

theorem RowFilled.takeWhile (h : RowFilled redundancyExperts row) :
    (row.takeWhile (· ≠ -1)).length = row.countP (· ≠ -1) := by
  obtain ⟨slots, hslots, -, rfl⟩ := h
  rw [countP_filled hslots, takeWhile_append_of_pos (all_given hslots), takeWhile_replicate]
  simp

theorem RowFilled.set (h : RowFilled redundancyExperts row)
    (hroom : row.countP (· ≠ -1) < redundancyExperts) {slot : Int} (hslot : slot ≠ -1) :
    row.countP (· ≠ -1) < row.length ∧
      RowFilled redundancyExperts (row.set (row.countP (· ≠ -1)) slot) ∧
      (row.set (row.countP (· ≠ -1)) slot).countP (· ≠ -1) = row.countP (· ≠ -1) + 1 := by
  obtain ⟨slots, hslots, hle, rfl⟩ := h
  rw [countP_filled hslots] at hroom ⊢
  have hset : (slots ++ replicate (redundancyExperts - slots.length) (-1)).set slots.length slot =
      (slots ++ [slot]) ++ replicate (redundancyExperts - (slots ++ [slot]).length) (-1) := by
    obtain ⟨n, hn⟩ := Nat.exists_eq_add_of_lt hroom
    rw [set_append_right _ _ le_rfl, Nat.sub_self, length_append, length_singleton,
      show redundancyExperts - slots.length = n + 1 by omega,
      show redundancyExperts - (slots.length + 1) = n by omega, replicate_succ, append_assoc]
    rfl
  have hnew : (-1 : Int) ∉ slots ++ [slot] := by
    rw [mem_append, mem_singleton]
    exact fun h => h.elim hslots fun h => hslot h.symm
  rw [hset]
  refine ⟨?_, ⟨_, hnew, ?_, rfl⟩, ?_⟩
  · rw [length_append, length_replicate]
    omega
  · rw [length_append, length_singleton]
    exact hroom
  · rw [countP_filled hnew, length_append, length_singleton]

variable {expertLoads : List Int} {i : Nat} {s : Redundancy}

theorem Redundancy.copies_eq {e : Nat} (hrow : s.redundancyMap[e]? = some row) :
    s.copies e = row.countP (· ≠ -1) := by
  rw [Redundancy.copies, List.getD_eq_getElem?_getD, hrow]
  rfl

theorem Filled.heaviestWeight (h : Filled expertLoads redundancyExperts i s)
    (hpos : 0 < expertLoads.length) :
    maxIdx s.currentWeights < expertLoads.length ∧
      HeaviestWeight expertLoads s (maxIdx s.currentWeights) := by
  obtain ⟨hlt, hmax⟩ := @maxIdx_spec s.currentWeights (by rw [h.length]; exact hpos)
  rw [h.length] at hlt hmax
  have hweight : ∀ j < expertLoads.length, copyWeight (expertLoads.getD j 0) (s.copies j) ≤
      copyWeight (expertLoads.getD (maxIdx s.currentWeights) 0)
        (s.copies (maxIdx s.currentWeights)) := by
    intro j hj
    have hle := hmax j hj
    rwa [List.getD_eq_getElem?_getD, List.getD_eq_getElem?_getD, h.weights j hj,
      h.weights _ hlt] at hle
  exact ⟨hlt, hweight, fun hfits j hj => loadPerCopy_le hfits hj hlt (hweight j hj)⟩

/-- What a pass does: it gives its slot, and the map stays filled. -/
theorem Filled.giveSlot (h : Filled expertLoads redundancyExperts i s)
    (hpos : 0 < expertLoads.length) (hi : i < redundancyExperts) :
    ∃ s' expert, giveSlot expertLoads.length s i = some s' ∧
      Filled expertLoads redundancyExperts (i + 1) s' ∧
      Gives expertLoads.length i s s' expert ∧ HeaviestWeight expertLoads s expert := by
  obtain ⟨hlt, hheaviest⟩ := h.heaviestWeight hpos
  obtain ⟨row, hrow⟩ : ∃ row, s.redundancyMap[maxIdx s.currentWeights]? = some row :=
    ⟨_, List.getElem?_eq_getElem (by rw [h.rows]; exact hlt)⟩
  have hcopies := Redundancy.copies_eq hrow
  have hget : s.redundancyMap.getD (maxIdx s.currentWeights) [] = row := by
    rw [List.getD_eq_getElem?_getD, hrow]
    rfl
  have hmem := List.mem_of_getElem? hrow
  have hle : row.countP (· ≠ -1) ≤ i := h.given ▸ le_sum_of_mem (mem_map_of_mem hmem)
  obtain ⟨hinRow, hfilled, hcount⟩ := @RowFilled.set _ _ (h.filled row hmem)
    (by omega) (expertLoads.length + i) (by omega)
  have hrun : GreedyEplbPolicy.giveSlot expertLoads.length s i = some {
      currentWeights := s.currentWeights.set (maxIdx s.currentWeights)
        (copyWeight (expertLoads.getD (maxIdx s.currentWeights) 0) (row.countP (· ≠ -1) + 1))
      redundancyMap := s.redundancyMap.set (maxIdx s.currentWeights)
        (row.set (row.countP (· ≠ -1)) (expertLoads.length + i)) } := by
    rw [GreedyEplbPolicy.giveSlot, hrow, h.weights _ hlt, hcopies]
    exact if_pos hinRow
  refine ⟨_, maxIdx s.currentWeights, hrun, ⟨?_, ?_, ?_, ?_, ?_⟩, ⟨hlt, ?_, ?_⟩, hheaviest⟩
  · rw [length_set, h.length]
  · intro e he
    dsimp only
    by_cases heq : maxIdx s.currentWeights = e
    · subst heq
      rw [getElem?_set_self (by rw [h.length]; exact hlt),
        Redundancy.copies_eq (getElem?_set_self (by rw [h.rows]; exact hlt)), hcount]
    · rw [getElem?_set_ne heq, h.weights e he]
      simp only [Redundancy.copies, List.getD_eq_getElem?_getD, getElem?_set_ne heq]
  · rw [length_set, h.rows]
  · intro other hother
    rcases List.mem_or_eq_of_mem_set hother with hother | rfl
    · exact h.filled other hother
    · exact hfilled
  · have hsum := ((set_perm hrow (row.set (row.countP (· ≠ -1)) (expertLoads.length + i))).map
      fun row => row.countP (· ≠ -1)).sum_eq
    rw [map_cons, sum_cons, map_cons, sum_cons, hcount, h.given] at hsum
    dsimp only
    omega
  · rw [hcopies, hget]
    exact hinRow
  · rw [hcopies, hget]

theorem givenSlots_succ (h : givenSlots expertLoads redundancyExperts i = some s) :
    givenSlots expertLoads redundancyExperts (i + 1) =
      GreedyEplbPolicy.giveSlot expertLoads.length s i := by
  unfold givenSlots at h ⊢
  rw [range_succ, foldlM_append, h]
  exact bind_pure (GreedyEplbPolicy.giveSlot expertLoads.length s i)

theorem givenSlots_filled (h : expertLoads ≠ [] ∨ redundancyExperts = 0)
    {passes : Nat} (hle : passes ≤ redundancyExperts) :
    ∃ s, givenSlots expertLoads redundancyExperts passes = some s ∧
      Filled expertLoads redundancyExperts passes s ∧ ∀ i < passes, ∃ s s' expert,
        givenSlots expertLoads redundancyExperts i = some s ∧
        givenSlots expertLoads redundancyExperts (i + 1) = some s' ∧
        Gives expertLoads.length i s s' expert ∧ HeaviestWeight expertLoads s expert := by
  induction passes with
  | zero =>
    refine ⟨_, rfl, ⟨rfl, ?_, length_replicate, ?_, ?_⟩, nofun⟩
    · intro e he
      rw [Redundancy.copies_eq (getElem?_replicate_of_lt he), countP_replicate,
        List.getD_eq_getElem?_getD, List.getElem?_eq_getElem he]
      rfl
    · intro row hrow
      rw [eq_of_mem_replicate hrow]
      exact ⟨[], not_mem_nil, Nat.zero_le _, rfl⟩
    · rw [map_replicate, countP_replicate, sum_replicate]
      exact Nat.mul_zero _
  | succ i ih =>
    obtain ⟨s, hrun, hfilled, hpasses⟩ := ih (Nat.le_of_succ_le hle)
    have hne : expertLoads ≠ [] := h.resolve_right (Nat.ne_zero_of_lt hle)
    obtain ⟨s', expert, hstep, hfilled', hgives⟩ :=
      hfilled.giveSlot (length_pos_of_ne_nil hne) hle
    have hnext := (givenSlots_succ hrun).trans hstep
    refine ⟨s', hnext, hfilled', fun j hj => ?_⟩
    rcases Nat.lt_succ_iff_lt_or_eq.mp hj with hj | rfl
    · exact hpasses j hj
    · exact ⟨s, s', expert, hrun, hnext, hgives⟩

theorem Filled.redundantExperts (h : Filled expertLoads redundancyExperts i s) :
    redundantExperts s.redundancyMap =
        (List.range expertLoads.length).flatMap (fun e => replicate (s.copies e) e) ∧
      ((List.range expertLoads.length).map s.copies).sum = i := by
  have hrow : ∀ e < expertLoads.length,
      ∃ row ∈ s.redundancyMap, s.redundancyMap.getD e [] = row := by
    intro e he
    rw [← h.rows] at he
    refine ⟨_, getElem_mem he, ?_⟩
    rw [List.getD_eq_getElem?_getD, List.getElem?_eq_getElem he, Option.getD_some]
  constructor
  · unfold GreedyEplbPolicy.redundantExperts
    rw [h.rows]
    refine flatMap_congr fun e he => ?_
    obtain ⟨row, hrow, hget⟩ := hrow e (mem_range.mp he)
    rw [map_const', Redundancy.copies, hget, (h.filled row hrow).takeWhile]
  · rw [← h.given, ← h.rows]
    congr 1
    refine ext_getElem (by simp) fun e he he' => ?_
    rw [length_map, length_range] at he
    simp [Redundancy.copies, he]

theorem count_copies (copies : Nat → Nat) (n e : Nat) :
    ((List.range n).flatMap fun e => replicate (copies e) e).count e =
      if e < n then copies e else 0 := by
  induction n with
  | zero => rfl
  | succ n ih =>
    rw [range_succ, flatMap_append, count_append, ih, flatMap_singleton, count_replicate]
    by_cases heq : n = e
    · subst heq
      simp
    · simp only [beq_iff_eq, heq, if_false, Nat.add_zero]
      exact if_congr (by omega) rfl rfl

/-! ## The devices -/

/-- The slots of a device are those of its row that are free. -/
def Device.Accounted (d : Device) : Prop := d.freeSlots = d.assignments.count (-1)

theorem foldl_lighter_eq_none {l : List (Device × Nat)} {best : Option (Nat × Int)}
    (h : l.foldl lighter best = none) : best = none ∧ ∀ d ∈ l, d.1.freeSlots ≤ 0 := by
  induction l generalizing best with
  | nil => exact ⟨h, nofun⟩
  | cons d l ih =>
    obtain ⟨hd, hl⟩ := ih h
    unfold lighter at hd
    split at hd
    · next hfull => exact ⟨hd, forall_mem_cons.mpr ⟨hfull, hl⟩⟩
    · split at hd
      · cases hd
      · split at hd <;> cases hd

def RoomAt (devices : List Device) (best : Option (Nat × Int)) : Prop :=
  ∀ target, best = some target → ∃ d, devices[target.1]? = some d ∧ 0 < d.freeSlots

theorem minLoaded_spec {devices : List Device} (h : ∃ d ∈ devices, 0 < d.freeSlots) :
    ∃ target d, minLoadedDeviceWithCapacity devices = some target ∧
      devices[target]? = some d ∧ 0 < d.freeSlots := by
  have hfound : RoomAt devices (devices.zipIdx.foldl lighter none) := by
    refine List.foldlRecOn (motive := RoomAt devices) _ _ nofun fun best hbest d hd => ?_
    have hget := mem_zipIdx_iff_getElem?.mp hd
    unfold lighter
    split
    · exact hbest
    · next hfree =>
      have hroom : RoomAt devices (some (d.2, d.1.load)) := by
        rintro _ ⟨⟩
        exact ⟨d.1, hget, by omega⟩
      split
      · exact hroom
      · split
        · exact hroom
        · exact hbest
  unfold minLoadedDeviceWithCapacity
  cases hbest : devices.zipIdx.foldl lighter none with
  | none =>
    obtain ⟨d, hd, hfree⟩ := h
    obtain ⟨k, hk⟩ := List.mem_iff_getElem?.mp hd
    have hfull := (foldl_lighter_eq_none hbest).2 (d, k) (mem_zipIdx_iff_getElem?.mpr hk)
    exact absurd hfree (not_lt_of_ge hfull)
  | some best =>
    rw [hbest] at hfound
    obtain ⟨d, hd, hfree⟩ := hfound best rfl
    exact ⟨best.1, d, rfl, hd, hfree⟩

variable {weights : List Int} {devices : List Device}

/-- A turn fills a slot, if there is one. -/
theorem placeRedundant_spec (h : ∀ d ∈ devices, d.Accounted)
    (hroom : (-1 : Int) ∈ devices.flatMap Device.assignments) (e : Nat) :
    ∃ devices', placeRedundant weights devices e = some devices' ∧
      (∀ d ∈ devices', d.Accounted) ∧
      ((-1 : Int) :: devices'.flatMap Device.assignments).Perm
        (e :: devices.flatMap Device.assignments) := by
  obtain ⟨d, hd, hslot⟩ := mem_flatMap.mp hroom
  have hfree : 0 < d.freeSlots := by
    rw [h d hd]
    exact Int.ofNat_lt.mpr (count_pos_iff.mpr hslot)
  obtain ⟨target, d, htarget, hd, hfree⟩ := minLoaded_spec ⟨d, hd, hfree⟩
  have hacc : d.freeSlots = d.assignments.count (-1) := h d (List.mem_of_getElem? hd)
  have hin : (-1 : Int) ∈ d.assignments := count_pos_iff.mp (by omega)
  have hlt := idxOf_lt_length_of_mem hin
  have hget : d.assignments[d.assignments.idxOf (-1)]? = some (-1) := getElem?_idxOf hin
  have hrow := set_perm hget (e : Int)
  have hplace : placeRedundant weights devices e = some (devices.set target {
      assignments := d.assignments.set (d.assignments.idxOf (-1)) e
      load := wrap64 (d.load + weights.getD e 0)
      freeSlots := d.freeSlots - 1 }) := by
    simp [placeRedundant, placeOnDevice, Device.place, htarget, hd, hlt]
  refine ⟨_, hplace, ?_, ?_⟩
  · intro other hother
    rcases List.mem_or_eq_of_mem_set hother with hother | rfl
    · exact h other hother
    · have hcount := hrow.count_eq (-1)
      rw [count_cons_self, count_cons_of_ne (by omega)] at hcount
      rw [Device.Accounted]
      dsimp only
      omega
  · have hflat (d' : Device) := (set_perm hd d').flatMap_right Device.assignments
    refine (perm_append_left_iff d.assignments).mp (perm_middle.trans ?_)
    refine ((hflat _).cons (-1)).trans (.trans ?_ perm_middle.symm)
    exact hrow.append_right _

/-- With enough slots every expert of a list is placed. -/
theorem placeRedundant_all {experts : List Nat} (h : ∀ d ∈ devices, d.Accounted)
    (hroom : experts.length ≤ (devices.flatMap Device.assignments).count (-1)) :
    ∃ devices', experts.foldlM (placeRedundant weights) devices = some devices' ∧
      (replicate experts.length (-1) ++ devices'.flatMap Device.assignments).Perm
        (experts.map Nat.cast ++ devices.flatMap Device.assignments) := by
  induction experts generalizing devices with
  | nil => exact ⟨devices, rfl, .refl _⟩
  | cons e experts ih =>
    obtain ⟨next, hplace, hacc, hperm⟩ :=
      @placeRedundant_spec weights devices h (count_pos_iff.mp (Nat.zero_lt_of_lt hroom)) e
    have hcount := hperm.count_eq (-1)
    rw [count_cons_self, count_cons_of_ne (by omega)] at hcount
    obtain ⟨devices', hrun, hall⟩ := ih hacc (by rw [length_cons] at hroom; omega)
    refine ⟨devices', ?_, ?_⟩
    · rw [foldlM_cons, hplace]
      exact hrun
    · exact (hall.cons (-1)).trans (perm_middle.symm.trans
        ((hperm.append_left _).trans perm_middle))

theorem placePrimaries_eq_some {sorted : List Nat} {devices' : List Device}
    (h : sorted.foldlM (placeRedundant weights) devices = some devices') :
    placePrimaries weights sorted devices = some devices' := by
  induction sorted generalizing devices with
  | nil => exact h
  | cons e sorted ih =>
    obtain ⟨next, hplace, h⟩ := Option.bind_eq_some_iff.mp h
    obtain ⟨target, htarget, hplace⟩ := Option.bind_eq_some_iff.mp hplace
    rw [placePrimaries, htarget]
    dsimp only
    rw [hplace]
    exact ih h

/-! ## The plan -/

theorem keepsExperts_of_slots {deviceNum deviceExpertsNum redundantExpertsNum : Nat}
    (htotal : deviceNum * deviceExpertsNum =
      deviceNum * redundantExpertsNum + expertLoads.length)
    (h : expertLoads ≠ [] ∨ deviceNum * redundantExpertsNum = 0) :
    KeepsExperts deviceNum deviceExpertsNum redundantExpertsNum expertLoads
      (HeaviestWeight expertLoads) := by
  obtain ⟨updated, hrun, hfilled, hpasses⟩ := givenSlots_filled h le_rfl
  obtain ⟨hexperts, hsum⟩ := hfilled.redundantExperts
  refine ⟨updated, hrun, hsum, hpasses, fun sort hsort => ?_⟩
  have hperm := (hsort updated.currentWeights).perm
  rw [hfilled.length] at hperm
  have hslots : (freshDevices deviceNum deviceExpertsNum).flatMap Device.assignments =
      replicate (deviceNum * deviceExpertsNum) (-1) := by
    rw [freshDevices, flatMap_replicate, flatten_replicate_replicate]
  have hlength : (GreedyEplbPolicy.redundantExperts updated.redundancyMap ++
      sort updated.currentWeights).length = deviceNum * deviceExpertsNum := by
    rw [length_append, hexperts, length_flatMap, hperm.length_eq, length_range, htotal]
    simp only [length_replicate]
    rw [hsum]
  obtain ⟨devices, hplaced, hplan⟩ := @placeRedundant_all updated.currentWeights
    (freshDevices deviceNum deviceExpertsNum)
    (GreedyEplbPolicy.redundantExperts updated.redundancyMap ++ sort updated.currentWeights)
    (by
      intro d hd
      rw [eq_of_mem_replicate hd, Device.Accounted, count_replicate_self])
    (by rw [hslots, count_replicate_self, hlength])
  rw [hslots, hlength] at hplan
  have hplan' := (perm_append_right_iff _).mp (perm_append_comm.trans hplan)
  rw [foldlM_append] at hplaced
  obtain ⟨next, hfirst, hsecond⟩ := Option.bind_eq_some_iff.mp hplaced
  refine ⟨devices.flatMap Device.assignments, ?_, ?_, ?_, ?_⟩
  · unfold planLayer computeBalancedPackHost updateOriginWeightsHost
    rw [hrun, Option.bind_eq_bind, Option.bind_some, hfirst]
    dsimp only
    rw [placePrimaries_eq_some hsecond]
  · rw [hplan'.length_eq, length_map, hlength]
  · intro hmem
    obtain ⟨e, -, he⟩ := mem_map.mp (hplan'.mem_iff.mp hmem)
    omega
  · intro e he
    rw [hplan'.count_eq, count_map_of_injective _ _ Nat.cast_injective, count_append, hexperts,
      count_copies, if_pos he, hperm.count_eq, nodup_range.count, if_pos (mem_range.mpr he)]
    exact Nat.add_comm _ _

/-- **The plan keeps every expert**, unless a slot is to be given and there is no expert. -/
theorem planLayer_keepsExperts (deviceNum redundantExpertsNum : Nat) (expertLoads : List Int)
    (hdvd : deviceNum ∣ expertLoads.length)
    (h : expertLoads ≠ [] ∨ deviceNum * redundantExpertsNum = 0) :
    KeepsExperts deviceNum (expertLoads.length / deviceNum + redundantExpertsNum)
      redundantExpertsNum expertLoads (HeaviestWeight expertLoads) := by
  refine keepsExperts_of_slots ?_ h
  rw [Nat.mul_add, Nat.mul_div_cancel' hdvd, Nat.add_comm]

theorem planLayer_keepsExperts_pair :
    KeepsExperts 1 4 2 [2, 5] (HeaviestWeight [2, 5]) :=
  planLayer_keepsExperts 1 2 [2, 5] (by decide) (.inl (cons_ne_nil _ _))

/-- The second expert's copies carry 5/2 behind the first slot, with a weight of 2, and the second
slot goes to the first expert. -/
theorem not_keepsExperts_pair : ¬ KeepsExperts 1 4 2 [2, 5] (HeaviestCopies [2, 5]) := by
  rintro ⟨-, -, -, hpasses, -⟩
  obtain ⟨s, s', expert, hrun, hnext, hgives, hheaviest⟩ := hpasses 1 (by decide)
  have hweight : newWeight 5 1 = 2 := newWeight_eq (by decide) (by decide)
  have hfirst : givenSlots [2, 5] 2 1 = some ⟨[2, newWeight 5 1], [[-1, -1], [2, -1]]⟩ := rfl
  rw [hweight] at hfirst
  obtain rfl := Option.some.inj (hfirst.symm.trans hrun)
  have hsecond := congrArg (Option.map Redundancy.redundancyMap)
    ((givenSlots_succ hrun).symm.trans hnext)
  rw [Option.map_some, hgives.given] at hsecond
  match expert, hgives.lt with
  | 0, _ =>
    have hle : (5 : ℚ) / (1 + 1) ≤ 2 / (0 + 1) := by
      simpa [loadPerCopy, Redundancy.copies] using hheaviest 1 (by decide)
    norm_num at hle
  | 1, _ => exact nomatch hsecond

end Xllm.Framework.GreedyEplbPolicy
