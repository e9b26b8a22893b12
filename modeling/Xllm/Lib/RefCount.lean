import Mathlib.Data.List.Count
import Mathlib.Data.List.Perm.Basic

/-!
# Reference counts

A *handle* may name a cell (`cell h = some a`); a heap keeps one counter per cell. The counts are
*exact* for a list of handles when every cell that some handle names is counted once per handle
that names it. The list is only a multiset here (`RefCounted.perm`), so one handle list can be
regrouped freely into the parts that own them.

Copying a handle, dropping one and creating a cell each have one lemma. The one that matters for
memory safety is `RefCounted.drop_zero`: a counter that reaches zero has no handle left.
-/

namespace Xllm.Lib

open Function

universe u v

variable {β : Type u} {κ : Type v} [DecidableEq κ]

/-- The number of handles that name `a`. -/
def handleCount (cell : β → Option κ) (a : κ) (hs : List β) : Nat :=
  hs.countP (fun h => cell h = some a)

/-- Every named cell is counted once per handle that names it. -/
def RefCounted (cell : β → Option κ) (count : κ → Nat) (hs : List β) : Prop :=
  ∀ h ∈ hs, ∀ a, cell h = some a → count a = handleCount cell a hs

section

variable {cell : β → Option κ} {count : κ → Nat} {hs : List β} {h : β} {a : κ}

theorem handleCount_cons (hs : List β) (h : β) (a : κ) :
    handleCount cell a (h :: hs) = handleCount cell a hs + if cell h = some a then 1 else 0 := by
  simp [handleCount, List.countP_cons]

theorem handleCount_eq_zero_iff : handleCount cell a hs = 0 ↔ ∀ h ∈ hs, cell h ≠ some a := by
  simp [handleCount]

theorem handleCount_pos (hm : h ∈ hs) (ha : cell h = some a) : 0 < handleCount cell a hs := by
  rw [handleCount, List.countP_pos_iff]
  exact ⟨h, hm, by simpa using ha⟩

theorem handleCount_perm {hs hs' : List β} (p : hs.Perm hs') (a : κ) :
    handleCount cell a hs = handleCount cell a hs' := p.countP_eq _

theorem RefCounted.perm {hs hs' : List β} (h : RefCounted cell count hs) (p : hs.Perm hs') :
    RefCounted cell count hs' := by
  intro x hx a ha
  rw [← handleCount_perm p]
  exact h x (p.mem_iff.mpr hx) a ha

/-- A handle that names no cell is free to come and go. -/
theorem RefCounted.cons_null (h : RefCounted cell count hs) {n : β} (hn : cell n = none) :
    RefCounted cell count (n :: hs) := by
  intro x hx a ha
  rw [handleCount_cons, if_neg (by rw [hn]; simp), Nat.add_zero]
  rcases List.mem_cons.mp hx with rfl | hx
  · rw [hn] at ha; exact nomatch ha
  · exact h x hx a ha

theorem RefCounted.of_cons_null {n : β} (hn : cell n = none) (h : RefCounted cell count (n :: hs)) :
    RefCounted cell count hs := by
  intro x hx a ha
  have := h x (List.mem_cons_of_mem _ hx) a ha
  rwa [handleCount_cons, if_neg (by rw [hn]; simp), Nat.add_zero] at this

/-- Copying a handle and incrementing its counter. -/
theorem RefCounted.copy (hc : RefCounted cell count hs) (hm : ∃ x ∈ hs, cell x = some a)
    (ha : cell h = some a) : RefCounted cell (Function.update count a (count a + 1)) (h :: hs) := by
  obtain ⟨x, hx, hxa⟩ := hm
  intro y hy b hb
  rw [handleCount_cons]
  by_cases hba : b = a
  · subst hba
    rw [update_self, if_pos ha, hc x hx b hxa]
  · have hne : cell h ≠ some b := by rw [ha]; simpa using Ne.symm hba
    rw [update_of_ne hba, if_neg hne, Nat.add_zero]
    rcases List.mem_cons.mp hy with rfl | hy
    · exact absurd hb hne
    · exact hc y hy b hb

/-- Dropping a handle and decrementing its counter. -/
theorem RefCounted.drop (hc : RefCounted cell count (h :: hs)) (ha : cell h = some a) :
    RefCounted cell (Function.update count a (count a - 1)) hs := by
  intro y hy b hb
  have hcount := hc y (List.mem_cons_of_mem _ hy) b hb
  rw [handleCount_cons] at hcount
  by_cases hba : b = a
  · subst hba
    rw [update_self, hcount, if_pos ha, Nat.add_sub_cancel]
  · have hne : cell h ≠ some b := by rw [ha]; simpa using Ne.symm hba
    rwa [update_of_ne hba, hcount, if_neg hne] at *

theorem RefCounted.count_head (hc : RefCounted cell count (h :: hs)) (ha : cell h = some a) :
    count a = handleCount cell a hs + 1 := by
  rw [hc h List.mem_cons_self a ha, handleCount_cons, if_pos ha]

theorem RefCounted.two_le (hc : RefCounted cell count (h :: hs)) (ha : cell h = some a)
    (hm : ∃ x ∈ hs, cell x = some a) : 2 ≤ count a := by
  obtain ⟨x, hx, hxa⟩ := hm
  have := handleCount_pos hx hxa
  rw [hc.count_head ha]
  omega

theorem RefCounted.drop_zero (hc : RefCounted cell count (h :: hs)) (ha : cell h = some a) :
    count a - 1 = 0 ↔ ∀ x ∈ hs, cell x ≠ some a := by
  rw [hc.count_head ha, Nat.add_sub_cancel, handleCount_eq_zero_iff]

theorem RefCounted.fresh (hc : RefCounted cell count hs) (hfresh : ∀ x ∈ hs, cell x ≠ some a)
    (ha : cell h = some a) : RefCounted cell (Function.update count a 1) (h :: hs) := by
  intro y hy b hb
  rw [handleCount_cons]
  by_cases hba : b = a
  · subst hba
    rw [update_self, if_pos ha, handleCount_eq_zero_iff.mpr hfresh]
  · have hne : cell h ≠ some b := by rw [ha]; simpa using Ne.symm hba
    rw [update_of_ne hba, if_neg hne, Nat.add_zero]
    rcases List.mem_cons.mp hy with rfl | hy
    · exact absurd hb hne
    · exact hc y hy b hb

end

end Xllm.Lib
