import Mathlib.Data.List.Nodup

/-!
# Writes at distinct places

A memory is a function of its addresses. A list of writes, each of which changes one address by
the value there, leaves at every address what its own write makes of it when no two writes have an
address in common; so the order of the writes does not matter (`writes_perm`). The same is shown
for copies of ranges into a buffer that do not overlap (`blits_inside`).
-/

namespace Xllm.Lib

open List Function

universe u v w

/-! ## Writes of one address -/

section

variable {α : Type u} {κ : Type v} {β : Type w} [DecidableEq κ] {key : α → κ} {f : α → β → β}

def writes (key : α → κ) (f : α → β → β) (ws : List α) (m : κ → β) : κ → β :=
  ws.foldl (fun m w => Function.update m (key w) (f w (m (key w)))) m

theorem writes_cons (w : α) (ws : List α) (m : κ → β) :
    writes key f (w :: ws) m =
      writes key f ws (Function.update m (key w) (f w (m (key w)))) := rfl

theorem writes_append (ws ws' : List α) (m : κ → β) :
    writes key f (ws ++ ws') m = writes key f ws' (writes key f ws m) := by
  unfold writes
  rw [foldl_append]

theorem writes_congr {m m' : κ → β} {k : κ} (h : m k = m' k) (ws : List α) :
    writes key f ws m k = writes key f ws m' k := by
  induction ws generalizing m m' with
  | nil => exact h
  | cons w ws ih =>
    rw [writes_cons, writes_cons]
    apply ih
    by_cases hk : k = key w
    · rw [← hk, update_self, update_self, h]
    · rw [update_of_ne hk, update_of_ne hk, h]

theorem writes_of_not_mem {ws : List α} {k : κ} (h : ∀ w ∈ ws, key w ≠ k) (m : κ → β) :
    writes key f ws m k = m k := by
  induction ws generalizing m with
  | nil => rfl
  | cons w ws ih =>
    rw [writes_cons, ih (fun w' hw' => h w' (mem_cons_of_mem _ hw'))]
    exact update_of_ne (h w mem_cons_self).symm _ _

theorem writes_of_mem {ws : List α} (hnodup : (ws.map key).Nodup) {w : α} (hw : w ∈ ws)
    (m : κ → β) : writes key f ws m (key w) = f w (m (key w)) := by
  induction ws generalizing m with
  | nil => exact nomatch hw
  | cons head ws ih =>
    obtain ⟨hhead, htail⟩ := nodup_cons.mp hnodup
    rw [writes_cons]
    cases mem_cons.mp hw with
    | inl heq =>
      have hlater : ∀ w' ∈ ws, key w' ≠ key head := by
        intro w' hw' hkey
        rw [← hkey] at hhead
        exact hhead (mem_map_of_mem hw')
      rw [heq, writes_of_not_mem hlater]
      exact update_self _ _ _
    | inr hw =>
      have hne : key w ≠ key head := by
        intro hkey
        rw [← hkey] at hhead
        exact hhead (mem_map_of_mem hw)
      rw [ih htail hw, update_of_ne hne]

/-- Writes at distinct addresses may be made in any order. -/
theorem writes_perm {ws ws' : List α} (hperm : ws.Perm ws') (hnodup : (ws.map key).Nodup)
    (m : κ → β) : writes key f ws m = writes key f ws' m := by
  have hnodup' : (ws'.map key).Nodup := (hperm.map key).nodup_iff.mp hnodup
  funext k
  by_cases hk : ∃ w ∈ ws, key w = k
  · obtain ⟨w, hw, rfl⟩ := hk
    rw [writes_of_mem hnodup hw, writes_of_mem hnodup' (hperm.mem_iff.mp hw)]
  · have hnot : ∀ w ∈ ws, key w ≠ k := fun w hw hkey => hk ⟨w, hw, hkey⟩
    rw [writes_of_not_mem hnot, writes_of_not_mem fun w hw => hnot w (hperm.mem_iff.mpr hw)]

theorem writes_map {α' : Type u} {key' : α' → κ} {f' : α' → β → β} {g : α → α'} {ws : List α}
    (h : ∀ w ∈ ws, key w = key' (g w) ∧ f w = f' (g w)) (m : κ → β) :
    writes key f ws m = writes key' f' (ws.map g) m := by
  induction ws generalizing m with
  | nil => rfl
  | cons w ws ih =>
    obtain ⟨hkey, hf⟩ := h w mem_cons_self
    rw [map_cons, writes_cons, writes_cons, ← hkey, ← hf]
    exact ih (fun w' hw' => h w' (mem_cons_of_mem _ hw')) _

end

/-! ## Copies of ranges -/

section

variable {β : Type u}

/-- `size` values of `src` from `start` on, put into `dst` from `target` on. -/
def blit (dst : Nat → β) (target : Nat) (src : Nat → β) (start size : Nat) : Nat → β := fun a =>
  if target ≤ a ∧ a < target + size then src (start + (a - target)) else dst a

theorem blit_inside (dst : Nat → β) (target : Nat) (src : Nat → β) (start : Nat) {size k : Nat}
    (hk : k < size) : blit dst target src start size (target + k) = src (start + k) := by
  unfold blit
  rw [if_pos (by omega), Nat.add_sub_cancel_left]

theorem blit_outside (dst : Nat → β) {target : Nat} (src : Nat → β) (start : Nat) {size a : Nat}
    (ha : a < target ∨ target + size ≤ a) : blit dst target src start size a = dst a := by
  unfold blit
  rw [if_neg (by omega)]

structure Blit (β : Type u) where
  target : Nat
  src : Nat → β
  start : Nat
  size : Nat

def blits (bs : List (Blit β)) (dst : Nat → β) : Nat → β :=
  bs.foldl (fun dst b => blit dst b.target b.src b.start b.size) dst

/-- The two leave each other's range alone. -/
def Blit.Apart (b b' : Blit β) : Prop :=
  b.target + b.size ≤ b'.target ∨ b'.target + b'.size ≤ b.target

theorem blits_outside {bs : List (Blit β)} {a : Nat}
    (h : ∀ b ∈ bs, a < b.target ∨ b.target + b.size ≤ a) (dst : Nat → β) :
    blits bs dst a = dst a := by
  induction bs generalizing dst with
  | nil => rfl
  | cons b bs ih =>
    show blits bs (blit dst b.target b.src b.start b.size) a = dst a
    rw [ih (fun b' hb' => h b' (mem_cons_of_mem _ hb')),
      blit_outside _ _ _ (h b mem_cons_self)]

theorem blits_inside {bs : List (Blit β)} (happart : bs.Pairwise Blit.Apart) {b : Blit β}
    (hb : b ∈ bs) {k : Nat} (hk : k < b.size) (dst : Nat → β) :
    blits bs dst (b.target + k) = b.src (b.start + k) := by
  induction bs generalizing dst with
  | nil => exact nomatch hb
  | cons head bs ih =>
    obtain ⟨hhead, htail⟩ := pairwise_cons.mp happart
    show blits bs (blit dst head.target head.src head.start head.size) (b.target + k) = _
    cases mem_cons.mp hb with
    | inl heq =>
      rw [heq, blits_outside, blit_inside _ _ _ _ (heq ▸ hk)]
      intro b' hb'
      have hapart := hhead b' hb'
      unfold Blit.Apart at hapart
      rw [heq] at hk
      omega
    | inr hb => exact ih htail hb _

end

end Xllm.Lib
