import Mathlib

/-!
# Tallies

A table maps keys to values; each entry *weighs* a number that depends on its key and value, and the
tally of the table is what its entries weigh together. Changing one entry (adding it, replacing it or
dropping it, all `put`) moves the tally by the difference of that entry's weights and by nothing else
(`tally_put`). This is how a shared counter is shown to count what many parties hold: a step changes the counter and
one party's entry by the same amount.
-/

namespace Xllm.Lib

open List Function

universe u v w

variable {κ : Type u} {α : Type v}

abbrev Table (κ : Type u) (α : Type v) := AList (fun _ : κ => α)

def tally (f : κ → α → ℕ) (t : Table κ α) : ℕ := (t.entries.map fun e => f e.1 e.2).sum

/-- What the entry of a key weighs; nothing when there is none. -/
def weigh (f : κ → α → ℕ) (k : κ) (entry : Option α) : ℕ := entry.elim 0 (f k)

@[simp] theorem weigh_none (f : κ → α → ℕ) (k : κ) : weigh f k none = 0 := rfl

@[simp] theorem weigh_some (f : κ → α → ℕ) (k : κ) (a : α) : weigh f k (some a) = f k a := rfl

variable [DecidableEq κ]

/-- The table with the entry of `k` set, or dropped. -/
def put (t : Table κ α) (k : κ) : Option α → Table κ α
  | some a => t.insert k a
  | none => t.erase k

@[simp] theorem lookup_put_self (t : Table κ α) (k : κ) (entry : Option α) :
    (put t k entry).lookup k = entry := by
  cases entry with
  | some a => exact AList.lookup_insert t
  | none => exact AList.lookup_erase k t

variable {k k' : κ}

theorem lookup_put_ne (t : Table κ α) (entry : Option α) (h : k' ≠ k) :
    (put t k entry).lookup k' = t.lookup k' := by
  cases entry with
  | some a => exact AList.lookup_insert_ne h
  | none => exact AList.lookup_erase_ne h

theorem lookup_insert_eq (t : Table κ α) (k k' : κ) (a : α) :
    (t.insert k a).lookup k' = if k' = k then some a else t.lookup k' := by
  split
  · next h => rw [h, AList.lookup_insert]
  · next h => exact AList.lookup_insert_ne h

variable {t : Table κ α} {a : α}

theorem lookup_erase_eq_some :
    (t.erase k).lookup k' = some a ↔ k' ≠ k ∧ t.lookup k' = some a := by
  by_cases h : k' = k
  · rw [h, AList.lookup_erase]
    simp
  · rw [AList.lookup_erase_ne h]
    exact ⟨fun hk => ⟨h, hk⟩, fun hk => hk.2⟩

theorem mem_entries_iff :
    (⟨k, a⟩ : Sigma fun _ : κ => α) ∈ t.entries ↔ t.lookup k = some a :=
  AList.mem_lookup_iff.symm

def keepEntries (p : κ → α → Bool) (t : Table κ α) : Table κ α :=
  ⟨t.entries.filter fun e => p e.1 e.2, t.nodupKeys.sublist filter_sublist⟩

theorem lookup_keepEntries (p : κ → α → Bool) (t : Table κ α) (k : κ) :
    (keepEntries p t).lookup k = (t.lookup k).filter (p k) := by
  apply Option.ext
  intro a
  have hmem : (⟨k, a⟩ : Sigma fun _ : κ => α) ∈ (keepEntries p t).entries ↔
      (⟨k, a⟩ : Sigma fun _ : κ => α) ∈ t.entries ∧ p k a = true := mem_filter
  rw [mem_entries_iff, mem_entries_iff] at hmem
  rw [hmem, Option.filter_eq_some_iff]

def anyEntry (p : κ → α → Bool) (t : Table κ α) : Bool := t.entries.any fun e => p e.1 e.2

theorem anyEntry_iff {p : κ → α → Bool} :
    anyEntry p t = true ↔ ∃ k a, t.lookup k = some a ∧ p k a = true := by
  rw [anyEntry, any_eq_true]
  constructor
  · rintro ⟨⟨k, a⟩, hmem, hp⟩
    exact ⟨k, a, mem_entries_iff.mp hmem, hp⟩
  · rintro ⟨k, a, hlookup, hp⟩
    exact ⟨⟨k, a⟩, mem_entries_iff.mpr hlookup, hp⟩

variable {f f' : κ → α → ℕ}

theorem tally_congr (h : ∀ k a, t.lookup k = some a → f k a = f' k a) : tally f t = tally f' t := by
  have hmap : t.entries.map (fun e => f e.1 e.2) = t.entries.map (fun e => f' e.1 e.2) :=
    map_congr_left fun e he => h e.1 e.2 (mem_entries_iff.mp he)
  rw [tally, tally, hmap]

omit [DecidableEq κ] in
theorem tally_empty (f : κ → α → ℕ) : tally f (∅ : Table κ α) = 0 := rfl

theorem tally_erase (f : κ → α → ℕ) (t : Table κ α) (k : κ) :
    tally f (t.erase k) + weigh f k (t.lookup k) = tally f t := by
  cases hk : t.lookup k with
  | none =>
    have hkeys : k ∉ t.entries.keys := AList.lookup_eq_none.mp hk
    have herase : (t.erase k).entries = t.entries := kerase_of_notMem_keys hkeys
    rw [tally, tally, herase, weigh_none, Nat.add_zero]
  | some a =>
    obtain ⟨b, l₁, l₂, -, hl, herase⟩ :=
      exists_of_kerase (AList.lookup_isSome.mp (Option.isSome_of_mem hk))
    have hb : t.lookup k = some b := by
      rw [← mem_entries_iff, hl]
      exact mem_append_right _ mem_cons_self
    have hab : a = b := Option.some.inj (hk.symm.trans hb)
    have hentries : (t.erase k).entries = l₁ ++ l₂ := herase
    subst hab
    rw [tally, tally, hentries, hl, weigh_some]
    simp only [map_append, map_cons, sum_append, sum_cons]
    omega

theorem tally_put_congr (t : Table κ α) (k : κ) (entry : Option α)
    (h : ∀ k' a, k' ≠ k → t.lookup k' = some a → f' k' a = f k' a) :
    tally f' (put t k entry) + weigh f k (t.lookup k) = tally f t + weigh f' k entry := by
  have hrest : tally f' (t.erase k) = tally f (t.erase k) := by
    refine tally_congr fun k' a hk' => ?_
    have hne : k' ≠ k := by
      intro heq
      rw [heq, AList.lookup_erase] at hk'
      cases hk'
    rw [AList.lookup_erase_ne hne] at hk'
    exact h k' a hne hk'
  have herase := tally_erase f t k
  cases entry with
  | none =>
    show tally f' (t.erase k) + _ = _
    rw [weigh_none, hrest]
    omega
  | some a =>
    have hcons : tally f' (t.insert k a) = f' k a + tally f' (t.erase k) := rfl
    show tally f' (t.insert k a) + _ = _
    rw [weigh_some, hcons, hrest]
    omega

theorem tally_put (f : κ → α → ℕ) (t : Table κ α) (k : κ) (entry : Option α) :
    tally f (put t k entry) + weigh f k (t.lookup k) = tally f t + weigh f k entry :=
  tally_put_congr t k entry fun _ _ _ _ => rfl

theorem weigh_le_tally (f : κ → α → ℕ) (t : Table κ α) (k : κ) :
    weigh f k (t.lookup k) ≤ tally f t := by
  have h := tally_erase f t k
  omega

theorem tally_eq_zero (h : ∀ k a, t.lookup k = some a → f k a = 0) : tally f t = 0 := by
  have hzero : tally f t = tally (fun _ _ => 0) t := tally_congr h
  rw [hzero, tally]
  simp

variable {β : Type v} {M : Type w} {i : ℕ}

theorem sum_update [AddCommMonoid M] (n : ℕ) (f : ℕ → β → M) (g : ℕ → β) (hi : i < n) (b : β) :
    (∑ d ∈ Finset.range n, f d (Function.update g i b d)) + f i (g i) =
      (∑ d ∈ Finset.range n, f d (g d)) + f i b := by
  have hmem : i ∈ Finset.range n := Finset.mem_range.mpr hi
  rw [← Finset.add_sum_erase _ _ hmem, ← Finset.add_sum_erase _ (fun d => f d (g d)) hmem,
    update_self]
  have hrest : ∑ d ∈ (Finset.range n).erase i, f d (Function.update g i b d) =
      ∑ d ∈ (Finset.range n).erase i, f d (g d) := by
    refine Finset.sum_congr rfl fun d hd => ?_
    rw [update_of_ne (Finset.ne_of_mem_erase hd)]
  rw [hrest]
  ac_rfl

theorem sum_set [AddCommMonoid M] (f : ℕ → β → M) (l : List β) (d : β) (hi : i < l.length) (b : β) :
    (∑ j ∈ Finset.range l.length, f j ((l.set i b).getD j d)) + f i (l.getD i d) =
      (∑ j ∈ Finset.range l.length, f j (l.getD j d)) + f i b := by
  rw [← sum_update l.length f (fun j => l.getD j d) hi b]
  congr 1
  refine Finset.sum_congr rfl fun j _ => ?_
  by_cases hj : j = i
  · subst hj
    rw [update_self, List.getD_eq_getElem?_getD, List.getElem?_set_self hi]
    rfl
  · rw [update_of_ne hj, List.getD_eq_getElem?_getD, List.getElem?_set_ne (Ne.symm hj),
      List.getD_eq_getElem?_getD]

/-- A sum over a list, class by class. -/
theorem sum_classes [AddCommMonoid M] {l : List β} {key : β → ℕ} {n : ℕ}
    (hkey : ∀ b ∈ l, key b < n) (f : β → M) :
    ∑ i ∈ Finset.range n, ((l.filter fun b => key b = i).map f).sum = (l.map f).sum := by
  induction l with
  | nil => simp
  | cons b l ih =>
    have hb : key b ∈ Finset.range n := Finset.mem_range.mpr (hkey b mem_cons_self)
    have hrest := ih fun c hc => hkey c (mem_cons_of_mem _ hc)
    have hone : ∀ i, (((b :: l).filter fun c => key c = i).map f).sum =
        (if i = key b then f b else 0) + ((l.filter fun c => key c = i).map f).sum := by
      intro i
      by_cases hi : i = key b
      · simp [hi]
      · have : ¬ key b = i := fun h => hi h.symm
        simp [hi, this]
    rw [Finset.sum_congr rfl fun i _ => hone i, Finset.sum_add_distrib, hrest,
      Finset.sum_ite_eq' (Finset.range n) (key b) (fun _ => f b), if_pos hb, map_cons,
      sum_cons]

end Xllm.Lib
