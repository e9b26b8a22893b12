import Mathlib.Data.Multiset.Bind

/-!
# Nested traversals

Facts about a list built by going through a list and, for each element, through another: when only
one element contributes, the result is its contribution; the order of the two traversals does not
matter up to the order of the result; and nothing is found twice when what is found tells where.
-/

namespace Xllm.Lib

open List

universe u v w

variable {α : Type u} {β : Type v} {γ : Type w}

variable {l : List α}

theorem flatMap_eq_single {f : α → List β} {a : α} (hnodup : l.Nodup) (ha : a ∈ l)
    (h : ∀ b ∈ l, b ≠ a → f b = []) : l.flatMap f = f a := by
  induction l with
  | nil => exact nomatch ha
  | cons b l ih =>
    obtain ⟨hb, hl⟩ := nodup_cons.mp hnodup
    rw [flatMap_cons]
    rcases mem_cons.mp ha with rfl | ha
    · rw [flatMap_eq_nil_iff.mpr, append_nil]
      intro c hc
      exact h c (mem_cons_of_mem _ hc) fun heq => hb (heq ▸ hc)
    · rw [h b (mem_cons_self ..) fun heq => hb (heq ▸ ha), nil_append]
      exact ih hl ha fun c hc => h c (mem_cons_of_mem _ hc)

theorem flatMap_swap_perm (l : List α) (m : List β) (f : α → β → List γ) :
    (l.flatMap fun a => m.flatMap (f a)).Perm (m.flatMap fun b => l.flatMap fun a => f a b) := by
  have h := Multiset.bind_bind (l : Multiset α) (m : Multiset β)
    (f := fun a b => (f a b : Multiset γ))
  simpa only [Multiset.coe_bind, Multiset.coe_eq_coe] using h

theorem flatMap_map_swap_perm (l : List α) (m : List β) (f : α → β → γ) :
    (l.flatMap fun a => m.map (f a)).Perm (m.flatMap fun b => l.map fun a => f a b) := by
  simp only [map_eq_flatMap]
  exact flatMap_swap_perm l m fun a b => [f a b]

/-- What is found in one traversal tells in which element it was found. -/
theorem nodup_flatMap_of_key {κ : Type w} {f : α → List β} {key : α → κ}
    (keyOf : β → κ) (hkeys : (l.map key).Nodup) (hkey : ∀ a ∈ l, ∀ b ∈ f a, keyOf b = key a)
    (hnodup : ∀ a ∈ l, (f a).Nodup) : (l.flatMap f).Nodup := by
  apply nodup_flatMap.mpr
  refine ⟨hnodup, ?_⟩
  have hne : l.Pairwise fun a a' => key a ≠ key a' := pairwise_map.mp hkeys
  apply hne.imp_of_mem
  intro a a' ha ha' hdistinct b hb hb'
  exact hdistinct ((hkey a ha b hb).symm.trans (hkey a' ha' b hb'))

/-- The parts of a list by classes, one of which has each element. -/
theorem flatMap_filter_perm {classes : List β} {contains : β → α → Bool} (hnodup : classes.Nodup)
    (hunique : ∀ a ∈ l, ∃ c ∈ classes, contains c a = true ∧
      ∀ c' ∈ classes, contains c' a = true → c' = c) :
    (classes.flatMap fun c => l.filter (contains c)).Perm l := by
  induction l with
  | nil => simp
  | cons a l ih =>
    obtain ⟨c, hc, hcontains, hothers⟩ := hunique a mem_cons_self
    have hsplit : ∀ c, (a :: l).filter (contains c) =
        (if contains c a = true then [a] else []) ++ l.filter (contains c) := by
      intro c
      rw [filter_cons]
      split
      · rfl
      · rfl
    have hone : (classes.flatMap fun c => if contains c a = true then [a] else []) = [a] := by
      rw [flatMap_eq_single hnodup hc, if_pos hcontains]
      intro c' hc' hne
      exact if_neg fun hcontains' => hne (hothers c' hc' hcontains')
    simp only [hsplit]
    refine (flatMap_append_perm classes _ _).symm.trans ?_
    rw [hone]
    exact List.Perm.cons a (ih fun a' ha' => hunique a' (mem_cons_of_mem _ ha'))

variable {f : α → Option β}

theorem mapM_eq_some {g : α → β} (h : ∀ a ∈ l, f a = some (g a)) :
    l.mapM f = some (l.map g) := by
  induction l with
  | nil => rfl
  | cons a l ih =>
    rw [mapM_cons, h a mem_cons_self, ih fun a' ha' => h a' (mem_cons_of_mem _ ha')]
    rfl

variable {l' : List β}

theorem getElem?_of_mapM (h : l.mapM f = some l') (i : Nat) : l'[i]? = l[i]?.bind f := by
  induction l generalizing l' i with
  | nil =>
    cases h
    rfl
  | cons a l ih =>
    rw [mapM_cons] at h
    cases hhead : f a with
    | none =>
      rw [hhead] at h
      cases h
    | some b =>
      cases htail : l.mapM f with
      | none =>
        rw [hhead, htail] at h
        cases h
      | some bs =>
        rw [hhead, htail] at h
        cases h
        cases i with
        | zero => exact hhead.symm
        | succ i => exact ih htail i

theorem mapM_isSome (h : ∀ a ∈ l, (f a).isSome) :
    (l.mapM f).isSome := by
  induction l with
  | nil => rfl
  | cons a l ih =>
    obtain ⟨b, hb⟩ := Option.isSome_iff_exists.mp (h a mem_cons_self)
    obtain ⟨bs, hbs⟩ :=
      Option.isSome_iff_exists.mp (ih fun a' ha' => h a' (mem_cons_of_mem _ ha'))
    rw [mapM_cons, hb, hbs]
    rfl

theorem map_of_mapM {δ : Type w} (h : l.mapM f = some l') {g : α → δ} {g' : β → δ}
    (hg : ∀ a ∈ l, ∀ b, f a = some b → g' b = g a) : l'.map g' = l.map g := by
  induction l generalizing l' with
  | nil =>
    cases h
    rfl
  | cons a l ih =>
    rw [mapM_cons] at h
    obtain ⟨b, hb, h⟩ := Option.bind_eq_some_iff.mp h
    obtain ⟨bs, hbs, h⟩ := Option.bind_eq_some_iff.mp h
    cases h
    rw [map_cons, map_cons, hg a mem_cons_self b hb,
      ih hbs fun a' ha' => hg a' (mem_cons_of_mem _ ha')]

theorem mem_of_mapM (h : l.mapM f = some l') {b : β} (hb : b ∈ l') : ∃ a ∈ l, f a = some b := by
  obtain ⟨i, hi⟩ := mem_iff_getElem?.mp hb
  rw [getElem?_of_mapM h] at hi
  obtain ⟨a, ha, hf⟩ := Option.bind_eq_some_iff.mp hi
  exact ⟨a, mem_of_getElem? ha, hf⟩

theorem exists_mem_of_mapM_some
    (h : l.mapM f = some l') {a : α} (ha : a ∈ l) : ∃ b ∈ l', f a = some b := by
  obtain ⟨i, hi⟩ := mem_iff_getElem?.mp ha
  have hb := getElem?_of_mapM h i
  rw [hi, Option.bind_some] at hb
  cases hf : f a with
  | some b => exact ⟨b, mem_of_getElem? (hb.trans hf), rfl⟩
  | none =>
    -- a traversal with a step that gives up gives up
    have hlength : l'.length = l.length := by
      clear hb hf hi ha
      induction l generalizing l' with
      | nil =>
        cases h
        rfl
      | cons head l ih =>
        rw [mapM_cons] at h
        obtain ⟨b, _, h⟩ := Option.bind_eq_some_iff.mp h
        obtain ⟨bs, hbs, h⟩ := Option.bind_eq_some_iff.mp h
        cases h
        rw [length_cons, length_cons, ih hbs]
    rw [hf, List.getElem?_eq_none_iff, hlength] at hb
    obtain ⟨hlt, _⟩ := List.getElem?_eq_some_iff.mp hi
    omega

theorem lookup_of_mem_nodup {κ : Type u} [BEq κ] [LawfulBEq κ] {l : List (κ × β)}
    (hkeys : (l.map Prod.fst).Nodup) {entry : κ × β} (hmem : entry ∈ l) :
    l.lookup entry.1 = some entry.2 := by
  induction l with
  | nil => exact nomatch hmem
  | cons head l ih =>
    obtain ⟨hhead, htail⟩ := nodup_cons.mp hkeys
    cases mem_cons.mp hmem with
    | inl heq => rw [heq, lookup_cons, beq_self_eq_true]
    | inr hmem =>
      have hne : (entry.1 == head.1) = false := by
        refine beq_false_of_ne fun heq => hhead ?_
        rw [← heq]
        exact mem_map_of_mem hmem
      rw [lookup_cons, hne]
      exact ih htail hmem

end Xllm.Lib
