import Mathlib.Computability.MyhillNerode

/-!
# Left quotients of languages, and automata whose states are residuals

The left quotient of a language by a letter is what may follow that letter. Mathlib has the
quotient and the Kleene algebra of languages; here are the rules that push a quotient through sums,
products and stars, and the emptiness-of-word tests they need.

An automaton given by a partial step function recognises a language when each of its states has a
residual language, a step is a quotient, and a state accepts when its residual has the empty word
(`Residual`). Nothing is asked of the number of states, so the automaton may have a stack.
-/

namespace Xllm.Lib

open List

open scoped Computability

universe u v

variable {α : Type u}

/-! ## Quotients by a letter -/

/-- The letters that pass a test, as words. -/
def oneOf (p : α → Bool) : Language α := {w | ∃ a, p a = true ∧ w = [a]}

def word (w : List α) : Language α := {w}

section

variable {L M : Language α} {a : α}

theorem cons_mem_iff {z : List α} : a :: z ∈ L ↔ z ∈ L.leftQuotient [a] := Iff.rfl

theorem leftQuotient_one : (1 : Language α).leftQuotient [a] = 0 := by
  ext z
  simp

theorem leftQuotient_add : (L + M).leftQuotient [a] = L.leftQuotient [a] + M.leftQuotient [a] :=
  rfl

/-- In a product the letter is read by the first factor, unless that factor may be skipped. -/
theorem mem_leftQuotient_mul {z : List α} :
    z ∈ (L * M).leftQuotient [a] ↔
      z ∈ L.leftQuotient [a] * M ∨ ([] ∈ L ∧ z ∈ M.leftQuotient [a]) := by
  rw [Language.mem_leftQuotient, Language.mem_mul, Language.mem_mul]
  constructor
  · rintro ⟨x, hx, y, hy, hxy⟩
    cases x with
    | nil =>
      right
      refine ⟨hx, ?_⟩
      rw [nil_append] at hxy
      rw [hxy] at hy
      exact hy
    | cons b x =>
      left
      rw [singleton_append, cons_append, List.cons.injEq] at hxy
      obtain ⟨rfl, hxy⟩ := hxy
      exact ⟨x, hx, y, hy, hxy⟩
  · rintro (⟨x, hx, y, hy, rfl⟩ | ⟨hnil, hz⟩)
    · exact ⟨a :: x, hx, y, hy, rfl⟩
    · exact ⟨[], hnil, a :: z, hz, rfl⟩

theorem leftQuotient_mul (h : [] ∉ L) : (L * M).leftQuotient [a] = L.leftQuotient [a] * M := by
  ext z
  rw [mem_leftQuotient_mul]
  constructor
  · rintro (hz | ⟨hnil, -⟩)
    · exact hz
    · exact absurd hnil h
  · exact Or.inl

theorem leftQuotient_mul_of_nil (h : [] ∈ L) :
    (L * M).leftQuotient [a] = L.leftQuotient [a] * M + M.leftQuotient [a] := by
  ext z
  rw [mem_leftQuotient_mul, Language.mem_add]
  exact or_congr_right (and_iff_right h)

theorem leftQuotient_kstar : (L∗).leftQuotient [a] = L.leftQuotient [a] * L∗ := by
  ext z
  rw [Language.mem_leftQuotient, Language.mem_mul, Language.mem_kstar_iff_exists_nonempty]
  constructor
  · rintro ⟨S, hS, hmem⟩
    cases S with
    | nil => exact nomatch hS
    | cons x S =>
      obtain ⟨hx, hne⟩ := hmem x mem_cons_self
      cases x with
      | nil => exact absurd rfl hne
      | cons b x =>
        rw [singleton_append, flatten_cons, cons_append, List.cons.injEq] at hS
        obtain ⟨rfl, hS⟩ := hS
        exact ⟨x, hx, S.flatten, Language.join_mem_kstar fun y hy =>
          (hmem y (mem_cons_of_mem _ hy)).1, hS.symm⟩
  · rintro ⟨x, hx, y, hy, rfl⟩
    rw [Language.mem_kstar_iff_exists_nonempty] at hy
    obtain ⟨S, rfl, hmem⟩ := hy
    refine ⟨(a :: x) :: S, rfl, fun y hy => ?_⟩
    rcases mem_cons.mp hy with rfl | hy
    · exact ⟨hx, by simp⟩
    · exact hmem y hy

theorem leftQuotient_oneOf (p : α → Bool) :
    (oneOf p).leftQuotient [a] = if p a = true then 1 else 0 := by
  ext z
  constructor
  · rintro ⟨b, hb, hz⟩
    rw [singleton_append, List.cons.injEq] at hz
    rw [hz.1, if_pos hb, hz.2]
    exact Language.nil_mem_one
  · intro hz
    split at hz
    · rename_i ha
      exact ⟨a, ha, by rw [hz, append_nil]⟩
    · exact absurd hz (Language.notMem_zero z)

theorem leftQuotient_word_cons [DecidableEq α] (b : α) (w : List α) :
    (word (b :: w)).leftQuotient [a] = if b = a then word w else 0 := by
  ext z
  constructor
  · intro hz
    have hz : a :: z = b :: w := hz
    rw [List.cons.injEq] at hz
    rw [if_pos hz.1.symm]
    exact hz.2
  · intro hz
    split at hz
    · rename_i hb
      rw [hz, ← hb]
      exact rfl
    · exact absurd hz (Language.notMem_zero z)

end

/-! ## The empty word -/

section

variable {L M : Language α}

theorem nil_mem_mul : [] ∈ L * M ↔ [] ∈ L ∧ [] ∈ M := by
  constructor
  · rintro ⟨x, hx, y, hy, hxy⟩
    rw [append_eq_nil_iff] at hxy
    obtain ⟨rfl, rfl⟩ := hxy
    exact ⟨hx, hy⟩
  · rintro ⟨hx, hy⟩
    exact ⟨[], hx, [], hy, rfl⟩

theorem nil_notMem_oneOf (p : α → Bool) : [] ∉ oneOf p := by
  rintro ⟨a, -, h⟩
  cases h

theorem nil_mem_word {w : List α} : [] ∈ word w ↔ w = [] := by
  constructor
  · intro h
    exact h.symm
  · rintro rfl
    exact rfl

theorem one_eq_word : (1 : Language α) = word [] := rfl

end

/-! ## Words over a part of the alphabet -/

/-- The language has a word all of whose letters satisfy `p`. -/
def HasWord (p : α → Prop) (L : Language α) : Prop := ∃ w ∈ L, ∀ a ∈ w, p a

section

variable {L M : Language α} {p : α → Prop}

theorem HasWord.mul (hL : HasWord p L) (hM : HasWord p M) : HasWord p (L * M) := by
  obtain ⟨x, hx, hpx⟩ := hL
  obtain ⟨y, hy, hpy⟩ := hM
  refine ⟨x ++ y, Language.append_mem_mul hx hy, fun a ha => ?_⟩
  rcases mem_append.mp ha with ha | ha
  · exact hpx a ha
  · exact hpy a ha

theorem HasWord.left (hL : HasWord p L) (M : Language α) : HasWord p (L + M) := by
  obtain ⟨x, hx, hpx⟩ := hL
  exact ⟨x, Or.inl hx, hpx⟩

theorem HasWord.of_nil (h : [] ∈ L) : HasWord p L := ⟨[], h, nofun⟩

theorem HasWord.word {w : List α} (h : ∀ a ∈ w, p a) : HasWord p (word w) := ⟨w, rfl, h⟩

theorem HasWord.oneOf {q : α → Bool} {a : α} (ha : q a = true) (hp : p a) :
    HasWord p (oneOf q) :=
  ⟨[a], ⟨a, ha, rfl⟩, fun b hb => by rw [mem_singleton] at hb; rw [hb]; exact hp⟩

end

/-! ## Residual automata -/

/-- Every state that satisfies the invariant has a residual language: a step is a left quotient, no
step an empty one, and `accept` says whether the empty word is left. -/
structure Residual {σ : Type v} (step : σ → α → Option σ) (I : σ → Prop) (R : σ → Language α)
    (accept : σ → Prop) : Prop where
  nil : ∀ s, I s → ([] ∈ R s ↔ accept s)
  next : ∀ s a s', I s → step s a = some s' → I s' ∧ (R s).leftQuotient [a] = R s'
  stuck : ∀ s a, I s → step s a = none → (R s).leftQuotient [a] = 0

namespace Residual

variable {σ : Type v} {step : σ → α → Option σ} {I : σ → Prop} {R : σ → Language α}
  {accept : σ → Prop}

/-- Reading a word leaves its quotient. -/
theorem run (h : Residual step I R accept) : ∀ (w : List α) (s s' : σ), I s →
    w.foldlM step s = some s' → I s' ∧ (R s).leftQuotient w = R s' := by
  intro w
  induction w with
  | nil =>
    intro s s' hs hrun
    cases hrun
    exact ⟨hs, Language.leftQuotient_nil _⟩
  | cons a w ih =>
    intro s s' hs hrun
    rw [foldlM_cons] at hrun
    cases hstep : step s a with
    | none => rw [hstep] at hrun; exact nomatch hrun
    | some t =>
      rw [hstep] at hrun
      obtain ⟨ht, hquot⟩ := h.next s a t hs hstep
      obtain ⟨hs', hrest⟩ := ih t s' ht hrun
      refine ⟨hs', ?_⟩
      calc (R s).leftQuotient (a :: w) = ((R s).leftQuotient [a]).leftQuotient w :=
            Language.leftQuotient_append (R s) [a] w
        _ = (R t).leftQuotient w := by rw [hquot]
        _ = R s' := hrest

/-- A word that cannot be read is no prefix of the residual. -/
theorem run_none (h : Residual step I R accept) : ∀ (w : List α) (s : σ), I s →
    w.foldlM step s = none → ∀ z, w ++ z ∉ R s := by
  intro w
  induction w with
  | nil => intro s _ hrun; exact nomatch hrun
  | cons a w ih =>
    intro s hs hrun z hz
    rw [foldlM_cons] at hrun
    have hz : w ++ z ∈ (R s).leftQuotient [a] := hz
    cases hstep : step s a with
    | none =>
      rw [h.stuck s a hs hstep] at hz
      exact Language.notMem_zero _ hz
    | some t =>
      rw [hstep] at hrun
      obtain ⟨ht, hquot⟩ := h.next s a t hs hstep
      rw [hquot] at hz
      exact ih t ht hrun z hz

end Residual

end Xllm.Lib
