import Xllm.Lib.Outcome

/-!
# Runs of a step function that may stop

A system is a step function `step : σ → ι → Except ε σ` over inputs `ι`: each input either takes
the state to the next one or stops the system with an error. `Reaches step s is s'` says that the
inputs `is`, taken one after the other, lead from `s` to `s'`. An invariant is proved once for a
step and holds over every run (`Reaches.invariant`); a property of steps that hold only when
the input is acceptable in the state it meets is carried by `ReachesWith`.
-/

namespace Xllm.Lib

universe u v w

variable {ε : Type u} {σ : Type v} {ι : Type w}

/-- The states a run passes through: `is` leads from `s` to `s'`, and every input was acceptable
(`ok`) in the state it was taken in. -/
inductive ReachesWith (step : σ → ι → Except ε σ) (ok : σ → ι → Prop) : σ → List ι → σ → Prop
  | refl (s : σ) : ReachesWith step ok s [] s
  | snoc {s s' s'' : σ} {is : List ι} {i : ι} (run : ReachesWith step ok s is s')
      (acceptable : ok s' i) (next : step s' i = .ok s'') : ReachesWith step ok s (is ++ [i]) s''

abbrev Reaches (step : σ → ι → Except ε σ) : σ → List ι → σ → Prop :=
  ReachesWith step (fun _ _ => True)

variable {step : σ → ι → Except ε σ} {ok : σ → ι → Prop} {I : σ → Prop} {s s' : σ} {is : List ι}

/-- Induction over a run: what holds at the start and is kept by every acceptable step holds in
every state reached. -/
theorem ReachesWith.invariant (keep : ∀ s i s', I s → ok s i → step s i = .ok s' → I s')
    (run : ReachesWith step ok s is s') (start : I s) : I s' := by
  induction run with
  | refl => exact start
  | snoc _ acceptable next ih => exact keep _ _ _ ih acceptable next

/-- A run goes on from where another ended. -/
theorem ReachesWith.trans {s'' : σ}
    {js : List ι} (run : ReachesWith step ok s is s') (rest : ReachesWith step ok s' js s'') :
    ReachesWith step ok s (is ++ js) s'' := by
  induction rest with
  | refl =>
    rw [List.append_nil]
    exact run
  | snoc _ acceptable next ih =>
    rw [← List.append_assoc]
    exact .snoc ih acceptable next

theorem ReachesWith.single {i : ι}
    (acceptable : ok s i) (next : step s i = .ok s') : ReachesWith step ok s [i] s' :=
  .snoc (.refl s) acceptable next

theorem ReachesWith.mono {ok' : σ → ι → Prop}
    (h : ∀ s i, ok s i → ok' s i) (run : ReachesWith step ok s is s') :
    ReachesWith step ok' s is s' := by
  induction run with
  | refl => exact .refl _
  | snoc _ acceptable next ih => exact .snoc ih (h _ _ acceptable) next

/-- What every input of a run satisfies holds where it is taken. -/
theorem ReachesWith.withInputs {P : ι → Prop}
    (run : ReachesWith step ok s is s') (h : ∀ i ∈ is, P i) :
    ReachesWith step (fun s i => ok s i ∧ P i) s is s' := by
  induction run with
  | refl => exact .refl _
  | snoc _ acceptable next ih =>
    have hlast := h _ (List.mem_append.mpr (Or.inr List.mem_cons_self))
    exact .snoc (ih fun i hi => h i (List.mem_append.mpr (Or.inl hi))) ⟨acceptable, hlast⟩ next

/-- A run in which every step raises a bounded measure can be carried on until no input is taken
any more. -/
theorem ReachesWith.exists_final
    (keep : ∀ s i s', I s → ok s i → step s i = .ok s' → I s') (measure : σ → Nat) {M : Nat}
    (bounded : ∀ s, I s → measure s ≤ M)
    (rise : ∀ s i s', I s → ok s i → step s i = .ok s' → measure s < measure s')
    (start : I s) : ∃ is s', ReachesWith step ok s is s' ∧
      ∀ i s'', ok s' i → step s' i ≠ .ok s'' := by
  -- by induction on what the measure can still rise
  induction hrest : M - measure s using Nat.strongRecOn generalizing s with
  | ind rest ih =>
    by_cases hnext : ∃ i s', ok s i ∧ step s i = .ok s'
    · obtain ⟨i, s', acceptable, next⟩ := hnext
      have start' := keep s i s' start acceptable next
      have hrise := rise s i s' start acceptable next
      have hbound := bounded s' start'
      obtain ⟨is, s'', run, final⟩ := ih (M - measure s') (by omega) start' rfl
      exact ⟨[i] ++ is, s'', (ReachesWith.single acceptable next).trans run, final⟩
    · refine ⟨[], s, .refl s, ?_⟩
      intro i s'' acceptable next
      exact hnext ⟨i, s'', acceptable, next⟩

/-! ## Where the present state comes from -/

/-- A run in which some input was an event `E`, and `K` has held in every state since. -/
inductive ReachesSince (step : σ → ι → Except ε σ) (ok : σ → ι → Prop) (E : σ → ι → Prop)
    (K : σ → Prop) : σ → List ι → σ → Prop
  | event {s s' s'' : σ} {is : List ι} {i : ι} (run : ReachesWith step ok s is s')
      (happened : E s' i) (acceptable : ok s' i) (next : step s' i = .ok s'') (kept : K s'') :
      ReachesSince step ok E K s (is ++ [i]) s''
  | keep {s s' s'' : σ} {is : List ι} {i : ι} (since : ReachesSince step ok E K s is s')
      (acceptable : ok s' i) (next : step s' i = .ok s'') (kept : K s'') :
      ReachesSince step ok E K s (is ++ [i]) s''

/-- What is present now and was not at the start came in with an event and has stayed: it is
enough that one step only brings in what its input is an event for. -/
theorem ReachesWith.since {α : Type w} {K : α → σ → Prop} {E : α → σ → ι → Prop}
    (keep : ∀ s i s', I s → ok s i → step s i = .ok s' → I s')
    (enter : ∀ s i s', I s → ok s i → step s i = .ok s' → ∀ a, K a s' → K a s ∨ E a s i)
    (run : ReachesWith step ok s is s') (start : I s)
    (absent : ∀ a, ¬ K a s) {a : α} (h : K a s') : ReachesSince step ok (E a) (K a) s is s' := by
  induction run with
  | refl => exact absurd h (absent a)
  | snoc run acceptable next ih =>
    rcases enter _ _ _ (run.invariant keep start) acceptable next a h with hold | hnew
    · exact .keep (ih hold) acceptable next h
    · exact .event run hnew acceptable next h

/-- An event of one of several kinds was an event of some kind. -/
theorem ReachesSince.of_exists {β : Type w} {E : β → σ → ι → Prop} {K : σ → Prop}
    (h : ReachesSince step ok (fun t i => ∃ b, E b t i) K s is s') :
    ∃ b, ReachesSince step ok (E b) K s is s' := by
  induction h with
  | event run happened acceptable next kept =>
    obtain ⟨b, hb⟩ := happened
    exact ⟨b, .event run hb acceptable next kept⟩
  | keep _ acceptable next kept ih =>
    obtain ⟨b, hb⟩ := ih
    exact ⟨b, .keep hb acceptable next kept⟩

/-- What every event of the kind implies about things that never change. -/
theorem ReachesSince.exists_event {E : σ → ι → Prop}
    {K : σ → Prop} (h : ReachesSince step ok E K s is s') :
    ∃ is' t i, ReachesWith step ok s is' t ∧ ok t i ∧ E t i := by
  induction h with
  | event run happened acceptable => exact ⟨_, _, _, run, acceptable, happened⟩
  | keep _ _ _ _ ih => exact ih

/-! ## Computed runs -/

/-- A run computed by folding the step function. -/
theorem ReachesWith.of_foldlM (h : is.foldlM step s = .ok s') : Reaches step s is s' := by
  have go : ∀ (js : List ι) (pre : List ι) (t : σ), Reaches step s pre t →
      js.foldlM step t = .ok s' → Reaches step s (pre ++ js) s' := by
    intro js
    induction js with
    | nil =>
      intro pre t run hfold
      cases hfold
      rw [List.append_nil]
      exact run
    | cons j js ih =>
      intro pre t run hfold
      rw [List.foldlM_cons, bind_eq_ok] at hfold
      obtain ⟨t', hstep, hrest⟩ := hfold
      have := ih (pre ++ [j]) t' (.snoc run trivial hstep) hrest
      rwa [List.append_assoc] at this
  exact go is [] s (.refl s) h

/-- A computed run of inputs that were each acceptable, with what a test says about its end. -/
theorem ReachesWith.of_check [∀ s i, Decidable (ok s i)] (p : σ → Bool) :
    ∀ (s : σ) (is : List ι),
      (is.foldlM (fun s i => if ok s i then (step s i).toOption else none) s).any p = true →
      ∃ s', ReachesWith step ok s is s' ∧ p s' = true := by
  have go : ∀ (js : List ι) (s : σ) (pre : List ι) (t : σ), ReachesWith step ok s pre t →
      (js.foldlM (fun s i => if ok s i then (step s i).toOption else none) t).any p = true →
      ∃ s', ReachesWith step ok s (pre ++ js) s' ∧ p s' = true := by
    intro js
    induction js with
    | nil =>
      intro s pre t run h
      rw [List.append_nil]
      exact ⟨t, run, h⟩
    | cons j js ih =>
      intro s pre t run h
      rw [List.foldlM_cons] at h
      by_cases hok : ok t j
      · rw [if_pos hok] at h
        cases hnext : step t j with
        | error e =>
          rw [hnext] at h
          cases h
        | ok t' =>
          rw [hnext] at h
          obtain ⟨s', run', hp⟩ := ih s (pre ++ [j]) t' (.snoc run hok hnext) h
          rw [List.append_assoc] at run'
          exact ⟨s', run', hp⟩
      · rw [if_neg hok] at h
        cases h
  intro s is h
  exact go is s [] s (.refl s) h

/-- Inputs that are acceptable in every state. -/
theorem Reaches.acceptable (run : Reaches step s is s') (h : ∀ i ∈ is, ∀ t, ok t i) :
    ReachesWith step ok s is s' := by
  induction run with
  | refl => exact .refl _
  | snoc _ _ next ih =>
    exact .snoc (ih fun i hi => h i (List.mem_append.mpr (Or.inl hi)))
      (h _ (List.mem_append.mpr (Or.inr List.mem_cons_self)) _) next

/-- A run whose inputs were all taken reaches some state. -/
theorem Reaches.of_isOk (step : σ → ι → Except ε σ) (s : σ) (is : List ι)
    (h : (is.foldlM step s).isOk = true) : ∃ s', Reaches step s is s' := by
  cases hrun : is.foldlM step s with
  | ok s' => exact ⟨s', .of_foldlM hrun⟩
  | error e => rw [hrun] at h; exact nomatch h

end Xllm.Lib
