import Xllm.Scheduler.TimePredictor

/-!
# Budgets and lengths

The root inverts the prediction where its formula takes the coefficients as the prediction does,
divides by something and fits the integer it returns. With prefix profiling it takes them so; the
powers of the length are taken in the other order, so there the result is right only where no
length tells the two orders apart (`getQuadraticRoot_inverts_iff`).
-/

namespace Xllm.Scheduler.TimePredictor

open Xllm.Lib

variable {predictor : TimePredictor}

/-! ## The prediction is a quadratic -/

/-- The coefficients of the predicted time as a quadratic in the length behind the prefix. -/
noncomputable def costTerms (predictor : TimePredictor) (prefixLength : Int) : ℝ × ℝ × ℝ :=
  if predictor.ifProfilePrefix then
    (predictor.coefficient 1, predictor.coefficient 2 + predictor.coefficient 3 * prefixLength,
      predictor.coefficient 4 * prefixLength)
  else (predictor.coefficient 2, predictor.coefficient 1, 0)

/-- As after a fit. -/
def NonNeg (predictor : TimePredictor) : Prop := ∀ i, 0 ≤ predictor.coefficient i

theorem checkNonNeg_nonneg (coefficient : Option ℝ) : 0 ≤ checkNonNeg coefficient := by
  cases coefficient with
  | none => exact le_refl _
  | some coefficient =>
    show 0 ≤ if coefficient < 0 then 0 else coefficient
    split
    · exact le_refl _
    next hnonneg => exact not_lt.mp hnonneg

theorem nonNeg_of_checked {coefficients : List (Option ℝ)}
    (h : predictor.coefficients = coefficients.map checkNonNeg) : predictor.NonNeg := by
  intro i
  unfold coefficient
  rw [h, List.getD_eq_getElem?_getD, List.getElem?_map]
  cases coefficients[i]? with
  | none => exact le_refl _
  | some coefficient => exact checkNonNeg_nonneg coefficient

theorem fitForPrefill_nonNeg (solve : Solve) (data : List (Int × ℝ)) :
    (fitForPrefill solve data).NonNeg := nonNeg_of_checked rfl

theorem fitForPrefillPrefix_nonNeg (solve : Solve) (data : List (Int × Int × ℝ)) :
    (fitForPrefillPrefix solve data).NonNeg := nonNeg_of_checked rfl

section

variable (hprefill : predictor.isPrefill = true) (hnonneg : predictor.NonNeg) {p : Int}
  (hp : 0 ≤ p)

include hnonneg hp in
theorem costTerms_nonneg : 0 ≤ (predictor.costTerms p).1 ∧ 0 ≤ (predictor.costTerms p).2.1 ∧
    0 ≤ (predictor.costTerms p).2.2 := by
  have hp' : (0 : ℝ) ≤ p := Int.cast_nonneg hp
  unfold costTerms
  split
  · exact ⟨hnonneg 1, add_nonneg (hnonneg 2) (mul_nonneg (hnonneg 3) hp'),
      mul_nonneg (hnonneg 4) hp'⟩
  · exact ⟨hnonneg 2, hnonneg 1, le_refl _⟩

include hprefill in
theorem coefficients_of_powers (hpowers : predictor.ifProfilePrefix = false) :
    predictor.coefficients =
      [predictor.coefficient 0, predictor.coefficient 1, predictor.coefficient 2] := by
  have hsize := predictor.size
  rw [hpowers, hprefill] at hsize
  obtain ⟨x, y, z, hcoefficients⟩ := List.length_eq_three.mp hsize
  unfold coefficient
  rw [hcoefficients]
  rfl

include hprefill hnonneg hp

theorem predictTime_eq {length : Int} (hlength : p ≤ length) :
    predictor.predictTime length p false =
      (predictor.costTerms p).1 * ((length - p : Int) : ℝ) ^ 2 +
        (predictor.costTerms p).2.1 * ((length - p : Int) : ℝ) + (predictor.costTerms p).2.2 := by
  obtain ⟨hA, hB, hC⟩ := costTerms_nonneg hnonneg hp
  have hquadratic := quadratic_nonneg hA hB (length - p) (Int.sub_nonneg.mpr hlength)
  have hresult : (if predictor.ifProfilePrefix then
        (0 : ℝ) + (predictor.coefficient 1 * ((length - p : Int) : ℝ) * ((length - p : Int) : ℝ) +
          predictor.coefficient 2 * ((length - p : Int) : ℝ) +
          predictor.coefficient 3 * ((length - p : Int) : ℝ) * p + predictor.coefficient 4 * p)
      else predictPowers (predictor.coefficients.drop 1) ((length - p : Int) : ℝ) 0) =
      (predictor.costTerms p).1 * ((length - p : Int) : ℝ) ^ 2 +
        (predictor.costTerms p).2.1 * ((length - p : Int) : ℝ) + (predictor.costTerms p).2.2 := by
    unfold costTerms
    split
    · ring
    next hpowers =>
      rw [coefficients_of_powers hprefill (Bool.eq_false_iff.mpr hpowers)]
      unfold predictPowers
      simp only [List.drop_succ_cons, List.drop_zero, List.foldl_cons, List.foldl_nil]
      ring
  unfold predictTime
  dsimp only
  rw [if_neg Bool.false_ne_true, hresult, if_neg]
  linarith

/-! ## The root -/

/-- The lengths within a budget. -/
def Within (predictor : TimePredictor) (p : Int) (budget : ℝ) : Set Int :=
  {length | p ≤ length ∧ predictor.predictTime length p false ≤ budget}

theorem mem_within_iff {budget : ℝ} {length : Int} :
    length ∈ predictor.Within p budget ↔ 0 ≤ length - p ∧
      (predictor.costTerms p).1 * ((length - p : Int) : ℝ) ^ 2 +
        (predictor.costTerms p).2.1 * ((length - p : Int) : ℝ) ≤
          budget - (predictor.costTerms p).2.2 := by
  constructor
  · intro h
    have hcost := h.2
    rw [predictTime_eq hprefill hnonneg hp h.1] at hcost
    exact ⟨Int.sub_nonneg.mpr h.1, by linarith⟩
  · intro h
    have hlength := Int.sub_nonneg.mp h.1
    refine ⟨hlength, ?_⟩
    rw [predictTime_eq hprefill hnonneg hp hlength]
    linarith [h.2]

omit hprefill hnonneg hp in
theorem rootTerms_eq (budget : ℝ) :
    (predictor.rootTerms p budget).2.2 = (predictor.costTerms p).2.2 - budget ∧
    (if predictor.ifProfilePrefix then
        (predictor.rootTerms p budget).1 = (predictor.costTerms p).1 ∧
          (predictor.rootTerms p budget).2.1 = (predictor.costTerms p).2.1
      else (predictor.rootTerms p budget).1 = (predictor.costTerms p).2.1 ∧
        (predictor.rootTerms p budget).2.1 = (predictor.costTerms p).1) := by
  unfold rootTerms costTerms
  split
  · exact ⟨rfl, rfl, rfl⟩
  · exact ⟨(zero_sub budget).symm, rfl, rfl⟩

/-! ### What is returned -/

omit hnonneg in
theorem getQuadraticRoot_spec {budget a b c : ℝ} (hterms : predictor.rootTerms p budget = (a, b, c))
    (ha : 0 < a) (hb : 0 ≤ b) :
    (0 < c → predictor.getQuadraticRoot p budget = .returned p) ∧
    (c ≤ 0 → predictor.getQuadraticRoot p budget =
      if ⌊greaterRoot a b c⌋ + p ≤ int32Max then .returned (⌊greaterRoot a b c⌋ + p)
      else .outOfRange) := by
  have hne : 2 * a ≠ 0 := by positivity
  have hroot : 0 ≤ b * b - 4 * a * c → predictor.getQuadraticRoot p budget =
      if 0 ≤ greaterRoot a b c then
        if ⌊greaterRoot a b c⌋ ≤ int32Max ∧ ⌊greaterRoot a b c⌋ + p ≤ int32Max then
          .returned (⌊greaterRoot a b c⌋ + p)
        else .outOfRange
      else .returned p := by
    intro hdiscrim
    unfold getQuadraticRoot divide
    rw [hterms, hprefill, if_neg Bool.false_ne_true.symm]
    dsimp only
    rw [if_neg (not_lt.mpr hdiscrim), if_neg hne]
    rfl
  constructor
  · intro hc
    by_cases hdiscrim : b * b - 4 * a * c < 0
    · unfold getQuadraticRoot
      rw [hterms, hprefill, if_neg Bool.false_ne_true.symm]
      dsimp only
      rw [if_pos hdiscrim]
    · have hneg := greaterRoot_neg ha hb hc (not_lt.mp hdiscrim)
      rw [hroot (not_lt.mp hdiscrim), if_neg (not_le.mpr hneg)]
  · intro hc
    have hdiscrim : 0 ≤ b * b - 4 * a * c := by
      have h4 := mul_nonpos_of_nonneg_of_nonpos (by positivity : 0 ≤ 4 * a) hc
      linarith [mul_nonneg hb hb]
    rw [hroot hdiscrim, if_pos (greaterRoot_nonneg ha hb hc)]
    by_cases hfits : ⌊greaterRoot a b c⌋ + p ≤ int32Max
    · rw [if_pos hfits, if_pos ⟨by omega, hfits⟩]
    · rw [if_neg hfits, if_neg fun h => hfits h.2]

omit hnonneg hp in
/-- With a zero first coefficient the formula divides by zero. -/
theorem dividesByZero_iff (budget : ℝ) :
    predictor.DividesByZero p budget ↔ predictor.coefficient 1 = 0 := by
  have hfirst : (predictor.rootTerms p budget).1 = predictor.coefficient 1 := by
    unfold rootTerms
    split
    · rfl
    · rfl
  unfold DividesByZero
  dsimp only
  rw [hfirst]
  constructor
  · intro h
    linarith [h.2.2]
  · intro hzero
    rw [hzero]
    exact ⟨hprefill, by linarith [mul_self_nonneg (predictor.rootTerms p budget).2.1], by ring⟩

end

/-! ## The inverse -/

/-- The root inverts the prediction at a prefix and a budget. -/
structure Inverts (predictor : TimePredictor) (p : Int) (budget : ℝ) : Prop where
  divides : ¬ predictor.DividesByZero p budget
  converts : predictor.getQuadraticRoot p budget ≠ .outOfRange
  largest : (predictor.Within p budget).Nonempty → BddAbove (predictor.Within p budget) →
    ∃ length, predictor.getQuadraticRoot p budget = .returned length ∧
      IsGreatest (predictor.Within p budget) length
  none : predictor.Within p budget = ∅ → predictor.getQuadraticRoot p budget = .returned p

/-- No length behind the prefix tells the two orders of the coefficients apart. -/
def SwapUnseen (predictor : TimePredictor) (budget : ℝ) : Prop :=
  ∀ d : ℤ, 2 ≤ d →
    ¬ (min (predictor.coefficient 1) (predictor.coefficient 2) * (d : ℝ) ^ 2 +
          max (predictor.coefficient 1) (predictor.coefficient 2) * d ≤ budget ∧
        budget < max (predictor.coefficient 1) (predictor.coefficient 2) * (d : ℝ) ^ 2 +
          min (predictor.coefficient 1) (predictor.coefficient 2) * d)

/-- There is something to divide by, no length beyond `int32_t` is within the budget, and without
prefix profiling no length is within it for one order of the coefficients only. -/
def InvertsWhen (predictor : TimePredictor) (p : Int) (budget : ℝ) : Prop :=
  0 < predictor.coefficient 1 ∧ budget < predictor.predictTime (int32Max + 1) p false ∧
    (predictor.ifProfilePrefix = false → predictor.SwapUnseen budget)

theorem swapUnseen_iff (budget : ℝ) : predictor.SwapUnseen budget ↔
    ∀ d : ℤ, 0 ≤ d →
      (predictor.coefficient 1 * (d : ℝ) ^ 2 + predictor.coefficient 2 * d ≤ budget ↔
        predictor.coefficient 2 * (d : ℝ) ^ 2 + predictor.coefficient 1 * d ≤ budget) := by
  have hsmall : ∀ x y : ℝ, ∀ d : ℤ, 0 ≤ d → d < 2 →
      (x * (d : ℝ) ^ 2 + y * d ≤ budget ↔ y * (d : ℝ) ^ 2 + x * d ≤ budget) := by
    intro x y d hd hlt
    obtain rfl | rfl : d = 0 ∨ d = 1 := by omega
    · simp
    · simp [add_comm]
  have hiff : ∀ x y : ℝ, x ≤ y → ∀ d : ℤ, 2 ≤ d →
      (¬ (x * (d : ℝ) ^ 2 + y * d ≤ budget ∧ budget < y * (d : ℝ) ^ 2 + x * d) ↔
        (x * (d : ℝ) ^ 2 + y * d ≤ budget ↔ y * (d : ℝ) ^ 2 + x * d ≤ budget)) := by
    intro x y hxy d hd
    have hle := quadratic_swap_le hxy (by omega : 1 ≤ d)
    constructor
    · intro hnot
      exact ⟨fun h => not_lt.mp fun hlt => hnot ⟨h, hlt⟩, fun h => hle.trans h⟩
    · intro h hboth
      exact absurd (h.mp hboth.1) (not_le.mpr hboth.2)
  unfold SwapUnseen
  rcases le_total (predictor.coefficient 1) (predictor.coefficient 2) with hle | hle
  · rw [min_eq_left hle, max_eq_right hle]
    constructor
    · intro h d hd
      by_cases htwo : 2 ≤ d
      · exact (hiff _ _ hle d htwo).mp (h d htwo)
      · exact hsmall _ _ d hd (by omega)
    · exact fun h d htwo => (hiff _ _ hle d htwo).mpr (h d (by omega))
  · rw [min_eq_right hle, max_eq_left hle]
    constructor
    · intro h d hd
      by_cases htwo : 2 ≤ d
      · exact ((hiff _ _ hle d htwo).mp (h d htwo)).symm
      · exact hsmall _ _ d hd (by omega)
    · exact fun h d htwo => (hiff _ _ hle d htwo).mpr (h d (by omega)).symm

/-- The order is not seen exactly when the two quadratics are within the budget alike. -/
theorem order_unseen_iff (predictor : TimePredictor) (p : Int) (budget : ℝ) :
    (predictor.ifProfilePrefix = false → predictor.SwapUnseen budget) ↔
    ∀ d : ℤ, 0 ≤ d →
      ((predictor.rootTerms p budget).1 * (d : ℝ) ^ 2 + (predictor.rootTerms p budget).2.1 * d ≤
          budget - (predictor.costTerms p).2.2 ↔
        (predictor.costTerms p).1 * (d : ℝ) ^ 2 + (predictor.costTerms p).2.1 * d ≤
          budget - (predictor.costTerms p).2.2) := by
  unfold rootTerms costTerms
  cases hprofile : predictor.ifProfilePrefix with
  | true => exact ⟨fun _ _ _ => Iff.rfl, fun _ heq => Bool.noConfusion heq⟩
  | false =>
    rw [if_neg Bool.false_ne_true, if_neg Bool.false_ne_true]
    rw [sub_zero, ← swapUnseen_iff]
    exact ⟨fun h => h rfl, fun h _ => h⟩

section

variable (hprefill : predictor.isPrefill = true) (hnonneg : predictor.NonNeg) {p : Int}
  (hp : 0 ≤ p) (budget : ℝ)

include hprefill hnonneg hp

theorem inverts_iff_of_pos (hp' : p ≤ int32Max) (hpos : 0 < predictor.coefficient 1)
    (hbudget : (predictor.costTerms p).2.2 ≤ budget) :
    Inverts predictor p budget ↔ InvertsWhen predictor p budget := by
  obtain ⟨hA, hB, _⟩ := costTerms_nonneg hnonneg hp
  obtain ⟨hc, horder⟩ := @rootTerms_eq predictor p budget
  have hunseen := order_unseen_iff predictor p budget
  have hwithin := fun length =>
    @mem_within_iff predictor hprefill hnonneg p hp budget length
  have hcost := predictTime_eq hprefill hnonneg hp (by omega : p ≤ int32Max + 1)
  have hfirst : (predictor.rootTerms p budget).1 = predictor.coefficient 1 := by
    unfold rootTerms
    split
    · rfl
    · rfl
  obtain ⟨a, b, c, hterms⟩ : ∃ a b c, predictor.rootTerms p budget = (a, b, c) := ⟨_, _, _, rfl⟩
  obtain ⟨A, B, C, hcosts⟩ : ∃ A B C, predictor.costTerms p = (A, B, C) := ⟨_, _, _, rfl⟩
  rw [hterms, hcosts] at hc horder hunseen
  rw [hcosts] at hA hB hbudget hcost hwithin
  rw [hterms] at hfirst
  dsimp only at hc horder hunseen hA hB hbudget hcost hwithin hfirst
  have ha : 0 < a := hfirst ▸ hpos
  have hb : 0 ≤ b := by
    split at horder
    · exact horder.2 ▸ hB
    · exact horder.2 ▸ hA
  have hgrows : 0 < A + B := by
    split at horder
    · linarith [horder.1]
    · linarith [horder.1]
  have hc' : c ≤ 0 := by linarith
  have hroot : IsGreatest {d : ℤ | 0 ≤ d ∧ a * (d : ℝ) ^ 2 + b * d ≤ budget - C}
      ⌊greaterRoot a b c⌋ := by
    have hgreatest := isGreatest_floor_greaterRoot ha hb hc'
    have hset : ∀ d : ℤ, a * (d : ℝ) ^ 2 + b * d + c ≤ 0 ↔ a * (d : ℝ) ^ 2 + b * d ≤ budget - C :=
      fun d => ⟨fun h => by linarith, fun h => by linarith⟩
    simp only [hset] at hgreatest
    exact hgreatest
  have hreturned := (getQuadraticRoot_spec hprefill hp hterms ha hb).2 hc'
  generalize ⌊greaterRoot a b c⌋ = r at hroot hreturned
  have hrootIff := within_iff_le_of_isGreatest ha.le hb hroot
  have hwithinGreatest : IsGreatest (predictor.Within p budget) (r + p) ↔
      IsGreatest {d : ℤ | 0 ≤ d ∧ A * (d : ℝ) ^ 2 + B * d ≤ budget - C} r := by
    have hshift : ∀ d : ℤ, d + p ∈ predictor.Within p budget ↔
        0 ≤ d ∧ A * (d : ℝ) ^ 2 + B * d ≤ budget - C := by
      intro d
      have hmem := hwithin (d + p)
      rw [add_sub_cancel_right] at hmem
      exact hmem
    constructor
    · intro h
      exact ⟨(hshift r).mp h.1, fun d hd => Int.le_of_add_le_add_right (h.2 ((hshift d).mpr hd))⟩
    · intro h
      refine ⟨(hshift r).mpr h.1, fun length hlength => ?_⟩
      have hd := h.2 ((hwithin length).mp hlength)
      omega
  have hself : p ∈ predictor.Within p budget := by
    rw [hwithin, sub_self]
    exact ⟨le_refl _, by simpa using hbudget⟩
  constructor
  · intro h
    have hfits : r + p ≤ int32Max := by
      by_contra hnot
      rw [if_neg hnot] at hreturned
      exact h.converts hreturned
    rw [if_pos hfits] at hreturned
    have hbounded : BddAbove (predictor.Within p budget) := by
      obtain ⟨bound, hbound⟩ := bddAbove_within (x := budget - C) hA hB hgrows
      refine ⟨bound + p, fun length hlength => ?_⟩
      have hd := hbound ((hwithin length).mp hlength)
      omega
    obtain ⟨length, hlength, hgreatest⟩ := h.largest ⟨p, hself⟩ hbounded
    rw [hreturned] at hlength
    cases hlength
    have hcostIff := within_iff_le_of_isGreatest hA hB (hwithinGreatest.mp hgreatest)
    refine ⟨hpos, ?_, hunseen.mpr fun d hd => (hrootIff d hd).trans (hcostIff d hd).symm⟩
    -- the first length that does not fit costs more than the budget
    have hover := not_le.mp fun hle =>
      absurd ((hcostIff (int32Max + 1 - p) (by omega)).mp hle) (by omega)
    linarith
  · intro h
    have hsame := hunseen.mp h.2.2
    have hgreatest : IsGreatest {d : ℤ | 0 ≤ d ∧ A * (d : ℝ) ^ 2 + B * d ≤ budget - C} r := by
      refine ⟨⟨hroot.1.1, (hsame r hroot.1.1).mp hroot.1.2⟩, fun d hd => ?_⟩
      exact hroot.2 ⟨hd.1, (hsame d hd.1).mpr hd.2⟩
    have hcostIff := within_iff_le_of_isGreatest hA hB hgreatest
    have hfits : r + p ≤ int32Max := by
      by_contra hnot
      have hwithinLast := (hcostIff (int32Max + 1 - p) (by omega)).mpr (by omega)
      linarith [h.2.1]
    rw [if_pos hfits] at hreturned
    refine ⟨?_, ?_, fun _ _ => ⟨r + p, hreturned, hwithinGreatest.mpr hgreatest⟩, ?_⟩
    · rw [dividesByZero_iff hprefill]
      exact hpos.ne'
    · rw [hreturned]
      exact RootResult.noConfusion
    · intro hempty
      rw [hempty] at hself
      exact absurd hself (Set.notMem_empty p)

theorem inverts_iff_of_none (hp' : p ≤ int32Max) (hpos : 0 < predictor.coefficient 1)
    (hbudget : budget < (predictor.costTerms p).2.2) :
    Inverts predictor p budget ↔ InvertsWhen predictor p budget := by
  obtain ⟨hA, hB, hC⟩ := costTerms_nonneg hnonneg hp
  obtain ⟨hc, horder⟩ := @rootTerms_eq predictor p budget
  have hfirst : (predictor.rootTerms p budget).1 = predictor.coefficient 1 := by
    unfold rootTerms
    split
    · rfl
    · rfl
  have hb : 0 ≤ (predictor.rootTerms p budget).2.1 := by
    split at horder
    · exact horder.2 ▸ hB
    · exact horder.2 ▸ hA
  have hunseen := order_unseen_iff predictor p budget
  have hcost := predictTime_eq hprefill hnonneg hp (by omega : p ≤ int32Max + 1)
  have hlast := quadratic_nonneg hA hB (int32Max + 1 - p) (by omega)
  have hempty : predictor.Within p budget = ∅ := by
    apply Set.eq_empty_iff_forall_notMem.mpr
    intro length hlength
    obtain ⟨hd, hle⟩ := (mem_within_iff hprefill hnonneg hp).mp hlength
    have hnonneg' := quadratic_nonneg hA hB (length - p) hd
    linarith
  obtain ⟨a, b, c, hterms⟩ : ∃ a b c, predictor.rootTerms p budget = (a, b, c) := ⟨_, _, _, rfl⟩
  rw [hterms] at hc hfirst hb hunseen
  dsimp only at hc hfirst hb hunseen
  have ha : 0 < a := hfirst ▸ hpos
  have hreturned := (getQuadraticRoot_spec hprefill hp hterms ha hb).1 (by linarith)
  constructor
  · intro _
    refine ⟨hpos, by linarith, hunseen.mpr fun d hd => ?_⟩
    have hroot := quadratic_nonneg ha.le hb d hd
    have hcost' := quadratic_nonneg hA hB d hd
    exact ⟨fun h => by linarith, fun h => by linarith⟩
  · intro _
    refine ⟨?_, ?_, ?_, fun _ => hreturned⟩
    · rw [dividesByZero_iff hprefill]
      exact hpos.ne'
    · rw [hreturned]
      exact RootResult.noConfusion
    · intro hnonempty
      rw [hempty] at hnonempty
      exact absurd hnonempty Set.not_nonempty_empty

theorem inverts_iff (hp' : p ≤ int32Max) :
    Inverts predictor p budget ↔ InvertsWhen predictor p budget := by
  by_cases hpos : 0 < predictor.coefficient 1
  · rcases le_or_gt (predictor.costTerms p).2.2 budget with hbudget | hbudget
    · exact inverts_iff_of_pos hprefill hnonneg hp budget hp' hpos hbudget
    · exact inverts_iff_of_none hprefill hnonneg hp budget hp' hpos hbudget
  · have hzero : predictor.coefficient 1 = 0 := le_antisymm (not_lt.mp hpos) (hnonneg 1)
    constructor
    · exact fun h => absurd ((dividesByZero_iff hprefill budget).mpr hzero) h.divides
    · exact fun h => absurd h.1 hpos

omit hnonneg hp in
theorem getQuadraticRoot_of_zero (hzero : predictor.coefficient 1 = 0) :
    predictor.getQuadraticRoot p budget = .returned p := by
  obtain ⟨a, b, c, hterms⟩ : ∃ a b c, predictor.rootTerms p budget = (a, b, c) := ⟨_, _, _, rfl⟩
  have hdivides : predictor.DividesByZero p budget := (dividesByZero_iff hprefill budget).mpr hzero
  unfold DividesByZero at hdivides
  rw [hterms] at hdivides
  obtain ⟨_, hdiscrim, hdivisor⟩ := hdivides
  unfold getQuadraticRoot divide
  rw [hprefill, if_neg Bool.false_ne_true.symm, hterms]
  dsimp only
  rw [if_neg (not_lt.mpr hdiscrim), if_pos hdivisor]

theorem getQuadraticRoot_mono {budget' : ℝ} (hle : budget ≤ budget') {length length' : Int}
    (h : predictor.getQuadraticRoot p budget = .returned length)
    (h' : predictor.getQuadraticRoot p budget' = .returned length') : length ≤ length' := by
  obtain ⟨hA, hB, _⟩ := costTerms_nonneg hnonneg hp
  have hsame : ∀ x, ∃ c, predictor.rootTerms p x =
      (predictor.coefficient 1, (predictor.rootTerms p 0).2.1, c) ∧
        c = (predictor.costTerms p).2.2 - x := by
    intro x
    refine ⟨(predictor.rootTerms p x).2.2, ?_, rootTerms_eq x |>.1⟩
    unfold rootTerms
    split
    · rfl
    · rfl
  have hb : 0 ≤ (predictor.rootTerms p 0).2.1 := by
    have horder := (@rootTerms_eq predictor p 0).2
    split at horder
    · exact horder.2 ▸ hB
    · exact horder.2 ▸ hA
  by_cases hpos : 0 < predictor.coefficient 1
  · obtain ⟨c, hterms, hc⟩ := hsame budget
    obtain ⟨c', hterms', hc'⟩ := hsame budget'
    have hlast : c' ≤ c := by linarith
    have hspec := getQuadraticRoot_spec hprefill hp hterms hpos hb
    have hspec' := getQuadraticRoot_spec hprefill hp hterms' hpos hb
    -- at least the prefix is returned
    have hprefixLe : p ≤ length' := by
      rcases lt_or_ge 0 c' with hc'pos | hc'neg
      · rw [hspec'.1 hc'pos] at h'
        cases h'
        exact le_refl p
      · rw [hspec'.2 hc'neg] at h'
        have hfloor := Int.floor_nonneg.mpr (greaterRoot_nonneg hpos hb hc'neg)
        split at h'
        · cases h'
          omega
        · cases h'
    rcases lt_or_ge 0 c with hcpos | hcneg
    · rw [hspec.1 hcpos] at h
      cases h
      exact hprefixLe
    · rw [hspec.2 hcneg] at h
      rw [hspec'.2 (hlast.trans hcneg)] at h'
      have hfloor := Int.floor_le_floor (greaterRoot_mono (b := (predictor.rootTerms p 0).2.1)
        hpos hlast)
      split at h
      · split at h'
        · cases h
          cases h'
          omega
        · cases h'
      · cases h
  · have hzero : predictor.coefficient 1 = 0 := le_antisymm (not_lt.mp hpos) (hnonneg 1)
    rw [getQuadraticRoot_of_zero hprefill budget hzero] at h
    rw [getQuadraticRoot_of_zero hprefill budget' hzero] at h'
    cases h
    cases h'
    exact le_refl _

end

/-- For every predictor that a fit can leave and every prefix: at a budget the root inverts the
prediction if and only if `InvertsWhen` holds, and it does not decrease with the budget. -/
theorem getQuadraticRoot_inverts_iff (predictor : TimePredictor)
    (hprefill : predictor.isPrefill = true) (hnonneg : predictor.NonNeg) (p : Int) (hp : 0 ≤ p)
    (hp' : p ≤ int32Max) :
    (∀ budget, Inverts predictor p budget ↔ InvertsWhen predictor p budget) ∧
    ∀ budget budget' length length', budget ≤ budget' →
      predictor.getQuadraticRoot p budget = .returned length →
      predictor.getQuadraticRoot p budget' = .returned length' → length ≤ length' := by
  constructor
  · exact fun budget => inverts_iff hprefill hnonneg hp budget hp'
  · exact fun budget budget' length length' hle =>
      getQuadraticRoot_mono hprefill hnonneg hp budget hle

/-- Five features, of which only the square counts. -/
def squareCost : TimePredictor where
  coefficients := [0, 1, 0, 0, 0]
  ifProfilePrefix := true
  isPrefill := true
  size := rfl

theorem squareCost_nonNeg : squareCost.NonNeg := by
  intro i
  match i with
  | 0 | 2 | 3 | 4 => exact le_refl _
  | 1 => exact zero_le_one
  | _ + 5 => exact le_refl _

theorem squareCost_inverts_four :
    (squareCost.isPrefill = true ∧ squareCost.NonNeg) ∧ Inverts squareCost 0 4 := by
  refine ⟨⟨rfl, squareCost_nonNeg⟩, ?_⟩
  refine ((getQuadraticRoot_inverts_iff squareCost rfl squareCost_nonNeg 0 (le_refl 0)
    (by decide)).1 4).mpr ⟨zero_lt_one, ?_, fun heq => Bool.noConfusion heq⟩
  rw [predictTime_eq rfl squareCost_nonNeg (le_refl 0) (by decide)]
  show (4 : ℝ) < 1 * ((2147483648 - 0 : ℤ) : ℝ) ^ 2 +
    (0 + 0 * ((0 : ℤ) : ℝ)) * ((2147483648 - 0 : ℤ) : ℝ) + 0 * ((0 : ℤ) : ℝ)
  norm_num

/-- Three powers, of which only the length itself counts. -/
def lengthCost : TimePredictor where
  coefficients := [0, 1, 0]
  ifProfilePrefix := false
  isPrefill := true
  size := rfl

/-- Four lengths are within a budget of four, and two are returned. -/
theorem lengthCost_not_inverts_four :
    lengthCost.NonNeg ∧ lengthCost.getQuadraticRoot 0 4 = .returned 2 ∧
      lengthCost.predictTime 4 0 false = 4 ∧ ¬ Inverts lengthCost 0 4 := by
  have hnonneg : lengthCost.NonNeg := by
    intro i
    match i with
    | 0 | 2 => exact le_refl _
    | 1 => exact zero_le_one
    | _ + 3 => exact le_refl _
  have hcost : ∀ length : Int, 0 ≤ length →
      lengthCost.predictTime length 0 false = length := by
    intro length hlength
    rw [predictTime_eq rfl hnonneg (le_refl 0) hlength]
    show (0 : ℝ) * ((length - 0 : ℤ) : ℝ) ^ 2 + 1 * ((length - 0 : ℤ) : ℝ) + 0 = length
    ring
  have hfloor : ⌊greaterRoot 1 0 (-4)⌋ = 2 := by
    have hroot : greaterRoot 1 0 (-4) = 2 := by
      unfold greaterRoot
      rw [show (0 : ℝ) * 0 - 4 * 1 * -4 = 4 ^ 2 by norm_num, Real.sqrt_sq (by norm_num)]
      norm_num
    rw [hroot]
    exact Int.floor_ofNat 2
  have hreturned : lengthCost.getQuadraticRoot 0 4 = .returned 2 := by
    have hspec := (@getQuadraticRoot_spec lengthCost rfl 0 (le_refl 0) 4 1 0 (-4) rfl zero_lt_one
      (le_refl 0)).2 (by norm_num)
    rw [hspec, hfloor]
    rfl
  have hfour := hcost 4 (by decide)
  refine ⟨hnonneg, hreturned, hfour, fun h => ?_⟩
  obtain ⟨length, hlength, hgreatest⟩ := h.largest ⟨4, by decide, hfour.le⟩ ⟨4, by
    intro length hlength
    have hle := hlength.2
    rw [hcost length hlength.1] at hle
    exact_mod_cast hle⟩
  rw [hreturned] at hlength
  cases hlength
  exact absurd (hgreatest.2 ⟨by decide, hfour.le⟩ : (4 : Int) ≤ 2) (by decide)

end Xllm.Scheduler.TimePredictor
