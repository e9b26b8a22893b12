import Mathlib.Analysis.Real.Sqrt
import Mathlib.Tactic.Positivity

/-!
# The greatest integer at which a quadratic is not positive

A quadratic whose two first coefficients are not negative grows from zero on. So the integers from
zero on at which it is not positive are those up to its greater root, and the greatest of them is
the floor of that root (`isGreatest_floor_greaterRoot`).
-/

namespace Xllm.Lib

variable {a b c x : ℝ}

/-- The greater root of `a x² + b x + c`. -/
noncomputable def greaterRoot (a b c : ℝ) : ℝ :=
  (-b + √(b * b - 4 * a * c)) / (2 * a)

/-- Right of its axis the quadratic is not positive up to the greater root. -/
theorem quadratic_nonpos_iff (ha : 0 < a) (hdiscrim : 0 ≤ b * b - 4 * a * c)
    (hx : 0 ≤ 2 * a * x + b) : a * x ^ 2 + b * x + c ≤ 0 ↔ x ≤ greaterRoot a b c := by
  have hfour : 0 < 4 * a := by positivity
  have hroot : x ≤ greaterRoot a b c ↔ 2 * a * x + b ≤ √(b * b - 4 * a * c) := by
    unfold greaterRoot
    rw [le_div_iff₀ (by positivity : (0 : ℝ) < 2 * a)]
    constructor
    · intro h
      linarith
    · intro h
      linarith
  rw [hroot, Real.le_sqrt hx hdiscrim]
  constructor
  · intro h
    have hle := mul_nonpos_of_nonneg_of_nonpos hfour.le h
    linarith
  · intro h
    have hle : 4 * a * (a * x ^ 2 + b * x + c) ≤ 0 := by linarith
    exact nonpos_of_mul_nonpos_right hle hfour

section

variable (ha : 0 < a) (hb : 0 ≤ b)

include ha hb

theorem greaterRoot_nonneg (hc : c ≤ 0) : 0 ≤ greaterRoot a b c := by
  have hdiscrim : b * b ≤ b * b - 4 * a * c := by
    have := mul_nonpos_of_nonneg_of_nonpos (by positivity : 0 ≤ 4 * a) hc
    linarith
  have hsqrt : b ≤ √(b * b - 4 * a * c) := by
    apply Real.le_sqrt_of_sq_le
    rw [sq]
    exact hdiscrim
  exact div_nonneg (by linarith) (by positivity)

theorem greaterRoot_neg (hc : 0 < c) (hdiscrim : 0 ≤ b * b - 4 * a * c) :
    greaterRoot a b c < 0 := by
  have hpos : ¬ a * (0 : ℝ) ^ 2 + b * 0 + c ≤ 0 := by
    intro h
    linarith
  have hroot := quadratic_nonpos_iff (x := 0) ha hdiscrim (by linarith)
  exact not_le.mp fun h => hpos (hroot.mpr h)

/-- The greatest integer at which the quadratic is not positive. -/
theorem isGreatest_floor_greaterRoot (hc : c ≤ 0) :
    IsGreatest {d : ℤ | 0 ≤ d ∧ a * (d : ℝ) ^ 2 + b * d + c ≤ 0} ⌊greaterRoot a b c⌋ := by
  have hdiscrim : 0 ≤ b * b - 4 * a * c := by
    have h4 := mul_nonpos_of_nonneg_of_nonpos (by positivity : 0 ≤ 4 * a) hc
    have hbb := mul_nonneg hb hb
    linarith
  have hiff : ∀ d : ℤ, 0 ≤ d →
      (a * (d : ℝ) ^ 2 + b * d + c ≤ 0 ↔ d ≤ ⌊greaterRoot a b c⌋) := by
    intro d hd
    rw [quadratic_nonpos_iff ha hdiscrim (by positivity), Int.le_floor]
  have hfloor : 0 ≤ ⌊greaterRoot a b c⌋ := Int.floor_nonneg.mpr (greaterRoot_nonneg ha hb hc)
  constructor
  · exact ⟨hfloor, (hiff _ hfloor).mpr (le_refl _)⟩
  · intro d hd
    exact (hiff d hd.1).mp hd.2

end

/-- A lower last coefficient has a higher root. -/
theorem greaterRoot_mono {c' : ℝ} (ha : 0 < a) (hle : c' ≤ c) :
    greaterRoot a b c ≤ greaterRoot a b c' := by
  apply div_le_div_of_nonneg_right _ (by positivity : 0 ≤ 2 * a)
  have hmul := mul_le_mul_of_nonneg_left hle (by positivity : 0 ≤ 4 * a)
  have hsqrt := Real.sqrt_le_sqrt (by linarith : b * b - 4 * a * c ≤ b * b - 4 * a * c')
  linarith

section

variable (ha : 0 ≤ a) (hb : 0 ≤ b)

include ha hb

theorem quadratic_nonneg (d : ℤ) (hd : 0 ≤ d) : 0 ≤ a * (d : ℝ) ^ 2 + b * d := by
  positivity

theorem quadratic_mono {d e : ℤ} (hd : 0 ≤ d) (hde : d ≤ e) :
    a * (d : ℝ) ^ 2 + b * d ≤ a * (e : ℝ) ^ 2 + b * e := by
  have hd' : (0 : ℝ) ≤ d := Int.cast_nonneg hd
  have hde' : (d : ℝ) ≤ e := Int.cast_le.mpr hde
  have hsquare : (d : ℝ) ^ 2 ≤ (e : ℝ) ^ 2 := pow_le_pow_left₀ hd' hde' 2
  exact add_le_add (mul_le_mul_of_nonneg_left hsquare ha) (mul_le_mul_of_nonneg_left hde' hb)

/-- Up to the greatest integer at which the quadratic is within a bound it is so everywhere. -/
theorem within_iff_le_of_isGreatest {r : ℤ}
    (h : IsGreatest {d : ℤ | 0 ≤ d ∧ a * (d : ℝ) ^ 2 + b * d ≤ x} r) (d : ℤ) (hd : 0 ≤ d) :
    a * (d : ℝ) ^ 2 + b * d ≤ x ↔ d ≤ r := by
  constructor
  · exact fun hwithin => h.2 ⟨hd, hwithin⟩
  · exact fun hle => (quadratic_mono ha hb hd hle).trans h.1.2

/-- It is within a bound on no more than finitely many integers when it grows at all. -/
theorem bddAbove_within (hgrows : 0 < a + b) :
    BddAbove {d : ℤ | 0 ≤ d ∧ a * (d : ℝ) ^ 2 + b * d ≤ x} := by
  refine ⟨max 0 ⌊x / (a + b)⌋, ?_⟩
  intro d hd
  obtain ⟨hd0, hwithin⟩ := hd
  by_cases hone : 1 ≤ d
  · apply le_max_of_le_right
    rw [Int.le_floor, le_div_iff₀ hgrows]
    have hd' : (1 : ℝ) ≤ d := by exact_mod_cast hone
    have hsquare : (d : ℝ) ≤ (d : ℝ) ^ 2 := le_self_pow₀ hd' two_ne_zero
    have hmul := mul_le_mul_of_nonneg_left hsquare ha
    linarith
  · exact le_max_of_le_left (by omega)

end

/-- Of two quadratics with their coefficients interchanged, the one with the greater first
coefficient is the greater. -/
theorem quadratic_swap_le {a b : ℝ} (hab : a ≤ b) {d : ℤ} (hd : 1 ≤ d) :
    a * (d : ℝ) ^ 2 + b * d ≤ b * (d : ℝ) ^ 2 + a * d := by
  have hd' : (1 : ℝ) ≤ d := by exact_mod_cast hd
  have hsquare : (d : ℝ) ≤ (d : ℝ) ^ 2 := le_self_pow₀ hd' two_ne_zero
  have hmul := mul_nonneg (sub_nonneg.mpr hab) (sub_nonneg.mpr hsquare)
  linarith

end Xllm.Lib
