import Mathlib
import Xllm.Lib.QuadraticRoot

/-!
# The predictor of prefill times

`core/scheduler/profile/time_predictor.cpp`, over the reals. A predictor has been fitted to
features of a length and a prefix length: without prefix profiling to the powers of the length, with
it to five features of both. `predictTime` evaluates the fitted polynomial, and `getQuadraticRoot`
turns a budget into a length.

`colPivHouseholderQr().solve` is a parameter, and what it finds is `none` where it is not finite.
Only the prefill is modelled.
-/

namespace Xllm.Scheduler

def int32Max : Int := 2 ^ 31 - 1

/-- The size of `coefficients_` is that of the constructor, which the fits keep. -/
structure TimePredictor where
  coefficients : List ℝ
  ifProfilePrefix : Bool
  isPrefill : Bool
  size : coefficients.length = if isPrefill ∧ ifProfilePrefix then 5 else 3

namespace TimePredictor

/-- `coefficients_(i)`. -/
def coefficient (predictor : TimePredictor) (i : Nat) : ℝ := predictor.coefficients.getD i 0

/-! ## Fitting -/

/-- `coefficients_ = matrix.colPivHouseholderQr().solve(target)`, for a matrix of so many columns. -/
abbrev Solve := (columns : Nat) → List (List ℝ) → List ℝ → Fin columns → Option ℝ

/-- `check_coefficients_non_neg` of one coefficient. -/
noncomputable def checkNonNeg : Option ℝ → ℝ
  | none => 0
  | some coefficient => if coefficient < 0 then 0 else coefficient

/-- A row of the matrix without prefix profiling: the powers of the length. -/
def lengthRow (length : Int) : List ℝ :=
  (List.range 3).map fun j => (length : ℝ) ^ j

/-- A row with prefix profiling. -/
def prefixRow (tokenLength prefixLength : Int) : List ℝ :=
  let diff : ℝ := ((tokenLength - prefixLength : Int) : ℝ)
  [1, diff * diff, diff, diff * prefixLength, prefixLength]

/-- `fit_for_prefill` to lengths and times. -/
noncomputable def fitForPrefill (solve : Solve) (data : List (Int × ℝ)) : TimePredictor where
  coefficients := (List.ofFn (solve 3 (data.map fun sample => lengthRow sample.1)
    (data.map Prod.snd))).map checkNonNeg
  ifProfilePrefix := false
  isPrefill := true
  size := by
    rw [List.length_map, List.length_ofFn]
    rfl

/-- `fit_for_prefill` to lengths, prefix lengths and times. -/
noncomputable def fitForPrefillPrefix (solve : Solve) (data : List (Int × Int × ℝ)) :
    TimePredictor where
  coefficients := (List.ofFn (solve 5 (data.map fun sample => prefixRow sample.1 sample.2.1)
    (data.map fun sample => sample.2.2))).map checkNonNeg
  ifProfilePrefix := true
  isPrefill := true
  size := by
    rw [List.length_map, List.length_ofFn]
    rfl

variable (predictor : TimePredictor)

/-! ## Predicting -/

/-- The loop of `predict_time` over the coefficients from the second on. -/
def predictPowers (coefficients : List ℝ) (effectiveLength : ℝ) (result : ℝ) : ℝ :=
  (coefficients.foldl (fun state coefficient =>
    (state.1 + coefficient * state.2, state.2 * effectiveLength)) (result, effectiveLength)).1

/-- `predict_time` of a prefill predictor. -/
noncomputable def predictTime (length prefixLength : Int) (ifNeedAddConstantTerm : Bool) : ℝ :=
  let constant := if ifNeedAddConstantTerm then predictor.coefficient 0 else 0
  let result :=
    if predictor.ifProfilePrefix then
      let diff : ℝ := ((length - prefixLength : Int) : ℝ)
      constant + (predictor.coefficient 1 * diff * diff + predictor.coefficient 2 * diff +
        predictor.coefficient 3 * diff * prefixLength + predictor.coefficient 4 * prefixLength)
    else
      predictPowers (predictor.coefficients.drop 1) ((length - prefixLength : Int) : ℝ) constant
  if result < 0 then 0 else result

/-! ## The root -/

local instance atLeastTwo_two : Nat.AtLeastTwo 2 := ⟨Nat.le_refl 2⟩

local instance atLeastTwo_four : Nat.AtLeastTwo 4 := ⟨by decide⟩

/-- `outOfRange` is a conversion to `int32_t`, or an addition in it, that does not fit. -/
inductive RootResult
  | fatal
  | returned (length : Int)
  | outOfRange
  deriving DecidableEq, Repr

/-- `a`, `b` and `c` of `get_quadratic_root`. -/
noncomputable def rootTerms (prefixLength : Int) (budget : ℝ) : ℝ × ℝ × ℝ :=
  if predictor.ifProfilePrefix then
    (predictor.coefficient 1, predictor.coefficient 2 + predictor.coefficient 3 * prefixLength,
      predictor.coefficient 4 * prefixLength - budget)
  else (predictor.coefficient 1, predictor.coefficient 2, -budget)

/-- A quotient, which is no number when the divisor is zero. -/
noncomputable def divide (x y : ℝ) : Option ℝ := if y = 0 then none else some (x / y)

noncomputable def getQuadraticRoot (prefixLength : Int) (budget : ℝ) : RootResult :=
  if predictor.isPrefill = false then .fatal
  else
    let (a, b, c) := predictor.rootTerms prefixLength budget
    let discriminant := b * b - 4 * a * c
    if discriminant < 0 then .returned prefixLength
    else
      match divide (-b + √discriminant) (2 * a) with
      | none => .returned prefixLength  -- the comparison with 0 is false
      | some root =>
        if 0 ≤ root then
          if ⌊root⌋ ≤ int32Max ∧ ⌊root⌋ + prefixLength ≤ int32Max then
            .returned (⌊root⌋ + prefixLength)
          else .outOfRange
        else .returned prefixLength

/-- `get_quadratic_root` comes to its division with a zero divisor. -/
def DividesByZero (prefixLength : Int) (budget : ℝ) : Prop :=
  let (a, b, c) := predictor.rootTerms prefixLength budget
  predictor.isPrefill = true ∧ 0 ≤ b * b - 4 * a * c ∧ 2 * a = 0

end TimePredictor

end Xllm.Scheduler
