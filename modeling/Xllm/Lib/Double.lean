import Mathlib.Data.Int.Log
import Mathlib.Data.Rat.Floor
import Mathlib.Tactic.FieldSimp
import Mathlib.Tactic.Linarith
import Mathlib.Tactic.Positivity

/-!
# Doubles and floats

The nearest double or float of a rational number, of a magnitude it has. Whole numbers below 2^53 are
doubles, and a quotient of two of them, rounded to a double, has the whole part it had before: it
could only round up to the next whole number from closer below than a quotient can be
(`floor_toDouble_div`).
-/

namespace Xllm.Lib

/-- The nearest number of so many binary digits, ties to even. -/
def roundToBits (bits : Nat) (x : ℚ) : ℚ :=
  let ulp : ℚ := 2 ^ (Int.log 2 |x| + 1 - bits)
  let below := ⌊x / ulp⌋
  let rest := x / ulp - below
  (if rest < 1 / 2 ∨ (rest = 1 / 2 ∧ below % 2 = 0) then below else below + 1) * ulp

def toDouble (x : ℚ) : ℚ := roundToBits 53 x

def toFloat (x : ℚ) : ℚ := roundToBits 24 x

/-- Below 2^53 the doubles around a number are `1 / scale` apart, and its 53 bits are enough to
say where between them it is. -/
theorem exists_scale {x : ℚ} (hpos : 0 < x) (hlt : x < 2 ^ 53) :
    ∃ scale : Nat, 0 < scale ∧ 2 ^ 52 ≤ x * scale ∧
      (2 : ℚ) ^ (Int.log 2 |x| + 1 - (53 : Nat)) = 1 / scale := by
  have hlog : Int.log 2 x < 53 :=
    (Int.lt_zpow_iff_log_lt (b := 2) (by decide) hpos).mp (by exact_mod_cast hlt)
  obtain ⟨k, hk⟩ := Int.eq_ofNat_of_zero_le (a := 52 - Int.log 2 x) (by omega)
  have hlower := Int.zpow_log_le_self (b := 2) (by decide) hpos
  refine ⟨2 ^ k, Nat.two_pow_pos k, ?_, ?_⟩
  · rw [show Int.log 2 x = 52 - (k : Int) by omega, zpow_sub₀ (by norm_num), zpow_natCast,
      div_le_iff₀ (by positivity)] at hlower
    exact_mod_cast hlower
  · rw [abs_of_pos hpos, show Int.log 2 x + 1 - (53 : Nat) = -(k : Int) by omega, zpow_neg,
      zpow_natCast]
    simp

theorem toDouble_intCast {n : Int} (h : 0 ≤ n) (hlt : n < 2 ^ 53) : toDouble n = n := by
  rcases h.eq_or_lt with rfl | hpos
  · rw [Int.cast_zero]
    simp [toDouble, roundToBits]
  have hpos' : (0 : ℚ) < n := by exact_mod_cast hpos
  obtain ⟨scale, hscale, -, hulp⟩ := exists_scale hpos' (by exact_mod_cast hlt)
  have hne : (scale : ℚ) ≠ 0 := by exact_mod_cast hscale.ne'
  have hfloor : ⌊(n : ℚ) / (1 / scale)⌋ = n * scale := by
    rw [div_div_eq_mul_div, div_one, ← Int.cast_natCast, ← Int.cast_mul, Int.floor_intCast]
  unfold toDouble roundToBits
  dsimp only
  rw [hulp, hfloor, if_pos]
  · push_cast
    field_simp
  · left
    push_cast
    rw [div_div_eq_mul_div, div_one, sub_self]
    norm_num

theorem floor_toDouble_div {n : Int} {d : Nat} (h : 0 ≤ n) (hlt : n < 2 ^ 53) (hd : 0 < d) :
    ⌊toDouble (n / d)⌋ = n / d := by
  rcases h.eq_or_lt with rfl | hpos
  · simp [toDouble, roundToBits]
  have hd' : (0 : ℚ) < d := by exact_mod_cast hd
  have hpos' : (0 : ℚ) < n / d := div_pos (by exact_mod_cast hpos) hd'
  have hle : (n : ℚ) / d ≤ n :=
    div_le_self (by exact_mod_cast h) (by exact_mod_cast hd)
  obtain ⟨scale, hscale, hbound, hulp⟩ :=
    exists_scale hpos' (hle.trans_lt (by exact_mod_cast hlt))
  have hne : (scale : ℚ) ≠ 0 := by exact_mod_cast hscale.ne'
  have hscale' : (0 : ℚ) < scale := by exact_mod_cast hscale
  have hbelow := Int.floor_le ((n : ℚ) / d * scale)
  -- the quotient is not within half a step below the next whole number
  have hgap : (n / d + 1) * scale ≤ ⌊(n : ℚ) / d * scale⌋ + 1 →
      (n : ℚ) / d * scale - ⌊(n : ℚ) / d * scale⌋ < 1 / 2 := by
    intro hnext
    have hwhole : n + 1 ≤ (n / d + 1) * d := by
      have := Int.lt_ediv_add_one_mul_self n (by exact_mod_cast hd : (0 : Int) < d)
      omega
    have hwhole' : (n : ℚ) / d + 1 / d ≤ ((n / d + 1 : Int) : ℚ) := by
      rw [← add_div, div_le_iff₀ hd']
      exact_mod_cast hwhole
    have hd2 : (d : ℚ) < 2 * scale := by
      rw [div_mul_eq_mul_div, le_div_iff₀ hd'] at hbound
      have hlt' : (n : ℚ) < 2 ^ 53 := by exact_mod_cast hlt
      nlinarith
    have hstep : (1 : ℚ) / 2 < 1 / d * scale := by
      rw [div_mul_eq_mul_div, one_mul, div_lt_div_iff₀ two_pos hd']
      linarith
    have hnext' : ((n / d + 1 : Int) : ℚ) * scale ≤ ⌊(n : ℚ) / d * scale⌋ + 1 := by
      exact_mod_cast hnext
    have := mul_le_mul_of_nonneg_right hwhole' hscale'.le
    rw [add_mul] at this
    linarith
  have hlow : n / d * scale ≤ ⌊(n : ℚ) / d * scale⌋ := by
    rw [Int.le_floor]
    push_cast
    refine mul_le_mul_of_nonneg_right ?_ hscale'.le
    rw [le_div_iff₀ hd']
    exact_mod_cast Int.ediv_mul_le n (by omega)
  have hhigh : ⌊(n : ℚ) / d * scale⌋ < (n / d + 1) * scale := by
    rw [Int.floor_lt]
    push_cast
    refine mul_lt_mul_of_pos_right ?_ hscale'
    rw [div_lt_iff₀ hd']
    exact_mod_cast Int.lt_ediv_add_one_mul_self n (by omega)
  have hround (r : Int) (hr : n / d * scale ≤ r) (hr' : r < (n / d + 1) * scale) :
      ⌊(r : ℚ) * (1 / scale)⌋ = n / d := by
    rw [Int.floor_eq_iff, mul_one_div, le_div_iff₀ hscale', div_lt_iff₀ hscale']
    exact ⟨by exact_mod_cast hr, by exact_mod_cast hr'⟩
  unfold toDouble roundToBits
  dsimp only
  rw [hulp, div_div_eq_mul_div, div_one]
  split
  · exact hround _ hlow hhigh
  · next hup =>
    have hlt : ⌊(n : ℚ) / d * scale⌋ + 1 < (n / d + 1) * scale := by
      by_contra hnext
      exact hup (.inl (hgap (not_lt.mp hnext)))
    exact hround _ (by omega) hlt

end Xllm.Lib
