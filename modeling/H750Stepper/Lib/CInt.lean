import Mathlib.Tactic
import Mathlib.Data.Rat.Floor

/-!
# Fixed-width integers and conversions of C

Signed words of `w` bits are integers; an operation whose exact result does not fit is brought back
by `wrap w`, its balanced residue modulo `2 ^ w`. Unsigned words are naturals, with `% 2 ^ w` where
an operation can leave the range. A conversion from a fractional value truncates toward zero
(`trunc`).
-/

namespace CInt

/-- The signed word of `w` bits that the integer `x` leaves. -/
def wrap (w : ℕ) (x : ℤ) : ℤ := x.bmod (2 ^ w)

/-- `x` is a signed word of `w` bits. -/
def Fits (w : ℕ) (x : ℤ) : Prop := -(2 ^ w : ℤ) ≤ 2 * x ∧ 2 * x < 2 ^ w

instance (w : ℕ) (x : ℤ) : Decidable (Fits w x) := by unfold Fits; infer_instance

/-- The unsigned word of `w` bits that the integer `x` leaves. -/
def uwrap (w : ℕ) (x : ℤ) : ℕ := (x % 2 ^ w).toNat

/-- The difference of two signed 32-bit words. -/
def sub32 (x y : ℤ) : ℤ := wrap 32 (x - y)

/-- `abs` on a signed 32-bit word. -/
def abs32 (x : ℤ) : ℤ := wrap 32 |x|

theorem wrap_of_fits {w : ℕ} {x : ℤ} (h : Fits w x) : wrap w x = x := by
  unfold Fits at h
  exact Int.bmod_eq_of_le_mul_two (by push_cast; omega) (by push_cast; omega)

theorem wrap_emod (w : ℕ) (x : ℤ) : wrap w x % 2 ^ w = x % 2 ^ w := by
  have h := Int.bmod_emod (x := x) (m := 2 ^ w)
  push_cast at h
  exact h

/-- Integers that agree modulo `2 ^ w` leave the same word. -/
theorem wrap_congr {w : ℕ} {x y : ℤ} (h : x % 2 ^ w = y % 2 ^ w) : wrap w x = wrap w y :=
  Int.bmod_eq_bmod_iff_bmod_sub_eq_zero.mpr <| by
    rw [← Int.dvd_iff_bmod_eq_zero]
    push_cast
    exact Int.dvd_of_emod_eq_zero (Int.emod_eq_emod_iff_emod_sub_eq_zero.mp h)

theorem fits_wrap {w : ℕ} (hw : 0 < w) (x : ℤ) : Fits w (wrap w x) := by
  obtain ⟨k, rfl⟩ : ∃ k, w = k + 1 := ⟨w - 1, by omega⟩
  have hpow : (2 ^ (k + 1) : ℤ) = 2 * 2 ^ k := pow_succ' 2 k
  have hlo := Int.le_bmod (x := x) (m := 2 ^ (k + 1)) (by positivity)
  have hhi := Int.bmod_lt (x := x) (m := 2 ^ (k + 1)) (by positivity)
  unfold Fits wrap
  push_cast at hlo hhi
  omega

theorem uwrap_cast (w : ℕ) (x : ℤ) : (uwrap w x : ℤ) = x % 2 ^ w :=
  Int.toNat_of_nonneg (Int.emod_nonneg x (by positivity))

theorem sub32_of_abs_lt {x y : ℤ} (h : |x - y| < 2 ^ 31) : sub32 x y = x - y := by
  rw [abs_lt] at h
  exact wrap_of_fits ⟨by omega, by omega⟩

theorem abs32_of_abs_lt {x : ℤ} (h : |x| < 2 ^ 31) : abs32 x = |x| :=
  wrap_of_fits ⟨by have := abs_nonneg x; omega, by omega⟩

/-! ## Conversion of a fractional value -/

/-- The conversion to an integer type: toward zero. -/
def trunc (q : ℚ) : ℤ := if 0 ≤ q then ⌊q⌋ else ⌈q⌉

/-- The conversion to a signed 32-bit word. Out of range it saturates, as the target's FPU does. -/
def toInt32 (q : ℚ) : ℤ := max (-2 ^ 31) (min (2 ^ 31 - 1) (trunc q))

/-- The conversion to an unsigned 32-bit word; it saturates too. -/
def toUInt32 (q : ℚ) : ℕ := min (2 ^ 32 - 1) (trunc q).toNat

theorem trunc_of_nonneg {q : ℚ} (h : 0 ≤ q) : trunc q = ⌊q⌋ := if_pos h

theorem trunc_neg (q : ℚ) : trunc (-q) = -trunc q := by
  unfold trunc
  rcases lt_trichotomy q 0 with h | rfl | h
  · rw [if_pos (by linarith), if_neg (by linarith), Int.floor_neg]
  · simp
  · rw [if_neg (by linarith), if_pos h.le, Int.ceil_neg]

theorem trunc_intCast (z : ℤ) : trunc (z : ℚ) = z := by
  unfold trunc
  rw [Int.floor_intCast, Int.ceil_intCast, ite_self]

theorem trunc_mono : Monotone trunc := by
  intro p q hpq
  unfold trunc
  by_cases hp : 0 ≤ p
  · rw [if_pos hp, if_pos (hp.trans hpq)]
    exact Int.floor_le_floor hpq
  · rw [if_neg hp]
    by_cases hq : 0 ≤ q
    · have hceil : ⌈p⌉ ≤ 0 := Int.ceil_le.mpr (by push_cast; linarith)
      rw [if_pos hq]
      exact hceil.trans (Int.floor_nonneg.mpr hq)
    · rw [if_neg hq]
      exact Int.ceil_le_ceil hpq

/-- A conversion does not leave a symmetric interval. -/
theorem natAbs_trunc_le {q : ℚ} {n : ℕ} (h : |q| ≤ n) : (trunc q).natAbs ≤ n := by
  obtain ⟨hlo, hhi⟩ := abs_le.mp h
  have hlo' : ((-n : ℤ) : ℚ) ≤ q := by exact_mod_cast hlo
  have hhi' : q ≤ ((n : ℤ) : ℚ) := by exact_mod_cast hhi
  have hge := trunc_mono hlo'
  have hle := trunc_mono hhi'
  rw [trunc_intCast] at hge hle
  omega

/-- A conversion loses less than 1. -/
theorem abs_trunc_sub_lt (q : ℚ) : |(trunc q : ℚ) - q| < 1 := by
  rw [abs_lt]
  unfold trunc
  split_ifs
  · have hle := Int.floor_le q
    have hlt := Int.lt_floor_add_one q
    constructor <;> linarith
  · have hle := Int.le_ceil q
    have hlt := Int.ceil_lt_add_one q
    constructor <;> linarith

theorem toInt32_mono : Monotone toInt32 := by
  intro p q hpq
  have htrunc := trunc_mono hpq
  unfold toInt32
  omega

theorem toInt32_of_fits {q : ℚ} (h : Fits 32 (trunc q)) : toInt32 q = trunc q := by
  unfold Fits at h
  unfold toInt32
  omega

/-- Within the range of a word, the conversion is odd. -/
theorem toInt32_neg {q : ℚ} (h : |q| < 2 ^ 31) : toInt32 (-q) = -toInt32 q := by
  have hle : |trunc q| ≤ 2 ^ 31 - 1 := by
    obtain ⟨hlo, hhi⟩ := abs_lt.mp h
    have hfloor : ⌊q⌋ < 2 ^ 31 := Int.floor_lt.mpr (by exact_mod_cast hhi)
    have hceil : -2 ^ 31 < ⌈q⌉ := Int.lt_ceil.mpr (by exact_mod_cast hlo)
    unfold trunc
    split_ifs with hq
    · rw [abs_of_nonneg (Int.floor_nonneg.mpr hq)]
      omega
    · rw [abs_of_nonpos (Int.ceil_le.mpr (by push_cast; linarith))]
      omega
  rw [abs_le] at hle
  unfold toInt32
  rw [trunc_neg]
  omega

/-- A nonnegative value is converted to at most itself. -/
theorem toUInt32_le {q : ℚ} (h : 0 ≤ q) : (toUInt32 q : ℚ) ≤ q := by
  have htrunc : ((trunc q).toNat : ℤ) = ⌊q⌋ := by
    rw [trunc_of_nonneg h, Int.toNat_of_nonneg (Int.floor_nonneg.mpr h)]
  calc (toUInt32 q : ℚ) ≤ ((trunc q).toNat : ℚ) := Nat.cast_le.mpr (min_le_right _ _)
    _ = (⌊q⌋ : ℚ) := by exact_mod_cast htrunc
    _ ≤ q := Int.floor_le q

theorem lt_toUInt32_add_one {q : ℚ} (h : 0 ≤ q) (hq : q < 2 ^ 32) : q < toUInt32 q + 1 := by
  have hfloor : ⌊q⌋ < 2 ^ 32 := Int.floor_lt.mpr (by exact_mod_cast hq)
  have hnonneg : 0 ≤ ⌊q⌋ := Int.floor_nonneg.mpr h
  have hconv : (toUInt32 q : ℤ) = ⌊q⌋ := by
    unfold toUInt32
    rw [trunc_of_nonneg h]
    omega
  have hcast : (toUInt32 q : ℚ) = (⌊q⌋ : ℚ) := by exact_mod_cast hconv
  rw [hcast]
  exact Int.lt_floor_add_one q

/-- A nonnegative integer below the converted value is below the value. -/
theorem lt_of_lt_toInt32 {x : ℤ} {q : ℚ} (hx : 0 ≤ x) (h : x < toInt32 q) : (x : ℚ) < q := by
  have htrunc : x < trunc q := by
    unfold toInt32 at h
    omega
  unfold trunc at htrunc
  split_ifs at htrunc with hq
  · exact (Int.cast_lt.mpr htrunc).trans_le (Int.floor_le q)
  · have hceil : ⌈q⌉ ≤ 0 := Int.ceil_le.mpr (by push_cast; linarith)
    omega

/-- A value brought between `-limit` and `limit`. -/
def clampTo (limit x : ℚ) : ℚ :=
  let x := if x > limit then limit else x
  if x < -limit then -limit else x

theorem abs_clampTo_le {limit : ℚ} (h : 0 ≤ limit) (x : ℚ) : |clampTo limit x| ≤ limit := by
  unfold clampTo
  dsimp only
  rw [abs_le]
  split_ifs <;> constructor <;> linarith

theorem abs_clampTo_le_abs (limit x : ℚ) : |clampTo limit x| ≤ |limit| := by
  rcases le_or_gt 0 limit with h | h
  · exact (abs_clampTo_le h x).trans (le_abs_self limit)
  · unfold clampTo
    dsimp only
    rw [abs_of_neg h, abs_le]
    split_ifs <;> constructor <;> linarith

theorem clampTo_of_abs_le {limit x : ℚ} (h : |x| ≤ limit) : clampTo limit x = x := by
  obtain ⟨hlo, hhi⟩ := abs_le.mp h
  unfold clampTo
  dsimp only
  rw [if_neg (not_lt.mpr hhi), if_neg (not_lt.mpr hlo)]

/-- Clamped values are no further apart. -/
theorem abs_clampTo_sub_le {limit : ℚ} (h : 0 ≤ limit) (x y : ℚ) :
    |clampTo limit x - clampTo limit y| ≤ |x - y| := by
  have hlo := neg_abs_le (x - y)
  have hhi := le_abs_self (x - y)
  rw [abs_le]
  unfold clampTo
  dsimp only
  split_ifs <;> constructor <;> linarith

/-- From within the limits, a clamped step is no longer than the step. -/
theorem abs_clampTo_add_sub_le {limit x : ℚ} (h : |x| ≤ limit) (d : ℚ) :
    |clampTo limit (x + d) - x| ≤ |d| := by
  have hle := abs_clampTo_sub_le ((abs_nonneg x).trans h) (x + d) x
  rwa [clampTo_of_abs_le h, add_sub_cancel_left] at hle

theorem clampTo_neg {limit : ℚ} (h : 0 ≤ limit) (x : ℚ) :
    clampTo limit (-x) = -clampTo limit x := by
  unfold clampTo
  dsimp only
  split_ifs <;> linarith

/-- A quotient of naturals is truncated as natural division does. -/
theorem trunc_natCast_div (m n : ℕ) : trunc ((m : ℚ) / n) = (m / n : ℕ) := by
  rw [trunc_of_nonneg (by positivity)]
  exact Rat.floor_natCast_div_natCast m n

end CInt
