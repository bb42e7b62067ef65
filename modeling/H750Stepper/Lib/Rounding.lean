import Mathlib.Tactic
import Mathlib.Data.Int.Log

/-!
# Rounding to a number of binary digits

The arithmetic of binary floating point on the rationals: each operation rounds its exact result to
the nearest number of `p` binary digits, and a tie goes to the even one. Exponents are not bounded.

`Near p n x y`: `x` and `y` differ by no more than `n` roundings. Products, quotients and further
roundings add up (`Near.mul`, `Near.div`, `Near.fl`), so that a bound on the error of a computation
is a count of its operations.
-/

namespace Rounding

/-- The nearest integer. A tie goes to the even one. -/
def nearest (x : ℚ) : ℤ :=
  if Int.fract x < 1 / 2 then ⌊x⌋
  else if 1 / 2 < Int.fract x then ⌊x⌋ + 1
  else if ⌊x⌋ % 2 = 0 then ⌊x⌋ else ⌊x⌋ + 1

/-- The weight of the last of the `p` digits of a number. -/
def ulp (p : ℕ) (x : ℚ) : ℚ := 2 ^ (Int.log 2 |x| + 1 - p)

/-- The nearest number of `p` digits. -/
def fl (p : ℕ) (x : ℚ) : ℚ := nearest (x / ulp p x) * ulp p x

variable {p : ℕ} {x y : ℚ}

theorem abs_nearest_sub_le (x : ℚ) : |(nearest x : ℚ) - x| ≤ 1 / 2 := by
  have hsplit := Int.floor_add_fract x
  have hnonneg := Int.fract_nonneg x
  have hlt := Int.fract_lt_one x
  rw [abs_le]
  unfold nearest
  split_ifs <;> push_cast <;> constructor <;> linarith

theorem nearest_intCast (z : ℤ) : nearest z = z := by
  unfold nearest
  rw [Int.fract_intCast, if_pos (by norm_num), Int.floor_intCast]

theorem ulp_pos (p : ℕ) (x : ℚ) : 0 < ulp p x := zpow_pos two_pos _

theorem ulp_le (hx : x ≠ 0) : ulp p x ≤ 2 * |x| / 2 ^ p := by
  have hlog : ((2 : ℕ) : ℚ) ^ Int.log 2 |x| ≤ |x| :=
    Int.zpow_log_le_self one_lt_two (abs_pos.mpr hx)
  unfold ulp
  rw [zpow_sub₀ two_ne_zero, zpow_add_one₀ two_ne_zero, zpow_natCast, mul_comm (2 : ℚ)]
  push_cast at hlog
  gcongr

@[simp] theorem fl_zero (p : ℕ) : fl p 0 = 0 := by
  unfold fl
  rw [zero_div, ← Int.cast_zero, nearest_intCast, Int.cast_zero, zero_mul]

/-- The error of a rounding. -/
theorem abs_fl_sub_le (p : ℕ) (x : ℚ) : |fl p x - x| ≤ |x| / 2 ^ p := by
  rcases eq_or_ne x 0 with rfl | hx
  · simp
  · have hulp := ulp_pos p x
    calc |fl p x - x| = |nearest (x / ulp p x) - x / ulp p x| * ulp p x := by
          rw [← abs_of_pos hulp, ← abs_mul, abs_of_pos hulp, sub_mul, div_mul_cancel₀ x hulp.ne', fl]
      _ ≤ 1 / 2 * (2 * |x| / 2 ^ p) :=
          mul_le_mul (abs_nearest_sub_le _) (ulp_le hx) hulp.le (by norm_num)
      _ = |x| / 2 ^ p := by ring

/-- A whole number of no more than `p` digits. -/
theorem fl_natCast {n : ℕ} (h : n < 2 ^ p) : fl p n = n := by
  rcases Nat.eq_zero_or_pos n with rfl | hn
  · rw [Nat.cast_zero, fl_zero]
  · have hlog : Nat.log 2 n < p := Nat.log_lt_of_lt_pow hn.ne' h
    have hulp : ulp p (n : ℚ) = (2 ^ (p - (Nat.log 2 n + 1)) : ℚ)⁻¹ := by
      unfold ulp
      rw [abs_of_nonneg n.cast_nonneg, Int.log_natCast, ← zpow_natCast, ← zpow_neg]
      congr 1
      omega
    have hwhole : (n : ℚ) / ulp p n = ((n * 2 ^ (p - (Nat.log 2 n + 1)) : ℕ) : ℤ) := by
      rw [hulp, div_inv_eq_mul]
      push_cast
      rfl
    unfold fl
    rw [hwhole, nearest_intCast, ← hwhole, div_mul_cancel₀ _ (ulp_pos p _).ne']

/-! ## Computations -/

/-- The most that a rounding can change a number by, as a factor. -/
def ratio (p : ℕ) : ℚ := 2 ^ p / (2 ^ p - 1)

theorem one_lt_pow (hp : 0 < p) : (1 : ℚ) < 2 ^ p := one_lt_pow₀ one_lt_two hp.ne'

theorem one_le_ratio (hp : 0 < p) : 1 ≤ ratio p := by
  have hpow := one_lt_pow hp
  unfold ratio
  rw [one_le_div₀ (by linarith)]
  linarith

/-- `x` and `y` differ by no more than `n` roundings. -/
structure Near (p n : ℕ) (x y : ℚ) : Prop where
  left : 0 ≤ x
  right : 0 ≤ y
  le : x ≤ ratio p ^ n * y
  ge : y ≤ ratio p ^ n * x

namespace Near

variable {m n : ℕ} {z w : ℚ}

theorem refl (hx : 0 ≤ x) : Near p 0 x x := ⟨hx, hx, by simp, by simp⟩

theorem trans (hp : 0 < p) (h : Near p n x y) (h' : Near p m y z) : Near p (n + m) x z := by
  have hn : 0 ≤ ratio p ^ n := pow_nonneg (zero_le_one.trans (one_le_ratio hp)) n
  have hm : 0 ≤ ratio p ^ m := pow_nonneg (zero_le_one.trans (one_le_ratio hp)) m
  refine ⟨h.left, h'.right, ?_, ?_⟩
  · calc x ≤ ratio p ^ n * y := h.le
      _ ≤ ratio p ^ n * (ratio p ^ m * z) := mul_le_mul_of_nonneg_left h'.le hn
      _ = ratio p ^ (n + m) * z := by ring
  · calc z ≤ ratio p ^ m * y := h'.ge
      _ ≤ ratio p ^ m * (ratio p ^ n * x) := mul_le_mul_of_nonneg_left h.ge hm
      _ = ratio p ^ (n + m) * x := by ring

theorem mul (hp : 0 < p) (h : Near p n x y) (h' : Near p m z w) :
    Near p (n + m) (x * z) (y * w) := by
  have hn : 0 ≤ ratio p ^ n := pow_nonneg (zero_le_one.trans (one_le_ratio hp)) n
  refine ⟨mul_nonneg h.left h'.left, mul_nonneg h.right h'.right, ?_, ?_⟩
  · calc x * z ≤ (ratio p ^ n * y) * (ratio p ^ m * w) :=
          mul_le_mul h.le h'.le h'.left (mul_nonneg hn h.right)
      _ = ratio p ^ (n + m) * (y * w) := by ring
  · calc y * w ≤ (ratio p ^ n * x) * (ratio p ^ m * z) :=
          mul_le_mul h.ge h'.ge h'.right (mul_nonneg hn h.left)
      _ = ratio p ^ (n + m) * (x * z) := by ring

theorem add (h : Near p n x y) (h' : Near p n z w) : Near p n (x + z) (y + w) := by
  refine ⟨add_nonneg h.left h'.left, add_nonneg h.right h'.right, ?_, ?_⟩
  · rw [mul_add]
    exact add_le_add h.le h'.le
  · rw [mul_add]
    exact add_le_add h.ge h'.ge

/-- A quotient by an exact number. -/
theorem div (h : Near p n x y) (hz : 0 ≤ z) : Near p n (x / z) (y / z) := by
  refine ⟨div_nonneg h.left hz, div_nonneg h.right hz, ?_, ?_⟩
  · rw [← mul_div_assoc]
    exact div_le_div_of_nonneg_right h.le hz
  · rw [← mul_div_assoc]
    exact div_le_div_of_nonneg_right h.ge hz

/-- One more rounding. -/
theorem fl (hp : 0 < p) (h : Near p n x y) : Near p (n + 1) (Rounding.fl p x) y := by
  have hpow := one_lt_pow hp
  obtain ⟨hlo, hhi⟩ := abs_le.mp (abs_fl_sub_le p x)
  rw [abs_of_nonneg h.left] at hlo hhi
  have hpos : 0 < (2 : ℚ) ^ p - 1 := by linarith
  have hunit : x / 2 ^ p * 2 ^ p = x := div_mul_cancel₀ x (by positivity)
  have hle : x / 2 ^ p ≤ x := div_le_self h.left hpow.le
  have hone : Near p 1 (Rounding.fl p x) x := by
    refine ⟨by linarith, h.left, ?_, ?_⟩
    · rw [pow_one, ratio, div_mul_eq_mul_div, le_div_iff₀ hpos]
      nlinarith [hhi, hunit, h.left]
    · rw [pow_one, ratio, div_mul_eq_mul_div, le_div_iff₀ hpos]
      nlinarith [hlo, hunit, h.left]
  rw [Nat.add_comm]
  exact hone.trans hp h

end Near

end Rounding
