import H750Stepper.Lib.CInt
import H750Stepper.Lib.Ramp
import Mathlib.Algebra.Order.BigOperators.Group.Finset

/-!
# The droop of a jerk-limited speed

A speed that moves toward a wanted speed with an acceleration of at most `A`, which changes by at
most `j` in each period. When the wanted speed is crossed at a deceleration `x`, the deceleration is
taken back only by `j` in each period, and the speed still loses `droop j x` below the wanted speed.
`Droops.step`: so a speed that is wanted to be nonnegative never falls below `-droop j A`.
-/

namespace Ramp

open CInt

/-- The sum of `x - j`, `x - 2 * j`, … down to 0. -/
def droop (j x : ℚ) : ℚ := ∑ k ∈ Finset.range ⌈x / j⌉₊, max 0 (x - (k + 1) * j)

variable {j x y : ℚ}

theorem droop_nonneg (j x : ℚ) : 0 ≤ droop j x := Finset.sum_nonneg fun _ _ => le_max_left _ _

theorem droop_of_le (hj : 0 < j) (hx : x ≤ j) : droop j x = 0 := by
  refine Finset.sum_eq_zero fun k _ => max_eq_left ?_
  nlinarith [mul_nonneg (Nat.cast_nonneg (α := ℚ) k) hj.le]

theorem droop_mono (hj : 0 < j) (hxy : x ≤ y) : droop j x ≤ droop j y := by
  have hrange : ⌈x / j⌉₊ ≤ ⌈y / j⌉₊ := Nat.ceil_mono (div_le_div_of_nonneg_right hxy hj.le)
  calc droop j x ≤ ∑ k ∈ Finset.range ⌈x / j⌉₊, max 0 (y - (k + 1) * j) :=
        Finset.sum_le_sum fun k _ => max_le_max le_rfl (sub_le_sub_right hxy _)
    _ ≤ droop j y := Finset.sum_le_sum_of_subset_of_nonneg (Finset.range_mono hrange)
        fun _ _ _ => le_max_left _ _

/-- One period takes `j` from the deceleration, and what is left of it from the speed. -/
theorem droop_step (hj : 0 < j) (hx : j < x) : droop j x = (x - j) + droop j (x - j) := by
  have hceil : ⌈x / j⌉₊ = ⌈(x - j) / j⌉₊ + 1 := by
    have hpos : 0 ≤ (x - j) / j := div_nonneg (by linarith) hj.le
    rw [← Nat.ceil_add_one hpos, sub_div, div_self hj.ne', sub_add_cancel]
  unfold droop
  rw [hceil, Finset.sum_range_succ', add_comm]
  congr 1
  · rw [max_eq_right] <;> push_cast <;> linarith
  · refine Finset.sum_congr rfl fun k _ => ?_
    push_cast
    ring_nf

/-! ## The speed -/

/-- The acceleration in the next period, with the speed `w` wanted. -/
def nextAccel (j A w v a : ℚ) : ℚ := toward j (clampTo A (w - v)) a

/-- What a deceleration still takes from the speed leaves it at or above `-droop j A`. -/
structure Droops (j A v a : ℚ) : Prop where
  accel : |a| ≤ A
  speed : droop j (-a) ≤ v + droop j A

variable {A V w v a : ℚ}

theorem nextAccel_neg (hj : 0 ≤ j) (hA : 0 ≤ A) (w v a : ℚ) :
    nextAccel j A (-w) (-v) (-a) = -nextAccel j A w v a := by
  unfold nextAccel
  rw [← neg_sub', clampTo_neg hA, toward_neg hj]

theorem Droops.neg_le (h : Droops j A v a) : -droop j A ≤ v := by
  have hnonneg := droop_nonneg j (-a)
  have hspeed := h.speed
  linarith

/-- A speed that is not negative does not droop whatever the deceleration. -/
theorem droops_of_nonneg (hj : 0 < j) (ha : |a| ≤ A) (hv : 0 ≤ v) : Droops j A v a := by
  refine ⟨ha, ?_⟩
  have hmono : droop j (-a) ≤ droop j A := droop_mono hj (by linarith [(abs_le.mp ha).1])
  linarith

/-- A deceleration that is wanted does not turn the speed. -/
theorem add_clampTo_nonneg (hw : 0 ≤ w) (hneg : clampTo A (w - v) < 0) (hA : 0 ≤ A) :
    0 ≤ v + clampTo A (w - v) := by
  unfold clampTo at hneg ⊢
  dsimp only at hneg ⊢
  split_ifs at hneg ⊢ <;> linarith

/-- One period, before the limit on the speed. -/
theorem Droops.add (hj : 0 < j) (hA : 0 ≤ A) (hw : 0 ≤ w) (h : Droops j A v a) :
    Droops j A (v + nextAccel j A w v a) (nextAccel j A w v a) := by
  have hbound : |nextAccel j A w v a| ≤ A :=
    abs_toward_le hj.le (abs_clampTo_le hA _) h.accel
  by_cases hpos : 0 ≤ nextAccel j A w v a
  · -- The speed rises, and no deceleration is left.
    refine ⟨hbound, ?_⟩
    have hneg := h.neg_le
    rw [droop_of_le hj (by linarith)]
    linarith
  · by_cases hback : clampTo A (w - v) - a > j
    · -- The deceleration is taken back by `j`.
      have haccel : nextAccel j A w v a = a + j := if_pos hback
      rw [haccel] at hpos hbound ⊢
      refine ⟨hbound, ?_⟩
      have hspeed := h.speed
      have hstep : droop j (-a) = -(a + j) + droop j (-(a + j)) := by
        rw [droop_step hj (by linarith), neg_sub_left, add_comm j a]
      linarith
    · -- The deceleration is not above the one wanted.
      refine droops_of_nonneg hj hbound ?_
      have hle : clampTo A (w - v) ≤ nextAccel j A w v a := by
        unfold nextAccel toward
        rw [if_neg hback]
        split_ifs <;> linarith
      have hturn := add_clampTo_nonneg (v := v) hw (by linarith) hA
      linarith

/-- **One period.** The speed is wanted to be nonnegative, and limited to `V`. -/
theorem Droops.step (hj : 0 < j) (hA : 0 ≤ A) (hV : 0 ≤ V) (hw : 0 ≤ w) (h : Droops j A v a) :
    Droops j A (clampTo V (v + nextAccel j A w v a)) (nextAccel j A w v a) := by
  have hadd := h.add hj hA hw
  by_cases hclamp : v + nextAccel j A w v a ≤ clampTo V (v + nextAccel j A w v a)
  · exact ⟨hadd.accel, hadd.speed.trans (add_le_add_left hclamp _)⟩
  · refine droops_of_nonneg hj hadd.accel ?_
    unfold clampTo at hclamp ⊢
    dsimp only at hclamp ⊢
    split_ifs at hclamp ⊢ <;> linarith

/-- A speed turns exactly if the deceleration, with `j` taken back, is more than the speed. -/
theorem clampTo_add_neg_iff (hj : 0 < j) (hA : 0 ≤ A) (hV : 0 < V) (hw : 0 ≤ w) (hv : 0 ≤ v) :
    clampTo V (v + nextAccel j A w v a) < 0 ↔ v + a + j < 0 := by
  have hlimit : ∀ x, clampTo V x < 0 ↔ x < 0 := by
    intro x
    unfold clampTo
    dsimp only
    split_ifs <;> constructor <;> intro <;> linarith
  have hwanted : 0 ≤ v + clampTo A (w - v) := by
    by_cases hneg : clampTo A (w - v) < 0
    · exact add_clampTo_nonneg hw hneg hA
    · linarith
  rw [hlimit]
  unfold nextAccel toward
  split_ifs <;> constructor <;> intro <;> linarith

end Ramp
