import H750Stepper.Lib.CInt

/-!
# Physical and count coordinates

`position_scale.c`: the affine map between a physical unit and encoder counts, with the soft limits
kept in both.
-/

namespace H750Stepper

open CInt

/-- `position_scale_t`, less the name of the unit. -/
structure PosScale where
  countsPerUnit : ℚ
  homeOffset : ℤ
  posMin : ℚ
  posMax : ℚ
  posMinCounts : ℤ
  posMaxCounts : ℤ
  deriving DecidableEq, Inhabited

namespace PosScale

/-- `position_scale_to_counts` -/
def toCounts (s : PosScale) (physical : ℚ) : ℤ :=
  toInt32 (s.homeOffset + physical * s.countsPerUnit)

/-- `position_scale_to_physical` -/
def toPhysical (s : PosScale) (counts : ℤ) : ℚ := wrap 32 (counts - s.homeOffset) / s.countsPerUnit

/-- `position_scale_check_range` -/
def checkRange (s : PosScale) (target : ℚ) : Bool := decide (target ≥ s.posMin ∧ target ≤ s.posMax)

/-- `position_scale_init` -/
def init (countsPerUnit posMin posMax : ℚ) : PosScale :=
  let s : PosScale :=
    { countsPerUnit := if countsPerUnit > 0 then countsPerUnit else 1
      homeOffset := 0, posMin, posMax, posMinCounts := 0, posMaxCounts := 0 }
  { s with posMinCounts := s.toCounts posMin, posMaxCounts := s.toCounts posMax }

/-- `position_scale_set_home` -/
def setHome (s : PosScale) (encoderZero : ℤ) : PosScale :=
  let s := { s with homeOffset := encoderZero }
  { s with posMinCounts := s.toCounts s.posMin, posMaxCounts := s.toCounts s.posMax }

/-! ## The two systems of coordinates -/

/-- The unit has counts, and the limits in counts are those of the limits in the unit. -/
structure Coherent (s : PosScale) : Prop where
  unit : 0 < s.countsPerUnit
  low : s.posMinCounts = s.toCounts s.posMin
  high : s.posMaxCounts = s.toCounts s.posMax

theorem init_coherent (countsPerUnit posMin posMax : ℚ) :
    (init countsPerUnit posMin posMax).Coherent where
  unit := by
    show 0 < if countsPerUnit > 0 then countsPerUnit else 1
    split_ifs with h
    · exact h
    · exact one_pos
  low := rfl
  high := rfl

theorem Coherent.setHome {s : PosScale} (h : s.Coherent) (encoderZero : ℤ) :
    (s.setHome encoderZero).Coherent := ⟨h.unit, rfl, rfl⟩

variable {s : PosScale}

/-- The limits in counts follow from the other fields. -/
theorem Coherent.ext {s' : PosScale} (h : s.Coherent) (h' : s'.Coherent)
    (hunit : s.countsPerUnit = s'.countsPerUnit) (hmin : s.posMin = s'.posMin)
    (hmax : s.posMax = s'.posMax) (hhome : s.homeOffset = s'.homeOffset) : s = s' := by
  have hcounts : s.toCounts = s'.toCounts := by
    unfold toCounts
    rw [hunit, hhome]
  have hlow : s.posMinCounts = s'.posMinCounts := by rw [h.low, h'.low, hcounts, hmin]
  have hhigh : s.posMaxCounts = s'.posMaxCounts := by rw [h.high, h'.high, hcounts, hmax]
  cases s
  cases s'
  congr

theorem Coherent.toCounts_mono (h : s.Coherent) : Monotone s.toCounts := by
  intro x y hxy
  refine toInt32_mono ?_
  have hmul : x * s.countsPerUnit ≤ y * s.countsPerUnit :=
    mul_le_mul_of_nonneg_right hxy h.unit.le
  linarith

/-- A target within the limits of the unit is within the limits in counts. -/
theorem Coherent.counts_mem (h : s.Coherent) {x : ℚ} (hx : s.checkRange x = true) :
    s.posMinCounts ≤ s.toCounts x ∧ s.toCounts x ≤ s.posMaxCounts := by
  obtain ⟨hlow, hhigh⟩ := of_decide_eq_true hx
  rw [h.low, h.high]
  exact ⟨h.toCounts_mono hlow, h.toCounts_mono hhigh⟩

/-- From counts to the unit and back nothing is lost. -/
theorem Coherent.toCounts_toPhysical (h : s.Coherent) {c : ℤ} (hc : Fits 32 c)
    (hdist : Fits 32 (c - s.homeOffset)) : s.toCounts (s.toPhysical c) = c := by
  have hval : (s.homeOffset : ℚ) + s.toPhysical c * s.countsPerUnit = (c : ℤ) := by
    unfold toPhysical
    rw [wrap_of_fits hdist, div_mul_cancel₀ _ h.unit.ne']
    push_cast
    ring
  unfold toCounts
  rw [hval, toInt32_of_fits, trunc_intCast]
  rwa [trunc_intCast]

/-- From the unit to counts and back less than one count is lost. -/
theorem Coherent.abs_toPhysical_sub_lt (h : s.Coherent) {x : ℚ}
    (hx : Fits 32 (trunc (s.homeOffset + x * s.countsPerUnit)))
    (hdist : Fits 32 (s.toCounts x - s.homeOffset)) :
    |s.toPhysical (s.toCounts x) - x| < 1 / s.countsPerUnit := by
  have hcounts : s.toCounts x = trunc (s.homeOffset + x * s.countsPerUnit) := toInt32_of_fits hx
  have herr : s.toPhysical (s.toCounts x) - x =
      ((s.toCounts x : ℚ) - (s.homeOffset + x * s.countsPerUnit)) / s.countsPerUnit := by
    have hne := h.unit.ne'
    unfold toPhysical
    rw [wrap_of_fits hdist]
    push_cast
    field_simp
    ring
  rw [herr, abs_div, abs_of_pos h.unit, hcounts]
  exact div_lt_div_of_pos_right (abs_trunc_sub_lt _) h.unit

end PosScale

/-! ## Calls -/

/-- The calls on a scale. -/
inductive ScaleCall where
  | init (countsPerUnit posMin posMax : ℚ)
  | setHome (encoderZero : ℤ)

namespace ScaleCall

/-- The scale after a call. -/
def apply (s : PosScale) : ScaleCall → PosScale
  | .init countsPerUnit posMin posMax => PosScale.init countsPerUnit posMin posMax
  | .setHome encoderZero => s.setHome encoderZero

theorem apply_coherent {s : PosScale} (h : s.Coherent) (c : ScaleCall) : (c.apply s).Coherent := by
  cases c with
  | init countsPerUnit posMin posMax => exact PosScale.init_coherent countsPerUnit posMin posMax
  | setHome encoderZero => exact h.setHome encoderZero

/-- The two kinds of limits agree after any calls. -/
theorem foldl_coherent {s : PosScale} (h : s.Coherent) (cs : List ScaleCall) :
    (cs.foldl ScaleCall.apply s).Coherent := by
  induction cs generalizing s with
  | nil => exact h
  | cons c cs ih => exact ih (apply_coherent h c)

end ScaleCall

end H750Stepper
