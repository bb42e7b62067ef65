import H750Stepper.Position.Tick

/-!
# Targets in physical units

A soft limit is kept in the unit of the scale and in encoder counts. `physical_agrees`: the two
agree after any calls on the scale, so that a target within the limits of the unit also passes the
tests of `setTarget` and `moveTo`, which are made in counts.
-/

namespace H750Stepper

open Threads CInt

namespace PosLoop

variable (cfg : PosConfig)

/-- A move of a running loop without a fault passes its tests with a target that the limits in
counts accept. -/
theorem exec_moveTo (target : ℤ) (timeoutMs polls : ℕ) {s : PosSys} (hrun : s.pl.running = true)
    (hfault : s.drv.motor.faultState = .none) (haccept : s.Accepts target) :
    (moveTo cfg target timeoutMs polls).exec PosAct.eff s =
      (moveChecked cfg target timeoutMs polls).exec PosAct.eff s := by
  unfold moveTo
  rw [exec_readRunning_bind, if_pos hrun, Prog.ask_bind, Prog.exec_act]
  show Prog.exec _ (if s.drv.motor.faultState ≠ .none then _ else _) s = _
  rw [if_neg (not_not.mpr hfault), exec_read_bind, if_neg (not_lt.mpr haccept.1), exec_read_bind,
    if_neg (not_lt.mpr haccept.2)]

/-- A target in the unit is tested in the unit, and becomes a target in counts. -/
theorem exec_moveToPhysical (target : ℚ) (timeoutMs polls : ℕ) (s : PosSys) :
    (moveToPhysical cfg target timeoutMs polls).exec PosAct.eff s =
      if s.scale.checkRange target then
        (moveTo cfg (s.scale.toCounts target) timeoutMs polls).exec PosAct.eff s
      else (some motorEOutOfRange, s) := by
  unfold moveToPhysical
  rw [exec_read_bind]
  split_ifs <;> rfl

theorem exec_setTarget_of_accepts {target : ℤ} {s : PosSys} (h : s.Accepts target) :
    ((setTarget target).exec PosAct.eff s).2.pl.targetPos = target := by
  rw [PosSys.exec_setTarget]
  unfold PosSys.retargeted
  rw [if_pos h]

end PosLoop

open PosLoop

/-- A target within the limits of the unit passes the tests in counts: `setTarget` takes it, and a
move of a running loop without a fault, in counts or in the unit, gets past its checks. -/
def PosSys.Takes (s : PosSys) (target : ℚ) : Prop :=
  ((setTarget (s.scale.toCounts target)).exec PosAct.eff s).2.pl.targetPos =
      s.scale.toCounts target ∧
    (s.pl.running = true → s.drv.motor.faultState = .none → ∀ cfg timeoutMs polls,
      (moveTo cfg (s.scale.toCounts target) timeoutMs polls).exec PosAct.eff s =
          (moveChecked cfg (s.scale.toCounts target) timeoutMs polls).exec PosAct.eff s ∧
        (moveToPhysical cfg target timeoutMs polls).exec PosAct.eff s =
          (moveChecked cfg (s.scale.toCounts target) timeoutMs polls).exec PosAct.eff s)

theorem PosSys.takes_of_coherent {s : PosSys} (hs : s.scale.Coherent) {target : ℚ}
    (ht : s.scale.checkRange target = true) : s.Takes target := by
  have haccept : s.Accepts (s.scale.toCounts target) := hs.counts_mem ht
  refine ⟨exec_setTarget_of_accepts haccept, fun hrun hfault cfg timeoutMs polls => ?_⟩
  have hmove := exec_moveTo cfg (s.scale.toCounts target) timeoutMs polls hrun hfault haccept
  refine ⟨hmove, ?_⟩
  rw [exec_moveToPhysical, if_pos ht, hmove]

/-- **Physical and count coordinates agree.** After the init of a scale and any calls on it, the
limits in counts are the conversions of the limits in the unit for the current home offset; the
conversion is monotone, so that a target within the limits of the unit passes the tests in counts;
and the conversions to counts and back lose nothing one way and less than a count the other, where
the values converted fit their words. -/
theorem physical_agrees (countsPerUnit posMin posMax : ℚ) (cs : List ScaleCall) :
    let s := cs.foldl ScaleCall.apply (PosScale.init countsPerUnit posMin posMax)
    s.posMinCounts = s.toCounts s.posMin ∧ s.posMaxCounts = s.toCounts s.posMax ∧
      Monotone s.toCounts ∧
      (∀ sys : PosSys, sys.scale = s → ∀ x, s.checkRange x = true → sys.Takes x) ∧
      (∀ c, Fits 32 c → Fits 32 (c - s.homeOffset) → s.toCounts (s.toPhysical c) = c) ∧
      ∀ x, Fits 32 (trunc (s.homeOffset + x * s.countsPerUnit)) →
        Fits 32 (s.toCounts x - s.homeOffset) →
        |s.toPhysical (s.toCounts x) - x| < 1 / s.countsPerUnit := by
  intro s
  have hs : s.Coherent :=
    ScaleCall.foldl_coherent (PosScale.init_coherent countsPerUnit posMin posMax) cs
  refine ⟨hs.low, hs.high, hs.toCounts_mono, ?_, fun c => hs.toCounts_toPhysical, fun x =>
    hs.abs_toPhysical_sub_lt⟩
  intro sys hsys x hx
  rw [← hsys] at hs hx
  exact PosSys.takes_of_coherent hs hx

/-- A scale of 100 counts a unit, with the home at count 37. -/
theorem physical_agrees_at_home :
    let s := (PosScale.init 100 (-10) 10).setHome 37
    s.posMinCounts = -963 ∧ s.posMaxCounts = 1037 ∧ s.toCounts (s.toPhysical 5) = 5 ∧
      |s.toPhysical (s.toCounts (1 / 3)) - 1 / 3| < 1 / 100 := by
  obtain ⟨hlow, hhigh, -, -, hcounts, hunit⟩ := physical_agrees 100 (-10) 10 [.setHome 37]
  refine ⟨hlow.trans (by decide +kernel), hhigh.trans (by decide +kernel), ?_, ?_⟩
  · exact hcounts 5 (by decide) (by decide +kernel)
  · exact hunit (1 / 3) (by decide +kernel) (by decide +kernel)

end H750Stepper
