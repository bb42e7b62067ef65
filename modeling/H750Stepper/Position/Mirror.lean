import H750Stepper.Lib.Session
import H750Stepper.Position.Tick

/-!
# The position loop in the mirror

The tick treats both directions alike: from the negated state and reading it reaches the negated
state, with the same frequency in the other direction. The drivers differ in their direction and in
the steps they have counted only (`Twins`).

`mirror_run`: as long as no 32-bit operation overflows, mirrored runs stay mirrored.
-/

namespace H750Stepper

open Threads CInt

/-! ## The drivers -/

namespace MotorSys

/-- The drivers differ in their direction and in the steps they have counted only. -/
def Twins (d d' : MotorSys) : Prop :=
  ∃ dir currentDir totalSteps,
    d' = { d with dir, motor.currentDir := currentDir, motor.totalSteps := totalSteps }

theorem Twins.refl (d : MotorSys) : d.Twins d := ⟨_, _, _, rfl⟩

variable {d d' : MotorSys}

theorem Twins.stepsAccumulate (h : d.Twins d') : d.stepsAccumulate.Twins d'.stepsAccumulate := by
  obtain ⟨dir, currentDir, totalSteps, rfl⟩ := h
  unfold MotorSys.stepsAccumulate
  dsimp only [rtTickGet]
  split_ifs <;> exact ⟨_, _, _, rfl⟩

theorem Twins.stopSection (h : d.Twins d') : d.stopSection.Twins d'.stopSection := by
  obtain ⟨dir, currentDir, totalSteps, hacc⟩ := h.stepsAccumulate
  unfold MotorSys.stopSection
  rw [hacc]
  exact ⟨_, _, _, rfl⟩

/-- They may be given different directions. -/
theorem Twins.setDirectionSection (h : d.Twins d') (x y : ℤ) :
    (d.setDirectionSection x).Twins (d'.setDirectionSection y) := by
  obtain ⟨dir, currentDir, totalSteps, hacc⟩ := h.stepsAccumulate
  unfold MotorSys.setDirectionSection
  rw [hacc]
  exact ⟨_, _, _, rfl⟩

theorem Twins.setFrequencySection (h : d.Twins d') (clamped : ℕ) :
    (d.setFrequencySection clamped).Twins (d'.setFrequencySection clamped) := by
  obtain ⟨dir, currentDir, totalSteps, hacc⟩ := h.stepsAccumulate
  unfold MotorSys.setFrequencySection freqWriteRaw
  rw [hacc]
  dsimp only
  split_ifs <;> exact ⟨_, _, _, rfl⟩

theorem Twins.elapse (h : d.Twins d') (e : MotorEnv) : (e.eff d).Twins (e.eff d') := by
  obtain ⟨dir, currentDir, totalSteps, rfl⟩ := h
  cases e <;> exact ⟨_, _, _, rfl⟩

theorem Twins.checked (h : d.Twins d') : d.checked.Twins d'.checked ∧ (d'.Faulty ↔ d.Faulty) := by
  obtain ⟨dir, currentDir, totalSteps, rfl⟩ := h
  unfold MotorSys.checked Faulty
  rw [exec_checkFault, exec_checkFault]
  dsimp only
  split_ifs
  · exact ⟨⟨_, _, _, rfl⟩, Iff.rfl⟩
  · exact ⟨⟨_, _, _, rfl⟩, Iff.rfl⟩
  · exact ⟨Twins.stopSection ⟨_, _, _, rfl⟩, Iff.rfl⟩
  · exact ⟨⟨_, _, _, rfl⟩, Iff.rfl⟩

theorem Twins.dozed (h : d.Twins d') : d.dozed.Twins d'.dozed := by
  have hover : d'.IdleExpired ↔ d.IdleExpired := by
    obtain ⟨dir, currentDir, totalSteps, rfl⟩ := h
    exact Iff.rfl
  have hskip : (!d'.motor.idleReduce || d'.motor.running) =
      (!d.motor.idleReduce || d.motor.running) := by
    obtain ⟨dir, currentDir, totalSteps, rfl⟩ := h
    rfl
  unfold MotorSys.dozed
  rw [exec_idleTick, exec_idleTick, hskip]
  by_cases hrest : (!d.motor.idleReduce || d.motor.running) = true
  · rw [if_pos hrest, if_pos hrest]
    exact h
  · rw [if_neg hrest, if_neg hrest]
    by_cases ho : d.IdleExpired
    · rw [if_pos ho, if_pos (hover.mpr ho)]
      obtain ⟨dir, currentDir, totalSteps, rfl⟩ := h
      exact ⟨dir, currentDir, totalSteps, rfl⟩
    · rw [if_neg ho, if_neg fun h' => ho (hover.mp h')]
      exact h

theorem Twins.obey (h : d.Twins d') {c c' : Command} (hfreq : c'.freqHz = c.freqHz) :
    (d.obey c).Twins (d'.obey c') := by
  have hdir := h.setDirectionSection c.dir c'.dir
  unfold MotorSys.obey
  rw [exec_setFrequency, exec_setFrequency, hfreq]
  have hfault : (d'.setDirectionSection c'.dir).motor.faultState =
      (d.setDirectionSection c.dir).motor.faultState := by
    obtain ⟨_, _, _, heq⟩ := hdir
    rw [heq]
  rw [hfault]
  split_ifs
  · exact hdir
  · exact hdir.setFrequencySection _

end MotorSys

/-! ## The PID -/

namespace Pid

/-- The negated controller. -/
def mirror (pid : Pid) : Pid :=
  { pid with
    target := -pid.target
    actual := -pid.actual
    err := -pid.err
    errLast := -pid.errLast
    integralAcc := -pid.integralAcc
    output := -pid.output }

theorem limited_neg (limit x : ℚ) : limited limit (-x) = -limited limit x := by
  unfold limited
  split_ifs with h
  · exact clampTo_neg h.le x
  · rfl

theorem errOf_mirror (pid : Pid) (actual : ℚ) : pid.mirror.errOf (-actual) = -pid.errOf actual := by
  show limited pid.errorLimit (-pid.target - -actual) =
    -limited pid.errorLimit (pid.target - actual)
  rw [← limited_neg]
  congr 1
  ring

theorem pTerm_mirror (pid : Pid) (actual : ℚ) :
    pid.mirror.pTerm (-actual) = -pid.pTerm actual := by
  unfold pTerm
  rw [errOf_mirror]
  exact mul_neg _ _

theorem iTerm_mirror (pid : Pid) : pid.mirror.iTerm = -pid.iTerm := mul_neg _ _

theorem dTerm_mirror (pid : Pid) (actual : ℚ) :
    pid.mirror.dTerm (-actual) = -pid.dTerm actual := by
  unfold dTerm
  rw [errOf_mirror]
  show pid.kd * (-pid.errOf actual - -pid.errLast) = _
  ring

theorem sumOf_mirror (pid : Pid) (actual : ℚ) :
    pid.mirror.sumOf (-actual) = -pid.sumOf actual := by
  unfold sumOf
  rw [pTerm_mirror, iTerm_mirror, dTerm_mirror]
  ring

theorem integralFor_mirror (pid : Pid) (x : ℚ) :
    pid.mirror.integralFor (-x) = -pid.integralFor x := by
  unfold integralFor
  show (if pid.ki ≠ 0 then -x / pid.ki else -pid.integralAcc) = _
  split_ifs
  · exact neg_div _ _
  · rfl

/-- The saturation at one limit mirrors that at the other. -/
theorem nextIntegral_mirror (pid : Pid) (actual : ℚ) :
    pid.mirror.nextIntegral (-actual) = -pid.nextIntegral actual := by
  unfold nextIntegral
  rw [sumOf_mirror, pTerm_mirror, dTerm_mirror, errOf_mirror]
  show (if pid.outputLimit > 0 ∧ -pid.sumOf actual > pid.outputLimit then
      pid.mirror.integralFor (max (pid.outputLimit - -pid.pTerm actual - -pid.dTerm actual) 0)
    else if pid.outputLimit > 0 ∧ -pid.sumOf actual < -pid.outputLimit then
      pid.mirror.integralFor (min (-pid.outputLimit - -pid.pTerm actual - -pid.dTerm actual) 0)
    else if pid.ki ≠ 0 then limited pid.integralLimit (-pid.integralAcc + -pid.errOf actual)
    else -pid.integralAcc) = _
  by_cases hhi : pid.outputLimit > 0 ∧ pid.sumOf actual > pid.outputLimit
  · have hhi' : ¬(pid.outputLimit > 0 ∧ -pid.sumOf actual > pid.outputLimit) := by
      intro h
      linarith [h.2, hhi.2, hhi.1]
    have hlo' : pid.outputLimit > 0 ∧ -pid.sumOf actual < -pid.outputLimit :=
      ⟨hhi.1, neg_lt_neg hhi.2⟩
    have harg : min (-pid.outputLimit - -pid.pTerm actual - -pid.dTerm actual) 0 =
        -max (pid.outputLimit - pid.pTerm actual - pid.dTerm actual) 0 := by
      rw [← min_neg_neg, neg_zero]
      congr 1
      ring
    rw [if_neg hhi', if_pos hlo', if_pos hhi, harg, integralFor_mirror]
  · have hlo' : ¬(pid.outputLimit > 0 ∧ -pid.sumOf actual < -pid.outputLimit) :=
      fun h => hhi ⟨h.1, neg_lt_neg_iff.mp h.2⟩
    rw [if_neg hlo', if_neg hhi]
    by_cases hlo : pid.outputLimit > 0 ∧ pid.sumOf actual < -pid.outputLimit
    · have hhi' : pid.outputLimit > 0 ∧ -pid.sumOf actual > pid.outputLimit :=
        ⟨hlo.1, lt_neg.mp hlo.2⟩
      have harg : max (pid.outputLimit - -pid.pTerm actual - -pid.dTerm actual) 0 =
          -min (-pid.outputLimit - pid.pTerm actual - pid.dTerm actual) 0 := by
        rw [← max_neg_neg, neg_zero]
        congr 1
        ring
      rw [if_pos hhi', if_pos hlo, harg, integralFor_mirror]
    · have hhi' : ¬(pid.outputLimit > 0 ∧ -pid.sumOf actual > pid.outputLimit) :=
        fun h => hlo ⟨h.1, lt_neg.mpr h.2⟩
      rw [if_neg hhi', if_neg hlo]
      split_ifs
      · rw [← neg_add, limited_neg]
      · rfl

theorem calculated_mirror (pid : Pid) (actual : ℚ) :
    pid.mirror.calculated (-actual) = (pid.calculated actual).mirror := by
  have hout : limited pid.outputLimit (pid.mirror.sumOf (-actual)) =
      -limited pid.outputLimit (pid.sumOf actual) := by
    rw [sumOf_mirror, limited_neg]
  unfold calculated
  rw [nextIntegral_mirror, errOf_mirror]
  show ({ pid.mirror with
    actual := -actual
    err := -pid.errOf actual
    errLast := -pid.errOf actual
    integralAcc := -pid.nextIntegral actual
    output := limited pid.outputLimit (pid.mirror.sumOf (-actual)) } : Pid) = _
  rw [hout]
  rfl

theorem cleared_mirror (pid : Pid) : pid.mirror.cleared = pid.cleared.mirror := by
  unfold cleared mirror
  simp

end Pid

/-! ## The ramp -/

namespace PosConfig

variable {cfg : PosConfig} {sqrtf : ℚ → ℚ}

/-- The limits of the controller are not negative. -/
structure Nonneg (cfg : PosConfig) : Prop where
  maxAccel : 0 ≤ cfg.maxAccel
  sCurveJerk : 0 ≤ cfg.sCurveJerk
  rampMaxSpeed : 0 ≤ cfg.rampMaxSpeed
  speedLimit : 0 ≤ cfg.speedLimit

theorem position_neg {reading : ℤ} (h : |reading| < 2 ^ 31) :
    cfg.position (-reading) = -cfg.position reading := by
  rw [abs_lt] at h
  unfold position
  rw [neg_neg, wrap_of_fits ⟨by omega, by omega⟩, wrap_of_fits ⟨by omega, by omega⟩]
  split_ifs
  · exact (neg_neg reading).symm
  · rfl

theorem wantedSpeed_neg (err : ℤ) :
    cfg.wantedSpeed sqrtf (-err) = -cfg.wantedSpeed sqrtf err := by
  unfold wantedSpeed
  dsimp only
  rw [Int.cast_neg, abs_neg, Int.sign_neg, Int.cast_neg, mul_neg]

theorem nextAccel_neg (hcfg : cfg.Nonneg) (err : ℤ) (speed accel : ℚ) :
    cfg.nextAccel sqrtf (-err) (-speed) (-accel) = -cfg.nextAccel sqrtf err speed accel := by
  unfold nextAccel
  rw [wantedSpeed_neg, ← neg_sub', clampTo_neg hcfg.maxAccel, Ramp.toward_neg hcfg.sCurveJerk]

theorem nextSpeed_neg (hcfg : cfg.Nonneg) (speed accel : ℚ) :
    cfg.nextSpeed (-speed) (-accel) = -cfg.nextSpeed speed accel := by
  unfold nextSpeed
  rw [← neg_add, clampTo_neg hcfg.rampMaxSpeed]

theorem rampStep_neg {speed : ℚ} (h : |speed / cfg.freqHz| < 2 ^ 31) :
    cfg.rampStep (-speed) = -cfg.rampStep speed := by
  unfold rampStep
  rw [neg_div, toInt32_neg h]

theorem lead_neg (speed : ℚ) : cfg.lead (-speed) = cfg.lead speed := by
  unfold lead
  rw [abs_neg]

theorem lead_pos (speed : ℚ) : 0 < cfg.lead speed := by
  unfold lead
  omega

end PosConfig

theorem sub32_neg {x y : ℤ} (h : |x - y| < 2 ^ 31) : sub32 (-x) (-y) = -sub32 x y := by
  have h' : |-x - -y| < 2 ^ 31 := by rwa [← neg_sub', abs_neg]
  rw [sub32_of_abs_lt h, sub32_of_abs_lt h']
  ring

theorem notPast_neg (err target ramp : ℤ) :
    notPast (-err) (-target) (-ramp) = -notPast err target ramp := by
  unfold notPast
  split_ifs <;> omega

theorem heldAt_neg (target current ramp : ℤ) :
    heldAt (-target) (-current) (-ramp) = -heldAt target current ramp := by
  unfold heldAt
  split_ifs <;> omega

theorem withinLead_neg {lead current ramp : ℤ} (hlead : 0 < lead) (hcur : |current| < 2 ^ 31)
    (hramp : |ramp| < 2 ^ 31) (hdist : |ramp - current| < 2 ^ 31) :
    withinLead lead (-current) (-ramp) = -withinLead lead current ramp := by
  have hdist' : |current - ramp| < 2 ^ 31 := by rwa [abs_sub_comm]
  rw [abs_lt] at hcur hramp
  unfold withinLead
  rw [sub32_neg hdist, sub32_neg hdist', sub32_of_abs_lt hdist, sub32_of_abs_lt hdist']
  rcases lt_or_ge lead (ramp - current) with hahead | hahead
  · rw [if_neg (by omega), if_pos (by omega), if_pos hahead, wrap_of_fits ⟨by omega, by omega⟩,
      wrap_of_fits ⟨by omega, by omega⟩]
    ring
  · rcases lt_or_ge lead (current - ramp) with hbehind | hbehind
    · rw [if_pos (by omega), if_neg (by omega), if_pos hbehind, wrap_of_fits ⟨by omega, by omega⟩,
        wrap_of_fits ⟨by omega, by omega⟩]
      ring
    · rw [if_neg (by omega), if_neg (by omega), if_neg (by omega), if_neg (by omega)]

/-- The step of the ramp at the speed `speed` fits in a word, and so does its distance from the
motor. -/
structure PosConfig.StepFits (cfg : PosConfig) (err target current ramp : ℤ) (speed : ℚ) :
    Prop where
  step : |speed / cfg.freqHz| < 2 ^ 31
  pos : |ramp + cfg.rampStep speed| < 2 ^ 31
  lead : |notPast err target (ramp + cfg.rampStep speed) - current| < 2 ^ 31

instance (cfg : PosConfig) (err target current ramp : ℤ) (speed : ℚ) :
    Decidable (cfg.StepFits err target current ramp speed) :=
  decidable_of_iff (_ ∧ _ ∧ _) ⟨fun h => ⟨h.1, h.2.1, h.2.2⟩, fun h => ⟨h.step, h.pos, h.lead⟩⟩

theorem PosConfig.StepFits.abs_notPast_lt {cfg : PosConfig} {err target current ramp : ℤ}
    {speed : ℚ} (h : cfg.StepFits err target current ramp speed) (htarget : |target| < 2 ^ 31) :
    |notPast err target (ramp + cfg.rampStep speed)| < 2 ^ 31 := by
  unfold notPast
  split_ifs
  · exact htarget
  · exact h.pos

theorem PosConfig.StepFits.nextPos_neg {cfg : PosConfig} {err target current ramp : ℤ} {speed : ℚ}
    (h : cfg.StepFits err target current ramp speed) (htarget : |target| < 2 ^ 31)
    (hcur : |current| < 2 ^ 31) :
    cfg.nextPos (-err) (-target) (-current) (-ramp) (-speed) =
      -cfg.nextPos err target current ramp speed := by
  have hpos := abs_lt.mp h.pos
  unfold nextPos
  rw [rampStep_neg h.step, ← neg_add, wrap_of_fits ⟨by omega, by omega⟩,
    wrap_of_fits ⟨by omega, by omega⟩, notPast_neg, lead_neg,
    withinLead_neg (lead_pos _) hcur (h.abs_notPast_lt htarget) h.lead, heldAt_neg]

/-! ## The loop -/

namespace PosLoop

variable {cfg : PosConfig} {sqrtf : ℚ → ℚ} {pl : PosLoop}

/-- The negated loop. -/
def mirror (pl : PosLoop) : PosLoop :=
  { pl with
    targetPos := -pl.targetPos
    rampPos := -pl.rampPos
    rampSpeed := -pl.rampSpeed
    rampAccel := -pl.rampAccel
    lastEnc := -pl.lastEnc
    currentPos := -pl.currentPos
    prevPosErr := -pl.prevPosErr
    outputFreq := -pl.outputFreq }

/-- No 32-bit operation of a tick overflows, from the position on. -/
structure InRange (cfg : PosConfig) (sqrtf : ℚ → ℚ) (pl : PosLoop) : Prop where
  target : |pl.targetPos| < 2 ^ 31
  current : |pl.currentPos| < 2 ^ 31
  rampErr : |pl.targetPos - pl.rampPos| < 2 ^ 31
  step : pl.rampErr ≠ 0 → cfg.StepFits pl.rampErr pl.targetPos pl.currentPos pl.rampPos
    (cfg.nextSpeed pl.rampSpeed (cfg.nextAccel sqrtf pl.rampErr pl.rampSpeed pl.rampAccel))
  posErr : |(pl.ramped cfg sqrtf).rampPos - pl.currentPos| < 2 ^ 31
  finalErr : |pl.targetPos - pl.currentPos| < 2 ^ 31

instance (cfg : PosConfig) (sqrtf : ℚ → ℚ) (pl : PosLoop) : Decidable (pl.InRange cfg sqrtf) :=
  decidable_of_iff (_ ∧ _ ∧ _ ∧ _ ∧ _ ∧ _)
    ⟨fun h => ⟨h.1, h.2.1, h.2.2.1, h.2.2.2.1, h.2.2.2.2.1, h.2.2.2.2.2⟩,
      fun h => ⟨h.target, h.current, h.rampErr, h.step, h.posErr, h.finalErr⟩⟩

theorem rampErr_mirror (h : |pl.targetPos - pl.rampPos| < 2 ^ 31) :
    pl.mirror.rampErr = -pl.rampErr := sub32_neg h

/-- The ramp goes the same way on the other side. -/
theorem ramped_mirror (hcfg : cfg.Nonneg) (h : pl.InRange cfg sqrtf) :
    pl.mirror.ramped cfg sqrtf = (pl.ramped cfg sqrtf).mirror := by
  have herr := rampErr_mirror h.rampErr
  unfold ramped
  by_cases hzero : pl.rampErr = 0
  · rw [if_pos hzero, if_pos (by rw [herr, hzero, neg_zero])]
    unfold mirror
    simp
  · have hne : -pl.rampErr ≠ 0 := neg_ne_zero.mpr hzero
    rw [if_neg hzero, herr, if_neg hne]
    dsimp only [mirror]
    rw [PosConfig.nextAccel_neg hcfg, PosConfig.nextSpeed_neg hcfg,
      (h.step hzero).nextPos_neg h.target h.current]

theorem nearFreq_neg (err : ℤ) : nearFreq (-err) = -nearFreq err := by
  unfold nearFreq
  rcases lt_trichotomy err 0 with h | rfl | h
  · rw [if_neg (by omega), if_neg h.ne, Int.cast_neg, abs_neg]
    dsimp only
    rw [if_pos (by omega : -err > 0), if_neg (by omega : ¬err > 0), neg_neg]
  · rfl
  · rw [if_neg (by omega), if_neg h.ne', Int.cast_neg, abs_neg]
    dsimp only
    rw [if_neg (by omega : ¬-err > 0), if_pos h]

theorem posErr_mirror (h : |pl.rampPos - pl.currentPos| < 2 ^ 31) :
    pl.mirror.posErr = -pl.posErr := sub32_neg h

theorem finalErr_mirror (h : |pl.targetPos - pl.currentPos| < 2 ^ 31) :
    pl.mirror.finalErr = -pl.finalErr := sub32_neg h

theorem crosses_mirror (h : |pl.rampPos - pl.currentPos| < 2 ^ 31) :
    pl.mirror.Crosses ↔ pl.Crosses := by
  have hprev : pl.mirror.prevPosErr = -pl.prevPosErr := rfl
  unfold Crosses
  rw [posErr_mirror h, hprev]
  omega

theorem near_mirror (h : |pl.targetPos - pl.currentPos| < 2 ^ 31) :
    pl.mirror.Near ↔ pl.Near := by
  unfold Near
  rw [finalErr_mirror h, Int.cast_neg, abs_neg]

variable (hpos : |pl.rampPos - pl.currentPos| < 2 ^ 31)
  (hfinal : |pl.targetPos - pl.currentPos| < 2 ^ 31)
include hpos hfinal

theorem nextPid_mirror (pid : Pid) : pl.mirror.nextPid pid.mirror = (pl.nextPid pid).mirror := by
  have hcleared : (if pl.mirror.Crosses then pid.mirror.cleared else pid.mirror) =
      (if pl.Crosses then pid.cleared else pid).mirror := by
    by_cases h : pl.Crosses
    · rw [if_pos h, if_pos ((crosses_mirror hpos).mpr h), Pid.cleared_mirror]
    · rw [if_neg h, if_neg fun h' => h ((crosses_mirror hpos).mp h')]
  unfold nextPid
  rw [hcleared]
  by_cases h : pl.Near
  · rw [if_pos h, if_pos ((near_mirror hfinal).mpr h)]
  · rw [if_neg h, if_neg fun h' => h ((near_mirror hfinal).mp h'), ← Pid.calculated_mirror]
    have hcur : (pl.mirror.currentPos : ℚ) = -pl.currentPos := Int.cast_neg _
    have hramp : (pl.mirror.rampPos : ℚ) = -pl.rampPos := Int.cast_neg _
    rw [hcur, hramp]
    rfl

theorem freqOut_mirror (hcfg : cfg.Nonneg) (pid : Pid) :
    pl.mirror.freqOut cfg pid.mirror = -pl.freqOut cfg pid := by
  have hcorr : 0 ≤ cfg.rampMaxSpeed * (1 / 20) := mul_nonneg hcfg.rampMaxSpeed (by norm_num)
  have hout : (pl.nextPid pid).mirror.output = -(pl.nextPid pid).output := rfl
  have hspeed : pl.mirror.rampSpeed = -pl.rampSpeed := rfl
  unfold freqOut
  by_cases h : pl.Near
  · rw [if_pos h, if_pos ((near_mirror hfinal).mpr h), finalErr_mirror hfinal, nearFreq_neg]
  · rw [if_neg h, if_neg fun h' => h ((near_mirror hfinal).mp h'), nextPid_mirror hpos hfinal,
      hout, hspeed, clampTo_neg hcorr, ← neg_add, clampTo_neg hcfg.speedLimit]

theorem controlled_mirror (hcfg : cfg.Nonneg) (pid : Pid) :
    pl.mirror.controlled cfg pid.mirror = (pl.controlled cfg pid).mirror := by
  have hspeed : (if pl.mirror.Near then 0 else pl.mirror.rampSpeed) =
      -(if pl.Near then 0 else pl.rampSpeed) := by
    by_cases h : pl.Near
    · rw [if_pos h, if_pos ((near_mirror hfinal).mpr h), neg_zero]
    · rw [if_neg h, if_neg fun h' => h ((near_mirror hfinal).mp h')]
      rfl
  unfold controlled
  rw [posErr_mirror hpos, hspeed, freqOut_mirror hpos hfinal hcfg]
  rfl

end PosLoop

/-- The same frequency, and, unless it is 0, opposite directions. -/
structure Command.Mirrors (c c' : Command) : Prop where
  freqHz : c'.freqHz = c.freqHz
  dir : c.freqHz ≠ 0 →
    c.dir = motorDirCw ∧ c'.dir = motorDirCcw ∨ c.dir = motorDirCcw ∧ c'.dir = motorDirCw

theorem PosLoop.command_mirror {pl : PosLoop} (h : |pl.targetPos - pl.currentPos| < 2 ^ 31) :
    pl.command.Mirrors pl.mirror.command := by
  have hout : pl.mirror.outputFreq = -pl.outputFreq := rfl
  constructor
  · unfold command
    dsimp only
    rw [hout, finalErr_mirror h, Int.cast_neg, abs_neg, abs_neg]
  · intro hfreq
    have hne : pl.outputFreq ≠ 0 := mt command_freqHz_of_zero hfreq
    unfold command
    dsimp only
    rw [hout]
    rcases lt_or_gt_of_ne hne with hneg | hpos
    · rw [if_neg hneg.not_gt, if_pos (neg_pos.mpr hneg)]
      exact .inr ⟨rfl, rfl⟩
    · rw [if_pos hpos, if_neg (by linarith)]
      exact .inl ⟨rfl, rfl⟩

/-! ## The whole tick -/

/-- `b` is the negation of `a`, but for the three fields that a tick writes before it reads them. -/
def PosLoop.Mirrors (a b : PosLoop) : Prop :=
  ∃ currentPos lastEnc outputFreq, b = { a.mirror with currentPos, lastEnc, outputFreq }

/-- `b` is the negation of `a`, but for the field that a calculation writes first. -/
def Pid.Mirrors (a b : Pid) : Prop := ∃ actual, b = { a.mirror with actual }

/-- The state `b` is the state `a` in the mirror. -/
structure PosSys.Mirrors (a b : PosSys) : Prop where
  pl : a.pl.Mirrors b.pl
  pid : a.pid.Mirrors b.pid
  reading : b.enc.read.overflow = -a.enc.read.overflow
  drv : a.drv.Twins b.drv

/-- No 32-bit operation of a tick overflows. -/
structure PosSys.NoOverflow (cfg : PosConfig) (sqrtf : ℚ → ℚ) (s : PosSys) : Prop where
  reading : s.pl.running = true → |s.enc.read.overflow| < 2 ^ 31
  inRange : s.Regulates → (s.sensed cfg).pl.InRange cfg sqrtf

instance (cfg : PosConfig) (sqrtf : ℚ → ℚ) (s : PosSys) : Decidable (s.NoOverflow cfg sqrtf) :=
  decidable_of_iff (_ ∧ _) ⟨fun h => ⟨h.1, h.2⟩, fun h => ⟨h.reading, h.inRange⟩⟩

/-- The encoder is read again where it stands. -/
theorem Encoder.read_read (enc : Encoder) : enc.read.read.overflow = enc.read.overflow := by
  have hstay : wrap 16 ((enc.read.cnt : ℤ) - enc.read.lastRaw) = 0 := by
    show wrap 16 ((enc.cnt : ℤ) - enc.cnt) = 0
    rw [sub_self]
    exact wrap_of_fits (by decide)
  have hword : Fits 32 enc.read.overflow := fits_wrap (by decide) _
  show wrap 32 (enc.read.overflow + wrap 16 ((enc.read.cnt : ℤ) - enc.read.lastRaw)) = _
  rw [hstay, add_zero, wrap_of_fits hword]

/-! ### Fields that are written first -/

theorem PosLoop.ramped_outputFreq (cfg : PosConfig) (sqrtf : ℚ → ℚ) (pl : PosLoop)
    (outputFreq : ℚ) :
    ({ pl with outputFreq } : PosLoop).ramped cfg sqrtf =
      { pl.ramped cfg sqrtf with outputFreq } := by
  have herr : ({ pl with outputFreq } : PosLoop).rampErr = pl.rampErr := rfl
  unfold ramped
  rw [herr]
  by_cases h : pl.rampErr = 0
  · rw [if_pos h, if_pos h]
  · rw [if_neg h, if_neg h]

theorem PosLoop.nextPid_actual (pl : PosLoop) (pid : Pid) (actual : ℚ) :
    (∃ x, pl.nextPid { pid with actual } = { pl.nextPid pid with actual := x }) ∧
      (¬pl.Near → pl.nextPid { pid with actual } = pl.nextPid pid) := by
  unfold nextPid
  by_cases hcross : pl.Crosses
  · rw [if_pos hcross, if_pos hcross]
    exact ⟨⟨_, rfl⟩, fun _ => rfl⟩
  · rw [if_neg hcross, if_neg hcross]
    by_cases hnear : pl.Near
    · rw [if_pos hnear, if_pos hnear]
      exact ⟨⟨actual, rfl⟩, fun h => absurd hnear h⟩
    · rw [if_neg hnear, if_neg hnear]
      exact ⟨⟨_, rfl⟩, fun _ => rfl⟩

theorem PosLoop.controlled_actual (cfg : PosConfig) (pl : PosLoop) (pid : Pid) (actual : ℚ) :
    pl.controlled cfg { pid with actual } = pl.controlled cfg pid := by
  have hfreq : pl.freqOut cfg { pid with actual } = pl.freqOut cfg pid := by
    unfold freqOut
    by_cases hnear : pl.Near
    · rw [if_pos hnear, if_pos hnear]
    · rw [if_neg hnear, if_neg hnear, (pl.nextPid_actual pid actual).2 hnear]
  unfold controlled
  rw [hfreq]

namespace PosSys

open PosLoop

variable {cfg : PosConfig} {sqrtf : ℚ → ℚ} {a b : PosSys}

theorem Mirrors.running (h : a.Mirrors b) : b.pl.running = a.pl.running := by
  obtain ⟨_, _, _, hpl⟩ := h.pl
  rw [hpl]
  rfl

theorem Mirrors.regulates (h : a.Mirrors b) : b.Regulates ↔ a.Regulates := by
  unfold Regulates
  rw [h.running, h.drv.checked.2]

theorem Mirrors.stopped (h : a.Mirrors b) : a.stopped.Mirrors b.stopped := by
  obtain ⟨c, e, o, hpl⟩ := h.pl
  obtain ⟨x, hpid⟩ := h.pid
  refine ⟨⟨c, e, 0, ?_⟩, ⟨0, ?_⟩, h.reading, h.drv.stopSection⟩
  · unfold PosSys.stopped mirror
    rw [hpl]
    simp [mirror]
  · unfold PosSys.stopped Pid.mirror Pid.cleared
    rw [hpid]
    simp [Pid.mirror]

/-- The position is negated too once it has been read. -/
theorem Mirrors.sensed (cfg : PosConfig) (h : a.Mirrors b)
    (hread : |a.enc.read.overflow| < 2 ^ 31) :
    (a.sensed cfg).Mirrors (b.sensed cfg) ∧
      ∃ outputFreq, (b.sensed cfg).pl = { (a.sensed cfg).pl.mirror with outputFreq } := by
  obtain ⟨c, e, o, hpl⟩ := h.pl
  have hsensed : (b.sensed cfg).pl = { (a.sensed cfg).pl.mirror with outputFreq := o } := by
    unfold PosSys.sensed
    rw [hpl, h.reading, PosConfig.position_neg hread]
    rfl
  refine ⟨⟨⟨_, _, o, hsensed⟩, h.pid, ?_, h.drv⟩, o, hsensed⟩
  show b.enc.read.read.overflow = -a.enc.read.read.overflow
  rw [Encoder.read_read, Encoder.read_read, h.reading]

theorem Mirrors.regulated (hcfg : cfg.Nonneg) (h : a.Mirrors b) {outputFreq : ℚ}
    (hpl : b.pl = { a.pl.mirror with outputFreq }) (hrange : a.pl.InRange cfg sqrtf) :
    (a.regulated cfg sqrtf).Mirrors (b.regulated cfg sqrtf) ∧
      (b.regulated cfg sqrtf).pl = (a.regulated cfg sqrtf).pl.mirror ∧
      (a.regulated cfg sqrtf).pl.command.Mirrors (b.regulated cfg sqrtf).pl.command := by
  obtain ⟨x, hpid⟩ := h.pid
  let ramped := a.pl.ramped cfg sqrtf
  have hcur : ramped.currentPos = a.pl.currentPos := PosLoop.ramped_currentPos cfg sqrtf a.pl
  have htarget : ramped.targetPos = a.pl.targetPos := PosLoop.ramped_targetPos cfg sqrtf a.pl
  have hpos : |ramped.rampPos - ramped.currentPos| < 2 ^ 31 := hcur ▸ hrange.posErr
  have hfinal : |ramped.targetPos - ramped.currentPos| < 2 ^ 31 := by
    rw [hcur, htarget]
    exact hrange.finalErr
  have hramped : b.pl.ramped cfg sqrtf = { ramped.mirror with outputFreq } := by
    rw [hpl, ramped_outputFreq, ramped_mirror hcfg hrange]
  have hcontrolled : (b.regulated cfg sqrtf).pl = (a.regulated cfg sqrtf).pl.mirror := by
    show (b.pl.ramped cfg sqrtf).controlled cfg b.pid = (ramped.controlled cfg a.pid).mirror
    rw [hramped, hpid, controlled_actual, ← controlled_mirror hpos hfinal hcfg]
    rfl
  have hcommand :
      (a.regulated cfg sqrtf).pl.command.Mirrors (b.regulated cfg sqrtf).pl.command := by
    rw [hcontrolled]
    exact command_mirror hfinal
  refine ⟨⟨⟨_, _, _, hcontrolled⟩, ?_, h.reading, ?_⟩, hcontrolled, hcommand⟩
  · obtain ⟨y, hy⟩ := (ramped.mirror.nextPid_actual a.pid.mirror x).1
    refine ⟨y, ?_⟩
    show (b.pl.ramped cfg sqrtf).nextPid b.pid = { (ramped.nextPid a.pid).mirror with actual := y }
    rw [hramped, hpid, ← nextPid_mirror hpos hfinal]
    exact hy
  · exact h.drv.dozed.obey hcommand.freqHz

theorem Mirrors.ticked (hcfg : cfg.Nonneg) (h : a.Mirrors b) (hno : a.NoOverflow cfg sqrtf) :
    (a.ticked cfg sqrtf).Mirrors (b.ticked cfg sqrtf) ∧
      (b.ticked cfg sqrtf).pl.outputFreq = -(a.ticked cfg sqrtf).pl.outputFreq ∧
      (a.pl.running = true → (b.ticked cfg sqrtf).pl = (a.ticked cfg sqrtf).pl.mirror) ∧
      (a.Regulates →
        (a.ticked cfg sqrtf).pl.command.Mirrors (b.ticked cfg sqrtf).pl.command) := by
  have hfault : (b.sensed cfg).drv.Faulty ↔ (a.sensed cfg).drv.Faulty := h.drv.checked.2
  unfold PosSys.ticked
  by_cases hrun : a.pl.running = true
  · obtain ⟨hsensed, o, hpl⟩ := h.sensed cfg (hno.reading hrun)
    let a' : PosSys := { a.sensed cfg with drv := (a.sensed cfg).drv.checked }
    let b' : PosSys := { b.sensed cfg with drv := (b.sensed cfg).drv.checked }
    have hchecked : a'.Mirrors b' :=
      ⟨hsensed.pl, hsensed.pid, hsensed.reading, hsensed.drv.checked.1⟩
    rw [if_pos hrun, if_pos (h.running.trans hrun)]
    dsimp only
    by_cases hf : (a.sensed cfg).drv.Faulty
    · have hwhole : b'.stopped.pl = a'.stopped.pl.mirror := by
        unfold PosSys.stopped mirror
        dsimp only [b']
        rw [hpl]
        simp [mirror, a']
      rw [if_pos hf, if_pos (hfault.mpr hf)]
      exact ⟨hchecked.stopped, neg_zero.symm, fun _ => hwhole, fun hreg => absurd hf hreg.2⟩
    · rw [if_neg hf, if_neg fun h' => hf (hfault.mp h')]
      obtain ⟨hmirror, hwhole, hcommand⟩ :=
        hchecked.regulated hcfg hpl (hno.inRange ⟨hrun, hf⟩)
      exact ⟨hmirror, congrArg outputFreq hwhole, fun _ => hwhole, fun _ => hcommand⟩
  · obtain ⟨c, e, o, hpl⟩ := h.pl
    rw [if_neg hrun, if_neg fun h' => hrun (h.running.symm.trans h')]
    refine ⟨⟨⟨c, e, 0, ?_⟩, h.pid, h.reading, h.drv⟩, neg_zero.symm, fun h' => absurd h' hrun,
      fun hreg => absurd hreg.1 hrun⟩
    rw [hpl]
    simp [mirror]

end PosSys

/-! ## Runs -/

/-- The same happens in the mirror. -/
inductive PosOp.Mirrors : PosOp → PosOp → Prop where
  | tick : Mirrors .tick .tick
  | encoder {enc enc' : Encoder} (h : enc'.read.overflow = -enc.read.overflow) :
      Mirrors (.encoder enc) (.encoder enc')
  | driver (e : MotorEnv) : Mirrors (.driver e) (.driver e)

/-- Two steps from states in the mirror: the states they lead to, their outputs and commands. -/
structure MirrorStep (cfg : PosConfig) (sqrtf : ℚ → ℚ) (x y : PosSys × PosOp) : Prop where
  state : (x.2.apply cfg sqrtf x.1).Mirrors (y.2.apply cfg sqrtf y.1)
  output : x.2 = .tick →
    (y.2.apply cfg sqrtf y.1).pl.outputFreq = -(x.2.apply cfg sqrtf x.1).pl.outputFreq
  whole : x.2 = .tick → x.1.pl.running = true →
    (y.2.apply cfg sqrtf y.1).pl = (x.2.apply cfg sqrtf x.1).pl.mirror
  command : Option.Rel Command.Mirrors (x.2.command cfg sqrtf x.1) (y.2.command cfg sqrtf y.1)

theorem mirrorStep {cfg : PosConfig} (hcfg : cfg.Nonneg) {sqrtf : ℚ → ℚ} {a b : PosSys}
    (h : a.Mirrors b) {op op' : PosOp} (hop : op.Mirrors op')
    (hno : op = .tick → a.NoOverflow cfg sqrtf) : MirrorStep cfg sqrtf (a, op) (b, op') := by
  have hnone : ∀ {s : PosSys} {op : PosOp}, op ≠ .tick → op.command cfg sqrtf s = none :=
    fun hop => if_neg fun h => hop h.1
  have hsilent : ∀ {x y : PosOp}, x ≠ .tick → y ≠ .tick →
      (x.apply cfg sqrtf a).Mirrors (y.apply cfg sqrtf b) → MirrorStep cfg sqrtf (a, x) (b, y) := by
    intro x y hx hy hstate
    refine ⟨hstate, fun h => absurd h hx, fun h => absurd h hx, ?_⟩
    rw [hnone hx, hnone hy]
    exact .none
  cases hop with
  | tick =>
    obtain ⟨hstate, hout, hwhole, hcommand⟩ := h.ticked hcfg (hno rfl)
    have ha := PosOp.apply_tick cfg sqrtf a
    have hb := PosOp.apply_tick cfg sqrtf b
    refine ⟨?_, fun _ => ?_, fun _ hrun => ?_, ?_⟩
    · rw [ha, hb]
      exact hstate
    · rw [ha, hb]
      exact hout
    · rw [ha, hb]
      exact hwhole hrun
    · unfold PosOp.command
      dsimp only
      rw [ha, hb]
      by_cases hreg : a.Regulates
      · rw [if_pos ⟨rfl, hreg⟩, if_pos ⟨rfl, h.regulates.mpr hreg⟩]
        exact .some (hcommand hreg)
      · rw [if_neg fun h' => hreg h'.2, if_neg fun h' => hreg (h.regulates.mp h'.2)]
        exact .none
  | encoder henc => exact hsilent (by simp) (by simp) ⟨h.pl, h.pid, henc, h.drv⟩
  | driver e => exact hsilent (by simp) (by simp) ⟨h.pl, h.pid, h.reading, h.drv.elapse e⟩

/-- **Mirror symmetry.** From states in the mirror, as long as no 32-bit operation of a tick
overflows, mirrored runs lead to states in the mirror, step by step: the outputs are negated, the
driver is given the same frequencies, and opposite directions unless the frequency is 0. -/
theorem mirror_run (cfg : PosConfig) (hcfg : cfg.Nonneg) (sqrtf : ℚ → ℚ) {a b : PosSys}
    (h : a.Mirrors b) {ops ops' : List PosOp} (hops : List.Forall₂ PosOp.Mirrors ops ops')
    (hno : ∀ x ∈ history (PosOp.apply cfg sqrtf) a ops, x.2 = .tick → x.1.NoOverflow cfg sqrtf) :
    List.Forall₂ (MirrorStep cfg sqrtf) (history (PosOp.apply cfg sqrtf) a ops)
      (history (PosOp.apply cfg sqrtf) b ops') :=
  history_forall₂ (R := PosSys.Mirrors) (S := PosOp.Mirrors) (T := MirrorStep cfg sqrtf)
    (C := fun s op => op = .tick → s.NoOverflow cfg sqrtf)
    (fun _ _ _ _ hR hS hC => mirrorStep hcfg hR hS hC) (fun _ _ hT => hT.state) h hops hno

/-- A loop at the start of a move to the position 1000. -/
def forward : PosSys :=
  { (default : PosSys) with
    pl := { PosLoop.init with running := true, targetPos := 1000 }
    pid := { (default : Pid) with kp := 2, ki := 1 / 10, outputLimit := 4000 }
    drv := (MotorSys.zeroed.init 200000000 (-1) false).startSection }

/-- The same loop at the start of a move to the position -1000. -/
def backward : PosSys := { forward with pl := forward.pl.mirror, pid := forward.pid.mirror }

theorem forward_mirrors : forward.Mirrors backward :=
  ⟨⟨_, _, _, rfl⟩, ⟨_, rfl⟩, by decide +kernel, MotorSys.Twins.refl _⟩

/-- A tick at each end of a step of 5 counts. -/
theorem mirror_run_move :
    let cfg : PosConfig := ⟨50, 5000, 10, 500, false, 125 / 2, 80000⟩
    List.Forall₂ (MirrorStep cfg fun x => x)
      (history (PosOp.apply cfg fun x => x) forward [.tick, .encoder ⟨5, 5, 5⟩, .tick])
      (history (PosOp.apply cfg fun x => x) backward [.tick, .encoder ⟨-5, 5, 5⟩, .tick]) := by
  intro cfg
  have hops : List.Forall₂ PosOp.Mirrors [.tick, .encoder ⟨5, 5, 5⟩, .tick]
      [.tick, .encoder ⟨-5, 5, 5⟩, .tick] :=
    .cons .tick (.cons (.encoder (by decide +kernel)) (.cons .tick .nil))
  exact mirror_run cfg ⟨by decide +kernel, by decide +kernel, by decide +kernel, by decide +kernel⟩
    (fun x => x) forward_mirrors hops (by decide +kernel)

end H750Stepper
