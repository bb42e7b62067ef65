import H750Stepper.Driver.Command
import H750Stepper.Driver.PidBounds
import H750Stepper.Lib.Ramp
import H750Stepper.Position.PositionLoop

/-!
# The control tick in one go

A tick that no other thread interrupts is a function of the fields it finds: the ramp (`ramped`),
the frequency to output (`controlled`) and what the tick passes to the driver (`command`).
`exec_tick`: this is what the program of the tick does.
-/

namespace H750Stepper

open Threads CInt

/-! ## The ramp -/

namespace PosConfig

variable (cfg : PosConfig) (sqrtf : ℚ → ℚ)

/-- The position for a reading of the encoder. -/
def position (reading : ℤ) : ℤ := if cfg.encInvert then wrap 32 (-reading) else reading

/-- The speed wanted with the error `err` left to the target. -/
def wantedSpeed (err : ℤ) : ℚ :=
  let vStopLimit := sqrtf (2 * cfg.maxAccel * cfg.freqHz * |(err : ℚ)| * (3 / 4))
  (if vStopLimit < cfg.rampMaxSpeed then vStopLimit else cfg.rampMaxSpeed) * err.sign

/-- The acceleration in the next period. -/
def nextAccel (err : ℤ) (speed accel : ℚ) : ℚ :=
  Ramp.toward cfg.sCurveJerk (clampTo cfg.maxAccel (cfg.wantedSpeed sqrtf err - speed)) accel

/-- The speed after a period with the acceleration `accel`. -/
def nextSpeed (speed accel : ℚ) : ℚ := clampTo cfg.rampMaxSpeed (speed + accel)

/-- The counts that the ramp moves in a period. -/
def rampStep (speed : ℚ) : ℤ := toInt32 (speed / cfg.freqHz)

/-- The distance allowed between ramp and motor. -/
def lead (speed : ℚ) : ℤ := min 2000 (max 200 (toInt32 (|speed| / cfg.freqHz * 2)))

end PosConfig

/-- A ramp past its target, moving there from the error `err`, stays at the target. -/
def notPast (err target ramp : ℤ) : ℤ :=
  if 0 < err ∧ target < ramp ∨ err < 0 ∧ ramp < target then target else ramp

/-- A ramp more than `lead` away from the motor is brought back to this distance. -/
def withinLead (lead current ramp : ℤ) : ℤ :=
  if sub32 ramp current > lead then wrap 32 (current + lead)
  else if sub32 current ramp > lead then wrap 32 (current - lead)
  else ramp

/-- A ramp that has followed the motor across the target goes back to the target. -/
def heldAt (target current ramp : ℤ) : ℤ :=
  if target < ramp ∧ current ≤ target ∨ ramp < target ∧ target ≤ current then target else ramp

/-- The place of the ramp after a period with the speed `speed`. -/
def PosConfig.nextPos (cfg : PosConfig) (err target current ramp : ℤ) (speed : ℚ) : ℤ :=
  heldAt target current (withinLead (cfg.lead speed) current
    (notPast err target (wrap 32 (ramp + cfg.rampStep speed))))

namespace PosLoop

open Prog (exec_act exec_ret exec_bind exec_perform exec_when)

variable (cfg : PosConfig) (sqrtf : ℚ → ℚ)

/-- What is left from the ramp to the target. -/
def rampErr (pl : PosLoop) : ℤ := sub32 pl.targetPos pl.rampPos

/-- The loop after the ramp. -/
def ramped (pl : PosLoop) : PosLoop :=
  if pl.rampErr = 0 then { pl with rampAccel := 0, rampSpeed := 0 }
  else
    let accel := cfg.nextAccel sqrtf pl.rampErr pl.rampSpeed pl.rampAccel
    let speed := cfg.nextSpeed pl.rampSpeed accel
    { pl with
      rampAccel := accel
      rampSpeed := speed
      rampPos := cfg.nextPos pl.rampErr pl.targetPos pl.currentPos pl.rampPos speed }

theorem ramped_targetPos (pl : PosLoop) : (pl.ramped cfg sqrtf).targetPos = pl.targetPos := by
  unfold ramped
  split_ifs <;> rfl

theorem ramped_currentPos (pl : PosLoop) : (pl.ramped cfg sqrtf).currentPos = pl.currentPos := by
  unfold ramped
  split_ifs <;> rfl

theorem exec_read_bind {α β : Type} (f : PosField) (g : PosSys → α) (k : α → PosProg β)
    (s : PosSys) :
    (Prog.ask (.read f) g >>= k).exec PosAct.eff s = (k (g s)).exec PosAct.eff s := rfl

theorem exec_readRunning_bind {β : Type} (k : Bool → PosProg β) (s : PosSys) :
    (readRunning >>= k).exec PosAct.eff s = (k s.pl.running).exec PosAct.eff s := rfl

theorem exec_readRampSpeed_bind {β : Type} (k : ℚ → PosProg β) (s : PosSys) :
    (readRampSpeed >>= k).exec PosAct.eff s = (k s.pl.rampSpeed).exec PosAct.eff s := rfl

theorem exec_readRampAccel_bind {β : Type} (k : ℚ → PosProg β) (s : PosSys) :
    (readRampAccel >>= k).exec PosAct.eff s = (k s.pl.rampAccel).exec PosAct.eff s := rfl

theorem exec_readRampPos_bind {β : Type} (k : ℤ → PosProg β) (s : PosSys) :
    (readRampPos >>= k).exec PosAct.eff s = (k s.pl.rampPos).exec PosAct.eff s := rfl

theorem exec_readTargetPos_bind {β : Type} (k : ℤ → PosProg β) (s : PosSys) :
    (readTargetPos >>= k).exec PosAct.eff s = (k s.pl.targetPos).exec PosAct.eff s := rfl

theorem exec_readCurrentPos_bind {β : Type} (k : ℤ → PosProg β) (s : PosSys) :
    (readCurrentPos >>= k).exec PosAct.eff s = (k s.pl.currentPos).exec PosAct.eff s := rfl

theorem exec_perform_bind {β : Type} (l : PosAct) (k : Unit → PosProg β) (s : PosSys) :
    (Prog.perform l >>= k).exec PosAct.eff s = (k ()).exec PosAct.eff (l.eff s) := rfl

theorem exec_stepAccel (a : ℚ) (s : PosSys) :
    (stepAccel cfg a).exec PosAct.eff s =
      ((), { s with pl.rampAccel := Ramp.toward cfg.sCurveJerk a s.pl.rampAccel }) := by
  unfold stepAccel Ramp.toward readRampAccel
  dsimp only
  rw [exec_read_bind]
  by_cases hhi : a > s.pl.rampAccel + cfg.sCurveJerk
  · have h : a - s.pl.rampAccel > cfg.sCurveJerk := by linarith
    rw [if_pos hhi, if_pos h]
    rfl
  · have h : ¬a - s.pl.rampAccel > cfg.sCurveJerk := by linarith
    rw [if_neg hhi, if_neg h, exec_read_bind]
    by_cases hlo : a < s.pl.rampAccel - cfg.sCurveJerk
    · have h : a - s.pl.rampAccel < -cfg.sCurveJerk := by linarith
      rw [if_pos hlo, if_pos h]
      rfl
    · have h : ¬a - s.pl.rampAccel < -cfg.sCurveJerk := by linarith
      rw [if_neg hlo, if_neg h]
      rfl

theorem exec_followMotor (lead : ℤ) (s : PosSys) :
    (followMotor lead).exec PosAct.eff s =
      ((), { s with pl.rampPos := withinLead lead s.pl.currentPos s.pl.rampPos }) := by
  unfold followMotor withinLead readRampPos readCurrentPos
  rw [exec_read_bind, exec_read_bind]
  by_cases hahead : sub32 s.pl.rampPos s.pl.currentPos > lead
  · rw [if_pos hahead, if_pos hahead]
    rfl
  · rw [if_neg hahead, if_neg hahead, exec_read_bind, exec_read_bind]
    by_cases hbehind : sub32 s.pl.currentPos s.pl.rampPos > lead
    · rw [if_pos hbehind, if_pos hbehind]
      rfl
    · rw [if_neg hbehind, if_neg hbehind]
      rfl

theorem exec_stopBelowTarget (s : PosSys) :
    stopBelowTarget.exec PosAct.eff s =
      ((), if s.pl.rampPos < s.pl.targetPos ∧ s.pl.targetPos ≤ s.pl.currentPos then
        { s with pl.rampPos := s.pl.targetPos } else s) := by
  unfold stopBelowTarget readRampPos readTargetPos readCurrentPos
  rw [exec_read_bind, exec_read_bind]
  by_cases hbelow : s.pl.rampPos < s.pl.targetPos
  · rw [if_pos hbelow, exec_read_bind, exec_read_bind]
    by_cases hcur : s.pl.currentPos ≥ s.pl.targetPos
    · rw [if_pos hcur, if_pos ⟨hbelow, hcur⟩]
      rfl
    · rw [if_neg hcur, if_neg fun h => hcur h.2]
      rfl
  · rw [if_neg hbelow, if_neg fun h => hbelow h.1]
    rfl

theorem exec_stopAtTarget (s : PosSys) :
    stopAtTarget.exec PosAct.eff s =
      ((), { s with pl.rampPos := heldAt s.pl.targetPos s.pl.currentPos s.pl.rampPos }) := by
  unfold stopAtTarget heldAt readRampPos readTargetPos readCurrentPos
  rw [exec_read_bind, exec_read_bind]
  by_cases hpast : s.pl.targetPos < s.pl.rampPos
  · have hbelow : ¬(s.pl.rampPos < s.pl.targetPos ∧ s.pl.targetPos ≤ s.pl.currentPos) :=
      fun h => absurd h.1 hpast.asymm
    rw [if_pos hpast, exec_read_bind, exec_read_bind]
    by_cases hcur : s.pl.currentPos ≤ s.pl.targetPos
    · rw [if_pos hcur, if_pos (.inl ⟨hpast, hcur⟩)]
      rfl
    · rw [if_neg hcur, exec_stopBelowTarget, if_neg hbelow,
        if_neg fun h => h.elim (fun h => hcur h.2) hbelow]
  · rw [if_neg hpast, exec_stopBelowTarget]
    by_cases hbelow : s.pl.rampPos < s.pl.targetPos ∧ s.pl.targetPos ≤ s.pl.currentPos
    · rw [if_pos hbelow, if_pos (.inr hbelow)]
    · rw [if_neg hbelow, if_neg fun h => h.elim (fun h => hpast h.1) hbelow]

theorem exec_clampLead (s : PosSys) :
    (clampLead cfg).exec PosAct.eff s =
      ((), { s with
        pl.rampPos := heldAt s.pl.targetPos s.pl.currentPos
          (withinLead (cfg.lead s.pl.rampSpeed) s.pl.currentPos s.pl.rampPos) }) := by
  have hlead : ∀ x : ℤ, (if (if x < 200 then 200 else x) > 2000 then 2000
      else if x < 200 then 200 else x) = min 2000 (max 200 x) := by
    intro x
    split_ifs <;> omega
  unfold clampLead readRampSpeed
  rw [exec_read_bind]
  dsimp only
  rw [hlead, exec_bind, exec_followMotor, exec_stopAtTarget]
  rfl

theorem exec_overshot (sign : ℤ) (s : PosSys) :
    (overshot sign).exec PosAct.eff s =
      (decide (0 < sign ∧ s.pl.targetPos < s.pl.rampPos ∨
        sign < 0 ∧ s.pl.rampPos < s.pl.targetPos), s) := by
  unfold overshot readRampPos readTargetPos
  by_cases hpos : sign > 0
  · have hneg : ¬sign < 0 := by omega
    rw [if_pos hpos, exec_read_bind, exec_read_bind]
    refine Prod.ext (decide_eq_decide.mpr ?_) rfl
    simp [hpos, hneg]
  · rw [if_neg hpos]
    by_cases hneg : sign < 0
    · rw [if_pos hneg, exec_read_bind, exec_read_bind]
      refine Prod.ext (decide_eq_decide.mpr ?_) rfl
      simp [hneg, not_lt.mp hpos]
    · rw [if_neg hneg]
      refine Prod.ext (decide_eq_false ?_).symm rfl
      simp [hneg, not_lt.mp hpos]

theorem exec_when_bind {c : Prop} [Decidable c] (l : PosAct) (k : Unit → PosProg Unit)
    (s : PosSys) :
    (Prog.when c (Prog.perform l) >>= k).exec PosAct.eff s =
      (k ()).exec PosAct.eff (if c then l.eff s else s) := by
  rw [exec_bind, exec_when]
  split_ifs <;> rfl

/-- The two tests that keep the speed within `m`. -/
theorem exec_limitSpeed_bind (m : ℚ) (k : PosProg Unit) (s : PosSys) :
    (do
      Prog.when ((← readRampSpeed) > m) (Prog.perform (.setRampSpeed m))
      Prog.when ((← readRampSpeed) < -m) (Prog.perform (.setRampSpeed (-m)))
      k : PosProg Unit).exec PosAct.eff s =
    k.exec PosAct.eff { s with pl.rampSpeed := clampTo m s.pl.rampSpeed } := by
  unfold readRampSpeed clampTo
  rw [exec_read_bind, exec_when_bind, exec_read_bind, exec_when_bind]
  by_cases hhi : s.pl.rampSpeed > m
  · simp only [if_pos hhi]
    show Prog.exec _ _ (if m < -m then _ else _) = _
    split_ifs <;> rfl
  · simp only [if_neg hhi]
    split_ifs <;> rfl

theorem nextPos_sign (err target current ramp : ℤ) (speed : ℚ) :
    cfg.nextPos err.sign target current ramp speed = cfg.nextPos err target current ramp speed := by
  unfold PosConfig.nextPos notPast
  simp only [Int.sign_pos_iff, Int.sign_neg_iff]

/-- The test that keeps the ramp from going past the target. -/
theorem exec_notPast_bind (sign : ℤ) (k : PosProg Unit) (s : PosSys) :
    (do
      Prog.when (← overshot sign) (do Prog.perform (.setRampPos (← readTargetPos)))
      k : PosProg Unit).exec PosAct.eff s =
    k.exec PosAct.eff { s with pl.rampPos := notPast sign s.pl.targetPos s.pl.rampPos } := by
  rw [exec_bind, exec_overshot, exec_bind, exec_when]
  unfold notPast
  by_cases h : 0 < sign ∧ s.pl.targetPos < s.pl.rampPos ∨ sign < 0 ∧ s.pl.rampPos < s.pl.targetPos
  · rw [if_pos (decide_eq_true h), if_pos h]
    rfl
  · rw [if_neg fun hd => h (of_decide_eq_true hd), if_neg h]

/-- The step of the ramp and what limits it. -/
theorem exec_movePos (sign : ℤ) (s : PosSys) :
    (do
      Prog.perform
        (.setRampPos (wrap 32 ((← readRampPos) + toInt32 ((← readRampSpeed) / cfg.freqHz))))
      Prog.when (← overshot sign) (do Prog.perform (.setRampPos (← readTargetPos)))
      clampLead cfg : PosProg Unit).exec PosAct.eff s =
    ((), { s with
      pl.rampPos :=
        cfg.nextPos sign s.pl.targetPos s.pl.currentPos s.pl.rampPos s.pl.rampSpeed }) := by
  rw [exec_readRampPos_bind, exec_readRampSpeed_bind, exec_perform_bind, exec_notPast_bind,
    exec_clampLead]
  rfl

theorem exec_moveRamp {s : PosSys} (h : s.pl.rampErr ≠ 0) :
    (moveRamp cfg sqrtf s.pl.rampErr.sign |(s.pl.rampErr : ℚ)|).exec PosAct.eff s =
      ((), { s with pl := s.pl.ramped cfg sqrtf }) := by
  unfold moveRamp ramped
  dsimp only
  rw [if_neg h, exec_readRampSpeed_bind, exec_bind, exec_stepAccel]
  dsimp only
  rw [exec_readRampSpeed_bind, exec_readRampAccel_bind, exec_perform_bind,
    exec_limitSpeed_bind cfg.rampMaxSpeed, exec_movePos, nextPos_sign]
  rfl

theorem exec_ramp (s : PosSys) :
    (ramp cfg sqrtf).exec PosAct.eff s = ((), { s with pl := s.pl.ramped cfg sqrtf }) := by
  have hsign : ∀ x : ℤ, (if x > 0 then 1 else if x < 0 then -1 else 0) = x.sign := by
    intro x
    rcases lt_trichotomy x 0 with h | rfl | h
    · rw [if_neg h.asymm, if_pos h, Int.sign_eq_neg_one_of_neg h]
    · rfl
    · rw [if_pos h, Int.sign_eq_one_of_pos h]
  unfold ramp
  dsimp only
  rw [exec_readTargetPos_bind, exec_readRampPos_bind, hsign]
  show Prog.exec PosAct.eff (if s.pl.rampErr.sign ≠ 0 ∧ |(s.pl.rampErr : ℚ)| > 1 / 2 then
    moveRamp cfg sqrtf s.pl.rampErr.sign |(s.pl.rampErr : ℚ)| else _) s = _
  by_cases h : s.pl.rampErr = 0
  · rw [if_neg fun hs => hs.1 (by rw [h]; rfl)]
    unfold ramped
    rw [if_pos h]
    rfl
  · have hone : (1 : ℚ) ≤ |(s.pl.rampErr : ℚ)| := by
      rw [← Int.cast_abs]
      exact_mod_cast Int.one_le_abs h
    rw [if_pos ⟨fun hs => h (Int.sign_eq_zero_iff_zero.mp hs), by linarith⟩,
      exec_moveRamp cfg sqrtf h]

/-! ## The frequency -/

/-- The error of the PID. -/
def posErr (pl : PosLoop) : ℤ := sub32 pl.rampPos pl.currentPos

/-- What is left from the motor to the target. -/
def finalErr (pl : PosLoop) : ℤ := sub32 pl.targetPos pl.currentPos

/-- The error has changed its sign since the tick before. -/
def Crosses (pl : PosLoop) : Prop :=
  0 < pl.posErr ∧ pl.prevPosErr < 0 ∨ pl.posErr < 0 ∧ 0 < pl.prevPosErr

instance (pl : PosLoop) : Decidable pl.Crosses := by unfold Crosses; infer_instance

/-- The motor is near the target. -/
def Near (pl : PosLoop) : Prop := |(pl.finalErr : ℚ)| ≤ 20

instance (pl : PosLoop) : Decidable pl.Near := by unfold Near; infer_instance

/-- The PID after the tick. -/
def nextPid (pl : PosLoop) (pid : Pid) : Pid :=
  let pid := if pl.Crosses then pid.cleared else pid
  if pl.Near then pid else ({ pid with target := pl.rampPos } : Pid).calculated pl.currentPos

/-- The frequency to output. -/
def freqOut (pl : PosLoop) (pid : Pid) : ℚ :=
  if pl.Near then nearFreq pl.finalErr
  else clampTo cfg.speedLimit
    (pl.rampSpeed + clampTo (cfg.rampMaxSpeed * (1 / 20)) (pl.nextPid pid).output)

/-- The loop after the control. -/
def controlled (pl : PosLoop) (pid : Pid) : PosLoop :=
  { pl with
    prevPosErr := pl.posErr
    rampSpeed := if pl.Near then 0 else pl.rampSpeed
    outputFreq := pl.freqOut cfg pid }

/-- What the tick passes to the driver. -/
def command (pl : PosLoop) : Command where
  dir := if pl.outputFreq > 0 then motorDirCw else motorDirCcw
  freqHz :=
    let absFreq := toUInt32 |pl.outputFreq|
    let absErr := toInt32 |(pl.finalErr : ℚ)|
    if absErr ≥ 100 ∨ absFreq ≥ motorMinFreqHz then
      if absFreq > 0 ∧ absFreq < motorMinFreqHz then motorMinFreqHz else absFreq
    else absFreq

/-- An output of 0 is the frequency 0. -/
theorem command_freqHz_of_zero {pl : PosLoop} (h : pl.outputFreq = 0) : pl.command.freqHz = 0 := by
  have hfreq : toUInt32 |pl.outputFreq| = 0 := by
    rw [h, abs_zero]
    decide +kernel
  unfold command
  dsimp only
  rw [hfreq, if_neg (by decide : ¬(0 > 0 ∧ 0 < motorMinFreqHz)), ite_self]

theorem exec_crossed (posErr : ℤ) (s : PosSys) :
    (crossed posErr).exec PosAct.eff s =
      (decide (0 < posErr ∧ s.pl.prevPosErr < 0 ∨ posErr < 0 ∧ 0 < s.pl.prevPosErr), s) := by
  unfold crossed readPrevPosErr
  by_cases hpos : posErr > 0
  · have hneg : ¬posErr < 0 := by omega
    rw [if_pos hpos, exec_read_bind]
    refine Prod.ext (decide_eq_decide.mpr ?_) rfl
    simp [hpos, hneg]
  · rw [if_neg hpos]
    by_cases hneg : posErr < 0
    · rw [if_pos hneg, exec_read_bind]
      refine Prod.ext (decide_eq_decide.mpr ?_) rfl
      simp [hneg, not_lt.mp hpos]
    · rw [if_neg hneg]
      refine Prod.ext (decide_eq_false ?_).symm rfl
      simp [hneg, not_lt.mp hpos]

/-- The reset of the PID at a zero crossing. -/
theorem exec_crossed_bind {β : Type} (k : PosProg β) (s : PosSys) :
    (do
      Prog.when (← crossed s.pl.posErr) (pid Pid.reset)
      k : PosProg β).exec PosAct.eff s =
    k.exec PosAct.eff { s with pid := if s.pl.Crosses then s.pid.cleared else s.pid } := by
  have hcross : (crossed s.pl.posErr).exec PosAct.eff s = (decide s.pl.Crosses, s) :=
    exec_crossed s.pl.posErr s
  rw [exec_bind, hcross, exec_bind, exec_when]
  by_cases h : s.pl.Crosses
  · rw [if_pos (decide_eq_true h), if_pos h, exec_pid, Pid.exec_reset]
  · rw [if_neg fun hd => h (of_decide_eq_true hd), if_neg h]

theorem exec_controlFreq (s : PosSys) :
    (controlFreq cfg).exec PosAct.eff s =
      (s.pl.freqOut cfg s.pid, { s with
        pl.prevPosErr := s.pl.posErr
        pl.rampSpeed := if s.pl.Near then 0 else s.pl.rampSpeed
        pid := s.pl.nextPid s.pid }) := by
  unfold controlFreq freqOut nextPid
  rw [exec_readRampPos_bind, exec_readCurrentPos_bind]
  dsimp only
  refine (exec_crossed_bind _ s).trans ?_
  rw [exec_perform_bind, exec_readTargetPos_bind, exec_readCurrentPos_bind]
  show Prog.exec PosAct.eff (if s.pl.Near then _ else _) _ = _
  by_cases h : s.pl.Near
  · rw [if_pos h, if_pos h, if_pos h, if_pos h]
    rfl
  · rw [if_neg h, if_neg h, if_neg h, if_neg h, exec_readRampSpeed_bind]
    rw [exec_readRampPos_bind, exec_bind, exec_pid, exec_readCurrentPos_bind, exec_bind, exec_pid,
      Pid.exec_calculate]
    rfl

theorem exec_output (freqOut : ℚ) (s : PosSys) :
    (output freqOut).exec PosAct.eff s =
      ((), { s with
        pl.outputFreq := freqOut
        drv := s.drv.obey { s.pl with outputFreq := freqOut }.command }) := by
  unfold output
  rw [exec_perform_bind, exec_bind, exec_drv]
  dsimp only
  rw [exec_readTargetPos_bind, exec_readCurrentPos_bind, exec_bind, exec_drv]
  rfl

end PosLoop

/-! ## The whole tick -/

namespace PosSys

open PosLoop

variable (cfg : PosConfig) (sqrtf : ℚ → ℚ)

/-- The position has been read. -/
def sensed (s : PosSys) : PosSys :=
  { s with
    enc := s.enc.read
    pl.currentPos := cfg.position s.enc.read.overflow
    pl.lastEnc := cfg.position s.enc.read.overflow }

/-- The loop has been stopped. -/
def stopped (s : PosSys) : PosSys :=
  { s with
    pl := { s.pl with
      running := false, rampSpeed := 0, rampAccel := 0, outputFreq := 0, rampPos := 0
      targetPos := 0 }
    pid := s.pid.cleared
    drv := s.drv.stopSection }

/-- The rest of a tick without a fault. -/
def regulated (s : PosSys) : PosSys :=
  let ramped := s.pl.ramped cfg sqrtf
  let pl := ramped.controlled cfg s.pid
  { s with pl, pid := ramped.nextPid s.pid, drv := s.drv.dozed.obey pl.command }

/-- The tick. -/
def ticked (s : PosSys) : PosSys :=
  if s.pl.running then
    let s := s.sensed cfg
    let checked := { s with drv := s.drv.checked }
    if s.drv.Faulty then checked.stopped else checked.regulated cfg sqrtf
  else { s with pl.rampSpeed := 0, pl.rampAccel := 0, pl.outputFreq := 0 }

theorem exec_sense (s : PosSys) :
    (sense cfg).exec PosAct.eff s = ((), s.sensed cfg) := rfl

theorem exec_stop (s : PosSys) : stop.exec PosAct.eff s = ((), s.stopped) := rfl

theorem exec_regulate (s : PosSys) :
    (regulate cfg sqrtf).exec PosAct.eff s = ((), s.regulated cfg sqrtf) := by
  unfold regulate
  rw [Prog.exec_bind, exec_drv, Prog.exec_bind, exec_ramp, Prog.exec_bind, exec_controlFreq,
    exec_output]
  rfl

theorem exec_tick (s : PosSys) :
    (tick cfg sqrtf).exec PosAct.eff s = ((), s.ticked cfg sqrtf) := by
  unfold tick ticked
  rw [exec_readRunning_bind]
  by_cases hrun : s.pl.running = true
  · rw [if_pos hrun, if_pos hrun, Prog.exec_bind, exec_sense, Prog.exec_bind, exec_drv]
    show Prog.exec PosAct.eff (if (s.sensed cfg).drv.Faulty then stop else regulate cfg sqrtf)
      { s.sensed cfg with drv := (s.sensed cfg).drv.checked } = _
    dsimp only
    by_cases hfault : (s.sensed cfg).drv.Faulty
    · rw [if_pos hfault, if_pos hfault, exec_stop]
    · rw [if_neg hfault, if_neg hfault, exec_regulate]
  · rw [if_neg hrun, if_neg hrun]
    rfl

/-! ## The API calls -/

/-- A new target is within the soft limits. -/
def Accepts (target : ℤ) (s : PosSys) : Prop :=
  s.scale.posMinCounts ≤ target ∧ target ≤ s.scale.posMaxCounts

instance (target : ℤ) (s : PosSys) : Decidable (s.Accepts target) := by
  unfold Accepts
  infer_instance

/-- The loop has a new target. -/
def retargeted (target : ℤ) (s : PosSys) : PosSys :=
  if s.Accepts target then
    let rebased := if s.pl.running then
      { s with
        pl := { s.pl with rampPos := s.pl.currentPos, rampSpeed := 0, rampAccel := 0 }
        pid := s.pid.cleared }
    else s
    { rebased with pl.targetPos := target, pl.arrivedLocked := false }
  else s

theorem exec_setTarget (target : ℤ) (s : PosSys) :
    (setTarget target).exec PosAct.eff s = ((), s.retargeted target) := by
  unfold setTarget retargeted
  rw [exec_read_bind]
  by_cases hlow : target < s.scale.posMinCounts
  · have hrefuse : ¬s.Accepts target := fun h => absurd h.1 (not_le.mpr hlow)
    rw [if_pos hlow, if_neg hrefuse]
    rfl
  · rw [if_neg hlow, exec_read_bind]
    by_cases hhigh : target > s.scale.posMaxCounts
    · have hrefuse : ¬s.Accepts target := fun h => absurd h.2 (not_le.mpr hhigh)
      rw [if_pos hhigh, if_neg hrefuse]
      rfl
    · have haccept : s.Accepts target := ⟨not_lt.mp hlow, not_lt.mp hhigh⟩
      rw [if_neg hhigh, if_pos haccept]
      rw [exec_readRunning_bind, Prog.exec_bind, Prog.exec_when]
      by_cases hrun : s.pl.running = true
      · rw [if_pos hrun, if_pos hrun]
        rfl
      · rw [if_neg hrun, if_neg hrun]
        rfl

theorem exec_encRead_bind {β : Type} (k : ℤ → PosProg β) (s : PosSys) :
    (encRead >>= k).exec PosAct.eff s =
      (k s.enc.read.overflow).exec PosAct.eff { s with enc := s.enc.read } := rfl

/-- The sign of the first reading. -/
theorem exec_invert_bind {β : Type} (k : PosProg β) (s : PosSys) :
    (do
      Prog.when cfg.encInvert
        (do Prog.perform (.setCurrentPos (wrap 32 (-(← readCurrentPos)))))
      k : PosProg β).exec PosAct.eff s =
    k.exec PosAct.eff { s with pl.currentPos := cfg.position s.pl.currentPos } := by
  unfold PosConfig.position
  rw [Prog.exec_bind, Prog.exec_when]
  by_cases hinv : cfg.encInvert = true
  · rw [if_pos hinv, if_pos hinv, exec_readCurrentPos_bind, Prog.exec_perform]
    rfl
  · rw [if_neg hinv, if_neg hinv]

/-- A stopped loop has been started. -/
def started (s : PosSys) : PosSys :=
  let pos := cfg.position s.enc.read.overflow
  { s with
    enc := s.enc.read
    pl := { s.pl with
      running := true, currentPos := pos, targetPos := pos, rampPos := pos, rampSpeed := 0
      rampAccel := 0, outputFreq := 0 }
    pid := s.pid.cleared
    drv := (Motor.clearFault.exec MotorAct.eff s.drv).2.startSection }

theorem exec_start (s : PosSys) :
    (start cfg).exec PosAct.eff s = ((), if s.pl.running then s else s.started cfg) := by
  unfold start started
  rw [exec_readRunning_bind]
  by_cases hrun : s.pl.running = true
  · rw [if_pos hrun, if_pos hrun]
    rfl
  · rw [if_neg hrun, if_neg hrun, Prog.exec_bind, exec_drv, Prog.exec_bind, exec_pid,
      Pid.exec_reset, exec_encRead_bind, exec_perform_bind, exec_invert_bind,
      exec_readCurrentPos_bind, exec_perform_bind, exec_readCurrentPos_bind]
    rfl

end PosSys

/-! ## Histories -/

/-- What happens to a position loop, one call after the other. The encoder may be in any state when
it is read. -/
inductive PosOp where
  | start | stop | tick
  | setTarget (target : ℤ)
  | encoder (enc : Encoder)
  | driver (e : MotorEnv)
  deriving DecidableEq

/-- The tick finds the loop running and no fault. -/
def PosSys.Regulates (s : PosSys) : Prop := s.pl.running = true ∧ ¬s.drv.Faulty

instance (s : PosSys) : Decidable s.Regulates := by unfold PosSys.Regulates; infer_instance

namespace PosOp

open PosLoop

variable (cfg : PosConfig) (sqrtf : ℚ → ℚ)

/-- The state after a call, or after something else has happened. -/
def apply (s : PosSys) : PosOp → PosSys
  | .start => ((PosLoop.start cfg).exec PosAct.eff s).2
  | .stop => (PosLoop.stop.exec PosAct.eff s).2
  | .tick => ((PosLoop.tick cfg sqrtf).exec PosAct.eff s).2
  | .setTarget target => ((PosLoop.setTarget target).exec PosAct.eff s).2
  | .encoder enc => { s with enc }
  | .driver e => { s with drv := e.eff s.drv }

/-- What a call passes to `stepper_motor_driver_set_direction` and
`stepper_motor_driver_set_frequency`. -/
def command (s : PosSys) (op : PosOp) : Option Command :=
  if op = .tick ∧ s.Regulates then some (op.apply cfg sqrtf s).pl.command else none

theorem apply_start (s : PosSys) :
    start.apply cfg sqrtf s = if s.pl.running then s else s.started cfg :=
  congrArg Prod.snd (PosSys.exec_start cfg s)

theorem apply_stop (s : PosSys) : stop.apply cfg sqrtf s = s.stopped :=
  congrArg Prod.snd (PosSys.exec_stop s)

theorem apply_tick (s : PosSys) : tick.apply cfg sqrtf s = s.ticked cfg sqrtf :=
  congrArg Prod.snd (PosSys.exec_tick cfg sqrtf s)

theorem apply_setTarget (target : ℤ) (s : PosSys) :
    (setTarget target).apply cfg sqrtf s = s.retargeted target :=
  congrArg Prod.snd (PosSys.exec_setTarget target s)

end PosOp

namespace PosSys

open PosLoop

variable {cfg : PosConfig} {sqrtf : ℚ → ℚ} {s : PosSys}

/-- The loop after a tick that regulates. -/
theorem ticked_pl (h : s.Regulates) :
    (s.ticked cfg sqrtf).pl =
      ((s.sensed cfg).pl.ramped cfg sqrtf).controlled cfg s.pid := by
  have hfault : ¬(s.sensed cfg).drv.Faulty := h.2
  unfold ticked
  rw [if_pos h.1, if_neg hfault]
  rfl

/-- A tick that does not regulate leaves no speed and no output. -/
theorem ticked_pl_of_not (cfg : PosConfig) (sqrtf : ℚ → ℚ) (h : ¬s.Regulates) :
    (s.ticked cfg sqrtf).pl.rampSpeed = 0 ∧ (s.ticked cfg sqrtf).pl.rampAccel = 0 ∧
      (s.ticked cfg sqrtf).pl.outputFreq = 0 ∧ (s.ticked cfg sqrtf).pl.running = false := by
  unfold ticked
  by_cases hrun : s.pl.running = true
  · have hfault : (s.sensed cfg).drv.Faulty := not_not.mp fun hf => h ⟨hrun, hf⟩
    rw [if_pos hrun, if_pos hfault]
    exact ⟨rfl, rfl, rfl, rfl⟩
  · rw [if_neg hrun]
    exact ⟨rfl, rfl, rfl, Bool.eq_false_iff.mpr hrun⟩

/-- The distance that the next reading leaves to the target. -/
def finalErr (cfg : PosConfig) (s : PosSys) : ℤ :=
  sub32 s.pl.targetPos (cfg.position s.enc.read.overflow)

theorem ramped_finalErr (s : PosSys) :
    ((s.sensed cfg).pl.ramped cfg sqrtf).finalErr = s.finalErr cfg := by
  unfold PosLoop.finalErr
  rw [ramped_targetPos, ramped_currentPos]
  rfl

theorem near_iff (s : PosSys) :
    ((s.sensed cfg).pl.ramped cfg sqrtf).Near ↔ |(s.finalErr cfg : ℚ)| ≤ 20 := by
  unfold Near
  rw [ramped_finalErr]

theorem ticked_running (cfg : PosConfig) (sqrtf : ℚ → ℚ) (h : s.Regulates) :
    (s.ticked cfg sqrtf).pl.running = true := by
  rw [ticked_pl h]
  unfold controlled ramped
  split_ifs <;> exact h.1

/-- The ramp after a tick that regulates. -/
theorem ticked_ramp (cfg : PosConfig) (sqrtf : ℚ → ℚ) (h : s.Regulates) :
    let pl := (s.sensed cfg).pl.ramped cfg sqrtf
    (s.ticked cfg sqrtf).pl.rampAccel = pl.rampAccel ∧
      (s.ticked cfg sqrtf).pl.rampSpeed =
        if |(s.finalErr cfg : ℚ)| ≤ 20 then 0 else pl.rampSpeed := by
  intro pl
  rw [ticked_pl h]
  exact ⟨rfl, if_congr (near_iff s) rfl rfl⟩

/-- The positions after a tick that regulates. -/
theorem ticked_positions (cfg : PosConfig) (sqrtf : ℚ → ℚ) (h : s.Regulates) :
    (s.ticked cfg sqrtf).pl.rampPos = ((s.sensed cfg).pl.ramped cfg sqrtf).rampPos ∧
      (s.ticked cfg sqrtf).pl.targetPos = s.pl.targetPos ∧
      (s.ticked cfg sqrtf).pl.currentPos = cfg.position s.enc.read.overflow := by
  rw [ticked_pl h]
  exact ⟨rfl, ramped_targetPos cfg sqrtf _, ramped_currentPos cfg sqrtf _⟩

/-- The output of a tick that regulates. -/
theorem ticked_outputFreq (cfg : PosConfig) (sqrtf : ℚ → ℚ) (h : s.Regulates) :
    ∃ x, (s.ticked cfg sqrtf).pl.outputFreq =
      if |(s.finalErr cfg : ℚ)| ≤ 20 then nearFreq (s.finalErr cfg)
      else clampTo cfg.speedLimit x := by
  let pl := (s.sensed cfg).pl.ramped cfg sqrtf
  refine ⟨pl.rampSpeed + clampTo (cfg.rampMaxSpeed * (1 / 20)) (pl.nextPid s.pid).output, ?_⟩
  rw [ticked_pl h]
  show freqOut cfg pl s.pid = _
  have hnear : pl.Near ↔ |(s.finalErr cfg : ℚ)| ≤ 20 := near_iff s
  unfold freqOut
  by_cases hn : pl.Near
  · rw [if_pos hn, if_pos (hnear.mp hn), ramped_finalErr]
  · rw [if_neg hn, if_neg fun h => hn (hnear.mpr h)]

end PosSys

end H750Stepper
