import H750Stepper.Driver.Command
import H750Stepper.Driver.PidBounds
import H750Stepper.Speed.Slew

/-!
# The tick of the speed loop in one go

As for the position loop, a tick that no other thread interrupts is a function of the fields it
finds: the filtered speed (`measured`), the PID and the ramp (`steered`) and what the tick passes to
the driver (`commandOf`). `exec_tick`: this is what the program of the tick does.
-/

namespace H750Stepper

open Threads CInt

/-! ## Commands -/

/-- What a tick passes to the motor driver; within the dead band there is no direction. -/
structure SpeedCommand where
  dir : Option ℤ
  freqHz : ℕ
  deriving DecidableEq

/-- The command for an output. -/
def SpeedConfig.commandOf (cfg : SpeedConfig) (freqOut : ℚ) : SpeedCommand :=
  if |freqOut| < cfg.moveThreshold then ⟨none, 0⟩
  else
    let absFreq := toUInt32 |freqOut|
    ⟨some (dirOf freqOut), if absFreq < motorMinFreqHz then motorMinFreqHz else absFreq⟩

/-- The driver after a command. -/
def MotorSys.follow (c : SpeedCommand) (d : MotorSys) : MotorSys :=
  ((Motor.setFrequency c.freqHz).exec MotorAct.eff
    (c.dir.elim d fun dir => d.setDirectionSection dir)).2

/-! ## The whole tick -/

namespace SpeedSys

open SpeedLoop

variable (cfg : SpeedConfig)

/-- The speed has been measured. -/
def measured (s : SpeedSys) : SpeedSys :=
  let encPos := SpeedOp.pos cfg s.enc.read.overflow
  let delta := sub32 encPos s.sl.lastEnc
  let rawSpeed : ℚ := delta * cfg.freqHz * cfg.speedRatio
  { s with
    enc := s.enc.read
    sl := { s.sl with
      lastEnc := encPos
      encDelta := delta
      currentSpeed := s.sl.currentSpeed * (1 / 2) + rawSpeed * (1 / 2) } }

/-- The PID and the ramp have followed the speed, and the driver the ramp. -/
def steered (s : SpeedSys) : SpeedSys :=
  let pid := s.pid.calculated s.sl.currentSpeed
  let rampCurrent := Ramp.toward cfg.maxAccel pid.output s.sl.rampCurrent
  let outputFreq := clampTo cfg.speedLimit rampCurrent
  { s with
    sl := { s.sl with rampTarget := pid.output, rampCurrent, outputFreq }
    pid
    drv := s.drv.follow (cfg.commandOf outputFreq) }

/-- The tick. -/
def ticked (s : SpeedSys) : SpeedSys :=
  if s.sl.running then (s.measured cfg).steered cfg
  else { s with sl.rampTarget := 0, sl.rampCurrent := 0, sl.outputFreq := 0 }

theorem exec_measureSpeed (s : SpeedSys) :
    (measureSpeed cfg).exec SpeedAct.eff s = ((), s.measured cfg) := rfl

theorem exec_output (freqOut : ℚ) (s : SpeedSys) :
    (output cfg freqOut).exec SpeedAct.eff s =
      ((), { s with
        sl.outputFreq := freqOut
        drv := s.drv.follow (cfg.commandOf freqOut) }) := by
  unfold output SpeedConfig.commandOf MotorSys.follow
  rw [Prog.perform_bind, Prog.exec_act]
  by_cases hdead : |freqOut| < cfg.moveThreshold
  · rw [if_pos hdead, if_pos hdead, Prog.exec_bind, exec_drv]
    rfl
  · rw [if_neg hdead, if_neg hdead, Prog.exec_bind, exec_drv]
    dsimp only
    rw [Prog.exec_bind, exec_drv]
    rfl

theorem exec_tick (s : SpeedSys) : (tick cfg).exec SpeedAct.eff s = ((), s.ticked cfg) := by
  unfold tick ticked
  rw [exec_readRunning_bind]
  by_cases hrun : s.sl.running = true
  · rw [if_pos hrun, if_pos hrun, Prog.exec_bind, exec_measureSpeed, exec_readCurrentSpeed_bind,
      Prog.exec_bind, exec_pid, Pid.exec_calculate, Prog.perform_bind, Prog.exec_act,
      Prog.exec_bind, exec_ramp, exec_readRampCurrent_bind, exec_output]
    rfl
  · rw [if_neg hrun, if_neg hrun]
    rfl

/-! ## The API calls -/

/-- A stopped loop has been started. -/
def started (s : SpeedSys) : SpeedSys :=
  { s with
    enc := s.enc.read
    sl := { s.sl with
      running := true, rampTarget := 0, rampCurrent := 0, outputFreq := 0
      lastEnc := s.enc.read.overflow }
    pid := s.pid.tuning
    drv := s.drv.startSection }

/-- The loop has been stopped. -/
def stopped (s : SpeedSys) : SpeedSys :=
  { s with
    sl := .init
    pid := s.pid.cleared
    drv := s.drv.stopSection }

/-- The loop has a new target. -/
def retargeted (targetHz : ℚ) (s : SpeedSys) : SpeedSys :=
  let rebased := if s.Resets cfg targetHz then
    { s with sl := { s.sl with rampTarget := 0, rampCurrent := 0 }, pid := s.pid.cleared }
  else s
  { rebased with pid.target := clampTo cfg.speedLimit targetHz }

theorem exec_start (s : SpeedSys) :
    start.exec SpeedAct.eff s = ((), if s.sl.running then s else s.started) := by
  unfold start
  rw [exec_readRunning_bind]
  by_cases hrun : s.sl.running = true
  · rw [if_pos hrun, if_pos hrun]
    rfl
  · rw [if_neg hrun, if_neg hrun]
    rfl

theorem exec_stop (s : SpeedSys) : stop.exec SpeedAct.eff s = ((), s.stopped) := rfl

theorem exec_setTarget (targetHz : ℚ) (s : SpeedSys) :
    (setTarget cfg targetHz).exec SpeedAct.eff s = ((), s.retargeted cfg targetHz) := by
  unfold setTarget retargeted
  dsimp only
  rw [exec_getTarget_bind, Prog.exec_bind, Prog.exec_when]
  by_cases hreset : s.Resets cfg targetHz
  · rw [if_pos hreset, if_pos (by exact hreset)]
    rfl
  · rw [if_neg hreset, if_neg (by exact hreset)]
    rfl

end SpeedSys

namespace SpeedOp

variable (cfg : SpeedConfig)

/-- What a call passes to `stepper_motor_driver_set_direction` and
`stepper_motor_driver_set_frequency`. -/
def command (s : SpeedSys) (op : SpeedOp) : Option SpeedCommand :=
  if op = .tick ∧ s.sl.running = true then some (cfg.commandOf (op.apply cfg s).sl.outputFreq)
  else none

theorem apply_start (s : SpeedSys) :
    start.apply cfg s = if s.sl.running then s else s.started :=
  congrArg Prod.snd (SpeedSys.exec_start s)

theorem apply_stop (s : SpeedSys) : stop.apply cfg s = s.stopped :=
  congrArg Prod.snd (SpeedSys.exec_stop s)

theorem apply_tick (s : SpeedSys) : tick.apply cfg s = s.ticked cfg :=
  congrArg Prod.snd (SpeedSys.exec_tick cfg s)

theorem apply_setTarget (targetHz : ℚ) (s : SpeedSys) :
    (setTarget targetHz).apply cfg s = s.retargeted cfg targetHz :=
  congrArg Prod.snd (SpeedSys.exec_setTarget cfg targetHz s)

end SpeedOp

end H750Stepper
