import H750Stepper.Lib.Notes
import H750Stepper.Position.Planner

/-!
# The position loop with its arithmetic

The control thread of the position loop and the functions that compare positions once more, with a
note on every operation on `int`, every conversion of a `float` to an integer and every division.
Here the control thread is an endless loop with its counter of ticks and its log line, and other
threads call the API between any two of its actions. Without the notes and the log line, the
functions are those of the position loop.
-/

namespace H750Stepper

open Threads

/-- A program on a position loop that notes its arithmetic. -/
abbrev PosNoted (α : Type) := Prog (Noted ArithNote PosAct) PosSys α

namespace PosLoop.Noting

open Prog (ask perform poll when quiet)

variable (cfg : PosConfig) (sqrtf : ℚ → ℚ)

/-! ## The control tick -/

def followMotor (lead : ℤ) : PosNoted Unit := do
  if (← ArithNote.sub (← quiet readRampPos) (← quiet readCurrentPos)) > lead then
    quiet (perform (.setRampPos (← ArithNote.add (← quiet readCurrentPos) lead)))
  else if (← ArithNote.sub (← quiet readCurrentPos) (← quiet readRampPos)) > lead then
    quiet (perform (.setRampPos (← ArithNote.sub (← quiet readCurrentPos) lead)))
  else return

def clampLead : PosNoted Unit := do
  let lead ← ArithNote.toInt ((← ArithNote.div |← quiet readRampSpeed| cfg.freqHz) * 2)
  let lead := if lead < 200 then 200 else lead
  let lead := if lead > 2000 then 2000 else lead
  followMotor lead
  quiet stopAtTarget

def moveRamp (sign : ℤ) (remain : ℚ) : PosNoted Unit := do
  let vStopLimit := sqrtf (2 * cfg.maxAccel * cfg.freqHz * remain * (3 / 4))
  let vTarget := (if vStopLimit < cfg.rampMaxSpeed then vStopLimit else cfg.rampMaxSpeed) * sign
  quiet (do
    stepAccel cfg (CInt.clampTo cfg.maxAccel (vTarget - (← readRampSpeed)))
    perform (.setRampSpeed ((← readRampSpeed) + (← readRampAccel)))
    when ((← readRampSpeed) > cfg.rampMaxSpeed) (perform (.setRampSpeed cfg.rampMaxSpeed))
    when ((← readRampSpeed) < -cfg.rampMaxSpeed) (perform (.setRampSpeed (-cfg.rampMaxSpeed))))
  quiet (perform (.setRampPos (← ArithNote.add (← quiet readRampPos)
    (← ArithNote.toInt (← ArithNote.div (← quiet readRampSpeed) cfg.freqHz)))))
  quiet (do when (← overshot sign) (do perform (.setRampPos (← readTargetPos))))
  clampLead cfg

def ramp : PosNoted Unit := do
  let rampErr ← ArithNote.sub (← quiet readTargetPos) (← quiet readRampPos)
  let sign : ℤ := if rampErr > 0 then 1 else if rampErr < 0 then -1 else 0
  let remain : ℚ := |(rampErr : ℚ)|
  if sign ≠ 0 ∧ remain > 1 / 2 then moveRamp cfg sqrtf sign remain
  else quiet (do
    perform (.setRampAccel 0)
    perform (.setRampSpeed 0))

def controlFreq : PosNoted ℚ := do
  let posErr ← ArithNote.sub (← quiet readRampPos) (← quiet readCurrentPos)
  quiet (do
    when (← crossed posErr) (pid Pid.reset)
    perform (.setPrevPosErr posErr))
  if |(← ArithNote.sub (← quiet readTargetPos) (← quiet readCurrentPos) : ℚ)| ≤ 20 then do
    let finalErr ← ArithNote.sub (← quiet readTargetPos) (← quiet readCurrentPos)
    quiet (perform (.setRampSpeed 0))
    return nearFreq finalErr
  else quiet (do
    let ffSpeed ← readRampSpeed
    let corrLimit := cfg.rampMaxSpeed * (1 / 20)
    pid (Pid.setTarget (← readRampPos))
    let pidCorr ← pid (Pid.calculate (← readCurrentPos))
    return CInt.clampTo cfg.speedLimit (ffSpeed + CInt.clampTo corrLimit pidCorr))

def output (freqOut : ℚ) : PosNoted Unit := do
  quiet (do
    perform (.setOutputFreq freqOut)
    drv (Motor.setDirection (if freqOut > 0 then motorDirCw else motorDirCcw)))
  let absFreq ← ArithNote.toUnsigned |freqOut|
  let absErr ← ArithNote.toInt
    |(← ArithNote.sub (← quiet readTargetPos) (← quiet readCurrentPos) : ℚ)|
  let absFreq :=
    if absErr ≥ 100 ∨ absFreq ≥ motorMinFreqHz then
      if absFreq > 0 ∧ absFreq < motorMinFreqHz then motorMinFreqHz else absFreq
    else absFreq
  quiet (do let _ ← drv (Motor.setFrequency absFreq))

def sense : PosNoted Unit := do
  let encPos ← quiet encRead
  let encPos ← if cfg.encInvert then ArithNote.neg encPos else pure encPos
  quiet (do
    perform (.setCurrentPos encPos)
    perform (.setLastEnc encPos))

def regulate : PosNoted Unit := do
  quiet (drv Motor.idleTick)
  ramp cfg sqrtf
  output (← controlFreq cfg)

/-- One round of `pl_thread_entry` up to `log_tick`; true when it comes there. -/
def tick : PosNoted Bool := do
  if ← quiet readRunning then do
    sense cfg
    if ← quiet (drv Motor.checkFault) then do
      quiet stop
      return false
    else do
      regulate cfg sqrtf
      return true
  else do
    quiet (do
      perform (.setRampSpeed 0)
      perform (.setRampAccel 0)
      perform (.setOutputFreq 0))
    return false

/-! ## The log line -/

/-- `position_scale_to_physical` -/
def toPhysical (counts : ℤ) : PosNoted ℚ := do
  let scale ← quiet (ask (.read .posScale) PosSys.scale)
  ArithNote.div (← ArithNote.sub counts scale.homeOffset) scale.countsPerUnit

/-- The numbers of the log line: position, ramp, target and error. -/
def logLine : PosNoted Unit := do
  let _ ← toPhysical (← quiet readCurrentPos)
  let _ ← toPhysical (← quiet readRampPos)
  let _ ← toPhysical (← quiet readTargetPos)
  let err ← ArithNote.sub (← quiet readTargetPos) (← quiet readCurrentPos)
  let scale ← quiet (ask (.read .posScale) PosSys.scale)
  let _ ← ArithNote.div err scale.countsPerUnit

/-- The end of a round: the counter of ticks since the last log line. -/
def logTick (tick : ℤ) : PosNoted ℤ := do
  let tick ← ArithNote.add tick 1
  if CInt.uwrap 32 tick ≥ cfg.freqHz / 2 then do
    logLine
    return 0
  else return tick

/-- `pl_thread_entry` from a round on that finds the counter at `count`, observed for `rounds`
rounds. The semaphore only says when a round may begin. -/
def threadEntry (count : ℤ) : ℕ → PosNoted Unit
  | 0 => return
  | rounds + 1 => do
    if ← tick cfg sqrtf then threadEntry (← logTick cfg count) rounds
    else threadEntry count rounds

/-! ## Calls -/

/-- `position_loop_is_arrived` -/
def isArrived : PosNoted Bool := do
  let target ← quiet readTargetPos
  let dist ← ArithNote.abs (← ArithNote.sub target (← quiet readCurrentPos))
  return decide (dist < (← ArithNote.toInt cfg.moveThreshold))

def moveRound (timeoutMs deadline : ℕ) : PosNoted (Option ℤ) := do
  if ← isArrived cfg then return some motorEOk
  else quiet (do
    let fault ← ask (.drv .testFault) fun s => s.drv.motor.faultState
    if fault ≠ .none then return some motorEFault
    else if ← drv (Motor.expired timeoutMs deadline) then return some motorEHomeTimeout
    else do
      perform .delay
      return none)

def moveChecked (target : ℤ) (timeoutMs polls : ℕ) : PosNoted (Option ℤ) := do
  quiet (setTarget target)
  let deadline ← quiet (drv (Motor.deadlineAfter timeoutMs))
  poll polls (moveRound cfg timeoutMs deadline)

/-- `position_loop_move_to` -/
def moveTo (target : ℤ) (timeoutMs polls : ℕ) : PosNoted (Option ℤ) := do
  if ← quiet readRunning then do
    let fault ← quiet (ask (.drv .testFault) fun s => s.drv.motor.faultState)
    if fault ≠ FaultState.none then return some motorEFault
    else if target < (← quiet (ask (.read .posMinCounts) fun s => s.scale.posMinCounts)) then
      return some motorEOutOfRange
    else if target > (← quiet (ask (.read .posMaxCounts) fun s => s.scale.posMaxCounts)) then
      return some motorEOutOfRange
    else moveChecked cfg target timeoutMs polls
  else return some motorENotRunning

/-- The program of a call, less its result. -/
def code : PosCall → PosNoted Unit
  | .moveTo target timeoutMs polls => do
    let _ ← moveTo cfg target timeoutMs polls
  | .isArrived => do
    let _ ← isArrived cfg
  | c => quiet (c.code cfg)

/-! ## Without the notes -/

theorem erase_followMotor (lead : ℤ) : (followMotor lead).erase = PosLoop.followMotor lead := by
  simp [followMotor, PosLoop.followMotor, CInt.sub32]

theorem erase_clampLead : (clampLead cfg).erase = PosLoop.clampLead cfg := by
  simp [clampLead, PosLoop.clampLead, erase_followMotor]

theorem erase_moveRamp (sign : ℤ) (remain : ℚ) :
    (moveRamp cfg sqrtf sign remain).erase = PosLoop.moveRamp cfg sqrtf sign remain := by
  simp [moveRamp, PosLoop.moveRamp, erase_clampLead, Prog.bind_assoc]

theorem erase_ramp : (ramp cfg sqrtf).erase = PosLoop.ramp cfg sqrtf := by
  simp [ramp, PosLoop.ramp, erase_moveRamp]

theorem erase_controlFreq : (controlFreq cfg).erase = PosLoop.controlFreq cfg := by
  simp [controlFreq, PosLoop.controlFreq, Prog.bind_assoc]

theorem erase_output (freqOut : ℚ) : (output freqOut).erase = PosLoop.output freqOut := by
  simp [output, PosLoop.output]

theorem erase_sense : (sense cfg).erase = PosLoop.sense cfg := by
  cases h : cfg.encInvert <;> simp [sense, PosLoop.sense, h]

theorem erase_regulate : (regulate cfg sqrtf).erase = PosLoop.regulate cfg sqrtf := by
  simp [regulate, PosLoop.regulate, erase_ramp, erase_controlFreq, erase_output]

/-- The tick is that of the position loop. -/
theorem erase_tick : (tick cfg sqrtf >>= fun _ => .ret ()).erase = PosLoop.tick cfg sqrtf := by
  simp [tick, PosLoop.tick, erase_sense, erase_regulate, Prog.bind_assoc, Prog.bind_ret,
    Prog.ite_bind, Prog.perform]

theorem erase_isArrived : (isArrived cfg).erase = PosLoop.isArrived cfg := by
  simp [isArrived, PosLoop.isArrived, arrivedAt]

theorem erase_moveTo (target : ℤ) (timeoutMs polls : ℕ) :
    (moveTo cfg target timeoutMs polls).erase = PosLoop.moveTo cfg target timeoutMs polls := by
  simp [moveTo, PosLoop.moveTo, moveChecked, PosLoop.moveChecked, moveRound, PosLoop.moveRound,
    erase_isArrived]

/-- The calls are those of the position loop. -/
theorem erase_code (c : PosCall) : (code cfg c).erase = c.code cfg := by
  cases c <;> simp [code, PosCall.code, erase_moveTo, erase_isArrived]

end PosLoop.Noting

/-! ## Runs -/

/-- The shared loop, and what is left of the control thread (`none`) and of each call. -/
abbrev PosPool := Pool (Option ℕ) (Noted ArithNote PosAct) PosSys Unit

abbrev PosEvent := Event (Option ℕ) PosCall PosEnv

/-- The control thread and any number of threads that call the API. -/
def notedMachine (cfg : PosConfig) :
    Machine (Option ℕ) PosCall PosEnv (Noted ArithNote PosAct) PosSys Unit where
  eff := Noted.eff PosAct.eff
  code t c := match t with
    | none => .ret ()
    | some _ => PosLoop.Noting.code cfg c
  env := PosEnv.eff

/-- The state `s` after an init: the control thread waits for its first round. -/
def PosSys.launched (cfg : PosConfig) (sqrtf : ℚ → ℚ) (rounds : ℕ) (s : PosSys) : PosPool where
  st := s
  thr t := match t with
    | none => PosLoop.Noting.threadEntry cfg sqrtf 0 rounds
    | some _ => .ret ()

end H750Stepper
