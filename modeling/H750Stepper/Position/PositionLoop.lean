import H750Stepper.Driver.Encoder
import H750Stepper.Driver.Motor
import H750Stepper.Driver.Pid
import H750Stepper.Driver.Scale

/-!
# The position loop

`position_loop.c`: an S-curve ramp and a PID controller on a motor driver and an encoder. A control
thread runs one `tick` for each period of the hardware timer; the API functions run in other
threads. The two share the fields of the loop without a lock, so every access to a field is an
action of its own, in the order of the source, next to the sections of the two drivers and the
accesses of the PID. The periodic log line is left out.

The fields that only `position_loop_init` writes are the parameter `cfg`, and `sqrtf` is a parameter
too.
-/

namespace H750Stepper

open Threads CInt

/-! ## State -/

/-- The fields of `position_loop_t` that nothing but its init writes. -/
structure PosConfig where
  freqHz : ℕ
  speedLimit : ℚ
  moveThreshold : ℚ
  maxAccel : ℚ
  encInvert : Bool
  sCurveJerk : ℚ
  rampMaxSpeed : ℚ

/-- The other fields of `position_loop_t`. -/
structure PosLoop where
  running : Bool
  arrivedLocked : Bool
  targetPos : ℤ
  rampPos : ℤ
  rampSpeed : ℚ
  rampAccel : ℚ
  lastEnc : ℤ
  currentPos : ℤ
  prevPosErr : ℤ
  outputFreq : ℚ
  deriving Inhabited

/-- What `position_loop_init` leaves of them. -/
def PosLoop.init : PosLoop where
  running := false
  arrivedLocked := false
  targetPos := 0
  rampPos := 0
  rampSpeed := 0
  rampAccel := 0
  lastEnc := 0
  currentPos := 0
  prevPosErr := 0
  outputFreq := 0

/-- A position loop with the objects it refers to. -/
structure PosSys where
  pl : PosLoop
  scale : PosScale
  pid : Pid
  enc : Encoder
  drv : MotorSys
  deriving Inhabited

/-! ## Actions -/

/-- What a read looks at: a field of the loop, a soft limit in counts, the other fields of the
scale, or the position that the encoder driver returns after its critical section. -/
inductive PosField where
  | running | targetPos | rampPos | rampSpeed | rampAccel | currentPos | prevPosErr
  | posMinCounts | posMaxCounts | posScale | overflow
  deriving DecidableEq

/-- The atomic actions on a position loop. -/
inductive PosAct where
  | read (f : PosField)
  | setRunning (on : Bool)
  | setArrivedLocked (on : Bool)
  | setTargetPos (v : ℤ)
  | setRampPos (v : ℤ)
  | setRampSpeed (v : ℚ)
  | setRampAccel (v : ℚ)
  | setLastEnc (v : ℤ)
  | setCurrentPos (v : ℤ)
  | setPrevPosErr (v : ℤ)
  | setOutputFreq (v : ℚ)
  | setHomeOffset (v : ℤ)
  | updatePosMinCounts | updatePosMaxCounts
  | pid (l : PidAct)
  | encRead | encClear
  | drv (l : MotorAct)
  | delay
  deriving DecidableEq

/-- What an action does. -/
def PosAct.eff : PosAct → PosSys → PosSys
  | .read _, s | .delay, s => s
  | .setRunning on, s => { s with pl.running := on }
  | .setArrivedLocked on, s => { s with pl.arrivedLocked := on }
  | .setTargetPos v, s => { s with pl.targetPos := v }
  | .setRampPos v, s => { s with pl.rampPos := v }
  | .setRampSpeed v, s => { s with pl.rampSpeed := v }
  | .setRampAccel v, s => { s with pl.rampAccel := v }
  | .setLastEnc v, s => { s with pl.lastEnc := v }
  | .setCurrentPos v, s => { s with pl.currentPos := v }
  | .setPrevPosErr v, s => { s with pl.prevPosErr := v }
  | .setOutputFreq v, s => { s with pl.outputFreq := v }
  | .setHomeOffset v, s => { s with scale.homeOffset := v }
  | .updatePosMinCounts, s => { s with scale.posMinCounts := s.scale.toCounts s.scale.posMin }
  | .updatePosMaxCounts, s => { s with scale.posMaxCounts := s.scale.toCounts s.scale.posMax }
  | .pid l, s => { s with pid := l.eff s.pid }
  | .encRead, s => { s with enc := s.enc.read }
  | .encClear, s => { s with enc := s.enc.clear }
  | .drv l, s => { s with drv := l.eff s.drv }

/-- A program on a position loop. -/
abbrev PosProg (α : Type) := Prog PosAct PosSys α

/-- What happens without the threads; the shaft may turn too. -/
inductive PosEnv where
  | drv (e : MotorEnv)
  | turn (d : ℤ)
  deriving DecidableEq

def PosEnv.eff : PosEnv → PosSys → PosSys
  | .drv e, s => { s with drv := e.eff s.drv }
  | .turn d, s => { s with enc := s.enc.turn d }

namespace PosLoop

open Prog (ask perform poll when)

/-- A function of the motor driver. -/
def drv {α : Type} (p : MotorProg α) : PosProg α := p.zoom PosAct.drv PosSys.drv

/-- A function of the PID controller. -/
def pid {α : Type} (p : PidProg α) : PosProg α := p.zoom PosAct.pid PosSys.pid

@[simp] theorem drv_bind {α β : Type} (p : MotorProg α) (g : α → MotorProg β) :
    drv (p >>= g) = drv p >>= fun a => drv (g a) := Prog.zoom_bind ..

@[simp] theorem drv_ret {α : Type} (a : α) : drv (.ret a) = .ret a := rfl

@[simp] theorem drv_ask {α : Type} (l : MotorAct) (f : MotorSys → α) :
    drv (ask l f) = ask (.drv l) fun s => f s.drv := rfl

@[simp] theorem drv_perform (l : MotorAct) : drv (perform l) = perform (.drv l) := rfl

@[simp] theorem drv_ite {α : Type} (c : Prop) [Decidable c] (p q : MotorProg α) :
    drv (if c then p else q) = if c then drv p else drv q := Prog.zoom_ite ..

@[simp] theorem drv_poll {α : Type} (n : ℕ) (body : MotorProg (Option α)) :
    drv (poll n body) = poll n (drv body) := Prog.zoom_poll ..

@[simp] theorem all_drv {α : Type} {Φ : PosAct → Prop} {p : MotorProg α} :
    (drv p).All Φ ↔ p.All fun l => Φ (.drv l) :=
  Prog.all_zoom fun x => ⟨{ (default : PosSys) with drv := x }, rfl⟩

@[simp] theorem all_pid {α : Type} {Φ : PosAct → Prop} {p : PidProg α} :
    (pid p).All Φ ↔ p.All fun l => Φ (.pid l) :=
  Prog.all_zoom fun x => ⟨{ (default : PosSys) with pid := x }, rfl⟩

@[simp] theorem exec_drv {α : Type} (p : MotorProg α) (s : PosSys) :
    (drv p).exec PosAct.eff s =
      ((p.exec MotorAct.eff s.drv).1, { s with drv := (p.exec MotorAct.eff s.drv).2 }) :=
  Prog.exec_zoom MotorAct.eff (fun x (s : PosSys) => { s with drv := x }) (fun _ _ => rfl)
    (fun _ _ => rfl) (fun _ => rfl) (fun _ _ _ => rfl) p s

@[simp] theorem exec_pid {α : Type} (p : PidProg α) (s : PosSys) :
    (pid p).exec PosAct.eff s =
      ((p.exec PidAct.eff s.pid).1, { s with pid := (p.exec PidAct.eff s.pid).2 }) :=
  Prog.exec_zoom PidAct.eff (fun x (s : PosSys) => { s with pid := x }) (fun _ _ => rfl)
    (fun _ _ => rfl) (fun _ => rfl) (fun _ _ _ => rfl) p s

/-- `stepper_encoder_driver_read`: the critical section, then the return value. -/
def encRead : PosProg ℤ := do
  perform .encRead
  ask (.read .overflow) fun s => s.enc.overflow

def readRunning : PosProg Bool := ask (.read .running) fun s => s.pl.running

def readTargetPos : PosProg ℤ := ask (.read .targetPos) fun s => s.pl.targetPos

def readRampPos : PosProg ℤ := ask (.read .rampPos) fun s => s.pl.rampPos

def readRampSpeed : PosProg ℚ := ask (.read .rampSpeed) fun s => s.pl.rampSpeed

def readRampAccel : PosProg ℚ := ask (.read .rampAccel) fun s => s.pl.rampAccel

def readCurrentPos : PosProg ℤ := ask (.read .currentPos) fun s => s.pl.currentPos

def readPrevPosErr : PosProg ℤ := ask (.read .prevPosErr) fun s => s.pl.prevPosErr

/-! ## Stop and start -/

/-- `position_loop_stop` -/
def stop : PosProg Unit := do
  perform (.setRunning false)
  drv Motor.stop
  pid Pid.reset
  perform (.setRampSpeed 0)
  perform (.setRampAccel 0)
  perform (.setOutputFreq 0)
  perform (.setRampPos 0)
  perform (.setTargetPos 0)

variable (cfg : PosConfig) (sqrtf : ℚ → ℚ)

/-- `position_loop_start` -/
def start : PosProg Unit := do
  if ← readRunning then return
  else do
    drv Motor.clearFault
    pid Pid.reset
    perform (.setCurrentPos (← encRead))
    when cfg.encInvert (do perform (.setCurrentPos (wrap 32 (-(← readCurrentPos)))))
    perform (.setTargetPos (← readCurrentPos))
    perform (.setRampPos (← readCurrentPos))
    perform (.setRampSpeed 0)
    perform (.setRampAccel 0)
    perform (.setOutputFreq 0)
    drv Motor.start
    perform (.setRunning true)

/-! ## The control tick -/

/-- The ramp is kept within `lead` counts of the motor. -/
def followMotor (lead : ℤ) : PosProg Unit := do
  if sub32 (← readRampPos) (← readCurrentPos) > lead then
    perform (.setRampPos (wrap 32 ((← readCurrentPos) + lead)))
  else if sub32 (← readCurrentPos) (← readRampPos) > lead then
    perform (.setRampPos (wrap 32 ((← readCurrentPos) - lead)))
  else return

/-- The ramp does not follow the motor from below past the target. -/
def stopBelowTarget : PosProg Unit := do
  if (← readRampPos) < (← readTargetPos) then
    if (← readCurrentPos) ≥ (← readTargetPos) then perform (.setRampPos (← readTargetPos))
    else return
  else return

/-- The ramp does not follow the motor past the target. -/
def stopAtTarget : PosProg Unit := do
  if (← readRampPos) > (← readTargetPos) then
    if (← readCurrentPos) ≤ (← readTargetPos) then perform (.setRampPos (← readTargetPos))
    else stopBelowTarget
  else stopBelowTarget

/-- The limit on the distance between ramp and motor: two periods, between 200 and 2000 counts. -/
def clampLead : PosProg Unit := do
  let lead := toInt32 (|← readRampSpeed| / cfg.freqHz * 2)
  let lead := if lead < 200 then 200 else lead
  let lead := if lead > 2000 then 2000 else lead
  followMotor lead
  stopAtTarget

/-- The ramp is past the target in the direction `sign`. -/
def overshot (sign : ℤ) : PosProg Bool :=
  if sign > 0 then return decide ((← readRampPos) > (← readTargetPos))
  else if sign < 0 then return decide ((← readRampPos) < (← readTargetPos))
  else return false

/-- The acceleration moves toward `aDesired`, by at most the jerk limit. -/
def stepAccel (aDesired : ℚ) : PosProg Unit := do
  let jerk := cfg.sCurveJerk
  if aDesired > (← readRampAccel) + jerk then perform (.setRampAccel ((← readRampAccel) + jerk))
  else if aDesired < (← readRampAccel) - jerk then
    perform (.setRampAccel ((← readRampAccel) - jerk))
  else perform (.setRampAccel aDesired)

/-- One step of the ramp in the direction `sign`, `remain` counts away from the target. -/
def moveRamp (sign : ℤ) (remain : ℚ) : PosProg Unit := do
  let vStopLimit := sqrtf (2 * cfg.maxAccel * cfg.freqHz * remain * (3 / 4))
  let vTarget := (if vStopLimit < cfg.rampMaxSpeed then vStopLimit else cfg.rampMaxSpeed) * sign
  stepAccel cfg (clampTo cfg.maxAccel (vTarget - (← readRampSpeed)))
  perform (.setRampSpeed ((← readRampSpeed) + (← readRampAccel)))
  when ((← readRampSpeed) > cfg.rampMaxSpeed) (perform (.setRampSpeed cfg.rampMaxSpeed))
  when ((← readRampSpeed) < -cfg.rampMaxSpeed) (perform (.setRampSpeed (-cfg.rampMaxSpeed)))
  perform (.setRampPos (wrap 32 ((← readRampPos) + toInt32 ((← readRampSpeed) / cfg.freqHz))))
  when (← overshot sign) (do perform (.setRampPos (← readTargetPos)))
  clampLead cfg

/-- Part 2 of the tick: the ramp. -/
def ramp : PosProg Unit := do
  let rampErr := sub32 (← readTargetPos) (← readRampPos)
  let sign : ℤ := if rampErr > 0 then 1 else if rampErr < 0 then -1 else 0
  let remain : ℚ := |(rampErr : ℚ)|
  if sign ≠ 0 ∧ remain > 1 / 2 then moveRamp cfg sqrtf sign remain
  else do
    perform (.setRampAccel 0)
    perform (.setRampSpeed 0)

/-- The frequency near the target: one step of `err` counts in three periods. -/
def nearFreq (finalErr : ℤ) : ℚ :=
  if finalErr = 0 then 0
  else
    let f := |(finalErr : ℚ)| * 27
    let f := if f < 50 then 50 else f
    let f := if f > 500 then 500 else f
    if finalErr > 0 then f else -f

/-- The error has changed its sign since the tick before. -/
def crossed (posErr : ℤ) : PosProg Bool :=
  if posErr > 0 then return decide ((← readPrevPosErr) < 0)
  else if posErr < 0 then return decide ((← readPrevPosErr) > 0)
  else return false

/-- Part 3 of the tick: the frequency to output. -/
def controlFreq : PosProg ℚ := do
  let posErr := sub32 (← readRampPos) (← readCurrentPos)
  when (← crossed posErr) (pid Pid.reset)
  perform (.setPrevPosErr posErr)
  if |(sub32 (← readTargetPos) (← readCurrentPos) : ℚ)| ≤ 20 then do
    let finalErr := sub32 (← readTargetPos) (← readCurrentPos)
    perform (.setRampSpeed 0)
    return nearFreq finalErr
  else do
    let ffSpeed ← readRampSpeed
    let corrLimit := cfg.rampMaxSpeed * (1 / 20)
    pid (Pid.setTarget (← readRampPos))
    let pidCorr ← pid (Pid.calculate (← readCurrentPos))
    return clampTo cfg.speedLimit (ffSpeed + clampTo corrLimit pidCorr)

/-- Part 4 of the tick: direction and frequency. -/
def output (freqOut : ℚ) : PosProg Unit := do
  perform (.setOutputFreq freqOut)
  drv (Motor.setDirection (if freqOut > 0 then motorDirCw else motorDirCcw))
  let absFreq := toUInt32 |freqOut|
  let absErr := toInt32 |(sub32 (← readTargetPos) (← readCurrentPos) : ℚ)|
  let absFreq :=
    if absErr ≥ 100 ∨ absFreq ≥ motorMinFreqHz then
      if absFreq > 0 ∧ absFreq < motorMinFreqHz then motorMinFreqHz else absFreq
    else absFreq
  let _ ← drv (Motor.setFrequency absFreq)

/-- Part 1 of the tick: the position. -/
def sense : PosProg Unit := do
  let encPos ← encRead
  let encPos := if cfg.encInvert then wrap 32 (-encPos) else encPos
  perform (.setCurrentPos encPos)
  perform (.setLastEnc encPos)

/-- The tick of a loop without a fault, from the idle current on. -/
def regulate : PosProg Unit := do
  drv Motor.idleTick
  ramp cfg sqrtf
  output (← controlFreq cfg)

/-- One round of `pl_thread_entry`, after the semaphore has been taken. -/
def tick : PosProg Unit := do
  if ← readRunning then do
    sense cfg
    if ← drv Motor.checkFault then stop
    else regulate cfg sqrtf
  else do
    perform (.setRampSpeed 0)
    perform (.setRampAccel 0)
    perform (.setOutputFreq 0)

/-! ## Moves -/

/-- `position_loop_set_target` -/
def setTarget (target : ℤ) : PosProg Unit := do
  if target < (← ask (.read .posMinCounts) fun s => s.scale.posMinCounts) then return
  else if target > (← ask (.read .posMaxCounts) fun s => s.scale.posMaxCounts) then return
  else do
    when (← readRunning) (do
      perform (.setRampPos (← readCurrentPos))
      perform (.setRampSpeed 0)
      perform (.setRampAccel 0)
      pid Pid.reset)
    perform (.setTargetPos target)
    perform (.setArrivedLocked false)

/-- The test of `position_loop_is_arrived`. -/
def arrivedAt (target current : ℤ) : Bool :=
  decide (abs32 (sub32 target current) < toInt32 cfg.moveThreshold)

/-- `position_loop_is_arrived` -/
def isArrived : PosProg Bool := do
  let target ← readTargetPos
  return arrivedAt cfg target (← readCurrentPos)

/-- One round of the wait in `position_loop_move_to`: `some ret` leaves the loop. -/
def moveRound (timeoutMs deadline : ℕ) : PosProg (Option ℤ) := do
  if ← isArrived cfg then return some motorEOk
  else do
    let fault ← ask (.drv .testFault) fun s => s.drv.motor.faultState
    if fault ≠ .none then return some motorEFault
    else if ← drv (Motor.expired timeoutMs deadline) then return some motorEHomeTimeout
    else do
      perform .delay
      return none

/-- The part of `position_loop_move_to` after its checks. -/
def moveChecked (target : ℤ) (timeoutMs polls : ℕ) : PosProg (Option ℤ) := do
  setTarget target
  let deadline ← drv (Motor.deadlineAfter timeoutMs)
  poll polls (moveRound cfg timeoutMs deadline)

/-- `position_loop_move_to`, observed for at most `polls` rounds of its loop: `none` when it still
waits. -/
def moveTo (target : ℤ) (timeoutMs polls : ℕ) : PosProg (Option ℤ) := do
  if ← readRunning then do
    let fault ← ask (.drv .testFault) fun s => s.drv.motor.faultState
    if fault ≠ FaultState.none then return some motorEFault
    else if target < (← ask (.read .posMinCounts) fun s => s.scale.posMinCounts) then
      return some motorEOutOfRange
    else if target > (← ask (.read .posMaxCounts) fun s => s.scale.posMaxCounts) then
      return some motorEOutOfRange
    else moveChecked cfg target timeoutMs polls
  else return some motorENotRunning

/-- `position_loop_move_to_physical`, observed as `position_loop_move_to` is. -/
def moveToPhysical (target : ℚ) (timeoutMs polls : ℕ) : PosProg (Option ℤ) := do
  let scale ← ask (.read .posScale) PosSys.scale
  if scale.checkRange target then moveTo cfg (scale.toCounts target) timeoutMs polls
  else return some motorEOutOfRange

/-- `position_loop_home`, observed for at most `polls` rounds of the wait for the home pin. The
encoder it is given is that of the loop. -/
def home (homePin homeDir : ℤ) (speedHz timeoutMs polls : ℕ) : PosProg (Option ℤ) := do
  if ← readRunning then do
    match ← drv (Motor.home homePin homeDir speedHz 0 timeoutMs polls) with
    | none => return none
    | some ret =>
      if ret ≠ motorEOk then return some ret
      else do
        perform .encClear
        perform (.setHomeOffset 0)
        perform .updatePosMinCounts
        perform .updatePosMaxCounts
        perform (.setCurrentPos 0)
        perform (.setTargetPos 0)
        perform (.setRampPos 0)
        return some motorEOk
  else return some motorENotRunning

end PosLoop

/-! ## What the parts of a tick may do -/

/-- The actions of part 1 of the tick. -/
def PosAct.Senses : PosAct → Prop
  | .read _ | .encRead | .setCurrentPos _ | .setLastEnc _ => True
  | _ => False

/-- The actions of the rest of the tick of a loop without a fault: they move the ramp, reset and run
the PID, and set the idle current, the direction and the frequency of the motor. -/
def PosAct.Regulates : PosAct → Prop
  | .read _ | .setRampPos _ | .setRampSpeed _ | .setRampAccel _ | .setPrevPosErr _
  | .setOutputFreq _ | .pid _ => True
  | .drv a => match a with
    | .test | .testFault | .readTick | .releaseEn | .setDirection _ | .setFrequency _ => True
    | _ => False
  | _ => False

/-- The actions of a stop. -/
def PosAct.Stops : PosAct → Prop
  | .setRunning on => on = false
  | .setTargetPos v => v = 0
  | .setRampPos _ | .setRampSpeed _ | .setRampAccel _ | .setOutputFreq _ | .pid _ => True
  | .drv a => a = .stop
  | _ => False

/-- The actions of a homing. -/
def PosAct.Homes : PosAct → Prop
  | .read _ | .drv _ | .encClear | .updatePosMinCounts | .updatePosMaxCounts => True
  | .setHomeOffset v | .setCurrentPos v | .setTargetPos v | .setRampPos v => v = 0
  | _ => False

namespace PosLoop

theorem sense_all (cfg : PosConfig) : (sense cfg).All PosAct.Senses := by
  simp [sense, encRead, PosAct.Senses]

theorem regulate_all (cfg : PosConfig) (sqrtf : ℚ → ℚ) :
    (regulate cfg sqrtf).All PosAct.Regulates := by
  simp [regulate, ramp, moveRamp, stepAccel, overshot, clampLead, followMotor, stopAtTarget,
    stopBelowTarget, controlFreq, crossed, output, readRampPos, readTargetPos, readCurrentPos,
    readRampSpeed, readRampAccel, readPrevPosErr, Motor.idleTick, Motor.setDirection,
    Motor.setFrequency, PosAct.Regulates]

theorem stop_all : stop.All PosAct.Stops := by
  simp [stop, Motor.stop, PosAct.Stops]

theorem home_all (homePin homeDir : ℤ) (speedHz timeoutMs polls : ℕ) :
    (home homePin homeDir speedHz timeoutMs polls).All PosAct.Homes := by
  refine .ask_bind trivial fun s => Prog.all_ite.2 ⟨fun _ => ?_, fun _ => trivial⟩
  refine Prog.all_bind.2 ⟨by simp [PosAct.Homes], fun o _ => ?_⟩
  cases o with
  | none => trivial
  | some ret => simp [PosAct.Homes]

end PosLoop

end H750Stepper
