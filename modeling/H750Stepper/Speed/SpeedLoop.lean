import H750Stepper.Driver.Encoder
import H750Stepper.Driver.Motor
import H750Stepper.Driver.Pid

/-!
# The speed loop

`speed_loop.c`: a PID controller on the speed measured by an encoder, and an acceleration ramp. As
in the position loop, every access to a field is an action. The periodic log line is left out.
-/

namespace H750Stepper

open Threads CInt

/-! ## State -/

/-- The fields of `speed_loop_t` that nothing but its init writes. -/
structure SpeedConfig where
  freqHz : ℕ
  speedLimit : ℚ
  moveThreshold : ℚ
  maxAccel : ℚ
  speedRatio : ℚ
  encInvert : Bool

/-- The other fields of `speed_loop_t`. -/
structure SpeedLoop where
  running : Bool
  rampTarget : ℚ
  rampCurrent : ℚ
  lastEnc : ℤ
  encDelta : ℤ
  currentSpeed : ℚ
  outputFreq : ℚ
  deriving Inhabited

/-- What `speed_loop_init` leaves of them. -/
def SpeedLoop.init : SpeedLoop where
  running := false
  rampTarget := 0
  rampCurrent := 0
  lastEnc := 0
  encDelta := 0
  currentSpeed := 0
  outputFreq := 0

/-- A speed loop with the objects it refers to. -/
structure SpeedSys where
  sl : SpeedLoop
  pid : Pid
  enc : Encoder
  drv : MotorSys
  deriving Inhabited

/-! ## Actions -/

/-- What a read looks at. -/
inductive SpeedField where
  | running | rampTarget | rampCurrent | lastEnc | currentSpeed | overflow
  deriving DecidableEq

/-- The atomic actions on a speed loop. -/
inductive SpeedAct where
  | read (f : SpeedField)
  | setRunning (on : Bool)
  | setRampTarget (v : ℚ)
  | setRampCurrent (v : ℚ)
  | setLastEnc (v : ℤ)
  | setEncDelta (v : ℤ)
  | setCurrentSpeed (v : ℚ)
  | setOutputFreq (v : ℚ)
  | pid (l : PidAct)
  | encRead
  | drv (l : MotorAct)
  deriving DecidableEq

/-- What an action does. -/
def SpeedAct.eff : SpeedAct → SpeedSys → SpeedSys
  | .read _, s => s
  | .setRunning on, s => { s with sl.running := on }
  | .setRampTarget v, s => { s with sl.rampTarget := v }
  | .setRampCurrent v, s => { s with sl.rampCurrent := v }
  | .setLastEnc v, s => { s with sl.lastEnc := v }
  | .setEncDelta v, s => { s with sl.encDelta := v }
  | .setCurrentSpeed v, s => { s with sl.currentSpeed := v }
  | .setOutputFreq v, s => { s with sl.outputFreq := v }
  | .pid l, s => { s with pid := l.eff s.pid }
  | .encRead, s => { s with enc := s.enc.read }
  | .drv l, s => { s with drv := l.eff s.drv }

/-- A program on a speed loop. -/
abbrev SpeedProg (α : Type) := Prog SpeedAct SpeedSys α

/-- What happens without the threads; the shaft may turn too. -/
inductive SpeedEnv where
  | drv (e : MotorEnv)
  | turn (d : ℤ)
  deriving DecidableEq

def SpeedEnv.eff : SpeedEnv → SpeedSys → SpeedSys
  | .drv e, s => { s with drv := e.eff s.drv }
  | .turn d, s => { s with enc := s.enc.turn d }

namespace SpeedLoop

open Prog (ask perform when)

/-- A function of the motor driver. -/
def drv {α : Type} (p : MotorProg α) : SpeedProg α := p.zoom SpeedAct.drv SpeedSys.drv

/-- A function of the PID controller. -/
def pid {α : Type} (p : PidProg α) : SpeedProg α := p.zoom SpeedAct.pid SpeedSys.pid

@[simp] theorem all_drv {α : Type} {Φ : SpeedAct → Prop} {p : MotorProg α} :
    (drv p).All Φ ↔ p.All fun l => Φ (.drv l) :=
  Prog.all_zoom fun x => ⟨{ (default : SpeedSys) with drv := x }, rfl⟩

@[simp] theorem all_pid {α : Type} {Φ : SpeedAct → Prop} {p : PidProg α} :
    (pid p).All Φ ↔ p.All fun l => Φ (.pid l) :=
  Prog.all_zoom fun x => ⟨{ (default : SpeedSys) with pid := x }, rfl⟩

@[simp] theorem exec_drv {α : Type} (p : MotorProg α) (s : SpeedSys) :
    (drv p).exec SpeedAct.eff s =
      ((p.exec MotorAct.eff s.drv).1, { s with drv := (p.exec MotorAct.eff s.drv).2 }) :=
  Prog.exec_zoom MotorAct.eff (fun x (s : SpeedSys) => { s with drv := x }) (fun _ _ => rfl)
    (fun _ _ => rfl) (fun _ => rfl) (fun _ _ _ => rfl) p s

@[simp] theorem exec_pid {α : Type} (p : PidProg α) (s : SpeedSys) :
    (pid p).exec SpeedAct.eff s =
      ((p.exec PidAct.eff s.pid).1, { s with pid := (p.exec PidAct.eff s.pid).2 }) :=
  Prog.exec_zoom PidAct.eff (fun x (s : SpeedSys) => { s with pid := x }) (fun _ _ => rfl)
    (fun _ _ => rfl) (fun _ => rfl) (fun _ _ _ => rfl) p s

/-- `stepper_encoder_driver_read`: the critical section, then the return value. -/
def encRead : SpeedProg ℤ := do
  perform .encRead
  ask (.read .overflow) fun s => s.enc.overflow

def readRunning : SpeedProg Bool := ask (.read .running) fun s => s.sl.running

def readRampTarget : SpeedProg ℚ := ask (.read .rampTarget) fun s => s.sl.rampTarget

def readRampCurrent : SpeedProg ℚ := ask (.read .rampCurrent) fun s => s.sl.rampCurrent

def readLastEnc : SpeedProg ℤ := ask (.read .lastEnc) fun s => s.sl.lastEnc

def readCurrentSpeed : SpeedProg ℚ := ask (.read .currentSpeed) fun s => s.sl.currentSpeed

variable (cfg : SpeedConfig)

/-! ## The control tick -/

/-- Parts 1 and 2 of the tick: the displacement since the tick before, and the filtered speed. -/
def measureSpeed : SpeedProg Unit := do
  let encPos ← encRead
  let encPos := if cfg.encInvert then wrap 32 (-encPos) else encPos
  let delta := sub32 encPos (← readLastEnc)
  perform (.setLastEnc encPos)
  perform (.setEncDelta delta)
  let rawSpeed : ℚ := delta * cfg.freqHz * cfg.speedRatio
  perform (.setCurrentSpeed ((← readCurrentSpeed) * (1 / 2) + rawSpeed * (1 / 2)))

/-- Part 4 of the tick: the acceleration ramp. -/
def ramp : SpeedProg Unit := do
  let diff := (← readRampTarget) - (← readRampCurrent)
  if diff > cfg.maxAccel then perform (.setRampCurrent ((← readRampCurrent) + cfg.maxAccel))
  else if diff < -cfg.maxAccel then perform (.setRampCurrent ((← readRampCurrent) - cfg.maxAccel))
  else perform (.setRampCurrent (← readRampTarget))

/-- Parts 5 and 6 of the tick: dead band, direction and frequency. -/
def output (freqOut : ℚ) : SpeedProg Unit := do
  perform (.setOutputFreq freqOut)
  if |freqOut| < cfg.moveThreshold then do
    let _ ← drv (Motor.setFrequency 0)
  else do
    drv (Motor.setDirection (if freqOut > 0 then motorDirCw else motorDirCcw))
    let absFreq := toUInt32 |freqOut|
    let absFreq := if absFreq < motorMinFreqHz then motorMinFreqHz else absFreq
    let _ ← drv (Motor.setFrequency absFreq)

/-- One round of `speed_loop_thread_entry`, after the semaphore has been taken. -/
def tick : SpeedProg Unit := do
  if ← readRunning then do
    measureSpeed cfg
    let pidOut ← pid (Pid.calculate (← readCurrentSpeed))
    perform (.setRampTarget pidOut)
    ramp cfg
    output cfg (clampTo cfg.speedLimit (← readRampCurrent))
  else do
    perform (.setRampTarget 0)
    perform (.setRampCurrent 0)
    perform (.setOutputFreq 0)

/-! ## API functions -/

/-- `speed_loop_start`. It takes the reading of the encoder as it is, whatever `enc_invert` says. -/
def start : SpeedProg Unit := do
  if ← readRunning then return
  else do
    pid Pid.reset
    perform (.setRampTarget 0)
    perform (.setRampCurrent 0)
    perform (.setOutputFreq 0)
    perform (.setLastEnc (← encRead))
    pid (Pid.setTarget 0)
    drv Motor.start
    perform (.setRunning true)

/-- `speed_loop_stop` -/
def stop : SpeedProg Unit := do
  perform (.setRunning false)
  drv Motor.stop
  pid Pid.reset
  perform (.setRampTarget 0)
  perform (.setRampCurrent 0)
  perform (.setOutputFreq 0)
  perform (.setLastEnc 0)
  perform (.setEncDelta 0)
  perform (.setCurrentSpeed 0)

/-- `speed_loop_set_target` -/
def setTarget (targetHz : ℚ) : SpeedProg Unit := do
  let targetHz := clampTo cfg.speedLimit targetHz
  let oldTarget ← pid Pid.getTarget
  when (|targetHz - oldTarget| > |oldTarget| * (1 / 5) ∨ (oldTarget > 0 ∧ targetHz < 0) ∨
      (oldTarget < 0 ∧ targetHz > 0)) (do
    pid Pid.reset
    perform (.setRampTarget 0)
    perform (.setRampCurrent 0))
  pid (Pid.setTarget targetHz)

end SpeedLoop

end H750Stepper
