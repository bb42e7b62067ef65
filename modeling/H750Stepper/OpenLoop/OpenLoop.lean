import H750Stepper.Driver.Motor

/-!
# The open-loop controller

`stepper_openloop.c`: a speed ramp without an encoder, and position moves that count the steps they
command. Every access to a field is an action, as in the other two controllers.
-/

namespace H750Stepper

open Threads CInt

/-! ## State -/

/-- The fields of `stepper_openloop_t` that nothing but its init writes. -/
structure OpenConfig where
  freqHz : ℕ
  maxAccel : ℚ

/-- The other fields of `stepper_openloop_t`. -/
structure OpenLoop where
  running : Bool
  targetFreq : ℚ
  currentFreq : ℚ
  direction : ℤ
  posMode : Bool
  moveSpeed : ℚ
  totalSteps : ℚ
  accSteps : ℚ
  deriving DecidableEq, Inhabited

/-- An open-loop controller with its motor. -/
structure OpenSys where
  ol : OpenLoop
  drv : MotorSys
  deriving Inhabited

/-! ## Actions -/

/-- What a read looks at. -/
inductive OpenField where
  | running | targetFreq | currentFreq | direction | posMode | totalSteps | accSteps
  deriving DecidableEq

/-- The atomic actions on an open-loop controller. -/
inductive OpenAct where
  | read (f : OpenField)
  | setRunning (on : Bool)
  | setTargetFreq (v : ℚ)
  | setCurrentFreq (v : ℚ)
  | setDirection (v : ℤ)
  | setPosMode (on : Bool)
  | setMoveSpeed (v : ℚ)
  | setTotalSteps (v : ℚ)
  | setAccSteps (v : ℚ)
  | drv (l : MotorAct)
  deriving DecidableEq

/-- What an action does. -/
def OpenAct.eff : OpenAct → OpenSys → OpenSys
  | .read _, s => s
  | .setRunning on, s => { s with ol.running := on }
  | .setTargetFreq v, s => { s with ol.targetFreq := v }
  | .setCurrentFreq v, s => { s with ol.currentFreq := v }
  | .setDirection v, s => { s with ol.direction := v }
  | .setPosMode on, s => { s with ol.posMode := on }
  | .setMoveSpeed v, s => { s with ol.moveSpeed := v }
  | .setTotalSteps v, s => { s with ol.totalSteps := v }
  | .setAccSteps v, s => { s with ol.accSteps := v }
  | .drv l, s => { s with drv := l.eff s.drv }

/-- A program on an open-loop controller. -/
abbrev OpenProg (α : Type) := Prog OpenAct OpenSys α

namespace OpenLoop

open Prog (ask perform when)

/-- A function of the motor driver. -/
def drv {α : Type} (p : MotorProg α) : OpenProg α := p.zoom OpenAct.drv OpenSys.drv

@[simp] theorem all_drv {α : Type} {Φ : OpenAct → Prop} {p : MotorProg α} :
    (drv p).All Φ ↔ p.All fun l => Φ (.drv l) :=
  Prog.all_zoom fun x => ⟨{ (default : OpenSys) with drv := x }, rfl⟩

@[simp] theorem exec_drv {α : Type} (p : MotorProg α) (s : OpenSys) :
    (drv p).exec OpenAct.eff s =
      ((p.exec MotorAct.eff s.drv).1, { s with drv := (p.exec MotorAct.eff s.drv).2 }) :=
  Prog.exec_zoom MotorAct.eff (fun x (s : OpenSys) => { s with drv := x }) (fun _ _ => rfl)
    (fun _ _ => rfl) (fun _ => rfl) (fun _ _ _ => rfl) p s

def readRunning : OpenProg Bool := ask (.read .running) fun s => s.ol.running

def readTargetFreq : OpenProg ℚ := ask (.read .targetFreq) fun s => s.ol.targetFreq

def readCurrentFreq : OpenProg ℚ := ask (.read .currentFreq) fun s => s.ol.currentFreq

def readDirection : OpenProg ℤ := ask (.read .direction) fun s => s.ol.direction

def readPosMode : OpenProg Bool := ask (.read .posMode) fun s => s.ol.posMode

def readTotalSteps : OpenProg ℚ := ask (.read .totalSteps) fun s => s.ol.totalSteps

def readAccSteps : OpenProg ℚ := ask (.read .accSteps) fun s => s.ol.accSteps

variable (cfg : OpenConfig)

/-! ## The control tick -/

/-- The deceleration test of a position move; true when the move is over. -/
def decelPoint : OpenProg Bool := do
  let remaining := (← readTotalSteps) - (← readAccSteps)
  let a := cfg.maxAccel * cfg.freqHz
  when (remaining ≤ (← readCurrentFreq) * (← readCurrentFreq) / (2 * a))
    (perform (.setTargetFreq 0))
  if remaining ≤ 1 / 2 then do
    perform (.setCurrentFreq 0)
    perform (.setTargetFreq 0)
    perform (.setPosMode false)
    let _ ← drv (Motor.setFrequency 0)
    return true
  else return false

/-- The acceleration ramp. -/
def ramp : OpenProg Unit := do
  let diff := (← readTargetFreq) - (← readCurrentFreq)
  if diff > cfg.maxAccel then perform (.setCurrentFreq ((← readCurrentFreq) + cfg.maxAccel))
  else if diff < -cfg.maxAccel then perform (.setCurrentFreq ((← readCurrentFreq) - cfg.maxAccel))
  else perform (.setCurrentFreq (← readTargetFreq))

/-- The part of the tick that moves the motor. -/
def advance : OpenProg Unit := do
  ramp cfg
  let stepInc := (← readCurrentFreq) / cfg.freqHz
  perform (.setAccSteps ((← readAccSteps) + stepInc))
  drv (Motor.setDirection (← readDirection))
  let _ ← drv (Motor.setFrequency (← outputFreq))
where
  /-- The frequency commanded. -/
  outputFreq : OpenProg ℕ := do
    if (← readCurrentFreq) > 1 / 2 then return toUInt32 (← readCurrentFreq)
    else return 0

/-- One round of `ol_thread_entry`, after the semaphore has been taken. -/
def tick : OpenProg Unit := do
  if ← readRunning then do
    if ← readPosMode then do
      if ← decelPoint cfg then return
      else advance cfg
    else advance cfg
  else do
    perform (.setCurrentFreq 0)
    perform (.setPosMode false)

/-! ## API functions -/

/-- `stepper_openloop_start` -/
def start : OpenProg Unit := do
  if ← readRunning then return
  else do
    perform (.setCurrentFreq cfg.maxAccel)
    perform (.setTargetFreq cfg.maxAccel)
    perform (.setPosMode false)
    perform (.setAccSteps 0)
    drv Motor.start
    perform (.setRunning true)

/-- `stepper_openloop_stop` -/
def stop : OpenProg Unit := do
  perform (.setRunning false)
  drv Motor.stop
  perform (.setTargetFreq 0)
  perform (.setCurrentFreq 0)
  perform (.setPosMode false)
  perform (.setAccSteps 0)

/-- `stepper_openloop_move` -/
def move (steps speedHz : ℚ) : OpenProg Unit := do
  when (¬(← readRunning)) (start cfg)
  perform (.setPosMode true)
  perform (.setMoveSpeed speedHz)
  perform (.setTotalSteps |steps|)
  perform (.setAccSteps 0)
  perform (.setDirection (if steps ≥ 0 then motorDirCw else motorDirCcw))
  perform (.setTargetFreq speedHz)

/-- `stepper_openloop_set_freq` -/
def setFreq (freqHz : ℚ) : OpenProg Unit := perform (.setTargetFreq freqHz)

/-- `stepper_openloop_set_direction` -/
def setDirection (dir : ℤ) : OpenProg Unit := perform (.setDirection dir)

end OpenLoop

end H750Stepper
