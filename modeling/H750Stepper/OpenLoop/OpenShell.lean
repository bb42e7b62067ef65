import H750Stepper.Loops.Shell
import H750Stepper.OpenLoop.OpenMove

/-!
# The commands of the open loop

`test_openloop.c`: one motor and one open-loop controller, the commands `stepol` and `stepol_dir`,
and `ensure_inited`, which initialises both before the first command that needs them. The shell is
one thread, the control thread another; the outcome of an init is whatever the environment answers.
The lines printed are left out, the fields they are printed from are not.
-/

namespace H750Stepper

open Threads

/-! ## State -/

/-- The two inits. -/
inductive OpenInitStep where
  | motor | loop
  deriving DecidableEq

/-- The motor, the controller and the flag of the file, and what the inits will return. -/
structure OpenShell where
  sys : OpenSys
  inited : Bool
  answer : OpenInitStep → ℤ

namespace OpenShell

/-- `CTRL_PERIOD`, in microseconds -/
def ctrlPeriod : ℕ := 20000

/-- `MAX_ACCEL` -/
def maxAccel : ℚ := 200

/-- What `stepper_openloop_init` makes of them. -/
def config : OpenConfig := { freqHz := 1000000 / ctrlPeriod, maxAccel }

/-- Statically allocated objects. -/
def boot (answer : OpenInitStep → ℤ) : OpenShell where
  sys := {
    ol := {
      running := false, targetFreq := 0, currentFreq := 0, direction := 0, posMode := false
      moveSpeed := 0, totalSteps := 0, accSteps := 0 }
    drv := .zeroed }
  inited := false
  answer := answer

end OpenShell

/-! ## Actions -/

/-- The actions of the two threads: those on the controller and its motor, and the flag's and the
inits'. -/
inductive OpenShellAct where
  | ol (l : OpenAct)
  | test
  | initMotor (timClk : ℕ)
  | initLoop
  | setInited

/-- What an action does. An init writes the fields of its object first; the init of the motor sets
up pins and timer after the lock has been created, which is all that can fail. -/
def OpenShellAct.eff : OpenShellAct → OpenShell → OpenShell
  | .ol l, s => { s with sys := l.eff s.sys }
  | .test, s => s
  | .initMotor timClk, s =>
    let drv := s.sys.drv.init timClk (-1) false
    if s.answer .motor = 0 then { s with sys.drv := drv } else { s with sys.drv.motor := drv.motor }
  | .initLoop, s => { s with
      sys.ol.running := false
      sys.ol.targetFreq := 0
      sys.ol.currentFreq := 0
      sys.ol.direction := motorDirCw }
  | .setInited, s => { s with inited := true }

/-- A program of one of the two threads. -/
abbrev OpenCmd (α : Type) := Prog OpenShellAct OpenShell α

namespace OpenShell

open Prog (ask perform when)

/-- A function of the controller. -/
def onLoop {α : Type} (p : OpenProg α) : OpenCmd α := p.zoom .ol sys

def initMotor (timClk : ℕ) : OpenCmd ℤ := ask (.initMotor timClk) fun s => s.answer .motor

def initLoop : OpenCmd ℤ := ask .initLoop fun s => s.answer .loop

variable (lib : Shell.CLib) (timClk : ℕ) (argv : Shell.Argv)

/-- `ensure_inited`. The timer clock is twice `HAL_RCC_GetPCLK1Freq`. -/
def ensureInited : OpenCmd ℤ := do
  if ← ask .test inited then return 0
  else if (← initMotor timClk) ≠ 0 then return -1
  else if (← initLoop) ≠ 0 then return -1
  else do
    perform .setInited
    return 0

/-- The status line. -/
def statusLine : OpenCmd Unit := do
  let _ ← onLoop OpenLoop.readRunning
  let _ ← onLoop OpenLoop.readDirection
  let _ ← onLoop OpenLoop.readTargetFreq
  let _ ← onLoop OpenLoop.readCurrentFreq

/-- The part of `cmd_stepol` that sets a frequency. -/
def setFreq (f : ℚ) : OpenCmd ℤ := do
  when (¬(← onLoop OpenLoop.readRunning)) do
    onLoop (OpenLoop.start config)
    onLoop (OpenLoop.setDirection motorDirCw)
  onLoop (OpenLoop.setFreq f)
  let _ ← onLoop OpenLoop.readCurrentFreq
  return 0

/-- `cmd_stepol` -/
def cmdStepol : OpenCmd ℤ := do
  if argv.length < 2 then do
    statusLine
    return 0
  else if (← ensureInited timClk) ≠ 0 then return -1
  else do
    let f := lib.atof (argv.arg 1)
    if f = 0 then do
      onLoop OpenLoop.stop
      return 0
    else setFreq f

/-- `cmd_stepol_dir`, which does not look at what `ensure_inited` returns. -/
def cmdStepolDir : OpenCmd ℤ := do
  if argv.length < 2 then return -1
  else do
    let _ ← ensureInited timClk
    onLoop (OpenLoop.setDirection (if argv.arg 1 = "ccw" then motorDirCcw else motorDirCw))
    return 0

end OpenShell

/-! ## The two threads -/

/-- The shell, and the control thread of the controller. -/
inductive OpenThread where
  | shell | control
  deriving DecidableEq

/-- A line typed at the shell. -/
inductive OpenLine where
  | stepol (argv : Shell.Argv)
  | stepolDir (argv : Shell.Argv)

/-- What happens without the threads. -/
inductive OpenEnv where
  | motor (e : MotorEnv)
  | answer (step : OpenInitStep) (ret : ℤ)

def OpenEnv.eff : OpenEnv → OpenShell → OpenShell
  | .motor e, s => { s with sys.drv := e.eff s.sys.drv }
  | .answer step ret, s => { s with answer := Function.update s.answer step ret }

/-- The shell runs the lines typed, and the control thread runs its ticks. -/
def openBoard (lib : Shell.CLib) (timClk : ℕ) :
    Machine OpenThread OpenLine OpenEnv OpenShellAct OpenShell ℤ where
  eff := OpenShellAct.eff
  code
    | .shell, .stepol argv => OpenShell.cmdStepol lib timClk argv
    | .shell, .stepolDir argv => OpenShell.cmdStepolDir timClk argv
    | .control, _ => do
      OpenShell.onLoop (OpenLoop.tick OpenShell.config)
      return 0
  env := OpenEnv.eff

end H750Stepper
