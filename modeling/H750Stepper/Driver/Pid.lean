import H750Stepper.Lib.Prog

/-!
# The positional PID controller

`stepper_pid_pos.c`, with exact rational arithmetic. The controller has no lock: other threads reset
it or set its target while a control thread calculates, so each access to a field is an action, in
the order of the source.
-/

namespace H750Stepper

open Threads

/-- `stepper_pid_pos_t` -/
structure Pid where
  target : ℚ
  actual : ℚ
  err : ℚ
  errLast : ℚ
  kp : ℚ
  ki : ℚ
  kd : ℚ
  integralAcc : ℚ
  integralLimit : ℚ
  outputLimit : ℚ
  errorLimit : ℚ
  output : ℚ
  deriving DecidableEq, Inhabited

/-- The fields of `stepper_pid_pos_t`. -/
inductive PidField where
  | target | actual | err | errLast | kp | ki | kd
  | integralAcc | integralLimit | outputLimit | errorLimit | output
  deriving DecidableEq

namespace Pid

def get (pid : Pid) : PidField → ℚ
  | .target => pid.target
  | .actual => pid.actual
  | .err => pid.err
  | .errLast => pid.errLast
  | .kp => pid.kp
  | .ki => pid.ki
  | .kd => pid.kd
  | .integralAcc => pid.integralAcc
  | .integralLimit => pid.integralLimit
  | .outputLimit => pid.outputLimit
  | .errorLimit => pid.errorLimit
  | .output => pid.output

def set (pid : Pid) (v : ℚ) : PidField → Pid
  | .target => { pid with target := v }
  | .actual => { pid with actual := v }
  | .err => { pid with err := v }
  | .errLast => { pid with errLast := v }
  | .kp => { pid with kp := v }
  | .ki => { pid with ki := v }
  | .kd => { pid with kd := v }
  | .integralAcc => { pid with integralAcc := v }
  | .integralLimit => { pid with integralLimit := v }
  | .outputLimit => { pid with outputLimit := v }
  | .errorLimit => { pid with errorLimit := v }
  | .output => { pid with output := v }

end Pid

/-- An access to a field. -/
inductive PidAct where
  | read (f : PidField)
  | write (f : PidField) (v : ℚ)
  deriving DecidableEq

/-- What an access does. -/
def PidAct.eff : PidAct → Pid → Pid
  | .read _, pid => pid
  | .write f v, pid => pid.set v f

/-- A program of the controller. -/
abbrev PidProg (α : Type) := Prog PidAct Pid α

namespace Pid

open Prog (ask perform when)

def read (f : PidField) : PidProg ℚ := ask (.read f) fun pid => pid.get f

def write (f : PidField) (v : ℚ) : PidProg Unit := perform (.write f v)

/-- `stepper_pid_pos_init` -/
def init (kp ki kd integralLimit outputLimit errorLimit : ℚ) : PidProg Unit := do
  write .target 0
  write .actual 0
  write .err 0
  write .errLast 0
  write .kp kp
  write .ki ki
  write .kd kd
  write .integralAcc 0
  write .integralLimit integralLimit
  write .outputLimit outputLimit
  write .errorLimit errorLimit
  write .output 0

/-- `stepper_pid_pos_reset` -/
def reset : PidProg Unit := do
  write .actual 0
  write .err 0
  write .errLast 0
  write .integralAcc 0
  write .output 0

/-- `stepper_pid_pos_set_target` -/
def setTarget (target : ℚ) : PidProg Unit := write .target target

/-- `stepper_pid_pos_get_target` -/
def getTarget : PidProg ℚ := read .target

/-- `stepper_pid_pos_set_gains` -/
def setGains (kp ki kd : ℚ) : PidProg Unit := do
  write .kp kp
  write .ki ki
  write .kd kd

/-- `stepper_pid_pos_set_output_limit` -/
def setOutputLimit (limit : ℚ) : PidProg Unit := write .outputLimit limit

/-- The limit that `stepper_pid_pos_calculate` puts on the error and on the integral; a limit that
is not positive is off. -/
def clampField (f limit : PidField) : PidProg Unit := do
  if (← read limit) > 0 then do
    when ((← read f) > (← read limit)) (do write f (← read limit))
    when ((← read f) < -(← read limit)) (do write f (-(← read limit)))
  else return

/-- The integral that makes the integral term `iTerm`. -/
def setIntegral (iTerm : ℚ) : PidProg Unit := do
  when ((← read .ki) ≠ 0) (do write .integralAcc (iTerm / (← read .ki)))

/-- The output limit, from the three terms: the output, and whether it is saturated. The integral
is set back to what the limit leaves for it. -/
def limitOutput (pTerm iTerm dTerm : ℚ) : PidProg (ℚ × Bool) := do
  let output := pTerm + iTerm + dTerm
  if (← read .outputLimit) > 0 then
    if output > (← read .outputLimit) then do
      setIntegral (max ((← read .outputLimit) - pTerm - dTerm) 0)
      return (← read .outputLimit, true)
    else if output < -(← read .outputLimit) then do
      setIntegral (min (-(← read .outputLimit) - pTerm - dTerm) 0)
      return (-(← read .outputLimit), true)
    else return (output, false)
  else return (output, false)

/-- The integration of the error, when the output is not saturated. -/
def integrate (saturated : Bool) : PidProg Unit := do
  when ((← read .ki) ≠ 0 ∧ ¬saturated) (do
    write .integralAcc ((← read .integralAcc) + (← read .err))
    clampField .integralAcc .integralLimit)

/-- `stepper_pid_pos_calculate` -/
def calculate (actual : ℚ) : PidProg ℚ := do
  write .actual actual
  write .err ((← read .target) - (← read .actual))
  clampField .err .errorLimit
  let pTerm := (← read .kp) * (← read .err)
  let iTerm := (← read .ki) * (← read .integralAcc)
  let dTerm := (← read .kd) * ((← read .err) - (← read .errLast))
  let r ← limitOutput pTerm iTerm dTerm
  write .output r.1
  integrate r.2
  write .errLast (← read .err)
  return r.1

end Pid

end H750Stepper
