import H750Stepper.Lib.Prog
import H750Stepper.Lib.CInt

/-!
# The motor driver

`stepper_motor_driver.c`: one step motor on an output-compare timer channel, with its fault input,
its enable and direction pins and its step counter. The sections that the driver's mutex protects
are functions on `MotorSys`; an API function is the program (`Prog`) of its sections and of the
tests and assignments it makes outside the mutex, in the order of the source. The mutex is
recursive, so `disable`, which calls `stop` inside its own section, is one section.

Floating point is read as exact rational arithmetic. `total_steps` is a 64-bit counter in the source
and an integer here.
-/

namespace H750Stepper

open Threads CInt

/-! ## Constants of the header -/

def motorDirCw : ℤ := 1
def motorDirCcw : ℤ := 0
def motorMaxFreqHz : ℕ := 100000
def motorMinFreqHz : ℕ := 50

def motorEOk : ℤ := 0
def motorEFreqTooLow : ℤ := -1
def motorEFreqTooHigh : ℤ := -2
def motorEFault : ℤ := -3
def motorENotRunning : ℤ := -4
def motorEHomeTimeout : ℤ := -5
def motorEOutOfRange : ℤ := -7

/-- `MOTOR_STATE_xxx`. -/
inductive MotorState where
  | idle | running | braking | homing | fault
  deriving DecidableEq, Inhabited

/-- `MOTOR_FAULT_NONE` and `MOTOR_FAULT_DRIVER`. -/
inductive FaultState where
  | none | driver
  deriving DecidableEq, Inhabited

/-- `RT_TICK_PER_SECOND` of the board configuration. -/
def rtTickPerSecond : ℕ := 1000

/-- `rt_tick_from_millisecond` at 1000 ticks per second. Its argument is a signed word. -/
def rtTickFromMillisecond (ms : ℕ) : ℕ :=
  if wrap 32 ms < 0 then 0xFFFFFFFF else ms

/-! ## State -/

/-- The fields of `stepper_motor_driver_t` that the driver reads or writes after init. -/
structure Motor where
  timClk : ℕ
  faultPin : ℤ
  dirInvert : Bool
  enabled : Bool
  running : Bool
  idleReduce : Bool
  idleSince : ℕ
  idleTimeoutMs : ℕ
  currentFreq : ℕ
  currentDir : ℤ
  totalSteps : ℤ
  lastTick : ℕ
  faultState : FaultState
  state : MotorState
  brakeDecel : ℕ
  deriving Inhabited

/-- The registers of the pulse timer that the driver writes, and whether the channel is started. -/
structure Tim where
  psc : ℕ
  arr : ℕ
  ccr : ℕ
  oc : Bool
  deriving Inhabited

/-- A driver with its timer, the levels of its output pins, the levels of the input pins, and the
ticks elapsed since boot. -/
structure MotorSys where
  motor : Motor
  tim : Tim
  en : Bool
  dir : Bool
  pin : ℤ → Bool
  clock : ℕ
  deriving Inhabited

namespace MotorSys

/-- `rt_tick_get`: the tick counter is a 32-bit word. -/
def rtTickGet (s : MotorSys) : ℕ := s.clock % 2 ^ 32

/-- A statically allocated driver before its init; the input pins read HIGH. -/
def zeroed : MotorSys where
  motor := {
    timClk := 0, faultPin := 0, dirInvert := false, enabled := false, running := false
    idleReduce := false, idleSince := 0, idleTimeoutMs := 0, currentFreq := 0, currentDir := 0
    totalSteps := 0, lastTick := 0, faultState := .none, state := .idle, brakeDecel := 0 }
  tim := { psc := 0, arr := 0, ccr := 0, oc := false }
  en := false
  dir := false
  pin := fun _ => true
  clock := 0

/-- What `stepper_motor_driver_init` leaves of the fields above, with the pins it drives. -/
def init (s : MotorSys) (timClk : ℕ) (faultPin : ℤ) (dirInvert : Bool) : MotorSys :=
  { s with
    motor := {
      timClk, faultPin, dirInvert, enabled := false, running := false, idleReduce := false
      idleSince := s.motor.idleSince, idleTimeoutMs := 0, currentFreq := 0, currentDir := -1
      totalSteps := 0, lastTick := 0, faultState := .none, state := .idle, brakeDecel := 0 }
    tim := { psc := 0, arr := 0xFFFF, ccr := 0x7FFF, oc := false }
    en := false
    dir := false }

/-! ## Internal functions -/

/-- `steps_accumulate`: the signed pulses since `last_tick`, truncated, go to `total_steps`. -/
def stepsAccumulate (s : MotorSys) : MotorSys :=
  let now := s.rtTickGet
  if s.motor.lastTick = 0 then { s with motor.lastTick := now }
  else
    let elapsed := uwrap 32 ((now : ℤ) - s.motor.lastTick)
    if elapsed = 0 then s
    else
      let inc := trunc ((s.motor.currentFreq : ℚ) * elapsed / rtTickPerSecond)
      let inc := if s.motor.currentDir = motorDirCcw then -inc else inc
      { s with motor.totalSteps := s.motor.totalSteps + inc, motor.lastTick := now }

/-- The auto-reload value for a prescaler, in 32-bit unsigned arithmetic. -/
def arrOf (timClk f psc : ℕ) : ℕ :=
  uwrap 32 ((timClk / (2 * f * (psc + 1) % 2 ^ 32) : ℕ) - 1)

/-- The loop of `freq_write_raw` from prescaler `psc` on; `n` is `0xFFFF - psc`. -/
def pscSearch (timClk f : ℕ) : ℕ → ℕ → ℕ × ℕ
  | 0, psc => (psc, arrOf timClk f psc)
  | n + 1, psc =>
    if arrOf timClk f psc > 0xFFFF then pscSearch timClk f n (psc + 1)
    else (psc, arrOf timClk f psc)

/-- `freq_write_raw`: start or stop the channel and program prescaler, period and compare value. -/
def freqWriteRaw (freqHz : ℕ) (s : MotorSys) : MotorSys :=
  if freqHz = 0 then { s with tim.oc := false, motor.running := false }
  else
    let r := pscSearch s.motor.timClk freqHz 0xFFFF 0
    let arr := if r.2 > 0xFFFF then 0xFFFF else r.2
    { s with
      tim := { psc := r.1, arr, ccr := arr / 2, oc := if s.motor.running then s.tim.oc else true }
      motor.running := true }

/-! ## Sections under the mutex -/

/-- The body of `stepper_motor_driver_enable`. -/
def enableSection (s : MotorSys) : MotorSys := { s with en := true, motor.enabled := true }

/-- The body of `stepper_motor_driver_start`. It starts the channel whatever `fault_state` is. -/
def startSection (s : MotorSys) : MotorSys :=
  let s := if s.motor.enabled then s else s.enableSection
  { s with
    tim.oc := true
    motor.running := true
    motor.state := .running
    motor.lastTick := s.rtTickGet }

/-- The body of `stepper_motor_driver_stop`. -/
def stopSection (s : MotorSys) : MotorSys :=
  let s := s.stepsAccumulate
  { s with
    tim.oc := false
    motor.running := false
    motor.state := .idle
    motor.currentFreq := 0
    motor.idleSince := s.rtTickGet }

/-- The body of `stepper_motor_driver_disable`. -/
def disableSection (s : MotorSys) : MotorSys :=
  { s.stopSection with en := false, motor.enabled := false }

/-- The body of `stepper_motor_driver_set_direction`; `current_dir` is a signed byte. -/
def setDirectionSection (direction : ℤ) (s : MotorSys) : MotorSys :=
  let s := s.stepsAccumulate
  let level := decide (direction = motorDirCw)
  { s with
    dir := if s.motor.dirInvert then !level else level
    motor.currentDir := wrap 8 direction }

/-- The locked part of `stepper_motor_driver_set_frequency`. -/
def setFrequencySection (clamped : ℕ) (s : MotorSys) : MotorSys :=
  let s := s.stepsAccumulate
  if clamped = 0 then
    { s.freqWriteRaw 0 with
      motor.currentFreq := 0
      motor.state := .idle
      motor.idleSince := s.rtTickGet }
  else
    { s.freqWriteRaw clamped with
      motor.currentFreq := clamped
      motor.state := if s.motor.state = .braking then .braking else .running }

/-- The body of `stepper_motor_driver_clear_steps`. -/
def clearStepsSection (s : MotorSys) : MotorSys :=
  { s.stepsAccumulate with motor.totalSteps := 0 }

end MotorSys

/-! ## Actions -/

/-- The atomic actions of the driver: its sections, and its tests and assignments outside them.
`faultStop` is the stop that `check_fault` calls, and `recordFault`, `dropFault`, `clearFault` are
the three assignments to `fault_state`. -/
inductive MotorAct where
  | start | stop | faultStop | enable | disable
  | setDirection (direction : ℤ)
  | setFrequency (clamped : ℕ)
  | getSteps | clearSteps
  | beginBrake
  | beginBrakeAsync (decelRate : ℕ)
  | setState (state : MotorState)
  | recordFault | dropFault | clearFault
  | setIdleReduce (on : Bool) (timeoutMs : ℕ)
  | releaseEn
  | test | testFault | readFaultPin | readHomePin | readTick | delay
  deriving DecidableEq

/-- What an action does. -/
def MotorAct.eff : MotorAct → MotorSys → MotorSys
  | .start, s => s.startSection
  | .stop, s => s.stopSection
  | .faultStop, s => s.stopSection
  | .enable, s => s.enableSection
  | .disable, s => s.disableSection
  | .setDirection direction, s => s.setDirectionSection direction
  | .setFrequency clamped, s => s.setFrequencySection clamped
  | .getSteps, s => s.stepsAccumulate
  | .clearSteps, s => s.clearStepsSection
  | .beginBrake, s => { s with motor.state := .braking }
  | .beginBrakeAsync decelRate, s =>
    { s with motor.brakeDecel := decelRate, motor.state := .braking }
  | .setState state, s => { s with motor.state := state }
  | .recordFault, s => { s with motor.faultState := .driver }
  | .dropFault, s => { s with motor.faultState := .none }
  | .clearFault, s => { s with motor.faultState := .none }
  | .setIdleReduce on timeoutMs, s =>
    { s with motor.idleReduce := on, motor.idleTimeoutMs := timeoutMs }
  | .releaseEn, s => { s with en := false }
  | .test, s | .testFault, s | .readFaultPin, s | .readHomePin, s | .readTick, s | .delay, s => s

/-! ## The pulse output -/

/-- The channel is stopped and no frequency is recorded. -/
def MotorSys.Off (s : MotorSys) : Prop := s.motor.running = false ∧ s.motor.currentFreq = 0

/-- The action does not switch the output on. -/
def MotorAct.Quiet : MotorAct → Prop
  | .start => False
  | .setFrequency clamped => clamped = 0
  | _ => True

namespace MotorSys

variable (s : MotorSys)

/-- An accumulation touches the two counters only. -/
theorem stepsAccumulate_frame : ∃ total last, s.stepsAccumulate =
    { s with motor.totalSteps := total, motor.lastTick := last } := by
  unfold stepsAccumulate
  dsimp only
  split_ifs <;> exact ⟨_, _, rfl⟩

@[simp] theorem stepsAccumulate_running : s.stepsAccumulate.motor.running = s.motor.running := by
  obtain ⟨total, last, h⟩ := s.stepsAccumulate_frame
  rw [h]

@[simp] theorem stepsAccumulate_currentFreq :
    s.stepsAccumulate.motor.currentFreq = s.motor.currentFreq := by
  obtain ⟨total, last, h⟩ := s.stepsAccumulate_frame
  rw [h]

@[simp] theorem stepsAccumulate_faultState :
    s.stepsAccumulate.motor.faultState = s.motor.faultState := by
  obtain ⟨total, last, h⟩ := s.stepsAccumulate_frame
  rw [h]

@[simp] theorem stepsAccumulate_state : s.stepsAccumulate.motor.state = s.motor.state := by
  obtain ⟨total, last, h⟩ := s.stepsAccumulate_frame
  rw [h]

@[simp] theorem stepsAccumulate_pin : s.stepsAccumulate.pin = s.pin := by
  obtain ⟨total, last, h⟩ := s.stepsAccumulate_frame
  rw [h]

theorem stopSection_off : s.stopSection.Off := ⟨rfl, rfl⟩

/-- A request records its frequency. -/
theorem setFrequencySection_motor (clamped : ℕ) : ∃ state since,
    (s.setFrequencySection clamped).motor = { s.stepsAccumulate.motor with
      running := decide (clamped ≠ 0), currentFreq := clamped, state, idleSince := since } := by
  unfold setFrequencySection freqWriteRaw
  dsimp only
  by_cases h0 : clamped = 0
  · rw [if_pos h0, if_pos rfl, h0]
    exact ⟨_, _, rfl⟩
  · rw [if_neg h0, if_neg h0, decide_eq_true h0]
    exact ⟨_, _, rfl⟩

end MotorSys

/-- No action writes an input pin. -/
theorem MotorAct.pin_eff (l : MotorAct) (s : MotorSys) : (l.eff s).pin = s.pin := by
  cases l with
  | start =>
    show s.startSection.pin = s.pin
    unfold MotorSys.startSection
    split_ifs <;> rfl
  | setFrequency clamped =>
    show (s.setFrequencySection clamped).pin = s.pin
    unfold MotorSys.setFrequencySection MotorSys.freqWriteRaw
    dsimp only
    split_ifs <;> exact s.stepsAccumulate_pin
  | stop | faultStop | disable | setDirection | getSteps | clearSteps => exact s.stepsAccumulate_pin
  | _ => rfl

/-- A quiet action leaves the output as it is or switches it off. -/
theorem MotorAct.Quiet.running {l : MotorAct} (hl : l.Quiet) {s : MotorSys}
    (h : s.motor.running = false) : (l.eff s).motor.running = false := by
  have hacc := s.stepsAccumulate_running.trans h
  cases l with
  | start => exact hl.elim
  | setFrequency clamped =>
    obtain rfl : clamped = 0 := hl
    rfl
  | stop | faultStop | disable => rfl
  | setDirection | getSteps | clearSteps => exact hacc
  | _ => exact h

theorem MotorAct.Quiet.off {l : MotorAct} (hl : l.Quiet) {s : MotorSys} (h : s.Off) :
    (l.eff s).Off := by
  refine ⟨hl.running h.1, ?_⟩
  have hacc := s.stepsAccumulate_currentFreq.trans h.2
  cases l with
  | start => exact hl.elim
  | setFrequency clamped =>
    obtain rfl : clamped = 0 := hl
    rfl
  | stop | faultStop | disable => rfl
  | setDirection | getSteps | clearSteps => exact hacc
  | _ => exact h.2

/-- Three actions write `fault_state`. -/
theorem MotorAct.faultState_eff {l : MotorAct} (hrecord : l ≠ .recordFault) (hdrop : l ≠ .dropFault)
    (hclear : l ≠ .clearFault) (s : MotorSys) :
    (l.eff s).motor.faultState = s.motor.faultState := by
  have hacc := s.stepsAccumulate_faultState
  cases l with
  | recordFault => exact absurd rfl hrecord
  | dropFault => exact absurd rfl hdrop
  | clearFault => exact absurd rfl hclear
  | start =>
    show s.startSection.motor.faultState = s.motor.faultState
    unfold MotorSys.startSection
    split_ifs <;> rfl
  | setFrequency clamped =>
    show (s.setFrequencySection clamped).motor.faultState = s.motor.faultState
    unfold MotorSys.setFrequencySection MotorSys.freqWriteRaw
    split_ifs <;> exact hacc
  | stop | faultStop | disable | setDirection | getSteps | clearSteps => exact hacc
  | _ => rfl

/-- What happens without the threads: time passes, or the level of an input pin changes. -/
inductive MotorEnv where
  | elapse (n : ℕ)
  | level (pin : ℤ) (high : Bool)
  deriving DecidableEq

def MotorEnv.eff : MotorEnv → MotorSys → MotorSys
  | .elapse n, s => { s with clock := s.clock + n }
  | .level pin high, s => { s with pin := Function.update s.pin pin high }

/-! ## API functions -/

/-- A program of the driver. -/
abbrev MotorProg (α : Type) := Prog MotorAct MotorSys α

namespace Motor

open Prog (ask perform poll when)

/-- `stepper_motor_driver_enable` -/
def enable : MotorProg Unit := perform .enable

/-- `stepper_motor_driver_disable` -/
def disable : MotorProg Unit := perform .disable

/-- `stepper_motor_driver_start` -/
def start : MotorProg Unit := perform .start

/-- `stepper_motor_driver_stop` -/
def stop : MotorProg Unit := perform .stop

/-- `stepper_motor_driver_set_direction` -/
def setDirection (direction : ℤ) : MotorProg Unit := perform (.setDirection direction)

/-- The range check of `stepper_motor_driver_set_frequency`: the frequency and the code returned. -/
def clampFreq (freqHz : ℕ) : ℕ × ℤ :=
  let low := if 0 < freqHz ∧ freqHz < motorMinFreqHz then (motorMinFreqHz, motorEFreqTooLow)
    else (freqHz, motorEOk)
  if freqHz > motorMaxFreqHz then (motorMaxFreqHz, motorEFreqTooHigh) else low

/-- `stepper_motor_driver_set_frequency`: a nonzero request is refused while a fault is recorded;
the test is made before the mutex is taken. -/
def setFrequency (freqHz : ℕ) : MotorProg ℤ :=
  let clamped := (clampFreq freqHz).1
  let write : MotorProg ℤ := do
    perform (.setFrequency clamped)
    return (clampFreq freqHz).2
  if clamped > 0 then do
    let faultState ← ask .testFault fun s => s.motor.faultState
    if faultState ≠ .none then return motorEFault
    else write
  else write

/-- The loop of `stepper_motor_driver_brake`, from the private copy `f` of the frequency. -/
def brakeLoop (decelRate : ℕ) : ℕ → ℕ → MotorProg Unit
  | 0, _ => return
  | n + 1, f =>
    if f > 0 then do
      let f := if f > decelRate then f - decelRate else 0
      let _ ← setFrequency f
      perform .delay
      brakeLoop decelRate n f
    else return

/-- `stepper_motor_driver_brake`. Each round of its loop lowers `f`, so `f` rounds are enough. -/
def brake (decelRate : ℕ) : MotorProg Unit :=
  if decelRate = 0 then stop
  else do
    let f ← ask .beginBrake fun s => s.motor.currentFreq
    brakeLoop decelRate f f
    stop

/-- `stepper_motor_driver_brake_async` -/
def brakeAsync (decelRate : ℕ) : MotorProg Unit := perform (.beginBrakeAsync decelRate)

/-- The deadline of a timeout; a timeout of 0 has none. -/
def deadlineAfter (timeoutMs : ℕ) : MotorProg ℕ :=
  if timeoutMs > 0 then
    ask .readTick fun s => (s.rtTickGet + rtTickFromMillisecond timeoutMs) % 2 ^ 32
  else return 0

/-- The test of the deadline. -/
def expired (timeoutMs deadline : ℕ) : MotorProg Bool :=
  if timeoutMs > 0 then ask .readTick fun s => decide (s.rtTickGet ≥ deadline) else return false

/-- One round of the wait for the home pin: `some ret` leaves the loop. -/
def homeRound (homePin : ℤ) (timeoutMs deadline : ℕ) : MotorProg (Option ℤ) := do
  if ← ask .readHomePin fun s => s.pin homePin then
    if ← expired timeoutMs deadline then return some motorEHomeTimeout
    else do
      perform .delay
      return none
  else return some motorEOk

/-- One round of the back-off loop. -/
def backoffRound (homeDir target : ℤ) : MotorProg (Option Unit) := do
  let now ← ask .getSteps fun s => s.motor.totalSteps
  if (homeDir = motorDirCw ∧ now ≤ target) ∨ (homeDir = motorDirCcw ∧ now ≥ target) then
    return some ()
  else do
    perform .delay
    return none

/-- `stepper_motor_driver_home`, observed for at most `polls` rounds of each of its loops: `none`
when it is still in one of them. -/
def home (homePin homeDir : ℤ) (speedHz : ℕ) (backoffSteps : ℤ) (timeoutMs polls : ℕ) :
    MotorProg (Option ℤ) := do
  let speedHz := if speedHz < motorMinFreqHz then motorMinFreqHz else speedHz
  perform (.setState .homing)
  setDirection homeDir
  enable
  let _ ← setFrequency speedHz
  let deadline ← deadlineAfter timeoutMs
  match ← poll polls (homeRound homePin timeoutMs deadline) with
  | none => return none
  | some ret =>
    let _ ← setFrequency 0
    if ret = motorEOk ∧ backoffSteps > 0 then
      setDirection (if homeDir = motorDirCw then motorDirCcw else motorDirCw)
      let _ ← setFrequency (speedHz / 2)
      let start ← ask .getSteps fun s => s.motor.totalSteps
      let target := if homeDir = motorDirCw then start - backoffSteps else start + backoffSteps
      match ← poll polls (backoffRound homeDir target) with
      | none => return none
      | some () =>
        let _ ← setFrequency 0
        perform (.setState .idle)
        return some ret
    else
      perform (.setState .idle)
      return some ret

/-- `stepper_motor_driver_check_fault`: whether the driver reports a fault. -/
def checkFault : MotorProg Bool := do
  let unused ← ask .test fun s => decide (s.motor.faultPin < 0)
  if unused then return false
  else do
    let high ← ask .readFaultPin fun s => s.pin s.motor.faultPin
    if high then
      perform .dropFault
      return false
    else do
      let faultState ← ask .test fun s => s.motor.faultState
      if faultState = .none then
        perform .recordFault
        perform (.setState .fault)
        perform .faultStop
        return true
      else return true

/-- `stepper_motor_driver_clear_fault` -/
def clearFault : MotorProg Unit := do
  perform .clearFault
  when ((← ask .test fun s => s.motor.state) = .fault) (perform (.setState .idle))

/-- `stepper_motor_driver_set_idle_reduce` -/
def setIdleReduce (on : Bool) (timeoutMs : ℕ) : MotorProg Unit :=
  perform (.setIdleReduce on timeoutMs)

/-- `stepper_motor_driver_idle_tick` -/
def idleTick : MotorProg Unit := do
  let skip ← ask .test fun s => !s.motor.idleReduce || s.motor.running
  if skip then return
  else do
    let elapsed ← ask .readTick fun s => uwrap 32 ((s.rtTickGet : ℤ) - s.motor.idleSince)
    let timeoutMs ← ask .test fun s => s.motor.idleTimeoutMs
    when (elapsed ≥ rtTickFromMillisecond timeoutMs) (perform .releaseEn)

/-- `stepper_motor_driver_get_steps` -/
def getSteps : MotorProg ℤ := ask .getSteps fun s => s.motor.totalSteps

/-- `stepper_motor_driver_get_state` -/
def getState : MotorProg MotorState := ask .test fun s => s.motor.state

/-- `stepper_motor_driver_clear_steps` -/
def clearSteps : MotorProg Unit := perform .clearSteps

end Motor

/-- What a request for a frequency does. -/
theorem MotorSys.exec_setFrequency (freqHz : ℕ) (d : MotorSys) :
    ((Motor.setFrequency freqHz).exec MotorAct.eff d).2 =
      if (Motor.clampFreq freqHz).1 > 0 ∧ d.motor.faultState ≠ .none then d
      else d.setFrequencySection (Motor.clampFreq freqHz).1 := by
  unfold Motor.setFrequency
  dsimp only
  by_cases hpos : (Motor.clampFreq freqHz).1 > 0
  · rw [if_pos hpos, Prog.ask_bind, Prog.exec_act]
    show (Prog.exec _ (if d.motor.faultState ≠ .none then _ else _) _).2 = _
    by_cases hfault : d.motor.faultState ≠ .none
    · rw [if_pos hfault, if_pos ⟨hpos, hfault⟩]
      rfl
    · rw [if_neg hfault, if_neg fun h => hfault h.2]
      rfl
  · rw [if_neg hpos, if_neg fun h => hpos h.1]
    rfl

/-! ## Calls -/

/-- The calls of the driver after init. -/
inductive MotorCall where
  | enable | disable | start | stop
  | setDirection (direction : ℤ)
  | setFrequency (freqHz : ℕ)
  | brake (decelRate : ℕ)
  | brakeAsync (decelRate : ℕ)
  | home (homePin homeDir : ℤ) (speedHz : ℕ) (backoffSteps : ℤ) (timeoutMs polls : ℕ)
  | checkFault | clearFault
  | setIdleReduce (on : Bool) (timeoutMs : ℕ)
  | idleTick | getSteps | clearSteps

/-- The program of a call, less its result. -/
def MotorCall.code : MotorCall → MotorProg Unit
  | .enable => Motor.enable
  | .disable => Motor.disable
  | .start => Motor.start
  | .stop => Motor.stop
  | .setDirection direction => Motor.setDirection direction
  | .setFrequency freqHz => do let _ ← Motor.setFrequency freqHz
  | .brake decelRate => Motor.brake decelRate
  | .brakeAsync decelRate => Motor.brakeAsync decelRate
  | .home homePin homeDir speedHz backoffSteps timeoutMs polls => do
    let _ ← Motor.home homePin homeDir speedHz backoffSteps timeoutMs polls
  | .checkFault => do let _ ← Motor.checkFault
  | .clearFault => Motor.clearFault
  | .setIdleReduce on timeoutMs => Motor.setIdleReduce on timeoutMs
  | .idleTick => Motor.idleTick
  | .getSteps => do let _ ← Motor.getSteps
  | .clearSteps => Motor.clearSteps

end H750Stepper
