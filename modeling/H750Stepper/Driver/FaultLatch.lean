import H750Stepper.Driver.Sessions

/-!
# The FAULT state

The comment in `check_fault` promises that the state stays FAULT until `clear_fault` is called.
But the function itself calls `stop` after it has set the state, and `stop` sets it to IDLE.

`fault_never_latched`: a `check_fault` that records a fault leaves the state IDLE, in every session.
-/

namespace H750Stepper

open Threads Prog

/-- A `check_fault` that reads the fault pin LOW while no fault is recorded. -/
def CallRun.Trips (x : CallRun) : Prop :=
  x.call = .checkFault ∧ ∃ s, (.readFaultPin, s) ∈ x.trace ∧
    s.pin s.motor.faultPin = false ∧ s.motor.faultState = .none

/-- The calls after which the state should still be FAULT. -/
def MotorCall.KeepsFault : MotorCall → Prop
  | .checkFault | .stop | .disable | .setDirection _ | .setFrequency _ | .getSteps => True
  | _ => False

/-- What `get_state` returns. -/
def MotorSys.reported (s : MotorSys) : MotorState := (Motor.getState.exec MotorAct.eff s).1

/-- After a call that records a fault, and after any of the calls that should keep it, the state is
FAULT. -/
def FaultLatched (l : List (CallRun × MotorSys)) : Prop :=
  ∀ l₁ x l₂ l₃, l = l₁ ++ x :: (l₂ ++ l₃) → x.1.Trips → (∀ y ∈ l₂, y.1.call.KeepsFault) →
    (lastState x.2 l₂).reported = .fault

/-- The stop comes last. -/
theorem checkFault_idle {s s' : MotorSys} {tr : List (MotorAct × MotorSys)} {fault : Bool}
    (h : Motor.checkFault.Runs MotorAct.eff MotorSys.Later s tr fault s')
    (htrip : (⟨.checkFault, tr⟩ : CallRun).Trips) : s'.motor.state = .idle := by
  obtain ⟨-, x, hx, hpin, hfault⟩ := htrip
  unfold Motor.checkFault at h
  rw [ask_bind, runs_act] at h
  obtain ⟨s₁, tr₁, -, rfl, h⟩ := h
  rw [runs_ite] at h
  by_cases hunused : decide ((MotorAct.test.eff s₁).motor.faultPin < 0) = true
  · obtain ⟨rfl, -, -⟩ := h.1 hunused
    simp at hx
  replace h := h.2 hunused
  rw [ask_bind, runs_act] at h
  obtain ⟨s₂, tr₂, -, rfl, h⟩ := h
  rw [runs_ite] at h
  by_cases hhigh : (MotorAct.readFaultPin.eff s₂).pin s₂.motor.faultPin = true
  · obtain ⟨s₃, _, -, rfl, rfl, -, -⟩ := h.1 hhigh
    obtain rfl : x = s₂ := by simpa using hx
    exact absurd (hhigh.symm.trans hpin) (by decide)
  replace h := h.2 hhigh
  rw [ask_bind, runs_act] at h
  obtain ⟨s₃, tr₃, hs₃, rfl, h⟩ := h
  rw [runs_ite] at h
  by_cases hnone : (MotorAct.test.eff s₃).motor.faultState = .none
  · obtain ⟨s₄, _, -, -, s₅, _, -, -, s₆, _, -, -, -, -, rfl⟩ := h.1 hnone
    rfl
  · obtain ⟨rfl, -, -⟩ := h.2 hnone
    obtain rfl : x = s₂ := by simpa using hx
    rw [MotorAct.eff_test, hs₃.motor_eq] at hnone
    exact absurd hfault hnone

/-! ## Sessions -/

theorem CallRun.Returns.idle {s s' : MotorSys} {x : CallRun} (h : CallRun.Returns s x s')
    (hx : x.Trips) : s'.motor.state = .idle := by
  obtain ⟨c, tr⟩ := x
  obtain rfl : c = .checkFault := hx.1
  obtain ⟨_, _, _, _, hcheck, hret, rfl⟩ := runs_bind.mp h
  obtain ⟨rfl, -, rfl⟩ := hret
  rw [List.append_nil] at hx
  exact checkFault_idle hcheck hx

/-- **FAULT is never latched.** In every session after init, each `check_fault` that records a fault
leaves the state IDLE. So the state is latched only where no fault is recorded. -/
theorem fault_never_latched (s₀ : MotorSys) (timClk : ℕ) (faultPin : ℤ) (dirInvert : Bool)
    (l : List (CallRun × MotorSys)) (hl : MotorSession (s₀.init timClk faultPin dirInvert) l) :
    (∀ x ∈ l, x.1.Trips → x.2.reported = .idle) ∧
      (FaultLatched l ↔ ∀ x ∈ l, ¬x.1.Trips) := by
  have hidle : ∀ x ∈ l, x.1.Trips → x.2.reported = .idle := by
    intro x hx htrip
    obtain ⟨l₁, l₂, rfl⟩ := List.append_of_mem hx
    exact (path_append.mp hl).2.1.idle htrip
  refine ⟨hidle, fun h x hx htrip => ?_, fun h l₁ x l₂ l₃ hsplit htrip => ?_⟩
  · obtain ⟨l₁, l₂, rfl⟩ := List.append_of_mem hx
    have hfault : x.2.reported = .fault := h l₁ x [] l₂ rfl htrip (by simp)
    rw [hidle x hx htrip] at hfault
    cases hfault
  · refine absurd htrip (h x ?_)
    rw [hsplit]
    simp

/-- A fault while the motor is running. -/
def faultyCheck : List MotorCall := [.setFrequency 1000, .checkFault]

/-- The same motor with the fault input LOW. -/
def lowPinMotor : MotorSys := { pinMotor with pin := fun _ => false }

theorem fault_never_latched_once :
    let l := session lowPinMotor faultyCheck
    (∀ x ∈ l, x.1.Trips → x.2.reported = .idle) ∧ (FaultLatched l ↔ ∀ x ∈ l, ¬x.1.Trips) :=
  fault_never_latched { MotorSys.zeroed with pin := fun _ => false } 200000000 7 false _
    (session_path (by decide) lowPinMotor)

/-- A fault is recorded, and the state is IDLE. -/
theorem fault_recorded_idle :
    let l := session lowPinMotor faultyCheck
    let s := lastState lowPinMotor l
    MotorSession lowPinMotor l ∧ s.motor.faultState = .driver ∧ s.reported = .idle ∧
      ¬FaultLatched l := by
  refine ⟨session_path (by decide) lowPinMotor, by decide, by decide, fun h => ?_⟩
  have hfault := h [_] _ [] [] rfl ⟨rfl, _, .tail _ (.head _), rfl, rfl⟩ (by simp)
  exact absurd hfault (by decide)

end H750Stepper
