import H750Stepper.Driver.Motor
import H750Stepper.Driver.Pid

/-!
# What a control tick asks of the drivers

The calls of a tick on the motor driver and on the PID, each as a function of the state it finds:
the fault check (`checked`, `Faulty`), the idle check (`dozed`), a direction with a frequency
(`obey`) and the reset of the PID (`cleared`).
-/

namespace H750Stepper

open Threads CInt

/-! ## The motor driver -/

/-- What a tick passes to the motor driver. -/
structure Command where
  dir : ℤ
  freqHz : ℕ
  deriving DecidableEq

namespace MotorSys

/-- The driver after its fault check. -/
def checked (d : MotorSys) : MotorSys := (Motor.checkFault.exec MotorAct.eff d).2

/-- The fault check reports a fault. -/
def Faulty (d : MotorSys) : Prop := (Motor.checkFault.exec MotorAct.eff d).1 = true

instance (d : MotorSys) : Decidable d.Faulty := by unfold Faulty; infer_instance

/-- The driver after its idle check. -/
def dozed (d : MotorSys) : MotorSys := (Motor.idleTick.exec MotorAct.eff d).2

/-- The driver after a command. -/
def obey (c : Command) (d : MotorSys) : MotorSys :=
  ((Motor.setFrequency c.freqHz).exec MotorAct.eff (d.setDirectionSection c.dir)).2

theorem exec_checkFault (d : MotorSys) :
    Motor.checkFault.exec MotorAct.eff d =
      if d.motor.faultPin < 0 then (false, d)
      else if d.pin d.motor.faultPin then (false, { d with motor.faultState := .none })
      else (true, if d.motor.faultState = .none then
        ({ d with motor.faultState := .driver, motor.state := .fault } : MotorSys).stopSection
      else d) := by
  unfold Motor.checkFault
  rw [Prog.ask_bind, Prog.exec_act]
  show Prog.exec _ (if decide (d.motor.faultPin < 0) = true then _ else _) _ = _
  by_cases hunused : d.motor.faultPin < 0
  · rw [if_pos hunused, if_pos (decide_eq_true hunused)]
    rfl
  · rw [if_neg hunused, if_neg fun h => hunused (of_decide_eq_true h), Prog.ask_bind,
      Prog.exec_act]
    show Prog.exec _ (if d.pin d.motor.faultPin = true then _ else _) _ = _
    by_cases hhigh : d.pin d.motor.faultPin = true
    · rw [if_pos hhigh, if_pos hhigh]
      rfl
    · rw [if_neg hhigh, if_neg hhigh, Prog.ask_bind, Prog.exec_act]
      show Prog.exec _ (if d.motor.faultState = .none then _ else _) _ = _
      by_cases hnone : d.motor.faultState = .none
      · rw [if_pos hnone, if_pos hnone]
        rfl
      · rw [if_neg hnone, if_neg hnone]
        rfl

/-- The idle time of the driver is over. -/
def IdleExpired (d : MotorSys) : Prop :=
  uwrap 32 ((d.rtTickGet : ℤ) - d.motor.idleSince) ≥ rtTickFromMillisecond d.motor.idleTimeoutMs

instance (d : MotorSys) : Decidable d.IdleExpired := inferInstanceAs (Decidable (_ ≥ _))

theorem exec_idleTick (d : MotorSys) :
    (Motor.idleTick.exec MotorAct.eff d).2 =
      if (!d.motor.idleReduce || d.motor.running) = true then d
      else if d.IdleExpired then { d with en := false } else d := by
  unfold Motor.idleTick
  rw [Prog.ask_bind, Prog.exec_act]
  show (Prog.exec _ (if (!d.motor.idleReduce || d.motor.running) = true then _ else _) _).2 = _
  by_cases hskip : (!d.motor.idleReduce || d.motor.running) = true
  · rw [if_pos hskip, if_pos hskip]
    rfl
  · rw [if_neg hskip, if_neg hskip, Prog.ask_bind, Prog.exec_act, Prog.ask_bind, Prog.exec_act]
    rw [Prog.exec_when]
    by_cases hover : d.IdleExpired
    · rw [if_pos hover]
      exact congrArg Prod.snd (if_pos hover)
    · rw [if_neg hover]
      exact congrArg Prod.snd (if_neg hover)

end MotorSys

/-! ## The PID -/

/-- The PID after its reset. -/
def Pid.cleared (pid : Pid) : Pid :=
  { pid with actual := 0, err := 0, errLast := 0, integralAcc := 0, output := 0 }

theorem Pid.exec_reset (pid : Pid) : Pid.reset.exec PidAct.eff pid = ((), pid.cleared) := rfl

/-- The gains and limits: the controller without its target and without what it has calculated. -/
def Pid.tuning (pid : Pid) : Pid := { pid.cleared with target := 0 }

/-- Controllers with the same gains and limits are reset to the same, but for the target. -/
theorem Pid.cleared_of_tuning {pid pid' : Pid} (h : pid.tuning = pid'.tuning) :
    pid'.cleared = { pid.cleared with target := pid'.target } := by
  have hcleared : ∀ p : Pid, p.cleared = { p.tuning with target := p.target } := fun _ => rfl
  rw [hcleared pid', ← h]
  rfl

end H750Stepper
