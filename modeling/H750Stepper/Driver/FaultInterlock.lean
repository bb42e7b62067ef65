import H750Stepper.Lib.Pool
import H750Stepper.Driver.Motor

/-!
# The fault interlock

When `check_fault` records a driver fault it stops the motor, and `set_frequency` refuses a nonzero
frequency as long as the fault is recorded. But `start` asks nobody; `set_frequency` tests
`fault_state` before it takes the mutex; and a second `check_fault` that has read the pin HIGH
before the fault still sets `fault_state` back afterwards.

`fault_interlock`: two threads that call the driver as they like keep the output off from the stop
in `check_fault` until the fault is cleared or the pin reads HIGH, if at that stop the other thread
is at neither of these two points, and no `start` follows.
`fault_interlock_broken`: otherwise a `start`, or a frequency tested before the fault, switches the
output on.
-/

namespace H750Stepper

open Threads Prog

/-! ## The interlock as an invariant -/

/-- The fault is recorded and the output is off. -/
def MotorSys.Locked (s : MotorSys) : Prop :=
  s.motor.faultState = .driver ∧ s.motor.running = false

/-- While the fault lasts nobody calls `clear_fault`, the fault pin does not read HIGH, and nobody
calls `start`. -/
def MotorAct.Lasts (l : MotorAct) (s : MotorSys) : Prop :=
  l ≠ .start ∧ l ≠ .clearFault ∧ (l = .readFaultPin → s.pin s.motor.faultPin = false)

/-- The action rests on a test made before: it sets a frequency, or drops the fault. -/
def MotorAct.Stale : MotorAct → Prop
  | .setFrequency clamped => clamped ≠ 0
  | .dropFault => True
  | _ => False

theorem MotorAct.locked_eff {l : MotorAct} (hl : ¬l.Stale) {s : MotorSys} (hs : s.Locked)
    (hok : l.Lasts s) : (l.eff s).Locked := by
  obtain ⟨hstart, hclear, -⟩ := hok
  have hquiet : l.Quiet := by
    cases l with
    | start => exact absurd rfl hstart
    | setFrequency clamped => exact not_not.mp hl
    | _ => trivial
  refine ⟨?_, hquiet.running hs.2⟩
  by_cases hrecord : l = .recordFault
  · subst hrecord
    rfl
  · have hdrop : l ≠ .dropFault := by
      rintro rfl
      exact hl trivial
    exact (MotorAct.faultState_eff hrecord hdrop hclear s).trans hs.1

/-! ## Every call is guarded -/

namespace Motor

/-- What is left of a program keeps the interlock, unless its next action is stale; after the stop
in `check_fault` it does so in any case. -/
abbrev Guarded {α : Type} (p : MotorProg α) : Prop :=
  Prog.Guarded MotorAct.eff MotorAct.Lasts MotorSys.Locked MotorAct.Stale (· = .faultStop) p

theorem guarded_of_all {α : Type} {p : MotorProg α} (hp : p.All fun l => ¬l.Stale) : Guarded p :=
  .of_all hp fun _ hl _ hs hok => MotorAct.locked_eff hl hs hok

/-- The test makes a nonzero frequency safe for a call that has not made it yet. -/
theorem setFrequency_guarded (freqHz : ℕ) : Guarded (setFrequency freqHz) := by
  unfold setFrequency
  dsimp only
  split_ifs with hpos
  · refine .ask (by simp) (fun s hs _ => ⟨hs, ?_⟩) fun faultState => ?_
    · have hfault : s.motor.faultState ≠ .none := by rw [hs.1]; decide
      simp [MotorAct.eff, hfault]
    · split_ifs
      · trivial
      · exact ⟨.inl (Nat.pos_iff_ne_zero.mp hpos), by simp, fun _ => trivial⟩
  · exact guarded_of_all (by simpa [MotorAct.Stale] using hpos)

theorem brakeLoop_guarded (decelRate n f : ℕ) : Guarded (brakeLoop decelRate n f) := by
  induction n generalizing f with
  | zero => exact .ret ()
  | succ n ih =>
    unfold brakeLoop
    refine .ite ?_ (.ret ())
    refine (setFrequency_guarded _).bind fun _ => ?_
    exact (guarded_of_all (by simp [MotorAct.Stale])).bind fun _ => ih _

theorem brake_guarded (decelRate : ℕ) : Guarded (brake decelRate) := by
  have hstop : Guarded stop := guarded_of_all (by simp [stop, MotorAct.Stale])
  refine .ite hstop ?_
  refine (guarded_of_all (by simp [MotorAct.Stale])).bind fun f => ?_
  exact (brakeLoop_guarded decelRate f f).bind fun _ => hstop

theorem homeRound_guarded (homePin : ℤ) (timeoutMs deadline : ℕ) :
    Guarded (homeRound homePin timeoutMs deadline) :=
  guarded_of_all (by simp [homeRound, expired, MotorAct.Stale])

theorem backoffRound_guarded (homeDir target : ℤ) : Guarded (backoffRound homeDir target) :=
  guarded_of_all (by simp [backoffRound, MotorAct.Stale])

theorem home_guarded (homePin homeDir : ℤ) (speedHz : ℕ) (backoffSteps : ℤ)
    (timeoutMs polls : ℕ) :
    Guarded (home homePin homeDir speedHz backoffSteps timeoutMs polls) := by
  unfold home
  dsimp only
  have hact : ∀ {l : MotorAct}, ¬l.Stale → Guarded (perform l) :=
    fun hl => guarded_of_all (by simpa using hl)
  have hdir : ∀ d, Guarded (setDirection d) := fun d => hact (by simp [MotorAct.Stale])
  refine (hact (by simp [MotorAct.Stale])).bind fun _ => (hdir _).bind fun _ => ?_
  refine (hact (by simp [MotorAct.Stale])).bind fun _ => (setFrequency_guarded _).bind fun _ => ?_
  refine (guarded_of_all (by simp [deadlineAfter, MotorAct.Stale])).bind fun deadline => ?_
  refine (homeRound_guarded homePin timeoutMs deadline).poll.bind fun o => ?_
  cases o with
  | none => exact .ret none
  | some ret =>
    refine (setFrequency_guarded 0).bind fun _ => .ite ?_ ?_
    · refine (hdir _).bind fun _ => (setFrequency_guarded _).bind fun _ => ?_
      refine (guarded_of_all (by simp [MotorAct.Stale])).bind fun start => ?_
      refine (backoffRound_guarded homeDir _).poll.bind fun o => ?_
      cases o with
      | none => exact .ret none
      | some _ =>
        refine (setFrequency_guarded 0).bind fun _ => ?_
        exact (hact (by simp [MotorAct.Stale])).bind fun _ => .ret _
    · exact (hact (by simp [MotorAct.Stale])).bind fun _ => .ret _

/-- A call that has not read the pin yet reads it LOW, and keeps the fault. -/
theorem checkFault_guarded : Guarded checkFault := by
  unfold checkFault
  refine (guarded_of_all (by simp [MotorAct.Stale])).bind fun unused => .ite (.ret _) ?_
  have hlow : Guarded (α := Bool) do
      let faultState ← ask .test fun s => s.motor.faultState
      if faultState = .none then
        perform .recordFault
        perform (.setState .fault)
        perform .faultStop
        return true
      else return true :=
    guarded_of_all (by simp [MotorAct.Stale])
  refine .ask (by simp) (fun s hs hok => ⟨hs, ?_⟩) fun high => ?_
  · have hpin : s.pin s.motor.faultPin = false := hok.2.2 rfl
    simpa only [MotorAct.eff, hpin, Bool.false_eq_true, if_false] using hlow.1
  · split_ifs
    · exact ⟨.inl trivial, by simp, fun _ => trivial⟩
    · exact hlow.2

end Motor

theorem MotorCall.guarded (c : MotorCall) : Motor.Guarded c.code := by
  cases c with
  | setFrequency freqHz => exact (Motor.setFrequency_guarded freqHz).bind fun _ => .ret ()
  | brake decelRate => exact Motor.brake_guarded decelRate
  | home homePin homeDir speedHz backoffSteps timeoutMs polls =>
    exact (Motor.home_guarded ..).bind fun _ => .ret ()
  | checkFault => exact Motor.checkFault_guarded.bind fun _ => .ret ()
  | _ =>
    refine Motor.guarded_of_all ?_
    simp [MotorCall.code, Motor.enable, Motor.disable, Motor.start, Motor.stop, Motor.setDirection,
      Motor.brakeAsync, Motor.clearFault, Motor.setIdleReduce, Motor.idleTick, Motor.getSteps,
      Motor.clearSteps, MotorAct.Stale]

/-! ## Two threads -/

/-- The two threads of the program that call the driver. -/
inductive MotorThread where
  | control | api
  deriving DecidableEq

/-- Two threads that call the driver as they like. -/
def motorMachine : Machine MotorThread MotorCall MotorEnv MotorAct MotorSys Unit where
  eff := MotorAct.eff
  code _ c := c.code
  env := MotorEnv.eff

/-- No step of the run is a `clear_fault`, a `start`, or a read of the fault pin that finds it
HIGH. -/
def FaultLasts (p : Pool MotorThread MotorAct MotorSys Unit) :
    Event MotorThread MotorCall MotorEnv → Prop
  | .step t => ∀ l, (p.thr t).head = some l → l.Lasts p.st
  | _ => True

/-- What is left of a call is guarded. -/
def Guards (p : Pool MotorThread MotorAct MotorSys Unit) : Prop :=
  ∀ t, (p.thr t).SafeUnless MotorAct.eff MotorAct.Lasts MotorSys.Locked MotorAct.Stale
    (· = .faultStop)

theorem guards_idle (s : MotorSys) : Guards (.idle s ()) := fun _ => trivial

theorem guards_next (p : Pool MotorThread MotorAct MotorSys Unit)
    (e : Event MotorThread MotorCall MotorEnv) (hp : Guards p) :
    Guards (motorMachine.next p e) :=
  Machine.left_next (fun _ _ => True) (fun _ _ s h => h.step s) (fun _ c _ => c.guarded.2) hp e
    (by cases e <;> trivial)

theorem locked_next (p : Pool MotorThread MotorAct MotorSys Unit)
    (e : Event MotorThread MotorCall MotorEnv)
    (h : p.st.Locked ∧
      ∀ t, (p.thr t).Safe MotorAct.eff MotorAct.Lasts MotorSys.Locked) (he : FaultLasts p e) :
    (motorMachine.next p e).st.Locked ∧
      ∀ t, ((motorMachine.next p e).thr t).Safe MotorAct.eff MotorAct.Lasts MotorSys.Locked := by
  refine Machine.safe_next (M := motorMachine) (fun _ _ => True) (fun _ _ => True)
    (fun e s _ hs => ?_) (fun t c _ => c.guarded.1) h.1 h.2 e ?_
  · cases e <;> exact hs
  · cases e with
    | step t => exact he
    | call t c => trivial
    | env e => trivial

/-- **The fault interlock.** In a run of two threads from a state in which both are free, let the
thread `t` be about to stop the motor in a `check_fault` that has recorded the fault, with the fault
still recorded and the other thread not past a test that is stale now. Then the output is off in
every later state, as long as the fault lasts and nobody calls `start`. -/
theorem fault_interlock (s : MotorSys) (es es' : List (Event MotorThread MotorCall MotorEnv))
    (t : MotorThread) :
    let p := motorMachine.run (.idle s ()) es
    (p.thr t).head = some .faultStop → p.st.motor.faultState = .driver →
      (∀ u ≠ t, ∀ l, (p.thr u).head = some l → ¬l.Stale) →
      motorMachine.Along FaultLasts (motorMachine.next p (.step t)) es' →
        (motorMachine.run p (.step t :: es')).st.motor.running = false := by
  intro p ht hfault hother hes'
  have hguards : Guards p := motorMachine.run_of_next guards_next (guards_idle s) es
  have hlocked : (motorMachine.next p (.step t)).st.Locked := by
    have hst : (motorMachine.next p (.step t)).st = p.st.stopSection := Machine.next_step_st _ ht
    rw [hst]
    exact ⟨by simpa [MotorSys.stopSection] using hfault, rfl⟩
  refine (Machine.run_inv locked_next ⟨hlocked, fun u => ?_⟩ hes').1.2
  rcases eq_or_ne u t with rfl | hu
  · simpa [Machine.next, motorMachine] using (hguards u).safe_step ht rfl p.st
  · simpa [Machine.next, hu] using (hguards u).safe (hother u hu)

/-- A driver whose fault pin 5 reads LOW. -/
def faultyMotor : MotorSys :=
  (MotorEnv.level 5 false).eff (MotorSys.zeroed.init 200000000 5 false)

/-- A `check_fault` of the control thread, up to its stop. -/
def checkFaultRun : List (Event MotorThread MotorCall MotorEnv) :=
  .call .control .checkFault :: List.replicate 5 (.step .control)

/-- A frequency asked for after the stop is refused. -/
theorem fault_interlock_refused :
    (motorMachine.run (motorMachine.run (.idle faultyMotor ()) checkFaultRun)
      (.step .control :: [.call .api (.setFrequency 500), .step .api])).st.motor.running = false :=
  fault_interlock faultyMotor checkFaultRun [.call .api (.setFrequency 500), .step .api] .control
    (by decide +kernel) (by decide +kernel)
    (fun u hu l hl => by
      have hnone : ((motorMachine.run (.idle faultyMotor ()) checkFaultRun).thr .api).head = none :=
        by decide +kernel
      cases u with
      | control => exact absurd rfl hu
      | api => rw [hnone] at hl; cases hl)
    ⟨trivial, fun l hl => by
      obtain rfl : MotorAct.testFault = l := Option.some.inj hl
      simp [MotorAct.Lasts], trivial⟩

/-- With the fault recorded and the pin LOW, a `start` switches the output on; so does a frequency
that was tested before the fault. -/
theorem fault_interlock_broken :
    let p := motorMachine.run (.idle faultyMotor ())
      (checkFaultRun ++ [.step .control, .call .api .start, .step .api])
    let q := motorMachine.run (.idle faultyMotor ())
      (.call .api (.setFrequency 500) :: .step .api ::
        (checkFaultRun ++ [.step .control, .step .api]))
    (p.thr .control).head = none ∧ p.st.motor.faultState = .driver ∧ p.st.motor.running = true ∧
      (q.thr .control).head = none ∧ q.st.motor.faultState = .driver ∧
        q.st.motor.running = true := by
  refine ⟨?_, ?_, ?_, ?_, ?_, ?_⟩ <;> decide +kernel

end H750Stepper
