import H750Stepper.Driver.Motor
import H750Stepper.Lib.Session

/-!
# Sessions of the motor driver

One thread calls the driver, while time passes and input pins change between its actions. A session
lists the calls that have returned, each with its actions and the state it leaves.
-/

namespace H750Stepper

open Threads Prog

/-! ## The environment -/

/-- Time has passed and input pins have changed. -/
def MotorSys.Later (s s' : MotorSys) : Prop :=
  ∃ es : List MotorEnv, s' = es.foldl (fun s e => e.eff s) s

namespace MotorSys

theorem later_refl (s : MotorSys) : s.Later s := ⟨[], rfl⟩

/-- The environment owns the clock and the input pins. -/
theorem Later.frame {s s' : MotorSys} (h : s.Later s') :
    s' = { s with pin := s'.pin, clock := s'.clock } := by
  obtain ⟨es, rfl⟩ := h
  induction es generalizing s with
  | nil => rfl
  | cons e es ih =>
    rw [List.foldl_cons, ih]
    cases e <;> rfl

/-- An assertion on the part of the state that the driver owns. -/
theorem Later.owned {P : Motor → Tim → Bool → Prop} {s s' : MotorSys} (h : s.Later s')
    (hs : P s.motor s.tim s.en) : P s'.motor s'.tim s'.en := by
  rw [h.frame]
  exact hs

/-- The environment leaves the driver's record alone. -/
theorem Later.motor_eq {s s' : MotorSys} (h : s.Later s') : s'.motor = s.motor :=
  h.owned (P := fun motor _ _ => motor = s.motor) rfl

end MotorSys

namespace MotorAct

@[simp] theorem eff_test (s : MotorSys) : test.eff s = s := rfl

@[simp] theorem eff_testFault (s : MotorSys) : testFault.eff s = s := rfl

@[simp] theorem eff_readFaultPin (s : MotorSys) : readFaultPin.eff s = s := rfl

@[simp] theorem eff_readHomePin (s : MotorSys) : readHomePin.eff s = s := rfl

@[simp] theorem eff_readTick (s : MotorSys) : readTick.eff s = s := rfl

@[simp] theorem eff_delay (s : MotorSys) : delay.eff s = s := rfl

end MotorAct

/-! ## Steps of a session -/

/-- A call with its actions, each with the state it has found. -/
structure CallRun where
  call : MotorCall
  trace : List (MotorAct × MotorSys)

/-- The call, made in `s`, has returned in `s'`. -/
def CallRun.Returns (s : MotorSys) (x : CallRun) (s' : MotorSys) : Prop :=
  match x.call with
  | .home homePin homeDir speedHz backoffSteps timeoutMs polls =>
    ∃ ret, (Motor.home homePin homeDir speedHz backoffSteps timeoutMs polls).Runs MotorAct.eff
      MotorSys.Later s x.trace (some ret) s'
  | c => c.code.Runs MotorAct.eff MotorSys.Later s x.trace () s'

/-- A session, from the state `s` on. -/
abbrev MotorSession (s : MotorSys) (l : List (CallRun × MotorSys)) : Prop :=
  Path CallRun.Returns s l

/-- The session of some calls that never wait, with the environment at rest. -/
def session (s : MotorSys) : List MotorCall → List (CallRun × MotorSys)
  | [] => []
  | c :: cs =>
    (⟨c, c.code.trace MotorAct.eff s⟩, (c.code.exec MotorAct.eff s).2) ::
      session (c.code.exec MotorAct.eff s).2 cs

/-- The call is not `stepper_motor_driver_home`. -/
def MotorCall.isPlain : MotorCall → Bool
  | .home .. => false
  | _ => true

theorem session_path {cs : List MotorCall} (hcs : ∀ c ∈ cs, c.isPlain = true) (s : MotorSys) :
    MotorSession s (session s cs) := by
  induction cs generalizing s with
  | nil => trivial
  | cons c cs ih =>
    obtain ⟨hc, hcs⟩ := List.forall_mem_cons.mp hcs
    refine ⟨?_, ih hcs _⟩
    have hrun : c.code.Runs MotorAct.eff MotorSys.Later s _ _ _ :=
      runs_exec MotorSys.later_refl c.code s
    cases c with
    | home => cases hc
    | _ => exact hrun

/-- A motor after its init, with the fault input on pin 7. -/
def pinMotor : MotorSys := MotorSys.zeroed.init 200000000 7 false

/-! ## What the calls may do -/

/-- The driver programs at most these frequencies. -/
def FreqOk (f : ℕ) : Prop := f = 0 ∨ motorMinFreqHz ≤ f ∧ f ≤ motorMaxFreqHz

theorem clampFreq_ok (freqHz : ℕ) : FreqOk (Motor.clampFreq freqHz).1 := by
  unfold Motor.clampFreq FreqOk motorMinFreqHz motorMaxFreqHz
  dsimp only
  split_ifs <;> omega

/-- The actions of a braking call. -/
def MotorAct.Brakes : MotorAct → Prop
  | .stop | .beginBrake | .testFault | .delay => True
  | .setFrequency clamped => FreqOk clamped
  | _ => False

/-- The actions of a homing call. -/
def MotorAct.Homes : MotorAct → Prop
  | .setState _ | .setDirection _ | .enable | .testFault | .readTick | .readHomePin | .getSteps
  | .delay => True
  | .setFrequency clamped => FreqOk clamped
  | _ => False

namespace Motor

theorem setFrequency_all {Φ : MotorAct → Prop} (htest : Φ .testFault)
    (hset : ∀ f, FreqOk f → Φ (.setFrequency f)) (freqHz : ℕ) : (setFrequency freqHz).All Φ := by
  unfold setFrequency
  simp [htest, hset _ (clampFreq_ok freqHz)]

theorem brakeLoop_all (decelRate n f : ℕ) : (brakeLoop decelRate n f).All MotorAct.Brakes := by
  induction n generalizing f with
  | zero => trivial
  | succ n ih =>
    unfold brakeLoop
    rw [all_ite]
    refine ⟨fun _ => ?_, fun _ => trivial⟩
    rw [all_bind]
    refine ⟨setFrequency_all trivial (fun _ hf => hf) _, fun _ _ => ?_⟩
    exact ⟨trivial, fun _ => ih _⟩

theorem brake_all (decelRate : ℕ) : (brake decelRate).All MotorAct.Brakes := by
  unfold brake stop
  rw [all_ite, all_perform]
  refine ⟨fun _ => trivial, fun _ => All.ask_bind trivial fun s => ?_⟩
  rw [all_bind, all_perform]
  exact ⟨brakeLoop_all _ _ _, fun _ _ => trivial⟩

theorem home_all (homePin homeDir : ℤ) (speedHz : ℕ) (backoffSteps : ℤ) (timeoutMs polls : ℕ) :
    (home homePin homeDir speedHz backoffSteps timeoutMs polls).All MotorAct.Homes := by
  have hset : ∀ f, (setFrequency f).All MotorAct.Homes :=
    setFrequency_all trivial fun _ hf => hf
  have hround : ∀ deadline, (homeRound homePin timeoutMs deadline).All MotorAct.Homes := by
    simp [homeRound, expired, MotorAct.Homes]
  have hback : ∀ target, (backoffRound homeDir target).All MotorAct.Homes := by
    simp [backoffRound, MotorAct.Homes]
  have hdeadline : (deadlineAfter timeoutMs).All MotorAct.Homes := by
    simp [deadlineAfter, MotorAct.Homes]
  unfold home setDirection enable
  dsimp only
  refine .perform_bind trivial (.perform_bind trivial ?_)
  refine .perform_bind trivial (all_bind.2 ⟨hset _, fun _ _ => ?_⟩)
  refine all_bind.2 ⟨hdeadline, fun deadline _ => ?_⟩
  refine all_bind.2 ⟨(hround deadline).poll, fun o _ => ?_⟩
  cases o with
  | none => trivial
  | some ret =>
    refine all_bind.2 ⟨hset 0, fun _ _ => all_ite.2 ⟨fun _ => ?_, fun _ => ?_⟩⟩
    · refine .perform_bind trivial (all_bind.2 ⟨hset _, fun _ _ => ?_⟩)
      refine .ask_bind trivial fun s => all_bind.2 ⟨(hback _).poll, fun o _ => ?_⟩
      cases o with
      | none => trivial
      | some u => exact all_bind.2 ⟨hset 0, fun _ _ => All.perform_bind trivial trivial⟩
    · exact All.perform_bind trivial trivial

/-- A homing call that returns sets the state IDLE with its last action. -/
theorem home_outline_idle (homePin homeDir : ℤ) (speedHz : ℕ) (backoffSteps : ℤ)
    (timeoutMs polls : ℕ) (s : MotorSys) :
    (home homePin homeDir speedHz backoffSteps timeoutMs polls).Outline MotorAct.eff ∅
      (fun _ _ => True) (fun _ _ => True)
      (fun o s => ∀ ret, o = some ret → s.motor.state = .idle) s := by
  have hidle : ∀ (ret : ℤ) (s : MotorSys),
      (perform (.setState .idle) >>= fun _ => (.ret (some ret) : MotorProg (Option ℤ))).Outline
        MotorAct.eff ∅ (fun _ _ => True) (fun _ _ => True)
        (fun o s => ∀ ret, o = some ret → s.motor.state = .idle) s :=
    fun ret s => .perform fun s' _ _ => ⟨trivial, fun _ _ => rfl⟩
  unfold home setDirection enable
  dsimp only
  refine .then fun _ s => .then fun _ s => .then fun _ s => .then fun _ s => .then fun deadline s =>
    .then fun o s => ?_
  cases o with
  | none => exact fun _ h => by cases h
  | some ret =>
    refine .then fun _ s => ?_
    by_cases hback : ret = motorEOk ∧ backoffSteps > 0
    · rw [if_pos hback]
      refine .then fun _ s => .then fun _ s => .then fun start s => .then fun o s => ?_
      cases o with
      | none => exact fun _ h => by cases h
      | some u => exact .then fun _ s => hidle ret s
    · rw [if_neg hback]
      exact hidle ret s

end Motor

/-- The actions that a call may perform. -/
def MotorCall.May : MotorCall → MotorAct → Prop
  | .enable, l => l = .enable
  | .disable, l => l = .disable
  | .start, l => l = .start
  | .stop, l => l = .stop
  | .setDirection direction, l => l = .setDirection direction
  | .setFrequency _, l => l = .testFault ∨ ∃ f, FreqOk f ∧ l = .setFrequency f
  | .brake _, l => l.Brakes
  | .brakeAsync decelRate, l => l = .beginBrakeAsync decelRate
  | .home .., l => l.Homes
  | .checkFault, l =>
    l ∈ [.test, .readFaultPin, .dropFault, .recordFault, .setState .fault, .faultStop]
  | .clearFault, l => l ∈ [.clearFault, .test, .setState .idle]
  | .setIdleReduce on timeoutMs, l => l = .setIdleReduce on timeoutMs
  | .idleTick, l => l ∈ [.test, .readTick, .releaseEn]
  | .getSteps, l => l = .getSteps
  | .clearSteps, l => l = .clearSteps

theorem MotorCall.code_may (c : MotorCall) : c.code.All c.May := by
  cases c with
  | setFrequency freqHz =>
    have hall := Motor.setFrequency_all (Φ := (MotorCall.setFrequency freqHz).May) (.inl rfl)
      (fun f hf => .inr ⟨f, hf, rfl⟩) freqHz
    exact all_bind.2 ⟨hall, fun _ _ => trivial⟩
  | brake d => exact Motor.brake_all d
  | home => exact all_bind.2 ⟨Motor.home_all .., fun _ _ => trivial⟩
  | _ =>
    simp [code, May, Motor.enable, Motor.disable, Motor.start, Motor.stop, Motor.setDirection,
      Motor.brakeAsync, Motor.checkFault, Motor.clearFault, Motor.setIdleReduce, Motor.idleTick,
      Motor.getSteps, Motor.clearSteps]

/-- An assertion on the driver's part of the state that all actions of a call keep. -/
theorem CallRun.Returns.inv {Φ : MotorAct → Prop} {I : MotorSys → Prop} {x : CallRun}
    {s s' : MotorSys} (h : CallRun.Returns s x s') (hx : x.call.code.All Φ)
    (hΦ : ∀ l, Φ l → ∀ s, I s → I (l.eff s)) (henv : ∀ s s', MotorSys.Later s s' → I s → I s')
    (hs : I s) : I s' := by
  obtain ⟨c, tr⟩ := x
  cases c with
  | home =>
    obtain ⟨ret, h⟩ := h
    exact Runs.inv h (all_bind.1 hx).1 hΦ henv hs
  | _ => exact Runs.inv h hx hΦ henv hs

end H750Stepper
