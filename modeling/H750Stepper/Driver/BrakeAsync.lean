import H750Stepper.Lib.Erasure
import H750Stepper.Driver.FaultInterlock

/-!
# The asynchronous brake does not brake

The header says of `stepper_motor_driver_brake_async` that it slows the motor down without blocking
and that the caller polls `is_running`. It records `BRAKING` and the rate, and nothing reads either:
no step of the driver lowers the frequency because of them. `clear_fault` tests `state`, for `FAULT`.

`brakeAsync_unnoticed`: in any interleaving of calls other than `clear_fault`, the calls of
`brake_async` can be left out, and in every state of the run only `state` and `brake_decel` differ.
-/

namespace H750Stepper

open Threads

/-- Everything but `state` and `brake_decel`. -/
def MotorSys.veil (s : MotorSys) : MotorSys :=
  { s with motor.state := .idle, motor.brakeDecel := 0 }

/-- The states differ in `state` and `brake_decel` at most. -/
def MotorSys.VeilEq (s s' : MotorSys) : Prop := s.veil = s'.veil

namespace MotorSys

variable (s : MotorSys)

theorem veil_stepsAccumulate : s.stepsAccumulate.veil = s.veil.stepsAccumulate := by
  unfold stepsAccumulate
  dsimp only
  rw [apply_ite veil, apply_ite veil]
  rfl

theorem veil_startSection : s.startSection.veil = s.veil.startSection.veil := by
  unfold startSection
  dsimp only
  by_cases hen : s.motor.enabled = true
  · rw [if_pos hen, if_pos (show s.veil.motor.enabled = true from hen)]
    rfl
  · rw [if_neg hen, if_neg (show ¬s.veil.motor.enabled = true from hen)]
    rfl

theorem veil_stopSection : s.stopSection.veil = s.veil.stopSection.veil := by
  unfold stopSection
  rw [← veil_stepsAccumulate]
  rfl

theorem veil_setDirectionSection (direction : ℤ) :
    (s.setDirectionSection direction).veil = (s.veil.setDirectionSection direction).veil := by
  unfold setDirectionSection
  rw [← veil_stepsAccumulate]
  rfl

/-- The frequency is written whatever the state is. -/
theorem veil_setFrequencySection (clamped : ℕ) :
    (s.setFrequencySection clamped).veil = (s.veil.setFrequencySection clamped).veil := by
  unfold setFrequencySection
  rw [← veil_stepsAccumulate]
  generalize s.stepsAccumulate = d
  by_cases h0 : clamped = 0
  · rw [if_pos h0, if_pos h0]
    rfl
  · unfold freqWriteRaw
    rw [if_neg h0, if_neg h0, if_neg h0, if_neg h0]
    rfl

end MotorSys

/-- No action reads `state` or `brake_decel` for what else it writes. -/
theorem MotorAct.veil_eff (l : MotorAct) (s : MotorSys) : (l.eff s).veil = (l.eff s.veil).veil := by
  cases l with
  | start => exact s.veil_startSection
  | stop | faultStop => exact s.veil_stopSection
  | disable =>
    exact congrArg (fun d : MotorSys => { d with en := false, motor.enabled := false })
      s.veil_stopSection
  | setDirection direction => exact s.veil_setDirectionSection direction
  | setFrequency clamped => exact s.veil_setFrequencySection clamped
  | getSteps =>
    show s.stepsAccumulate.veil = s.veil.stepsAccumulate.veil
    rw [← s.veil_stepsAccumulate]
    rfl
  | clearSteps =>
    show s.clearStepsSection.veil = s.veil.clearStepsSection.veil
    unfold MotorSys.clearStepsSection
    rw [← s.veil_stepsAccumulate]
    rfl
  | _ => rfl

theorem MotorAct.even (l : MotorAct) : Even MotorAct.eff MotorSys.VeilEq l := fun s s' h => by
  show (l.eff s).veil = (l.eff s').veil
  rw [l.veil_eff s, l.veil_eff s', show s.veil = s'.veil from h]

theorem MotorEnv.even (e : MotorEnv) : Even MotorEnv.eff MotorSys.VeilEq e := fun s s' h => by
  cases e with
  | elapse n => exact congrArg (fun d : MotorSys => { d with clock := d.clock + n }) h
  | level pin high =>
    exact congrArg (fun d : MotorSys => { d with pin := Function.update d.pin pin high }) h

/-! ## The calls -/

namespace Motor

open Prog (ask perform poll Respects respects_ret respects_perform respects_ask respects_ite
  respects_when)

/-- What the program does does not depend on `state` and `brake_decel`. -/
abbrev Blind {α : Type} (p : MotorProg α) : Prop := p.Respects MotorAct.eff MotorSys.VeilEq

theorem blind_perform (l : MotorAct) : Blind (perform l) := respects_perform l.even

/-- A test of what is not veiled. -/
theorem blind_ask {α : Type} (l : MotorAct) {f : MotorSys → α} (hf : ∀ s, f s.veil = f s) :
    Blind (ask l f) :=
  respects_ask l.even fun s s' h => by rw [← hf s, ← hf s', show s.veil = s'.veil from h]

theorem setFrequency_blind (freqHz : ℕ) : Blind (setFrequency freqHz) := by
  have hwrite : ∀ {code : ℤ}, Blind (do
      perform (.setFrequency (clampFreq freqHz).1)
      return code) := (blind_perform _).bind fun _ => respects_ret _
  unfold setFrequency
  refine respects_ite ?_ hwrite
  exact (blind_ask _ fun _ => rfl).bind fun _ => respects_ite (respects_ret _) hwrite

theorem brakeLoop_blind (decelRate n f : ℕ) : Blind (brakeLoop decelRate n f) := by
  induction n generalizing f with
  | zero => exact respects_ret ()
  | succ n ih =>
    unfold brakeLoop
    refine respects_ite ?_ (respects_ret ())
    refine (setFrequency_blind _).bind fun _ => ?_
    exact (blind_perform _).bind fun _ => ih _

theorem brake_blind (decelRate : ℕ) : Blind (brake decelRate) := by
  refine respects_ite (blind_perform _) ?_
  refine (blind_ask _ fun _ => rfl).bind fun f => ?_
  exact (brakeLoop_blind decelRate f f).bind fun _ => blind_perform _

theorem expired_blind (timeoutMs deadline : ℕ) : Blind (expired timeoutMs deadline) :=
  respects_ite (blind_ask _ fun _ => rfl) (respects_ret _)

theorem homeRound_blind (homePin : ℤ) (timeoutMs deadline : ℕ) :
    Blind (homeRound homePin timeoutMs deadline) := by
  refine (blind_ask _ fun _ => rfl).bind fun _ => respects_ite ?_ (respects_ret _)
  refine (expired_blind ..).bind fun _ => respects_ite (respects_ret _) ?_
  exact (blind_perform _).bind fun _ => respects_ret _

theorem backoffRound_blind (homeDir target : ℤ) : Blind (backoffRound homeDir target) := by
  refine (blind_ask _ fun _ => rfl).bind fun _ => respects_ite (respects_ret _) ?_
  exact (blind_perform _).bind fun _ => respects_ret _

theorem home_blind (homePin homeDir : ℤ) (speedHz : ℕ) (backoffSteps : ℤ) (timeoutMs polls : ℕ) :
    Blind (home homePin homeDir speedHz backoffSteps timeoutMs polls) := by
  unfold home
  refine (blind_perform _).bind fun _ => (blind_perform _).bind fun _ => ?_
  refine (blind_perform _).bind fun _ => (setFrequency_blind _).bind fun _ => ?_
  refine (respects_ite (blind_ask _ fun _ => rfl) (respects_ret _)).bind fun deadline => ?_
  refine (homeRound_blind homePin timeoutMs deadline).poll.bind fun o => ?_
  cases o with
  | none => exact respects_ret none
  | some ret =>
    refine (setFrequency_blind 0).bind fun _ => respects_ite ?_ ?_
    · refine (blind_perform _).bind fun _ => (setFrequency_blind _).bind fun _ => ?_
      refine (blind_ask _ fun _ => rfl).bind fun start => ?_
      refine (backoffRound_blind homeDir _).poll.bind fun o => ?_
      cases o with
      | none => exact respects_ret none
      | some _ =>
        refine (setFrequency_blind 0).bind fun _ => ?_
        exact (blind_perform _).bind fun _ => respects_ret _
    · exact (blind_perform _).bind fun _ => respects_ret _

theorem checkFault_blind : Blind checkFault := by
  refine (blind_ask _ fun _ => rfl).bind fun _ => respects_ite (respects_ret _) ?_
  refine (blind_ask _ fun _ => rfl).bind fun _ => respects_ite ?_ ?_
  · exact (blind_perform _).bind fun _ => respects_ret _
  · refine (blind_ask _ fun _ => rfl).bind fun _ => respects_ite ?_ (respects_ret _)
    refine (blind_perform _).bind fun _ => (blind_perform _).bind fun _ => ?_
    exact (blind_perform _).bind fun _ => respects_ret _

theorem idleTick_blind : Blind idleTick := by
  unfold idleTick
  refine (blind_ask _ fun _ => rfl).bind fun _ => respects_ite (respects_ret ()) ?_
  refine (blind_ask _ fun _ => rfl).bind fun elapsed => ?_
  refine (blind_ask _ fun _ => rfl).bind fun timeoutMs => ?_
  generalize rtTickFromMillisecond timeoutMs = n
  exact respects_when (blind_perform .releaseEn)

end Motor

/-- No call but `clear_fault` tests `state`. -/
theorem MotorCall.blind {c : MotorCall} (hc : c ≠ .clearFault) : Motor.Blind c.code := by
  cases c with
  | clearFault => exact absurd rfl hc
  | setFrequency freqHz => exact (Motor.setFrequency_blind freqHz).bind fun _ => Prog.respects_ret ()
  | brake decelRate => exact Motor.brake_blind decelRate
  | home homePin homeDir speedHz backoffSteps timeoutMs polls =>
    exact (Motor.home_blind ..).bind fun _ => Prog.respects_ret ()
  | checkFault => exact Motor.checkFault_blind.bind fun _ => Prog.respects_ret ()
  | idleTick => exact Motor.idleTick_blind
  | getSteps => exact (Motor.blind_ask _ fun _ => rfl).bind fun _ => Prog.respects_ret ()
  | _ => exact Motor.blind_perform _

/-- The call is not `brake_async`. -/
def MotorCall.isKept : MotorCall → Bool
  | .brakeAsync _ => false
  | _ => true

theorem MotorCall.inert {c : MotorCall} (hc : c.isKept = false) :
    c.code.Inert MotorAct.eff MotorSys.VeilEq := by
  cases c with
  | brakeAsync decelRate => exact (Prog.all_perform _).mpr fun s s' h => h
  | _ => cases hc

/-- The run of two threads less the calls of `brake_async`. -/
def unbraked (s : MotorSys) (es : List (Event MotorThread MotorCall MotorEnv)) :
    List (Event MotorThread MotorCall MotorEnv) :=
  motorMachine.kept (fun _ c => c.isKept) (fun _ => true) (.idle s ()) (fun _ => true) es

/-- **The asynchronous brake does not brake.** In every interleaving of two threads that call the
driver without `clear_fault`, every output, every counter and every field but `state` and
`brake_decel` are what they are without the calls of `brake_async`. -/
theorem brakeAsync_unnoticed (s : MotorSys) (es : List (Event MotorThread MotorCall MotorEnv))
    (hes : ∀ t, .call t .clearFault ∉ es) :
    (motorMachine.run (.idle s ()) es).st.veil =
      (motorMachine.run (.idle s ()) (unbraked s es)).st.veil := by
  have hkeep : ∀ t c, Event.call t c ∈ es → c.isKept = true →
      (motorMachine.code t c).Respects motorMachine.eff MotorSys.VeilEq := by
    rintro t c hc -
    refine MotorCall.blind ?_
    rintro rfl
    exact hes t hc
  have hdrop : ∀ t c, Event.call t c ∈ es → c.isKept = false →
      (motorMachine.code t c).Inert motorMachine.eff MotorSys.VeilEq := fun _ _ _ hc =>
    MotorCall.inert hc
  have hs : MotorSys.VeilEq s s := rfl
  have henv : ∀ e, (fun _ : MotorEnv => true) e = false →
      Unseen motorMachine.env MotorSys.VeilEq e := nofun
  obtain ⟨b, hb⟩ := Machine.run_kept hkeep hdrop (fun e _ => MotorEnv.even e) henv
    (Machine.trimmed_idle hs ())
  exact hb.st

/-- A motor at 1000 Hz, an asynchronous brake at 200 Hz a period, and half a second. -/
def brakeAsyncRun : List (Event MotorThread MotorCall MotorEnv) :=
  [.call .api (.setFrequency 1000), .step .api, .step .api, .call .api (.brakeAsync 200),
    .step .api, .env (.elapse 500), .call .control .getSteps, .step .control]

theorem brakeAsync_unnoticed_getSteps :
    (∀ t, .call t .clearFault ∉ brakeAsyncRun) ∧
      (motorMachine.run (.idle faultyMotor ()) brakeAsyncRun).st.veil =
        (motorMachine.run (.idle faultyMotor ()) (unbraked faultyMotor brakeAsyncRun)).st.veil :=
  have hes : ∀ t, .call t .clearFault ∉ brakeAsyncRun := fun t => by simp [brakeAsyncRun]
  ⟨hes, brakeAsync_unnoticed faultyMotor brakeAsyncRun hes⟩

end H750Stepper
