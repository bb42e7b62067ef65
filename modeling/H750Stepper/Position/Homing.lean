import H750Stepper.Lib.Pool
import H750Stepper.Position.PositionLoop

/-!
# Homing beside the control loop

`position_loop_home` runs the homing of the motor driver in the caller's thread, and asks for a loop
that runs, so the control thread goes on writing the same motor. The driver's state cannot tell the
two apart: `stepper_motor_driver_home` sets `MOTOR_STATE_HOMING` and then commands the homing speed,
and `set_frequency` sets the state back to `MOTOR_STATE_RUNNING`.

`homing_state_ne`: whenever homing waits for the home pin, in any interleaving, the state of the
motor is not HOMING.
-/

namespace H750Stepper

open Threads Prog PosLoop

/-! ## The two threads -/

/-- The control thread, and the thread that calls `position_loop_home`. -/
inductive HomeThread where
  | control | caller
  deriving DecidableEq

/-- The arguments of `position_loop_home`, with the bound on the rounds observed. -/
structure HomeArgs where
  homePin : ℤ
  homeDir : ℤ
  speedHz : ℕ
  timeoutMs : ℕ
  polls : ℕ

/-- Ticks in one thread, homing in the other. -/
def homeMachine (cfg : PosConfig) (sqrtf : ℚ → ℚ) :
    Machine HomeThread HomeArgs PosEnv PosAct PosSys (Option ℤ) where
  eff := PosAct.eff
  code
    | .control, _ => do
      tick cfg sqrtf
      return none
    | .caller, a => home a.homePin a.homeDir a.speedHz a.timeoutMs a.polls
  env := PosEnv.eff

/-- There is no fault: the fault pin reads HIGH whenever the driver reads it. -/
def NoFault (p : Pool HomeThread PosAct PosSys (Option ℤ)) : Event HomeThread HomeArgs PosEnv → Prop
  | .step t => (p.thr t).head = some (.drv .readFaultPin) →
      p.st.drv.pin p.st.drv.motor.faultPin = true
  | _ => True

instance (p : Pool HomeThread PosAct PosSys (Option ℤ)) (e : Event HomeThread HomeArgs PosEnv) :
    Decidable (NoFault p e) :=
  match e with
  | .step _ => inferInstanceAs (Decidable (_ → _))
  | .call _ _ | .env _ => inferInstanceAs (Decidable True)

/-- The actions of the wait for the home pin, after the homing speed has been commanded. -/
def PosAct.Waits (l : PosAct) : Prop :=
  l = .drv .readTick ∨ l = .drv .readHomePin ∨ l = .drv .delay

/-! ## What the actions do to the state of the motor -/

/-- No fault is recorded. -/
def MotorSys.Healthy (s : MotorSys) : Prop := s.motor.faultState = .none

/-- No fault is recorded and the motor does not brake. -/
def MotorSys.Sound (s : MotorSys) : Prop := s.Healthy ∧ s.motor.state ≠ .braking

/-- The state that `set_frequency` and `stop` leave. -/
def MotorSys.Driven (s : MotorSys) : Prop :=
  s.motor.state = .running ∨ s.motor.state = .idle

/-- The action records no fault and starts no braking. -/
def MotorAct.Calm : MotorAct → Prop
  | .recordFault | .beginBrake | .beginBrakeAsync _ => False
  | .setState state => state ≠ .braking
  | _ => True

theorem MotorAct.Calm.healthy {l : MotorAct} (hl : l.Calm) {s : MotorSys} (h : s.Healthy) :
    (l.eff s).Healthy := by
  unfold MotorSys.Healthy at h ⊢
  by_cases hdrop : l = .dropFault ∨ l = .clearFault
  · rcases hdrop with rfl | rfl <;> rfl
  · push Not at hdrop
    have hrecord : l ≠ .recordFault := by
      rintro rfl
      exact hl
    rw [faultState_eff hrecord hdrop.1 hdrop.2]
    exact h

/-- A calm action leaves the recorded state, or that of a driven motor, or the one that it sets. -/
theorem MotorAct.Calm.state_eff {l : MotorAct} (hl : l.Calm) (s : MotorSys) :
    (l.eff s).motor.state = s.motor.state ∨ (l.eff s).Driven ∨
      ∃ state ≠ .braking, l = .setState state ∧ (l.eff s).motor.state = state := by
  have hacc := s.stepsAccumulate_state
  cases l with
  | setState state => exact .inr (.inr ⟨state, hl, rfl, rfl⟩)
  | recordFault | beginBrake | beginBrakeAsync => exact hl.elim
  | start => exact .inr (.inl (.inl rfl))
  | stop | disable | faultStop => exact .inr (.inl (.inr rfl))
  | setFrequency clamped =>
    show (s.setFrequencySection clamped).motor.state = s.motor.state ∨
      (s.setFrequencySection clamped).Driven ∨ _
    unfold MotorSys.setFrequencySection
    by_cases hzero : clamped = 0
    · rw [if_pos hzero]
      exact .inr (.inl (.inr rfl))
    · rw [if_neg hzero]
      by_cases hbrake : s.stepsAccumulate.motor.state = .braking
      · exact .inl ((if_pos hbrake).trans (hbrake.symm.trans hacc))
      · exact .inr (.inl (.inl (if_neg hbrake)))
  | setDirection | getSteps | clearSteps => exact .inl hacc
  | _ => exact .inl rfl

theorem MotorAct.Calm.sound {l : MotorAct} (hl : l.Calm) {s : MotorSys} (h : s.Sound) :
    (l.eff s).Sound := by
  refine ⟨hl.healthy h.1, ?_⟩
  obtain hkeep | hdriven | ⟨state, hne, -, heq⟩ := hl.state_eff s
  · exact hkeep.symm ▸ h.2
  · rcases hdriven with hrun | hidle
    · rw [hrun]
      decide
    · rw [hidle]
      decide
  · exact heq.symm ▸ hne

theorem MotorAct.Calm.driven {l : MotorAct} (hl : l.Calm) (hset : ∀ state, l ≠ .setState state)
    {s : MotorSys} (h : s.Driven) : (l.eff s).Driven := by
  obtain hkeep | hdriven | ⟨state, -, heq, -⟩ := hl.state_eff s
  · unfold MotorSys.Driven
    rwa [hkeep]
  · exact hdriven
  · exact absurd heq (hset state)

/-! ## Proof outlines -/

/-- While homing waits it relies on a driven motor, before that on a sound one, and at its start on
one without a fault. -/
def homeRely : HomeThread → Set (PosSys → Prop)
  | .control => ∅
  | .caller => {fun s => s.drv.Driven, fun s => s.drv.Sound, fun s => s.drv.Healthy}

/-- The fault pin reads HIGH. -/
def PinHigh (_ : HomeThread) (l : PosAct) (s : PosSys) : Prop :=
  l = .drv .readFaultPin → s.drv.pin s.drv.motor.faultPin = true

/-- The driver actions of a tick are calm and leave the recorded state to the sections. -/
def PosAct.Regular (l : PosAct) : Prop :=
  ∀ a, l = .drv a → a.Calm ∧ ∀ state, a ≠ .setState state

/-- What the actions of the two threads find. -/
def homePre : HomeThread → PosAct → PosSys → Prop
  | .control, l, _ => l.Regular
  | .caller, l, s => (∀ a, l = .drv a → a.Calm) ∧ (l.Waits → s.drv.Driven)

variable {cfg : PosConfig} {sqrtf : ℚ → ℚ}

/-- The outline of a program of the control thread. -/
abbrev TickOutline {α : Type} (Q : α → PosSys → Prop) (p : PosProg α) (s : PosSys) : Prop :=
  p.Outline PosAct.eff (homeRely .control) (PinHigh .control) (homePre .control) Q s

/-- The outline of a program of the caller. -/
abbrev HomeOutline {α : Type} (Q : α → PosSys → Prop) (p : PosProg α) (s : PosSys) : Prop :=
  p.Outline PosAct.eff (homeRely .caller) (PinHigh .caller) (homePre .caller) Q s

theorem tickOutline_of_all {α : Type} {p : PosProg α} (hp : p.All PosAct.Regular) (s : PosSys) :
    TickOutline (fun _ _ => True) p s :=
  .of_all (B := fun _ => True) hp (fun _ _ _ _ => trivial) (fun _ hl _ _ _ => ⟨hl, trivial⟩) trivial

/-- With the pin HIGH, `check_fault` reports no fault and records none. -/
theorem checkFault_outline (s : PosSys) :
    TickOutline (fun fault _ => fault = false) (drv Motor.checkFault) s := by
  simp only [Motor.checkFault, drv_bind, drv_ask, drv_ite, drv_perform, pure_eq, drv_ret]
  refine .ask fun s _ _ => ⟨by simp [homePre, PosAct.Regular, MotorAct.Calm], ?_⟩
  split_ifs
  · rfl
  · refine .ask fun s _ hpin => ⟨by simp [homePre, PosAct.Regular, MotorAct.Calm], ?_⟩
    have hhigh : s.drv.pin s.drv.motor.faultPin = true := hpin rfl
    have heff : ((PosAct.drv .readFaultPin).eff s) = s := rfl
    rw [heff, if_pos hhigh]
    exact .perform fun s _ _ => ⟨by simp [homePre, PosAct.Regular, MotorAct.Calm], rfl⟩

theorem PosAct.Senses.regular {l : PosAct} (hl : l.Senses) : l.Regular := by
  rintro a rfl
  exact hl.elim

theorem PosAct.Regulates.regular {l : PosAct} (hl : l.Regulates) : l.Regular := by
  rintro a rfl
  cases a <;> simp_all [PosAct.Regulates, MotorAct.Calm]

theorem tick_outline (s : PosSys) : TickOutline (fun _ _ => True) (tick cfg sqrtf) s := by
  unfold tick readRunning
  refine .ask fun s _ _ => ⟨by simp [homePre, PosAct.Regular], ?_⟩
  split_ifs
  · have hsense := (sense_all cfg).imp fun _ hl => PosAct.Senses.regular hl
    have hregulate := (regulate_all cfg sqrtf).imp fun _ hl => PosAct.Regulates.regular hl
    refine .bind ((tickOutline_of_all hsense _).mono fun _ s _ => ?_)
    refine .bind ((checkFault_outline s).mono fun fault s hfault => ?_)
    rw [hfault]
    exact tickOutline_of_all hregulate s
  · exact tickOutline_of_all (by simp [PosAct.Regular]) _

/-- An action of the caller that is calm and no wait keeps the motor sound. -/
theorem homeOutline_perform {α : Type} {Q : α → PosSys → Prop} {a : MotorAct}
    {g : Unit → PosProg α} {s : PosSys} (ha : a.Calm) (hw : ¬(PosAct.drv a).Waits)
    (hs : s.drv.Sound) (hg : ∀ s : PosSys, s.drv.Sound → HomeOutline Q (g ()) s) :
    HomeOutline Q (perform (.drv a) >>= g) s := by
  refine .perform fun s' hk _ => ⟨⟨?_, fun h => absurd h hw⟩, hg _ (ha.sound ?_)⟩
  · rintro b ⟨⟩
    exact ha
  · exact hk (fun s => s.drv.Sound) (by simp [homeRely]) hs

theorem homeOutline_of_all {α : Type} {p : PosProg α}
    (hp : p.All fun l => (∀ a, l = .drv a → a.Calm) ∧ ¬l.Waits) (s : PosSys) :
    HomeOutline (fun _ _ => True) p s :=
  .of_all (B := fun _ => True) hp (fun _ _ _ _ => trivial)
    (fun _ hl _ _ _ => ⟨⟨hl.1, fun h => absurd h hl.2⟩, trivial⟩) trivial

theorem MotorSys.Sound.driven {s : MotorSys} (hs : s.Sound) (clamped : ℕ) :
    (s.setFrequencySection clamped).Driven := by
  unfold setFrequencySection Driven
  split_ifs with h
  · exact .inr rfl
  · left
    simp [hs.2]

/-- A frequency is accepted, and leaves the motor driven. -/
theorem setFrequency_outline (freqHz : ℕ) {s : PosSys} (hs : s.drv.Sound) :
    HomeOutline (fun _ s => s.drv.Driven) (drv (Motor.setFrequency freqHz)) s := by
  have hsound : ∀ {s s' : PosSys}, Keeps (homeRely .caller) s s' → s.drv.Sound → s'.drv.Sound :=
    fun hk => hk (fun s => s.drv.Sound) (by simp [homeRely])
  have hwrite : ∀ s : PosSys, s.drv.Sound →
      HomeOutline (fun _ s => s.drv.Driven)
        (perform (.drv (.setFrequency (Motor.clampFreq freqHz).1)) >>= fun _ =>
          (.ret (Motor.clampFreq freqHz).2 : PosProg ℤ)) s := by
    refine fun s hs => .perform fun s' hk _ => ⟨⟨?_, fun h => ?_⟩, (hsound hk hs).driven _⟩
    · rintro a ⟨⟩
      trivial
    · simp [PosAct.Waits] at h
  simp only [Motor.setFrequency, drv_ite, drv_bind, drv_ask, drv_perform, pure_eq, drv_ret]
  split_ifs
  · refine .ask fun s' hk _ => ⟨⟨?_, fun h => ?_⟩, ?_⟩
    · rintro a ⟨⟩
      trivial
    · simp [PosAct.Waits] at h
    · have hfault : s'.drv.motor.faultState = .none := (hsound hk hs).1
      simpa [PosAct.eff, MotorAct.eff, hfault] using hwrite s' (hsound hk hs)
  · exact hwrite s hs

/-- While homing waits, the motor stays driven. -/
theorem waits_outline {α : Type} {p : PosProg α} (hp : p.All PosAct.Waits) {s : PosSys}
    (hs : s.drv.Driven) : HomeOutline (fun _ s => s.drv.Driven) p s := by
  refine .of_all (B := fun s : PosSys => s.drv.Driven) hp ?_ ?_ hs
  · exact fun s s' hk => hk (fun s => s.drv.Driven) (by simp [homeRely])
  · rintro l (rfl | rfl | rfl) s hs - <;>
      exact ⟨⟨by rintro a ⟨⟩; trivial, fun _ => hs⟩, hs⟩

theorem home_outline (a : HomeArgs) {s : PosSys} (hs : s.drv.Healthy) :
    HomeOutline (fun _ _ => True) (home a.homePin a.homeDir a.speedHz a.timeoutMs a.polls) s := by
  have hhealthy : ∀ {s s' : PosSys}, Keeps (homeRely .caller) s s' → s.drv.Healthy →
      s'.drv.Healthy := fun hk => hk (fun s => s.drv.Healthy) (by simp [homeRely])
  unfold home readRunning
  refine .ask fun s₁ hk _ => ⟨by simp [homePre, PosAct.Waits], ?_⟩
  have hs₁ : s₁.drv.Healthy := hhealthy hk hs
  split_ifs
  · refine .bind ?_
    simp only [Motor.home, Motor.setDirection, Motor.enable, drv_bind, drv_perform, drv_poll]
    refine .perform fun s₂ hk _ => ⟨⟨?_, fun h => by simp [PosAct.Waits] at h⟩, ?_⟩
    · rintro b ⟨⟩
      simp [MotorAct.Calm]
    -- whatever the state was, it is HOMING now
    have hs₂ : s₂.drv.Healthy := hhealthy hk hs₁
    have hs : ((PosAct.drv (.setState .homing)).eff s₂).drv.Sound := ⟨hs₂, fun h => by cases h⟩
    refine homeOutline_perform trivial (by simp [PosAct.Waits]) hs fun s hs => ?_
    refine homeOutline_perform trivial (by simp [PosAct.Waits]) hs fun s hs => ?_
    refine .bind ((setFrequency_outline _ hs).mono fun _ s hs => ?_)
    -- from here to the end of the loop the motor is driven
    have hdeadline : (drv (Motor.deadlineAfter a.timeoutMs)).All PosAct.Waits := by
      simp [Motor.deadlineAfter, PosAct.Waits]
    refine .bind ((waits_outline hdeadline hs).mono fun deadline s hs => .bind ?_)
    have hround : (drv (Motor.homeRound a.homePin a.timeoutMs deadline)).All PosAct.Waits := by
      simp [Motor.homeRound, Motor.expired, PosAct.Waits]
    refine .poll (J := fun s => s.drv.Driven) (fun s _ => trivial)
      (fun s hs => (waits_outline hround hs).mono fun o s hs => ?_) hs
    cases o with
    | none => exact hs
    | some ret =>
      refine (homeOutline_of_all ?_ s).mono fun o s _ => homeOutline_of_all ?_ s
      · simp [Motor.setFrequency, MotorAct.Calm, PosAct.Waits]
      · cases o <;> simp [PosAct.Waits]
  · exact homeOutline_of_all (by simp) _

/-! ## Runs -/

/-- The motor has no fault, and both threads have their outlines. -/
def HomeInv (cfg : PosConfig) (sqrtf : ℚ → ℚ) (p : Pool HomeThread PosAct PosSys (Option ℤ)) :
    Prop :=
  p.st.drv.Healthy ∧
    Machine.Outlines (homeMachine cfg sqrtf) homeRely PinHigh homePre (fun _ _ _ => True) p

theorem healthy_eff {t : HomeThread} {l : PosAct} {s : PosSys} (hl : homePre t l s)
    (hs : s.drv.Healthy) : (l.eff s).drv.Healthy := by
  cases l with
  | drv a =>
    cases t with
    | control => exact (hl a rfl).1.healthy hs
    | caller => exact (hl.1 a rfl).healthy hs
  | _ => exact hs

/-- A tick does not disturb what homing relies on. -/
theorem homeRely_eff {l : PosAct} {s : PosSys} (hl : l.Regular) :
    Keeps (homeRely .caller) s (l.eff s) := by
  rintro P (rfl | rfl | rfl) hs
  · cases l with
    | drv a => exact (hl a rfl).1.driven (hl a rfl).2 hs
    | _ => exact hs
  · cases l with
    | drv a => exact (hl a rfl).1.sound hs
    | _ => exact hs
  · exact healthy_eff (t := .control) hl hs

theorem homeRely_env (e : PosEnv) (s : PosSys) (t : HomeThread) :
    Keeps (homeRely t) s (e.eff s) := by
  cases t with
  | control => exact fun P hP => absurd hP (Set.notMem_empty P)
  | caller =>
    rintro P (rfl | rfl | rfl) hs <;>
      rcases e with (n | ⟨pin, high⟩) | d <;> exact hs

theorem homeInv_next (p : Pool HomeThread PosAct PosSys (Option ℤ))
    (e : Event HomeThread HomeArgs PosEnv) (h : HomeInv cfg sqrtf p) (he : NoFault p e) :
    HomeInv cfg sqrtf ((homeMachine cfg sqrtf).next p e) := by
  obtain ⟨hs, hp⟩ := h
  have hok : ∀ t l, e = .step t → (p.thr t).head = some l → PinHigh t l p.st := by
    rintro t l rfl hl rfl
    exact he hl
  refine ⟨?_, ?_⟩
  · refine Machine.st_next (I := fun s : PosSys => s.drv.Healthy) hs e ?_
    cases e with
    | call t c => trivial
    | env e => exact homeRely_env e p.st .caller (fun s => s.drv.Healthy) (by simp [homeRely]) hs
    | step t =>
      intro l hl
      have hpre := ((hp t l hl).step hl (hok t l rfl hl)).1
      exact healthy_eff hpre hs
  · refine Machine.outlines_next (fun _ _ => True) (fun _ _ s => s.drv.Healthy)
      (fun t l s _ hl u hu => ?_) (fun e s _ t => homeRely_env e s t) (fun t c s hs => ?_) hp e ?_
    · cases u with
      | control => exact fun P hP => absurd hP (Set.notMem_empty P)
      | caller =>
        cases t with
        | control => exact homeRely_eff hl
        | caller => exact absurd rfl hu
    · cases t with
      | control => exact .bind ((tick_outline s).mono fun _ _ _ => trivial)
      | caller => exact home_outline c hs
    · cases e with
      | call t c => exact hs
      | step t => exact fun l hl => hok t l rfl hl
      | env e => trivial

/-- `position_loop_start` leaves no fault recorded. -/
theorem start_healthy {s : PosSys} (hs : s.pl.running = false) :
    ((start cfg).exec PosAct.eff s).2.drv.Healthy := by
  have hclear : (Motor.clearFault.exec MotorAct.eff s.drv).2.Healthy := by
    simp only [Motor.clearFault, perform_bind, ask_bind, exec_act, exec_when, exec_perform]
    split_ifs <;> rfl
  have hstart : ∀ d : MotorSys, d.Healthy → d.startSection.Healthy := fun d hd => by
    unfold MotorSys.startSection
    split_ifs <;> exact hd
  simp only [start, readRunning, readCurrentPos, encRead, ask_bind, perform_bind, exec_act,
    exec_bind, exec_when, exec_perform, exec_ask, exec_drv, exec_pid, Motor.start, PosAct.eff,
    MotorAct.eff, hs, Bool.false_eq_true, if_false]
  split_ifs <;> exact hstart _ hclear

/-- **Homing is never in the HOMING state.** In every run from a state without a fault, with ticks,
homing calls and movements of the shaft in any order and no fault, the state of the motor is RUNNING
or IDLE at every action of a wait for the home pin. -/
theorem homing_state_ne (cfg : PosConfig) (sqrtf : ℚ → ℚ) (s : PosSys)
    (hs : s.drv.motor.faultState = .none) (es : List (Event HomeThread HomeArgs PosEnv))
    (hes : (homeMachine cfg sqrtf).Along NoFault (.idle s none) es) :
    let p := (homeMachine cfg sqrtf).run (.idle s none) es
    ∀ l, (p.thr .caller).head = some l → l.Waits → p.st.drv.motor.state ≠ .homing := by
  intro p l hl hw
  have hidle : HomeInv cfg sqrtf (.idle s none) := ⟨hs, fun t l hl => by cases hl⟩
  have hinv : HomeInv cfg sqrtf p := Machine.run_inv homeInv_next hidle hes
  have hok : PinHigh .caller l p.st := by
    rintro rfl
    simp [PosAct.Waits] at hw
  have hdriven : p.st.drv.Driven := ((hinv.2 .caller l hl).step hl hok).1.2 hw
  rcases hdriven with h | h <;> rw [h] <;> decide

/-- A loop that has been started, on a motor without a fault pin. -/
def homingPos : PosSys :=
  ((start ⟨50, 1000, 10, 200, false, 50, 1000⟩).exec PosAct.eff
    { (default : PosSys) with drv := MotorSys.zeroed.init 200000000 (-1) false }).2

/-- A home call up to its first look at the home pin, which reads HIGH. -/
def homeRun : List (Event HomeThread HomeArgs PosEnv) :=
  .call .caller ⟨7, motorDirCw, 1000, 0, 5⟩ :: List.replicate 6 (.step .caller)

/-- A tick, a homing call up to its wait, a tick, a round of the wait, and the beginning of a tick. -/
def homeTicks : List (Event HomeThread HomeArgs PosEnv) :=
  .call .control ⟨0, 0, 0, 0, 0⟩ :: List.replicate 48 (.step .control) ++ homeRun ++
    .call .control ⟨0, 0, 0, 0, 0⟩ :: List.replicate 48 (.step .control) ++
    List.replicate 2 (.step .caller) ++ .env (.turn 3) ::
    .call .control ⟨0, 0, 0, 0, 0⟩ :: List.replicate 20 (.step .control)

/-- The state that homing waits in, between ticks. -/
theorem homing_state_ticks :
    ((homeMachine ⟨50, 1000, 10, 200, false, 50, 1000⟩ fun _ => 0).run (.idle homingPos none)
      homeTicks).st.drv.motor.state ≠ .homing :=
  homing_state_ne ⟨50, 1000, 10, 200, false, 50, 1000⟩ (fun _ => 0) homingPos (start_healthy rfl)
    homeTicks (by decide +kernel) (.drv .readHomePin) (by decide +kernel) (.inr (.inl rfl))

/-- Homing waits in the state RUNNING at the speed it has commanded; the next tick stops the motor
and turns its direction. -/
theorem homing_disturbed :
    let m := homeMachine ⟨50, 1000, 10, 200, false, 50, 1000⟩ fun _ => 0
    let p := m.run (.idle homingPos none) homeRun
    let q := m.run p (.call .control ⟨0, 0, 0, 0, 0⟩ :: List.replicate 48 (.step .control))
    (p.thr .caller).head = some (.drv .readHomePin) ∧ p.st.drv.motor.state = .running ∧
      p.st.drv.motor.currentFreq = 1000 ∧ p.st.drv.motor.currentDir = motorDirCw ∧
      (q.thr .caller).head = some (.drv .readHomePin) ∧ q.st.drv.motor.state = .idle ∧
      q.st.drv.motor.currentFreq = 0 ∧ q.st.drv.motor.currentDir = motorDirCcw := by
  refine ⟨?_, ?_, ?_, ?_, ?_, ?_, ?_, ?_⟩ <;> decide +kernel

end H750Stepper
