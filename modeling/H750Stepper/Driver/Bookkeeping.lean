import H750Stepper.Driver.Sessions

/-!
# What the driver records of the pulse output

`running`, `current_freq`, `state` and the registers of the pulse timer are written by different
functions. `start` switches the channel on without a frequency, and `brake_async` records a braking
motor whether it runs or not.

`booked_iff`: in a session these records fit together after every call exactly if no `start` finds
the frequency 0, and no `brake_async` a motor that is not running.
-/

namespace H750Stepper

open Threads Prog

/-! ## The invariant -/

/-- The prescaler and the auto-reload value that `freq_write_raw` computes. -/
def timerPair (timClk f : ℕ) : ℕ × ℕ :=
  let r := MotorSys.pscSearch timClk f 0xFFFF 0
  (r.1, if r.2 > 0xFFFF then 0xFFFF else r.2)

theorem freqWriteRaw_pair {f : ℕ} (hf : f ≠ 0) (s : MotorSys) :
    ((s.freqWriteRaw f).tim.psc, (s.freqWriteRaw f).tim.arr) = timerPair s.motor.timClk f := by
  unfold MotorSys.freqWriteRaw
  rw [if_neg hf]
  rfl

/-- The records of the pulse output fit together, and with the timer: the channel is on exactly
while the motor is running at a frequency that is not 0, and then the timer is programmed for it. -/
structure MotorSys.Counted (s : MotorSys) : Prop where
  running_iff : s.motor.running = true ↔ s.motor.currentFreq ≠ 0
  freq : FreqOk s.motor.currentFreq
  timer : s.motor.running = true →
    (s.tim.psc, s.tim.arr) = timerPair s.motor.timClk s.motor.currentFreq
  channel : s.tim.oc = s.motor.running

/-- A motor that is not running is recorded as idle or at fault. -/
def MotorSys.Rests (s : MotorSys) : Prop :=
  s.motor.running = false → s.motor.state = .idle ∨ s.motor.state = .fault

/-- The bookkeeping after a call. -/
structure MotorSys.Booked (s : MotorSys) : Prop extends MotorSys.Counted s where
  rests : s.Rests

/-- A start without a frequency, or the asynchronous braking of a motor that is not running. -/
def MotorCall.Unbooks (c : MotorCall) (s : MotorSys) : Prop :=
  c = .start ∧ s.motor.currentFreq = 0 ∨
    (∃ decelRate, c = .brakeAsync decelRate) ∧ s.motor.running = false

namespace MotorSys

/-- A change of other fields. -/
theorem Counted.congr {s s' : MotorSys} (hs : s.Counted) (hclk : s'.motor.timClk = s.motor.timClk)
    (hrun : s'.motor.running = s.motor.running)
    (hfreq : s'.motor.currentFreq = s.motor.currentFreq) (htim : s'.tim = s.tim) : s'.Counted := by
  constructor
  · rw [hrun, hfreq]
    exact hs.running_iff
  · rw [hfreq]
    exact hs.freq
  · rw [hrun, hfreq, hclk, htim]
    exact hs.timer
  · rw [hrun, htim]
    exact hs.channel

theorem Counted.later {s s' : MotorSys} (h : s.Later s') (hs : s.Counted) : s'.Counted := by
  rw [h.frame]
  exact hs.congr rfl rfl rfl rfl

theorem Booked.later {s s' : MotorSys} (h : s.Later s') (hs : s.Booked) : s'.Booked :=
  ⟨hs.toCounted.later h, by rw [h.frame]; exact hs.rests⟩

theorem Counted.accumulate {s : MotorSys} (hs : s.Counted) : s.stepsAccumulate.Counted := by
  obtain ⟨total, last, h⟩ := s.stepsAccumulate_frame
  rw [h]
  exact hs.congr rfl rfl rfl rfl

/-- A stopped channel. -/
theorem counted_of_off {s : MotorSys} (hs : s.Off) (htim : s.tim.oc = false) : s.Counted := by
  obtain ⟨hrun, hfreq⟩ := hs
  refine ⟨?_, .inl hfreq, fun h => ?_, htim.trans hrun.symm⟩
  · rw [hrun, hfreq]
    decide
  · rw [hrun] at h
    cases h

theorem Counted.start {s : MotorSys} (hs : s.Counted) (hf : s.motor.currentFreq ≠ 0) :
    s.startSection.Counted := by
  have hrun := hs.running_iff.mpr hf
  have htimer := hs.timer hrun
  unfold startSection
  split_ifs <;> exact ⟨iff_of_true rfl hf, hs.freq, fun _ => htimer, rfl⟩

theorem Counted.setFrequency {s : MotorSys} (hs : s.Counted) {f : ℕ} (hf : FreqOk f) :
    (s.setFrequencySection f).Counted := by
  have hacc := hs.accumulate
  unfold setFrequencySection
  dsimp only
  by_cases h : f = 0
  · rw [if_pos h]
    exact counted_of_off ⟨rfl, rfl⟩ rfl
  · rw [if_neg h]
    have hpair := freqWriteRaw_pair h s.stepsAccumulate
    unfold freqWriteRaw at hpair ⊢
    rw [if_neg h] at hpair ⊢
    refine ⟨iff_of_true rfl h, hf, fun _ => hpair, ?_⟩
    show (if s.stepsAccumulate.motor.running then s.stepsAccumulate.tim.oc else true) = true
    rw [hacc.channel]
    cases s.stepsAccumulate.motor.running <;> rfl

end MotorSys

/-! ## One action -/

/-- Every action but a start keeps the records together. -/
theorem MotorAct.counted_eff {l : MotorAct} (hstart : l ≠ .start)
    (hfreq : ∀ f, l = .setFrequency f → FreqOk f) {s : MotorSys} (hs : s.Counted) :
    (l.eff s).Counted := by
  have hacc := hs.accumulate
  have hstop : s.stopSection.Counted := MotorSys.counted_of_off s.stopSection_off rfl
  cases l with
  | start => exact absurd rfl hstart
  | stop | faultStop => exact hstop
  | disable => exact hstop.congr rfl rfl rfl rfl
  | setFrequency f => exact hs.setFrequency (hfreq f rfl)
  | getSteps => exact hacc
  | setDirection | clearSteps => exact hacc.congr rfl rfl rfl rfl
  | _ => exact hs.congr rfl rfl rfl rfl

/-- The action does not record a state that a resting motor must not have. -/
def MotorAct.Settles : MotorAct → Prop
  | .beginBrake | .beginBrakeAsync _ => False
  | .setState state => state = .idle ∨ state = .fault
  | _ => True

theorem MotorAct.rests_eff {l : MotorAct} (hl : l.Settles) {s : MotorSys} (hs : s.Rests) :
    (l.eff s).Rests := by
  have hacc : s.stepsAccumulate.Rests := by
    obtain ⟨total, last, h⟩ := s.stepsAccumulate_frame
    rw [h]
    exact hs
  cases l with
  | start =>
    show s.startSection.Rests
    unfold MotorSys.startSection MotorSys.Rests
    split_ifs <;> exact fun h => by cases h
  | stop | faultStop | disable => exact fun _ => .inl rfl
  | setFrequency f =>
    show (s.setFrequencySection f).Rests
    unfold MotorSys.setFrequencySection MotorSys.Rests
    dsimp only
    by_cases hf : f = 0
    · rw [if_pos hf]
      exact fun _ => .inl rfl
    · unfold MotorSys.freqWriteRaw
      rw [if_neg hf, if_neg hf]
      exact fun h => by cases h
  | setState state => exact fun _ => hl
  | beginBrake | beginBrakeAsync => exact hl.elim
  | setDirection | getSteps | clearSteps => exact hacc
  | _ => exact hs

/-! ## One call -/

/-- The actions that keep the whole bookkeeping. -/
def MotorAct.Books (l : MotorAct) : Prop :=
  l ≠ .start ∧ (∀ f, l = .setFrequency f → FreqOk f) ∧ l.Settles

theorem MotorAct.Books.booked {l : MotorAct} (hl : l.Books) {s : MotorSys} (hs : s.Booked) :
    (l.eff s).Booked :=
  ⟨MotorAct.counted_eff hl.1 hl.2.1 hs.toCounted, MotorAct.rests_eff hl.2.2 hs.rests⟩

/-- A braking call ends with a stop. -/
theorem brake_booked {decelRate : ℕ} {s s' : MotorSys} {tr : List (MotorAct × MotorSys)} {u : Unit}
    (h : (Motor.brake decelRate).Runs MotorAct.eff MotorSys.Later s tr u s') : s'.Booked := by
  have hstop : ∀ s : MotorSys, s.stopSection.Booked := fun s =>
    ⟨MotorSys.counted_of_off s.stopSection_off rfl, fun _ => .inl rfl⟩
  unfold Motor.brake at h
  rw [runs_ite] at h
  by_cases hrate : decelRate = 0
  · obtain ⟨s₁, -, -, rfl⟩ := runs_perform.mp (h.1 hrate)
    exact hstop s₁
  · obtain ⟨_, f, s₁, _, -, h, -⟩ := runs_bind.mp (h.2 hrate)
    obtain ⟨_, _, s₂, _, -, h, -⟩ := runs_bind.mp h
    obtain ⟨s₃, -, -, rfl⟩ := runs_perform.mp h
    exact hstop s₃

theorem home_booked {homePin homeDir : ℤ} {speedHz : ℕ} {backoffSteps : ℤ} {timeoutMs polls : ℕ}
    {ret : ℤ} {s s' : MotorSys} {tr : List (MotorAct × MotorSys)} (hs : s.Counted)
    (h : (Motor.home homePin homeDir speedHz backoffSteps timeoutMs polls).Runs MotorAct.eff
      MotorSys.Later s tr (some ret) s') : s'.Booked := by
  have hidle : s'.motor.state = .idle :=
    (h.outline (Motor.home_outline_idle homePin homeDir speedHz backoffSteps timeoutMs polls s)
      (fun _ _ _ P hP => absurd hP (Set.notMem_empty P)) fun _ _ => trivial).1 ret rfl
  refine ⟨h.inv (Motor.home_all ..) ?_ (fun _ _ => MotorSys.Counted.later) hs, fun _ => .inl hidle⟩
  intro l hl s hs
  refine MotorAct.counted_eff ?_ ?_ hs
  · rintro rfl
    exact hl
  · rintro f rfl
    exact hl

/-- A start keeps the bookkeeping exactly if there is a frequency. -/
theorem start_booked_iff {s : MotorSys} (hs : s.Booked) :
    s.startSection.Booked ↔ s.motor.currentFreq ≠ 0 := by
  have hstart : s.startSection.motor.running = true ∧
      s.startSection.motor.currentFreq = s.motor.currentFreq := by
    unfold MotorSys.startSection
    split_ifs <;> exact ⟨rfl, rfl⟩
  constructor
  · intro h
    rw [← hstart.2]
    exact h.running_iff.mp hstart.1
  · intro hf
    have hrests : s.startSection.Rests := fun hrun => absurd hrun (by simp [hstart.1])
    exact ⟨hs.toCounted.start hf, hrests⟩

/-- Asynchronous braking keeps the bookkeeping exactly if the motor is running. -/
theorem beginBrakeAsync_booked_iff {decelRate : ℕ} {s : MotorSys} (hs : s.Booked) :
    ((MotorAct.beginBrakeAsync decelRate).eff s).Booked ↔ s.motor.running ≠ false := by
  constructor
  · intro h hrun
    rcases h.rests hrun with h | h <;> cases h
  · intro h
    exact ⟨hs.toCounted.congr rfl rfl rfl rfl, fun hrun => absurd hrun h⟩

/-- A call keeps the bookkeeping exactly if it is none of the two that break it. -/
theorem CallRun.Returns.books {s s' : MotorSys} {x : CallRun} (hs : s.Booked)
    (h : CallRun.Returns s x s') : s'.Booked ↔ ¬x.call.Unbooks s := by
  obtain ⟨c, tr⟩ := x
  have hbooks : c.code.All MotorAct.Books → s'.Booked :=
    fun hc => h.inv hc (fun l hl s => hl.booked) (fun _ _ => MotorSys.Booked.later) hs
  cases c with
  | start =>
    obtain ⟨s₁, hs₁, -, rfl⟩ := runs_perform.mp h
    have hfreq : s₁.motor.currentFreq = s.motor.currentFreq := by rw [hs₁.motor_eq]
    have hiff : (⟨.start, tr⟩ : CallRun).call.Unbooks s ↔ s.motor.currentFreq = 0 := by
      simp [MotorCall.Unbooks]
    rw [hiff, ← hfreq]
    exact start_booked_iff (hs.later hs₁)
  | brakeAsync decelRate =>
    obtain ⟨s₁, hs₁, -, rfl⟩ := runs_perform.mp h
    have hiff : (⟨.brakeAsync decelRate, tr⟩ : CallRun).call.Unbooks s ↔
        s₁.motor.running = false := by
      rw [hs₁.motor_eq]
      simp [MotorCall.Unbooks]
    rw [hiff]
    exact beginBrakeAsync_booked_iff (hs.later hs₁)
  | brake decelRate => exact iff_of_true (brake_booked h) (by simp [MotorCall.Unbooks])
  | home =>
    obtain ⟨ret, h⟩ := h
    exact iff_of_true (home_booked hs.toCounted h) (by simp [MotorCall.Unbooks])
  | setFrequency freqHz =>
    refine iff_of_true (hbooks ?_) (by simp [MotorCall.Unbooks])
    refine all_bind.2 ⟨Motor.setFrequency_all ?_ (fun f hf => ?_) freqHz, fun _ _ => trivial⟩
    · exact ⟨by simp, by simp, trivial⟩
    · refine ⟨by simp, ?_, trivial⟩
      rintro g ⟨⟩
      exact hf
  | _ =>
    refine iff_of_true (hbooks ?_) (by simp [MotorCall.Unbooks])
    simp [MotorCall.code, Motor.enable, Motor.disable, Motor.stop, Motor.setDirection,
      Motor.checkFault, Motor.clearFault, Motor.setIdleReduce, Motor.idleTick, Motor.getSteps,
      Motor.clearSteps, MotorAct.Books, MotorAct.Settles]

/-! ## Sessions -/

/-- **Bookkeeping.** In every session after init, after each call: `running` is set exactly if
`current_freq` is not 0, the frequency is in range, the timer is programmed for it while the motor
is running, the channel is on exactly then, and a motor that is not running is idle or at fault,
exactly if no `start` finds the frequency 0 and no `brake_async` a motor that is not running. -/
theorem booked_iff (s₀ : MotorSys) (timClk : ℕ) (faultPin : ℤ) (dirInvert : Bool)
    (l : List (CallRun × MotorSys)) (hl : MotorSession (s₀.init timClk faultPin dirInvert) l) :
    (∀ x ∈ l, x.2.Booked) ↔
      Meets (fun s x => ¬x.call.Unbooks s) (s₀.init timClk faultPin dirInvert) l :=
  hl.forall_iff (fun _ _ _ hs hx => hx.books hs)
    ⟨MotorSys.counted_of_off ⟨rfl, rfl⟩ rfl, fun _ => .inl rfl⟩

/-- A motor that is started and braked while it runs at a frequency. -/
def runAndBrake : List MotorCall := [.setFrequency 1000, .start, .brakeAsync 5, .setFrequency 0]

theorem booked_iff_runAndBrake :
    (∀ x ∈ session pinMotor runAndBrake, x.2.Booked) ↔
      Meets (fun s x => ¬x.call.Unbooks s) pinMotor (session pinMotor runAndBrake) :=
  booked_iff MotorSys.zeroed 200000000 7 false _ (session_path (by decide) pinMotor)

/-- A motor that is started before any frequency is set outputs pulses at the frequency 0. -/
theorem start_without_freq :
    let l := session pinMotor [.start]
    let s := lastState pinMotor l
    MotorSession pinMotor l ∧ s.motor.running = true ∧ s.tim.oc = true ∧ s.motor.currentFreq = 0 ∧
      ¬∀ x ∈ l, x.2.Booked := by
  refine ⟨session_path (by decide) pinMotor, by decide, by decide, by decide, fun h => ?_⟩
  have hbook := h _ (List.mem_singleton.mpr rfl)
  exact absurd (hbook.running_iff.mp (by decide)) (by decide)

end H750Stepper
