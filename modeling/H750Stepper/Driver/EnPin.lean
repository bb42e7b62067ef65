import H750Stepper.Driver.Sessions

/-!
# The enable flag and the EN pin

`enabled` is what the driver knows of its EN pin: `start` writes the pin only if the flag is clear.
`idle_tick` releases the pin of a motor that has been idle long enough and leaves the flag set, so
the next `start` outputs pulses to a motor without current.

`enabled_iff_en`: in a session the flag and the pin agree after every call exactly if no `idle_tick`
finds the idle time over on an enabled motor.
-/

namespace H750Stepper

open Threads Prog

/-! ## Sessions in which flag and pin agree -/

/-- `stepper_motor_driver_start` or `stepper_motor_driver_enable` has been called, and
`stepper_motor_driver_disable` has not been called since. -/
def Armed (cs : List MotorCall) : Prop :=
  ∃ cs₁ c cs₂, cs = cs₁ ++ c :: cs₂ ∧ (c = .start ∨ c = .enable) ∧ .disable ∉ cs₂

/-- The calls of a session. -/
def callsOf (l : List (CallRun × MotorSys)) : List MotorCall := l.map fun x => x.1.call

/-- After each call the flag is set exactly if the pin is HIGH, and after a start or an enable, up
to the next disable, no pulses are output while the pin is LOW. -/
structure EnAgrees (l : List (CallRun × MotorSys)) : Prop where
  agree : ∀ x ∈ l, (x.2.motor.enabled = true ↔ x.2.en = true)
  pulses : ∀ l₁ x l₂, l = l₁ ++ x :: l₂ → Armed (callsOf (l₁ ++ [x])) →
    x.2.motor.running = true → x.2.en = true

/-- The motor is stopped, and has been idle for the idle timeout. -/
def MotorSys.IdleOver (s : MotorSys) : Prop :=
  s.motor.idleReduce = true ∧ s.motor.running = false ∧
    rtTickFromMillisecond s.motor.idleTimeoutMs ≤
      CInt.uwrap 32 ((s.rtTickGet : ℤ) - s.motor.idleSince)

/-- An idle tick that finds, when it reads the tick counter, the idle time over and the motor
enabled. -/
def CallRun.Dozes (x : CallRun) : Prop :=
  x.call = .idleTick ∧ ∃ s, (.readTick, s) ∈ x.trace ∧ s.IdleOver ∧ s.motor.enabled = true

/-! ## One call -/

/-- Flag and pin agree. -/
def MotorSys.EnOk (s : MotorSys) : Prop := s.motor.enabled = true ↔ s.en = true

theorem enOk_later {s s' : MotorSys} (h : s.Later s') (hs : s.EnOk) : s'.EnOk :=
  h.owned (P := fun motor _ en => motor.enabled = true ↔ en = true) hs

namespace MotorAct

/-- Only `releaseEn` writes the pin without the flag. -/
theorem enOk_eff {l : MotorAct} (hl : l ≠ .releaseEn) {s : MotorSys} (hs : s.EnOk) :
    (l.eff s).EnOk := by
  have hacc : s.stepsAccumulate.EnOk := by
    obtain ⟨total, last, h⟩ := s.stepsAccumulate_frame
    rw [h]
    exact hs
  cases l with
  | start =>
    show s.startSection.motor.enabled = true ↔ s.startSection.en = true
    unfold MotorSys.startSection
    split_ifs with h
    · exact hs
    · exact iff_of_true rfl rfl
  | setFrequency clamped =>
    show (s.setFrequencySection clamped).EnOk
    unfold MotorSys.setFrequencySection MotorSys.freqWriteRaw
    split_ifs <;> exact hacc
  | enable => exact iff_of_true rfl rfl
  | disable => exact iff_of_false Bool.false_ne_true Bool.false_ne_true
  | releaseEn => exact absurd rfl hl
  | stop | faultStop | setDirection | getSteps | clearSteps => exact hacc
  | _ => exact hs

/-- Only `disable` clears the flag. -/
theorem enabled_eff {l : MotorAct} (hl : l ≠ .disable) {s : MotorSys}
    (hs : s.motor.enabled = true) : (l.eff s).motor.enabled = true := by
  have hacc : s.stepsAccumulate.motor.enabled = true := by
    obtain ⟨total, last, h⟩ := s.stepsAccumulate_frame
    rw [h]
    exact hs
  cases l with
  | start =>
    show s.startSection.motor.enabled = true
    unfold MotorSys.startSection
    rw [if_pos hs]
    exact hs
  | setFrequency clamped =>
    show (s.setFrequencySection clamped).motor.enabled = true
    unfold MotorSys.setFrequencySection MotorSys.freqWriteRaw
    split_ifs <;> exact hacc
  | disable => exact absurd rfl hl
  | stop | faultStop | setDirection | getSteps | clearSteps => exact hacc
  | enable => rfl
  | _ => exact hs

end MotorAct

/-- An idle tick looks at the motor, perhaps at the clock, and releases the pin if the idle time is
over. -/
theorem idleTick_cases {s s' : MotorSys} {tr : List (MotorAct × MotorSys)} {u : Unit}
    (h : Motor.idleTick.Runs MotorAct.eff MotorSys.Later s tr u s') :
    ∃ s₁, s.Later s₁ ∧ (tr = [(.test, s₁)] ∧ s' = s₁ ∨
      ∃ s₂ s₃, s₁.Later s₂ ∧ s₂.Later s₃ ∧
        (¬s₂.IdleOver ∧ tr = [(.test, s₁), (.readTick, s₂), (.test, s₃)] ∧ s' = s₃ ∨
          ∃ s₄, s₃.Later s₄ ∧ s₂.IdleOver ∧
            tr = [(.test, s₁), (.readTick, s₂), (.test, s₃), (.releaseEn, s₄)] ∧
            s' = { s₄ with en := false })) := by
  unfold Motor.idleTick at h
  rw [ask_bind, runs_act] at h
  obtain ⟨s₁, tr₁, hs₁, rfl, h⟩ := h
  refine ⟨s₁, hs₁, ?_⟩
  rw [MotorAct.eff_test] at h
  by_cases hskip : (!s₁.motor.idleReduce || s₁.motor.running) = true
  · rw [if_pos hskip] at h
    obtain ⟨rfl, -, rfl⟩ := h
    exact .inl ⟨rfl, rfl⟩
  · rw [if_neg hskip, ask_bind, runs_act] at h
    obtain ⟨s₂, tr₂, hs₂, rfl, h⟩ := h
    obtain ⟨s₃, hs₃, h⟩ := runs_ask_when.mp h
    rw [MotorAct.eff_test] at h
    have hover : s₂.IdleOver ↔ CInt.uwrap 32 ((s₂.rtTickGet : ℤ) - s₂.motor.idleSince) ≥
        rtTickFromMillisecond s₃.motor.idleTimeoutMs := by
      simp only [Bool.or_eq_true, Bool.not_eq_true', not_or, Bool.not_eq_false,
        Bool.not_eq_true] at hskip
      unfold MotorSys.IdleOver
      rw [hs₃.motor_eq, MotorAct.eff_readTick, hs₂.motor_eq]
      simp only [hskip, true_and]
    refine .inr ⟨s₂, s₃, hs₂, hs₃, ?_⟩
    rcases h with h | h
    · obtain ⟨tr₃, rfl, hrel⟩ := h.2
      obtain ⟨s₄, hs₄, rfl, rfl⟩ := runs_perform.mp hrel
      exact .inr ⟨s₄, hs₄, hover.mpr h.1, rfl, rfl⟩
    · exact .inl ⟨mt hover.mp h.1, h.2.1 ▸ rfl, h.2.2⟩

theorem idleTick_returns {s s' : MotorSys} {tr : List (MotorAct × MotorSys)} {u : Unit}
    (hs : s.EnOk) (h : Motor.idleTick.Runs MotorAct.eff MotorSys.Later s tr u s') :
    s'.EnOk ↔ ¬(⟨.idleTick, tr⟩ : CallRun).Dozes := by
  obtain ⟨s₁, hs₁, h⟩ := idleTick_cases h
  have hok₁ := enOk_later hs₁ hs
  unfold CallRun.Dozes
  obtain ⟨rfl, rfl⟩ | ⟨s₂, s₃, hs₂, hs₃, ⟨hover, rfl, rfl⟩ | ⟨s₄, hs₄, hover, rfl, rfl⟩⟩ := h
  · exact iff_of_true hok₁ (by simp)
  · exact iff_of_true (enOk_later hs₃ (enOk_later hs₂ hok₁)) (by simp [hover])
  · have hmotor : s₄.motor = s₂.motor := hs₄.motor_eq.trans hs₃.motor_eq
    unfold MotorSys.EnOk
    simp [hover, hmotor]

theorem MotorCall.idleTick_of_may {c : MotorCall} (h : c.May .releaseEn) : c = .idleTick := by
  cases c with
  | idleTick => rfl
  | brake d | home => exact h.elim
  | _ => simp [May] at h

theorem MotorCall.disable_of_may {c : MotorCall} (h : c.May .disable) : c = .disable := by
  cases c with
  | disable => rfl
  | brake d | home => exact h.elim
  | _ => simp [May] at h

theorem CallRun.Returns.enOk_iff {s s' : MotorSys} {x : CallRun} (hs : s.EnOk)
    (h : CallRun.Returns s x s') : s'.EnOk ↔ ¬x.Dozes := by
  by_cases hx : x.call = .idleTick
  · obtain ⟨c, tr⟩ := x
    obtain rfl : c = .idleTick := hx
    exact idleTick_returns hs h
  · refine iff_of_true ?_ fun hd => hx hd.1
    have hall : x.call.code.All (· ≠ .releaseEn) :=
      x.call.code_may.imp fun l hl hrel => hx (MotorCall.idleTick_of_may (hrel ▸ hl))
    exact h.inv hall (fun l hl s => MotorAct.enOk_eff hl) (fun _ _ => enOk_later) hs

/-- A call that is no disable leaves an enabled motor enabled. -/
theorem CallRun.Returns.enabled {s s' : MotorSys} {x : CallRun} (h : CallRun.Returns s x s')
    (hx : x.call ≠ .disable) (hs : s.motor.enabled = true) : s'.motor.enabled = true := by
  have hall : x.call.code.All (· ≠ .disable) :=
    x.call.code_may.imp fun l hl hdis => hx (MotorCall.disable_of_may (hdis ▸ hl))
  exact h.inv (I := fun s => s.motor.enabled = true) hall (fun l hl s => MotorAct.enabled_eff hl)
    (fun s s' hk hs => by rwa [hk.motor_eq]) hs

/-- After a start or an enable the motor is enabled. -/
theorem CallRun.Returns.enabled_of_start {s s' : MotorSys} {x : CallRun}
    (h : CallRun.Returns s x s') (hx : x.call = .start ∨ x.call = .enable) :
    s'.motor.enabled = true := by
  obtain ⟨c, tr⟩ := x
  rcases hx with hx | hx <;> obtain rfl := hx
  · obtain ⟨s₁, -, -, rfl⟩ := runs_perform.mp h
    show s₁.startSection.motor.enabled = true
    unfold MotorSys.startSection
    split_ifs with hs
    · exact hs
    · rfl
  · obtain ⟨s₁, -, -, rfl⟩ := runs_perform.mp h
    rfl

/-! ## Sessions -/

/-- An armed motor is enabled. -/
theorem enabled_of_armed {s : MotorSys} {l : List (CallRun × MotorSys)} (h : MotorSession s l)
    (hl : Armed (callsOf l)) : (lastState s l).motor.enabled = true := by
  obtain ⟨cs₁, c, cs₂, hcs, hc, hdis⟩ := hl
  obtain ⟨l₁, l', rfl, rfl, hl'⟩ := List.map_eq_append_iff.mp hcs
  obtain ⟨x, l₂, rfl, rfl, rfl⟩ := List.map_eq_cons_iff.mp hl'
  rw [lastState_append]
  obtain ⟨hx, hl₂⟩ := (path_append.mp h).2
  have hlabels := hl₂.with_labels (P := fun x => x.call ≠ .disable) fun y hy hd =>
    hdis (List.mem_map.mpr ⟨y, hy, hd⟩)
  refine hlabels.last (I := fun s => s.motor.enabled = true) ?_ (hx.enabled_of_start hc)
  exact fun s c s' hs hc => hc.2.enabled hc.1 hs

/-- **The EN pin.** In every session after init, the enable flag agrees with the EN pin after each
call, and no pulses are output to a released motor between a start or an enable and the next
disable, exactly if no idle tick finds the idle time over on an enabled motor. -/
theorem enabled_iff_en (s₀ : MotorSys) (timClk : ℕ) (faultPin : ℤ) (dirInvert : Bool)
    (l : List (CallRun × MotorSys)) (hl : MotorSession (s₀.init timClk faultPin dirInvert) l) :
    EnAgrees l ↔ ∀ x ∈ l, ¬x.1.Dozes := by
  have hinit : (s₀.init timClk faultPin dirInvert).EnOk :=
    iff_of_false Bool.false_ne_true Bool.false_ne_true
  have hagree : (∀ x ∈ l, x.2.EnOk) ↔ Meets (fun _ x => ¬CallRun.Dozes x) _ l :=
    hl.forall_iff (fun _ _ _ hs hx => hx.enOk_iff hs) hinit
  rw [meets_labels] at hagree
  constructor
  · exact fun h => hagree.mp h.agree
  · intro h
    refine ⟨hagree.mpr h, ?_⟩
    rintro l₁ x l₂ rfl harmed -
    have hx : x.2.EnOk := hagree.mpr h x (by simp)
    rw [List.append_cons] at hl
    have hen := enabled_of_armed (path_append.mp hl).1 harmed
    rw [lastState_append] at hen
    exact hx.mp hen

/-- An idle tick five milliseconds too early. -/
def earlyIdle : List MotorCall :=
  [.setIdleReduce true 5, .start, .setFrequency 1000, .stop, .idleTick, .start]

theorem enabled_iff_en_early :
    EnAgrees (session pinMotor earlyIdle) ↔ ∀ x ∈ session pinMotor earlyIdle, ¬x.1.Dozes :=
  enabled_iff_en MotorSys.zeroed 200000000 7 false _ (session_path (by decide) pinMotor)

/-- An idle tick in time, before the motor is started again. -/
def lateIdle : List MotorCall := [.setIdleReduce true 0, .start, .stop, .idleTick, .start]

/-- The second start outputs pulses while the pin is LOW. -/
theorem en_released_while_running :
    let l := session pinMotor lateIdle
    let s := lastState pinMotor l
    MotorSession pinMotor l ∧ s.motor.running = true ∧ s.motor.enabled = true ∧ s.en = false ∧
      ¬EnAgrees l := by
  refine ⟨session_path (by decide) pinMotor, by decide +kernel, by decide +kernel,
    by decide +kernel, fun h => ?_⟩
  obtain ⟨x, hx, hlast⟩ :=
    exists_lastState (s := pinMotor) (l := session pinMotor lateIdle) (by simp [session, lateIdle])
  have hagree := h.agree x hx
  rw [hlast] at hagree
  exact absurd (hagree.mp (by decide +kernel)) (by decide +kernel)

end H750Stepper
