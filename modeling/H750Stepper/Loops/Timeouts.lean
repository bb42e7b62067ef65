import H750Stepper.Lib.Deadline
import H750Stepper.Driver.Sessions
import H750Stepper.Position.PositionLoop

/-!
# Timeouts

`stepper_motor_driver_home` and `position_loop_move_to` compute the tick at which their timeout is
over, and compare it with the tick counter in each round of their wait. The counter has 32 bits, the
deadline is reduced modulo `2 ^ 32`, and the comparison is a plain `>=`; and a timeout from `2 ^ 31`
milliseconds on is a negative argument of `rt_tick_from_millisecond`.

`timeouts_iff`: the timeout is reported in time exactly if at each poll the counter has not wrapped
between the poll and the deadline (`Unwrapped`).
-/

namespace H750Stepper

open Threads CInt Prog

/-! ## The ticks of a wait -/

/-- The instants at which a call has read the tick counter. -/
def tickReads (tr : List (MotorAct × MotorSys)) : List ℕ := readings .readTick MotorSys.clock tr

/-- The same in a position loop. -/
def posTickReads (tr : List (PosAct × PosSys)) : List ℕ :=
  readings (.drv .readTick) (fun s => s.drv.clock) tr

/-- The result of a call that has timed out. -/
def isTimeout (r : ℤ) : Bool := decide (r = motorEHomeTimeout)

/-- Of the instants at which a call has read the tick counter, the first is that of its deadline and
the others are its polls: it reports the timeout at the first poll that is at least `timeoutMs`
ticks after the deadline was computed, and at no other. -/
def InTime (timeoutMs : ℕ) (ticks : List ℕ) (timedOut : Bool) : Prop :=
  match ticks with
  | [] => timedOut = false
  | t₀ :: ts => Polled (fun t => t₀ + timeoutMs ≤ t) ts timedOut

/-- At each poll the counter has not wrapped between the poll and the deadline. -/
def NoWrap (timeoutMs : ℕ) (ticks : List ℕ) : Prop :=
  match ticks with
  | [] => True
  | t₀ :: ts => ∀ t ∈ ts, Unwrapped (2 ^ 32) t₀ timeoutMs (rtTickFromMillisecond timeoutMs) t

/-- The deadline that the code computes at the instant `t₀`. -/
def deadlineOf (timeoutMs t₀ : ℕ) : ℕ := (t₀ + rtTickFromMillisecond timeoutMs) % 2 ^ 32

/-- What the code tests at a poll. -/
def Late (timeoutMs t₀ t : ℕ) : Prop := deadlineOf timeoutMs t₀ ≤ t % 2 ^ 32

theorem rtTickFromMillisecond_bounds {timeoutMs : ℕ} (h : timeoutMs < 2 ^ 32) :
    timeoutMs ≤ rtTickFromMillisecond timeoutMs ∧ rtTickFromMillisecond timeoutMs < 2 ^ 32 := by
  unfold rtTickFromMillisecond
  split_ifs <;> omega

/-- The readings of a call that polls as the code does. -/
theorem inTime_iff {timeoutMs t₀ : ℕ} {ts : List ℕ} {timedOut : Bool} (h : timeoutMs < 2 ^ 32)
    (hts : (t₀ :: ts).Pairwise (· ≤ ·)) (hpolled : Polled (Late timeoutMs t₀) ts timedOut) :
    InTime timeoutMs (t₀ :: ts) timedOut ↔ NoWrap timeoutMs (t₀ :: ts) := by
  obtain ⟨hle, hlt⟩ := rtTickFromMillisecond_bounds h
  have hmin := (List.pairwise_cons.mp hts).1
  refine hpolled.iff.trans ?_
  exact forall₂_congr fun t ht => late_iff_due_iff (hmin t ht) hle hlt

/-! ## The environment -/

/-- Time passes, and other threads do what they like. -/
def MotorSys.Elapses (s s' : MotorSys) : Prop := s.clock ≤ s'.clock

/-- The same in a position loop. -/
def PosSys.Elapses (s s' : PosSys) : Prop := s.drv.clock ≤ s'.drv.clock

theorem MotorAct.clock_eff (l : MotorAct) (s : MotorSys) : (l.eff s).clock = s.clock := by
  have hacc : s.stepsAccumulate.clock = s.clock := by
    obtain ⟨total, last, h⟩ := s.stepsAccumulate_frame
    rw [h]
  cases l with
  | start =>
    show s.startSection.clock = s.clock
    unfold MotorSys.startSection
    split_ifs <;> rfl
  | setFrequency clamped =>
    show (s.setFrequencySection clamped).clock = s.clock
    unfold MotorSys.setFrequencySection MotorSys.freqWriteRaw
    split_ifs <;> exact hacc
  | stop | faultStop | disable | setDirection | getSteps | clearSteps => exact hacc
  | _ => rfl

theorem PosAct.clock_eff (l : PosAct) (s : PosSys) : (l.eff s).drv.clock = s.drv.clock := by
  cases l with
  | drv l => exact l.clock_eff s.drv
  | _ => rfl

/-! ## Homing -/

section Home

variable {timeoutMs t₀ : ℕ} {s s' : MotorSys} {tr : List (MotorAct × MotorSys)}

theorem deadlineAfter_runs (hT : 0 < timeoutMs) {deadline : ℕ}
    (h : (Motor.deadlineAfter timeoutMs).Runs MotorAct.eff MotorSys.Elapses s tr deadline s') :
    ∃ t₀, tickReads tr = [t₀] ∧ deadline = deadlineOf timeoutMs t₀ := by
  unfold Motor.deadlineAfter at h
  rw [if_pos hT] at h
  obtain ⟨s₁, -, rfl, hdeadline, -⟩ := runs_ask.mp h
  refine ⟨s₁.clock, readings_cons_self s₁ [], hdeadline.trans ?_⟩
  exact Nat.mod_add_mod s₁.clock (2 ^ 32) _

theorem expired_runs (hT : 0 < timeoutMs) {late : Bool}
    (h : (Motor.expired timeoutMs (deadlineOf timeoutMs t₀)).Runs MotorAct.eff MotorSys.Elapses s tr
      late s') :
    ∃ t, tickReads tr = [t] ∧ (late = true ↔ Late timeoutMs t₀ t) := by
  unfold Motor.expired at h
  rw [if_pos hT] at h
  obtain ⟨s₁, -, rfl, hlate, -⟩ := runs_ask.mp h
  refine ⟨s₁.clock, readings_cons_self s₁ [], ?_⟩
  rw [hlate]
  exact decide_eq_true_iff

/-- A round of the wait for the home pin leaves it at a late poll. -/
theorem homeRound_polled {homePin : ℤ} (hT : 0 < timeoutMs) {o : Option ℤ}
    (h : (Motor.homeRound homePin timeoutMs (deadlineOf timeoutMs t₀)).Runs MotorAct.eff
      MotorSys.Elapses s tr o s') :
    RoundPolled (Late timeoutMs t₀) isTimeout (tickReads tr) o := by
  unfold Motor.homeRound at h
  unfold tickReads
  obtain ⟨high, _, _, h, heq⟩ := h.skip_readings .readTick MotorSys.clock (by simp)
  rw [heq]
  cases high with
  | false =>
    obtain ⟨rfl, rfl, -⟩ := h
    exact roundPolled_leave rfl
  | true => exact roundPolled_wait rfl (by decide) (expired_runs hT) h

/-- Homing reads the tick counter for its deadline, and then as its wait does. -/
theorem home_polled {homePin homeDir : ℤ} {speedHz : ℕ} {backoffSteps : ℤ} {polls : ℕ}
    (hT : 0 < timeoutMs) {o : Option ℤ}
    (h : (Motor.home homePin homeDir speedHz backoffSteps timeoutMs polls).Runs MotorAct.eff
      MotorSys.Elapses s tr o s') :
    ∃ t₀ ts, tickReads tr = t₀ :: ts ∧ Polled (Late timeoutMs t₀) ts (o.elim false isTimeout) := by
  have hset : ∀ f, (Motor.setFrequency f).All (· ≠ .readTick) :=
    Motor.setFrequency_all (by simp) (by simp)
  unfold Motor.home Motor.setDirection Motor.enable at h
  dsimp only at h
  unfold tickReads
  obtain ⟨_, _, _, h, heq⟩ := h.skip_readings .readTick MotorSys.clock (by simp)
  rw [heq]
  obtain ⟨_, _, _, h, heq⟩ := h.skip_readings .readTick MotorSys.clock (by simp)
  rw [heq]
  obtain ⟨_, _, _, h, heq⟩ := h.skip_readings .readTick MotorSys.clock (by simp)
  rw [heq]
  obtain ⟨_, _, _, h, heq⟩ := h.skip_readings .readTick MotorSys.clock (hset _)
  rw [heq]
  obtain ⟨tr₁, deadline, _, _, hdeadline, hpoll, rfl⟩ := runs_bind.mp h
  obtain ⟨t₀, ht₀, hd⟩ := deadlineAfter_runs hT hdeadline
  obtain ⟨tr₂, r, _, tr₃, hwait, hleave, rfl⟩ := runs_bind.mp hpoll
  rw [hd] at hwait
  have hpolled := polled_poll (fun _ _ _ _ h => homeRound_polled hT h) hwait
  unfold tickReads at ht₀
  have hrest : readings .readTick MotorSys.clock tr₃ = [] ∧
      o.elim false isTimeout = r.elim false isTimeout := by
    cases r with
    | none =>
      obtain ⟨rfl, rfl, -⟩ := hleave
      exact ⟨rfl, rfl⟩
    | some r =>
      obtain ⟨_, _, _, h, heq⟩ := hleave.skip_readings .readTick MotorSys.clock (hset 0)
      rw [heq]
      by_cases hback : r = motorEOk ∧ backoffSteps > 0
      · rw [if_pos hback] at h
        obtain ⟨_, _, _, h, heq⟩ := h.skip_readings .readTick MotorSys.clock (by simp)
        rw [heq]
        obtain ⟨_, _, _, h, heq⟩ := h.skip_readings .readTick MotorSys.clock (hset _)
        rw [heq]
        obtain ⟨start, _, _, h, heq⟩ := h.skip_readings .readTick MotorSys.clock (by simp)
        rw [heq]
        obtain ⟨moved, _, _, h, heq⟩ := h.skip_readings .readTick MotorSys.clock
          (All.poll (by simp [Motor.backoffRound]))
        rw [heq, hback.1]
        cases moved with
        | none =>
          obtain ⟨rfl, rfl, -⟩ := h
          exact ⟨rfl, rfl⟩
        | some u =>
          obtain ⟨_, _, _, h, heq⟩ := h.skip_readings .readTick MotorSys.clock (hset 0)
          rw [heq]
          obtain ⟨_, _, _, h, heq⟩ := h.skip_readings .readTick MotorSys.clock (by simp)
          obtain ⟨rfl, rfl, -⟩ := h
          exact ⟨heq, by rw [hback.1]⟩
      · rw [if_neg hback] at h
        obtain ⟨_, _, _, h, heq⟩ := h.skip_readings .readTick MotorSys.clock (by simp)
        obtain ⟨rfl, rfl, -⟩ := h
        exact ⟨heq, rfl⟩
  refine ⟨t₀, readings .readTick MotorSys.clock tr₂, ?_, ?_⟩
  · rw [readings_append, readings_append, ht₀, hrest.1, List.append_nil]
    rfl
  · rw [hrest.2]
    exact hpolled

end Home

/-! ## Moves -/

section Move

variable {cfg : PosConfig} {timeoutMs t₀ : ℕ} {s s' : PosSys} {tr : List (PosAct × PosSys)}

/-- A run of a call in a position loop. -/
abbrev PosRuns {α : Type} (p : PosProg α) (s : PosSys) (tr : List (PosAct × PosSys)) (a : α)
    (s' : PosSys) : Prop := p.Runs PosAct.eff PosSys.Elapses s tr a s'

theorem posDeadlineAfter_runs (hT : 0 < timeoutMs) {deadline : ℕ}
    (h : PosRuns (PosLoop.drv (Motor.deadlineAfter timeoutMs)) s tr deadline s') :
    ∃ t₀, posTickReads tr = [t₀] ∧ deadline = deadlineOf timeoutMs t₀ := by
  unfold Motor.deadlineAfter at h
  rw [if_pos hT, PosLoop.drv_ask] at h
  obtain ⟨s₁, -, rfl, hdeadline, -⟩ := runs_ask.mp h
  refine ⟨s₁.drv.clock, readings_cons_self s₁ [], hdeadline.trans ?_⟩
  exact Nat.mod_add_mod s₁.drv.clock (2 ^ 32) _

theorem posExpired_runs (hT : 0 < timeoutMs) {late : Bool}
    (h : PosRuns (PosLoop.drv (Motor.expired timeoutMs (deadlineOf timeoutMs t₀))) s tr late s') :
    ∃ t, posTickReads tr = [t] ∧ (late = true ↔ Late timeoutMs t₀ t) := by
  unfold Motor.expired at h
  rw [if_pos hT, PosLoop.drv_ask] at h
  obtain ⟨s₁, -, rfl, hlate, -⟩ := runs_ask.mp h
  refine ⟨s₁.drv.clock, readings_cons_self s₁ [], ?_⟩
  rw [hlate]
  exact decide_eq_true_iff

/-- A round of the wait for the arrival leaves it at a late poll. -/
theorem moveRound_polled (hT : 0 < timeoutMs) {o : Option ℤ}
    (h : PosRuns (PosLoop.moveRound cfg timeoutMs (deadlineOf timeoutMs t₀)) s tr o s') :
    RoundPolled (Late timeoutMs t₀) isTimeout (posTickReads tr) o := by
  unfold PosLoop.moveRound at h
  unfold posTickReads
  obtain ⟨arrived, _, _, h, heq⟩ := h.skip_readings (.drv .readTick) (fun s => s.drv.clock)
    (by simp [PosLoop.isArrived, PosLoop.readTargetPos, PosLoop.readCurrentPos])
  rw [heq]
  cases arrived with
  | true =>
    obtain ⟨rfl, rfl, -⟩ := h
    exact roundPolled_leave rfl
  | false =>
    obtain ⟨rfl, heq⟩ | ⟨_, _, _, h, heq⟩ :=
      h.refused_or (.drv .readTick) (fun s => s.drv.clock) (by simp) <;> rw [heq]
    · exact roundPolled_leave rfl
    · exact roundPolled_wait rfl (by decide) (posExpired_runs hT) h

/-- A move reads the tick counter for its deadline, and then as its wait does; unless it is
refused. -/
theorem moveTo_polled {target : ℤ} {polls : ℕ} (hT : 0 < timeoutMs) {o : Option ℤ}
    (h : PosRuns (PosLoop.moveTo cfg target timeoutMs polls) s tr o s') :
    posTickReads tr = [] ∧ o.elim false isTimeout = false ∨
      ∃ t₀ ts, posTickReads tr = t₀ :: ts ∧
        Polled (Late timeoutMs t₀) ts (o.elim false isTimeout) := by
  unfold PosLoop.moveTo PosLoop.readRunning at h
  unfold posTickReads
  obtain ⟨running, _, _, h, heq⟩ :=
    h.skip_readings (.drv .readTick) (fun s => s.drv.clock) (by simp)
  rw [heq]
  cases running with
  | false =>
    obtain ⟨rfl, rfl, -⟩ := h
    exact .inl ⟨rfl, rfl⟩
  | true =>
    -- a fault, and a target below or above the limits
    obtain ⟨rfl, heq⟩ | ⟨_, _, _, h, heq⟩ :=
      h.refused_or (.drv .readTick) (fun s => s.drv.clock) (by simp) <;> rw [heq]
    · exact .inl ⟨rfl, rfl⟩
    obtain ⟨rfl, heq⟩ | ⟨_, _, _, h, heq⟩ :=
      h.refused_or (.drv .readTick) (fun s => s.drv.clock) (by simp) <;> rw [heq]
    · exact .inl ⟨rfl, rfl⟩
    obtain ⟨rfl, heq⟩ | ⟨_, _, _, h, heq⟩ :=
      h.refused_or (.drv .readTick) (fun s => s.drv.clock) (by simp) <;> rw [heq]
    · exact .inl ⟨rfl, rfl⟩
    unfold PosLoop.moveChecked at h
    obtain ⟨_, _, _, h, heq⟩ := h.skip_readings (.drv .readTick) (fun s => s.drv.clock)
      (by simp [PosLoop.setTarget, PosLoop.readRunning, PosLoop.readCurrentPos, Pid.reset,
        Pid.write])
    rw [heq]
    obtain ⟨tr₁, deadline, _, tr₂, hdeadline, hwait, rfl⟩ := runs_bind.mp h
    obtain ⟨t₀, ht₀, hd⟩ := posDeadlineAfter_runs hT hdeadline
    rw [hd] at hwait
    unfold posTickReads at ht₀
    rw [readings_append, ht₀]
    exact .inr ⟨t₀, _, rfl, polled_poll (fun _ _ _ _ h => moveRound_polled hT h) hwait⟩

end Move

/-! ## Both calls -/

/-- **Timeouts.** A homing call and a move with a timeout report it at the first poll that is at
least the timeout after the deadline was computed, and at no other, exactly if at each poll the tick
counter has not wrapped between the poll and the deadline. Other threads may do what they like. -/
theorem timeouts_iff (timeoutMs : ℕ) (hpos : 0 < timeoutMs) (hword : timeoutMs < 2 ^ 32) :
    (∀ homePin homeDir speedHz backoffSteps polls s tr o s',
      (Motor.home homePin homeDir speedHz backoffSteps timeoutMs polls).Runs MotorAct.eff
        MotorSys.Elapses s tr o s' →
      (InTime timeoutMs (tickReads tr) (o.elim false isTimeout) ↔
        NoWrap timeoutMs (tickReads tr))) ∧
    ∀ cfg target polls s tr o s',
      (PosLoop.moveTo cfg target timeoutMs polls).Runs PosAct.eff PosSys.Elapses s tr o s' →
      (InTime timeoutMs (posTickReads tr) (o.elim false isTimeout) ↔
        NoWrap timeoutMs (posTickReads tr)) := by
  constructor
  · intro homePin homeDir speedHz backoffSteps polls s tr o s' h
    have hsorted : (tickReads tr).Pairwise (· ≤ ·) :=
      h.readings_sorted MotorAct.clock_eff fun _ _ henv => henv
    obtain ⟨t₀, ts, hts, hpolled⟩ := home_polled hpos h
    rw [hts] at hsorted ⊢
    exact inTime_iff hword hsorted hpolled
  · intro cfg target polls s tr o s' h
    have hsorted : (posTickReads tr).Pairwise (· ≤ ·) :=
      h.readings_sorted PosAct.clock_eff fun _ _ henv => henv
    obtain ⟨hnil, hout⟩ | ⟨t₀, ts, hts, hpolled⟩ := moveTo_polled hpos h
    · rw [hnil, hout]
      exact iff_of_true rfl trivial
    · rw [hts] at hsorted ⊢
      exact inTime_iff hword hsorted hpolled

/-- A homing call with the home input on pin 3, at most one poll long. -/
def homeCall (timeoutMs : ℕ) : MotorProg (Option ℤ) :=
  Motor.home 3 motorDirCw 1000 0 timeoutMs 1

/-- A motor a tenth of a second before the tick counter wraps. -/
def lateMotor : MotorSys := { pinMotor with clock := 2 ^ 32 - 100 }

/-- A timeout that is over before the wrap. -/
theorem timeouts_iff_fifty :
    InTime 50 (tickReads ((homeCall 50).trace MotorAct.eff lateMotor))
        (((homeCall 50).exec MotorAct.eff lateMotor).1.elim false isTimeout) ↔
      NoWrap 50 (tickReads ((homeCall 50).trace MotorAct.eff lateMotor)) :=
  (timeouts_iff 50 (by decide) (by decide)).1 3 motorDirCw 1000 0 1 lateMotor _ _ _
    (runs_exec (fun s => Nat.le_refl s.clock) (homeCall 50) lateMotor)

/-- A timeout of one second, over after the wrap: it is reported at the first poll, at once. -/
theorem timeout_at_once :
    let tr := (homeCall 1000).trace MotorAct.eff lateMotor
    let r := (homeCall 1000).exec MotorAct.eff lateMotor
    (homeCall 1000).Runs MotorAct.eff MotorSys.Elapses lateMotor tr r.1 r.2 ∧
      r.1 = some motorEHomeTimeout ∧ tickReads tr = [2 ^ 32 - 100, 2 ^ 32 - 100] ∧
      ¬InTime 1000 (tickReads tr) (r.1.elim false isTimeout) := by
  intro tr r
  have hout : r.1 = some motorEHomeTimeout := by decide +kernel
  have hticks : tickReads tr = [2 ^ 32 - 100, 2 ^ 32 - 100] := by decide +kernel
  refine ⟨runs_exec (fun s => Nat.le_refl s.clock) _ _, hout, hticks, ?_⟩
  rw [hout, hticks]
  rintro ⟨ts₁, t, heq, -, ht⟩
  have hlast : 2 ^ 32 - 100 = t := by simpa using congrArg List.getLast? heq
  omega

end H750Stepper
