import H750Stepper.Lib.Script
import H750Stepper.Driver.Prescaler
import H750Stepper.Driver.Sessions
import H750Stepper.Driver.StepCount

/-!
# Backing off after homing

After the wait for the home pin `stepper_motor_driver_home` turns back at half its speed and polls
the step counter, once per delay, until `backoff_steps` steps are counted. The loop has no timeout.
A poll counts the pulses since the one before as an integer, and forgets the rest; one tick later
that is 0 pulses below 1000 Hz.

`backoff_iff`: the motor backs off and stops, whatever happens beside the call, exactly if it homes
in one of the two directions at 2000 Hz or more.
-/

namespace H750Stepper

open Threads CInt
open Prog (ask perform poll)

/-! ## The parts of a homing call -/

namespace Motor

/-- The speed of the search for the home pin. -/
def homingSpeed (speedHz : ℕ) : ℕ := if speedHz < motorMinFreqHz then motorMinFreqHz else speedHz

/-- The start of the search, with the deadline of the wait. -/
def depart (homeDir : ℤ) (speedHz timeoutMs : ℕ) : MotorProg ℕ := do
  perform (.setState .homing)
  setDirection homeDir
  enable
  let _ ← setFrequency (homingSpeed speedHz)
  deadlineAfter timeoutMs

/-- The search for the home pin, up to the stop after it. -/
def seek (homePin homeDir : ℤ) (speedHz timeoutMs polls : ℕ) : MotorProg (Option ℤ) := do
  let deadline ← depart homeDir speedHz timeoutMs
  match ← poll polls (homeRound homePin timeoutMs deadline) with
  | none => return none
  | some ret =>
    let _ ← setFrequency 0
    return some ret

/-- The start of the back-off, with the step count that it notes. -/
def turnBack (homeDir : ℤ) (speedHz : ℕ) : MotorProg ℤ := do
  setDirection (if homeDir = motorDirCw then motorDirCcw else motorDirCw)
  let _ ← setFrequency (homingSpeed speedHz / 2)
  ask .getSteps fun s => s.motor.totalSteps

/-- The step count that ends the back-off. -/
def backoffTarget (homeDir start backoffSteps : ℤ) : ℤ :=
  if homeDir = motorDirCw then start - backoffSteps else start + backoffSteps

/-- The stop at the end. -/
def halt : MotorProg Unit := do
  let _ ← setFrequency 0
  perform (.setState .idle)

/-- The loop of the back-off and the stop after it. -/
def backOff (homeDir start backoffSteps : ℤ) (polls : ℕ) (ret : ℤ) : MotorProg (Option ℤ) := do
  match ← poll polls (backoffRound homeDir (backoffTarget homeDir start backoffSteps)) with
  | none => return none
  | some () =>
    halt
    return some ret

/-- What follows the wait. -/
def settle (homeDir : ℤ) (speedHz : ℕ) (backoffSteps : ℤ) (polls : ℕ) :
    Option ℤ → MotorProg (Option ℤ)
  | none => return none
  | some ret =>
    if ret = motorEOk ∧ backoffSteps > 0 then do
      let start ← turnBack homeDir speedHz
      backOff homeDir start backoffSteps polls ret
    else do
      perform (.setState .idle)
      return some ret

theorem home_eq (homePin homeDir : ℤ) (speedHz : ℕ) (backoffSteps : ℤ) (timeoutMs polls : ℕ) :
    home homePin homeDir speedHz backoffSteps timeoutMs polls =
      seek homePin homeDir speedHz timeoutMs polls >>=
        settle homeDir speedHz backoffSteps polls := by
  unfold home seek depart
  dsimp only
  simp only [Prog.bind_assoc]
  refine bind_congr fun _ => bind_congr fun _ => bind_congr fun _ => bind_congr fun _ =>
    bind_congr fun deadline => bind_congr fun o => ?_
  cases o with
  | none => rfl
  | some ret =>
    rw [Prog.bind_assoc]
    refine bind_congr fun _ => ?_
    show _ = settle homeDir speedHz backoffSteps polls (some ret)
    unfold settle turnBack backOff halt
    dsimp only
    simp only [Prog.bind_assoc]
    rfl

end Motor

/-! ## What happens beside the call -/

/-- The ticks that pass. -/
def MotorEnv.ticks : MotorEnv → ℕ
  | .elapse n => n
  | .level .. => 0

def elapsed (es : List MotorEnv) : ℕ := (es.map MotorEnv.ticks).sum

/-- The events after each action of a homing call. A delay takes at least one tick, and the tick
counter of the next poll is not the same again. -/
structure Polling where
  events : ℕ → MotorAct → List MotorEnv
  sleeps : ∀ i, 0 < elapsed (events i .delay)
  wakes : ∀ i, (elapsed (events i .getSteps) + elapsed (events (i + 1) .delay)) % 2 ^ 32 ≠ 0

/-- Each action turns the page. -/
def Polling.script (w : Polling) (i : ℕ) (l : MotorAct) : List MotorEnv × ℕ :=
  (w.events i l, i + 1)

/-- The run of a program beside these events. -/
abbrev Polling.run (w : Polling) {α : Type} (p : MotorProg α) (x : ℕ × MotorSys) :
    α × ℕ × MotorSys :=
  Prog.play MotorAct.eff MotorEnv.eff w.script p x

theorem Polling.run_bind (w : Polling) {α β : Type} (p : MotorProg α) (g : α → MotorProg β)
    (x : ℕ × MotorSys) : w.run (p >>= g) x = w.run (g (w.run p x).1) (w.run p x).2 :=
  Prog.play_bind ..

/-- The motor has been backed off from the step count `start`, and stopped. -/
structure BackedOff (homeDir start backoffSteps : ℤ) (s : MotorSys) : Prop where
  off : s.Off
  channel : s.tim.oc = false
  idle : s.motor.state = .idle
  cw : homeDir = motorDirCw → s.motor.totalSteps ≤ start - backoffSteps
  ccw : homeDir = motorDirCcw → start + backoffSteps ≤ s.motor.totalSteps

theorem after_later (es : List MotorEnv) (s : MotorSys) : s.Later (after MotorEnv.eff es s) :=
  ⟨es, rfl⟩

@[simp] theorem after_motor (es : List MotorEnv) (s : MotorSys) :
    (after MotorEnv.eff es s).motor = s.motor := (after_later es s).motor_eq

@[simp] theorem after_tim (es : List MotorEnv) (s : MotorSys) :
    (after MotorEnv.eff es s).tim = s.tim :=
  (after_later es s).owned (P := fun _ tim _ => tim = s.tim) rfl

theorem after_clock (es : List MotorEnv) (s : MotorSys) :
    (after MotorEnv.eff es s).clock = s.clock + elapsed es := by
  induction es generalizing s with
  | nil => rfl
  | cons e es ih =>
    have htail : (after MotorEnv.eff (e :: es) s).clock = (e.eff s).clock + elapsed es :=
      ih (e.eff s)
    have hsum : elapsed (e :: es) = e.ticks + elapsed es := rfl
    rw [htail, hsum]
    cases e with
    | elapse n => exact Nat.add_assoc ..
    | level pin high => exact congrArg (s.clock + ·) (Nat.zero_add _).symm

/-! ## The homing call up to its loop -/

/-- No fault is recorded, and the last tick is a word. -/
structure MotorSys.Ready (s : MotorSys) : Prop where
  fault : s.motor.faultState = .none
  last : s.motor.lastTick < 2 ^ 32

namespace MotorSys

theorem rtTickGet_lt (s : MotorSys) : s.rtTickGet < 2 ^ 32 := Nat.mod_lt _ (by norm_num)

theorem Ready.accumulate {s : MotorSys} (h : s.Ready) : s.stepsAccumulate.Ready := by
  rw [stepsAccumulate_eq h.last]
  exact ⟨h.fault, s.rtTickGet_lt⟩

theorem Ready.later {s s' : MotorSys} (h : s.Ready) (hs : s.Later s') : s'.Ready := by
  refine ⟨?_, ?_⟩ <;> rw [hs.motor_eq]
  · exact h.fault
  · exact h.last

end MotorSys

/-- A homing call records no fault. -/
theorem MotorAct.Homes.ready {l : MotorAct} (hl : l.Homes) {s : MotorSys} (h : s.Ready) :
    (l.eff s).Ready := by
  have hacc := h.accumulate
  cases l with
  | setFrequency clamped =>
    obtain ⟨state, since, hmotor⟩ := s.setFrequencySection_motor clamped
    refine ⟨?_, ?_⟩ <;> rw [eff, hmotor]
    · exact hacc.fault
    · exact hacc.last
  | setDirection direction => exact ⟨hacc.fault, hacc.last⟩
  | getSteps => exact hacc
  | setState state => exact ⟨h.fault, h.last⟩
  | enable => exact ⟨h.fault, h.last⟩
  | testFault | readTick | readHomePin | delay => exact h
  | _ => exact hl.elim

namespace Polling

variable (w : Polling)

/-- What the actions of a homing call and the events keep. -/
theorem run_ready {α : Type} {p : MotorProg α} (hp : p.All MotorAct.Homes) {x : ℕ × MotorSys}
    (hx : x.2.Ready) : (w.run p x).2.2.Ready :=
  Prog.play_inv _ _ _ hp (fun _ hl _ hs => hl.ready hs)
    (fun _ _ _ e _ _ hs => hs.later (after_later [e] _)) hx

/-- A request without a fault. -/
theorem run_setFrequency (freqHz : ℕ) {x : ℕ × MotorSys} (hx : x.2.Ready) :
    ∃ n s, (w.run (Motor.setFrequency freqHz) x).2.2 =
      after MotorEnv.eff (w.events n (.setFrequency (Motor.clampFreq freqHz).1))
        (s.setFrequencySection (Motor.clampFreq freqHz).1) ∧ x.2.Later s := by
  unfold run Motor.setFrequency
  dsimp only
  by_cases hpos : (Motor.clampFreq freqHz).1 > 0
  · rw [if_pos hpos, Prog.ask_bind, Prog.play_act]
    have hfault : (MotorAct.testFault.eff x.2).motor.faultState = .none := hx.fault
    rw [hfault, if_neg (not_not.mpr rfl)]
    exact ⟨_, _, rfl, after_later _ _⟩
  · rw [if_neg hpos]
    exact ⟨_, _, rfl, MotorSys.later_refl _⟩

end Polling

/-! ## The loop -/

/-- The frequency of the back-off. -/
def backFreq (speedHz : ℕ) : ℕ := (Motor.clampFreq (Motor.homingSpeed speedHz / 2)).1

theorem backFreq_ge_iff (speedHz : ℕ) : 1000 ≤ backFreq speedHz ↔ 2000 ≤ speedHz := by
  unfold backFreq Motor.clampFreq Motor.homingSpeed motorMinFreqHz motorMaxFreqHz
  dsimp only
  split_ifs <;> dsimp only <;> omega

/-- The motor is backing off at `freq` after homing in the direction `homeDir`. -/
structure MotorSys.Backing (homeDir : ℤ) (freq : ℕ) (s : MotorSys) : Prop extends s.Ready where
  freq : s.motor.currentFreq = freq
  dir : s.motor.currentDir = if homeDir = motorDirCw then motorDirCcw else motorDirCw

/-- The steps counted in the current direction. -/
def MotorSys.headway (s : MotorSys) : ℤ := s.motor.signed s.motor.totalSteps

/-- The steps that the next poll adds. -/
def MotorSys.strides (s : MotorSys) : ℕ :=
  if s.motor.lastTick = 0 then 0
  else s.motor.currentFreq * uwrap 32 ((s.rtTickGet : ℤ) - s.motor.lastTick) / rtTickPerSecond

namespace MotorSys

variable {homeDir target : ℤ} {freq : ℕ} {s s' : MotorSys}

theorem increment_eq_strides (s : MotorSys) : s.increment = s.motor.signed s.strides := by
  unfold increment strides
  split_ifs
  · simp [Motor.signed]
  · rfl

theorem headway_accumulate (h : s.Ready) : s.stepsAccumulate.headway = s.headway + s.strides := by
  have hsigned : s.motor.signed (s.motor.signed s.strides) = s.strides := by
    unfold Motor.signed
    split_ifs <;> ring
  rw [stepsAccumulate_eq h.last]
  show s.motor.signed (s.motor.totalSteps + s.increment) = _
  rw [Motor.signed_add, increment_eq_strides, hsigned]
  rfl

namespace Backing

theorem accumulate (h : s.Backing homeDir freq) : s.stepsAccumulate.Backing homeDir freq := by
  refine ⟨h.toReady.accumulate, ?_, ?_⟩ <;> rw [stepsAccumulate_eq h.last]
  · exact h.freq
  · exact h.dir

theorem later (h : s.Backing homeDir freq) (hs : s.Later s') : s'.Backing homeDir freq := by
  refine ⟨h.toReady.later hs, ?_, ?_⟩ <;> rw [hs.motor_eq]
  · exact h.freq
  · exact h.dir

theorem headway_eq (h : s.Backing homeDir freq) : s.headway =
    if homeDir = motorDirCw then -s.motor.totalSteps else s.motor.totalSteps := by
  unfold headway Motor.signed
  rw [h.dir]
  by_cases hcw : homeDir = motorDirCw
  · rw [if_pos hcw, if_pos rfl, if_pos hcw]
  · rw [if_neg hcw, if_neg (by decide), if_neg hcw]

/-- From 1000 Hz on, a poll at another tick counts a step, or it is the first after tick 0. -/
theorem rises (h : s.Backing homeDir freq) (hfreq : 1000 ≤ freq)
    (hfresh : s.rtTickGet ≠ s.motor.lastTick) :
    2 * s.headway + (if s.motor.lastTick = 0 then 0 else 1) <
      2 * s.stepsAccumulate.headway + (if s.rtTickGet = 0 then 0 else 1) := by
  rw [headway_accumulate h.toReady]
  unfold strides
  by_cases h0 : s.motor.lastTick = 0
  · rw [if_pos h0, if_pos h0, if_neg (h0 ▸ hfresh)]
    push_cast
    omega
  · have hticks : 1 ≤ uwrap 32 ((s.rtTickGet : ℤ) - s.motor.lastTick) := by
      have hcast := uwrap_cast 32 ((s.rtTickGet : ℤ) - s.motor.lastTick)
      have hnow := s.rtTickGet_lt
      have hlast := h.last
      omega
    have hsteps : 1 ≤ s.motor.currentFreq * uwrap 32 ((s.rtTickGet : ℤ) - s.motor.lastTick) /
        rtTickPerSecond := by
      rw [h.freq, Nat.le_div_iff_mul_le (by decide), one_mul]
      exact Nat.mul_le_mul hfreq hticks
    rw [if_neg h0, if_neg h0]
    split_ifs <;> omega

end Backing

end MotorSys

/-- The test that ends the loop. -/
def BackoffDone (homeDir target : ℤ) (s : MotorSys) : Prop :=
  (homeDir = motorDirCw ∧ s.motor.totalSteps ≤ target) ∨
    (homeDir = motorDirCcw ∧ s.motor.totalSteps ≥ target)

instance (homeDir target : ℤ) (s : MotorSys) : Decidable (BackoffDone homeDir target s) :=
  inferInstanceAs (Decidable (_ ∨ _))

/-- The headway that ends the loop. -/
def backoffGoal (homeDir target : ℤ) : ℤ := if homeDir = motorDirCw then -target else target

theorem backoffDone_iff {homeDir target : ℤ} {freq : ℕ} {s : MotorSys} (h : s.Backing homeDir freq)
    (hdir : homeDir = motorDirCw ∨ homeDir = motorDirCcw) :
    BackoffDone homeDir target s ↔ backoffGoal homeDir target ≤ s.headway := by
  rw [h.headway_eq]
  unfold BackoffDone backoffGoal
  rcases hdir with rfl | rfl
  · rw [if_pos rfl, if_pos rfl]
    simp [motorDirCw, motorDirCcw]
  · rw [if_neg (by decide), if_neg (by decide)]
    simp [motorDirCw, motorDirCcw]

namespace Polling

variable (w : Polling) (homeDir target : ℤ) (x : ℕ × MotorSys)

/-- One poll. -/
theorem run_backoffRound : w.run (Motor.backoffRound homeDir target) x =
    let s := after MotorEnv.eff (w.events x.1 .getSteps) x.2.stepsAccumulate
    if BackoffDone homeDir target x.2.stepsAccumulate then (some (), x.1 + 1, s)
    else (none, x.1 + 2, after MotorEnv.eff (w.events (x.1 + 1) .delay) s) := by
  unfold Motor.backoffRound run
  rw [Prog.ask_bind, Prog.play_act]
  show Prog.play _ _ _ (if BackoffDone homeDir target x.2.stepsAccumulate then _ else _) _ = _
  split_ifs <;> rfl

variable {w homeDir target x}

/-- A poll that does not end the loop. -/
theorem run_backoffRound_none (h : (w.run (Motor.backoffRound homeDir target) x).1 = none) :
    ¬BackoffDone homeDir target x.2.stepsAccumulate ∧
      (w.run (Motor.backoffRound homeDir target) x).2 = (x.1 + 2,
        after MotorEnv.eff (w.events (x.1 + 1) .delay)
          (after MotorEnv.eff (w.events x.1 .getSteps) x.2.stepsAccumulate)) := by
  rw [run_backoffRound] at h ⊢
  dsimp only at h ⊢
  by_cases hreached : BackoffDone homeDir target x.2.stepsAccumulate
  · rw [if_pos hreached] at h
    cases h
  · rw [if_neg hreached]
    exact ⟨hreached, rfl⟩

/-- Where the poll number `n` begins. -/
abbrev pollAt (w : Polling) (homeDir target : ℤ) (n : ℕ) (x : ℕ × MotorSys) : ℕ × MotorSys :=
  Prog.rounds MotorAct.eff MotorEnv.eff w.script (Motor.backoffRound homeDir target) n x

theorem run_backoffRound_backing {freq : ℕ} (hx : x.2.Backing homeDir freq) :
    (w.run (Motor.backoffRound homeDir target) x).2.2.Backing homeDir freq := by
  rw [run_backoffRound]
  dsimp only
  have hread := hx.accumulate.later (after_later (w.events x.1 .getSteps) _)
  split_ifs
  · exact hread
  · exact hread.later (after_later _ _)

theorem pollAt_backing (target : ℤ) {freq : ℕ} (hx : x.2.Backing homeDir freq) (n : ℕ) :
    (w.pollAt homeDir target n x).2.Backing homeDir freq := by
  induction n with
  | zero => exact hx
  | succ n ih =>
    rw [pollAt, Prog.rounds_succ]
    exact run_backoffRound_backing ih

/-- The measure of the loop. -/
def rise (x : ℕ × MotorSys) : ℤ := 2 * x.2.headway + if x.2.motor.lastTick = 0 then 0 else 1

/-- Between two polls, with the end of the loop not reached. -/
structure Behind (homeDir target : ℤ) (freq : ℕ) (x : ℕ × MotorSys) : Prop where
  backing : x.2.Backing homeDir freq
  fresh : x.2.rtTickGet ≠ x.2.motor.lastTick
  behind : x.2.headway < backoffGoal homeDir target

theorem Behind.rise_le {freq : ℕ} (h : Behind homeDir target freq x) :
    rise x ≤ 2 * backoffGoal homeDir target := by
  have hbehind := h.behind
  unfold rise
  split_ifs <;> omega

/-- What a poll that does not end the loop leaves to the next one. -/
theorem run_waits (hx : x.2.Ready)
    (h : (w.run (Motor.backoffRound homeDir target) x).1 = none) :
    let y := (w.run (Motor.backoffRound homeDir target) x).2
    y.2.motor.lastTick = x.2.rtTickGet ∧ y.2.headway = x.2.stepsAccumulate.headway ∧
      y.2.clock = x.2.clock + elapsed (w.events x.1 .getSteps) +
        elapsed (w.events (x.1 + 1) .delay) := by
  intro y
  have hy : y = _ := (run_backoffRound_none h).2
  have hmotor : y.2.motor = x.2.stepsAccumulate.motor := by rw [hy, after_motor, after_motor]
  refine ⟨?_, ?_, ?_⟩
  · rw [hmotor, MotorSys.stepsAccumulate_eq hx.last]
  · rw [MotorSys.headway, hmotor]
    rfl
  · rw [hy, after_clock, after_clock, MotorSys.stepsAccumulate_eq hx.last]

/-- A poll that does not end the loop raises the measure, except perhaps the first. -/
theorem Behind.step {freq : ℕ} (hdir : homeDir = motorDirCw ∨ homeDir = motorDirCcw)
    (hfreq : 1000 ≤ freq) (hx : x.2.Backing homeDir freq)
    (h : (w.run (Motor.backoffRound homeDir target) x).1 = none) :
    Behind homeDir target freq (w.run (Motor.backoffRound homeDir target) x).2 ∧
      (x.2.rtTickGet ≠ x.2.motor.lastTick →
        rise x < rise (w.run (Motor.backoffRound homeDir target) x).2) := by
  obtain ⟨hlast, hhead, hclock⟩ := run_waits hx.toReady h
  refine ⟨⟨run_backoffRound_backing hx, ?_, ?_⟩, fun hfresh => ?_⟩
  · have hwakes := w.wakes x.1
    rw [hlast]
    unfold MotorSys.rtTickGet
    omega
  · rw [hhead]
    exact lt_of_not_ge fun hle =>
      (run_backoffRound_none h).1 ((backoffDone_iff hx.accumulate hdir).mpr hle)
  · unfold rise
    rw [hhead, hlast]
    exact hx.rises hfreq hfresh

/-- From 1000 Hz on the loop ends. -/
theorem exists_backoffRound (target : ℤ) {freq : ℕ}
    (hdir : homeDir = motorDirCw ∨ homeDir = motorDirCcw) (hfreq : 1000 ≤ freq)
    (hx : x.2.Backing homeDir freq) :
    ∃ n, (w.run (Motor.backoffRound homeDir target) (w.pollAt homeDir target n x)).1 ≠ none := by
  by_cases hfirst : (w.run (Motor.backoffRound homeDir target) x).1 = none
  · obtain ⟨n, hn⟩ := Prog.exists_round_ne_none (I := Behind homeDir target freq)
      (fun y hy h => ⟨(Behind.step hdir hfreq hy.backing h).1,
        (Behind.step hdir hfreq hy.backing h).2 hy.fresh⟩)
      (fun y hy => hy.rise_le) (Behind.step hdir hfreq hx hfirst).1
    exact ⟨n + 1, hn⟩
  · exact ⟨0, hfirst⟩

/-- The poll that ends the loop. -/
theorem run_backoffRound_some {b : Unit}
    (h : (w.run (Motor.backoffRound homeDir target) x).1 = some b) :
    BackoffDone homeDir target (w.run (Motor.backoffRound homeDir target) x).2.2 := by
  rw [run_backoffRound] at h ⊢
  dsimp only at h ⊢
  by_cases hreached : BackoffDone homeDir target x.2.stepsAccumulate
  · rw [if_pos hreached]
    unfold BackoffDone
    rw [after_motor]
    exact hreached
  · rw [if_neg hreached] at h
    cases h

/-- The stop after the loop. -/
theorem run_halt {freq : ℕ} {start backoffSteps : ℤ} (hx : x.2.Backing homeDir freq)
    (hreached : BackoffDone homeDir (Motor.backoffTarget homeDir start backoffSteps) x.2) :
    BackedOff homeDir start backoffSteps (w.run Motor.halt x).2.2 := by
  obtain ⟨n, s, hrun, hs⟩ := w.run_setFrequency 0 hx.toReady
  have hstop : Motor.clampFreq 0 = (0, motorEOk) := rfl
  rw [hstop] at hrun
  obtain ⟨state, since, hmotor⟩ := s.setFrequencySection_motor 0
  have hback := hx.later hs
  have hacc := hback.accumulate
  have hgain : x.2.headway ≤ s.stepsAccumulate.headway := by
    rw [MotorSys.headway_accumulate hback.toReady, MotorSys.headway, MotorSys.headway, hs.motor_eq]
    omega
  rw [hx.headway_eq, hacc.headway_eq] at hgain
  unfold BackoffDone Motor.backoffTarget at hreached
  unfold Motor.halt
  rw [w.run_bind]
  show BackedOff _ _ _ (after _ _ (MotorAct.eff _ (w.run _ x).2.2))
  rw [hrun]
  constructor
  · constructor <;> rw [after_motor, MotorAct.eff, after_motor, hmotor]
    rfl
  · rw [after_tim, MotorAct.eff, after_tim]
    rfl
  · rw [after_motor]
    rfl
  · intro hcw
    rw [after_motor, MotorAct.eff, after_motor, hmotor]
    rw [if_pos hcw, if_pos hcw] at hgain
    rw [if_pos hcw] at hreached
    rcases hreached with ⟨-, hle⟩ | ⟨hccw, -⟩
    · exact le_trans (neg_le_neg_iff.mp hgain) hle
    · rw [hcw] at hccw
      cases hccw
  · intro hccw
    have hcw : homeDir ≠ motorDirCw := by rw [hccw]; decide
    rw [after_motor, MotorAct.eff, after_motor, hmotor]
    rw [if_neg hcw, if_neg hcw] at hgain
    rw [if_neg hcw] at hreached
    rcases hreached with ⟨hcw', -⟩ | ⟨-, hge⟩
    · exact absurd hcw' hcw
    · exact le_trans hge hgain

/-- From 1000 Hz on the motor is backed off and stopped. -/
theorem run_backOff {freq : ℕ} (hdir : homeDir = motorDirCw ∨ homeDir = motorDirCcw)
    (hfreq : 1000 ≤ freq) (hx : x.2.Backing homeDir freq) (start backoffSteps ret : ℤ) :
    ∃ m, ∀ polls > m, ∃ y, w.run (Motor.backOff homeDir start backoffSteps polls ret) x =
      (some ret, y) ∧ BackedOff homeDir start backoffSteps y.2 := by
  obtain ⟨n, hn⟩ := exists_backoffRound (w := w) (Motor.backoffTarget homeDir start backoffSteps)
    hdir hfreq hx
  obtain ⟨m, b, hm, hpoll⟩ := Prog.exists_play_poll hn
  refine ⟨m, fun polls hpolls => ?_⟩
  have hlast := pollAt_backing (w := w) (Motor.backoffTarget homeDir start backoffSteps) hx (m + 1)
  have hreached := run_backoffRound_some hm
  rw [← Prog.rounds_succ] at hreached
  refine ⟨_, ?_, run_halt (w := w) hlast hreached⟩
  unfold Motor.backOff
  rw [w.run_bind, show w.run (poll polls _) x = _ from hpoll polls hpolls]
  exact w.run_bind Motor.halt _ _

/-! ## The whole call -/

/-- The turn ends with a reading of the step count of a motor that backs off. -/
theorem run_turnBack (w : Polling) (homeDir : ℤ) (speedHz : ℕ) (hx : x.2.Ready) :
    ∃ (i : ℕ) (z : MotorSys), z.Backing homeDir (backFreq speedHz) ∧
      w.run (Motor.turnBack homeDir speedHz) x = (z.stepsAccumulate.motor.totalSteps, i + 1,
        after MotorEnv.eff (w.events i .getSteps) z.stepsAccumulate) := by
  let back := if homeDir = motorDirCw then motorDirCcw else motorDirCw
  let freqHz := Motor.homingSpeed speedHz / 2
  have hturned : (w.run (Motor.setDirection back) x).2.2.Ready :=
    w.run_ready (by simp [Motor.setDirection, MotorAct.Homes]) hx
  have hdir : (w.run (Motor.setDirection back) x).2.2.motor.currentDir = back := by
    show (after _ _ (MotorSys.setDirectionSection back x.2)).motor.currentDir = back
    rw [after_motor]
    show wrap 8 back = back
    unfold back
    split_ifs <;> rfl
  obtain ⟨n, s, hrun, hs⟩ := w.run_setFrequency freqHz hturned
  obtain ⟨state, since, hmotor⟩ := s.setFrequencySection_motor (Motor.clampFreq freqHz).1
  have hacc := (hturned.later hs).accumulate
  have hset : (w.run (Motor.setFrequency freqHz)
      (w.run (Motor.setDirection back) x).2).2.2.Backing homeDir (backFreq speedHz) := by
    refine ⟨⟨?_, ?_⟩, ?_, ?_⟩ <;> rw [hrun, after_motor, hmotor]
    · exact hacc.fault
    · exact hacc.last
    · rfl
    · obtain ⟨total, last, hframe⟩ := s.stepsAccumulate_frame
      rw [hframe]
      show s.motor.currentDir = back
      rw [hs.motor_eq, hdir]
  unfold Motor.turnBack
  rw [w.run_bind, w.run_bind]
  exact ⟨_, _, hset, rfl⟩

theorem seek_all (homePin homeDir : ℤ) (speedHz timeoutMs polls : ℕ) :
    (Motor.seek homePin homeDir speedHz timeoutMs polls).All MotorAct.Homes := by
  have hhome := Motor.home_all homePin homeDir speedHz 0 timeoutMs polls
  rw [Motor.home_eq] at hhome
  exact (Prog.all_bind.mp hhome).1

/-- A search that has ended ends at any larger bound on its polls. -/
theorem run_seek_mono {homePin ret : ℤ} {speedHz timeoutMs n k : ℕ} {y : ℕ × MotorSys}
    (h : w.run (Motor.seek homePin homeDir speedHz timeoutMs n) x = (some ret, y)) (hk : n ≤ k) :
    w.run (Motor.seek homePin homeDir speedHz timeoutMs k) x = (some ret, y) := by
  unfold Motor.seek at h ⊢
  rw [w.run_bind, w.run_bind] at h ⊢
  cases ho : w.run (poll n (Motor.homeRound homePin timeoutMs
      (w.run (Motor.depart homeDir speedHz timeoutMs) x).1))
      (w.run (Motor.depart homeDir speedHz timeoutMs) x).2 with
  | mk o z =>
    rw [ho] at h
    cases o with
    | none => cases h
    | some ret => rwa [show w.run (poll k _) _ = _ from Prog.play_poll_mono ho hk]

end Polling

/-- Whenever the search for the home pin ends without a timeout, the call backs the motor off from
the step count at the turn, and returns. -/
def BacksOff (s : MotorSys) (homePin homeDir : ℤ) (speedHz : ℕ) (backoffSteps : ℤ)
    (timeoutMs : ℕ) : Prop :=
  ∀ (w : Polling) (n : ℕ) (x : ℕ × MotorSys),
    w.run (Motor.seek homePin homeDir speedHz timeoutMs n) (0, s) = (some motorEOk, x) →
      ∃ polls y, w.run (Motor.home homePin homeDir speedHz backoffSteps timeoutMs polls) (0, s) =
        (some motorEOk, y) ∧
          BackedOff homeDir (w.run (Motor.turnBack homeDir speedHz) x).1 backoffSteps y.2

theorem backsOff_of_fast {s : MotorSys} {homePin homeDir : ℤ} {speedHz : ℕ} {backoffSteps : ℤ}
    {timeoutMs : ℕ} (hs : s.Ready) (hsteps : 0 < backoffSteps)
    (hdir : homeDir = motorDirCw ∨ homeDir = motorDirCcw) (hspeed : 2000 ≤ speedHz) :
    BacksOff s homePin homeDir speedHz backoffSteps timeoutMs := by
  intro w n x hseek
  have hx : x.2.Ready := by
    have hready := w.run_ready (Polling.seek_all homePin homeDir speedHz timeoutMs n)
      (x := (0, s)) hs
    rwa [hseek] at hready
  have hback : (w.run (Motor.turnBack homeDir speedHz) x).2.2.Backing homeDir
      (backFreq speedHz) := by
    obtain ⟨i, z, hz, hrun⟩ := w.run_turnBack homeDir speedHz hx
    rw [hrun]
    exact hz.accumulate.later (after_later _ _)
  obtain ⟨m, hm⟩ := Polling.run_backOff (w := w) hdir ((backFreq_ge_iff speedHz).mpr hspeed) hback
    (w.run (Motor.turnBack homeDir speedHz) x).1 backoffSteps motorEOk
  obtain ⟨y, hy, hend⟩ := hm (max n (m + 1)) (Nat.lt_of_succ_le (le_max_right n (m + 1)))
  refine ⟨max n (m + 1), y, ?_, hend⟩
  rw [Motor.home_eq]
  rw [w.run_bind, Polling.run_seek_mono hseek (le_max_left n (m + 1))]
  show w.run (if motorEOk = motorEOk ∧ backoffSteps > 0 then _ else _) x = _
  rw [if_pos ⟨rfl, hsteps⟩, w.run_bind]
  exact hy

/-! ## A loop that does not end -/

/-- The home pin falls as soon as the call has begun, and every delay takes one tick. -/
def everyTick (homePin : ℤ) : Polling where
  events i l :=
    if l = .delay then [.elapse 1] else if i = 0 then [.level homePin false] else []
  sleeps i := by simp [elapsed, MotorEnv.ticks]
  wakes i := by
    by_cases h0 : i = 0 <;> simp [h0, elapsed, MotorEnv.ticks]

theorem everyTick_getSteps (homePin : ℤ) (i : ℕ) :
    elapsed ((everyTick homePin).events i .getSteps) = 0 := by
  by_cases h0 : i = 0 <;> simp [everyTick, h0, elapsed, MotorEnv.ticks]

/-- A reason for the loop to go on: it has no test for this direction, or the next poll comes at
most one tick after the one before, at less than 1000 Hz. -/
structure Stuck (homeDir target : ℤ) (freq : ℕ) (x : ℕ × MotorSys) : Prop where
  backing : x.2.Backing homeDir freq
  next : (homeDir ≠ motorDirCw ∧ homeDir ≠ motorDirCcw) ∨
    freq < 1000 ∧ x.2.headway < backoffGoal homeDir target ∧
      (x.2.rtTickGet = x.2.motor.lastTick ∨ x.2.rtTickGet = (x.2.motor.lastTick + 1) % 2 ^ 32)

theorem MotorSys.strides_of_slow {s : MotorSys} (hfreq : s.motor.currentFreq < 1000)
    (hnext : s.rtTickGet = s.motor.lastTick ∨ s.rtTickGet = (s.motor.lastTick + 1) % 2 ^ 32) :
    s.strides = 0 := by
  have hticks : uwrap 32 ((s.rtTickGet : ℤ) - s.motor.lastTick) ≤ 1 := by
    have hcast := uwrap_cast 32 ((s.rtTickGet : ℤ) - s.motor.lastTick)
    omega
  unfold strides
  split_ifs
  · rfl
  · refine Nat.div_eq_of_lt ?_
    calc s.motor.currentFreq * uwrap 32 ((s.rtTickGet : ℤ) - s.motor.lastTick) ≤
          s.motor.currentFreq * 1 := Nat.mul_le_mul_left _ hticks
      _ < rtTickPerSecond := by rw [mul_one]; exact hfreq

theorem MotorSys.Backing.headway_of_slow {homeDir : ℤ} {freq : ℕ} {s : MotorSys}
    (h : s.Backing homeDir freq) (hfreq : freq < 1000)
    (hnext : s.rtTickGet = s.motor.lastTick ∨ s.rtTickGet = (s.motor.lastTick + 1) % 2 ^ 32) :
    s.stepsAccumulate.headway = s.headway := by
  rw [headway_accumulate h.toReady, strides_of_slow (h.freq ▸ hfreq) hnext, Nat.cast_zero,
    add_zero]

namespace Stuck

variable {homePin homeDir target start backoffSteps : ℤ} {freq : ℕ} {x : ℕ × MotorSys}

theorem not_reached (h : Stuck homeDir target freq x) :
    ¬BackoffDone homeDir target x.2.stepsAccumulate := by
  intro hdone
  have hdir : homeDir = motorDirCw ∨ homeDir = motorDirCcw := hdone.imp And.left And.left
  rcases h.next with ⟨hcw, hccw⟩ | ⟨hfreq, hbehind, hnext⟩
  · exact hdir.elim hcw hccw
  · rw [backoffDone_iff h.backing.accumulate hdir, h.backing.headway_of_slow hfreq hnext] at hdone
    exact absurd hbehind (not_lt.mpr hdone)

/-- The loop goes on. -/
theorem step (h : Stuck homeDir target freq x) :
    ((everyTick homePin).run (Motor.backoffRound homeDir target) x).1 = none ∧
      Stuck homeDir target freq
        ((everyTick homePin).run (Motor.backoffRound homeDir target) x).2 := by
  have hnone : ((everyTick homePin).run (Motor.backoffRound homeDir target) x).1 = none := by
    rw [Polling.run_backoffRound]
    dsimp only
    rw [if_neg h.not_reached]
  obtain ⟨hlast, hhead, hclock⟩ := Polling.run_waits h.backing.toReady hnone
  refine ⟨hnone, Polling.run_backoffRound_backing h.backing, ?_⟩
  refine h.next.imp_right fun ⟨hfreq, hbehind, hnext⟩ => ⟨hfreq, ?_, .inr ?_⟩
  · rw [hhead, h.backing.headway_of_slow hfreq hnext]
    exact hbehind
  · have hdelay : elapsed ((everyTick homePin).events (x.1 + 1) .delay) = 1 := rfl
    rw [everyTick_getSteps, hdelay] at hclock
    rw [hlast, MotorSys.rtTickGet, MotorSys.rtTickGet, hclock]
    omega

theorem backOff (h : Stuck homeDir (Motor.backoffTarget homeDir start backoffSteps) freq x)
    (polls : ℕ) (ret : ℤ) :
    ((everyTick homePin).run (Motor.backOff homeDir start backoffSteps polls ret) x).1 = none := by
  have hpoll : ((everyTick homePin).run (poll polls (Motor.backoffRound homeDir
      (Motor.backoffTarget homeDir start backoffSteps))) x).1 = none :=
    Prog.play_poll_waits (fun _ hx => hx.step) h polls
  unfold Motor.backOff
  rw [Polling.run_bind, hpoll]
  rfl

end Stuck

/-- The home pin stays LOW once it has fallen. -/
theorem everyTick_pin {homePin : ℤ} {α : Type} {p : MotorProg α} (hp : p.All MotorAct.Homes)
    {x : ℕ × MotorSys} (hx : x.2.pin homePin = false) :
    ((everyTick homePin).run p x).2.2.pin homePin = false := by
  refine Prog.play_inv _ _ _ hp (I := fun s => s.pin homePin = false) (fun l _ s hs => ?_)
    (fun i l _ e he s hs => ?_) hx
  · rw [l.pin_eff]
    exact hs
  · have he : e = .elapse 1 ∨ e = .level homePin false := by
      unfold Polling.script everyTick at he
      dsimp only at he
      split_ifs at he <;> simp_all
    rcases he with rfl | rfl
    · exact hs
    · exact Function.update_self ..

theorem seek_everyTick (homePin homeDir : ℤ) (speedHz timeoutMs : ℕ) (s : MotorSys) :
    ((everyTick homePin).run (Motor.seek homePin homeDir speedHz timeoutMs 1) (0, s)).1 =
      some motorEOk := by
  have hdepart : ((everyTick homePin).run (Motor.depart homeDir speedHz timeoutMs)
      (0, s)).2.2.pin homePin = false := by
    have hall := Polling.seek_all homePin homeDir speedHz timeoutMs 1
    unfold Motor.depart
    rw [Polling.run_bind]
    refine everyTick_pin ?_ (Function.update_self ..)
    exact (Prog.all_bind.mp (Prog.all_bind.mp hall).1).2 () ⟨s, rfl⟩
  unfold Motor.seek
  rw [Polling.run_bind]
  generalize (everyTick homePin).run (Motor.depart homeDir speedHz timeoutMs) (0, s) = y at hdepart
  have hround : ((everyTick homePin).run (Motor.homeRound homePin timeoutMs y.1) y.2).1 =
      some motorEOk := by
    unfold Motor.homeRound
    show (Polling.run _ (if y.2.2.pin homePin = true then _ else _) _).1 = _
    rw [hdepart]
    rfl
  have hpoll : ((everyTick homePin).run (poll 1 (Motor.homeRound homePin timeoutMs y.1)) y.2).1 =
      some motorEOk :=
    congrArg Prod.fst (Prog.play_poll_some (fun k hk => absurd hk k.not_lt_zero) hround one_pos)
  rw [Polling.run_bind, hpoll]
  show (Polling.run _ (Motor.setFrequency 0 >>= _) _).1 = _
  rw [Polling.run_bind]
  rfl

/-- The loop does not end after the turn. -/
theorem stuck_turnBack {homePin homeDir : ℤ} {speedHz : ℕ} {backoffSteps : ℤ} {x : ℕ × MotorSys}
    (hx : x.2.Ready) (hsteps : 0 < backoffSteps)
    (hslow : ¬((homeDir = motorDirCw ∨ homeDir = motorDirCcw) ∧ 2000 ≤ speedHz)) :
    let y := (everyTick homePin).run (Motor.turnBack homeDir speedHz) x
    Stuck homeDir (Motor.backoffTarget homeDir y.1 backoffSteps) (backFreq speedHz) y.2 := by
  obtain ⟨i, z, hz, hrun⟩ := (everyTick homePin).run_turnBack homeDir speedHz hx
  rw [hrun]
  have hback := hz.accumulate.later (after_later ((everyTick homePin).events i .getSteps) _)
  refine ⟨hback, ?_⟩
  by_cases hdir : homeDir = motorDirCw ∨ homeDir = motorDirCcw
  · refine .inr ⟨?_, ?_, .inl ?_⟩
    · rw [← not_le, backFreq_ge_iff]
      exact fun hspeed => hslow ⟨hdir, hspeed⟩
    · rw [hback.headway_eq, after_motor]
      unfold backoffGoal Motor.backoffTarget
      split_ifs <;> dsimp only <;> omega
    · rw [after_motor, MotorSys.rtTickGet, after_clock, everyTick_getSteps,
        MotorSys.stepsAccumulate_eq hz.last]
      rfl
  · exact .inl (not_or.mp hdir)

/-- The call does not return. -/
theorem home_endless {s : MotorSys} (homePin : ℤ) {homeDir : ℤ} {speedHz : ℕ} {backoffSteps : ℤ}
    (timeoutMs polls : ℕ) (hs : s.Ready) (hsteps : 0 < backoffSteps)
    (hslow : ¬((homeDir = motorDirCw ∨ homeDir = motorDirCcw) ∧ 2000 ≤ speedHz)) :
    ((everyTick homePin).run (Motor.home homePin homeDir speedHz backoffSteps timeoutMs polls)
      (0, s)).1 = none := by
  let w := everyTick homePin
  obtain ⟨x, hseek⟩ : ∃ x, w.run (Motor.seek homePin homeDir speedHz timeoutMs 1) (0, s) =
      (some motorEOk, x) := ⟨_, Prod.ext (seek_everyTick ..) rfl⟩
  have hx : x.2.Ready := by
    have hready := w.run_ready (Polling.seek_all homePin homeDir speedHz timeoutMs 1)
      (x := (0, s)) hs
    rwa [hseek] at hready
  rw [Motor.home_eq, Polling.run_bind]
  cases polls with
  | zero =>
    unfold Motor.seek
    rw [Polling.run_bind]
    rfl
  | succ n =>
    rw [Polling.run_seek_mono hseek (Nat.succ_pos n)]
    show (w.run (if motorEOk = motorEOk ∧ backoffSteps > 0 then _ else _) x).1 = _
    rw [if_pos ⟨rfl, hsteps⟩, w.run_bind]
    exact (stuck_turnBack hx hsteps hslow).backOff (n + 1) motorEOk

/-- **The back-off after homing.** The motor backs off and stops, whatever happens beside the call,
exactly if it homes in one of the two directions at 2000 Hz or more. -/
theorem backoff_iff (s : MotorSys) (homePin homeDir : ℤ) (speedHz : ℕ) {backoffSteps : ℤ}
    (timeoutMs : ℕ) (hfault : s.motor.faultState = .none) (hlast : s.motor.lastTick < 2 ^ 32)
    (hsteps : 0 < backoffSteps) :
    BacksOff s homePin homeDir speedHz backoffSteps timeoutMs ↔
      (homeDir = motorDirCw ∨ homeDir = motorDirCcw) ∧ 2000 ≤ speedHz := by
  constructor
  · intro h
    by_contra hslow
    obtain ⟨polls, y, hhome, -⟩ := h (everyTick homePin) 1 _ (Prod.ext (seek_everyTick ..) rfl)
    have hnone := home_endless homePin timeoutMs polls ⟨hfault, hlast⟩ hsteps hslow
    rw [hhome] at hnone
    cases hnone
  · rintro ⟨hdir, hspeed⟩
    exact backsOff_of_fast ⟨hfault, hlast⟩ hsteps hdir hspeed

/-- A hundred steps back from the pin, after homing at 4000 Hz. -/
theorem backoff_4000 : BacksOff pinMotor 3 motorDirCw 4000 100 0 :=
  (backoff_iff pinMotor 3 motorDirCw 4000 0 rfl (by decide) (by decide)).mpr
    ⟨.inl rfl, by decide⟩

/-- After homing at 100 Hz with the pin LOW, and with delays of one tick, not even one step is
counted, however often the loop polls. -/
theorem backoff_endless :
    ((everyTick 3).run (Motor.seek 3 motorDirCw 100 0 1) (0, pinMotor)).1 = some motorEOk ∧
      ∀ polls, ((everyTick 3).run (Motor.home 3 motorDirCw 100 1 0 polls) (0, pinMotor)).1 =
        none :=
  ⟨seek_everyTick 3 motorDirCw 100 0 pinMotor, fun polls =>
    home_endless 3 0 polls ⟨rfl, by decide⟩ (by decide) fun h => absurd h.2 (by decide)⟩

end H750Stepper
