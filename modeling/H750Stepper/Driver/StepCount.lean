import H750Stepper.Driver.Motor

/-!
# The step counter under observation

`stepper_motor_driver_get_steps` brings the counter up to date before it reads it: the pulses since
`last_tick` are truncated to an integer and `last_tick` moves forward, so each query discards the
fraction of a step it finds. A run is a list of timed calls, some of them extra queries (`look`).

`outputs_originals`: the extra queries change no result of the original ones if, between two
original calls, the fractions they cut off add up to less than one step (`Harmless`).
`outputs_look_ne`: otherwise they may.
-/

namespace H750Stepper

open Threads CInt

/-! ## Runs of timed calls -/

/-- The calls that count steps. -/
inductive StepCall where
  | start | stop
  | setDirection (direction : ℤ)
  | setFrequency (freqHz : ℕ)
  | getSteps | clearSteps
  deriving DecidableEq

/-- The program of a call. -/
def StepCall.code : StepCall → MotorProg Unit
  | .start => Motor.start
  | .stop => Motor.stop
  | .setDirection direction => Motor.setDirection direction
  | .setFrequency freqHz => do let _ ← Motor.setFrequency freqHz
  | .getSteps => do let _ ← Motor.getSteps
  | .clearSteps => Motor.clearSteps

/-- The state after the call `c`, made `t` ticks after boot. -/
def StepCall.at (c : StepCall) (t : ℕ) (s : MotorSys) : MotorSys :=
  (c.code.exec MotorAct.eff { s with clock := t }).2

/-- A call of the original run, or an extra `get_steps`, with its instant in ticks since boot. -/
inductive Timed where
  | call (t : ℕ) (c : StepCall)
  | look (t : ℕ)
  deriving DecidableEq

/-- The results of the original `get_steps` calls. -/
def outputs (s : MotorSys) : List Timed → List ℤ
  | [] => []
  | .call t c :: run =>
    if c = .getSteps then (c.at t s).motor.totalSteps :: outputs (c.at t s) run
    else outputs (c.at t s) run
  | .look t :: run => outputs (StepCall.getSteps.at t s) run

/-- The run without the extra queries. -/
def originals : List Timed → List Timed
  | [] => []
  | .call t c :: run => .call t c :: originals run
  | .look _ :: run => originals run

/-- The instants do not decrease, from `b'` on, and original calls are less than `2 ^ 32` ticks
apart; `b` is the instant of the original call before, if any. -/
def Ordered : Option ℕ → ℕ → List Timed → Prop
  | _, _, [] => True
  | b, b', .call t _ :: run => b' ≤ t ∧ (∀ b₀ ∈ b, t < b₀ + 2 ^ 32) ∧ Ordered (some t) t run
  | b, b', .look t :: run => b' ≤ t ∧ Ordered b t run

/-- The extra queries between `b` and the call `c` at `t` lose less than one step. A `start` counts
nothing itself, and after `clear_steps` nothing before it counts. -/
def StepCall.Completes (c : StepCall) (s : MotorSys) (b b' t r : ℕ) : Prop :=
  match c with
  | .start => s.motor.currentFreq * (b' - b) < rtTickPerSecond
  | .clearSteps => True
  | _ => r + s.motor.currentFreq * (t - b') % rtTickPerSecond < rtTickPerSecond

/-- The extra queries lose nothing. `s` is the state of the original run after its call at instant
`b`; since then the extra queries have cut the interval up to the last of them, at `b'`, and the
thousandths of a step they found there add up to `r`. -/
def Harmless (s : MotorSys) (b b' r : ℕ) : List Timed → Prop
  | [] => True
  | .look t :: run =>
    -- tick 0 reads as "never started"
    (s.motor.currentFreq ≠ 0 → b % 2 ^ 32 ≠ 0 ∧ t % 2 ^ 32 ≠ 0) ∧
      Harmless s b t (r + s.motor.currentFreq * (t - b') % rtTickPerSecond) run
  | .call t c :: run =>
    (s.motor.currentFreq ≠ 0 → c.Completes s b b' t r) ∧
      Harmless (c.at t s) t t 0 run

instance : ∀ (run : List Timed) (b : Option ℕ) (b' : ℕ), Decidable (Ordered b b' run)
  | [], _, _ => .isTrue trivial
  | .call t _ :: run, b, b' =>
    have := instDecidableOrdered run (some t) t
    inferInstanceAs (Decidable (b' ≤ t ∧ (∀ b₀ ∈ b, t < b₀ + 2 ^ 32) ∧ Ordered (some t) t run))
  | .look t :: run, b, b' =>
    have := instDecidableOrdered run b t
    inferInstanceAs (Decidable (b' ≤ t ∧ Ordered b t run))

instance (c : StepCall) (s : MotorSys) (b b' t r : ℕ) : Decidable (c.Completes s b b' t r) :=
  match c with
  | .start => inferInstanceAs (Decidable (_ < _))
  | .clearSteps => inferInstanceAs (Decidable True)
  | .stop | .setDirection _ | .setFrequency _ | .getSteps => inferInstanceAs (Decidable (_ < _))

/-! ## One accumulation -/

/-- The sign of the current direction. -/
def Motor.signed (m : Motor) (n : ℤ) : ℤ := if m.currentDir = motorDirCcw then -n else n

theorem Motor.signed_add (m : Motor) (n k : ℤ) : m.signed (n + k) = m.signed n + m.signed k := by
  unfold signed
  split_ifs <;> ring

theorem trunc_freq_mul (f e : ℕ) :
    trunc ((f : ℚ) * e / rtTickPerSecond) = (f * e / rtTickPerSecond : ℕ) := by
  rw [← trunc_natCast_div]
  push_cast
  rfl

/-- Ticks elapsed between two instants, from their 32-bit counter values. -/
theorem elapsed_eq {b t : ℕ} (hb : b ≤ t) (ht : t < b + 2 ^ 32) :
    uwrap 32 ((t % 2 ^ 32 : ℕ) - (b % 2 ^ 32 : ℕ)) = t - b := by
  have h := uwrap_cast 32 ((t % 2 ^ 32 : ℕ) - (b % 2 ^ 32 : ℕ))
  omega

namespace MotorSys

/-- The steps that an accumulation adds to the counter. -/
def increment (s : MotorSys) : ℤ :=
  if s.motor.lastTick = 0 then 0
  else s.motor.signed
    (s.motor.currentFreq * uwrap 32 ((s.rtTickGet : ℤ) - s.motor.lastTick) / rtTickPerSecond : ℕ)

/-- An accumulation adds `increment` and moves `last_tick` to the current tick. -/
theorem stepsAccumulate_eq {s : MotorSys} (hlast : s.motor.lastTick < 2 ^ 32) :
    s.stepsAccumulate = { s with
      motor.totalSteps := s.motor.totalSteps + s.increment
      motor.lastTick := s.rtTickGet } := by
  unfold stepsAccumulate increment
  by_cases h0 : s.motor.lastTick = 0
  · simp only [if_pos h0, add_zero]
  · by_cases he : uwrap 32 ((s.rtTickGet : ℤ) - s.motor.lastTick) = 0
    · have h := uwrap_cast 32 ((s.rtTickGet : ℤ) - s.motor.lastTick)
      have hnow : s.rtTickGet < 2 ^ 32 := Nat.mod_lt _ (by norm_num)
      have hnow : s.rtTickGet = s.motor.lastTick := by omega
      simp only [if_neg h0, he]
      rw [hnow]
      simp [Motor.signed]
    · simp only [if_neg h0, if_neg he, trunc_freq_mul, Motor.signed]

theorem increment_of_freq_zero {s : MotorSys} (hf : s.motor.currentFreq = 0) :
    s.increment = 0 := by
  simp [increment, hf, Motor.signed]

/-- The increment at the instant `t`, when `last_tick` is the counter value at `b`. -/
theorem increment_eq {s : MotorSys} {b : ℕ} (hlast : s.motor.lastTick = b % 2 ^ 32)
    (hb : b ≤ s.clock) (ht : s.clock < b + 2 ^ 32) (h0 : b % 2 ^ 32 ≠ 0) :
    s.increment = s.motor.signed (s.motor.currentFreq * (s.clock - b) / rtTickPerSecond : ℕ) := by
  unfold increment rtTickGet
  rw [hlast, if_neg h0, elapsed_eq hb ht]

end MotorSys

namespace StepCall

variable {s : MotorSys} (t : ℕ)

theorem at_start : start.at t s = MotorSys.startSection { s with clock := t } := rfl

theorem at_stop : stop.at t s = MotorSys.stopSection { s with clock := t } := rfl

theorem at_setDirection (direction : ℤ) :
    (setDirection direction).at t s =
      MotorSys.setDirectionSection direction { s with clock := t } := rfl

/-- No fault is recorded in these runs, so no frequency is refused. -/
theorem at_setFrequency (freqHz : ℕ) (hs : s.motor.faultState = .none) :
    (setFrequency freqHz).at t s =
      MotorSys.setFrequencySection (Motor.clampFreq freqHz).1 { s with clock := t } := by
  simp only [StepCall.at, code, Motor.setFrequency]
  split_ifs
  · simp [hs, MotorAct.eff]
  · simp [MotorAct.eff]

theorem at_getSteps : getSteps.at t s = MotorSys.stepsAccumulate { s with clock := t } := rfl

theorem at_clearSteps : clearSteps.at t s = MotorSys.clearStepsSection { s with clock := t } := rfl

/-- Every call brings `last_tick` up to date, and none records a fault. -/
theorem at_spec (c : StepCall) (hs : s.motor.faultState = .none)
    (hlast : s.motor.lastTick < 2 ^ 32) :
    (c.at t s).motor.faultState = .none ∧ (c.at t s).motor.lastTick = t % 2 ^ 32 := by
  have hacc := MotorSys.stepsAccumulate_eq (s := { s with clock := t }) hlast
  cases c with
  | start =>
    rw [at_start, MotorSys.startSection]
    split_ifs <;> exact ⟨hs, rfl⟩
  | clearSteps =>
    rw [at_clearSteps, MotorSys.clearStepsSection, hacc]
    exact ⟨hs, rfl⟩
  | stop =>
    rw [at_stop, MotorSys.stopSection, hacc]
    exact ⟨hs, rfl⟩
  | setDirection direction =>
    rw [at_setDirection, MotorSys.setDirectionSection, hacc]
    exact ⟨hs, rfl⟩
  | setFrequency freqHz =>
    rw [at_setFrequency t freqHz hs, MotorSys.setFrequencySection, hacc]
    unfold MotorSys.freqWriteRaw
    split_ifs <;> exact ⟨hs, rfl⟩
  | getSteps =>
    rw [at_getSteps, hacc]
    exact ⟨hs, rfl⟩

end StepCall

/-! ## Two runs side by side -/

/-- The state `s` at the instant `t` with other step counters. -/
def MotorSys.drifted (s : MotorSys) (total : ℤ) (last t : ℕ) : MotorSys :=
  { s with clock := t, motor.totalSteps := total, motor.lastTick := last }

/-- The counters `total` and `last` of the run with the extra queries beside the state `s` of the
original one, whose last call was at `b`. The last query was at `b'`; `r` thousandths of a step have
been cut off since `b`. -/
structure Lags (s : MotorSys) (total : ℤ) (last b b' r : ℕ) : Prop where
  fault : s.motor.faultState = .none
  lastTick_lt : s.motor.lastTick < 2 ^ 32
  last_lt : last < 2 ^ 32
  idle : s.motor.currentFreq = 0 → total = s.motor.totalSteps
  busy : s.motor.currentFreq ≠ 0 →
    b ≤ b' ∧ s.motor.lastTick = b % 2 ^ 32 ∧ last = b' % 2 ^ 32 ∧
      (b = b' ∨ b % 2 ^ 32 ≠ 0 ∧ b' % 2 ^ 32 ≠ 0) ∧
      ∃ q : ℕ, s.motor.currentFreq * (b' - b) = rtTickPerSecond * q + r ∧
        total = s.motor.totalSteps + s.motor.signed q

namespace Lags

variable {s : MotorSys} {total : ℤ} {last b b' r t : ℕ}

theorem freq_mul_sub {f b b' t q r : ℕ} (hb : b ≤ b') (hb' : b' ≤ t)
    (hq : f * (b' - b) = rtTickPerSecond * q + r) :
    f * (t - b) = rtTickPerSecond * (q + f * (t - b') / rtTickPerSecond) +
      (r + f * (t - b') % rtTickPerSecond) := by
  have hsplit : t - b = (b' - b) + (t - b') := by omega
  have := Nat.div_add_mod (f * (t - b')) rtTickPerSecond
  rw [hsplit, Nat.mul_add, hq, Nat.mul_add]
  omega

/-- An extra query: what it cuts off is added to the rest. -/
theorem look (h : Lags s total last b b' r) {c : ℕ} (hb' : b' ≤ t)
    (ht : s.motor.currentFreq ≠ 0 → t < b + 2 ^ 32)
    (h0 : s.motor.currentFreq ≠ 0 → b % 2 ^ 32 ≠ 0 ∧ t % 2 ^ 32 ≠ 0) :
    ∃ total' last', StepCall.getSteps.at t (s.drifted total last c) = s.drifted total' last' t ∧
      Lags s total' last' b t (r + s.motor.currentFreq * (t - b') % rtTickPerSecond) := by
  have hacc : StepCall.getSteps.at t (s.drifted total last c) =
      (s.drifted total last t).stepsAccumulate := rfl
  refine ⟨_, _, hacc.trans (MotorSys.stepsAccumulate_eq h.last_lt), h.fault, h.lastTick_lt,
    Nat.mod_lt _ (by norm_num), fun hf => ?_, fun hf => ?_⟩
  · rw [MotorSys.increment_of_freq_zero (s := s.drifted total last t) hf, add_zero]
    exact h.idle hf
  · obtain ⟨hb, hlast, hlast', hne, q, hq, htot⟩ := h.busy hf
    obtain ⟨h0, ht0⟩ := h0 hf
    have hinc := MotorSys.increment_eq (s := s.drifted total last t) hlast' hb'
      ((ht hf).trans_le (by omega)) (by omega)
    refine ⟨hb.trans hb', hlast, rfl, .inr ⟨h0, ht0⟩, _, freq_mul_sub hb hb' hq, ?_⟩
    rw [hinc, Nat.cast_add, Motor.signed_add, ← add_assoc, ← htot]
    rfl

/-- The two runs agree after a call that brings both counters up to date. -/
theorem accumulate (h : Lags s total last b b' r) (hb' : b' ≤ t)
    (ht : s.motor.currentFreq ≠ 0 → t < b + 2 ^ 32) (hr : s.motor.currentFreq ≠ 0 →
      r + s.motor.currentFreq * (t - b') % rtTickPerSecond < rtTickPerSecond) :
    (s.drifted total last t).stepsAccumulate =
      ({ s with clock := t } : MotorSys).stepsAccumulate := by
  rw [MotorSys.stepsAccumulate_eq (s := s.drifted total last t) h.last_lt,
    MotorSys.stepsAccumulate_eq (s := { s with clock := t }) h.lastTick_lt]
  suffices htot : total + (s.drifted total last t).increment =
      s.motor.totalSteps + ({ s with clock := t } : MotorSys).increment by
    show s.drifted (total + _) (t % 2 ^ 32) t = _
    rw [htot]
    rfl
  by_cases hf : s.motor.currentFreq = 0
  · rw [MotorSys.increment_of_freq_zero (s := { s with clock := t }) hf,
      MotorSys.increment_of_freq_zero (s := s.drifted total last t) hf, h.idle hf]
  · obtain ⟨hb, hlast, hlast', hne, q, hq, htot⟩ := h.busy hf
    by_cases h0 : b % 2 ^ 32 = 0
    · -- the interval starts at tick 0, so there has been no query in it
      obtain rfl : b = b' := by tauto
      obtain rfl : q = 0 := by simp [rtTickPerSecond] at hq; omega
      have hzero : ∀ (s : MotorSys), s.motor.lastTick = 0 → s.increment = 0 :=
        fun s hs => by rw [MotorSys.increment, if_pos hs]
      rw [hzero (s.drifted total last t) (hlast'.trans h0),
        hzero { s with clock := t } (hlast.trans h0), htot]
      simp [Motor.signed]
    · have hdiv : s.motor.currentFreq * (t - b) / rtTickPerSecond =
          q + s.motor.currentFreq * (t - b') / rtTickPerSecond := by
        rw [freq_mul_sub hb hb' hq, Nat.mul_add_div (by decide), Nat.div_eq_of_lt (hr hf), add_zero]
      have ht := ht hf
      rw [MotorSys.increment_eq (s := { s with clock := t }) hlast (hb.trans hb') ht h0,
        MotorSys.increment_eq (s := s.drifted total last t) hlast' hb' (ht.trans_le (by omega))
          (by omega), htot, add_assoc]
      show _ + (s.motor.signed q +
          s.motor.signed (s.motor.currentFreq * (t - b') / rtTickPerSecond : ℕ)) =
        _ + s.motor.signed (s.motor.currentFreq * (t - b) / rtTickPerSecond : ℕ)
      rw [← Motor.signed_add, ← Nat.cast_add, ← hdiv]

/-- After an original call the two runs are in one state. -/
theorem call (h : Lags s total last b b' r) {u : ℕ} (c : StepCall) (hb' : b' ≤ t)
    (ht : s.motor.currentFreq ≠ 0 → t < b + 2 ^ 32)
    (hr : s.motor.currentFreq ≠ 0 → c.Completes s b b' t r) :
    c.at t (s.drifted total last u) = c.at t s := by
  have hacc := h.accumulate hb' ht
  cases c with
  | start =>
    have htot : total = s.motor.totalSteps := by
      by_cases hf : s.motor.currentFreq = 0
      · exact h.idle hf
      · obtain ⟨-, -, -, -, q, hq, htot⟩ := h.busy hf
        have hr : s.motor.currentFreq * (b' - b) < rtTickPerSecond := hr hf
        obtain rfl : q = 0 := by simp only [rtTickPerSecond] at hq hr; omega
        simpa [Motor.signed] using htot
    rw [StepCall.at_start, StepCall.at_start, htot]
    unfold MotorSys.startSection MotorSys.drifted
    split_ifs <;> rfl
  | clearSteps =>
    rw [StepCall.at_clearSteps, StepCall.at_clearSteps, MotorSys.clearStepsSection,
      MotorSys.clearStepsSection,
      MotorSys.stepsAccumulate_eq (s := { s with clock := t }) h.lastTick_lt]
    rw [MotorSys.stepsAccumulate_eq h.last_lt]
    rfl
  | stop =>
    rw [StepCall.at_stop, StepCall.at_stop, MotorSys.stopSection, MotorSys.stopSection, ← hacc hr]
    rfl
  | setDirection direction =>
    rw [StepCall.at_setDirection, StepCall.at_setDirection, MotorSys.setDirectionSection,
      MotorSys.setDirectionSection, ← hacc hr]
    rfl
  | setFrequency freqHz =>
    rw [StepCall.at_setFrequency t freqHz h.fault,
      StepCall.at_setFrequency (s := s.drifted total last u) t freqHz h.fault,
      MotorSys.setFrequencySection, MotorSys.setFrequencySection, ← hacc hr]
    rfl
  | getSteps =>
    rw [StepCall.at_getSteps, StepCall.at_getSteps, ← hacc hr]
    rfl

/-- A state beside itself, right after a call. -/
theorem refl (hs : s.motor.faultState = .none) (hlast : s.motor.lastTick = t % 2 ^ 32) :
    Lags s s.motor.totalSteps s.motor.lastTick t t 0 := by
  have hlt : s.motor.lastTick < 2 ^ 32 := hlast ▸ Nat.mod_lt _ (by norm_num)
  refine ⟨hs, hlt, hlt, fun _ => rfl, fun _ => ⟨le_rfl, hlast, hlast, .inl rfl, 0, by simp, ?_⟩⟩
  simp [Motor.signed]

end Lags

/-! ## Runs -/

theorem outputs_eq_nil {run : List Timed} (s : MotorSys) (h : originals run = []) :
    outputs s run = [] := by
  induction run generalizing s with
  | nil => rfl
  | cons e run ih =>
    cases e with
    | call t c => cases h
    | look t => exact ih _ h

/-- An extra query before an original call comes less than `2 ^ 32` ticks after the call before. -/
theorem Ordered.lt {b b' : ℕ} {run : List Timed} (h : Ordered (some b) b' run)
    (hne : originals run ≠ []) : b' < b + 2 ^ 32 := by
  induction run generalizing b' with
  | nil => exact absurd rfl hne
  | cons e run ih =>
    cases e with
    | call t c => exact h.1.trans_lt (h.2.1 b rfl)
    | look t => exact h.1.trans_lt (ih h.2 hne)

theorem Lags.outputs_eq {s : MotorSys} {total : ℤ} {last b b' r u : ℕ} {b₀ : Option ℕ}
    {run : List Timed} (h : Lags s total last b b' r)
    (hb : s.motor.currentFreq ≠ 0 → b₀ = some b) (hord : Ordered b₀ b' run)
    (hrun : Harmless s b b' r run) :
    outputs (s.drifted total last u) run = outputs s (originals run) := by
  induction run generalizing s total last b b' r u b₀ with
  | nil => rfl
  | cons e run ih =>
    cases e with
    | call t c =>
      have hc : c.at t (s.drifted total last u) = c.at t s :=
        h.call c hord.1 (fun hf => hord.2.1 b (hb hf)) hrun.1
      obtain ⟨hfault, hlast⟩ := StepCall.at_spec t c h.fault h.lastTick_lt
      have hrest : outputs (c.at t s) run = outputs (c.at t s) (originals run) :=
        ih (u := (c.at t s).clock) (Lags.refl hfault hlast) (fun _ => rfl) hord.2.2 hrun.2
      simp only [outputs, originals, hc, hrest]
    | look t =>
      by_cases hne : originals run = []
      · rw [show originals (.look t :: run) = [] from hne]
        exact outputs_eq_nil _ hne
      · have ht : s.motor.currentFreq ≠ 0 → t < b + 2 ^ 32 := fun hf => by
          have hord := hord.2
          rw [hb hf] at hord
          exact hord.lt hne
        obtain ⟨total', last', heq, h'⟩ := h.look (c := u) hord.1 ht hrun.1
        show outputs (StepCall.getSteps.at t _) run = _
        rw [heq]
        exact ih h' hb hord.2 hrun.2

/-- **Step counting does not depend on harmless queries.** -/
theorem outputs_originals (s : MotorSys) (timClk : ℕ) (faultPin : ℤ) (dirInvert : Bool)
    {run : List Timed} (hord : Ordered none 0 run)
    (hrun : Harmless (s.init timClk faultPin dirInvert) 0 0 0 run) :
    outputs (s.init timClk faultPin dirInvert) run =
      outputs (s.init timClk faultPin dirInvert) (originals run) :=
  (Lags.refl (s := s.init timClk faultPin dirInvert) (t := 0) rfl rfl).outputs_eq
    (u := s.clock) (fun hf => absurd rfl hf) hord hrun

/-- The driver of motor 0 after its init. -/
def motor0 : MotorSys := MotorSys.zeroed.init 200000000 (-1) false

/-- At 50 Hz a query every 20 ms cuts at whole steps. -/
theorem outputs_originals_50Hz :
    outputs motor0 [.call 1 (.setFrequency 50), .look 21, .look 941, .call 1001 .getSteps] =
      outputs motor0 [.call 1 (.setFrequency 50), .call 1001 .getSteps] :=
  outputs_originals MotorSys.zeroed 200000000 (-1) false (by decide)
    ⟨by decide, by decide +kernel, by decide +kernel, by decide +kernel, trivial⟩

/-- Half a step cut off by a query is lost for the original ones. -/
theorem outputs_look_ne :
    Ordered none 0 [.call 1 (.setFrequency 50), .look 11, .call 1001 .getSteps] ∧
      outputs motor0 [.call 1 (.setFrequency 50), .look 11, .call 1001 .getSteps] = [49] ∧
      outputs motor0 (originals [.call 1 (.setFrequency 50), .look 11, .call 1001 .getSteps]) =
        [50] :=
  ⟨by decide, by decide +kernel, by decide +kernel⟩

end H750Stepper
