import H750Stepper.Lib.Script
import H750Stepper.Driver.FaultInterlock
import H750Stepper.Driver.Prescaler
import H750Stepper.Driver.Sessions

/-!
# Braking beside another thread

`stepper_motor_driver_brake` reads `current_freq` once and then asks for lower and lower
frequencies, each computed from the one before and not from the motor. Between two requests another
thread may stop the motor, by `stop`, by `set_frequency(0)` or by a `check_fault` that finds a
fault; the next request sets the motor going again, unless a fault is recorded.

`brake_iff`: the motor only slows down exactly if no request for a nonzero frequency finds it
stopped by the other thread without a fault.
-/

namespace H750Stepper

open Threads CInt
open Prog (ask perform)

/-! ## The requests of a braking call -/

namespace Motor

/-- Requests for some frequencies, each followed by a delay. -/
def asking : List ℕ → MotorProg Unit
  | [] => return
  | f :: fs => do
    let _ ← setFrequency f
    perform .delay
    asking fs

/-- What a braking call asks for from the frequency `f` on. -/
def requests (decelRate f : ℕ) : List ℕ :=
  (List.range ⌈(f : ℚ) / decelRate⌉₊).map fun k => f - (k + 1) * decelRate

theorem ceil_sub {decelRate f : ℕ} (hrate : 0 < decelRate) (hf : 0 < f) :
    ⌈(f : ℚ) / decelRate⌉₊ = ⌈((f - decelRate : ℕ) : ℚ) / decelRate⌉₊ + 1 := by
  have hrate' : (0 : ℚ) < decelRate := by exact_mod_cast hrate
  rcases le_total f decelRate with hle | hge
  · have hone : ⌈(f : ℚ) / decelRate⌉₊ = 1 := by
      rw [Nat.ceil_eq_iff one_ne_zero, div_le_iff₀ hrate', lt_div_iff₀ hrate']
      norm_num
      exact ⟨hf, hle⟩
    rw [hone, Nat.sub_eq_zero_of_le hle]
    simp
  · rw [← Nat.ceil_add_one (by positivity), Nat.cast_sub hge]
    congr 1
    field_simp
    ring

theorem requests_cons {decelRate f : ℕ} (hrate : 0 < decelRate) (hf : 0 < f) :
    requests decelRate f = (f - decelRate) :: requests decelRate (f - decelRate) := by
  unfold requests
  rw [ceil_sub hrate hf, List.range_succ_eq_map, List.map_cons, List.map_map]
  refine congrArg₂ List.cons (by rw [zero_add, one_mul]) (List.map_congr_left fun k _ => ?_)
  show f - (k + 1 + 1) * decelRate = f - decelRate - (k + 1) * decelRate
  rw [Nat.sub_sub, Nat.add_mul (k + 1), one_mul, Nat.add_comm]

theorem brakeLoop_eq {decelRate n f : ℕ} (hrate : 0 < decelRate) (hf : f ≤ n) :
    brakeLoop decelRate n f = asking (requests decelRate f) := by
  induction n generalizing f with
  | zero =>
    obtain rfl := Nat.le_zero.mp hf
    simp [brakeLoop, requests, asking]
  | succ n ih =>
    unfold brakeLoop
    by_cases hpos : f > 0
    · have hnext : (if f > decelRate then f - decelRate else 0) = f - decelRate := by
        split_ifs <;> omega
      rw [if_pos hpos, requests_cons hrate hpos, hnext]
      unfold asking
      rw [← ih (by omega)]
    · obtain rfl := Nat.eq_zero_of_not_pos hpos
      rw [if_neg hpos]
      simp [requests, asking]

theorem length_requests (decelRate f : ℕ) :
    (requests decelRate f).length = ⌈(f : ℚ) / decelRate⌉₊ := by
  rw [requests, List.length_map, List.length_range]

theorem getElem_requests (decelRate f : ℕ) {k : ℕ} (hk : k < (requests decelRate f).length) :
    (requests decelRate f)[k] = f - (k + 1) * decelRate := by
  simp [requests]

theorem requests_sorted (decelRate f : ℕ) : (requests decelRate f).Pairwise (· ≥ ·) := by
  refine List.pairwise_map.mpr (List.pairwise_lt_range.imp fun hlt => ?_)
  exact Nat.sub_le_sub_left (Nat.mul_le_mul_right _ (by omega)) f

theorem le_of_mem_requests {decelRate f g : ℕ} (hg : g ∈ requests decelRate f) : g ≤ f := by
  obtain ⟨k, -, rfl⟩ := List.mem_map.mp hg
  exact Nat.sub_le ..

end Motor

/-! ## The other thread -/

/-- What happens between two requests: the other thread calls `stop`, `set_frequency(0)` or
`check_fault`, time passes, or an input pin changes. -/
inductive Meddle where
  | stop | halt | checkFault
  | env (e : MotorEnv)
  deriving DecidableEq

def Meddle.eff : Meddle → MotorSys → MotorSys
  | .stop, s => (Motor.stop.exec MotorAct.eff s).2
  | .halt, s => ((Motor.setFrequency 0).exec MotorAct.eff s).2
  | .checkFault, s => (Motor.checkFault.exec MotorAct.eff s).2
  | .env e, s => e.eff s

/-- What happens in the gap before the first request and in the one after each, and the time that
passes after an action within a request. -/
structure Gaps where
  gap : ℕ → List Meddle
  pause : ℕ → MotorAct → ℕ

namespace Gaps

variable (w : Gaps)

/-- A delay turns the page. -/
def script (k : ℕ) : MotorAct → List Meddle × ℕ
  | .beginBrake => (w.gap 0, k)
  | .delay => (w.gap (k + 1), k + 1)
  | l => ([.env (.elapse (w.pause k l))], k)

/-- The run of a program beside these events. -/
abbrev run {α : Type} (p : MotorProg α) (x : ℕ × MotorSys) : α × ℕ × MotorSys :=
  Prog.play MotorAct.eff Meddle.eff w.script p x

/-- Every action and every event of the run leaves `current_freq` as it is, or lower. -/
abbrev Slows {α : Type} (p : MotorProg α) (x : ℕ × MotorSys) : Prop :=
  Prog.Along MotorAct.eff Meddle.eff w.script
    (fun s t => t.motor.currentFreq ≤ s.motor.currentFreq) p x

/-- What the gaps up to number `k` make of the state `s`, without the braking call. -/
def others (s : MotorSys) : ℕ → MotorSys
  | 0 => after Meddle.eff (w.gap 0) s
  | k + 1 => after Meddle.eff (w.gap (k + 1)) (others s k)

end Gaps

/-- The motor is stopped, and a request would start it. -/
def MotorSys.Startable (s : MotorSys) : Prop :=
  s.motor.currentFreq = 0 ∧ s.motor.faultState = .none

instance (s : MotorSys) : Decidable s.Startable := inferInstanceAs (Decidable (_ ∧ _))

/-- What a `check_fault` does. -/
theorem Meddle.eff_checkFault (s : MotorSys) : checkFault.eff s =
    if s.motor.faultPin < 0 then s
    else if s.pin s.motor.faultPin then { s with motor.faultState := .none }
    else if s.motor.faultState = .none then
      MotorSys.stopSection { s with motor.faultState := .driver, motor.state := .fault }
    else s := by
  show (Motor.checkFault.exec MotorAct.eff s).2 = _
  unfold Motor.checkFault
  by_cases hunused : s.motor.faultPin < 0
  · simp [hunused]
  · by_cases hhigh : s.pin s.motor.faultPin = true
    · simp [hunused, hhigh, MotorAct.eff]
    · by_cases hfault : s.motor.faultState = .none
      · simp [hunused, hhigh, hfault, MotorAct.eff]
      · simp [hunused, hhigh, hfault]

/-- As far as the other thread's calls depend on it, and on whether the motor is stopped, the state
`s` is the state `t`. -/
structure Alike (s t : MotorSys) : Prop where
  fault : s.motor.faultState = t.motor.faultState
  faultPin : s.motor.faultPin = t.motor.faultPin
  pin : s.pin = t.pin
  stopped : s.motor.currentFreq = 0 ↔ t.motor.currentFreq = 0

namespace Alike

variable {s t : MotorSys}

theorem accumulate (h : Alike s t) : Alike s.stepsAccumulate t.stepsAccumulate := by
  obtain ⟨total, last, hs⟩ := s.stepsAccumulate_frame
  obtain ⟨total', last', ht⟩ := t.stepsAccumulate_frame
  rw [hs, ht]
  exact ⟨h.fault, h.faultPin, h.pin, h.stopped⟩

theorem stopSection (h : Alike s t) : Alike s.stopSection t.stopSection :=
  ⟨h.accumulate.fault, h.accumulate.faultPin, h.accumulate.pin, Iff.rfl⟩

/-- The calls of the other thread do the same to both. -/
theorem meddle (h : Alike s t) (m : Meddle) : Alike (m.eff s) (m.eff t) := by
  cases m with
  | stop => exact h.stopSection
  | halt => exact ⟨h.accumulate.fault, h.accumulate.faultPin, h.accumulate.pin, Iff.rfl⟩
  | checkFault =>
    have hlevel : s.pin s.motor.faultPin = t.pin t.motor.faultPin := by rw [h.pin, h.faultPin]
    rw [Meddle.eff_checkFault, Meddle.eff_checkFault, hlevel, h.faultPin, h.fault]
    split_ifs
    · exact h
    · exact ⟨rfl, h.faultPin, h.pin, h.stopped⟩
    · exact stopSection ⟨rfl, h.faultPin, h.pin, h.stopped⟩
    · exact h
  | env e =>
    cases e with
    | elapse n => exact ⟨h.fault, h.faultPin, h.pin, h.stopped⟩
    | level pin high =>
      have hpin : Function.update s.pin pin high = Function.update t.pin pin high := by rw [h.pin]
      exact ⟨h.fault, h.faultPin, hpin, h.stopped⟩

theorem after (h : Alike s t) (ms : List Meddle) :
    Alike (after Meddle.eff ms s) (after Meddle.eff ms t) := by
  induction ms generalizing s t with
  | nil => exact h
  | cons m ms ih => exact ih (h.meddle m)

end Alike

namespace Meddle

/-- The other thread stops the motor, or leaves its frequency. -/
theorem currentFreq_eff (m : Meddle) (s : MotorSys) :
    (m.eff s).motor.currentFreq = 0 ∨ (m.eff s).motor.currentFreq = s.motor.currentFreq := by
  cases m with
  | stop => exact .inl rfl
  | halt => exact .inl rfl
  | checkFault =>
    rw [eff_checkFault]
    split_ifs
    · exact .inr rfl
    · exact .inr rfl
    · exact .inl rfl
    · exact .inr rfl
  | env e => cases e <;> exact .inr rfl

theorem currentFreq_after (ms : List Meddle) (s : MotorSys) :
    (after eff ms s).motor.currentFreq = 0 ∨
      (after eff ms s).motor.currentFreq = s.motor.currentFreq := by
  induction ms generalizing s with
  | nil => exact .inr rfl
  | cons m ms ih =>
    rcases ih (m.eff s) with h | h
    · exact .inl h
    · exact (m.currentFreq_eff s).imp h.trans h.trans

theorem chain_slows (ms : List Meddle) (s : MotorSys) :
    Chain (fun s t => t.motor.currentFreq ≤ s.motor.currentFreq) eff ms s := by
  induction ms generalizing s with
  | nil => trivial
  | cons m ms ih =>
    refine ⟨?_, ih _⟩
    rcases m.currentFreq_eff s with h | h
    · exact h ▸ Nat.zero_le _
    · exact h.le

end Meddle

/-! ## One request -/

namespace Gaps

variable (w : Gaps) (f k : ℕ) (s : MotorSys)

/-- What a request does. -/
theorem run_setFrequency : ∃ s', (w.run (Motor.setFrequency f) (k, s)).2 = (k, s') ∧
    s'.motor.faultState = s.motor.faultState ∧ s'.motor.faultPin = s.motor.faultPin ∧
      s'.pin = s.pin ∧ s'.motor.currentFreq =
        if f ≠ 0 ∧ s.motor.faultState ≠ .none then s.motor.currentFreq
        else (Motor.clampFreq f).1 := by
  have hset : ∀ s : MotorSys, (s.setFrequencySection (Motor.clampFreq f).1).motor.faultState =
      s.motor.faultState ∧ (s.setFrequencySection (Motor.clampFreq f).1).motor.faultPin =
      s.motor.faultPin ∧ (s.setFrequencySection (Motor.clampFreq f).1).pin = s.pin ∧
      (s.setFrequencySection (Motor.clampFreq f).1).motor.currentFreq = (Motor.clampFreq f).1 := by
    intro s
    obtain ⟨state, since, hmotor⟩ := s.setFrequencySection_motor (Motor.clampFreq f).1
    obtain ⟨total, last, hframe⟩ := s.stepsAccumulate_frame
    refine ⟨?_, ?_, MotorAct.pin_eff (.setFrequency (Motor.clampFreq f).1) s, ?_⟩ <;>
      rw [hmotor, hframe]
  unfold run Motor.setFrequency
  dsimp only
  by_cases hf : f = 0
  · obtain rfl := hf
    exact ⟨_, rfl, hset s⟩
  · rw [if_pos (clampFreq_pos hf), Prog.ask_bind, Prog.play_act]
    by_cases hfault : s.motor.faultState = .none
    · have hpass : ¬(MotorAct.testFault.eff s).motor.faultState ≠ .none := not_not.mpr hfault
      rw [if_neg hpass, if_neg fun h => h.2 hfault]
      exact ⟨_, rfl, hset _⟩
    · have hrefuse : (MotorAct.testFault.eff s).motor.faultState ≠ .none := hfault
      rw [if_pos hrefuse, if_pos ⟨hf, hfault⟩]
      exact ⟨_, rfl, rfl, rfl, rfl, rfl⟩

/-- The events of a script never set the motor going. -/
theorem slows_act {α : Type} (l : MotorAct) (g : MotorSys → MotorProg α) (x : ℕ × MotorSys) :
    w.Slows (.act l g) x ↔ (l.eff x.2).motor.currentFreq ≤ x.2.motor.currentFreq ∧
      w.Slows (g (l.eff x.2))
        ((w.script x.1 l).2, after Meddle.eff (w.script x.1 l).1 (l.eff x.2)) :=
  and_congr_right fun _ => and_iff_right (Meddle.chain_slows _ _)

theorem slows_setFrequency : w.Slows (Motor.setFrequency f) (k, s) ↔
    (f ≠ 0 → s.motor.faultState = .none → (Motor.clampFreq f).1 ≤ s.motor.currentFreq) := by
  have hfreq : ∀ s : MotorSys, ((MotorAct.setFrequency
      (Motor.clampFreq f).1).eff s).motor.currentFreq = (Motor.clampFreq f).1 := by
    intro s
    obtain ⟨state, since, hmotor⟩ := s.setFrequencySection_motor (Motor.clampFreq f).1
    rw [MotorAct.eff, hmotor]
  unfold Motor.setFrequency
  dsimp only
  by_cases hf : f = 0
  · obtain rfl := hf
    refine iff_of_true ?_ fun h => absurd rfl h
    exact (w.slows_act _ _ _).mpr ⟨Nat.zero_le _, trivial⟩
  · rw [if_pos (clampFreq_pos hf), Prog.ask_bind, slows_act]
    by_cases hfault : s.motor.faultState = .none
    · have hpass : ¬(MotorAct.testFault.eff s).motor.faultState ≠ .none := not_not.mpr hfault
      rw [if_neg hpass, Prog.perform_bind, slows_act, hfreq]
      exact ⟨fun h _ _ => h.2.1, fun h => ⟨le_rfl, h hf hfault, trivial⟩⟩
    · have hrefuse : (MotorAct.testFault.eff s).motor.faultState ≠ .none := hfault
      rw [if_pos hrefuse]
      exact iff_of_true ⟨le_rfl, trivial⟩ fun _ h => absurd h hfault

/-- A request, the delay after it, and the gap. -/
theorem slows_asking_cons (fs : List ℕ) : w.Slows (Motor.asking (f :: fs)) (k, s) ↔
    (f ≠ 0 → s.motor.faultState = .none → (Motor.clampFreq f).1 ≤ s.motor.currentFreq) ∧
      w.Slows (Motor.asking fs) (k + 1, after Meddle.eff (w.gap (k + 1))
        (w.run (Motor.setFrequency f) (k, s)).2.2) := by
  obtain ⟨s', hrun, -⟩ := w.run_setFrequency f k s
  have hcons : Motor.asking (f :: fs) =
      Motor.setFrequency f >>= fun _ => .act .delay fun _ => Motor.asking fs := rfl
  rw [hcons, Slows, Prog.along_bind]
  show w.Slows _ _ ∧ w.Slows _ (w.run _ _).2 ↔ _
  rw [slows_setFrequency, hrun, slows_act]
  exact and_congr_right fun _ => and_iff_right le_rfl

/-! ## All requests -/

/-- Requests to stop cannot set the motor going. -/
theorem slows_zeros {fs : List ℕ} (hfs : ∀ f ∈ fs, f = 0) : w.Slows (Motor.asking fs) (k, s) := by
  induction fs generalizing k s with
  | nil => trivial
  | cons f fs ih =>
    obtain ⟨hf, hfs⟩ := List.forall_mem_cons.mp hfs
    exact (w.slows_asking_cons f k s fs).mpr ⟨fun h => absurd hf h, ih _ _ hfs⟩

/-- What the other thread leaves at the first request, and at the others. -/
theorem forall_cons_startable (s₀ : MotorSys) {fs : List ℕ} (hzero : f ≠ 0) :
    (∀ j (hj : j < (f :: fs).length), (f :: fs)[j] ≠ 0 → ¬(w.others s₀ (k + j)).Startable) ↔
      ¬(w.others s₀ k).Startable ∧
        ∀ j (hj : j < fs.length), fs[j] ≠ 0 → ¬(w.others s₀ (k + 1 + j)).Startable := by
  constructor
  · refine fun h => ⟨h 0 (Nat.succ_pos _) hzero, fun j hj hne => ?_⟩
    rw [Nat.add_right_comm]
    exact h (j + 1) (Nat.succ_lt_succ hj) hne
  · rintro ⟨hhead, htail⟩ (_ | j) hj hne
    · exact hhead
    · have hnext := htail j (Nat.lt_of_succ_lt_succ hj) hne
      rwa [Nat.add_right_comm] at hnext

/-- A request that cannot set the motor going leaves it as far as the other thread has stopped it,
at the frequency from before or at that of the request. -/
theorem run_setFrequency_alike {t : MotorSys} (hsame : Alike s t) (hzero : f ≠ 0)
    (hs : ¬s.Startable) :
    ∃ s', (w.run (Motor.setFrequency f) (k, s)).2 = (k, s') ∧ Alike s' t ∧
      (s'.motor.currentFreq = s.motor.currentFreq ∨
        s'.motor.currentFreq = (Motor.clampFreq f).1) := by
  obtain ⟨s', hrun, hfault, hfaultPin, hpin, hfreq⟩ := w.run_setFrequency f k s
  refine ⟨s', hrun, ?_⟩
  by_cases hnone : s.motor.faultState = .none
  · rw [if_neg fun h => h.2 hnone] at hfreq
    have hgoing : s.motor.currentFreq ≠ 0 := fun h => hs ⟨h, hnone⟩
    refine ⟨⟨hfault.trans hsame.fault, hfaultPin.trans hsame.faultPin, hpin.trans hsame.pin,
      iff_of_false ?_ fun h => hgoing (hsame.stopped.mpr h)⟩, .inr hfreq⟩
    rw [hfreq]
    exact (clampFreq_pos hzero).ne'
  · rw [if_pos ⟨hzero, hnone⟩] at hfreq
    refine ⟨⟨hfault.trans hsame.fault, hfaultPin.trans hsame.faultPin, hpin.trans hsame.pin, ?_⟩,
      .inl hfreq⟩
    rw [hfreq]
    exact hsame.stopped

/-- The requests of a descending list slow the motor down as long as none of them finds it stopped
without a fault. -/
theorem slows_asking (s₀ : MotorSys) {fs : List ℕ} (hfs : fs.Pairwise (· ≥ ·))
    (hsame : Alike s (w.others s₀ k)) (hle : s.motor.currentFreq = 0 ∨
      ∀ f ∈ fs, (Motor.clampFreq f).1 ≤ s.motor.currentFreq) :
    w.Slows (Motor.asking fs) (k, s) ↔
      ∀ j (hj : j < fs.length), fs[j] ≠ 0 → ¬(w.others s₀ (k + j)).Startable := by
  induction fs generalizing k s with
  | nil => exact iff_of_true trivial fun j hj => absurd hj j.not_lt_zero
  | cons f fs ih =>
    obtain ⟨hf, hfs⟩ := List.pairwise_cons.mp hfs
    by_cases hzero : f = 0
    · have hall : ∀ g ∈ f :: fs, g = 0 :=
        List.forall_mem_cons.mpr ⟨hzero, fun g hg => Nat.le_zero.mp (hzero ▸ hf g hg)⟩
      exact iff_of_true (w.slows_zeros k s hall) fun j hj hne =>
        absurd (hall _ (List.getElem_mem hj)) hne
    have hstart : s.Startable ↔ (w.others s₀ k).Startable :=
      and_congr hsame.stopped (by rw [hsame.fault])
    rw [slows_asking_cons, w.forall_cons_startable f k s₀ hzero, ← hstart]
    by_cases hs : s.Startable
    · -- the request sets the motor going
      have hpos := clampFreq_pos hzero
      refine iff_of_false (fun h => ?_) fun h => h.1 hs
      have hle := h.1 hzero hs.2
      rw [hs.1] at hle
      omega
    · have hhead : f ≠ 0 → s.motor.faultState = .none →
          (Motor.clampFreq f).1 ≤ s.motor.currentFreq := fun _ hnone =>
        (hle.resolve_left fun h => hs ⟨h, hnone⟩) f (List.mem_cons_self ..)
      obtain ⟨s', hrun, hsame', hfreq⟩ := w.run_setFrequency_alike f k s hsame hzero hs
      have hle' : s'.motor.currentFreq = 0 ∨
          ∀ g ∈ fs, (Motor.clampFreq g).1 ≤ s'.motor.currentFreq := by
        rcases hfreq with hfreq | hfreq <;> rw [hfreq]
        · exact hle.imp_right fun h g hg => h g (List.mem_cons_of_mem f hg)
        · exact .inr fun g hg => clampFreq_mono (hf g hg)
      rw [hrun]
      refine (and_iff_right hhead).trans (.trans (ih (k + 1) _ hfs ?_ ?_) (and_iff_right hs).symm)
      · exact hsame'.after (w.gap (k + 1))
      · rcases Meddle.currentFreq_after (w.gap (k + 1)) s' with h | h
        · exact .inl h
        · rw [h]
          exact hle'

end Gaps

/-! ## Reachable states -/

/-- The action sets no other frequency than the driver programs. -/
def MotorAct.Clamped : MotorAct → Prop
  | .setFrequency clamped => FreqOk clamped
  | _ => True

theorem MotorAct.Clamped.freqOk {l : MotorAct} (hl : l.Clamped) {s : MotorSys}
    (hs : FreqOk s.motor.currentFreq) : FreqOk (l.eff s).motor.currentFreq := by
  have hacc : FreqOk s.stepsAccumulate.motor.currentFreq := by
    rwa [MotorSys.stepsAccumulate_currentFreq]
  cases l with
  | setFrequency clamped =>
    obtain ⟨state, since, hmotor⟩ := s.setFrequencySection_motor clamped
    rw [MotorAct.eff, hmotor]
    exact hl
  | start =>
    show FreqOk s.startSection.motor.currentFreq
    unfold MotorSys.startSection
    split_ifs <;> exact hs
  | stop | faultStop | disable => exact .inl rfl
  | setDirection | getSteps | clearSteps => exact hacc
  | _ => exact hs

theorem MotorCall.code_clamped (c : MotorCall) : c.code.All MotorAct.Clamped := by
  refine c.code_may.imp fun l hl => ?_
  cases l with
  | setFrequency clamped => cases c <;> simp_all [May, MotorAct.Clamped, MotorAct.Brakes,
      MotorAct.Homes]
  | _ => trivial

/-- What two threads may still do, and the frequency that they have set. -/
theorem clamped_next (p : Pool MotorThread MotorAct MotorSys Unit)
    (e : Event MotorThread MotorCall MotorEnv)
    (h : (∀ t, (p.thr t).All MotorAct.Clamped) ∧ FreqOk p.st.motor.currentFreq) :
    (∀ t, ((motorMachine.next p e).thr t).All MotorAct.Clamped) ∧
      FreqOk (motorMachine.next p e).st.motor.currentFreq := by
  refine ⟨Machine.all_next (Φ := fun _ => MotorAct.Clamped) (fun _ _ => True)
    (fun _ c _ => c.code_clamped) h.1 e (by cases e <;> trivial), ?_⟩
  refine Machine.st_next (I := fun s : MotorSys => FreqOk s.motor.currentFreq) h.2 e ?_
  cases e with
  | call t c => trivial
  | step t => exact fun l hl => ((h.1 t).head hl).freqOk h.2
  | env e => cases e <;> exact h.2

theorem freqOk_run (d : MotorSys) (timClk : ℕ) (faultPin : ℤ) (dirInvert : Bool)
    (es : List (Event MotorThread MotorCall MotorEnv)) :
    FreqOk
      (motorMachine.run (.idle (d.init timClk faultPin dirInvert) ()) es).st.motor.currentFreq :=
  (motorMachine.run_of_next clamped_next ⟨fun _ => Prog.all_ret (), .inl rfl⟩ es).2

/-! ## The braking call -/

/-- The braking call slows the motor down, and stops it, with as many requests as the frequency and
the rate make necessary. -/
structure BrakesOnly (w : Gaps) (decelRate : ℕ) (s : MotorSys) : Prop where
  slows : w.Slows (Motor.brake decelRate) (0, s)
  asks : ∃ fs, Motor.brakeLoop decelRate s.motor.currentFreq s.motor.currentFreq =
    Motor.asking fs ∧ fs.length = ⌈(s.motor.currentFreq : ℚ) / decelRate⌉₊
  stops : let s' := (w.run (Motor.brake decelRate) (0, s)).2.2
    s'.Off ∧ s'.tim.oc = false ∧ s'.motor.state = .idle

namespace Gaps

variable (w : Gaps)

/-- The stop is the last action. -/
theorem run_brake {decelRate : ℕ} (hrate : 0 < decelRate) (s : MotorSys) :
    ∃ (n : ℕ) (s' : MotorSys),
      (w.run (Motor.brake decelRate) (0, s)).2.2 = (MotorEnv.elapse n).eff s'.stopSection := by
  unfold Motor.brake
  rw [if_neg hrate.ne', Prog.ask_bind]
  show ∃ n s', (w.run (Motor.brakeLoop _ _ _ >>= fun _ => Motor.stop) _).2.2 = _
  rw [run, Prog.play_bind]
  exact ⟨_, _, rfl⟩

theorem slows_brake {decelRate : ℕ} (hrate : 0 < decelRate) {s : MotorSys}
    (hs : FreqOk s.motor.currentFreq) : w.Slows (Motor.brake decelRate) (0, s) ↔
      ∀ k, (k + 1) * decelRate < s.motor.currentFreq → ¬(w.others s k).Startable := by
  have hstop : ∀ x, w.Slows Motor.stop x := fun x =>
    (w.slows_act _ _ x).mpr ⟨Nat.zero_le _, trivial⟩
  have hbegin : Alike (MotorAct.beginBrake.eff s) s := ⟨rfl, rfl, rfl, Iff.rfl⟩
  have hclamp : (Motor.clampFreq s.motor.currentFreq).1 = s.motor.currentFreq := by
    unfold Motor.clampFreq
    unfold FreqOk at hs
    dsimp only
    split_ifs <;> dsimp only <;> omega
  have hrequests : ∀ f ∈ Motor.requests decelRate s.motor.currentFreq,
      (Motor.clampFreq f).1 ≤ s.motor.currentFreq := fun f hf =>
    (clampFreq_mono (Motor.le_of_mem_requests hf)).trans hclamp.le
  have hrate' : (0 : ℚ) < decelRate := by exact_mod_cast hrate
  let s₁ := after Meddle.eff (w.gap 0) (MotorAct.beginBrake.eff s)
  have hle : s₁.motor.currentFreq = 0 ∨ ∀ f ∈ Motor.requests decelRate s.motor.currentFreq,
      (Motor.clampFreq f).1 ≤ s₁.motor.currentFreq := by
    refine (Meddle.currentFreq_after (w.gap 0) _).imp_right fun h f hf => ?_
    rw [h]
    exact hrequests f hf
  unfold Motor.brake
  rw [if_neg hrate.ne', Prog.ask_bind, slows_act]
  refine (and_iff_right le_rfl).trans ?_
  show w.Slows (Motor.brakeLoop decelRate s.motor.currentFreq s.motor.currentFreq >>= fun _ =>
    Motor.stop) (0, s₁) ↔ _
  rw [Slows, Prog.along_bind, and_iff_left (hstop _), Motor.brakeLoop_eq hrate le_rfl]
  refine (w.slows_asking 0 s₁ s (Motor.requests_sorted ..) (hbegin.after (w.gap 0)) hle).trans ?_
  refine forall_congr' fun k => ?_
  rw [Nat.zero_add]
  constructor
  · intro h hk
    have hlt : k < (Motor.requests decelRate s.motor.currentFreq).length := by
      rw [Motor.length_requests, Nat.lt_ceil, lt_div_iff₀ hrate']
      exact_mod_cast (Nat.mul_le_mul_right decelRate k.le_succ).trans_lt hk
    refine h hlt ?_
    rw [Motor.getElem_requests]
    omega
  · intro h hk hne
    rw [Motor.getElem_requests] at hne
    exact h (by omega)

end Gaps

/-- **Braking only slows down.** In any state that two threads reach, a braking call stops the motor
with a request for each step of the ramp. Its frequency does not rise, whatever happens between the
requests, exactly if no request for a nonzero frequency finds the motor stopped by the other thread,
and no fault recorded. -/
theorem brake_iff (d : MotorSys) (timClk : ℕ) (faultPin : ℤ) (dirInvert : Bool)
    (es : List (Event MotorThread MotorCall MotorEnv)) {decelRate : ℕ} (hrate : 0 < decelRate)
    (w : Gaps) :
    let s := (motorMachine.run (.idle (d.init timClk faultPin dirInvert) ()) es).st
    BrakesOnly w decelRate s ↔
      ∀ k, (k + 1) * decelRate < s.motor.currentFreq → ¬(w.others s k).Startable := by
  intro s
  have hs : FreqOk s.motor.currentFreq := freqOk_run d timClk faultPin dirInvert es
  rw [← w.slows_brake hrate hs]
  refine ⟨BrakesOnly.slows, fun hslows => ⟨hslows, ?_, ?_⟩⟩
  · exact ⟨_, Motor.brakeLoop_eq hrate le_rfl, Motor.length_requests ..⟩
  · obtain ⟨n, s', hrun⟩ := w.run_brake hrate s
    rw [hrun]
    exact ⟨⟨rfl, rfl⟩, rfl, rfl⟩

/-- The run of a motor on pin 7 up to a frequency of 1000 Hz. -/
def to1000Hz : List (Event MotorThread MotorCall MotorEnv) :=
  [.call .control (.setFrequency 1000), .step .control, .step .control]

/-- The fault pin falls while the call brakes, and the other thread looks at it at every chance. -/
def faultGaps : Gaps where
  gap k := if k = 2 then [.env (.level 7 false), .checkFault] else [.checkFault]
  pause _ _ := 1

theorem brake_fault : BrakesOnly faultGaps 100
    (motorMachine.run (.idle (MotorSys.zeroed.init 200000000 7 false) ()) to1000Hz).st :=
  (brake_iff MotorSys.zeroed 200000000 7 false to1000Hz (by decide) faultGaps).mpr fun k hk => by
    have hrefused : ∀ k < 9, ¬(faultGaps.others (motorMachine.run
        (.idle (MotorSys.zeroed.init 200000000 7 false) ()) to1000Hz).st k).Startable := by
      decide +kernel
    have hfreq : (motorMachine.run (.idle (MotorSys.zeroed.init 200000000 7 false) ())
        to1000Hz).st.motor.currentFreq = 1000 := by decide +kernel
    exact hrefused k (by omega)

/-- The other thread stops the motor after the first request. -/
def stopGaps : Gaps where
  gap k := if k = 1 then [.stop] else []
  pause _ _ := 1

/-- The second request sets the motor going again, at 800 Hz. -/
theorem not_brake_stop : ¬BrakesOnly stopGaps 100
    (motorMachine.run (.idle (MotorSys.zeroed.init 200000000 7 false) ()) to1000Hz).st := by
  intro h
  have hs := freqOk_run MotorSys.zeroed 200000000 7 false to1000Hz
  refine (stopGaps.slows_brake (by decide) hs).mp h.slows 1 ?_ ?_
  · decide +kernel
  · decide +kernel

end H750Stepper
