import H750Stepper.Driver.Bookkeeping
import H750Stepper.Lib.Counter

/-!
# The pulse train under repeated requests

The control loops pass a frequency to the driver in every period, also when it has not changed.
`freq_write_raw` then writes the registers again, with the values they have, and ends with
`EGR.UG`, which clears the counter of the timer: the half period that has begun is lost.

`recommand_iff`: the output toggles as without the repeated requests exactly if each of them falls a
whole number of half periods after the first, or is followed by another one before an edge shows it.
-/

namespace H750Stepper

open Threads Periodic

/-! ## The timer -/

/-- A driver with the counter of its pulse timer. -/
structure PulseSys where
  drv : MotorSys
  counter : Counter

/-- What an action does to both: `freq_write_raw` ends with `EGR.UG`, except when it stops the
channel. -/
def MotorAct.pulse (l : MotorAct) (s : PulseSys) : PulseSys where
  drv := l.eff s.drv
  counter := match l with
    | .setFrequency clamped => if clamped = 0 then s.counter else s.counter.update
    | _ => s.counter

namespace PulseSys

/-- A request for a frequency. -/
def setFrequency (freqHz : ℕ) (s : PulseSys) : PulseSys :=
  (((Motor.setFrequency freqHz).zoom id PulseSys.drv).exec MotorAct.pulse s).2

/-- An edge of the timer clock, and what the environment does meanwhile. -/
def edge (e : MotorEnv) (s : PulseSys) : PulseSys where
  drv := e.eff s.drv
  counter := s.counter.edge s.drv.tim.psc s.drv.tim.arr

/-- The output toggles with the next edge: the channel is on and the counter advances to `CCR`. -/
def Toggles (s : PulseSys) : Prop :=
  s.drv.tim.oc = true ∧ s.counter.Reaches s.drv.tim.psc s.drv.tim.arr s.drv.tim.ccr

/-- The state after `t` edges, with further requests at the instants that `again` names. -/
def run (freqHz : ℕ) (env : ℕ → MotorEnv) (again : ℕ → Bool) (s : PulseSys) : ℕ → PulseSys
  | 0 => if again 0 then s.setFrequency freqHz else s
  | t + 1 =>
    let s := (run freqHz env again s t).edge (env t)
    if again (t + 1) then s.setFrequency freqHz else s

end PulseSys

/-- The registers for a frequency, with the channel on. -/
def pulseTim (timClk f : ℕ) : Tim where
  psc := (timerPair timClk f).1
  arr := (timerPair timClk f).2
  ccr := (timerPair timClk f).2 / 2
  oc := true

/-- The clocks between two edges of the output. -/
def halfPeriod (timClk f : ℕ) : ℕ := ((timerPair timClk f).1 + 1) * ((timerPair timClk f).2 + 1)

/-- The clocks from an update event to the first edge. -/
def firstEdge (timClk f : ℕ) : ℕ := ((timerPair timClk f).1 + 1) * ((timerPair timClk f).2 / 2)

theorem firstEdge_lt (timClk f : ℕ) : firstEdge timClk f < halfPeriod timClk f := by
  unfold firstEdge halfPeriod
  exact Nat.mul_lt_mul_of_pos_left (by omega) (Nat.succ_pos _)

/-! ## One request -/

/-- The channel is on exactly while the motor is recorded as running. -/
structure MotorSys.Wired (timClk : ℕ) (s : MotorSys) : Prop where
  timClk : s.motor.timClk = timClk
  channel : s.tim.oc = s.motor.running

namespace MotorSys

variable {timClk : ℕ} {s s' : MotorSys}

theorem Wired.accumulate (h : s.Wired timClk) : s.stepsAccumulate.Wired timClk := by
  obtain ⟨total, last, hacc⟩ := s.stepsAccumulate_frame
  rw [hacc]
  exact ⟨h.timClk, h.channel⟩

/-- The registers depend on the clock and the frequency only. -/
theorem Wired.freqWriteRaw_tim (h : s.Wired timClk) {f : ℕ} (hf : f ≠ 0) :
    (s.freqWriteRaw f).tim = pulseTim timClk f := by
  have hoc : (if s.motor.running then s.tim.oc else true) = true := by
    rw [h.channel]
    cases s.motor.running <;> rfl
  unfold freqWriteRaw pulseTim timerPair
  rw [if_neg hf, h.timClk, hoc]

theorem Wired.freqWriteRaw (h : s.Wired timClk) (f : ℕ) : (s.freqWriteRaw f).Wired timClk := by
  by_cases hf : f = 0
  · unfold MotorSys.freqWriteRaw
    rw [if_pos hf]
    exact ⟨h.timClk, rfl⟩
  · have htim := h.freqWriteRaw_tim hf
    unfold MotorSys.freqWriteRaw at htim ⊢
    rw [if_neg hf] at htim ⊢
    exact ⟨h.timClk, congrArg Tim.oc htim⟩

theorem Wired.eff (h : s.Wired timClk) (l : MotorAct) : (l.eff s).Wired timClk := by
  have hacc := h.accumulate
  cases l with
  | start =>
    show s.startSection.Wired timClk
    unfold startSection
    split_ifs <;> exact ⟨h.timClk, rfl⟩
  | stop | faultStop | disable => exact ⟨hacc.timClk, rfl⟩
  | setFrequency clamped =>
    show (s.setFrequencySection clamped).Wired timClk
    unfold setFrequencySection
    split_ifs
    · exact ⟨(hacc.freqWriteRaw 0).timClk, (hacc.freqWriteRaw 0).channel⟩
    · exact ⟨(hacc.freqWriteRaw clamped).timClk, (hacc.freqWriteRaw clamped).channel⟩
  | setDirection | clearSteps => exact ⟨hacc.timClk, hacc.channel⟩
  | getSteps => exact hacc
  | _ => exact ⟨h.timClk, h.channel⟩

theorem Wired.later (hlater : s.Later s') (h : s.Wired timClk) : s'.Wired timClk := by
  rw [hlater.frame]
  exact ⟨h.timClk, h.channel⟩

/-- After any session. -/
theorem Wired.session {s₀ : MotorSys} {faultPin : ℤ} {dirInvert : Bool}
    {l : List (CallRun × MotorSys)} (hl : MotorSession (s₀.init timClk faultPin dirInvert) l) :
    (lastState (s₀.init timClk faultPin dirInvert) l).Wired timClk := by
  refine hl.last (I := MotorSys.Wired timClk) (fun s x s' h hx => ?_) ⟨rfl, rfl⟩
  exact hx.inv (Φ := fun _ => True) (Prog.all_true _) (fun l _ s h => h.eff l)
    (fun s s' hlater h => h.later hlater) h

end MotorSys

/-- The frequency `f` is in effect. -/
structure PulseSys.Drives (timClk f : ℕ) (s : PulseSys) : Prop where
  wired : s.drv.Wired timClk
  fault : s.drv.motor.faultState = .none
  tim : s.drv.tim = pulseTim timClk f

namespace PulseSys

variable {timClk f : ℕ} {s : PulseSys}

/-- A request of a motor without a fault. -/
theorem setFrequency_eq (hmin : motorMinFreqHz ≤ f) (hmax : f ≤ motorMaxFreqHz)
    (hfault : s.drv.motor.faultState = .none) :
    s.setFrequency f = ⟨s.drv.setFrequencySection f, ⟨0, 0⟩⟩ := by
  have hclamp : (Motor.clampFreq f).1 = f := by
    unfold motorMinFreqHz at hmin
    unfold motorMaxFreqHz at hmax
    unfold Motor.clampFreq motorMinFreqHz motorMaxFreqHz
    dsimp only
    rw [if_neg (by omega), if_neg (by omega)]
  have hpos : f > 0 := lt_of_lt_of_le (by decide) hmin
  unfold setFrequency Motor.setFrequency
  dsimp only
  rw [hclamp, if_pos hpos]
  show (Prog.exec MotorAct.pulse (Prog.zoom id PulseSys.drv
    (if s.drv.motor.faultState ≠ .none then _ else _)) _).2 = _
  rw [if_neg (not_not.mpr hfault)]
  show PulseSys.mk (s.drv.setFrequencySection f) (if f = 0 then _ else _) = _
  rw [if_neg hpos.ne']
  rfl

theorem counter_setFrequency (hmin : motorMinFreqHz ≤ f) (hmax : f ≤ motorMaxFreqHz)
    (hfault : s.drv.motor.faultState = .none) : (s.setFrequency f).counter = ⟨0, 0⟩ := by
  rw [setFrequency_eq hmin hmax hfault]

theorem drives_setFrequency (hmin : motorMinFreqHz ≤ f) (hmax : f ≤ motorMaxFreqHz)
    (hwired : s.drv.Wired timClk) (hfault : s.drv.motor.faultState = .none) :
    (s.setFrequency f).Drives timClk f := by
  have hne : f ≠ 0 := (lt_of_lt_of_le (by decide) hmin).ne'
  rw [setFrequency_eq hmin hmax hfault]
  refine ⟨hwired.eff (.setFrequency f), ?_, ?_⟩
  · have hkeep := MotorAct.faultState_eff (l := .setFrequency f) (by simp) (by simp) (by simp) s.drv
    exact hkeep.trans hfault
  · show (s.drv.setFrequencySection f).tim = _
    unfold MotorSys.setFrequencySection
    dsimp only
    rw [if_neg hne]
    exact hwired.accumulate.freqWriteRaw_tim hne

theorem Drives.edge (h : s.Drives timClk f) (e : MotorEnv) : (s.edge e).Drives timClk f := by
  cases e <;> exact ⟨⟨h.wired.timClk, h.wired.channel⟩, h.fault, h.tim⟩

/-! ## A run -/

/-- A further request finds the frequency in effect, and clears the counter. -/
theorem Drives.requested (hmin : motorMinFreqHz ≤ f) (hmax : f ≤ motorMaxFreqHz)
    (h : s.Drives timClk f) {n : ℕ}
    (hcounter : s.counter = Counter.after (pulseTim timClk f).psc (pulseTim timClk f).arr n)
    (b : Bool) :
    (if b then s.setFrequency f else s).Drives timClk f ∧
      (if b then s.setFrequency f else s).counter =
        Counter.after (pulseTim timClk f).psc (pulseTim timClk f).arr (if b then 0 else n) := by
  cases b with
  | false => exact ⟨h, hcounter⟩
  | true =>
    refine ⟨drives_setFrequency hmin hmax h.wired h.fault, ?_⟩
    rw [if_pos rfl, if_pos rfl, setFrequency_eq hmin hmax h.fault, Counter.after_zero]

variable (env : ℕ → MotorEnv) (again : ℕ → Bool)

/-- The invariant: the counter shows the time since the last request. -/
theorem run_spec (hmin : motorMinFreqHz ≤ f) (hmax : f ≤ motorMaxFreqHz) (h : s.Drives timClk f)
    (hzero : s.counter = ⟨0, 0⟩) (t : ℕ) :
    (s.run f env again t).Drives timClk f ∧
      (s.run f env again t).counter =
        Counter.after (pulseTim timClk f).psc (pulseTim timClk f).arr
          (if again t then 0 else age again t) := by
  induction t with
  | zero => exact h.requested hmin hmax (hzero.trans (Counter.after_zero _ _).symm) (again 0)
  | succ t ih =>
    obtain ⟨hdrives, hcounter⟩ := ih
    refine (hdrives.edge (env t)).requested hmin hmax ?_ (again (t + 1))
    show Counter.edge _ _ _ = _
    rw [hdrives.tim, hcounter, Counter.edge_after]
    rfl

theorem run_toggles_iff (hmin : motorMinFreqHz ≤ f) (hmax : f ≤ motorMaxFreqHz)
    (h : s.Drives timClk f) (hzero : s.counter = ⟨0, 0⟩) (t : ℕ) :
    (s.run f env again t).Toggles ↔
      age again (t + 1) % halfPeriod timClk f = firstEdge timClk f := by
  obtain ⟨hdrives, hcounter⟩ := run_spec env again hmin hmax h hzero t
  unfold Toggles
  rw [hdrives.tim, hcounter, Counter.reaches_after]
  exact and_iff_right rfl

end PulseSys

/-! ## Runs -/

/-- **Repeated requests.** After any session of a motor without a fault, a frequency is set, and
requested again at any instants. The output toggles at the same edges of the timer clock as without
the further requests exactly if each of them goes unnoticed: it falls a whole number of half periods
after the first request, or another one follows it before the next edge of the output, both of the
undisturbed output and of one that has just begun its first half period. -/
theorem recommand_iff (s₀ : MotorSys) (timClk : ℕ) (faultPin : ℤ) (dirInvert : Bool)
    (l : List (CallRun × MotorSys)) (hl : MotorSession (s₀.init timClk faultPin dirInvert) l)
    (hfault : (lastState (s₀.init timClk faultPin dirInvert) l).motor.faultState = .none)
    (counter : Counter) (f : ℕ) (hmin : motorMinFreqHz ≤ f) (hmax : f ≤ motorMaxFreqHz)
    (env : ℕ → MotorEnv) (again : ℕ → Bool) :
    let s := PulseSys.setFrequency f ⟨lastState (s₀.init timClk faultPin dirInvert) l, counter⟩
    (∀ t, (s.run f env again t).Toggles ↔ (s.run f env (fun _ => false) t).Toggles) ↔
      ∀ t, again t = true → Unnoticed (halfPeriod timClk f) (firstEdge timClk f) again t := by
  intro s
  have hdrives : s.Drives timClk f :=
    PulseSys.drives_setFrequency hmin hmax (MotorSys.Wired.session hl) hfault
  have hzero : s.counter = ⟨0, 0⟩ := PulseSys.counter_setFrequency hmin hmax hfault
  have hplain : ∀ t, age (fun _ => false) t = t := fun t => age_eq_self fun _ _ => rfl
  rw [← age_mod_iff (firstEdge_lt timClk f)]
  constructor
  · intro h t ht
    obtain ⟨n, rfl⟩ : ∃ n, t = n + 1 := ⟨t - 1, by omega⟩
    have htoggles := h n
    rwa [PulseSys.run_toggles_iff env again hmin hmax hdrives hzero,
      PulseSys.run_toggles_iff env _ hmin hmax hdrives hzero, hplain] at htoggles
  · intro h t
    rw [PulseSys.run_toggles_iff env again hmin hmax hdrives hzero,
      PulseSys.run_toggles_iff env _ hmin hmax hdrives hzero, hplain]
    exact h (t + 1) t.succ_pos

/-- The motor of a control loop, after its init. -/
def loopMotor : MotorSys := MotorSys.zeroed.init 240000000 (-1) false

/-- The first instants of the periods of a control loop of 50 Hz on a timer clock of 240 MHz. -/
def everyPeriod (t : ℕ) : Bool := t % 4800000 = 0

/-- At 1000 Hz a period of the control loop is 40 half periods. -/
theorem recommand_iff_in_phase :
    let s := PulseSys.setFrequency 1000 ⟨loopMotor, default⟩
    ∀ t, (s.run 1000 (fun _ => .elapse 0) everyPeriod t).Toggles ↔
      (s.run 1000 (fun _ => .elapse 0) (fun _ => false) t).Toggles := by
  intro s
  refine (recommand_iff MotorSys.zeroed 240000000 (-1) false [] trivial rfl default 1000 (by decide)
    (by decide) (fun _ => .elapse 0) everyPeriod).mpr fun t ht => .inl ?_
  have hperiod : halfPeriod 240000000 1000 = 120000 := by decide +kernel
  rw [hperiod]
  exact (Dvd.intro 40 rfl : 120000 ∣ 4800000).trans (Nat.dvd_of_mod_eq_zero (of_decide_eq_true ht))

/-- At 51 Hz the request in the next period takes away the edge that was due. -/
theorem recommand_shifts :
    let s := PulseSys.setFrequency 51 ⟨loopMotor, default⟩
    ¬∀ t, (s.run 51 (fun _ => .elapse 0) everyPeriod t).Toggles ↔
      (s.run 51 (fun _ => .elapse 0) (fun _ => false) t).Toggles := by
  intro s h
  have hdrives : s.Drives 240000000 51 :=
    PulseSys.drives_setFrequency (by decide) (by decide) ⟨rfl, rfl⟩ rfl
  have hzero : s.counter = ⟨0, 0⟩ := PulseSys.counter_setFrequency (by decide) (by decide) rfl
  have hperiod : halfPeriod 240000000 51 = 2352924 := by decide +kernel
  have hfirst : firstEdge 240000000 51 = 1176444 := by decide +kernel
  have hage : age everyPeriod (5882291 + 1) = 1082292 :=
    age_eq_sub (s := 4800000) rfl (by decide) fun r hr hlt =>
      decide_eq_false (by omega : ¬r % 4800000 = 0)
  have hplain : age (fun _ => false) (5882291 + 1) = 5882292 := age_eq_self fun _ _ => rfl
  have htoggles := h 5882291
  rw [PulseSys.run_toggles_iff _ everyPeriod (by decide) (by decide) hdrives hzero,
    PulseSys.run_toggles_iff _ _ (by decide) (by decide) hdrives hzero, hperiod, hfirst, hage,
    hplain] at htoggles
  exact absurd (htoggles.mpr (by norm_num)) (by norm_num)

end H750Stepper
