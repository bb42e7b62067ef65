import H750Stepper.Speed.SpeedLoop

/-!
# The displacement measured by the speed loop

A tick measures the displacement since the tick before in `enc_delta`, with the sign that
`enc_invert` asks for. `speed_loop_start` stores the reading of the encoder without that sign, so
the first tick of an inverted loop measures from the wrong place.

`displacement_iff`: the deltas of a run of ticks add up to the displacement since the start exactly
if the encoder is not inverted or twice the reading at the start is zero as a signed word.
-/

namespace H750Stepper

open Threads CInt

/-! ## Histories -/

/-- What happens to a speed loop, one call after the other. -/
inductive SpeedOp where
  | start | stop | tick
  | setTarget (targetHz : ℚ)
  | turn (d : ℤ)
  deriving DecidableEq

variable (cfg : SpeedConfig)

/-- The state after a call, or after the shaft has turned. -/
def SpeedOp.apply (s : SpeedSys) : SpeedOp → SpeedSys
  | .start => (SpeedLoop.start.exec SpeedAct.eff s).2
  | .stop => (SpeedLoop.stop.exec SpeedAct.eff s).2
  | .tick => ((SpeedLoop.tick cfg).exec SpeedAct.eff s).2
  | .setTarget targetHz => ((SpeedLoop.setTarget cfg targetHz).exec SpeedAct.eff s).2
  | .turn d => (SpeedEnv.turn d).eff s

/-- The state after a history. -/
def SpeedSys.after (s : SpeedSys) (ops : List SpeedOp) : SpeedSys :=
  ops.foldl (SpeedOp.apply cfg) s

/-- What a tick leaves: the reading of the encoder, the delta and the filtered speed. -/
structure Sample where
  reading : ℤ
  delta : ℤ
  speed : ℚ
  deriving DecidableEq

/-- The samples of the ticks of a history. -/
def samples (s : SpeedSys) : List SpeedOp → List Sample
  | [] => []
  | op :: ops =>
    let s' := op.apply cfg s
    if op = .tick then ⟨s'.enc.overflow, s'.sl.encDelta, s'.sl.currentSpeed⟩ :: samples s' ops
    else samples s' ops

/-- The sign that `enc_invert` gives to the readings. -/
def SpeedConfig.sign : ℤ := if cfg.encInvert then -1 else 1

/-! ## What the calls do to the measurement -/

/-- The fields that the measurement depends on. -/
def SpeedSys.core (s : SpeedSys) : Encoder × Bool × ℤ × ℤ × ℚ :=
  (s.enc, s.sl.running, s.sl.lastEnc, s.sl.encDelta, s.sl.currentSpeed)

/-- The action leaves them alone. -/
def SpeedAct.KeepsCore : SpeedAct → Prop
  | .setRunning _ | .setLastEnc _ | .setEncDelta _ | .setCurrentSpeed _ | .encRead => False
  | _ => True

theorem SpeedAct.KeepsCore.core {l : SpeedAct} (hl : l.KeepsCore) (s : SpeedSys) :
    (l.eff s).core = s.core := by
  cases l <;> first | rfl | exact hl.elim

namespace SpeedOp

variable {s : SpeedSys}

theorem core_setTarget (targetHz : ℚ) : ((setTarget targetHz).apply cfg s).core = s.core :=
  Prog.All.exec_frame (Φ := SpeedAct.KeepsCore) SpeedAct.eff
    (by simp [SpeedLoop.setTarget, SpeedAct.KeepsCore]) (fun _ hl s => hl.core s) s

theorem core_stop : (stop.apply cfg s).core = (s.enc, false, 0, 0, 0) := by
  simp [SpeedOp.apply, SpeedLoop.stop, SpeedAct.eff, SpeedSys.core]

theorem core_start (h : s.sl.running = false) :
    (start.apply cfg s).core =
      (s.enc.read, true, s.enc.read.overflow, s.sl.encDelta, s.sl.currentSpeed) := by
  simp [SpeedOp.apply, SpeedLoop.start, SpeedLoop.readRunning, SpeedLoop.encRead, SpeedAct.eff,
    SpeedSys.core, h]

theorem core_start_running (h : s.sl.running = true) : (start.apply cfg s).core = s.core := by
  simp [SpeedOp.apply, SpeedLoop.start, SpeedLoop.readRunning, SpeedAct.eff, h]

/-- The signed position of a reading. -/
def pos (reading : ℤ) : ℤ :=
  if cfg.encInvert then wrap 32 (-reading) else reading

theorem core_tick (h : s.sl.running = true) :
    (tick.apply cfg s).core =
      (s.enc.read, true, pos cfg s.enc.read.overflow,
        sub32 (pos cfg s.enc.read.overflow) s.sl.lastEnc,
        s.sl.currentSpeed * (1 / 2) +
          (sub32 (pos cfg s.enc.read.overflow) s.sl.lastEnc : ℚ) * cfg.freqHz * cfg.speedRatio *
            (1 / 2)) := by
  have hmeasure : (tick.apply cfg s).core =
      ((SpeedLoop.measureSpeed cfg).exec SpeedAct.eff s).2.core := by
    have hread : (SpeedAct.read .running).eff s = s := rfl
    simp only [SpeedOp.apply, SpeedLoop.tick, SpeedLoop.readRunning, Prog.ask_bind, Prog.exec_act,
      hread, h, if_true, Prog.exec_bind SpeedAct.eff (SpeedLoop.measureSpeed cfg)]
    refine Prog.All.exec_frame (Φ := SpeedAct.KeepsCore) SpeedAct.eff ?_
      (fun _ hl s => hl.core s) _
    simp [SpeedLoop.readCurrentSpeed, SpeedLoop.ramp, SpeedLoop.output, SpeedLoop.readRampTarget,
      SpeedLoop.readRampCurrent, SpeedAct.KeepsCore]
  rw [hmeasure]
  simp [SpeedLoop.measureSpeed, SpeedLoop.encRead, SpeedLoop.readLastEnc,
    SpeedLoop.readCurrentSpeed, SpeedAct.eff, SpeedSys.core, pos, h]

theorem core_tick_stopped (h : s.sl.running = false) : (tick.apply cfg s).core = s.core := by
  simp [SpeedOp.apply, SpeedLoop.tick, SpeedLoop.readRunning, SpeedAct.eff, SpeedSys.core, h]

end SpeedOp

/-- The projections of `core`. -/
theorem SpeedSys.of_core {s : SpeedSys} {x : Encoder × Bool × ℤ × ℤ × ℚ} (h : s.core = x) :
    s.enc = x.1 ∧ s.sl.running = x.2.1 ∧ s.sl.lastEnc = x.2.2.1 ∧ s.sl.encDelta = x.2.2.2.1 ∧
      s.sl.currentSpeed = x.2.2.2.2 := by
  subst h
  exact ⟨rfl, rfl, rfl, rfl, rfl⟩

/-- A stopped loop shows no speed. -/
def SpeedSys.Rests (s : SpeedSys) : Prop := s.sl.running = false → s.sl.currentSpeed = 0

theorem SpeedOp.rests {s : SpeedSys} (h : s.Rests) (op : SpeedOp) : (op.apply cfg s).Rests := by
  unfold SpeedSys.Rests at h ⊢
  cases op with
  | stop => exact fun _ => (SpeedSys.of_core (SpeedOp.core_stop cfg)).2.2.2.2
  | setTarget targetHz =>
    have hcore := SpeedOp.core_setTarget cfg (s := s) targetHz
    obtain ⟨-, hrun, -, -, hspeed⟩ := SpeedSys.of_core hcore
    exact fun hr => hspeed.trans (h (hrun.symm.trans hr))
  | turn d => exact h
  | start =>
    cases hs : s.sl.running with
    | true =>
      have := (SpeedSys.of_core (SpeedOp.core_start_running cfg hs)).2.1
      exact fun hr => absurd (hr.symm.trans (this.trans hs)) (by simp)
    | false =>
      have := (SpeedSys.of_core (SpeedOp.core_start cfg hs)).2.1
      exact fun hr => absurd (hr.symm.trans this) (by simp)
  | tick =>
    cases hs : s.sl.running with
    | true =>
      have := (SpeedSys.of_core (SpeedOp.core_tick cfg hs)).2.1
      exact fun hr => absurd (hr.symm.trans this) (by simp)
    | false =>
      have := (SpeedSys.of_core (SpeedOp.core_tick_stopped cfg hs)).2.2.2.2
      exact fun _ => this.trans (h hs)

theorem SpeedSys.rests_after {s : SpeedSys} (h : s.Rests) (ops : List SpeedOp) :
    (s.after cfg ops).Rests := by
  induction ops generalizing s with
  | nil => exact h
  | cons op ops ih => exact ih (op.rests cfg h)

/-! ## Sums of deltas -/

/-- The latest reading, `e` before the first tick. -/
def lastReading (e : ℤ) : List Sample → ℤ
  | [] => e
  | x :: l => lastReading x.reading l

/-- The sum of the deltas. -/
def totalDelta (l : List Sample) : ℤ := (l.map Sample.delta).sum

/-- The differences of consecutive readings, with the sign of the loop, are signed words. -/
def Bounded (e : ℤ) (l : List Sample) : Prop :=
  List.IsChain (fun x y => Fits 32 (cfg.sign * (y - x))) (e :: l.map Sample.reading)

instance (e : ℤ) (l : List Sample) : Decidable (Bounded cfg e l) :=
  inferInstanceAs (Decidable (List.IsChain _ _))

theorem pos_emod (reading : ℤ) :
    SpeedOp.pos cfg reading % 2 ^ 32 = cfg.sign * reading % 2 ^ 32 := by
  unfold SpeedOp.pos SpeedConfig.sign
  split_ifs
  · rw [wrap_emod]; congr 1; ring
  · rw [one_mul]

/-- A delta is right exactly if the place it is measured from is right modulo `2 ^ 32`. -/
theorem delta_eq_iff {r e last : ℤ} (hfit : Fits 32 (cfg.sign * (r - e))) :
    sub32 (SpeedOp.pos cfg r) last = cfg.sign * (r - e) ↔
      last % 2 ^ 32 = cfg.sign * e % 2 ^ 32 := by
  have hr := pos_emod cfg r
  have hw := wrap_emod 32 (SpeedOp.pos cfg r - last)
  rw [mul_sub] at hfit ⊢
  unfold sub32
  constructor
  · intro h
    rw [h] at hw
    omega
  · intro h
    rw [← wrap_of_fits hfit]
    exact wrap_congr (by omega)

theorem totalDelta_cons (x : Sample) (l : List Sample) :
    totalDelta (x :: l) = x.delta + totalDelta l := rfl

variable {cfg}

/-- Only `stop` stops a loop that runs. -/
theorem SpeedOp.running {s : SpeedSys} (h : s.sl.running = true) {op : SpeedOp} (hop : op ≠ .stop) :
    (op.apply cfg s).sl.running = true := by
  cases op with
  | stop => exact absurd rfl hop
  | setTarget targetHz => exact (SpeedSys.of_core (SpeedOp.core_setTarget cfg targetHz)).2.1.trans h
  | turn d => exact h
  | start => exact (SpeedSys.of_core (SpeedOp.core_start_running cfg h)).2.1.trans h
  | tick => exact (SpeedSys.of_core (SpeedOp.core_tick cfg h)).2.1

/-- Between two ticks the place to measure from stays, and so does the speed. -/
theorem SpeedOp.between (cfg : SpeedConfig) {s : SpeedSys} (h : s.sl.running = true)
    {op : SpeedOp} (hop : op ≠ .stop) (htick : op ≠ .tick) :
    (op.apply cfg s).sl.lastEnc = s.sl.lastEnc ∧
      (op.apply cfg s).sl.currentSpeed = s.sl.currentSpeed := by
  have hcore : ∀ {x : SpeedSys}, x.core = s.core →
      x.sl.lastEnc = s.sl.lastEnc ∧ x.sl.currentSpeed = s.sl.currentSpeed :=
    fun hx => ⟨(SpeedSys.of_core hx).2.2.1, (SpeedSys.of_core hx).2.2.2.2⟩
  cases op with
  | stop => exact absurd rfl hop
  | tick => exact absurd rfl htick
  | setTarget targetHz => exact hcore (SpeedOp.core_setTarget cfg targetHz)
  | turn d => exact ⟨rfl, rfl⟩
  | start => exact hcore (SpeedOp.core_start_running cfg h)

/-- The sample of a tick of a loop that runs. -/
theorem samples_tick {s : SpeedSys} (h : s.sl.running = true) (ops : List SpeedOp) :
    samples cfg s (.tick :: ops) =
      ⟨s.enc.read.overflow, sub32 (SpeedOp.pos cfg s.enc.read.overflow) s.sl.lastEnc,
        s.sl.currentSpeed * (1 / 2) +
          (sub32 (SpeedOp.pos cfg s.enc.read.overflow) s.sl.lastEnc : ℚ) * cfg.freqHz *
            cfg.speedRatio * (1 / 2)⟩ :: samples cfg (SpeedOp.tick.apply cfg s) ops := by
  obtain ⟨henc, -, -, hdelta, hspeed⟩ := SpeedSys.of_core (SpeedOp.core_tick cfg h)
  rw [samples, if_pos rfl, henc, hdelta, hspeed]

theorem samples_of_ne {s : SpeedSys} {op : SpeedOp} (hop : op ≠ .tick) (ops : List SpeedOp) :
    samples cfg s (op :: ops) = samples cfg (op.apply cfg s) ops := by
  rw [samples, if_neg hop]

/-- From the right place, the deltas telescope. -/
theorem totalDelta_eq {s : SpeedSys} {e : ℤ} {ops : List SpeedOp} (hrun : s.sl.running = true)
    (hops : .stop ∉ ops) (hlast : s.sl.lastEnc % 2 ^ 32 = cfg.sign * e % 2 ^ 32)
    (hfit : Bounded cfg e (samples cfg s ops)) :
    totalDelta (samples cfg s ops) = cfg.sign * (lastReading e (samples cfg s ops) - e) := by
  induction ops generalizing s e with
  | nil => simp [samples, totalDelta, lastReading]
  | cons op ops ih =>
    obtain ⟨hop, hrest⟩ := not_or.mp (mt List.mem_cons.mpr hops)
    by_cases htick : op = .tick
    · subst htick
      rw [samples_tick hrun] at hfit ⊢
      obtain ⟨hfit, hchain⟩ := List.isChain_cons_cons.mp hfit
      have hplace := (SpeedSys.of_core (SpeedOp.core_tick cfg hrun)).2.2.1
      have hsum := ih (SpeedOp.running hrun (Ne.symm hop)) hrest (hplace ▸ pos_emod cfg _) hchain
      have hdelta := (delta_eq_iff cfg hfit).mpr hlast
      rw [totalDelta_cons, lastReading, hsum, hdelta]
      ring
    · rw [samples_of_ne htick] at hfit ⊢
      obtain ⟨hl, -⟩ := SpeedOp.between cfg hrun (Ne.symm hop) htick
      exact ih (SpeedOp.running hrun (Ne.symm hop)) hrest (hl ▸ hlast) hfit

/-- The deltas of at least one tick add up to the displacement only from the right place. -/
theorem totalDelta_eq_iff {s : SpeedSys} {e : ℤ} {ops : List SpeedOp} (hrun : s.sl.running = true)
    (hops : .stop ∉ ops) (hfit : Bounded cfg e (samples cfg s ops)) (hne : samples cfg s ops ≠ []) :
    totalDelta (samples cfg s ops) = cfg.sign * (lastReading e (samples cfg s ops) - e) ↔
      s.sl.lastEnc % 2 ^ 32 = cfg.sign * e % 2 ^ 32 := by
  refine ⟨fun hsum => ?_, fun hlast => totalDelta_eq hrun hops hlast hfit⟩
  induction ops generalizing s with
  | nil => exact absurd rfl hne
  | cons op ops ih =>
    obtain ⟨hop, hrest⟩ := not_or.mp (mt List.mem_cons.mpr hops)
    by_cases htick : op = .tick
    · subst htick
      rw [samples_tick hrun] at hfit hsum
      obtain ⟨hfit, hchain⟩ := List.isChain_cons_cons.mp hfit
      have hplace := (SpeedSys.of_core (SpeedOp.core_tick cfg hrun)).2.2.1
      have htail := totalDelta_eq (SpeedOp.running hrun (Ne.symm hop)) hrest
        (hplace ▸ pos_emod cfg _) hchain
      rw [totalDelta_cons, lastReading, htail] at hsum
      refine (delta_eq_iff cfg hfit).mp ?_
      linear_combination hsum
    · rw [samples_of_ne htick] at hfit hsum hne
      obtain ⟨hl, -⟩ := SpeedOp.between cfg hrun (Ne.symm hop) htick
      exact hl ▸ ih (SpeedOp.running hrun (Ne.symm hop)) hrest hfit hne hsum

/-- From the right place, a motor that does not move shows no speed. -/
theorem speed_eq_zero {s : SpeedSys} {e : ℤ} {ops : List SpeedOp} (hrun : s.sl.running = true)
    (hops : .stop ∉ ops) (hlast : s.sl.lastEnc % 2 ^ 32 = cfg.sign * e % 2 ^ 32)
    (hspeed : s.sl.currentSpeed = 0) (hrest : ∀ x ∈ samples cfg s ops, x.reading = e) :
    ∀ x ∈ samples cfg s ops, x.speed = 0 := by
  induction ops generalizing s with
  | nil => simp [samples]
  | cons op ops ih =>
    obtain ⟨hop, hnext⟩ := not_or.mp (mt List.mem_cons.mpr hops)
    by_cases htick : op = .tick
    · subst htick
      rw [samples_tick hrun] at hrest ⊢
      obtain ⟨hr, hrest⟩ := List.forall_mem_cons.mp hrest
      obtain ⟨-, -, hplace, -, hspeed'⟩ := SpeedSys.of_core (SpeedOp.core_tick cfg hrun)
      have hr : s.enc.read.overflow = e := hr
      have hdelta : sub32 (SpeedOp.pos cfg s.enc.read.overflow) s.sl.lastEnc = 0 := by
        have := (delta_eq_iff cfg (r := e) (e := e) (by simp [Fits])).mpr hlast
        rw [hr, this, sub_self, mul_zero]
      have hzero : (SpeedOp.tick.apply cfg s).sl.currentSpeed = 0 := by
        rw [hspeed', hdelta, hspeed]
        simp
      refine List.forall_mem_cons.mpr ⟨by simp [hdelta, hspeed], ?_⟩
      exact ih (SpeedOp.running hrun (Ne.symm hop)) hnext (hplace ▸ hr ▸ pos_emod cfg _) hzero hrest
    · rw [samples_of_ne htick] at hrest ⊢
      obtain ⟨hl, hs⟩ := SpeedOp.between cfg hrun (Ne.symm hop) htick
      exact ih (SpeedOp.running hrun (Ne.symm hop)) hnext (hl ▸ hlast) (hs.trans hspeed) hrest

/-! ## From start to stop -/

/-- The reading of the encoder that `speed_loop_start` takes. -/
def SpeedSys.startReading (s : SpeedSys) : ℤ := s.enc.read.overflow

/-- The deltas of all ticks add up to the displacement since the reading `e`, and a motor that has
not moved since shows no speed. -/
def MeasuresFrom (cfg : SpeedConfig) (e : ℤ) (l : List Sample) : Prop :=
  totalDelta l = cfg.sign * (lastReading e l - e) ∧
    ((∀ x ∈ l, x.reading = e) → ∀ x ∈ l, x.speed = 0)

/-- The place that an inverted loop measures its first delta from is right only where both signs
agree. -/
theorem start_place_iff (cfg : SpeedConfig) (e : ℤ) :
    e % 2 ^ 32 = cfg.sign * e % 2 ^ 32 ↔ cfg.encInvert = false ∨ wrap 32 (2 * e) = 0 := by
  have hw := wrap_emod 32 (2 * e)
  unfold SpeedConfig.sign
  cases cfg.encInvert with
  | false => simp
  | true =>
    simp only [if_true, Bool.true_eq_false, false_or]
    constructor
    · intro h
      rw [← wrap_of_fits (w := 32) (x := 0) (by decide)]
      exact wrap_congr (by omega)
    · intro h
      rw [h] at hw
      omega

/-- **The measured displacement.** From any history that ends with the loop stopped, the ticks
after the next start measure the displacement since that start exactly if the encoder is not
inverted or twice its reading at the start is zero as a signed word. -/
theorem displacement_iff (cfg : SpeedConfig) (s₀ : SpeedSys) (hist ops : List SpeedOp)
    (hstopped : (({ s₀ with sl := .init } : SpeedSys).after cfg hist).sl.running = false)
    (hops : .stop ∉ ops) :
    let s := ({ s₀ with sl := .init } : SpeedSys).after cfg hist
    let l := samples cfg (SpeedOp.start.apply cfg s) ops
    l ≠ [] → Bounded cfg s.startReading l →
      (MeasuresFrom cfg s.startReading l ↔
        cfg.encInvert = false ∨ wrap 32 (2 * s.startReading) = 0) := by
  intro s l hne hfit
  have hinit : ({ s₀ with sl := .init } : SpeedSys).Rests := fun _ => rfl
  have hspeed : s.sl.currentSpeed = 0 := SpeedSys.rests_after cfg hinit hist hstopped
  obtain ⟨-, hrun, hplace, -, hspeed'⟩ := SpeedSys.of_core (SpeedOp.core_start cfg hstopped)
  have hsum := totalDelta_eq_iff hrun hops hfit hne
  rw [hplace] at hsum
  rw [← start_place_iff]
  refine ⟨fun h => hsum.mp h.1, fun h => ⟨hsum.mpr h, ?_⟩⟩
  exact speed_eq_zero hrun hops (hplace ▸ h) (hspeed'.trans hspeed)

/-- A loop of motor 0, with and without inversion. -/
def speedConfig0 (encInvert : Bool) : SpeedConfig := ⟨50, 1000, 50, 200, 8 / 5, encInvert⟩

/-- Not inverted, the shaft 100 counts off its zero at the start, then a move to and fro. -/
theorem displacement_iff_plain :
    MeasuresFrom (speedConfig0 false) 100
      (samples (speedConfig0 false)
        (SpeedOp.start.apply (speedConfig0 false)
          (({ (default : SpeedSys) with sl := .init } : SpeedSys).after (speedConfig0 false)
            [.turn 100]))
        [.tick, .turn 7, .tick, .turn (-9), .tick]) ↔ false = false ∨ wrap 32 (2 * 100) = 0 :=
  displacement_iff (speedConfig0 false) default [.turn 100]
    [.tick, .turn 7, .tick, .turn (-9), .tick] (by decide +kernel) (by decide) (by decide +kernel)
    (by decide +kernel)

/-- Inverted, 100 counts off zero: a shaft that does not move shows a delta of -200 counts. -/
theorem displacement_inverted :
    (({ (default : SpeedSys) with sl := .init } : SpeedSys).after (speedConfig0 true)
        [.turn 100]).startReading = 100 ∧
      samples (speedConfig0 true)
          (SpeedOp.start.apply (speedConfig0 true)
            (({ (default : SpeedSys) with sl := .init } : SpeedSys).after (speedConfig0 true)
              [.turn 100]))
          [.tick] = [⟨100, -200, -8000⟩] := by
  constructor <;> decide +kernel

end H750Stepper
