import H750Stepper.OpenLoop.OpenLoop
import H750Stepper.Position.Notes
import H750Stepper.Position.Tick
import H750Stepper.Speed.SpeedLoop
import H750Stepper.Timer.Registry

/-!
# The divisors of the controllers

The three inits divide by the period, and the speed loop by the counts of a revolution, before they
look at anything; the ticks divide by what came of it. `freq_hz` is a truncated quotient: it is zero
for a period of more than a second, which no init refuses.

Here the divisors are those of the controllers' own code and of the scale. A tick of the speed loop
has none.

`divisors_iff`: for which arguments no divisor is ever zero.
-/

namespace H750Stepper

open Threads

/-! ## The open loop with its divisions -/

/-- A program on an open-loop controller that notes its divisions. -/
abbrev OpenNoted (α : Type) := Prog (Noted ArithNote OpenAct) OpenSys α

namespace OpenLoop.Noting

open Prog (ask perform when quiet)

variable (cfg : OpenConfig)

def decelPoint : OpenNoted Bool := do
  let remaining := (← quiet readTotalSteps) - (← quiet readAccSteps)
  let a := cfg.maxAccel * cfg.freqHz
  let distance ← ArithNote.div ((← quiet readCurrentFreq) * (← quiet readCurrentFreq)) (2 * a)
  quiet (do
    when (remaining ≤ distance) (perform (.setTargetFreq 0))
    if remaining ≤ 1 / 2 then do
      perform (.setCurrentFreq 0)
      perform (.setTargetFreq 0)
      perform (.setPosMode false)
      let _ ← drv (Motor.setFrequency 0)
      return true
    else return false)

def advance : OpenNoted Unit := do
  quiet (ramp cfg)
  let stepInc ← ArithNote.div (← quiet readCurrentFreq) cfg.freqHz
  quiet (do
    perform (.setAccSteps ((← readAccSteps) + stepInc))
    drv (Motor.setDirection (← readDirection))
    let _ ← drv (Motor.setFrequency (← advance.outputFreq)))

/-- One round of `ol_thread_entry`, after the semaphore has been taken. -/
def tick : OpenNoted Unit := do
  if ← quiet readRunning then do
    if ← quiet readPosMode then do
      if ← decelPoint cfg then return
      else advance cfg
    else advance cfg
  else quiet (do
    perform (.setCurrentFreq 0)
    perform (.setPosMode false))

/-- `ol_thread_entry`, observed for `rounds` rounds. -/
def threadEntry : ℕ → OpenNoted Unit
  | 0 => return
  | rounds + 1 => do
    tick cfg
    threadEntry rounds

theorem erase_decelPoint : (decelPoint cfg).erase = OpenLoop.decelPoint cfg := by
  simp [decelPoint, OpenLoop.decelPoint]

theorem erase_advance : (advance cfg).erase = OpenLoop.advance cfg := by
  simp [advance, OpenLoop.advance]

/-- The tick is that of the open loop. -/
theorem erase_tick : (tick cfg).erase = OpenLoop.tick cfg := by
  simp [tick, OpenLoop.tick, erase_decelPoint, erase_advance]

end OpenLoop.Noting

/-- The calls of the API. -/
inductive OpenCall where
  | start | stop
  | move (steps speedHz : ℚ)
  | setFreq (freqHz : ℚ)
  | setDirection (dir : ℤ)

def OpenCall.code (cfg : OpenConfig) : OpenCall → OpenProg Unit
  | .start => OpenLoop.start cfg
  | .stop => OpenLoop.stop
  | .move steps speedHz => OpenLoop.move cfg steps speedHz
  | .setFreq freqHz => OpenLoop.setFreq freqHz
  | .setDirection dir => OpenLoop.setDirection dir

/-- The control thread (`none`) and any number of threads that call the API. -/
def openNotedMachine (cfg : OpenConfig) :
    Machine (Option ℕ) OpenCall MotorEnv (Noted ArithNote OpenAct) OpenSys Unit where
  eff := Noted.eff OpenAct.eff
  code t c := match t with
    | none => .ret ()
    | some _ => (c.code cfg).quiet
  env e s := { s with drv := e.eff s.drv }

/-- The state `s` after an init: the control thread waits for its first round. -/
def OpenSys.launched (cfg : OpenConfig) (rounds : ℕ) (s : OpenSys) :
    Pool (Option ℕ) (Noted ArithNote OpenAct) OpenSys Unit where
  st := s
  thr t := match t with
    | none => OpenLoop.Noting.threadEntry cfg rounds
    | some _ => .ret ()

/-! ## The inits -/

/-- The numbers that `position_loop_init` takes. -/
structure PosInit where
  periodUs : ℕ
  encInvert : Bool
  speedLimit : ℚ
  moveThreshold : ℚ
  maxAccel : ℚ
  sCurveJerk : ℚ
  rampMaxSpeed : ℚ
  countsPerUnit : ℚ
  posMin : ℚ
  posMax : ℚ

/-- What `position_loop_init` computes of them. -/
def PosInit.run (a : PosInit) : PosNoted (PosConfig × PosScale) := do
  let freqHz ← ArithNote.udiv 1000000 a.periodUs
  return ({ freqHz, speedLimit := a.speedLimit, moveThreshold := a.moveThreshold
            maxAccel := a.maxAccel, encInvert := a.encInvert, sCurveJerk := a.sCurveJerk
            rampMaxSpeed := a.rampMaxSpeed },
    PosScale.init a.countsPerUnit a.posMin a.posMax)

/-- The numbers that `speed_loop_init` takes. -/
structure SpeedInit where
  periodUs : ℕ
  stepsPerRev : ℕ
  encCountsPerRev : ℕ
  encInvert : Bool
  speedLimit : ℚ
  moveThreshold : ℚ
  maxAccel : ℚ

/-- What `speed_loop_init` computes of them. -/
def SpeedInit.run (a : SpeedInit) : Prog (Noted ArithNote SpeedAct) SpeedSys SpeedConfig := do
  let freqHz ← ArithNote.udiv 1000000 a.periodUs
  let speedRatio ← ArithNote.div a.stepsPerRev a.encCountsPerRev
  return { freqHz, speedLimit := a.speedLimit, moveThreshold := a.moveThreshold
           maxAccel := a.maxAccel, speedRatio, encInvert := a.encInvert }

/-- The numbers that `stepper_openloop_init` takes. -/
structure OpenInit where
  periodUs : ℕ
  maxAccel : ℚ

/-- What `stepper_openloop_init` computes of them. -/
def OpenInit.run (a : OpenInit) : OpenNoted OpenConfig := do
  let freqHz ← ArithNote.udiv 1000000 a.periodUs
  return { freqHz, maxAccel := a.maxAccel }

/-- No divisor is zero in a position loop with these arguments: in its init, and in every run after
it, in which any threads call the API between the actions of the ticks. -/
def PosInit.NoZeroDivisor (sqrtf : ℚ → ℚ) (a : PosInit) : Prop :=
  a.run.All (Noted.Meets ArithNote.NonZero) ∧ ∀ cfg scale, a.run.Returns (cfg, scale) →
    ∀ s : PosSys, s.pl = .init → s.scale = scale → ∀ rounds es,
      (notedMachine cfg).Along (Machine.Notes ArithNote.NonZero) (s.launched cfg sqrtf rounds) es

/-- No divisor is zero in a speed loop with these arguments, whose tick has none. -/
def SpeedInit.NoZeroDivisor (a : SpeedInit) : Prop :=
  a.run.All (Noted.Meets ArithNote.NonZero) ∧ ∀ cfg, a.run.Returns cfg →
    (SpeedLoop.tick cfg).quiet.All (Noted.Meets ArithNote.NonZero)

/-- No divisor is zero in an open-loop controller with these arguments: in its init, and in every
run after it. -/
def OpenInit.NoZeroDivisor (a : OpenInit) : Prop :=
  a.run.All (Noted.Meets ArithNote.NonZero) ∧ ∀ cfg, a.run.Returns cfg →
    ∀ s : OpenSys, s.ol.running = false → ∀ rounds es,
      (openNotedMachine cfg).Along (Machine.Notes ArithNote.NonZero) (s.launched cfg rounds) es

theorem PosInit.returns_run {a : PosInit} {cfg : PosConfig} {scale : PosScale}
    (h : a.run.Returns (cfg, scale)) :
    cfg.freqHz = 1000000 / a.periodUs ∧ scale.Coherent := by
  obtain ⟨_, h⟩ := h
  cases h
  exact ⟨rfl, PosScale.init_coherent ..⟩

theorem freqHz_eq_zero_iff {periodUs : ℕ} (h : periodUs ≠ 0) :
    1000000 / periodUs = 0 ↔ 1000000 < periodUs :=
  Nat.div_eq_zero_iff_lt (Nat.pos_of_ne_zero h)

/-! ## The open loop -/

namespace OpenLoop.Noting

variable {cfg : OpenConfig}

theorem tick_meets (hF : cfg.freqHz ≠ 0) (hA : cfg.maxAccel ≠ 0) :
    (tick cfg).All (Noted.Meets ArithNote.NonZero) := by
  have hF : (cfg.freqHz : ℚ) ≠ 0 := Nat.cast_ne_zero.mpr hF
  simp [tick, decelPoint, advance, ArithNote.NonZero, hF, hA]

theorem threadEntry_meets (hF : cfg.freqHz ≠ 0) (hA : cfg.maxAccel ≠ 0) (rounds : ℕ) :
    (threadEntry cfg rounds).All (Noted.Meets ArithNote.NonZero) := by
  induction rounds with
  | zero => trivial
  | succ rounds ih => exact Prog.all_bind.2 ⟨tick_meets hF hA, fun _ _ => ih⟩

end OpenLoop.Noting

theorem OpenInit.noZeroDivisor_of {a : OpenInit} (hpos : a.periodUs ≠ 0)
    (hle : a.periodUs ≤ 1000000) (hA : a.maxAccel ≠ 0) : a.NoZeroDivisor := by
  refine ⟨?_, fun cfg hcfg s _ rounds es => ?_⟩
  · simp [run, ArithNote.NonZero, hpos]
  · obtain ⟨_, rfl⟩ := hcfg
    have hF : 1000000 / a.periodUs ≠ 0 := fun h =>
      hle.not_gt ((freqHz_eq_zero_iff hpos).mp h)
    refine Machine.along_notes_of_all (fun t c => ?_) (fun t => ?_) es
    · cases t with
      | none => trivial
      | some t => exact Prog.quiet_meets _ _
    · cases t with
      | none => exact OpenLoop.Noting.threadEntry_meets hF hA rounds
      | some t => trivial

/-- A position move makes the first tick divide by `2 * max_accel * freq_hz`. -/
theorem openNoted_visits (cfg : OpenConfig) {s : OpenSys} (hrun : s.ol.running = true)
    (hpos : s.ol.posMode = true) (rounds : ℕ) :
    (OpenLoop.Noting.threadEntry cfg (rounds + 1)).Visits (Noted.eff OpenAct.eff)
      (fun l _ => l = .note (.divisor (2 * (cfg.maxAccel * cfg.freqHz)))) s := by
  have hdecel : (OpenLoop.Noting.decelPoint cfg).Visits (Noted.eff OpenAct.eff)
      (fun l _ => l = .note (.divisor (2 * (cfg.maxAccel * cfg.freqHz)))) s :=
    .inr (.inr (.inr (.inr (.inl rfl))))
  refine Prog.Visits.bind_left ?_
  unfold OpenLoop.Noting.tick
  refine .inr ?_
  show Prog.Visits _ _ (if s.ol.running then _ else _) _
  rw [if_pos hrun]
  refine .inr ?_
  show Prog.Visits _ _ (if s.ol.posMode then _ else _) _
  rw [if_pos hpos]
  exact hdecel.bind_left

theorem OpenInit.noZeroDivisor_iff (a : OpenInit) :
    a.NoZeroDivisor ↔ a.periodUs ≠ 0 ∧ a.periodUs ≤ 1000000 ∧ a.maxAccel ≠ 0 := by
  refine ⟨fun h => ?_, fun h => noZeroDivisor_of h.1 h.2.1 h.2.2⟩
  have hpos : a.periodUs ≠ 0 := Nat.cast_ne_zero.mp h.1.1
  have hdiv : 2 * (a.maxAccel * (1000000 / a.periodUs : ℕ)) ≠ 0 := by
    set cfg : OpenConfig := ⟨1000000 / a.periodUs, a.maxAccel⟩ with hcfg
    intro hzero
    -- a thread makes a position move, then the first round of the control thread begins
    obtain ⟨q, hq, hst, -, hothers⟩ := Machine.reaches_call (M := openNotedMachine cfg)
      (p := (default : OpenSys).launched cfg 1) (t := some 0) rfl (.move 20 2000)
    obtain ⟨es, hes⟩ := hq.exists_not_notes (t := none) (Ψ := ArithNote.NonZero)
      (n := .divisor (2 * (cfg.maxAccel * cfg.freqHz))) (by
        rw [hst, hothers none (by simp)]
        exact openNoted_visits cfg rfl rfl 0) fun h => h hzero
    exact hes (h.2 cfg ⟨default, rfl⟩ default rfl 1 es)
  refine ⟨hpos, ?_, fun hA => hdiv (by simp [hA])⟩
  by_contra hlt
  exact hdiv (by simp [(freqHz_eq_zero_iff hpos).mpr (not_le.mp hlt)])

/-! ## The speed loop -/

theorem SpeedInit.noZeroDivisor_iff (a : SpeedInit) :
    a.NoZeroDivisor ↔ a.periodUs ≠ 0 ∧ a.encCountsPerRev ≠ 0 := by
  constructor
  · rintro ⟨⟨hpos, h⟩, -⟩
    exact ⟨Nat.cast_ne_zero.mp hpos, Nat.cast_ne_zero.mp (h default).1⟩
  · rintro ⟨hpos, hrev⟩
    exact ⟨by simp [run, ArithNote.NonZero, hpos, hrev], fun cfg _ => Prog.quiet_meets _ _⟩

/-! ## The position loop -/

namespace PosLoop.Noting

variable {cfg : PosConfig}

theorem tick_meets (hF : cfg.freqHz ≠ 0) (sqrtf : ℚ → ℚ) :
    (tick cfg sqrtf).All (Noted.Meets ArithNote.NonZero) := by
  have hF : (cfg.freqHz : ℚ) ≠ 0 := Nat.cast_ne_zero.mpr hF
  simp [tick, sense, regulate, ramp, moveRamp, clampLead, followMotor, controlFreq, output,
    ArithNote.NonZero, hF]

theorem code_meets (cfg : PosConfig) (c : PosCall) :
    (code cfg c).All (Noted.Meets ArithNote.NonZero) := by
  have hround : ∀ timeoutMs deadline,
      (moveRound cfg timeoutMs deadline).All (Noted.Meets ArithNote.NonZero) := by
    simp [moveRound, isArrived, ArithNote.NonZero]
  cases c with
  | moveTo target timeoutMs polls =>
    have hchecked : (moveChecked cfg target timeoutMs polls).All (Noted.Meets ArithNote.NonZero) :=
      Prog.all_bind.2 ⟨Prog.quiet_meets _ _, fun _ _ => Prog.all_bind.2 ⟨Prog.quiet_meets _ _,
        fun deadline _ => (hround timeoutMs deadline).poll⟩⟩
    simp [code, moveTo, hchecked]
  | isArrived => simp [code, isArrived, ArithNote.NonZero]
  | _ => exact Prog.quiet_meets _ _

/-- The unit of the scale has counts. -/
def HasUnit (s : PosSys) : Prop := 0 < s.scale.countsPerUnit

theorem eff_countsPerUnit (l : PosAct) (s : PosSys) :
    (l.eff s).scale.countsPerUnit = s.scale.countsPerUnit := by
  cases l <;> rfl

theorem hasUnit_eff (l : Noted ArithNote PosAct) {s : PosSys} (h : HasUnit s) :
    HasUnit (l.eff PosAct.eff s) := by
  cases l with
  | code l => exact h.trans_eq (eff_countsPerUnit l s).symm
  | note n => exact h

/-- The outline of a thread that divides by nothing but non-zero numbers, as long as the unit has
counts. -/
abbrev Divides {α : Type} (p : PosNoted α) (s : PosSys) : Prop :=
  p.Outline (Noted.eff PosAct.eff) {HasUnit} (fun _ _ => True)
    (fun l _ => l.Meets ArithNote.NonZero) (fun _ => HasUnit) s

theorem divides_of_all {α : Type} {p : PosNoted α} (hp : p.All (Noted.Meets ArithNote.NonZero))
    {s : PosSys} (hs : HasUnit s) : Divides p s :=
  .of_all hp (fun _ _ h => h _ rfl) (fun l hl _ h _ => ⟨hl, hasUnit_eff l h⟩) hs

theorem divides_quiet {α : Type} (p : PosProg α) {s : PosSys} (hs : HasUnit s) :
    Divides p.quiet s := divides_of_all (Prog.quiet_meets _ p) hs

theorem divides_bind {α β : Type} {p : PosNoted α} {g : α → PosNoted β} {s : PosSys}
    (hp : Divides p s) (hg : ∀ a s, HasUnit s → Divides (g a) s) : Divides (p >>= g) s :=
  (hp.mono fun a s h => hg a s h).bind

theorem divides_toPhysical (counts : ℤ) {s : PosSys} (hs : HasUnit s) :
    Divides (toPhysical counts) s := by
  refine Prog.Outline.ask fun s' hs' _ => ⟨trivial, ?_⟩
  have hunit : HasUnit s' := hs' _ rfl hs
  refine divides_of_all (Prog.all_bind.2 ⟨by simp [ArithNote.NonZero], fun _ _ => ?_⟩) hunit
  exact (ArithNote.all_div _ _).2 hunit.ne'

theorem divides_logLine {s : PosSys} (hs : HasUnit s) : Divides logLine s := by
  unfold logLine
  refine divides_bind (divides_quiet _ hs) fun _ s hs => ?_
  refine divides_bind (divides_toPhysical _ hs) fun _ s hs => ?_
  refine divides_bind (divides_quiet _ hs) fun _ s hs => ?_
  refine divides_bind (divides_toPhysical _ hs) fun _ s hs => ?_
  refine divides_bind (divides_quiet _ hs) fun _ s hs => ?_
  refine divides_bind (divides_toPhysical _ hs) fun _ s hs => ?_
  refine divides_bind (divides_quiet _ hs) fun _ s hs => ?_
  refine divides_bind (divides_quiet _ hs) fun _ s hs => ?_
  refine divides_bind (divides_of_all (by simp [ArithNote.NonZero]) hs) fun err s hs => ?_
  refine Prog.Outline.ask fun s' hs' _ => ⟨trivial, ?_⟩
  have hunit : HasUnit s' := hs' _ rfl hs
  exact divides_of_all (Prog.all_bind.2 ⟨(ArithNote.all_div _ _).2 hunit.ne', fun _ _ =>
    Prog.all_ret _⟩) hunit

theorem divides_threadEntry (hF : cfg.freqHz ≠ 0) (sqrtf : ℚ → ℚ) (rounds : ℕ) (count : ℤ)
    {s : PosSys} (hs : HasUnit s) : Divides (threadEntry cfg sqrtf count rounds) s := by
  induction rounds generalizing count s with
  | zero => exact hs
  | succ rounds ih =>
    refine divides_bind (divides_of_all (tick_meets hF sqrtf) hs) fun logs s hs => ?_
    cases logs with
    | false => exact ih count hs
    | true =>
      refine divides_bind ?_ fun count s hs => ih count hs
      refine divides_bind (divides_of_all (by simp [ArithNote.NonZero]) hs) fun tick s hs => ?_
      split_ifs
      · exact divides_bind (divides_logLine hs) fun _ s hs => hs
      · exact hs

end PosLoop.Noting

open PosLoop.Noting in
theorem hasUnit_env (e : PosEnv) {s : PosSys} (h : HasUnit s) : HasUnit (e.eff s) := by
  cases e <;> exact h

/-- The unit of the scale has counts, and each thread has its outline. -/
def PosDivides (cfg : PosConfig) (p : PosPool) : Prop :=
  PosLoop.Noting.HasUnit p.st ∧ Machine.Outlines (notedMachine cfg)
    (fun _ => {PosLoop.Noting.HasUnit}) (fun _ _ _ => True)
    (fun _ l _ => l.Meets ArithNote.NonZero) (fun _ _ => PosLoop.Noting.HasUnit) p

open PosLoop.Noting in
theorem posDivides_next {cfg : PosConfig} (p : PosPool) (e : PosEvent) (hp : PosDivides cfg p) :
    PosDivides cfg ((notedMachine cfg).next p e) := by
  constructor
  · refine Machine.st_next hp.1 e ?_
    cases e with
    | call t c => trivial
    | step t => exact fun l _ => hasUnit_eff l hp.1
    | env e => exact hasUnit_env e hp.1
  · refine Machine.outlines_next (fun _ _ => True) (fun _ _ => HasUnit) ?_ ?_ ?_ hp.2 e ?_
    · rintro t l s - - u - P rfl h
      exact hasUnit_eff l h
    · rintro e s - t P rfl h
      exact hasUnit_env e h
    · intro t c s hs
      cases t with
      | none => exact hs
      | some t => exact divides_of_all (code_meets cfg c) hs
    · cases e with
      | call t c => exact hp.1
      | step t => exact fun _ _ => trivial
      | env e => trivial

open PosLoop.Noting in
theorem posNoted_along {cfg : PosConfig} (hF : cfg.freqHz ≠ 0) (sqrtf : ℚ → ℚ) {s : PosSys}
    (hs : HasUnit s) (rounds : ℕ) (es : List PosEvent) :
    (notedMachine cfg).Along (Machine.Notes ArithNote.NonZero)
      (s.launched cfg sqrtf rounds) es := by
  refine Machine.along_notes (fun p e hp _ => posDivides_next p e hp)
    (fun p t n hp _ hn => ((hp.2 t _ hn).step hn trivial).1) ⟨hs, fun t l hl => ?_⟩
    (Machine.along_true (notedMachine cfg) (s.launched cfg sqrtf rounds) es)
  cases t with
  | none => exact divides_threadEntry hF sqrtf rounds 0 hs
  | some t => cases hl

open PosLoop.Noting in
theorem PosInit.noZeroDivisor_of (sqrtf : ℚ → ℚ) {a : PosInit} (hpos : a.periodUs ≠ 0)
    (hle : a.periodUs ≤ 1000000) : a.NoZeroDivisor sqrtf := by
  refine ⟨by simp [run, ArithNote.NonZero, hpos], fun cfg scale hcfg s hs hscale rounds es => ?_⟩
  obtain ⟨hfreq, hcoherent⟩ := returns_run hcfg
  have hF : cfg.freqHz ≠ 0 := fun h => hle.not_gt ((freqHz_eq_zero_iff hpos).mp (hfreq ▸ h))
  have hunit : HasUnit s := by
    rw [HasUnit, hscale]
    exact hcoherent.unit
  exact posNoted_along hF sqrtf hunit rounds es

/-! ### A long period -/

namespace PosLoop.Noting

variable {cfg : PosConfig} {sqrtf : ℚ → ℚ}

/-- The note of a division by `freq_hz`. -/
abbrev freqNote (cfg : PosConfig) : Noted ArithNote PosAct := .note (.divisor cfg.freqHz)

theorem moveRamp_visits (sign : ℤ) (remain : ℚ) (s : PosSys) :
    (moveRamp cfg sqrtf sign remain).Visits (Noted.eff PosAct.eff)
      (fun l _ => l = freqNote cfg) s := by
  unfold moveRamp
  exact .bind_right (.inr (.inr (.inl rfl)))

theorem ramp_visits {s : PosSys} (h : s.pl.rampErr ≠ 0) :
    (ramp cfg sqrtf).Visits (Noted.eff PosAct.eff) (fun l _ => l = freqNote cfg) s := by
  have hsign : (if s.pl.rampErr > 0 then 1 else if s.pl.rampErr < 0 then -1 else 0 : ℤ) ≠ 0 := by
    split_ifs <;> omega
  have hremain : |(s.pl.rampErr : ℚ)| > 1 / 2 := by
    have hone : (1 : ℚ) ≤ |(s.pl.rampErr : ℚ)| := by exact_mod_cast Int.one_le_abs h
    linarith
  refine .inr (.inr (.inr ?_))
  show Prog.Visits _ _ (if (if s.pl.rampErr > 0 then 1 else if s.pl.rampErr < 0 then -1 else 0 : ℤ)
    ≠ 0 ∧ |(s.pl.rampErr : ℚ)| > 1 / 2 then _ else _) _
  rw [if_pos ⟨hsign, hremain⟩]
  exact moveRamp_visits ..

/-- The reading of the position leaves target, ramp and driver. -/
theorem exec_sense_frame (cfg : PosConfig) (s : PosSys) :
    let s' := ((sense cfg).exec (Noted.eff PosAct.eff) s).2
    s'.pl.rampErr = s.pl.rampErr ∧ s'.drv = s.drv := by
  have hall : (sense cfg).All fun l => match l with
      | .code l => l.Senses
      | .note _ => True := by
    simp [sense, encRead, PosAct.Senses]
  have hframe := hall.exec_frame (Noted.eff PosAct.eff)
    (f := fun s : PosSys => (s.pl.rampErr, s.drv)) (fun l hl s => by
      cases l with
      | note n => rfl
      | code l => cases l <;> first | rfl | exact hl.elim) s
  exact Prod.ext_iff.mp hframe

theorem threadEntry_visits {s : PosSys} (hrun : s.pl.running = true) (hfault : ¬s.drv.Faulty)
    (herr : s.pl.rampErr ≠ 0) (count : ℤ) (rounds : ℕ) :
    (threadEntry cfg sqrtf count (rounds + 1)).Visits (Noted.eff PosAct.eff)
      (fun l _ => l = freqNote cfg) s := by
  obtain ⟨herr', hdrv⟩ := exec_sense_frame cfg s
  set s' := ((sense cfg).exec (Noted.eff PosAct.eff) s).2
  have hfault' : ¬(Motor.checkFault.exec MotorAct.eff s'.drv).1 = true := hdrv.symm ▸ hfault
  refine Prog.Visits.bind_left ?_
  unfold tick
  refine .inr ?_
  show Prog.Visits _ _ (if s.pl.running then _ else _) _
  rw [if_pos hrun]
  refine .bind_right (.bind_right ?_)
  rw [Prog.exec_quiet, exec_drv]
  show Prog.Visits _ _ (if (Motor.checkFault.exec MotorAct.eff s'.drv).1 = true then _ else _) _
  rw [if_neg hfault']
  refine .bind_left (.bind_right (.bind_left (ramp_visits ?_)))
  rw [Prog.exec_quiet, exec_drv]
  exact fun h => herr (herr' ▸ h)

end PosLoop.Noting

/-- A loop after its init, with an initialised motor. -/
def bootedPos (scale : PosScale) : PosSys :=
  { (default : PosSys) with
    pl := .init
    scale
    drv := MotorSys.zeroed.init 200000000 (-1) false }

/-- Between two actions of a homing that succeeds: the target is zero and the ramp not yet. -/
structure HalfHomed (s : PosSys) (drv : MotorSys) (s' : PosSys) : Prop where
  running : s'.pl.running = true
  targetPos : s'.pl.targetPos = 0
  rampPos : s'.pl.rampPos = s.pl.rampPos
  drv : s'.drv = drv

theorem PosLoop.home_visits {homePin homeDir : ℤ} {speedHz timeoutMs polls : ℕ} {s : PosSys}
    (hrun : s.pl.running = true) {drv : MotorSys}
    (hret : (Motor.home homePin homeDir speedHz 0 timeoutMs polls).exec MotorAct.eff s.drv =
      (some motorEOk, drv)) :
    (home homePin homeDir speedHz timeoutMs polls).Visits PosAct.eff
      (fun _ => HalfHomed s drv) s := by
  have hexec : (PosLoop.drv (Motor.home homePin homeDir speedHz 0 timeoutMs polls)).exec
      PosAct.eff s = (some motorEOk, { s with drv }) := by
    rw [exec_drv, hret]
  unfold home
  refine .inr ?_
  show Prog.Visits _ _ (if s.pl.running then _ else _) s
  rw [if_pos hrun]
  refine .bind_right ?_
  rw [hexec]
  exact .inr (.inr (.inr (.inr (.inr (.inr (.inl ⟨hrun, rfl, rfl, rfl⟩))))))

/-- The motor of this loop after a start, with the home pin active. -/
def homingMotor : MotorSys :=
  (Motor.clearFault.exec MotorAct.eff
    ((MotorEnv.level 3 false).eff (MotorSys.zeroed.init 200000000 (-1) false))).2.startSection

/-- A thread starts the loop, five counts from the zero of the encoder, and homes it up to the point
where the target is zero and the ramp not yet. -/
theorem reaches_halfHomed (cfg : PosConfig) (sqrtf : ℚ → ℚ) (scale : PosScale) :
    ∃ q, (notedMachine cfg).Reaches ((bootedPos scale).launched cfg sqrtf 1) q ∧
      q.thr none = PosLoop.Noting.threadEntry cfg sqrtf 0 1 ∧ q.st.pl.running = true ∧
      ¬q.st.drv.Faulty ∧ q.st.pl.rampErr ≠ 0 := by
  set s₁ := (PosEnv.turn 5).eff ((PosEnv.drv (.level 3 false)).eff (bootedPos scale))
  have henv : (notedMachine cfg).Reaches ((bootedPos scale).launched cfg sqrtf 1)
      (s₁.launched cfg sqrtf 1) :=
    (Machine.reaches_next _ (.env (.drv (.level 3 false)))).trans
      (Machine.reaches_next _ (.env (PosEnv.turn 5)))
  obtain ⟨q, hq, hst, hfree, hothers⟩ := Machine.reaches_call (M := notedMachine cfg)
    (p := s₁.launched cfg sqrtf 1) (t := some 0) rfl .start
  have hstarted : q.st = s₁.started cfg := by
    rw [hst]
    show ((PosLoop.start cfg).quiet.exec (Noted.eff PosAct.eff) s₁).2 = _
    rw [Prog.exec_quiet, PosSys.exec_start]
    rfl
  have hret : (Motor.home 3 0 400 0 0 1).exec MotorAct.eff (s₁.started cfg).drv =
      (some motorEOk, ((Motor.home 3 0 400 0 0 1).exec MotorAct.eff homingMotor).2) := by
    refine Prod.ext ?_ rfl
    change ((Motor.home 3 0 400 0 0 1).exec MotorAct.eff homingMotor).1 = some motorEOk
    decide +kernel
  have hvisits : ((notedMachine cfg).code (some 0) (.home 3 0 400 0 1)).Visits
      (notedMachine cfg).eff (fun _ => HalfHomed (s₁.started cfg)
        ((Motor.home 3 0 400 0 0 1).exec MotorAct.eff homingMotor).2) q.st := by
    rw [hstarted]
    exact Prog.visits_quiet.mpr (PosLoop.home_visits rfl hret).bind_left
  obtain ⟨q', -, hq', -, hhalf, hothers'⟩ := Machine.reaches_call_visit hfree _ hvisits
  refine ⟨q', (henv.trans hq).trans hq', ?_, hhalf.running, ?_, ?_⟩
  · rw [hothers' none (by simp), hothers none (by simp)]
    rfl
  · rw [hhalf.drv]
    decide +kernel
  · rw [PosLoop.rampErr, hhalf.targetPos, hhalf.rampPos]
    change CInt.sub32 0 (cfg.position (Encoder.turn 5 default).read.overflow) ≠ 0
    unfold PosConfig.position
    split_ifs <;> decide

theorem PosInit.noZeroDivisor_iff (sqrtf : ℚ → ℚ) (a : PosInit) :
    a.NoZeroDivisor sqrtf ↔ a.periodUs ≠ 0 ∧ a.periodUs ≤ 1000000 := by
  refine ⟨fun h => ?_, fun h => noZeroDivisor_of sqrtf h.1 h.2⟩
  have hpos : a.periodUs ≠ 0 := Nat.cast_ne_zero.mp h.1.1
  refine ⟨hpos, not_lt.mp fun hlt => ?_⟩
  obtain ⟨cfg, scale, hreturns⟩ : ∃ cfg scale, a.run.Returns (cfg, scale) := ⟨_, _, default, rfl⟩
  have hF : cfg.freqHz = 0 :=
    (returns_run hreturns).1.trans ((freqHz_eq_zero_iff hpos).mpr hlt)
  obtain ⟨q, hq, hthr, hrun, hfault, herr⟩ := reaches_halfHomed cfg sqrtf scale
  obtain ⟨es, hes⟩ := hq.exists_not_notes (t := none) (Ψ := ArithNote.NonZero)
    (n := .divisor cfg.freqHz) (by
      rw [hthr]
      exact PosLoop.Noting.threadEntry_visits hrun hfault herr 0 0)
    fun h => h (by rw [hF]; rfl)
  exact hes (h.2 cfg scale hreturns (bootedPos scale) rfl rfl 1 es)

/-! ## All three -/

/-- **No zero divisor**: for which arguments, for each of the three controllers, every division of
the init and of the ticks of every run after it has a divisor other than zero. -/
theorem divisors_iff (sqrtf : ℚ → ℚ) (p : PosInit) (v : SpeedInit) (o : OpenInit) :
    (p.NoZeroDivisor sqrtf ↔ p.periodUs ≠ 0 ∧ p.periodUs ≤ 1000000) ∧
      (v.NoZeroDivisor ↔ v.periodUs ≠ 0 ∧ v.encCountsPerRev ≠ 0) ∧
      (o.NoZeroDivisor ↔ o.periodUs ≠ 0 ∧ o.periodUs ≤ 1000000 ∧ o.maxAccel ≠ 0) :=
  ⟨p.noZeroDivisor_iff sqrtf, v.noZeroDivisor_iff, o.noZeroDivisor_iff⟩

/-- Each of the inits returns `RT_EOK` on a board where nothing fails. With a period of two seconds,
no counts of a revolution, no acceleration, a divisor is zero. -/
theorem not_divisors :
    let a : Answers Unit := ⟨true, some (), .eOk, .eOk, .eOk, 8, true⟩
    let t : Timers Unit Unit := .zeroed
    ((t.positionLoopInit () a).1 = .eOk ∧
        ¬PosInit.NoZeroDivisor Rat.sqrt
          ⟨2000000, false, 1000, 10, 200, 50, 1000, 10, -100, 100⟩) ∧
      ((t.speedLoopInit () a).1 = .eOk ∧
        ¬SpeedInit.NoZeroDivisor ⟨20000, 6400, 0, false, 1000, 10, 200⟩) ∧
      ((t.stepperOpenloopInit () a).1 = .eOk ∧ ¬OpenInit.NoZeroDivisor ⟨20000, 0⟩) := by
  refine ⟨⟨by decide, fun h => ?_⟩, ⟨by decide, fun h => ?_⟩, ⟨by decide, fun h => ?_⟩⟩
  · exact absurd ((PosInit.noZeroDivisor_iff _ _).mp h).2 (by decide)
  · exact ((SpeedInit.noZeroDivisor_iff _).mp h).2 rfl
  · exact ((OpenInit.noZeroDivisor_iff _).mp h).2.2 rfl

end H750Stepper
