import H750Stepper.Lib.Ramp
import H750Stepper.Lib.Session
import H750Stepper.Speed.Displacement

/-!
# The slew of the speed loop

Each tick moves `ramp_current` by at most `max_accel` and outputs it within `speed_limit`. But
`speed_loop_set_target` sets `ramp_current` to 0 on a new target that differs by more than a fifth
or in its sign, at whatever speed the motor runs.

`outputs_slew`: the outputs of a run change by at most `max_accel` from tick to tick, if the ramp is
at 0 whenever a new target resets it.
-/

namespace H750Stepper

open Threads CInt

/-! ## Resets -/

/-- The new target resets the PID and the ramp. -/
def SpeedSys.Resets (cfg : SpeedConfig) (targetHz : ℚ) (s : SpeedSys) : Prop :=
  let target := clampTo cfg.speedLimit targetHz
  |target - s.pid.target| > |s.pid.target| * (1 / 5) ∨ (s.pid.target > 0 ∧ target < 0) ∨
    (s.pid.target < 0 ∧ target > 0)

instance (cfg : SpeedConfig) (targetHz : ℚ) (s : SpeedSys) : Decidable (s.Resets cfg targetHz) := by
  unfold SpeedSys.Resets
  infer_instance

/-- A new target that resets the ramp finds it at 0. -/
def SpeedOp.Gentle (cfg : SpeedConfig) (s : SpeedSys) : SpeedOp → Prop
  | .setTarget targetHz => s.Resets cfg targetHz → s.sl.rampCurrent = 0
  | _ => True

instance (cfg : SpeedConfig) (s : SpeedSys) (op : SpeedOp) : Decidable (op.Gentle cfg s) := by
  cases op <;> unfold SpeedOp.Gentle <;> infer_instance

namespace SpeedLoop

variable (cfg : SpeedConfig)

theorem exec_readRunning_bind {α : Type} (k : Bool → SpeedProg α) (s : SpeedSys) :
    (readRunning >>= k).exec SpeedAct.eff s = (k s.sl.running).exec SpeedAct.eff s := rfl

theorem exec_readRampTarget_bind {α : Type} (k : ℚ → SpeedProg α) (s : SpeedSys) :
    (readRampTarget >>= k).exec SpeedAct.eff s = (k s.sl.rampTarget).exec SpeedAct.eff s := rfl

theorem exec_readRampCurrent_bind {α : Type} (k : ℚ → SpeedProg α) (s : SpeedSys) :
    (readRampCurrent >>= k).exec SpeedAct.eff s = (k s.sl.rampCurrent).exec SpeedAct.eff s := rfl

theorem exec_readCurrentSpeed_bind {α : Type} (k : ℚ → SpeedProg α) (s : SpeedSys) :
    (readCurrentSpeed >>= k).exec SpeedAct.eff s = (k s.sl.currentSpeed).exec SpeedAct.eff s := rfl

theorem exec_getTarget_bind {α : Type} (k : ℚ → SpeedProg α) (s : SpeedSys) :
    (pid Pid.getTarget >>= k).exec SpeedAct.eff s = (k s.pid.target).exec SpeedAct.eff s := rfl

theorem rampCurrent_measureSpeed (s : SpeedSys) :
    ((measureSpeed cfg).exec SpeedAct.eff s).2.sl.rampCurrent = s.sl.rampCurrent := by
  simp [measureSpeed, encRead, readLastEnc, readCurrentSpeed, SpeedAct.eff]

theorem exec_ramp (s : SpeedSys) :
    (ramp cfg).exec SpeedAct.eff s =
      ((), { s with
        sl.rampCurrent := Ramp.toward cfg.maxAccel s.sl.rampTarget s.sl.rampCurrent }) := by
  unfold ramp Ramp.toward
  rw [exec_readRampTarget_bind, exec_readRampCurrent_bind]
  dsimp only
  by_cases hup : s.sl.rampTarget - s.sl.rampCurrent > cfg.maxAccel
  · rw [if_pos hup, if_pos hup]
    rfl
  · rw [if_neg hup, if_neg hup]
    by_cases hdown : s.sl.rampTarget - s.sl.rampCurrent < -cfg.maxAccel
    · rw [if_pos hdown, if_pos hdown]
      rfl
    · rw [if_neg hdown, if_neg hdown]
      rfl

theorem output_slew (freqOut : ℚ) (s : SpeedSys) :
    let s' := ((output cfg freqOut).exec SpeedAct.eff s).2
    s'.sl.rampCurrent = s.sl.rampCurrent ∧ s'.sl.outputFreq = freqOut := by
  unfold output
  split_ifs <;> simp [SpeedAct.eff]

end SpeedLoop

/-! ## What the calls do to the ramp -/

namespace SpeedOp

variable (cfg : SpeedConfig)

theorem rampCurrent_start {s : SpeedSys} (h : s.sl.running = false) :
    (start.apply cfg s).sl.rampCurrent = 0 := by
  simp [SpeedOp.apply, SpeedLoop.start, SpeedLoop.readRunning, SpeedLoop.encRead, SpeedAct.eff, h]

theorem rampCurrent_start_running {s : SpeedSys} (h : s.sl.running = true) :
    (start.apply cfg s).sl.rampCurrent = s.sl.rampCurrent := by
  simp [SpeedOp.apply, SpeedLoop.start, SpeedLoop.readRunning, SpeedAct.eff, h]

theorem rampCurrent_setTarget (targetHz : ℚ) (s : SpeedSys) :
    ((setTarget targetHz).apply cfg s).sl.rampCurrent =
      if s.Resets cfg targetHz then 0 else s.sl.rampCurrent := by
  unfold SpeedOp.apply SpeedLoop.setTarget
  dsimp only
  rw [SpeedLoop.exec_getTarget_bind, Prog.exec_bind SpeedAct.eff (Prog.when _ _), Prog.exec_when]
  by_cases hreset : s.Resets cfg targetHz
  · rw [if_pos hreset, if_pos (by exact hreset)]
    simp [SpeedAct.eff]
  · rw [if_neg hreset, if_neg (by exact hreset)]
    rfl

/-- A tick moves the ramp toward some target, and outputs it within the speed limit. -/
theorem tick_slew {s : SpeedSys} (h : s.sl.running = true) :
    let s' := tick.apply cfg s
    (∃ target, s'.sl.rampCurrent = Ramp.toward cfg.maxAccel target s.sl.rampCurrent) ∧
      s'.sl.outputFreq = clampTo cfg.speedLimit s'.sl.rampCurrent := by
  have hmeasure := SpeedLoop.rampCurrent_measureSpeed cfg s
  unfold SpeedOp.apply SpeedLoop.tick
  rw [SpeedLoop.exec_readRunning_bind, if_pos h,
    Prog.exec_bind SpeedAct.eff (SpeedLoop.measureSpeed cfg)]
  generalize ((SpeedLoop.measureSpeed cfg).exec SpeedAct.eff s).2 = s₁ at hmeasure
  rw [SpeedLoop.exec_readCurrentSpeed_bind, Prog.exec_bind SpeedAct.eff (SpeedLoop.pid _),
    SpeedLoop.exec_pid, Prog.exec_bind SpeedAct.eff (Prog.perform _), Prog.exec_perform,
    Prog.exec_bind SpeedAct.eff (SpeedLoop.ramp cfg), SpeedLoop.exec_ramp,
    SpeedLoop.exec_readRampCurrent_bind]
  obtain ⟨hramp, hout⟩ := SpeedLoop.output_slew cfg _ _
  dsimp only
  rw [hramp, hout, ← hmeasure]
  exact ⟨⟨((Pid.calculate s₁.sl.currentSpeed).exec PidAct.eff s₁.pid).1, rfl⟩, rfl⟩

variable {cfg}

/-- Between two ticks nothing but a reset moves the ramp. -/
theorem Gentle.rampCurrent {s : SpeedSys} {op : SpeedOp} (h : op.Gentle cfg s)
    (hrun : s.sl.running = true) (hstop : op ≠ .stop) (htick : op ≠ .tick) :
    (op.apply cfg s).sl.rampCurrent = s.sl.rampCurrent := by
  cases op with
  | stop => exact absurd rfl hstop
  | tick => exact absurd rfl htick
  | start => exact rampCurrent_start_running cfg hrun
  | turn d => rfl
  | setTarget targetHz =>
    rw [rampCurrent_setTarget]
    by_cases hreset : s.Resets cfg targetHz
    · rw [if_pos hreset, h hreset]
    · rw [if_neg hreset]

end SpeedOp

/-! ## Runs -/

/-- The outputs of the ticks of a history. -/
def tickOutputs (cfg : SpeedConfig) (s : SpeedSys) : List SpeedOp → List ℚ
  | [] => []
  | op :: ops =>
    let s' := op.apply cfg s
    if op = .tick then s'.sl.outputFreq :: tickOutputs cfg s' ops else tickOutputs cfg s' ops

/-- The direction that a tick commands for an output beyond the dead band. -/
def dirOf (freqOut : ℚ) : ℤ := if freqOut > 0 then motorDirCw else motorDirCcw

/-- From one output to the next: a change of at most `A`, and a new direction only from and to at
most `A`. -/
def Slews (A freq freq' : ℚ) : Prop :=
  |freq' - freq| ≤ A ∧ (dirOf freq' ≠ dirOf freq → |freq| ≤ A ∧ |freq'| ≤ A)

instance (A : ℚ) : DecidableRel (Slews A) := fun _ _ => by
  unfold Slews
  infer_instance

/-- A small change has to pass zero slowly. -/
theorem slews_of_abs_sub_le {A freq freq' : ℚ} (h : |freq' - freq| ≤ A) : Slews A freq freq' := by
  refine ⟨h, fun hdir => ?_⟩
  rw [abs_le] at h
  unfold dirOf at hdir
  rw [abs_le, abs_le]
  split_ifs at hdir with h₁ h₂ h₂
  · exact absurd rfl hdir
  · exact ⟨⟨by linarith, by linarith⟩, by linarith, by linarith⟩
  · exact ⟨⟨by linarith, by linarith⟩, by linarith, by linarith⟩
  · exact absurd rfl hdir

variable {cfg : SpeedConfig}

theorem tickOutputs_bounded (hL : 0 ≤ cfg.speedLimit) {s : SpeedSys} (hrun : s.sl.running = true)
    {ops : List SpeedOp} (hstop : .stop ∉ ops) :
    ∀ freq ∈ tickOutputs cfg s ops, |freq| ≤ cfg.speedLimit := by
  induction ops generalizing s with
  | nil => simp [tickOutputs]
  | cons op ops ih =>
    obtain ⟨hop, hrest⟩ := not_or.mp (mt List.mem_cons.mpr hstop)
    have hrun' : (op.apply cfg s).sl.running = true := SpeedOp.running hrun (Ne.symm hop)
    unfold tickOutputs
    dsimp only
    by_cases htick : op = .tick
    · subst htick
      rw [if_pos rfl, List.forall_mem_cons, (SpeedOp.tick_slew cfg hrun).2]
      exact ⟨abs_clampTo_le hL _, ih hrun' hrest⟩
    · rw [if_neg htick]
      exact ih hrun' hrest

/-- The invariant: the output before is the ramp within the speed limit. -/
theorem tickOutputs_chain (hA : 0 ≤ cfg.maxAccel) (hL : 0 ≤ cfg.speedLimit) {s : SpeedSys}
    (hrun : s.sl.running = true) {ops : List SpeedOp} (hstop : .stop ∉ ops)
    (h : ∀ x ∈ history (SpeedOp.apply cfg) s ops, x.2.Gentle cfg x.1) :
    List.IsChain (Slews cfg.maxAccel)
      (clampTo cfg.speedLimit s.sl.rampCurrent :: tickOutputs cfg s ops) := by
  induction ops generalizing s with
  | nil => exact List.isChain_singleton _
  | cons op ops ih =>
    obtain ⟨hop, hrest⟩ := not_or.mp (mt List.mem_cons.mpr hstop)
    obtain ⟨hgentle, h⟩ := List.forall_mem_cons.mp h
    have hchain := ih (SpeedOp.running hrun (Ne.symm hop)) hrest h
    unfold tickOutputs
    dsimp only
    by_cases htick : op = .tick
    · subst htick
      obtain ⟨⟨target, hramp⟩, hout⟩ := SpeedOp.tick_slew cfg hrun
      rw [if_pos rfl, hout, List.isChain_cons_cons]
      refine ⟨slews_of_abs_sub_le ?_, hchain⟩
      rw [hramp]
      exact (abs_clampTo_sub_le hL _ _).trans (Ramp.abs_toward_sub_le hA _ _)
    · rw [if_neg htick, ← hgentle.rampCurrent hrun (Ne.symm hop) htick]
      exact hchain

/-- **The slew limit.** From a start on, the outputs of the ticks keep the speed limit; if every
reset finds the ramp at 0, they change by at most `max_accel`, from 0 on, and change their direction
only within `max_accel` of 0. -/
theorem outputs_slew (cfg : SpeedConfig) (hA : 0 < cfg.maxAccel) (hL : 0 < cfg.speedLimit)
    (s₀ : SpeedSys) (hstopped : s₀.sl.running = false) (ops : List SpeedOp) (hstop : .stop ∉ ops) :
    let s := SpeedOp.start.apply cfg s₀
    (∀ freq ∈ tickOutputs cfg s ops, |freq| ≤ cfg.speedLimit) ∧
      ((∀ x ∈ history (SpeedOp.apply cfg) s ops, x.2.Gentle cfg x.1) →
        List.IsChain (Slews cfg.maxAccel) (0 :: tickOutputs cfg s ops)) := by
  intro s
  have hrun : s.sl.running = true := (SpeedSys.of_core (SpeedOp.core_start cfg hstopped)).2.1
  have hzero : clampTo cfg.speedLimit s.sl.rampCurrent = 0 := by
    rw [SpeedOp.rampCurrent_start cfg hstopped]
    exact clampTo_of_abs_le (abs_zero.trans_le hL.le)
  refine ⟨tickOutputs_bounded hL.le hrun hstop, fun h => ?_⟩
  rw [← hzero]
  exact tickOutputs_chain hA.le hL.le hrun hstop h

/-- A stopped loop whose controller passes the error on. -/
def restingSpeed : SpeedSys := { (default : SpeedSys) with pid.kp := 1 }

/-- The motor speeds up; a slightly lower target does not reset the ramp. -/
theorem outputs_slew_run :
    let s := SpeedOp.start.apply (speedConfig0 false) restingSpeed
    let ops : List SpeedOp := [.setTarget 1000, .tick, .tick, .turn 3, .setTarget 900, .tick]
    (∀ freq ∈ tickOutputs (speedConfig0 false) s ops, |freq| ≤ (speedConfig0 false).speedLimit) ∧
      List.IsChain (Slews (speedConfig0 false).maxAccel)
        (0 :: tickOutputs (speedConfig0 false) s ops) := by
  intro s ops
  have h := outputs_slew (speedConfig0 false) (by decide +kernel) (by decide +kernel) restingSpeed
    rfl ops (by decide)
  exact ⟨h.1, h.2 (by decide +kernel)⟩

/-- A reversal at 800 Hz: the next tick outputs 200 Hz the other way. -/
theorem outputs_reverse_fast :
    let s := SpeedOp.start.apply (speedConfig0 false) restingSpeed
    let freqs := tickOutputs (speedConfig0 false) s
      [.setTarget 1000, .tick, .tick, .tick, .tick, .setTarget (-1000), .tick]
    freqs = [200, 400, 600, 800, -200] ∧
      ¬List.IsChain (fun freq freq' => |freq' - freq| ≤ (speedConfig0 false).maxAccel)
        (0 :: freqs) ∧
      dirOf 800 ≠ dirOf (-200) ∧ ¬|(800 : ℚ)| ≤ (speedConfig0 false).maxAccel := by
  refine ⟨?_, ?_, ?_, ?_⟩ <;> decide +kernel

end H750Stepper
