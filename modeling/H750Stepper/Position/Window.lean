import H750Stepper.Position.Mirror

/-!
# The window of the ramp

The ramp moves ahead of the motor on the way to the target. After its step three clamps limit it:
to the target it has stepped past, to a distance from the motor, and to the target again where the
motor has carried it along. `ramp_window`: whatever the encoder has done since the tick before, the
last clamp keeps the ramp on the motor's side of the target and does not undo the second.
-/

namespace H750Stepper

open CInt

/-! ## The clamps -/

section Clamps

variable {target current ramp lead : ℤ}

theorem heldAt_le (h : current ≤ target) : heldAt target current ramp ≤ target := by
  unfold heldAt
  split_ifs with hheld <;> omega

theorem le_heldAt (h : target ≤ current) : target ≤ heldAt target current ramp := by
  unfold heldAt
  split_ifs with hheld <;> omega

/-- The target that holds the ramp is between the ramp and the motor. -/
theorem abs_heldAt_sub_le (h : |ramp - current| ≤ lead) :
    |heldAt target current ramp - current| ≤ lead := by
  rw [abs_le] at h ⊢
  unfold heldAt
  split_ifs with hheld <;> omega

theorem abs_withinLead_sub_le (hlead : 0 < lead) (hcur : |current| < 2 ^ 31)
    (hramp : |ramp| < 2 ^ 31) (hdist : |ramp - current| < 2 ^ 31) :
    |withinLead lead current ramp - current| ≤ lead := by
  have hdist' : |current - ramp| < 2 ^ 31 := by rwa [abs_sub_comm]
  rw [abs_lt] at hcur hramp
  unfold withinLead
  rw [sub32_of_abs_lt hdist, sub32_of_abs_lt hdist', abs_le]
  rcases lt_or_ge lead (ramp - current) with hahead | hahead
  · rw [if_pos hahead, wrap_of_fits ⟨by omega, by omega⟩]
    omega
  · rcases lt_or_ge lead (current - ramp) with hbehind | hbehind
    · rw [if_neg (by omega), if_pos hbehind, wrap_of_fits ⟨by omega, by omega⟩]
      omega
    · rw [if_neg (by omega), if_neg (by omega)]
      omega

end Clamps

theorem PosConfig.StepFits.abs_nextPos_sub_le {cfg : PosConfig} {err target current ramp : ℤ}
    {speed : ℚ} (h : cfg.StepFits err target current ramp speed) (htarget : |target| < 2 ^ 31)
    (hcur : |current| < 2 ^ 31) :
    |cfg.nextPos err target current ramp speed - current| ≤ cfg.lead speed := by
  have hpos := abs_lt.mp h.pos
  have hramp := h.abs_notPast_lt htarget
  unfold nextPos
  rw [wrap_of_fits ⟨by omega, by omega⟩]
  exact abs_heldAt_sub_le (abs_withinLead_sub_le (lead_pos _) hcur hramp h.lead)

/-! ## The ramp -/

namespace PosLoop

variable {cfg : PosConfig} {sqrtf : ℚ → ℚ} {pl : PosLoop}

theorem rampErr_eq_zero_iff (h : |pl.targetPos - pl.rampPos| < 2 ^ 31) :
    pl.rampErr = 0 ↔ pl.rampPos = pl.targetPos := by
  unfold rampErr
  rw [sub32_of_abs_lt h]
  omega

/-- The ramp is on the motor's side of the target. -/
theorem ramped_side (cfg : PosConfig) (sqrtf : ℚ → ℚ) (h : |pl.targetPos - pl.rampPos| < 2 ^ 31) :
    (pl.currentPos ≤ pl.targetPos → (pl.ramped cfg sqrtf).rampPos ≤ pl.targetPos) ∧
      (pl.targetPos ≤ pl.currentPos → pl.targetPos ≤ (pl.ramped cfg sqrtf).rampPos) := by
  unfold ramped
  by_cases hzero : pl.rampErr = 0
  · have heq : pl.rampPos = pl.targetPos := (rampErr_eq_zero_iff h).mp hzero
    rw [if_pos hzero]
    exact ⟨fun _ => heq.le, fun _ => heq.ge⟩
  · rw [if_neg hzero]
    exact ⟨heldAt_le, le_heldAt⟩

theorem abs_ramped_sub_le (h : pl.InRange cfg sqrtf) (hmove : pl.rampPos ≠ pl.targetPos) :
    |(pl.ramped cfg sqrtf).rampPos - pl.currentPos| ≤
      cfg.lead (pl.ramped cfg sqrtf).rampSpeed := by
  have hne : pl.rampErr ≠ 0 := fun hzero => hmove ((rampErr_eq_zero_iff h.rampErr).mp hzero)
  unfold ramped
  rw [if_neg hne]
  exact (h.step hne).abs_nextPos_sub_le h.target h.current

end PosLoop

open PosLoop

/-- **The window.** After a tick of a running loop without overflow, the ramp is not beyond the
target as seen from the motor; if the tick has moved the ramp, it is within the lead of the motor
that goes with the speed of the step. -/
theorem ramp_window (cfg : PosConfig) (sqrtf : ℚ → ℚ) {s : PosSys} (hrun : s.pl.running = true)
    (hno : s.NoOverflow cfg sqrtf) :
    let pl := (PosOp.tick.apply cfg sqrtf s).pl
    let c := cfg.position s.enc.read.overflow
    let v := ((s.sensed cfg).pl.ramped cfg sqrtf).rampSpeed
    (c ≤ pl.targetPos → pl.rampPos ≤ pl.targetPos) ∧
      (c ≥ pl.targetPos → pl.rampPos ≥ pl.targetPos) ∧
      (s.Regulates → pl.targetPos = s.pl.targetPos ∧
        (s.pl.rampPos ≠ s.pl.targetPos → |pl.rampPos - c| ≤ cfg.lead v)) := by
  intro pl c v
  have happly : pl = (s.ticked cfg sqrtf).pl := congrArg PosSys.pl (PosOp.apply_tick cfg sqrtf s)
  by_cases hreg : s.Regulates
  · obtain ⟨hramp, htarget, -⟩ := PosSys.ticked_positions cfg sqrtf hreg
    have hrange := hno.inRange hreg
    have hside := ramped_side cfg sqrtf hrange.rampErr
    have hwindow := abs_ramped_sub_le hrange
    rw [happly, hramp, htarget]
    refine ⟨hside.1, hside.2, fun _ => ⟨rfl, fun hmove => ?_⟩⟩
    exact hwindow hmove
  · -- The tick finds a fault and stops the loop, which resets target and ramp.
    have hstopped : pl.rampPos = 0 ∧ pl.targetPos = 0 := by
      have hfault : (s.sensed cfg).drv.Faulty := not_not.mp fun hf => hreg ⟨hrun, hf⟩
      rw [happly]
      unfold PosSys.ticked
      rw [if_pos hrun, if_pos hfault]
      exact ⟨rfl, rfl⟩
    rw [hstopped.1, hstopped.2]
    exact ⟨fun _ => le_rfl, fun _ => le_rfl, fun h => absurd h hreg⟩

/-- The motor is thrown back by 5000 counts while the ramp runs at full speed. -/
theorem ramp_window_thrown :
    let cfg : PosConfig := ⟨50, 5000, 10, 500, false, 125 / 2, 80000⟩
    let s : PosSys := { forward with
      pl := { forward.pl with rampPos := 900, rampSpeed := 80000 }
      enc := ⟨-5000, 0, 0⟩ }
    |(PosOp.tick.apply cfg (fun x => x) s).pl.rampPos - -5000| ≤
      cfg.lead ((s.sensed cfg).pl.ramped cfg fun x => x).rampSpeed := by
  intro cfg s
  have hreg : s.Regulates := by decide +kernel
  have hpos : cfg.position s.enc.read.overflow = -5000 := by decide +kernel
  have hwindow :=
    ((ramp_window cfg (fun x => x) rfl (by decide +kernel)).2.2 hreg).2 (by decide +kernel)
  rw [hpos] at hwindow
  exact hwindow

end H750Stepper
