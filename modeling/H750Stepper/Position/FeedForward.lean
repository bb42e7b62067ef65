import H750Stepper.Lib.Droop
import H750Stepper.Position.Smooth
import H750Stepper.Position.Window

/-!
# The direction of the feed-forward

After a new target the ramp starts from rest at the motor. The jerk limit also holds back the end of
a deceleration, so the speed of the ramp can turn away from the target before the motor has reached
it (`feedForward_turns`). `feedForward_droop`: it turns by no more than the droop of the maximal
acceleration, and not at all where the jerk limit is no less than that.
-/

namespace H750Stepper

open Threads CInt

/-- The step does not replace the target of a running loop. -/
def PosOp.KeepsTarget (s : PosSys) : PosOp → Prop
  | .start => s.pl.running = true
  | .stop => False
  | .setTarget target => ¬s.Accepts target
  | .tick | .encoder _ | .driver _ => True

instance (s : PosSys) (op : PosOp) : Decidable (op.KeepsTarget s) :=
  match op with
  | .start => inferInstanceAs (Decidable (s.pl.running = true))
  | .stop => inferInstanceAs (Decidable False)
  | .setTarget target => inferInstanceAs (Decidable (¬s.Accepts target))
  | .tick | .encoder _ | .driver _ => inferInstanceAs (Decidable True)

/-- The step keeps the target. If it is a tick that regulates, it reads a position strictly on the
side of the target from which it is reached in the direction `dir`, and the distance from the ramp
to the target fits a word. -/
structure PosOp.Approaches (cfg : PosConfig) (dir : ℤ) (s : PosSys) (op : PosOp) : Prop where
  keeps : op.KeepsTarget s
  side : op = .tick → s.Regulates →
    (s.pl.targetPos - cfg.position s.enc.read.overflow).sign = dir
  fits : op = .tick → s.Regulates → |s.pl.targetPos - s.pl.rampPos| < 2 ^ 31

instance (cfg : PosConfig) (dir : ℤ) (s : PosSys) (op : PosOp) :
    Decidable (op.Approaches cfg dir s) :=
  decidable_of_iff (_ ∧ _ ∧ _) ⟨fun h => ⟨h.1, h.2.1, h.2.2⟩, fun h => ⟨h.keeps, h.side, h.fits⟩⟩

/-- The ramp on its way to the target. -/
structure PosLoop.Heads (cfg : PosConfig) (target dir : ℤ) (pl : PosLoop) : Prop where
  aim : pl.targetPos = target
  side : 0 ≤ dir * (target - pl.rampPos)
  droops : Ramp.Droops cfg.sCurveJerk cfg.maxAccel (dir * pl.rampSpeed) (dir * pl.rampAccel)

/-- The loop is on its way to the target, or has been stopped by a fault. -/
structure PosSys.Heads (cfg : PosConfig) (target dir : ℤ) (s : PosSys) : Prop where
  heads : s.pl.running = true → s.pl.Heads cfg target dir
  rests : s.pl.running = false → s.pl.rampSpeed = 0

section

variable {cfg : PosConfig} {sqrtf : ℚ → ℚ} {target dir : ℤ}

theorem PosConfig.wantedSpeed_dir (hcfg : cfg.Positive) (hsqrt : ∀ x, 0 ≤ x → 0 ≤ sqrtf x)
    {err : ℤ} (herr : err.sign = dir) : 0 ≤ dir * cfg.wantedSpeed sqrtf err := by
  have hroot := hsqrt (2 * cfg.maxAccel * cfg.freqHz * |(err : ℚ)| * (3 / 4)) (by
    have hA := hcfg.maxAccel
    positivity)
  have hsquare : (0 : ℚ) ≤ dir * err.sign := by
    rw [herr]
    exact_mod_cast mul_self_nonneg dir
  have hV := hcfg.rampMaxSpeed
  unfold wantedSpeed
  dsimp only
  rw [mul_left_comm]
  refine mul_nonneg ?_ hsquare
  split_ifs <;> linarith

/-- The ramp in the direction `dir` is a jerk-limited speed. -/
theorem PosConfig.nextAccel_dir (hcfg : cfg.Positive) (hdir : dir = 1 ∨ dir = -1) (err : ℤ)
    (speed accel : ℚ) :
    dir * cfg.nextAccel sqrtf err speed accel =
      Ramp.nextAccel cfg.sCurveJerk cfg.maxAccel (dir * cfg.wantedSpeed sqrtf err) (dir * speed)
        (dir * accel) := by
  rcases hdir with rfl | rfl
  · simp only [Int.cast_one, one_mul]
    rfl
  · simp only [Int.cast_neg, Int.cast_one, neg_one_mul]
    rw [Ramp.nextAccel_neg hcfg.sCurveJerk.le hcfg.maxAccel.le]
    rfl

theorem PosConfig.nextSpeed_dir (hcfg : cfg.Positive) (hdir : dir = 1 ∨ dir = -1)
    (speed accel : ℚ) :
    dir * cfg.nextSpeed speed accel = clampTo cfg.rampMaxSpeed (dir * speed + dir * accel) := by
  unfold nextSpeed
  rcases hdir with rfl | rfl
  · simp only [Int.cast_one, one_mul]
  · simp only [Int.cast_neg, Int.cast_one, neg_one_mul]
    rw [← neg_add, clampTo_neg hcfg.rampMaxSpeed.le]

namespace PosLoop

variable {pl : PosLoop}

/-- A ramp that moves does so in the direction of the target. -/
theorem Heads.sign_rampErr (h : pl.Heads cfg target dir) (hdir : dir = 1 ∨ dir = -1)
    (hfits : |pl.targetPos - pl.rampPos| < 2 ^ 31) (hmove : pl.rampPos ≠ pl.targetPos) :
    pl.rampErr.sign = dir := by
  have hside := h.side
  unfold rampErr
  rw [sub32_of_abs_lt hfits]
  rw [h.aim] at hmove ⊢
  rcases hdir with rfl | rfl
  · exact Int.sign_eq_one_of_pos (by omega)
  · exact Int.sign_eq_neg_one_of_neg (by omega)

theorem Heads.ramped (hcfg : cfg.Positive) (hsqrt : ∀ x, 0 ≤ x → 0 ≤ sqrtf x)
    (hdir : dir = 1 ∨ dir = -1) (h : pl.Heads cfg target dir)
    (hside : (pl.targetPos - pl.currentPos).sign = dir)
    (hfits : |pl.targetPos - pl.rampPos| < 2 ^ 31) :
    (pl.ramped cfg sqrtf).Heads cfg target dir := by
  have hA := hcfg.maxAccel.le
  have hstays := ramped_side cfg sqrtf hfits
  rw [h.aim] at hside hstays
  refine ⟨(ramped_targetPos cfg sqrtf pl).trans h.aim, ?_, ?_⟩
  · rcases hdir with rfl | rfl
    · have hle := hstays.1 (by have := Int.sign_eq_one_iff_pos.mp hside; omega)
      omega
    · have hle := hstays.2 (by have := Int.sign_eq_neg_one_iff_neg.mp hside; omega)
      omega
  · unfold PosLoop.ramped
    by_cases hzero : pl.rampErr = 0
    · rw [if_pos hzero]
      refine Ramp.droops_of_nonneg hcfg.sCurveJerk ?_ ?_
      · show |dir * (0 : ℚ)| ≤ cfg.maxAccel
        rwa [mul_zero, abs_zero]
      · show 0 ≤ dir * (0 : ℚ)
        rw [mul_zero]
    · have hmove : pl.rampPos ≠ pl.targetPos := fun heq =>
        hzero ((rampErr_eq_zero_iff hfits).mpr heq)
      have hwanted := PosConfig.wantedSpeed_dir hcfg hsqrt (h.sign_rampErr hdir hfits hmove)
      have hstep := h.droops.step hcfg.sCurveJerk hA hcfg.rampMaxSpeed.le hwanted
      rw [← PosConfig.nextAccel_dir hcfg hdir, ← PosConfig.nextSpeed_dir hcfg hdir] at hstep
      rw [if_neg hzero]
      exact hstep

/-- The speed turns exactly if the deceleration, with the jerk taken back, is more than it. -/
theorem Heads.ramped_turns_iff (hcfg : cfg.Positive) (hsqrt : ∀ x, 0 ≤ x → 0 ≤ sqrtf x)
    (hdir : dir = 1 ∨ dir = -1) (h : pl.Heads cfg target dir)
    (hfits : |pl.targetPos - pl.rampPos| < 2 ^ 31) (hmove : pl.rampPos ≠ pl.targetPos)
    (hspeed : 0 ≤ dir * pl.rampSpeed) :
    dir * (pl.ramped cfg sqrtf).rampSpeed < 0 ↔
      dir * pl.rampSpeed + dir * pl.rampAccel + cfg.sCurveJerk < 0 := by
  have hne : pl.rampErr ≠ 0 := fun hzero => hmove ((rampErr_eq_zero_iff hfits).mp hzero)
  have hwanted := PosConfig.wantedSpeed_dir hcfg hsqrt (h.sign_rampErr hdir hfits hmove)
  have hiff := Ramp.clampTo_add_neg_iff (a := dir * pl.rampAccel) hcfg.sCurveJerk hcfg.maxAccel.le
    hcfg.rampMaxSpeed hwanted hspeed
  rw [← PosConfig.nextAccel_dir hcfg hdir, ← PosConfig.nextSpeed_dir hcfg hdir] at hiff
  unfold PosLoop.ramped
  rw [if_neg hne]
  exact hiff

end PosLoop

/-! ## Runs -/

/-- A reading changes neither the ramp nor the target. -/
theorem PosSys.Heads.sensed {s : PosSys} (h : s.Heads cfg target dir)
    (hrun : s.pl.running = true) : (s.sensed cfg).pl.Heads cfg target dir := by
  obtain ⟨haim, hside, hdroops⟩ := h.heads hrun
  exact ⟨haim, hside, hdroops⟩

theorem PosSys.Heads.ticked (hcfg : cfg.Positive) (hsqrt : ∀ x, 0 ≤ x → 0 ≤ sqrtf x)
    (hdir : dir = 1 ∨ dir = -1) {s : PosSys} (h : s.Heads cfg target dir)
    (hstep : PosOp.tick.Approaches cfg dir s) : (s.ticked cfg sqrtf).Heads cfg target dir := by
  by_cases hreg : s.Regulates
  · have hramped :=
      (h.sensed hreg.1).ramped hcfg hsqrt hdir (hstep.side rfl hreg) (hstep.fits rfl hreg)
    obtain ⟨hpos, htarget, -⟩ := ticked_positions cfg sqrtf hreg
    obtain ⟨haccel, hspeed⟩ := ticked_ramp cfg sqrtf hreg
    refine ⟨fun _ => ⟨htarget.trans (h.heads hreg.1).aim, ?_, ?_⟩, fun hstopped => ?_⟩
    · rw [hpos]
      exact hramped.side
    · rw [haccel, hspeed]
      by_cases hnear : |(s.finalErr cfg : ℚ)| ≤ 20
      · rw [if_pos hnear]
        refine Ramp.droops_of_nonneg hcfg.sCurveJerk hramped.droops.accel ?_
        rw [mul_zero]
      · rw [if_neg hnear]
        exact hramped.droops
    · rw [ticked_running cfg sqrtf hreg] at hstopped
      cases hstopped
  · obtain ⟨hspeed, -, -, hrun⟩ := ticked_pl_of_not cfg sqrtf hreg
    refine ⟨fun h => ?_, fun _ => hspeed⟩
    rw [hrun] at h
    cases h

theorem PosSys.Heads.apply (hcfg : cfg.Positive) (hsqrt : ∀ x, 0 ≤ x → 0 ≤ sqrtf x)
    (hdir : dir = 1 ∨ dir = -1) {s : PosSys} (h : s.Heads cfg target dir) {op : PosOp}
    (hstep : op.Approaches cfg dir s) : (op.apply cfg sqrtf s).Heads cfg target dir := by
  cases op with
  | start =>
    have hrun : s.pl.running = true := hstep.keeps
    rw [PosOp.apply_start, if_pos hrun]
    exact h
  | stop => exact hstep.keeps.elim
  | tick =>
    rw [PosOp.apply_tick]
    exact h.ticked hcfg hsqrt hdir hstep
  | setTarget target' =>
    rw [PosOp.apply_setTarget]
    have hrefuse : ¬s.Accepts target' := hstep.keeps
    unfold PosSys.retargeted
    rw [if_neg hrefuse]
    exact h
  | encoder enc => exact ⟨h.heads, h.rests⟩
  | driver e => exact ⟨h.heads, h.rests⟩

/-- The ramp starts from rest at the motor. -/
theorem PosSys.retargeted_heads (hcfg : cfg.Positive) {s : PosSys} (hrun : s.pl.running = true)
    (haccept : s.Accepts target) :
    (s.retargeted target).Heads cfg target (target - s.pl.currentPos).sign := by
  have hdroops : Ramp.Droops cfg.sCurveJerk cfg.maxAccel
      ((target - s.pl.currentPos).sign * (0 : ℚ)) ((target - s.pl.currentPos).sign * (0 : ℚ)) := by
    refine Ramp.droops_of_nonneg hcfg.sCurveJerk ?_ ?_
    · rw [mul_zero, abs_zero]
      exact hcfg.maxAccel.le
    · rw [mul_zero]
  unfold PosSys.retargeted
  rw [if_pos haccept]
  dsimp only
  rw [if_pos hrun]
  refine ⟨fun _ => ⟨rfl, ?_, hdroops⟩, fun _ => rfl⟩
  show 0 ≤ (target - s.pl.currentPos).sign * (target - s.pl.currentPos)
  rw [Int.sign_mul_self]
  exact Int.natCast_nonneg _

end

/-- **The droop of the feed-forward.** While a target that has been set on a running loop is not
replaced and the motor stays strictly on its side of it, every tick leaves a speed that is at most
the droop of the maximal acceleration away from the direction of the target; with a jerk limit that
is no less than this acceleration it is 0 or in this direction. A tick turns the speed exactly if
the deceleration, with the jerk taken back, is more than it. -/
theorem feedForward_droop (cfg : PosConfig) (hcfg : cfg.Positive) (sqrtf : ℚ → ℚ)
    (hsqrt : ∀ x, 0 ≤ x → 0 ≤ sqrtf x) {s₀ : PosSys} (hrun : s₀.pl.running = true) {target : ℤ}
    (haccept : s₀.Accepts target) (hne : target ≠ s₀.pl.currentPos) (ops : List PosOp) :
    let dir := (target - s₀.pl.currentPos).sign
    let run := history (PosOp.apply cfg sqrtf) ((PosOp.setTarget target).apply cfg sqrtf s₀) ops
    (∀ x ∈ run, x.2.Approaches cfg dir x.1) →
      ∀ x ∈ run, x.2 = .tick →
        let v := (PosOp.tick.apply cfg sqrtf x.1).pl.rampSpeed
        dir * v ≥ -Ramp.droop cfg.sCurveJerk cfg.maxAccel ∧
          (cfg.maxAccel ≤ cfg.sCurveJerk → 0 ≤ dir * v) ∧
          (x.1.Regulates → x.1.pl.rampPos ≠ target → ¬|(x.1.finalErr cfg : ℚ)| ≤ 20 →
            0 ≤ dir * x.1.pl.rampSpeed →
            (dir * v < 0 ↔
              dir * x.1.pl.rampSpeed + dir * x.1.pl.rampAccel + cfg.sCurveJerk < 0)) := by
  intro dir run hsteps x hx htick v
  have hdir : dir = 1 ∨ dir = -1 := by
    rcases lt_or_gt_of_ne hne with h | h
    · exact .inr (Int.sign_eq_neg_one_of_neg (by omega))
    · exact .inl (Int.sign_eq_one_of_pos (by omega))
  have hstart : ((PosOp.setTarget target).apply cfg sqrtf s₀).Heads cfg target dir := by
    rw [PosOp.apply_setTarget]
    exact PosSys.retargeted_heads hcfg hrun haccept
  have hfound : x.1.Heads cfg target dir :=
    history_inv_of (f := PosOp.apply cfg sqrtf) (I := PosSys.Heads cfg target dir)
      (C := fun s op => op.Approaches cfg dir s)
      (fun s op h hop => h.apply hcfg hsqrt hdir hop) hstart hsteps x hx
  have hstep := hsteps x hx
  rw [htick] at hstep
  have hleft : (PosOp.tick.apply cfg sqrtf x.1).Heads cfg target dir :=
    hfound.apply hcfg hsqrt hdir hstep
  have hbound : -Ramp.droop cfg.sCurveJerk cfg.maxAccel ≤ dir * v := by
    by_cases hrun : (PosOp.tick.apply cfg sqrtf x.1).pl.running = true
    · exact (hleft.heads hrun).droops.neg_le
    · have hrest : v = 0 := hleft.rests (Bool.eq_false_iff.mpr hrun)
      rw [hrest, mul_zero]
      exact neg_nonpos.mpr (Ramp.droop_nonneg _ _)
  refine ⟨hbound, fun hjerk => ?_, fun hreg hmove hfar hspeed => ?_⟩
  · rwa [Ramp.droop_of_le hcfg.sCurveJerk hjerk, neg_zero] at hbound
  · have hsensed : (x.1.sensed cfg).pl.Heads cfg target dir := hfound.sensed hreg.1
    have hv : v = ((x.1.sensed cfg).pl.ramped cfg sqrtf).rampSpeed := by
      show (PosOp.tick.apply cfg sqrtf x.1).pl.rampSpeed = _
      rw [PosOp.apply_tick, (PosSys.ticked_ramp cfg sqrtf hreg).2, if_neg hfar]
    rw [hv]
    exact hsensed.ramped_turns_iff hcfg hsqrt hdir (hstep.fits rfl hreg)
      (fun heq => hmove (heq.trans hsensed.aim)) hspeed

/-- Accelerations up to 40 Hz and a jerk of 10 Hz a period, in two periods a second. -/
def slowConfig : PosConfig := ⟨2, 1000, 10, 40, false, 10, 200⟩

/-- A stalled motor, 203 counts from its target. -/
theorem feedForward_droop_stalled :
    let s₀ := PosOp.start.apply slowConfig Rat.sqrt restingPos
    let run := history (PosOp.apply slowConfig Rat.sqrt)
      ((PosOp.setTarget 203).apply slowConfig Rat.sqrt s₀) (List.replicate 14 .tick)
    ∀ x ∈ run, x.2 = .tick →
      (1 : ℤ) * (PosOp.tick.apply slowConfig Rat.sqrt x.1).pl.rampSpeed ≥ -Ramp.droop 10 40 := by
  intro s₀ run x hx htick
  have hrun : s₀.pl.running = true := by decide +kernel
  have haccept : s₀.Accepts 203 := by decide +kernel
  exact (feedForward_droop slowConfig ⟨by decide +kernel, by decide +kernel, by decide +kernel⟩
    Rat.sqrt (fun x _ => Rat.sqrt_nonneg x) hrun haccept (by decide +kernel)
    (List.replicate 14 .tick) (by decide +kernel) x hx htick).1

/-- After 14 ticks the ramp of this motor moves away from the target, with 10 Hz. The square roots
are rounded down here, which changes none of the accelerations. -/
theorem feedForward_turns :
    let s := (.start :: .setTarget 203 :: List.replicate 14 .tick).foldl
      (PosOp.apply slowConfig Rat.sqrt) restingPos
    slowConfig.sCurveJerk ≤ slowConfig.maxAccel ∧ s.pl.running = true ∧ s.pl.targetPos = 203 ∧
      s.pl.currentPos = 0 ∧ s.pl.rampSpeed = -10 := by
  refine ⟨?_, ?_, ?_, ?_, ?_⟩ <;> decide +kernel

end H750Stepper
