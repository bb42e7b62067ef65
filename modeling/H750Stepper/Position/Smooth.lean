import H750Stepper.Position.Output
import Mathlib.Data.Rat.Sqrt

/-!
# The S-curve over a whole motion

A tick that moves the ramp changes its acceleration by at most the jerk limit, and its speed by at
most the acceleration limit. But the ramp also stops at once: at its target, on a new target, and,
as far as the speed goes, near the target.

`ramp_smooth`: between two ticks, from 0 after a new target, the limits hold apart from these stops.
-/

namespace H750Stepper

open Threads CInt PosLoop

variable {cfg : PosConfig} {sqrtf : ℚ → ℚ}

/-! ## One step -/

/-- The ramp is within its limits, and at rest while the loop is stopped. -/
structure RampOk (cfg : PosConfig) (pl : PosLoop) : Prop where
  accel : |pl.rampAccel| ≤ cfg.maxAccel
  speed : |pl.rampSpeed| ≤ cfg.rampMaxSpeed
  rests : pl.running = false → pl.rampAccel = 0 ∧ pl.rampSpeed = 0

/-- The limits are positive. -/
structure PosConfig.Positive (cfg : PosConfig) : Prop where
  maxAccel : 0 < cfg.maxAccel
  sCurveJerk : 0 < cfg.sCurveJerk
  rampMaxSpeed : 0 < cfg.rampMaxSpeed

/-- A ramp at rest. -/
theorem PosConfig.Positive.rampOk (hcfg : cfg.Positive) {pl : PosLoop} (ha : pl.rampAccel = 0)
    (hv : pl.rampSpeed = 0) : RampOk cfg pl := by
  refine ⟨?_, ?_, fun _ => ⟨ha, hv⟩⟩
  · rw [ha, abs_zero]
    exact hcfg.maxAccel.le
  · rw [hv, abs_zero]
    exact hcfg.rampMaxSpeed.le

/-- What a tick that regulates does to the ramp. -/
def Smooth (cfg : PosConfig) (s s' : PosSys) : Prop :=
  if s.pl.rampErr = 0 then s'.pl.rampAccel = 0 ∧ s'.pl.rampSpeed = 0
  else |s'.pl.rampAccel - s.pl.rampAccel| ≤ cfg.sCurveJerk ∧
    if |s.finalErr cfg| ≤ 20 then s'.pl.rampSpeed = 0
    else |s'.pl.rampSpeed - s.pl.rampSpeed| ≤ cfg.maxAccel

theorem abs_nextAccel_le (hcfg : cfg.Positive) {accel : ℚ} (h : |accel| ≤ cfg.maxAccel) (err : ℤ)
    (speed : ℚ) : |cfg.nextAccel sqrtf err speed accel| ≤ cfg.maxAccel :=
  Ramp.abs_toward_le hcfg.sCurveJerk.le (abs_clampTo_le hcfg.maxAccel.le _) h

theorem abs_nextAccel_sub_le (hcfg : cfg.Positive) (err : ℤ) (speed accel : ℚ) :
    |cfg.nextAccel sqrtf err speed accel - accel| ≤ cfg.sCurveJerk :=
  Ramp.abs_toward_sub_le hcfg.sCurveJerk.le _ _

/-- The ramp keeps its limits. -/
theorem ramped_ok (sqrtf : ℚ → ℚ) (hcfg : cfg.Positive) {pl : PosLoop}
    (h : |pl.rampAccel| ≤ cfg.maxAccel) :
    |(pl.ramped cfg sqrtf).rampAccel| ≤ cfg.maxAccel ∧
      |(pl.ramped cfg sqrtf).rampSpeed| ≤ cfg.rampMaxSpeed := by
  unfold ramped
  split_ifs
  · have hrest : RampOk cfg { pl with rampAccel := 0, rampSpeed := 0 } := hcfg.rampOk rfl rfl
    exact ⟨hrest.accel, hrest.speed⟩
  · exact ⟨abs_nextAccel_le hcfg h _ _, abs_clampTo_le hcfg.rampMaxSpeed.le _⟩

/-- A ramp that is not at its target moves smoothly. -/
theorem ramped_smooth (sqrtf : ℚ → ℚ) (hcfg : cfg.Positive) {pl : PosLoop} (h : RampOk cfg pl)
    (herr : pl.rampErr ≠ 0) :
    |(pl.ramped cfg sqrtf).rampAccel - pl.rampAccel| ≤ cfg.sCurveJerk ∧
      |(pl.ramped cfg sqrtf).rampSpeed - pl.rampSpeed| ≤ cfg.maxAccel := by
  unfold ramped
  rw [if_neg herr]
  refine ⟨abs_nextAccel_sub_le hcfg _ _ _, ?_⟩
  exact (abs_clampTo_add_sub_le h.speed _).trans (abs_nextAccel_le hcfg h.accel _ _)

theorem ticked_smooth (hcfg : cfg.Positive) {s : PosSys} (h : RampOk cfg s.pl)
    (hreg : s.Regulates) : Smooth cfg s (s.ticked cfg sqrtf) := by
  let pl := (s.sensed cfg).pl.ramped cfg sqrtf
  obtain ⟨haccel, hspeed⟩ := PosSys.ticked_ramp cfg sqrtf hreg
  unfold Smooth
  rw [haccel, hspeed]
  show if s.pl.rampErr = 0 then pl.rampAccel = 0 ∧ (if _ then 0 else pl.rampSpeed) = 0 else _
  by_cases herr : s.pl.rampErr = 0
  · have herr' : (s.sensed cfg).pl.rampErr = 0 := herr
    have hpl : pl = { (s.sensed cfg).pl with rampAccel := 0, rampSpeed := 0 } := if_pos herr'
    rw [if_pos herr, hpl, ite_self]
    exact ⟨rfl, rfl⟩
  · have hok : RampOk cfg (s.sensed cfg).pl := ⟨h.accel, h.speed, h.rests⟩
    obtain ⟨ha, hv⟩ := ramped_smooth sqrtf hcfg hok herr
    rw [if_neg herr]
    refine ⟨ha, ?_⟩
    by_cases hnear : |(s.finalErr cfg : ℚ)| ≤ 20
    · have hnear' : |s.finalErr cfg| ≤ 20 := by exact_mod_cast hnear
      rw [if_pos hnear, if_pos hnear']
    · have hnear' : ¬|s.finalErr cfg| ≤ 20 := by exact_mod_cast hnear
      rw [if_neg hnear, if_neg hnear']
      exact hv

/-! ## Runs -/

theorem rampOk_ticked (hcfg : cfg.Positive) {s : PosSys} (h : RampOk cfg s.pl) :
    RampOk cfg (s.ticked cfg sqrtf).pl := by
  by_cases hreg : s.Regulates
  · have haccel : |(s.sensed cfg).pl.rampAccel| ≤ cfg.maxAccel := h.accel
    obtain ⟨ha, hv⟩ := ramped_ok sqrtf hcfg haccel
    obtain ⟨haccel, hspeed⟩ := PosSys.ticked_ramp cfg sqrtf hreg
    have hrunning := PosSys.ticked_running cfg sqrtf hreg
    refine ⟨haccel ▸ ha, ?_, fun hrun => absurd (hrunning.symm.trans hrun) (by simp)⟩
    rw [hspeed]
    split_ifs
    · rw [abs_zero]
      exact hcfg.rampMaxSpeed.le
    · exact hv
  · obtain ⟨hv, ha, -, -⟩ := PosSys.ticked_pl_of_not cfg sqrtf hreg
    exact hcfg.rampOk ha hv

/-- Every call keeps the ramp within its limits. -/
theorem rampOk_apply (sqrtf : ℚ → ℚ) (hcfg : cfg.Positive) {s : PosSys} (h : RampOk cfg s.pl)
    (op : PosOp) : RampOk cfg (op.apply cfg sqrtf s).pl := by
  cases op with
  | start =>
    rw [PosOp.apply_start]
    split_ifs
    · exact h
    · exact hcfg.rampOk rfl rfl
  | stop =>
    rw [PosOp.apply_stop]
    exact hcfg.rampOk rfl rfl
  | tick =>
    rw [PosOp.apply_tick]
    exact rampOk_ticked hcfg h
  | setTarget target =>
    rw [PosOp.apply_setTarget]
    unfold PosSys.retargeted
    split_ifs
    · exact hcfg.rampOk rfl rfl
    · exact ⟨h.accel, h.speed, h.rests⟩
    · exact h
  | encoder enc => exact h
  | driver e => exact h

theorem rampOk_foldl (hcfg : cfg.Positive) {s : PosSys} (h : RampOk cfg s.pl) (ops : List PosOp) :
    RampOk cfg (ops.foldl (PosOp.apply cfg sqrtf) s).pl := by
  induction ops generalizing s with
  | nil => exact h
  | cons op ops ih => exact ih (rampOk_apply sqrtf hcfg h op)

/-- The soft limits stay. -/
theorem scale_apply (s : PosSys) (op : PosOp) : (op.apply cfg sqrtf s).scale = s.scale := by
  cases op with
  | start =>
    rw [PosOp.apply_start]
    split_ifs <;> rfl
  | tick =>
    rw [PosOp.apply_tick]
    unfold PosSys.ticked PosSys.regulated
    dsimp only
    split_ifs <;> rfl
  | setTarget target =>
    rw [PosOp.apply_setTarget]
    unfold PosSys.retargeted
    split_ifs <;> rfl
  | _ => rfl

/-- The call sets a new target. -/
def PosOp.Retargets (s : PosSys) (op : PosOp) : Prop :=
  ∃ target, op = .setTarget target ∧ s.Accepts target

/-- The ramp from which the next tick moves on: at rest if there is a new target, else as it was. -/
structure Rebased (s s' : PosSys) (new : Prop) : Prop where
  rest : new → s'.pl.rampAccel = 0 ∧ s'.pl.rampSpeed = 0
  same : ¬new → s'.pl.rampAccel = s.pl.rampAccel ∧ s'.pl.rampSpeed = s.pl.rampSpeed

theorem Rebased.trans {s s' s'' : PosSys} {p q : Prop} (h : Rebased s s' p)
    (h' : Rebased s' s'' q) : Rebased s s'' (p ∨ q) := by
  constructor
  · intro hnew
    by_cases hq : q
    · exact h'.rest hq
    · obtain ⟨ha, hv⟩ := h'.same hq
      rw [ha, hv]
      exact h.rest (hnew.resolve_right hq)
  · intro hold
    obtain ⟨hp, hq⟩ := not_or.mp hold
    obtain ⟨ha, hv⟩ := h'.same hq
    rw [ha, hv]
    exact h.same hp

/-- A call between two ticks. -/
theorem rebased_apply (sqrtf : ℚ → ℚ) {s : PosSys} (h : RampOk cfg s.pl) {op : PosOp}
    (hstop : op ≠ .stop) (htick : op ≠ .tick) :
    Rebased s (op.apply cfg sqrtf s) (op.Retargets s) := by
  cases op with
  | stop => exact absurd rfl hstop
  | tick => exact absurd rfl htick
  | start =>
    refine ⟨fun ⟨_, hop, _⟩ => (by cases hop), fun _ => ?_⟩
    rw [PosOp.apply_start]
    by_cases hrun : s.pl.running = true
    · rw [if_pos hrun]
      exact ⟨rfl, rfl⟩
    · obtain ⟨ha, hv⟩ := h.rests (Bool.eq_false_iff.mpr hrun)
      rw [if_neg hrun, ha, hv]
      exact ⟨rfl, rfl⟩
  | setTarget target =>
    rw [PosOp.apply_setTarget]
    unfold PosSys.retargeted
    constructor
    · rintro ⟨_, ⟨⟩, haccept⟩
      rw [if_pos haccept]
      by_cases hrun : s.pl.running = true
      · rw [if_pos hrun]
        exact ⟨rfl, rfl⟩
      · rw [if_neg hrun]
        exact h.rests (Bool.eq_false_iff.mpr hrun)
    · intro hrefuse
      rw [if_neg fun haccept => hrefuse ⟨target, rfl, haccept⟩]
      exact ⟨rfl, rfl⟩
  | encoder enc =>
    exact ⟨fun ⟨_, hop, _⟩ => (by cases hop), fun _ => ⟨rfl, rfl⟩⟩
  | driver e =>
    exact ⟨fun ⟨_, hop, _⟩ => (by cases hop), fun _ => ⟨rfl, rfl⟩⟩

theorem rebased_foldl (hcfg : cfg.Positive) {s : PosSys} (h : RampOk cfg s.pl) {ops : List PosOp}
    (hstop : .stop ∉ ops) (htick : .tick ∉ ops) :
    Rebased s (ops.foldl (PosOp.apply cfg sqrtf) s) (∃ op ∈ ops, op.Retargets s) := by
  induction ops generalizing s with
  | nil => exact ⟨fun ⟨_, hmem, _⟩ => absurd hmem List.not_mem_nil, fun _ => ⟨rfl, rfl⟩⟩
  | cons op ops ih =>
    rw [List.mem_cons, not_or] at hstop htick
    have hfirst := rebased_apply sqrtf h (Ne.symm hstop.1) (Ne.symm htick.1)
    have hlater := ih (rampOk_apply sqrtf hcfg h op) hstop.2 htick.2
    have hlimits : ∀ op' : PosOp, op'.Retargets (op.apply cfg sqrtf s) ↔ op'.Retargets s := by
      intro op'
      unfold PosOp.Retargets PosSys.Accepts
      rw [scale_apply]
    simp only [hlimits] at hlater
    rw [List.foldl_cons, List.exists_mem_cons_iff]
    exact hfirst.trans hlater

/-- **The S-curve.** In every run of a loop that has been started, from one tick (or the start) to
the next that regulates: the ramp is at rest if a new target has been set in between and as it was
otherwise; from there the tick moves it smoothly. -/
theorem ramp_smooth (cfg : PosConfig) (hcfg : cfg.Positive) (sqrtf : ℚ → ℚ) (s₀ : PosSys)
    (hstopped : s₀.pl.running = false) (ops₁ ops₂ : List PosOp) (hstop : .stop ∉ ops₂)
    (htick : .tick ∉ ops₂) :
    let s := (PosOp.start :: ops₁).foldl (PosOp.apply cfg sqrtf) s₀
    let s' := ops₂.foldl (PosOp.apply cfg sqrtf) s
    s'.Regulates →
      Rebased s s' (∃ op ∈ ops₂, op.Retargets s) ∧
        Smooth cfg s' (PosOp.tick.apply cfg sqrtf s') := by
  intro s s' hreg
  have hstart : RampOk cfg (PosOp.start.apply cfg sqrtf s₀).pl := by
    rw [PosOp.apply_start, if_neg (by simp [hstopped])]
    exact hcfg.rampOk rfl rfl
  have hs : RampOk cfg s.pl := rampOk_foldl hcfg hstart ops₁
  refine ⟨rebased_foldl hcfg hs hstop htick, ?_⟩
  rw [PosOp.apply_tick]
  exact ticked_smooth hcfg (rampOk_foldl hcfg hs ops₂) hreg

/-- Accelerations up to 200 Hz and a jerk of 40 Hz a period, in periods of a millisecond. -/
def smoothConfig : PosConfig := ⟨1000, 1000, 10, 200, false, 40, 1000⟩

theorem smoothConfig_positive : smoothConfig.Positive :=
  ⟨by decide +kernel, by decide +kernel, by decide +kernel⟩

/-- Two ticks of a move, without a new target in between. -/
theorem ramp_smooth_move :
    let s := [.start, .setTarget 30, .tick].foldl (PosOp.apply smoothConfig Rat.sqrt) restingPos
    let s' := [.encoder ⟨1, 1, 1⟩].foldl (PosOp.apply smoothConfig Rat.sqrt) s
    Rebased s s' (∃ op ∈ [PosOp.encoder ⟨1, 1, 1⟩], op.Retargets s) ∧
      Smooth smoothConfig s' (PosOp.tick.apply smoothConfig Rat.sqrt s') :=
  ramp_smooth smoothConfig smoothConfig_positive Rat.sqrt restingPos rfl [.setTarget 30, .tick]
    [.encoder ⟨1, 1, 1⟩] (by decide) (by decide) (by decide +kernel)

/-- The same target again after four ticks: acceleration and speed fall from 160 and 400 Hz to
40 Hz each. The only square root taken is that of 9000000. -/
theorem ramp_jumps :
    let s := [.start, .setTarget 30, .tick, .tick, .tick, .tick].foldl
      (PosOp.apply smoothConfig Rat.sqrt) restingPos
    let s' := [.setTarget 30, .tick].foldl (PosOp.apply smoothConfig Rat.sqrt) s
    Rat.sqrt 9000000 = 3000 ∧ s.pl.rampAccel = 160 ∧ s.pl.rampSpeed = 400 ∧
      s'.pl.rampAccel = 40 ∧ s'.pl.rampSpeed = 40 ∧
      ¬|s'.pl.rampAccel - s.pl.rampAccel| ≤ smoothConfig.sCurveJerk ∧
      ¬|s'.pl.rampSpeed - s.pl.rampSpeed| ≤ smoothConfig.maxAccel := by
  refine ⟨?_, ?_, ?_, ?_, ?_, ?_, ?_⟩ <;> decide +kernel

end H750Stepper
