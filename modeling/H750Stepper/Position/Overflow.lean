import H750Stepper.Position.Output
import H750Stepper.Position.RampRange

/-!
# The integers of the position loop

Positions are 32-bit words, and each tick takes the differences of target, ramp and motor. The ramp
starts a tick where the tick before and the calls since have left it, moves by up to one period of
its speed, and only then is brought back near the motor. The triples of the parts of a round say how
far it is away in between.

`no_signed_overflow`: no operation on `int` leaves its range.
-/

namespace H750Stepper

open Threads CInt

namespace PosLoop.Noting

open Prog (ask perform when quiet Triple)

variable {cfg : PosConfig} {scale : PosScale}

/-! ## The ramp -/

/-- The ramp comes back near the motor, from wherever one period of the speed has led it. -/
theorem obeys_followMotor (m : ℚ) {lead : ℤ} (hlo : 0 ≤ lead) (hhi : lead ≤ 2000) :
    Obeys cfg scale none ((RampRange.stepped m).Holds scale) (followMotor lead) fun _ =>
      (RampRange.rest m).Holds scale := by
  unfold followMotor
  refine obeys_rampPos_eq.bind_lift fun x hx => ?_
  have hx : x.natAbs ≤ 2 ^ 30 + 2000 := hx
  refine (obeys_currentPos (known_range _)).bind_lift fun c hc => ?_
  refine (obeys_sub (known_range _) (by unfold Fits; omega)).bind_lift fun d hd => ?_
  refine Triple.ite (fun _ => ?_) fun hle => ?_
  · refine (obeys_currentPos (known_range _)).bind_lift fun c hc => ?_
    refine (ArithNote.triple_add careful_signed (known_range _).stable
      (by unfold Fits; omega)).bind_lift fun v hv => ?_
    exact obeys_setRampPos (show v.natAbs ≤ 2 ^ 29 + 2000 by omega) fun _ h => h
  · -- the ramp is not too far above, whichever thread has set it last
    have hup : ∀ y : ℤ, y = x ∨ y.natAbs ≤ 2 ^ 29 → y ≤ 2 ^ 29 + 2000 ∧ -(2 ^ 30 + 2000) ≤ y := by
      rintro y (rfl | hy) <;> omega
    refine (obeys_currentPos (known_range _)).bind_lift fun c hc => ?_
    refine obeys_rampPos_eq.bind_lift fun y hy => ?_
    have hy := hup y hy
    refine (obeys_sub (known_range _) (by unfold Fits; omega)).bind_lift fun d hd => ?_
    refine Triple.ite (fun _ => ?_) fun hle => ?_
    · refine (obeys_currentPos (known_range _)).bind_lift fun c hc => ?_
      refine (obeys_sub (known_range _) (by unfold Fits; omega)).bind_lift fun v hv => ?_
      exact obeys_setRampPos (show v.natAbs ≤ 2 ^ 29 + 2000 by omega) fun _ h => h
    · refine Triple.ret fun s hs => hs.imp ?_ fun _ h => h
      rintro z (rfl | hz)
      · show z.natAbs ≤ 2 ^ 29 + 2000
        omega
      · show z.natAbs ≤ 2 ^ 29 + 2000
        omega

section Ramp

variable (b : RampRange)

theorem obeys_toTarget :
    Obeys cfg scale none (b.Holds scale)
      (do quiet (perform (.setRampPos (← quiet readTargetPos)))) fun _ => b.Holds scale := by
  refine (obeys_targetPos (known_range b)).bind_lift fun x hx => ?_
  exact obeys_setRampPos (b.pos_of_le x hx) fun _ h => h

theorem obeys_stopBelowTarget :
    Obeys cfg scale none (b.Holds scale) (quiet stopBelowTarget) fun _ => b.Holds scale := by
  unfold stopBelowTarget
  simp only [Prog.quiet_bind, Prog.quiet_ite]
  refine obeys_rampPos.bind_lift fun x _ => ?_
  refine (obeys_targetPos (known_range b)).bind_lift fun y _ => ?_
  refine Triple.ite (fun _ => ?_) fun _ => Triple.ret fun s hs => hs
  refine (obeys_currentPos (known_range b)).bind_lift fun x _ => ?_
  refine (obeys_targetPos (known_range b)).bind_lift fun y _ => ?_
  exact Triple.ite (fun _ => obeys_toTarget b) fun _ => Triple.ret fun s hs => hs

theorem obeys_stopAtTarget :
    Obeys cfg scale none (b.Holds scale) (quiet stopAtTarget) fun _ => b.Holds scale := by
  unfold stopAtTarget
  simp only [Prog.quiet_bind, Prog.quiet_ite]
  refine obeys_rampPos.bind_lift fun x _ => ?_
  refine (obeys_targetPos (known_range b)).bind_lift fun y _ => ?_
  refine Triple.ite (fun _ => ?_) fun _ => obeys_stopBelowTarget b
  refine (obeys_currentPos (known_range b)).bind_lift fun x _ => ?_
  refine (obeys_targetPos (known_range b)).bind_lift fun y _ => ?_
  exact Triple.ite (fun _ => obeys_toTarget b) fun _ => obeys_stopBelowTarget b

theorem obeys_overshot (hscale : scale.Ranged) (sign : ℤ) :
    Obeys cfg scale none (b.Holds scale)
      (quiet do when (← overshot sign) (do perform (.setRampPos (← readTargetPos)))) fun _ =>
      b.Holds scale := by
  simp only [Prog.quiet_bind, Prog.quiet_when]
  refine (obeys_mild hscale (known_range b) ?_).bind fun past => ?_
  · simp [overshot, readRampPos, readTargetPos, PosAct.Mild]
  · exact Triple.when (fun _ => obeys_toTarget b) fun _ s hs => hs

end Ramp

/-- The two tests on the speed leave it in the limits, whatever happens between them. -/
theorem obeys_limitSpeed (m : ℚ) :
    Obeys cfg scale none ((RampRange.fast m).Holds scale)
      (do
        when ((← quiet readRampSpeed) > m) (quiet (perform (.setRampSpeed m)))
        when ((← quiet readRampSpeed) < -m) (quiet (perform (.setRampSpeed (-m))))) fun _ =>
      (RampRange.rest m).Holds scale := by
  set upper : RampRange := .withSpeed (.fast m) (fun v => v ≤ |m|) (abs_nonneg m)
  have hupper : Obeys cfg scale none ((RampRange.fast m).Holds scale)
      (quiet readRampSpeed >>= fun v => when (v > m) (quiet (perform (.setRampSpeed m)))) fun _ =>
      upper.Holds scale := by
    refine obeys_rampSpeed_eq.bind_lift fun v _ => Triple.when (fun _ => ?_) fun hv s hs => ?_
    · exact obeys_setRampSpeed (le_abs_self m) fun _ h => h
    · refine hs.imp (fun _ h => h) ?_
      rintro w (rfl | rfl)
      · exact (not_lt.mp hv).trans (le_abs_self m)
      · exact abs_nonneg m
  rw [← Prog.bind_assoc]
  refine hupper.bind fun _ => obeys_rampSpeed_eq.bind_lift fun v hup => ?_
  refine Triple.when (fun _ => ?_) fun hv s hs => ?_
  · exact obeys_setRampSpeed (abs_neg m).le fun _ h => h
  · refine hs.imp (fun _ h => h) ?_
    rintro w (rfl | rfl)
    · exact abs_le.mpr ⟨(neg_le_neg (le_abs_self m)).trans (not_lt.mp hv), hup⟩
    · exact abs_zero.trans_le (abs_nonneg m)

theorem obeys_clampLead (hcfg : cfg.Ranged) :
    Obeys cfg scale none ((RampRange.stepped cfg.rampMaxSpeed).Holds scale) (clampLead cfg) fun _ =>
      AtRest cfg scale := by
  unfold clampLead
  refine obeys_rampSpeed.bind_lift fun v hv => ?_
  refine (obeys_div (known_range _) _ _).bind_lift fun w hw => ?_
  have hlead : |w * 2| ≤ (2 ^ 30 : ℕ) := by
    have hw' := hcfg.abs_div_le (v := |v|) ((abs_abs v).trans_le hv)
    rw [abs_mul, abs_two, hw]
    push_cast
    linarith
  refine (obeys_toInt (known_range _) hlead (by norm_num)).bind_lift fun lead _ => ?_
  refine (obeys_followMotor cfg.rampMaxSpeed ?_ ?_).bind fun _ => obeys_stopAtTarget _
  · split_ifs <;> omega
  · split_ifs <;> omega

theorem obeys_moveRamp (hcfg : cfg.Ranged) (hscale : scale.Ranged) (sqrtf : ℚ → ℚ) (sign : ℤ)
    (remain : ℚ) : Rests cfg scale (moveRamp cfg sqrtf sign remain) := by
  unfold moveRamp
  dsimp only
  refine Triple.bind (R := fun _ => AtRest cfg scale) ?_ fun _ => ?_
  · simp only [Prog.quiet_bind, Prog.quiet_when]
    refine obeys_rampSpeed.bind_lift fun v _ => ?_
    refine (obeys_mild hscale (known_range _) ?_).bind fun _ => ?_
    · simp [stepAccel, readRampAccel, PosAct.Mild]
    refine obeys_rampSpeed.bind_lift fun v _ => ?_
    refine (obeys_mild hscale (known_range _) (p := readRampAccel) ?_).bind fun a => ?_
    · simp [readRampAccel, PosAct.Mild]
    exact (obeys_setRampSpeed (b := .rest cfg.rampMaxSpeed) (d := .fast cfg.rampMaxSpeed) trivial
      fun _ h => h).bind fun _ => obeys_limitSpeed _
  · refine obeys_rampPos.bind_lift fun x hx => ?_
    refine obeys_rampSpeed.bind_lift fun v hv => ?_
    refine (obeys_div (known_range _) _ _).bind_lift fun w hw => ?_
    have hstep : |w| ≤ (2 ^ 29 : ℕ) := by
      rw [hw]
      exact_mod_cast hcfg.abs_div_le hv
    refine (obeys_toInt (known_range _) hstep (by norm_num)).bind_lift fun d hd => ?_
    have hx : x.natAbs ≤ 2 ^ 29 + 2000 := hx
    refine (ArithNote.triple_add careful_signed (known_range _).stable
      (by unfold Fits; omega)).bind_lift fun y hy => ?_
    refine (obeys_setRampPos (b := .rest cfg.rampMaxSpeed) (d := .stepped cfg.rampMaxSpeed)
      (show y.natAbs ≤ 2 ^ 30 + 2000 by omega) fun _ h => h).bind fun _ => ?_
    exact (obeys_overshot _ hscale sign).bind fun _ => obeys_clampLead hcfg

theorem obeys_ramp (hcfg : cfg.Ranged) (hscale : scale.Ranged) (sqrtf : ℚ → ℚ) :
    Rests cfg scale (ramp cfg sqrtf) := by
  unfold ramp
  refine (obeys_targetPos (known_range _)).bind_lift fun x hx => ?_
  refine obeys_rampPos.bind_lift fun y hy => ?_
  have hy : y.natAbs ≤ 2 ^ 29 + 2000 := hy
  refine (obeys_sub (known_range _) (by unfold Fits; omega)).bind_lift fun d _ => ?_
  refine Triple.ite (fun _ => obeys_moveRamp hcfg hscale sqrtf _ _) fun _ => ?_
  exact obeys_mild hscale (known_range _) (by simp [PosAct.Mild])

/-! ## The tick -/

theorem obeys_controlFreq (hscale : scale.Ranged) :
    Obeys cfg scale none (AtRest cfg scale) (controlFreq cfg) fun f s =>
      |f| ≤ cfg.outputBound ∧ AtRest cfg scale s := by
  unfold controlFreq
  refine obeys_rampPos.bind_lift fun x hx => ?_
  refine (obeys_currentPos (known_range _)).bind_lift fun c hc => ?_
  have hx : x.natAbs ≤ 2 ^ 29 + 2000 := hx
  refine (obeys_sub (known_range _) (by unfold Fits; omega)).bind_lift fun d _ => ?_
  refine (obeys_mild hscale (known_range _) ?_).bind fun _ => ?_
  · simp [crossed, readPrevPosErr, PosAct.Mild]
  refine obeys_finalErr (known_range _) fun e _ => Triple.ite (fun _ => ?_) fun _ => ?_
  · refine obeys_finalErr (known_range _) fun e _ => ?_
    refine (obeys_mild hscale (known_range _) (by simp [PosAct.Mild])).bind fun _ => ?_
    have hnear : |nearFreq e| ≤ 500 := (abs_nearFreq_le_iff (by norm_num) e).mpr (.inr le_rfl)
    exact Triple.ret fun s hs => ⟨hnear.trans (le_max_left _ _), hs⟩
  · simp only [Prog.quiet_bind]
    refine obeys_rampSpeed.bind_lift fun v hv => ?_
    refine obeys_rampPos.bind_lift fun x _ => ?_
    refine (obeys_mild hscale (known_range _) ?_).bind fun _ => ?_
    · simp [Pid.setTarget, PosAct.Mild]
    refine (obeys_currentPos (known_range _)).bind_lift fun c _ => ?_
    refine (obeys_mild hscale (known_range _) ?_).bind fun corr => ?_
    · simp [PosAct.Mild]
    exact Triple.ret fun s hs => ⟨cfg.abs_clampTo_le_outputBound hv (abs_clampTo_le_abs _ _), hs⟩

theorem obeys_output (hscale : scale.Ranged) {f : ℚ} (hf : |f| ≤ cfg.outputBound) :
    Rests cfg scale (output f) := by
  unfold output
  refine (obeys_mild hscale (known_range _) ?_).bind fun _ => ?_
  · simp [Motor.setDirection, PosAct.Mild]
  refine (obeys_toUnsigned (known_range _) hf).bind fun absFreq => ?_
  refine obeys_finalErr (known_range _) fun e he => ?_
  have habs : |(|(e : ℚ)|)| ≤ (2 ^ 30 : ℕ) := by
    have hle : |e| ≤ 2 ^ 30 := abs_le.mpr ⟨by omega, by omega⟩
    rw [abs_abs]
    exact_mod_cast hle
  refine (obeys_toInt (known_range _) habs (by norm_num)).bind_lift fun absErr _ => ?_
  exact obeys_mild hscale (known_range _) (by simp [Motor.setFrequency, PosAct.Mild])

theorem obeys_sense (hscale : scale.Ranged) : Rests cfg scale (sense cfg) := by
  have hstore : ∀ x : ℤ, x.natAbs ≤ 2 ^ 29 → Rests cfg scale (quiet do
      perform (.setCurrentPos x)
      perform (.setLastEnc x)) := fun x hx =>
    obeys_mild hscale (known_range _) (by simpa [PosAct.Mild] using hx)
  unfold sense
  refine (obeys_encRead hscale (known_range _)).bind_lift fun x hx => ?_
  dsimp only
  refine Triple.ite (fun _ => ?_) fun _ => hstore x hx
  refine (ArithNote.triple_neg careful_signed (known_range _).stable
    (by unfold Fits; omega)).bind_lift fun y hy => ?_
  exact hstore y (by omega)

theorem obeys_regulate (hcfg : cfg.Ranged) (hscale : scale.Ranged) (sqrtf : ℚ → ℚ) :
    Rests cfg scale (regulate cfg sqrtf) := by
  unfold regulate
  refine (obeys_mild hscale (known_range _) ?_).bind fun _ => ?_
  · simp [Motor.idleTick, PosAct.Mild]
  refine (obeys_ramp hcfg hscale sqrtf).bind fun _ => ?_
  exact (obeys_controlFreq hscale).bind_lift fun f hf => obeys_output hscale hf

theorem obeys_tick (hcfg : cfg.Ranged) (hscale : scale.Ranged) (sqrtf : ℚ → ℚ) :
    Rests cfg scale (tick cfg sqrtf) := by
  unfold tick
  refine (obeys_mild hscale (known_range _) ?_).bind fun running => ?_
  · simp [readRunning, PosAct.Mild]
  refine Triple.ite (fun _ => ?_) fun _ => ?_
  · refine (obeys_sense hscale).bind fun _ => ?_
    refine (obeys_mild hscale (known_range _) (by simp [PosAct.Mild])).bind fun fault => ?_
    refine Triple.ite (fun _ => ?_) fun _ => ?_
    · exact (obeys_mild hscale (known_range _) (by simp [stop, PosAct.Mild])).bind fun _ =>
        Triple.ret fun s hs => hs
    · exact (obeys_regulate hcfg hscale sqrtf).bind fun _ => Triple.ret fun s hs => hs
  · refine (obeys_mild hscale (known_range _) (by simp [PosAct.Mild])).bind fun _ => ?_
    exact Triple.ret fun s hs => hs

/-! ## The log line -/

theorem obeys_toPhysical (hscale : scale.Ranged) {x : ℤ} (hx : x.natAbs ≤ 2 ^ 29 + 2000) :
    Rests cfg scale (toPhysical x) := by
  unfold toPhysical
  refine (obeys_scale (known_range _)).bind_lift fun sc hsc => ?_
  have hhome : sc.homeOffset = 0 := hsc ▸ hscale.home
  refine (obeys_sub (known_range _) (by unfold Fits; omega)).bind_lift fun d _ => ?_
  exact (obeys_div (known_range _) _ _).conseq (fun _ hs => hs) fun _ _ hs => hs.2

theorem obeys_logLine (hscale : scale.Ranged) : Rests cfg scale logLine := by
  unfold logLine
  refine (obeys_currentPos (known_range _)).bind_lift fun c hc => ?_
  refine (obeys_toPhysical hscale (hc.trans (by norm_num))).bind fun _ => ?_
  refine obeys_rampPos.bind_lift fun x hx => ?_
  refine (obeys_toPhysical hscale hx).bind fun _ => ?_
  refine (obeys_targetPos (known_range _)).bind_lift fun y hy => ?_
  refine (obeys_toPhysical hscale (hy.trans (by norm_num))).bind fun _ => ?_
  refine obeys_finalErr (known_range _) fun e _ => ?_
  refine (obeys_scale (known_range _)).bind_lift fun sc _ => ?_
  exact (obeys_div (known_range _) _ _).bind fun _ => Triple.ret fun s hs => hs.2

/-- The counter of the ticks since the last log line. -/
def Counts (cfg : PosConfig) (count : ℤ) : Prop :=
  0 ≤ count ∧ (count = 0 ∨ count < (cfg.freqHz / 2 : ℕ))

theorem obeys_logTick (hcfg : cfg.Ranged) (hscale : scale.Ranged) {count : ℤ}
    (hcount : Counts cfg count) :
    Obeys cfg scale none (AtRest cfg scale) (logTick cfg count) fun n s =>
      Counts cfg n ∧ AtRest cfg scale s := by
  have hlt := hcfg.freq_lt
  unfold Counts at hcount
  unfold logTick
  refine (ArithNote.triple_add careful_signed (known_range _).stable
    (by unfold Fits; omega)).bind_lift fun n hn => ?_
  refine Triple.ite (fun _ => ?_) fun hle => ?_
  · exact (obeys_logLine hscale).bind fun _ => Triple.ret fun s hs => ⟨⟨le_rfl, .inl rfl⟩, hs⟩
  · refine Triple.ret fun s hs => ⟨⟨by omega, .inr ?_⟩, hs⟩
    have hcast := uwrap_cast 32 n
    omega

/-- The control thread. -/
theorem obeys_threadEntry (hcfg : cfg.Ranged) (hscale : scale.Ranged) (sqrtf : ℚ → ℚ)
    (rounds : ℕ) {count : ℤ} (hcount : Counts cfg count) :
    Rests cfg scale (threadEntry cfg sqrtf count rounds) := by
  induction rounds generalizing count with
  | zero => exact Triple.ret fun s hs => hs
  | succ rounds ih =>
    refine (obeys_tick hcfg hscale sqrtf).bind fun logs => Triple.ite (fun _ => ?_) fun _ => ?_
    · exact (obeys_logTick hcfg hscale hcount).bind_lift fun n hn => ih hn
    · exact ih hcount

/-! ## Calls -/

section Calls

variable (hscale : scale.Ranged) (t : ℕ)

include hscale

theorem obeys_start :
    Obeys cfg scale (some t) (Positioned scale) (quiet (PosLoop.start cfg)) fun _ =>
      Positioned scale := by
  have hP := known_bounded scale t
  unfold PosLoop.start
  simp only [Prog.quiet_bind, Prog.quiet_ite, Prog.quiet_when]
  refine (obeys_mild hscale hP (by simp [readRunning, PosAct.Mild])).bind fun running => ?_
  refine Triple.ite (fun _ => Triple.ret fun s hs => hs) fun _ => ?_
  refine (obeys_mild hscale hP (by simp [PosAct.Mild])).bind fun _ => ?_
  refine (obeys_mild hscale hP (by simp [Pid.reset, PosAct.Mild])).bind fun _ => ?_
  refine (obeys_encRead hscale hP).bind_lift fun x hx => ?_
  refine (obeys_mild hscale hP (by simpa [PosAct.Mild] using hx)).bind fun _ => ?_
  refine Triple.bind (R := fun _ => Positioned scale) (Triple.when (fun _ => ?_) fun _ s hs => hs)
    fun _ => ?_
  · refine (obeys_currentPos hP).bind_lift fun x hx => obeys_mild hscale hP ?_
    have hneg : wrap 32 (-x) = -x := wrap_of_fits (by unfold Fits; omega)
    simpa [PosAct.Mild, hneg] using hx
  refine (obeys_currentPos hP).bind_lift fun x hx => ?_
  refine (obeys_mild hscale hP (by simpa [PosAct.Mild] using hx)).bind fun _ => ?_
  refine (obeys_currentPos hP).bind_lift fun x hx => ?_
  refine (obeys_mild hscale hP (by simpa [PosAct.Mild] using hx)).bind fun _ => ?_
  simp only [← Prog.quiet_bind]
  exact obeys_mild hscale hP (by simp [PosAct.Mild])

theorem obeys_setTarget (target : ℤ) :
    Obeys cfg scale (some t) (Positioned scale) (quiet (PosLoop.setTarget target)) fun _ =>
      Positioned scale := by
  have hP := known_bounded scale t
  unfold PosLoop.setTarget
  simp only [Prog.quiet_bind, Prog.quiet_ite, Prog.quiet_when]
  refine (obeys_read (c := fun x => x = scale.posMinCounts) hP _ fun s hs =>
    hs.scale ▸ rfl).bind_lift fun lo hlo => ?_
  refine Triple.ite (fun _ => Triple.ret fun s hs => hs) fun hge => ?_
  refine (obeys_read (c := fun x => x = scale.posMaxCounts) hP _ fun s hs =>
    hs.scale ▸ rfl).bind_lift fun hi hhi => ?_
  refine Triple.ite (fun _ => Triple.ret fun s hs => hs) fun hle => ?_
  have htarget : target.natAbs ≤ 2 ^ 29 := by
    have hlow := hscale.low
    have hhigh := hscale.high
    omega
  refine (obeys_mild hscale hP (by simp [readRunning, PosAct.Mild])).bind fun running => ?_
  refine Triple.bind (R := fun _ => Positioned scale) (Triple.when (fun _ => ?_) fun _ s hs => hs)
    fun _ => ?_
  · refine (obeys_currentPos hP).bind_lift fun x hx => ?_
    refine (obeys_mild hscale hP (by simpa [PosAct.Mild] using hx)).bind fun _ => ?_
    simp only [← Prog.quiet_bind]
    exact obeys_mild hscale hP (by simp [Pid.reset, PosAct.Mild])
  · simp only [← Prog.quiet_bind]
    exact obeys_mild hscale hP (by simpa [PosAct.Mild] using htarget)

omit hscale in
theorem obeys_isArrived (hcfg : cfg.Ranged) :
    Obeys cfg scale (some t) (Positioned scale) (isArrived cfg) fun _ => Positioned scale := by
  have hP := known_bounded scale t
  unfold isArrived
  refine obeys_finalErr hP fun d hd => ?_
  have habs : Fits 32 |d| := by
    rw [Int.abs_eq_natAbs]
    unfold Fits
    omega
  refine (ArithNote.triple_abs careful_signed hP.stable habs).bind_lift fun dist _ => ?_
  refine (ArithNote.triple_toInt careful_signed hP.stable hcfg.threshold).bind fun thr => ?_
  exact Triple.ret fun s hs => hs.2

theorem obeys_moveTo (hcfg : cfg.Ranged) (target : ℤ) (timeoutMs polls : ℕ) :
    Obeys cfg scale (some t) (Positioned scale) (moveTo cfg target timeoutMs polls) fun _ =>
      Positioned scale := by
  have hP := known_bounded scale t
  have hread : ∀ {α : Type} (f : PosField) (g : PosSys → α), Obeys cfg scale (some t)
      (Positioned scale) (quiet (ask (.read f) g)) fun _ => Positioned scale := fun f g =>
    obeys_mild hscale hP (by simp [PosAct.Mild])
  unfold moveTo
  refine (hread .running _).bind fun running => ?_
  refine Triple.ite (fun _ => ?_) fun _ => Triple.ret fun s hs => hs
  refine (obeys_mild hscale hP (by simp [PosAct.Mild])).bind fun fault => ?_
  refine Triple.ite (fun _ => Triple.ret fun s hs => hs) fun _ => ?_
  refine (hread _ _).bind fun lo => Triple.ite (fun _ => Triple.ret fun s hs => hs) fun _ => ?_
  refine (hread _ _).bind fun hi => Triple.ite (fun _ => Triple.ret fun s hs => hs) fun _ => ?_
  unfold moveChecked
  refine (obeys_setTarget hscale t target).bind fun _ => ?_
  refine (obeys_mild hscale hP (by simp [PosAct.Mild])).bind fun deadline => Triple.poll ?_
  refine (obeys_isArrived t hcfg).bind fun arrived => Triple.ite (fun _ => ?_) fun _ => ?_
  · exact Triple.ret fun s hs => hs
  · exact obeys_mild hscale hP (by simp [PosAct.Mild])

theorem obeys_code (hcfg : cfg.Ranged) (c : PosCall) :
    Obeys cfg scale (some t) (Positioned scale) (code cfg c) fun _ => Positioned scale := by
  have hP := known_bounded scale t
  cases c with
  | start => exact obeys_start hscale t
  | stop => exact obeys_mild hscale hP (by simp [PosCall.code, PosLoop.stop, PosAct.Mild])
  | setTarget target => exact obeys_setTarget hscale t target
  | moveTo target timeoutMs polls =>
    exact (obeys_moveTo hscale t hcfg target timeoutMs polls).bind fun _ =>
      Triple.ret fun s hs => hs
  | home homePin homeDir speedHz timeoutMs polls =>
    exact obeys_mild hscale hP (Prog.all_bind.2
      ⟨(PosLoop.home_all ..).imp fun l hl => hl.mild, fun _ _ => trivial⟩)
  | isArrived => exact (obeys_isArrived t hcfg).bind fun _ => Triple.ret fun s hs => hs

end Calls

end PosLoop.Noting

/-! ## Runs -/

/-- The readings of the encoder in a run are in range. -/
def Readings (p : PosPool) : PosEvent → Prop
  | .step t => (p.thr t).head = some (.code (.read .overflow)) → |p.st.enc.overflow| ≤ 2 ^ 29
  | _ => True

instance (p : PosPool) (e : PosEvent) : Decidable (Readings p e) := by
  unfold Readings
  cases e <;> infer_instance

open PosLoop.Noting

variable {cfg : PosConfig} {scale : PosScale}

/-- The positions are in range, and each thread has its outline. -/
structure PosRanged (cfg : PosConfig) (scale : PosScale) (p : PosPool) : Prop where
  bounded : Positioned scale p.st
  outlines : Machine.Outlines (notedMachine cfg) (relies scale) (fun _ => Granted)
    (Careful cfg scale) (fun _ _ => Positioned scale) p

theorem granted_of_readings {p : PosPool} {t : Option ℕ} {l : Noted ArithNote PosAct}
    (h : Readings p (.step t)) (hl : (p.thr t).head = some l) : Granted l p.st := by
  rintro rfl
  have hle := h hl
  rw [Int.abs_eq_natAbs] at hle
  omega

/-- An action of one thread keeps what the others rely on. -/
theorem Careful.keeps {t u : Option ℕ} {l : Noted ArithNote PosAct} {s : PosSys}
    (h : Careful cfg scale t l s) (hu : u ≠ t) :
    Keeps (relies scale u) s (l.eff PosAct.eff s) := by
  cases t with
  | some t => exact keeps_of_meddled h.2
  | none =>
    cases u with
    | none => exact absurd rfl hu
    | some u =>
      rintro P rfl
      exact h.2

theorem Careful.bounded {t : Option ℕ} {l : Noted ArithNote PosAct} {s : PosSys}
    (h : Careful cfg scale t l s) (hs : Positioned scale s) :
    Positioned scale (l.eff PosAct.eff s) := by
  cases t with
  | none => exact h.2 hs
  | some t => exact h.2.bounded hs

theorem posRanged_next (hcfg : cfg.Ranged) (hscale : scale.Ranged) (p : PosPool) (e : PosEvent)
    (hp : PosRanged cfg scale p) (he : Readings p e) :
    PosRanged cfg scale ((notedMachine cfg).next p e) := by
  constructor
  · refine Machine.st_next hp.bounded e ?_
    cases e with
    | call t c => trivial
    | step t =>
      intro l hl
      have hl' := ((hp.outlines t l hl).step hl (granted_of_readings he hl)).1
      exact Careful.bounded hl' hp.bounded
    | env e => exact (e.meddled scale p.st).bounded hp.bounded
  · refine Machine.outlines_next (fun _ _ => True) (fun _ _ => Positioned scale) ?_ ?_ ?_
      hp.outlines e ?_
    · exact fun t l s _ h u hu => Careful.keeps h hu
    · exact fun e s _ t => keeps_of_meddled (e.meddled scale s)
    · intro t c s hs
      cases t with
      | none => exact hs
      | some t => exact obeys_code hscale t hcfg c s hs
    · cases e with
      | call t c => exact hp.bounded
      | step t => exact fun l hl => granted_of_readings he hl
      | env e => trivial

theorem posRanged_launched (hcfg : cfg.Ranged) (hscale : scale.Ranged) (sqrtf : ℚ → ℚ)
    {s : PosSys} (hs : s.pl = .init) (hsc : s.scale = scale) (rounds : ℕ) :
    PosRanged cfg scale (s.launched cfg sqrtf rounds) := by
  have hrest : AtRest cfg scale s := by
    refine ⟨⟨?_, ?_, hsc⟩, ?_, ?_⟩ <;> rw [hs]
    · decide
    · decide
    · exact (RampRange.rest _).pos_of_le 0 (by decide)
    · exact (RampRange.rest _).speed_zero
  refine ⟨hrest.bounded, fun t l hl => ?_⟩
  cases t with
  | none =>
    exact (obeys_threadEntry hcfg hscale sqrtf rounds ⟨le_rfl, .inl rfl⟩ s hrest).mono
      fun _ _ h => h.bounded
  | some t => cases hl

/-- **No signed overflow** in the position loop: in every run, among calls of any threads, whatever
the square root returns and however far the encoder moves between two readings in range. -/
theorem no_signed_overflow (cfg : PosConfig) (hcfg : cfg.Ranged) (sqrtf : ℚ → ℚ)
    (countsPerUnit posMin posMax : ℚ) (s : PosSys) (hs : s.pl = .init)
    (hscale : s.scale = PosScale.init countsPerUnit posMin posMax)
    (hlow : |s.scale.posMinCounts| ≤ 2 ^ 29) (hhigh : |s.scale.posMaxCounts| ≤ 2 ^ 29) (rounds : ℕ)
    (es : List PosEvent)
    (hread : (notedMachine cfg).Along Readings (s.launched cfg sqrtf rounds) es) :
    let M := notedMachine cfg
    let p := s.launched cfg sqrtf rounds
    M.Along (Machine.Notes ArithNote.SignedFits) p es ∧
      (cfg.outputBound < 2 ^ 31 → M.Along (Machine.Notes ArithNote.IntFits) p es) := by
  intro M p
  have hranged : s.scale.Ranged := by
    rw [Int.abs_eq_natAbs] at hlow hhigh
    refine ⟨hscale ▸ PosScale.init_coherent .., hscale ▸ rfl, by omega, by omega⟩
  have hnotes : M.Along (Machine.Notes (ArithNoteFits cfg)) p es := by
    refine Machine.along_notes (posRanged_next hcfg hranged) (fun p t n hp he hn => ?_)
      (posRanged_launched hcfg hranged sqrtf hs rfl rounds) hread
    exact ((hp.outlines t _ hn).step hn (granted_of_readings he hn)).1.1
  exact ⟨Machine.along_notes_imp (fun n hn => hn.1) hnotes, fun hlimit =>
    Machine.along_notes_imp (fun n hn => hn.2 hlimit) hnotes⟩

/-- A thread starts the loop and sets a target; then the control thread takes `n` actions. -/
def moveRun (target : ℤ) (n : ℕ) : List PosEvent :=
  .call (some 0) .start :: List.replicate 20 (.step (some 0)) ++
    .call (some 0) (.setTarget target) :: List.replicate 20 (.step (some 0)) ++
    List.replicate n (.step none)

/-- The shaft is turned by almost half a turn of the counter between two rounds of a move. -/
theorem no_signed_overflow_turned :
    let cfg : PosConfig := ⟨50, 1000, 10, 200, true, 50, 1000⟩
    let es := moveRun 600 90 ++ .env (.turn (-30000)) :: List.replicate 60 (.step none)
    (notedMachine cfg).Along (Machine.Notes ArithNote.IntFits)
      (restingPos.launched cfg Rat.sqrt 2) es :=
  (no_signed_overflow ⟨50, 1000, 10, 200, true, 50, 1000⟩
    ⟨by decide, by decide, by decide +kernel, by decide +kernel⟩ Rat.sqrt 1 (-1000000) 1000000
    restingPos rfl rfl (by decide +kernel) (by decide +kernel) 2 _ (by decide +kernel)).2
    (by decide +kernel)

/-- Three loops whose readings and limits are in range, and whose ramp has no high speed limit. The
threshold of the one is no `int`. The limit of the ramp of the next is far below zero, and its speed
comes out far above. The third outputs more than `int` holds. -/
theorem not_all_int :
    let s : PosSys := { restingPos with scale := PosScale.init 1 (-2 ^ 29) (2 ^ 29) }
    let InRange (cfg : PosConfig) (es : List PosEvent) : Prop :=
      cfg.rampMaxSpeed / cfg.freqHz ≤ 2 ^ 29 ∧
        (notedMachine cfg).Along Readings (s.launched cfg Rat.sqrt 1) es
    (|s.scale.posMinCounts| ≤ 2 ^ 29 ∧ |s.scale.posMaxCounts| ≤ 2 ^ 29) ∧
      (let cfg : PosConfig := ⟨50, 1000, 2 ^ 31, 200, false, 50, 1000⟩
        let es := .call (some 0) .isArrived :: List.replicate 5 (.step (some 0))
        InRange cfg es ∧ ¬(notedMachine cfg).Along (Machine.Notes ArithNote.SignedFits)
          (s.launched cfg Rat.sqrt 1) es) ∧
      (let cfg : PosConfig := ⟨50, 1000, 10, 200, false, 50, -2 ^ 40⟩
        let es := moveRun 50 40
        InRange cfg es ∧ ¬(notedMachine cfg).Along (Machine.Notes ArithNote.SignedFits)
          (s.launched cfg Rat.sqrt 1) es) ∧
      (let cfg : PosConfig := ⟨50, 2 ^ 35, 10, 3 * 2 ^ 36, false, 3 * 2 ^ 36, 50 * 2 ^ 29⟩
        let es := moveRun (2 ^ 28) 90
        InRange cfg es ∧ ¬(notedMachine cfg).Along (Machine.Notes ArithNote.IntFits)
          (s.launched cfg Rat.sqrt 1) es) := by
  refine ⟨⟨?_, ?_⟩, ⟨⟨?_, ?_⟩, ?_⟩, ⟨⟨?_, ?_⟩, ?_⟩, ⟨?_, ?_⟩, ?_⟩ <;> decide +kernel

end H750Stepper
