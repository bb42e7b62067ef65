import H750Stepper.Lib.Session
import H750Stepper.Position.Tick

/-!
# What a tick outputs

Up to 20 counts from the target a tick drives the motor with 27 Hz for each count left, at least
50 Hz and at most 500 Hz. It looks neither at `speed_limit` there nor at `arrived_locked`, which
nobody ever sets.

* `outputs_within_iff`: the outputs of a run keep the speed limit exactly if every reading near the
  target leaves so few counts that their frequency does.
* `quiet_iff`: after an arrival, the ticks near the target leave the motor alone exactly if every
  reading is the target itself.
-/

namespace H750Stepper

open Threads CInt PosLoop

/-! ## The frequency near the target -/

theorem abs_nearFreq {err : ℤ} (h : err ≠ 0) :
    |nearFreq err| = min 500 (max 50 (27 * |(err : ℚ)|)) := by
  have hf : ∀ f : ℚ, (if (if f < 50 then 50 else f) > 500 then 500 else if f < 50 then 50 else f) =
      min 500 (max 50 f) := by
    intro f
    rw [max_def, min_def]
    split_ifs <;> linarith
  have hnonneg : (0 : ℚ) ≤ min 500 (max 50 (27 * |(err : ℚ)|)) :=
    le_min (by norm_num) (le_max_of_le_left (by norm_num))
  unfold nearFreq
  dsimp only
  rw [if_neg h, mul_comm, hf]
  split_ifs
  · exact abs_of_nonneg hnonneg
  · rw [abs_neg, abs_of_nonneg hnonneg]

theorem nearFreq_zero : nearFreq 0 = 0 := rfl

/-- Every error but 0 moves the motor. -/
theorem le_abs_nearFreq {err : ℤ} (h : err ≠ 0) : 50 ≤ |nearFreq err| := by
  rw [abs_nearFreq h]
  exact le_min (by norm_num) (le_max_left _ _)

/-- The error is not near the target, or the frequency for it is within the limit. -/
def PosConfig.Tame (cfg : PosConfig) (err : ℤ) : Prop :=
  20 < |(err : ℚ)| ∨ 27 * |(err : ℚ)| ≤ cfg.speedLimit ∨ 500 ≤ cfg.speedLimit

instance (cfg : PosConfig) (err : ℤ) : Decidable (cfg.Tame err) := by
  unfold PosConfig.Tame
  infer_instance

theorem abs_nearFreq_le_iff {L : ℚ} (hL : 50 ≤ L) (err : ℤ) :
    |nearFreq err| ≤ L ↔ 27 * |(err : ℚ)| ≤ L ∨ 500 ≤ L := by
  by_cases h : err = 0
  · have hzero : |nearFreq err| = 0 := by rw [h, nearFreq_zero, abs_zero]
    have herr : 27 * |(err : ℚ)| = 0 := by rw [h, Int.cast_zero, abs_zero, mul_zero]
    rw [hzero, herr]
    exact iff_of_true (by linarith) (.inl (by linarith))
  · rw [abs_nearFreq h, min_le_iff, max_le_iff]
    constructor
    · rintro (h₁ | ⟨-, h₂⟩)
      · exact .inr h₁
      · exact .inl h₂
    · rintro (h₂ | h₁)
      · exact .inr ⟨hL, h₂⟩
      · exact .inl h₁

/-! ## The speed limit -/

variable {cfg : PosConfig} {sqrtf : ℚ → ℚ}

/-- The frequency passed to the driver is the output, but for the lowest one. -/
theorem command_freqHz_le {pl : PosLoop} {L : ℚ} (hL : (motorMinFreqHz : ℚ) ≤ L)
    (h : |pl.outputFreq| ≤ L) : (pl.command.freqHz : ℚ) ≤ L := by
  have habs : (toUInt32 |pl.outputFreq| : ℚ) ≤ L := (toUInt32_le (abs_nonneg _)).trans h
  unfold command
  dsimp only
  split_ifs
  · exact hL
  · exact habs
  · exact habs

/-- A step keeps the speed limit. -/
def PosOp.Within (cfg : PosConfig) (sqrtf : ℚ → ℚ) (s : PosSys) (op : PosOp) : Prop :=
  |(op.apply cfg sqrtf s).pl.outputFreq| ≤ cfg.speedLimit ∧
    ∀ c ∈ op.command cfg sqrtf s, (c.freqHz : ℚ) ≤ cfg.speedLimit

/-- A tick that regulates finds a tame error. -/
def PosOp.Tame (cfg : PosConfig) (s : PosSys) (op : PosOp) : Prop :=
  op = .tick → s.Regulates → cfg.Tame (s.finalErr cfg)

instance (s : PosSys) (op : PosOp) : Decidable (op.Tame cfg s) := by
  unfold PosOp.Tame
  infer_instance

theorem ticked_outputFreq_le_iff (sqrtf : ℚ → ℚ) (hL : 50 ≤ cfg.speedLimit) {s : PosSys}
    (h : s.Regulates) :
    |(s.ticked cfg sqrtf).pl.outputFreq| ≤ cfg.speedLimit ↔ cfg.Tame (s.finalErr cfg) := by
  obtain ⟨x, hx⟩ := PosSys.ticked_outputFreq cfg sqrtf h
  rw [hx]
  unfold PosConfig.Tame
  by_cases hnear : |(s.finalErr cfg : ℚ)| ≤ 20
  · rw [if_pos hnear, abs_nearFreq_le_iff hL, or_iff_right (not_lt.mpr hnear)]
  · rw [if_neg hnear]
    exact iff_of_true (abs_clampTo_le (by linarith) x) (.inl (not_le.mp hnear))

/-- What a call other than a tick does to the output. -/
theorem PosOp.outputFreq_apply (cfg : PosConfig) (sqrtf : ℚ → ℚ) {op : PosOp} (hop : op ≠ .tick)
    (s : PosSys) :
    (op.apply cfg sqrtf s).pl.outputFreq = s.pl.outputFreq ∨
      (op.apply cfg sqrtf s).pl.outputFreq = 0 := by
  cases op with
  | tick => exact absurd rfl hop
  | start =>
    rw [apply_start]
    split_ifs
    · exact .inl rfl
    · exact .inr rfl
  | stop =>
    rw [apply_stop]
    exact .inr rfl
  | setTarget target =>
    rw [apply_setTarget]
    unfold PosSys.retargeted
    split_ifs <;> exact .inl rfl
  | encoder enc => exact .inl rfl
  | driver e => exact .inl rfl

theorem PosOp.within_iff (hL : (motorMinFreqHz : ℚ) ≤ cfg.speedLimit) {s : PosSys}
    (h : |s.pl.outputFreq| ≤ cfg.speedLimit) (op : PosOp) :
    op.Within cfg sqrtf s ↔ op.Tame cfg s := by
  have hL' : (50 : ℚ) ≤ cfg.speedLimit := hL
  have hzero : |(0 : ℚ)| ≤ cfg.speedLimit := by
    rw [abs_zero]
    linarith
  unfold Within Tame
  by_cases hreg : op = .tick ∧ s.Regulates
  · obtain ⟨rfl, hreg⟩ := hreg
    have hiff := ticked_outputFreq_le_iff sqrtf hL' hreg
    rw [command, if_pos ⟨rfl, hreg⟩, apply_tick]
    constructor
    · exact fun hw _ _ => hiff.mp hw.1
    · intro htame
      have hout := hiff.mpr (htame rfl hreg)
      refine ⟨hout, fun c hc => ?_⟩
      obtain rfl := Option.mem_some_iff.mp hc
      exact command_freqHz_le hL hout
  · rw [command, if_neg hreg]
    refine iff_of_true ⟨?_, fun c hc => by cases hc⟩ fun hop hr => absurd ⟨hop, hr⟩ hreg
    by_cases hop : op = .tick
    · have hnot : ¬s.Regulates := fun hr => hreg ⟨hop, hr⟩
      rw [hop, apply_tick, (PosSys.ticked_pl_of_not cfg sqrtf hnot).2.2.1]
      exact hzero
    · rcases outputFreq_apply cfg sqrtf hop s with h' | h'
      · rw [h']
        exact h
      · rw [h']
        exact hzero

/-- **The speed limit.** In every run after init, the output and the frequency passed to the driver
are within `speed_limit` exactly if every tick of the running loop finds a tame error. -/
theorem outputs_within_iff (cfg : PosConfig) (sqrtf : ℚ → ℚ)
    (hL : (motorMinFreqHz : ℚ) ≤ cfg.speedLimit) (s₀ : PosSys) (ops : List PosOp) :
    let run := history (PosOp.apply cfg sqrtf) ({ s₀ with pl := .init } : PosSys) ops
    (∀ x ∈ run, x.2.Within cfg sqrtf x.1) ↔ ∀ x ∈ run, x.2.Tame cfg x.1 := by
  intro run
  have hinit : |PosLoop.init.outputFreq| ≤ cfg.speedLimit := by
    have hL' : (50 : ℚ) ≤ cfg.speedLimit := hL
    have hzero : |PosLoop.init.outputFreq| = 0 := abs_zero
    linarith
  exact forall_history_iff (f := PosOp.apply cfg sqrtf)
    (I := fun s => |s.pl.outputFreq| ≤ cfg.speedLimit) (P := PosOp.Within cfg sqrtf)
    (Q := PosOp.Tame cfg) (s := { s₀ with pl := .init })
    (fun s op hs => PosOp.within_iff hL hs op) (fun s op _ hw => hw.1) hinit ops

/-- The defaults of the board configuration, but for the speed limit. -/
def posConfig0 (speedLimit : ℚ) : PosConfig := ⟨50, speedLimit, 10, 500, false, 125 / 2, 80000⟩

/-- A position loop after its init, on a motor without a fault pin. -/
def restingPos : PosSys :=
  { (default : PosSys) with
    pl := .init
    scale := PosScale.init 1 (-1000000) 1000000
    drv := MotorSys.zeroed.init 200000000 (-1) false }

/-- A move by 3 counts under a limit of 100 Hz. -/
theorem outputs_within_iff_short :
    let run := history (PosOp.apply (posConfig0 100) fun x => x) restingPos
      [.start, .setTarget 3, .tick, .encoder ⟨1, 1, 1⟩, .tick]
    (∀ x ∈ run, x.2.Within (posConfig0 100) (fun x => x) x.1) ↔
      ∀ x ∈ run, x.2.Tame (posConfig0 100) x.1 :=
  outputs_within_iff (posConfig0 100) (fun x => x) (by decide +kernel) restingPos
    [.start, .setTarget 3, .tick, .encoder ⟨1, 1, 1⟩, .tick]

/-- Under the same limit, 20 counts from the target, the tick drives the motor with 500 Hz. -/
theorem near_target_too_fast :
    let s := [.start, .setTarget 20].foldl (PosOp.apply (posConfig0 100) fun x => x) restingPos
    (PosOp.tick.apply (posConfig0 100) (fun x => x) s).pl.outputFreq = 500 ∧
      PosOp.tick.command (posConfig0 100) (fun x => x) s = some ⟨motorDirCw, 500⟩ ∧
      (posConfig0 100).speedLimit = 100 := by
  refine ⟨?_, ?_, rfl⟩ <;> decide +kernel

/-! ## After an arrival -/

/-- A step that commands the motor commands it to stand. -/
def PosOp.Quiet (cfg : PosConfig) (sqrtf : ℚ → ℚ) (s : PosSys) (op : PosOp) : Prop :=
  ∀ c ∈ op.command cfg sqrtf s, c.freqHz = 0

/-- A tick that regulates finds the motor at most `n` counts from its target. -/
def PosOp.Finds (cfg : PosConfig) (n : ℤ) (s : PosSys) (op : PosOp) : Prop :=
  op = .tick → s.Regulates → |s.finalErr cfg| ≤ n

instance (n : ℤ) (s : PosSys) (op : PosOp) : Decidable (op.Finds cfg n s) := by
  unfold PosOp.Finds
  infer_instance

theorem arrivedLocked_apply {s : PosSys} (h : s.pl.arrivedLocked = false) (op : PosOp) :
    (op.apply cfg sqrtf s).pl.arrivedLocked = false := by
  cases op with
  | start =>
    rw [PosOp.apply_start]
    split_ifs <;> exact h
  | stop =>
    rw [PosOp.apply_stop]
    exact h
  | tick =>
    rw [PosOp.apply_tick]
    by_cases hreg : s.Regulates
    · rw [PosSys.ticked_pl hreg]
      unfold controlled ramped
      split_ifs <;> exact h
    · unfold PosSys.ticked
      by_cases hrun : s.pl.running = true
      · have hfault : (s.sensed cfg).drv.Faulty := not_not.mp fun hf => hreg ⟨hrun, hf⟩
        rw [if_pos hrun, if_pos hfault]
        exact h
      · rw [if_neg hrun]
        exact h
  | setTarget target =>
    rw [PosOp.apply_setTarget]
    unfold PosSys.retargeted
    split_ifs
    · rfl
    · rfl
    · exact h
  | encoder enc => exact h
  | driver e => exact h

/-- Nobody ever sets `arrived_locked`. -/
theorem never_locked (cfg : PosConfig) (sqrtf : ℚ → ℚ) (s₀ : PosSys) (ops : List PosOp) :
    ∀ x ∈ history (PosOp.apply cfg sqrtf) ({ s₀ with pl := .init } : PosSys) ops,
      x.1.pl.arrivedLocked = false :=
  history_inv (I := fun s : PosSys => s.pl.arrivedLocked = false)
    (fun _ op h => arrivedLocked_apply h op) rfl ops

theorem command_freqHz_ne_zero {pl : PosLoop} (h : 50 ≤ |pl.outputFreq|) :
    pl.command.freqHz ≠ 0 := by
  have hfreq : 50 ≤ toUInt32 |pl.outputFreq| := by
    have hfloor : (50 : ℤ) ≤ ⌊|pl.outputFreq|⌋ := Int.le_floor.mpr (by exact_mod_cast h)
    unfold toUInt32
    rw [trunc_of_nonneg (abs_nonneg _)]
    omega
  unfold command motorMinFreqHz
  dsimp only
  split_ifs <;> omega

theorem quiet_iff_of_near (sqrtf : ℚ → ℚ) {s : PosSys} (h : s.Regulates)
    (hnear : |s.finalErr cfg| ≤ 20) :
    (s.ticked cfg sqrtf).pl.command.freqHz = 0 ↔ s.finalErr cfg = 0 := by
  have hcast : |(s.finalErr cfg : ℚ)| ≤ 20 := by
    rw [← Int.cast_abs]
    exact_mod_cast hnear
  obtain ⟨x, hx⟩ := PosSys.ticked_outputFreq cfg sqrtf h
  rw [if_pos hcast] at hx
  constructor
  · intro hzero
    by_contra hne
    exact command_freqHz_ne_zero (hx ▸ le_abs_nearFreq hne) hzero
  · intro hzero
    rw [hzero] at hx
    exact command_freqHz_of_zero hx

/-- **No latch.** In any run whose ticks find the motor near its target, whether it has arrived
before or not, no tick commands a speed exactly if every tick finds it at the target itself. -/
theorem quiet_iff (cfg : PosConfig) (sqrtf : ℚ → ℚ) (s : PosSys) (ops : List PosOp)
    (hnear : ∀ x ∈ history (PosOp.apply cfg sqrtf) s ops, x.2.Finds cfg 20 x.1) :
    (∀ x ∈ history (PosOp.apply cfg sqrtf) s ops, x.2.Quiet cfg sqrtf x.1) ↔
      ∀ x ∈ history (PosOp.apply cfg sqrtf) s ops, x.2.Finds cfg 0 x.1 := by
  refine forall₂_congr fun x hx => ?_
  have hfinds := hnear x hx
  unfold PosOp.Quiet PosOp.Finds PosOp.command at *
  by_cases hreg : x.2 = .tick ∧ x.1.Regulates
  · rw [if_pos hreg, hreg.1, PosOp.apply_tick]
    have hiff := quiet_iff_of_near sqrtf hreg.2 (hfinds hreg.1 hreg.2)
    rw [← abs_nonpos_iff] at hiff
    simpa [hreg.2] using hiff
  · rw [if_neg hreg]
    exact iff_of_true (fun c hc => by cases hc) fun hop hr => absurd ⟨hop, hr⟩ hreg

/-- Three readings at the target. -/
theorem quiet_iff_still :
    let ops : List PosOp := [.start, .tick, .tick, .tick]
    (∀ x ∈ history (PosOp.apply (posConfig0 100) fun x => x) restingPos ops,
        x.2.Quiet (posConfig0 100) (fun x => x) x.1) ↔
      ∀ x ∈ history (PosOp.apply (posConfig0 100) fun x => x) restingPos ops,
        x.2.Finds (posConfig0 100) 0 x.1 :=
  quiet_iff (posConfig0 100) (fun x => x) restingPos [.start, .tick, .tick, .tick]
    (by decide +kernel)

/-- The loop arrives; then the encoder reads 2 counts more, and the tick moves the motor back. -/
theorem noise_after_arrival :
    let s := PosOp.start.apply (posConfig0 100) (fun x => x) restingPos
    let s' := [.tick, .encoder ⟨2, 2, 2⟩].foldl (PosOp.apply (posConfig0 100) fun x => x) s
    s.Regulates ∧ s.finalErr (posConfig0 100) = 0 ∧ s'.finalErr (posConfig0 100) = -2 ∧
      PosOp.tick.command (posConfig0 100) (fun x => x) s' = some ⟨motorDirCcw, 54⟩ := by
  refine ⟨?_, ?_, ?_, ?_⟩ <;> decide +kernel

end H750Stepper
