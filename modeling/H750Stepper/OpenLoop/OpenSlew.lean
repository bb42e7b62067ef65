import H750Stepper.OpenLoop.OpenMove

/-!
# The slew of the open-loop controller

`max_accel` is the most by which the frequency may change in a control period. The ramp keeps to it,
but what it ramps is a magnitude: `set_direction` and `move` write the sign at any speed, the end of
a position move writes 0 at any speed, and a start writes `max_accel` before the ramp adds to it.

`openSlew_iff`: in a run the signed frequency changes by at most `max_accel` from tick to tick
exactly if every tick finds what is `Gentle` after the tick before.
-/

namespace H750Stepper

open Threads Ramp

namespace OpenLoop

/-! ## What a tick finds -/

/-- The commanded frequency with the sign of the direction. -/
def signedFreq (o : OpenLoop) : ℚ :=
  if o.direction = motorDirCw then o.currentFreq else -o.currentFreq

/-- The tick ends a position move. -/
def Ends (o : OpenLoop) : Prop := o.posMode = true ∧ o.totalSteps - o.accSteps ≤ 1 / 2

instance (o : OpenLoop) : Decidable o.Ends := by unfold Ends; infer_instance

/-- The frequency that the ramp moves toward: 0 from the deceleration point of a move on. -/
def goal (cfg : OpenConfig) (o : OpenLoop) : ℚ :=
  if o.posMode = true ∧ o.totalSteps - o.accSteps ≤
    o.currentFreq * o.currentFreq / (2 * (cfg.maxAccel * cfg.freqHz)) then 0 else o.targetFreq

/-- The sign of the frequency `c` may change on the way to the frequency `g`. -/
structure Reverses (A c g : ℚ) : Prop where
  up : g - c > A → -A ≤ c ∧ c ≤ 0
  down : g - c < -A → 0 ≤ c ∧ c ≤ A
  reach : |g - c| ≤ A → |g + c| ≤ A

instance (A c g : ℚ) : Decidable (Reverses A c g) :=
  decidable_of_iff (_ ∧ _ ∧ _) ⟨fun h => ⟨h.1, h.2.1, h.2.2⟩, fun h => ⟨h.up, h.down, h.reach⟩⟩

/-- A tick that finds `o'`, after one that left `o`, is not asked for a change above `max_accel`. -/
structure Gentle (cfg : OpenConfig) (o o' : OpenLoop) : Prop where
  ends : o'.running = true → o'.Ends → |o.currentFreq| ≤ cfg.maxAccel
  starts : o.running = false → o'.running = true → ¬o'.Ends → o'.goal cfg ≤ cfg.maxAccel
  turns : o.running = true → ¬o'.Ends →
    ¬(o.direction = motorDirCw ↔ o'.direction = motorDirCw) →
    Reverses cfg.maxAccel o.currentFreq (o'.goal cfg)

instance (cfg : OpenConfig) (o o' : OpenLoop) : Decidable (Gentle cfg o o') :=
  decidable_of_iff (_ ∧ _ ∧ _) ⟨fun h => ⟨h.1, h.2.1, h.2.2⟩, fun h => ⟨h.ends, h.starts, h.turns⟩⟩

/-- For frequencies that are not negative: the sign changes at 0, or close to it. -/
theorem reverses_iff {A c g : ℚ} (hA : 0 ≤ A) (hc : 0 ≤ c) (hg : 0 ≤ g) :
    Reverses A c g ↔ c = 0 ∨ c + g ≤ A := by
  constructor
  · rintro ⟨hup, hdown, hreach⟩
    by_cases hzero : c = 0
    · exact .inl hzero
    · have hpos : 0 < c := lt_of_le_of_ne hc (Ne.symm hzero)
      have hlo : ¬g - c < -A := fun h => by linarith [(hdown h).2]
      have hhi : ¬g - c > A := fun h => by linarith [(hup h).2]
      have hnear := hreach (abs_le.mpr ⟨by linarith, by linarith⟩)
      exact .inr (by linarith [(abs_le.mp hnear).2])
  · rintro (rfl | hsum)
    · refine ⟨fun _ => ⟨by linarith, le_rfl⟩, fun _ => ⟨le_rfl, hA⟩, fun h => ?_⟩
      rwa [add_zero, ← sub_zero g]
    · refine ⟨fun h => by linarith, fun h => by linarith, fun _ => ?_⟩
      exact abs_le.mpr ⟨by linarith, by linarith⟩

/-! ## One tick -/

theorem next_of_not_ends (cfg : OpenConfig) {o : OpenLoop} (hrun : o.running = true)
    (hends : ¬o.Ends) : o.next cfg = o.advanced cfg (o.goal cfg) := by
  unfold next goal
  unfold Ends at hends
  dsimp only
  rw [if_pos hrun]
  by_cases hpos : o.posMode = true
  · have hleft : ¬o.totalSteps - o.accSteps ≤ 1 / 2 := fun h => hends ⟨hpos, h⟩
    simp only [if_true, if_neg hleft, hpos, true_and]
  · rw [if_neg hpos, if_neg fun h => hpos h.1]

theorem next_of_ends (cfg : OpenConfig) {o : OpenLoop} (h : o.running = false ∨ o.Ends) :
    (o.next cfg).currentFreq = 0 := by
  unfold next
  dsimp only
  by_cases hrun : o.running = true
  · obtain ⟨hpos, hleft⟩ := h.resolve_left (by simp [hrun])
    rw [if_pos hrun, if_pos hpos, if_pos hleft]
  · rw [if_neg hrun]

theorem next_running (cfg : OpenConfig) (o : OpenLoop) : (o.next cfg).running = o.running := by
  unfold next advanced
  dsimp only
  split_ifs <;> rfl

theorem signedFreq_of_zero {o : OpenLoop} (h : o.currentFreq = 0) : o.signedFreq = 0 := by
  unfold signedFreq
  rw [h, neg_zero, ite_self]

theorem abs_signedFreq (o : OpenLoop) : |o.signedFreq| = |o.currentFreq| := by
  unfold signedFreq
  split_ifs
  · rfl
  · exact abs_neg _

/-- The ramp turns the frequency within `A` exactly under the condition. -/
theorem abs_toward_add_le_iff {A : ℚ} (hA : 0 < A) (c g : ℚ) :
    |toward A g c + c| ≤ A ↔ Reverses A c g := by
  unfold toward
  constructor
  · intro h
    rw [abs_le] at h
    refine ⟨fun hup => ?_, fun hdown => ?_, fun hreach => ?_⟩
    · rw [if_pos hup] at h
      constructor <;> linarith
    · rw [if_neg (by linarith), if_pos hdown] at h
      constructor <;> linarith
    · rw [abs_le] at hreach
      rw [if_neg (by linarith), if_neg (by linarith)] at h
      exact abs_le.mpr h
  · rintro ⟨hup, hdown, hreach⟩
    split_ifs with h₁ h₂
    · obtain ⟨hlo, hhi⟩ := hup h₁
      exact abs_le.mpr ⟨by linarith, by linarith⟩
    · obtain ⟨hlo, hhi⟩ := hdown h₂
      exact abs_le.mpr ⟨by linarith, by linarith⟩
    · exact hreach (abs_le.mpr ⟨by linarith, by linarith⟩)

/-- From `A`, which a start writes, the ramp stays within `A` exactly if its goal is. -/
theorem abs_toward_self_le_iff {A : ℚ} (hA : 0 < A) (g : ℚ) : |toward A g A| ≤ A ↔ g ≤ A := by
  unfold toward
  rw [abs_le]
  split_ifs <;> constructor
  · rintro ⟨-, h⟩
    linarith
  · intro h
    linarith
  · intro
    linarith
  · intro
    constructor <;> linarith
  · exact fun h => h.2
  · intro h
    constructor <;> linarith

/-- In the same direction the change is that of the ramp, in the other one it is the sum. -/
theorem abs_signedFreq_sub (o o' : OpenLoop) :
    |o'.signedFreq - o.signedFreq| =
      if o.direction = motorDirCw ↔ o'.direction = motorDirCw then
        |o'.currentFreq - o.currentFreq| else |o'.currentFreq + o.currentFreq| := by
  unfold signedFreq
  by_cases h : o.direction = motorDirCw <;> by_cases h' : o'.direction = motorDirCw
  · rw [if_pos h, if_pos h', if_pos (iff_of_true h h')]
  · rw [if_pos h, if_neg h', if_neg fun hiff => h' (hiff.mp h), ← neg_add', abs_neg]
  · rw [if_neg h, if_pos h', if_neg fun hiff => h (hiff.mpr h'), sub_neg_eq_add]
  · rw [if_neg h, if_neg h', if_pos (iff_of_false h h'), ← neg_sub', abs_neg]

/-- What has happened since a tick that left `o`: a controller that was running keeps its frequency,
one that was not has none, until a start gives it `max_accel`. -/
structure Since (cfg : OpenConfig) (o o' : OpenLoop) : Prop where
  runs : o.running = true → o'.running = true ∧ o'.currentFreq = o.currentFreq
  rests : o.running = false →
    o.currentFreq = 0 ∧ (o'.running = true → o'.currentFreq = cfg.maxAccel)

/-- **One tick.** The change since the tick before. -/
theorem Since.slew_iff {cfg : OpenConfig} (hA : 0 < cfg.maxAccel) {o o' : OpenLoop}
    (h : Since cfg o o') :
    |(o'.next cfg).signedFreq - o.signedFreq| ≤ cfg.maxAccel ↔ Gentle cfg o o' := by
  by_cases hrun' : o'.running = true
  · by_cases hends : o'.Ends
    · -- The tick ends a move.
      rw [signedFreq_of_zero (next_of_ends cfg (.inr hends)), zero_sub, abs_neg, abs_signedFreq]
      refine ⟨fun hle => ⟨fun _ _ => hle, ?_, ?_⟩, fun hg => hg.ends hrun' hends⟩
      · exact fun _ _ hn => absurd hends hn
      · exact fun _ hn => absurd hends hn
    · have hnext := next_of_not_ends cfg hrun' hends
      by_cases hrun : o.running = true
      · obtain ⟨-, hcur⟩ := h.runs hrun
        rw [abs_signedFreq_sub, hnext]
        show (if o.direction = motorDirCw ↔ o'.direction = motorDirCw then
          |toward cfg.maxAccel (o'.goal cfg) o'.currentFreq - o.currentFreq|
          else |toward cfg.maxAccel (o'.goal cfg) o'.currentFreq + o.currentFreq|) ≤ _ ↔ _
        rw [hcur]
        by_cases hsame : o.direction = motorDirCw ↔ o'.direction = motorDirCw
        · rw [if_pos hsame]
          refine iff_of_true (abs_toward_sub_le hA.le _ _) ⟨fun _ he => absurd he hends, ?_, ?_⟩
          · intro hstopped
            rw [hrun] at hstopped
            cases hstopped
          · exact fun _ _ hturn => absurd hsame hturn
        · rw [if_neg hsame, abs_toward_add_le_iff hA]
          refine ⟨fun hrev => ⟨fun _ he => absurd he hends, ?_, fun _ _ _ => hrev⟩,
            fun hg => hg.turns hrun hends hsame⟩
          intro hstopped
          rw [hrun] at hstopped
          cases hstopped
      · -- The controller has been started since.
        have hstopped : o.running = false := Bool.eq_false_iff.mpr hrun
        obtain ⟨hzero, hcur⟩ := h.rests hstopped
        rw [signedFreq_of_zero hzero, sub_zero, abs_signedFreq, hnext]
        show |toward cfg.maxAccel (o'.goal cfg) o'.currentFreq| ≤ _ ↔ _
        rw [hcur hrun', abs_toward_self_le_iff hA]
        exact ⟨fun hle => ⟨fun _ he => absurd he hends, fun _ _ _ => hle, fun hr => absurd hr hrun⟩,
          fun hg => hg.starts hstopped hrun' hends⟩
  · have hstopped' : o'.running = false := Bool.eq_false_iff.mpr hrun'
    have hrun : ¬o.running = true := fun hr => hrun' (h.runs hr).1
    have hzero := (h.rests (Bool.eq_false_iff.mpr hrun)).1
    rw [signedFreq_of_zero (next_of_ends cfg (.inl hstopped')), signedFreq_of_zero hzero, sub_zero,
      abs_zero]
    exact iff_of_true hA.le
      ⟨fun hr => absurd hr hrun', fun _ hr => absurd hr hrun', fun hr => absurd hr hrun⟩

/-! ## Calls between ticks -/

/-- The controller after `stepper_openloop_start`. -/
def started (cfg : OpenConfig) (o : OpenLoop) : OpenLoop :=
  if o.running then o
  else { o with
    currentFreq := cfg.maxAccel, targetFreq := cfg.maxAccel, posMode := false, accSteps := 0
    running := true }

theorem exec_start (cfg : OpenConfig) (s : OpenSys) :
    ((start cfg).exec OpenAct.eff s).2.ol = s.ol.started cfg := by
  simp only [start, readRunning, Prog.ask_bind, exec_read, Prog.exec_ite, started]
  by_cases hrun : s.ol.running = true
  · rw [if_pos hrun, if_pos hrun]
    rfl
  · rw [if_neg hrun, if_neg hrun]
    rfl

theorem exec_move (cfg : OpenConfig) (steps speedHz : ℚ) (s : OpenSys) :
    ((move cfg steps speedHz).exec OpenAct.eff s).2.ol =
      { s.ol.started cfg with
        posMode := true, moveSpeed := speedHz, totalSteps := |steps|, accSteps := 0
        direction := if steps ≥ 0 then motorDirCw else motorDirCcw, targetFreq := speedHz } := by
  have hstart := exec_start cfg s
  unfold move
  rw [readRunning, Prog.ask_bind, exec_read, Prog.exec_bind, Prog.exec_when]
  by_cases hrun : s.ol.running = true
  · rw [if_neg (not_not.mpr hrun)]
    unfold started
    rw [if_pos hrun]
    rfl
  · rw [if_pos hrun, ← hstart]
    generalize (start cfg).exec OpenAct.eff s = r
    rfl

theorem Since.started {cfg : OpenConfig} {o o' : OpenLoop} (h : Since cfg o o') :
    Since cfg o (o'.started cfg) := by
  unfold OpenLoop.started
  by_cases hrun' : o'.running = true
  · rwa [if_pos hrun']
  · rw [if_neg hrun']
    refine ⟨fun hrun => absurd (h.runs hrun).1 hrun', fun hstopped => ⟨(h.rests hstopped).1, ?_⟩⟩
    exact fun _ => rfl

theorem since_next (cfg : OpenConfig) (o : OpenLoop) : Since cfg (o.next cfg) (o.next cfg) := by
  refine ⟨fun hrun => ⟨hrun, rfl⟩, fun hstopped => ⟨?_, fun hrun => ?_⟩⟩
  · rw [next_running] at hstopped
    exact next_of_ends cfg (.inl hstopped)
  · rw [hstopped] at hrun
    cases hrun

end OpenLoop

open OpenLoop

/-! ## Runs -/

/-- The calls on a controller that nobody stops, and the ticks. -/
inductive OpenOp where
  | start
  | setFreq (freqHz : ℚ)
  | setDirection (dir : ℤ)
  | move (steps speedHz : ℚ)
  | tick
  deriving DecidableEq

namespace OpenOp

/-- The state after a call or a tick. -/
def apply (cfg : OpenConfig) (s : OpenSys) : OpenOp → OpenSys
  | start => ((OpenLoop.start cfg).exec OpenAct.eff s).2
  | setFreq freqHz => ((OpenLoop.setFreq freqHz).exec OpenAct.eff s).2
  | setDirection dir => ((OpenLoop.setDirection dir).exec OpenAct.eff s).2
  | move steps speedHz => ((OpenLoop.move cfg steps speedHz).exec OpenAct.eff s).2
  | tick => ((OpenLoop.tick cfg).exec OpenAct.eff s).2

theorem ol_tick (cfg : OpenConfig) (s : OpenSys) : (tick.apply cfg s).ol = s.ol.next cfg :=
  exec_tick cfg s

/-- A call between two ticks. -/
theorem since_apply {cfg : OpenConfig} {o : OpenLoop} {s : OpenSys} (h : Since cfg o s.ol)
    {op : OpenOp} (htick : op ≠ tick) : Since cfg o (op.apply cfg s).ol := by
  cases op with
  | tick => exact absurd rfl htick
  | start =>
    rw [apply, exec_start]
    exact h.started
  | setFreq freqHz => exact ⟨h.runs, h.rests⟩
  | setDirection dir => exact ⟨h.runs, h.rests⟩
  | move steps speedHz =>
    rw [apply, exec_move]
    exact ⟨h.started.runs, h.started.rests⟩

end OpenOp

/-- The consecutive ticks of a run: for each tick with one before it, the state that the one before
has left and the state that it finds. -/
def tickPairs (cfg : OpenConfig) (last : Option OpenSys) (s : OpenSys) :
    List OpenOp → List (OpenSys × OpenSys)
  | [] => []
  | op :: ops =>
    let s' := op.apply cfg s
    if op = .tick then (last.map fun s₀ => (s₀, s)).toList ++ tickPairs cfg (some s') s' ops
    else tickPairs cfg last s' ops

theorem tickPairs_since (cfg : OpenConfig) {last : Option OpenSys} {s : OpenSys}
    (h : ∀ s₀ ∈ last, Since cfg s₀.ol s.ol) (ops : List OpenOp) :
    ∀ p ∈ tickPairs cfg last s ops, Since cfg p.1.ol p.2.ol := by
  induction ops generalizing last s with
  | nil => simp [tickPairs]
  | cons op ops ih =>
    unfold tickPairs
    dsimp only
    by_cases htick : op = .tick
    · rw [if_pos htick]
      intro p hp
      rcases List.mem_append.mp hp with hp | hp
      · obtain ⟨s₀, hs₀, rfl⟩ := Option.map_eq_some_iff.mp (Option.mem_toList.mp hp)
        exact h s₀ hs₀
      · refine ih ?_ p hp
        rintro s₀ ⟨rfl⟩
        rw [htick, OpenOp.ol_tick]
        exact since_next cfg s.ol
    · rw [if_neg htick]
      exact ih fun s₀ hs₀ => OpenOp.since_apply (h s₀ hs₀) htick

/-- **The slew limit.** In every run the signed frequency changes by at most `max_accel` between any
two consecutive ticks, exactly if the second of any two finds what is gentle after the first. With a
`freq_hz` of 0 the ticks divide by 0, so it is left out. -/
theorem openSlew_iff (cfg : OpenConfig) (hA : 0 < cfg.maxAccel) (_hF : 1 ≤ cfg.freqHz)
    (s₀ : OpenSys) (ops : List OpenOp) :
    (∀ p ∈ tickPairs cfg none s₀ ops,
      |(OpenOp.tick.apply cfg p.2).ol.signedFreq - p.1.ol.signedFreq| ≤ cfg.maxAccel) ↔
    ∀ p ∈ tickPairs cfg none s₀ ops, Gentle cfg p.1.ol p.2.ol := by
  have hsince : ∀ p ∈ tickPairs cfg none s₀ ops, Since cfg p.1.ol p.2.ol :=
    tickPairs_since cfg (fun _ h => by cases h) ops
  refine forall₂_congr fun p hp => ?_
  rw [OpenOp.ol_tick]
  exact (hsince p hp).slew_iff hA

/-- A controller after its init, with an initialised motor. -/
def idleOpen : OpenSys := { stoppedOpen with ol.direction := motorDirCw }

/-- The motor speeds up, slows down, and turns at `max_accel / 2`. -/
theorem openSlew_iff_slow :
    let ops : List OpenOp := [.start, .setFreq 500, .tick, .tick, .setFreq 100, .tick, .tick,
      .setDirection motorDirCcw, .tick]
    ∀ p ∈ tickPairs ⟨50, 200⟩ none idleOpen ops,
      |(OpenOp.tick.apply ⟨50, 200⟩ p.2).ol.signedFreq - p.1.ol.signedFreq| ≤ 200 := by
  intro ops
  exact (openSlew_iff ⟨50, 200⟩ (by norm_num) (by norm_num) idleOpen ops).mpr (by decide +kernel)

/-- With a `max_accel` of 200 Hz: a reversal at speed takes the signed frequency from 600 to
-800 Hz, and a move of 20 steps ends at 600 Hz. -/
theorem openSlew_jumps :
    let cfg : OpenConfig := ⟨50, 200⟩
    let s := [.start, .setFreq 1000, .tick, .tick].foldl (OpenOp.apply cfg) idleOpen
    let s' := [.setDirection motorDirCcw, .tick].foldl (OpenOp.apply cfg) s
    let t := [.move 20 2000, .tick, .tick].foldl (OpenOp.apply cfg) idleOpen
    let t' := OpenOp.tick.apply cfg t
    s.ol.signedFreq = 600 ∧ s'.ol.signedFreq = -800 ∧ t.ol.signedFreq = 600 ∧
      t'.ol.signedFreq = 0 ∧ t'.ol.posMode = false := by
  refine ⟨?_, ?_, ?_, ?_, ?_⟩ <;> decide +kernel

end H750Stepper
