import H750Stepper.OpenLoop.OpenLoop
import H750Stepper.Lib.Ramp

/-!
# Position moves without an encoder

`stepper_openloop_move` counts the steps it commands. The tick starts to brake when the steps left
are at most `v² / (2 a)`, and ends the move when at most half a step is left. The ramp is discrete:
from the speed `v` it covers `(v - A) / F + (v - 2 A) / F + …` steps, less than `v² / (2 a)`; and it
is at rest for good once it has come to 0. So a move can stop short of its goal and never end, or
run past it before it is tested again.

`openMove_iff`: a move ends within its tolerance if and only if, on this profile of speeds, the
steps left after some period are between the tolerance past the goal and half a step short of it
(`Lands`).
-/

namespace H750Stepper

open Threads CInt Ramp

/-! ## The tick on the fields of the controller -/

namespace OpenLoop

/-- A period with the target frequency `target`. -/
def advanced (cfg : OpenConfig) (target : ℚ) (o : OpenLoop) : OpenLoop :=
  let c := toward cfg.maxAccel target o.currentFreq
  { o with targetFreq := target, currentFreq := c, accSteps := o.accSteps + c / cfg.freqHz }

/-- What a tick does to the controller. -/
def next (cfg : OpenConfig) (o : OpenLoop) : OpenLoop :=
  let left := o.totalSteps - o.accSteps
  if o.running then
    if o.posMode then
      if left ≤ 1 / 2 then { o with currentFreq := 0, targetFreq := 0, posMode := false }
      else o.advanced cfg
        (if left ≤ o.currentFreq * o.currentFreq / (2 * (cfg.maxAccel * cfg.freqHz)) then 0
          else o.targetFreq)
    else o.advanced cfg o.targetFreq
  else { o with currentFreq := 0, posMode := false }

theorem exec_read {α : Type} (f : OpenField) (k : OpenSys → OpenProg α) (s : OpenSys) :
    Prog.exec OpenAct.eff (.act (.read f) k) s = Prog.exec OpenAct.eff (k s) s := rfl

theorem exec_ramp (cfg : OpenConfig) (s : OpenSys) :
    ((ramp cfg).exec OpenAct.eff s).2 =
      { s with ol.currentFreq := toward cfg.maxAccel s.ol.targetFreq s.ol.currentFreq } := by
  simp only [ramp, readTargetFreq, readCurrentFreq, Prog.ask_bind, exec_read, Prog.exec_ite,
    Prog.exec_perform, toward]
  split_ifs <;> rfl

theorem exec_advance (cfg : OpenConfig) (s : OpenSys) :
    ((advance cfg).exec OpenAct.eff s).2.ol = s.ol.advanced cfg s.ol.targetFreq := by
  simp only [advance, advance.outputFreq, readCurrentFreq, readAccSteps, readDirection,
    Prog.ask_bind, exec_read, Prog.exec_bind, Prog.exec_perform, Prog.exec_ite, exec_drv,
    exec_ramp, Prog.pure_eq, Prog.exec_ret, advanced]
  split_ifs <;> rfl

/-- The deceleration test: the move is over, or goes on toward 0 or its speed. -/
theorem exec_decelPoint (cfg : OpenConfig) (s : OpenSys) :
    let left := s.ol.totalSteps - s.ol.accSteps
    ((decelPoint cfg).exec OpenAct.eff s).1 = decide (left ≤ 1 / 2) ∧
      ((decelPoint cfg).exec OpenAct.eff s).2.ol =
        if left ≤ 1 / 2 then { s.ol with currentFreq := 0, targetFreq := 0, posMode := false }
        else { s.ol with targetFreq :=
          if left ≤ s.ol.currentFreq * s.ol.currentFreq / (2 * (cfg.maxAccel * cfg.freqHz)) then 0
          else s.ol.targetFreq } := by
  simp only [decelPoint, readTotalSteps, readAccSteps, readCurrentFreq, Prog.ask_bind, exec_read,
    Prog.exec_bind, Prog.exec_when, Prog.exec_ite, Prog.exec_perform, exec_drv, Prog.pure_eq,
    Prog.exec_ret]
  split_ifs <;> simp_all [OpenAct.eff]

theorem exec_tick (cfg : OpenConfig) (s : OpenSys) :
    ((tick cfg).exec OpenAct.eff s).2.ol = s.ol.next cfg := by
  obtain ⟨hover, hdecel⟩ := exec_decelPoint cfg s
  simp only [tick, readRunning, readPosMode, Prog.ask_bind, exec_read, Prog.exec_ite,
    Prog.exec_bind, Prog.exec_perform, Prog.pure_eq, Prog.exec_ret, hover, decide_eq_true_eq, next]
  by_cases hrun : s.ol.running = true
  · by_cases hpos : s.ol.posMode = true
    · by_cases hleft : s.ol.totalSteps - s.ol.accSteps ≤ 1 / 2
      · simp only [if_pos hrun, if_pos hpos, if_pos hleft] at hdecel ⊢
        exact hdecel
      · simp only [if_pos hrun, if_pos hpos, if_neg hleft] at hdecel ⊢
        rw [exec_advance, hdecel]
        rfl
    · simp only [if_pos hrun, if_neg hpos]
      exact exec_advance cfg s
  · simp only [if_neg hrun]
    rfl

end OpenLoop

open OpenLoop

/-- `n` ticks. -/
def OpenSys.ticks (cfg : OpenConfig) (n : ℕ) (s : OpenSys) : OpenSys :=
  (fun s => ((tick cfg).exec OpenAct.eff s).2)^[n] s

theorem ol_ticks (cfg : OpenConfig) (n : ℕ) (s : OpenSys) :
    (s.ticks cfg n).ol = (OpenLoop.next cfg)^[n] s.ol :=
  Function.Semiconj.iterate_right (f := OpenSys.ol) (exec_tick cfg) n s

/-! ## The profile of a move -/

namespace OpenMove

variable (cfg : OpenConfig) (steps speedHz : ℚ)

/-- The steps left after `k` periods on the way to the speed of the move. -/
def stepsLeft (k : ℕ) : ℚ := steps - travel cfg.freqHz (cruise cfg.maxAccel speedHz) k

/-- After `k` periods the tick begins to brake, or ends the move. -/
def Braking (k : ℕ) : Prop :=
  stepsLeft cfg steps speedHz k ≤ 1 / 2 ∨
    stepsLeft cfg steps speedHz k ≤ cruise cfg.maxAccel speedHz k * cruise cfg.maxAccel speedHz k /
      (2 * (cfg.maxAccel * cfg.freqHz))

instance (k : ℕ) : Decidable (Braking cfg steps speedHz k) := by unfold Braking; infer_instance

/-- The steps left after `k` periods on the way and `j` periods of braking. -/
def stepsLeftBraking (k j : ℕ) : ℚ :=
  stepsLeft cfg steps speedHz k -
    travel cfg.freqHz (brake cfg.maxAccel (cruise cfg.maxAccel speedHz k)) j

/-- The tolerance of a move. -/
def tolerance : ℚ := cfg.maxAccel / cfg.freqHz + 1 / 2

/-- The move brakes after `k` periods, and after `j` periods of braking the steps left are at most
half a step, and not below the tolerance past the goal. -/
def Lands : Prop :=
  ∃ k, IsLeast {k | Braking cfg steps speedHz k} k ∧
    ∃ j, -tolerance cfg ≤ stepsLeftBraking cfg steps speedHz k j ∧
      stepsLeftBraking cfg steps speedHz k j ≤ 1 / 2

/-- The speed after `n` periods, of which the first `k` are on the way. -/
def profile (k n : ℕ) : ℚ :=
  if n ≤ k then cruise cfg.maxAccel speedHz n
  else brake cfg.maxAccel (cruise cfg.maxAccel speedHz k) (n - k)

/-- The steps left after `n` periods. -/
def left (k n : ℕ) : ℚ := steps - travel cfg.freqHz (profile cfg speedHz k) n

variable {cfg steps speedHz}

theorem cruise_nonneg (hA : 0 < cfg.maxAccel) (hV : 0 < speedHz) (k : ℕ) :
    0 ≤ cruise cfg.maxAccel speedHz k :=
  (lt_min hA hV).le.trans (le_cruise hA speedHz k)

theorem profile_nonneg (hA : 0 < cfg.maxAccel) (hV : 0 < speedHz) (k n : ℕ) :
    0 ≤ profile cfg speedHz k n := by
  unfold profile
  split_ifs
  · exact cruise_nonneg hA hV n
  · exact brake_nonneg ..

theorem profile_add (hA : 0 < cfg.maxAccel) (hV : 0 < speedHz) (k j : ℕ) :
    profile cfg speedHz k (k + j) = brake cfg.maxAccel (cruise cfg.maxAccel speedHz k) j := by
  cases j with
  | zero => simp [profile, brake_zero (cruise_nonneg hA hV k)]
  | succ j => simp [profile]

theorem travel_profile {k n : ℕ} (h : n ≤ k) :
    travel cfg.freqHz (profile cfg speedHz k) n =
      travel cfg.freqHz (cruise cfg.maxAccel speedHz) n :=
  travel_congr fun _ hi => if_pos (hi.trans h)

theorem left_of_le {k n : ℕ} (h : n ≤ k) :
    left cfg steps speedHz k n = stepsLeft cfg steps speedHz n := by
  rw [left, travel_profile h, stepsLeft]

theorem left_add (hA : 0 < cfg.maxAccel) (hV : 0 < speedHz) (k j : ℕ) :
    left cfg steps speedHz k (k + j) = stepsLeftBraking cfg steps speedHz k j := by
  simp only [left, travel_add, travel_profile le_rfl, profile_add hA hV, stepsLeftBraking,
    stepsLeft]
  ring

theorem left_antitone (hA : 0 < cfg.maxAccel) (hV : 0 < speedHz) (k : ℕ) :
    Antitone (left cfg steps speedHz k) := fun _ _ h =>
  sub_le_sub_left (travel_monotone (Nat.cast_nonneg _) (profile_nonneg hA hV k) h) _

/-- The brakes are applied after some period. -/
theorem exists_braking (hA : 0 < cfg.maxAccel) (hF : 0 < cfg.freqHz) (hV : 0 < speedHz) :
    ∃ k, IsLeast {k | Braking cfg steps speedHz k} k := by
  classical
  obtain ⟨k, hk⟩ := exists_le_travel (F := cfg.freqHz) (by exact_mod_cast hF) (lt_min hA hV)
    (le_cruise hA speedHz) steps
  have hbraking : ∃ k, Braking cfg steps speedHz k := ⟨k, .inl (by unfold stepsLeft; linarith)⟩
  exact ⟨_, Nat.isLeast_find hbraking⟩

/-- Before that more than half a step is left. -/
theorem half_lt_left {k n : ℕ} (hk : IsLeast {k | Braking cfg steps speedHz k} k) (hn : n < k) :
    1 / 2 < left cfg steps speedHz k n := by
  rw [left_of_le hn.le]
  by_contra h
  exact absurd (hk.2 (.inl (not_lt.mp h))) (not_le.mpr hn)

theorem lands_iff (hA : 0 < cfg.maxAccel) (hV : 0 < speedHz) {k : ℕ}
    (hk : IsLeast {k | Braking cfg steps speedHz k} k) :
    Lands cfg steps speedHz ↔
      ∃ n, -tolerance cfg ≤ left cfg steps speedHz k n ∧ left cfg steps speedHz k n ≤ 1 / 2 := by
  constructor
  · rintro ⟨k', hk', j, hj⟩
    obtain rfl := hk.unique hk'
    exact ⟨k + j, by rwa [left_add hA hV]⟩
  · rintro ⟨n, hn⟩
    obtain ⟨j, rfl⟩ : ∃ j, n = k + j :=
      Nat.exists_eq_add_of_le (not_lt.mp fun h => absurd hn.2 (not_le.mpr (half_lt_left hk h)))
    rw [left_add hA hV] at hn
    exact ⟨k, hk, j, hn⟩

/-! ## The controller follows the profile -/

/-- The state after `n` periods of a move that has not ended. -/
structure Moving (cfg : OpenConfig) (steps speedHz : ℚ) (k n : ℕ) (o : OpenLoop) : Prop where
  running : o.running = true
  posMode : o.posMode = true
  totalSteps : o.totalSteps = steps
  targetFreq : o.targetFreq = if n ≤ k then speedHz else 0
  currentFreq : o.currentFreq = profile cfg speedHz k n
  accSteps : o.accSteps = travel cfg.freqHz (profile cfg speedHz k) n

/-- The state of a move that has ended with `y` steps left. -/
structure Halted (steps y : ℚ) (o : OpenLoop) : Prop where
  running : o.running = true
  posMode : o.posMode = false
  targetFreq : o.targetFreq = 0
  currentFreq : o.currentFreq = 0
  accSteps : o.accSteps = steps - y

variable {k n : ℕ} {o : OpenLoop}

theorem Moving.left_eq (h : Moving cfg steps speedHz k n o) :
    o.totalSteps - o.accSteps = left cfg steps speedHz k n := by
  rw [h.totalSteps, h.accSteps, left]

/-- The speed of the next period. -/
theorem Moving.toward_eq (h : Moving cfg steps speedHz k n o) (hA : 0 < cfg.maxAccel)
    (hV : 0 < speedHz) :
    toward cfg.maxAccel (if n + 1 ≤ k then speedHz else 0) o.currentFreq =
      profile cfg speedHz k (n + 1) := by
  rw [h.currentFreq]
  rcases Nat.lt_or_ge n k with hn | hn
  · have hn' : n + 1 ≤ k := hn
    rw [profile, profile, if_pos hn.le, if_pos hn', if_pos hn', toward_cruise hA hV]
  · obtain ⟨j, rfl⟩ := Nat.exists_eq_add_of_le hn
    rw [if_neg (by omega), profile_add hA hV, add_assoc, profile_add hA hV, toward_brake hA]

theorem Moving.next (h : Moving cfg steps speedHz k n o) (hA : 0 < cfg.maxAccel) (hV : 0 < speedHz)
    (hk : IsLeast {k | Braking cfg steps speedHz k} k)
    (hleft : 1 / 2 < left cfg steps speedHz k n) :
    Moving cfg steps speedHz k (n + 1) (o.next cfg) := by
  -- the tick sets the target to 0 from period `k` on
  have htarget : (if o.totalSteps - o.accSteps ≤
      o.currentFreq * o.currentFreq / (2 * (cfg.maxAccel * cfg.freqHz)) then 0 else o.targetFreq) =
        if n + 1 ≤ k then speedHz else 0 := by
    rw [h.left_eq, h.currentFreq, h.targetFreq]
    rcases lt_trichotomy n k with hn | rfl | hn
    · have hbraking : ¬Braking cfg steps speedHz n := fun hb => absurd (hk.2 hb) (not_le.mpr hn)
      rw [left_of_le hn.le, profile, if_pos hn.le, if_neg fun hb => hbraking (.inr hb),
        if_pos hn.le, if_pos (Nat.succ_le_of_lt hn)]
    · rw [left_of_le le_rfl] at hleft ⊢
      rw [profile, if_pos le_rfl, if_pos (hk.1.resolve_left (not_le.mpr hleft)), if_neg (by omega)]
    · rw [if_neg (not_le.mpr hn), ite_self, if_neg (by omega)]
  have hnext : o.next cfg = o.advanced cfg (if n + 1 ≤ k then speedHz else 0) := by
    rw [OpenLoop.next, if_pos h.running, if_pos h.posMode, htarget, h.left_eq,
      if_neg (not_le.mpr hleft)]
  have hspeed := h.toward_eq hA hV
  rw [hnext]
  refine ⟨h.running, h.posMode, h.totalSteps, rfl, hspeed, ?_⟩
  simp only [advanced, hspeed, h.accSteps, travel_succ]

theorem Moving.halt (h : Moving cfg steps speedHz k n o)
    (hleft : left cfg steps speedHz k n ≤ 1 / 2) :
    Halted steps (left cfg steps speedHz k n) (o.next cfg) := by
  have hnext : o.next cfg = { o with currentFreq := 0, targetFreq := 0, posMode := false } := by
    rw [OpenLoop.next, if_pos h.running, if_pos h.posMode, h.left_eq, if_pos hleft]
  rw [hnext]
  exact ⟨h.running, rfl, rfl, rfl, by rw [← h.left_eq, h.totalSteps]; ring⟩

theorem Halted.next (hA : 0 < cfg.maxAccel) {y : ℚ} (h : Halted steps y o) :
    Halted steps y (o.next cfg) := by
  have hrest : toward cfg.maxAccel 0 0 = 0 := by
    unfold toward
    split_ifs <;> linarith
  have hnext : o.next cfg = o.advanced cfg 0 := by
    simp [OpenLoop.next, h.running, h.posMode, h.targetFreq]
  rw [hnext]
  exact ⟨h.running, h.posMode, rfl, by simp [advanced, h.currentFreq, hrest],
    by simp [advanced, h.currentFreq, hrest, h.accSteps]⟩

end OpenMove

open OpenMove

/-! ## Moves -/

/-- After `start`, `m` ticks, the move and some number of ticks, the move has ended, the motor is at
rest, and the steps counted are within the tolerance. -/
def MoveCompletes (cfg : OpenConfig) (s : OpenSys) (m : ℕ) (steps speedHz : ℚ) : Prop :=
  let started := (((OpenLoop.start cfg).exec OpenAct.eff s).2).ticks cfg m
  let moved := ((OpenLoop.move cfg steps speedHz).exec OpenAct.eff started).2
  ∃ n, (moved.ticks cfg n).ol.posMode = false ∧ (moved.ticks cfg n).ol.currentFreq = 0 ∧
    abs ((moved.ticks cfg n).ol.accSteps - |steps|) ≤ cfg.maxAccel / cfg.freqHz + 1 / 2

/-- Between `start` and the move the controller runs at `max_accel`. -/
theorem ticks_started {cfg : OpenConfig} (hA : 0 < cfg.maxAccel) (s : OpenSys)
    (hs : s.ol.running = false) (m : ℕ) :
    let o := ((((OpenLoop.start cfg).exec OpenAct.eff s).2).ticks cfg m).ol
    o.running = true ∧ o.posMode = false ∧ o.targetFreq = cfg.maxAccel ∧
      o.currentFreq = cfg.maxAccel := by
  intro o
  have ho : o = (OpenLoop.next cfg)^[m] ((OpenLoop.start cfg).exec OpenAct.eff s).2.ol :=
    ol_ticks ..
  rw [ho]
  clear ho o
  induction m with
  | zero =>
    simp [OpenLoop.start, readRunning, OpenAct.eff, hs]
  | succ m ih =>
    rw [Function.iterate_succ_apply']
    generalize (OpenLoop.next cfg)^[m] _ = o at ih
    obtain ⟨hrun, hpos, htarget, hcur⟩ := ih
    have hrest : toward cfg.maxAccel cfg.maxAccel cfg.maxAccel = cfg.maxAccel := by
      unfold toward
      split_ifs <;> linarith
    simp [OpenLoop.next, advanced, hrun, hpos, htarget, hcur, hrest]

/-- The move begins on the profile. -/
theorem moving_zero {cfg : OpenConfig} {s : OpenSys} {steps speedHz : ℚ} (k : ℕ)
    (hrun : s.ol.running = true) (hcur : s.ol.currentFreq = cfg.maxAccel) :
    Moving cfg |steps| speedHz k 0
      ((OpenLoop.move cfg steps speedHz).exec OpenAct.eff s).2.ol := by
  have hexec : ((OpenLoop.move cfg steps speedHz).exec OpenAct.eff s).2.ol =
      { s.ol with
        posMode := true, moveSpeed := speedHz, totalSteps := |steps|, accSteps := 0
        direction := if steps ≥ 0 then motorDirCw else motorDirCcw, targetFreq := speedHz } := by
    simp [OpenLoop.move, readRunning, OpenAct.eff, hrun]
  rw [hexec]
  exact ⟨hrun, rfl, rfl, by simp, by simp [hcur, profile, cruise], by simp⟩

/-- **Open-loop moves.** A move of a controller that was stopped ends within its tolerance if and
only if its profile of speeds lands. -/
theorem openMove_iff (cfg : OpenConfig) (s : OpenSys) (m : ℕ) (steps speedHz : ℚ)
    (hA : 0 < cfg.maxAccel) (hF : 1 ≤ cfg.freqHz) (hV : 0 < speedHz)
    (hs : s.ol.running = false) :
    MoveCompletes cfg s m steps speedHz ↔ Lands cfg |steps| speedHz := by
  obtain ⟨k, hk⟩ : ∃ k, IsLeast {k | Braking cfg |steps| speedHz k} k := exists_braking hA hF hV
  obtain ⟨hrun, -, -, hcur⟩ := ticks_started hA s hs m
  rw [lands_iff hA hV hk, ← exists_iterate_iff
    (P := fun o => o.posMode = false ∧ o.currentFreq = 0 ∧
      abs (o.accSteps - |steps|) ≤ cfg.maxAccel / cfg.freqHz + 1 / 2)
    (fun n o h hleft => h.next hA hV hk hleft) (fun n o h hleft => h.halt hleft)
    (fun y o h => h.next hA) (moving_zero k hrun hcur) (left_antitone hA hV k) ?_ ?_]
  · simp only [MoveCompletes, ol_ticks]
  · rintro n o h ⟨hpos, -⟩
    rw [h.posMode] at hpos
    cases hpos
  · intro y o hy h
    have hacc : o.accSteps - |steps| = -y := by rw [h.accSteps]; ring
    have htol : 0 < cfg.maxAccel / cfg.freqHz := div_pos hA (by exact_mod_cast hF)
    rw [hacc, abs_neg, abs_le, tolerance]
    constructor
    · exact fun h => h.2.2.1
    · exact fun hlo => ⟨h.posMode, h.currentFreq, hlo, by linarith⟩

/-- A stopped controller with an initialised motor. -/
def stoppedOpen : OpenSys :=
  { (default : OpenSys) with drv := MotorSys.zeroed.init 200000000 (-1) false }

/-- 20 steps at 50 periods a second, accelerating by 200 Hz in each: 8 and 12 steps in two
periods. -/
theorem openMove_iff_twenty : MoveCompletes ⟨50, 200⟩ stoppedOpen 0 20 2000 := by
  refine (openMove_iff ⟨50, 200⟩ stoppedOpen 0 20 2000 (by norm_num) (by norm_num) (by norm_num)
    rfl).mpr ⟨2, ⟨?_, fun k hk => ?_⟩, 0, ?_, ?_⟩
  · change Braking _ _ _ _
    decide +kernel
  · by_contra h
    have hk : Braking ⟨50, 200⟩ |20| 2000 k := hk
    obtain rfl | rfl : k = 0 ∨ k = 1 := by omega
    · revert hk
      decide +kernel
    · revert hk
      decide +kernel
  · decide +kernel
  · decide +kernel

/-- 16 steps of the same kind: the move brakes with 8 steps left, comes to rest after 4 of them, and
never ends. -/
theorem openMove_short : ¬MoveCompletes ⟨50, 200⟩ stoppedOpen 0 16 2000 := by
  rintro ⟨n, hpos, -⟩
  rw [ol_ticks] at hpos
  set o := ((OpenLoop.move ⟨50, 200⟩ 16 2000).exec OpenAct.eff
    ((((OpenLoop.start ⟨50, 200⟩).exec OpenAct.eff stoppedOpen).2).ticks ⟨50, 200⟩ 0)).2.ol
  have hrest : OpenLoop.next ⟨50, 200⟩ ((OpenLoop.next ⟨50, 200⟩)^[3] o) =
      (OpenLoop.next ⟨50, 200⟩)^[3] o := by
    decide +kernel
  have hearly : ∀ i ≤ 3, ((OpenLoop.next ⟨50, 200⟩)^[i] o).posMode = true := by
    decide +kernel
  have hlate : ∀ i, (OpenLoop.next ⟨50, 200⟩)^[i + 3] o = (OpenLoop.next ⟨50, 200⟩)^[3] o := by
    intro i
    rw [Function.iterate_add_apply]
    exact Function.iterate_fixed hrest i
  have hall : ((OpenLoop.next ⟨50, 200⟩)^[n] o).posMode = true := by
    rcases Nat.lt_or_ge n 3 with hn | hn
    · exact hearly n hn.le
    · obtain ⟨i, rfl⟩ := Nat.exists_eq_add_of_le' hn
      rw [hlate]
      exact hearly 3 le_rfl
  rw [hall] at hpos
  cases hpos

end H750Stepper
