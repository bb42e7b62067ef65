import H750Stepper.Lib.Pool
import H750Stepper.Position.Smooth

/-!
# The limits of the planner

Nothing clamps the acceleration of the ramp. It moves towards a value that is clamped, by at most
the jerk limit, and does not go past it; and every call of the API that writes it writes 0.

`planner_bounds`: after any ticks, among calls of any number of threads, acceleration and speed are
within their limits.
-/

namespace H750Stepper

open Threads Prog PosLoop

variable {cfg : PosConfig} {sqrtf : ℚ → ℚ}

/-! ## Calls and ticks -/

/-- The calls of the API, with a bound on the rounds observed of those that wait. -/
inductive PosCall where
  | start | stop
  | setTarget (target : ℤ)
  | moveTo (target : ℤ) (timeoutMs polls : ℕ)
  | home (homePin homeDir : ℤ) (speedHz timeoutMs polls : ℕ)
  | isArrived

/-- The program of a call, less its result. -/
def PosCall.code (cfg : PosConfig) : PosCall → PosProg Unit
  | .start => PosLoop.start cfg
  | .stop => PosLoop.stop
  | .setTarget target => PosLoop.setTarget target
  | .moveTo target timeoutMs polls => do
    let _ ← PosLoop.moveTo cfg target timeoutMs polls
  | .home homePin homeDir speedHz timeoutMs polls => do
    let _ ← PosLoop.home homePin homeDir speedHz timeoutMs polls
  | .isArrived => do
    let _ ← PosLoop.isArrived cfg

/-- What happens beside the calls: a tick of the control thread, a motion of the shaft that leaves
the encoder in any state, or time and the levels of the input pins. -/
inductive PosStir where
  | tick
  | encoder (enc : Encoder)
  | driver (e : MotorEnv)

def PosStir.eff (cfg : PosConfig) (sqrtf : ℚ → ℚ) : PosStir → PosSys → PosSys
  | .tick, s => ((PosLoop.tick cfg sqrtf).exec PosAct.eff s).2
  | .encoder enc, s => { s with enc }
  | .driver e, s => { s with drv := e.eff s.drv }

/-- Any number of threads that call the API, with ticks between their actions. -/
def plannerMachine (cfg : PosConfig) (sqrtf : ℚ → ℚ) :
    Machine ℕ PosCall PosStir PosAct PosSys Unit where
  eff := PosAct.eff
  code _ c := c.code cfg
  env := PosStir.eff cfg sqrtf

/-! ## The limits -/

/-- Acceleration and speed are within their limits. -/
structure Limited (cfg : PosConfig) (s : PosSys) : Prop where
  accel : |s.pl.rampAccel| ≤ cfg.maxAccel
  speed : |s.pl.rampSpeed| ≤ cfg.rampMaxSpeed

/-- The action brings the ramp to rest, or leaves its acceleration and its speed alone. -/
def PosAct.Halts : PosAct → Prop
  | .setRampSpeed v => v = 0
  | .setRampAccel v => v = 0
  | _ => True

theorem PosCall.code_halts (cfg : PosConfig) (c : PosCall) : (c.code cfg).All PosAct.Halts := by
  have hset : ∀ target, (PosLoop.setTarget target).All PosAct.Halts := by
    simp [PosLoop.setTarget, readRunning, readCurrentPos, PosAct.Halts]
  have hround : ∀ timeoutMs deadline, (moveRound cfg timeoutMs deadline).All PosAct.Halts := by
    simp [moveRound, PosLoop.isArrived, readTargetPos, readCurrentPos, PosAct.Halts]
  cases c with
  | start => simp [code, PosLoop.start, readRunning, encRead, readCurrentPos, PosAct.Halts]
  | stop => simp [code, PosLoop.stop, PosAct.Halts]
  | setTarget target => exact hset target
  | moveTo target timeoutMs polls =>
    have hchecked : (moveChecked cfg target timeoutMs polls).All PosAct.Halts :=
      all_bind.2 ⟨hset target, fun _ _ => all_bind.2 ⟨by simp [PosAct.Halts], fun deadline _ =>
        (hround timeoutMs deadline).poll⟩⟩
    simp [code, PosLoop.moveTo, readRunning, PosAct.Halts, hchecked]
  | home homePin homeDir speedHz timeoutMs polls =>
    refine all_bind.2 ⟨(home_all ..).imp fun l hl => ?_, fun _ _ => trivial⟩
    cases l <;> trivial
  | isArrived => simp [code, PosLoop.isArrived, readTargetPos, readCurrentPos, PosAct.Halts]

namespace Limited

variable {s : PosSys}

theorem halts {l : PosAct} (hl : l.Halts) (hcfg : cfg.Positive) (h : Limited cfg s) :
    Limited cfg (l.eff s) := by
  cases l with
  | setRampSpeed v =>
    obtain rfl : v = 0 := hl
    exact ⟨h.accel, abs_zero.trans_le hcfg.rampMaxSpeed.le⟩
  | setRampAccel v =>
    obtain rfl : v = 0 := hl
    exact ⟨abs_zero.trans_le hcfg.maxAccel.le, h.speed⟩
  | _ => exact ⟨h.accel, h.speed⟩

/-- The ramp of a tick. -/
theorem ticked (sqrtf : ℚ → ℚ) (hcfg : cfg.Positive) (h : Limited cfg s) :
    Limited cfg (s.ticked cfg sqrtf) := by
  by_cases hreg : s.Regulates
  · have haccel : |(s.sensed cfg).pl.rampAccel| ≤ cfg.maxAccel := h.accel
    obtain ⟨ha, hv⟩ := ramped_ok sqrtf hcfg haccel
    obtain ⟨haccel, hspeed⟩ := PosSys.ticked_ramp cfg sqrtf hreg
    refine ⟨haccel ▸ ha, ?_⟩
    rw [hspeed]
    split_ifs
    · exact abs_zero.trans_le hcfg.rampMaxSpeed.le
    · exact hv
  · obtain ⟨hv, ha, -, -⟩ := PosSys.ticked_pl_of_not cfg sqrtf hreg
    constructor
    · rw [ha]
      exact abs_zero.trans_le hcfg.maxAccel.le
    · rw [hv]
      exact abs_zero.trans_le hcfg.rampMaxSpeed.le

end Limited

/-- What the threads may still do, and the limits. -/
theorem limited_next (hcfg : cfg.Positive) (p : Pool ℕ PosAct PosSys Unit)
    (e : Event ℕ PosCall PosStir)
    (h : (∀ t, (p.thr t).All PosAct.Halts) ∧ Limited cfg p.st) :
    (∀ t, (((plannerMachine cfg sqrtf).next p e).thr t).All PosAct.Halts) ∧
      Limited cfg ((plannerMachine cfg sqrtf).next p e).st := by
  refine ⟨Machine.all_next (Φ := fun _ => PosAct.Halts) (fun _ _ => True)
    (fun _ c _ => c.code_halts cfg) h.1 e (by cases e <;> trivial), ?_⟩
  refine Machine.st_next (I := Limited cfg) h.2 e ?_
  cases e with
  | call t c => trivial
  | step t => exact fun l hl => h.2.halts ((h.1 t).head hl) hcfg
  | env e =>
    cases e with
    | tick =>
      show Limited cfg ((PosLoop.tick cfg sqrtf).exec PosAct.eff p.st).2
      rw [PosSys.exec_tick]
      exact h.2.ticked sqrtf hcfg
    | encoder enc => exact ⟨h.2.accel, h.2.speed⟩
    | driver e => exact ⟨h.2.accel, h.2.speed⟩

/-- **The limits of the planner.** In every state that calls of any threads and ticks reach from a
loop after its init, whatever the square root returns. -/
theorem planner_bounds (cfg : PosConfig) (hcfg : cfg.Positive) (sqrtf : ℚ → ℚ) (s : PosSys)
    (hs : s.pl = .init) (es : List (Event ℕ PosCall PosStir)) :
    let pl := ((plannerMachine cfg sqrtf).run (.idle s ()) es).st.pl
    |pl.rampAccel| ≤ cfg.maxAccel ∧ |pl.rampSpeed| ≤ cfg.rampMaxSpeed := by
  intro pl
  have hinit : Limited cfg s := by
    constructor <;> rw [hs]
    · exact abs_zero.trans_le hcfg.maxAccel.le
    · exact abs_zero.trans_le hcfg.rampMaxSpeed.le
  have hrun := (plannerMachine cfg sqrtf).run_of_next (limited_next hcfg)
    (p := .idle s ()) ⟨fun _ => Prog.all_ret (), hinit⟩ es
  exact ⟨hrun.2.accel, hrun.2.speed⟩

/-- Another thread sets a new target while a homing call waits, with ticks around it. -/
theorem planner_bounds_move :
    let es : List (Event ℕ PosCall PosStir) := .call 0 .start ::
      (List.replicate 20 (.step 0) ++ [.call 0 (.home 3 0 400 0 2), .step 0, .step 0, .env .tick,
        .call 1 (.setTarget 30), .step 1, .step 1, .env (.encoder ⟨7, 1, 9⟩), .env .tick])
    let pl := ((plannerMachine smoothConfig Rat.sqrt).run (.idle restingPos ()) es).st.pl
    |pl.rampAccel| ≤ 200 ∧ |pl.rampSpeed| ≤ 1000 :=
  planner_bounds smoothConfig smoothConfig_positive Rat.sqrt restingPos rfl _

end H750Stepper
