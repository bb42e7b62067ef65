import H750Stepper.Lib.Session
import H750Stepper.Speed.Tick

/-!
# The speed loop after a restart

A start leaves `enc_delta` and `current_speed` as it finds them. Nothing reads the first; the second
is filtered into the speed of the first tick, and is 0 in every loop that has been stopped.

`speed_restart`: whatever a loop has done before it was stopped, the same calls with the same
readings make it output the same.
-/

namespace H750Stepper

open Threads CInt

/-! ## The past -/

/-- The states of a loop after its init and any calls, with any programs that use its PID and its
motor. -/
inductive SpeedPast (cfg : SpeedConfig) : SpeedSys → Prop where
  | init (pid : Pid) (enc : Encoder) (drv : MotorSys) : SpeedPast cfg ⟨.init, pid, enc, drv⟩
  | op {s : SpeedSys} (h : SpeedPast cfg s) (op : SpeedOp) : SpeedPast cfg (op.apply cfg s)
  | pid {s : SpeedSys} (h : SpeedPast cfg s) {α : Type} (p : PidProg α) :
    SpeedPast cfg { s with pid := (p.exec PidAct.eff s.pid).2 }
  | drv {s : SpeedSys} (h : SpeedPast cfg s) {α : Type} (p : MotorProg α) :
    SpeedPast cfg { s with drv := (p.exec MotorAct.eff s.drv).2 }

theorem SpeedPast.foldl {cfg : SpeedConfig} {s : SpeedSys} (h : SpeedPast cfg s)
    (ops : List SpeedOp) : SpeedPast cfg (ops.foldl (SpeedOp.apply cfg) s) := by
  induction ops generalizing s with
  | nil => exact h
  | cons op ops ih => exact ih (h.op op)

/-- A stopped loop shows neither a speed nor an output. -/
structure SpeedSys.Settled (s : SpeedSys) : Prop where
  speed : s.Rests
  output : s.sl.running = false → s.sl.outputFreq = 0

variable {cfg : SpeedConfig}

theorem SpeedSys.Settled.apply {s : SpeedSys} (h : s.Settled) (op : SpeedOp) :
    (op.apply cfg s).Settled := by
  refine ⟨SpeedOp.rests cfg h.speed op, ?_⟩
  cases op with
  | start =>
    rw [SpeedOp.apply_start]
    split_ifs with hrun
    · exact h.output
    · intro hstopped
      cases hstopped
  | stop => exact fun _ => rfl
  | tick =>
    rw [SpeedOp.apply_tick]
    unfold SpeedSys.ticked
    split_ifs with hrun
    · exact fun hstopped => by cases hrun.symm.trans hstopped
    · exact fun _ => rfl
  | setTarget targetHz =>
    rw [SpeedOp.apply_setTarget]
    unfold SpeedSys.retargeted
    dsimp only
    split_ifs <;> exact h.output
  | turn d => exact h.output

theorem SpeedPast.settled {s : SpeedSys} (h : SpeedPast cfg s) : s.Settled := by
  induction h with
  | init pid enc drv => exact ⟨fun _ => rfl, fun _ => rfl⟩
  | op h op ih => exact ih.apply op
  | pid h p ih => exact ⟨ih.speed, ih.output⟩
  | drv h p ih => exact ⟨ih.speed, ih.output⟩

/-! ## Two runs -/

/-- Two running loops with the same future: they differ in `enc_delta` only. -/
structure SpeedSys.Matches (s t : SpeedSys) : Prop where
  sl : t.sl = { s.sl with encDelta := t.sl.encDelta }
  pid : s.pid = t.pid

/-- Two loops with the same settings that both rest or have the same future. -/
structure SpeedSys.Alike (s t : SpeedSys) : Prop where
  tuning : s.pid.tuning = t.pid.tuning
  running : s.sl.running = t.sl.running
  speed : s.sl.running = false → s.sl.currentSpeed = t.sl.currentSpeed
  output : s.sl.running = false → s.sl.outputFreq = t.sl.outputFreq
  matching : s.sl.running = true → s.Matches t

namespace SpeedSys

variable {s t : SpeedSys}

theorem Alike.outputFreq (h : s.Alike t) : s.sl.outputFreq = t.sl.outputFreq := by
  cases hrun : s.sl.running with
  | false => exact h.output hrun
  | true => rw [(h.matching hrun).sl]

theorem Alike.started (h : s.Alike t) (hrun : s.sl.running = false)
    (hread : s.enc.read.overflow = t.enc.read.overflow) : s.started.Alike t.started where
  tuning := congrArg Pid.tuning h.tuning
  running := rfl
  speed := fun hstopped => by cases hstopped
  output := fun hstopped => by cases hstopped
  matching := fun _ => {
    sl := by
      unfold SpeedSys.started
      dsimp only
      rw [hread, h.speed hrun]
    pid := h.tuning }

theorem Alike.stopped (h : s.Alike t) : s.stopped.Alike t.stopped where
  tuning := h.tuning
  running := rfl
  speed := fun _ => rfl
  output := fun _ => rfl
  matching := fun hrun => by cases hrun

theorem retargeted_tuning (cfg : SpeedConfig) (targetHz : ℚ) (s : SpeedSys) :
    (s.retargeted cfg targetHz).pid.tuning = s.pid.tuning := by
  unfold retargeted
  dsimp only
  split_ifs <;> rfl

/-- Of the loop a new target changes the ramp only. -/
theorem retargeted_sl (cfg : SpeedConfig) (targetHz : ℚ) (s : SpeedSys) :
    (s.retargeted cfg targetHz).sl.running = s.sl.running ∧
      (s.retargeted cfg targetHz).sl.currentSpeed = s.sl.currentSpeed ∧
      (s.retargeted cfg targetHz).sl.outputFreq = s.sl.outputFreq := by
  unfold retargeted
  dsimp only
  split_ifs <;> exact ⟨rfl, rfl, rfl⟩

theorem Matches.retargeted (h : s.Matches t) (targetHz : ℚ) :
    (s.retargeted cfg targetHz).Matches (t.retargeted cfg targetHz) := by
  have hreset : t.Resets cfg targetHz ↔ s.Resets cfg targetHz := by
    unfold Resets
    rw [h.pid]
  unfold SpeedSys.retargeted
  dsimp only
  by_cases hr : s.Resets cfg targetHz
  · rw [if_pos hr, if_pos (hreset.mpr hr)]
    refine ⟨?_, by rw [h.pid]⟩
    rw [h.sl]
  · rw [if_neg hr, if_neg (mt hreset.mp hr)]
    exact ⟨h.sl, by rw [h.pid]⟩

theorem Alike.retargeted (h : s.Alike t) (targetHz : ℚ) :
    (s.retargeted cfg targetHz).Alike (t.retargeted cfg targetHz) := by
  obtain ⟨hrun, hspeed, hout⟩ := retargeted_sl cfg targetHz s
  obtain ⟨hrun', hspeed', hout'⟩ := retargeted_sl cfg targetHz t
  refine ⟨?_, ?_, fun hstopped => ?_, fun hstopped => ?_, fun hrunning => ?_⟩
  · rw [retargeted_tuning, retargeted_tuning, h.tuning]
  · rw [hrun, hrun', h.running]
  · rw [hspeed, hspeed', h.speed (hrun.symm.trans hstopped)]
  · rw [hout, hout', h.output (hrun.symm.trans hstopped)]
  · exact (h.matching (hrun.symm.trans hrunning)).retargeted targetHz

/-- The tick writes `enc_delta` from the reading. -/
theorem Matches.ticked (h : s.Matches t) (hread : s.enc.read.overflow = t.enc.read.overflow) :
    ((s.measured cfg).steered cfg).Matches ((t.measured cfg).steered cfg) := by
  have hmeasured : (t.measured cfg).sl = (s.measured cfg).sl := by
    unfold measured
    rw [← hread, h.sl]
  have hpid : (t.measured cfg).pid = (s.measured cfg).pid := h.pid.symm
  unfold steered
  rw [hmeasured, hpid]
  exact ⟨rfl, rfl⟩

theorem Alike.ticked (h : s.Alike t)
    (hread : s.sl.running = true → s.enc.read.overflow = t.enc.read.overflow) :
    (s.ticked cfg).Alike (t.ticked cfg) := by
  unfold SpeedSys.ticked
  by_cases hrun : s.sl.running = true
  · rw [if_pos hrun, if_pos (h.running.symm.trans hrun)]
    have hmatch : ((s.measured cfg).steered cfg).Matches ((t.measured cfg).steered cfg) :=
      (h.matching hrun).ticked (hread hrun)
    exact {
      tuning := h.tuning
      running := h.running
      speed := fun hstopped => by cases hrun.symm.trans hstopped
      output := fun hstopped => by cases hrun.symm.trans hstopped
      matching := fun _ => hmatch }
  · have hrun' : ¬t.sl.running = true := by rwa [← h.running]
    rw [if_neg hrun, if_neg hrun']
    exact ⟨h.tuning, h.running, h.speed, fun _ => rfl, fun hrunning => absurd hrunning hrun⟩

end SpeedSys

/-! ## Runs -/

/-- The shaft turns. -/
def SpeedOp.IsTurn : SpeedOp → Prop
  | .turn _ => True
  | _ => False

instance : DecidablePred SpeedOp.IsTurn
  | .turn _ => inferInstanceAs (Decidable True)
  | .start | .stop | .tick | .setTarget _ => inferInstanceAs (Decidable False)

theorem SpeedOp.IsTurn.exists_eq {op : SpeedOp} (h : op.IsTurn) : ∃ d, op = .turn d := by
  cases op <;> first | exact ⟨_, rfl⟩ | exact h.elim

/-- The same call, or turns of the shaft that may differ. -/
def SpeedOp.Same (op op' : SpeedOp) : Prop := op = op' ∨ op.IsTurn ∧ op'.IsTurn

instance : DecidableRel SpeedOp.Same := fun _ _ => inferInstanceAs (Decidable (_ ∨ _))

/-- The step reads the encoder. -/
def SpeedOp.Reads (s : SpeedSys) : SpeedOp → Prop
  | .start => s.sl.running = false
  | .tick => s.sl.running = true
  | _ => False

instance (s : SpeedSys) : DecidablePred (SpeedOp.Reads s)
  | .start => inferInstanceAs (Decidable (s.sl.running = false))
  | .tick => inferInstanceAs (Decidable (s.sl.running = true))
  | .stop | .setTarget _ | .turn _ => inferInstanceAs (Decidable False)

/-- Where the encoder is read, the readings are the same. -/
def SpeedOp.SameInputs (x y : SpeedSys × SpeedOp) : Prop :=
  x.2.Reads x.1 → x.1.enc.read.overflow = y.1.enc.read.overflow

instance : DecidableRel SpeedOp.SameInputs := fun _ _ => inferInstanceAs (Decidable (_ → _))

/-- The steps leave the same output, and pass the same to the driver. -/
def SpeedOp.SameOutputs (cfg : SpeedConfig) (x y : SpeedSys × SpeedOp) : Prop :=
  (x.2.apply cfg x.1).sl.outputFreq = (y.2.apply cfg y.1).sl.outputFreq ∧
    x.2.command cfg x.1 = y.2.command cfg y.1

theorem SpeedSys.Alike.apply {s t : SpeedSys} (h : s.Alike t) {op op' : SpeedOp}
    (hop : op.Same op') (hread : SpeedOp.SameInputs (s, op) (t, op')) :
    (op.apply cfg s).Alike (op'.apply cfg t) := by
  have hturn : ∀ enc enc', ({ s with enc } : SpeedSys).Alike { t with enc := enc' } := fun _ _ =>
    { tuning := h.tuning
      running := h.running
      speed := h.speed
      output := h.output
      matching := fun hrun => ⟨(h.matching hrun).sl, (h.matching hrun).pid⟩ }
  rcases hop with rfl | ⟨h₁, h₂⟩
  · cases op with
    | start =>
      rw [SpeedOp.apply_start, SpeedOp.apply_start]
      by_cases hrun : s.sl.running = true
      · rw [if_pos hrun, if_pos (h.running.symm.trans hrun)]
        exact h
      · have hrun' : ¬t.sl.running = true := by rwa [← h.running]
        have hstopped : s.sl.running = false := Bool.eq_false_iff.mpr hrun
        rw [if_neg hrun, if_neg hrun']
        exact h.started hstopped (hread hstopped)
    | stop =>
      rw [SpeedOp.apply_stop, SpeedOp.apply_stop]
      exact h.stopped
    | tick =>
      rw [SpeedOp.apply_tick, SpeedOp.apply_tick]
      exact h.ticked hread
    | setTarget targetHz =>
      rw [SpeedOp.apply_setTarget, SpeedOp.apply_setTarget]
      exact h.retargeted targetHz
    | turn d => exact hturn (s.enc.turn d) (t.enc.turn d)
  · obtain ⟨d, rfl⟩ := h₁.exists_eq
    obtain ⟨d', rfl⟩ := h₂.exists_eq
    exact hturn (s.enc.turn d) (t.enc.turn d')

/-- The command of a tick follows from its output. -/
theorem SpeedSys.Alike.command {s t : SpeedSys} (h : s.Alike t) {op op' : SpeedOp}
    (hop : op.Same op') (hread : SpeedOp.SameInputs (s, op) (t, op')) :
    op.command cfg s = op'.command cfg t := by
  have hnext : (op.apply cfg s).Alike (op'.apply cfg t) := h.apply hop hread
  have htick : op = .tick ↔ op' = .tick := by
    rcases hop with rfl | ⟨h₁, h₂⟩
    · rfl
    · obtain ⟨d, rfl⟩ := h₁.exists_eq
      obtain ⟨d', rfl⟩ := h₂.exists_eq
      simp
  unfold SpeedOp.command
  rw [hnext.outputFreq]
  exact if_congr (by rw [htick, h.running]) rfl rfl

/-- **Restart.** Two speed loops that have been stopped, whatever they have done before, output the
same and command the same in the same calls with the same readings, if their gains and limits are
the same. -/
theorem speed_restart {a b : SpeedSys} (ha : SpeedPast cfg a) (hb : SpeedPast cfg b)
    (hstop : a.sl.running = false) (hstop' : b.sl.running = false)
    (htuning : a.pid.tuning = b.pid.tuning) {ops ops' : List SpeedOp}
    (hops : List.Forall₂ SpeedOp.Same ops ops')
    (hin : List.Forall₂ SpeedOp.SameInputs (history (SpeedOp.apply cfg) a ops)
      (history (SpeedOp.apply cfg) b ops')) :
    List.Forall₂ (SpeedOp.SameOutputs cfg) (history (SpeedOp.apply cfg) a ops)
      (history (SpeedOp.apply cfg) b ops') := by
  have halike : a.Alike b :=
    { tuning := htuning
      running := hstop.trans hstop'.symm
      speed := fun _ => (ha.settled.speed hstop).trans (hb.settled.speed hstop').symm
      output := fun _ => (ha.settled.output hstop).trans (hb.settled.output hstop').symm
      matching := fun hrun => by cases hstop.symm.trans hrun }
  refine history_bisim (R := SpeedSys.Alike) (fun s t op op' h hop hin => ?_) halike hops hin
  have hnext : (op.apply cfg s).Alike (op'.apply cfg t) := h.apply hop hin
  exact ⟨hnext, hnext.outputFreq, h.command hop hin⟩

end H750Stepper
