import H750Stepper.Lib.Session
import H750Stepper.Position.Tick

/-!
# The position loop after a restart

A start leaves four fields as it finds them: `arrived_locked`, `last_enc`, `prev_pos_err` and the
target of the PID. Nothing reads the first two, and the target is written before the PID calculates
with it. `prev_pos_err` decides whether the first tick resets the PID, which the start has reset.

`pos_restart`: whatever a loop has done before it was stopped, the same calls with the same readings
make it output the same.
-/

namespace H750Stepper

open Threads CInt

/-! ## The past -/

/-- What goes on without an API call. -/
def PosOp.Background : PosOp → Prop
  | .tick | .encoder _ | .driver _ => True
  | _ => False

/-- What may happen between two actions of a call that waits. -/
def PosSys.Meanwhile (cfg : PosConfig) (sqrtf : ℚ → ℚ) (s s' : PosSys) : Prop :=
  ∃ ops : List PosOp, (∀ op ∈ ops, op.Background) ∧ s' = ops.foldl (PosOp.apply cfg sqrtf) s

/-- The states of a loop after its init and any calls: of its own API, with ticks during those that
wait, on its scale, and any programs that use its PID and its motor. -/
inductive PosPast (cfg : PosConfig) (sqrtf : ℚ → ℚ) : PosSys → Prop where
  | init (countsPerUnit posMin posMax : ℚ) (pid : Pid) (enc : Encoder) (drv : MotorSys) :
    PosPast cfg sqrtf ⟨.init, PosScale.init countsPerUnit posMin posMax, pid, enc, drv⟩
  | op {s : PosSys} (h : PosPast cfg sqrtf s) (op : PosOp) :
    PosPast cfg sqrtf (op.apply cfg sqrtf s)
  | moveTo {s s' : PosSys} (h : PosPast cfg sqrtf s) (target : ℤ) (timeoutMs polls : ℕ)
    {tr : List (PosAct × PosSys)} {r : Option ℤ}
    (hrun : (PosLoop.moveTo cfg target timeoutMs polls).Runs PosAct.eff
      (PosSys.Meanwhile cfg sqrtf) s tr r s') : PosPast cfg sqrtf s'
  | moveToPhysical {s s' : PosSys} (h : PosPast cfg sqrtf s) (target : ℚ) (timeoutMs polls : ℕ)
    {tr : List (PosAct × PosSys)} {r : Option ℤ}
    (hrun : (PosLoop.moveToPhysical cfg target timeoutMs polls).Runs PosAct.eff
      (PosSys.Meanwhile cfg sqrtf) s tr r s') : PosPast cfg sqrtf s'
  | home {s s' : PosSys} (h : PosPast cfg sqrtf s) (homePin homeDir : ℤ)
    (speedHz timeoutMs polls : ℕ) {tr : List (PosAct × PosSys)} {r : Option ℤ}
    (hrun : (PosLoop.home homePin homeDir speedHz timeoutMs polls).Runs PosAct.eff
      (PosSys.Meanwhile cfg sqrtf) s tr r s') : PosPast cfg sqrtf s'
  | setHome {s : PosSys} (h : PosPast cfg sqrtf s) (encoderZero : ℤ) :
    PosPast cfg sqrtf { s with scale := s.scale.setHome encoderZero }
  | pid {s : PosSys} (h : PosPast cfg sqrtf s) {α : Type} (p : PidProg α) :
    PosPast cfg sqrtf { s with pid := (p.exec PidAct.eff s.pid).2 }
  | drv {s : PosSys} (h : PosPast cfg sqrtf s) {α : Type} (p : MotorProg α) :
    PosPast cfg sqrtf { s with drv := (p.exec MotorAct.eff s.drv).2 }

theorem PosPast.foldl {cfg : PosConfig} {sqrtf : ℚ → ℚ} {s : PosSys} (h : PosPast cfg sqrtf s)
    (ops : List PosOp) : PosPast cfg sqrtf (ops.foldl (PosOp.apply cfg sqrtf) s) := by
  induction ops generalizing s with
  | nil => exact h
  | cons op ops ih => exact ih (h.op op)

/-- A stopped loop shows no output. -/
def PosSys.Rests (s : PosSys) : Prop := s.pl.running = false → s.pl.outputFreq = 0

/-- A loop whose limits agree too. -/
structure PosSys.Settled (s : PosSys) : Prop where
  rests : s.Rests
  coherent : s.scale.Coherent

/-- The action keeps that. -/
def PosAct.Settles : PosAct → Prop
  | .setRunning _ | .setOutputFreq _ | .setHomeOffset _ | .updatePosMinCounts
  | .updatePosMaxCounts => False
  | _ => True

namespace PosSys

variable {cfg : PosConfig} {sqrtf : ℚ → ℚ} {s s' : PosSys}

theorem Settled.eff (h : s.Settled) {l : PosAct} (hl : l.Settles) : (l.eff s).Settled := by
  cases l <;> first | exact ⟨h.rests, h.coherent⟩ | exact hl.elim

/-- A step leaves the scale alone. -/
theorem scale_apply (cfg : PosConfig) (sqrtf : ℚ → ℚ) (op : PosOp) (s : PosSys) :
    (op.apply cfg sqrtf s).scale = s.scale := by
  cases op with
  | start =>
    rw [PosOp.apply_start]
    split_ifs <;> rfl
  | stop => rfl
  | tick =>
    rw [PosOp.apply_tick]
    unfold ticked
    dsimp only
    split_ifs <;> rfl
  | setTarget target =>
    rw [PosOp.apply_setTarget]
    unfold retargeted
    split_ifs <;> rfl
  | encoder enc => rfl
  | driver e => rfl

theorem Rests.apply (cfg : PosConfig) (sqrtf : ℚ → ℚ) (h : s.Rests) (op : PosOp) :
    (op.apply cfg sqrtf s).Rests := by
  cases op with
  | start =>
    rw [PosOp.apply_start]
    split_ifs with hrun
    · exact h
    · intro hstopped
      cases hstopped
  | stop => exact fun _ => rfl
  | tick =>
    rw [PosOp.apply_tick]
    by_cases hreg : s.Regulates
    · intro hstopped
      rw [ticked_running cfg sqrtf hreg] at hstopped
      cases hstopped
    · exact fun _ => (ticked_pl_of_not cfg sqrtf hreg).2.2.1
  | setTarget target =>
    rw [PosOp.apply_setTarget]
    unfold retargeted
    split_ifs <;> exact h
  | encoder enc => exact h
  | driver e => exact h

theorem Meanwhile.rests (h : s.Meanwhile cfg sqrtf s') (hs : s.Rests) : s'.Rests := by
  obtain ⟨ops, -, rfl⟩ := h
  induction ops generalizing s with
  | nil => exact hs
  | cons op ops ih => exact ih (hs.apply cfg sqrtf op)

/-- What goes on during a call leaves the scale alone. -/
theorem Meanwhile.scale (h : s.Meanwhile cfg sqrtf s') : s'.scale = s.scale := by
  obtain ⟨ops, -, rfl⟩ := h
  induction ops generalizing s with
  | nil => rfl
  | cons op ops ih => exact ih.trans (scale_apply cfg sqrtf op s)

theorem Meanwhile.settled (h : s.Meanwhile cfg sqrtf s') (hs : s.Settled) : s'.Settled := by
  refine ⟨h.rests hs.rests, ?_⟩
  rw [h.scale]
  exact hs.coherent

theorem Settled.runs {α : Type} {p : PosProg α} (hp : p.All PosAct.Settles) (h : s.Settled)
    {tr : List (PosAct × PosSys)} {r : α}
    (hrun : p.Runs PosAct.eff (PosSys.Meanwhile cfg sqrtf) s tr r s') : s'.Settled :=
  hrun.inv hp (fun _ hl _ h => h.eff hl) (fun _ _ hm h => hm.settled h) h

end PosSys

namespace PosLoop

variable {cfg : PosConfig} {sqrtf : ℚ → ℚ} {s s' : PosSys}

theorem setTarget_settles (target : ℤ) : (setTarget target).All PosAct.Settles := by
  simp [setTarget, readRunning, readCurrentPos, PosAct.Settles]

theorem moveTo_settles (cfg : PosConfig) (target : ℤ) (timeoutMs polls : ℕ) :
    (moveTo cfg target timeoutMs polls).All PosAct.Settles := by
  have hround : ∀ deadline, (moveRound cfg timeoutMs deadline).All PosAct.Settles := by
    simp [moveRound, isArrived, readTargetPos, readCurrentPos, PosAct.Settles]
  have hpoll := fun deadline => (hround deadline).poll (n := polls)
  simp [moveTo, moveChecked, readRunning, setTarget_settles, hpoll, PosAct.Settles]

theorem moveToPhysical_settles (cfg : PosConfig) (target : ℚ) (timeoutMs polls : ℕ) :
    (moveToPhysical cfg target timeoutMs polls).All PosAct.Settles := by
  simp [moveToPhysical, moveTo_settles, PosAct.Settles]

/-- The end of a homing puts the home at 0: the encoder, the offset and the limits for it, one after
the other. -/
theorem rehome_settled (h : s.Settled) {tr : List (PosAct × PosSys)} {r : Option ℤ}
    (hrun : Prog.Runs PosAct.eff (PosSys.Meanwhile cfg sqrtf)
      (do
        Prog.perform .encClear
        Prog.perform (.setHomeOffset 0)
        Prog.perform .updatePosMinCounts
        Prog.perform .updatePosMaxCounts
        Prog.perform (.setCurrentPos 0)
        Prog.perform (.setTargetPos 0)
        Prog.perform (.setRampPos 0)
        return some motorEOk) s tr r s') : s'.Settled := by
  obtain ⟨s₁, tr₁, hs₁, -, s₂, tr₂, hs₂, -, s₃, tr₃, hs₃, -, s₄, tr₄, hs₄, -, hrun⟩ := hrun
  have hrest₁ : s₁.Rests := hs₁.rests h.rests
  have hrest₂ : s₂.Rests := hs₂.rests hrest₁
  have hrest₃ : s₃.Rests := hs₃.rests hrest₂
  have hrest₄ : s₄.Rests := hs₄.rests hrest₃
  have hscale₂ : s₂.scale = s.scale := hs₂.scale.trans hs₁.scale
  have hscale₃ : s₃.scale = { s.scale with homeOffset := 0 } := by
    rw [← hscale₂]
    exact hs₃.scale
  have hscale : (PosAct.updatePosMaxCounts.eff s₄).scale = s.scale.setHome 0 := by
    show { s₄.scale with posMaxCounts := s₄.scale.toCounts s₄.scale.posMax } = _
    rw [hs₄.scale]
    show { s₃.scale with
      posMinCounts := s₃.scale.toCounts s₃.scale.posMin
      posMaxCounts := s₃.scale.toCounts s₃.scale.posMax } = _
    rw [hscale₃]
    rfl
  have hend : (PosAct.updatePosMaxCounts.eff s₄).Settled := by
    refine ⟨hrest₄, ?_⟩
    rw [hscale]
    exact h.coherent.setHome 0
  refine hend.runs ?_ hrun
  exact ⟨trivial, fun _ => ⟨trivial, fun _ => ⟨trivial, fun _ => trivial⟩⟩⟩

theorem home_settled (h : s.Settled) {homePin homeDir : ℤ} {speedHz timeoutMs polls : ℕ}
    {tr : List (PosAct × PosSys)} {r : Option ℤ}
    (hrun : (home homePin homeDir speedHz timeoutMs polls).Runs PosAct.eff
      (PosSys.Meanwhile cfg sqrtf) s tr r s') : s'.Settled := by
  unfold home readRunning at hrun
  rw [Prog.ask_bind, Prog.runs_act] at hrun
  obtain ⟨s₁, tr₁, hs₁, -, hrun⟩ := hrun
  replace h : ((PosAct.read .running).eff s₁).Settled := hs₁.settled h
  generalize (PosAct.read .running).eff s₁ = s₁ at h hrun
  by_cases hr : s₁.pl.running = true
  · rw [if_pos hr, Prog.runs_bind] at hrun
    obtain ⟨tr₂, o, s₂, tr₃, hmotor, hrun, -⟩ := hrun
    have hall :
        (drv (Motor.home homePin homeDir speedHz 0 timeoutMs polls)).All PosAct.Settles := by
      rw [all_drv]
      exact Prog.all_true _
    replace h : s₂.Settled := h.runs hall hmotor
    cases o with
    | none =>
      obtain ⟨-, -, rfl⟩ := hrun
      exact h
    | some ret =>
      dsimp only at hrun
      by_cases hret : ret ≠ motorEOk
      · rw [if_pos hret] at hrun
        obtain ⟨-, -, rfl⟩ := hrun
        exact h
      · rw [if_neg hret] at hrun
        exact rehome_settled h hrun
  · rw [if_neg hr] at hrun
    obtain ⟨-, -, rfl⟩ := hrun
    exact h

end PosLoop

/-- The invariant of the past. -/
theorem PosPast.settled {cfg : PosConfig} {sqrtf : ℚ → ℚ} {s : PosSys} (h : PosPast cfg sqrtf s) :
    s.Settled := by
  induction h with
  | init countsPerUnit posMin posMax pid enc drv =>
    exact ⟨fun _ => rfl, PosScale.init_coherent countsPerUnit posMin posMax⟩
  | @op s h op ih =>
    refine ⟨ih.rests.apply cfg sqrtf op, ?_⟩
    rw [PosSys.scale_apply]
    exact ih.coherent
  | moveTo h target timeoutMs polls hrun ih =>
    exact ih.runs (PosLoop.moveTo_settles cfg target timeoutMs polls) hrun
  | moveToPhysical h target timeoutMs polls hrun ih =>
    exact ih.runs (PosLoop.moveToPhysical_settles cfg target timeoutMs polls) hrun
  | home h homePin homeDir speedHz timeoutMs polls hrun ih => exact PosLoop.home_settled ih hrun
  | setHome h encoderZero ih => exact ⟨ih.rests, ih.coherent.setHome encoderZero⟩
  | pid h p ih => exact ⟨ih.rests, ih.coherent⟩
  | drv h p ih => exact ⟨ih.rests, ih.coherent⟩

/-! ## Two runs -/

/-- The loops differ only in fields that no output depends on. -/
def PosLoop.Agrees (pl pl' : PosLoop) : Prop :=
  pl' = { pl with
    arrivedLocked := pl'.arrivedLocked, lastEnc := pl'.lastEnc, prevPosErr := pl'.prevPosErr }

/-- The controllers differ only in the target. -/
def Pid.Agrees (pid pid' : Pid) : Prop := pid' = { pid with target := pid'.target }

/-- Two running loops with the same future. A controller that has just been reset does not notice
another reset. -/
structure PosSys.Matches (s t : PosSys) : Prop where
  pl : s.pl.Agrees t.pl
  pid : s.pid.Agrees t.pid
  prevPosErr : s.pl.prevPosErr = t.pl.prevPosErr ∨ s.pid.cleared = s.pid

/-- The gains and limits of the controllers, the scales and the home offsets are the same. -/
structure PosSys.SameSettings (s t : PosSys) : Prop where
  tuning : s.pid.tuning = t.pid.tuning
  unit : s.scale.countsPerUnit = t.scale.countsPerUnit
  low : s.scale.posMin = t.scale.posMin
  high : s.scale.posMax = t.scale.posMax
  home : s.scale.homeOffset = t.scale.homeOffset

/-- Two loops with the same settings that both rest or have the same future. -/
structure PosSys.Alike (s t : PosSys) : Prop where
  scale : s.scale = t.scale
  tuning : s.pid.tuning = t.pid.tuning
  running : s.pl.running = t.pl.running
  stopped : s.pl.running = false → s.pl.outputFreq = t.pl.outputFreq
  matching : s.pl.running = true → s.Matches t

namespace PosLoop

variable {cfg : PosConfig} {sqrtf : ℚ → ℚ} {pl pl' : PosLoop} {pid pid' : Pid}

/-- The ramp does not read the fields in which the loops differ. -/
theorem Agrees.ramped (h : pl.Agrees pl') :
    (pl.ramped cfg sqrtf).Agrees (pl'.ramped cfg sqrtf) := by
  unfold Agrees at h ⊢
  rw [h]
  unfold PosLoop.ramped rampErr
  dsimp only
  split_ifs <;> rfl

theorem ramped_running (cfg : PosConfig) (sqrtf : ℚ → ℚ) (pl : PosLoop) :
    (pl.ramped cfg sqrtf).running = pl.running := by
  unfold PosLoop.ramped
  split_ifs <;> rfl

theorem ramped_prevPosErr (cfg : PosConfig) (sqrtf : ℚ → ℚ) (pl : PosLoop) :
    (pl.ramped cfg sqrtf).prevPosErr = pl.prevPosErr := by
  unfold PosLoop.ramped
  split_ifs <;> rfl

theorem Agrees.near (h : pl.Agrees pl') : pl'.Near ↔ pl.Near := by
  unfold Agrees at h
  rw [h]
  rfl

/-- The controller after the reset at a zero crossing. -/
theorem Agrees.crossed (h : pl.Agrees pl') (hpid : pid.Agrees pid')
    (hprev : pl.prevPosErr = pl'.prevPosErr ∨ pid.cleared = pid) :
    Pid.Agrees (if pl.Crosses then pid.cleared else pid)
      (if pl'.Crosses then pid'.cleared else pid') := by
  rcases hprev with hprev | hreset
  · have hcross : pl'.Crosses ↔ pl.Crosses := by
      unfold Agrees at h
      unfold Crosses
      rw [← hprev, h]
      rfl
    unfold Pid.Agrees at hpid ⊢
    by_cases hc : pl.Crosses
    · rw [if_pos hc, if_pos (hcross.mpr hc), hpid]
      rfl
    · rw [if_neg hc, if_neg (mt hcross.mp hc)]
      exact hpid
  · have hreset' : pid'.cleared = pid' := by
      unfold Pid.Agrees at hpid
      rw [hpid]
      exact congrArg (fun p : Pid => { p with target := pid'.target }) hreset
    rw [hreset, hreset', ite_self, ite_self]
    exact hpid

/-- The target of the PID is written before it is used. -/
theorem Agrees.nextPid (h : pl.Agrees pl') (hpid : pid.Agrees pid')
    (hprev : pl.prevPosErr = pl'.prevPosErr ∨ pid.cleared = pid) :
    (pl.nextPid pid).Agrees (pl'.nextPid pid') ∧
      (¬pl.Near → pl.nextPid pid = pl'.nextPid pid') := by
  have hcrossed := h.crossed hpid hprev
  unfold PosLoop.nextPid
  dsimp only
  generalize (if pl.Crosses then pid.cleared else pid) = p at hcrossed ⊢
  generalize (if pl'.Crosses then pid'.cleared else pid') = p' at hcrossed ⊢
  by_cases hnear : pl.Near
  · rw [if_pos hnear, if_pos (h.near.mpr hnear)]
    exact ⟨hcrossed, fun hfar => absurd hnear hfar⟩
  · rw [if_neg hnear, if_neg (mt h.near.mp hnear)]
    have heq : ({ p with target := pl.rampPos } : Pid).calculated pl.currentPos =
        ({ p' with target := pl'.rampPos } : Pid).calculated pl'.currentPos := by
      unfold Agrees at h
      unfold Pid.Agrees at hcrossed
      rw [h, hcrossed]
    rw [heq]
    exact ⟨rfl, fun _ => rfl⟩

theorem Agrees.freqOut (h : pl.Agrees pl') (hpid : pid.Agrees pid')
    (hprev : pl.prevPosErr = pl'.prevPosErr ∨ pid.cleared = pid) :
    pl.freqOut cfg pid = pl'.freqOut cfg pid' := by
  unfold PosLoop.freqOut
  by_cases hnear : pl.Near
  · rw [if_pos hnear, if_pos (h.near.mpr hnear)]
    unfold Agrees at h
    rw [h]
    rfl
  · rw [if_neg hnear, if_neg (mt h.near.mp hnear), (h.nextPid hpid hprev).2 hnear]
    unfold Agrees at h
    rw [h]

end PosLoop

namespace PosSys

variable {cfg : PosConfig} {sqrtf : ℚ → ℚ} {s t : PosSys}

theorem Matches.outputFreq (h : s.Matches t) : s.pl.outputFreq = t.pl.outputFreq := by
  rw [h.pl]

theorem Alike.outputFreq (h : s.Alike t) : s.pl.outputFreq = t.pl.outputFreq := by
  cases hrun : s.pl.running with
  | false => exact h.stopped hrun
  | true => exact (h.matching hrun).outputFreq

theorem Alike.started (h : s.Alike t) (hread : s.enc.read.overflow = t.enc.read.overflow) :
    (s.started cfg).Alike (t.started cfg) where
  scale := h.scale
  tuning := h.tuning
  running := rfl
  stopped := fun hstopped => by cases hstopped
  matching := fun _ => {
    pl := by
      unfold PosSys.started PosLoop.Agrees
      rw [hread]
    pid := Pid.cleared_of_tuning h.tuning
    prevPosErr := .inr rfl }

theorem Alike.stopped_both (h : s.Alike t) : s.stopped.Alike t.stopped where
  scale := h.scale
  tuning := h.tuning
  running := rfl
  stopped := fun _ => rfl
  matching := fun hrun => by cases hrun

theorem Alike.retargeted (h : s.Alike t) (target : ℤ) :
    (s.retargeted target).Alike (t.retargeted target) := by
  have haccept : t.Accepts target ↔ s.Accepts target := by
    unfold Accepts
    rw [h.scale]
  unfold PosSys.retargeted
  by_cases ha : s.Accepts target
  · rw [if_pos ha, if_pos (haccept.mpr ha)]
    dsimp only
    by_cases hrun : s.pl.running = true
    · -- The ramp starts at the motor, and the PID is reset.
      rw [if_pos hrun, if_pos (h.running.symm.trans hrun)]
      refine ⟨h.scale, h.tuning, h.running, fun hstopped => ?_, fun _ => ⟨?_, ?_, .inr rfl⟩⟩
      · cases hrun.symm.trans hstopped
      · have hpl := (h.matching hrun).pl
        unfold PosLoop.Agrees at hpl ⊢
        rw [hpl]
      · exact Pid.cleared_of_tuning h.tuning
    · have hrun' : ¬t.pl.running = true := by rwa [← h.running]
      rw [if_neg hrun, if_neg hrun']
      exact ⟨h.scale, h.tuning, h.running, h.stopped, fun hrunning => absurd hrunning hrun⟩
  · rw [if_neg ha, if_neg (mt haccept.mp ha)]
    exact h

theorem Matches.sensed (h : s.Matches t) (hread : s.enc.read.overflow = t.enc.read.overflow) :
    (s.sensed cfg).Matches (t.sensed cfg) := by
  have hpl := h.pl
  refine ⟨?_, h.pid, h.prevPosErr⟩
  unfold PosLoop.Agrees at hpl
  unfold PosSys.sensed PosLoop.Agrees
  rw [← hread, hpl]

theorem nextPid_tuning (pl : PosLoop) (pid : Pid) : (pl.nextPid pid).tuning = pid.tuning := by
  unfold PosLoop.nextPid
  split_ifs <;> rfl

/-- After the tick the position errors of both are the same. -/
theorem Alike.regulated (h : s.Alike t) (hmatch : s.Matches t) :
    (s.regulated cfg sqrtf).Alike (t.regulated cfg sqrtf) := by
  have hpl : (s.pl.ramped cfg sqrtf).Agrees (t.pl.ramped cfg sqrtf) := hmatch.pl.ramped
  have hprev : (s.pl.ramped cfg sqrtf).prevPosErr = (t.pl.ramped cfg sqrtf).prevPosErr ∨
      s.pid.cleared = s.pid := by
    rw [PosLoop.ramped_prevPosErr, PosLoop.ramped_prevPosErr]
    exact hmatch.prevPosErr
  have hpid := (hpl.nextPid hmatch.pid hprev).1
  have hfreq : (s.pl.ramped cfg sqrtf).freqOut cfg s.pid =
      (t.pl.ramped cfg sqrtf).freqOut cfg t.pid := hpl.freqOut hmatch.pid hprev
  have hrun : ∀ s : PosSys, (s.regulated cfg sqrtf).pl.running = s.pl.running := fun s =>
    PosLoop.ramped_running cfg sqrtf s.pl
  have hcontrolled : (s.regulated cfg sqrtf).Matches (t.regulated cfg sqrtf) := by
    refine ⟨?_, hpid, .inl ?_⟩
    · show PosLoop.Agrees (PosLoop.controlled ..) (PosLoop.controlled ..)
      unfold PosLoop.controlled PosLoop.Agrees
      rw [← hfreq]
      unfold PosLoop.Agrees at hpl
      rw [hpl]
      rfl
    · show (s.pl.ramped cfg sqrtf).posErr = (t.pl.ramped cfg sqrtf).posErr
      rw [hpl]
      rfl
  refine ⟨h.scale, ?_, ?_, fun _ => hcontrolled.outputFreq, fun _ => hcontrolled⟩
  · exact (nextPid_tuning _ _).trans (h.tuning.trans (nextPid_tuning _ _).symm)
  · rw [hrun, hrun, h.running]

/-- No output depends on the encoder or the driver between the calls. -/
theorem Alike.with_inputs (h : s.Alike t) (enc enc' : Encoder) (drv drv' : MotorSys) :
    ({ s with enc, drv } : PosSys).Alike { t with enc := enc', drv := drv' } where
  scale := h.scale
  tuning := h.tuning
  running := h.running
  stopped := h.stopped
  matching := fun hrun =>
    have hmatch := h.matching hrun
    ⟨hmatch.pl, hmatch.pid, hmatch.prevPosErr⟩

theorem Alike.ticked (h : s.Alike t)
    (hread : s.pl.running = true → s.enc.read.overflow = t.enc.read.overflow)
    (hfault : s.pl.running = true → (s.drv.Faulty ↔ t.drv.Faulty)) :
    (s.ticked cfg sqrtf).Alike (t.ticked cfg sqrtf) := by
  unfold PosSys.ticked
  by_cases hrun : s.pl.running = true
  · have hmatch : (s.sensed cfg).Matches (t.sensed cfg) := (h.matching hrun).sensed (hread hrun)
    have hsensed : (s.sensed cfg).Alike (t.sensed cfg) :=
      { scale := h.scale
        tuning := h.tuning
        running := h.running
        stopped := h.stopped
        matching := fun _ => hmatch }
    have hchecked := hsensed.with_inputs (s.sensed cfg).enc (t.sensed cfg).enc
      (s.sensed cfg).drv.checked (t.sensed cfg).drv.checked
    rw [if_pos hrun, if_pos (h.running.symm.trans hrun)]
    dsimp only
    by_cases hf : (s.sensed cfg).drv.Faulty
    · have hf' : (t.sensed cfg).drv.Faulty := (hfault hrun).mp hf
      rw [if_pos hf, if_pos hf']
      exact hchecked.stopped_both
    · have hf' : ¬(t.sensed cfg).drv.Faulty := mt (hfault hrun).mpr hf
      rw [if_neg hf, if_neg hf']
      exact hchecked.regulated (hchecked.matching hrun)
  · have hrun' : ¬t.pl.running = true := by rwa [← h.running]
    rw [if_neg hrun, if_neg hrun']
    exact ⟨h.scale, h.tuning, h.running, fun _ => rfl, fun hrunning => absurd hrunning hrun⟩

end PosSys

/-! ## Runs -/

/-- The events of the inputs. -/
def PosOp.IsInput : PosOp → Prop
  | .encoder _ | .driver _ => True
  | _ => False

instance : DecidablePred PosOp.IsInput
  | .encoder _ | .driver _ => inferInstanceAs (Decidable True)
  | .start | .stop | .tick | .setTarget _ => inferInstanceAs (Decidable False)

theorem PosOp.IsInput.exists_eq {op : PosOp} (h : op.IsInput) (cfg : PosConfig) (sqrtf : ℚ → ℚ)
    (s : PosSys) : ∃ enc drv, op.apply cfg sqrtf s = { s with enc, drv } := by
  cases op <;> first | exact ⟨_, _, rfl⟩ | exact h.elim

theorem PosOp.IsInput.command_eq_none {op : PosOp} (h : op.IsInput) (cfg : PosConfig)
    (sqrtf : ℚ → ℚ) (s : PosSys) : op.command cfg sqrtf s = none := by
  cases op <;> first | rfl | exact h.elim

/-- The same call, or inputs that may differ. -/
def PosOp.Same (op op' : PosOp) : Prop := op = op' ∨ op.IsInput ∧ op'.IsInput

instance : DecidableRel PosOp.Same := fun _ _ => inferInstanceAs (Decidable (_ ∨ _))

/-- The step reads the encoder. -/
def PosOp.Reads (s : PosSys) : PosOp → Prop
  | .start => s.pl.running = false
  | .tick => s.pl.running = true
  | _ => False

instance (s : PosSys) : DecidablePred (PosOp.Reads s)
  | .start => inferInstanceAs (Decidable (s.pl.running = false))
  | .tick => inferInstanceAs (Decidable (s.pl.running = true))
  | .stop | .setTarget _ | .encoder _ | .driver _ => inferInstanceAs (Decidable False)

/-- Where the encoder is read, the readings are the same; where the fault input is, they are too. -/
def PosOp.SameInputs (x y : PosSys × PosOp) : Prop :=
  (x.2.Reads x.1 → x.1.enc.read.overflow = y.1.enc.read.overflow) ∧
    (x.2 = .tick → x.1.pl.running = true → (x.1.drv.Faulty ↔ y.1.drv.Faulty))

instance : DecidableRel PosOp.SameInputs := fun _ _ => inferInstanceAs (Decidable (_ ∧ _))

/-- The steps leave the same output, and pass the same to the driver. -/
def PosOp.SameOutputs (cfg : PosConfig) (sqrtf : ℚ → ℚ) (x y : PosSys × PosOp) : Prop :=
  (x.2.apply cfg sqrtf x.1).pl.outputFreq = (y.2.apply cfg sqrtf y.1).pl.outputFreq ∧
    x.2.command cfg sqrtf x.1 = y.2.command cfg sqrtf y.1

variable {cfg : PosConfig} {sqrtf : ℚ → ℚ}

theorem PosSys.Alike.apply {s t : PosSys} (h : s.Alike t) {op op' : PosOp} (hop : op.Same op')
    (hin : PosOp.SameInputs (s, op) (t, op')) :
    (op.apply cfg sqrtf s).Alike (op'.apply cfg sqrtf t) := by
  obtain ⟨hread, hfault⟩ := hin
  rcases hop with rfl | ⟨hin, hin'⟩
  · cases op with
    | start =>
      rw [PosOp.apply_start, PosOp.apply_start]
      by_cases hrun : s.pl.running = true
      · rw [if_pos hrun, if_pos (h.running.symm.trans hrun)]
        exact h
      · have hrun' : ¬t.pl.running = true := by rwa [← h.running]
        rw [if_neg hrun, if_neg hrun']
        exact h.started (hread (Bool.eq_false_iff.mpr hrun))
    | stop => exact h.stopped_both
    | tick =>
      rw [PosOp.apply_tick, PosOp.apply_tick]
      exact h.ticked hread (hfault rfl)
    | setTarget target =>
      rw [PosOp.apply_setTarget, PosOp.apply_setTarget]
      exact h.retargeted target
    | encoder enc => exact h.with_inputs enc enc s.drv t.drv
    | driver e => exact h.with_inputs s.enc t.enc (e.eff s.drv) (e.eff t.drv)
  · obtain ⟨enc, drv, heq⟩ := hin.exists_eq cfg sqrtf s
    obtain ⟨enc', drv', heq'⟩ := hin'.exists_eq cfg sqrtf t
    rw [heq, heq']
    exact h.with_inputs enc enc' drv drv'

/-- The invariant makes the step pass the same to the driver. -/
theorem PosSys.Alike.command {s t : PosSys} (h : s.Alike t) {op op' : PosOp} (hop : op.Same op')
    (hin : PosOp.SameInputs (s, op) (t, op')) :
    op.command cfg sqrtf s = op'.command cfg sqrtf t := by
  have hnext : (op.apply cfg sqrtf s).Alike (op'.apply cfg sqrtf t) := h.apply hop hin
  rcases hop with rfl | ⟨hin, hin'⟩
  · unfold PosOp.command
    by_cases hreg : op = .tick ∧ s.Regulates
    · obtain ⟨rfl, hrun, hfault⟩ := hreg
      have hreg' : t.Regulates := ⟨h.running.symm.trans hrun, mt (hin.2 rfl hrun).mpr hfault⟩
      have hrunning : (PosOp.tick.apply cfg sqrtf s).pl.running = true := by
        rw [PosOp.apply_tick]
        exact ticked_running cfg sqrtf ⟨hrun, hfault⟩
      rw [if_pos ⟨rfl, hrun, hfault⟩, if_pos ⟨rfl, hreg'⟩, (hnext.matching hrunning).pl]
      rfl
    · have hreg' : ¬(op = .tick ∧ t.Regulates) := by
        rintro ⟨rfl, hrun, hfault⟩
        have hrun' : s.pl.running = true := h.running.trans hrun
        exact hreg ⟨rfl, hrun', mt (hin.2 rfl hrun').mp hfault⟩
      rw [if_neg hreg, if_neg hreg']
  · rw [hin.command_eq_none cfg sqrtf s, hin'.command_eq_none cfg sqrtf t]

/-- Two loops that have been stopped are alike, if their settings are. -/
theorem PosPast.alike {a b : PosSys} (ha : PosPast cfg sqrtf a) (hb : PosPast cfg sqrtf b)
    (hstop : a.pl.running = false) (hstop' : b.pl.running = false) (h : a.SameSettings b) :
    a.Alike b where
  scale := ha.settled.coherent.ext hb.settled.coherent h.unit h.low h.high h.home
  tuning := h.tuning
  running := hstop.trans hstop'.symm
  stopped := fun _ => (ha.settled.rests hstop).trans (hb.settled.rests hstop').symm
  matching := fun hrun => by cases hstop.symm.trans hrun

/-- **Restart.** Two position loops that have been stopped, whatever they have done before, output
the same and command the same in the same calls with the same readings, if their settings are the
same. -/
theorem pos_restart {a b : PosSys} (ha : PosPast cfg sqrtf a) (hb : PosPast cfg sqrtf b)
    (hstop : a.pl.running = false) (hstop' : b.pl.running = false) (hset : a.SameSettings b)
    {ops ops' : List PosOp} (hops : List.Forall₂ PosOp.Same ops ops')
    (hin : List.Forall₂ PosOp.SameInputs (history (PosOp.apply cfg sqrtf) a ops)
      (history (PosOp.apply cfg sqrtf) b ops')) :
    List.Forall₂ (PosOp.SameOutputs cfg sqrtf) (history (PosOp.apply cfg sqrtf) a ops)
      (history (PosOp.apply cfg sqrtf) b ops') := by
  have halike : a.Alike b := ha.alike hb hstop hstop' hset
  refine history_bisim (R := PosSys.Alike) (fun s t op op' h hop hin => ?_) halike hops hin
  have hnext : (op.apply cfg sqrtf s).Alike (op'.apply cfg sqrtf t) := h.apply hop hin
  exact ⟨hnext, hnext.outputFreq, h.command hop hin⟩

end H750Stepper
