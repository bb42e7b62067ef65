import H750Stepper.OpenLoop.OpenShell

/-!
# The open loop under its commands

The shell and the control thread share the fields of the controller without a lock. `Allowed` says
what each of the two may do, `Relies` what it may count on meanwhile, and `Sane` is what both keep:
no position mode, a bounded frequency, and a motor that nobody touches before the inits have
succeeded.
-/

namespace H750Stepper

open Threads CInt Ramp

namespace OpenShell

open Prog (ask perform Triple Outline Stable)

/-! ## The invariant -/

variable (T : ℚ)

/-- A bound on the frequency, when the frequencies asked for are at most `T`. -/
def topFreq : ℚ := max T (2 * maxAccel)

/-- What holds between two actions. -/
structure Sane (s : OpenShell) : Prop where
  posMode : s.sys.ol.posMode = false
  current : |s.sys.ol.currentFreq| ≤ topFreq T
  target : |s.sys.ol.targetFreq| ≤ max T maxAccel
  running : s.sys.ol.running = true → s.inited = true
  off : s.inited = false → s.sys.drv.tim.oc = false ∧ s.sys.drv.motor.running = false
  fault : s.sys.drv.motor.faultState = .none
  freq : (s.sys.drv.motor.currentFreq : ℚ) ≤ topFreq T

/-- What a thread may do to the motor. -/
def AllowedDrv : OpenThread → MotorAct → Prop
  | .control, .setDirection _ | .control, .testFault => True
  | .control, .setFrequency clamped => (clamped : ℚ) ≤ topFreq T
  | .shell, .start | .shell, .stop => True
  | _, _ => False

/-- What a thread may do. -/
def Allowed : OpenThread → OpenShellAct → OpenShell → Prop
  | _, .ol (.read _), _ | _, .ol (.setAccSteps _), _ => True
  | _, .ol (.setPosMode on), _ => on = false
  | .control, .ol (.setCurrentFreq v), _ => |v| ≤ topFreq T
  | .shell, .ol (.setCurrentFreq v), _ => v = 0 ∨ v = maxAccel
  | .shell, .ol (.setTargetFreq v), _ => |v| ≤ max T maxAccel
  | .shell, .ol (.setDirection _), _ => True
  | .shell, .ol (.setRunning _), s => s.inited = true
  | t, .ol (.drv l), s => s.inited = true ∧ AllowedDrv T t l
  | .shell, .test, _ | .shell, .setInited, _ => True
  | .shell, .initMotor _, s | .shell, .initLoop, s => s.inited = false
  | _, _, _ => False

/-- What a thread counts on while the other one acts. -/
def Relies : OpenThread → Set (OpenShell → Prop)
  | .shell => {P | (P = fun s => s.inited = true) ∨ (P = fun s => s.inited = false) ∨
      (P = fun s => s.sys.ol.running = true) ∨ ∃ v, P = fun s => s.sys.ol.targetFreq = v}
  | .control => {P | (P = fun s => s.inited = true) ∨ ∃ v, P = fun s =>
      s.sys.ol.currentFreq = v ∨ s.sys.ol.currentFreq = 0 ∨ s.sys.ol.currentFreq = maxAccel}

variable {T}

theorem maxAccel_nonneg : 0 ≤ maxAccel := by norm_num [maxAccel]

theorem abs_maxAccel : |maxAccel| = maxAccel := abs_of_nonneg maxAccel_nonneg

theorem maxAccel_le_topFreq : maxAccel ≤ topFreq T :=
  le_max_of_le_right (by norm_num [maxAccel])

theorem max_le_topFreq : max T maxAccel ≤ topFreq T :=
  max_le (le_max_left _ _) maxAccel_le_topFreq

theorem topFreq_nonneg : 0 ≤ topFreq T := le_max_of_le_right (by norm_num [maxAccel])

/-- What the threads do to the motor. -/
theorem AllowedDrv.eff {t : OpenThread} {l : MotorAct} (hl : AllowedDrv T t l) {d : MotorSys}
    (hfault : d.motor.faultState = .none) (hfreq : (d.motor.currentFreq : ℚ) ≤ topFreq T) :
    (l.eff d).motor.faultState = .none ∧ ((l.eff d).motor.currentFreq : ℚ) ≤ topFreq T := by
  refine ⟨?_, ?_⟩
  · rw [MotorAct.faultState_eff _ _ _ d, hfault] <;> rintro rfl <;> cases t <;> exact hl
  · have hacc := d.stepsAccumulate_currentFreq
    cases t <;> cases l <;> try exact hl.elim
    case shell.start =>
      have hstart : (d.startSection).motor.currentFreq = d.motor.currentFreq := by
        unfold MotorSys.startSection
        split_ifs <;> rfl
      rw [MotorAct.eff, hstart]
      exact hfreq
    case shell.stop =>
      show ((0 : ℕ) : ℚ) ≤ topFreq T
      exact_mod_cast topFreq_nonneg
    case control.setDirection =>
      show ((d.stepsAccumulate.motor.currentFreq : ℕ) : ℚ) ≤ topFreq T
      rw [hacc]
      exact hfreq
    case control.setFrequency clamped =>
      obtain ⟨state, since, hmotor⟩ := d.setFrequencySection_motor clamped
      rw [MotorAct.eff, hmotor]
      exact hl
    case control.testFault => exact hfreq

/-- What is allowed keeps the invariant. -/
theorem Sane.eff {t : OpenThread} {l : OpenShellAct} {s : OpenShell} (hs : Sane T s)
    (hl : Allowed T t l s) : Sane T (l.eff s) := by
  cases l with
  | test => exact hs
  | setInited =>
    exact { hs with
      running := fun _ => rfl
      off := fun h => Bool.noConfusion h }
  | initMotor timClk =>
    have hoff : s.inited = false := by
      cases t
      exacts [hl, hl.elim]
    unfold OpenShellAct.eff
    dsimp only
    split_ifs with hok
    · exact { hs with
        off := fun _ => ⟨rfl, rfl⟩
        fault := rfl
        freq := (Nat.cast_zero (R := ℚ)).trans_le topFreq_nonneg }
    · exact { hs with
        off := fun _ => ⟨(hs.off hoff).1, rfl⟩
        fault := rfl
        freq := (Nat.cast_zero (R := ℚ)).trans_le topFreq_nonneg }
  | initLoop =>
    exact { hs with
      running := fun h => Bool.noConfusion h
      current := abs_zero.trans_le topFreq_nonneg
      target := abs_zero.trans_le (le_max_of_le_right maxAccel_nonneg) }
  | ol l =>
    cases l with
    | read f => exact hs
    | setAccSteps v => exact { hs with }
    | setRunning on =>
      have hini : s.inited = true := by
        cases t
        exacts [hl, hl.elim]
      exact { hs with running := fun _ => hini }
    | setTargetFreq v =>
      refine { hs with target := ?_ }
      cases t
      exacts [hl, hl.elim]
    | setCurrentFreq v =>
      refine { hs with current := ?_ }
      cases t with
      | control => exact hl
      | shell =>
        rcases hl with rfl | rfl
        · exact abs_zero.trans_le topFreq_nonneg
        · exact abs_maxAccel.trans_le maxAccel_le_topFreq
    | setPosMode on => exact { hs with posMode := by cases t <;> exact hl }
    | setDirection v => exact { hs with }
    | setMoveSpeed v | setTotalSteps v => cases t <;> exact hl.elim
    | drv l =>
      have hini : s.inited = true := by cases t <;> exact hl.1
      have hdrv : AllowedDrv T t l := by cases t <;> exact hl.2
      obtain ⟨hfault, hfreq⟩ := hdrv.eff hs.fault hs.freq
      exact { hs with
        off := fun h => Bool.noConfusion (hini.symm.trans h)
        fault := hfault
        freq := hfreq }

/-- The control thread writes no field that a command sets. -/
theorem Allowed.control_eff {l : OpenShellAct} {s : OpenShell} (hl : Allowed T .control l s) :
    (l.eff s).inited = s.inited ∧ (l.eff s).sys.ol.running = s.sys.ol.running ∧
      (l.eff s).sys.ol.targetFreq = s.sys.ol.targetFreq := by
  cases l with
  | ol l => cases l <;> first | exact ⟨rfl, rfl, rfl⟩ | exact hl.elim
  | _ => exact hl.elim

/-- A command sets the frequency to 0 or `MAX_ACCEL`, if at all, and does not reset the flag. -/
theorem Allowed.shell_eff {l : OpenShellAct} {s : OpenShell} (hl : Allowed T .shell l s) :
    (s.inited = true → (l.eff s).inited = true) ∧
      ((l.eff s).sys.ol.currentFreq = s.sys.ol.currentFreq ∨ (l.eff s).sys.ol.currentFreq = 0 ∨
        (l.eff s).sys.ol.currentFreq = maxAccel) := by
  cases l with
  | test => exact ⟨id, .inl rfl⟩
  | setInited => exact ⟨fun _ => rfl, .inl rfl⟩
  | initLoop => exact ⟨id, .inr (.inl rfl)⟩
  | initMotor timClk =>
    unfold OpenShellAct.eff
    dsimp only
    split_ifs <;> exact ⟨id, .inl rfl⟩
  | ol l =>
    cases l with
    | setCurrentFreq v => exact ⟨id, .inr hl⟩
    | _ => exact ⟨id, .inl rfl⟩

/-- What is allowed to a thread keeps what the other one counts on. -/
theorem Allowed.keeps {t u : OpenThread} (hu : u ≠ t) {l : OpenShellAct} {s : OpenShell}
    (hl : Allowed T t l s) : Keeps (Relies u) s (l.eff s) := by
  intro P hP
  cases t with
  | control =>
    obtain rfl : u = .shell := by cases u <;> first | rfl | exact absurd rfl hu
    obtain ⟨hini, hrun, htarget⟩ := hl.control_eff
    rcases hP with rfl | rfl | rfl | ⟨v, rfl⟩
    · exact fun h => hini.trans h
    · exact fun h => hini.trans h
    · exact fun h => hrun.trans h
    · exact fun h => htarget.trans h
  | shell =>
    obtain rfl : u = .control := by cases u <;> first | rfl | exact absurd rfl hu
    obtain ⟨hini, hcur⟩ := hl.shell_eff
    rcases hP with rfl | ⟨v, rfl⟩
    · exact hini
    · rcases hcur with hsame | hzero | hstart
      · exact fun h => h.imp hsame.trans (Or.imp hsame.trans hsame.trans)
      · exact fun _ => .inr (.inl hzero)
      · exact fun _ => .inr (.inr hstart)

/-! ## The programs of the two threads -/

/-- A part of a program of the thread `t`. -/
abbrev Runs (T : ℚ) {α : Type} (t : OpenThread) (P : OpenShell → Prop) (p : OpenCmd α)
    (Q : α → OpenShell → Prop) : Prop :=
  p.Triple OpenShellAct.eff (Relies t) (fun _ s => Sane T s) (Allowed T t) P Q

/-- The flag is set. -/
def Inited (s : OpenShell) : Prop := s.inited = true

theorem Inited.stable (t : OpenThread) : Stable (Relies t) Inited := fun _ _ hs h => by
  cases t with
  | shell => exact hs _ (.inl rfl) h
  | control => exact hs _ (.inl rfl) h

@[simp] theorem all_onLoop {α : Type} {Φ : OpenShellAct → Prop} {p : OpenProg α} :
    (onLoop p).All Φ ↔ p.All fun l => Φ (.ol l) :=
  Prog.all_zoom fun x => ⟨⟨x, false, fun _ => 0⟩, rfl⟩

theorem onLoop_bind {α β : Type} (p : OpenProg α) (g : α → OpenProg β) :
    onLoop (p >>= g) = onLoop p >>= fun a => onLoop (g a) := Prog.zoom_bind ..

theorem onLoop_ite {α : Type} (c : Prop) [Decidable c] (p q : OpenProg α) :
    onLoop (if c then p else q) = if c then onLoop p else onLoop q := Prog.zoom_ite ..

/-- A part all of whose actions are allowed once the flag is set. -/
theorem runs_inited {α : Type} {t : OpenThread} {p : OpenCmd α}
    (hp : p.All fun l => ∀ s, Inited s → Allowed T t l s ∧ Inited (l.eff s)) :
    Runs T t Inited p fun _ => Inited :=
  Triple.of_all hp (Inited.stable t) fun _ hl s hs _ => hl s hs

/-- A part all of whose actions are allowed at any time. -/
theorem runs_free {α : Type} {t : OpenThread} {p : OpenCmd α}
    (hp : p.All fun l => ∀ s, Allowed T t l s) :
    Runs T t (fun _ => True) p fun _ _ => True :=
  Triple.of_all hp (fun _ _ _ _ => trivial) fun _ hl s _ _ => ⟨hl s, trivial⟩

/-! ### The shell -/

theorem runs_ensureInited (timClk : ℕ) :
    Runs T .shell (fun _ => True) (ensureInited timClk) fun ret s => ret = 0 → Inited s := by
  have hnot : Stable (Relies .shell) fun s => s.inited = false := fun _ _ hs h =>
    hs _ (.inr (.inl rfl)) h
  have hstep : ∀ (l : OpenShellAct) (f : OpenShell → ℤ),
      (∀ s, s.inited = false → Allowed T .shell l s ∧ (l.eff s).inited = false) →
      Runs T .shell (fun s => s.inited = false) (ask l f) fun _ s => s.inited = false :=
    fun l f h => Triple.ask hnot fun s hs _ => h s hs
  have hfail : Runs T .shell (fun s => s.inited = false) (return -1) fun ret s =>
      ret = 0 → Inited s := Triple.ret fun s _ h => absurd h (by decide)
  unfold ensureInited
  refine Triple.bind (R := fun b s => s.inited = b) ?_ fun b => ?_
  · exact Triple.ask (fun _ _ _ _ => trivial) fun s _ _ => ⟨trivial, rfl⟩
  cases b with
  | true => exact Triple.ret fun s hs _ => hs
  | false =>
    refine Triple.bind (hstep _ _ fun s hs => ⟨hs, ?_⟩) fun motor => ?_
    · unfold OpenShellAct.eff
      dsimp only
      split_ifs <;> exact hs
    refine Triple.ite (fun _ => hfail) fun _ => ?_
    refine Triple.bind (hstep _ _ fun s hs => ⟨hs, hs⟩) fun loop => ?_
    refine Triple.ite (fun _ => hfail) fun _ => ?_
    refine Triple.bind (R := fun _ => Inited) ?_ fun _ => Triple.ret fun s hs _ => hs
    exact Triple.perform hnot fun s _ _ => ⟨trivial, rfl⟩

theorem runs_statusLine : Runs T .shell (fun _ => True) statusLine fun _ _ => True := by
  refine runs_free ?_
  simp [statusLine, OpenLoop.readRunning, OpenLoop.readDirection, OpenLoop.readTargetFreq,
    OpenLoop.readCurrentFreq, Allowed]

theorem runs_stop : Runs T .shell Inited (onLoop OpenLoop.stop) fun _ => Inited := by
  refine runs_inited ?_
  simp [OpenLoop.stop, Motor.stop, Allowed, AllowedDrv, Inited, OpenShellAct.eff,
    maxAccel_nonneg]

/-- A frequency has been commanded. -/
structure Commanded (f : ℚ) (s : OpenShell) : Prop where
  inited : Inited s
  running : s.sys.ol.running = true
  target : s.sys.ol.targetFreq = f

theorem Commanded.stable (f : ℚ) : Stable (Relies .shell) (Commanded f) := fun _ _ hs h =>
  ⟨hs _ (.inl rfl) h.inited, hs _ (.inr (.inr (.inl rfl))) h.running,
    hs _ (.inr (.inr (.inr ⟨f, rfl⟩))) h.target⟩

/-- The flag is set, and the controller runs if `b` says so. -/
def RunningIf (b : Bool) (s : OpenShell) : Prop := Inited s ∧ (b = true → s.sys.ol.running = true)

theorem RunningIf.stable (b : Bool) : Stable (Relies .shell) (RunningIf b) := fun _ _ hs h =>
  ⟨hs _ (.inl rfl) h.1, fun hb => hs _ (.inr (.inr (.inl rfl))) (h.2 hb)⟩

theorem runs_readRunning :
    Runs T .shell Inited (onLoop OpenLoop.readRunning) fun b s => RunningIf b s :=
  Triple.ask (Inited.stable _) fun _ hs _ => ⟨trivial, hs, id⟩

theorem runs_start :
    Runs T .shell Inited (onLoop (OpenLoop.start config)) fun _ => RunningIf true := by
  have hini : ∀ (l : OpenAct), (∀ s, Inited s → Allowed T .shell (.ol l) s) →
      Runs T .shell Inited (perform (.ol l)) fun _ => Inited := fun l h =>
    Triple.perform (Inited.stable _) fun s hs _ => ⟨h s hs, hs⟩
  unfold OpenLoop.start
  simp only [onLoop_bind, onLoop_ite]
  refine runs_readRunning.bind fun b => Triple.ite (fun hb => ?_) fun _ => ?_
  · subst hb
    exact Triple.ret fun s hs => hs
  · refine Triple.conseq (?_ : Runs T .shell Inited _ _) (fun s hs => hs.1) fun _ _ h => h
    refine (hini (.setCurrentFreq config.maxAccel) fun _ _ => .inr rfl).bind fun _ => ?_
    refine (hini (.setTargetFreq config.maxAccel) fun _ _ => ?_).bind fun _ => ?_
    · exact abs_maxAccel.trans_le (le_max_right _ _)
    refine (hini (.setPosMode false) fun _ _ => rfl).bind fun _ => ?_
    refine (hini (.setAccSteps 0) fun _ _ => trivial).bind fun _ => ?_
    refine (hini (.drv .start) fun _ hs => ⟨hs, trivial⟩).bind fun _ => ?_
    exact Triple.perform (Inited.stable _) fun s hs _ => ⟨hs, hs, fun _ => rfl⟩

theorem runs_setFreq {f : ℚ} (hf : |f| ≤ T) :
    Runs T .shell Inited (setFreq f) fun _ => Commanded f := by
  unfold setFreq
  rw [← Prog.bind_assoc]
  refine Triple.bind (R := fun _ => RunningIf true) ?_ fun _ => ?_
  · refine runs_readRunning.bind fun b => Triple.when (fun _ => ?_) fun hb s hs => ?_
    · refine Triple.conseq (?_ : Runs T .shell Inited _ _) (fun s hs => hs.1) fun _ _ h => h
      refine runs_start.bind fun _ => ?_
      exact Triple.perform (RunningIf.stable _) fun s hs _ => ⟨trivial, hs⟩
    · exact ⟨hs.1, fun _ => hs.2 (not_not.mp hb)⟩
  · refine Triple.bind (R := fun _ => Commanded f) ?_ fun _ => ?_
    · exact Triple.perform (RunningIf.stable _) fun s hs _ =>
        ⟨hf.trans (le_max_left _ _), hs.1, hs.2 rfl, rfl⟩
    · refine Triple.bind (R := fun _ => Commanded f) ?_ fun _ => Triple.ret fun _ hs => hs
      exact Triple.ask (Commanded.stable f) fun s hs _ => ⟨trivial, hs⟩

/-! ### The control thread -/

/-- The flag is set, and the frequency is the one read, unless a command has set it since. -/
def CurrentNear (c : ℚ) (s : OpenShell) : Prop :=
  Inited s ∧ (s.sys.ol.currentFreq = c ∨ s.sys.ol.currentFreq = 0 ∨ s.sys.ol.currentFreq = maxAccel)

theorem CurrentNear.stable (c : ℚ) : Stable (Relies .control) (CurrentNear c) := fun _ _ hs h =>
  ⟨hs _ (.inl rfl) h.1, hs _ (.inr ⟨c, rfl⟩) h.2⟩

theorem runs_current : Runs T .control Inited (onLoop OpenLoop.readCurrentFreq) fun c s =>
    |c| ≤ topFreq T ∧ CurrentNear c s :=
  Triple.ask (Inited.stable _) fun _ hs hsane => ⟨trivial, hsane.current, hs, .inl rfl⟩

theorem runs_current_again (c : ℚ) :
    Runs T .control (CurrentNear c) (onLoop OpenLoop.readCurrentFreq) fun c' s =>
      (c' = c ∨ c' = 0 ∨ c' = maxAccel) ∧ Inited s :=
  Triple.ask (CurrentNear.stable c) fun _ hs _ => ⟨trivial, hs.2, hs.1⟩

theorem runs_target : Runs T .control Inited (onLoop OpenLoop.readTargetFreq) fun t s =>
    |t| ≤ max T maxAccel ∧ Inited s :=
  Triple.ask (Inited.stable _) fun _ hs hsane => ⟨trivial, hsane.target, hs⟩

theorem runs_setCurrent {v : ℚ} (hv : |v| ≤ topFreq T) :
    Runs T .control Inited (perform (.ol (.setCurrentFreq v))) fun _ => Inited :=
  Triple.perform (Inited.stable _) fun _ hs _ => ⟨hv, hs⟩

/-- Two reads of the frequency decide the step and make it; a command may come between them. -/
theorem runs_ramp : Runs T .control Inited (onLoop (OpenLoop.ramp config)) fun _ => Inited := by
  have hA := maxAccel_nonneg
  have htop : 2 * maxAccel ≤ topFreq T := le_max_right _ _
  unfold OpenLoop.ramp
  simp only [onLoop_bind, onLoop_ite]
  refine runs_target.bind_lift fun t ht => ?_
  refine runs_current.bind_lift fun c hc => ?_
  obtain ⟨htlo, hthi⟩ := abs_le.mp (ht.trans max_le_topFreq)
  obtain ⟨hclo, hchi⟩ := abs_le.mp hc
  show Runs T .control (CurrentNear c) (if t - c > maxAccel then _ else _) _
  refine Triple.ite (fun hup => ?_) fun hnotup => Triple.ite (fun hdown => ?_) fun _ => ?_
  · refine (runs_current_again c).bind_lift fun c' hc' => runs_setCurrent (abs_le.mpr ?_)
    change t - c > maxAccel at hup
    show -topFreq T ≤ c' + maxAccel ∧ c' + maxAccel ≤ topFreq T
    rcases hc' with rfl | rfl | rfl <;> constructor <;> linarith
  · refine (runs_current_again c).bind_lift fun c' hc' => runs_setCurrent (abs_le.mpr ?_)
    change t - c < -maxAccel at hdown
    show -topFreq T ≤ c' - maxAccel ∧ c' - maxAccel ≤ topFreq T
    rcases hc' with rfl | rfl | rfl <;> constructor <;> linarith
  · refine Triple.conseq (runs_target.bind_lift fun t' ht' => ?_) (fun _ hs => hs.1) fun _ _ h => h
    exact runs_setCurrent (ht'.trans max_le_topFreq)

/-- A command may come between the test of the frequency and its use. -/
theorem runs_outputFreq : Runs T .control Inited (onLoop OpenLoop.advance.outputFreq) fun n s =>
    (n : ℚ) ≤ topFreq T ∧ Inited s := by
  unfold OpenLoop.advance.outputFreq
  simp only [onLoop_bind, onLoop_ite]
  refine runs_current.bind_lift fun c hc => Triple.ite (fun hpos => ?_) fun _ => ?_
  · refine (runs_current_again c).bind_lift fun c' hc' => Triple.ret fun s hs => ⟨?_, hs⟩
    have hA := maxAccel_nonneg
    have hA' := maxAccel_le_topFreq (T := T)
    have hc := le_of_abs_le hc
    have hbetween : 0 ≤ c' ∧ c' ≤ topFreq T := by
      rcases hc' with rfl | rfl | rfl <;> constructor <;> linarith
    exact (toUInt32_le hbetween.1).trans hbetween.2
  · exact Triple.ret fun s hs => ⟨(Nat.cast_zero (R := ℚ)).trans_le topFreq_nonneg, hs.1⟩

theorem clampFreq_le {n : ℕ} (hn : (n : ℚ) ≤ topFreq T) :
    ((Motor.clampFreq n).1 : ℚ) ≤ topFreq T := by
  have hmin : ((motorMinFreqHz : ℕ) : ℚ) ≤ topFreq T :=
    le_trans (by norm_num [motorMinFreqHz, maxAccel]) maxAccel_le_topFreq
  unfold Motor.clampFreq
  dsimp only
  split_ifs with hhi hlo
  · exact (Nat.cast_le.mpr hhi.le).trans hn
  · exact hmin
  · exact hn

theorem runs_setFrequency {n : ℕ} (hn : (n : ℚ) ≤ topFreq T) :
    Runs T .control Inited (onLoop (OpenLoop.drv (Motor.setFrequency n))) fun _ => Inited := by
  refine runs_inited ?_
  simp [Motor.setFrequency, Allowed, AllowedDrv, Inited, OpenShellAct.eff, clampFreq_le hn]

theorem runs_advance :
    Runs T .control Inited (onLoop (OpenLoop.advance config)) fun _ => Inited := by
  unfold OpenLoop.advance
  simp only [onLoop_bind]
  refine runs_ramp.bind fun _ => ?_
  refine Triple.bind (R := fun _ => Inited) (runs_inited ?_) fun c => ?_
  · simp [OpenLoop.readCurrentFreq, Allowed, Inited, OpenShellAct.eff]
  refine Triple.bind (R := fun _ => Inited) (runs_inited ?_) fun acc => ?_
  · simp [OpenLoop.readAccSteps, Allowed, Inited, OpenShellAct.eff]
  refine Triple.bind (R := fun _ => Inited) (runs_inited ?_) fun _ => ?_
  · simp [Allowed, Inited, OpenShellAct.eff]
  refine Triple.bind (R := fun _ => Inited) (runs_inited ?_) fun dir => ?_
  · simp [OpenLoop.readDirection, Allowed, Inited, OpenShellAct.eff]
  refine Triple.bind (R := fun _ => Inited) (runs_inited ?_) fun _ => ?_
  · simp [Motor.setDirection, Allowed, AllowedDrv, Inited, OpenShellAct.eff]
  refine runs_outputFreq.bind_lift fun n hn => ?_
  exact (runs_setFrequency hn).bind fun _ => Triple.ret fun _ hs => hs

/-- One round of the control thread. Without position mode it does not look at the steps left. -/
theorem runs_tick : Runs T .control (fun _ => True) (onLoop (OpenLoop.tick config))
    fun _ _ => True := by
  unfold OpenLoop.tick
  simp only [onLoop_bind, onLoop_ite]
  refine Triple.bind (R := fun b s => b = true → Inited s) ?_ fun running => ?_
  · exact Triple.ask (fun _ _ _ _ => trivial) fun s _ hsane => ⟨trivial, hsane.running⟩
  refine Triple.ite (fun hrun => ?_) fun _ => ?_
  · refine Triple.conseq (?_ : Runs T .control Inited _ _) (fun s hs => hs hrun) fun _ _ h => h
    refine Triple.bind_lift (c := fun b => b = false) (R := fun _ => Inited) ?_ ?_
    · exact Triple.ask (Inited.stable _) fun s hs hsane => ⟨trivial, hsane.posMode, hs⟩
    rintro _ rfl
    exact runs_advance.conseq (fun _ hs => hs) fun _ _ _ => trivial
  · refine Triple.conseq (runs_free ?_) (fun _ _ => trivial) fun _ _ h => h
    simp [Allowed, topFreq_nonneg]

/-! ## The two threads together -/

variable (lib : Shell.CLib) (timClk : ℕ)

/-- The event asks for no frequency above `T`. -/
def AsksAtMost (T : ℚ) : Event OpenThread OpenLine OpenEnv → Prop
  | .call .shell (.stepol argv) => |lib.atof (argv.arg 1)| ≤ T
  | _ => True

instance : DecidablePred (AsksAtMost lib T)
  | .call .shell (.stepol argv) => inferInstanceAs (Decidable (|lib.atof (argv.arg 1)| ≤ T))
  | .call .shell (.stepolDir _) | .call .control _ | .step _ | .env _ => .isTrue trivial

theorem runs_stepol {argv : Shell.Argv} (hf : |lib.atof (argv.arg 1)| ≤ T) :
    Runs T .shell (fun _ => True) (cmdStepol lib timClk argv) fun ret s =>
      2 ≤ argv.length → lib.atof (argv.arg 1) ≠ 0 → ret = 0 →
        Commanded (lib.atof (argv.arg 1)) s := by
  unfold cmdStepol
  refine Triple.ite (fun hargs => ?_) fun _ => ?_
  · refine runs_statusLine.bind fun _ => Triple.ret fun _ _ hlen => ?_
    exact absurd hargs (Nat.not_lt.mpr hlen)
  refine (runs_ensureInited timClk).bind fun ret => ?_
  refine Triple.ite (fun _ => Triple.ret fun _ _ _ _ h => absurd h (by decide)) fun hret => ?_
  refine Triple.conseq (?_ : Runs T .shell Inited _ _) (fun s hs => hs (not_not.mp hret)) fun _ _ h => h
  dsimp only
  refine Triple.ite (fun hzero => ?_) fun _ => ?_
  · exact runs_stop.bind fun _ => Triple.ret fun _ _ _ hne => absurd hzero hne
  · exact (runs_setFreq hf).conseq (fun _ hs => hs) fun _ _ h _ _ _ => h

theorem runs_stepolDir (argv : Shell.Argv) :
    Runs T .shell (fun _ => True) (cmdStepolDir timClk argv) fun _ _ => True := by
  unfold cmdStepolDir
  refine Triple.ite (fun _ => Triple.ret fun _ _ => trivial) fun _ => ?_
  refine (runs_ensureInited timClk).bind fun _ => ?_
  refine Triple.conseq (runs_free (p := onLoop _ >>= fun _ => .ret 0) ?_) (fun _ _ => trivial)
    fun _ _ h => h
  simp [OpenLoop.setDirection, Allowed]

theorem runs_code (t : OpenThread) (c : OpenLine) (hc : AsksAtMost lib T (.call t c)) :
    Runs T t (fun _ => True) ((openBoard lib timClk).code t c) fun _ _ => True := by
  cases t with
  | control => exact runs_tick.bind fun _ => Triple.ret fun _ _ => trivial
  | shell =>
    cases c with
    | stepol argv =>
      exact (runs_stepol lib timClk hc).conseq (fun _ h => h) fun _ _ _ => trivial
    | stepolDir argv => exact runs_stepolDir timClk argv

/-- What holds of the pool between two events. -/
def SanePool (T : ℚ) (p : Pool OpenThread OpenShellAct OpenShell ℤ) : Prop :=
  Sane T p.st ∧ Machine.Outlines (openBoard lib timClk) Relies (fun _ _ s => Sane T s) (Allowed T)
    (fun _ _ _ => True) p

variable {lib timClk}

theorem Sane.env {s : OpenShell} (hs : Sane T s) (e : OpenEnv) : Sane T (e.eff s) := by
  cases e with
  | answer step ret => exact { hs with }
  | motor e => cases e <;> exact { hs with }

theorem keeps_env (t : OpenThread) (e : OpenEnv) (s : OpenShell) : Keeps (Relies t) s (e.eff s) := by
  intro P hP
  cases t with
  | shell => rcases hP with rfl | rfl | rfl | ⟨v, rfl⟩ <;> cases e <;> exact id
  | control => rcases hP with rfl | ⟨v, rfl⟩ <;> cases e <;> exact id

theorem SanePool.next {p : Pool OpenThread OpenShellAct OpenShell ℤ} (hp : SanePool lib timClk T p)
    (e : Event OpenThread OpenLine OpenEnv) (he : AsksAtMost lib T e) :
    SanePool lib timClk T ((openBoard lib timClk).next p e) := by
  obtain ⟨hsane, hout⟩ := hp
  refine ⟨Machine.st_next hsane e ?_, ?_⟩
  · cases e with
    | call t c => trivial
    | step t => exact fun l hl => hsane.eff ((hout t l hl).step hl hsane).1
    | env e => exact hsane.env e
  · refine Machine.outlines_next (fun _ _ => True) (fun t c _ => AsksAtMost lib T (.call t c))
      (fun t l s _ hl u hu => hl.keeps hu) (fun e s _ t => keeps_env t e s)
      (fun t c s hc => runs_code lib timClk t c hc s trivial) hout e ?_
    cases e with
    | call t c => exact he
    | step t => exact fun l _ => hsane
    | env e => trivial

theorem sanePool_boot (answer : OpenInitStep → ℤ) :
    SanePool lib timClk T (.idle (boot answer) 0) := by
  refine ⟨⟨rfl, ?_, ?_, ?_, ?_, rfl, ?_⟩, fun t l h => by cases h⟩
  · exact abs_zero.trans_le topFreq_nonneg
  · exact abs_zero.trans_le (le_max_of_le_right maxAccel_nonneg)
  · exact fun h => Bool.noConfusion h
  · exact fun _ => ⟨rfl, rfl⟩
  · exact (Nat.cast_zero (R := ℚ)).trans_le topFreq_nonneg

theorem SanePool.run {p : Pool OpenThread OpenShellAct OpenShell ℤ} (hp : SanePool lib timClk T p)
    {es : List (Event OpenThread OpenLine OpenEnv)} (hes : ∀ e ∈ es, AsksAtMost lib T e) :
    SanePool lib timClk T ((openBoard lib timClk).run p es) := by
  induction es generalizing p with
  | nil => exact hp
  | cons e es ih =>
    exact ih (hp.next e (hes e List.mem_cons_self)) fun e' he' => hes e' (List.mem_cons_of_mem _ he')

end OpenShell

open OpenShell

/-- **The open loop under its commands.** If no command asks for a frequency above `T`, then neither
the controller nor the driver ever has one above `T` and twice `MAX_ACCEL`, however the ticks and
the commands are interleaved; and while the inits have not succeeded the output is off. -/
theorem openBoard_bounded (lib : Shell.CLib) (timClk : ℕ) (T : ℚ) (answer : OpenInitStep → ℤ)
    (es : List (Event OpenThread OpenLine OpenEnv)) (hes : ∀ e ∈ es, AsksAtMost lib T e) :
    let s := ((openBoard lib timClk).run (.idle (boot answer) 0) es).st
    |s.sys.ol.currentFreq| ≤ max T (2 * maxAccel) ∧
      (s.sys.drv.motor.currentFreq : ℚ) ≤ max T (2 * maxAccel) ∧
      (s.inited = false → s.sys.drv.tim.oc = false ∧ s.sys.drv.motor.running = false) := by
  have hsane : Sane T ((openBoard lib timClk).run (.idle (boot answer) 0) es).st :=
    ((sanePool_boot answer).run hes).1
  exact ⟨hsane.current, hsane.freq, hsane.off⟩

/-- The motor is stopped between the two reads that decide a step of the ramp, and started again
before the third one makes it: 250 Hz are asked for, and 400 Hz come out. -/
theorem openBoard_bounded_reached :
    let lib : Shell.CLib := ⟨fun _ => 0, fun _ => 0, fun s => if s = "250" then 250 else 0⟩
    let type (word : String) := Event.call (E := OpenEnv) OpenThread.shell (.stepol ["stepol", word])
      :: List.replicate 20 (.step .shell)
    let control (n : ℕ) := List.replicate n (Event.step (C := OpenLine) (E := OpenEnv) .control)
    let es := type "250" ++ .call .control (.stepol []) :: control 3 ++ type "0" ++ control 1 ++
      type "250" ++ control 20
    let s := ((openBoard lib 200000000).run (.idle (boot fun _ => 0) 0) es).st
    s.sys.drv.motor.currentFreq = 400 ∧ (s.sys.drv.motor.currentFreq : ℚ) ≤ max 250 (2 * maxAccel) :=
  ⟨by decide +kernel, (openBoard_bounded _ _ 250 _ _ (by decide +kernel)).2.1⟩

end H750Stepper
