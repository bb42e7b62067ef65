import H750Stepper.Lib.Pool
import H750Stepper.Position.PositionLoop

/-!
# Blocking moves

`position_loop_move_to` writes the target and polls the shared fields of the loop until the loop has
arrived there, the motor has a fault, or a deadline has passed. It does not look at `running`, it
tests arrival before it tests the fault, and a stop sets the target to 0. So a loop that a fault
stops near 0 or near its target is reported as arrived, and one that another thread stops is waited
for until the deadline.

`moveTo_result`: among ticks, stops, new targets and other moves in any order, the result of a move
is right if the loop is at neither of these two places whenever a fault is recorded, and nobody else
stops it or sends it elsewhere.
-/

namespace H750Stepper

open Threads Prog PosLoop CInt

/-! ## Threads -/

/-- The control thread, and any number of threads that call the API. -/
inductive MoveThread where
  | control
  | caller (i : ℕ)
  deriving DecidableEq

/-- The calls, with a bound on the rounds observed of `position_loop_move_to`. -/
inductive MoveCall where
  | moveTo (target : ℤ) (timeoutMs polls : ℕ)
  | stop
  | setTarget (target : ℤ)

def MoveCall.code (cfg : PosConfig) : MoveCall → PosProg (Option ℤ)
  | .moveTo target timeoutMs polls => PosLoop.moveTo cfg target timeoutMs polls
  | .stop => do
    PosLoop.stop
    return none
  | .setTarget target => do
    PosLoop.setTarget target
    return none

/-- Ticks in one thread, calls in the others. -/
def moveMachine (cfg : PosConfig) (sqrtf : ℚ → ℚ) :
    Machine MoveThread MoveCall PosEnv PosAct PosSys (Option ℤ) where
  eff := PosAct.eff
  code
    | .control, _ => do
      tick cfg sqrtf
      return none
    | .caller _, c => c.code cfg
  env := PosEnv.eff

/-! ## Conditions on a run -/

/-- The loop has arrived neither at `target` nor at 0. -/
def AwayFrom (cfg : PosConfig) (target current : ℤ) : Prop :=
  arrivedAt cfg target current = false ∧ arrivedAt cfg 0 current = false

instance (cfg : PosConfig) (target current : ℤ) : Decidable (AwayFrom cfg target current) :=
  inferInstanceAs (Decidable (_ ∧ _))

/-- The action does not mislead a move to `target`: a fault is recorded away from `target` and 0,
the position stays within a 32-bit distance, a stop follows a fault, and nobody writes another
target except a stop. -/
def PosAct.Orderly (cfg : PosConfig) (target : ℤ) (s : PosSys) : PosAct → Prop
  | .drv .recordFault => AwayFrom cfg target s.pl.currentPos
  | .setCurrentPos v => |target - v| < 2 ^ 31
  | .setRunning _ => s.drv.motor.faultState ≠ .none
  | .setTargetPos v => v = target ∨ v = 0 ∧ s.pl.running = false
  | _ => True

instance (cfg : PosConfig) (target : ℤ) (s : PosSys) (l : PosAct) :
    Decidable (l.Orderly cfg target s) := by
  unfold PosAct.Orderly
  split <;> infer_instance

/-- The calling thread makes no other call, and all actions are orderly. -/
def Orderly (cfg : PosConfig) (target : ℤ) (i : ℕ)
    (p : Pool MoveThread PosAct PosSys (Option ℤ)) : Event MoveThread MoveCall PosEnv → Prop
  | .call t _ => t ≠ .caller i
  | .step t => ∀ l, (p.thr t).head = some l → l.Orderly cfg target p.st
  | .env _ => True

instance (cfg : PosConfig) (target : ℤ) (i : ℕ) (p : Pool MoveThread PosAct PosSys (Option ℤ))
    (e : Event MoveThread MoveCall PosEnv) : Decidable (Orderly cfg target i p e) :=
  match e with
  | .call t _ => inferInstanceAs (Decidable (t ≠ .caller i))
  | .step t => inferInstanceAs (Decidable (∀ l ∈ (p.thr t).head, l.Orderly cfg target p.st))
  | .env _ => inferInstanceAs (Decidable True)

/-! ## Assertions -/

/-- The target is within the soft limits and a 32-bit distance. -/
def InReach (target : ℤ) (s : PosSys) : Prop :=
  s.scale.posMinCounts ≤ target ∧ target ≤ s.scale.posMaxCounts ∧
    |target - s.pl.currentPos| < 2 ^ 31

/-- The loop runs, or a fault is recorded. -/
def Excused (s : PosSys) : Prop := s.pl.running = true ∨ s.drv.motor.faultState ≠ .none

/-- A fault was recorded away from the target and 0. -/
def FaultAway (cfg : PosConfig) (target : ℤ) (s : PosSys) : Prop :=
  s.drv.motor.faultState ≠ .none → AwayFrom cfg target s.pl.currentPos

/-- The target is the one requested, or the 0 of a stop. -/
def OnTarget (target : ℤ) (s : PosSys) : Prop :=
  s.pl.targetPos = target ∨ s.pl.targetPos = 0 ∧ s.pl.running = false

def Stopped (s : PosSys) : Prop := s.pl.running = false

/-- A loop that runs has no fault. -/
def Calm (s : PosSys) : Prop := s.pl.running = true → s.drv.motor.faultState = .none

def Faultless (s : PosSys) : Prop := s.drv.motor.faultState = .none

/-- What a move relies on. -/
def moveRely (cfg : PosConfig) (target : ℤ) : Set (PosSys → Prop) :=
  {InReach target, Excused, FaultAway cfg target, OnTarget target, Stopped}

/-- What a tick relies on. -/
def tickRely : Set (PosSys → Prop) := {Calm, Faultless, Stopped}

/-! ## Actions -/

/-- The action leaves `running`, the target, the position, the soft limits and the fault as they
are. -/
def PosAct.Plain : PosAct → Prop
  | .setRunning _ | .setTargetPos _ | .setCurrentPos _ | .updatePosMinCounts
  | .updatePosMaxCounts => False
  | .drv a => a ≠ .recordFault ∧ a ≠ .dropFault ∧ a ≠ .clearFault
  | _ => True

/-- The actions of the API calls. -/
def PosAct.OfCall (l : PosAct) : Prop :=
  l.Plain ∨ l = .setRunning false ∨ ∃ v, l = .setTargetPos v

/-- The actions of a tick, with what it knows about the fault. -/
def PosAct.OfTick (l : PosAct) (s : PosSys) : Prop :=
  l.OfCall ∨ l = .drv .recordFault ∨
    (l = .drv .dropFault ∨ ∃ v, l = .setCurrentPos v) ∧ Faultless s

theorem PosAct.Plain.eff {l : PosAct} (hl : l.Plain) (s : PosSys) :
    (l.eff s).pl.running = s.pl.running ∧ (l.eff s).pl.targetPos = s.pl.targetPos ∧
      (l.eff s).pl.currentPos = s.pl.currentPos ∧
      (l.eff s).scale.posMinCounts = s.scale.posMinCounts ∧
      (l.eff s).scale.posMaxCounts = s.scale.posMaxCounts ∧
      (l.eff s).drv.motor.faultState = s.drv.motor.faultState := by
  cases l with
  | drv a => exact ⟨rfl, rfl, rfl, rfl, rfl, MotorAct.faultState_eff hl.1 hl.2.1 hl.2.2 _⟩
  | _ => first | exact hl.elim | exact ⟨rfl, rfl, rfl, rfl, rfl, rfl⟩

theorem PosEnv.eff_frame (e : PosEnv) (s : PosSys) :
    (e.eff s).pl = s.pl ∧ (e.eff s).scale = s.scale ∧
      (e.eff s).drv.motor.faultState = s.drv.motor.faultState := by
  rcases e with (n | ⟨pin, high⟩) | d <;> exact ⟨rfl, rfl, rfl⟩

variable {cfg : PosConfig} {sqrtf : ℚ → ℚ} {target : ℤ}

/-- An orderly action of any other thread keeps what a move relies on. -/
theorem moveRely_eff {l : PosAct} {s : PosSys} (hl : l.OfTick s) (hok : l.Orderly cfg target s) :
    Keeps (moveRely cfg target) s (l.eff s) := by
  rcases hl with (hl | rfl | ⟨v, rfl⟩) | rfl | ⟨rfl | ⟨v, rfl⟩, hfault⟩
  · obtain ⟨hrun, htarget, hcur, hmin, hmax, hfault⟩ := hl.eff s
    rintro P (rfl | rfl | rfl | rfl | rfl) <;>
      simp only [InReach, Excused, FaultAway, OnTarget, Stopped, hrun, htarget, hcur, hmin, hmax,
        hfault] <;> exact id
  · rintro P (rfl | rfl | rfl | rfl | rfl) hs
    · exact hs
    · exact .inr hok
    · exact hs
    · exact hs.imp_right fun h => ⟨h.1, rfl⟩
    · rfl
  · rintro P (rfl | rfl | rfl | rfl | rfl) hs
    · exact hs
    · exact hs
    · exact hs
    · exact hok
    · exact hs
  · rintro P (rfl | rfl | rfl | rfl | rfl) hs
    · exact hs
    · exact .inr (by simp [PosAct.eff, MotorAct.eff])
    · exact fun _ => hok
    · exact hs
    · exact hs
  · rintro P (rfl | rfl | rfl | rfl | rfl) hs
    · exact hs
    · exact .inl (hs.resolve_right fun h => h hfault)
    · exact fun h => absurd rfl h
    · exact hs
    · exact hs
  · rintro P (rfl | rfl | rfl | rfl | rfl) hs
    · exact ⟨hs.1, hs.2.1, hok⟩
    · exact hs
    · exact fun h => absurd hfault h
    · exact hs
    · exact hs

/-- A call does not disturb what a tick relies on. -/
theorem tickRely_eff {l : PosAct} (hl : l.OfCall) (s : PosSys) : Keeps tickRely s (l.eff s) := by
  rcases hl with hl | rfl | ⟨v, rfl⟩
  · obtain ⟨hrun, -, -, -, -, hfault⟩ := hl.eff s
    rintro P (rfl | rfl | rfl) <;> simp only [Calm, Faultless, Stopped, hrun, hfault] <;> exact id
  · rintro P (rfl | rfl | rfl) hs
    · rintro ⟨⟩
    · exact hs
    · rfl
  · rintro P (rfl | rfl | rfl) hs <;> exact hs

theorem moveRely_env (e : PosEnv) (s : PosSys) : Keeps (moveRely cfg target) s (e.eff s) := by
  obtain ⟨hpl, hscale, hfault⟩ := e.eff_frame s
  rintro P (rfl | rfl | rfl | rfl | rfl) <;>
    simp only [InReach, Excused, FaultAway, OnTarget, Stopped, hpl, hscale, hfault] <;> exact id

theorem tickRely_env (e : PosEnv) (s : PosSys) : Keeps tickRely s (e.eff s) := by
  obtain ⟨hpl, -, hfault⟩ := e.eff_frame s
  rintro P (rfl | rfl | rfl) <;> simp only [Calm, Faultless, Stopped, hpl, hfault] <;> exact id

/-! ## The outline of a tick -/

/-- The outline of a program of the control thread. -/
abbrev ControlOutline {α : Type} (Q : α → PosSys → Prop) (p : PosProg α) (s : PosSys) : Prop :=
  p.Outline PosAct.eff tickRely (fun _ _ => True) PosAct.OfTick Q s

theorem controlOutline_faultless {α : Type} {p : PosProg α}
    (hp : p.All fun l => l.Plain ∨ ∃ v, l = .setCurrentPos v) {s : PosSys} (hs : Faultless s) :
    ControlOutline (fun _ => Faultless) p s := by
  refine .of_all (B := Faultless) hp (fun s s' hk => hk _ (by simp [tickRely])) ?_ hs
  rintro l (hl | ⟨v, rfl⟩) s hs -
  · exact ⟨.inl (.inl hl), (hl.eff s).2.2.2.2.2.trans hs⟩
  · exact ⟨.inr (.inr ⟨.inr ⟨v, rfl⟩, hs⟩), hs⟩

theorem controlOutline_stopped {α : Type} {p : PosProg α} (hp : p.All PosAct.OfCall) {s : PosSys}
    (hs : Stopped s) : ControlOutline (fun _ => Stopped) p s := by
  refine .of_all (B := Stopped) hp (fun s s' hk => hk _ (by simp [tickRely])) ?_ hs
  exact fun l hl s hs _ => ⟨.inl hl, tickRely_eff hl s _ (by simp [tickRely]) hs⟩

/-- `check_fault` of a motor without a fault: there is none either when it reports none. -/
theorem checkFault_faultless {s : PosSys} (hs : Faultless s) :
    ControlOutline (fun fault s => fault = false → Faultless s) (drv Motor.checkFault) s := by
  have hkeep : ∀ {s s' : PosSys}, Keeps tickRely s s' → Faultless s → Faultless s' :=
    fun hk => hk _ (by simp [tickRely])
  have hplain : ∀ {a : MotorAct} {s : PosSys}, a ≠ .recordFault → a ≠ .dropFault →
      a ≠ .clearFault → (PosAct.drv a).OfTick s :=
    fun h₁ h₂ h₃ => .inl (.inl ⟨h₁, h₂, h₃⟩)
  simp only [Motor.checkFault, drv_bind, drv_ask, drv_ite, drv_perform, pure_eq, drv_ret]
  refine .ask fun s₁ hk _ => ⟨hplain (by simp) (by simp) (by simp), ?_⟩
  have hs₁ := hkeep hk hs
  split_ifs
  · exact fun _ => hs₁
  refine .ask fun s₂ hk _ => ⟨hplain (by simp) (by simp) (by simp), ?_⟩
  have hs₂ := hkeep hk hs₁
  split_ifs
  · exact .perform fun s₃ hk _ => ⟨.inr (.inr ⟨.inl rfl, hkeep hk hs₂⟩), fun _ => rfl⟩
  · refine .ask fun s₃ hk _ => ⟨hplain (by simp) (by simp) (by simp), ?_⟩
    split_ifs
    · refine .perform fun _ _ _ => ⟨.inr (.inl rfl), .perform fun _ _ _ => ⟨?_, ?_⟩⟩
      · exact hplain (by simp) (by simp) (by simp)
      · exact .perform fun _ _ _ => ⟨hplain (by simp) (by simp) (by simp), by rintro ⟨⟩⟩
    · rintro ⟨⟩

theorem PosAct.Senses.plain_or {l : PosAct} (hl : l.Senses) :
    l.Plain ∨ ∃ v, l = .setCurrentPos v := by
  cases l with
  | setCurrentPos v => exact .inr ⟨v, rfl⟩
  | _ => first | exact .inl trivial | exact hl.elim

theorem PosAct.Regulates.plain {l : PosAct} (hl : l.Regulates) : l.Plain := by
  cases l with
  | drv a => cases a <;> simp_all [PosAct.Regulates, PosAct.Plain]
  | _ => first | exact trivial | exact hl.elim

theorem PosAct.Stops.ofCall {l : PosAct} (hl : l.Stops) : l.OfCall := by
  cases l with
  | setRunning on => exact .inr (.inl (congrArg _ hl))
  | setTargetPos v => exact .inr (.inr ⟨v, rfl⟩)
  | drv a =>
    obtain rfl : a = .stop := hl
    exact .inl (by simp [PosAct.Plain])
  | _ => first | exact .inl trivial | exact hl.elim

/-- A tick of a calm loop leaves it calm: it stops the loop when it records a fault. -/
theorem tick_calm {s : PosSys} (hs : Calm s) :
    ControlOutline (fun _ => Calm) (do
      tick cfg sqrtf
      return (none : Option ℤ)) s := by
  refine .bind ?_
  unfold tick readRunning
  refine .ask fun s hk _ => ⟨.inl (.inl trivial), ?_⟩
  have hs : Calm s := hk _ (by simp [tickRely]) hs
  split_ifs with hrun
  · have hsense := (sense_all cfg).imp fun _ hl => PosAct.Senses.plain_or hl
    refine .bind ((controlOutline_faultless hsense (hs hrun)).mono fun _ s hs => ?_)
    refine .bind ((checkFault_faultless hs).mono fun fault s hfault => ?_)
    cases fault with
    | true =>
      refine .perform fun s _ _ => ⟨.inl (.inr (.inl rfl)), ?_⟩
      have hstop : Stopped ((PosAct.setRunning false).eff s) := rfl
      refine (controlOutline_stopped ?_ hstop).mono fun _ s hs => ?_
      · simp [Motor.stop, Pid.reset, PosAct.OfCall, PosAct.Plain]
      · intro h
        rw [hs] at h
        cases h
    | false =>
      have hregulate := (regulate_all cfg sqrtf).imp fun _ hl => PosAct.Regulates.plain hl
      refine (controlOutline_faultless (hregulate.imp fun _ hl => ?_) (hfault rfl)).mono ?_
      · exact .inl hl
      · exact fun _ s hs _ => hs
  · refine (controlOutline_stopped ?_ (by simpa [Stopped] using hrun)).mono fun _ s hs => ?_
    · simp [PosAct.OfCall, PosAct.Plain]
    · intro h
      rw [hs] at h
      cases h

/-- The actions of the calls. -/
theorem MoveCall.all_ofCall (c : MoveCall) : (c.code cfg).All PosAct.OfCall := by
  have hround : ∀ timeoutMs deadline, (moveRound cfg timeoutMs deadline).All PosAct.OfCall := by
    simp [moveRound, isArrived, readTargetPos, readCurrentPos, Motor.expired, PosAct.OfCall,
      PosAct.Plain]
  have hset : ∀ target, (PosLoop.setTarget target).All PosAct.OfCall := by
    simp [PosLoop.setTarget, readRunning, readCurrentPos, Pid.reset, PosAct.OfCall, PosAct.Plain]
  cases c with
  | moveTo target timeoutMs polls =>
    have hpoll := fun deadline => (hround timeoutMs deadline).poll (n := polls)
    simp [code, PosLoop.moveTo, moveChecked, readRunning, Motor.deadlineAfter, hset, hpoll,
      PosAct.OfCall, PosAct.Plain]
  | stop =>
    have hstop := stop_all.imp fun _ hl => PosAct.Stops.ofCall hl
    simp [code, hstop]
  | setTarget target => simp [code, hset]

/-! ## The outline of a move -/

/-- What a move has established by its checks. -/
def Ready (cfg : PosConfig) (target : ℤ) (s : PosSys) : Prop :=
  InReach target s ∧ Excused s ∧ FaultAway cfg target s

/-- What a move has established when it looks at the target. -/
def Moving (cfg : PosConfig) (target : ℤ) (s : PosSys) : Prop :=
  Ready cfg target s ∧ OnTarget target s

/-- What the actions of a move find. -/
def movePre (cfg : PosConfig) (target : ℤ) (l : PosAct) (s : PosSys) : Prop :=
  l = .read .targetPos → Moving cfg target s

/-- The move has ended at its target, with the loop running and without a fault. -/
def Reached (cfg : PosConfig) (target : ℤ) (s : PosSys) : Prop :=
  s.pl.running = true ∧ s.drv.motor.faultState = .none ∧
    (|target - s.pl.currentPos| : ℚ) < cfg.moveThreshold

/-- The outline of a program of the moving thread. -/
abbrev MoveOutline (cfg : PosConfig) (target : ℤ) {α : Type} (Q : α → PosSys → Prop)
    (p : PosProg α) (s : PosSys) : Prop :=
  p.Outline PosAct.eff (moveRely cfg target) (fun _ _ => True) (movePre cfg target) Q s

section Keeps

variable {s s' : PosSys} (hk : Keeps (moveRely cfg target) s s')

include hk

theorem InReach.keep (hs : InReach target s) : InReach target s' :=
  hk _ (by simp [moveRely]) hs

theorem Stopped.keep (hs : Stopped s) : Stopped s' := hk _ (by simp [moveRely]) hs

theorem Excused.keep (hs : Excused s) : Excused s' := hk _ (by simp [moveRely]) hs

theorem FaultAway.keep (hs : FaultAway cfg target s) : FaultAway cfg target s' :=
  hk _ (by simp [moveRely]) hs

theorem OnTarget.keep (hs : OnTarget target s) : OnTarget target s' :=
  hk _ (by simp [moveRely]) hs

theorem Ready.keep (hs : Ready cfg target s) : Ready cfg target s' :=
  ⟨hs.1.keep hk, hs.2.1.keep hk, hs.2.2.keep hk⟩

theorem Moving.keep (hs : Moving cfg target s) : Moving cfg target s' :=
  ⟨hs.1.keep hk, hs.2.keep hk⟩

end Keeps

/-- Plain actions that do not look at the target leave a move ready. -/
theorem moveOutline_ready {α : Type} {p : PosProg α}
    (hp : p.All fun l => l.Plain ∧ l ≠ .read .targetPos) {s : PosSys} (hs : Ready cfg target s) :
    MoveOutline cfg target (fun _ => Ready cfg target) p s := by
  refine .of_all (B := Ready cfg target) hp (fun s s' hk hs => hs.keep hk) ?_ hs
  rintro l ⟨hl, hread⟩ s hs -
  refine ⟨fun h => absurd h hread, ?_⟩
  obtain ⟨hrun, -, hcur, hmin, hmax, hfault⟩ := hl.eff s
  simpa only [Ready, InReach, Excused, FaultAway, hrun, hcur, hmin, hmax, hfault] using hs

/-- Plain actions that do not look at the target leave a move as it is. -/
theorem moveOutline_moving {α : Type} {p : PosProg α}
    (hp : p.All fun l => l.Plain ∧ l ≠ .read .targetPos) {s : PosSys} (hs : Moving cfg target s) :
    MoveOutline cfg target (fun _ => Moving cfg target) p s := by
  refine .of_all (B := Moving cfg target) hp (fun s s' hk hs => hs.keep hk) ?_ hs
  rintro l ⟨hl, hread⟩ s hs -
  refine ⟨fun h => absurd h hread, ?_⟩
  obtain ⟨hrun, htarget, hcur, hmin, hmax, hfault⟩ := hl.eff s
  simpa only [Moving, Ready, InReach, Excused, FaultAway, OnTarget, hrun, htarget, hcur, hmin, hmax,
    hfault] using hs

/-- Within a 32-bit distance, a move that finds itself arrived is within the threshold. -/
theorem lt_threshold {current : ℤ} (h : |target - current| < 2 ^ 31)
    (harr : arrivedAt cfg target current = true) :
    (|target - current| : ℚ) < cfg.moveThreshold := by
  have hlt : |target - current| < toInt32 cfg.moveThreshold := by
    simpa [arrivedAt, sub32_of_abs_lt h, abs32_of_abs_lt h] using harr
  exact_mod_cast lt_of_lt_toInt32 (abs_nonneg _) hlt

/-- The test of arrival: it is right when it succeeds. -/
theorem isArrived_outline {s : PosSys} (hs : Moving cfg target s) :
    MoveOutline cfg target
      (fun arrived s => Moving cfg target s ∧ (arrived = true → Reached cfg target s))
      (isArrived cfg) s := by
  unfold isArrived readTargetPos readCurrentPos
  refine .ask fun s₁ hk _ => ⟨fun _ => hs.keep hk, ?_⟩
  have hs₁ := hs.keep hk
  refine .ask fun s₂ hk _ => ⟨by rintro ⟨⟩, hs₁.keep hk, fun harr => ?_⟩
  obtain ⟨⟨hreach, hexcused, haway⟩, -⟩ := hs₁.keep hk
  have hstale : s₁.pl.targetPos = target ∨ s₁.pl.targetPos = 0 ∧ Stopped s₂ :=
    hs₁.2.imp_right fun h => ⟨h.1, Stopped.keep hk h.2⟩
  -- a fault would have been recorded away from the target that was read
  have hfault : s₂.drv.motor.faultState = .none := by
    by_contra hne
    have h := haway hne
    rcases hstale with ht | ⟨ht, -⟩
    · simp [PosAct.eff, ht, h.1] at harr
    · simp [PosAct.eff, ht, h.2] at harr
  have hrun : s₂.pl.running = true := hexcused.resolve_right fun h => h hfault
  have ht : s₁.pl.targetPos = target := hstale.resolve_right fun h => by
    rw [Stopped, hrun] at h
    cases h.2
  exact ⟨hrun, hfault, lt_threshold hreach.2.2 (by simpa [PosAct.eff, ht] using harr)⟩

/-- A round goes on moving, or returns. -/
theorem moveRound_outline {timeoutMs deadline : ℕ} {s : PosSys} (hs : Moving cfg target s) :
    MoveOutline cfg target
      (fun o s => match o with
        | none => Moving cfg target s
        | some r => r = motorEOk → Reached cfg target s)
      (moveRound cfg timeoutMs deadline) s := by
  unfold moveRound
  refine .bind ((isArrived_outline hs).mono fun arrived s ⟨hs, harr⟩ => ?_)
  cases arrived with
  | true => exact fun _ => harr rfl
  | false =>
    refine .ask fun s hk _ => ⟨by rintro ⟨⟩, ?_⟩
    have hs : Moving cfg target s := hs.keep hk
    split_ifs
    · exact fun h => absurd h (by decide)
    refine .bind ((moveOutline_moving ?_ hs).mono fun late s hs => ?_)
    · simp [Motor.expired, PosAct.Plain]
    split_ifs
    · exact fun h => absurd h (by decide)
    · exact .perform fun s hk _ => ⟨by rintro ⟨⟩, hs.keep hk⟩

/-- `position_loop_set_target` of a target in range. -/
theorem setTarget_outline {s : PosSys} (hs : Ready cfg target s) :
    MoveOutline cfg target (fun _ => Moving cfg target) (PosLoop.setTarget target) s := by
  unfold PosLoop.setTarget readRunning
  refine .ask fun s hk _ => ⟨by rintro ⟨⟩, ?_⟩
  have hs : Ready cfg target s := hs.keep hk
  split_ifs with hmin
  · exact absurd hmin (not_lt.mpr hs.1.1)
  refine .ask fun s hk _ => ⟨by rintro ⟨⟩, ?_⟩
  have hs : Ready cfg target s := hs.keep hk
  split_ifs with hmax
  · exact absurd hmax (not_lt.mpr hs.1.2.1)
  refine .ask fun s hk _ => ⟨by rintro ⟨⟩, ?_⟩
  have hs : Ready cfg target s := hs.keep hk
  refine .bind ((moveOutline_ready ?_ hs).mono fun _ s hs => ?_)
  · simp [readCurrentPos, Pid.reset, PosAct.Plain]
  refine .perform fun s hk _ => ⟨by rintro ⟨⟩, ?_⟩
  have hs : Ready cfg target s := hs.keep hk
  have hset : Moving cfg target ((PosAct.setTargetPos target).eff s) := ⟨hs, .inl rfl⟩
  exact moveOutline_moving (by simp [PosAct.Plain]) hset

/-- The result of a move, and the state in which it ends. -/
def MoveResult (cfg : PosConfig) (target : ℤ) (r : Option ℤ) (s : PosSys) : Prop :=
  r = some motorEOk → Reached cfg target s

theorem moveTo_outline {timeoutMs polls : ℕ} {s : PosSys} (hs : InReach target s) :
    MoveOutline cfg target (MoveResult cfg target)
      (PosLoop.moveTo cfg target timeoutMs polls) s := by
  have herr : ∀ {ret : ℤ} {s : PosSys}, ret ≠ motorEOk →
      MoveResult cfg target (some ret) s :=
    fun hret h => absurd (Option.some.inj h) hret
  unfold PosLoop.moveTo readRunning
  refine .ask fun s₁ hk _ => ⟨by rintro ⟨⟩, ?_⟩
  have hs₁ : InReach target s₁ := hs.keep hk
  split_ifs with hrun
  · have hexcused : Excused s₁ := .inl hrun
    refine .ask fun s₂ hk _ => ⟨by rintro ⟨⟩, ?_⟩
    have hs₂ : InReach target s₂ := hs₁.keep hk
    split_ifs with hfault
    · exact herr (by decide)
    have hready : Ready cfg target s₂ := ⟨hs₂, hexcused.keep hk, fun h => absurd h hfault⟩
    refine .ask fun s₃ hk _ => ⟨by rintro ⟨⟩, ?_⟩
    have hready : Ready cfg target s₃ := hready.keep hk
    split_ifs
    · exact herr (by decide)
    refine .ask fun s₄ hk _ => ⟨by rintro ⟨⟩, ?_⟩
    have hready : Ready cfg target s₄ := hready.keep hk
    split_ifs
    · exact herr (by decide)
    unfold moveChecked
    refine .bind ((setTarget_outline hready).mono fun _ s hs => ?_)
    refine .bind ((moveOutline_moving ?_ hs).mono fun deadline s hs => ?_)
    · simp [Motor.deadlineAfter, PosAct.Plain]
    refine .poll (J := Moving cfg target) (fun s _ => by rintro ⟨⟩)
      (fun s hs => (moveRound_outline hs).mono fun o s h => ?_) hs
    cases o with
    | none => exact h
    | some ret => exact fun hret => h (Option.some.inj hret)
  · exact herr (by decide)

/-- The first actions of the wait. -/
theorem poll_moveRound (cfg : PosConfig) (timeoutMs deadline n : ℕ) : ∃ rest : PosProg (Option ℤ),
    poll (n + 1) (moveRound cfg timeoutMs deadline) =
      .act (.read .targetPos) fun s₁ => .act (.read .currentPos) fun s₂ =>
        if arrivedAt cfg s₁.pl.targetPos s₂.pl.currentPos then .ret (some motorEOk)
        else .act (.drv .testFault) fun s₃ =>
          if s₃.drv.motor.faultState ≠ .none then .ret (some motorEFault) else rest := by
  refine ⟨(do
    if ← drv (Motor.expired timeoutMs deadline) then return some motorEHomeTimeout
    else do
      perform .delay
      return none) >>= fun
    | none => poll n (moveRound cfg timeoutMs deadline)
    | some r => .ret (some r), ?_⟩
  simp only [poll, moveRound, isArrived, readTargetPos, readCurrentPos, ask_bind, act_bind, pure_eq,
    ret_bind]
  congr! 4
  split_ifs
  · rfl
  · simp only [act_bind]
    congr! 2
    split_ifs
    · rfl
    · exact congrArg _ (funext fun o => by cases o <;> rfl)

/-- A stopped loop: the next look of the move returns the fault. -/
theorem moveRound_within (timeoutMs deadline n : ℕ) {s : PosSys} (hs : Moving cfg target s)
    (hstop : Stopped s) :
    (poll (n + 1) (moveRound cfg timeoutMs deadline)).Within PosAct.eff (moveRely cfg target)
      (fun _ _ => True) (· = some motorEFault) 3 s := by
  obtain ⟨rest, hpoll⟩ := poll_moveRound cfg timeoutMs deadline n
  rw [hpoll]
  have hfault : ∀ {s : PosSys}, Moving cfg target s → Stopped s → s.drv.motor.faultState ≠ .none :=
    fun hs hstop => hs.1.2.1.resolve_left (by rw [hstop]; decide)
  intro s₁ hk _
  have hs₁ : Moving cfg target s₁ := hs.keep hk
  have hstop₁ : Stopped s₁ := hstop.keep hk
  intro s₂ hk _
  have hs₂ : Moving cfg target s₂ := hs₁.keep hk
  have hstop₂ : Stopped s₂ := hstop₁.keep hk
  have haway : arrivedAt cfg s₁.pl.targetPos s₂.pl.currentPos = false := by
    obtain ⟨htarget, hzero⟩ := hs₂.1.2.2 (hfault hs₂ hstop₂)
    rcases hs₁.2 with ht | ⟨ht, -⟩ <;> rw [ht]
    · exact htarget
    · exact hzero
  simp only [PosAct.eff, haway, Bool.false_eq_true, if_false]
  intro s₃ hk _
  have hne := hfault (hs₂.keep hk) (hstop₂.keep hk)
  simp only [PosAct.eff, MotorAct.eff, ne_eq, hne, not_false_eq_true, if_true]
  rfl

/-! ## Runs -/

/-- The control thread has its outline and leaves the loop calm; the others perform the actions of
their calls. -/
def MoveInv (p : Pool MoveThread PosAct PosSys (Option ℤ)) : Prop :=
  (∀ l, (p.thr .control).head = some l →
      ControlOutline (fun _ => Calm) (p.thr .control) p.st) ∧
    ((p.thr .control).head = none → Calm p.st) ∧
    ∀ t, (p.thr t).All fun l => t ≠ .control → l.OfCall

/-- Any thread but one: its next action is one of a tick or of a call. -/
theorem MoveInv.step_keeps {p : Pool MoveThread PosAct PosSys (Option ℤ)} (h : MoveInv p)
    {A : Set (PosSys → Prop)} {t : MoveThread}
    (hA : ∀ l, (p.thr t).head = some l → l.OfTick p.st → (t ≠ .control → l.OfCall) →
      Keeps A p.st (l.eff p.st)) :
    Keeps A p.st ((moveMachine cfg sqrtf).next p (.step t)).st := by
  refine Machine.st_next (I := Keeps A p.st) (Keeps.refl _ _) (.step t) fun l hl => ?_
  cases t with
  | control => exact hA l hl ((h.1 l hl).step hl trivial).1 fun h => absurd rfl h
  | caller i =>
    have hcall : l.OfCall := (h.2.2 (.caller i)).head hl (by simp)
    exact hA l hl (.inl hcall) fun _ => hcall

theorem moveInv_next (p : Pool MoveThread PosAct PosSys (Option ℤ))
    (e : Event MoveThread MoveCall PosEnv) (h : MoveInv p) :
    MoveInv ((moveMachine cfg sqrtf).next p e) := by
  obtain ⟨houtline, hcalm, hall⟩ := h
  have hcode : ∀ t c, ((moveMachine cfg sqrtf).code t c).All fun l => t ≠ .control → l.OfCall := by
    intro t c
    cases t with
    | control => exact (all_true _).imp fun _ _ h => absurd rfl h
    | caller i => exact c.all_ofCall.imp fun _ hl _ => hl
  have hkeep : ∀ t, t ≠ .control →
      Keeps tickRely p.st ((moveMachine cfg sqrtf).next p (.step t)).st := fun t ht =>
    MoveInv.step_keeps ⟨houtline, hcalm, hall⟩ fun l _ _ hcall => tickRely_eff (hcall ht) p.st
  refine ⟨Machine.outline_next houtline e ?_, ?_, fun t => ?_⟩
  · cases e with
    | call t c =>
      rintro rfl r hr
      exact tick_calm (hcalm (by simp [hr]))
    | step t => exact ⟨fun _ _ _ => trivial, hkeep t⟩
    | env e => exact tickRely_env e p.st
  · cases e with
    | call t c =>
      cases hpt : p.thr t with
      | act l k => simpa only [Machine.next_call_of_act _ hpt] using hcalm
      | ret r =>
        rw [Machine.next_call_of_ret _ hpt]
        rcases eq_or_ne t .control with rfl | ht
        · exact fun _ => hcalm (by simp [hpt])
        · simpa [ht.symm] using hcalm
    | step t =>
      rcases eq_or_ne t .control with rfl | ht
      · cases hl : (p.thr .control).head with
        | none =>
          rw [Machine.next_step_of_none _ hl]
          exact hcalm
        | some l =>
          intro hnone
          obtain ⟨r, hr⟩ := exists_of_head_eq_none hnone
          have hstep := ((houtline l hl).step hl trivial).2
          simp only [Machine.next, moveMachine, Function.update_self] at hr ⊢
          rwa [hr] at hstep
      · intro hnone
        have hthr : ((moveMachine cfg sqrtf).next p (.step t)).thr .control = p.thr .control := by
          simp [Machine.next, ht.symm]
        exact hkeep t ht Calm (by simp [tickRely]) (hcalm (hthr ▸ hnone))
    | env e => exact fun hnone => tickRely_env e p.st Calm (by simp [tickRely]) (hcalm hnone)
  · exact Machine.all_next (fun _ _ => True) (fun t c _ => hcode t c) hall e
      (by cases e <;> trivial) t

/-- What the events of an orderly run mean for the moving thread. -/
theorem orderly_keeps (sqrtf : ℚ → ℚ) {i : ℕ} (p : Pool MoveThread PosAct PosSys (Option ℤ))
    (e : Event MoveThread MoveCall PosEnv) : MoveInv p ∧ Orderly cfg target i p e →
    match e with
    | .call u _ => u ≠ .caller i
    | .step u =>
      (u = .caller i → ∀ l, (p.thr (.caller i)).head = some l → (fun _ _ => True) l p.st) ∧
        (u ≠ .caller i →
          Keeps (moveRely cfg target) p.st ((moveMachine cfg sqrtf).next p e).st)
    | .env _ => Keeps (moveRely cfg target) p.st ((moveMachine cfg sqrtf).next p e).st := by
  rintro ⟨hinv, hord⟩
  cases e with
  | call u c => exact hord
  | step u =>
    exact ⟨fun _ _ _ => trivial, fun _ => hinv.step_keeps fun l hl htick _ =>
      moveRely_eff htick (hord l hl)⟩
  | env e => exact moveRely_env e p.st

/-- The thread `i` is in a move to `target` that the others do not mislead, or is free. -/
def MoverInv (cfg : PosConfig) (target : ℤ) (i : ℕ)
    (p : Pool MoveThread PosAct PosSys (Option ℤ)) : Prop :=
  MoveInv p ∧ ∀ l, (p.thr (.caller i)).head = some l →
    MoveOutline cfg target (MoveResult cfg target) (p.thr (.caller i)) p.st

theorem moverInv_next {i : ℕ} (p : Pool MoveThread PosAct PosSys (Option ℤ))
    (e : Event MoveThread MoveCall PosEnv) (h : MoverInv cfg target i p)
    (he : Orderly cfg target i p e) : MoverInv cfg target i ((moveMachine cfg sqrtf).next p e) := by
  refine ⟨moveInv_next p e h.1, Machine.outline_next h.2 e ?_⟩
  have hkeeps := orderly_keeps sqrtf p e ⟨h.1, he⟩
  cases e with
  | call u c => exact fun hu => absurd hu hkeeps
  | step u => exact hkeeps
  | env e => exact hkeeps

theorem moverInv_call {i timeoutMs polls : ℕ} {p : Pool MoveThread PosAct PosSys (Option ℤ)}
    (hp : MoveInv p) (hfree : (p.thr (.caller i)).head = none) (hreach : InReach target p.st) :
    MoverInv cfg target i
      ((moveMachine cfg sqrtf).next p (.call (.caller i) (.moveTo target timeoutMs polls))) := by
  refine ⟨moveInv_next p _ hp, fun l _ => ?_⟩
  obtain ⟨r, hr⟩ := exists_of_head_eq_none hfree
  rw [Machine.next_call_of_ret _ hr]
  simpa [moveMachine, MoveCall.code] using moveTo_outline hreach

/-- **The result of a blocking move.** Let a move to `target` be called at any point of a run of a
calm loop, and the run be orderly from there on. If the move returns `MOTOR_E_OK`, then at its last
look at the position the loop runs, has no fault, and is closer to `target` than the threshold. If
it is about to look and the loop is stopped, it returns `MOTOR_E_FAULT` within three actions. -/
theorem moveTo_result (cfg : PosConfig) (sqrtf : ℚ → ℚ) (s : PosSys) (hs : Calm s)
    (es₁ es₂ : List (Event MoveThread MoveCall PosEnv)) (i : ℕ) (target : ℤ)
    (timeoutMs polls : ℕ) :
    let m := moveMachine cfg sqrtf
    let p := m.run (.idle s none) es₁
    let p' := m.next p (.call (.caller i) (.moveTo target timeoutMs polls))
    let q := m.run p' es₂
    (p.thr (.caller i)).head = none → InReach target p.st →
    m.Along (Orderly cfg target i) p' es₂ →
      ((q.thr (.caller i)).head ≠ none →
        (m.next q (.step (.caller i))).thr (.caller i) = .ret (some motorEOk) →
          Reached cfg target (m.next q (.step (.caller i))).st) ∧
      ∀ deadline n es₃,
        q.thr (.caller i) = poll (n + 1) (moveRound cfg timeoutMs deadline) →
        q.st.pl.running = false → m.Along (Orderly cfg target i) q es₃ →
        3 ≤ Machine.stepsOf (.caller i) es₃ →
          (m.run q es₃).thr (.caller i) = .ret (some motorEFault) := by
  intro m p p' q hfree hreach hes₂
  have hidle : MoveInv (.idle s none : Pool MoveThread PosAct PosSys (Option ℤ)) :=
    ⟨fun l hl => (by cases hl), fun _ => hs, fun _ => trivial⟩
  have hp : MoveInv p := m.run_of_next moveInv_next hidle es₁
  have hq : MoverInv cfg target i q :=
    Machine.run_inv moverInv_next (moverInv_call hp hfree hreach) hes₂
  refine ⟨fun hbusy hret => ?_, fun deadline n es₃ hpoll hstop hes₃ hn => ?_⟩
  · obtain ⟨l, hl⟩ := Option.ne_none_iff_exists'.mp hbusy
    have hstep := ((hq.2 l hl).step hl trivial).2
    simp only [Machine.next, m, moveMachine, Function.update_self] at hret ⊢
    rw [hret] at hstep
    exact hstep rfl
  · have hl : (q.thr (.caller i)).head = some (.read .targetPos) := by rw [hpoll]; rfl
    have hmoving : Moving cfg target q.st := ((hq.2 _ hl).step hl trivial).1 rfl
    have hwithin := moveRound_within timeoutMs deadline n hmoving hstop
    rw [← hpoll] at hwithin
    have hes₃ := Machine.along_inv moveInv_next hq.1 hes₃
    obtain ⟨r, hr, rfl⟩ := Machine.within_run (fun p e h => by
      have hkeeps := orderly_keeps sqrtf p e h
      cases e <;> exact hkeeps) hwithin hes₃ hn
    exact hr

/-- The configuration of the runs below: a threshold of 10 counts. -/
def plainPos : PosConfig := ⟨50, 1000, 10, 200, false, 50, 1000⟩

/-- A loop with fault pin 5 and limits 0 and 2000, started at the position `d`. -/
def startedAt (d : ℤ) : PosSys :=
  ((start plainPos).exec PosAct.eff { (default : PosSys) with
    scale := .init 1 0 2000
    enc := (default : Encoder).turn d
    drv := MotorSys.zeroed.init 200000000 5 false }).2

/-- A tick. -/
def moveTick : List (Event MoveThread MoveCall PosEnv) :=
  .call .control .stop :: List.replicate 70 (.step .control)

/-- After the call of a move to 1000: a tick, a first look, another thread asks for the same target,
and the motor comes to 995; up to the next look at the position. -/
def arriving : List (Event MoveThread MoveCall PosEnv) :=
  List.replicate 18 (.step (.caller 0)) ++ moveTick ++ List.replicate 4 (.step (.caller 0)) ++
    .call (.caller 1) (.setTarget 1000) :: List.replicate 14 (.step (.caller 1)) ++
    .env (.turn 995) :: moveTick ++ [.step (.caller 0)]

/-- After the call of a move to 1000: the motor comes to 500, and then a fault stops the loop. -/
def faulty : List (Event MoveThread MoveCall PosEnv) :=
  List.replicate 18 (.step (.caller 0)) ++ .env (.turn 500) :: moveTick ++
    .env (.drv (.level 5 false)) :: moveTick

set_option maxRecDepth 10000 in
/-- A move that arrives, and one whose loop a fault stops. -/
theorem moveTo_result_both :
    let m := moveMachine plainPos fun _ => 0
    let p := m.next (m.run (.idle (startedAt 0) none) []) (.call (.caller 0) (.moveTo 1000 0 5))
    let q := m.next (m.run p arriving) (.step (.caller 0))
    let q' := m.run (m.run p faulty) (moveTick ++ List.replicate 3 (.step (.caller 0)))
    (q.thr (.caller 0) = .ret (some motorEOk) ∧ Reached plainPos 1000 q.st) ∧
      q'.thr (.caller 0) = .ret (some motorEFault) := by
  intro m p q q'
  have hcalm : Calm (startedAt 0) := fun _ => by decide +kernel
  have hreach : InReach 1000 (startedAt 0) := by
    refine ⟨?_, ?_, ?_⟩ <;> decide +kernel
  have hok : q.thr (.caller 0) = .ret (some motorEOk) :=
    Prog.eq_ret_of_value? (by decide +kernel)
  have harriving := moveTo_result plainPos (fun _ => 0) (startedAt 0) hcalm [] arriving 0 1000 0 5
    rfl hreach (by decide +kernel)
  have hfaulty := moveTo_result plainPos (fun _ => 0) (startedAt 0) hcalm [] faulty 0 1000 0 5
    rfl hreach (by decide +kernel)
  refine ⟨⟨hok, harriving.1 (by decide +kernel) hok⟩, hfaulty.2 0 4 _ ?_ ?_ ?_ ?_⟩
  · with_unfolding_all rfl
  · decide +kernel
  · decide +kernel
  · decide

/-- A move to 1000, up to its first look at the target. -/
def longMove : List (Event MoveThread MoveCall PosEnv) :=
  .call (.caller 0) (.moveTo 1000 0 5) :: List.replicate 18 (.step (.caller 0))

/-- A fault near 0 is reported as arrival at 1000; a move whose loop another thread stops goes on
waiting. -/
theorem moveTo_misled :
    let m := moveMachine plainPos fun _ => 0
    let p := m.run (.idle (startedAt 0) none)
      (longMove ++ .env (.drv (.level 5 false)) :: .call .control .stop ::
        List.replicate 23 (.step .control) ++ List.replicate 2 (.step (.caller 0)))
    let q := m.run (.idle (startedAt 500) none)
      (longMove ++ .call (.caller 1) .stop :: List.replicate 12 (.step (.caller 1)) ++
        List.replicate 4 (.step (.caller 0)))
    (p.thr (.caller 0)).value? = some (some motorEOk) ∧ p.st.pl.currentPos = 0 ∧
      p.st.drv.motor.faultState = .driver ∧ p.st.pl.running = false ∧
      (q.thr (.caller 0)).head = some (.read .targetPos) ∧ q.st.pl.running = false ∧
      q.st.pl.currentPos = 500 := by
  refine ⟨?_, ?_, ?_, ?_, ?_, ?_, ?_⟩ <;> decide +kernel

end H750Stepper
