import H750Stepper.Lib.Pool
import H750Stepper.OpenLoop.OpenLoop
import H750Stepper.Position.PositionLoop
import H750Stepper.Speed.SpeedLoop

/-!
# Stopping a control loop

Each of the three controllers has a control thread, which tests `running` once, at the head of its
tick, and a stop function, which clears `running` and stops the motor. Nothing keeps the stop
function from running between that test and the `set_frequency` at the end of the tick.

`loops_stop_final`: the stop is final for all three controllers if, when it stops the motor, the
control thread either has not tested `running` yet or will not command a frequency any more.
`loops_restart`: otherwise the tick switches the output on again, and the later ticks of the stopped
loop leave it on.
-/

namespace H750Stepper

open Threads

/-- The threads of a control loop. -/
inductive LoopThread where
  | control | api
  deriving DecidableEq

/-- What the controllers have in common: a control thread that runs `tick`, another one that calls
`stop`, a motor that only driver actions change, and the flag `running`. -/
structure Controller (E L σ : Type) where
  eff : L → σ → σ
  env : E → σ → σ
  tick : Prog L σ Unit
  stop : Prog L σ Unit
  drv : σ → MotorSys
  running : σ → Bool
  /-- The driver action that an action is. -/
  motorAct : L → Option MotorAct
  /-- The action sets `running`. -/
  raises : L → Prop
  drv_eff : ∀ l s, drv (eff l s) = match motorAct l with
    | some a => a.eff (drv s)
    | none => drv s
  running_eff : ∀ l s, ¬raises l → running s = false → running (eff l s) = false
  motor_env : ∀ e s, (drv (env e s)).motor = (drv s).motor
  running_env : ∀ e s, running (env e s) = running s
  tick_all : tick.All fun l => ¬raises l
  /-- `stop` clears `running` before it does anything else. -/
  stop_first : ∃ l k, stop = .act l k ∧ motorAct l = none ∧ ∀ s, running (eff l s) = false
  stop_all : stop.All fun l => ¬raises l ∧ ∀ a, motorAct l = some a → a.Quiet
  /-- The tick of a stopped loop leaves the motor alone. -/
  tick_stopped : tick.Safe eff (fun _ _ => True) fun s => running s = false ∧ (drv s).Off

namespace Controller

variable {E L σ : Type} (C : Controller E L σ)

/-- The action neither sets `running` nor switches the output on. -/
def Quiet (l : L) : Prop := ¬C.raises l ∧ ∀ a, C.motorAct l = some a → a.Quiet

/-- The control thread is before its test of `running`, or past its last nonzero frequency. -/
def Settled (p : Prog L σ Unit) : Prop := p = C.tick ∨ p.All C.Quiet

/-- A program with one action left. -/
theorem quiet_last {p : Prog L σ Unit} (l : L) (hp : p = .act l fun _ => .ret ())
    (hl : C.Quiet l) : p.All C.Quiet := by
  rw [hp]
  exact ⟨hl, fun _ => trivial⟩

/-- The two threads, each with its function. -/
def machine : Machine LoopThread Unit E L σ Unit where
  eff := C.eff
  code
    | .control, _ => C.tick
    | .api, _ => C.stop
  env := C.env

/-- The stop is final when the control thread is settled at the moment the motor is stopped: in
every run from a state in which both threads are free, the motor stays off. -/
def StopFinal : Prop :=
  ∀ (s : σ) (es es' : List (Event LoopThread Unit E)) (l : L),
    let p := C.machine.run (.idle s ()) es
    (p.thr .api).head = some l → C.motorAct l = some .stop → C.Settled (p.thr .control) →
      (C.drv (C.machine.run p (.step .api :: es')).st).Off

/-- The bound on what the threads may still do. -/
def Allowed : LoopThread → L → Prop
  | .control, l => ¬C.raises l
  | .api, l => C.Quiet l

theorem code_all (t : LoopThread) (c : Unit) : (C.machine.code t c).All (C.Allowed t) := by
  cases t with
  | control => exact C.tick_all
  | api => exact C.stop_all

/-- A stopped loop stays stopped; the API thread is about to clear `running` or has done so. -/
def StopInv (p : Pool LoopThread L σ Unit) : Prop :=
  (∀ t, (p.thr t).All (C.Allowed t)) ∧
    ((p.thr .api).head = none ∨ p.thr .api = C.stop ∨ C.running p.st = false)

theorem stopInv_idle (s : σ) : C.StopInv (.idle s ()) := ⟨fun _ => trivial, .inl rfl⟩

theorem stopInv_next (p : Pool LoopThread L σ Unit) (e : Event LoopThread Unit E)
    (h : C.StopInv p) : C.StopInv (C.machine.next p e) := by
  refine ⟨Machine.all_next (fun _ _ => True) (fun t c _ => C.code_all t c) h.1 e
    (by cases e <;> trivial), ?_⟩
  cases e with
  | call t c =>
    cases hpt : p.thr t with
    | act l k => rw [Machine.next_call_of_act _ hpt]; exact h.2
    | ret r =>
      rw [Machine.next_call_of_ret _ hpt]
      cases t with
      | control => simpa using h.2
      | api => exact .inr (.inl (by simp [machine]))
  | env e =>
    refine h.2.imp_right (Or.imp_right fun hrun => ?_)
    exact (C.running_env e p.st).trans hrun
  | step t =>
    cases hh : (p.thr t).head with
    | none =>
      rw [Machine.next_step_of_none _ hh]
      exact h.2
    | some l =>
      obtain ⟨k, hk⟩ := Prog.exists_of_head_eq_some hh
      have hst : (C.machine.next p (.step t)).st = C.eff l p.st := Machine.next_step_st _ hh
      have hl : ¬C.raises l := by
        have := (h.1 t).head hh
        cases t with
        | control => exact this
        | api => exact this.1
      cases t with
      | control =>
        have happ : (C.machine.next p (.step .control)).thr .api = p.thr .api := by
          simp [Machine.next]
        rw [happ, hst]
        exact h.2.imp_right (Or.imp_right (C.running_eff l p.st hl))
      | api =>
        rw [hst]
        rcases h.2 with hnone | hstop | hrun
        · rw [hnone] at hh; cases hh
        · obtain ⟨l', k', hfirst, -, hclear⟩ := C.stop_first
          rw [hstop, hfirst] at hk
          obtain ⟨rfl, -⟩ := Prog.act.inj hk
          exact .inr (.inr (hclear _))
        · exact .inr (.inr (C.running_eff l p.st hl hrun))

/-- The motor is off, the loop is stopped, and no thread will change that. -/
def Stopped (s : σ) : Prop := C.running s = false ∧ (C.drv s).Off

theorem stopped_of_quiet (l : L) (hl : C.Quiet l) (s : σ) (hs : C.Stopped s) :
    C.Stopped (C.eff l s) := by
  refine ⟨C.running_eff l s hl.1 hs.1, ?_⟩
  rw [C.drv_eff]
  cases hact : C.motorAct l with
  | none => exact hs.2
  | some a => exact (hl.2 a hact).off hs.2

theorem safe_of_quiet {p : Prog L σ Unit} (hp : p.All C.Quiet) :
    p.Safe C.eff (fun _ _ => True) C.Stopped :=
  Prog.Safe.of_all hp fun l hl s hs _ => C.stopped_of_quiet l hl s hs

theorem safe_next (p : Pool LoopThread L σ Unit) (e : Event LoopThread Unit E)
    (h : C.Stopped p.st ∧ ∀ t, (p.thr t).Safe C.eff (fun _ _ => True) C.Stopped) :
    C.Stopped (C.machine.next p e).st ∧
      ∀ t, ((C.machine.next p e).thr t).Safe C.eff (fun _ _ => True) C.Stopped := by
  refine Machine.safe_next (M := C.machine) (fun _ _ => True) (fun _ _ => True)
    (fun e s _ hs => ?_) (fun t c _ => ?_) h.1 h.2 e (by cases e <;> simp)
  · refine ⟨(C.running_env e s).trans hs.1, ?_⟩
    have hmotor : (C.drv (C.env e s)).motor = (C.drv s).motor := C.motor_env e s
    exact ⟨hmotor ▸ hs.2.1, hmotor ▸ hs.2.2⟩
  · cases t with
    | control => exact C.tick_stopped
    | api => exact C.safe_of_quiet C.stop_all

theorem stop_final : C.StopFinal := by
  intro s es es' l p hl hstop hset
  obtain ⟨hall, hrun⟩ := C.machine.run_of_next C.stopInv_next (C.stopInv_idle s) es
  obtain ⟨k, hk⟩ := Prog.exists_of_head_eq_some hl
  have hrun : C.running p.st = false := by
    rcases hrun with hnone | heq | hrun
    · rw [hnone] at hl; cases hl
    · obtain ⟨l', k', hfirst, hact, -⟩ := C.stop_first
      rw [heq, hfirst] at hk
      obtain ⟨rfl, -⟩ := Prog.act.inj hk
      rw [hact] at hstop; cases hstop
    · exact hrun
  have hquiet : (p.thr .api).All C.Quiet := hall .api
  have hstopped : C.Stopped (C.eff l p.st) := by
    refine ⟨C.running_eff l p.st (hquiet.head hl).1 hrun, ?_⟩
    rw [C.drv_eff, hstop]
    exact MotorSys.stopSection_off _
  refine (C.machine.run_of_next C.safe_next (p := C.machine.next p (.step .api)) ⟨?_, ?_⟩ es').1.2
  · rw [Machine.next_step_st _ hl]
    exact hstopped
  · intro t
    cases t with
    | control =>
      have hcontrol : (C.machine.next p (.step .api)).thr .control = p.thr .control := by
        simp [Machine.next]
      rw [hcontrol]
      rcases hset with heq | hset
      · rw [heq]; exact C.tick_stopped
      · exact C.safe_of_quiet hset
    | api =>
      refine C.safe_of_quiet ?_
      simpa [Machine.next] using hquiet.step C.machine.eff p.st

end Controller

/-! ## The three controllers -/

section Position

open PosLoop

/-- The position loop. -/
def posController (cfg : PosConfig) (sqrtf : ℚ → ℚ) : Controller PosEnv PosAct PosSys where
  eff := PosAct.eff
  env := PosEnv.eff
  tick := tick cfg sqrtf
  stop := stop
  drv s := s.drv
  running s := s.pl.running
  motorAct
    | .drv a => some a
    | _ => none
  raises l := l = .setRunning true
  drv_eff l s := by cases l <;> rfl
  running_eff l s hl hs := by cases l <;> simp_all [PosAct.eff]
  motor_env e s := by
    rcases e with (e | e) | d <;> rfl
  running_env e s := by cases e <;> rfl
  tick_all := by
    have hsense : (sense cfg).All fun l => l ≠ .setRunning true :=
      (sense_all cfg).imp fun l hl h => by simp [h, PosAct.Senses] at hl
    have hregulate : (regulate cfg sqrtf).All fun l => l ≠ .setRunning true :=
      (regulate_all cfg sqrtf).imp fun l hl h => by simp [h, PosAct.Regulates] at hl
    have hstop : stop.All fun l => l ≠ .setRunning true :=
      stop_all.imp fun l hl h => by simp [h, PosAct.Stops] at hl
    simp [tick, readRunning, hsense, hregulate, hstop]
  stop_first := ⟨_, _, rfl, rfl, fun _ => rfl⟩
  stop_all := by simp [stop, Motor.stop, MotorAct.Quiet]
  tick_stopped := by
    rintro s ⟨hrun, hoff⟩ -
    refine ⟨⟨hrun, hoff⟩, ?_⟩
    have hread : (PosAct.read .running).eff s = s := rfl
    simp only [hread, hrun]
    exact fun s hs _ => ⟨hs, fun s hs _ => ⟨hs, fun s hs _ => ⟨hs, trivial⟩⟩⟩

end Position

section Speed

open SpeedLoop

/-- The speed loop. -/
def speedController (cfg : SpeedConfig) : Controller SpeedEnv SpeedAct SpeedSys where
  eff := SpeedAct.eff
  env := SpeedEnv.eff
  tick := tick cfg
  stop := stop
  drv s := s.drv
  running s := s.sl.running
  motorAct
    | .drv a => some a
    | _ => none
  raises l := l = .setRunning true
  drv_eff l s := by cases l <;> rfl
  running_eff l s hl hs := by cases l <;> simp_all [SpeedAct.eff]
  motor_env e s := by
    rcases e with (e | e) | d <;> rfl
  running_env e s := by cases e <;> rfl
  tick_all := by
    simp [tick, measureSpeed, ramp, output, encRead, readRunning, readLastEnc, readCurrentSpeed,
      readRampTarget, readRampCurrent]
  stop_first := ⟨_, _, rfl, rfl, fun _ => rfl⟩
  stop_all := by simp [stop, Motor.stop, MotorAct.Quiet]
  tick_stopped := by
    rintro s ⟨hrun, hoff⟩ -
    refine ⟨⟨hrun, hoff⟩, ?_⟩
    have hread : (SpeedAct.read .running).eff s = s := rfl
    simp only [hread, hrun]
    exact fun s hs _ => ⟨hs, fun s hs _ => ⟨hs, fun s hs _ => ⟨hs, trivial⟩⟩⟩

end Speed

section Open

open OpenLoop

/-- The open-loop controller. -/
def openController (cfg : OpenConfig) : Controller MotorEnv OpenAct OpenSys where
  eff := OpenAct.eff
  env e s := { s with drv := e.eff s.drv }
  tick := tick cfg
  stop := stop
  drv s := s.drv
  running s := s.ol.running
  motorAct
    | .drv a => some a
    | _ => none
  raises l := l = .setRunning true
  drv_eff l s := by cases l <;> rfl
  running_eff l s hl hs := by cases l <;> simp_all [OpenAct.eff]
  motor_env e s := by cases e <;> rfl
  running_env e s := rfl
  tick_all := by
    simp [tick, decelPoint, advance, advance.outputFreq, ramp, readRunning, readPosMode,
      readTotalSteps, readAccSteps, readCurrentFreq, readTargetFreq, readDirection]
  stop_first := ⟨_, _, rfl, rfl, fun _ => rfl⟩
  stop_all := by simp [stop, Motor.stop, MotorAct.Quiet]
  tick_stopped := by
    rintro s ⟨hrun, hoff⟩ -
    refine ⟨⟨hrun, hoff⟩, ?_⟩
    have hread : (OpenAct.read .running).eff s = s := rfl
    simp only [hread, hrun]
    exact fun s hs _ => ⟨hs, fun s hs _ => ⟨hs, trivial⟩⟩

end Open

/-- A driver whose output has been started. -/
def startedMotor : MotorSys := (MotorSys.zeroed.init 200000000 (-1) false).startSection

/-- A position loop that runs, 10 counts before its target. -/
def movingPos : PosSys :=
  { (default : PosSys) with
    pl := { (default : PosLoop) with running := true, targetPos := 10 }
    drv := startedMotor }

/-- A speed loop that runs, at rest, with the target 500 Hz. -/
def movingSpeed : SpeedSys :=
  { (default : SpeedSys) with
    sl := { (default : SpeedLoop) with running := true }
    pid := { (default : Pid) with target := 500, kp := 1 }
    drv := startedMotor }

/-- An open-loop controller that runs, at rest, with the target 500 Hz. -/
def movingOpen : OpenSys :=
  { (default : OpenSys) with
    ol := { (default : OpenLoop) with running := true, targetFreq := 500 }
    drv := startedMotor }

/-- A tick of `k` actions, and a stop that comes to the stop of the motor. -/
def untilStop {E : Type} (k : ℕ) : List (Event LoopThread Unit E) :=
  .call .control () :: List.replicate k (.step .control) ++ [.call .api (), .step .api]

/-- The end of a tick, and another one. -/
def afterStop {E : Type} : List (Event LoopThread Unit E) :=
  List.replicate 4 (.step .control) ++ .call .control () :: List.replicate 4 (.step .control)

/-- A stop of `n` actions after `k` actions of a tick, which then ends; then a tick of the stopped
loop. -/
def stopInTick {E : Type} (k n : ℕ) : List (Event LoopThread Unit E) :=
  .call .control () :: List.replicate k (.step .control) ++
    .call .api () :: List.replicate n (.step .api) ++
    .step .control :: .call .control () :: List.replicate 4 (.step .control)

/-- **Stop is final** for each controller, when the control thread is settled at the stop. -/
theorem loops_stop_final (pcfg : PosConfig) (sqrtf : ℚ → ℚ) (scfg : SpeedConfig)
    (ocfg : OpenConfig) :
    (posController pcfg sqrtf).StopFinal ∧ (speedController scfg).StopFinal ∧
      (openController ocfg).StopFinal :=
  ⟨Controller.stop_final _, Controller.stop_final _, Controller.stop_final _⟩

set_option maxRecDepth 4000 in
/-- A tick of a position loop at its target and of an open loop without one, stopped before the
frequency 0 that is all they still command; a tick of a speed loop, stopped before its test. -/
theorem loops_stop_final_settled :
    let pos := posController ⟨50, 1000, 10, 200, false, 50, 1000⟩ fun _ => 0
    let speed := speedController ⟨50, 1000, 10, 200, 1, false⟩
    let ol := openController ⟨50, 200⟩
    let arrived := { movingPos with pl.targetPos := 0 }
    let resting := { movingOpen with ol.targetFreq := 0 }
    (pos.drv (pos.machine.run (pos.machine.run (.idle arrived ()) (untilStop 23))
        (.step .api :: afterStop)).st).Off ∧
      (speed.drv (speed.machine.run (speed.machine.run (.idle movingSpeed ()) (untilStop 0))
        (.step .api :: afterStop)).st).Off ∧
      (ol.drv (ol.machine.run (ol.machine.run (.idle resting ()) (untilStop 12))
        (.step .api :: afterStop)).st).Off := by
  obtain ⟨hpos, hspeed, hopen⟩ :=
    loops_stop_final ⟨50, 1000, 10, 200, false, 50, 1000⟩ (fun _ => 0)
      ⟨50, 1000, 10, 200, 1, false⟩ ⟨50, 200⟩
  unfold Controller.StopFinal at hpos hspeed hopen
  dsimp only at hpos hspeed hopen ⊢
  refine ⟨hpos _ (untilStop 23) afterStop (.drv .stop) ?_ rfl (.inr ?_),
    hspeed _ (untilStop 0) afterStop (.drv .stop) rfl rfl (.inl rfl),
    hopen _ (untilStop 12) afterStop (.drv .stop) ?_ rfl (.inr ?_)⟩
  · with_unfolding_all rfl
  · exact Controller.quiet_last _ (.drv (.setFrequency 0)) (by with_unfolding_all rfl)
      ⟨nofun, by rintro a ⟨⟩; rfl⟩
  · with_unfolding_all rfl
  · exact Controller.quiet_last _ (.drv (.setFrequency 0)) (by with_unfolding_all rfl)
      ⟨nofun, by rintro a ⟨⟩; rfl⟩

/-- Both calls have returned, the loop is stopped, and the motor runs at the frequency `f`. -/
def Controller.RunsOn {E L σ : Type} (C : Controller E L σ) (p : Pool LoopThread L σ Unit)
    (f : ℕ) : Prop :=
  (p.thr .control).head = none ∧ (p.thr .api).head = none ∧ C.running p.st = false ∧
    (C.drv p.st).motor.running = true ∧ (C.drv p.st).motor.currentFreq = f

/-- A stop between the fault test of `set_frequency` and its locked section: the motor runs on after
both, and after a tick of the stopped loop. -/
theorem loops_restart :
    let pos := posController ⟨50, 1000, 10, 200, false, 50, 1000⟩ fun _ => 0
    let speed := speedController ⟨50, 1000, 10, 200, 1, false⟩
    let ol := openController ⟨50, 200⟩
    pos.RunsOn (pos.machine.run (.idle movingPos ()) (stopInTick 47 12)) 270 ∧
      speed.RunsOn (speed.machine.run (.idle movingSpeed ()) (stopInTick 35 13)) 200 ∧
      ol.RunsOn (ol.machine.run (.idle movingOpen ()) (stopInTick 14 6)) 200 := by
  refine ⟨⟨?_, ?_, ?_, ?_, ?_⟩, ⟨?_, ?_, ?_, ?_, ?_⟩, ⟨?_, ?_, ?_, ?_, ?_⟩⟩ <;> decide +kernel

end H750Stepper
