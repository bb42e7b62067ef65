import H750Stepper.Lib.Pool
import H750Stepper.Loops.Confined

/-!
# Motors that share a timer

The board under one file of commands: the thread of the shell runs the commands, and the inits start
a control thread for each motor. The actions of these threads interleave; the inits of the loops all
run in the thread of the shell.

A hardware timer is opened once and never closed, so of the motors that name the same timer at most
one is ever initialised (`one_motor_per_timer`).
-/

namespace H750Stepper

open Threads

/-! ## The board -/

/-- The thread of the shell, and the control thread of each motor. -/
inductive BoardThread where
  | shell
  | control (i : ℤ)
  deriving DecidableEq

/-- What a thread is told to do: the shell a command, a control thread one tick. -/
inductive BoardCall (H : Type) where
  | command (h : H) (argv : Shell.Argv)
  | tick

/-- What happens besides: the environment acts on the objects of a motor, the answers to the calls
of its inits change, and somebody else opens a timer. -/
inductive BoardEnv (E : Type) where
  | motor (i : ℤ) (e : E)
  | answer (i : ℤ) (step : InitStep) (ret : ℤ)
  | calls (i : ℤ) (a : Answers Unit)
  | occupy (d : String)

def BoardEnv.eff {E S : Type} (env : E → S → S) : BoardEnv E → Shell S → Shell S
  | .motor i e, s => { s with obj := Function.update s.obj i (env e (s.obj i)) }
  | .answer i step ret, s =>
    { s with answer := Function.update s.answer step (Function.update (s.answer step) i ret) }
  | .calls i a, s => { s with calls := Function.update s.calls i a }
  | .occupy d, s => { s with
      timers.activated := Function.update s.timers.activated d true
      timers.opened := Function.update s.timers.opened d true }

/-- A tick of the control thread of the motor `i`, which does nothing before it has been started. -/
def Shell.controlTick {A S α : Type} (i : ℤ) (tick : Prog A S Unit) (done : α) :
    ShellProg A S α := do
  let started ← Prog.ask (.code .test) fun s => s.thread i
  Prog.when (started = true) (onMotor i tick)
  return done

/-- The threads of a file of commands. -/
def boardMachine {A S H E α : Type} (eff : A → S → S) (code : H → Shell.Argv → ShellProg A S α)
    (tick : ℤ → Prog A S Unit) (done : α) (env : E → S → S) :
    Machine BoardThread (BoardCall H) (BoardEnv E) (Noted Access (ShellAct A S)) (Shell S) α where
  eff := Noted.eff (ShellAct.eff eff)
  code
    | .shell, .command h argv => code h argv
    | .control i, .tick => Shell.controlTick i (tick i) done
    | _, _ => return done
  env := BoardEnv.eff env

/-- The threads of `test_speedloop.c`. -/
def speedBoard (lib : Shell.CLib) (count : ℕ) (cfg : ℤ → SpeedHwCfg) :
    Machine BoardThread (BoardCall SpeedHandler) (BoardEnv SpeedEnv)
      (Noted Access (ShellAct SpeedAct SpeedSys)) (Shell SpeedSys) ℤ :=
  boardMachine SpeedAct.eff (fun h argv => h.code lib count argv cfg)
    (fun i => SpeedLoop.tick (cfg i).loop) 0 SpeedEnv.eff

/-- The threads of `test_positionloop.c`. -/
def posBoard (lib : Shell.CLib) (count : ℕ) (cfg : ℤ → PosHwCfg) (sqrtf : ℚ → ℚ) (polls : ℕ) :
    Machine BoardThread (BoardCall PosHandler) (BoardEnv PosEnv)
      (Noted Access (ShellAct PosAct PosSys)) (Shell PosSys) (Option ℤ) :=
  boardMachine PosAct.eff (fun h argv => h.code lib count argv cfg polls)
    (fun i => PosLoop.tick (cfg i).loop sqrtf) none PosEnv.eff

/-! ## One motor for each timer -/

namespace Shell

variable {A S H E α : Type} {eff : A → S → S} {timer : ℤ → String} {count : ℕ} {s : Shell S}

/-- A motor that is flagged has a control thread, one with a control thread has its timer open, and
no two of them have the same timer. -/
structure OneEach (timer : ℤ → String) (s : Shell S) : Prop where
  flagged : ∀ k, s.inited k ≠ 0 → s.thread k = true
  opened : ∀ k, s.thread k = true → s.timers.opened (timer k) = true
  single : ∀ k k', s.thread k = true → s.thread k' = true → timer k = timer k' → k = k'

theorem oneEach_boot (obj : S) : OneEach timer (.boot obj) :=
  ⟨fun _ h => absurd rfl h, nofun, nofun⟩

/-- A control thread that has been started stays. -/
theorem keeps_eff (l : Noted Access (ShellAct A S)) (s : Shell S) :
    Keeps ThreadsStay s (Noted.eff (ShellAct.eff eff) l s) := by
  rintro _ ⟨k, rfl⟩ hk
  cases l with
  | note n => exact hk
  | code a =>
    cases a with
    | initLoop m d i =>
      rcases eq_or_ne k i with rfl | hki
      · simp [Noted.eff, ShellAct.eff, hk]
      · simpa [Noted.eff, ShellAct.eff, hki] using hk
    | obj i l | update i f | test | setInited i => exact hk

theorem thread_initLoop {m : Loop} {d : String} {i k : ℤ} :
    (ShellAct.eff eff (.initLoop m d i) s).thread k = true ↔
      s.thread k = true ∨ k = i ∧ (s.loopInit m d i).1 = .eOk := by
  rcases eq_or_ne k i with rfl | hki
  · simp [ShellAct.eff]
  · simp [ShellAct.eff, hki]

/-- An init starts a control thread only if it has opened the timer itself. -/
theorem OneEach.initLoop (eff : A → S → S) (h : OneEach timer s) (m : Loop) (i : ℤ) :
    OneEach timer (ShellAct.eff eff (.initLoop m (timer i) i) s) := by
  have hmono : ∀ d, s.timers.opened d = true → (s.loopInit m (timer i) i).2.opened d = true :=
    (Timers.init_spares m.checksMode m i ((s.calls i).named (timer i)) s.timers).opened
  have hopens : (s.loopInit m (timer i) i).1 = .eOk → s.timers.opened (timer i) = false ∧
      (s.loopInit m (timer i) i).2.opened (timer i) = true := Timers.opened_of_init
  -- the timer was closed, so no motor with a control thread has it
  have hfresh : ∀ k, s.thread k = true → (s.loopInit m (timer i) i).1 = .eOk →
      timer k ≠ timer i := by
    intro k hk hok heq
    have hopened := h.opened k hk
    rw [heq, (hopens hok).1] at hopened
    cases hopened
  refine ⟨fun k hk => thread_initLoop.mpr (.inl (h.flagged k hk)), fun k hk => ?_,
    fun k k' hk hk' heq => ?_⟩
  · rcases thread_initLoop.mp hk with hk | ⟨rfl, hok⟩
    · exact hmono _ (h.opened k hk)
    · exact (hopens hok).2
  · rcases thread_initLoop.mp hk with hold | ⟨rfl, hok⟩
    · rcases thread_initLoop.mp hk' with hold' | ⟨rfl, hok⟩
      · exact h.single k k' hold hold' heq
      · exact absurd heq (hfresh k hold hok)
    · rcases thread_initLoop.mp hk' with hold' | ⟨rfl, -⟩
      · exact absurd heq.symm (hfresh k' hold' hok)
      · rfl

theorem OneEach.act (h : OneEach timer s) {l : Noted Access (ShellAct A S)}
    (hl : ShellAct.Orderly timer count l s) :
    OneEach timer (Noted.eff (ShellAct.eff eff) l s) := by
  cases l with
  | note n => exact h
  | code a =>
    cases a with
    | obj i l | update i f | test => exact ⟨h.flagged, h.opened, h.single⟩
    | initLoop m d i =>
      obtain ⟨rfl, -⟩ := hl
      exact h.initLoop eff m i
    | setInited i =>
      refine ⟨fun k hk => ?_, h.opened, h.single⟩
      rcases eq_or_ne k i with rfl | hki
      · exact hl
      · exact h.flagged k (by simpa [Noted.eff, ShellAct.eff, hki] using hk)

theorem OneEach.env {env : E → S → S} (h : OneEach timer s) (e : BoardEnv E) :
    OneEach timer (BoardEnv.eff env e s) := by
  cases e with
  | motor i e | answer i step ret | calls i a => exact ⟨h.flagged, h.opened, h.single⟩
  | occupy d =>
    refine ⟨h.flagged, fun k hk => ?_, h.single⟩
    rcases eq_or_ne (timer k) d with heq | hne
    · simp [BoardEnv.eff, heq]
    · simpa [BoardEnv.eff, hne] using h.opened k hk

end Shell

section Board

open Shell

variable {A S H E α : Type} {eff : A → S → S} {code : H → Argv → ShellProg A S α}
  {tick : ℤ → Prog A S Unit} {done : α} {env : E → S → S} {lib : CLib} {timer : ℤ → String}
  {count : ℕ}

variable (timer count) in
theorem confined_controlTick (own : Prop) (i : ℤ) (p : Prog A S Unit) :
    Confined eff timer count own i (controlTick i p done) :=
  (Confined.test fun _ _ h => h.thread).bind fun _ =>
    ((Confined.onMotor i p).when).bind fun _ => .ret done

/-- Whatever a thread is told to do, it sets a flag only when the control thread has been
started. -/
theorem outline_board (hcode : ∀ h argv, 2 ≤ argv.length →
      Confined eff timer count True (lib.atoi (argv.arg 1)) (code h argv))
    (hlooks : ∀ h argv, argv.length < 2 → (code h argv).All Looks) (t : BoardThread)
    (c : BoardCall H) (s : Shell S) :
    ((boardMachine eff code tick done env).code t c).Outline (Noted.eff (ShellAct.eff eff))
      ThreadsStay (fun _ _ => True) (ShellAct.Orderly timer count) (fun _ _ => True) s := by
  cases t with
  | shell =>
    cases c with
    | command h argv =>
      by_cases hargc : 2 ≤ argv.length
      · exact (hcode h argv hargc).starts s trivial
      · exact starts_of_plain ((hlooks h argv (not_le.mp hargc)).imp fun _ hl => hl.plain) s trivial
    | tick => trivial
  | control i =>
    cases c with
    | command h argv => trivial
    | tick => exact (confined_controlTick timer count True i (tick i)).starts s trivial

/-- Motors with a control thread have different timers, after any run from the start. -/
theorem oneEach_run (hcode : ∀ h argv, 2 ≤ argv.length →
      Confined eff timer count True (lib.atoi (argv.arg 1)) (code h argv))
    (hlooks : ∀ h argv, argv.length < 2 → (code h argv).All Looks) (obj : S)
    (es : List (Event BoardThread (BoardCall H) (BoardEnv E))) :
    OneEach timer ((boardMachine eff code tick done env).run (.idle (.boot obj) done) es).st := by
  set M := boardMachine eff code tick done env with hM
  let Inv (p : Pool BoardThread (Noted Access (ShellAct A S)) (Shell S) α) : Prop :=
    OneEach timer p.st ∧ M.Outlines (fun _ => ThreadsStay) (fun _ _ _ => True)
      (fun _ => ShellAct.Orderly timer count) (fun _ _ _ => True) p
  have hstart : Inv (.idle (.boot obj) done) := ⟨oneEach_boot obj, nofun⟩
  have hnext : ∀ p e, Inv p → Inv (M.next p e) := fun p e hp => ⟨?_, ?_⟩
  · exact (M.run_of_next hnext hstart es).1
  · refine Machine.st_next hp.1 e ?_
    cases e with
    | call t c => trivial
    | step t =>
      intro l hl
      exact hp.1.act ((hp.2 t l hl).step hl trivial).1
    | env e => exact hp.1.env e
  · refine Machine.outlines_next (fun _ _ => True) (fun _ _ _ => True) ?_ ?_ ?_ hp.2 e ?_
    · exact fun t l s _ _ u _ => keeps_eff l s
    · rintro (⟨i, e⟩ | ⟨i, step, ret⟩ | ⟨i, a⟩ | ⟨d⟩) s - t _ ⟨k, rfl⟩ hk <;> exact hk
    · exact fun t c s _ => outline_board hcode hlooks t c s
    · cases e <;> simp

end Board

/-- **One motor for each timer.** After any interleaving of commands and control ticks, with any
answers to the inits, two motors that are both initialised do not have the same timer. -/
theorem one_motor_per_timer (lib : Shell.CLib) (count polls : ℕ) (speedCfg : ℤ → SpeedHwCfg)
    (posCfg : ℤ → PosHwCfg) (sqrtf : ℚ → ℚ) :
    (∀ obj es k k',
      let s := ((speedBoard lib count speedCfg).run (.idle (.boot obj) 0) es).st
      s.inited k ≠ 0 → s.inited k' ≠ 0 →
        (speedCfg k).ctrlTimer = (speedCfg k').ctrlTimer → k = k') ∧
    ∀ obj es k k',
      let s := ((posBoard lib count posCfg sqrtf polls).run (.idle (.boot obj) none) es).st
      s.inited k ≠ 0 → s.inited k' ≠ 0 → (posCfg k).ctrlTimer = (posCfg k').ctrlTimer → k = k' := by
  constructor
  · intro obj es k k' s hk hk' heq
    have hs : Shell.OneEach (fun i => (speedCfg i).ctrlTimer) s :=
      oneEach_run (fun h _ hargc => h.confined hargc) (fun h _ hargc => h.looks hargc) obj es
    exact hs.single k k' (hs.flagged k hk) (hs.flagged k' hk') heq
  · intro obj es k k' s hk hk' heq
    have hs : Shell.OneEach (fun i => (posCfg i).ctrlTimer) s :=
      oneEach_run (fun h _ hargc => h.confined hargc) (fun h _ hargc => h.looks hargc) obj es
    exact hs.single k k' (hs.flagged k hk) (hs.flagged k' hk') heq

/-- The shell starts the motors 0 and 1, and the first tick of the motor 0 falls into the second
command. -/
def startTwo {H E : Type} (start : H) : List (Event BoardThread (BoardCall H) (BoardEnv E)) :=
  .call .shell (.command start ["start", "0"]) :: List.replicate 60 (.step .shell) ++
  .call .shell (.command start ["start", "1"]) :: .call (.control 0) .tick ::
  (List.replicate 60 [.step (.control 0), .step .shell]).flatten

/-- Both motors have the default timer, and the second command fails. -/
theorem one_motor_per_timer_start :
    let lib : Shell.CLib := ⟨decimal, decimal, fun s => decimal s⟩
    let speedCfg : ℤ → SpeedHwCfg := fun _ =>
      ⟨200000000, 1000, 0, 0, "timer4", ⟨50, 1000, 10, 200, 1, false⟩⟩
    let posCfg : ℤ → PosHwCfg := fun _ =>
      ⟨200000000, -1, false, 2000, 200, 200, 100000, 65, ⟨0, 0, 0, 0, 0, 0⟩, "timer4",
        ⟨50, 1000, 20, 500, true, 200, 20000⟩⟩
    let speed := (speedBoard lib 2 speedCfg).run (.idle (.boot default) 0) (startTwo .start)
    let pos := (posBoard lib 2 posCfg (fun _ => 0) 5).run (.idle (.boot default) none)
      (startTwo .start)
    (speed.st.inited 0 = 1 ∧ speed.st.inited 1 = 0 ∧ (speed.thr .shell).value? = some (-1)) ∧
      pos.st.inited 0 = 1 ∧ pos.st.inited 1 = 0 ∧ (pos.thr .shell).value? = some (some (-1)) := by
  intro lib speedCfg posCfg
  have honce := one_motor_per_timer lib 2 5 speedCfg posCfg fun _ => 0
  dsimp only at honce ⊢
  refine ⟨⟨by decide +kernel, ?_, by decide +kernel⟩, by decide +kernel, ?_, by decide +kernel⟩
  · by_contra h
    have heq := honce.1 default (startTwo .start) 0 1 (by decide +kernel) h rfl
    cases heq
  · by_contra h
    have heq := honce.2 default (startTwo .start) 0 1 (by decide +kernel) h rfl
    cases heq

end H750Stepper
