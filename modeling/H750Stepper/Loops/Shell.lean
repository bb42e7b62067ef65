import H750Stepper.Lib.Notes
import H750Stepper.Position.PositionLoop
import H750Stepper.Speed.SpeedLoop
import H750Stepper.Timer.Registry

/-!
# The shell commands

`test_speedloop.c` and `test_positionloop.c`: the commands of the two closed loops. Each file keeps
its configuration, its objects and its flags in tables with an entry for each motor, and a command
reads the number of the motor from its first argument. Every place where a table is indexed is a
note, so that a program shows where it looks; an entry outside a table is whatever memory holds
there. The texts printed are left out, the table entries they are printed from are not.

A motor has its own pulse timer, pins and encoder, and so its own objects. The hardware timers of the
loops are shared: the init of a loop is that of `Timer.Registry`, on the timer that the configuration
of the motor names, and it fails if the timer is open.

`shell_iff`: which commands stay inside their tables, for which arguments.
-/

namespace H750Stepper

open Threads

/-! ## Tables -/

/-- The tables of a file of commands. -/
inductive Table where
  | cfg | motors | encoders | pids | loops | inited
  deriving DecidableEq

/-- An index into a table. -/
structure Access where
  table : Table
  idx : ℤ
  deriving DecidableEq

/-- The index is that of a motor. -/
def InTables (count : ℕ) (idx : ℤ) : Prop := 0 ≤ idx ∧ idx < count

instance (count : ℕ) (idx : ℤ) : Decidable (InTables count idx) :=
  inferInstanceAs (Decidable (0 ≤ idx ∧ idx < count))

/-- The inits of the drivers of a motor. -/
inductive InitStep where
  | motor | encoder
  deriving DecidableEq

/-- The tables of a file: the objects of a motor, the flag `inited`, and whether the control thread
of its loop has been started; the hardware timers; what the inits of the drivers will return, what
the calls in the init of the loop will be answered, and what this init returned last. -/
structure Shell (S : Type) where
  obj : ℤ → S
  inited : ℤ → ℤ
  thread : ℤ → Bool
  timers : Timers ℤ String
  answer : InitStep → ℤ → ℤ
  calls : ℤ → Answers Unit
  ret : ℤ → RtErr

/-- The answers with the device that `rt_device_find` finds, if it finds one. -/
def Answers.named {δ : Type} (d : δ) (a : Answers Unit) : Answers δ where
  semCreated := a.semCreated
  device := a.device.map fun _ => d
  initRet := a.initRet
  openRet := a.openRet
  modeRet := a.modeRet
  written := a.written
  threadCreated := a.threadCreated

/-- Statically allocated tables, before any call; no call will fail. -/
def Shell.boot {S : Type} (obj : S) : Shell S where
  obj _ := obj
  inited _ := 0
  thread _ := false
  timers := .zeroed
  answer _ _ := 0
  calls _ := ⟨true, some (), .eOk, .eOk, .eOk, sizeofHwtimerval, true⟩
  ret _ := .eOk

/-- The actions of a command: those on the objects of the motor `i`, named by `A`, what an init
makes of these objects, the init of the loop of the motor `i` on the timer `d`, and the tests and
assignments of the file. -/
inductive ShellAct (A S : Type) where
  | obj (i : ℤ) (l : A)
  | update (i : ℤ) (f : S → S)
  | initLoop (m : Loop) (d : String) (i : ℤ)
  | test
  | setInited (i : ℤ)

/-- The init of the loop of the motor `i` on the timer `d`. -/
def Shell.loopInit {S : Type} (s : Shell S) (m : Loop) (d : String) (i : ℤ) :
    RtErr × Timers ℤ String :=
  s.timers.init m.checksMode m i ((s.calls i).named d)

/-- What an action does. -/
def ShellAct.eff {A S : Type} (eff : A → S → S) : ShellAct A S → Shell S → Shell S
  | .obj i l, s => { s with obj := Function.update s.obj i (eff l (s.obj i)) }
  | .update i f, s => { s with obj := Function.update s.obj i (f (s.obj i)) }
  | .initLoop m d i, s =>
    { s with
      timers := (s.loopInit m d i).2
      ret := Function.update s.ret i (s.loopInit m d i).1
      thread := Function.update s.thread i (s.thread i || (s.loopInit m d i).1 = .eOk) }
  | .test, s => s
  | .setInited i, s => { s with inited := Function.update s.inited i 1 }

/-- A program of a file of commands, with a note where it indexes a table. -/
abbrev ShellProg (A S α : Type) := Prog (Noted Access (ShellAct A S)) (Shell S) α

namespace Shell

open Prog (ask perform note quiet when)

variable {A S : Type}

/-- The address of an entry of a table, or its value. -/
def entry (t : Table) (i : ℤ) : ShellProg A S Unit := note ⟨t, i⟩

/-- Several entries for one motor, as in the arguments of a line to print. -/
def entries (i : ℤ) : List Table → ShellProg A S Unit
  | [] => return
  | t :: ts => do
    entry t i
    entries i ts

/-- A program on the objects of the motor `i`. -/
def onMotor {α : Type} (i : ℤ) (p : Prog A S α) : ShellProg A S α :=
  quiet (p.zoom (.obj i) fun s : Shell S => s.obj i)

/-- A function of the loop of the motor `i`. -/
def onLoop {α : Type} (i : ℤ) (p : Prog A S α) : ShellProg A S α := do
  entry .loops i
  onMotor i p

def readInited (i : ℤ) : ShellProg A S ℤ := do
  entry .inited i
  ask (.code .test) fun s => s.inited i

/-- An init of a driver of the motor `i`: what it returns, and what it makes of the objects if this
is `RT_EOK`. -/
def init (step : InitStep) (i : ℤ) (f : S → S) : ShellProg A S ℤ := do
  let ret ← ask (.code .test) fun s => s.answer step i
  when (ret = 0) (perform (.code (.update i f)))
  return ret

/-- The init of the loop of the motor `i`: it writes the fields, and then registers the loop. -/
def initLoop (m : Loop) (d : String) (i : ℤ) (f : S → S) : ShellProg A S RtErr := do
  perform (.code (.update i f))
  ask (.code (.initLoop m d i)) fun s => s.ret i

/-- What the inits make of the objects of a motor, the module of its loop, and its timer. -/
structure Inits (A S : Type) where
  motor : S → S
  encoder : S → S
  pid : Prog A S Unit
  loop : S → S
  kind : Loop
  timer : String

/-- The two functions `ensure_inited`: 0 or -1. They differ in what they configure between the init
of the motor and that of the encoder. -/
def ensureInited (count : ℕ) (inits : ℤ → Inits A S) (configure : ℤ → ShellProg A S Unit) (id : ℤ) :
    ShellProg A S ℤ := do
  if id < 0 ∨ id ≥ count then return -1
  else if (← readInited id) ≠ 0 then return 0
  else do
    entry .cfg id
    entry .motors id
    if (← init .motor id (inits id).motor) ≠ 0 then return -1
    else do
      configure id
      entry .encoders id
      if (← init .encoder id (inits id).encoder) ≠ 0 then return -1
      else do
        entry .pids id
        onMotor id (inits id).pid
        entries id [.loops, .motors, .encoders, .pids]
        if (← initLoop (inits id).kind (inits id).timer id (inits id).loop) ≠ .eOk then return -1
        else do
          entry .inited id
          perform (.code (.setInited id))
          return 0

/-- The test of a command that needs an initialised motor; then `rest`. -/
def ifInited {α : Type} (count : ℕ) (id : ℤ) (error : α) (rest : ShellProg A S α) :
    ShellProg A S α := do
  if id < 0 ∨ id ≥ count then return error
  else if (← readInited id) = 0 then return error
  else rest

/-- `body` for each motor of the list, one after the other. -/
def each (body : ℤ → ShellProg A S Unit) : List ℕ → ShellProg A S Unit
  | [] => return
  | i :: is => do
    body i
    each body is

/-- The parser of numbers of the C library. -/
structure CLib where
  atoi : String → ℤ
  atol : String → ℤ
  atof : String → ℚ

/-- The words of a command; the first is its name. -/
abbrev Argv := List String

def Argv.arg (argv : Argv) (k : ℕ) : String := argv.getD k ""

end Shell

/-! ## The speed loop -/

/-- `motor_hw_cfg_t`, with what `speed_loop_init` makes of it. -/
structure SpeedHwCfg where
  timClkHz : ℕ
  kp : ℤ
  ki : ℤ
  kd : ℤ
  ctrlTimer : String
  loop : SpeedConfig

namespace SpeedShell

open Shell
open Prog (ask perform note quiet when)

abbrev SpeedCmd (α : Type) := ShellProg SpeedAct SpeedSys α

variable (lib : CLib) (count : ℕ) (cfg : ℤ → SpeedHwCfg) (argv : Argv)

def inits (i : ℤ) : Inits SpeedAct SpeedSys where
  motor s := { s with drv := s.drv.init (cfg i).timClkHz (-1) false }
  encoder s := { s with enc := s.enc.init }
  pid := SpeedLoop.pid (Pid.init ((cfg i).kp / 1000) ((cfg i).ki / 1000) ((cfg i).kd / 1000)
    ((cfg i).loop.speedLimit * 200) (cfg i).loop.speedLimit 5000)
  loop s := { s with sl := .init }
  kind := .speed
  timer := (cfg i).ctrlTimer

def ensureInited : ℤ → SpeedCmd ℤ := Shell.ensureInited count (inits cfg) fun _ => return

/-- The status line of a motor, when no motor is named. -/
def statusLine (i : ℤ) : SpeedCmd Unit := do
  if (← readInited i) = 0 then return
  else entries i [.loops, .pids, .loops, .loops, .loops, .loops]

/-- `cmd_speedloop`. With a motor and no frequency it shows the motor's status, and looks at its
flag without a test of the number. -/
def cmdSpeedloop : SpeedCmd ℤ := do
  if argv.length < 2 then do
    each statusLine (List.range count)
    return 0
  else do
    let motorId := lib.atoi (argv.arg 1)
    if argv.length < 3 then do
      if (← readInited motorId) = 0 then return -1
      else do
        entries motorId [.loops, .pids, .loops, .loops, .loops, .loops, .loops]
        return 0
    else if (← ensureInited count cfg motorId) ≠ 0 then return -1
    else do
      let freq := lib.atof (argv.arg 2)
      if freq = 0 then do
        onLoop motorId SpeedLoop.stop
        return 0
      else do
        let running ← onLoop motorId SpeedLoop.readRunning
        when (¬running) (onLoop motorId SpeedLoop.start)
        onLoop motorId (SpeedLoop.setTarget (cfg motorId).loop freq)
        return 0

/-- `cmd_speedloop_tune` -/
def cmdSpeedloopTune : SpeedCmd ℤ := do
  if argv.length < 5 then return -1
  else do
    let motorId := lib.atoi (argv.arg 1)
    ifInited count motorId (-1) (do
      entry .pids motorId
      onMotor motorId (SpeedLoop.pid (Pid.setGains (lib.atof (argv.arg 2)) (lib.atof (argv.arg 3))
        (lib.atof (argv.arg 4))))
      return 0)

/-- `cmd_speedloop_start` -/
def cmdSpeedloopStart : SpeedCmd ℤ := do
  if argv.length < 2 then return -1
  else do
    let motorId := lib.atoi (argv.arg 1)
    if (← ensureInited count cfg motorId) ≠ 0 then return -1
    else do
      onLoop motorId SpeedLoop.start
      return 0

/-- `cmd_speedloop_stop` -/
def cmdSpeedloopStop : SpeedCmd ℤ := do
  if argv.length < 2 then return -1
  else do
    let motorId := lib.atoi (argv.arg 1)
    ifInited count motorId (-1) (do
      onLoop motorId SpeedLoop.stop
      return 0)

/-- `cmd_speedloop_start 0` on a board where no call fails. -/
example :
    let s := ((cmdSpeedloopStart ⟨fun _ => 0, fun _ => 0, fun _ => 0⟩ 2
      (fun _ => ⟨200000000, 1000, 0, 0, "timer4", ⟨50, 1000, 10, 200, 1, false⟩⟩)
      ["cmd_speedloop_start", "0"]).exec (Noted.eff (ShellAct.eff SpeedAct.eff)) (.boot default))
    s.1 = 0 ∧ s.2.inited 0 = 1 ∧ (s.2.obj 0).sl.running = true ∧ s.2.inited 1 = 0 := by
  decide +kernel

end SpeedShell

/-! ## The position loop -/

/-- `pl_hw_cfg_t`, with what `position_loop_init` makes of it. -/
structure PosHwCfg where
  timClkHz : ℕ
  faultPin : ℤ
  dirInvert : Bool
  kp : ℤ
  ki : ℤ
  kd : ℤ
  brakeDecel : ℕ
  homePin : ℤ
  scale : PosScale
  ctrlTimer : String
  loop : PosConfig

namespace PosShell

open Shell
open Prog (ask perform note quiet when)

abbrev PosCmd (α : Type) := ShellProg PosAct PosSys α

variable (lib : CLib) (count : ℕ) (cfg : ℤ → PosHwCfg) (argv : Argv) (polls : ℕ)

def inits (i : ℤ) : Inits PosAct PosSys where
  motor s := { s with drv := s.drv.init (cfg i).timClkHz (cfg i).faultPin (cfg i).dirInvert }
  encoder s := { s with enc := s.enc.init }
  pid := PosLoop.pid (Pid.init ((cfg i).kp / 1000) ((cfg i).ki / 1000) ((cfg i).kd / 1000)
    ((cfg i).loop.speedLimit * 200) (cfg i).loop.speedLimit (cfg i).loop.speedLimit)
  loop s := { s with pl := .init, scale := (cfg i).scale }
  kind := .position
  timer := (cfg i).ctrlTimer

/-- The braking parameters. -/
def configure (id : ℤ) : PosCmd Unit := do
  entry .motors id
  perform (.code (.update id fun s => { s with drv.motor.brakeDecel := (cfg id).brakeDecel }))
  entry .motors id
  onMotor id (PosLoop.drv (Motor.setIdleReduce true 1000))

def ensureInited : ℤ → PosCmd ℤ := Shell.ensureInited count (inits cfg) (configure cfg)

/-- The status line of a motor, when no motor is named. -/
def statusLine (i : ℤ) : PosCmd Unit := do
  if (← readInited i) = 0 then return
  else entries i [.loops, .loops, .loops, .loops, .loops, .loops, .loops, .loops]

/-- The move of `cmd_posloop`: a target with a point is one in physical units. -/
def moveTo (id : ℤ) : PosCmd (Option ℤ) := do
  if (argv.arg 2).contains '.' then do
    entry .loops id
    onLoop id (PosLoop.moveToPhysical (cfg id).loop (lib.atof (argv.arg 2)) 0 polls)
  else onLoop id (PosLoop.moveTo (cfg id).loop (lib.atol (argv.arg 2)) 0 polls)

/-- `cmd_posloop`, observed for at most `polls` rounds of the wait: `none` when it still waits. -/
def cmdPosloop : PosCmd (Option ℤ) := do
  if argv.length < 2 then do
    each statusLine (List.range count)
    return some 0
  else do
    let id := lib.atoi (argv.arg 1)
    if (← ensureInited count cfg id) ≠ 0 then return some (-1)
    else if argv.length < 3 then do
      entries id [.loops, .loops, .loops]
      return some 0
    else do
      let running ← onLoop id PosLoop.readRunning
      when (¬running) (onLoop id (PosLoop.start (cfg id).loop))
      let ret ← moveTo lib cfg argv polls id
      when (ret = some motorEOk) (entries id [.loops, .loops])
      return ret

/-- `cmd_posloop_tune` -/
def cmdPosloopTune : PosCmd (Option ℤ) := do
  if argv.length < 5 then return some (-1)
  else do
    let id := lib.atoi (argv.arg 1)
    ifInited count id (some (-1)) (do
      entry .pids id
      onMotor id (PosLoop.pid (Pid.setGains (lib.atof (argv.arg 2)) (lib.atof (argv.arg 3))
        (lib.atof (argv.arg 4))))
      return some 0)

/-- `cmd_posloop_start` -/
def cmdPosloopStart : PosCmd (Option ℤ) := do
  if argv.length < 2 then return some (-1)
  else do
    let id := lib.atoi (argv.arg 1)
    if (← ensureInited count cfg id) ≠ 0 then return some (-1)
    else do
      onLoop id (PosLoop.start (cfg id).loop)
      return some 0

/-- `cmd_posloop_stop` -/
def cmdPosloopStop : PosCmd (Option ℤ) := do
  if argv.length < 2 then return some (-1)
  else do
    let id := lib.atoi (argv.arg 1)
    ifInited count id (some (-1)) (do
      onLoop id PosLoop.stop
      return some 0)

/-- `cmd_posloop_home`, observed for at most `polls` rounds of the wait for the home pin. -/
def cmdPosloopHome : PosCmd (Option ℤ) := do
  if argv.length < 2 then return some (-1)
  else do
    let id := lib.atoi (argv.arg 1)
    if (← ensureInited count cfg id) ≠ 0 then return some (-1)
    else do
      entry .cfg id
      let homeDir :=
        if argv.length ≥ 3 ∧ argv.arg 2 = "ccw" then motorDirCcw else motorDirCw
      let speed := if argv.length ≥ 4 then CInt.uwrap 32 (lib.atol (argv.arg 3)) else 2000
      let running ← onLoop id PosLoop.readRunning
      when (¬running) (onLoop id (PosLoop.start (cfg id).loop))
      entry .loops id
      entry .encoders id
      onMotor id (PosLoop.home (cfg id).homePin homeDir speed 30000 polls)

end PosShell

/-! ## Staying inside the tables -/

/-- Every access that the command can come to, whatever the tables hold and other threads do, is to
the entry of a motor; and a command with the number of a motor that does not exist fails. -/
structure StaysInside {A S α : Type} (count : ℕ) (id : ℤ) (argc : ℕ) (error : α)
    (p : ShellProg A S α) : Prop where
  inside : p.All (Noted.Meets fun a => InTables count a.idx)
  fails : 2 ≤ argc → ¬InTables count id → ∀ r, p.Returns r → r = error

namespace Shell

open Prog (ask perform note quiet when)

variable {A S α : Type} {count : ℕ}

/-- The condition on the accesses of a program. -/
abbrev Inside (count : ℕ) (p : ShellProg A S α) : Prop :=
  p.All (Noted.Meets fun a : Access => InTables count a.idx)

theorem inside_bind {β : Type} {p : ShellProg A S α} {g : α → ShellProg A S β}
    (hp : Inside count p) (hg : ∀ a, Inside count (g a)) : Inside count (p >>= g) :=
  Prog.all_bind.2 ⟨hp, fun a _ => hg a⟩

theorem inside_ite {c : Prop} [Decidable c] {p q : ShellProg A S α} (hp : c → Inside count p)
    (hq : ¬c → Inside count q) : Inside count (if c then p else q) := Prog.all_ite.2 ⟨hp, hq⟩

theorem inside_entry {t : Table} {i : ℤ} (h : InTables count i) :
    Inside count (entry t i : ShellProg A S Unit) := (Prog.all_note _).mpr h

theorem inside_entries {i : ℤ} (h : InTables count i) (ts : List Table) :
    Inside count (entries i ts : ShellProg A S Unit) := by
  induction ts with
  | nil => trivial
  | cons t ts ih => exact inside_bind (inside_entry h) fun _ => ih

theorem inside_onMotor (i : ℤ) (p : Prog A S α) : Inside count (onMotor i p) := Prog.quiet_meets _ _

theorem inside_onLoop {i : ℤ} (h : InTables count i) (p : Prog A S α) :
    Inside count (onLoop i p) :=
  inside_bind (inside_entry h) fun _ => inside_onMotor i p

theorem inside_readInited {i : ℤ} (h : InTables count i) :
    Inside count (readInited i : ShellProg A S ℤ) :=
  inside_bind (inside_entry h) fun _ => (Prog.all_ask _ _).mpr trivial

theorem inside_init (step : InitStep) (i : ℤ) (f : S → S) :
    Inside count (init step i f : ShellProg A S ℤ) := by
  simp [init]

theorem inside_initLoop (m : Loop) (d : String) (i : ℤ) (f : S → S) :
    Inside count (initLoop m d i f : ShellProg A S RtErr) := by
  simp [initLoop]

theorem inside_each {body : ℤ → ShellProg A S Unit} {is : List ℕ}
    (h : ∀ i ∈ is, Inside count (body i)) : Inside count (each body is) := by
  induction is with
  | nil => trivial
  | cons i is ih =>
    exact inside_bind (h i List.mem_cons_self) fun _ => ih fun j hj => h j (.tail i hj)

theorem inTables_iff {id : ℤ} : ¬(id < 0 ∨ id ≥ count) ↔ InTables count id := by
  unfold InTables
  omega

/-! ### The two tests of the number -/

section Tests

variable {inits : ℤ → Inits A S} {configure : ℤ → ShellProg A S Unit} {id : ℤ}

theorem ensureInited_out (h : ¬InTables count id) :
    ensureInited count inits configure id = .ret (-1) := by
  unfold ensureInited
  rw [if_pos (not_not.mp (mt inTables_iff.mp h))]
  rfl

theorem inside_ensureInited (hconf : InTables count id → Inside count (configure id)) :
    Inside count (ensureInited count inits configure id) := by
  by_cases h : InTables count id
  · unfold ensureInited
    refine inside_ite (fun _ => trivial) fun _ => ?_
    refine inside_bind (inside_readInited h) fun _ => inside_ite (fun _ => trivial) fun _ => ?_
    refine inside_bind (inside_entry h) fun _ => inside_bind (inside_entry h) fun _ => ?_
    refine inside_bind (inside_init ..) fun _ => inside_ite (fun _ => trivial) fun _ => ?_
    refine inside_bind (hconf h) fun _ => inside_bind (inside_entry h) fun _ => ?_
    refine inside_bind (inside_init ..) fun _ => inside_ite (fun _ => trivial) fun _ => ?_
    refine inside_bind (inside_entry h) fun _ => inside_bind (inside_onMotor ..) fun _ => ?_
    refine inside_bind (inside_entries h _) fun _ => ?_
    refine inside_bind (inside_initLoop ..) fun _ => inside_ite (fun _ => trivial) fun _ => ?_
    exact inside_bind (inside_entry h) fun _ => by simp
  · rw [ensureInited_out h]
    trivial

/-- What comes after `ensure_inited` has returned 0 may look at the entries of the motor. -/
theorem inside_ensured {error : α} {rest : ShellProg A S α}
    (hconf : InTables count id → Inside count (configure id))
    (hrest : InTables count id → Inside count rest) :
    Inside count (do
      if (← ensureInited count inits configure id) ≠ 0 then return error
      else rest) := by
  by_cases h : InTables count id
  · exact inside_bind (inside_ensureInited hconf) fun _ =>
      inside_ite (fun _ => trivial) fun _ => hrest h
  · rw [ensureInited_out h]
    trivial

theorem ensured_out {error : α} {rest : ShellProg A S α} (h : ¬InTables count id) :
    (do
      if (← ensureInited count inits configure id) ≠ 0 then return error
      else rest) = .ret error := by
  rw [ensureInited_out h]
  rfl

theorem inside_ifInited {error : α} {rest : ShellProg A S α}
    (hrest : InTables count id → Inside count rest) :
    Inside count (ifInited count id error rest) := by
  refine inside_ite (fun _ => trivial) fun h => ?_
  have h : InTables count id := inTables_iff.mp h
  exact inside_bind (inside_readInited h) fun _ => inside_ite (fun _ => trivial) fun _ => hrest h

theorem ifInited_out {error : α} {rest : ShellProg A S α} (h : ¬InTables count id) :
    ifInited count id error rest = .ret error := if_pos (not_not.mp (mt inTables_iff.mp h))

end Tests

end Shell

/-! ### The commands -/

/-- The commands of the speed loop. -/
inductive SpeedHandler where
  | speedloop | tune | start | stop
  deriving DecidableEq

/-- The commands of the position loop. -/
inductive PosHandler where
  | posloop | tune | start | stop | home
  deriving DecidableEq

section Commands

open Shell

variable (lib : CLib) (count : ℕ) (argv : Argv)

def SpeedHandler.code (cfg : ℤ → SpeedHwCfg) : SpeedHandler → SpeedShell.SpeedCmd ℤ
  | .speedloop => SpeedShell.cmdSpeedloop lib count cfg argv
  | .tune => SpeedShell.cmdSpeedloopTune lib count argv
  | .start => SpeedShell.cmdSpeedloopStart lib count cfg argv
  | .stop => SpeedShell.cmdSpeedloopStop lib count argv

def PosHandler.code (cfg : ℤ → PosHwCfg) (polls : ℕ) : PosHandler → PosShell.PosCmd (Option ℤ)
  | .posloop => PosShell.cmdPosloop lib count cfg argv polls
  | .tune => PosShell.cmdPosloopTune lib count argv
  | .start => PosShell.cmdPosloopStart lib count cfg argv
  | .stop => PosShell.cmdPosloopStop lib count argv
  | .home => PosShell.cmdPosloopHome lib count cfg argv polls

variable {lib count argv} {speedCfg : ℤ → SpeedHwCfg} {posCfg : ℤ → PosHwCfg} {polls : ℕ}

/-- A command that needs at least one argument. -/
theorem StaysInside.of_usage {A S α : Type} {id : ℤ} {argc n : ℕ} {error : α}
    {p : ShellProg A S α} (hin : InTables count id → Inside count p)
    (hout : ¬InTables count id → p = .ret error) :
    StaysInside count id argc error (if argc < n then .ret error else p) := by
  by_cases h : InTables count id
  · exact ⟨inside_ite (fun _ => trivial) fun _ => hin h, fun _ hid => absurd h hid⟩
  · rw [hout h, ite_self]
    exact ⟨trivial, fun _ _ r hr => hr.symm⟩

/-- A command that shows the status of all motors when none is named. -/
theorem StaysInside.of_status {A S α : Type} {id : ℤ} {argc : ℕ} {error r : α}
    {body : ℤ → ShellProg A S Unit} {p : ShellProg A S α}
    (hbody : ∀ i, InTables count i → Inside count (body i))
    (hin : Inside count p) (hout : ¬InTables count id → p = .ret error) :
    StaysInside count id argc error (if argc < 2 then do
      each body (List.range count)
      return r
    else p) := by
  refine ⟨inside_ite (fun _ => ?_) fun _ => hin, fun hargc hid => ?_⟩
  · refine inside_bind (inside_each fun i hi => hbody i ?_) fun _ => trivial
    exact ⟨Int.natCast_nonneg i, Int.ofNat_lt.mpr (List.mem_range.mp hi)⟩
  · rw [if_neg (by omega), hout hid]
    exact fun r hr => hr.symm

theorem PosHandler.staysInside (c : PosHandler) :
    StaysInside count (lib.atoi (argv.arg 1)) argv.length (some (-1))
      (c.code lib count argv posCfg polls) := by
  have hconf : ∀ id, InTables count id → Inside count (PosShell.configure posCfg id) := fun id h =>
    inside_bind (inside_entry h) fun _ => inside_bind (by simp) fun _ =>
      inside_bind (inside_entry h) fun _ => inside_onMotor ..
  cases c with
  | posloop =>
    refine StaysInside.of_status (fun i h => ?_) (inside_ensured (hconf _) fun h => ?_) fun h =>
      ensured_out h
    · exact inside_bind (inside_readInited h) fun _ =>
        inside_ite (fun _ => trivial) fun _ => inside_entries h _
    · refine inside_ite (fun _ => inside_bind (inside_entries h _) fun _ => trivial) fun _ => ?_
      refine inside_bind (inside_onLoop h _) fun _ => ?_
      refine inside_bind (Prog.all_when.2 fun _ => inside_onLoop h _) fun _ => ?_
      refine inside_bind (inside_ite (fun _ => ?_) fun _ => inside_onLoop h _) fun _ => ?_
      · exact inside_bind (inside_entry h) fun _ => inside_onLoop h _
      · exact inside_bind (Prog.all_when.2 fun _ => inside_entries h _) fun _ => trivial
  | tune =>
    refine StaysInside.of_usage (fun h => inside_ifInited fun h => ?_) fun h => ifInited_out h
    exact inside_bind (inside_entry h) fun _ => inside_bind (inside_onMotor ..) fun _ => trivial
  | start =>
    refine StaysInside.of_usage (fun _ => inside_ensured (hconf _) fun h => ?_) fun h =>
      ensured_out h
    exact inside_bind (inside_onLoop h _) fun _ => trivial
  | stop =>
    refine StaysInside.of_usage (fun h => inside_ifInited fun h => ?_) fun h => ifInited_out h
    exact inside_bind (inside_onLoop h _) fun _ => trivial
  | home =>
    refine StaysInside.of_usage (fun _ => inside_ensured (hconf _) fun h => ?_) fun h =>
      ensured_out h
    refine inside_bind (inside_entry h) fun _ => inside_bind (inside_onLoop h _) fun _ => ?_
    refine inside_bind (Prog.all_when.2 fun _ => inside_onLoop h _) fun _ => ?_
    exact inside_bind (inside_entry h) fun _ => inside_bind (inside_entry h) fun _ =>
      inside_onMotor ..

/-- The status of one motor, the part of `cmd_speedloop` that tests nothing. -/
theorem SpeedShell.inside_cmdSpeedloop
    (h : argv.length = 2 → InTables count (lib.atoi (argv.arg 1))) :
    Inside count (SpeedShell.cmdSpeedloop lib count speedCfg argv) := by
  refine inside_ite (fun _ => ?_) fun hargc => inside_ite (fun hargc' => ?_) fun _ => ?_
  · refine inside_bind (inside_each fun i hi => ?_) fun _ => trivial
    have hi : InTables count i :=
      ⟨Int.natCast_nonneg i, Int.ofNat_lt.mpr (List.mem_range.mp hi)⟩
    exact inside_bind (inside_readInited hi) fun _ =>
      inside_ite (fun _ => trivial) fun _ => inside_entries hi _
  · have h := h (by omega)
    refine inside_bind (inside_readInited h) fun _ => inside_ite (fun _ => trivial) fun _ => ?_
    exact inside_bind (inside_entries h _) fun _ => trivial
  · refine inside_ensured (fun _ => trivial) fun h => inside_ite (fun _ => ?_) fun _ => ?_
    · exact inside_bind (inside_onLoop h _) fun _ => trivial
    · refine inside_bind (inside_onLoop h _) fun _ => ?_
      refine inside_bind (Prog.all_when.2 fun _ => inside_onLoop h _) fun _ => ?_
      exact inside_bind (inside_onLoop h _) fun _ => trivial

theorem SpeedHandler.staysInside {c : SpeedHandler}
    (hc : ¬(c = .speedloop ∧ argv.length = 2 ∧ ¬InTables count (lib.atoi (argv.arg 1)))) :
    StaysInside count (lib.atoi (argv.arg 1)) argv.length (-1)
      (c.code lib count argv speedCfg) := by
  cases c with
  | speedloop =>
    refine ⟨SpeedShell.inside_cmdSpeedloop fun h => by simpa [h] using hc, fun hargc hid r hr => ?_⟩
    have hne : argv.length ≠ 2 := fun h => hc ⟨rfl, h, hid⟩
    have hcode : code lib count argv speedCfg .speedloop = .ret (-1) := by
      show SpeedShell.cmdSpeedloop lib count speedCfg argv = _
      unfold SpeedShell.cmdSpeedloop
      rw [if_neg (by omega), if_neg (by omega)]
      exact ensured_out hid
    rw [hcode] at hr
    exact hr.symm
  | tune =>
    refine StaysInside.of_usage (fun h => inside_ifInited fun h => ?_) fun h => ifInited_out h
    exact inside_bind (inside_entry h) fun _ => inside_bind (inside_onMotor ..) fun _ => trivial
  | start =>
    refine StaysInside.of_usage (fun _ => inside_ensured (fun _ => trivial) fun h => ?_) fun h =>
      ensured_out h
    exact inside_bind (inside_onLoop h _) fun _ => trivial
  | stop =>
    refine StaysInside.of_usage (fun h => inside_ifInited fun h => ?_) fun h => ifInited_out h
    exact inside_bind (inside_onLoop h _) fun _ => trivial

/-- The status of a motor that does not exist is read from memory beyond the flags. -/
theorem SpeedShell.not_inside_cmdSpeedloop (hargc : argv.length = 2)
    (hid : ¬InTables count (lib.atoi (argv.arg 1))) :
    ¬Inside count (SpeedShell.cmdSpeedloop lib count speedCfg argv) := by
  unfold SpeedShell.cmdSpeedloop
  rw [if_neg (by omega), if_pos (by omega)]
  exact fun h => hid h.1

end Commands

/-- **Shell commands stay inside the tables**, for any motor count, any arguments and whatever
`atoi` makes of them: all of them do, but the status command of the speed loop for one motor does
so only if the motor exists. -/
theorem shell_iff (lib : Shell.CLib) (count : ℕ) (argv : Shell.Argv) (speedCfg : ℤ → SpeedHwCfg)
    (posCfg : ℤ → PosHwCfg) (polls : ℕ) :
    (∀ c : SpeedHandler, StaysInside count (lib.atoi (argv.arg 1)) argv.length (-1)
        (c.code lib count argv speedCfg) ↔
      ¬(c = .speedloop ∧ argv.length = 2 ∧ ¬InTables count (lib.atoi (argv.arg 1)))) ∧
    ∀ c : PosHandler, StaysInside count (lib.atoi (argv.arg 1)) argv.length (some (-1))
      (c.code lib count argv posCfg polls) := by
  refine ⟨fun c => ⟨fun h hc => ?_, SpeedHandler.staysInside⟩, fun c => c.staysInside⟩
  obtain ⟨rfl, hargc, hid⟩ := hc
  exact SpeedShell.not_inside_cmdSpeedloop hargc hid h.inside

/-- The number that digits spell. -/
def decimal (s : String) : ℤ := s.toList.foldl (fun n c => 10 * n + (c.toNat - 48 : ℕ)) 0

/-- `cmd_speedloop 7` with two motors looks at the flag of an eighth. -/
theorem not_shell_status :
    let lib : Shell.CLib := ⟨decimal, decimal, fun s => decimal s⟩
    let argv : Shell.Argv := ["cmd_speedloop", "7"]
    let cfg : ℤ → SpeedHwCfg := fun _ =>
      ⟨200000000, 1000, 0, 0, "timer4", ⟨50, 1000, 10, 200, 1, false⟩⟩
    ¬StaysInside 2 (lib.atoi (argv.arg 1)) argv.length (-1)
      (SpeedHandler.speedloop.code lib 2 argv cfg) := by
  intro lib argv cfg h
  have hid : lib.atoi (argv.arg 1) = 7 := by decide
  exact SpeedShell.not_inside_cmdSpeedloop rfl (by rw [hid]; decide) h.inside

end H750Stepper
