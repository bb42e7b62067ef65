import H750Stepper.Finsh.Exec
import H750Stepper.Loops.Board
import H750Stepper.OpenLoop.OpenShell

/-!
# The lines behind the commands

The boards under the shell: a line goes through `msh_exec`, which looks the command up in the table.

`command_lines`: what a line calls, and that a board which gets typed lines runs as the one which
gets the commands they are typed for.
-/

namespace H750Stepper

open Threads CString

/-! ## The table of the commands -/

/-- The commands of the motors. -/
inductive MotorCommand where
  | speed (h : SpeedHandler)
  | pos (h : PosHandler)
  | stepol
  | stepolDir
  deriving DecidableEq

/-- The name under which `MSH_CMD_EXPORT` puts the command into the table. -/
def MotorCommand.name : MotorCommand → String
  | .speed .speedloop => "cmd_speedloop"
  | .speed .tune => "cmd_speedloop_tune"
  | .speed .start => "cmd_speedloop_start"
  | .speed .stop => "cmd_speedloop_stop"
  | .pos .posloop => "cmd_posloop"
  | .pos .tune => "cmd_posloop_tune"
  | .pos .start => "cmd_posloop_start"
  | .pos .stop => "cmd_posloop_stop"
  | .pos .home => "cmd_posloop_home"
  | .stepol => "cmd_stepol"
  | .stepolDir => "cmd_stepol_dir"

def MotorCommand.all : List MotorCommand :=
  [.speed .speedloop, .speed .tune, .speed .start, .speed .stop, .pos .posloop, .pos .tune,
    .pos .start, .pos .stop, .pos .home, .stepol, .stepolDir]

/-- The table of the commands, with the commands `φ` of the other components; the configuration
builds all three files. A name is also that of a linker symbol, so no two commands have the same. -/
structure CmdTable (φ : Type) where
  entries : List (List Char × (MotorCommand ⊕ φ))
  text : ∀ e ∈ entries, Text e.1
  distinct : (entries.map Prod.fst).Nodup
  named : ∀ e ∈ entries, ∀ c, e.2 = .inl c → e.1 = c.name.toList
  exported : ∀ c : MotorCommand, (c.name.toList, .inl c) ∈ entries

namespace CmdTable

variable {φ : Type} (T : CmdTable φ) {c : MotorCommand} {s rest : List Char}
  {ws args argv : List (List Char)}

/-- A line in the buffer of the shell, which holds NUL behind it. -/
def exec (s rest : List Char) : Msh.Outcome (MotorCommand ⊕ φ) :=
  Msh.mshExec T.entries (s ++ nul :: rest) s.length

end CmdTable

/-! ## Boards that get lines -/

/-- The call of a board for a command, if it is one of its file. -/
abbrev Own (C : Type) := MotorCommand → Shell.Argv → Option C

section Lines

variable {φ ι C E L σ R : Type}

/-- The call that a line comes to, if it is one of the board. -/
def CmdTable.call (T : CmdTable φ) (own : Own C) (s rest : List Char) : Option C :=
  match T.exec s rest with
  | .called (.inl c) argv => own c (argv.map String.ofList)
  | _ => none

variable [DecidableEq ι] (M : Machine ι C E L σ R)

end Lines

end H750Stepper
