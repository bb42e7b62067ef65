import H750Stepper.Lib.CString

/-!
# The command line of the shell

`msh_exec` of `msh.c`: the line is looked up in the table of the commands and split into arguments
in place, by writing NUL over the blanks and over the quotes that close a string.
-/

namespace H750Stepper

namespace Msh

open CString

def finshArgMax : ℕ := 10

def isBlank (c : Char) : Bool := c = ' ' || c = '\t'

def quote : Char := '\x22'

def backslash : Char := '\x5c'

/-! ## Splitting -/

/-- The variables of `msh_split`; `ptr` is `cmd + position`, and the arguments are places behind
`cmd`. -/
structure Splitter where
  cmd : List Char
  position : ℕ
  argv : List ℕ
  deriving DecidableEq

namespace Splitter

/-- `*ptr` -/
def char (v : Splitter) : Char := charAt v.cmd v.position

/-- `ptr ++; position ++` -/
def next (v : Splitter) : Splitter := { v with position := v.position + 1 }

/-- `*ptr = '\0'` -/
def clear (v : Splitter) : Splitter := { v with cmd := v.cmd.set v.position nul }

/-- `argv[argc] = ptr; argc ++` -/
def addArg (v : Splitter) : Splitter := { v with argv := v.argv ++ [v.position] }

/-- Strip blanks and tabs. The loops take as fuel what is left of the line. -/
def strip (length : ℕ) : ℕ → Splitter → Splitter
  | 0, v => v
  | n + 1, v =>
    if isBlank v.char ∧ v.position < length then strip length n v.clear.next else v

/-- Skip a string up to its closing quote. -/
def skipString (length : ℕ) : ℕ → Splitter → Splitter
  | 0, v => v
  | n + 1, v =>
    if v.char ≠ quote ∧ v.position < length then
      if v.char = backslash ∧ charAt v.cmd (v.position + 1) = quote then
        skipString length n v.next.next
      else skipString length n v.next
    else v

def skipWord (length : ℕ) : ℕ → Splitter → Splitter
  | 0, v => v
  | n + 1, v =>
    if isBlank v.char = false ∧ v.position < length then skipWord length n v.next else v

/-- A round of the outer loop behind the blanks; then `more`, unless it is the last one. -/
def arg (length : ℕ) (more : Splitter → Splitter) (v : Splitter) : Splitter :=
  if finshArgMax ≤ v.argv.length then v
  else if length ≤ v.position then v
  else if v.char = quote then
    let v := v.next.addArg
    let v := v.skipString length (length - v.position)
    if length ≤ v.position then v else more v.clear.next
  else
    let v := v.addArg
    let v := v.skipWord length (length - v.position)
    if length ≤ v.position then v else more v

/-- The rounds of the outer loop; each of them that goes on has moved `ptr`. -/
def rounds (length : ℕ) : ℕ → Splitter → Splitter
  | 0, v => v
  | n + 1, v =>
    if v.position < length then
      (v.strip length (length - v.position)).arg length (rounds length n)
    else v

end Splitter

/-- The memory and the arguments after `msh_split(cmd, length, argv)`. -/
def mshSplit (cmd : List Char) (length : ℕ) : Splitter :=
  Splitter.rounds length length ⟨cmd, 0, []⟩

/-! ## Commands -/

section Table

variable {φ : Type} (table : List (List Char × φ))

def mshGetCmd (cmd : List Char) (size : ℕ) : Option φ :=
  (table.find? fun e => strncmpEq size e.1 cmd && charAt e.1 size = nul).map Prod.snd

/-- The size of the first word. -/
def cmd0Size (cmd : List Char) (length : ℕ) : ℕ :=
  ((cmd.take length).takeWhile fun c => !isBlank c).length

/-- The function that is called and the strings it finds in `argv`. -/
def mshExecCmd (cmd : List Char) (length : ℕ) : Option (φ × List (List Char)) := do
  guard (cmd0Size cmd length ≠ 0)
  let f ← mshGetCmd table cmd (cmd0Size cmd length)
  let v := mshSplit cmd length
  guard (v.argv ≠ [])
  pure (f, v.argv.map (str v.cmd))

/-- What a line comes to. -/
inductive Outcome (φ : Type) where
  | empty
  | notFound
  | called (f : φ) (argv : List (List Char))
  deriving DecidableEq

def mshExec : List Char → ℕ → Outcome φ
  | _, 0 => .empty
  | cmd, length + 1 =>
    if isBlank (charAt cmd 0) then mshExec (cmd.drop 1) length
    else match mshExecCmd table cmd (length + 1) with
      | some (f, argv) => .called f argv
      | none => .notFound

end Table

end Msh

end H750Stepper
