import Mathlib.Tactic

/-!
# Strings in memory

Memory is a list of characters, seen from some place on; past its end it reads as NUL. The string at
a place ends before the first NUL (`str`).
-/

namespace CString

def nul : Char := '\x00'

def charAt (m : List Char) (i : ℕ) : Char := m.getD i nul

/-- The string at the place `i`. -/
def str (m : List Char) (i : ℕ) : List Char := (m.drop i).takeWhile (· ≠ nul)

/-- A string that memory can hold. -/
def Text (w : List Char) : Prop := nul ∉ w

instance : DecidablePred Text := fun w => inferInstanceAs (Decidable (nul ∉ w))

/-- `strncmp(a, b, n) == 0` for the strings `a` and `b`. -/
def strncmpEq : ℕ → List Char → List Char → Bool
  | 0, _, _ => true
  | n + 1, a, b =>
    charAt a 0 = charAt b 0 && (charAt a 0 = nul || strncmpEq n (a.drop 1) (b.drop 1))

variable {p w r m : List Char} {c : Char} {i n : ℕ}

/-! ## Places -/

end CString
