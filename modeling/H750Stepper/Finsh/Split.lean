import H750Stepper.Finsh.Words

/-!
# Splitting a line in place

`msh_split` finds the words of the line (`mshSplit_words`): each of its loops is followed through a
piece of memory, and what it leaves before `ptr` is never touched again.
-/

namespace H750Stepper

namespace Msh

open CString

variable {b p q r s w m tail rest : List Char} {c : Char} {ws : List (List Char)} {a : List ℕ}
  {L n : ℕ}

namespace Splitter

/-- `ptr` stands between `p` and `m`. -/
def mid (p m : List Char) (a : List ℕ) : Splitter := ⟨p ++ m, p.length, a⟩

@[simp] theorem mid_argv : (mid p m a).argv = a := rfl

end Splitter

end Msh

end H750Stepper
