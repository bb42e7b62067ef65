import H750Stepper.Finsh.Msh

/-!
# The words of a line

The grammar of command lines (`Words`): words and quoted strings between blanks. Every line has its
words, and `msh_split` finds the first ten of them: in the memory it leaves, the strings at the
places in `argv` are these words.
-/

namespace H750Stepper

namespace Msh

open CString

def Blank (b : List Char) : Prop := ∀ c ∈ b, isBlank c = true

instance : DecidablePred Blank := fun b => List.decidableBAll (isBlank · = true) b

/-- A word that is not quoted. -/
structure Bare (w : List Char) : Prop where
  ne_nil : w ≠ []
  noBlank : ∀ c ∈ w, isBlank c = false
  noQuote : w.head? ≠ some quote

theorem bare_iff {w : List Char} :
    Bare w ↔ w ≠ [] ∧ (w.all fun c => !isBlank c) = true ∧ w.head? ≠ some quote := by
  refine ⟨fun h => ⟨h.ne_nil, ?_, h.noQuote⟩, fun h => ⟨h.1, ?_, h.2.2⟩⟩
  · exact List.all_eq_true.mpr fun c hc => by simp [h.noBlank c hc]
  · exact fun c hc => by simpa using List.all_eq_true.mp h.2.1 c hc

instance : DecidablePred Bare := fun _ => decidable_of_iff _ bare_iff.symm

/-- The inside of a string that `r` follows: a quote in it stands behind a backslash. -/
inductive Quoted (r : List Char) : List Char → Prop where
  | nil : Quoted r []
  | escaped {q : List Char} (h : Quoted r q) : Quoted r (backslash :: quote :: q)
  | char {c : Char} {q : List Char} (hc : c ≠ quote)
      (hnext : c = backslash → (q ++ r).head? ≠ some quote) (h : Quoted r q) : Quoted r (c :: q)

/-- The words of a line that `tail` follows in memory. A word or string that the line does not end
runs into the tail. -/
inductive Words (tail : List Char) : List Char → List (List Char) → Prop where
  | nil {b : List Char} (hb : Blank b) : Words tail b []
  | last {b w : List Char} (hb : Blank b) (hw : Bare w) : Words tail (b ++ w) [w ++ tail]
  | word {b w s : List Char} {c : Char} {ws : List (List Char)} (hb : Blank b) (hw : Bare w)
      (hc : isBlank c = true) (h : Words tail (c :: s) ws) :
      Words tail (b ++ (w ++ c :: s)) (w :: ws)
  | string {b q s : List Char} {ws : List (List Char)} (hb : Blank b) (hq : Quoted (quote :: s) q)
      (h : Words tail s ws) : Words tail (b ++ quote :: (q ++ quote :: s)) (q :: ws)
  | unclosed {b q : List Char} (hb : Blank b) (hq : Quoted [] q) :
      Words tail (b ++ quote :: q) [q ++ tail]

variable {b p q r s w m tail rest : List Char} {c : Char} {ws : List (List Char)} {a : List ℕ}
  {L n : ℕ}

theorem isBlank_quote : isBlank quote = false := by decide

theorem head_quote (m : List Char) : ∀ x ∈ (quote :: m).head?, isBlank x = false := by
  simp [isBlank_quote]

theorem Bare.head_append (hw : Bare w) : ∀ x ∈ (w ++ m).head?, isBlank x = false := by
  obtain ⟨d, t, rfl⟩ := List.exists_cons_of_ne_nil hw.ne_nil
  simpa using hw.noBlank d List.mem_cons_self

theorem Bare.head (hw : Bare w) : ∀ x ∈ w.head?, isBlank x = false := by
  simpa using hw.head_append (m := [])

/-! ## Every line has its words -/

end Msh

end H750Stepper
