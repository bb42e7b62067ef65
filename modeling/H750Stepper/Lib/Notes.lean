import H750Stepper.Lib.CInt
import H750Stepper.Lib.Pool

/-!
# Programs that note what they compute

What a thread computes between two of its actions leaves no mark on the shared state. A program over
`Noted N L` says it: between the actions of `L` it makes notes of `N`, and a note changes nothing.
`quiet` is a program that makes no notes, `erase` the program without them, and `Machine.Notes` the
condition on a run that every note in it is as `Ψ` says. `along_notes` proves it of all runs by an
invariant; `Reaches.exists_not_notes` refutes it by a run to a note that is not so.

The notes used here are those on the arithmetic of C (`ArithNote`): an `int` operation with its
exact result, a conversion to `unsigned`, a division. The triples say that an operation with a
result in range returns the exact one.
-/

namespace Threads

variable {N L σ α β : Type}

/-- An action, or a note between the actions. -/
inductive Noted (N L : Type) where
  | code (l : L)
  | note (n : N)
  deriving DecidableEq

/-- What it does. -/
def Noted.eff (eff : L → σ → σ) : Noted N L → σ → σ
  | .code l, s => eff l s
  | .note _, s => s

@[simp] theorem Noted.eff_code (eff : L → σ → σ) (l : L) (s : σ) :
    (code l : Noted N L).eff eff s = eff l s := rfl

@[simp] theorem Noted.eff_note (eff : L → σ → σ) (n : N) (s : σ) :
    (note n : Noted N L).eff eff s = s := rfl

/-- The condition `Ψ` on notes, as one on actions. -/
def Noted.Meets (Ψ : N → Prop) : Noted N L → Prop
  | .code _ => True
  | .note n => Ψ n

@[simp] theorem Noted.meets_code (Ψ : N → Prop) (l : L) : (code l).Meets Ψ := trivial

@[simp] theorem Noted.meets_note (Ψ : N → Prop) (n : N) : (note n : Noted N L).Meets Ψ ↔ Ψ n :=
  Iff.rfl

namespace Prog

/-- A program that makes no notes. -/
def quiet (p : Prog L σ α) : Prog (Noted N L) σ α := p.zoom Noted.code id

/-- Make a note. -/
def note (n : N) : Prog (Noted N L) σ Unit := perform (.note n)

@[simp] theorem quiet_ask (l : L) (f : σ → α) :
    quiet (ask l f) = (ask (.code l) f : Prog (Noted N L) σ α) := rfl

@[simp] theorem quiet_perform (l : L) :
    quiet (perform l) = (perform (.code l) : Prog (Noted N L) σ Unit) := rfl

@[simp] theorem quiet_act (l : L) (k : σ → Prog L σ α) :
    quiet (act l k) = (act (.code l) fun s => quiet (k s) : Prog (Noted N L) σ α) := rfl

theorem quiet_bind (p : Prog L σ α) (g : α → Prog L σ β) :
    (quiet (p >>= g) : Prog (Noted N L) σ β) = quiet p >>= fun a => quiet (g a) := zoom_bind ..

theorem quiet_ite (c : Prop) [Decidable c] (p q : Prog L σ α) :
    (quiet (if c then p else q) : Prog (Noted N L) σ α) = if c then quiet p else quiet q :=
  zoom_ite ..

theorem quiet_when (c : Prop) [Decidable c] (p : Prog L σ Unit) :
    (quiet (when c p) : Prog (Noted N L) σ Unit) = when c (quiet p) := zoom_ite ..

@[simp] theorem all_quiet {Φ : Noted N L → Prop} {p : Prog L σ α} :
    (quiet p).All Φ ↔ p.All fun l => Φ (.code l) :=
  all_zoom Function.surjective_id

@[simp] theorem all_note {Φ : Noted N L → Prop} (n : N) :
    (note n : Prog (Noted N L) σ Unit).All Φ ↔ Φ (.note n) := all_perform _

/-- A quiet program makes no note that is not as `Ψ` says. -/
theorem quiet_meets (Ψ : N → Prop) (p : Prog L σ α) : (quiet p).All (Noted.Meets Ψ) := by simp

@[simp] theorem exec_quiet (eff : L → σ → σ) (p : Prog L σ α) (s : σ) :
    (quiet p : Prog (Noted N L) σ α).exec (Noted.eff eff) s = p.exec eff s := by
  induction p generalizing s with
  | ret a => rfl
  | act l k ih => exact ih _ _

/-! ## Without the notes -/

section Erase

variable [Inhabited σ]

/-- The program less its notes. What follows a note does not depend on the state. -/
def erase : Prog (Noted N L) σ α → Prog L σ α
  | ret a => ret a
  | act (.code l) k => act l fun s => erase (k s)
  | act (.note _) k => erase (k default)

@[simp] theorem erase_ret (a : α) : erase (ret a : Prog (Noted N L) σ α) = ret a := rfl

@[simp] theorem erase_act_code (l : L) (k : σ → Prog (Noted N L) σ α) :
    erase (act (.code l) k) = act l fun s => erase (k s) := rfl

@[simp] theorem erase_ask_code (l : L) (f : σ → α) :
    erase (ask (.code l) f : Prog (Noted N L) σ α) = ask l f := rfl

@[simp] theorem erase_perform_code (l : L) :
    erase (perform (.code l) : Prog (Noted N L) σ Unit) = perform l := rfl

@[simp] theorem erase_note_bind (n : N) (g : Unit → Prog (Noted N L) σ α) :
    erase (note n >>= g) = erase (g ()) := rfl

@[simp] theorem erase_bind (p : Prog (Noted N L) σ α) (g : α → Prog (Noted N L) σ β) :
    erase (p >>= g) = erase p >>= fun a => erase (g a) := by
  induction p with
  | ret a => rfl
  | act l k ih =>
    cases l with
    | code l => exact congrArg (act l) (funext ih)
    | note n => exact ih default

@[simp] theorem erase_quiet (p : Prog L σ α) : erase (quiet p : Prog (Noted N L) σ α) = p := by
  induction p with
  | ret a => rfl
  | act l k ih => exact congrArg (act l) (funext ih)

@[simp] theorem erase_ite (c : Prop) [Decidable c] (p q : Prog (Noted N L) σ α) :
    erase (if c then p else q) = if c then erase p else erase q := by
  split_ifs <;> rfl

@[simp] theorem erase_poll (n : ℕ) (body : Prog (Noted N L) σ (Option β)) :
    erase (poll n body) = poll n (erase body) := by
  induction n with
  | zero => rfl
  | succ n ih =>
    refine (erase_bind body _).trans (congrArg _ (funext fun o => ?_))
    cases o with
    | none => exact ih
    | some b => rfl

end Erase

/-! ## What an uninterrupted program comes to -/

/-- When nobody interrupts the program, it performs an action that meets `Φ` in the state that the
action finds. -/
def Visits (eff : L → σ → σ) (Φ : L → σ → Prop) : Prog L σ α → σ → Prop
  | ret _, _ => False
  | act l k, s => Φ l s ∨ Visits eff Φ (k (eff l s)) (eff l s)

section Visits

variable {eff : L → σ → σ} {Φ : L → σ → Prop} {s : σ}

@[simp] theorem visits_act {l : L} {k : σ → Prog L σ α} :
    Visits eff Φ (act l k) s ↔ Φ l s ∨ Visits eff Φ (k (eff l s)) (eff l s) := Iff.rfl

theorem visits_bind {p : Prog L σ α} {g : α → Prog L σ β} :
    Visits eff Φ (p >>= g) s ↔
      Visits eff Φ p s ∨ Visits eff Φ (g (exec eff p s).1) (exec eff p s).2 := by
  induction p generalizing s with
  | ret a => simp [Visits]
  | act l k ih => simp [ih, or_assoc]

theorem Visits.bind_left {p : Prog L σ α} {g : α → Prog L σ β} (h : Visits eff Φ p s) :
    Visits eff Φ (p >>= g) s := visits_bind.mpr (.inl h)

theorem Visits.bind_right {p : Prog L σ α} {g : α → Prog L σ β}
    (h : Visits eff Φ (g (exec eff p s).1) (exec eff p s).2) : Visits eff Φ (p >>= g) s :=
  visits_bind.mpr (.inr h)

theorem visits_quiet {Φ : Noted N L → σ → Prop} {p : Prog L σ α} :
    Visits (Noted.eff eff) Φ (quiet p) s ↔ Visits eff (fun l => Φ (.code l)) p s := by
  induction p generalizing s with
  | ret a => rfl
  | act l k ih => exact or_congr Iff.rfl (ih _)

end Visits

end Prog

/-! ## Notes in a run -/

namespace Machine

variable {ι C E R : Type} [DecidableEq ι]

theorem along_append {M : Machine ι C E L σ R} {Cond : Pool ι L σ R → Event ι C E → Prop}
    {p : Pool ι L σ R} {es es' : List (Event ι C E)} :
    M.Along Cond p (es ++ es') ↔ M.Along Cond p es ∧ M.Along Cond (M.run p es) es' := by
  induction es generalizing p with
  | nil => simp [Along]
  | cons e es ih => simp [Along, ih, and_assoc]

theorem along_true (M : Machine ι C E L σ R) (p : Pool ι L σ R) (es : List (Event ι C E)) :
    M.Along (fun _ _ => True) p es := by
  induction es generalizing p with
  | nil => trivial
  | cons e es ih => exact ⟨trivial, ih _⟩

/-- Some run leads from the one pool to the other. -/
def Reaches (M : Machine ι C E L σ R) (p q : Pool ι L σ R) : Prop := ∃ es, M.run p es = q

section Reaches

variable {M : Machine ι C E L σ R} {p q : Pool ι L σ R} {t : ι}

theorem Reaches.trans {q' : Pool ι L σ R} (h : M.Reaches p q) (h' : M.Reaches q q') :
    M.Reaches p q' := by
  obtain ⟨es, rfl⟩ := h
  obtain ⟨es', rfl⟩ := h'
  exact ⟨es ++ es', List.foldl_append⟩

theorem reaches_next (p : Pool ι L σ R) (e : Event ι C E) : M.Reaches p (M.next p e) := ⟨[e], rfl⟩

/-- A thread that nobody interrupts returns what it does alone. -/
theorem reaches_alone (p : Pool ι L σ R) (t : ι) :
    ∃ q, M.Reaches p q ∧ q.st = ((p.thr t).exec M.eff p.st).2 ∧
      q.thr t = .ret ((p.thr t).exec M.eff p.st).1 ∧ ∀ u ≠ t, q.thr u = p.thr u := by
  generalize hp : p.thr t = P
  induction P generalizing p with
  | ret a => exact ⟨p, ⟨[], rfl⟩, rfl, hp, fun _ _ => rfl⟩
  | act l k ih =>
    have hthr : (M.next p (.step t)).thr t = k (M.eff l p.st) := by simp [next, hp]
    have hst : (M.next p (.step t)).st = M.eff l p.st := by simp [next, hp]
    obtain ⟨q, hq, hqst, hret, hothers⟩ := ih _ _ hthr
    rw [hst] at hqst hret
    refine ⟨q, (reaches_next p (.step t)).trans hq, hqst, hret, fun u hu => ?_⟩
    rw [hothers u hu]
    simp [next, hu]

/-- A thread that nobody interrupts comes to what it visits alone. -/
theorem reaches_visit {Φ : L → σ → Prop} (h : (p.thr t).Visits M.eff Φ p.st) :
    ∃ q l, M.Reaches p q ∧ (q.thr t).head = some l ∧ Φ l q.st ∧ ∀ u ≠ t, q.thr u = p.thr u := by
  generalize hp : p.thr t = P at h
  induction P generalizing p with
  | ret a => cases h
  | act l k ih =>
    rcases h with hl | h
    · exact ⟨p, l, ⟨[], rfl⟩, by simp [hp], hl, fun _ _ => rfl⟩
    · have hthr : (M.next p (.step t)).thr t = k (M.eff l p.st) := by simp [next, hp]
      have hst : (M.next p (.step t)).st = M.eff l p.st := by simp [next, hp]
      obtain ⟨q, l', hq, hhead, hΦ, hothers⟩ := ih _ hthr (by rwa [hst])
      refine ⟨q, l', (reaches_next p (.step t)).trans hq, hhead, hΦ, fun u hu => ?_⟩
      rw [hothers u hu]
      simp [next, hu]

variable {r : R} (hfree : p.thr t = .ret r) (c : C)

include hfree

/-- A free thread takes a call. -/
theorem reaches_called :
    ∃ q, M.Reaches p q ∧ q.st = p.st ∧ q.thr t = M.code t c ∧ ∀ u ≠ t, q.thr u = p.thr u := by
  refine ⟨M.next p (.call t c), reaches_next p _, next_call_st M p t c, ?_, fun u hu => ?_⟩ <;>
    rw [next_call_of_ret M hfree]
  · exact Function.update_self ..
  · exact Function.update_of_ne hu ..

/-- A free thread makes a call that nobody interrupts. -/
theorem reaches_call :
    ∃ q, M.Reaches p q ∧ q.st = ((M.code t c).exec M.eff p.st).2 ∧
      q.thr t = .ret ((M.code t c).exec M.eff p.st).1 ∧ ∀ u ≠ t, q.thr u = p.thr u := by
  obtain ⟨p', hp', hst, hcode, hothers⟩ := reaches_called hfree c
  obtain ⟨q, hq, hqst, hret, hqothers⟩ := reaches_alone (M := M) p' t
  rw [hst, hcode] at hqst hret
  exact ⟨q, hp'.trans hq, hqst, hret, fun u hu => (hqothers u hu).trans (hothers u hu)⟩

/-- A free thread makes a call that nobody interrupts before it comes to `Φ`. -/
theorem reaches_call_visit {Φ : L → σ → Prop} (h : (M.code t c).Visits M.eff Φ p.st) :
    ∃ q l, M.Reaches p q ∧ (q.thr t).head = some l ∧ Φ l q.st ∧ ∀ u ≠ t, q.thr u = p.thr u := by
  obtain ⟨p', hp', hst, hcode, hothers⟩ := reaches_called hfree c
  obtain ⟨q, l, hq, hhead, hΦ, hqothers⟩ := reaches_visit (M := M) (p := p') (by rwa [hst, hcode])
  exact ⟨q, l, hp'.trans hq, hhead, hΦ, fun u hu => (hqothers u hu).trans (hothers u hu)⟩

end Reaches

/-- The note that the event makes, if any, is as `Ψ` says. -/
def Notes (Ψ : N → Prop) (p : Pool ι (Noted N L) σ R) : Event ι C E → Prop
  | .step t => ∀ n, (p.thr t).head = some (.note n) → Ψ n
  | _ => True

instance (Ψ : N → Prop) [DecidablePred Ψ] (p : Pool ι (Noted N L) σ R) (e : Event ι C E) :
    Decidable (Notes Ψ p e) :=
  match e with
  | .step t => match h : (p.thr t).head with
    | some (.note n) => decidable_of_iff (Ψ n) (by simp [Notes, h])
    | some (.code l) => .isTrue (by simp [Notes, h])
    | none => .isTrue (by simp [Notes, h])
  | .call _ _ | .env _ => .isTrue trivial

theorem along_notes_imp {M : Machine ι C E (Noted N L) σ R} {Ψ Ψ' : N → Prop}
    (hΨ : ∀ n, Ψ n → Ψ' n) {p : Pool ι (Noted N L) σ R} {es : List (Event ι C E)}
    (h : M.Along (Notes Ψ) p es) : M.Along (Notes Ψ') p es := by
  induction es generalizing p with
  | nil => trivial
  | cons e es ih =>
    refine ⟨?_, ih h.2⟩
    cases e with
    | step t => exact fun n hn => hΨ n (h.1 n hn)
    | call t c => trivial
    | env e => trivial

/-- The notes of a run are among those that the programs of the threads can come to. -/
theorem along_notes_of_all {M : Machine ι C E (Noted N L) σ R} {Ψ : N → Prop}
    (hcall : ∀ t c, (M.code t c).All (Noted.Meets Ψ)) {p : Pool ι (Noted N L) σ R}
    (hp : ∀ t, (p.thr t).All (Noted.Meets Ψ)) (es : List (Event ι C E)) :
    M.Along (Notes Ψ) p es := by
  induction es generalizing p with
  | nil => trivial
  | cons e es ih =>
    refine ⟨?_, ih (all_next (Φ := fun _ => Noted.Meets Ψ) (fun _ _ => True)
      (fun t c _ => hcall t c) hp e (by cases e <;> trivial))⟩
    cases e with
    | step t => exact fun n hn => (hp t).head hn
    | call t c => trivial
    | env e => trivial

/-- The notes of a run are as an invariant of the run says. -/
theorem along_notes {M : Machine ι C E (Noted N L) σ R} {Inv : Pool ι (Noted N L) σ R → Prop}
    {Cond : Pool ι (Noted N L) σ R → Event ι C E → Prop} {Ψ : N → Prop}
    (hnext : ∀ p e, Inv p → Cond p e → Inv (M.next p e))
    (hnote : ∀ p t n, Inv p → Cond p (.step t) → (p.thr t).head = some (.note n) → Ψ n)
    {p : Pool ι (Noted N L) σ R} (hp : Inv p) {es : List (Event ι C E)} (hes : M.Along Cond p es) :
    M.Along (Notes Ψ) p es := by
  induction es generalizing p with
  | nil => trivial
  | cons e es ih =>
    refine ⟨?_, ih (hnext p e hp hes.1) hes.2⟩
    cases e with
    | step t => exact fun n hn => hnote p t n hp hes.1 hn
    | call t c => trivial
    | env e => trivial

/-- A note that a thread visits in some pool that a run reaches is one of some run. -/
theorem Reaches.exists_not_notes {M : Machine ι C E (Noted N L) σ R}
    {p q : Pool ι (Noted N L) σ R} (h : M.Reaches p q) {t : ι} {Ψ : N → Prop} {n : N}
    (hn : (q.thr t).Visits M.eff (fun l _ => l = .note n) q.st) (hΨ : ¬Ψ n) :
    ∃ es, ¬M.Along (Notes Ψ) p es := by
  obtain ⟨q', l, hq', hl, rfl, -⟩ := reaches_visit hn
  obtain ⟨es, rfl⟩ := h.trans hq'
  exact ⟨es ++ [.step t], fun hes => hΨ ((along_append.mp hes).2.1 n hl)⟩

end Machine

/-! ## Arithmetic -/

/-- What the arithmetic of C asks to hold: the exact result of an operation on `int` or of a
conversion to it, that of a conversion to `unsigned`, and the divisor of a division. -/
inductive ArithNote where
  | signed (v : ℤ)
  | unsigned (v : ℤ)
  | divisor (d : ℚ)
  deriving DecidableEq

namespace ArithNote

open Prog CInt

/-- The divisor is not zero. -/
def NonZero : ArithNote → Prop
  | divisor d => d ≠ 0
  | _ => True

/-- The result is one of `int`. -/
def SignedFits : ArithNote → Prop
  | signed v => Fits 32 v
  | _ => True

/-- The result is one of `int`, also that of a conversion to `unsigned`. -/
def IntFits : ArithNote → Prop
  | signed v | unsigned v => Fits 32 v
  | divisor _ => True

instance : DecidablePred SignedFits
  | signed v => inferInstanceAs (Decidable (Fits 32 v))
  | unsigned _ | divisor _ => .isTrue trivial

instance : DecidablePred IntFits
  | signed v | unsigned v => inferInstanceAs (Decidable (Fits 32 v))
  | divisor _ => .isTrue trivial

variable {L σ : Type}

/-- `x + y` on `int` -/
def add (x y : ℤ) : Prog (Noted ArithNote L) σ ℤ := do
  note (signed (x + y))
  return wrap 32 (x + y)

/-- `x - y` on `int` -/
def sub (x y : ℤ) : Prog (Noted ArithNote L) σ ℤ := do
  note (signed (x - y))
  return sub32 x y

/-- `-x` on `int` -/
def neg (x : ℤ) : Prog (Noted ArithNote L) σ ℤ := do
  note (signed (-x))
  return wrap 32 (-x)

/-- `abs` -/
def abs (x : ℤ) : Prog (Noted ArithNote L) σ ℤ := do
  note (signed |x|)
  return abs32 x

/-- The conversion to `int`. -/
def toInt (q : ℚ) : Prog (Noted ArithNote L) σ ℤ := do
  note (signed (trunc q))
  return toInt32 q

/-- The conversion to `unsigned`. -/
def toUnsigned (q : ℚ) : Prog (Noted ArithNote L) σ ℕ := do
  note (unsigned (trunc q))
  return toUInt32 q

/-- `x / y` on `float` -/
def div (x y : ℚ) : Prog (Noted ArithNote L) σ ℚ := do
  note (divisor y)
  return x / y

/-- `x / y` on `unsigned`; a division by zero gives zero. -/
def udiv (x y : ℕ) : Prog (Noted ArithNote L) σ ℕ := do
  note (divisor y)
  return x / y

section Erase

variable [Inhabited σ]

@[simp] theorem erase_add (x y : ℤ) :
    (add x y : Prog (Noted ArithNote L) σ ℤ).erase = .ret (wrap 32 (x + y)) := rfl

@[simp] theorem erase_sub (x y : ℤ) :
    (sub x y : Prog (Noted ArithNote L) σ ℤ).erase = .ret (sub32 x y) := rfl

@[simp] theorem erase_neg (x : ℤ) :
    (neg x : Prog (Noted ArithNote L) σ ℤ).erase = .ret (wrap 32 (-x)) := rfl

@[simp] theorem erase_abs (x : ℤ) :
    (abs x : Prog (Noted ArithNote L) σ ℤ).erase = .ret (abs32 x) := rfl

@[simp] theorem erase_toInt (q : ℚ) :
    (toInt q : Prog (Noted ArithNote L) σ ℤ).erase = .ret (toInt32 q) := rfl

@[simp] theorem erase_toUnsigned (q : ℚ) :
    (toUnsigned q : Prog (Noted ArithNote L) σ ℕ).erase = .ret (toUInt32 q) := rfl

@[simp] theorem erase_div (x y : ℚ) :
    (div x y : Prog (Noted ArithNote L) σ ℚ).erase = .ret (x / y) := rfl

end Erase

section All

variable {Φ : Noted ArithNote L → Prop}

@[simp] theorem all_add (x y : ℤ) :
    (add x y : Prog (Noted ArithNote L) σ ℤ).All Φ ↔ Φ (.note (signed (x + y))) := by simp [add]

@[simp] theorem all_sub (x y : ℤ) :
    (sub x y : Prog (Noted ArithNote L) σ ℤ).All Φ ↔ Φ (.note (signed (x - y))) := by simp [sub]

@[simp] theorem all_neg (x : ℤ) :
    (neg x : Prog (Noted ArithNote L) σ ℤ).All Φ ↔ Φ (.note (signed (-x))) := by simp [neg]

@[simp] theorem all_abs (x : ℤ) :
    (abs x : Prog (Noted ArithNote L) σ ℤ).All Φ ↔ Φ (.note (signed |x|)) := by simp [abs]

@[simp] theorem all_toInt (q : ℚ) :
    (toInt q : Prog (Noted ArithNote L) σ ℤ).All Φ ↔ Φ (.note (signed (trunc q))) := by
  simp [toInt]

@[simp] theorem all_toUnsigned (q : ℚ) :
    (toUnsigned q : Prog (Noted ArithNote L) σ ℕ).All Φ ↔ Φ (.note (unsigned (trunc q))) := by
  simp [toUnsigned]

@[simp] theorem all_div (x y : ℚ) :
    (div x y : Prog (Noted ArithNote L) σ ℚ).All Φ ↔ Φ (.note (divisor y)) := by simp [div]

@[simp] theorem all_udiv (x y : ℕ) :
    (udiv x y : Prog (Noted ArithNote L) σ ℕ).All Φ ↔ Φ (.note (divisor y)) := by simp [udiv]

end All

/-! ## Exact results -/

section Triples

variable {eff : L → σ → σ} {A : Set (σ → Prop)} {ok pre : Noted ArithNote L → σ → Prop}
  {P : σ → Prop}

/-- A note that the outline admits. -/
theorem triple_note (hP : Stable A P) {n : ArithNote} (hn : ∀ s, pre (.note n) s) :
    Triple (Noted.eff eff) A ok pre P (Prog.note n) fun _ => P :=
  Triple.perform hP fun s hs _ => ⟨hn s, hs⟩

variable (hpre : ∀ v s, Fits 32 v → pre (.note (signed v)) s) (hP : Stable A P)

include hpre hP

theorem triple_add {x y : ℤ} (h : Fits 32 (x + y)) :
    Triple (Noted.eff eff) A ok pre P (add x y) fun v s => v = x + y ∧ P s :=
  (triple_note hP fun s => hpre _ s h).bind fun _ => Triple.ret fun _ hs => ⟨wrap_of_fits h, hs⟩

theorem triple_sub {x y : ℤ} (h : Fits 32 (x - y)) :
    Triple (Noted.eff eff) A ok pre P (sub x y) fun v s => v = x - y ∧ P s :=
  (triple_note hP fun s => hpre _ s h).bind fun _ => Triple.ret fun _ hs => ⟨wrap_of_fits h, hs⟩

theorem triple_neg {x : ℤ} (h : Fits 32 (-x)) :
    Triple (Noted.eff eff) A ok pre P (neg x) fun v s => v = -x ∧ P s :=
  (triple_note hP fun s => hpre _ s h).bind fun _ => Triple.ret fun _ hs => ⟨wrap_of_fits h, hs⟩

theorem triple_abs {x : ℤ} (h : Fits 32 |x|) :
    Triple (Noted.eff eff) A ok pre P (abs x) fun v s => v = |x| ∧ P s :=
  (triple_note hP fun s => hpre _ s h).bind fun _ => Triple.ret fun _ hs => ⟨wrap_of_fits h, hs⟩

theorem triple_toInt {q : ℚ} (h : Fits 32 (trunc q)) :
    Triple (Noted.eff eff) A ok pre P (toInt q) fun v s => v = trunc q ∧ P s :=
  (triple_note hP fun s => hpre _ s h).bind fun _ => Triple.ret fun _ hs => ⟨toInt32_of_fits h, hs⟩

end Triples

end ArithNote

end Threads
