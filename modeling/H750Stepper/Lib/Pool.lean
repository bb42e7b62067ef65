import H750Stepper.Lib.Outline

/-!
# Interleavings

A `Machine` says what the actions do, which programs the threads may call, and how the environment
may change the shared state. A `Pool` is the shared state with what each thread still has to run. A
run is any list of events: a thread that is free takes a call, a thread performs one action, the
environment acts. So a run is an arbitrary interleaving, cut at an arbitrary point.

`Machine.run_inv` is the induction over a run; a condition on the steps of the run is stated with
`Along`. `Machine.outlines_next` puts the proof outlines of the threads together: each action of one
thread, under its precondition, must keep the assertions the other threads rely on.
-/

namespace Threads

/-- Threads `ι` that call programs named by `C`, actions `L` on a shared state `σ`, results in `R`,
and moves `E` of the environment. -/
structure Machine (ι C E L σ R : Type) where
  eff : L → σ → σ
  code : ι → C → Prog L σ R
  env : E → σ → σ

/-- The shared state, and what is left of each thread's call. -/
structure Pool (ι L σ R : Type) where
  st : σ
  thr : ι → Prog L σ R

/-- All threads are free. -/
def Pool.idle {ι L σ R : Type} (s : σ) (r : R) : Pool ι L σ R := ⟨s, fun _ => .ret r⟩

/-- One step of a run. -/
inductive Event (ι C E : Type) where
  | call (t : ι) (c : C)
  | step (t : ι)
  | env (e : E)

namespace Machine

variable {ι C E L σ R : Type} [DecidableEq ι] (M : Machine ι C E L σ R)

/-- The pool after one event. A call to a thread that is not free is lost. -/
def next (p : Pool ι L σ R) : Event ι C E → Pool ι L σ R
  | .call t c => match p.thr t with
    | .ret _ => { p with thr := Function.update p.thr t (M.code t c) }
    | .act _ _ => p
  | .step t =>
    ⟨((p.thr t).step M.eff p.st).2, Function.update p.thr t ((p.thr t).step M.eff p.st).1⟩
  | .env e => { p with st := M.env e p.st }

theorem next_call_of_ret {p : Pool ι L σ R} {t : ι} {r : R} (h : p.thr t = .ret r) (c : C) :
    M.next p (.call t c) = { p with thr := Function.update p.thr t (M.code t c) } := by
  simp only [next, h]

theorem next_call_of_act {p : Pool ι L σ R} {t : ι} {l : L} {k : σ → Prog L σ R}
    (h : p.thr t = .act l k) (c : C) : M.next p (.call t c) = p := by
  simp only [next, h]

theorem next_call_st (p : Pool ι L σ R) (t : ι) (c : C) : (M.next p (.call t c)).st = p.st := by
  cases h : p.thr t with
  | ret r => rw [next_call_of_ret M h]
  | act l k => rw [next_call_of_act M h]

/-- A step of a free thread does nothing. -/
theorem next_step_of_none {p : Pool ι L σ R} {t : ι} (h : (p.thr t).head = none) :
    M.next p (.step t) = p := by
  obtain ⟨r, hr⟩ := Prog.exists_of_head_eq_none h
  simp only [next, hr, Prog.step_ret]
  rw [← hr, Function.update_eq_self]

/-- A step of another thread performs its next action. -/
theorem next_step_st {p : Pool ι L σ R} {t : ι} {l : L} (h : (p.thr t).head = some l) :
    (M.next p (.step t)).st = M.eff l p.st := by
  obtain ⟨k, hk⟩ := Prog.exists_of_head_eq_some h
  simp only [next, hk, Prog.step_act]

/-- The pool after a run. -/
def run (p : Pool ι L σ R) (es : List (Event ι C E)) : Pool ι L σ R := es.foldl M.next p

/-- Every event of the run meets the condition in the pool it finds. -/
def Along (Cond : Pool ι L σ R → Event ι C E → Prop) (p : Pool ι L σ R) :
    List (Event ι C E) → Prop
  | [] => True
  | e :: es => Cond p e ∧ Along Cond (M.next p e) es

instance Along.decidable (Cond : Pool ι L σ R → Event ι C E → Prop)
    [∀ p e, Decidable (Cond p e)] :
    ∀ (p : Pool ι L σ R) (es : List (Event ι C E)), Decidable (M.Along Cond p es)
  | _, [] => .isTrue trivial
  | p, e :: es =>
    have := Along.decidable Cond (M.next p e) es
    inferInstanceAs (Decidable (Cond p e ∧ M.Along Cond (M.next p e) es))

@[simp] theorem run_nil (p : Pool ι L σ R) : M.run p [] = p := rfl

@[simp] theorem run_cons (p : Pool ι L σ R) (e : Event ι C E) (es : List (Event ι C E)) :
    M.run p (e :: es) = M.run (M.next p e) es := rfl

/-- An invariant that every step keeps holds after every run. -/
theorem run_of_next {Inv : Pool ι L σ R → Prop} (hnext : ∀ p e, Inv p → Inv (M.next p e))
    {p : Pool ι L σ R} (hp : Inv p) (es : List (Event ι C E)) : Inv (M.run p es) := by
  induction es generalizing p with
  | nil => exact hp
  | cons e es ih => exact ih (hnext p e hp)

variable {M} {Cond : Pool ι L σ R → Event ι C E → Prop}

/-- An invariant that each step of the run keeps holds after the run. -/
theorem run_inv {Inv : Pool ι L σ R → Prop}
    (hnext : ∀ p e, Inv p → Cond p e → Inv (M.next p e)) {p : Pool ι L σ R} (hp : Inv p)
    {es : List (Event ι C E)} (hes : M.Along Cond p es) : Inv (M.run p es) := by
  induction es generalizing p with
  | nil => exact hp
  | cons e es ih => exact ih (hnext p e hp hes.1) hes.2

/-- Every step of the run also finds an invariant of all runs. -/
theorem along_inv {Inv : Pool ι L σ R → Prop} (hnext : ∀ p e, Inv p → Inv (M.next p e))
    {p : Pool ι L σ R} (hp : Inv p) {es : List (Event ι C E)} (hes : M.Along Cond p es) :
    M.Along (fun p e => Inv p ∧ Cond p e) p es := by
  induction es generalizing p with
  | nil => trivial
  | cons e es ih => exact ⟨⟨hp, hes.1⟩, ih (hnext p e hp) hes.2⟩

/-- An assertion on the shared state that the next action of each thread and the environment
keep. -/
theorem st_next {I : σ → Prop} {p : Pool ι L σ R} (hI : I p.st) (e : Event ι C E)
    (he : match e with
      | .call _ _ => True
      | .step t => ∀ l, (p.thr t).head = some l → I (M.eff l p.st)
      | .env e => I (M.env e p.st)) :
    I (M.next p e).st := by
  cases e with
  | call t c => rwa [next_call_st]
  | step t =>
    cases hl : (p.thr t).head with
    | none => rwa [next_step_of_none M hl]
    | some l =>
      rw [next_step_st M hl]
      exact he l hl
  | env e => exact he

/-! ## What the threads may still do -/

/-- A property of programs that each action hands on holds of what is left of every call, if it
holds of the calls. -/
theorem left_next {H : ι → Prog L σ R → Prop} (callOk : ι → C → Prop)
    (hstep : ∀ t p s, H t p → H t (p.step M.eff s).1)
    (hcall : ∀ t c, callOk t c → H t (M.code t c)) {p : Pool ι L σ R} (hp : ∀ t, H t (p.thr t))
    (e : Event ι C E)
    (he : match e with
      | .call t c => callOk t c
      | _ => True) (t : ι) :
    H t ((M.next p e).thr t) := by
  cases e with
  | call u c =>
    cases hpu : p.thr u with
    | act l k => rw [next_call_of_act M hpu]; exact hp t
    | ret r =>
      rw [next_call_of_ret M hpu]
      rcases eq_or_ne t u with rfl | hu
      · simpa using hcall t c he
      · simpa [hu] using hp t
  | step u =>
    rcases eq_or_ne t u with rfl | hu
    · simpa [next] using hstep t _ p.st (hp t)
    · simpa [next, hu] using hp t
  | env e => exact hp t

/-- A bound on the actions of each thread's calls bounds what is left of them. -/
theorem all_next {Φ : ι → L → Prop} (callOk : ι → C → Prop)
    (hcall : ∀ t c, callOk t c → (M.code t c).All (Φ t)) {p : Pool ι L σ R}
    (hp : ∀ t, (p.thr t).All (Φ t)) (e : Event ι C E)
    (he : match e with
      | .call t c => callOk t c
      | _ => True) (t : ι) :
    ((M.next p e).thr t).All (Φ t) :=
  left_next (H := fun t p => p.All (Φ t)) callOk (fun _ _ s h => h.step M.eff s) hcall hp e he t

/-! ## Threads that keep one invariant -/

section Safe

variable {ok : L → σ → Prop} {I : σ → Prop}

/-- All threads keep `I`: then so does any next event that `ok` and the environment grant. -/
theorem safe_next (envOk : E → σ → Prop) (callOk : ι → C → Prop)
    (henv : ∀ e s, envOk e s → I s → I (M.env e s))
    (hcall : ∀ t c, callOk t c → (M.code t c).Safe M.eff ok I)
    {p : Pool ι L σ R} (hI : I p.st) (hp : ∀ t, (p.thr t).Safe M.eff ok I) (e : Event ι C E)
    (he : match e with
      | .call t c => callOk t c
      | .step t => ∀ l, (p.thr t).head = some l → ok l p.st
      | .env e => envOk e p.st) :
    I (M.next p e).st ∧ ∀ t, ((M.next p e).thr t).Safe M.eff ok I := by
  cases e with
  | call t c =>
    cases hpt : p.thr t with
    | act l k => rw [next_call_of_act M hpt]; exact ⟨hI, hp⟩
    | ret r =>
      rw [next_call_of_ret M hpt]
      refine ⟨hI, fun u => ?_⟩
      rcases eq_or_ne u t with rfl | hu
      · simpa using hcall u c he
      · simpa [hu] using hp u
  | step t =>
    refine ⟨((hp t).step hI he).1, fun u => ?_⟩
    rcases eq_or_ne u t with rfl | hu
    · simpa [next] using ((hp u).step hI he).2
    · simpa [next, hu] using hp u
  | env e => exact ⟨henv e _ he hI, hp⟩

end Safe

/-! ## Rely and guarantee -/

section Outlines

variable {A : ι → Set (σ → Prop)} {ok pre : ι → L → σ → Prop} {Q : ι → R → σ → Prop}

/-- The outline of a thread that still has to act survives one event, if what the other threads and
the environment do keeps what it relies on, and a call it takes has an outline. -/
theorem outline_next {A : Set (σ → Prop)} {ok pre : L → σ → Prop} {Q : R → σ → Prop}
    {p : Pool ι L σ R} {t : ι}
    (hp : ∀ l, (p.thr t).head = some l → (p.thr t).Outline M.eff A ok pre Q p.st)
    (e : Event ι C E)
    (he : match e with
      | .call u c => u = t → ∀ r, p.thr t = .ret r → (M.code t c).Outline M.eff A ok pre Q p.st
      | .step u => (u = t → ∀ l, (p.thr t).head = some l → ok l p.st) ∧
          (u ≠ t → Keeps A p.st (M.next p e).st)
      | .env _ => Keeps A p.st (M.next p e).st) (l : L)
    (hl : ((M.next p e).thr t).head = some l) :
    ((M.next p e).thr t).Outline M.eff A ok pre Q (M.next p e).st := by
  cases e with
  | call u c =>
    cases hpu : p.thr u with
    | act l' k =>
      rw [next_call_of_act M hpu] at hl ⊢
      exact hp l hl
    | ret r =>
      rw [next_call_of_ret M hpu] at hl ⊢
      rcases eq_or_ne t u with rfl | hu
      · simpa using he rfl r hpu
      · simp only [hu, ne_eq, not_false_eq_true, Function.update_of_ne] at hl ⊢
        exact hp l hl
  | step u =>
    rcases eq_or_ne u t with rfl | hu
    · cases hh : (p.thr u).head with
      | none =>
        rw [next_step_of_none M hh, hh] at hl
        cases hl
      | some l' => simpa [next] using ((hp l' hh).step hh (he.1 rfl l' hh)).2
    · have hthr : (M.next p (.step u)).thr t = p.thr t := by simp [next, hu.symm]
      rw [hthr] at hl ⊢
      exact (hp l hl).env hl (he.2 hu)
  | env e => exact (hp l hl).env hl he

/-- The outline of a thread survives an event that is no call of it, its result included, if the
result is stable. -/
theorem outline_kept {A : Set (σ → Prop)} {ok pre : L → σ → Prop} {Q : R → σ → Prop}
    (hQ : ∀ r, Prog.Stable A (Q r)) {p : Pool ι L σ R} {t : ι}
    (hp : (p.thr t).Outline M.eff A ok pre Q p.st) (e : Event ι C E)
    (he : match e with
      | .call u _ => u ≠ t
      | .step u => (u = t → ∀ l, (p.thr t).head = some l → ok l p.st) ∧
          (u ≠ t → Keeps A p.st (M.next p e).st)
      | .env _ => Keeps A p.st (M.next p e).st) :
    ((M.next p e).thr t).Outline M.eff A ok pre Q (M.next p e).st := by
  cases e with
  | call u c =>
    cases hpu : p.thr u with
    | act l k => rwa [next_call_of_act M hpu]
    | ret r => simpa [next_call_of_ret M hpu, he.symm] using hp
  | step u =>
    rcases eq_or_ne u t with rfl | hu
    · cases hh : (p.thr u).head with
      | none => rwa [next_step_of_none M hh]
      | some l => simpa [next] using (hp.step hh (he.1 rfl l hh)).2
    · have hthr : (M.next p (.step u)).thr t = p.thr t := by simp [next, hu.symm]
      rw [hthr]
      exact hp.env_of_stable hQ (he.2 hu)
  | env e => exact hp.env_of_stable hQ he

/-- Each thread that still has to act has a proof outline. -/
def Outlines (M : Machine ι C E L σ R) (A : ι → Set (σ → Prop)) (ok pre : ι → L → σ → Prop)
    (Q : ι → R → σ → Prop) (p : Pool ι L σ R) : Prop :=
  ∀ t l, (p.thr t).head = some l → (p.thr t).Outline M.eff (A t) (ok t) (pre t) (Q t) p.st

/-- The proof outlines of all threads survive one event, if the actions of each thread keep what
the others rely on, the environment does so too, and a free thread may take the call. -/
theorem outlines_next (envOk : E → σ → Prop) (callOk : ι → C → σ → Prop)
    (hstep : ∀ t l s, ok t l s → pre t l s → ∀ u ≠ t, Keeps (A u) s (M.eff l s))
    (henv : ∀ e s, envOk e s → ∀ t, Keeps (A t) s (M.env e s))
    (hcall : ∀ t c s, callOk t c s → (M.code t c).Outline M.eff (A t) (ok t) (pre t) (Q t) s)
    {p : Pool ι L σ R} (hp : Outlines M A ok pre Q p) (e : Event ι C E)
    (he : match e with
      | .call t c => callOk t c p.st
      | .step t => ∀ l, (p.thr t).head = some l → ok t l p.st
      | .env e => envOk e p.st) :
    Outlines M A ok pre Q (M.next p e) := by
  intro t
  refine outline_next (hp t) e ?_
  cases e with
  | call u c =>
    rintro rfl r -
    exact hcall u c _ he
  | step u =>
    refine ⟨?_, fun hu => ?_⟩
    · rintro rfl
      exact he
    · refine st_next (I := Keeps (A t) p.st) (Keeps.refl _ _) (.step u) fun l hl => ?_
      have hpre := ((hp u l hl).step hl (he l hl)).1
      exact hstep u l p.st (he l hl) hpre t hu.symm
  | env e => exact henv e _ he t

end Outlines

/-! ## Returning in time -/

/-- The actions of the thread `t` in a run. -/
def stepsOf (t : ι) : List (Event ι C E) → ℕ
  | [] => 0
  | .step u :: es => (if u = t then 1 else 0) + stepsOf t es
  | .call _ _ :: es => stepsOf t es
  | .env _ :: es => stepsOf t es

/-- A thread that returns within `n` actions has returned when it has taken them, if it makes no
new call and the other threads keep what it relies on. -/
theorem within_run {A : Set (σ → Prop)} {ok : L → σ → Prop} {P : R → Prop} {t : ι}
    (hcond : ∀ p e, Cond p e → match e with
      | .call u _ => u ≠ t
      | .step u => (u = t → ∀ l, (p.thr t).head = some l → ok l p.st) ∧
          (u ≠ t → Keeps A p.st (M.next p e).st)
      | .env _ => Keeps A p.st (M.next p e).st)
    {n : ℕ} {p : Pool ι L σ R} (hp : (p.thr t).Within M.eff A ok P n p.st)
    {es : List (Event ι C E)} (hes : M.Along Cond p es) (hn : n ≤ stepsOf t es) :
    ∃ r, (M.run p es).thr t = .ret r ∧ P r := by
  induction es generalizing n p with
  | nil =>
    obtain rfl : n = 0 := Nat.le_zero.mp hn
    exact hp.result
  | cons e es ih =>
    have hc := hcond p e hes.1
    cases e with
    | call u c =>
      refine ih (n := n) ?_ hes.2 hn
      cases hpu : p.thr u with
      | act l k => rw [next_call_of_act M hpu]; exact hp
      | ret r => rw [next_call_of_ret M hpu]; simpa [hc.symm] using hp
    | step u =>
      rcases eq_or_ne u t with rfl | hu
      · refine ih (n := n - 1) ?_ hes.2 (by simp only [stepsOf, if_true] at hn; omega)
        simpa [next] using hp.step (hc.1 rfl)
      · refine ih (n := n) ?_ hes.2 (by simpa [stepsOf, hu] using hn)
        simpa [next, hu.symm] using hp.env (hc.2 hu)
    | env e => exact ih (hp.env hc) hes.2 hn

end Machine

end Threads
