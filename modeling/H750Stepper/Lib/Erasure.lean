import H750Stepper.Lib.Notes

/-!
# Leaving calls out of a run

Which calls can be left out of an interleaving so that nobody who sees a part of the state only can
tell? `R s s'` says that two states look alike. Two programs `Matches` when they perform the same
actions from states that look alike, and `Inert` is a program whose actions cannot be seen.
`Machine.kept` is a run less the calls and the moves that are to be left out, each with all its
actions; and if these are inert and the others match, `Machine.run_kept` says that the run without
them ends in a state that looks like the end of the whole run.

`Machine.run_rounds` is about one thread that takes calls while the others are free: what a run
leaves is, up to what nobody sees, what its calls do one after the other.
-/

namespace Threads

variable {L σ α β : Type} {eff : L → σ → σ} {R : σ → σ → Prop}

/-- Nobody sees the action. -/
def Unseen (eff : L → σ → σ) (R : σ → σ → Prop) (l : L) : Prop := ∀ s s', R s s' → R (eff l s) s'

/-- The action leads from states that look alike to states that look alike. -/
def Even (eff : L → σ → σ) (R : σ → σ → Prop) (l : L) : Prop :=
  ∀ s s', R s s' → R (eff l s) (eff l s')

namespace Prog

/-- From states that look alike the two programs perform the same actions, with the same result. -/
def Matches (eff : L → σ → σ) (R : σ → σ → Prop) : Prog L σ α → Prog L σ α → Prop
  | ret a, ret b => a = b
  | act l k, act l' k' => l = l' ∧ ∀ s s', R s s' →
      R (eff l s) (eff l s') ∧ Matches eff R (k (eff l s)) (k' (eff l s'))
  | _, _ => False

/-- What the program does depends on what it can see. -/
def Respects (eff : L → σ → σ) (R : σ → σ → Prop) (p : Prog L σ α) : Prop := p.Matches eff R p

/-- Nobody sees what the program does. -/
def Inert (eff : L → σ → σ) (R : σ → σ → Prop) (p : Prog L σ α) : Prop := p.All (Unseen eff R)

theorem respects_ret (a : α) : (ret a : Prog L σ α).Respects eff R := rfl

theorem Matches.bind {p p' : Prog L σ α} {g g' : α → Prog L σ β} (hp : p.Matches eff R p')
    (hg : ∀ a, (g a).Matches eff R (g' a)) : (p >>= g).Matches eff R (p' >>= g') := by
  induction p generalizing p' with
  | ret a =>
    cases p' with
    | ret b =>
      obtain rfl : a = b := hp
      exact hg a
    | act l k => exact hp.elim
  | act l k ih =>
    cases p' with
    | ret b => exact hp.elim
    | act l' k' =>
      obtain ⟨rfl, hk⟩ := hp
      exact ⟨rfl, fun s s' h => ⟨(hk s s' h).1, ih _ (hk s s' h).2⟩⟩

theorem Respects.bind {p : Prog L σ α} {g : α → Prog L σ β} (hp : p.Respects eff R)
    (hg : ∀ a, (g a).Respects eff R) : (p >>= g).Respects eff R := Matches.bind hp hg

theorem respects_perform {l : L} (hl : Even eff R l) : (perform l).Respects eff R :=
  ⟨rfl, fun s s' h => ⟨hl s s' h, rfl⟩⟩

/-- A test of what can be seen. -/
theorem respects_ask {l : L} {f : σ → α} (hl : Even eff R l) (hf : ∀ s s', R s s' → f s = f s') :
    (ask l f).Respects eff R :=
  ⟨rfl, fun s s' h => ⟨hl s s' h, hf _ _ (hl s s' h)⟩⟩

/-- A test of what can be seen, and what is done for the values that it can give. -/
theorem respects_ask_bind {l : L} {f : σ → α} {g : α → Prog L σ β} (hl : Even eff R l)
    (hf : ∀ s s', R s s' → f s = f s') (hg : ∀ s s', R s s' → (g (f s)).Respects eff R) :
    (ask l f >>= g).Respects eff R := by
  refine ⟨rfl, fun s s' h => ⟨hl s s' h, ?_⟩⟩
  show Matches eff R (g (f (eff l s))) (g (f (eff l s')))
  rw [← hf _ _ (hl s s' h)]
  exact hg _ _ (hl s s' h)

theorem respects_ite {c : Prop} [Decidable c] {p q : Prog L σ α} (hp : p.Respects eff R)
    (hq : q.Respects eff R) : (if c then p else q).Respects eff R := by
  split_ifs
  · exact hp
  · exact hq

theorem respects_when {c : Prop} [Decidable c] {p : Prog L σ Unit} (hp : p.Respects eff R) :
    (when c p).Respects eff R := respects_ite hp (respects_ret ())

theorem Respects.poll {n : ℕ} {body : Prog L σ (Option β)} (hb : body.Respects eff R) :
    (poll n body).Respects eff R := by
  induction n with
  | zero => exact respects_ret none
  | succ n ih =>
    refine hb.bind fun o => ?_
    cases o with
    | none => exact ih
    | some b => exact respects_ret (some b)

/-- A program over a part of the state that can be seen. -/
theorem respects_zoom {L' σ' : Type} {eff' : L' → σ' → σ'} {R : σ' → σ' → Prop} {name : L → L'}
    {get : σ' → σ} (hname : ∀ l, Even eff' R (name l)) (hget : ∀ s s', R s s' → get s = get s')
    (p : Prog L σ α) : (p.zoom name get).Respects eff' R := by
  induction p with
  | ret a => exact respects_ret a
  | act l k ih =>
    refine ⟨rfl, fun s s' h => ⟨hname l s s' h, ?_⟩⟩
    show Matches eff' R (zoom name get (k (get _))) (zoom name get (k (get _)))
    rw [hget _ _ (hname l s s' h)]
    exact ih _

/-- Without notes. -/
theorem Matches.quiet {N : Type} {p p' : Prog L σ α} (h : p.Matches eff R p') :
    (p.quiet : Prog (Noted N L) σ α).Matches (Noted.eff eff) R p'.quiet := by
  induction p generalizing p' with
  | ret a =>
    cases p' with
    | ret b => exact h
    | act l k => exact h.elim
  | act l k ih =>
    cases p' with
    | ret b => exact h.elim
    | act l' k' =>
      obtain ⟨rfl, hk⟩ := h
      exact ⟨rfl, fun s s' hs => ⟨(hk s s' hs).1, ih _ (hk s s' hs).2⟩⟩

theorem Matches.ret_iff {p p' : Prog L σ α} (h : p.Matches eff R p') (a : α) :
    p = ret a ↔ p' = ret a := by
  cases p with
  | ret b =>
    cases p' with
    | ret c =>
      obtain rfl : b = c := h
      exact Iff.rfl
    | act l k => exact h.elim
  | act l k =>
    cases p' with
    | ret c => exact h.elim
    | act l' k' => simp

theorem Matches.step {p p' : Prog L σ α} (h : p.Matches eff R p') {s s' : σ} (hs : R s s') :
    R (p.step eff s).2 (p'.step eff s').2 ∧
      (p.step eff s).1.Matches eff R (p'.step eff s').1 := by
  cases p with
  | ret a =>
    cases p' with
    | ret b => exact ⟨hs, h⟩
    | act l k => exact h.elim
  | act l k =>
    cases p' with
    | ret b => exact h.elim
    | act l' k' =>
      obtain ⟨rfl, hk⟩ := h
      exact hk s s' hs

/-- Programs that match, run to their ends. -/
theorem Matches.exec {p p' : Prog L σ α} (h : p.Matches eff R p') {s s' : σ} (hs : R s s') :
    R (p.exec eff s).2 (p'.exec eff s').2 := by
  induction p generalizing p' s s' with
  | ret a =>
    cases p' with
    | ret b => exact hs
    | act l k => exact h.elim
  | act l k ih =>
    cases p' with
    | ret b => exact h.elim
    | act l' k' =>
      obtain ⟨rfl, hk⟩ := h
      exact ih _ (hk s s' hs).2 (hk s s' hs).1

/-- Programs over a part of the state, seen in the whole state as in the part. -/
theorem Matches.zoom {L' σ' : Type} {eff' : L' → σ' → σ'} {name : L → L'} {get : σ' → σ}
    {p p' : Prog L σ α} (h : p.Matches eff R p')
    (heff : ∀ l s, get (eff' (name l) s) = eff l (get s)) :
    (p.zoom name get).Matches eff' (fun s s' => R (get s) (get s')) (p'.zoom name get) := by
  induction p generalizing p' with
  | ret a =>
    cases p' with
    | ret b => exact h
    | act l k => exact h.elim
  | act l k ih =>
    cases p' with
    | ret b => exact h.elim
    | act l' k' =>
      obtain ⟨rfl, hk⟩ := h
      refine ⟨rfl, fun s s' hs => ?_⟩
      show R _ _ ∧ Matches eff' _ (Prog.zoom name get (k (get _))) (Prog.zoom name get (k' (get _)))
      rw [heff, heff]
      exact ⟨(hk _ _ hs).1, ih _ (hk _ _ hs).2⟩

theorem exec_step (p : Prog L σ α) (s : σ) :
    (p.step eff s).1.exec eff (p.step eff s).2 = p.exec eff s := by
  cases p <;> rfl

theorem Respects.left {p : Prog L σ α} (h : p.Respects eff R) {s : σ} (hs : R s s) :
    (p.step eff s).1.Respects eff R := (Matches.step h hs).2

theorem Inert.step {p : Prog L σ α} (h : p.Inert eff R) {s s' : σ} (hs : R s s') :
    R (p.step eff s).2 s' ∧ (p.step eff s).1.Inert eff R := by
  cases p with
  | ret a => exact ⟨hs, trivial⟩
  | act l k => exact ⟨h.1 s s' hs, h.2 _⟩

end Prog

/-! ## Runs -/

namespace Machine

variable {ι C E R' : Type} [DecidableEq ι] (M : Machine ι C E L σ R') (keep : ι → C → Bool)
  (keepEnv : E → Bool)

/-- The run from `p` less the calls and the moves of the environment that are not to be kept; `b`
tells the threads that are in a kept call. A call to a thread that is not free is lost anyway. -/
def kept : Pool ι L σ R' → (ι → Bool) → List (Event ι C E) → List (Event ι C E)
  | _, _, [] => []
  | p, b, .call t c :: es =>
    if (p.thr t).head = none then
      if keep t c then .call t c :: kept (M.next p (.call t c)) (Function.update b t true) es
      else kept (M.next p (.call t c)) (Function.update b t false) es
    else kept p b es
  | p, b, .step t :: es =>
    if b t then .step t :: kept (M.next p (.step t)) b es else kept (M.next p (.step t)) b es
  | p, b, .env e :: es =>
    if keepEnv e then .env e :: kept (M.next p (.env e)) b es else kept (M.next p (.env e)) b es

/-- The pool `p'` looks like `p`, whose threads are in a kept call as `b` tells, and has no thread
in another call. -/
structure Trimmed (R : σ → σ → Prop) (p p' : Pool ι L σ R') (b : ι → Bool) : Prop where
  st : R p.st p'.st
  on : ∀ t, b t = true → (p.thr t).Matches M.eff R (p'.thr t)
  off : ∀ t, b t = false → (p.thr t).Inert M.eff R ∧ ∃ r, p'.thr t = .ret r

variable {M keep keepEnv} {p p' : Pool ι L σ R'} {b : ι → Bool}

omit [DecidableEq ι] in
theorem Trimmed.free (h : M.Trimmed R p p' b) {t : ι} {r : R'} (hr : p.thr t = .ret r) :
    ∃ r', p'.thr t = .ret r' := by
  cases hb : b t with
  | true => exact ⟨r, ((h.on t hb).ret_iff r).mp hr⟩
  | false => exact (h.off t hb).2

omit [DecidableEq ι] in
theorem trimmed_idle {s s' : σ} (hs : R s s') (r : R') :
    M.Trimmed R (.idle s r) (.idle s' r) fun _ => true :=
  ⟨hs, fun _ _ => rfl, nofun⟩

/-- A thread takes a call that is kept. -/
theorem Trimmed.call (h : M.Trimmed R p p' b) {t : ι} {c : C} (ht : (p.thr t).head = none)
    (hc : (M.code t c).Respects M.eff R) :
    M.Trimmed R (M.next p (.call t c)) (M.next p' (.call t c)) (Function.update b t true) := by
  obtain ⟨r, hr⟩ := Prog.exists_of_head_eq_none ht
  obtain ⟨r', hr'⟩ := h.free hr
  rw [next_call_of_ret M hr, next_call_of_ret M hr']
  refine ⟨h.st, fun u hu => ?_, fun u hu => ?_⟩
  · rcases eq_or_ne u t with rfl | hut
    · simpa [Prog.Respects] using hc
    · simpa [hut] using h.on u (by simpa [hut] using hu)
  · rcases eq_or_ne u t with rfl | hut
    · simp at hu
    · simpa [hut] using h.off u (by simpa [hut] using hu)

/-- A thread takes a call that is left out. -/
theorem Trimmed.drop (h : M.Trimmed R p p' b) {t : ι} {c : C} (ht : (p.thr t).head = none)
    (hc : (M.code t c).Inert M.eff R) :
    M.Trimmed R (M.next p (.call t c)) p' (Function.update b t false) := by
  obtain ⟨r, hr⟩ := Prog.exists_of_head_eq_none ht
  rw [next_call_of_ret M hr]
  refine ⟨h.st, fun u hu => ?_, fun u hu => ?_⟩
  · rcases eq_or_ne u t with rfl | hut
    · simp at hu
    · simpa [hut] using h.on u (by simpa [hut] using hu)
  · rcases eq_or_ne u t with rfl | hut
    · simpa using ⟨hc, h.free hr⟩
    · simpa [hut] using h.off u (by simpa [hut] using hu)

/-- A step of a kept call. -/
theorem Trimmed.step (h : M.Trimmed R p p' b) {t : ι} (ht : b t = true) :
    M.Trimmed R (M.next p (.step t)) (M.next p' (.step t)) b := by
  obtain ⟨hst, hthr⟩ := (h.on t ht).step h.st
  refine ⟨hst, fun u hu => ?_, fun u hu => ?_⟩
  · rcases eq_or_ne u t with rfl | hut
    · simpa [next] using hthr
    · simpa [next, hut] using h.on u hu
  · have hut : u ≠ t := by
      rintro rfl
      rw [ht] at hu
      cases hu
    simpa [next, hut] using h.off u hu

/-- A step of a call that is left out. -/
theorem Trimmed.skip (h : M.Trimmed R p p' b) {t : ι} (ht : b t = false) :
    M.Trimmed R (M.next p (.step t)) p' b := by
  obtain ⟨hinert, hret⟩ := h.off t ht
  obtain ⟨hst, hthr⟩ := hinert.step h.st
  refine ⟨hst, fun u hu => ?_, fun u hu => ?_⟩
  · have hut : u ≠ t := by
      rintro rfl
      rw [ht] at hu
      cases hu
    simpa [next, hut] using h.on u hu
  · rcases eq_or_ne u t with rfl | hut
    · simpa [next] using ⟨hthr, hret⟩
    · simpa [next, hut] using h.off u hu

/-- **Calls left out.** If what is kept depends on what can be seen only, and what is left out
cannot be seen, a run and the run without the calls and moves left out end alike. -/
theorem run_kept {es : List (Event ι C E)}
    (hkeep : ∀ t c, .call t c ∈ es → keep t c = true → (M.code t c).Respects M.eff R)
    (hdrop : ∀ t c, .call t c ∈ es → keep t c = false → (M.code t c).Inert M.eff R)
    (hkeepEnv : ∀ e, keepEnv e = true → Even M.env R e)
    (hdropEnv : ∀ e, keepEnv e = false → Unseen M.env R e) (h : M.Trimmed R p p' b) :
    ∃ b', M.Trimmed R (M.run p es) (M.run p' (M.kept keep keepEnv p b es)) b' := by
  induction es generalizing p p' b with
  | nil => exact ⟨b, h⟩
  | cons e es ih =>
    have ih := fun {p p' b} => @ih p p' b (fun t c hc => hkeep t c (.tail _ hc))
      fun t c hc => hdrop t c (.tail _ hc)
    rw [run_cons]
    cases e with
    | call t c =>
      unfold kept
      split_ifs with hfree hc
      · exact ih (h.call hfree (hkeep t c (.head _) hc))
      · exact ih (h.drop hfree (hdrop t c (.head _) (Bool.eq_false_iff.mpr hc)))
      · obtain ⟨l, hl⟩ := Option.ne_none_iff_exists'.mp hfree
        obtain ⟨k, hk⟩ := Prog.exists_of_head_eq_some hl
        rw [next_call_of_act M hk]
        exact ih h
    | step t =>
      unfold kept
      split_ifs with ht
      · exact ih (h.step ht)
      · exact ih (h.skip (Bool.eq_false_iff.mpr ht))
    | env e =>
      unfold kept
      split_ifs with he
      · exact ih ⟨hkeepEnv e he _ _ h.st, h.on, h.off⟩
      · exact ih ⟨hdropEnv e (Bool.eq_false_iff.mpr he) _ _ h.st, h.on, h.off⟩

/-! ### Rounds of one thread -/

section Rounds

variable (M)

/-- How many calls the thread `t` takes in a run. -/
def taken (t : ι) : Pool ι L σ R' → List (Event ι C E) → ℕ
  | _, [] => 0
  | p, .call u c :: es =>
    taken t (M.next p (.call u c)) es + if u = t ∧ (p.thr t).head = none then 1 else 0
  | p, .step u :: es => taken t (M.next p (.step u)) es
  | p, .env e :: es => taken t (M.next p (.env e)) es

variable {M} {F : σ → σ} {t : ι}

theorem iterate_congr (hF : ∀ s s', R s s' → R (F s) (F s')) (n : ℕ) {s s' : σ} (h : R s s') :
    R (F^[n] s) (F^[n] s') := by
  induction n generalizing s s' with
  | zero => exact h
  | succ n ih => exact ih (hF s s' h)

/-- **Rounds.** If the other threads stay free, the run of the calls that `t` takes leaves what
their rounds `F` leave, when the last call has ended; up to what the environment does, if nobody sees
that. -/
theorem run_rounds (hR : Equivalence R) (henv : ∀ e, Unseen M.env R e)
    (hcode : ∀ c, (M.code t c).Respects M.eff R) (hF : ∀ s s', R s s' → R (F s) (F s'))
    (hexec : ∀ c s, ((M.code t c).exec M.eff s).2 = F s) {es : List (Event ι C E)}
    (hes : ∀ u c, .call u c ∈ es → u = t) (hp : (p.thr t).Respects M.eff R)
    (hfree : ∀ u ≠ t, (p.thr u).head = none) :
    R (((M.run p es).thr t).exec M.eff (M.run p es).st).2
      (F^[M.taken t p es] ((p.thr t).exec M.eff p.st).2) := by
  induction es generalizing p with
  | nil => exact hR.refl _
  | cons e es ih =>
    have ih := fun {p} => @ih p fun u c hc => hes u c (.tail _ hc)
    rw [run_cons]
    cases e with
    | call u c =>
      obtain rfl := hes u c (.head _)
      unfold taken
      cases hu : p.thr u with
      | ret r =>
        rw [next_call_of_ret M hu, if_pos ⟨rfl, rfl⟩, Function.iterate_succ_apply]
        refine hR.trans (ih (by simpa using hcode c) fun v hv => ?_) ?_
        · simpa [hv] using hfree v hv
        · simp only [Function.update_self, hexec]
          exact hR.refl _
      | act l k =>
        rw [next_call_of_act M hu, if_neg (by simp), ← hu]
        exact ih hp hfree
    | step u =>
      unfold taken
      rcases eq_or_ne u t with rfl | hut
      · have hleft := hp.left (hR.refl p.st)
        refine hR.trans (ih (by simpa [next] using hleft) fun v hv => ?_) ?_
        · simpa [next, hv] using hfree v hv
        · simp only [next, Function.update_self, Prog.exec_step]
          exact hR.refl _
      · rw [next_step_of_none M (hfree u hut)]
        exact ih hp hfree
    | env e =>
      unfold taken
      refine hR.trans (ih hp hfree) (iterate_congr hF _ ?_)
      exact hp.exec (henv e _ _ (hR.refl _))

end Rounds

end Machine

end Threads
