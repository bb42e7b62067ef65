import H750Stepper.Lib.Prog

/-!
# Proof outlines of interfering programs

Ways of speaking about all the actions a program may still perform while other threads change
the shared state between them.

* `Safe I p`: from every state in `I` the next action of `p` leads back to `I`, and so on to the
  end. Nothing is remembered from one action to the next except `I`.
* `SafeUnless I stale locks p`: whatever `p` has come to, it is safe from there, unless its next
  action is `stale`, decided on a state that has changed since; and it is safe after each action
  that `locks`, which brings about `I`.
* `Outline A ok pre Q p s`: a proof outline in the style of rely and guarantee. The other threads
  may do anything between two actions that keeps each assertion of the family `A` (`Keeps A`); then
  every action `l` taken where `ok` grants it finds `pre l`, and the last one leaves the result and
  the state that `Q` asks for.
* `Triple A ok pre P p Q`: the outline of `p` from every state in `P`; here an assertion in front of
  an action has to be `Stable` among the other threads.
* `Within A ok Q n p s`: among the same threads, `p` returns a result in `Q` after at most `n`
  actions.

Only actions that `ok` grants are considered, so a run that withholds an action says nothing.
-/

namespace Threads

variable {L σ α β : Type} {eff : L → σ → σ}

namespace Prog

/-! ## Programs that keep an invariant -/

/-- Every action of the program that `ok` grants leads from `I` to `I`. -/
def Safe (eff : L → σ → σ) (ok : L → σ → Prop) (I : σ → Prop) : Prog L σ α → Prop
  | ret _ => True
  | act l k => ∀ s, I s → ok l s → I (eff l s) ∧ Safe eff ok I (k (eff l s))

variable {ok : L → σ → Prop} {I : σ → Prop}

@[simp] theorem safe_ret (a : α) : Safe eff ok I (ret a) := trivial

theorem Safe.bind {p : Prog L σ α} {g : α → Prog L σ β} (hp : Safe eff ok I p)
    (hg : ∀ a, Safe eff ok I (g a)) : Safe eff ok I (p >>= g) := by
  induction p with
  | ret a => exact hg a
  | act l k ih =>
    intro s hs hl
    exact ⟨(hp s hs hl).1, ih _ (hp s hs hl).2⟩

/-- A program all of whose actions keep `I` is safe. -/
theorem Safe.of_all {Φ : L → Prop} {p : Prog L σ α} (hp : p.All Φ)
    (hΦ : ∀ l, Φ l → ∀ s, I s → ok l s → I (eff l s)) : Safe eff ok I p := by
  induction p with
  | ret a => trivial
  | act l k ih =>
    intro s hs hl
    exact ⟨hΦ l hp.1 s hs hl, ih _ (hp.2 _)⟩

/-- One granted action of a safe program. -/
theorem Safe.step {p : Prog L σ α} (hp : Safe eff ok I p) {s : σ} (hs : I s)
    (hok : ∀ l, p.head = some l → ok l s) :
    I (p.step eff s).2 ∧ Safe eff ok I (p.step eff s).1 := by
  cases p with
  | ret a => exact ⟨hs, trivial⟩
  | act l k => exact hp s hs (hok l rfl)

/-! ## Programs caught half-way -/

/-- What is left of the program is safe at every point where its next action is not `stale`, and
after each action that `locks`. -/
def SafeUnless (eff : L → σ → σ) (ok : L → σ → Prop) (I : σ → Prop) (stale locks : L → Prop) :
    Prog L σ α → Prop
  | ret _ => True
  | act l k => (stale l ∨ Safe eff ok I (act l k)) ∧ (locks l → ∀ s, Safe eff ok I (k s)) ∧
      ∀ s, SafeUnless eff ok I stale locks (k s)

variable {stale locks : L → Prop}

theorem SafeUnless.bind {p : Prog L σ α} {g : α → Prog L σ β}
    (hp : SafeUnless eff ok I stale locks p) (hsafe : ∀ a, Safe eff ok I (g a))
    (hg : ∀ a, SafeUnless eff ok I stale locks (g a)) :
    SafeUnless eff ok I stale locks (p >>= g) := by
  induction p with
  | ret a => exact hg a
  | act l k ih =>
    exact ⟨hp.1.imp_right fun h => h.bind hsafe, fun hl s => (hp.2.1 hl s).bind hsafe,
      fun s => ih s (hp.2.2 s)⟩

/-- A program all of whose actions keep `I` is safe at every point. -/
theorem SafeUnless.of_all {Φ : L → Prop} {p : Prog L σ α} (hp : p.All Φ)
    (hΦ : ∀ l, Φ l → ∀ s, I s → ok l s → I (eff l s)) : SafeUnless eff ok I stale locks p := by
  induction p with
  | ret a => trivial
  | act l k ih =>
    exact ⟨.inr (Safe.of_all hp hΦ), fun _ s => Safe.of_all (hp.2 s) hΦ, fun s => ih s (hp.2 s)⟩

theorem SafeUnless.step {p : Prog L σ α} (hp : SafeUnless eff ok I stale locks p) (s : σ) :
    SafeUnless eff ok I stale locks (p.step eff s).1 := by
  cases p with
  | ret a => trivial
  | act l k => exact hp.2.2 _

theorem SafeUnless.safe {p : Prog L σ α} (hp : SafeUnless eff ok I stale locks p)
    (hl : ∀ l, p.head = some l → ¬stale l) : Safe eff ok I p := by
  cases p with
  | ret a => trivial
  | act l k => exact hp.1.resolve_left (hl l rfl)

theorem SafeUnless.safe_step {p : Prog L σ α} (hp : SafeUnless eff ok I stale locks p) {l : L}
    (hl : p.head = some l) (hlock : locks l) (s : σ) : Safe eff ok I (p.step eff s).1 := by
  obtain ⟨k, rfl⟩ := exists_of_head_eq_some hl
  exact hp.2.1 hlock _

/-- Safe from its start, and at every point on the way that is not stale. -/
def Guarded (eff : L → σ → σ) (ok : L → σ → Prop) (I : σ → Prop) (stale locks : L → Prop)
    (p : Prog L σ α) : Prop :=
  Safe eff ok I p ∧ SafeUnless eff ok I stale locks p

theorem Guarded.bind {p : Prog L σ α} {g : α → Prog L σ β} (hp : Guarded eff ok I stale locks p)
    (hg : ∀ a, Guarded eff ok I stale locks (g a)) : Guarded eff ok I stale locks (p >>= g) :=
  ⟨hp.1.bind fun a => (hg a).1, hp.2.bind (fun a => (hg a).1) fun a => (hg a).2⟩

theorem Guarded.of_all {Φ : L → Prop} {p : Prog L σ α} (hp : p.All Φ)
    (hΦ : ∀ l, Φ l → ∀ s, I s → ok l s → I (eff l s)) : Guarded eff ok I stale locks p :=
  ⟨.of_all hp hΦ, .of_all hp hΦ⟩

/-- A test that makes the rest safe for the value it reads. -/
theorem Guarded.ask {l : L} {f : σ → α} {g : α → Prog L σ β} (hlock : ¬locks l)
    (hl : ∀ s, I s → ok l s → I (eff l s) ∧ Safe eff ok I (g (f (eff l s))))
    (hg : ∀ a, SafeUnless eff ok I stale locks (g a)) :
    Guarded eff ok I stale locks (ask l f >>= g) :=
  ⟨hl, .inr hl, fun h => absurd h hlock, fun s => hg (f s)⟩

theorem Guarded.ret (a : α) : Guarded eff ok I stale locks (ret a : Prog L σ α) :=
  ⟨trivial, trivial⟩

theorem Guarded.ite {c : Prop} [Decidable c] {p q : Prog L σ α}
    (hp : Guarded eff ok I stale locks p) (hq : Guarded eff ok I stale locks q) :
    Guarded eff ok I stale locks (if c then p else q) := by
  split_ifs
  · exact hp
  · exact hq

theorem Guarded.poll {n : ℕ} {body : Prog L σ (Option β)}
    (hb : Guarded eff ok I stale locks body) : Guarded eff ok I stale locks (poll n body) := by
  induction n with
  | zero => exact .ret none
  | succ n ih =>
    refine hb.bind fun o => ?_
    cases o with
    | none => exact ih
    | some b => exact .ret (some b)

end Prog

/-! ## Rely and guarantee -/

/-- A step from `s` to `s'` keeps every assertion of the family. -/
def Keeps (A : Set (σ → Prop)) (s s' : σ) : Prop := ∀ P ∈ A, P s → P s'

theorem Keeps.refl (A : Set (σ → Prop)) (s : σ) : Keeps A s s := fun _ _ h => h

theorem Keeps.trans {A : Set (σ → Prop)} {s s' s'' : σ} (h : Keeps A s s') (h' : Keeps A s' s'') :
    Keeps A s s'' := fun P hP hs => h' P hP (h P hP hs)

namespace Prog

/-- The proof outline of a program that has just reached the state `s`, among threads that keep the
assertions `A`. -/
def Outline (eff : L → σ → σ) (A : Set (σ → Prop)) (ok pre : L → σ → Prop) (Q : α → σ → Prop) :
    Prog L σ α → σ → Prop
  | ret a, s => Q a s
  | act l k, s => ∀ s', Keeps A s s' → ok l s' →
      pre l s' ∧ Outline eff A ok pre Q (k (eff l s')) (eff l s')

variable {A : Set (σ → Prop)} {ok pre : L → σ → Prop} {Q : α → σ → Prop}

/-- The other threads do not invalidate the outline of a program that still has to act. -/
theorem Outline.env {p : Prog L σ α} {l : L} {s s' : σ} (h : Outline eff A ok pre Q p s)
    (hl : p.head = some l) (hs : Keeps A s s') : Outline eff A ok pre Q p s' := by
  obtain ⟨k, rfl⟩ := exists_of_head_eq_some hl
  exact fun s'' h'' => h s'' (hs.trans h'')

/-- An action finds its precondition, and the outline goes on after it. -/
theorem Outline.step {p : Prog L σ α} {s : σ} {l : L} (h : Outline eff A ok pre Q p s)
    (hl : p.head = some l) (hok : ok l s) :
    pre l s ∧ Outline eff A ok pre Q (p.step eff s).1 (p.step eff s).2 := by
  obtain ⟨k, rfl⟩ := exists_of_head_eq_some hl
  exact h s (Keeps.refl A s) hok

theorem Outline.perform {l : L} {g : Unit → Prog L σ α} {s : σ}
    (h : ∀ s', Keeps A s s' → ok l s' →
      pre l s' ∧ Outline eff A ok pre Q (g ()) (eff l s')) :
    Outline eff A ok pre Q (perform l >>= g) s := h

theorem Outline.ask {l : L} {f : σ → β} {g : β → Prog L σ α} {s : σ}
    (h : ∀ s', Keeps A s s' → ok l s' →
      pre l s' ∧ Outline eff A ok pre Q (g (f (eff l s'))) (eff l s')) :
    Outline eff A ok pre Q (ask l f >>= g) s := h

theorem Outline.bind {p : Prog L σ α} {g : α → Prog L σ β} {Q : β → σ → Prop} {s : σ}
    (h : Outline eff A ok pre (fun a s => Outline eff A ok pre Q (g a) s) p s) :
    Outline eff A ok pre Q (p >>= g) s := by
  induction p generalizing s with
  | ret a => exact h
  | act l k ih =>
    intro s' hs hok
    exact ⟨(h s' hs hok).1, ih _ (h s' hs hok).2⟩

theorem Outline.mono {p : Prog L σ α} {Q' : α → σ → Prop} {s : σ}
    (h : Outline eff A ok pre Q p s) (hQ : ∀ a s, Q a s → Q' a s) :
    Outline eff A ok pre Q' p s := by
  induction p generalizing s with
  | ret a => exact hQ a s h
  | act l k ih =>
    intro s' hs hok
    exact ⟨(h s' hs hok).1, ih _ (h s' hs hok).2⟩

/-- A program all of whose actions keep `B` and find their preconditions there. -/
theorem Outline.of_all {Φ : L → Prop} {B : σ → Prop} {p : Prog L σ α} {s : σ} (hp : p.All Φ)
    (hB : ∀ s s', Keeps A s s' → B s → B s')
    (hΦ : ∀ l, Φ l → ∀ s, B s → ok l s → pre l s ∧ B (eff l s)) (hs : B s) :
    Outline eff A ok pre (fun _ => B) p s := by
  induction p generalizing s with
  | ret a => exact hs
  | act l k ih =>
    intro s' h hok
    have hl := hΦ l hp.1 s' (hB s s' h hs) hok
    exact ⟨hl.1, ih _ (hp.2 _) hl.2⟩

/-- A part of a program about which nothing is said. -/
theorem Outline.then {p : Prog L σ β} {g : β → Prog L σ α} {s : σ}
    (h : ∀ b s, Outline eff A ok (fun _ _ => True) Q (g b) s) :
    Outline eff A ok (fun _ _ => True) Q (p >>= g) s := by
  induction p generalizing s with
  | ret b => exact h b s
  | act l k ih => exact fun s' _ _ => ⟨trivial, ih _⟩

/-- A waiting loop, by an assertion `J` that each round finds and leaves. -/
theorem Outline.poll {n : ℕ} {body : Prog L σ (Option β)} {J : σ → Prop}
    {Q : Option β → σ → Prop} {s : σ} (hQ : ∀ s, J s → Q none s)
    (hb : ∀ s, J s → Outline eff A ok pre
      (fun o s => match o with
        | none => J s
        | some b => Q (some b) s) body s)
    (hs : J s) : Outline eff A ok pre Q (poll n body) s := by
  induction n generalizing s with
  | zero => exact hQ s hs
  | succ n ih =>
    refine Outline.bind ((hb s hs).mono fun o s' h => ?_)
    cases o with
    | none => exact ih h
    | some b => exact h

/-! ## Triples -/

/-- The other threads keep the assertion. -/
def Stable (A : Set (σ → Prop)) (P : σ → Prop) : Prop := ∀ s s', Keeps A s s' → P s → P s'

/-- With a stable result the other threads do not invalidate the outline at all. -/
theorem Outline.env_of_stable (hQ : ∀ a, Stable A (Q a)) {p : Prog L σ α} {s s' : σ}
    (h : Outline eff A ok pre Q p s) (hs : Keeps A s s') : Outline eff A ok pre Q p s' := by
  cases p with
  | ret a => exact hQ a s s' hs h
  | act l k => exact h.env rfl hs

/-- The program has an outline from each state in `P`, and leaves a result in `Q`. -/
def Triple (eff : L → σ → σ) (A : Set (σ → Prop)) (ok pre : L → σ → Prop) (P : σ → Prop)
    (p : Prog L σ α) (Q : α → σ → Prop) : Prop :=
  ∀ s, P s → Outline eff A ok pre Q p s

section Triples

variable {P : σ → Prop}

theorem Triple.ret {a : α} (h : ∀ s, P s → Q a s) : Triple eff A ok pre P (ret a) Q := h

theorem Triple.conseq {P' : σ → Prop} {Q' : α → σ → Prop} {p : Prog L σ α}
    (h : Triple eff A ok pre P' p Q') (hP : ∀ s, P s → P' s) (hQ : ∀ a s, Q' a s → Q a s) :
    Triple eff A ok pre P p Q := fun s hs => (h s (hP s hs)).mono hQ

theorem Triple.bind {p : Prog L σ α} {g : α → Prog L σ β} {R : α → σ → Prop}
    {Q : β → σ → Prop} (hp : Triple eff A ok pre P p R)
    (hg : ∀ a, Triple eff A ok pre (R a) (g a) Q) : Triple eff A ok pre P (p >>= g) Q :=
  fun s hs => ((hp s hs).mono fun a s h => hg a s h).bind

theorem Triple.perform {l : L} {Q : Unit → σ → Prop} (hP : Stable A P)
    (h : ∀ s, P s → ok l s → pre l s ∧ Q () (eff l s)) :
    Triple eff A ok pre P (perform l) Q :=
  fun s hs s' hs' hok => h s' (hP s s' hs' hs) hok

theorem Triple.ask {l : L} {f : σ → α} (hP : Stable A P)
    (h : ∀ s, P s → ok l s → pre l s ∧ Q (f (eff l s)) (eff l s)) :
    Triple eff A ok pre P (ask l f) Q :=
  fun s hs s' hs' hok => h s' (hP s s' hs' hs) hok

theorem Triple.ite {c : Prop} [Decidable c] {p q : Prog L σ α}
    (hp : c → Triple eff A ok pre P p Q) (hq : ¬c → Triple eff A ok pre P q Q) :
    Triple eff A ok pre P (if c then p else q) Q := by
  split_ifs with h
  · exact hp h
  · exact hq h

/-- A program all of whose actions keep `P` and find their preconditions there. -/
theorem Triple.of_all {Φ : L → Prop} {p : Prog L σ α} (hp : p.All Φ) (hP : Stable A P)
    (hΦ : ∀ l, Φ l → ∀ s, P s → ok l s → pre l s ∧ P (eff l s)) :
    Triple eff A ok pre P p fun _ => P :=
  fun _ hs => .of_all hp hP hΦ hs

theorem Triple.when {c : Prop} [Decidable c] {p : Prog L σ Unit} {Q : Unit → σ → Prop}
    (hp : c → Triple eff A ok pre P p Q) (hQ : ¬c → ∀ s, P s → Q () s) :
    Triple eff A ok pre P (when c p) Q :=
  .ite hp fun h => .ret (hQ h)

/-- A part of what is known of the result does not speak of the state. -/
theorem Triple.bind_lift {p : Prog L σ α} {g : α → Prog L σ β} {c : α → Prop} {R : α → σ → Prop}
    {Q : β → σ → Prop} (hp : Triple eff A ok pre P p fun a s => c a ∧ R a s)
    (hg : ∀ a, c a → Triple eff A ok pre (R a) (g a) Q) : Triple eff A ok pre P (p >>= g) Q :=
  hp.bind fun a s hs => hg a hs.1 s hs.2

/-- A waiting loop whose rounds keep the assertion. -/
theorem Triple.poll {n : ℕ} {body : Prog L σ (Option β)}
    (hb : Triple eff A ok pre P body fun _ => P) : Triple eff A ok pre P (poll n body) fun _ => P :=
  fun _ hs => .poll (fun _ h => h) (fun s h => (hb s h).mono fun o _ h => by cases o <;> exact h) hs

end Triples

/-! ## Returning in time -/

/-- The program returns a result in `Q` after at most `n` actions. -/
def Within (eff : L → σ → σ) (A : Set (σ → Prop)) (ok : L → σ → Prop) (Q : α → Prop) :
    ℕ → Prog L σ α → σ → Prop
  | _, ret a, _ => Q a
  | 0, act _ _, _ => False
  | n + 1, act l k, s => ∀ s', Keeps A s s' → ok l s' →
      Within eff A ok Q n (k (eff l s')) (eff l s')

variable {P : α → Prop} {n : ℕ}

theorem Within.env {p : Prog L σ α} {s s' : σ} (h : Within eff A ok P n p s) (hs : Keeps A s s') :
    Within eff A ok P n p s' := by
  cases p with
  | ret a => cases n <;> exact h
  | act l k =>
    cases n with
    | zero => exact h
    | succ n => exact fun s'' h'' => h s'' (hs.trans h'')

theorem Within.step {p : Prog L σ α} {s : σ} (h : Within eff A ok P n p s)
    (hok : ∀ l, p.head = some l → ok l s) :
    Within eff A ok P (n - 1) (p.step eff s).1 (p.step eff s).2 := by
  cases p with
  | ret a =>
    cases n with
    | zero => exact h
    | succ n => cases n <;> exact h
  | act l k =>
    cases n with
    | zero => exact h.elim
    | succ n => exact h s (Keeps.refl A s) (hok l rfl)

theorem Within.result {p : Prog L σ α} {s : σ} (h : Within eff A ok P 0 p s) :
    ∃ a, p = ret a ∧ P a := by
  cases p with
  | ret a => exact ⟨a, rfl, h⟩
  | act l k => exact h.elim

end Prog

end Threads
