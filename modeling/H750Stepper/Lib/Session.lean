import H750Stepper.Lib.Outline

/-!
# Sessions of one thread

A thread that makes its calls one after the other, while the environment may change the shared state
before each of its actions.

* `Runs eff env p s tr a s'`: the program `p`, started in `s`, returns `a` in `s'`; `tr` lists its
  actions, each with the state it found.
* `Path R s l`: the steps `l` of a labelled transition relation `R` from `s` on, each with the state
  it leads to. The steps of a session are calls that have returned; an invariant of each step is one
  of the session (`Path.last`), and a property that each step keeps exactly under a condition holds
  throughout exactly if every step meets the condition (`Path.forall_iff`).
* `history f s cs`: the steps `cs` from `s` on, each with the state it finds, when a function `f`
  says what each does, with the same two rules (`history_inv_of`, `forall_history_iff`), and with
  one for two histories side by side (`history_bisim`).
-/

namespace Threads

variable {L σ α β : Type}

namespace Prog

/-- The program returns `a` in `s'`. Before each action the environment moves as `env` allows. -/
def Runs (eff : L → σ → σ) (env : σ → σ → Prop) :
    Prog L σ α → σ → List (L × σ) → α → σ → Prop
  | ret a, s, tr, b, s' => tr = [] ∧ b = a ∧ s' = s
  | act l k, s, tr, b, s' => ∃ s₁ tr₁, env s s₁ ∧ tr = (l, s₁) :: tr₁ ∧
      Runs eff env (k (eff l s₁)) (eff l s₁) tr₁ b s'

/-- The actions of a program that nobody interrupts, each with the state it finds. -/
def trace (eff : L → σ → σ) : Prog L σ α → σ → List (L × σ)
  | ret _, _ => []
  | act l k, s => (l, s) :: trace eff (k (eff l s)) (eff l s)

variable {eff : L → σ → σ} {env : σ → σ → Prop}

@[simp] theorem runs_ret {a b : α} {s s' : σ} {tr : List (L × σ)} :
    Runs eff env (ret a) s tr b s' ↔ tr = [] ∧ b = a ∧ s' = s := Iff.rfl

@[simp] theorem runs_act {l : L} {k : σ → Prog L σ α} {b : α} {s s' : σ} {tr : List (L × σ)} :
    Runs eff env (act l k) s tr b s' ↔ ∃ s₁ tr₁, env s s₁ ∧ tr = (l, s₁) :: tr₁ ∧
      Runs eff env (k (eff l s₁)) (eff l s₁) tr₁ b s' := Iff.rfl

@[simp] theorem runs_perform {l : L} {u : Unit} {s s' : σ} {tr : List (L × σ)} :
    Runs eff env (perform l) s tr u s' ↔ ∃ s₁, env s s₁ ∧ tr = [(l, s₁)] ∧ s' = eff l s₁ := by
  unfold perform
  simp only [runs_act, runs_ret]
  constructor
  · rintro ⟨s₁, tr₁, henv, rfl, rfl, -, rfl⟩
    exact ⟨s₁, henv, rfl, rfl⟩
  · rintro ⟨s₁, henv, rfl, rfl⟩
    exact ⟨s₁, [], henv, rfl, rfl, trivial, rfl⟩

theorem runs_ask {l : L} {f : σ → α} {b : α} {s s' : σ} {tr : List (L × σ)} :
    Runs eff env (ask l f) s tr b s' ↔
      ∃ s₁, env s s₁ ∧ tr = [(l, s₁)] ∧ b = f (eff l s₁) ∧ s' = eff l s₁ := by
  unfold ask
  simp only [runs_act, runs_ret]
  constructor
  · rintro ⟨s₁, tr₁, henv, rfl, rfl, hb, hs'⟩
    exact ⟨s₁, henv, rfl, hb, hs'⟩
  · rintro ⟨s₁, henv, rfl, hb, hs'⟩
    exact ⟨s₁, [], henv, rfl, rfl, hb, hs'⟩

theorem runs_bind {p : Prog L σ α} {g : α → Prog L σ β} {b : β} {s s'' : σ} {tr : List (L × σ)} :
    Runs eff env (p >>= g) s tr b s'' ↔ ∃ tr₁ a s' tr₂, Runs eff env p s tr₁ a s' ∧
      Runs eff env (g a) s' tr₂ b s'' ∧ tr = tr₁ ++ tr₂ := by
  induction p generalizing s tr with
  | ret a =>
    simp only [ret_bind, runs_ret]
    constructor
    · intro h
      exact ⟨[], a, s, tr, ⟨rfl, rfl, rfl⟩, h, rfl⟩
    · rintro ⟨tr₁, a', s', tr₂, ⟨rfl, rfl, rfl⟩, h, rfl⟩
      exact h
  | act l k ih =>
    simp only [act_bind, runs_act, ih]
    constructor
    · rintro ⟨s₁, tr', henv, rfl, tr₁, a, s', tr₂, hp, hg, rfl⟩
      exact ⟨(l, s₁) :: tr₁, a, s', tr₂, ⟨s₁, tr₁, henv, rfl, hp⟩, hg, rfl⟩
    · rintro ⟨tr', a, s', tr₂, ⟨s₁, tr₁, henv, rfl, hp⟩, hg, rfl⟩
      exact ⟨s₁, tr₁ ++ tr₂, henv, rfl, tr₁, a, s', tr₂, hp, hg, rfl⟩

theorem runs_ite {c : Prop} [Decidable c] {p q : Prog L σ α} {a : α} {s s' : σ}
    {tr : List (L × σ)} :
    Runs eff env (if c then p else q) s tr a s' ↔
      (c → Runs eff env p s tr a s') ∧ (¬c → Runs eff env q s tr a s') := by
  split_ifs with h <;> simp [h]

/-- A test, then an action that depends on it. -/
theorem runs_ask_when {l : L} {f : σ → β} {c : β → Prop} [DecidablePred c] {p : Prog L σ Unit}
    {u : Unit} {s s' : σ} {tr : List (L × σ)} :
    Runs eff env (ask l f >>= fun b => when (c b) p) s tr u s' ↔
      ∃ s₁, env s s₁ ∧ (c (f (eff l s₁)) ∧ (∃ tr₁, tr = (l, s₁) :: tr₁ ∧
          Runs eff env p (eff l s₁) tr₁ u s') ∨
        ¬c (f (eff l s₁)) ∧ tr = [(l, s₁)] ∧ s' = eff l s₁) := by
  rw [ask_bind, runs_act]
  refine exists_congr fun s₁ => ?_
  unfold when
  constructor
  · rintro ⟨tr₁, henv, rfl, h⟩
    refine ⟨henv, ?_⟩
    by_cases hc : c (f (eff l s₁))
    · rw [if_pos hc] at h
      exact .inl ⟨hc, tr₁, rfl, h⟩
    · rw [if_neg hc] at h
      obtain ⟨rfl, -, rfl⟩ := h
      exact .inr ⟨hc, rfl, rfl⟩
  · rintro ⟨henv, ⟨hc, tr₁, rfl, h⟩ | ⟨hc, rfl, rfl⟩⟩
    · exact ⟨tr₁, henv, rfl, by rwa [if_pos hc]⟩
    · exact ⟨[], henv, rfl, by rw [if_neg hc]; exact ⟨rfl, rfl, rfl⟩⟩

/-- An environment that need not move admits the run without it. -/
theorem runs_exec (henv : ∀ s, env s s) (p : Prog L σ α) (s : σ) :
    Runs eff env p s (p.trace eff s) (p.exec eff s).1 (p.exec eff s).2 := by
  induction p generalizing s with
  | ret a => exact ⟨rfl, rfl, rfl⟩
  | act l k ih => exact ⟨s, _, henv s, rfl, ih _ _⟩

/-- An assertion that every action of the program and the environment keep. -/
theorem Runs.inv {Φ : L → Prop} {I : σ → Prop} {p : Prog L σ α} {a : α} {s s' : σ}
    {tr : List (L × σ)} (h : Runs eff env p s tr a s') (hp : p.All Φ)
    (hΦ : ∀ l, Φ l → ∀ s, I s → I (eff l s)) (henv : ∀ s s', env s s' → I s → I s') (hs : I s) :
    I s' := by
  induction p generalizing s tr with
  | ret b =>
    obtain ⟨-, -, rfl⟩ := h
    exact hs
  | act l k ih =>
    obtain ⟨s₁, tr₁, hs₁, -, h⟩ := h
    exact ih _ h (hp.2 _) (hΦ l hp.1 s₁ (henv s s₁ hs₁ hs))

/-- The environment keeps what a proof outline relies on: each action finds its precondition, and
the program leaves the postcondition. -/
theorem Runs.outline {A : Set (σ → Prop)} {ok pre : L → σ → Prop} {Q : α → σ → Prop}
    {p : Prog L σ α} {a : α} {s s' : σ} {tr : List (L × σ)} (h : Runs eff env p s tr a s')
    (hp : Outline eff A ok pre Q p s) (henv : ∀ s s', env s s' → Keeps A s s')
    (hok : ∀ l s, ok l s) : Q a s' ∧ ∀ x ∈ tr, pre x.1 x.2 := by
  induction p generalizing s tr with
  | ret b =>
    obtain ⟨rfl, rfl, rfl⟩ := h
    exact ⟨hp, by simp⟩
  | act l k ih =>
    obtain ⟨s₁, tr₁, hs₁, rfl, h⟩ := h
    obtain ⟨hpre, hp⟩ := hp s₁ (henv s s₁ hs₁) (hok l s₁)
    obtain ⟨hQ, htr⟩ := ih _ h hp
    exact ⟨hQ, List.forall_mem_cons.mpr ⟨hpre, htr⟩⟩

/-- The trace lists actions of the program only. -/
theorem Runs.all {Φ : L → Prop} {p : Prog L σ α} {a : α} {s s' : σ} {tr : List (L × σ)}
    (h : Runs eff env p s tr a s') (hp : p.All Φ) : ∀ x ∈ tr, Φ x.1 := by
  induction p generalizing s tr with
  | ret b =>
    obtain ⟨rfl, -, -⟩ := h
    simp
  | act l k ih =>
    obtain ⟨s₁, tr₁, -, rfl, h⟩ := h
    exact List.forall_mem_cons.mpr ⟨hp.1, ih _ h (hp.2 _)⟩

/-- A measure that only the environment raises: the trace finds it rising. -/
theorem Runs.sorted {m : σ → ℕ} {p : Prog L σ α} {a : α} {s s' : σ} {tr : List (L × σ)}
    (h : Runs eff env p s tr a s') (heff : ∀ l s, m (eff l s) = m s)
    (henv : ∀ s s', env s s' → m s ≤ m s') :
    (tr.map fun x => m x.2).Pairwise (· ≤ ·) ∧ ∀ x ∈ tr, m s ≤ m x.2 := by
  induction p generalizing s tr with
  | ret b =>
    obtain ⟨rfl, -, -⟩ := h
    simp
  | act l k ih =>
    obtain ⟨s₁, tr₁, hs₁, rfl, h⟩ := h
    have hle : m s ≤ m s₁ := henv s s₁ hs₁
    obtain ⟨hsorted, hmin⟩ := ih _ h
    rw [heff l s₁] at hmin
    refine ⟨?_, List.forall_mem_cons.mpr ⟨hle, fun x hx => hle.trans (hmin x hx)⟩⟩
    rw [List.map_cons, List.pairwise_cons]
    refine ⟨fun y hy => ?_, hsorted⟩
    obtain ⟨x, hx, rfl⟩ := List.mem_map.mp hy
    exact hmin x hx

end Prog

/-! ## Labelled transitions -/

section Path

variable {Λ : Type} {R : σ → Λ → σ → Prop} {Cond : σ → Λ → Prop}

/-- The steps of a run, each with the state it leads to. -/
def Path (R : σ → Λ → σ → Prop) : σ → List (Λ × σ) → Prop
  | _, [] => True
  | s, (c, s') :: l => R s c s' ∧ Path R s' l

/-- Each step meets the condition in the state it starts from. -/
def Meets (Cond : σ → Λ → Prop) : σ → List (Λ × σ) → Prop
  | _, [] => True
  | s, (c, s') :: l => Cond s c ∧ Meets Cond s' l

/-- A condition on the labels. -/
theorem meets_labels {P : Λ → Prop} {s : σ} {l : List (Λ × σ)} :
    Meets (fun _ c => P c) s l ↔ ∀ x ∈ l, P x.1 := by
  induction l generalizing s with
  | nil => simp [Meets]
  | cons x l ih => rw [List.forall_mem_cons, Meets, ih]

/-- The state that a run leads to. -/
def lastState : σ → List (Λ × σ) → σ
  | s, [] => s
  | _, (_, s') :: l => lastState s' l

theorem path_append {s : σ} {l₁ l₂ : List (Λ × σ)} :
    Path R s (l₁ ++ l₂) ↔ Path R s l₁ ∧ Path R (lastState s l₁) l₂ := by
  induction l₁ generalizing s with
  | nil => simp [Path, lastState]
  | cons x l₁ ih => simp only [List.cons_append, Path, lastState, ih, and_assoc]

theorem lastState_append {s : σ} {l₁ l₂ : List (Λ × σ)} :
    lastState s (l₁ ++ l₂) = lastState (lastState s l₁) l₂ := by
  induction l₁ generalizing s with
  | nil => rfl
  | cons x l₁ ih => exact ih

theorem exists_lastState {s : σ} {l : List (Λ × σ)} (hl : l ≠ []) :
    ∃ x ∈ l, x.2 = lastState s l := by
  induction l generalizing s with
  | nil => exact absurd rfl hl
  | cons x l ih =>
    cases l with
    | nil => exact ⟨x, List.mem_singleton.mpr rfl, rfl⟩
    | cons y l =>
      obtain ⟨z, hz, h⟩ := ih (s := x.2) (List.cons_ne_nil y l)
      exact ⟨z, List.mem_cons_of_mem x hz, h⟩

/-- An invariant of each step holds at the end. -/
theorem Path.last {I : σ → Prop} (hstep : ∀ s c s', I s → R s c s' → I s') {s : σ} (hs : I s)
    {l : List (Λ × σ)} (h : Path R s l) : I (lastState s l) := by
  induction l generalizing s with
  | nil => exact hs
  | cons x l ih => exact ih (hstep s x.1 x.2 hs h.1) h.2

/-- The labels of the steps are known. -/
theorem Path.with_labels {P : Λ → Prop} {s : σ} {l : List (Λ × σ)} (h : Path R s l)
    (hP : ∀ x ∈ l, P x.1) : Path (fun s c s' => P c ∧ R s c s') s l := by
  induction l generalizing s with
  | nil => trivial
  | cons x l ih =>
    obtain ⟨hx, hl⟩ := List.forall_mem_cons.mp hP
    exact ⟨⟨hx, h.1⟩, ih h.2 hl⟩

/-- A property that each step keeps exactly under a condition. -/
theorem Path.forall_iff {I : σ → Prop} (hstep : ∀ s c s', I s → R s c s' → (I s' ↔ Cond s c))
    {s : σ} (hs : I s) {l : List (Λ × σ)} (h : Path R s l) :
    (∀ x ∈ l, I x.2) ↔ Meets Cond s l := by
  induction l generalizing s with
  | nil => simp [Meets]
  | cons x l ih =>
    have hx := hstep s x.1 x.2 hs h.1
    rw [List.forall_mem_cons]
    constructor
    · rintro ⟨hI, hl⟩
      exact ⟨hx.mp hI, (ih hI h.2).mp hl⟩
    · rintro ⟨hc, hl⟩
      exact ⟨hx.mpr hc, (ih (hx.mpr hc) h.2).mpr hl⟩

end Path

/-! ## Histories -/

section History

variable {Λ : Type} {f : σ → Λ → σ}

/-- The steps of a history in which `f` says what each does, each with the state it finds. -/
def history (f : σ → Λ → σ) : σ → List Λ → List (σ × Λ)
  | _, [] => []
  | s, c :: cs => (s, c) :: history f (f s c) cs

/-- An invariant of the steps that meet a condition. -/
theorem history_inv_of {I : σ → Prop} {C : σ → Λ → Prop}
    (hstep : ∀ s c, I s → C s c → I (f s c)) {s : σ} (hs : I s) {cs : List Λ}
    (hC : ∀ x ∈ history f s cs, C x.1 x.2) : ∀ x ∈ history f s cs, I x.1 := by
  induction cs generalizing s with
  | nil => simp [history]
  | cons c cs ih =>
    obtain ⟨hc, hrest⟩ := List.forall_mem_cons.mp hC
    exact List.forall_mem_cons.mpr ⟨hs, ih (hstep s c hs hc) hrest⟩

theorem history_inv {I : σ → Prop} (hstep : ∀ s c, I s → I (f s c)) {s : σ} (hs : I s)
    (cs : List Λ) : ∀ x ∈ history f s cs, I x.1 :=
  history_inv_of (C := fun _ _ => True) (fun s c h _ => hstep s c h) hs fun _ _ => trivial

/-- A property that each step has exactly under a condition, given an invariant of the steps that
have it. -/
theorem forall_history_iff {I : σ → Prop} {P Q : σ → Λ → Prop}
    (hiff : ∀ s c, I s → (P s c ↔ Q s c)) (hnext : ∀ s c, I s → P s c → I (f s c)) {s : σ}
    (hs : I s) (cs : List Λ) :
    (∀ x ∈ history f s cs, P x.1 x.2) ↔ ∀ x ∈ history f s cs, Q x.1 x.2 := by
  induction cs generalizing s with
  | nil => simp [history]
  | cons c cs ih =>
    unfold history
    rw [List.forall_mem_cons, List.forall_mem_cons]
    constructor
    · rintro ⟨hP, hrest⟩
      exact ⟨(hiff s c hs).mp hP, (ih (hnext s c hs hP)).mp hrest⟩
    · rintro ⟨hQ, hrest⟩
      have hP := (hiff s c hs).mpr hQ
      exact ⟨hP, (ih (hnext s c hs hP)).mpr hrest⟩

theorem length_history (s : σ) (cs : List Λ) : (history f s cs).length = cs.length := by
  induction cs generalizing s with
  | nil => rfl
  | cons c cs ih => exact congrArg Nat.succ (ih (f s c))

section Two

variable {τ Λ' : Type} {g : τ → Λ' → τ} {R : σ → τ → Prop} {S : Λ → Λ' → Prop}
  {T : σ × Λ → τ × Λ' → Prop}

/-- Two histories whose states and steps correspond, under a condition on each pair of steps. -/
theorem history_forall₂_of {C : σ × Λ → τ × Λ' → Prop}
    (hstep : ∀ s t c c', R s t → S c c' → C (s, c) (t, c') → T (s, c) (t, c'))
    (hnext : ∀ x y, T x y → R (f x.1 x.2) (g y.1 y.2)) {s : σ} {t : τ} (hR : R s t) {cs : List Λ}
    {cs' : List Λ'} (hS : List.Forall₂ S cs cs')
    (hC : List.Forall₂ C (history f s cs) (history g t cs')) :
    List.Forall₂ T (history f s cs) (history g t cs') := by
  induction hS generalizing s t with
  | nil => exact .nil
  | cons hc _ ih =>
    obtain ⟨hC, hrest⟩ := List.forall₂_cons.mp hC
    have hT := hstep s t _ _ hR hc hC
    exact .cons hT (ih (hnext _ _ hT) hrest)

/-- The condition may be on the steps of the first history. -/
theorem history_forall₂ {C : σ → Λ → Prop}
    (hstep : ∀ s t c c', R s t → S c c' → C s c → T (s, c) (t, c'))
    (hnext : ∀ x y, T x y → R (f x.1 x.2) (g y.1 y.2)) {s : σ} {t : τ} (hR : R s t) {cs : List Λ}
    {cs' : List Λ'} (hS : List.Forall₂ S cs cs') (hC : ∀ x ∈ history f s cs, C x.1 x.2) :
    List.Forall₂ T (history f s cs) (history g t cs') := by
  have hlength : (history f s cs).length = (history g t cs').length := by
    rw [length_history, length_history, hS.length_eq]
  refine history_forall₂_of (C := fun x _ => C x.1 x.2) hstep hnext hR hS ?_
  exact List.forall₂_iff_zip.mpr ⟨hlength, fun h => hC _ (List.of_mem_zip h).1⟩

/-- Two histories in which corresponding steps keep a relation of the states and show the same. -/
theorem history_bisim {C : σ × Λ → τ × Λ' → Prop}
    (hstep : ∀ s t c c', R s t → S c c' → C (s, c) (t, c') → R (f s c) (g t c') ∧ T (s, c) (t, c'))
    {s : σ} {t : τ} (hR : R s t) {cs : List Λ} {cs' : List Λ'} (hS : List.Forall₂ S cs cs')
    (hC : List.Forall₂ C (history f s cs) (history g t cs')) :
    List.Forall₂ T (history f s cs) (history g t cs') := by
  have hboth : List.Forall₂ (fun x y => R (f x.1 x.2) (g y.1 y.2) ∧ T x y) (history f s cs)
      (history g t cs') := history_forall₂_of hstep (fun _ _ h => h.1) hR hS hC
  exact hboth.imp fun _ _ h => h.2

end Two

end History

end Threads
