import H750Stepper.Lib.Prog

/-!
# Programs beside a script

A script writes down in advance what happens beside a thread: on the page where it is open, for each
action of the thread, the events that follow before the next action and the page to turn to. Under a
script a program is a function of the state it starts in.

* `play`: its result, with the page and the state it leaves.
* `Along R`: every action and every event of the run leads from a state to a related one.
* `rounds`: the states in which the rounds of a waiting loop begin. The loop goes on as long as no
  round ends the wait (`play_poll_none`), and the first one that does ends it (`exists_play_poll`).
  There is one if the others raise a bounded measure (`exists_round_ne_none`).
-/

namespace Threads

variable {L σ E P α β : Type}

/-- The state after some events. -/
def after (env : E → σ → σ) (es : List E) (s : σ) : σ := es.foldl (fun s e => env e s) s

/-- An assertion that every event keeps. -/
theorem after_inv {env : E → σ → σ} {I : σ → Prop} {es : List E}
    (henv : ∀ e ∈ es, ∀ s, I s → I (env e s)) {s : σ} (hs : I s) : I (after env es s) := by
  induction es generalizing s with
  | nil => exact hs
  | cons e es ih =>
    obtain ⟨he, hes⟩ := List.forall_mem_cons.mp henv
    exact ih hes (he s hs)

/-- Each event leads to a related state. -/
def Chain (R : σ → σ → Prop) (env : E → σ → σ) : List E → σ → Prop
  | [], _ => True
  | e :: es, s => R s (env e s) ∧ Chain R env es (env e s)

namespace Prog

variable (eff : L → σ → σ) (env : E → σ → σ) (script : P → L → List E × P)

/-- The run of a program beside the script. -/
def play : Prog L σ α → P × σ → α × P × σ
  | ret a, x => (a, x)
  | act l k, x => play (k (eff l x.2)) ((script x.1 l).2, after env (script x.1 l).1 (eff l x.2))

/-- Every step of the run leads to a related state. -/
def Along (R : σ → σ → Prop) : Prog L σ α → P × σ → Prop
  | ret _, _ => True
  | act l k, x => R x.2 (eff l x.2) ∧ Chain R env (script x.1 l).1 (eff l x.2) ∧
      Along R (k (eff l x.2)) ((script x.1 l).2, after env (script x.1 l).1 (eff l x.2))

@[simp] theorem play_ret (a : α) (x : P × σ) : play eff env script (ret a) x = (a, x) := rfl

@[simp] theorem play_act (l : L) (k : σ → Prog L σ α) (x : P × σ) :
    play eff env script (act l k) x =
      play eff env script (k (eff l x.2))
        ((script x.1 l).2, after env (script x.1 l).1 (eff l x.2)) := rfl

theorem play_bind (p : Prog L σ α) (g : α → Prog L σ β) (x : P × σ) :
    play eff env script (p >>= g) x =
      play eff env script (g (play eff env script p x).1) (play eff env script p x).2 := by
  induction p generalizing x with
  | ret a => rfl
  | act l k ih => exact ih _ _

theorem along_bind {R : σ → σ → Prop} {p : Prog L σ α} {g : α → Prog L σ β} {x : P × σ} :
    Along eff env script R (p >>= g) x ↔ Along eff env script R p x ∧
      Along eff env script R (g (play eff env script p x).1) (play eff env script p x).2 := by
  induction p generalizing x with
  | ret a => exact (and_iff_right trivial).symm
  | act l k ih =>
    show _ ∧ _ ∧ Along eff env script R (k _ >>= g) _ ↔ (_ ∧ _ ∧ _) ∧ _
    rw [ih, and_assoc, and_assoc]
    rfl

/-- An assertion that the actions of the program and the events keep. -/
theorem play_inv {Φ : L → Prop} {I : σ → Prop} {p : Prog L σ α} (hp : p.All Φ)
    (heff : ∀ l, Φ l → ∀ s, I s → I (eff l s))
    (henv : ∀ i l, Φ l → ∀ e ∈ (script i l).1, ∀ s, I s → I (env e s)) {x : P × σ} (hx : I x.2) :
    I (play eff env script p x).2.2 := by
  induction p generalizing x with
  | ret a => exact hx
  | act l k ih =>
    exact ih _ (hp.2 _) (after_inv (henv x.1 l hp.1) (heff l hp.1 x.2 hx))

/-! ## Waiting loops -/

variable (body : Prog L σ (Option β))

/-- Where the round number `n` of a waiting loop begins. -/
def rounds (n : ℕ) (x : P × σ) : P × σ := (fun y => (play eff env script body y).2)^[n] x

theorem rounds_succ (n : ℕ) (x : P × σ) :
    rounds eff env script body (n + 1) x =
      (play eff env script body (rounds eff env script body n x)).2 :=
  Function.iterate_succ_apply' _ n x

variable {eff env script body}

/-- The loop goes on as long as no round ends the wait. -/
theorem play_poll_none {n : ℕ} {x : P × σ}
    (h : ∀ m < n, (play eff env script body (rounds eff env script body m x)).1 = none) :
    play eff env script (poll n body) x = (none, rounds eff env script body n x) := by
  induction n generalizing x with
  | zero => rfl
  | succ n ih =>
    have hfirst : (play eff env script body x).1 = none := h 0 n.succ_pos
    unfold poll
    rw [play_bind, hfirst]
    exact ih fun m hm => h (m + 1) (Nat.succ_lt_succ hm)

/-- The first round that ends the wait ends the loop. -/
theorem play_poll_some {m n : ℕ} {x : P × σ} {b : β}
    (h : ∀ k < m, (play eff env script body (rounds eff env script body k x)).1 = none)
    (hm : (play eff env script body (rounds eff env script body m x)).1 = some b) (hmn : m < n) :
    play eff env script (poll n body) x = (some b, rounds eff env script body (m + 1) x) := by
  induction m generalizing n x with
  | zero =>
    obtain ⟨n, rfl⟩ := Nat.exists_eq_succ_of_ne_zero hmn.ne'
    have hfirst : (play eff env script body x).1 = some b := hm
    unfold poll
    rw [play_bind, hfirst]
    rfl
  | succ m ih =>
    obtain ⟨n, rfl⟩ := Nat.exists_eq_succ_of_ne_zero (Nat.ne_zero_of_lt hmn)
    have hfirst : (play eff env script body x).1 = none := h 0 m.succ_pos
    unfold poll
    rw [play_bind, hfirst]
    exact ih (fun k hk => h (k + 1) (Nat.succ_lt_succ hk)) hm (Nat.lt_of_succ_lt_succ hmn)

/-- A larger bound on the rounds changes nothing for a loop that ends. -/
theorem play_poll_mono {n k : ℕ} {x y : P × σ} {b : β}
    (h : play eff env script (poll n body) x = (some b, y)) (hk : n ≤ k) :
    play eff env script (poll k body) x = (some b, y) := by
  induction n generalizing k x with
  | zero => cases h
  | succ n ih =>
    obtain ⟨k, rfl⟩ := Nat.exists_eq_succ_of_ne_zero (Nat.ne_zero_of_lt hk)
    unfold poll at h ⊢
    rw [play_bind] at h ⊢
    cases ho : (play eff env script body x).1 with
    | none =>
      rw [ho] at h
      exact ih h (Nat.le_of_succ_le_succ hk)
    | some c =>
      rw [ho] at h
      exact h

/-- If some round ends the wait, the loop ends with a first such round, however large the bound. -/
theorem exists_play_poll {x : P × σ} {n : ℕ}
    (h : (play eff env script body (rounds eff env script body n x)).1 ≠ none) :
    ∃ m b, (play eff env script body (rounds eff env script body m x)).1 = some b ∧
      ∀ k > m, play eff env script (poll k body) x =
        (some b, rounds eff env script body (m + 1) x) := by
  classical
  have hex : ∃ n, (play eff env script body (rounds eff env script body n x)).1 ≠ none := ⟨n, h⟩
  obtain ⟨b, hb⟩ := Option.ne_none_iff_exists'.mp (Nat.find_spec hex)
  refine ⟨Nat.find hex, b, hb, fun k hk => play_poll_some (fun j hj => ?_) hb hk⟩
  exact not_not.mp (Nat.find_min hex hj)

/-- A wait goes on forever if each round goes on and keeps the reason for it. -/
theorem play_poll_waits {J : P × σ → Prop}
    (hstep : ∀ x, J x → (play eff env script body x).1 = none ∧ J (play eff env script body x).2)
    {x : P × σ} (hx : J x) (n : ℕ) : (play eff env script (poll n body) x).1 = none := by
  have hwaits : ∀ m, J (rounds eff env script body m x) := by
    intro m
    induction m with
    | zero => exact hx
    | succ m ih =>
      rw [rounds_succ]
      exact (hstep _ ih).2
  rw [play_poll_none fun m _ => (hstep _ (hwaits m)).1]

/-- A wait ends if every round that does not end it raises a measure that has an upper bound. -/
theorem exists_round_ne_none {I : P × σ → Prop} {Q : P × σ → ℤ} {B : ℤ}
    (hstep : ∀ x, I x → (play eff env script body x).1 = none →
      I (play eff env script body x).2 ∧ Q x < Q (play eff env script body x).2)
    (hbound : ∀ x, I x → Q x ≤ B) {x : P × σ} (hx : I x) :
    ∃ n, (play eff env script body (rounds eff env script body n x)).1 ≠ none := by
  by_contra hwaits
  simp only [not_exists, not_not] at hwaits
  have hrise : ∀ n : ℕ, I (rounds eff env script body n x) ∧
      Q x + n ≤ Q (rounds eff env script body n x) := by
    intro n
    induction n with
    | zero => exact ⟨hx, by rw [Nat.cast_zero, add_zero]; exact le_rfl⟩
    | succ n ih =>
      obtain ⟨hI, hlt⟩ := hstep _ ih.1 (hwaits n)
      rw [rounds_succ]
      exact ⟨hI, by push_cast; omega⟩
  obtain ⟨hI, hQ⟩ := hrise (B - Q x + 1).toNat
  have hB := hbound _ hI
  omega

end Prog

end Threads
