import Mathlib.Tactic

/-!
# Programs of atomic steps

A thread is a tree of atomic actions: `ret a` has finished with the result `a`, `act l k` performs
the action named `l` and goes on as `k` says, given the shared state that the action left. What an
action does to the shared state is not part of the tree: `eff l` says it. The same tree is run alone
(`exec`), one action at a time (`step`), or between the actions of other threads (`Pool`).

A loop that waits for an outside event is `poll n body`: at most `n` rounds of `body`, with the
result `none` when no round has ended the wait. A statement for every `n` is one about every finite
part of the endless loop.
-/

namespace Threads

/-- A program over actions named by `L` and a shared state `σ`, with results in `α`. -/
inductive Prog (L σ α : Type) where
  | ret (a : α)
  | act (l : L) (k : σ → Prog L σ α)

namespace Prog

variable {L L' σ σ' α β : Type}

/-- Sequential composition. -/
def bind : Prog L σ α → (α → Prog L σ β) → Prog L σ β
  | ret a, g => g a
  | act l k, g => act l fun s => bind (k s) g

instance : Monad (Prog L σ) where
  pure := ret
  bind := bind

/-- Perform `l` and return what `f` reads off the state it leaves. -/
def ask (l : L) (f : σ → α) : Prog L σ α := act l fun s => ret (f s)

/-- Perform `l` for its effect. -/
def perform (l : L) : Prog L σ Unit := act l fun _ => ret ()

/-- `p` under the condition `c`, as a statement. -/
def when (c : Prop) [Decidable c] (p : Prog L σ Unit) : Prog L σ Unit := if c then p else ret ()

@[simp] theorem pure_eq (a : α) : (pure a : Prog L σ α) = ret a := rfl

@[simp] theorem ret_bind (a : α) (g : α → Prog L σ β) : ret a >>= g = g a := rfl

@[simp] theorem act_bind (l : L) (k : σ → Prog L σ α) (g : α → Prog L σ β) :
    act l k >>= g = act l fun s => k s >>= g := rfl

@[simp] theorem ask_bind (l : L) (f : σ → α) (g : α → Prog L σ β) :
    ask l f >>= g = act l fun s => g (f s) := rfl

@[simp] theorem perform_bind (l : L) (g : Unit → Prog L σ β) :
    perform l >>= g = act l fun _ => g () := rfl

theorem bind_assoc {γ : Type} (p : Prog L σ α) (g : α → Prog L σ β) (h : β → Prog L σ γ) :
    (p >>= g) >>= h = p >>= fun a => g a >>= h := by
  induction p with
  | ret a => rfl
  | act l k ih => exact congrArg (act l) (funext ih)

theorem bind_ret (p : Prog L σ Unit) : (p >>= fun _ => ret ()) = p := by
  induction p with
  | ret a => rfl
  | act l k ih => exact congrArg (act l) (funext ih)

theorem ite_bind (c : Prop) [Decidable c] (p q : Prog L σ α) (g : α → Prog L σ β) :
    (if c then p else q) >>= g = if c then p >>= g else q >>= g := by
  split_ifs <;> rfl

/-! ## Running a program -/

/-- The result and the final state of a program that nobody interrupts. -/
def exec (eff : L → σ → σ) : Prog L σ α → σ → α × σ
  | ret a, s => (a, s)
  | act l k, s => exec eff (k (eff l s)) (eff l s)

/-- One action: what is left of the program, and the new state. -/
def step (eff : L → σ → σ) : Prog L σ α → σ → Prog L σ α × σ
  | ret a, s => (ret a, s)
  | act l k, s => (k (eff l s), eff l s)

/-- The action the program performs next. -/
def head : Prog L σ α → Option L
  | ret _ => none
  | act l _ => some l

/-- The result of a program that has finished. -/
def value? : Prog L σ α → Option α
  | ret a => some a
  | act _ _ => none

variable (eff : L → σ → σ)

@[simp] theorem exec_ret (a : α) (s : σ) : exec eff (ret a) s = (a, s) := rfl

@[simp] theorem exec_act (l : L) (k : σ → Prog L σ α) (s : σ) :
    exec eff (act l k) s = exec eff (k (eff l s)) (eff l s) := rfl

@[simp] theorem exec_ask (l : L) (f : σ → α) (s : σ) :
    exec eff (ask l f) s = (f (eff l s), eff l s) := rfl

@[simp] theorem exec_perform (l : L) (s : σ) : exec eff (perform l) s = ((), eff l s) := rfl

@[simp] theorem exec_bind (p : Prog L σ α) (g : α → Prog L σ β) (s : σ) :
    exec eff (p >>= g) s = exec eff (g (exec eff p s).1) (exec eff p s).2 := by
  induction p generalizing s with
  | ret a => rfl
  | act l k ih => exact ih (eff l s) (eff l s)

@[simp] theorem exec_ite (c : Prop) [Decidable c] (p q : Prog L σ α) (s : σ) :
    exec eff (if c then p else q) s = if c then exec eff p s else exec eff q s := by
  split_ifs <;> rfl

@[simp] theorem exec_when (c : Prop) [Decidable c] (p : Prog L σ Unit) (s : σ) :
    exec eff (when c p) s = if c then exec eff p s else ((), s) := exec_ite eff c p (ret ()) s

@[simp] theorem step_ret (a : α) (s : σ) : step eff (ret a) s = (ret a, s) := rfl

@[simp] theorem step_act (l : L) (k : σ → Prog L σ α) (s : σ) :
    step eff (act l k) s = (k (eff l s), eff l s) := rfl

@[simp] theorem head_ret (a : α) : head (ret a : Prog L σ α) = none := rfl

@[simp] theorem head_act (l : L) (k : σ → Prog L σ α) : head (act l k) = some l := rfl

theorem exists_of_head_eq_some {p : Prog L σ α} {l : L} (h : p.head = some l) :
    ∃ k, p = act l k := by
  cases p with
  | ret a => cases h
  | act l' k => cases h; exact ⟨k, rfl⟩

theorem exists_of_head_eq_none {p : Prog L σ α} (h : p.head = none) : ∃ a, p = ret a := by
  cases p with
  | ret a => exact ⟨a, rfl⟩
  | act l' k => cases h

theorem eq_ret_of_value? {p : Prog L σ α} {a : α} (h : p.value? = some a) : p = ret a := by
  cases p with
  | ret b => exact congrArg ret (Option.some.inj h)
  | act l k => cases h

/-! ## A program over a part of the state -/

/-- The program `p`, whose state is the part `get s` of a larger state and whose actions are named
`name l` there. -/
def zoom (name : L → L') (get : σ' → σ) : Prog L σ α → Prog L' σ' α
  | ret a => ret a
  | act l k => act (name l) fun s => zoom name get (k (get s))

/-- If `set` puts the part back where `get` finds it, running the zoomed program changes that part
as the program itself does, and nothing else. -/
theorem exec_zoom {name : L → L'} {get : σ' → σ} {eff' : L' → σ' → σ'} (set : σ → σ' → σ')
    (heff : ∀ l s, eff' (name l) s = set (eff l (get s)) s) (hget : ∀ x s, get (set x s) = x)
    (hset : ∀ s, set (get s) s = s) (hset₂ : ∀ x y s, set x (set y s) = set x s)
    (p : Prog L σ α) (s : σ') :
    exec eff' (zoom name get p) s =
      ((exec eff p (get s)).1, set (exec eff p (get s)).2 s) := by
  induction p generalizing s with
  | ret a => simp [zoom, hset]
  | act l k ih => simp only [zoom, exec_act, heff, hget, ih, hset₂]

/-! ## Properties of every action -/

/-- Every action the program can come to has a name in `Φ`. -/
def All (Φ : L → Prop) : Prog L σ α → Prop
  | ret _ => True
  | act l k => Φ l ∧ ∀ s, All Φ (k s)

variable {Φ : L → Prop}

@[simp] theorem all_ret (a : α) : All Φ (ret a : Prog L σ α) := trivial

@[simp] theorem all_act (l : L) (k : σ → Prog L σ α) :
    All Φ (act l k) ↔ Φ l ∧ ∀ s, All Φ (k s) := Iff.rfl

@[simp] theorem all_ask (l : L) (f : σ → α) : All Φ (ask l f) ↔ Φ l := by simp [ask]

@[simp] theorem all_perform (l : L) : All Φ (perform l : Prog L σ Unit) ↔ Φ l := by simp [perform]

@[simp] theorem all_true (p : Prog L σ α) : All (fun _ => True) p := by
  induction p with
  | ret a => trivial
  | act l k ih => exact ⟨trivial, ih⟩

/-- Some run of the program, among other threads, has the result `a`. -/
def Returns (a : α) : Prog L σ α → Prop
  | ret b => b = a
  | act _ k => ∃ s, Returns a (k s)

@[simp] theorem all_bind {p : Prog L σ α} {g : α → Prog L σ β} :
    All Φ (p >>= g) ↔ All Φ p ∧ ∀ a, p.Returns a → All Φ (g a) := by
  induction p with
  | ret a => simp [Returns]
  | act l k ih =>
    simp only [act_bind, all_act, ih, Returns]
    constructor
    · rintro ⟨hl, h⟩
      exact ⟨⟨hl, fun s => (h s).1⟩, fun a ⟨s, ha⟩ => (h s).2 a ha⟩
    · rintro ⟨⟨hl, hk⟩, hg⟩
      exact ⟨hl, fun s => ⟨hk s, fun a ha => hg a ⟨s, ha⟩⟩⟩

theorem All.perform_bind {l : L} {g : Unit → Prog L σ α} (hl : Φ l) (hg : All Φ (g ())) :
    All Φ (perform l >>= g) := ⟨hl, fun _ => hg⟩

theorem All.ask_bind {l : L} {f : σ → α} {g : α → Prog L σ β} (hl : Φ l)
    (hg : ∀ s, All Φ (g (f s))) : All Φ (ask l f >>= g) := ⟨hl, hg⟩

@[simp] theorem all_ite {c : Prop} [Decidable c] {p q : Prog L σ α} :
    All Φ (if c then p else q) ↔ (c → All Φ p) ∧ (¬c → All Φ q) := by
  split_ifs with h <;> simp [h]

@[simp] theorem all_when {c : Prop} [Decidable c] {p : Prog L σ Unit} :
    All Φ (when c p) ↔ (c → All Φ p) := by
  simp [when]

theorem All.imp {Ψ : L → Prop} {p : Prog L σ α} (hp : All Φ p) (h : ∀ l, Φ l → Ψ l) : All Ψ p := by
  induction p with
  | ret a => trivial
  | act l k ih => exact ⟨h l hp.1, fun s => ih s (hp.2 s)⟩

theorem all_zoom {name : L → L'} {get : σ' → σ} {Ψ : L' → Prop} (hget : Function.Surjective get)
    {p : Prog L σ α} : All Ψ (zoom name get p) ↔ All (fun l => Ψ (name l)) p := by
  induction p with
  | ret a => rfl
  | act l k ih =>
    refine and_congr_right fun _ => ⟨fun h s => ?_, fun h s => (ih _).2 (h _)⟩
    obtain ⟨s, rfl⟩ := hget s
    exact (ih _).1 (h s)

theorem All.step {p : Prog L σ α} (hp : All Φ p) (s : σ) : All Φ (p.step eff s).1 := by
  cases p with
  | ret a => trivial
  | act l k => exact hp.2 _

theorem All.head {p : Prog L σ α} (hp : All Φ p) {l : L} (h : p.head = some l) : Φ l := by
  obtain ⟨k, rfl⟩ := exists_of_head_eq_some h
  exact hp.1

/-- A part of the state that none of its actions touches survives a program. -/
theorem All.exec_frame {τ : Type} {f : σ → τ} {p : Prog L σ α} (hp : All Φ p)
    (hf : ∀ l, Φ l → ∀ s, f (eff l s) = f s) (s : σ) : f (p.exec eff s).2 = f s := by
  induction p generalizing s with
  | ret a => rfl
  | act l k ih => exact (ih _ (hp.2 _) _).trans (hf l hp.1 s)

/-! ## Waiting loops -/

/-- At most `n` rounds of `body`; a round that returns `some b` ends the loop with `b`. -/
def poll (n : ℕ) (body : Prog L σ (Option β)) : Prog L σ (Option β) :=
  match n with
  | 0 => ret none
  | n + 1 => body >>= fun
    | none => poll n body
    | some b => ret (some b)

@[simp] theorem zoom_ask (name : L → L') (get : σ' → σ) (l : L) (f : σ → α) :
    zoom name get (ask l f) = ask (name l) fun s => f (get s) := rfl

@[simp] theorem zoom_perform (name : L → L') (get : σ' → σ) (l : L) :
    zoom name get (perform l) = perform (name l) := rfl

@[simp] theorem zoom_bind (name : L → L') (get : σ' → σ) (p : Prog L σ α) (g : α → Prog L σ β) :
    zoom name get (p >>= g) = zoom name get p >>= fun a => zoom name get (g a) := by
  induction p with
  | ret a => rfl
  | act l k ih => exact congrArg (act (name l)) (funext fun s => ih (get s))

@[simp] theorem zoom_ite (name : L → L') (get : σ' → σ) (c : Prop) [Decidable c]
    (p q : Prog L σ α) :
    zoom name get (if c then p else q) = if c then zoom name get p else zoom name get q := by
  split_ifs <;> rfl

@[simp] theorem zoom_poll (name : L → L') (get : σ' → σ) (n : ℕ) (body : Prog L σ (Option β)) :
    zoom name get (poll n body) = poll n (zoom name get body) := by
  induction n with
  | zero => rfl
  | succ n ih =>
    refine (zoom_bind name get body _).trans (congrArg _ (funext fun o => ?_))
    cases o with
    | none => exact ih
    | some b => rfl

theorem All.poll {n : ℕ} {body : Prog L σ (Option β)} (hb : All Φ body) : All Φ (poll n body) := by
  induction n with
  | zero => trivial
  | succ n ih =>
    refine all_bind.2 ⟨hb, fun o _ => ?_⟩
    cases o with
    | none => exact ih
    | some b => trivial

end Prog

end Threads
