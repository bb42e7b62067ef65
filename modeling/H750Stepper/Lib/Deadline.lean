import H750Stepper.Lib.Session

/-!
# Polling for a deadline

A waiting loop reads a clock in each round and leaves at the first reading that it takes to be late.
`Polled late ts out` says so of the readings `ts`; `polled_poll` proves it of a loop from one round
of it. A loop that takes readings to be late by one test does what another test asks for exactly if
the two agree on every reading (`Polled.iff`).

`late_iff_due_iff`: a clock of `N` ticks that starts again at 0, and a deadline that is computed and
compared modulo `N`.
-/

namespace Threads

/-- The readings of a waiting loop: none is late but the last, and the last is late if the loop has
been left for that reason (`out`). -/
def Polled (late : ℕ → Prop) (ts : List ℕ) (out : Bool) : Prop :=
  match out with
  | true => ∃ ts₁ t, ts = ts₁ ++ [t] ∧ (∀ x ∈ ts₁, ¬late x) ∧ late t
  | false => ∀ x ∈ ts, ¬late x

variable {late due : ℕ → Prop} {ts ts' : List ℕ} {out : Bool}

theorem Polled.append (h : ∀ x ∈ ts, ¬late x) (h' : Polled late ts' out) :
    Polled late (ts ++ ts') out := by
  cases out with
  | false =>
    intro x hx
    rcases List.mem_append.mp hx with hx | hx
    · exact h x hx
    · exact h' x hx
  | true =>
    obtain ⟨ts₁, t, rfl, hts₁, ht⟩ := h'
    refine ⟨ts ++ ts₁, t, (List.append_assoc ..).symm, fun x hx => ?_, ht⟩
    rcases List.mem_append.mp hx with hx | hx
    · exact h x hx
    · exact hts₁ x hx

/-- Two tests that must lead to the same end agree on every reading. -/
theorem Polled.iff (h : Polled late ts out) :
    Polled due ts out ↔ ∀ t ∈ ts, (late t ↔ due t) := by
  cases out with
  | false =>
    constructor
    · intro hdue t ht
      exact iff_of_false (h t ht) (hdue t ht)
    · intro hiff t ht hdue
      exact h t ht ((hiff t ht).mpr hdue)
  | true =>
    obtain ⟨ts₁, t, rfl, hts₁, ht⟩ := h
    constructor
    · rintro ⟨ts₂, t', heq, hts₂, ht'⟩ x hx
      obtain ⟨rfl, rfl⟩ : ts₁ = ts₂ ∧ t = t' := by simpa using heq
      rcases List.mem_append.mp hx with hx | hx
      · exact iff_of_false (hts₁ x hx) (hts₂ x hx)
      · obtain rfl := List.mem_singleton.mp hx
        exact iff_of_true ht ht'
    · intro hiff
      refine ⟨ts₁, t, rfl, fun x hx hdue => ?_, ?_⟩
      · exact hts₁ x hx ((hiff x (List.mem_append_left _ hx)).mpr hdue)
      · exact (hiff t (List.mem_append_right _ (List.mem_singleton.mpr rfl))).mp ht

/-! ## Waiting loops -/

section Loop

variable {L σ α β : Type} [DecidableEq L] {eff : L → σ → σ} {env : σ → σ → Prop} {l₀ : L}
  {clock : σ → ℕ}

/-- The values of `clock` that the actions `l₀` of a trace have found. -/
def readings (l₀ : L) (clock : σ → ℕ) (tr : List (L × σ)) : List ℕ :=
  tr.filterMap fun x => if x.1 = l₀ then some (clock x.2) else none

@[simp] theorem readings_nil : readings l₀ clock ([] : List (L × σ)) = [] := rfl

theorem readings_cons_self (s : σ) (tr : List (L × σ)) :
    readings l₀ clock ((l₀, s) :: tr) = clock s :: readings l₀ clock tr := by
  simp [readings]

theorem readings_append (tr₁ tr₂ : List (L × σ)) :
    readings l₀ clock (tr₁ ++ tr₂) = readings l₀ clock tr₁ ++ readings l₀ clock tr₂ :=
  List.filterMap_append

/-- A program that does not read the clock. -/
theorem Prog.Runs.readings_eq_nil {p : Prog L σ α} {a : α} {s s' : σ} {tr : List (L × σ)}
    (h : p.Runs eff env s tr a s') (hp : p.All (· ≠ l₀)) : readings l₀ clock tr = [] :=
  List.filterMap_eq_nil_iff.mpr fun x hx => if_neg (h.all hp x hx)

/-- A first part that does not read the clock. -/
theorem Prog.Runs.skip_readings (l₀ : L) (clock : σ → ℕ) {p : Prog L σ α} {g : α → Prog L σ β}
    {b : β} {s s' : σ} {tr : List (L × σ)} (h : (p >>= g).Runs eff env s tr b s')
    (hp : p.All (· ≠ l₀)) :
    ∃ a s₁ tr₁, (g a).Runs eff env s₁ tr₁ b s' ∧
      readings l₀ clock tr = readings l₀ clock tr₁ := by
  obtain ⟨tr₁, a, s₁, tr₂, h₁, h₂, rfl⟩ := Prog.runs_bind.mp h
  refine ⟨a, s₁, tr₂, h₂, ?_⟩
  rw [readings_append, h₁.readings_eq_nil hp, List.nil_append]

/-- A test that does not read the clock: it ends the call, or the call goes on. -/
theorem Prog.Runs.refused_or (l₀ : L) (clock : σ → ℕ) {p : Prog L σ α} {c : α → Prop}
    [DecidablePred c] {r b : β} {g : α → Prog L σ β} {s s' : σ} {tr : List (L × σ)}
    (h : (p >>= fun a => if c a then ret r else g a).Runs eff env s tr b s')
    (hp : p.All (· ≠ l₀)) :
    b = r ∧ readings l₀ clock tr = [] ∨
      ∃ a s₁ tr₁, (g a).Runs eff env s₁ tr₁ b s' ∧
        readings l₀ clock tr = readings l₀ clock tr₁ := by
  obtain ⟨a, s₁, tr₁, hrun, heq⟩ := h.skip_readings l₀ clock hp
  by_cases hc : c a
  · rw [if_pos hc] at hrun
    obtain ⟨rfl, rfl, -⟩ := hrun
    exact .inl ⟨rfl, heq⟩
  · rw [if_neg hc] at hrun
    exact .inr ⟨a, s₁, tr₁, hrun, heq⟩

/-- A clock that only the environment moves is read at rising values. -/
theorem Prog.Runs.readings_sorted {p : Prog L σ α} {a : α} {s s' : σ} {tr : List (L × σ)}
    (h : p.Runs eff env s tr a s') (heff : ∀ l s, clock (eff l s) = clock s)
    (henv : ∀ s s', env s s' → clock s ≤ clock s') :
    (readings l₀ clock tr).Pairwise (· ≤ ·) := by
  have hsorted := List.pairwise_map.mp (h.sorted heff henv).1
  refine hsorted.filterMap _ fun x y hxy b hb b' hb' => ?_
  obtain ⟨-, hb⟩ := Option.ite_none_right_eq_some.mp hb
  obtain ⟨-, hb'⟩ := Option.ite_none_right_eq_some.mp hb'
  rw [← Option.some.inj hb, ← Option.some.inj hb']
  exact hxy

/-- The readings of one round of a loop: none is late in a round that stays in the loop. -/
def RoundPolled (late : ℕ → Prop) (isOut : β → Bool) (ts : List ℕ) : Option β → Prop
  | none => ∀ t ∈ ts, ¬late t
  | some b => Polled late ts (isOut b)

/-- A round that leaves the loop for another reason, without a reading. -/
theorem roundPolled_leave {isOut : β → Bool} {b : β} (hb : isOut b = false) :
    RoundPolled late isOut [] (some b) := by
  show Polled late [] (isOut b)
  rw [hb]
  exact fun t ht => absurd ht List.not_mem_nil

/-- A round that leaves the loop at a late reading. -/
theorem roundPolled_out {isOut : β → Bool} {b : β} (hb : isOut b = true) {t : ℕ} (ht : late t) :
    RoundPolled late isOut [t] (some b) := by
  show Polled late [t] (isOut b)
  rw [hb]
  exact ⟨[], t, rfl, fun x hx => absurd hx List.not_mem_nil, ht⟩

/-- A round that stays in the loop. -/
theorem roundPolled_stay {isOut : β → Bool} {t : ℕ} (ht : ¬late t) :
    RoundPolled late isOut [t] none := by
  intro x hx
  rw [List.mem_singleton.mp hx]
  exact ht

/-- The end of a round: a test for the deadline, and another action if it is not over. -/
theorem roundPolled_wait {isOut : β → Bool} {p : Prog L σ Bool} {l : L} {b : β} {s s' : σ}
    {tr : List (L × σ)} {o : Option β} (hb : isOut b = true) (hl : l ≠ l₀)
    (hp : ∀ {tr out s'}, p.Runs eff env s tr out s' →
      ∃ t, readings l₀ clock tr = [t] ∧ (out = true ↔ late t))
    (h : (do
      if ← p then return some b
      else do
        Prog.perform l
        return none).Runs eff env s tr o s') :
    RoundPolled late isOut (readings l₀ clock tr) o := by
  obtain ⟨tr₁, out, _, tr₂, htest, hleave, rfl⟩ := Prog.runs_bind.mp h
  obtain ⟨t, ht, hlate⟩ := hp htest
  rw [readings_append, ht]
  cases out with
  | true =>
    obtain ⟨rfl, rfl, -⟩ := hleave
    exact roundPolled_out hb (hlate.mp rfl)
  | false =>
    obtain ⟨s₁, tr₃, -, rfl, rfl, rfl, -⟩ := hleave
    have hnil : readings l₀ clock [(l, s₁)] = [] := by simp [readings, hl]
    rw [hnil, List.append_nil]
    exact roundPolled_stay fun h => Bool.false_ne_true (hlate.mpr h)

/-- A loop whose rounds leave it at a late reading. -/
theorem polled_poll {isOut : β → Bool} {body : Prog L σ (Option β)}
    (hbody : ∀ s tr o s', body.Runs eff env s tr o s' →
      RoundPolled late isOut (readings l₀ clock tr) o)
    {n : ℕ} {s s' : σ} {tr : List (L × σ)} {o : Option β}
    (h : (Prog.poll n body).Runs eff env s tr o s') :
    Polled late (readings l₀ clock tr) (o.elim false isOut) := by
  induction n generalizing s tr with
  | zero =>
    obtain ⟨rfl, rfl, -⟩ := h
    simp [Polled]
  | succ n ih =>
    obtain ⟨tr₁, o₁, s₁, tr₂, h₁, h₂, rfl⟩ := Prog.runs_bind.mp h
    have hround := hbody _ _ _ _ h₁
    rw [readings_append]
    cases o₁ with
    | none => exact Polled.append hround (ih h₂)
    | some b =>
      obtain ⟨rfl, rfl, rfl⟩ := h₂
      rw [readings_nil, List.append_nil]
      exact hround

end Loop

/-! ## A clock that wraps -/

section Clock

variable {N t d t₀ T T' : ℕ}

/-- Two instants less than a cycle apart keep their order modulo `N` if they are of one cycle. -/
theorem mod_lt_mod_iff (htd : t < d) (hd : d < t + N) : t % N < d % N ↔ t / N = d / N := by
  have hN : 0 < N := by omega
  have ht := Nat.div_add_mod t N
  have hd' := Nat.div_add_mod d N
  have hlt := Nat.mod_lt t hN
  have hlt' := Nat.mod_lt d hN
  have hle : t / N ≤ d / N := Nat.div_le_div_right htd.le
  have hge : d / N ≤ t / N + 1 := by
    calc d / N ≤ (t + N) / N := Nat.div_le_div_right hd.le
      _ = t / N + 1 := Nat.add_div_right t hN
  rcases Nat.lt_or_ge (t / N) (d / N) with h | h
  · have hsucc : d / N = t / N + 1 := by omega
    rw [hsucc, Nat.mul_add_one] at hd'
    constructor <;> intro <;> omega
  · have heq : d / N = t / N := by omega
    rw [heq] at hd'
    exact iff_of_true (by omega) heq.symm

/-- The reading `t` agrees with the deadline `T` after `t₀`, computed with `T'` in place of `T`:
before the deadline it lies in the cycle of the computed one, afterwards it does not lie below it
modulo `N`. -/
def Unwrapped (N t₀ T T' t : ℕ) : Prop :=
  if t < t₀ + T then t / N = (t₀ + T') / N else (t₀ + T') % N ≤ t % N

/-- A deadline computed and compared modulo `N` is right exactly for such readings. -/
theorem late_iff_due_iff (ht : t₀ ≤ t) (hT : T ≤ T') (hT' : T' < N) :
    ((t₀ + T') % N ≤ t % N ↔ t₀ + T ≤ t) ↔ Unwrapped N t₀ T T' t := by
  unfold Unwrapped
  by_cases h : t < t₀ + T
  · rw [if_pos h, ← mod_lt_mod_iff (by omega) (by omega)]
    simp only [Nat.not_le.mpr h, iff_false, Nat.not_le]
  · rw [if_neg h]
    simp only [Nat.not_lt.mp h, iff_true]

end Clock

end Threads
