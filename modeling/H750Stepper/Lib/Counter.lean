import Mathlib.Tactic

/-!
# Periodic events with restarts

An event falls `offset` clocks after a restart and every `period` clocks from there on. `age` is the
time since the last restart. `age_mod_iff`: restarts leave the events where they would be without
them exactly if each of them goes unnoticed.

A counter with a prescaler has such events: it advances every `psc + 1` clocks, goes back to 0 after
`arr`, and reaches a value once in a period (`Counter.reaches_after`).
-/

namespace Periodic

variable {restart : ℕ → Bool} {period offset phase : ℕ}

/-- The clocks since the last restart before the clock `t`, or since the clock 0. -/
def age (restart : ℕ → Bool) : ℕ → ℕ
  | 0 => 0
  | t + 1 => (if restart t then 0 else age restart t) + 1

/-- The clocks from a phase to the next event. -/
def due (period offset phase : ℕ) : ℕ :=
  if phase < offset then offset - phase else offset + period - phase

/-- The restart at `t` keeps the phase, or another one follows before the next event with it and
before the next event without it. -/
def Unnoticed (period offset : ℕ) (restart : ℕ → Bool) (t : ℕ) : Prop :=
  period ∣ t ∨ ∃ t', t < t' ∧
    t' < t + min (due period offset 0) (due period offset (t % period)) ∧ restart t' = true

theorem age_eq_self {t : ℕ} (h : ∀ r < t, restart r = false) : age restart t = t := by
  induction t with
  | zero => rfl
  | succ t ih =>
    unfold age
    rw [h t t.lt_succ_self, ih fun r hr => h r (Nat.lt_succ_of_lt hr)]
    rfl

theorem age_eq_sub {s t : ℕ} (hs : restart s = true) (hst : s < t)
    (h : ∀ r, s < r → r < t → restart r = false) : age restart t = t - s := by
  induction t with
  | zero => omega
  | succ t ih =>
    unfold age
    by_cases heq : s = t
    · rw [← heq, if_pos hs]
      omega
    · have hlt : s < t := by omega
      have hnone : ¬restart t = true := by rw [h t hlt t.lt_succ_self]; exact Bool.false_ne_true
      rw [if_neg hnone, ih hlt fun r hr hrt => h r hr (Nat.lt_succ_of_lt hrt)]
      omega

/-- There is a last restart before `t`, or none at all. -/
theorem last_restart (restart : ℕ → Bool) (t : ℕ) :
    (∀ r < t, restart r = false) ∨
      ∃ s < t, restart s = true ∧ ∀ r, s < r → r < t → restart r = false := by
  induction t with
  | zero => exact .inl fun r hr => absurd hr r.not_lt_zero
  | succ t ih =>
    by_cases ht : restart t = true
    · exact .inr ⟨t, t.lt_succ_self, ht, fun r hr hrt => by omega⟩
    · rw [Bool.not_eq_true] at ht
      rcases ih with hnone | ⟨s, hst, hs, hnone⟩
      · refine .inl fun r hr => ?_
        rcases Nat.lt_succ_iff_lt_or_eq.mp hr with hlt | rfl
        · exact hnone r hlt
        · exact ht
      · refine .inr ⟨s, Nat.lt_succ_of_lt hst, hs, fun r hsr hr => ?_⟩
        rcases Nat.lt_succ_iff_lt_or_eq.mp hr with hlt | rfl
        · exact hnone r hsr hlt
        · exact ht

/-! ## The next event -/

theorem due_pos (hphase : phase < period) : 0 < due period offset phase := by
  unfold due
  split_ifs <;> omega

/-- The next event comes when it is due. -/
theorem add_due_mod (hoffset : offset < period) (hphase : phase < period) :
    (phase + due period offset phase) % period = offset := by
  unfold due
  split_ifs with h
  · rw [Nat.add_sub_cancel' h.le, Nat.mod_eq_of_lt hoffset]
  · rw [Nat.add_sub_cancel' (by omega), Nat.add_mod_right, Nat.mod_eq_of_lt hoffset]

/-- No event comes before it is due. -/
theorem add_mod_ne (hoffset : offset < period) {u : ℕ} (hu : 0 < u)
    (hlt : u < due period offset phase) : (phase + u) % period ≠ offset := by
  unfold due at hlt
  split_ifs at hlt with h
  · rw [Nat.mod_eq_of_lt (by omega)]
    omega
  · by_cases hwrap : phase + u < period
    · rw [Nat.mod_eq_of_lt hwrap]
      omega
    · rw [Nat.mod_eq_sub_mod (by omega), Nat.mod_eq_of_lt (by omega)]
      omega

/-- Another phase is another time to the next event. -/
theorem due_ne (hphase : phase < period) (hne : phase ≠ 0) :
    due period offset 0 ≠ due period offset phase := by
  unfold due
  split_ifs <;> omega

/-- A restart out of phase that no other one follows in time moves the next event. -/
theorem exists_moved (hoffset : offset < period) {t : ℕ} (ht : restart t = true)
    (hnoticed : ¬Unnoticed period offset restart t) :
    ∃ u, 0 < u ∧ ¬(age restart (t + u) % period = offset ↔ (t + u) % period = offset) := by
  unfold Unnoticed at hnoticed
  push Not at hnoticed
  obtain ⟨hphase, hnone⟩ := hnoticed
  have hlt : t % period < period := Nat.mod_lt _ (by omega)
  have hne : due period offset 0 ≠ due period offset (t % period) :=
    due_ne hlt fun h => hphase (Nat.dvd_of_mod_eq_zero h)
  have hage : ∀ u, 0 < u → u ≤ min (due period offset 0) (due period offset (t % period)) →
      age restart (t + u) = u := by
    intro u hu hle
    have hlast := age_eq_sub (t := t + u) ht (by omega) fun r htr hr =>
      Bool.eq_false_iff.mpr (hnone r htr (by omega))
    omega
  rcases lt_or_gt_of_ne hne with hfirst | hfirst
  · -- The restart brings an event where there was none.
    have hpos : 0 < due period offset 0 := due_pos (by omega)
    have hevent : (0 + due period offset 0) % period = offset := add_due_mod hoffset (by omega)
    have hnoevent := add_mod_ne hoffset hpos hfirst
    refine ⟨due period offset 0, hpos, fun h => hnoevent ?_⟩
    rw [hage _ hpos (le_min le_rfl hfirst.le)] at h
    rw [zero_add] at hevent
    rw [Nat.mod_add_mod]
    exact h.mp hevent
  · -- The restart takes away the event that was due.
    have hpos : 0 < due period offset (t % period) := due_pos hlt
    have hevent := add_due_mod hoffset hlt
    have hnoevent := add_mod_ne hoffset hpos hfirst
    refine ⟨due period offset (t % period), hpos, fun h => hnoevent ?_⟩
    rw [hage _ hpos (le_min hfirst.le le_rfl)] at h
    rw [Nat.mod_add_mod] at hevent
    rw [zero_add]
    exact h.mpr hevent

/-- **Restarts.** The events are where they would be without the restarts exactly if every restart
goes unnoticed. -/
theorem age_mod_iff (hoffset : offset < period) :
    (∀ t, 0 < t → (age restart t % period = offset ↔ t % period = offset)) ↔
      ∀ t, restart t = true → Unnoticed period offset restart t := by
  constructor
  · intro h t ht
    by_contra hnoticed
    obtain ⟨u, hu, hmoved⟩ := exists_moved hoffset ht hnoticed
    exact hmoved (h (t + u) (by omega))
  · intro h t htpos
    rcases last_restart restart t with hnone | ⟨s, hst, hs, hnone⟩
    · rw [age_eq_self hnone]
    · rw [age_eq_sub hs hst hnone]
      have hsplit : t = s + (t - s) := by omega
      rcases h s hs with ⟨k, rfl⟩ | ⟨t', hst', hlt, ht'⟩
      · conv_rhs => rw [hsplit, Nat.mul_add_mod]
      · -- The next restart is not before `t`, and there is no event before it.
        have htt' : t ≤ t' := by
          by_contra hbefore
          rw [hnone t' hst' (by omega)] at ht'
          cases ht'
        have h₁ : (0 + (t - s)) % period ≠ offset := add_mod_ne hoffset (by omega) (by omega)
        have h₂ : (s % period + (t - s)) % period ≠ offset :=
          add_mod_ne hoffset (by omega) (by omega)
        rw [zero_add] at h₁
        rw [Nat.mod_add_mod, ← hsplit] at h₂
        exact iff_of_false h₁ h₂

/-! ## A counter behind a prescaler -/

/-- The count of the prescaler, and the count that it drives. -/
structure Counter where
  pre : ℕ
  cnt : ℕ
  deriving Inhabited

namespace Counter

variable {psc arr ccr : ℕ}

/-- An update event clears both counts. -/
def update (_ : Counter) : Counter := ⟨0, 0⟩

/-- A clock edge: every `psc + 1` edges the counter advances, from `arr` back to 0. -/
def edge (psc arr : ℕ) (c : Counter) : Counter :=
  if c.pre = psc then ⟨0, if c.cnt = arr then 0 else c.cnt + 1⟩ else ⟨c.pre + 1, c.cnt⟩

/-- With the next edge the counter advances to `ccr`. -/
def Reaches (psc arr ccr : ℕ) (c : Counter) : Prop := c.pre = psc ∧ (c.edge psc arr).cnt = ccr

/-- The counts `n` edges after an update event. -/
def after (psc arr n : ℕ) : Counter := ⟨n % (psc + 1), n / (psc + 1) % (arr + 1)⟩

theorem after_zero (psc arr : ℕ) : after psc arr 0 = ⟨0, 0⟩ := by
  unfold after
  rw [Nat.zero_mod, Nat.zero_div, Nat.zero_mod]

theorem succ_div_mod_of_eq {k n : ℕ} (h : n % (k + 1) = k) :
    (n + 1) / (k + 1) = n / (k + 1) + 1 ∧ (n + 1) % (k + 1) = 0 := by
  have hn := Nat.div_add_mod n (k + 1)
  rw [Nat.div_mod_unique (Nat.add_one_pos k), Nat.mul_succ]
  omega

theorem succ_div_mod_of_ne {k n : ℕ} (h : n % (k + 1) ≠ k) :
    (n + 1) / (k + 1) = n / (k + 1) ∧ (n + 1) % (k + 1) = n % (k + 1) + 1 := by
  have hn := Nat.div_add_mod n (k + 1)
  have hlt := Nat.mod_lt n (Nat.add_one_pos k)
  rw [Nat.div_mod_unique (Nat.add_one_pos k)]
  omega

theorem edge_after (psc arr n : ℕ) : (after psc arr n).edge psc arr = after psc arr (n + 1) := by
  unfold edge after
  dsimp only
  by_cases hpre : n % (psc + 1) = psc
  · obtain ⟨hdiv, hmod⟩ := succ_div_mod_of_eq hpre
    rw [if_pos hpre, hdiv, hmod]
    by_cases hcnt : n / (psc + 1) % (arr + 1) = arr
    · rw [if_pos hcnt, (succ_div_mod_of_eq hcnt).2]
    · rw [if_neg hcnt, (succ_div_mod_of_ne hcnt).2]
  · obtain ⟨hdiv, hmod⟩ := succ_div_mod_of_ne hpre
    rw [if_neg hpre, hdiv, hmod]

/-- The counter advances to a value once in a period. -/
theorem reaches_after (n : ℕ) : (after psc arr n).Reaches psc arr ccr ↔
    (n + 1) % ((psc + 1) * (arr + 1)) = (psc + 1) * ccr := by
  have hpre : (after psc arr n).pre = psc ↔ (n + 1) % (psc + 1) = 0 := by
    by_cases h : n % (psc + 1) = psc
    · exact iff_of_true h (succ_div_mod_of_eq h).2
    · refine iff_of_false h ?_
      rw [(succ_div_mod_of_ne h).2]
      exact Nat.succ_ne_zero _
  unfold Reaches
  rw [hpre, edge_after, Nat.mod_mul]
  show _ ∧ (n + 1) / (psc + 1) % (arr + 1) = ccr ↔ _
  constructor
  · rintro ⟨hmod, hcnt⟩
    rw [hmod, hcnt, zero_add]
  · intro h
    have hmod : (n + 1) % (psc + 1) = 0 := by
      have hsum := congrArg (· % (psc + 1)) h
      simpa using hsum
    rw [hmod, zero_add] at h
    exact ⟨hmod, Nat.eq_of_mul_eq_mul_left psc.succ_pos h⟩

end Counter

end Periodic
