import Mathlib.Tactic

/-!
# The first dip of a function

A search that walks up from a place `a`, remembers where it has seen the least value, and stops
where the values rise again or where a value cannot be improved. It finds the first local minimum
(`FirstDip`), not the least value of all (`exists_search`).
-/

namespace Dip

variable {α : Type} [LinearOrder α] (f : ℕ → α) (p : α → Prop)

/-- The search from the place `i` on; `k` is the place of the least value so far, and `n` bounds the
number of places. -/
def search [DecidablePred p] : ℕ → ℕ → ℕ → Option ℕ
  | 0, _, _ => none
  | n + 1, i, k =>
    if f k < f i then some k
    else if p (f i) then some i
    else if f i < f k then search n (i + 1) i
    else search n (i + 1) k

/-- From `a` on the values do not rise up to `k`, where they are less than ever before; there they
are `p`, or they stay until they rise. -/
structure FirstDip (a k : ℕ) : Prop where
  le : a ≤ k
  falls : AntitoneOn f (Set.Icc a k)
  lt : ∀ j, a ≤ j → j < k → f k < f j
  ends : p (f k) ∨ ∃ e, k < e ∧ f k < f e ∧ ∀ j, k < j → j < e → f j = f k

/-- What the search has seen when it comes to the place `i`. -/
structure Seen (a i k : ℕ) : Prop where
  le : a ≤ k
  lt : k < i
  goes : ¬p (f k)
  falls : AntitoneOn f (Set.Icc a k)
  first : ∀ j, a ≤ j → j < k → f k < f j
  flat : ∀ j, k < j → j < i → f j = f k

variable {f p} {a i k n r : ℕ}

namespace Seen

theorem le_value (h : Seen f p a i k) {j : ℕ} (ha : a ≤ j) (hj : j < i) : f k ≤ f j := by
  rcases lt_trichotomy j k with hjk | rfl | hjk
  · exact (h.first j ha hjk).le
  · exact le_rfl
  · exact (h.flat j hjk hj).ge

/-- The values do not rise up to a place that lies below all of them. -/
theorem antitoneOn_of_le (h : Seen f p a i k) (hi : f i ≤ f k) :
    AntitoneOn f (Set.Icc a i) := by
  intro x hx y hy hxy
  rcases eq_or_lt_of_le hy.2 with rfl | hyi
  · rcases eq_or_lt_of_le hxy with rfl | hlt
    · exact le_rfl
    · exact hi.trans (h.le_value hx.1 hlt)
  · rcases le_or_gt y k with hyk | hyk
    · exact h.falls ⟨hx.1, hxy.trans hyk⟩ ⟨hy.1, hyk⟩ hxy
    · rw [h.flat y hyk hyi]
      exact h.le_value hx.1 (hxy.trans_lt hyi)

/-- A new least value. -/
theorem fall (h : Seen f p a i k) (hi : f i < f k) (hgoes : ¬p (f i)) :
    Seen f p a (i + 1) i where
  le := h.le.trans h.lt.le
  lt := i.lt_succ_self
  goes := hgoes
  falls := h.antitoneOn_of_le hi.le
  first _ ha hj := hi.trans_le (h.le_value ha hj)
  flat j hj hj' := by omega

/-- The least value again. -/
theorem stay (h : Seen f p a i k) (hi : f i = f k) : Seen f p a (i + 1) k where
  le := h.le
  lt := h.lt.trans i.lt_succ_self
  goes := h.goes
  falls := h.falls
  first := h.first
  flat j hj hj' := by
    rcases Nat.lt_succ_iff_lt_or_eq.mp hj' with hji | rfl
    · exact h.flat j hj hji
    · exact hi

theorem start (ha : ¬p (f a)) : Seen f p a (a + 1) a where
  le := le_rfl
  lt := a.lt_succ_self
  goes := ha
  falls x hx y hy _ := by
    obtain rfl : x = a := le_antisymm hx.2 hx.1
    obtain rfl : y = x := le_antisymm hy.2 hy.1
    exact le_rfl
  first j ha hj := by omega
  flat j hj hj' := by omega

variable [DecidablePred p]

/-- What the search returns is the first dip. -/
theorem firstDip (h : Seen f p a i k) (hs : search f p n i k = some r) :
    FirstDip f p a r := by
  induction n generalizing i k with
  | zero => cases hs
  | succ n ih =>
    unfold search at hs
    split_ifs at hs with hrise hdone hfall
    · obtain rfl := Option.some.inj hs
      exact ⟨h.le, h.falls, h.first, .inr ⟨i, h.lt, hrise, h.flat⟩⟩
    · obtain rfl := Option.some.inj hs
      have hlt : f i < f k := (not_lt.mp hrise).lt_of_ne fun heq => h.goes (heq ▸ hdone)
      exact ⟨h.le.trans h.lt.le, h.antitoneOn_of_le hlt.le,
        fun j ha hj => hlt.trans_le (h.le_value ha hj), .inl hdone⟩
    · exact ih (h.fall hfall hdone) hs
    · exact ih (h.stay (le_antisymm (not_lt.mp hrise) (not_lt.mp hfall))) hs

/-- A value larger than the least one so far ends the search. -/
theorem search_isSome (h : Seen f p a i k) {j : ℕ} (hij : i ≤ j) (hj : j < i + n)
    (hrises : f k < f j) : (search f p n i k).isSome := by
  induction n generalizing i k with
  | zero => omega
  | succ n ih =>
    unfold search
    split_ifs with hrise hdone hfall
    · rfl
    · rfl
    · have hne : i ≠ j := by
        rintro rfl
        exact hfall.not_gt hrises
      exact ih (h.fall hfall hdone) (by omega) (by omega) (hfall.trans hrises)
    · have heq : f i = f k := le_antisymm (not_lt.mp hrise) (not_lt.mp hfall)
      have hne : i ≠ j := by
        rintro rfl
        exact hrises.ne' heq
      exact ih (h.stay heq) (by omega) (by omega) hrises

end Seen

/-- The search from `a` on finds the first dip, which comes before any value larger than the first
one. -/
theorem exists_search [DecidablePred p] {j : ℕ} (haj : a < j) (hj : j < a + 1 + n)
    (hrises : f a < f j) :
    ∃ k, search f p (n + 1) a a = some k ∧ FirstDip f p a k ∧ k < j := by
  have hstep : search f p (n + 1) a a =
      if p (f a) then some a else search f p n (a + 1) a := by
    rw [search, if_neg (lt_irrefl _), if_neg (lt_irrefl _)]
  rw [hstep]
  by_cases hdone : p (f a)
  · rw [if_pos hdone]
    refine ⟨a, rfl, ⟨le_rfl, fun x hx y hy _ => ?_, fun i hai hia => by omega, .inl hdone⟩, haj⟩
    obtain rfl : x = a := le_antisymm hx.2 hx.1
    obtain rfl : y = x := le_antisymm hy.2 hy.1
    exact le_rfl
  · have hseen : Seen f p a (a + 1) a := .start hdone
    obtain ⟨k, hk⟩ := Option.isSome_iff_exists.mp (hseen.search_isSome haj hj hrises)
    have hdip := hseen.firstDip hk
    rw [if_neg hdone]
    refine ⟨k, hk, hdip, ?_⟩
    by_contra hjk
    exact hrises.not_ge (hdip.falls ⟨le_rfl, hdip.le⟩ ⟨haj.le, not_lt.mp hjk⟩ haj.le)

theorem FirstDip.le_first (h : FirstDip f p a k) : f k ≤ f a :=
  h.falls ⟨le_rfl, h.le⟩ ⟨h.le, le_rfl⟩ h.le

end Dip
