import Mathlib.Tactic
import Mathlib.Algebra.BigOperators.Group.Finset.Basic

/-!
# Speed ramps in discrete time

A speed that moves toward a target by at most `A` in each period (`toward`), the two ramps this
gives (`cruise` up to a constant speed, `brake` down to 0), and the distance covered by a sequence
of speeds in periods of length `1 / F` (`travel`).

`moving_or_halted`: an iteration that goes on while a quantity is above a threshold, and halts when
it no longer is.
-/

namespace Ramp

variable {A : ℚ}

/-- The speed one period after `c`, on its way to `target`. -/
def toward (A target c : ℚ) : ℚ :=
  if target - c > A then c + A else if target - c < -A then c - A else target

/-- The speed after `k` periods of braking from `c`. -/
def brake (A c : ℚ) (k : ℕ) : ℚ := max (c - k * A) 0

/-- The speed after `k` periods on the way from `A` to the speed `V`. -/
def cruise (A V : ℚ) : ℕ → ℚ
  | 0 => A
  | k + 1 => min ((k + 2) * A) V

theorem brake_zero {c : ℚ} (hc : 0 ≤ c) : brake A c 0 = c := by simp [brake, hc]

theorem brake_nonneg (A c : ℚ) (k : ℕ) : 0 ≤ brake A c k := le_max_right _ _

/-- The speed changes by at most `A`. -/
theorem abs_toward_sub_le (hA : 0 ≤ A) (target c : ℚ) : |toward A target c - c| ≤ A := by
  unfold toward
  rw [abs_le]
  split_ifs <;> constructor <;> linarith

/-- A speed stays within the bounds of its target. -/
theorem abs_toward_le (hA : 0 ≤ A) {M target c : ℚ} (ht : |target| ≤ M) (hc : |c| ≤ M) :
    |toward A target c| ≤ M := by
  rw [abs_le] at ht hc ⊢
  unfold toward
  split_ifs <;> constructor <;> linarith

theorem toward_neg (hA : 0 ≤ A) (target c : ℚ) : toward A (-target) (-c) = -toward A target c := by
  unfold toward
  split_ifs <;> linarith

/-- A period brings the speed nearer to its target by `A`. -/
theorem abs_sub_toward (hA : 0 ≤ A) (target c : ℚ) :
    |target - toward A target c| = max (|target - c| - A) 0 := by
  unfold toward
  split_ifs with hup hdown
  · rw [abs_of_nonneg (by linarith), abs_of_nonneg (by linarith), max_eq_left (by linarith)]
    ring
  · rw [abs_of_nonpos (by linarith), abs_of_nonpos (by linarith), max_eq_left (by linarith)]
    ring
  · have hnear : |target - c| ≤ A := abs_le.mpr ⟨not_lt.mp hdown, not_lt.mp hup⟩
    rw [sub_self, abs_zero, max_eq_right (by linarith)]

theorem abs_sub_iterate_toward (hA : 0 ≤ A) (target c : ℚ) (n : ℕ) :
    |target - (toward A target)^[n] c| = max (|target - c| - n * A) 0 := by
  induction n with
  | zero => simp
  | succ n ih =>
    rw [Function.iterate_succ_apply', abs_sub_toward hA, ih]
    push_cast
    rcases le_total (|target - c| - n * A) 0 with h | h
    · rw [max_eq_right h, max_eq_right (by linarith), max_eq_right (by linarith)]
    · rw [max_eq_left h]
      congr 1
      ring

/-- The speed is at its target after `n` periods exactly if `n` steps cover the way there. -/
theorem iterate_toward_eq_iff (hA : 0 ≤ A) (target c : ℚ) (n : ℕ) :
    (toward A target)^[n] c = target ↔ |target - c| ≤ n * A := by
  rw [eq_comm, ← sub_eq_zero, ← abs_eq_zero, abs_sub_iterate_toward hA, max_eq_right_iff,
    sub_nonpos]

theorem toward_brake (hA : 0 < A) (c : ℚ) (k : ℕ) :
    toward A 0 (brake A c k) = brake A c (k + 1) := by
  have hcast : ((k + 1 : ℕ) : ℚ) * A = k * A + A := by push_cast; ring
  unfold toward brake
  rw [hcast]
  rcases le_total (c - k * A) 0 with h | h
  · rw [max_eq_right h, max_eq_right (by linarith)]
    split_ifs <;> linarith
  · rw [max_eq_left h]
    split_ifs with h₁ h₂
    · linarith
    · rw [max_eq_left (by linarith)]
      ring
    · rw [max_eq_right (by linarith)]

/-- A cruise does not go below the smaller of its two speeds. -/
theorem le_cruise (hA : 0 < A) (V : ℚ) (k : ℕ) : min A V ≤ cruise A V k := by
  cases k with
  | zero => exact min_le_left _ _
  | succ k =>
    refine min_le_min ?_ le_rfl
    nlinarith [Nat.cast_nonneg (α := ℚ) k]

theorem toward_cruise (hA : 0 < A) {V : ℚ} (hV : 0 < V) (k : ℕ) :
    toward A V (cruise A V k) = cruise A V (k + 1) := by
  have hstay : toward A V V = V := by
    unfold toward
    split_ifs <;> linarith
  cases k with
  | zero =>
    have hone : cruise A V (0 + 1) = min (2 * A) V := by simp [cruise]
    rw [hone, cruise]
    unfold toward
    split_ifs
    · rw [min_eq_left (by linarith)]
      ring
    · linarith
    · rw [min_eq_right (by linarith)]
  | succ k =>
    have hcast : ((k + 1 : ℕ) : ℚ) + 2 = k + 3 := by push_cast; ring
    rw [cruise, cruise, hcast]
    rcases le_total ((k + 2) * A) V with h | h
    · rw [min_eq_left h]
      unfold toward
      split_ifs
      · rw [min_eq_left (by linarith)]
        ring
      · linarith
      · rw [min_eq_right (by linarith)]
    · rw [min_eq_right h, hstay, min_eq_right (by linarith)]

/-! ## Distance -/

/-- The distance covered in `n` periods of length `1 / F` at the speeds `v 1`, `v 2`, … -/
def travel (F : ℚ) (v : ℕ → ℚ) (n : ℕ) : ℚ := (∑ i ∈ Finset.range n, v (i + 1)) / F

@[simp] theorem travel_zero (F : ℚ) (v : ℕ → ℚ) : travel F v 0 = 0 := by simp [travel]

theorem travel_succ (F : ℚ) (v : ℕ → ℚ) (n : ℕ) :
    travel F v (n + 1) = travel F v n + v (n + 1) / F := by
  simp [travel, Finset.sum_range_succ, add_div]

/-- The distance depends on the speeds up to its end only. -/
theorem travel_congr {F : ℚ} {v w : ℕ → ℚ} {n : ℕ} (h : ∀ i ≤ n, v i = w i) :
    travel F v n = travel F w n := by
  unfold travel
  rw [Finset.sum_congr rfl fun i hi => h (i + 1) (by simpa using hi)]

theorem travel_add (F : ℚ) (v : ℕ → ℚ) (m n : ℕ) :
    travel F v (m + n) = travel F v m + travel F (fun i => v (m + i)) n := by
  simp [travel, Finset.sum_range_add, add_div, add_assoc]

theorem travel_monotone {F : ℚ} (hF : 0 ≤ F) {v : ℕ → ℚ} (hv : ∀ i, 0 ≤ v i) :
    Monotone (travel F v) :=
  monotone_nat_of_le_succ fun n => by
    rw [travel_succ]
    exact le_add_of_nonneg_right (div_nonneg (hv _) hF)

/-- At speeds above a positive bound any distance is covered. -/
theorem exists_le_travel {F : ℚ} (hF : 0 < F) {v : ℕ → ℚ} {c : ℚ} (hc : 0 < c) (hv : ∀ i, c ≤ v i)
    (d : ℚ) : ∃ n, d ≤ travel F v n := by
  obtain ⟨n, hn⟩ := exists_nat_ge (d * F / c)
  refine ⟨n, ?_⟩
  have hsum : n * c ≤ ∑ i ∈ Finset.range n, v (i + 1) := by
    simpa using Finset.card_nsmul_le_sum (Finset.range n) (fun i => v (i + 1)) c fun i _ => hv _
  rw [travel, le_div_iff₀ hF]
  exact ((div_le_iff₀ hc).mp hn).trans hsum

/-! ## Going on until a threshold -/

section Iterate

variable {σ : Type} {f : σ → σ} {x : ℕ → ℚ} {lo θ : ℚ} {Moving : ℕ → σ → Prop}
  {Halted : ℚ → σ → Prop} {s : σ}

/-- An iteration that goes on as long as `x n` is above the threshold, and then halts for good. -/
theorem moving_or_halted (hmove : ∀ n s, Moving n s → θ < x n → Moving (n + 1) (f s))
    (hhalt : ∀ n s, Moving n s → x n ≤ θ → Halted (x n) (f s))
    (hstay : ∀ y s, Halted y s → Halted y (f s)) (hs : Moving 0 s) (n : ℕ) :
    (Moving n (f^[n] s) ∧ ∀ i < n, θ < x i) ∨ ∃ i < n, x i ≤ θ ∧ Halted (x i) (f^[n] s) := by
  induction n with
  | zero => exact .inl ⟨hs, fun i hi => absurd hi (Nat.not_lt_zero i)⟩
  | succ n ih =>
    rw [Function.iterate_succ_apply']
    rcases ih with ⟨hmoving, habove⟩ | ⟨i, hi, hx, hhalted⟩
    · rcases lt_or_ge θ (x n) with h | h
      · refine .inl ⟨hmove n _ hmoving h, fun i hi => ?_⟩
        rcases Nat.lt_succ_iff_lt_or_eq.mp hi with hi | rfl
        · exact habove i hi
        · exact h
      · exact .inr ⟨n, Nat.lt_succ_self n, h, hhalt n _ hmoving h⟩
    · exact .inr ⟨i, hi.trans (Nat.lt_succ_self n), hx, hstay _ _ hhalted⟩

/-- When `x` falls, the iteration halts at a value from `lo` on if and only if some value lies
between `lo` and the threshold. -/
theorem exists_iterate_iff {P : σ → Prop}
    (hmove : ∀ n s, Moving n s → θ < x n → Moving (n + 1) (f s))
    (hhalt : ∀ n s, Moving n s → x n ≤ θ → Halted (x n) (f s))
    (hstay : ∀ y s, Halted y s → Halted y (f s)) (hs : Moving 0 s) (hx : Antitone x)
    (hmoving : ∀ n s, Moving n s → ¬P s) (hhalted : ∀ y s, y ≤ θ → Halted y s → (P s ↔ lo ≤ y)) :
    (∃ n, P (f^[n] s)) ↔ ∃ n, lo ≤ x n ∧ x n ≤ θ := by
  constructor
  · rintro ⟨n, hn⟩
    rcases moving_or_halted hmove hhalt hstay hs n with ⟨h, -⟩ | ⟨i, -, hi, h⟩
    · exact absurd hn (hmoving n _ h)
    · exact ⟨i, (hhalted _ _ hi h).mp hn, hi⟩
  · rintro ⟨n, hlo, hθ⟩
    rcases moving_or_halted hmove hhalt hstay hs (n + 1) with ⟨-, h⟩ | ⟨i, hi, hxi, h⟩
    · exact absurd hθ (not_le.mpr (h n (Nat.lt_succ_self n)))
    · exact ⟨n + 1, (hhalted _ _ hxi h).mpr (hlo.trans (hx (Nat.lt_succ_iff.mp hi)))⟩

end Iterate

end Ramp
