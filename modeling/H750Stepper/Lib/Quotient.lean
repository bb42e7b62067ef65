import Mathlib.Order.Bounds.Basic
import Mathlib.Tactic

/-!
# The least divisor with a small quotient

A counter of limited width divides a clock in two stages: a divisor `k`, then the quotient `n / k`,
which must not exceed `m`. With the least such divisor the quotient uses at least half of the range
(`Least.half_le`), and the product `k * (n / k)`, which is what the two stages make of `n`, grows
with `n` (`Least.mul_div_mono`): where the divisor grows, it has lost less than the quotient gains.
-/

namespace Quotient

/-- `k` is the least divisor that brings `n` down to `m`. -/
def Least (m n k : ℕ) : Prop := IsLeast {k | 0 < k ∧ n / k ≤ m} k

variable {m n k : ℕ}

theorem exists_least (m n : ℕ) : ∃ k, Least m n k := by
  have hsome : ∃ k, 0 < k ∧ n / k ≤ m := by
    refine ⟨n + 1, n.succ_pos, ?_⟩
    rw [Nat.div_eq_of_lt n.lt_succ_self]
    exact m.zero_le
  exact ⟨Nat.find hsome, Nat.find_spec hsome, fun _ h => Nat.find_min' hsome h⟩

namespace Least

theorem pos (h : Least m n k) : 0 < k := h.1.1

theorem div_le (h : Least m n k) : n / k ≤ m := h.1.2

theorem le_of_div_le (h : Least m n k) {j : ℕ} (hj : 0 < j) (hdiv : n / j ≤ m) : k ≤ j :=
  h.2 ⟨hj, hdiv⟩

/-- A smaller divisor leaves a quotient above `m`. -/
theorem lt_div (h : Least m n k) {j : ℕ} (hj : 0 < j) (hlt : j < k) : m < n / j := by
  by_contra hdiv
  exact absurd (h.le_of_div_le hj (not_lt.mp hdiv)) (not_le.mpr hlt)

theorem pred_mul_le (h : Least m n k) : (m + 1) * (k - 1) ≤ n := by
  by_cases hk : k = 1
  · rw [hk]
    exact n.zero_le
  · have hpos := h.pos
    have hdiv : m + 1 ≤ n / (k - 1) := h.lt_div (by omega) (by omega)
    exact (Nat.le_div_iff_mul_le (by omega)).mp hdiv

/-- A divisor that does something leaves a quotient of at least half the range. -/
theorem half_le (h : Least m n k) (hk : 1 < k) : (m + 1) / 2 ≤ n / k := by
  rw [Nat.le_div_iff_mul_le h.pos]
  calc (m + 1) / 2 * k ≤ (m + 1) / 2 * (2 * (k - 1)) := Nat.mul_le_mul_left _ (by omega)
    _ = (m + 1) / 2 * 2 * (k - 1) := (Nat.mul_assoc _ _ _).symm
    _ ≤ (m + 1) * (k - 1) := Nat.mul_le_mul_right _ (Nat.div_mul_le_self _ _)
    _ ≤ n := h.pred_mul_le

/-- More needs no smaller divisor. -/
theorem mono {n₁ n₂ k₁ k₂ : ℕ} (h₁ : Least m n₁ k₁) (h₂ : Least m n₂ k₂) (hn : n₂ ≤ n₁) :
    k₂ ≤ k₁ := h₂.le_of_div_le h₁.pos ((Nat.div_le_div_right hn).trans h₁.div_le)

/-- What the two stages make of `n` grows with `n`. -/
theorem mul_div_mono {n₁ n₂ k₁ k₂ : ℕ} (h₁ : Least m n₁ k₁) (h₂ : Least m n₂ k₂) (hn : n₂ ≤ n₁) :
    k₂ * (n₂ / k₂) ≤ k₁ * (n₁ / k₁) := by
  by_cases heq : k₂ = k₁
  · subst heq
    exact Nat.mul_le_mul_left _ (Nat.div_le_div_right hn)
  · have hlt : k₂ ≤ k₁ - 1 := by
      have hle := h₁.mono h₂ hn
      omega
    -- The larger divisor loses less than `k₁`, and `n₁` has one more of `k₁ - 1` than `m` of them.
    have hlost : n₁ < k₁ * (n₁ / k₁) + k₁ := Nat.lt_mul_div_succ n₁ h₁.pos
    have hlarge : m * (k₁ - 1) + (k₁ - 1) ≤ n₁ := by
      rw [← Nat.succ_mul]
      exact h₁.pred_mul_le
    have hsmall : k₂ * (n₂ / k₂) ≤ m * (k₁ - 1) := by
      rw [Nat.mul_comm m]
      exact Nat.mul_le_mul hlt h₂.div_le
    omega

end Least

end Quotient
