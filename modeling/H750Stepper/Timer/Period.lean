import H750Stepper.Lib.Dip
import H750Stepper.Timer.Hwtimer

/-!
# The control period

What a controller asks of its timer, and what it gets. `timeout_calc` divides the period by growing
numbers until one leaves a count that fits the counter, then goes on as long as the rounding error
does not grow: so it stops at the first dip of the computed error (`timeoutLoop_search`). The
interrupt counts the overflows down, so `rx_indicate` is called at every multiple of the product of
count and divisor (`TimerDev.At.indications`).

`control_rate`: the period of the calls for every period up to a second. The calls come too early by
at most a microsecond for each 65535 of the period, and never late. The errors of the arithmetic on
`float` add up to less than a count (`Near`), and what they are compared with is whole.
-/

namespace H750Stepper

open CInt Periodic Dip Rounding

/-! ## The search for a divisor -/

section Search

variable {X a k n : ℕ} {T : ℚ}

theorem binary32_natCast {n : ℕ} (h : n < 2 ^ 24) : binary32 n = n := fl_natCast h

/-- A rounding more. -/
theorem near_binary32 {m : ℕ} {x y : ℚ} (h : Near 24 m x y) : Near 24 (m + 1) (binary32 x) y :=
  h.fl (by norm_num)

theorem ratio_pow_le : ratio 24 ^ 4 ≤ 1 + 1 / 4194000 := by
  norm_num [ratio]

theorem ratio_sq_le : ratio 24 ^ 2 ≤ 1 + 1 / 8388000 := by
  norm_num [ratio]

theorem abs_binary32_sub_le (x : ℚ) : |binary32 x - x| ≤ |x| / 16777216 := by
  have h := abs_fl_sub_le 24 x
  norm_num at h
  exact h

/-- The count that a divisor leaves. -/
def divisorCount (T : ℚ) (k : ℕ) : ℕ := toUInt32 (binary32 (binary32 (T / binary32 k) * 1000000))

/-- The time that count and divisor make together. -/
def divisorTime (T : ℚ) (k : ℕ) : ℚ :=
  binary32 (binary32 (binary32 (divisorCount T k) / 1000000) * binary32 k)

/-- The deviation of a divisor. -/
def divisorDevi (T : ℚ) (k : ℕ) : ℚ := binary32 (T - divisorTime T k)

/-- The timeout of a divisor fits the counter. -/
def DivisorFits (T : ℚ) (k : ℕ) : Prop := binary32 (T / binary32 k) ≤ binary32 (65535 / 1000000)

/-- A period of `X` microseconds, in seconds, as the timer is given it. -/
structure Seconds (X : ℕ) (T : ℚ) : Prop where
  near : Near 24 2 T (X / 1000000)
  two_le : 2 ≤ X
  le_second : X ≤ 1000000

namespace Seconds

theorem quotNear (h : Seconds X T) (hk : k < 2 ^ 24) :
    Near 24 3 (binary32 (T / binary32 k)) (X / 1000000 / k) := by
  rw [binary32_natCast hk]
  exact near_binary32 (h.near.div k.cast_nonneg)

theorem countNear (h : Seconds X T) (hk : k < 2 ^ 24) :
    Near 24 4 (binary32 (binary32 (T / binary32 k) * 1000000)) (X / k) := by
  have hprod := near_binary32 <|
    (h.quotNear hk).mul (by norm_num) (.refl (by norm_num : (0 : ℚ) ≤ 1000000))
  have hcancel : (X : ℚ) / 1000000 / k * 1000000 = X / k := by ring
  rwa [hcancel] at hprod

/-- Count and divisor make no more than the period, and less by at most the divisor. -/
theorem count_bounds (h : Seconds X T) (hk0 : 0 < k) (hk : k < 2 ^ 24) :
    k * divisorCount T k ≤ X ∧ X ≤ k * divisorCount T k + k := by
  have hnear := h.countNear hk
  set y := binary32 (binary32 (T / binary32 k) * 1000000)
  have hk0' : (0 : ℚ) < k := Nat.cast_pos.mpr hk0
  have hone : (1 : ℚ) ≤ k := Nat.one_le_cast.mpr hk0
  have hX : (X : ℚ) ≤ 1000000 := by exact_mod_cast h.le_second
  have hcancel : (k : ℚ) * (X / k) = X := mul_div_cancel₀ _ hk0'.ne'
  have hquot : (X : ℚ) / k ≤ 1000000 := (div_le_self X.cast_nonneg hone).trans hX
  have hle : y ≤ (1 + 1 / 4194000) * (X / k) :=
    hnear.le.trans (mul_le_mul_of_nonneg_right ratio_pow_le hnear.right)
  have hge : (X : ℚ) / k ≤ (1 + 1 / 4194000) * y :=
    hnear.ge.trans (mul_le_mul_of_nonneg_right ratio_pow_le hnear.left)
  have hcount : (divisorCount T k : ℚ) ≤ y := toUInt32_le hnear.left
  have hcount' : y < divisorCount T k + 1 := lt_toUInt32_add_one hnear.left (by linarith)
  constructor
  · have hprod : (k : ℚ) * divisorCount T k < X + 1 := by
      calc (k : ℚ) * divisorCount T k ≤ k * ((1 + 1 / 4194000) * (X / k)) :=
            mul_le_mul_of_nonneg_left (hcount.trans hle) hk0'.le
        _ = (1 + 1 / 4194000) * (k * (X / k)) := by ring
        _ < X + 1 := by rw [hcancel]; linarith
    have hprod' : k * divisorCount T k < X + 1 := by exact_mod_cast hprod
    omega
  · have hexcess : (X : ℚ) / k * (1 - 1 / 4194000) ≤ y := by linarith
    have hprod : (X : ℚ) < k * divisorCount T k + k + 1 := by
      calc (X : ℚ) < X * (1 - 1 / 4194000) + 1 := by linarith
        _ = k * (X / k * (1 - 1 / 4194000)) + 1 := by rw [← mul_assoc, hcancel]
        _ ≤ k * (divisorCount T k + 1) + 1 := by
            gcongr
            exact hexcess.trans hcount'.le
        _ = k * divisorCount T k + k + 1 := by ring
    have hprod' : X < k * divisorCount T k + k + 1 := by exact_mod_cast hprod
    omega

theorem timeNear (h : Seconds X T) (hk0 : 0 < k) (hk : k < 2 ^ 24) :
    Near 24 2 (divisorTime T k) ((k * divisorCount T k : ℕ) / 1000000) := by
  have hbound := (h.count_bounds hk0 hk).1
  have hcount : divisorCount T k < 2 ^ 24 := by
    have hle : divisorCount T k ≤ k * divisorCount T k := Nat.le_mul_of_pos_left _ hk0
    have hX := h.le_second
    omega
  have hquot : Near 24 1 (binary32 ((divisorCount T k : ℚ) / 1000000))
      ((divisorCount T k : ℚ) / 1000000) :=
    near_binary32 ((Near.refl (Nat.cast_nonneg _)).div (by norm_num))
  have hprod := near_binary32 (hquot.mul (by norm_num) (.refl (k.cast_nonneg : (0 : ℚ) ≤ k)))
  unfold divisorTime
  rw [binary32_natCast hcount, binary32_natCast hk]
  have hcomm : (divisorCount T k : ℚ) / 1000000 * k = (k * divisorCount T k : ℕ) / 1000000 := by
    push_cast
    ring
  rwa [hcomm] at hprod

/-- The deviation is the difference, but for a small part of the period. -/
theorem devi_bounds (h : Seconds X T) (hk0 : 0 < k) (hk : k < 2 ^ 24) :
    |divisorDevi T k * 1000000 - (X - (k * divisorCount T k : ℕ))| ≤ X / 3000000 := by
  have htime := h.timeNear hk0 hk
  have hcount : ((k * divisorCount T k : ℕ) : ℚ) ≤ X := Nat.cast_le.mpr (h.count_bounds hk0 hk).1
  set Q : ℚ := ((k * divisorCount T k : ℕ) : ℚ)
  have hT : T ≤ (1 + 1 / 8388000) * (X / 1000000) :=
    h.near.le.trans (mul_le_mul_of_nonneg_right ratio_sq_le h.near.right)
  have hT' : (X : ℚ) / 1000000 ≤ (1 + 1 / 8388000) * T :=
    h.near.ge.trans (mul_le_mul_of_nonneg_right ratio_sq_le h.near.left)
  have hP : divisorTime T k ≤ (1 + 1 / 8388000) * (Q / 1000000) :=
    htime.le.trans (mul_le_mul_of_nonneg_right ratio_sq_le htime.right)
  have hP' : Q / 1000000 ≤ (1 + 1 / 8388000) * divisorTime T k :=
    htime.ge.trans (mul_le_mul_of_nonneg_right ratio_sq_le htime.left)
  have hTnonneg := h.near.left
  have hPnonneg := htime.left
  have hdiff : |T - divisorTime T k| ≤ (1 + 1 / 8388000) * (X / 1000000) := by
    rw [abs_le]
    constructor <;> linarith
  obtain ⟨hlo, hhi⟩ := abs_le.mp (abs_binary32_sub_le (T - divisorTime T k))
  rw [abs_le]
  unfold divisorDevi
  constructor <;> linarith

/-- A divisor with no larger deviation makes no less of the period. -/
theorem count_mono (h : Seconds X T) (ha0 : 0 < a) (ha : a < 2 ^ 24) (hk0 : 0 < k)
    (hk : k < 2 ^ 24) (hle : divisorDevi T k ≤ divisorDevi T a) :
    a * divisorCount T a ≤ k * divisorCount T k := by
  obtain ⟨hlo, hhi⟩ := abs_le.mp (h.devi_bounds hk0 hk)
  obtain ⟨hlo', hhi'⟩ := abs_le.mp (h.devi_bounds ha0 ha)
  have hX : (X : ℚ) ≤ 1000000 := by exact_mod_cast h.le_second
  have hlt : ((a * divisorCount T a : ℕ) : ℚ) < (k * divisorCount T k : ℕ) + 1 := by linarith
  have hlt' : a * divisorCount T a < k * divisorCount T k + 1 := by exact_mod_cast hlt
  omega

theorem pos (h : Seconds X T) : 0 < (X : ℚ) := by
  have htwo := h.two_le
  exact_mod_cast (by omega : 0 < X)

/-- A divisor of at most half the period has a deviation below a second. -/
theorem devi_lt_one (h : Seconds X T) (ha0 : 0 < a) (ha : 2 * a ≤ X) : divisorDevi T a < 1 := by
  have hsecond := h.le_second
  obtain ⟨hlo, hhi⟩ := abs_le.mp (h.devi_bounds ha0 (by omega))
  have hcount : (X : ℚ) ≤ (a * divisorCount T a : ℕ) + a := by
    exact_mod_cast (h.count_bounds ha0 (by omega)).2
  have ha' : (2 * a : ℚ) ≤ X := by exact_mod_cast ha
  have hX : (X : ℚ) ≤ 1000000 := by exact_mod_cast hsecond
  linarith

/-- A divisor beyond the period leaves no count. -/
theorem count_far (h : Seconds X T) : divisorCount T (2 * X + 2) = 0 := by
  have hsecond := h.le_second
  have hle := (h.count_bounds (by omega) (by omega : 2 * X + 2 < 2 ^ 24)).1
  by_contra hne
  have hmul : (2 * X + 2) * 1 ≤ (2 * X + 2) * divisorCount T (2 * X + 2) :=
    Nat.mul_le_mul_left _ (Nat.one_le_iff_ne_zero.mpr hne)
  omega

/-- There the deviation is larger than that of a divisor of at most half the period. -/
theorem devi_rises (h : Seconds X T) (ha0 : 0 < a) (ha : 2 * a ≤ X) :
    divisorDevi T a < divisorDevi T (2 * X + 2) := by
  have hsecond := h.le_second
  obtain ⟨hlo, hhi⟩ := abs_le.mp (h.devi_bounds ha0 (by omega))
  obtain ⟨hlo', hhi'⟩ := abs_le.mp (h.devi_bounds (k := 2 * X + 2) (by omega) (by omega))
  have hcount : (X : ℚ) ≤ (a * divisorCount T a : ℕ) + a := by
    exact_mod_cast (h.count_bounds ha0 (by omega)).2
  have ha' : (2 * a : ℚ) ≤ X := by exact_mod_cast ha
  have hpos := h.pos
  rw [h.count_far, mul_zero, Nat.cast_zero] at hlo'
  linarith

/-! Which divisors fit. -/

/-- The first number above the quotient by the largest count fits. -/
theorem fits_above (h : Seconds X T) : DivisorFits T (X / 65535 + 1) := by
  have hsecond := h.le_second
  have hquot := h.quotNear (k := X / 65535 + 1) (by omega)
  have hover : Near 24 1 (binary32 (65535 / 1000000)) (65535 / 1000000) :=
    near_binary32 (.refl (by norm_num))
  set b := X / 65535 + 1 with hb
  have hb' : (1 : ℚ) ≤ b ∧ (b : ℚ) ≤ 16 := by
    constructor
    · exact_mod_cast (by omega : 1 ≤ b)
    · exact_mod_cast (by omega : b ≤ 16)
  have hX : (X : ℚ) + 1 ≤ 65535 * b := by exact_mod_cast (by omega : X + 1 ≤ 65535 * b)
  have hdiv : (X : ℚ) / 1000000 / b ≤ (65535 - 1 / 16) / 1000000 := by
    rw [div_div, div_le_div_iff₀ (by linarith) (by norm_num)]
    linarith
  have hratio : ratio 24 ^ 3 ≤ 1 + 1 / 5592000 := by norm_num [ratio]
  have hratio' : ratio 24 ^ 1 ≤ 1 + 1 / 16777000 := by norm_num [ratio]
  have hle : binary32 (T / binary32 b) ≤ (1 + 1 / 5592000) * (X / 1000000 / b) :=
    hquot.le.trans (mul_le_mul_of_nonneg_right hratio hquot.right)
  have hge : (65535 / 1000000 : ℚ) ≤ (1 + 1 / 16777000) * binary32 (65535 / 1000000) :=
    hover.ge.trans (mul_le_mul_of_nonneg_right hratio' hover.left)
  unfold DivisorFits
  linarith

theorem fits_succ (h : Seconds X T) {j : ℕ} (ha0 : 0 < a) (ha : a ≤ 16) (hfits : DivisorFits T a)
    (haj : a < j) : DivisorFits T j := by
  have hT := h.near.left
  have ha0' : (0 : ℚ) < a := Nat.cast_pos.mpr ha0
  have ha' : (a : ℚ) ≤ 16 := by exact_mod_cast ha
  have hj : (a : ℚ) + 1 ≤ j := by exact_mod_cast haj
  have hround := (abs_le.mp (abs_binary32_sub_le (j : ℚ))).1
  rw [Nat.abs_cast] at hround
  have hden : (a : ℚ) * (33 / 32) ≤ binary32 j := by linarith
  have hquot : T / binary32 j ≤ T / a * (32 / 33) := by
    rw [div_mul_div_comm, div_le_div_iff₀ (by linarith) (by linarith)]
    nlinarith
  have hnonneg : 0 ≤ T / binary32 j := div_nonneg hT (by linarith)
  have hnonneg' : 0 ≤ T / a := div_nonneg hT ha0'.le
  have hle := (abs_le.mp (abs_binary32_sub_le (T / binary32 j))).2
  have hge := (abs_le.mp (abs_binary32_sub_le (T / a))).1
  rw [abs_of_nonneg hnonneg] at hle
  rw [abs_of_nonneg hnonneg'] at hge
  unfold DivisorFits at hfits ⊢
  rw [binary32_natCast (by omega)] at hfits
  linarith

/-- What fits leaves a count of 16 bits. -/
theorem count_le (h : Seconds X T) (hk : k < 2 ^ 24) (hfits : DivisorFits T k) :
    divisorCount T k ≤ 65535 := by
  have hquot := (h.quotNear hk).left
  have hover : Near 24 1 (binary32 (65535 / 1000000)) (65535 / 1000000) :=
    near_binary32 (.refl (by norm_num))
  have hmul := (near_binary32 (.refl (mul_nonneg hquot (by norm_num : (0 : ℚ) ≤ 1000000))))
  have hratio : ratio 24 ^ 1 ≤ 1 + 1 / 16777000 := by norm_num [ratio]
  have hle := hover.le.trans (mul_le_mul_of_nonneg_right hratio hover.right)
  have hle' := hmul.le.trans (mul_le_mul_of_nonneg_right hratio hmul.right)
  have hcount : (divisorCount T k : ℚ) ≤
      binary32 (binary32 (T / binary32 k) * 1000000) := toUInt32_le hmul.left
  unfold DivisorFits at hfits
  have hlt : (divisorCount T k : ℚ) < 65536 := by linarith
  have hlt' : divisorCount T k < 65536 := by exact_mod_cast hlt
  omega

/-- The divisors that fit are those from some number on. -/
theorem exists_first (h : Seconds X T) : ∃ a, 0 < a ∧ a ≤ X / 65535 + 1 ∧ 2 * a ≤ X ∧
    (∀ j, a ≤ j → DivisorFits T j) ∧ ∀ j, 0 < j → j < a → ¬DivisorFits T j := by
  classical
  have hex : ∃ a, 0 < a ∧ DivisorFits T a := ⟨X / 65535 + 1, by omega, h.fits_above⟩
  have hspec := Nat.find_spec hex
  have hmin : Nat.find hex ≤ X / 65535 + 1 := Nat.find_min' hex ⟨by omega, h.fits_above⟩
  have htwo := h.two_le
  have hsecond := h.le_second
  refine ⟨Nat.find hex, hspec.1, hmin, by omega, fun j hj => ?_, fun j hj0 hj hfits => ?_⟩
  · rcases hj.eq_or_lt with rfl | hlt
    · exact hspec.2
    · exact h.fits_succ hspec.1 (by omega) hspec.2 hlt
  · exact Nat.find_min hex hj ⟨hj0, hfits⟩

end Seconds

/-! The loop. -/

/-- One round for a divisor that fits. -/
theorem timeoutLoop_succ {i index : ℕ} {deviMin : ℚ} (hfits : DivisorFits T i) :
    timeoutLoop T (binary32 (65535 / 1000000)) 1000000 (n + 1) i index deviMin =
      if divisorDevi T i > deviMin then
        if index = 0 then none else some (index, binary32 (T / binary32 index))
      else if divisorDevi T i = 0 then some (i, binary32 (T / binary32 i))
      else if divisorDevi T i < deviMin then
        timeoutLoop T (binary32 (65535 / 1000000)) 1000000 n (i + 1) i (divisorDevi T i)
      else timeoutLoop T (binary32 (65535 / 1000000)) 1000000 n (i + 1) index deviMin := by
  have hfreq : binary32 ((1000000 : ℤ) : ℚ) = 1000000 :=
    binary32_natCast (n := 1000000) (by norm_num)
  have hfits' : binary32 (T / binary32 i) ≤ binary32 (65535 / 1000000) := hfits
  conv_lhs => rw [timeoutLoop]
  dsimp only
  rw [hfreq, if_pos hfits']
  rfl

/-- From a divisor that fits on, the loop is the search for a dip of the deviation. -/
theorem timeoutLoop_search {i index : ℕ} (hi : 0 < i) (hindex : 0 < index)
    (hfits : ∀ j, i ≤ j → DivisorFits T j) :
    timeoutLoop T (binary32 (65535 / 1000000)) 1000000 n i index (divisorDevi T index) =
      (search (divisorDevi T) (· = 0) n i index).map
        fun k : ℕ => (k, binary32 (T / binary32 k)) := by
  induction n generalizing i index with
  | zero => rfl
  | succ n ih =>
    have hnext : ∀ j, i + 1 ≤ j → DivisorFits T j := fun j hj => hfits j (by omega)
    rw [timeoutLoop_succ (hfits i le_rfl), search, ih i.succ_pos hindex hnext,
      ih i.succ_pos hi hnext, if_neg hindex.ne']
    simp only [gt_iff_lt]
    split_ifs <;> rfl

/-- The first divisor that fits is the best so far, since `devi_min` is a second. -/
theorem timeoutLoop_first (ha0 : 0 < a) (hfits : ∀ j, a ≤ j → DivisorFits T j)
    (hsmall : divisorDevi T a < 1) :
    timeoutLoop T (binary32 (65535 / 1000000)) 1000000 (n + 1) a 0 1 =
      (search (divisorDevi T) (· = 0) (n + 1) a a).map
        fun k : ℕ => (k, binary32 (T / binary32 k)) := by
  have hnext : ∀ j, a + 1 ≤ j → DivisorFits T j := fun j hj => hfits j (by omega)
  rw [timeoutLoop_succ (hfits a le_rfl), if_neg (not_lt.mpr hsmall.le), if_pos hsmall,
    timeoutLoop_search a.succ_pos ha0 hnext, search, if_neg (lt_irrefl _), if_neg (lt_irrefl _)]
  split_ifs <;> rfl

/-- The divisors that leave too large a count are passed over. -/
theorem timeoutLoop_skip (hk : k < a) (hbig : ∀ j, 0 < j → j < a → ¬DivisorFits T j) :
    timeoutLoop T (binary32 (65535 / 1000000)) 1000000 (n + k) (a - k) 0 1 =
      timeoutLoop T (binary32 (65535 / 1000000)) 1000000 n a 0 1 := by
  induction k with
  | zero => rfl
  | succ k ih =>
    have hover : ¬binary32 (T / binary32 (a - (k + 1) : ℕ)) ≤ binary32 (65535 / 1000000) :=
      hbig _ (by omega) (by omega)
    rw [← ih (by omega)]
    show timeoutLoop _ _ _ (n + k + 1) _ _ _ = _
    conv_lhs => rw [timeoutLoop]
    dsimp only
    rw [if_neg hover]
    congr 1
    omega

/-- The loop ends with a divisor that makes at most the period, and no less than the first one that
fits. -/
theorem Seconds.loop_ends (h : Seconds X T) : ∃ k : ℕ, 0 < k ∧
    timeoutLoop T (binary32 (65535 / 1000000)) 1000000 (2 ^ 31 - 1) 1 0 1 =
      some (k, binary32 (T / binary32 k)) ∧ k < 2 ^ 24 ∧ DivisorFits T k ∧
    X ≤ k * divisorCount T k + (X / 65535 + 1) := by
  have hsecond := h.le_second
  obtain ⟨a, ha0, hle, hhalf, hfits, hbig⟩ := h.exists_first
  obtain ⟨k, hk, hdip, hlt⟩ := exists_search (n := 2 ^ 31 - 1 - a) (p := fun x : ℚ => x = 0)
    (by omega) (by omega) (h.devi_rises ha0 hhalf)
  have hak := hdip.le
  have hmono := h.count_mono ha0 (by omega) (by omega) (by omega) hdip.le_first
  have hcount := (h.count_bounds ha0 (by omega)).2
  refine ⟨k, by omega, ?_, by omega, hfits k hak, by omega⟩
  have hskip := timeoutLoop_skip (n := 2 ^ 31 - 1 - a + 1) (k := a - 1) (by omega) hbig
  rw [show 2 ^ 31 - 1 - a + 1 + (a - 1) = 2 ^ 31 - 1 by omega,
    show a - (a - 1) = 1 by omega] at hskip
  rw [hskip, timeoutLoop_first ha0 hfits (h.devi_lt_one ha0 hhalf), hk]
  rfl

theorem seconds_of_usec (htwo : 2 ≤ X) (hsecond : X ≤ 1000000) :
    Seconds X (binary32 (binary32 (X / 1000000 : ℕ) +
      binary32 (binary32 (X % 1000000 : ℕ) / 1000000))) := by
  refine ⟨?_, htwo, hsecond⟩
  have husec : X % 1000000 < 2 ^ 24 := (Nat.mod_lt X (by norm_num)).trans (by norm_num)
  have hfrac : Near 24 1 (binary32 ((X % 1000000 : ℕ) / 1000000))
      ((X % 1000000 : ℕ) / 1000000) :=
    near_binary32 ((Near.refl (Nat.cast_nonneg _)).div (by norm_num))
  have hsum := near_binary32 <|
    (near_binary32 (.refl (Nat.cast_nonneg (X / 1000000)))).add hfrac
  have hX : ((X / 1000000 : ℕ) : ℚ) + (X % 1000000 : ℕ) / 1000000 = X / 1000000 := by
    have hsplit : (1000000 : ℚ) * (X / 1000000 : ℕ) + (X % 1000000 : ℕ) = X := by
      exact_mod_cast Nat.div_add_mod X 1000000
    linarith
  rwa [hX, ← binary32_natCast husec] at hsum

/-- **`timeout_calc`** for a period up to a second. -/
theorem timeoutCalc_usec {t : Hwtimer} (hfreq : t.freq = 1000000) (hmaxcnt : t.info.maxcnt = 65535)
    (htwo : 2 ≤ X) (hsecond : X ≤ 1000000) : ∃ (k count : ℕ) (periodSec : ℚ),
      t.timeoutCalc ⟨(X / 1000000 : ℕ), (X % 1000000 : ℕ)⟩ =
        some (count, { t with cycles := k, reload := k, periodSec }) ∧
      0 < count ∧ count ≤ 65535 ∧ 0 < k ∧
      k * count ≤ X ∧ X ≤ k * count + (X / 65535 + 1) := by
  have h := seconds_of_usec htwo hsecond
  set T := binary32 (binary32 (X / 1000000 : ℕ) + binary32 (binary32 (X % 1000000 : ℕ) / 1000000))
    with hT
  obtain ⟨k, hk0, hloop, hk, hfits, hmin⟩ := h.loop_ends
  have hcount := (h.count_bounds hk0 hk).1
  refine ⟨k, divisorCount T k, binary32 (T / binary32 k), ?_, ?_, ?_, hk0, hcount, hmin⟩
  · have hmax : binary32 ((65535 : ℕ) : ℚ) = 65535 := binary32_natCast (by norm_num)
    have hfreq' : binary32 ((1000000 : ℤ) : ℚ) = 1000000 :=
      binary32_natCast (n := 1000000) (by norm_num)
    have htick : ¬T < binary32 (1 / 1000000) := by
      have hone := near_binary32 (.refl (by norm_num : (0 : ℚ) ≤ 1 / 1000000))
      have hX : (2 : ℚ) ≤ X := by exact_mod_cast htwo
      have hratio : ratio 24 ^ 1 ≤ 3 / 2 := by norm_num [ratio]
      have hle := hone.le.trans (mul_le_mul_of_nonneg_right hratio hone.right)
      have hge := h.near.ge.trans (mul_le_mul_of_nonneg_right ratio_sq_le h.near.left)
      linarith
    unfold Hwtimer.timeoutCalc
    dsimp only
    rw [hfreq, hmaxcnt, hmax, hfreq', Int.cast_natCast, Int.cast_natCast, ← hT, if_neg htick,
      hloop]
    rfl
  · rcases Nat.eq_zero_or_pos (divisorCount T k) with hzero | hpos
    · rw [hzero, mul_zero] at hmin
      omega
    · exact hpos
  · exact h.count_le hk hfits

end Search

/-! ## The interrupts -/

namespace TimerDev

/-- A timer in period mode, `n` clock edges after it was started: `reload` overflows make a call. -/
structure At (psc arr reload n : ℕ) (d : TimerDev) : Prop where
  cen : d.tim.cen = true
  opm : d.tim.opm = false
  mode : d.hw.mode = .period
  psc_eq : d.tim.psc = psc
  arr_eq : d.tim.arr = arr
  count : d.tim.count = .after psc arr n
  reload_eq : d.hw.reload = reload
  cycles : d.hw.cycles = reload - (n / ((psc + 1) * (arr + 1)) % reload : ℕ)

variable {psc arr reload n : ℕ} {d : TimerDev}

/-- The counter overflows at the end of each period. -/
theorem At.overflows_iff (h : d.At psc arr reload n) :
    (d.tim.count.pre = d.tim.psc ∧ d.tim.count.cnt = d.tim.arr) ↔
      (n + 1) % ((psc + 1) * (arr + 1)) = 0 := by
  have hreach : (Counter.after psc arr n).Reaches psc arr 0 ↔
      (n + 1) % ((psc + 1) * (arr + 1)) = 0 := Counter.reaches_after n
  rw [← hreach, h.count, h.psc_eq, h.arr_eq]
  refine and_congr_right fun hpre => ?_
  unfold Counter.edge
  rw [if_pos hpre]
  by_cases hcnt : (Counter.after psc arr n).cnt = arr
  · simp [hcnt]
  · simp [hcnt]

/-- The interrupt counts the overflows down. -/
theorem rtDeviceHwtimerIsr_period (hmode : d.hw.mode = .period) {u : ℕ} (hreload : 0 < reload)
    (hreload_eq : d.hw.reload = reload) (hcycles : d.hw.cycles = reload - (u % reload : ℕ)) :
    ∃ overflow, d.rtDeviceHwtimerIsr =
      ({ d with hw := { d.hw with overflow, cycles := reload - ((u + 1) % reload : ℕ) } },
        decide ((u + 1) % reload = 0)) := by
  have hlt := Nat.mod_lt u hreload
  have hne : d.hw.cycles ≠ 0 := by omega
  refine ⟨wrap 32 (d.hw.overflow + 1), ?_⟩
  obtain ⟨k, rfl⟩ := Nat.exists_eq_add_one.mpr hreload
  unfold rtDeviceHwtimerIsr
  dsimp only
  rw [if_pos hne]
  by_cases hlast : u % (k + 1) = k
  · have hmod := (Counter.succ_div_mod_of_eq hlast).2
    have hzero : d.hw.cycles - 1 = 0 := by omega
    simp [hzero, hmod, hmode, hreload_eq]
  · have hmod := (Counter.succ_div_mod_of_ne hlast).2
    have hcycles' : d.hw.cycles - 1 = ((k + 1 : ℕ) : ℤ) - (u % (k + 1) + 1 : ℕ) := by omega
    have hpos : ((k + 1 : ℕ) : ℤ) - (u % (k + 1) + 1 : ℕ) ≠ 0 := by omega
    rw [hcycles', hmod, if_neg hpos]
    simp

/-- An edge, and whether it calls `rx_indicate`. -/
theorem At.clockEdge (h : d.At psc arr reload n) (hreload : 0 < reload) :
    d.clockEdge.1.At psc arr reload (n + 1) ∧
      (d.clockEdge.2 = true ↔ (n + 1) % ((psc + 1) * (arr + 1) * reload) = 0) := by
  have hcount : d.tim.count.edge d.tim.psc d.tim.arr = .after psc arr (n + 1) := by
    rw [h.count, h.psc_eq, h.arr_eq, Counter.edge_after]
  have hperiod : (n + 1) % ((psc + 1) * (arr + 1) * reload) = 0 ↔
      (n + 1) % ((psc + 1) * (arr + 1)) = 0 ∧ (n + 1) / ((psc + 1) * (arr + 1)) % reload = 0 := by
    rw [Nat.mod_mul]
    simp
  unfold TimerDev.clockEdge
  rw [if_pos h.cen, hperiod]
  dsimp only
  by_cases hover : (n + 1) % ((psc + 1) * (arr + 1)) = 0
  · have hdiv : (n + 1) / ((psc + 1) * (arr + 1)) = n / ((psc + 1) * (arr + 1)) + 1 :=
      Nat.succ_div_of_dvd (Nat.dvd_of_mod_eq_zero hover)
    rw [if_pos (h.overflows_iff.mpr hover)]
    obtain ⟨overflow, hisr⟩ := rtDeviceHwtimerIsr_period (d := { d with
      tim.count := d.tim.count.edge d.tim.psc d.tim.arr, tim.cen := !d.tim.opm })
      h.mode hreload h.reload_eq h.cycles
    rw [hisr, hdiv]
    refine ⟨⟨?_, h.opm, h.mode, h.psc_eq, h.arr_eq, hcount, h.reload_eq, ?_⟩, ?_⟩
    · simp [h.opm]
    · rw [hdiv]
    · simp [hover]
  · have hdiv : (n + 1) / ((psc + 1) * (arr + 1)) = n / ((psc + 1) * (arr + 1)) :=
      Nat.succ_div_of_not_dvd fun hd => hover (Nat.mod_eq_zero_of_dvd hd)
    rw [if_neg (mt h.overflows_iff.mp hover)]
    refine ⟨⟨h.cen, h.opm, h.mode, h.psc_eq, h.arr_eq, hcount, h.reload_eq, ?_⟩, ?_⟩
    · rw [hdiv]
      exact h.cycles
    · simp [hover]

/-- The calls in `m` edges. -/
theorem At.indications (h : d.At psc arr reload n) (hreload : 0 < reload) (m : ℕ) :
    d.indications m + n / ((psc + 1) * (arr + 1) * reload) =
      (n + m) / ((psc + 1) * (arr + 1) * reload) := by
  induction m generalizing d n with
  | zero => simp [TimerDev.indications]
  | succ m ih =>
    obtain ⟨hnext, hcall⟩ := h.clockEdge hreload
    have hrest := ih hnext
    rw [Nat.add_right_comm] at hrest
    show (if d.clockEdge.2 then 1 else 0) + d.clockEdge.1.indications m + _ = _
    rw [← Nat.add_assoc, ← hrest]
    by_cases hc : d.clockEdge.2 = true
    · rw [if_pos hc, Nat.succ_div_of_dvd (Nat.dvd_of_mod_eq_zero (hcall.mp hc))]
      omega
    · rw [if_neg hc, Nat.succ_div_of_not_dvd fun hd => hc (hcall.mpr (Nat.mod_eq_zero_of_dvd hd))]
      omega

/-- The device as a controller has set it up, before it writes the period. -/
theorem configured_eq {timClk : ℕ} (hinfo : d.hw.info = timDevInfo) (hclk : 1000000 ≤ timClk)
    (hclk' : timClk < 2 ^ 16 * 1000000) :
    ((((d.rtHwtimerInit timClk).2.rtHwtimerOpen timClk).2.rtHwtimerControl timClk
      (.freqSet 1000000)).2.rtHwtimerControl timClk (.modeSet .period)).2 = {
        hw := { d.hw with freq := 1000000, mode := .period, cycles := 0, overflow := 0 }
        tim := { d.tim with psc := timClk / 1000000 - 1, arr := 9999, count := ⟨0, 0⟩ } } := by
  have hpsc : uwrap 16 (((timClk / uwrap 32 1000000 % 2 ^ 16 : ℕ) : ℤ) - 1) =
      timClk / 1000000 - 1 := by
    have hfreq : uwrap 32 1000000 = 1000000 := by decide
    rw [hfreq]
    unfold uwrap
    omega
  have hlow : 1000000 ≤ d.hw.info.maxfreq ∧ 1000000 ≥ d.hw.info.minfreq := by
    rw [hinfo]
    decide
  have hhigh : ¬(1000000 > d.hw.info.maxfreq ∨ 1000000 < d.hw.info.minfreq) := by
    rw [hinfo]
    decide
  unfold rtHwtimerInit rtHwtimerOpen rtHwtimerControl TimBase.timerInit TimBase.timerCtrl
  dsimp only
  rw [if_pos hlow, if_neg hhigh]
  dsimp only
  rw [hpsc]

/-- The device after the start of a controller. -/
theorem startControl_eq {timClk periodUs count cycles : ℕ} {periodSec : ℚ}
    (hinfo : d.hw.info = timDevInfo) (hclk : 1000000 ≤ timClk)
    (hclk' : timClk < 2 ^ 16 * 1000000) (hcount : 0 < count) (hcount' : count ≤ 65535)
    (hcalc : Hwtimer.timeoutCalc ⟨(periodUs / 1000000 : ℕ), (periodUs % 1000000 : ℕ)⟩
      { d.hw with freq := 1000000, mode := .period, cycles := 0, overflow := 0 } =
        some (count, { d.hw with
          freq := 1000000, mode := .period, cycles, overflow := 0, reload := cycles, periodSec })) :
    d.startControl timClk true periodUs = some (sizeofHwtimerval, {
      hw := { d.hw with
        freq := 1000000, mode := .period, cycles, overflow := 0, reload := cycles, periodSec }
      tim := ⟨timClk / 1000000 - 1, count - 1, ⟨0, 0⟩, false, true⟩ }) := by
  have harr : uwrap 32 ((count : ℤ) - 1) = count - 1 := by
    unfold uwrap
    omega
  unfold startControl
  dsimp only
  rw [configured_eq hinfo hclk hclk']
  unfold rtHwtimerWrite TimBase.timerStop TimBase.timerStart
  dsimp only
  rw [hcalc]
  simp [harr]

/-- **The control rate.** For a period from 2 microseconds up to a second, the timer starts, and calls
`rx_indicate` at every multiple of a period that is not longer than the one asked for, and shorter
by at most a microsecond for each 65535 of it begun. -/
theorem control_rate {timClk periodUs : ℕ} (hinfo : d.hw.info = timDevInfo)
    (hclk : 1000000 ≤ timClk) (hclk' : timClk < 2 ^ 16 * 1000000) (htwo : 2 ≤ periodUs)
    (hsecond : periodUs ≤ 1000000) : ∃ (cycles count : ℕ) (d' : TimerDev),
      d.startControl timClk true periodUs = some (sizeofHwtimerval, d') ∧
      0 < cycles ∧ 0 < count ∧ count ≤ 65535 ∧ cycles * count ≤ periodUs ∧
      periodUs ≤ cycles * count + (periodUs / 65535 + 1) ∧
      ∀ n, d'.indications n = n / (timClk / 1000000 * (cycles * count)) := by
  have hmaxcnt : d.hw.info.maxcnt = 65535 := by rw [hinfo]; rfl
  obtain ⟨cycles, count, periodSec, hcalc, hpos, hle, hcycles, hbounds⟩ := timeoutCalc_usec
    (t := { d.hw with freq := 1000000, mode := .period, cycles := 0, overflow := 0 }) rfl hmaxcnt
    htwo hsecond
  refine ⟨cycles, count, _, startControl_eq hinfo hclk hclk' hpos hle hcalc, hcycles, hpos, hle,
    hbounds.1, hbounds.2, fun n => ?_⟩
  have hpsc : timClk / 1000000 - 1 + 1 = timClk / 1000000 := by omega
  have harr : count - 1 + 1 = count := by omega
  have hstart : At (timClk / 1000000 - 1) (count - 1) cycles 0 {
      hw := { d.hw with
        freq := 1000000, mode := .period, cycles, overflow := 0, reload := cycles, periodSec }
      tim := ⟨timClk / 1000000 - 1, count - 1, ⟨0, 0⟩, false, true⟩ } :=
    ⟨rfl, rfl, rfl, rfl, rfl, (Counter.after_zero _ _).symm, rfl, by simp⟩
  have hcalls := hstart.indications hcycles n
  rw [hpsc, harr, Nat.zero_div, Nat.add_zero, Nat.zero_add, Nat.mul_assoc,
    Nat.mul_comm count cycles] at hcalls
  exact hcalls

/-- The 20 ms of the two closed loops on a timer clock of 240 MHz. -/
theorem control_rate_shipped : ∃ (cycles count : ℕ) (d' : TimerDev),
    (⟨⟨timDevInfo, 0, 0, 0, 0, 0, .oneshot⟩, ⟨0, 0, ⟨0, 0⟩, false, false⟩⟩ : TimerDev).startControl
      240000000 true 20000 = some (sizeofHwtimerval, d') ∧
    0 < cycles ∧ 0 < count ∧ count ≤ 65535 ∧ cycles * count ≤ 20000 ∧
    20000 ≤ cycles * count + (20000 / 65535 + 1) ∧
    ∀ n, d'.indications n = n / (240000000 / 1000000 * (cycles * count)) :=
  control_rate rfl (by norm_num) (by norm_num) (by norm_num) (by norm_num)

end TimerDev

end H750Stepper
