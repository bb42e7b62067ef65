import H750Stepper.Driver.Motor
import H750Stepper.Lib.Quotient

/-!
# The prescaler search

`freq_write_raw` looks for the least prescaler with an auto-reload value of 16 bits, in 32-bit
arithmetic that wraps around silently. For the frequencies that `set_frequency` passes on, nothing
wraps (`prescaler_search`), so the registers divide the clock by `k * (n / k)` with the least
divisor `k` of `n = tim_clk / (2 * f)`. The pulse rate is then just above the frequency asked for,
and never falls when a higher frequency is asked for (`pulseRate_mono`).
-/

namespace H750Stepper

open CInt MotorSys

/-- The output frequency of the registers: `tim_clk / (2 * (PSC+1) * (ARR+1))`. -/
def pulseRate (timClk psc arr : ℕ) : ℚ := timClk / (2 * (psc + 1) * (arr + 1))

namespace MotorSys

variable {timClk f : ℕ}

/-! ## The search in exact arithmetic -/

/-- The search ends at the first prescaler that fits. -/
theorem pscSearch_eq {n psc p : ℕ} (hfrom : psc ≤ p) (hto : p ≤ psc + n)
    (hbig : ∀ q < p, 0xFFFF < arrOf timClk f q) (hfit : arrOf timClk f p ≤ 0xFFFF) :
    pscSearch timClk f n psc = (p, arrOf timClk f p) := by
  induction n generalizing psc with
  | zero =>
    obtain rfl : p = psc := by omega
    rfl
  | succ n ih =>
    unfold pscSearch
    by_cases heq : p = psc
    · rw [← heq, if_neg (not_lt.mpr hfit)]
    · rw [if_pos (hbig psc (by omega))]
      exact ih (by omega) (by omega)

/-- No intermediate value of the search wraps around, and no divisor is 0. -/
structure Exact (timClk f psc : ℕ) : Prop where
  divisor_pos : 0 < 2 * f * (psc + 1)
  divisor_lt : 2 * f * (psc + 1) < 2 ^ 32
  quotient_pos : 0 < timClk / (2 * f * (psc + 1))
  quotient_lt : timClk / (2 * f * (psc + 1)) < 2 ^ 32

theorem Exact.arrOf_eq {psc : ℕ} (h : Exact timClk f psc) :
    arrOf timClk f psc = timClk / (2 * f * (psc + 1)) - 1 := by
  have hpos := h.quotient_pos
  have hlt := h.quotient_lt
  unfold arrOf uwrap
  rw [Nat.mod_eq_of_lt h.divisor_lt]
  omega

theorem Exact.arrOf_le_iff {psc : ℕ} (h : Exact timClk f psc) :
    arrOf timClk f psc ≤ 0xFFFF ↔ timClk / (2 * f) / (psc + 1) ≤ 0x10000 := by
  have hpos := h.quotient_pos
  rw [h.arrOf_eq, Nat.div_div_eq_div_mul]
  omega

/-- Prescaler and auto-reload value for a frequency: the least divisor of `tim_clk / (2 * f)` and
its quotient. -/
structure Searched (timClk f : ℕ) (r : ℕ × ℕ) : Prop where
  least : Quotient.Least 0x10000 (timClk / (2 * f)) (r.1 + 1)
  psc_le : r.1 ≤ 0xFFFF
  arr_eq : r.2 + 1 = timClk / (2 * f) / (r.1 + 1)
  exact : ∀ psc ≤ r.1, Exact timClk f psc

theorem Searched.arr_le {r : ℕ × ℕ} (h : Searched timClk f r) : r.2 ≤ 0xFFFF := by
  have hle := h.least.div_le
  have heq := h.arr_eq
  omega

section Range

variable (hclk : 2 * motorMaxFreqHz ≤ timClk) (hword : timClk < 2 ^ 32)
  (hmin : motorMinFreqHz ≤ f) (hmax : f ≤ motorMaxFreqHz)

include hclk hword hmin hmax

/-- Up to the least divisor the arithmetic is exact. -/
theorem exact_of_least {k : ℕ} (hk : Quotient.Least 0x10000 (timClk / (2 * f)) k) {psc : ℕ}
    (hpsc : psc < k) : Exact timClk f psc := by
  have hf : 0 < f := lt_of_lt_of_le (by decide) hmin
  have hdiv : 2 * f * (psc + 1) ≤ timClk ∧ 2 * f * (psc + 1) < 2 ^ 32 := by
    by_cases hfirst : psc = 0
    · unfold motorMaxFreqHz at hclk hmax
      rw [hfirst]
      omega
    · -- The divisor before the last leaves a quotient above `2 ^ 16`.
      have hpred : 0x10001 * (k - 1) * (2 * f) ≤ timClk :=
        (Nat.le_div_iff_mul_le (by omega)).mp hk.pred_mul_le
      have hle : 2 * f * (psc + 1) ≤ 2 * f * (2 * (k - 1)) := Nat.mul_le_mul_left _ (by omega)
      have hsplit : 0x10001 * (k - 1) * (2 * f) = 0x10001 * (2 * f * (k - 1)) := by ring
      have htwice : 2 * f * (2 * (k - 1)) = 2 * (2 * f * (k - 1)) := by ring
      omega
  exact ⟨by positivity, hdiv.2, Nat.div_pos hdiv.1 (by positivity),
    (Nat.div_le_self _ _).trans_lt hword⟩

theorem searched : Searched timClk f (pscSearch timClk f 0xFFFF 0) := by
  obtain ⟨k, hk⟩ := Quotient.exists_least 0x10000 (timClk / (2 * f))
  have hexact : ∀ psc < k, Exact timClk f psc := fun psc hpsc =>
    exact_of_least hclk hword hmin hmax hk hpsc
  have hbound : k ≤ 0x10000 := by
    refine hk.le_of_div_le (by decide) ?_
    have hle := Nat.div_le_self timClk (2 * f)
    omega
  obtain ⟨p, rfl⟩ : ∃ p, k = p + 1 := ⟨k - 1, by have := hk.pos; omega⟩
  have hlast := hexact p p.lt_succ_self
  have hbig : ∀ q < p, 0xFFFF < arrOf timClk f q := by
    intro q hq
    rw [← not_le, (hexact q (by omega)).arrOf_le_iff, not_le]
    exact hk.lt_div q.succ_pos (by omega)
  rw [pscSearch_eq p.zero_le (by omega) hbig (hlast.arrOf_le_iff.mpr hk.div_le)]
  refine ⟨hk, by omega, ?_, fun psc hpsc => hexact psc (Nat.lt_succ_of_le hpsc)⟩
  rw [hlast.arrOf_eq, Nat.sub_add_cancel hlast.quotient_pos, Nat.div_div_eq_div_mul]

end Range

/-- The search programs the timer; the saturation of its result changes nothing. -/
theorem freqWriteRaw_tim {s : MotorSys} (hf : f ≠ 0)
    (h : Searched s.motor.timClk f (pscSearch s.motor.timClk f 0xFFFF 0)) :
    let r := pscSearch s.motor.timClk f 0xFFFF 0
    (s.freqWriteRaw f).tim.psc = r.1 ∧ (s.freqWriteRaw f).tim.arr = r.2 ∧
      (s.freqWriteRaw f).tim.ccr = r.2 / 2 := by
  unfold freqWriteRaw
  rw [if_neg hf]
  dsimp only
  exact ⟨rfl, if_neg (not_lt.mpr h.arr_le), congrArg (· / 2) (if_neg (not_lt.mpr h.arr_le))⟩

/-! ## The rate -/

theorem Searched.rate_eq {r : ℕ × ℕ} (h : Searched timClk f r) : pulseRate timClk r.1 r.2 =
    timClk / (2 * ((r.1 + 1) * (timClk / (2 * f) / (r.1 + 1)) : ℕ) : ℚ) := by
  unfold pulseRate
  rw [← h.arr_eq]
  push_cast
  ring

/-- The rate is at least the frequency asked for. -/
theorem Searched.le_rate {r : ℕ × ℕ} (h : Searched timClk f r) :
    (f : ℚ) ≤ pulseRate timClk r.1 r.2 := by
  have hmul : f * (2 * (r.1 + 1) * (r.2 + 1)) ≤ timClk := by
    calc f * (2 * (r.1 + 1) * (r.2 + 1)) = timClk / (2 * f * (r.1 + 1)) * (2 * f * (r.1 + 1)) := by
          rw [h.arr_eq, Nat.div_div_eq_div_mul]
          ring
      _ ≤ timClk := Nat.div_mul_le_self _ _
  unfold pulseRate
  rw [le_div_iff₀ (by positivity)]
  exact_mod_cast hmul

/-- The rate is less than one part in `arr + 1` above the frequency asked for. -/
theorem Searched.rate_lt {r : ℕ × ℕ} (h : Searched timClk f r) :
    pulseRate timClk r.1 r.2 < f * (1 + 1 / (r.2 + 1)) := by
  have hmul : timClk < f * (2 * (r.1 + 1) * (r.2 + 2)) := by
    calc timClk < 2 * f * (r.1 + 1) * (timClk / (2 * f * (r.1 + 1)) + 1) :=
          Nat.lt_mul_div_succ _ (h.exact r.1 le_rfl).divisor_pos
      _ = f * (2 * (r.1 + 1) * (r.2 + 2)) := by
          rw [← Nat.div_div_eq_div_mul, ← h.arr_eq]
          ring
  unfold pulseRate
  rw [div_lt_iff₀ (by positivity)]
  have hcast : (timClk : ℚ) < f * (2 * (r.1 + 1) * (r.2 + 2)) := by exact_mod_cast hmul
  calc (timClk : ℚ) < f * (2 * (r.1 + 1) * (r.2 + 2)) := hcast
    _ = f * (1 + 1 / (r.2 + 1)) * (2 * (r.1 + 1) * (r.2 + 1)) := by
        field_simp
        ring

/-- A prescaler that divides leaves at least half the range to the auto-reload value. -/
theorem Searched.half_le {r : ℕ × ℕ} (h : Searched timClk f r) (hpsc : 0 < r.1) : 32767 ≤ r.2 := by
  have hhalf := h.least.half_le (Nat.succ_lt_succ hpsc)
  have heq := h.arr_eq
  omega

end MotorSys

/-- **The prescaler search.** For a frequency that `set_frequency` passes on, nothing wraps around.
The search finds the least prescaler with an auto-reload value of 16 bits, without the saturation,
and the rate is the frequency asked for or above it by less than one part in `arr + 1`. -/
theorem prescaler_search (s : MotorSys) {f : ℕ} (hclk : 2 * motorMaxFreqHz ≤ s.motor.timClk)
    (hword : s.motor.timClk < 2 ^ 32) (hmin : motorMinFreqHz ≤ f) (hmax : f ≤ motorMaxFreqHz) :
    let timClk := s.motor.timClk
    let tim := (s.freqWriteRaw f).tim
    (∀ psc ≤ tim.psc, Exact timClk f psc) ∧ (pscSearch timClk f 0xFFFF 0).2 ≤ 0xFFFF ∧
      tim.psc ≤ 0xFFFF ∧ tim.arr ≤ 0xFFFF ∧ tim.ccr = tim.arr / 2 ∧ tim.arr / 2 ≤ tim.arr ∧
      tim.arr = timClk / (2 * f * (tim.psc + 1)) - 1 ∧
      IsLeast {psc : ℕ | ((timClk / (2 * f * (psc + 1)) : ℕ) - 1 : ℤ) ≤ 0xFFFF} tim.psc ∧
      (f : ℚ) ≤ pulseRate timClk tim.psc tim.arr ∧
      pulseRate timClk tim.psc tim.arr < f * (1 + 1 / (tim.arr + 1)) ∧
      (0 < tim.psc → 32767 ≤ tim.arr) := by
  intro timClk tim
  have hf : f ≠ 0 := by
    unfold motorMinFreqHz at hmin
    omega
  have h := searched hclk hword hmin hmax
  obtain ⟨hpsc, harr, hccr⟩ := freqWriteRaw_tim hf h
  refine ⟨?_, h.arr_le, ?_, ?_, ?_, Nat.div_le_self _ _, ?_, ⟨?_, ?_⟩, ?_, ?_, ?_⟩
  · rw [hpsc]
    exact h.exact
  · rw [hpsc]
    exact h.psc_le
  · rw [harr]
    exact h.arr_le
  · rw [hccr, harr]
  · rw [harr, hpsc, ← Nat.div_div_eq_div_mul, ← h.arr_eq]
    rfl
  · show ((timClk / (2 * f * (tim.psc + 1)) : ℕ) - 1 : ℤ) ≤ 0xFFFF
    have hle : timClk / (2 * f) / (tim.psc + 1) ≤ 0x10000 := by
      rw [hpsc]
      exact h.least.div_le
    rw [← Nat.div_div_eq_div_mul]
    omega
  · intro psc hsmall
    have hdiv : timClk / (2 * f) / (psc + 1) ≤ 0x10000 := by
      rw [Nat.div_div_eq_div_mul]
      change ((timClk / (2 * f * (psc + 1)) : ℕ) - 1 : ℤ) ≤ 0xFFFF at hsmall
      omega
    rw [hpsc]
    exact Nat.le_of_succ_le_succ (h.least.le_of_div_le psc.succ_pos hdiv)
  · rw [hpsc, harr]
    exact h.le_rate
  · rw [hpsc, harr]
    exact h.rate_lt
  · rw [hpsc, harr]
    exact h.half_le

/-- The lowest frequency, on a clock of 240 MHz. -/
theorem prescaler_search_lowest :
    let tim := (({ zeroed with motor.timClk := 240000000 } : MotorSys).freqWriteRaw 50).tim
    (50 : ℚ) ≤ pulseRate 240000000 tim.psc tim.arr ∧
      pulseRate 240000000 tim.psc tim.arr < 50 * (1 + 1 / (tim.arr + 1)) := by
  intro tim
  obtain ⟨-, -, -, -, -, -, -, -, hle, hlt, -⟩ :=
    prescaler_search { zeroed with motor.timClk := 240000000 } (f := 50) (by decide) (by decide)
      (by decide) (by decide)
  exact ⟨hle, hlt⟩

/-! ## Two requests -/

theorem clampFreq_bounds {f : ℕ} (hf : f ≠ 0) :
    motorMinFreqHz ≤ (Motor.clampFreq f).1 ∧ (Motor.clampFreq f).1 ≤ motorMaxFreqHz := by
  unfold Motor.clampFreq motorMinFreqHz motorMaxFreqHz
  dsimp only
  split_ifs <;> dsimp only <;> omega

theorem clampFreq_pos {f : ℕ} (hf : f ≠ 0) : 0 < (Motor.clampFreq f).1 :=
  lt_of_lt_of_le (by decide) (clampFreq_bounds hf).1

theorem clampFreq_mono {f₁ f₂ : ℕ} (hle : f₁ ≤ f₂) :
    (Motor.clampFreq f₁).1 ≤ (Motor.clampFreq f₂).1 := by
  unfold Motor.clampFreq motorMinFreqHz motorMaxFreqHz
  dsimp only
  split_ifs <;> dsimp only <;> omega

namespace MotorSys

/-- A request of a motor without a fault programs the timer for the frequency passed on. -/
theorem setFrequency_tim {s : MotorSys} {f : ℕ} (hfault : s.motor.faultState = .none) (hf : f ≠ 0) :
    ((Motor.setFrequency f).exec MotorAct.eff s).2.tim =
      (s.stepsAccumulate.freqWriteRaw (Motor.clampFreq f).1).tim := by
  rw [exec_setFrequency, if_neg fun h => h.2 hfault]
  unfold setFrequencySection
  dsimp only
  rw [if_neg (clampFreq_pos hf).ne']

theorem stepsAccumulate_timClk (s : MotorSys) :
    s.stepsAccumulate.motor.timClk = s.motor.timClk := by
  obtain ⟨total, last, h⟩ := s.stepsAccumulate_frame
  rw [h]

end MotorSys

/-- The rate that a request gives. -/
def requestedRate (s : MotorSys) (f : ℕ) : ℚ :=
  let tim := ((Motor.setFrequency f).exec MotorAct.eff s).2.tim
  pulseRate s.motor.timClk tim.psc tim.arr

/-- The rate is what the two stages of the timer make of the clock. -/
theorem requestedRate_eq {s : MotorSys} (hclk : 2 * motorMaxFreqHz ≤ s.motor.timClk)
    (hword : s.motor.timClk < 2 ^ 32) (hfault : s.motor.faultState = .none) {f : ℕ} (hf : f ≠ 0) :
    ∃ k, Quotient.Least 0x10000 (s.motor.timClk / (2 * (Motor.clampFreq f).1)) k ∧
      0 < s.motor.timClk / (2 * (Motor.clampFreq f).1) / k ∧
      requestedRate s f =
        s.motor.timClk / (2 * (k * (s.motor.timClk / (2 * (Motor.clampFreq f).1) / k) : ℕ)) := by
  obtain ⟨hmin, hmax⟩ := clampFreq_bounds hf
  have h := searched hclk hword hmin hmax
  rw [← stepsAccumulate_timClk] at h
  obtain ⟨hpsc, harr, -⟩ := freqWriteRaw_tim (clampFreq_pos hf).ne' h
  rw [stepsAccumulate_timClk] at h hpsc harr
  refine ⟨_, h.least, ?_, ?_⟩
  · rw [← h.arr_eq]
    exact Nat.succ_pos _
  · unfold requestedRate
    rw [setFrequency_tim hfault hf]
    dsimp only
    rw [hpsc, harr, h.rate_eq]

/-- **A higher request never gives a lower rate.** Two nonzero requests, clamped or not, of motors
on the same clock and without a fault. -/
theorem pulseRate_mono {s₁ s₂ : MotorSys} (hsame : s₂.motor.timClk = s₁.motor.timClk)
    (hclk : 2 * motorMaxFreqHz ≤ s₁.motor.timClk) (hword : s₁.motor.timClk < 2 ^ 32)
    (hfault₁ : s₁.motor.faultState = .none) (hfault₂ : s₂.motor.faultState = .none) {f₁ f₂ : ℕ}
    (hf : f₁ ≠ 0) (hle : f₁ ≤ f₂) : requestedRate s₁ f₁ ≤ requestedRate s₂ f₂ := by
  have hf₂ : f₂ ≠ 0 := by omega
  obtain ⟨k₁, hk₁, -, hrate₁⟩ := requestedRate_eq hclk hword hfault₁ hf
  obtain ⟨k₂, hk₂, hpos, hrate₂⟩ := requestedRate_eq (hsame ▸ hclk) (hsame ▸ hword) hfault₂ hf₂
  rw [hsame] at hk₂ hpos hrate₂
  rw [hrate₁, hrate₂]
  have hn : s₁.motor.timClk / (2 * (Motor.clampFreq f₂).1) ≤
      s₁.motor.timClk / (2 * (Motor.clampFreq f₁).1) :=
    Nat.div_le_div_left (Nat.mul_le_mul_left 2 (clampFreq_mono hle))
      (Nat.mul_pos two_pos (clampFreq_pos hf))
  have hmul := hk₁.mul_div_mono hk₂ hn
  have hpos' := Nat.mul_pos hk₂.pos hpos
  refine div_le_div_of_nonneg_left (by positivity) (by positivity) ?_
  exact_mod_cast Nat.mul_le_mul_left 2 hmul

/-- Two requests on either side of a change of the prescaler. -/
theorem pulseRate_mono_across :
    let s : MotorSys := { zeroed with motor.timClk := 240000000 }
    requestedRate s 1831 ≤ requestedRate s 1832 :=
  pulseRate_mono rfl (by decide) (by decide) rfl rfl (by decide) (by decide)

end H750Stepper
