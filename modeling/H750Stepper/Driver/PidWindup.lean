import H750Stepper.Driver.PidBounds
import H750Stepper.Lib.Session

/-!
# Leaving saturation

While the output of the PID controller is saturated, `stepper_pid_pos_calculate` sets the integral
back to what the limit leaves for it, and does not integrate. The integral that a saturated call
leaves is a function of the other two terms of that call (`calculated_iTerm_of_high`), so an episode
of saturation ends at the same error however long it has lasted (`no_windup`).
-/

namespace H750Stepper

open Threads

namespace Pid

variable {pid : Pid} {actual : ℚ}

/-- The controller with a target. -/
def aimed (pid : Pid) (target : ℚ) : Pid := (PidCall.setTarget target).apply pid

/-- A call of `stepper_pid_pos_calculate`, by the target it finds and the value it measures. -/
def round (pid : Pid) (x : ℚ × ℚ) : Pid := (PidCall.calculate x.2).apply (pid.aimed x.1)

/-- The proportional and the derivative term. -/
def pdTerms (pid : Pid) (actual : ℚ) : ℚ := pid.pTerm actual + pid.dTerm actual

/-- The call is saturated at the output limit. -/
def High (pid : Pid) (actual : ℚ) : Prop := pid.outputLimit < pid.sumOf actual

instance : DecidablePred pid.High := fun _ => inferInstanceAs (Decidable (_ < _))

/-- The call is saturated at the negative output limit. -/
def Low (pid : Pid) (actual : ℚ) : Prop := pid.sumOf actual < -pid.outputLimit

theorem sumOf_eq (pid : Pid) (actual : ℚ) : pid.sumOf actual = pid.pdTerms actual + pid.iTerm := by
  unfold sumOf pdTerms
  ring

/-! ## One saturated call -/

theorem integralFor_term (hki : pid.ki ≠ 0) (x : ℚ) : pid.ki * pid.integralFor x = x := by
  unfold integralFor
  rw [if_pos hki]
  exact mul_div_cancel₀ x hki

theorem iTerm_of_zero (hki : pid.ki = 0) : pid.iTerm = 0 := by
  unfold iTerm
  rw [hki, zero_mul]

/-- A call saturated at the limit leaves the integral term that the limit leaves. -/
theorem calculated_iTerm_of_high (hL : 0 < pid.outputLimit) (h : pid.High actual) :
    (pid.calculated actual).iTerm = max (pid.outputLimit - pid.pdTerms actual) 0 := by
  by_cases hki : pid.ki = 0
  · -- Without an integral the other two terms are above the limit.
    have hsum := pid.sumOf_eq actual
    rw [iTerm_of_zero hki] at hsum
    unfold High at h
    have hafter : (pid.calculated actual).ki = 0 := hki
    rw [iTerm_of_zero hafter, max_eq_right (by linarith)]
  · show pid.ki * pid.nextIntegral actual = _
    unfold nextIntegral
    rw [if_pos ⟨hL, h⟩, integralFor_term hki, sub_sub]
    rfl

theorem calculated_iTerm_of_low (hL : 0 < pid.outputLimit) (h : pid.Low actual) :
    (pid.calculated actual).iTerm = min (-pid.outputLimit - pid.pdTerms actual) 0 := by
  by_cases hki : pid.ki = 0
  · have hsum := pid.sumOf_eq actual
    rw [iTerm_of_zero hki] at hsum
    unfold Low at h
    have hafter : (pid.calculated actual).ki = 0 := hki
    rw [iTerm_of_zero hafter, min_eq_right (by linarith)]
  · have hhigh : ¬(pid.outputLimit > 0 ∧ pid.sumOf actual > pid.outputLimit) := by
      unfold Low at h
      rintro ⟨-, hhigh⟩
      linarith
    show pid.ki * pid.nextIntegral actual = _
    unfold nextIntegral
    rw [if_neg hhigh, if_pos ⟨hL, h⟩, integralFor_term hki, sub_sub]
    rfl

/-- The output is below the limit exactly if the sum is. -/
theorem output_lt_iff (hL : 0 < pid.outputLimit) (actual : ℚ) :
    (pid.calculated actual).output < pid.outputLimit ↔ pid.sumOf actual < pid.outputLimit := by
  show limited pid.outputLimit _ < _ ↔ _
  unfold limited CInt.clampTo
  rw [if_pos hL]
  dsimp only
  split_ifs <;> constructor <;> intro <;> linarith

theorem lt_output_iff (hL : 0 < pid.outputLimit) (actual : ℚ) :
    -pid.outputLimit < (pid.calculated actual).output ↔ -pid.outputLimit < pid.sumOf actual := by
  show _ < limited pid.outputLimit _ ↔ _
  unfold limited CInt.clampTo
  rw [if_pos hL]
  dsimp only
  split_ifs <;> constructor <;> intro <;> linarith

theorem add_max_lt_iff {L x y : ℚ} : x + max (L - y) 0 < L ↔ x < min L y := by
  rw [lt_min_iff]
  rcases max_cases (L - y) 0 with ⟨hmax, hle⟩ | ⟨hmax, hle⟩ <;> rw [hmax] <;> constructor
  · intro h
    constructor <;> linarith
  · rintro ⟨h₁, h₂⟩
    linarith
  · intro h
    constructor <;> linarith
  · rintro ⟨h₁, h₂⟩
    linarith

theorem lt_add_min_iff {L x y : ℚ} : -L < x + min (-L - y) 0 ↔ max (-L) y < x := by
  rw [max_lt_iff]
  rcases min_cases (-L - y) 0 with ⟨hmin, hle⟩ | ⟨hmin, hle⟩ <;> rw [hmin] <;> constructor
  · intro h
    constructor <;> linarith
  · rintro ⟨h₁, h₂⟩
    linarith
  · intro h
    constructor <;> linarith
  · rintro ⟨h₁, h₂⟩
    linarith

/-! ## Runs -/

@[simp] theorem round_outputLimit (pid : Pid) (x : ℚ × ℚ) :
    (pid.round x).outputLimit = pid.outputLimit := by
  unfold round
  rw [PidCall.apply_calculate]
  rfl

theorem foldl_round_outputLimit (pid : Pid) (xs : List (ℚ × ℚ)) :
    (xs.foldl round pid).outputLimit = pid.outputLimit := by
  induction xs generalizing pid with
  | nil => rfl
  | cons x xs ih => exact (ih (pid.round x)).trans (pid.round_outputLimit x)

end Pid

open Pid

/-- **No wind-up.** A run of calculations ends with calls that are all saturated at the output limit
`L`. The next output is below the limit exactly if the proportional and derivative terms are then
below their sum in the last of these calls, and below `L`. The number of the calls does not matter;
and the same holds of the negative limit. -/
theorem no_windup (pid₀ : Pid) (hL : 0 < pid₀.outputLimit) (xs zs : List (ℚ × ℚ)) :
    let L := pid₀.outputLimit
    let episode := history Pid.round (xs.foldl Pid.round pid₀) zs
    ∀ earlier pid x, episode = earlier ++ [(pid, x)] → ∀ target' actual',
      let last := pid.aimed x.1
      let next := (pid.round x).aimed target'
      let result := ((Pid.calculate actual').exec PidAct.eff next).1
      ((∀ y ∈ episode, (y.1.aimed y.2.1).High y.2.2) →
        (result < L ↔ next.pdTerms actual' < min L (last.pdTerms x.2))) ∧
      ((∀ y ∈ episode, (y.1.aimed y.2.1).Low y.2.2) →
        (-L < result ↔ max (-L) (last.pdTerms x.2) < next.pdTerms actual')) := by
  intro L episode earlier pid x hepisode target' actual' last next result
  have hmem : (pid, x) ∈ episode := by
    rw [hepisode]
    exact List.mem_append_right _ (List.mem_singleton.mpr rfl)
  have hlimit : pid.outputLimit = L :=
    history_inv (f := Pid.round) (I := fun pid => pid.outputLimit = L)
      (fun pid x h => (pid.round_outputLimit x).trans h) (pid₀.foldl_round_outputLimit xs) zs _ hmem
  have hlast : last.outputLimit = L := hlimit
  have hnext : next.outputLimit = L := (pid.round_outputLimit x).trans hlimit
  have hresult : result = (next.calculated actual').output :=
    congrArg Prod.fst (Pid.exec_calculate actual' next)
  have hiTerm : next.iTerm = (last.calculated x.2).iTerm := by
    show (pid.round x).iTerm = _
    unfold Pid.round
    rw [PidCall.apply_calculate]
  have hsum := next.sumOf_eq actual'
  have hpos : 0 < next.outputLimit := by rwa [hnext]
  have hlo := Pid.lt_output_iff hpos actual'
  have hhi := Pid.output_lt_iff hpos actual'
  rw [hnext] at hlo hhi
  constructor
  · intro hhigh
    have hterm := Pid.calculated_iTerm_of_high (by rwa [hlast]) (hhigh _ hmem)
    rw [hresult, hhi, hsum, hiTerm, hterm, hlast]
    exact Pid.add_max_lt_iff
  · intro hlow
    have hterm := Pid.calculated_iTerm_of_low (by rwa [hlast]) (hlow _ hmem)
    rw [hresult, hlo, hsum, hiTerm, hterm, hlast]
    exact Pid.lt_add_min_iff

/-- Two saturated calls, and a third one whose error has come down. -/
theorem no_windup_twice :
    let pid₀ := ((Pid.init 2 1 0 100 50 0).exec PidAct.eff default).2
    let next := ((pid₀.round (40, 0)).round (40, 5)).aimed 40
    ((Pid.calculate 20).exec PidAct.eff next).1 < 50 := by
  intro pid₀ next
  have hiff := no_windup pid₀ (by decide +kernel) [] [(40, 0), (40, 5)] [(pid₀, (40, 0))]
    (pid₀.round (40, 0)) (40, 5) rfl 40 20
  exact (hiff.1 (by decide +kernel)).mpr (by decide +kernel)

end H750Stepper
