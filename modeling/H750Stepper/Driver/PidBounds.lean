import H750Stepper.Driver.Pid
import H750Stepper.Lib.CInt

/-!
# The bounds of the PID controller

What `stepper_pid_pos_calculate` leaves in a controller that nobody else uses meanwhile
(`exec_calculate`), and the bounds that follow: when the output is saturated, the integral is set
back to what the limit leaves for it, and no limit is put on it there. `abs_backCalculated_le`: that
never raises its magnitude.

`pid_bounded`: after any calls the error and the integral are within their limits, and the next
output is.
-/

namespace H750Stepper

open Threads CInt

namespace Pid

open Prog (exec_act exec_ret exec_bind exec_ask exec_perform exec_when exec_ite)

/-! ## Reading and writing fields -/

@[simp] theorem get_set_self (pid : Pid) (v : ℚ) (f : PidField) : (pid.set v f).get f = v := by
  cases f <;> rfl

theorem get_set_of_ne (pid : Pid) (v : ℚ) {f g : PidField} (h : g ≠ f) :
    (pid.set v f).get g = pid.get g := by
  cases f <;> cases g <;> first | rfl | exact absurd rfl h

@[simp] theorem set_get (pid : Pid) (f : PidField) : pid.set (pid.get f) f = pid := by
  cases f <;> rfl

theorem exec_read_bind {α : Type} (f : PidField) (g : ℚ → PidProg α) (pid : Pid) :
    (read f >>= g).exec PidAct.eff pid = (g (pid.get f)).exec PidAct.eff pid := rfl

theorem exec_write_bind {α : Type} (f : PidField) (v : ℚ) (g : Unit → PidProg α) (pid : Pid) :
    (write f v >>= g).exec PidAct.eff pid = (g ()).exec PidAct.eff (pid.set v f) := rfl

@[simp] theorem exec_write (f : PidField) (v : ℚ) (pid : Pid) :
    (write f v).exec PidAct.eff pid = ((), pid.set v f) := rfl

/-! ## The calculation as a function -/

/-- A value under a limit that is off unless it is positive. -/
def limited (limit x : ℚ) : ℚ := if limit > 0 then clampTo limit x else x

/-- The error term for a measured value. -/
def errOf (pid : Pid) (actual : ℚ) : ℚ := limited pid.errorLimit (pid.target - actual)

def pTerm (pid : Pid) (actual : ℚ) : ℚ := pid.kp * pid.errOf actual

def iTerm (pid : Pid) : ℚ := pid.ki * pid.integralAcc

def dTerm (pid : Pid) (actual : ℚ) : ℚ := pid.kd * (pid.errOf actual - pid.errLast)

/-- The sum of the three terms. -/
def sumOf (pid : Pid) (actual : ℚ) : ℚ := pid.pTerm actual + pid.iTerm + pid.dTerm actual

/-- The integral whose term is `x`. -/
def integralFor (pid : Pid) (x : ℚ) : ℚ := if pid.ki ≠ 0 then x / pid.ki else pid.integralAcc

/-- The integral after the calculation. -/
def nextIntegral (pid : Pid) (actual : ℚ) : ℚ :=
  if pid.outputLimit > 0 ∧ pid.sumOf actual > pid.outputLimit then
    pid.integralFor (max (pid.outputLimit - pid.pTerm actual - pid.dTerm actual) 0)
  else if pid.outputLimit > 0 ∧ pid.sumOf actual < -pid.outputLimit then
    pid.integralFor (min (-pid.outputLimit - pid.pTerm actual - pid.dTerm actual) 0)
  else if pid.ki ≠ 0 then limited pid.integralLimit (pid.integralAcc + pid.errOf actual)
  else pid.integralAcc

/-- The controller after the calculation. -/
def calculated (pid : Pid) (actual : ℚ) : Pid :=
  { pid with
    actual
    err := pid.errOf actual
    errLast := pid.errOf actual
    integralAcc := pid.nextIntegral actual
    output := limited pid.outputLimit (pid.sumOf actual) }

theorem exec_clampField {f limit : PidField} (h : limit ≠ f) (pid : Pid) :
    (clampField f limit).exec PidAct.eff pid =
      ((), pid.set (limited (pid.get limit) (pid.get f)) f) := by
  unfold clampField limited clampTo
  rw [exec_read_bind]
  by_cases hpos : pid.get limit > 0
  · rw [if_pos hpos, if_pos hpos, exec_read_bind, exec_read_bind, exec_bind, exec_when]
    dsimp only
    by_cases hhi : pid.get f > pid.get limit
    · have hlo : ¬pid.get limit < -pid.get limit := by linarith
      rw [if_pos hhi, if_pos hhi, if_neg hlo]
      simp only [exec_read_bind, exec_write, exec_when, get_set_self, get_set_of_ne _ _ h, hlo,
        if_false]
    · rw [if_neg hhi, if_neg hhi]
      simp only [exec_read_bind, exec_write, exec_when]
      split_ifs
      · rfl
      · rw [set_get]
  · rw [if_neg hpos, if_neg hpos, set_get]
    rfl

theorem exec_setIntegral (x : ℚ) (pid : Pid) :
    (setIntegral x).exec PidAct.eff pid = ((), { pid with integralAcc := pid.integralFor x }) := by
  unfold setIntegral integralFor
  rw [exec_read_bind, exec_when]
  show (if pid.ki ≠ 0 then _ else _) = _
  by_cases hki : pid.ki ≠ 0
  · rw [if_pos hki, if_pos hki]
    rfl
  · rw [if_neg hki, if_neg hki]

/-- The limit on the output, and what it leaves of the integral. -/
theorem exec_limitOutput (p i d : ℚ) (pid : Pid) :
    (limitOutput p i d).exec PidAct.eff pid =
      if pid.outputLimit > 0 ∧ p + i + d > pid.outputLimit then
        ((pid.outputLimit, true),
          { pid with integralAcc := pid.integralFor (max (pid.outputLimit - p - d) 0) })
      else if pid.outputLimit > 0 ∧ p + i + d < -pid.outputLimit then
        ((-pid.outputLimit, true),
          { pid with integralAcc := pid.integralFor (min (-pid.outputLimit - p - d) 0) })
      else ((p + i + d, false), pid) := by
  unfold limitOutput
  dsimp only
  rw [exec_read_bind]
  show Prog.exec _ (if pid.outputLimit > 0 then _ else _) pid = _
  by_cases hpos : pid.outputLimit > 0
  · rw [if_pos hpos, exec_read_bind]
    show Prog.exec _ (if p + i + d > pid.outputLimit then _ else _) pid = _
    by_cases hhi : p + i + d > pid.outputLimit
    · rw [if_pos hhi, if_pos ⟨hpos, hhi⟩, exec_read_bind, exec_bind, exec_setIntegral]
      rfl
    · rw [if_neg hhi, if_neg fun h => hhi h.2, exec_read_bind]
      show Prog.exec _ (if p + i + d < -pid.outputLimit then _ else _) pid = _
      by_cases hlo : p + i + d < -pid.outputLimit
      · rw [if_pos hlo, if_pos ⟨hpos, hlo⟩, exec_read_bind, exec_bind, exec_setIntegral]
        rfl
      · rw [if_neg hlo, if_neg fun h => hlo h.2]
        rfl
  · rw [if_neg hpos, if_neg fun h => hpos h.1, if_neg fun h => hpos h.1]
    rfl

theorem exec_integrate (saturated : Bool) (pid : Pid) :
    (integrate saturated).exec PidAct.eff pid =
      ((), if pid.ki ≠ 0 ∧ ¬saturated then
        { pid with integralAcc := limited pid.integralLimit (pid.integralAcc + pid.err) }
      else pid) := by
  unfold integrate
  rw [exec_read_bind, exec_when]
  show (if pid.ki ≠ 0 ∧ ¬saturated then _ else _) = _
  by_cases h : pid.ki ≠ 0 ∧ ¬saturated
  · rw [if_pos h, if_pos h, exec_read_bind, exec_read_bind, exec_write_bind,
      exec_clampField (by decide)]
    rfl
  · rw [if_neg h, if_neg h]

/-- The calculation from the output on. -/
theorem exec_conclude (r : ℚ × Bool) (pid : Pid) :
    (do
      write .output r.1
      integrate r.2
      write .errLast (← read .err)
      return r.1 : PidProg ℚ).exec PidAct.eff pid =
    (r.1, { pid with
      output := r.1
      integralAcc := if pid.ki ≠ 0 ∧ ¬r.2 then limited pid.integralLimit (pid.integralAcc + pid.err)
        else pid.integralAcc
      errLast := pid.err }) := by
  rw [exec_write_bind, exec_bind, exec_integrate]
  by_cases h : pid.ki ≠ 0 ∧ ¬r.2
  · rw [if_pos h]
    show Prog.exec PidAct.eff _ (if pid.ki ≠ 0 ∧ ¬r.2 then _ else _) = _
    rw [if_pos h]
    rfl
  · rw [if_neg h]
    show Prog.exec PidAct.eff _ (if pid.ki ≠ 0 ∧ ¬r.2 then _ else _) = _
    rw [if_neg h]
    rfl

/-- The calculation from its three terms on. -/
theorem exec_finish (p i d : ℚ) (pid : Pid) :
    (do
      let r ← limitOutput p i d
      write .output r.1
      integrate r.2
      write .errLast (← read .err)
      return r.1 : PidProg ℚ).exec PidAct.eff pid =
    (limited pid.outputLimit (p + i + d),
      { pid with
        output := limited pid.outputLimit (p + i + d)
        integralAcc :=
          if pid.outputLimit > 0 ∧ p + i + d > pid.outputLimit then
            pid.integralFor (max (pid.outputLimit - p - d) 0)
          else if pid.outputLimit > 0 ∧ p + i + d < -pid.outputLimit then
            pid.integralFor (min (-pid.outputLimit - p - d) 0)
          else if pid.ki ≠ 0 then limited pid.integralLimit (pid.integralAcc + pid.err)
          else pid.integralAcc
        errLast := pid.err }) := by
  rw [exec_bind, exec_limitOutput]
  by_cases hhi : pid.outputLimit > 0 ∧ p + i + d > pid.outputLimit
  · have hout : limited pid.outputLimit (p + i + d) = pid.outputLimit := by
      have hlo : ¬pid.outputLimit < -pid.outputLimit := by linarith [hhi.1]
      unfold limited clampTo
      rw [if_pos hhi.1, if_pos hhi.2, if_neg hlo]
    rw [if_pos hhi, if_pos hhi, hout, exec_conclude, if_neg (by simp)]
  · rw [if_neg hhi, if_neg hhi]
    by_cases hlo : pid.outputLimit > 0 ∧ p + i + d < -pid.outputLimit
    · have hout : limited pid.outputLimit (p + i + d) = -pid.outputLimit := by
        unfold limited clampTo
        rw [if_pos hlo.1, if_neg fun h => hhi ⟨hlo.1, h⟩, if_pos hlo.2]
      rw [if_pos hlo, if_pos hlo, hout, exec_conclude, if_neg (by simp)]
    · have hout : limited pid.outputLimit (p + i + d) = p + i + d := by
        unfold limited clampTo
        by_cases hpos : pid.outputLimit > 0
        · rw [if_pos hpos, if_neg fun h => hhi ⟨hpos, h⟩, if_neg fun h => hlo ⟨hpos, h⟩]
        · rw [if_neg hpos]
      rw [if_neg hlo, if_neg hlo, hout, exec_conclude]
      simp only [Bool.false_eq_true, not_false_eq_true, and_true]

/-- The calculation. -/
theorem exec_calculate (actual : ℚ) (pid : Pid) :
    (calculate actual).exec PidAct.eff pid =
      ((pid.calculated actual).output, pid.calculated actual) := by
  unfold calculate
  rw [exec_write_bind, exec_read_bind, exec_read_bind, exec_write_bind, exec_bind,
    exec_clampField (by decide)]
  exact exec_finish (pid.pTerm actual) pid.iTerm (pid.dTerm actual)
    { pid with actual, err := pid.errOf actual }

/-! ## The bounds -/

theorem abs_limited_le {limit : ℚ} (h : 0 < limit) (x : ℚ) : |limited limit x| ≤ limit := by
  unfold limited
  rw [if_pos h]
  exact abs_clampTo_le h.le x

/-- The integral for a term no larger than the integral's own. -/
theorem abs_integralFor_le {pid : Pid} {x : ℚ} (h : |x| ≤ |pid.iTerm|) :
    |pid.integralFor x| ≤ |pid.integralAcc| := by
  unfold integralFor
  by_cases hki : pid.ki ≠ 0
  · have hpos : 0 < |pid.ki| := abs_pos.mpr hki
    rw [if_pos hki, abs_div, div_le_iff₀ hpos, mul_comm, ← abs_mul]
    exact h
  · rw [if_neg hki]

/-- The back-calculation does not raise the magnitude of the integral, whatever the gains. -/
theorem abs_backCalculated_le {pid : Pid} {limit p d : ℚ} (h : p + pid.iTerm + d > limit) :
    |pid.integralFor (max (limit - p - d) 0)| ≤ |pid.integralAcc| := by
  refine abs_integralFor_le ?_
  rw [abs_of_nonneg (le_max_right _ _)]
  have hterm : limit - p - d ≤ pid.iTerm := by linarith
  exact max_le (hterm.trans (le_abs_self _)) (abs_nonneg _)

theorem abs_backCalculated_neg_le {pid : Pid} {limit p d : ℚ} (h : p + pid.iTerm + d < -limit) :
    |pid.integralFor (min (-limit - p - d) 0)| ≤ |pid.integralAcc| := by
  refine abs_integralFor_le ?_
  rw [abs_of_nonpos (min_le_right _ _)]
  have hterm : -(-limit - p - d) ≤ -pid.iTerm := by linarith
  rw [neg_le]
  exact le_min (by linarith [neg_le_abs pid.iTerm]) (neg_nonpos.mpr (abs_nonneg _))

/-- The limits in force, and what is within them. -/
structure Bounded (integralLimit errorLimit outputLimit : ℚ) (pid : Pid) : Prop where
  integralLimit_eq : pid.integralLimit = integralLimit
  errorLimit_eq : pid.errorLimit = errorLimit
  outputLimit_eq : pid.outputLimit = outputLimit
  integral : |pid.integralAcc| ≤ integralLimit
  err : |pid.err| ≤ errorLimit

section

variable {integralLimit errorLimit outputLimit : ℚ} {pid : Pid}

theorem Bounded.nextIntegral (hI : 0 < integralLimit)
    (h : pid.Bounded integralLimit errorLimit outputLimit) (actual : ℚ) :
    |pid.nextIntegral actual| ≤ integralLimit := by
  unfold Pid.nextIntegral
  split_ifs with hhi hlo hki
  · exact (abs_backCalculated_le hhi.2).trans h.integral
  · exact (abs_backCalculated_neg_le hlo.2).trans h.integral
  · rw [h.integralLimit_eq]
    exact abs_limited_le hI _
  · exact h.integral

theorem Bounded.calculated (hI : 0 < integralLimit) (hE : 0 < errorLimit)
    (h : pid.Bounded integralLimit errorLimit outputLimit) (actual : ℚ) :
    (pid.calculated actual).Bounded integralLimit errorLimit outputLimit where
  integralLimit_eq := h.integralLimit_eq
  errorLimit_eq := h.errorLimit_eq
  outputLimit_eq := h.outputLimit_eq
  integral := h.nextIntegral hI actual
  err := by
    show |pid.errOf actual| ≤ errorLimit
    unfold errOf
    rw [h.errorLimit_eq]
    exact abs_limited_le hE _

theorem Bounded.output_le (hO : 0 < outputLimit)
    (h : pid.Bounded integralLimit errorLimit outputLimit) (actual : ℚ) :
    |(pid.calculated actual).output| ≤ outputLimit := by
  show |limited pid.outputLimit _| ≤ outputLimit
  rw [h.outputLimit_eq]
  exact abs_limited_le hO _

end

end Pid

/-! ## Runs of calls -/

/-- The calls on a controller after its init. -/
inductive PidCall where
  | setTarget (target : ℚ)
  | setGains (kp ki kd : ℚ)
  | setOutputLimit (limit : ℚ)
  | reset
  | calculate (actual : ℚ)
  deriving DecidableEq

namespace PidCall

/-- The code of a call; only `calculate` has a result. -/
def code : PidCall → PidProg (Option ℚ)
  | setTarget target => do
    Pid.setTarget target
    return none
  | setGains kp ki kd => do
    Pid.setGains kp ki kd
    return none
  | setOutputLimit limit => do
    Pid.setOutputLimit limit
    return none
  | reset => do
    Pid.reset
    return none
  | calculate actual => do
    let output ← Pid.calculate actual
    return some output

/-- What a call does to a controller that nobody else uses. -/
def apply (c : PidCall) (pid : Pid) : Pid := (c.code.exec PidAct.eff pid).2

/-- An output limit is positive. -/
def Positive : PidCall → Prop
  | setOutputLimit limit => 0 < limit
  | _ => True

/-- The output limit after the call. -/
def limitAfter (outputLimit : ℚ) : PidCall → ℚ
  | setOutputLimit limit => limit
  | _ => outputLimit

theorem apply_calculate (actual : ℚ) (pid : Pid) :
    (calculate actual).apply pid = pid.calculated actual := by
  unfold apply code
  rw [Prog.exec_bind, Pid.exec_calculate]
  rfl

theorem Positive.limitAfter {c : PidCall} (hc : c.Positive) {outputLimit : ℚ}
    (hO : 0 < outputLimit) : 0 < c.limitAfter outputLimit := by
  cases c with
  | setOutputLimit limit => exact hc
  | _ => exact hO

/-- Each call keeps the bounds. -/
theorem bounded_apply {integralLimit errorLimit outputLimit : ℚ} (hI : 0 < integralLimit)
    (hE : 0 < errorLimit) {pid : Pid} (h : pid.Bounded integralLimit errorLimit outputLimit)
    (c : PidCall) :
    (c.apply pid).Bounded integralLimit errorLimit (c.limitAfter outputLimit) := by
  cases c with
  | setTarget target => exact { h with }
  | setGains kp ki kd => exact { h with }
  | setOutputLimit limit => exact { h with outputLimit_eq := rfl }
  | reset =>
    have hzero : |(0 : ℚ)| = 0 := abs_zero
    exact { h with integral := hzero.trans_le hI.le, err := hzero.trans_le hE.le }
  | calculate actual =>
    rw [apply_calculate]
    exact h.calculated hI hE actual

end PidCall

namespace Pid

/-- The controller after some calls. -/
def after (pid : Pid) (cs : List PidCall) : Pid := cs.foldl (fun pid c => c.apply pid) pid

/-- The output limit in force after some calls. -/
def limitInForce (outputLimit : ℚ) (cs : List PidCall) : ℚ :=
  cs.foldl PidCall.limitAfter outputLimit

theorem Bounded.after {integralLimit errorLimit outputLimit : ℚ} (hI : 0 < integralLimit)
    (hE : 0 < errorLimit) (hO : 0 < outputLimit) {pid : Pid}
    (h : pid.Bounded integralLimit errorLimit outputLimit) {cs : List PidCall}
    (hcs : ∀ c ∈ cs, c.Positive) :
    (pid.after cs).Bounded integralLimit errorLimit (limitInForce outputLimit cs) ∧
      0 < limitInForce outputLimit cs := by
  induction cs generalizing pid outputLimit with
  | nil => exact ⟨h, hO⟩
  | cons c cs ih =>
    obtain ⟨hc, hcs⟩ := List.forall_mem_cons.mp hcs
    exact ih (hc.limitAfter hO) (PidCall.bounded_apply hI hE h c) hcs

end Pid

/-- After any calls the integral and the error are within the limits of the init, and whatever
`stepper_pid_pos_calculate` measures then, its result is within the output limit in force. -/
theorem pid_bounded {integralLimit outputLimit errorLimit : ℚ} (hI : 0 < integralLimit)
    (hO : 0 < outputLimit) (hE : 0 < errorLimit) (kp ki kd : ℚ) (pid₀ : Pid) {cs : List PidCall}
    (hcs : ∀ c ∈ cs, c.Positive) :
    let inited := ((Pid.init kp ki kd integralLimit outputLimit errorLimit).exec PidAct.eff pid₀).2
    let pid := inited.after cs
    |pid.integralAcc| ≤ integralLimit ∧ |pid.err| ≤ errorLimit ∧
      ∀ actual, |((Pid.calculate actual).exec PidAct.eff pid).1| ≤
        Pid.limitInForce outputLimit cs := by
  intro inited pid
  have hzero : |(0 : ℚ)| = 0 := abs_zero
  have hinit : inited.Bounded integralLimit errorLimit outputLimit :=
    ⟨rfl, rfl, rfl, hzero.trans_le hI.le, hzero.trans_le hE.le⟩
  obtain ⟨h, hlimit⟩ := hinit.after hI hE hO hcs
  refine ⟨h.integral, h.err, fun actual => ?_⟩
  rw [Pid.exec_calculate]
  exact h.output_le hlimit actual

/-- The integral is set back under a gain of the other sign, and the limit is lowered. -/
theorem pid_bounded_retuned :
    let inited := ((Pid.init 2 1 0 100 50 30).exec PidAct.eff default).2
    let pid := inited.after [.setTarget 40, .calculate 38, .calculate 30, .setGains 2 (-3) 1,
      .setOutputLimit 10, .calculate 45]
    |pid.integralAcc| ≤ 100 ∧ |pid.err| ≤ 30 ∧
      ∀ actual, |((Pid.calculate actual).exec PidAct.eff pid).1| ≤ 10 :=
  pid_bounded (by norm_num) (by norm_num) (by norm_num) 2 1 0 default fun c hc => by
    fin_cases hc <;> trivial

end H750Stepper
