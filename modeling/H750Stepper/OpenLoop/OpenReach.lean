import H750Stepper.Lib.Erasure
import H750Stepper.OpenLoop.OpenBoard

/-!
# A commanded frequency is reached

`stepol` returns as soon as it has written the target; the control thread takes the frequency there,
`MAX_ACCEL` in each tick. Once the command has returned 0 the target stays what was asked for, until
the next line is typed (`Commanded`), and the ticks that follow are those of a controller that does
nothing but ramp (`Rolling`); time and pins do not change what they put out (`SameOutput`).

A tick that is under way when the command returns may have read the target before; so the ticks are
counted from a moment when the control thread is free.

`stepol_reaches`: after how many ticks the frequency is the one asked for, and what the driver has.
-/

namespace H750Stepper

open Threads CInt Ramp OpenShell

namespace OpenLoop

variable (cfg : OpenConfig)

/-- The frequency that a tick commands at the frequency `c`. -/
def output (c : ℚ) : ℕ := if c > 1 / 2 then toUInt32 c else 0

/-- What the ramp does to the motor. -/
theorem exec_advance_drv (s : OpenSys) :
    ((advance cfg).exec OpenAct.eff s).2.drv =
      ((Motor.setFrequency (output (toward cfg.maxAccel s.ol.targetFreq s.ol.currentFreq))).exec
        MotorAct.eff (s.drv.setDirectionSection s.ol.direction)).2 := by
  simp only [advance, advance.outputFreq, readCurrentFreq, readAccSteps, readDirection,
    Prog.ask_bind, exec_read, Prog.exec_bind, Prog.exec_perform, Prog.exec_ite, exec_drv,
    exec_ramp, Prog.pure_eq, Prog.exec_ret, OpenAct.eff, output]
  split_ifs <;> rfl

/-- A controller that ramps to the frequency `f`. -/
structure Rolling (f : ℚ) (s : OpenSys) : Prop where
  running : s.ol.running = true
  posMode : s.ol.posMode = false
  target : s.ol.targetFreq = f
  fault : s.drv.motor.faultState = .none

variable {cfg} {f : ℚ} {s : OpenSys}

theorem Rolling.exec_tick (h : Rolling f s) :
    (tick cfg).exec OpenAct.eff s = (advance cfg).exec OpenAct.eff s := by
  simp only [tick, readRunning, readPosMode, Prog.ask_bind, exec_read, if_pos, h.running,
    h.posMode, Bool.false_eq_true, if_false]

/-- A tick leaves the driver with the frequency it commands. -/
theorem Rolling.motor (h : Rolling f s) :
    let d := ((tick cfg).exec OpenAct.eff s).2.drv.motor
    d.currentFreq = (Motor.clampFreq (output (toward cfg.maxAccel f s.ol.currentFreq))).1 ∧
      d.faultState = .none := by
  have hfault : (s.drv.setDirectionSection s.ol.direction).motor.faultState = .none :=
    s.drv.stepsAccumulate_faultState.trans h.fault
  rw [h.exec_tick, exec_advance_drv, h.target, MotorSys.exec_setFrequency,
    if_neg fun hrefuse => hrefuse.2 hfault]
  obtain ⟨state, since, hmotor⟩ := (s.drv.setDirectionSection s.ol.direction).setFrequencySection_motor
    (Motor.clampFreq (output (toward cfg.maxAccel f s.ol.currentFreq))).1
  rw [hmotor]
  exact ⟨rfl, (MotorSys.stepsAccumulate_faultState _).trans hfault⟩

theorem Rolling.tick (h : Rolling f s) :
    Rolling f ((tick cfg).exec OpenAct.eff s).2 ∧
      ((tick cfg).exec OpenAct.eff s).2.ol.currentFreq =
        toward cfg.maxAccel f s.ol.currentFreq := by
  have hol : ((OpenLoop.tick cfg).exec OpenAct.eff s).2.ol = s.ol.advanced cfg f := by
    rw [h.exec_tick, exec_advance, h.target]
  refine ⟨⟨?_, ?_, ?_, h.motor.2⟩, ?_⟩ <;> rw [hol]
  · exact h.running
  · exact h.posMode
  · rfl
  · rfl

theorem Rolling.ticks (h : Rolling f s) (n : ℕ) :
    Rolling f (s.ticks cfg n) ∧
      (s.ticks cfg n).ol.currentFreq = (toward cfg.maxAccel f)^[n] s.ol.currentFreq := by
  induction n with
  | zero => exact ⟨h, rfl⟩
  | succ n ih =>
    unfold OpenSys.ticks at ih ⊢
    rw [Function.iterate_succ_apply', Function.iterate_succ_apply', ← ih.2]
    exact ih.1.tick

/-- What the driver has after some ticks. -/
theorem Rolling.ticks_motor (h : Rolling f s) {n : ℕ} (hn : 0 < n) :
    (s.ticks cfg n).drv.motor.currentFreq =
      (Motor.clampFreq (output (s.ticks cfg n).ol.currentFreq)).1 := by
  obtain ⟨n, rfl⟩ := Nat.exists_eq_succ_of_ne_zero hn.ne'
  obtain ⟨hrolling, hcur⟩ : Rolling f (s.ticks cfg n) ∧ _ := h.ticks n
  have hlast : ((OpenLoop.tick cfg).exec OpenAct.eff (s.ticks cfg n)).2.drv.motor.currentFreq = _ ∧
      _ := hrolling.motor
  rw [(h.ticks (n + 1)).2, Function.iterate_succ_apply', ← hcur]
  unfold OpenSys.ticks at hlast ⊢
  rw [Function.iterate_succ_apply']
  exact hlast.1

/-! ## What a tick sees -/

/-- The controller, the fault recorded and the frequency of the driver are the same. -/
structure SameOutput (s s' : OpenSys) : Prop where
  ol : s.ol = s'.ol
  fault : s.drv.motor.faultState = s'.drv.motor.faultState
  freq : s.drv.motor.currentFreq = s'.drv.motor.currentFreq

theorem sameOutput_equivalence : Equivalence SameOutput where
  refl _ := ⟨rfl, rfl, rfl⟩
  symm h := ⟨h.ol.symm, h.fault.symm, h.freq.symm⟩
  trans h h' := ⟨h.ol.trans h'.ol, h.fault.trans h'.fault, h.freq.trans h'.freq⟩

theorem even_field {l : OpenAct} (hl : ∀ a, l ≠ .drv a) : Even OpenAct.eff SameOutput l := by
  intro s s' h
  cases l with
  | drv a => exact absurd rfl (hl a)
  | read f => exact h
  | _ => exact ⟨by simp [OpenAct.eff, h.ol], h.fault, h.freq⟩

theorem even_setDirection (d : ℤ) :
    Even OpenAct.eff SameOutput (.drv (.setDirection d)) := fun s s' h =>
  ⟨h.ol, (s.drv.stepsAccumulate_faultState.trans h.fault).trans
      s'.drv.stepsAccumulate_faultState.symm,
    (s.drv.stepsAccumulate_currentFreq.trans h.freq).trans
      s'.drv.stepsAccumulate_currentFreq.symm⟩

theorem even_setFrequency (clamped : ℕ) :
    Even OpenAct.eff SameOutput (.drv (.setFrequency clamped)) := by
  intro s s' h
  obtain ⟨_, _, hs⟩ := s.drv.setFrequencySection_motor clamped
  obtain ⟨_, _, hs'⟩ := s'.drv.setFrequencySection_motor clamped
  have hfault : (s.drv.setFrequencySection clamped).motor.faultState =
      (s'.drv.setFrequencySection clamped).motor.faultState := by
    simp [hs, hs', h.fault]
  have hfreq : (s.drv.setFrequencySection clamped).motor.currentFreq =
      (s'.drv.setFrequencySection clamped).motor.currentFreq := by
    rw [hs, hs']
  exact ⟨h.ol, hfault, hfreq⟩

open Prog (respects_ret respects_perform respects_ask respects_ite respects_when)

theorem respects_setFrequency (freqHz : ℕ) :
    (drv (Motor.setFrequency freqHz)).Respects OpenAct.eff SameOutput := by
  have hwrite : (drv (do
      Prog.perform (.setFrequency (Motor.clampFreq freqHz).1)
      return (Motor.clampFreq freqHz).2)).Respects OpenAct.eff SameOutput :=
    (respects_perform (even_setFrequency _)).bind fun _ => respects_ret _
  unfold drv Motor.setFrequency
  rw [Prog.zoom_ite, Prog.zoom_bind]
  refine respects_ite ?_ hwrite
  refine (respects_ask (fun _ _ h => h) fun _ _ h => h.fault).bind fun _ => ?_
  rw [Prog.zoom_ite]
  exact respects_ite (respects_ret _) hwrite

/-- What a tick does depends on what it puts out only. -/
theorem respects_tick : (OpenLoop.tick cfg).Respects OpenAct.eff SameOutput := by
  have hread : ∀ {α : Type} (f : OpenField) {g : OpenLoop → α},
      (Prog.ask (.read f) fun s : OpenSys => g s.ol).Respects OpenAct.eff SameOutput :=
    fun f g => respects_ask (even_field nofun) fun _ _ h => congrArg g h.ol
  have hset : ∀ {l : OpenAct}, (∀ a, l ≠ .drv a) →
      (Prog.perform l : OpenProg Unit).Respects OpenAct.eff SameOutput :=
    fun hl => respects_perform (even_field hl)
  have hdecel : (decelPoint cfg).Respects OpenAct.eff SameOutput := by
    refine (hread _).bind fun _ => (hread _).bind fun _ => (hread _).bind fun _ => ?_
    refine (hread _).bind fun _ => (respects_when (hset (by nofun))).bind fun _ => ?_
    refine respects_ite ?_ (respects_ret _)
    refine (hset (by nofun)).bind fun _ => (hset (by nofun)).bind fun _ =>
      (hset (by nofun)).bind fun _ => ?_
    exact (respects_setFrequency 0).bind fun _ => respects_ret _
  have hramp : (ramp cfg).Respects OpenAct.eff SameOutput := by
    refine (hread _).bind fun _ => (hread _).bind fun _ => respects_ite ?_ (respects_ite ?_ ?_)
    all_goals exact (hread _).bind fun _ => hset (by nofun)
  have hadvance : (advance cfg).Respects OpenAct.eff SameOutput := by
    refine hramp.bind fun _ => (hread _).bind fun _ => (hread _).bind fun _ => ?_
    refine (hset (by nofun)).bind fun _ => (hread _).bind fun d => ?_
    refine (respects_perform (even_setDirection d)).bind fun _ => ?_
    refine Prog.Respects.bind ?_ fun f => (respects_setFrequency f).bind fun _ => respects_ret _
    refine (hread _).bind fun _ => respects_ite ?_ (respects_ret _)
    exact (hread _).bind fun _ => respects_ret _
  refine (hread _).bind fun _ => respects_ite ?_ ((hset (by nofun)).bind fun _ => hset (by nofun))
  refine (hread _).bind fun _ => respects_ite ?_ hadvance
  exact hdecel.bind fun _ => respects_ite (respects_ret _) hadvance

end OpenLoop

namespace OpenShell

open Prog (Outline)

/-! ## The command -/

variable {lib : Shell.CLib} {timClk : ℕ} {T f : ℚ}

theorem AsksAtMost.mono {U : ℚ} (h : T ≤ U) {e : Event OpenThread OpenLine OpenEnv}
    (he : AsksAtMost lib T e) : AsksAtMost lib U e := by
  cases e with
  | step t => trivial
  | env e => trivial
  | call t c =>
    cases t with
    | control => trivial
    | shell =>
      cases c with
      | stepol argv => exact le_trans he h
      | stepolDir argv => trivial

/-- The requests of a run have a bound. -/
theorem exists_asksAtMost (es : List (Event OpenThread OpenLine OpenEnv)) :
    ∃ T, ∀ e ∈ es, AsksAtMost lib T e := by
  induction es with
  | nil => exact ⟨0, fun e he => absurd he List.not_mem_nil⟩
  | cons e es ih =>
    obtain ⟨T, hT⟩ := ih
    obtain ⟨U, hU⟩ : ∃ U, AsksAtMost lib U e := by
      cases e with
      | step t => exact ⟨0, trivial⟩
      | env e => exact ⟨0, trivial⟩
      | call t c =>
        cases t with
        | control => exact ⟨0, trivial⟩
        | shell =>
          cases c with
          | stepol argv => exact ⟨_, le_rfl⟩
          | stepolDir argv => exact ⟨0, trivial⟩
    refine ⟨max T U, List.forall_mem_cons.mpr ⟨hU.mono (le_max_right _ _), fun e' he' => ?_⟩⟩
    exact (hT e' he').mono (le_max_left _ _)

/-- The command that asks for `f` is under way, or has returned. -/
def Asked (lib : Shell.CLib) (timClk : ℕ) (T f : ℚ) (p : Pool OpenThread OpenShellAct OpenShell ℤ) :
    Prop :=
  SanePool lib timClk T p ∧ (p.thr .shell).Outline OpenShellAct.eff (Relies .shell)
    (fun _ s => Sane T s) (Allowed T .shell) (fun ret s => ret = 0 → Commanded f s) p.st

theorem Asked.next {p : Pool OpenThread OpenShellAct OpenShell ℤ} (hp : Asked lib timClk T f p)
    {e : Event OpenThread OpenLine OpenEnv} (he : ∀ c, e ≠ .call .shell c) :
    Asked lib timClk T f ((openBoard lib timClk).next p e) := by
  obtain ⟨hsane, hout⟩ := hp
  refine ⟨hsane.next e ?_, Machine.outline_kept (M := openBoard lib timClk) ?_ hout e ?_⟩
  · cases e with
    | call t c =>
      cases t with
      | shell => exact absurd rfl (he c)
      | control => trivial
    | step t => trivial
    | env e => trivial
  · exact fun ret s s' hs h hret => Commanded.stable f s s' hs (h hret)
  · cases e with
    | call t c =>
      rintro rfl
      exact he c rfl
    | env e => exact keeps_env _ e _
    | step t =>
      refine ⟨fun _ _ _ => hsane.1, fun ht => ?_⟩
      refine Machine.st_next (I := Keeps (Relies .shell) p.st) (Keeps.refl _ _) (.step t)
        fun l hl => ?_
      exact Allowed.keeps ht.symm ((hsane.2 t l hl).step hl hsane.1).1

theorem Asked.run {p : Pool OpenThread OpenShellAct OpenShell ℤ} (hp : Asked lib timClk T f p)
    {es : List (Event OpenThread OpenLine OpenEnv)} (hes : ∀ c, .call .shell c ∉ es) :
    Asked lib timClk T f ((openBoard lib timClk).run p es) := by
  induction es generalizing p with
  | nil => exact hp
  | cons e es ih =>
    refine ih (hp.next fun c hc => hes c ?_) fun c hc => hes c (List.mem_cons_of_mem _ hc)
    exact hc ▸ List.mem_cons_self

theorem Asked.rolling {p : Pool OpenThread OpenShellAct OpenShell ℤ} (hp : Asked lib timClk T f p)
    (hret : p.thr .shell = .ret 0) : OpenLoop.Rolling f p.st.sys := by
  obtain ⟨hsane, hout⟩ := hp
  rw [hret] at hout
  have hcommanded : Commanded f p.st := hout rfl
  exact ⟨hcommanded.running, hsane.1.posMode, hcommanded.target, hsane.1.fault⟩

/-! ## The ticks that follow -/

/-- What a tick does to the state of the file. -/
def tickSys (s : OpenShell) : OpenShell :=
  { s with sys := ((OpenLoop.tick config).exec OpenAct.eff s.sys).2 }

theorem sys_iterate_tickSys (n : ℕ) (s : OpenShell) :
    (tickSys^[n] s).sys = s.sys.ticks config n := by
  unfold OpenSys.ticks
  induction n generalizing s with
  | zero => rfl
  | succ n ih => exact ih (tickSys s)

theorem exec_onLoop {α : Type} (p : OpenProg α) (s : OpenShell) :
    (onLoop p).exec OpenShellAct.eff s =
      ((p.exec OpenAct.eff s.sys).1, { s with sys := (p.exec OpenAct.eff s.sys).2 }) :=
  Prog.exec_zoom OpenAct.eff (fun x (s : OpenShell) => { s with sys := x }) (fun _ _ => rfl)
    (fun _ _ => rfl) (fun _ => rfl) (fun _ _ _ => rfl) p s

/-- While no line is typed, what the board puts out is what the ticks put out that the control thread
has taken. -/
theorem sameOutput_ticks {p : Pool OpenThread OpenShellAct OpenShell ℤ}
    (hshell : (p.thr .shell).head = none) (hcontrol : (p.thr .control).head = none)
    {es : List (Event OpenThread OpenLine OpenEnv)} (hes : ∀ c, .call .shell c ∉ es)
    (hfree : (((openBoard lib timClk).run p es).thr .control).head = none) :
    OpenLoop.SameOutput ((openBoard lib timClk).run p es).st.sys
      (p.st.sys.ticks config ((openBoard lib timClk).taken .control p es)) := by
  set M := openBoard lib timClk with hM
  let R (s s' : OpenShell) : Prop := OpenLoop.SameOutput s.sys s'.sys
  have hR : Equivalence R := ⟨fun _ => OpenLoop.sameOutput_equivalence.refl _,
    OpenLoop.sameOutput_equivalence.symm, OpenLoop.sameOutput_equivalence.trans⟩
  have henv : ∀ e, Unseen M.env R e := by
    rintro (e | ⟨step, ret⟩) s s' h
    · cases e <;> exact ⟨h.ol, h.fault, h.freq⟩
    · exact h
  have htick : (OpenLoop.tick config).Respects OpenAct.eff OpenLoop.SameOutput :=
    OpenLoop.respects_tick
  have hcode : ∀ c, (M.code .control c).Respects M.eff R := fun c =>
    Prog.Respects.bind (Prog.Matches.zoom htick fun _ _ => rfl) fun _ => Prog.respects_ret _
  have hround : ∀ s s', R s s' → R (tickSys s) (tickSys s') := fun s s' h =>
    Prog.Matches.exec htick h
  have hexec : ∀ c s, ((M.code .control c).exec M.eff s).2 = tickSys s := fun c s => by
    show ((onLoop _ >>= _).exec OpenShellAct.eff s).2 = _
    rw [Prog.exec_bind, exec_onLoop]
    rfl
  obtain ⟨r, hr⟩ := Prog.exists_of_head_eq_none hcontrol
  obtain ⟨r', hr'⟩ := Prog.exists_of_head_eq_none hfree
  have hcalls : ∀ u c, .call u c ∈ es → u = .control := by
    rintro (_ | _) c hc
    · exact absurd hc (hes c)
    · rfl
  have hothers : ∀ u ≠ .control, (p.thr u).head = none := by
    rintro (_ | _) hu
    · exact hshell
    · exact absurd rfl hu
  have hleft : (p.thr .control).Respects M.eff R := by
    rw [hr]
    exact Prog.respects_ret r
  have hrounds := Machine.run_rounds hR henv hcode hround hexec hcalls hleft hothers
  rw [hr, hr', Prog.exec_ret, Prog.exec_ret] at hrounds
  rw [← sys_iterate_tickSys]
  exact hrounds

end OpenShell

/-- **A commanded frequency is reached.** After any run the line `stepol f` is typed at a free shell,
and with the ticks and the environment going on it returns 0. From the next moment on at which the
control thread is free, and with no further line, the frequency is `f` after `n` ticks exactly if
`n` steps of `MAX_ACCEL` cover the way there; and the driver has the frequency that the ramp has then
come to, brought into its range, or 0 for one that is not positive. -/
theorem stepol_reaches (lib : Shell.CLib) (timClk : ℕ) (answer : OpenInitStep → ℤ)
    (es es' es'' : List (Event OpenThread OpenLine OpenEnv)) (argv : Shell.Argv)
    (hargs : 2 ≤ argv.length) (hf : lib.atof (argv.arg 1) ≠ 0) (hes' : ∀ c, .call .shell c ∉ es')
    (hes'' : ∀ c, .call .shell c ∉ es'') :
    let M := openBoard lib timClk
    let p₀ := M.run (.idle (boot answer) 0) es
    let p := M.run p₀ (.call .shell (.stepol argv) :: es')
    let q := M.run p es''
    let f := lib.atof (argv.arg 1)
    let n := M.taken .control p es''
    (p₀.thr .shell).head = none → p.thr .shell = .ret 0 → (p.thr .control).head = none →
    (q.thr .control).head = none → 0 < n →
      (q.st.sys.ol.currentFreq = f ↔ |f - p.st.sys.ol.currentFreq| ≤ n * maxAccel) ∧
        q.st.sys.drv.motor.currentFreq =
          (Motor.clampFreq (OpenLoop.output q.st.sys.ol.currentFreq)).1 := by
  intro M p₀ p q f n hfree hret hcontrol hdone hn
  obtain ⟨T, hT⟩ : ∃ T, ∀ e ∈ Event.call .shell (.stepol argv) :: es, AsksAtMost lib T e :=
    exists_asksAtMost _
  obtain ⟨hline, hT⟩ := List.forall_mem_cons.mp hT
  have hsane : SanePool lib timClk T p₀ := (sanePool_boot answer).run hT
  obtain ⟨ret, hidle⟩ := Prog.exists_of_head_eq_none hfree
  have hasked : Asked lib timClk T f (M.next p₀ (.call .shell (.stepol argv))) := by
    refine ⟨hsane.next _ hline, ?_⟩
    rw [Machine.next_call_of_ret _ hidle]
    simp only [Function.update_self]
    exact (runs_stepol lib timClk hline _ trivial).mono fun ret s h => h hargs hf
  have hafter : Asked lib timClk T f p := hasked.run hes'
  have hrolling : OpenLoop.Rolling f p.st.sys := hafter.rolling hret
  have hsame : OpenLoop.SameOutput q.st.sys (p.st.sys.ticks config n) :=
    sameOutput_ticks (by rw [hret]; rfl) hcontrol hes'' hdone
  rw [hsame.freq, hsame.ol]
  refine ⟨?_, hrolling.ticks_motor hn⟩
  rw [(hrolling.ticks n).2]
  exact iterate_toward_eq_iff maxAccel_nonneg _ _ _

/-- A tick, while time passes. -/
def openTick : List (Event OpenThread OpenLine OpenEnv) :=
  .call .control (.stepol []) :: .env (.motor (.elapse 20)) :: List.replicate 15 (.step .control)

/-- The motor is asked for its state first. A tick is under way when the command returns, and ends;
four more follow it. -/
theorem stepol_reaches_thousand :
    let lib : Shell.CLib := ⟨fun _ => 0, fun _ => 0, fun _ => 1000⟩
    let es := Event.call (E := OpenEnv) .shell (.stepol ["stepol"]) ::
      List.replicate 5 (.step .shell)
    let es' := List.replicate 12 (.step .shell) ++
      .call .control (.stepol []) :: List.replicate 8 (.step .control) ++
      .env (.motor (.elapse 3)) :: List.replicate 10 (.step .shell) ++
      List.replicate 10 (.step .control)
    let M := openBoard lib 200000000
    let p := M.run (M.run (.idle (boot fun _ => 0) 0) es)
      (.call .shell (.stepol ["stepol", "1000"]) :: es')
    let q := M.run p (List.replicate 4 openTick).flatten
    q.st.sys.ol.currentFreq = 1000 ∧ q.st.sys.drv.motor.currentFreq = 1000 := by
  intro lib es es' M p q
  have hf : lib.atof (Shell.Argv.arg ["stepol", "1000"] 1) = 1000 := rfl
  have hstart : p.st.sys.ol.currentFreq = 200 := by decide +kernel
  have htaken : M.taken .control p (List.replicate 4 openTick).flatten = 4 := by decide +kernel
  have hreaches := stepol_reaches lib 200000000 (fun _ => 0) es es'
    (List.replicate 4 openTick).flatten ["stepol", "1000"] (by decide) (by decide +kernel)
    (by simp [es']) (by simp [openTick]) (by decide +kernel)
    (Prog.eq_ret_of_value? (by decide +kernel)) (by decide +kernel) (by decide +kernel)
    (by decide +kernel)
  rw [hf] at hreaches
  have hcur := hreaches.1.mpr (by
    rw [hstart, htaken]
    norm_num [maxAccel])
  have hdrv := hreaches.2
  rw [hcur] at hdrv
  -- the run is not to be unfolded
  with_reducible exact ⟨hcur, hdrv.trans (by decide +kernel)⟩

end H750Stepper
