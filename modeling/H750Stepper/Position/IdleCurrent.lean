import H750Stepper.Position.Output

/-!
# The idle current of a position loop

`idle_tick` releases the EN pin of a motor that has been stopped for the idle timeout, by the time
since `idle_since`. But each tick of the loop calls `set_frequency` after `idle_tick`, and a
`set_frequency(0)` sets `idle_since` also for a motor that is stopped already. So the time that an
idle tick measures is the one since the tick before (`StandsSince`), however long the motor has been
commanded to stand (`idle_release_iff`).
-/

namespace H750Stepper

open Threads CInt

/-! ## The driver -/

namespace MotorSys

/-- The idle tick of a driver releases the EN pin. -/
def ReleasesEn (d : MotorSys) : Prop :=
  .releaseEn ∈ (Motor.idleTick.trace MotorAct.eff d).map Prod.fst

instance (d : MotorSys) : Decidable d.ReleasesEn := by unfold ReleasesEn; infer_instance

/-- The motor is stopped, and its idle time counts from the tick `last`. -/
structure StandsSince (timeoutMs last : ℕ) (d : MotorSys) : Prop where
  idleReduce : d.motor.idleReduce = true
  stopped : d.motor.running = false
  idleSince : d.motor.idleSince = last % 2 ^ 32
  idleTimeoutMs : d.motor.idleTimeoutMs = timeoutMs
  later : last ≤ d.clock

variable {timeoutMs last : ℕ} {d : MotorSys}

theorem StandsSince.idleExpired_iff (h : d.StandsSince timeoutMs last) :
    d.IdleExpired ↔ rtTickFromMillisecond timeoutMs ≤ (d.clock - last) % 2 ^ 32 := by
  have hlater := h.later
  have helapsed : uwrap 32 ((d.rtTickGet : ℤ) - d.motor.idleSince) = (d.clock - last) % 2 ^ 32 := by
    unfold uwrap rtTickGet
    rw [h.idleSince]
    omega
  unfold IdleExpired
  rw [helapsed, h.idleTimeoutMs]

theorem StandsSince.not_skipped (h : d.StandsSince timeoutMs last) :
    ¬(!d.motor.idleReduce || d.motor.running) = true := by
  rw [h.idleReduce, h.stopped]
  decide

theorem StandsSince.releasesEn_iff (h : d.StandsSince timeoutMs last) :
    d.ReleasesEn ↔ rtTickFromMillisecond timeoutMs ≤ (d.clock - last) % 2 ^ 32 := by
  rw [← h.idleExpired_iff]
  unfold ReleasesEn Motor.idleTick
  rw [Prog.ask_bind, Prog.trace]
  show _ ∈ List.map _ (_ :: Prog.trace _
    (if (!d.motor.idleReduce || d.motor.running) = true then _ else _) d) ↔ _
  rw [if_neg h.not_skipped, Prog.ask_bind, Prog.trace, Prog.ask_bind, Prog.trace]
  show _ ∈ List.map _ (_ :: _ :: _ :: Prog.trace _ (if d.IdleExpired then _ else _) d) ↔ _
  by_cases hover : d.IdleExpired
  · rw [if_pos hover]
    exact iff_of_true (by simp [Prog.perform, Prog.trace]) hover
  · rw [if_neg hover]
    exact iff_of_false (by simp [Prog.trace]) hover

/-- The pin after the idle tick. -/
theorem StandsSince.dozed_en (h : d.StandsSince timeoutMs last) :
    d.dozed.en = false ↔
      d.en = false ∨ rtTickFromMillisecond timeoutMs ≤ (d.clock - last) % 2 ^ 32 := by
  unfold dozed
  rw [exec_idleTick, if_neg h.not_skipped, ← h.idleExpired_iff]
  by_cases hover : d.IdleExpired
  · rw [if_pos hover]
    exact iff_of_true rfl (.inr hover)
  · rw [if_neg hover]
    exact ⟨.inl, fun h => h.resolve_right hover⟩

/-- A driver whose idle tick has been run keeps everything but the pin. -/
theorem dozed_frame (d : MotorSys) : ∃ en, d.dozed = { d with en } := by
  unfold dozed
  rw [exec_idleTick]
  split_ifs
  · exact ⟨d.en, rfl⟩
  · exact ⟨false, rfl⟩
  · exact ⟨d.en, rfl⟩

/-- A fault check that finds no fault may clear `fault_state`. -/
theorem checked_frame (h : ¬d.Faulty) :
    ∃ faultState, d.checked = { d with motor.faultState := faultState } := by
  unfold Faulty at h
  unfold checked
  rw [exec_checkFault] at h ⊢
  split_ifs at h ⊢
  · exact ⟨d.motor.faultState, rfl⟩
  · exact ⟨.none, rfl⟩
  · exact absurd rfl h
  · exact absurd rfl h

theorem setDirectionSection_frame (direction : ℤ) (d : MotorSys) : ∃ total last level,
    d.setDirectionSection direction =
      { d with
        motor := { d.motor with
          totalSteps := total, lastTick := last, currentDir := wrap 8 direction }
        dir := level } := by
  obtain ⟨total, last, h⟩ := d.stepsAccumulate_frame
  unfold setDirectionSection
  dsimp only
  rw [h]
  exact ⟨total, last, _, rfl⟩

/-- A frequency of 0 stops the motor, and the idle time counts from then on. -/
theorem setFrequencySection_zero_frame (d : MotorSys) : ∃ total last,
    d.setFrequencySection 0 =
      { d with
        tim.oc := false
        motor := { d.motor with
          totalSteps := total, lastTick := last, running := false, currentFreq := 0
          state := .idle, idleSince := d.rtTickGet } } := by
  obtain ⟨total, last, h⟩ := d.stepsAccumulate_frame
  unfold setFrequencySection
  dsimp only
  rw [if_pos rfl, h]
  exact ⟨total, last, rfl⟩

/-- The command to stand. -/
theorem obey_stand (hreduce : d.motor.idleReduce = true) {c : Command} (hc : c.freqHz = 0) :
    (d.obey c).StandsSince d.motor.idleTimeoutMs d.clock ∧ (d.obey c).en = d.en ∧
      (d.obey c).clock = d.clock := by
  obtain ⟨total, last, level, hdir⟩ := setDirectionSection_frame c.dir d
  obtain ⟨total', last', hfreq⟩ := setFrequencySection_zero_frame (d.setDirectionSection c.dir)
  have hobey : d.obey c = (d.setDirectionSection c.dir).setFrequencySection 0 := by
    unfold obey
    rw [exec_setFrequency, hc]
    exact if_neg fun h => absurd h.1 (by decide)
  rw [hobey, hfreq, hdir]
  exact ⟨⟨hreduce, rfl, rfl, rfl, le_rfl⟩, rfl, rfl⟩

end MotorSys

/-! ## A loop that stands -/

/-- The step does not stop the loop. If it is a tick, it regulates and commands the frequency 0. -/
def PosOp.StandsStill (cfg : PosConfig) (sqrtf : ℚ → ℚ) (s : PosSys) (op : PosOp) : Prop :=
  op ≠ .stop ∧ (op = .tick → s.Regulates) ∧ op.Quiet cfg sqrtf s

instance (cfg : PosConfig) (sqrtf : ℚ → ℚ) (s : PosSys) (op : PosOp) :
    Decidable (op.StandsStill cfg sqrtf s) := by
  unfold PosOp.StandsStill PosOp.Quiet
  infer_instance

section

variable {cfg : PosConfig} {sqrtf : ℚ → ℚ} {s : PosSys}

/-- What a tick that commands the motor to stand does to the driver. -/
theorem drv_tick (hreg : s.Regulates) (hquiet : PosOp.tick.Quiet cfg sqrtf s) :
    ∃ c : Command, c.freqHz = 0 ∧
      (PosOp.tick.apply cfg sqrtf s).drv = s.drv.checked.dozed.obey c := by
  have hcommand : PosOp.tick.command cfg sqrtf s =
      some (PosOp.tick.apply cfg sqrtf s).pl.command := if_pos ⟨rfl, hreg⟩
  refine ⟨_, hquiet _ hcommand, ?_⟩
  have hfault : ¬(s.sensed cfg).drv.Faulty := hreg.2
  rw [PosOp.apply_tick]
  unfold PosSys.ticked
  rw [if_pos hreg.1, if_neg hfault]
  rfl

/-- A running loop whose motor stands since the tick `last`. -/
structure PosSys.StandsSince (timeoutMs last : ℕ) (s : PosSys) : Prop where
  running : s.pl.running = true
  drv : s.drv.StandsSince timeoutMs last

variable {timeoutMs last : ℕ}

theorem PosSys.StandsSince.checked (h : s.StandsSince timeoutMs last) (hreg : s.Regulates) :
    s.drv.checked.StandsSince timeoutMs last ∧ s.drv.checked.en = s.drv.en ∧
      s.drv.checked.clock = s.drv.clock := by
  obtain ⟨faultState, hcheck⟩ := MotorSys.checked_frame hreg.2
  rw [hcheck]
  obtain ⟨h₁, h₂, h₃, h₄, h₅⟩ := h.drv
  exact ⟨⟨h₁, h₂, h₃, h₄, h₅⟩, rfl, rfl⟩

/-- A tick that commands the motor to stand starts the idle time anew, after an idle tick that has
measured the time since the tick before. -/
theorem standsSince_tick (hreduce : s.drv.motor.idleReduce = true) (hreg : s.Regulates)
    (hquiet : PosOp.tick.Quiet cfg sqrtf s) :
    (PosOp.tick.apply cfg sqrtf s).StandsSince s.drv.motor.idleTimeoutMs s.drv.clock ∧
      (PosOp.tick.apply cfg sqrtf s).drv.en = s.drv.checked.dozed.en := by
  obtain ⟨c, hc, hdrv⟩ := drv_tick hreg hquiet
  obtain ⟨faultState, hcheck⟩ := MotorSys.checked_frame hreg.2
  obtain ⟨en, hdoze⟩ := MotorSys.dozed_frame s.drv.checked
  have hstand := MotorSys.obey_stand (d := s.drv.checked.dozed)
    (by rw [hdoze, hcheck]; exact hreduce) hc
  have hclock : s.drv.checked.dozed.clock = s.drv.clock := by
    rw [hdoze, hcheck]
  have htimeout : s.drv.checked.dozed.motor.idleTimeoutMs = s.drv.motor.idleTimeoutMs := by
    rw [hdoze, hcheck]
  rw [hclock, htimeout] at hstand
  refine ⟨⟨?_, ?_⟩, ?_⟩
  · rw [PosOp.apply_tick]
    exact PosSys.ticked_running cfg sqrtf hreg
  · rw [hdrv]
    exact hstand.1
  · rw [hdrv]
    exact hstand.2.1

/-- Nothing but a tick touches the motor of a running loop. -/
theorem PosSys.StandsSince.apply (cfg : PosConfig) (sqrtf : ℚ → ℚ)
    (h : s.StandsSince timeoutMs last) {op : PosOp} (hstop : op ≠ .stop) (htick : op ≠ .tick) :
    (op.apply cfg sqrtf s).StandsSince timeoutMs last ∧
      (op.apply cfg sqrtf s).drv.en = s.drv.en := by
  cases op with
  | stop => exact absurd rfl hstop
  | tick => exact absurd rfl htick
  | start =>
    rw [PosOp.apply_start, if_pos h.running]
    exact ⟨h, rfl⟩
  | setTarget target =>
    rw [PosOp.apply_setTarget]
    unfold PosSys.retargeted
    split_ifs
    · exact ⟨⟨h.running, h.drv⟩, rfl⟩
    · exact ⟨⟨h.running, h.drv⟩, rfl⟩
    · exact ⟨h, rfl⟩
  | encoder enc => exact ⟨⟨h.running, h.drv⟩, rfl⟩
  | driver e =>
    obtain ⟨h₁, h₂, h₃, h₄, h₅⟩ := h.drv
    cases e with
    | elapse n => exact ⟨⟨h.running, h₁, h₂, h₃, h₄, h₅.trans (Nat.le_add_right _ _)⟩, rfl⟩
    | level pin high => exact ⟨⟨h.running, h₁, h₂, h₃, h₄, h₅⟩, rfl⟩

end

/-! ## Runs -/

/-- The times from one tick of a run to the next, the first counted from the tick `last`, and the
last up to the end of the run. -/
def tickGaps (cfg : PosConfig) (sqrtf : ℚ → ℚ) (last : ℕ) (s : PosSys) : List PosOp → List ℕ
  | [] => [s.drv.clock - last]
  | op :: ops =>
    let s' := op.apply cfg sqrtf s
    if op = .tick then (s.drv.clock - last) :: tickGaps cfg sqrtf s.drv.clock s' ops
    else tickGaps cfg sqrtf last s' ops

section

variable (cfg : PosConfig) (sqrtf : ℚ → ℚ) (last : ℕ) (s : PosSys) (ops : List PosOp)

theorem tickGaps_tick : tickGaps cfg sqrtf last s (.tick :: ops) =
    (s.drv.clock - last) :: tickGaps cfg sqrtf s.drv.clock (PosOp.tick.apply cfg sqrtf s) ops := by
  rw [tickGaps, if_pos rfl]

theorem tickGaps_of_ne {op : PosOp} (h : op ≠ .tick) : tickGaps cfg sqrtf last s (op :: ops) =
    tickGaps cfg sqrtf last (op.apply cfg sqrtf s) ops := if_neg h

end

/-- The induction over a run: the idle tick at its end measures the last gap, and the pin is LOW if
one of the idle ticks has measured enough. -/
theorem PosSys.StandsSince.run {cfg : PosConfig} {sqrtf : ℚ → ℚ} {timeoutMs last : ℕ} {s : PosSys}
    (h : s.StandsSince timeoutMs last) {ops : List PosOp}
    (hops : ∀ x ∈ history (PosOp.apply cfg sqrtf) s ops, x.2.StandsStill cfg sqrtf x.1) :
    let s' := ops.foldl (PosOp.apply cfg sqrtf) s
    let gaps := tickGaps cfg sqrtf last s ops
    s'.Regulates → ∃ gs g, gaps = gs ++ [g] ∧
      (s'.drv.checked.ReleasesEn ↔ rtTickFromMillisecond timeoutMs ≤ g % 2 ^ 32) ∧
      (s'.drv.checked.dozed.en = false ↔
        s.drv.en = false ∨ ∃ g ∈ gaps, rtTickFromMillisecond timeoutMs ≤ g % 2 ^ 32) := by
  induction ops generalizing s last with
  | nil =>
    intro s' gaps hreg
    obtain ⟨hchecked, hen, hclock⟩ := h.checked hreg
    have hrelease := hchecked.releasesEn_iff
    have hdozed := hchecked.dozed_en
    rw [hclock] at hrelease hdozed
    rw [hen] at hdozed
    refine ⟨[], s.drv.clock - last, rfl, hrelease, hdozed.trans ?_⟩
    simp [gaps, tickGaps]
  | cons op ops ih =>
    intro s' gaps hreg
    obtain ⟨⟨hstop, hregulates, hquiet⟩, hrest⟩ := List.forall_mem_cons.mp hops
    by_cases htick : op = .tick
    · subst htick
      have hgaps := tickGaps_tick cfg sqrtf last s ops
      obtain ⟨hchecked, hen, hclock⟩ := h.checked (hregulates rfl)
      have hdozed := hchecked.dozed_en
      rw [hclock, hen] at hdozed
      obtain ⟨hstand, hpin⟩ := standsSince_tick h.drv.idleReduce (hregulates rfl) hquiet
      rw [h.drv.idleTimeoutMs] at hstand
      obtain ⟨gs, g, hsplit, hrelease, hlow⟩ := ih hstand hrest hreg
      refine ⟨(s.drv.clock - last) :: gs, g, ?_, hrelease, hlow.trans ?_⟩
      · rw [List.cons_append, ← hsplit]
        exact hgaps
      · show _ ↔ _ ∨ ∃ g ∈ tickGaps cfg sqrtf last s (.tick :: ops), _
        rw [hpin, hdozed, hgaps, or_assoc, List.exists_mem_cons_iff]
    · have hgaps := tickGaps_of_ne cfg sqrtf last s ops htick
      obtain ⟨hstand, hpin⟩ := h.apply cfg sqrtf hstop htick
      obtain ⟨gs, g, hsplit, hrelease, hlow⟩ := ih hstand hrest hreg
      refine ⟨gs, g, hgaps.trans hsplit, hrelease, hlow.trans ?_⟩
      show _ ↔ _ ∨ ∃ g ∈ tickGaps cfg sqrtf last s (op :: ops), _
      rw [hpin, hgaps]

/-- **Idle current.** A running loop with idle reduction commands the motor to stand at every tick
of a run, and has another tick at its end. The idle tick there releases the EN pin exactly if the
time since the last tick of the run is at least the idle timeout; the pin is LOW then exactly if it
was after the first tick, or if some tick has come as late after the one before. -/
theorem idle_release_iff (cfg : PosConfig) (sqrtf : ℚ → ℚ) (s₀ : PosSys)
    (hon : s₀.drv.motor.idleReduce = true) (ops : List PosOp)
    (hstand : ∀ x ∈ history (PosOp.apply cfg sqrtf) s₀ (.tick :: ops),
      x.2.StandsStill cfg sqrtf x.1) :
    let s₁ := PosOp.tick.apply cfg sqrtf s₀
    let s := ops.foldl (PosOp.apply cfg sqrtf) s₁
    let timeout := rtTickFromMillisecond s₀.drv.motor.idleTimeoutMs
    let gaps := tickGaps cfg sqrtf s₀.drv.clock s₁ ops
    s.Regulates → ∃ gs g, gaps = gs ++ [g] ∧
      (s.drv.checked.ReleasesEn ↔ timeout ≤ g % 2 ^ 32) ∧
      (s.drv.checked.dozed.en = false ↔
        s₁.drv.en = false ∨ ∃ g ∈ gaps, timeout ≤ g % 2 ^ 32) := by
  intro s₁ s timeout gaps hreg
  obtain ⟨⟨-, hregulates, hquiet⟩, hrest⟩ := List.forall_mem_cons.mp hstand
  exact (standsSince_tick hon (hregulates rfl) hquiet).1.run hrest hreg

/-- A loop with an idle timeout of 50 ms, at its target since its start. -/
def idling : PosSys :=
  PosOp.start.apply (posConfig0 100) (fun x => x)
    { restingPos with
      drv := ((Motor.setIdleReduce true 50).exec MotorAct.eff restingPos.drv).2 }

/-- A tick that comes 60 ms after the one before finds the idle time over. -/
theorem idle_release_late :
    let s₁ := PosOp.tick.apply (posConfig0 100) (fun x => x) idling
    let s := [.driver (.elapse 20), .tick, .driver (.elapse 60)].foldl
      (PosOp.apply (posConfig0 100) fun x => x) s₁
    s.drv.checked.dozed.en = false := by
  intro s₁ s
  have hreg : s.Regulates := by decide +kernel
  obtain ⟨-, -, -, -, hlow⟩ := idle_release_iff (posConfig0 100) (fun x => x) idling
    (by decide +kernel) [.driver (.elapse 20), .tick, .driver (.elapse 60)] (by decide +kernel) hreg
  refine hlow.mpr (.inr ⟨60, ?_, ?_⟩) <;> decide +kernel

/-- With a tick every 20 ms the pin is still HIGH after 120 ms. -/
theorem idle_not_released :
    let ops : List PosOp := [.tick, .driver (.elapse 20), .tick, .driver (.elapse 20), .tick,
      .driver (.elapse 20), .tick, .driver (.elapse 20), .tick, .driver (.elapse 20), .tick,
      .driver (.elapse 20)]
    let s := ops.foldl (PosOp.apply (posConfig0 100) fun x => x) idling
    (∀ x ∈ history (PosOp.apply (posConfig0 100) fun x => x) idling ops,
        x.2.StandsStill (posConfig0 100) (fun x => x) x.1) ∧
      s.Regulates ∧ s.drv.motor.idleReduce = true ∧ s.drv.motor.idleTimeoutMs = 50 ∧
      s.drv.clock - idling.drv.clock = 120 ∧ ¬s.drv.checked.ReleasesEn ∧
      s.drv.checked.dozed.en = true := by
  refine ⟨?_, ?_, ?_, ?_, ?_, ?_, ?_⟩ <;> decide +kernel

end H750Stepper
