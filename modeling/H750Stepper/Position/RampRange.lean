import H750Stepper.Position.Notes

/-!
# Ranges of the positions

What bounds the positions of a position loop while several threads run. Target and motor are within
the range of the soft limits and of the encoder readings at any time. The ramp is not: the control
thread moves it, and the calls put it somewhere in that range between any two actions of a tick.

`RampRange` is what the control thread knows of the ramp and of its speed, whatever the calls do.
The triples at the end are those of single actions, of the control thread and of the calls.
-/

namespace H750Stepper

open Threads CInt

/-! ## Bounds on the parameters -/

/-- The ramp moves by no more than `2 ^ 29` counts in a period, which is not zero, and the threshold
is an `int`. -/
structure PosConfig.Ranged (cfg : PosConfig) : Prop where
  freq_pos : 0 < cfg.freqHz
  freq_lt : cfg.freqHz < 2 ^ 32
  ramp : |cfg.rampMaxSpeed| / cfg.freqHz ≤ 2 ^ 29
  threshold : Fits 32 (trunc cfg.moveThreshold)

/-- What a speed of the ramp moves it in one period. -/
theorem PosConfig.Ranged.abs_div_le {cfg : PosConfig} (h : cfg.Ranged) {v : ℚ}
    (hv : |v| ≤ |cfg.rampMaxSpeed|) : |v / cfg.freqHz| ≤ 2 ^ 29 := by
  rw [abs_div, Nat.abs_cast]
  exact (div_le_div_of_nonneg_right hv (Nat.cast_nonneg _)).trans h.ramp

/-- A bound on the frequency that a tick puts out. A negative limit replaces it altogether. -/
def PosConfig.outputBound (cfg : PosConfig) : ℚ :=
  max 500 (if 0 ≤ cfg.speedLimit then min cfg.speedLimit (|cfg.rampMaxSpeed| * (21 / 20))
    else |cfg.speedLimit|)

theorem PosConfig.abs_clampTo_le_outputBound (cfg : PosConfig) {ff corr : ℚ}
    (hff : |ff| ≤ |cfg.rampMaxSpeed|) (hcorr : |corr| ≤ |cfg.rampMaxSpeed * (1 / 20)|) :
    |clampTo cfg.speedLimit (ff + corr)| ≤ cfg.outputBound := by
  refine le_max_of_le_right ?_
  split_ifs with h
  · refine le_min (abs_clampTo_le h _) ?_
    have hzero : clampTo cfg.speedLimit 0 = 0 := clampTo_of_abs_le (by rwa [abs_zero])
    have hclamp := abs_clampTo_sub_le h (ff + corr) 0
    have hsum := abs_add_le ff corr
    rw [hzero, sub_zero, sub_zero] at hclamp
    rw [abs_mul, abs_of_pos (by norm_num : (0 : ℚ) < 1 / 20)] at hcorr
    linarith
  · exact abs_clampTo_le_abs _ _

/-- The scale of a loop whose only home is the zero of the encoder. -/
structure PosScale.Ranged (scale : PosScale) : Prop where
  coherent : scale.Coherent
  home : scale.homeOffset = 0
  low : scale.posMinCounts.natAbs ≤ 2 ^ 29
  high : scale.posMaxCounts.natAbs ≤ 2 ^ 29

/-- What a note asks for: a signed result fits, and so does a converted frequency, if the bound on
the frequency does. -/
def ArithNoteFits (cfg : PosConfig) (n : ArithNote) : Prop :=
  n.SignedFits ∧ (cfg.outputBound < 2 ^ 31 → n.IntFits)

/-! ## What the calls do -/

/-- The positions other than the ramp are in range, and the scale is the one of the init. -/
structure Positioned (scale : PosScale) (s : PosSys) : Prop where
  target : s.pl.targetPos.natAbs ≤ 2 ^ 29
  current : s.pl.currentPos.natAbs ≤ 2 ^ 29
  scale : s.scale = scale

/-- A step of another thread: it puts the ramp in range, or stops it, if it touches it at all. -/
structure Meddled (scale : PosScale) (s s' : PosSys) : Prop where
  bounded : Positioned scale s → Positioned scale s'
  pos : s'.pl.rampPos = s.pl.rampPos ∨ s'.pl.rampPos.natAbs ≤ 2 ^ 29
  speed : s'.pl.rampSpeed = s.pl.rampSpeed ∨ s'.pl.rampSpeed = 0

/-- The actions that do so. -/
def PosAct.Mild : PosAct → Prop
  | .setTargetPos v | .setRampPos v | .setCurrentPos v => v.natAbs ≤ 2 ^ 29
  | .setRampSpeed v => v = 0
  | .setHomeOffset v => v = 0
  | _ => True

theorem PosAct.Mild.meddled {scale : PosScale} (hscale : scale.Ranged) {l : PosAct} (hl : l.Mild)
    (s : PosSys) : Meddled scale s (l.eff s) := by
  cases l with
  | setTargetPos v => exact ⟨fun h => ⟨hl, h.current, h.scale⟩, .inl rfl, .inl rfl⟩
  | setCurrentPos v => exact ⟨fun h => ⟨h.target, hl, h.scale⟩, .inl rfl, .inl rfl⟩
  | setRampPos v => exact ⟨fun h => ⟨h.target, h.current, h.scale⟩, .inr hl, .inl rfl⟩
  | setRampSpeed v => exact ⟨fun h => ⟨h.target, h.current, h.scale⟩, .inl rfl, .inr hl⟩
  | setHomeOffset v =>
    obtain rfl : v = 0 := hl
    refine ⟨fun h => ⟨h.target, h.current, ?_⟩, .inl rfl, .inl rfl⟩
    show { s.scale with homeOffset := 0 } = scale
    rw [h.scale, ← hscale.home]
  | updatePosMinCounts =>
    refine ⟨fun h => ⟨h.target, h.current, ?_⟩, .inl rfl, .inl rfl⟩
    show { s.scale with posMinCounts := s.scale.toCounts s.scale.posMin } = scale
    rw [h.scale, ← hscale.coherent.low]
  | updatePosMaxCounts =>
    refine ⟨fun h => ⟨h.target, h.current, ?_⟩, .inl rfl, .inl rfl⟩
    show { s.scale with posMaxCounts := s.scale.toCounts s.scale.posMax } = scale
    rw [h.scale, ← hscale.coherent.high]
  | _ => exact ⟨fun h => ⟨h.target, h.current, h.scale⟩, .inl rfl, .inl rfl⟩

theorem PosAct.Homes.mild {l : PosAct} (h : l.Homes) : l.Mild := by
  cases l with
  | setHomeOffset v => exact h
  | setTargetPos v | setRampPos v | setCurrentPos v =>
    obtain rfl : v = 0 := h
    show (0 : ℤ).natAbs ≤ 2 ^ 29
    decide
  | setRampSpeed v => exact h.elim
  | _ => trivial

theorem PosEnv.meddled (scale : PosScale) (e : PosEnv) (s : PosSys) :
    Meddled scale s (e.eff s) := by
  cases e <;> exact ⟨fun h => ⟨h.target, h.current, h.scale⟩, .inl rfl, .inl rfl⟩

/-! ## What the control thread knows of the ramp -/

/-- A range for the ramp and one for its speed that a step of another thread does not leave. -/
structure RampRange where
  pos : ℤ → Prop
  speed : ℚ → Prop
  pos_of_le : ∀ x : ℤ, x.natAbs ≤ 2 ^ 29 → pos x
  speed_zero : speed 0

namespace RampRange

variable (b : RampRange) {scale : PosScale} {s s' : PosSys}

/-- The ramp is in its range, and the other positions in theirs. -/
structure Holds (scale : PosScale) (s : PosSys) : Prop where
  bounded : Positioned scale s
  pos : b.pos s.pl.rampPos
  speed : b.speed s.pl.rampSpeed

/-- The same with another range for the speed. -/
def withSpeed (q : ℚ → Prop) (hq : q 0) : RampRange := { b with speed := q, speed_zero := hq }

/-- The same with another range for the position. -/
def withPos (p : ℤ → Prop) (hp : ∀ x : ℤ, x.natAbs ≤ 2 ^ 29 → p x) : RampRange :=
  { b with pos := p, pos_of_le := hp }

/-- Between two rounds: within the greatest lead of the motor, with a speed of at most `m`. -/
def rest (m : ℚ) : RampRange where
  pos x := x.natAbs ≤ 2 ^ 29 + 2000
  speed v := |v| ≤ |m|
  pos_of_le x h := by omega
  speed_zero := by simp

/-- The same with a speed that nothing limits yet. -/
def fast (m : ℚ) : RampRange := (rest m).withSpeed (fun _ => True) trivial

/-- One period of a limited speed further. -/
def stepped (m : ℚ) : RampRange := (rest m).withPos (fun x => x.natAbs ≤ 2 ^ 30 + 2000) (by omega)

variable {b}

theorem Holds.meddled (h : b.Holds scale s) (hs : Meddled scale s s') : b.Holds scale s' := by
  refine ⟨hs.bounded h.bounded, ?_, ?_⟩
  · rcases hs.pos with heq | hle
    · exact heq.symm ▸ h.pos
    · exact b.pos_of_le _ hle
  · rcases hs.speed with heq | heq
    · exact heq.symm ▸ h.speed
    · exact heq.symm ▸ b.speed_zero

theorem Holds.imp {b' : RampRange} (h : b.Holds scale s) (hpos : ∀ x, b.pos x → b'.pos x)
    (hspeed : ∀ v, b.speed v → b'.speed v) : b'.Holds scale s :=
  ⟨h.bounded, hpos _ h.pos, hspeed _ h.speed⟩

end RampRange

/-! ## The assertions of the threads -/

namespace PosLoop.Noting

open Prog (ask perform quiet Stable Triple)

/-- What the threads rely on: the control thread on all that calls of other threads keep, these
threads on the positions other than the ramp. -/
def relies (scale : PosScale) : Option ℕ → Set (PosSys → Prop)
  | none => {P | ∀ s s', Meddled scale s s' → P s → P s'}
  | some _ => {Positioned scale}

/-- The readings of the encoder are in range. -/
def Granted (l : Noted ArithNote PosAct) (s : PosSys) : Prop :=
  l = .code (.read .overflow) → s.enc.overflow.natAbs ≤ 2 ^ 29

/-- What each action of a thread finds: its notes are as they should be, and it keeps what the other
threads rely on. -/
def Careful (cfg : PosConfig) (scale : PosScale) (t : Option ℕ) (l : Noted ArithNote PosAct)
    (s : PosSys) : Prop :=
  l.Meets (ArithNoteFits cfg) ∧ match t with
    | none => Positioned scale s → Positioned scale (l.eff PosAct.eff s)
    | some _ => Meddled scale s (l.eff PosAct.eff s)

/-- The triples of the thread `t`. -/
abbrev Obeys (cfg : PosConfig) (scale : PosScale) (t : Option ℕ) {α : Type} (P : PosSys → Prop)
    (p : PosNoted α) (Q : α → PosSys → Prop) : Prop :=
  Triple (Noted.eff PosAct.eff) (relies scale t) Granted (Careful cfg scale t) P p Q

/-- An assertion that a thread may keep, and that bounds the positions. -/
structure Known (scale : PosScale) (t : Option ℕ) (P : PosSys → Prop) : Prop where
  stable : Stable (relies scale t) P
  bounded : ∀ s, P s → Positioned scale s

/-- The control thread between two rounds. -/
abbrev AtRest (cfg : PosConfig) (scale : PosScale) : PosSys → Prop :=
  (RampRange.rest cfg.rampMaxSpeed).Holds scale

/-- A part of a round that ends as it has begun. -/
abbrev Rests (cfg : PosConfig) (scale : PosScale) {α : Type} (p : PosNoted α) : Prop :=
  Obeys cfg scale none (AtRest cfg scale) p fun _ => AtRest cfg scale

variable {cfg : PosConfig} {scale : PosScale} {t : Option ℕ} {P : PosSys → Prop}

theorem meddled_refl (scale : PosScale) (s : PosSys) : Meddled scale s s := ⟨id, .inl rfl, .inl rfl⟩

theorem keeps_none {s s' : PosSys} : Keeps (relies scale none) s s' ↔ Meddled scale s s' := by
  refine ⟨fun h => ?_, fun h P hP => hP s s' h⟩
  refine h (Meddled scale s) (fun s₁ s₂ h' h₁ => ⟨h'.bounded ∘ h₁.bounded, ?_, ?_⟩)
    (meddled_refl scale s)
  · rcases h'.pos with heq | hle
    · exact heq.symm ▸ h₁.pos
    · exact .inr hle
  · rcases h'.speed with heq | heq
    · exact heq.symm ▸ h₁.speed
    · exact .inr heq

theorem keeps_of_meddled {s s' : PosSys} (h : Meddled scale s s') :
    Keeps (relies scale t) s s' := by
  cases t with
  | none => exact keeps_none.mpr h
  | some t => rintro P rfl; exact h.bounded

theorem known_range (b : RampRange) : Known scale none (b.Holds scale) where
  stable _ _ hs h := h.meddled (keeps_none.mp hs)
  bounded _ h := h.bounded

theorem known_bounded (scale : PosScale) (t : ℕ) : Known scale (some t) (Positioned scale) where
  stable _ _ hs h := hs _ rfl h
  bounded _ h := h

theorem careful_of_meddled {l : Noted ArithNote PosAct} {s : PosSys}
    (hl : l.Meets (ArithNoteFits cfg)) (h : Meddled scale s (l.eff PosAct.eff s)) :
    Careful cfg scale t l s := by
  cases t with
  | none => exact ⟨hl, h.bounded⟩
  | some t => exact ⟨hl, h⟩

theorem careful_note {n : ArithNote} (hn : ArithNoteFits cfg n) (s : PosSys) :
    Careful cfg scale t (.note n) s := careful_of_meddled hn (meddled_refl scale s)

theorem careful_signed (v : ℤ) (s : PosSys) (hv : Fits 32 v) :
    Careful cfg scale t (.note (.signed v)) s :=
  careful_note (n := .signed v) ⟨hv, fun _ => hv⟩ s

theorem careful_read (f : PosField) (s : PosSys) : Careful cfg scale t (.code (.read f)) s :=
  careful_of_meddled trivial (meddled_refl scale s)

/-! ### One action -/

theorem obeys_mild (hscale : scale.Ranged) (hP : Known scale t P) {α : Type} {p : PosProg α}
    (hp : p.All PosAct.Mild) : Obeys cfg scale t P (quiet p) fun _ => P := by
  refine Triple.of_all (Φ := fun l => match l with
    | .code l => l.Mild
    | .note _ => False) (Prog.all_quiet.mpr hp) hP.stable fun l hl s hs _ => ?_
  cases l with
  | note n => exact hl.elim
  | code l =>
    have h := PosAct.Mild.meddled hscale hl s
    exact ⟨careful_of_meddled trivial h, hP.stable s _ (keeps_of_meddled h) hs⟩

/-- A read of the state, other than that of the encoder, finds what the assertion says. -/
theorem obeys_read {α : Type} {c : α → Prop} (hP : Known scale t P) (f : PosField)
    {g : PosSys → α} (hc : ∀ s, P s → c (g s)) :
    Obeys cfg scale t P (quiet (ask (.read f) g)) fun a s => c a ∧ P s :=
  Triple.ask hP.stable fun s hs _ => ⟨careful_read f s, hc s hs, hs⟩

theorem obeys_targetPos (hP : Known scale t P) :
    Obeys cfg scale t P (quiet readTargetPos) fun x s => x.natAbs ≤ 2 ^ 29 ∧ P s :=
  obeys_read hP .targetPos fun s hs => (hP.bounded s hs).target

theorem obeys_currentPos (hP : Known scale t P) :
    Obeys cfg scale t P (quiet readCurrentPos) fun x s => x.natAbs ≤ 2 ^ 29 ∧ P s :=
  obeys_read hP .currentPos fun s hs => (hP.bounded s hs).current

theorem obeys_scale (hP : Known scale t P) :
    Obeys cfg scale t P (quiet (ask (.read .posScale) PosSys.scale)) fun x s => x = scale ∧ P s :=
  obeys_read hP .posScale fun s hs => (hP.bounded s hs).scale

/-- `stepper_encoder_driver_read` -/
theorem obeys_encRead (hscale : scale.Ranged) (hP : Known scale t P) :
    Obeys cfg scale t P (quiet encRead) fun x s => x.natAbs ≤ 2 ^ 29 ∧ P s := by
  unfold encRead
  rw [Prog.quiet_bind]
  refine (obeys_mild hscale hP (p := perform .encRead) (by simp [PosAct.Mild])).bind fun _ => ?_
  exact Triple.ask hP.stable fun s hs hok => ⟨careful_read .overflow s, hok rfl, hs⟩

/-! ### The ramp -/

section Ramp

variable {b d : RampRange}

theorem obeys_rampPos :
    Obeys cfg scale none (b.Holds scale) (quiet readRampPos) fun x s => b.pos x ∧ b.Holds scale s :=
  obeys_read (known_range b) .rampPos fun _ hs => hs.pos

theorem obeys_rampSpeed :
    Obeys cfg scale none (b.Holds scale) (quiet readRampSpeed) fun v s =>
      b.speed v ∧ b.Holds scale s :=
  obeys_read (known_range b) .rampSpeed fun _ hs => hs.speed

/-- After a read the ramp is where it has been read, unless a call has put it in range since. -/
theorem obeys_rampPos_eq :
    Obeys cfg scale none (b.Holds scale) (quiet readRampPos) fun x s =>
      b.pos x ∧ (b.withPos (fun y => y = x ∨ y.natAbs ≤ 2 ^ 29) fun _ => .inr).Holds scale s :=
  Triple.ask (known_range b).stable fun s hs _ =>
    ⟨careful_read .rampPos s, hs.pos, hs.bounded, .inl rfl, hs.speed⟩

/-- After a read the ramp has the speed that has been read, unless a call has stopped it since. -/
theorem obeys_rampSpeed_eq :
    Obeys cfg scale none (b.Holds scale) (quiet readRampSpeed) fun v s =>
      b.speed v ∧ (b.withSpeed (fun w => w = v ∨ w = 0) (.inr rfl)).Holds scale s :=
  Triple.ask (known_range b).stable fun s hs _ =>
    ⟨careful_read .rampSpeed s, hs.speed, hs.bounded, hs.pos, .inl rfl⟩

theorem obeys_setRampPos {x : ℤ} (hx : d.pos x) (hspeed : ∀ v, b.speed v → d.speed v) :
    Obeys cfg scale none (b.Holds scale) (quiet (perform (.setRampPos x))) fun _ =>
      d.Holds scale :=
  Triple.perform (known_range b).stable fun _ hs _ =>
    have hkeep := ⟨hs.bounded.target, hs.bounded.current, hs.bounded.scale⟩
    ⟨⟨trivial, fun _ => hkeep⟩, hkeep, hx, hspeed _ hs.speed⟩

theorem obeys_setRampSpeed {v : ℚ} (hv : d.speed v) (hpos : ∀ x, b.pos x → d.pos x) :
    Obeys cfg scale none (b.Holds scale) (quiet (perform (.setRampSpeed v))) fun _ =>
      d.Holds scale :=
  Triple.perform (known_range b).stable fun _ hs _ =>
    have hkeep := ⟨hs.bounded.target, hs.bounded.current, hs.bounded.scale⟩
    ⟨⟨trivial, fun _ => hkeep⟩, hkeep, hpos _ hs.pos, hv⟩

end Ramp

/-! ### Arithmetic -/

theorem obeys_sub {x y : ℤ} (hP : Known scale t P) (h : Fits 32 (x - y)) :
    Obeys cfg scale t P (ArithNote.sub x y) fun v s => v = x - y ∧ P s :=
  ArithNote.triple_sub careful_signed hP.stable h

/-- The distance from the motor to the target. -/
theorem obeys_finalErr {α : Type} {Q : α → PosSys → Prop} {k : ℤ → PosNoted α}
    (hP : Known scale t P) (hk : ∀ e : ℤ, e.natAbs ≤ 2 ^ 30 → Obeys cfg scale t P (k e) Q) :
    Obeys cfg scale t P
      (do k (← ArithNote.sub (← quiet readTargetPos) (← quiet readCurrentPos))) Q := by
  refine (obeys_targetPos hP).bind_lift fun x hx => ?_
  refine (obeys_currentPos hP).bind_lift fun c hc => ?_
  refine (obeys_sub hP (by unfold Fits; omega)).bind_lift fun e he => ?_
  exact hk e (by omega)

theorem obeys_div (hP : Known scale t P) (x y : ℚ) :
    Obeys cfg scale t P (ArithNote.div x y) fun v s => v = x / y ∧ P s :=
  (ArithNote.triple_note hP.stable
    (careful_note (n := .divisor y) ⟨trivial, fun _ => trivial⟩)).bind fun _ =>
    Triple.ret fun _ hs => ⟨rfl, hs⟩

theorem obeys_toInt {q : ℚ} {n : ℕ} (hP : Known scale t P) (h : |q| ≤ n) (hn : n < 2 ^ 31) :
    Obeys cfg scale t P (ArithNote.toInt q) fun v s => v.natAbs ≤ n ∧ P s := by
  have hq := natAbs_trunc_le h
  refine (ArithNote.triple_toInt careful_signed hP.stable
    (by unfold Fits; omega)).conseq (fun _ hs => hs) ?_
  rintro v s ⟨rfl, hs⟩
  exact ⟨hq, hs⟩

theorem obeys_toUnsigned {f : ℚ} (hP : Known scale t P) (hf : |f| ≤ cfg.outputBound) :
    Obeys cfg scale t P (ArithNote.toUnsigned |f|) fun _ => P := by
  have hfits : ArithNoteFits cfg (.unsigned (trunc |f|)) := by
    refine ⟨trivial, fun hlimit => ?_⟩
    have hlt : |f| < 2 ^ 31 := hf.trans_lt hlimit
    have hfloor : ⌊|f|⌋ < 2 ^ 31 := Int.floor_lt.mpr (by exact_mod_cast hlt)
    have hnonneg : 0 ≤ ⌊|f|⌋ := Int.floor_nonneg.mpr (abs_nonneg f)
    show Fits 32 (trunc |f|)
    rw [trunc_of_nonneg (abs_nonneg f)]
    unfold Fits
    omega
  exact (ArithNote.triple_note hP.stable (careful_note hfits)).bind fun _ =>
    Triple.ret fun _ hs => hs

end PosLoop.Noting

end H750Stepper
