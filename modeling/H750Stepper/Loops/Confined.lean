import H750Stepper.Lib.Erasure
import H750Stepper.Lib.Outline
import H750Stepper.Loops.Shell

/-!
# Commands act on one motor

What a command does, it does to the motor whose number is its first argument, and to the timer of
its loop (`Shell.Confined`). Three things follow a command through: where it acts; that it can tell
two states apart only by its own motor, and by its timer while the motor is not initialised
(`SeenAlike`); and that it sets the flag of the motor only when the control thread has been started.
-/

namespace H750Stepper

open Threads

/-! ## One hardware timer -/

namespace Timers

variable {ι δ : Type} [DecidableEq ι] [DecidableEq δ] {s s' : Timers ι δ} {d d' : δ}
  {a : Answers Unit} {checksMode : Bool} {m : Loop} {x : ι}

/-- The timer `d` is as it was. -/
structure SameDevice (d : δ) (s s' : Timers ι δ) : Prop where
  activated : s.activated d = s'.activated d
  opened : s.opened d = s'.opened d

omit [DecidableEq ι] [DecidableEq δ] in
theorem SameDevice.refl (d : δ) (s : Timers ι δ) : SameDevice d s s := ⟨rfl, rfl⟩

omit [DecidableEq ι] in
theorem SameDevice.deviceOpen (h : SameDevice d s s') (a : Answers δ) :
    (s.deviceOpen d a).1 = (s'.deviceOpen d a).1 ∧
      SameDevice d (s.deviceOpen d a).2 (s'.deviceOpen d a).2 := by
  unfold Timers.deviceOpen
  dsimp only
  rw [h.activated, h.opened]
  split_ifs
  · exact ⟨rfl, h⟩
  · exact ⟨rfl, by simp, h.opened⟩
  · exact ⟨rfl, by simp, by simp⟩
  · exact ⟨rfl, by simp, h.opened⟩

omit [DecidableEq ι] in
theorem SameDevice.deviceOpen_other (h : SameDevice d s s') (hd : d ≠ d') (a : Answers δ) :
    SameDevice d (s.deviceOpen d' a).2 s' := by
  unfold Timers.deviceOpen
  dsimp only
  split_ifs
  · exact h
  · exact ⟨by simp [hd, h.activated], h.opened⟩
  · exact ⟨by simp [hd, h.activated], by simp [hd, h.opened]⟩
  · exact ⟨by simp [hd, h.activated], h.opened⟩

/-- An init depends on nothing but its timer. -/
theorem SameDevice.init (h : SameDevice d s s') :
    (s.init checksMode m x (a.named d)).1 = (s'.init checksMode m x (a.named d)).1 ∧
      SameDevice d (s.init checksMode m x (a.named d)).2
        (s'.init checksMode m x (a.named d)).2 := by
  cases hsem : a.semCreated with
  | false => simpa [Timers.init, Answers.named, hsem] using ⟨h.activated, h.opened⟩
  | true =>
    cases hdev : a.device with
    | none => simpa [Timers.init, Answers.named, hsem, hdev] using ⟨h.activated, h.opened⟩
    | some u =>
      have hprepare : SameDevice d (s.prepare m x (some d)) (s'.prepare m x (some d)) :=
        ⟨h.activated, h.opened⟩
      obtain ⟨hret, hopen⟩ := hprepare.deviceOpen (a.named d)
      simp only [Timers.init, Answers.named, hsem, hdev, Option.map_some, if_true] at hret hopen ⊢
      rw [hret]
      split_ifs <;> exact ⟨rfl, hopen.activated, hopen.opened⟩

/-- An init leaves the other timers alone. -/
theorem SameDevice.init_other (h : SameDevice d s s') (hd : d ≠ d') :
    SameDevice d (s.init checksMode m x (a.named d')).2 s' := by
  cases hsem : a.semCreated with
  | false => simpa [Timers.init, Answers.named, hsem] using ⟨h.activated, h.opened⟩
  | true =>
    cases hdev : a.device with
    | none => simpa [Timers.init, Answers.named, hsem, hdev] using ⟨h.activated, h.opened⟩
    | some u =>
      have hprepare : SameDevice d (s.prepare m x (some d')) s' := ⟨h.activated, h.opened⟩
      have hopen := hprepare.deviceOpen_other hd (a.named d')
      simp only [Timers.init, Answers.named, hsem, hdev, Option.map_some, if_true] at hopen ⊢
      split_ifs <;> exact ⟨hopen.activated, hopen.opened⟩

/-- An init that succeeds opens its timer, which was closed. -/
theorem opened_of_init (h : (s.init checksMode m x (a.named d)).1 = .eOk) :
    s.opened d = false ∧ (s.init checksMode m x (a.named d)).2.opened d = true := by
  cases hsem : a.semCreated with
  | false => simp [Timers.init, Answers.named, hsem] at h
  | true =>
    cases hdev : a.device with
    | none => simp [Timers.init, Answers.named, hsem, hdev] at h
    | some u =>
      simp only [Timers.init, Answers.named, hsem, hdev, Option.map_some, if_true] at h ⊢
      split_ifs at h ⊢ with hopen
      · exact absurd h hopen
      all_goals
        have hok := not_not.mp hopen
        exact ⟨(deviceOpen_eOk.mp hok).2.1, deviceOpen_opened hok⟩

end Timers

/-! ## Programs for one motor -/

/-- The objects of the motor `i`, its flag and its control thread, and what its inits will be
answered. -/
structure SameMotor {S : Type} (i : ℤ) (s s' : Shell S) : Prop where
  obj : s.obj i = s'.obj i
  inited : s.inited i = s'.inited i
  thread : s.thread i = s'.thread i
  answer : ∀ step, s.answer step i = s'.answer step i
  calls : s.calls i = s'.calls i
  ret : s.ret i = s'.ret i

section Actions

variable {A S : Type} (timer : ℤ → String) (count : ℕ)

/-- The action is on the motor `i` and the timer of its loop, or on nothing. -/
def ShellAct.ActsOn (i : ℤ) : ShellAct A S → Prop
  | .obj k _ | .update k _ | .setInited k => k = i
  | .initLoop _ d k => k = i ∧ d = timer i ∧ InTables count i
  | .test => True

theorem ShellAct.actsOn_obj (i : ℤ) (l : A) :
    (obj i l : ShellAct A S).ActsOn timer count i := rfl

theorem ShellAct.actsOn_update (i : ℤ) (f : S → S) :
    (update i f : ShellAct A S).ActsOn timer count i := rfl

theorem ShellAct.actsOn_setInited (i : ℤ) :
    (setInited i : ShellAct A S).ActsOn timer count i := rfl

/-- A flag is set after the control thread has been started, and an init takes the timer of its
motor. -/
def ShellAct.Orderly : Noted Access (ShellAct A S) → Shell S → Prop
  | .code (.setInited k), s => s.thread k = true
  | .code (.initLoop _ d k), _ => d = timer k ∧ InTables count k
  | _, _ => True

variable {timer count} (own : Prop) (i : ℤ)

variable (timer) in
/-- At the motor `i` the two states look alike. Its timer is looked at only if the motor has it for
itself (`own`); otherwise the motor has to be initialised. -/
structure SeenAlike (s s' : Shell S) : Prop where
  motor : SameMotor i s s'
  device : own → s.timers.SameDevice (timer i) s'.timers
  inited : ¬own → s.inited i ≠ 0

/-- What a thread counts on while others act. -/
def ThreadsStay : Set (Shell S → Prop) := {P | ∃ k, P = fun s => s.thread k = true}

end Actions

namespace Shell

open Prog (ask perform note quiet when Triple Stable)

variable {A S α β : Type} (eff : A → S → S) (timer : ℤ → String) (count : ℕ) {own : Prop} {i : ℤ}

/-- What the program does, it does to the motor `i`; it depends on this motor only, and sets its flag
only when the control thread has been started. -/
structure Confined (own : Prop) (i : ℤ) (p : ShellProg A S α) : Prop where
  acts : p.All fun l => ∀ a, l = .code a → a.ActsOn timer count i
  sees : p.Respects (Noted.eff (ShellAct.eff eff)) (SeenAlike timer own i)
  starts : p.Triple (Noted.eff (ShellAct.eff eff)) ThreadsStay (fun _ _ => True)
    (ShellAct.Orderly timer count) (fun _ => True) fun _ _ => True

variable {eff timer count}

theorem stable_thread (k : ℤ) :
    Stable (ThreadsStay : Set (Shell S → Prop)) fun s => s.thread k = true :=
  fun _ _ hs h => hs _ ⟨k, rfl⟩ h

theorem even_of_actsOn {l : ShellAct A S} (hl : l.ActsOn timer count i)
    (hinit : ∀ m d k, l = .initLoop m d k → own) :
    Even (ShellAct.eff eff) (SeenAlike timer own i) l := by
  intro s s' h
  cases l with
  | obj k l =>
    obtain rfl : k = i := hl
    exact ⟨{ h.motor with obj := by simp [ShellAct.eff, h.motor.obj] }, h.device, h.inited⟩
  | update k f =>
    obtain rfl : k = i := hl
    exact ⟨{ h.motor with obj := by simp [ShellAct.eff, h.motor.obj] }, h.device, h.inited⟩
  | initLoop m d k =>
    obtain ⟨rfl, rfl, -⟩ := hl
    have hown := hinit _ _ _ rfl
    obtain ⟨hret, hdev⟩ : (s.loopInit m (timer k) k).1 = (s'.loopInit m (timer k) k).1 ∧
        (s.loopInit m (timer k) k).2.SameDevice (timer k) (s'.loopInit m (timer k) k).2 := by
      unfold loopInit
      rw [← h.motor.calls]
      exact (h.device hown).init
    exact ⟨{ h.motor with
      thread := by simp [ShellAct.eff, hret, h.motor.thread]
      ret := by simp [ShellAct.eff, hret] }, fun _ => hdev, h.inited⟩
  | test => exact h
  | setInited k =>
    obtain rfl : k = i := hl
    exact ⟨{ h.motor with inited := by simp [ShellAct.eff] }, h.device,
      fun _ => by simp [ShellAct.eff]⟩

theorem even_code_of_actsOn {l : ShellAct A S} (hl : l.ActsOn timer count i)
    (hinit : ∀ m d k, l = .initLoop m d k → own) :
    Even (Noted.eff (ShellAct.eff eff)) (SeenAlike timer own i) (.code l : Noted Access _) :=
  fun s s' h => even_of_actsOn hl hinit s s' h

/-- Another motor does not see the action, unless it has the same timer and may need it. -/
theorem unseen_of_actsOn {l : ShellAct A S} (hl : l.ActsOn timer count i) {j : ℤ} (hj : j ≠ i)
    (hown : own → ∀ k, InTables count k → k ≠ j → timer k ≠ timer j) :
    Unseen (ShellAct.eff eff) (SeenAlike timer own j) l := by
  intro s s' h
  cases l with
  | obj k l =>
    obtain rfl : k = i := hl
    exact ⟨{ h.motor with obj := by simp [ShellAct.eff, hj, h.motor.obj] }, h.device, h.inited⟩
  | update k f =>
    obtain rfl : k = i := hl
    exact ⟨{ h.motor with obj := by simp [ShellAct.eff, hj, h.motor.obj] }, h.device, h.inited⟩
  | initLoop m d k =>
    obtain ⟨rfl, rfl, hk⟩ := hl
    exact ⟨{ h.motor with
      thread := by simp [ShellAct.eff, hj, h.motor.thread]
      ret := by simp [ShellAct.eff, hj, h.motor.ret] },
      fun ho => (h.device ho).init_other (hown ho k hk hj.symm).symm, h.inited⟩
  | test => exact h
  | setInited k =>
    obtain rfl : k = i := hl
    exact ⟨{ h.motor with inited := by simp [ShellAct.eff, hj, h.motor.inited] }, h.device,
      fun ho => by simpa [ShellAct.eff, hj] using h.inited ho⟩

/-! ### Parts of a command -/

/-- The part of a command neither sets a flag nor registers a loop. -/
def Plain (l : Noted Access (ShellAct A S)) : Prop :=
  (∀ k, l ≠ .code (.setInited k)) ∧ ∀ m d k, l ≠ .code (.initLoop m d k)

theorem starts_of_plain {p : ShellProg A S α} (hp : p.All Plain) :
    p.Triple (Noted.eff (ShellAct.eff eff)) ThreadsStay (fun _ _ => True)
      (ShellAct.Orderly timer count) (fun _ => True) fun _ _ => True :=
  Triple.of_all hp (fun _ _ _ _ => trivial) fun l hl s _ _ => by
    refine ⟨?_, trivial⟩
    cases l with
    | note n => trivial
    | code a =>
      cases a with
      | setInited k => exact absurd rfl (hl.1 k)
      | initLoop m d k => exact absurd rfl (hl.2 m d k)
      | obj k l | update k f | test => trivial

namespace Confined

theorem ret (a : α) : Confined eff timer count own i (.ret a) :=
  ⟨trivial, Prog.respects_ret a, Triple.ret fun _ _ => trivial⟩

theorem bind {p : ShellProg A S α} {g : α → ShellProg A S β} (hp : Confined eff timer count own i p)
    (hg : ∀ a, Confined eff timer count own i (g a)) : Confined eff timer count own i (p >>= g) :=
  ⟨Prog.all_bind.2 ⟨hp.acts, fun a _ => (hg a).acts⟩, hp.sees.bind fun a => (hg a).sees,
    hp.starts.bind fun a => (hg a).starts⟩

theorem ite {c : Prop} [Decidable c] {p q : ShellProg A S α}
    (hp : c → Confined eff timer count own i p) (hq : ¬c → Confined eff timer count own i q) :
    Confined eff timer count own i (if c then p else q) := by
  split_ifs with h
  · exact hp h
  · exact hq h

theorem when {c : Prop} [Decidable c] {p : ShellProg A S Unit}
    (hp : Confined eff timer count own i p) : Confined eff timer count own i (when c p) :=
  .ite (fun _ => hp) fun _ => .ret ()

theorem entry (t : Table) (k : ℤ) :
    Confined eff timer count own i (entry t k : ShellProg A S Unit) :=
  ⟨(Prog.all_note _).mpr nofun, Prog.respects_perform fun _ _ h => h,
    starts_of_plain ((Prog.all_note _).mpr ⟨nofun, nofun⟩)⟩

theorem entries (k : ℤ) (ts : List Table) :
    Confined eff timer count own i (entries k ts : ShellProg A S Unit) := by
  induction ts with
  | nil => exact .ret ()
  | cons t ts ih => exact (entry t k).bind fun _ => ih

theorem onMotor (i : ℤ) (p : Prog A S α) : Confined eff timer count own i (onMotor i p) := by
  have hall : ∀ {Φ : Noted Access (ShellAct A S) → Prop}, (∀ l, Φ (.code (.obj i l))) →
      (Shell.onMotor i p : ShellProg A S α).All Φ := fun {Φ} h => by
    refine Prog.all_quiet.mpr ?_
    induction p with
    | ret a => trivial
    | act l k ih => exact ⟨h l, fun s => ih _⟩
  refine ⟨hall fun l => ?_, ?_, starts_of_plain (hall fun l => ⟨nofun, nofun⟩)⟩
  · rintro a ⟨⟩
    rfl
  · refine Prog.Matches.quiet ?_
    exact Prog.respects_zoom (fun l => even_of_actsOn (ShellAct.actsOn_obj timer count i l) nofun)
      (fun s s' h => h.motor.obj) p

theorem onLoop (i : ℤ) (p : Prog A S α) : Confined eff timer count own i (onLoop i p) :=
  (entry .loops i).bind fun _ => onMotor i p

theorem update (i : ℤ) (f : S → S) :
    Confined eff timer count own i (perform (.code (.update i f)) : ShellProg A S Unit) :=
  ⟨(Prog.all_perform _).mpr (by rintro a ⟨⟩; rfl),
    Prog.respects_perform (even_code_of_actsOn (ShellAct.actsOn_update timer count i f) nofun),
    starts_of_plain ((Prog.all_perform _).mpr ⟨nofun, nofun⟩)⟩

theorem test {f : Shell S → α} (hf : ∀ s s', SameMotor i s s' → f s = f s') :
    Confined eff timer count own i (ask (.code .test) f : ShellProg A S α) :=
  ⟨(Prog.all_ask _ _).mpr (by rintro a ⟨⟩; trivial),
    Prog.respects_ask (fun _ _ h => h) fun s s' h => hf s s' h.motor,
    starts_of_plain ((Prog.all_ask _ _).mpr ⟨nofun, nofun⟩)⟩

theorem readInited (i : ℤ) : Confined eff timer count own i (readInited i : ShellProg A S ℤ) :=
  (entry .inited i).bind fun _ => test fun _ _ h => h.inited

theorem init (step : InitStep) (i : ℤ) (f : S → S) :
    Confined eff timer count own i (init step i f : ShellProg A S ℤ) :=
  (test fun _ _ h => h.answer step).bind fun _ => ((update i f).when).bind fun _ => .ret _

/-- The end of `ensure_inited`, if the motor has its timer for itself: the flag is set after the init
of the loop has started the control thread. -/
theorem register (hown : own) (hi : InTables count i) (m : Loop) (f : S → S) :
    Confined eff timer count own i (do
      if (← initLoop m (timer i) i f) ≠ .eOk then return -1
      else do
        Shell.entry .inited i
        perform (.code (.setInited i))
        return (0 : ℤ) : ShellProg A S ℤ) := by
  have hupdate : Confined eff timer count own i _ := update i f
  have hentry : Confined eff timer count own i _ := entry .inited i
  refine ⟨Prog.all_bind.2 ⟨Prog.all_bind.2 ⟨hupdate.acts, fun _ _ => ?_⟩, fun r _ => ?_⟩,
    (hupdate.sees.bind fun _ => ?_).bind fun r => ?_, Triple.bind (R := fun r s =>
      r = .eOk → s.thread i = true) (hupdate.starts.bind fun _ => ?_) fun r => ?_⟩
  · refine (Prog.all_ask _ _).mpr ?_
    rintro a ⟨⟩
    exact ⟨rfl, rfl, hi⟩
  · refine Prog.all_ite.2 ⟨fun _ => trivial, fun _ => Prog.all_bind.2 ⟨hentry.acts, fun _ _ => ?_⟩⟩
    refine Prog.all_bind.2 ⟨(Prog.all_perform _).mpr ?_, fun _ _ => trivial⟩
    rintro a ⟨⟩
    rfl
  · exact Prog.respects_ask (even_code_of_actsOn ⟨rfl, rfl, hi⟩ fun _ _ _ _ => hown)
      fun s s' h => h.motor.ret
  · refine Prog.respects_ite (Prog.respects_ret _) (hentry.sees.bind fun _ => ?_)
    refine (Prog.respects_perform ?_).bind fun _ => Prog.respects_ret _
    exact even_code_of_actsOn (ShellAct.actsOn_setInited timer count i) nofun
  · refine Triple.ask (fun _ _ _ _ => trivial) fun s _ _ => ⟨⟨rfl, hi⟩, fun hok => ?_⟩
    simp only [Noted.eff, ShellAct.eff, Function.update_self] at hok ⊢
    simp [hok]
  · refine Triple.ite (fun _ => Triple.ret fun _ _ => trivial) fun hok => ?_
    refine Triple.conseq (?_ : Triple _ _ _ _ (fun s => s.thread i = true) _ _)
      (fun s hs => hs (not_not.mp hok)) fun _ _ h => h
    refine Triple.bind (R := fun _ s => s.thread i = true) ?_ fun _ => ?_
    · exact Triple.perform (stable_thread i) fun s hs _ => ⟨trivial, hs⟩
    refine Triple.bind (R := fun _ _ => True) ?_ fun _ => Triple.ret fun _ _ => trivial
    exact Triple.perform (stable_thread i) fun s hs _ => ⟨hs, trivial⟩

/-- A test of the flag; what follows while it is not set may need the timer. -/
theorem readInited_bind {g : ℤ → ShellProg A S α}
    (hset : ∀ r, r ≠ 0 → Confined eff timer count own i (g r))
    (hnot : ∀ own', own' → Confined eff timer count own' i (g 0)) :
    Confined eff timer count own i (Shell.readInited i >>= g) := by
  have hread : Confined eff timer count own i _ := readInited i
  refine ⟨Prog.all_bind.2 ⟨hread.acts, fun r _ => ?_⟩, ?_, hread.starts.bind fun r => ?_⟩
  · by_cases hr : r = 0
    · exact hr ▸ (hnot True trivial).acts
    · exact (hset r hr).acts
  · rw [Shell.readInited, Prog.bind_assoc]
    have hentry : Confined eff timer count own i _ := entry .inited i
    refine hentry.sees.bind fun _ => ?_
    refine Prog.respects_ask_bind (fun _ _ h => h) (fun s s' h => h.motor.inited) fun s s' h => ?_
    by_cases hr : s.inited i = 0
    · rw [hr]
      exact (hnot own (not_not.mp fun ho => h.inited ho hr)).sees
    · exact (hset _ hr).sees
  · by_cases hr : r = 0
    · exact hr ▸ (hnot True trivial).starts
    · exact (hset r hr).starts

/-- Another motor does not see the program, unless it has the same timer and may need it. -/
theorem inert {p : ShellProg A S α} (hp : Confined eff timer count own i p) {j : ℤ} (hji : j ≠ i)
    (hown : own → ∀ k, InTables count k → k ≠ j → timer k ≠ timer j) :
    p.Inert (Noted.eff (ShellAct.eff eff)) (SeenAlike timer own j) :=
  hp.acts.imp fun l hl s s' h => by
    cases l with
    | code a => exact unseen_of_actsOn (hl a rfl) hji hown s s' h
    | note n => exact h

variable {inits : ℤ → Inits A S} {configure : ℤ → ShellProg A S Unit} {id : ℤ}

theorem ensureInited (htimer : (inits id).timer = timer id)
    (hconf : ∀ own, Confined eff timer count own id (configure id)) :
    Confined eff timer count own id (ensureInited count inits configure id) := by
  unfold Shell.ensureInited
  refine .ite (fun _ => .ret _) fun hid => readInited_bind (fun r hr => ?_) fun own' hown => ?_
  · rw [if_pos hr]
    exact .ret 0
  rw [if_neg (not_not.mpr rfl), htimer]
  refine (entry ..).bind fun _ => (entry ..).bind fun _ => ?_
  refine (init ..).bind fun _ => .ite (fun _ => .ret _) fun _ => (hconf own').bind fun _ => ?_
  refine (entry ..).bind fun _ => (init ..).bind fun _ => .ite (fun _ => .ret _) fun _ => ?_
  refine (entry ..).bind fun _ => (onMotor ..).bind fun _ => (entries ..).bind fun _ => ?_
  exact register hown (inTables_iff.mp hid) _ _

/-- What comes after `ensure_inited`. -/
theorem ensured {error : α} {rest : ShellProg A S α} (htimer : (inits id).timer = timer id)
    (hconf : ∀ own, Confined eff timer count own id (configure id))
    (hrest : Confined eff timer count own id rest) : Confined eff timer count own id (do
      if (← Shell.ensureInited count inits configure id) ≠ 0 then return error
      else rest) :=
  (ensureInited htimer hconf).bind fun _ => .ite (fun _ => .ret _) fun _ => hrest

theorem ifInited {error : α} {rest : ShellProg A S α}
    (hrest : Confined eff timer count own id rest) :
    Confined eff timer count own id (ifInited count id error rest) :=
  .ite (fun _ => .ret _) fun _ =>
    (readInited id).bind fun _ => .ite (fun _ => .ret _) fun _ => hrest

end Confined

end Shell

/-! ## The commands -/

namespace Shell

variable {A S : Type}

/-- A test or a note. -/
def Looks (l : Noted Access (ShellAct A S)) : Prop := ∀ a, l = .code a → a = .test

theorem Looks.plain {l : Noted Access (ShellAct A S)} (hl : Looks l) : Plain l := by
  constructor
  · rintro k rfl
    cases hl _ rfl
  · rintro m d k rfl
    cases hl _ rfl

theorem looks_entries (i : ℤ) (ts : List Table) :
    (entries i ts : ShellProg A S Unit).All Looks := by
  induction ts with
  | nil => trivial
  | cons t ts ih => exact Prog.all_bind.2 ⟨(Prog.all_note _).mpr nofun, fun _ _ => ih⟩

theorem looks_readInited (i : ℤ) : (readInited i : ShellProg A S ℤ).All Looks :=
  Prog.all_bind.2 ⟨(Prog.all_note _).mpr nofun, fun _ _ =>
    (Prog.all_ask _ _).mpr (by rintro a ⟨⟩; rfl)⟩

theorem looks_each {body : ℤ → ShellProg A S Unit} (h : ∀ i, (body i).All Looks) (is : List ℕ) :
    (each body is).All Looks := by
  induction is with
  | nil => trivial
  | cons i is ih => exact Prog.all_bind.2 ⟨h i, fun _ _ => ih⟩

end Shell

section Commands

open Shell

variable {lib : CLib} {count : ℕ} {argv : Argv} {speedCfg : ℤ → SpeedHwCfg}
  {posCfg : ℤ → PosHwCfg} {polls : ℕ} {own : Prop}

/-- A command of the speed loop that names a motor. -/
theorem SpeedHandler.confined (h : 2 ≤ argv.length) (c : SpeedHandler) :
    Confined SpeedAct.eff (fun i => (speedCfg i).ctrlTimer) count own (lib.atoi (argv.arg 1))
      (c.code lib count argv speedCfg) := by
  have husage : ¬argv.length < 2 := not_lt.mpr h
  have hconf : ∀ own', Confined SpeedAct.eff (fun i => (speedCfg i).ctrlTimer) count own'
      (lib.atoi (argv.arg 1)) (return ()) := fun own' => .ret ()
  cases c with
  | speedloop =>
    show Confined _ _ _ _ _ (SpeedShell.cmdSpeedloop lib count speedCfg argv)
    unfold SpeedShell.cmdSpeedloop
    rw [if_neg husage]
    refine .ite (fun _ => ?_) fun _ => .ensured rfl hconf ?_
    · refine (Confined.readInited _).bind fun _ => .ite (fun _ => .ret _) fun _ => ?_
      exact (Confined.entries ..).bind fun _ => .ret _
    · refine .ite (fun _ => (Confined.onLoop ..).bind fun _ => .ret _) fun _ => ?_
      refine (Confined.onLoop ..).bind fun _ => (Confined.when (.onLoop ..)).bind fun _ => ?_
      exact (Confined.onLoop ..).bind fun _ => .ret _
  | tune =>
    refine .ite (fun _ => .ret _) fun _ => .ifInited ((Confined.entry ..).bind fun _ => ?_)
    exact (Confined.onMotor ..).bind fun _ => .ret _
  | start =>
    exact .ite (fun _ => .ret _) fun _ =>
      .ensured rfl hconf ((Confined.onLoop ..).bind fun _ => .ret _)
  | stop =>
    exact .ite (fun _ => .ret _) fun _ => .ifInited ((Confined.onLoop ..).bind fun _ => .ret _)

/-- A command of the position loop that names a motor. -/
theorem PosHandler.confined (h : 2 ≤ argv.length) (c : PosHandler) :
    Confined PosAct.eff (fun i => (posCfg i).ctrlTimer) count own (lib.atoi (argv.arg 1))
      (c.code lib count argv posCfg polls) := by
  have husage : ¬argv.length < 2 := not_lt.mpr h
  have hconf : ∀ id own', Confined PosAct.eff (fun i => (posCfg i).ctrlTimer) count own' id
      (PosShell.configure posCfg id) := fun id own' =>
    (Confined.entry ..).bind fun _ => (Confined.update id _).bind fun _ =>
      (Confined.entry ..).bind fun _ => .onMotor ..
  cases c with
  | posloop =>
    show Confined _ _ _ _ _ (PosShell.cmdPosloop lib count posCfg argv polls)
    unfold PosShell.cmdPosloop
    rw [if_neg husage]
    refine .ensured rfl (hconf _) (.ite (fun _ => ?_) fun _ => ?_)
    · exact (Confined.entries ..).bind fun _ => .ret _
    refine (Confined.onLoop ..).bind fun _ => (Confined.when (.onLoop ..)).bind fun _ => ?_
    refine Confined.bind (.ite (fun _ => ?_) fun _ => .onLoop ..) fun _ => ?_
    · exact (Confined.entry ..).bind fun _ => .onLoop ..
    · exact (Confined.when (.entries ..)).bind fun _ => .ret _
  | tune =>
    refine .ite (fun _ => .ret _) fun _ => .ifInited ((Confined.entry ..).bind fun _ => ?_)
    exact (Confined.onMotor ..).bind fun _ => .ret _
  | start =>
    exact .ite (fun _ => .ret _) fun _ =>
      .ensured rfl (hconf _) ((Confined.onLoop ..).bind fun _ => .ret _)
  | stop =>
    exact .ite (fun _ => .ret _) fun _ => .ifInited ((Confined.onLoop ..).bind fun _ => .ret _)
  | home =>
    refine .ite (fun _ => .ret _) fun _ =>
      .ensured rfl (hconf _) ((Confined.entry ..).bind fun _ => ?_)
    refine (Confined.onLoop ..).bind fun _ => (Confined.when (.onLoop ..)).bind fun _ => ?_
    exact (Confined.entry ..).bind fun _ => (Confined.entry ..).bind fun _ => .onMotor ..

/-- A command that names no motor prints at most. -/
theorem PosHandler.looks (h : argv.length < 2) (c : PosHandler) :
    (c.code lib count argv posCfg polls).All Looks := by
  cases c with
  | posloop =>
    show (PosShell.cmdPosloop lib count posCfg argv polls).All Looks
    unfold PosShell.cmdPosloop
    rw [if_pos h]
    refine Prog.all_bind.2 ⟨looks_each (fun i => ?_) _, fun _ _ => trivial⟩
    exact Prog.all_bind.2 ⟨looks_readInited i, fun _ _ =>
      Prog.all_ite.2 ⟨fun _ => trivial, fun _ => looks_entries ..⟩⟩
  | tune => exact Prog.all_ite.2 ⟨fun _ => trivial, fun hargc => by omega⟩
  | start | stop | home => exact Prog.all_ite.2 ⟨fun _ => trivial, fun hargc => absurd h hargc⟩

theorem SpeedHandler.looks (h : argv.length < 2) (c : SpeedHandler) :
    (c.code lib count argv speedCfg).All Looks := by
  cases c with
  | speedloop =>
    show (SpeedShell.cmdSpeedloop lib count speedCfg argv).All Looks
    unfold SpeedShell.cmdSpeedloop
    rw [if_pos h]
    refine Prog.all_bind.2 ⟨looks_each (fun i => ?_) _, fun _ _ => trivial⟩
    exact Prog.all_bind.2 ⟨looks_readInited i, fun _ _ =>
      Prog.all_ite.2 ⟨fun _ => trivial, fun _ => looks_entries ..⟩⟩
  | tune => exact Prog.all_ite.2 ⟨fun _ => trivial, fun hargc => by omega⟩
  | start | stop => exact Prog.all_ite.2 ⟨fun _ => trivial, fun hargc => absurd h hargc⟩

end Commands

end H750Stepper
