import H750Stepper.Timer.Registry

/-!
# Registration of the controllers

An init links its instance into the list of the module half-way, and takes it out on no error path:
a period that cannot be written, a mode that is refused, or a thread that cannot be created leaves
the instance in the list with a deleted semaphore.

`registration_iff`: after any sequence of `ensure_inited` calls the lists hold exactly the
initialised instances, each once and with a semaphore that exists, if and only if no call has failed
after it had registered its instance. Once that has happened no later call repairs it.
-/

namespace H750Stepper

open Links Timers

variable {ι δ : Type} [DecidableEq ι] [DecidableEq δ]

namespace Board

/-! ## The invariant -/

/-- The nodes of a module's list. -/
def IsListOf (b : Board ι δ) (m : Loop) (l : List ι) : Prop :=
  IsList (b.timers.listOf m).2 (b.timers.listOf m).1 l

/-- What holds as long as no call has failed late. Each initialised instance has its own semaphore,
and its own device, whose callback is that of its module. -/
structure Sound (b : Board ι δ) : Prop where
  lists : ∀ m, ∃ l, b.IsListOf m l ∧ ∀ x, x ∈ l ↔ b.inited m x = true
  numbered : b.timers.Numbered
  live : ∀ m x, b.inited m x = true → (b.timers.reg m).sem x ∈ b.timers.live
  semInj : ∀ m x m' x', b.inited m x = true → b.inited m' x' = true →
    (b.timers.reg m).sem x = (b.timers.reg m').sem x' → m = m' ∧ x = x'
  bound : ∀ m x d, b.inited m x = true → (b.timers.reg m).timerDev x = some d →
    b.timers.opened d = true ∧ b.timers.rxIndicate d = some m
  devInj : ∀ m x m' x' d, b.inited m x = true → b.inited m' x' = true →
    (b.timers.reg m).timerDev x = some d → (b.timers.reg m').timerDev x' = some d → m = m' ∧ x = x'
  served : ∀ m d, b.timers.rxIndicate d = some m →
    ∃ x, b.inited m x = true ∧ (b.timers.reg m).timerDev x = some d

omit [DecidableEq ι] [DecidableEq δ] in
theorem sound_zeroed : (zeroed : Board ι δ).Sound where
  lists _ := ⟨[], rfl, fun x => by simp [zeroed]⟩
  numbered h hh := absurd hh (Finset.notMem_empty h)
  live _ _ hx := by cases hx
  semInj _ _ _ _ hx := by cases hx
  bound _ _ _ hx := by cases hx
  devInj _ _ _ _ _ hx := by cases hx
  served _ _ hd := by cases hd

omit [DecidableEq ι] [DecidableEq δ] in
/-- A call that registers nothing. -/
theorem Sound.of_keeps {b b' : Board ι δ} (h : b.Sound) (hk : Keeps b b')
    (hinited : b'.inited = b.inited) (hlists : ∀ m, b'.timers.listOf m = b.timers.listOf m)
    (hrx : b'.timers.rxIndicate = b.timers.rxIndicate) : b'.Sound where
  lists m := by
    obtain ⟨l, hl, hmem⟩ := h.lists m
    refine ⟨l, ?_, fun x => by rw [hinited, hmem]⟩
    unfold IsListOf
    rw [hlists m]
    exact hl
  numbered := hk.numbered h.numbered
  live m x hx := by
    rw [hinited] at hx
    rw [hk.sem m x hx]
    exact hk.live h.numbered _ (h.live m x hx)
  semInj m x m' x' hx hx' hs := by
    rw [hinited] at hx hx'
    rw [hk.sem m x hx, hk.sem m' x' hx'] at hs
    exact h.semInj m x m' x' hx hx' hs
  bound m x d hx hd := by
    rw [hinited] at hx
    rw [hk.timerDev m x hx] at hd
    obtain ⟨hopen, hd⟩ := h.bound m x d hx hd
    exact ⟨hk.opened d hopen, hrx ▸ hd⟩
  devInj m x m' x' d hx hx' hd hd' := by
    rw [hinited] at hx hx'
    rw [hk.timerDev m x hx] at hd
    rw [hk.timerDev m' x' hx'] at hd'
    exact h.devInj m x m' x' d hx hx' hd hd'
  served m d hd := by
    rw [hrx] at hd
    obtain ⟨x, hx, hdev⟩ := h.served m d hd
    exact ⟨x, hinited ▸ hx, (hk.timerDev m x hx).trans hdev⟩

/-- The list after a registration. -/
theorem isListOf_registered {b b' : Board ι δ} {m m' : Loop} {x : ι} {d : δ} {l : List ι}
    (hd : Registered m x d b.timers b'.timers) :
    b'.IsListOf m' l ↔
      if m' = m then ∃ l', l = x :: l' ∧ x ∉ l' ∧ b.IsListOf m l' else b.IsListOf m' l := by
  unfold IsListOf
  split_ifs with hm
  · subst hm
    rw [hd.head]
    exact isList_push
  · rw [hd.others m' hm]

/-- A call that registers its instance and succeeds. The device was closed, so no initialised
instance is bound to it. -/
theorem Sound.of_registered {b b' : Board ι δ} {m : Loop} {x : ι} {d : δ} (h : b.Sound)
    (hk : Keeps b b') (hx : b.inited m x = false) (hd : Registered m x d b.timers b'.timers)
    (hinited : b'.inited = Function.update b.inited m (Function.update (b.inited m) x true))
    (hsem : (b'.timers.reg m).sem x = b.timers.created + 1)
    (hlive : b.timers.created + 1 ∈ b'.timers.live) : b'.Sound := by
  have hiff : ∀ m' y, b'.inited m' y = true ↔ b.inited m' y = true ∨ m' = m ∧ y = x := by
    intro m' y
    rw [hinited]
    rcases eq_or_ne m' m with rfl | hm
    · rcases eq_or_ne y x with rfl | hy <;> simp [*]
    · simp [hm]
  have hfresh : ∀ m' y, b.inited m' y = true → (b'.timers.reg m').sem y ≠ b.timers.created + 1 := by
    intro m' y hy hs
    rw [hk.sem m' y hy] at hs
    have := h.numbered _ (h.live m' y hy)
    omega
  have hother : ∀ m' y e, b.inited m' y = true → (b'.timers.reg m').timerDev y = some e →
      (b.timers.opened e = true ∧ b.timers.rxIndicate e = some m') ∧ e ≠ d := by
    intro m' y e hy hdev
    rw [hk.timerDev m' y hy] at hdev
    have hbound := h.bound m' y e hy hdev
    refine ⟨hbound, ?_⟩
    rintro rfl
    rw [hd.closed] at hbound
    cases hbound.1
  have hnew : ∀ e, (b'.timers.reg m).timerDev x = some e → e = d := fun e he =>
    Option.some.inj (he.symm.trans hd.timerDev)
  constructor
  case lists =>
    intro m'
    simp only [isListOf_registered hd]
    obtain ⟨l, hl, hmem⟩ := h.lists m'
    split_ifs with hm
    · subst hm
      have hxl : x ∉ l := fun hxl => by simp [(hmem x).mp hxl] at hx
      refine ⟨x :: l, ⟨l, rfl, hxl, hl⟩, fun y => ?_⟩
      rw [List.mem_cons, hmem, hiff]
      tauto
    · exact ⟨l, hl, fun y => by rw [hmem, hiff]; tauto⟩
  case numbered => exact hk.numbered h.numbered
  case live =>
    intro m' y hy
    rcases (hiff m' y).mp hy with hy | ⟨rfl, rfl⟩
    · rw [hk.sem m' y hy]
      exact hk.live h.numbered _ (h.live m' y hy)
    · rwa [hsem]
  case semInj =>
    intro m₁ y₁ m₂ y₂ h₁ h₂ hs
    rcases (hiff m₁ y₁).mp h₁ with h₁ | ⟨rfl, rfl⟩ <;>
      rcases (hiff m₂ y₂).mp h₂ with h₂ | ⟨rfl, rfl⟩
    · rw [hk.sem m₁ y₁ h₁, hk.sem m₂ y₂ h₂] at hs
      exact h.semInj m₁ y₁ m₂ y₂ h₁ h₂ hs
    · exact absurd (hs.trans hsem) (hfresh m₁ y₁ h₁)
    · exact absurd (hs.symm.trans hsem) (hfresh m₂ y₂ h₂)
    · exact ⟨rfl, rfl⟩
  case bound =>
    intro m' y e hy he
    rw [hd.rxIndicate]
    rcases (hiff m' y).mp hy with hy | ⟨rfl, rfl⟩
    · obtain ⟨⟨hopen, hrx⟩, hne⟩ := hother m' y e hy he
      exact ⟨hk.opened e hopen, by simpa [hne] using hrx⟩
    · obtain rfl := hnew e he
      exact ⟨hd.opened, by simp⟩
  case devInj =>
    intro m₁ y₁ m₂ y₂ e h₁ h₂ he₁ he₂
    rcases (hiff m₁ y₁).mp h₁ with h₁ | ⟨rfl, rfl⟩ <;>
      rcases (hiff m₂ y₂).mp h₂ with h₂ | ⟨rfl, rfl⟩
    · rw [hk.timerDev m₁ y₁ h₁] at he₁
      rw [hk.timerDev m₂ y₂ h₂] at he₂
      exact h.devInj m₁ y₁ m₂ y₂ e h₁ h₂ he₁ he₂
    · exact absurd (hnew e he₂) (hother m₁ y₁ e h₁ he₁).2
    · exact absurd (hnew e he₁) (hother m₂ y₂ e h₂ he₂).2
    · exact ⟨rfl, rfl⟩
  case served =>
    intro m' e he
    rw [hd.rxIndicate] at he
    rcases eq_or_ne e d with rfl | hne
    · simp only [Function.update_self, Option.some.injEq] at he
      subst he
      exact ⟨x, (hiff m x).mpr (.inr ⟨rfl, rfl⟩), hd.timerDev⟩
    · obtain ⟨y, hy, hdev⟩ := h.served m' e (by simpa [hne] using he)
      exact ⟨y, (hiff m' y).mpr (.inl hy), (hk.timerDev m' y hy).trans hdev⟩

/-- A call that does not fail late keeps the invariant; if it fails, it leaves all lists as they
were. -/
theorem Sound.next {b : Board ι δ} (h : b.Sound) {c : InitCall ι δ} (hc : ¬b.LateFailure c) :
    (b.ensureInited c).2.Sound ∧ ((b.ensureInited c).1 ≠ 0 →
      ∀ m, (b.ensureInited c).2.timers.listOf m = b.timers.listOf m) := by
  obtain ⟨hk, ⟨-, hinited, hlists, hrx⟩ | ⟨hx, d, hd, hlate | ⟨-, hret, hinited, hsem, hlive⟩⟩⟩ :=
    b.ensureInited_cases c
  · exact ⟨h.of_keeps hk hinited hlists hrx, fun _ => hlists⟩
  · exact absurd hlate.1 hc
  · exact ⟨h.of_registered hk hx hd hinited hsem hlive, fun h => absurd hret h⟩

/-! ## Broken lists -/

/-- The list of the module is no list, or holds an instance that is not initialised. -/
def Broken (b : Board ι δ) (m : Loop) : Prop :=
  ∀ l, b.IsListOf m l → ∃ x ∈ l, b.inited m x = false

/-- A late failure breaks the list. -/
theorem broken_of_lateFailure {b : Board ι δ} {c : InitCall ι δ} (hc : b.LateFailure c) :
    (b.ensureInited c).2.Broken c.loop := by
  obtain ⟨-, hearly | ⟨hx, d, hd, ⟨-, hinited⟩ | hok⟩⟩ := b.ensureInited_cases c
  · exact absurd hc hearly.1
  · intro l hl
    rw [isListOf_registered hd, if_pos rfl] at hl
    obtain ⟨l', rfl, -, -⟩ := hl
    exact ⟨c.inst, by simp, by rwa [hinited]⟩
  · exact absurd hc hok.1

/-- No call repairs a broken list. -/
theorem Broken.next {b : Board ι δ} {m : Loop} (h : b.Broken m) (c : InitCall ι δ) :
    (b.ensureInited c).2.Broken m := by
  obtain ⟨-, ⟨-, hinited, hlists, -⟩ | ⟨hx, d, hd, hret⟩⟩ := b.ensureInited_cases c
  · intro l hl
    unfold IsListOf at hl
    rw [hlists m] at hl
    rw [hinited]
    exact h l hl
  · -- the instances that were in the list before are still there, and the call initialises another
    have hinited : ∀ y, (m, y) ≠ (c.loop, c.inst) →
        (b.ensureInited c).2.inited m y = b.inited m y := by
      intro y hy
      rcases hret with ⟨-, hinited⟩ | ⟨-, -, hinited, -⟩ <;> rw [hinited]
      rcases eq_or_ne m c.loop with rfl | hm
      · have hne : y ≠ c.inst := fun h => hy (by rw [h])
        simp [hne]
      · simp [hm]
    intro l hl
    rw [isListOf_registered hd] at hl
    split_ifs at hl with hm
    · subst hm
      obtain ⟨l', rfl, hxl, hl⟩ := hl
      obtain ⟨y, hy, hyfalse⟩ := h l' hl
      have hne : (c.loop, y) ≠ (c.loop, c.inst) := by
        rintro ⟨⟩
        exact hxl hy
      exact ⟨y, List.mem_cons_of_mem _ hy, (hinited y hne).trans hyfalse⟩
    · obtain ⟨y, hy, hyfalse⟩ := h l hl
      have hne : (m, y) ≠ (c.loop, c.inst) := by
        rintro ⟨⟩
        exact hm rfl
      exact ⟨y, hy, (hinited y hne).trans hyfalse⟩

/-! ## Sequences of calls -/

/-- The list holds exactly the initialised instances, each once and with a semaphore that exists. -/
def Exact (b : Board ι δ) (m : Loop) : Prop :=
  ∃ l, b.IsListOf m l ∧ l.Nodup ∧ (∀ x, x ∈ l ↔ b.inited m x = true) ∧
    ∀ x ∈ l, (b.timers.reg m).sem x ∈ b.timers.live

/-- Every call that fails leaves all lists as they were. -/
def FailuresKeepLists : Board ι δ → List (InitCall ι δ) → Prop
  | _, [] => True
  | b, c :: cs =>
    ((b.ensureInited c).1 ≠ 0 →
      ∀ m, (b.ensureInited c).2.timers.listOf m = b.timers.listOf m) ∧
    FailuresKeepLists (b.ensureInited c).2 cs

/-- No call fails after it has registered its instance. -/
def NoLateFailure : Board ι δ → List (InitCall ι δ) → Prop
  | _, [] => True
  | b, c :: cs => ¬b.LateFailure c ∧ NoLateFailure (b.ensureInited c).2 cs

omit [DecidableEq ι] [DecidableEq δ] in
theorem Sound.exact {b : Board ι δ} (h : b.Sound) (m : Loop) : b.Exact m := by
  obtain ⟨l, hl, hmem⟩ := h.lists m
  exact ⟨l, hl, hl.nodup, hmem, fun x hx => h.live m x ((hmem x).mp hx)⟩

omit [DecidableEq ι] in
/-- The callback ends when it searches a list. -/
theorem Exact.timerIsr {b : Board ι δ} {m : Loop} (h : b.Exact m) (d : δ) :
    ∃ n, (b.timers.timerIsr m d n).isSome = true := by
  obtain ⟨l, hl, -⟩ := h
  refine ⟨l.length + 1, ?_⟩
  have hfind := IsList.find_eq hl (fun x => decide ((b.timers.reg m).timerDev x = some d))
    (Nat.lt_succ_self _)
  simp only [listOf] at hfind
  simp [Timers.timerIsr, hfind]

omit [DecidableEq ι] [DecidableEq δ] in
theorem Broken.not_exact {b : Board ι δ} {m : Loop} (h : b.Broken m) : ¬b.Exact m := by
  rintro ⟨l, hl, -, hmem, -⟩
  obtain ⟨x, hx, hfalse⟩ := h l hl
  rw [(hmem x).mp hx] at hfalse
  cases hfalse

theorem Sound.run {b : Board ι δ} (h : b.Sound) {cs : List (InitCall ι δ)}
    (hcs : NoLateFailure b cs) : (b.run cs).Sound ∧ FailuresKeepLists b cs := by
  induction cs generalizing b with
  | nil => exact ⟨h, trivial⟩
  | cons c cs ih =>
    obtain ⟨hnext, hkeep⟩ := h.next hcs.1
    exact ⟨(ih hnext hcs.2).1, hkeep, (ih hnext hcs.2).2⟩

theorem Broken.run {b : Board ι δ} {m : Loop} (h : b.Broken m) (cs : List (InitCall ι δ)) :
    (b.run cs).Broken m := by
  induction cs generalizing b with
  | nil => exact h
  | cons c cs ih => exact ih (h.next c)

/-- A late failure anywhere in the sequence leaves a broken list at its end. -/
theorem exists_broken_run {b : Board ι δ} {cs : List (InitCall ι δ)} (hcs : ¬NoLateFailure b cs) :
    ∃ m, (b.run cs).Broken m := by
  induction cs generalizing b with
  | nil => exact absurd trivial hcs
  | cons c cs ih =>
    by_cases hc : b.LateFailure c
    · exact ⟨c.loop, (broken_of_lateFailure hc).run cs⟩
    · exact ih fun h => hcs ⟨hc, h⟩

end Board

open Board

/-- **Registration.** After a sequence of `ensure_inited` calls on any instances of the three
modules, with any answers of the system: the lists are exact, every search of a callback ends, and
the failed calls have left the lists as they were, if and only if no call has failed late. -/
theorem registration_iff (cs : List (InitCall ι δ)) :
    ((∀ m, ((zeroed : Board ι δ).run cs).Exact m) ∧
      (∀ m d, ∃ n, (((zeroed : Board ι δ).run cs).timers.timerIsr m d n).isSome = true) ∧
        FailuresKeepLists zeroed cs) ↔
      NoLateFailure zeroed cs := by
  constructor
  · rintro ⟨hexact, -, -⟩
    by_contra hcs
    obtain ⟨m, hm⟩ := exists_broken_run hcs
    exact hm.not_exact (hexact m)
  · intro hcs
    obtain ⟨hsound, hkeep⟩ := sound_zeroed.run hcs
    exact ⟨hsound.exact, fun m => (hsound.exact m).timerIsr, hkeep⟩

/-- An init on the timer `d` whose every step succeeds. -/
def goodAnswers (d : ℕ) : Answers ℕ := ⟨true, some d, .eOk, .eOk, .eOk, sizeofHwtimerval, true⟩

/-- An init of the position loop 0 on timer 4 whose thread cannot be created. -/
def threadless : InitCall ℕ ℕ := ⟨.position, 0, true, { goodAnswers 4 with threadCreated := false }⟩

/-- The instance stays in the list, and the next event releases its deleted semaphore; when it is
initialised again on timer 5, it links to itself, and the search of an event on timer 4 does not
end. -/
theorem registration_broken :
    let b := (zeroed : Board ℕ ℕ).run [threadless]
    let b' := b.run [⟨.position, 0, true, goodAnswers 5⟩]
    (zeroed.ensureInited threadless).1 = -1 ∧ ¬b.Exact .position ∧
      b.timers.timerEvent 4 1 = some [1] ∧ 1 ∉ b.timers.live ∧
      b'.inited .position 0 = true ∧ ∀ n, b'.timers.timerEvent 4 n = none := by
  refine ⟨by decide, ?_, by decide, by decide, by decide, fun n => ?_⟩
  · refine Broken.not_exact (broken_of_lateFailure ?_)
    refine ⟨rfl, rfl, ⟨rfl, 4, rfl, .inr rfl, rfl, rfl⟩, .inr (.inr rfl)⟩
  · exact congrArg (Option.map _) (find_loop (x := 0) (by decide) (by decide) n)

end H750Stepper
