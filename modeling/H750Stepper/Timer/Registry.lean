import H750Stepper.Lib.Links

/-!
# Controllers and hardware timers

`position_loop_init`, `speed_loop_init` and `stepper_openloop_init` register an instance in the
list of their module and install the module's callback on a hardware timer; at a timer event the
callback searches its list and releases the semaphore of an instance. This module has the three
inits, the three callbacks, and `ensure_inited`, which calls an init again until it has succeeded.
The fields that init sets for the control loop are left out.

RT-Thread's part: `rt_device_open` of `device.c` as it is for a hardware timer, which `hwtimer.c`
registers as a standalone device, so one that is open is busy; the one `rx_indicate` of a device;
semaphores that are created and deleted. What the drivers below answer is a parameter of each call.
-/

namespace H750Stepper

open Links

/-! ## State -/

/-- The three modules. -/
inductive Loop where
  | position | speed | openLoop
  deriving DecidableEq

/-- `rt_err_t`: `RT_EOK`, or a negated error code. -/
inductive RtErr where
  | eOk | eError | eNoMem | eNoSys | eBusy
  | other (code : ℕ)
  deriving DecidableEq

/-- `sizeof(rt_hwtimerval_t)` -/
def sizeofHwtimerval : ℤ := 8

/-- The instances of one module: the head of its list, and the fields of each instance that the
callback reads. -/
structure Registry (ι δ : Type) where
  list : Option ι
  next : ι → Option ι
  sem : ι → ℕ
  timerDev : ι → Option δ

/-- The three modules with what RT-Thread keeps: for each timer device whether it is initialised and
open, and its `rx_indicate`; the semaphores that exist, and how many were ever created. The handle 0
is null. -/
structure Timers (ι δ : Type) where
  reg : Loop → Registry ι δ
  activated : δ → Bool
  opened : δ → Bool
  rxIndicate : δ → Option Loop
  live : Finset ℕ
  created : ℕ

/-- What the calls of one init are answered: whether the semaphore is created, the device found,
the results of its init and open, the result of `HWTIMER_CTRL_MODE_SET`, the bytes written, and
whether the thread is created. -/
structure Answers (δ : Type) where
  semCreated : Bool
  device : Option δ
  initRet : RtErr
  openRet : RtErr
  modeRet : RtErr
  written : ℤ
  threadCreated : Bool

namespace Timers

variable {ι δ : Type} [DecidableEq ι] [DecidableEq δ]

/-- Static memory before any call. -/
def zeroed : Timers ι δ where
  reg _ := { list := none, next := fun _ => none, sem := fun _ => 0, timerDev := fun _ => none }
  activated _ := false
  opened _ := false
  rxIndicate _ := none
  live := ∅
  created := 0

def modify (m : Loop) (f : Registry ι δ → Registry ι δ) (s : Timers ι δ) : Timers ι δ :=
  { s with reg := Function.update s.reg m (f (s.reg m)) }

def setSem (m : Loop) (x : ι) (h : ℕ) : Timers ι δ → Timers ι δ :=
  modify m fun r => { r with sem := Function.update r.sem x h }

def setTimerDev (m : Loop) (x : ι) (d : Option δ) : Timers ι δ → Timers ι δ :=
  modify m fun r => { r with timerDev := Function.update r.timerDev x d }

/-- The registration: `next = list; list = x`. -/
def link (m : Loop) (x : ι) : Timers ι δ → Timers ι δ :=
  modify m fun r => { r with next := Function.update r.next x r.list, list := some x }

/-- `rt_sem_create`, with the new handle `created + 1`. -/
def semCreate (s : Timers ι δ) : Timers ι δ :=
  { s with live := insert (s.created + 1) s.live, created := s.created + 1 }

/-- `rt_sem_delete` -/
def semDelete (h : ℕ) (s : Timers ι δ) : Timers ι δ := { s with live := s.live.erase h }

/-- `rt_device_set_rx_indicate` -/
def setRxIndicate (d : δ) (m : Loop) (s : Timers ι δ) : Timers ι δ :=
  { s with rxIndicate := Function.update s.rxIndicate d (some m) }

/-- `rt_device_open` of a standalone device. -/
def deviceOpen (d : δ) (a : Answers δ) (s : Timers ι δ) : RtErr × Timers ι δ :=
  if s.activated d = false ∧ a.initRet ≠ .eOk then (a.initRet, s)
  else
    let s := { s with activated := Function.update s.activated d true }
    if s.opened d then (.eBusy, s)
    else if a.openRet = .eOk ∨ a.openRet = .eNoSys then
      (a.openRet, { s with opened := Function.update s.opened d true })
    else (a.openRet, s)

/-- The semaphore and the device that an init stores in the instance. -/
def prepare (m : Loop) (x : ι) (device : Option δ) (s : Timers ι δ) : Timers ι δ :=
  (s.semCreate.setSem m x s.semCreate.created).setTimerDev m x device

/-- The three inits; only that of the speed loop looks at the result of the mode. -/
def init (checksMode : Bool) (m : Loop) (x : ι) (a : Answers δ) (s : Timers ι δ) :
    RtErr × Timers ι δ :=
  if a.semCreated then
    let s := s.prepare m x a.device
    let h := s.created
    match a.device with
    | none => (.eError, s.semDelete h)
    | some d =>
      let opening := s.deviceOpen d a
      if opening.1 ≠ .eOk then (opening.1, opening.2.semDelete h)
      else
        let s := (opening.2.link m x).setRxIndicate d m
        if checksMode ∧ a.modeRet ≠ .eOk then (a.modeRet, s.semDelete h)
        else if a.written ≠ sizeofHwtimerval then (.eError, s.semDelete h)
        else if a.threadCreated then (.eOk, s)
        else (.eNoMem, s.semDelete h)
  else (.eNoMem, s.setSem m x 0)

/-- `position_loop_init` -/
def positionLoopInit (x : ι) : Answers δ → Timers ι δ → RtErr × Timers ι δ := init false .position x

/-- `speed_loop_init` -/
def speedLoopInit (x : ι) : Answers δ → Timers ι δ → RtErr × Timers ι δ := init true .speed x

/-- `stepper_openloop_init` -/
def stepperOpenloopInit (x : ι) : Answers δ → Timers ι δ → RtErr × Timers ι δ :=
  init false .openLoop x

/-- The callback of a module: the semaphores released, at most one, because the search ends with
the first instance of the device. -/
def timerIsr (m : Loop) (d : δ) (n : ℕ) (s : Timers ι δ) : Option (List ℕ) :=
  (find (s.reg m).next (fun x => (s.reg m).timerDev x = some d) n (s.reg m).list).map fun o =>
    (o.map (s.reg m).sem).toList

omit [DecidableEq ι] in
theorem timerIsr_of_le {s : Timers ι δ} {m : Loop} {d : δ} {n k : ℕ} {released : List ℕ}
    (h : s.timerIsr m d n = some released) (hnk : n ≤ k) : s.timerIsr m d k = some released := by
  unfold timerIsr at h ⊢
  obtain ⟨o, ho, rfl⟩ := Option.map_eq_some_iff.mp h
  rw [find_of_le ho hnk]
  rfl

/-- `pl_timer_isr` -/
def plTimerIsr : δ → ℕ → Timers ι δ → Option (List ℕ) := timerIsr .position

/-- `sl_timer_isr` -/
def slTimerIsr : δ → ℕ → Timers ι δ → Option (List ℕ) := timerIsr .speed

/-- `ol_timer_isr` -/
def olTimerIsr : δ → ℕ → Timers ι δ → Option (List ℕ) := timerIsr .openLoop

/-- A timer event on `d`: the semaphores released, or `none` when the callback has used up `n`
rounds of its search. -/
def timerEvent (d : δ) (n : ℕ) (s : Timers ι δ) : Option (List ℕ) :=
  match s.rxIndicate d with
  | none => some []
  | some .position => plTimerIsr d n s
  | some .speed => slTimerIsr d n s
  | some .openLoop => olTimerIsr d n s

omit [DecidableEq ι] in
theorem timerEvent_of_rxIndicate {s : Timers ι δ} {d : δ} {m : Loop}
    (h : s.rxIndicate d = some m) (n : ℕ) : s.timerEvent d n = s.timerIsr m d n := by
  cases m <;> simp only [timerEvent, h] <;> rfl

/-! ## What an init does -/

/-- The steps of an init up to the registration succeed. -/
def Registers (a : Answers δ) (s : Timers ι δ) : Prop :=
  a.semCreated = true ∧ ∃ d, a.device = some d ∧ (s.activated d = true ∨ a.initRet = .eOk) ∧
    s.opened d = false ∧ a.openRet = .eOk

/-- A step of an init after the registration fails. -/
def FailsLate (checksMode : Bool) (a : Answers δ) : Prop :=
  (checksMode = true ∧ a.modeRet ≠ .eOk) ∨ a.written ≠ sizeofHwtimerval ∨ a.threadCreated = false

/-- The semaphore handles in use have been created. -/
def Numbered (s : Timers ι δ) : Prop := ∀ h ∈ s.live, h ≤ s.created

/-- Between `s` and `s'` the semaphore and the device of no instance but `x` change, no semaphore is
deleted, and no device is closed. -/
structure Spares (m : Loop) (x : ι) (s s' : Timers ι δ) : Prop where
  sem : ∀ m' y, (m', y) ≠ (m, x) → (s'.reg m').sem y = (s.reg m').sem y
  timerDev : ∀ m' y, (m', y) ≠ (m, x) → (s'.reg m').timerDev y = (s.reg m').timerDev y
  live : s.Numbered → ∀ h ∈ s.live, h ∈ s'.live
  numbered : s.Numbered → s'.Numbered
  opened : ∀ d, s.opened d = true → s'.opened d = true

namespace Spares

variable {m : Loop} {x : ι} {s s' s'' : Timers ι δ}

section

omit [DecidableEq ι] [DecidableEq δ]

/-- The instances and the semaphores stay as they are. -/
theorem of_eq (hreg : s'.reg = s.reg) (hlive : s'.live = s.live) (hcreated : s'.created = s.created)
    (hopened : ∀ d, s.opened d = true → s'.opened d = true) : Spares m x s s' where
  sem _ _ _ := by rw [hreg]
  timerDev _ _ _ := by rw [hreg]
  live _ _ hh := by rwa [hlive]
  numbered hs := by
    unfold Numbered
    rwa [hlive, hcreated]
  opened := hopened

theorem refl (s : Timers ι δ) : Spares m x s s := of_eq rfl rfl rfl fun _ hd => hd

theorem trans (h : Spares m x s s') (h' : Spares m x s' s'') : Spares m x s s'' where
  sem m' y hne := (h'.sem m' y hne).trans (h.sem m' y hne)
  timerDev m' y hne := (h'.timerDev m' y hne).trans (h.timerDev m' y hne)
  live hs a ha := h'.live (h.numbered hs) a (h.live hs a ha)
  numbered hs := h'.numbered (h.numbered hs)
  opened d hd := h'.opened d (h.opened d hd)

theorem modify (f : Registry ι δ → Registry ι δ)
    (hsem : ∀ r y, y ≠ x → (f r).sem y = r.sem y)
    (hdev : ∀ r y, y ≠ x → (f r).timerDev y = r.timerDev y) (s : Timers ι δ) :
    Spares m x s (s.modify m f) where
  sem m' y hne := by
    rcases eq_or_ne m' m with rfl | hm
    · simpa [Timers.modify] using hsem _ y (by simpa using hne)
    · simp [Timers.modify, hm]
  timerDev m' y hne := by
    rcases eq_or_ne m' m with rfl | hm
    · simpa [Timers.modify] using hdev _ y (by simpa using hne)
    · simp [Timers.modify, hm]
  live _ _ hh := hh
  numbered hs := hs
  opened _ hd := hd

theorem semCreate (s : Timers ι δ) : Spares m x s s.semCreate where
  sem _ _ _ := rfl
  timerDev _ _ _ := rfl
  live _ h hh := Finset.mem_insert_of_mem hh
  numbered hs h hh := by
    rcases Finset.mem_insert.mp hh with rfl | hh
    · exact le_rfl
    · exact (hs h hh).trans (Nat.le_succ _)
  opened _ hd := hd

/-- A semaphore created since `s` may be deleted. -/
theorem semDelete (h : Spares m x s s') {k : ℕ} (hk : s.created < k) :
    Spares m x s (s'.semDelete k) where
  sem := h.sem
  timerDev := h.timerDev
  live hs a ha := Finset.mem_erase.mpr
    ⟨((hs a ha).trans_lt hk).ne, h.live hs a ha⟩
  numbered hs a ha := h.numbered hs a (Finset.mem_of_mem_erase ha)
  opened := h.opened

end

section

omit [DecidableEq δ]

theorem setSem (k : ℕ) (s : Timers ι δ) : Spares m x s (s.setSem m x k) :=
  .modify (fun r => { r with sem := Function.update r.sem x k })
    (fun _ _ hy => Function.update_of_ne hy ..) (fun _ _ _ => rfl) s

theorem setTimerDev (d : Option δ) (s : Timers ι δ) : Spares m x s (s.setTimerDev m x d) :=
  .modify (fun r => { r with timerDev := Function.update r.timerDev x d }) (fun _ _ _ => rfl)
    (fun _ _ hy => Function.update_of_ne hy ..) s

theorem link (s : Timers ι δ) : Spares m x s (s.link m x) :=
  .modify (fun r => { r with next := Function.update r.next x r.list, list := some x })
    (fun _ _ _ => rfl) (fun _ _ _ => rfl) s

end

section

omit [DecidableEq ι]

theorem setRxIndicate (d : δ) (m' : Loop) (s : Timers ι δ) :
    Spares m x s (s.setRxIndicate d m') := of_eq rfl rfl rfl fun _ hd => hd

theorem deviceOpen (d : δ) (a : Answers δ) (s : Timers ι δ) :
    Spares m x s (s.deviceOpen d a).2 := by
  have hset : ∀ e, s.opened e = true → Function.update s.opened d true e = true := by
    intro e he
    rcases eq_or_ne e d with rfl | hne
    · simp
    · simpa [hne] using he
  unfold Timers.deviceOpen
  dsimp only
  split_ifs
  · exact .refl s
  · exact of_eq rfl rfl rfl fun _ hd => hd
  · exact of_eq rfl rfl rfl hset
  · exact of_eq rfl rfl rfl fun _ hd => hd

end

end Spares

omit [DecidableEq δ] in
theorem prepare_spares (m : Loop) (x : ι) (device : Option δ) (s : Timers ι δ) :
    Spares m x s (s.prepare m x device) :=
  ((Spares.semCreate s).trans (.setSem _ _)).trans (.setTimerDev _ _)

theorem init_spares (checksMode : Bool) (m : Loop) (x : ι) (a : Answers δ) (s : Timers ι δ) :
    Spares m x s (s.init checksMode m x a).2 := by
  have hprepare := prepare_spares m x a.device s
  have hopen := fun d => hprepare.trans (.deviceOpen d a _)
  have hlink := fun d => ((hopen d).trans (.link _)).trans (.setRxIndicate d m _)
  have hfresh : s.created < (s.prepare m x a.device).created := Nat.lt_succ_self _
  cases hcreated : a.semCreated with
  | false => simpa [init, hcreated] using .setSem 0 s
  | true =>
    cases hdev : a.device with
    | none => simpa [init, hcreated, hdev] using hprepare.semDelete hfresh
    | some d =>
      rw [hdev] at hopen hlink hfresh
      simp only [init, hcreated, hdev, if_true]
      split_ifs
      · exact (hopen d).semDelete hfresh
      · exact (hlink d).semDelete hfresh
      · exact (hlink d).semDelete hfresh
      · exact hlink d
      · exact (hlink d).semDelete hfresh

/-- The list of a module: its head and its links. -/
def listOf (s : Timers ι δ) (m : Loop) : Option ι × (ι → Option ι) :=
  ((s.reg m).list, (s.reg m).next)

omit [DecidableEq δ] in
theorem listOf_setSem (m m' : Loop) (x : ι) (k : ℕ) (s : Timers ι δ) :
    (s.setSem m x k).listOf m' = s.listOf m' := by
  rcases eq_or_ne m' m with rfl | hm <;> simp [listOf, setSem, modify, *]

omit [DecidableEq δ] in
theorem listOf_prepare (m m' : Loop) (x : ι) (device : Option δ) (s : Timers ι δ) :
    (s.prepare m x device).listOf m' = s.listOf m' := by
  rcases eq_or_ne m' m with rfl | hm <;>
    simp [listOf, prepare, setTimerDev, setSem, semCreate, modify, *]

omit [DecidableEq ι] in
/-- Opening a device leaves the instances, the callbacks and the semaphores. -/
theorem deviceOpen_frame (d : δ) (a : Answers δ) (s : Timers ι δ) :
    (s.deviceOpen d a).2.reg = s.reg ∧ (s.deviceOpen d a).2.rxIndicate = s.rxIndicate ∧
      (s.deviceOpen d a).2.live = s.live := by
  unfold deviceOpen
  dsimp only
  split_ifs <;> exact ⟨rfl, rfl, rfl⟩

omit [DecidableEq ι] in
/-- A device that is opened was closed before. -/
theorem deviceOpen_eOk {d : δ} {a : Answers δ} {s : Timers ι δ} :
    (s.deviceOpen d a).1 = .eOk ↔
      (s.activated d = true ∨ a.initRet = .eOk) ∧ s.opened d = false ∧ a.openRet = .eOk := by
  unfold deviceOpen
  cases hact : s.activated d <;> cases hopen : s.opened d <;> by_cases hinit : a.initRet = .eOk <;>
    by_cases ho : a.openRet = .eOk <;> simp_all
  all_goals split_ifs <;> simp_all

omit [DecidableEq ι] in
theorem deviceOpen_opened {d : δ} {a : Answers δ} {s : Timers ι δ}
    (h : (s.deviceOpen d a).1 = .eOk) : (s.deviceOpen d a).2.opened d = true := by
  obtain ⟨hact, hopen, ho⟩ := deviceOpen_eOk.mp h
  have hinit : ¬(s.activated d = false ∧ a.initRet ≠ .eOk) := by
    rcases hact with hact | hinit <;> simp [*]
  simp [deviceOpen, hinit, hopen, ho]

variable {checksMode : Bool} {m : Loop} {x : ι} {a : Answers δ} {s : Timers ι δ}

/-- An init that does not come to register fails, and leaves the lists and the callbacks. -/
theorem init_of_not_registers (h : ¬Registers a s) :
    (s.init checksMode m x a).1 ≠ .eOk ∧
      (∀ m', (s.init checksMode m x a).2.listOf m' = s.listOf m') ∧
      (s.init checksMode m x a).2.rxIndicate = s.rxIndicate := by
  cases hcreated : a.semCreated with
  | false =>
    simp only [init, hcreated, Bool.false_eq_true, if_false]
    exact ⟨by decide, fun m' => listOf_setSem .., rfl⟩
  | true =>
    cases hdev : a.device with
    | none =>
      simp only [init, hcreated, hdev, if_true]
      exact ⟨by decide, fun m' => listOf_prepare .., rfl⟩
    | some d =>
      have hopen : ((s.prepare m x (some d)).deviceOpen d a).1 ≠ .eOk := by
        intro hok
        have hok := deviceOpen_eOk.mp hok
        exact h ⟨hcreated, d, hdev, hok⟩
      simp only [init, hcreated, hdev, if_true, if_pos hopen]
      obtain ⟨hreg, hrx, -⟩ := deviceOpen_frame d a (s.prepare m x (some d))
      refine ⟨hopen, fun m' => ?_, hrx⟩
      rw [← listOf_prepare m m' x (some d) s]
      simp only [listOf, semDelete, hreg]

/-- What an init that has registered leaves: the instance in front of its list, bound to a device
that was closed before. -/
structure Registered (m : Loop) (x : ι) (d : δ) (s s' : Timers ι δ) : Prop where
  closed : s.opened d = false
  opened : s'.opened d = true
  timerDev : (s'.reg m).timerDev x = some d
  head : s'.listOf m = (some x, Function.update (s.listOf m).2 x (s.listOf m).1)
  others : ∀ m' ≠ m, s'.listOf m' = s.listOf m'
  rxIndicate : s'.rxIndicate = Function.update s.rxIndicate d (some m)

theorem Registered.semDelete {d : δ} {s' : Timers ι δ} (h : Registered m x d s s') (k : ℕ) :
    Registered m x d s (s'.semDelete k) :=
  ⟨h.closed, h.opened, h.timerDev, h.head, h.others, h.rxIndicate⟩

theorem init_of_registers (h : Registers a s) :
    (∃ d, Registered m x d s (s.init checksMode m x a).2) ∧
      (FailsLate checksMode a → (s.init checksMode m x a).1 ≠ .eOk) ∧
      (¬FailsLate checksMode a → (s.init checksMode m x a).1 = .eOk ∧
        ((s.init checksMode m x a).2.reg m).sem x = s.created + 1 ∧
        s.created + 1 ∈ (s.init checksMode m x a).2.live) := by
  obtain ⟨hcreated, d, hdev, hok⟩ := h
  set opening := (s.prepare m x (some d)).deviceOpen d a with hopening
  have hopen : opening.1 = .eOk := deviceOpen_eOk.mpr hok
  obtain ⟨hreg, hrx, hlive⟩ : opening.2.reg = _ ∧ opening.2.rxIndicate = _ ∧ opening.2.live = _ :=
    deviceOpen_frame d a (s.prepare m x (some d))
  set linked := (opening.2.link m x).setRxIndicate d m with hlinked
  have hregistered : Registered m x d s linked := by
    refine ⟨hok.2.1, deviceOpen_opened hopen, ?_, ?_, fun m' hm => ?_, ?_⟩
    · simp [hlinked, setRxIndicate, link, modify, hreg, prepare, setTimerDev]
    · rw [← listOf_prepare m m x (some d) s]
      simp [hlinked, listOf, setRxIndicate, link, modify, hreg]
    · rw [← listOf_prepare m m' x (some d) s]
      simp [hlinked, listOf, setRxIndicate, link, modify, hreg, hm]
    · simp [hlinked, setRxIndicate, link, modify, hrx, prepare, setTimerDev, setSem, semCreate]
  have hinit : s.init checksMode m x a =
      if checksMode ∧ a.modeRet ≠ .eOk then (a.modeRet, linked.semDelete (s.created + 1))
      else if a.written ≠ sizeofHwtimerval then (.eError, linked.semDelete (s.created + 1))
      else if a.threadCreated then (.eOk, linked)
      else (.eNoMem, linked.semDelete (s.created + 1)) := by
    simp only [init, hcreated, hdev, if_true, ← hopening, hopen, ne_eq, not_true_eq_false, if_false]
    rfl
  have hsem : (linked.reg m).sem x = s.created + 1 := by
    simp [hlinked, setRxIndicate, link, modify, hreg, prepare, setTimerDev, setSem, semCreate]
  have hlive : s.created + 1 ∈ linked.live := by
    have hmem : s.created + 1 ∈ opening.2.live := by
      rw [hlive]
      exact Finset.mem_insert_self _ _
    exact hmem
  rw [hinit]
  refine ⟨⟨d, ?_⟩, fun hfail => ?_, fun hfail => ?_⟩
  · split_ifs
    · exact hregistered.semDelete _
    · exact hregistered.semDelete _
    · exact hregistered
    · exact hregistered.semDelete _
  · split_ifs with hmode hwritten hthread
    · exact hmode.2
    · simp
    · simp_all [FailsLate]
    · simp
  · simp only [FailsLate, not_or, not_not] at hfail
    rw [if_neg hfail.1, if_neg (not_not.mpr hfail.2.1), if_pos (by simpa using hfail.2.2)]
    exact ⟨rfl, hsem, hlive⟩

end Timers

/-! ## Calls -/

/-- A call of `ensure_inited`: the module and the instance, whether the drivers below could be
initialised, and the answers to the init. -/
structure InitCall (ι δ : Type) where
  loop : Loop
  inst : ι
  driversOk : Bool
  answers : Answers δ

/-- The timers with the flags `inited` of the callers, set when an init has returned `RT_EOK`. -/
structure Board (ι δ : Type) where
  timers : Timers ι δ
  inited : Loop → ι → Bool

variable {ι δ : Type} [DecidableEq ι] [DecidableEq δ]

/-- Only `speed_loop_init` looks at the result of the mode. -/
def Loop.checksMode (m : Loop) : Bool := m = .speed

def InitCall.init (c : InitCall ι δ) : Timers ι δ → RtErr × Timers ι δ :=
  match c.loop with
  | .position => Timers.positionLoopInit c.inst c.answers
  | .speed => Timers.speedLoopInit c.inst c.answers
  | .openLoop => Timers.stepperOpenloopInit c.inst c.answers

theorem InitCall.init_eq (c : InitCall ι δ) :
    c.init = Timers.init c.loop.checksMode c.loop c.inst c.answers := by
  unfold init
  cases c.loop <;> rfl

namespace Board

def zeroed : Board ι δ := ⟨.zeroed, fun _ _ => false⟩

/-- `ensure_inited`: 0 or -1. -/
def ensureInited (b : Board ι δ) (c : InitCall ι δ) : ℤ × Board ι δ :=
  if b.inited c.loop c.inst then (0, b)
  else if c.driversOk then
    let (ret, timers) := c.init b.timers
    if ret ≠ .eOk then (-1, { b with timers })
    else
      (0, { timers, inited := Function.update b.inited c.loop
              (Function.update (b.inited c.loop) c.inst true) })
  else (-1, b)

/-- The board after a sequence of calls. -/
def run (b : Board ι δ) (cs : List (InitCall ι δ)) : Board ι δ :=
  cs.foldl (fun b c => (b.ensureInited c).2) b

@[simp] theorem run_nil (b : Board ι δ) : b.run [] = b := rfl

@[simp] theorem run_cons (b : Board ι δ) (c : InitCall ι δ) (cs : List (InitCall ι δ)) :
    b.run (c :: cs) = (b.ensureInited c).2.run cs := rfl

/-- The call comes to register its instance, and fails after that. -/
def LateFailure (b : Board ι δ) (c : InitCall ι δ) : Prop :=
  b.inited c.loop c.inst = false ∧ c.driversOk = true ∧ Timers.Registers c.answers b.timers ∧
    Timers.FailsLate c.loop.checksMode c.answers

theorem LateFailure.ret {b : Board ι δ} {c : InitCall ι δ} (h : b.LateFailure c) :
    (b.ensureInited c).1 = -1 := by
  obtain ⟨hinited, hdrivers, hreg, hfail⟩ := h
  obtain ⟨-, hlate, -⟩ := Timers.init_of_registers (m := c.loop) (x := c.inst) hreg
  have hret : (c.init b.timers).1 ≠ .eOk := by
    rw [c.init_eq]
    exact hlate hfail
  simp [ensureInited, hinited, hdrivers, hret]

/-- Between `b` and `b'` the instances that are initialised keep their semaphore and their
device. -/
structure Keeps (b b' : Board ι δ) : Prop where
  sem : ∀ m x, b.inited m x = true → (b'.timers.reg m).sem x = (b.timers.reg m).sem x
  timerDev : ∀ m x, b.inited m x = true → (b'.timers.reg m).timerDev x = (b.timers.reg m).timerDev x
  live : b.timers.Numbered → ∀ h ∈ b.timers.live, h ∈ b'.timers.live
  numbered : b.timers.Numbered → b'.timers.Numbered
  opened : ∀ d, b.timers.opened d = true → b'.timers.opened d = true

omit [DecidableEq ι] [DecidableEq δ] in
theorem Keeps.of_spares {b b' : Board ι δ} {m : Loop} {x : ι}
    (h : Timers.Spares m x b.timers b'.timers) (hx : b.inited m x = false) : Keeps b b' :=
  have hne : ∀ m' y, b.inited m' y = true → (m', y) ≠ (m, x) := by
    rintro m' y hy ⟨⟩
    rw [hx] at hy
    cases hy
  ⟨fun m' y hy => h.sem m' y (hne m' y hy), fun m' y hy => h.timerDev m' y (hne m' y hy), h.live,
    h.numbered, h.opened⟩

/-- What a call of `ensure_inited` can do. -/
theorem ensureInited_cases (b : Board ι δ) (c : InitCall ι δ) :
    Keeps b (b.ensureInited c).2 ∧
      ((¬b.LateFailure c ∧ (b.ensureInited c).2.inited = b.inited ∧
          (∀ m, (b.ensureInited c).2.timers.listOf m = b.timers.listOf m) ∧
          (b.ensureInited c).2.timers.rxIndicate = b.timers.rxIndicate) ∨
        b.inited c.loop c.inst = false ∧
          ∃ d, Timers.Registered c.loop c.inst d b.timers (b.ensureInited c).2.timers ∧
            (b.LateFailure c ∧ (b.ensureInited c).2.inited = b.inited ∨
              ¬b.LateFailure c ∧ (b.ensureInited c).1 = 0 ∧
                (b.ensureInited c).2.inited = Function.update b.inited c.loop
                  (Function.update (b.inited c.loop) c.inst true) ∧
                ((b.ensureInited c).2.timers.reg c.loop).sem c.inst = b.timers.created + 1 ∧
                b.timers.created + 1 ∈ (b.ensureInited c).2.timers.live)) := by
  have hrefl : Keeps b b := ⟨fun _ _ _ => rfl, fun _ _ _ => rfl, fun _ _ h => h, id, fun _ h => h⟩
  cases hinited : b.inited c.loop c.inst with
  | true =>
    have heq : b.ensureInited c = (0, b) := by simp [ensureInited, hinited]
    rw [heq]
    exact ⟨hrefl, .inl ⟨by simp [LateFailure, hinited], rfl, fun _ => rfl, rfl⟩⟩
  | false =>
    cases hdrivers : c.driversOk with
    | false =>
      have heq : b.ensureInited c = (-1, b) := by simp [ensureInited, hinited, hdrivers]
      rw [heq]
      exact ⟨hrefl, .inl ⟨by simp [LateFailure, hdrivers], rfl, fun _ => rfl, rfl⟩⟩
    | true =>
      have hspares := Timers.init_spares c.loop.checksMode c.loop c.inst c.answers b.timers
      rw [← c.init_eq] at hspares
      have hfail : (c.init b.timers).1 ≠ .eOk →
          b.ensureInited c = (-1, { b with timers := (c.init b.timers).2 }) := fun h => by
        simp [ensureInited, hinited, hdrivers, h]
      by_cases hreg : Timers.Registers c.answers b.timers
      · obtain ⟨⟨d, hd⟩, hlate, hok⟩ := Timers.init_of_registers (m := c.loop) (x := c.inst)
          (s := b.timers) hreg
        rw [← c.init_eq] at hd hlate hok
        by_cases hf : Timers.FailsLate c.loop.checksMode c.answers
        · rw [hfail (hlate hf)]
          exact ⟨.of_spares hspares hinited,
            .inr ⟨rfl, d, hd, .inl ⟨⟨hinited, hdrivers, hreg, hf⟩, rfl⟩⟩⟩
        · obtain ⟨hret, hsem, hlive⟩ := hok hf
          have heq : b.ensureInited c = (0, ⟨(c.init b.timers).2, Function.update b.inited c.loop
              (Function.update (b.inited c.loop) c.inst true)⟩) := by
            simp [ensureInited, hinited, hdrivers, hret]
          rw [heq]
          exact ⟨.of_spares hspares hinited,
            .inr ⟨rfl, d, hd, .inr ⟨fun h => hf h.2.2.2, rfl, rfl, hsem, hlive⟩⟩⟩
      · obtain ⟨hret, hlists, hrx⟩ := Timers.init_of_not_registers (m := c.loop) (x := c.inst)
          (s := b.timers) hreg
        rw [← c.init_eq] at hret hlists hrx
        rw [hfail hret]
        exact ⟨.of_spares hspares hinited, .inl ⟨fun h => hreg h.2.2.1, rfl, hlists, hrx⟩⟩

end Board

end H750Stepper
