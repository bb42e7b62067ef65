import H750Stepper.Timer.Delivery

/-!
# From a timer event to a round of the control loop

A callback releases the semaphore of an instance, and the control thread of the instance takes it
before each round. `rt_sem_take` and `rt_sem_release` of `ipc.c` carry the events over: one that
comes while the thread is in a round waits in the value of the semaphore, up to `RT_SEM_VALUE_MAX`.

`tick_account`: in any interleaving of inits, timer events and control threads the rounds of an
instance are the events of its own device, less those that wait and those that found the semaphore
full; and a thread that is suspended has no event to serve. An init and a step of a thread are not
divided, as everywhere in this directory.
-/

namespace H750Stepper

open Links Timers

/-! ## Semaphores -/

/-- `struct rt_semaphore`: the value, and the threads suspended on it in the order in which they
came. -/
structure Sem (τ : Type) where
  value : ℕ
  suspended : List τ

/-- Where a control thread is in its loop. -/
inductive Phase where
  | taking | suspended | round
  deriving DecidableEq

namespace Sem

variable {τ : Type}

/-- `RT_SEM_VALUE_MAX` -/
def valueMax : ℕ := 65535

/-- `rt_sem_create` -/
def rtSemCreate (value : ℕ) : Sem τ := ⟨value, []⟩

/-- `rt_sem_take` with `RT_WAITING_FOREVER` by the thread `t`: true if it returns at once. A thread
that is suspended returns when a release resumes it. -/
def rtSemTake (t : τ) (q : Sem τ) : Bool × Sem τ :=
  if q.value > 0 then (true, { q with value := q.value - 1 })
  else (false, { q with suspended := q.suspended ++ [t] })

/-- `rt_sem_release`: what it returns, and the thread that it resumes. -/
def rtSemRelease (q : Sem τ) : RtErr × Option τ × Sem τ :=
  match q.suspended with
  | t :: ts => (.eOk, some t, { q with suspended := ts })
  | [] =>
    if q.value < valueMax then (.eOk, none, { q with value := q.value + 1 })
    else (.other 3, none, q)

/-- The semaphore of the thread `t`, which is at `p`. It is suspended only while there is nothing to
take. -/
structure Serves (t : τ) (p : Phase) (q : Sem τ) : Prop where
  queue : q.suspended = if p = .suspended then [t] else []
  idle : p = .suspended → q.value = 0
  value_le : q.value ≤ valueMax

/-- The events that wait for a round, or are in one. -/
def backlog (p : Phase) (q : Sem τ) : ℕ := q.value + if p = .round then 1 else 0

variable {t : τ} {p : Phase} {q : Sem τ}

theorem serves_create (t : τ) : (rtSemCreate 0 : Sem τ).Serves t .taking :=
  ⟨rfl, fun _ => rfl, Nat.zero_le _⟩

theorem Serves.take (h : q.Serves t .taking) :
    (q.rtSemTake t).2.Serves t (if (q.rtSemTake t).1 then .round else .suspended) ∧
      (q.rtSemTake t).2.backlog (if (q.rtSemTake t).1 then .round else .suspended) =
        q.backlog .taking := by
  have hle := h.value_le
  have hqueue : q.suspended = [] := h.queue
  by_cases hv : q.value > 0
  · have htake : q.rtSemTake t = (true, { q with value := q.value - 1 }) := if_pos hv
    rw [htake]
    refine ⟨⟨hqueue, nofun, (Nat.sub_le ..).trans hle⟩, ?_⟩
    exact Nat.sub_add_cancel hv
  · have htake : q.rtSemTake t = (false, { q with suspended := q.suspended ++ [t] }) := if_neg hv
    rw [htake]
    refine ⟨⟨?_, fun _ => Nat.eq_zero_of_not_pos hv, hle⟩, rfl⟩
    simp [hqueue]

/-- A release resumes the thread, adds to the value, or is lost. -/
theorem Serves.release (h : q.Serves t p) :
    (q.rtSemRelease.2.1 = none ∨ q.rtSemRelease.2.1 = some t) ∧
      q.rtSemRelease.2.2.Serves t (if q.rtSemRelease.2.1.isSome then .round else p) ∧
      q.rtSemRelease.2.2.backlog (if q.rtSemRelease.2.1.isSome then .round else p) +
        (if q.rtSemRelease.1 = .eOk then 0 else 1) = q.backlog p + 1 := by
  have hle := h.value_le
  by_cases hp : p = .suspended
  · have hqueue : q.suspended = [t] := by rw [h.queue, if_pos hp]
    have hvalue := h.idle hp
    have hrel : q.rtSemRelease = (.eOk, some t, { q with suspended := [] }) := by
      simp only [rtSemRelease, hqueue]
    rw [hrel]
    refine ⟨.inr rfl, ⟨rfl, nofun, hle⟩, ?_⟩
    simp [backlog, hp, hvalue]
  · have hqueue : q.suspended = [] := by rw [h.queue, if_neg hp]
    by_cases hv : q.value < valueMax
    · have hrel : q.rtSemRelease = (.eOk, none, { q with value := q.value + 1 }) := by
        simp only [rtSemRelease, hqueue, if_pos hv]
      rw [hrel]
      refine ⟨.inl rfl, ⟨?_, fun hs => absurd hs hp, hv⟩, ?_⟩
      · simpa [hp] using hqueue
      · simp only [backlog, Option.isSome_none, Bool.false_eq_true, if_false, if_true]
        omega
    · have hrel : q.rtSemRelease = (.other 3, none, q) := by
        simp only [rtSemRelease, hqueue, if_neg hv]
      rw [hrel]
      exact ⟨.inl rfl, h, by simp⟩

end Sem

/-! ## The kernel -/

variable {ι δ : Type} [DecidableEq ι] [DecidableEq δ]

/-- The board, its semaphores by their handles, and the control threads by their instances. -/
structure Kernel (ι δ : Type) where
  board : Board ι δ
  sem : ℕ → Sem (Loop × ι)
  phase : Loop × ι → Phase

/-- What can happen next: a call of `ensure_inited`, an event of the timer `d` whose callback may
look at `n` instances, and a step of the control thread of an instance. -/
inductive KernelStep (ι δ : Type) where
  | call (c : InitCall ι δ)
  | interrupt (d : δ) (n : ℕ)
  | thread (m : Loop) (x : ι)

namespace Kernel

def boot : Kernel ι δ := ⟨.zeroed, fun _ => .rtSemCreate 0, fun _ => .taking⟩

/-- The handle of the semaphore of an instance. -/
def handle (s : Kernel ι δ) (m : Loop) (x : ι) : ℕ := (s.board.timers.reg m).sem x

/-- A semaphore is released. -/
def release (s : Kernel ι δ) (h : ℕ) : Kernel ι δ :=
  let r := (s.sem h).rtSemRelease
  { s with
    sem := Function.update s.sem h r.2.2
    phase := match r.2.1 with
      | none => s.phase
      | some t => Function.update s.phase t .round }

/-- A step of a control thread: `pl_thread_entry` and its two siblings take their semaphore, then
have a round of the loop. -/
def thread (s : Kernel ι δ) (m : Loop) (x : ι) : Kernel ι δ :=
  match s.phase (m, x) with
  | .taking =>
    let r := (s.sem (s.handle m x)).rtSemTake (m, x)
    { s with
      sem := Function.update s.sem (s.handle m x) r.2
      phase := Function.update s.phase (m, x) (if r.1 then .round else .suspended) }
  | .suspended => s
  | .round => { s with phase := Function.update s.phase (m, x) .taking }

/-- A call may create the next handle, and start a thread for its instance. -/
def next (s : Kernel ι δ) : KernelStep ι δ → Kernel ι δ
  | .call c =>
    { board := (s.board.ensureInited c).2
      sem := Function.update s.sem (s.board.timers.created + 1) (.rtSemCreate 0)
      phase := if s.board.inited c.loop c.inst then s.phase
        else Function.update s.phase (c.loop, c.inst) .taking }
  | .interrupt d n => ((s.board.timers.timerEvent d n).getD []).foldl release s
  | .thread m x => if s.board.inited m x then s.thread m x else s

/-- The kernel after a run. -/
def run (s : Kernel ι δ) (es : List (KernelStep ι δ)) : Kernel ι δ := es.foldl next s

/-- A call does not fail late, and a callback gets to the end of its search. -/
def Admits (s : Kernel ι δ) : KernelStep ι δ → Prop
  | .call c => ¬s.board.LateFailure c
  | .interrupt d n => ∃ released, s.board.timers.timerEvent d n = some released
  | .thread _ _ => True

/-- A run of such steps. -/
def Proper : Kernel ι δ → List (KernelStep ι δ) → Prop
  | _, [] => True
  | s, e :: es => s.Admits e ∧ Proper (s.next e) es

/-- The steps of a run with a property. -/
def count (p : Kernel ι δ → KernelStep ι δ → Bool) : Kernel ι δ → List (KernelStep ι δ) → ℕ
  | _, [] => 0
  | s, e :: es => (if p s e then 1 else 0) + count p (s.next e) es

/-- An event of the timer `d`. -/
def strikes (d : δ) (_ : Kernel ι δ) : KernelStep ι δ → Bool
  | .interrupt d' _ => d' = d
  | _ => false

/-- The end of a round of the instance. -/
def rounds (m : Loop) (x : ι) (s : Kernel ι δ) : KernelStep ι δ → Bool
  | .thread m' x' => m' = m ∧ x' = x ∧ s.phase (m, x) = .round
  | _ => false

/-- An event of the timer `d` that the semaphore of the instance refuses with `-RT_EFULL`. -/
def loses (d : δ) (m : Loop) (x : ι) (s : Kernel ι δ) : KernelStep ι δ → Bool
  | .interrupt d' _ => d' = d ∧ (s.sem (s.handle m x)).rtSemRelease.1 ≠ .eOk
  | _ => false

/-- The events that an instance has not served. -/
def backlog (s : Kernel ι δ) (m : Loop) (x : ι) : ℕ :=
  (s.sem (s.handle m x)).backlog (s.phase (m, x))

/-! ## The account -/

/-- What holds as long as no call has failed late. -/
structure Ok (s : Kernel ι δ) : Prop where
  sound : s.board.Sound
  serves : ∀ m x, s.board.inited m x = true →
    (s.sem (s.handle m x)).Serves (m, x) (s.phase (m, x))

omit [DecidableEq ι] [DecidableEq δ] in
theorem ok_boot : (boot : Kernel ι δ).Ok := ⟨Board.sound_zeroed, nofun⟩

variable {s : Kernel ι δ} {d : δ} {m m' : Loop} {x x' : ι} {n : ℕ}

omit [DecidableEq ι] in
/-- A callback releases the semaphore of the instance on its device, if there is one. -/
theorem Ok.timerEvent (h : s.Ok) {released : List ℕ}
    (hn : s.board.timers.timerEvent d n = some released) :
    (released = [] ∧ ∀ m x, ¬s.board.BoundTo d m x) ∨
      ∃ m x, s.board.BoundTo d m x ∧ released = [s.handle m x] := by
  cases hrx : s.board.timers.rxIndicate d with
  | none =>
    refine .inl ⟨by simpa [Timers.timerEvent, hrx] using hn.symm, fun m x hx => ?_⟩
    have hbound := (h.sound.bound m x d hx.1 hx.2).2
    rw [hrx] at hbound
    cases hbound
  | some m =>
    obtain ⟨x, hx⟩ := h.sound.served m d hrx
    obtain ⟨k, hk⟩ := h.sound.timerIsr_bound hx
    rw [timerEvent_of_rxIndicate hrx] at hn
    have hmore := timerIsr_of_le hn (le_max_left n k)
    have hmore' := timerIsr_of_le hk (le_max_right n k)
    exact .inr ⟨m, x, hx, Option.some.inj (hmore.symm.trans hmore')⟩

omit [DecidableEq ι] [DecidableEq δ] in
theorem Ok.handle_ne (h : s.Ok) (hx : s.board.inited m x = true)
    (hx' : s.board.inited m' x' = true) (hne : (m', x') ≠ (m, x)) :
    s.handle m' x' ≠ s.handle m x := by
  intro heq
  obtain ⟨rfl, rfl⟩ := h.sound.semInj m' x' m x hx' hx heq
  exact hne rfl

omit [DecidableEq δ] in
/-- A release, for the instance that it is meant for. -/
theorem Ok.release (h : s.Ok) (hx : s.board.inited m x = true) :
    ((s.release (s.handle m x)).sem (s.handle m x)).Serves (m, x)
        ((s.release (s.handle m x)).phase (m, x)) ∧
      (s.release (s.handle m x)).backlog m x +
        (if (s.sem (s.handle m x)).rtSemRelease.1 = .eOk then 0 else 1) = s.backlog m x + 1 ∧
      ∀ t ≠ (m, x), (s.release (s.handle m x)).phase t = s.phase t := by
  obtain ⟨hresumed, hserves, hback⟩ := (h.serves m x hx).release
  have hhandle : (s.release (s.handle m x)).handle m x = s.handle m x := rfl
  unfold backlog
  rw [hhandle]
  unfold Kernel.release
  dsimp only
  rw [Function.update_self]
  rcases hresumed with hnone | hsome
  · simp only [hnone, Option.isSome_none, Bool.false_eq_true, if_false] at hserves hback
    simp only [hnone]
    exact ⟨hserves, hback, fun _ _ => trivial⟩
  · simp only [hsome, Option.isSome_some, if_true] at hserves hback
    simp only [hsome, Function.update_self]
    exact ⟨hserves, hback, fun t ht => Function.update_of_ne ht ..⟩

omit [DecidableEq δ] in
/-- A step that touches one instance at most. -/
theorem Ok.of_others {s' : Kernel ι δ} (h : s.Ok) (hboard : s'.board = s.board)
    (hx : s.board.inited m x = true)
    (hserves : (s'.sem (s.handle m x)).Serves (m, x) (s'.phase (m, x)))
    (hsem : ∀ k ≠ s.handle m x, s'.sem k = s.sem k) (hphase : ∀ t ≠ (m, x), s'.phase t = s.phase t) :
    s'.Ok ∧ ∀ m' x', s.board.inited m' x' = true → (m', x') ≠ (m, x) →
      s'.backlog m' x' = s.backlog m' x' := by
  have hhandle : ∀ m' x', s'.handle m' x' = s.handle m' x' := fun m' x' => by
    unfold handle
    rw [hboard]
  have hother : ∀ m' x', s.board.inited m' x' = true → (m', x') ≠ (m, x) →
      s'.sem (s'.handle m' x') = s.sem (s.handle m' x') ∧ s'.phase (m', x') = s.phase (m', x') :=
    fun m' x' hx' hne => by
      rw [hhandle, hsem _ (h.handle_ne hx hx' hne), hphase _ hne]
      exact ⟨rfl, rfl⟩
  refine ⟨⟨hboard ▸ h.sound, fun m' x' hx' => ?_⟩, fun m' x' hx' hne => ?_⟩
  · rw [hboard] at hx'
    by_cases hne : (m', x') = (m, x)
    · obtain ⟨rfl, rfl⟩ := Prod.mk.inj hne
      rwa [hhandle]
    · rw [(hother m' x' hx' hne).1, (hother m' x' hx' hne).2]
      exact h.serves m' x' hx'
  · unfold backlog
    rw [(hother m' x' hx' hne).1, (hother m' x' hx' hne).2]

/-- A call leaves the semaphores and the threads of the initialised instances as they are. -/
theorem Ok.call_frame (h : s.Ok) (c : InitCall ι δ) (hx : s.board.inited m x = true) :
    (s.next (.call c)).sem ((s.next (.call c)).handle m x) = s.sem (s.handle m x) ∧
      (s.next (.call c)).phase (m, x) = s.phase (m, x) := by
  obtain ⟨hk, -⟩ := s.board.ensureInited_cases c
  have hhandle : (s.next (.call c)).handle m x = s.handle m x := hk.sem m x hx
  have hle := h.sound.numbered _ (h.sound.live m x hx)
  have hold : s.handle m x ≠ s.board.timers.created + 1 := by
    unfold handle
    omega
  constructor
  · rw [hhandle]
    exact Function.update_of_ne hold ..
  · show (if s.board.inited c.loop c.inst then s.phase
      else Function.update s.phase (c.loop, c.inst) .taking) (m, x) = _
    split_ifs with hc
    · rfl
    · have hne : (m, x) ≠ (c.loop, c.inst) := by
        rintro ⟨⟩
        exact hc hx
      exact Function.update_of_ne hne ..

theorem boundTo_call (c : InitCall ι δ) (hd : s.board.BoundTo d m x) :
    (s.next (.call c)).board.BoundTo d m x := by
  obtain ⟨hk, hcase⟩ := s.board.ensureInited_cases c
  refine ⟨?_, (hk.timerDev m x hd.1).trans hd.2⟩
  show (s.board.ensureInited c).2.inited m x = true
  rcases hcase with ⟨-, hinited, -, -⟩ | ⟨-, -, -, ⟨-, hinited⟩ | ⟨-, -, hinited, -, -⟩⟩
  · rw [hinited, hd.1]
  · rw [hinited, hd.1]
  · rw [hinited]
    have hx := hd.1
    rcases eq_or_ne m c.loop with rfl | hm
    · rcases eq_or_ne x c.inst with rfl | hxc <;> simp [*]
    · simp [hm, hx]

/-- A call that does not fail late adds at most a thread that finds its semaphore at 0. -/
theorem Ok.call (h : s.Ok) {c : InitCall ι δ} (hc : ¬s.board.LateFailure c) :
    (s.next (.call c)).Ok := by
  refine ⟨(h.sound.next hc).1, fun m x hx => ?_⟩
  by_cases hold : s.board.inited m x = true
  · obtain ⟨hsem, hphase⟩ := h.call_frame c hold
    rw [hsem, hphase]
    exact h.serves m x hold
  · -- the instance is the one that the call has initialised
    obtain ⟨-, ⟨-, hinited, -, -⟩ | ⟨hcinst, -, -, ⟨hlate, -⟩ | ⟨-, -, hinited, hsem, -⟩⟩⟩ :=
      s.board.ensureInited_cases c
    · exact absurd (hinited ▸ hx) hold
    · exact absurd hlate hc
    · have hnew : m = c.loop ∧ x = c.inst := by
        have hx' : (s.board.ensureInited c).2.inited m x = true := hx
        rw [hinited] at hx'
        by_contra hne
        rcases eq_or_ne m c.loop with rfl | hm
        · have hxc : x ≠ c.inst := fun hxc => hne ⟨rfl, hxc⟩
          exact hold (by simpa [hxc] using hx')
        · exact hold (by simpa [hm] using hx')
      obtain ⟨rfl, rfl⟩ := hnew
      have hhandle : (s.next (.call c)).handle c.loop c.inst = s.board.timers.created + 1 := hsem
      have hq : (s.next (.call c)).sem (s.board.timers.created + 1) = .rtSemCreate 0 :=
        Function.update_self ..
      have hp : (s.next (.call c)).phase (c.loop, c.inst) = .taking := by
        show (if s.board.inited c.loop c.inst then s.phase
          else Function.update s.phase (c.loop, c.inst) .taking) (c.loop, c.inst) = _
        rw [if_neg hold, Function.update_self]
      rw [hhandle, hq, hp]
      exact Sem.serves_create _

omit [DecidableEq δ] in
/-- A step of the control thread of an instance. -/
theorem Ok.thread (h : s.Ok) (hx : s.board.inited m x = true) :
    (s.thread m x).board = s.board ∧
      ((s.thread m x).sem (s.handle m x)).Serves (m, x) ((s.thread m x).phase (m, x)) ∧
      (s.thread m x).backlog m x + (if s.phase (m, x) = .round then 1 else 0) = s.backlog m x ∧
      (∀ k ≠ s.handle m x, (s.thread m x).sem k = s.sem k) ∧
      ∀ t ≠ (m, x), (s.thread m x).phase t = s.phase t := by
  have hserves := h.serves m x hx
  unfold backlog
  cases hp : s.phase (m, x) with
  | taking =>
    rw [hp] at hserves
    obtain ⟨htake, hback⟩ := hserves.take
    have hthread : s.thread m x = { s with
        sem := Function.update s.sem (s.handle m x)
          ((s.sem (s.handle m x)).rtSemTake (m, x)).2
        phase := Function.update s.phase (m, x)
          (if ((s.sem (s.handle m x)).rtSemTake (m, x)).1 then .round else .suspended) } := by
      simp only [Kernel.thread, hp]
    rw [hthread]
    refine ⟨rfl, ?_, ?_, fun k hk => Function.update_of_ne hk .., fun t ht =>
      Function.update_of_ne ht ..⟩
    · simpa only [Function.update_self] using htake
    · have hhandle : ({ s with
          sem := Function.update s.sem (s.handle m x)
            ((s.sem (s.handle m x)).rtSemTake (m, x)).2
          phase := Function.update s.phase (m, x)
            (if ((s.sem (s.handle m x)).rtSemTake (m, x)).1 then .round else .suspended) } :
            Kernel ι δ).handle m x = s.handle m x := rfl
      rw [hhandle]
      simpa only [Function.update_self, reduceCtorEq, if_false, Nat.add_zero] using hback
  | suspended =>
    have hthread : s.thread m x = s := by simp only [Kernel.thread, hp]
    rw [hthread, hp]
    exact ⟨rfl, hp ▸ hserves, rfl, fun _ _ => rfl, fun _ _ => rfl⟩
  | round =>
    have hthread : s.thread m x = { s with phase := Function.update s.phase (m, x) .taking } := by
      simp only [Kernel.thread, hp]
    rw [hp] at hserves
    rw [hthread]
    refine ⟨rfl, ?_, ?_, fun _ _ => rfl, fun t ht => Function.update_of_ne ht ..⟩
    · simp only [Function.update_self]
      exact ⟨hserves.queue, nofun, hserves.value_le⟩
    · simp only [Function.update_self]
      rfl

/-- **One step.** The account of an instance, and what it rests on. -/
theorem Ok.next (h : s.Ok) (hd : s.board.BoundTo d m x) {e : KernelStep ι δ} (he : s.Admits e) :
    (s.next e).Ok ∧ (s.next e).board.BoundTo d m x ∧
      (s.next e).backlog m x + (if rounds m x s e then 1 else 0) +
        (if loses d m x s e then 1 else 0) = s.backlog m x + if strikes d s e then 1 else 0 := by
  cases e with
  | call c =>
    obtain ⟨hsem, hphase⟩ := h.call_frame c hd.1
    refine ⟨h.call he, boundTo_call c hd, ?_⟩
    unfold backlog
    rw [hsem, hphase]
    rfl
  | interrupt d' n =>
    obtain ⟨released, hreleased⟩ := he
    have hnext : s.next (.interrupt d' n) = released.foldl Kernel.release s := by
      simp only [Kernel.next, hreleased, Option.getD_some]
    rw [hnext]
    rcases h.timerEvent hreleased with ⟨rfl, hnone⟩ | ⟨m', x', hd', rfl⟩
    · have hne : d' ≠ d := fun heq => hnone m x (heq ▸ hd)
      refine ⟨h, hd, ?_⟩
      simp [rounds, loses, strikes, hne]
    · obtain ⟨hserves, hback, hphase⟩ := h.release hd'.1
      obtain ⟨hok, hothers⟩ := h.of_others (rfl : (s.release _).board = s.board) hd'.1 hserves
        (fun k hk => Function.update_of_ne hk ..) hphase
      refine ⟨hok, hd, ?_⟩
      simp only [List.foldl_cons, List.foldl_nil]
      by_cases hsame : (m, x) = (m', x')
      · obtain ⟨rfl, rfl⟩ := Prod.mk.inj hsame
        obtain rfl : d' = d := Option.some.inj (hd'.2.symm.trans hd.2)
        simpa [rounds, loses, strikes, ite_not] using hback
      · have hne : d' ≠ d := by
          rintro rfl
          obtain ⟨rfl, rfl⟩ := h.sound.devInj m x m' x' d' hd.1 hd'.1 hd.2 hd'.2
          exact hsame rfl
        rw [hothers m x hd.1 hsame]
        simp [rounds, loses, strikes, hne]
  | thread m' x' =>
    by_cases hinited : s.board.inited m' x' = true
    · have hnext : s.next (.thread m' x') = s.thread m' x' := if_pos hinited
      obtain ⟨hboard, hserves, hback, hsem, hphase⟩ := h.thread hinited
      obtain ⟨hok, hothers⟩ := h.of_others hboard hinited hserves hsem hphase
      rw [hnext]
      refine ⟨hok, hboard ▸ hd, ?_⟩
      by_cases hsame : (m, x) = (m', x')
      · obtain ⟨rfl, rfl⟩ := Prod.mk.inj hsame
        simpa [rounds, loses, strikes] using hback
      · have hne : ¬(m' = m ∧ x' = x) := fun heq => hsame (by rw [heq.1, heq.2])
        rw [hothers m x hd.1 hsame]
        simp [rounds, loses, strikes, ← and_assoc, hne]
    · have hnext : s.next (.thread m' x') = s := if_neg hinited
      have hne : ¬(m' = m ∧ x' = x) := fun heq => hinited (by rw [heq.1, heq.2, hd.1])
      rw [hnext]
      refine ⟨h, hd, ?_⟩
      simp [rounds, loses, strikes, ← and_assoc, hne]

/-- A run. -/
theorem Ok.run (h : s.Ok) (hd : s.board.BoundTo d m x) {es : List (KernelStep ι δ)}
    (hes : s.Proper es) :
    (s.run es).Ok ∧ (s.run es).board.BoundTo d m x ∧
      (s.run es).backlog m x + s.count (rounds m x) es + s.count (loses d m x) es =
        s.backlog m x + s.count (strikes d) es := by
  induction es generalizing s with
  | nil => exact ⟨h, hd, rfl⟩
  | cons e es ih =>
    obtain ⟨hok, hbound, hstep⟩ := h.next hd hes.1
    obtain ⟨hok', hbound', hrest⟩ := ih hok hbound hes.2
    refine ⟨hok', hbound', ?_⟩
    have hrun : s.run (e :: es) = (s.next e).run es := rfl
    rw [hrun]
    simp only [count]
    omega

theorem Ok.proper_run (h : s.Ok) {es : List (KernelStep ι δ)} (hes : s.Proper es) :
    (s.run es).Ok := by
  induction es generalizing s with
  | nil => exact h
  | cons e es ih =>
    refine ih ?_ hes.2
    cases e with
    | call c => exact h.call hes.1
    | interrupt d n =>
      obtain ⟨released, hreleased⟩ := hes.1
      rcases h.timerEvent hreleased with ⟨rfl, -⟩ | ⟨m, x, hd, -⟩
      · have hnext : s.next (.interrupt d n) = s := by simp [Kernel.next, hreleased]
        rwa [hnext]
      · exact (h.next hd hes.1).1
    | thread m x =>
      by_cases hinited : s.board.inited m x = true
      · obtain ⟨hboard, hserves, -, hsem, hphase⟩ := h.thread hinited
        have hnext : s.next (.thread m x) = s.thread m x := if_pos hinited
        rw [hnext]
        exact (h.of_others hboard hinited hserves hsem hphase).1
      · have hnext : s.next (.thread m x) = s := if_neg hinited
        rwa [hnext]

theorem proper_append {es es' : List (KernelStep ι δ)} :
    s.Proper (es ++ es') ↔ s.Proper es ∧ (s.run es).Proper es' := by
  induction es generalizing s with
  | nil => simp [Proper, Kernel.run]
  | cons e es ih =>
    show s.Admits e ∧ (s.next e).Proper (es ++ es') ↔ _
    rw [ih, ← and_assoc]
    rfl

end Kernel

open Kernel

/-- **The account of the events.** After inits, timer events and steps of the control threads in any
order, none of the inits having failed late, let an instance be bound to the timer `d`. From there
on, whatever the order: the rounds that it finishes, the events that its semaphore refuses because
it is full, and the events that it has not served yet make up the events of `d`. When its thread is
suspended, it has served them all. -/
theorem tick_account {es es' : List (KernelStep ι δ)} {d : δ} {m : Loop} {x : ι}
    (hes : (boot : Kernel ι δ).Proper (es ++ es'))
    (hd : ((boot : Kernel ι δ).run es).board.BoundTo d m x) :
    ((boot.run es).run es').backlog m x + (boot.run es).count (rounds m x) es' +
        (boot.run es).count (loses d m x) es' =
      (boot.run es).backlog m x + (boot.run es).count (strikes d) es' ∧
    (((boot.run es).run es').phase (m, x) = .suspended →
      ((boot.run es).run es').backlog m x = 0) := by
  obtain ⟨hfirst, hsecond⟩ := proper_append.mp hes
  obtain ⟨hok, hbound, haccount⟩ := (ok_boot.proper_run hfirst).run hd hsecond
  refine ⟨haccount, fun hp => ?_⟩
  have hidle := (hok.serves m x hbound.1).idle hp
  unfold Kernel.backlog Sem.backlog
  rw [hidle, hp]
  rfl

/-- The position loop on timer 4: two events, the second one while the thread is in a round. -/
theorem tick_account_two :
    let s : Kernel ℕ ℕ := boot.run [.call ⟨.position, 0, true, goodAnswers 4⟩]
    let es : List (KernelStep ℕ ℕ) := [.thread .position 0, .interrupt 4 2, .interrupt 4 2,
      .thread .position 0, .thread .position 0]
    ((s.run es).backlog .position 0 + s.count (rounds .position 0) es +
        s.count (loses 4 .position 0) es = s.backlog .position 0 + s.count (strikes 4) es) ∧
      ((s.run es).phase (.position, 0) = .suspended → (s.run es).backlog .position 0 = 0) := by
  refine tick_account ⟨?_, trivial, ⟨[1], ?_⟩, ⟨[1], ?_⟩, trivial, trivial, trivial⟩ ⟨?_, ?_⟩
  · rintro ⟨-, -, -, ⟨-, h⟩ | h | h⟩
    · exact h rfl
    · exact h rfl
    · cases h
  · rfl
  · rfl
  · rfl
  · rfl

end H750Stepper
