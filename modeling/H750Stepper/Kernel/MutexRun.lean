import H750Stepper.Kernel.HandOver

/-!
# Runs of the mutexes

`mutex_run`: any number of threads take and release any number of mutexes in any order, and in every
state of the run the mutexes exclude, nobody waits for one that is free, and the inherited priorities
are exact. A deadlock does not break this: threads that wait in a circle wait for each other.
-/

namespace H750Stepper

open Relation Inherit

variable {T M : Type} [DecidableEq T] [DecidableEq M]

namespace MutexSys

variable {s : MutexSys T M} {t o : T} {m : M}

/-! ## What a thread holds -/

/-- How often the thread has the mutex; once, when it waits for it. -/
def held (s : MutexSys T M) (t : T) (m : M) : ℕ :=
  if (s.mutex m).owner = some t then (s.mutex m).hold
  else if (s.thread t).pendingObject = some m then 1 else 0

theorem held_congr {s' : MutexSys T M} {u : T} {k : M}
    (hmutex : (s'.mutex k).owner = (s.mutex k).owner ∧ (s'.mutex k).hold = (s.mutex k).hold)
    (hthread : (s'.thread u).pendingObject = some k ↔ (s.thread u).pendingObject = some k) :
    s'.held u k = s.held u k := by
  unfold held
  rw [hmutex.1, hmutex.2]
  simp only [hthread]

/-- The hand-over counts as the take that has waited for it. -/
theorem Vacant.held_granted (h : s.Vacant m) {u : T} {rest : List T} (hq : s.Heads u m rest)
    (v : T) (k : M) :
    (s.granted u m rest).held v k = if v = u ∧ k = m then 1 else s.held v k := by
  split_ifs with hif
  · obtain ⟨rfl, rfl⟩ := hif
    simp [held, granted_mutex_self]
  · rcases eq_or_ne k m with rfl | hk
    · have hv : v ≠ u := fun hv => hif ⟨hv, rfl⟩
      unfold held
      rw [granted_mutex_self, granted_thread_of_ne _ hv, h.owner]
      simp [hv.symm]
    · refine held_congr (by rw [granted_mutex_of_ne _ _ hk]; exact ⟨rfl, rfl⟩) ?_
      rcases eq_or_ne v u with rfl | hv
      · rw [granted_thread_self]
        exact ⟨nofun, fun hvk => absurd (h.pending_eq hq hvk) hk⟩
      · rw [granted_thread_of_ne _ hv]

theorem held_vacated (ht : (s.thread t).pendingObject = none) (ho : (s.mutex m).owner = some t)
    (v : T) (k : M) :
    (s.vacated t m).held v k = if v = t ∧ k = m then 0 else s.held v k := by
  have hpending := s.vacated_pendingObject t m v
  split_ifs with hif
  · obtain ⟨rfl, rfl⟩ := hif
    unfold held
    rw [vacated_mutex_self, if_neg nofun, hpending, ht, if_neg nofun]
  · rcases eq_or_ne k m with rfl | hk
    · have htv : ¬some t = some v := fun heq => hif ⟨(Option.some.inj heq).symm, rfl⟩
      unfold held
      rw [vacated_mutex_self, if_neg nofun, hpending, ho, if_neg htv]
    · exact held_congr (by rw [vacated_mutex_of_ne _ _ hk]; exact ⟨rfl, rfl⟩) (by rw [hpending])

theorem held_setHold (ho : (s.mutex m).owner = some t) (n : ℕ) (v : T) (k : M) :
    (s.setMutex m { s.mutex m with hold := n }).held v k =
      if v = t ∧ k = m then n else s.held v k := by
  split_ifs with hif
  · obtain ⟨rfl, rfl⟩ := hif
    unfold held
    rw [setMutex_mutex_self]
    exact if_pos ho
  · rcases eq_or_ne k m with rfl | hk
    · have htv : ¬some t = some v := fun heq => hif ⟨(Option.some.inj heq).symm, rfl⟩
      unfold held
      rw [setMutex_mutex_self, setMutex_thread, ho, if_neg htv, if_neg htv]
    · exact held_congr (by rw [setMutex_mutex_of_ne hk]; exact ⟨rfl, rfl⟩) Iff.rfl

theorem Inherited.held_release (h : s.Inherited) (ht : (s.thread t).pendingObject = none)
    (v : T) (k : M) : (s.rtMutexRelease t m).1.held v k =
      if v = t ∧ k = m then s.held v k - 1 else s.held v k := by
  by_cases ho : (s.mutex m).owner = some t
  · have hpos := h.wired.hold t m ho
    have hheld : s.held t m = (s.mutex m).hold := if_pos ho
    rcases eq_or_ne (s.mutex m).hold 1 with hhold | hhold
    · have hvacant := h.vacated ht ho
      have hqueue : ((s.vacated t m).mutex m).suspendThread = (s.mutex m).suspendThread := by
        rw [vacated_mutex_self]
      have hleft : (s.vacated t m).held v k = if v = t ∧ k = m then s.held v k - 1
          else s.held v k := by
        rw [held_vacated ht ho]
        refine if_ctx_congr Iff.rfl (fun hif => ?_) fun _ => rfl
        rw [hif.1, hif.2, hheld, hhold]
      rw [h.rtMutexRelease_last ho hhold]
      cases hq : (s.mutex m).suspendThread with
      | nil =>
        rw [← hleft]
        refine held_congr ?_ Iff.rfl
        rcases eq_or_ne k m with rfl | hk
        · rw [setMutex_mutex_self]
          exact ⟨rfl, rfl⟩
        · rw [setMutex_mutex_of_ne hk]
          exact ⟨rfl, rfl⟩
      | cons u rest =>
        have hpend : (s.thread u).pendingObject = some m :=
          (h.wired.queue u m).mp (by rw [hq]; exact .head _)
        have hut : u ≠ t := by
          rintro rfl
          rw [ht] at hpend
          cases hpend
        rw [hvacant.held_granted (.inl (hqueue.trans hq)), hleft]
        split_ifs with hif hif'
        · exact absurd (hif.1.symm.trans hif'.1) hut
        · rw [hif.1, hif.2]
          unfold held
          rw [ho, if_neg fun heq => hut (Option.some.inj heq).symm, if_pos hpend]
        · rfl
        · rfl
    · rw [rtMutexRelease_nested ho (by omega), held_setHold ho]
      refine if_ctx_congr Iff.rfl (fun hif => ?_) fun _ => rfl
      rw [hif.1, hif.2, hheld]
  · rw [rtMutexRelease_of_ne ho]
    refine (ite_eq_right_iff.mpr fun hif => ?_).symm
    have hzero : s.held v k = 0 := by
      rw [hif.1, hif.2]
      unfold held
      rw [if_neg ho, ht, if_neg nofun]
    rw [hzero]

omit [DecidableEq M] in
theorem Same.held [DecidableEq M] {s' : MutexSys T M} (h : Same s s') (v : T) (k : M) :
    s'.held v k = s.held v k := held_congr ⟨h.owner k, h.hold k⟩ (by rw [h.pending])

/-- A thread that has to wait counts as inside. -/
theorem held_blocked (ht : (s.thread t).pendingObject = none) (ho : (s.mutex m).owner = some o)
    (hot : o ≠ t) (v : T) (k : M) :
    (s.blocked t m).held v k = if v = t ∧ k = m then s.held v k + 1 else s.held v k := by
  have hmutex : ((s.blocked t m).mutex k).owner = (s.mutex k).owner ∧
      ((s.blocked t m).mutex k).hold = (s.mutex k).hold := by
    rcases eq_or_ne k m with rfl | hk
    · rw [blocked_mutex_self]
      exact ⟨rfl, rfl⟩
    · rw [blocked_mutex_of_ne t hk]
      exact ⟨rfl, rfl⟩
  split_ifs with hif
  · obtain ⟨rfl, rfl⟩ := hif
    have hov : ¬some o = some v := fun heq => hot (Option.some.inj heq)
    unfold held
    rw [hmutex.1, ho, if_neg hov, if_neg hov, blocked_thread, ht]
    simp
  · refine held_congr hmutex ?_
    rw [blocked_thread]
    rcases eq_or_ne v t with rfl | hv
    · have hmk : ¬m = k := fun heq => hif ⟨rfl, heq.symm⟩
      simp [ht, hmk]
    · simp [hv]

theorem Inherited.held_take [Fintype T] (h : s.Inherited)
    (ht : (s.thread t).pendingObject = none) (v : T) (k : M) :
    (s.rtMutexTake t m).1.held v k =
      if v = t ∧ k = m ∧ (s.rtMutexTake t m).2 ≠ some (.other 3) then s.held v k + 1
      else s.held v k := by
  cases ho : (s.mutex m).owner with
  | none =>
    have hheads : s.Heads t m [] := .inr ⟨h.wired.free m ho, rfl, ht⟩
    rw [h.rtMutexTake_free ht ho, (h.vacant ho).held_granted hheads]
    have hzero : s.held t m = 0 := by
      unfold held
      rw [ho, if_neg nofun, ht, if_neg nofun]
    refine if_ctx_congr (by simp) (fun hif => ?_) fun _ => rfl
    rw [hif.1, hif.2.1, hzero]
  | some o =>
    rcases eq_or_ne o t with rfl | hot
    · rw [rtMutexTake_own ho]
      split_ifs with hfull hif hif
      · rw [held_setHold ho, if_pos ⟨hif.1, hif.2.1⟩, hif.1, hif.2.1]
        exact congrArg (· + 1) (if_pos ho).symm
      · rw [held_setHold ho]
        exact if_neg fun hvk => hif ⟨hvk.1, hvk.2, nofun⟩
      · exact absurd rfl hif.2.2
      · rfl
    · obtain ⟨s', htake, -, hsame⟩ := h.take_wait ht ho hot
      rw [htake, hsame.held, held_blocked ht ho hot]
      exact if_congr (by simp) rfl rfl

/-- The initial priorities stay as they are. -/
theorem Inherited.init_release (h : s.Inherited) (u : T) :
    ((s.rtMutexRelease t m).1.thread u).initPriority = (s.thread u).initPriority := by
  by_cases ho : (s.mutex m).owner = some t
  · have hpos := h.wired.hold t m ho
    rcases eq_or_ne (s.mutex m).hold 1 with hhold | hhold
    · rw [h.rtMutexRelease_last ho hhold]
      cases (s.mutex m).suspendThread with
      | nil => exact s.vacated_initPriority t m u
      | cons v rest =>
        exact ((s.vacated t m).granted_initPriority v m rest u).trans (s.vacated_initPriority t m u)
    · rw [rtMutexRelease_nested ho (by omega)]
      rfl
  · rw [rtMutexRelease_of_ne ho]

theorem Inherited.init_take [Fintype T] (h : s.Inherited)
    (ht : (s.thread t).pendingObject = none) (u : T) :
    ((s.rtMutexTake t m).1.thread u).initPriority = (s.thread u).initPriority := by
  cases ho : (s.mutex m).owner with
  | none =>
    rw [h.rtMutexTake_free ht ho]
    exact s.granted_initPriority t m [] u
  | some o =>
    rcases eq_or_ne o t with rfl | hot
    · rw [rtMutexTake_own ho]
      split_ifs <;> rfl
    · obtain ⟨s', htake, -, hsame⟩ := h.take_wait ht ho hot
      rw [htake]
      exact (hsame.init u).trans (by rw [blocked_thread])

end MutexSys

/-! ## Runs -/

/-- What a thread calls. -/
inductive MutexCall (M : Type) where
  | take (m : M)
  | release (m : M)

/-- `RT_THREAD_PRIORITY_MAX` -/
def rtThreadPriorityMax : ℕ := 32

/-- The threads with their priorities, and the mutexes as they are created. -/
def MutexSys.created (prio : T → ℕ) : MutexSys T M where
  thread t := {
    initPriority := prio t, currentPriority := prio t, takenObjectList := [], pendingObject := none }
  mutex _ := .rtMutexCreate

/-- The mutexes, with the number of takes that each thread has called and not been refused, less its
releases. -/
structure MutexRun (T M : Type) where
  sys : MutexSys T M
  inside : T → M → ℕ

namespace MutexRun

variable [Fintype T]

/-- A call; a thread that is suspended calls nothing. -/
def next (r : MutexRun T M) : T × MutexCall M → MutexRun T M
  | (t, .take m) =>
    if (r.sys.thread t).pendingObject = none then
      let res := r.sys.rtMutexTake t m
      { sys := res.1
        inside := fun v k =>
          if v = t ∧ k = m ∧ res.2 ≠ some (.other 3) then r.inside v k + 1 else r.inside v k }
    else r
  | (t, .release m) =>
    if (r.sys.thread t).pendingObject = none then
      { sys := (r.sys.rtMutexRelease t m).1
        inside := fun v k => if v = t ∧ k = m then r.inside v k - 1 else r.inside v k }
    else r

def run (r : MutexRun T M) (es : List (T × MutexCall M)) : MutexRun T M := es.foldl next r

/-- Between two calls: the invariant, the initial priorities as they were, and each thread is inside
as often as it has the mutex. -/
structure Sound (prio : T → ℕ) (r : MutexRun T M) : Prop where
  inherited : r.sys.Inherited
  init : ∀ t, (r.sys.thread t).initPriority = prio t
  inside : ∀ t m, r.inside t m = r.sys.held t m

omit [DecidableEq T] [DecidableEq M] [Fintype T] in
theorem created_inherited {prio : T → ℕ} (hprio : ∀ t, prio t < rtThreadPriorityMax) :
    (MutexSys.created prio : MutexSys T M).Inherited := by
  have hlow : ∀ t, prio t < 0xff := fun t => (hprio t).trans (by decide)
  refine ⟨⟨fun t m => ?_, fun _ => .nil, fun t m => ?_, fun _ => .nil, fun _ _ => rfl, nofun, nofun⟩,
    ⟨hlow, fun t => (hlow t).le, fun _ => rfl, fun _ => .nil, fun _ => rfl⟩, fun _ => rfl,
    fun t => ⟨t, .refl, rfl⟩⟩
  · exact ⟨nofun, nofun⟩
  · exact ⟨nofun, nofun⟩

variable {prio : T → ℕ}

theorem Sound.next {r : MutexRun T M} (h : r.Sound prio) (e : T × MutexCall M) :
    (r.next e).Sound prio := by
  obtain ⟨t, c⟩ := e
  cases c with
  | take m =>
    by_cases ht : (r.sys.thread t).pendingObject = none
    · have hnext : r.next (t, .take m) = _ := if_pos ht
      rw [hnext]
      refine ⟨h.inherited.take ht, fun v => ?_, fun v k => ?_⟩
      · exact (h.inherited.init_take ht v).trans (h.init v)
      · show (if _ then r.inside v k + 1 else r.inside v k) = _
        rw [h.inherited.held_take ht, h.inside]
    · have hnext : r.next (t, .take m) = r := if_neg ht
      rw [hnext]
      exact h
  | release m =>
    by_cases ht : (r.sys.thread t).pendingObject = none
    · have hnext : r.next (t, .release m) = _ := if_pos ht
      rw [hnext]
      refine ⟨h.inherited.release ht, fun v => ?_, fun v k => ?_⟩
      · exact (h.inherited.init_release v).trans (h.init v)
      · show (if _ then r.inside v k - 1 else r.inside v k) = _
        rw [h.inherited.held_release ht, h.inside]
    · have hnext : r.next (t, .release m) = r := if_neg ht
      rw [hnext]
      exact h

theorem Sound.run {r : MutexRun T M} (h : r.Sound prio) (es : List (T × MutexCall M)) :
    (r.run es).Sound prio := by
  induction es generalizing r with
  | nil => exact h
  | cons e es ih => exact ih (h.next e)

end MutexRun

/-- **Mutual exclusion and priority inheritance.** Any number of threads take and release any number
of mutexes in any order. In every state of the run a thread that is inside a mutex and does not wait
for it is its owner, as often as it is inside; nobody waits for a mutex that is free; the waiters of
a mutex are ordered by priority; and each thread has the priority of the most urgent thread that
waits for it, directly or through others, or its own. -/
theorem mutex_run [Fintype T] (prio : T → ℕ) (hprio : ∀ t, prio t < rtThreadPriorityMax)
    (es : List (T × MutexCall M)) :
    let r := (⟨.created prio, fun _ _ => 0⟩ : MutexRun T M).run es
    (∀ t m, 0 < r.inside t m → (r.sys.thread t).pendingObject ≠ some m →
      (r.sys.mutex m).owner = some t ∧ (r.sys.mutex m).hold = r.inside t m) ∧
    (∀ t m, (r.sys.mutex m).owner = none → (r.sys.thread t).pendingObject ≠ some m) ∧
    (∀ m, Ascending r.sys.currPrio (r.sys.mutex m).suspendThread) ∧
    Exact r.sys.Waits prio r.sys.currPrio := by
  intro r
  have hstart : MutexRun.Sound prio (⟨.created prio, fun _ _ => 0⟩ : MutexRun T M) :=
    ⟨MutexRun.created_inherited hprio, fun _ => rfl, fun _ _ => rfl⟩
  have hr : r.Sound prio := hstart.run es
  have hinh := hr.inherited
  refine ⟨fun t m hin hwait => ?_, fun t m ho hwait => ?_, hinh.levels.ordered, ?_⟩
  · have hheld := hr.inside t m
    unfold MutexSys.held at hheld
    by_cases ho : (r.sys.mutex m).owner = some t
    · rw [if_pos ho] at hheld
      exact ⟨ho, hheld.symm⟩
    · rw [if_neg ho, if_neg hwait] at hheld
      omega
  · have hmem := (hinh.wired.queue t m).mpr hwait
    rw [hinh.wired.free m ho] at hmem
    cases hmem
  · have hexact : Exact r.sys.Waits (fun t => (r.sys.thread t).initPriority) r.sys.currPrio := by
      refine exact_of (fun t => ?_) (fun u t hut => ?_) hinh.backed
      · exact (hinh.settled t).le.trans ((hinh.levels.le_asked_iff _).mp le_rfl).1
      · obtain ⟨m, hu, ht⟩ := hut
        have hasked := ((hinh.levels.le_asked_iff _).mp (hinh.settled t).le).2 m
          ((hinh.wired.taken t m).mpr ht)
        rw [hinh.levels.first m] at hasked
        exact (((hinh.levels.ordered m).le_first_iff hinh.levels.low).mp hasked).2 u
          ((hinh.wired.queue u m).mpr hu)
    simpa only [hr.init] using hexact

/-- Thread 0 has mutex 0, for which thread 1 waits, who has mutex 1, for which thread 2 waits. -/
def mutexChain : List (Fin 3 × MutexCall (Fin 2)) :=
  [(0, .take 0), (1, .take 1), (1, .take 0), (2, .take 1)]

def chainPrio (t : Fin 3) : ℕ := 20 - 5 * t.val

theorem mutex_run_chain : (∀ t, chainPrio t < rtThreadPriorityMax) ∧
    let r := (⟨.created chainPrio, fun _ _ => 0⟩ : MutexRun (Fin 3) (Fin 2)).run mutexChain
    (∀ t m, 0 < r.inside t m → (r.sys.thread t).pendingObject ≠ some m →
      (r.sys.mutex m).owner = some t ∧ (r.sys.mutex m).hold = r.inside t m) ∧
    (∀ t m, (r.sys.mutex m).owner = none → (r.sys.thread t).pendingObject ≠ some m) ∧
    (∀ m, Ascending r.sys.currPrio (r.sys.mutex m).suspendThread) ∧
    Exact r.sys.Waits chainPrio r.sys.currPrio :=
  have hprio : ∀ t, chainPrio t < rtThreadPriorityMax := by decide
  ⟨hprio, mutex_run chainPrio hprio mutexChain⟩

/-- The priority of thread 2 goes through to thread 0. -/
example : ((⟨.created chainPrio, fun _ _ => 0⟩ : MutexRun (Fin 3) (Fin 2)).run
    mutexChain).sys.currPrio 0 = chainPrio 2 := by decide +kernel

end H750Stepper
