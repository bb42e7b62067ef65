import H750Stepper.Kernel.Inheritance

/-!
# A mutex that is taken

`rt_mutex_take` of a mutex that has an owner: the owner counts one more hold, and another thread
goes to its place in the queue and raises the owner, and the owners after it.
-/

namespace H750Stepper

open Relation Inherit

variable {T M : Type} [DecidableEq T] [DecidableEq M]

namespace MutexSys

variable {s : MutexSys T M} {t o : T} {m : M}

/-- The thread `t` in the queue of the mutex `m`. -/
def blocked (s : MutexSys T M) (t : T) (m : M) : MutexSys T M :=
  (s.setMutex m { s.mutex m with
    suspendThread := s.suspListEnqueue t (s.mutex m).suspendThread
    priority := min (s.mutex m).priority (s.currPrio t) }).setThread t
      { s.thread t with pendingObject := some m }

theorem blocked_currPrio (t : T) (m : M) : (s.blocked t m).currPrio = s.currPrio := by
  funext u
  rcases eq_or_ne u t with rfl | hu
  · simp [blocked, currPrio]
  · simp [blocked, currPrio, setThread_thread_of_ne hu]

theorem blocked_thread (t u : T) (m : M) : (s.blocked t m).thread u =
    { s.thread u with pendingObject := if u = t then some m else (s.thread u).pendingObject } := by
  rcases eq_or_ne u t with rfl | hu
  · simp [blocked]
  · simp [blocked, setThread_thread_of_ne hu, hu]

theorem blocked_mutex_self (t : T) (m : M) : (s.blocked t m).mutex m = { s.mutex m with
    suspendThread := s.suspListEnqueue t (s.mutex m).suspendThread
    priority := min (s.mutex m).priority (s.currPrio t) } := by
  simp [blocked]

theorem blocked_mutex_of_ne (t : T) {m k : M} (hk : k ≠ m) :
    (s.blocked t m).mutex k = s.mutex k := by
  simp [blocked, setMutex_mutex_of_ne hk]

theorem Inherited.blocked_wired (h : s.Inherited) (ht : (s.thread t).pendingObject = none)
    (ho : (s.mutex m).owner = some o) (hot : o ≠ t) : (s.blocked t m).Wired := by
  have hfresh : ∀ k, t ∉ (s.mutex k).suspendThread := fun k hk => by
    have hpending := (h.wired.queue t k).mp hk
    rw [ht] at hpending
    cases hpending
  have howner : ∀ k, ((s.blocked t m).mutex k).owner = (s.mutex k).owner := fun k => by
    rcases eq_or_ne k m with rfl | hk
    · rw [blocked_mutex_self]
    · rw [blocked_mutex_of_ne t hk]
  refine ⟨fun u k => ?_, fun k => ?_, fun u k => ?_, fun u => ?_, fun k hk => ?_, fun u k => ?_,
    fun u k => ?_⟩
  · rw [blocked_thread]
    rcases eq_or_ne k m with rfl | hk
    · rw [blocked_mutex_self]
      simp only [suspListEnqueue, List.mem_orderedInsert]
      by_cases hut : u = t
      · simp [hut]
      · simp [hut, h.wired.queue u k]
    · rw [blocked_mutex_of_ne t hk]
      by_cases hut : u = t
      · subst hut
        simpa [hfresh k] using fun hmk => hk hmk.symm
      · simp [hut, h.wired.queue u k]
  · rcases eq_or_ne k m with rfl | hk
    · rw [blocked_mutex_self]
      exact (List.perm_orderedInsert _ _ _).nodup_iff.mpr
        (List.nodup_cons.mpr ⟨hfresh k, h.wired.nodup k⟩)
    · rw [blocked_mutex_of_ne t hk]
      exact h.wired.nodup k
  · rw [blocked_thread, howner]
    exact h.wired.taken u k
  · rw [blocked_thread]
    exact h.wired.takenNodup u
  · rw [howner] at hk
    have hkm : k ≠ m := by
      rintro rfl
      rw [hk] at ho
      cases ho
    rw [blocked_mutex_of_ne t hkm]
    exact h.wired.free k hk
  · rw [blocked_thread, howner]
    by_cases hut : u = t
    · subst hut
      rintro hk hown
      simp only [if_true, Option.some.injEq] at hk
      rw [← hk, ho] at hown
      exact hot (Option.some.inj hown)
    · simpa [hut] using h.wired.self u k
  · rw [howner]
    intro hk
    rcases eq_or_ne k m with rfl | hkm
    · rw [blocked_mutex_self]
      exact h.wired.hold u k hk
    · rw [blocked_mutex_of_ne t hkm]
      exact h.wired.hold u k hk

theorem Inherited.blocked_levels (h : s.Inherited) : (s.blocked t m).Levels := by
  refine ⟨fun u => ?_, fun u => ?_, fun k => ?_, fun k => ?_, fun k => ?_⟩
  · rw [blocked_thread]
    exact h.levels.init u
  · rw [blocked_currPrio]
    exact h.levels.low u
  · rcases eq_or_ne k m with rfl | hk
    · rw [blocked_mutex_self]
      exact h.levels.ceiling k
    · rw [blocked_mutex_of_ne t hk]
      exact h.levels.ceiling k
  · rw [blocked_currPrio]
    rcases eq_or_ne k m with rfl | hk
    · rw [blocked_mutex_self]
      exact (h.levels.ordered k).insert t
    · rw [blocked_mutex_of_ne t hk]
      exact h.levels.ordered k
  · rw [blocked_currPrio]
    rcases eq_or_ne k m with rfl | hk
    · rw [blocked_mutex_self]
      exact (congrArg (min · (s.currPrio t)) (h.levels.first k)).trans
        ((h.levels.ordered k).first_insert h.levels.low t).symm
    · rw [blocked_mutex_of_ne t hk]
      exact h.levels.first k

/-- A thread that has to wait raises the owner. -/
theorem Inherited.blocked (h : s.Inherited) (ht : (s.thread t).pendingObject = none)
    (ho : (s.mutex m).owner = some o) (hot : o ≠ t) : (s.blocked t m).Raised o (s.currPrio t) := by
  have hlevels : (s.blocked t m).Levels := h.blocked_levels
  have hmo : m ∈ (s.thread o).takenObjectList := (h.wired.taken o m).mpr ho
  have hbacked : ∀ u p, s.BackedBy u p → (s.blocked t m).BackedBy u p := by
    rintro u p ⟨v, hv, hinit⟩
    refine ⟨v, hv.lift id ?_, by rw [blocked_thread]; exact hinit⟩
    rintro x y ⟨k, hx, hy⟩
    have hxt : x ≠ t := by
      rintro rfl
      rw [ht] at hx
      cases hx
    refine ⟨k, by rw [blocked_thread]; simpa [hxt] using hx, ?_⟩
    rcases eq_or_ne k m with rfl | hk
    · rw [blocked_mutex_self]
      exact hy
    · rw [blocked_mutex_of_ne t hk]
      exact hy
  refine ⟨h.blocked_wired ht ho hot, hlevels, fun u hu => ?_, ?_, fun u => ?_, ?_⟩
  · unfold Settled
    rw [blocked_currPrio, h.settled u]
    refine (asked_congr (by rw [blocked_thread]) (by rw [blocked_thread]) fun k hk => ?_).symm
    rw [blocked_mutex_of_ne t fun hkm => ?_]
    · exact ⟨rfl, rfl⟩
    · rw [hkm] at hk
      exact hu (Option.some.inj (((h.wired.taken u m).mp hk).symm.trans ho))
  · rw [asked_lower h.levels hlevels (by rw [blocked_thread]) (by rw [blocked_thread]) hmo
      (by rw [blocked_mutex_self]) fun k hk => by rw [blocked_mutex_of_ne t hk], blocked_currPrio]
    exact congrArg (min · (s.currPrio t)) (h.settled o).symm
  · rw [blocked_currPrio]
    exact hbacked u _ (h.backed u)
  · obtain ⟨u, hu, hinit⟩ := hbacked t _ (h.backed t)
    refine ⟨u, hu.tail ⟨m, ?_, ?_⟩, hinit⟩
    · rw [blocked_thread]
      exact if_pos rfl
    · rw [blocked_mutex_self]
      exact ho

omit [DecidableEq T] [DecidableEq M] in
/-- Only recursion counts change. -/
theorem Inherited.rehold (h : s.Inherited) {s' : MutexSys T M} (hthread : s'.thread = s.thread)
    (hmutex : ∀ k, ∃ n, s'.mutex k = { s.mutex k with hold := n } ∧
      (0 < (s.mutex k).hold → 0 < n)) : s'.Inherited := by
  obtain ⟨thread, mutex⟩ := s'
  obtain rfl : thread = s.thread := hthread
  refine { wired := ?_, levels := ?_, settled := fun u => ?_, backed := fun u => ?_ }
  · refine ⟨fun u k => ?_, fun k => ?_, fun u k => ?_, h.wired.takenNodup, fun k => ?_,
      fun u k => ?_, fun u k => ?_⟩ <;> obtain ⟨n', hk, hpos⟩ := hmutex k <;> rw [hk]
    · exact h.wired.queue u k
    · exact h.wired.nodup k
    · exact h.wired.taken u k
    · exact h.wired.free k
    · exact h.wired.self u k
    · exact fun ho => hpos (h.wired.hold u k ho)
  · refine ⟨h.levels.init, h.levels.low, fun k => ?_, fun k => ?_, fun k => ?_⟩ <;>
      obtain ⟨n', hk, -⟩ := hmutex k <;> rw [hk]
    · exact h.levels.ceiling k
    · exact h.levels.ordered k
    · exact h.levels.first k
  · have hasked : (⟨s.thread, mutex⟩ : MutexSys T M).threadGetMutexPriority u =
        s.threadGetMutexPriority u := asked_congr rfl rfl fun k _ => by
      obtain ⟨n', hk, -⟩ := hmutex k
      rw [hk]
      exact ⟨rfl, rfl⟩
    exact (h.settled u).trans hasked.symm
  · obtain ⟨v, hv, hinit⟩ := h.backed u
    refine ⟨v, hv.lift id ?_, hinit⟩
    rintro x y ⟨k, hx, hy⟩
    obtain ⟨n', hk, -⟩ := hmutex k
    exact ⟨k, hx, by rw [hk]; exact hy⟩

omit [DecidableEq T] in
theorem Inherited.setHold (h : s.Inherited) {n : ℕ} (hn : 0 < n) :
    (s.setMutex m { s.mutex m with hold := n }).Inherited := by
  refine h.rehold rfl fun k => ?_
  rcases eq_or_ne k m with rfl | hk
  · exact ⟨n, setMutex_mutex_self, fun _ => hn⟩
  · exact ⟨_, setMutex_mutex_of_ne hk, id⟩

/-- The steps of `rt_mutex_take` that suspend the thread. -/
theorem blocked_eq (s : MutexSys T M) (t : T) (m : M) :
    let q := { s.mutex m with suspendThread := s.suspListEnqueue t (s.mutex m).suspendThread }
    let s' := (s.setMutex m q).setThread t { s.thread t with pendingObject := some m }
    s.blocked t m = s'.setMutex m { s'.mutex m with
      priority := min (s.mutex m).priority (s.currPrio t) } := by
  simp [blocked, setMutex, setThread]

variable [Fintype T]

theorem rtMutexTake_own (ho : (s.mutex m).owner = some t) : s.rtMutexTake t m =
    if (s.mutex m).hold < mutexHoldMax then
      (s.setMutex m { s.mutex m with hold := (s.mutex m).hold + 1 }, some .eOk)
    else (s, some (.other 3)) := by
  unfold rtMutexTake
  rw [ho]
  exact if_pos rfl

theorem rtMutexTake_wait (ho : (s.mutex m).owner = some o) (hot : o ≠ t) : s.rtMutexTake t m =
    (if s.currPrio t < (s.mutex m).priority ∧ s.currPrio t < s.currPrio o then
      (s.blocked t m).threadUpdatePriority (Fintype.card T) o (s.currPrio t)
    else s.blocked t m, none) := by
  have hcur := s.blocked_currPrio t m
  unfold rtMutexTake
  rw [ho]
  dsimp only
  rw [if_neg hot]
  have hblock := s.blocked_eq t m
  dsimp only at hblock
  set s' := (s.setMutex m { s.mutex m with
    suspendThread := s.suspListEnqueue t (s.mutex m).suspendThread }).setThread t
      { s.thread t with pendingObject := some m } with hs'
  have hprio : (s'.mutex m).priority = (s.mutex m).priority := by
    rw [hs']
    simp
  have hcur' : s'.currPrio t = s.currPrio t := by
    rw [hblock] at hcur
    exact congrFun hcur t
  show (if s'.currPrio t < (s'.mutex m).priority then
      let s'' := s'.setMutex m { s'.mutex m with priority := s'.currPrio t }
      if s'.currPrio t < s''.currPrio o then
        (s''.threadUpdatePriority (Fintype.card T) o (s'.currPrio t), none)
      else (s'', none)
    else (s', none)) = _
  rw [hcur', hprio]
  dsimp only
  by_cases hp : s.currPrio t < (s.mutex m).priority
  · have hs'' : s'.setMutex m { s'.mutex m with priority := s.currPrio t } = s.blocked t m := by
      rw [hblock, min_eq_right hp.le]
    rw [if_pos hp, hs'', hcur]
    by_cases hpo : s.currPrio t < s.currPrio o
    · rw [if_pos hpo, if_pos ⟨hp, hpo⟩]
    · rw [if_neg hpo, if_neg fun h => hpo h.2]
  · have hs'' : s' = s.blocked t m := by
      rw [hblock, min_eq_left (not_lt.mp hp), ← hprio]
      exact congrArg _ (Function.update_eq_self m s'.mutex).symm
    rw [if_neg hp, if_neg fun h => hp h.1, hs'']

end MutexSys

end H750Stepper
