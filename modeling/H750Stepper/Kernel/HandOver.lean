import H750Stepper.Kernel.Waiting

/-!
# A mutex that changes hands

A release vacates the mutex and gives it to its first waiter; a take of a mutex without an owner
gives it to the thread that takes it. Both go through a state in which the mutex is `Vacant`, and
with it `rt_mutex_release` and `rt_mutex_take` keep the invariant.
-/

namespace H750Stepper

open Relation Inherit

variable {T M : Type} [DecidableEq T] [DecidableEq M]

namespace MutexSys

variable {s : MutexSys T M} {t o : T} {m : M}

/-- Nobody owns `m`, and its first waiter has not been chosen yet. -/
structure Vacant (s : MutexSys T M) (m : M) : Prop where
  owner : (s.mutex m).owner = none
  queue : ∀ u k, u ∈ (s.mutex k).suspendThread ↔ (s.thread u).pendingObject = some k
  nodup : ∀ k, (s.mutex k).suspendThread.Nodup
  taken : ∀ u k, k ∈ (s.thread u).takenObjectList ↔ (s.mutex k).owner = some u
  takenNodup : ∀ u, (s.thread u).takenObjectList.Nodup
  free : ∀ k ≠ m, (s.mutex k).owner = none → (s.mutex k).suspendThread = []
  self : ∀ u k, (s.thread u).pendingObject = some k → (s.mutex k).owner ≠ some u
  hold : ∀ u k, (s.mutex k).owner = some u → 0 < (s.mutex k).hold
  init : ∀ u, (s.thread u).initPriority < 0xff
  low : ∀ u, s.currPrio u ≤ 0xff
  ceiling : ∀ k, (s.mutex k).ceilingPriority = 0xff
  ordered : ∀ k, Ascending s.currPrio (s.mutex k).suspendThread
  first : ∀ k ≠ m, (s.mutex k).priority =
    Inherit.first 0xff s.currPrio (s.mutex k).suspendThread
  settled : ∀ u, s.Settled u
  backed : ∀ u, s.BackedBy u (s.currPrio u)

/-- The thread `u` gets the mutex `m`, for which the threads `rest` go on waiting. -/
def granted (s : MutexSys T M) (u : T) (m : M) (rest : List T) : MutexSys T M :=
  (s.setMutex m { s.mutex m with
    owner := some u
    hold := 1
    priority := Inherit.first 0xff s.currPrio rest
    suspendThread := rest }).setThread u
      { s.thread u with
        takenObjectList := m :: (s.thread u).takenObjectList
        pendingObject := none }

theorem granted_currPrio (s : MutexSys T M) (u : T) (m : M) (rest : List T) :
    (s.granted u m rest).currPrio = s.currPrio := by
  funext v
  rcases eq_or_ne v u with rfl | hv
  · simp [granted, currPrio]
  · simp [granted, currPrio, setThread_thread_of_ne hv]

theorem granted_thread_self (s : MutexSys T M) (u : T) (m : M) (rest : List T) :
    (s.granted u m rest).thread u = { s.thread u with
      takenObjectList := m :: (s.thread u).takenObjectList
      pendingObject := none } := by
  simp [granted]

theorem granted_thread_of_ne (s : MutexSys T M) {u v : T} (hv : v ≠ u) (m : M) (rest : List T) :
    (s.granted u m rest).thread v = s.thread v := by
  simp [granted, setThread_thread_of_ne hv]

theorem granted_mutex_self (s : MutexSys T M) (u : T) (m : M) (rest : List T) :
    (s.granted u m rest).mutex m = { s.mutex m with
      owner := some u
      hold := 1
      priority := Inherit.first 0xff s.currPrio rest
      suspendThread := rest } := by
  simp [granted]

theorem granted_mutex_of_ne (s : MutexSys T M) (u : T) {m k : M} (hk : k ≠ m) (rest : List T) :
    (s.granted u m rest).mutex k = s.mutex k := by
  simp [granted, setMutex_mutex_of_ne hk]

theorem granted_initPriority (s : MutexSys T M) (u : T) (m : M) (rest : List T) (v : T) :
    ((s.granted u m rest).thread v).initPriority = (s.thread v).initPriority := by
  rcases eq_or_ne v u with rfl | hv
  · rw [granted_thread_self]
  · rw [granted_thread_of_ne _ hv]

/-- The thread `u` is the first waiter, or it does not wait and nobody does; then come `rest`. -/
def Heads (s : MutexSys T M) (u : T) (m : M) (rest : List T) : Prop :=
  (s.mutex m).suspendThread = u :: rest ∨
    (s.mutex m).suspendThread = rest ∧ rest = [] ∧ (s.thread u).pendingObject = none

omit [DecidableEq T] [DecidableEq M] in
theorem Vacant.not_taken (h : s.Vacant m) (u : T) : m ∉ (s.thread u).takenObjectList := fun hu => by
  have howner := (h.taken u m).mp hu
  rw [h.owner] at howner
  cases howner

omit [DecidableEq T] [DecidableEq M] in
theorem Vacant.pending_eq (h : s.Vacant m) {u : T} {rest : List T} (hq : s.Heads u m rest) {k : M}
    (hk : (s.thread u).pendingObject = some k) : k = m := by
  rcases hq with hq | ⟨-, -, hnone⟩
  · have hm := (h.queue u m).mp (by rw [hq]; exact .head _)
    exact (Option.some.inj (hm.symm.trans hk)).symm
  · rw [hnone] at hk
    cases hk

theorem Vacant.granted_wired (h : s.Vacant m) {u : T} {rest : List T} (hq : s.Heads u m rest) :
    (s.granted u m rest).Wired := by
  have hmem : ∀ v ≠ u, v ∈ (s.mutex m).suspendThread ↔ v ∈ rest := fun v hv => by
    rcases hq with hq | ⟨hq, -, -⟩ <;> rw [hq]
    simp [hv]
  have hrest : u ∉ rest := by
    rcases hq with hq | ⟨-, hq, -⟩
    · have hnodup := h.nodup m
      rw [hq] at hnodup
      exact (List.nodup_cons.mp hnodup).1
    · simp [hq]
  refine ⟨fun v k => ?_, fun k => ?_, fun v k => ?_, fun v => ?_, fun k hk => ?_, fun v k => ?_,
    fun v k => ?_⟩
  · rcases eq_or_ne v u with rfl | hv
    · rw [granted_thread_self]
      rcases eq_or_ne k m with rfl | hk
      · rw [granted_mutex_self]
        simpa using hrest
      · rw [granted_mutex_of_ne _ _ hk, h.queue]
        simpa using fun hvk => hk (h.pending_eq hq hvk)
    · rw [granted_thread_of_ne _ hv, ← h.queue]
      rcases eq_or_ne k m with rfl | hk
      · rw [granted_mutex_self, hmem v hv]
      · rw [granted_mutex_of_ne _ _ hk]
  · rcases eq_or_ne k m with rfl | hk
    · rw [granted_mutex_self]
      rcases hq with hq | ⟨-, hq, -⟩
      · have hnodup := h.nodup k
        rw [hq] at hnodup
        exact (List.nodup_cons.mp hnodup).2
      · simp [hq]
    · rw [granted_mutex_of_ne _ _ hk]
      exact h.nodup k
  · rcases eq_or_ne v u with rfl | hv
    · rw [granted_thread_self]
      rcases eq_or_ne k m with rfl | hk
      · simp [granted_mutex_self]
      · rw [granted_mutex_of_ne _ _ hk, ← h.taken]
        simp [hk]
    · rw [granted_thread_of_ne _ hv]
      rcases eq_or_ne k m with rfl | hk
      · rw [granted_mutex_self]
        simpa [h.not_taken v] using fun huv => hv huv.symm
      · rw [granted_mutex_of_ne _ _ hk, h.taken]
  · rcases eq_or_ne v u with rfl | hv
    · rw [granted_thread_self]
      exact List.nodup_cons.mpr ⟨h.not_taken v, h.takenNodup v⟩
    · rw [granted_thread_of_ne _ hv]
      exact h.takenNodup v
  · rcases eq_or_ne k m with rfl | hkm
    · rw [granted_mutex_self] at hk
      cases hk
    · rw [granted_mutex_of_ne _ _ hkm] at hk ⊢
      exact h.free k hkm hk
  · rcases eq_or_ne v u with rfl | hv
    · rw [granted_thread_self]
      exact nofun
    · rw [granted_thread_of_ne _ hv]
      rcases eq_or_ne k m with rfl | hk
      · rw [granted_mutex_self]
        exact fun _ huv => hv (Option.some.inj huv).symm
      · rw [granted_mutex_of_ne _ _ hk]
        exact h.self v k
  · rcases eq_or_ne k m with rfl | hk
    · rw [granted_mutex_self]
      exact fun _ => Nat.one_pos
    · rw [granted_mutex_of_ne _ _ hk]
      exact h.hold v k

/-- A mutex without an owner is handed over. -/
theorem Vacant.granted (h : s.Vacant m) {u : T} {rest : List T} (hq : s.Heads u m rest) :
    (s.granted u m rest).Inherited := by
  have hcur := s.granted_currPrio u m rest
  have hinit := s.granted_initPriority u m rest
  have hrest : Ascending s.currPrio rest ∧ ∀ v ∈ rest, s.currPrio u ≤ s.currPrio v := by
    rcases hq with hq | ⟨-, rfl, -⟩
    · have hord := h.ordered m
      rw [hq] at hord
      exact (List.pairwise_cons.mp hord).symm
    · exact ⟨.nil, nofun⟩
  have hle : s.currPrio u ≤ Inherit.first 0xff s.currPrio rest :=
    (hrest.1.le_first_iff h.low).mpr ⟨h.low u, hrest.2⟩
  refine { wired := h.granted_wired hq, levels := ?_, settled := fun v => ?_, backed := fun v => ?_ }
  · refine ⟨fun v => ?_, fun v => ?_, fun k => ?_, fun k => ?_, fun k => ?_⟩
    · rw [hinit]
      exact h.init v
    · rw [hcur]
      exact h.low v
    · rcases eq_or_ne k m with rfl | hk
      · rw [granted_mutex_self]
        exact h.ceiling k
      · rw [granted_mutex_of_ne _ _ hk]
        exact h.ceiling k
    · rw [hcur]
      rcases eq_or_ne k m with rfl | hk
      · rw [granted_mutex_self]
        exact hrest.1
      · rw [granted_mutex_of_ne _ _ hk]
        exact h.ordered k
    · rw [hcur]
      rcases eq_or_ne k m with rfl | hk
      · rw [granted_mutex_self]
      · rw [granted_mutex_of_ne _ _ hk]
        exact h.first k hk
  · have hsame : ∀ k ∈ (s.thread v).takenObjectList,
        (s.granted u m rest).mutex k = s.mutex k := fun k hk =>
      granted_mutex_of_ne _ _ (fun hkm => h.not_taken v (by rwa [hkm] at hk)) rest
    have hasked : (s.granted u m rest).threadGetMutexPriority v = s.threadGetMutexPriority v := by
      rcases eq_or_ne v u with rfl | hv
      · refine eq_of_forall_le_iff fun c => ?_
        rw [le_threadGetMutexPriority_iff, hinit, granted_thread_self]
        simp only [List.forall_mem_cons]
        constructor
        · rintro ⟨hc, -, hall⟩
          refine (le_threadGetMutexPriority_iff c).mpr ⟨hc, fun k hk => ?_⟩
          rw [← hsame k hk]
          exact hall k hk
        · intro hc
          have hcv : c ≤ s.currPrio v := hc.trans (h.settled v).ge
          obtain ⟨hc, hall⟩ := (le_threadGetMutexPriority_iff c).mp hc
          refine ⟨hc, ?_, fun k hk => ?_⟩
          · rw [granted_mutex_self]
            exact le_min (hcv.trans hle) (by rw [h.ceiling]; exact hcv.trans (h.low v))
          · rw [hsame k hk]
            exact hall k hk
      · refine asked_congr (hinit v) (by rw [granted_thread_of_ne _ hv]) fun k hk => ?_
        rw [hsame k hk]
        exact ⟨rfl, rfl⟩
    unfold Settled
    rw [hcur, hasked]
    exact h.settled v
  · rw [hcur]
    obtain ⟨w, hw, hwinit⟩ := h.backed v
    refine ⟨w, hw.lift id fun x y hxy => ?_, (hinit w).trans hwinit⟩
    obtain ⟨k, hx, hy⟩ := hxy
    have hk : k ≠ m := by
      rintro rfl
      rw [h.owner] at hy
      cases hy
    have hxu : x ≠ u := by
      rintro rfl
      exact hk (h.pending_eq hq hx)
    refine ⟨k, ?_, ?_⟩
    · rw [id, granted_thread_of_ne _ hxu]
      exact hx
    · rw [granted_mutex_of_ne _ _ hk]
      exact hy

omit [DecidableEq T] in
/-- Nobody waits for the mutex. -/
theorem Vacant.idle (h : s.Vacant m) (hq : (s.mutex m).suspendThread = []) :
    (s.setMutex m { s.mutex m with priority := 0xff }).Inherited := by
  have hmutex : ∀ k, ∃ p, (s.setMutex m { s.mutex m with priority := 0xff }).mutex k =
      { s.mutex k with priority := p } := fun k => by
    rcases eq_or_ne k m with rfl | hk
    · exact ⟨0xff, setMutex_mutex_self⟩
    · exact ⟨_, setMutex_mutex_of_ne hk⟩
  refine { wired := ?_, levels := ?_, settled := fun u => ?_, backed := fun u => ?_ }
  · refine ⟨fun u k => ?_, fun k => ?_, fun u k => ?_, h.takenNodup, fun k => ?_,
      fun u k => ?_, fun u k => ?_⟩ <;> obtain ⟨p, hk⟩ := hmutex k <;> rw [hk]
    · exact h.queue u k
    · exact h.nodup k
    · exact h.taken u k
    · intro howner
      rcases eq_or_ne k m with rfl | hkm
      · exact hq
      · exact h.free k hkm howner
    · exact h.self u k
    · exact h.hold u k
  · refine ⟨h.init, h.low, fun k => ?_, fun k => ?_, fun k => ?_⟩
    · obtain ⟨p, hk⟩ := hmutex k
      rw [hk]
      exact h.ceiling k
    · obtain ⟨p, hk⟩ := hmutex k
      rw [hk]
      exact h.ordered k
    · rcases eq_or_ne k m with rfl | hk
      · rw [setMutex_mutex_self]
        show 0xff = Inherit.first 0xff s.currPrio (s.mutex k).suspendThread
        rw [hq]
        rfl
      · rw [setMutex_mutex_of_ne hk]
        exact h.first k hk
  · have hasked : (s.setMutex m { s.mutex m with priority := 0xff }).threadGetMutexPriority u =
        s.threadGetMutexPriority u := asked_congr rfl rfl fun k hk => by
      rw [setMutex_mutex_of_ne fun hkm => h.not_taken u (by rwa [hkm] at hk)]
      exact ⟨rfl, rfl⟩
    exact (h.settled u).trans hasked.symm
  · obtain ⟨v, hv, hinit⟩ := h.backed u
    refine ⟨v, hv.lift id fun x y hxy => ?_, hinit⟩
    obtain ⟨k, hx, hy⟩ := hxy
    obtain ⟨p, hk⟩ := hmutex k
    exact ⟨k, hx, by rw [hk]; exact hy⟩

/-! ## Releasing -/

/-- What the thread `t` is asked for by its other mutexes. -/
def asksWithout (s : MutexSys T M) (t : T) (m : M) : ℕ :=
  (s.setThread t { s.thread t with
    takenObjectList := (s.thread t).takenObjectList.erase m }).threadGetMutexPriority t

/-- The thread `t` has let go of the mutex `m`. -/
def vacated (s : MutexSys T M) (t : T) (m : M) : MutexSys T M :=
  (s.setMutex m { s.mutex m with owner := none, hold := 0 }).setThread t { s.thread t with
    currentPriority := s.asksWithout t m
    takenObjectList := (s.thread t).takenObjectList.erase m }

theorem vacated_thread_self (s : MutexSys T M) (t : T) (m : M) : (s.vacated t m).thread t =
    { s.thread t with
      currentPriority := s.asksWithout t m
      takenObjectList := (s.thread t).takenObjectList.erase m } := by
  simp [vacated]

theorem vacated_thread_of_ne (s : MutexSys T M) {t u : T} (hu : u ≠ t) (m : M) :
    (s.vacated t m).thread u = s.thread u := by
  simp [vacated, setThread_thread_of_ne hu]

theorem vacated_initPriority (s : MutexSys T M) (t : T) (m : M) (u : T) :
    ((s.vacated t m).thread u).initPriority = (s.thread u).initPriority := by
  rcases eq_or_ne u t with rfl | hu
  · rw [vacated_thread_self]
  · rw [vacated_thread_of_ne _ hu]

theorem vacated_pendingObject (s : MutexSys T M) (t : T) (m : M) (u : T) :
    ((s.vacated t m).thread u).pendingObject = (s.thread u).pendingObject := by
  rcases eq_or_ne u t with rfl | hu
  · rw [vacated_thread_self]
  · rw [vacated_thread_of_ne _ hu]

theorem vacated_mutex_self (s : MutexSys T M) (t : T) (m : M) :
    (s.vacated t m).mutex m = { s.mutex m with owner := none, hold := 0 } := by
  simp [vacated]

theorem vacated_mutex_of_ne (s : MutexSys T M) (t : T) {m k : M} (hk : k ≠ m) :
    (s.vacated t m).mutex k = s.mutex k := by
  simp [vacated, setMutex_mutex_of_ne hk]

theorem Inherited.le_asksWithout_iff (h : s.Inherited) (c : ℕ) : c ≤ s.asksWithout t m ↔
    c ≤ (s.thread t).initPriority ∧ ∀ k ∈ (s.thread t).takenObjectList, k ≠ m →
      c ≤ (s.mutex k).priority := by
  unfold asksWithout
  rw [le_threadGetMutexPriority_iff, setThread_thread_self, setThread_mutex]
  simp only [(h.wired.takenNodup t).mem_erase_iff, h.levels.ceiling]
  have hinit := h.levels.init t
  constructor
  · rintro ⟨hc, hall⟩
    exact ⟨hc, fun k hk hkm => (le_min_iff.mp (hall k ⟨hkm, hk⟩)).1⟩
  · rintro ⟨hc, hall⟩
    exact ⟨hc, fun k hk => le_min (hall k hk.2 hk.1) (hc.trans hinit.le)⟩

/-- The mutex and the rest of what the thread is asked for. -/
theorem Inherited.currPrio_eq (h : s.Inherited) (ho : (s.mutex m).owner = some t) :
    s.currPrio t = min (s.asksWithout t m) (s.mutex m).priority := by
  have hm : m ∈ (s.thread t).takenObjectList := (h.wired.taken t m).mpr ho
  rw [h.settled t]
  refine eq_of_forall_le_iff fun c => ?_
  rw [h.levels.le_asked_iff, le_min_iff, h.le_asksWithout_iff]
  constructor
  · rintro ⟨hc, hall⟩
    exact ⟨⟨hc, fun k hk _ => hall k hk⟩, hall m hm⟩
  · rintro ⟨⟨hc, hall⟩, hcm⟩
    refine ⟨hc, fun k hk => ?_⟩
    rcases eq_or_ne k m with rfl | hkm
    · exact hcm
    · exact hall k hk hkm

/-- Somebody asks for what the thread is asked for. -/
theorem Inherited.asksWithout_eq_or (h : s.Inherited) :
    s.asksWithout t m = (s.thread t).initPriority ∨
      ∃ k ∈ (s.thread t).takenObjectList, k ≠ m ∧ s.asksWithout t m = (s.mutex k).priority := by
  obtain ⟨hinit, hall⟩ := (h.le_asksWithout_iff (t := t) (m := m) _).mp le_rfl
  by_contra hne
  push Not at hne
  have hsucc : s.asksWithout t m + 1 ≤ s.asksWithout t m :=
    (h.le_asksWithout_iff _).mpr ⟨lt_of_le_of_ne hinit hne.1,
      fun k hk hkm => lt_of_le_of_ne (hall k hk hkm) (hne.2 k hk hkm)⟩
  omega

/-- The end of a release: the priority of the thread is what its other mutexes ask for. -/
theorem Inherited.vacated (h : s.Inherited) (ht : (s.thread t).pendingObject = none)
    (ho : (s.mutex m).owner = some t) : (s.vacated t m).Vacant m := by
  have hcur : ∀ u ≠ t, (s.vacated t m).currPrio u = s.currPrio u := fun u hu => by
    rw [currPrio, vacated_thread_of_ne _ hu, currPrio]
  have hcurt : (s.vacated t m).currPrio t = s.asksWithout t m := by
    rw [currPrio, vacated_thread_self]
  have hinit := s.vacated_initPriority t m
  have hpending := s.vacated_pendingObject t m
  have hqueue : ∀ k, ((s.vacated t m).mutex k).suspendThread = (s.mutex k).suspendThread :=
    fun k => by
      rcases eq_or_ne k m with rfl | hk
      · rw [vacated_mutex_self]
      · rw [vacated_mutex_of_ne _ _ hk]
  have hidle : ∀ k, t ∉ (s.mutex k).suspendThread := fun k hk => by
    have hpend := (h.wired.queue t k).mp hk
    rw [ht] at hpend
    cases hpend
  have haway : ∀ k, ∀ u ∈ (s.mutex k).suspendThread,
      (s.vacated t m).currPrio u = s.currPrio u := fun k u hu =>
    hcur u fun hut => hidle k (by rwa [hut] at hu)
  have hedge : ∀ x y, s.Waits x y → y ≠ t → (s.vacated t m).Waits x y := by
    rintro x y ⟨k, hx, hy⟩ hyt
    have hk : k ≠ m := by
      rintro rfl
      exact hyt (Option.some.inj (hy.symm.trans ho))
    exact ⟨k, (hpending x).trans hx, by rw [vacated_mutex_of_ne _ _ hk]; exact hy⟩
  have hnone : ∀ v, ¬s.Waits t v := by
    rintro v ⟨k, hk, -⟩
    rw [ht] at hk
    cases hk
  refine ⟨by rw [vacated_mutex_self], fun u k => ?_, fun k => ?_, fun u k => ?_, fun u => ?_,
    fun k hk => ?_, fun u k => ?_, fun u k => ?_, fun u => ?_, fun u => ?_, fun k => ?_, fun k => ?_,
    fun k hk => ?_, fun u => ?_, fun u => ?_⟩
  · rw [hqueue, hpending]
    exact h.wired.queue u k
  · rw [hqueue]
    exact h.wired.nodup k
  · rcases eq_or_ne u t with rfl | hu
    · rw [vacated_thread_self]
      rcases eq_or_ne k m with rfl | hk
      · simp [vacated_mutex_self, (h.wired.takenNodup u).mem_erase_iff]
      · rw [vacated_mutex_of_ne _ _ hk, ← h.wired.taken]
        exact List.mem_erase_of_ne hk
    · rw [vacated_thread_of_ne _ hu, h.wired.taken]
      rcases eq_or_ne k m with rfl | hk
      · rw [vacated_mutex_self, ho]
        simpa using fun htu => hu htu.symm
      · rw [vacated_mutex_of_ne _ _ hk]
  · rcases eq_or_ne u t with rfl | hu
    · rw [vacated_thread_self]
      exact (h.wired.takenNodup u).erase m
    · rw [vacated_thread_of_ne _ hu]
      exact h.wired.takenNodup u
  · rw [vacated_mutex_of_ne _ _ hk]
    exact h.wired.free k
  · rw [hpending]
    intro hk
    rcases eq_or_ne k m with rfl | hkm
    · rw [vacated_mutex_self]
      exact (Option.some_ne_none u).symm
    · rw [vacated_mutex_of_ne _ _ hkm]
      exact h.wired.self u k hk
  · rcases eq_or_ne k m with rfl | hk
    · rw [vacated_mutex_self]
      intro howner
      exact absurd howner.symm (Option.some_ne_none u)
    · rw [vacated_mutex_of_ne _ _ hk]
      exact h.wired.hold u k
  · rw [hinit]
    exact h.levels.init u
  · rcases eq_or_ne u t with rfl | hu
    · rw [hcurt]
      exact ((h.le_asksWithout_iff _).mp le_rfl).1.trans (h.levels.init u).le
    · rw [hcur u hu]
      exact h.levels.low u
  · rcases eq_or_ne k m with rfl | hk
    · rw [vacated_mutex_self]
      exact h.levels.ceiling k
    · rw [vacated_mutex_of_ne _ _ hk]
      exact h.levels.ceiling k
  · rw [hqueue]
    exact (h.levels.ordered k).congr (haway k)
  · rw [hqueue, first_congr (haway k), vacated_mutex_of_ne _ _ hk]
    exact h.levels.first k
  · unfold Settled
    rcases eq_or_ne u t with rfl | hu
    · rw [hcurt]
      refine (asked_congr ?_ ?_ fun k hk => ?_).symm
      · rw [vacated_thread_self, setThread_thread_self]
      · rw [vacated_thread_self, setThread_thread_self]
      · rw [setThread_thread_self] at hk
        rw [vacated_mutex_of_ne _ _ ((h.wired.takenNodup u).mem_erase_iff.mp hk).1]
        exact ⟨rfl, rfl⟩
    · have hasked : (s.vacated t m).threadGetMutexPriority u = s.threadGetMutexPriority u := by
        refine asked_congr (hinit u) (by rw [vacated_thread_of_ne _ hu]) fun k hk => ?_
        have hkm : k ≠ m := by
          rintro rfl
          exact hu (Option.some.inj (((h.wired.taken u k).mp hk).symm.trans ho))
        rw [vacated_mutex_of_ne _ _ hkm]
        exact ⟨rfl, rfl⟩
      rw [hcur u hu, hasked]
      exact h.settled u
  · have hother : ∀ v ≠ t, (s.vacated t m).BackedBy v (s.currPrio v) := fun v hv => by
      obtain ⟨w, hw, hwinit⟩ := h.backed v
      exact ⟨w, reaches_of_avoid hnone hedge hw hv, (hinit w).trans hwinit⟩
    rcases eq_or_ne u t with rfl | hu
    · rw [hcurt]
      rcases h.asksWithout_eq_or (t := u) (m := m) with hself | ⟨k, hk, hkm, hprio⟩
      · exact ⟨u, .refl, (hinit u).trans hself.symm⟩
      · have hlt := ((h.le_asksWithout_iff (t := u) (m := m) _).mp le_rfl).1.trans_lt
          (h.levels.init u)
        rw [hprio, h.levels.first k] at hlt
        rcases first_eq_or 0xff s.currPrio (s.mutex k).suspendThread with htop | ⟨v, hv, hfirst⟩
        · rw [htop] at hlt
          exact absurd hlt (lt_irrefl _)
        · have hvu : v ≠ u := fun hvu => hidle k (by rwa [hvu] at hv)
          obtain ⟨w, hw, hwinit⟩ := hother v hvu
          have hwait : (s.vacated u m).Waits v u := by
            refine ⟨k, (hpending v).trans ((h.wired.queue v k).mp hv), ?_⟩
            rw [vacated_mutex_of_ne _ _ hkm]
            exact (h.wired.taken u k).mp hk
          rw [hprio, h.levels.first k, hfirst]
          exact ⟨w, hw.tail hwait, hwinit⟩
    · rw [hcur u hu]
      exact hother u hu

theorem rtMutexRelease_of_ne (ho : (s.mutex m).owner ≠ some t) :
    s.rtMutexRelease t m = (s, .eError) := if_pos ho

theorem rtMutexRelease_nested (ho : (s.mutex m).owner = some t) (hhold : 1 < (s.mutex m).hold) :
    s.rtMutexRelease t m =
      (s.setMutex m { s.mutex m with hold := (s.mutex m).hold - 1 }, .eOk) := by
  unfold rtMutexRelease
  rw [if_neg (not_not.mpr ho)]
  dsimp only
  rw [setMutex_mutex_self]
  exact if_neg (show (s.mutex m).hold - 1 ≠ 0 by omega)

/-- The steps of `rt_mutex_release` that set the priority of the thread. -/
theorem Inherited.checkAndUpdatePrio_eq (h : s.Inherited) (ho : (s.mutex m).owner = some t) :
    ((s.setMutex m { s.mutex m with hold := 0 }).setThread t { s.thread t with
      takenObjectList := (s.thread t).takenObjectList.erase m }).checkAndUpdatePrio t m =
    (s.setMutex m { s.mutex m with hold := 0 }).setThread t { s.thread t with
      currentPriority := s.asksWithout t m
      takenObjectList := (s.thread t).takenObjectList.erase m } := by
  have hasks : ((s.setMutex m { s.mutex m with hold := 0 }).setThread t { s.thread t with
      takenObjectList := (s.thread t).takenObjectList.erase m }).threadGetMutexPriority t =
        s.asksWithout t m := by
    unfold asksWithout
    refine asked_congr (by simp) (by simp) fun k _ => ?_
    rcases eq_or_ne k m with rfl | hk
    · simp
    · simp [setMutex_mutex_of_ne hk]
  have hcur := h.currPrio_eq ho
  unfold checkAndUpdatePrio
  rw [hasks]
  split_ifs with hif
  · simp [changePriority, setThread]
  · push Not at hif
    have hne : s.currPrio t ≠ (s.mutex m).priority := by
      simpa [currPrio] using hif.2
    have heq : (s.thread t).currentPriority = s.asksWithout t m := by
      show s.currPrio t = _
      omega
    rw [← heq]

theorem wakeup_nil (hq : (s.mutex m).suspendThread = []) :
    s.wakeup m = s.setMutex m { s.mutex m with owner := none, priority := 0xff } := by
  unfold wakeup
  rw [hq]

/-- The first waiter gets the mutex. -/
theorem wakeup_cons {u : T} {rest : List T} (hq : (s.mutex m).suspendThread = u :: rest) :
    s.wakeup m = s.granted u m rest := by
  have hcur := s.granted_currPrio u m rest
  unfold wakeup
  rw [hq]
  refine MutexSys.ext rfl (funext fun k => ?_)
  rcases eq_or_ne k m with rfl | hk
  · rw [granted_mutex_self]
    simp only [mutexUpdatePriority, setMutex_mutex_self, setThread_mutex]
    exact congrArg (fun cur => { s.mutex k with
      owner := some u, hold := 1, priority := Inherit.first 0xff cur rest
      suspendThread := rest }) hcur
  · rw [granted_mutex_of_ne _ _ hk]
    simp only [mutexUpdatePriority, setMutex_mutex_of_ne hk, setThread_mutex]

theorem Inherited.rtMutexRelease_last (h : s.Inherited) (ho : (s.mutex m).owner = some t)
    (hhold : (s.mutex m).hold = 1) : s.rtMutexRelease t m =
      (match (s.mutex m).suspendThread with
        | [] => (s.vacated t m).setMutex m { (s.vacated t m).mutex m with priority := 0xff }
        | u :: rest => (s.vacated t m).granted u m rest, .eOk) := by
  have hcheck := h.checkAndUpdatePrio_eq ho
  unfold rtMutexRelease
  rw [if_neg (not_not.mpr ho)]
  dsimp only
  rw [setMutex_mutex_self, if_pos (by rw [hhold]), hhold]
  show (wakeup (checkAndUpdatePrio ((s.setMutex m { s.mutex m with hold := 0 }).setThread t
    { s.thread t with takenObjectList := (s.thread t).takenObjectList.erase m }) t m) m, _) = _
  rw [hcheck]
  cases hq : (s.mutex m).suspendThread with
  | nil =>
    rw [wakeup_nil (by simpa using hq)]
    simp [MutexSys.vacated, setMutex, setThread]
  | cons u rest =>
    rw [wakeup_cons (by simpa using hq)]
    -- The queue is ordered by the priorities of the same threads.
    simp only [MutexSys.vacated, granted, setMutex, setThread, Function.update_idem,
      Function.update_self]
    rfl

/-- A release keeps the invariant. -/
theorem Inherited.release (h : s.Inherited) (ht : (s.thread t).pendingObject = none) :
    (s.rtMutexRelease t m).1.Inherited := by
  by_cases ho : (s.mutex m).owner = some t
  · have hpos := h.wired.hold t m ho
    rcases eq_or_ne (s.mutex m).hold 1 with hhold | hhold
    · have hvacant := h.vacated ht ho
      rw [h.rtMutexRelease_last ho hhold]
      have hqueue : ((s.vacated t m).mutex m).suspendThread = (s.mutex m).suspendThread := by
        rw [vacated_mutex_self]
      cases hq : (s.mutex m).suspendThread with
      | nil => exact hvacant.idle (hqueue.trans hq)
      | cons u rest => exact hvacant.granted (.inl (hqueue.trans hq))
    · rw [rtMutexRelease_nested ho (by omega)]
      exact h.setHold (by omega)
  · rw [rtMutexRelease_of_ne ho]
    exact h

omit [DecidableEq T] [DecidableEq M] in
theorem Inherited.vacant (h : s.Inherited) (ho : (s.mutex m).owner = none) : s.Vacant m where
  owner := ho
  queue := h.wired.queue
  nodup := h.wired.nodup
  taken := h.wired.taken
  takenNodup := h.wired.takenNodup
  free := fun k _ => h.wired.free k
  self := h.wired.self
  hold := h.wired.hold
  init := h.levels.init
  low := h.levels.low
  ceiling := h.levels.ceiling
  ordered := h.levels.ordered
  first := fun k _ => h.levels.first k
  settled := h.settled
  backed := h.backed

section

variable [Fintype T]

/-- Nobody owns the mutex. -/
theorem Inherited.rtMutexTake_free (h : s.Inherited) (ht : (s.thread t).pendingObject = none)
    (ho : (s.mutex m).owner = none) : s.rtMutexTake t m = (s.granted t m [], some .eOk) := by
  unfold rtMutexTake
  rw [ho]
  dsimp only
  rw [setMutex_mutex_self]
  dsimp only
  rw [if_neg fun hc => hc.1 (h.levels.ceiling m)]
  have hq := h.wired.free m ho
  refine Prod.ext (MutexSys.ext (funext fun u => ?_) (funext fun k => ?_)) rfl
  · rcases eq_or_ne u t with rfl | hu
    · simp [granted_thread_self, ht]
    · rw [granted_thread_of_ne _ hu, setThread_thread_of_ne hu, setMutex_thread]
  · rcases eq_or_ne k m with rfl | hk
    · simp [granted_mutex_self, Inherit.first, hq]
    · rw [granted_mutex_of_ne _ _ hk, setThread_mutex, setMutex_mutex_of_ne hk]

/-- Another thread owns the mutex. -/
theorem Inherited.take_wait (h : s.Inherited) (ht : (s.thread t).pendingObject = none)
    (ho : (s.mutex m).owner = some o) (hot : o ≠ t) : ∃ s', s.rtMutexTake t m = (s', none) ∧
      s'.Inherited ∧ Same (s.blocked t m) s' := by
  have hraised := h.blocked ht ho hot
  have hcur := s.blocked_currPrio t m
  rw [rtMutexTake_wait ho hot]
  by_cases hif : s.currPrio t < (s.mutex m).priority ∧ s.currPrio t < s.currPrio o
  · rw [if_pos hif]
    exact ⟨_, rfl, hraised.update (by rw [hcur]; exact hif.2) (Finset.card_le_univ _)⟩
  · rw [if_neg hif]
    refine ⟨_, rfl, hraised.settle ?_, .refl _⟩
    rw [hcur]
    by_contra hlt
    have hom := h.currPrio_eq ho
    exact hif ⟨by omega, not_le.mp hlt⟩

/-- A take keeps the invariant. -/
theorem Inherited.take (h : s.Inherited) (ht : (s.thread t).pendingObject = none) :
    (s.rtMutexTake t m).1.Inherited := by
  cases ho : (s.mutex m).owner with
  | none =>
    rw [h.rtMutexTake_free ht ho]
    exact (h.vacant ho).granted (.inr ⟨h.wired.free m ho, rfl, ht⟩)
  | some o =>
    rcases eq_or_ne o t with rfl | hot
    · rw [rtMutexTake_own ho]
      split_ifs
      · exact h.setHold (Nat.succ_pos _)
      · exact h
    · obtain ⟨s', htake, hinh, -⟩ := h.take_wait ht ho hot
      rw [htake]
      exact hinh

end

end MutexSys

end H750Stepper
