import H750Stepper.Kernel.Mutex

/-!
# The mutexes exclude and inherit

The invariant of any number of threads that take and release any number of mutexes, nested or not,
in any order. `Wired`: queues, owners and the lists of the threads agree. `Levels`: the queues are
ordered, and a mutex has the priority of its first waiter. `Settled`: the current priority of a
thread is what it and its mutexes ask for. `BackedBy`: it is the initial priority of somebody who
waits for the thread.

When a thread has to wait, its priority travels from owner to owner along the chain of waits;
`Raised` is the state before each round of that loop.
-/

namespace H750Stepper

open Relation Inherit

variable {T M : Type}

namespace MutexSys

variable (s : MutexSys T M)

/-- `u` waits for a mutex of `t`. -/
def Waits (u t : T) : Prop :=
  ∃ m, (s.thread u).pendingObject = some m ∧ (s.mutex m).owner = some t

/-- Queues, owners and the lists of the threads agree. -/
structure Wired : Prop where
  queue : ∀ t m, t ∈ (s.mutex m).suspendThread ↔ (s.thread t).pendingObject = some m
  nodup : ∀ m, (s.mutex m).suspendThread.Nodup
  taken : ∀ t m, m ∈ (s.thread t).takenObjectList ↔ (s.mutex m).owner = some t
  takenNodup : ∀ t, (s.thread t).takenObjectList.Nodup
  free : ∀ m, (s.mutex m).owner = none → (s.mutex m).suspendThread = []
  self : ∀ t m, (s.thread t).pendingObject = some m → (s.mutex m).owner ≠ some t
  hold : ∀ t m, (s.mutex m).owner = some t → 0 < (s.mutex m).hold

/-- The queues are ordered by priority, and each mutex has the priority of its first waiter. -/
structure Levels : Prop where
  init : ∀ t, (s.thread t).initPriority < 0xff
  low : ∀ t, s.currPrio t ≤ 0xff
  ceiling : ∀ m, (s.mutex m).ceilingPriority = 0xff
  ordered : ∀ m, Ascending s.currPrio (s.mutex m).suspendThread
  first : ∀ m, (s.mutex m).priority = first 0xff s.currPrio (s.mutex m).suspendThread

/-- The thread has the priority that it and its mutexes ask for. -/
def Settled (t : T) : Prop := s.currPrio t = s.threadGetMutexPriority t

/-- Somebody who waits for the thread has the priority `p`. -/
def BackedBy (t : T) (p : ℕ) : Prop :=
  ∃ u, ReflTransGen s.Waits u t ∧ (s.thread u).initPriority = p

/-- What holds between two calls. -/
structure Inherited : Prop where
  wired : s.Wired
  levels : s.Levels
  settled : ∀ t, s.Settled t
  backed : ∀ t, s.BackedBy t (s.currPrio t)

/-- The thread `t` has still to be given the priority `p` of somebody who waits for it. -/
structure Raised (t : T) (p : ℕ) : Prop where
  wired : s.Wired
  levels : s.Levels
  settled : ∀ u ≠ t, s.Settled u
  asked : s.threadGetMutexPriority t = min (s.currPrio t) p
  backed : ∀ u, s.BackedBy u (s.currPrio u)
  source : s.BackedBy t p

/-! ## What a thread is asked for -/

section Asked

variable {s} {s' : MutexSys T M} {t : T}

theorem le_threadGetMutexPriority_iff (c : ℕ) : c ≤ s.threadGetMutexPriority t ↔
    c ≤ (s.thread t).initPriority ∧ ∀ m ∈ (s.thread t).takenObjectList,
      c ≤ min (s.mutex m).priority (s.mutex m).ceilingPriority := by
  unfold threadGetMutexPriority
  generalize (s.thread t).initPriority = p
  induction (s.thread t).takenObjectList generalizing p with
  | nil => simp
  | cons m ms ih =>
    have hmin : (if p > (if (s.mutex m).priority < (s.mutex m).ceilingPriority
        then (s.mutex m).priority else (s.mutex m).ceilingPriority)
        then (if (s.mutex m).priority < (s.mutex m).ceilingPriority
        then (s.mutex m).priority else (s.mutex m).ceilingPriority) else p) =
        min p (min (s.mutex m).priority (s.mutex m).ceilingPriority) := by
      split_ifs <;> omega
    rw [List.foldl_cons]
    dsimp only
    rw [hmin, ih, le_min_iff]
    simp only [List.mem_cons, forall_eq_or_imp]
    tauto

/-- Without ceilings. -/
theorem Levels.le_asked_iff (h : s.Levels) (c : ℕ) : c ≤ s.threadGetMutexPriority t ↔
    c ≤ (s.thread t).initPriority ∧ ∀ m ∈ (s.thread t).takenObjectList,
      c ≤ (s.mutex m).priority := by
  rw [le_threadGetMutexPriority_iff]
  have hinit := h.init t
  constructor
  · rintro ⟨hc, hm⟩
    exact ⟨hc, fun m hmt => (le_min_iff.mp (hm m hmt)).1⟩
  · rintro ⟨hc, hm⟩
    refine ⟨hc, fun m hmt => le_min (hm m hmt) ?_⟩
    rw [h.ceiling]
    omega

theorem asked_congr (hinit : (s'.thread t).initPriority = (s.thread t).initPriority)
    (htaken : (s'.thread t).takenObjectList = (s.thread t).takenObjectList)
    (hmutex : ∀ m ∈ (s.thread t).takenObjectList, (s'.mutex m).priority = (s.mutex m).priority ∧
      (s'.mutex m).ceilingPriority = (s.mutex m).ceilingPriority) :
    s'.threadGetMutexPriority t = s.threadGetMutexPriority t := by
  refine eq_of_forall_le_iff fun c => ?_
  rw [le_threadGetMutexPriority_iff, le_threadGetMutexPriority_iff, hinit, htaken]
  refine and_congr_right fun _ => forall₂_congr fun m hm => ?_
  rw [(hmutex m hm).1, (hmutex m hm).2]

/-- A mutex of the thread becomes more urgent. -/
theorem asked_lower {m : M} {p : ℕ} (h : s.Levels) (h' : s'.Levels)
    (hinit : (s'.thread t).initPriority = (s.thread t).initPriority)
    (htaken : (s'.thread t).takenObjectList = (s.thread t).takenObjectList)
    (hm : m ∈ (s.thread t).takenObjectList)
    (hprio : (s'.mutex m).priority = min (s.mutex m).priority p)
    (hmutex : ∀ k ≠ m, (s'.mutex k).priority = (s.mutex k).priority) :
    s'.threadGetMutexPriority t = min (s.threadGetMutexPriority t) p := by
  refine eq_of_forall_le_iff fun c => ?_
  rw [le_min_iff, h'.le_asked_iff, h.le_asked_iff, hinit, htaken, and_assoc]
  refine and_congr_right fun _ => ⟨fun hall => ?_, fun ⟨hall, hc⟩ k hk => ?_⟩
  · have hcm := hall m hm
    rw [hprio, le_min_iff] at hcm
    refine ⟨fun k hk => ?_, hcm.2⟩
    rcases eq_or_ne k m with rfl | hkm
    · exact hcm.1
    · rw [← hmutex k hkm]
      exact hall k hk
  · rcases eq_or_ne k m with rfl | hkm
    · rw [hprio]
      exact le_min (hall k hk) hc
    · rw [hmutex k hkm]
      exact hall k hk

end Asked

/-! ## States that differ in priorities only -/

/-- Current priorities, and with them the order of the queues and the priorities of the mutexes. -/
structure Same (s s' : MutexSys T M) : Prop where
  pending : ∀ t, (s'.thread t).pendingObject = (s.thread t).pendingObject
  taken : ∀ t, (s'.thread t).takenObjectList = (s.thread t).takenObjectList
  init : ∀ t, (s'.thread t).initPriority = (s.thread t).initPriority
  owner : ∀ m, (s'.mutex m).owner = (s.mutex m).owner
  hold : ∀ m, (s'.mutex m).hold = (s.mutex m).hold
  ceiling : ∀ m, (s'.mutex m).ceilingPriority = (s.mutex m).ceilingPriority
  queue : ∀ m, (s'.mutex m).suspendThread.Perm (s.mutex m).suspendThread

namespace Same

variable {s} {s' s'' : MutexSys T M}

theorem refl (s : MutexSys T M) : Same s s :=
  ⟨fun _ => rfl, fun _ => rfl, fun _ => rfl, fun _ => rfl, fun _ => rfl, fun _ => rfl,
    fun _ => .refl _⟩

theorem trans (h : Same s s') (h' : Same s' s'') : Same s s'' :=
  ⟨fun t => (h'.pending t).trans (h.pending t), fun t => (h'.taken t).trans (h.taken t),
    fun t => (h'.init t).trans (h.init t), fun m => (h'.owner m).trans (h.owner m),
    fun m => (h'.hold m).trans (h.hold m), fun m => (h'.ceiling m).trans (h.ceiling m),
    fun m => (h'.queue m).trans (h.queue m)⟩

theorem wired (h : Same s s') (hs : s.Wired) : s'.Wired where
  queue t m := by rw [(h.queue m).mem_iff, h.pending, hs.queue]
  nodup m := (h.queue m).nodup_iff.mpr (hs.nodup m)
  taken t m := by rw [h.taken, h.owner, hs.taken]
  takenNodup t := by
    rw [h.taken]
    exact hs.takenNodup t
  free m hm := by
    rw [h.owner] at hm
    exact ((h.queue m).trans (by rw [hs.free m hm])).eq_nil
  self t m := by
    rw [h.pending, h.owner]
    exact hs.self t m
  hold t m := by
    rw [h.owner, h.hold]
    exact hs.hold t m

theorem backedBy (h : Same s s') {t : T} {p : ℕ} (hp : s.BackedBy t p) : s'.BackedBy t p := by
  obtain ⟨u, hu, hinit⟩ := hp
  refine ⟨u, hu.lift id ?_, (h.init u).trans hinit⟩
  rintro v w ⟨m, hv, hw⟩
  exact ⟨m, (h.pending v).trans hv, (h.owner m).trans hw⟩

end Same

/-- The thread is as urgent already. -/
theorem Raised.settle {s : MutexSys T M} {t : T} {p : ℕ} (h : s.Raised t p)
    (hp : s.currPrio t ≤ p) : s.Inherited := by
  refine ⟨h.wired, h.levels, fun u => ?_, h.backed⟩
  rcases eq_or_ne u t with rfl | hu
  · exact ((h.asked).trans (min_eq_left hp)).symm
  · exact h.settled u hu

variable [DecidableEq T]

theorem same_changePriority (t : T) (p : ℕ) : Same s (s.changePriority t p) := by
  have hthread : ∀ u, (s.changePriority t p).thread u =
      { s.thread u with currentPriority := (s.changePriority t p).currPrio u } := fun u => by
    rcases eq_or_ne u t with rfl | hu
    · simp [changePriority, currPrio]
    · simp [changePriority, currPrio, setThread_thread_of_ne hu]
  refine ⟨fun u => ?_, fun u => ?_, fun u => ?_, fun _ => rfl, fun _ => rfl, fun _ => rfl,
    fun _ => .refl _⟩ <;> rw [hthread u]

theorem currPrio_changePriority (t : T) (p : ℕ) :
    (s.changePriority t p).currPrio = Function.update s.currPrio t p := by
  funext u
  rcases eq_or_ne u t with rfl | hu
  · simp [changePriority, currPrio]
  · simp [changePriority, currPrio, setThread_thread_of_ne hu, hu]

/-- A thread that waits for no mutex becomes more urgent. -/
theorem Levels.changePriority {s : MutexSys T M} {t : T} {p : ℕ} (h : s.Levels)
    (hw : s.Wired) (ht : (s.thread t).pendingObject = none) (hp : p ≤ s.currPrio t) :
    (s.changePriority t p).Levels := by
  have hsame := s.same_changePriority t p
  have hcur := s.currPrio_changePriority t p
  have haway : ∀ k, ∀ u ∈ (s.mutex k).suspendThread,
      Function.update s.currPrio t p u = s.currPrio u := fun k u hu => by
    refine Function.update_of_ne ?_ ..
    rintro rfl
    have hk := (hw.queue u k).mp hu
    rw [ht] at hk
    cases hk
  refine ⟨fun u => ?_, fun u => ?_, h.ceiling, fun k => ?_, fun k => ?_⟩
  · rw [hsame.init]
    exact h.init u
  · rw [hcur]
    rcases eq_or_ne u t with rfl | hu
    · simpa using hp.trans (h.low u)
    · rw [Function.update_of_ne hu]
      exact h.low u
  · rw [hcur]
    exact (h.ordered k).congr (haway k)
  · rw [hcur]
    exact (h.first k).trans (first_congr (haway k)).symm

/-- Who backs the threads after the change. -/
theorem Raised.backed_change {s s' : MutexSys T M} {t : T} {p : ℕ} (h : s.Raised t p)
    (hsame : Same s s') (hcur : s'.currPrio = Function.update s.currPrio t p) (u : T) :
    s'.BackedBy u (s'.currPrio u) := by
  rw [hcur]
  rcases eq_or_ne u t with rfl | hu
  · simpa using hsame.backedBy h.source
  · rw [Function.update_of_ne hu]
    exact hsame.backedBy (h.backed u)

/-- The end of the chain. -/
theorem Raised.change {s : MutexSys T M} {t : T} {p : ℕ} (h : s.Raised t p)
    (ht : (s.thread t).pendingObject = none) (hp : p < s.currPrio t) :
    (s.changePriority t p).Inherited := by
  have hsame := s.same_changePriority t p
  have hcur := s.currPrio_changePriority t p
  have hasked : ∀ u, (s.changePriority t p).threadGetMutexPriority u =
      s.threadGetMutexPriority u := fun u =>
    asked_congr (hsame.init u) (hsame.taken u) fun _ _ => ⟨rfl, rfl⟩
  refine ⟨hsame.wired h.wired, h.levels.changePriority h.wired ht hp.le, fun u => ?_,
    h.backed_change hsame hcur⟩
  unfold Settled
  rw [hasked, hcur]
  rcases eq_or_ne u t with rfl | hu
  · rw [h.asked, Function.update_self, min_eq_right hp.le]
  · rw [Function.update_of_ne hu]
    exact h.settled u hu

variable [DecidableEq M]

theorem requeue_mutex_self (t : T) (m : M) : (s.requeue t m).mutex m = { s.mutex m with
    priority := first 0xff s.currPrio (s.suspListEnqueue t ((s.mutex m).suspendThread.erase t))
    suspendThread := s.suspListEnqueue t ((s.mutex m).suspendThread.erase t) } := by
  rw [requeue, mutexUpdatePriority, setMutex_mutex_self, setMutex_mutex_self]
  rfl

theorem requeue_mutex_of_ne (t : T) {m k : M} (hk : k ≠ m) :
    (s.requeue t m).mutex k = s.mutex k := by
  rw [requeue, mutexUpdatePriority, setMutex_mutex_of_ne hk, setMutex_mutex_of_ne hk]

theorem same_requeue {t : T} {m : M} (ht : t ∈ (s.mutex m).suspendThread) :
    Same s (s.requeue t m) := by
  have hqueue : (s.suspListEnqueue t ((s.mutex m).suspendThread.erase t)).Perm
      (s.mutex m).suspendThread :=
    (List.perm_orderedInsert _ _ _).trans (List.perm_cons_erase ht).symm
  have hmutex : ∀ k, ∃ p q, (s.requeue t m).mutex k =
      { s.mutex k with priority := p, suspendThread := q } ∧ q.Perm (s.mutex k).suspendThread :=
    fun k => by
      rcases eq_or_ne k m with rfl | hk
      · exact ⟨_, _, s.requeue_mutex_self t k, hqueue⟩
      · exact ⟨_, _, s.requeue_mutex_of_ne t hk, .refl _⟩
  refine ⟨fun _ => rfl, fun _ => rfl, fun _ => rfl, fun k => ?_, fun k => ?_, fun k => ?_,
    fun k => ?_⟩ <;> obtain ⟨p, q, hk, hq⟩ := hmutex k <;> rw [hk]
  exact hq

/-! ## One round of the chain -/

variable {s} {t : T} {p : ℕ}

/-- A suspended thread that becomes more urgent goes forward in its queue. -/
theorem Levels.requeue (h : s.Levels) (hw : s.Wired) {m : M}
    (ht : (s.thread t).pendingObject = some m) (hp : p ≤ s.currPrio t) :
    ((s.changePriority t p).requeue t m).Levels ∧
      (((s.changePriority t p).requeue t m).mutex m).priority = min (s.mutex m).priority p ∧
      ∀ k ≠ m, (((s.changePriority t p).requeue t m).mutex k) = s.mutex k := by
  have hmem : t ∈ (s.mutex m).suspendThread := (hw.queue t m).mpr ht
  have hsame := (s.same_changePriority t p).trans (same_requeue _ (m := m) hmem)
  have hcur : ((s.changePriority t p).requeue t m).currPrio = Function.update s.currPrio t p :=
    s.currPrio_changePriority t p
  have hself := (s.changePriority t p).requeue_mutex_self t m
  have hother : ∀ k ≠ m, ((s.changePriority t p).requeue t m).mutex k = s.mutex k := fun k hk =>
    (s.changePriority t p).requeue_mutex_of_ne t hk
  have hne : ∀ u ≠ t, Function.update s.currPrio t p u = s.currPrio u := fun u hu =>
    Function.update_of_ne hu ..
  obtain ⟨hord, hfirst⟩ := (h.ordered m).first_requeue (hw.nodup m) h.low hne (by simpa using hp)
  -- The other queues do not contain the thread.
  have haway : ∀ k ≠ m, ∀ u ∈ (s.mutex k).suspendThread,
      Function.update s.currPrio t p u = s.currPrio u := fun k hk u hu => hne u <| by
    rintro rfl
    have hk' := ht.symm.trans ((hw.queue u k).mp hu)
    exact hk (Option.some.inj hk').symm
  have hqueue : (s.changePriority t p).suspListEnqueue t ((s.mutex m).suspendThread.erase t) =
      ((s.mutex m).suspendThread.erase t).orderedInsert
        (fun t' u => Function.update s.currPrio t p t' < Function.update s.currPrio t p u) t := by
    simp only [suspListEnqueue, currPrio_changePriority]
  refine ⟨⟨fun u => ?_, fun u => ?_, fun k => ?_, fun k => ?_, fun k => ?_⟩, ?_, hother⟩
  · rw [hsame.init]
    exact h.init u
  · rw [hcur]
    rcases eq_or_ne u t with rfl | hu
    · simpa using hp.trans (h.low u)
    · rw [hne u hu]
      exact h.low u
  · rw [hsame.ceiling]
    exact h.ceiling k
  · rw [hcur]
    rcases eq_or_ne k m with rfl | hk
    · rw [hself]
      show Ascending _ ((s.changePriority t p).suspListEnqueue t _)
      rw [show (s.changePriority t p).mutex = s.mutex from rfl, hqueue]
      exact hord
    · rw [hother k hk]
      exact (h.ordered k).congr (haway k hk)
  · rw [hcur]
    rcases eq_or_ne k m with rfl | hk
    · rw [hself, currPrio_changePriority]
    · rw [hother k hk, first_congr (haway k hk)]
      exact h.first k
  · rw [hself]
    show Inherit.first 0xff (s.changePriority t p).currPrio
      ((s.changePriority t p).suspListEnqueue t ((s.mutex m).suspendThread.erase t)) = _
    rw [hqueue, currPrio_changePriority, hfirst, h.first, Function.update_self]

namespace Raised

/-- The priority goes on to the owner of the mutex that the thread waits for. -/
theorem pass (h : s.Raised t p) {m : M} {o : T} (ht : (s.thread t).pendingObject = some m)
    (ho : (s.mutex m).owner = some o) (hp : p < s.currPrio t) :
    ((s.changePriority t p).requeue t m).Raised o p ∧
      Same s ((s.changePriority t p).requeue t m) := by
  have hmem : t ∈ (s.mutex m).suspendThread := (h.wired.queue t m).mpr ht
  have hsame := (s.same_changePriority t p).trans (same_requeue _ (m := m) hmem)
  have hcur : ((s.changePriority t p).requeue t m).currPrio = Function.update s.currPrio t p :=
    s.currPrio_changePriority t p
  obtain ⟨hlevels, hprio, hother⟩ := h.levels.requeue h.wired ht hp.le
  have hot : o ≠ t := by
    rintro rfl
    exact h.wired.self o m ht ho
  have hmo : m ∈ (s.thread o).takenObjectList := (h.wired.taken o m).mpr ho
  have hasked : ∀ u ≠ o, ((s.changePriority t p).requeue t m).threadGetMutexPriority u =
      s.threadGetMutexPriority u := fun u hu => by
    refine asked_congr (hsame.init u) (hsame.taken u) fun k hk => ?_
    rw [hother k fun hkm => ?_]
    · exact ⟨rfl, rfl⟩
    · rw [hkm] at hk
      exact hu (Option.some.inj (((h.wired.taken u m).mp hk).symm.trans ho))
  refine ⟨⟨hsame.wired h.wired, hlevels, fun u hu => ?_, ?_, h.backed_change hsame hcur, ?_⟩, hsame⟩
  · unfold Settled
    rw [hasked u hu, hcur]
    rcases eq_or_ne u t with rfl | hut
    · rw [h.asked, Function.update_self, min_eq_right hp.le]
    · rw [Function.update_of_ne hut]
      exact h.settled u hut
  · rw [asked_lower h.levels hlevels (hsame.init o) (hsame.taken o) hmo hprio
      fun k hk => by rw [hother k hk], hcur, Function.update_of_ne hot]
    exact congrArg (min · p) (h.settled o hot).symm
  · obtain ⟨u, hu, hinit⟩ := h.source
    exact hsame.backedBy ⟨u, hu.tail ⟨m, ht, ho⟩, hinit⟩

/-- The loop raises every owner on the chain, and nobody twice. -/
theorem update [Fintype T] {n : ℕ} (h : s.Raised t p) (hp : p < s.currPrio t)
    (hn : (Finset.univ.filter fun u => p < s.currPrio u).card ≤ n) :
    (s.threadUpdatePriority n t p).Inherited ∧ Same s (s.threadUpdatePriority n t p) := by
  induction n generalizing s t with
  | zero =>
    have hempty := Finset.card_eq_zero.mp (Nat.le_zero.mp hn)
    have ht : t ∈ Finset.univ.filter fun u => p < s.currPrio u :=
      Finset.mem_filter.mpr ⟨Finset.mem_univ t, hp⟩
    rw [hempty] at ht
    cases ht
  | succ n ih =>
    have hpending : ((s.changePriority t p).thread t).pendingObject = (s.thread t).pendingObject :=
      (s.same_changePriority t p).pending t
    unfold threadUpdatePriority
    dsimp only
    rw [hpending]
    cases ht : (s.thread t).pendingObject with
    | none => exact ⟨h.change ht hp, s.same_changePriority t p⟩
    | some m =>
      cases ho : (s.mutex m).owner with
      | none =>
        have hmem := (h.wired.queue t m).mpr ht
        rw [h.wired.free m ho] at hmem
        cases hmem
      | some o =>
        obtain ⟨hraised, hsame⟩ := h.pass ht ho hp
        have howner : (((s.changePriority t p).requeue t m).mutex m).owner = some o :=
          (hsame.owner m).trans ho
        dsimp only
        rw [howner]
        dsimp only
        rw [hraised.asked]
        split_ifs with hne
        · have hlt : p < ((s.changePriority t p).requeue t m).currPrio o :=
            not_le.mp fun hle => hne (min_eq_left hle)
          rw [min_eq_right hlt.le]
          have hcard : (Finset.univ.filter fun u =>
              p < ((s.changePriority t p).requeue t m).currPrio u).card ≤ n := by
            have hdrop := card_above_update hp
            rw [← s.currPrio_changePriority t p] at hdrop
            exact Nat.lt_succ_iff.mp (hdrop.trans_le hn)
          obtain ⟨hinh, hsame'⟩ := ih hraised hlt hcard
          exact ⟨hinh, hsame.trans hsame'⟩
        · exact ⟨hraised.settle (min_eq_left_iff.mp (not_not.mp hne)), hsame⟩

end Raised

end MutexSys

end H750Stepper
