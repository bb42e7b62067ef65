import H750Stepper.Kernel.RtTimer

/-!
# When a timer is called

The word in which a timeout is kept says how many ticks are left (`remaining`), as long as they are
fewer than half a cycle of the counter: that is what `Inv` keeps, with the list in their order. So a
tick calls the timers that have none left, and a timer that nobody else changes is called at the end
of its time, once or in each period.
-/

namespace H750Stepper

open CInt Inherit

namespace TimerSys

variable {ι : Type}

/-! ## The ticks that are left -/

/-- The ticks left until the timer `t` is due. -/
def remaining (s : TimerSys ι) (t : ι) : ℕ := uwrap 32 ((s.timer t).timeoutTick - (s.tick : ℤ))

/-- What holds between two calls of a timeout function and, with `lo` 1, between two ticks. -/
structure Inv (lo : ℕ) (s : TimerSys ι) : Prop where
  nodup : s.timerList.Nodup
  ordered : Ascending s.remaining s.timerList
  le_remaining : ∀ t ∈ s.timerList, lo ≤ s.remaining t
  remaining_lt : ∀ t ∈ s.timerList, s.remaining t < rtTickHalf
  activated : ∀ t ∈ s.timerList, (s.timer t).activated = true
  time : ∀ t, 0 < (s.timer t).initTick ∧ (s.timer t).initTick < rtTickHalf
  called : ∀ t ∈ s.called, t ∉ s.timerList

variable {lo : ℕ} {s : TimerSys ι} {t u : ι}

theorem remaining_congr {s' : TimerSys ι} (htick : s'.tick = s.tick)
    (htimer : (s'.timer t).timeoutTick = (s.timer t).timeoutTick) :
    s'.remaining t = s.remaining t := by
  unfold remaining
  rw [htick, htimer]

/-- Two words that are less than half a cycle ahead of the tick. -/
theorem uwrap_sub_timeout (ht : s.remaining t < rtTickHalf) (hu : s.remaining u < rtTickHalf) :
    let diff := uwrap 32 ((s.timer u).timeoutTick - (s.timer t).timeoutTick)
    (diff = 0 ↔ s.remaining u = s.remaining t) ∧
      (diff < rtTickHalf ↔ s.remaining t ≤ s.remaining u) := by
  have hcast := uwrap_cast 32 ((s.timer u).timeoutTick - (s.timer t).timeoutTick)
  have hcast_t := uwrap_cast 32 ((s.timer t).timeoutTick - (s.tick : ℤ))
  have hcast_u := uwrap_cast 32 ((s.timer u).timeoutTick - (s.tick : ℤ))
  unfold remaining rtTickHalf at *
  dsimp only
  constructor <;> omega

/-- The test of `_timer_check`. -/
theorem late_iff (ht : s.remaining t < rtTickHalf) :
    uwrap 32 ((s.rtTickGet : ℤ) - (s.timer t).timeoutTick) < rtTickHalf ↔ s.remaining t = 0 := by
  have hcast := uwrap_cast 32 ((s.rtTickGet : ℤ) - (s.timer t).timeoutTick)
  have hcast_t := uwrap_cast 32 ((s.timer t).timeoutTick - (s.tick : ℤ))
  unfold remaining rtTickHalf rtTickGet at *
  omega

/-- The insertion puts a timer behind those that have at most as many ticks left. -/
theorem insertTimer_eq {l : List ι} (ht : s.remaining t < rtTickHalf)
    (hl : ∀ u ∈ l, s.remaining u < rtTickHalf) :
    s.insertTimer t l = l.orderedInsert (fun t u => s.remaining t < s.remaining u) t := by
  induction l with
  | nil => rfl
  | cons p ps ih =>
    obtain ⟨hzero, hhalf⟩ := uwrap_sub_timeout ht (hl p (.head _))
    have hps := ih fun u hu => hl u (.tail _ hu)
    rw [insertTimer, List.orderedInsert, hps]
    by_cases hlt : s.remaining t < s.remaining p
    · rw [if_pos hlt, if_neg fun h => hlt.ne' (hzero.mp h), if_pos (hhalf.mpr hlt.le)]
    · rw [if_neg hlt]
      by_cases heq : s.remaining p = s.remaining t
      · rw [if_pos (hzero.mpr heq)]
      · have hgt : ¬s.remaining t ≤ s.remaining p := fun h => hlt (lt_of_le_of_ne h (Ne.symm heq))
        rw [if_neg fun h => heq (hzero.mp h), if_neg fun h => hgt (hhalf.mp h)]

/-- The timers that are due. -/
def Due (s : TimerSys ι) (u : ι) : Prop := u ∈ s.timerList ∧ s.remaining u = 0

theorem due_eq_some (hs : s.Inv lo) (h : s.due = some t) : s.Due t := by
  unfold due at h
  split at h
  · cases h
  · rename_i p ps hlist
    split_ifs at h with hlate
    obtain rfl := Option.some.inj h
    have hmem : p ∈ s.timerList := hlist ▸ .head _
    exact ⟨hmem, (late_iff (hs.remaining_lt p hmem)).mp hlate⟩

theorem due_eq_none (hs : s.Inv lo) (h : s.due = none) (u : ι) : ¬s.Due u := by
  rintro ⟨hmem, hzero⟩
  unfold due at h
  split at h
  · rename_i hlist
    rw [hlist] at hmem
    cases hmem
  · rename_i p ps hlist
    split_ifs at h with hlate
    have hp := mt (late_iff (hs.remaining_lt p (hlist ▸ .head _))).mpr hlate
    rw [hlist] at hmem
    rcases List.mem_cons.mp hmem with rfl | hu
    · exact hp hzero
    · have hle := (List.pairwise_cons.mp (hlist ▸ hs.ordered)).1 u hu
      omega

/-- What stays of the timer `u`. -/
structure Same (u : ι) (s s' : TimerSys ι) : Prop where
  mem : u ∈ s'.timerList ↔ u ∈ s.timerList
  called : u ∈ s'.called ↔ u ∈ s.called
  timer : s'.timer u = s.timer u
  tick : s'.tick = s.tick

theorem Same.refl (u : ι) (s : TimerSys ι) : Same u s s := ⟨.rfl, .rfl, rfl, rfl⟩

theorem Same.trans {s' s'' : TimerSys ι} (h : Same u s s') (h' : Same u s' s'') : Same u s s'' :=
  ⟨h'.mem.trans h.mem, h'.called.trans h.called, h'.timer.trans h.timer, h'.tick.trans h.tick⟩

theorem Same.remaining {s' : TimerSys ι} (h : Same u s s') : s'.remaining u = s.remaining u :=
  remaining_congr h.tick (by rw [h.timer])

theorem Inv.emptied {r : TimerSys ι} (h : r.Inv lo) : ({ r with called := [] } : TimerSys ι).Inv lo :=
  { h with called := fun _ hu => absurd hu List.not_mem_nil }

/-- The ticks left in a tick: one less. -/
theorem Inv.tick (hs : s.Inv 1) :
    ({ s with tick := s.tick + 1 } : TimerSys ι).Inv 0 ∧
      ∀ u ∈ s.timerList, ({ s with tick := s.tick + 1 } : TimerSys ι).remaining u + 1 =
        s.remaining u := by
  have hrem : ∀ u ∈ s.timerList, ({ s with tick := s.tick + 1 } : TimerSys ι).remaining u + 1 =
      s.remaining u := fun u hu => by
    have hcast := uwrap_cast 32 ((s.timer u).timeoutTick - (s.tick : ℤ))
    have hcast' := uwrap_cast 32 ((s.timer u).timeoutTick - ((s.tick + 1 : ℕ) : ℤ))
    have hle := hs.le_remaining u hu
    have hlt := hs.remaining_lt u hu
    unfold remaining rtTickHalf at *
    dsimp only
    omega
  refine ⟨{ hs with
    ordered := hs.ordered.imp_of_mem fun hu hv h => ?_
    le_remaining := fun u _ => Nat.zero_le _
    remaining_lt := fun u hu => ?_ }, hrem⟩
  · have hu := hrem _ hu
    have hv := hrem _ hv
    omega
  · have hu' := hrem u hu
    have hlt := hs.remaining_lt u hu
    omega

/-- A timer after its call: it starts again, or is over. -/
structure Elapsed (t : ι) (s s' : TimerSys ι) : Prop where
  mem : t ∈ s'.timerList ↔ (s.timer t).periodic = true
  initTick : (s'.timer t).initTick = (s.timer t).initTick
  periodic : (s'.timer t).periodic = (s.timer t).periodic
  activated : (s'.timer t).activated = (s.timer t).periodic
  remaining : (s.timer t).periodic = true → s'.remaining t = (s.timer t).initTick

theorem Same.elapsed {s' s'' : TimerSys ι} (h : Same t s' s'') (h' : Elapsed t s s') :
    Elapsed t s s'' where
  mem := h.mem.trans h'.mem
  initTick := by rw [h.timer, h'.initTick]
  periodic := by rw [h.timer, h'.periodic]
  activated := by rw [h.timer, h'.activated]
  remaining hper := h.remaining.trans (h'.remaining hper)

theorem Elapsed.of_same {s' s'' : TimerSys ι} (h : Same t s s') (h' : Elapsed t s' s'') :
    Elapsed t s s'' where
  mem := by rw [h'.mem, h.timer]
  initTick := by rw [h'.initTick, h.timer]
  periodic := by rw [h'.periodic, h.timer]
  activated := by rw [h'.activated, h.timer]
  remaining hper := by rw [h'.remaining (h.timer ▸ hper), h.timer]

/-! ## Calls -/

variable [DecidableEq ι]

theorem timer_timerStart_self (t : ι) (s : TimerSys ι) :
    (s.timerStart t).timer t = { s.timer t with
      activated := true, timeoutTick := (s.rtTickGet + (s.timer t).initTick) % 2 ^ 32 } := by
  simp [timerStart, modify, timerRemove, rtTickGet]

theorem timer_timerStart_of_ne (h : u ≠ t) (s : TimerSys ι) :
    (s.timerStart t).timer u = s.timer u := by
  simp [timerStart, modify, timerRemove, Function.update_of_ne h]

theorem remaining_timerStart_self (hs : (s.timer t).initTick < rtTickHalf) :
    (s.timerStart t).remaining t = (s.timer t).initTick := by
  have hcast := uwrap_cast 32 (((s.timerStart t).timer t).timeoutTick - (s.tick : ℤ))
  rw [timer_timerStart_self] at hcast
  unfold remaining
  rw [timer_timerStart_self]
  show uwrap 32 (_ - (s.tick : ℤ)) = _
  unfold rtTickHalf rtTickGet at *
  dsimp only at *
  omega

theorem remaining_timerStart_of_ne (h : u ≠ t) : (s.timerStart t).remaining u = s.remaining u :=
  remaining_congr rfl (by rw [timer_timerStart_of_ne h])

theorem timerList_timerStart (hs : s.Inv lo) (t : ι) :
    (s.timerStart t).timerList = (s.timerList.erase t).orderedInsert
      (fun a b => (s.timerStart t).remaining a < (s.timerStart t).remaining b) t := by
  set s₂ : TimerSys ι := (s.timerRemove t).modify t fun x => { x with
    activated := false, timeoutTick := (s.rtTickGet + (s.timer t).initTick) % 2 ^ 32 } with hs₂
  have hrem : (s.timerStart t).remaining = s₂.remaining := by
    funext u
    refine remaining_congr rfl ?_
    rcases eq_or_ne u t with rfl | hu
    · rw [timer_timerStart_self]
      simp [hs₂, modify, timerRemove]
    · rw [timer_timerStart_of_ne hu]
      simp [hs₂, modify, timerRemove, Function.update_of_ne hu]
  rw [hrem]
  refine insertTimer_eq ?_ fun u hu => ?_
  · show s₂.remaining t < _
    rw [← hrem, remaining_timerStart_self (hs.time t).2]
    exact (hs.time t).2
  · have hne : u ≠ t := (hs.nodup.mem_erase_iff.mp hu).1
    show s₂.remaining u < _
    rw [← hrem, remaining_timerStart_of_ne hne]
    exact hs.remaining_lt u (List.mem_of_mem_erase hu)

theorem mem_timerStart (hs : s.Inv lo) {t u : ι} :
    u ∈ (s.timerStart t).timerList ↔ u = t ∨ u ∈ s.timerList := by
  rw [timerList_timerStart hs, List.mem_orderedInsert, hs.nodup.mem_erase_iff]
  tauto

/-- A timer that is changed outside the list. -/
theorem Inv.modify (hs : s.Inv lo) (ht : t ∉ s.timerList) {f : RtTimer → RtTimer}
    (hf : 0 < (f (s.timer t)).initTick ∧ (f (s.timer t)).initTick < rtTickHalf) :
    (s.modify t f).Inv lo := by
  have htimer : ∀ u ∈ s.timerList, (s.modify t f).timer u = s.timer u := fun u hu =>
    Function.update_of_ne (fun h : u = t => ht (h ▸ hu)) _ _
  have hrem : ∀ u ∈ s.timerList, (s.modify t f).remaining u = s.remaining u := fun u hu =>
    remaining_congr rfl (by rw [htimer u hu])
  exact {
    nodup := hs.nodup
    ordered := hs.ordered.congr hrem
    le_remaining := fun u hu => (hrem u hu).symm ▸ hs.le_remaining u hu
    remaining_lt := fun u hu => (hrem u hu).symm ▸ hs.remaining_lt u hu
    activated := fun u hu => (htimer u hu).symm ▸ hs.activated u hu
    time := fun u => by
      rcases eq_or_ne u t with rfl | hu
      · simpa [TimerSys.modify] using hf
      · simpa [TimerSys.modify, hu] using hs.time u
    called := hs.called }

/-- A timer is taken out of the list. -/
theorem Inv.timerRemove (hs : s.Inv lo) (t : ι) : (s.timerRemove t).Inv lo where
  nodup := hs.nodup.erase t
  ordered := List.Pairwise.sublist List.erase_sublist hs.ordered
  le_remaining u hu := hs.le_remaining u (List.mem_of_mem_erase hu)
  remaining_lt u hu := hs.remaining_lt u (List.mem_of_mem_erase hu)
  activated u hu := hs.activated u (List.mem_of_mem_erase hu)
  time := hs.time
  called u hu h := hs.called u (List.mem_of_mem_erase hu) (List.mem_of_mem_erase h)

theorem Inv.not_mem_timerRemove (hs : s.Inv lo) : t ∉ (s.timerRemove t).timerList :=
  hs.nodup.not_mem_erase

theorem Inv.timerStart (hs : s.Inv lo) (hlo : lo ≤ 1) (hcalled : s.called.Nodup) (t : ι) :
    (s.timerStart t).Inv lo := by
  have hself := remaining_timerStart_self (hs.time t).2
  have hold : ∀ u ∈ s.timerList, u ≠ t → (s.timerStart t).remaining u = s.remaining u :=
    fun u _ hne => remaining_timerStart_of_ne hne
  have herase : Ascending (s.timerStart t).remaining (s.timerList.erase t) :=
    Ascending.congr (List.Pairwise.sublist List.erase_sublist hs.ordered) fun u hu =>
      remaining_timerStart_of_ne (hs.nodup.mem_erase_iff.mp hu).1
  have hmem : ∀ u ∈ (s.timerStart t).timerList, u = t ∨ u ≠ t ∧ u ∈ s.timerList := fun u hu => by
    have := (mem_timerStart hs).mp hu
    tauto
  exact {
    nodup := by
      rw [timerList_timerStart hs]
      exact (List.perm_orderedInsert ..).nodup_iff.mpr
        (List.nodup_cons.mpr ⟨hs.nodup.not_mem_erase, hs.nodup.erase t⟩)
    ordered := by
      rw [timerList_timerStart hs]
      exact herase.insert t
    le_remaining := fun u hu => by
      rcases hmem u hu with rfl | ⟨hne, hu⟩
      · rw [hself]
        exact hlo.trans (hs.time u).1
      · rw [remaining_timerStart_of_ne hne]
        exact hs.le_remaining u hu
    remaining_lt := fun u hu => by
      rcases hmem u hu with rfl | ⟨hne, hu⟩
      · rw [hself]
        exact (hs.time u).2
      · rw [remaining_timerStart_of_ne hne]
        exact hs.remaining_lt u hu
    activated := fun u hu => by
      rcases hmem u hu with rfl | ⟨hne, hu⟩
      · rw [timer_timerStart_self]
      · rw [timer_timerStart_of_ne hne]
        exact hs.activated u hu
    time := fun u => by
      rcases eq_or_ne u t with rfl | hne
      · rw [timer_timerStart_self]
        exact hs.time u
      · rw [timer_timerStart_of_ne hne]
        exact hs.time u
    called := fun u hu h => by
      obtain ⟨hne, hu⟩ := hcalled.mem_erase_iff.mp hu
      rcases hmem u h with rfl | ⟨-, h⟩
      · exact hne rfl
      · exact hs.called u hu h }

end TimerSys

/-- The call sets no time that the kernel refuses, and none that is 0. -/
def TimerOp.Proper {ι : Type} : TimerOp ι → Prop
  | .setTime _ time => 0 < time ∧ time < rtTickHalf
  | _ => True

namespace TimerSys

variable {ι : Type} [DecidableEq ι] {lo : ℕ} {s : TimerSys ι} {t u : ι}

theorem called_eff (op : TimerOp ι) (s : TimerSys ι) : (op.eff s).called.Sublist s.called := by
  cases op with
  | start u => exact List.erase_sublist
  | detach u => exact List.erase_sublist
  | setPeriodic u on => exact List.Sublist.refl _
  | stop u =>
    show (s.rtTimerStop u).2.called.Sublist _
    unfold rtTimerStop
    split_ifs
    · exact List.erase_sublist
    · exact List.Sublist.refl _
  | setTime u time =>
    show (s.setTime u time).called.Sublist _
    unfold setTime
    dsimp only
    split_ifs
    · exact List.erase_sublist
    · exact List.Sublist.refl _

/-- A call keeps the invariant. -/
theorem Inv.eff (hs : s.Inv lo) (hlo : lo ≤ 1) (hcalled : s.called.Nodup) {op : TimerOp ι}
    (hop : op.Proper) : (op.eff s).Inv lo := by
  have hremoved : ∀ u, ((s.timerRemove u).modify u fun x => { x with activated := false }).Inv lo :=
    fun u => (hs.timerRemove u).modify hs.not_mem_timerRemove (hs.time u)
  cases op with
  | start u => exact hs.timerStart hlo hcalled u
  | detach u => exact hremoved u
  | stop u =>
    show (s.rtTimerStop u).2.Inv lo
    unfold rtTimerStop
    split_ifs
    · exact hremoved u
    · exact hs
  | setTime u time =>
    show (s.setTime u time).Inv lo
    unfold setTime
    dsimp only
    split_ifs with hact
    · refine (hremoved u).modify hs.not_mem_timerRemove ?_
      exact hop
    · exact hs.modify (fun h => hact (hs.activated u h)) hop
  | setPeriodic u on =>
    have htimer : ∀ v, ((TimerOp.setPeriodic u on).eff s).timer v =
        { s.timer v with periodic := if v = u then on else (s.timer v).periodic } := fun v => by
      rcases eq_or_ne v u with rfl | hv
      · simp [TimerOp.eff, TimerSys.modify]
      · simp [TimerOp.eff, TimerSys.modify, hv]
    have hrem : ∀ v, ((TimerOp.setPeriodic u on).eff s).remaining v = s.remaining v :=
      fun v => remaining_congr rfl (by rw [htimer])
    exact {
      nodup := hs.nodup
      ordered := hs.ordered.congr fun v _ => hrem v
      le_remaining := fun v hv => (hrem v).symm ▸ hs.le_remaining v hv
      remaining_lt := fun v hv => (hrem v).symm ▸ hs.remaining_lt v hv
      activated := fun v hv => by
        rw [htimer]
        exact hs.activated v hv
      time := fun v => by
        rw [htimer]
        exact hs.time v
      called := hs.called }

/-! ## Other timers -/

theorem same_removed (h : t ≠ u) (s : TimerSys ι) : Same u s (s.timerRemove t) :=
  ⟨List.mem_erase_of_ne h.symm, List.mem_erase_of_ne h.symm, rfl, rfl⟩

theorem same_modify (h : t ≠ u) (f : RtTimer → RtTimer) (s : TimerSys ι) :
    Same u s (s.modify t f) :=
  ⟨.rfl, .rfl, Function.update_of_ne h.symm _ _, rfl⟩

theorem Inv.same_timerStart (hs : s.Inv lo) (h : t ≠ u) : Same u s (s.timerStart t) where
  mem := by
    rw [mem_timerStart hs]
    exact or_iff_right h.symm
  called := List.mem_erase_of_ne h.symm
  timer := timer_timerStart_of_ne h.symm s
  tick := rfl

/-- A call changes no timer but its own. -/
theorem Inv.same_eff (hs : s.Inv lo) {op : TimerOp ι} (h : op.timer ≠ u) :
    Same u s (op.eff s) := by
  have hmodify : ∀ f s, Same u s (s.modify op.timer f) := same_modify h
  have hremoved : ∀ f, Same u s ((s.timerRemove op.timer).modify op.timer f) := fun f =>
    (same_removed h s).trans (hmodify f _)
  cases op with
  | start t => exact hs.same_timerStart h
  | detach t => exact hremoved fun x => { x with activated := false }
  | setPeriodic t on => exact hmodify (fun x => { x with periodic := on }) s
  | stop t =>
    show Same u s (s.rtTimerStop t).2
    unfold rtTimerStop
    split_ifs
    · exact hremoved fun x => { x with activated := false }
    · exact .refl u s
  | setTime t time =>
    show Same u s (s.setTime t time)
    unfold setTime
    dsimp only
    split_ifs
    · exact (hremoved fun x => { x with activated := false }).trans (hmodify _ _)
    · exact hmodify _ _

theorem Inv.not_due_timerStart (hs : s.Inv lo) (t : ι) : ¬(s.timerStart t).Due t := fun h => by
  have hself := remaining_timerStart_self (hs.time t).2
  have hpos := (hs.time t).1
  have hzero := h.2
  omega

/-- No call makes a timer due. -/
theorem Inv.due_of_eff (hs : s.Inv lo) {op : TimerOp ι} (h : (op.eff s).Due u) : s.Due u := by
  by_cases hu : op.timer = u
  · subst hu
    have hgone : op.timer ∉ (s.timerRemove op.timer).timerList := hs.not_mem_timerRemove
    cases op with
    | start t => exact absurd h (hs.not_due_timerStart t)
    | detach t => exact absurd h.1 hgone
    | setPeriodic t on =>
      have hrem : ((TimerOp.setPeriodic t on).eff s).remaining t = s.remaining t :=
        remaining_congr rfl (by simp [TimerOp.eff, TimerSys.modify])
      exact ⟨h.1, hrem.symm.trans h.2⟩
    | stop t =>
      change (s.rtTimerStop t).2.Due t at h
      unfold rtTimerStop at h
      split_ifs at h
      · exact absurd h.1 hgone
      · exact h
    | setTime t time =>
      change (s.setTime t time).Due t at h
      unfold setTime at h
      dsimp only at h
      split_ifs at h with hact
      · exact absurd h.1 hgone
      · exact absurd (hs.activated t h.1) hact
  · have hsame := hs.same_eff hu
    exact ⟨hsame.mem.mp h.1, hsame.remaining ▸ h.2⟩

/-- What a timeout function has called. -/
def calls (ops : List (TimerOp ι)) (s : TimerSys ι) : TimerSys ι :=
  ops.foldl (fun s op => op.eff s) s

theorem Inv.calls (hs : s.Inv lo) (hlo : lo ≤ 1) (hcalled : s.called.Nodup) {ops : List (TimerOp ι)}
    (hops : ∀ op ∈ ops, op.Proper) :
    (s.calls ops).Inv lo ∧ (s.calls ops).called.Sublist s.called ∧
      (∀ u, (s.calls ops).Due u → s.Due u) ∧
      ∀ u, (∀ op ∈ ops, op.timer ≠ u) → Same u s (s.calls ops) := by
  induction ops generalizing s with
  | nil => exact ⟨hs, .refl _, fun _ h => h, fun u _ => .refl u s⟩
  | cons op ops ih =>
    obtain ⟨hop, hops⟩ := List.forall_mem_cons.mp hops
    have hsub := called_eff op s
    obtain ⟨hinv, hcalled', hdue, hsame⟩ := ih (hs.eff hlo hcalled hop) (hsub.nodup hcalled) hops
    refine ⟨hinv, hcalled'.trans hsub, fun u h => hs.due_of_eff (hdue u h), fun u hu => ?_⟩
    obtain ⟨hop, hu⟩ := List.forall_mem_cons.mp hu
    exact (hs.same_eff hop).trans (hsame u hu)

/-! ## One timer is called -/

/-- What the call of the timer `t` leaves. -/
structure Called (t : ι) (s s' : TimerSys ι) : Prop where
  inv : s'.Inv 0
  called : s'.called = []
  due : ∀ u, s'.Due u → s.Due u ∧ u ≠ t

theorem Inv.take (hs : s.Inv 0) (hcalled : s.called = []) (t : ι) :
    (s.take t).Inv 0 ∧ (s.take t).called = [t] := by
  have hlist : (s.take t).called = [t] := by
    simp [TimerSys.take, TimerSys.timerRemove, TimerSys.modify, hcalled]
  have hmod := (hs.timerRemove t).modify (f := fun x =>
    { x with activated := if x.periodic then x.activated else false }) hs.not_mem_timerRemove
    (hs.time t)
  refine ⟨{ hmod with called := ?_ }, hlist⟩
  rw [hlist]
  intro u hu
  rw [List.mem_singleton.mp hu]
  exact hs.not_mem_timerRemove

theorem due_of_take (hs : s.Inv 0) (h : (s.take t).Due u) : s.Due u ∧ u ≠ t := by
  have hne : u ≠ t := (hs.nodup.mem_erase_iff.mp h.1).1
  have hrem : (s.take t).remaining u = s.remaining u :=
    remaining_congr rfl (by simp [TimerSys.take, TimerSys.modify, TimerSys.timerRemove, hne])
  exact ⟨⟨List.mem_of_mem_erase h.1, hrem.symm.trans h.2⟩, hne⟩

theorem same_take (h : t ≠ u) (s : TimerSys ι) : Same u s (s.take t) :=
  have hsame := (same_removed h s).trans (same_modify h _ _)
  { hsame with called := (List.mem_cons.trans (or_iff_right h.symm)).trans hsame.called }

/-- What the timeout function of the timer `t` leaves. -/
theorem Inv.calls_take (hs : s.Inv 0) (hcalled : s.called = []) {ops : List (TimerOp ι)}
    (hops : ∀ op ∈ ops, op.Proper) (t : ι) :
    let r := (s.take t).calls ops
    r.Inv 0 ∧ r.called.Sublist [t] ∧ (∀ u, r.Due u → s.Due u ∧ u ≠ t) ∧
      ∀ u, (∀ op ∈ ops, op.timer ≠ u) → Same u (s.take t) r := by
  obtain ⟨htake, hcalled'⟩ := hs.take hcalled t
  have hnodup : (s.take t).called.Nodup := hcalled' ▸ List.nodup_singleton t
  obtain ⟨hinv, hsub, hdue, hsame⟩ := htake.calls zero_le_one hnodup hops
  exact ⟨hinv, hcalled' ▸ hsub, fun u h => due_of_take hs (hdue u h), hsame⟩

/-- A timer whose function has not stopped it or started it again. -/
theorem giveBack_of_called {r : TimerSys ι} (h : r.called = [t]) : r.giveBack t =
    if (r.timer t).periodic ∧ (r.timer t).activated then { r with called := [] }.timerStart t
    else { r with called := [] } := by
  unfold TimerSys.giveBack
  simp [h]

/-- The call of a timer that is due. -/
theorem Inv.callTimer (hs : s.Inv 0) (hcalled : s.called = []) {func : TimeoutFunc ι}
    (hfunc : ∀ op ∈ func t (s.take t), op.Proper) : Called t s (s.callTimer func t) := by
  obtain ⟨hinv, hsub, hdue, -⟩ := hs.calls_take hcalled hfunc t
  show Called t s (((s.take t).calls (func t (s.take t))).giveBack t)
  generalize (s.take t).calls (func t (s.take t)) = r at hinv hsub hdue
  rcases List.sublist_singleton.mp hsub with hnil | hone
  · unfold TimerSys.giveBack
    rw [if_pos hnil]
    exact ⟨hinv, hnil, hdue⟩
  · rw [giveBack_of_called hone]
    have hr := hinv.emptied
    split_ifs
    · refine ⟨hr.timerStart zero_le_one List.nodup_nil t, rfl, fun u hu => ?_⟩
      have hne : u ≠ t := by
        rintro rfl
        exact hr.not_due_timerStart u hu
      have hsame := hr.same_timerStart hne.symm
      exact hdue u ⟨hsame.mem.mp hu.1, hsame.remaining.symm.trans hu.2⟩
    · exact ⟨hr, rfl, hdue⟩

/-- Another timer is left alone, if the timeout function leaves it alone. -/
theorem Inv.same_callTimer (hs : s.Inv 0) (hcalled : s.called = []) {func : TimeoutFunc ι}
    (hfunc : ∀ op ∈ func t (s.take t), op.Proper) (hu : t ≠ u)
    (hspare : ∀ op ∈ func t (s.take t), op.timer ≠ u) : Same u s (s.callTimer func t) := by
  obtain ⟨hinv, hsub, -, hsame⟩ := hs.calls_take hcalled hfunc t
  refine ((same_take hu s).trans (hsame u hspare)).trans ?_
  show Same u _ (((s.take t).calls (func t (s.take t))).giveBack t)
  generalize (s.take t).calls (func t (s.take t)) = r at hinv hsub
  rcases List.sublist_singleton.mp hsub with hnil | hone
  · unfold TimerSys.giveBack
    rw [if_pos hnil]
    exact .refl u r
  · have hemptied : Same u r { r with called := [] } :=
      { Same.refl u r with called := by simp [hone, hu.symm] }
    rw [giveBack_of_called hone]
    split_ifs
    · exact hemptied.trans (hinv.emptied.same_timerStart hu)
    · exact hemptied

/-- The timer itself, if its function leaves it alone. -/
theorem Inv.callTimer_self (hs : s.Inv 0) (hcalled : s.called = []) {func : TimeoutFunc ι}
    (hfunc : ∀ op ∈ func t (s.take t), op.Proper) (hact : (s.timer t).activated = true)
    (hspare : ∀ op ∈ func t (s.take t), op.timer ≠ t) : Elapsed t s (s.callTimer func t) := by
  obtain ⟨hinv, hsub, -, hsame⟩ := hs.calls_take hcalled hfunc t
  have ht := hsame t hspare
  have hin : t ∈ (s.take t).called := (hs.take hcalled t).2 ▸ .head _
  have htimer : (s.take t).timer t = { s.timer t with activated := (s.timer t).periodic } := by
    cases hper : (s.timer t).periodic <;>
      simp [TimerSys.take, TimerSys.modify, TimerSys.timerRemove, hper, hact]
  show Elapsed t s (((s.take t).calls (func t (s.take t))).giveBack t)
  generalize (s.take t).calls (func t (s.take t)) = r at hinv hsub ht
  have hone : r.called = [t] := by
    rcases List.sublist_singleton.mp hsub with hnil | hone
    · exact absurd (ht.called.mpr hin) (hnil ▸ List.not_mem_nil)
    · exact hone
  have hmem : t ∉ r.timerList := hinv.called t (hone ▸ .head _)
  have hrt := ht.timer.trans htimer
  rw [giveBack_of_called hone, hrt]
  cases hper : (s.timer t).periodic with
  | false =>
    rw [if_neg (by simp)]
    refine ⟨by simpa [hper] using hmem, ?_, ?_, ?_, fun h => absurd (hper.symm.trans h) (by simp)⟩
      <;> simp [hrt, hper]
  | true =>
    rw [if_pos ⟨rfl, rfl⟩]
    have hrem := remaining_timerStart_self (hinv.emptied.time t).2
    have hself := timer_timerStart_self t { r with called := [] }
    rw [show ({ r with called := [] } : TimerSys ι).timer t = r.timer t from rfl, hrt] at hself hrem
    refine ⟨iff_of_true ((mem_timerStart hinv.emptied).mpr (.inl rfl)) hper, ?_, ?_, ?_, ?_⟩
    · rw [hself]
    · rw [hself, hper]
    · rw [hself, hper]
    · exact fun _ => hrem

/-! ## A tick -/

/-- The timeout functions call nothing that the kernel refuses. -/
def ProperFunc (func : TimeoutFunc ι) : Prop := ∀ u s, ∀ op ∈ func u s, op.Proper

/-- The timeout functions leave the timer `t` alone. -/
def SparesFunc (t : ι) (func : TimeoutFunc ι) : Prop := ∀ u s, ∀ op ∈ func u s, op.timer ≠ t

open Classical in
/-- The check ends. It calls a timer that is due once, and no other, if nobody else touches it. -/
theorem Inv.timerCheck [Fintype ι] {func : TimeoutFunc ι} (hfunc : ProperFunc func) {rounds : ℕ}
    (hs : s.Inv 0) (hcalled : s.called = [])
    (hrounds : (Finset.univ.filter s.Due).card ≤ rounds) :
    ∃ s' log, s.timerCheck func rounds = some (s', log) ∧ s'.Inv 1 ∧ s'.called = [] ∧
      ∀ t, SparesFunc t func → (s.Due t → log.count t = 1 ∧ Elapsed t s s') ∧
        (¬s.Due t → log.count t = 0 ∧ Same t s s') := by
  have hstop : ∀ {s : TimerSys ι}, s.Inv 0 → s.called = [] → s.due = none →
      s.Inv 1 ∧ s.called = [] ∧ ∀ t, SparesFunc t func →
        (s.Due t → [].count t = 1 ∧ Elapsed t s s) ∧ (¬s.Due t → [].count t = 0 ∧ Same t s s) :=
    fun {s} hs hcalled hdue => by
      have hnone := due_eq_none hs hdue
      refine ⟨{ hs with le_remaining := fun u hu => ?_ }, hcalled, fun t _ =>
        ⟨fun h => absurd h (hnone t), fun _ => ⟨rfl, .refl t s⟩⟩⟩
      exact Nat.pos_of_ne_zero fun h => hnone u ⟨hu, h⟩
  induction rounds generalizing s with
  | zero =>
    cases hdue : s.due with
    | none => exact ⟨s, [], by simp [TimerSys.timerCheck, hdue], hstop hs hcalled hdue⟩
    | some u =>
      have hmem : u ∈ Finset.univ.filter s.Due :=
        Finset.mem_filter.mpr ⟨Finset.mem_univ u, due_eq_some hs hdue⟩
      rw [Finset.card_eq_zero.mp (Nat.le_zero.mp hrounds)] at hmem
      cases hmem
  | succ rounds ih =>
    cases hdue : s.due with
    | none => exact ⟨s, [], by simp [TimerSys.timerCheck, hdue], hstop hs hcalled hdue⟩
    | some u =>
      have hu := due_eq_some hs hdue
      have hone := hs.callTimer hcalled (hfunc u (s.take u))
      have hless : (Finset.univ.filter (s.callTimer func u).Due).card <
          (Finset.univ.filter s.Due).card := by
        refine Finset.card_lt_card (Finset.ssubset_iff_subset_ne.mpr ⟨fun v hv => ?_, fun heq => ?_⟩)
        · have hv := hone.due v (Finset.mem_filter.mp hv).2
          exact Finset.mem_filter.mpr ⟨Finset.mem_univ v, hv.1⟩
        · have hmem : u ∈ Finset.univ.filter s.Due :=
            Finset.mem_filter.mpr ⟨Finset.mem_univ u, hu⟩
          rw [← heq] at hmem
          exact (hone.due u (Finset.mem_filter.mp hmem).2).2 rfl
      obtain ⟨s', log, hcheck, hinv, hcalled', hrest⟩ := ih hone.inv hone.called (by omega)
      refine ⟨s', u :: log, by simp [TimerSys.timerCheck, hdue, hcheck], hinv, hcalled',
        fun t ht => ?_⟩
      rcases eq_or_ne u t with rfl | hne
      · -- it is not due again in this tick
        have hover : ¬(s.callTimer func u).Due u := fun h => (hone.due u h).2 rfl
        have hself := hs.callTimer_self hcalled (hfunc u (s.take u)) (hs.activated u hu.1)
          (ht u (s.take u))
        obtain ⟨hzero, hsame⟩ := (hrest u ht).2 hover
        refine ⟨fun _ => ⟨by rw [List.count_cons_self, hzero], hsame.elapsed hself⟩, fun h => ?_⟩
        exact absurd hu h
      · have hsame := hs.same_callTimer hcalled (hfunc u (s.take u)) hne (ht u (s.take u))
        have hiff : (s.callTimer func u).Due t ↔ s.Due t := by
          unfold Due
          rw [hsame.mem, hsame.remaining]
        obtain ⟨hdue', hnot'⟩ := hrest t ht
        rw [hiff] at hdue' hnot'
        rw [List.count_cons_of_ne hne]
        exact ⟨fun h => ⟨(hdue' h).1, (hdue' h).2.of_same hsame⟩,
          fun h => ⟨(hnot' h).1, hsame.trans (hnot' h).2⟩⟩

/-! ## Runs -/

end TimerSys

section Events

variable {ι : Type}

/-- The kernel refuses nothing of what happens. -/
def TimerEvent.Proper : TimerEvent ι → Prop
  | .op call => call.Proper
  | .tick func => TimerSys.ProperFunc func

/-- What happens leaves the timer `t` alone. -/
def TimerEvent.Spares (t : ι) : TimerEvent ι → Prop
  | .op call => call.timer ≠ t
  | .tick func => TimerSys.SparesFunc t func

/-- The ticks of a run. -/
def TimerEvent.ticks : List (TimerEvent ι) → ℕ
  | [] => 0
  | .op _ :: es => ticks es
  | .tick _ :: es => ticks es + 1

end Events

namespace TimerSys

variable {ι : Type} [DecidableEq ι] [Fintype ι] {s : TimerSys ι} {rounds : ℕ}

open TimerEvent (ticks)

/-- A tick: the timers with one tick left are called. -/
theorem Inv.rtTickIncrease (hs : s.Inv 1) (hcalled : s.called = []) {func : TimeoutFunc ι}
    (hfunc : ProperFunc func) (hrounds : Fintype.card ι ≤ rounds) :
    ∃ s' log, s.rtTickIncrease func rounds = some (s', log) ∧ s'.Inv 1 ∧ s'.called = [] ∧
      ∀ t, SparesFunc t func →
        (t ∈ s.timerList → s.remaining t = 1 → log.count t = 1 ∧ Elapsed t s s') ∧
        (t ∈ s.timerList → s.remaining t ≠ 1 → log.count t = 0 ∧ t ∈ s'.timerList ∧
          s'.timer t = s.timer t ∧ s'.remaining t + 1 = s.remaining t) ∧
        (t ∉ s.timerList → log.count t = 0 ∧ t ∉ s'.timerList ∧ s'.timer t = s.timer t) := by
  classical
  obtain ⟨hinv, hrem⟩ := hs.tick
  obtain ⟨s', log, hcheck, hinv', hcalled', hrest⟩ := hinv.timerCheck hfunc hcalled
    ((Finset.card_filter_le _ _).trans hrounds)
  refine ⟨s', log, hcheck, hinv', hcalled', fun t ht => ?_⟩
  obtain ⟨hdue, hnot⟩ := hrest t ht
  refine ⟨fun hmem hone => ?_, fun hmem hmore => ?_, fun hmem => ?_⟩
  · have hr := hrem t hmem
    obtain ⟨hcount, helapsed⟩ := hdue ⟨hmem, by omega⟩
    exact ⟨hcount, ⟨helapsed.mem, helapsed.initTick, helapsed.periodic, helapsed.activated,
      helapsed.remaining⟩⟩
  · have hr := hrem t hmem
    obtain ⟨hcount, hsame⟩ := hnot fun h => hmore (by rw [← hr, h.2])
    exact ⟨hcount, hsame.mem.mpr hmem, hsame.timer, by rw [hsame.remaining, hr]⟩
  · obtain ⟨hcount, hsame⟩ := hnot fun h => hmem h.1
    exact ⟨hcount, mt hsame.mem.mp hmem, hsame.timer⟩

/-- No run gets stuck. -/
theorem Inv.run (hs : s.Inv 1) (hcalled : s.called = []) (hrounds : Fintype.card ι ≤ rounds)
    {es : List (TimerEvent ι)} (hes : ∀ e ∈ es, e.Proper) :
    ∃ s' log, s.run rounds es = some (s', log) ∧ s'.Inv 1 ∧ s'.called = [] := by
  induction es generalizing s with
  | nil => exact ⟨s, [], rfl, hs, hcalled⟩
  | cons e es ih =>
    obtain ⟨he, htail⟩ := List.forall_mem_cons.mp hes
    cases e with
    | op op =>
      have hsub := called_eff op s
      rw [hcalled] at hsub
      exact ih (hs.eff le_rfl (hcalled ▸ List.nodup_nil) he) (List.sublist_nil.mp hsub) htail
    | tick func =>
      obtain ⟨s₁, log₁, htick, hinv, hcalled₁, -⟩ := hs.rtTickIncrease hcalled he hrounds
      obtain ⟨s', log, hrun, hrest⟩ := ih hinv hcalled₁ htail
      exact ⟨s', log₁ ++ log, by simp [TimerSys.run, htick, hrun], hrest⟩

/-- How often a timer with `r` ticks left is called in `k` ticks. -/
def callsIn (x : RtTimer) (r k : ℕ) : ℕ :=
  if r ≤ k then if x.periodic then 1 + (k - r) / x.initTick else 1 else 0

theorem callsIn_initTick {x : RtTimer} (hx : 0 < x.initTick) (k : ℕ) :
    callsIn x x.initTick k =
      if x.periodic then k / x.initTick else if x.initTick ≤ k then 1 else 0 := by
  unfold callsIn
  split_ifs with hle hper hper
  · rw [Nat.div_eq_sub_div hx hle, add_comm]
  · rfl
  · rw [Nat.div_eq_of_lt (not_le.mp hle)]
  · rfl

/-- A timer that has been called for the last time is not called again. -/
theorem Inv.run_over (hs : s.Inv 1) (hcalled : s.called = []) (hrounds : Fintype.card ι ≤ rounds)
    {es : List (TimerEvent ι)} {t : ι} (hes : ∀ e ∈ es, e.Proper ∧ e.Spares t)
    (ht : t ∉ s.timerList) :
    ∃ s' log, s.run rounds es = some (s', log) ∧ log.count t = 0 ∧ s'.timer t = s.timer t := by
  induction es generalizing s with
  | nil => exact ⟨s, [], rfl, rfl, rfl⟩
  | cons e es ih =>
    obtain ⟨⟨he, hspare⟩, htail⟩ := List.forall_mem_cons.mp hes
    cases e with
    | op op =>
      have hsub := called_eff op s
      rw [hcalled] at hsub
      have hsame := hs.same_eff hspare
      obtain ⟨s', log, hrun, hcount, htimer⟩ := ih (hs.eff le_rfl (hcalled ▸ List.nodup_nil) he)
        (List.sublist_nil.mp hsub) htail (mt hsame.mem.mp ht)
      exact ⟨s', log, hrun, hcount, htimer.trans hsame.timer⟩
    | tick func =>
      obtain ⟨s₁, log₁, htick, hinv, hcalled₁, hone⟩ := hs.rtTickIncrease hcalled he hrounds
      obtain ⟨hcount₁, ht₁, htimer₁⟩ := (hone t hspare).2.2 ht
      obtain ⟨s', log, hrun, hcount, htimer⟩ := ih hinv hcalled₁ htail ht₁
      exact ⟨s', log₁ ++ log, by simp [TimerSys.run, htick, hrun], by simp [hcount₁, hcount],
        htimer.trans htimer₁⟩

/-- A timer that is running. -/
theorem Inv.run_running (hs : s.Inv 1) (hcalled : s.called = [])
    (hrounds : Fintype.card ι ≤ rounds) {es : List (TimerEvent ι)} {t : ι}
    (hes : ∀ e ∈ es, e.Proper ∧ e.Spares t) (ht : t ∈ s.timerList) :
    ∃ s' log, s.run rounds es = some (s', log) ∧
      log.count t = callsIn (s.timer t) (s.remaining t) (ticks es) ∧
      ((s'.timer t).activated = true ↔
        (s.timer t).periodic = true ∨ ticks es < s.remaining t) := by
  induction es generalizing s with
  | nil =>
    have hpos := hs.le_remaining t ht
    refine ⟨s, [], rfl, ?_, ?_⟩
    · rw [callsIn, ticks, if_neg (by omega)]
      rfl
    · exact iff_of_true (hs.activated t ht) (.inr hpos)
  | cons e es ih =>
    obtain ⟨⟨he, hspare⟩, htail⟩ := List.forall_mem_cons.mp hes
    cases e with
    | op op =>
      have hsub := called_eff op s
      rw [hcalled] at hsub
      have hsame := hs.same_eff hspare
      obtain ⟨s', log, hrun, hrest⟩ := ih (hs.eff le_rfl (hcalled ▸ List.nodup_nil) he)
        (List.sublist_nil.mp hsub) htail (hsame.mem.mpr ht)
      rw [hsame.timer, hsame.remaining] at hrest
      exact ⟨s', log, hrun, hrest⟩
    | tick func =>
      obtain ⟨s₁, log₁, htick, hinv, hcalled₁, hone⟩ := hs.rtTickIncrease hcalled he hrounds
      obtain ⟨hlast, hmore, -⟩ := hone t hspare
      have hticks : ticks (.tick func :: es) = ticks es + 1 := rfl
      by_cases hr : s.remaining t = 1
      · obtain ⟨hcount₁, helapsed⟩ := hlast ht hr
        rw [hticks, hr]
        cases hper : (s.timer t).periodic with
        | true =>
          obtain ⟨s', log, hrun, hcount, hact⟩ := ih hinv hcalled₁ htail (helapsed.mem.mpr hper)
          refine ⟨s', log₁ ++ log, by simp [TimerSys.run, htick, hrun], ?_, ?_⟩
          · rw [helapsed.remaining hper, ← helapsed.initTick,
              callsIn_initTick (hinv.time t).1, helapsed.periodic, hper] at hcount
            rw [List.count_append, hcount₁, hcount, helapsed.initTick]
            simp [callsIn, hper]
          · rw [hact, helapsed.periodic, hper]
            simp
        | false =>
          have hgone : t ∉ s₁.timerList := fun h => by simpa [hper] using helapsed.mem.mp h
          obtain ⟨s', log, hrun, hcount, htimer⟩ := hinv.run_over hcalled₁ hrounds htail hgone
          refine ⟨s', log₁ ++ log, by simp [TimerSys.run, htick, hrun], ?_, ?_⟩
          · rw [List.count_append, hcount₁, hcount]
            simp [callsIn, hper]
          · rw [htimer, helapsed.activated, hper]
            simp
      · obtain ⟨hcount₁, ht₁, htimer₁, hrem₁⟩ := hmore ht hr
        obtain ⟨s', log, hrun, hcount, hact⟩ := ih hinv hcalled₁ htail ht₁
        rw [htimer₁] at hcount hact
        refine ⟨s', log₁ ++ log, by simp [TimerSys.run, htick, hrun], ?_, ?_⟩
        · rw [List.count_append, hcount₁, hcount, zero_add, hticks, ← hrem₁]
          unfold callsIn
          simp only [Nat.add_le_add_iff_right, Nat.add_sub_add_right]
        · rw [hact, hticks, ← hrem₁]
          simp only [Nat.add_lt_add_iff_right]

end TimerSys

open TimerSys TimerEvent in
/-- **When a timer is called.** At any value of the tick counter, after any run of calls and ticks, a
timer is started; then threads and timeout functions start, stop and change the other timers as they
like. In `k` ticks a periodic timer is called once for each full period in them, a one-shot timer
once if they make up its time, and it is active until then. -/
theorem timer_called {ι : Type} [DecidableEq ι] [Fintype ι] (tick : ℕ) (timer : ι → RtTimer)
    (htime : ∀ u, 0 < (timer u).initTick ∧ (timer u).initTick < rtTickHalf) (rounds : ℕ)
    (hrounds : Fintype.card ι ≤ rounds) (t : ι) (es es' : List (TimerEvent ι))
    (hes : ∀ e ∈ es, e.Proper) (hes' : ∀ e ∈ es', e.Proper ∧ e.Spares t) :
    ∃ s log s' log', (boot tick timer).run rounds es = some (s, log) ∧
      (s.timerStart t).run rounds es' = some (s', log') ∧
      let x := s.timer t
      log'.count t = (if x.periodic then ticks es' / x.initTick
        else if x.initTick ≤ ticks es' then 1 else 0) ∧
      ((s'.timer t).activated = true ↔ x.periodic = true ∨ ticks es' < x.initTick) := by
  have hboot : (boot tick timer).Inv 1 := by
    refine ⟨List.nodup_nil, List.Pairwise.nil, ?_, ?_, ?_, htime, ?_⟩ <;>
      exact fun u hu => absurd hu List.not_mem_nil
  obtain ⟨s, log, hrun, hinv, hcalled⟩ := hboot.run rfl hrounds hes
  have hstart := hinv.timerStart le_rfl (hcalled ▸ List.nodup_nil) t
  have hempty : (s.timerStart t).called = [] := by
    rw [timerStart]
    simp [timerRemove, TimerSys.modify, hcalled]
  obtain ⟨s', log', hrun', hcount, hact⟩ := hstart.run_running hempty hrounds hes'
    ((mem_timerStart hinv).mpr (.inl rfl))
  rw [remaining_timerStart_self (hinv.time t).2] at hcount hact
  rw [timer_timerStart_self] at hcount hact
  refine ⟨s, log, s', log', hrun, hrun', ?_, hact⟩
  exact hcount.trans (callsIn_initTick (hinv.time t).1 _)

open TimerSys in
/-- A periodic timer of two ticks, started three ticks before the counter wraps, next to a one-shot
timer whose function starts it again: two calls in five ticks. -/
theorem timer_called_wrap :
    let func : TimeoutFunc Bool := fun u _ => if u then [] else [.setTime false 1, .start false]
    let timer : Bool → RtTimer := fun u => .init (if u then 2 else 3) u
    ∃ s log s' log', (boot (2 ^ 32 - 4) timer).run 2 [.op (.start false), .tick func] =
        some (s, log) ∧
      (s.timerStart true).run 2 (List.replicate 5 (.tick func)) = some (s', log') ∧
      log'.count true = 2 := by
  intro func timer
  have htime : ∀ u, 0 < (timer u).initTick ∧ (timer u).initTick < rtTickHalf := by decide
  have hproper : ProperFunc func := by
    rintro (_ | _) s op hop
    · simp only [func, Bool.false_eq_true, if_false, List.mem_cons, List.not_mem_nil, or_false] at hop
      rcases hop with rfl | rfl
      · exact ⟨by decide, by decide⟩
      · trivial
    · simp [func] at hop
  have hspares : SparesFunc true func := by
    rintro (_ | _) s op hop
    · simp only [func, Bool.false_eq_true, if_false, List.mem_cons, List.not_mem_nil, or_false] at hop
      rcases hop with rfl | rfl <;> exact Bool.false_ne_true
    · simp [func] at hop
  obtain ⟨s, log, s', log', hrun, hrun', hcount, -⟩ := timer_called (2 ^ 32 - 4) timer htime 2
    (by decide) true [.op (.start false), .tick func] (List.replicate 5 (.tick func))
    (by simpa [TimerEvent.Proper, TimerOp.Proper] using hproper)
    (fun e he => List.eq_of_mem_replicate he ▸ ⟨hproper, hspares⟩)
  have htimer : ((boot (2 ^ 32 - 4) timer).run 2 [.op (.start false), .tick func]).map
      (fun r => r.1.timer true) = some (.init 2 true) := by decide +kernel
  rw [hrun] at htimer
  have hx : s.timer true = .init 2 true := Option.some.inj htimer
  rw [hx] at hcount
  exact ⟨s, log, s', log', hrun, hrun', hcount.trans (by
    simp [RtTimer.init, List.replicate, TimerEvent.ticks])⟩

end H750Stepper
