import H750Stepper.Timer.Registration

/-!
# Delivery of the timer events

A device keeps one callback, and a callback releases the semaphore of the first instance it finds.
That is enough: a hardware timer is opened once and never closed, so a second init on the same
device is refused with `-RT_EBUSY` before it registers its instance, and no device has two.

`delivery`: after inits of the three modules in any order, none of which failed late, an event on a
device releases the semaphores of the instances bound to it, each once, and no other.
-/

namespace H750Stepper

open Links Timers

variable {ι δ : Type} [DecidableEq ι] [DecidableEq δ]

namespace Board

/-- The instance is initialised, on the device `d`. -/
def BoundTo (b : Board ι δ) (d : δ) (m : Loop) (x : ι) : Prop :=
  b.inited m x = true ∧ (b.timers.reg m).timerDev x = some d

/-- An event on `d` releases the semaphore of each instance bound to `d` once, and no other. -/
def Delivers (b : Board ι δ) (d : δ) : Prop :=
  ∃ n released, b.timers.timerEvent d n = some released ∧
    (∀ m x, b.BoundTo d m x → released.count ((b.timers.reg m).sem x) = 1) ∧
    ∀ h ∈ released, ∃ m x, b.BoundTo d m x ∧ (b.timers.reg m).sem x = h

omit [DecidableEq ι] in
/-- The callback of a module that has an instance on `d` finds it. -/
theorem Sound.timerIsr_bound {b : Board ι δ} (hb : b.Sound) {d : δ} {m : Loop} {x : ι}
    (hx : b.BoundTo d m x) : ∃ n, b.timers.timerIsr m d n = some [(b.timers.reg m).sem x] := by
  obtain ⟨l, hl, hmem⟩ := hb.lists m
  have hfind := IsList.find_eq hl (fun y => decide ((b.timers.reg m).timerDev y = some d))
    (Nat.lt_succ_self _)
  have hfirst : l.find? (fun y => decide ((b.timers.reg m).timerDev y = some d)) = some x := by
    cases hy : l.find? fun y => decide ((b.timers.reg m).timerDev y = some d) with
    | none => simpa [hx.2] using List.find?_eq_none.mp hy x ((hmem x).mpr hx.1)
    | some y =>
      have hyd := List.find?_some hy
      have hyl := (hmem y).mp (List.mem_of_find?_eq_some hy)
      rw [(hb.devInj m y m x d hyl hx.1 (by simpa using hyd) hx.2).2]
  refine ⟨l.length + 1, ?_⟩
  rw [hfirst] at hfind
  simp only [listOf] at hfind
  simp [Timers.timerIsr, hfind]

omit [DecidableEq ι] in
theorem Sound.delivers {b : Board ι δ} (hb : b.Sound) (d : δ) : b.Delivers d := by
  cases hrx : b.timers.rxIndicate d with
  | none =>
    -- no callback, so nothing is bound here
    refine ⟨0, [], by simp [timerEvent, hrx], fun m x hx => ?_, by simp⟩
    rw [(hb.bound m x d hx.1 hx.2).2] at hrx
    cases hrx
  | some m =>
    obtain ⟨x, hx⟩ := hb.served m d hrx
    obtain ⟨n, hn⟩ := hb.timerIsr_bound hx
    refine ⟨n, [(b.timers.reg m).sem x], (timerEvent_of_rxIndicate hrx n).trans hn, ?_, ?_⟩
    · intro m' x' hx'
      obtain ⟨rfl, rfl⟩ := hb.devInj m' x' m x d hx'.1 hx.1 hx'.2 hx.2
      simp
    · intro h hh
      obtain rfl := List.mem_singleton.mp hh
      exact ⟨m, x, hx, rfl⟩

/-- Calls that all succeed. -/
def Succeed : Board ι δ → List (InitCall ι δ) → Prop
  | _, [] => True
  | b, c :: cs => (b.ensureInited c).1 = 0 ∧ Succeed (b.ensureInited c).2 cs

theorem Succeed.noLateFailure {b : Board ι δ} {cs : List (InitCall ι δ)} (h : Succeed b cs) :
    NoLateFailure b cs := by
  induction cs generalizing b with
  | nil => trivial
  | cons c cs ih =>
    refine ⟨fun hc => ?_, ih h.2⟩
    have hret := hc.ret
    rw [h.1] at hret
    cases hret

end Board

open Board

/-- **Delivery.** After any sequence of init calls none of which has failed late (so after inits
that have all succeeded, `Succeed.noLateFailure`), every timer event is delivered. -/
theorem delivery (cs : List (InitCall ι δ)) (hcs : NoLateFailure zeroed cs) (d : δ) :
    ((zeroed : Board ι δ).run cs).Delivers d :=
  (sound_zeroed.run hcs).1.delivers d

/-- The shipped timers: three controllers that all name timer 4. -/
def shipped : List (InitCall ℕ ℕ) :=
  [⟨.position, 0, true, goodAnswers 4⟩, ⟨.speed, 0, true, goodAnswers 4⟩,
    ⟨.openLoop, 0, true, goodAnswers 4⟩]

theorem delivery_shipped : ((zeroed : Board ℕ ℕ).run shipped).Delivers 4 := by
  have hgood : ∀ (b : Board ℕ ℕ) m, ¬b.LateFailure ⟨m, 0, true, goodAnswers 4⟩ := by
    rintro b m ⟨-, -, -, ⟨-, h⟩ | h | h⟩
    · exact h rfl
    · exact h rfl
    · cases h
  exact delivery shipped ⟨hgood _ _, hgood _ _, hgood _ _, trivial⟩ 4

end H750Stepper
