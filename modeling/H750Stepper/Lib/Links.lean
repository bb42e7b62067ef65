import Mathlib.Tactic

/-!
# Singly linked lists in memory

A list in memory is a link `next x` for each node `x`, `none` for null. `IsList next p l` says that
the links from `p` on pass the nodes of `l` in this order and end. A search along the links takes
fuel; where there is a list, it needs no more than the list is long.
-/

namespace Links

variable {ι : Type}

/-- From `p` the links pass the nodes of `l` and end. -/
def IsList (next : ι → Option ι) : Option ι → List ι → Prop
  | p, [] => p = none
  | p, x :: l => p = some x ∧ IsList next (next x) l

variable {next next' : ι → Option ι} {p : Option ι} {l l' : List ι} {x : ι}

theorem IsList.unique (h : IsList next p l) (h' : IsList next p l') : l = l' := by
  induction l generalizing p l' with
  | nil =>
    cases l' with
    | nil => rfl
    | cons y l' => exact absurd (h.symm.trans h'.1) (by simp)
  | cons x l ih =>
    cases l' with
    | nil => exact absurd (h'.symm.trans h.1) (by simp)
    | cons y l' =>
      obtain rfl : x = y := Option.some.inj (h.1.symm.trans h'.1)
      exact congrArg (x :: ·) (ih h.2 h'.2)

theorem IsList.of_append {a b : List ι} (h : IsList next p (a ++ x :: b)) :
    IsList next (next x) b := by
  induction a generalizing p with
  | nil => exact h.2
  | cons y a ih => exact ih h.2

/-- No node is passed twice. -/
theorem IsList.nodup (h : IsList next p l) : l.Nodup := by
  induction l generalizing p with
  | nil => exact List.nodup_nil
  | cons x l ih =>
    refine List.nodup_cons.mpr ⟨fun hx => ?_, ih h.2⟩
    -- the rest of the list would begin again after its own node `x`
    obtain ⟨a, b, rfl⟩ := List.append_of_mem hx
    have hlen := congrArg List.length (h.2.unique h.2.of_append)
    simp only [List.length_append, List.length_cons] at hlen
    omega

theorem IsList.congr (h : IsList next p l) (hn : ∀ x ∈ l, next' x = next x) :
    IsList next' p l := by
  induction l generalizing p with
  | nil => exact h
  | cons x l ih =>
    refine ⟨h.1, ?_⟩
    rw [hn x (by simp)]
    exact ih h.2 fun y hy => hn y (by simp [hy])

variable [DecidableEq ι]

/-- A link of a node outside the list does not matter. -/
theorem isList_update {q : Option ι} (hx : x ∉ l) :
    IsList (Function.update next x q) p l ↔ IsList next p l :=
  have hne : ∀ y ∈ l, Function.update next x q y = next y := fun y hy =>
    Function.update_of_ne (fun h : y = x => hx (h ▸ hy)) ..
  ⟨fun h => h.congr fun y hy => (hne y hy).symm, fun h => h.congr hne⟩

/-- A node linked in front of `p`: what is read then is that node and a list from `p` without it. -/
theorem isList_push : IsList (Function.update next x p) (some x) l ↔
    ∃ l', l = x :: l' ∧ x ∉ l' ∧ IsList next p l' := by
  constructor
  · intro h
    cases l with
    | nil => exact absurd h (by simp [IsList])
    | cons y l' =>
      obtain rfl : x = y := Option.some.inj h.1
      have hx : x ∉ l' := (List.nodup_cons.mp h.nodup).1
      have htail := h.2
      rw [Function.update_self, isList_update hx] at htail
      exact ⟨l', rfl, hx, htail⟩
  · rintro ⟨l', rfl, hx, h⟩
    refine ⟨rfl, ?_⟩
    rwa [Function.update_self, isList_update hx]

/-! ## Search -/

/-- The first node from `p` on with the property, or null; `none` when the fuel is used up. -/
def find (next : ι → Option ι) (found : ι → Bool) : ℕ → Option ι → Option (Option ι)
  | 0, _ => none
  | _ + 1, none => some none
  | n + 1, some x => if found x then some (some x) else find next found n (next x)

omit [DecidableEq ι]

theorem IsList.find_eq (h : IsList next p l) (found : ι → Bool) {n : ℕ} (hn : l.length < n) :
    find next found n p = some (l.find? found) := by
  induction l generalizing p n with
  | nil =>
    obtain ⟨n, rfl⟩ := Nat.exists_eq_add_one.mpr hn
    obtain rfl : p = none := h
    rfl
  | cons x l ih =>
    obtain ⟨n, rfl⟩ := Nat.exists_eq_add_one.mpr (Nat.zero_lt_of_lt hn)
    obtain ⟨rfl, h⟩ := h
    rw [find, List.find?_cons, ih h (by simpa using hn)]
    cases found x <;> rfl

/-- More fuel does not change what a search has found. -/
theorem find_of_le {found : ι → Bool} {n m : ℕ} {r : Option ι}
    (h : find next found n p = some r) (hnm : n ≤ m) : find next found m p = some r := by
  induction n generalizing m p with
  | zero => cases h
  | succ n ih =>
    obtain ⟨m, rfl⟩ := Nat.exists_eq_add_one.mpr (Nat.zero_lt_of_lt hnm)
    cases p with
    | none => exact h
    | some x =>
      unfold find at h ⊢
      split_ifs at h ⊢ with hx
      · exact h
      · exact ih h (by omega)

/-- A node that links to itself and is not found keeps the search going. -/
theorem find_loop {found : ι → Bool} (hx : next x = some x) (hf : found x = false) (n : ℕ) :
    find next found n (some x) = none := by
  induction n with
  | zero => rfl
  | succ n ih => simp [find, hf, hx, ih]

end Links
