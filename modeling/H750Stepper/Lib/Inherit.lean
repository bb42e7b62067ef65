import Mathlib.Data.Fintype.Card
import Mathlib.Data.List.Sort
import Mathlib.Logic.Relation
import Mathlib.Order.Bounds.Basic
import Mathlib.Order.MinMax

/-!
# Inherited priorities

Threads wait for each other; `W u t` says that `u` waits for `t`. `Exact` says that each thread has
the least, which is the most urgent, of the priorities of the threads that wait for it, directly or
not, itself included. `exact_of` gets it from what can be seen locally; the other results are about
the changes of `W`, and about queues that are ordered by priority.
-/

namespace Inherit

open Relation

variable {T α : Type*} [LinearOrder α]

/-- Every thread has the priority of the most urgent thread that waits for it. -/
def Exact (W : T → T → Prop) (base cur : T → α) : Prop :=
  ∀ t, IsLeast (base '' {u | ReflTransGen W u t}) (cur t)

theorem exact_of {W : T → T → Prop} {base cur : T → α} (hbase : ∀ t, cur t ≤ base t)
    (hwait : ∀ u t, W u t → cur t ≤ cur u) (hfrom : ∀ t, ∃ u, ReflTransGen W u t ∧ base u = cur t) :
    Exact W base cur := by
  have hreach : ∀ {u t}, ReflTransGen W u t → cur t ≤ cur u := fun {u t} h => by
    induction h with
    | refl => exact le_rfl
    | tail _ hyz ih => exact (hwait _ _ hyz).trans ih
  intro t
  constructor
  · obtain ⟨u, hu, heq⟩ := hfrom t
    exact ⟨u, hu, heq⟩
  · rintro _ ⟨u, hu, rfl⟩
    exact (hreach hu).trans (hbase u)

/-- A thread that waits for nobody is on no way to another thread. -/
theorem reaches_of_avoid {W W' : T → T → Prop} {t : T} (hidle : ∀ v, ¬W t v)
    (hkeep : ∀ u v, W u v → v ≠ t → W' u v) {u x : T} (h : ReflTransGen W u x) (hx : x ≠ t) :
    ReflTransGen W' u x := by
  induction h with
  | refl => exact .refl
  | @tail y z _ hyz ih =>
    have hy : y ≠ t := by
      rintro rfl
      exact hidle z hyz
    exact (ih hy).tail (hkeep y z hyz hx)

/-- A chain of raises to `p` has no thread twice: each leaves fewer threads above `p`. -/
theorem card_above_update [Fintype T] [DecidableEq T] {cur : T → α} {t : T} {p : α}
    (hp : p < cur t) : (Finset.univ.filter fun u => p < Function.update cur t p u).card <
      (Finset.univ.filter fun u => p < cur u).card := by
  refine Finset.card_lt_card (Finset.ssubset_iff_subset_ne.mpr ⟨fun u hu => ?_, fun heq => ?_⟩)
  · have hlt := (Finset.mem_filter.mp hu).2
    refine Finset.mem_filter.mpr ⟨Finset.mem_univ u, ?_⟩
    rcases eq_or_ne u t with rfl | hne
    · exact hp
    · rwa [Function.update_of_ne hne] at hlt
  · have ht : t ∈ Finset.univ.filter fun u => p < cur u :=
      Finset.mem_filter.mpr ⟨Finset.mem_univ t, hp⟩
    rw [← heq] at ht
    simpa using (Finset.mem_filter.mp ht).2

/-! ## Queues -/

/-- The priority of the first thread of a queue. -/
def first (top : α) (cur : T → α) : List T → α
  | [] => top
  | t :: _ => cur t

/-- The queue is ordered by priority. -/
def Ascending (cur : T → α) (q : List T) : Prop := q.Pairwise fun t u => cur t ≤ cur u

variable {top : α} {cur cur' : T → α} {q : List T} {t : T}

theorem Ascending.congr (h : Ascending cur q) (hcur : ∀ u ∈ q, cur' u = cur u) : Ascending cur' q :=
  h.imp_of_mem fun hu hv hle => by rwa [hcur _ hu, hcur _ hv]

omit [LinearOrder α] in
theorem first_congr (hcur : ∀ u ∈ q, cur' u = cur u) : first top cur' q = first top cur q := by
  cases q with
  | nil => rfl
  | cons u us => exact hcur u (.head _)

/-- The first thread of an ordered queue is the most urgent one. -/
theorem Ascending.le_first_iff (h : Ascending cur q) {c : α} (htop : ∀ t, cur t ≤ top) :
    c ≤ first top cur q ↔ c ≤ top ∧ ∀ u ∈ q, c ≤ cur u := by
  cases q with
  | nil => simp [first]
  | cons u us =>
    obtain ⟨hu, -⟩ := List.pairwise_cons.mp h
    constructor
    · intro hc
      refine ⟨hc.trans (htop u), fun v hv => ?_⟩
      rcases List.mem_cons.mp hv with rfl | hv
      · exact hc
      · exact le_trans hc (hu v hv)
    · exact fun hc => hc.2 u (.head _)

omit [LinearOrder α] in
theorem first_eq_or (top : α) (cur : T → α) (q : List T) :
    first top cur q = top ∨ ∃ t ∈ q, first top cur q = cur t := by
  cases q with
  | nil => exact .inl rfl
  | cons u us => exact .inr ⟨u, .head _, rfl⟩

/-- Insertion behind the threads that are at least as urgent. -/
theorem Ascending.insert [DecidableRel fun t u : T => cur t < cur u] (h : Ascending cur q) (t : T) :
    Ascending cur (q.orderedInsert (fun t u => cur t < cur u) t) := by
  induction q with
  | nil => exact List.pairwise_singleton _ _
  | cons u us ih =>
    obtain ⟨hu, hus⟩ := List.pairwise_cons.mp h
    rw [List.orderedInsert]
    split_ifs with htu
    · refine List.pairwise_cons.mpr ⟨fun v hv => ?_, h⟩
      rcases List.mem_cons.mp hv with rfl | hv
      · exact htu.le
      · exact htu.le.trans (hu v hv)
    · refine List.pairwise_cons.mpr ⟨fun v hv => ?_, ih hus⟩
      rcases (List.mem_orderedInsert _).mp hv with rfl | hv
      · exact not_lt.mp htu
      · exact hu v hv

/-- Of the queue and the thread inserted, the more urgent comes first. -/
theorem Ascending.first_insert [DecidableRel fun t u : T => cur t < cur u] (h : Ascending cur q)
    (htop : ∀ t, cur t ≤ top) (t : T) :
    first top cur (q.orderedInsert (fun t u => cur t < cur u) t) = min (first top cur q) (cur t) := by
  refine eq_of_forall_le_iff fun c => ?_
  rw [(h.insert t).le_first_iff htop, le_min_iff, h.le_first_iff htop]
  simp only [List.mem_orderedInsert, forall_eq_or_imp]
  tauto

/-- A thread of the queue becomes more urgent. -/
theorem Ascending.first_requeue [DecidableEq T] [DecidableRel fun t u : T => cur' t < cur' u]
    (h : Ascending cur q) (hnodup : q.Nodup) (htop : ∀ t, cur t ≤ top)
    (hcur : ∀ u ≠ t, cur' u = cur u) (hle : cur' t ≤ cur t) :
    Ascending cur' ((q.erase t).orderedInsert (fun t u => cur' t < cur' u) t) ∧
      first top cur' ((q.erase t).orderedInsert (fun t u => cur' t < cur' u) t) =
        min (first top cur q) (cur' t) := by
  have hne : ∀ u ∈ q.erase t, u ≠ t := fun u hu => (hnodup.mem_erase_iff.mp hu).1
  have herase : Ascending cur' (q.erase t) :=
    Ascending.congr (h.sublist List.erase_sublist) fun u hu => hcur u (hne u hu)
  have htop' : ∀ u, cur' u ≤ top := fun u => by
    rcases eq_or_ne u t with rfl | hu
    · exact hle.trans (htop u)
    · exact (hcur u hu).le.trans (htop u)
  refine ⟨herase.insert t, ?_⟩
  rw [herase.first_insert htop' t]
  refine eq_of_forall_le_iff fun c => ?_
  rw [le_min_iff, le_min_iff, herase.le_first_iff htop', h.le_first_iff htop]
  constructor
  · rintro ⟨⟨hc, hrest⟩, hct⟩
    refine ⟨⟨hc, fun u hu => ?_⟩, hct⟩
    rcases eq_or_ne u t with rfl | hut
    · exact hct.trans hle
    · rw [← hcur u hut]
      exact hrest u (hnodup.mem_erase_iff.mpr ⟨hut, hu⟩)
  · rintro ⟨⟨hc, hall⟩, hct⟩
    refine ⟨⟨hc, fun u hu => ?_⟩, hct⟩
    rw [hcur u (hne u hu)]
    exact hall u (List.mem_of_mem_erase hu)

end Inherit
