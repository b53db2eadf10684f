import Mathlib.Data.List.Basic
import Mathlib.Tactic.Common

/-! Exclusive locks over a list of tasks. Which locks a task has follows from its own state,
so a task acquires, keeps and gives up locks by moving from state to state. -/
namespace Locks
variable {τ ρ : Type*} {held : τ → List ρ} {tasks : List τ} {i j : Nat} {r : ρ} {t : τ}

def HoldsAt (held : τ → List ρ) (tasks : List τ) (i : Nat) (r : ρ) : Prop :=
  ∃ t, tasks[i]? = some t ∧ r ∈ held t

/-- No lock is held twice. -/
def Exclusive (held : τ → List ρ) (tasks : List τ) : Prop :=
  ∀ i j r, HoldsAt held tasks i r → HoldsAt held tasks j r → i = j

/-- The lock is held by a task other than the one at `i`. -/
def heldByOther [DecidableEq ρ] (held : τ → List ρ) (tasks : List τ) (i : Nat) (r : ρ) : Bool :=
  (tasks.eraseIdx i).any fun t => r ∈ held t

theorem HoldsAt.of_getElem? (h : tasks[i]? = some t) (hr : r ∈ held t) :
    HoldsAt held tasks i r := ⟨t, h, hr⟩

theorem free_of_not_heldByOther [DecidableEq ρ] (h : heldByOther held tasks i r = false)
    (hj : HoldsAt held tasks j r) : j = i := by
  by_contra hne
  obtain ⟨t, ht, hr⟩ := hj
  have hmem : t ∈ tasks.eraseIdx i := List.mem_eraseIdx_iff_getElem?.mpr ⟨j, hne, ht⟩
  have hall := List.any_eq_false.mp h t hmem
  simp [hr] at hall

theorem heldByOther_of_ne [DecidableEq ρ] (hne : j ≠ i) (h : tasks[j]? = some t)
    (hr : r ∈ held t) : heldByOther held tasks i r = true := by
  by_contra hfree
  exact hne (free_of_not_heldByOther (Bool.eq_false_iff.mpr hfree) ⟨t, h, hr⟩)

/-- What the others hold does not depend on the task itself. -/
theorem heldByOther_set [DecidableEq ρ] (held : τ → List ρ) (tasks : List τ) (i : Nat) (t : τ)
    (r : ρ) : heldByOther held (tasks.set i t) i r = heldByOther held tasks i r := by
  unfold heldByOther
  rw [List.eraseIdx_set_eq]

/-- After a move of the task at `i` the others are at their places. -/
theorem getElem?_set {u : τ} (h : (tasks.set i t)[j]? = some u) :
    (j = i ∧ u = t) ∨ (j ≠ i ∧ tasks[j]? = some u) := by
  rw [List.getElem?_set] at h
  by_cases hij : i = j
  · rw [if_pos hij] at h
    split_ifs at h
    exact .inl ⟨hij.symm, (Option.some.inj h).symm⟩
  · rw [if_neg hij] at h
    exact .inr ⟨Ne.symm hij, h⟩

theorem mem_set {u : τ} (h : u ∈ tasks.set i t) : u = t ∨ ∃ j, j ≠ i ∧ tasks[j]? = some u := by
  obtain ⟨j, hj⟩ := List.mem_iff_getElem?.mp h
  cases getElem?_set hj with
  | inl hmoved => exact .inl hmoved.2
  | inr hother => exact .inr ⟨j, hother⟩

/-- What a move keeps of its task, every task of before has a successor with. -/
theorem exists_mem_set {β : Type*} {f : τ → β} {u : τ} (hi : tasks[i]? = some u) (hf : f t = f u)
    {v : τ} (hv : v ∈ tasks) : ∃ v' ∈ tasks.set i t, f v' = f v := by
  obtain ⟨j, hj⟩ := List.mem_iff_getElem?.mp hv
  by_cases hij : j = i
  · rw [hij, hi] at hj
    obtain rfl := Option.some.inj hj
    exact ⟨t, List.mem_of_getElem? (List.getElem?_set_self (List.getElem?_eq_some_iff.mp hi).1), hf⟩
  · exact ⟨v, List.mem_of_getElem? ((List.getElem?_set_ne (Ne.symm hij)).trans hj), rfl⟩

/-- The outcomes of the tasks, after one that had none has moved. -/
theorem filterMap_set_perm {β : Type*} {f : τ → Option β} {u : τ} (hi : tasks[i]? = some u)
    (hu : f u = none) :
    ((tasks.set i t).filterMap f).Perm (tasks.filterMap f ++ (f t).toList) := by
  induction tasks generalizing i with
  | nil => cases hi
  | cons v tasks ih =>
    cases i with
    | zero =>
      obtain rfl := Option.some.inj hi
      rw [List.set_cons_zero, List.filterMap_cons, List.filterMap_cons, hu]
      cases f t with
      | none => simp
      | some b => simpa using (List.perm_append_singleton b _).symm
    | succ i =>
      rw [List.set_cons_succ, List.filterMap_cons, List.filterMap_cons]
      cases f v with
      | none => exact ih hi
      | some b => exact (ih hi).cons b

/-- After a move of the task at `i` every other task holds what it held. -/
theorem holdsAt_set (h : HoldsAt held (tasks.set i t) j r) :
    (j = i ∧ r ∈ held t) ∨ (j ≠ i ∧ HoldsAt held tasks j r) := by
  obtain ⟨x, hx, hr⟩ := h
  cases getElem?_set hx with
  | inl hmoved => exact .inl ⟨hmoved.1, hmoved.2 ▸ hr⟩
  | inr hother => exact .inr ⟨hother.1, x, hother.2, hr⟩

theorem holdsAt_append (h : HoldsAt held (tasks ++ [t]) j r) :
    HoldsAt held tasks j r ∨ (j = tasks.length ∧ r ∈ held t) := by
  obtain ⟨x, hx, hr⟩ := h
  rw [List.getElem?_append] at hx
  split_ifs at hx with hl
  · exact .inl ⟨x, hx, hr⟩
  · rw [List.getElem?_singleton] at hx
    split_ifs at hx
    have he : t = x := Option.some.inj hx
    exact .inr ⟨by omega, he ▸ hr⟩

/-- A move keeps exclusion when every lock of the new state was held by the mover, or by
no other task. -/
theorem Exclusive.set [DecidableEq ρ] (h : Exclusive held tasks)
    (hnew : ∀ r ∈ held t, HoldsAt held tasks i r ∨ heldByOther held tasks i r = false) :
    Exclusive held (tasks.set i t) := by
  have alone : ∀ j r, r ∈ held t → HoldsAt held tasks j r → j = i := by
    intro j r hr hj
    cases hnew r hr with
    | inl hi => exact h j i r hj hi
    | inr hfree => exact free_of_not_heldByOther hfree hj
  intro j k r hj hk
  cases holdsAt_set hj with
  | inl hj =>
    cases holdsAt_set hk with
    | inl hk => rw [hj.1, hk.1]
    | inr hk => exact absurd (alone k r hj.2 hk.2) hk.1
  | inr hj =>
    cases holdsAt_set hk with
    | inl hk => exact absurd (alone j r hk.2 hj.2) hj.1
    | inr hk => exact h j k r hj.2 hk.2

/-- What no task holds a new one may hold. -/
theorem Exclusive.append_of_fresh (h : Exclusive held tasks)
    (hnew : ∀ r ∈ held t, ∀ u ∈ tasks, r ∉ held u) : Exclusive held (tasks ++ [t]) := by
  have absent : ∀ {j r}, r ∈ held t → ¬HoldsAt held tasks j r := by
    intro j r hr hj
    obtain ⟨u, hu, hru⟩ := hj
    exact hnew r hr u (List.mem_of_getElem? hu) hru
  intro j k r hj hk
  cases holdsAt_append hj with
  | inl hj =>
    cases holdsAt_append hk with
    | inl hk => exact h j k r hj hk
    | inr hk => exact absurd hj (absent hk.2)
  | inr hj =>
    cases holdsAt_append hk with
    | inl hk => exact absurd hk (absent hj.2)
    | inr hk => rw [hj.1, hk.1]

theorem Exclusive.append (h : Exclusive held tasks) (hnew : held t = []) :
    Exclusive held (tasks ++ [t]) :=
  h.append_of_fresh fun r hr => by simp [hnew] at hr

theorem exclusive_nil : Exclusive held [] := by
  intro i j r hi
  obtain ⟨t, ht, -⟩ := hi
  cases ht

/-- What two different tasks hold is disjoint. -/
theorem Exclusive.disjoint (h : Exclusive held tasks) {u : τ} (hi : tasks[i]? = some t)
    (hj : tasks[j]? = some u) (hne : i ≠ j) : ∀ r ∈ held t, r ∉ held u :=
  fun r hr hu => hne (h i j r ⟨t, hi, hr⟩ ⟨u, hj, hu⟩)
end Locks
