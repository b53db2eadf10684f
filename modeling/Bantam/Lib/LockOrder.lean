import Bantam.Lib.Locks
import Bantam.Lib.Runs
import Mathlib.Logic.Relation
import Mathlib.Order.Lattice

/-! Operations that take exclusive locks one after the other and give them up together. If every
program takes its locks in ascending order, no operations wait for each other in a cycle. -/
namespace LockOrder
variable {ρ κ ο : Type*}

/-- An operation under way: the locks it has, and those it has yet to take, in order. -/
structure Task (ρ : Type*) where
  held : List ρ
  rest : List ρ
  deriving DecidableEq

/-- An operation waits at `acquire` for the next lock, passes over a lock that it does not need
after all, and ends anywhere. -/
inductive Event (ο : Type*) where
  | begin (operation : ο)
  | acquire (i : Nat)
  | skip (i : Nat)
  | finish (i : Nat)

def step [DecidableEq ρ] (program : ο → List ρ) (tasks : List (Task ρ)) :
    Event ο → List (Task ρ)
  | .begin operation => tasks ++ [⟨[], program operation⟩]
  | .acquire i =>
    match tasks[i]? with
    | some ⟨held, r :: rest⟩ =>
      if Locks.heldByOther Task.held tasks i r then tasks
      else tasks.set i ⟨held ++ [r], rest⟩
    | _ => tasks
  | .skip i =>
    match tasks[i]? with
    | some ⟨held, _ :: rest⟩ => tasks.set i ⟨held, rest⟩
    | _ => tasks
  | .finish i => tasks.set i ⟨[], []⟩

/-- The operation at `i` waits for a lock that the one at `j` has. -/
def WaitsFor (tasks : List (Task ρ)) (i j : Nat) : Prop :=
  ∃ t u r, tasks[i]? = some t ∧ tasks[j]? = some u ∧ t.rest.head? = some r ∧ r ∈ u.held

variable [LinearOrder κ] {rank : ρ → κ} {tasks : List (Task ρ)}

/-- The locks that the operation has and takes are in ascending order. -/
def Task.Ascending (rank : ρ → κ) (t : Task ρ) : Prop :=
  (t.held ++ t.rest).Pairwise fun r q => rank r < rank q

/-- What an operation has comes before what it waits for. -/
theorem Task.Ascending.held_lt {t : Task ρ} (h : t.Ascending rank) {r q : ρ}
    (hr : t.rest.head? = some r) (hq : q ∈ t.held) : rank q < rank r :=
  (List.pairwise_append.mp h).2.2 q hq r (List.mem_of_head? hr)

/-- Along a chain of waiting operations the locks ascend. -/
theorem chain_le (h : ∀ t ∈ tasks, t.Ascending rank) {i k : Nat}
    (hchain : Relation.TransGen (WaitsFor tasks) i k) :
    ∃ t u r q, tasks[i]? = some t ∧ tasks[k]? = some u ∧ t.rest.head? = some r ∧ q ∈ u.held ∧
      rank r ≤ rank q := by
  induction hchain with
  | single hwaits =>
    obtain ⟨t, u, r, ht, hu, hr, hq⟩ := hwaits
    exact ⟨t, u, r, r, ht, hu, hr, hq, le_refl _⟩
  | tail _ hwaits ih =>
    obtain ⟨t, u, r, q, ht, hu, hr, hq, hle⟩ := ih
    obtain ⟨u', v, r', hu', hv, hr', hq'⟩ := hwaits
    have hsame : u = u' := Option.some.inj (hu.symm.trans hu')
    have hlt := (h u' (List.mem_of_getElem? hu')).held_lt hr' (hsame ▸ hq)
    exact ⟨t, v, r, r', ht, hv, hr, hq', le_trans hle (le_of_lt hlt)⟩

theorem no_cycle (h : ∀ t ∈ tasks, t.Ascending rank) (i : Nat) :
    ¬Relation.TransGen (WaitsFor tasks) i i := by
  intro hcycle
  obtain ⟨t, u, r, q, ht, hu, hr, hq, hle⟩ := chain_le h hcycle
  have hsame : t = u := Option.some.inj (ht.symm.trans hu)
  have hlt := (h t (List.mem_of_getElem? ht)).held_lt hr (hsame ▸ hq)
  exact absurd hlt (not_lt.mpr hle)

theorem ascending_set {t : Task ρ} {i : Nat} (h : ∀ t ∈ tasks, t.Ascending rank)
    (ht : t.Ascending rank) : ∀ u ∈ tasks.set i t, u.Ascending rank := by
  intro u hu
  cases Locks.mem_set hu with
  | inl hnew => exact hnew ▸ ht
  | inr hother =>
    obtain ⟨j, -, hj⟩ := hother
    exact h u (List.mem_of_getElem? hj)

theorem set_same {t : Task ρ} {i : Nat} (hi : tasks[i]? = some t) : tasks.set i t = tasks := by
  obtain ⟨hlt, rfl⟩ := List.getElem?_eq_some_iff.mp hi
  exact List.set_getElem_self hlt

section Steps
variable [DecidableEq ρ] {program : ο → List ρ}

theorem ascending_step (hprogram : ∀ o, (program o).Pairwise fun r q => rank r < rank q)
    (tasks : List (Task ρ)) (e : Event ο) (h : ∀ t ∈ tasks, t.Ascending rank) :
    ∀ t ∈ step program tasks e, t.Ascending rank := by
  cases e with
  | begin operation =>
    intro t ht
    cases List.mem_append.mp ht with
    | inl ht => exact h t ht
    | inr ht =>
      rw [List.mem_singleton.mp ht]
      exact hprogram operation
  | acquire i =>
    simp only [step]
    split
    · rename_i held r rest hi
      split_ifs
      · exact h
      · refine ascending_set h ?_
        have hbefore := h _ (List.mem_of_getElem? hi)
        unfold Task.Ascending at hbefore ⊢
        rw [List.append_assoc]
        exact hbefore
    · exact h
  | skip i =>
    simp only [step]
    split
    · rename_i held r rest hi
      refine ascending_set h ?_
      have hbefore := h _ (List.mem_of_getElem? hi)
      exact hbefore.sublist ((List.sublist_cons_self r rest).append_left held)
    · exact h
  | finish i => exact ascending_set h List.Pairwise.nil

/-- An operation takes locks that no other has, one after the other. -/
theorem run_acquire {i : Nat} {held locks rest : List ρ}
    (hi : tasks[i]? = some ⟨held, locks ++ rest⟩)
    (hfree : ∀ r ∈ locks, Locks.heldByOther Task.held tasks i r = false) :
    Runs.run (step program) tasks (List.replicate locks.length (.acquire i)) =
      tasks.set i ⟨held ++ locks, rest⟩ := by
  induction locks generalizing tasks held with
  | nil =>
    rw [List.append_nil]
    exact (set_same hi).symm
  | cons r locks ih =>
    have hfirst : step program tasks (.acquire i) = tasks.set i ⟨held ++ [r], locks ++ rest⟩ := by
      simp only [step, hi, List.cons_append]
      rw [if_neg (Bool.eq_false_iff.mp (hfree r List.mem_cons_self))]
    have hnow : (tasks.set i ⟨held ++ [r], locks ++ rest⟩)[i]? =
        some ⟨held ++ [r], locks ++ rest⟩ :=
      List.getElem?_set_self (List.getElem?_eq_some_iff.mp hi).1
    have hnext := ih hnow fun q hq => by
      rw [Locks.heldByOther_set]
      exact hfree q (List.mem_cons_of_mem r hq)
    rw [List.length_cons, List.replicate_succ, Runs.run, hfirst, hnext, List.set_set,
      List.append_assoc, List.singleton_append]

/-- The locks exclude each other. -/
theorem exclusive_step (tasks : List (Task ρ)) (e : Event ο)
    (h : Locks.Exclusive Task.held tasks) :
    Locks.Exclusive Task.held (step program tasks e) := by
  cases e with
  | begin operation => exact h.append rfl
  | acquire i =>
    simp only [step]
    split
    · rename_i held r rest hi
      split_ifs with hblocked
      · exact h
      · refine h.set fun q hq => ?_
        cases List.mem_append.mp hq with
        | inl hq => exact .inl ⟨_, hi, hq⟩
        | inr hq =>
          rw [List.mem_singleton.mp hq]
          exact .inr (Bool.eq_false_iff.mpr hblocked)
    · exact h
  | skip i =>
    simp only [step]
    split
    · rename_i held r rest hi
      exact h.set fun q hq => .inl ⟨_, hi, hq⟩
    · exact h
  | finish i => exact h.set fun q hq => by cases hq

/-- From no operations, in every order of steps: the locks exclude each other, and no operations
wait for each other in a cycle. -/
theorem run_no_cycle (hprogram : ∀ o, (program o).Pairwise fun r q => rank r < rank q)
    (es : List (Event ο)) :
    Locks.Exclusive Task.held (Runs.run (step program) [] es) ∧
    ∀ i, ¬Relation.TransGen (WaitsFor (Runs.run (step program) [] es)) i i := by
  have hstart : ∀ t ∈ ([] : List (Task ρ)), t.Ascending rank := fun t ht => by cases ht
  have hascending := Runs.run_invariant (ascending_step hprogram) hstart es
  exact ⟨Runs.run_invariant exclusive_step Locks.exclusive_nil es, no_cycle hascending⟩
end Steps
end LockOrder
