import Mathlib.Data.List.Count
import Mathlib.Order.Lattice
import Mathlib.Tactic.Linarith

/-! Counting: in a list in order, and into bins. -/
namespace Sorted
variable {α : Type*} [LinearOrder α] {l : List α} {x : α}

/-- `bisect.bisect_right`, of a list in order. -/
def bisectRight (l : List α) (x : α) : Nat := (l.takeWhile fun y => decide (y ≤ x)).length

/-- What bisection leaves is what lies above. -/
theorem length_sub_bisectRight (h : l.Pairwise (· ≤ ·)) (x : α) :
    l.length - bisectRight l x = l.countP fun y => decide (x < y) := by
  induction l with
  | nil => rfl
  | cons y l ih =>
    obtain ⟨hy, hl⟩ := List.pairwise_cons.mp h
    by_cases hyx : y ≤ x
    · have hrest := ih hl
      rw [bisectRight] at hrest ⊢
      rw [List.takeWhile_cons_of_pos (by simpa using hyx), List.countP_cons_of_neg (by simpa using hyx),
        ← hrest, List.length_cons, List.length_cons, Nat.add_sub_add_right]
    · have habove : (y :: l).countP (fun z => decide (x < z)) = (y :: l).length := by
        rw [List.countP_eq_length]
        intro z hz
        have hxy : x < y := not_le.mp hyx
        cases List.mem_cons.mp hz with
        | inl heq => simpa [heq] using hxy
        | inr hz => simpa using hxy.trans_le (hy z hz)
      rw [bisectRight, List.takeWhile_cons_of_neg (by simpa using hyx), habove]
      rfl

theorem getElem_mono (h : l.Pairwise (· ≤ ·)) {i j : Nat} (hij : i ≤ j) (hi : i < l.length)
    (hj : j < l.length) : l[i] ≤ l[j] := by
  cases Nat.lt_or_eq_of_le hij with
  | inl hlt => exact List.pairwise_iff_getElem.mp h i j hi hj hlt
  | inr heq =>
    subst heq
    exact le_rfl

/-- Above a value there are no more elements than those after the ones that it bounds. -/
theorem countP_above_le {k : Nat} (h : ∀ y ∈ l.take k, y ≤ x) :
    l.countP (fun y => decide (x < y)) ≤ l.length - k := by
  have hlow : (l.take k).countP (fun y => decide (x < y)) = 0 := by
    rw [List.countP_eq_zero]
    intro y hy
    simpa using h y hy
  calc
    l.countP (fun y => decide (x < y))
    _ = (l.drop k).countP (fun y => decide (x < y)) := by
      conv_lhs => rw [← List.take_append_drop k l, List.countP_append, hlow, Nat.zero_add]
    _ ≤ (l.drop k).length := List.countP_le_length
    _ = l.length - k := List.length_drop

theorem take_le_getElem (h : l.Pairwise (· ≤ ·)) {i : Nat} (hi : i < l.length) :
    ∀ y ∈ l.take (i + 1), y ≤ l[i] := by
  intro y hy
  obtain ⟨j, hj, rfl⟩ := List.mem_take_iff_getElem.mp hy
  exact getElem_mono h (by omega) (by omega) hi

/-- Above a larger value there are no more elements. -/
theorem countP_above_anti {y : α} (h : x ≤ y) :
    l.countP (fun z => decide (y < z)) ≤ l.countP fun z => decide (x < z) := by
  refine List.countP_mono_left fun z _ hz => ?_
  rw [decide_eq_true_eq] at hz ⊢
  exact h.trans_lt hz

end Sorted

/-! Bins. -/
namespace Tally
variable {α : Type*}

/-- One more in a bin; from the end, for a negative index, and none where there is no bin. -/
def bump (counts : List Nat) (index : Int) : Option (List Nat) :=
  let place := if index < 0 then index + counts.length else index
  if 0 ≤ place ∧ place < counts.length then some (counts.modify place.toNat (· + 1)) else none

/-- Every element goes into the bin of its place. -/
def fill (place : α → Int) (l : List α) (counts : List Nat) : Option (List Nat) :=
  l.foldlM (fun counts x => bump counts (place x)) counts

theorem bump_eq {counts : List Nat} {i : Nat} (hi : i < counts.length) :
    bump counts i = some (counts.modify i (· + 1)) := by
  unfold bump
  dsimp only
  have hplace : ¬(i : Int) < 0 := by omega
  rw [if_neg hplace, if_pos (by omega), Int.toNat_natCast]

theorem fill_congr {place place' : α → Int} {l : List α} {counts : List Nat}
    (h : ∀ x ∈ l, place x = place' x) : fill place l counts = fill place' l counts := by
  induction l generalizing counts with
  | nil => rfl
  | cons x l ih =>
    rw [fill, fill, List.foldlM_cons, List.foldlM_cons, h x List.mem_cons_self]
    refine congrArg (Option.bind _) (funext fun bumped => ?_)
    exact ih fun y hy => h y (List.mem_cons_of_mem x hy)

/-- Each bin holds what it held and the elements that are placed there. -/
theorem fill_eq {place : α → Nat} {l : List α} {counts : List Nat}
    (h : ∀ x ∈ l, place x < counts.length) :
    ∃ filled, fill (fun x => (place x : Int)) l counts = some filled ∧
      filled.length = counts.length ∧
      ∀ i, filled[i]? = counts[i]?.map (· + l.countP fun x => decide (place x = i)) := by
  induction l generalizing counts with
  | nil => exact ⟨counts, rfl, rfl, fun i => by cases counts[i]? <;> rfl⟩
  | cons x l ih =>
    have hx := h x List.mem_cons_self
    obtain ⟨filled, hfill, hlen, hcount⟩ := @ih (counts.modify (place x) (· + 1)) fun y hy => by
      rw [List.length_modify]
      exact h y (List.mem_cons_of_mem x hy)
    refine ⟨filled, ?_, by rw [hlen, List.length_modify], fun i => ?_⟩
    · rw [fill, List.foldlM_cons, bump_eq hx]
      exact hfill
    · rw [hcount, List.getElem?_modify, List.countP_cons, Option.map_eq_map, Option.map_map]
      by_cases hi : place x = i
      · simp [hi, Function.comp_def, Nat.add_assoc, Nat.add_comm 1]
      · simp [hi, Function.comp_def]

/-- What the bins hold together. -/
theorem sum_bump {counts : List Nat} {i : Nat} (hi : i < counts.length) :
    (counts.modify i (· + 1)).sum = counts.sum + 1 := by
  induction counts generalizing i with
  | nil => cases hi
  | cons c counts ih =>
    cases i with
    | zero =>
      rw [List.modify_zero_cons, List.sum_cons, List.sum_cons]
      omega
    | succ i =>
      rw [List.modify_succ_cons, List.sum_cons, List.sum_cons, ih (Nat.lt_of_succ_lt_succ hi)]
      omega

theorem sum_fill {place : α → Nat} {l : List α} {counts filled : List Nat}
    (h : ∀ x ∈ l, place x < counts.length)
    (hfill : fill (fun x => (place x : Int)) l counts = some filled) :
    filled.sum = counts.sum + l.length := by
  induction l generalizing counts with
  | nil =>
    cases hfill
    rfl
  | cons x l ih =>
    have hx := h x List.mem_cons_self
    rw [fill, List.foldlM_cons, bump_eq hx] at hfill
    have hrest := @ih (counts.modify (place x) (· + 1)) (fun y hy => by
      rw [List.length_modify]
      exact h y (List.mem_cons_of_mem x hy)) hfill
    rw [hrest, sum_bump hx, List.length_cons]
    omega

end Tally
