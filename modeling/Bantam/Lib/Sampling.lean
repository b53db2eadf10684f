import Mathlib.Tactic.Common

/-! Programs that draw from a generator: what they draw, and when two generators give one run. -/

/-- A program over draws from `R`. A run of it ends with a result, or stops without one. -/
inductive Sampling (R α : Type) where
  | done (a : α)
  | stopped
  | draw (next : R → Sampling R α)

/-- A generator: each draw advances its state and reads the next one. -/
structure Generator (σ R : Type) where
  advance : σ → σ
  output : σ → R

namespace Sampling
variable {R α β σ τ : Type}

def bind : Sampling R α → (α → Sampling R β) → Sampling R β
  | done a, f => f a
  | stopped, _ => stopped
  | draw next, f => draw fun r => bind (next r) f

instance : Monad (Sampling R) where
  pure := done
  bind := bind

/-- One draw. -/
def random : Sampling R R := draw done

/-- The result of a run and the states of the generator after each draw. -/
def run (g : Generator σ R) : Sampling R α → σ → Option α × List σ
  | done a, _ => (some a, [])
  | stopped, _ => (none, [])
  | draw next, s =>
    let rest := run g (next (g.output (g.advance s))) (g.advance s)
    (rest.1, g.advance s :: rest.2)

/-- What a run draws. -/
def outputs (g : Generator σ R) (x : Sampling R α) (s : σ) : List R := (x.run g s).2.map g.output

/-- How often a run draws. -/
def draws (g : Generator σ R) (x : Sampling R α) (s : σ) : Nat := (x.run g s).2.length

section
variable {g : Generator σ R} {h : Generator τ R} {next : R → Sampling R α}

@[simp] theorem run_draw (g : Generator σ R) (next : R → Sampling R α) (s : σ) :
    ((draw next).run g s).2 =
      g.advance s :: ((next (g.output (g.advance s))).run g (g.advance s)).2 := rfl

@[simp] theorem draws_done (g : Generator σ R) (a : α) (s : σ) :
    (done a : Sampling R α).draws g s = 0 := rfl

@[simp] theorem draws_stopped (g : Generator σ R) (s : σ) :
    (stopped : Sampling R α).draws g s = 0 := rfl

@[simp] theorem draws_draw (g : Generator σ R) (next : R → Sampling R α) (s : σ) :
    (draw next).draws g s = (next (g.output (g.advance s))).draws g (g.advance s) + 1 := rfl

theorem length_outputs (g : Generator σ R) (x : Sampling R α) (s : σ) :
    (x.outputs g s).length = x.draws g s := List.length_map _

/-- Two generators give one run of a program when a relation of their states, with room for as many
draws as the run makes, is kept by each draw and tells that the outputs are the same. -/
theorem run_agrees {S : Nat → σ → τ → Prop}
    (hadvance : ∀ n s t, S (n + 1) s t → S n (g.advance s) (h.advance t))
    (houtput : ∀ n s t, S n s t → g.output s = h.output t) (x : Sampling R α) (s : σ) (t : τ)
    (hrelated : S (x.draws h t) s t) :
    (x.run g s).1 = (x.run h t).1 ∧ x.outputs g s = x.outputs h t := by
  induction x generalizing s t with
  | done a => exact ⟨rfl, rfl⟩
  | stopped => exact ⟨rfl, rfl⟩
  | draw next ih =>
    have hnext := hadvance _ s t hrelated
    have hsame := houtput _ _ _ hnext
    have hrest := ih (h.output (h.advance t)) (g.advance s) (h.advance t) hnext
    simp only [outputs, run, hsame, List.map_cons] at hrest ⊢
    exact ⟨hrest.1, by rw [hrest.2]⟩

/-! Programs that draw equally often whatever is drawn. -/

/-- The program draws exactly `n` times when all draws have the property. -/
def DrawsExactly (P : R → Prop) : Nat → Sampling R α → Prop
  | n, done _ => n = 0
  | _, stopped => False
  | n, draw next => ∃ m, n = m + 1 ∧ ∀ r, P r → DrawsExactly P m (next r)

variable {P : R → Prop} {n m : Nat} {x : Sampling R α} {f : α → Sampling R β}

theorem drawsExactly_bind (hx : x.DrawsExactly P n) (hf : ∀ a, (f a).DrawsExactly P m) :
    (x.bind f).DrawsExactly P (n + m) := by
  induction x generalizing n with
  | done a =>
    have hnone : n = 0 := hx
    rw [hnone, Nat.zero_add]
    exact hf a
  | stopped => exact hx.elim
  | draw next ih =>
    obtain ⟨k, rfl, hnext⟩ := hx
    exact ⟨k + m, by omega, fun r hr => ih r (hnext r hr)⟩

theorem draws_eq (hx : x.DrawsExactly P n) (hP : ∀ s, P (g.output s)) (s : σ) :
    x.draws g s = n := by
  induction x generalizing n s with
  | done a => exact hx.symm
  | stopped => exact hx.elim
  | draw next ih =>
    obtain ⟨k, rfl, hnext⟩ := hx
    rw [draws_draw, ih _ (hnext _ (hP _))]

/-! Programs that draw at least so often if they end with a result. -/

def DrawsAtLeast : Nat → Sampling R α → Prop
  | n, done _ => n = 0
  | _, stopped => True
  | n, draw next => ∀ r, DrawsAtLeast (n - 1) (next r)

theorem drawsAtLeast_zero (x : Sampling R α) : x.DrawsAtLeast 0 := by
  induction x with
  | done a => rfl
  | stopped => trivial
  | draw next ih => exact ih

theorem DrawsAtLeast.mono (h : x.DrawsAtLeast n) (hle : m ≤ n) : x.DrawsAtLeast m := by
  induction x generalizing n m with
  | done a =>
    have hnone : n = 0 := h
    exact Nat.le_zero.mp (hnone ▸ hle)
  | stopped => trivial
  | draw next ih => exact fun r => ih r (h r) (Nat.sub_le_sub_right hle 1)

theorem drawsAtLeast_bind (hx : x.DrawsAtLeast n) (hf : ∀ a, (f a).DrawsAtLeast m) :
    (x.bind f).DrawsAtLeast (n + m) := by
  induction x generalizing n with
  | done a =>
    have hnone : n = 0 := hx
    rw [hnone, Nat.zero_add]
    exact hf a
  | stopped => trivial
  | draw next ih => exact fun r => (ih r (hx r)).mono (by omega)

theorem le_draws (hx : x.DrawsAtLeast n) {s : σ} (hdone : (x.run g s).1.isSome) :
    n ≤ x.draws g s := by
  induction x generalizing n s with
  | done a => exact Nat.le_of_eq hx
  | stopped => cases hdone
  | draw next ih =>
    have hrest := ih _ (hx _) hdone
    rw [draws_draw]
    omega

end

end Sampling
