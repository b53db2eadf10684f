import Mathlib.Data.List.Forall2
import Mathlib.Tactic.Common

/-! Two runs of a program that may fail: they agree when they fail alike or return related
results. -/
namespace TwoRuns
universe u v
variable {ε : Type v} {α β γ δ : Type u} {R : α → β → Prop} {S : γ → δ → Prop}

def Agree (R : α → β → Prop) : Except ε α → Except ε β → Prop
  | .ok a, .ok b => R a b
  | .error e, .error f => e = f
  | _, _ => False

theorem Agree.same {x y : Except ε α} (h : Agree Eq x y) : x = y := by
  cases x with
  | error e =>
    cases y with
    | error f => exact congrArg Except.error h
    | ok b => exact h.elim
  | ok a =>
    cases y with
    | error f => exact h.elim
    | ok b => exact congrArg Except.ok h

theorem Agree.of_eq {R : α → α → Prop} (hrefl : ∀ a, R a a) {x y : Except ε α} (h : x = y) :
    Agree R x y := by
  subst h
  cases x with
  | error e => exact rfl
  | ok a => exact hrefl a

/-- A step that runs on related values keeps the two runs together. -/
theorem Agree.bind {x : Except ε α} {y : Except ε β} {f : α → Except ε γ} {g : β → Except ε δ}
    (h : Agree R x y) (hstep : ∀ a b, R a b → Agree S (f a) (g b)) : Agree S (x >>= f) (y >>= g) := by
  cases x with
  | error e =>
    cases y with
    | error f => exact h
    | ok b => exact h.elim
  | ok a =>
    cases y with
    | error f => exact h.elim
    | ok b => exact hstep a b h

theorem Agree.mapM {l : List α} {m : List β} {f : α → Except ε γ} {g : β → Except ε δ}
    (h : List.Forall₂ R l m) (hstep : ∀ a b, R a b → Agree S (f a) (g b)) :
    Agree (List.Forall₂ S) (l.mapM f) (m.mapM g) := by
  induction h with
  | nil => exact List.Forall₂.nil
  | cons hab _ ih =>
    rw [List.mapM_cons, List.mapM_cons]
    refine Agree.bind (hstep _ _ hab) fun c d hcd => ?_
    exact Agree.bind ih fun _ _ hrest => List.Forall₂.cons hcd hrest

/-- Related lists give the same results where related members do. -/
theorem mapM_eq {l : List α} {m : List β} {f : α → Except ε γ} {g : β → Except ε γ}
    (h : List.Forall₂ R l m) (hstep : ∀ a b, R a b → f a = g b) : l.mapM f = m.mapM g := by
  induction h with
  | nil => rfl
  | cons hab _ ih => rw [List.mapM_cons, List.mapM_cons, hstep _ _ hab, ih]

/-! Runs that may end without a result. -/

section
variable {x : Option α} {y : Option β} {f : α → Option γ} {g : β → Option δ}

theorem rel_bind (h : Option.Rel R x y)
    (hstep : ∀ a b, y = some b → R a b → Option.Rel S (f a) (g b)) :
    Option.Rel S (x.bind f) (y.bind g) := by
  cases h with
  | none => exact .none
  | some hab => exact hstep _ _ rfl hab

/-- Two runs that go on from the same result. -/
theorem rel_bind_same {g : α → Option δ}
    (hstep : ∀ a, x = some a → Option.Rel S (f a) (g a)) : Option.Rel S (x.bind f) (x.bind g) := by
  cases x with
  | none => exact .none
  | some a => exact hstep a rfl

theorem rel_map {f : α → γ} {g : β → δ} (h : Option.Rel R x y)
    (hstep : ∀ a b, R a b → S (f a) (g b)) : Option.Rel S (x.map f) (y.map g) := by
  cases h with
  | none => exact .none
  | some hab => exact .some (hstep _ _ hab)

end

end TwoRuns
