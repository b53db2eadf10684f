import Mathlib.Data.List.Basic
import Mathlib.Tactic.Common

/-! Finite runs of a total step function. An event that is not enabled leaves the
state as it is, so every list of events is a run and every order of steps is one. -/
namespace Runs
variable {σ τ ε δ : Type*}

def run (step : σ → ε → σ) : σ → List ε → σ
  | s, [] => s
  | s, e :: es => run step (step s e) es

/-- Every step of the run satisfies `P`, evaluated in the state before the step. -/
def Along (step : σ → ε → σ) (P : σ → ε → Prop) : σ → List ε → Prop
  | _, [] => True
  | s, e :: es => P s e ∧ Along step P (step s e) es

instance Along.decidable (step : σ → ε → σ) (P : σ → ε → Prop) [∀ s e, Decidable (P s e)] :
    (s : σ) → (es : List ε) → Decidable (Along step P s es)
  | _, [] => inferInstanceAs (Decidable True)
  | s, e :: es =>
    have := Along.decidable step P (step s e) es
    inferInstanceAs (Decidable (P s e ∧ Along step P (step s e) es))

/-- Every state the run passes through satisfies `Q`, the first and the last included. -/
def Always (step : σ → ε → σ) (Q : σ → Prop) : σ → List ε → Prop
  | s, [] => Q s
  | s, e :: es => Q s ∧ Always step Q (step s e) es

/-- The total weight of the steps of the run, each weighed in the state before it. -/
def tally (step : σ → ε → σ) (weight : σ → ε → Nat) : σ → List ε → Nat
  | _, [] => 0
  | s, e :: es => weight s e + tally step weight (step s e) es

/-- What the steps of the run show, each observed in the state before it. -/
def collect {ω : Type*} (step : σ → ε → σ) (obs : σ → ε → Option ω) : σ → List ε → List ω
  | _, [] => []
  | s, e :: es => (obs s e).toList ++ collect step obs (step s e) es

section
variable (step : σ → ε → σ)

theorem run_append (s : σ) (es fs : List ε) :
    run step s (es ++ fs) = run step (run step s es) fs := by
  induction es generalizing s with
  | nil => rfl
  | cons e es ih => simpa [run] using ih (step s e)

theorem run_snoc (s : σ) (es : List ε) (e : ε) :
    run step s (es ++ [e]) = step (run step s es) e := by
  simp [run_append, run]

theorem along_append (P : σ → ε → Prop) (s : σ) (es fs : List ε) :
    Along step P s (es ++ fs) ↔ Along step P s es ∧ Along step P (run step s es) fs := by
  induction es generalizing s with
  | nil => simp [Along, run]
  | cons e es ih => simp [Along, run, ih, and_assoc]

end

section Invariants
variable {step : σ → ε → σ} {I Q : σ → Prop} {P R : σ → ε → Prop}

theorem run_invariant (keep : ∀ s e, I s → I (step s e)) {s : σ} (hs : I s) (es : List ε) :
    I (run step s es) := by
  induction es generalizing s with
  | nil => exact hs
  | cons e es ih => exact ih (keep s e hs)

theorem run_along (keep : ∀ s e, I s → P s e → I (step s e)) {s : σ} (hs : I s) {es : List ε}
    (h : Along step P s es) : I (run step s es) := by
  induction es generalizing s with
  | nil => exact hs
  | cons e es ih => exact ih (keep s e hs h.1) h.2

theorem always_of_along (keep : ∀ s e, I s → P s e → I (step s e)) (hQ : ∀ s, I s → Q s)
    {s : σ} {es : List ε} (hs : I s) (h : Along step P s es) : Always step Q s es := by
  induction es generalizing s with
  | nil => exact hQ s hs
  | cons e es ih => exact ⟨hQ s hs, ih (keep s e hs h.1) h.2⟩

/-- When `P` tells exactly the steps that keep `Q`, it tells exactly the runs that do. -/
theorem always_iff_along (keep : ∀ s e, I s → I (step s e))
    (exact : ∀ s e, I s → Q s → (Q (step s e) ↔ P s e)) {s : σ} (hs : I s) (hq : Q s)
    (es : List ε) : Always step Q s es ↔ Along step P s es := by
  induction es generalizing s with
  | nil => exact ⟨fun _ => trivial, fun _ => hq⟩
  | cons e es ih =>
    have hstep := exact s e hs hq
    constructor
    · intro h
      have hnext : Q (step s e) := by
        cases es with
        | nil => exact h.2
        | cons f fs => exact h.2.1
      exact ⟨hstep.mp hnext, (ih (keep s e hs) hnext).mp h.2⟩
    · intro h
      have hnext := hstep.mpr h.1
      exact ⟨hq, (ih (keep s e hs) hnext).mpr h.2⟩

/-- Two step conditions that agree wherever the invariant holds accept the same runs,
when a step that meets the first keeps the invariant. -/
theorem along_congr (keep : ∀ s e, I s → P s e → I (step s e))
    (agree : ∀ s e, I s → (P s e ↔ R s e)) {s : σ} (hs : I s) (es : List ε) :
    Along step P s es ↔ Along step R s es := by
  induction es generalizing s with
  | nil => exact Iff.rfl
  | cons e es ih =>
    constructor
    · rintro ⟨hp, ht⟩
      exact ⟨(agree s e hs).mp hp, (ih (keep s e hs hp)).mp ht⟩
    · rintro ⟨hr, ht⟩
      have hp := (agree s e hs).mpr hr
      exact ⟨hp, (ih (keep s e hs hp)).mpr ht⟩

/-- What an invariant implies of every step holds along every run. -/
theorem along_of_invariant (keep : ∀ s e, I s → I (step s e)) (imply : ∀ s e, I s → R s e)
    {s : σ} (hs : I s) (es : List ε) : Along step R s es := by
  induction es generalizing s with
  | nil => trivial
  | cons e es ih => exact ⟨imply s e hs, ih (keep s e hs)⟩

/-- A step condition that keeps an invariant passes on to what both of them imply. -/
theorem along_mono (keep : ∀ s e, I s → P s e → I (step s e))
    (imply : ∀ s e, I s → P s e → R s e) {s : σ} {es : List ε} (hs : I s)
    (h : Along step P s es) : Along step R s es := by
  induction es generalizing s with
  | nil => trivial
  | cons e es ih => exact ⟨imply s e hs h.1, ih (keep s e hs h.1) h.2⟩

/-- A run satisfies what the last step of each of its beginnings does. -/
theorem along_of_prefixes {s : σ} {es : List ε}
    (h : ∀ earlier e later, es = earlier ++ e :: later → P (run step s earlier) e) :
    Along step P s es := by
  induction es generalizing s with
  | nil => trivial
  | cons e es ih =>
    refine ⟨h [] e es rfl, ih fun earlier f later he => ?_⟩
    exact h (e :: earlier) f later (by rw [he]; rfl)

/-- A step relation that is reflexive and transitive relates the ends of every run. -/
theorem run_rel (rel : σ → σ → Prop) (hrefl : ∀ s, rel s s)
    (htrans : ∀ {a b c}, rel a b → rel b c → rel a c) (hstep : ∀ s e, I s → rel s (step s e))
    (keep : ∀ s e, I s → I (step s e)) {s : σ} (hs : I s) (es : List ε) :
    rel s (run step s es) := by
  induction es generalizing s with
  | nil => exact hrefl s
  | cons e es ih => exact htrans (hstep s e hs) (ih (keep s e hs))

/-- An invariant of the events so far, of what they have shown and of the state. -/
theorem collect_invariant {ω : Type*} {obs : σ → ε → Option ω} {H : List ε → List ω → σ → Prop}
    (keep : ∀ past log s e, H past log s →
      H (past ++ [e]) (log ++ (obs s e).toList) (step s e))
    {s : σ} (hs : H [] [] s) (es : List ε) : H es (collect step obs s es) (run step s es) := by
  have extend : ∀ (es past : List ε) log s, H past log s →
      H (past ++ es) (log ++ collect step obs s es) (run step s es) := by
    intro es
    induction es with
    | nil =>
      intro past log s h
      simpa [collect, run] using h
    | cons e es ih =>
      intro past log s h
      have hrest := ih (past ++ [e]) (log ++ (obs s e).toList) (step s e) (keep past log s e h)
      simpa [collect, run] using hrest
  simpa using extend es [] [] s hs

/-- An invariant of the events so far and of the state that they have led to. -/
theorem history_invariant {H : List ε → σ → Prop}
    (keep : ∀ past s e, H past s → P s e → H (past ++ [e]) (step s e))
    {s : σ} (hs : H [] s) {es : List ε} (h : Along step P s es) : H es (run step s es) := by
  have extend : ∀ (es past : List ε) s, H past s → Along step P s es →
      H (past ++ es) (run step s es) := by
    intro es
    induction es with
    | nil =>
      intro past s hpast _
      rw [List.append_nil]
      exact hpast
    | cons e es ih =>
      intro past s hpast h
      have hrest := ih (past ++ [e]) (step s e) (keep past s e hpast h.1) h.2
      rw [List.append_assoc] at hrest
      exact hrest
  exact extend es [] s hs h

/-- What a run has shown, some step of it has shown. -/
theorem mem_collect {ω : Type*} {obs : σ → ε → Option ω} {w : ω} {s : σ} {es : List ε}
    (h : w ∈ collect step obs s es) :
    ∃ earlier e later, es = earlier ++ e :: later ∧ obs (run step s earlier) e = some w := by
  induction es generalizing s with
  | nil => cases h
  | cons e es ih =>
    cases List.mem_append.mp h with
    | inl hfirst => exact ⟨[], e, es, rfl, Option.mem_toList.mp hfirst⟩
    | inr hrest =>
      obtain ⟨earlier, f, later, he, hw⟩ := ih hrest
      exact ⟨e :: earlier, f, later, by rw [he]; rfl, hw⟩

/-- Steps that each raise a potential by their weight raise it by the tally of the run. -/
theorem tally_le (weight : σ → ε → Nat) (potential : σ → Nat)
    (raise : ∀ s e, potential s + weight s e ≤ potential (step s e)) (s : σ) (es : List ε) :
    potential s + tally step weight s es ≤ potential (run step s es) := by
  induction es generalizing s with
  | nil => exact Nat.le_refl _
  | cons e es ih =>
    have hfirst := raise s e
    have hrest := ih (step s e)
    simp only [tally, run]
    omega
end Invariants

section Simulation
variable {step : σ → ε → σ} {step' : τ → δ → τ} {I : σ → Prop}

/-- When each step is matched by some abstract events, a whole run is an abstract run. -/
theorem run_simulates (abs : σ → τ) (keep : ∀ s e, I s → I (step s e))
    (sim : ∀ s e, I s → ∃ ds, abs (step s e) = run step' (abs s) ds)
    {s : σ} (hs : I s) (es : List ε) : ∃ ds, abs (run step s es) = run step' (abs s) ds := by
  induction es generalizing s with
  | nil => exact ⟨[], rfl⟩
  | cons e es ih =>
    obtain ⟨ds, hd⟩ := sim s e hs
    obtain ⟨ds', hd'⟩ := ih (keep s e hs)
    refine ⟨ds ++ ds', ?_⟩
    rw [run, hd', hd, run_append]
end Simulation
end Runs
