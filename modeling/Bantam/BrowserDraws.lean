import Bantam.BrowserSimulation
import Bantam.Domain
import Mathlib.Analysis.SpecialFunctions.Pow.Real
import Mathlib.Analysis.SpecialFunctions.Trigonometric.Basic

/-! How long the draws of the browser's simulation are those of a generator whose accumulator wraps
around. -/
namespace Bantam.Browser

open JsNumber

/-! Rounding. -/

section
variable {n : Nat}

theorem log2_le (h : n < 2 ^ 53) : n.log2 ≤ 52 := by
  by_cases hzero : n = 0
  · simp [hzero]
  · have hlog := (Nat.log2_lt hzero).mpr h
    omega

/-- Below 2^53 every whole number is a number. -/
theorem roundWhole_exact (h : n < 2 ^ 53) : roundWhole n = n := by
  have hunit : n.log2 - 52 = 0 := Nat.sub_eq_zero_of_le (log2_le h)
  rw [roundWhole, hunit]
  simp [Nat.mod_one]

/-- From 2^53 on no number is rounded to one below. -/
theorem le_roundWhole (h : 2 ^ 53 ≤ n) : 2 ^ 53 ≤ roundWhole n := by
  have hzero : n ≠ 0 := by omega
  have hlog : 53 ≤ n.log2 := (Nat.le_log2 hzero).mpr h
  have hdown : 2 ^ 52 ≤ n / 2 ^ (n.log2 - 52) := by
    apply (Nat.le_div_iff_mul_le (Nat.two_pow_pos _)).mpr
    rw [← Nat.pow_add, Nat.add_sub_cancel' (by omega)]
    exact Nat.log2_self_le hzero
  have hunit : 2 ≤ 2 ^ (n.log2 - 52) := by
    calc 2 = 2 ^ 1 := rfl
      _ ≤ 2 ^ (n.log2 - 52) := Nat.pow_le_pow_right (by decide) (by omega)
  have hrounded : 2 ^ 53 ≤ n / 2 ^ (n.log2 - 52) * 2 ^ (n.log2 - 52) := by
    calc 2 ^ 53 = 2 ^ 52 * 2 := rfl
      _ ≤ n / 2 ^ (n.log2 - 52) * 2 ^ (n.log2 - 52) := Nat.mul_le_mul hdown hunit
  rw [roundWhole]
  split
  · exact hrounded
  · rw [Nat.succ_mul]
    exact Nat.le_add_right_of_le hrounded

end

/-! The accumulator. -/

section
variable {F α : Type} [JsNumber F] {value : Nat}

theorem mulberry32_advance (h : value + increment < 2 ^ 53) :
    (mulberry32 (F := F)).advance value = value + increment := roundWhole_exact h

/-- An accumulator below 2^53 has been advanced exactly. -/
theorem lt_of_advance (h : (mulberry32 (F := F)).advance value < 2 ^ 53) :
    value + increment < 2 ^ 53 := by
  by_contra hlarge
  exact absurd h (Nat.not_lt.mpr (le_roundWhole (Nat.not_lt.mp hlarge)))

/-- All accumulators of a run are below 2^53 when the sum of all that is added is. -/
theorem accumulators_lt_iff (x : Sampling F α) (hvalue : value < 2 ^ 53) :
    (∀ v ∈ (x.run mulberry32 value).2, v < 2 ^ 53) ↔
      value + x.draws mulberry32 value * increment < 2 ^ 53 := by
  induction x generalizing value with
  | done a => exact iff_of_true (fun v hv => absurd hv List.not_mem_nil) (by simpa using hvalue)
  | stopped => exact iff_of_true (fun v hv => absurd hv List.not_mem_nil) (by simpa using hvalue)
  | draw next ih =>
    rw [Sampling.run_draw, Sampling.draws_draw, List.forall_mem_cons, Nat.succ_mul]
    constructor
    · rintro ⟨hfirst, hrest⟩
      have hexact : (mulberry32 (F := F)).advance value = value + increment :=
        mulberry32_advance (lt_of_advance hfirst)
      have hsum := (ih _ hfirst).mp hrest
      rw [hexact] at hsum ⊢
      omega
    · intro hsum
      have hexact : (mulberry32 (F := F)).advance value = value + increment :=
        mulberry32_advance (by omega)
      have hfirst : (mulberry32 (F := F)).advance value < 2 ^ 53 := by omega
      refine ⟨hfirst, (ih _ hfirst).mpr ?_⟩
      rw [hexact] at hsum ⊢
      omega

/-- The accumulators of a run are below 2^53 and its draws are those of the reference. -/
def ExactRun (x : Sampling F α) (seed : Nat) : Prop :=
  (∀ v ∈ (x.run mulberry32 seed).2, v < 2 ^ 53) ∧
    x.outputs mulberry32 seed = x.outputs reference (BitVec.ofNat 32 seed)

/-- The accumulators agree modulo 2^32, and so many draws are left before the sum is too large. -/
def Agree (left value : Nat) (wrapped : BitVec 32) : Prop :=
  wrapped = BitVec.ofNat 32 value ∧ value + left * increment < 2 ^ 53

theorem agree_advance {left : Nat} {wrapped : BitVec 32} (h : Agree (left + 1) value wrapped) :
    Agree left ((mulberry32 (F := F)).advance value) ((reference (F := F)).advance wrapped) := by
  obtain ⟨rfl, hsum⟩ := h
  rw [Nat.succ_mul] at hsum
  rw [mulberry32_advance (by omega)]
  refine ⟨?_, by omega⟩
  rw [BitVec.ofNat_add]
  rfl

theorem agree_output {left : Nat} {wrapped : BitVec 32} (h : Agree left value wrapped) :
    (mulberry32 (F := F)).output value = (reference (F := F)).output wrapped := by
  rw [h.1]
  rfl

/-- A run is exact when the draws that the reference gives to it are few enough. -/
theorem exactRun_iff (x : Sampling F α) {seed : Nat} (hseed : seed < 2 ^ 53) :
    ExactRun x seed ↔
      seed + x.draws reference (BitVec.ofNat 32 seed) * increment < 2 ^ 53 := by
  constructor
  · rintro ⟨hbelow, hsame⟩
    have hcount := congrArg List.length hsame
    rw [Sampling.length_outputs, Sampling.length_outputs] at hcount
    rw [← hcount]
    exact (accumulators_lt_iff x hseed).mp hbelow
  · intro hsum
    obtain ⟨_, hsame⟩ := Sampling.run_agrees (S := Agree) (fun _ _ _ => agree_advance (F := F))
      (fun _ _ _ => agree_output (F := F)) x seed (BitVec.ofNat 32 seed) ⟨rfl, hsum⟩
    have hcount := congrArg List.length hsame
    rw [Sampling.length_outputs, Sampling.length_outputs] at hcount
    rw [← hcount] at hsum
    exact ⟨(accumulators_lt_iff x hseed).mpr hsum, hsame⟩

/-! Admitted inputs. -/

variable {scenarios : List (Scenario F)} {iterations seed : Int} {tolerance : F}

/-- An admitted seed is the first accumulator. -/
theorem startValue_validated
    (h : validateSimulationInputs scenarios (some iterations) (some seed) tolerance = .ok ()) :
    startValue seed = seed.toNat ∧ seed.toNat < 2 ^ 32 := by
  have hseed : 0 ≤ seed ∧ seed < 2 ^ 32 := by
    unfold validateSimulationInputs at h
    dsimp only at h
    split at h
    · split at h
      · next hrange => exact of_decide_eq_true hrange
      · cases h
    · cases h
  rw [startValue, Int.emod_eq_of_lt hseed.1 hseed.2]
  exact ⟨rfl, by omega⟩

/-- With admitted inputs the accumulator stays exact and the draws are those of the reference
exactly when the reference has to give few enough of them. -/
theorem accumulator_exact_iff (rounds : Nat) (controls : List (Control F))
    (selectedIds : SelectedIds)
    (hvalid : validateSimulationInputs scenarios (some iterations) (some seed) tolerance = .ok ()) :
    ExactRun (simulatePortfolio rounds controls scenarios iterations seed tolerance selectedIds)
      (startValue seed) ↔
    seed.toNat + (simulatePortfolio rounds controls scenarios iterations seed tolerance
      selectedIds).draws reference (BitVec.ofNat 32 seed.toNat) * increment < 2 ^ 53 := by
  obtain ⟨hstart, hseed⟩ := startValue_validated hvalid
  rw [hstart]
  exact exactRun_iff _ (by omega)

end

/-! Draws of a portfolio. -/

section
variable {F : Type} [JsNumber F] {P : F → Prop} {rounds : Nat} {controls : List (Control F)}
  {multipliers : Dict String (Multipliers F)} {scenarios : List (Scenario F)}
  {iterations seed : Int} {tolerance : F} {selectedIds : SelectedIds}

theorem drawsAtLeast_scenarioLoss (annualLoss : F) (scenario : Scenario F) :
    (scenarioLoss rounds multipliers annualLoss scenario).DrawsAtLeast 1 := by
  rw [scenarioLoss]
  cases multipliers.get? scenario.id with
  | none => trivial
  | some reduction => exact fun _ => Sampling.drawsAtLeast_zero _

theorem drawsAtLeast_year (annualLoss : F) :
    (scenarios.foldlM (scenarioLoss rounds multipliers) annualLoss).DrawsAtLeast
      scenarios.length := by
  induction scenarios generalizing annualLoss with
  | nil => exact rfl
  | cons scenario rest ih =>
    rw [List.foldlM_cons, List.length_cons, Nat.add_comm]
    exact Sampling.drawsAtLeast_bind (drawsAtLeast_scenarioLoss annualLoss scenario) ih

theorem drawsAtLeast_yearlyLosses (years : Nat) :
    (yearlyLosses rounds multipliers scenarios years).DrawsAtLeast (years * scenarios.length) := by
  induction years with
  | zero => exact Nat.zero_mul _
  | succ years ih =>
    rw [yearlyLosses, Nat.succ_mul, Nat.add_comm]
    apply Sampling.drawsAtLeast_bind (drawsAtLeast_year _)
    intro annualLoss
    rw [← Nat.add_zero (years * scenarios.length)]
    exact Sampling.drawsAtLeast_bind ih fun _ => rfl

/-- A run that ends draws at least once for each scenario in each year. -/
theorem drawsAtLeast_portfolio :
    (simulatePortfolio rounds controls scenarios iterations seed tolerance
      selectedIds).DrawsAtLeast (iterations.toNat * scenarios.length) := by
  rw [← Nat.add_zero (iterations.toNat * scenarios.length)]
  exact Sampling.drawsAtLeast_bind (drawsAtLeast_yearlyLosses _) fun _ => rfl

/-- With too many scenarios and years no run that ends is exact. -/
theorem not_exactRun_of_large {value : Nat} (hvalue : value < 2 ^ 53)
    (hdone : ((simulatePortfolio rounds controls scenarios iterations seed tolerance
      selectedIds).run mulberry32 value).1.isSome)
    (hlarge : 2 ^ 53 ≤ value + iterations.toNat * scenarios.length * increment) :
    ¬ExactRun (simulatePortfolio rounds controls scenarios iterations seed tolerance selectedIds)
      value := by
  intro hexact
  have hsum := (accumulators_lt_iff _ hvalue).mp hexact.1
  have hdraws := Nat.mul_le_mul_right increment (Sampling.le_draws drawsAtLeast_portfolio hdone)
  omega

/-! Years without an event. -/

/-- No draw is below the probability that the scenario's event has under its controls. -/
def Quiet (P : F → Prop) (multipliers : Dict String (Multipliers F)) (scenario : Scenario F) :
    Prop :=
  ∃ reduction, multipliers.get? scenario.id = some reduction ∧
    ∀ r, P r → le (scenario.assumptions.annualEventProbability * reduction.frequency) r = true

theorem drawsExactly_scenarioLoss {scenario : Scenario F} (h : Quiet P multipliers scenario)
    (annualLoss : F) : (scenarioLoss rounds multipliers annualLoss scenario).DrawsExactly P 1 := by
  obtain ⟨reduction, hreduction, hquiet⟩ := h
  rw [scenarioLoss, hreduction]
  refine ⟨0, rfl, fun r hr => ?_⟩
  show Sampling.DrawsExactly P 0 (if _ then _ else _)
  rw [if_pos (hquiet r hr)]
  exact rfl

theorem drawsExactly_year (h : ∀ scenario ∈ scenarios, Quiet P multipliers scenario)
    (annualLoss : F) :
    (scenarios.foldlM (scenarioLoss rounds multipliers) annualLoss).DrawsExactly P
      scenarios.length := by
  induction scenarios generalizing annualLoss with
  | nil => exact rfl
  | cons scenario rest ih =>
    obtain ⟨hscenario, hrest⟩ := List.forall_mem_cons.mp h
    rw [List.foldlM_cons, List.length_cons, Nat.add_comm]
    exact Sampling.drawsExactly_bind (drawsExactly_scenarioLoss hscenario annualLoss) (ih hrest)

theorem drawsExactly_yearlyLosses (h : ∀ scenario ∈ scenarios, Quiet P multipliers scenario)
    (years : Nat) :
    (yearlyLosses rounds multipliers scenarios years).DrawsExactly P
      (years * scenarios.length) := by
  induction years with
  | zero => exact Nat.zero_mul _
  | succ years ih =>
    rw [yearlyLosses, Nat.succ_mul, Nat.add_comm]
    apply Sampling.drawsExactly_bind (drawsExactly_year h _)
    intro annualLoss
    rw [← Nat.add_zero (years * scenarios.length)]
    exact Sampling.drawsExactly_bind ih fun _ => rfl

/-- A portfolio without events draws once for each scenario in each year. -/
theorem drawsExactly_portfolio
    (h : ∀ scenario ∈ scenarios, ∀ r, P r → le (scenario.assumptions.annualEventProbability *
      (controlMultipliers controls scenario.id selectedIds).frequency) r = true) :
    (simulatePortfolio rounds controls scenarios iterations seed tolerance
      selectedIds).DrawsExactly P (iterations.toNat * scenarios.length) := by
  have hquiet : ∀ scenario ∈ scenarios, Quiet P (Dict.ofList (scenarios.map fun scenario =>
      (scenario.id, controlMultipliers controls scenario.id selectedIds))) scenario := by
    intro scenario hscenario
    have hkey : scenario.id ∈ (Dict.ofList (scenarios.map fun scenario =>
        (scenario.id, controlMultipliers controls scenario.id selectedIds))).keys := by
      rw [Dict.mem_keys_ofList, List.map_map]
      exact List.mem_map_of_mem hscenario
    obtain ⟨reduction, hreduction⟩ := Dict.mem_keys_iff.mp hkey
    obtain ⟨other, _, hother⟩ := List.mem_map.mp (Dict.mem_ofList (Dict.get?_eq_some.mp hreduction))
    obtain ⟨hid, hmultipliers⟩ := Prod.mk.inj hother
    refine ⟨reduction, hreduction, ?_⟩
    rw [← hmultipliers, hid]
    exact h scenario hscenario
  rw [← Nat.add_zero (iterations.toNat * scenarios.length)]
  exact Sampling.drawsExactly_bind (drawsExactly_yearlyLosses hquiet _) fun _ => rfl

end

/-! Portfolios whose events cannot happen, in exact arithmetic. -/

noncomputable section

local instance : JsNumber ℝ where
  number q := q
  pow := Real.rpow
  sqrt := Real.sqrt
  log := Real.log
  exp := Real.exp
  sin := Real.sin
  cos := Real.cos
  pi := Real.pi
  epsilon := (2⁻¹ ^ 52 : ℚ)
  mathMax := max
  mathMin := min
  lt a b := decide (a < b)
  le a b := decide (a ≤ b)
  ceil := Int.ceil
  isFinite _ := true

def quietScenario (n : Nat) : Scenario ℝ where
  id := toString n
  name := "Scenario " ++ toString n
  assumptions :=
    { annualEventProbability := number 0
      conditionalLossProbability := number 0.5
      baseLossGbp := number 100000
      detectionMeanHours := number 24
      detectionSdHours := number 8
      dwellShape := number 1.5
      dwellScaleHours := number 48
      blastAlpha := number 2
      blastBeta := number 5 }

def quietScenarios (n : Nat) : List (Scenario ℝ) := (List.range n).map quietScenario

/-- Their simulation without controls. -/
def quietPortfolio (n : Nat) (iterations seed : Int) : Sampling ℝ (SimulationResult ℝ) :=
  simulatePortfolio 1 [] (quietScenarios n) iterations seed (number 1000000) (.shared [])

theorem quotient_nonneg (bits : BitVec 32) : 0 ≤ quotient (F := ℝ) bits := by
  have hbits : (0 : ℝ) ≤ ((bits.toNat : ℚ) : ℝ) := by positivity
  exact div_nonneg hbits (by norm_num [number])

theorem quietScenario_validated (n : Nat) : validateScenario (quietScenario n) = .ok () := by
  have hfits : ∀ value ∈ [(number 0 : ℝ), number 0.5],
      (!isFinite value || lt value (number 0) || lt (number 1) value) = false := by
    intro value hvalue
    rcases List.mem_pair.mp hvalue with rfl | rfl
    · norm_num [isFinite, lt, number]
    · norm_num [isFinite, lt, number]
  have hloss : (!isFinite (number 100000 : ℝ) || le (number 100000 : ℝ) (number 0)) = false := by
    norm_num [isFinite, le, number]
  obtain ⟨hevent, hrest⟩ := List.forall_mem_cons.mp hfits
  have hconditional := List.forall_mem_singleton.mp hrest
  simp only [validateScenario, quietScenario, List.forM_eq_forM, List.forM_cons, List.forM_nil,
    hevent, hconditional, hloss]
  rfl

theorem quietScenarios_validated {iterations seed : Int} (n : Nat)
    (hiterations : 1000 ≤ iterations ∧ iterations ≤ 100000) (hseed : 0 ≤ seed ∧ seed < 2 ^ 32) :
    validateSimulationInputs (quietScenarios n) (some iterations) (some seed) (number 1000000) =
      .ok () := by
  have htolerance : (!isFinite (number 1000000 : ℝ) || lt (number 1000000 : ℝ) (number 10000) ||
      lt (number 100000000) (number 1000000 : ℝ)) = false := by
    norm_num [isFinite, lt, number]
  have hscenarios : ∀ numbers : List Nat,
      (numbers.map quietScenario).forM validateScenario = .ok () := by
    intro numbers
    induction numbers with
    | nil => rfl
    | cons k rest ih => exact bind_eq_ok.mpr ⟨(), quietScenario_validated k, ih⟩
  have hcount : (some iterations).any (fun n => decide (1000 ≤ n ∧ n ≤ 100000)) = true :=
    decide_eq_true hiterations
  have hstart : (some seed).any (fun n => decide (0 ≤ n ∧ n < 2 ^ 32)) = true :=
    decide_eq_true hseed
  unfold validateSimulationInputs
  dsimp only
  rw [if_pos hcount, if_pos hstart, htolerance]
  exact hscenarios _

/-- Their draws, one for each scenario in each year. -/
theorem draws_quietPortfolio (n : Nat) (iterations seed : Int) (wrapped : BitVec 32) :
    (quietPortfolio n iterations seed).draws reference wrapped = iterations.toNat * n := by
  have hquiet : ∀ scenario ∈ quietScenarios n, ∀ r : ℝ, 0 ≤ r →
      le (scenario.assumptions.annualEventProbability *
        (controlMultipliers [] scenario.id (.shared [])).frequency) r = true := by
    intro scenario hscenario r hr
    obtain ⟨k, _, rfl⟩ := List.mem_map.mp hscenario
    have hnever : (quietScenario k).assumptions.annualEventProbability = 0 := Rat.cast_zero
    apply decide_eq_true
    rw [hnever, zero_mul]
    exact hr
  have hexactly : (quietPortfolio n iterations seed).DrawsExactly (fun r => 0 ≤ r)
      (iterations.toNat * (quietScenarios n).length) := drawsExactly_portfolio hquiet
  have hdraws := Sampling.draws_eq (g := reference) hexactly (fun _ => quotient_nonneg _) wrapped
  rwa [quietScenarios, List.length_map, List.length_range] at hdraws

theorem small_portfolio_exact : ExactRun (quietPortfolio 3 1000 0) (startValue 0) := by
  apply (accumulator_exact_iff 1 [] (.shared [])
    (quietScenarios_validated 3 (by decide) (by decide))).mpr
  rw [← quietPortfolio, draws_quietPortfolio]
  decide

/-- Fifty scenarios and the largest number of years take five million draws. -/
theorem large_portfolio_overflows :
    validateSimulationInputs (quietScenarios 50) (some 100000) (some 0) (number 1000000) = .ok () ∧
    ¬ExactRun (quietPortfolio 50 100000 0) (startValue 0) := by
  refine ⟨quietScenarios_validated 50 (by decide) (by decide), fun hexact => ?_⟩
  have hsum := (exactRun_iff _ (by decide)).mp hexact
  rw [draws_quietPortfolio] at hsum
  revert hsum
  decide

end

end Bantam.Browser
