import Bantam.AttackAttempts
import Mathlib.Analysis.SpecialFunctions.Pow.Real
import Mathlib.Analysis.SpecialFunctions.Trigonometric.Basic

/-! The seeded simulation of a year of attacks, many times over, in exact arithmetic on the stream
of draws behind the seed. -/
namespace Bantam
noncomputable section

/-! `SeededSampler`: what each sample is and how many draws have then been given. -/

section
variable (draws : Nat → Rat)

def standardNormal (used : Nat) : ℝ × Nat :=
  let first : ℝ := max (draws used) (1 / 10 ^ 12)
  let second : ℝ := draws (used + 1)
  (√(-2 * Real.log first) * Real.cos (2 * Real.pi * second), used + 2)

/-- The rejection loop of `gamma`, for so many rounds. -/
def gammaLoop (d c : ℝ) : Nat → Nat → Option (ℝ × Nat)
  | 0, _ => none
  | rounds + 1, used =>
    let (x, used) := standardNormal draws used
    let base := 1 + c * x
    if base ≤ 0 then gammaLoop d c rounds used
    else
      let v := base ^ 3
      let u : ℝ := max (draws used) (1 / 10 ^ 12)
      if u < 1 - 331 / 10000 * x ^ 4 ∨ Real.log u < 1 / 2 * x ^ 2 + d * (1 - v + Real.log v) then
        some (d * v, used + 1)
      else gammaLoop d c rounds (used + 1)

def gamma : Nat → ℝ → Nat → Option (ℝ × Nat)
  | 0, _, _ => none
  | rounds + 1, shape, used =>
    if shape < 1 then
      (gamma rounds (shape + 1) used).bind fun (sample, used) =>
        if shape = 0 then none
        else some (sample * max (draws used : ℝ) (1 / 10 ^ 12) ^ (1 / shape), used + 1)
    else
      let d := shape - 1 / 3
      gammaLoop draws d (1 / √(9 * d)) (rounds + 1) used

def betaSample (rounds : Nat) (alpha beta : ℝ) (used : Nat) : Option (ℝ × Nat) := do
  let (left, used) ← gamma draws rounds alpha used
  let (right, used) ← gamma draws rounds beta used
  let total := left + right
  pure (if 0 < total then left / total else 1 / 2, used)

/-- `PERT_LAMBDA` -/
def pertLambda : ℝ := 4

def pert (rounds : Nat) (range : LossRange) (used : Nat) : Option (ℝ × Nat) :=
  let minimum : ℝ := range.minimumGbp
  let maximum : ℝ := range.maximumGbp
  if maximum ≤ minimum then some (minimum, used)
  else do
    let mode := min (max (range.mostLikelyGbp : ℝ) minimum) maximum
    let span := maximum - minimum
    let (sample, used) ← betaSample draws rounds (1 + pertLambda * (mode - minimum) / span)
      (1 + pertLambda * (maximum - mode) / span) used
    pure (minimum + sample * span, used)

/-- `MAX_ATTEMPTS_PER_YEAR` -/
def maxAttemptsPerYear : Nat := 200

/-- The loop of `poisson` over small rates, with so many rounds left. -/
def poissonLoop (limit : ℝ) : Nat → ℝ → Nat → Nat → Nat × Nat
  | 0, _, count, used => (count, used)
  | rounds + 1, product, count, used =>
    let product := product * max (draws used : ℝ) (1 / 10 ^ 18)
    if product ≤ limit then (count, used + 1)
    else poissonLoop limit rounds product (count + 1) (used + 1)

/-- `round`, to the nearest integer and between two to the even one. -/
def roundHalfEven (x : ℝ) : Int :=
  let down := ⌊x⌋
  if Int.fract x < 1 / 2 then down
  else if 1 / 2 < Int.fract x then down + 1
  else if down % 2 = 0 then down else down + 1

def poisson (rate : ℝ) (used : Nat) : Nat × Nat :=
  if rate ≤ 0 then (0, used)
  else if rate < 30 then poissonLoop draws (Real.exp (-rate)) maxAttemptsPerYear 1 0 used
  else
    let (x, used) := standardNormal draws used
    let approximated := roundHalfEven (rate + √rate * x)
    ((max 0 (min (maxAttemptsPerYear : Int) approximated)).toNat, used)

/-- Whether any leaf of a path is detected; none where the parameters lack a leaf. -/
def anyDetected (parameters : Dict String NodeParameters) :
    List String → Nat → Option (Bool × Nat)
  | [], used => some (false, used)
  | leafId :: rest, used =>
    (parameters.get? leafId).bind fun p =>
      if draws used < p.detectionProbability then some (true, used + 1)
      else anyDetected parameters rest (used + 1)

end

/-! The year loop. -/

/-- What a simulation reads of a financial profile. -/
structure CompanyFinancialProfile where
  impactToleranceGbp : Rat
  maximumCredibleSingleLossGbp : Rat
  cyberCoverGbp : Rat
  retentionGbp : Rat
deriving DecidableEq, Repr

def CompanyFinancialProfile.valid (profile : CompanyFinancialProfile) : Bool :=
  (0 < profile.impactToleranceGbp && profile.impactToleranceGbp ≤ 1000000000000) &&
  (0 < profile.maximumCredibleSingleLossGbp &&
    profile.maximumCredibleSingleLossGbp ≤ 1000000000000) &&
  between 0 1000000000000 profile.cyberCoverGbp && between 0 1000000000000 profile.retentionGbp &&
  profile.impactToleranceGbp ≤ profile.maximumCredibleSingleLossGbp &&
  profile.retentionGbp ≤ profile.cyberCoverGbp

/-- The sampler, the counters and the totals of a run, and those of its present year. -/
structure SimulationState where
  attempts : AttemptState
  critical : String → Nat
  losses : List ℝ
  grossTotal : ℝ
  recoveryTotal : ℝ
  events : Nat
  detectedEvents : Nat
  cappedEvents : Nat
  lossYears : Nat
  annualLoss : ℝ
  yearEvents : Nat

/-- What stays the same during a run. -/
structure Simulation where
  index : TreeIndex
  rootId : String
  parameters : Dict String NodeParameters
  estimate : ScenarioFinancialEstimate
  profile : CompanyFinancialProfile
  draws : Nat → Rat
  rounds : Nat

namespace Simulation
variable (sim : Simulation)

/-- What is left of a loss that may be detected, below the maximum credible one. -/
def grossLoss (gross : ℝ) (detected : Bool) : ℝ :=
  let cap : ℝ := sim.profile.maximumCredibleSingleLossGbp
  let gross := if detected then gross * sim.estimate.detectedLossMultiplier else gross
  if cap < gross then cap else gross

def isCapped (gross : ℝ) (detected : Bool) : Bool :=
  let cap : ℝ := sim.profile.maximumCredibleSingleLossGbp
  let gross := if detected then gross * sim.estimate.detectedLossMultiplier else gross
  decide (cap < gross)

def recovery (gross : ℝ) : ℝ :=
  max 0 (min (gross - sim.profile.retentionGbp) sim.profile.cyberCoverGbp)

/-- One pass of the inner loop. -/
def attemptStep (s : SimulationState) : Option SimulationState := do
  let (succeeded, path, attempts) ←
    attempt sim.index sim.parameters sim.draws sim.rootId 0 s.attempts
  if !succeeded then pure { s with attempts := attempts }
  else
    let (primary, used) ← pert sim.draws sim.rounds sim.estimate.primaryLoss attempts.used
    let (secondary, used) ← pert sim.draws sim.rounds sim.estimate.secondaryLoss used
    let (detected, used) ← anyDetected sim.draws sim.parameters path used
    let gross := sim.grossLoss (primary + secondary) detected
    let capped := sim.isCapped (primary + secondary) detected
    pure { s with
      attempts := { attempts with used := used }
      critical := path.foldl (fun critical leafId =>
        Function.update critical leafId (critical leafId + 1)) s.critical
      grossTotal := s.grossTotal + gross
      recoveryTotal := s.recoveryTotal + sim.recovery gross
      detectedEvents := s.detectedEvents + (if detected then 1 else 0)
      cappedEvents := s.cappedEvents + (if capped then 1 else 0)
      annualLoss := s.annualLoss + (gross - sim.recovery gross)
      yearEvents := s.yearEvents + 1 }

/-- A loop of so many passes. -/
def repeated {σ : Type} (step : σ → Option σ) : Nat → σ → Option σ
  | 0, s => some s
  | n + 1, s => (step s).bind (repeated step n)

/-- The state at the start of a year, and how many attempts the year has. -/
def openYear (s : SimulationState) : Nat × SimulationState :=
  let (attempts, used) := poisson sim.draws sim.estimate.annualAttemptFrequency s.attempts.used
  (attempts,
    { s with attempts := { s.attempts with used := used }, annualLoss := 0, yearEvents := 0 })

def closeYear (s : SimulationState) : SimulationState :=
  { s with
    events := s.events + s.yearEvents
    lossYears := s.lossYears + (if s.yearEvents = 0 then 0 else 1)
    losses := s.losses ++ [s.annualLoss] }

/-- One pass of the outer loop. -/
def yearStep (s : SimulationState) : Option SimulationState :=
  let (attempts, s) := sim.openYear s
  (repeated sim.attemptStep attempts s).map closeYear

def start : SimulationState where
  attempts := ⟨0, fun _ => 0, []⟩
  critical := fun _ => 0
  losses := []
  grossTotal := 0
  recoveryTotal := 0
  events := 0
  detectedEvents := 0
  cappedEvents := 0
  lossYears := 0
  annualLoss := 0
  yearEvents := 0

end Simulation

/-! The two runs and their comparison. -/

/-- `MIN_ITERATIONS` -/
def minIterations : Nat := 1000

/-- `MAX_ITERATIONS` -/
def maxIterations : Nat := 50000

def iterationsOutOfRange : BantamError :=
  ⟨"INVALID_SIMULATION", "iterations must be between 1,000 and 50,000", 422⟩
def seedOutOfRange : BantamError :=
  ⟨"INVALID_SIMULATION", "seed must be a 32-bit unsigned integer", 422⟩

structure SimulationResult where
  iterations : Nat
  losses : List ℝ
  meanGbp : ℝ
  grossMeanAnnualLossGbp : ℝ
  insuranceRecoveryMeanGbp : ℝ
  expectedEventsPerYear : ℝ
  probabilityOfLossYear : ℝ
  exceedanceProbability : ℝ

/-- `bisect.bisect_right` -/
def bisectRight (sortedValues : List ℝ) (value : ℝ) : Nat :=
  (sortedValues.takeWhile fun x => decide (x ≤ value)).length

def summarise (profile : CompanyFinancialProfile) (iterations : Nat) (s : SimulationState) :
    SimulationResult :=
  let losses := s.losses.mergeSort fun a b => decide (a ≤ b)
  { iterations := iterations
    losses := losses
    meanGbp := losses.sum / losses.length
    grossMeanAnnualLossGbp := s.grossTotal / iterations
    insuranceRecoveryMeanGbp := s.recoveryTotal / iterations
    expectedEventsPerYear := s.events / iterations
    probabilityOfLossYear := s.lossYears / iterations
    exceedanceProbability :=
      ((losses.length - bisectRight losses profile.impactToleranceGbp : Nat) : ℝ) / iterations }

/-- The run that `simulate_scenario` makes. -/
def simulation (scenario : AttackScenario) (profile : CompanyFinancialProfile)
    (remediations : List Remediation) (draws : Nat → Rat) (rounds : Nat) : Simulation where
  index := treeIndex scenario.attackTree.attackTree
  rootId := scenario.attackTree.attackTree.rootAttackNodeId
  parameters := effectiveParameters scenario.attackTree remediations
  estimate := scenario.financials
  profile := profile
  draws := draws
  rounds := rounds

/-- `simulate_scenario`, on the stream behind the seed; none where a rejection loop takes more
than these rounds. -/
def simulateScenario (scenario : AttackScenario) (profile : CompanyFinancialProfile)
    (iterations : Nat) (seed : Int) (remediations : List Remediation) (draws : Nat → Rat) (rounds : Nat) :
    Except BantamError (Option SimulationResult) :=
  if ¬(minIterations ≤ iterations ∧ iterations ≤ maxIterations) then .error iterationsOutOfRange
  else if ¬(0 ≤ seed ∧ seed < 2 ^ 32) then .error seedOutOfRange
  else
    let sim := simulation scenario profile remediations draws rounds
    .ok ((Simulation.repeated sim.yearStep iterations Simulation.start).map
      (summarise profile iterations))

structure Economics where
  implementationCostGbp : ℝ
  annualRunCostGbp : ℝ
  firstYearCostGbp : ℝ
  annualLossReductionGbp : ℝ
  netAnnualBenefitGbp : ℝ
  paybackYears : Option ℝ
  exceedanceChange : ℝ

/-- `programme_economics` -/
def programmeEconomics (baseline residual : SimulationResult) (remediations : List Remediation) :
    Economics :=
  let buildCost : ℝ := buildCost remediations
  let runCost : ℝ := runCost remediations
  let reduction := baseline.meanGbp - residual.meanGbp
  let netAnnualBenefit := reduction - runCost
  { implementationCostGbp := buildCost
    annualRunCostGbp := runCost
    firstYearCostGbp := buildCost + runCost
    annualLossReductionGbp := reduction
    netAnnualBenefitGbp := netAnnualBenefit
    paybackYears := if 0 < netAnnualBenefit then some (buildCost / netAnnualBenefit) else none
    exceedanceChange := residual.exceedanceProbability - baseline.exceedanceProbability }

end
end Bantam
