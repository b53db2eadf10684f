import Bantam.Lib.Containers
import Bantam.Lib.Sampling
import Mathlib.Algebra.Ring.Int.Defs
import Mathlib.Algebra.Ring.Nat
import Mathlib.Data.Rat.Defs

/-! The simulation that the report runs in the browser, and the generator behind its draws. -/
namespace Bantam.Browser

/-! Numbers. -/

/-- The operations on JavaScript's numbers. -/
class JsNumber (F : Type) extends Add F, Sub F, Mul F, Div F, Neg F where
  number : ℚ → F
  pow : F → F → F
  sqrt : F → F
  log : F → F
  exp : F → F
  sin : F → F
  cos : F → F
  pi : F
  epsilon : F
  mathMax : F → F → F
  mathMin : F → F → F
  lt : F → F → Bool
  le : F → F → Bool
  ceil : F → Int
  isFinite : F → Bool

open JsNumber

/-- What a whole number is rounded to: to 53 significant bits, between two to the even one. -/
def roundWhole (n : Nat) : Nat :=
  let unit := 2 ^ (n.log2 - 52)
  let down := n / unit
  if 2 * (n % unit) < unit ∨ 2 * (n % unit) = unit ∧ down % 2 = 0 then down * unit
  else (down + 1) * unit

/-! The generator. -/

section
variable {F : Type} [JsNumber F]

/-- The bits of a draw, from the accumulator modulo 2^32. -/
def mix (value : BitVec 32) : BitVec 32 :=
  let output := (value ^^^ (value >>> 15)) * (value ||| 1)
  let output := output ^^^ (output + (output ^^^ (output >>> 7)) * (output ||| 61))
  output ^^^ (output >>> 14)

/-- A draw, as a number below one. -/
def quotient (bits : BitVec 32) : F := number bits.toNat / number 4294967296

/-- What the accumulator is advanced by: `0x6d2b79f5` -/
def increment : Nat := 0x6d2b79f5

/-- `mulberry32`: the accumulator is a number. -/
def mulberry32 : Generator Nat F where
  advance value := roundWhole (value + increment)
  output value := quotient (mix (BitVec.ofNat 32 value))

/-- Its first accumulator: `seed >>> 0` -/
def startValue (seed : Int) : Nat := (seed % 2 ^ 32).toNat

/-- The generator with an accumulator that wraps around. -/
def reference : Generator (BitVec 32) F where
  advance value := value + BitVec.ofNat 32 increment
  output value := quotient (mix value)

/-! Samples. -/

def standardNormalSample : Sampling F F := do
  let u := mathMax epsilon (← Sampling.random)
  let v := mathMax epsilon (← Sampling.random)
  pure (sqrt (number (-2) * log u) * cos (number 2 * pi * v))

def normalSample (mean standardDeviation : F) : Sampling F F := do
  pure (mathMax (number 0.25) (mean + standardDeviation * (← standardNormalSample)))

def weibullSample (shape scale : F) : Sampling F F := do
  pure (scale * pow (-log (mathMax epsilon (number 1 - (← Sampling.random)))) (number 1 / shape))

def coefficients : List ℚ :=
  [676.5203681218851, -1259.1392167224028, 771.3234287776531, -176.6150291621406,
    12.507343278686905, -0.13857109526572012, 0.000009984369578019572, 0.00000015056327351493116]

/-- `gammaFunction`, nested so many times at most. -/
def gammaFunction : Nat → F → Option F
  | 0, _ => none
  | rounds + 1, value =>
    if lt value (number 0.5) then
      (gammaFunction rounds (number 1 - value)).map fun mirrored =>
        pi / (sin (pi * value) * mirrored)
    else
      let shifted := value - number 1
      let series := coefficients.zipIdx.foldl (fun series item =>
        series + number item.1 / (shifted + number item.2 + number 1)) (number 0.9999999999998099)
      let t := shifted + number coefficients.length - number 0.5
      some (sqrt (number 2 * pi) * pow t (shifted + number 0.5) * exp (-t) * series)

/-- The loop of `gammaSample`, for so many rounds. -/
def gammaLoop (d c : F) : Nat → Sampling F F
  | 0 => .stopped
  | rounds + 1 => do
    let x ← standardNormalSample
    let vBase := number 1 + c * x
    if le vBase (number 0) then gammaLoop d c rounds
    else
      let v := pow vBase (number 3)
      let u ← Sampling.random
      if lt u (number 1 - number 0.0331 * pow x (number 4)) then pure (d * v)
      else if lt (log u) (number 0.5 * pow x (number 2) + d * (number 1 - v + log v)) then
        pure (d * v)
      else gammaLoop d c rounds

/-- `gammaSample`, for so many rounds of the recursion and of the loop. -/
def gammaSample (loops : Nat) : Nat → F → Sampling F F
  | 0, _ => .stopped
  | rounds + 1, shape =>
    if lt shape (number 1) then do
      let sample ← gammaSample loops rounds (shape + number 1)
      pure (sample * pow (← Sampling.random) (number 1 / shape))
    else
      let d := shape - number 1 / number 3
      gammaLoop d (number 1 / sqrt (number 9 * d)) loops

def betaSample (rounds : Nat) (alpha beta : F) : Sampling F F := do
  let left ← gammaSample rounds rounds alpha
  let right ← gammaSample rounds rounds beta
  pure (left / (left + right))

def clamp (value minimum maximum : F) : F := mathMin maximum (mathMax minimum value)

end

/-! Scenarios and controls. -/

structure Assumptions (F : Type) where
  annualEventProbability : F
  conditionalLossProbability : F
  baseLossGbp : F
  detectionMeanHours : F
  detectionSdHours : F
  dwellShape : F
  dwellScaleHours : F
  blastAlpha : F
  blastBeta : F

structure Scenario (F : Type) where
  id : String
  name : String
  assumptions : Assumptions F

/-- What is left of the frequency and of the magnitude, or what they are reduced by. -/
structure Multipliers (F : Type) where
  frequency : F
  magnitude : F

structure Control (F : Type) where
  id : String
  reductions : Dict String (Multipliers F)
  costY1Gbp : F

/-- `selectedIds`: a map from scenarios to their controls, or one list for all. -/
inductive SelectedIds where
  | byScenario (ids : Dict String (List String))
  | shared (ids : List String)

def selectedControlIdSet : SelectedIds → List String
  | .byScenario ids => (ids.items.flatMap Prod.snd).dedup
  | .shared ids => ids.dedup

def controlIdsForScenario (scenarioId : String) : SelectedIds → List String
  | .byScenario ids => (ids.get? scenarioId).getD []
  | .shared ids => ids

section
variable {F : Type} [JsNumber F]

/-- What `validateSimulationInputs` asks of a scenario. -/
def validateScenario (scenario : Scenario F) : Except String Unit := do
  let values := scenario.assumptions
  [values.annualEventProbability, values.conditionalLossProbability].forM fun value => do
    if !isFinite value || lt value (number 0) || lt (number 1) value then
      throw (scenario.name ++ " probabilities must be between 0% and 100%.")
  if !isFinite values.baseLossGbp || le values.baseLossGbp (number 0) then
    throw (scenario.name ++ " base loss must be greater than zero.")

/-- `validateSimulationInputs`; an iteration count or seed is none where it is no integer. -/
def validateSimulationInputs (scenarios : List (Scenario F)) (iterations seed : Option Int)
    (tolerance : F) : Except String Unit := do
  unless iterations.any fun n => 1000 ≤ n ∧ n ≤ 100000 do
    throw "Simulated years must be an integer from 1,000 to 100,000."
  unless seed.any fun n => 0 ≤ n ∧ n < 2 ^ 32 do
    throw "Random seed must be an integer from 0 to 4,294,967,295."
  if !isFinite tolerance || lt tolerance (number 10000) || lt (number 100000000) tolerance then
    throw "Impact tolerance must be between £10,000 and £100,000,000."
  scenarios.forM validateScenario

/-- `controlMultipliers`, of the controls of the model. -/
def controlMultipliers (controls : List (Control F)) (scenarioId : String)
    (selectedIds : SelectedIds) : Multipliers F :=
  let scenarioControlIds := controlIdsForScenario scenarioId selectedIds
  controls.foldl (fun multipliers control =>
    if control.id ∉ scenarioControlIds then multipliers
    else match control.reductions.get? scenarioId with
      | some reduction =>
        ⟨multipliers.frequency * (number 1 - reduction.frequency),
          multipliers.magnitude * (number 1 - reduction.magnitude)⟩
      | none => multipliers) ⟨number 1, number 1⟩

def analyticEal (scenario : Scenario F) (multipliers : Multipliers F) : F :=
  let assumptions := scenario.assumptions
  assumptions.annualEventProbability * multipliers.frequency *
    assumptions.conditionalLossProbability * assumptions.baseLossGbp * multipliers.magnitude

/-! `simulatePortfolio` -/

/-- What a scenario adds to the loss of a year. -/
def scenarioLoss (rounds : Nat) (multipliers : Dict String (Multipliers F)) (annualLoss : F)
    (scenario : Scenario F) : Sampling F F :=
  let assumptions := scenario.assumptions
  match multipliers.get? scenario.id with
  | none => .stopped
  | some reduction => do
    let eventProbability := assumptions.annualEventProbability * reduction.frequency
    if le eventProbability (← Sampling.random) then pure annualLoss
    else if le assumptions.conditionalLossProbability (← Sampling.random) then pure annualLoss
    else
      let detection ← normalSample assumptions.detectionMeanHours assumptions.detectionSdHours
      let dwell ← weibullSample assumptions.dwellShape assumptions.dwellScaleHours
      let blast ← betaSample rounds assumptions.blastAlpha assumptions.blastBeta
      match gammaFunction rounds (number 1 + number 1 / assumptions.dwellShape) with
      | none => .stopped
      | some gamma =>
        let expectedDwell := assumptions.dwellScaleHours * gamma
        let expectedBlast :=
          assumptions.blastAlpha / (assumptions.blastAlpha + assumptions.blastBeta)
        let severity := clamp (number 0.25 * detection / assumptions.detectionMeanHours +
          number 0.25 * dwell / expectedDwell + number 0.5 * blast / expectedBlast)
          (number 0.2) (number 3)
        pure (annualLoss + assumptions.baseLossGbp * reduction.magnitude * severity)

/-- The losses of so many years. -/
def yearlyLosses (rounds : Nat) (multipliers : Dict String (Multipliers F))
    (scenarios : List (Scenario F)) : Nat → Sampling F (List F)
  | 0 => pure []
  | years + 1 => do
    let annualLoss ← scenarios.foldlM (scenarioLoss rounds multipliers) (number 0)
    let losses ← yearlyLosses rounds multipliers scenarios years
    pure (annualLoss :: losses)

structure SimulationResult (F : Type) where
  losses : List F
  mean : F
  median : Option F
  p90 : Option F
  p95 : Option F
  p99 : Option F
  exceedance : F
  tolerance : F
  baselineEal : F
  adjustedEal : F
  programmeCost : F
  reduction : F
  multipliers : Dict String (Multipliers F)
  scenarios : List (Scenario F)
  iterations : Int
  seed : Int

def percentileValue (losses : List F) (quantile : ℚ) : Option F :=
  let length : F := number losses.length
  let index := min ((losses.length : Int) - 1) (ceil (number quantile * length) - 1)
  losses[(max 0 index).toNat]?

/-- The result, from the losses of the years. -/
def summarise (controls : List (Control F)) (scenarios : List (Scenario F)) (iterations seed : Int)
    (tolerance : F) (selectedIds : SelectedIds) (multipliers : Dict String (Multipliers F))
    (losses : List F) : SimulationResult F :=
  let losses := losses.mergeSort fun left right => !lt (number 0) (left - right)
  let sum := losses.foldl (· + ·) (number 0)
  let baselineEal := scenarios.foldl (fun total scenario =>
    total + analyticEal scenario ⟨number 1, number 1⟩) (number 0)
  let adjustedEal := scenarios.foldl (fun total scenario => total + analyticEal scenario
    ((multipliers.get? scenario.id).getD ⟨number 1, number 1⟩)) (number 0)
  let selectedSet := selectedControlIdSet selectedIds
  let programmeCost := (controls.filter fun control => control.id ∈ selectedSet).foldl
    (fun total control => total + control.costY1Gbp) (number 0)
  { losses := losses
    mean := sum / number losses.length
    median := percentileValue losses 0.5
    p90 := percentileValue losses 0.9
    p95 := percentileValue losses 0.95
    p99 := percentileValue losses 0.99
    exceedance := number (losses.filter fun loss => lt tolerance loss).length / number losses.length
    tolerance := tolerance
    baselineEal := baselineEal
    adjustedEal := adjustedEal
    programmeCost := programmeCost
    reduction := baselineEal - adjustedEal
    multipliers := multipliers
    scenarios := scenarios
    iterations := iterations
    seed := seed }

/-- `simulatePortfolio`, over the draws. -/
def simulatePortfolio (rounds : Nat) (controls : List (Control F)) (scenarios : List (Scenario F))
    (iterations seed : Int) (tolerance : F) (selectedIds : SelectedIds) :
    Sampling F (SimulationResult F) := do
  let multipliers := Dict.ofList (scenarios.map fun scenario =>
    (scenario.id, controlMultipliers controls scenario.id selectedIds))
  let losses ← yearlyLosses rounds multipliers scenarios iterations.toNat
  pure (summarise controls scenarios iterations seed tolerance selectedIds multipliers losses)

end

end Bantam.Browser
