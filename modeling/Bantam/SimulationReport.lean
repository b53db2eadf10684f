import Bantam.ControlEffects
import Bantam.LossStatistics

/-! What `simulate_scenario` reports of a run, and how its totals account for the events of the
run, one by one. -/
namespace Bantam
noncomputable section

/-! The report. -/

/-- What is reported of a leaf. -/
structure Contribution where
  attackNodeId : String
  title : String
  attempts : Nat
  successfulEvents : Nat
  shareOfSuccessfulEvents : ℝ
  effectiveSuccessProbability : Rat
  effectiveDetectionProbability : Rat
  graphNodeIds : List String
  mitreTechniqueIds : List String

/-- `part / events if events else 0.0` -/
def shareOf (part events : Nat) : ℝ := if events = 0 then 0 else part / events

/-- The order of the rows: the larger share first, and then by the id. -/
def Contribution.before (row other : Contribution) : Bool :=
  decide (other.shareOfSuccessfulEvents < row.shareOfSuccessfulEvents) ||
    (decide (row.shareOfSuccessfulEvents = other.shareOfSuccessfulEvents) &&
      decide (row.attackNodeId ≤ other.attackNodeId))

/-- `_contributions`; none where the parameters lack a leaf. -/
def contributions (nodes : Dict String ScenarioAttackNode) (attempted critical : String → Nat)
    (parameters : Dict String NodeParameters) (events : Nat) : Option (List Contribution) :=
  let leaves := nodes.items.filter fun item => decide (item.2.operator = .leaf)
  (leaves.mapM fun item => (parameters.get? item.1).map fun p =>
    { attackNodeId := item.1
      title := item.2.title
      attempts := attempted item.1
      successfulEvents := critical item.1
      shareOfSuccessfulEvents := shareOf (critical item.1) events
      effectiveSuccessProbability := p.successProbability
      effectiveDetectionProbability := p.detectionProbability
      graphNodeIds := item.2.graphNodeIds
      mitreTechniqueIds := item.2.mitreTechniqueIds }).map
    fun rows => rows.mergeSort Contribution.before

/-- The figures of a profile that only the report reads. -/
structure ReportFigures where
  annualRevenueGbp : Rat
  shareholderEquityGbp : Rat

/-- The distribution of the annual loss beside its mean. -/
structure AnnualLoss where
  standardDeviationGbp : ℝ
  medianGbp : ℝ
  p90Gbp : ℝ
  p95Gbp : ℝ
  p99Gbp : ℝ
  maximumGbp : ℝ

structure SimulationReport extends SimulationResult where
  scenarioId : String
  seed : Int
  annualLoss : AnnualLoss
  impactToleranceGbp : Rat
  maximumCredibleSingleLossGbp : Rat
  detectedEventShare : ℝ
  cappedEventShare : ℝ
  meanAsPctOfRevenue : Option ℝ
  p95AsPctOfEquity : Option ℝ
  attackPathContributions : List Contribution
  histogram : LossHistogram ℝ
  lossExceedanceCurve : List (ExceedancePoint ℝ)
  appliedRemediationIds : List String
  effectiveParameters : Dict String NodeParameters

/-- `amount / whole * 100.0 if whole else None` -/
def percentOf (amount : ℝ) (whole : Rat) : Option ℝ :=
  if whole = 0 then none else some (amount / whole * 100)

def variance (losses : List ℝ) (mean : ℝ) : ℝ :=
  (losses.map fun value => (value - mean) ^ 2).sum / losses.length

/-- The nodes of a scenario by their ids. -/
def scenarioNodes (scenario : AttackScenario) : Dict String ScenarioAttackNode :=
  Dict.ofList (scenario.attackTree.nodes.map fun node => (node.attackNodeId, node))

/-- What `simulate_scenario` returns from the state after its last year. -/
def report (scenario : AttackScenario) (profile : CompanyFinancialProfile)
    (figures : ReportFigures) (iterations : Nat) (seed : Int) (applied : List Remediation)
    (s : SimulationState) : Option SimulationReport :=
  let result := summarise profile iterations s
  let parameters := effectiveParameters scenario.attackTree applied
  let p99 := percentile result.losses (99 / 100)
  let p95 := percentile result.losses (95 / 100)
  let ceiling : ℝ := max p99 profile.impactToleranceGbp
  let nodes := scenarioNodes scenario
  (contributions nodes s.attempts.attempted s.critical parameters s.events).bind fun rows =>
    (lossHistogram result.losses ceiling).bind fun histogram =>
      (exceedanceCurve result.losses ceiling).map fun curve =>
        { toSimulationResult := result
          scenarioId := scenario.scenarioId
          seed := seed
          annualLoss :=
            { standardDeviationGbp := √(variance result.losses result.meanGbp)
              medianGbp := percentile result.losses (50 / 100)
              p90Gbp := percentile result.losses (90 / 100)
              p95Gbp := p95
              p99Gbp := p99
              maximumGbp := result.losses.getLastD 0 }
          impactToleranceGbp := profile.impactToleranceGbp
          maximumCredibleSingleLossGbp := profile.maximumCredibleSingleLossGbp
          detectedEventShare := shareOf s.detectedEvents s.events
          cappedEventShare := shareOf s.cappedEvents s.events
          meanAsPctOfRevenue := percentOf result.meanGbp figures.annualRevenueGbp
          p95AsPctOfEquity := percentOf p95 figures.shareholderEquityGbp
          attackPathContributions := rows
          histogram := histogram
          lossExceedanceCurve := curve
          appliedRemediationIds := applied.map (·.remediationId)
          effectiveParameters := parameters }

/-- `simulate_scenario` with all that it returns. -/
def simulationReport (scenario : AttackScenario) (profile : CompanyFinancialProfile)
    (figures : ReportFigures) (iterations : Nat) (seed : Int) (applied : List Remediation)
    (draws : Nat → Rat) (rounds : Nat) : Except BantamError (Option SimulationReport) :=
  if ¬(minIterations ≤ iterations ∧ iterations ≤ maxIterations) then .error iterationsOutOfRange
  else if ¬(0 ≤ seed ∧ seed < 2 ^ 32) then .error seedOutOfRange
  else
    let sim := simulation scenario profile applied draws rounds
    .ok ((Simulation.repeated sim.yearStep iterations Simulation.start).bind
      (report scenario profile figures iterations seed applied))

/-! The events of a run. -/

/-- A successful attempt, as the loop prices it. -/
structure LossEvent where
  path : List String
  grossGbp : ℝ
  recoveryGbp : ℝ
  detected : Bool
  capped : Bool

namespace LossEvent

def netGbp (e : LossEvent) : ℝ := e.grossGbp - e.recoveryGbp

def times (e : LossEvent) (leaf : String) : Nat := e.path.count leaf

end LossEvent

/-- How often a leaf was on the path of an event. -/
def timesIn (log : List LossEvent) (leaf : String) : Nat := (log.map (·.times leaf)).sum

namespace Simulation
variable (sim : Simulation)

/-- The event of a pass, where its attempt succeeds, and the sampler after it. -/
def attemptEvent (s : SimulationState) : Option (Option LossEvent × AttemptState) := do
  let (succeeded, path, attempts) ←
    attempt sim.index sim.parameters sim.draws sim.rootId 0 s.attempts
  if !succeeded then pure (none, attempts)
  else
    let (primary, used) ← pert sim.draws sim.rounds sim.estimate.primaryLoss attempts.used
    let (secondary, used) ← pert sim.draws sim.rounds sim.estimate.secondaryLoss used
    let (detected, used) ← anyDetected sim.draws sim.parameters path used
    let gross := sim.grossLoss (primary + secondary) detected
    pure (some ⟨path, gross, sim.recovery gross, detected,
      sim.isCapped (primary + secondary) detected⟩, { attempts with used := used })

end Simulation

/-- The state with an event counted, if there is one. -/
def SimulationState.counting (s : SimulationState) (attempts : AttemptState) :
    Option LossEvent → SimulationState
  | none => { s with attempts := attempts }
  | some e => { s with
      attempts := attempts
      critical := e.path.foldl (fun critical leafId =>
        Function.update critical leafId (critical leafId + 1)) s.critical
      grossTotal := s.grossTotal + e.grossGbp
      recoveryTotal := s.recoveryTotal + e.recoveryGbp
      detectedEvents := s.detectedEvents + (if e.detected then 1 else 0)
      cappedEvents := s.cappedEvents + (if e.capped then 1 else 0)
      annualLoss := s.annualLoss + e.netGbp
      yearEvents := s.yearEvents + 1 }

namespace Simulation
variable {sim : Simulation}

theorem attemptStep_eq (s : SimulationState) :
    sim.attemptStep s = (sim.attemptEvent s).map fun r => s.counting r.2 r.1 := by
  unfold attemptStep attemptEvent
  cases hattempt : attempt sim.index sim.parameters sim.draws sim.rootId 0 s.attempts with
  | none => rfl
  | some attempted =>
    obtain ⟨succeeded, path, attempts⟩ := attempted
    simp only [Option.bind_eq_bind, Option.bind_some]
    cases succeeded with
    | false => rfl
    | true =>
      cases hprimary : pert sim.draws sim.rounds sim.estimate.primaryLoss attempts.used with
      | none => rfl
      | some primary =>
        simp only [Option.bind_some]
        cases hsecondary : pert sim.draws sim.rounds sim.estimate.secondaryLoss primary.2 with
        | none => rfl
        | some secondary =>
          simp only [Option.bind_some]
          cases hdetected : anyDetected sim.draws sim.parameters path secondary.2 with
          | none => rfl
          | some detected =>
            rfl

variable (sim)

/-- The events of so many passes. -/
def yearLog : Nat → SimulationState → List LossEvent
  | 0, _ => []
  | passes + 1, s =>
    match sim.attemptEvent s with
    | none => []
    | some (event, attempts) => event.toList ++ yearLog passes (s.counting attempts event)

/-- The events of so many years. -/
def runLog : Nat → SimulationState → List LossEvent
  | 0, _ => []
  | years + 1, s =>
    sim.yearLog (sim.openYear s).1 (sim.openYear s).2 ++
      match sim.yearStep s with
      | none => []
      | some s' => runLog years s'

end Simulation

/-! What one pass counts. -/

/-- The bounds of an event: its loss lies below the cap, and the recovery below the cover and the
loss. -/
structure LossEvent.Sound (profile : CompanyFinancialProfile) (e : LossEvent) : Prop where
  gross_nonneg : 0 ≤ e.grossGbp
  gross_le : e.grossGbp ≤ profile.maximumCredibleSingleLossGbp
  recovery_nonneg : 0 ≤ e.recoveryGbp
  recovery_le : e.recoveryGbp ≤ min (profile.cyberCoverGbp : ℝ) e.grossGbp
  distinct : e.path.Nodup

theorem LossEvent.Sound.net_nonneg {profile : CompanyFinancialProfile} {e : LossEvent}
    (h : e.Sound profile) : 0 ≤ e.netGbp :=
  sub_nonneg.mpr (h.recovery_le.trans (min_le_right _ _))

/-- What the bounds rest on: amounts that are not negative, and paths of leaves that are distinct
and were each counted as attempted. -/
structure Simulation.Counted (sim : Simulation) : Prop where
  sampled : sim.Plausible
  cap : 0 ≤ sim.profile.maximumCredibleSingleLossGbp
  cover : 0 ≤ sim.profile.cyberCoverGbp
  retention : 0 ≤ sim.profile.retentionGbp
  paths : ∀ s succeeded path attempts,
    attempt sim.index sim.parameters sim.draws sim.rootId 0 s = some (succeeded, path, attempts) →
    path.Nodup ∧ ∀ leaf, s.attempted leaf + path.count leaf ≤ attempts.attempted leaf

theorem timesIn_append (log log' : List LossEvent) (leaf : String) :
    timesIn (log ++ log') leaf = timesIn log leaf + timesIn log' leaf := by
  rw [timesIn, List.map_append, List.sum_append]
  rfl

/-- Distinct leaves: no leaf is on more paths than there are events. -/
theorem timesIn_le_length {profile : CompanyFinancialProfile} {log : List LossEvent}
    (h : ∀ e ∈ log, e.Sound profile) (leaf : String) : timesIn log leaf ≤ log.length := by
  induction log with
  | nil => exact Nat.le_refl 0
  | cons e log ih =>
    have hone : e.times leaf ≤ 1 :=
      List.nodup_iff_count_le_one.mp (h e List.mem_cons_self).distinct leaf
    have hrest := ih fun e' he' => h e' (List.mem_cons_of_mem e he')
    rw [timesIn, List.map_cons, List.sum_cons, List.length_cons]
    rw [timesIn] at hrest
    omega

theorem foldl_critical (path : List String) (critical : String → Nat) (leaf : String) :
    path.foldl (fun critical leafId =>
      Function.update critical leafId (critical leafId + 1)) critical leaf =
      critical leaf + path.count leaf := by
  induction path generalizing critical with
  | nil => rfl
  | cons first path ih =>
    rw [List.foldl_cons, ih]
    by_cases hleaf : first = leaf
    · subst hleaf
      rw [Function.update_self, List.count_cons_self]
      omega
    · rw [Function.update_of_ne (Ne.symm hleaf), List.count_cons_of_ne hleaf]

namespace Simulation
variable {sim : Simulation}

theorem grossLoss_bounds (hsim : sim.Counted) {gross : ℝ} (hgross : 0 ≤ gross) (detected : Bool) :
    0 ≤ sim.grossLoss gross detected ∧
      sim.grossLoss gross detected ≤ sim.profile.maximumCredibleSingleLossGbp := by
  have hcap : (0 : ℝ) ≤ sim.profile.maximumCredibleSingleLossGbp := by exact_mod_cast hsim.cap
  have hm : (0 : ℝ) ≤ sim.estimate.detectedLossMultiplier := by
    exact_mod_cast hsim.sampled.nonneg
  rw [grossLoss_eq]
  refine ⟨le_min ?_ hcap, min_le_right _ _⟩
  cases detected with
  | true => exact mul_nonneg hgross hm
  | false => exact hgross

theorem recovery_bounds (hsim : sim.Counted) {gross : ℝ} (hgross : 0 ≤ gross) :
    0 ≤ sim.recovery gross ∧ sim.recovery gross ≤ min (sim.profile.cyberCoverGbp : ℝ) gross := by
  have hcover : (0 : ℝ) ≤ sim.profile.cyberCoverGbp := by exact_mod_cast hsim.cover
  have hretention : (0 : ℝ) ≤ sim.profile.retentionGbp := by exact_mod_cast hsim.retention
  refine ⟨le_max_left _ _, max_le (le_min hcover hgross) (le_min (min_le_right _ _) ?_)⟩
  exact (min_le_left _ _).trans (sub_le_self gross hretention)

/-- The event of a pass is within its bounds, and its path was attempted. -/
theorem attemptEvent_sound (hsim : sim.Counted) {s : SimulationState} {event : Option LossEvent}
    {attempts : AttemptState} (h : sim.attemptEvent s = some (event, attempts)) :
    (∀ e ∈ event.toList, e.Sound sim.profile) ∧
      ∀ leaf, s.attempts.attempted leaf + timesIn event.toList leaf ≤ attempts.attempted leaf := by
  obtain ⟨⟨succeeded, path, tried⟩, hattempt, h⟩ := Option.bind_eq_some_iff.mp h
  obtain ⟨hdistinct, hcounted⟩ := hsim.paths _ _ _ _ hattempt
  dsimp only at h
  cases succeeded with
  | false =>
    cases h
    refine ⟨fun e he => absurd he List.not_mem_nil, fun leaf => ?_⟩
    exact (Nat.le_add_right _ _).trans (hcounted leaf)
  | true =>
    obtain ⟨⟨primary, used⟩, hprimary, h⟩ := Option.bind_eq_some_iff.mp h
    obtain ⟨⟨secondary, used'⟩, hsecondary, h⟩ := Option.bind_eq_some_iff.mp h
    obtain ⟨⟨detected, used''⟩, -, h⟩ := Option.bind_eq_some_iff.mp h
    cases h
    have hgross := grossLoss_bounds hsim (hsim.sampled.gross_nonneg hprimary hsecondary) detected
    have hrecovery := recovery_bounds hsim hgross.1
    refine ⟨fun e he => ?_, fun leaf => ?_⟩
    · rw [Option.toList_some, List.mem_singleton] at he
      subst he
      exact ⟨hgross.1, hgross.2, hrecovery.1, hrecovery.2, hdistinct⟩
    · exact hcounted leaf

end Simulation

/-! What a year counts. -/

/-- Between two states of one year exactly these events were counted. -/
structure YearBooked (profile : CompanyFinancialProfile) (s : SimulationState)
    (log : List LossEvent) (s' : SimulationState) : Prop where
  sound : ∀ e ∈ log, e.Sound profile
  attempted : ∀ leaf, s.attempts.attempted leaf + timesIn log leaf ≤ s'.attempts.attempted leaf
  critical : ∀ leaf, s'.critical leaf = s.critical leaf + timesIn log leaf
  gross : s'.grossTotal = s.grossTotal + (log.map LossEvent.grossGbp).sum
  recovery : s'.recoveryTotal = s.recoveryTotal + (log.map LossEvent.recoveryGbp).sum
  annual : s'.annualLoss = s.annualLoss + (log.map LossEvent.netGbp).sum
  yearEvents : s'.yearEvents = s.yearEvents + log.length
  detected : s'.detectedEvents = s.detectedEvents + log.countP LossEvent.detected
  capped : s'.cappedEvents = s.cappedEvents + log.countP LossEvent.capped
  losses : s'.losses = s.losses
  events : s'.events = s.events
  lossYears : s'.lossYears = s.lossYears

namespace YearBooked
variable {profile : CompanyFinancialProfile} {s s' s'' : SimulationState}
  {log log' : List LossEvent}

theorem refl (s : SimulationState) : YearBooked profile s [] s where
  sound := fun _ he => absurd he List.not_mem_nil
  attempted := fun _ => Nat.le_refl _
  critical := fun _ => rfl
  gross := (add_zero _).symm
  recovery := (add_zero _).symm
  annual := (add_zero _).symm
  yearEvents := rfl
  detected := rfl
  capped := rfl
  losses := rfl
  events := rfl
  lossYears := rfl

theorem trans (h : YearBooked profile s log s') (h' : YearBooked profile s' log' s'') :
    YearBooked profile s (log ++ log') s'' where
  sound := List.forall_mem_append.mpr ⟨h.sound, h'.sound⟩
  attempted := fun leaf => by
    have := h.attempted leaf
    have := h'.attempted leaf
    rw [timesIn_append]
    omega
  critical := fun leaf => by rw [h'.critical, h.critical, timesIn_append, Nat.add_assoc]
  gross := by rw [h'.gross, h.gross, List.map_append, List.sum_append, add_assoc]
  recovery := by rw [h'.recovery, h.recovery, List.map_append, List.sum_append, add_assoc]
  annual := by rw [h'.annual, h.annual, List.map_append, List.sum_append, add_assoc]
  yearEvents := by rw [h'.yearEvents, h.yearEvents, List.length_append, Nat.add_assoc]
  detected := by rw [h'.detected, h.detected, List.countP_append, Nat.add_assoc]
  capped := by rw [h'.capped, h.capped, List.countP_append, Nat.add_assoc]
  losses := h'.losses.trans h.losses
  events := h'.events.trans h.events
  lossYears := h'.lossYears.trans h.lossYears

end YearBooked

namespace Simulation
variable {sim : Simulation} {s s' : SimulationState}

theorem counting_booked (hsim : sim.Counted) {event : Option LossEvent} {attempts : AttemptState}
    (h : sim.attemptEvent s = some (event, attempts)) :
    YearBooked sim.profile s event.toList (s.counting attempts event) := by
  obtain ⟨hsound, hattempted⟩ := attemptEvent_sound hsim h
  cases event with
  | none =>
    exact {
      sound := hsound
      attempted := hattempted
      critical := fun _ => rfl
      gross := (add_zero _).symm
      recovery := (add_zero _).symm
      annual := (add_zero _).symm
      yearEvents := rfl
      detected := rfl
      capped := rfl
      losses := rfl
      events := rfl
      lossYears := rfl }
  | some e =>
    exact {
      sound := hsound
      attempted := hattempted
      critical := fun leaf => foldl_critical e.path s.critical leaf
      gross := by rw [Option.toList_some, List.map_singleton, List.sum_singleton]; rfl
      recovery := by rw [Option.toList_some, List.map_singleton, List.sum_singleton]; rfl
      annual := by rw [Option.toList_some, List.map_singleton, List.sum_singleton]; rfl
      yearEvents := rfl
      detected := by rw [Option.toList_some, List.countP_singleton]; rfl
      capped := by rw [Option.toList_some, List.countP_singleton]; rfl
      losses := rfl
      events := rfl
      lossYears := rfl }

/-- The passes of a year count the events of its log. -/
theorem repeated_booked (hsim : sim.Counted) {passes : Nat}
    (h : repeated sim.attemptStep passes s = some s') :
    YearBooked sim.profile s (sim.yearLog passes s) s' := by
  induction passes generalizing s with
  | zero =>
    cases h
    exact YearBooked.refl _
  | succ passes ih =>
    obtain ⟨s₁, hstep, hrest⟩ := Option.bind_eq_some_iff.mp h
    rw [attemptStep_eq] at hstep
    obtain ⟨⟨event, attempts⟩, hevent, rfl⟩ := Option.map_eq_some_iff.mp hstep
    rw [yearLog, hevent]
    exact (counting_booked hsim hevent).trans (ih hrest)

end Simulation

/-! What a run counts. -/

/-- After so many years exactly these events were counted. -/
structure RunBooked (profile : CompanyFinancialProfile) (years : Nat) (log : List LossEvent)
    (s : SimulationState) : Prop where
  sound : ∀ e ∈ log, e.Sound profile
  attempted : ∀ leaf, timesIn log leaf ≤ s.attempts.attempted leaf
  critical : ∀ leaf, s.critical leaf = timesIn log leaf
  gross : s.grossTotal = (log.map LossEvent.grossGbp).sum
  recovery : s.recoveryTotal = (log.map LossEvent.recoveryGbp).sum
  events : s.events = log.length
  detected : s.detectedEvents = log.countP LossEvent.detected
  capped : s.cappedEvents = log.countP LossEvent.capped
  net : s.losses.sum = (log.map LossEvent.netGbp).sum
  losses : ∀ loss ∈ s.losses, 0 ≤ loss
  yearCount : s.losses.length = years
  lossYears : s.lossYears ≤ years

theorem sum_net_nonneg {profile : CompanyFinancialProfile} {log : List LossEvent}
    (h : ∀ e ∈ log, e.Sound profile) : 0 ≤ (log.map LossEvent.netGbp).sum := by
  refine List.sum_nonneg fun x hx => ?_
  obtain ⟨e, he, rfl⟩ := List.mem_map.mp hx
  exact (h e he).net_nonneg

namespace Simulation
variable {sim : Simulation} {s s' : SimulationState} {years : Nat} {log : List LossEvent}

theorem start_accounted (profile : CompanyFinancialProfile) : RunBooked profile 0 [] start where
  sound := fun _ he => absurd he List.not_mem_nil
  attempted := fun _ => Nat.le_refl _
  critical := fun _ => rfl
  gross := rfl
  recovery := rfl
  events := rfl
  detected := rfl
  capped := rfl
  net := rfl
  losses := fun _ hloss => absurd hloss List.not_mem_nil
  yearCount := rfl
  lossYears := Nat.le_refl _

theorem yearStep_accounted (hsim : sim.Counted) (h : RunBooked sim.profile years log s)
    (hstep : sim.yearStep s = some s') :
    RunBooked sim.profile (years + 1)
      (log ++ sim.yearLog (sim.openYear s).1 (sim.openYear s).2) s' := by
  obtain ⟨closed, hclosed, rfl⟩ := Option.map_eq_some_iff.mp hstep
  have hrun : repeated sim.attemptStep (sim.openYear s).1 (sim.openYear s).2 = some closed := hclosed
  have hyear := repeated_booked hsim hrun
  set passes := sim.yearLog (sim.openYear s).1 (sim.openYear s).2
  have hannual : closed.annualLoss = (passes.map LossEvent.netGbp).sum :=
    hyear.annual.trans (zero_add _)
  have hevents : closed.yearEvents = passes.length := hyear.yearEvents.trans (Nat.zero_add _)
  have hlosses : closed.losses = s.losses := hyear.losses
  exact {
    sound := List.forall_mem_append.mpr ⟨h.sound, hyear.sound⟩
    attempted := fun leaf => by
      rw [timesIn_append]
      exact (Nat.add_le_add_right (h.attempted leaf) _).trans (hyear.attempted leaf)
    critical := fun leaf => by
      rw [timesIn_append, ← h.critical]
      exact hyear.critical leaf
    gross := by
      rw [List.map_append, List.sum_append, ← h.gross]
      exact hyear.gross
    recovery := by
      rw [List.map_append, List.sum_append, ← h.recovery]
      exact hyear.recovery
    events := by
      rw [List.length_append, ← h.events, ← hevents]
      exact congrArg (· + closed.yearEvents) hyear.events
    detected := by
      rw [List.countP_append, ← h.detected]
      exact hyear.detected
    capped := by
      rw [List.countP_append, ← h.capped]
      exact hyear.capped
    net := by
      rw [List.map_append, List.sum_append, ← h.net, ← hannual]
      show (closed.losses ++ [closed.annualLoss]).sum = _
      rw [hlosses, List.sum_append, List.sum_singleton]
    losses := by
      show ∀ loss ∈ closed.losses ++ [closed.annualLoss], 0 ≤ loss
      rw [hlosses, hannual, List.forall_mem_append]
      refine ⟨h.losses, fun loss hloss => ?_⟩
      rw [List.mem_singleton.mp hloss]
      exact sum_net_nonneg hyear.sound
    yearCount := by
      show (closed.losses ++ [closed.annualLoss]).length = _
      rw [hlosses, List.length_append, h.yearCount]
      rfl
    lossYears := by
      show closed.lossYears + (if closed.yearEvents = 0 then 0 else 1) ≤ years + 1
      have hbefore : closed.lossYears = s.lossYears := hyear.lossYears
      have := h.lossYears
      split <;> omega }

/-- The years of a run count the events of its log, on any that were counted before. -/
theorem repeated_accounted (hsim : sim.Counted) {n : Nat} (h : RunBooked sim.profile years log s)
    (hrun : repeated sim.yearStep n s = some s') :
    RunBooked sim.profile (years + n) (log ++ sim.runLog n s) s' := by
  induction n generalizing s years log with
  | zero =>
    cases hrun
    rw [runLog, List.append_nil]
    exact h
  | succ n ih =>
    obtain ⟨s₁, hstep, hrest⟩ := Option.bind_eq_some_iff.mp hrun
    have hmore := ih (yearStep_accounted hsim h hstep) hrest
    rw [runLog, hstep, Nat.add_comm n 1, ← Nat.add_assoc, ← List.append_assoc]
    exact hmore

theorem run_accounted (hsim : sim.Counted) {iterations : Nat}
    (h : repeated sim.yearStep iterations start = some s) :
    RunBooked sim.profile iterations (sim.runLog iterations start) s := by
  have hrun := repeated_accounted hsim (start_accounted sim.profile) h
  rwa [Nat.zero_add, List.nil_append] at hrun

end Simulation
/-! The simulation of a scenario. -/

section
variable {digit : Char → Bool} {order : SetOrder (String × String)} {scenario : AttackScenario}
  {profile : CompanyFinancialProfile} {applied : List Remediation}

theorem node_of_shape {tree : ScenarioAttackTree} {node : AttackTreeNode}
    (h : node ∈ (ScenarioAttackTree.attackTree tree).nodes) :
    ∃ own ∈ tree.nodes, own.attackNodeId = node.attackNodeId := by
  have hid : node.attackNodeId ∈ (ScenarioAttackTree.attackTree tree).nodeIds :=
    List.mem_map.mpr ⟨node, h, rfl⟩
  rw [ScenarioAttackTree.attackTree, shape_nodeIds] at hid
  exact List.mem_map.mp hid

theorem effectiveParameters_known {tree : ScenarioAttackTree}
    (hids : (tree.nodes.map (·.attackNodeId)).Nodup) {node : ScenarioAttackNode}
    (h : node ∈ tree.nodes) : node.attackNodeId ∈ (effectiveParameters tree applied).keys := by
  rw [Dict.mem_keys_iff, get?_effectiveParameters hids h]
  exact ⟨_, rfl⟩

theorem simulation_counted (hvalid : scenario.valid digit = true)
    (htree : attackTreeStructureIsValid order scenario.attackTree.attackTree = true)
    (hprofile : profile.valid = true) (draws : Nat → Rat) (rounds : Nat) :
    (simulation scenario profile applied draws rounds).Counted := by
  have hmoney := hprofile
  simp only [CompanyFinancialProfile.valid, Bool.and_eq_true, between_iff] at hmoney
  refine ⟨simulation_losses hvalid profile draws rounds, profile.cap_nonneg hprofile,
    hmoney.1.1.1.2.1, hmoney.1.1.2.1, fun s succeeded path attempts hrun => ?_⟩
  have hparameters : ∀ node ∈ (ScenarioAttackTree.attackTree scenario.attackTree).nodes,
      node.attackNodeId ∈ (effectiveParameters scenario.attackTree applied).keys := by
    intro node hnode
    obtain ⟨own, hown, hid⟩ := node_of_shape hnode
    exact hid ▸ effectiveParameters_known (distinct_nodeIds htree) hown
  obtain ⟨won, path', drawn, hattempt, hval, -⟩ := attempt_root htree hparameters draws s
  have hsame := Option.some.inj (hrun.symm.trans hattempt)
  simp only [Prod.mk.injEq] at hsame
  obtain ⟨rfl, rfl, rfl⟩ := hsame
  cases succeeded with
  | false =>
    obtain ⟨rfl, -⟩ := hval.lost rfl
    exact ⟨List.nodup_nil, fun leaf => Nat.le_add_right _ _⟩
  | true =>
    have hsub := (hval.won rfl).1.trans wins_sublist
    exact ⟨hsub.nodup hval.once, fun leaf => Nat.add_le_add_left (hsub.count_le leaf) _⟩

/-- The parameters of a node under admitted remediations are probabilities. -/
theorem effectiveParameters_probable (hvalid : scenario.valid digit = true)
    (htree : attackTreeStructureIsValid order scenario.attackTree.attackTree = true)
    (happlied : ∀ r ∈ applied, r.valid digit = true) {node : ScenarioAttackNode}
    (hnode : node ∈ scenario.attackTree.nodes) :
    ∃ p, (effectiveParameters scenario.attackTree applied).get? node.attackNodeId = some p ∧
      p.Probable := by
  refine ⟨_, get?_effectiveParameters (distinct_nodeIds htree) hnode, ?_⟩
  refine (NodeParameters.lowered_safer (fun r hr => ?_)
    (ScenarioAttackNode.probable (AttackScenario.valid_node hvalid hnode))).1
  exact Remediation.priced (happlied r (mem_reaching hr))

end

/-! Shares. -/

theorem shareOf_mem {part events : Nat} (h : part ≤ events) : shareOf part events ∈ Set.Icc 0 1 := by
  unfold shareOf
  split
  · exact ⟨le_rfl, zero_le_one⟩
  · exact ⟨div_nonneg (Nat.cast_nonneg _) (Nat.cast_nonneg _),
      div_le_one_of_le₀ (Nat.cast_le.mpr h) (Nat.cast_nonneg _)⟩

theorem fraction_mem {part whole : Nat} (h : part ≤ whole) :
    (part : ℝ) / whole ∈ Set.Icc (0 : ℝ) 1 :=
  ⟨div_nonneg (Nat.cast_nonneg _) (Nat.cast_nonneg _),
    div_le_one_of_le₀ (Nat.cast_le.mpr h) (Nat.cast_nonneg _)⟩

/-- What the rows of the report say of their leaves. -/
theorem mem_contributions {nodes : Dict String ScenarioAttackNode} {attempted critical : String → Nat}
    {parameters : Dict String NodeParameters} {events : Nat} {rows : List Contribution}
    (h : contributions nodes attempted critical parameters events = some rows) {row : Contribution}
    (hrow : row ∈ rows) :
    row.attackNodeId ∈ nodes.keys ∧ row.attempts = attempted row.attackNodeId ∧
      row.successfulEvents = critical row.attackNodeId ∧
      row.shareOfSuccessfulEvents = shareOf (critical row.attackNodeId) events ∧
      ∃ p, parameters.get? row.attackNodeId = some p ∧
        row.effectiveSuccessProbability = p.successProbability ∧
        row.effectiveDetectionProbability = p.detectionProbability := by
  obtain ⟨unsorted, hrows, rfl⟩ := Option.map_eq_some_iff.mp h
  obtain ⟨item, hitem, hmade⟩ := Fallible.mem_mapM_some hrows (List.mem_mergeSort.mp hrow)
  obtain ⟨p, hp, rfl⟩ := Option.map_eq_some_iff.mp hmade
  have hkey : item.1 ∈ nodes.keys := List.mem_map_of_mem (List.mem_filter.mp hitem).1
  exact ⟨hkey, rfl, rfl, rfl, p, hp, rfl, rfl⟩

theorem summarise_sorted (profile : CompanyFinancialProfile) (iterations : Nat)
    (s : SimulationState) : (summarise profile iterations s).losses.Pairwise (· ≤ ·) := by
  have hsorted : (s.losses.mergeSort fun a b => decide (a ≤ b)).Pairwise
      fun a b => decide (a ≤ b) = true := by
    refine List.pairwise_mergeSort (fun a b c hab hbc => ?_) (fun a b => ?_) s.losses
    · exact decide_eq_true ((of_decide_eq_true hab).trans (of_decide_eq_true hbc))
    · simpa using le_total a b
  exact hsorted.imp of_decide_eq_true

theorem summarise_length (profile : CompanyFinancialProfile) (iterations : Nat)
    (s : SimulationState) : (summarise profile iterations s).losses.length = s.losses.length :=
  List.length_mergeSort _

/-! What is reported. -/

section
variable {scenario : AttackScenario} {profile : CompanyFinancialProfile} {figures : ReportFigures}
  {iterations rounds : Nat} {seed : Int} {applied : List Remediation} {draws : Nat → Rat}
  {s : SimulationState} {r : SimulationReport}

theorem mem_keys_scenarioNodes {nodeId : String} (h : nodeId ∈ (scenarioNodes scenario).keys) :
    ∃ node ∈ scenario.attackTree.nodes, node.attackNodeId = nodeId := by
  rw [scenarioNodes, Dict.mem_keys_ofList, List.map_map] at h
  exact List.mem_map.mp h

/-- The parts of a report that the state of the run decides. -/
theorem report_spec (h : report scenario profile figures iterations seed applied s = some r) :
    r.toSimulationResult = summarise profile iterations s ∧
      r.detectedEventShare = shareOf s.detectedEvents s.events ∧
      r.cappedEventShare = shareOf s.cappedEvents s.events ∧
      contributions (scenarioNodes scenario) s.attempts.attempted s.critical
        (Bantam.effectiveParameters scenario.attackTree applied) s.events =
          some r.attackPathContributions ∧
      ∃ ceiling, exceedanceCurve (summarise profile iterations s).losses ceiling =
        some r.lossExceedanceCurve := by
  obtain ⟨rows, hrows, h⟩ := Option.bind_eq_some_iff.mp h
  obtain ⟨histogram, -, h⟩ := Option.bind_eq_some_iff.mp h
  obtain ⟨curve, hcurve, rfl⟩ := Option.map_eq_some_iff.mp h
  exact ⟨rfl, rfl, rfl, hrows, _, hcurve⟩

theorem simulationReport_ok
    (h : simulationReport scenario profile figures iterations seed applied draws rounds =
      .ok (some r)) :
    ∃ s, Simulation.repeated (simulation scenario profile applied draws rounds).yearStep iterations
        Simulation.start = some s ∧
      report scenario profile figures iterations seed applied s = some r ∧
      minIterations ≤ iterations := by
  unfold simulationReport at h
  split at h
  · cases h
  case isFalse hiterations =>
    split at h
    · cases h
    · obtain ⟨s, hrun, hreport⟩ := Option.bind_eq_some_iff.mp (Except.ok.inj h)
      exact ⟨s, hrun, hreport, (not_not.mp hiterations).1⟩

/-- The report holds the result that the comparison of two runs reads. -/
theorem simulationReport_result
    (h : simulationReport scenario profile figures iterations seed applied draws rounds =
      .ok (some r)) :
    simulateScenario scenario profile iterations seed applied draws rounds =
      .ok (some r.toSimulationResult) := by
  unfold simulationReport at h
  unfold simulateScenario
  split at h
  · cases h
  case isFalse hiterations =>
    split at h
    · cases h
    case isFalse hseed =>
      obtain ⟨s, hrun, hreport⟩ := Option.bind_eq_some_iff.mp (Except.ok.inj h)
      rw [if_neg hiterations, if_neg hseed, (report_spec hreport).1]
      exact congrArg Except.ok (Option.map_eq_some_iff.mpr ⟨s, hrun, rfl⟩)

end

section
variable {digit : Char → Bool} {order : SetOrder (String × String)} {scenario : AttackScenario}
  {profile : CompanyFinancialProfile} {iterations rounds : Nat} {applied : List Remediation}
  {draws : Nat → Rat} {s : SimulationState}

/-- A run that ends is reported. -/
theorem report_exists (hvalid : scenario.valid digit = true)
    (htree : attackTreeStructureIsValid order scenario.attackTree.attackTree = true)
    (hprofile : profile.valid = true) (hiterations : 0 < iterations)
    (hrun : Simulation.repeated (simulation scenario profile applied draws rounds).yearStep
      iterations Simulation.start = some s) (figures : ReportFigures) (seed : Int) :
    ∃ r, report scenario profile figures iterations seed applied s = some r := by
  have haccount := Simulation.run_accounted (simulation_counted hvalid htree hprofile draws rounds)
    hrun
  have hlength : (summarise profile iterations s).losses.length = iterations :=
    (summarise_length profile iterations s).trans haccount.yearCount
  have hnonneg : ∀ loss ∈ (summarise profile iterations s).losses, 0 ≤ loss :=
    fun loss hloss => haccount.losses loss (List.mem_mergeSort.mp hloss)
  have hrows : ∃ rows, contributions (scenarioNodes scenario) s.attempts.attempted s.critical
      (effectiveParameters scenario.attackTree applied) s.events = some rows := by
    refine Option.ne_none_iff_exists'.mp fun hnone => ?_
    obtain ⟨item, hitem, hlacks⟩ := Fallible.mapM_eq_none.mp (Option.map_eq_none_iff.mp hnone)
    obtain ⟨node, hnode, hid⟩ := mem_keys_scenarioNodes
      (List.mem_map_of_mem (List.mem_filter.mp hitem).1)
    rw [← hid, get?_effectiveParameters (distinct_nodeIds htree) hnode] at hlacks
    cases hlacks
  obtain ⟨rows, hrows⟩ := hrows
  obtain ⟨histogram, hhistogram, -⟩ := lossHistogram_counts hnonneg
    (max (percentile (summarise profile iterations s).losses (99 / 100))
      (profile.impactToleranceGbp : ℝ))
  obtain ⟨curve, hcurve, -⟩ := exceedanceCurve_exceeds (summarise_sorted profile iterations s)
    (hlength ▸ hiterations) (max (percentile (summarise profile iterations s).losses (99 / 100))
      (profile.impactToleranceGbp : ℝ))
  refine ⟨_, Option.bind_eq_some_iff.mpr ⟨rows, hrows, Option.bind_eq_some_iff.mpr
    ⟨histogram, hhistogram, Option.map_eq_some_iff.mpr ⟨curve, hcurve, rfl⟩⟩⟩⟩

/-- The probabilities of the exceedance curve are such. -/
theorem curve_mem (hpos : 0 < s.losses.length) {ceiling : ℝ} {curve : List (ExceedancePoint ℝ)}
    (h : exceedanceCurve (summarise profile iterations s).losses ceiling = some curve)
    {point : ExceedancePoint ℝ} (hpoint : point ∈ curve) :
    point.annualProbability ∈ Set.Icc 0 1 := by
  obtain ⟨curve', hcurve, hexceeds⟩ := exceedanceCurve_exceeds
    (summarise_sorted profile iterations s)
    (by rw [summarise_length]; exact hpos) ceiling
  rw [h, Option.some.injEq] at hcurve
  rw [hexceeds.exact point (hcurve ▸ hpoint)]
  exact fraction_mem List.countP_le_length

end

/-- The report of a run accounts for its events: each loses no more than the cap, and the
insurance takes no more than the cover and the loss; what was lost in all is what was lost after
the insurance and what it took; no leaf has more successful events than attempts or than there
were events; and every share and probability is one. -/
theorem simulation_accounts (digit : Char → Bool) (order : SetOrder (String × String))
    (scenario : AttackScenario) (hvalid : scenario.valid digit = true)
    (htree : attackTreeStructureIsValid order scenario.attackTree.attackTree = true)
    (profile : CompanyFinancialProfile) (hprofile : profile.valid = true)
    (figures : ReportFigures) (applied : List Remediation)
    (happlied : ∀ r ∈ applied, r.valid digit = true) (iterations : Nat) (seed : Int)
    (draws : Nat → Rat) (rounds : Nat) (r : SimulationReport)
    (h : simulationReport scenario profile figures iterations seed applied draws rounds =
      .ok (some r)) :
    let sim := simulation scenario profile applied draws rounds
    let log := sim.runLog iterations Simulation.start
    (∀ e ∈ log, 0 ≤ e.grossGbp ∧ e.grossGbp ≤ profile.maximumCredibleSingleLossGbp ∧
      0 ≤ e.recoveryGbp ∧ e.recoveryGbp ≤ min (profile.cyberCoverGbp : ℝ) e.grossGbp) ∧
    r.grossMeanAnnualLossGbp = (log.map LossEvent.grossGbp).sum / iterations ∧
    r.insuranceRecoveryMeanGbp = (log.map LossEvent.recoveryGbp).sum / iterations ∧
    r.expectedEventsPerYear = log.length / iterations ∧
    r.grossMeanAnnualLossGbp = r.meanGbp + r.insuranceRecoveryMeanGbp ∧
    (∀ row ∈ r.attackPathContributions, row.successfulEvents ≤ row.attempts ∧
      row.successfulEvents ≤ log.length ∧ row.shareOfSuccessfulEvents ∈ Set.Icc 0 1 ∧
      row.effectiveSuccessProbability ∈ Set.Icc 0 1 ∧
      row.effectiveDetectionProbability ∈ Set.Icc 0 1) ∧
    r.probabilityOfLossYear ∈ Set.Icc 0 1 ∧ r.exceedanceProbability ∈ Set.Icc 0 1 ∧
    r.detectedEventShare ∈ Set.Icc 0 1 ∧ r.cappedEventShare ∈ Set.Icc 0 1 ∧
    ∀ point ∈ r.lossExceedanceCurve, point.annualProbability ∈ Set.Icc 0 1 := by
  intro sim log
  obtain ⟨s, hrun, hreport, hiterations⟩ := simulationReport_ok h
  have haccount : RunBooked profile iterations log s :=
    Simulation.run_accounted (simulation_counted hvalid htree hprofile draws rounds) hrun
  obtain ⟨hresult, hdetected, hcapped, hrows, ceiling, hcurve⟩ := report_spec hreport
  have hlength : (summarise profile iterations s).losses.length = iterations :=
    (summarise_length profile iterations s).trans haccount.yearCount
  have hpos : 0 < s.losses.length := by
    rw [haccount.yearCount]
    exact lt_of_lt_of_le (by decide) hiterations
  have hgross : r.grossMeanAnnualLossGbp = (log.map LossEvent.grossGbp).sum / iterations := by
    rw [hresult, ← haccount.gross]
    rfl
  have hrecovery : r.insuranceRecoveryMeanGbp =
      (log.map LossEvent.recoveryGbp).sum / iterations := by
    rw [hresult, ← haccount.recovery]
    rfl
  have hmean : r.meanGbp = (log.map LossEvent.netGbp).sum / iterations := by
    rw [hresult, summarise_mean, haccount.net, haccount.yearCount]
  have hsplit : (log.map LossEvent.grossGbp).sum =
      (log.map LossEvent.netGbp).sum + (log.map LossEvent.recoveryGbp).sum := by
    rw [← List.sum_map_add]
    exact congrArg List.sum (List.map_congr_left fun e _ => (sub_add_cancel _ _).symm)
  refine ⟨fun e he => ?_, hgross, hrecovery, ?_, ?_, fun row hrow => ?_, ?_, ?_, ?_, ?_,
    fun point hpoint => curve_mem hpos hcurve hpoint⟩
  · obtain ⟨h1, h2, h3, h4, -⟩ := haccount.sound e he
    exact ⟨h1, h2, h3, h4⟩
  · rw [hresult, ← haccount.events]
    rfl
  · rw [hgross, hmean, hrecovery, hsplit, add_div]
  · obtain ⟨hkey, hattempts, hevents, hshare, p, hp, hsuccess, hdetection⟩ :=
      mem_contributions hrows hrow
    obtain ⟨node, hnode, hid⟩ := mem_keys_scenarioNodes hkey
    obtain ⟨q, hq, hprobable⟩ := effectiveParameters_probable hvalid htree happlied hnode
    rw [hid, hp, Option.some.injEq] at hq
    subst hq
    have hle : s.critical row.attackNodeId ≤ s.events := by
      rw [haccount.critical, haccount.events]
      exact timesIn_le_length haccount.sound _
    refine ⟨?_, ?_, hshare ▸ shareOf_mem hle, hsuccess ▸ hprobable.1, hdetection ▸ hprobable.2⟩
    · rw [hevents, hattempts, haccount.critical]
      exact haccount.attempted _
    · rw [hevents, ← haccount.events]
      exact hle
  · rw [hresult]
    exact fraction_mem haccount.lossYears
  · rw [hresult]
    refine fraction_mem ?_
    rw [← hlength]
    exact Nat.sub_le _ _
  · rw [hdetected, haccount.detected, haccount.events]
    exact shareOf_mem List.countP_le_length
  · rw [hcapped, haccount.capped, haccount.events]
    exact shareOf_mem List.countP_le_length

/-- A run with an event in its first year. -/
theorem simulation_accounts_sample :
    ∃ r, simulationReport sampleScenario sampleProfile ⟨0, 0⟩ 1000 7 [] shiftedDraws 0 =
        .ok (some r) ∧
      r.grossMeanAnnualLossGbp = r.meanGbp + r.insuranceRecoveryMeanGbp := by
  have hprofile : sampleProfile.valid = true := by decide +kernel
  obtain ⟨s, hrun, -, -⟩ := shifted_first [] ⟨1 / 2, 0⟩ ⟨1 / 2, 0⟩ (by decide +kernel)
    (by decide +kernel) (by norm_num) Simulation.start rfl
  obtain ⟨r, hr⟩ := report_exists sampleScenario_valid sampleScenario_tree hprofile
    (by norm_num) hrun ⟨0, 0⟩ 7
  have h : simulationReport sampleScenario sampleProfile ⟨0, 0⟩ 1000 7 [] shiftedDraws 0 =
      .ok (some r) := by
    unfold simulationReport
    rw [if_neg (not_not_intro ⟨le_rfl, by decide⟩), if_neg (by decide)]
    exact congrArg Except.ok (Option.bind_eq_some_iff.mpr ⟨s, hrun, hr⟩)
  have haccounts := simulation_accounts Char.isDigit sampleOrder sampleScenario
    sampleScenario_valid sampleScenario_tree sampleProfile hprofile ⟨0, 0⟩ []
    (fun r hr => absurd hr List.not_mem_nil) 1000 7 shiftedDraws 0 r h
  exact ⟨r, h, haccounts.2.2.2.2.1⟩

end
end Bantam
