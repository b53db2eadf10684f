import Bantam.FinancialHistory
import Bantam.Schema
import Bantam.SoftwareInventory

/-! The attack lab: sets of scenarios, simulations of them and plans against them. Any number of
requests run at once, one statement at a time; what a row was made of is on record, and a
simulation can be run again. -/
namespace Bantam
open Tables Runs
noncomputable section

/-! The tables. -/

inductive GraphSource where
  | builtin | repositorySnapshot
  deriving DecidableEq

/-- A row of `repository_graph_snapshots`. -/
structure GraphSnapshotRow where
  snapshotId : Uuid
  graph : Catalog

/-- A row of `attack_scenario_sets`. -/
structure ScenarioSetRow where
  scenarioSetId : Uuid
  graphSource : GraphSource
  snapshotId : Option Uuid
  graphDigest : String
  financialProfileVersion : Int
  financialProfileDigest : String
  financialProfile : FinancialProfile
  softwareInventory : SoftwareInventory
  modelResult : ModelResult AttackScenarioSet
  createdBy : Uuid

structure SimulationOutcome where
  baseline : SimulationReport
  residual : Option SimulationReport
  economics : Option Economics

/-- A row of `attack_simulations`. -/
structure SimulationRow where
  simulationId : Uuid
  scenarioSetId : Uuid
  scenarioId : String
  iterations : Nat
  seed : Int
  remediationPlanId : Option Uuid
  appliedRemediationIds : List String
  result : SimulationOutcome
  createdBy : Uuid

/-- A row of `attack_remediation_plans`. -/
structure PlanRow where
  remediationPlanId : Uuid
  simulationId : Uuid
  scenarioSetId : Uuid
  scenarioId : String
  modelResult : ModelResult RemediationPlan
  createdBy : Uuid

/-- The audit records of the lab, with their metadata. -/
inductive LabAudit where
  | scenariosGenerated (actorId scenarioSetId : Uuid) (graphSource : GraphSource)
      (graphDigest : String) (financialProfileVersion : Int) (modelStatus : ModelStatus)
      (modelErrorCode : Option String)
  | simulationRun (actorId simulationId scenarioSetId : Uuid) (scenarioId : String)
      (iterations : Nat) (seed : Int) (appliedRemediationIds : List String)
      (meanAnnualLossGbp : ℝ)
  | remediationsGenerated (actorId planId scenarioSetId simulationId : Uuid) (scenarioId : String)
      (modelStatus : ModelStatus) (modelErrorCode : Option String)

structure LabDb where
  snapshots : List GraphSnapshotRow
  sets : List ScenarioSetRow
  simulations : List SimulationRow
  plans : List PlanRow
  audits : List LabAudit

inductive LabRow where
  | scenarioSet (row : ScenarioSetRow)
  | simulation (row : SimulationRow)
  | plan (row : PlanRow)

def ScenarioSetRow.audit (row : ScenarioSetRow) : LabAudit :=
  .scenariosGenerated row.createdBy row.scenarioSetId row.graphSource row.graphDigest
    row.financialProfileVersion row.modelResult.status row.modelResult.errorCode

def SimulationRow.audit (row : SimulationRow) : LabAudit :=
  .simulationRun row.createdBy row.simulationId row.scenarioSetId row.scenarioId row.iterations
    row.seed row.appliedRemediationIds row.result.baseline.meanGbp

def PlanRow.audit (row : PlanRow) : LabAudit :=
  .remediationsGenerated row.createdBy row.remediationPlanId row.scenarioSetId row.simulationId
    row.scenarioId row.modelResult.status row.modelResult.errorCode

namespace LabDb

/-- `char_length(scenario_id) BETWEEN 1 AND 120` -/
def scenarioIdFits (scenarioId : String) : Prop :=
  1 ≤ scenarioId.length ∧ scenarioId.length ≤ 120

instance (scenarioId : String) : Decidable (scenarioIdFits scenarioId) :=
  inferInstanceAs (Decidable (_ ∧ _))

def insertSet (row : ScenarioSetRow) (db : LabDb) : Except Failure LabDb := do
  Db.require .uniqueViolation (row.scenarioSetId ∉ db.sets.map ScenarioSetRow.scenarioSetId)
  Db.require .checkViolation (row.graphSource = .repositorySnapshot ↔ row.snapshotId.isSome)
  Db.require .checkViolation (0 ≤ row.financialProfileVersion)
  Db.require .foreignKeyViolation
    (∀ id ∈ row.snapshotId, id ∈ db.snapshots.map GraphSnapshotRow.snapshotId)
  return { db with sets := db.sets ++ [row], audits := db.audits ++ [row.audit] }

def insertSimulation (row : SimulationRow) (db : LabDb) : Except Failure LabDb := do
  Db.require .uniqueViolation (row.simulationId ∉ db.simulations.map SimulationRow.simulationId)
  Db.require .checkViolation (scenarioIdFits row.scenarioId)
  Db.require .checkViolation (1000 ≤ row.iterations ∧ row.iterations ≤ 50000)
  Db.require .checkViolation (0 ≤ row.seed ∧ row.seed ≤ 4294967295)
  Db.require .foreignKeyViolation (row.scenarioSetId ∈ db.sets.map ScenarioSetRow.scenarioSetId)
  Db.require .foreignKeyViolation
    (∀ id ∈ row.remediationPlanId, id ∈ db.plans.map PlanRow.remediationPlanId)
  return { db with simulations := db.simulations ++ [row], audits := db.audits ++ [row.audit] }

def insertPlan (row : PlanRow) (db : LabDb) : Except Failure LabDb := do
  Db.require .uniqueViolation (row.remediationPlanId ∉ db.plans.map PlanRow.remediationPlanId)
  Db.require .checkViolation (scenarioIdFits row.scenarioId)
  Db.require .foreignKeyViolation
    (row.simulationId ∈ db.simulations.map SimulationRow.simulationId)
  Db.require .foreignKeyViolation (row.scenarioSetId ∈ db.sets.map ScenarioSetRow.scenarioSetId)
  return { db with plans := db.plans ++ [row], audits := db.audits ++ [row.audit] }

/-- The transaction that inserts a row and its audit record. -/
def insert : LabRow → LabDb → Except Failure LabDb
  | .scenarioSet row => insertSet row
  | .simulation row => insertSimulation row
  | .plan row => insertPlan row

end LabDb

/-! The service. -/

/-- What the service rests on: the model requests, the default catalogue, the stream of numbers
behind a seed, how far it is followed, and how a report is written for the model. -/
structure LabService where
  financials : FinancialsService
  graph : GraphModel
  builtinCatalog : Catalog
  casefold : String → String
  stream : Int → Nat → Rat
  rounds : Nat
  reportJson : SimulationReport → Json

structure ScenarioRequest where
  graphSource : GraphSource
  snapshotId : Option Uuid
  sendToMistral : Bool
  scenarioCount : Int

structure SimulationRequest where
  scenarioId : String
  iterations : Nat
  seed : Int
  remediationPlanId : Option Uuid
  remediationIds : List String

def snapshotIdRequired : BantamError :=
  ⟨"INVALID_GRAPH_SOURCE", "a repository snapshot id is required for a snapshot graph source", 422⟩
def graphSnapshotNotFound : BantamError :=
  ⟨"NOT_FOUND", "repository graph snapshot was not found", 404⟩
def scenarioSetNotFound : BantamError := ⟨"NOT_FOUND", "attack scenario set was not found", 404⟩
def attackScenariosUnavailable : BantamError :=
  ⟨"ATTACK_SCENARIOS_UNAVAILABLE", "this set has no validated attack scenarios to simulate", 409⟩
def attackScenarioNotFound : BantamError :=
  ⟨"NOT_FOUND", "attack scenario was not found in this set", 404⟩
def simulationNotFound : BantamError := ⟨"NOT_FOUND", "simulation was not found in this set", 404⟩

/-- `_scenario` -/
def ScenarioSetRow.scenario (row : ScenarioSetRow) (scenarioId : String) :
    Except Failure AttackScenario :=
  match row.modelResult.value with
  | none => .error (.bantam attackScenariosUnavailable)
  | some set =>
    match set.scenarios.find? (·.scenarioId = scenarioId) with
    | none => .error (.bantam attackScenarioNotFound)
    | some scenario => .ok scenario

/-- What the selection of remediations reads of a plan. -/
def PlanRow.remediations (row : PlanRow) : RemediationPlanRow :=
  ⟨row.scenarioSetId, row.scenarioId, row.modelResult.value⟩

namespace LabDb

/-- `_catalog_for` -/
def catalogFor (service : LabService) (graphSource : GraphSource) (snapshotId : Option Uuid)
    (db : LabDb) : Except Failure (Catalog × Option Uuid) :=
  match graphSource with
  | .builtin => .ok (service.builtinCatalog, none)
  | .repositorySnapshot =>
    match snapshotId with
    | none => .error (.bantam snapshotIdRequired)
    | some id =>
      match lookup GraphSnapshotRow.snapshotId id db.snapshots with
      | none => .error (.bantam graphSnapshotNotFound)
      | some row => .ok (row.graph, some id)

/-- `_set_row` -/
def setRow (scenarioSetId : Uuid) (db : LabDb) : Except Failure ScenarioSetRow :=
  match lookup ScenarioSetRow.scenarioSetId scenarioSetId db.sets with
  | none => .error (.bantam scenarioSetNotFound)
  | some row => .ok row

/-- The remediations that a request names; none where it names no plan. -/
def selection (scenarioSetId : Uuid) (r : SimulationRequest) (db : LabDb) :
    Except Failure (List Remediation) :=
  match r.remediationPlanId with
  | none => .ok []
  | some planId =>
    selectedRemediations ((lookup PlanRow.remediationPlanId planId db.plans).map
      PlanRow.remediations) scenarioSetId r.scenarioId r.remediationIds

/-- The row of a simulation, where it is one of the set. -/
def simulationRow (scenarioSetId simulationId : Uuid) (db : LabDb) : Except Failure SimulationRow :=
  match lookup SimulationRow.simulationId simulationId db.simulations with
  | none => .error (.bantam simulationNotFound)
  | some row =>
    if row.scenarioSetId ≠ scenarioSetId then .error (.bantam simulationNotFound) else .ok row

end LabDb

namespace LabService
variable (service : LabService)

def simulate (scenario : AttackScenario) (profile : FinancialProfile) (iterations : Nat)
    (seed : Int) (remediations : List Remediation) : Except BantamError (Option SimulationReport) :=
  simulationReport scenario profile.limits profile.figures iterations seed remediations
    (service.stream seed) service.rounds

/-- The `result` of a simulation; none while a sampler has not ended within the rounds. -/
def outcome (scenario : AttackScenario) (profile : FinancialProfile) (iterations : Nat)
    (seed : Int) (selected : List Remediation) : Except Failure (Option SimulationOutcome) :=
  match service.simulate scenario profile iterations seed [] with
  | .error e => .error (.bantam e)
  | .ok none => .ok none
  | .ok (some baseline) =>
    if selected = [] then .ok (some ⟨baseline, none, none⟩)
    else
      match service.simulate scenario profile iterations seed selected with
      | .error e => .error (.bantam e)
      | .ok none => .ok none
      | .ok (some residual) => .ok (some ⟨baseline, some residual, some (programmeEconomics
          baseline.toSimulationResult residual.toSimulationResult selected)⟩)

end LabService

/-- The inventory as the requests to the model read it. -/
def SoftwareInventory.forModel (inventory : SoftwareInventory) : Inventory where
  derivation := inventory.derivation
  components := inventory.components.map InventoryComponent.toSoftwareComponent
  busiestModules := .arr (inventory.busiestModules.map fun m =>
    .obj [("path", .str m.path), ("node_count", .nat m.nodeCount)])

def evidenceFields : List String :=
  ["kind", "label", "file", "signature", "condition", "operation", "tables"]

/-- The nodes of the catalogue that a scenario cites. -/
def citedNodes (scenario : AttackScenario) (catalog : Catalog) : List GraphNode :=
  catalog.nodes.filter fun node =>
    node.id ∈ scenario.attackTree.nodes.flatMap (·.graphNodeIds)

/-- `_graph_evidence` -/
def graphEvidence (scenario : AttackScenario) (catalog : Catalog) : List GraphNode :=
  (citedNodes scenario catalog).map fun node =>
    { node with
      fields := evidenceFields.filterMap fun key => (node.field? key).map fun v => (key, v) }

/-! Requests. -/

/-- Where a request is, with what it has read. -/
inductive LabStage where
  | generating (r : ScenarioRequest)
  | catalogued (r : ScenarioRequest) (catalog : Catalog) (snapshotId : Option Uuid)
  | simulating (scenarioSetId : Uuid) (r : SimulationRequest)
  | attacking (set : ScenarioSetRow) (scenario : AttackScenario) (r : SimulationRequest)
  | remediating (scenarioSetId simulationId : Uuid)
  | pinned (set : ScenarioSetRow) (simulationId : Uuid)
  | analysing (set : ScenarioSetRow) (simulation : SimulationRow) (scenario : AttackScenario)
  | storing (row : LabRow)
  | returned (result : Except Failure LabRow)
  | crashed

/-- A request, with the identifier that is drawn for its row, and what the model answers it. -/
structure LabCall where
  rowId : Uuid
  createdBy : Uuid
  client : Option ModelsClient
  stage : LabStage

namespace LabCall
variable (service : LabService) (c : LabCall)

/-- The row of `generate_scenarios`. -/
def scenarioSet (r : ScenarioRequest) (catalog : Catalog) (snapshotId : Option Uuid)
    (current : CurrentProfile) : Except Failure ScenarioSetRow := do
  let inventory := buildSoftwareInventory service.casefold catalog
  let result ← generateAttackScenarios service.graph catalog current.profile.document
    inventory.forModel c.client r.sendToMistral r.scenarioCount
  return {
    scenarioSetId := c.rowId
    graphSource := r.graphSource
    snapshotId := snapshotId
    graphDigest := catalog.graphDigest
    financialProfileVersion := current.version
    financialProfileDigest := current.profileDigest
    financialProfile := current.profile
    softwareInventory := inventory
    modelResult := result
    createdBy := c.createdBy }

/-- The row of `simulate`. -/
def simulation (set : ScenarioSetRow) (r : SimulationRequest) (selected : List Remediation)
    (outcome : SimulationOutcome) : SimulationRow where
  simulationId := c.rowId
  scenarioSetId := set.scenarioSetId
  scenarioId := r.scenarioId
  iterations := r.iterations
  seed := r.seed
  remediationPlanId := r.remediationPlanId
  appliedRemediationIds := selected.map Remediation.remediationId
  result := outcome
  createdBy := c.createdBy

/-- The row of `remediate`. -/
def plan (set : ScenarioSetRow) (simulation : SimulationRow) (scenario : AttackScenario)
    (catalog : Catalog) : Except Failure PlanRow := do
  let result ← generateRemediations service.graph scenario
    (service.reportJson simulation.result.baseline) set.financialProfile.document
    set.softwareInventory.forModel (graphEvidence scenario catalog) c.client
  return {
    remediationPlanId := c.rowId
    simulationId := simulation.simulationId
    scenarioSetId := set.scenarioSetId
    scenarioId := simulation.scenarioId
    modelResult := result
    createdBy := c.createdBy }

/-- What a request comes to when it has read, from the profiles that are committed by then. -/
def read (order : NewestVersion) (profiles : List ProfileRow) (db : LabDb) :
    Except Failure LabStage :=
  match c.stage with
  | .generating r => do
    let (catalog, snapshotId) ← db.catalogFor service r.graphSource r.snapshotId
    return .catalogued r catalog snapshotId
  | .catalogued r catalog snapshotId => do
    let row ← c.scenarioSet service r catalog snapshotId
      (currentProfile service.financials order profiles)
    return .storing (.scenarioSet row)
  | .simulating scenarioSetId r => do
    let set ← db.setRow scenarioSetId
    let scenario ← set.scenario r.scenarioId
    return .attacking set scenario r
  | .attacking set scenario r => do
    let selected ← db.selection set.scenarioSetId r
    match ← service.outcome scenario set.financialProfile r.iterations r.seed selected with
    | none => return c.stage
    | some outcome => return .storing (.simulation (c.simulation set r selected outcome))
  | .remediating scenarioSetId simulationId => do
    let set ← db.setRow scenarioSetId
    return .pinned set simulationId
  | .pinned set simulationId => do
    let simulation ← db.simulationRow set.scenarioSetId simulationId
    let scenario ← set.scenario simulation.scenarioId
    return .analysing set simulation scenario
  | .analysing set simulation scenario => do
    let (catalog, _) ← db.catalogFor service set.graphSource set.snapshotId
    let row ← c.plan service set simulation scenario catalog
    return .storing (.plan row)
  | stage => return stage

/-- The next step of a request: it reads, or it commits its row. -/
def advance (order : NewestVersion) (profiles : List ProfileRow) (db : LabDb) :
    LabStage × LabDb :=
  match c.stage with
  | .storing row =>
    match db.insert row with
    | .error e => (.returned (.error e), db)
    | .ok db' => (.returned (.ok row), db')
  | _ =>
    match c.read service order profiles db with
    | .error e => (.returned (.error e), db)
    | .ok stage => (stage, db)

end LabCall

structure LabState where
  financials : FinancialsState
  db : LabDb
  calls : List LabCall

def LabState.initial : LabState := ⟨.initial, ⟨[], [], [], [], []⟩, []⟩

inductive LabEvent where
  | financials (e : FinancialsEvent)
  | importSnapshot (row : GraphSnapshotRow)
  | generate (rowId createdBy : Uuid) (client : Option ModelsClient) (r : ScenarioRequest)
  | simulate (rowId createdBy scenarioSetId : Uuid) (r : SimulationRequest)
  | remediate (rowId createdBy : Uuid) (client : Option ModelsClient)
      (scenarioSetId simulationId : Uuid)
  | advance (i : Nat)
  | crash (i : Nat)

def LabState.submit (s : LabState) (c : LabCall) : LabState := { s with calls := s.calls ++ [c] }

def labStep (service : LabService) (order : NewestVersion) (s : LabState) : LabEvent → LabState
  | .financials e => { s with financials := financialsStep service.financials s.financials e }
  | .importSnapshot row =>
    if row.snapshotId ∈ s.db.snapshots.map GraphSnapshotRow.snapshotId then s
    else { s with db := { s.db with snapshots := s.db.snapshots ++ [row] } }
  | .generate rowId createdBy client r => s.submit ⟨rowId, createdBy, client, .generating r⟩
  | .simulate rowId createdBy scenarioSetId r =>
    s.submit ⟨rowId, createdBy, none, .simulating scenarioSetId r⟩
  | .remediate rowId createdBy client scenarioSetId simulationId =>
    s.submit ⟨rowId, createdBy, client, .remediating scenarioSetId simulationId⟩
  | .advance i =>
    match s.calls[i]? with
    | none => s
    | some c =>
      let (stage, db) := c.advance service order s.financials.profiles s.db
      { s with db := db, calls := s.calls.set i { c with stage := stage } }
  | .crash i =>
    match s.calls[i]? with
    | none => s
    | some c =>
      match c.stage with
      | .returned _ => s
      | _ => { s with calls := s.calls.set i { c with stage := .crashed } }

/-- What a reviewer runs again for a row: the request that it records. -/
def SimulationRow.request (row : SimulationRow) : SimulationRequest where
  scenarioId := row.scenarioId
  iterations := row.iterations
  seed := row.seed
  remediationPlanId := row.remediationPlanId
  remediationIds := row.appliedRemediationIds

/-- A request from its first statement to its result, with none between. -/
def LabDb.replay (service : LabService) (scenarioSetId : Uuid) (r : SimulationRequest)
    (db : LabDb) : Except Failure (Option SimulationOutcome) := do
  let set ← db.setRow scenarioSetId
  let scenario ← set.scenario r.scenarioId
  let selected ← db.selection set.scenarioSetId r
  service.outcome scenario set.financialProfile r.iterations r.seed selected

end
end Bantam
