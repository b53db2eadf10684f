import Bantam.GraphProjection
import Bantam.Provenance

/-! The public resilience report: the risk model is checked against the catalogue, and a part of
the catalogue is published. -/
namespace Bantam

/-- How the building of the report ends without one. -/
inductive ReportFailure where
  | report (message : String)
  | key (name : String)
  | type
  | number
deriving DecidableEq, Repr

abbrev Report := Except ReportFailure

/-- `raise ResilienceReportError(message)` -/
def refuse {α : Type} (message : String) : Report α := .error (.report message)

/-- The floating point numbers that the report calculates with. -/
structure Floats (F : Type) where
  /-- `float(value)`; none for an integer that is too large. -/
  ofNumber : String → Option F
  zero : F
  one : F
  add : F → F → F
  le : F → F → Bool
  /-- `round(x)`; none for a number that has no integer near it. -/
  rounded : F → Option Int
  /-- `f"{x:.0f}"` -/
  fixed : F → String

/-! Python's operations on JSON values. An identifier that is no string is refused, since the
catalogue and the risk model write strings. -/

/-- `value[key]` -/
def subscript (key : String) : Json → Report Json
  | .obj members =>
    match Json.member? key members with
    | some v => .ok v
    | none => .error (.key key)
  | _ => .error .type

/-- `value.get(key, default)` -/
def getOr (key : String) (default : Json) : Json → Report Json
  | .obj members => .ok ((Json.member? key members).getD default)
  | _ => .error .type

/-- What a loop over the value goes through. -/
def elements : Json → Report (List Json)
  | .arr items => .ok items
  | .obj members => .ok (members.map fun m => .str m.1)
  | .str s => .ok (s.toList.map fun c => .str (String.singleton c))
  | .null | .bool _ | .num _ => .error .type

/-- What a loop over `value.get(key, [])` goes through. -/
def elementsOf (key : String) (v : Json) : Report (List Json) := do
  elements (← getOr key (.arr []) v)

def asName : Json → Report String
  | .str s => .ok s
  | _ => .error .type

def isObject : Json → Bool
  | .obj _ => true
  | _ => false

/-- A list with an element in it. -/
def filled : Json → Option (List Json)
  | .arr (v :: rest) => some (v :: rest)
  | _ => none

/-- `sorted(set(items) - known)` -/
def unknownNames (items : List Json) (known : List String) : Report (List String) := do
  let names ← items.mapM asName
  pure (Text.sorted (names.dedup.filter fun name => name ∉ known))

variable {F : Type}

/-! The risk model. -/

/-- `float(value)` of a number that is no truth value. -/
def numeric (floats : Floats F) (field : String) : Option Json → Report F
  | some (.num text) =>
    match floats.ofNumber text with
    | some x => .ok x
    | none => .error .number
  | _ => refuse (field ++ " must be numeric")

/-- `_probability` -/
def probability (floats : Floats F) (field : String) (value : Option Json) : Report F := do
  let result ← numeric floats field value
  if !(floats.le floats.zero result && floats.le result floats.one) then
    refuse (field ++ " must be between zero and one")
  pure result

/-- `_positive_number` -/
def positiveNumber (floats : Floats F) (field : String) (value : Option Json) : Report F := do
  let result ← numeric floats field value
  if floats.le result floats.zero then refuse (field ++ " must be greater than zero")
  pure result

/-- `_non_empty_string` -/
def nonEmptyString (field : String) : Option Json → Report String
  | some (.str s) =>
    if Text.strip s = "" then refuse (field ++ " must be a non-empty string") else .ok s
  | _ => refuse (field ++ " must be a non-empty string")

def round (floats : Floats F) (x : F) : Report Int :=
  match floats.rounded x with
  | some n => .ok n
  | none => .error .number

/-- `_validate_cost_line_items` -/
def validateCostLineItems (floats : Floats F) (lineItems : Option Json) (field : String)
    (expectedTotal : F) : Report Unit := do
  let some items := lineItems.bind filled | refuse (field ++ " must be a non-empty list")
  let total ← items.zipIdx.foldlM (fun total item => do
    let place := field ++ "[" ++ toString (item.2 + 1) ++ "]"
    if !isObject item.1 then refuse (place ++ " must be an object")
    let _ ← nonEmptyString (place ++ ".label") (item.1.get? "label")
    let amount ← positiveNumber floats (place ++ ".amount_gbp") (item.1.get? "amount_gbp")
    pure (floats.add total amount)) floats.zero
  if (← round floats total) ≠ (← round floats expectedTotal) then
    refuse (field ++ " must sum to " ++ floats.fixed expectedTotal ++ ", got " ++ floats.fixed total)

/-- An `int` that is no `bool`. -/
def integer? : Option Json → Option Int
  | some (.num text) => if isInteger text then text.toInt? else none
  | _ => none

/-- `value == 1` -/
def isOne (floats : Floats F) : Option Json → Bool
  | some (.bool b) => b
  | some (.num text) =>
    match floats.ofNumber text with
    | some x => floats.le floats.one x && floats.le x floats.one
    | none => false
  | _ => false

/-- An object with a string under `id` that is not empty. -/
def named (message : String) (value : Json) : Report String :=
  match value.get? "id" with
  | some (.str s) => if s = "" then refuse message else .ok s
  | _ => refuse message

/-- A node of an attack tree, after those whose identifiers are seen. -/
def validateTreeNode (scenarioId : String) (flowIds seen : List String) (node : Json) :
    Report (List String) := do
  let nodes := scenarioId ++ ".attack_tree.nodes"
  if !isObject node then refuse (nodes ++ " entries must be objects")
  let nodeId ← nonEmptyString (nodes ++ ".id") (node.get? "id")
  if nodeId ∈ seen then
    refuse (scenarioId ++ ".attack_tree has duplicate node id: " ++ nodeId)
  let _ ← nonEmptyString (nodes ++ "." ++ nodeId ++ ".title") (node.get? "title")
  let .arr nodeFlowIds := (node.get? "flow_ids").getD (.arr [])
    | refuse (nodes ++ "." ++ nodeId ++ ".flow_ids must be a list")
  let unknown ← unknownNames nodeFlowIds flowIds
  if unknown ≠ [] then
    refuse (nodes ++ "." ++ nodeId ++ " references unknown catalogue flows: " ++
      ", ".intercalate unknown)
  pure (seen ++ [nodeId])

def validateProbabilityAssumption (floats : Floats F) (scenarioId : String) (assumption : Json) :
    Report Unit := do
  let assumptions := scenarioId ++ ".attack_tree.probability_assumptions"
  if !isObject assumption then refuse (assumptions ++ " entries must be objects")
  let assumptionId ← nonEmptyString (assumptions ++ ".id") (assumption.get? "id")
  let _ ← nonEmptyString (assumptions ++ "." ++ assumptionId ++ ".title") (assumption.get? "title")
  let _ ← probability floats (assumptions ++ "." ++ assumptionId ++ ".probability")
    (assumption.get? "probability")

def validateAttackTree (floats : Floats F) (scenarioId : String) (flowIds : List String)
    (tree : Json) : Report Unit := do
  let field := scenarioId ++ ".attack_tree"
  if !isObject tree then refuse (field ++ " must be an object")
  let _ ← nonEmptyString (field ++ ".root") (tree.get? "root")
  let _ ← positiveNumber floats (field ++ ".traversal_cost_gbp") (tree.get? "traversal_cost_gbp")
  let some nodes := (tree.get? "nodes").bind filled | refuse (field ++ ".nodes must be a list")
  let _ ← nodes.foldlM (validateTreeNode scenarioId flowIds) []
  let some assumptions := (tree.get? "probability_assumptions").bind filled
    | refuse (field ++ ".probability_assumptions must be a list")
  assumptions.forM (validateProbabilityAssumption floats scenarioId)

/-- A value that is there and is not `None`. -/
def given : Option Json → Option Json
  | some .null => none
  | v => v

def assumptionFields : List String :=
  ["detection_mean_hours", "detection_sd_hours", "dwell_shape", "dwell_scale_hours", "blast_alpha",
    "blast_beta"]

/-- A scenario of the risk model, after those whose identifiers are seen. -/
def validateScenario (floats : Floats F) (flowIds seen : List String) (scenario : Json) :
    Report (List String) := do
  if !isObject scenario then refuse "each scenario must be an object"
  let scenarioId ← named "each scenario requires an id" scenario
  if scenarioId ∈ seen then refuse ("duplicate scenario id: " ++ scenarioId)
  let some (.obj members) := scenario.get? "assumptions"
    | refuse (scenarioId ++ ".assumptions must be an object")
  let assumptions := Json.obj members
  let _ ← probability floats (scenarioId ++ ".annual_event_probability")
    (assumptions.get? "annual_event_probability")
  let _ ← probability floats (scenarioId ++ ".conditional_loss_probability")
    (assumptions.get? "conditional_loss_probability")
  let baseLoss ← positiveNumber floats (scenarioId ++ ".base_loss_gbp")
    (assumptions.get? "base_loss_gbp")
  assumptionFields.forM fun field => do
    let _ ← positiveNumber floats (scenarioId ++ "." ++ field) (assumptions.get? field)
  let some linkedFlows := (scenario.get? "flow_ids").bind filled
    | refuse (scenarioId ++ " requires flow_ids")
  let unknown ← unknownNames linkedFlows flowIds
  if unknown ≠ [] then
    refuse (scenarioId ++ " references unknown catalogue flows: " ++ ", ".intercalate unknown)
  if let some costBasis := given (scenario.get? "cost_basis") then
    if !isObject costBasis then refuse (scenarioId ++ ".cost_basis must be an object")
    if let some lineItems := costBasis.get? "line_items" then
      validateCostLineItems floats (some lineItems) (scenarioId ++ ".cost_basis.line_items") baseLoss
  if let some tree := given (scenario.get? "attack_tree") then
    validateAttackTree floats scenarioId flowIds tree
  pure (seen ++ [scenarioId])

def validateReduction (floats : Floats F) (controlId : String) (reduction : String × Json) :
    Report Unit := do
  let field := controlId ++ "." ++ reduction.1
  if !isObject reduction.2 then refuse (field ++ " reduction must be an object")
  ["frequency", "magnitude"].forM fun factor => do
    let _ ← probability floats (field ++ "." ++ factor)
      (some ((reduction.2.get? factor).getD (.nat 0)))

/-- A control of the risk model, after those whose identifiers are seen. -/
def validateControl (floats : Floats F) (scenarioIds seen : List String) (control : Json) :
    Report (List String) := do
  if !isObject control then refuse "each control must be an object"
  let controlId ← named "each control requires an id" control
  if controlId ∈ seen then refuse ("duplicate control id: " ++ controlId)
  let costY1 ← positiveNumber floats (controlId ++ ".cost_y1_gbp") (control.get? "cost_y1_gbp")
  if let some breakdown := control.get? "cost_breakdown" then
    validateCostLineItems floats (some breakdown) (controlId ++ ".cost_breakdown") costY1
  let some (.obj reductions) := control.get? "reductions"
    | refuse (controlId ++ ".reductions must be an object")
  let unknown := Text.sorted (((reductions.map (·.1)).dedup).filter fun name => name ∉ scenarioIds)
  if unknown ≠ [] then
    refuse (controlId ++ " references unknown scenarios: " ++ ", ".intercalate unknown)
  reductions.forM (validateReduction floats controlId)
  pure (seen ++ [controlId])

def validatePreset (controlIds : List String) (preset : Json) : Report Unit := do
  let some (.str presetId) := preset.get? "id" | refuse "each preset requires an id"
  let some (.arr selected) := preset.get? "control_ids"
    | refuse (presetId ++ ".control_ids must be a list")
  let unknown ← unknownNames selected controlIds
  if unknown ≠ [] then
    refuse (presetId ++ " references unknown controls: " ++ ", ".intercalate unknown)

/-- The checks of `validate_risk_model` before it looks at the catalogue. -/
def validateSettings (floats : Floats F) (model : Json) : Report Unit := do
  if !isOne floats (model.get? "version") then refuse "risk model version must be 1"
  let some iterations := integer? (model.get? "iterations")
    | refuse "iterations must be an integer"
  if !(1000 ≤ iterations && iterations ≤ 100000) then
    refuse "iterations must be between 1,000 and 100,000"
  let some seed := integer? (model.get? "seed") | refuse "seed must be a 32-bit unsigned integer"
  if !(0 ≤ seed && seed < 2 ^ 32) then refuse "seed must be a 32-bit unsigned integer"
  let _ ← positiveNumber floats "impact_tolerance_gbp" (model.get? "impact_tolerance_gbp")
  if let some profile := given (model.get? "business_profile") then
    if !isObject profile then refuse "business_profile must be an object"

/-- The flows of the catalogue that the risk model may name. -/
def catalogueFlowIds (catalogue : Json) : Report (List String) := do
  let flows ← elementsOf "default_flows" catalogue
  flows.mapM fun flow => do asName (← subscript "flow_id" flow)

/-- `validate_risk_model` -/
def validateRiskModel (floats : Floats F) (model catalogue : Json) : Report Unit := do
  validateSettings floats model
  let flowIds ← catalogueFlowIds catalogue
  let some scenarios := (model.get? "scenarios").bind filled
    | refuse "risk model requires at least one scenario"
  let scenarioIds ← scenarios.foldlM (validateScenario floats flowIds) []
  let some (.arr controls) := model.get? "controls" | refuse "controls must be a list"
  let controlIds ← controls.foldlM (validateControl floats scenarioIds) []
  let .arr presets := (model.get? "presets").getD (.arr []) | refuse "presets must be a list"
  presets.forM (validatePreset controlIds)

/-! The projection. -/

/-- The keys of `_public_node`. -/
def publicNodeKeys : List String :=
  ["id", "kind", "label", "file", "line", "function_symbol", "signature", "condition",
    "failure_outcomes", "operation", "tables", "durable", "durability", "constraints",
    "database_function"]

/-- `_public_node` -/
def publicNode (node : Json) : Json :=
  .obj (publicNodeKeys.filterMap fun key => (node.get? key).map fun value => (key, value))

/-- `COMMIT_RE.fullmatch` -/
def isCommit (s : String) : Bool :=
  s = "local" || (7 ≤ s.length && s.length ≤ 64 &&
    s.toList.all fun c => c.isDigit || ('a' ≤ c && c ≤ 'f'))

def checkCommit (s : String) : Report Unit :=
  if isCommit s then .ok () else refuse "source commit must be a Git SHA or 'local'"

def nodesById (nodes : List Json) : Report (Dict String Json) := do
  let items ← nodes.mapM fun node => do pure (← asName (← subscript "id" node), node)
  pure (Dict.ofList items)

/-- `scenarios_by_flow` as its items: a flow and a scenario that names it, in order. -/
def scenariosByFlow (model : Json) : Report (List (String × String)) := do
  let scenarios ← elements (← subscript "scenarios" model)
  let items ← scenarios.mapM fun scenario => do
    let flowIds ← elements (← subscript "flow_ids" scenario)
    flowIds.mapM fun flowId => do
      pure (← asName flowId, ← asName (← subscript "id" scenario))
  pure items.flatten

/-- The identifiers of a flow's nodes when all are found; a value that no set can hold is an
error of its own. -/
def foundNodeIds (byId : Dict String Json) (flow : Json) : Report (List String) := do
  let nodeIds ← elementsOf "node_ids" flow
  let found ← nodeIds.mapM fun nodeId =>
    match nodeId with
    | .str s => .ok (if (byId.get? s).isSome then some s else none)
    | .arr _ | .obj _ => .error .type
    | .null | .bool _ | .num _ => .ok none
  if none ∈ found then
    refuse ("flow " ++ (← asName (← subscript "flow_id" flow)) ++ " references missing graph nodes")
  pure (found.filterMap id)

/-- A flow as it is published, and its nodes. -/
def publicFlow (byId : Dict String Json) (byFlow : List (String × String)) (flow : Json) :
    Report (Json × List String) := do
  let nodeIds ← foundNodeIds byId flow
  let flowId ← asName (← subscript "flow_id" flow)
  let name ← subscript "name" flow
  let description ← getOr "description" (.str "") flow
  let actorRoles ← getOr "actor_roles" (.arr []) flow
  let route ← getOr "route" .null flow
  let documentationPath ← getOr "documentation_path" .null flow
  let scenarioIds := (byFlow.filter fun item => item.1 = flowId).map (·.2)
  pure (.obj [("id", .str flowId), ("name", name), ("description", description),
    ("actor_roles", actorRoles), ("route", route), ("documentation_path", documentationPath),
    ("node_ids", .strings nodeIds), ("risk_scenario_ids", .strings (Text.sorted scenarioIds))],
    nodeIds)

/-- `value in referenced_node_ids` -/
def isReferenced (referenced : List String) : Json → Report Bool
  | .str s => .ok (s ∈ referenced)
  | .arr _ | .obj _ => .error .type
  | .null | .bool _ | .num _ => .ok false

/-- An edge as it is published, when both its ends are. -/
def publicEdge (referenced : List String) (edge : Json) : Report (Option Json) := do
  if !(← isReferenced referenced (← getOr "source" .null edge)) then return none
  if !(← isReferenced referenced (← getOr "target" .null edge)) then return none
  let source ← subscript "source" edge
  let target ← subscript "target" edge
  let type ← subscript "type" edge
  let flowIds ← getOr "flow_ids" (.arr []) edge
  pure (some (.obj [("source", source), ("target", target), ("type", type),
    ("flow_ids", flowIds)]))

/-- `dict(sorted(Counter(value[key] for value in values).items()))` -/
def countBy (key : String) (values : List Json) : Report Json := do
  let names ← values.mapM fun value => do asName (← subscript key value)
  pure (.obj ((Text.sorted names.dedup).map fun name => (name, .nat (names.count name))))

def publicationBoundary : Json :=
  .obj [("includes", .strings ["stable graph and flow identifiers",
      "function signatures and check conditions",
      "table-level reads, locks, durable effects, and constraints",
      "source file and line evidence"]),
    ("excludes", .strings ["raw SQL text", "authored documentation bodies",
      "credentials and runtime data", "Mistral requests and responses"])]

/-- `build_public_projection` -/
def buildPublicProjection (floats : Floats F) (sha256 : String → String)
    (catalogue model : Json) (sourceCommit : String) (repositoryEvidence : Json) :
    Report Json := do
  checkCommit sourceCommit
  validateRiskModel floats model catalogue
  let nodes ← elementsOf "nodes" catalogue
  let byId ← nodesById nodes
  let byFlow ← scenariosByFlow model
  let flows ← elementsOf "default_flows" catalogue
  let publicFlows ← flows.mapM (publicFlow byId byFlow)
  let referenced := (publicFlows.flatMap (·.2)).dedup
  let publicNodes := (Text.sorted referenced).filterMap fun nodeId =>
    (byId.get? nodeId).map publicNode
  let edges ← elementsOf "edges" catalogue
  let publicEdges ← edges.mapM (publicEdge referenced)
  let nodeKinds ← countBy "kind" nodes
  let edgeTypes ← countBy "type" edges
  let digest ← subscript "graph_digest" catalogue
  let members := [("version", .nat 1), ("repository", .str "aam57689/bank"),
    ("source_commit", .str sourceCommit), ("catalogue_digest", digest),
    ("catalogue_counts", .obj [("nodes", .nat nodes.length), ("edges", .nat edges.length),
      ("flows", .nat flows.length), ("node_kinds", nodeKinds), ("edge_types", edgeTypes)]),
    ("publication_boundary", publicationBoundary), ("repository_evidence", repositoryEvidence),
    ("flows", .arr (publicFlows.map (·.1))), ("nodes", .arr publicNodes),
    ("edges", .arr (publicEdges.filterMap id))]
  pure (.obj (members ++ [("projection_digest", .str (canonicalSha sha256 (.obj members)))]))

end Bantam
