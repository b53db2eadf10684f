import Bantam.AnswerSchemas
import Bantam.GraphProjection

/-! What a model may cite: the answers that the service accepts name nothing beyond what the
model was sent. -/
namespace Bantam

/-! Requests. -/

/-- A request to the model: the name of its schema, how many scenarios it asks for and the
documents of its prompt, by their names there. -/
structure ModelRequest where
  schemaName : String
  asked : Option Nat := none
  documents : List (String × Json)

structure ModelOutput where
  content : String
  requestId : Option String
  inputTokens : Option Nat
  outputTokens : Option Nat

/-- How a client fails: with a `ModelRequestError` of some code, or otherwise. -/
inductive ClientFailure where
  | request (code : String)
  | other (failure : Failure)

abbrev ModelsClient := ModelRequest → Except ClientFailure ModelOutput

/-- What the requests rest on beside the schema library: the redaction of the service, how a
number is written, and in what order a set is gone through. -/
structure GraphModel where
  redact : String → String
  writeFloat : Rat → String
  asFloat : String → String
  order : SetOrder (String × String)
  reader : AnswerReader

/-- `v[key]` -/
def need (v : Json) (key : String) : Except Failure Json :=
  match v.get? key with
  | some value => .ok value
  | none => .error (.runtime key)

/-- `{key: v[key] for key in keys}` -/
def selectKeys (keys : List String) (v : Json) : Except Failure Json := do
  let members ← keys.mapM fun key => (need v key).map fun value => (key, value)
  pure (.obj members)

/-! The software inventory. -/

structure SoftwareComponent where
  componentId : String
  name : String
  category : String
  detail : String
deriving DecidableEq, Repr

structure Inventory where
  derivation : String
  components : List SoftwareComponent
  busiestModules : Json

/-- `_inventory_context` -/
def Inventory.context (inventory : Inventory) : Json :=
  .obj [("derivation", .str inventory.derivation),
    ("components", .arr (inventory.components.map fun c =>
      .obj [("component_id", .str c.componentId), ("name", .str c.name),
        ("category", .str c.category), ("detail", .str c.detail)])),
    ("busiest_modules", inventory.busiestModules)]

/-! The financial profile. -/

/-- `FINANCIAL_INPUT_NAMES`, each with its section and its field. -/
def financialInputNames : List (String × String) :=
  [("income", "annual_revenue_gbp"), ("income", "net_income_gbp"),
    ("income", "operating_expenses_gbp"), ("balance_sheet", "total_assets_gbp"),
    ("balance_sheet", "customer_deposits_gbp"), ("balance_sheet", "shareholder_equity_gbp"),
    ("balance_sheet", "liquid_reserves_gbp"), ("operations", "active_customers"),
    ("operations", "daily_payment_volume_gbp"), ("operations", "average_payment_gbp"),
    ("operations", "employees"), ("risk_appetite", "impact_tolerance_gbp"),
    ("risk_appetite", "maximum_credible_single_loss_gbp"),
    ("risk_appetite", "annual_security_budget_gbp"), ("risk_appetite", "cost_of_capital_pct"),
    ("insurance", "cyber_cover_gbp"), ("insurance", "retention_gbp"),
    ("regulatory", "maximum_penalty_pct_of_revenue"),
    ("regulatory", "notification_window_hours")]

def inputName (input : String × String) : String := input.1 ++ "." ++ input.2

/-- `financial_inputs`, for a profile whose sections are objects. -/
def financialInputs (model : GraphModel) (profile : Json) : Json :=
  .obj (financialInputNames.filterMap fun input =>
    match (profile.get? input.1).bind (Json.get? input.2) with
    | some (.num text) => some (inputName input, .num (model.asFloat text))
    | _ => none)

/-- `_financial_context` -/
def financialContext (model : GraphModel) (profile : Json) : Except Failure Json := do
  let legalEntity ← need profile "legal_entity"
  let reportingCurrency ← need profile "reporting_currency"
  let fiscalYear ← need profile "fiscal_year"
  let statementOfScope ← need profile "statement_of_scope"
  pure (.obj [("legal_entity", legalEntity), ("reporting_currency", reportingCurrency),
    ("fiscal_year", fiscalYear), ("statement_of_scope", statementOfScope),
    ("inputs", financialInputs model profile),
    ("citable_input_names", .strings (financialInputNames.map inputName))])

/-! A scenario and its simulation. -/

def AttackNodeKind.str : AttackNodeKind → String
  | .goal => "GOAL"
  | .subgoal => "SUBGOAL"
  | .action => "ACTION"

def AttackOperator.str : AttackOperator → String
  | .and => "AND"
  | .or => "OR"
  | .leaf => "LEAF"

/-- `mitre_technique_url` -/
def mitreTechniqueUrl (techniqueId : String) : String :=
  let base := "https://attack.mitre.org/techniques/".toList
  let parent := techniqueId.toList.takeWhile (· ≠ '.')
  let sub := techniqueId.toList.drop (parent.length + 1)
  if sub.isEmpty then String.ofList (base ++ parent ++ ['/'])
  else String.ofList (base ++ parent ++ '/' :: sub ++ ['/'])

/-- A technique with the link that `_decorate_scenarios` gives it. -/
def MitreTechnique.toJson (technique : MitreTechnique) : Json :=
  .obj [("technique_id", .str technique.techniqueId), ("name", .str technique.name),
    ("tactic", .str technique.tactic), ("url", .str (mitreTechniqueUrl technique.techniqueId))]

def treeNodeContext (model : GraphModel) (node : ScenarioAttackNode) : Json :=
  .obj [("attack_node_id", .str node.attackNodeId), ("title", .str node.title),
    ("description", .str node.description), ("kind", .str node.kind.str),
    ("operator", .str node.operator.str), ("graph_node_ids", .strings node.graphNodeIds),
    ("mitre_technique_ids", .strings node.mitreTechniqueIds),
    ("success_probability", .num (model.writeFloat node.successProbability)),
    ("detection_probability", .num (model.writeFloat node.detectionProbability))]

/-- `_tree_context` -/
def treeContext (model : GraphModel) (scenario : AttackScenario) : Json :=
  .obj [("scenario_id", .str scenario.scenarioId), ("name", .str scenario.name),
    ("business_service", .str scenario.businessService), ("narrative", .str scenario.narrative),
    ("mitre_techniques", .arr (scenario.mitreTechniques.map (·.toJson))),
    ("attack_tree", .obj [("title", .str scenario.attackTree.title),
      ("root_attack_node_id", .str scenario.attackTree.rootAttackNodeId),
      ("nodes", .arr (scenario.attackTree.nodes.map (treeNodeContext model))),
      ("edges", .arr (scenario.attackTree.edges.map fun edge =>
        .obj [("parent_attack_node_id", .str edge.parentAttackNodeId),
          ("child_attack_node_id", .str edge.childAttackNodeId)]))])]

/-- `_simulation_digest` -/
def simulationDigest (simulation : Json) : Except Failure Json := do
  let heads ← ["iterations", "seed", "annual_loss", "expected_events_per_year",
      "probability_of_loss_year", "exceedance_probability", "impact_tolerance_gbp",
      "detected_event_share"].mapM fun key => (need simulation key).map fun value => (key, value)
  let contributions ← match simulation.get? "attack_path_contributions" with
    | some (.arr items) => items.mapM (selectKeys ["attack_node_id", "title",
        "share_of_successful_events", "effective_success_probability",
        "effective_detection_probability", "graph_node_ids"])
    | _ => .error (.runtime "attack_path_contributions")
  pure (.obj (heads ++ [("attack_path_contributions", .arr contributions)]))

/-! The three requests. -/

/-- `build_repository_model_request` -/
def buildRepositoryModelRequest (model : GraphModel) (catalog : Catalog) :
    Except Failure (ModelRequest × Projection) := do
  let projection ← redactedGraphProjection model.redact catalog
  pure ({ schemaName := "repository_graph_security_analysis"
          documents := [("GRAPH_JSON", projection.toJson)] }, projection)

/-- `build_scenario_request` -/
def buildScenarioRequest (model : GraphModel) (catalog : Catalog) (profile : Json)
    (inventory : Inventory) (scenarioCount : Int) : Except Failure (ModelRequest × Projection) := do
  let projection ← redactedGraphProjection model.redact catalog
  let financials ← financialContext model profile
  pure ({ schemaName := "bantam_attack_scenarios"
          asked := some (max (minScenarios : Int) (min (maxScenarios : Int) scenarioCount)).toNat
          documents := [("GRAPH_JSON", projection.toJson), ("SOFTWARE_JSON", inventory.context),
            ("FINANCIALS_JSON", financials)] }, projection)

/-- `build_remediation_request` -/
def buildRemediationRequest (model : GraphModel) (scenario : AttackScenario) (simulation profile : Json)
    (inventory : Inventory) (evidence : List GraphNode) : Except Failure ModelRequest := do
  let digest ← simulationDigest simulation
  let financials ← financialContext model profile
  pure { schemaName := "bantam_attack_remediations"
         documents := [("SCENARIO_JSON", treeContext model scenario), ("SIMULATION_JSON", digest),
           ("EVIDENCE_JSON", .arr (evidence.map (·.toJson))),
           ("SOFTWARE_JSON", inventory.context), ("FINANCIALS_JSON", financials)] }

/-! The checks of what an answer cites. -/

def isLeaf (node : ScenarioAttackNode) : Bool := node.operator = .leaf

/-- The loop of `_scenario_reference_error` over the nodes of a tree. -/
def nodeReferenceError (projection : Projection) (techniques : List String)
    (node : ScenarioAttackNode) : Option String :=
  if ¬node.graphNodeIds ⊆ projection.nodes.map (·.id) then some "ATTACK_SCENARIO_REFERENCE_INVALID"
  else if ¬node.flowIds ⊆ projection.flows.map (·.flowId) then
    some "ATTACK_SCENARIO_REFERENCE_INVALID"
  else if ¬node.mitreTechniqueIds ⊆ techniques then some "ATTACK_SCENARIO_TECHNIQUE_INVALID"
  else none

/-- `_scenario_reference_error`, after the scenarios of some identifiers. -/
def scenarioReferenceError (model : GraphModel) (projection : Projection) :
    List String → List AttackScenario → Option String
  | _, [] => none
  | seen, scenario :: rest =>
    if scenario.scenarioId ∈ seen then some "ATTACK_SCENARIO_DUPLICATE_ID"
    else match scenario.attackTree.nodes.findSome?
        (nodeReferenceError projection (scenario.mitreTechniques.map (·.techniqueId))) with
      | some code => some code
      | none =>
        if ¬scenario.financials.financialInputsUsed ⊆ financialInputNames.map inputName then
          some "ATTACK_SCENARIO_FINANCIAL_INPUT_INVALID"
        else if scenario.financials.primaryLoss.maximumGbp ≤ 0 then
          some "ATTACK_SCENARIO_FINANCIAL_INPUT_INVALID"
        else if !attackTreeStructureIsValid model.order scenario.attackTree.attackTree then
          some "ATTACK_SCENARIO_TREE_INVALID"
        else if (scenario.attackTree.nodes.filter isLeaf).length < 2 then
          some "ATTACK_SCENARIO_TREE_INVALID"
        else scenarioReferenceError model projection (scenario.scenarioId :: seen) rest

/-- `_remediation_reference_error`, after the remediations of some identifiers. -/
def remediationReferenceError (scenario : AttackScenario) (inventory : Inventory)
    (evidence : List GraphNode) : List String → List Remediation → Option String
  | _, [] => none
  | seen, r :: rest =>
    let attackNodes := scenario.attackTree.nodes.map (·.attackNodeId)
    let leaves := (scenario.attackTree.nodes.filter isLeaf).map (·.attackNodeId)
    if r.remediationId ∈ seen then some "REMEDIATION_DUPLICATE_ID"
    else if ¬r.targetAttackNodeIds ⊆ attackNodes then some "REMEDIATION_REFERENCE_INVALID"
    else if !(r.targetAttackNodeIds.any (· ∈ leaves)) then some "REMEDIATION_TARGETS_NO_ACTION"
    else if ¬r.graphNodeIds ⊆ evidence.map (·.id) then some "REMEDIATION_REFERENCE_INVALID"
    else if ¬r.softwareComponentIds ⊆ inventory.components.map (·.componentId) then
      some "REMEDIATION_SOFTWARE_INVALID"
    else remediationReferenceError scenario inventory evidence (r.remediationId :: seen) rest

/-- The checks of `generate_repository_narrative`. -/
def narrativeReferenceError (model : GraphModel) (projection : Projection)
    (narrative : RepositoryNarrative) : Option String :=
  let allowedNodes := projection.nodes.map (·.id)
  let allowedFlows := projection.flows.map (·.flowId)
  if (narrative.architecture.any fun layer => layer.nodeIds.any (· ∉ allowedNodes)) ||
      (narrative.importantFlows.any fun flow => flow.flowId ∉ allowedFlows) ||
      (narrative.attackTree.nodes.any fun node => node.graphNodeIds.any (· ∉ allowedNodes)) ||
      (narrative.attackTree.nodes.any fun node => node.flowIds.any (· ∉ allowedFlows)) then
    some "REPOSITORY_MODEL_REFERENCE_INVALID"
  else if !attackTreeStructureIsValid model.order narrative.attackTree.attackTree then
    some "REPOSITORY_MODEL_ATTACK_TREE_INVALID"
  else none

/-! The three calls. -/

inductive ModelStatus where
  | skipped | disabled | failed | ready
deriving DecidableEq, Repr

/-- What a call returns, but for the digests of its provenance. -/
structure ModelResult (α : Type) where
  status : ModelStatus
  errorCode : Option String := none
  value : Option α := none
  providerRequestId : Option String := none
  inputTokens : Option Nat := none
  outputTokens : Option Nat := none

/-- The call of the model, with the reading and the checks of its answer. -/
def askModel {α : Type} (client : ModelsClient) (request : ModelRequest)
    (read : String → Option α) (invalid : String) (referenceError : α → Option String) :
    Except Failure (ModelResult α) :=
  match client request with
  | .error (.request code) => .ok { status := .failed, errorCode := some code }
  | .error (.other failure) => .error failure
  | .ok output =>
    match read output.content with
    | none => .ok { status := .failed, errorCode := some invalid }
    | some answer =>
      match referenceError answer with
      | some code => .ok { status := .failed, errorCode := some code }
      | none => .ok
        { status := .ready
          value := some answer
          providerRequestId := output.requestId
          inputTokens := output.inputTokens
          outputTokens := output.outputTokens }

def notConfigured {α : Type} : ModelResult α :=
  { status := .disabled, errorCode := some "MISTRAL_NOT_CONFIGURED" }

/-- `generate_attack_scenarios`. The links that it adds to the techniques are their own. -/
def generateAttackScenarios (model : GraphModel) (catalog : Catalog) (profile : Json)
    (inventory : Inventory) (client : Option ModelsClient) (requested : Bool)
    (scenarioCount : Int) : Except Failure (ModelResult AttackScenarioSet) :=
  if !requested then .ok { status := .skipped }
  else match client with
    | none => .ok notConfigured
    | some client => do
      let (request, projection) ← buildScenarioRequest model catalog profile inventory scenarioCount
      askModel client request model.reader.validScenarioSet "ATTACK_SCENARIO_RESPONSE_INVALID"
        fun set => scenarioReferenceError model projection [] set.scenarios

/-- `generate_remediations` -/
def generateRemediations (model : GraphModel) (scenario : AttackScenario)
    (simulation profile : Json) (inventory : Inventory) (evidence : List GraphNode)
    (client : Option ModelsClient) : Except Failure (ModelResult RemediationPlan) :=
  match client with
  | none => .ok notConfigured
  | some client => do
    let request ← buildRemediationRequest model scenario simulation profile inventory evidence
    askModel client request model.reader.validRemediationPlan "REMEDIATION_RESPONSE_INVALID"
      fun plan => remediationReferenceError scenario inventory evidence [] plan.remediations

/-- `generate_repository_narrative` -/
def generateRepositoryNarrative (model : GraphModel) (catalog : Catalog)
    (client : Option ModelsClient) (requested : Bool) :
    Except Failure (ModelResult RepositoryNarrative) :=
  if !requested then .ok { status := .skipped }
  else match client with
    | none => .ok notConfigured
    | some client => do
      let (request, projection) ← buildRepositoryModelRequest model catalog
      askModel client request model.reader.validNarrative "REPOSITORY_MODEL_RESPONSE_INVALID"
        (narrativeReferenceError model projection)

/-! What a request offers to be cited. -/

namespace ModelRequest

/-- The document or the part of one at a path of keys. -/
def part (request : ModelRequest) (path : List String) : Option Json :=
  path.foldl (fun v key => v.bind (Json.get? key)) (some (.obj request.documents))

/-- The strings under a key in the items of a list. -/
def offers (request : ModelRequest) (path : List String) (key : String) : List String :=
  match request.part path with
  | some (.arr items) => items.filterMap fun item =>
    match item.get? key with
    | some (.str s) => some s
    | _ => none
  | _ => []

/-- The strings of a list. -/
def offersNames (request : ModelRequest) (path : List String) : List String :=
  match request.part path with
  | some (.arr items) => items.filterMap fun item =>
    match item with
    | .str s => some s
    | _ => none
  | _ => []

theorem offers_eq {α : Type} {request : ModelRequest} {path : List String} {key : String}
    {l : List α} {f : α → Json} {g : α → String} (h : request.part path = some (.arr (l.map f)))
    (hf : ∀ a, (f a).get? key = some (.str (g a))) : request.offers path key = l.map g := by
  unfold offers
  rw [h]
  dsimp only
  clear h
  induction l with
  | nil => rfl
  | cons a l ih =>
    rw [List.map_cons, List.map_cons, List.filterMap_cons, hf a]
    exact congrArg (g a :: ·) ih

theorem offersNames_eq {request : ModelRequest} {path : List String} {l : List String}
    (h : request.part path = some (.strings l)) : request.offersNames path = l := by
  unfold offersNames
  rw [h]
  unfold Json.strings
  dsimp only
  rw [List.filterMap_map]
  exact List.filterMap_some

end ModelRequest

variable {model : GraphModel} {catalog : Catalog} {profile simulation : Json}
  {inventory : Inventory} {scenario : AttackScenario} {evidence : List GraphNode}
  {client : ModelsClient} {request : ModelRequest} {projection : Projection}

/-! What each request offers. -/

theorem buildRepositoryModelRequest_offers
    (h : buildRepositoryModelRequest model catalog = .ok (request, projection)) :
    request.offers ["GRAPH_JSON", "nodes"] "id" = projection.nodes.map (·.id) ∧
    request.offers ["GRAPH_JSON", "flows"] "flow_id" = projection.flows.map (·.flowId) := by
  unfold buildRepositoryModelRequest at h
  obtain ⟨p, -, h⟩ := bind_eq_ok.mp h
  cases h
  exact ⟨ModelRequest.offers_eq projection.toJson_nodes fun _ => rfl,
    ModelRequest.offers_eq projection.toJson_flows fun _ => rfl⟩

theorem financialContext_names {v : Json} (h : financialContext model profile = .ok v) :
    v.get? "citable_input_names" = some (.strings (financialInputNames.map inputName)) := by
  unfold financialContext at h
  obtain ⟨_, -, h⟩ := bind_eq_ok.mp h
  obtain ⟨_, -, h⟩ := bind_eq_ok.mp h
  obtain ⟨_, -, h⟩ := bind_eq_ok.mp h
  obtain ⟨_, -, h⟩ := bind_eq_ok.mp h
  cases h
  rfl

theorem buildScenarioRequest_offers {n : Int}
    (h : buildScenarioRequest model catalog profile inventory n = .ok (request, projection)) :
    request.offers ["GRAPH_JSON", "nodes"] "id" = projection.nodes.map (·.id) ∧
    request.offers ["GRAPH_JSON", "flows"] "flow_id" = projection.flows.map (·.flowId) ∧
    request.offersNames ["FINANCIALS_JSON", "citable_input_names"] =
      financialInputNames.map inputName := by
  unfold buildScenarioRequest at h
  obtain ⟨p, -, h⟩ := bind_eq_ok.mp h
  obtain ⟨financials, hf, h⟩ := bind_eq_ok.mp h
  cases h
  exact ⟨ModelRequest.offers_eq projection.toJson_nodes fun _ => rfl,
    ModelRequest.offers_eq projection.toJson_flows fun _ => rfl,
    ModelRequest.offersNames_eq (financialContext_names hf)⟩

theorem buildRemediationRequest_offers
    (h : buildRemediationRequest model scenario simulation profile inventory evidence =
      .ok request) :
    request.offers ["SCENARIO_JSON", "attack_tree", "nodes"] "attack_node_id" =
      scenario.attackTree.nodes.map (·.attackNodeId) ∧
    request.offers ["EVIDENCE_JSON"] "id" = evidence.map (·.id) ∧
    request.offers ["SOFTWARE_JSON", "components"] "component_id" =
      inventory.components.map (·.componentId) := by
  unfold buildRemediationRequest at h
  obtain ⟨_, -, h⟩ := bind_eq_ok.mp h
  obtain ⟨_, -, h⟩ := bind_eq_ok.mp h
  cases h
  exact ⟨ModelRequest.offers_eq rfl fun _ => rfl, ModelRequest.offers_eq rfl fun _ => rfl,
    ModelRequest.offers_eq rfl fun _ => rfl⟩

/-! What the checks let through. -/

/-- One more turn of a loop that refuses the identifiers it has seen. -/
theorem distinct_cons {α : Type} {key : α → String} {seen : List String} {a : α} {rest : List α}
    (ha : key a ∉ seen) (hnodup : (rest.map key).Nodup)
    (hfresh : ∀ b ∈ rest, key b ∉ key a :: seen) :
    ((a :: rest).map key).Nodup ∧ ∀ b ∈ a :: rest, key b ∉ seen := by
  refine ⟨List.nodup_cons.mpr ⟨?_, hnodup⟩, List.forall_mem_cons.mpr ⟨ha, ?_⟩⟩
  · intro hmem
    obtain ⟨b, hb, hid⟩ := List.mem_map.mp hmem
    exact hfresh b hb (hid ▸ List.mem_cons_self)
  · exact fun b hb hmem => hfresh b hb (List.mem_cons_of_mem _ hmem)

theorem nodeReferenceError_none {techniques : List String} {node : ScenarioAttackNode}
    (h : nodeReferenceError projection techniques node = none) :
    node.graphNodeIds ⊆ projection.nodes.map (·.id) ∧
    node.flowIds ⊆ projection.flows.map (·.flowId) ∧ node.mitreTechniqueIds ⊆ techniques := by
  unfold nodeReferenceError at h
  split_ifs at h with hgraph hflows htechniques
  exact ⟨hgraph, hflows, htechniques⟩

/-- What the check asks of one scenario. -/
structure ScenarioChecked (projection : Projection) (scenario : AttackScenario) : Prop where
  nodes : ∀ node ∈ scenario.attackTree.nodes,
    nodeReferenceError projection (scenario.mitreTechniques.map (·.techniqueId)) node = none
  financialInputs :
    scenario.financials.financialInputsUsed ⊆ financialInputNames.map inputName
  tree : scenario.attackTree.attackTree.WellFormed
  leaves : 2 ≤ (scenario.attackTree.nodes.filter isLeaf).length

theorem scenarioReferenceError_none {seen : List String} {scenarios : List AttackScenario}
    (h : scenarioReferenceError model projection seen scenarios = none) :
    (scenarios.map (·.scenarioId)).Nodup ∧ (∀ s ∈ scenarios, s.scenarioId ∉ seen) ∧
      ∀ s ∈ scenarios, ScenarioChecked projection s := by
  induction scenarios generalizing seen with
  | nil => exact ⟨List.nodup_nil, by simp, by simp⟩
  | cons s rest ih =>
    unfold scenarioReferenceError at h
    split at h
    · cases h
    rename_i hseen
    split at h
    · cases h
    · rename_i hnodes
      split_ifs at h with hinputs hloss htree hleaves
      obtain ⟨hnodup, hfresh, hchecked⟩ := ih h
      have hs : ScenarioChecked projection s :=
        { nodes := List.findSome?_eq_none_iff.mp hnodes
          financialInputs := hinputs
          tree := AttackTree.WellFormed.of_check (by simpa using htree)
          leaves := Nat.le_of_not_lt hleaves }
      obtain ⟨hdistinct, hnew⟩ := distinct_cons hseen hnodup hfresh
      exact ⟨hdistinct, hnew, List.forall_mem_cons.mpr ⟨hs, hchecked⟩⟩

/-- What the check asks of one remediation. -/
structure RemediationChecked (scenario : AttackScenario) (inventory : Inventory)
    (evidence : List GraphNode) (r : Remediation) : Prop where
  targets : r.targetAttackNodeIds ⊆ scenario.attackTree.nodes.map (·.attackNodeId)
  leaf : ∃ node ∈ scenario.attackTree.nodes, node.operator = .leaf ∧
    node.attackNodeId ∈ r.targetAttackNodeIds
  graphNodes : r.graphNodeIds ⊆ evidence.map (·.id)
  software : r.softwareComponentIds ⊆ inventory.components.map (·.componentId)

theorem remediationReferenceError_none {seen : List String} {remediations : List Remediation}
    (h : remediationReferenceError scenario inventory evidence seen remediations = none) :
    (remediations.map (·.remediationId)).Nodup ∧
      (∀ r ∈ remediations, r.remediationId ∉ seen) ∧
      ∀ r ∈ remediations, RemediationChecked scenario inventory evidence r := by
  induction remediations generalizing seen with
  | nil => exact ⟨List.nodup_nil, by simp, by simp⟩
  | cons r rest ih =>
    unfold remediationReferenceError at h
    dsimp only at h
    split_ifs at h with hseen htargets hleaf hgraph hsoftware
    obtain ⟨hnodup, hfresh, hchecked⟩ := ih h
    have hr : RemediationChecked scenario inventory evidence r := by
      refine ⟨htargets, ?_, hgraph, hsoftware⟩
      simp only [Bool.not_eq_true', Bool.not_eq_false, List.any_eq_true, decide_eq_true_eq] at hleaf
      obtain ⟨target, htarget, hmem⟩ := hleaf
      obtain ⟨node, hnode, hid⟩ := List.mem_map.mp hmem
      obtain ⟨hnode, hisLeaf⟩ := List.mem_filter.mp hnode
      exact ⟨node, hnode, of_decide_eq_true hisLeaf, (congrArg (· ∈ _) hid).mpr htarget⟩
    obtain ⟨hdistinct, hnew⟩ := distinct_cons hseen hnodup hfresh
    exact ⟨hdistinct, hnew, List.forall_mem_cons.mpr ⟨hr, hchecked⟩⟩

theorem RepositoryAttackTree.two_leaves {tree : RepositoryAttackTree}
    (h : tree.attackTree.WellFormed) : 2 ≤ (tree.nodes.filter (·.operator = .leaf)).length := by
  have htwo := h.two_leaves
  unfold RepositoryAttackTree.attackTree TreeDocument.shape at htwo
  rw [List.filter_map, List.length_map] at htwo
  exact htwo

/-- What the checks of a narrative ask of it. -/
structure NarrativeChecked (projection : Projection) (narrative : RepositoryNarrative) : Prop where
  layers : ∀ layer ∈ narrative.architecture, layer.nodeIds ⊆ projection.nodes.map (·.id)
  flows : ∀ flow ∈ narrative.importantFlows, flow.flowId ∈ projection.flows.map (·.flowId)
  graphNodes : ∀ node ∈ narrative.attackTree.nodes,
    node.graphNodeIds ⊆ projection.nodes.map (·.id)
  treeFlows : ∀ node ∈ narrative.attackTree.nodes,
    node.flowIds ⊆ projection.flows.map (·.flowId)
  tree : narrative.attackTree.attackTree.WellFormed

theorem narrativeReferenceError_none {narrative : RepositoryNarrative}
    (h : narrativeReferenceError model projection narrative = none) :
    NarrativeChecked projection narrative := by
  unfold narrativeReferenceError at h
  dsimp only at h
  split_ifs at h with hcited htree
  simp only [Bool.or_eq_true, List.any_eq_true, decide_eq_true_eq, not_or, not_exists, not_and,
    not_not] at hcited
  obtain ⟨⟨⟨hlayers, hflows⟩, hnodes⟩, htreeFlows⟩ := hcited
  exact { layers := hlayers
          flows := hflows
          graphNodes := hnodes
          treeFlows := htreeFlows
          tree := AttackTree.WellFormed.of_check (by simpa using htree) }

/-! What a call that is ready returns. -/

/-- The value of a call that is ready was read from the answer to its request, and checked. -/
theorem askModel_ready {α : Type} {read : String → Option α} {invalid : String}
    {referenceError : α → Option String} {result : ModelResult α}
    (h : askModel client request read invalid referenceError = .ok result)
    (hready : result.status = .ready) :
    ∃ output answer, client request = .ok output ∧ read output.content = some answer ∧
      result.value = some answer ∧ referenceError answer = none := by
  unfold askModel at h
  split at h
  · cases h
    cases hready
  · cases h
  · rename_i output hsent
    split at h
    · cases h
      cases hready
    · rename_i answer hread
      split at h
      · cases h
        cases hready
      · rename_i hchecked
        cases h
        exact ⟨output, answer, hsent, hread, rfl, hchecked⟩

/-- The client was sent a request and its answer reads as a value. -/
def Answered {α : Type} (client : Option ModelsClient) (request : ModelRequest)
    (read : String → Option α) (value : α) : Prop :=
  ∃ models output, client = some models ∧ models request = .ok output ∧
    read output.content = some value

/-- What a scenario cites was in the request, and its tree is one. -/
structure ScenarioGrounded (request : ModelRequest) (scenario : AttackScenario) : Prop where
  graphNodes : ∀ node ∈ scenario.attackTree.nodes,
    node.graphNodeIds ⊆ request.offers ["GRAPH_JSON", "nodes"] "id"
  flows : ∀ node ∈ scenario.attackTree.nodes,
    node.flowIds ⊆ request.offers ["GRAPH_JSON", "flows"] "flow_id"
  techniques : ∀ node ∈ scenario.attackTree.nodes,
    node.mitreTechniqueIds ⊆ scenario.mitreTechniques.map (·.techniqueId)
  financialInputs : scenario.financials.financialInputsUsed ⊆
    request.offersNames ["FINANCIALS_JSON", "citable_input_names"]
  attackNodeIds : (scenario.attackTree.nodes.map (·.attackNodeId)).Nodup
  tree : scenario.attackTree.attackTree.WellFormed
  leaves : 2 ≤ (scenario.attackTree.nodes.filter (·.operator = .leaf)).length

/-- What a remediation of a scenario cites was in the request, and it acts on a leaf. -/
structure RemediationGrounded (request : ModelRequest) (scenario : AttackScenario)
    (r : Remediation) : Prop where
  targets : r.targetAttackNodeIds ⊆
    request.offers ["SCENARIO_JSON", "attack_tree", "nodes"] "attack_node_id"
  leaf : ∃ node ∈ scenario.attackTree.nodes, node.operator = .leaf ∧
    node.attackNodeId ∈ r.targetAttackNodeIds
  graphNodes : r.graphNodeIds ⊆ request.offers ["EVIDENCE_JSON"] "id"
  software : r.softwareComponentIds ⊆
    request.offers ["SOFTWARE_JSON", "components"] "component_id"

/-- What a narrative cites was in the request, and its tree is one. -/
structure NarrativeGrounded (request : ModelRequest) (narrative : RepositoryNarrative) : Prop where
  layers : ∀ layer ∈ narrative.architecture,
    layer.nodeIds ⊆ request.offers ["GRAPH_JSON", "nodes"] "id"
  flows : ∀ flow ∈ narrative.importantFlows,
    flow.flowId ∈ request.offers ["GRAPH_JSON", "flows"] "flow_id"
  graphNodes : ∀ node ∈ narrative.attackTree.nodes,
    node.graphNodeIds ⊆ request.offers ["GRAPH_JSON", "nodes"] "id"
  treeFlows : ∀ node ∈ narrative.attackTree.nodes,
    node.flowIds ⊆ request.offers ["GRAPH_JSON", "flows"] "flow_id"
  attackNodeIds : (narrative.attackTree.nodes.map (·.attackNodeId)).Nodup
  tree : narrative.attackTree.attackTree.WellFormed
  leaves : 2 ≤ (narrative.attackTree.nodes.filter (·.operator = .leaf)).length

theorem shape_nodeIds {ν : Type} {citing : ν → CitingNode} {tree : TreeDocument ν} :
    (tree.shape citing).nodeIds = tree.nodes.map fun node => (citing node).attackNodeId := by
  unfold TreeDocument.shape AttackTree.nodeIds
  rw [List.map_map]
  rfl

theorem ScenarioChecked.grounded {n : Int} (h : ScenarioChecked projection scenario)
    (hbuilt : buildScenarioRequest model catalog profile inventory n = .ok (request, projection)) :
    ScenarioGrounded request scenario := by
  obtain ⟨hnodes, hflows, hinputs⟩ := buildScenarioRequest_offers hbuilt
  have hcited := fun node hnode => nodeReferenceError_none (h.nodes node hnode)
  exact { graphNodes := fun node hnode => hnodes ▸ (hcited node hnode).1
          flows := fun node hnode => hflows ▸ (hcited node hnode).2.1
          techniques := fun node hnode => (hcited node hnode).2.2
          financialInputs := hinputs ▸ h.financialInputs
          attackNodeIds := shape_nodeIds ▸ h.tree.distinctIds
          tree := h.tree
          leaves := h.leaves }

theorem RemediationChecked.grounded {r : Remediation}
    (h : RemediationChecked scenario inventory evidence r)
    (hbuilt : buildRemediationRequest model scenario simulation profile inventory evidence =
      .ok request) : RemediationGrounded request scenario r := by
  obtain ⟨htargets, hevidence, hsoftware⟩ := buildRemediationRequest_offers hbuilt
  exact { targets := htargets ▸ h.targets
          leaf := h.leaf
          graphNodes := hevidence ▸ h.graphNodes
          software := hsoftware ▸ h.software }

theorem NarrativeChecked.grounded {narrative : RepositoryNarrative}
    (h : NarrativeChecked projection narrative)
    (hbuilt : buildRepositoryModelRequest model catalog = .ok (request, projection)) :
    NarrativeGrounded request narrative := by
  obtain ⟨hnodes, hflows⟩ := buildRepositoryModelRequest_offers hbuilt
  exact { layers := hnodes ▸ h.layers
          flows := hflows ▸ h.flows
          graphNodes := hnodes ▸ h.graphNodes
          treeFlows := hflows ▸ h.treeFlows
          attackNodeIds := shape_nodeIds ▸ h.tree.distinctIds
          tree := h.tree
          leaves := RepositoryAttackTree.two_leaves h.tree }

theorem generateAttackScenarios_ready {client : Option ModelsClient} {requested : Bool} {n : Int}
    {result : ModelResult AttackScenarioSet}
    (h : generateAttackScenarios model catalog profile inventory client requested n = .ok result)
    (hready : result.status = .ready) :
    ∃ request set, (buildScenarioRequest model catalog profile inventory n).map (·.1) = .ok request ∧
      Answered client request model.reader.validScenarioSet set ∧ result.value = some set ∧
      (set.scenarios.map (·.scenarioId)).Nodup ∧
      ∀ scenario ∈ set.scenarios, ScenarioGrounded request scenario := by
  unfold generateAttackScenarios at h
  split at h
  · cases h
    cases hready
  cases client with
  | none =>
    cases h
    cases hready
  | some models =>
    obtain ⟨⟨request, projection⟩, hbuilt, h⟩ := bind_eq_ok.mp h
    obtain ⟨output, set, hsent, hread, hvalue, hchecked⟩ := askModel_ready h hready
    obtain ⟨hdistinct, -, hall⟩ := scenarioReferenceError_none hchecked
    exact ⟨request, set, by rw [hbuilt]; rfl, ⟨models, output, rfl, hsent, hread⟩, hvalue,
      hdistinct, fun scenario hs => (hall scenario hs).grounded hbuilt⟩

theorem generateRemediations_ready {client : Option ModelsClient}
    {result : ModelResult RemediationPlan}
    (h : generateRemediations model scenario simulation profile inventory evidence client =
      .ok result) (hready : result.status = .ready) :
    ∃ request plan,
      buildRemediationRequest model scenario simulation profile inventory evidence = .ok request ∧
      Answered client request model.reader.validRemediationPlan plan ∧ result.value = some plan ∧
      (plan.remediations.map (·.remediationId)).Nodup ∧
      ∀ r ∈ plan.remediations, RemediationGrounded request scenario r := by
  unfold generateRemediations at h
  cases client with
  | none =>
    cases h
    cases hready
  | some models =>
    obtain ⟨request, hbuilt, h⟩ := bind_eq_ok.mp h
    obtain ⟨output, plan, hsent, hread, hvalue, hchecked⟩ := askModel_ready h hready
    obtain ⟨hdistinct, -, hall⟩ := remediationReferenceError_none hchecked
    exact ⟨request, plan, hbuilt, ⟨models, output, rfl, hsent, hread⟩, hvalue, hdistinct,
      fun r hr => (hall r hr).grounded hbuilt⟩

theorem generateRepositoryNarrative_ready {client : Option ModelsClient} {requested : Bool}
    {result : ModelResult RepositoryNarrative}
    (h : generateRepositoryNarrative model catalog client requested = .ok result)
    (hready : result.status = .ready) :
    ∃ request narrative, (buildRepositoryModelRequest model catalog).map (·.1) = .ok request ∧
      Answered client request model.reader.validNarrative narrative ∧
      result.value = some narrative ∧ NarrativeGrounded request narrative := by
  unfold generateRepositoryNarrative at h
  split at h
  · cases h
    cases hready
  cases client with
  | none =>
    cases h
    cases hready
  | some models =>
    obtain ⟨⟨request, projection⟩, hbuilt, h⟩ := bind_eq_ok.mp h
    obtain ⟨output, narrative, hsent, hread, hvalue, hchecked⟩ := askModel_ready h hready
    exact ⟨request, narrative, by rw [hbuilt]; rfl, ⟨models, output, rfl, hsent, hread⟩, hvalue,
      (narrativeReferenceError_none hchecked).grounded hbuilt⟩

/-- Every answer that one of the three calls hands on as ready names only what its own request
offered to be cited. -/
theorem ready_answers_grounded (model : GraphModel) (catalog : Catalog) (profile simulation : Json)
    (inventory : Inventory) (scenario : AttackScenario) (evidence : List GraphNode)
    (client : Option ModelsClient) (requested : Bool) (scenarioCount : Int) :
    (∀ result, generateAttackScenarios model catalog profile inventory client requested
        scenarioCount = .ok result → result.status = .ready →
      ∃ request set,
        (buildScenarioRequest model catalog profile inventory scenarioCount).map (·.1) =
          .ok request ∧
        Answered client request model.reader.validScenarioSet set ∧ result.value = some set ∧
        (set.scenarios.map (·.scenarioId)).Nodup ∧
        ∀ scenario ∈ set.scenarios, ScenarioGrounded request scenario) ∧
    (∀ result, generateRemediations model scenario simulation profile inventory evidence client =
        .ok result → result.status = .ready →
      ∃ request plan,
        buildRemediationRequest model scenario simulation profile inventory evidence =
          .ok request ∧
        Answered client request model.reader.validRemediationPlan plan ∧
        result.value = some plan ∧ (plan.remediations.map (·.remediationId)).Nodup ∧
        ∀ r ∈ plan.remediations, RemediationGrounded request scenario r) ∧
    (∀ result, generateRepositoryNarrative model catalog client requested = .ok result →
      result.status = .ready →
      ∃ request narrative, (buildRepositoryModelRequest model catalog).map (·.1) = .ok request ∧
        Answered client request model.reader.validNarrative narrative ∧
        result.value = some narrative ∧ NarrativeGrounded request narrative) :=
  ⟨fun _ h hready => generateAttackScenarios_ready h hready,
    fun _ h hready => generateRemediations_ready h hready,
    fun _ h hready => generateRepositoryNarrative_ready h hready⟩

end Bantam
