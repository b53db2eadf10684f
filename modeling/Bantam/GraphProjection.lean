import Bantam.Domain
import Bantam.Lib.Containers
import Bantam.Lib.Json

/-! The part of a repository's graph that a model is shown. -/
namespace Bantam

def maxModelGraphBytes : Nat := 72000
def maxModelNodes : Nat := 120
def maxModelEdges : Nat := 240
def maxModelFlows : Nat := 60

/-! The catalogue. -/

/-- A node of the graph: its identifier and its other members. -/
structure GraphNode where
  id : String
  fields : List (String × Json)

structure GraphEdge where
  source : String
  target : String
  type : String
deriving DecidableEq, Repr

structure GraphFlow where
  flowId : String
  name : String
  description : String
  actorRoles : List String
  nodeIds : List String
deriving DecidableEq, Repr

structure Catalog where
  source : Option Json
  graphDigest : String
  nodes : List GraphNode
  edges : List GraphEdge
  defaultFlows : List GraphFlow
  parseErrors : List Json

/-- What the model is shown of a catalogue. -/
structure Projection where
  source : Json
  graphDigest : String
  counts : List (String × Nat)
  nodes : List GraphNode
  edges : List GraphEdge
  flows : List GraphFlow
  complete : Bool
  includedNodes : Nat
  includedEdges : Nat

def GraphNode.toJson (node : GraphNode) : Json := .obj (("id", .str node.id) :: node.fields)

def GraphEdge.toJson (edge : GraphEdge) : Json :=
  .obj [("source", .str edge.source), ("target", .str edge.target), ("type", .str edge.type)]

def GraphFlow.toJson (flow : GraphFlow) : Json :=
  .obj [("flow_id", .str flow.flowId), ("name", .str flow.name),
    ("description", .str flow.description), ("actor_roles", .strings flow.actorRoles),
    ("node_ids", .strings flow.nodeIds)]

@[irreducible] def Projection.toJson (projection : Projection) : Json :=
  .obj [("source", projection.source), ("graph_digest", .str projection.graphDigest),
    ("counts", .obj (projection.counts.map fun count => (count.1, .nat count.2))),
    ("nodes", .arr (projection.nodes.map (·.toJson))),
    ("edges", .arr (projection.edges.map (·.toJson))),
    ("flows", .arr (projection.flows.map (·.toJson))),
    ("projection", .obj [("complete", .bool projection.complete),
      ("included_nodes", .nat projection.includedNodes),
      ("included_edges", .nat projection.includedEdges)])]

theorem Projection.toJson_nodes (projection : Projection) :
    projection.toJson.get? "nodes" = some (.arr (projection.nodes.map (·.toJson))) := by
  rw [Projection.toJson]
  rfl

theorem Projection.toJson_flows (projection : Projection) :
    projection.toJson.get? "flows" = some (.arr (projection.flows.map (·.toJson))) := by
  rw [Projection.toJson]
  rfl

/-! The selection. -/

/-- The loops over the flows and their nodes, which end once enough nodes are selected. -/
def selectIds : List String → List String → List String
  | selected, [] => selected
  | selected, nodeId :: rest =>
    if maxModelNodes ≤ selected.length then selected
    else selectIds (if nodeId ∈ selected then selected else selected ++ [nodeId]) rest

/-- The loop over the edges, which adds the documentation of selected nodes. -/
def selectDocumentation (selected : List String) (edges : List GraphEdge) : List String :=
  edges.foldl (fun selected edge =>
    if edge.type = "documented_by" ∧ edge.source ∈ selected ∧ edge.target ∉ selected ∧
        selected.length < maxModelNodes then selected ++ [edge.target]
    else selected) selected

def selectedIds (catalog : Catalog) : List String :=
  let selected := selectIds [] ((catalog.defaultFlows.take maxModelFlows).flatMap (·.nodeIds))
  let selected := if selected.isEmpty then (catalog.nodes.take maxModelNodes).map (·.id)
    else selected
  selectDocumentation selected catalog.edges

/-- `_MODEL_NODE_FIELDS` after the identifier. -/
def modelNodeFields : List String :=
  ["kind", "label", "symbol", "signature", "function_symbol", "file", "line", "method", "path",
    "roles", "condition", "failure_outcomes", "operation", "tables", "durability", "address",
    "block_type", "resource_type", "source", "description", "excerpt"]

/-- A number that Python reads as an `int`. -/
def isInteger (text : String) : Bool := text.toList.all fun c => c.isDigit || c = '-'

/-- A string as the model is shown it. -/
def shown (redact : String → String) (s : String) : String :=
  String.ofList ((redact s).toList.take 2000)

/-- The value of a field as the model is shown it; none for a value of another type. -/
def shownValue (redact : String → String) : Json → Option Json
  | .str s => some (.str (shown redact s))
  | .num text => if isInteger text then some (.num text) else none
  | .bool b => some (.bool b)
  | .arr items => some (.arr items)
  | .null | .obj _ => none

def GraphNode.shown (redact : String → String) (node : GraphNode) : GraphNode where
  id := Bantam.shown redact node.id
  fields := modelNodeFields.filterMap fun key =>
    ((Json.member? key node.fields).bind (shownValue redact)).map fun value => (key, value)

/-- The projection before its size is looked at, with the identifiers that it selects. -/
def initialProjection (redact : String → String) (catalog : Catalog) : Projection :=
  let selected := selectedIds catalog
  let flows := catalog.defaultFlows.take maxModelFlows
  let byId := Dict.ofList (catalog.nodes.map fun node => (node.id, node))
  let projectable := catalog.edges.filter fun edge => edge.source ∈ selected ∧ edge.target ∈ selected
  let edges := projectable.take maxModelEdges
  { source := catalog.source.getD (.obj [("repository", .str "bantam"), ("root_path", .str "")])
    graphDigest := catalog.graphDigest
    counts := [("nodes", catalog.nodes.length), ("edges", catalog.edges.length),
      ("default_flows", catalog.defaultFlows.length), ("parse_errors", catalog.parseErrors.length)]
    nodes := selected.filterMap fun nodeId => (byId.get? nodeId).map (·.shown redact)
    edges := edges
    flows := flows.map fun flow =>
      { flow with
        name := redact flow.name
        description := redact flow.description
        nodeIds := flow.nodeIds.filter (· ∈ selected) }
    complete := selected.dedup.length = catalog.nodes.length ∧
      flows.length = catalog.defaultFlows.length ∧ edges.length = projectable.length
    includedNodes := selected.dedup.length
    includedEdges := edges.length }

def contextTooLarge : BantamError :=
  ⟨"REPOSITORY_MODEL_CONTEXT_TOO_LARGE",
    "repository graph could not be reduced to the model context limit", 422⟩

/-- The projection without its last node, for the identifiers that stay selected. -/
def withoutNode (projection : Projection) (selected : List String) : Projection :=
  let edges := projection.edges.filter fun edge => edge.source ∈ selected ∧ edge.target ∈ selected
  { projection with
    nodes := projection.nodes.dropLast
    edges := edges
    flows := projection.flows.map fun flow =>
      { flow with nodeIds := flow.nodeIds.filter (· ∈ selected) }
    complete := false
    includedNodes := selected.length
    includedEdges := edges.length }

/-- The loop that takes nodes away until the projection fits; `fuel` is the number of nodes. -/
def fitProjection : Nat → Projection → List String → Except Failure Projection
  | fuel, projection, selected =>
    if Text.utf8Length projection.toJson.canonical.toList ≤ maxModelGraphBytes then .ok projection
    else if projection.nodes.length ≤ 20 then .error (.bantam contextTooLarge)
    else match fuel, projection.nodes.getLast? with
      | fuel + 1, some removed =>
        if removed.id ∈ selected then
          let kept := selected.filter (· ≠ removed.id)
          fitProjection fuel (withoutNode projection kept) kept
        else .error (.runtime removed.id)
      | _, _ => .error (.bantam contextTooLarge)

/-- `redacted_graph_projection`, for the redaction of `redact_sensitive_text`. -/
def redactedGraphProjection (redact : String → String) (catalog : Catalog) :
    Except Failure Projection :=
  let projection := initialProjection redact catalog
  fitProjection projection.nodes.length projection (selectedIds catalog).dedup

end Bantam
