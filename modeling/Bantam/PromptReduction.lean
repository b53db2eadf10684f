import Bantam.ResilienceReport

/-! The view of the published projection that fits into a prompt. -/
namespace Bantam

/-- The limits of a prompt, as they are given. -/
structure PromptLimits where
  maxFlows : Int
  maxNodes : Int
  maxEdges : Int
  maxBytes : Int
deriving DecidableEq, Repr

/-- `PROMPT_LIMITS` -/
def promptLimits : PromptLimits := ⟨40, 110, 220, 70000⟩

/-- `values[:n]` -/
def sliceTo {α : Type} (n : Int) (values : List α) : List α :=
  if 0 ≤ n then values.take n.toNat else values.take (values.length + n).toNat

/-! The view. -/

structure PromptFlow where
  flowId : Json
  name : Json
  actorRoles : Json
  route : Json
  nodeIds : List String

/-- A node under its identifier, with the members that are shown. -/
structure PromptNode where
  id : String
  members : List (String × Json)

structure PromptEdge where
  source : String
  target : String
  type : Json

structure PromptView where
  repository : Json
  graphDigest : Json
  counts : Json
  complete : Bool
  flows : List PromptFlow
  nodes : List PromptNode
  edges : List PromptEdge

def PromptFlow.toJson (flow : PromptFlow) : Json :=
  .obj [("flow_id", flow.flowId), ("name", flow.name), ("actor_roles", flow.actorRoles),
    ("route", flow.route), ("node_ids", .strings flow.nodeIds)]

def PromptEdge.toJson (edge : PromptEdge) : Json :=
  .obj [("source", .str edge.source), ("target", .str edge.target), ("type", edge.type)]

def PromptView.toJson (view : PromptView) : Json :=
  .obj [("repository", view.repository), ("graph_digest", view.graphDigest),
    ("counts", view.counts), ("complete", .bool view.complete),
    ("flows", .arr (view.flows.map PromptFlow.toJson)),
    ("nodes", .arr (view.nodes.map fun node => .obj node.members)),
    ("edges", .arr (view.edges.map PromptEdge.toJson))]

/-- `len(json.dumps(reduced))` -/
def PromptView.size (view : PromptView) : Nat := view.toJson.dumps.length

/-! What is selected. -/

def promptFlow (flow : Json) : Report PromptFlow := do
  pure { flowId := ← subscript "id" flow, name := ← subscript "name" flow,
         actorRoles := ← subscript "actor_roles" flow, route := ← getOr "route" .null flow,
         nodeIds := ← (← elements (← subscript "node_ids" flow)).mapM asName }

/-- The flow with the nodes that are seen. -/
def PromptFlow.keep (seen : List String) (flow : PromptFlow) : PromptFlow :=
  { flow with nodeIds := flow.nodeIds.filter fun nodeId => nodeId ∈ seen }

def PromptEdge.joins (seen : List String) (edge : PromptEdge) : Bool :=
  edge.source ∈ seen && edge.target ∈ seen

/-- A node is selected when it is new and there is room for it. -/
def selectNode (maxNodes : Int) (selected : List String) (nodeId : String) : List String :=
  if nodeId ∉ selected ∧ (selected.length : Int) < maxNodes then selected ++ [nodeId]
  else selected

def selectNodes (maxNodes : Int) (flows : List PromptFlow) : List String :=
  (flows.flatMap (·.nodeIds)).foldl (selectNode maxNodes) []

def promptNodeKeys : List String := ["id", "kind", "label", "condition", "operation", "tables"]

def promptNode (byId : Dict String Json) (nodeId : String) : Report PromptNode :=
  match byId.get? nodeId with
  | none => .error (.key nodeId)
  | some node =>
    .ok ⟨nodeId, promptNodeKeys.filterMap fun key => (node.get? key).map fun value => (key, value)⟩

/-- An edge between nodes that are seen. -/
def promptEdge (seen : List String) (edge : Json) : Report (Option PromptEdge) := do
  let source ← asName (← subscript "source" edge)
  if source ∉ seen then return none
  let target ← asName (← subscript "target" edge)
  if target ∉ seen then return none
  pure (some ⟨source, target, ← subscript "type" edge⟩)

/-! Trimming. -/

/-- The view without its last node and without what leads to it. -/
def PromptView.withoutLast (view : PromptView) (seen : List String) : PromptView × List String :=
  let seen := match view.nodes.getLast? with
    | some removed => seen.filter (· ≠ removed.id)
    | none => seen
  ({ view with
      nodes := view.nodes.dropLast
      edges := view.edges.filter (·.joins seen)
      flows := view.flows.map (·.keep seen)
      complete := false }, seen)

theorem length_withoutLast (view : PromptView) (seen : List String) :
    (view.withoutLast seen).1.nodes.length = view.nodes.length - 1 := List.length_dropLast

/-- The trimming loop; it stops at twenty nodes. -/
def PromptView.trim (maxBytes : Int) (view : PromptView) (seen : List String) : PromptView :=
  if _h : maxBytes < view.size ∧ 20 < view.nodes.length then
    trim maxBytes (view.withoutLast seen).1 (view.withoutLast seen).2
  else view
termination_by view.nodes.length
decreasing_by
  rw [length_withoutLast]
  omega

/-- The view before it is trimmed, and the nodes seen. -/
def initialView (projection : Json) (caps : PromptLimits) : Report (PromptView × List String) := do
  let nodes ← elements (← subscript "nodes" projection)
  let byId ← nodesById nodes
  let allFlows ← elements (← subscript "flows" projection)
  let flows ← (sliceTo caps.maxFlows allFlows).mapM promptFlow
  let seen := selectNodes caps.maxNodes flows
  let repository ← subscript "repository" projection
  let graphDigest ← subscript "catalogue_digest" projection
  let counts ← subscript "catalogue_counts" projection
  let kept ← seen.mapM (promptNode byId)
  let allEdges ← elements (← subscript "edges" projection)
  let edges ← allEdges.mapM (promptEdge seen)
  pure ({ repository := repository
          graphDigest := graphDigest
          counts := counts
          complete := seen.length == nodes.length && flows.length == allFlows.length
          flows := flows.map (·.keep seen)
          nodes := kept
          edges := sliceTo caps.maxEdges (edges.filterMap id) }, seen)

def promptView (projection : Json) (limits : Option PromptLimits) : Report PromptView := do
  let caps := limits.getD promptLimits
  let start ← initialView projection caps
  pure (start.1.trim caps.maxBytes start.2)

/-- `reduce_projection`; no limits are the same as empty ones. -/
def reduceProjection (projection : Json) (limits : Option PromptLimits) : Report Json := do
  pure (← promptView projection limits).toJson

end Bantam
