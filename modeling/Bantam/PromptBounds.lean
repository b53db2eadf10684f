import Bantam.PromptReduction
import Bantam.PublicationBoundary
import Mathlib

/-! What the view of a published projection keeps: it is closed, within its limits and honest about
what it leaves out. -/
namespace Bantam

/-! What is published, as the reduction reads it. -/

/-- Nodes under identifiers of their own, and flows and edges over these. -/
structure Publishes (projection : Json) (nodes : List (String × Json)) (flows : List PromptFlow)
    (edges : List PromptEdge) : Prop where
  readNodes : subscript "nodes" projection = .ok (.arr (nodes.map (·.2)))
  readFlows : ∃ items, subscript "flows" projection = .ok (.arr items) ∧
    List.Forall₂ (fun item flow => promptFlow item = .ok flow) items flows
  readEdges : ∃ items, subscript "edges" projection = .ok (.arr items) ∧
    List.Forall₂ (fun item edge => subscript "source" item = .ok (.str edge.source) ∧
      subscript "target" item = .ok (.str edge.target) ∧
      subscript "type" item = .ok edge.type) items edges
  readRest : ∀ key ∈ ["repository", "catalogue_digest", "catalogue_counts"],
    ∃ value, subscript key projection = .ok value
  named : ∀ node ∈ nodes, node.2.get? "id" = some (.str node.1)
  distinct : (nodes.map Prod.fst).Nodup
  flowsOver : ∀ flow ∈ flows, ∀ nodeId ∈ flow.nodeIds, nodeId ∈ nodes.map Prod.fst
  edgesOver : ∀ edge ∈ edges, edge.source ∈ nodes.map Prod.fst ∧ edge.target ∈ nodes.map Prod.fst

section
variable {F : Type} {floats : Floats F} {byId : Dict String Json} {v flow edge : Json}
  {key name : String} {referenced : List String}

theorem asName_eq_ok (h : asName v = .ok name) : v = .str name := by
  cases v with
  | str s => rw [Except.ok.inj h]
  | _ => cases h

theorem subscript_eq_ok {w : Json} (h : subscript key v = .ok w) : v.get? key = some w := by
  cases v with
  | obj members =>
    rw [subscript] at h
    split at h
    · next found hfound =>
      rw [Json.get?, hfound, Except.ok.inj h]
    · cases h
  | _ => cases h

theorem subscript_of_get? {w : Json} (h : v.get? key = some w) : subscript key v = .ok w := by
  cases v with
  | obj members =>
    rw [Json.get?] at h
    rw [subscript, h]
  | _ => cases h

theorem getOr_eq {default w : Json} (h : getOr key default v = .ok w) :
    w = (v.get? key).getD default := by
  cases v with
  | obj members => exact (Except.ok.inj h).symm
  | _ => cases h

/-- The dictionary of the nodes holds each under its identifier. -/
theorem nodesById_id {nodes : List Json} {node : Json} (h : nodesById nodes = .ok byId)
    (hnode : byId.get? name = some node) : node.get? "id" = some (.str name) := by
  obtain ⟨items, hitems, hdict⟩ := bind_eq_ok.mp h
  obtain rfl := Except.ok.inj hdict
  have hmem := Dict.mem_ofList (Dict.get?_eq_some.mp hnode)
  obtain ⟨source, _, hsource⟩ := Fallible.mem_mapM_ok hitems hmem
  obtain ⟨value, hvalue, hread⟩ := bind_eq_ok.mp hsource
  obtain ⟨id, hname, hpair⟩ := bind_eq_ok.mp hread
  cases Except.ok.inj hpair
  rw [subscript_eq_ok hvalue, asName_eq_ok hname]

theorem publicNode_id (h : v.get? "id" = some (.str name)) :
    (publicNode v).get? "id" = some (.str name) := by
  rw [publicNode, publicNodeKeys, List.filterMap_cons_some (by rw [h, Option.map_some]), Json.get?,
    Json.member?, if_pos rfl]

/-- The nodes of a flow are nodes of the catalogue. -/
theorem foundNodeIds_isSome {nodeIds : List String} (h : foundNodeIds byId flow = .ok nodeIds) :
    ∀ nodeId ∈ nodeIds, (byId.get? nodeId).isSome = true := by
  intro nodeId hnodeId
  obtain ⟨items, _, hrest⟩ := bind_eq_ok.mp h
  obtain ⟨found, hfound, hrest⟩ := bind_eq_ok.mp hrest
  have hids : found.filterMap id = nodeIds := by
    split at hrest
    · obtain ⟨_, _, hrest⟩ := bind_eq_ok.mp hrest
      obtain ⟨_, _, hrest⟩ := bind_eq_ok.mp hrest
      obtain ⟨_, hrefused, _⟩ := bind_eq_ok.mp hrest
      cases hrefused
    · exact Except.ok.inj hrest
  rw [← hids, List.mem_filterMap] at hnodeId
  obtain ⟨entry, hentry, rfl⟩ := hnodeId
  obtain ⟨item, _, hitem⟩ := Fallible.mem_mapM_ok hfound hentry
  cases item with
  | str s =>
    have hsame := Except.ok.inj hitem
    by_cases hs : (byId.get? s).isSome = true
    · rw [if_pos hs] at hsame
      cases hsame
      exact hs
    · rw [if_neg hs] at hsame
      cases hsame
  | _ => cases hitem

/-- A flow as it is published is read back with its nodes. -/
theorem promptFlow_publicFlow {byFlow : List (String × String)} {published : Json × List String}
    (h : publicFlow byId byFlow flow = .ok published) :
    foundNodeIds byId flow = .ok published.2 ∧
      ∃ read, promptFlow published.1 = .ok read ∧ read.nodeIds = published.2 := by
  obtain ⟨nodeIds, hfound, h⟩ := bind_eq_ok.mp h
  obtain ⟨_, _, h⟩ := bind_eq_ok.mp h
  obtain ⟨flowId, _, h⟩ := bind_eq_ok.mp h
  obtain ⟨name, _, h⟩ := bind_eq_ok.mp h
  obtain ⟨description, _, h⟩ := bind_eq_ok.mp h
  obtain ⟨actorRoles, _, h⟩ := bind_eq_ok.mp h
  obtain ⟨route, _, h⟩ := bind_eq_ok.mp h
  obtain ⟨documentationPath, _, h⟩ := bind_eq_ok.mp h
  cases Except.ok.inj h
  refine ⟨hfound, ⟨.str flowId, name, actorRoles, route, nodeIds⟩, ?_, rfl⟩
  have hnames : (nodeIds.map Json.str).mapM asName = .ok nodeIds := by
    have hread := Fallible.mapM_ok (f := fun nodeId => asName (.str nodeId)) (g := id)
      (l := nodeIds) fun _ _ => rfl
    rw [List.map_id] at hread
    rw [List.mapM_map]
    exact hread
  have hread : promptFlow (.obj [("id", .str flowId), ("name", name),
      ("description", description), ("actor_roles", actorRoles), ("route", route),
      ("documentation_path", documentationPath), ("node_ids", .strings nodeIds),
      ("risk_scenario_ids", .strings
        (Text.sorted ((byFlow.filter fun item => item.1 = flowId).map (·.2))))]) =
      ((nodeIds.map Json.str).mapM asName).bind fun ids =>
        .ok ⟨.str flowId, name, actorRoles, route, ids⟩ := rfl
  rw [hread, hnames]
  rfl

theorem isReferenced_true (h : isReferenced referenced v = .ok true) :
    ∃ s, v = .str s ∧ s ∈ referenced := by
  cases v with
  | str s => exact ⟨s, rfl, of_decide_eq_true (Except.ok.inj h)⟩
  | _ => cases h

/-- An edge as it is published joins nodes that are. -/
theorem publicEdge_some {published : Json} (h : publicEdge referenced edge = .ok (some published)) :
    ∃ read : PromptEdge, read.source ∈ referenced ∧ read.target ∈ referenced ∧
      subscript "source" published = .ok (.str read.source) ∧
      subscript "target" published = .ok (.str read.target) ∧
      subscript "type" published = .ok read.type := by
  obtain ⟨source, hsource, h⟩ := bind_eq_ok.mp h
  obtain ⟨known, hknown, h⟩ := bind_eq_ok.mp h
  cases known with
  | false => cases h
  | true =>
    obtain ⟨target, htarget, h⟩ := bind_eq_ok.mp h
    obtain ⟨known', hknown', h⟩ := bind_eq_ok.mp h
    cases known' with
    | false => cases h
    | true =>
      obtain ⟨source', hsource', h⟩ := bind_eq_ok.mp h
      obtain ⟨target', htarget', h⟩ := bind_eq_ok.mp h
      obtain ⟨type, _, h⟩ := bind_eq_ok.mp h
      obtain ⟨flowIds, _, h⟩ := bind_eq_ok.mp h
      cases Except.ok.inj h
      obtain ⟨s, rfl, hs⟩ := isReferenced_true hknown
      obtain ⟨t, rfl, ht⟩ := isReferenced_true hknown'
      have hsame := getOr_eq hsource
      rw [subscript_eq_ok hsource', Option.getD_some] at hsame
      have hsame' := getOr_eq htarget
      rw [subscript_eq_ok htarget', Option.getD_some] at hsame'
      subst hsame hsame'
      exact ⟨⟨s, t, type⟩, hs, ht, rfl, rfl, rfl⟩

/-- The nodes that are published, under their identifiers. -/
def publishedNodes (byId : Dict String Json) (referenced : List String) : List (String × Json) :=
  referenced.filterMap fun nodeId =>
    (byId.get? nodeId).map fun node => (nodeId, publicNode node)

theorem publishedNodes_ids (h : ∀ nodeId ∈ referenced, (byId.get? nodeId).isSome = true) :
    (publishedNodes byId referenced).map Prod.fst = referenced := by
  induction referenced with
  | nil => rfl
  | cons nodeId rest ih =>
    obtain ⟨node, hnode⟩ := Option.isSome_iff_exists.mp (h nodeId List.mem_cons_self)
    rw [publishedNodes, List.filterMap_cons_some (by rw [hnode, Option.map_some]), List.map_cons]
    exact congrArg _ (ih fun other hother => h other (List.mem_cons_of_mem nodeId hother))

theorem publishedNodes_values :
    (publishedNodes byId referenced).map (·.2) =
      referenced.filterMap fun nodeId => (byId.get? nodeId).map publicNode := by
  rw [publishedNodes, List.map_filterMap]
  refine List.filterMap_congr fun nodeId _ => ?_
  cases byId.get? nodeId with
  | none => rfl
  | some node => rfl

/-- Whatever is published can be reduced. -/
theorem publishes_of_build {sha256 : String → String} {catalogue model evidence projection : Json}
    {commit : String}
    (h : buildPublicProjection floats sha256 catalogue model commit evidence = .ok projection) :
    ∃ nodes flows edges, Publishes projection nodes flows edges := by
  obtain ⟨_, _, h⟩ := bind_eq_ok.mp h
  obtain ⟨_, _, h⟩ := bind_eq_ok.mp h
  obtain ⟨nodes, _, h⟩ := bind_eq_ok.mp h
  obtain ⟨byId, hbyId, h⟩ := bind_eq_ok.mp h
  obtain ⟨byFlow, _, h⟩ := bind_eq_ok.mp h
  obtain ⟨flows, _, h⟩ := bind_eq_ok.mp h
  obtain ⟨publicFlows, hflows, h⟩ := bind_eq_ok.mp h
  obtain ⟨edges, _, h⟩ := bind_eq_ok.mp h
  obtain ⟨publicEdges, hedges, h⟩ := bind_eq_ok.mp h
  obtain ⟨nodeKinds, _, h⟩ := bind_eq_ok.mp h
  obtain ⟨edgeTypes, _, h⟩ := bind_eq_ok.mp h
  obtain ⟨digest, _, h⟩ := bind_eq_ok.mp h
  have hprojection := Except.ok.inj h
  have hreadFlow : ∀ published ∈ publicFlows, ∃ read, promptFlow published.1 = .ok read ∧
      read.nodeIds = published.2 := by
    intro published hpublished
    obtain ⟨flow, _, hflow⟩ := Fallible.mem_mapM_ok hflows hpublished
    exact (promptFlow_publicFlow hflow).2
  have hfound : ∀ nodeId ∈ (publicFlows.flatMap (·.2)).dedup,
      (byId.get? nodeId).isSome = true := by
    intro nodeId hnodeId
    obtain ⟨published, hpublished, hlisted⟩ := List.mem_flatMap.mp (List.mem_dedup.mp hnodeId)
    obtain ⟨flow, _, hflow⟩ := Fallible.mem_mapM_ok hflows hpublished
    exact foundNodeIds_isSome (promptFlow_publicFlow hflow).1 nodeId hlisted
  have hsorted : (Text.sorted (publicFlows.flatMap (·.2)).dedup).Perm
      (publicFlows.flatMap (·.2)).dedup := List.mergeSort_perm _ _
  have hids : (publishedNodes byId (Text.sorted (publicFlows.flatMap (·.2)).dedup)).map Prod.fst =
      Text.sorted (publicFlows.flatMap (·.2)).dedup :=
    publishedNodes_ids fun nodeId hnodeId => hfound nodeId (hsorted.mem_iff.mp hnodeId)
  obtain ⟨readFlows, hreadFlows⟩ := Related.exists_of_forall hreadFlow
  obtain ⟨readEdges, hreadEdges⟩ := Related.exists_of_forall (l := publicEdges.filterMap id) fun published hp => by
    obtain ⟨entry, hentry, hsome⟩ := List.mem_filterMap.mp hp
    obtain ⟨edge, _, hedge⟩ := Fallible.mem_mapM_ok hedges hentry
    exact publicEdge_some (hedge.trans (congrArg Except.ok hsome))
  refine ⟨publishedNodes byId (Text.sorted (publicFlows.flatMap (·.2)).dedup), readFlows,
    readEdges, ?_⟩
  subst hprojection
  refine ⟨?_, ⟨_, rfl, ?_⟩, ⟨_, rfl, ?_⟩, ?_, ?_, ?_, ?_, ?_⟩
  · rw [publishedNodes_values]
    rfl
  · rw [List.forall₂_map_left_iff]
    exact hreadFlows.imp fun _ _ hread => hread.1
  · exact hreadEdges.imp fun _ _ hread => hread.2.2
  · intro key hkey
    simp only [List.mem_cons, List.not_mem_nil, or_false] at hkey
    obtain rfl | rfl | rfl := hkey
    · exact ⟨_, rfl⟩
    · exact ⟨_, rfl⟩
    · exact ⟨_, rfl⟩
  · intro node hnode
    obtain ⟨nodeId, _, hentry⟩ := List.mem_filterMap.mp hnode
    obtain ⟨source, hsource, rfl⟩ := Option.map_eq_some_iff.mp hentry
    exact publicNode_id (nodesById_id hbyId hsource)
  · rw [hids]
    exact hsorted.nodup_iff.mpr (List.nodup_dedup _)
  · intro flow hflow nodeId hnodeId
    obtain ⟨published, hpublished, _, hlisted⟩ := Related.exists_of_mem hreadFlows hflow
    rw [hids, hsorted.mem_iff, List.mem_dedup]
    exact List.mem_flatMap.mpr ⟨published, hpublished, hlisted ▸ hnodeId⟩
  · intro edge hedge
    obtain ⟨published, _, hsource, htarget, _⟩ := Related.exists_of_mem hreadEdges hedge
    rw [hids, hsorted.mem_iff, hsorted.mem_iff]
    exact ⟨hsource, htarget⟩

end

/-! Selecting. -/

section
variable {maxNodes n : Int} {selected nodeIds : List String} {nodeId : String} {α : Type}
  {l : List α}

theorem sliceTo_sublist (n : Int) (l : List α) : (sliceTo n l).Sublist l := by
  unfold sliceTo
  split
  · exact List.take_sublist _ l
  · exact List.take_sublist _ l

theorem length_sliceTo (h : 0 ≤ n) : ((sliceTo n l).length : Int) ≤ n := by
  rw [sliceTo, if_pos h, List.length_take]
  omega

/-- Nothing is cut off where there is room. -/
theorem sliceTo_eq (h : (l.length : Int) ≤ n) : sliceTo n l = l := by
  have hpos : 0 ≤ n := by omega
  rw [sliceTo, if_pos hpos, List.take_of_length_le (by omega)]

/-- What is selected, when a node has been looked at. -/
structure SelectedNodes (maxNodes : Int) (nodeIds selected : List String) : Prop where
  distinct : selected.Nodup
  listed : ∀ nodeId ∈ selected, nodeId ∈ nodeIds
  room : 0 ≤ maxNodes → (selected.length : Int) ≤ maxNodes

theorem SelectedNodes.node (h : SelectedNodes maxNodes nodeIds selected) (hnode : nodeId ∈ nodeIds) :
    SelectedNodes maxNodes nodeIds (selectNode maxNodes selected nodeId) := by
  unfold selectNode
  split
  · next hroom =>
    refine ⟨?_, ?_, fun _ => ?_⟩
    · rw [List.nodup_append']
      exact ⟨h.distinct, List.nodup_singleton nodeId, by
        simpa [List.disjoint_singleton] using hroom.1⟩
    · intro other hother
      cases List.mem_append.mp hother with
      | inl hold => exact h.listed other hold
      | inr hnew => exact List.mem_singleton.mp hnew ▸ hnode
    · rw [List.length_append, List.length_singleton]
      have := hroom.2
      omega
  · exact h

theorem selected_foldl (rest : List String) (hrest : ∀ nodeId ∈ rest, nodeId ∈ nodeIds)
    (h : SelectedNodes maxNodes nodeIds selected) :
    SelectedNodes maxNodes nodeIds (rest.foldl (selectNode maxNodes) selected) := by
  induction rest generalizing selected with
  | nil => exact h
  | cons nodeId rest ih =>
    apply ih
    · exact fun other hother => hrest other (List.mem_cons_of_mem nodeId hother)
    · exact h.node (hrest nodeId List.mem_cons_self)

theorem selected_selectNodes (maxNodes : Int) (flows : List PromptFlow) :
    SelectedNodes maxNodes (flows.flatMap (·.nodeIds)) (selectNodes maxNodes flows) := by
  apply selected_foldl
  · exact fun _ h => h
  · exact ⟨List.nodup_nil, List.forall_mem_nil _, fun h => by simpa using h⟩

end

/-! The view before it is trimmed. -/

section
variable {projection : Json} {nodes : List (String × Json)} {flows : List PromptFlow}
  {edges : List PromptEdge}

theorem sliceTo_readings {α β : Type} {R : α → β → Prop} {l : List α} {m : List β} (n : Int)
    (h : List.Forall₂ R l m) : List.Forall₂ R (sliceTo n l) (sliceTo n m) := by
  unfold sliceTo
  rw [h.length_eq]
  split
  · exact List.forall₂_take _ h
  · exact List.forall₂_take _ h

theorem Publishes.nodesById (h : Publishes projection nodes flows edges) :
    nodesById (nodes.map (·.2)) = .ok (Dict.ofList nodes) := by
  have hread : ∀ node ∈ nodes, (do pure (← asName (← subscript "id" node.2), node.2) :
      Report (String × Json)) = .ok (id node) := by
    intro node hnode
    rw [subscript_of_get? (h.named node hnode)]
    rfl
  have hitems := Fallible.mapM_ok hread
  rw [List.map_id] at hitems
  rw [Bantam.nodesById, List.mapM_map]
  exact bind_eq_ok.mpr ⟨nodes, hitems, rfl⟩

/-- A selected node is shown under its identifier. -/
theorem Publishes.promptNode (h : Publishes projection nodes flows edges) {nodeId : String}
    (hnode : nodeId ∈ nodes.map Prod.fst) :
    ∃ members, promptNode (Dict.ofList nodes) nodeId = .ok ⟨nodeId, members⟩ ∧
      Json.member? "id" members = some (.str nodeId) := by
  obtain ⟨node, hmem, rfl⟩ := List.mem_map.mp hnode
  have hfound : (Dict.ofList nodes).get? node.1 = some node.2 := by
    rw [Dict.get?_eq_some, Dict.items_ofList h.distinct]
    exact hmem
  refine ⟨promptNodeKeys.filterMap fun key => (node.2.get? key).map fun value => (key, value),
    by rw [Bantam.promptNode, hfound], ?_⟩
  rw [promptNodeKeys, List.filterMap_cons_some (by rw [h.named node hmem, Option.map_some]),
    Json.member?, if_pos rfl]

theorem promptEdge_eq {seen : List String} {item : Json} {edge : PromptEdge}
    (hsource : subscript "source" item = .ok (.str edge.source))
    (htarget : subscript "target" item = .ok (.str edge.target))
    (htype : subscript "type" item = .ok edge.type) :
    promptEdge seen item = .ok (if edge.joins seen then some edge else none) := by
  rw [promptEdge, hsource]
  by_cases hs : edge.source ∈ seen
  · rw [htarget]
    by_cases ht : edge.target ∈ seen
    · rw [htype]
      simp [asName, hs, ht, PromptEdge.joins, bind, Except.bind, pure, Except.pure]
    · simp [asName, hs, ht, PromptEdge.joins, bind, Except.bind, pure, Except.pure]
  · simp [asName, hs, PromptEdge.joins, bind, Except.bind, pure, Except.pure]

/-! What is kept of the projection. -/

def KeepsNodes (nodes : List (String × Json)) (view : PromptView) : Prop :=
  ∀ nodeId ∈ nodes.map Prod.fst, nodeId ∈ view.nodes.map PromptNode.id

def KeepsFlows (flows : List PromptFlow) (view : PromptView) : Prop :=
  view.flows.map PromptFlow.flowId = flows.map PromptFlow.flowId

/-- No node, flow or edge of the projection is dropped. -/
structure KeepsAll (nodes : List (String × Json)) (flows : List PromptFlow)
    (edges : List PromptEdge) (view : PromptView) : Prop where
  nodes : KeepsNodes nodes view
  flows : KeepsFlows flows view
  edges : view.edges = edges

/-- A view over the nodes seen, within its limits, and its flag as far as it can be relied on. -/
structure Fitting (caps : PromptLimits) (nodes : List (String × Json)) (flows : List PromptFlow)
    (edges : List PromptEdge) (view : PromptView) (seen : List String) : Prop where
  shown : ∀ node ∈ view.nodes, Json.member? "id" node.members = some (.str node.id)
  ids : view.nodes.map PromptNode.id = seen
  distinct : seen.Nodup
  known : ∀ nodeId ∈ seen, nodeId ∈ nodes.map Prod.fst
  flowsOver : ∀ flow ∈ view.flows, ∀ nodeId ∈ flow.nodeIds, nodeId ∈ seen
  edgesOver : ∀ edge ∈ view.edges, edge.joins seen = true
  flowRoom : 0 ≤ caps.maxFlows → (view.flows.length : Int) ≤ caps.maxFlows
  nodeRoom : 0 ≤ caps.maxNodes → (view.nodes.length : Int) ≤ caps.maxNodes
  edgeRoom : 0 ≤ caps.maxEdges → (view.edges.length : Int) ≤ caps.maxEdges
  complete : view.complete = true → KeepsNodes nodes view ∧ KeepsFlows flows view
  uncut : (edges.length : Int) ≤ caps.maxEdges → view.complete = true → view.edges = edges
  kept : KeepsAll nodes flows edges view → view.complete = true

theorem keep_flowId (seen : List String) (flows : List PromptFlow) :
    (flows.map (·.keep seen)).map PromptFlow.flowId = flows.map PromptFlow.flowId := by
  rw [List.map_map]
  rfl

theorem keep_over (seen : List String) (flows : List PromptFlow) :
    ∀ flow ∈ flows.map (·.keep seen), ∀ nodeId ∈ flow.nodeIds, nodeId ∈ seen := by
  intro flow hflow nodeId hnodeId
  obtain ⟨source, _, rfl⟩ := List.mem_map.mp hflow
  exact of_decide_eq_true (List.mem_filter.mp hnodeId).2

/-- The view before it is trimmed, with these nodes selected and shown. -/
def startView (caps : PromptLimits) (nodes : List (String × Json)) (flows : List PromptFlow)
    (edges : List PromptEdge) (seen : List String) (kept : List PromptNode)
    (repository digest counts : Json) : PromptView where
  repository := repository
  graphDigest := digest
  counts := counts
  complete := seen.length == nodes.length && (sliceTo caps.maxFlows flows).length == flows.length
  flows := (sliceTo caps.maxFlows flows).map (·.keep seen)
  nodes := kept
  edges := sliceTo caps.maxEdges (edges.filter (·.joins seen))

/-- Nodes as they are shown, under these identifiers. -/
structure ShownAs (seen : List String) (kept : List PromptNode) : Prop where
  ids : kept.map PromptNode.id = seen
  shown : ∀ node ∈ kept, Json.member? "id" node.members = some (.str node.id)

theorem Publishes.shownAs (h : Publishes projection nodes flows edges) (seen : List String)
    (hseen : ∀ nodeId ∈ seen, nodeId ∈ nodes.map Prod.fst) :
    ∃ kept, seen.mapM (Bantam.promptNode (Dict.ofList nodes)) = .ok kept ∧ ShownAs seen kept := by
  induction seen with
  | nil => exact ⟨[], rfl, rfl, List.forall_mem_nil _⟩
  | cons nodeId rest ih =>
    obtain ⟨members, hread, hid⟩ := h.promptNode (hseen nodeId List.mem_cons_self)
    obtain ⟨kept, hkept, hshown⟩ :=
      ih fun other hother => hseen other (List.mem_cons_of_mem nodeId hother)
    refine ⟨⟨nodeId, members⟩ :: kept, ?_, ?_, List.forall_mem_cons.mpr ⟨hid, hshown.shown⟩⟩
    · rw [List.mapM_cons, hread, hkept]
      rfl
    · rw [List.map_cons, hshown.ids]

theorem Publishes.initialView (h : Publishes projection nodes flows edges) (caps : PromptLimits) :
    ∃ kept repository digest counts,
      ShownAs (selectNodes caps.maxNodes (sliceTo caps.maxFlows flows)) kept ∧
      initialView projection caps = .ok
        (startView caps nodes flows edges (selectNodes caps.maxNodes (sliceTo caps.maxFlows flows))
          kept repository digest counts,
          selectNodes caps.maxNodes (sliceTo caps.maxFlows flows)) := by
  obtain ⟨flowItems, hflowItems, hreadFlows⟩ := h.readFlows
  obtain ⟨edgeItems, hedgeItems, hreadEdges⟩ := h.readEdges
  obtain ⟨repository, hrepository⟩ := h.readRest "repository" (by simp)
  obtain ⟨digest, hdigest⟩ := h.readRest "catalogue_digest" (by simp)
  obtain ⟨counts, hcounts⟩ := h.readRest "catalogue_counts" (by simp)
  obtain ⟨kept, hkept, hshown⟩ := h.shownAs
    (selectNodes caps.maxNodes (sliceTo caps.maxFlows flows)) fun nodeId hnodeId => by
      obtain ⟨flow, hflow, hlisted⟩ :=
        List.mem_flatMap.mp ((selected_selectNodes _ _).listed nodeId hnodeId)
      exact h.flowsOver flow ((sliceTo_sublist _ flows).subset hflow) nodeId hlisted
  have hflows : (sliceTo caps.maxFlows flowItems).mapM promptFlow =
      .ok (sliceTo caps.maxFlows flows) := Fallible.mapM_eq_ok.mpr (sliceTo_readings _ hreadFlows)
  have hedges : edgeItems.mapM
      (promptEdge (selectNodes caps.maxNodes (sliceTo caps.maxFlows flows))) =
      .ok (edges.map fun edge =>
        if edge.joins (selectNodes caps.maxNodes (sliceTo caps.maxFlows flows)) then some edge
        else none) := by
    apply Fallible.mapM_eq_ok.mpr
    rw [List.forall₂_map_right_iff]
    exact hreadEdges.imp fun item edge hread => promptEdge_eq hread.1 hread.2.1 hread.2.2
  refine ⟨kept, repository, digest, counts, hshown, ?_⟩
  have hfilter : ∀ seen : List String,
      (edges.map fun edge => if edge.joins seen then some edge else none).filterMap id =
        edges.filter (·.joins seen) := by
    intro seen
    rw [List.filterMap_map, ← List.filterMap_eq_filter]
    refine List.filterMap_congr fun edge _ => ?_
    simp [Option.guard]
  have hlength : flowItems.length = flows.length := hreadFlows.length_eq
  unfold Bantam.initialView
  simp only [h.readNodes, h.nodesById, hflowItems, hflows, hrepository, hdigest, hcounts, hkept,
    hedgeItems, hedges, elements, bind, Except.bind, pure, Except.pure, hfilter, startView,
    List.length_map, hlength]

/-- With as many nodes selected as there are, all are. -/
theorem keepsNodes_iff {seen : List String} (hdistinct : seen.Nodup)
    (hnodes : (nodes.map Prod.fst).Nodup)
    (hknown : ∀ nodeId ∈ seen, nodeId ∈ nodes.map Prod.fst) :
    seen.length = nodes.length ↔ ∀ nodeId ∈ nodes.map Prod.fst, nodeId ∈ seen := by
  have hsub : seen.Subperm (nodes.map Prod.fst) := List.subperm_of_subset hdistinct hknown
  constructor
  · intro hlength nodeId hnodeId
    have hperm := hsub.perm_of_length_le (by rw [List.length_map, hlength])
    exact hperm.mem_iff.mpr hnodeId
  · intro hall
    have hback : (nodes.map Prod.fst).Subperm seen := List.subperm_of_subset hnodes hall
    have hcount : (nodes.map Prod.fst).length = nodes.length := List.length_map Prod.fst
    rw [← hcount]
    exact (hsub.antisymm hback).length_eq

theorem length_of_keepsFlows {view : PromptView} {kept : List PromptFlow}
    (hflows : view.flows.map PromptFlow.flowId = kept.map PromptFlow.flowId)
    (h : KeepsFlows flows view) : kept.length = flows.length := by
  have hlength := congrArg List.length (hflows.symm.trans h)
  rwa [List.length_map, List.length_map] at hlength

/-- The view that the trimming starts from is fitting. -/
theorem Publishes.fitting (h : Publishes projection nodes flows edges) {caps : PromptLimits}
    {kept : List PromptNode} (repository digest counts : Json) {seen : List String}
    (hseen : seen = selectNodes caps.maxNodes (sliceTo caps.maxFlows flows))
    (hshown : ShownAs seen kept) :
    Fitting caps nodes flows edges
      (startView caps nodes flows edges seen kept repository digest counts) seen := by
  have hselected := selected_selectNodes caps.maxNodes (sliceTo caps.maxFlows flows)
  rw [← hseen] at hselected
  have hknown : ∀ nodeId ∈ seen, nodeId ∈ nodes.map Prod.fst := by
    intro nodeId hnodeId
    obtain ⟨flow, hflow, hlisted⟩ := List.mem_flatMap.mp (hselected.listed nodeId hnodeId)
    exact h.flowsOver flow ((sliceTo_sublist _ flows).subset hflow) nodeId hlisted
  have hall := keepsNodes_iff hselected.distinct h.distinct hknown
  have hcomplete : (startView caps nodes flows edges seen kept repository digest counts).complete =
      true ↔ seen.length = nodes.length ∧ (sliceTo caps.maxFlows flows).length = flows.length := by
    simp [startView]
  have hnodes : KeepsNodes nodes
      (startView caps nodes flows edges seen kept repository digest counts) ↔
      seen.length = nodes.length := by
    rw [hall, KeepsNodes, startView, hshown.ids]
  refine ⟨hshown.shown, hshown.ids, hselected.distinct, hknown, keep_over seen _, ?_, ?_, ?_, ?_,
    ?_, ?_, ?_⟩
  · intro edge hedge
    exact (List.mem_filter.mp ((sliceTo_sublist _ _).subset hedge)).2
  · intro hcap
    rw [startView, List.length_map]
    exact length_sliceTo hcap
  · intro hcap
    have hcount : (kept.map PromptNode.id).length = kept.length := List.length_map PromptNode.id
    rw [startView, ← hcount, hshown.ids]
    exact hselected.room hcap
  · exact fun hcap => length_sliceTo hcap
  · intro hflag
    obtain ⟨hlength, hflows⟩ := hcomplete.mp hflag
    refine ⟨hnodes.mpr hlength, ?_⟩
    rw [KeepsFlows, startView, keep_flowId, (sliceTo_sublist _ flows).eq_of_length hflows]
  · intro hroom hflag
    have hkeeps := hall.mp (hcomplete.mp hflag).1
    have hjoined : edges.filter (·.joins seen) = edges := by
      rw [List.filter_eq_self]
      intro edge hedge
      obtain ⟨hsource, htarget⟩ := h.edgesOver edge hedge
      simp [PromptEdge.joins, hkeeps _ hsource, hkeeps _ htarget]
    rw [startView]
    dsimp only
    rw [hjoined, sliceTo_eq hroom]
  · intro hkeeps
    exact hcomplete.mpr ⟨hnodes.mp hkeeps.nodes,
      length_of_keepsFlows (keep_flowId seen _) hkeeps.flows⟩

variable {caps : PromptLimits} {view : PromptView} {seen : List String}

/-- The last node goes, and with it the edges at it and its place in the flows. -/
theorem Fitting.withoutLast (h : Fitting caps nodes flows edges view seen)
    (hview : view.nodes ≠ []) :
    Fitting caps nodes flows edges (view.withoutLast seen).1 (view.withoutLast seen).2 := by
  obtain ⟨initial, removed, hnodes⟩ := List.eq_nil_or_concat view.nodes |>.resolve_left hview
  have hseen : seen = initial.map PromptNode.id ++ [removed.id] := by
    rw [← h.ids, hnodes, List.concat_eq_append, List.map_append, List.map_singleton]
  have hapart : removed.id ∉ initial.map PromptNode.id := by
    have hdistinct := h.distinct
    rw [hseen, List.nodup_append'] at hdistinct
    simpa [List.disjoint_singleton] using hdistinct.2.2
  have hleft : (view.withoutLast seen).2 = initial.map PromptNode.id := by
    rw [PromptView.withoutLast, hnodes, List.concat_eq_append, List.getLast?_concat]
    dsimp only
    rw [hseen, List.filter_append, List.filter_cons_of_neg (by simp), List.filter_nil,
      List.append_nil, List.filter_eq_self]
    intro nodeId hnodeId
    simpa using fun heq : nodeId = removed.id => hapart (heq ▸ hnodeId)
  have hrest : (view.withoutLast seen).1.nodes = initial := by
    rw [PromptView.withoutLast]
    dsimp only
    rw [hnodes, List.concat_eq_append, List.dropLast_concat]
  have hsub : ∀ nodeId ∈ initial.map PromptNode.id, nodeId ∈ seen := by
    intro nodeId hnodeId
    rw [hseen]
    exact List.mem_append_left _ hnodeId
  refine ⟨?_, by rw [hrest, hleft], ?_, ?_, ?_, ?_, ?_, ?_, ?_, ?_, ?_, ?_⟩
  · intro node hnode
    rw [hrest] at hnode
    apply h.shown
    rw [hnodes, List.concat_eq_append]
    exact List.mem_append_left _ hnode
  · rw [hleft]
    have hdistinct := h.distinct
    rw [hseen, List.nodup_append'] at hdistinct
    exact hdistinct.1
  · rw [hleft]
    exact fun nodeId hnodeId => h.known nodeId (hsub nodeId hnodeId)
  · exact keep_over _ view.flows
  · intro edge hedge
    exact (List.mem_filter.mp hedge).2
  · intro hcap
    have hroom := h.flowRoom hcap
    rw [PromptView.withoutLast]
    dsimp only
    rwa [List.length_map]
  · intro hcap
    have hroom := h.nodeRoom hcap
    rw [length_withoutLast]
    omega
  · intro hcap
    have hroom := h.edgeRoom hcap
    have hfewer : (view.withoutLast seen).1.edges.length ≤ view.edges.length :=
      List.length_filter_le _ _
    omega
  · exact fun hflag => absurd hflag Bool.false_ne_true
  · exact fun _ hflag => absurd hflag Bool.false_ne_true
  · intro hkeeps
    have hlost := hkeeps.nodes removed.id (h.known removed.id (by rw [hseen]; simp))
    rw [hrest] at hlost
    exact absurd hlost hapart

/-- The trimming keeps a view fitting; it ends within the bytes or at twenty nodes. -/
theorem Fitting.trim (h : Fitting caps nodes flows edges view seen) (maxBytes : Int) :
    (∃ left, Fitting caps nodes flows edges (view.trim maxBytes seen) left) ∧
      (((view.trim maxBytes seen).size : Int) ≤ maxBytes ∨
        (view.trim maxBytes seen).nodes.length ≤ 20) := by
  fun_induction PromptView.trim maxBytes view seen with
  | case1 view seen hlong ih =>
    apply ih
    apply h.withoutLast
    intro hnone
    rw [hnone, List.length_nil] at hlong
    omega
  | case2 view seen hdone =>
    refine ⟨⟨seen, h⟩, ?_⟩
    omega

end

/-! The reduction. -/

/-- A view that is closed and as large as its limits allow, and what its flag says of the nodes,
flows and edges of the projection. Trimming stops at twenty nodes. -/
structure Reduced (caps : PromptLimits) (nodes : List (String × Json)) (flows : List PromptFlow)
    (edges : List PromptEdge) (view : PromptView) : Prop where
  shown : ∀ node ∈ view.nodes, Json.member? "id" node.members = some (.str node.id)
  flowsOver : ∀ flow ∈ view.flows, ∀ nodeId ∈ flow.nodeIds, nodeId ∈ view.nodes.map PromptNode.id
  edgesOver : ∀ edge ∈ view.edges, edge.source ∈ view.nodes.map PromptNode.id ∧
    edge.target ∈ view.nodes.map PromptNode.id
  flowRoom : 0 ≤ caps.maxFlows → (view.flows.length : Int) ≤ caps.maxFlows
  nodeRoom : 0 ≤ caps.maxNodes → (view.nodes.length : Int) ≤ caps.maxNodes
  edgeRoom : 0 ≤ caps.maxEdges → (view.edges.length : Int) ≤ caps.maxEdges
  size : (view.toJson.dumps.length : Int) ≤ caps.maxBytes ∨ view.nodes.length ≤ 20
  complete : view.complete = true → KeepsNodes nodes view ∧ KeepsFlows flows view
  kept : KeepsAll nodes flows edges view → view.complete = true
  uncut : (edges.length : Int) ≤ caps.maxEdges →
    (view.complete = true ↔ KeepsAll nodes flows edges view)

section
variable {F : Type} {floats : Floats F}

/-- Every published projection is reduced, under all limits. -/
theorem prompt_reduction {sha256 : String → String} {catalogue model evidence projection : Json}
    {commit : String}
    (h : buildPublicProjection floats sha256 catalogue model commit evidence = .ok projection) :
    ∃ nodes flows edges, Publishes projection nodes flows edges ∧
      ∀ limits : Option PromptLimits, ∃ view,
        reduceProjection projection limits = .ok view.toJson ∧
        Reduced (limits.getD promptLimits) nodes flows edges view := by
  obtain ⟨nodes, flows, edges, hpublishes⟩ := publishes_of_build h
  refine ⟨nodes, flows, edges, hpublishes, fun limits => ?_⟩
  obtain ⟨kept, repository, digest, counts, hshown, hinitial⟩ :=
    hpublishes.initialView (limits.getD promptLimits)
  have hstart := hpublishes.fitting repository digest counts rfl hshown
  obtain ⟨⟨left, hfit⟩, hsize⟩ := hstart.trim (limits.getD promptLimits).maxBytes
  refine ⟨_, ?_, ⟨hfit.shown, ?_, ?_, hfit.flowRoom, hfit.nodeRoom, hfit.edgeRoom, hsize,
    hfit.complete, hfit.kept, ?_⟩⟩
  · rw [reduceProjection, promptView]
    simp only [hinitial, bind, Except.bind, pure, Except.pure]
  · rw [hfit.ids]
    exact hfit.flowsOver
  · intro edge hedge
    rw [hfit.ids]
    simpa [PromptEdge.joins] using hfit.edgesOver edge hedge
  · intro hroom
    constructor
    · intro hflag
      obtain ⟨hnodes, hflows⟩ := hfit.complete hflag
      exact ⟨hnodes, hflows, hfit.uncut hroom hflag⟩
    · exact hfit.kept

end

/-! A projection with one node. -/

/-- Whole numbers by their digits. -/
def digitFloats : Floats Int where
  ofNumber text := some (text.toList.foldl (fun n c => 10 * n + (c.toNat - '0'.toNat : Nat)) 0)
  zero := 0
  one := 1
  add := (· + ·)
  le x y := x ≤ y
  rounded := some
  fixed := toString

theorem integer?_nat {n : Nat} (h : isInteger (toString n) = true) :
    integer? (some (.nat n)) = some (n : Int) := by
  rw [Json.nat, integer?, if_pos h]
  exact Int.toInt?_repr n

theorem validateSettings_example : validateSettings digitFloats exampleModel = .ok () := by
  have hiterations : exampleModel.get? "iterations" = some (.nat 1000) := rfl
  have hseed : exampleModel.get? "seed" = some (.nat 1) := rfl
  rw [validateSettings, hiterations, hseed, integer?_nat (by decide +kernel),
    integer?_nat (by decide +kernel)]
  rfl

theorem exists_ok {α : Type} {x : Report α} (h : x.isOk = true) : ∃ a, x = .ok a := by
  cases x with
  | ok a => exact ⟨a, rfl⟩
  | error failure => cases h

theorem build_example : ∃ projection, buildPublicProjection digitFloats id
    (exampleCatalogue "" "") exampleModel "local" (.obj []) = .ok projection := by
  apply exists_ok
  rw [buildPublicProjection, validateRiskModel, validateSettings_example]
  decide +kernel

theorem prompt_reduction_example : ∃ projection nodes flows edges,
    buildPublicProjection digitFloats id (exampleCatalogue "" "") exampleModel "local" (.obj []) =
      .ok projection ∧
    Publishes projection nodes flows edges ∧
    ∃ view, reduceProjection projection none = .ok view.toJson ∧
      Reduced promptLimits nodes flows edges view := by
  obtain ⟨projection, hbuild⟩ := build_example
  obtain ⟨nodes, flows, edges, hpublishes, hreduced⟩ := prompt_reduction hbuild
  exact ⟨projection, nodes, flows, edges, hbuild, hpublishes, hreduced none⟩

theorem size_pos (view : PromptView) : 0 < view.toJson.dumps.length := by
  rw [PromptView.toJson, Json.dumps, String.length_ofList, Json.write, List.length_cons]
  exact Nat.succ_pos _

/-- With no room for any text the one node stays, and the text is longer than its limit. -/
theorem reduction_over_limit : ∃ projection view,
    buildPublicProjection digitFloats id (exampleCatalogue "" "") exampleModel "local" (.obj []) =
      .ok projection ∧
    reduceProjection projection (some ⟨40, 110, 220, 0⟩) = .ok view ∧ 0 < view.dumps.length := by
  obtain ⟨projection, hbuild⟩ := build_example
  obtain ⟨nodes, flows, edges, hpublishes⟩ := publishes_of_build hbuild
  obtain ⟨kept, repository, digest, counts, _, hinitial⟩ :=
    hpublishes.initialView ⟨40, 110, 220, 0⟩
  have hreduced : reduceProjection projection (some ⟨40, 110, 220, 0⟩) =
      .ok ((startView ⟨40, 110, 220, 0⟩ nodes flows edges (selectNodes 110 (sliceTo 40 flows)) kept
        repository digest counts).trim 0 (selectNodes 110 (sliceTo 40 flows))).toJson := by
    rw [reduceProjection, promptView, Option.getD_some, hinitial]
    rfl
  exact ⟨projection, _, hbuild, hreduced, size_pos _⟩

end Bantam
