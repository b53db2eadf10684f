import Bantam.DependencySequence
import Bantam.PythonSymbols
import Bantam.TerraformScopes

/-! Every pass of the builders leaves a graph whose edges join its nodes, and every catalogue one
whose flows follow its edges. -/
namespace Bantam

/-! Closed catalogues. -/

def RepositoryCatalog.ids (catalog : RepositoryCatalog) : List String := catalog.nodes.map (·.id)

/-- An edge of the catalogue lists the flow. -/
def RepositoryCatalog.Lists (catalog : RepositoryCatalog) (edge : GraphEdge) (flowId : String) :
    Prop :=
  ∃ flowIds, (edge, flowIds) ∈ catalog.edges ∧ flowId ∈ flowIds

/-- Edges and flows are over the nodes of the catalogue, and a flow is listed at the `next` edge of
any two consecutive nodes of it. -/
structure RepositoryCatalog.Closed (catalog : RepositoryCatalog) : Prop where
  edges : ∀ entry ∈ catalog.edges, entry.1.source ∈ catalog.ids ∧ entry.1.target ∈ catalog.ids
  flows : ∀ flow ∈ catalog.defaultFlows, ∀ id ∈ flow.nodeIds, id ∈ catalog.ids
  joined : ∀ flow ∈ catalog.defaultFlows, ∀ pair ∈ flow.nodeIds.zip flow.nodeIds.tail,
    catalog.Lists ⟨pair.1, pair.2, "next"⟩ flow.flowId

/-! Graphs that have some nodes. -/

/-- A node is stored under its identifier, the edges join nodes, and these nodes are there. -/
structure CodeGraph.Has (ids : List String) (graph : CodeGraph) : Prop where
  keyed : ∀ id node, graph.nodes.get? id = some node → node.id = id
  closed : ∀ edge ∈ graph.edges.keys, edge.source ∈ graph.nodes.keys ∧ edge.target ∈ graph.nodes.keys
  mem : ∀ id ∈ ids, id ∈ graph.nodes.keys

namespace CodeGraph.Has
variable {ids base : List String} {graph : CodeGraph} {α : Type}

theorem empty : Has [] .empty where
  keyed _ _ h := by cases h
  closed _ h := absurd h List.not_mem_nil
  mem _ h := absurd h List.not_mem_nil

theorem mono (h : graph.Has ids) (hsub : base ⊆ ids) : graph.Has base :=
  ⟨h.keyed, h.closed, fun id hid => h.mem id (hsub hid)⟩

theorem addNode (h : graph.Has ids) (node : CodeNode) : (graph.addNode node).Has (node.id :: ids) := by
  have hkeys : ∀ id, id ∈ graph.nodes.keys → id ∈ (graph.addNode node).nodes.keys :=
    fun _ hid => Dict.mem_keys_set.mpr (.inl hid)
  constructor
  · intro id other hother
    have hset : (graph.nodes.set node.id node).get? id = some other := hother
    rw [Dict.get?_set] at hset
    split at hset
    · next hid =>
      cases hset
      exact hid.symm
    · exact h.keyed id other hset
  · intro edge hedge
    obtain ⟨hsource, htarget⟩ := h.closed edge hedge
    exact ⟨hkeys _ hsource, hkeys _ htarget⟩
  · intro id hid
    cases List.mem_cons.mp hid with
    | inl hnew => exact Dict.mem_keys_set.mpr (.inr hnew)
    | inr hold => exact hkeys id (h.mem id hold)

theorem addEdge (h : graph.Has ids) {edge : GraphEdge} {flowId : Option String}
    (hsource : edge.source ∈ ids) (htarget : edge.target ∈ ids) :
    (graph.addEdge edge flowId).Has ids := by
  refine ⟨h.keyed, fun other hother => ?_, h.mem⟩
  cases mem_addEdge.mp hother with
  | inl hold => exact h.closed other hold
  | inr hnew =>
    rw [hnew]
    exact ⟨h.mem _ hsource, h.mem _ htarget⟩

/-- What each step brings, all of them bring. -/
theorem foldl {f : CodeGraph → α → CodeGraph} {gain : α → List String} (l : List α)
    (hstep : ∀ a ∈ l, ∀ ids graph, base ⊆ ids → graph.Has ids → (f graph a).Has (gain a ++ ids))
    (hbase : base ⊆ ids) (h : graph.Has ids) : (l.foldl f graph).Has (l.flatMap gain ++ ids) := by
  induction l generalizing ids graph with
  | nil => exact h
  | cons a rest ih =>
    have hfirst := hstep a List.mem_cons_self ids graph hbase h
    have hrest := ih (fun b hb => hstep b (List.mem_cons_of_mem a hb))
      (fun id hid => List.mem_append_right _ (hbase hid)) hfirst
    apply hrest.mono
    intro id hid
    rw [List.flatMap_cons, List.append_assoc] at hid
    simp only [List.mem_append] at hid ⊢
    exact or_left_comm.mp hid

theorem addNodes (h : graph.Has ids) (nodes : List CodeNode) :
    (nodes.foldl CodeGraph.addNode graph).Has (nodes.map (·.id) ++ ids) := by
  rw [List.map_eq_flatMap]
  exact @foldl ids [] graph _ _ _ nodes (fun node _ ids graph _ hgraph => hgraph.addNode node)
    (List.nil_subset ids) h

theorem addFlow (h : graph.Has ids) {flow : CodeFlow} (hflow : ∀ id ∈ flow.nodeIds, id ∈ ids) :
    (graph.addFlow flow).Has ids := by
  apply List.foldlRecOn (motive := CodeGraph.Has ids) _ _ h
  rintro graph hgraph ⟨source, target⟩ hpair
  obtain ⟨hsource, htarget⟩ := List.of_mem_zip hpair
  exact hgraph.addEdge (hflow _ hsource) (hflow _ (List.mem_of_mem_tail htarget))

end CodeGraph.Has

/-! Edges that list a flow. -/

namespace CodeGraph
variable {graph : CodeGraph} {edge other : GraphEdge} {flowId : String}

def Lists (graph : CodeGraph) (edge : GraphEdge) (flowId : String) : Prop :=
  ∃ flowIds, graph.edges.get? edge = some flowIds ∧ flowId ∈ flowIds

theorem mem_sorted {name : String} {names : List String} : name ∈ Text.sorted names ↔ name ∈ names :=
  (List.mergeSort_perm _ _).mem_iff

/-- No edge loses a flow. -/
theorem Lists.addEdge (h : graph.Lists edge flowId) (added : GraphEdge) (flow : Option String) :
    (graph.addEdge added flow).Lists edge flowId := by
  obtain ⟨flowIds, hget, hmem⟩ := h
  show ∃ listed, (graph.edges.set added _).get? edge = some listed ∧ flowId ∈ listed
  rw [Dict.get?_set]
  by_cases hsame : edge = added
  · subst hsame
    refine ⟨_, if_pos rfl, ?_⟩
    rw [hget, Option.getD_some]
    cases flow with
    | none => exact hmem
    | some other =>
      dsimp only
      split
      · exact hmem
      · exact mem_sorted.mpr (List.mem_append_left _ hmem)
  · exact ⟨flowIds, by rw [if_neg hsame, hget], hmem⟩

theorem lists_addEdge (graph : CodeGraph) (edge : GraphEdge) (flowId : String) :
    (graph.addEdge edge (some flowId)).Lists edge flowId := by
  unfold Lists
  rw [CodeGraph.addEdge]
  dsimp only
  rw [Dict.get?_set]
  refine ⟨_, if_pos rfl, ?_⟩
  split
  · next h => exact h
  · exact mem_sorted.mpr (List.mem_append_right _ List.mem_cons_self)

/-- One step of a fold suffices when all of them keep what is listed. -/
theorem lists_foldl {α : Type} {f : CodeGraph → α → CodeGraph} {l : List α}
    (hkeep : ∀ a ∈ l, ∀ graph : CodeGraph, graph.Lists edge flowId → (f graph a).Lists edge flowId)
    {a : α} (ha : a ∈ l) (hmake : ∀ graph, (f graph a).Lists edge flowId) (graph : CodeGraph) :
    (l.foldl f graph).Lists edge flowId := by
  obtain ⟨before, after, rfl⟩ := List.append_of_mem ha
  rw [List.foldl_append, List.foldl_cons]
  apply List.foldlRecOn (motive := fun graph : CodeGraph => graph.Lists edge flowId) _ _ (hmake _)
  exact fun graph hgraph b hb =>
    hkeep b (List.mem_append_right _ (List.mem_cons_of_mem a hb)) graph hgraph

theorem Lists.addFlow (h : graph.Lists edge flowId) (flow : CodeFlow) :
    (graph.addFlow flow).Lists edge flowId :=
  List.foldlRecOn (motive := fun graph : CodeGraph => graph.Lists edge flowId) _ _ h
    fun _ hgraph _ _ => hgraph.addEdge _ _

theorem lists_addFlow (graph : CodeGraph) {flow : CodeFlow} {pair : String × String}
    (hpair : pair ∈ flow.nodeIds.zip flow.nodeIds.tail) :
    (graph.addFlow flow).Lists ⟨pair.1, pair.2, "next"⟩ flow.flowId := by
  apply lists_foldl _ hpair
  · exact fun graph => lists_addEdge graph _ _
  · exact fun _ _ _ hgraph => hgraph.addEdge _ _

/-! The catalogue of a graph. -/

theorem mem_catalog_edges {flows : List CodeFlow} {parseErrors : List CodeNode}
    {flowIds : List String} : (edge, flowIds) ∈ (graph.catalog flows parseErrors).edges ↔
      graph.edges.get? edge = some flowIds :=
  (List.mergeSort_perm _ _).mem_iff.trans Dict.get?_eq_some.symm

theorem mem_catalog_flows {flows : List CodeFlow} {parseErrors : List CodeNode} {flow : CodeFlow} :
    flow ∈ (graph.catalog flows parseErrors).defaultFlows ↔ flow ∈ flows :=
  (List.mergeSort_perm _ _).mem_iff

theorem Has.mem_catalog_ids {ids : List String} (h : graph.Has ids) {flows : List CodeFlow}
    {parseErrors : List CodeNode} {id : String} :
    id ∈ (graph.catalog flows parseErrors).ids ↔ id ∈ graph.nodes.keys := by
  have hperm : (graph.catalog flows parseErrors).ids.Perm
      ((graph.nodes.items.map (·.2)).map (·.id)) := (List.mergeSort_perm _ _).map _
  have hkeys : (graph.nodes.items.map (·.2)).map (·.id) = graph.nodes.keys := by
    rw [List.map_map, Dict.keys]
    apply List.map_congr_left
    rintro ⟨id, node⟩ hitem
    exact h.keyed id node (Dict.get?_eq_some.mpr hitem)
  rw [hperm.mem_iff, hkeys]

/-- A catalogue of a graph with its edges is closed when its flows are over the nodes of the graph
and their steps are listed. -/
theorem Has.closed_catalog {ids : List String} (h : graph.Has ids) {flows : List CodeFlow}
    (parseErrors : List CodeNode) (hflows : ∀ flow ∈ flows, ∀ id ∈ flow.nodeIds, id ∈ ids)
    (hjoined : ∀ flow ∈ flows, ∀ pair ∈ flow.nodeIds.zip flow.nodeIds.tail,
      graph.Lists ⟨pair.1, pair.2, "next"⟩ flow.flowId) :
    (graph.catalog flows parseErrors).Closed := by
  constructor
  · rintro ⟨edge, flowIds⟩ hentry
    have hkey : edge ∈ graph.edges.keys := Dict.mem_keys_iff.mpr ⟨_, mem_catalog_edges.mp hentry⟩
    obtain ⟨hsource, htarget⟩ := h.closed edge hkey
    exact ⟨h.mem_catalog_ids.mpr hsource, h.mem_catalog_ids.mpr htarget⟩
  · intro flow hflow id hid
    exact h.mem_catalog_ids.mpr (h.mem id (hflows flow (mem_catalog_flows.mp hflow) id hid))
  · intro flow hflow pair hpair
    obtain ⟨flowIds, hget, hmem⟩ := hjoined flow (mem_catalog_flows.mp hflow) pair hpair
    exact ⟨flowIds, mem_catalog_edges.mpr hget, hmem⟩

/-- The last pass of both builders. -/
theorem Has.closed_flows {ids : List String} (h : graph.Has ids) {flows : List CodeFlow}
    (parseErrors : List CodeNode) (hflows : ∀ flow ∈ flows, ∀ id ∈ flow.nodeIds, id ∈ ids) :
    ((flows.foldl CodeGraph.addFlow graph).catalog flows parseErrors).Closed := by
  have hadded : (flows.foldl CodeGraph.addFlow graph).Has ids :=
    List.foldlRecOn (motive := CodeGraph.Has ids) _ _ h
      fun graph hgraph flow hflow => hgraph.addFlow (hflows flow hflow)
  apply hadded.closed_catalog parseErrors hflows
  intro flow hflow pair hpair
  exact lists_foldl (fun other _ _ hgraph => hgraph.addFlow other) hflow
    (fun graph => lists_addFlow graph hpair) graph

end CodeGraph

/-! Merged catalogues. -/

section
variable {graph : CodeGraph} {ids : List String} {catalog : RepositoryCatalog}

theorem CodeGraph.Has.mergeEdge (h : graph.Has ids) {entry : GraphEdge × List String}
    (hsource : entry.1.source ∈ ids) (htarget : entry.1.target ∈ ids) :
    (graph.mergeEdge entry).Has ids :=
  List.foldlRecOn (motive := CodeGraph.Has ids) _ _ (h.addEdge hsource htarget)
    fun _ hgraph _ _ => hgraph.addEdge hsource htarget

theorem CodeGraph.Has.mergeCatalog (h : graph.Has ids) (hclosed : catalog.Closed) :
    (graph.mergeCatalog catalog).Has (catalog.ids ++ ids) := by
  apply List.foldlRecOn (motive := CodeGraph.Has (catalog.ids ++ ids)) _ _
    (h.addNodes catalog.nodes)
  intro graph hgraph entry hentry
  obtain ⟨hsource, htarget⟩ := hclosed.edges entry hentry
  exact hgraph.mergeEdge (List.mem_append_left _ hsource) (List.mem_append_left _ htarget)

theorem CodeGraph.Lists.mergeEdge {edge : GraphEdge} {flowId : String}
    (h : graph.Lists edge flowId) (entry : GraphEdge × List String) :
    (graph.mergeEdge entry).Lists edge flowId :=
  List.foldlRecOn (motive := fun graph : CodeGraph => graph.Lists edge flowId) _ _ (h.addEdge _ _)
    fun _ hgraph _ _ => hgraph.addEdge _ _

theorem CodeGraph.lists_mergeEdge (graph : CodeGraph) {entry : GraphEdge × List String}
    {flowId : String} (h : flowId ∈ entry.2) : (graph.mergeEdge entry).Lists entry.1 flowId := by
  apply CodeGraph.lists_foldl _ h
  · exact fun graph => CodeGraph.lists_addEdge graph _ _
  · exact fun _ _ _ hgraph => hgraph.addEdge _ _

theorem CodeGraph.Lists.mergeCatalog {edge : GraphEdge} {flowId : String}
    (h : graph.Lists edge flowId) (catalog : RepositoryCatalog) :
    (graph.mergeCatalog catalog).Lists edge flowId := by
  have hnodes : (catalog.nodes.foldl CodeGraph.addNode graph).Lists edge flowId :=
    List.foldlRecOn (motive := fun graph : CodeGraph => graph.Lists edge flowId) _ _ h
      fun _ hgraph _ _ => hgraph
  exact List.foldlRecOn (motive := fun graph : CodeGraph => graph.Lists edge flowId) _ _ hnodes
    fun _ hgraph entry _ => hgraph.mergeEdge entry

theorem CodeGraph.lists_mergeCatalog (graph : CodeGraph) {edge : GraphEdge} {flowId : String}
    (h : catalog.Lists edge flowId) : (graph.mergeCatalog catalog).Lists edge flowId := by
  obtain ⟨flowIds, hentry, hmem⟩ := h
  exact CodeGraph.lists_foldl (fun entry _ _ hgraph => hgraph.mergeEdge entry) hentry
    (fun graph => graph.lists_mergeEdge hmem) _

/-- What is merged of closed catalogues is closed. -/
theorem closed_mergeCatalogs {catalogs : List RepositoryCatalog}
    (h : ∀ catalog ∈ catalogs, catalog.Closed) : (mergeCatalogs catalogs).Closed := by
  have hhas : (catalogs.foldl CodeGraph.mergeCatalog .empty).Has
      (catalogs.flatMap (·.ids) ++ []) :=
    @CodeGraph.Has.foldl [] [] .empty _ _ _ catalogs
      (fun catalog hcatalog _ _ _ hgraph => hgraph.mergeCatalog (h catalog hcatalog))
      (List.nil_subset []) .empty
  apply hhas.closed_catalog
  · intro flow hflow id hid
    obtain ⟨catalog, hcatalog, hflow⟩ := List.mem_flatMap.mp hflow
    apply List.mem_append_left
    exact List.mem_flatMap.mpr ⟨catalog, hcatalog, (h catalog hcatalog).flows flow hflow id hid⟩
  · intro flow hflow pair hpair
    obtain ⟨catalog, hcatalog, hflow⟩ := List.mem_flatMap.mp hflow
    have hlists := (h catalog hcatalog).joined flow hflow pair hpair
    exact CodeGraph.lists_foldl (fun other _ _ hgraph => hgraph.mergeCatalog other) hcatalog
      (fun graph => graph.lists_mergeCatalog hlists) _

end

/-! What is found in a function. -/

section Python
variable {readers : SourceReaders} {tree : List TreeFile} {functions : Dict String FunctionFact}
  {fact : FunctionFact}

theorem known_some {candidate target : String} (h : known functions candidate = some target) :
    target ∈ functions.keys := by
  unfold known at h
  split at h
  · next hsome =>
    cases h
    obtain ⟨fact, hfact⟩ := Option.isSome_iff_exists.mp hsome
    exact Dict.mem_keys_iff.mpr ⟨fact, hfact⟩
  · cases h

theorem bind_known_some {α : Type} {o : Option α} {f : α → String} {target : String}
    (h : (o.bind fun a => known functions (f a)) = some target) : target ∈ functions.keys := by
  obtain ⟨_, _, h⟩ := Option.bind_eq_some_iff.mp h
  exact known_some h

theorem onlyNamed_some {short target : String} (h : onlyNamed functions short = some target) :
    target ∈ functions.keys := by
  unfold onlyNamed at h
  split at h
  · next symbol hfilter =>
    cases h
    have hmem : target ∈ functions.keys.filter fun symbol => lastPart symbol = short := by
      rw [hfilter]
      exact List.mem_cons_self
    exact (List.mem_filter.mp hmem).1
  · cases h

theorem serviceMethod_some {parts : List String} {target : String}
    (h : serviceMethod functions parts = some target) : target ∈ functions.keys := by
  rcases Option.or_eq_some_iff.mp h with h | ⟨_, h⟩
  · split at h
    · exact bind_known_some h
    · cases h
  · split at h
    · exact bind_known_some h
    · cases h

/-- A call is resolved to a function of the repository. -/
theorem resolveCall_some {func : PyExpr} {target : String}
    (h : resolveCall functions fact func = some target) : target ∈ functions.keys := by
  unfold resolveCall at h
  dsimp only at h
  split at h
  · cases h
  · split at h
    · rcases Option.or_eq_some_iff.mp h with h | ⟨_, h⟩
      · exact bind_known_some h
      · rcases Option.or_eq_some_iff.mp h with h | ⟨_, h⟩
        · exact known_some h
        · exact onlyNamed_some h
    · rcases Option.or_eq_some_iff.mp h with h | ⟨_, h⟩
      · split at h
        · rcases Option.or_eq_some_iff.mp h with h | ⟨_, h⟩
          · split at h
            · exact bind_known_some h
            · cases h
          · exact bind_known_some h
        · cases h
      · exact serviceMethod_some h
    · cases h

/-- What is found brings the node that it leads to, or that is a function; it is a call when its
edge says so. -/
structure Found.Leads (functions : Dict String FunctionFact) (found : Found) : Prop where
  own : ∀ node, found.node = some node → node.id = found.target
  function : found.node = none → ∃ symbol ∈ functions.keys, found.target = "function:" ++ symbol
  calls : ∀ symbol, found.call = some symbol ↔
    found.edgeType = "calls" ∧ found.target = "function:" ++ symbol

theorem Found.Leads.of_node {found : Found} {node : CodeNode} (hnode : found.node = some node)
    (hid : node.id = found.target) (hcall : found.call = none) (htype : found.edgeType ≠ "calls") :
    found.Leads functions := by
  refine ⟨fun other hother => ?_, fun hnone => ?_, fun symbol => ?_⟩
  · cases hnode.symm.trans hother
    exact hid
  · cases hnode.symm.trans hnone
  · rw [hcall]
    exact iff_of_false (Option.some_ne_none symbol).symm fun h => htype h.1

theorem foundChecks_leads (checks : List PyCheck) (seen : List String) :
    ∀ found ∈ foundChecks readers fact seen checks, found.Leads functions := by
  induction checks generalizing seen with
  | nil => exact fun _ h => absurd h List.not_mem_nil
  | cons check rest ih =>
    rw [foundChecks]
    exact List.forall_mem_cons.mpr
      ⟨.of_node rfl rfl rfl (by show "checks" ≠ "calls"; decide), ih _⟩

theorem foundStatement_leads (call : PyCall) (statement : String) (occurrence : Nat) :
    (foundStatement readers fact call statement occurrence).Leads functions := by
  apply Found.Leads.of_node rfl rfl rfl
  unfold foundStatement
  dsimp only
  split
  · decide
  · decide

theorem foundCalls_leads (calls : List PyCall) (seen : List String) :
    ∀ found ∈ foundCalls readers functions fact seen calls, found.Leads functions := by
  induction calls generalizing seen with
  | nil => exact fun _ h => absurd h List.not_mem_nil
  | cons call rest ih =>
    rw [foundCalls]
    split
    · exact List.forall_mem_cons.mpr ⟨foundStatement_leads call _ _, ih _⟩
    · split
      · next target htarget =>
        split
        · exact ih seen
        · refine List.forall_mem_cons.mpr ⟨⟨fun node hnode => ?_, fun _ => ?_, fun symbol => ?_⟩,
            ih seen⟩
          · cases hnode
          · exact ⟨target, resolveCall_some htarget, rfl⟩
          · show some target = some symbol ↔
              "calls" = "calls" ∧ "function:" ++ target = "function:" ++ symbol
            rw [Option.some_inj, String.append_right_inj, and_iff_right rfl]
      · exact ih seen

theorem foundIn_leads : ∀ found ∈ foundIn readers functions fact, found.Leads functions := by
  intro found hfound
  rcases List.mem_append.mp hfound with hfound | hcall
  · rcases List.mem_append.mp hfound with hcheck | htransaction
    · exact foundChecks_leads _ _ found hcheck
    · obtain ⟨place, _, rfl⟩ := List.mem_map.mp htransaction
      exact .of_node rfl rfl rfl (by show "contains" ≠ "calls"; decide)
  · exact foundCalls_leads _ _ found hcall

/-! The passes over a Python repository. -/

/-- The nodes of the functions. -/
def functionIds (functions : Dict String FunctionFact) : List String :=
  functions.items.map (·.2.nodeId)

/-- The nodes that a function leads to. -/
def targetsOf (readers : SourceReaders) (functions : Dict String FunctionFact)
    (fact : FunctionFact) : List String :=
  (foundIn readers functions fact).map (·.target)

/-- The nodes that the functions lead to. -/
def targetIds (readers : SourceReaders) (functions : Dict String FunctionFact) : List String :=
  (functions.items.map (·.2)).flatMap (targetsOf readers functions)

variable {ids : List String} {graph : CodeGraph}

/-- The functions are stored under their symbols. -/
def SymbolKeyed (functions : Dict String FunctionFact) : Prop :=
  ∀ item ∈ functions.items, item.1 = item.2.symbol

theorem pythonFunctions_keyed (readers : SourceReaders) (tree : List TreeFile) :
    SymbolKeyed (pythonFunctions readers tree) := fun _ hitem => (mem_pythonFunctions hitem).2

theorem SymbolKeyed.functionId (hkeyed : SymbolKeyed functions) {symbol : String}
    (h : symbol ∈ functions.keys) : "function:" ++ symbol ∈ functionIds functions := by
  obtain ⟨item, hitem, rfl⟩ := List.mem_map.mp h
  rw [hkeyed item hitem]
  exact List.mem_map.mpr ⟨item, hitem, rfl⟩

theorem has_indexPython :
    (indexPython readers tree).Has (functionIds (pythonFunctions readers tree)) := by
  have herrors := CodeGraph.Has.empty.addNodes (pythonParseErrors readers tree)
  have hfunctions := herrors.addNodes ((pythonFunctions readers tree).items.map (·.2.node))
  apply hfunctions.mono
  intro id hid
  apply List.mem_append_left
  rw [List.map_map]
  exact hid

theorem CodeGraph.Has.addFound (h : graph.Has ids) {found : Found} (hkeyed : SymbolKeyed functions)
    (hfunctions : functionIds functions ⊆ ids) (hfact : fact.nodeId ∈ ids)
    (hfound : found.Leads functions) : (graph.addFound fact found).Has (found.target :: ids) := by
  have hnode : ((found.node.map graph.addNode).getD graph).Has (found.target :: ids) := by
    cases hown : found.node with
    | none =>
      obtain ⟨symbol, hsymbol, htarget⟩ := hfound.function hown
      apply h.mono
      rw [htarget]
      exact List.cons_subset.mpr ⟨hfunctions (hkeyed.functionId hsymbol), List.Subset.refl _⟩
    | some node =>
      rw [← hfound.own node hown]
      exact h.addNode node
  exact hnode.addEdge (List.mem_cons_of_mem _ hfact) List.mem_cons_self

theorem CodeGraph.Has.extractEvents (h : graph.Has ids) (readers : SourceReaders)
    (hkeyed : SymbolKeyed functions) (hfunctions : functionIds functions ⊆ ids) :
    (extractEvents readers functions graph).Has (targetIds readers functions ++ ids) := by
  apply foldl (functions.items.map (·.2)) _ hfunctions h
  intro fact hfact ids graph hbase hgraph
  have hown : fact.nodeId ∈ functionIds functions := by
    obtain ⟨item, hitem, rfl⟩ := List.mem_map.mp hfact
    exact List.mem_map.mpr ⟨item, hitem, rfl⟩
  rw [targetsOf, List.map_eq_flatMap]
  apply foldl _ _ hbase hgraph
  intro found hfound ids graph hbase hgraph
  exact hgraph.addFound hkeyed hbase (hbase hown) (foundIn_leads found hfound)

/-- What a flow visits, some function leads to. -/
theorem mem_expand {rounds : Nat} {stack : List String} {symbol id : String}
    (h : id ∈ expand readers functions rounds stack symbol) : id ∈ targetIds readers functions := by
  induction rounds generalizing stack symbol with
  | zero => exact absurd h List.not_mem_nil
  | succ rounds ih =>
    rw [expand] at h
    split at h
    · exact absurd h List.not_mem_nil
    · split at h
      · exact absurd h List.not_mem_nil
      · next fact hfact =>
        obtain ⟨event, hevent, hid⟩ := List.mem_flatMap.mp h
        cases List.mem_cons.mp hid with
        | inl htarget =>
          rw [htarget]
          have hitem := Dict.get?_eq_some.mp hfact
          refine List.mem_flatMap.mpr ⟨fact, List.mem_map.mpr ⟨_, hitem, rfl⟩, ?_⟩
          exact List.mem_map_of_mem ((List.mergeSort_perm _ _).mem_iff.mp hevent)
        | inr hcalled =>
          cases hcall : event.call with
          | none =>
            rw [hcall] at hcalled
            exact absurd hcalled List.not_mem_nil
          | some called =>
            rw [hcall] at hcalled
            exact ih hcalled

theorem CodeGraph.Has.addRoutes (h : graph.Has ids)
    (items : List (FunctionFact × (String × String))) (hitems : ∀ item ∈ items, item.1.nodeId ∈ ids) :
    (items.foldl CodeGraph.addRoute graph).Has (items.map (fun item => routeId item.2) ++ ids) := by
  have hbase : items.map (·.1.nodeId) ⊆ ids := by
    intro id hid
    obtain ⟨item, hitem, rfl⟩ := List.mem_map.mp hid
    exact hitems item hitem
  rw [List.map_eq_flatMap]
  apply foldl items _ hbase h
  intro item hitem ids graph hbase hgraph
  have hhandler : item.1.nodeId ∈ routeId item.2 :: ids :=
    List.mem_cons_of_mem _ (hbase (List.mem_map_of_mem hitem))
  have hadded := hgraph.addNode
    { id := routeId item.2, kind := "route", path := item.2.2, functionSymbol := item.1.symbol,
      file := item.1.file, line := item.1.line }
  exact hadded.addEdge List.mem_cons_self hhandler

/-- Edges from the nodes that a pass finds to others that are there as well. -/
theorem CodeGraph.Has.addLinks (h : graph.Has ids) {α : Type} {type : String} (nodes : List CodeNode)
    {targets : CodeNode → List α} {target : α → String} (hnodes : ∀ node ∈ nodes, node.id ∈ ids)
    (htargets : ∀ node ∈ nodes, ∀ a ∈ targets node, target a ∈ ids) :
    (nodes.foldl (fun graph node => (targets node).foldl
      (fun graph a => graph.addEdge ⟨node.id, target a, type⟩ none) graph) graph).Has ids := by
  apply List.foldlRecOn (motive := CodeGraph.Has ids) _ _ h
  intro graph hgraph node hnode
  apply List.foldlRecOn (motive := CodeGraph.Has ids) _ _ hgraph
  intro graph hgraph a ha
  exact hgraph.addEdge (hnodes node hnode) (htargets node hnode a ha)

/-- All nodes of a graph. -/
theorem CodeGraph.Has.all (h : graph.Has ids) : graph.Has (graph.nodes.keys ++ ids) := by
  refine ⟨h.keyed, h.closed, fun id hid => ?_⟩
  cases List.mem_append.mp hid with
  | inl hkey => exact hkey
  | inr hold => exact h.mem id hold

theorem CodeGraph.Has.node_mem (h : graph.Has ids) :
    ∀ node ∈ graph.nodes.items.map (·.2), node.id ∈ graph.nodes.keys := by
  intro node hnode
  obtain ⟨item, hitem, rfl⟩ := List.mem_map.mp hnode
  rw [h.keyed _ _ (Dict.get?_eq_some.mpr hitem)]
  exact List.mem_map_of_mem hitem

theorem CodeGraph.Has.indexConstraints (h : graph.Has ids) (readers : SourceReaders)
    (tree : List TreeFile) :
    (indexConstraints readers tree graph).Has ids := by
  have hadded := (h.addNodes (constraintNodes readers tree)).all
  refine (hadded.addLinks _ (fun node hnode => ?_) fun node _ constraint hconstraint => ?_).mono ?_
  · exact List.mem_append_left _ (hadded.node_mem node hnode)
  · apply List.mem_append_right
    apply List.mem_append_left
    unfold enforcing at hconstraint
    split at hconstraint
    · obtain ⟨_, _, hfiltered⟩ := List.mem_flatMap.mp hconstraint
      exact List.mem_map_of_mem (List.mem_filter.mp hfiltered).1
    · exact absurd hconstraint List.not_mem_nil
  · exact fun id hid => List.mem_append_right _ (List.mem_append_right _ hid)

theorem CodeGraph.Has.indexDocuments (h : graph.Has ids) (documents : List (CodeNode × String))
    (mentions : CodeNode → String → Bool) : (graph.indexDocuments documents mentions).Has ids := by
  have hadded := (h.addNodes (documents.map (·.1))).all
  refine (hadded.addLinks _ (fun node hnode => ?_) fun node _ document hdocument => ?_).mono ?_
  · exact List.mem_append_left _ (hadded.node_mem node hnode)
  · apply List.mem_append_right
    apply List.mem_append_left
    rw [List.map_map]
    exact List.mem_map_of_mem (List.mem_filter.mp hdocument).1
  · exact fun id hid => List.mem_append_right _ (List.mem_append_right _ hid)

theorem mem_dedupeConsecutive {id : String} {sequence : List String}
    (h : id ∈ dedupeConsecutive sequence) : id ∈ sequence := by
  induction sequence using dedupeConsecutive.induct with
  | case1 => exact h
  | case2 value => exact h
  | case3 value rest ih =>
    rw [dedupeConsecutive, if_pos rfl] at h
    exact List.mem_cons_of_mem value (ih h)
  | case4 value next rest hne ih =>
    rw [dedupeConsecutive, if_neg hne] at h
    cases List.mem_cons.mp h with
    | inl hvalue => exact hvalue ▸ List.mem_cons_self
    | inr hrest => exact List.mem_cons_of_mem value (ih hrest)

theorem mem_boundedSequence {id : String} {sequence : List String}
    (h : id ∈ boundedSequence sequence) : id ∈ sequence :=
  List.mem_of_mem_take (mem_dedupeConsecutive h)

theorem mem_routed {item : FunctionFact × (String × String)} (h : item ∈ routed functions) :
    item.1.nodeId ∈ functionIds functions ∧ item.1.route = some item.2 := by
  obtain ⟨fact, hfact, hroute⟩ := List.mem_filterMap.mp h
  obtain ⟨route, hown, rfl⟩ := Option.map_eq_some_iff.mp hroute
  obtain ⟨entry, hentry, rfl⟩ := List.mem_map.mp ((List.mergeSort_perm _ _).mem_iff.mp hfact)
  exact ⟨List.mem_map.mpr ⟨entry, hentry, rfl⟩, hown⟩

theorem mem_systemEntries (h : fact ∈ systemEntries functions graph) :
    fact.nodeId ∈ functionIds functions := by
  have hfact := (List.mergeSort_perm _ _).mem_iff.mp (List.mem_of_mem_take h)
  obtain ⟨entry, hentry, rfl⟩ := List.mem_map.mp (List.mem_filter.mp hfact).1
  exact List.mem_map.mpr ⟨entry, hentry, rfl⟩

/-- The nodes that the flows of a Python repository are over. -/
def pythonFlowIds (readers : SourceReaders) (functions : Dict String FunctionFact) : List String :=
  (routed functions).map (fun item => routeId item.2) ++
    (targetIds readers functions ++ functionIds functions)

theorem mem_pythonFlows {flow : CodeFlow} (h : flow ∈ pythonFlows readers tree) :
    ∀ id ∈ flow.nodeIds, id ∈ pythonFlowIds readers (pythonFunctions readers tree) := by
  intro id hid
  rcases List.mem_append.mp h with hroute | hsystem
  · obtain ⟨item, hitem, rfl⟩ := List.mem_map.mp hroute
    rcases List.mem_cons.mp (mem_boundedSequence hid) with hown | hrest
    · exact List.mem_append_left _ (List.mem_map.mpr ⟨item, hitem, hown.symm⟩)
    · apply List.mem_append_right
      cases List.mem_cons.mp hrest with
      | inl hfunction =>
        rw [hfunction]
        exact List.mem_append_right _ (mem_routed hitem).1
      | inr htarget => exact List.mem_append_left _ (mem_expand htarget)
  · obtain ⟨fact, hfact, rfl⟩ := List.mem_map.mp hsystem
    apply List.mem_append_right
    cases List.mem_cons.mp (mem_boundedSequence hid) with
    | inl hfunction =>
      rw [hfunction]
      exact List.mem_append_right _ (mem_systemEntries hfact)
    | inr htarget => exact List.mem_append_left _ (mem_expand htarget)

theorem closed_buildPythonCatalog (readers : SourceReaders) (tree : List TreeFile) :
    (buildPythonCatalog readers tree).Closed := by
  have hextracted := has_indexPython.extractEvents readers
    (pythonFunctions_keyed readers tree) (List.Subset.refl _)
  have hroutes := hextracted.addRoutes (routed (pythonFunctions readers tree))
    fun item hitem => List.mem_append_right _ (mem_routed hitem).1
  have hdocumented := (hroutes.indexConstraints readers tree).indexDocuments
    (documentNodes (redactSensitiveText readers.word) tree) pythonMentions
  exact hdocumented.closed_flows _ fun flow hflow => mem_pythonFlows hflow

end Python

/-! The passes over a Terraform repository. -/

section Terraform
variable {readers : SourceReaders} {tree : List TreeFile}

/-- The graph has some nodes, and the identifiers that the state refers to are theirs. -/
structure TerraformState.Has (ids : List String) (state : TerraformState) : Prop where
  graph : state.graph.Has ids
  blocks : ∀ item ∈ state.blocks.items, item.1 ∈ ids
  addresses : ∀ address id, state.addressToId.get? address = some id → id ∈ ids

variable {ids : List String} {state : TerraformState} {graph : CodeGraph}

theorem CodeGraph.Has.addCheck (h : graph.Has ids) {nodeId : String} (hnode : nodeId ∈ ids)
    (check : CodeNode) : (graph.addCheck nodeId check).Has ids := by
  have hadded := h.addNode check
  have hjoined : (graph.addCheck nodeId check).Has (check.id :: ids) :=
    hadded.addEdge (List.mem_cons_of_mem _ hnode) List.mem_cons_self
  exact hjoined.mono (List.subset_cons_self _ _)

theorem TerraformState.Has.addBlock (h : state.Has ids) (readers : SourceReaders)
    (block : TerraformBlock) : ∃ nodeId, (state.addBlock readers block).Has (nodeId :: ids) := by
  refine ⟨blockId state.graph (terraformAddress readers.sha256 block) block, ?_, ?_, ?_⟩
  · refine List.foldlRecOn (motive := CodeGraph.Has _) _ _ (h.graph.addNode (blockNode _ _ block)) ?_
    intro graph hgraph check _
    exact hgraph.addCheck List.mem_cons_self check
  · intro item hitem
    cases Dict.mem_setItems hitem with
    | inl hblock => exact List.mem_cons_of_mem _ (h.blocks item hblock)
    | inr hnew =>
      rw [hnew]
      exact List.mem_cons_self
  · intro address id hid
    rw [TerraformState.addBlock] at hid
    dsimp only at hid
    split at hid
    · exact List.mem_cons_of_mem _ (h.addresses address id hid)
    · rw [Dict.get?_set] at hid
      split at hid
      · cases hid
        exact List.mem_cons_self
      · exact List.mem_cons_of_mem _ (h.addresses address id hid)

theorem TerraformState.Has.addItem (h : state.Has ids) (readers : SourceReaders)
    (item : TerraformItem) : ∃ nodeId, (state.addItem readers item).Has (nodeId :: ids) := by
  cases item with
  | block block => exact h.addBlock readers block
  | parseError node =>
    refine ⟨node.id, h.graph.addNode node, ?_, ?_⟩
    · exact fun item hitem => List.mem_cons_of_mem _ (h.blocks item hitem)
    · exact fun address id hid => List.mem_cons_of_mem _ (h.addresses address id hid)

theorem has_indexBlocks (readers : SourceReaders) (items : List TerraformItem) :
    ∃ ids, (indexBlocks readers items).Has ids := by
  have hall : ∀ (items : List TerraformItem) (ids : List String) (state : TerraformState),
      state.Has ids → ∃ ids, (items.foldl (TerraformState.addItem readers) state).Has ids := by
    intro items
    induction items with
    | nil => exact fun ids state h => ⟨ids, h⟩
    | cons item rest ih =>
      intro ids state h
      obtain ⟨nodeId, hitem⟩ := h.addItem readers item
      exact ih _ _ hitem
  apply hall items []
  exact ⟨.empty, fun _ h => absurd h List.not_mem_nil, fun _ _ h => by cases h⟩

theorem TerraformState.Has.indexReferences (h : state.Has ids) (readers : SourceReaders) :
    (indexReferences readers state).Has ids := by
  apply List.foldlRecOn (motive := CodeGraph.Has ids) _ _ h.graph
  intro graph hgraph item hitem
  apply List.foldlRecOn (motive := CodeGraph.Has ids) _ _ hgraph
  intro graph hgraph target htarget
  obtain ⟨address, _, hget⟩ := List.mem_filterMap.mp (List.mem_filter.mp htarget).1
  exact hgraph.addEdge (h.blocks item hitem) (h.addresses address target hget)

/-- A dependency sequence stays in the graph. -/
theorem CodeGraph.Has.mem_dependencySequence (h : graph.Has ids) {nodeId id : String}
    (hnode : nodeId ∈ graph.nodes.keys) (hid : id ∈ dependencySequence graph nodeId) :
    id ∈ graph.nodes.keys := by
  obtain ⟨-, -, hwithin⟩ := visitDependencies_sound graph nodeId
  obtain ⟨p, hp, -⟩ := hwithin id (List.mem_of_mem_take hid)
  have hend : id ∈ p := by
    rcases hp.last with ⟨rfl, rfl⟩ | ⟨_, q, _, _, rfl⟩
    · exact List.mem_cons_self
    · exact List.mem_append_right _ List.mem_cons_self
  have hdepended := walk_dependedOn graph nodeId hp List.mem_cons_self hend
  cases List.mem_cons.mp hdepended with
  | inl hown => exact hown ▸ hnode
  | inr htarget =>
    obtain ⟨edge, hedge, rfl⟩ := List.mem_map.mp htarget
    exact (h.closed edge hedge).2

theorem closed_terraformCatalog (readers : SourceReaders) (tree : List TreeFile)
    (items : List TerraformItem) : (terraformCatalog readers tree items).Closed := by
  obtain ⟨ids, hstate⟩ := has_indexBlocks readers items
  have hdocumented := ((hstate.indexReferences readers).indexDocuments
    (documentNodes (redactSensitiveText readers.word) tree) terraformMentions).all
  apply hdocumented.closed_flows
  intro flow hflow id hid
  obtain ⟨node, hnode, rfl⟩ := List.mem_map.mp hflow
  have hown := (List.mergeSort_perm _ _).mem_iff.mp (List.mem_filter.mp hnode).1
  apply List.mem_append_left
  exact hdocumented.mem_dependencySequence (hdocumented.node_mem node hown) hid

end Terraform

/-! The whole catalogue. -/

/-- What the two builders have before their catalogues are merged. -/
theorem buildRepositoryCatalog_ok {readers : SourceReaders} {snapshot : RepositorySnapshot}
    {catalog : RepositoryCatalog} (h : buildRepositoryCatalog readers snapshot = .ok catalog) :
    ∃ terraform, terraformPart readers snapshot = .ok terraform ∧
      catalog = mergeCatalogs (pythonPart readers snapshot ++ terraform) := by
  obtain ⟨terraform, hterraform, h⟩ := bind_eq_ok.mp h
  refine ⟨terraform, hterraform, ?_⟩
  dsimp only at h
  split at h
  · cases h
  · exact (Except.ok.inj h).symm

/-- The catalogue of a Terraform repository is that of the items of its files. -/
theorem terraformPart_ok {readers : SourceReaders} {snapshot : RepositorySnapshot}
    {catalogs : List RepositoryCatalog} (h : terraformPart readers snapshot = .ok catalogs) :
    (snapshot.detectedLanguage = .python ∧ catalogs = []) ∨
      (snapshot.detectedLanguage ≠ .python ∧
        ∃ items, terraformItems readers snapshot.tree = .ok items ∧
          catalogs = [terraformCatalog readers snapshot.tree items]) := by
  unfold terraformPart at h
  split at h
  · next hpython =>
    cases h
    exact .inl ⟨hpython, rfl⟩
  · next hpython =>
    cases hbuild : buildTerraformCatalog readers snapshot.tree with
    | error error =>
      rw [hbuild] at h
      cases h
    | ok catalog =>
      rw [hbuild] at h
      cases h
      obtain ⟨items, hitems, hcatalog⟩ := bind_eq_ok.mp hbuild
      cases hcatalog
      exact .inr ⟨hpython, items, hitems, rfl⟩

theorem closed_terraformPart {readers : SourceReaders} {snapshot : RepositorySnapshot}
    {catalogs : List RepositoryCatalog} (h : terraformPart readers snapshot = .ok catalogs) :
    ∀ catalog ∈ catalogs, catalog.Closed := by
  intro catalog hcatalog
  rcases terraformPart_ok h with ⟨_, rfl⟩ | ⟨_, items, _, rfl⟩
  · exact absurd hcatalog List.not_mem_nil
  · rw [List.mem_singleton.mp hcatalog]
    exact closed_terraformCatalog readers _ items

theorem closed_pythonPart (readers : SourceReaders) (snapshot : RepositorySnapshot) :
    ∀ catalog ∈ pythonPart readers snapshot, catalog.Closed := by
  intro catalog hcatalog
  unfold pythonPart at hcatalog
  split at hcatalog
  · exact absurd hcatalog List.not_mem_nil
  · rw [List.mem_singleton.mp hcatalog]
    exact closed_buildPythonCatalog readers _

/-- Every catalogue that is built is closed. -/
theorem closed_buildRepositoryCatalog {readers : SourceReaders} {snapshot : RepositorySnapshot}
    {catalog : RepositoryCatalog} (h : buildRepositoryCatalog readers snapshot = .ok catalog) :
    catalog.Closed := by
  obtain ⟨terraform, hterraform, rfl⟩ := buildRepositoryCatalog_ok h
  apply closed_mergeCatalogs
  intro catalog hcatalog
  cases List.mem_append.mp hcatalog with
  | inl hpython => exact closed_pythonPart readers snapshot catalog hpython
  | inr hown => exact closed_terraformPart hterraform catalog hown

end Bantam
