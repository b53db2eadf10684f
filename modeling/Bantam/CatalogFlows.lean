import Bantam.FlowAddresses

/-! For which repositories a default flow's identifier is its own. -/
namespace Bantam

/-! What is asked of a catalogue. -/

/-- Edges and flows are over the nodes of the catalogue, and no two flows share an identifier. -/
structure RepositoryCatalog.Referential (catalog : RepositoryCatalog) : Prop where
  closed : catalog.Closed
  distinct : (catalog.defaultFlows.map (·.flowId)).Nodup

/-! The conditions. -/

def routesOf (functions : Dict String FunctionFact) : List (String × String) :=
  functions.items.filterMap (·.2.route)

/-- The text by which a route is known. -/
def routeName (route : String × String) : String := Text.lower route.1 ++ ":" ++ route.2

section
variable (readers : SourceReaders)

/-- The functions that some function calls. -/
def calledSymbols (functions : Dict String FunctionFact) : List String :=
  functions.items.flatMap fun item => (foundIn readers functions item.2).filterMap (·.call)

/-- The first functions that nothing calls or that a program starts with, but for routes and
private ones. -/
def entryFunctions (functions : Dict String FunctionFact) : List FunctionFact :=
  (sortedFunctions ((functions.items.map (·.2)).filter fun fact =>
    fact.route.isNone && !fact.name.text.startsWith "_" &&
      (fact.symbol ∉ calledSymbols readers functions ||
        pythonStem (systemEntries.lastSegment fact.file) ∈
          ["main", "__main__", "cli", "app"]))).take 200

/-- The functions that are read of a repository. -/
def snapshotFunctions (snapshot : RepositorySnapshot) : Dict String FunctionFact :=
  if snapshot.detectedLanguage = .terraform then .empty else pythonFunctions readers snapshot.tree

/-- The blocks that are read of a repository. -/
def snapshotBlocks (snapshot : RepositorySnapshot) : List TerraformBlock :=
  if snapshot.detectedLanguage = .python then []
  else extracted ((terraformItems readers snapshot.tree).toOption.getD [])

/-- No two routes share method and path, no two blocks with a flow an address, and no route is
called as an entry or a block is. -/
structure DistinctNames (functions : Dict String FunctionFact) (blocks : List TerraformBlock) :
    Prop where
  routes : ((routesOf functions).map routeName).Nodup
  addresses : ((flowBlocks blocks).map (addressOf readers)).Nodup
  entries : ∀ route ∈ routesOf functions, ∀ fact ∈ entryFunctions readers functions,
    routeName route ≠ "python:" ++ fact.symbol
  blocks : ∀ route ∈ routesOf functions, ∀ block ∈ flowBlocks blocks,
    routeName route ≠ "terraform:" ++ addressOf readers block
end

/-! The functions that a flow starts at. -/

section
variable {readers : SourceReaders} {functions : Dict String FunctionFact} {graph : CodeGraph}
  {edge : GraphEdge}

theorem edges_addNodes (nodes : List CodeNode) (graph : CodeGraph) :
    (nodes.foldl CodeGraph.addNode graph).edges = graph.edges := by
  apply @List.foldlRecOn _ _ fun after : CodeGraph => after.edges = graph.edges
  · rfl
  · exact fun after hafter node _ => hafter

theorem edges_indexPython (readers : SourceReaders) (tree : List TreeFile) :
    (indexPython readers tree).edges = .empty := by
  unfold indexPython
  rw [edges_addNodes, edges_addNodes]
  rfl

theorem mem_addFound {fact : FunctionFact} {found : Found} :
    edge ∈ (graph.addFound fact found).edges.keys ↔
      edge ∈ graph.edges.keys ∨ edge = ⟨fact.nodeId, found.target, found.edgeType⟩ := by
  have hedges : ((found.node.map graph.addNode).getD graph).edges = graph.edges := by
    cases found.node with
    | none => rfl
    | some node => rfl
  unfold CodeGraph.addFound
  rw [mem_addEdge, hedges]

theorem mem_extractEvents : edge ∈ (extractEvents readers functions graph).edges.keys ↔
    edge ∈ graph.edges.keys ∨ ∃ fact ∈ functions.items.map (·.2),
      ∃ found ∈ foundIn readers functions fact,
        edge = ⟨fact.nodeId, found.target, found.edgeType⟩ := by
  have hstep : ∀ (graph : CodeGraph) (fact : FunctionFact) (edge : GraphEdge),
      edge ∈ ((foundIn readers functions fact).foldl (CodeGraph.addFound fact) graph).edges.keys ↔
        edge ∈ graph.edges.keys ∨ ∃ found ∈ foundIn readers functions fact,
          edge = ⟨fact.nodeId, found.target, found.edgeType⟩ :=
    fun graph fact edge => mem_foldl_edges (fun (found : Found) (edge : GraphEdge) =>
      edge = ⟨fact.nodeId, found.target, found.edgeType⟩) fun _ _ _ => mem_addFound
  exact mem_foldl_edges _ hstep

theorem mem_addRoutes {items : List (FunctionFact × (String × String))} :
    edge ∈ (items.foldl CodeGraph.addRoute graph).edges.keys ↔ edge ∈ graph.edges.keys ∨
      ∃ item ∈ items, edge = ⟨routeId item.2, item.1.nodeId, "handled_by"⟩ := by
  have hstep : ∀ (graph : CodeGraph) (item : FunctionFact × (String × String)) (edge : GraphEdge),
      edge ∈ (graph.addRoute item).edges.keys ↔
        edge ∈ graph.edges.keys ∨ edge = ⟨routeId item.2, item.1.nodeId, "handled_by"⟩ :=
    fun _ _ _ => mem_addEdge
  exact mem_foldl_edges _ hstep

/-- An edge calls a function just when some function calls it. -/
theorem mem_calledSymbols (hedges : graph.edges = .empty) {symbol : String} :
    (∃ edge ∈ ((routed functions).foldl CodeGraph.addRoute
        (extractEvents readers functions graph)).edges.keys,
      edge.type = "calls" ∧ edge.target = "function:" ++ symbol) ↔
    symbol ∈ calledSymbols readers functions := by
  unfold calledSymbols
  rw [List.mem_flatMap]
  constructor
  · rintro ⟨edge, hedge, htype, htarget⟩
    rcases mem_addRoutes.mp hedge with hextracted | ⟨item, -, rfl⟩
    · rcases mem_extractEvents.mp hextracted with hold | ⟨fact, hfact, found, hfound, rfl⟩
      · rw [hedges] at hold
        exact absurd hold List.not_mem_nil
      · obtain ⟨item, hitem, rfl⟩ := List.mem_map.mp hfact
        have hcall := ((foundIn_leads found hfound).calls symbol).mpr ⟨htype, htarget⟩
        exact ⟨item, hitem, List.mem_filterMap.mpr ⟨found, hfound, hcall⟩⟩
    · have hother : "handled_by" = "calls" := htype
      exact absurd hother (by decide)
  · rintro ⟨item, hitem, hcalled⟩
    obtain ⟨found, hfound, hcall⟩ := List.mem_filterMap.mp hcalled
    obtain ⟨htype, htarget⟩ := ((foundIn_leads found hfound).calls symbol).mp hcall
    refine ⟨⟨item.2.nodeId, found.target, found.edgeType⟩, ?_, htype, htarget⟩
    exact mem_addRoutes.mpr (.inl (mem_extractEvents.mpr
      (.inr ⟨item.2, List.mem_map_of_mem hitem, found, hfound, rfl⟩)))

theorem systemEntries_eq (hedges : graph.edges = .empty) :
    systemEntries functions ((routed functions).foldl CodeGraph.addRoute
      (extractEvents readers functions graph)) = entryFunctions readers functions := by
  have hcalled : ∀ fact : FunctionFact, fact.nodeId ∈
      (((routed functions).foldl CodeGraph.addRoute
        (extractEvents readers functions graph)).edges.keys.filterMap fun edge =>
          if edge.type = "calls" ∧ edge.target.startsWith "function:" then some edge.target
          else none) ↔ fact.symbol ∈ calledSymbols readers functions := by
    intro fact
    rw [← mem_calledSymbols hedges, List.mem_filterMap]
    refine exists_congr fun edge => and_congr_right fun _ => ?_
    rw [Option.ite_none_right_eq_some, Option.some_inj]
    constructor
    · rintro ⟨⟨htype, -⟩, htarget⟩
      exact ⟨htype, htarget⟩
    · rintro ⟨htype, htarget⟩
      refine ⟨⟨htype, ?_⟩, htarget⟩
      rw [htarget, String.startsWith_string_iff, String.toList_append]
      exact List.prefix_append _ _
  unfold systemEntries entryFunctions
  simp only [hcalled]

/-! The identifiers of the flows. -/

variable (readers) in
/-- What the flows of a Python repository are called. -/
def pythonNames (functions : Dict String FunctionFact) : List String :=
  (routesOf functions).map routeName ++
    (entryFunctions readers functions).map fun fact => "python:" ++ fact.symbol

variable (readers) in
/-- What the flows of a Terraform repository are called. -/
def terraformNames (blocks : List TerraformBlock) : List String :=
  (keptFlows readers blocks).map fun item => "terraform:" ++ addressOf readers item.2

theorem routed_perm (functions : Dict String FunctionFact) :
    ((routed functions).map (·.2)).Perm (routesOf functions) := by
  have hsorted := (List.mergeSort_perm (functions.items.map (·.2))
    fun a b => decide (a.symbol ≤ b.symbol)).filterMap fun fact => fact.route
  rw [List.filterMap_map] at hsorted
  have hroute : ∀ fact : FunctionFact,
      (fact.route.map fun route => (fact, route)).map (·.2) = fact.route := by
    intro fact
    cases fact.route with
    | none => rfl
    | some route => rfl
  unfold routed
  rw [List.map_filterMap]
  simp only [hroute]
  exact hsorted

theorem nodup_entries (hkeyed : SymbolKeyed functions) :
    ((entryFunctions readers functions).map (·.symbol)).Nodup := by
  have hsymbols : (functions.items.map fun item => item.2.symbol).Nodup := by
    have hkeys : functions.items.map (fun item => item.2.symbol) = functions.items.map Prod.fst :=
      List.map_congr_left fun item hitem => (hkeyed item hitem).symm
    rw [hkeys]
    exact functions.distinct
  unfold entryFunctions sortedFunctions
  apply ((List.take_sublist _ _).map _).nodup
  rw [((List.mergeSort_perm _ _).map _).nodup_iff]
  apply (List.filter_sublist.map _).nodup
  rw [List.map_map]
  exact hsymbols

theorem python_ne_terraform (symbol address : String) :
    "python:" ++ symbol ≠ "terraform:" ++ address := by
  intro h
  have hhead := congrArg (fun s : String => s.toList.head?) h
  simp [String.toList_append] at hhead

theorem nodup_names (hkeyed : SymbolKeyed functions) {blocks : List TerraformBlock}
    (htypes : ∀ block ∈ blocks, ':' ∉ block.blockType.toList) :
    (pythonNames readers functions ++ terraformNames readers blocks).Nodup ↔
      DistinctNames readers functions blocks := by
  have hentries : ((entryFunctions readers functions).map
      fun fact => "python:" ++ fact.symbol).Nodup := by
    have hmapped := (@nodup_entries readers _ hkeyed).map
      fun a b => (String.append_right_inj "python:").mp
    rw [List.map_map] at hmapped
    exact hmapped
  have hkept : (terraformNames readers blocks).Nodup ↔ KeptApart readers blocks := by
    have hprefix : (fun item : String × TerraformBlock =>
        "terraform:" ++ addressOf readers item.2) =
        ("terraform:" ++ ·) ∘ fun item => addressOf readers item.2 := rfl
    rw [terraformNames, hprefix, ← List.map_map, List.nodup_map_iff fun a b =>
      (String.append_right_inj "terraform:").mp, nodup_keptFlows_addresses]
  rw [pythonNames, List.append_assoc, List.nodup_append, List.nodup_append, hkept]
  constructor
  · rintro ⟨hroutes, ⟨-, happart, -⟩, hapart⟩
    refine ⟨hroutes, (keptApart_iff htypes).mp happart, fun route hroute fact hfact => ?_,
      fun route hroute block hblock => ?_⟩
    · exact hapart _ (List.mem_map_of_mem hroute) _
        (List.mem_append_left _ (List.mem_map_of_mem hfact))
    · obtain ⟨item, hitem, rfl⟩ := (happart.mem_keptFlows htypes).mpr hblock
      exact hapart _ (List.mem_map_of_mem hroute) _
        (List.mem_append_right _ (List.mem_map_of_mem hitem))
  · rintro ⟨hroutes, haddresses, hentry, hblock⟩
    have happart := (keptApart_iff htypes).mpr haddresses
    refine ⟨hroutes, ⟨hentries, happart, fun name hname other hother => ?_⟩,
      fun name hname other hother => ?_⟩
    · obtain ⟨fact, -, rfl⟩ := List.mem_map.mp hname
      obtain ⟨item, -, rfl⟩ := List.mem_map.mp hother
      exact python_ne_terraform _ _
    · obtain ⟨route, hroute, rfl⟩ := List.mem_map.mp hname
      cases List.mem_append.mp hother with
      | inl hpython =>
        obtain ⟨fact, hfact, rfl⟩ := List.mem_map.mp hpython
        exact hentry route hroute fact hfact
      | inr hterraform =>
        obtain ⟨item, hitem, rfl⟩ := List.mem_map.mp hterraform
        exact hblock route hroute item.2 ((happart.mem_keptFlows htypes).mp ⟨item, hitem, rfl⟩)

theorem mergeCatalogs_flows (catalogs : List RepositoryCatalog) :
    (mergeCatalogs catalogs).defaultFlows.Perm (catalogs.flatMap (·.defaultFlows)) :=
  List.mergeSort_perm _ _

variable (readers) in
theorem routeFlow_id (item : FunctionFact × (String × String)) :
    (routeFlow readers functions item).flowId = "default:" ++ routeName item.2 := by
  simp only [routeFlow, routeName, String.append_assoc]

variable (readers) in
theorem systemFlow_id (fact : FunctionFact) :
    (systemFlow readers functions fact).flowId = "default:" ++ ("python:" ++ fact.symbol) := by
  rw [← String.append_assoc]
  rfl

theorem pythonFlows_ids (readers : SourceReaders) (tree : List TreeFile) :
    ((pythonFlows readers tree).map (·.flowId)).Perm
      ((pythonNames readers (pythonFunctions readers tree)).map ("default:" ++ ·)) := by
  have hroutes : ((routed (pythonFunctions readers tree)).map
      (routeFlow readers (pythonFunctions readers tree))).map (·.flowId) =
        (((routed (pythonFunctions readers tree)).map (·.2)).map routeName).map
          ("default:" ++ ·) := by
    rw [List.map_map, List.map_map, List.map_map]
    exact List.map_congr_left fun item _ => routeFlow_id readers item
  have hentries : ((entryFunctions readers (pythonFunctions readers tree)).map
      (systemFlow readers (pythonFunctions readers tree))).map (·.flowId) =
        ((entryFunctions readers (pythonFunctions readers tree)).map
          fun fact => "python:" ++ fact.symbol).map ("default:" ++ ·) := by
    rw [List.map_map, List.map_map]
    exact List.map_congr_left fun fact _ => systemFlow_id readers fact
  unfold pythonFlows pythonNames
  dsimp only
  rw [systemEntries_eq (edges_indexPython readers tree), List.map_append, List.map_append,
    hroutes, hentries]
  exact (((routed_perm _).map _).map _).append_right _

theorem terraformCatalog_ids {tree : List TreeFile} {items : List TerraformItem}
    (hitems : terraformItems readers tree = .ok items) :
    ((terraformCatalog readers tree items).defaultFlows.map (·.flowId)).Perm
      ((terraformNames readers (extracted items)).map ("default:" ++ ·)) := by
  have hflows := (blockNodes_documented hitems (redactSensitiveText readers.word)
    terraformMentions).flowIds
  have hsorted := (List.mergeSort_perm (terraformFlows ((indexReferences readers
    (indexBlocks readers items)).indexDocuments (documentNodes (redactSensitiveText readers.word)
      tree) terraformMentions)) fun a b => decide (a.flowId ≤ b.flowId)).map (·.flowId)
  have hnames : (terraformNames readers (extracted items)).map ("default:" ++ ·) =
      (keptFlows readers (extracted items)).map fun item =>
        "default:terraform:" ++ addressOf readers item.2 := by
    unfold terraformNames
    rw [List.map_map]
    refine List.map_congr_left fun item _ => ?_
    show "default:" ++ ("terraform:" ++ addressOf readers item.2) = _
    rw [← String.append_assoc]
    rfl
  rw [hnames]
  exact hsorted.trans hflows

end

/-! Repositories. -/

section
variable {readers : SourceReaders} {snapshot : RepositorySnapshot}

theorem pythonPart_ids (readers : SourceReaders) (snapshot : RepositorySnapshot) :
    (((pythonPart readers snapshot).flatMap (·.defaultFlows)).map (·.flowId)).Perm
      ((pythonNames readers (snapshotFunctions readers snapshot)).map ("default:" ++ ·)) := by
  have hnone : pythonNames readers .empty = [] := by
    simp [pythonNames, routesOf, entryFunctions, sortedFunctions, Dict.empty]
  unfold pythonPart snapshotFunctions
  split
  · rw [hnone]
    exact .nil
  · rw [List.flatMap_singleton]
    have hsorted := (List.mergeSort_perm (pythonFlows readers snapshot.tree)
      fun a b => decide (a.flowId ≤ b.flowId)).map (·.flowId)
    exact hsorted.trans (pythonFlows_ids readers snapshot.tree)

theorem terraformPart_ids {catalogs : List RepositoryCatalog}
    (h : terraformPart readers snapshot = .ok catalogs) :
    ((catalogs.flatMap (·.defaultFlows)).map (·.flowId)).Perm
      ((terraformNames readers (snapshotBlocks readers snapshot)).map ("default:" ++ ·)) := by
  unfold snapshotBlocks
  rcases terraformPart_ok h with ⟨hpython, rfl⟩ | ⟨hterraform, items, hitems, rfl⟩
  · rw [if_pos hpython]
    exact .nil
  · rw [if_neg hterraform, hitems, List.flatMap_singleton]
    exact terraformCatalog_ids hitems

theorem snapshotFunctions_keyed (readers : SourceReaders) (snapshot : RepositorySnapshot) :
    SymbolKeyed (snapshotFunctions readers snapshot) := by
  unfold snapshotFunctions
  split
  · exact fun item hitem => absurd hitem List.not_mem_nil
  · exact pythonFunctions_keyed readers snapshot.tree

theorem snapshotBlocks_type : ∀ block ∈ snapshotBlocks readers snapshot,
    ':' ∉ block.blockType.toList := by
  intro block hblock
  unfold snapshotBlocks at hblock
  split at hblock
  · exact absurd hblock List.not_mem_nil
  · cases hitems : terraformItems readers snapshot.tree with
    | error failure =>
      rw [hitems] at hblock
      exact absurd hblock List.not_mem_nil
    | ok items =>
      rw [hitems] at hblock
      exact extracted_type hitems hblock

/-- A catalogue's flows have the names of its routes, its entries and its blocks. -/
theorem catalog_ids {catalog : RepositoryCatalog}
    (h : buildRepositoryCatalog readers snapshot = .ok catalog) :
    (catalog.defaultFlows.map (·.flowId)).Perm
      ((pythonNames readers (snapshotFunctions readers snapshot) ++
        terraformNames readers (snapshotBlocks readers snapshot)).map ("default:" ++ ·)) := by
  obtain ⟨terraform, hterraform, rfl⟩ := buildRepositoryCatalog_ok h
  have hflows := (mergeCatalogs_flows (pythonPart readers snapshot ++ terraform)).map (·.flowId)
  rw [List.flatMap_append, List.map_append] at hflows
  rw [List.map_append]
  exact hflows.trans ((pythonPart_ids readers snapshot).append (terraformPart_ids hterraform))

/-- The flows have identifiers of their own exactly when their names differ. -/
theorem catalog_distinct_iff {catalog : RepositoryCatalog}
    (h : buildRepositoryCatalog readers snapshot = .ok catalog) :
    (catalog.defaultFlows.map (·.flowId)).Nodup ↔
      DistinctNames readers (snapshotFunctions readers snapshot)
        (snapshotBlocks readers snapshot) := by
  rw [(catalog_ids h).nodup_iff, List.nodup_map_iff fun a b =>
    (String.append_right_inj "default:").mp]
  exact nodup_names (snapshotFunctions_keyed readers snapshot) snapshotBlocks_type

theorem exists_catalog {terraform : List RepositoryCatalog}
    (hterraform : terraformPart readers snapshot = .ok terraform)
    (hsize : ∀ catalog, readers.serialisedSize catalog ≤ maxGraphBytes) :
    ∃ catalog, buildRepositoryCatalog readers snapshot = .ok catalog := by
  refine ⟨mergeCatalogs (pythonPart readers snapshot ++ terraform), ?_⟩
  unfold buildRepositoryCatalog
  rw [hterraform]
  show (if maxGraphBytes < readers.serialisedSize _ then _ else _) = _
  rw [if_neg (Nat.not_lt.mpr (hsize _))]
  rfl

theorem exists_catalog_of_items {items : List TerraformItem}
    (hlanguage : snapshot.detectedLanguage ≠ .python)
    (hitems : terraformItems readers snapshot.tree = .ok items)
    (hsize : ∀ catalog, readers.serialisedSize catalog ≤ maxGraphBytes) :
    ∃ catalog, buildRepositoryCatalog readers snapshot = .ok catalog := by
  have hterraform : terraformPart readers snapshot =
      .ok [terraformCatalog readers snapshot.tree items] := by
    unfold terraformPart buildTerraformCatalog
    rw [if_neg hlanguage, hitems]
    rfl
  exact exists_catalog hterraform hsize

end

/-! A route beside an output, and one output in two directories. -/

def rootHandler : PyStmt :=
  .function ⟨"index", by decide, by decide⟩ 3 []
    [.call 2 1 (.attribute (.name "router") "get") [.text "/"] []] []

/-- Readers that find the handler in every Python text. -/
def handlerReaders : SourceReaders := { plainReaders with parse := fun _ _ => .ok [rootHandler] }

def routeAndOutput : RepositorySnapshot where
  files := [⟨"app.py", "@router.get(\"/\")\ndef index(): pass\n"⟩,
    ⟨"main.tf", "output \"o\" \x7b\x7d\n"⟩]
  detectedLanguage := .mixed

def outputTwice : RepositorySnapshot where
  files := [⟨"a/main.tf", "output \"o\" \x7b\x7d\n"⟩, ⟨"b/main.tf", "output \"o\" \x7b\x7d\n"⟩]
  detectedLanguage := .terraform

theorem routeAndOutput_names : DistinctNames handlerReaders
    (snapshotFunctions handlerReaders routeAndOutput)
    (snapshotBlocks handlerReaders routeAndOutput) := by
  constructor
  · decide +kernel
  · decide +kernel
  · decide +kernel
  · decide +kernel

theorem outputTwice_blocks :
    (terraformItems handlerReaders outputTwice.tree).toOption.map extracted =
      some (["a/main.tf", "b/main.tf"].map fun file =>
        ⟨"output", ["o"], file, 1, "", "output \"o\""⟩) := by
  have htexts : unexcluded ".tf" outputTwice.tree = outputTwice.tree := by
    have hending : outputTwice.tree.filter
        (fun file => (file.1.getLast?.getD "").endsWith ".tf") = outputTwice.tree := by
      decide +kernel
    have hsorted : filesEnding ".tf" outputTwice.tree = outputTwice.tree := by
      unfold filesEnding
      rw [hending]
      exact List.mergeSort_of_pairwise (by decide +kernel)
    unfold unexcluded
    rw [hsorted]
    decide +kernel
  have hdocuments : unexcluded ".tf.json" outputTwice.tree = [] := by decide +kernel
  unfold terraformItems
  rw [htexts, hdocuments]
  decide +kernel

theorem exists_routeAndOutput : ∃ catalog,
    buildRepositoryCatalog handlerReaders routeAndOutput = .ok catalog := by
  have hblocks : (terraformItems handlerReaders routeAndOutput.tree).toOption.map extracted =
      some [⟨"output", ["o"], "main.tf", 1, "", "output \"o\""⟩] := by
    decide +kernel
  obtain ⟨items, hitems, -⟩ := extracted_of_toOption hblocks
  exact exists_catalog_of_items (by decide) hitems fun _ => Nat.zero_le maxGraphBytes

end Bantam
