import Bantam.PythonCatalog

/-! The symbols of a Python catalogue: when the definitions of a repository keep symbols of their
own, so that none takes the place of another. -/
namespace Bantam

/-! Where a definition stands. -/

inductive PyScope where
  | classDef (name : String)
  | function (name : String)
deriving DecidableEq, Repr

def PyScope.name : PyScope → String
  | .classDef name => name
  | .function name => name

def PyScope.className : PyScope → Option String
  | .classDef name => some name
  | .function _ => none

/-- The definition of a function, by the scopes around it from the outside in. -/
structure DefinitionPlace where
  scopes : List PyScope
  name : String
  route : Bool
deriving DecidableEq, Repr

mutual
/-- The definitions in a statement that no other kind of statement encloses. -/
def placesIn (scopes : List PyScope) : PyStmt → List DefinitionPlace
  | .classDef name body => placesOf (scopes ++ [.classDef name.text]) body
  | .function name _ _ decorators body =>
    ⟨scopes, name.text, (routeDecorator decorators).isSome⟩ ::
      placesOf (scopes ++ [.function name.text]) body
  | .importNames _ | .importFrom _ _ | .check _ _ _ _ _ _ | .scope _ _ _ _ | .other _ _ => []

def placesOf (scopes : List PyScope) : List PyStmt → List DefinitionPlace
  | [] => []
  | statement :: rest => placesIn scopes statement ++ placesOf scopes rest
end

/-- The innermost class around a place. -/
def innermostClass (scopes : List PyScope) : Option String :=
  (scopes.filterMap PyScope.className).getLast?

/-- What stands between the module and the name: the innermost class alone; without a class the
functions around the definition, unless it is a route. -/
def DefinitionPlace.owner (place : DefinitionPlace) : List String :=
  match innermostClass place.scopes with
  | some className => [className]
  | none => if place.route then [] else place.scopes.map PyScope.name

/-- The parts of a module's name. -/
def moduleParts (parts : List String) : List String :=
  let stems := parts.dropLast ++ [pythonStem (parts.getLast?.getD "")]
  let named := if stems.getLast? = some "__init__" then stems.dropLast else stems
  (if named = [] then ["root"] else named).map modulePart

theorem moduleName_eq (parts : List String) : moduleName parts = ".".intercalate (moduleParts parts) :=
  rfl

theorem moduleParts_ne_nil (parts : List String) : moduleParts parts ≠ [] := by
  have hroot : ∀ named : List String, (if named = [] then ["root"] else named) ≠ [] := by
    intro named
    split
    · exact List.cons_ne_nil _ _
    · next h => exact h
  rw [moduleParts, Ne, List.map_eq_nil_iff]
  exact hroot _

/-- No part of a module's name has a dot. -/
theorem undotted_moduleParts {parts : List String} {part : String} (h : part ∈ moduleParts parts) :
    '.' ∉ part.toList := by
  obtain ⟨source, _, rfl⟩ := List.mem_map.mp h
  have hbytes : '.' ∉ source.toList.map fun c => if isWordByte c then c else '_' := by
    intro hdot
    obtain ⟨c, _, hc⟩ := List.mem_map.mp hdot
    split at hc
    · next hword =>
      rw [hc] at hword
      exact absurd hword (by decide)
    · cases hc
  rw [modulePart, String.toList_ofList]
  split
  · simpa using hbytes
  · exact hbytes

/-! The symbol of a definition by its place. -/

theorem functionSymbol_eq {parts : List String} (hparts : parts ≠ []) (place : DefinitionPlace)
    {className : Option String} {parents : List String} {route : Option (String × String)}
    (hclass : className = innermostClass place.scopes)
    (hparents : className = none → parents = place.scopes.map PyScope.name)
    (hroute : route.isSome = place.route) :
    functionSymbol (".".intercalate parts) className parents route place.name =
      ".".intercalate (parts ++ place.owner ++ [place.name]) := by
  unfold functionSymbol DefinitionPlace.owner
  rw [← hclass, ← hroute]
  cases className with
  | some className =>
    dsimp only
    rw [List.append_assoc, String.intercalate_append_of_ne_nil hparts (by simp)]
    simp [String.intercalate_cons_cons, String.intercalate_singleton, String.append_assoc]
  | none =>
    have hsame := hparents rfl
    subst hsame
    dsimp only
    by_cases hshort : route.isSome = true ∨ place.scopes.map PyScope.name = []
    · have hnone : (if route.isSome = true then [] else place.scopes.map PyScope.name) = [] := by
        cases hshort with
        | inl h => rw [if_pos h]
        | inr h => rw [h, ite_self]
      rw [if_pos hshort, hnone, List.append_nil,
        String.intercalate_append_of_ne_nil hparts (List.cons_ne_nil _ _),
        String.intercalate_singleton]
    · obtain ⟨hr, hs⟩ := not_or.mp hshort
      rw [if_neg hshort, if_neg hr, List.append_assoc,
        String.intercalate_append_of_ne_nil hparts (by simp),
        String.intercalate_append_of_ne_nil hs (List.cons_ne_nil _ _),
        String.intercalate_singleton]
      simp only [String.append_assoc]

theorem innermostClass_class (scopes : List PyScope) (name : String) :
    innermostClass (scopes ++ [.classDef name]) = some name := by
  simp [innermostClass, List.filterMap_append, PyScope.className]

theorem innermostClass_function (scopes : List PyScope) (name : String) :
    innermostClass (scopes ++ [.function name]) = innermostClass scopes := by
  simp [innermostClass, List.filterMap_append, PyScope.className]

mutual
theorem symbols_collectDefinition {module : PyModule} {parts : List String}
    (hname : module.name = ".".intercalate parts) (hparts : parts ≠ [])
    (imports : Dict String String) : ∀ (statement : PyStmt) (scopes : List PyScope)
    (parents : List String), (innermostClass scopes = none → parents = scopes.map PyScope.name) →
    (collectDefinition module imports (innermostClass scopes) parents statement).map (·.symbol) =
      (placesIn scopes statement).map fun place =>
        ".".intercalate (parts ++ place.owner ++ [place.name])
  | .classDef name body, scopes, parents, _ => by
    have hbody := symbols_collectDefinitions hname hparts imports body
      (scopes ++ [.classDef name.text]) [] (by simp [innermostClass_class])
    rw [innermostClass_class] at hbody
    rw [collectDefinition, placesIn]
    exact hbody
  | .function name line annotations decorators body, scopes, parents, hparents => by
    have hbody := symbols_collectDefinitions hname hparts imports body
      (scopes ++ [.function name.text]) (parents ++ [name.text]) (by
        intro hnone
        rw [innermostClass_function] at hnone
        rw [hparents hnone, List.map_append]
        rfl)
    rw [innermostClass_function] at hbody
    rw [collectDefinition, placesIn, List.map_cons, List.map_cons, hbody, hname]
    congr 1
    exact functionSymbol_eq hparts ⟨scopes, name.text, (routeDecorator decorators).isSome⟩ rfl
      hparents rfl
  | .importNames _, _, _, _ => rfl
  | .importFrom _ _, _, _, _ => rfl
  | .check _ _ _ _ _ _, _, _, _ => rfl
  | .scope _ _ _ _, _, _, _ => rfl
  | .other _ _, _, _, _ => rfl

theorem symbols_collectDefinitions {module : PyModule} {parts : List String}
    (hname : module.name = ".".intercalate parts) (hparts : parts ≠ [])
    (imports : Dict String String) : ∀ (body : List PyStmt) (scopes : List PyScope)
    (parents : List String), (innermostClass scopes = none → parents = scopes.map PyScope.name) →
    (collectDefinitions module imports (innermostClass scopes) parents body).map (·.symbol) =
      (placesOf scopes body).map fun place =>
        ".".intercalate (parts ++ place.owner ++ [place.name])
  | [], _, _, _ => rfl
  | statement :: rest, scopes, parents, hparents => by
    rw [collectDefinitions, placesOf, List.map_append, List.map_append,
      symbols_collectDefinition hname hparts imports statement scopes parents hparents,
      symbols_collectDefinitions hname hparts imports rest scopes parents hparents]
end

/-! Names without dots. -/

/-- Names joined by dots are told apart where none has a dot of its own. -/
theorem dotted_inj {l m : List String} (hl : l ≠ []) (hm : m ≠ [])
    (hplain : ∀ part ∈ l, '.' ∉ part.toList) (hplain' : ∀ part ∈ m, '.' ∉ part.toList)
    (h : ".".intercalate l = ".".intercalate m) : l = m := by
  have hsplit : ∀ names : List String, names ≠ [] → (∀ part ∈ names, '.' ∉ part.toList) →
      (".".intercalate names).toList.splitOn '.' = names.map String.toList := by
    intro names hnames hparts
    rw [String.toList_intercalate]
    apply List.splitOn_intercalate
    · intro part hpart
      obtain ⟨name, hname, rfl⟩ := List.mem_map.mp hpart
      exact hparts name hname
    · simpa using hnames
  have htexts : l.map String.toList = m.map String.toList := by
    rw [← hsplit l hl hplain, ← hsplit m hm hplain', h]
  exact (List.map_injective_iff.mpr fun _ _ => String.toList_injective) htexts

section
variable (readers : SourceReaders) (tree : List TreeFile)

/-- The names that a place is made of. -/
def DefinitionPlace.names (place : DefinitionPlace) : List String :=
  place.scopes.map PyScope.name ++ [place.name]

/-- The parser takes no dot into a name. -/
def SourceReaders.Undotted : Prop :=
  ∀ file text body, readers.parse file text = .ok body →
    ∀ place ∈ placesOf [] body, ∀ name ∈ place.names, '.' ∉ name.toList

/-- The parts of a file's definitions: those of its module, the owner and the name. -/
def filePaths (file : TreeFile) : List (List String) :=
  match readers.parse (posixPath file.1) file.2 with
  | .ok body => (placesOf [] body).map fun place =>
      moduleParts file.1 ++ place.owner ++ [place.name]
  | .error _ => []

/-- The parts of all definitions of a repository, in the order in which they are found. -/
def definitionPaths : List (List String) := (pythonPaths tree).flatMap (filePaths readers)

/-- The functions and methods that `_collect_definitions` reaches in a repository. -/
def pythonDefinitions : List FunctionFact := (pythonModules readers tree).flatMap (·.definitions)

end

section
variable {readers : SourceReaders} {tree : List TreeFile}

theorem owner_subset {place : DefinitionPlace} {name : String} (h : name ∈ place.owner) :
    name ∈ place.names := by
  unfold DefinitionPlace.owner at h
  apply List.mem_append_left
  split at h
  · next className hclass =>
    obtain rfl := List.mem_singleton.mp h
    obtain ⟨scope, hscope, hname⟩ := List.mem_filterMap.mp (List.mem_of_getLast? hclass)
    cases scope with
    | classDef name =>
      cases Option.some.inj hname
      exact List.mem_map_of_mem (f := PyScope.name) hscope
    | function name => cases hname
  · split at h
    · exact absurd h List.not_mem_nil
    · exact h

/-- The symbols of a repository are the parts of its definitions with dots between them. -/
theorem symbols_pythonDefinitions (readers : SourceReaders) (tree : List TreeFile) :
    (pythonDefinitions readers tree).map (·.symbol) =
      (definitionPaths readers tree).map fun parts => ".".intercalate parts := by
  rw [pythonDefinitions, definitionPaths, pythonModules]
  induction pythonPaths tree with
  | nil => rfl
  | cons file rest ih =>
    rw [List.flatMap_cons, List.map_append, ← ih, filePaths]
    cases hparse : readers.parse (posixPath file.1) file.2 with
    | error line => rw [List.filterMap_cons_none (by rw [hparse])]; rfl
    | ok body =>
      rw [List.filterMap_cons_some (by rw [hparse]), List.flatMap_cons, List.map_append,
        PyModule.definitions]
      have hmodule : (⟨moduleName file.1, posixPath file.1, body⟩ : PyModule).name =
          ".".intercalate (moduleParts file.1) := moduleName_eq file.1
      have hsymbols := symbols_collectDefinitions hmodule (moduleParts_ne_nil file.1)
        (pythonImports body) body [] [] (fun _ => rfl)
      rw [List.map_map]
      exact congrArg (· ++ _) hsymbols

theorem mem_definitionPaths (hnames : readers.Undotted) {path : List String}
    (h : path ∈ definitionPaths readers tree) :
    path ≠ [] ∧ ∀ part ∈ path, '.' ∉ part.toList := by
  obtain ⟨file, _, hfile⟩ := List.mem_flatMap.mp h
  unfold filePaths at hfile
  split at hfile
  · next body hparse =>
    obtain ⟨place, hplace, rfl⟩ := List.mem_map.mp hfile
    have hplain := hnames _ _ body hparse place hplace
    refine ⟨by simp, fun part hpart => ?_⟩
    cases List.mem_append.mp hpart with
    | inl hqualified =>
      cases List.mem_append.mp hqualified with
      | inl hmodule => exact undotted_moduleParts hmodule
      | inr howner => exact hplain part (owner_subset howner)
    | inr hname =>
      apply hplain part
      exact List.mem_append_right _ hname
  · exact absurd hfile List.not_mem_nil

/-- The symbols are distinct when the parts are, and only then. -/
theorem nodup_symbols (hnames : readers.Undotted) :
    ((pythonDefinitions readers tree).map (·.symbol)).Nodup ↔
      (definitionPaths readers tree).Nodup := by
  rw [symbols_pythonDefinitions]
  constructor
  · exact List.Nodup.of_map _
  · intro h
    apply h.map_on
    intro l hl m hm heq
    obtain ⟨hne, hplain⟩ := mem_definitionPaths hnames hl
    obtain ⟨hne', hplain'⟩ := mem_definitionPaths hnames hm
    exact dotted_inj hne hne' hplain hplain' heq

/-! The function nodes of a catalogue. -/

def CodeNode.isFunction (node : CodeNode) : Bool := node.kind == "function"

/-- So many nodes of a graph are functions, and these have identifiers of their own kind. -/
structure CountsFunctions (n : Nat) (graph : CodeGraph) : Prop where
  count : graph.nodes.items.countP (fun item => item.2.isFunction) = n
  label : ∀ item ∈ graph.nodes.items, item.2.isFunction = true → item.1.toList.head? = some 'f'

/-- A node that is no function and is not labelled as one. -/
structure CodeNode.Other (node : CodeNode) : Prop where
  kind : node.isFunction = false
  label : node.id.toList.head? ≠ some 'f'

variable {n : Nat} {graph : CodeGraph} {node : CodeNode}

theorem CountsFunctions.addNode (h : CountsFunctions n graph) (hnode : node.Other) :
    CountsFunctions n (graph.addNode node) := by
  refine ⟨?_, ?_⟩
  · rw [CodeGraph.addNode, Dict.set]
    dsimp only
    rw [Dict.setItems]
    split
    · rw [List.countP_map, ← h.count]
      refine List.countP_congr fun item hitem => ?_
      by_cases hkey : item.1 = node.id
      · have hold : item.2.isFunction = false := by
          rw [← Bool.not_eq_true]
          exact fun hfunction => hnode.label (hkey ▸ h.label item hitem hfunction)
        simp [hkey, hold, hnode.kind]
      · simp [hkey]
    · rw [List.countP_append, h.count, List.countP_singleton, hnode.kind]
      rfl
  · intro item hitem hfunction
    cases Dict.mem_setItems hitem with
    | inl hold => exact h.label item hold hfunction
    | inr heq =>
      rw [heq] at hfunction
      exact absurd hfunction (by simp [hnode.kind])

theorem CountsFunctions.addEdge (h : CountsFunctions n graph) (edge : GraphEdge) (flowId : Option String) :
    CountsFunctions n (graph.addEdge edge flowId) := ⟨h.count, h.label⟩

theorem other_of_label {label : String} (rest : String) (hkind : node.isFunction = false)
    (hid : node.id = label ++ rest) (c : Char) (hlabel : label.toList.head? = some c)
    (hc : c ≠ 'f') : node.Other := by
  refine ⟨hkind, ?_⟩
  rw [hid, String.toList_append, List.head?_append, hlabel]
  simpa using hc

/-- What is found in a function is no function. -/
def Found.Other (found : Found) : Prop := ∀ node, found.node = some node → node.Other

theorem foundChecks_other (fact : FunctionFact) (checks : List PyCheck) (seen : List String) :
    ∀ found ∈ foundChecks readers fact seen checks, found.Other := by
  induction checks generalizing seen with
  | nil => exact List.forall_mem_nil _
  | cons check rest ih =>
    rw [foundChecks]
    refine List.forall_mem_cons.mpr ⟨fun node hnode => ?_, ih _⟩
    cases hnode
    exact other_of_label _ rfl (by simp only [String.append_assoc]; rfl) 'c' (by decide) (by decide)

theorem statementKind_other (operation statement : String) :
    (statementKind operation statement == "function") = false := by
  unfold statementKind
  split
  · rfl
  · split
    · rfl
    · rfl

theorem foundCalls_other (functions : Dict String FunctionFact) (fact : FunctionFact)
    (calls : List PyCall) (seen : List String) :
    ∀ found ∈ foundCalls readers functions fact seen calls, found.Other := by
  induction calls generalizing seen with
  | nil => exact List.forall_mem_nil _
  | cons call rest ih =>
    rw [foundCalls]
    split
    · refine List.forall_mem_cons.mpr ⟨fun node hnode => ?_, ih _⟩
      cases hnode
      exact other_of_label _ (statementKind_other _ _)
        (by simp only [String.append_assoc]; rfl) 's' (by decide) (by decide)
    · split
      · split
        · exact ih _
        · exact List.forall_mem_cons.mpr ⟨fun node hnode => (by cases hnode), ih _⟩
      · exact ih _

theorem foundIn_other (functions : Dict String FunctionFact) (fact : FunctionFact) :
    ∀ found ∈ foundIn readers functions fact, found.Other := by
  intro found hfound
  cases List.mem_append.mp hfound with
  | inl hearlier =>
    cases List.mem_append.mp hearlier with
    | inl hcheck => exact foundChecks_other fact _ _ found hcheck
    | inr htransaction =>
      obtain ⟨place, _, rfl⟩ := List.mem_map.mp htransaction
      intro node hnode
      cases hnode
      exact other_of_label _ rfl (by simp only [String.append_assoc]; rfl) 't' (by decide)
        (by decide)
  | inr hcall => exact foundCalls_other functions fact _ _ found hcall

theorem CountsFunctions.extractEvents (h : CountsFunctions n graph) (functions : Dict String FunctionFact) :
    CountsFunctions n (extractEvents readers functions graph) := by
  refine List.foldlRecOn (motive := CountsFunctions n) _ _ h fun graph hgraph fact _ => ?_
  refine List.foldlRecOn (motive := CountsFunctions n) _ _ hgraph fun graph hgraph found hfound => ?_
  have hother := foundIn_other functions fact found hfound
  refine CountsFunctions.addEdge ?_ _ _
  cases hnode : found.node with
  | none => exact hgraph
  | some node => exact hgraph.addNode (hother node hnode)

theorem CountsFunctions.addRoutes (h : CountsFunctions n graph)
    (routes : List (FunctionFact × (String × String))) :
    CountsFunctions n (routes.foldl CodeGraph.addRoute graph) := by
  refine List.foldlRecOn (motive := CountsFunctions n) _ _ h fun graph hgraph item _ => ?_
  refine CountsFunctions.addEdge (hgraph.addNode ?_) _ _
  exact other_of_label _ rfl (by simp only [routeId, String.append_assoc]; rfl) 'r' (by decide)
    (by decide)

theorem CountsFunctions.indexConstraints (h : CountsFunctions n graph) :
    CountsFunctions n (indexConstraints readers tree graph) := by
  have hnodes : CountsFunctions n
      ((constraintNodes readers tree).foldl CodeGraph.addNode graph) := by
    refine List.foldlRecOn (motive := CountsFunctions n) _ _ h fun graph hgraph node hnode => ?_
    obtain ⟨file, _, hfile⟩ := List.mem_flatMap.mp hnode
    obtain ⟨m, _, rfl⟩ := List.mem_map.mp hfile
    exact hgraph.addNode (other_of_label _ rfl rfl 'c' (by decide) (by decide))
  refine List.foldlRecOn (motive := CountsFunctions n) _ _ hnodes fun graph hgraph node _ => ?_
  exact List.foldlRecOn (motive := CountsFunctions n) _ _ hgraph
    fun graph hgraph constraint _ => hgraph.addEdge _ _

theorem CountsFunctions.indexDocuments (h : CountsFunctions n graph) (redact : String → String)
    (mentions : CodeNode → String → Bool) :
    CountsFunctions n (graph.indexDocuments (documentNodes redact tree) mentions) := by
  have hnodes : CountsFunctions n
      (((documentNodes redact tree).map (·.1)).foldl CodeGraph.addNode graph) := by
    refine List.foldlRecOn (motive := CountsFunctions n) _ _ h fun graph hgraph node hnode => ?_
    obtain ⟨document, hdocument, rfl⟩ := List.mem_map.mp hnode
    obtain ⟨file, _, rfl⟩ := List.mem_map.mp hdocument
    exact hgraph.addNode (other_of_label _ rfl rfl 'd' (by decide) (by decide))
  refine List.foldlRecOn (motive := CountsFunctions n) _ _ hnodes fun graph hgraph node _ => ?_
  exact List.foldlRecOn (motive := CountsFunctions n) _ _ hgraph
    fun graph hgraph document _ => hgraph.addEdge _ _

theorem CountsFunctions.addFlows (h : CountsFunctions n graph) (flows : List CodeFlow) :
    CountsFunctions n (flows.foldl CodeGraph.addFlow graph) := by
  refine List.foldlRecOn (motive := CountsFunctions n) _ _ h fun graph hgraph flow _ => ?_
  exact List.foldlRecOn (motive := CountsFunctions n) _ _ hgraph
    fun graph hgraph pair _ => hgraph.addEdge _ _

/-! Counting the functions. -/

/-- `self.functions` holds a definition under its symbol. -/
theorem mem_pythonFunctions {item : String × FunctionFact}
    (h : item ∈ (pythonFunctions readers tree).items) :
    item.2 ∈ pythonDefinitions readers tree ∧ item.1 = item.2.symbol := by
  obtain ⟨fact, hfact, rfl⟩ := List.mem_map.mp (Dict.mem_ofList h)
  exact ⟨hfact, rfl⟩

/-- The nodes that were added are those of the list, under their identifiers. -/
theorem nodes_foldl_addNode (nodes : List CodeNode) (graph : CodeGraph) :
    (nodes.foldl CodeGraph.addNode graph).nodes =
      (nodes.map fun node => (node.id, node)).foldl (fun d item => d.set item.1 item.2)
        graph.nodes := by
  induction nodes generalizing graph with
  | nil => rfl
  | cons node rest ih => exact ih (graph.addNode node)

theorem countsFunctions_empty : CountsFunctions 0 .empty := ⟨rfl, fun _ h => absurd h List.not_mem_nil⟩

theorem parseError_label {node : CodeNode} (h : node ∈ pythonParseErrors readers tree) :
    ∃ rest, node.id = "parse-error:python:" ++ rest ∧ node.kind = "parse_error" := by
  obtain ⟨file, _, hfile⟩ := List.mem_filterMap.mp h
  split at hfile
  · cases hfile
  · cases hfile
    exact ⟨_, by simp only [String.append_assoc]; rfl, rfl⟩

theorem functionIds_nodup :
    ((pythonFunctions readers tree).items.map (·.2.nodeId)).Nodup := by
  have hids : (pythonFunctions readers tree).items.map (·.2.nodeId) =
      (pythonFunctions readers tree).keys.map fun symbol => "function:" ++ symbol := by
    rw [Dict.keys, List.map_map]
    refine List.map_congr_left fun item hitem => ?_
    rw [FunctionFact.nodeId, ← (mem_pythonFunctions hitem).2]
    rfl
  rw [hids]
  refine (pythonFunctions readers tree).distinct.map fun a b hab => ?_
  exact String.append_right_inj _ |>.mp hab

theorem nodeId_head (fact : FunctionFact) : fact.nodeId.toList.head? = some 'f' := by
  rw [FunctionFact.nodeId, String.toList_append]
  rfl

/-- The identifier of a parse error is that of no function. -/
theorem parseErrors_apart {id : String}
    (h : id ∈ ((pythonParseErrors readers tree).foldl CodeGraph.addNode .empty).nodes.keys) :
    id.toList.head? ≠ some 'f' := by
  rw [nodes_foldl_addNode, Dict.mem_keys_foldl_set, List.map_map] at h
  cases h with
  | inl hempty => exact absurd hempty List.not_mem_nil
  | inr hadded =>
    obtain ⟨node, hnode, rfl⟩ := List.mem_map.mp hadded
    obtain ⟨rest, hid, _⟩ := parseError_label hnode
    rw [Function.comp_apply, hid, String.toList_append]
    exact fun hhead => absurd (Option.some.inj hhead) (by decide)

/-- The graph has a function node for every symbol. -/
theorem countsFunctions_indexPython :
    CountsFunctions (pythonFunctions readers tree).items.length (indexPython readers tree) := by
  have herrors : CountsFunctions 0 ((pythonParseErrors readers tree).foldl CodeGraph.addNode .empty) := by
    refine List.foldlRecOn (motive := CountsFunctions 0) _ _ countsFunctions_empty
      fun graph hgraph node hnode => hgraph.addNode ?_
    obtain ⟨rest, hid, hkind⟩ := parseError_label hnode
    exact other_of_label rest (by rw [CodeNode.isFunction, hkind]; rfl) hid 'p' (by decide)
      (by decide)
  have hkeys : (((pythonFunctions readers tree).items.map (·.2.node)).map
      fun node => (node.id, node)).map Prod.fst =
      (pythonFunctions readers tree).items.map (·.2.nodeId) := by
    rw [List.map_map, List.map_map]
    rfl
  have hitems : (indexPython readers tree).nodes.items =
      ((pythonParseErrors readers tree).foldl CodeGraph.addNode .empty).nodes.items ++
        ((pythonFunctions readers tree).items.map (·.2.node)).map fun node => (node.id, node) := by
    rw [indexPython, nodes_foldl_addNode]
    apply Dict.foldl_set_items
    rw [hkeys]
    refine List.nodup_append.mpr ⟨Dict.distinct _, functionIds_nodup, ?_⟩
    rintro id hid other hother rfl
    obtain ⟨item, _, rfl⟩ := List.mem_map.mp hother
    exact parseErrors_apart hid (nodeId_head item.2)
  refine ⟨?_, ?_⟩
  · rw [hitems, List.countP_append, herrors.count, Nat.zero_add, List.countP_eq_length.mpr]
    · rw [List.length_map, List.length_map]
    · intro item hitem
      obtain ⟨node, hnode, rfl⟩ := List.mem_map.mp hitem
      obtain ⟨entry, _, rfl⟩ := List.mem_map.mp hnode
      rfl
  · intro item hitem hfunction
    rw [hitems] at hitem
    cases List.mem_append.mp hitem with
    | inl herror => exact herrors.label item herror hfunction
    | inr hadded =>
      obtain ⟨node, hnode, rfl⟩ := List.mem_map.mp hadded
      obtain ⟨entry, _, rfl⟩ := List.mem_map.mp hnode
      exact nodeId_head entry.2

/-- A catalogue has as many function nodes as there are symbols. -/
theorem functionNodes_length :
    ((buildPythonCatalog readers tree).nodes.filter CodeNode.isFunction).length =
      (pythonFunctions readers tree).items.length := by
  have hgraph : CountsFunctions (pythonFunctions readers tree).items.length
      ((pythonFlows readers tree).foldl CodeGraph.addFlow
        ((indexConstraints readers tree
          ((routed (pythonFunctions readers tree)).foldl CodeGraph.addRoute
            (extractEvents readers (pythonFunctions readers tree) (indexPython readers tree)))
          ).indexDocuments (documentNodes (redactSensitiveText readers.word) tree)
            pythonMentions)) := by
    apply CountsFunctions.addFlows
    apply CountsFunctions.indexDocuments
    apply CountsFunctions.indexConstraints
    apply CountsFunctions.addRoutes
    apply CountsFunctions.extractEvents
    exact countsFunctions_indexPython
  rw [← List.countP_eq_length_filter]
  refine Eq.trans ((List.mergeSort_perm _ _).countP_eq _) ?_
  rw [List.countP_map]
  exact hgraph.count

/-! What is claimed of the definitions. -/

/-- Every definition has a symbol of its own and stays under it, and the catalogue has a function
node for each. -/
structure KeepsDefinitions (readers : SourceReaders) (tree : List TreeFile) : Prop where
  distinct : ((pythonDefinitions readers tree).map (·.symbol)).Nodup
  kept : ∀ fact ∈ pythonDefinitions readers tree,
    (pythonFunctions readers tree).get? fact.symbol = some fact
  counted : ((buildPythonCatalog readers tree).nodes.filter CodeNode.isFunction).length =
    (pythonDefinitions readers tree).length

/-- Definitions are kept apart when no two have the same parts: those of the module, the innermost
class or the functions around, and the name. -/
theorem definitions_kept (hnames : readers.Undotted) :
    KeepsDefinitions readers tree ↔ (definitionPaths readers tree).Nodup := by
  constructor
  · intro h
    exact (nodup_symbols hnames).mp h.distinct
  · intro h
    have hdistinct := (nodup_symbols hnames).mpr h
    have hkeys : (((pythonDefinitions readers tree).map fun fact =>
        (fact.symbol, fact)).map Prod.fst).Nodup := by
      rw [List.map_map]
      exact hdistinct
    have hitems : (pythonFunctions readers tree).items =
        (pythonDefinitions readers tree).map fun fact => (fact.symbol, fact) :=
      Dict.items_ofList hkeys
    refine ⟨hdistinct, fun fact hfact => ?_, ?_⟩
    · rw [Dict.get?_eq_some, hitems]
      exact List.mem_map_of_mem hfact
    · rw [functionNodes_length, hitems, List.length_map]

end

/-! A property with a setter. -/

def getterText : String := "class Account:\n    @property\n    def balance(self): ...\n"

def setterText : String :=
  getterText ++ "\n    @balance.setter\n    def balance(self, value): ...\n"

def balanceMethod (line : Nat) (decorator : PyExpr) : PyStmt :=
  .function ⟨"balance", by decide, by decide⟩ line [] [decorator] []

def accountClass (methods : List PyStmt) : PyStmt :=
  .classDef ⟨"Account", by decide, by decide⟩ methods

/-- What the parser makes of the two texts. -/
def accountBody (text : String) : List PyStmt :=
  if text = getterText then [accountClass [balanceMethod 3 (.name "property")]]
  else if text = setterText then
    [accountClass [balanceMethod 3 (.name "property"),
      balanceMethod 6 (.attribute (.name "balance") "setter")]]
  else []

def accountReaders : SourceReaders where
  parse _ text := .ok (accountBody text)
  loads _ := .error 1
  word := Char.isAlphanum
  named _ := none
  sha256 := id
  serialisedSize _ := 0

theorem accountReaders_undotted : accountReaders.Undotted := by
  intro file text body hbody place hplace
  obtain rfl := Except.ok.inj hbody
  rw [accountBody] at hplace
  split at hplace
  · revert place
    decide
  · split at hplace
    · revert place
      decide
    · exact absurd hplace List.not_mem_nil

theorem definitions_kept_getter : KeepsDefinitions accountReaders [(["account.py"], getterText)] :=
  (definitions_kept accountReaders_undotted).mpr (by decide +kernel)

/-- The setter takes the place of the getter, which is lost. -/
theorem getter_lost :
    (pythonDefinitions accountReaders [(["account.py"], setterText)]).map (·.symbol) =
      ["account.Account.balance", "account.Account.balance"] ∧
    ¬ KeepsDefinitions accountReaders [(["account.py"], setterText)] := by
  have hsymbols : (pythonDefinitions accountReaders [(["account.py"], setterText)]).map
      (·.symbol) = ["account.Account.balance", "account.Account.balance"] := by
    decide +kernel
  refine ⟨hsymbols, fun h => ?_⟩
  have hdistinct := h.distinct
  rw [hsymbols] at hdistinct
  exact absurd hdistinct (by decide)

end Bantam
