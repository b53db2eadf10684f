import Bantam.CodeGraph
import Bantam.PythonSource

/-! The catalogue of a Python repository. -/
namespace Bantam

/-- A catalogue, an edge with the flows that pass it. -/
structure RepositoryCatalog where
  nodes : List CodeNode
  edges : List (GraphEdge × List String)
  defaultFlows : List CodeFlow
  parseErrors : List CodeNode
deriving DecidableEq, Repr

/-- What the builders rest on: the parsers of the language and of JSON with the line of an error,
the characters that `\w` matches and those that have names, the hash, and how long a catalogue is
as JSON, with the texts that are left out here. -/
structure SourceReaders where
  parse : String → String → Except Nat (List PyStmt)
  loads : String → Except Nat Json
  word : Char → Bool
  named : List Char → Option Nat
  sha256 : String → String
  serialisedSize : RepositoryCatalog → Nat

/-- The order of edges in a catalogue. -/
def edgeOrder (a b : GraphEdge × List String) : Bool :=
  decide ([a.1.source, a.1.target, a.1.type] ≤ [b.1.source, b.1.target, b.1.type])

def CodeGraph.catalog (graph : CodeGraph) (flows : List CodeFlow) (parseErrors : List CodeNode) :
    RepositoryCatalog where
  nodes := (graph.nodes.items.map (·.2)).mergeSort fun a b => decide (a.id ≤ b.id)
  edges := graph.edges.items.mergeSort edgeOrder
  defaultFlows := flows.mergeSort fun a b => decide (a.flowId ≤ b.flowId)
  parseErrors := parseErrors.mergeSort fun a b => decide (a.id ≤ b.id)

/-- `_dedupe_consecutive` -/
def dedupeConsecutive : List String → List String
  | [] => []
  | [value] => [value]
  | value :: next :: rest =>
    if value = next then dedupeConsecutive (next :: rest)
    else value :: dedupeConsecutive (next :: rest)

/-! Functions. -/

/-- The name of a file without `.py`. -/
def pythonStem (name : String) : String :=
  if name = ".py" then name else String.ofList (name.toList.take (name.length - 3))

/-- One part of a module's name. -/
def modulePart (part : String) : String :=
  let value := part.toList.map fun c => if isWordByte c then c else '_'
  String.ofList (if value.head?.any Char.isDigit then '_' :: value else value)

/-- `_module_name` -/
def moduleName (parts : List String) : String :=
  let stems := parts.dropLast ++ [pythonStem (parts.getLast?.getD "")]
  let named := if stems.getLast? = some "__init__" then stems.dropLast else stems
  ".".intercalate ((if named = [] then ["root"] else named).map modulePart)

/-- `_python_paths` -/
def pythonPaths (tree : List TreeFile) : List TreeFile :=
  (filesEnding ".py" tree).filter fun file => !isExcluded file

section Builder
variable (readers : SourceReaders) (tree : List TreeFile)

def pythonModules : List PyModule :=
  (pythonPaths tree).filterMap fun file =>
    match readers.parse (posixPath file.1) file.2 with
    | .ok body => some ⟨moduleName file.1, posixPath file.1, body⟩
    | .error _ => none

def pythonParseErrors : List CodeNode :=
  (pythonPaths tree).filterMap fun file =>
    match readers.parse (posixPath file.1) file.2 with
    | .ok _ => none
    | .error line =>
      some { id := "parse-error:python:" ++ posixPath file.1 ++ ":" ++ toString line
             kind := "parse_error"
             file := posixPath file.1
             line := line }

/-- `self.functions` -/
def pythonFunctions : Dict String FunctionFact :=
  Dict.ofList (((pythonModules readers tree).flatMap (·.definitions)).map fun fact =>
    (fact.symbol, fact))

def FunctionFact.node (fact : FunctionFact) : CodeNode :=
  { id := fact.nodeId, kind := "function", symbol := fact.symbol, file := fact.file,
    line := fact.line }

/-- `_index_python` -/
def indexPython : CodeGraph :=
  ((pythonFunctions readers tree).items.map (·.2.node)).foldl CodeGraph.addNode
    ((pythonParseErrors readers tree).foldl CodeGraph.addNode .empty)

/-! Events. -/

/-- Something that a function does: its place, the node that it adds, the node that it leads to
and, for a call, the function called. -/
structure Found where
  place : List Nat
  node : Option CodeNode
  target : String
  edgeType : String
  call : Option String

/-- `hexdigest()[:12]` -/
def SourceReaders.fingerprint (readers : SourceReaders) (s : String) : String :=
  String.ofList ((readers.sha256 s).toList.take 12)

/-- `_bounded(value, 240)` -/
def boundedCondition (value : String) : String :=
  let value := joinWords value
  if value.length ≤ 240 then value else String.ofList (value.toList.take 239) ++ "…"

/-- The checks of a function, with the fingerprints seen before. -/
def foundChecks (fact : FunctionFact) : List String → List PyCheck → List Found
  | _, [] => []
  | seen, check :: rest =>
    let condition := boundedCondition (joinWords check.testText)
    let key := readers.fingerprint condition
    let id := "check:" ++ fact.symbol ++ ":" ++ key ++ ":" ++ toString (seen.count key + 1)
    { place := [check.line, check.column, 2]
      node := some { id := id, kind := "check", functionSymbol := fact.symbol, file := fact.file,
                     line := check.line }
      target := id
      edgeType := "checks"
      call := none } :: foundChecks fact (seen ++ [key]) rest

def foundTransaction (fact : FunctionFact) (place : Nat × Nat) : Found :=
  let id := "transaction:" ++ fact.symbol ++ ":" ++ toString place.1
  { place := [place.1, place.2, 0]
    node := some { id := id, kind := "transaction", functionSymbol := fact.symbol,
                   file := fact.file, line := place.1 }
    target := id
    edgeType := "contains"
    call := none }

/-- The statement that a call executes. -/
def executedStatement (call : PyCall) : Option String :=
  if (dottedName call.func).endsWith ".execute" then
    (call.args.head?.bind (sqlText readers.word)).filter (· ≠ "")
  else none

def statementKind (operation statement : String) : String :=
  if operation = "SELECT" ∧ Text.isInfix "FOR UPDATE".toList (Text.upper statement).toList then "lock"
  else if operation ∈ ["INSERT", "UPDATE", "DELETE"] then "effect"
  else "query"

def foundStatement (fact : FunctionFact) (call : PyCall) (statement : String) (occurrence : Nat) :
    Found :=
  let operation := sqlOperation readers.word statement
  let id := "sql:" ++ fact.symbol ++ ":" ++ readers.fingerprint statement ++ ":" ++
    toString occurrence
  { place := [call.line, call.column, 3]
    node := some { id := id, kind := statementKind operation statement,
                   tables := sqlTables readers.word statement, functionSymbol := fact.symbol,
                   file := fact.file, line := call.line }
    target := id
    edgeType := if operation = "SELECT" then "reads" else "writes"
    call := none }

def foundCall (call : PyCall) (target : String) : Found :=
  { place := [call.line, call.column, 1]
    node := none
    target := "function:" ++ target
    edgeType := "calls"
    call := some target }

/-- The calls of a function, with the fingerprints of the statements seen before. -/
def foundCalls (functions : Dict String FunctionFact) (fact : FunctionFact) :
    List String → List PyCall → List Found
  | _, [] => []
  | seen, call :: rest =>
    match executedStatement readers call with
    | some statement =>
      let fingerprint := readers.fingerprint statement
      foundStatement readers fact call statement (seen.count fingerprint + 1) ::
        foundCalls functions fact (seen ++ [fingerprint]) rest
    | none =>
      match resolveCall functions fact call.func with
      | some target =>
        if target = fact.symbol then foundCalls functions fact seen rest
        else foundCall call target :: foundCalls functions fact seen rest
      | none => foundCalls functions fact seen rest

/-- What `_extract_events` finds in a function, in the order in which it adds it. -/
def foundIn (functions : Dict String FunctionFact) (fact : FunctionFact) : List Found :=
  let visited := visitStmts fact.body
  foundChecks readers fact [] visited.checks ++ visited.transactions.map (foundTransaction fact) ++
    foundCalls readers functions fact [] visited.calls

def CodeGraph.addFound (fact : FunctionFact) (graph : CodeGraph) (found : Found) : CodeGraph :=
  ((found.node.map graph.addNode).getD graph).addEdge
    ⟨fact.nodeId, found.target, found.edgeType⟩ none

/-- `_extract_events` -/
def extractEvents (functions : Dict String FunctionFact) (graph : CodeGraph) : CodeGraph :=
  (functions.items.map (·.2)).foldl
    (fun graph fact => (foundIn readers functions fact).foldl (CodeGraph.addFound fact) graph) graph

/-- `fact.events` -/
def eventsOf (functions : Dict String FunctionFact) (fact : FunctionFact) : List Found :=
  (foundIn readers functions fact).mergeSort fun a b => decide (a.place ≤ b.place)

/-- `_expand`; three rounds are left at depth zero. -/
def expand (functions : Dict String FunctionFact) : Nat → List String → String → List String
  | 0, _, _ => []
  | rounds + 1, stack, symbol =>
    if symbol ∈ stack then []
    else match functions.get? symbol with
      | none => []
      | some fact => (eventsOf readers functions fact).flatMap fun event =>
        event.target :: (event.call.map (expand functions rounds (symbol :: stack))).getD []

/-- A sequence of node ids, as a flow has it. -/
def boundedSequence (sequence : List String) : List String := dedupeConsecutive (sequence.take 160)

/-! Flows. -/

def sortedFunctions (facts : List FunctionFact) : List FunctionFact :=
  facts.mergeSort fun a b => decide (a.symbol ≤ b.symbol)

def routeId (route : String × String) : String := "route:" ++ route.1 ++ ":" ++ route.2

/-- The functions that are routes, in order. -/
def routed (functions : Dict String FunctionFact) : List (FunctionFact × (String × String)) :=
  (sortedFunctions (functions.items.map (·.2))).filterMap fun fact =>
    fact.route.map fun route => (fact, route)

def routeFlow (functions : Dict String FunctionFact) (item : FunctionFact × (String × String)) :
    CodeFlow where
  flowId := "default:" ++ Text.lower item.2.1 ++ ":" ++ item.2.2
  actorRoles := annotatedRoles item.1.annotations
  nodeIds := boundedSequence
    (routeId item.2 :: item.1.nodeId :: expand readers functions 3 [] item.1.symbol)

def CodeGraph.addRoute (graph : CodeGraph) (item : FunctionFact × (String × String)) : CodeGraph :=
  (graph.addNode { id := routeId item.2, kind := "route", path := item.2.2,
                   functionSymbol := item.1.symbol, file := item.1.file, line := item.1.line
                   }).addEdge ⟨routeId item.2, item.1.nodeId, "handled_by"⟩ none

/-- The functions that a flow of their own starts at: those that nothing calls. -/
def systemEntries (functions : Dict String FunctionFact) (graph : CodeGraph) : List FunctionFact :=
  let called := graph.edges.keys.filterMap fun edge =>
    if edge.type = "calls" ∧ edge.target.startsWith "function:" then some edge.target else none
  (sortedFunctions ((functions.items.map (·.2)).filter fun fact =>
    fact.route.isNone && !fact.name.text.startsWith "_" &&
      (fact.nodeId ∉ called ||
        pythonStem (lastSegment fact.file) ∈ ["main", "__main__", "cli", "app"]))).take 200
where
  lastSegment (file : String) : String := (file.splitOn "/").getLastD ""

def systemFlow (functions : Dict String FunctionFact) (fact : FunctionFact) : CodeFlow where
  flowId := "default:python:" ++ fact.symbol
  actorRoles := ["SYSTEM"]
  nodeIds := boundedSequence (fact.nodeId :: expand readers functions 3 [] fact.symbol)

/-! Constraints and documents. -/

/-- The triggers of the migrations, each with its table. -/
def constraintNodes : List CodeNode :=
  ((filesEnding ".sql" tree).filter fun file => !isExcluded file).flatMap fun file =>
    (sqlTrigger.findAll readers.word 0 none file.2.toList).map fun m =>
      { id := "constraint:postgres:" ++ lowerName (m.group 0)
        kind := "constraint"
        tables := [lowerName (m.group 1)]
        file := posixPath file.1
        line := (file.2.toList.take (file.2.length - m.text.length)).count '\n' + 1 }

/-- The constraints that hold of what a node writes. -/
def enforcing (constraints : List CodeNode) (node : CodeNode) : List CodeNode :=
  if node.kind = "effect" then
    node.tables.flatMap fun table => constraints.filter fun constraint => constraint.tables = [table]
  else []

/-- `_index_database_constraints` -/
def indexConstraints (graph : CodeGraph) : CodeGraph :=
  let constraints := constraintNodes readers tree
  let graph := constraints.foldl CodeGraph.addNode graph
  (graph.nodes.items.map (·.2)).foldl (fun graph node =>
    (enforcing constraints node).foldl
      (fun graph constraint => graph.addEdge ⟨node.id, constraint.id, "enforced_by"⟩ none) graph)
    graph

/-- What of a Python node a document can mention. -/
def pythonMentions (node : CodeNode) (lowered : String) : Bool :=
  !(["documentation", "parse_error"].contains node.kind) &&
    [node.file, node.symbol, node.functionSymbol, node.path].any fun marker =>
      5 ≤ marker.length && mentionedIn marker lowered

/-- `_index_documentation`, for what the builder finds in a document. -/
def CodeGraph.indexDocuments (documents : List (CodeNode × String))
    (mentions : CodeNode → String → Bool) (graph : CodeGraph) : CodeGraph :=
  let graph := (documents.map (·.1)).foldl CodeGraph.addNode graph
  graph.addMentions documents mentions (graph.nodes.items.map (·.2))

/-- The flows of the repository: its routes and its other entries. -/
def pythonFlows : List CodeFlow :=
  let functions := pythonFunctions readers tree
  let extracted := (routed functions).foldl CodeGraph.addRoute
    (extractEvents readers functions (indexPython readers tree))
  (routed functions).map (routeFlow readers functions) ++
    (systemEntries functions extracted).map (systemFlow readers functions)

/-- `RepositoryPythonCatalogBuilder.build` -/
def buildPythonCatalog : RepositoryCatalog :=
  let functions := pythonFunctions readers tree
  let extracted := extractEvents readers functions (indexPython readers tree)
  let routes := (routed functions).foldl CodeGraph.addRoute extracted
  let constrained := indexConstraints readers tree routes
  let documented := constrained.indexDocuments
    (documentNodes (redactSensitiveText readers.word) tree) pythonMentions
  let flows := pythonFlows readers tree
  (flows.foldl CodeGraph.addFlow documented).catalog flows (pythonParseErrors readers tree)
end Builder

end Bantam
