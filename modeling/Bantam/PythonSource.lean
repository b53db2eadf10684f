import Bantam.Lib.Containers
import Bantam.Lib.Pattern
import Bantam.Redaction

/-! Python sources as the `ast` module gives them, and what the catalogue reads off them. -/
namespace Bantam

/-! The tree. -/

/-- A name in a source: identifiers have no blank in them and are not empty. -/
structure Identifier where
  text : String
  nonempty : text ≠ ""
  plain : ∀ c ∈ text.toList, Text.isSpace c = false

/-- Expressions. A call has its place, a constant that is no string what `str` makes of it; all
other expressions count by their parts alone. -/
inductive PyExpr where
  | name (id : String)
  | attribute (value : PyExpr) (attr : String)
  | text (value : String)
  | constant (rendered : String)
  | call (line column : Nat) (func : PyExpr) (args : List PyExpr)
      (keywords : List (Option String × PyExpr))
  | display (elements : List PyExpr)
  | other (parts : List PyExpr)

/-- Statements. An `if` has the text of its test; all other statements count by their
expressions and then their statements. -/
inductive PyStmt where
  | function (name : Identifier) (line : Nat) (annotations decorators : List PyExpr)
      (body : List PyStmt)
  | classDef (name : Identifier) (body : List PyStmt)
  | importNames (names : List (String × Option String))
  | importFrom (module : Option String) (names : List (String × Option String))
  | check (line column : Nat) (test : PyExpr) (testText : String) (body orelse : List PyStmt)
  | scope (line column : Nat) (items : List (PyExpr × Option PyExpr)) (body : List PyStmt)
  | other (expressions : List PyExpr) (statements : List PyStmt)

/-! Imports. -/

/-- `_imports` -/
def pythonImports (body : List PyStmt) : Dict String String :=
  Dict.ofList (body.flatMap fun statement =>
    match statement with
    | .importNames names => names.map fun item => (item.2.getD item.1, item.1)
    | .importFrom (some module) names =>
      if module = "" then [] else names.map fun item => (item.2.getD item.1, module ++ "." ++ item.1)
    | _ => [])

/-! Routes and roles. -/

/-- `str(value)` of a constant. -/
def PyExpr.constant? : PyExpr → Option String
  | .text value => some value
  | .constant rendered => some rendered
  | _ => none

/-- The methods that a keyword of `route` gives. -/
def discoveredMethods : Option String × PyExpr → List String
  | (some "methods", .display elements) => elements.filterMap fun item =>
    match item with
    | .text value => some (Text.upper value)
    | _ => none
  | _ => []

/-- A decorator as a route: its method and its path. -/
def decoratorRoute : PyExpr → Option (String × String)
  | .call _ _ (.attribute _ attr) (first :: _) keywords =>
    if attr ∈ ["get", "post", "put", "patch", "delete"] then
      first.constant?.map fun path => (Text.upper attr, path)
    else if attr = "route" then
      first.constant?.map fun path =>
        let methods := keywords.foldl (fun methods keyword =>
          if discoveredMethods keyword = [] then methods else discoveredMethods keyword) ["GET"]
        ((Text.sorted methods).headD "", path)
    else none
  | _ => none

/-- `_route_decorator` -/
def routeDecorator (decorators : List PyExpr) : Option (String × String) :=
  decorators.findSome? decoratorRoute

/-- `ROLE_BY_ANNOTATION` -/
def roleByAnnotation : List (String × List String) :=
  [("CustomerPrincipal", ["CUSTOMER"]), ("AdminPrincipal", ["BANK_ADMIN"]),
    ("AspisAdminPrincipal", ["BANK_ADMIN", "ASPIS_ADMIN"]),
    ("AspisPrincipal", ["BANK_ADMIN", "ASPIS_ADMIN", "ASPIS_AUDITOR"]),
    ("MfaPrincipal", ["BANK_ADMIN", "ASPIS_ADMIN", "ASPIS_AUDITOR"]),
    ("OperatorPrincipal", ["BANK_ADMIN", "RISK_ANALYST"]),
    ("AuditPrincipal", ["BANK_ADMIN", "RISK_ANALYST", "COMPLIANCE_AUDITOR"]),
    ("ReconcilePrincipal", ["BANK_ADMIN", "COMPLIANCE_AUDITOR"]),
    ("AnyPrincipal", ["CUSTOMER", "BANK_ADMIN", "RISK_ANALYST", "COMPLIANCE_AUDITOR",
      "ASPIS_AUDITOR", "ASPIS_ADMIN"])]

mutual
/-- The names in an expression, at every depth. -/
def exprNames : PyExpr → List String
  | .name id => [id]
  | .attribute value _ => exprNames value
  | .text _ | .constant _ => []
  | .call _ _ func args keywords => exprNames func ++ exprsNames args ++ keywordsNames keywords
  | .display elements => exprsNames elements
  | .other parts => exprsNames parts

def exprsNames : List PyExpr → List String
  | [] => []
  | expr :: rest => exprNames expr ++ exprsNames rest

def keywordsNames : List (Option String × PyExpr) → List String
  | [] => []
  | (_, expr) :: rest => exprNames expr ++ keywordsNames rest
end

/-- `_roles` -/
def annotatedRoles (annotations : List PyExpr) : List String :=
  let discovered := annotations.flatMap fun annotation =>
    ( roleByAnnotation.filter fun entry => entry.1 ∈ exprNames annotation).flatMap (·.2)
  if discovered = [] then ["PUBLIC"]
  else discovered.foldl (fun roles role => if role ∈ roles then roles else roles ++ [role]) []

/-! Definitions. -/

/-- `FunctionFact` -/
structure FunctionFact where
  symbol : String
  module : String
  className : Option String
  name : Identifier
  file : String
  line : Nat
  imports : Dict String String
  annotations : List PyExpr
  route : Option (String × String)
  body : List PyStmt

def FunctionFact.nodeId (fact : FunctionFact) : String := "function:" ++ fact.symbol

/-- The symbol of a function: by its class, at the module where it is a route, or within the
functions around it. -/
def functionSymbol (module : String) (className : Option String) (parents : List String)
    (route : Option (String × String)) (name : String) : String :=
  match className with
  | some className => module ++ "." ++ className ++ "." ++ name
  | none =>
    if route.isSome ∨ parents = [] then module ++ "." ++ name
    else module ++ "." ++ ".".intercalate parents ++ "." ++ name

structure PyModule where
  name : String
  file : String
  body : List PyStmt

mutual
/-- `_collect_definitions` for one statement. -/
def collectDefinition (module : PyModule) (imports : Dict String String)
    (className : Option String) (parents : List String) : PyStmt → List FunctionFact
  | .classDef name body => collectDefinitions module imports (some name.text) [] body
  | .function name line annotations decorators body =>
    { symbol := functionSymbol module.name className parents (routeDecorator decorators) name.text
      module := module.name
      className := className
      name := name
      file := module.file
      line := line
      imports := imports
      annotations := annotations
      route := routeDecorator decorators
      body := body } ::
      collectDefinitions module imports className (parents ++ [name.text]) body
  | .importNames _ | .importFrom _ _ | .check _ _ _ _ _ _ | .scope _ _ _ _ | .other _ _ => []

/-- `_collect_definitions` -/
def collectDefinitions (module : PyModule) (imports : Dict String String)
    (className : Option String) (parents : List String) : List PyStmt → List FunctionFact
  | [] => []
  | statement :: rest =>
    collectDefinition module imports className parents statement ++
      collectDefinitions module imports className parents rest
end

def PyModule.definitions (module : PyModule) : List FunctionFact :=
  collectDefinitions module (pythonImports module.body) none [] module.body

/-! What a function does, in the order of `_EventVisitor`. -/

structure PyCall where
  line : Nat
  column : Nat
  func : PyExpr
  args : List PyExpr

structure PyCheck where
  line : Nat
  column : Nat
  testText : String

structure Visited where
  checks : List PyCheck := []
  transactions : List (Nat × Nat) := []
  calls : List PyCall := []

def Visited.append (a b : Visited) : Visited :=
  ⟨a.checks ++ b.checks, a.transactions ++ b.transactions, a.calls ++ b.calls⟩

mutual
/-- The calls in an expression, an outer one before those in it. -/
def exprCalls : PyExpr → List PyCall
  | .name _ | .text _ | .constant _ => []
  | .attribute value _ => exprCalls value
  | .call line column func args keywords =>
    ⟨line, column, func, args⟩ :: (exprCalls func ++ exprsCalls args ++ keywordsCalls keywords)
  | .display elements => exprsCalls elements
  | .other parts => exprsCalls parts

def exprsCalls : List PyExpr → List PyCall
  | [] => []
  | expr :: rest => exprCalls expr ++ exprsCalls rest

def keywordsCalls : List (Option String × PyExpr) → List PyCall
  | [] => []
  | (_, expr) :: rest => exprCalls expr ++ keywordsCalls rest
end

/-- `_is_transaction` -/
def isTransaction : PyExpr → Bool
  | .call _ _ (.attribute _ attr) _ _ => attr = "transaction"
  | _ => false

def itemCalls (item : PyExpr × Option PyExpr) : List PyCall :=
  exprCalls item.1 ++ (item.2.map exprCalls).getD []

mutual
def visitStmt : PyStmt → Visited
  | .function _ _ _ _ _ | .classDef _ _ | .importNames _ | .importFrom _ _ => {}
  | .check line column test testText body orelse =>
    (Visited.append { checks := [⟨line, column, testText⟩], calls := exprCalls test }
      ((visitStmts body).append (visitStmts orelse)))
  | .scope line column items body =>
    Visited.append
      { transactions := if items.any fun item => isTransaction item.1 then [(line, column)] else []
        calls := items.flatMap itemCalls }
      (visitStmts body)
  | .other expressions statements =>
    Visited.append { calls := exprsCalls expressions } (visitStmts statements)

def visitStmts : List PyStmt → Visited
  | [] => {}
  | statement :: rest => (visitStmt statement).append (visitStmts rest)
end

/-! Calls. -/

/-- `_dotted_name` -/
def dottedName : PyExpr → String
  | .name id => id
  | .attribute value attr => if dottedName value = "" then attr else dottedName value ++ "." ++ attr
  | _ => ""

/-- `IGNORED_CALL_SUFFIXES` -/
def ignoredCallSuffixes : List String :=
  ["append", "astype", "connection", "date", "decode", "encode", "execute", "extend", "fetchall",
    "fetchone", "format", "get", "hexdigest", "isoformat", "items", "join", "lower", "pop",
    "removeprefix", "replace", "set_cookie", "split", "strip", "transaction", "upper", "values"]

/-- `IGNORED_CALLS` -/
def ignoredCalls : List String :=
  ["bool", "bytes", "date", "dict", "enumerate", "int", "isinstance", "len", "list", "max", "min",
    "next", "range", "set", "str", "sum", "tuple", "uuid4"]

/-- `STATE_SERVICE_CLASSES` -/
def stateServiceClasses : List (String × String) :=
  [("auth", "bantam.auth.AuthService"), ("claims", "bantam.auth.SignedClaimService"),
    ("database", "bantam.database.Database"), ("ledger", "bantam.ledger.LedgerService"),
    ("mfa", "bantam.mfa.MfaService"), ("sca", "bantam.sca.SCAService"),
    ("asvs", "bantam.asvs.AsvsService"), ("asvs_ai", "bantam.asvs_ai.AsvsAiService"),
    ("workflow_graph", "bantam.workflow_graph.WorkflowGraphService"),
    ("repository_graph", "bantam.repository_graph.RepositoryGraphService")]

/-- `SELF_SERVICE_CLASSES` -/
def selfServiceClasses : List (String × String) :=
  [("sca", "bantam.sca.SCAService"), ("publisher", "bantam.events.EventPublisher"),
    ("pool", "psycopg_pool.ConnectionPool")]

/-- The last part of a dotted name. -/
def lastPart (dotted : String) : String := (dotted.splitOn ".").getLastD ""

/-- The candidate when the functions have it. -/
def known (functions : Dict String FunctionFact) (candidate : String) : Option String :=
  if (functions.get? candidate).isSome then some candidate else none

/-- The only function of a short name. -/
def onlyNamed (functions : Dict String FunctionFact) (short : String) : Option String :=
  match functions.keys.filter fun symbol => lastPart symbol = short with
  | [symbol] => some symbol
  | _ => none

/-- A method of one of the services, named through `state` or through `self`. -/
def serviceMethod (functions : Dict String FunctionFact) (parts : List String) : Option String :=
  let afterState := (parts.dropWhile (· ≠ "state")).tail
  let state := match afterState with
    | service :: method :: _ =>
      (stateServiceClasses.lookup service).bind fun owner => known functions (owner ++ "." ++ method)
    | _ => none
  let self := match parts with
    | "self" :: service :: rest =>
      (selfServiceClasses.lookup service).bind fun owner =>
        known functions (owner ++ "." ++ rest.getLastD service)
    | _ => none
  state.or self

/-- `_resolve_call` -/
def resolveCall (functions : Dict String FunctionFact) (fact : FunctionFact) (func : PyExpr) :
    Option String :=
  let rendered := dottedName func
  if rendered = "" ∨ rendered ∈ ignoredCalls ∨ lastPart rendered ∈ ignoredCallSuffixes then none
  else match func with
    | .name id =>
      ((fact.imports.get? id).bind (known functions)).or
        ((known functions (fact.module ++ "." ++ id)).or (onlyNamed functions id))
    | .attribute value attr =>
      let owned := match value with
        | .name owner =>
          let own := if owner = "self" then
              fact.className.bind fun className =>
                known functions (fact.module ++ "." ++ className ++ "." ++ attr)
            else none
          own.or ((fact.imports.get? owner).bind fun imported =>
            known functions (imported ++ "." ++ attr))
        | _ => none
      owned.or (serviceMethod functions (rendered.splitOn "."))
    | _ => none

/-! SQL. -/

/-- The characters of a name in SQL, whatever their case. -/
def isNameStart (c : Char) : Bool := (foldCase c).isLower || c = '_'

def isNamePart (c : Char) : Bool := isNameStart c || c.isDigit

/-- `[a-z_][a-z0-9_]*`, as a group. -/
def sqlName : Pattern :=
  .group (.append (.one isNameStart) (.many isNamePart))

def blanks : Pattern := .some1 Text.isSpace

def sqlKeyword : Pattern :=
  .all [.boundary, .group (.any [ignoringCase "SELECT", ignoringCase "INSERT",
    ignoringCase "UPDATE", ignoringCase "DELETE"]), .boundary]

def joinWords (s : String) : String :=
  String.ofList (List.intercalate [' '] (Text.words s.toList))

/-- `_sql_text`, with the characters of words. -/
def sqlText (word : Char → Bool) : PyExpr → Option String
  | .text value =>
    if (sqlKeyword.search word none (joinWords value).toList).isSome then some (joinWords value)
    else none
  | .call _ _ (.attribute value attr) args _ =>
    if attr = "format" then sqlText word value
    else match args with
      | first :: _ => sqlText word first
      | [] => none
  | .call _ _ _ (first :: _) _ => sqlText word first
  | _ => none

def upperLetter (c : Char) : Char :=
  if c.toNat = 0x17f then 'S' else if c.toNat = 0x131 then 'I' else c.toUpper

def upperText (s : List Char) : String := String.ofList (s.map upperLetter)

/-- `_sql_operation` -/
def sqlOperation (word : Char → Bool) (statement : String) : String :=
  match sqlKeyword.search word none statement.toList with
  | some m => upperText (m.group 0)
  | none => "SQL"

/-- `str.lower()` of a name in SQL. -/
def lowerName (s : List Char) : String :=
  String.ofList (s.flatMap fun c =>
    if c.toNat = 0x130 then ['i', Char.ofNat 0x307]
    else if c.toNat = 0x212a then ['k'] else [c.toLower])

/-- `_sql_tables` -/
def sqlTables (word : Char → Bool) (statement : String) : List String :=
  let found := ["FROM", "JOIN", "INTO", "UPDATE"].flatMap fun keyword =>
    (Pattern.all [.boundary, ignoringCase keyword, blanks, sqlName]).findAll word 0 none
      statement.toList
  (found.map fun m => lowerName (m.group 0)).foldl
    (fun tables name => if name ∈ tables then tables else tables ++ [name]) []

/-- The triggers of a migration: their names, tables and functions. -/
def sqlTrigger : Pattern :=
  .all [ignoringCase "CREATE", blanks,
    .optional (.append (ignoringCase "CONSTRAINT") blanks), ignoringCase "TRIGGER", blanks, sqlName,
    .chars (fun _ => true) 0 none false, .one Text.isSpace, ignoringCase "ON", blanks, sqlName,
    .chars (fun _ => true) 0 none false, ignoringCase "EXECUTE", blanks, ignoringCase "FUNCTION",
    blanks, sqlName, .many Text.isSpace, ignoringCase "(", .many Text.isSpace, ignoringCase ")"]

end Bantam
