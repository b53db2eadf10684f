import Bantam.GraphProjection
import Mathlib.Data.List.Lex
import Mathlib.Data.String.Basic

/-! The graph that the builders of a catalogue fill, and what every builder keeps of it. -/
namespace Bantam

/-! Source trees. -/

structure RepositoryFile where
  path : String
  content : String
deriving DecidableEq, Repr

inductive SourceLanguage where
  | python
  | terraform
  | mixed
deriving DecidableEq, Repr

structure RepositorySnapshot where
  files : List RepositoryFile
  detectedLanguage : SourceLanguage
deriving DecidableEq, Repr

/-- A file of the tree by the parts of its path. -/
abbrev TreeFile := List String × String

/-- `PurePosixPath(path).parts`, for a path that does not start with a slash. -/
def pathParts (path : String) : List String :=
  ((path.toList.splitOn '/').map String.ofList).filter fun part => part ≠ "" ∧ part ≠ "."

/-- `path.as_posix()` -/
def posixPath (parts : List String) : String := "/".intercalate parts

/-- The files as they are written to a directory, a later one over an earlier one. -/
def RepositorySnapshot.tree (snapshot : RepositorySnapshot) : List TreeFile :=
  (Dict.ofList (snapshot.files.map fun file => (pathParts file.path, file.content))).items

/-- `sorted(root.rglob("*" + suffix))` -/
def filesEnding (suffix : String) (tree : List TreeFile) : List TreeFile :=
  (tree.filter fun file => (file.1.getLast?.getD "").endsWith suffix).mergeSort
    fun a b => decide (a.1 ≤ b.1)

/-- `_EXCLUDED_PARTS` -/
def excludedParts : List String :=
  [".git", ".terraform", ".venv", "__pycache__", "build", "dist", "htmlcov", "node_modules",
    "vendor"]

def isExcluded (file : TreeFile) : Bool := file.1.any fun part => Text.lower part ∈ excludedParts

/-! Nodes and edges. -/

/-- A node of the graph, with the members that the builders read again. -/
structure CodeNode where
  id : String
  kind : String
  file : String := ""
  line : Nat := 1
  symbol : String := ""
  functionSymbol : String := ""
  path : String := ""
  tables : List String := []
  address : String := ""
  signature : String := ""
deriving DecidableEq, Repr

structure CodeFlow where
  flowId : String
  actorRoles : List String
  nodeIds : List String
deriving DecidableEq, Repr

/-- `self.nodes` and `self.edges`, an edge with the flows that pass it. -/
structure CodeGraph where
  nodes : Dict String CodeNode
  edges : Dict GraphEdge (List String)

namespace CodeGraph

def empty : CodeGraph := ⟨.empty, .empty⟩

/-- `self.nodes[node["id"]] = node` -/
def addNode (graph : CodeGraph) (node : CodeNode) : CodeGraph :=
  { graph with nodes := graph.nodes.set node.id node }

/-- `_edge` -/
def addEdge (graph : CodeGraph) (edge : GraphEdge) (flowId : Option String) : CodeGraph :=
  let flowIds := (graph.edges.get? edge).getD []
  let listed := match flowId with
    | some flowId => if flowId ∈ flowIds then flowIds else Text.sorted (flowIds ++ [flowId])
    | none => flowIds
  { graph with edges := graph.edges.set edge listed }

/-- An edge of type `next` between consecutive nodes of a flow. -/
def addFlow (graph : CodeGraph) (flow : CodeFlow) : CodeGraph :=
  (flow.nodeIds.zip flow.nodeIds.tail).foldl
    (fun graph pair => graph.addEdge ⟨pair.1, pair.2, "next"⟩ (some flow.flowId)) graph

/-- A `documented_by` edge wherever `mentions` finds a node in a document. -/
def addMentions (documents : List (CodeNode × String)) (mentions : CodeNode → String → Bool)
    (nodes : List CodeNode) (graph : CodeGraph) : CodeGraph :=
  nodes.foldl (fun graph node =>
    (documents.filter fun document => mentions node document.2).foldl
      (fun graph document => graph.addEdge ⟨node.id, document.1.id, "documented_by"⟩ none) graph)
    graph

end CodeGraph

/-- `MAX_DOCUMENTATION_FILES` -/
def maxDocumentationFiles : Nat := 24

/-- The documents of a tree with their texts, as both builders index them. -/
def documentNodes (redact : String → String) (tree : List TreeFile) : List (CodeNode × String) :=
  ((filesEnding ".md" tree).take maxDocumentationFiles).map fun file =>
    ({ id := "documentation:" ++ posixPath file.1, kind := "documentation",
       file := posixPath file.1 }, Text.lower (redact file.2))

/-- `marker.casefold() in lowered` -/
def mentionedIn (marker lowered : String) : Bool :=
  Text.isInfix (Text.lower marker).toList lowered.toList

end Bantam
