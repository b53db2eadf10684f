import Bantam.PythonCatalog
import Bantam.TerraformSource

/-! The catalogue of a Terraform repository, and of a repository with both languages. -/
namespace Bantam

/-! Blocks. -/

/-- `_node_kind` -/
def terraformKind (blockType : String) : String :=
  (([("resource", "terraform_resource"), ("data", "terraform_data"), ("module", "terraform_module"),
    ("variable", "terraform_variable"), ("output", "terraform_output"),
    ("provider", "terraform_provider"), ("locals", "terraform_local"), ("check", "check")] :
    List (String × String)).lookup blockType).getD "terraform_block"

/-- The members of an object by their keys. -/
def sortedMembers : Json → List (String × Json)
  | .obj members => members.mergeSort fun a b => decide (a.1 ≤ b.1)
  | _ => []

def jsonText (s : String) : String := String.ofList (Json.quote true s)

/-- The blocks of one type in a document of `.tf.json`. -/
def jsonBlocksOf (file blockType : String) (blocks : Json) : List TerraformBlock :=
  if blockType = "resource" ∨ blockType = "data" then
    (sortedMembers blocks).flatMap fun kind => (sortedMembers kind.2).map fun instance_ =>
      { blockType := blockType
        labels := [kind.1, instance_.1]
        file := file
        line := 1
        body := instance_.2.canonical
        signature := blockType ++ " " ++ jsonText kind.1 ++ " " ++ jsonText instance_.1 }
  else
    (sortedMembers blocks).map fun entry =>
      let labels := if blockType = "terraform" ∨ blockType = "locals" then [] else [entry.1]
      { blockType := blockType
        labels := labels
        file := file
        line := 1
        body := entry.2.canonical
        signature := if labels = [] then blockType else blockType ++ " " ++ jsonText entry.1 }

def jsonBlockTypes : List String :=
  ["resource", "data", "module", "variable", "output", "provider", "terraform", "locals", "check"]

def jsonBlocks (file : String) (document : Json) : List TerraformBlock :=
  (sortedMembers document).flatMap fun entry =>
    if entry.1 ∈ jsonBlockTypes then jsonBlocksOf file entry.1 entry.2 else []

/-- What a file contributes: that it cannot be read, or its blocks. -/
inductive TerraformItem where
  | parseError (node : CodeNode)
  | block (block : TerraformBlock)

section Reading
variable (readers : SourceReaders)

def terraformError (file : TreeFile) (line : Nat) : CodeNode :=
  { id := "parse-error:terraform:" ++ posixPath file.1 ++ ":" ++ toString line
    kind := "parse_error"
    file := posixPath file.1
    line := line }

/-- A text file; a label that cannot be read ends the build. -/
def textItems (file : TreeFile) : Except Failure (List TerraformItem) :=
  match hclBlocks readers.word readers.named file.2 (posixPath file.1) with
  | none => .error (.runtime "unicode_escape")
  | some blocks =>
    .ok (if (maskHcl readers.word 0 file.2.toList).contains '\x7b' ∧ blocks = [] then
      [.parseError (terraformError file 1)]
    else blocks.map .block)

def jsonItems (file : TreeFile) : List TerraformItem :=
  match readers.loads file.2 with
  | .error line => [.parseError (terraformError file line)]
  | .ok document => (jsonBlocks (posixPath file.1) document).map .block

def unexcluded (suffix : String) (tree : List TreeFile) : List TreeFile :=
  (filesEnding suffix tree).filter fun file => !isExcluded file

/-- The files in the order of `_index_blocks`. -/
def terraformItems (tree : List TreeFile) : Except Failure (List TerraformItem) := do
  let texts ← (unexcluded ".tf" tree).mapM (textItems readers)
  pure (texts.flatten ++ (unexcluded ".tf.json" tree).flatMap (jsonItems readers))
end Reading

/-! The builder. -/

structure TerraformState where
  graph : CodeGraph
  blocks : Dict String TerraformBlock
  addressToId : Dict String String

/-- A check for each validation of a variable that has a condition; `occurrence` counts the
validations. -/
def variableChecks (word : Char → Bool) (nodeId address : String) (block : TerraformBlock) :
    Nat → List Pattern.Match → List CodeNode
  | _, [] => []
  | occurrence, validation :: rest =>
    let later := variableChecks word nodeId address block (occurrence + 1) rest
    if (hclCondition.search word none (validation.group 0)).isSome then
      { id := "check:" ++ nodeId ++ ":" ++ toString occurrence
        kind := "check"
        functionSymbol := address
        signature := block.signature
        file := block.file
        line := block.line +
          (block.body.toList.take (block.body.length - validation.text.length)).count '\n' } :: later
    else later

section Builder
variable (readers : SourceReaders)

def plainId (address : String) (block : TerraformBlock) : String :=
  "terraform:" ++ block.blockType ++ ":" ++ address

/-- The identifier of a block: with its place where its address is taken. -/
def blockId (graph : CodeGraph) (address : String) (block : TerraformBlock) : String :=
  if plainId address block ∈ graph.nodes.keys then
    plainId address block ++ "@" ++ block.file ++ ":" ++ toString block.line
  else plainId address block

def blockNode (nodeId address : String) (block : TerraformBlock) : CodeNode :=
  { id := nodeId
    kind := terraformKind block.blockType
    address := address
    signature := block.signature
    file := block.file
    line := block.line }

def CodeGraph.addCheck (nodeId : String) (graph : CodeGraph) (check : CodeNode) : CodeGraph :=
  (graph.addNode check).addEdge ⟨nodeId, check.id, "checks"⟩ none

/-- `_add_block` -/
def TerraformState.addBlock (state : TerraformState) (block : TerraformBlock) : TerraformState :=
  let address := terraformAddress readers.sha256 block
  let nodeId := blockId state.graph address block
  let checks := if block.blockType = "variable" then
      variableChecks readers.word nodeId address block 1
        (hclValidation.findAll readers.word 0 none block.body.toList)
    else []
  { graph := checks.foldl (CodeGraph.addCheck nodeId)
      (state.graph.addNode (blockNode nodeId address block))
    blocks := state.blocks.set nodeId block
    addressToId := if (state.addressToId.get? address).isSome then state.addressToId
      else state.addressToId.set address nodeId }

def TerraformState.addItem (state : TerraformState) : TerraformItem → TerraformState
  | .parseError node => { state with graph := state.graph.addNode node }
  | .block block => state.addBlock readers block

/-- `_index_blocks`, for the items of the files. -/
def indexBlocks (items : List TerraformItem) : TerraformState :=
  items.foldl (TerraformState.addItem readers) ⟨.empty, .empty, .empty⟩

/-- `_index_blocks` -/
def indexTree (tree : List TreeFile) : Except Failure TerraformState :=
  (terraformItems readers tree).map (indexBlocks readers)

/-- The identifiers that a block refers to. -/
def references (state : TerraformState) (block : TerraformBlock) : List String :=
  let found := (hclReference.findAll readers.word 0 none block.body.toList).map fun m =>
    String.ofList m.whole
  (Text.sorted found.dedup).filterMap state.addressToId.get?

/-- `_index_references` -/
def indexReferences (state : TerraformState) : CodeGraph :=
  state.blocks.items.foldl (fun graph item =>
    ((references readers state item.2).filter (· ≠ item.1)).foldl
      (fun graph target => graph.addEdge ⟨item.1, target, "depends_on"⟩ none) graph) state.graph

/-- What of a Terraform node a document can mention. -/
def terraformMentions (node : CodeNode) (lowered : String) : Bool :=
  (5 ≤ node.address.length && mentionedIn node.address lowered) ||
    (8 ≤ node.signature.length && mentionedIn node.signature lowered)

/-- The nodes that a node depends on. -/
def dependencies (graph : CodeGraph) (nodeId : String) : List String :=
  graph.edges.keys.filterMap fun edge =>
    if edge.type = "depends_on" ∧ edge.source = nodeId then some edge.target else none

/-- `visit`; nine rounds are left at depth zero. -/
def visitDependencies (graph : CodeGraph) : Nat → List String → String → List String
  | 0, result, _ => result
  | rounds + 1, result, current =>
    if current ∈ result then result
    else (Text.sorted (dependencies graph current)).foldl (visitDependencies graph rounds)
      (result ++ [current])

/-- `_dependency_sequence` -/
def dependencySequence (graph : CodeGraph) (nodeId : String) : List String :=
  (visitDependencies graph 9 [] nodeId).take 160

/-- The kinds of nodes with a flow of their own. -/
def flowKinds : List String := ["terraform_resource", "terraform_module", "terraform_output"]

/-- `_flows` -/
def terraformFlows (graph : CodeGraph) : List CodeFlow :=
  (((graph.nodes.items.map (·.2)).mergeSort fun a b => decide (a.id ≤ b.id)).filter fun node =>
      node.kind ∈ flowKinds).map fun node =>
    { flowId := "default:terraform:" ++ node.address
      actorRoles := ["SYSTEM"]
      nodeIds := dependencySequence graph node.id }

def itemError : TerraformItem → Option CodeNode
  | .parseError node => some node
  | .block _ => none

/-- `TerraformCatalogBuilder.build`, for the items of the files. -/
def terraformCatalog (tree : List TreeFile) (items : List TerraformItem) : RepositoryCatalog :=
  let state := indexBlocks readers items
  let documented := (indexReferences readers state).indexDocuments
    (documentNodes (redactSensitiveText readers.word) tree) terraformMentions
  let flows := terraformFlows documented
  (flows.foldl CodeGraph.addFlow documented).catalog flows (items.filterMap itemError)

def buildTerraformCatalog (tree : List TreeFile) : Except Failure RepositoryCatalog := do
  let items ← terraformItems readers tree
  pure (terraformCatalog readers tree items)

/-! Both languages. -/

def CodeGraph.mergeEdge (graph : CodeGraph) (edge : GraphEdge × List String) : CodeGraph :=
  edge.2.foldl (fun graph flowId => graph.addEdge edge.1 (some flowId)) (graph.addEdge edge.1 none)

def CodeGraph.mergeCatalog (graph : CodeGraph) (catalog : RepositoryCatalog) : CodeGraph :=
  catalog.edges.foldl CodeGraph.mergeEdge (catalog.nodes.foldl CodeGraph.addNode graph)

/-- `_merge_catalogs` -/
def mergeCatalogs (catalogs : List RepositoryCatalog) : RepositoryCatalog :=
  (catalogs.foldl CodeGraph.mergeCatalog .empty).catalog (catalogs.flatMap (·.defaultFlows))
    (catalogs.flatMap (·.parseErrors))

/-- `MAX_GRAPH_BYTES` -/
def maxGraphBytes : Nat := 4000000

def graphTooLarge : BantamError :=
  ⟨"REPOSITORY_GRAPH_TOO_LARGE", "generated graph exceeds the safe persistence limit", 422⟩

def pythonPart (snapshot : RepositorySnapshot) : List RepositoryCatalog :=
  if snapshot.detectedLanguage = .terraform then []
  else [buildPythonCatalog readers snapshot.tree]

def terraformPart (snapshot : RepositorySnapshot) : Except Failure (List RepositoryCatalog) :=
  if snapshot.detectedLanguage = .python then .ok []
  else (buildTerraformCatalog readers snapshot.tree).map ([·])

/-- `build_repository_catalog` -/
def buildRepositoryCatalog (snapshot : RepositorySnapshot) : Except Failure RepositoryCatalog := do
  let terraform ← terraformPart readers snapshot
  let catalog := mergeCatalogs (pythonPart readers snapshot ++ terraform)
  if maxGraphBytes < readers.serialisedSize catalog then .error (.bantam graphTooLarge)
  else pure catalog
end Builder

end Bantam
