import Bantam.CodeGraph
import Bantam.Lib.Base64
import Bantam.Lib.JsonBytes

/-! Snapshots of a repository, as the provider's answers are read into them. -/
namespace Bantam

/-! Sources. -/

inductive RequestedLanguage where
  | auto
  | python
  | terraform
deriving DecidableEq, Repr

structure RepositorySource where
  repository : String
  ref : String
  rootPath : String
  language : RequestedLanguage
deriving DecidableEq, Repr

/-- `str.strip("/")` -/
def stripSlashes (s : String) : String := String.ofList (Text.trimBy (· = '/') s.toList)

def invalidRepositoryPath : Failure :=
  .bantam ⟨"INVALID_REPOSITORY_PATH", "repository path is invalid", 422⟩

/-- `PurePosixPath(path).as_posix()` of a relative path. -/
def posixText (parts : List String) : String := if parts = [] then "." else posixPath parts

/-- `_safe_root_path`; `casefold` is that of strings. -/
def safeRootPath (casefold : String → String) (value : String) : Except Failure String :=
  let raw := stripSlashes (Text.strip value)
  if raw = "" then .ok ""
  else if raw.toList.contains '\\' ∨ 500 < Text.utf8Length raw.toList then
    .error invalidRepositoryPath
  else
    let parts := pathParts raw
    if parts.any (fun part => part ∈ ["", ".", ".."]) ∨
        parts.any (fun part => casefold part ∈ excludedParts) ∨
        raw.toList.any (fun c => c.toNat < 32 || c.toNat = 127) then .error invalidRepositoryPath
    else .ok (posixText parts)

/-! What of a tree is fetched. -/

/-- `MAX_SOURCE_FILE_BYTES` -/
def maxSourceFileBytes : Nat := 750000

/-- `MAX_REPOSITORY_BYTES` -/
def maxRepositoryBytes : Nat := 8000000

/-- `MAX_CODE_FILES` -/
def maxCodeFiles : Nat := 360

/-- `PurePosixPath(path).name` -/
def pathName (path : String) : String := (pathParts path).getLastD ""

/-- `PurePosixPath(name).suffix` -/
def pathSuffix (name : String) : String :=
  let extension := (name.toList.reverse.takeWhile (· ≠ '.')).reverse
  if extension ≠ [] ∧ extension.length + 1 < name.length then "." ++ String.ofList extension else ""

/-- `_PYTHON_SUFFIXES` -/
def pythonSuffixes : List String := [".py", ".sql"]

/-- `path.casefold().endswith(_TERRAFORM_SUFFIXES)` -/
def isTerraformPath (casefold : String → String) (path : String) : Bool :=
  (casefold path).endsWith ".tf" || (casefold path).endsWith ".tf.json"

/-- `_eligible`: whether a file is fetched, and whether it is a document. -/
def eligible (casefold : String → String) (path : String) (language : RequestedLanguage) :
    Bool × Bool :=
  let parts := pathParts path
  if parts.any fun part => casefold part ∈ excludedParts then (false, false)
  else
    let documentation := (casefold path).endsWith ".md" &&
      (["readme.md", "documentation.md"].contains (casefold (pathName path)) ||
        (parts.map casefold).contains "docs")
    let python := pythonSuffixes.contains (casefold (pathSuffix (pathName path)))
    let terraform := isTerraformPath casefold path
    match language with
    | .python => (python || documentation, documentation)
    | .terraform => (terraform || documentation, documentation)
    | .auto => (python || terraform || documentation, documentation)

structure TreeEntry where
  path : String
  sha : String
  size : Int
deriving DecidableEq, Repr

/-- The path of a file below the root of the source, if it stands there. -/
def relativePath (rootPath path : String) : Option String :=
  let root := if rootPath = "" then [] else rootPath.toList ++ ['/']
  let relative := path.toList.drop root.length
  if root.isPrefixOf path.toList ∧ relative ≠ [] ∧ relative.head? ≠ some '/' then
    some (String.ofList relative)
  else none

/-- A declared size that is an integer within the limit; none is declared as zero. -/
def declaredSize (entry : Json) : Option Int :=
  let size := match entry.get? "size" with
    | none => some 0
    | some (.num text) => if isInteger text then text.toInt? else none
    | some (.bool b) => some (if b then 1 else 0)
    | some _ => none
  size.filter fun size => 0 ≤ size ∧ size ≤ (maxSourceFileBytes : Int)

def fileTooLarge (path : String) : Failure :=
  .bantam ⟨"REPOSITORY_FILE_TOO_LARGE", "repository file exceeds the safe limit: " ++ path, 422⟩

/-- An entry of the tree, if it is to be fetched, and whether it is a document. -/
def treeEntry (casefold : String → String) (source : RepositorySource) (entry : Json) :
    Except Failure (Option (Bool × TreeEntry)) :=
  match entry.get? "type", entry.get? "path", entry.get? "sha" with
  | some (.str "blob"), some (.str path), some (.str sha) =>
    match relativePath source.rootPath path with
    | none => .ok none
    | some relative =>
      let told := eligible casefold relative source.language
      if !told.1 then .ok none
      else match declaredSize entry with
        | none => .error (fileTooLarge relative)
        | some size => .ok (some (told.2, ⟨relative, sha, size⟩))
  | _, _, _ => .ok none

/-- The order of code: by path, hash and size. -/
def codeOrder (a b : TreeEntry) : Bool :=
  decide (a.path < b.path) || (decide (a.path = b.path) && (decide (a.sha < b.sha) ||
    (decide (a.sha = b.sha) && decide (a.size ≤ b.size))))

def documentRank (casefold : String → String) (path : String) : Nat :=
  if path.startsWith "docs/reference/flows/" then 0
  else if casefold (pathName path) = "readme.md" then 1
  else 2

/-- The order of documents: by rank and path. -/
def documentOrder (casefold : String → String) (a b : TreeEntry) : Bool :=
  decide (documentRank casefold a.path < documentRank casefold b.path) ||
    (decide (documentRank casefold a.path = documentRank casefold b.path) &&
      decide (a.path ≤ b.path))

def invalidResponse (message : String) : Failure :=
  .bantam ⟨"REPOSITORY_RESPONSE_INVALID", message, 502⟩

def tooManyFiles : Failure :=
  .bantam ⟨"REPOSITORY_TOO_MANY_FILES", "repository contains more than 360 eligible code files", 422⟩

def sourceEmpty : Failure :=
  .bantam ⟨"REPOSITORY_SOURCE_EMPTY",
    "repository path contains no eligible Python or Terraform source", 422⟩

def repositoryTooLarge : Failure :=
  .bantam ⟨"REPOSITORY_TOO_LARGE", "repository source exceeds the safe ingestion byte limit", 422⟩

/-- The entries of the tree that are fetched, in the order in which they are. -/
def selectEntries (casefold : String → String) (source : RepositorySource) (entries : List Json) :
    Except Failure (List TreeEntry) := do
  let found ← entries.mapM (treeEntry casefold source)
  let code := ((found.filterMap id).filter fun item => !item.1).map (·.2)
  let documents := ((found.filterMap id).filter fun item => item.1).map (·.2)
  if maxCodeFiles < code.length then .error tooManyFiles
  else if code = [] then .error sourceEmpty
  else
    let selected := code.mergeSort codeOrder ++
      (documents.mergeSort (documentOrder casefold)).take maxDocumentationFiles
    if (maxRepositoryBytes : Int) < (selected.map (·.size)).sum then .error repositoryTooLarge
    else .ok selected

/-! Blobs. -/

/-- A file of a snapshot. -/
structure FetchedFile where
  path : String
  sha : String
  content : List Char
deriving DecidableEq, Repr

/-- What an answer of the provider says of a blob, in base64. -/
def blobText (sha : String) (blob : List (String × Json)) : Option String :=
  match Json.member? "sha" blob, Json.member? "encoding" blob, Json.member? "content" blob with
  | some (.str found), some (.str "base64"), some (.str content) =>
    if found = sha then some content else none
  | _, _, _ => none

/-- The bytes of a blob and its text. -/
def decodeBlob (content : String) : Option (List UInt8 × List Char) :=
  (Base64.decode (content.toList.filter fun c => !Text.isSpace c)).bind fun raw =>
    (Json.decodeUtf8 raw).map fun text => (raw, text)

/-- What a request to the provider gives: the document read from its answer, or a failure. -/
abbrev Provider := Nat → Except Failure (List (String × Json))

/-- One file, from the answer for its blob, with the bytes read so far. -/
def readFile (entry : TreeEntry) (blob : List (String × Json)) (total : Nat) :
    Except Failure (FetchedFile × Nat) :=
  match blobText entry.sha blob with
  | none => .error (invalidResponse ("GitHub returned an invalid source blob for " ++ entry.path))
  | some content =>
    match decodeBlob content with
    | none => .error (.bantam ⟨"REPOSITORY_SOURCE_INVALID",
        "repository source is not valid UTF-8: " ++ entry.path, 422⟩)
    | some (raw, text) =>
      if maxRepositoryBytes < total + raw.length then .error repositoryTooLarge
      else .ok (⟨entry.path, entry.sha, text⟩, total + raw.length)

/-- The files of the entries; `request` counts the requests made before. -/
def readFiles (provider : Provider) : Nat → Nat → List TreeEntry → Except Failure (List FetchedFile)
  | _, _, [] => .ok []
  | request, total, entry :: rest => do
    let blob ← provider request
    let (file, total) ← readFile entry blob total
    let files ← readFiles provider (request + 1) total rest
    pure (file :: files)

/-! Snapshots. -/

structure FetchedSnapshot where
  source : RepositorySource
  resolvedCommit : String
  files : List FetchedFile
  detectedLanguage : SourceLanguage
  sourceSha256 : String
deriving DecidableEq, Repr

/-- `re.fullmatch(r"[0-9a-f]{40,64}", s)` -/
def isObjectId (s : String) : Bool :=
  40 ≤ s.length && s.length ≤ 64 && s.toList.all fun c => c.isDigit || ('a' ≤ c && c ≤ 'f')

/-- The hash of the commit's tree; an object without the members that are read in it ends the
fetch. -/
def treeSha (commit : List (String × Json)) : Except Failure (Option Json) :=
  match Json.member? "commit" commit with
  | some (.obj members) =>
    match (Json.member? "tree" members).getD (.obj []) with
    | .obj tree => .ok (Json.member? "sha" tree)
    | _ => .error (.runtime "AttributeError")
  | _ => .ok none

/-- The commit and the tree that a ref is resolved to. -/
def resolveRef (commit : List (String × Json)) : Except Failure (String × String) := do
  match Json.member? "sha" commit, ← treeSha commit with
  | some (.str resolved), some (.str tree) =>
    if isObjectId resolved && isObjectId tree then pure (resolved, tree)
    else .error (invalidResponse "GitHub did not resolve the requested repository ref")
  | _, _ => .error (invalidResponse "GitHub did not resolve the requested repository ref")

/-- The entries of a tree. -/
def treeEntries (tree : List (String × Json)) : Except Failure (List Json) :=
  match Json.member? "truncated" tree, Json.member? "tree" tree with
  | some (.bool true), _ => .error (.bantam ⟨"REPOSITORY_TREE_TOO_LARGE",
      "repository tree is too large for a complete deterministic snapshot", 422⟩)
  | _, some (.arr entries) => .ok entries
  | _, _ => .error (invalidResponse "GitHub returned an invalid repository tree")

def detectLanguage (casefold : String → String) (files : List FetchedFile) : SourceLanguage :=
  let python := files.any fun file => file.path.endsWith ".py"
  let terraform := files.any fun file => isTerraformPath casefold file.path
  if python && terraform then .mixed else if python then .python else .terraform

/-- A file as the manifest has it. -/
def FetchedFile.manifest (file : FetchedFile) : Json :=
  .obj [("path", .str file.path), ("sha", .str file.sha),
    ("bytes", .nat (Text.utf8Length file.content))]

section
variable (casefold : String → String) (sha256 : String → String)

/-- The commit of a snapshot and the entries that it is read from. -/
def fetchPlan (provider : Provider) (source : RepositorySource) :
    Except Failure (String × List TreeEntry) := do
  let (resolvedCommit, _) ← resolveRef (← provider 0)
  let entries ← treeEntries (← provider 1)
  let selected ← selectEntries casefold source entries
  pure (resolvedCommit, selected)

/-- `GitHubRepositoryClient.fetch`; the requests are numbered in their order. -/
def fetch (provider : Provider) (source : RepositorySource) : Except Failure FetchedSnapshot := do
  let (resolvedCommit, selected) ← fetchPlan casefold provider source
  let files ← readFiles provider 2 0 selected
  pure {
    source := source
    resolvedCommit := resolvedCommit
    files := files
    detectedLanguage := detectLanguage casefold files
    sourceSha256 := sha256 (Json.canonical (.arr (files.map FetchedFile.manifest))) }
end

end Bantam
