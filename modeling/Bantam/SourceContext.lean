import Bantam.Provenance
import Bantam.Redaction
import Bantam.RepositoryFetch

/-! The source context that a model is shown: which files are excerpted, and what is kept of a file
within the limits on bytes. -/
namespace Bantam

/-! Source trees. -/

inductive ContextRepository where
  | application
  | terraform
deriving DecidableEq, Repr

def ContextRepository.name : ContextRepository → String
  | .application => "application"
  | .terraform => "terraform"

/-- A regular file that is no link, by its path below the root; its bytes, if they can be read. -/
structure SourceFile where
  parts : List String
  bytes : Option (List UInt8)

/-- What the context rests on: `str.casefold`, the characters that `\w` matches and the hash of
bytes. -/
structure ContextReaders where
  casefold : String → String
  word : Char → Bool
  sha256 : List UInt8 → String

/-- `MAX_CONTEXT_FILES` -/
def maxContextFiles : Nat := 12

/-- `MAX_CONTEXT_BYTES` -/
def maxContextBytes : Nat := 16000

/-- `MAX_APPLICATION_BYTES` -/
def maxApplicationBytes : Nat := 10000

/-- `MAX_TERRAFORM_BYTES` -/
def maxTerraformBytes : Nat := 6000

/-- `MAX_FILE_EXCERPT_BYTES` -/
def maxFileExcerptBytes : Nat := 2600

/-- `MAX_SOURCE_FILE_BYTES` of the source context. -/
def maxContextSourceBytes : Nat := 1048576

/-- `_APPLICATION_FILE_LIMIT` -/
def applicationFileLimit : Nat := 7

/-- `_TERRAFORM_FILE_LIMIT` -/
def terraformFileLimit : Nat := 5

/-- `_EXCLUDED_COMPONENTS` -/
def excludedComponents : List String :=
  [".git", ".terraform", ".venv", ".pytest_cache", ".ruff_cache", "__pycache__", "build",
    "coverage", "dist", "htmlcov", "node_modules", "vendor"]

/-- `_EXCLUDED_NAMES`, which have no capitals. -/
def excludedNames : List String :=
  [".env", ".env.local", "credentials.json", "service-account.json", "terraform.tfstate",
    "terraform.tfstate.backup"]

/-- `_APPLICATION_ROOT_FILES` -/
def applicationRootFiles : List String := ["Dockerfile", "pyproject.toml", "README.md"]

/-- `_APPLICATION_SUFFIXES` -/
def applicationSuffixes : List String :=
  [".json", ".md", ".py", ".sql", ".toml", ".ts", ".tsx", ".yaml", ".yml"]

/-- `_SOURCE_KEYWORDS` -/
def sourceKeywords : List String :=
  ["authenticated", "authorization", "csrf", "require_roles", "@app.", "session", "admin",
    "account", "transfer", "asvs"]

/-- `_TERRAFORM_KEYWORDS` -/
def terraformKeywords : List String :=
  ["google_cloud_run", "service_account", "secret_manager", "ingress", "iam", "vpc", "firewall",
    "cloud_sql", "database", "ssl"]

def ContextRepository.keywords : ContextRepository → List String
  | .application => sourceKeywords
  | .terraform => terraformKeywords

/-- The name of a file, the last part of its path. -/
def SourceFile.fileName (file : SourceFile) : String := file.parts.getLastD ""

/-- `_priority` -/
def SourceFile.priority (repository : ContextRepository) (file : SourceFile) : Nat :=
  let path := posixPath file.parts
  match repository with
  | .terraform =>
    (([("runtime.tf", 0), ("iam.tf", 1), ("secrets.tf", 2), ("network.tf", 3), ("database.tf", 4),
      ("migrations.tf", 5), ("variables.tf", 6), ("locals.tf", 7)] : List (String × Nat)).lookup
        file.fileName).getD 20
  | .application =>
    (([("bantam/api.py", 0), ("bantam/auth.py", 1), ("bantam/security.py", 2),
      ("bantam/schemas.py", 3), ("bantam/asvs.py", 4), ("bantam/config.py", 5),
      ("bantam/domain.py", 6)] : List (String × Nat)).lookup path).getD
        (if path.startsWith "security/aspis/asvs/" then 7
        else if path.startsWith "migrations/" then 8
        else if path.startsWith "bantam/" then 10
        else 30)

section Candidates
variable (readers : ContextReaders)

/-- `_excluded` -/
def SourceFile.isExcluded (file : SourceFile) : Bool :=
  file.parts.any (fun part => readers.casefold part ∈ excludedComponents) ||
    decide (readers.casefold file.fileName ∈ excludedNames)

/-- `_allowed` -/
def SourceFile.isAllowed (repository : ContextRepository) (file : SourceFile) : Bool :=
  !file.isExcluded readers && match repository with
    | .terraform => file.fileName.endsWith ".tf" || file.fileName.endsWith ".tf.json"
    | .application =>
      (file.parts.length = 1 && applicationRootFiles.contains file.fileName) ||
        ((file.parts.head?.any fun first =>
          ["bantam", "migrations", "security", "web"].contains first) &&
          applicationSuffixes.contains (readers.casefold (pathSuffix file.fileName)))

/-- The order of `_candidate_paths`: by priority and path. -/
def candidateOrder (repository : ContextRepository) (a b : SourceFile) : Bool :=
  decide (a.priority repository < b.priority repository) ||
    (decide (a.priority repository = b.priority repository) &&
      decide (posixPath a.parts ≤ posixPath b.parts))

/-- `_candidate_paths` -/
def candidatePaths (repository : ContextRepository) (root : List SourceFile) : List SourceFile :=
  (root.filter fun file => file.isAllowed readers repository).mergeSort (candidateOrder repository)
end Candidates

/-! Excerpts. -/

/-- What is left of a text in so many bytes; a character that is cut is left out. -/
def takeBytes : Nat → List Char → List Char
  | _, [] => []
  | available, c :: rest =>
    if c.utf8Size ≤ available then c :: takeBytes (available - c.utf8Size) rest else []

def truncatedLine : List Char := "...[excerpt truncated]".toList

/-- `_bounded_text` -/
def boundedText (value : List Char) (limit : Nat) : List Char :=
  if Text.utf8Length value ≤ limit then value
  else
    let marker := '\n' :: truncatedLine
    takeBytes (limit - Text.utf8Length marker) value ++ marker

/-- `f"{index + 1:04d}: {line}"` -/
def numberedLine (item : List Char × Nat) : List Char :=
  List.leftpad 4 '0' (Nat.toDigits 10 (item.2 + 1)) ++ ':' :: ' ' :: item.1

/-- The selected lines with their numbers. -/
def renderLines (lines : List (List Char)) (selected : List Nat) : List Char :=
  Text.joinLines ((lines.zipIdx.filter fun item => item.2 ∈ selected).map numberedLine)

/-- The lines around a hit. -/
def hitWindow (lines : List (List Char)) (hit : Nat) : List Nat :=
  (List.range (min lines.length (hit + 5))).drop (hit - 3)

/-- The lines around the hits, until they fill the limit. -/
def selectLines (lines : List (List Char)) (limit : Nat) : List Nat → List Nat → List Nat
  | selected, [] => selected
  | selected, hit :: rest =>
    let selected := selected ++ hitWindow lines hit
    if limit ≤ Text.utf8Length (renderLines lines selected) then selected
    else selectLines lines limit selected rest

section Excerpts
variable (readers : ContextReaders) (repository : ContextRepository)

/-- The lines with a keyword, or the first line. -/
def keywordHits (lines : List (List Char)) : List Nat :=
  let hits := (lines.zipIdx.filter fun item => repository.keywords.any fun keyword =>
    Text.isInfix keyword.toList (readers.casefold (String.ofList item.1)).toList).map (·.2)
  if hits = [] then [0] else hits

/-- `_excerpt`, and whether it is of a part of the text. -/
def excerptOf (text : List Char) (limit : Nat) : List Char × Bool :=
  let lines := Text.splitLines text
  let numbered := Text.joinLines (lines.zipIdx.map numberedLine)
  if Text.utf8Length numbered ≤ limit then (numbered, false)
  else
    let selected := selectLines lines limit [] (keywordHits readers repository lines)
    (boundedText (renderLines lines selected) limit, true)

structure SourceDocument where
  repository : ContextRepository
  path : String
  sha256 : String
  sourceBytes : Nat
  includedBytes : Nat
  truncated : Bool
  excerpt : List Char
deriving DecidableEq, Repr

/-- The text of a file that is read: neither too large nor with a null byte, and UTF-8. -/
def SourceFile.text (file : SourceFile) : Option (List UInt8 × List Char) :=
  file.bytes.bind fun raw =>
    if maxContextSourceBytes < raw.length ∨ 0 ∈ raw then none
    else (Json.decodeUtf8 raw).map fun text => (raw, text)

/-- The text of a file as it is excerpted. -/
def redactedText (text : List Char) : List Char :=
  (redactSensitiveText readers.word (String.ofList text)).toList

/-- `_read_source_file` -/
def readSourceFile (file : SourceFile) (limit : Nat) : Option SourceDocument :=
  file.text.map fun read =>
    let excerpt := excerptOf readers repository (redactedText readers read.2) limit
    { repository := repository
      path := posixPath file.parts
      sha256 := readers.sha256 read.1
      sourceBytes := read.1.length
      includedBytes := Text.utf8Length excerpt.1
      truncated := excerpt.2
      excerpt := excerpt.1 }

/-- The loop of `_collect`; `room` is how many more files there may be. -/
def collectFrom : Nat → Nat → List SourceFile → List SourceDocument
  | _, _, [] => []
  | room, remaining, file :: rest =>
    if room = 0 ∨ remaining < 256 then []
    else match readSourceFile readers repository file (min maxFileExcerptBytes remaining) with
      | none => collectFrom room remaining rest
      | some document =>
        if document.includedBytes = 0 then collectFrom room remaining rest
        else document :: collectFrom (room - 1) (remaining - document.includedBytes) rest

/-- `_collect` -/
def collectDocuments (fileLimit byteLimit : Nat) (root : List SourceFile) : List SourceDocument :=
  collectFrom readers repository fileLimit byteLimit (candidatePaths readers repository root)
end Excerpts

/-! The context. -/

def SourceDocument.toJson (document : SourceDocument) : Json :=
  .obj [("repository", .str document.repository.name), ("path", .str document.path),
    ("sha256", .str document.sha256), ("source_bytes", .nat document.sourceBytes),
    ("included_bytes", .nat document.includedBytes), ("truncated", .bool document.truncated),
    ("excerpt", .str (String.ofList document.excerpt))]

/-- What the path of a root leads to: nothing, a file, or a directory with the files below it. -/
inductive SourceRoot where
  | missing
  | notDirectory
  | directory (files : List SourceFile)

/-- How `build_source_context` ends without a context. -/
inductive SourceContextError where
  | unavailable (label : String)
  | notDirectory (label : String)
  | incomplete
  | aggregateLimit
deriving DecidableEq, Repr

def SourceContextError.message : SourceContextError → String
  | .unavailable label => label ++ " source root is unavailable"
  | .notDirectory label => label ++ " source root is not a directory"
  | .incomplete => "both application source and Terraform source are required"
  | .aggregateLimit => "source context exceeded its safe aggregate limit"

/-- The document of the context, whose digest is that of every captured document. -/
def sourceContextDocument (files : List SourceDocument) : SourceSnapshot where
  members := [("schema_version", .str "1.0"),
    ("limits", .obj [("max_files", .nat maxContextFiles), ("max_bytes", .nat maxContextBytes),
      ("max_file_excerpt_bytes", .nat maxFileExcerptBytes)]),
    ("included_files", .nat files.length),
    ("included_bytes", .nat (files.map (·.includedBytes)).sum),
    ("files", .arr (files.map SourceDocument.toJson))]

section Building
variable (readers : ContextReaders)

/-- `_normalise_root` -/
def normaliseRoot (label : String) : SourceRoot → Except SourceContextError (List SourceFile)
  | .missing => .error (.unavailable label)
  | .notDirectory => .error (.notDirectory label)
  | .directory files => .ok files

/-- The documents of both repositories. -/
def contextFiles (application terraform : List SourceFile) : List SourceDocument :=
  collectDocuments readers .application applicationFileLimit maxApplicationBytes application ++
    collectDocuments readers .terraform terraformFileLimit maxTerraformBytes terraform

/-- `build_source_context` -/
def buildSourceContext (application terraform : SourceRoot) :
    Except SourceContextError SourceSnapshot := do
  let application ← normaliseRoot "application" application
  let terraform ← normaliseRoot "terraform" terraform
  let files := contextFiles readers application terraform
  if ¬(files.any (·.repository = .application) ∧ files.any (·.repository = .terraform)) then
    .error .incomplete
  else if maxContextFiles < files.length ∨
      maxContextBytes < (files.map (·.includedBytes)).sum then .error .aggregateLimit
  else pure (sourceContextDocument files)
end Building

end Bantam
