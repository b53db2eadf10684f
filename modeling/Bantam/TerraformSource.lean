import Bantam.Lib.Json
import Bantam.Lib.Literals
import Bantam.Lib.Pattern
import Bantam.Redaction

/-! Terraform sources: the blocks of a text and what the catalogue reads off them. -/
namespace Bantam

/-! Regular expressions. -/

def isHclStart (c : Char) : Bool := c.isAlpha || c = '_'

def isHclPart (c : Char) : Bool := c.isAlphanum || c = '_' || c = '-'

def tabs : Pattern := .many fun c => c = ' ' || c = '\t'

/-- A string in quotes; `content` is the pattern of what is between them. -/
def quotedText (content : Pattern → Pattern) : Pattern :=
  .all [exactly "\"", content (.star (.either (.one fun c => c != '"' && c != '\\')
    (.append (exactly "\\") (.one fun c => c != '\n')))), exactly "\""]

/-- `_HCL_HEADER`: the type of a block and its labels as groups. -/
def hclHeader : Pattern :=
  let label := Pattern.append (.some1 fun c => c = ' ' || c = '\t') (quotedText id)
  .all [.lineStart, tabs,
    .group (.any (["resource", "data", "module", "variable", "output", "provider", "terraform",
      "locals", "check", "moved", "import"].map exactly)),
    .boundary, .group (.optional (.append label (.optional label))), tabs, exactly "\x7b"]

def hclName : Pattern := .append (.one isHclStart) (.many isHclPart)

/-- `_HCL_REFERENCE` -/
def hclReference : Pattern :=
  .all [.boundary,
    .any [.append (exactly "var.") hclName, .append (exactly "local.") hclName,
      .append (exactly "module.") hclName, .all [exactly "data.", hclName, exactly ".", hclName],
      .all [hclName, exactly ".", hclName]],
    .boundary]

/-- The marker of a heredoc. -/
def heredocMarker : Pattern :=
  .all [exactly "<<", .optional (exactly "-"),
    .group (.append (.one isHclStart) (.many isWordByte))]

/-- The line that ends a heredoc. -/
def heredocEnd (delimiter : List Char) : Pattern :=
  .all [.lineStart, tabs, exactly (String.ofList delimiter), tabs, .lineEnd]

/-- A validation of a variable, its body as a group. -/
def hclValidation : Pattern :=
  .all [.boundary, exactly "validation", .many Text.isSpace, exactly "\x7b",
    .group (.chars (fun _ => true) 0 none false), exactly "\x7d"]

/-- The condition of a validation, as a group. -/
def hclCondition : Pattern :=
  .all [.boundary, exactly "condition", .many Text.isSpace, exactly "=", .many Text.isSpace,
    .group (.chars (fun _ => true) 1 none false),
    .either (.all [exactly "\n", .many Text.isSpace, exactly "error_message", .many Text.isSpace,
      exactly "="]) .lineEnd]

/-! Masking. -/

/-- Blanks for what is no line break. -/
def blanked (s : List Char) : List Char := s.map fun c => if c = '\n' then '\n' else ' '

/-- The characters up to and with the first line that `finds` tells to end a heredoc. -/
def heredocLength (word : Char → Bool) (s : List Char) : Option Nat :=
  (heredocMarker.matchAt word none s).map fun m =>
    let head := m.whole.length + (m.after.takeWhile (· ≠ '\n')).length
    let body := s.drop (head + 1)
    match (heredocEnd (m.group 0)).search word none body with
    | some closing => head + 1 + (body.length - closing.after.length)
    | none => s.length

/-- The characters of a comment between `/*` and `*/` after its opening. -/
def commentLength : List Char → Nat
  | [] => 0
  | '*' :: '/' :: _ => 2
  | _ :: rest => commentLength rest + 1

/-- The characters of a string after its opening quote. -/
def stringLength : List Char → Nat
  | [] => 0
  | ['\\'] => 1
  | '\\' :: _ :: rest => stringLength rest + 2
  | '"' :: _ => 1
  | _ :: rest => stringLength rest + 1

/-- How many characters `_mask_hcl` blanks at a place. -/
def maskedLength (word : Char → Bool) (s : List Char) : Nat :=
  match s with
  | '<' :: '<' :: _ => (heredocLength word s).getD 0
  | '/' :: '*' :: rest => commentLength rest + 2
  | '/' :: '/' :: _ | '#' :: _ => (s.takeWhile (· ≠ '\n')).length
  | '"' :: rest => stringLength rest + 1
  | _ => 0

/-- `_mask_hcl`; `skip` counts what is still to be blanked. -/
def maskHcl (word : Char → Bool) : Nat → List Char → List Char
  | _, [] => []
  | skip + 1, c :: rest => (if c = '\n' then '\n' else ' ') :: maskHcl word skip rest
  | 0, c :: rest =>
    match maskedLength word (c :: rest) with
    | 0 => c :: maskHcl word 0 rest
    | length + 1 => (if c = '\n' then '\n' else ' ') :: maskHcl word length rest

/-! Labels. -/

/-- A number of `k` hexadecimal digits and the text after it. -/
def hexRun (k : Nat) (s : List Char) : Option (Nat × List Char) :=
  if s.length < k then none else (Text.hexNumber (s.take k)).map fun n => (n, s.drop k)

/-- A name in braces, as `named` knows it, and the text after it; no name has a backslash. -/
def nameRun (named : List Char → Option Nat) : List Char → Option (Nat × List Char)
  | '\x7b' :: rest =>
    let name := rest.takeWhile (· ≠ '\x7d')
    if '\x7d' ∈ rest ∧ '\\' ∉ name then (named name).map fun n => (n, rest.drop (name.length + 1))
    else none
  | _ => none

/-- The code points that an escape stands for and the text after it; none for an escape that is cut
off or stands for nothing. -/
def escapeAt (named : List Char → Option Nat) : List Char → Option (List Nat × List Char)
  | [] => none
  | 'x' :: rest => (hexRun 2 rest).map fun run => ([run.1], run.2)
  | 'u' :: rest => (hexRun 4 rest).map fun run => ([run.1], run.2)
  | 'U' :: rest =>
    ((hexRun 8 rest).filter fun run => run.1 ≤ 0x10ffff).map fun run => ([run.1], run.2)
  | 'N' :: rest => (nameRun named rest).map fun run => ([run.1], run.2)
  | '\n' :: rest => some ([], rest)
  | c :: rest =>
    match (c :: rest).take 3 |>.takeWhile fun d => (Literals.octal d).isSome with
    | [] =>
      match Literals.simpleEscape c with
      | some d => some ([d.toNat], rest)
      | none => some (['\\'.toNat, c.toNat], rest)
    | digits => some ([digits.foldl (fun n d => 8 * n + (d.toNat - 0x30)) 0],
        (c :: rest).drop digits.length)

/-- `bytes.decode("unicode_escape")`, in as many rounds as there are bytes. -/
def unicodeEscape (named : List Char → Option Nat) : Nat → List Char → Option (List Nat)
  | 0, _ | _, [] => some []
  | rounds + 1, c :: rest =>
    if c = '\\' then
      (escapeAt named rest).bind fun (points, rest) =>
        (unicodeEscape named rounds rest).map (points ++ ·)
    else (unicodeEscape named rounds rest).map (c.toNat :: ·)

/-- The bytes of a text, each as a character. -/
def labelBytes (label : List Char) : List Char :=
  (String.ofList label).toUTF8.toList.map fun b => Char.ofNat b.toNat

/-- A label as it is read: its bytes, and the escapes among them. A lone surrogate, which an
escape may stand for, is no character here and becomes the null character. -/
def decodeLabel (named : List Char → Option Nat) (label : List Char) : Option String :=
  (unicodeEscape named (labelBytes label).length (labelBytes label)).map fun points =>
    String.ofList (points.map Char.ofNat)

/-! Blocks. -/

/-- `TerraformBlock` -/
structure TerraformBlock where
  blockType : String
  labels : List String
  file : String
  line : Nat
  body : String
  signature : String
deriving DecidableEq, Repr

/-- The characters up to the brace that closes the block open at depth `depth`. -/
def closingBrace : Nat → List Char → Option Nat
  | _, [] => none
  | depth, c :: rest =>
    if c = '\x7b' then (closingBrace (depth + 1) rest).map (· + 1)
    else if c = '\x7d' then
      if depth ≤ 1 then some 0 else (closingBrace (depth - 1) rest).map (· + 1)
    else (closingBrace depth rest).map (· + 1)

/-- `signature`: the type of a block and its labels as JSON. -/
def blockSignature (blockType : String) (labels : List String) : String :=
  if labels = [] then blockType
  else blockType ++ " " ++ " ".intercalate (labels.map fun label => String.ofList (Json.quote true label))

/-- Where the header of a match begins. -/
def headerStart (text : List Char) (m : Pattern.Match) : Nat := text.length - m.text.length

/-- Where the brace of a header opens its block. -/
def headerOpening (text : List Char) (m : Pattern.Match) : Nat := text.length - m.after.length - 1

/-- The characters from the opening brace of a block to the closing one; none where the header is
masked or its block is never closed. -/
def hclSpan (text masked : List Char) (m : Pattern.Match) : Option Nat :=
  if Text.stripChars ((masked.drop (headerStart text m)).take (m.group 0).length) ≠ m.group 0
  then none
  else closingBrace 0 (masked.drop (headerOpening text m))

/-- The labels of a header as they are written, without their quotes. -/
def headerLabels (word : Char → Bool) (m : Pattern.Match) : List (List Char) :=
  ((quotedText .group).findAll word 0 none (m.group 1)).map (·.group 0)

section
variable (word : Char → Bool) (named : List Char → Option Nat)

/-- The block whose header is matched, if it is one; none when a label cannot be read. -/
def hclBlock (text masked : List Char) (file : String) (m : Pattern.Match) :
    Option (Option TerraformBlock) :=
  match hclSpan text masked m with
  | none => some none
  | some length =>
    ((headerLabels word m).mapM (decodeLabel named)).map fun labels =>
      some {
        blockType := String.ofList (m.group 0)
        labels := labels
        file := file
        line := (text.take (headerStart text m)).count '\n' + 1
        body := String.ofList ((text.drop (headerOpening text m + 1)).take (length - 1))
        signature := blockSignature (String.ofList (m.group 0)) labels }

/-- `_hcl_blocks`; none when a label cannot be read. -/
def hclBlocks (text file : String) : Option (List TerraformBlock) :=
  let masked := maskHcl word 0 text.toList
  ((hclHeader.findAll word 0 none text.toList).mapM
    (hclBlock word named text.toList masked file)).map (·.filterMap id)
end

/-- `_terraform_address` -/
def terraformAddress (sha256 : String → String) (block : TerraformBlock) : String :=
  let suffix := String.ofList ((sha256 (block.file ++ ":" ++ toString block.line)).toList.take 10)
  match block.blockType, block.labels with
  | "resource", [first, second] => first ++ "." ++ second
  | "data", [first, second] => "data." ++ first ++ "." ++ second
  | "variable", first :: _ => "var." ++ first
  | "module", first :: _ => "module." ++ first
  | "output", first :: _ => "output." ++ first
  | "provider", first :: _ => "provider." ++ first
  | "check", first :: _ => "check." ++ first
  | "moved", first :: _ => "moved." ++ first
  | "import", first :: _ => "import." ++ first
  | blockType, _ => blockType ++ "." ++ suffix

end Bantam
