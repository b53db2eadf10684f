import Bantam.Lib.Text
import Mathlib.Data.List.Nodup

/-! A fragment of the policy language Rego: rules with a name, whose bodies compare references
into a document with scalars. -/
namespace Rego

inductive Scalar where
  | number (n : Nat)
  | string (s : List Char)
  deriving DecidableEq

structure Equation where
  path : List (List Char)
  value : Scalar
  deriving DecidableEq

structure Rule where
  name : List Char
  body : List Equation
  deriving DecidableEq

structure Policy where
  package : List Char
  rules : List Rule
  deriving DecidableEq

/-- What a document has at a reference, if anything. -/
abbrev Document := List (List Char) → Option Scalar

/-! Meaning. -/

def Equation.holds (document : Document) (e : Equation) : Bool := document e.path = some e.value

def Rule.holds (document : Document) (r : Rule) : Bool := r.body.all (·.holds document)

/-- The rules of a name are alternatives. -/
def Policy.holds (policy : Policy) (document : Document) (name : List Char) : Bool :=
  policy.rules.any fun r => r.name = name && r.holds document

/-- The order of the rules and how often one stands there mean nothing. -/
theorem Policy.holds_congr {p q : Policy} (h : ∀ r, r ∈ p.rules ↔ r ∈ q.rules)
    (document : Document) (name : List Char) :
    p.holds document name = q.holds document name := by
  rw [Bool.eq_iff_iff, Policy.holds, Policy.holds, List.any_eq_true, List.any_eq_true]
  exact exists_congr fun r => and_congr_left fun _ => h r

/-- Where names are not repeated, a name means the rule that has it. -/
theorem Policy.holds_rule {p : Policy} (hnames : (p.rules.map Rule.name).Nodup) {r : Rule}
    (hr : r ∈ p.rules) (document : Document) : p.holds document r.name = r.holds document := by
  rw [Bool.eq_iff_iff, Policy.holds, List.any_eq_true]
  constructor
  · rintro ⟨q, hq, hholds⟩
    simp only [Bool.and_eq_true, decide_eq_true_eq] at hholds
    obtain rfl : q = r := List.inj_on_of_nodup_map hnames hq hr hholds.1
    exact hholds.2
  · exact fun hholds => ⟨r, hr, by simp [hholds]⟩

/-! Reading. -/

def isNameChar (c : Char) : Bool := c.isAlphanum || c = '_'

/-- A name and what follows it. -/
def readName (s : List Char) : Option (List Char × List Char) :=
  match s.takeWhile isNameChar with
  | [] => none
  | c :: name => if c.isDigit then none else some (c :: name, s.dropWhile isNameChar)

/-- The keys of a reference after its root, in either notation, and what follows it. -/
def readKeys : Nat → List Char → List (List Char) × List Char
  | n + 1, '.' :: s =>
    let (keys, rest) := readKeys n (s.dropWhile isNameChar)
    (s.takeWhile isNameChar :: keys, rest)
  | n + 1, '[' :: '"' :: s =>
    match s.dropWhile (· ≠ '"') with
    | '"' :: ']' :: rest =>
      let (keys, rest) := readKeys n rest
      (s.takeWhile (· ≠ '"') :: keys, rest)
    | _ => ([], '[' :: '"' :: s)
  | _, s => ([], s)

def digitsValue (s : List Char) : Nat := s.foldl (fun n c => 10 * n + (c.toNat - 0x30)) 0

/-- A number without a leading zero, or a string without escapes. -/
def readScalar : List Char → Option Scalar
  | '"' :: s =>
    if s.dropWhile (· ≠ '"') = ['"'] ∧ '\\' ∉ s then some (.string (s.takeWhile (· ≠ '"')))
    else none
  | s =>
    if s ≠ [] ∧ s.all Char.isDigit ∧ (s.head? = some '0' → s = ['0']) then
      some (.number (digitsValue s))
    else none

def readEquation (line : List Char) : Option Equation :=
  (readName line).bind fun (root, s) =>
    match readKeys s.length s with
    | (keys, ' ' :: '=' :: '=' :: ' ' :: s) => (readScalar s).map fun v => ⟨root :: keys, v⟩
    | _ => none

def readHead (line : List Char) : Option (List Char) :=
  (readName line).bind fun (name, s) => if s = " if \x7b".toList then some name else none

/-- The rules of some lines, with the one that is being read. -/
def readRules : Option Rule → List (List Char) → Option (List Rule)
  | none, [] => some []
  | some _, [] => none
  | none, line :: lines => (readHead line).bind fun name => readRules (some ⟨name, []⟩) lines
  | some r, line :: lines =>
    if line = ['\x7d'] then
      if r.body = [] then none else (readRules none lines).map (r :: ·)
    else
      (readEquation line).bind fun e => readRules (some ⟨r.name, r.body ++ [e]⟩) lines

/-- The lines of a text, with the one that is being read. -/
def linesFrom (line : List Char) : List Char → List (List Char)
  | [] => [line]
  | '\n' :: s => line :: linesFrom [] s
  | c :: s => linesFrom (line ++ [c]) s

def isBlank (c : Char) : Bool := c = ' ' || c = '\t'

/-- The lines that are not blank, without the blanks around them. -/
def lines (s : List Char) : List (List Char) :=
  ((linesFrom [] s).map (Text.trimBy isBlank)).filter (!·.isEmpty)

/-- A module with its package and the import of the present version of the language. -/
def read (s : List Char) : Option Policy :=
  match lines s with
  | head :: use :: rest =>
    if "package ".toList.isPrefixOf head ∧ use = "import rego.v1".toList then
      (readRules none rest).map fun rules => ⟨head.drop "package ".toList.length, rules⟩
    else none
  | _ => none

section Reading
variable {p : Char → Bool} {s name key rest tail : List Char} {n : Nat}

/-- What stops a run of characters: the end, or a character that is none of them. -/
def Stops (p : Char → Bool) (rest : List Char) : Prop := ∀ c, rest.head? = some c → p c = false

theorem takeWhile_stops (hs : ∀ c ∈ s, p c = true) (hrest : Stops p rest) :
    (s ++ rest).takeWhile p = s ∧ (s ++ rest).dropWhile p = rest := by
  rw [List.takeWhile_append_of_pos hs, List.dropWhile_append_of_pos hs]
  cases rest with
  | nil => simp
  | cons c rest =>
    have hc : p c = false := hrest c rfl
    simp [hc]

theorem readName_append {c : Char} (hc : c.isDigit = false)
    (hname : ∀ d ∈ c :: name, isNameChar d = true) (hrest : Stops isNameChar rest) :
    readName (c :: name ++ rest) = some (c :: name, rest) := by
  obtain ⟨htake, hdrop⟩ := takeWhile_stops hname hrest
  rw [readName, htake, hdrop]
  simp [hc]

theorem readKeys_member (hkey : ∀ c ∈ key, isNameChar c = true) (hrest : Stops isNameChar rest) :
    readKeys (n + 1) ('.' :: (key ++ rest)) =
      (key :: (readKeys n rest).1, (readKeys n rest).2) := by
  obtain ⟨htake, hdrop⟩ := takeWhile_stops hkey hrest
  rw [readKeys, htake, hdrop]

theorem readKeys_index (hkey : '"' ∉ key) :
    readKeys (n + 1) ('[' :: '"' :: (key ++ '"' :: ']' :: rest)) =
      (key :: (readKeys n rest).1, (readKeys n rest).2) := by
  have hall : ∀ c ∈ key, decide (c ≠ '"') = true :=
    fun c hc => decide_eq_true fun he => hkey (he ▸ hc)
  have hstop : Stops (fun c => decide (c ≠ '"')) ('"' :: ']' :: rest) := by
    intro c hc
    cases hc
    rfl
  obtain ⟨htake, hdrop⟩ := takeWhile_stops hall hstop
  rw [readKeys, htake, hdrop]
  rfl

theorem readKeys_blank : readKeys n (' ' :: rest) = ([], ' ' :: rest) := by
  cases n <;> rfl

/-- A reference with an index in the middle, as the rules over a table of results have them. -/
theorem readEquation_index (root table : List Char) {id : List Char} {c : Char} {v : Scalar}
    (hc : c.isDigit = false) (hroot : ∀ d ∈ c :: root, isNameChar d = true)
    (htable : ∀ d ∈ table, isNameChar d = true) (hid : '"' ∉ id)
    (hkey : ∀ d ∈ key, isNameChar d = true) (hv : readScalar tail = some v) :
    readEquation (c :: root ++ ('.' :: (table ++ ('[' :: '"' :: (id ++ '"' :: ']' ::
      ('.' :: (key ++ (' ' :: '=' :: '=' :: ' ' :: tail)))))))) =
      some ⟨[c :: root, table, id, key], v⟩ := by
  have stops : ∀ (d : Char) (s : List Char), isNameChar d = false → Stops isNameChar (d :: s) := by
    intro d s hd e he
    cases he
    exact hd
  rw [readEquation, readName_append hc hroot (stops _ _ (by decide)), Option.bind_some]
  simp only
  obtain ⟨n, hn⟩ : ∃ n, ('.' :: (table ++ ('[' :: '"' :: (id ++ '"' :: ']' ::
      ('.' :: (key ++ (' ' :: '=' :: '=' :: ' ' :: tail))))))).length = n + 1 + 1 + 1 := by
    refine ⟨(table ++ (id ++ (key ++ tail))).length + 7, ?_⟩
    simp only [List.length_cons, List.length_append]
    omega
  rw [hn, readKeys_member htable (stops _ _ (by decide)), readKeys_index hid,
    readKeys_member hkey (stops _ _ (by decide)), readKeys_blank]
  exact congrArg (Option.map _) hv

theorem readHead_append {c : Char} (hc : c.isDigit = false)
    (hname : ∀ d ∈ c :: name, isNameChar d = true) :
    readHead (c :: name ++ " if \x7b".toList) = some (c :: name) := by
  have hstop : Stops isNameChar " if \x7b".toList := by
    intro d hd
    cases hd
    decide
  rw [readHead, readName_append hc hname hstop]
  rfl

theorem readScalar_string (hs : '"' ∉ s) (hescape : '\\' ∉ s) :
    readScalar ('"' :: (s ++ ['"'])) = some (.string s) := by
  have hall : ∀ c ∈ s, decide (c ≠ '"') = true :=
    fun c hc => decide_eq_true fun he => hs (he ▸ hc)
  have hstop : Stops (fun c => decide (c ≠ '"')) ['"'] := by
    intro c hc
    cases hc
    rfl
  obtain ⟨htake, hdrop⟩ := takeWhile_stops hall hstop
  rw [readScalar, htake, hdrop, if_pos ⟨rfl, by simp [hescape]⟩]

theorem readScalar_number {c : Char} (hc : c ≠ '0') (hs : ∀ d ∈ c :: s, d.isDigit = true) :
    readScalar (c :: s) = some (.number (digitsValue (c :: s))) := by
  unfold readScalar
  split
  · rename_i t heq
    obtain ⟨rfl, -⟩ := List.cons_eq_cons.mp heq
    exact absurd (hs '"' List.mem_cons_self) (by decide)
  · have hleading : (c :: s).head? = some '0' → c :: s = ['0'] :=
      fun hzero => absurd (Option.some.inj hzero) hc
    rw [if_pos ⟨List.cons_ne_nil c s, List.all_eq_true.mpr hs, hleading⟩]

theorem read_lines {package : List Char} {body : List (List Char)} {rules : List Rule}
    (hlines : lines s = ("package ".toList ++ package) :: "import rego.v1".toList :: body)
    (hbody : readRules none body = some rules) : read s = some ⟨package, rules⟩ := by
  have hpackage : "package ".toList.isPrefixOf ("package ".toList ++ package) = true :=
    List.isPrefixOf_iff_prefix.mpr (List.prefix_append _ _)
  rw [read, hlines]
  dsimp only
  rw [if_pos ⟨hpackage, rfl⟩, hbody, Option.map_some, List.drop_left]

/-- A rule with its head, its equations and its brace is read off the front. -/
theorem readRules_rule {head : List Char} {equations : List (List Char)} (body : List Equation)
    (hhead : readHead head = some name) (hbody : equations.map readEquation = body.map some)
    (hne : body ≠ []) (hopen : ['\x7d'] ∉ equations) (lines : List (List Char)) :
    readRules none (head :: (equations ++ ['\x7d'] :: lines)) =
      (readRules none lines).map (⟨name, body⟩ :: ·) := by
  have enter : ∀ (equations : List (List Char)) (body before : List Equation),
      equations.map readEquation = body.map some → ['\x7d'] ∉ equations → before ++ body ≠ [] →
      readRules (some ⟨name, before⟩) (equations ++ ['\x7d'] :: lines) =
        (readRules none lines).map (⟨name, before ++ body⟩ :: ·) := by
    intro equations
    induction equations with
    | nil =>
      intro body before hbody _ hne
      obtain rfl : body = [] := by simpa using hbody.symm
      rw [List.append_nil] at hne ⊢
      rw [List.nil_append, readRules, if_pos rfl, if_neg hne]
    | cons line equations ih =>
      intro body before hbody hopen hne
      rw [List.mem_cons, not_or] at hopen
      obtain ⟨hline, hrest⟩ := hopen
      cases body with
      | nil => cases hbody
      | cons e body =>
        obtain ⟨he, hbody⟩ := List.cons_eq_cons.mp hbody
        rw [List.cons_append, readRules, if_neg (Ne.symm hline), he, Option.bind_some,
          ih body (before ++ [e]) hbody hrest (by simp), List.append_assoc]
        rfl
  rw [readRules, hhead, Option.bind_some, enter equations body [] hbody hopen hne,
    List.nil_append]

end Reading

end Rego
