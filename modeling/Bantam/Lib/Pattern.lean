import Mathlib.Data.List.Basic
import Mathlib.Tactic.Common

/-! Regular expressions over code points, tried in the order of a backtracking matcher. -/

inductive Pattern where
  | empty
  | chars (p : Char → Bool) (low : Nat) (high : Option Nat) (greedy : Bool)
  | boundary
  | lineStart
  | lineEnd
  | finish
  | append (a b : Pattern)
  | either (a b : Pattern)
  | star (a : Pattern)
  | group (a : Pattern)

namespace Pattern

/-- A place in a text: the character before it, the rest of the text, and the texts of the groups
closed on the way there. -/
structure Place where
  before : Option Char
  rest : List Char
  groups : List (List Char) := []

def one (p : Char → Bool) : Pattern := chars p 1 (some 1) true

/-- `p+` -/
def some1 (p : Char → Bool) : Pattern := chars p 1 none true

/-- `p*` -/
def many (p : Char → Bool) : Pattern := chars p 0 none true

def optional (a : Pattern) : Pattern := either a empty

/-- The patterns one after the other. -/
def all : List Pattern → Pattern
  | [] => empty
  | [a] => a
  | a :: rest => append a (all rest)

def any : List Pattern → Pattern
  | [] => one fun _ => false
  | [a] => a
  | a :: rest => either a (any rest)

/-- The characters of a text one after the other, each as `same` compares it. -/
def literal (same : Char → Char → Bool) (s : String) : Pattern :=
  all (s.toList.map fun x => one (same x))

/-- Where a repetition of `p` can end: the longest first where it is greedy. -/
def charsEnds (p : Char → Bool) (greedy : Bool) (groups : List (List Char)) :
    Nat → Option Nat → Option Char → List Char → List Place
  | low, _, before, [] => if low = 0 then [⟨before, [], groups⟩] else []
  | low, high, before, x :: rest =>
    let stop := if low = 0 then [⟨before, x :: rest, groups⟩] else []
    let more := if p x = true ∧ high ≠ some 0
      then charsEnds p greedy groups (low - 1) (high.map (· - 1)) (some x) rest else []
    if greedy then more ++ stop else stop ++ more

/-- Where repetitions of a pattern can end, the longest first; one that takes nothing is not
repeated. -/
def starEnds (next : Place → List Place) : Nat → Place → List Place
  | 0, place => [place]
  | rounds + 1, place =>
    ((next place).filter fun after => after.rest.length < place.rest.length).flatMap
      (starEnds next rounds) ++ [place]

/-- Where a match that starts at the place can end, in the order in which they are tried; `word`
tells the characters of a word. -/
def ends (word : Char → Bool) : Pattern → Place → List Place
  | empty, place => [place]
  | chars p low high greedy, place =>
    charsEnds p greedy place.groups low high place.before place.rest
  | boundary, place =>
    if place.before.any word ≠ place.rest.head?.any word then [place] else []
  | lineStart, place => if place.before.all (· = '\n') then [place] else []
  | lineEnd, place => if place.rest.head?.all (· = '\n') then [place] else []
  | finish, place => if place.rest = [] ∨ place.rest = ['\n'] then [place] else []
  | append a b, place => (a.ends word place).flatMap (b.ends word)
  | either a b, place => a.ends word place ++ b.ends word place
  | star a, place => starEnds (a.ends word) place.rest.length place
  | group a, place => (a.ends word place).map fun after =>
      { after with
        groups := after.groups ++ [place.rest.take (place.rest.length - after.rest.length)] }

/-- A match: the text from its start on, its groups and the text after it. -/
structure Match where
  text : List Char
  groups : List (List Char)
  after : List Char

/-- The text that is matched. -/
def Match.whole (m : Match) : List Char := m.text.take (m.text.length - m.after.length)

def Match.group (m : Match) (n : Nat) : List Char := m.groups[n]?.getD []

/-- `re.match`, at a place after the character `before`. -/
def matchAt (word : Char → Bool) (a : Pattern) (before : Option Char) (s : List Char) :
    Option Match :=
  (a.ends word ⟨before, s, []⟩).head?.map fun place => ⟨s, place.groups, place.rest⟩

/-- `re.search` -/
def search (word : Char → Bool) (a : Pattern) : Option Char → List Char → Option Match
  | before, [] => a.matchAt word before []
  | before, x :: rest =>
    (a.matchAt word before (x :: rest)).or (search word a (some x) rest)

/-- `re.finditer`, for a pattern that matches no empty text; `skip` counts what is left of the
match before. -/
def findAll (word : Char → Bool) (a : Pattern) : Nat → Option Char → List Char → List Match
  | _, _, [] => []
  | skip + 1, _, x :: rest => findAll word a skip (some x) rest
  | 0, before, x :: rest =>
    match a.matchAt word before (x :: rest) with
    | some m => m :: findAll word a (rest.length - m.after.length) (some x) rest
    | none => findAll word a 0 (some x) rest

/-- `re.sub`, for a pattern that matches no empty text. -/
def sub (word : Char → Bool) (a : Pattern) (replacement : List Char) :
    Nat → Option Char → List Char → List Char
  | _, _, [] => []
  | skip + 1, _, x :: rest => sub word a replacement skip (some x) rest
  | 0, before, x :: rest =>
    match a.matchAt word before (x :: rest) with
    | some m => replacement ++ sub word a replacement (rest.length - m.after.length) (some x) rest
    | none => x :: sub word a replacement 0 (some x) rest

end Pattern
