import Bantam.Lib.Matching
import Bantam.Lib.Text
import Mathlib.Data.List.Forall2

/-! What is taken out of a text before a model is shown it. -/
namespace Bantam

open Pattern

/-- How `re.IGNORECASE` compares with an ASCII letter. -/
def foldCase (c : Char) : Char :=
  if c.toNat = 0x130 ∨ c.toNat = 0x131 then 'i'
  else if c.toNat = 0x17f then 's'
  else if c.toNat = 0x212a then 'k'
  else c.toLower

def exactly (s : String) : Pattern := literal (fun x c => c = x) s

section
variable {word : Char → Bool} {before : Option Char} {w : String}

theorem mem_ends_exactly {place q : Place} (h : q ∈ (exactly w).ends word place) :
    place.rest = w.toList ++ q.rest := by
  obtain ⟨taken, hrest, htaken⟩ := mem_ends_literal h
  have hsame : w.toList.Forall₂ Eq taken := htaken.imp fun _ _ hx => (of_decide_eq_true hx).symm
  rw [List.forall₂_eq_eq_eq] at hsame
  rw [hrest, ← hsame]

theorem ends_exactly_append {s : List Char} {groups : List (List Char)} :
    (exactly w).ends word ⟨before, w.toList ++ s, groups⟩ =
      [⟨reached before w.toList, s, groups⟩] :=
  ends_literal (List.forall₂_same.mpr fun _ _ => decide_eq_true rfl)

theorem ends_exactly {s : List Char} {groups : List (List Char)} :
    (exactly w).ends word ⟨before, s, groups⟩ =
      (s.dropPrefix? w.toList).toList.map fun t => ⟨reached before w.toList, t, groups⟩ := by
  cases hs : s.dropPrefix? w.toList with
  | none =>
    rw [Option.toList_none, List.map_nil, List.eq_nil_iff_forall_not_mem]
    intro q hq
    have hrest : s = w.toList ++ q.rest := mem_ends_exactly hq
    rw [hrest, List.dropPrefix?_append_of_beq _ (by simp)] at hs
    cases hs
  | some t =>
    obtain ⟨w', rfl, hw⟩ := List.dropPrefix?_eq_some_iff.mp hs
    obtain rfl := eq_of_beq hw
    exact ends_exactly_append

end

def ignoringCase (s : String) : Pattern := literal (fun x c => foldCase c = foldCase x) s

def isWordByte (c : Char) : Bool := c.isAlphanum || c = '_'

def isTokenByte (c : Char) : Bool := isWordByte c || c = '-'

/-- `[_-]?` -/
def separator : Pattern := optional (one fun c => c = '_' || c = '-')

/-- `_SENSITIVE_ASSIGNMENT`, with its value as a group. -/
def sensitiveAssignment : Pattern :=
  .all [.boundary,
    .any [ignoringCase "password", ignoringCase "passwd", ignoringCase "secret",
      ignoringCase "token",
      .all [ignoringCase "api", separator, ignoringCase "key"],
      .all [ignoringCase "client", separator, ignoringCase "secret"],
      .all [ignoringCase "private", separator, ignoringCase "key"]],
    .boundary,
    .chars (fun c => c != ':' && c != '=' && c != '\n') 0 (some 48) true,
    one fun c => c = '=' || c = ':',
    many Text.isSpace, .group (some1 fun c => c != '\n'), .finish]

/-- `_CREDENTIAL_URL` -/
def credentialUrl : Pattern :=
  .all [exactly "://", some1 fun c => c != '/' && c != '@' && c != ':' && !Text.isSpace c,
    exactly ":", some1 fun c => c != '/' && c != '@' && !Text.isSpace c, exactly "@"]

/-- `_BEARER_TOKEN` -/
def bearerToken : Pattern :=
  .all [.boundary, ignoringCase "Bearer", some1 Text.isSpace,
    .chars (fun c => (foldCase c).isAlphanum || "._~+/=-".toList.contains c) 12 none true]

/-- `_KNOWN_TOKEN` -/
def knownToken : Pattern :=
  .all [.boundary,
    .any [.append (exactly "github_pat_") (.chars isWordByte 20 none true),
      .all [exactly "gh", one fun c => "pousr".toList.contains c, exactly "_",
        .chars Char.isAlphanum 20 none true],
      .append (exactly "AKIA") (.chars (fun c => c.isDigit || c.isUpper) 16 (some 16) true),
      .append (exactly "AIza") (.chars isTokenByte 30 none true)],
    .boundary]

/-- `_JWT` -/
def jwt : Pattern :=
  .all [.boundary, exactly "eyJ", .chars isTokenByte 8 none true, exactly ".",
    .chars isTokenByte 8 none true, exactly ".", .chars isTokenByte 8 none true, .boundary]

/-- `_PEM` -/
def pem : Pattern :=
  .all [exactly "-----BEGIN ", some1 fun c => c != '-', exactly "-----",
    .chars (fun _ => true) 0 none false, exactly "-----END ", some1 fun c => c != '-',
    exactly "-----"]

/-- One line of `_redact`; `word` tells the characters that `\w` matches. -/
def redactLine (word : Char → Bool) (line : List Char) : List Char :=
  let line := credentialUrl.sub word "://[REDACTED]@".toList 0 none line
  let line := bearerToken.sub word "Bearer [REDACTED]".toList 0 none line
  let line := knownToken.sub word "[REDACTED TOKEN]".toList 0 none line
  let line := jwt.sub word "[REDACTED JWT]".toList 0 none line
  match sensitiveAssignment.search word none line with
  | some m =>
    line.take (line.length - m.after.length - (m.group 0).length) ++ "[REDACTED]".toList
  | none => line

/-- `redact_sensitive_text` -/
def redactSensitiveText (word : Char → Bool) (text : String) : String :=
  String.ofList (Text.joinLines ((Text.splitLines
    (pem.sub word "[REDACTED PEM MATERIAL]".toList 0 none text.toList)).map (redactLine word)))

example : redactSensitiveText isWordByte "token = x" = "token = [REDACTED]" := by
  decide +kernel

end Bantam
