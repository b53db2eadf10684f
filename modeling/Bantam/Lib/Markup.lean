import Mathlib.Data.List.Basic
import Mathlib.Tactic.Common

/-! Markup as its reader takes it apart: tags, and text in which characters are written by name. -/
namespace Markup

/-- The characters that `html.escape` writes by name. -/
def escapeChar : Char → List Char
  | '&' => "&amp;".toList
  | '<' => "&lt;".toList
  | '>' => "&gt;".toList
  | '"' => "&quot;".toList
  | '\'' => "&#x27;".toList
  | c => [c]

def escape (s : List Char) : List Char := s.flatMap escapeChar

/-- A reader's text: the named characters are the characters themselves. -/
def unescape : List Char → List Char
  | '&' :: 'a' :: 'm' :: 'p' :: ';' :: s => '&' :: unescape s
  | '&' :: 'l' :: 't' :: ';' :: s => '<' :: unescape s
  | '&' :: 'g' :: 't' :: ';' :: s => '>' :: unescape s
  | '&' :: 'q' :: 'u' :: 'o' :: 't' :: ';' :: s => '"' :: unescape s
  | '&' :: '#' :: 'x' :: '2' :: '7' :: ';' :: s => '\'' :: unescape s
  | c :: s => c :: unescape s
  | [] => []

inductive Token where
  | tag (s : List Char)
  | text (s : List Char)
  deriving DecidableEq

def textToken (s : List Char) : List Token := if s = [] then [] else [.text s]

/-- What a reader makes of a text, with the tag or the text that it is in. -/
def scan : Bool → List Char → List Char → List Token
  | false, read, [] => textToken (unescape read)
  | true, read, [] => [.tag read]
  | false, read, '<' :: s => textToken (unescape read) ++ scan true [] s
  | true, read, '>' :: s => .tag read :: scan false [] s
  | inside, read, c :: s => scan inside (read ++ [c]) s

def tokens (s : List Char) : List Token := scan false [] s

/-- A document in parts: tags, and text that is to be read as it is. -/
inductive Part where
  | tag (s : List Char)
  | text (s : List Char)

def Part.render : Part → List Char
  | .tag s => '<' :: (s ++ ['>'])
  | .text s => escape s

def render (parts : List Part) : List Char := parts.flatMap Part.render

/-- The tokens of the parts, after some text. -/
def merge (before : List Char) : List Part → List Token
  | [] => textToken before
  | .tag s :: parts => textToken before ++ .tag s :: merge [] parts
  | .text s :: parts => merge (before ++ s) parts

section
variable {s t : List Char} {parts : List Part}

theorem escape_append (s t : List Char) : escape (s ++ t) = escape s ++ escape t :=
  List.flatMap_append

theorem render_append (parts rest : List Part) :
    render (parts ++ rest) = render parts ++ render rest :=
  List.flatMap_append

theorem escapeChar_plain {c : Char} (h : c ∉ ['&', '<', '>', '"', '\'']) : escapeChar c = [c] := by
  simp only [List.mem_cons, List.not_mem_nil, or_false, not_or] at h
  obtain ⟨hamp, hlt, hgt, hquote, hsingle⟩ := h
  unfold escapeChar
  split <;> first | rfl | contradiction

theorem escape_plain (h : ∀ c ∈ s, c ∉ ['&', '<', '>', '"', '\'']) : escape s = s := by
  induction s with
  | nil => rfl
  | cons c s ih =>
    rw [escape, List.flatMap_cons, escapeChar_plain (h c List.mem_cons_self), ← escape,
      ih fun d hd => h d (List.mem_cons_of_mem c hd)]
    rfl

theorem unescape_cons {c : Char} (h : c ≠ '&') : unescape (c :: t) = c :: unescape t := by
  rw [unescape] <;> exact fun _ hc _ => h hc

theorem unescape_escapeChar (c : Char) (t : List Char) :
    unescape (escapeChar c ++ t) = c :: unescape t := by
  by_cases h : c ∈ ['&', '<', '>', '"', '\'']
  · simp only [List.mem_cons, List.not_mem_nil, or_false] at h
    rcases h with rfl | rfl | rfl | rfl | rfl <;> rfl
  · rw [escapeChar_plain h]
    exact unescape_cons fun he => h (he ▸ List.mem_cons_self)

/-- What is escaped is read as it was. -/
theorem unescape_escape (s t : List Char) : unescape (escape s ++ t) = s ++ unescape t := by
  induction s with
  | nil => rfl
  | cons c s ih =>
    rw [escape, List.flatMap_cons, List.append_assoc, unescape_escapeChar, ← escape, ih]
    rfl

/-- No escaped text begins a tag. -/
theorem lt_notMem_escape (s : List Char) : '<' ∉ escape s := by
  have hchar : ∀ c, '<' ∉ escapeChar c := by
    intro c
    by_cases h : c ∈ ['&', '<', '>', '"', '\'']
    · simp only [List.mem_cons, List.not_mem_nil, or_false] at h
      rcases h with rfl | rfl | rfl | rfl | rfl <;> decide
    · rw [escapeChar_plain h, List.mem_singleton]
      rintro rfl
      exact h (by decide)
  simp [escape, hchar]

theorem scan_text (h : '<' ∉ s) (read : List Char) :
    scan false read (s ++ t) = scan false (read ++ s) t := by
  induction s generalizing read with
  | nil => rw [List.append_nil, List.nil_append]
  | cons c s ih =>
    rw [List.mem_cons, not_or] at h
    rw [List.cons_append, scan, ih h.2, List.append_assoc]
    · rfl
    · rintro _ rfl
      exact h.1 rfl
    · rintro ⟨⟩

theorem scan_tag (h : '>' ∉ s) (read : List Char) :
    scan true read (s ++ '>' :: t) = .tag (read ++ s) :: scan false [] t := by
  induction s generalizing read with
  | nil => rw [List.nil_append, List.append_nil, scan]
  | cons c s ih =>
    rw [List.mem_cons, not_or] at h
    rw [List.cons_append, scan, ih h.2, List.append_assoc]
    · rfl
    · rintro ⟨⟩
    · rintro _ rfl
      exact h.1 rfl

/-- A tag that ends where its part ends. -/
def Part.Closed : Part → Prop
  | .tag s => '>' ∉ s
  | .text _ => True

instance : DecidablePred Part.Closed
  | .tag s => inferInstanceAs (Decidable ('>' ∉ s))
  | .text _ => .isTrue trivial

def Closed (parts : List Part) : Prop := ∀ p ∈ parts, p.Closed

instance : DecidablePred Closed := fun parts => List.decidableBAll Part.Closed parts

theorem closed_flatten {pieces : List (List Part)} (h : ∀ piece ∈ pieces, Closed piece) :
    Closed pieces.flatten := by
  intro p hp
  obtain ⟨piece, hpiece, hp⟩ := List.mem_flatten.mp hp
  exact h piece hpiece p hp

theorem closed_flatMap {α : Type} {items : List α} {f : α → List Part}
    (h : ∀ x, Closed (f x)) : Closed (items.flatMap f) := by
  intro p hp
  obtain ⟨x, -, hp⟩ := List.mem_flatMap.mp hp
  exact h x p hp

/-- A document is read as its parts: no text in it opens a tag, closes one or is changed. -/
theorem tokens_render (h : Closed parts) : tokens (render parts) = merge [] parts := by
  have whole : ∀ (parts : List Part) (before : List Char), Closed parts →
      scan false (escape before) (render parts) = merge before parts := by
    intro parts
    induction parts with
    | nil =>
      intro before _
      have hread := unescape_escape before []
      rw [List.append_nil] at hread
      rw [render, List.flatMap_nil, scan, hread, unescape, List.append_nil, merge]
    | cons p parts ih =>
      intro before h
      obtain ⟨hp, hparts⟩ := List.forall_mem_cons.mp h
      cases p with
      | tag s =>
        have hread := unescape_escape before []
        rw [List.append_nil] at hread
        rw [render, List.flatMap_cons, Part.render, List.cons_append, List.append_assoc, scan,
          List.singleton_append, scan_tag hp, List.nil_append, hread, unescape, List.append_nil,
          merge, ← render, ← ih [] hparts]
        rfl
      | text s =>
        rw [render, List.flatMap_cons, Part.render, scan_text (lt_notMem_escape s),
          ← escape_append, ← render, ih _ hparts, merge]
  exact whole parts [] h
end
end Markup
