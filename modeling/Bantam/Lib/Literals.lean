import Bantam.Lib.Json

/-! String literals of Python source, and JSON strings read as such literals. -/
namespace Literals

/-- The escapes of one character. -/
def simpleEscape (c : Char) : Option Char :=
  match c with
  | '\\' => some '\\'
  | '\'' => some '\''
  | '"' => some '"'
  | 'a' => some (Char.ofNat 0x07)
  | 'b' => some (Char.ofNat 0x08)
  | 'f' => some (Char.ofNat 0x0c)
  | 'n' => some '\n'
  | 'r' => some '\r'
  | 't' => some '\t'
  | 'v' => some (Char.ofNat 0x0b)
  | _ => none

/-- A code point written in hexadecimal; a surrogate is not a character. -/
def codePoint (digits : List Char) : Option Char :=
  (Text.hexNumber digits).bind fun n => if h : n.isValidChar then some (Char.ofNatAux n h) else none

def octal (c : Char) : Option Nat :=
  if 0x30 ≤ c.toNat ∧ c.toNat ≤ 0x37 then some (c.toNat - 0x30) else none

/-- The rest of a literal after its opening `"`. The literal ends the text; a line that ends
within it, an incomplete escape and a character given by name are refused. -/
def body : List Char → Option (List Char)
  | [] => none
  | '"' :: rest => if rest.isEmpty then some [] else none
  | '\\' :: 'x' :: a :: b :: rest => (codePoint [a, b]).bind fun c => (body rest).map (c :: ·)
  | '\\' :: 'u' :: a :: b :: c :: d :: rest =>
    (codePoint [a, b, c, d]).bind fun c => (body rest).map (c :: ·)
  | '\\' :: 'U' :: a :: b :: c :: d :: e :: f :: g :: h :: rest =>
    (codePoint [a, b, c, d, e, f, g, h]).bind fun c => (body rest).map (c :: ·)
  | '\\' :: '\n' :: rest => body rest
  | '\\' :: c :: rest =>
    match simpleEscape c with
    | some d => (body rest).map (d :: ·)
    | none =>
      if c = 'x' ∨ c = 'u' ∨ c = 'U' ∨ c = 'N' then none
      else match octal c with
      | none => (body rest).map (fun s => '\\' :: c :: s)
      | some m =>
        match rest with
        | [] => none
        | d :: rest =>
          match octal d with
          | none => (body (d :: rest)).map (Char.ofNat m :: ·)
          | some n =>
            match rest with
            | [] => none
            | e :: rest =>
              match octal e with
              | none => (body (e :: rest)).map (Char.ofNat (8 * m + n) :: ·)
              | some k => (body rest).map (Char.ofNat (64 * m + 8 * n + k) :: ·)
  | c :: rest => if c = '\\' ∨ c = '\n' ∨ c = '\r' then none else (body rest).map (c :: ·)

/-- The value of a text that is one string literal between `"` and `"`. -/
def eval : List Char → Option (List Char)
  | '"' :: '"' :: '"' :: _ => none
  | '"' :: rest => body rest
  | _ => none

def Printable (c : Char) : Prop := 32 ≤ c.toNat ∧ c.toNat ≤ 126

instance (c : Char) : Decidable (Printable c) := inferInstanceAs (Decidable (_ ∧ _))

theorem body_plain {c : Char} {rest : List Char} (hq : c ≠ '"') (hb : c ≠ '\\') (hn : c ≠ '\n')
    (hr : c ≠ '\r') : body (c :: rest) = (body rest).map (c :: ·) := by
  rw [body]
  · rw [if_neg (by simp [hb, hn, hr])]
  all_goals simp [hq, hb]

theorem body_escape_quote (rest : List Char) :
    body ('\\' :: '"' :: rest) = (body rest).map ('"' :: ·) := by
  rw [body]
  · rfl
  all_goals simp

theorem body_escape_backslash (rest : List Char) :
    body ('\\' :: '\\' :: rest) = (body rest).map ('\\' :: ·) := by
  rw [body]
  · rfl
  all_goals simp

theorem escapeChar_plain {c : Char} (hc : Printable c) (hq : c ≠ '"') (hb : c ≠ '\\') :
    Json.escapeChar true c = [c] := by
  have hne : ∀ d : Char, d.toNat < 32 → c ≠ d := by
    rintro d hd rfl
    exact absurd hc.1 (by omega)
  have hlow : ¬c.toNat < 32 := by have := hc.1; omega
  have hhigh : ¬126 < c.toNat := by have := hc.2; omega
  have h8 : c.toNat ≠ 0x08 := by have := hc.1; omega
  have h12 : c.toNat ≠ 0x0c := by have := hc.1; omega
  simp [Json.escapeChar, hq, hb, hne '\n' (by decide), hne '\r' (by decide),
    hne '\t' (by decide), h8, h12, hlow, hhigh]

/-- The two languages agree on how a printable character is written in a string. -/
theorem body_escapeChar {c : Char} (hc : Printable c) (rest : List Char) :
    body (Json.escapeChar true c ++ rest) = (body rest).map (c :: ·) := by
  by_cases hq : c = '"'
  · subst hq
    exact body_escape_quote rest
  · by_cases hb : c = '\\'
    · subst hb
      exact body_escape_backslash rest
    · have hne : ∀ d : Char, d.toNat < 32 → c ≠ d := by
        rintro d hd rfl
        exact absurd hc.1 (by omega)
      rw [escapeChar_plain hc hq hb]
      exact body_plain hq hb (hne '\n' (by decide)) (hne '\r' (by decide))

theorem body_escaped {s : List Char} (h : ∀ c ∈ s, Printable c) :
    body (s.flatMap (Json.escapeChar true) ++ ['"']) = some s := by
  induction s with
  | nil => rfl
  | cons c s ih =>
    rw [List.flatMap_cons, List.append_assoc, body_escapeChar (h c List.mem_cons_self),
      ih fun d hd => h d (List.mem_cons_of_mem _ hd)]
    rfl

/-- A JSON string of printable characters is a Python literal for the same string. -/
theorem eval_quote {s : String} (h : ∀ c ∈ s.toList, Printable c) :
    eval (Json.quote true s) = some s.toList := by
  have hbody := body_escaped h
  unfold Json.quote
  cases hs : s.toList with
  | nil => rfl
  | cons c rest =>
    rw [hs] at hbody h
    have hfirst : ∀ tail, '"' :: tail ≠ (c :: rest).flatMap (Json.escapeChar true) ++ ['"'] := by
      intro tail htail
      by_cases hq : c = '"'
      · subst hq
        cases htail
      · by_cases hb : c = '\\'
        · subst hb
          cases htail
        · rw [List.flatMap_cons, escapeChar_plain (h c List.mem_cons_self) hq hb] at htail
          exact hq (List.cons.inj htail).1.symm
    rw [eval]
    · exact hbody
    · exact fun tail heq => hfirst ('"' :: tail) heq.symm

/-- No character of the JSON string ends a line. -/
theorem quote_no_break {s : String} (h : ∀ c ∈ s.toList, Printable c) :
    ∀ c ∈ Json.quote true s, Text.isLineBreak c = false := by
  have hprintable : ∀ c, Printable c → Text.isLineBreak c = false := by
    intro c hc
    have h1 := hc.1
    have h2 := hc.2
    simp only [Text.isLineBreak, Bool.or_eq_false_iff, Bool.and_eq_false_iff,
      decide_eq_false_iff_not]
    omega
  intro c hc
  refine hprintable c ?_
  rw [Json.quote, List.mem_cons, List.mem_append, List.mem_flatMap, List.mem_singleton] at hc
  have hquote : Printable '"' := by decide
  have hslash : Printable '\\' := by decide
  rcases hc with rfl | ⟨d, hd, hc⟩ | rfl
  · exact hquote
  · by_cases hq : d = '"'
    · subst hq
      have hc : c = '\\' ∨ c = '"' := by simpa [Json.escapeChar] using hc
      cases hc with
      | inl hc => exact hc ▸ hslash
      | inr hc => exact hc ▸ hquote
    · by_cases hb : d = '\\'
      · subst hb
        have hc : c = '\\' := by simpa [Json.escapeChar] using hc
        exact hc ▸ hslash
      · rw [escapeChar_plain (h d hd) hq hb, List.mem_singleton] at hc
        exact hc ▸ h d hd
  · exact hquote

end Literals
