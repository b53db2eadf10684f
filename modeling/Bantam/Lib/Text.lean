import Mathlib.Algebra.Ring.Nat
import Mathlib.Data.List.Basic
import Mathlib.Tactic.Common

/-! The string operations of Python used below, on lists of code points. -/
namespace Text

/-- A property of the characters of a text is decided along the text, and not over all
characters. -/
instance (priority := high) decidableForallMem (s : List Char) (p : Char → Prop)
    [DecidablePred p] : Decidable (∀ c ∈ s, p c) :=
  List.decidableBAll p s

/-- `str.isspace` of one code point. -/
def isSpace (c : Char) : Bool :=
  (0x09 ≤ c.toNat && c.toNat ≤ 0x0d) || (0x1c ≤ c.toNat && c.toNat ≤ 0x20) ||
  c.toNat = 0x85 || c.toNat = 0xa0 || c.toNat = 0x1680 ||
  (0x2000 ≤ c.toNat && c.toNat ≤ 0x200a) || c.toNat = 0x2028 || c.toNat = 0x2029 ||
  c.toNat = 0x202f || c.toNat = 0x205f || c.toNat = 0x3000

def stripChars (s : List Char) : List Char :=
  ((s.dropWhile isSpace).reverse.dropWhile isSpace).reverse

/-- `str.strip()` -/
def strip (s : String) : String := String.ofList (stripChars s.toList)

/-- `str.upper()` on the ASCII letters. A code point outside ASCII is kept: none has
an upper case made of the capitals that this development compares with. -/
def upper (s : String) : String := String.ofList (s.toList.map Char.toUpper)

/-- `str.lower()` on the ASCII letters. -/
def lower (s : String) : String := String.ofList (s.toList.map Char.toLower)

/-- `str.isascii()` -/
def isAscii (s : String) : Bool := s.toList.all fun c => c.toNat < 128

/-- `str.isdigit()` of an ASCII string. -/
def isDigit (s : String) : Bool := !s.toList.isEmpty && s.toList.all Char.isDigit

def hexDigit (n : Nat) : Char :=
  if n < 10 then Char.ofNat (0x30 + n) else Char.ofNat (0x57 + n)

/-- The value of a hexadecimal digit in either case. -/
def hexValue (c : Char) : Option Nat :=
  if 0x30 ≤ c.toNat ∧ c.toNat ≤ 0x39 then some (c.toNat - 0x30)
  else if 0x61 ≤ c.toNat ∧ c.toNat ≤ 0x66 then some (c.toNat - 0x57)
  else if 0x41 ≤ c.toNat ∧ c.toNat ≤ 0x46 then some (c.toNat - 0x37)
  else none

/-- The `k` low hexadecimal digits of `n`, the most significant first. -/
def hexDigits : Nat → Nat → List Char
  | 0, _ => []
  | k+1, n => hexDigits k (n / 16) ++ [hexDigit (n % 16)]

/-- `int(s, 16)` on plain hexadecimal digits. -/
def hexNumber (s : List Char) : Option Nat :=
  s.foldlM (fun acc c => (hexValue c).map (16 * acc + ·)) 0

theorem hexDigits_length (k n : Nat) : (hexDigits k n).length = k := by
  induction k generalizing n with
  | zero => rfl
  | succ k ih => simp [hexDigits, ih]

theorem hexValue_hexDigit : ∀ n < 16, hexValue (hexDigit n) = some n := by decide

theorem hexDigit_ne_hyphen : ∀ n < 16, hexDigit n ≠ '-' := by decide

theorem hexDigits_no_hyphen (k n : Nat) : ∀ c ∈ hexDigits k n, c ≠ '-' := by
  induction k generalizing n with
  | zero => simp [hexDigits]
  | succ k ih =>
    intro c hc
    cases List.mem_append.mp hc with
    | inl h => exact ih _ c h
    | inr h =>
      rw [List.mem_singleton.mp h]
      exact hexDigit_ne_hyphen _ (Nat.mod_lt _ (by omega))

/-- Reading the digits back gives the number, as long as it has no more digits. -/
theorem hexNumber_hexDigits (k n : Nat) (h : n < 16 ^ k) :
    hexNumber (hexDigits k n) = some n := by
  induction k generalizing n with
  | zero =>
    have hn : n = 0 := by simpa using h
    subst hn
    rfl
  | succ k ih =>
    have hq : n / 16 < 16 ^ k := by
      rw [Nat.div_lt_iff_lt_mul (by omega)]
      calc
        n < 16 ^ (k + 1) := h
        _ = 16 ^ k * 16 := by rw [Nat.pow_succ]
    have hi := ih (n / 16) hq
    unfold hexNumber at hi ⊢
    rw [hexDigits, List.foldlM_append, hi]
    simp [hexValue_hexDigit _ (Nat.mod_lt n (by omega : 0 < 16)), Nat.div_add_mod]

/-! Trimming. -/

/-- The characters without those at either end that satisfy `p`. -/
def trimBy (p : Char → Bool) (s : List Char) : List Char :=
  ((s.dropWhile p).reverse.dropWhile p).reverse

/-- Unicode's `White_Space`. -/
def isWhiteSpace (c : Char) : Bool :=
  (0x09 ≤ c.toNat && c.toNat ≤ 0x0d) || c.toNat = 0x20 || c.toNat = 0x85 || c.toNat = 0xa0 ||
  c.toNat = 0x1680 || (0x2000 ≤ c.toNat && c.toNat ≤ 0x200a) || c.toNat = 0x2028 ||
  c.toNat = 0x2029 || c.toNat = 0x202f || c.toNat = 0x205f || c.toNat = 0x3000

theorem dropWhile_of_head {p : Char → Bool} {s : List Char}
    (h : ∀ c, s.head? = some c → p c = false) : s.dropWhile p = s := by
  cases s with
  | nil => rfl
  | cons c s => rw [List.dropWhile_cons, if_neg (by simp [h c rfl])]

theorem head_dropWhile {p : Char → Bool} {s : List Char} {c : Char}
    (h : (s.dropWhile p).head? = some c) : p c = false := by
  have := List.head?_dropWhile_not p s
  rw [h] at this
  exact this

theorem trimBy_of_ends {p : Char → Bool} {s : List Char}
    (hhead : ∀ c, s.head? = some c → p c = false)
    (hlast : ∀ c, s.getLast? = some c → p c = false) : trimBy p s = s := by
  have hrev : s.reverse.dropWhile p = s.reverse :=
    dropWhile_of_head fun c hc => hlast c (by rwa [List.head?_reverse] at hc)
  rw [trimBy, dropWhile_of_head hhead, hrev, List.reverse_reverse]

theorem trimBy_last {p : Char → Bool} {s : List Char} {c : Char}
    (h : (trimBy p s).getLast? = some c) : p c = false := by
  rw [trimBy, List.getLast?_reverse] at h
  exact head_dropWhile h

theorem trimBy_head {p : Char → Bool} {s : List Char} {c : Char}
    (h : (trimBy p s).head? = some c) : p c = false := by
  have hinit : trimBy p s <+: s.dropWhile p := by
    rw [← List.reverse_suffix, trimBy, List.reverse_reverse]
    exact List.dropWhile_suffix p
  obtain ⟨rest, hrest⟩ := hinit
  refine head_dropWhile (s := s) ?_
  rw [← hrest, List.head?_append, h]
  rfl

/-- What is trimmed has nothing left to trim. -/
theorem trimBy_trimBy (p : Char → Bool) (s : List Char) : trimBy p (trimBy p s) = trimBy p s :=
  trimBy_of_ends (fun _ => trimBy_head) (fun _ => trimBy_last)

theorem strip_strip (s : String) : strip (strip s) = strip s := by
  rw [strip, strip, String.toList_ofList]
  exact congrArg String.ofList (trimBy_trimBy isSpace s.toList)

/-- A last character that satisfies `p` is dropped. -/
theorem trimBy_snoc {p : Char → Bool} {s : List Char} {c : Char} (hne : s ≠ [])
    (hhead : ∀ d, s.head? = some d → p d = false) (hlast : ∀ d, s.getLast? = some d → p d = false)
    (hc : p c = true) : trimBy p (s ++ [c]) = s := by
  have hdrop : (s ++ [c]).dropWhile p = s ++ [c] := by
    refine dropWhile_of_head fun d hd => hhead d ?_
    rwa [List.head?_append_of_ne_nil _ hne] at hd
  have hrev : s.reverse.dropWhile p = s.reverse :=
    dropWhile_of_head fun d hd => hlast d (by rwa [List.head?_reverse] at hd)
  rw [trimBy, hdrop, List.reverse_append, List.reverse_singleton, List.singleton_append,
    List.dropWhile_cons, if_pos hc, hrev, List.reverse_reverse]

/-- `len(s.encode("utf-8"))` -/
def utf8Length (s : List Char) : Nat := (s.map Char.utf8Size).sum

theorem utf8Length_append (s t : List Char) : utf8Length (s ++ t) = utf8Length s + utf8Length t := by
  rw [utf8Length, utf8Length, utf8Length, List.map_append, List.sum_append]

theorem utf8Length_cons (c : Char) (s : List Char) :
    utf8Length (c :: s) = c.utf8Size + utf8Length s := by
  rw [utf8Length, utf8Length, List.map_cons, List.sum_cons]

theorem utf8Length_le (s : List Char) : utf8Length s ≤ 4 * s.length := by
  induction s with
  | nil => exact Nat.le_refl 0
  | cons c s ih =>
    have hc := c.utf8Size_le_four
    rw [utf8Length_cons, List.length_cons]
    omega

/-! Words. -/

/-- `str.split()`, with the word that is being read. -/
def wordsFrom (word : List Char) : List Char → List (List Char)
  | [] => if word.isEmpty then [] else [word]
  | c :: rest =>
    if isSpace c then (if word.isEmpty then wordsFrom [] rest else word :: wordsFrom [] rest)
    else wordsFrom (word ++ [c]) rest

def words (s : List Char) : List (List Char) := wordsFrom [] s

/-- `a in s` -/
def isInfix (a : List Char) : List Char → Bool
  | [] => a.isEmpty
  | c :: rest => a.isPrefixOf (c :: rest) || isInfix a rest

/-- `sorted`, of strings. -/
def sorted (l : List String) : List String := l.mergeSort fun a b => decide (a ≤ b)

/-! Lines. -/

/-- Where `str.splitlines` ends a line. -/
def isLineBreak (c : Char) : Bool :=
  (0x0a ≤ c.toNat && c.toNat ≤ 0x0d) || (0x1c ≤ c.toNat && c.toNat ≤ 0x1e) ||
  c.toNat = 0x85 || c.toNat = 0x2028 || c.toNat = 0x2029

/-- `str.splitlines()`, with the line that is being read. -/
def splitLinesFrom (line : List Char) : List Char → List (List Char)
  | [] => if line.isEmpty then [] else [line]
  | '\r' :: '\n' :: rest => line :: splitLinesFrom [] rest
  | c :: rest =>
    if isLineBreak c then line :: splitLinesFrom [] rest
    else splitLinesFrom (line ++ [c]) rest

def splitLines (s : List Char) : List (List Char) := splitLinesFrom [] s

/-- `"\n".join(lines)` -/
def joinLines (lines : List (List Char)) : List Char := List.intercalate ['\n'] lines

theorem splitLinesFrom_newline {line l rest : List Char} (h : ∀ c ∈ l, isLineBreak c = false) :
    splitLinesFrom line (l ++ '\n' :: rest) = (line ++ l) :: splitLinesFrom [] rest := by
  induction l generalizing line with
  | nil =>
    rw [List.nil_append, splitLinesFrom, if_pos (by decide), List.append_nil]
    rintro _ ⟨⟩
  | cons c l ih =>
    have hc : isLineBreak c = false := h c List.mem_cons_self
    rw [List.cons_append, splitLinesFrom, if_neg (by simp [hc]),
      ih fun d hd => h d (List.mem_cons_of_mem _ hd), List.append_assoc]
    · rfl
    · rintro _ rfl _
      exact absurd hc (by decide)

theorem intercalate_cons_cons (sep l m : List Char) (rest : List (List Char)) :
    List.intercalate sep (l :: m :: rest) = l ++ (sep ++ List.intercalate sep (m :: rest)) := by
  simp [List.intercalate]

/-- What holds of the separator and of every part holds of the joined text. -/
theorem forall_mem_intercalate {P : Char → Prop} {sep : List Char} {l : List (List Char)}
    (hsep : ∀ c ∈ sep, P c) (h : ∀ part ∈ l, ∀ c ∈ part, P c) :
    ∀ c ∈ List.intercalate sep l, P c := by
  induction l with
  | nil => simp [List.intercalate]
  | cons part rest ih =>
    have hpart := h part List.mem_cons_self
    have hrest := ih fun m hm => h m (List.mem_cons_of_mem part hm)
    cases rest with
    | nil => simpa [List.intercalate] using hpart
    | cons m rest =>
      rw [intercalate_cons_cons]
      intro c hc
      cases List.mem_append.mp hc with
      | inl hc => exact hpart c hc
      | inr hc =>
        cases List.mem_append.mp hc with
        | inl hc => exact hsep c hc
        | inr hc => exact hrest c hc

/-- Lines that hold no line break are read back from their text. -/
theorem splitLines_joinLines {lines : List (List Char)} (hne : lines ≠ [])
    (h : ∀ l ∈ lines, ∀ c ∈ l, isLineBreak c = false) :
    splitLines (joinLines lines ++ ['\n']) = lines := by
  induction lines with
  | nil => exact absurd rfl hne
  | cons l rest ih =>
    have hl := h l List.mem_cons_self
    cases rest with
    | nil =>
      have := @splitLinesFrom_newline [] l [] hl
      simpa [splitLines, joinLines, List.intercalate, splitLinesFrom] using this
    | cons m rest =>
      have hrest := ih (List.cons_ne_nil _ _) fun x hx => h x (List.mem_cons_of_mem _ hx)
      have hjoin : joinLines (l :: m :: rest) = l ++ '\n' :: joinLines (m :: rest) :=
        intercalate_cons_cons ['\n'] l m rest
      rw [hjoin, List.append_assoc, List.cons_append, splitLines,
        splitLinesFrom_newline hl]
      exact congrArg (l :: ·) hrest
end Text
