import Bantam.Lib.Containers
import Bantam.Lib.Json

/-! Reading JSON text: what `Json.write` writes is read back. -/
namespace Json

def isBlank (c : Char) : Bool := c = ' ' || c = '\t' || c = '\n' || c = '\r'

def skipBlank (s : List Char) : List Char := s.dropWhile isBlank

/-! Strings. -/

/-- The character after a backslash, other than `u`. -/
def unescape (c : Char) : Option Char :=
  if c = '"' ∨ c = '\\' ∨ c = '/' then some c
  else if c = 'n' then some '\n'
  else if c = 'r' then some '\r'
  else if c = 't' then some '\t'
  else if c = 'b' then some (Char.ofNat 0x08)
  else if c = 'f' then some (Char.ofNat 0x0c)
  else none

/-- The four digits of `\uXXXX` and what follows them. -/
def readUnit (s : List Char) : Option (Nat × List Char) :=
  if (s.take 4).length = 4 then (Text.hexNumber (s.take 4)).map fun n => (n, s.drop 4) else none

/-- A code point after `\u`, a surrogate pair included. A surrogate alone is no character. -/
def readUnicode (s : List Char) : Option (Char × List Char) :=
  (readUnit s).bind fun (n, rest) =>
    if n < 0xd800 ∨ 0xe000 ≤ n then some (Char.ofNat n, rest)
    else match rest with
      | '\\' :: 'u' :: tail => (readUnit tail).bind fun (m, rest) =>
        if n < 0xdc00 ∧ 0xdc00 ≤ m ∧ m < 0xe000 then
          some (Char.ofNat (0x10000 + (n - 0xd800) * 0x400 + (m - 0xdc00)), rest)
        else none
      | _ => none

/-- One character of a string, which begins with `c`. -/
def readChar (c : Char) (rest : List Char) : Option (Char × List Char) :=
  if c ≠ '\\' then if c.toNat < 32 then none else some (c, rest)
  else match rest with
    | [] => none
    | e :: rest => if e = 'u' then readUnicode rest else (unescape e).map fun d => (d, rest)

/-- The characters up to the closing quote. -/
def readString : Nat → List Char → Option (List Char × List Char)
  | 0, _ => none
  | _ + 1, [] => none
  | fuel + 1, c :: rest =>
    if c = '"' then some ([], rest)
    else (readChar c rest).bind fun (d, rest) =>
      (readString fuel rest).map fun (s, rest) => (d :: s, rest)

/-! Numbers. -/

def isNumberChar (c : Char) : Bool :=
  c.isDigit || c = '-' || c = '+' || c = '.' || c = 'e' || c = 'E'

def isExponent : List Char → Bool
  | [] => true
  | e :: rest =>
    let digits := if rest.head? = some '-' ∨ rest.head? = some '+' then rest.tail else rest
    (e = 'e' || e = 'E') && !digits.isEmpty && digits.all Char.isDigit

/-- What follows the whole part: a fraction and an exponent, or one of them, or nothing. -/
def isFraction : List Char → Bool
  | '.' :: rest => !(rest.takeWhile Char.isDigit).isEmpty && isExponent (rest.dropWhile Char.isDigit)
  | rest => isExponent rest

def isNumber (s : List Char) : Bool :=
  let s := if s.head? = some '-' then s.tail else s
  let whole := s.takeWhile Char.isDigit
  !whole.isEmpty && (whole.head? ≠ some '0' || whole.length = 1) &&
    isFraction (s.dropWhile Char.isDigit)

/-! Values. -/

/-- A word of the language at the beginning of the text. -/
def readWord (word : List Char) (v : Json) (s : List Char) : Option (Json × List Char) :=
  if word.isPrefixOf s then some (v, s.drop word.length) else none

def readNumber (s : List Char) : Option (Json × List Char) :=
  let text := s.takeWhile isNumberChar
  if isNumber text then some (.num (String.ofList text), s.dropWhile isNumberChar) else none

mutual
def readValue : Nat → List Char → Option (Json × List Char)
  | 0, _ => none
  | fuel + 1, s =>
    match skipBlank s with
    | [] => none
    | c :: rest =>
      if c = '"' then
        (readString (rest.length + 1) rest).map fun (s, rest) => (.str (String.ofList s), rest)
      else if c = '[' then
        if (skipBlank rest).head? = some ']' then some (.arr [], (skipBlank rest).tail)
        else (readItems fuel rest).map fun (items, rest) => (.arr items, rest)
      else if c = '\x7b' then
        if (skipBlank rest).head? = some '\x7d' then some (.obj [], (skipBlank rest).tail)
        else (readMembers fuel rest).map fun (members, rest) =>
          -- a repeated key keeps its last value
          (.obj (Dict.ofList members).items, rest)
      else if c = 'n' then readWord "null".toList .null (c :: rest)
      else if c = 't' then readWord "true".toList (.bool true) (c :: rest)
      else if c = 'f' then readWord "false".toList (.bool false) (c :: rest)
      else readNumber (c :: rest)

/-- The items of an array, up to its closing bracket. -/
def readItems : Nat → List Char → Option (List Json × List Char)
  | 0, _ => none
  | fuel + 1, s =>
    (readValue fuel s).bind fun (v, rest) =>
      match skipBlank rest with
      | [] => none
      | c :: rest =>
        if c = ',' then (readItems fuel rest).map fun (items, rest) => (v :: items, rest)
        else if c = ']' then some ([v], rest)
        else none

/-- The members of an object, up to its closing brace. -/
def readMembers : Nat → List Char → Option (List (String × Json) × List Char)
  | 0, _ => none
  | fuel + 1, s =>
    if (skipBlank s).head? ≠ some '"' then none
    else (readString (skipBlank s).length (skipBlank s).tail).bind fun (k, rest) =>
      if (skipBlank rest).head? ≠ some ':' then none
      else (readValue fuel (skipBlank rest).tail).bind fun (v, rest) =>
        match skipBlank rest with
        | [] => none
        | c :: rest =>
          if c = ',' then (readMembers fuel rest).map fun (members, rest) =>
            ((String.ofList k, v) :: members, rest)
          else if c = '\x7d' then some ([(String.ofList k, v)], rest)
          else none
end

/-- `json.loads` -/
def loads (s : String) : Option Json :=
  (readValue (s.toList.length + 1) s.toList).bind fun (v, rest) =>
    if (skipBlank rest).isEmpty then some v else none

/-! What is written is read back. -/

section
variable {c : Char} {rest : List Char}

theorem readUnit_hexDigits {n : Nat} (h : n < 0x10000) :
    readUnit (Text.hexDigits 4 n ++ rest) = some (n, rest) := by
  have hlen : (Text.hexDigits 4 n).length = 4 := Text.hexDigits_length 4 n
  have htake : (Text.hexDigits 4 n ++ rest).take 4 = Text.hexDigits 4 n :=
    List.take_left' hlen
  have hdrop : (Text.hexDigits 4 n ++ rest).drop 4 = rest := List.drop_left' hlen
  rw [readUnit, htake, hdrop, if_pos hlen, Text.hexNumber_hexDigits 4 n h]
  rfl

theorem readUnicode_escape (c : Char) :
    readUnicode ((unicodeEscape c.toNat).drop 2 ++ rest) = some (c, rest) := by
  have hvalid : c.toNat < 0xd800 ∨ (0xdfff < c.toNat ∧ c.toNat < 0x110000) := c.valid
  unfold unicodeEscape
  by_cases hsmall : c.toNat < 0x10000
  · have hscalar : c.toNat < 0xd800 ∨ 0xe000 ≤ c.toNat := by omega
    rw [if_pos hsmall]
    show readUnicode (Text.hexDigits 4 c.toNat ++ rest) = _
    rw [readUnicode, readUnit_hexDigits hsmall, Option.bind_some]
    dsimp only
    rw [if_pos hscalar, Char.ofNat_toNat]
  · have hlarge : c.toNat < 0x110000 := by omega
    rw [if_neg hsmall]
    show readUnicode ((Text.hexDigits 4 _ ++ '\\' :: 'u' :: Text.hexDigits 4 _) ++ rest) = _
    have hq : (c.toNat - 0x10000) / 0x400 < 0x400 := by omega
    have hr : (c.toNat - 0x10000) % 0x400 < 0x400 := Nat.mod_lt _ (by omega)
    have hhigh : 0xd800 + (c.toNat - 0x10000) / 0x400 < 0x10000 := by omega
    have hlow : 0xdc00 + (c.toNat - 0x10000) % 0x400 < 0x10000 := by omega
    rw [List.append_assoc, readUnicode, readUnit_hexDigits hhigh, Option.bind_some]
    dsimp only
    rw [if_neg (by omega)]
    show (readUnit (Text.hexDigits 4 _ ++ rest)).bind _ = _
    rw [readUnit_hexDigits hlow, Option.bind_some]
    dsimp only
    rw [if_pos (by omega)]
    have hsum : 0x10000 + (0xd800 + (c.toNat - 0x10000) / 0x400 - 0xd800) * 0x400 +
        (0xdc00 + (c.toNat - 0x10000) % 0x400 - 0xdc00) = c.toNat := by omega
    rw [hsum, Char.ofNat_toNat]

theorem readChar_plain (hb : c ≠ '\\') (hlow : ¬c.toNat < 32) :
    readChar c rest = some (c, rest) := by
  unfold readChar
  rw [if_pos hb, if_neg hlow]

theorem readChar_unescape {d : Char} (hu : d ≠ 'u') (h : unescape d = some c) :
    readChar '\\' (d :: rest) = some (c, rest) := by
  unfold readChar
  rw [if_neg (not_not.mpr rfl)]
  dsimp only
  rw [if_neg hu, h]
  rfl

theorem readChar_unicode (c : Char) : ∃ tail, unicodeEscape c.toNat = '\\' :: tail ∧
    readChar '\\' (tail ++ rest) = some (c, rest) := by
  have hread := @readUnicode_escape rest c
  unfold unicodeEscape at hread ⊢
  split_ifs at hread ⊢
  · exact ⟨_, rfl, hread⟩
  · exact ⟨_, rfl, hread⟩

/-- A character is read back from its escape, and no escape begins with a quote. -/
theorem readChar_escapeChar (ensureAscii : Bool) (c : Char) (rest : List Char) :
    ∃ head tail, escapeChar ensureAscii c = head :: tail ∧ head ≠ '"' ∧
      readChar head (tail ++ rest) = some (c, rest) := by
  have hslash : '\\' ≠ '"' := by decide
  unfold escapeChar
  split_ifs with h1 h2 h3 h4 h5 h6 h7 h8
  · exact ⟨_, _, rfl, hslash, readChar_unescape (by decide) (by rw [h1]; rfl)⟩
  · exact ⟨_, _, rfl, hslash, readChar_unescape (by decide) (by rw [h2]; rfl)⟩
  · exact ⟨_, _, rfl, hslash, readChar_unescape (by decide) (by rw [h3]; rfl)⟩
  · exact ⟨_, _, rfl, hslash, readChar_unescape (by decide) (by rw [h4]; rfl)⟩
  · exact ⟨_, _, rfl, hslash, readChar_unescape (by decide) (by rw [h5]; rfl)⟩
  · refine ⟨_, _, rfl, hslash, readChar_unescape (by decide) ?_⟩
    rw [← Char.ofNat_toNat c, h6]
    rfl
  · refine ⟨_, _, rfl, hslash, readChar_unescape (by decide) ?_⟩
    rw [← Char.ofNat_toNat c, h7]
    rfl
  · obtain ⟨tail, htail, hread⟩ := @readChar_unicode rest c
    exact ⟨_, tail, htail, hslash, hread⟩
  · refine ⟨_, _, rfl, h1, readChar_plain h2 ?_⟩
    simp only [Bool.or_eq_true, decide_eq_true_eq, not_or] at h8
    exact h8.1

theorem length_le_escaped (ensureAscii : Bool) (s : List Char) :
    s.length ≤ (s.flatMap (escapeChar ensureAscii)).length := by
  induction s with
  | nil => exact Nat.le_refl 0
  | cons c s ih =>
    obtain ⟨head, tail, hescape, _⟩ := readChar_escapeChar ensureAscii c []
    rw [List.flatMap_cons, hescape]
    simp only [List.length_cons, List.length_append]
    omega

theorem readString_quote (ensureAscii : Bool) (s : List Char) (rest : List Char) (fuel : Nat)
    (h : s.length < fuel) :
    readString fuel (s.flatMap (escapeChar ensureAscii) ++ '"' :: rest) = some (s, rest) := by
  induction s generalizing fuel with
  | nil =>
    cases fuel with
    | zero => cases h
    | succ fuel => exact if_pos rfl
  | cons c s ih =>
    cases fuel with
    | zero => cases h
    | succ fuel =>
      obtain ⟨head, tail, hescape, hquote, hread⟩ := readChar_escapeChar ensureAscii c
        (s.flatMap (escapeChar ensureAscii) ++ '"' :: rest)
      have hlen : s.length < fuel := Nat.lt_of_succ_lt_succ h
      rw [List.flatMap_cons, hescape, List.append_assoc, List.cons_append, readString, if_neg hquote,
        hread, Option.bind_some]
      dsimp only
      rw [ih fuel hlen]
      rfl

end

/-! Values that have a text. -/

mutual
/-- Every number is one, and no object has a key twice. -/
def WellFormed : Json → Prop
  | .num text => isNumber text.toList = true ∧ ∀ c ∈ text.toList, isNumberChar c = true
  | .arr items => ItemsWellFormed items
  | .obj members => (members.map Prod.fst).Nodup ∧ MembersWellFormed members
  | _ => True

def ItemsWellFormed : List Json → Prop
  | [] => True
  | v :: rest => v.WellFormed ∧ ItemsWellFormed rest

def MembersWellFormed : List (String × Json) → Prop
  | [] => True
  | (_, v) :: rest => v.WellFormed ∧ MembersWellFormed rest
end

/-- The separators that JSON reads as such. -/
structure Style.Readable (style : Style) : Prop where
  item : ∃ blanks, style.itemSeparator = ',' :: blanks ∧ ∀ c ∈ blanks, isBlank c = true
  key : ∃ blanks, style.keySeparator = ':' :: blanks ∧ ∀ c ∈ blanks, isBlank c = true

/-- The text goes on with nothing that could belong to a number. -/
def Ends (rest : List Char) : Prop := ∀ c, rest.head? = some c → isNumberChar c = false

section
variable {c : Char} {rest blanks : List Char}

theorem skipBlank_cons (h : isBlank c = false) : skipBlank (c :: rest) = c :: rest := by
  rw [skipBlank, List.dropWhile_cons, if_neg (by simp [h])]

theorem skipBlank_append (h : ∀ c ∈ blanks, isBlank c = true) (rest : List Char) :
    skipBlank (blanks ++ rest) = skipBlank rest :=
  List.dropWhile_append_of_pos h

theorem readWord_append (word : List Char) (v : Json) (rest : List Char) :
    readWord word v (word ++ rest) = some (v, rest) := by
  rw [readWord, if_pos (by simp), List.drop_left]

theorem readNumber_append {text : List Char} (h : isNumber text = true)
    (hall : ∀ c ∈ text, isNumberChar c = true) (hrest : Ends rest) :
    readNumber (text ++ rest) = some (.num (String.ofList text), rest) := by
  have htake : (text ++ rest).takeWhile isNumberChar = text := by
    rw [List.takeWhile_append_of_pos hall]
    cases rest with
    | nil => simp
    | cons c rest => simp [hrest c rfl]
  have hdrop : (text ++ rest).dropWhile isNumberChar = rest := by
    rw [List.dropWhile_append_of_pos hall]
    cases rest with
    | nil => rfl
    | cons c rest => simp [hrest c rfl]
  rw [readNumber, htake, hdrop]
  exact if_pos h

end

/-! The texts that begin a value, an item or a member. -/

section
variable {style : Style} {v : Json} {blanks rest : List Char} {fuel : Nat}

theorem readValue_blanks (h : ∀ c ∈ blanks, isBlank c = true) (fuel : Nat) (s : List Char) :
    readValue fuel (blanks ++ s) = readValue fuel s := by
  cases fuel with
  | zero => rfl
  | succ fuel => rw [readValue, readValue, skipBlank_append h]

theorem readItems_blanks (h : ∀ c ∈ blanks, isBlank c = true) (fuel : Nat) (s : List Char) :
    readItems fuel (blanks ++ s) = readItems fuel s := by
  cases fuel with
  | zero => rfl
  | succ fuel => rw [readItems, readItems, readValue_blanks h]

theorem readMembers_blanks (h : ∀ c ∈ blanks, isBlank c = true) (fuel : Nat) (s : List Char) :
    readMembers fuel (blanks ++ s) = readMembers fuel s := by
  cases fuel with
  | zero => rfl
  | succ fuel => rw [readMembers, readMembers, skipBlank_append h]

theorem ends_cons {c : Char} (h : isNumberChar c = false) (rest : List Char) : Ends (c :: rest) :=
  fun _ hd => Option.some.inj hd ▸ h

theorem numberChar_plain {c : Char} (h : isNumberChar c = true) : isBlank c = false ∧ c ≠ '"' ∧
    c ≠ '[' ∧ c ≠ '\x7b' ∧ c ≠ 'n' ∧ c ≠ 't' ∧ c ≠ 'f' := by
  refine ⟨?_, ?_, ?_, ?_, ?_, ?_, ?_⟩
  · by_contra hb
    simp only [isBlank, Bool.not_eq_false, Bool.or_eq_true, decide_eq_true_eq] at hb
    rcases hb with ((rfl | rfl) | rfl) | rfl
    all_goals exact absurd h (by decide)
  all_goals
    rintro rfl
    exact absurd h (by decide)

theorem readValue_number {text : List Char} (h : isNumber text = true)
    (hall : ∀ c ∈ text, isNumberChar c = true) (hrest : Ends rest) :
    readValue (fuel + 1) (text ++ rest) = some (.num (String.ofList text), rest) := by
  have hread := readNumber_append h hall hrest
  cases text with
  | nil => cases h
  | cons c text =>
    obtain ⟨hb, h1, h2, h3, h4, h5, h6⟩ := numberChar_plain (hall c List.mem_cons_self)
    rw [List.cons_append] at hread ⊢
    rw [readValue, skipBlank_cons hb]
    dsimp only
    rw [if_neg h1, if_neg h2, if_neg h3, if_neg h4, if_neg h5, if_neg h6, hread]

theorem readValue_string (ensureAscii : Bool) (s : String) :
    readValue (fuel + 1) (quote ensureAscii s ++ rest) = some (.str s, rest) := by
  have hlen : s.toList.length <
      (s.toList.flatMap (escapeChar ensureAscii) ++ '"' :: rest).length + 1 := by
    have := length_le_escaped ensureAscii s.toList
    simp only [List.length_append]
    omega
  have hquote : quote ensureAscii s ++ rest =
      '"' :: (s.toList.flatMap (escapeChar ensureAscii) ++ '"' :: rest) := by
    rw [quote, List.cons_append, List.append_assoc]
    rfl
  rw [hquote, readValue, skipBlank_cons (by decide)]
  dsimp only
  rw [if_pos rfl, readString_quote _ _ _ _ hlen, Option.map_some, String.ofList_toList]

/-- A value begins with no bracket that could close the list it stands in. -/
theorem write_head (style : Style) (hv : v.WellFormed) : ∃ c tail, write style v = c :: tail ∧
    isBlank c = false ∧ c ≠ ']' := by
  cases v with
  | num text =>
    cases htext : text.toList with
    | nil =>
      have hnum := hv.1
      rw [htext] at hnum
      cases hnum
    | cons c tail =>
      have hc : isNumberChar c = true := hv.2 c (by rw [htext]; exact List.mem_cons_self)
      refine ⟨c, tail, by rw [write, htext], (numberChar_plain hc).1, ?_⟩
      rintro rfl
      exact absurd hc (by decide)
  | null => exact ⟨'n', _, rfl, by decide, by decide⟩
  | bool b => cases b with
    | true => exact ⟨'t', _, rfl, by decide, by decide⟩
    | false => exact ⟨'f', _, rfl, by decide, by decide⟩
  | str s => exact ⟨'"', _, rfl, by decide, by decide⟩
  | arr items => exact ⟨'[', _, rfl, by decide, by decide⟩
  | obj members => exact ⟨'\x7b', _, rfl, by decide, by decide⟩

theorem intercalate_head (sep l : List Char) (rest : List (List Char)) :
    ∃ more, List.intercalate sep (l :: rest) = l ++ more := by
  cases rest with
  | nil => exact ⟨[], by simp [List.intercalate]⟩
  | cons m rest => exact ⟨_, Text.intercalate_cons_cons sep l m rest⟩

theorem readValue_arr {s : List Char} {items : List Json} (hhead : (skipBlank s).head? ≠ some ']')
    (h : readItems fuel s = some (items, rest)) :
    readValue (fuel + 1) ('[' :: s) = some (.arr items, rest) := by
  rw [readValue, skipBlank_cons (by decide)]
  dsimp only
  rw [if_neg (by decide), if_pos rfl, if_neg hhead, h]
  rfl

theorem readItems_next {s : List Char} {items : List Json}
    (hblanks : ∀ c ∈ blanks, isBlank c = true)
    (h : readValue fuel (v.write style ++ ',' :: (blanks ++ s)) = some (v, ',' :: (blanks ++ s)))
    (hs : readItems fuel s = some (items, rest)) :
    readItems (fuel + 1) (v.write style ++ ',' :: (blanks ++ s)) = some (v :: items, rest) := by
  rw [readItems, h, Option.bind_some]
  dsimp only
  rw [skipBlank_cons (by decide)]
  dsimp only
  rw [if_pos rfl, readItems_blanks hblanks, hs]
  rfl

theorem readItems_last {s : List Char} (h : readValue fuel (s ++ ']' :: rest) = some (v, ']' :: rest)) :
    readItems (fuel + 1) (s ++ ']' :: rest) = some ([v], rest) := by
  rw [readItems, h, Option.bind_some]
  dsimp only
  rw [skipBlank_cons (by decide)]
  rfl

theorem readValue_obj {s : List Char} {members : List (String × Json)}
    (hdistinct : (members.map Prod.fst).Nodup) (hhead : (skipBlank s).head? ≠ some '\x7d')
    (h : readMembers fuel s = some (members, rest)) :
    readValue (fuel + 1) ('\x7b' :: s) = some (.obj members, rest) := by
  rw [readValue, skipBlank_cons (by decide)]
  dsimp only
  rw [if_neg (by decide), if_neg (by decide), if_pos rfl, if_neg hhead, h]
  simp only [Option.map_some, Dict.items_ofList hdistinct]

/-- The text of a member, with what comes after it. -/
def memberText (style : Style) (blanks : List Char) (k : String) (v : Json) (rest : List Char) :
    List Char :=
  quote style.ensureAscii k ++ ':' :: (blanks ++ (write style v ++ rest))

/-- The reader of a member, up to its value. -/
theorem readMembers_member {k : String} (hblanks : ∀ c ∈ blanks, isBlank c = true)
    (h : readValue fuel (write style v ++ rest) = some (v, rest)) :
    readMembers (fuel + 1) (memberText style blanks k v rest) = match skipBlank rest with
      | [] => none
      | c :: rest =>
        if c = ',' then (readMembers fuel rest).map fun (members, rest) => ((k, v) :: members, rest)
        else if c = '\x7d' then some ([(k, v)], rest)
        else none := by
  set tail := ':' :: (blanks ++ (write style v ++ rest)) with htail
  have htext : memberText style blanks k v rest =
      '"' :: (k.toList.flatMap (escapeChar style.ensureAscii) ++ '"' :: tail) := by
    rw [memberText, quote, List.cons_append, List.append_assoc]
    rfl
  have hlen : k.toList.length <
      ('"' :: (k.toList.flatMap (escapeChar style.ensureAscii) ++ '"' :: tail)).length := by
    have := length_le_escaped style.ensureAscii k.toList
    simp only [List.length_cons, List.length_append]
    omega
  rw [htext, readMembers, skipBlank_cons (by decide), if_neg (by simp), List.tail_cons,
    readString_quote _ _ _ _ hlen, Option.bind_some]
  dsimp only
  rw [htail, skipBlank_cons (by decide), if_neg (by simp), List.tail_cons,
    readValue_blanks hblanks, h, Option.bind_some, String.ofList_toList]

end

mutual
theorem readValue_write {style : Style} (hstyle : style.Readable) :
    ∀ (v : Json) (_ : v.WellFormed) (fuel : Nat) (rest : List Char),
      (write style v).length < fuel → Ends rest →
      readValue fuel (write style v ++ rest) = some (v, rest)
  | v, _, 0, _, hfuel, _ => absurd hfuel (Nat.not_lt_zero _)
  | .null, _, fuel + 1, rest, _, _ => by
    rw [write]
    exact readWord_append "null".toList .null rest
  | .bool true, _, fuel + 1, rest, _, _ => readWord_append "true".toList (.bool true) rest
  | .bool false, _, fuel + 1, rest, _, _ => readWord_append "false".toList (.bool false) rest
  | .num text, h, fuel + 1, rest, _, hrest => by
    rw [write, readValue_number h.1 h.2 hrest, String.ofList_toList]
  | .str s, _, fuel + 1, rest, _, _ => readValue_string style.ensureAscii s
  | .arr [], _, fuel + 1, rest, _, _ => by
    rw [write]
    show readValue (fuel + 1) ('[' :: ']' :: rest) = _
    rw [readValue, skipBlank_cons (by decide)]
    dsimp only
    rw [if_neg (by decide), if_pos rfl, skipBlank_cons (by decide)]
    rfl
  | .arr (v :: items), h, fuel + 1, rest, hfuel, _ => by
    rw [write] at hfuel ⊢
    have hlen : (List.intercalate style.itemSeparator
        (writeItems style (v :: items))).length + 1 < fuel := by
      simp only [List.length_cons, List.length_append, List.length_nil] at hfuel
      omega
    have hitems := readItems_write hstyle v items h fuel rest hlen
    obtain ⟨c, tail, hhead, hblank, hc⟩ := write_head style h.1
    obtain ⟨more, hmore⟩ := intercalate_head style.itemSeparator (write style v)
      (writeItems style items)
    rw [List.cons_append, List.append_assoc]
    refine readValue_arr ?_ hitems
    rw [writeItems, hmore, hhead, List.cons_append, List.cons_append, skipBlank_cons hblank]
    exact fun heq => hc (Option.some.inj heq)
  | .obj [], _, fuel + 1, rest, _, _ => by
    rw [write]
    show readValue (fuel + 1) ('\x7b' :: '\x7d' :: rest) = _
    rw [readValue, skipBlank_cons (by decide)]
    dsimp only
    rw [if_neg (by decide), if_neg (by decide), if_pos rfl, skipBlank_cons (by decide)]
    rfl
  | .obj ((k, v) :: members), h, fuel + 1, rest, hfuel, _ => by
    rw [write] at hfuel ⊢
    have hlen : (List.intercalate style.itemSeparator
        (writeMembers style ((k, v) :: members))).length + 1 < fuel := by
      simp only [List.length_cons, List.length_append, List.length_nil] at hfuel
      omega
    have hmembers := readMembers_write hstyle k v members h.2 fuel rest hlen
    obtain ⟨more, hmore⟩ := intercalate_head style.itemSeparator
      (quote style.ensureAscii k ++ style.keySeparator ++ write style v)
      (writeMembers style members)
    rw [List.cons_append, List.append_assoc]
    refine readValue_obj h.1 ?_ hmembers
    rw [writeMembers, hmore, quote, List.append_assoc, List.append_assoc, List.append_assoc,
      List.cons_append, skipBlank_cons (by decide)]
    exact fun heq => absurd (Option.some.inj heq) (by decide)

theorem readItems_write {style : Style} (hstyle : style.Readable) :
    ∀ (v : Json) (items : List Json) (_ : ItemsWellFormed (v :: items)) (fuel : Nat)
      (rest : List Char),
      (List.intercalate style.itemSeparator (writeItems style (v :: items))).length + 1 < fuel →
      readItems fuel (List.intercalate style.itemSeparator (writeItems style (v :: items)) ++
        ']' :: rest) = some (v :: items, rest)
  | v, items, _, 0, _, hfuel => absurd hfuel (Nat.not_lt_zero _)
  | v, [], h, fuel + 1, rest, hfuel => by
    have hlast : List.intercalate style.itemSeparator (writeItems style [v]) = write style v := by
      simp [writeItems, List.intercalate]
    rw [hlast] at hfuel ⊢
    exact readItems_last (readValue_write hstyle v h.1 fuel (']' :: rest) (by omega)
      (ends_cons (by decide) rest))
  | v, w :: items, h, fuel + 1, rest, hfuel => by
    obtain ⟨blanks, hsep, hblanks⟩ := hstyle.item
    rw [writeItems, writeItems, Text.intercalate_cons_cons, ← writeItems, hsep] at hfuel ⊢
    simp only [List.length_append, List.length_cons] at hfuel
    have hrest := readItems_write hstyle w items h.2 fuel rest (by rw [hsep]; omega)
    rw [hsep] at hrest
    rw [List.append_assoc, List.append_assoc, List.cons_append]
    exact readItems_next hblanks (readValue_write hstyle v h.1 fuel _ (by omega)
      (ends_cons (by decide) _)) hrest

theorem readMembers_write {style : Style} (hstyle : style.Readable) :
    ∀ (k : String) (v : Json) (members : List (String × Json))
      (_ : MembersWellFormed ((k, v) :: members)) (fuel : Nat) (rest : List Char),
      (List.intercalate style.itemSeparator
        (writeMembers style ((k, v) :: members))).length + 1 < fuel →
      readMembers fuel (List.intercalate style.itemSeparator
        (writeMembers style ((k, v) :: members)) ++ '\x7d' :: rest) =
        some ((k, v) :: members, rest)
  | k, v, members, _, 0, _, hfuel => absurd hfuel (Nat.not_lt_zero _)
  | k, v, [], h, fuel + 1, rest, hfuel => by
    obtain ⟨blanks, hkey, hblanks⟩ := hstyle.key
    have hlast : List.intercalate style.itemSeparator (writeMembers style [(k, v)]) =
        quote style.ensureAscii k ++ style.keySeparator ++ write style v := by
      simp [writeMembers, List.intercalate]
    rw [hlast, hkey] at hfuel ⊢
    simp only [List.length_append, List.length_cons] at hfuel
    have hvalue := readValue_write hstyle v h.1 fuel ('\x7d' :: rest) (by omega)
      (ends_cons (by decide) rest)
    have hmember := readMembers_member (k := k) hblanks hvalue
    rw [skipBlank_cons (by decide)] at hmember
    simpa [memberText] using hmember
  | k, v, (k', w) :: members, h, fuel + 1, rest, hfuel => by
    obtain ⟨blanks, hkey, hblanks⟩ := hstyle.key
    obtain ⟨blanks', hsep, hblanks'⟩ := hstyle.item
    rw [writeMembers, writeMembers, Text.intercalate_cons_cons, ← writeMembers, hsep, hkey]
      at hfuel ⊢
    simp only [List.length_append, List.length_cons] at hfuel
    have hrest := readMembers_write hstyle k' w members h.2 fuel rest (by rw [hsep]; omega)
    rw [hsep] at hrest
    have hvalue := readValue_write hstyle v h.1 fuel (',' :: (blanks' ++
      (List.intercalate (',' :: blanks') (writeMembers style ((k', w) :: members)) ++
        '\x7d' :: rest))) (by omega) (ends_cons (by decide) _)
    have hmember := readMembers_member (k := k) hblanks hvalue
    rw [skipBlank_cons (by decide)] at hmember
    dsimp only at hmember
    rw [if_pos rfl, readMembers_blanks hblanks', hrest] at hmember
    simpa [memberText] using hmember
end

/-- A value is read back from the text written for it. -/
theorem loads_write {style : Style} (hstyle : style.Readable) {v : Json} (h : v.WellFormed) :
    loads (String.ofList (write style v)) = some v := by
  have hread := readValue_write hstyle v h ((write style v).length + 1) []
    (Nat.lt_succ_self _) (fun c hc => nomatch hc)
  rw [List.append_nil] at hread
  rw [loads, String.toList_ofList, hread]
  rfl

theorem loads_dumps {v : Json} (h : v.WellFormed) : loads v.dumps = some v :=
  loads_write ⟨⟨[' '], rfl, by decide⟩, ⟨[' '], rfl, by decide⟩⟩ h

/-! The order of the keys does not matter for it. -/

theorem membersWellFormed_iff {members : List (String × Json)} :
    MembersWellFormed members ↔ ∀ m ∈ members, m.2.WellFormed := by
  induction members with
  | nil => simp [MembersWellFormed]
  | cons m rest ih => rw [MembersWellFormed, ih, List.forall_mem_cons]

theorem itemsWellFormed_iff {items : List Json} :
    ItemsWellFormed items ↔ ∀ v ∈ items, v.WellFormed := by
  induction items with
  | nil => simp [ItemsWellFormed]
  | cons v rest ih => rw [ItemsWellFormed, ih, List.forall_mem_cons]

mutual
theorem wellFormed_normal : ∀ v : Json, v.normal.WellFormed ↔ v.WellFormed
  | .null | .bool _ | .num _ | .str _ => by rw [normal]
  | .arr items => by
    rw [normal, WellFormed, WellFormed]
    exact itemsWellFormed_normal items
  | .obj members => by
    have hperm := perm_sortMembers (normalMembers members)
    rw [normal, WellFormed, WellFormed, (hperm.map Prod.fst).nodup_iff, keys_normalMembers,
      membersWellFormed_iff, ← membersWellFormed_normal members, membersWellFormed_iff]
    simp only [hperm.mem_iff]

theorem itemsWellFormed_normal : ∀ items : List Json,
    ItemsWellFormed (normalItems items) ↔ ItemsWellFormed items
  | [] => by rw [normalItems]
  | v :: rest => by
    rw [normalItems, ItemsWellFormed, ItemsWellFormed, wellFormed_normal v,
      itemsWellFormed_normal rest]

theorem membersWellFormed_normal : ∀ members : List (String × Json),
    MembersWellFormed (normalMembers members) ↔ MembersWellFormed members
  | [] => by rw [normalMembers]
  | (k, v) :: rest => by
    rw [normalMembers, MembersWellFormed, MembersWellFormed, wellFormed_normal v,
      membersWellFormed_normal rest]
end

theorem WellFormed.of_normal {v w : Json} (h : v.WellFormed) (heq : w.normal = v.normal) :
    w.WellFormed := by
  rw [← wellFormed_normal, heq, wellFormed_normal]
  exact h

end Json
