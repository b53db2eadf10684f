import Bantam.Lib.Text

/-! JSON values, the text that `json.dumps` writes for them and the order of their keys. -/

/-- A value as the parser hands it over: a number by its text, an object by its members. -/
inductive Json where
  | null
  | bool (b : Bool)
  | num (text : String)
  | str (s : String)
  | arr (items : List Json)
  | obj (members : List (String × Json))

namespace Json
variable {k : String} {v w : Json}

def member? (k : String) : List (String × Json) → Option Json
  | [] => none
  | (k', v) :: rest => if k = k' then some v else member? k rest

theorem mem_of_member? {members : List (String × Json)} (h : member? k members = some v) :
    (k, v) ∈ members := by
  induction members with
  | nil => exact absurd h (Option.some_ne_none v).symm
  | cons m rest ih =>
    rw [member?] at h
    split at h
    · next heq =>
      cases heq
      cases Option.some.inj h
      exact List.mem_cons_self
    · exact List.mem_cons_of_mem m (ih h)

theorem member?_of_mem {members : List (String × Json)} (hkeys : (members.map Prod.fst).Nodup)
    (h : (k, v) ∈ members) : member? k members = some v := by
  induction members with
  | nil => exact absurd h List.not_mem_nil
  | cons m rest ih =>
    obtain ⟨hnew, hrest⟩ := List.nodup_cons.mp hkeys
    rw [member?]
    cases List.mem_cons.mp h with
    | inl heq => rw [← heq, if_pos rfl]
    | inr htail =>
      rw [if_neg, ih hrest htail]
      exact fun heq => hnew (heq ▸ List.mem_map_of_mem (f := Prod.fst) htail)

/-- `value.get(key)` of a dictionary. -/
def get? (key : String) : Json → Option Json
  | .obj members => member? key members
  | _ => none

/-! Places. -/

inductive Step where
  | key (name : String)
  | index (i : Nat)

/-- The value at the end of a path. -/
def at? : List Step → Json → Option Json
  | [], v => some v
  | .key name :: path, .obj members => (member? name members).bind (at? path)
  | .index i :: path, .arr items => items[i]?.bind (at? path)
  | _, _ => none

/-- A list of strings. -/
def strings (l : List String) : Json := .arr (l.map .str)

def nat (n : Nat) : Json := .num (toString n)

/-! Keys in order. -/

def insertMember (m : String × Json) : List (String × Json) → List (String × Json)
  | [] => [m]
  | n :: rest => if m.1 ≤ n.1 then m :: n :: rest else n :: insertMember m rest

def sortMembers (members : List (String × Json)) : List (String × Json) :=
  members.foldr insertMember []

mutual
/-- The value with the keys of its objects in order, at every depth. -/
def normal : Json → Json
  | .null => .null
  | .bool b => .bool b
  | .num text => .num text
  | .str s => .str s
  | .arr items => .arr (normalItems items)
  | .obj members => .obj (sortMembers (normalMembers members))

def normalItems : List Json → List Json
  | [] => []
  | v :: rest => v.normal :: normalItems rest

def normalMembers : List (String × Json) → List (String × Json)
  | [] => []
  | (k, v) :: rest => (k, v.normal) :: normalMembers rest
end

/-! Text. -/

/-- `\uXXXX`, for a code point beyond the basic plane a surrogate pair. -/
def unicodeEscape (n : Nat) : List Char :=
  if n < 0x10000 then '\\' :: 'u' :: Text.hexDigits 4 n
  else '\\' :: 'u' :: (Text.hexDigits 4 (0xd800 + (n - 0x10000) / 0x400) ++
    '\\' :: 'u' :: Text.hexDigits 4 (0xdc00 + (n - 0x10000) % 0x400))

def escapeChar (ensureAscii : Bool) (c : Char) : List Char :=
  if c = '"' then ['\\', '"']
  else if c = '\\' then ['\\', '\\']
  else if c = '\n' then ['\\', 'n']
  else if c = '\r' then ['\\', 'r']
  else if c = '\t' then ['\\', 't']
  else if c.toNat = 0x08 then ['\\', 'b']
  else if c.toNat = 0x0c then ['\\', 'f']
  else if c.toNat < 32 || (ensureAscii && 126 < c.toNat) then unicodeEscape c.toNat
  else [c]

def quote (ensureAscii : Bool) (s : String) : List Char :=
  '"' :: (s.toList.flatMap (escapeChar ensureAscii) ++ ['"'])

/-- The arguments of `json.dumps` beside `sort_keys`. -/
structure Style where
  itemSeparator : List Char
  keySeparator : List Char
  ensureAscii : Bool

mutual
def write (style : Style) : Json → List Char
  | .null => "null".toList
  | .bool b => if b then "true".toList else "false".toList
  | .num text => text.toList
  | .str s => quote style.ensureAscii s
  | .arr items => '[' :: (List.intercalate style.itemSeparator (writeItems style items) ++ [']'])
  | .obj members =>
    '\x7b' :: (List.intercalate style.itemSeparator (writeMembers style members) ++ ['\x7d'])

def writeItems (style : Style) : List Json → List (List Char)
  | [] => []
  | v :: rest => write style v :: writeItems style rest

def writeMembers (style : Style) : List (String × Json) → List (List Char)
  | [] => []
  | (k, v) :: rest =>
    (quote style.ensureAscii k ++ style.keySeparator ++ write style v) :: writeMembers style rest
end

/-- `json.dumps(value)` -/
def dumps (v : Json) : String := String.ofList (write ⟨[',', ' '], [':', ' '], true⟩ v)

/-- `json.dumps(value, sort_keys=True, separators=(",", ":"), ensure_ascii=False)` -/
def canonical (v : Json) : String := String.ofList (write ⟨[','], [':'], false⟩ v.normal)

/-! What the order of the keys leaves alone. -/

theorem canonical_eq (h : v.normal = w.normal) : v.canonical = w.canonical := by
  rw [canonical, canonical, h]

theorem member?_insertMember (m : String × Json) (members : List (String × Json)) (k : String) :
    member? k (insertMember m members) = if k = m.1 then some m.2 else member? k members := by
  induction members with
  | nil => rfl
  | cons n rest ih =>
    rw [insertMember]
    by_cases hle : m.1 ≤ n.1
    · rw [if_pos hle]
      rfl
    · rw [if_neg hle, member?, ih, member?]
      by_cases hk : k = n.1
      · have hne : k ≠ m.1 := by
          rintro rfl
          exact hle (hk ▸ String.le_refl _)
        rw [if_pos hk, if_neg hne, if_pos hk]
      · rw [if_neg hk, if_neg hk]

theorem member?_sortMembers (members : List (String × Json)) (k : String) :
    member? k (sortMembers members) = member? k members := by
  induction members with
  | nil => rfl
  | cons m rest ih =>
    rw [sortMembers, List.foldr_cons, member?_insertMember, member?, ← ih]
    rfl

theorem member?_normalMembers (members : List (String × Json)) (k : String) :
    member? k (normalMembers members) = (member? k members).map normal := by
  induction members with
  | nil => rfl
  | cons m rest ih =>
    rw [normalMembers, member?, member?, ih]
    by_cases hk : k = m.1
    · rw [if_pos hk, if_pos hk]
      rfl
    · rw [if_neg hk, if_neg hk]

theorem get?_normal (k : String) (v : Json) : v.normal.get? k = (v.get? k).map normal := by
  cases v with
  | obj members => rw [normal, get?, member?_sortMembers, member?_normalMembers, get?]
  | _ => rfl

theorem normalItems_eq (items : List Json) : normalItems items = items.map normal := by
  induction items with
  | nil => rfl
  | cons v rest ih => rw [normalItems, ih, List.map_cons]

theorem perm_insertMember (m : String × Json) (members : List (String × Json)) :
    (insertMember m members).Perm (m :: members) := by
  induction members with
  | nil => exact List.Perm.refl _
  | cons n rest ih =>
    rw [insertMember]
    by_cases hle : m.1 ≤ n.1
    · rw [if_pos hle]
    · rw [if_neg hle]
      exact (ih.cons n).trans (List.Perm.swap m n rest)

theorem perm_sortMembers (members : List (String × Json)) :
    (sortMembers members).Perm members := by
  induction members with
  | nil => exact List.Perm.refl _
  | cons m rest ih =>
    rw [sortMembers, List.foldr_cons]
    exact (perm_insertMember m _).trans (ih.cons m)

theorem keys_normalMembers (members : List (String × Json)) :
    (normalMembers members).map Prod.fst = members.map Prod.fst := by
  induction members with
  | nil => rfl
  | cons m rest ih => rw [normalMembers, List.map_cons, List.map_cons, ih]

/-- The keys of an object, in any order. -/
theorem mem_keys_normal {members : List (String × Json)} :
    k ∈ (sortMembers (normalMembers members)).map Prod.fst ↔ k ∈ members.map Prod.fst := by
  rw [((perm_sortMembers _).map Prod.fst).mem_iff, keys_normalMembers]

end Json
