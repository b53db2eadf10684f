import Bantam.Lib.JsonText
import Mathlib.Data.List.DropRight

/-! JSON as bytes: the encoding is told from the first bytes of the text. -/
namespace Json

/-- `str.encode()` -/
def encodeUtf8 (s : List Char) : List UInt8 := s.flatMap String.utf8EncodeChar

/-- `bytes.decode("utf-8")`, where an encoded surrogate is no character. -/
def decodeUtf8 (bytes : List UInt8) : Option (List Char) :=
  bytes.toByteArray.utf8Decode?.map Array.toList

inductive Encoding where
  | utf8 | utf8Sig | utf16 | utf16Be | utf16Le | utf32 | utf32Be | utf32Le
  deriving DecidableEq

/-- `json.detect_encoding` -/
def detectEncoding (b : List UInt8) : Encoding :=
  if [0x00, 0x00, 0xfe, 0xff].isPrefixOf b || [0xff, 0xfe, 0x00, 0x00].isPrefixOf b then .utf32
  else if [0xfe, 0xff].isPrefixOf b || [0xff, 0xfe].isPrefixOf b then .utf16
  else if [0xef, 0xbb, 0xbf].isPrefixOf b then .utf8Sig
  else match b with
    | b0 :: b1 :: b2 :: b3 :: _ =>
      if b0 = 0 then (if b1 ≠ 0 then .utf16Be else .utf32Be)
      else if b1 = 0 then (if b2 ≠ 0 ∨ b3 ≠ 0 then .utf16Le else .utf32Le)
      else .utf8
    | [b0, b1] => if b0 = 0 then .utf16Be else if b1 = 0 then .utf16Le else .utf8
    | _ => .utf8

/-- `json.loads` of bytes. The wider encodings are those of the `codec`. -/
def loadsBytes (codec : Encoding → List UInt8 → Option (List Char)) (b : List UInt8) : Option Json :=
  let text := match detectEncoding b with
    | .utf8 => decodeUtf8 b
    | .utf8Sig => decodeUtf8 (b.drop 3)
    | wide => codec wide b
  text.bind fun s => loads (String.ofList s)

theorem decodeUtf8_encodeUtf8 (s : List Char) : decodeUtf8 (encodeUtf8 s) = some s := by
  have h : s.utf8Encode.utf8Decode? = some s.toArray := List.utf8Decode?_utf8Encode
  rw [decodeUtf8, encodeUtf8, ← List.utf8Encode, h]
  rfl

/-- What is decoded is encoded as it was. -/
theorem encodeUtf8_of_decodeUtf8 {bytes : List UInt8} {s : List Char}
    (h : decodeUtf8 bytes = some s) : encodeUtf8 s = bytes := by
  obtain ⟨chars, hchars, rfl⟩ := Option.map_eq_some_iff.mp h
  have hsome : bytes.toByteArray.utf8Decode?.isSome := by rw [hchars]; rfl
  have hback := ByteArray.utf8Encode_get_utf8Decode? (b := bytes.toByteArray) (h := hsome)
  simp only [hchars, Option.get_some] at hback
  have hlists := congrArg (fun b => b.data.toList) hback
  simpa [encodeUtf8, List.utf8Encode] using hlists

theorem length_encodeUtf8 (s : List Char) : (encodeUtf8 s).length = Text.utf8Length s := by
  rw [encodeUtf8, List.length_flatMap, Text.utf8Length]
  exact congrArg List.sum (List.map_congr_left fun c _ => String.length_utf8EncodeChar c)

/-! A text of ASCII characters other than NUL is UTF-8. -/

/-- ASCII and not NUL. -/
def Plain (c : Char) : Prop := 0 < c.toNat ∧ c.toNat < 128

instance (c : Char) : Decidable (Plain c) := inferInstanceAs (Decidable (_ ∧ _))

theorem encodeUtf8_plain {c : Char} (h : Plain c) :
    String.utf8EncodeChar c = [UInt8.ofNat c.toNat] := by
  have hle : c.val.toNat ≤ 0x7f := Nat.lt_succ_iff.mp h.2
  exact if_pos hle

theorem byte_plain {c : Char} (h : Plain c) :
    UInt8.ofNat c.toNat ≠ 0 ∧ (UInt8.ofNat c.toNat).toNat < 128 := by
  have hlow : c.toNat % 256 = c.toNat := Nat.mod_eq_of_lt (by have := h.2; omega)
  have hval : (UInt8.ofNat c.toNat).toNat = c.toNat := by
    rw [UInt8.toNat_ofNat']
    exact hlow
  refine ⟨fun hzero => ?_, by rw [hval]; exact h.2⟩
  have := h.1
  rw [← hval, hzero] at this
  exact absurd this (by decide)

theorem encodeUtf8_bytes {s : List Char} (h : ∀ c ∈ s, Plain c) :
    ∀ b ∈ encodeUtf8 s, b ≠ 0 ∧ b.toNat < 128 := by
  intro b hb
  obtain ⟨c, hc, hb⟩ := List.mem_flatMap.mp hb
  rw [encodeUtf8_plain (h c hc), List.mem_singleton] at hb
  rw [hb]
  exact byte_plain (h c hc)

theorem mark_not_leading {mark : UInt8} {rest b : List UInt8} (hmark : mark = 0 ∨ 128 ≤ mark.toNat)
    (h : ∀ x ∈ b, x ≠ 0 ∧ x.toNat < 128) : (mark :: rest).isPrefixOf b = false := by
  cases b with
  | nil => rfl
  | cons x b =>
    have hx := h x List.mem_cons_self
    have hne : mark ≠ x := by
      intro heq
      cases hmark with
      | inl hzero => exact hx.1 (heq ▸ hzero)
      | inr hhigh => rw [heq] at hhigh; omega
    rw [List.isPrefixOf, beq_false_of_ne hne, Bool.false_and]

theorem detectEncoding_plain {b : List UInt8} (h : ∀ x ∈ b, x ≠ 0 ∧ x.toNat < 128) :
    detectEncoding b = .utf8 := by
  have hff : 128 ≤ (0xff : UInt8).toNat := by decide
  have hfe : 128 ≤ (0xfe : UInt8).toNat := by decide
  have hef : 128 ≤ (0xef : UInt8).toNat := by decide
  unfold detectEncoding
  rw [mark_not_leading (.inl rfl) h, mark_not_leading (.inr hff) h, mark_not_leading (.inr hfe) h,
    mark_not_leading (.inr hff) h, mark_not_leading (.inr hef) h]
  simp only [Bool.or_self, Bool.false_eq_true, if_false]
  match b, h with
  | [], _ => rfl
  | [_], _ => rfl
  | [b0, b1], h =>
    simp only
    rw [if_neg (h b0 (by simp)).1, if_neg (h b1 (by simp)).1]
  | [_, _, _], _ => rfl
  | b0 :: b1 :: _ :: _ :: _, h =>
    simp only
    rw [if_neg (h b0 (by simp)).1, if_neg (h b1 (by simp)).1]

/-! What is written with escapes outside ASCII is such a text. -/

theorem hexDigit_plain : ∀ n < 16, Plain (Text.hexDigit n) := by decide

theorem hexDigits_plain (k n : Nat) : ∀ c ∈ Text.hexDigits k n, Plain c := by
  induction k generalizing n with
  | zero => exact fun c hc => nomatch hc
  | succ k ih =>
    intro c hc
    cases List.mem_append.mp hc with
    | inl hc => exact ih _ c hc
    | inr hc =>
      rw [List.mem_singleton.mp hc]
      exact hexDigit_plain _ (Nat.mod_lt _ (by decide))

theorem unicodeEscape_plain (n : Nat) : ∀ c ∈ unicodeEscape n, Plain c := by
  have hslash : Plain '\\' := by decide
  have hu : Plain 'u' := by decide
  unfold unicodeEscape
  split_ifs with h
  · simp only [List.forall_mem_cons]
    exact ⟨hslash, hu, hexDigits_plain 4 n⟩
  · simp only [List.forall_mem_cons, List.forall_mem_append]
    exact ⟨hslash, hu, hexDigits_plain 4 _, hslash, hu, hexDigits_plain 4 _⟩

theorem escapeChar_plain (c : Char) : ∀ d ∈ escapeChar true c, Plain d := by
  unfold escapeChar
  split_ifs with h1 h2 h3 h4 h5 h6 h7 h8
  case pos => decide
  case pos => decide
  case pos => decide
  case pos => decide
  case pos => decide
  case pos => decide
  case pos => decide
  case pos => exact unicodeEscape_plain c.toNat
  case neg =>
    simp only [Bool.true_and, Bool.or_eq_true, decide_eq_true_eq, not_or, not_lt] at h8
    intro d hd
    rw [List.mem_singleton.mp hd]
    exact ⟨by omega, by omega⟩

theorem quote_plain (s : String) : ∀ c ∈ quote true s, Plain c := by
  have hquote : Plain '"' := by decide
  intro c hc
  rw [quote, List.mem_cons, List.mem_append, List.mem_singleton, List.mem_flatMap] at hc
  obtain rfl | ⟨d, -, hd⟩ | rfl := hc
  · exact hquote
  · exact escapeChar_plain d c hd
  · exact hquote

theorem numberChar_ascii {c : Char} (h : isNumberChar c = true) : Plain c := by
  simp only [isNumberChar, Char.isDigit, Bool.or_eq_true, Bool.and_eq_true, decide_eq_true_eq] at h
  obtain ((((hdigit | rfl) | rfl) | rfl) | rfl) | rfl := h
  · have hlow : 48 ≤ c.toNat := UInt32.le_iff_toNat_le.mp hdigit.1
    have hhigh : c.toNat ≤ 57 := UInt32.le_iff_toNat_le.mp hdigit.2
    exact ⟨by omega, by omega⟩
  all_goals decide

section
variable {style : Style}

/-- The separators are ASCII, and other characters are escaped. -/
structure Style.Ascii (style : Style) : Prop where
  escaped : style.ensureAscii = true
  item : ∀ c ∈ style.itemSeparator, Plain c
  key : ∀ c ∈ style.keySeparator, Plain c

mutual
theorem write_plain (hstyle : style.Ascii) :
    ∀ v : Json, v.WellFormed → ∀ c ∈ write style v, Plain c
  | .null, _ => by
    rw [write]
    decide
  | .bool true, _ => by
    rw [write]
    decide
  | .bool false, _ => by
    rw [write]
    decide
  | .num text, h => fun c hc => numberChar_ascii (h.2 c hc)
  | .str s, _ => by
    rw [write, hstyle.escaped]
    exact quote_plain s
  | .arr items, h => by
    rw [write]
    simp only [List.forall_mem_cons, List.forall_mem_append]
    exact ⟨by decide, Text.forall_mem_intercalate hstyle.item (writeItems_plain hstyle items h),
      by decide, fun c hc => nomatch hc⟩
  | .obj members, h => by
    rw [write]
    simp only [List.forall_mem_cons, List.forall_mem_append]
    exact ⟨by decide,
      Text.forall_mem_intercalate hstyle.item (writeMembers_plain hstyle members h.2),
      by decide, fun c hc => nomatch hc⟩

theorem writeItems_plain (hstyle : style.Ascii) :
    ∀ items : List Json, ItemsWellFormed items →
      ∀ part ∈ writeItems style items, ∀ c ∈ part, Plain c
  | [], _ => fun part hpart => nomatch hpart
  | v :: rest, h => by
    rw [writeItems, List.forall_mem_cons]
    exact ⟨write_plain hstyle v h.1, writeItems_plain hstyle rest h.2⟩

theorem writeMembers_plain (hstyle : style.Ascii) :
    ∀ members : List (String × Json), MembersWellFormed members →
      ∀ part ∈ writeMembers style members, ∀ c ∈ part, Plain c
  | [], _ => fun part hpart => nomatch hpart
  | (k, v) :: rest, h => by
    rw [writeMembers, List.forall_mem_cons, hstyle.escaped]
    refine ⟨?_, writeMembers_plain hstyle rest h.2⟩
    simp only [List.forall_mem_append]
    exact ⟨⟨quote_plain k, hstyle.key⟩, write_plain hstyle v h.1⟩
end

/-- A value is read back from its bytes, whatever the wider encodings are. -/
theorem loadsBytes_write (codec : Encoding → List UInt8 → Option (List Char))
    (hascii : style.Ascii) (hreadable : style.Readable) {v : Json} (h : v.WellFormed) :
    loadsBytes codec (encodeUtf8 (write style v)) = some v := by
  have hdetect : detectEncoding (encodeUtf8 (write style v)) = .utf8 :=
    detectEncoding_plain (encodeUtf8_bytes (write_plain hascii v h))
  unfold loadsBytes
  rw [hdetect]
  dsimp only
  rw [decodeUtf8_encodeUtf8, Option.bind_some, loads_write hreadable h]

end

/-! Whole numbers. -/

/-- An integer, as `json.dumps` writes it. -/
def int (n : Int) : Json := .num (toString n)

theorem toDigits_head {n : Nat} (h : 0 < n) : (Nat.toDigits 10 n).head? ≠ some '0' := by
  induction n using Nat.strong_induction_on with
  | _ n ih =>
    by_cases hsmall : n < 10
    · rw [Nat.toDigits_of_lt_base hsmall, List.head?_cons, ne_eq, Option.some.injEq,
        Nat.digitChar_eq_zero]
      omega
    · have hq : 0 < n / 10 := by omega
      rw [Nat.toDigits_of_base_le (by decide) (by omega),
        List.head?_append_of_ne_nil _ Nat.toDigits_ne_nil]
      exact ih (n / 10) (by omega) hq

theorem toDigits_digits (n : Nat) : ∀ c ∈ Nat.toDigits 10 n, c.isDigit = true :=
  fun _ hc => Nat.isDigit_of_mem_toDigits (by decide) (by decide) hc

theorem isNumber_digits {s : List Char} (hne : s ≠ []) (hall : ∀ c ∈ s, c.isDigit = true)
    (hhead : s.head? ≠ some '0' ∨ s.length = 1) : isNumber s = true ∧ isNumber ('-' :: s) = true := by
  have hminus : s.head? ≠ some '-' := by
    intro h
    have := hall '-' (List.mem_of_mem_head? h)
    exact absurd this (by decide)
  have htake : s.takeWhile Char.isDigit = s := List.takeWhile_eq_self_iff.mpr hall
  have hdrop : s.dropWhile Char.isDigit = [] := List.dropWhile_eq_nil_iff.mpr hall
  have hwhole : (!s.isEmpty && (s.head? ≠ some '0' || s.length = 1)) = true := by
    simpa [hne] using hhead
  constructor
  · unfold isNumber
    rw [if_neg hminus]
    dsimp only
    rw [htake, hdrop, hwhole]
    rfl
  · unfold isNumber
    rw [if_pos List.head?_cons, List.tail_cons]
    dsimp only
    rw [htake, hdrop, hwhole]
    rfl

theorem int_wellFormed (n : Int) : (int n).WellFormed := by
  have hnat (k : Nat) : (Nat.toDigits 10 k).head? ≠ some '0' ∨ (Nat.toDigits 10 k).length = 1 := by
    cases k with
    | zero => exact .inr rfl
    | succ k => exact .inl (toDigits_head (Nat.succ_pos k))
  have hchars (k : Nat) : ∀ c ∈ Nat.toDigits 10 k, isNumberChar c = true := by
    intro c hc
    rw [isNumberChar, toDigits_digits k c hc]
    rfl
  cases n with
  | ofNat k =>
    have htext : (toString (Int.ofNat k)).toList = Nat.toDigits 10 k := Nat.toList_repr
    have hnumber := isNumber_digits Nat.toDigits_ne_nil (toDigits_digits k) (hnat k)
    rw [int, WellFormed, htext]
    exact ⟨hnumber.1, hchars k⟩
  | negSucc k =>
    have htext : (toString (Int.negSucc k)).toList = '-' :: Nat.toDigits 10 (k + 1) := by
      show ("-" ++ Nat.repr (k + 1)).toList = _
      rw [String.toList_append, Nat.toList_repr]
      rfl
    have hnumber := isNumber_digits Nat.toDigits_ne_nil (toDigits_digits (k + 1)) (hnat (k + 1))
    rw [int, WellFormed, htext]
    refine ⟨hnumber.2, ?_⟩
    rw [List.forall_mem_cons]
    exact ⟨by decide, hchars (k + 1)⟩

end Json
