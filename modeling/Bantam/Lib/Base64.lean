import Mathlib.Data.List.Basic
import Mathlib.Tactic.Common

/-! Base64 with padding, and the strict reader that takes nothing but what the writer makes. -/
namespace Base64

def alphabet : List Char :=
  "ABCDEFGHIJKLMNOPQRSTUVWXYZabcdefghijklmnopqrstuvwxyz0123456789+/".toList

def digit (n : Nat) : Char := alphabet.getD n 'A'

def value (c : Char) : Option Nat := alphabet.idxOf? c

/-- `base64.b64encode`: three bytes become four characters, and what is left at the end is
padded. -/
def encode : List UInt8 → List Char
  | [] => []
  | [a] => [digit (a.toNat / 4), digit (a.toNat % 4 * 16), '=', '=']
  | [a, b] =>
    [digit (a.toNat / 4), digit (a.toNat % 4 * 16 + b.toNat / 16), digit (b.toNat % 16 * 4), '=']
  | a :: b :: c :: rest =>
    digit (a.toNat / 4) :: digit (a.toNat % 4 * 16 + b.toNat / 16) ::
      digit (b.toNat % 16 * 4 + c.toNat / 64) :: digit (c.toNat % 64) :: encode rest

/-- The byte before the digits' boundary `at`, from its high and its low bits. -/
def byte (high low : Nat) : UInt8 := UInt8.ofNat (high + low)

/-- `base64.b64decode(s, validate=True)`. Padding stands at the end, and no other character
than a digit beside it. -/
def decode : List Char → Option (List UInt8)
  | [] => some []
  | p :: q :: r :: s :: rest =>
    (value p).bind fun i => (value q).bind fun j =>
      if s = '=' then
        if rest ≠ [] then none
        else if r = '=' then some [byte (i * 4) (j / 16)]
        else (value r).map fun k => [byte (i * 4) (j / 16), byte (j % 16 * 16) (k / 4)]
      else (value r).bind fun k => (value s).bind fun l => (decode rest).map fun bytes =>
        byte (i * 4) (j / 16) :: byte (j % 16 * 16) (k / 4) :: byte (k % 4 * 64) l :: bytes
  | _ => none

section
variable {n : Nat}

theorem value_digit : ∀ n < 64, value (digit n) = some n := by decide +kernel

theorem digit_ne_pad : ∀ n < 64, digit n ≠ '=' := by decide +kernel

theorem byte_eq {a : UInt8} {high low : Nat} (h : high + low = a.toNat) : byte high low = a := by
  rw [byte, h, UInt8.ofNat_toNat]

end

/-- What is written is read back. -/
theorem decode_encode (bytes : List UInt8) : decode (encode bytes) = some bytes := by
  induction bytes using encode.induct with
  | case1 => rfl
  | case2 a =>
    have ha := a.toNat_lt
    rw [encode, decode, value_digit _ (by omega), value_digit _ (by omega)]
    have hbyte : byte (a.toNat / 4 * 4) (a.toNat % 4 * 16 / 16) = a := byte_eq (by omega)
    simp only [Option.bind_some, ne_eq, not_true_eq_false, if_true, if_false, hbyte]
  | case3 a b =>
    have ha := a.toNat_lt
    have hb := b.toNat_lt
    have hpad : digit (b.toNat % 16 * 4) ≠ '=' := digit_ne_pad _ (by omega)
    rw [encode, decode, value_digit _ (by omega), value_digit _ (by omega),
      value_digit _ (by omega)]
    have hfirst : byte (a.toNat / 4 * 4) ((a.toNat % 4 * 16 + b.toNat / 16) / 16) = a :=
      byte_eq (by omega)
    have hsecond : byte ((a.toNat % 4 * 16 + b.toNat / 16) % 16 * 16) (b.toNat % 16 * 4 / 4) = b :=
      byte_eq (by omega)
    simp only [Option.bind_some, Option.map_some, ne_eq, not_true_eq_false, if_true, if_false, hpad,
      hfirst, hsecond]
  | case4 a b c rest ih =>
    have ha := a.toNat_lt
    have hb := b.toNat_lt
    have hc := c.toNat_lt
    have hpad : digit (c.toNat % 64) ≠ '=' := digit_ne_pad _ (by omega)
    rw [encode, decode, value_digit _ (by omega), value_digit _ (by omega),
      value_digit _ (by omega), value_digit _ (by omega), ih]
    have hfirst : byte (a.toNat / 4 * 4) ((a.toNat % 4 * 16 + b.toNat / 16) / 16) = a :=
      byte_eq (by omega)
    have hsecond : byte ((a.toNat % 4 * 16 + b.toNat / 16) % 16 * 16)
        ((b.toNat % 16 * 4 + c.toNat / 64) / 4) = b := byte_eq (by omega)
    have hthird : byte ((b.toNat % 16 * 4 + c.toNat / 64) % 4 * 64) (c.toNat % 64) = c :=
      byte_eq (by omega)
    simp only [Option.bind_some, Option.map_some, if_false, hpad, hfirst, hsecond, hthird]

/-- What is written has digits and padding alone. -/
theorem mem_encode {bytes : List UInt8} {c : Char} (h : c ∈ encode bytes) :
    c = '=' ∨ ∃ n < 64, c = digit n := by
  have hbyte : ∀ a : UInt8, a.toNat < 256 := fun a => a.toNat_lt
  induction bytes using encode.induct with
  | case1 => cases h
  | case2 a =>
    have ha := hbyte a
    simp only [encode, List.mem_cons, List.not_mem_nil, or_false] at h
    obtain rfl | rfl | rfl | rfl := h
    · exact .inr ⟨_, by omega, rfl⟩
    · exact .inr ⟨_, by omega, rfl⟩
    · exact .inl rfl
    · exact .inl rfl
  | case3 a b =>
    have ha := hbyte a
    have hb := hbyte b
    simp only [encode, List.mem_cons, List.not_mem_nil, or_false] at h
    obtain rfl | rfl | rfl | rfl := h
    · exact .inr ⟨_, by omega, rfl⟩
    · exact .inr ⟨_, by omega, rfl⟩
    · exact .inr ⟨_, by omega, rfl⟩
    · exact .inl rfl
  | case4 a b c rest ih =>
    have ha := hbyte a
    have hb := hbyte b
    have hc := hbyte c
    simp only [encode, List.mem_cons] at h
    obtain rfl | rfl | rfl | rfl | h := h
    · exact .inr ⟨_, by omega, rfl⟩
    · exact .inr ⟨_, by omega, rfl⟩
    · exact .inr ⟨_, by omega, rfl⟩
    · exact .inr ⟨_, by omega, rfl⟩
    · exact ih h

end Base64
