import Bantam.Lib.Text

/-! The addresses and networks of Python's `ipaddress`, read from a text and written again. -/

/-- An address of either version. The scope of a version 6 address is what follows its `%`. -/
inductive IpAddress where
  | v4 (ip : BitVec 32)
  | v6 (ip : BitVec 128) (scope : Option (List Char))
  deriving DecidableEq

/-- A network, by its address and the length of its prefix. -/
inductive IpNetwork where
  | v4 (address : BitVec 32) (prefixLength : Nat)
  | v6 (address : BitVec 128) (prefixLength : Nat)
  deriving DecidableEq

namespace IpAddress

/-! Reading. -/

/-- `int(s, 10)` on digits. -/
def decimal (s : List Char) : Nat := s.foldl (fun n c => 10 * n + (c.toNat - 0x30)) 0

/-- `IPv4Address._parse_octet` -/
def parseOctet (s : List Char) : Option Nat :=
  if s = [] ∨ s.all Char.isDigit = false then none
  else if 3 < s.length then none
  else if s ≠ ['0'] ∧ s.head? = some '0' then none
  else if 255 < decimal s then none
  else some (decimal s)

/-- `IPv4Address(s)` -/
def readV4 (s : List Char) : Option (BitVec 32) :=
  if '/' ∈ s ∨ s = [] then none
  else if (s.splitOn '.').length ≠ 4 then none
  else ((s.splitOn '.').mapM parseOctet).map fun octets =>
    BitVec.ofNat 32 (octets.foldl (fun n octet => 256 * n + octet) 0)

/-- `'%x' % n` -/
def hex (n : Nat) : List Char := Nat.toDigits 16 n

/-- `IPv6Address._parse_hextet` -/
def parseHextet (s : List Char) : Option Nat :=
  if 4 < s.length ∨ s = [] then none else Text.hexNumber s

/-- The parts between the colons, where a suffix in the notation of version 4 makes two. -/
def colonParts (s : List Char) : Option (List (List Char)) :=
  let parts := s.splitOn ':'
  if parts.length < 3 then none
  else if '.' ∈ parts.getLastD [] then
    (readV4 (parts.getLastD [])).map fun ip =>
      parts.dropLast ++ [hex (ip.toNat / 2 ^ 16 % 2 ^ 16), hex (ip.toNat % 2 ^ 16)]
  else some parts

/-- How many parts stand before a `::` and how many after it, and how many it skips. -/
def layout (parts : List (List Char)) : Option (Nat × Nat × Nat) :=
  let leading := parts.head? = some []
  let trailing := parts.getLast? = some []
  match (List.range (parts.length - 1)).filter fun i => 0 < i ∧ parts[i]? = some [] with
  | [] => if parts.length ≠ 8 ∨ leading ∨ trailing then none else some (8, 0, 0)
  | [skip] =>
    let high := if leading then skip - 1 else skip
    let low := parts.length - skip - 1 - (if trailing then 1 else 0)
    if leading ∧ high ≠ 0 ∨ trailing ∧ low ≠ 0 ∨ 8 ≤ high + low then none
    else some (high, low, 8 - (high + low))
  | _ => none

def joinHextets (high low : List Nat) (skipped : Nat) : Nat :=
  low.foldl (fun n hextet => 2 ^ 16 * n + hextet)
    (high.foldl (fun n hextet => 2 ^ 16 * n + hextet) 0 * 2 ^ (16 * skipped))

/-- `IPv6Address._ip_int_from_string` -/
def readV6 (s : List Char) : Option (BitVec 128) := do
  let parts ← colonParts s
  if 9 < parts.length then none
  let (high, low, skipped) ← layout parts
  let before ← (parts.take high).mapM parseHextet
  let after ← (parts.drop (parts.length - low)).mapM parseHextet
  pure (BitVec.ofNat 128 (joinHextets before after skipped))

/-- `IPv6Address(s)`: the scope is cut off first. -/
def readScoped (s : List Char) : Option IpAddress :=
  if '/' ∈ s then none
  else
    let address := s.takeWhile (· ≠ '%')
    match s.dropWhile (· ≠ '%') with
    | [] => (readV6 address).map fun ip => .v6 ip none
    | _ :: scope =>
      if scope = [] ∨ '%' ∈ scope then none
      else (readV6 address).map fun ip => .v6 ip (some scope)

/-- `ipaddress.ip_address(text)`, where a text of neither version is an error. -/
def parse (text : String) : Option IpAddress :=
  match readV4 text.toList with
  | some ip => some (.v4 ip)
  | none => readScoped text.toList

/-! Writing. -/

def dotted (ip : BitVec 32) : List Char :=
  List.intercalate ['.'] ([ip.toNat / 2 ^ 24, ip.toNat / 2 ^ 16 % 256, ip.toNat / 2 ^ 8 % 256,
    ip.toNat % 256].map (Nat.toDigits 10))

/-- A run of zero parts, by its start and its length. -/
structure ZeroRun where
  start : Nat
  length : Nat

/-- The loop of `_compress_hextets`: the longest run of zeros so far, the one that the next
part may go on with, and the next index. -/
def longestRun (parts : List (List Char)) : ZeroRun :=
  let step := fun (acc : ZeroRun × ZeroRun × Nat) part =>
    let (best, current, index) := acc
    if part = ['0'] then
      let current : ZeroRun := if current.length = 0 then ⟨index, 1⟩
        else ⟨current.start, current.length + 1⟩
      (if best.length < current.length then current else best, current, index + 1)
    else (best, ⟨0, 0⟩, index + 1)
  (parts.foldl step (⟨0, 0⟩, ⟨0, 0⟩, 0)).1

/-- `_compress_hextets` -/
def compressHextets (parts : List (List Char)) : List (List Char) :=
  let best := longestRun parts
  if 1 < best.length then
    (if best.start = 0 then [[]] else []) ++ parts.take best.start ++
      [] :: parts.drop (best.start + best.length) ++
      (if best.start + best.length = parts.length then [[]] else [])
  else parts

def colonText (ip : BitVec 128) : List Char :=
  List.intercalate [':'] (compressHextets
    ((List.range 8).map fun i => hex (ip.toNat / 2 ^ (16 * (7 - i)) % 2 ^ 16)))

/-- `address.compressed`. The versions of the library differ in how they write an address of
version 4 that is mapped to version 6: in newer ones, its last part is `dottedTail`. -/
def compressed (dottedTail : Bool) : IpAddress → String
  | .v4 ip => String.ofList (dotted ip)
  | .v6 ip scope =>
    let text := if dottedTail && ip.toNat / 2 ^ 32 = 0xffff then
        colonText (BitVec.ofNat 128 (ip.toNat / 2 ^ 32)) ++
          ':' :: dotted (BitVec.ofNat 32 (ip.toNat % 2 ^ 32))
      else colonText ip
    String.ofList (text ++ (match scope with
      | none => []
      | some scope => '%' :: scope))

end IpAddress

namespace IpNetwork

def netmask (width prefixLength : Nat) : BitVec width :=
  BitVec.allOnes width <<< (width - prefixLength)

/-- `address in network`, for an address of the network's version. -/
def contains : IpNetwork → IpAddress → Bool
  | .v4 address prefixLength, .v4 ip => ip &&& netmask 32 prefixLength = address
  | .v6 address prefixLength, .v6 ip _ => ip &&& netmask 128 prefixLength = address
  | _, _ => false

end IpNetwork

namespace IpAddress

example : (["127.0.0.1", "2001:DB8::8:0:0:1", "::", "::ffff:1.2.3.4", "fe80::1%eth0", "1.2.3",
    "01.2.3.4", "1:::2", "1::2::3"].map fun s => (parse s).map (compressed false)) =
    [some "127.0.0.1", some "2001:db8::8:0:0:1", some "::", some "::ffff:102:304",
      some "fe80::1%eth0", none, none, none, none] := by decide +kernel

end IpAddress
