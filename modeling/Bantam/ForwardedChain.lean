import Bantam.Lib.Containers
import Bantam.Lib.IpAddress

/-! `client_ip`: which address a request behind proxies is counted under, and how far the text
that the client itself put into the header can move it. -/
namespace Bantam

/-- `MAX_FORWARDED_HOPS` -/
def maxForwardedHops : Nat := 10

/-- `_is_trusted` -/
def isTrusted (networks : List IpNetwork) (address : IpAddress) : Bool :=
  networks.any fun network => network.contains address

/-- `[item.strip() for item in raw_forwarded.split(",") if item.strip()]` -/
def forwardedValues (header : List Char) : List (List Char) :=
  ((header.splitOn ',').map Text.stripChars).filter (· ≠ [])

def parseChars (s : List Char) : Option IpAddress := IpAddress.parse (String.ofList s)

/-- What `client_ip` reads of a request: the host of its peer and the header. -/
structure ProxiedRequest where
  host : Option String
  forwarded : Option String

section
variable (dottedTail : Bool) (trusted : List IpNetwork)

/-- The walk from right to left over the chain and the peer. -/
def firstUntrusted (chain : List IpAddress) (peer : IpAddress) : IpAddress :=
  ((chain ++ [peer]).reverse.find? fun address => !isTrusted trusted address).getD
    (chain.headD peer)

/-- `client_ip`. The text of an address is that of the library's version. -/
def clientIp (request : ProxiedRequest) : String :=
  match IpAddress.parse (request.host.getD "") with
  | none => "unknown"
  | some peer =>
    if isTrusted trusted peer = false then peer.compressed dottedTail
    else
      let values := forwardedValues (request.forwarded.getD "").toList
      if values = [] ∨ maxForwardedHops < values.length then peer.compressed dottedTail
      else match values.mapM parseChars with
        -- A malformed chain is not partially trusted.
        | none => peer.compressed dottedTail
        | some chain => (firstUntrusted trusted chain peer).compressed dottedTail

end

/-! What the proxies append. -/

/-- An item that a proxy appends: the text of one address. -/
structure Hop where
  text : List Char
  address : IpAddress
  comma : ',' ∉ text
  reads : parseChars (Text.stripChars text) = some address

def appendHop (header : List Char) (hop : Hop) : List Char :=
  if header = [] then hop.text else header ++ ',' :: hop.text

/-- The header when each proxy has appended its hop to the text of the client. -/
def forwardedBy (text : List Char) (hops : List Hop) : List Char := hops.foldl appendHop text

/-- The request that reaches the service through a peer. -/
def throughProxies (host : String) (text : List Char) (hops : List Hop) : ProxiedRequest :=
  ⟨some host, some (String.ofList (forwardedBy text hops))⟩

/-- With this text before them the hops are still read: every item of it is an address, and
there are not too many. -/
def KeepsHops (text : List Char) (hops : List Hop) : Prop :=
  (∀ value ∈ forwardedValues text, (parseChars value).isSome = true) ∧
    (forwardedValues text).length + hops.length ≤ maxForwardedHops

instance (text : List Char) (hops : List Hop) : Decidable (KeepsHops text hops) :=
  inferInstanceAs (Decidable (_ ∧ _))

section
variable {trusted : List IpNetwork} {peer : IpAddress} {hops : List Hop}

theorem forwardedValues_append (header rest : List Char) :
    forwardedValues (header ++ ',' :: rest) = forwardedValues header ++ forwardedValues rest := by
  rw [forwardedValues, List.splitOn_append_cons_self, List.map_append, List.filter_append]
  rfl

theorem parseChars_nil : parseChars [] = none := by decide

/-- A hop is one item, which is not blank. -/
theorem Hop.values (hop : Hop) : forwardedValues hop.text = [Text.stripChars hop.text] := by
  have hne : Text.stripChars hop.text ≠ [] := by
    intro hnil
    have hreads := hop.reads
    rw [hnil, parseChars_nil] at hreads
    cases hreads
  rw [forwardedValues, List.splitOn_eq_singleton hop.comma, List.map_singleton,
    List.filter_cons_of_pos (by simpa using hne), List.filter_nil]

theorem forwardedValues_appendHop (header : List Char) (hop : Hop) :
    forwardedValues (appendHop header hop) =
      forwardedValues header ++ [Text.stripChars hop.text] := by
  unfold appendHop
  by_cases hnil : header = []
  · have hempty : forwardedValues [] = [] := by decide
    rw [if_pos hnil, hnil, hop.values, hempty, List.nil_append]
  · rw [if_neg hnil, forwardedValues_append, hop.values]

theorem forwardedValues_forwardedBy (text : List Char) (hops : List Hop) :
    forwardedValues (forwardedBy text hops) =
      forwardedValues text ++ hops.map fun hop => Text.stripChars hop.text := by
  induction hops generalizing text with
  | nil => exact (List.append_nil _).symm
  | cons hop hops ih =>
    rw [forwardedBy, List.foldl_cons, ← forwardedBy, ih, forwardedValues_appendHop,
      List.append_assoc, List.map_cons, List.singleton_append]

theorem mapM_hops (hops : List Hop) :
    (hops.map fun hop => Text.stripChars hop.text).mapM parseChars =
      some (hops.map Hop.address) := by
  induction hops with
  | nil => rfl
  | cons hop hops ih =>
    rw [List.map_cons, List.mapM_cons, hop.reads, ih]
    rfl

theorem mapM_isSome {values : List (List Char)}
    (h : ∀ value ∈ values, (parseChars value).isSome = true) :
    ∃ chain, values.mapM parseChars = some chain := by
  refine Option.ne_none_iff_exists'.mp fun hnone => ?_
  obtain ⟨value, hvalue, hnone⟩ := Fallible.mapM_eq_none.mp hnone
  exact Option.isSome_iff_ne_none.mp (h value hvalue) hnone

/-! The walk stops among the hops. -/

/-- An untrusted hop hides what stands before it. -/
theorem firstUntrusted_append (hpeer : isTrusted trusted peer = true) {hops : List IpAddress}
    (h : ∃ hop ∈ hops, isTrusted trusted hop = false) (chain : List IpAddress) :
    some (firstUntrusted trusted (chain ++ hops) peer) =
      hops.reverse.find? fun address => !isTrusted trusted address := by
  have hfound : (hops.reverse.find? fun address => !isTrusted trusted address).isSome = true := by
    obtain ⟨hop, hmem, huntrusted⟩ := h
    rw [List.find?_isSome]
    exact ⟨hop, List.mem_reverse.mpr hmem, by rw [huntrusted]; rfl⟩
  obtain ⟨address, haddress⟩ := Option.isSome_iff_exists.mp hfound
  have hwalk : ((chain ++ hops ++ [peer]).reverse.find? fun address =>
      !isTrusted trusted address) = some address := by
    rw [List.reverse_append, List.reverse_append, List.reverse_singleton, List.singleton_append,
      List.find?_cons_of_neg (by simp [hpeer]), List.find?_append, haddress]
    rfl
  rw [firstUntrusted, hwalk, haddress]
  rfl

end

section
variable {dottedTail : Bool} {trusted : List IpNetwork} {host : String} {peer : IpAddress}
  {hops : List Hop} {text : List Char}

/-- Hops that are read give the same address under every text before them. -/
theorem clientIp_keeps (hhost : IpAddress.parse host = some peer)
    (hpeer : isTrusted trusted peer = true)
    (h : ∃ hop ∈ hops, isTrusted trusted hop.address = false) (hkeeps : KeepsHops text hops) :
    some (clientIp dottedTail trusted (throughProxies host text hops)) =
      ((hops.map Hop.address).reverse.find? fun address => !isTrusted trusted address).map
        (IpAddress.compressed dottedTail) := by
  obtain ⟨chain, hchain⟩ := mapM_isSome hkeeps.1
  have huntrusted : ∃ address ∈ hops.map Hop.address, isTrusted trusted address = false := by
    obtain ⟨hop, hmem, huntrusted⟩ := h
    exact ⟨hop.address, List.mem_map_of_mem hmem, huntrusted⟩
  have hmap : (forwardedValues text ++ hops.map fun hop => Text.stripChars hop.text).mapM
      parseChars = some (chain ++ hops.map Hop.address) := by
    rw [List.mapM_append, hchain, mapM_hops]
    rfl
  have hne : forwardedValues text ++ (hops.map fun hop => Text.stripChars hop.text) ≠ [] := by
    obtain ⟨hop, hmem, -⟩ := h
    exact List.append_ne_nil_of_right_ne_nil _ (List.ne_nil_of_mem (List.mem_map_of_mem hmem))
  have hcount : ¬maxForwardedHops <
      (forwardedValues text ++ hops.map fun hop => Text.stripChars hop.text).length := by
    rw [List.length_append, List.length_map]
    exact Nat.not_lt.mpr hkeeps.2
  have htrusted : ¬isTrusted trusted peer = false := by simp [hpeer]
  unfold clientIp
  dsimp only [throughProxies, Option.getD_some]
  rw [hhost]
  dsimp only
  rw [if_neg htrusted, String.toList_ofList, forwardedValues_forwardedBy,
    if_neg (not_or.mpr ⟨hne, hcount⟩), hmap]
  dsimp only
  rw [← firstUntrusted_append hpeer huntrusted chain]
  rfl

/-- Otherwise only the peer is known. -/
theorem clientIp_falls_back (hhost : IpAddress.parse host = some peer)
    (hpeer : isTrusted trusted peer = true) (hkeeps : ¬KeepsHops text hops) :
    clientIp dottedTail trusted (throughProxies host text hops) = peer.compressed dottedTail := by
  have htrusted : ¬isTrusted trusted peer = false := by simp [hpeer]
  unfold clientIp
  dsimp only [throughProxies, Option.getD_some]
  rw [hhost]
  dsimp only
  rw [if_neg htrusted, String.toList_ofList, forwardedValues_forwardedBy]
  split_ifs with hcount
  · rfl
  · have hmalformed : ∃ value ∈ forwardedValues text, parseChars value = none := by
      by_contra hall
      refine hkeeps ⟨fun value hvalue => ?_, ?_⟩
      · rw [Option.isSome_iff_ne_none]
        exact fun hnone => hall ⟨value, hvalue, hnone⟩
      · have hle := Nat.not_lt.mp (not_or.mp hcount).2
        rwa [List.length_append, List.length_map] at hle
    obtain ⟨value, hvalue, hnone⟩ := hmalformed
    rw [Fallible.mapM_eq_none.mpr ⟨value, List.mem_append_left _ hvalue, hnone⟩]

end

/-- Two texts before the hops that both leave the chain well formed and short enough give the
same address; any other text gives that of the peer. -/
theorem prefix_noninterference (dottedTail : Bool) (trusted : List IpNetwork) (host : String)
    (peer : IpAddress) (hops : List Hop) (hhost : IpAddress.parse host = some peer)
    (hpeer : isTrusted trusted peer = true)
    (h : ∃ hop ∈ hops, isTrusted trusted hop.address = false) :
    (∀ text text', KeepsHops text hops → KeepsHops text' hops →
      clientIp dottedTail trusted (throughProxies host text hops) =
        clientIp dottedTail trusted (throughProxies host text' hops)) ∧
    ∀ text, ¬KeepsHops text hops →
      clientIp dottedTail trusted (throughProxies host text hops) =
        peer.compressed dottedTail := by
  refine ⟨fun text text' hkeeps hkeeps' => ?_, fun text => clientIp_falls_back hhost hpeer⟩
  refine Option.some.inj ?_
  rw [clientIp_keeps hhost hpeer h hkeeps, clientIp_keeps hhost hpeer h hkeeps']

/-! The proxy on the same host, and the address that it has seen. -/

def loopback : IpNetwork := .v4 0x7f000001 32

def cloudRunHop : Hop where
  text := " 198.51.100.8".toList
  address := .v4 0xc6336408
  comma := by decide
  reads := by decide +kernel

/-- Eleven addresses are too many, and a word is none. -/
theorem prefix_hides_hop :
    IpAddress.parse "127.0.0.1" = some (.v4 0x7f000001) ∧
    isTrusted [loopback] (.v4 0x7f000001) = true ∧ [cloudRunHop].length ≤ maxForwardedHops ∧
    isTrusted [loopback] cloudRunHop.address = false ∧
    clientIp false [loopback] (throughProxies "127.0.0.1" [] [cloudRunHop]) = "198.51.100.8" ∧
    clientIp false [loopback] (throughProxies "127.0.0.1" "not-an-ip".toList [cloudRunHop]) =
      "127.0.0.1" ∧
    clientIp false [loopback] (throughProxies "127.0.0.1"
      "::1,::1,::1,::1,::1,::1,::1,::1,::1,::1".toList [cloudRunHop]) = "127.0.0.1" := by
  decide +kernel

theorem prefix_noninterference_cloudRun :
    (∀ text text', KeepsHops text [cloudRunHop] → KeepsHops text' [cloudRunHop] →
      clientIp false [loopback] (throughProxies "127.0.0.1" text [cloudRunHop]) =
        clientIp false [loopback] (throughProxies "127.0.0.1" text' [cloudRunHop])) ∧
    ∀ text, ¬KeepsHops text [cloudRunHop] →
      clientIp false [loopback] (throughProxies "127.0.0.1" text [cloudRunHop]) =
        (IpAddress.v4 0x7f000001).compressed false :=
  prefix_noninterference false [loopback] "127.0.0.1" (.v4 0x7f000001) [cloudRunHop]
    (by decide +kernel) (by decide) ⟨cloudRunHop, List.mem_singleton_self _, by decide⟩

end Bantam
