import SkyClaw.Lib.PyStr

/-!
# IP addresses

The addresses of Python's `ipaddress` as bit vectors: how they are read from a text, and the
networks that their properties are about.
-/

namespace IpAddress

open PyStr (ofDigits)

/-- `IPv4Network` and `IPv6Network`, for addresses of `w` bits. -/
structure Network (w : Nat) where
  networkAddress : BitVec w
  prefixLen : Nat

def Network.netmask {w : Nat} (network : Network w) : BitVec w :=
  ~~~(BitVec.allOnes w >>> network.prefixLen)

/-- `address in network`. -/
def Network.contains {w : Nat} (network : Network w) (ip : BitVec w) : Bool :=
  ip &&& network.netmask == network.networkAddress

/-- `IPv4Address` and `IPv6Address`. -/
inductive Address where
  | v4 (ip : BitVec 32)
  | v6 (ip : BitVec 128) (scopeId : Option (List Char))
deriving DecidableEq, Repr

/-! ## Reading an address -/

/-- The value of a hexadecimal digit. -/
def hexDigit (c : Char) : Option Nat :=
  if '0' ≤ c ∧ c ≤ '9' then some (c.toNat - '0'.toNat)
  else if 'a' ≤ c ∧ c ≤ 'f' then some (c.toNat - 'a'.toNat + 10)
  else if 'A' ≤ c ∧ c ≤ 'F' then some (c.toNat - 'A'.toNat + 10)
  else none

def parseOctet (octet : List Char) : Option (BitVec 8) :=
  if octet = [] ∨ ¬ octet.all Char.isDigit ∨ 3 < octet.length then none
  else if octet ≠ ['0'] ∧ octet.head? = some '0' then none
  else
    let n := ofDigits 10 (octet.map fun c => c.toNat - '0'.toNat)
    if 255 < n then none else some (BitVec.ofNat 8 n)

/-- `IPv4Address(text)`. -/
def parseV4 (text : List Char) : Option (BitVec 32) :=
  if '/' ∈ text then none
  else
    match text.splitOn '.' with
    | [a, b, c, d] => do
        let a ← parseOctet a
        let b ← parseOctet b
        let c ← parseOctet c
        let d ← parseOctet d
        return a ++ b ++ c ++ d
    | _ => none

def parseHextet (hextet : List Char) : Option (BitVec 16) := do
  let digits ← hextet.mapM hexDigit
  if 4 < hextet.length ∨ hextet = [] then none else some (BitVec.ofNat 16 (ofDigits 16 digits))

/-- The loop that moves hextets into the address. -/
def shiftIn (ip : BitVec 128) (hextets : List (BitVec 16)) : BitVec 128 :=
  hextets.foldl (fun ip hextet => ip <<< 16 ||| hextet.setWidth 128) ip

/-- The parts of an IPv6 text, when an IPv4 suffix has become two hextets. -/
def hextetParts (text : List Char) : Option (List (List Char)) :=
  let parts := text.splitOn ':'
  let last := parts.getLastD []
  if parts.length < 3 then none
  else if '.' ∈ last then do
    let ip ← parseV4 last
    return parts.dropLast ++
      [Nat.toDigits 16 (ip >>> 16).toNat, Nat.toDigits 16 (ip.toNat % 0x10000)]
  else some parts

/-- The places between the first part and the last one where a part is empty. -/
def skips (parts : List (List Char)) : List Nat :=
  (List.range parts.length).filter fun i => 0 < i && i + 1 < parts.length && parts[i]? == some []

/-- `_BaseV6._ip_int_from_string`. -/
def parseV6Int (text : List Char) : Option (BitVec 128) := do
  let parts ← hextetParts text
  if 9 < parts.length then none
  else
    match skips parts with
    | [] =>
        if parts.length ≠ 8 then none
        else do
          -- `_parse_hextet` refuses a first or last part that is empty
          let hextets ← parts.mapM parseHextet
          return shiftIn 0 hextets
    | [skip] => do
        let leading := parts.head? == some []
        let trailing := parts.getLast? == some []
        let high := if leading then skip - 1 else skip
        let low := if trailing then parts.length - skip - 2 else parts.length - skip - 1
        if leading ∧ high ≠ 0 ∨ trailing ∧ low ≠ 0 ∨ 8 ≤ high + low then none
        else do
          let before ← (parts.take high).mapM parseHextet
          let after ← (parts.drop (parts.length - low)).mapM parseHextet
          return shiftIn (shiftIn 0 before <<< (16 * (8 - (high + low)))) after
    | _ => none

/-- `IPv6Address(text)`, with its scope identifier. -/
def parseV6 (text : List Char) : Option (BitVec 128 × Option (List Char)) :=
  if '/' ∈ text then none
  else
    match text.splitOn '%' with
    | [address] => do return (← parseV6Int address, none)
    | [address, scopeId] =>
        if scopeId = [] then none else do return (← parseV6Int address, some scopeId)
    | _ => none

/-- `ip_address(text)`; no address is the `ValueError`. -/
def ipAddress (text : List Char) : Option Address :=
  match parseV4 text with
  | some ip => some (.v4 ip)
  | none => (parseV6 text).map fun (ip, scopeId) => .v6 ip scopeId

/-! ## The networks -/

/-- `a.b.c.d/prefixLen`. -/
def network4 (a b c d : BitVec 8) (prefixLen : Nat) : Network 32 := ⟨a ++ b ++ c ++ d, prefixLen⟩

/-- The network of the addresses that begin with the hextets given. -/
def network6 (hextets : List (BitVec 16)) (prefixLen : Nat) : Network 128 :=
  ⟨shiftIn 0 hextets <<< (16 * (8 - hextets.length)), prefixLen⟩

/-- `_IPv4Constants._private_networks`. -/
def privateNetworks4 : List (Network 32) :=
  [network4 0 0 0 0 8, network4 10 0 0 0 8, network4 127 0 0 0 8, network4 169 254 0 0 16,
    network4 172 16 0 0 12, network4 192 0 0 0 24, network4 192 0 0 170 31, network4 192 0 2 0 24,
    network4 192 168 0 0 16, network4 198 18 0 0 15, network4 198 51 100 0 24,
    network4 203 0 113 0 24, network4 240 0 0 0 4, network4 255 255 255 255 32]

/-- `_IPv4Constants._private_networks_exceptions`. -/
def privateExceptions4 : List (Network 32) := [network4 192 0 0 9 32, network4 192 0 0 10 32]

/-- `_IPv4Constants._public_network` -/
def sharedNetwork4 : Network 32 := network4 100 64 0 0 10

/-- `_IPv6Constants._private_networks`. -/
def privateNetworks6 : List (Network 128) :=
  [⟨1, 128⟩, ⟨0, 128⟩, network6 [0, 0, 0, 0, 0, 0xffff] 96, network6 [0x64, 0xff9b, 1] 48,
    network6 [0x100] 64, network6 [0x2001] 23, network6 [0x2001, 0xdb8] 32, network6 [0x2002] 16,
    network6 [0xfc00] 7, network6 [0xfe80] 10]

/-- `_IPv6Constants._private_networks_exceptions`. -/
def privateExceptions6 : List (Network 128) :=
  [network6 [0x2001, 1, 0, 0, 0, 0, 0, 1] 128, network6 [0x2001, 1, 0, 0, 0, 0, 0, 2] 128,
    network6 [0x2001, 3] 32, network6 [0x2001, 4, 0x112] 48, network6 [0x2001, 0x20] 28,
    network6 [0x2001, 0x30] 28]

/-- In a network of the first list and in none of the second. -/
def isPrivateIn {w : Nat} (networks exceptions : List (Network w)) (ip : BitVec w) : Bool :=
  networks.any (·.contains ip) && !exceptions.any (·.contains ip)

namespace Address

def ipv4Mapped (ip : BitVec 128) : Option (BitVec 32) :=
  if ip >>> 32 = 0xffff then some (ip.setWidth 32) else none

def isPrivate : Address → Bool
  | v4 ip => isPrivateIn privateNetworks4 privateExceptions4 ip
  | v6 ip _ =>
      match ipv4Mapped ip with
      | some embedded => isPrivateIn privateNetworks4 privateExceptions4 embedded
      | none => isPrivateIn privateNetworks6 privateExceptions6 ip

def isLoopback : Address → Bool
  | v4 ip => (network4 127 0 0 0 8).contains ip
  | v6 ip _ => ip == 1

def isLinkLocal : Address → Bool
  | v4 ip => (network4 169 254 0 0 16).contains ip
  | v6 ip _ => (network6 [0xfe80] 10).contains ip

/-- In the shared address space, which is neither private nor global. -/
def isShared : Address → Bool
  | v4 ip => sharedNetwork4.contains ip
  | v6 ip _ => (ipv4Mapped ip).any sharedNetwork4.contains

def isGlobal : Address → Bool
  | v4 ip => !sharedNetwork4.contains ip && !isPrivateIn privateNetworks4 privateExceptions4 ip
  | v6 ip _ =>
      match ipv4Mapped ip with
      | some embedded =>
          !sharedNetwork4.contains embedded &&
            !isPrivateIn privateNetworks4 privateExceptions4 embedded
      | none => !isPrivateIn privateNetworks6 privateExceptions6 ip

theorem isGlobal_iff (address : Address) :
    address.isGlobal = true ↔ address.isShared = false ∧ address.isPrivate = false := by
  cases address with
  | v4 ip => simp [isGlobal, isShared, isPrivate]
  | v6 ip scopeId =>
      cases hmapped : ipv4Mapped ip with
      | none | some => simp [isGlobal, isShared, isPrivate, hmapped]

end Address

/-- A network of one of the two versions. -/
inductive AnyNetwork where
  | v4 (network : Network 32)
  | v6 (network : Network 128)

/-- `address in network`: never if the versions differ. -/
def AnyNetwork.contains : AnyNetwork → Address → Bool
  | v4 network, .v4 ip => network.contains ip
  | v6 network, .v6 ip _ => network.contains ip
  | _, _ => false

end IpAddress
