/-
IP addresses in text, and the networks that are set apart: the `ipaddress` of Python 3.12.

The text of an address is read strictly.  An IPv4 address is four decimal octets without leading
zeros; the shorter, the decimal and the hexadecimal spellings that a system resolver knows as well
are no addresses here.
-/
import Mathlib.Data.List.Infix

namespace InvestmentPlatform

inductive IpAddress
  | v4 (ip : BitVec 32)
  | v6 (ip : BitVec 128) (scope : Option (List Char))
  deriving DecidableEq, Repr

namespace IpAddress

abbrev Text := List Char

/-! ### IPv4 -/

/-- `_parse_octet`. -/
def parseOctet (octet : Text) : Option Nat :=
  if octet = [] ∨ ¬ octet.all Char.isDigit ∨ 3 < octet.length ∨
      (octet ≠ ['0'] ∧ octet.head? = some '0') then none
  else
    let value := octet.foldl (fun value c => value * 10 + (c.toNat - '0'.toNat)) 0
    if 255 < value then none else some value

/-- `IPv4Address(text)`. -/
def parseV4 (text : Text) : Option (BitVec 32) :=
  if '/' ∈ text then none else
  match (text.splitOn '.').mapM parseOctet with
  | some [a, b, c, d] => some (.ofNat 32 (((a * 256 + b) * 256 + c) * 256 + d))
  | _ => none

/-! ### IPv6 -/

def hexDigit (c : Char) : Option Nat :=
  if c.isDigit then some (c.toNat - '0'.toNat)
  else if 'a' ≤ c ∧ c ≤ 'f' then some (c.toNat - 'a'.toNat + 10)
  else if 'A' ≤ c ∧ c ≤ 'F' then some (c.toNat - 'A'.toNat + 10)
  else none

/-- `_parse_hextet`. -/
def parseHextet (hextet : Text) : Option Nat :=
  if hextet = [] ∨ 4 < hextet.length then none
  else hextet.foldlM (fun value c => (hexDigit c).map (value * 16 + ·)) 0

/-- The parts between the colons, an IPv4 suffix as the two hextets that it stands for. -/
def hextets (text : Text) : Option (List Text) :=
  let parts := text.splitOn ':'
  if parts.length < 3 then none
  else
    let last := parts.getLastD []
    if '.' ∈ last then
      (parseV4 last).map fun ip =>
        parts.dropLast ++ [Nat.toDigits 16 (ip.toNat / 65536), Nat.toDigits 16 (ip.toNat % 65536)]
    else some parts

/-- An empty part at the outer end belongs to the `::` next to it. -/
def trimOuter (outer : Option Text) (side : List Text) : Option (List Text) :=
  if outer = some [] then (if side.length = 1 then some [] else none) else some side

/-- The two sides of the `::`, or all parts where there is none. -/
def sides (parts : List Text) : Option (List Text × Option (List Text)) :=
  let inner := (parts.drop 1).dropLast
  match (List.range inner.length).filter fun k => inner[k]? = some [] with
  | [] => if parts.length = 8 then some (parts, none) else none
  | [k] =>
    match trimOuter parts.head? (parts.take (k + 1)),
      trimOuter parts.getLast? (parts.drop (k + 2)) with
    | some hi, some lo => if hi.length + lo.length < 8 then some (hi, some lo) else none
    | _, _ => none
  | _ => none

/-- `_ip_int_from_string` of IPv6. -/
def parseInt (text : Text) : Option (BitVec 128) := do
  let parts ← hextets text
  let (hi, lo) ← if 9 < parts.length then none else sides parts
  let high ← hi.mapM parseHextet
  let low ← (lo.getD []).mapM parseHextet
  let skipped := List.replicate (8 - (high.length + low.length)) 0
  some (.ofNat 128 ((high ++ skipped ++ low).foldl (fun value hextet => value * 65536 + hextet) 0))

/-- `IPv6Address(text)`, with its scope. -/
def parseV6 (text : Text) : Option IpAddress :=
  if '/' ∈ text then none else
  match text.splitOn '%' with
  | [address] => (parseInt address).map (.v6 · none)
  | [address, scope] => if scope = [] then none else (parseInt address).map (.v6 · (some scope))
  | _ => none

/-- `ip_address(text)`, `none` where it raises. -/
def ofText (text : Text) : Option IpAddress :=
  match parseV4 text with
  | some ip => some (.v4 ip)
  | none => parseV6 text

/-! ### Networks -/

structure Network (w : Nat) where
  address : BitVec w
  /-- How many bits are fixed. -/
  length : Nat

def Network.contains {w : Nat} (network : Network w) (ip : BitVec w) : Bool :=
  ip >>> (w - network.length) == network.address >>> (w - network.length)

def net4 (a b c d length : Nat) : Network 32 :=
  ⟨.ofNat 32 (((a * 256 + b) * 256 + c) * 256 + d), length⟩

/-- A network by the hextets of its address; those that are left out are zero. -/
def net6 (hextets : List Nat) (length : Nat) : Network 128 :=
  ⟨.ofNat 128 ((hextets ++ List.replicate (8 - hextets.length) 0).foldl
    (fun value hextet => value * 65536 + hextet) 0), length⟩

def privateNetworks4 : List (Network 32) :=
  [net4 0 0 0 0 8, net4 10 0 0 0 8, net4 127 0 0 0 8, net4 169 254 0 0 16, net4 172 16 0 0 12,
    net4 192 0 0 0 24, net4 192 0 0 170 31, net4 192 0 2 0 24, net4 192 168 0 0 16,
    net4 198 18 0 0 15, net4 198 51 100 0 24, net4 203 0 113 0 24, net4 240 0 0 0 4,
    net4 255 255 255 255 32]

def privateNetworksExceptions4 : List (Network 32) := [net4 192 0 0 9 32, net4 192 0 0 10 32]

def privateNetworks6 : List (Network 128) :=
  [net6 [0, 0, 0, 0, 0, 0, 0, 1] 128, net6 [] 128, net6 [0, 0, 0, 0, 0, 0xffff] 96,
    net6 [0x64, 0xff9b, 1] 48, net6 [0x100] 64, net6 [0x2001] 23, net6 [0x2001, 0xdb8] 32,
    net6 [0x2002] 16, net6 [0xfc00] 7, net6 [0xfe80] 10]

def privateNetworksExceptions6 : List (Network 128) :=
  [net6 [0x2001, 1, 0, 0, 0, 0, 0, 1] 128, net6 [0x2001, 1, 0, 0, 0, 0, 0, 2] 128,
    net6 [0x2001, 3] 32, net6 [0x2001, 4, 0x112] 48, net6 [0x2001, 0x20] 28,
    net6 [0x2001, 0x30] 28]

def reservedNetworks6 : List (Network 128) :=
  [net6 [] 8, net6 [0x100] 8, net6 [0x200] 7, net6 [0x400] 6, net6 [0x800] 5, net6 [0x1000] 4,
    net6 [0x4000] 3, net6 [0x6000] 3, net6 [0x8000] 3, net6 [0xa000] 3, net6 [0xc000] 3,
    net6 [0xe000] 4, net6 [0xf000] 5, net6 [0xf800] 6, net6 [0xfe00] 9]

def within {w : Nat} (networks : List (Network w)) (ip : BitVec w) : Bool :=
  networks.any (·.contains ip)

def isPrivate4 (ip : BitVec 32) : Bool :=
  within privateNetworks4 ip && !within privateNetworksExceptions4 ip

/-- `ipv4_mapped`. -/
def mapped (ip : BitVec 128) : Option (BitVec 32) :=
  if ip >>> 32 = 0xffff then some (ip.truncate 32) else none

def isPrivate : IpAddress → Bool
  | .v4 ip => isPrivate4 ip
  | .v6 ip _ =>
    match mapped ip with
    | some ip4 => isPrivate4 ip4
    | none => within privateNetworks6 ip && !within privateNetworksExceptions6 ip

def isLoopback : IpAddress → Bool
  | .v4 ip => (net4 127 0 0 0 8).contains ip
  | .v6 ip _ => ip == 1

def isLinkLocal : IpAddress → Bool
  | .v4 ip => (net4 169 254 0 0 16).contains ip
  | .v6 ip _ => (net6 [0xfe80] 10).contains ip

def isMulticast : IpAddress → Bool
  | .v4 ip => (net4 224 0 0 0 4).contains ip
  | .v6 ip _ => (net6 [0xff00] 8).contains ip

def isReserved : IpAddress → Bool
  | .v4 ip => (net4 240 0 0 0 4).contains ip
  | .v6 ip _ => within reservedNetworks6 ip

def isUnspecified : IpAddress → Bool
  | .v4 ip => ip == 0
  | .v6 ip _ => ip == 0

end IpAddress

end InvestmentPlatform
