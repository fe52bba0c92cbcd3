import PacketOffload.Text.Numeral

/-!
# Endpoints

An endpoint is an address with a port. An IPv4 address is four bytes, written in decimal with dots;
an IPv6 address is eight groups of 16 bits, written in hexadecimal with colons, where `::` once
stands for a run of zero groups and the last two groups may be written as an IPv4 address. The IPv6
addresses `::ffff:0:0` to `::ffff:ffff:ffff` stand for IPv4 addresses. An IPv6 address that is known
on one link alone needs the number of the link, its zone, which is written after a percent sign.
-/

namespace PacketOffload.Slmp

/-- An address. Zone 0 stands for no zone. -/
inductive Host where
  | v4 (address : UInt32)
  | v6 (groups : List UInt16) (zone : UInt32)
  deriving DecidableEq, Repr

namespace Host

/-- The IPv4 address that an address is or stands for. -/
def ipv4? : Host → Option UInt32
  | .v4 address => some address
  | .v6 [0, 0, 0, 0, 0, 0xffff, high, low] _ => some (high.toUInt32 <<< 16 ||| low.toUInt32)
  | .v6 .. => none

def isIpv4 : Host → Bool
  | .v4 _ => true
  | .v6 .. => false

def groups : Host → List UInt16
  | .v4 _ => []
  | .v6 groups _ => groups

def zone : Host → UInt32
  | .v4 _ => 0
  | .v6 _ zone => zone

/-- The address that stands for no address, or for any one. -/
def isUnspecified (host : Host) : Bool :=
  host.ipv4? == some 0 || host.groups == List.replicate 8 0

def isMulticast : Host → Bool
  | .v4 address => address >>> 28 == 0xe
  | .v6 groups _ => groups.headD 0 >>> 8 == 0xff

/-- An IPv6 address that is known on one link, or in one host, alone. -/
def isLocal : Host → Bool
  | .v4 _ => false
  | .v6 groups _ =>
    let first := groups.headD 0
    first &&& 0xffc0 == 0xfe80 || first &&& 0xff0f == 0xff01 || first &&& 0xff0f == 0xff02

/-! ## Texts -/

/-- The number below `bound` that digits alone stand for, at most `width` of them. -/
def number? (base bound width : Nat) (text : String) : Option Nat :=
  if text.length ≤ width ∧ text.toList.head? ≠ some '+' then Text.numeral? base bound text.toList
  else none

/-- A byte of an IPv4 address, which is written without zeros before it. -/
def byte? (text : String) : Option Nat :=
  (number? 10 256 3 text).filter fun _ => text == "0" || text.toList.head? != some '0'

def ofDotted? (text : String) : Option UInt32 :=
  match (text.splitOn ".").mapM byte? with
  | some [a, b, c, d] => some (UInt32.ofNat (((a * 256 + b) * 256 + c) * 256 + d))
  | _ => none

/-- The groups of a text without `::`. -/
def groupsOf? (text : String) : Option (List UInt16) :=
  if text.isEmpty then some []
  else
    let parts := text.splitOn ":"
    let group part := (number? 16 UInt16.size 4 part).map UInt16.ofNat
    match ofDotted? (parts.getLastD "") with
    | some last =>
      (parts.dropLast.mapM group).map (· ++ [(last >>> 16).toUInt16, last.toUInt16])
    | none => parts.mapM group

/-- The groups of an IPv6 address. An IPv4 address in it stands at its end. -/
def ofGroups? (text : String) : Option (List UInt16) :=
  match text.splitOn "::" with
  | [whole] => (groupsOf? whole).filter (·.length == 8)
  | [first, last] => do
    let before ← groupsOf? first
    let after ← groupsOf? last
    if before.length + after.length < 8 ∧ '.' ∉ first.toList then
      some (before ++ List.replicate (8 - (before.length + after.length)) 0 ++ after)
    else none
  | _ => none

/-- The IPv6 address of a text, which may have a zone. -/
def ofZoned? (text : String) : Option Host :=
  match text.splitOn "%" with
  | [address] => (ofGroups? address).map fun groups => .v6 groups 0
  | [address, zone] => do
    let groups ← ofGroups? address
    let zone ← number? 10 UInt32.size zone.length zone
    return .v6 groups (UInt32.ofNat zone)
  | _ => none

end Host

structure Endpoint where
  host : Host
  port : UInt16
  deriving DecidableEq, Repr

namespace Endpoint

def unspecified : Endpoint := ⟨.v4 0, 0⟩

/-- The endpoint of the same host at another port. -/
def atPort (e : Endpoint) (port : UInt16) : Endpoint := { e with port }

/-- The endpoint of a text: an address, a colon and a port, with an IPv6 address in brackets. -/
def ofText? (text : String) : Option Endpoint := do
  let parts := text.splitOn ":"
  let last := parts.getLastD ""
  let port ← Host.number? 10 UInt16.size last.length last
  let address := (":".intercalate parts.dropLast).toList
  let host ← match address with
    | '[' :: rest =>
      if rest.getLast? = some ']' then Host.ofZoned? (String.ofList rest.dropLast) else none
    | _ => (Host.ofDotted? (String.ofList address)).map Host.v4
  return ⟨host, UInt16.ofNat port⟩

end Endpoint

end PacketOffload.Slmp
