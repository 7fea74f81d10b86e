/-
The address a hello came from.

A peer is an IPv4 or an IPv6 address with a UDP port. Its text is the usual
one: dotted decimal for IPv4; for IPv6, groups in lower-case hexadecimal
without leading zeros, the longest run of two or more zero groups shortened to
`::` (the first of equally long runs), and the dotted form for an IPv4 address
mapped into IPv6. The scope of a link-local address belongs to the text, but a
flow label does not.
-/
import DatagramHello.Wire.Bytes

set_option autoImplicit false

namespace DatagramHello

/-- The address and UDP port of a peer: `SocketAddr`. -/
inductive Peer where
  | ipv4 (address : Octets 4) (udpPort : UInt16)
  | ipv6 (address : Octets 16) (udpPort : UInt16) (scope : UInt32) (flow : UInt32)
deriving DecidableEq

namespace Peer

/-- The octets of the address alone. -/
def octets : Peer → Bytes
  | .ipv4 address _ => address.bytes
  | .ipv6 address _ _ _ => address.bytes

/-- The `port` of the peer. -/
def udpPort : Peer → UInt16
  | .ipv4 _ p => p
  | .ipv6 _ p _ _ => p

/-! ## Text

Addresses as a display shows them. The longest run of zero groups of an IPv6 address is left out,
and an address that maps an IPv4 one shows that in its usual form. -/

/-- The octets in decimal, with a dot between two of them. -/
def dotted (bs : Bytes) : String :=
  ".".intercalate (bs.map fun b => toString b.toNat)

/-- The 16-bit groups of an IPv6 address. -/
def groups : Bytes → List Nat
  | hi :: lo :: rest => (256 * hi.toNat + lo.toNat) :: groups rest
  | _ => []

/-- Groups in hexadecimal, with a colon between two of them. -/
def colonHex (gs : List Nat) : String :=
  ":".intercalate (gs.map fun g => String.ofList (Nat.toDigits 16 g))

/-- How many zeros a list of groups starts with. -/
def leadingZeros (gs : List Nat) : Nat :=
  (gs.takeWhile (· == 0)).length

/-- Start and length of the longest run of zero groups, the first of equally long ones. -/
def longestZeroRun (gs : List Nat) : Nat × Nat :=
  (List.range gs.length).foldl
    (fun best i =>
      let n := leadingZeros (gs.drop i)
      if best.2 < n then (i, n) else best)
    (0, 0)

/-- The text of an IPv6 address. -/
def ipv6Text (address : Bytes) : String :=
  let gs := groups address
  if gs.take 6 == [0, 0, 0, 0, 0, 0xffff] then
    "::ffff:" ++ dotted (address.drop 12)
  else
    let run := longestZeroRun gs
    if 1 < run.2 then
      colonHex (gs.take run.1) ++ "::" ++ colonHex (gs.drop (run.1 + run.2))
    else
      colonHex gs

/-- The text of the address with its port: the `Display` of `SocketAddr`. -/
def text : Peer → String
  | .ipv4 address p => dotted address.bytes ++ ":" ++ toString p.toNat
  | .ipv6 address p scope _ =>
    let zone := if scope == 0 then "" else "%" ++ toString scope.toNat
    "[" ++ ipv6Text address.bytes ++ zone ++ "]:" ++ toString p.toNat

end Peer

end DatagramHello
