/-
Protocol versions.

A version is two octets. Datagram versions are the one's complement of the
version of the stream protocol they follow, so they count down.
-/
import DatagramHello.Wire.Reader

set_option autoImplicit false

namespace DatagramHello

/-- A protocol version: `ProtocolVersion`. -/
structure Version where
  major : UInt8
  minor : UInt8
deriving DecidableEq

namespace Version

/-- The version of `DTLS1_0`. -/
def dtls10 : Version := ⟨254, 255⟩

/-- The version of `DTLS1_2`, which is also the `Default`. -/
def dtls12 : Version := ⟨254, 253⟩

/-- The `Default` of `ProtocolVersion`. -/
instance : Inhabited Version := ⟨dtls12⟩

/-- The version whose two octets spell `n`: `from_u16`. -/
def ofNumber (n : Nat) : Version := ⟨UInt8.ofNat (n / 256), UInt8.ofNat n⟩

/-- The number that the two octets spell: `as_u16`. -/
def number (v : Version) : Nat := 256 * v.major.toNat + v.minor.toNat

/-- The two octets in order: `ProtocolVersion::serialize`. -/
def encode (v : Version) : Bytes := [v.major, v.minor]

/-- Reads any two octets as a version: `ProtocolVersion::parse`. -/
def read : Reader Version := do
  let major ← Reader.octet
  let minor ← Reader.octet
  pure ⟨major, minor⟩

/-- The name of a datagram version, else the two octets in decimal: the `Display` of
`ProtocolVersion`. -/
def display (v : Version) : String :=
  if v = dtls10 then "DTLS 1.0"
  else if v = dtls12 then "DTLS 1.2"
  else toString v.major.toNat ++ "." ++ toString v.minor.toNat

end Version

end DatagramHello
