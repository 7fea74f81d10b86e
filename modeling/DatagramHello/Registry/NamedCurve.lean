/-
The elliptic curves that have a name here.
-/
import DatagramHello.Wire.Tag

set_option autoImplicit false

namespace DatagramHello

/-- The curves with a name: `NamedCurve` without its `Unknown`. -/
inductive NamedCurve.Name where
  | secp256r1
  | secp384r1
  | secp521r1
  | x25519
  | x448
deriving DecidableEq

/-- Two octets a curve, numbered as `NamedCurve::as_u16` does. -/
instance NamedCurve.registry : Registry NamedCurve.Name where
  width := 2
  number
    | .secp256r1 => 0x17
    | .secp384r1 => 0x18
    | .secp521r1 => 0x19
    | .x25519 => 0x1D
    | .x448 => 0x1E
  number_lt k := by cases k <;> decide
  number_injective k l := by cases k <;> cases l <;> decide
  all := [.secp256r1, .secp384r1, .secp521r1, .x25519, .x448]
  mem_all k := by cases k <;> decide
  label
    | .secp256r1 => "Secp256r1"
    | .secp384r1 => "Secp384r1"
    | .secp521r1 => "Secp521r1"
    | .x25519 => "X25519"
    | .x448 => "X448"

/-- An elliptic curve, a 16-bit number. -/
abbrev NamedCurve := Tag NamedCurve.Name

/-- The `Default` of `NamedCurve`. -/
instance : Inhabited NamedCurve := ⟨.registered .secp256r1⟩

end DatagramHello
