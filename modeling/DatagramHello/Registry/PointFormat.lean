/-
The encodings of a point on an elliptic curve.
-/
import DatagramHello.Wire.Tag

set_option autoImplicit false

namespace DatagramHello

/-- The point formats with a name: `EcPointFormat` without its `Unknown`. -/
inductive PointFormat.Name where
  | uncompressed
  | ansiX962CompressedPrime
  | ansiX962CompressedChar2
deriving DecidableEq

/-- One octet a format, numbered as `EcPointFormat::as_u8` does. -/
instance PointFormat.registry : Registry PointFormat.Name where
  width := 1
  number
    | .uncompressed => 0
    | .ansiX962CompressedPrime => 1
    | .ansiX962CompressedChar2 => 2
  number_lt k := by cases k <;> decide
  number_injective k l := by cases k <;> cases l <;> decide
  all := [.uncompressed, .ansiX962CompressedPrime, .ansiX962CompressedChar2]
  mem_all k := by cases k <;> decide
  label
    | .uncompressed => "Uncompressed"
    | .ansiX962CompressedPrime => "AnsiX962CompressedPrime"
    | .ansiX962CompressedChar2 => "AnsiX962CompressedChar2"

/-- A point format, an 8-bit number: `EcPointFormat`. -/
abbrev PointFormat := Tag PointFormat.Name

/-- The `Default` of `EcPointFormat`. -/
instance : Inhabited PointFormat := ⟨.registered .uncompressed⟩

end DatagramHello
