/-
The compression methods that have a name.
-/
import DatagramHello.Wire.Tag

set_option autoImplicit false

namespace DatagramHello

/-- The compression methods with a name: `CompressionMethod` without its `Unknown`. -/
inductive CompressionMethod.Name where
  | null
  | deflate
deriving DecidableEq

/-- One octet a method, numbered as `CompressionMethod::as_u8` does. -/
instance CompressionMethod.registry : Registry CompressionMethod.Name where
  width := 1
  number
    | .null => 0
    | .deflate => 1
  number_lt k := by cases k <;> decide
  number_injective k l := by cases k <;> cases l <;> decide
  all := [.null, .deflate]
  mem_all k := by cases k <;> decide
  label
    | .null => "Null"
    | .deflate => "Deflate"

/-- A compression method, an 8-bit number. -/
abbrev CompressionMethod := Tag CompressionMethod.Name

/-- The `Default` of `CompressionMethod`. -/
instance : Inhabited CompressionMethod := ⟨.registered .null⟩

end DatagramHello
