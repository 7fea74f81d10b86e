/-
The extension that lists the elliptic curves a client supports, at most 16,
behind the length of the list in octets.
-/
import DatagramHello.Extension.Source
import DatagramHello.Registry.NamedCurve
import DatagramHello.Wire.AtMost

set_option autoImplicit false

namespace DatagramHello

/-- The curves a client supports, best first: `EllipticCurvesExtension`. -/
structure SupportedCurves where
  curves : AtMost 16 NamedCurve
deriving DecidableEq

namespace SupportedCurves

/-- The two curves that are offered if nothing else is said: the `Default` of
`EllipticCurvesExtension`. -/
instance : Inhabited SupportedCurves :=
  ⟨⟨{ items := [.registered .secp256r1, .registered .secp384r1] }⟩⟩

/-- The kind that the list goes by: `extension_type` of an `EllipticCurvesExtension`. -/
def type : ExtensionType := .registered .ellipticCurves

/-- The octets of the curves behind their length in octets: `serialize_data`. -/
def encode (c : SupportedCurves) : Bytes :=
  Bytes.bigEndian 2 (2 * c.curves.items.length) ++ Tag.encodeList c.curves.items

/-- Reads the curves behind their length, which must be even: `EllipticCurvesExtension::parse`. -/
def read : Reader SupportedCurves := do
  let octets ← Reader.number 2
  if octets.val % 2 = 0 then do
    let curves ← Tag.readList 16 .ellipticCurves octets.val
    pure ⟨curves⟩
  else
    Reader.fail (.framing .oddCurvesLength)

/-- The curves as a source of an extension: `EllipticCurvesExtension` as a `HelloExtension`. -/
def source (c : SupportedCurves) : Extension.Source where
  type := type
  announced := 2 + 2 * c.curves.items.length
  writeData out := out.append c.encode

/-- The curves that an extension lists: `EllipticCurvesExtension::from_extension`. -/
def ofExtension (x : Extension) : Logged (Except Error SupportedCurves) :=
  x.interpret type read .bytesAfterCurves

end SupportedCurves

end DatagramHello
