/-
The extension that lists the point formats a client supports, at most 4,
behind their number.
-/
import DatagramHello.Extension.Source
import DatagramHello.Registry.PointFormat
import DatagramHello.Wire.AtMost

set_option autoImplicit false

namespace DatagramHello

/-- The point formats a client supports, best first: `EcPointFormatsExtension`. -/
structure SupportedFormats where
  formats : AtMost 4 PointFormat
deriving DecidableEq

namespace SupportedFormats

/-- The one format that every peer knows: the `Default` of `EcPointFormatsExtension`. -/
instance : Inhabited SupportedFormats :=
  ⟨⟨{ items := [.registered .uncompressed] }⟩⟩

/-- The kind that the list goes by: `extension_type` of an `EcPointFormatsExtension`. -/
def type : ExtensionType := .registered .ecPointFormats

/-- The octets of the formats behind their number: `serialize_data`. -/
def encode (f : SupportedFormats) : Bytes :=
  Bytes.bigEndian 1 f.formats.items.length ++ Tag.encodeList f.formats.items

/-- Reads the formats behind their number: `EcPointFormatsExtension::parse`. -/
def read : Reader SupportedFormats := do
  let octets ← Reader.number 1
  let formats ← Tag.readList 4 .pointFormats octets.val
  pure ⟨formats⟩

/-- The formats as a source of an extension: `EcPointFormatsExtension` as a `HelloExtension`. -/
def source (f : SupportedFormats) : Extension.Source where
  type := type
  announced := 1 + f.formats.items.length
  writeData out := out.append f.encode

/-- The formats that an extension lists: `EcPointFormatsExtension::from_extension`. -/
def ofExtension (x : Extension) : Logged (Except Error SupportedFormats) :=
  x.interpret type read .bytesAfterPointFormats

end SupportedFormats

end DatagramHello
