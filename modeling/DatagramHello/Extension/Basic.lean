/-
One hello extension: a kind and the octets of its data.

The data stands behind a 16-bit length, so it has at most 65535 octets; the
type carries that bound. An extension of a kind without a name is read like
any other and only noted in the log.
-/
import DatagramHello.Wire.Hex
import DatagramHello.Wire.Reader

set_option autoImplicit false

namespace DatagramHello

/-- A hello extension as it is on the wire: `Extension`. -/
structure Extension where
  type : ExtensionType
  data : Bytes
  length_data : data.length ≤ 65535
deriving DecidableEq

namespace Extension

/-- An extension of the given data, if they fit their length: `Extension::new`. -/
def ofData (type : ExtensionType) (data : Bytes) : Except Error Extension :=
  if h : data.length ≤ 65535 then .ok ⟨type, data, h⟩
  else .error (.doesNotFit .extensionData data.length 65535)

/-- How many octets the extension takes: the `EXTENSION_HEADER_LEN` of its kind and length, and its
data. -/
def size (x : Extension) : Nat := 4 + x.data.length

/-- The kind, the length and the data. -/
def encode (x : Extension) : Bytes :=
  x.type.encode ++ Bytes.bigEndian 2 x.data.length ++ x.data

/-- Notes a kind without a name: the `trace!` in `Extension::parse`. -/
def noteKind : ExtensionType → Reader Unit
  | .registered _ => pure ()
  | .unassigned id => Reader.note (.unassignedExtension id.val)

/-- Reads an extension of any kind: `Extension::parse`. -/
def read : Reader Extension := do
  let type ← Tag.read
  let length ← Reader.number 2
  let field ← Reader.take length.val
  noteKind type
  pure ⟨type, field.bytes, by
    have := length.isLt
    have : Bytes.span 2 = 65536 := rfl
    rw [field.length_bytes]
    omega⟩

/-- The extension as text: the `Display` of `Extension`. -/
def display (x : Extension) : String :=
  x.type.display ++ " (" ++ toString x.data.length ++ " bytes): " ++ x.data.hexList

/-- Reads the data of an extension that should be of kind `expected`, as `typed_data` and the
`from_extension` functions do; `excess` is the fault of data that goes on after the value. -/
def interpret {α : Type} (expected : ExtensionType) (r : Reader α) (excess : FramingFault)
    (x : Extension) : Logged (Except Error α) :=
  if x.type = expected then
    Reader.whole r (fun _ => ([], .framing excess)) x.data
  else
    ⟨[.otherExtension expected x.type], .error (.framing .unexpectedExtension)⟩

/-- No extension is so short that a block could hold infinitely many of them. -/
theorem size_pos (x : Extension) : 0 < x.size := by
  simp only [size]
  omega

end Extension

end DatagramHello
