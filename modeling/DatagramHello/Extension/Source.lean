/-
Anything that can write a hello extension.

A caller may have an extension type of its own. It says which kind it is, how
long its data will be, and writes the data into a buffer; nothing makes the
announced length and the written data agree. There are two ways to use such a
source: `write` puts it on the wire as announced, `capture` lets it write into
an empty buffer and keeps what came out.
-/
import DatagramHello.Extension.Basic
import DatagramHello.Wire.Writer

set_option autoImplicit false

namespace DatagramHello

/-- Something that writes an extension: an implementation of `HelloExtension`. -/
structure Extension.Source where
  type : ExtensionType
  /-- The length that the source announces for its data: `data_length`. -/
  announced : Nat
  /-- Writes the data: `serialize_data`. It is given the buffer of its caller, so what it writes may
  depend on what the buffer holds. -/
  writeData : Buffer → Buffer

namespace Extension

namespace Source

/-- Puts kind and announced length down and lets the source write behind them:
`HelloExtension::serialize`. -/
def write (s : Source) : Writer :=
  if 65535 < s.announced then
    Writer.fail (.doesNotFit .extensionData s.announced 65535)
  else
    (Writer.put (s.type.encode ++ Bytes.bigEndian 2 s.announced)).andThen
      fun out => ⟨s.writeData out, .ok ()⟩

/-- What the source writes as its data when it is given an empty buffer. -/
def data (s : Source) : Bytes := (s.writeData Buffer.empty).toBytes

/-- The extension with the data that the source writes: `Extension::from_typed`. -/
def capture (s : Source) : Except Error Extension := Extension.ofData s.type s.data

/-- A source that announces the length of the data it appends. -/
def ofBytes (type : ExtensionType) (data : Bytes) : Source where
  type := type
  announced := data.length
  writeData out := out.append data

end Source

/-- An extension as a source of itself: `Extension` as a `HelloExtension`. -/
def source (x : Extension) : Source := Source.ofBytes x.type x.data

/-- Writes the extension as the source that it is. -/
def write (x : Extension) : Writer := x.source.write

end Extension

end DatagramHello
