/-
The header in front of every handshake message.

Twelve octets: the kind of message, the length of its body, a sequence number,
and the place and length of the fragment that follows. Lengths and offset have
24 bits on the wire. A header value may hold 32-bit ones, and writing it keeps
their low 24 bits.
-/
import DatagramHello.Wire.Reader

set_option autoImplicit false

namespace DatagramHello

/-- The header of a handshake message: `Header`. -/
structure Header where
  type : MessageType
  /-- Length of the whole body. -/
  length : UInt32
  /-- Which message of the handshake this is: `message_seq`. -/
  seq : UInt16
  /-- Where in the body the fragment starts. -/
  offset : UInt32
  fragmentLength : UInt32
deriving DecidableEq

namespace Header

/-- How many octets a header takes: `HEADER_LEN`. -/
def encodedLength : Nat := 12

/-- The `Default` of `Header`. -/
instance : Inhabited Header := ⟨⟨default, 0, 0, 0, 0⟩⟩

/-- The header of a message that is sent in one piece: `Header::unfragmented`. -/
def unfragmented (type : MessageType) (length : UInt32) (seq : UInt16) : Header where
  type := type
  length := length
  seq := seq
  offset := 0
  fragmentLength := length

/-- Whether what follows the header is less than the whole body, or starts inside it:
`Header::is_fragment`. -/
def isFragment (h : Header) : Bool := 0 < h.offset || h.fragmentLength != h.length

/-- The twelve octets: `Header::serialize`. Of the three 32-bit fields the low 24 bits are written.
-/
def encode (h : Header) : Bytes :=
  h.type.encode ++ Bytes.bigEndian 3 h.length.toNat ++ Bytes.bigEndian 2 h.seq.toNat
    ++ Bytes.bigEndian 3 h.offset.toNat ++ Bytes.bigEndian 3 h.fragmentLength.toNat

/-- Reads the twelve octets: `Header::parse`. -/
def read : Reader Header := do
  let type ← Tag.read
  let length ← Reader.number 3
  let seq ← Reader.number 2
  let offset ← Reader.number 3
  let fragmentLength ← Reader.number 3
  pure {
    type
    length := UInt32.ofNat length.val
    seq := UInt16.ofNat seq.val
    offset := UInt32.ofNat offset.val
    fragmentLength := UInt32.ofNat fragmentLength.val }

/-- A header takes twelve octets, whatever is in it. -/
@[simp] theorem length_encode (h : Header) : h.encode.length = encodedLength := by
  simp [encode, encodedLength, Registry.width]

end Header

end DatagramHello
