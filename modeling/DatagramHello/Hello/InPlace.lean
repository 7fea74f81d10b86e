/-
Tokens as they are held.

A token that is held takes no memory of its own: it is room for the longest one
of its kind, with the number of octets that are in use, so that it is copied
like a number. The octets in use stand at the front of the room. What is behind
them is zero in a token that was just made, and no operation may look at it.
-/
import DatagramHello.Hello.Token

set_option autoImplicit false

namespace DatagramHello.Token

/-- Room for a token, of which the first `used` octets are the token: the two fields of a
`var_array!`. -/
structure InPlace (kind : TokenKind) where
  room : Octets kind.maxLength
  used : Nat
  used_le : used ≤ kind.maxLength

namespace InPlace

variable {kind : TokenKind}

/-- The octets in use: `deref`. -/
def bytes (p : InPlace kind) : Bytes := p.room.bytes.take p.used

/-- Takes octets into room that was zero. -/
def keep {n : Nat} (field : Octets n) (h : n ≤ kind.maxLength) : InPlace kind where
  room := ⟨field.bytes ++ (Octets.zero kind.maxLength).bytes.drop n, by
    rw [List.length_append, List.length_drop, Octets.length_bytes, Octets.length_bytes]
    omega⟩
  used := n
  used_le := h

/-- Room that is not in use: `empty`. -/
def empty : InPlace kind := keep (Octets.zero 0) (by simp)

/-- Takes octets if there is room for them: `try_new`, and `try_from` for a slice. -/
def ofBytes (kind : TokenKind) (bs : Bytes) : Except Error (InPlace kind) :=
  if h : bs.length ≤ kind.maxLength then .ok (keep ⟨bs, rfl⟩ h)
  else .error (.doesNotFit kind.field bs.length kind.maxLength)

/-- Takes the octets of a text in UTF-8: `try_from` for a text. -/
def ofText (kind : TokenKind) (text : String) : Except Error (InPlace kind) :=
  ofBytes kind text.toUTF8.data.toList

/-- Reads the octets behind their number into room of their own: `parse`. -/
def read (kind : TokenKind) : Reader (InPlace kind) := do
  let length ← Reader.number 1
  if h : length.val ≤ kind.maxLength then do
    let field ← Reader.take length.val
    pure (keep field h)
  else
    Reader.fail (.doesNotFit kind.field length.val kind.maxLength)

/-- The octets in use behind their number: `serialize`. -/
def encode (p : InPlace kind) : Bytes := UInt8.ofNat p.used :: p.bytes

/-- Tokens are compared by their octets in use: `eq`. -/
def same (p q : InPlace kind) : Bool := p.bytes == q.bytes

/-- There are as many octets in use as are said to be, because there is room for them. -/
@[simp] theorem length_bytes (p : InPlace kind) : p.bytes.length = p.used := by
  rw [bytes, List.length_take, p.room.length_bytes]
  exact Nat.min_eq_left p.used_le

/-- What was taken in is what is in use. -/
@[simp] theorem bytes_keep {n : Nat} (field : Octets n) (h : n ≤ kind.maxLength) :
    (keep field h).bytes = field.bytes :=
  List.take_left' field.length_bytes

/-- The token that is held. -/
def token (p : InPlace kind) : Token kind :=
  ⟨p.bytes, by rw [length_bytes]; exact p.used_le⟩

end InPlace

end DatagramHello.Token
