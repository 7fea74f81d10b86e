/-
Session ids and cookies.

Both are byte strings that travel behind one octet of length, and differ in
how long they may be: a session id has at most 32 octets, while a cookie may
have any length that the octet can say. A reader refuses a length over the
limit as soon as it has read it, whether or not that many octets follow.
-/
import DatagramHello.Wire.Hex
import DatagramHello.Wire.Reader

set_option autoImplicit false

namespace DatagramHello

/-- The two kinds of token: the two uses of `var_array!`. -/
inductive TokenKind where
  | sessionId
  | cookie
deriving DecidableEq

namespace TokenKind

/-- The largest length of a token of this kind: `MAX_LEN`. -/
def maxLength : TokenKind → Nat
  | .sessionId => 32
  | .cookie => 255

/-- The field that an error about its length names. -/
def field : TokenKind → Field
  | .sessionId => .sessionId
  | .cookie => .cookie

/-- The word a display starts with. -/
def word : TokenKind → String
  | .sessionId => "SessionId"
  | .cookie => "Cookie"

/-- One octet is enough for the length of every token. -/
theorem maxLength_lt (kind : TokenKind) : kind.maxLength < 256 := by
  cases kind <;> decide

end TokenKind

/-- A byte string no longer than its kind allows, as its `Deref` shows it. `Token.InPlace` is how it
is held. -/
structure Token (kind : TokenKind) where
  bytes : Bytes
  length_bytes : bytes.length ≤ kind.maxLength
deriving DecidableEq

/-- Names a session, or nothing when empty: `SessionId`. -/
abbrev SessionId := Token .sessionId

/-- What a server hands out to see whether a client receives at its address: `Cookie`. -/
abbrev Cookie := Token .cookie

namespace Token

variable {kind : TokenKind}

/-- The token of no octets: `empty`. -/
def empty : Token kind := ⟨[], Nat.zero_le _⟩

/-- The `Default` of a token is the empty one. -/
instance : Inhabited (Token kind) := ⟨empty⟩

/-- How many octets the token has. -/
def length (t : Token kind) : Nat := t.bytes.length

/-- Whether the token has no octets. -/
def isEmpty (t : Token kind) : Bool := t.bytes.isEmpty

/-- A token of the given octets, if it may be as long: `try_new`. -/
def ofBytes (kind : TokenKind) (bs : Bytes) : Except Error (Token kind) :=
  if h : bs.length ≤ kind.maxLength then .ok ⟨bs, h⟩
  else .error (.doesNotFit kind.field bs.length kind.maxLength)

/-- A token of `n` octets taken from `source`: `random`, with the source of randomness as an
argument. -/
def generate (kind : TokenKind) (n : Nat) (source : Nat → UInt8) : Except Error (Token kind) :=
  if h : n ≤ kind.maxLength then .ok ⟨(List.range n).map source, by simpa using h⟩
  else .error (.doesNotFit kind.field n kind.maxLength)

/-- The octets of a token behind their length: `serialize`. -/
def encode (t : Token kind) : Bytes := Bytes.bigEndian 1 t.length ++ t.bytes

/-- Reads a token behind its length, which is looked at before the octets are: `parse`. -/
def read (kind : TokenKind) : Reader (Token kind) := do
  let length ← Reader.number 1
  if h : length.val ≤ kind.maxLength then do
    let field ← Reader.take length.val
    pure ⟨field.bytes, by rw [field.length_bytes]; exact h⟩
  else
    Reader.fail (.doesNotFit kind.field length.val kind.maxLength)

/-- The token as text: its `Display`. -/
def display (t : Token kind) : String := kind.word ++ "(" ++ t.bytes.hexList ++ ")"

/-- The length in front takes one octet. -/
@[simp] theorem length_encode (t : Token kind) : t.encode.length = 1 + t.length := by
  simp [encode, length]

end Token

end DatagramHello
