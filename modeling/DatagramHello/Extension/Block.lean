/-
The extensions block at the end of a client hello.

A block is a 16-bit length and then extensions one after the other. Order and
repetition are kept: both matter to the peer. A reader charges each extension
against the announced length. Since an extension takes at least four octets,
the length left over gets smaller with every extension, which is why the loop
ends; an extension that takes more than is left overruns the block and is
refused, even though it could be read.
-/
import DatagramHello.Extension.Source

set_option autoImplicit false

namespace DatagramHello

/-- The extensions of a hello, in wire order: `HelloExtensions`. -/
structure Extensions where
  entries : List Extension := []
deriving DecidableEq

namespace Extensions

/-- A block of no extensions: `HelloExtensions::new`. -/
def empty : Extensions := {}

/-- The `Default` of `HelloExtensions`. -/
instance : Inhabited Extensions := ⟨empty⟩

/-- How many extensions there are: `HelloExtensions::len`. -/
def count (xs : Extensions) : Nat := xs.entries.length

/-- Whether there are none: `HelloExtensions::is_empty`. -/
def isEmpty (xs : Extensions) : Bool := xs.entries.isEmpty

/-- How many octets a list of extensions takes. -/
def totalSize : List Extension → Nat
  | [] => 0
  | x :: xs => x.size + totalSize xs

/-- How many octets the extensions take, without the length in front of them:
`HelloExtensions::length`. -/
def length (xs : Extensions) : Nat := totalSize xs.entries

/-- How many octets the whole block takes: `HelloExtensions::encoded_length`. -/
def encodedLength (xs : Extensions) : Nat := 2 + xs.length

/-- The first extension of a kind: `HelloExtensions::get`. -/
def find? (xs : Extensions) (type : ExtensionType) : Option Extension :=
  xs.entries.find? fun x => x.type = type

/-- Adds what a source writes at the end of the block: `HelloExtensions::push`. -/
def push (xs : Extensions) (s : Extension.Source) : Except Error Extensions := do
  let x ← s.capture
  pure ⟨xs.entries ++ [x]⟩

/-! ## Reading

The announced length bounds the block, but the extensions are read off whatever input is there; an
extension that goes beyond the announced length is refused after it was read. -/

/-- Reads extensions until `remaining` octets, of `announced` in all, are used up: the loop of
`HelloExtensions::parse`. Where that goes below zero, this stops at the extension that takes too
much. -/
def readEntries (announced remaining : Nat) : Reader (List Extension) :=
  if _ : remaining = 0 then pure []
  else do
    let x ← Extension.read
    if _ : x.size ≤ remaining then
      (x :: ·) <$> readEntries announced (remaining - x.size)
    else
      Reader.refuse (.extensionOverrun x.type announced (x.size - remaining))
        (.framing .extensionOverrun)
termination_by remaining
decreasing_by
  have := x.size_pos
  omega

/-- Reads the length, then the extensions: `HelloExtensions::parse`. -/
def read : Reader Extensions := do
  let announced ← Reader.number 2
  let entries ← readEntries announced.val announced.val
  pure ⟨entries⟩

/-- Reads a block that is the whole input: `HelloExtensions::decode`. -/
def decode (input : Bytes) : Logged (Except Error Extensions) :=
  read.whole
    (fun rest => ([.bytesAfterExtensions rest.length], .framing .bytesAfterExtensions)) input

/-! ## Writing

The length of the block is the sum over its extensions, and is compared with what 16 bits can say
before anything is written. -/

/-- Writes extensions one after the other. -/
def writeEntries : List Extension → Writer
  | [] => Writer.skip
  | x :: xs => x.write.andThen (writeEntries xs)

/-- Writes the block, if its length fits: `HelloExtensions::serialize`. -/
def write (xs : Extensions) : Writer :=
  if 65535 < xs.length then
    Writer.fail (.doesNotFit .extensions xs.length 65535)
  else
    (Writer.put (Bytes.bigEndian 2 xs.length)).andThen (writeEntries xs.entries)

/-- The length of the extensions, then each on a line of its own: the `Display` of
`HelloExtensions`. -/
def display (xs : Extensions) : String :=
  xs.entries.foldl (fun text x => text ++ "\n  " ++ x.display)
    ("HelloExtensions (length " ++ toString xs.length ++ ")")

end Extensions

end DatagramHello
