/-
Lists with a largest length, and the tag lists of a hello.

A hello holds at most 64 cipher suites, 4 compression methods, 16 curves and
4 point formats. On the wire such a list is preceded by its length in octets;
reading takes that many octets first and only then counts the entries, so a
list that is too long and cut short at once counts as cut short.
-/
import DatagramHello.Wire.Reader

set_option autoImplicit false

namespace DatagramHello

/-- A list of at most `max` entries: an `ArrayVec` with that much room. -/
structure AtMost (max : Nat) (α : Type) where
  items : List α
  length_items : items.length ≤ max := by decide
deriving DecidableEq

namespace AtMost

variable {max : Nat} {α : Type}

/-- The list without entries. -/
def empty : AtMost max α := ⟨[], Nat.zero_le max⟩

/-- The list, if there is room for all of it. -/
def ofList? (items : List α) : Option (AtMost max α) :=
  if h : items.length ≤ max then some ⟨items, h⟩ else none

/-- The list with one more entry at its end, if there is room: `try_push`. -/
def push? (xs : AtMost max α) (x : α) : Option (AtMost max α) :=
  ofList? (xs.items ++ [x])

end AtMost

namespace Tag

variable {κ : Type} [Registry κ]

/-- The octets of a list of tags, without a length. -/
def encodeList (ts : List (Tag κ)) : Bytes := ts.flatMap encode

/-- The first `count` tags of a byte string. -/
def decodeList : Nat → Bytes → List (Tag κ)
  | 0, _ => []
  | count + 1, bs =>
    ofId (Bytes.number (bs.take (Registry.width κ)))
      :: decodeList count (bs.drop (Registry.width κ))

/-- As many tags are cut out as were asked for. -/
@[simp] theorem length_decodeList (count : Nat) (bs : Bytes) :
    (decodeList count bs : List (Tag κ)).length = count := by
  induction count generalizing bs with
  | zero => rfl
  | succ count ih => simp [decodeList, ih]

/-- All tags of a registry have one width, so a list takes that many octets for each entry. -/
theorem length_encodeList (ts : List (Tag κ)) :
    (encodeList ts).length = Registry.width κ * ts.length := by
  induction ts with
  | nil => rfl
  | cons t ts ih =>
    simp only [encodeList, List.flatMap_cons, List.length_append, length_encode,
      List.length_cons] at ih ⊢
    rw [ih, Nat.mul_succ]
    omega

/-- Reads a list of tags that fills the next `octets` octets. -/
def readList (max : Nat) (list : Listing) (octets : Nat) : Reader (AtMost max (Tag κ)) := do
  let field ← Reader.take octets
  let count := octets / Registry.width κ
  if h : count ≤ max then
    pure ⟨decodeList count field.bytes, by simpa using h⟩
  else
    Reader.fail (.tooMany list max)

end Tag

end DatagramHello
