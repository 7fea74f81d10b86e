/-
Numbers that stand for names.

Cipher suites, curves, extension types and the like travel as numbers, and a
registry says which number has which name. A reader meets numbers that no
registry entry claims, and must carry them through unchanged, so a `Tag` is a
registered name or a number kept as it is.

A caller may also build `unassigned n` where `n` does have a name. Such a tag
is another value than the registered one (it compares unequal and is looked up
differently) but is the same octets on the wire, so reading it back gives
`canonical`, the registered one. A tag that was read is always canonical.
-/
import DatagramHello.Wire.Bytes

set_option autoImplicit false

namespace DatagramHello

/-- The names of one registry, each with the number it is assigned. An instance is one of the
enumerations with an `Unknown`. -/
class Registry (κ : Type) where
  /-- How many octets a number of this registry takes on the wire. -/
  width : Nat
  /-- The number a name is assigned. -/
  number : κ → Nat
  number_lt : ∀ k, number k < Bytes.span width
  number_injective : ∀ k l, number k = number l → k = l
  /-- Every name once. -/
  all : List κ
  mem_all : ∀ k, k ∈ all
  /-- How a name is printed. -/
  label : κ → String

/-- A number of the registry of `κ`, as its name or as it is, which is `Unknown`. -/
inductive Tag (κ : Type) [Registry κ] where
  | registered (k : κ)
  | unassigned (id : Fin (Bytes.span (Registry.width κ)))
deriving DecidableEq

namespace Tag

variable {κ : Type} [Registry κ]

/-- The number on the wire: `as_u8` or `as_u16`. -/
def id : Tag κ → Nat
  | .registered k => Registry.number k
  | .unassigned n => n

/-- The tag that keeps a number as it is, also where the number has a name. A number too large for
the registry's width is cut down to it. -/
def keep (n : Nat) : Tag κ :=
  .unassigned ⟨n % Bytes.span (Registry.width κ), Nat.mod_lt _ (Bytes.span_pos _)⟩

/-- The tag for a number, its name if it has one: `from_u8` or `from_u16`. -/
def ofId (n : Nat) : Tag κ :=
  match (Registry.all : List κ).find? fun k => Registry.number k == n with
  | some k => .registered k
  | none => keep n

/-- What reading the tag's octets gives. -/
def canonical (t : Tag κ) : Tag κ := ofId t.id

/-- Whether the number has a name in this tag: `is_known`. -/
def isRegistered : Tag κ → Bool
  | .registered _ => true
  | .unassigned _ => false

/-- The tag as `Debug` prints it: its name, or its number in decimal if it has none. -/
def label : Tag κ → String
  | .registered k => Registry.label k
  | .unassigned n => "Unknown(" ++ toString n.val ++ ")"

/-- The number in the width of its registry. -/
def encode (t : Tag κ) : Bytes := Bytes.bigEndian (Registry.width κ) t.id

/-! ## Laws

A tag and its number determine each other up to a name: `canonical` puts the name in where there is
one, and changes nothing that is written. -/

/-- Every tag fits the width of its registry. -/
theorem id_lt (t : Tag κ) : t.id < Bytes.span (Registry.width κ) := by
  cases t with
  | registered k => exact Registry.number_lt k
  | unassigned n => exact n.isLt

/-- A number that fits the registry's width is the number of its tag. -/
theorem id_ofId {n : Nat} (h : n < Bytes.span (Registry.width κ)) : (ofId n : Tag κ).id = n := by
  simp only [ofId]
  split
  case h_1 k hk => simpa [id] using List.find?_some hk
  case h_2 => exact Nat.mod_eq_of_lt h

/-- Reading a tag back does not change its number. -/
@[simp] theorem id_canonical (t : Tag κ) : t.canonical.id = t.id :=
  id_ofId t.id_lt

/-- What was read once is not changed by being read again. -/
@[simp] theorem canonical_canonical (t : Tag κ) : t.canonical.canonical = t.canonical := by
  simp only [canonical, id_ofId t.id_lt]

/-- A registered name is canonical: no other name has its number. -/
@[simp] theorem canonical_registered (k : κ) : canonical (.registered k) = .registered k := by
  simp only [canonical, ofId, id]
  split
  case h_1 l hl =>
    have := List.find?_some hl
    exact congrArg Tag.registered (Registry.number_injective l k (by simpa using this))
  case h_2 hnone =>
    have := List.find?_eq_none.mp hnone k (Registry.mem_all k)
    simp at this

/-- The tag for a number is the one that is read. -/
@[simp] theorem canonical_ofId {n : Nat} (h : n < Bytes.span (Registry.width κ)) :
    (ofId n : Tag κ).canonical = ofId n := by
  simp only [canonical, id_ofId h]

/-- A tag takes the width of its registry, named or not. -/
@[simp] theorem length_encode (t : Tag κ) : t.encode.length = Registry.width κ :=
  Bytes.length_bigEndian _ _

end Tag

end DatagramHello
