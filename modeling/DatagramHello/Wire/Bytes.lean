/-
Byte strings, and the numbers and fixed-size fields cut out of them.

Every field of a hello is either a big-endian number of one to four octets or
a run of octets of known length, so the layer below the messages needs three
things only: writing a number in a given width, reading one back, and cutting
a number of octets off the front. Writing keeps the low octets of a number
that is too large for its width, which is what a 24-bit field does with a
32-bit value; `number_bigEndian` says so as a remainder.
-/

set_option autoImplicit false

namespace DatagramHello

/-- A byte string, first octet first. -/
abbrev Bytes := List UInt8

namespace Bytes

/-! ## Numbers

A number is spelled by a fixed count of octets, the first of them the most significant. Spelling
keeps the number modulo the span of the field, and any octets are the spelling of the number they
spell. -/

/-- How many numbers `width` octets can hold. -/
def span (width : Nat) : Nat := Nat.pow 256 width

/-- The low `width` octets of `n`, most significant first. -/
def bigEndian : Nat → Nat → Bytes
  | 0, _ => []
  | width + 1, n => bigEndian width (n / 256) ++ [UInt8.ofNat n]

/-- The number that a byte string spells, most significant octet first. -/
def number (bs : Bytes) : Nat :=
  bs.foldl (fun n b => 256 * n + b.toNat) 0

/-- One octet more holds 256 times as many numbers. -/
theorem span_succ (width : Nat) : span (width + 1) = 256 * span width := by
  simp only [span, Nat.pow_eq, Nat.pow_succ]
  omega

/-- Even no octets hold a number, the 0. -/
theorem span_pos (width : Nat) : 0 < span width :=
  Nat.pow_pos (by omega)

/-- A number takes as many octets as its width, whatever it is. -/
@[simp] theorem length_bigEndian (width n : Nat) : (bigEndian width n).length = width := by
  induction width generalizing n with
  | zero => rfl
  | succ width ih => simp [bigEndian, ih]

/-- The last octet counts once and everything in front of it 256 times. Both `number` and
`bigEndian` are taken apart at this end. -/
theorem number_append_singleton (bs : Bytes) (b : UInt8) :
    number (bs ++ [b]) = 256 * number bs + b.toNat := by
  simp [number, List.foldl_append]

/-- Reading back what was written gives the number modulo the width's span. -/
theorem number_bigEndian (width n : Nat) : number (bigEndian width n) = n % span width := by
  induction width generalizing n with
  | zero => simp [bigEndian, number, span, Nat.mod_one]
  | succ width ih =>
    rw [bigEndian, number_append_singleton, ih, span_succ, Nat.mod_mul]
    have : (UInt8.ofNat n).toNat = n % 256 := by simp
    omega

/-- A byte string that is not empty ends in an octet. -/
theorem exists_append_singleton {bs : Bytes} {width : Nat} (h : bs.length = width + 1) :
    ∃ front last, bs = front ++ [last] ∧ front.length = width := by
  have hne : bs ≠ [] := by
    intro hnil
    rw [hnil] at h
    contradiction
  refine ⟨bs.dropLast, bs.getLast hne, (List.dropLast_concat_getLast hne).symm, ?_⟩
  rw [List.length_dropLast, h, Nat.add_sub_cancel]

-- Both inductions run from the last octet, the one that `bigEndian` and `number` peel off.

/-- A byte string spells a number below the span of its length. -/
theorem number_lt {bs : Bytes} {width : Nat} (h : bs.length = width) : number bs < span width := by
  induction width generalizing bs with
  | zero =>
    rw [List.length_eq_zero_iff.mp h]
    exact span_pos 0
  | succ width ih =>
    obtain ⟨front, last, rfl, hfront⟩ := exists_append_singleton h
    have hnumber := ih hfront
    have hlast := last.toNat_lt
    rw [number_append_singleton, span_succ]
    omega

/-- Writing the number that a byte string spells, in its own width, gives the string back. -/
theorem bigEndian_number {bs : Bytes} {width : Nat} (h : bs.length = width) :
    bigEndian width (number bs) = bs := by
  induction width generalizing bs with
  | zero =>
    rw [List.length_eq_zero_iff.mp h]
    rfl
  | succ width ih =>
    obtain ⟨front, last, rfl, hfront⟩ := exists_append_singleton h
    have hlast := last.toNat_lt
    have hdiv : (256 * number front + last.toNat) / 256 = number front := by omega
    have hmod : UInt8.ofNat (256 * number front + last.toNat) = last := by
      apply UInt8.toNat_inj.mp
      simp only [UInt8.toNat_ofNat']
      omega
    rw [number_append_singleton, bigEndian, hdiv, hmod, ih hfront]

/-- A width keeps of a number what its span leaves of it. -/
theorem bigEndian_mod (width n : Nat) : bigEndian width (n % span width) = bigEndian width n := by
  rw [← number_bigEndian, bigEndian_number (length_bigEndian width n)]

/-- Numbers that fit a width are told apart by their octets in that width. -/
theorem bigEndian_inj {width n m : Nat} (hn : n < span width) (hm : m < span width) :
    bigEndian width n = bigEndian width m ↔ n = m := by
  constructor
  · intro h
    have hnumber := congrArg number h
    rwa [number_bigEndian, number_bigEndian, Nat.mod_eq_of_lt hn, Nat.mod_eq_of_lt hm] at hnumber
  · rintro rfl
    rfl

/-- Octets are the numbers of one octet that they are. -/
theorem flatMap_bigEndian_one (bs : Bytes) : bs.flatMap (fun b => bigEndian 1 b.toNat) = bs := by
  simp [bigEndian]

/-- A 32-bit word keeps what up to four octets can say. -/
theorem toNat_word {width n : Nat} (hwidth : width ≤ 4) (h : n < span width) :
    (UInt32.ofNat n).toNat = n := by
  have hle : span width ≤ span 4 := Nat.pow_le_pow_right (by decide) hwidth
  exact UInt32.toNat_ofNat_of_lt' (Nat.lt_of_lt_of_le h hle)

/-- A 16-bit word keeps what two octets can say. -/
theorem toNat_halfword {n : Nat} (h : n < span 2) : (UInt16.ofNat n).toNat = n :=
  UInt16.toNat_ofNat_of_lt' h

/-! ## Cutting

The one way to take octets off the front, which fails where there are too few. -/

/-- The first `n` octets and the rest, or `none` if there are fewer than `n`. Only the octets
that are cut off are counted, so the cost does not grow with what follows them. -/
def split? (n : Nat) (bs : Bytes) : Option (Bytes × Bytes) :=
  if (bs.take n).length = n then some (bs.take n, bs.drop n) else none

/-- What was put together is cut apart at the same place. -/
@[simp] theorem split?_append (front rest : Bytes) :
    split? front.length (front ++ rest) = some (front, rest) := by
  simp [split?]

/-- Cutting succeeds exactly if the octets are those in front followed by the rest. -/
theorem split?_eq_some_iff {n : Nat} {bs front rest : Bytes} :
    split? n bs = some (front, rest) ↔ front.length = n ∧ bs = front ++ rest := by
  constructor
  · intro h
    simp only [split?] at h
    split at h
    case isTrue hlen =>
      simp only [Option.some.injEq, Prod.mk.injEq] at h
      obtain ⟨rfl, rfl⟩ := h
      exact ⟨hlen, (List.take_append_drop n bs).symm⟩
    case isFalse => contradiction
  · rintro ⟨rfl, rfl⟩
    exact split?_append front rest

/-- Cutting fails exactly if there are too few octets. -/
theorem split?_eq_none_iff {n : Nat} {bs : Bytes} : split? n bs = none ↔ bs.length < n := by
  simp only [split?, List.length_take]
  split <;> simp <;> omega

end Bytes

/-! ## Fixed-size fields

Octets with their count in the type, for fields that are never of another length. -/

/-- A byte string of exactly `n` octets. -/
structure Octets (n : Nat) where
  bytes : Bytes
  length_bytes : bytes.length = n
deriving DecidableEq

namespace Octets

/-- The byte string as a field of `n` octets, if it has that many. -/
def ofBytes? (n : Nat) (bs : Bytes) : Option (Octets n) :=
  if h : bs.length = n then some ⟨bs, h⟩ else none

/-- The field whose octet at place `i` is `source i`. -/
def generate (n : Nat) (source : Nat → UInt8) : Octets n :=
  ⟨(List.range n).map source, by simp⟩

/-- The field of zeros. -/
def zero (n : Nat) : Octets n := generate n fun _ => 0

end Octets

end DatagramHello
