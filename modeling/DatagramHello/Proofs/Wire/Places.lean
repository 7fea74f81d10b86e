/-
Numbers at places, and readers that always take the same number of octets.

What a reader finds can also be said without it, by the place where a number
lies: skip so many octets, take so many, spell them out. For fields of fixed
length the places are fixed, and behind a field that announces its own length
the place of the next one is computed from that number, so a whole row of
fields can be found in the octets as they came.

Readers of fixed fields are the simplest to say everything about. Such a reader
reads whenever enough octets are there, leaves those behind them, and says of
anything shorter that it is too short. The widths of a sequence add up.
-/
import DatagramHello.Proofs.Wire.Fails

set_option autoImplicit false

namespace DatagramHello

/-- The number in the `width` octets from a place on. -/
def Bytes.numberAt (width place : Nat) (bs : Bytes) : Nat := number ((bs.drop place).take width)

/-- A number that fits its width is found where its octets stand. -/
theorem Bytes.numberAt_append {front rest : Bytes} {width place n : Nat}
    (hplace : front.length = place) (hn : n < span width) :
    numberAt width place (front ++ (bigEndian width n ++ rest)) = n := by
  have hfield : ((front ++ (bigEndian width n ++ rest)).drop place).take width
      = bigEndian width n := by
    rw [List.drop_left' hplace, List.take_left' (length_bigEndian width n)]
  rw [numberAt, hfield, number_bigEndian, Nat.mod_eq_of_lt hn]

/-- At the front of its own spelling stands the number itself. -/
theorem Bytes.numberAt_zero_append {rest : Bytes} {width n : Nat} (hn : n < span width) :
    numberAt width 0 (bigEndian width n ++ rest) = n := by
  have hfirst : ([] : Bytes).length = 0 := rfl
  exact numberAt_append hfirst hn

/-- Where the field ends that starts at a place with its length in `width` octets. -/
def Bytes.fieldEnd (width place : Nat) (bs : Bytes) : Nat :=
  place + width + numberAt width place bs

/-- A field behind its length ends where its octets do, whatever follows them. -/
theorem Bytes.fieldEnd_append {front field rest : Bytes} {width place n : Nat}
    (hplace : front.length = place) (hfield : field.length = n) (hn : n < span width) :
    fieldEnd width place (front ++ (bigEndian width n ++ field ++ rest))
      = (front ++ (bigEndian width n ++ field)).length := by
  rw [fieldEnd, List.append_assoc (bigEndian width n), numberAt_append hplace hn,
    List.length_append, List.length_append, length_bigEndian, hplace, hfield, Nat.add_assoc]

namespace Reader

variable {α β : Type}

/-- `r` takes exactly `n` octets: it reads if there are so many and says of anything shorter that it
is too short. -/
structure Takes (r : Reader α) (n : Nat) : Prop where
  accepts_of_le : ∀ input : Bytes, n ≤ input.length → ∃ a, r.Accepts input a (input.drop n)
  fails_of_lt : ∀ input : Bytes, input.length < n → r.Fails input .truncated

/-- A reader that only returns a value takes no octets. -/
theorem takes_pure (a : α) : (pure a : Reader α).Takes 0 := by
  refine ⟨?_, ?_⟩
  · intro input _
    exact ⟨a, accepts_pure.mpr ⟨rfl, List.drop_zero.symm⟩⟩
  · intro input h
    exact absurd h (Nat.not_lt_zero _)

/-- A field of fixed length takes that many octets. -/
theorem takes_take (n : Nat) : (take n).Takes n := by
  refine ⟨?_, ?_⟩
  · intro input h
    exact exists_accepts_take h
  · intro input h
    exact fails_take.mpr ⟨h, rfl⟩

/-- The second step starts where the first one stopped. -/
theorem Takes.bind {r : Reader α} {f : α → Reader β} {n m : Nat} (hr : r.Takes n)
    (hf : ∀ a, (f a).Takes m) : (r >>= f).Takes (n + m) := by
  refine ⟨?_, ?_⟩
  · intro input h
    obtain ⟨a, hfirst⟩ := hr.accepts_of_le input (by omega)
    have hleft : m ≤ (input.drop n).length := by
      rw [List.length_drop]
      omega
    obtain ⟨b, hnext⟩ := (hf a).accepts_of_le (input.drop n) hleft
    rw [List.drop_drop] at hnext
    exact ⟨b, accepts_bind.mpr ⟨a, input.drop n, hfirst, hnext⟩⟩
  · intro input h
    by_cases hshort : input.length < n
    · exact fails_bind.mpr (.inl (hr.fails_of_lt input hshort))
    · obtain ⟨a, hfirst⟩ := hr.accepts_of_le input (Nat.not_lt.mp hshort)
      rw [fails_bind_of_accepts hfirst]
      apply (hf a).fails_of_lt
      rw [List.length_drop]
      omega

/-- A number takes as many octets as it is wide. -/
theorem takes_number (width : Nat) : (number width).Takes width :=
  (takes_take width).bind fun _ => takes_pure _

end Reader

/-- A tag takes as many octets as its registry is wide. -/
theorem Tag.takes_read {κ : Type} [Registry κ] :
    (Tag.read : Reader (Tag κ)).Takes (Registry.width κ) :=
  (Reader.takes_number _).bind fun _ => Reader.takes_pure _

end DatagramHello
