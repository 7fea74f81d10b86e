/-
Fields that say where they end.

An encoding is *delimited* when its octets can be told apart from what follows
them: from two byte strings that start with an encoded value each, equal
strings give equal encodings and equal rests. Fields of one length are, fields
behind their own length are, and a record of delimited fields is, so the notion
goes through a format from its fields up.

The octets and not the values are compared, because a tag and its canonical
form are two values with the same octets.
-/
import DatagramHello.Proofs.Wire.Canonical

set_option autoImplicit false

namespace DatagramHello

variable {α : Type}

/-- What follows an encoding cannot be taken for a part of it. -/
def Delimited (encode : α → Bytes) : Prop :=
  ∀ a b rest rest', encode a ++ rest = encode b ++ rest' → encode a = encode b ∧ rest = rest'

/-- Two byte strings that start with an encoding each are the same field by field. -/
theorem Delimited.append_inj_iff {encode : α → Bytes} (h : Delimited encode) {a b : α}
    {rest rest' : Bytes} :
    encode a ++ rest = encode b ++ rest' ↔ encode a = encode b ∧ rest = rest' := by
  constructor
  · exact h a b rest rest'
  · rintro ⟨hfield, rfl⟩
    rw [hfield]

/-- An encoding of one length for all values ends where that length is reached. -/
theorem Delimited.of_length {encode : α → Bytes} {n : Nat} (h : ∀ a, (encode a).length = n) :
    Delimited encode := by
  intro a b rest rest' heq
  exact List.append_inj heq ((h a).trans (h b).symm)

/-- An encoding that a reader understands whatever follows it is delimited. -/
theorem Delimited.of_accepts {encode : α → Bytes} {r : Reader α}
    (h : ∀ a rest, r.Accepts (encode a ++ rest) a rest) : Delimited encode := by
  intro a b rest rest' heq
  have hb := h b rest'
  rw [← heq] at hb
  obtain ⟨rfl, rfl⟩ := (h a rest).unique hb
  exact ⟨rfl, rfl⟩

/-- What a reader makes of an encoding tells which value it is the encoding of. -/
theorem encode_inj_of_accepts {encode : α → Bytes} {r : Reader α}
    (h : ∀ a rest, r.Accepts (encode a ++ rest) a rest) {a b : α} :
    encode a = encode b ↔ a = b := by
  constructor
  · intro heq
    have hread := h a []
    rw [heq] at hread
    exact (hread.unique (h b [])).1
  · rintro rfl
    rfl

/-- A delimited field behind a delimited field is delimited, so a record of such fields is. -/
theorem Delimited.append {f g : α → Bytes} (hf : Delimited f) (hg : Delimited g) :
    Delimited fun a => f a ++ g a := by
  intro a b rest rest' heq
  simp only [List.append_assoc] at heq
  obtain ⟨hfirst, hback⟩ := hf a b _ _ heq
  obtain ⟨hsecond, hrest⟩ := hg a b _ _ hback
  exact ⟨by simp only [hfirst, hsecond], hrest⟩

/-- A field of a larger record is delimited if it is by itself. -/
theorem Delimited.comp {β : Type} {f : α → Bytes} (hf : Delimited f) (field : β → α) :
    Delimited fun b => f (field b) :=
  fun a b => hf (field a) (field b)

/-- A number in front of a field fixes the field's length, so the two together are delimited. The
number need not be the length: any number that determines it will do. -/
theorem Delimited.counted {encode : α → Bytes} {width : Nat} {count : α → Nat}
    (hfits : ∀ a, count a < Bytes.span width)
    (hlength : ∀ a b, count a = count b → (encode a).length = (encode b).length) :
    Delimited fun a => Bytes.bigEndian width (count a) ++ encode a := by
  intro a b rest rest' heq
  simp only [List.append_assoc] at heq
  obtain ⟨hnumber, hback⟩ := List.append_inj heq (by simp)
  have hcount : count a = count b := (Bytes.bigEndian_inj (hfits a) (hfits b)).mp hnumber
  obtain ⟨hfield, hrest⟩ := List.append_inj hback (hlength a b hcount)
  exact ⟨by simp only [hnumber, hfield], hrest⟩

end DatagramHello
