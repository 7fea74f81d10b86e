/-
What a reader accepts.

`r.Accepts input a rest` says that `r` reads the value `a` off the front of
`input` and leaves `rest`; the log is not looked at. Every statement about
formats in this theory has one shape: a reader accepts exactly the inputs that
start with the octets of the value. Read from left to right such an
equivalence says that nothing but the proper encoding is let through, and read
from right to left that the encoding is understood whatever follows it, so one
equivalence for each reader serves both round trips.

A sequence of readers accepts what its steps accept one after the other
(`accepts_bind`), which makes a reader's equivalence a consequence of those of
its steps; no later file unfolds a step.
-/
import DatagramHello.Wire.Reader

set_option autoImplicit false

namespace DatagramHello

namespace Reader

variable {α β : Type} {input rest : Bytes}

/-- `r` reads `a` off the front of `input` and leaves `rest`. -/
def Accepts (r : Reader α) (input : Bytes) (a : α) (rest : Bytes) : Prop :=
  (r input).value = .ok (a, rest)

/-- A reader reads at most one value off an input. -/
theorem Accepts.unique {r : Reader α} {a b : α} {rest' : Bytes}
    (ha : r.Accepts input a rest) (hb : r.Accepts input b rest') : a = b ∧ rest = rest' := by
  rw [Accepts, ha] at hb
  simpa using hb

/-- A reader reads something or fails. -/
theorem accepts_or_error (r : Reader α) (input : Bytes) :
    (∃ a rest, r.Accepts input a rest) ∨ ∃ e, (r input).value = .error e := by
  unfold Accepts
  rcases (r input).value with e | ⟨a, rest⟩
  · exact .inr ⟨e, rfl⟩
  · exact .inl ⟨a, rest, rfl⟩

/-! ## Sequences

One lemma for each way of putting a reader together: returning, going on, checking, logging, and
reading an inner input. Each says what the whole accepts by what its parts accept. -/

/-- A reader that only returns a value takes nothing for it. -/
@[simp] theorem accepts_pure {a b : α} :
    (pure a : Reader α).Accepts input b rest ↔ a = b ∧ input = rest := by
  simp [Accepts, pure_apply]

/-- Two steps accept an input where the first accepts a front of it and the second accepts what the
first left. The reader of a format is such a sequence, so this is the lemma that turns it into the
row of its fields. -/
theorem accepts_bind {r : Reader α} {f : α → Reader β} {b : β} :
    (r >>= f).Accepts input b rest
      ↔ ∃ a mid, r.Accepts input a mid ∧ (f a).Accepts mid b rest := by
  -- a first step that failed leaves nothing for the second to read
  simp only [Accepts, bind_apply]
  rcases r input with ⟨log, e | ⟨a, mid⟩⟩
  · simp
  · constructor
    · intro h
      exact ⟨a, mid, rfl, h⟩
    -- the first step is a function, so what it read is what it reads
    · rintro ⟨a', mid', hfirst, hnext⟩
      cases hfirst
      exact hnext

/-- What is made of a value after it was read has no say in whether it is read. -/
theorem accepts_map {r : Reader α} {f : α → β} {b : β} :
    (f <$> r).Accepts input b rest ↔ ∃ a, r.Accepts input a rest ∧ f a = b := by
  simp only [Accepts, map_apply]
  rcases r input with ⟨log, e | ⟨a, mid⟩⟩
  · simp
  · constructor
    · intro h
      cases h
      exact ⟨a, rfl, rfl⟩
    · rintro ⟨a', hread, rfl⟩
      cases hread
      rfl

/-- Behind a step that read something, a sequence goes on with what the step left. -/
theorem value_bind_of_accepts {r : Reader α} {f : α → Reader β} {a : α}
    (h : r.Accepts input a rest) : ((r >>= f) input).value = (f a rest).value := by
  rw [bind_apply]
  rcases hrun : r input with ⟨log, e | ⟨a', rest'⟩⟩
  · rw [Accepts, hrun] at h
    contradiction
  · rw [Accepts, hrun] at h
    cases h
    rfl

/-- Behind a step whose value is known, a sequence accepts what the rest of it accepts. -/
theorem accepts_bind_of_accepts {r : Reader α} {f : α → Reader β} {a : α} {b : β} {rest' : Bytes}
    (h : r.Accepts input a rest) :
    (r >>= f).Accepts input b rest' ↔ (f a).Accepts rest b rest' := by
  unfold Accepts
  rw [value_bind_of_accepts h]

/-- A step that fails is the verdict of the sequence. -/
theorem value_bind_of_error {r : Reader α} {f : α → Reader β} {e : Error}
    (h : (r input).value = .error e) : ((r >>= f) input).value = .error e := by
  rw [bind_apply]
  rcases hrun : r input with ⟨log, e' | ⟨a', rest'⟩⟩
  · rw [hrun] at h
    cases h
    rfl
  · rw [hrun] at h
    contradiction

/-- Two sequences with one first step do the same if they do so behind what that step reads. -/
theorem bind_apply_congr {r : Reader α} {f g : α → Reader β}
    (h : ∀ a mid, r.Accepts input a mid → f a mid = g a mid) :
    (r >>= f) input = (r >>= g) input := by
  rw [bind_apply, bind_apply]
  rcases hrun : r input with ⟨log, e | ⟨a, mid⟩⟩
  · rfl
  · have hread : r.Accepts input a mid := by rw [Accepts, hrun]
    simp only [h a mid hread]

/-- The verdict after a value was worked on, in failure as in success. -/
theorem value_map (f : α → β) (r : Reader α) (input : Bytes) :
    ((f <$> r) input).value = (r input).value.map fun read => (f read.1, read.2) := by
  rw [map_apply]
  rcases r input with ⟨log, e | ⟨a, rest⟩⟩
  · rfl
  · rfl

/-- A reader that gives up accepts nothing. -/
@[simp] theorem not_accepts_fail {e : Error} {a : α} :
    ¬ (fail e : Reader α).Accepts input a rest := by
  simp [Accepts, fail]

/-- A reader that logs an event and gives up accepts nothing either. -/
@[simp] theorem not_accepts_refuse {event : Event} {e : Error} {a : α} :
    ¬ (refuse event e : Reader α).Accepts input a rest := by
  simp [Accepts, refuse]

/-- What a check lets through is what the reader behind it accepts. -/
theorem accepts_ite {c : Prop} [Decidable c] {bad r : Reader α} {a : α}
    (hbad : ¬ bad.Accepts input a rest) :
    (if c then bad else r).Accepts input a rest ↔ ¬ c ∧ r.Accepts input a rest := by
  by_cases h : c
  · rw [if_pos h]
    simp [h, hbad]
  · rw [if_neg h]
    simp [h]

/-- Behind a check that gives up, an input is accepted if it passes the check and the rest accepts
it. -/
theorem accepts_ite_fail {c : Prop} [Decidable c] {e : Error} {r : Reader α} {a : α} :
    (if c then fail e else r).Accepts input a rest ↔ ¬ c ∧ r.Accepts input a rest :=
  accepts_ite not_accepts_fail

/-- The same check with its branches the other way round. -/
theorem accepts_ite_else_fail {c : Prop} [Decidable c] {e : Error} {r : Reader α} {a : α} :
    (if c then r else fail e).Accepts input a rest ↔ c ∧ r.Accepts input a rest := by
  rw [← ite_not, accepts_ite_fail, Decidable.not_not]

/-- The same for a check that also logs what it found. -/
theorem accepts_ite_refuse {c : Prop} [Decidable c] {event : Event} {e : Error} {r : Reader α}
    {a : α} :
    (if c then refuse event e else r).Accepts input a rest ↔ ¬ c ∧ r.Accepts input a rest :=
  accepts_ite not_accepts_refuse

/-- Logging takes nothing off the input. -/
@[simp] theorem accepts_note {event : Event} {u : Unit} :
    (note event).Accepts input u rest ↔ input = rest := by
  simp [Accepts, note]

/-- Asking whether the input is used up takes nothing off it, and the answer is the right one. -/
@[simp] theorem accepts_atEnd {b : Bool} :
    atEnd.Accepts input b rest ↔ input.isEmpty = b ∧ input = rest := by
  simp [Accepts, atEnd]

/-- Reading inside a field leaves the input alone; what the inner reader leaves becomes part of the
value. -/
theorem accepts_inside {r : Reader α} {bytes : Bytes} {a : α} {excess : Bytes} :
    (inside bytes r).Accepts input (a, excess) rest
      ↔ r.Accepts bytes a excess ∧ input = rest := by
  simp only [Accepts, inside]
  -- the inner reader runs on the field, so the input only passes by
  rcases r bytes with ⟨log, e | ⟨a', excess'⟩⟩
  · simp
  · simp

/-- Reading a whole input is reading it with nothing left. -/
theorem whole_eq_ok_iff {r : Reader α} {onExcess : Bytes → List Event × Error} {a : α} :
    (r.whole onExcess input).value = .ok a ↔ r.Accepts input a [] := by
  simp only [Accepts, whole]
  rcases r input with ⟨log, e | ⟨a', left⟩⟩
  · simp
  · cases left with
    | nil => simp
    | cons b left => simp

/-! ## Fields

The steps that look at the input. All of them are `take`, with the octets spelled out as a number or
left as they are. -/

/-- A field of fixed length is whatever stands at the front. -/
theorem accepts_take {n : Nat} {field : Octets n} :
    (take n).Accepts input field rest ↔ input = field.bytes ++ rest := by
  constructor
  · intro h
    simp only [Accepts, take] at h
    -- the field is what was cut off, unless there was too little to cut
    split at h
    case h_1 front after hsplit =>
      cases h
      exact (Bytes.split?_eq_some_iff.mp hsplit).2
    case h_2 => contradiction
  · rintro rfl
    simp [Accepts, take_append]

/-- Where there are enough octets, a field is read. -/
theorem exists_accepts_take {n : Nat} (h : n ≤ input.length) :
    ∃ field : Octets n, (take n).Accepts input field (input.drop n) := by
  have hlength : (input.take n).length = n := by
    rw [List.length_take]
    omega
  exact ⟨⟨input.take n, hlength⟩, accepts_take.mpr (List.take_append_drop n input).symm⟩

/-- A number of `width` octets is accepted exactly where its octets stand. -/
theorem accepts_number {width : Nat} {n : Fin (Bytes.span width)} :
    (number width).Accepts input n rest ↔ input = Bytes.bigEndian width n ++ rest := by
  simp only [number, accepts_bind, accepts_take, accepts_pure]
  constructor
  · rintro ⟨field, mid, rfl, rfl, rfl⟩
    -- the field is the big-endian form of the number it spells
    rw [Bytes.bigEndian_number field.length_bytes]
  · rintro rfl
    refine ⟨⟨Bytes.bigEndian width n, Bytes.length_bigEndian width n⟩, rest, rfl, ?_, rfl⟩
    apply Fin.ext
    simp only [Bytes.number_bigEndian]
    exact Nat.mod_eq_of_lt n.isLt

/-- A single octet is whatever stands at the front. -/
theorem accepts_octet {b : UInt8} : octet.Accepts input b rest ↔ input = b :: rest := by
  simp only [octet, accepts_bind, accepts_number, accepts_pure]
  constructor
  · rintro ⟨n, mid, rfl, rfl, rfl⟩
    rfl
  · rintro rfl
    refine ⟨⟨b.toNat, b.toNat_lt⟩, rest, ?_, ?_, rfl⟩
    · simp [Bytes.bigEndian]
    · simp

end Reader

end DatagramHello
