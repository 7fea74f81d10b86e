/-
What a reader refuses, and what it says of it.

`r.Fails input e` says that `r` reads nothing off the front of `input` and
blames `e`; as with acceptance, the log is not looked at. An input is either
accepted or blamed for one thing, so the two relations together are the whole
of a reader.

A sequence blames what its first step blames, or what a later step blames in
what the steps before it left (`fails_bind`). That is the reason why a reader
blames the leftmost defect: to blame anything it has to have read everything
to the left of it. Of the steps themselves only `take` fails, and only by
running out of input, so every other error comes from a check that is written
into a reader, and a reader without checks only says of an input that it is too
short (`OnlyTruncates`).
-/
import DatagramHello.Proofs.Wire.Canonical

set_option autoImplicit false

namespace DatagramHello

namespace Reader

variable {α β : Type} {input rest : Bytes} {e : Error}

/-- `r` reads nothing off the front of `input` and blames `e`. -/
def Fails (r : Reader α) (input : Bytes) (e : Error) : Prop :=
  (r input).value = .error e

/-- A reader blames one thing. -/
theorem Fails.unique {r : Reader α} {e' : Error} (h : r.Fails input e) (h' : r.Fails input e') :
    e = e' := by
  unfold Fails at h h'
  rw [h] at h'
  exact Except.error.inj h'

/-- An input that is accepted is blamed for nothing. -/
theorem Accepts.not_fails {r : Reader α} {a : α} (h : r.Accepts input a rest) :
    ¬ r.Fails input e := by
  intro hfails
  unfold Accepts at h
  unfold Fails at hfails
  rw [h] at hfails
  contradiction

/-- An input that is not accepted is blamed for something. -/
theorem exists_fails_of_not_accepts {r : Reader α} (h : ¬ ∃ a rest, r.Accepts input a rest) :
    ∃ e, r.Fails input e := by
  rcases r.accepts_or_error input with haccepts | hfails
  · exact absurd haccepts h
  · exact hfails

/-! ## Sequences

As with acceptance there is one lemma for each way of putting a reader together. A sequence that
fails has two cases, its first step or, behind what that step read, the rest. -/

/-- A reader that only returns a value blames nothing. -/
@[simp] theorem not_fails_pure {a : α} : ¬ (pure a : Reader α).Fails input e := by
  simp [Fails, pure_apply]

/-- Behind a step that read something, the rest decides. -/
theorem fails_bind_of_accepts {r : Reader α} {f : α → Reader β} {a : α}
    (h : r.Accepts input a rest) : (r >>= f).Fails input e ↔ (f a).Fails rest e := by
  unfold Fails
  rw [value_bind_of_accepts h]

/-- The first step is to blame, or the rest in what the first step left. -/
theorem fails_bind {r : Reader α} {f : α → Reader β} :
    (r >>= f).Fails input e
      ↔ r.Fails input e ∨ ∃ a mid, r.Accepts input a mid ∧ (f a).Fails mid e := by
  rcases r.accepts_or_error input with ⟨a, mid, hread⟩ | ⟨e', herror⟩
  -- the first step read something, so it is not to blame
  · rw [fails_bind_of_accepts hread]
    constructor
    · intro h
      exact .inr ⟨a, mid, hread, h⟩
    · rintro (h | ⟨a', mid', hread', h⟩)
      · exact absurd h hread.not_fails
      · obtain ⟨rfl, rfl⟩ := hread.unique hread'
        exact h
  -- the first step failed, so there is nothing for the rest to decide
  · have hfirst : (r >>= f).Fails input e ↔ r.Fails input e := by
      unfold Fails
      rw [value_bind_of_error herror, herror, Except.error.injEq, Except.error.injEq]
    rw [hfirst]
    constructor
    · exact .inl
    · rintro (h | ⟨a, mid, hread, -⟩)
      · exact h
      · exact absurd herror hread.not_fails

/-- What is made of a value after it was read blames nothing more. -/
theorem fails_map {r : Reader α} {f : α → β} : (f <$> r).Fails input e ↔ r.Fails input e := by
  unfold Fails
  rw [value_map]
  rcases (r input).value with e' | ⟨a, mid⟩
  · simp [Except.map]
  · simp [Except.map]

/-- A reader that gives up blames what it was given to blame. -/
@[simp] theorem fails_fail {e' : Error} : (fail e' : Reader α).Fails input e ↔ e' = e := by
  simp [Fails, fail]

/-- A reader that logs an event and gives up blames the error it was given, whatever the event. -/
@[simp] theorem fails_refuse {event : Event} {e' : Error} :
    (refuse event e' : Reader α).Fails input e ↔ e' = e := by
  simp [Fails, refuse]

/-- A check is to blame where it does not hold, and the reader behind it where it does. -/
theorem fails_ite_fail {c : Prop} [Decidable c] {e' : Error} {r : Reader α} :
    (if c then fail e' else r).Fails input e ↔ c ∧ e' = e ∨ ¬ c ∧ r.Fails input e := by
  by_cases hc : c
  · rw [if_pos hc, fails_fail]
    simp [hc]
  · rw [if_neg hc]
    simp [hc]

/-- Logging cannot fail. -/
@[simp] theorem not_fails_note {event : Event} : ¬ (note event).Fails input e := by
  simp [Fails, note]

/-- What is blamed inside a field does not depend on what follows the field. -/
theorem fails_inside {r : Reader α} {bytes : Bytes} :
    (inside bytes r).Fails input e ↔ r.Fails bytes e := by
  simp only [Fails, inside]
  rcases r bytes with ⟨log, e' | ⟨a, excess⟩⟩
  · simp
  · simp

/-- A whole input is refused for what its reader blames, or for what is left over. -/
theorem whole_eq_error_iff {r : Reader α} {onExcess : Bytes → List Event × Error} :
    (r.whole onExcess input).value = .error e
      ↔ r.Fails input e ∨ ∃ a left, r.Accepts input a left ∧ left ≠ [] ∧ e = (onExcess left).2 := by
  simp only [Fails, Accepts, whole]
  rcases r input with ⟨log, e' | ⟨a, left⟩⟩
  · simp
  · cases left with
    | nil => simp
    | cons b left =>
      constructor
      · intro h
        exact .inr ⟨a, b :: left, rfl, by simp, (Except.error.inj h).symm⟩
      · rintro (h | ⟨a', left', h, -, rfl⟩)
        · contradiction
        · cases h
          rfl

/-! ## Fields

Where a field has too few octets in front of it. The two lemmas about a number and what follows it
are stated by the octets that are there, for the formats that are spelled out octet by
octet. -/

/-- A field can only be missing. -/
theorem fails_take {n : Nat} : (take n).Fails input e ↔ input.length < n ∧ e = .truncated := by
  by_cases hshort : input.length < n
  · unfold Fails
    rw [take_of_length_lt hshort]
    simp [hshort, eq_comm]
  · obtain ⟨field, hread⟩ := exists_accepts_take (Nat.not_lt.mp hshort)
    constructor
    · intro h
      exact absurd h hread.not_fails
    · rintro ⟨h, -⟩
      exact absurd h hshort

/-- A number can only be missing, and is missing when fewer octets are there than it is wide. -/
theorem fails_number {width : Nat} :
    (number width).Fails input e ↔ input.length < width ∧ e = .truncated := by
  unfold number
  rw [fails_bind, fails_take]
  simp

/-- Two octets are missing, or what follows them decides. -/
theorem fails_halfword_bind {f : Fin (Bytes.span 2) → Reader β} :
    (number 2 >>= f).Fails input e
      ↔ input.length < 2 ∧ e = .truncated
        ∨ ∃ (n : UInt16) (more : Bytes), input = Bytes.bigEndian 2 n.toNat ++ more
            ∧ (f ⟨n.toNat, n.toNat_lt⟩).Fails more e := by
  rw [fails_bind, fails_number]
  refine or_congr_right ?_
  constructor
  · rintro ⟨n, more, hread, h⟩
    rw [accepts_number] at hread
    have hn : (UInt16.ofNat n).toNat = n := Bytes.toNat_halfword n.isLt
    refine ⟨UInt16.ofNat n, more, ?_, ?_⟩
    · rw [hn]
      exact hread
    · simp only [hn]
      exact h
  · rintro ⟨n, more, rfl, h⟩
    exact ⟨_, more, accepts_number.mpr rfl, h⟩

/-- An octet is missing, or what follows it decides. -/
theorem fails_number_one_bind {f : Fin (Bytes.span 1) → Reader β} :
    (number 1 >>= f).Fails input e
      ↔ input.length < 1 ∧ e = .truncated
        ∨ ∃ (n : UInt8) (more : Bytes), input = n :: more
            ∧ (f ⟨n.toNat, n.toNat_lt⟩).Fails more e := by
  rw [fails_bind, fails_number]
  refine or_congr_right ?_
  constructor
  · rintro ⟨n, more, hread, h⟩
    rw [accepts_number] at hread
    have hn : (UInt8.ofNat n).toNat = n := UInt8.toNat_ofNat_of_lt' n.isLt
    refine ⟨UInt8.ofNat n, more, hread, ?_⟩
    simp only [hn]
    exact h
  · rintro ⟨n, more, rfl, h⟩
    refine ⟨_, more, accepts_number.mpr ?_, h⟩
    simp [Bytes.bigEndian]

/-! ## Running out of input

Most parts of a message have no wrong values: a version, a time, random octets or a tag is whatever
stands there. What can be said of an input for them is that it is too short, and a format made of
such parts inherits that. -/

/-- Nothing is said of an input but that it is too short. -/
def OnlyTruncates (r : Reader α) : Prop :=
  ∀ input e, r.Fails input e → e = .truncated

/-- A reader that only returns a value says nothing at all. -/
theorem onlyTruncates_pure (a : α) : (pure a : Reader α).OnlyTruncates := by
  intro input e h
  exact absurd h not_fails_pure

/-- Logging says nothing of the input. -/
theorem onlyTruncates_note (event : Event) : (note event).OnlyTruncates := by
  intro input e h
  exact absurd h not_fails_note

/-- A field of fixed length can only be cut short. -/
theorem onlyTruncates_take (n : Nat) : (take n).OnlyTruncates := by
  intro input e h
  exact (fails_take.mp h).2

/-- A sequence of readers that only run out of input only runs out of input. -/
theorem OnlyTruncates.bind {r : Reader α} {f : α → Reader β} (hr : r.OnlyTruncates)
    (hf : ∀ a, (f a).OnlyTruncates) : (r >>= f).OnlyTruncates := by
  intro input e h
  rcases fails_bind.mp h with h | ⟨a, mid, -, h⟩
  · exact hr _ _ h
  · exact hf a _ _ h

/-- A number can only be cut short. -/
theorem onlyTruncates_number (width : Nat) : (number width).OnlyTruncates :=
  (onlyTruncates_take width).bind fun _ => onlyTruncates_pure _

/-- A single octet can only be missing. -/
theorem onlyTruncates_octet : octet.OnlyTruncates :=
  (onlyTruncates_number 1).bind fun _ => onlyTruncates_pure _

end Reader

namespace Tag

variable {κ : Type} [Registry κ] {input : Bytes} {e : Error}

/-- Every number is the number of some tag, so a tag can only be cut short. -/
theorem onlyTruncates_read : (Tag.read : Reader (Tag κ)).OnlyTruncates :=
  (Reader.onlyTruncates_number _).bind fun _ => Reader.onlyTruncates_pure _

/-- The octets of a list are missing, or they are there and are too many tags. -/
theorem fails_readList {max octets : Nat} {list : Listing} :
    (readList max list octets : Reader (AtMost max (Tag κ))).Fails input e
      ↔ input.length < octets ∧ e = .truncated
        ∨ octets ≤ input.length ∧ max < octets / Registry.width κ ∧ e = .tooMany list max := by
  unfold readList
  rw [Reader.fails_bind, Reader.fails_take]
  constructor
  · rintro (hshort | ⟨field, mid, hfield, hcount⟩)
    · exact .inl hshort
    · rw [Reader.accepts_take] at hfield
      have hthere : octets ≤ input.length := by
        rw [hfield, List.length_append, field.length_bytes]
        omega
      by_cases hroom : octets / Registry.width κ ≤ max
      · simp only [dif_pos hroom] at hcount
        exact absurd hcount Reader.not_fails_pure
      · simp only [dif_neg hroom, Reader.fails_fail] at hcount
        exact .inr ⟨hthere, Nat.not_le.mp hroom, hcount.symm⟩
  · rintro (hshort | ⟨hthere, hmany, rfl⟩)
    · exact .inl hshort
    · -- the octets are taken first, and only then the tags are counted
      obtain ⟨field, hfield⟩ := Reader.exists_accepts_take hthere
      refine .inr ⟨field, input.drop octets, hfield, ?_⟩
      simp only [dif_neg (Nat.not_le.mpr hmany), Reader.fails_fail]

end Tag

end DatagramHello
