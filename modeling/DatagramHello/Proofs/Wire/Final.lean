/-
Verdicts that more input cannot change.

A reader meets octets as they arrive, and its caller wants to know whether it is
worth waiting for more. A verdict is *final* at an input when any continuation
of the input gets the same one: the same value with the continuation left over,
or the same error. Running out of input is the one verdict that may change, so
it is the one that says to wait.

The notion is closed under everything readers are built from, because `take` is
the only step that looks at its input and what it cuts off stays where it is.
The exception is `atEnd`, which asks whether anything follows; `FinalAt` speaks
of one input for the sake of the reader that uses it.
-/
import DatagramHello.Proofs.Wire.Accepts

set_option autoImplicit false

namespace DatagramHello

namespace Reader

variable {α β : Type} {r : Reader α} {f : α → Reader β} {input : Bytes}

/-- More input after `input` changes nothing about what `r` says of it, unless `r` says that it ends
too early. -/
structure FinalAt (r : Reader α) (input : Bytes) : Prop where
  accepts_append : ∀ a rest, r.Accepts input a rest →
    ∀ more, r.Accepts (input ++ more) a (rest ++ more)
  error_append : ∀ e, (r input).value = .error e → e ≠ .truncated →
    ∀ more, (r (input ++ more)).value = .error e

/-- No verdict of the reader but running out of input changes with more input. -/
def Final (r : Reader α) : Prop := ∀ input, r.FinalAt input

/-! ## Sequences

The second step of a sequence is run on what the first left, so more input for the whole is more
input for the second step. This is why `FinalAt` speaks of the rest as well as of the value. -/

/-- A reader that only returns a value does not look at the input. -/
theorem final_pure (a : α) : (pure a : Reader α).Final := by
  intro input
  refine ⟨?_, ?_⟩
  · intro b rest h more
    obtain ⟨rfl, rfl⟩ := accepts_pure.mp h
    exact accepts_pure.mpr ⟨rfl, rfl⟩
  · intro e h
    contradiction

/-- A sequence is final where its first step is and, behind what that step read, the rest is. -/
theorem FinalAt.bind (hr : r.FinalAt input)
    (hf : ∀ a rest, r.Accepts input a rest → (f a).FinalAt rest) : (r >>= f).FinalAt input := by
  refine ⟨?_, ?_⟩
  · intro b rest h more
    obtain ⟨a, mid, hfirst, hnext⟩ := accepts_bind.mp h
    have hfirst' := hr.accepts_append a mid hfirst more
    have hnext' := (hf a mid hfirst).accepts_append b rest hnext more
    exact accepts_bind.mpr ⟨a, mid ++ more, hfirst', hnext'⟩
  · intro e h hcut more
    -- the error is the first step's, or it comes from behind what that step read
    rcases r.accepts_or_error input with ⟨a, mid, hfirst⟩ | ⟨e', hfirst⟩
    · rw [value_bind_of_accepts hfirst] at h
      rw [value_bind_of_accepts (hr.accepts_append a mid hfirst more)]
      exact (hf a mid hfirst).error_append e h hcut more
    · rw [value_bind_of_error hfirst] at h
      cases h
      exact value_bind_of_error (hr.error_append e hfirst hcut more)

/-- A sequence of final steps is final. -/
theorem Final.bind (hr : r.Final) (hf : ∀ a, (f a).Final) : (r >>= f).Final :=
  fun input => (hr input).bind fun a rest _ => hf a rest

/-- A value is worked on after it was read, so nothing changes about how far that goes. -/
theorem FinalAt.map (g : α → β) (hr : r.FinalAt input) : (g <$> r).FinalAt input := by
  refine ⟨?_, ?_⟩
  · intro b rest h more
    obtain ⟨a, hread, rfl⟩ := accepts_map.mp h
    exact accepts_map.mpr ⟨a, hr.accepts_append a rest hread more, rfl⟩
  · intro e h hcut more
    rw [value_map] at h ⊢
    rcases r.accepts_or_error input with ⟨a, rest, hread⟩ | ⟨e', hread⟩
    · rw [Accepts] at hread
      rw [hread] at h
      contradiction
    · rw [hread] at h
      cases h
      rw [hr.error_append e hread hcut more]
      rfl

/-- Working on a value after it was read changes no verdict. -/
theorem Final.map (g : α → β) (hr : r.Final) : (g <$> r).Final :=
  fun input => (hr input).map g

/-! ## Steps

Each step by itself. `take` is the one that a continuation could affect, and it is affected only
where it ran out of input. -/

/-- A reader that always fails in one way does not ask for more. -/
theorem final_of_value_eq_error {e : Error} (h : ∀ input, (r input).value = .error e) :
    r.Final := by
  intro input
  refine ⟨?_, ?_⟩
  · intro a rest hread
    rw [Accepts, h] at hread
    contradiction
  · intro e' hread _ more
    rw [h] at hread ⊢
    exact hread

/-- Giving up does not depend on the input. -/
theorem final_fail (e : Error) : (fail e : Reader α).Final :=
  final_of_value_eq_error fun _ => rfl

/-- Giving up with an event does not depend on the input either. -/
theorem final_refuse (event : Event) (e : Error) : (refuse event e : Reader α).Final :=
  final_of_value_eq_error fun _ => rfl

/-- Logging does not depend on the input. -/
theorem final_note (event : Event) : (note event).Final := by
  intro input
  refine ⟨?_, ?_⟩
  · intro u rest h more
    exact accepts_note.mpr (congrArg (· ++ more) (accepts_note.mp h))
  · intro e h
    contradiction

/-- A field that was cut off stays where it is, and a field that was not there may still come. -/
theorem final_take (n : Nat) : (take n).Final := by
  intro input
  refine ⟨?_, ?_⟩
  · intro field rest h more
    rw [accepts_take.mp h]
    exact accepts_take.mpr (List.append_assoc _ _ _)
  · intro e h hcut
    by_cases hshort : input.length < n
    · rw [take_of_length_lt hshort] at h
      cases h
      exact absurd rfl hcut
    · -- enough octets are there, so nothing failed
      obtain ⟨field, hread⟩ := exists_accepts_take (Nat.not_lt.mp hshort)
      rw [Accepts, h] at hread
      contradiction

/-- A number that was read stays what it is. -/
theorem final_number (width : Nat) : (number width).Final :=
  (final_take width).bind fun _ => final_pure _

/-- An octet that was read stays what it is. -/
theorem final_octet : octet.Final :=
  (final_number 1).bind fun _ => final_pure _

/-- Where something is left, more of it does not change that. -/
theorem finalAt_atEnd (h : input ≠ []) : atEnd.FinalAt input := by
  obtain ⟨first, others, rfl⟩ := List.exists_cons_of_ne_nil h
  refine ⟨?_, ?_⟩
  · intro finished rest hread more
    obtain ⟨hfinished, rfl⟩ := accepts_atEnd.mp hread
    exact accepts_atEnd.mpr ⟨hfinished, rfl⟩
  · intro e hread
    contradiction

/-- A choice between final readers is final where the input has no say in it. -/
theorem Final.ite {c : Prop} [Decidable c] {r r' : Reader α} (h : r.Final) (h' : r'.Final) :
    (if c then r else r').Final := by
  by_cases hc : c
  · rw [if_pos hc]
    exact h
  · rw [if_neg hc]
    exact h'

/-- The same for a choice whose branches use the outcome of the test. -/
theorem Final.dite {c : Prop} [Decidable c] {r : c → Reader α} {r' : ¬ c → Reader α}
    (h : ∀ hc, (r hc).Final) (h' : ∀ hc, (r' hc).Final) :
    (if hc : c then r hc else r' hc).Final := by
  by_cases hc : c
  · rw [dif_pos hc]
    exact h hc
  · rw [dif_neg hc]
    exact h' hc

/-- A reader that works inside a field does not see what follows the field, whatever it does
there. -/
theorem final_inside (bytes : Bytes) (r : Reader α) : (inside bytes r).Final := by
  intro input
  refine ⟨?_, ?_⟩
  · rintro ⟨a, excess⟩ rest h more
    obtain ⟨hread, rfl⟩ := accepts_inside.mp h
    exact accepts_inside.mpr ⟨hread, rfl⟩
  · intro e h _ more
    -- the field decides alone
    rcases hrun : r bytes with ⟨log, e' | ⟨a, excess⟩⟩
    · simp only [inside, hrun] at h ⊢
      exact h
    · simp only [inside, hrun] at h
      contradiction

/-! ## Whole inputs

`Reader.whole` does not let anything be left over, so more input does change its verdict. What is
final about it is the other direction: an input that was cut short is never taken for a bad one. -/

/-- **Cut short.** What is left of an input that was read as a whole, when anything is cut off its
end, is too short and nothing else. -/
theorem Final.value_whole_of_append {onExcess : Bytes → List Event × Error} {a : α}
    {more : Bytes} (hr : r.Final) (hwhole : (r.whole onExcess (input ++ more)).value = .ok a)
    (hmore : more ≠ []) : (r.whole onExcess input).value = .error .truncated := by
  rw [whole_eq_ok_iff] at hwhole
  rcases hrun : r input with ⟨log, e | ⟨a', rest⟩⟩
  · have hvalue : (r input).value = .error e := by rw [hrun]
    by_cases hcut : e = .truncated
    · rw [whole, hrun, hcut]
    · -- another error would have been the verdict on the whole input too
      have hstays := (hr input).error_append e hvalue hcut more
      rw [Accepts, hstays] at hwhole
      contradiction
  · -- what was cut off would have been left over
    have hstays := (hr input).accepts_append a' rest (by rw [Accepts, hrun]) more
    obtain ⟨-, hrest⟩ := hwhole.unique hstays
    exact absurd (List.append_eq_nil_iff.mp hrest.symm).2 hmore

end Reader

end DatagramHello
