/-
What a reader says on its way.

A reader logs what it meets, and what it has logged stays when a later step
fails. Most readers log nothing (`Mute`). A mute step can be taken off a
sequence, log and all: where it accepts, the sequence is what follows, run on
what the step left.

The outcome of any other reader is compared with a list of events. `Told said`
holds of an outcome whose log is `said`, and of a failure with one event more,
if that event and the error are the two sides of one refusal. So it says at once
where the log can end, which failures add to it, and that these are the only
ones; and a sequence in which one step alone has something to say is told what
that step is told.

Four errors are said aloud in this way. None of the four is ever the verdict of
a mute reader, so with them the error alone shows whether there was an event.
-/
import DatagramHello.Proofs.Wire.Fails

set_option autoImplicit false

namespace DatagramHello

/-- The error that is returned along with an event of a message that is refused. -/
def Event.error? : Event → Option Error
  | .extensionOverrun _ _ _ => some (.framing .extensionOverrun)
  | .fragment _ _ _ _ => some (.framing .fragmented)
  | .bytesAfterBody _ _ => some (.framing .bytesAfterBody)
  | .noDecoder type => some (.unsupportedMessage type.id)
  | _ => none

/-- The errors that are not returned without an event. -/
def Error.Loud : Error → Prop
  | .unsupportedMessage _ => True
  | .framing .fragmented => True
  | .framing .extensionOverrun => True
  | .framing .bytesAfterBody => True
  | _ => False

/-- The four errors, spelled out. -/
theorem Error.loud_iff {e : Error} :
    e.Loud ↔ (∃ id, e = .unsupportedMessage id) ∨ e = .framing .fragmented
      ∨ e = .framing .extensionOverrun ∨ e = .framing .bytesAfterBody := by
  unfold Loud
  split <;> simp_all

/-- The four verdicts that go with an event. -/
theorem Error.exists_loud_iff {α : Type} {verdict : Except Error α} :
    (∃ e, verdict = .error e ∧ e.Loud)
      ↔ (∃ id, verdict = .error (.unsupportedMessage id)) ∨ verdict = .error (.framing .fragmented)
        ∨ verdict = .error (.framing .extensionOverrun)
        ∨ verdict = .error (.framing .bytesAfterBody) := by
  simp only [loud_iff]
  constructor
  · rintro ⟨e, rfl, ⟨id, rfl⟩ | rfl | rfl | rfl⟩
    · exact .inl ⟨id, rfl⟩
    · exact .inr (.inl rfl)
    · exact .inr (.inr (.inl rfl))
    · exact .inr (.inr (.inr rfl))
  · rintro (⟨id, rfl⟩ | rfl | rfl | rfl)
    · exact ⟨_, rfl, .inl ⟨id, rfl⟩⟩
    · exact ⟨_, rfl, .inr (.inl rfl)⟩
    · exact ⟨_, rfl, .inr (.inr (.inl rfl))⟩
    · exact ⟨_, rfl, .inr (.inr (.inr rfl))⟩

section Event

variable {event : Event} {e : Error}

/-- An event that goes along with an error goes along with one of the four. -/
theorem Event.loud_of_error? (h : event.error? = some e) : e.Loud := by
  cases event <;> cases h <;> trivial

/-- Refusals are reported at the debug level. -/
theorem Event.level_of_error? (h : event.error? = some e) : event.level = .debug := by
  cases event <;> cases h <;> rfl

end Event

namespace Reader

variable {α β : Type} {input rest : Bytes} {e : Error}

/-! ## Mute readers

Where the log does not matter a reader is known by `Accepts` and `Fails`. A mute reader is known by
them altogether, and in a sequence it can be taken for its value. -/

/-- The reader logs nothing and blames nothing that would be said aloud. -/
structure Mute (r : Reader α) : Prop where
  log_eq : ∀ input, (r input).log = []
  not_loud : ∀ input e, r.Fails input e → ¬ e.Loud

section Mute

variable {r : Reader α} {f : α → Reader β}

/-- The whole outcome of a mute reader where it accepts: no event, and the value. -/
theorem Mute.apply_of_accepts {a : α} (hr : r.Mute) (h : r.Accepts input a rest) :
    r input = ⟨[], .ok (a, rest)⟩ := by
  have hlog := hr.log_eq input
  rcases hrun : r input with ⟨log, value⟩
  rw [hrun] at hlog
  rw [Accepts, hrun] at h
  cases hlog
  cases h
  rfl

/-- The whole outcome of a mute reader where it fails: no event, and the error. -/
theorem Mute.apply_of_fails (hr : r.Mute) (h : r.Fails input e) : r input = ⟨[], .error e⟩ := by
  have hlog := hr.log_eq input
  rcases hrun : r input with ⟨log, value⟩
  rw [hrun] at hlog
  rw [Fails, hrun] at h
  cases hlog
  cases h
  rfl

/-- Behind a mute step, a sequence is what follows. -/
theorem Mute.bind_of_accepts {a : α} (hr : r.Mute) (h : r.Accepts input a rest) :
    (r >>= f) input = f a rest := by
  rw [bind_apply, hr.apply_of_accepts h]
  rfl

/-- Where a mute first step fails, a sequence has logged nothing. -/
theorem Mute.bind_of_fails (hr : r.Mute) (h : r.Fails input e) :
    (r >>= f) input = ⟨[], .error e⟩ := by
  rw [bind_apply, hr.apply_of_fails h]

/-- A sequence of mute steps is mute. -/
theorem Mute.bind (hr : r.Mute) (hf : ∀ a, (f a).Mute) : (r >>= f).Mute := by
  refine ⟨?_, ?_⟩
  · intro input
    rcases r.accepts_or_error input with ⟨a, rest, hread⟩ | ⟨e, hfails⟩
    · rw [hr.bind_of_accepts hread]
      exact (hf a).log_eq rest
    · rw [hr.bind_of_fails hfails]
  · intro input e h
    rcases fails_bind.mp h with h | ⟨a, mid, -, h⟩
    · exact hr.not_loud _ _ h
    · exact (hf a).not_loud _ _ h

/-- Returning a value logs nothing. -/
theorem mute_pure (a : α) : (pure a : Reader α).Mute := by
  refine ⟨fun _ => rfl, ?_⟩
  intro input e h
  exact absurd h not_fails_pure

/-- Giving up logs nothing, and is mute with any error but the four. -/
theorem mute_fail (he : ¬ e.Loud) : (fail e : Reader α).Mute := by
  refine ⟨fun _ => rfl, ?_⟩
  intro input e' h
  rw [← fails_fail.mp h]
  exact he

/-- A field is cut off without a word. -/
theorem mute_take (n : Nat) : (take n).Mute := by
  refine ⟨?_, ?_⟩
  · intro input
    rw [take]
    split <;> rfl
  · intro input e h
    rw [(fails_take.mp h).2]
    exact not_false

/-- Asking whether the input is used up logs nothing. -/
theorem mute_atEnd : atEnd.Mute := by
  refine ⟨fun _ => rfl, ?_⟩
  intro input e h
  exact absurd h (accepts_atEnd.mpr ⟨rfl, rfl⟩).not_fails

/-- A choice between mute readers is mute. -/
theorem Mute.ite {c : Prop} [Decidable c] {r' : Reader α} (hr : r.Mute) (hr' : r'.Mute) :
    (if c then r else r').Mute := by
  by_cases hc : c
  · rw [if_pos hc]
    exact hr
  · rw [if_neg hc]
    exact hr'

/-- The same for a choice whose branches use the outcome of the test. -/
theorem Mute.dite {c : Prop} [Decidable c] {r : c → Reader α} {r' : ¬ c → Reader α}
    (hr : ∀ h, (r h).Mute) (hr' : ∀ h, (r' h).Mute) : (if h : c then r h else r' h).Mute := by
  by_cases hc : c
  · rw [dif_pos hc]
    exact hr hc
  · rw [dif_neg hc]
    exact hr' hc

/-- A number is read without a word. -/
theorem mute_number (width : Nat) : (number width).Mute :=
  (mute_take width).bind fun _ => mute_pure _

/-- An octet is read without a word. -/
theorem mute_octet : octet.Mute :=
  (mute_number 1).bind fun _ => mute_pure _

end Mute

/-! ## Outcomes

Readers that do log. `Told` is stated of an outcome and not of a reader, because what is logged on
the way to it depends on the input; the lemmas say how it passes through a sequence. -/

/-- The log of the outcome is `said`, with one more event if it is a refusal of the kind that has
one. -/
inductive Told (said : List Event) : Logged (Except Error α) → Prop
  | read (a : α) : Told said ⟨said, .ok a⟩
  | unsaid (e : Error) (quiet : ¬ e.Loud) : Told said ⟨said, .error e⟩
  | refused (event : Event) (e : Error) (pair : event.error? = some e) :
      Told said ⟨said ++ [event], .error e⟩

namespace Told

variable {said said' : List Event}

section Outcome

variable {x : Logged (Except Error α)}

/-- Of an input that was read nothing is logged but `said`. -/
theorem log_of_ok {a : α} (hx : Told said x) (hok : x.value = .ok a) : x.log = said := by
  rcases hx with ⟨⟩ | ⟨e, -⟩ | ⟨event, e, -⟩
  · rfl
  · contradiction
  · contradiction

/-- The log begins with `said` and ends there or with a single event at the debug level. -/
theorem exists_last (hx : Told said x) :
    ∃ last, x.log = said ++ last
      ∧ (last = [] ∨ ∃ event, last = [event] ∧ event.level = .debug) := by
  rcases hx with ⟨⟩ | ⟨e, -⟩ | ⟨event, e, hpair⟩
  · exact ⟨[], (List.append_nil said).symm, .inl rfl⟩
  · exact ⟨[], (List.append_nil said).symm, .inl rfl⟩
  · exact ⟨[event], rfl, .inr ⟨event, rfl, Event.level_of_error? hpair⟩⟩

/-- With nothing but traces on the way, a debug event is the last one, of a refusal. -/
theorem debug_iff (hx : Told said x) (hsaid : ∀ event ∈ said, event.level = .trace) :
    (∃ event ∈ x.log, event.level = .debug) ↔ ∃ e, x.value = .error e ∧ e.Loud := by
  have hnone : ¬ ∃ event ∈ said, event.level = .debug := by
    rintro ⟨event, hmem, hdebug⟩
    rw [hsaid event hmem] at hdebug
    contradiction
  rcases hx with ⟨⟩ | ⟨e, hquiet⟩ | ⟨event, e, hpair⟩
  · simp [hnone]
  · simp [hnone, hquiet]
  · have hdebug : event.level = .debug := Event.level_of_error? hpair
    have hloud : e.Loud := Event.loud_of_error? hpair
    simp [hdebug, hloud]

end Outcome

variable {r : Reader α} {f : α → Reader β}

/-- A sequence is told what its first step is told if the steps behind that have nothing to say. -/
theorem bind (hr : Told said (r input))
    (hf : ∀ a rest, r.Accepts input a rest → Told [] (f a rest)) :
    Told said ((r >>= f) input) := by
  unfold Accepts at hf
  rw [bind_apply]
  generalize r input = x at hr hf ⊢
  rcases hr with ⟨⟨a, rest⟩⟩ | ⟨e, hquiet⟩ | ⟨event, e, hpair⟩
  · have hnext : Told [] (f a rest) := hf a rest rfl
    simp only
    generalize f a rest = y at hnext ⊢
    rcases hnext with ⟨⟩ | ⟨e, hquiet⟩ | ⟨event, e, hpair⟩
    · rw [List.append_nil]
      exact .read _
    · rw [List.append_nil]
      exact .unsaid e hquiet
    · exact .refused event e hpair
  · exact .unsaid e hquiet
  · exact .refused event e hpair

/-- What a step logged that accepts stands in front of what follows. -/
theorem bind_of_apply {a : α} (hr : r input = ⟨said, .ok (a, rest)⟩) (hf : Told said' (f a rest)) :
    Told (said ++ said') ((r >>= f) input) := by
  rw [bind_apply, hr]
  simp only
  generalize f a rest = y at hf ⊢
  rcases hf with ⟨⟩ | ⟨e, hquiet⟩ | ⟨event, e, hpair⟩
  · exact .read _
  · exact .unsaid e hquiet
  · rw [← List.append_assoc]
    exact .refused event e hpair

/-- Working on a value after it was read logs nothing more. -/
theorem map {g : α → β} (hr : Told said (r input)) : Told said ((g <$> r) input) := by
  rw [map_apply]
  generalize r input = x at hr ⊢
  rcases hr with ⟨⟨a, rest⟩⟩ | ⟨e, hquiet⟩ | ⟨event, e, hpair⟩
  · exact .read _
  · exact .unsaid e hquiet
  · exact .refused event e hpair

/-- Reading an inner input logs what the inner reader logs. -/
theorem inside {bytes : Bytes} (hr : Told said (r bytes)) :
    Told said (Reader.inside bytes r input) := by
  rw [Reader.inside]
  generalize r bytes = x at hr ⊢
  rcases hr with ⟨⟨a, rest⟩⟩ | ⟨e, hquiet⟩ | ⟨event, e, hpair⟩
  · exact .read _
  · exact .unsaid e hquiet
  · exact .refused event e hpair

/-- Nothing is said of what is left over behind a whole input if the error is not a loud one. -/
theorem whole (hr : Told said (r input)) (he : ¬ e.Loud) :
    Told said (r.whole (fun _ => ([], e)) input) := by
  rw [Reader.whole]
  generalize r input = x at hr ⊢
  rcases hr with ⟨⟨a, _ | ⟨b, left⟩⟩⟩ | ⟨e', hquiet⟩ | ⟨event, e', hpair⟩
  · exact .read _
  · simp only [List.append_nil]
    exact .unsaid e he
  · exact .unsaid e' hquiet
  · exact .refused event e' hpair

end Told

/-- Of a mute reader there is nothing to tell. -/
theorem Mute.told {r : Reader α} (hr : r.Mute) (input : Bytes) : Told [] (r input) := by
  rcases r.accepts_or_error input with ⟨a, rest, hread⟩ | ⟨e, hfails⟩
  · rw [hr.apply_of_accepts hread]
    exact .read _
  · rw [hr.apply_of_fails hfails]
    exact .unsaid e (hr.not_loud _ _ hfails)

/-- A refusal tells its own event and nothing before it. -/
theorem told_refuse {event : Event} (pair : event.error? = some e) (input : Bytes) :
    Told [] ((refuse event e : Reader α) input) :=
  .refused event e pair

end Reader

namespace Tag

variable {κ : Type} [Registry κ]

/-- A tag is read without a word. -/
theorem mute_read : (Tag.read : Reader (Tag κ)).Mute :=
  (Reader.mute_number _).bind fun _ => Reader.mute_pure _

/-- A list of tags is read without a word. -/
theorem mute_readList (max : Nat) (list : Listing) (octets : Nat) :
    (readList max list octets : Reader (AtMost max (Tag κ))).Mute :=
  (Reader.mute_take octets).bind fun _ =>
    .dite (fun _ => Reader.mute_pure _) fun _ => Reader.mute_fail not_false

end Tag

end DatagramHello
