/-
Reading values off the front of a byte string.

A reader takes a byte string, logs what it meets, and either fails or gives a
value with the bytes it left over. Readers are put together with `do`: a
failure ends the whole, and the log of a sequence is the logs of its steps in
order, a failed last step included.

Everything is built from `take`, which is also the one place where running out
of input is noticed. So a reader never looks at bytes beyond those it takes,
except through `atEnd`, which only the optional end of a client hello uses.
-/
import DatagramHello.Error
import DatagramHello.Event

set_option autoImplicit false

namespace DatagramHello

/-- Reads a value of type `α` off the front of a byte string: a `parse` function with an `IResult`.
-/
def Reader (α : Type) := Bytes → Logged (Except Error (α × Bytes))

namespace Reader

variable {α β : Type}

/-- Reads nothing. -/
@[inline] protected def pure (a : α) : Reader α := fun input => ⟨[], .ok (a, input)⟩

/-- Goes on with what the first reader left, unless it failed. What was logged stays logged. -/
@[inline] protected def bind (r : Reader α) (f : α → Reader β) : Reader β := fun input =>
  match r input with
  | ⟨log, .error e⟩ => ⟨log, .error e⟩
  | ⟨log, .ok (a, rest)⟩ =>
    let next := f a rest
    ⟨log ++ next.log, next.value⟩

/-- Changes the value that was read. -/
@[inline] protected def map (f : α → β) (r : Reader α) : Reader β := fun input =>
  match r input with
  | ⟨log, .error e⟩ => ⟨log, .error e⟩
  | ⟨log, .ok (a, rest)⟩ => ⟨log, .ok (f a, rest)⟩

instance : Monad Reader where
  pure := Reader.pure
  bind := Reader.bind
  map := Reader.map

/-! ## Steps

What readers are put together from. Only `take` and `atEnd` look at the input, and only `refuse` and
`note` log anything. -/

/-- Fails without an event. -/
def fail (e : Error) : Reader α := fun _ => ⟨[], .error e⟩

/-- Fails and says so in the log. -/
def refuse (event : Event) (e : Error) : Reader α := fun _ => ⟨[event], .error e⟩

/-- Leaves an event and reads nothing. -/
def note (event : Event) : Reader Unit := fun input => ⟨[event], .ok ((), input)⟩

/-- Takes `n` octets: `take`, and what `be_u8` and the other numbers are built from. -/
def take (n : Nat) : Reader (Octets n) := fun input =>
  match h : Bytes.split? n input with
  | some (front, rest) => ⟨[], .ok (⟨front, (Bytes.split?_eq_some_iff.mp h).1⟩, rest)⟩
  | none => ⟨[], .error .truncated⟩

/-- Reads a big-endian number of `width` octets: `be_u8`, `be_u16`, `be_u24` and `be_u32`. -/
def number (width : Nat) : Reader (Fin (Bytes.span width)) := do
  let field ← take width
  pure ⟨Bytes.number field.bytes, Bytes.number_lt field.length_bytes⟩

/-- Reads one octet as such. -/
def octet : Reader UInt8 := do
  let n ← number 1
  pure (UInt8.ofNat n)

/-- Whether nothing is left to read. -/
def atEnd : Reader Bool := fun input => ⟨[], .ok (input.isEmpty, input)⟩

/-- Runs a reader on the given bytes instead of the input, and returns its value with the bytes it
left over. -/
def inside (bytes : Bytes) (r : Reader α) : Reader (α × Bytes) := fun input =>
  match r bytes with
  | ⟨log, .error e⟩ => ⟨log, .error e⟩
  | ⟨log, .ok (a, rest)⟩ => ⟨log, .ok ((a, rest), input)⟩

/-- Reads a value that must be the whole input, as a `decode` does with its `parse`; `onExcess`
gives the events and the error for the bytes after it. -/
def whole (r : Reader α) (onExcess : Bytes → List Event × Error) (input : Bytes) :
    Logged (Except Error α) :=
  match r input with
  | ⟨log, .error e⟩ => ⟨log, .error e⟩
  | ⟨log, .ok (a, [])⟩ => ⟨log, .ok a⟩
  | ⟨log, .ok (_, rest)⟩ =>
    let excess := onExcess rest
    ⟨log ++ excess.1, .error excess.2⟩

/-! ## What a step does to its input

The equations by which later files know the steps; a reader is a function, but none of them unfolds
one. -/

/-- A value that was not read leaves the input alone. -/
theorem pure_apply (a : α) (input : Bytes) : (pure a : Reader α) input = ⟨[], .ok (a, input)⟩ := rfl

/-- The second reader starts where the first one stopped, and its events come behind those of the
first. -/
theorem bind_apply (r : Reader α) (f : α → Reader β) (input : Bytes) :
    (r >>= f) input = match r input with
      | ⟨log, .error e⟩ => ⟨log, .error e⟩
      | ⟨log, .ok (a, rest)⟩ => ⟨log ++ (f a rest).log, (f a rest).value⟩ := rfl

/-- A change to the value changes neither the events nor what is left over. -/
theorem map_apply (f : α → β) (r : Reader α) (input : Bytes) :
    (f <$> r) input = match r input with
      | ⟨log, .error e⟩ => ⟨log, .error e⟩
      | ⟨log, .ok (a, rest)⟩ => ⟨log, .ok (f a, rest)⟩ := rfl

/-- What is done to the value of a sequence is done to that of its last step. -/
theorem map_bind {γ : Type} (g : β → γ) (r : Reader α) (f : α → Reader β) :
    g <$> (r >>= f) = r >>= fun a => g <$> f a := by
  funext input
  simp only [map_apply, bind_apply]
  rcases r input with ⟨log, e | ⟨a, rest⟩⟩
  · rfl
  · simp only
    rcases f a rest with ⟨log', e | ⟨b, rest'⟩⟩ <;> rfl

/-- Two changes to a value are one. -/
theorem map_map {γ : Type} (f : α → β) (g : β → γ) (r : Reader α) :
    g <$> f <$> r = (fun a => g (f a)) <$> r := by
  funext input
  simp only [map_apply]
  rcases r input with ⟨log, e | ⟨a, rest⟩⟩ <;> rfl

/-- Taking as many octets as stand in front gives them and leaves what follows. -/
theorem take_append {n : Nat} (field : Octets n) (rest : Bytes) :
    take n (field.bytes ++ rest) = ⟨[], .ok (field, rest)⟩ := by
  obtain ⟨bytes, rfl⟩ := field
  simp only [take]
  split
  case h_1 front after h =>
    rw [Bytes.split?_append] at h
    cases h
    rfl
  case h_2 h => simp [Bytes.split?_append] at h

/-- Running out of input is noticed here, and leaves no event. -/
theorem take_of_length_lt {n : Nat} {input : Bytes} (h : input.length < n) :
    take n input = ⟨[], .error .truncated⟩ := by
  simp only [take]
  split
  case h_1 hsome =>
    rw [Bytes.split?_eq_none_iff.mpr h] at hsome
    contradiction
  case h_2 => rfl

end Reader

/-- Reads a tag: the `parse` of a registry, `from_u8` or `from_u16` of a number. -/
def Tag.read {κ : Type} [Registry κ] : Reader (Tag κ) := do
  let n ← Reader.number (Registry.width κ)
  pure (Tag.ofId n)

end DatagramHello
