/-
Writing into a caller's buffer.

A writer appends to a buffer that may hold bytes already, and may fail. What
matters to the caller of a failed writer is the buffer it is left with, so a
writer is a function from buffer to buffer and verdict, and a sequence that
fails half way leaves what its first steps appended unless someone cuts the
buffer back.

The buffer keeps its last byte first: appending then costs the length of what
is appended, whatever the buffer holds already, and cutting back costs the
length of what is cut off. `toBytes` is the view in which a buffer is
described.
-/
import DatagramHello.Error

set_option autoImplicit false

namespace DatagramHello

/-- Bytes written so far, last one first. -/
structure Buffer where
  reversed : Bytes
deriving DecidableEq

namespace Buffer

/-- The bytes in the order they were written. -/
def toBytes (b : Buffer) : Bytes := b.reversed.reverse

/-- A buffer that holds the given bytes. -/
def ofBytes (bs : Bytes) : Buffer := ⟨bs.reverse⟩

/-- A buffer that nothing was written to. -/
def empty : Buffer := ⟨[]⟩

/-- How many bytes the buffer holds. -/
def length (b : Buffer) : Nat := b.reversed.length

/-- Puts bytes at the end: `extend_from_slice`. -/
def append (b : Buffer) (bs : Bytes) : Buffer := ⟨bs.reverseAux b.reversed⟩

/-- Keeps the first `n` bytes, all if there are no more: `truncate`. -/
def truncate (b : Buffer) (n : Nat) : Buffer := ⟨b.reversed.drop (b.length - n)⟩

/-- Puts `bs` in place of the bytes from place `start` on, as far as the buffer goes. -/
def overwrite (b : Buffer) (start : Nat) (bs : Bytes) : Buffer :=
  let held := b.toBytes
  ofBytes (held.take start ++ (bs ++ held.drop (start + bs.length)).take (held.length - start))

/-- A buffer is known from its bytes. -/
@[ext] theorem ext {a b : Buffer} (h : a.toBytes = b.toBytes) : a = b := by
  cases a
  cases b
  simpa [toBytes] using h

/-- The bytes that a buffer was made of are those it holds. -/
@[simp] theorem toBytes_ofBytes (bs : Bytes) : (ofBytes bs).toBytes = bs := by
  simp [toBytes, ofBytes]

/-- Nothing was written yet. -/
@[simp] theorem toBytes_empty : empty.toBytes = [] := rfl

/-- The order of the bytes has no part in their number. -/
@[simp] theorem length_toBytes (b : Buffer) : b.toBytes.length = b.length := by
  simp [toBytes, length]

/-- What is appended comes behind what was there. -/
@[simp] theorem toBytes_append (b : Buffer) (bs : Bytes) :
    (b.append bs).toBytes = b.toBytes ++ bs := by
  simp [toBytes, append, List.reverseAux_eq]

/-- The buffer grows by what is appended. -/
@[simp] theorem length_append (b : Buffer) (bs : Bytes) :
    (b.append bs).length = b.length + bs.length := by
  rw [← length_toBytes, toBytes_append, List.length_append, length_toBytes]

/-- Cutting back keeps the front. -/
@[simp] theorem toBytes_truncate (b : Buffer) (n : Nat) :
    (b.truncate n).toBytes = b.toBytes.take n := by
  simp [toBytes, truncate, length, List.reverse_drop]
  omega

/-- Cutting back to the length before is taking back what was appended. -/
@[simp] theorem truncate_append (b : Buffer) (bs : Bytes) :
    (b.append bs).truncate b.length = b := by
  ext1
  rw [toBytes_truncate, toBytes_append, List.take_left' b.length_toBytes]

/-- Appending twice is appending both at once. -/
theorem append_append (b : Buffer) (xs ys : Bytes) :
    (b.append xs).append ys = b.append (xs ++ ys) := by
  ext1
  simp

/-- Appending nothing changes nothing. -/
@[simp] theorem append_nil (b : Buffer) : b.append [] = b := rfl

end Buffer

/-- A buffer after a writer ran, and the writer's verdict. -/
structure Written where
  buffer : Buffer
  result : Except Error Unit

/-- A step that writes into a buffer: a `serialize` function with the buffer it is given. -/
def Writer := Buffer → Written

namespace Writer

/-- Appends bytes and succeeds. -/
def put (bs : Bytes) : Writer := fun out => ⟨out.append bs, .ok ()⟩

/-- Does nothing and succeeds. -/
def skip : Writer := fun out => ⟨out, .ok ()⟩

/-- Fails; the buffer stays as the steps before left it. -/
def fail (e : Error) : Writer := fun out => ⟨out, .error e⟩

/-- Goes on with `next` unless the first writer fails, as `?` does. -/
def andThen (w next : Writer) : Writer := fun out =>
  match w out with
  | ⟨mid, .ok ()⟩ => next mid
  | ⟨mid, .error e⟩ => ⟨mid, .error e⟩

/-- Cuts the buffer back to the length it had if the writer fails. -/
def restoring (w : Writer) : Writer := fun out =>
  match w out with
  | ⟨after, .ok ()⟩ => ⟨after, .ok ()⟩
  | ⟨after, .error e⟩ => ⟨after.truncate out.length, .error e⟩

end Writer

end DatagramHello
