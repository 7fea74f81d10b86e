/-
A block of extensions in a caller's hands.

A caller may start a block anew, make one of extensions that it came by in some
way, read one, or push what some source writes. A source is the caller's own
and may announce any length; what it announces is not looked at when it is
pushed. The data that came out is, so a push adds an extension with these very
data or nothing.

That is why the three numbers of a block agree after any run of operations: the
length of the block is the sum over what the extensions hold, no extension holds
more than its own 16-bit length can say, and so the length of the whole block is
all that can stand in the way of writing it. What was written is read back with
the extensions in their order.
-/
import DatagramHello.Proofs.Extension.Codec

set_option autoImplicit false

namespace DatagramHello

/-! ## Coming by an extension

Extensions are made of octets, captured from a source or read. In each case the bound on the data
was checked on the way, and the value carries the proof. -/

namespace Extension

/-- The ways to come by an extension. -/
inductive Origin where
  | ofData (type : ExtensionType) (data : Bytes)
  | capture (s : Source)
  | read (input : Bytes)

/-- The extension that is come by, or why there is none. -/
def Origin.extension : Origin → Except Error Extension
  | .ofData type data => Extension.ofData type data
  | .capture s => s.capture
  | .read input => (Extension.read input).value.map Prod.fst

variable {type : ExtensionType} {data : Bytes}

/-- Data that fit make an extension. -/
theorem ofData_of_le (h : data.length ≤ 65535) : ofData type data = .ok ⟨type, data, h⟩ := by
  rw [ofData, dif_pos h]

/-- Data that do not fit are refused with their number. -/
theorem ofData_of_lt (h : 65535 < data.length) :
    ofData type data = .error (.doesNotFit .extensionData data.length 65535) := by
  rw [ofData, dif_neg (Nat.not_le.mpr h)]

end Extension

/-! ## Operations

What a caller can do to a block, as one step, and runs of such steps from the empty block. A step
that fails leaves the block as it was, so a run goes on. -/

namespace Extensions

open Extension (Origin Source)

/-- What a caller does with the block it holds. -/
inductive Op where
  | clear
  | hold (origins : List Origin)
  | push (s : Source)
  | read (input : Bytes)
  | decode (input : Bytes)

/-- The block that an operation gives, or why it gives none. -/
def perform (xs : Extensions) : Op → Except Error Extensions
  | .clear => .ok empty
  | .hold origins => (origins.mapM Origin.extension).map Extensions.mk
  | .push s => xs.push s
  | .read input => (Extensions.read input).value.map Prod.fst
  | .decode input => (Extensions.decode input).value

/-- The block that a caller holds after an operation: what it gave, or what was held before if it
gave none. -/
def after (xs : Extensions) (op : Op) : Extensions :=
  match xs.perform op with
  | .ok ys => ys
  | .error _ => xs

/-- What a run of operations comes to. -/
def ofOps (ops : List Op) : Extensions := ops.foldl after empty

variable {xs : Extensions} {s : Source}

/-- A run of operations is the run of all but the last, and then the last. -/
theorem ofOps_concat (ops : List Op) (op : Op) : ofOps (ops ++ [op]) = (ofOps ops).after op := by
  rw [ofOps, List.foldl_append]
  rfl

/-- An operation that succeeds leaves what it gives. -/
theorem after_of_ok {ys : Extensions} {op : Op} (h : xs.perform op = .ok ys) :
    xs.after op = ys := by
  rw [after, h]

/-- An operation that fails leaves the block as it was. -/
theorem after_of_error {e : Error} {op : Op} (h : xs.perform op = .error e) :
    xs.after op = xs := by
  rw [after, h]

/-- The sizes of two rows of extensions add up. -/
theorem totalSize_append (xs ys : List Extension) :
    totalSize (xs ++ ys) = totalSize xs + totalSize ys := by
  induction xs with
  | nil => rw [List.nil_append, totalSize, Nat.zero_add]
  | cons x xs ih =>
    rw [List.cons_append, totalSize, totalSize, ih, Nat.add_assoc]

/-! ## Pushing

A push is the one operation that adds to a block that is there. It captures the source and looks at
the data alone. -/

/-- A push of data that fit adds an extension with these data at the end. -/
theorem perform_push_of_le (xs : Extensions) (h : s.data.length ≤ 65535) :
    xs.perform (.push s) = .ok ⟨xs.entries ++ [⟨s.type, s.data, h⟩]⟩ := by
  rw [perform, push, Source.capture, Extension.ofData_of_le h]
  rfl

/-- A push of data that do not fit is refused, whatever the source announced. -/
theorem perform_push_of_lt (xs : Extensions) (h : 65535 < s.data.length) :
    xs.perform (.push s) = .error (.doesNotFit .extensionData s.data.length 65535) := by
  rw [perform, push, Source.capture, Extension.ofData_of_lt h]
  rfl

/-- A push adds the extension that the source comes to, if it comes to one. -/
theorem entries_after_push (xs : Extensions) (s : Source) :
    (xs.after (.push s)).entries = xs.entries ++ s.capture.toOption.toList := by
  by_cases h : s.data.length ≤ 65535
  · rw [after_of_ok (perform_push_of_le xs h), Source.capture, Extension.ofData_of_le h]
    rfl
  · have hlong := Nat.not_le.mp h
    rw [after_of_error (perform_push_of_lt xs hlong), Source.capture, Extension.ofData_of_lt hlong]
    exact (List.append_nil xs.entries).symm

/-- A run of pushes adds, in order, an extension for every source that comes to one. -/
theorem entries_foldl_push (sources : List Source) (xs : Extensions) :
    ((sources.map Op.push).foldl after xs).entries
      = xs.entries ++ sources.filterMap fun s => s.capture.toOption := by
  -- on the sources, with the block that is held before the first of them
  induction sources generalizing xs with
  | nil => exact (List.append_nil xs.entries).symm
  | cons s sources ih =>
    rw [List.map_cons, List.foldl_cons, ih, entries_after_push, List.filterMap_cons,
      List.append_assoc]
    rcases s.capture.toOption with _ | x <;> rfl

/-! ## Writing

The length in front of the block is the sum over its extensions, and it has to fit into 16 bits. -/

/-- The length of the whole block is all that can stand in the way of writing it. -/
theorem result_write_iff {out : Buffer} :
    (xs.write out).result = .ok () ↔ xs.length ≤ 65535 := by
  by_cases h : xs.length ≤ 65535
  · rw [appends_write h out]
    exact ⟨fun _ => h, fun _ => rfl⟩
  · constructor
    · intro hok
      rw [write, if_pos (Nat.not_le.mp h)] at hok
      contradiction
    · intro hfits
      exact absurd hfits h

/-- A block that fits is read back from its octets with its extensions in their order. -/
theorem decode_encode (h : xs.length ≤ 65535) : (decode xs.encode).value = .ok xs.canonical := by
  have hread : read.Accepts xs.encode xs.canonical [] := by
    rw [accepts_read, length_canonical, encode_canonical, List.append_nil]
    exact ⟨xs.proper_canonical, h, rfl⟩
  exact Reader.whole_eq_ok_iff.mpr hread

/-- **What a caller may rely on.** After any run of operations no extension of the block holds more
than 65535 octets, and data that are longer are refused wherever they are offered. A push adds one
extension with the data that the source wrote, whatever length it announced, and the block is longer
by these data and 4; or the data are more than 65535 octets, and then the push fails and the block
is as it was. The block can be written exactly if its length is at most 65535. What is written is as
long as said, and decodes to the same extensions in the same order, every kind by its name where it
has one. -/
theorem container_laws (ops : List Op) :
    (∀ x ∈ (ofOps ops).entries, x.data.length ≤ 65535)
    ∧ (∀ type data, (Origin.ofData type data).extension
            = .error (.doesNotFit .extensionData data.length 65535) ↔ 65535 < data.length)
    ∧ (∀ s : Source, s.data.length ≤ 65535 →
        ∃ x : Extension, x.type = s.type ∧ x.data = s.data
          ∧ (ofOps ops).perform (.push s) = .ok ⟨(ofOps ops).entries ++ [x]⟩
          ∧ ofOps (ops ++ [.push s]) = ⟨(ofOps ops).entries ++ [x]⟩
          ∧ (ofOps (ops ++ [.push s])).length = (ofOps ops).length + (s.data.length + 4))
    ∧ (∀ s : Source, 65535 < s.data.length →
        (ofOps ops).perform (.push s)
            = .error (.doesNotFit .extensionData s.data.length 65535)
          ∧ ofOps (ops ++ [.push s]) = ofOps ops)
    ∧ (∀ sources : List Source, (ofOps (ops ++ sources.map Op.push)).entries
          = (ofOps ops).entries ++ sources.filterMap fun s => s.capture.toOption)
    ∧ (∀ out, ((ofOps ops).write out).result = .ok () ↔ (ofOps ops).length ≤ 65535)
    ∧ ((ofOps ops).length ≤ 65535 →
        ∃ w, (∀ out, (ofOps ops).write out = ⟨out.append w, .ok ()⟩)
          ∧ w.length = (ofOps ops).encodedLength
          ∧ (decode w).value
              = .ok ⟨(ofOps ops).entries.map fun x => { x with type := .ofId x.type.id }⟩) := by
  refine ⟨fun x _ => x.length_data, ?_, ?_, ?_, ?_, fun _ => result_write_iff, ?_⟩
  · intro type data
    by_cases hfits : data.length ≤ 65535
    · rw [Origin.extension, Extension.ofData_of_le hfits]
      simp [hfits]
    · have hlong := Nat.not_le.mp hfits
      rw [Origin.extension, Extension.ofData_of_lt hlong]
      simp [hlong]
  · intro s hfits
    have hpush := perform_push_of_le (ofOps ops) hfits
    have hafter : ofOps (ops ++ [.push s])
        = ⟨(ofOps ops).entries ++ [⟨s.type, s.data, hfits⟩]⟩ := by
      rw [ofOps_concat, after_of_ok hpush]
    refine ⟨⟨s.type, s.data, hfits⟩, rfl, rfl, hpush, hafter, ?_⟩
    have hone : totalSize [(⟨s.type, s.data, hfits⟩ : Extension)] = s.data.length + 4 :=
      Nat.add_comm 4 s.data.length
    rw [hafter, length, totalSize_append, hone, length]
  · intro s hlong
    have hpush := perform_push_of_lt (ofOps ops) hlong
    refine ⟨hpush, ?_⟩
    rw [ofOps_concat, after_of_error hpush]
  · intro sources
    rw [ofOps, List.foldl_append]
    exact entries_foldl_push sources (ofOps ops)
  · intro hfits
    exact ⟨(ofOps ops).encode, appends_write hfits, length_encode (ofOps ops),
      decode_encode hfits⟩

/-- A source that announces nine octets and writes one, for a kind that is given by its number
though it has a name. -/
def understated : Source where
  type := .keep 10
  announced := 9
  writeData out := out.append [7]

/-- A source of more data than an extension holds. -/
def oversized : Source := Source.ofBytes (.registered .serverName) (List.replicate 65536 0)

/-- The data of this source are one octet too many. -/
theorem length_data_oversized : oversized.data.length = 65536 := by
  rw [Source.data, oversized, Source.ofBytes, Buffer.toBytes_append, Buffer.toBytes_empty,
    List.nil_append, List.length_replicate]

/-- Behind an extension without data, one octet is kept of the source that announced nine, and
nothing of the one with too many. What is written is read back, with the name of the kind. -/
theorem container_laws_understated :
    (ofOps [.hold [.ofData (.keep 8) []], .push understated]).length = 9
      ∧ ofOps [.hold [.ofData (.keep 8) []], .push oversized] = ofOps [.hold [.ofData (.keep 8) []]]
      ∧ ∃ w, (ofOps [.hold [.ofData (.keep 8) []], .push understated]).write Buffer.empty
            = ⟨Buffer.empty.append w, .ok ()⟩
          ∧ w.length = 11
          ∧ (decode w).value
              = .ok ⟨[⟨.keep 8, [], by decide⟩, ⟨.registered .ellipticCurves, [7], by decide⟩]⟩ := by
  obtain ⟨-, -, hpush, hrefuse, -, -, -⟩ := container_laws [.hold [.ofData (.keep 8) []]]
  obtain ⟨x, -, -, -, -, hlength⟩ := hpush understated (by decide)
  obtain ⟨-, hsame⟩ := hrefuse oversized (by rw [length_data_oversized]; decide)
  have hnine : (ofOps [.hold [.ofData (.keep 8) []], .push understated]).length = 9 := hlength
  obtain ⟨-, -, -, -, -, -, hwrite⟩ :=
    container_laws [.hold [.ofData (.keep 8) []], .push understated]
  obtain ⟨w, hw, hwlength, hdecode⟩ := hwrite (by rw [hnine]; decide)
  refine ⟨hnine, hsame, w, hw _, ?_, hdecode⟩
  rw [hwlength, encodedLength, hnine]

end Extensions

end DatagramHello
