/-
Streams of messages.

Messages are written one after the other into one buffer and read back one
after the other from what was written. The reader of a stream is not told how
many messages there are: it reads for as long as it can and shows what is left
over, so that nothing being left is a statement about the messages' headers,
which alone say where one ends and the next begins.

What is read back is `canonical`: an unassigned number that has a name comes
back as that name. A stream without such numbers comes back as it was.
-/
import DatagramHello.Proofs.Handshake.Codec

set_option autoImplicit false

namespace DatagramHello.Handshake

variable {limit : Nat} {input rest : Bytes} {h : Handshake}

/-- Writes messages one after the other, up to the first that fails. -/
def writeAll : List Handshake → Writer
  | [] => Writer.skip
  | h :: hs => h.write.andThen (writeAll hs)

/-- Reading a message uses up some of the input, since a header is never empty. So a stream is
drained in finitely many steps. -/
theorem length_lt_of_accepts (hread : (read limit).Accepts input h rest) :
    rest.length < input.length := by
  obtain ⟨body, -, -, -, rfl⟩ := accepts_read.mp hread
  rw [frame, List.length_append, List.length_append, Header.length_encode, Header.encodedLength]
  omega

/-- Reads messages for as long as it can, and gives them with the bytes that are left. -/
def drain (limit : Nat) (input : Bytes) : List Handshake × Bytes :=
  match hread : (read limit input).value with
  | .ok (h, rest) =>
    have : rest.length < input.length := length_lt_of_accepts hread
    -- the header alone makes the rest shorter
    let others := drain limit rest
    (h :: others.1, others.2)
  | .error _ => ([], input)
termination_by input.length

/-- A message in front is drained first, and then what it left. -/
theorem drain_of_accepts (hread : (read limit).Accepts input h rest) :
    drain limit input = (h :: (drain limit rest).1, (drain limit rest).2) := by
  rw [drain]
  split
  -- reading is a function, so the equation of the match is the one at hand
  · next h' rest' hread' =>
    obtain ⟨rfl, rfl⟩ := hread.unique hread'
    rfl
  · next e hread' =>
    rw [Reader.Accepts, hread'] at hread
    contradiction

/-- Nothing is drained of nothing. -/
@[simp] theorem drain_nil (limit : Nat) : drain limit [] = ([], []) := by
  rw [drain]
  split
  · next h rest hread => exact absurd (length_lt_of_accepts hread) (Nat.not_lt_zero _)
  · rfl

/-- Messages that can be written are written one behind the other. -/
theorem appends_writeAll {hs : List Handshake} (hw : ∀ h ∈ hs, h.body.Writable) :
    (writeAll hs).Appends (hs.flatMap encode) := by
  induction hs with
  | nil => exact Writer.appends_skip
  | cons h hs ih =>
    obtain ⟨hfirst, hothers⟩ := List.forall_mem_cons.mp hw
    rw [writeAll, List.flatMap_cons]
    exact (appends_write hfirst).andThen (ih hothers)

/-- A row of messages within the limit is drained whole. -/
theorem drain_encode {hs : List Handshake} (hw : ∀ h ∈ hs, h.body.Writable)
    (hlimit : ∀ h ∈ hs, h.body.length ≤ limit) :
    drain limit (hs.flatMap encode) = (hs.map canonical, []) := by
  induction hs with
  | nil => exact drain_nil limit
  | cons h hs ih =>
    obtain ⟨hfirst, hothers⟩ := List.forall_mem_cons.mp hw
    obtain ⟨hfits, hothersFit⟩ := List.forall_mem_cons.mp hlimit
    -- the octets of the others are the rest behind the first message
    rw [List.flatMap_cons, drain_of_accepts (accepts_encode hfirst hfits), ih hothers hothersFit]
    rfl

/-- **A stream is read back.** Messages that can each be written somewhere, with bodies within the
limit, are written behind whatever the buffer holds, and what was written is read back as their
canonical forms, in order and with nothing left. A single message is decoded as one, and messages
whose tags are all proper come back as they were. -/
theorem drain_writeAll (limit : Nat) (out : Buffer) (hs : List Handshake)
    (hwritten : ∀ h ∈ hs, ∃ before, (h.write before).result = .ok ())
    (hlimit : ∀ h ∈ hs, h.body.length ≤ limit) :
    ∃ w, writeAll hs out = ⟨out.append w, .ok ()⟩
      ∧ drain limit w = (hs.map canonical, [])
      ∧ (∀ h config, hs = [h] → config.maxMessageLength = limit →
          h.write out = ⟨out.append w, .ok ()⟩
            ∧ (decode config w).value = .ok h.canonical)
      ∧ ((∀ h ∈ hs, h.Proper) → hs.map canonical = hs) := by
  -- that a message was written once, somewhere, says that it can be written anywhere
  have hw : ∀ h ∈ hs, h.body.Writable := by
    intro h hmem
    obtain ⟨before, hok⟩ := hwritten h hmem
    exact writable_of_result hok
  refine ⟨hs.flatMap encode, appends_writeAll hw out, drain_encode hw hlimit, ?_, ?_⟩
  · rintro h config rfl rfl
    have hone : [h].flatMap encode = h.encode := by simp
    have hwritable : h.body.Writable := hw h (List.mem_singleton.mpr rfl)
    rw [hone]
    exact ⟨appends_write hwritable out,
      decode_encode hwritable (hlimit h (List.mem_singleton.mpr rfl))⟩
  · intro hproper
    have hsame : hs.map canonical = hs.map (fun h => h) :=
      List.map_congr_left fun h hmem => (hproper h hmem).canonical_eq
    rw [hsame, List.map_id']

/-- A hello that offers a named suite and a named extension kind by number, and the answer to it. -/
def numberedPair : List Handshake :=
  [⟨7, .clientHello { ClientHello.plain with
      suites := { items := [.keep 0xC0A8, .keep 0x1301] }
      extensions := { entries := [⟨.keep 10, [0, 2, 0, 23], by decide⟩] } }⟩,
    ⟨8, .helloVerify ⟨Version.dtls10, ⟨[0xca, 0xfe], by decide⟩⟩⟩]

/-- The pair is read back with the names in place of the numbers. -/
theorem drain_writeAll_numberedPair :
    (∀ h ∈ numberedPair, ∃ before, (h.write before).result = .ok ())
      ∧ (∀ h ∈ numberedPair, h.body.length ≤ 54)
      ∧ numberedPair.map canonical ≠ numberedPair
      ∧ ∃ w, writeAll numberedPair (Buffer.ofBytes [1, 2, 3])
            = ⟨(Buffer.ofBytes [1, 2, 3]).append w, .ok ()⟩
          ∧ drain 54 w = (numberedPair.map canonical, []) := by
  have hwritten : ∀ h ∈ numberedPair, ∃ before, (h.write before).result = .ok () := by
    intro h hmem
    simp only [numberedPair, List.mem_cons, List.not_mem_nil, or_false] at hmem
    rcases hmem with rfl | rfl
    · exact ⟨Buffer.empty, rfl⟩
    · exact ⟨Buffer.empty, rfl⟩
  have hlimit : ∀ h ∈ numberedPair, h.body.length ≤ 54 := by decide
  obtain ⟨w, hwrite, hdrain, -⟩ :=
    drain_writeAll 54 (Buffer.ofBytes [1, 2, 3]) numberedPair hwritten hlimit
  exact ⟨hwritten, hlimit, by decide, w, hwrite, hdrain⟩

end DatagramHello.Handshake
