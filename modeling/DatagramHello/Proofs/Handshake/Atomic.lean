/-
Failing without a trace.

A caller writes several things into one buffer, and when one of them cannot be
written the buffer must still hold what was there before and nothing else. Two
of the writers go on with a writer that may fail after they have written
something and do not cut the buffer back: the block goes on with its entries
behind its length, and the hello with its block behind its fields. What makes
these sound is that neither failure can happen any more. An entry's data fits
its 16-bit length by its type, so only the length of the whole block can be too
large, and both writers ask for that first.

A message is the other case. Its body is the caller's own and may stop anywhere,
and its announced length says nothing about what it writes. There the buffer is
cut back.

All this leaves open what a success adds. The second half answers for the front
of it: a header, the fields of a hello, the length of a block, the kind and the
length of an extension. These are written before anything that may fail or be
empty, so a writer that succeeds has written them.
-/
import DatagramHello.Proofs.Handshake.Codec

set_option autoImplicit false

namespace DatagramHello

/-- The source writes its data at the end of the buffer and touches nothing else. What it writes may
depend on the buffer, and need not be as long as announced. -/
def Extension.Source.OnlyAppends (s : Source) : Prop :=
  ∀ out, ∃ data, s.writeData out = out.append data

/-- The announced length is asked first, and behind it nothing can fail. -/
theorem Extension.Source.OnlyAppends.atomic_write {s : Source} (hs : s.OnlyAppends) :
    s.write.Atomic := by
  refine Writer.atomic_check fun _ => ?_
  intro out
  -- kind and length first, then whatever data comes on this buffer
  obtain ⟨data, hdata⟩ := hs (out.append (s.type.encode ++ Bytes.bigEndian 2 s.announced))
  refine .inr ⟨s.type.encode ++ Bytes.bigEndian 2 s.announced ++ data, ?_⟩
  show Written.mk (s.writeData (out.append _)) _ = _
  rw [hdata, Buffer.append_append]

/-- The length of the block is asked first, and entries that are behind it cannot fail. -/
theorem Extensions.atomic_write (xs : Extensions) : xs.write.Atomic := by
  refine Writer.atomic_check fun _ => ?_
  exact ((Writer.appends_put _).andThen (appends_writeEntries xs.entries)).atomic

/-- Of the three checks the last one is for the block, which therefore is written behind the fields
without fail. -/
theorem ClientHello.atomic_write (h : ClientHello) : h.write.Atomic := by
  refine Writer.atomic_check fun _ => Writer.atomic_check fun _ => ?_
  refine Writer.atomic_check fun hfits => ?_
  exact ((Writer.appends_put _).andThen (appends_writeExtensions (Nat.not_lt.mp hfits))).atomic

/-- A body is a hello or an answer, and an answer is always written. -/
theorem Body.atomic_write (b : Body) : b.write.Atomic := by
  rcases b with h | r
  · exact h.atomic_write
  · exact (Writer.appends_put r.encode).atomic

/-- The body may stop anywhere, and what it left is cut off with the header. -/
theorem Message.atomic_write {m : Message} (hbody : m.writeBody.Extends) (seq : UInt16) :
    (m.write seq).Atomic := by
  refine Writer.atomic_check fun _ => ?_
  exact ((Writer.appends_put _).extends_andThen hbody).atomic_restoring

/-- Messages of the library have bodies of the library. -/
theorem Handshake.atomic_write (h : Handshake) : h.write.Atomic :=
  Message.atomic_write (m := h.body.message) h.body.atomic_write.extends h.seq

namespace Handshake

/-- **Failing without a trace.** Every writer of the library fails and leaves the buffer as it was,
or succeeds and adds octets at its end: the one for messages, that for bodies, for client hellos,
for extensions blocks, for any source of an extension that does no more to the buffer than append
its data, and for any message whose body does no more to it than that, also if the body fails after
it has written something. -/
theorem atomic_writers :
    (∀ h : Handshake, h.write.Atomic)
      ∧ (∀ b : Body, b.write.Atomic)
      ∧ (∀ h : ClientHello, h.write.Atomic)
      ∧ (∀ xs : Extensions, xs.write.Atomic)
      ∧ (∀ s : Extension.Source, s.OnlyAppends → s.write.Atomic)
      ∧ ∀ m : Message, m.writeBody.Extends → ∀ seq, (m.write seq).Atomic := by
  refine ⟨?_, Body.atomic_write, ClientHello.atomic_write, Extensions.atomic_write, ?_, ?_⟩
  · intro h
    exact h.atomic_write
  · intro s hs
    exact hs.atomic_write
  · intro m hbody seq
    exact Message.atomic_write hbody seq

/-- A body that stops after two of the three octets it announced. -/
def brokenOff : Message where
  type := .registered .finished
  bodyLength := 3
  writeBody := (Writer.put [1, 2]).andThen (Writer.fail (.framing (.other "broken off")))

/-- A source that announces more data than it writes. -/
def boastful : Extension.Source where
  type := .registered .serverName
  announced := 9
  writeData out := out.append [7]

/-- A hello that offers no cipher suite. -/
def unoffering : ClientHello := { ClientHello.plain with suites := AtMost.empty }

/-- Extensions that are short one by one and too long together. -/
def overlong : Extensions where
  entries := List.replicate 10000 ⟨.registered .serverName, [3, 1, 4], by decide⟩

/-- Ten thousand extensions of seven octets each. -/
theorem length_overlong : overlong.length = 70000 := by
  rw [Extensions.length, overlong, Extensions.totalSize_replicate, Extension.size]
  rfl

/-- The body leaves its two octets in the buffer and the message takes them out again; the source
is written, whatever it announced. A hello is written and one without suites is not, the block of
one extension is written and one of ten thousand is not, and what is not written leaves the octet
that was there. -/
theorem atomic_writers_brokenOff :
    (brokenOff.writeBody (Buffer.ofBytes [9])).buffer.toBytes = [9, 1, 2]
      ∧ brokenOff.write 0 (Buffer.ofBytes [9])
          = ⟨Buffer.ofBytes [9], .error (.framing (.other "broken off"))⟩
      ∧ (∃ bs, boastful.write (Buffer.ofBytes [9]) = ⟨(Buffer.ofBytes [9]).append bs, .ok ()⟩)
      ∧ (∃ bs, ClientHello.plain.write (Buffer.ofBytes [9])
          = ⟨(Buffer.ofBytes [9]).append bs, .ok ()⟩)
      ∧ unoffering.write (Buffer.ofBytes [9])
          = ⟨Buffer.ofBytes [9], .error (.emptyList .cipherSuites)⟩
      ∧ (∃ bs,
        (Extensions.mk [⟨.registered .serverName, [5], by decide⟩]).write (Buffer.ofBytes [9])
          = ⟨(Buffer.ofBytes [9]).append bs, .ok ()⟩)
      ∧ overlong.write (Buffer.ofBytes [9])
          = ⟨Buffer.ofBytes [9], .error (.doesNotFit .extensions 70000 65535)⟩ := by
  obtain ⟨-, -, hhello, hblock, hsource, hmessage⟩ := atomic_writers
  have hbody : brokenOff.writeBody.Extends := fun out => ⟨[1, 2], rfl⟩
  have hlong : (overlong.write (Buffer.ofBytes [9])).result
      = .error (.doesNotFit .extensions 70000 65535) := by
    rw [Extensions.write, length_overlong, if_pos (by decide)]
    rfl
  refine ⟨by decide, ?_, ?_, ?_, ?_, ?_, ?_⟩
  -- which of the two outcomes it is shows in the verdict
  · exact (hmessage brokenOff hbody 0).eq_of_error rfl
  · exact (hsource boastful fun out => ⟨[7], rfl⟩).eq_of_ok rfl
  · exact (hhello ClientHello.plain).eq_of_ok rfl
  · exact (hhello unoffering).eq_of_error rfl
  · exact (hblock _).eq_of_ok rfl
  · exact (hblock overlong).eq_of_error hlong

end Handshake

/-! ## What a success adds

A success adds something at the end of the buffer, and these say at least what: the twelve octets of
a message's header, every field of a hello up to its extensions, the length of a block, the kind and
the announced length of an extension. None of them is empty, so no writer succeeds by doing
nothing. -/

/-- The header is put down before the body is written, and only a body that was written whole
leaves it there. -/
theorem Message.leads_write {m : Message} (hbody : m.writeBody.Extends) (seq : UInt16) :
    (m.write seq).Leads (m.header seq).encode := by
  refine Writer.leads_check fun _ => ?_
  exact ((Writer.appends_put _).leads_andThen hbody).restoring

/-- Kind and announced length stand in front of whatever data the source appends. -/
theorem Extension.Source.OnlyAppends.leads_write {s : Source} (hs : s.OnlyAppends) :
    s.write.Leads (s.type.encode ++ Bytes.bigEndian 2 s.announced) := by
  refine Writer.leads_check fun _ => ?_
  exact (Writer.appends_put _).leads_andThen hs

/-- The length of the block stands in front of its entries. -/
theorem Extensions.leads_write (xs : Extensions) :
    xs.write.Leads (Bytes.bigEndian 2 xs.length) := by
  refine Writer.leads_check fun _ => ?_
  exact ((Writer.appends_put _).andThen (appends_writeEntries xs.entries)).leads

/-- The fields of a hello stand in front of its extensions. -/
theorem ClientHello.leads_write (h : ClientHello) : h.write.Leads h.encodeFields := by
  refine Writer.leads_check fun _ => Writer.leads_check fun _ => ?_
  refine Writer.leads_check fun hfits => ?_
  exact ((Writer.appends_put _).andThen (appends_writeExtensions (Nat.not_lt.mp hfits))).leads

/-- An answer has nothing that may be missing: its version, a length, its cookie. -/
theorem HelloVerify.leads_write (r : HelloVerify) : r.write.Leads r.encode := by
  intro out _
  exact ⟨[], rfl⟩

/-- A hello that is written has at least one suite and one method besides its 39 octets of fixed
width. -/
theorem ClientHello.grows_write (h : ClientHello) : h.write.Grows 42 := by
  intro out hok
  obtain ⟨hsuites, hmethods, -⟩ := writable_of_result hok
  have hsuite : 0 < h.suites.items.length := List.length_pos_iff.mpr hsuites
  have hmethod : 0 < h.methods.items.length := List.length_pos_iff.mpr hmethods
  refine h.leads_write.grows ?_ out hok
  rw [length_encodeFields]
  omega

namespace Handshake

/-- **What a success adds.** Every writer of the library that succeeds has added, first, what its
reader will look for first, and with it at least this many octets: a message 12, a hello 42, an
answer 3, a block 2, a source of an extension 4. -/
theorem grows_writers :
    (∀ h : Handshake, h.write.Leads h.header.encode ∧ h.write.Grows 12)
      ∧ (∀ h : ClientHello, h.write.Leads h.encodeFields ∧ h.write.Grows 42)
      ∧ (∀ r : HelloVerify, r.write.Leads r.encode ∧ r.write.Grows 3)
      ∧ (∀ xs : Extensions, xs.write.Leads (Bytes.bigEndian 2 xs.length) ∧ xs.write.Grows 2)
      ∧ (∀ s : Extension.Source, s.OnlyAppends →
          s.write.Leads (s.type.encode ++ Bytes.bigEndian 2 s.announced) ∧ s.write.Grows 4)
      ∧ ∀ m : Message, m.writeBody.Extends → ∀ seq,
          (m.write seq).Leads (m.header seq).encode ∧ (m.write seq).Grows 12 := by
  have hmessage : ∀ m : Message, m.writeBody.Extends → ∀ seq,
      (m.write seq).Leads (m.header seq).encode ∧ (m.write seq).Grows 12 := by
    intro m hbody seq
    have hleads := Message.leads_write hbody seq
    exact ⟨hleads, hleads.grows (Nat.le_of_eq (m.header seq).length_encode.symm)⟩
  refine ⟨?_, fun h => ⟨h.leads_write, h.grows_write⟩, ?_, ?_, ?_, hmessage⟩
  · intro h
    exact hmessage h.body.message h.body.atomic_write.extends h.seq
  · intro r
    refine ⟨r.leads_write, r.leads_write.grows ?_⟩
    rw [HelloVerify.length_encode, HelloVerify.bodyLength]
    omega
  · intro xs
    refine ⟨xs.leads_write, xs.leads_write.grows ?_⟩
    exact Nat.le_of_eq (Bytes.length_bigEndian 2 _).symm
  · intro s hs
    have hleads := hs.leads_write
    refine ⟨hleads, hleads.grows ?_⟩
    rw [List.length_append, Tag.length_encode, Bytes.length_bigEndian]
    show 4 ≤ 2 + 2
    omega

end Handshake

end DatagramHello
