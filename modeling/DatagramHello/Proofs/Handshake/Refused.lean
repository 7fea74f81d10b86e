/-
What cannot be written, and what is said of it.

Four checks stand between a hello and its octets, in four writers. The message
looks at the length that the body announces, the hello at its two lists and
then at the length of its extensions, the block at that length again, and every
extension at the length of its data. Two of them never refuse anything. An
extension holds no more data than its own length can say, and a block is only
written by a hello that has looked at its length.

The message's check comes first, so of a body with several defects message and
body may say different things. But they never disagree on whether there is one.
A body that can be written has at most 65995 octets, since only its extensions
are unbounded and these are held to 65535, and that is far below the limit of
the message; so what the message finds too long, the body refuses too.
-/
import DatagramHello.Proofs.Handshake.Codec

set_option autoImplicit false

namespace DatagramHello

variable {out : Buffer}

/-! ## Hellos

The three checks of the hello's writer, in their order. All of them are made before an octet is put
down, so the verdict does not depend on the buffer. -/

namespace ClientHello

/-- The first check that fails decides, and behind all three nothing fails any more. -/
theorem result_write (h : ClientHello) (out : Buffer) :
    (h.write out).result
      = if h.suites.items = [] then .error (.emptyList .cipherSuites)
        else if h.methods.items = [] then .error (.emptyList .compressionMethods)
        else if 65535 < h.extensions.length then
          .error (.doesNotFit .extensions h.extensions.length 65535)
        else .ok () := by
  by_cases hsuites : h.suites.items = []
  · rw [if_pos hsuites, write, if_pos (List.isEmpty_iff.mpr hsuites)]
    rfl
  have hsuites' : ¬ h.suites.items.isEmpty := by rwa [List.isEmpty_iff]
  by_cases hmethods : h.methods.items = []
  · rw [if_neg hsuites, if_pos hmethods, write, if_neg hsuites',
      if_pos (List.isEmpty_iff.mpr hmethods)]
    rfl
  have hmethods' : ¬ h.methods.items.isEmpty := by rwa [List.isEmpty_iff]
  by_cases hlong : 65535 < h.extensions.length
  · rw [if_neg hsuites, if_neg hmethods, if_pos hlong, write, if_neg hsuites', if_neg hmethods',
      if_pos hlong]
    rfl
  · have hw : h.Writable := ⟨hsuites, hmethods, Nat.not_lt.mp hlong⟩
    rw [if_neg hsuites, if_neg hmethods, if_neg hlong, hw.appends out]

/-- Each thing that is said of a hello, with the defects that it has and those that it has not. -/
theorem result_write_iff (h : ClientHello) (out : Buffer) :
    ((h.write out).result = .error (.emptyList .cipherSuites) ↔ h.suites.items = [])
    ∧ ((h.write out).result = .error (.emptyList .compressionMethods)
        ↔ h.suites.items ≠ [] ∧ h.methods.items = [])
    ∧ ((h.write out).result = .error (.doesNotFit .extensions h.extensions.length 65535)
        ↔ h.suites.items ≠ [] ∧ h.methods.items ≠ [] ∧ 65535 < h.extensions.length)
    ∧ ((h.write out).result = .ok ()
        ↔ h.suites.items ≠ [] ∧ h.methods.items ≠ [] ∧ h.extensions.length ≤ 65535) := by
  rw [h.result_write out]
  by_cases hsuites : h.suites.items = []
  · simp [hsuites]
  by_cases hmethods : h.methods.items = []
  · simp [hsuites, hmethods]
  by_cases hlong : 65535 < h.extensions.length
  · simp [hsuites, hmethods, hlong]
  · have hfits := Nat.not_lt.mp hlong
    simp [hsuites, hmethods, hlong, hfits]

/-- Of the lengths in a hello only that of its extensions is ever refused. -/
theorem eq_extensions_of_result_write {h : ClientHello} {field : Field} {length max : Nat}
    (hrefused : (h.write out).result = .error (.doesNotFit field length max)) :
    field = .extensions := by
  rw [h.result_write out] at hrefused
  by_cases hsuites : h.suites.items = []
  · rw [if_pos hsuites] at hrefused
    cases hrefused
  by_cases hmethods : h.methods.items = []
  · rw [if_neg hsuites, if_pos hmethods] at hrefused
    cases hrefused
  by_cases hlong : 65535 < h.extensions.length
  · rw [if_neg hsuites, if_neg hmethods, if_pos hlong] at hrefused
    cases hrefused
    rfl
  · rw [if_neg hsuites, if_neg hmethods, if_neg hlong] at hrefused
    contradiction

end ClientHello

/-! ## Bodies and messages

The message's own check comes in front. It refuses nothing that the body would not refuse, but with
another error. -/

namespace Body

variable {b : Body}

/-- What is said of a body does not depend on where it is written. -/
theorem result_write_eq (b : Body) (out before : Buffer) :
    (b.write out).result = (b.write before).result := by
  rcases b with h | r
  · exact (h.result_write out).trans (h.result_write before).symm
  · rfl

/-- A body is written if and only if nothing is wrong with it, whatever the buffer. -/
theorem result_write_iff_writable : (b.write out).result = .ok () ↔ b.Writable := by
  constructor
  · exact writable_of_result
  · intro hw
    rw [hw.appends out]

/-- Of the lengths in a body only that of its extensions is ever refused. -/
theorem eq_extensions_of_result_write {field : Field} {length max : Nat}
    (hrefused : (b.write out).result = .error (.doesNotFit field length max)) :
    field = .extensions := by
  rcases b with h | r
  · exact ClientHello.eq_extensions_of_result_write hrefused
  · contradiction

end Body

/-- A message is refused for the length of its body, or else for what its body is refused for behind
the header. -/
theorem Message.result_write (m : Message) (seq : UInt16) (out : Buffer) :
    (m.write seq out).result
      = if maxBodyLength < m.bodyLength then
          .error (.doesNotFit .handshakeBody m.bodyLength maxBodyLength)
        else (m.writeBody (out.append (m.header seq).encode)).result := by
  by_cases hlong : maxBodyLength < m.bodyLength
  · rw [if_pos hlong, write, if_pos hlong]
    rfl
  · rw [if_neg hlong, write, if_neg hlong, Writer.result_restoring]
    rfl

/-- Where it does not matter what stands before it, the body's verdict is the message's. -/
theorem Body.result_write_message (b : Body) (seq : UInt16) (out before : Buffer) :
    (b.message.write seq out).result
      = if Message.maxBodyLength < b.length then
          .error (.doesNotFit .handshakeBody b.length Message.maxBodyLength)
        else (b.write before).result := by
  rw [← b.result_write_eq (out.append (b.message.header seq).encode) before]
  exact b.message.result_write seq out

/-- **What is refused.** Of a hello, an empty list of suites is noticed first, then an empty list of
methods, then extensions of more than 65535 octets, and a hello with none of these defects is
written. Of a message, a body longer than 24 bits can say is noticed before all that, and otherwise
the verdict is the body's. So a message is written exactly if its body is, and a challenge always.
No extension is ever to blame, however many there are and whatever they hold: each by itself is
written, and of all lengths only that of the extensions together and that of the body are refused.
-/
theorem Message.refusals :
    (∀ (h : ClientHello) (out : Buffer),
      ((h.write out).result = .error (.emptyList .cipherSuites) ↔ h.suites.items = [])
      ∧ ((h.write out).result = .error (.emptyList .compressionMethods)
          ↔ h.suites.items ≠ [] ∧ h.methods.items = [])
      ∧ ((h.write out).result = .error (.doesNotFit .extensions h.extensions.length 65535)
          ↔ h.suites.items ≠ [] ∧ h.methods.items ≠ [] ∧ 65535 < h.extensions.length)
      ∧ ((h.write out).result = .ok ()
          ↔ h.suites.items ≠ [] ∧ h.methods.items ≠ [] ∧ h.extensions.length ≤ 65535))
    ∧ (∀ (b : Body) (seq : UInt16) (out before : Buffer),
      ((b.message.write seq out).result
            = .error (.doesNotFit .handshakeBody b.length 16777215) ↔ 16777215 < b.length)
      ∧ (b.length ≤ 16777215 → (b.message.write seq out).result = (b.write before).result)
      ∧ ((b.message.write seq out).result = .ok () ↔ (b.write before).result = .ok ()))
    ∧ (∀ (r : HelloVerify) (seq : UInt16) (out : Buffer),
      ((Body.helloVerify r).write out).result = .ok ()
      ∧ ((Body.helloVerify r).message.write seq out).result = .ok ())
    ∧ (∀ (b : Body) (seq : UInt16) (out : Buffer) (field : Field) (length max : Nat),
      ((b.write out).result = .error (.doesNotFit field length max) → field = .extensions)
      ∧ ((b.message.write seq out).result = .error (.doesNotFit field length max) →
          field = .extensions ∨ field = .handshakeBody))
    ∧ (∀ (x : Extension) (out : Buffer), (x.write out).result = .ok ())
    ∧ Listing.cipherSuites.words = "cipher suites"
    ∧ Listing.compressionMethods.words = "compression methods"
    ∧ Field.extensions.words = "extensions" ∧ Field.handshakeBody.words = "handshake body"
    ∧ Field.extensionData.words = "extension_data" := by
  refine ⟨ClientHello.result_write_iff, ?_, ?_, ?_, ?_, rfl, rfl, rfl, rfl, rfl⟩
  · intro b seq out before
    have hmax : 16777215 = maxBodyLength := rfl
    have hresult := b.result_write_message seq out before
    rw [hmax]
    refine ⟨?_, ?_, ?_⟩
    · constructor
      · intro hrefused
        by_cases hlong : maxBodyLength < b.length
        · exact hlong
        -- below the limit it would be the body that refuses its own length
        · rw [hresult, if_neg hlong] at hrefused
          exact absurd (Body.eq_extensions_of_result_write hrefused) (by simp)
      · intro hlong
        rw [hresult, if_pos hlong]
    · intro hle
      rw [hresult, if_neg (Nat.not_lt.mpr hle)]
    · by_cases hlong : maxBodyLength < b.length
      · rw [hresult, if_pos hlong, Body.result_write_iff_writable]
        constructor
        · intro hok
          contradiction
        · intro hw
          exact absurd hw.length_le (Nat.not_le.mpr hlong)
      · rw [hresult, if_neg hlong]
  · intro r seq out
    have hw : (Body.helloVerify r).Writable := trivial
    refine ⟨rfl, ?_⟩
    rw [Body.result_write_message _ seq out out, if_neg (Nat.not_lt.mpr hw.length_le)]
    rfl
  · intro b seq out field length max
    refine ⟨Body.eq_extensions_of_result_write, ?_⟩
    intro hrefused
    rw [b.result_write_message seq out out] at hrefused
    by_cases hlong : maxBodyLength < b.length
    · rw [if_pos hlong] at hrefused
      cases hrefused
      exact .inr rfl
    · rw [if_neg hlong] at hrefused
      exact .inl (Body.eq_extensions_of_result_write hrefused)
  · intro x out
    rw [x.appends_write out]

/-- A hello without suites, with 257 extensions of as much data as an extension holds. -/
def ClientHello.crowded : ClientHello :=
  { ClientHello.plain with
    suites := AtMost.empty
    extensions :=
      { entries := List.replicate 257
          ⟨.registered .serverName, List.replicate 65535 0, Nat.le_of_eq List.length_replicate⟩ } }

/-- The body of this hello is longer than 24 bits can say. -/
theorem ClientHello.bodyLength_crowded : ClientHello.crowded.bodyLength = 16843565 := by
  have hblock : ClientHello.crowded.extensions.length = 16843523 := by
    rw [Extensions.length, crowded, Extensions.totalSize_replicate, Extension.size]
    simp only [List.length_replicate]
  have hsome : ClientHello.crowded.extensions.isEmpty = false := rfl
  rw [bodyLength, hsome, Extensions.encodedLength, hblock]
  rfl

/-- Of that hello the message says that the body is too long and the body that it has no suites. One
with a suite and without extensions is written as a message because it is as a body. -/
theorem Message.refusals_crowded :
    ((Body.clientHello .crowded).message.write 7 Buffer.empty).result
        = .error (.doesNotFit .handshakeBody 16843565 16777215)
      ∧ (ClientHello.crowded.write Buffer.empty).result = .error (.emptyList .cipherSuites)
      ∧ ((Body.clientHello .plain).message.write 7 Buffer.empty).result = .ok () := by
  obtain ⟨hhello, hmessage, -⟩ := Message.refusals
  have hlong : (Body.clientHello .crowded).length = 16843565 := ClientHello.bodyLength_crowded
  have hbody : (ClientHello.plain.write (Buffer.ofBytes [9])).result = .ok () :=
    (hhello .plain _).2.2.2.mpr ⟨by decide, by decide, by decide⟩
  refine ⟨?_, (hhello .crowded _).1.mpr rfl, ?_⟩
  · have hrefused := (hmessage (.clientHello .crowded) 7 Buffer.empty Buffer.empty).1
    rw [hlong] at hrefused
    exact hrefused.mpr (by decide)
  · rw [(hmessage (.clientHello .plain) 7 Buffer.empty (Buffer.ofBytes [9])).2.1 (by decide)]
    exact hbody

end DatagramHello
