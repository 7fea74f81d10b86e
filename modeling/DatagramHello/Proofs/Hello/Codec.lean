/-
The two hello bodies and their octets.

The octets of a client hello have one oddity. Its extensions block is there
when any octet is left after the compression methods, so a body that ends there
and one that goes on with the length 0 say the same: no extensions. The writer
takes the first way. `accepts_body_iff` is the whole truth about bodies: one is
accepted as the hello `h` when it is `h.encode`, or when `h` has no extensions
and it is `h.encode` with the empty block behind.

What a reader can give back is proper and has both of its lists, and a hello
whose lists are not empty and whose block fits its length is what a writer
takes. So a hello that was read can be written, which is one half of every
round trip, and `ClientHello.Writable` is that common condition.
-/
import DatagramHello.Hello.ClientHello
import DatagramHello.Hello.HelloVerify
import DatagramHello.Proofs.Extension.Codec
import DatagramHello.Proofs.Wire.Delimited

set_option autoImplicit false

namespace DatagramHello

variable {input rest : Bytes}

/-! ## Fields

The fields before the two lists. Each of them is accepted as whatever stands there, so their readers
and writers need no condition at all. -/

/-- Any two octets are a version. -/
theorem Version.accepts_read {v : Version} :
    Version.read.Accepts input v rest ↔ input = v.encode ++ rest := by
  simp only [Version.read, Reader.accepts_bind, Reader.accepts_octet, Reader.accepts_pure]
  constructor
  · rintro ⟨major, _, rfl, minor, _, rfl, rfl, rfl⟩
    rfl
  · rintro rfl
    exact ⟨v.major, _, rfl, v.minor, _, rfl, rfl, rfl⟩

/-- The random field is read from its time and its 28 octets, whatever they are. -/
theorem Random.accepts_read {r : Random} :
    Random.read.Accepts input r rest ↔ input = r.encode ++ rest := by
  simp only [Random.read, Reader.accepts_bind, Reader.accepts_number, Reader.accepts_take,
    Reader.accepts_pure]
  constructor
  · rintro ⟨time, _, rfl, octets, _, rfl, rfl, rfl⟩
    have htime : (UInt32.ofNat time.val).toNat = time.val :=
      Bytes.toNat_word (Nat.le_refl 4) time.isLt
    simp [Random.encode, htime]
  · rintro rfl
    refine ⟨⟨r.time.toNat, r.time.toNat_lt⟩, _, ?_, r.octets, rest, rfl, ?_, rfl⟩
    · simp [Random.encode]
    · simp

/-- A token is read from its octets behind their number. The limit of its kind is no condition here,
because a token is within it. -/
theorem Token.accepts_read {kind : TokenKind} {t : Token kind} :
    (Token.read kind).Accepts input t rest ↔ input = t.encode ++ rest := by
  simp only [Token.read, Reader.accepts_bind, Reader.accepts_number]
  constructor
  · rintro ⟨length, _, rfl, hread⟩
    -- the limit is looked at before the octets are
    by_cases hmax : length.val ≤ kind.maxLength
    · rw [dif_pos hmax] at hread
      simp only [Reader.accepts_bind, Reader.accepts_take, Reader.accepts_pure] at hread
      obtain ⟨field, _, rfl, rfl, rfl⟩ := hread
      simp [Token.encode, Token.length, field.length_bytes]
    · rw [dif_neg hmax] at hread
      exact absurd hread Reader.not_accepts_fail
  · rintro rfl
    have hlength : t.length < Bytes.span 1 := Nat.lt_of_le_of_lt t.length_bytes kind.maxLength_lt
    refine ⟨⟨t.length, hlength⟩, t.bytes ++ rest, ?_, ?_⟩
    · simp [Token.encode]
    · have hmax : (⟨t.length, hlength⟩ : Fin (Bytes.span 1)).val ≤ kind.maxLength := t.length_bytes
      rw [dif_pos hmax]
      simp only [Reader.accepts_bind, Reader.accepts_take, Reader.accepts_pure]
      exact ⟨⟨t.bytes, rfl⟩, rest, rfl, rfl, rfl⟩

/-- Any two octets are a version. -/
theorem Version.exists_encode (bs : Bytes) (hlength : bs.length = 2) :
    ∃ v : Version, v.encode = bs := by
  match bs, hlength with
  | [major, minor], _ => exact ⟨⟨major, minor⟩, rfl⟩

/-- Any 32 octets are a random field. -/
theorem Random.exists_encode (bs : Bytes) (hlength : bs.length = 32) :
    ∃ r : Random, r.encode = bs := by
  have hclock : (bs.take 4).length = 4 := by
    rw [List.length_take, hlength]
    rfl
  have hrest : (bs.drop 4).length = 28 := by
    rw [List.length_drop, hlength]
  refine ⟨⟨UInt32.ofNat (Bytes.number (bs.take 4)), ⟨bs.drop 4, hrest⟩⟩, ?_⟩
  rw [Random.encode, Bytes.toNat_word (Nat.le_refl 4) (Bytes.number_lt hclock),
    Bytes.bigEndian_number hclock]
  exact List.take_append_drop 4 bs

/-- All versions have two octets. -/
theorem Version.delimited_encode : Delimited Version.encode :=
  Delimited.of_length (n := 2) fun _ => rfl

/-- All random fields have 32 octets. -/
theorem Random.delimited_encode : Delimited Random.encode :=
  Delimited.of_length Random.length_encode

/-- A token ends where its first octet says. -/
theorem Token.delimited_encode {kind : TokenKind} : Delimited fun t : Token kind => t.encode :=
  Delimited.of_accepts fun _ _ => Token.accepts_read.mpr rfl

/-- The answer with the cookie is read from a version and a token, and from nothing else. -/
theorem HelloVerify.accepts_read {r : HelloVerify} :
    HelloVerify.read.Accepts input r rest ↔ input = r.encode ++ rest := by
  simp only [HelloVerify.read, Reader.accepts_bind, Version.accepts_read, Token.accepts_read,
    Reader.accepts_pure]
  constructor
  · rintro ⟨version, _, rfl, cookie, _, rfl, rfl, rfl⟩
    simp [HelloVerify.encode]
  · rintro rfl
    exact ⟨r.version, _, by simp [HelloVerify.encode], r.cookie, rest, rfl, rfl, rfl⟩

/-! ## The client hello

What is asked of a hello is split in two: `Proper` is about the names of its tags and belongs to
reading, `Writable` is about its lists and its block and belongs to writing. The canonical form has
the first and keeps the second. -/

namespace ClientHello

/-- Every tag in the hello goes by its name where it has one. -/
def Proper (h : ClientHello) : Prop :=
  (∀ s ∈ h.suites.items, s.Proper) ∧ (∀ m ∈ h.methods.items, m.Proper) ∧ h.extensions.Proper

/-- The hello as it is read back: every tag by its name where it has one, and nothing else
changed. -/
def canonical (h : ClientHello) : ClientHello :=
  { h with
    suites := ⟨h.suites.items.map Tag.canonical, by simpa using h.suites.length_items⟩
    methods := ⟨h.methods.items.map Tag.canonical, by simpa using h.methods.length_items⟩
    extensions := h.extensions.canonical }

/-- What has to hold for the hello to be written: both lists have an entry, and the extensions fit
their 16-bit length. -/
def Writable (h : ClientHello) : Prop :=
  h.suites.items ≠ [] ∧ h.methods.items ≠ [] ∧ h.extensions.length ≤ 65535

/-- The octets of the extensions block, none for an empty one. -/
def encodeExtensions (xs : Extensions) : Bytes := if xs.isEmpty then [] else xs.encode

/-- The octets of the hello: its fields, and its extensions if it has any. -/
def encode (h : ClientHello) : Bytes := h.encodeFields ++ encodeExtensions h.extensions

/-- Without extensions the hello is its fields. -/
theorem encode_of_isEmpty {h : ClientHello} (hempty : h.extensions.isEmpty) :
    h.encode = h.encodeFields := by
  rw [encode, encodeExtensions, if_pos hempty, List.append_nil]

/-- Making a hello proper does not change the octets of its two lists. -/
@[simp] theorem encodeLists_canonical (h : ClientHello) :
    h.canonical.encodeLists = h.encodeLists := by
  simp [canonical, encodeLists]

/-- Making a hello proper does not change what a cookie is bound to. -/
@[simp] theorem boundPart_canonical (h : ClientHello) : h.canonical.boundPart = h.boundPart := by
  rw [boundPart, encodeLists_canonical, boundPart, canonical]

/-- Making a hello proper does not change the octets of its fields. -/
@[simp] theorem encodeFields_canonical (h : ClientHello) :
    h.canonical.encodeFields = h.encodeFields := by
  rw [encodeFields, encodeLists_canonical, encodeFields, canonical]

/-- Making a hello proper does not change its octets. -/
@[simp] theorem encode_canonical (h : ClientHello) : h.canonical.encode = h.encode := by
  rw [encode, encodeFields_canonical, encode]
  simp [canonical, encodeExtensions]

/-- Making a hello proper has no say in whether it can be written. -/
theorem writable_canonical {h : ClientHello} : h.canonical.Writable ↔ h.Writable := by
  simp [Writable, canonical]

/-- The canonical form of a hello is proper. -/
theorem proper_canonical (h : ClientHello) : h.canonical.Proper := by
  refine ⟨?_, ?_, h.extensions.proper_canonical⟩
  · intro s hs
    obtain ⟨t, -, rfl⟩ := List.mem_map.mp hs
    exact Tag.proper_canonical t
  · intro m hm
    obtain ⟨t, -, rfl⟩ := List.mem_map.mp hm
    exact Tag.proper_canonical t

/-- A proper hello is its own canonical form. -/
theorem Proper.canonical_eq {h : ClientHello} (hp : h.Proper) : h.canonical = h := by
  obtain ⟨hsuites, hmethods, hextensions⟩ := hp
  simp only [canonical, Tag.map_canonical_of_proper hsuites, Tag.map_canonical_of_proper hmethods,
    hextensions.canonical_eq]

/-- Besides what the four fields of variable length hold, the fields are 39 octets of version,
random field and lengths. -/
@[simp] theorem length_encodeFields (h : ClientHello) :
    h.encodeFields.length
      = 39 + h.sessionId.length + h.cookie.length + 2 * h.suites.items.length
        + h.methods.items.length := by
  simp [encodeFields, encodeLists, Version.encode, Random.encodedLength, Tag.length_encodeList,
    Registry.width]
  omega

/-- The body is as long as announced. -/
theorem length_encode (h : ClientHello) : h.encode.length = h.bodyLength := by
  simp only [encode, encodeExtensions, bodyLength, List.length_append, length_encodeFields,
    Random.encodedLength]
  by_cases hempty : h.extensions.isEmpty
  · simp only [if_pos hempty, List.length_nil]
    omega
  · simp only [if_neg hempty, Extensions.length_encode]
    omega

/-! ## Where the fields end

The hello has no length of its own, so that its octets can be cut into fields rests on every field's
being delimited. The two lists get a name each here, because they are read one by one. -/

/-- The octets of the cipher suites behind their length. -/
def encodeSuites (xs : AtMost 64 CipherSuite) : Bytes :=
  Bytes.bigEndian 2 (2 * xs.items.length) ++ Tag.encodeList xs.items

/-- The octets of the compression methods behind their number. -/
def encodeMethods (xs : AtMost 4 CompressionMethod) : Bytes :=
  Bytes.bigEndian 1 xs.items.length ++ Tag.encodeList xs.items

/-- The two lists stand one after the other. -/
theorem encodeLists_eq (h : ClientHello) :
    h.encodeLists = encodeSuites h.suites ++ encodeMethods h.methods := rfl

/-- The fields as a row, cut from the left as they are read. -/
theorem encodeFields_append (h : ClientHello) (tail : Bytes) :
    h.encodeFields ++ tail
      = h.version.encode ++ (h.random.encode ++ (h.sessionId.encode ++ (h.cookie.encode
        ++ (encodeSuites h.suites ++ (encodeMethods h.methods ++ tail))))) := by
  simp only [encodeFields, encodeLists_eq, List.append_assoc]

/-- The cipher suites end where their length says. -/
theorem delimited_encodeSuites : Delimited encodeSuites := by
  refine Delimited.counted ?_ ?_
  · intro xs
    have hmax := xs.length_items
    show 2 * xs.items.length < 65536
    omega
  · intro xs ys hcount
    rw [Tag.length_encodeList, Tag.length_encodeList]
    exact hcount

/-- The compression methods end where their number says. -/
theorem delimited_encodeMethods : Delimited encodeMethods := by
  refine Delimited.counted ?_ ?_
  · intro xs
    have hmax := xs.length_items
    show xs.items.length < 256
    omega
  · intro xs ys hcount
    rw [Tag.length_encodeList, Tag.length_encodeList, hcount]

/-- The two lists together are delimited, since each of them is. -/
theorem delimited_encodeLists : Delimited encodeLists :=
  (delimited_encodeSuites.comp suites).append (delimited_encodeMethods.comp methods)

/-- Nothing that follows the compression methods can be taken for a part of the fields. -/
theorem delimited_encodeFields : Delimited encodeFields :=
  ((((Version.delimited_encode.comp version).append (Random.delimited_encode.comp random)).append
    (Token.delimited_encode.comp sessionId)).append (Token.delimited_encode.comp cookie)).append
    delimited_encodeLists

/-! ## Reading

From the lists over the optional block to the whole hello. `accepts_read` is the reader in front of
anything, and `accepts_body_iff` the same for a body that has to be used up. -/

/-- The reader of the cipher suites accepts what the writer puts down for a list of proper suites
that is not empty: no suites and an odd number of octets are both refused. -/
theorem accepts_readSuites {xs : AtMost 64 CipherSuite} :
    readSuites.Accepts input xs rest
      ↔ xs.items ≠ [] ∧ (∀ s ∈ xs.items, s.Proper)
        ∧ input = encodeSuites xs ++ rest := by
  simp only [encodeSuites, readSuites, Reader.accepts_bind, Reader.accepts_number,
    Reader.accepts_ite_fail]
  -- an even number of octets is a whole number of suites
  refine (Tag.accepts_counted (fun n => ¬ (n = 0 ∨ n % 2 ≠ 0)) (by decide) (by decide) ?_).trans ?_
  · intro n hgood
    show 2 ∣ n
    omega
  · have hsome : ¬ (2 * xs.items.length = 0 ∨ 2 * xs.items.length % 2 ≠ 0) ↔ xs.items ≠ [] := by
      rw [ne_eq xs.items, ← List.length_eq_zero_iff]
      omega
    exact and_congr_left' hsome

/-- The reader of the compression methods accepts what the writer puts down for a list of proper
methods that is not empty. -/
theorem accepts_readMethods {xs : AtMost 4 CompressionMethod} :
    readMethods.Accepts input xs rest
      ↔ xs.items ≠ [] ∧ (∀ m ∈ xs.items, m.Proper)
        ∧ input = encodeMethods xs ++ rest := by
  simp only [encodeMethods, readMethods, Reader.accepts_bind, Reader.accepts_number,
    Reader.accepts_ite_fail]
  refine (Tag.accepts_counted (fun n => ¬ n = 0) (by decide) (by decide) ?_).trans ?_
  · intro n _
    exact Nat.one_dvd n
  -- a method takes one octet, so the number of octets is the number of methods
  · have hone : Registry.width CompressionMethod.Name * xs.items.length = xs.items.length :=
      Nat.one_mul _
    rw [hone, List.length_eq_zero_iff]

/-- No extensions at the end of the input, a block before anything else. -/
theorem accepts_readExtensions {xs : Extensions} :
    readExtensions.Accepts input xs rest
      ↔ (input = [] ∧ rest = [] ∧ xs = {}) ∨ Extensions.read.Accepts input xs rest := by
  simp only [readExtensions, Reader.accepts_bind, Reader.accepts_atEnd]
  constructor
  · rintro ⟨finished, _, ⟨rfl, rfl⟩, hread⟩
    by_cases hend : input.isEmpty
    · rw [if_pos hend, Reader.accepts_pure] at hread
      obtain ⟨rfl, rfl⟩ := hread
      exact .inl ⟨List.isEmpty_iff.mp hend, List.isEmpty_iff.mp hend, rfl⟩
    · rw [if_neg hend] at hread
      exact .inr hread
  · intro h
    refine ⟨input.isEmpty, input, ⟨rfl, rfl⟩, ?_⟩
    rcases h with ⟨rfl, rfl, rfl⟩ | hread
    · simp
    · have hstart : ¬ input.isEmpty := by
        rw [List.isEmpty_iff]
        exact Extensions.ne_nil_of_accepts_read hread
      rw [if_neg hstart]
      exact hread

/-- The fields are read off the front, then the extensions. -/
theorem accepts_read {h : ClientHello} :
    read.Accepts input h rest
      ↔ h.suites.items ≠ [] ∧ (∀ s ∈ h.suites.items, s.Proper)
        ∧ h.methods.items ≠ [] ∧ (∀ m ∈ h.methods.items, m.Proper)
        ∧ ∃ tail, input = h.encodeFields ++ tail
          ∧ readExtensions.Accepts tail h.extensions rest := by
  simp only [read, Reader.accepts_bind, Version.accepts_read, Random.accepts_read,
    Token.accepts_read, accepts_readSuites, accepts_readMethods, Reader.accepts_pure]
  constructor
  · rintro ⟨version, _, rfl, random, _, rfl, sessionId, _, rfl, cookie, _, rfl, suites, _,
      ⟨hsuites, hsuitesProper, rfl⟩, methods, _, ⟨hmethods, hmethodsProper, rfl⟩, extensions, _,
      hread, rfl, rfl⟩
    refine ⟨hsuites, hsuitesProper, hmethods, hmethodsProper, _, ?_, hread⟩
    rw [encodeFields_append]
  · rintro ⟨hsuites, hsuitesProper, hmethods, hmethodsProper, tail, rfl, hread⟩
    exact ⟨h.version, _, encodeFields_append h tail, h.random, _, rfl, h.sessionId, _, rfl,
      h.cookie, _, rfl, h.suites, _, ⟨hsuites, hsuitesProper, rfl⟩, h.methods, tail,
      ⟨hmethods, hmethodsProper, rfl⟩, h.extensions, rest, hread, rfl, rfl⟩

/-- **The bodies of a hello.** A body is read as `h` when `h` is proper and can be written, and the
body is what is written or, for a hello without extensions, that with an empty block behind. -/
theorem accepts_body_iff {body : Bytes} {h : ClientHello} :
    read.Accepts body h []
      ↔ h.Proper ∧ h.Writable
        ∧ (body = h.encode ∨ h.extensions.isEmpty ∧ body = h.encode ++ [0, 0]) := by
  rw [accepts_read]
  simp only [accepts_readExtensions, Extensions.accepts_read, List.append_nil]
  constructor
  · rintro ⟨hsuites, hsuitesProper, hmethods, hmethodsProper, tail, rfl, hread⟩
    rcases hread with ⟨rfl, -, hnone⟩ | ⟨hproper, hfits, rfl⟩
    -- the body ended at the compression methods
    · refine ⟨⟨hsuitesProper, hmethodsProper, ?_⟩, ⟨hsuites, hmethods, ?_⟩, .inl ?_⟩
      · rw [hnone]
        intro x hx
        contradiction
      · rw [hnone]
        exact Nat.zero_le _
      · rw [encode, hnone]
        rfl
    · refine ⟨⟨hsuitesProper, hmethodsProper, hproper⟩, ⟨hsuites, hmethods, hfits⟩, ?_⟩
      -- there is a block, and if it is empty the writer would have left it out
      by_cases hempty : h.extensions.isEmpty
      · refine .inr ⟨hempty, ?_⟩
        rw [Extensions.encode_of_isEmpty hempty, encode_of_isEmpty hempty]
      · refine .inl ?_
        rw [encode, encodeExtensions, if_neg hempty]
  · rintro ⟨⟨hsuitesProper, hmethodsProper, hproper⟩, ⟨hsuites, hmethods, hfits⟩, hbody⟩
    refine ⟨hsuites, hsuitesProper, hmethods, hmethodsProper, ?_⟩
    rcases hbody with rfl | ⟨hempty, rfl⟩
    -- the way that is written: no block if there is nothing to put into it
    · refine ⟨encodeExtensions h.extensions, rfl, ?_⟩
      by_cases hempty : h.extensions.isEmpty
      · refine .inl ⟨by rw [encodeExtensions, if_pos hempty], trivial, ?_⟩
        exact Extensions.eq_empty_of_isEmpty hempty
      · exact .inr ⟨hproper, hfits, by rw [encodeExtensions, if_neg hempty]⟩
    -- the long way: the block of no extensions
    · refine ⟨[0, 0], by rw [encode_of_isEmpty hempty], .inr ⟨hproper, hfits, ?_⟩⟩
      rw [Extensions.encode_of_isEmpty hempty]

/-! ## Writing

The writer checks its two lists and the length of its block before it puts anything down. A hello
that passes is written as `encode`. -/

/-- Extensions that fit are written as their octets, and an empty block is left out. -/
theorem appends_writeExtensions {xs : Extensions} (h : xs.length ≤ 65535) :
    (writeExtensions xs).Appends (encodeExtensions xs) := by
  unfold writeExtensions encodeExtensions
  by_cases hempty : xs.isEmpty
  · rw [if_pos hempty, if_pos hempty]
    exact Writer.appends_skip
  · rw [if_neg hempty, if_neg hempty]
    exact Extensions.appends_write h

/-- A hello that can be written is written as its octets. -/
theorem Writable.appends {h : ClientHello} (hw : h.Writable) : h.write.Appends h.encode := by
  obtain ⟨hsuites, hmethods, hfits⟩ := hw
  rw [write, if_neg (by simpa using hsuites), if_neg (by simpa using hmethods),
    if_neg (Nat.not_lt.mpr hfits)]
  exact (Writer.appends_put _).andThen (appends_writeExtensions hfits)

/-- A hello that was written can be. -/
theorem writable_of_result {h : ClientHello} {out : Buffer}
    (hok : (h.write out).result = .ok ()) : h.Writable := by
  -- each of the three checks that fails makes the result an error
  unfold write at hok
  by_cases hsuites : h.suites.items.isEmpty
  · rw [if_pos hsuites] at hok
    contradiction
  by_cases hmethods : h.methods.items.isEmpty
  · rw [if_neg hsuites, if_pos hmethods] at hok
    contradiction
  by_cases hfits : 65535 < h.extensions.length
  · rw [if_neg hsuites, if_neg hmethods, if_pos hfits] at hok
    contradiction
  · exact ⟨by simpa using hsuites, by simpa using hmethods, Nat.not_lt.mp hfits⟩

/-- A body never comes near the 24 bits that a header has for its length. -/
theorem Writable.bodyLength_le {h : ClientHello} (hw : h.Writable) : h.bodyLength ≤ 65995 := by
  have hsuites := h.suites.length_items
  have hmethods := h.methods.length_items
  have hsession : h.sessionId.length ≤ 32 := h.sessionId.length_bytes
  have hcookie : h.cookie.length ≤ 255 := h.cookie.length_bytes
  have hfits := hw.2.2
  rw [← length_encode, encode, List.length_append, length_encodeFields, encodeExtensions]
  -- 39 + 32 + 255 + 2 * 64 + 4 octets for the fields, and 2 + 65535 for the largest block
  by_cases hempty : h.extensions.isEmpty
  · rw [if_pos hempty, List.length_nil]
    omega
  · rw [if_neg hempty, Extensions.length_encode, Extensions.encodedLength]
    omega

/-- A hello with one suite, no compression and nothing else. -/
def plain : ClientHello where
  version := Version.dtls12
  random := ⟨0, Octets.zero 28⟩
  sessionId := Token.empty
  cookie := Token.empty
  suites := { items := [.registered .ecdheRsaAes128GcmSha256] }
  methods := { items := [.registered .null] }

/-- The plain hello has nothing but names in its lists. -/
theorem proper_plain : plain.Proper := by
  refine ⟨?_, ?_, ?_⟩ <;> simp [plain, Tag.Proper, Extensions.Proper]

/-- The plain hello can be written. -/
theorem writable_plain : plain.Writable := ⟨by decide, by decide, by decide⟩

end ClientHello

end DatagramHello
