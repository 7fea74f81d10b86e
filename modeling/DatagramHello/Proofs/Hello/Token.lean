/-
Tokens in place and on the wire.

Several tokens in place can be one token, since room and number of octets in use
are kept apart. What such a token says is its octets in use, and the view
`InPlace.token` takes it to the token of those octets. Under this view every
operation in place is the operation on tokens: the ones that make a token give
the same token or the same error, the reader reads the same, and what is written
and what counts as equal depends on the view alone. So the facts are those about
tokens, carried back, and nothing is left that the room behind the octets in use
could have a say in.

A token on the wire is refused for its length before its octets are looked for.
At the limit of 255 this never happens, because the octet of the length says
nothing larger, and at 32 it does for the lengths from 33 on.
-/
import DatagramHello.Hello.InPlace
import DatagramHello.Proofs.Hello.Codec
import DatagramHello.Proofs.Wire.Places

set_option autoImplicit false

namespace DatagramHello.Token

open Bytes (numberAt)

variable {kind : TokenKind} {input rest : Bytes} {e : Error}

/-! ## Tokens

The token as a byte string within its limit. What is made of octets and what is refused on the wire
are described once here for both kinds. -/

/-- A token of some octets is those octets; there is one exactly if they are within the limit. -/
theorem ofBytes_eq_ok_iff {bs : Bytes} {t : Token kind} :
    ofBytes kind bs = .ok t ↔ t.bytes = bs := by
  unfold ofBytes
  by_cases h : bs.length ≤ kind.maxLength
  · rw [dif_pos h]
    constructor
    · intro hok
      cases hok
      rfl
    · rintro rfl
      rfl
  · rw [dif_neg h]
    constructor
    · intro hok
      contradiction
    · rintro rfl
      exact absurd t.length_bytes h

/-- What no token of the kind is read from, with the error that is returned. -/
inductive Refused (kind : TokenKind) : Bytes → Error → Prop
  /-- There is no octet with the length. -/
  | missing : Refused kind [] .truncated
  /-- The length is over the limit, and its octets may be there or not. -/
  | tooLong (n : UInt8) (more : Bytes) (long : kind.maxLength < n.toNat) :
      Refused kind (n :: more) (.doesNotFit kind.field n.toNat kind.maxLength)
  /-- The length is within the limit, and not all of its octets are there. -/
  | cutShort (n : UInt8) (more : Bytes) (within : n.toNat ≤ kind.maxLength)
      (short : more.length < n.toNat) : Refused kind (n :: more) .truncated

/-- The reader of tokens fails on exactly the inputs that `Refused` lists, with its errors. -/
theorem fails_read : (read kind).Fails input e ↔ Refused kind input e := by
  unfold read
  rw [Reader.fails_number_one_bind]
  constructor
  · rintro (⟨hnone, rfl⟩ | ⟨n, more, rfl, hread⟩)
    · rw [List.length_eq_zero_iff.mp (Nat.lt_one_iff.mp hnone)]
      exact .missing
    · by_cases hmax : n.toNat ≤ kind.maxLength
      · rw [dif_pos hmax, Reader.fails_bind, Reader.fails_take] at hread
        rcases hread with ⟨hshort, rfl⟩ | ⟨field, left, -, hpure⟩
        · exact .cutShort n more hmax hshort
        · exact absurd hpure Reader.not_fails_pure
      · rw [dif_neg hmax, Reader.fails_fail] at hread
        rw [← hread]
        exact .tooLong n more (Nat.not_le.mp hmax)
  · rintro (_ | ⟨n, more, hlong⟩ | ⟨n, more, hmax, hshort⟩)
    · exact .inl ⟨Nat.zero_lt_one, rfl⟩
    · refine .inr ⟨n, more, rfl, ?_⟩
      rw [dif_neg (Nat.not_le.mpr hlong), Reader.fails_fail]
    · refine .inr ⟨n, more, rfl, ?_⟩
      rw [dif_pos hmax, Reader.fails_bind, Reader.fails_take]
      exact .inl ⟨hshort, rfl⟩

/-- What is read as a token is as many octets as the first one says. -/
theorem bytes_of_accepts {t : Token kind} (h : (read kind).Accepts input t rest) :
    t.bytes = (input.drop 1).take (numberAt 1 0 input) := by
  rw [accepts_read] at h
  have hlength : t.length < Bytes.span 1 := Nat.lt_of_le_of_lt t.length_bytes kind.maxLength_lt
  have hnumber : numberAt 1 0 input = t.length := by
    rw [h, encode, List.append_assoc]
    exact Bytes.numberAt_zero_append hlength
  have hdrop : input.drop 1 = t.bytes ++ rest := by
    rw [h, encode, List.append_assoc]
    exact List.drop_left' (Bytes.length_bigEndian 1 t.length)
  rw [hnumber, hdrop]
  exact (List.take_left' rfl).symm

/-! ## The view

A token in place is an array of the full size and the number of octets in use. `InPlace.token`
forgets the array's other octets, and each operation is taken through it. -/

namespace InPlace

/-- Two tokens in place are equal when they are one token. -/
theorem same_iff {p q : InPlace kind} : p.same q = true ↔ p.token = q.token := by
  rw [same, beq_iff_eq, token, token, Token.mk.injEq]

/-- What is written of a token in place is what is written of the token. -/
theorem encode_token (p : InPlace kind) : p.token.encode = p.encode := by
  rw [Token.encode, Token.length, token, length_bytes]
  rfl

/-- The view of a field that was read in place is the token of that field. -/
theorem token_keep {n : Nat} (field : Octets n) (h : n ≤ kind.maxLength) :
    (keep field h).token = ⟨field.bytes, by rw [field.length_bytes]; exact h⟩ := by
  simp only [token, bytes_keep]

/-- The same octets become a token in place, and the same are refused alike. -/
theorem map_token_ofBytes (bs : Bytes) : (ofBytes kind bs).map token = Token.ofBytes kind bs := by
  unfold ofBytes Token.ofBytes
  by_cases h : bs.length ≤ kind.maxLength
  · rw [dif_pos h, dif_pos h]
    exact congrArg Except.ok (token_keep ⟨bs, rfl⟩ h)
  · rw [dif_neg h, dif_neg h]
    rfl

/-- The same is read in place as otherwise, off every input. -/
theorem map_token_read : token <$> read kind = Token.read kind := by
  unfold read Token.read
  rw [Reader.map_bind]
  congr 1
  funext length
  by_cases h : length.val ≤ kind.maxLength
  · rw [dif_pos h, dif_pos h, Reader.map_bind]
    congr 1
    funext field
    exact congrArg (pure : Token kind → Reader (Token kind)) (token_keep field h)
  · rw [dif_neg h, dif_neg h]
    rfl

/-- Reading in place fails where reading does, with the same error. -/
theorem fails_read_iff : (read kind).Fails input e ↔ (Token.read kind).Fails input e := by
  rw [← map_token_read, Reader.fails_map]

/-- What is read in place is, viewed as a token, what is read. -/
theorem accepts_token {p : InPlace kind} (h : (read kind).Accepts input p rest) :
    (Token.read kind).Accepts input p.token rest := by
  rw [← map_token_read]
  exact Reader.accepts_map.mpr ⟨p, h, rfl⟩

/-- What is read as a token is read in place, with some room behind it. -/
theorem exists_accepts {t : Token kind} (h : (Token.read kind).Accepts input t rest) :
    ∃ p, (read kind).Accepts input p rest ∧ p.token = t := by
  rw [← map_token_read] at h
  exact Reader.accepts_map.mp h

end InPlace

/-! ## Where tokens come from

A caller gets a token empty, from octets, from a text, or off the wire. `octets` says for each of
these what the token is to hold, without the library's own conversions. -/

/-- The ways in which a token comes about. -/
inductive Origin where
  | empty
  | bytes (bs : Bytes)
  | text (s : String)
  | wire (input : Bytes)

namespace Origin

/-- The token that comes about in this way, or the error. -/
def make (kind : TokenKind) : Origin → Except Error (InPlace kind)
  | .empty => .ok InPlace.empty
  | .bytes bs => InPlace.ofBytes kind bs
  | .text s => InPlace.ofText kind s
  | .wire input => (InPlace.read kind input).value.map Prod.fst

/-- The octets that a token is made of; on the wire those behind the first, as many as it says. -/
def octets : Origin → Bytes
  | .empty => []
  | .bytes bs => bs
  | .text s => s.toUTF8.data.toList
  | .wire input => (input.drop 1).take (numberAt 1 0 input)

/-- Whichever way it comes about, a token is the octets that it is made of. -/
theorem bytes_of_make {o : Origin} {p : InPlace kind} (h : o.make kind = .ok p) :
    p.bytes = o.octets := by
  have hofBytes {bs : Bytes} (hok : InPlace.ofBytes kind bs = .ok p) : p.bytes = bs := by
    have hview : (InPlace.ofBytes kind bs).map InPlace.token = ofBytes kind bs :=
      InPlace.map_token_ofBytes bs
    rw [hok] at hview
    exact ofBytes_eq_ok_iff.mp hview.symm
  cases o with
  | empty =>
    cases h
    rfl
  | bytes bs => exact hofBytes h
  | text s => exact hofBytes h
  | wire input =>
    simp only [make] at h
    rcases hvalue : (InPlace.read kind input).value with e | ⟨q, rest⟩
    · rw [hvalue] at h
      contradiction
    · rw [hvalue] at h
      cases h
      exact bytes_of_accepts (InPlace.accepts_token hvalue)

end Origin

/-! ## The codec

Everything that a caller can ask of tokens, for both limits at once. -/

/-- Octets make a token in place exactly if they are within the limit of its kind. -/
theorem InPlace.exists_ofBytes_iff {bs : Bytes} :
    (∃ p, InPlace.ofBytes kind bs = .ok p) ↔ bs.length ≤ kind.maxLength := by
  unfold InPlace.ofBytes
  by_cases h : bs.length ≤ kind.maxLength
  · simp [h]
  · simp [h]

/-- **Two limits.** At the limits 255 and 32 alike: octets become a token when there are no more of
them than the limit allows, and so do those of a text. Tokens are equal when the octets are that
they were made of, whether these were given, were those of a text, were read or were none. Whatever
is in its room, a token that is written is read again as an equal one, with what follows it left
over, and nothing but what is written for a token is read as that token. Any other input is refused
for the length in its first octet if that is over the limit, with or without octets behind it, and
else for having no first octet or too few behind it. -/
theorem codec_exact :
    TokenKind.cookie.maxLength = 255 ∧ TokenKind.sessionId.maxLength = 32
    ∧ ∀ kind : TokenKind,
      (∀ bs : Bytes, (∃ p, InPlace.ofBytes kind bs = .ok p) ↔ bs.length ≤ kind.maxLength)
      ∧ (∀ text : String,
          (∃ p, InPlace.ofText kind text = .ok p) ↔ text.utf8ByteSize ≤ kind.maxLength)
      ∧ (∀ (o o' : Origin) (p p' : InPlace kind), o.make kind = .ok p → o'.make kind = .ok p' →
          p.bytes = o.octets ∧ p'.bytes = o'.octets
            ∧ (p.same p' = true ↔ o.octets = o'.octets))
      ∧ (∀ (p : InPlace kind) (rest : Bytes),
          ∃ p', (InPlace.read kind).Accepts (p.encode ++ rest) p' rest ∧ p'.same p = true)
      ∧ (∀ (input : Bytes) (p : InPlace kind) (rest : Bytes),
          (InPlace.read kind).Accepts input p rest → input = p.encode ++ rest)
      ∧ ∀ (input : Bytes) (e : Error),
          (InPlace.read kind).Fails input e ↔ Refused kind input e := by
  refine ⟨rfl, rfl, ?_⟩
  intro kind
  refine ⟨fun bs => InPlace.exists_ofBytes_iff, fun text => InPlace.exists_ofBytes_iff,
    ?_, ?_, ?_, ?_⟩
  · intro o o' p p' hp hp'
    have hbytes : p.bytes = o.octets := Origin.bytes_of_make hp
    have hbytes' : p'.bytes = o'.octets := Origin.bytes_of_make hp'
    refine ⟨hbytes, hbytes', ?_⟩
    rw [InPlace.same, beq_iff_eq, hbytes, hbytes']
  · intro p rest
    have hread : (Token.read kind).Accepts (p.encode ++ rest) p.token rest := by
      rw [accepts_read, InPlace.encode_token]
    obtain ⟨p', hread', htoken⟩ := InPlace.exists_accepts hread
    exact ⟨p', hread', InPlace.same_iff.mpr htoken⟩
  · intro input p rest h
    rw [← InPlace.encode_token]
    exact accepts_read.mp (InPlace.accepts_token h)
  · intro input e
    rw [InPlace.fails_read_iff, fails_read]

/-- A session id of two octets in room that was used before. -/
def InPlace.reused : InPlace .sessionId where
  room := ⟨List.replicate 32 1, rfl⟩
  used := 2
  used_le := by decide

/-- What is left in the room behind a session id is not read back and makes no difference, the
octets of a text are the same cookie as those that were read, 33 octets of a session id are refused
before they come, and 255 of a cookie are missing. -/
theorem codec_exact_reused :
    (∃ p, (InPlace.read .sessionId).Accepts (InPlace.reused.encode ++ [9]) p [9]
        ∧ p.same InPlace.reused = true)
      ∧ (∃ p p' : InPlace .cookie, (Origin.text "ab").make .cookie = .ok p
          ∧ (Origin.wire [2, 0x61, 0x62, 7]).make .cookie = .ok p' ∧ p.same p' = true)
      ∧ (InPlace.read .sessionId).Fails [33] (.doesNotFit .sessionId 33 32)
      ∧ (InPlace.read .cookie).Fails [255] .truncated := by
  obtain ⟨-, -, hkind⟩ := codec_exact
  obtain ⟨-, -, -, hback, -, hfails⟩ := hkind .sessionId
  obtain ⟨-, htext, hequal, -, -, hmissing⟩ := hkind .cookie
  obtain ⟨p, hp⟩ := (htext "ab").mpr (by decide)
  have hwire : (Origin.wire [2, 0x61, 0x62, 7]).make .cookie
      = .ok (.keep (n := 2) ⟨[0x61, 0x62], rfl⟩ (by decide)) := rfl
  obtain ⟨-, -, hsame⟩ := hequal (.text "ab") (.wire [2, 0x61, 0x62, 7]) _ _ hp hwire
  refine ⟨hback _ _, ⟨p, _, hp, hwire, hsame.mpr (by decide)⟩, ?_, ?_⟩
  · exact (hfails [33] _).mpr (.tooLong 33 [] (by decide))
  · exact (hmissing [255] _).mpr (.cutShort 255 [] (by decide) (by decide))

end DatagramHello.Token
