/-
The octets that a client hello is read from, and what is said of all others.

The body of a hello is a row of fields, each behind its length where it has
one. `Row` is that row as it lies on the wire, up to the compression methods,
and holds the bounds that a reader checks; behind it stands a tail, which is
nothing or starts with an extensions block. An input is accepted exactly where
it is a row and such a tail.

What is said of another input is the matter of `Blamed`, which has one
constructor for each defect that can be named. Each of them spells out all
fields to the left of the defect and leaves open what stands to the right of
it, so the relation says at once that the leftmost defect is blamed and which
octets have to be there for it. The lengths of the session id and of both lists
are looked at before the octets that they announce, and whether a list has too
many entries only when all of it is there. An input that is neither accepted
nor blamed in this way is too short.
-/
import DatagramHello.Proofs.Extension.Tiling
import DatagramHello.Proofs.Hello.Codec

set_option autoImplicit false

namespace DatagramHello

open Bytes (bigEndian)

variable {input rest more tail : Bytes} {e : Error}

namespace ClientHello

/-! ## The row

The octets of a hello without any of the library's types for its contents: byte strings and numbers,
with the bounds that are checked. -/

/-- A byte string behind one octet of length. -/
def counted (bs : Bytes) : Bytes := bigEndian 1 bs.length ++ bs

/-- The fields up to the cookie. -/
structure Opening where
  version : Version
  random : Random
  sessionId : Bytes
  cookie : Bytes
  length_sessionId : sessionId.length ≤ 32
  length_cookie : cookie.length ≤ 255

/-- The numbers in a list that has an entry and no more than `max`. -/
structure Ids (ν : Type) (max : Nat) where
  ids : List ν
  length_pos : 1 ≤ ids.length
  length_ids : ids.length ≤ max

/-- The numbers of the cipher suites. -/
abbrev SuiteIds := Ids UInt16 64

/-- The numbers of the compression methods. -/
abbrev MethodIds := Ids UInt8 4

/-- The fields before the extensions. -/
structure Row where
  opening : Opening
  suites : SuiteIds
  methods : MethodIds

/-- Two octets of version, 32 of time and random, then session id and cookie. -/
def Opening.octets (o : Opening) : Bytes :=
  [o.version.major, o.version.minor]
    ++ (bigEndian 4 o.random.time.toNat ++ o.random.octets.bytes)
    ++ counted o.sessionId ++ counted o.cookie

/-- Two octets for each suite, behind their length. -/
def SuiteIds.octets (s : SuiteIds) : Bytes :=
  bigEndian 2 (2 * s.ids.length) ++ s.ids.flatMap fun id => bigEndian 2 id.toNat

/-- One octet for each method, behind their number. -/
def MethodIds.octets (m : MethodIds) : Bytes := counted m.ids

/-- The octets of the row: the opening and the two lists. -/
def Row.octets (row : Row) : Bytes :=
  row.opening.octets ++ row.suites.octets ++ row.methods.octets

/-- The tags of the numbers, which go by their names where they have one. -/
def Ids.tags {ν κ : Type} [Registry κ] {max : Nat} (s : Ids ν max) (number : ν → Nat) :
    AtMost max (Tag κ) where
  items := s.ids.map fun id => Tag.ofId (number id)
  length_items := by simpa using s.length_ids

/-- The hello with the fields of a row. -/
def Row.hello (row : Row) (extensions : Extensions) : ClientHello where
  version := row.opening.version
  random := row.opening.random
  sessionId := ⟨row.opening.sessionId, row.opening.length_sessionId⟩
  cookie := ⟨row.opening.cookie, row.opening.length_cookie⟩
  suites := row.suites.tags UInt16.toNat
  methods := row.methods.tags UInt8.toNat
  extensions := extensions

/-- The octets `input` are a row and a tail with its extensions, they say `h`, and `rest` is left
behind the extensions. -/
def Spells (input : Bytes) (h : ClientHello) (rest : Bytes) : Prop :=
  ∃ (row : Row) (tail : Bytes), input = row.octets ++ tail ∧ h = row.hello h.extensions
    ∧ (tail = [] ∧ rest = [] ∧ h.extensions = {}
        ∨ tail ≠ [] ∧ Extensions.read.Accepts tail h.extensions rest)

/-- A defect that can be named, with all that stands to the left of it in order. -/
inductive Blamed : Bytes → Error → Prop
  /-- The session id is announced with too many octets, which need not be there. -/
  | sessionId (front : Octets 34) (length : UInt8) (more : Bytes) (long : 32 < length.toNat) :
      Blamed (front.bytes ++ length :: more) (.doesNotFit .sessionId length.toNat 32)
  /-- The suites are announced with no octets or an odd number of them. -/
  | suitesLength (o : Opening) (length : UInt16) (more : Bytes)
      (bad : length.toNat = 0 ∨ length.toNat % 2 = 1) :
      Blamed (o.octets ++ bigEndian 2 length.toNat ++ more) (.framing .cipherSuitesLength)
  /-- The octets of more than 64 suites are there. -/
  | tooManySuites (o : Opening) (count : Nat) (more : Bytes) (many : 64 < count)
      (announced : 2 * count < 65536) (there : 2 * count ≤ more.length) :
      Blamed (o.octets ++ bigEndian 2 (2 * count) ++ more) (.tooMany .cipherSuites 64)
  /-- No methods are announced. -/
  | noMethods (o : Opening) (suites : SuiteIds) (more : Bytes) :
      Blamed (o.octets ++ suites.octets ++ 0 :: more) (.framing .noCompressionMethods)
  /-- More than 4 methods are there. -/
  | tooManyMethods (o : Opening) (suites : SuiteIds) (count : UInt8) (more : Bytes)
      (many : 4 < count.toNat) (there : count.toNat ≤ more.length) :
      Blamed (o.octets ++ suites.octets ++ count :: more) (.tooMany .compressionMethods 4)
  /-- Something follows the row, and the block refuses it. -/
  | extensions (row : Row) (tail : Bytes) (e : Error) (nonempty : tail ≠ [])
      (refused : Extensions.read.Fails tail e) : Blamed (row.octets ++ tail) e

end ClientHello

/-! ## What the fields are blamed for

For each reader of a part of the hello, what it blames apart from a missing octet, in terms of the
octets in front of it. -/

/-- A version can only be cut short. -/
theorem Version.onlyTruncates_read : Version.read.OnlyTruncates :=
  Reader.onlyTruncates_octet.bind fun _ => Reader.onlyTruncates_octet.bind fun _ =>
    Reader.onlyTruncates_pure _

/-- A random field can only be cut short. -/
theorem Random.onlyTruncates_read : Random.read.OnlyTruncates :=
  (Reader.onlyTruncates_number 4).bind fun _ => (Reader.onlyTruncates_take 28).bind fun _ =>
    Reader.onlyTruncates_pure _

/-- Other than for being too short, a token is blamed for the length that it announces. -/
theorem Token.fails_read_iff {kind : TokenKind} (he : e ≠ .truncated) :
    (Token.read kind).Fails input e
      ↔ ∃ (length : UInt8) (more : Bytes), input = length :: more ∧ kind.maxLength < length.toNat
          ∧ e = .doesNotFit kind.field length.toNat kind.maxLength := by
  unfold Token.read
  rw [Reader.fails_number_one_bind]
  constructor
  · rintro (⟨-, hshort⟩ | ⟨length, more, rfl, hread⟩)
    · exact absurd hshort he
    · by_cases hmax : length.toNat ≤ kind.maxLength
      · rw [dif_pos hmax, Reader.fails_bind] at hread
        rcases hread with hread | ⟨field, left, -, hpure⟩
        · exact absurd (Reader.onlyTruncates_take _ _ _ hread) he
        · exact absurd hpure Reader.not_fails_pure
      · rw [dif_neg hmax, Reader.fails_fail] at hread
        exact ⟨length, more, rfl, Nat.not_le.mp hmax, hread.symm⟩
  · rintro ⟨length, more, rfl, hmax, rfl⟩
    refine .inr ⟨length, more, rfl, ?_⟩
    rw [dif_neg (Nat.not_le.mpr hmax), Reader.fails_fail]

/-- No octet is over the limit of a cookie. -/
theorem Token.onlyTruncates_read_cookie : (Token.read .cookie).OnlyTruncates := by
  intro input e h
  by_cases he : e = .truncated
  · exact he
  · obtain ⟨length, more, -, hmax, -⟩ := (Token.fails_read_iff he).mp h
    have hlt := length.toNat_lt
    exact absurd hmax (Nat.not_lt.mpr (Nat.le_of_lt_succ hlt))

namespace ClientHello

/-- Other than for being too short, suites are blamed for the length that is announced, or for
being too many. -/
theorem fails_readSuites_iff (he : e ≠ .truncated) :
    readSuites.Fails input e
      ↔ (∃ (length : UInt16) (more : Bytes), (length.toNat = 0 ∨ length.toNat % 2 = 1)
            ∧ input = bigEndian 2 length.toNat ++ more ∧ e = .framing .cipherSuitesLength)
        ∨ ∃ (count : Nat) (more : Bytes), 64 < count ∧ 2 * count < 65536
            ∧ 2 * count ≤ more.length ∧ input = bigEndian 2 (2 * count) ++ more
            ∧ e = .tooMany .cipherSuites 64 := by
  unfold readSuites
  rw [Reader.fails_halfword_bind]
  constructor
  · rintro (⟨-, hshort⟩ | ⟨length, more, rfl, hread⟩)
    · exact absurd hshort he
    · simp only [Reader.fails_ite_fail, Tag.fails_readList] at hread
      rcases hread with ⟨hbad, rfl⟩ | ⟨hgood, ⟨-, hshort⟩ | ⟨hthere, hmany, rfl⟩⟩
      · refine .inl ⟨length, more, ?_, rfl, rfl⟩
        omega
      · exact absurd hshort he
      -- an even number of octets is twice a number of suites
      · have hhalf : 2 * (length.toNat / 2) = length.toNat := by omega
        have hspan := length.toNat_lt
        refine .inr ⟨length.toNat / 2, more, hmany, ?_, ?_, ?_, rfl⟩
        · omega
        · rw [hhalf]
          exact hthere
        · rw [hhalf]
  · rintro (⟨length, more, hbad, rfl, rfl⟩ | ⟨count, more, hmany, hspan, hthere, rfl, rfl⟩)
    · refine .inr ⟨length, more, rfl, ?_⟩
      simp only [Reader.fails_ite_fail]
      refine .inl ⟨?_, trivial⟩
      omega
    · have hlength : (UInt16.ofNat (2 * count)).toNat = 2 * count := Bytes.toNat_halfword hspan
      refine .inr ⟨UInt16.ofNat (2 * count), more, ?_, ?_⟩
      · rw [hlength]
      · rw [Reader.fails_ite_fail, Tag.fails_readList]
        simp only [hlength]
        refine .inr ⟨?_, .inr ⟨hthere, ?_, trivial⟩⟩
        · omega
        · show 64 < 2 * count / 2
          omega

/-- Other than for being too short, methods are blamed for being none or too many. -/
theorem fails_readMethods_iff (he : e ≠ .truncated) :
    readMethods.Fails input e
      ↔ (∃ more : Bytes, input = 0 :: more ∧ e = .framing .noCompressionMethods)
        ∨ ∃ (count : UInt8) (more : Bytes), 4 < count.toNat ∧ count.toNat ≤ more.length
            ∧ input = count :: more ∧ e = .tooMany .compressionMethods 4 := by
  have hone (n : Nat) : n / Registry.width CompressionMethod.Name = n := Nat.div_one n
  unfold readMethods
  rw [Reader.fails_number_one_bind]
  constructor
  · rintro (⟨-, hshort⟩ | ⟨count, more, rfl, hread⟩)
    · exact absurd hshort he
    · rw [Reader.fails_ite_fail, Tag.fails_readList, hone] at hread
      rcases hread with ⟨hnone, rfl⟩ | ⟨-, ⟨-, hshort⟩ | ⟨hthere, hmany, rfl⟩⟩
      · have hzero : count = 0 := UInt8.toNat_inj.mp hnone
        rw [hzero]
        exact .inl ⟨more, rfl, rfl⟩
      · exact absurd hshort he
      · exact .inr ⟨count, more, hmany, hthere, rfl, rfl⟩
  · rintro (⟨more, rfl, rfl⟩ | ⟨count, more, hmany, hthere, rfl, rfl⟩)
    · refine .inr ⟨0, more, rfl, ?_⟩
      rw [Reader.fails_ite_fail]
      exact .inl ⟨rfl, rfl⟩
    · refine .inr ⟨count, more, rfl, ?_⟩
      rw [Reader.fails_ite_fail, Tag.fails_readList, hone]
      refine .inr ⟨?_, .inr ⟨hthere, hmany, rfl⟩⟩
      exact Nat.ne_of_gt (Nat.zero_lt_of_lt hmany)

/-- Nothing is said of extensions that are not there. -/
theorem fails_readExtensions_iff :
    readExtensions.Fails input e ↔ input ≠ [] ∧ Extensions.read.Fails input e := by
  rw [readExtensions, Reader.fails_bind_of_accepts (Reader.accepts_atEnd.mpr ⟨rfl, rfl⟩)]
  by_cases hend : input = []
  · subst hend
    simp
  · rw [if_neg (by simpa using hend)]
    simp [hend]

/-! ## What the pieces of a row are read as

The pieces of a row and the fields of a hello are matched one by one. The lists are where it takes
an argument, since a number has to be matched with the one proper tag that it is the number of. -/

/-- An opening is the octets of its four fields. -/
theorem Opening.octets_append (o : Opening) (tail : Bytes) :
    o.octets ++ tail
      = o.version.encode ++ (o.random.encode
        ++ ((⟨o.sessionId, o.length_sessionId⟩ : SessionId).encode
        ++ ((⟨o.cookie, o.length_cookie⟩ : Cookie).encode ++ tail))) := by
  simp only [octets, counted, Version.encode, Random.encode, Token.encode, Token.length,
    List.append_assoc]

section Ids

variable {ν κ : Type} [Registry κ] {max : Nat} {number : ν → Nat}

/-- Lists of proper tags that are not empty are those with numbers. -/
theorem Ids.exists_tags_eq_iff (h : Tag.Numbers κ number) {xs : AtMost max (Tag κ)} :
    (∃ s : Ids ν max, s.tags number = xs) ↔ xs.items ≠ [] ∧ ∀ t ∈ xs.items, t.Proper := by
  rw [← h.exists_map_ofId_eq_iff]
  constructor
  · rintro ⟨s, rfl⟩
    refine ⟨?_, s.ids, rfl⟩
    rw [tags, ne_eq, List.map_eq_nil_iff]
    exact List.length_pos_iff.mp s.length_pos
  · obtain ⟨items, hmax⟩ := xs
    rintro ⟨hne, ids, rfl⟩
    rw [List.length_map] at hmax
    rw [ne_eq, List.map_eq_nil_iff] at hne
    exact ⟨⟨ids, List.length_pos_iff.mpr hne, hmax⟩, rfl⟩

end Ids

/-- Suites have the numbers of 16 bits. -/
theorem numbers_suites : Tag.Numbers CipherSuite.Name UInt16.toNat := Tag.numbers_halfword rfl

/-- Methods have the numbers of 8 bits. -/
theorem numbers_methods : Tag.Numbers CompressionMethod.Name UInt8.toNat := Tag.numbers_octet rfl

/-- The suites for some numbers are written as these numbers. -/
theorem SuiteIds.encodeSuites_tags (s : SuiteIds) :
    encodeSuites (s.tags UInt16.toNat) = s.octets := by
  rw [encodeSuites, Ids.tags, numbers_suites.encodeList_map_ofId, List.length_map, octets]
  rfl

/-- The methods for some numbers are written as these numbers. -/
theorem MethodIds.encodeMethods_tags (m : MethodIds) :
    encodeMethods (m.tags UInt8.toNat) = m.octets := by
  rw [encodeMethods, Ids.tags, numbers_methods.encodeList_map_ofId, List.length_map, octets,
    counted]
  exact congrArg _ (Bytes.flatMap_bigEndian_one m.ids)

/-- The suites that can be read are those with numbers. -/
theorem accepts_readSuites_iff_ids {xs : AtMost 64 CipherSuite} :
    readSuites.Accepts input xs rest
      ↔ ∃ s : SuiteIds, s.tags UInt16.toNat = xs ∧ input = s.octets ++ rest := by
  rw [accepts_readSuites, ← and_assoc, ← Ids.exists_tags_eq_iff numbers_suites]
  constructor
  · rintro ⟨⟨s, rfl⟩, rfl⟩
    refine ⟨s, rfl, ?_⟩
    rw [SuiteIds.encodeSuites_tags]
  · rintro ⟨s, rfl, rfl⟩
    refine ⟨⟨s, rfl⟩, ?_⟩
    rw [SuiteIds.encodeSuites_tags]

/-- The methods that can be read are those with numbers. -/
theorem accepts_readMethods_iff_ids {xs : AtMost 4 CompressionMethod} :
    readMethods.Accepts input xs rest
      ↔ ∃ m : MethodIds, m.tags UInt8.toNat = xs ∧ input = m.octets ++ rest := by
  rw [accepts_readMethods, ← and_assoc, ← Ids.exists_tags_eq_iff numbers_methods]
  constructor
  · rintro ⟨⟨m, rfl⟩, rfl⟩
    refine ⟨m, rfl, ?_⟩
    rw [MethodIds.encodeMethods_tags]
  · rintro ⟨m, rfl, rfl⟩
    refine ⟨⟨m, rfl⟩, ?_⟩
    rw [MethodIds.encodeMethods_tags]

/-- The row in the order in which it is read. -/
theorem Row.octets_append (row : Row) (tail : Bytes) :
    row.octets ++ tail
      = row.opening.octets ++ (row.suites.octets ++ (row.methods.octets ++ tail)) := by
  simp only [octets, List.append_assoc]

/-- The hello of a row has the octets of the row for its fields. -/
theorem Row.encodeFields_hello (row : Row) (extensions : Extensions) :
    (row.hello extensions).encodeFields = row.octets := by
  have hfields := encodeFields_append (row.hello extensions) []
  have hrow := row.octets_append []
  rw [Opening.octets_append] at hrow
  simp only [hello, List.append_nil, SuiteIds.encodeSuites_tags, MethodIds.encodeMethods_tags]
    at hfields hrow ⊢
  rw [hfields, hrow]

/-! ## The verdicts

Acceptance and blame are put together from the fields. The order in which the fields are read is the
order of the case splits: with everything up to a field in order, the field decides or hands on. -/

/-- A hello is read from a row and a tail, and from nothing else. -/
theorem accepts_read_iff_spells {h : ClientHello} :
    read.Accepts input h rest ↔ Spells input h rest := by
  have htail (tail : Bytes) : readExtensions.Accepts tail h.extensions rest
      ↔ (tail = [] ∧ rest = [] ∧ h.extensions = {}
        ∨ tail ≠ [] ∧ Extensions.read.Accepts tail h.extensions rest) := by
    rw [accepts_readExtensions]
    refine or_congr_right ?_
    constructor
    · intro hread
      exact ⟨Extensions.ne_nil_of_accepts_read hread, hread⟩
    · exact And.right
  rw [accepts_read]
  constructor
  · rintro ⟨hsuites, hsuitesProper, hmethods, hmethodsProper, tail, rfl, hread⟩
    obtain ⟨suites, hs⟩ := (Ids.exists_tags_eq_iff numbers_suites).mpr ⟨hsuites, hsuitesProper⟩
    obtain ⟨methods, hm⟩ := (Ids.exists_tags_eq_iff numbers_methods).mpr ⟨hmethods, hmethodsProper⟩
    let row : Row :=
      { opening := ⟨h.version, h.random, h.sessionId.bytes, h.cookie.bytes,
          h.sessionId.length_bytes, h.cookie.length_bytes⟩
        suites
        methods }
    have hrow : h = row.hello h.extensions := by
      simp only [Row.hello, row, hs, hm]
    refine ⟨row, tail, ?_, hrow, (htail tail).mp hread⟩
    rw [← row.encodeFields_hello h.extensions, ← hrow]
  · rintro ⟨row, tail, rfl, hrow, hread⟩
    obtain ⟨hsuites, hsuitesProper⟩ :=
      (Ids.exists_tags_eq_iff numbers_suites).mp ⟨row.suites, rfl⟩
    obtain ⟨hmethods, hmethodsProper⟩ :=
      (Ids.exists_tags_eq_iff numbers_methods).mp ⟨row.methods, rfl⟩
    rw [hrow]
    refine ⟨hsuites, hsuitesProper, hmethods, hmethodsProper, tail, ?_, ?_⟩
    · rw [row.encodeFields_hello]
    · exact (htail tail).mpr hread

/-- Behind an opening the lists decide, and the extensions behind these. -/
theorem fails_read_opening (o : Opening) :
    read.Fails (o.octets ++ tail) e
      ↔ readSuites.Fails tail e
        ∨ ∃ suites mid, readSuites.Accepts tail suites mid
          ∧ (readMethods.Fails mid e
            ∨ ∃ methods left, readMethods.Accepts mid methods left
              ∧ readExtensions.Fails left e) := by
  rw [o.octets_append, read,
    Reader.fails_bind_of_accepts (Version.accepts_read.mpr rfl),
    Reader.fails_bind_of_accepts (Random.accepts_read.mpr rfl),
    Reader.fails_bind_of_accepts (Token.accepts_read.mpr rfl),
    Reader.fails_bind_of_accepts (Token.accepts_read.mpr rfl)]
  simp only [Reader.fails_bind, Reader.not_fails_pure, and_false, exists_false, or_false]

/-- Other than for being too short, an input without an opening is blamed for its session id. -/
theorem blamed_or_opening (he : e ≠ .truncated) (h : read.Fails input e) :
    Blamed input e ∨ ∃ (o : Opening) (tail : Bytes), input = o.octets ++ tail := by
  unfold read at h
  rw [Reader.fails_bind] at h
  rcases h with h | ⟨version, _, hversion, h⟩
  · exact absurd (Version.onlyTruncates_read _ _ h) he
  rw [Reader.fails_bind] at h
  rcases h with h | ⟨random, _, hrandom, h⟩
  · exact absurd (Random.onlyTruncates_read _ _ h) he
  rw [Version.accepts_read] at hversion
  rw [Random.accepts_read] at hrandom
  rw [Reader.fails_bind] at h
  rcases h with h | ⟨sessionId, _, hsessionId, h⟩
  · left
    obtain ⟨length, more, hmore, hlong, rfl⟩ := (Token.fails_read_iff he).mp h
    subst hmore hrandom hversion
    have hfront : (version.encode ++ random.encode).length = 34 := by
      simp [Version.encode, Random.encodedLength]
    rw [← List.append_assoc]
    exact .sessionId ⟨_, hfront⟩ length more hlong
  rw [Reader.fails_bind] at h
  rcases h with h | ⟨cookie, tail, hcookie, -⟩
  · exact absurd (Token.onlyTruncates_read_cookie _ _ h) he
  right
  rw [Token.accepts_read] at hsessionId hcookie
  subst hcookie hsessionId hrandom hversion
  let o : Opening := ⟨version, random, sessionId.bytes, cookie.bytes, sessionId.length_bytes,
    cookie.length_bytes⟩
  exact ⟨o, tail, (o.octets_append tail).symm⟩

/-- Other than for being too short, an input is blamed only for a defect that it has. -/
theorem blamed_of_fails_read (he : e ≠ .truncated) (h : read.Fails input e) : Blamed input e := by
  rcases blamed_or_opening he h with hblamed | ⟨o, tail, rfl⟩
  · exact hblamed
  -- with an opening the suites may be to blame,
  rw [fails_read_opening, fails_readSuites_iff he] at h
  rcases h with (⟨length, more, hbad, rfl, rfl⟩ | ⟨count, more, hmany, hspan, hthere, rfl, rfl⟩)
    | ⟨_, mid, hsuites, h⟩
  · rw [← List.append_assoc]
    exact .suitesLength o length more hbad
  · rw [← List.append_assoc]
    exact .tooManySuites o count more hmany hspan hthere
  -- with suites the methods,
  obtain ⟨suites, -, rfl⟩ := accepts_readSuites_iff_ids.mp hsuites
  rw [fails_readMethods_iff he] at h
  rcases h with (⟨more, rfl, rfl⟩ | ⟨count, more, hmany, hthere, rfl, rfl⟩)
    | ⟨_, left, hmethods, h⟩
  · rw [← List.append_assoc]
    exact .noMethods o suites more
  · rw [← List.append_assoc]
    exact .tooManyMethods o suites count more hmany hthere
  -- and with methods the extensions
  obtain ⟨methods, -, rfl⟩ := accepts_readMethods_iff_ids.mp hmethods
  obtain ⟨hne, hrefused⟩ := fails_readExtensions_iff.mp h
  have hblamed := Blamed.extensions ⟨o, suites, methods⟩ left e hne hrefused
  rw [Row.octets_append] at hblamed
  exact hblamed

/-- What is to blame is blamed: everything to the left of it is read. -/
theorem Blamed.fails_read (h : Blamed input e) : read.Fails input e := by
  rcases h with ⟨front, length, more, hlong⟩ | ⟨o, length, more, hbad⟩
    | ⟨o, count, more, hmany, hspan, hthere⟩ | ⟨o, suites, more⟩
    | ⟨o, suites, count, more, hmany, hthere⟩ | ⟨row, tail, e, hne, hrefused⟩
  -- any 34 octets are a version and a random field
  · obtain ⟨version, hversion⟩ := Version.exists_encode (front.bytes.take 2) (by
      simp [front.length_bytes])
    obtain ⟨random, hrandom⟩ := Random.exists_encode (front.bytes.drop 2) (by
      simp [front.length_bytes])
    have hfront : front.bytes = version.encode ++ random.encode := by
      rw [hversion, hrandom, List.take_append_drop]
    rw [hfront, List.append_assoc, read,
      Reader.fails_bind_of_accepts (Version.accepts_read.mpr rfl),
      Reader.fails_bind_of_accepts (Random.accepts_read.mpr rfl), Reader.fails_bind]
    exact .inl ((Token.fails_read_iff (by simp)).mpr ⟨length, more, rfl, hlong, rfl⟩)
  · rw [List.append_assoc, fails_read_opening, fails_readSuites_iff (by simp)]
    exact .inl (.inl ⟨length, more, hbad, rfl, rfl⟩)
  · rw [List.append_assoc, fails_read_opening, fails_readSuites_iff (by simp)]
    exact .inl (.inr ⟨count, more, hmany, hspan, hthere, rfl, rfl⟩)
  · rw [List.append_assoc, fails_read_opening]
    refine .inr ⟨_, _, accepts_readSuites_iff_ids.mpr ⟨suites, rfl, rfl⟩, .inl ?_⟩
    exact (fails_readMethods_iff (by simp)).mpr (.inl ⟨more, rfl, rfl⟩)
  · rw [List.append_assoc, fails_read_opening]
    refine .inr ⟨_, _, accepts_readSuites_iff_ids.mpr ⟨suites, rfl, rfl⟩, .inl ?_⟩
    exact (fails_readMethods_iff (by simp)).mpr (.inr ⟨count, more, hmany, hthere, rfl, rfl⟩)
  · rw [row.octets_append, fails_read_opening]
    refine .inr ⟨_, _, accepts_readSuites_iff_ids.mpr ⟨row.suites, rfl, rfl⟩, .inr ?_⟩
    refine ⟨_, _, accepts_readMethods_iff_ids.mpr ⟨row.methods, rfl, rfl⟩, ?_⟩
    exact fails_readExtensions_iff.mpr ⟨hne, hrefused⟩

/-- Only these things are said of a hello. -/
theorem eq_of_fails_read (h : read.Fails input e) :
    e = .truncated
      ∨ (∃ length, 32 < length ∧ length ≤ 255 ∧ e = .doesNotFit .sessionId length 32)
      ∨ e = .framing .cipherSuitesLength ∨ e = .tooMany .cipherSuites 64
      ∨ e = .framing .noCompressionMethods ∨ e = .tooMany .compressionMethods 4
      ∨ e = .framing .extensionOverrun := by
  by_cases he : e = .truncated
  · exact .inl he
  rcases blamed_of_fails_read he h with ⟨_, length, _, hlong⟩ | _ | _ | _ | _
    | ⟨_, _, _, _, hrefused⟩
  · have hlt := length.toNat_lt
    exact .inr (.inl ⟨length.toNat, hlong, by omega, rfl⟩)
  · simp
  · simp
  · simp
  · simp
  · rcases Extensions.eq_of_fails_read hrefused with rfl | rfl
    · exact absurd rfl he
    · simp

/-- **The verdicts on a hello.** An input is accepted exactly where it is a row of fields with a
tail, and then it is read as the hello of that row, with the extensions that the tail is read as.
Any other input is blamed for its leftmost defect, if it has one that can be named, and is too short
otherwise. Nothing but these seven things is said of an input. -/
theorem grammar_verdicts (input : Bytes) :
    (∀ h rest, read.Accepts input h rest ↔ Spells input h rest)
    ∧ (∀ e, read.Fails input e
        ↔ Blamed input e
          ∨ e = .truncated ∧ (¬ ∃ h rest, Spells input h rest) ∧ ∀ e', ¬ Blamed input e')
    ∧ (∀ e, read.Fails input e →
        e = .truncated
        ∨ (∃ length, 32 < length ∧ length ≤ 255 ∧ e = .doesNotFit .sessionId length 32)
        ∨ e = .framing .cipherSuitesLength ∨ e = .tooMany .cipherSuites 64
        ∨ e = .framing .noCompressionMethods ∨ e = .tooMany .compressionMethods 4
        ∨ e = .framing .extensionOverrun) := by
  refine ⟨?_, ?_, ?_⟩
  · intro h rest
    exact accepts_read_iff_spells
  · intro e
    simp only [← accepts_read_iff_spells]
    constructor
    · intro hfails
      by_cases hblamed : Blamed input e
      · exact .inl hblamed
      -- only for being too short an input is blamed without a defect
      · have he : e = .truncated := by
          by_cases he : e = .truncated
          · exact he
          · exact absurd (blamed_of_fails_read he hfails) hblamed
        refine .inr ⟨he, ?_, ?_⟩
        · rintro ⟨h, rest, hread⟩
          exact hread.not_fails hfails
        · intro e' hblamed'
          rw [hfails.unique hblamed'.fails_read] at hblamed
          exact hblamed hblamed'
    · rintro (hblamed | ⟨rfl, hread, hblamed⟩)
      · exact hblamed.fails_read
      · obtain ⟨e, he⟩ := Reader.exists_fails_of_not_accepts hread
        by_cases hshort : e = .truncated
        · rw [← hshort]
          exact he
        · exact absurd (blamed_of_fails_read hshort he) (hblamed e)
  · intro e h
    exact eq_of_fails_read h

/-- An input that ends behind the length of a session id with 33 octets. -/
def cutSessionId : Bytes := List.replicate 34 0 ++ [33]

/-- The row of a hello with one suite and no compression. -/
def plainRow : Row where
  opening := ⟨Version.dtls12, ⟨0, Octets.zero 28⟩, [], [], by decide, by decide⟩
  suites := ⟨[0xc02b], by decide, by decide⟩
  methods := ⟨[0], by decide, by decide⟩

/-- A session id is too long before it is cut short, and a hello is read from its row with an empty
block, whatever is left behind. -/
theorem grammar_verdicts_cutSessionId :
    read.Fails cutSessionId (.doesNotFit .sessionId 33 32)
      ∧ (∃ length, 32 < length ∧ length ≤ 255
          ∧ Error.doesNotFit .sessionId 33 32 = .doesNotFit .sessionId length 32)
      ∧ read.Accepts (plainRow.octets ++ [0, 0, 7]) (plainRow.hello {}) [7] := by
  obtain ⟨-, hfails, herrors⟩ := grammar_verdicts cutSessionId
  obtain ⟨haccepts, -, -⟩ := grammar_verdicts (plainRow.octets ++ [0, 0, 7])
  have hblamed : Blamed cutSessionId (.doesNotFit .sessionId 33 32) :=
    .sessionId ⟨List.replicate 34 0, rfl⟩ 33 [] (by decide)
  have hread : read.Fails cutSessionId (.doesNotFit .sessionId 33 32) :=
    (hfails _).mpr (.inl hblamed)
  have hblock : Extensions.read.Accepts [0, 0, 7] {} [7] := by
    refine Extensions.accepts_read.mpr ⟨?_, by decide, rfl⟩
    intro x hx
    contradiction
  refine ⟨hread, ?_, ?_⟩
  -- of the seven things it is the second
  · rcases herrors _ hread with h | hlength | h
    · contradiction
    · exact hlength
    · simp at h
  · exact (haccepts _ _).mpr ⟨plainRow, [0, 0, 7], rfl, rfl, .inr ⟨by decide, hblock⟩⟩

end ClientHello

end DatagramHello
