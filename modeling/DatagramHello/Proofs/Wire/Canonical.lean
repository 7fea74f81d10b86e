/-
Tags as the wire sees them.

Two tags with one number are the same octets, so a reader can give back only
one of them: the registered name where the number has one. A tag is *proper*
when it is that one, that is, when it is not an unassigned number that a name
was assigned to. `canonical` makes a tag proper and keeps its octets; proper
tags are its fixed points. A tag that was read is proper, so improper ones are
built by callers only.

The list readers need one fact more: cutting a field of whole tags apart and
writing the tags again gives the field, and cutting apart what was written
gives the canonical tags. All lists stand behind their number of octets, and
readers differ in which numbers they let through; `accepts_counted` leaves that
open, so it says for every list which octets it is read from.
-/
import DatagramHello.Proofs.Wire.Accepts
import DatagramHello.Wire.AtMost

set_option autoImplicit false

namespace DatagramHello

namespace Tag

variable {κ : Type} [Registry κ]

/-! ## Proper tags

A tag is a name or a number without one. The second kind can be built with a number that has a name,
and such a tag is written like the named one but is never read. -/

/-- The tag is not an unassigned number that has a name. -/
def Proper : Tag κ → Prop
  | .registered _ => True
  | .unassigned n => ∀ k : κ, Registry.number k ≠ n

/-- A tag that was looked up for its number is the proper one. -/
theorem proper_ofId {n : Nat} (h : n < Bytes.span (Registry.width κ)) :
    (ofId n : Tag κ).Proper := by
  unfold ofId
  split
  case h_1 => trivial
  case h_2 hnone =>
    intro k
    -- every name is in the list that was searched, so none has the number
    have hk := List.find?_eq_none.mp hnone k (Registry.mem_all k)
    simpa [Nat.mod_eq_of_lt h] using hk

/-- The canonical form of a tag is proper. -/
@[simp] theorem proper_canonical (t : Tag κ) : t.canonical.Proper :=
  proper_ofId t.id_lt

/-- Proper tags are their own canonical form. -/
theorem Proper.canonical_eq {t : Tag κ} (h : t.Proper) : t.canonical = t := by
  rcases t with k | n
  · exact canonical_registered k
  · have hnone : (Registry.all : List κ).find? (fun k => Registry.number k == n.val) = none := by
      refine List.find?_eq_none.mpr fun k _ => ?_
      simpa using h k
    simp only [canonical, ofId, id, hnone, keep, Nat.mod_eq_of_lt n.isLt]

/-- Making a tag proper does not change its octets. -/
@[simp] theorem encode_canonical (t : Tag κ) : t.canonical.encode = t.encode := by
  simp only [encode, id_canonical]

/-- Tags with one encoding have one number, so reading makes one tag of them. -/
theorem canonical_eq_of_encode_eq {t u : Tag κ} (h : t.encode = u.encode) :
    t.canonical = u.canonical := by
  have hid : t.id = u.id := (Bytes.bigEndian_inj t.id_lt u.id_lt).mp h
  rw [canonical, hid, canonical]

/-- A tag is read exactly where its octets stand, and then it is proper. -/
theorem accepts_read {input rest : Bytes} {t : Tag κ} :
    (Tag.read : Reader (Tag κ)).Accepts input t rest ↔ t.Proper ∧ input = t.encode ++ rest := by
  simp only [Tag.read, Reader.accepts_bind, Reader.accepts_number, Reader.accepts_pure]
  constructor
  · rintro ⟨n, mid, rfl, rfl, rfl⟩
    -- the number that was read is the number of the tag made from it
    refine ⟨proper_ofId n.isLt, ?_⟩
    rw [encode, id_ofId n.isLt]
  · rintro ⟨hproper, rfl⟩
    exact ⟨⟨t.id, t.id_lt⟩, rest, rfl, hproper.canonical_eq, rfl⟩

/-! ## Runs of tags

A list of tags is written tag by tag, and read by cutting a field into pieces of the width. The two
undo each other up to the canonical form. -/

/-- A run of tags is written tag by tag. -/
@[simp] theorem encodeList_cons (t : Tag κ) (ts : List (Tag κ)) :
    encodeList (t :: ts) = t.encode ++ encodeList ts := by
  simp [encodeList]

/-- Making every tag of a run proper does not change its octets. -/
@[simp] theorem encodeList_map_canonical (ts : List (Tag κ)) :
    encodeList (ts.map canonical) = encodeList ts := by
  induction ts with
  | nil => rfl
  | cons t ts ih => simp [ih]

/-- A run of proper tags is its own canonical form. -/
theorem map_canonical_of_proper {ts : List (Tag κ)} (h : ∀ t ∈ ts, t.Proper) :
    ts.map canonical = ts :=
  calc ts.map canonical = ts.map (fun t => t) :=
        List.map_congr_left fun t ht => (h t ht).canonical_eq
    _ = ts := List.map_id' ts

/-- Cutting a written run apart gives its tags back, each as its number's own. -/
theorem decodeList_encodeList (ts : List (Tag κ)) :
    decodeList ts.length (encodeList ts) = ts.map canonical := by
  induction ts with
  | nil => rfl
  | cons t ts ih =>
    -- all tags of a registry have one width, so the first one is cut off exactly
    have hfront : (t.encode ++ encodeList ts).take (Registry.width κ) = t.encode :=
      List.take_left' t.length_encode
    have hback : (t.encode ++ encodeList ts).drop (Registry.width κ) = encodeList ts :=
      List.drop_left' t.length_encode
    rw [encodeList_cons, List.length_cons, decodeList, hfront, hback, ih, List.map_cons, canonical,
      encode, Bytes.number_bigEndian, Nat.mod_eq_of_lt t.id_lt]

/-- The octets of a run are those of its numbers. -/
theorem encodeList_eq_flatMap (ts : List (Tag κ)) :
    encodeList ts = (ts.map id).flatMap (Bytes.bigEndian (Registry.width κ)) := by
  rw [List.flatMap_map]
  rfl

/-- Two runs are the same octets when they are the same numbers. -/
theorem encodeList_eq_iff {ts us : List (Tag κ)} (hwidth : 0 < Registry.width κ) :
    encodeList ts = encodeList us ↔ ts.map id = us.map id := by
  constructor
  · intro h
    have hlength := congrArg List.length h
    rw [length_encodeList, length_encodeList] at hlength
    have hcount : ts.length = us.length := Nat.eq_of_mul_eq_mul_left hwidth hlength
    -- cut apart again, both runs give one list of canonical tags
    have hcanonical : ts.map canonical = us.map canonical := by
      rw [← decodeList_encodeList, ← decodeList_encodeList, hcount, h]
    have hid (vs : List (Tag κ)) : (vs.map canonical).map id = vs.map id := by
      simp
    rw [← hid ts, hcanonical, hid us]
  · intro h
    rw [encodeList_eq_flatMap, h, ← encodeList_eq_flatMap]

/-- A count in front of a run adds nothing to what the run says. -/
theorem counted_encodeList_eq_iff {ts us : List (Tag κ)} (hwidth : 0 < Registry.width κ)
    (width factor : Nat) :
    Bytes.bigEndian width (factor * ts.length) ++ encodeList ts
        = Bytes.bigEndian width (factor * us.length) ++ encodeList us
      ↔ ts.map id = us.map id := by
  rw [← encodeList_eq_iff hwidth]
  constructor
  · intro h
    exact (List.append_inj h (by simp)).2
  · intro h
    have hcount : ts.length = us.length := by
      simpa using congrArg List.length ((encodeList_eq_iff hwidth).mp h)
    rw [h, hcount]

/-- Writing the tags that a run of octets was cut into gives the octets again. -/
theorem encodeList_decodeList (count : Nat) (bs : Bytes)
    (h : bs.length = Registry.width κ * count) :
    encodeList (decodeList count bs : List (Tag κ)) = bs := by
  induction count generalizing bs with
  | zero =>
    rw [Nat.mul_zero, List.length_eq_zero_iff] at h
    rw [h]
    rfl
  | succ count ih =>
    rw [Nat.mul_succ] at h
    have hfront : (bs.take (Registry.width κ)).length = Registry.width κ := by
      rw [List.length_take]
      omega
    have hback : (bs.drop (Registry.width κ)).length = Registry.width κ * count := by
      rw [List.length_drop]
      omega
    -- the front is spelled again, and the induction spells what is behind it
    rw [decodeList, encodeList_cons, encode, id_ofId (Bytes.number_lt hfront),
      Bytes.bigEndian_number hfront, ih _ hback, List.take_append_drop]

/-- Cutting a field apart gives proper tags only. -/
theorem proper_of_mem_decodeList {count : Nat} {bs : Bytes}
    (h : bs.length = Registry.width κ * count) {t : Tag κ} (ht : t ∈ decodeList count bs) :
    t.Proper := by
  induction count generalizing bs with
  | zero => simp [decodeList] at ht
  | succ count ih =>
    rw [Nat.mul_succ] at h
    have hfront : (bs.take (Registry.width κ)).length = Registry.width κ := by
      rw [List.length_take]
      omega
    rw [decodeList] at ht
    rcases List.mem_cons.mp ht with rfl | hmem
    · exact proper_ofId (Bytes.number_lt hfront)
    · apply ih _ hmem
      rw [List.length_drop]
      omega

/-! ## Tags for numbers

The list parsers of suites, methods, curves and point formats meet numbers of two widths only.
`Numbers` gives for each width the type of its numbers, so that a statement over all octets of a
field can be made about the list of numbers it spells. -/

/-- The numbers that the registry of `κ` may assign, with `number` to say which. -/
def Numbers (κ : Type) [Registry κ] {ν : Type} (number : ν → Nat) : Prop :=
  ∀ n, (∃ i, number i = n) ↔ n < Bytes.span (Registry.width κ)

section Numbers

variable {ν : Type} {number : ν → Nat}

/-- Every number that the registry may assign fits into the octets of a tag. -/
theorem Numbers.lt (h : Numbers κ number) (i : ν) :
    number i < Bytes.span (Registry.width κ) :=
  (h (number i)).mp ⟨i, rfl⟩

/-- The tags for some numbers are the octets of these numbers. -/
theorem Numbers.encodeList_map_ofId (h : Numbers κ number) (is : List ν) :
    encodeList (is.map fun i => (ofId (number i) : Tag κ))
      = is.flatMap fun i => Bytes.bigEndian (Registry.width κ) (number i) := by
  have hids : (is.map fun i => (ofId (number i) : Tag κ)).map id = is.map number := by
    rw [List.map_map]
    exact List.map_congr_left fun i _ => id_ofId (h.lt i)
  rw [encodeList_eq_flatMap, hids, List.flatMap_map]

/-- The tags for some numbers are proper, and proper tags are the tags for some numbers. -/
theorem Numbers.exists_map_ofId_eq_iff (h : Numbers κ number) {ts : List (Tag κ)} :
    (∃ is : List ν, (is.map fun i => (ofId (number i) : Tag κ)) = ts) ↔ ∀ t ∈ ts, t.Proper := by
  constructor
  · rintro ⟨is, rfl⟩ t ht
    obtain ⟨i, -, rfl⟩ := List.mem_map.mp ht
    exact proper_ofId (h.lt i)
  · intro hproper
    induction ts with
    | nil => exact ⟨[], rfl⟩
    | cons t ts ih =>
      obtain ⟨hfirst, hothers⟩ := List.forall_mem_cons.mp hproper
      obtain ⟨is, rfl⟩ := ih hothers
      obtain ⟨i, hi⟩ := (h t.id).mpr t.id_lt
      refine ⟨i :: is, ?_⟩
      have ht : (ofId (number i) : Tag κ) = t := by
        rw [hi]
        exact hfirst.canonical_eq
      rw [List.map_cons, ht]

/-- A list of proper tags and its octets, behind whatever `front` says of their number, are some
numbers and theirs. -/
theorem Numbers.exists_octets_iff (h : Numbers κ number) {max : Nat} {xs : AtMost max (Tag κ)}
    {octets : Bytes} (front : Nat → Bytes) :
    (∃ is : List ν, is.length ≤ max
        ∧ octets = front is.length
            ++ is.flatMap (fun i => Bytes.bigEndian (Registry.width κ) (number i))
        ∧ xs.items = is.map fun i => ofId (number i))
      ↔ (∀ t ∈ xs.items, t.Proper) ∧ octets = front xs.items.length ++ encodeList xs.items := by
  rw [← h.exists_map_ofId_eq_iff]
  constructor
  · rintro ⟨is, -, rfl, hitems⟩
    refine ⟨⟨is, hitems.symm⟩, ?_⟩
    rw [hitems, List.length_map, h.encodeList_map_ofId]
  · rintro ⟨⟨is, hitems⟩, rfl⟩
    have hmax := xs.length_items
    rw [← hitems, List.length_map] at hmax
    refine ⟨is, hmax, ?_, hitems.symm⟩
    rw [← hitems, List.length_map, h.encodeList_map_ofId]

end Numbers

/-- A registry of two octets assigns the numbers of 16 bits. -/
theorem numbers_halfword (hwidth : Registry.width κ = 2) : Numbers κ UInt16.toNat := by
  intro n
  rw [hwidth]
  constructor
  · rintro ⟨id, rfl⟩
    exact id.toNat_lt
  · intro h
    exact ⟨UInt16.ofNat n, Bytes.toNat_halfword h⟩

/-- A registry of one octet assigns the numbers of 8 bits. -/
theorem numbers_octet (hwidth : Registry.width κ = 1) : Numbers κ UInt8.toNat := by
  intro n
  rw [hwidth]
  constructor
  · rintro ⟨id, rfl⟩
    exact id.toNat_lt
  · intro h
    exact ⟨UInt8.ofNat n, UInt8.toNat_ofNat_of_lt' h⟩

/-! ## Reading a list

A list parser is told how many octets the list has. It takes them, and cuts them apart if the list
has room for so many tags. -/

/-- A list of tags is read exactly where the octets of that many proper tags stand. The octet count
is a multiple of the width: only then does every octet belong to a tag. -/
theorem accepts_readList {max count : Nat} {list : Listing} {input rest : Bytes}
    {xs : AtMost max (Tag κ)} (hwidth : 0 < Registry.width κ) :
    (readList max list (Registry.width κ * count)).Accepts input xs rest
      ↔ xs.items.length = count ∧ (∀ t ∈ xs.items, t.Proper)
        ∧ input = encodeList xs.items ++ rest := by
  simp only [readList, Reader.accepts_bind, Reader.accepts_take, Nat.mul_div_cancel_left _ hwidth]
  constructor
  · rintro ⟨field, mid, rfl, hread⟩
    -- the octets are taken before the room for the tags is looked at
    by_cases hroom : count ≤ max
    · rw [dif_pos hroom, Reader.accepts_pure] at hread
      obtain ⟨rfl, rfl⟩ := hread
      refine ⟨length_decodeList count field.bytes, ?_, ?_⟩
      · exact fun t ht => proper_of_mem_decodeList field.length_bytes ht
      · rw [encodeList_decodeList count field.bytes field.length_bytes]
    · rw [dif_neg hroom] at hread
      exact absurd hread Reader.not_accepts_fail
  · rintro ⟨rfl, hproper, rfl⟩
    refine ⟨⟨encodeList xs.items, length_encodeList xs.items⟩, rest, rfl, ?_⟩
    rw [dif_pos xs.length_items, Reader.accepts_pure]
    refine ⟨?_, rfl⟩
    -- the tags come back canonical, and these are canonical already
    obtain ⟨items, hitems⟩ := xs
    simp only [decodeList_encodeList, map_canonical_of_proper hproper]

/-- A list behind its number of octets, where `p` says which numbers are let through: whole tags
only, whatever else it asks. -/
theorem accepts_counted {width max : Nat} {list : Listing} {input rest : Bytes}
    {xs : AtMost max (Tag κ)} (p : Nat → Prop) (hwidth : 0 < Registry.width κ)
    (hspan : Registry.width κ * max < Bytes.span width)
    (hwhole : ∀ n, p n → Registry.width κ ∣ n) :
    (∃ (octets : Fin (Bytes.span width)) (mid : Bytes), input = Bytes.bigEndian width octets ++ mid
        ∧ p octets ∧ (readList max list octets).Accepts mid xs rest)
      ↔ p (Registry.width κ * xs.items.length) ∧ (∀ t ∈ xs.items, t.Proper)
        ∧ input = Bytes.bigEndian width (Registry.width κ * xs.items.length)
            ++ encodeList xs.items ++ rest := by
  constructor
  · rintro ⟨octets, mid, rfl, hp, hread⟩
    obtain ⟨count, hcount⟩ := hwhole octets hp
    rw [hcount] at hp hread ⊢
    obtain ⟨rfl, hproper, rfl⟩ := (accepts_readList hwidth).mp hread
    exact ⟨hp, hproper, (List.append_assoc _ _ _).symm⟩
  · rintro ⟨hp, hproper, rfl⟩
    -- no list has more tags than its count can say
    have hlt : Registry.width κ * xs.items.length < Bytes.span width :=
      Nat.lt_of_le_of_lt (Nat.mul_le_mul_left _ xs.length_items) hspan
    exact ⟨⟨_, hlt⟩, _, List.append_assoc _ _ _, hp,
      (accepts_readList hwidth).mpr ⟨rfl, hproper, rfl⟩⟩

end Tag

end DatagramHello
