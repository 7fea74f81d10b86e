/-
What is logged of a message.

Of all the readers that a message goes through, only the loop over its
extensions logs something in passing. Those of the fields are mute and can be
taken off, so behind the header of a frame and the row of a hello, what the
message is told is what its extensions block is told. A message that does not
get that far is told nothing but, at most, that it is refused.

So the log has two parts. The first is a matter of the octets alone: the notes
of the tiles that are met in the block, whatever becomes of the message
afterwards. The second is a matter of the verdict alone: one event for a
fragment, for a kind without a decoder, for an extension that overruns and for
octets left of the body, and none for anything else, be it read or refused.
-/
import DatagramHello.Proofs.Extension.Logs
import DatagramHello.Proofs.Handshake.Framing
import DatagramHello.Proofs.Hello.Grammar

set_option autoImplicit false

namespace DatagramHello

open Bytes (bigEndian span)
open Extension (Tile notes level_of_mem_notes)
open Reader (Told)

variable {input rest : Bytes} {said : List Event}

/-! ## Fields

All readers of fields are mute: what they refuse is reported by the error alone. -/

/-- A version is read without a word. -/
theorem Version.mute_read : Version.read.Mute :=
  Reader.mute_octet.bind fun _ => Reader.mute_octet.bind fun _ => Reader.mute_pure _

/-- A random field is read without a word. -/
theorem Random.mute_read : Random.read.Mute :=
  (Reader.mute_number 4).bind fun _ => (Reader.mute_take 28).bind fun _ => Reader.mute_pure _

/-- A token is read or refused without a word. -/
theorem Token.mute_read (kind : TokenKind) : (Token.read kind).Mute :=
  (Reader.mute_number 1).bind fun _ =>
    .dite (fun _ => (Reader.mute_take _).bind fun _ => Reader.mute_pure _)
      fun _ => Reader.mute_fail not_false

/-- The answer with the cookie is read without a word. -/
theorem HelloVerify.mute_read : HelloVerify.read.Mute :=
  Version.mute_read.bind fun _ => (Token.mute_read .cookie).bind fun _ => Reader.mute_pure _

/-- A header is read without a word. -/
theorem Header.mute_read : Header.read.Mute :=
  Tag.mute_read.bind fun _ => (Reader.mute_number 3).bind fun _ =>
    (Reader.mute_number 2).bind fun _ => (Reader.mute_number 3).bind fun _ =>
      (Reader.mute_number 3).bind fun _ => Reader.mute_pure _

/-! ## The client hello

The row in front of the block is taken off field by field. Where it is there, the hello is told what
its block is told; where it is not, nothing. -/

namespace ClientHello

/-- The cipher suites are read or refused without a word. -/
theorem mute_readSuites : readSuites.Mute :=
  (Reader.mute_number 2).bind fun _ =>
    .ite (Reader.mute_fail not_false) (Tag.mute_readList 64 .cipherSuites _)

/-- The compression methods are read or refused without a word. -/
theorem mute_readMethods : readMethods.Mute :=
  (Reader.mute_number 1).bind fun _ =>
    .ite (Reader.mute_fail not_false) (Tag.mute_readList 4 .compressionMethods _)

/-- Behind a row the extensions are all that has something to say. -/
theorem told_read_row {row : Row} {tail : Bytes} (h : Told said (readExtensions tail)) :
    Told said (read (row.octets ++ tail)) := by
  rw [row.octets_append, Opening.octets_append, read,
    Version.mute_read.bind_of_accepts (Version.accepts_read.mpr rfl),
    Random.mute_read.bind_of_accepts (Random.accepts_read.mpr rfl),
    (Token.mute_read .sessionId).bind_of_accepts (Token.accepts_read.mpr rfl),
    (Token.mute_read .cookie).bind_of_accepts (Token.accepts_read.mpr rfl),
    mute_readSuites.bind_of_accepts (accepts_readSuites_iff_ids.mpr ⟨row.suites, rfl, rfl⟩),
    mute_readMethods.bind_of_accepts (accepts_readMethods_iff_ids.mpr ⟨row.methods, rfl, rfl⟩)]
  exact h.bind fun _ _ _ => (Reader.mute_pure _).told _

/-- Where something is left behind the methods, it is the block that is read, log and all. -/
theorem readExtensions_apply_of_ne_nil (h : input ≠ []) :
    readExtensions input = Extensions.read input := by
  rw [readExtensions, Reader.mute_atEnd.bind_of_accepts (Reader.accepts_atEnd.mpr ⟨rfl, rfl⟩),
    if_neg (by simpa using h)]

/-- A hello that gets to its block is told the notes of the tiles there. -/
theorem told_read_met {row : Row} {announced : UInt16} {d : Bytes} {ts : List Tile}
    (h : Extensions.Met announced.toNat d ts) :
    Told (notes (ts.map Tile.extension))
      (read (row.octets ++ (bigEndian 2 announced.toNat ++ d))) := by
  have hne : bigEndian 2 announced.toNat ++ d ≠ [] := by simp [bigEndian]
  refine told_read_row ?_
  rw [readExtensions_apply_of_ne_nil hne]
  exact Extensions.told_read (Extensions.accepts_announced announced) h

/-- A hello that was read is told the notes of its extensions. -/
theorem told_read_of_accepts {h : ClientHello} (hread : read.Accepts input h rest) :
    Told (notes h.extensions.entries) (read input) := by
  obtain ⟨row, tail, rfl, -, htail⟩ := accepts_read_iff_spells.mp hread
  refine told_read_row ?_
  rcases htail with ⟨rfl, -, hempty⟩ | ⟨hne, hblock⟩
  · rw [hempty]
    exact .read _
  · rw [readExtensions_apply_of_ne_nil hne]
    exact Extensions.told_read_of_accepts hblock

/-- A hello that does not get to a block is told nothing. -/
theorem told_read_of_no_block
    (h : ∀ (row : Row) (announced : UInt16) (d : Bytes),
      input ≠ row.octets ++ (bigEndian 2 announced.toNat ++ d)) :
    Told [] (read input) := by
  unfold read
  refine (Version.mute_read.told _).bind fun version _ hversion => ?_
  refine (Random.mute_read.told _).bind fun random _ hrandom => ?_
  refine ((Token.mute_read _).told _).bind fun sessionId _ hsessionId => ?_
  refine ((Token.mute_read _).told _).bind fun cookie _ hcookie => ?_
  refine (mute_readSuites.told _).bind fun _ _ hsuites => ?_
  refine (mute_readMethods.told _).bind fun _ tail hmethods => ?_
  refine Told.bind ?_ fun _ _ _ => (Reader.mute_pure _).told _
  by_cases hend : tail = []
  · rw [hend]
    exact .read _
  rw [readExtensions_apply_of_ne_nil hend]
  refine ((Reader.mute_number 2).told _).bind fun announced d hannounced => ?_
  -- with a length behind the methods there is a block after all
  rw [Version.accepts_read] at hversion
  rw [Random.accepts_read] at hrandom
  rw [Token.accepts_read] at hsessionId hcookie
  obtain ⟨suites, -, hsuites⟩ := accepts_readSuites_iff_ids.mp hsuites
  obtain ⟨methods, -, hmethods⟩ := accepts_readMethods_iff_ids.mp hmethods
  rw [Reader.accepts_number] at hannounced
  let row : Row :=
    { opening := ⟨version, random, sessionId.bytes, cookie.bytes, sessionId.length_bytes,
        cookie.length_bytes⟩
      suites
      methods }
  have hword : (UInt16.ofNat announced).toNat = announced := Bytes.toNat_halfword announced.isLt
  refine absurd ?_ (h row (UInt16.ofNat announced) d)
  rw [row.octets_append, Opening.octets_append, hword, ← hannounced, ← hmethods, ← hsuites,
    hversion, hrandom, hsessionId, hcookie]

end ClientHello

/-! ## Bodies

A body passes on what its hello is told. A kind without a decoder is refused with an event of its
own. -/

namespace Body

/-- The extensions of a client hello, and none of an answer to one. -/
def entries : Body → List Extension
  | .clientHello h => h.extensions.entries
  | .helloVerify _ => []

/-- A body that was read is told the notes of its extensions. -/
theorem told_read_of_accepts {type : MessageType} {b : Body}
    (hread : (read type).Accepts input b rest) : Told (notes b.entries) (read type input) := by
  unfold read at hread ⊢
  split at hread
  · obtain ⟨h, hhello, rfl⟩ := Reader.accepts_map.mp hread
    exact (ClientHello.told_read_of_accepts hhello).map
  · obtain ⟨r, -, rfl⟩ := Reader.accepts_map.mp hread
    exact (HelloVerify.mute_read.told input).map
  · exact absurd hread Reader.not_accepts_refuse

/-- A body is told nothing unless it is a client hello that gets to a block. Its kind may not be
understood, and then that is all that is said. -/
theorem told_read_of_no_block {type : MessageType}
    (h : type = .registered .clientHello →
      ∀ (row : ClientHello.Row) (announced : UInt16) (d : Bytes),
        input ≠ row.octets ++ (bigEndian 2 announced.toNat ++ d)) :
    Told [] (read type input) := by
  unfold read
  split
  · exact (ClientHello.told_read_of_no_block (h rfl)).map
  · exact (HelloVerify.mute_read.told input).map
  · exact Reader.told_refuse rfl input

end Body

/-! ## Messages

The header is mute, the refusals behind it are told by themselves, and what is inside the frame is
told by the body. -/

namespace Handshake

variable {hd : Header} {config : Config} {limit : Nat} {d s : Bytes}

/-- A body that is there is told what its own reader is told. -/
theorem told_readBody (hlength : d.length = hd.length.toNat) (h : Told said (Body.read hd.type d)) :
    Told said (readBody hd (d ++ s)) := by
  rw [readBody, (Reader.mute_take _).bind_of_accepts (accepts_take_body hlength s)]
  refine h.inside.bind ?_
  rintro ⟨b, excess⟩ left -
  by_cases hexcess : excess.isEmpty
  · simp only [if_pos hexcess]
    exact .read _
  · simp only [if_neg hexcess]
    exact Reader.told_refuse rfl left

/-- The body of a frame within the limit is all of the message that has something to say. -/
theorem told_decode_frame (type : MessageType) (seq : UInt16) (hspan : d.length < span 3)
    (hle : d.length ≤ config.maxMessageLength) (h : Told said (Body.read type.canonical d)) :
    Told said (decode config (frame type seq d ++ s)) := by
  obtain ⟨hd, hhead, hwhole, hlength, htype, -⟩ := exists_accepts_header_frame type seq hspan s
  rw [decode]
  refine Told.whole ?_ not_false
  rw [read_eq_bind, Header.mute_read.bind_of_accepts hhead,
    readBehind_of_le hwhole (hlength ▸ hle)]
  rw [← htype] at h
  exact told_readBody hlength h

/-- A frame within the limit is blamed for what its body is blamed for. -/
theorem value_decode_frame_of_fails {e : Error} (type : MessageType) (seq : UInt16)
    (hspan : d.length < span 3) (hle : d.length ≤ config.maxMessageLength)
    (h : (Body.read type.canonical).Fails d e) :
    (decode config (frame type seq d ++ s)).value = .error e := by
  obtain ⟨hd, hhead, hwhole, hlength, htype, -⟩ := exists_accepts_header_frame type seq hspan s
  refine Reader.whole_eq_error_iff.mpr (.inl ?_)
  rw [fails_read_of_header hhead, readBehind_of_le hwhole (hlength ▸ hle), fails_readBody hlength,
    htype]
  exact .inl h

/-- The message is a client hello that is read up to the length of its extensions block, which is
`announced`, and `d` is what is left of its body. -/
def ReachesBlock (limit : Nat) (input : Bytes) (announced : UInt16) (d : Bytes) : Prop :=
  ∃ (seq : UInt16) (row : ClientHello.Row) (body more : Bytes),
    body = row.octets ++ (bigEndian 2 announced.toNat ++ d)
      ∧ body.length < 16777216 ∧ body.length ≤ limit
      ∧ input = frame (.registered .clientHello) seq body ++ more

/-- The tiles that are read in the extensions block of a message, none if it does not get there. -/
def Met (limit : Nat) (input : Bytes) (ts : List Tile) : Prop :=
  (∃ announced d, ReachesBlock limit input announced d ∧ Extensions.Met announced.toNat d ts)
    ∨ (¬ ∃ announced d, ReachesBlock limit input announced d) ∧ ts = []

/-- Of every message some run of tiles is met, if only the empty one. -/
theorem exists_met (limit : Nat) (input : Bytes) : ∃ ts, Met limit input ts := by
  by_cases hreach : ∃ announced d, ReachesBlock limit input announced d
  · obtain ⟨announced, d, hreach⟩ := hreach
    obtain ⟨ts, hts⟩ := Extensions.exists_met announced.toNat d
    exact ⟨ts, .inl ⟨announced, d, hreach, hts⟩⟩
  · exact ⟨[], .inr ⟨hreach, rfl⟩⟩

/-- Behind the header of a message in one piece, so many octets as it announces make a frame. -/
theorem eq_frame_of_accepts (hhead : Header.read.Accepts input hd (d ++ s))
    (hwhole : hd.isFragment = false) (hlength : d.length = hd.length.toNat) :
    d.length < span 3 ∧ input = frame hd.type hd.seq d ++ s := by
  obtain ⟨-, hspan, -, -, rfl⟩ := Header.accepts_read.mp hhead
  have hframe : Header.unfragmented hd.type (UInt32.ofNat d.length) hd.seq = hd := by
    rw [hlength, UInt32.ofNat_toNat]
    exact (Header.isFragment_eq_false_iff.mp hwhole).symm
  refine ⟨hlength ▸ hspan, ?_⟩
  rw [frame, hframe, List.append_assoc]

/-- A message that does not get to an extensions block is told nothing. -/
theorem told_decode_of_not_reached
    (h : ¬ ∃ announced d, ReachesBlock config.maxMessageLength input announced d) :
    Told [] (decode config input) := by
  rw [decode]
  refine Told.whole ?_ not_false
  rw [read_eq_bind]
  refine (Header.mute_read.told _).bind fun hd mid hhead => ?_
  rw [readBehind]
  by_cases hfragment : hd.isFragment = true
  · rw [if_pos hfragment]
    exact Reader.told_refuse rfl mid
  rw [if_neg hfragment]
  by_cases hlong : config.maxMessageLength < hd.length.toNat
  · rw [if_pos hlong]
    exact .unsaid _ not_false
  rw [if_neg hlong]
  show Told [] (readBody hd mid)
  by_cases hshort : mid.length < hd.length.toNat
  · rw [readBody, (Reader.mute_take _).bind_of_fails (Reader.fails_take.mpr ⟨hshort, rfl⟩)]
    exact .unsaid _ not_false
  -- the body is there, and if it had a block the message would get to it
  obtain ⟨field, htake⟩ := Reader.exists_accepts_take (Nat.not_lt.mp hshort)
  obtain ⟨body, hlength⟩ := field
  rw [Reader.accepts_take.mp htake] at hhead ⊢
  refine told_readBody hlength (Body.told_read_of_no_block ?_)
  rintro htype row announced d rfl
  obtain ⟨hspan, hframe⟩ := eq_frame_of_accepts hhead (by simpa using hfragment) hlength
  rw [htype] at hframe
  exact h ⟨announced, d, hd.seq, row, _, _, rfl, hspan, hlength ▸ Nat.not_lt.mp hlong, hframe⟩

/-- Every message is told the notes of the tiles that are met in it. -/
theorem told_decode {ts : List Tile} (h : Met config.maxMessageLength input ts) :
    Told (notes (ts.map Tile.extension)) (decode config input) := by
  rcases h with ⟨announced, d, ⟨seq, row, body, more, rfl, hspan, hle, rfl⟩, hts⟩ | ⟨hnone, rfl⟩
  · exact told_decode_frame _ seq hspan hle (ClientHello.told_read_met hts).map
  · exact told_decode_of_not_reached hnone

/-- A message that was read is told the notes of its extensions. -/
theorem told_decode_of_ok {h : Handshake} (hok : (decode config input).value = .ok h) :
    Told (notes h.body.entries) (decode config input) := by
  obtain ⟨body, hspan, hle, hbody, rfl⟩ := accepts_read.mp (Reader.whole_eq_ok_iff.mp hok)
  refine told_decode_frame _ h.seq hspan hle ?_
  rw [h.body.proper_type.canonical_eq]
  exact Body.told_read_of_accepts hbody

/-- **The log of a message.** On every input some run of tiles is met, and the log is the traces of
those among them whose kind has no name, in their order, also of one that overruns, with at most one
debug event behind. Of a message that was read it is the traces of the extensions that it came with.
There is a debug event just for these failures: a kind of message that is not understood, a
fragment, an extension that overruns, and octets left of the body. -/
theorem decode_log (config : Config) (input : Bytes) :
    (∃ ts, Met config.maxMessageLength input ts)
    ∧ (∀ ts, Met config.maxMessageLength input ts →
        ∃ last, (decode config input).log = notes (ts.map Tile.extension) ++ last
          ∧ (∀ event ∈ notes (ts.map Tile.extension), event.level = .trace)
          ∧ (last = [] ∨ ∃ event, last = [event] ∧ event.level = .debug))
    ∧ (∀ h, (decode config input).value = .ok h →
        (decode config input).log = notes h.body.entries)
    ∧ ((∃ event ∈ (decode config input).log, event.level = .debug)
      ↔ (∃ id, (decode config input).value = .error (.unsupportedMessage id))
        ∨ (decode config input).value = .error (.framing .fragmented)
        ∨ (decode config input).value = .error (.framing .extensionOverrun)
        ∨ (decode config input).value = .error (.framing .bytesAfterBody)) := by
  obtain ⟨ts, hts⟩ := exists_met config.maxMessageLength input
  refine ⟨⟨ts, hts⟩, ?_, ?_, ?_⟩
  · intro ts hts
    obtain ⟨last, hlog, hlast⟩ := (told_decode hts).exists_last
    exact ⟨last, hlog, fun event => level_of_mem_notes, hlast⟩
  · intro h hok
    exact (told_decode_of_ok hok).log_of_ok hok
  · rw [(told_decode hts).debug_iff fun event => level_of_mem_notes]
    exact Error.exists_loud_iff

/-- An extension of a kind without a name, with three octets of data. -/
def unnamedTile : Tile := ⟨8, [4, 5, 6], by decide⟩

/-- A hello with that extension. -/
def unnamedHello : Handshake :=
  ⟨5, .clientHello (ClientHello.plainRow.hello ⟨[unnamedTile.extension]⟩)⟩

/-- The body of that hello, with one octet too few announced for its extensions. -/
def overrunBody : Bytes :=
  ClientHello.plainRow.octets ++ (bigEndian 2 (6 : UInt16).toNat ++ unnamedTile.octets)

/-- This body is refused for its last extension. -/
theorem fails_read_overrunBody :
    ClientHello.read.Fails overrunBody (.framing .extensionOverrun) := by
  refine ClientHello.Blamed.fails_read (.extensions ClientHello.plainRow _ _ (by decide) ?_)
  rw [Extensions.fails_read_announced, Extensions.fails_readEntries_overrun_iff]
  exact ⟨[], unnamedTile, [], rfl, by decide, by decide⟩

/-- An extension without a name is logged whether its hello is read or it overruns the block. Then
it is the last that is met, and the refusal is logged behind it. -/
theorem decode_log_unnamed :
    (∃ h, (decode default unnamedHello.encode).value = .ok h
        ∧ (decode default unnamedHello.encode).log = [.unassignedExtension 8])
      ∧ Met 16384 (frame (.registered .clientHello) 5 overrunBody) [unnamedTile]
      ∧ ∃ event, (decode default (frame (.registered .clientHello) 5 overrunBody)).log
            = [.unassignedExtension 8, event]
          ∧ event.level = .debug := by
  have hok : (decode default unnamedHello.encode).value = .ok unnamedHello.canonical :=
    decode_encode ⟨by decide, by decide, by decide⟩ (by decide)
  obtain ⟨-, -, hread, -⟩ := decode_log default unnamedHello.encode
  have hmet : Met 16384 (frame (.registered .clientHello) 5 overrunBody) [unnamedTile] := by
    refine .inl ⟨6, unnamedTile.octets, ?_, ?_⟩
    · exact ⟨5, ClientHello.plainRow, _, [], rfl, by decide, by decide, (List.append_nil _).symm⟩
    · exact Extensions.met_cons_iff.mpr ⟨by decide, [], (List.append_nil _).symm,
        Extensions.met_nil_iff.mpr (.inl (by decide))⟩
  have hfails : (decode default (frame (.registered .clientHello) 5 overrunBody)).value
      = .error (.framing .extensionOverrun) := by
    rw [← List.append_nil (frame _ _ _)]
    exact value_decode_frame_of_fails _ 5 (by decide) (by decide)
      (Reader.fails_map.mpr fails_read_overrunBody)
  obtain ⟨-, htold, -, hdebug⟩ :=
    decode_log default (frame (.registered .clientHello) 5 overrunBody)
  obtain ⟨last, hlog, -, hlast⟩ := htold [unnamedTile] hmet
  have hnotes : notes ([unnamedTile].map Tile.extension) = [.unassignedExtension 8] := by decide
  rw [hnotes] at hlog
  obtain ⟨event, hmem, hlevel⟩ := hdebug.mpr (.inr (.inr (.inl hfails)))
  refine ⟨⟨_, hok, ?_⟩, hmet, ?_⟩
  · rw [hread _ hok]
    decide
  · rcases hlast with rfl | ⟨event', rfl, hlevel'⟩
    -- a refusal is not a trace, so there is an event behind the traces
    · rw [hlog, List.append_nil] at hmem
      rw [List.mem_singleton.mp hmem] at hlevel
      exact absurd hlevel (by decide)
    · exact ⟨event', hlog, hlevel'⟩

end Handshake

end DatagramHello
