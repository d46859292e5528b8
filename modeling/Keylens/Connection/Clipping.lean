import Keylens.Connection.Paging

/-!
# Strings that are cut

`readValue` fetches no more than the first `maxStringBytes` bytes of a string, and puts a
marker after a reply of that size.  The reply does not tell whether anything was left, and
where the cut falls inside a character it is no text any more.
-/

namespace Keylens.Connection

open Keylens.Library

/-- What `decodeString` puts after a text it takes to be cut. -/
def truncationMarker : Str := "\n\n... truncated ...".toList

/-- The part of a string that is fetched. -/
def fetchedBytes (stored : Bytes) : Bytes := stored.take maxStringBytes

theorem rangeOf_string (stored : Bytes) :
    rangeOf stored 0 (maxStringBound - 1) = fetchedBytes stored := by
  have bytes := rangeOf_count stored 0 (by decide : 0 < maxStringBytes)
  rwa [Int.natCast_zero, Int.zero_add, List.drop_zero] at bytes

theorem length_fetchedBytes (stored : Bytes) :
    (fetchedBytes stored).length = min maxStringBytes stored.length :=
  List.length_take

section Decoding

variable {api : ValueApi} {wire : Wire}

theorem replyByteLen_bulk (shows : wire.ShowsBytes api) (payload : Bytes) :
    api.replyByteLen (wire.bulk payload) = payload.length := by
  rw [ValueApi.replyByteLen, shows.asBytes_bulk]

/-- The marker follows a reply of the full size. -/
theorem decodeString_bulk (shows : wire.ShowsBytes api) (stored : Bytes) :
    api.decodeString (wire.bulk (fetchedBytes stored)) =
      .string (api.displayString (wire.bulk (fetchedBytes stored)) ++
        if maxStringBytes ≤ stored.length then truncationMarker else []) := by
  have full : maxStringBytes ≤ (fetchedBytes stored).length ↔ maxStringBytes ≤ stored.length := by
    rw [length_fetchedBytes]
    omega
  rw [ValueApi.decodeString, replyByteLen_bulk shows]
  simp only [full]
  split
  · rfl
  · rw [List.append_nil]

theorem displayString_text (shows : wire.ShowsBytes api) {payload : Bytes} {text : Str}
    (decoded : utf8Decode payload = some text) :
    api.displayString (wire.bulk payload) = text := by
  rw [ValueApi.displayString, shows.asString_bulk, decoded]

theorem displayString_binary (shows : wire.ShowsBytes api) {payload : Bytes}
    (binary : utf8Decode payload = none) :
    api.displayString (wire.bulk payload) =
      "<".toList ++ decimal payload.length ++ " bytes> ".toList ++
        (utf8DecodeLossy payload).take 200 := by
  rw [ValueApi.displayString, shows.asString_bulk, binary]
  dsimp only
  rw [shows.asBytes_bulk]

end Decoding

section Reads

variable {conn : Conn} {wire : Wire} {keyspace : Keyspace} {key : Str}

/-- A string is shown by what its first bytes decode to. -/
theorem readValue_string (serves : conn.Serves wire keyspace)
    (bounded : conn.capabilities.has .getRange) {stored : Bytes} {ttl : Option Nat}
    (held : keyspace key = some { data := .string stored, ttl }) {offset : Nat}
    (within : offset + (pageBound - 1) ≤ i64Max) :
    conn.readValue key .string offset =
      .ok (conn.client.api.decodeString (wire.bulk (fetchedBytes stored))) := by
  have answer : wire.reply keyspace .getrange
      [.string key, .integer 0, .integer (maxStringBound - 1)] =
        .ok (wire.bulk (fetchedBytes stored)) := by
    rw [Wire.reply, Wire.readTyped, held, ← rangeOf_string]
  rcases pageBounds_cases offset .string with ⟨_, formed⟩ | ⟨beyond, _⟩
  · rw [Conn.readValue, formed]
    change (if conn.capabilities.has .getRange = true then _ else _) = _
    rw [if_pos bounded]
    rw [serves.cmd_ok rfl answer]
    rfl
  · exact absurd within (Int.not_le.mpr beyond)

/-- The marker says exactly that bytes were left unread, except at a string as long as
what is fetched: it is whole and marked all the same. -/
theorem marker_exact_iff (serves : conn.Serves wire keyspace)
    (shows : wire.ShowsBytes conn.client.api) (bounded : conn.capabilities.has .getRange)
    {stored : Bytes} {ttl : Option Nat}
    (held : keyspace key = some { data := .string stored, ttl }) {offset : Nat}
    (within : offset + (pageBound - 1) ≤ i64Max) :
    let shown := conn.client.api.displayString (wire.bulk (fetchedBytes stored))
    (conn.readValue key .string offset = .ok (.string (shown ++ truncationMarker)) ↔
        maxStringBytes < stored.length) ↔
      stored.length ≠ maxStringBytes := by
  intro shown
  have read := readValue_string serves bounded held within
  rw [decodeString_bulk shows] at read
  have marked : conn.readValue key .string offset = .ok (.string (shown ++ truncationMarker)) ↔
      maxStringBytes ≤ stored.length := by
    rw [read, Except.ok.injEq, KeyValue.string.injEq, List.append_cancel_left_eq]
    split
    next full => exact iff_of_true rfl full
    next short => exact iff_of_false (by decide) short
  rw [marked]
  omega

/-- A text is shown as one: the characters of it that can be fetched whole, and the marker
or nothing after them. -/
def StaysText (text : Str) (shown : Result KeyValue) : Prop :=
  ∃ front, LongestWithin maxStringBytes text front ∧
    (shown = .ok (.string front) ∨ shown = .ok (.string (front ++ truncationMarker)))

/-- What is shown in the place of a payload is short. -/
theorem length_binary_lt (payload : Bytes) (size : payload.length = maxStringBytes) :
    ("<".toList ++ decimal payload.length ++ " bytes> ".toList ++
      (utf8DecodeLossy payload).take 200).length < 300 := by
  have number : (decimal payload.length).length = 5 := by
    rw [size]
    decide
  have sample : ((utf8DecodeLossy payload).take 200).length ≤ 200 := List.length_take_le ..
  have words : "<".toList.length = 1 ∧ " bytes> ".toList.length = 8 := ⟨rfl, rfl⟩
  rw [List.length_append, List.length_append, List.length_append, number, words.1, words.2]
  omega

/-- Something short in the place of a long text is not the text. -/
theorem not_staysText_of_short {text rendering : Str} (exceeds : maxStringBytes < utf8Size text)
    (short : rendering.length < 300) :
    ¬StaysText text (.ok (.string (rendering ++ truncationMarker))) := by
  rintro ⟨front, longest, shown⟩
  have long := longest.budget_lt exceeds
  have characters := utf8Size_le_four_mul_length front
  have budget : maxStringBytes = 65536 := rfl
  have marker : truncationMarker.length = 19 := rfl
  rw [Except.ok.injEq, Except.ok.injEq, KeyValue.string.injEq, KeyValue.string.injEq,
    List.append_cancel_right_eq] at shown
  rcases shown with shown | shown
  · have lengths := congrArg List.length shown
    rw [List.length_append, marker] at lengths
    omega
  · have lengths := congrArg List.length shown
    omega

theorem staysText_iff_decodes (serves : conn.Serves wire keyspace)
    (shows : wire.ShowsBytes conn.client.api) (bounded : conn.capabilities.has .getRange)
    {text : Str} {ttl : Option Nat}
    (held : keyspace key = some { data := .string (utf8Encode text), ttl }) {offset : Nat}
    (within : offset + (pageBound - 1) ≤ i64Max) :
    StaysText text (conn.readValue key .string offset) ↔
      (utf8Decode (fetchedBytes (utf8Encode text))).isSome := by
  rw [readValue_string serves bounded held within, decodeString_bulk shows, length_utf8Encode]
  cases decoded : utf8Decode (fetchedBytes (utf8Encode text)) with
  | some front =>
      -- What is left is a text, so the cut is where a character ends.
      have ⟨isPrefix, size⟩ := utf8Decode_take_eq_some_iff.mp decoded
      refine iff_of_true ⟨front, .of_size isPrefix size, ?_⟩ rfl
      rw [displayString_text shows decoded]
      split
      · exact .inr rfl
      · exact .inl (by rw [List.append_nil])
  | none =>
      have exceeds : maxStringBytes < utf8Size text := by
        by_contra whole
        have fetched := utf8Decode_take_isSome_iff.mpr (.inl (Nat.not_lt.mp whole))
        have none := congrArg Option.isSome decoded
        exact Bool.noConfusion (fetched.symm.trans none)
      have size : (fetchedBytes (utf8Encode text)).length = maxStringBytes := by
        rw [length_fetchedBytes, length_utf8Encode]
        omega
      refine iff_of_false ?_ Bool.false_ne_true
      rw [displayString_binary shows decoded, if_pos (Nat.le_of_lt exceeds)]
      exact not_staysText_of_short exceeds (length_binary_lt _ size)

/-- A text stays one exactly if it is fetched whole or the cut is at the end of one of
its characters. -/
theorem staysText_iff (serves : conn.Serves wire keyspace)
    (shows : wire.ShowsBytes conn.client.api) (bounded : conn.capabilities.has .getRange)
    {text : Str} {ttl : Option Nat}
    (held : keyspace key = some { data := .string (utf8Encode text), ttl }) {offset : Nat}
    (within : offset + (pageBound - 1) ≤ i64Max) :
    StaysText text (conn.readValue key .string offset) ↔
      utf8Size text ≤ maxStringBytes ∨
        ∃ front, front <+: text ∧ utf8Size front = maxStringBytes := by
  rw [staysText_iff_decodes serves shows bounded held within]
  exact utf8Decode_take_isSome_iff

end Reads

/-! ## One string -/

/-- A server with one string, which refuses nothing. -/
def oneString (stored : Bytes) : Conn :=
  Conn.answering plainApi plainWire
    (fun _ => some { data := .string stored, ttl := none }) { get := fun _ => .available }

theorem serves_oneString (stored : Bytes) :
    (oneString stored).Serves plainWire (fun _ => some { data := .string stored, ttl := none }) :=
  Conn.serves_answering plainApi_lawful plainWire _ _

/-- A string of the size of a fetch is whole, and marked. -/
theorem full_fetch_marked :
    let stored : Bytes := List.replicate maxStringBytes 97
    let shown := plainApi.displayString (plainWire.bulk (fetchedBytes stored))
    fetchedBytes stored = stored ∧
      ¬((oneString stored).readValue "k".toList .string 0 =
          .ok (.string (shown ++ truncationMarker)) ↔ maxStringBytes < stored.length) := by
  intro stored shown
  have size : stored.length = maxStringBytes := List.length_replicate
  have read : (oneString stored).readValue "k".toList .string 0 =
      .ok (plainApi.decodeString (plainWire.bulk (fetchedBytes stored))) :=
    readValue_string (serves_oneString stored) rfl rfl (by decide)
  rw [decodeString_bulk plainWire_showsBytes, size, if_pos (Nat.le_refl _)] at read
  refine ⟨List.take_of_length_le (Nat.le_of_eq size), ?_⟩
  rw [size]
  exact fun exact => absurd (exact.mp read) (Nat.lt_irrefl _)

/-- A short string is not marked. -/
theorem marker_exact_short :
    let stored : Bytes := [104, 105]
    let shown := plainApi.displayString (plainWire.bulk (fetchedBytes stored))
    (oneString stored).readValue "k".toList .string 0 =
        .ok (.string (shown ++ truncationMarker)) ↔ maxStringBytes < stored.length := by
  intro stored shown
  exact (marker_exact_iff (serves_oneString stored) plainWire_showsBytes rfl rfl
    (by decide)).mpr (by decide)

/-- A letter of one byte and then letters of two: the cut is inside one of them, and the
text is shown as a payload. -/
theorem cut_letter_not_text :
    let text := 'a' :: List.replicate 40000 'é'
    ¬StaysText text ((oneString (utf8Encode text)).readValue "k".toList .string 0) := by
  intro text
  rw [staysText_iff_decodes (serves_oneString _) plainWire_showsBytes rfl rfl (by decide)]
  change ¬(utf8Decode ((utf8Encode text).take maxStringBytes)).isSome
  rw [utf8Decode_take_isSome_iff]
  have sizes (count : Nat) : utf8Size ('a' :: List.replicate count 'é') = 1 + count * 2 := by
    rw [utf8Size_cons, utf8Size_replicate]
    rfl
  rintro (whole | ⟨front, isPrefix, size⟩)
  · rw [sizes] at whole
    exact absurd whole (by decide)
  · cases front with
    | nil => exact absurd size (by decide)
    | cons c front =>
        rcases List.cons_prefix_cons.mp isPrefix with ⟨rfl, later⟩
        rcases List.prefix_replicate_iff.mp later with ⟨_, repeated⟩
        rw [repeated, sizes] at size
        have budget : maxStringBytes = 65536 := rfl
        omega

theorem staysText_short :
    StaysText "é".toList ((oneString (utf8Encode "é".toList)).readValue "k".toList .string 0) :=
  (staysText_iff (serves_oneString _) plainWire_showsBytes rfl rfl (by decide)).mpr
    (.inl (by decide))

end Keylens.Connection
