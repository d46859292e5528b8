import Keylens.Connection.Speculation
import Keylens.Library.Blocks
import Mathlib.Data.List.Nodup

/-!
# Pages of ordered values

What `readValue` shows of a list or a sorted set from an offset on is the page of
its elements that starts there, and the pages at the multiples of the page size are
the whole value.  An offset from which no page can be counted in an `i64` is refused.
A stream is read from its start at any offset.
-/

namespace Keylens.Connection

open Keylens.Library

section Decoding

variable {α : Type}

/-- The elements with an index from `offset` to less than a page further on. -/
def pageOf (items : List α) (offset : Nat) : List α :=
  items.extract offset (min (offset + page) items.length)

theorem pageOf_eq (items : List α) (offset : Nat) :
    pageOf items offset = (items.drop offset).take page := by
  rw [pageOf, List.extract_eq_take_drop, List.take_eq_take_iff, List.length_drop]
  omega

theorem pageOf_map {β : Type} (shown : α → β) (items : List α) (offset : Nat) :
    pageOf (items.map shown) offset = (pageOf items offset).map shown := by
  rw [pageOf_eq, pageOf_eq, List.map_take, List.map_drop]

/-- The bounds are indices, both inclusive. -/
theorem rangeOf_count (items : List α) (start : Nat) {count : Nat} (positive : 0 < count) :
    rangeOf items start (start + (count - 1)) = (items.drop start).take count := by
  have first : ¬((start : Int) < 0) := Int.not_lt.mpr (Int.natCast_nonneg start)
  have last : ¬((start : Int) + (count - 1) < 0) := by omega
  have ordered : ¬((start : Int) + (count - 1) < start) := by omega
  have size : ((start : Int) + (count - 1) - start + 1).toNat = count := by omega
  rw [rangeOf, if_neg first, if_neg last, if_neg ordered, size, Int.toNat_natCast]

theorem rangeOf_page (items : List α) (offset : Nat) :
    rangeOf items offset (offset + (pageBound - 1)) = pageOf items offset := by
  rw [pageBound, rangeOf_count items offset (by decide), pageOf_eq]

end Decoding

/-- What a key holds as a collection; an empty collection is a key that is not there. -/
def Keyspace.Holds {α : Type} (keyspace : Keyspace) (key : Str) (data : List α → RedisData)
    (items : List α) : Prop :=
  (∃ ttl, keyspace key = some { data := data items, ttl }) ∨ keyspace key = none ∧ items = []

/-- A read by offsets pages a collection: each page is exact, an offset out of reach is
refused, and the pages at the multiples of the page size are the whole. -/
structure Pages {α : Type} (read : Nat → Result KeyValue) (value : List α → KeyValue)
    (items : List α) : Prop where
  exact : ∀ offset : Nat, offset + (pageBound - 1) ≤ i64Max →
    read offset = .ok (value (pageOf items offset))
  refused : ∀ offset : Nat, i64Max < offset + (pageBound - 1) →
    ∃ cmd detail, read offset = .error (.range cmd offset detail)
  whole : ∀ count : Nat, items.length ≤ count * page → (count * page : Int) ≤ i64Max + 1 →
    ∃ pages : List (List α),
      (List.range count).mapM (fun i => read (i * page)) = .ok (pages.map value) ∧
        pages.flatten = items

theorem mapM_ok {α β : Type} {read : α → Result β} {value : α → β} {items : List α}
    (reads : ∀ item ∈ items, read item = .ok (value item)) :
    items.mapM read = .ok (items.map value) := by
  induction items with
  | nil => rfl
  | cons item items ih =>
      rw [List.mapM_cons, reads item (List.mem_cons_self ..),
        ih fun other member => reads other (List.mem_cons_of_mem _ member)]
      rfl

/-- Exact pages tile the collection. -/
theorem Pages.of_exact {α : Type} {read : Nat → Result KeyValue} {value : List α → KeyValue}
    {items : List α}
    (exact : ∀ offset : Nat, offset + (pageBound - 1) ≤ i64Max →
      read offset = .ok (value (pageOf items offset)))
    (refused : ∀ offset : Nat, i64Max < offset + (pageBound - 1) →
      ∃ cmd detail, read offset = .error (.range cmd offset detail)) :
    Pages read value items where
  exact := exact
  refused := refused
  whole := by
    intro count covers within
    refine ⟨(List.range count).map fun i => pageOf items (i * page), ?_, ?_⟩
    · rw [List.map_map]
      apply mapM_ok
      intro i member
      apply exact
      have before : i + 1 ≤ count := List.mem_range.mp member
      have scaled : ((i + 1) * page : Int) ≤ count * page := by
        exact_mod_cast Nat.mul_le_mul_right page before
      rw [pageBound]
      push_cast
      rw [Int.add_mul] at scaled
      omega
    · simp only [pageOf_eq]
      rw [← List.flatMap_def, flatMap_pages, List.take_of_length_le covers]

section Reads

variable {conn : Conn} {wire : Wire} {keyspace : Keyspace} {key : Str}

/-- A read that is one range command gives what its reply decodes to. -/
theorem Pages.of_command {α : Type} {kind : Kind} {value : List α → KeyValue} {items : List α}
    (reads : ∀ offset : Nat,
      pageBounds offset kind = .ok ((offset : Int), offset + (pageBound - 1)) →
        conn.readValue key kind offset = .ok (value (pageOf items offset)))
    (refuses : ∀ offset error, pageBounds offset kind = .error error →
      conn.readValue key kind offset = .error error) :
    Pages (conn.readValue key kind) value items := by
  apply Pages.of_exact
  · intro offset within
    rcases pageBounds_cases offset kind with ⟨_, formed⟩ | ⟨beyond, _⟩
    · exact reads offset formed
    · exact absurd within (Int.not_le.mpr beyond)
  · intro offset beyond
    rcases pageBounds_cases offset kind with ⟨within, _⟩ | ⟨_, cmd, detail, unformed⟩
    · exact absurd within (Int.not_le.mpr beyond)
    · exact ⟨cmd, detail, refuses offset _ unformed⟩

theorem readValue_of_error {kind : Kind} {offset : Nat} {error : ConnError}
    (unformed : pageBounds offset kind = .error error) :
    conn.readValue key kind offset = .error error := by
  rw [Conn.readValue, unformed]
  rfl

/-- The answer of a read to a key that holds a collection, when an empty collection
answers as a missing key does. -/
theorem readTyped_eq {α : Type} {data : List α → RedisData} {items : List α}
    (held : keyspace.Holds key data items) {missing : Value} {read : RedisData → Option Value}
    (reply : List α → Value) (answers : ∀ items, read (data items) = some (reply items))
    (empty : missing = reply []) :
    Wire.readTyped keyspace key missing read = .ok (reply items) := by
  rw [Wire.readTyped, empty]
  rcases held with ⟨ttl, here⟩ | ⟨absent, rfl⟩
  · rw [here]
    dsimp only
    rw [answers]
  · rw [absent]

theorem Conn.Serves.cmd_ok (serves : conn.Serves wire keyspace) {name : CmdName}
    {args : List Value} {reply : Value} (allowed : readOnlyCommand conn.client.api name args)
    (answer : wire.reply keyspace name args = .ok reply) : conn.cmd name args = .ok reply := by
  rw [Conn.cmd_eq_execute allowed, serves.execute_eq, answer]
  rfl

theorem rangeOf_nil {α : Type} (start stop : Int) : rangeOf ([] : List α) start stop = [] := by
  rw [rangeOf]
  split <;> simp

/-! ## What the reads show -/

/-- A payload as a read shows it. -/
def Wire.shown (wire : Wire) (api : ValueApi) (payload : Bytes) : Str :=
  api.displayString (wire.bulk payload)

def Wire.shownScore (wire : Wire) (api : ValueApi) (member : Bytes × F64) : Str × F64 :=
  (wire.shown api member.1, member.2)

def Wire.shownEntry (wire : Wire) (api : ValueApi) (entry : Bytes × List (Bytes × Bytes)) :
    StreamEntry where
  id := wire.shown api entry.1
  fields := entry.2.map fun field => (wire.shown api field.1, wire.shown api field.2)

/-- Members come back with their scores after them. -/
def Wire.FlatScores (wire : Wire) (score : F64 → Value) : Prop :=
  ∀ members, wire.scored members =
    .array (members.flatMap fun member => [wire.bulk member.1, score member.2])

theorem readValue_list (serves : conn.Serves wire keyspace) {items : List Bytes}
    (held : keyspace.Holds key .list items) {offset : Nat}
    (formed : pageBounds offset .list = .ok ((offset : Int), offset + (pageBound - 1))) :
    conn.readValue key .list offset =
      .ok (.list (pageOf (items.map (wire.shown conn.client.api)) offset)) := by
  let reply (items : List Bytes) : Value :=
    .array ((rangeOf items offset (offset + (pageBound - 1))).map wire.bulk)
  have answer : wire.reply keyspace .lrange
      [.string key, .integer offset, .integer (offset + (pageBound - 1))] = .ok (reply items) := by
    rw [Wire.reply]
    exact readTyped_eq held reply (fun _ => rfl) (by simp [reply, rangeOf_nil])
  rw [Conn.readValue, formed]
  change (do
    let reply ← conn.cmd .lrange _
    return KeyValue.list (conn.client.api.asStringVec reply)) = _
  rw [serves.cmd_ok rfl answer, pageOf_map, ← rangeOf_page]
  change Except.ok (KeyValue.list (List.map _ (List.map _ _))) = _
  rw [List.map_map]
  rfl

theorem readValue_zset (serves : conn.Serves wire keyspace) {score : F64 → Value}
    (flat : wire.FlatScores score) {members : List (Bytes × F64)}
    (held : keyspace.Holds key .zset members)
    (decodes : ∀ member ∈ members, conn.client.api.asF64 (score member.2) = some member.2)
    {offset : Nat}
    (formed : pageBounds offset .zset = .ok ((offset : Int), offset + (pageBound - 1))) :
    conn.readValue key .zset offset =
      .ok (.zset (pageOf (members.map (wire.shownScore conn.client.api)) offset)) := by
  let reply (members : List (Bytes × F64)) : Value :=
    wire.scored (rangeOf members offset (offset + (pageBound - 1)))
  have answer : wire.reply keyspace .zrange [.string key, .integer offset,
      .integer (offset + (pageBound - 1)), .string "WITHSCORES".toList] =
        .ok (reply members) := by
    rw [Wire.reply]
    exact readTyped_eq held reply (fun _ => rfl) (by simp [reply, rangeOf_nil])
  rw [Conn.readValue, formed]
  change (do
    let reply ← conn.cmd .zrange _
    return KeyValue.zset (conn.client.api.asScoredPairs reply)) = _
  rw [serves.cmd_ok rfl answer, pageOf_map, ← rangeOf_page]
  change Except.ok (KeyValue.zset (conn.client.api.asScoredPairs (wire.scored _))) = _
  rw [flat, ValueApi.asScoredPairs, asPairs_flatMap, List.map_map]
  have shown : ∀ member ∈ rangeOf members offset (offset + (pageBound - 1)),
      (conn.client.api.displayString (wire.bulk member.1),
        (conn.client.api.asF64 (score member.2)).getD 0) =
          wire.shownScore conn.client.api member := by
    intro member inPage
    have inside : member ∈ members := by
      rw [rangeOf_page, pageOf_eq] at inPage
      exact List.mem_of_mem_drop (List.mem_of_mem_take inPage)
    rw [decodes member inside]
    rfl
  congr 2
  exact List.map_congr_left shown

theorem asStreamEntries_array (entries : List (Bytes × List (Bytes × Bytes))) (api : ValueApi) :
    api.asStreamEntries (.array (entries.map fun (id, fields) =>
      .array [wire.bulk id, .array ((Wire.flatFields fields).map wire.bulk)])) =
        entries.map (wire.shownEntry api) := by
  rw [ValueApi.asStreamEntries]
  induction entries with
  | nil => rfl
  | cons entry entries ih =>
      have fields : (Wire.flatFields entry.2).map wire.bulk =
          entry.2.flatMap fun field => [wire.bulk field.1, wire.bulk field.2] := by
        rw [Wire.flatFields, List.map_flatMap]
        rfl
      rw [List.map_cons, List.map_cons, ← ih, List.filterMap_cons]
      simp [Wire.shownEntry, fields, ValueApi.asFieldPairs, asPairs_flatMap, Wire.shown]

/-- A stream is read from its start, whatever the offset. -/
theorem readValue_stream (serves : conn.Serves wire keyspace)
    {entries : List (Bytes × List (Bytes × Bytes))} (held : keyspace.Holds key .stream entries)
    {offset : Nat} {bounds : Int × Int} (formed : pageBounds offset .stream = .ok bounds) :
    conn.readValue key .stream offset =
      .ok (.stream (pageOf (entries.map (wire.shownEntry conn.client.api)) 0)) := by
  let reply (entries : List (Bytes × List (Bytes × Bytes))) : Value :=
    .array ((entries.take page).map fun (id, fields) =>
      .array [wire.bulk id, .array ((Wire.flatFields fields).map wire.bulk)])
  have answer : wire.reply keyspace .xrange [.string key, .string "-".toList, .string "+".toList,
      .string "COUNT".toList, .integer pageBound] = .ok (reply entries) := by
    rw [Wire.reply]
    exact readTyped_eq held reply (fun _ => rfl) rfl
  rw [Conn.readValue, formed]
  change (do
    let reply ← conn.cmd .xrange _
    return KeyValue.stream (conn.client.api.asStreamEntries reply)) = _
  rw [serves.cmd_ok rfl answer, pageOf_map, pageOf_eq, List.drop_zero, ← asStreamEntries_array]
  rfl

/-- The first page stands at another offset only in an empty list. -/
theorem pageOf_eq_first_iff {α : Type} {items : List α} (distinct : items.Nodup) (offset : Nat) :
    pageOf items 0 = pageOf items offset ↔ offset = 0 ∨ items = [] := by
  constructor
  · intro same
    rw [pageOf_eq, pageOf_eq, List.drop_zero] at same
    have positive : 0 < page := by decide
    have heads := congrArg (fun list => list[0]?) same
    simp only [List.getElem?_take_of_lt positive, List.getElem?_drop, Nat.add_zero] at heads
    by_cases nonempty : items = []
    · exact .inr nonempty
    · left
      have inside : 0 < items.length := List.length_pos_of_ne_nil nonempty
      rw [List.getElem?_eq_getElem inside, eq_comm, List.getElem?_eq_some_iff] at heads
      rcases heads with ⟨further, equal⟩
      exact distinct.getElem_inj_iff.mp equal
  · rintro (rfl | rfl)
    · rfl
    · rw [pageOf_eq, pageOf_eq, List.drop_nil, List.drop_nil]

/-- So a read gives the page of a stream at its start, or when the stream is empty. -/
theorem readValue_stream_exact_iff (serves : conn.Serves wire keyspace)
    {entries : List (Bytes × List (Bytes × Bytes))} (held : keyspace.Holds key .stream entries)
    (distinct : (entries.map (wire.shownEntry conn.client.api)).Nodup) {offset : Nat}
    {bounds : Int × Int} (formed : pageBounds offset .stream = .ok bounds) :
    conn.readValue key .stream offset =
        .ok (.stream (pageOf (entries.map (wire.shownEntry conn.client.api)) offset)) ↔
      offset = 0 ∨ entries = [] := by
  rw [readValue_stream serves held formed, Except.ok.injEq, KeyValue.stream.injEq,
    pageOf_eq_first_iff distinct, List.map_eq_nil_iff]

/-- Lists and sorted sets are paged exactly from every offset a page can be counted
from, and streams from their start. -/
theorem ordered_values_paged (serves : conn.Serves wire keyspace) {score : F64 → Value}
    (flat : wire.FlatScores score) (key : Str) :
    (∀ items, keyspace.Holds key .list items →
      Pages (conn.readValue key .list) .list (items.map (wire.shown conn.client.api))) ∧
    (∀ members, keyspace.Holds key .zset members →
      (∀ member ∈ members, conn.client.api.asF64 (score member.2) = some member.2) →
        Pages (conn.readValue key .zset) .zset
          (members.map (wire.shownScore conn.client.api))) ∧
    ∀ entries, keyspace.Holds key .stream entries →
      conn.readValue key .stream 0 =
        .ok (.stream (pageOf (entries.map (wire.shownEntry conn.client.api)) 0)) := by
  refine ⟨?_, ?_, ?_⟩
  · intro items held
    exact .of_command (fun offset => readValue_list serves held)
      fun offset error => readValue_of_error
  · intro members held decodes
    exact .of_command (fun offset => readValue_zset serves flat held decodes)
      fun offset error => readValue_of_error
  · intro entries held
    exact readValue_stream serves held (pageBounds_zero .stream)

end Reads

/-! ## A server with a list, a sorted set and a stream -/

/-- The score `1` as it is sent, and any other score by its bits. -/
def sentScore (score : F64) : Value :=
  if score = 0x3FF0000000000000 then .string "1".toList else .double score

/-- Conversions that also read these scores. -/
def scoreApi : ValueApi where
  asString := plainApi.asString
  asBytes := plainApi.asBytes
  asI64 := plainApi.asI64
  asU64 := plainApi.asU64
  asF64
    | .string text => if text = "1".toList then some 0x3FF0000000000000 else none
    | .double score => some score
    | _ => none
  keyAsStr := plainApi.keyAsStr
  debug := plainApi.debug

theorem scoreApi_lawful : scoreApi.Lawful where
  asString_string := plainApi_lawful.asString_string
  asI64_integer := plainApi_lawful.asI64_integer
  asU64_integer := plainApi_lawful.asU64_integer
  asU64_null := plainApi_lawful.asU64_null

def scoreWire : Wire where
  bulk := plainWire.bulk
  scored members := .array (members.flatMap fun member =>
    [plainWire.bulk member.1, sentScore member.2])
  scanPage := plainWire.scanPage
  memoryUsage := plainWire.memoryUsage

/-- Under `jobs` two items, under `ranks` one member and under `log` one entry. -/
def pagedKeyspace : Keyspace := fun key =>
  if key = "jobs".toList then some { data := .list [[97], [98]], ttl := none }
  else if key = "ranks".toList then
    some { data := .zset [([99], 0x3FF0000000000000)], ttl := none }
  else if key = "log".toList then some { data := .stream [([49], [([100], [101])])], ttl := none }
  else none

def pagedConn : Conn := Conn.answering scoreApi scoreWire pagedKeyspace {}

theorem pagedConn_serves : pagedConn.Serves scoreWire pagedKeyspace :=
  Conn.serves_answering scoreApi_lawful scoreWire pagedKeyspace {}

theorem pagedConn_reads :
    pagedConn.readValue "jobs".toList .list 1 = .ok (.list ["b".toList]) ∧
      pagedConn.readValue "ranks".toList .zset 0 =
        .ok (.zset [("c".toList, 0x3FF0000000000000)]) := by
  have flat : scoreWire.FlatScores sentScore := fun _ => rfl
  have jobs : pagedKeyspace.Holds "jobs".toList .list [[97], [98]] := .inl ⟨none, rfl⟩
  have ranks : pagedKeyspace.Holds "ranks".toList .zset [([99], 0x3FF0000000000000)] :=
    .inl ⟨none, rfl⟩
  have decodes : ∀ member ∈ [(([99] : Bytes), (0x3FF0000000000000 : F64))],
      pagedConn.client.api.asF64 (sentScore member.2) = some member.2 := by
    decide
  have items := (ordered_values_paged pagedConn_serves flat "jobs".toList).1 _ jobs
  have members := (ordered_values_paged pagedConn_serves flat "ranks".toList).2.1 _ ranks decodes
  constructor
  · rw [items.exact 1 (by decide)]
    decide
  · rw [members.exact 0 (by decide)]
    decide

/-- From an offset beyond `i64::MAX` the read is refused, where the page is empty; and
the page of the stream at the next page's offset is the first one again. -/
theorem pages_not_exact :
    pagedConn.Serves scoreWire pagedKeyspace ∧
      pagedConn.readValue "jobs".toList .list (2 ^ 63) =
        .error (.range .llen (2 ^ 63) "offset exceeds i64::MAX".toList) ∧
      pageOf [([97] : Bytes), [98]] (2 ^ 63) = [] ∧
      pagedConn.readValue "log".toList .stream page =
        .ok (.stream [{ id := "1".toList, fields := [("d".toList, "e".toList)] }]) ∧
      pageOf [(([49] : Bytes), [(([100] : Bytes), ([101] : Bytes))])] page = [] := by
  refine ⟨pagedConn_serves, rfl, ?_, ?_, rfl⟩
  · rw [pageOf_eq]
    simp
  · decide

end Keylens.Connection
