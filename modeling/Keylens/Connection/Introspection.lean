import Keylens.Connection.Conduct

/-!
# Slow log, clients and channels

What the server panes ask for, and how the replies are read.  A row of `CLIENT LIST`
is read by the names of its fields, in whatever order a server writes them.
-/

namespace Keylens.Connection

open Keylens.Library

/-! ## Reading the replies -/

/-- One row of the slow log; older servers stop at the command. -/
def parseSlowEntry (api : ValueApi) : Value → Option SlowEntry
  | .array (id :: timestamp :: duration :: command :: client) =>
      some
        { id := (api.asI64 id).getD 0
          timestamp := (api.asI64 timestamp).getD 0
          durationUs := (api.asU64 duration).getD 0
          command :=
            match command with
            | .array parts => [' '].intercalate (parts.map api.displayString)
            | other => api.displayString other
          clientAddr := ((client[0]?).map api.displayString).getD []
          clientName := ((client[1]?).map api.displayString).getD [] }
  | _ => none

def parseSlowlog (api : ValueApi) : Value → List SlowEntry
  | .array entries => entries.filterMap (parseSlowEntry api)
  | _ => []

/-- What is known of a client before its row is read. -/
def ClientInfo.empty : ClientInfo :=
  { id := [], addr := [], name := [], age := 0, idle := 0, db := [], cmd := [], sub := 0 }

/-- A `u64`, or zero. -/
def parseAmount (text : Str) : Nat :=
  (parseUnsigned (2 ^ 64 - 1) text).getD 0

/-- One field of a row of `CLIENT LIST`. -/
def readClientField (client : ClientInfo) (field : Str × Str) : ClientInfo :=
  let (name, value) := field
  if name = "id".toList then { client with id := value }
  else if name = "addr".toList then { client with addr := value }
  else if name = "name".toList then { client with name := value }
  else if name = "age".toList then { client with age := parseAmount value }
  else if name = "idle".toList then { client with idle := parseAmount value }
  else if name = "db".toList then { client with db := value }
  else if name = "cmd".toList then { client with cmd := value }
  else if name = "sub".toList then { client with sub := parseAmount value }
  else client

def readClientWord (client : ClientInfo) (word : Str) : ClientInfo :=
  match splitOnce word "=".toList with
  | some field => readClientField client field
  | none => client

def parseClientRow (line : Str) : ClientInfo :=
  (splitAsciiWhitespace line).foldl readClientWord .empty

/-- `CLIENT LIST` has one client to a line. -/
def parseClientList (raw : Str) : List ClientInfo :=
  ((lines raw).filter fun line => trim line ≠ []).map parseClientRow

def parseNumsub (api : ValueApi) : Value → List PubSubChannel
  | .array items =>
      (asPairs items).map fun (name, count) =>
        { name := api.displayString name, subscribers := (api.asU64 count).getD 0 }
  | _ => []

/-! ## Asking for them -/

namespace Session

variable (conn : Conn)

/-- The slowest recent commands. -/
def slowlog (count : Nat) : Session (List SlowEntry) :=
  if !conn.capabilities.has .slowlog then give (.ok [])
  else do
    let reply ← cmd conn .slowlog [.string "GET".toList, .integer count]
    return parseSlowlog conn.client.api reply

def clientList : Session (List ClientInfo) :=
  if !conn.capabilities.has .clientList then give (.ok [])
  else do
    let reply ← cmd conn .client [.string "LIST".toList]
    return parseClientList (conn.client.api.displayString reply)

/-- Active channels with their numbers of subscribers. -/
def pubsubChannels (limit : Nat) : Session (List PubSubChannel) :=
  if !conn.capabilities.has .pubSub then give (.ok [])
  else do
    match ← cmd conn .pubsub [.string "CHANNELS".toList] with
    | .array items =>
        let names := (items.map conn.client.api.displayString).take limit
        if names = [] then return []
        else
          let counts ← cmd conn .pubsub (.string "NUMSUB".toList :: names.map .string)
          return parseNumsub conn.client.api counts
    | _ => return []

theorem asks_slowlog (count : Nat) :
    (slowlog conn count).Asks (Call.Plain conn.client.api) := by
  rw [slowlog]
  split
  next => exact asks_give _
  next => exact (asks_cmd conn _ _).bind fun _ => asks_pure _

theorem waits_slowlog (count : Nat) : (slowlog conn count).Waits 1 := by
  rw [slowlog]
  split
  next => exact waits_give _
  next => exact (waits_cmd conn _ _).then fun _ => waits_pure _

theorem asks_clientList : (clientList conn).Asks (Call.Plain conn.client.api) := by
  rw [clientList]
  split
  next => exact asks_give _
  next => exact (asks_cmd conn _ _).bind fun _ => asks_pure _

theorem waits_clientList : (clientList conn).Waits 1 := by
  rw [clientList]
  split
  next => exact waits_give _
  next => exact (waits_cmd conn _ _).then fun _ => waits_pure _

theorem asks_pubsubChannels (limit : Nat) :
    (pubsubChannels conn limit).Asks (Call.Plain conn.client.api) := by
  rw [pubsubChannels]
  split
  next => exact asks_give _
  next =>
      apply (asks_cmd conn _ _).bind
      intro channels
      split
      next =>
          dsimp only
          split
          next => exact asks_pure _
          next => exact (asks_cmd conn _ _).bind fun _ => asks_pure _
      next => exact asks_pure _

theorem waits_pubsubChannels (limit : Nat) : (pubsubChannels conn limit).Waits 2 := by
  rw [pubsubChannels]
  split
  next => exact waits_give _
  next =>
      change Waits (1 + 1) _
      apply (waits_cmd conn _ _).bind
      intro channels
      split
      next =>
          dsimp only
          split
          next => exact waits_pure _
          next => exact (waits_cmd conn _ _).then fun _ => waits_pure _
      next => exact waits_pure _

end Session

/-! ## What a server writes -/

/-- A field changes no part of a client but the one it names. -/
theorem readClientField_frame (client : ClientInfo) (name value : Str) :
    (name ≠ "id".toList → (readClientField client (name, value)).id = client.id) ∧
      (name ≠ "addr".toList → (readClientField client (name, value)).addr = client.addr) ∧
      (name ≠ "name".toList → (readClientField client (name, value)).name = client.name) ∧
      (name ≠ "age".toList → (readClientField client (name, value)).age = client.age) ∧
      (name ≠ "idle".toList → (readClientField client (name, value)).idle = client.idle) ∧
      (name ≠ "db".toList → (readClientField client (name, value)).db = client.db) ∧
      (name ≠ "cmd".toList → (readClientField client (name, value)).cmd = client.cmd) ∧
      (name ≠ "sub".toList → (readClientField client (name, value)).sub = client.sub) := by
  refine ⟨?_, ?_, ?_, ?_, ?_, ?_, ?_, ?_⟩
  all_goals
    intro different
    simp only [readClientField, if_neg different, apply_ite ClientInfo.id,
      apply_ite ClientInfo.addr, apply_ite ClientInfo.name, apply_ite ClientInfo.age,
      apply_ite ClientInfo.idle, apply_ite ClientInfo.db, apply_ite ClientInfo.cmd,
      apply_ite ClientInfo.sub, ite_self]

/-- The fields of a client, in any order: each has a name without an equals sign, and
a value that may be empty. -/
structure ClientRow where
  fields : List (Str × Str)
  nonempty : fields ≠ []
  unspaced : ∀ field ∈ fields, Unspaced field.1 ∧ '=' ∉ field.1 ∧ Unspaced field.2

namespace ClientRow

variable (row : ClientRow)

def words : List Str :=
  row.fields.map fun field => field.1 ++ '=' :: field.2

def text : Str :=
  [' '].intercalate row.words

/-- The value of a field, wherever it stands; a field that is written twice counts
as written last, and one that is missing as empty. -/
def value (name : String) : Str :=
  (row.fields.reverse.lookup name.toList).getD []

/-- What there is to show of a client. -/
def client : ClientInfo :=
  { id := row.value "id"
    addr := row.value "addr"
    name := row.value "name"
    age := parseAmount (row.value "age")
    idle := parseAmount (row.value "idle")
    db := row.value "db"
    cmd := row.value "cmd"
    sub := parseAmount (row.value "sub") }

theorem isWord_words : ∀ word ∈ row.words, IsWord word := by
  intro word member
  rcases List.mem_map.mp member with ⟨field, inRow, rfl⟩
  rcases row.unspaced field inRow with ⟨name, _, value⟩
  constructor
  · simp
  · simp [name, value, isWhitespace]

theorem readClientWord_eq {field : Str × Str} (member : field ∈ row.fields)
    (client : ClientInfo) :
    readClientWord client (field.1 ++ '=' :: field.2) = readClientField client field := by
  have fresh : ¬"=".toList <:+: field.1 := by
    simpa [List.singleton_infix_iff] using (row.unspaced field member).2.1
  have split : splitOnce (field.1 ++ '=' :: field.2) "=".toList = some field := by
    rw [← splitOnce_append field.2 (by decide) fresh]
    simp
  rw [readClientWord, split]

/-- The fields are read one by one. -/
theorem parseClientRow_text :
    parseClientRow row.text = row.fields.foldl readClientField .empty := by
  rw [parseClientRow, text, splitAsciiWhitespace_intercalate row.isWord_words, words,
    List.foldl_map]
  exact List.foldl_ext _ _ _ fun client field member => row.readClientWord_eq member client

/-- What one field alone decides is what is read from that field. -/
theorem part_eq {β : Type} (part : ClientInfo → β) (name : String) (read : Str → β)
    (assigned : ∀ client value, part (readClientField client (name.toList, value)) = read value)
    (others : ∀ client other value, other ≠ name.toList →
      part (readClientField client (other, value)) = part client)
    (empty : part .empty = read []) :
    part (parseClientRow row.text) = read (row.value name) := by
  rw [row.parseClientRow_text, part_foldl_fields assigned others, value, empty]
  cases row.fields.reverse.lookup name.toList <;> rfl

theorem parseClientRow_eq : parseClientRow row.text = row.client := by
  have frame := readClientField_frame
  have idEq := row.part_eq ClientInfo.id "id" (fun value => value) (fun _ _ => rfl)
    (fun client other value => (frame client other value).1) rfl
  have addrEq := row.part_eq ClientInfo.addr "addr" (fun value => value) (fun _ _ => rfl)
    (fun client other value => (frame client other value).2.1) rfl
  have nameEq := row.part_eq ClientInfo.name "name" (fun value => value) (fun _ _ => rfl)
    (fun client other value => (frame client other value).2.2.1) rfl
  have ageEq := row.part_eq ClientInfo.age "age" parseAmount (fun _ _ => rfl)
    (fun client other value => (frame client other value).2.2.2.1) rfl
  have idleEq := row.part_eq ClientInfo.idle "idle" parseAmount (fun _ _ => rfl)
    (fun client other value => (frame client other value).2.2.2.2.1) rfl
  have dbEq := row.part_eq ClientInfo.db "db" (fun value => value) (fun _ _ => rfl)
    (fun client other value => (frame client other value).2.2.2.2.2.1) rfl
  have cmdEq := row.part_eq ClientInfo.cmd "cmd" (fun value => value) (fun _ _ => rfl)
    (fun client other value => (frame client other value).2.2.2.2.2.2.1) rfl
  have subEq := row.part_eq ClientInfo.sub "sub" parseAmount (fun _ _ => rfl)
    (fun client other value => (frame client other value).2.2.2.2.2.2.2) rfl
  rw [client, ← idEq, ← addrEq, ← nameEq, ← ageEq, ← idleEq, ← dbEq, ← cmdEq, ← subEq]

theorem text_free {c : Char} (space : isWhitespace c = true) (notBlank : c ≠ ' ') :
    c ∉ row.text := by
  intro member
  rcases mem_intercalate member with rfl | ⟨word, inRow, inside⟩
  · exact notBlank rfl
  · exact (row.isWord_words word inRow).2.not_mem space inside

theorem trim_text_ne : trim row.text ≠ [] := by
  have written : '=' ∈ row.text := by
    rw [text, words]
    cases held : row.fields with
    | nil => exact absurd held row.nonempty
    | cons field later => simp [intercalate_cons]
  exact List.ne_nil_of_mem (mem_trim written (by decide))

end ClientRow

/-- One client to a line. -/
def clientsText (rows : List ClientRow) : Str :=
  rows.flatMap fun row => row.text ++ ['\n']

/-- Every row is read as its client, in order, whatever the order of its fields and
whatever else is in it. -/
theorem parseClientList_clientsText (rows : List ClientRow) :
    parseClientList (clientsText rows) = rows.map ClientRow.client := by
  have written : clientsText rows =
      (rows.map ClientRow.text).flatMap fun line => line ++ ['\n'] := by
    simp [clientsText, List.flatMap_map]
  have free : ∀ line ∈ rows.map ClientRow.text, '\n' ∉ line ∧ '\r' ∉ line := by
    intro line inText
    rcases List.mem_map.mp inText with ⟨row, _, rfl⟩
    exact ⟨row.text_free (by decide) (by decide), row.text_free (by decide) (by decide)⟩
  have shown : ∀ line ∈ rows.map ClientRow.text, decide (trim line ≠ []) = true := by
    intro line inText
    rcases List.mem_map.mp inText with ⟨row, _, rfl⟩
    exact decide_eq_true row.trim_text_ne
  rw [parseClientList, written, lines_flatMap_lf free, List.filter_eq_self.mpr shown,
    List.map_map]
  congr 1
  funext row
  exact row.parseClientRow_eq

/-- The first client has a field that is not known and a field twice, and its name is empty;
the second has only two fields. -/
theorem parseClientList_clientsText_two :
    ∃ rows : List ClientRow,
      clientsText rows = "id=3 flags=N id=5 age=70 name= addr=[::1]:4000\nidle=2 cmd=get\n".toList ∧
        parseClientList (clientsText rows) =
          [{ id := "5".toList, addr := "[::1]:4000".toList, name := [], age := 70, idle := 0
             db := [], cmd := [], sub := 0 },
            { id := [], addr := [], name := [], age := 0, idle := 2
              db := [], cmd := "get".toList, sub := 0 }] := by
  let fields (pairs : List (String × String)) : List (Str × Str) :=
    pairs.map fun pair => (pair.1.toList, pair.2.toList)
  let first : ClientRow := {
    fields := fields [("id", "3"), ("flags", "N"), ("id", "5"), ("age", "70"), ("name", ""),
      ("addr", "[::1]:4000")]
    nonempty := by decide
    unspaced := by decide }
  let second : ClientRow := {
    fields := fields [("idle", "2"), ("cmd", "get")]
    nonempty := by decide
    unspaced := by decide }
  refine ⟨[first, second], by decide, (parseClientList_clientsText _).trans ?_⟩
  decide

end Keylens.Connection
