import Keylens.Connection.Redis

/-!
# The one-round-trip read agrees with the sequential one

Over an unchanging keyspace the pipeline of `readKey` holds, in the slots its
type points at, the replies that `readKeySequentially` asks for one after the
other.  The slots of the other five types fail and are never looked at.
-/

namespace Keylens.Connection

open Keylens.Library

/-! ## The slots of the pipeline -/

theorem replyAt_map (conn : Conn) (cmds : List Command) (slot : Nat) :
    replyAt (cmds.map fun cmd => conn.execute cmd.1 cmd.2) slot =
      (cmds[slot]?).bind fun cmd => (conn.execute cmd.1 cmd.2).toOption := by
  rw [replyAt, List.getElem?_map]
  cases cmds[slot]? <;> rfl

/-- Slots count from the bases in the order of `speculativeKinds`. -/
theorem speculativeCmds_slot {kind : Kind} {slot : Nat} (hasSlot : kind.slot = some slot)
    (wantMemory : Bool) (key : Str) :
    (speculativeCmds wantMemory key)[sizeBase + slot]? =
        some (sizeCmdOrFiller kind, [.string key]) ∧
      (speculativeCmds wantMemory key)[valueBase + slot]? = some (valueCmd kind key) := by
  cases kind <;> cases hasSlot <;> cases wantMemory <;> exact ⟨rfl, rfl⟩

theorem readOnly_memory {api : ValueApi} (lawful : api.Lawful) (key : Str) :
    readOnlyCommand api .memory [.string "USAGE".toList, .string key] := by
  have upper : "USAGE".toList.map Char.toUpper = "USAGE".toList := by decide
  simp only [readOnlyCommand, List.getElem?_cons_zero, Option.bind_some,
    lawful.asString_string, Option.getD_some, upper, decide_true]

theorem readOnly_headCmds {api : ValueApi} (lawful : api.Lawful) (wantMemory : Bool) (key : Str) :
    ∀ cmd ∈ headCmds wantMemory key, readOnlyCommand api cmd.1 cmd.2 := by
  have memory := readOnly_memory lawful key
  cases wantMemory <;> simp [headCmds, readOnlyCommand] at memory ⊢
  exact memory

theorem readOnly_speculativeCmds {api : ValueApi} (lawful : api.Lawful) (wantMemory : Bool)
    (key : Str) :
    ∀ cmd ∈ speculativeCmds wantMemory key, readOnlyCommand api cmd.1 cmd.2 := by
  have typed : ∀ cmd ∈ speculativeCmds false key, readOnlyCommand api cmd.1 cmd.2 := by
    simp [speculativeCmds, speculativeKinds, sizeCmdOrFiller, Kind.sizeCmd, valueCmd,
      readOnlyCommand]
  intro cmd member
  have parted : cmd ∈ speculativeCmds false key ∨ cmd ∈ headCmds wantMemory key := by
    cases wantMemory with
    | false => exact .inl member
    | true =>
        rcases List.mem_append.mp member with early | last
        · exact .inl (by simpa [speculativeCmds] using early)
        · exact .inr (List.mem_append_right _ last)
  rcases parted with early | atHead
  · exact typed cmd early
  · exact readOnly_headCmds lawful wantMemory key cmd atHead

/-! ## What the server answers -/

/-- The kind of what a key holds. -/
def RedisData.kind : RedisData → Kind
  | .string _ => .string
  | .hash _ => .hash
  | .list _ => .list
  | .set _ => .set
  | .zset _ => .zset
  | .stream _ => .stream
  | .module _ => .other

/-- No name of nine characters is the name of a built-in type. -/
theorem Kind.parse_typeName (data : RedisData) : Kind.parse data.typeName = data.kind := by
  cases data with
  | module type =>
      rcases type with ⟨name, length⟩
      have different : ∀ text : Str, text.length ≠ 9 → name ≠ text := by
        intro text shorter equal
        exact shorter (equal ▸ length)
      have parsed : Kind.parse name = .other := by
        rw [Kind.parse, if_neg (different _ (by decide)), if_neg (different _ (by decide)),
          if_neg (different _ (by decide)), if_neg (different _ (by decide)),
          if_neg (different _ (by decide)), if_neg (different _ (by decide)),
          if_neg (different _ (by decide))]
      exact parsed
  | _ => rfl

/-- The kind of a key; a key that is not there has the kind `none`. -/
def kindAt (keyspace : Keyspace) (key : Str) : Kind :=
  match keyspace key with
  | none => .none
  | some entry => entry.data.kind

section Serves

variable {conn : Conn} {wire : Wire} {keyspace : Keyspace} {key : Str} {kind : Kind}

theorem Conn.Serves.execute_eq (serves : conn.Serves wire keyspace) (name : CmdName)
    (args : List Value) :
    conn.execute name args = (wire.reply keyspace name args).mapError (.command name) := by
  rw [Conn.execute, serves.custom_eq]

theorem Conn.Serves.kindOf_type (serves : conn.Serves wire keyspace) (key : Str) :
    conn.kindOf (conn.execute .type [.string key]).toOption = kindAt keyspace key := by
  rw [serves.execute_eq]
  rw [kindAt]
  cases found : keyspace key with
  | none =>
      simp only [Wire.reply, found, Except.mapError, Except.toOption, Conn.kindOf,
        Option.map_some, Option.getD_some, serves.lawful.displayString_string]
      decide
  | some entry =>
      simp only [Wire.reply, found, Except.mapError, Except.toOption, Conn.kindOf,
        Option.map_some, Option.getD_some, serves.lawful.displayString_string]
      exact Kind.parse_typeName entry.data

/-- A key that is not there has no TTL and takes no memory. -/
theorem Conn.Serves.missing_replies (serves : conn.Serves wire keyspace)
    (missing : kindAt keyspace key = .none) :
    conn.ttlOf (conn.execute .pttl [.string key]).toOption = none ∧
      ((conn.execute .memory [.string "USAGE".toList, .string key]).toOption.bind
        conn.client.api.asU64) = none := by
  have absentKey : keyspace key = none := by
    cases found : keyspace key with
    | none => rfl
    | some entry =>
        rw [kindAt, found] at missing
        cases data : entry.data <;> simp [data, RedisData.kind] at missing
  constructor
  · simp [serves.execute_eq, Wire.reply, absentKey, Except.mapError, Except.toOption, Conn.ttlOf,
      serves.lawful.asI64_integer]
  · simp [serves.execute_eq, Wire.reply, absentKey, Except.mapError, Except.toOption,
      serves.lawful.asU64_null]

/-- The value command of a key's own type succeeds. -/
theorem Conn.Serves.valueCmd_ok (serves : conn.Serves wire keyspace) (key : Str) :
    ∃ reply, conn.execute (valueCmd (kindAt keyspace key) key).1
      (valueCmd (kindAt keyspace key) key).2 = .ok reply := by
  rw [serves.execute_eq]
  rw [kindAt]
  cases found : keyspace key with
  | none => exact ⟨_, rfl⟩
  | some entry =>
      cases data : entry.data <;>
        simp [data, RedisData.kind, valueCmd, Wire.reply, Wire.readTyped, found, Except.mapError]

/-! ## Both reads -/

/-- Type, TTL and memory, from the replies to their commands. -/
theorem Conn.Serves.keyHead_eq (serves : conn.Serves wire keyspace) (key : Str) :
    conn.keyHead key = .ok {
      kind := kindAt keyspace key
      ttlMs := conn.ttlOf (conn.execute .pttl [.string key]).toOption
      memory := if conn.capabilities.has .memoryStats then
          (conn.execute .memory [.string "USAGE".toList, .string key]).toOption.bind
            conn.client.api.asU64
        else none } := by
  rw [← serves.kindOf_type key, Conn.keyHead]
  simp only [pipeline_eq serves.pipelines (readOnly_headCmds serves.lawful _ key)]
  cases conn.capabilities.has .memoryStats <;> rfl

/-- The size command of the sequential read is that of the pipeline. -/
theorem keySize_eq {slot : Nat} (hasSlot : kind.slot = some slot) (conn : Conn) (key : Str) :
    (conn.keySize key kind).toOption.getD 0 =
      ((conn.execute (sizeCmdOrFiller kind) [.string key]).toOption.bind
        conn.client.api.asU64).getD 0 := by
  have sized : ∃ name, kind.sizeCmd = some name ∧
      readOnlyCommand conn.client.api name [.string key] := by
    cases kind <;> first | exact ⟨_, rfl, rfl⟩ | cases hasSlot
  rcases sized with ⟨name, sizeCmd, allowed⟩
  rw [Conn.keySize, sizeCmdOrFiller, sizeCmd, Option.getD_some]
  simp only [Conn.cmd_eq_execute allowed]
  cases conn.execute name [.string key] <;> rfl

theorem pageBounds_zero (kind : Kind) : pageBounds 0 kind = .ok (0, pageBound - 1) := by
  cases kind <;> rfl

/-- The value command of the sequential read is that of the pipeline. -/
theorem readValue_eq {slot : Nat} (hasSlot : kind.slot = some slot)
    (getRange : conn.capabilities.has .getRange)
    (cursorScan : conn.capabilities.has .cursorCollectionScan) (key : Str) :
    conn.readValue key kind 0 =
      (conn.execute (valueCmd kind key).1 (valueCmd kind key).2).bind
        (conn.client.api.decodeValue kind) := by
  rw [Conn.readValue, pageBounds_zero]
  have allowed : readOnlyCommand conn.client.api (valueCmd kind key).1 (valueCmd kind key).2 := by
    cases kind <;> rfl
  rw [← Conn.cmd_eq_execute allowed]
  cases kind with
  | string => simp only [getRange, if_true]; rfl
  | hash => simp only [cursorScan, if_true]; rfl
  | set => simp only [cursorScan, if_true]; rfl
  | list => rfl
  | zset => rfl
  | stream => rfl
  | none => cases hasSlot
  | other => cases hasSlot

end Serves

/-- What the speculative read makes of the replies to its commands. -/
theorem Conn.Serves.readKey_eq {conn : Conn} {wire : Wire} {keyspace : Keyspace}
    (serves : conn.Serves wire keyspace) (getRange : conn.capabilities.has .getRange)
    (cursorScan : conn.capabilities.has .cursorCollectionScan) (key : Str) {kind : Kind}
    (held : kindAt keyspace key = kind) :
    conn.readKey key = do
      let keyMeta : KeyMeta := {
        key
        kind
        ttlMs := conn.ttlOf (conn.execute .pttl [.string key]).toOption
        size := ((kind.slot.bind fun _ =>
          (conn.execute (sizeCmdOrFiller kind) [.string key]).toOption).bind
            conn.client.api.asU64).getD 0
        memory := if conn.capabilities.has .memoryStats then
            (conn.execute .memory [.string "USAGE".toList, .string key]).toOption.bind
              conn.client.api.asU64
          else none }
      let value ← match kind.slot.bind fun _ =>
          (conn.execute (valueCmd kind key).1 (valueCmd kind key).2).toOption with
        | some reply => conn.client.api.decodeValue kind reply
        | none => .ok (absent kind)
      return (keyMeta, value) := by
  have sent := pipeline_eq serves.pipelines
    (readOnly_speculativeCmds serves.lawful (conn.capabilities.has .memoryStats) key)
  rw [Conn.readKey, getRange, cursorScan]
  simp only [Bool.and_self, Bool.not_true, Bool.false_eq_true, if_false, sent, bind, Except.bind,
    replyAt_map]
  generalize conn.capabilities.has .memoryStats = wantMemory
  have typeSlot : (speculativeCmds wantMemory key)[slotType]? = some (.type, [.string key]) := by
    cases wantMemory <;> rfl
  have pttlSlot : (speculativeCmds wantMemory key)[slotPttl]? = some (.pttl, [.string key]) := by
    cases wantMemory <;> rfl
  have memorySlot :
      (if wantMemory then ((speculativeCmds wantMemory key)[slotMemory]?.bind fun cmd =>
          (conn.execute cmd.1 cmd.2).toOption).bind conn.client.api.asU64 else none) =
        if wantMemory then
          (conn.execute .memory [.string "USAGE".toList, .string key]).toOption.bind
            conn.client.api.asU64
        else none := by
    cases wantMemory <;> rfl
  simp only [typeSlot, pttlSlot, memorySlot, Option.bind_some, serves.kindOf_type, held]
  cases hasSlot : kind.slot with
  | none => rfl
  | some slot =>
      rcases speculativeCmds_slot hasSlot wantMemory key with ⟨sizeSlot, valueSlot⟩
      rw [Option.bind_some, Option.bind_some, sizeSlot, valueSlot]
      rfl

/-- For the kinds with a slot, so does the sequential read. -/
theorem Conn.Serves.readKeySequentially_eq {conn : Conn} {wire : Wire} {keyspace : Keyspace}
    (serves : conn.Serves wire keyspace) (getRange : conn.capabilities.has .getRange)
    (cursorScan : conn.capabilities.has .cursorCollectionScan) (key : Str) {kind : Kind}
    (held : kindAt keyspace key = kind) {slot : Nat} (hasSlot : kind.slot = some slot) :
    conn.readKeySequentially key = do
      let keyMeta : KeyMeta := {
        key
        kind
        ttlMs := conn.ttlOf (conn.execute .pttl [.string key]).toOption
        size := ((conn.execute (sizeCmdOrFiller kind) [.string key]).toOption.bind
          conn.client.api.asU64).getD 0
        memory := if conn.capabilities.has .memoryStats then
            (conn.execute .memory [.string "USAGE".toList, .string key]).toOption.bind
              conn.client.api.asU64
          else none }
      let reply ← conn.execute (valueCmd kind key).1 (valueCmd kind key).2
      let value ← conn.client.api.decodeValue kind reply
      return (keyMeta, value) := by
  have notNone : kind ≠ .none := by
    intro equal
    rw [equal] at hasSlot
    cases hasSlot
  rw [Conn.readKeySequentially, serves.keyHead_eq, held]
  simp only [bind, Except.bind, notNone, if_false, keySize_eq hasSlot,
    readValue_eq hasSlot getRange cursorScan]
  cases conn.execute (valueCmd kind key).1 (valueCmd kind key).2 <;> rfl

/-- On a server with the bounded reads, over a keyspace that does not change, the
read in one round trip returns what the sequential read returns. -/
theorem readKey_eq_readKeySequentially {conn : Conn} {wire : Wire} {keyspace : Keyspace}
    (serves : conn.Serves wire keyspace) (getRange : conn.capabilities.has .getRange)
    (cursorScan : conn.capabilities.has .cursorCollectionScan) (key : Str) :
    conn.readKey key = conn.readKeySequentially key := by
  cases hasSlot : (kindAt keyspace key).slot with
  | some slot =>
      rcases serves.valueCmd_ok key with ⟨reply, replied⟩
      rw [serves.readKey_eq getRange cursorScan key rfl,
        serves.readKeySequentially_eq getRange cursorScan key rfl hasSlot, hasSlot]
      simp only [Option.bind_some, replied]
      rfl
  | none =>
      rw [Conn.readKeySequentially, serves.keyHead_eq]
      cases held : kindAt keyspace key with
      | none =>
          rcases serves.missing_replies held with ⟨noTtl, noMemory⟩
          rw [serves.readKey_eq getRange cursorScan key held, noTtl, noMemory, ite_self]
          rfl
      | other =>
          rw [serves.readKey_eq getRange cursorScan key held]
          rfl
      | _ =>
          rw [held] at hasSlot
          cases hasSlot

/-- A keyspace with one hash of one field, on a server with every feature. -/
theorem readKey_eq_readKeySequentially_hash :
    let wire : Wire :=
      { bulk := fun payload => .string (utf8DecodeLossy payload)
        scored := fun members => .array (members.map fun entry => .string (utf8DecodeLossy entry.1))
        scanPage := fun payloads _ => ([0x30], payloads)
        memoryUsage := fun _ _ => 72 }
    let keyspace : Keyspace := fun key =>
      if key = "bull:emails:1".toList then
        some { data := .hash [([0x6E], [0x78])], ttl := some 5000 }
      else none
    let conn := Conn.answering plainApi wire keyspace { get := fun _ => .available }
    conn.readKey "bull:emails:1".toList = conn.readKeySequentially "bull:emails:1".toList ∧
      conn.readKey "bull:emails:2".toList = conn.readKeySequentially "bull:emails:2".toList := by
  intro wire keyspace conn
  have serves := Conn.serves_answering plainApi_lawful wire keyspace { get := fun _ => .available }
  exact ⟨readKey_eq_readKeySequentially serves rfl rfl _,
    readKey_eq_readKeySequentially serves rfl rfl _⟩

end Keylens.Connection
