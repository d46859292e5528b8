import Keylens.Connection.Command
import Keylens.Connection.Kind
import Mathlib.Algebra.Order.Ring.Int

/-!
# Reading a key

`readKeySequentially` asks for the type first and reads size and value after it.
`readKey` asks for everything in one pipeline -- the sizes and values of all six
types it speculates over -- and picks the slots the type turns out to justify.
-/

namespace Keylens.Connection

/-- How much of a value a single fetch pulls back. -/
def page : Nat := 200

/-- Cap on a single string value. -/
def maxStringBytes : Nat := 64 * 1024

def pageBound : Int := page

def maxStringBound : Int := maxStringBytes

/-- The largest `i64`. -/
def i64Max : Int := 2 ^ 63 - 1

/-- The types `readKey` speculates over, in the order its pipeline sends them. -/
def speculativeKinds : List Kind := [.string, .hash, .list, .set, .zset, .stream]

def slotType : Nat := 0
def slotPttl : Nat := 1
def sizeBase : Nat := 2
def valueBase : Nat := sizeBase + speculativeKinds.length
def slotMemory : Nat := valueBase + speculativeKinds.length

/-- Position of a type in `speculativeKinds`. -/
def Kind.slot (kind : Kind) : Option Nat :=
  speculativeKinds.idxOf? kind

/-- Command that reports how many elements the key holds. -/
def Kind.sizeCmd : Kind → Option CmdName
  | .string => some .strlen
  | .hash => some .hlen
  | .list => some .llen
  | .set => some .scard
  | .zset => some .zcard
  | .stream => some .xlen
  | .none | .other => Option.none

structure KeyMeta where
  key : Str
  kind : Kind
  /-- Remaining TTL in milliseconds; `none` means no expiry set. -/
  ttlMs : Option Int
  /-- Element count, or byte length for strings. -/
  size : Nat
  memory : Option Nat
  deriving DecidableEq, Repr

structure StreamEntry where
  id : Str
  fields : List (Str × Str)
  deriving DecidableEq, Repr

inductive KeyValue where
  | string (text : Str)
  | hash (fields : List (Str × Str))
  | list (items : List Str)
  | set (members : List Str)
  | zset (members : List (Str × F64))
  | stream (entries : List StreamEntry)
  /-- The key vanished between listing and reading. -/
  | missing
  /-- The server cannot provide a safely paged representation of the value. -/
  | unsupported (why : Str)
  deriving DecidableEq, Repr

/-- Everything about a key that can be learned without first knowing its type. -/
structure KeyHead where
  kind : Kind
  ttlMs : Option Int
  memory : Option Nat
  deriving DecidableEq, Repr

/-! ## Decoding replies -/

/-- What to show when there is no value to decode. -/
def absent : Kind → KeyValue
  | .other => .unsupported "module type -- no viewer for this key yet".toList
  | _ => .missing

/-- The items in twos; an odd one at the end is dropped. -/
def asPairs {α : Type} : List α → List (α × α)
  | first :: second :: rest => (first, second) :: asPairs rest
  | _ => []

section Pairs

variable {α : Type}

theorem asPairs_flatMap {β : Type} (first second : α → β) (items : List α) :
    asPairs (items.flatMap fun item => [first item, second item]) =
      items.map fun item => (first item, second item) := by
  induction items with
  | nil => rfl
  | cons item items ih =>
      rw [List.flatMap_cons, List.map_cons, ← ih]
      rfl

theorem length_asPairs (items : List α) : (asPairs items).length = items.length / 2 := by
  induction items using asPairs.induct with
  | case1 first second rest ih =>
      rw [asPairs, List.length_cons, ih, List.length_cons, List.length_cons]
      exact (Nat.add_div_right _ (by decide)).symm
  | case2 items short =>
      match items with
      | [] => simp [asPairs]
      | [first] => simp [asPairs]
      | first :: second :: rest => exact (short first second rest rfl).elim

theorem getElem?_asPairs (items : List α) (i : Nat) :
    (asPairs items)[i]? =
      (items[2 * i]?).bind fun first => (items[2 * i + 1]?).map fun second => (first, second) := by
  induction items using asPairs.induct generalizing i with
  | case1 first second rest ih =>
      rw [asPairs]
      cases i with
      | zero => rfl
      | succ i => rw [List.getElem?_cons_succ, ih]; rfl
  | case2 items short =>
      match items with
      | [] => simp [asPairs]
      | [first] => cases i <;> simp [asPairs, Nat.mul_succ]
      | first :: second :: rest => exact (short first second rest rfl).elim

theorem getElem?_asPairs_eq_some_iff {items : List α} {i : Nat} {pair : α × α} :
    (asPairs items)[i]? = some pair ↔
      items[2 * i]? = some pair.1 ∧ items[2 * i + 1]? = some pair.2 := by
  rw [getElem?_asPairs]
  cases items[2 * i]? with
  | none => simp
  | some first =>
      cases items[2 * i + 1]? with
      | none => simp
      | some second => simp [Prod.ext_iff]

theorem fst_mem_of_mem_asPairs {items : List α} {pair : α × α} (member : pair ∈ asPairs items) :
    pair.1 ∈ items := by
  rcases List.getElem?_of_mem member with ⟨i, here⟩
  exact List.mem_of_getElem? (getElem?_asPairs_eq_some_iff.mp here).1

end Pairs

namespace ValueApi

variable (api : ValueApi)

/-- Byte length of a reply, before it is rendered for display. -/
def replyByteLen (value : Value) : Nat :=
  match api.asBytes value with
  | some payload => payload.length
  | none => ((api.asString value).map fun text => (text.map Char.utf8Size).sum).getD 0

def decodeString (reply : Value) : KeyValue :=
  let truncated := maxStringBytes ≤ api.replyByteLen reply
  let text := api.displayString reply
  .string (if truncated then text ++ "\n\n... truncated ...".toList else text)

/-- An `HSCAN`/`SSCAN` reply is `[cursor, [items...]]`. -/
def scanItems : Value → Result (List Value)
  | .array [_, .array items] => .ok items
  | .array [_, other] => .error (.reply .scan ("items not an array: ".toList ++ api.debug other))
  | other =>
      .error (.reply .scan ("expected [cursor, items], got ".toList ++ api.debug other))

def asFieldPairs (items : List Value) : List (Str × Str) :=
  (asPairs items).map fun (field, value) => (api.displayString field, api.displayString value)

/-- The page stays bounded even if the server returns more than was asked for. -/
def decodeHash (reply : Value) : Result KeyValue := do
  let items ← api.scanItems reply
  return .hash (api.asFieldPairs (items.take (page * 2)))

def decodeSet (reply : Value) : Result KeyValue := do
  let items ← api.scanItems reply
  return .set ((items.take page).map api.displayString)

def asStringVec : Value → List Str
  | .array items => items.map api.displayString
  | _ => []

def asScoredPairs : Value → List (Str × F64)
  | .array items =>
      (asPairs items).map fun (member, score) =>
        (api.displayString member, (api.asF64 score).getD 0)
  | _ => []

def asStreamEntries : Value → List StreamEntry
  | .array entries =>
      entries.filterMap fun
        | .array [id, fields] =>
            some { id := api.displayString id
                   fields := match fields with
                     | .array kv => api.asFieldPairs kv
                     | _ => [] }
        | _ => none
  | _ => []

/-- Turn one type's reply into a value. -/
def decodeValue (kind : Kind) (reply : Value) : Result KeyValue :=
  match kind with
  | .string => .ok (api.decodeString reply)
  | .hash => api.decodeHash reply
  | .list => .ok (.list (api.asStringVec reply))
  | .set => api.decodeSet reply
  | .zset => .ok (.zset (api.asScoredPairs reply))
  | .stream => .ok (.stream (api.asStreamEntries reply))
  | .none | .other => .ok (absent kind)

end ValueApi

/-! ## The commands of the speculative pipeline -/

/-- The size command for a type, or `TYPE` to hold its slot. -/
def sizeCmdOrFiller (kind : Kind) : CmdName :=
  kind.sizeCmd.getD .type

/-- The bounded first-page read for one type. -/
def valueCmd (kind : Kind) (key : Str) : Command :=
  let stop := pageBound - 1
  let count := pageBound
  match kind with
  | .string => (.getrange, [.string key, .integer 0, .integer (maxStringBound - 1)])
  | .hash =>
      (.hscan, [.string key, .string "0".toList, .string "COUNT".toList, .integer count])
  | .list => (.lrange, [.string key, .integer 0, .integer stop])
  | .set =>
      (.sscan, [.string key, .string "0".toList, .string "COUNT".toList, .integer count])
  | .zset =>
      (.zrange, [.string key, .integer 0, .integer stop, .string "WITHSCORES".toList])
  | .stream =>
      (.xrange, [.string key, .string "-".toList, .string "+".toList, .string "COUNT".toList,
        .integer count])
  | .none | .other => (.type, [.string key])

/-- What can be asked for before the type is known. -/
def headCmds (wantMemory : Bool) (key : Str) : List Command :=
  [(.type, [.string key]), (.pttl, [.string key])] ++
    if wantMemory then [(.memory, [.string "USAGE".toList, .string key])] else []

/-- Everything the speculative read asks for, in one pipeline.  `MEMORY USAGE` is
conditional, so it goes last. -/
def speculativeCmds (wantMemory : Bool) (key : Str) : List Command :=
  [(.type, [.string key]), (.pttl, [.string key])] ++
    speculativeKinds.map (fun kind => (sizeCmdOrFiller kind, [.string key])) ++
    speculativeKinds.map (fun kind => valueCmd kind key) ++
    if wantMemory then [(.memory, [.string "USAGE".toList, .string key])] else []

/-- Inclusive bounds for one page starting at `offset`; `kind` only names the
command in the error. -/
def pageBounds (offset : Nat) (kind : Kind) : Result (Int × Int) :=
  let cmd := kind.sizeCmd.getD (.other "RANGE".toList)
  if i64Max < offset then
    .error (.range cmd offset "offset exceeds i64::MAX".toList)
  else if i64Max < offset + (pageBound - 1) then
    .error (.range cmd offset "offset + page size overflows i64".toList)
  else .ok (offset, offset + (pageBound - 1))

/-- A page can be counted from an offset, or the bounds are refused. -/
theorem pageBounds_cases (offset : Nat) (kind : Kind) :
    (offset + (pageBound - 1) ≤ i64Max ∧
        pageBounds offset kind = .ok ((offset : Int), offset + (pageBound - 1))) ∨
      (i64Max < offset + (pageBound - 1) ∧
        ∃ cmd detail, pageBounds offset kind = .error (.range cmd offset detail)) := by
  have positive : (0 : Int) ≤ pageBound - 1 := by decide
  rw [pageBounds]
  split
  next beyond =>
      right
      exact ⟨by omega, _, _, rfl⟩
  next =>
      split
      next beyond => exact .inr ⟨beyond, _, _, rfl⟩
      next within => exact .inl ⟨Int.not_lt.mp within, rfl⟩

/-- The reply in one slot, unless its command failed. -/
def replyAt (replies : List (Result Value)) (slot : Nat) : Option Value :=
  (replies[slot]?).bind Except.toOption

namespace Conn

variable (conn : Conn)

/-- A non-negative TTL; `-1` is no expiry and `-2` no key. -/
def ttlOf (reply : Option Value) : Option Int :=
  let ttlRaw := (reply.bind conn.client.api.asI64).getD (-1)
  if 0 ≤ ttlRaw then some ttlRaw else none

/-- The kind a `TYPE` reply names. -/
def kindOf (reply : Option Value) : Kind :=
  (reply.map fun value => Kind.parse (conn.client.api.displayString value)).getD .none

/-- Type, TTL and memory in a single round trip. -/
def keyHead (key : Str) : Result KeyHead := do
  let wantMemory := conn.capabilities.has .memoryStats
  let replies ← conn.pipeline (headCmds wantMemory key)
  return {
    kind := conn.kindOf (replyAt replies 0)
    ttlMs := conn.ttlOf (replyAt replies 1)
    memory := if wantMemory then (replyAt replies 2).bind conn.client.api.asU64 else none }

/-- Element count, or byte length for a string. -/
def keySize (key : Str) (kind : Kind) : Result Nat :=
  match kind.sizeCmd with
  | some cmd => do
      let reply ← conn.cmd cmd [.string key]
      return (conn.client.api.asU64 reply).getD 0
  | none => .ok 0

/-- Read up to a page of elements starting at `offset`. -/
def readValue (key : Str) (kind : Kind) (offset : Nat) : Result KeyValue := do
  let (start, stop) ← pageBounds offset kind
  match kind with
  | .none => return .missing
  | .string =>
      if conn.capabilities.has .getRange then
        let reply ← conn.cmd .getrange
          [.string key, .integer 0, .integer (maxStringBound - 1)]
        return conn.client.api.decodeString reply
      else
        return .unsupported "this server has no bounded string read (GETRANGE)".toList
  | .list =>
      let reply ← conn.cmd .lrange [.string key, .integer start, .integer stop]
      return .list (conn.client.api.asStringVec reply)
  | .zset =>
      let reply ← conn.cmd .zrange
        [.string key, .integer start, .integer stop, .string "WITHSCORES".toList]
      return .zset (conn.client.api.asScoredPairs reply)
  | .hash =>
      if conn.capabilities.has .cursorCollectionScan then
        let reply ← conn.cmd .hscan
          [.string key, .string "0".toList, .string "COUNT".toList, .integer pageBound]
        conn.client.api.decodeHash reply
      else
        return .unsupported "this server has no bounded hash read (HSCAN)".toList
  | .set =>
      if conn.capabilities.has .cursorCollectionScan then
        let reply ← conn.cmd .sscan
          [.string key, .string "0".toList, .string "COUNT".toList, .integer pageBound]
        conn.client.api.decodeSet reply
      else
        return .unsupported "this server has no bounded set read (SSCAN)".toList
  | .stream =>
      let reply ← conn.cmd .xrange
        [.string key, .string "-".toList, .string "+".toList, .string "COUNT".toList,
          .integer pageBound]
      return .stream (conn.client.api.asStreamEntries reply)
  | .other => return absent .other

/-- The two-round-trip path, for servers without every bounded read command. -/
def readKeySequentially (key : Str) : Result (KeyMeta × KeyValue) := do
  let head ← conn.keyHead key
  if head.kind = .none then
    return ({ key, kind := head.kind, ttlMs := none, size := 0, memory := none }, .missing)
  else
    let size := conn.keySize key head.kind
    let value := conn.readValue key head.kind 0
    return ({ key, kind := head.kind, ttlMs := head.ttlMs, size := size.toOption.getD 0,
              memory := head.memory }, ← value)

/-- Everything the detail pane needs about a key, in one round trip. -/
def readKey (key : Str) : Result (KeyMeta × KeyValue) :=
  if !(conn.capabilities.has .getRange && conn.capabilities.has .cursorCollectionScan) then
    conn.readKeySequentially key
  else do
    let wantMemory := conn.capabilities.has .memoryStats
    let replies ← conn.pipeline (speculativeCmds wantMemory key)
    let kind := conn.kindOf (replyAt replies slotType)
    let slot := kind.slot
    let keyMeta : KeyMeta := {
      key
      kind
      ttlMs := conn.ttlOf (replyAt replies slotPttl)
      size := ((slot.bind fun s => replyAt replies (sizeBase + s)).bind
        conn.client.api.asU64).getD 0
      memory :=
        if wantMemory then (replyAt replies slotMemory).bind conn.client.api.asU64 else none }
    let value ← match slot.bind fun s => replyAt replies (valueBase + s) with
      | some reply => conn.client.api.decodeValue kind reply
      | none => .ok (absent kind)
    return (keyMeta, value)

end Conn

end Keylens.Connection
