import Keylens.Connection.ReadKey
import Keylens.Library.Traced

/-!
# The commands that reads send

The reads of `ReadKey` once more, with the commands they send.  Forgetting the
commands gives the reads back.
-/

namespace Keylens.Connection

open Keylens.Library

/-- A computation and the commands it sends. -/
abbrev Sent (α : Type) := Traced Command ConnError α

namespace Conn

variable (conn : Conn)

def cmdSent (name : CmdName) (args : List Value) : Sent Value where
  events := [(name, args)]
  result := conn.cmd name args

def pipelineSent (cmds : List Command) : Sent (List (Result Value)) where
  events := cmds
  result := conn.pipeline cmds

def keyHeadSent (key : Str) : Sent KeyHead := do
  let wantMemory := conn.capabilities.has .memoryStats
  let replies ← conn.pipelineSent (headCmds wantMemory key)
  return {
    kind := conn.kindOf (replyAt replies 0)
    ttlMs := conn.ttlOf (replyAt replies 1)
    memory := if wantMemory then (replyAt replies 2).bind conn.client.api.asU64 else none }

def keySizeSent (key : Str) (kind : Kind) : Sent Nat :=
  match kind.sizeCmd with
  | some cmd => do
      let reply ← conn.cmdSent cmd [.string key]
      return (conn.client.api.asU64 reply).getD 0
  | none => .done (.ok 0)

def readValueSent (key : Str) (kind : Kind) (offset : Nat) : Sent KeyValue := do
  let (start, stop) ← .done (pageBounds offset kind)
  match kind with
  | .none => return .missing
  | .string =>
      if conn.capabilities.has .getRange then
        let reply ← conn.cmdSent .getrange
          [.string key, .integer 0, .integer (maxStringBound - 1)]
        return conn.client.api.decodeString reply
      else
        return .unsupported "this server has no bounded string read (GETRANGE)".toList
  | .list =>
      let reply ← conn.cmdSent .lrange [.string key, .integer start, .integer stop]
      return .list (conn.client.api.asStringVec reply)
  | .zset =>
      let reply ← conn.cmdSent .zrange
        [.string key, .integer start, .integer stop, .string "WITHSCORES".toList]
      return .zset (conn.client.api.asScoredPairs reply)
  | .hash =>
      if conn.capabilities.has .cursorCollectionScan then
        let reply ← conn.cmdSent .hscan
          [.string key, .string "0".toList, .string "COUNT".toList, .integer pageBound]
        .done (conn.client.api.decodeHash reply)
      else
        return .unsupported "this server has no bounded hash read (HSCAN)".toList
  | .set =>
      if conn.capabilities.has .cursorCollectionScan then
        let reply ← conn.cmdSent .sscan
          [.string key, .string "0".toList, .string "COUNT".toList, .integer pageBound]
        .done (conn.client.api.decodeSet reply)
      else
        return .unsupported "this server has no bounded set read (SSCAN)".toList
  | .stream =>
      let reply ← conn.cmdSent .xrange
        [.string key, .string "-".toList, .string "+".toList, .string "COUNT".toList,
          .integer pageBound]
      return .stream (conn.client.api.asStreamEntries reply)
  | .other => return absent .other

/-- Size and value go out together. -/
def readKeySequentiallySent (key : Str) : Sent (KeyMeta × KeyValue) := do
  let head ← conn.keyHeadSent key
  if head.kind = .none then
    return ({ key, kind := head.kind, ttlMs := none, size := 0, memory := none }, .missing)
  else
    let (size, value) ←
      Traced.both (conn.keySizeSent key head.kind) (conn.readValueSent key head.kind 0)
    .done do
      return ({ key, kind := head.kind, ttlMs := head.ttlMs, size := size.toOption.getD 0,
                memory := head.memory }, ← value)

def readKeySent (key : Str) : Sent (KeyMeta × KeyValue) :=
  if !(conn.capabilities.has .getRange && conn.capabilities.has .cursorCollectionScan) then
    conn.readKeySequentiallySent key
  else do
    let wantMemory := conn.capabilities.has .memoryStats
    let replies ← conn.pipelineSent (speculativeCmds wantMemory key)
    let kind := conn.kindOf (replyAt replies slotType)
    let slot := kind.slot
    let keyMeta : KeyMeta := {
      key
      kind
      ttlMs := conn.ttlOf (replyAt replies slotPttl)
      size := ((slot.bind fun s => replyAt replies (sizeBase + s)).bind
        conn.client.api.asU64).getD 0
      memory :=
        if wantMemory then (replyAt replies slotMemory).bind conn.client.api.asU64 else none }
    let value ← match slot.bind fun s => replyAt replies (valueBase + s) with
      | some reply => .done (conn.client.api.decodeValue kind reply)
      | none => .done (.ok (absent kind))
    return (keyMeta, value)

variable {conn}

@[simp] theorem result_cmdSent (name : CmdName) (args : List Value) :
    (conn.cmdSent name args).result = conn.cmd name args := rfl

@[simp] theorem result_pipelineSent (cmds : List Command) :
    (conn.pipelineSent cmds).result = conn.pipeline cmds := rfl

/-! ## Forgetting the commands -/

theorem keyHeadSent_result (key : Str) : (conn.keyHeadSent key).result = conn.keyHead key := by
  rw [keyHeadSent, keyHead, Traced.result_bind]
  rfl

theorem keySizeSent_result (key : Str) (kind : Kind) :
    (conn.keySizeSent key kind).result = conn.keySize key kind := by
  rw [keySizeSent, keySize]
  cases kind.sizeCmd with
  | none => rfl
  | some cmd =>
      dsimp only
      rw [Traced.result_bind]
      rfl

theorem readValueSent_result (key : Str) (kind : Kind) (offset : Nat) :
    (conn.readValueSent key kind offset).result = conn.readValue key kind offset := by
  rw [readValueSent, readValue, Traced.result_bind, Traced.result_done]
  congr 1
  funext bounds
  cases kind with
  | none | other => rfl
  | list | zset | stream =>
      dsimp only
      rw [Traced.result_bind]
      rfl
  | string =>
      by_cases supported : conn.capabilities.has .getRange
      · simp only [supported, if_true, Traced.result_bind]
        rfl
      · simp only [supported]
        rfl
  | hash | set =>
      by_cases supported : conn.capabilities.has .cursorCollectionScan
      · simp only [supported, if_true, Traced.result_bind]
        rfl
      · simp only [supported]
        rfl

theorem readKeySequentiallySent_result (key : Str) :
    (conn.readKeySequentiallySent key).result = conn.readKeySequentially key := by
  rw [readKeySequentiallySent, readKeySequentially, Traced.result_bind, keyHeadSent_result]
  congr 1
  funext head
  split
  next => rfl
  next =>
      rw [Traced.result_bind, Traced.result_both, keySizeSent_result, readValueSent_result]
      rfl

theorem readKeySent_result (key : Str) : (conn.readKeySent key).result = conn.readKey key := by
  rw [readKeySent, readKey]
  split
  next => exact readKeySequentiallySent_result key
  next =>
      dsimp only
      rw [Traced.result_bind, result_pipelineSent]
      congr 1
      funext replies
      cases (conn.kindOf (replyAt replies slotType)).slot.bind fun s =>
          replyAt replies (valueBase + s) with
      | none => rfl
      | some reply =>
          dsimp only
          rw [Traced.result_bind]
          rfl

end Conn

/-! ## Bounded commands -/

/-- The bounds of a range read: none is negative, none exceeds an `i64`, and the
elements between them are at most `limit`. -/
structure InRange (limit : Nat) (start stop : Int) : Prop where
  nonneg : 0 ≤ start
  ordered : start ≤ stop
  short : stop - start < limit
  fits : stop ≤ i64Max

/-- A command on one key that reads metadata, a count, a prefix of a string, one
page of a collection, or at most `limit` elements by their rank. -/
inductive Bounded (key : Str) (limit : Nat) : Command → Prop where
  | type : Bounded key limit (.type, [.string key])
  | pttl : Bounded key limit (.pttl, [.string key])
  | memory : Bounded key limit (.memory, [.string "USAGE".toList, .string key])
  | count {kind : Kind} {name : CmdName} (counts : kind.sizeCmd = some name) :
      Bounded key limit (name, [.string key])
  | getrange :
      Bounded key limit (.getrange, [.string key, .integer 0, .integer (maxStringBound - 1)])
  | scan {name : CmdName} (scans : name = .hscan ∨ name = .sscan) :
      Bounded key limit
        (name, [.string key, .string "0".toList, .string "COUNT".toList, .integer pageBound])
  | xrange :
      Bounded key limit
        (.xrange, [.string key, .string "-".toList, .string "+".toList, .string "COUNT".toList,
          .integer pageBound])
  | lrange {start stop : Int} (within : InRange limit start stop) :
      Bounded key limit (.lrange, [.string key, .integer start, .integer stop])
  | scored {name : CmdName} {start stop : Int} (ranks : name = .zrange ∨ name = .zrevrange)
      (within : InRange limit start stop) :
      Bounded key limit
        (name, [.string key, .integer start, .integer stop, .string "WITHSCORES".toList])

theorem firstPage_inRange : InRange page 0 (pageBound - 1) := by
  constructor <;> decide

theorem inRange_of_fits {offset limit : Nat} (positive : 0 < limit)
    (fits : offset + (limit - 1 : Int) ≤ i64Max) :
    InRange limit offset (offset + (limit - 1)) where
  nonneg := Int.natCast_nonneg offset
  ordered := by omega
  short := by omega
  fits := fits

theorem pageBounds_inRange {offset : Nat} {kind : Kind} {bounds : Int × Int}
    (formed : pageBounds offset kind = .ok bounds) : InRange page bounds.1 bounds.2 := by
  have positive : 0 < page := by decide
  rcases pageBounds_cases offset kind with ⟨fits, bounded⟩ | ⟨_, _, _, unformed⟩
  · rw [formed] at bounded
    cases bounded
    exact inRange_of_fits positive fits
  · rw [formed] at unformed
    cases unformed

theorem headCmds_bounded (key : Str) (limit : Nat) (wantMemory : Bool) :
    ∀ cmd ∈ headCmds wantMemory key, Bounded key limit cmd := by
  intro cmd member
  rcases List.mem_append.mp member with always | extra
  · simp only [List.mem_cons, List.not_mem_nil, or_false] at always
    rcases always with rfl | rfl
    · exact .type
    · exact .pttl
  · split at extra
    · rw [List.mem_singleton.mp extra]
      exact .memory
    · cases extra

theorem valueCmd_bounded (key : Str) (kind : Kind) : Bounded key page (valueCmd kind key) := by
  cases kind with
  | string => exact .getrange
  | hash => exact .scan (.inl rfl)
  | list => exact .lrange firstPage_inRange
  | set => exact .scan (.inr rfl)
  | zset => exact .scored (.inl rfl) firstPage_inRange
  | stream => exact .xrange
  | none | other => exact .type

theorem sizeCmdOrFiller_bounded (key : Str) (kind : Kind) (limit : Nat) :
    Bounded key limit (sizeCmdOrFiller kind, [.string key]) := by
  rw [sizeCmdOrFiller]
  cases counts : kind.sizeCmd with
  | none => exact .type
  | some name => exact .count counts

theorem speculativeCmds_bounded (key : Str) (wantMemory : Bool) :
    ∀ cmd ∈ speculativeCmds wantMemory key, Bounded key page cmd := by
  intro cmd member
  simp only [speculativeCmds, List.mem_append, List.mem_map] at member
  rcases member with ((head | ⟨kind, _, rfl⟩) | ⟨kind, _, rfl⟩) | extra
  · exact headCmds_bounded key page wantMemory cmd (List.mem_append_left _ head)
  · exact sizeCmdOrFiller_bounded key kind page
  · exact valueCmd_bounded key kind
  · exact headCmds_bounded key page wantMemory cmd (List.mem_append_right _ extra)

/-! ## Bounded reads -/

namespace Conn

variable {conn : Conn}

theorem cmdSent_causes {good : Command → Prop} {name : CmdName} {args : List Value}
    (bounded : good (name, args)) : (conn.cmdSent name args).Causes good := by
  intro cmd member
  rw [List.mem_singleton.mp member]
  exact bounded

theorem keyHeadSent_bounded (key : Str) (limit : Nat) :
    (conn.keyHeadSent key).Causes (Bounded key limit) := by
  apply Traced.Causes.bind
  · exact headCmds_bounded key limit _
  · exact fun _ => Traced.causes_pure _

theorem keySizeSent_bounded (key : Str) (kind : Kind) (limit : Nat) :
    (conn.keySizeSent key kind).Causes (Bounded key limit) := by
  rw [keySizeSent]
  cases counts : kind.sizeCmd with
  | none => exact Traced.causes_done _
  | some name => exact (cmdSent_causes (.count counts)).bind fun _ => Traced.causes_pure _

/-- A read whose bounds cannot be formed sends nothing. -/
theorem readValueSent_of_error {offset : Nat} {kind : Kind} {error : ConnError}
    (unformed : pageBounds offset kind = .error error) (key : Str) :
    conn.readValueSent key kind offset = .done (.error error) := by
  rw [readValueSent, unformed]
  rfl

theorem readValueSent_bounded (key : Str) (kind : Kind) (offset : Nat) :
    (conn.readValueSent key kind offset).Causes (Bounded key page) := by
  cases formed : pageBounds offset kind with
  | error error =>
      rw [readValueSent_of_error formed]
      exact Traced.causes_done _
  | ok bounds =>
      have within := pageBounds_inRange formed
      rw [readValueSent, formed, Traced.done_ok_bind]
      cases kind with
      | none | other => exact Traced.causes_pure _
      | list => exact (cmdSent_causes (.lrange within)).bind fun _ => Traced.causes_pure _
      | zset =>
          exact (cmdSent_causes (.scored (.inl rfl) within)).bind fun _ => Traced.causes_pure _
      | stream => exact (cmdSent_causes .xrange).bind fun _ => Traced.causes_pure _
      | string =>
          dsimp only
          split
          next => exact (cmdSent_causes .getrange).bind fun _ => Traced.causes_pure _
          next => exact Traced.causes_pure _
      | hash =>
          dsimp only
          split
          next => exact (cmdSent_causes (.scan (.inl rfl))).bind fun _ => Traced.causes_done _
          next => exact Traced.causes_pure _
      | set =>
          dsimp only
          split
          next => exact (cmdSent_causes (.scan (.inr rfl))).bind fun _ => Traced.causes_done _
          next => exact Traced.causes_pure _

/-- Where the bounded read of its kind is missing, a value is not read at all. -/
theorem events_readValueSent_of_unsupported {kind : Kind} (key : Str) (offset : Nat)
    (unsupported :
      kind = .string ∧ ¬conn.capabilities.has .getRange ∨
        (kind = .hash ∨ kind = .set) ∧ ¬conn.capabilities.has .cursorCollectionScan) :
    (conn.readValueSent key kind offset).events = [] := by
  cases formed : pageBounds offset kind with
  | error error => rw [readValueSent_of_error formed, Traced.done]
  | ok bounds =>
      rw [readValueSent, formed, Traced.done_ok_bind]
      rcases unsupported with ⟨rfl, lacks⟩ | ⟨rfl | rfl, lacks⟩
      all_goals
        dsimp only
        rw [if_neg lacks]
        rfl

theorem readKeySequentiallySent_bounded (key : Str) :
    (conn.readKeySequentiallySent key).Causes (Bounded key page) := by
  apply (keyHeadSent_bounded key page).bind
  intro head
  split
  next => exact Traced.causes_pure _
  next =>
      apply ((keySizeSent_bounded key head.kind page).both
        (readValueSent_bounded key head.kind 0)).bind
      exact fun _ => Traced.causes_done _

theorem readKeySent_bounded (key : Str) :
    (conn.readKeySent key).Causes (Bounded key page) := by
  rw [readKeySent]
  split
  next => exact readKeySequentiallySent_bounded key
  next =>
      have sent : (conn.pipelineSent (speculativeCmds (conn.capabilities.has .memoryStats)
          key)).Causes (Bounded key page) :=
        speculativeCmds_bounded key _
      apply sent.bind
      intro replies
      dsimp only
      cases (conn.kindOf (replyAt replies slotType)).slot.bind fun s =>
          replyAt replies (valueBase + s) with
      | none => exact (Traced.causes_done _).bind fun _ => Traced.causes_pure _
      | some reply => exact (Traced.causes_done _).bind fun _ => Traced.causes_pure _

end Conn

end Keylens.Connection
