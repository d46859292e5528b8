import Keylens.Connection.Pipeline
import Keylens.Connection.Speculation

/-!
# When a key is said to be gone

`missing` stands for a key that vanished between listing and reading.  Both reads
take a `TYPE` that failed for the answer `none`, and the speculative one takes any
failure of the value's read for a key of another type.
-/

namespace Keylens.Connection

open Keylens.Library

/-- The server's error for a key that holds another type. -/
def IsWrongType (error : ConnError) : Prop :=
  ∃ cmd source, error = .command cmd source ∧ "WRONGTYPE".toList <+: source.details

/-- What a computation failed with. -/
def errorOf {α : Type} : Result α → Option ConnError
  | .ok _ => none
  | .error error => some error

/-- The slot of the value read of a kind. -/
def valueSlot (kind : Kind) (replies : List (Result Value)) : Option (Result Value) :=
  kind.slot.bind fun s => replies[valueBase + s]?

namespace Conn

/-- Whether `readKey` asks for everything at once. -/
def speculates (conn : Conn) : Bool :=
  conn.capabilities.has .getRange && conn.capabilities.has .cursorCollectionScan

/-- The pipeline that `readKey` begins with. -/
def firstCmds (conn : Conn) (key : Str) : List Command :=
  if conn.speculates then speculativeCmds (conn.capabilities.has .memoryStats) key
  else headCmds (conn.capabilities.has .memoryStats) key

/-- `TYPE` was answered with this kind. -/
def TypeIs (conn : Conn) (replies : List (Result Value)) (kind : Kind) : Prop :=
  ∃ reply, replies[slotType]? = some (.ok reply) ∧
    Kind.parse (conn.client.api.displayString reply) = kind

/-- How the read of the value failed. -/
def valueError (conn : Conn) (key : Str) (kind : Kind) (replies : List (Result Value)) :
    Option ConnError :=
  if conn.speculates then (valueSlot kind replies).bind errorOf
  else errorOf (conn.readValue key kind 0)

/-- A key is missing only when `TYPE` answered `none`, or named a type which the
key no longer had when its value was read; another failure of that read is
reported. -/
def MissingIsGone (conn : Conn) (key : Str) : Prop :=
  ∀ replies, conn.pipeline (conn.firstCmds key) = .ok replies →
    (∀ keyMeta, conn.readKey key = .ok (keyMeta, .missing) →
      conn.TypeIs replies .none ∨
        ∃ kind ∈ speculativeKinds, conn.TypeIs replies kind ∧
          ∃ error, conn.valueError key kind replies = some error ∧ IsWrongType error) ∧
    ∀ kind ∈ speculativeKinds, conn.TypeIs replies kind →
      ∀ error, conn.valueError key kind replies = some error → ¬IsWrongType error →
        ∃ failure, conn.readKey key = .error failure

/-- `TYPE` is answered, and where everything is asked for at once the value's read
fails for a wrong type only. -/
def HearsTypeAndValue (conn : Conn) (key : Str) : Prop :=
  ∀ replies, conn.pipeline (conn.firstCmds key) = .ok replies →
    (∃ reply, replies[slotType]? = some (.ok reply)) ∧
    (conn.speculates → ∀ kind ∈ speculativeKinds, conn.TypeIs replies kind →
      ∀ error, conn.valueError key kind replies = some error → IsWrongType error)

variable {conn : Conn} {key : Str} {replies : List (Result Value)} {kind : Kind}

/-! ## Values that are there -/

theorem decodeValue_ne_missing (named : kind ∈ speculativeKinds) (reply : Value) :
    conn.client.api.decodeValue kind reply ≠ .ok .missing := by
  intro same
  cases kind with
  | string | list | zset | stream => cases same
  | hash | set =>
      rcases bind_eq_ok.mp same with ⟨items, _, rest⟩
      cases rest
  | none | other => exact absurd named (by decide)

theorem readValue_ne_missing (present : kind ≠ .none) (offset : Nat) :
    conn.readValue key kind offset ≠ .ok .missing := by
  intro same
  rcases bind_eq_ok.mp same with ⟨bounds, _, read⟩
  cases kind with
  | none => exact present rfl
  | other => cases read
  | list | zset | stream =>
      rcases bind_eq_ok.mp read with ⟨reply, _, decoded⟩
      cases decoded
  | string =>
      dsimp only at read
      split at read
      next =>
          rcases bind_eq_ok.mp read with ⟨reply, _, decoded⟩
          cases decoded
      next => cases read
  | hash =>
      dsimp only at read
      split at read
      next =>
          rcases bind_eq_ok.mp read with ⟨reply, _, decoded⟩
          exact decodeValue_ne_missing (by decide : Kind.hash ∈ speculativeKinds) reply decoded
      next => cases read
  | set =>
      dsimp only at read
      split at read
      next =>
          rcases bind_eq_ok.mp read with ⟨reply, _, decoded⟩
          exact decodeValue_ne_missing (by decide : Kind.set ∈ speculativeKinds) reply decoded
      next => cases read

/-! ## Both reads once the replies are known -/

theorem TypeIs.kindOf_eq (typed : conn.TypeIs replies kind) :
    conn.kindOf (replyAt replies slotType) = kind := by
  rcases typed with ⟨reply, slotEq, parsed⟩
  rw [replyAt, slotEq]
  exact parsed

theorem kindOf_of_unanswered (unanswered : ¬∃ reply, replies[slotType]? = some (.ok reply)) :
    conn.kindOf (replyAt replies slotType) = .none := by
  have noReply : replyAt replies slotType = none := by
    rw [replyAt]
    cases there : replies[slotType]? with
    | none => rfl
    | some slot =>
        cases slot with
        | error error => rfl
        | ok reply => exact absurd ⟨reply, there⟩ unanswered
  rw [noReply]
  rfl

theorem readKey_speculative (speculative : conn.speculates)
    (answered : conn.pipeline (conn.firstCmds key) = .ok replies) :
    ∃ keyMeta : KeyMeta, conn.readKey key =
      (match (conn.kindOf (replyAt replies slotType)).slot.bind fun s =>
          replyAt replies (valueBase + s) with
        | some reply => conn.client.api.decodeValue (conn.kindOf (replyAt replies slotType)) reply
        | none => .ok (absent (conn.kindOf (replyAt replies slotType)))).map
        fun value => (keyMeta, value) := by
  rw [firstCmds, if_pos speculative] at answered
  have both : (!(conn.capabilities.has .getRange && conn.capabilities.has .cursorCollectionScan)) ≠
      true := by
    rw [← speculates, speculative]
    decide
  let keyMeta : KeyMeta := {
    key
    kind := conn.kindOf (replyAt replies slotType)
    ttlMs := conn.ttlOf (replyAt replies slotPttl)
    size := (((conn.kindOf (replyAt replies slotType)).slot.bind fun s =>
      replyAt replies (sizeBase + s)).bind conn.client.api.asU64).getD 0
    memory :=
      if conn.capabilities.has .memoryStats then
        (replyAt replies slotMemory).bind conn.client.api.asU64
      else none }
  refine ⟨keyMeta, ?_⟩
  rw [readKey, if_neg both]
  dsimp only
  rw [answered]
  simp only [bind, Except.bind]
  cases (conn.kindOf (replyAt replies slotType)).slot.bind fun s =>
      replyAt replies (valueBase + s) with
  | none => rfl
  | some reply =>
      dsimp only
      cases conn.client.api.decodeValue (conn.kindOf (replyAt replies slotType)) reply <;> rfl

theorem readKey_sequential (sequential : ¬conn.speculates)
    (answered : conn.pipeline (conn.firstCmds key) = .ok replies) :
    ∃ keyMeta : KeyMeta, conn.readKey key =
      if conn.kindOf (replyAt replies slotType) = .none then .ok (keyMeta, .missing)
      else (conn.readValue key (conn.kindOf (replyAt replies slotType)) 0).map
        fun value => (keyMeta, value) := by
  rw [firstCmds, if_neg sequential] at answered
  have oneMissing : (!(conn.capabilities.has .getRange &&
      conn.capabilities.has .cursorCollectionScan)) = true := by
    rw [← speculates, Bool.eq_false_iff.mpr sequential]
    rfl
  have headed : ∃ head : KeyHead, conn.keyHead key = .ok head ∧
      head.kind = conn.kindOf (replyAt replies slotType) := by
    rw [keyHead, answered]
    exact ⟨_, rfl, rfl⟩
  rcases headed with ⟨head, headEq, kindEq⟩
  rw [readKey, if_pos oneMissing, readKeySequentially, headEq, ← kindEq]
  simp only [bind, Except.bind]
  split
  next => exact ⟨_, rfl⟩
  next =>
      let keyMeta : KeyMeta := {
        key
        kind := head.kind
        ttlMs := head.ttlMs
        size := (conn.keySize key head.kind).toOption.getD 0
        memory := head.memory }
      refine ⟨keyMeta, ?_⟩
      cases conn.readValue key head.kind 0 <;> rfl

/-- Every kind that is speculated over has a slot, and a pipeline that was
answered fills it. -/
theorem valueSlot_of_named (speculative : conn.speculates) (named : kind ∈ speculativeKinds)
    (answered : conn.pipeline (conn.firstCmds key) = .ok replies) :
    ∃ slot result, kind.slot = some slot ∧ replies[valueBase + slot]? = some result := by
  have placed : ∃ slot, kind.slot = some slot ∧ slot < speculativeKinds.length := by
    revert named
    cases kind <;> decide
  rcases placed with ⟨slot, slotEq, inside⟩
  have filled : valueBase + slot < replies.length := by
    rw [length_of_pipeline answered, firstCmds, if_pos speculative, speculativeCmds]
    simp only [List.length_append, List.length_map, List.length_cons, List.length_nil, valueBase,
      sizeBase]
    omega
  exact ⟨slot, _, slotEq, List.getElem?_eq_getElem filled⟩

/-- What the speculative read comes to for a kind with a slot. -/
theorem readKey_of_slot (speculative : conn.speculates)
    (answered : conn.pipeline (conn.firstCmds key) = .ok replies)
    (typed : conn.TypeIs replies kind) {slot : Nat} (slotEq : kind.slot = some slot)
    {result : Result Value} (filled : replies[valueBase + slot]? = some result) :
    ∃ keyMeta : KeyMeta, conn.readKey key =
      (match result with
        | .ok reply => conn.client.api.decodeValue kind reply
        | .error _ => .ok (absent kind)).map fun value => (keyMeta, value) := by
  rcases readKey_speculative speculative answered with ⟨keyMeta, read⟩
  refine ⟨keyMeta, ?_⟩
  rw [read, typed.kindOf_eq, slotEq, Option.bind_some, replyAt, filled]
  cases result <;> rfl

/-- When `TYPE` fails, both reads say that the key is missing. -/
theorem readKey_of_unanswered (answered : conn.pipeline (conn.firstCmds key) = .ok replies)
    (unanswered : ¬∃ reply, replies[slotType]? = some (.ok reply)) :
    ∃ keyMeta, conn.readKey key = .ok (keyMeta, .missing) := by
  have noKind : conn.kindOf (replyAt replies slotType) = .none := kindOf_of_unanswered unanswered
  by_cases speculative : conn.speculates
  · rcases readKey_speculative speculative answered with ⟨keyMeta, read⟩
    refine ⟨keyMeta, ?_⟩
    rw [read, noKind]
    rfl
  · rcases readKey_sequential speculative answered with ⟨keyMeta, read⟩
    refine ⟨keyMeta, ?_⟩
    rw [read, if_pos noKind]

theorem value_of_map_eq {α β : Type} {result : Result β} {first other : α} {value : β}
    (mapped : result.map (fun value => (first, value)) = .ok (other, value)) :
    result = .ok value := by
  cases result with
  | error error => cases mapped
  | ok found =>
      cases mapped
      rfl

/-- A kind without a viewer is never said to be missing. -/
theorem named_of_missing (speculative : conn.speculates)
    (answered : conn.pipeline (conn.firstCmds key) = .ok replies)
    (typed : conn.TypeIs replies kind) (present : kind ≠ .none) {keyMeta : KeyMeta}
    (missing : conn.readKey key = .ok (keyMeta, .missing)) : kind ∈ speculativeKinds := by
  rcases readKey_speculative speculative answered with ⟨_, read⟩
  rw [typed.kindOf_eq] at read
  cases kind with
  | none => exact absurd rfl present
  | other => cases value_of_map_eq (read.symm.trans missing)
  | _ => decide

theorem MissingIsGone.hears (gone : conn.MissingIsGone key) : conn.HearsTypeAndValue key := by
  intro replies answered
  rcases gone replies answered with ⟨justified, reported⟩
  constructor
  · by_contra unanswered
    rcases readKey_of_unanswered answered unanswered with ⟨keyMeta, missing⟩
    rcases justified keyMeta missing with ⟨reply, there, _⟩ | ⟨_, _, ⟨reply, there, _⟩, _⟩
    · exact unanswered ⟨reply, there⟩
    · exact unanswered ⟨reply, there⟩
  · intro speculative kind named typed error failed
    by_contra otherError
    rcases reported kind named typed error failed otherError with ⟨failure, read⟩
    rcases valueSlot_of_named speculative named answered with ⟨slot, result, slotEq, filled⟩
    rcases readKey_of_slot speculative answered typed slotEq filled with ⟨keyMeta, readEq⟩
    rw [valueError, if_pos speculative, valueSlot, slotEq, Option.bind_some, filled,
      Option.bind_some] at failed
    cases result with
    | ok reply => cases failed
    | error source => cases readEq.symm.trans read

theorem HearsTypeAndValue.missingIsGone (heard : conn.HearsTypeAndValue key) :
    conn.MissingIsGone key := by
  intro replies answered
  rcases heard replies answered with ⟨⟨reply, there⟩, valueHeard⟩
  constructor
  · intro keyMeta missing
    generalize kindEq : Kind.parse (conn.client.api.displayString reply) = kind
    have typed : conn.TypeIs replies kind := ⟨reply, there, kindEq⟩
    by_cases absentKind : kind = .none
    · exact .inl (absentKind ▸ typed)
    · right
      by_cases speculative : conn.speculates
      · have named : kind ∈ speculativeKinds :=
          named_of_missing speculative answered typed absentKind missing
        rcases valueSlot_of_named speculative named answered with ⟨slot, result, slotEq, filled⟩
        rcases readKey_of_slot speculative answered typed slotEq filled with ⟨_, read⟩
        cases result with
        | ok reply =>
            have decoded := value_of_map_eq (read.symm.trans missing)
            exact absurd decoded (decodeValue_ne_missing named reply)
        | error error =>
            have failed : conn.valueError key kind replies = some error := by
              rw [valueError, if_pos speculative, valueSlot, slotEq, Option.bind_some, filled]
              rfl
            exact ⟨kind, named, typed, error, failed,
              valueHeard speculative kind named typed error failed⟩
      · rcases readKey_sequential speculative answered with ⟨_, read⟩
        rw [typed.kindOf_eq, if_neg absentKind] at read
        have found := value_of_map_eq (read.symm.trans missing)
        exact absurd found (readValue_ne_missing absentKind 0)
  · intro kind named typed error failed otherError
    by_cases speculative : conn.speculates
    · exact absurd (valueHeard speculative kind named typed error failed) otherError
    · have present : kind ≠ .none := by
        rintro rfl
        exact absurd named (by decide)
      rcases readKey_sequential speculative answered with ⟨keyMeta, read⟩
      rw [typed.kindOf_eq, if_neg present] at read
      rw [valueError, if_neg speculative] at failed
      rw [read]
      cases value : conn.readValue key kind 0 with
      | error error => exact ⟨error, rfl⟩
      | ok value' =>
          rw [value] at failed
          cases failed

/-- A missing key is said to be gone for the right reason exactly when `TYPE` and
the value's read are heard. -/
theorem missingIsGone_iff (conn : Conn) (key : Str) :
    conn.MissingIsGone key ↔ conn.HearsTypeAndValue key :=
  ⟨MissingIsGone.hears, HearsTypeAndValue.missingIsGone⟩

/-- A user who may run `TYPE` and nothing else. -/
def noPerm : ClientError :=
  { kind := .other "Unknown Error".toList
    details := "NOPERM this user has no permissions to run the command".toList }

/-- The key is a string, and only its type may be asked for. -/
def refusing : Client where
  api := plainApi
  isClustered := false
  custom name _ := if name = .type then .ok (.string "string".toList) else .error noPerm
  buffer _ _ := .ok ()
  tryAll cmds := cmds.map fun cmd =>
    if cmd.1 = .type then .ok (.string "string".toList) else .error noPerm

/-- A string whose read is refused is said to be gone. -/
theorem missing_of_refused_read :
    let conn : Conn := { client := refusing, capabilities := { get := fun _ => .available } }
    (conn.readKey "k".toList).toOption.map Prod.snd = some .missing ∧
      ¬∀ (conn : Conn) (key : Str), conn.MissingIsGone key := by
  intro conn
  refine ⟨by decide +kernel, ?_⟩
  intro gone
  have pipelines : conn.client.Pipelines := ⟨fun _ _ => rfl, fun _ => rfl⟩
  have answered : conn.pipeline (conn.firstCmds "k".toList) =
      .ok ((speculativeCmds true "k".toList).map fun cmd => conn.execute cmd.1 cmd.2) :=
    pipeline_eq pipelines (readOnly_speculativeCmds plainApi_lawful true "k".toList)
  have typed : conn.TypeIs
      ((speculativeCmds true "k".toList).map fun cmd => conn.execute cmd.1 cmd.2) .string :=
    ⟨.string "string".toList, rfl, by decide⟩
  have failed : conn.valueError "k".toList .string
      ((speculativeCmds true "k".toList).map fun cmd => conn.execute cmd.1 cmd.2) =
      some (.command .getrange noPerm) := by
    decide +kernel
  rcases ((gone conn "k".toList).hears _ answered).2 (by decide) .string (by decide) typed _ failed
    with ⟨cmd, source, same, wrong⟩
  cases same
  revert wrong
  decide

end Conn

end Keylens.Connection
