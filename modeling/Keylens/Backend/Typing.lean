import Keylens.Connection.Pipeline
import Keylens.Backend.Scan

/-!
# Typing the keys of a batch

Each typing pipeline may fail as a whole and each of its commands separately, and
the next one may fare otherwise.  `Typing` is what the pipelines of one batch come
to; the key in each place of the batch is typed from its own slot.
-/

namespace Keylens.Backend

open Keylens.Library Keylens.Connection

/-- What the typing pipelines of one batch come to, by their number.  A pipeline
that succeeds has a slot for each command. -/
structure Typing where
  answer : Nat → List Command → Result (List (Result Value))
  slots : ∀ n cmds replies, answer n cmds = .ok replies → replies.length = cmds.length

/-- The pipelines of a connection that does not change. -/
def typingOf (conn : Conn) : Typing where
  answer _ cmds := conn.pipeline cmds
  slots _ _ _ := Conn.length_of_pipeline

def typeCmds (keys : List Str) : List Command :=
  keys.map fun key => (.type, [.string key])

/-- The type of each key, one slot per key. -/
def keyKindsWith (typing : Typing) (keys : List Str) : List (Result Value) :=
  (chunks maxTyped keys).zipIdx.flatMap fun (chunk, n) =>
    match typing.answer n (typeCmds chunk) with
    | .ok replies => replies
    | .error _ =>
        List.replicate chunk.length (.error (.reply .type "typing batch failed".toList))

namespace Worker

/-- `typeKeys` when the pipelines come to the given answers. -/
def typeKeysWith (worker : Worker) (conn : Conn) (typing : Typing) (keys : List Str) :
    List (Str × Option Kind) :=
  match worker.kind.filter fun _ => conn.capabilities.has .scanTypeFilter with
  | some kind => keys.map fun key => (key, some kind)
  | none =>
      if keys.isEmpty then []
      else
        let kinds := keyKindsWith typing keys
        keys.zipIdx.filterMap fun (key, i) =>
          let kind := ((kinds[i]?).bind Except.toOption).map fun reply =>
            Kind.parse (conn.client.api.displayString reply)
          if worker.kind.any fun wanted => kind ≠ some wanted then none else some (key, kind)

theorem typeKeys_eq_typeKeysWith (worker : Worker) (conn : Conn) (keys : List Str) :
    worker.typeKeys conn keys = worker.typeKeysWith conn (typingOf conn) keys := by
  have kinds : keyKinds conn keys = keyKindsWith (typingOf conn) keys := by
    rw [keyKinds, keyKindsWith, ← List.zipIdx_map_fst 0 (chunks maxTyped keys), List.flatMap_map,
      List.zipIdx_map_fst]
    rfl
  rw [typeKeys, kinds]
  rfl

/-- `scanBatch` when the pipelines come to the given answers. -/
def scanBatchWith (worker : Worker) (conn : Conn) (typing : Typing) (reset : Bool) :
    Worker × Update :=
  match worker.gather maxPagesPerBatch [] 0 with
  | (.error error, worker) => (worker, .error error.text)
  | (.ok (keys, pages), worker) =>
      (worker, .batch (worker.typeKeysWith conn typing keys) reset worker.complete pages)

theorem scanBatch_eq_scanBatchWith (worker : Worker) (conn : Conn) (reset : Bool) :
    worker.scanBatch conn reset = worker.scanBatchWith conn (typingOf conn) reset := by
  rw [scanBatch, scanBatchWith]
  rcases worker.gather maxPagesPerBatch [] 0 with ⟨result, worker⟩
  cases result with
  | error error => rfl
  | ok gathered =>
      dsimp only
      rw [typeKeys_eq_typeKeysWith]

end Worker

/-! ## Own slots -/

/-- The chunk in which place `i` of a batch is typed. -/
def ownChunk (keys : List Str) (i : Nat) : List Str :=
  (keys.drop (maxTyped * (i / maxTyped))).take maxTyped

/-- The reply to the command that types place `i`, unless that command or the
pipeline of its chunk failed. -/
def Typing.ownReply (typing : Typing) (keys : List Str) (i : Nat) : Option Value :=
  match typing.answer (i / maxTyped) (typeCmds (ownChunk keys i)) with
  | .ok replies => (replies[i % maxTyped]?).bind Except.toOption
  | .error _ => none

theorem length_typeCmds (keys : List Str) : (typeCmds keys).length = keys.length :=
  List.length_map _

/-- Every place is typed from its own slot. -/
theorem keyKindsWith_slot (typing : Typing) {keys : List Str} {i : Nat} (inside : i < keys.length) :
    ((keyKindsWith typing keys)[i]?).bind Except.toOption = typing.ownReply keys i := by
  rw [keyKindsWith, getElem?_flatMap_chunks (by decide) _ inside]
  · rw [Typing.ownReply, ownChunk]
    dsimp only
    cases answered : typing.answer (i / maxTyped)
        (typeCmds ((keys.drop (maxTyped * (i / maxTyped))).take maxTyped)) with
    | ok replies => rfl
    | error error =>
        dsimp only
        rw [List.getElem?_replicate]
        split <;> rfl
  · intro chunk n
    dsimp only
    cases answered : typing.answer n (typeCmds chunk) with
    | ok replies => rw [typing.slots _ _ _ answered, length_typeCmds]
    | error error => rw [List.length_replicate]

namespace Worker

/-- What a place of a batch contributes to it. -/
def typedAt (worker : Worker) (conn : Conn) (typing : Typing) (keys : List Str) (i : Nat) :
    Option (Str × Option Kind) :=
  (keys[i]?).bind fun key =>
    match worker.kind.filter fun _ => conn.capabilities.has .scanTypeFilter with
    | some kind => some (key, some kind)
    | none =>
        let kind := (typing.ownReply keys i).map fun reply =>
          Kind.parse (conn.client.api.displayString reply)
        if worker.kind.any fun wanted => kind ≠ some wanted then none else some (key, kind)

theorem typeKeysWith_eq (worker : Worker) (conn : Conn) (typing : Typing) (keys : List Str) :
    worker.typeKeysWith conn typing keys =
      (List.range keys.length).filterMap (worker.typedAt conn typing keys) := by
  rw [List.range_eq_range', ← List.zipIdx_map_snd, List.filterMap_map, typeKeysWith]
  split
  next kind filtered =>
      rw [← List.zipIdx_map_fst 0 keys, List.map_map, ← List.filterMap_eq_map, List.zipIdx_map_fst]
      apply List.filterMap_congr
      rintro ⟨key, i⟩ place
      have here : keys[i]? = some key := List.mem_zipIdx_iff_getElem?.mp place
      simp only [Function.comp_apply, typedAt, here, filtered, Option.bind_some]
  next unfiltered =>
      split
      next empty =>
          rw [List.isEmpty_iff.mp empty]
          rfl
      next =>
          apply List.filterMap_congr
          rintro ⟨key, i⟩ place
          have here : keys[i]? = some key := List.mem_zipIdx_iff_getElem?.mp place
          have inside : i < keys.length := (List.getElem?_eq_some_iff.mp here).1
          simp only [Function.comp_apply, typedAt, here, unfiltered, Option.bind_some,
            keyKindsWith_slot typing inside]

end Worker

end Keylens.Backend
