import Keylens.BullMq.Fields
import Keylens.Connection.Redis
import Keylens.Connection.Stream
import Mathlib.Data.List.Forall2

/-!
# Numbers that a server sends

What becomes of an integer on its way to the screen: the attempts of a job, which go
through a `u32`, and the counters of a stream, which are cast from an `i64` to a `u64`.
A number is kept exactly when it is in the range of the type it ends in.
-/

namespace Keylens.Tui.SentNumbers

open Keylens.Library Keylens.Connection Keylens.Connection.Xinfo Keylens.BullMq

/-! ## The attempts of a job -/

/-- The text the attempts made are read from, under its newer or its older name. -/
def madeText (values : List (Option Str)) : Option Str :=
  ((fieldText values "atm".toList).filter fun text => text ≠ []).or
    ((fieldText values "attemptsMade".toList).filter fun text => text ≠ [])

/-- The options are JSON that allows a number of attempts. -/
def Allows (serde : Serde) (opts : Str) (attempts : Nat) : Prop :=
  ∃ parsed, serde.value opts = some parsed ∧
    parsed.get "attempts".toList = some (.number (.posInt attempts))

/-- A job and its label show the attempts of its hash, or do not show how many are
allowed. -/
structure ShowsAttempts (serde : Serde) (values : List (Option Str)) (job : Job) : Prop where
  allowed : ∀ opts attempts, fieldText values "opts".toList = some opts →
    Allows serde opts attempts →
      job.attemptsAllowed = some attempts ∨ job.attemptsAllowed = none
  made : ∀ text number, madeText values = some text → Numeral text number →
    (job.attemptsMade : Int) = number
  label : ∀ text number, madeText values = some text → Numeral text number →
    job.attemptsLabel =
      decimalInt number ++ (job.attemptsAllowed.map fun max => '/' :: decimal max).getD []

/-- The numbers fit in a `u32`, and the text of the one that is shown is not cut; options
that are cut show nothing, and zero is the default. -/
structure AttemptsFit (serde : Serde) (values : List (Option Str)) : Prop where
  allowed : ∀ opts attempts, fieldText values "opts".toList = some opts →
    Allows serde opts attempts → attempts < 2 ^ 32 ∨ maxFieldBytes < utf8Size opts
  made : ∀ text number, madeText values = some text → Numeral text number →
    number = 0 ∨ 0 ≤ number ∧ number < 2 ^ 32 ∧ utf8Size text ≤ maxFieldBytes

/-- No JSON text ends in a dot. -/
def EndsWell (serde : Serde) : Prop :=
  ∀ text parsed, serde.value text = some parsed → text.getLast? ≠ some '.'

section Job

variable {serde : Serde} {values : List (Option Str)} {opts text : Str} {attempts : Nat}
  {number : Int}

theorem dot_of_cut (exceeds : maxFieldBytes < utf8Size text) :
    (capField text).getLast? = some '.' := by
  rw [capField_of_lt exceeds, List.getLast?_append]
  rfl

theorem attemptsAllowed_eq (held : fieldText values "opts".toList = some opts)
    (serde : Serde) (id : Str) :
    (fromFields serde id values).attemptsAllowed = attemptsFromOpts serde (capField opts) := by
  change attemptsFromOpts serde ((getField values "opts".toList).getD []) = _
  rw [getField_getD held]

theorem attemptsFromOpts_eq (allows : Allows serde opts attempts) :
    attemptsFromOpts serde opts = some (attempts % 2 ^ 32) := by
  rcases allows with ⟨parsed, read, found⟩
  rw [attemptsFromOpts, read]
  change ((parsed.get "attempts".toList).bind fun attempts =>
    attempts.asU64.bind fun number => some (number % 2 ^ 32)) = _
  rw [found]
  rfl

theorem attemptsFromOpts_cut (endsWell : EndsWell serde)
    (exceeds : maxFieldBytes < utf8Size opts) :
    attemptsFromOpts serde (capField opts) = none := by
  have unread : serde.value (capField opts) = none := by
    rw [Option.eq_none_iff_forall_ne_some]
    intro parsed read
    exact endsWell _ parsed read (dot_of_cut exceeds)
  simp [attemptsFromOpts, unread]

/-- The allowed attempts are shown, or left out, exactly when they fit in a `u32` or the
options are cut. -/
theorem allowed_shown_iff (endsWell : EndsWell serde)
    (held : fieldText values "opts".toList = some opts) (allows : Allows serde opts attempts)
    (id : Str) :
    (fromFields serde id values).attemptsAllowed = some attempts ∨
        (fromFields serde id values).attemptsAllowed = none ↔
      attempts < 2 ^ 32 ∨ maxFieldBytes < utf8Size opts := by
  rw [attemptsAllowed_eq held]
  rcases Nat.lt_or_ge maxFieldBytes (utf8Size opts) with exceeds | within
  · simp [attemptsFromOpts_cut endsWell exceeds, exceeds]
  · rw [capField_of_le within, attemptsFromOpts_eq allows]
    simp only [Option.some.injEq, reduceCtorEq, or_false, Nat.not_lt.mpr within]
    exact Nat.mod_eq_iff_lt (by decide)

theorem attemptsMade_eq (held : madeText values = some text) (serde : Serde) (id : Str) :
    (fromFields serde id values).attemptsMade =
      (parseUnsigned (2 ^ 32 - 1) (capField text)).getD 0 := by
  have field : (getField values "atm".toList).or (getField values "attemptsMade".toList) =
      some (capField text) := by
    rw [getField, getField, ← Option.map_or]
    exact congrArg (Option.map capField) held
  change (((getField values "atm".toList).or (getField values "attemptsMade".toList)).bind
    (parseUnsigned (2 ^ 32 - 1))).getD 0 = _
  rw [field]
  rfl

/-- The attempts made are shown exactly when they are none, or fit in a `u32` and are not
cut. -/
theorem made_shown_iff (held : madeText values = some text) (numeral : Numeral text number)
    (serde : Serde) (id : Str) :
    ((fromFields serde id values).attemptsMade : Int) = number ↔
      number = 0 ∨ 0 ≤ number ∧ number < 2 ^ 32 ∧ utf8Size text ≤ maxFieldBytes := by
  rw [attemptsMade_eq held]
  rcases Nat.lt_or_ge maxFieldBytes (utf8Size text) with exceeds | within
  · have dot : '.' ∈ capField text := List.mem_of_getLast? (dot_of_cut exceeds)
    rw [parseUnsigned_eq_none _ dot (by decide) (by decide)]
    simp only [Option.getD_none]
    omega
  · rw [capField_of_le within, parseUnsigned_numeral_iff numeral]
    omega

theorem attemptsLabel_eq (job : Job) :
    job.attemptsLabel = decimalInt job.attemptsMade ++
      (job.attemptsAllowed.map fun max => '/' :: decimal max).getD [] := by
  rw [Job.attemptsLabel, decimalInt_natCast]
  cases job.attemptsAllowed with
  | none => simp
  | some max => simp

theorem showsAttempts_iff (endsWell : EndsWell serde) (values : List (Option Str)) (id : Str) :
    ShowsAttempts serde values (fromFields serde id values) ↔ AttemptsFit serde values := by
  constructor
  · intro shows
    constructor
    · intro opts attempts held allows
      exact (allowed_shown_iff endsWell held allows id).mp
        (shows.allowed opts attempts held allows)
    · intro text number held numeral
      exact (made_shown_iff held numeral serde id).mp (shows.made text number held numeral)
  · intro fit
    constructor
    · intro opts attempts held allows
      exact (allowed_shown_iff endsWell held allows id).mpr
        (fit.allowed opts attempts held allows)
    · intro text number held numeral
      exact (made_shown_iff held numeral serde id).mpr (fit.made text number held numeral)
    · intro text number held numeral
      have made := (made_shown_iff held numeral serde id).mpr (fit.made text number held numeral)
      rw [← made]
      exact attemptsLabel_eq _

end Job

/-! ## The counters of a stream -/

/-- A number is shown as it was sent, or as zero. -/
def Shown (sent : Option Int) (shown : Nat) : Prop :=
  shown = 0 ∨ sent = some (shown : Int)

/-- A number that is not negative; what is missing is not. -/
def Fits (sent : Option Int) : Prop :=
  ∀ number, sent = some number → 0 ≤ number

/-- The fields of the `XINFO STREAM` reply. -/
def streamFields (conn : Conn) (key : Str) : List (Str × Value) :=
  match conn.cmd .xinfo [.string "STREAM".toList, .string key] with
  | .ok reply => fields conn.client.api reply
  | .error _ => []

/-- The groups of the `XINFO GROUPS` reply that are inspected. -/
def inspected (conn : Conn) (key : Str) : List Value :=
  match conn.cmd .xinfo [.string "GROUPS".toList, .string key] with
  | .ok (.array groups) => (groups.take maxGroups).filter (Named conn.client.api)
  | _ => []

/-- The consumers of the `XINFO CONSUMERS` reply for a group. -/
def consumersOf (conn : Conn) (key name : Str) : List Value :=
  match conn.cmd .xinfo [.string "CONSUMERS".toList, .string key, .string name] with
  | .ok (.array consumers) => consumers.filter (Named conn.client.api)
  | _ => []

/-- The counters of a group and of its consumers are shown as they were sent. -/
structure ShowsGroup (conn : Conn) (key : Str) (reply : Value) (group : GroupInfo) : Prop where
  name : group.name = text conn.client.api (fields conn.client.api reply) "name".toList
  consumerCount : Shown (num conn.client.api (fields conn.client.api reply) "consumers".toList)
    group.consumerCount
  pending : Shown (num conn.client.api (fields conn.client.api reply) "pending".toList)
    group.pending
  consumers : List.Forall₂ (fun item (consumer : ConsumerInfo) =>
    Shown (num conn.client.api (fields conn.client.api item) "pending".toList) consumer.pending)
      (consumersOf conn key group.name) group.consumers

/-- So are those of the stream, with one group for each reply that is inspected. -/
structure ShowsStream (conn : Conn) (key : Str) (info : StreamInfo) : Prop where
  length : Shown (num conn.client.api (streamFields conn key) "length".toList) info.length
  entriesAdded : ∀ shown, info.entriesAdded = some shown →
    Shown (num conn.client.api (streamFields conn key) "entries-added".toList) shown
  groups : List.Forall₂ (ShowsGroup conn key) (inspected conn key) info.groups

/-- No counter of a group or of its consumers is negative. -/
structure GroupFits (conn : Conn) (key : Str) (reply : Value) : Prop where
  consumerCount : Fits (num conn.client.api (fields conn.client.api reply) "consumers".toList)
  pending : Fits (num conn.client.api (fields conn.client.api reply) "pending".toList)
  consumers : ∀ item ∈ consumersOf conn key
      (text conn.client.api (fields conn.client.api reply) "name".toList),
    Fits (num conn.client.api (fields conn.client.api item) "pending".toList)

structure CountersFit (conn : Conn) (key : Str) : Prop where
  length : Fits (num conn.client.api (streamFields conn key) "length".toList)
  entriesAdded : Fits (num conn.client.api (streamFields conn key) "entries-added".toList)
  groups : ∀ reply ∈ inspected conn key, GroupFits conn key reply

instance (sent : Option Int) (shown : Nat) : Decidable (Shown sent shown) :=
  inferInstanceAs (Decidable (_ ∨ _))

instance : DecidablePred Fits
  | none => isTrue (by simp [Fits])
  | some number => decidable_of_iff (0 ≤ number) (by simp [Fits])

instance (conn : Conn) (key : Str) : DecidablePred (GroupFits conn key) := fun _ =>
  decidable_of_iff (_ ∧ _ ∧ _) ⟨fun ⟨a, b, c⟩ => ⟨a, b, c⟩, fun ⟨a, b, c⟩ => ⟨a, b, c⟩⟩

instance (conn : Conn) (key : Str) : Decidable (CountersFit conn key) :=
  decidable_of_iff (_ ∧ _ ∧ _) ⟨fun ⟨a, b, c⟩ => ⟨a, b, c⟩, fun ⟨a, b, c⟩ => ⟨a, b, c⟩⟩

section Stream

variable {api : ValueApi} {conn : Conn} {key : Str} {info : StreamInfo}

theorem inSigned_of_num (signed : ∀ value number, api.asI64 value = some number →
      Machine.InSigned number)
    {fields : List (Str × Value)} {name : Str} {number : Int}
    (sent : num api fields name = some number) : Machine.InSigned number := by
  rw [num] at sent
  split at sent
  next => cases sent
  next => cases sent
  next value _ _ => exact signed value number sent

/-- A counter is shown as it was sent exactly when it is not negative. -/
theorem shown_counter_iff (signed : ∀ value number, api.asI64 value = some number →
      Machine.InSigned number) {fields : List (Str × Value)} {name : Str} :
    Shown (num api fields name) (counter api fields name) ↔ Fits (num api fields name) := by
  rw [counter]
  cases sent : num api fields name with
  | none => simp [Shown, Fits, Machine.asUnsigned]
  | some number =>
      have exact := Machine.asUnsigned_eq_iff (inSigned_of_num signed sent)
      simp only [Shown, Fits, Option.getD_some, Option.some.injEq, forall_eq']
      rw [← exact, eq_comm (a := number)]

/-- So is one that may be missing. -/
theorem shown_map_iff (signed : ∀ value number, api.asI64 value = some number →
      Machine.InSigned number) {fields : List (Str × Value)} {name : Str} :
    (∀ shown, (num api fields name).map Machine.asUnsigned = some shown →
      Shown (num api fields name) shown) ↔ Fits (num api fields name) := by
  rw [← shown_counter_iff signed, counter]
  cases num api fields name with
  | none => simp [Shown, Machine.asUnsigned]
  | some number => simp

theorem groupConsumers_eq (conn : Conn) (key name : Str) :
    conn.groupConsumers key name =
      (consumersOf conn key name).map (parseConsumer conn.client.api) := by
  rw [Conn.groupConsumers, consumersOf]
  cases conn.cmd .xinfo [.string "CONSUMERS".toList, .string key, .string name] with
  | error => rfl
  | ok reply => cases reply <;> rfl

theorem showsGroup_iff (signed : ∀ value number, conn.client.api.asI64 value = some number →
      Machine.InSigned number) (reply : Value) :
    ShowsGroup conn key reply (conn.groupInfo key reply) ↔ GroupFits conn key reply := by
  let name := text conn.client.api (fields conn.client.api reply) "name".toList
  have consumersShown : List.Forall₂ (fun item (consumer : ConsumerInfo) =>
      Shown (num conn.client.api (fields conn.client.api item) "pending".toList)
        consumer.pending) (consumersOf conn key name) (conn.groupConsumers key name) ↔
      ∀ item ∈ consumersOf conn key name,
        Fits (num conn.client.api (fields conn.client.api item) "pending".toList) := by
    rw [groupConsumers_eq, List.forall₂_map_right_iff, List.forall₂_same]
    simp only [parseConsumer, shown_counter_iff signed]
  constructor
  · intro shows
    exact
      { consumerCount := (shown_counter_iff signed).mp shows.consumerCount
        pending := (shown_counter_iff signed).mp shows.pending
        consumers := consumersShown.mp shows.consumers }
  · intro fit
    exact
      { name := rfl
        consumerCount := (shown_counter_iff signed).mpr fit.consumerCount
        pending := (shown_counter_iff signed).mpr fit.pending
        consumers := consumersShown.mpr fit.consumers }

/-- What is read of a stream comes from the replies. -/
theorem streamInfo_eq (streams : conn.supportsStreams) (read : conn.streamInfo key = .ok info) :
    info.length = counter conn.client.api (streamFields conn key) "length".toList ∧
      info.entriesAdded =
        (num conn.client.api (streamFields conn key) "entries-added".toList).map
          Machine.asUnsigned ∧
      info.groups = (inspected conn key).map (conn.groupInfo key) := by
  rw [Conn.streamInfo, if_neg (by simp [streams])] at read
  rw [streamFields, inspected]
  cases stream : conn.cmd .xinfo [.string "STREAM".toList, .string key] with
  | error =>
      rw [stream] at read
      cases read
  | ok raw =>
      cases groups : conn.cmd .xinfo [.string "GROUPS".toList, .string key] with
      | error =>
          rw [stream, groups] at read
          cases read
      | ok reply =>
          rw [stream, groups] at read
          cases reply <;> cases read <;> exact ⟨rfl, rfl, rfl⟩

theorem showsStream_iff (signed : ∀ value number, conn.client.api.asI64 value = some number →
      Machine.InSigned number)
    (streams : conn.supportsStreams) (read : conn.streamInfo key = .ok info) :
    ShowsStream conn key info ↔ CountersFit conn key := by
  rcases streamInfo_eq streams read with ⟨length, entriesAdded, groups⟩
  have groupsShown : List.Forall₂ (ShowsGroup conn key) (inspected conn key) info.groups ↔
      ∀ reply ∈ inspected conn key, GroupFits conn key reply := by
    rw [groups, List.forall₂_map_right_iff, List.forall₂_same]
    simp only [showsGroup_iff signed]
  constructor
  · intro shows
    have lengthShown := shows.length
    have addedShown := shows.entriesAdded
    rw [length] at lengthShown
    rw [entriesAdded] at addedShown
    exact
      { length := (shown_counter_iff signed).mp lengthShown
        entriesAdded := (shown_map_iff signed).mp addedShown
        groups := groupsShown.mp shows.groups }
  · intro fit
    exact
      { length := by rw [length]; exact (shown_counter_iff signed).mpr fit.length
        entriesAdded := by
          rw [entriesAdded]
          exact (shown_map_iff signed).mpr fit.entriesAdded
        groups := groupsShown.mpr fit.groups }

end Stream

/-! ## Both -/

/-- The attempts of every job are shown as they were sent exactly when they fit, and so
are the counters of every stream. -/
theorem sent_numbers_shown_iff {serde : Serde} {conn : Conn} {key : Str} {info : StreamInfo}
    (endsWell : EndsWell serde)
    (signed : ∀ value number, conn.client.api.asI64 value = some number →
      Machine.InSigned number)
    (streams : conn.supportsStreams) (read : conn.streamInfo key = .ok info)
    (values : List (Option Str)) (id : Str) :
    (ShowsAttempts serde values (fromFields serde id values) ↔ AttemptsFit serde values) ∧
      (ShowsStream conn key info ↔ CountersFit conn key) :=
  ⟨showsAttempts_iff endsWell values id, showsStream_iff signed streams read⟩

/-- The options of a job that allow a number of attempts and say nothing else. -/
def optsText (attempts : Nat) : Str :=
  "\x7b\"attempts\":".toList ++ decimal attempts ++ ['\x7d']

/-- A JSON library that reads these options. -/
def optsOnly (attempts : Nat) : Serde where
  strings _ := none
  value text :=
    if text = optsText attempts then
      some (.object [("attempts".toList, .number (.posInt attempts))])
    else none

theorem getLast?_optsText (attempts : Nat) : (optsText attempts).getLast? = some '\x7d' :=
  List.getLast?_concat

theorem optsOnly_endsWell (attempts : Nat) : EndsWell (optsOnly attempts) := by
  intro text parsed read
  by_cases same : text = optsText attempts
  · rw [same, getLast?_optsText]
    decide
  · have unread : (optsOnly attempts).value text = none := if_neg same
    rw [unread] at read
    cases read

theorem allows_optsOnly_iff {attempts number : Nat} :
    Allows (optsOnly attempts) (optsText attempts) number ↔ number = attempts := by
  have read : (optsOnly attempts).value (optsText attempts) =
      some (.object [("attempts".toList, .number (.posInt attempts))]) := if_pos rfl
  have found (name : Str) (value : JsonValue) :
      (JsonValue.object [(name, value)]).get name = some value := by
    simp [JsonValue.get]
  constructor
  · rintro ⟨parsed, readParsed, foundParsed⟩
    rw [← Option.some.inj (read.symm.trans readParsed), found] at foundParsed
    cases foundParsed
    rfl
  · rintro rfl
    exact ⟨_, read, found _ _⟩

/-- The replies for a job with these options and a text for the attempts made. -/
def attemptsOnly (attempts : Nat) (made : Str) : List (Option Str) :=
  jobFields.map fun name =>
    if name = "opts".toList then some (optsText attempts)
    else if name = "atm".toList then some made
    else none

/-- Conversions that stay within an `i64`. -/
def wordApi : ValueApi :=
  { plainApi with
    asI64 := fun value => (plainApi.asI64 value).filter fun number => Machine.InSigned number }

/-- A stream of a length with one group and one consumer. -/
def streamOf (length pending : Int) : Conn :=
  let name (text : String) : Value := .string text.toList
  { client :=
      { api := wordApi
        isClustered := false
        custom := fun cmd args =>
          match cmd, args with
          | .xinfo, [.string command, _] =>
              if command = "STREAM".toList then .ok (.array [name "length", .integer length])
              else .ok (.array [.array [name "name", name "workers", name "consumers",
                .integer 1, name "pending", .integer pending]])
          | .xinfo, _ =>
              .ok (.array [.array [name "name", name "first", name "pending",
                .integer pending, name "idle", .integer 100]])
          | .xpending, _ => .ok (.array [.integer pending, name "1-0", name "2-0", .array []])
          | _, _ => .error badCommand
        buffer := fun _ _ => .ok ()
        tryAll := fun _ => [] }
    capabilities := { get := fun _ => .available } }

theorem signed_wordApi (value : Value) (number : Int)
    (sent : wordApi.asI64 value = some number) : Machine.InSigned number := by
  have inside := (Option.filter_eq_some_iff.mp sent).2
  simpa using inside

theorem some_numbers_shown :
    ∃ info, (streamOf 10044 27).streamInfo "audit".toList = .ok info ∧
      ShowsStream (streamOf 10044 27) "audit".toList info ∧
      ShowsAttempts (optsOnly 3) (attemptsOnly 3 "2".toList)
        (fromFields (optsOnly 3) "1".toList (attemptsOnly 3 "2".toList)) := by
  have fit : AttemptsFit (optsOnly 3) (attemptsOnly 3 "2".toList) := by
    constructor
    · intro opts attempts held allows
      rw [← Option.some.inj held, allows_optsOnly_iff] at allows
      rw [allows]
      exact Or.inl (by decide)
    · intro text number held numeral
      rw [← Option.some.inj held] at numeral ⊢
      have digits : parseNat "2".toList = some 2 := by decide
      rw [numeral.eq_of_parseNat digits]
      decide
  have read : ∃ info, (streamOf 10044 27).streamInfo "audit".toList = .ok info := ⟨_, rfl⟩
  rcases read with ⟨info, read⟩
  have shown := sent_numbers_shown_iff (optsOnly_endsWell 3) signed_wordApi rfl read
    (attemptsOnly 3 "2".toList) "1".toList
  exact ⟨info, read, shown.2.mpr (by decide), shown.1.mpr fit⟩

/-- More attempts than a `u32` holds, and a length that is negative. -/
theorem wrapped_numbers_shown :
    ∃ info, (streamOf (-1) 0).streamInfo "audit".toList = .ok info ∧
      ¬ShowsStream (streamOf (-1) 0) "audit".toList info ∧
      ¬ShowsAttempts (optsOnly 4294967299) (attemptsOnly 4294967299 "2".toList)
        (fromFields (optsOnly 4294967299) "1".toList (attemptsOnly 4294967299 "2".toList)) := by
  refine ⟨_, rfl, ?_, ?_⟩
  · intro shows
    have length := shows.length
    revert length
    decide
  · intro shows
    have shown := shows.allowed _ _ rfl (allows_optsOnly_iff.mpr rfl)
    rw [allowed_shown_iff (optsOnly_endsWell _) rfl (allows_optsOnly_iff.mpr rfl)] at shown
    revert shown
    decide

end Keylens.Tui.SentNumbers
