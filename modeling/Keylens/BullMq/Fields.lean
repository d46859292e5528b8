import Keylens.BullMq.Keys
import Keylens.Connection.Command
import Keylens.Library.Decimal
import Keylens.Library.Json
import Keylens.Library.Text

/-!
# The fields of a job

A job is read from its hash by a fixed list of fields, and each field is capped before
anything is made of it.  `Serde` stands for the JSON library, which is not part of the
repository.
-/

namespace Keylens.BullMq

open Keylens.Library Keylens.Connection

/-! ## The JSON library -/

inductive JsonNumber where
  /-- A `u64`. -/
  | posInt (value : Nat)
  | negInt (value : Int)
  | float (value : F64)

inductive JsonValue where
  | null
  | bool (value : Bool)
  | number (value : JsonNumber)
  | string (value : Str)
  | array (items : List JsonValue)
  | object (entries : List (Str × JsonValue))

/-- The value under a name, if it is an object that has one. -/
def JsonValue.get (name : Str) : JsonValue → Option JsonValue
  | .object entries => (entries.find? fun entry => entry.1 = name).map Prod.snd
  | _ => none

def JsonValue.asU64 : JsonValue → Option Nat
  | .number (.posInt value) => some value
  | _ => none

/-- What a text reads as. -/
structure Serde where
  strings : Str → Option (List Str)
  value : Str → Option JsonValue

/-- A list of strings is read from its JSON texts and from no others. -/
structure Serde.Lawful (serde : Serde) : Prop where
  strings_eq_some_iff : ∀ text values,
    serde.strings text = some values ↔ Json.StringArray text values

/-! ## Capping -/

/-- Cap on a single job field. -/
def maxFieldBytes : Nat := 64 * 1024

/-- What follows a field that is cut. -/
def cutMarker : Str := "\n\n... truncated ...".toList

/-- Push characters for as long as the next one fits. -/
def pushWithin (out : Str) : Str → Str
  | [] => out
  | c :: rest =>
      if maxFieldBytes < utf8Size out + c.utf8Size then out else pushWithin (out ++ [c]) rest

/-- Truncate a field on a character boundary. -/
def capField (text : Str) : Str :=
  if utf8Size text ≤ maxFieldBytes then text else pushWithin [] text ++ cutMarker

theorem pushWithin_eq {out : Str} (within : utf8Size out ≤ maxFieldBytes) (text : Str) :
    pushWithin out text = out ++ takeWithin (maxFieldBytes - utf8Size out) text := by
  induction text generalizing out with
  | nil => rw [pushWithin, takeWithin, List.append_nil]
  | cons c text ih =>
      rw [pushWithin, takeWithin]
      split
      next full => rw [if_neg (by omega), List.append_nil]
      next fits =>
          have size : utf8Size (out ++ [c]) = utf8Size out + c.utf8Size := by
            rw [utf8Size_append, utf8Size_cons, utf8Size_nil]
            omega
          rw [if_pos (by omega), ih (by omega), size, Nat.sub_add_eq, List.append_assoc]
          rfl

theorem capField_of_le {text : Str} (within : utf8Size text ≤ maxFieldBytes) :
    capField text = text :=
  if_pos within

theorem capField_of_lt {text : Str} (exceeds : maxFieldBytes < utf8Size text) :
    capField text = takeWithin maxFieldBytes text ++ cutMarker := by
  rw [capField, if_neg (Nat.not_le.mpr exceeds), pushWithin_eq (Nat.zero_le _)]
  rfl

/-- What is kept of a field over the cap is all of it that fits. -/
theorem longestWithin_capField {text : Str} (exceeds : maxFieldBytes < utf8Size text) :
    ∃ front, LongestWithin maxFieldBytes text front ∧ capField text = front ++ cutMarker :=
  ⟨_, longestWithin_takeWithin maxFieldBytes text, capField_of_lt exceeds⟩

/-- A field within the cap is kept; from any other all is kept that fits up to the end
of a character, so that three bytes of the cap are unused at most. -/
theorem capField_keeps_longest (text : Str) :
    (utf8Size text ≤ maxFieldBytes → capField text = text) ∧
      (maxFieldBytes < utf8Size text → ∃ front, LongestWithin maxFieldBytes text front ∧
        capField text = front ++ cutMarker ∧ maxFieldBytes ≤ utf8Size front + 3) ∧
      utf8Size (capField text) ≤ maxFieldBytes + utf8Size cutMarker := by
  refine ⟨capField_of_le, ?_, ?_⟩
  · intro exceeds
    rcases longestWithin_capField exceeds with ⟨front, longest, cut⟩
    exact ⟨front, longest, cut, Nat.le_of_lt_succ (longest.budget_lt exceeds)⟩
  · rcases Nat.lt_or_ge maxFieldBytes (utf8Size text) with exceeds | within
    · rcases longestWithin_capField exceeds with ⟨front, longest, cut⟩
      rw [cut, utf8Size_append]
      exact Nat.add_le_add_right longest.fits _
    · rw [capField_of_le within]
      exact Nat.le_add_right_of_le within

/-- A text of characters of two bytes. -/
theorem capField_keeps_longest_accents :
    let text := List.replicate 40000 'é'
    ∃ front, LongestWithin maxFieldBytes text front ∧ capField text = front ++ cutMarker ∧
      maxFieldBytes ≤ utf8Size front + 3 := by
  intro text
  have size : utf8Size text = 80000 := utf8Size_replicate ..
  exact (capField_keeps_longest text).2.1 (by rw [size]; decide)

/-! ## Reading a job -/

/-- The exact hash fields to read. -/
def jobFields : List Str :=
  ["name".toList, "data".toList, "opts".toList, "atm".toList, "attemptsMade".toList,
    "stacktrace".toList, "failedReason".toList, "returnvalue".toList, "progress".toList,
    "timestamp".toList, "processedOn".toList, "finishedOn".toList, "delay".toList,
    "priority".toList, "parentKey".toList]

/-- What the replies hold for a field. -/
def fieldText (values : List (Option Str)) (name : Str) : Option Str :=
  (jobFields.idxOf? name).bind fun i => (values[i]?).join

/-- A field that is not empty, capped. -/
def getField (values : List (Option Str)) (name : Str) : Option Str :=
  ((fieldText values name).filter fun text => text ≠ []).map capField

section Field

variable {values : List (Option Str)} {name text : Str}

theorem getField_eq (held : fieldText values name = some text) (nonempty : text ≠ []) :
    getField values name = some (capField text) := by
  simp [getField, held, nonempty]

/-- A field with nothing in it reads as the empty text. -/
theorem getField_getD (held : fieldText values name = some text) :
    (getField values name).getD [] = capField text := by
  by_cases empty : text = []
  · rw [empty] at held ⊢
    simp [getField, held, Option.filter_some, capField]
  · rw [getField_eq held empty]
    rfl

end Field

/-- The traces of a JSON array, or the raw text as one trace. -/
def parseStacktrace (serde : Serde) (raw : Str) : List Str :=
  if trim raw = [] then []
  else
    match serde.strings raw with
    | some traces => traces
    | none => [raw]

/-- The number of attempts in the options; it is cast to a `u32`. -/
def attemptsFromOpts (serde : Serde) (opts : Str) : Option Nat := do
  let parsed ← serde.value opts
  let attempts ← parsed.get "attempts".toList
  let number ← attempts.asU64
  return number % 2 ^ 32

/-- Build a job from replies aligned to `jobFields`. -/
def fromFields (serde : Serde) (id : Str) (values : List (Option Str)) : Job :=
  let get (name : String) : Option Str := getField values name.toList
  let number (name : String) : Option Int := (get name).bind (parseInt (-(2 ^ 63)) (2 ^ 63 - 1))
  let opts := (get "opts").getD []
  { id
    name := (get "name").getD []
    data := (get "data").getD []
    attemptsAllowed := attemptsFromOpts serde opts
    opts
    attemptsMade :=
      (((get "atm").or (get "attemptsMade")).bind (parseUnsigned (2 ^ 32 - 1))).getD 0
    stacktrace := parseStacktrace serde ((get "stacktrace").getD [])
    failedReason := (get "failedReason").getD []
    returnValue := (get "returnvalue").getD []
    progress := (get "progress").getD []
    timestamp := number "timestamp"
    processedOn := number "processedOn"
    finishedOn := number "finishedOn"
    delay := number "delay"
    priority := number "priority"
    parentKey := (get "parentKey").getD [] }

/-- The attempts made, and how many are allowed where the options say so. -/
def Job.attemptsLabel (job : Job) : Str :=
  match job.attemptsAllowed with
  | some max => decimal job.attemptsMade ++ ['/'] ++ decimal max
  | none => decimal job.attemptsMade

end Keylens.BullMq
