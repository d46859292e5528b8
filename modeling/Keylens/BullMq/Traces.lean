import Keylens.BullMq.Fields
import Mathlib.Data.List.Forall2

/-!
# The traces of a job

The stack traces of a job are the strings of a JSON array in one of its fields.  The
field is capped before it is read, so an array over the cap loses its end, is JSON no
more and is shown as it stands.
-/

namespace Keylens.BullMq

open Keylens.Library Keylens.Connection

/-- The traces are shown one by one, each whole or cut at the cap, and the text they were
read from is not. -/
structure ShowsTraces (raw : Str) (traces shown : List Str) : Prop where
  each : List.Forall₂ (fun trace entry => entry = trace ∨ entry = capField trace) traces shown
  notRaw : capField raw ∉ shown

section Reading

variable {serde : Serde} {raw : Str} {traces : List Str} {values : List (Option Str)}

theorem stacktrace_eq (held : fieldText values "stacktrace".toList = some raw)
    (serde : Serde) (id : Str) :
    (fromFields serde id values).stacktrace = parseStacktrace serde (capField raw) := by
  change parseStacktrace serde ((getField values "stacktrace".toList).getD []) = _
  rw [getField_getD held]

/-- An array within the cap is read as its strings. -/
theorem parseStacktrace_array (lawful : serde.Lawful) (array : Json.StringArray raw traces) :
    parseStacktrace serde raw = traces := by
  have shown : trim raw ≠ [] := List.ne_nil_of_mem (mem_trim array.bracket_mem rfl)
  rw [parseStacktrace, if_neg shown, (lawful.strings_eq_some_iff raw traces).mpr array]

/-- What is cut does not end as an array does. -/
theorem not_stringArray_capField (exceeds : maxFieldBytes < utf8Size raw) (traces : List Str) :
    ¬Json.StringArray (capField raw) traces := by
  intro array
  have last : (capField raw).getLast? = some '.' := by
    rw [capField_of_lt exceeds, List.getLast?_append]
    rfl
  rcases array.getLast?_eq last with bracket | space
  · exact absurd bracket (by decide)
  · exact absurd space (by decide)

theorem parseStacktrace_capField (lawful : serde.Lawful) (exceeds : maxFieldBytes < utf8Size raw) :
    parseStacktrace serde (capField raw) = [capField raw] := by
  have dot : '.' ∈ capField raw := by
    rw [capField_of_lt exceeds]
    exact List.mem_append_right _ (by decide)
  have unread : serde.strings (capField raw) = none := by
    rw [Option.eq_none_iff_forall_ne_some]
    intro traces read
    exact not_stringArray_capField exceeds traces ((lawful.strings_eq_some_iff _ _).mp read)
  rw [parseStacktrace, if_neg (List.ne_nil_of_mem (mem_trim dot rfl)), unread]

/-- An array over the cap is shown as one trace. -/
theorem not_showsTraces (lawful : serde.Lawful)
    (held : fieldText values "stacktrace".toList = some raw)
    (exceeds : maxFieldBytes < utf8Size raw) (id : Str) :
    ¬ShowsTraces raw traces (fromFields serde id values).stacktrace := by
  rw [stacktrace_eq held, parseStacktrace_capField lawful exceeds]
  intro shows
  exact shows.notRaw (List.mem_singleton_self _)

/-- The traces are shown exactly if the text of the whole array is within the cap, however
small each of them is. -/
theorem showsTraces_iff (lawful : serde.Lawful) (array : Json.StringArray raw traces)
    (held : fieldText values "stacktrace".toList = some raw) (id : Str) :
    ShowsTraces raw traces (fromFields serde id values).stacktrace ↔
      utf8Size raw ≤ maxFieldBytes := by
  constructor
  · intro shows
    by_contra exceeds
    exact not_showsTraces lawful held (Nat.not_le.mp exceeds) id shows
  · intro within
    rw [stacktrace_eq held, capField_of_le within, parseStacktrace_array lawful array]
    refine ⟨List.forall₂_same.mpr fun trace _ => .inl rfl, ?_⟩
    rw [capField_of_le within]
    intro member
    exact absurd (array.utf8Size_lt member) (Nat.lt_irrefl _)

end Reading

/-! ## One job -/

/-- A JSON library that reads lists of strings. -/
def stringsOnly : Serde where
  strings := Json.readStrings
  value _ := none

theorem stringsOnly_lawful : stringsOnly.Lawful where
  strings_eq_some_iff _ _ := Json.readStrings_eq_some_iff

/-- The replies for a job that has nothing but traces. -/
def tracesOnly (traces : List Str) : List (Option Str) :=
  jobFields.map fun name =>
    if name = "stacktrace".toList then some (Json.writeStrings traces) else none

/-- One long trace is not shown. -/
theorem long_trace_lost :
    let traces := [List.replicate 70000 'a']
    let job := fromFields stringsOnly "1".toList (tracesOnly traces)
    ¬ShowsTraces (Json.writeStrings traces) traces job.stacktrace := by
  intro traces job
  have array := Json.stringArray_writeStrings traces
  have held : fieldText (tracesOnly traces) "stacktrace".toList =
      some (Json.writeStrings traces) := rfl
  have larger := array.utf8Size_lt (List.mem_singleton_self _)
  have size : utf8Size (List.replicate 70000 'a') = 70000 := utf8Size_replicate ..
  have exceeds : maxFieldBytes < utf8Size (Json.writeStrings traces) := by
    rw [size] at larger
    exact Nat.lt_trans (by decide) larger
  exact not_showsTraces stringsOnly_lawful held exceeds _

theorem two_traces_shown :
    let traces := ["first\n  at a".toList, "second\n  at b".toList]
    let job := fromFields stringsOnly "1".toList (tracesOnly traces)
    ShowsTraces (Json.writeStrings traces) traces job.stacktrace := by
  intro traces job
  have array := Json.stringArray_writeStrings traces
  exact (showsTraces_iff stringsOnly_lawful array rfl _).mpr (by decide)

end Keylens.BullMq
