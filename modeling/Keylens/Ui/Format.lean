import Keylens.Basic
import Keylens.Library.Decimal

/-!
# Formatting numbers and texts
-/

namespace Keylens.Ui

open Keylens.Library

/-- A number with thousands separators. -/
def count (number : Nat) : Str :=
  let digits := decimal number
  digits.zipIdx.flatMap fun (digit, i) =>
    if 0 < i ∧ 3 ∣ digits.length - i then [',', digit] else [digit]

/-- Human TTL from milliseconds; no expiry is a dash. -/
def ttl : Option Int → Str
  | none => "-".toList
  | some ms =>
      if ms < 1000 then decimalInt ms ++ "ms".toList
      else
        let secs := ms / 1000
        let d := secs / 86400
        let h := secs % 86400 / 3600
        let m := secs % 3600 / 60
        let s := secs % 60
        -- Minutes are noise once it is more than a day.
        let out :=
          (if 0 < d then decimalInt d ++ ['d'] else []) ++
          (if 0 < h then decimalInt h ++ ['h'] else []) ++
          (if 0 < m ∧ d = 0 then decimalInt m ++ ['m'] else []) ++
          (if 0 < s ∧ d = 0 ∧ h = 0 then decimalInt s ++ ['s'] else [])
        if out = [] then decimalInt secs ++ ['s'] else out

/-- Truncate to a number of characters with an ellipsis. -/
def truncate (text : Str) (max : Nat) : Str :=
  if text.length ≤ max then text else text.take (max - 1) ++ ['…']

/-- Fill with spaces on the right up to a width. -/
def padRight (width : Nat) (text : Str) : Str :=
  text ++ List.replicate (width - text.length) ' '

end Keylens.Ui
