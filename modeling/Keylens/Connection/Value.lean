import Keylens.Basic
import Keylens.Library.Decimal
import Keylens.Library.Utf8

/-!
# Redis replies

`Value` is the client library's reply type.  The library's conversions on it are
not part of the repository: `ValueApi` stands for them, and `ValueApi.Lawful`
lists what their documentation promises and the reads rely on.
-/

namespace Keylens.Connection

open Keylens.Library

/-- An `f64`, by its bits. -/
abbrev F64 := BitVec 64

/-- A Redis payload, which need not be text. -/
abbrev Bytes := List UInt8

/-- A reply. -/
inductive Value where
  | boolean (value : Bool)
  | integer (value : Int)
  | double (value : F64)
  | string (text : Str)
  | bytes (payload : Bytes)
  | null
  | queued
  | map (entries : List (Bytes × Value))
  | array (items : List Value)

/-- The conversions of the client library. -/
structure ValueApi where
  asString : Value → Option Str
  asBytes : Value → Option Bytes
  asI64 : Value → Option Int
  asU64 : Value → Option Nat
  asF64 : Value → Option F64
  /-- A map key as text. -/
  keyAsStr : Bytes → Option Str
  /-- The `Debug` rendering. -/
  debug : Value → Str

/-- What the conversions do with the values that carry their own type. -/
structure ValueApi.Lawful (api : ValueApi) : Prop where
  asString_string : ∀ text, api.asString (.string text) = some text
  asI64_integer : ∀ value, api.asI64 (.integer value) = some value
  asU64_integer : ∀ value : Nat, api.asU64 (.integer value) = some value
  asU64_null : api.asU64 .null = none

/-- Render a reply as text, tolerating binary payloads. -/
def ValueApi.displayString (api : ValueApi) (value : Value) : Str :=
  match api.asString value with
  | some text => text
  | none =>
      match api.asBytes value with
      | some payload =>
          "<".toList ++ decimal payload.length ++ " bytes> ".toList ++
            (utf8DecodeLossy payload).take 200
      | none => api.debug value

theorem ValueApi.Lawful.displayString_string {api : ValueApi} (lawful : api.Lawful) (text : Str) :
    api.displayString (.string text) = text := by
  simp [displayString, lawful.asString_string]

end Keylens.Connection
