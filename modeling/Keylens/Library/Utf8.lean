import Mathlib.Data.Char

/-!
# UTF-8

The encoding of a text, its exact inverse, and a decoder that puts a replacement
character in the place of what it cannot decode.

The decoder with replacement reads one byte at a time.  Between characters it stands at `none`;
inside one it remembers the bits read so far, how many continuation bytes are
owed and the range the next one must lie in.  A byte that cannot continue closes
the sequence with one replacement character and is read again from the start.
-/

namespace Keylens.Library

/-- The bytes of a text. -/
def utf8Encode (text : List Char) : List UInt8 :=
  text.flatMap String.utf8EncodeChar

/-- The text of some bytes, if they are the bytes of a text. -/
def utf8Decode (bytes : List UInt8) : Option (List Char) :=
  bytes.toByteArray.utf8Decode?.map Array.toList

@[simp] theorem utf8Decode_utf8Encode (text : List Char) :
    utf8Decode (utf8Encode text) = some text := by
  have encoded : (utf8Encode text).toByteArray = text.utf8Encode := rfl
  rw [utf8Decode, encoded, List.utf8Decode?_utf8Encode]
  rfl

/-! ## Decoding with replacement -/

/-- A character that has begun: its bits so far, the continuation bytes owed
after the next one, and the range of the next one. -/
structure Utf8Pending where
  bits : Nat
  owed : Nat
  low : Nat := 0x80
  high : Nat := 0xBF
  deriving DecidableEq, Repr

/-- What a byte read between characters begins. -/
inductive Utf8Lead where
  | scalar (bits : Nat)
  | sequence (pending : Utf8Pending)
  | invalid
  deriving DecidableEq, Repr

def utf8Lead (byte : UInt8) : Utf8Lead :=
  let b := byte.toNat
  if b ≤ 0x7F then .scalar b
  else if 0xC2 ≤ b ∧ b ≤ 0xDF then .sequence { bits := b - 0xC0, owed := 0 }
  else if b = 0xE0 then .sequence { bits := 0, owed := 1, low := 0xA0 }
  else if b = 0xED then .sequence { bits := 0xD, owed := 1, high := 0x9F }
  else if 0xE1 ≤ b ∧ b ≤ 0xEF then .sequence { bits := b - 0xE0, owed := 1 }
  else if b = 0xF0 then .sequence { bits := 0, owed := 2, low := 0x90 }
  else if 0xF1 ≤ b ∧ b ≤ 0xF3 then .sequence { bits := b - 0xF0, owed := 2 }
  else if b = 0xF4 then .sequence { bits := 4, owed := 2, high := 0x8F }
  else .invalid

/-- U+FFFD, which stands for bytes that are not UTF-8. -/
def replacementCharacter : Char := Char.ofNat 0xFFFD

/-- Read one byte between characters. -/
def utf8Begin (byte : UInt8) : List Char × Option Utf8Pending :=
  match utf8Lead byte with
  | .scalar bits => ([Char.ofNat bits], none)
  | .sequence pending => ([], some pending)
  | .invalid => ([replacementCharacter], none)

/-- Read one byte; the answer is the characters it completes and the new
state. -/
def utf8Step (state : Option Utf8Pending) (byte : UInt8) : List Char × Option Utf8Pending :=
  match state with
  | none => utf8Begin byte
  | some pending =>
      if pending.low ≤ byte.toNat ∧ byte.toNat ≤ pending.high then
        let bits := pending.bits * 64 + (byte.toNat - 0x80)
        match pending.owed with
        | 0 => ([Char.ofNat bits], none)
        | owed + 1 => ([], some { bits, owed })
      else
        let (decoded, state) := utf8Begin byte
        (replacementCharacter :: decoded, state)

def utf8DecodeFrom : Option Utf8Pending → List UInt8 → List Char
  | none, [] => []
  | some _, [] => [replacementCharacter]
  | state, byte :: rest =>
      let (decoded, state) := utf8Step state byte
      decoded ++ utf8DecodeFrom state rest

/-- The text of some bytes, with a replacement character for every maximal
prefix of a character that is not continued. -/
def utf8DecodeLossy (bytes : List UInt8) : List Char :=
  utf8DecodeFrom none bytes

example : utf8DecodeLossy [0x61, 0xE2, 0x82, 0xAC, 0xE2, 0x82, 0x62, 0xFF] =
    ['a', '€', replacementCharacter, 'b', replacementCharacter] := by decide

end Keylens.Library
