import Mathlib.Data.List.Basic

/-!
# Numbers in decimal

Writing a natural number in decimal and reading numbers back, in the manner of a
parser that accepts nothing but a sign and digits and refuses a number outside
the range of its type.
-/

namespace Keylens.Library

/-- A natural number in decimal. -/
def decimal (number : Nat) : List Char :=
  (toString number).toList

/-- The decimal digits of an integer, after its sign. -/
def decimalInt (number : Int) : List Char :=
  if number < 0 then '-' :: decimal number.natAbs else decimal number.natAbs

/-- Read a natural number; the text is one or more digits. -/
def parseNat (text : List Char) : Option Nat :=
  if text ≠ [] ∧ text.all Char.isDigit then some (Nat.ofDigitChars 10 text 0) else none

/-- Read a number between `low` and `high`, with an optional sign. -/
def parseInt (low high : Int) (text : List Char) : Option Int :=
  let number : Option Int :=
    match text with
    | '-' :: digits => (parseNat digits).map fun number => -(number : Int)
    | '+' :: digits => (parseNat digits).map Int.ofNat
    | digits => (parseNat digits).map Int.ofNat
  number.filter fun number => low ≤ number ∧ number ≤ high

/-- Read a number up to `high`, with an optional plus sign. -/
def parseUnsigned (high : Nat) (text : List Char) : Option Nat :=
  let number : Option Nat :=
    match text with
    | '+' :: digits => parseNat digits
    | digits => parseNat digits
  number.filter fun number => number ≤ high

theorem decimal_eq_toDigits (number : Nat) : decimal number = Nat.toDigits 10 number :=
  Nat.toList_repr

@[simp] theorem decimalInt_natCast (number : Nat) : decimalInt number = decimal number := by
  simp [decimalInt]

theorem decimal_ne_nil (number : Nat) : decimal number ≠ [] := by
  rw [decimal_eq_toDigits]
  exact Nat.toDigits_ne_nil

theorem isDigit_of_mem_decimal {number : Nat} {c : Char} (member : c ∈ decimal number) :
    c.isDigit := by
  rw [decimal_eq_toDigits] at member
  exact Nat.isDigit_of_mem_toDigits (by decide) (by decide) member

/-- A character that is not a digit is not in a decimal. -/
theorem not_mem_decimal {number : Nat} {c : Char} (other : c.isDigit = false) :
    c ∉ decimal number := by
  intro member
  have digit := isDigit_of_mem_decimal member
  rw [other] at digit
  cases digit

@[simp] theorem parseNat_decimal (number : Nat) : parseNat (decimal number) = some number := by
  have digits : (decimal number).all Char.isDigit = true := by
    apply List.all_eq_true.mpr
    intro c member
    exact isDigit_of_mem_decimal member
  rw [parseNat, if_pos ⟨decimal_ne_nil number, digits⟩, decimal_eq_toDigits]
  exact congrArg some Nat.ofDigitChars_ten_toDigits

theorem isDigit_of_parseNat {text : List Char} {number : Nat}
    (read : parseNat text = some number) {c : Char} (member : c ∈ text) : c.isDigit := by
  rw [parseNat, Option.ite_none_right_eq_some] at read
  exact List.all_eq_true.mp read.1.2 c member

theorem parseNat_eq_none {text : List Char} {c : Char} (member : c ∈ text)
    (other : c.isDigit = false) : parseNat text = none := by
  rw [Option.eq_none_iff_forall_ne_some]
  intro number read
  have digit := isDigit_of_parseNat read member
  rw [other] at digit
  cases digit

/-! ## Numerals -/

/-- A text of digits, which a sign may come before, and its number. -/
inductive Numeral : List Char → Int → Prop where
  | plain {digits number} : parseNat digits = some number → Numeral digits number
  | plus {digits number} : parseNat digits = some number → Numeral ('+' :: digits) number
  | minus {digits number} : parseNat digits = some number → Numeral ('-' :: digits) (-number)

/-- Digits without a sign stand for one number. -/
theorem Numeral.eq_of_parseNat {text : List Char} {number : Int} {value : Nat}
    (numeral : Numeral text number) (read : parseNat text = some value) : number = value := by
  cases numeral with
  | plain digits => rw [Option.some.inj (digits.symm.trans read)]
  | plus => exact absurd (isDigit_of_parseNat read List.mem_cons_self) (by decide)
  | minus => exact absurd (isDigit_of_parseNat read List.mem_cons_self) (by decide)

theorem parseUnsigned_plus (high : Nat) (digits : List Char) :
    parseUnsigned high ('+' :: digits) =
      (parseNat digits).filter fun number => number ≤ high := rfl

theorem parseUnsigned_digits {digits : List Char} (high : Nat)
    (unsigned : digits.head? ≠ some '+') :
    parseUnsigned high digits = (parseNat digits).filter fun number => number ≤ high := by
  rw [parseUnsigned]
  intro rest plus
  rw [plus] at unsigned
  exact unsigned rfl

theorem parseUnsigned_decimal {number high : Nat} (fits : number ≤ high) :
    parseUnsigned high (decimal number) = some number := by
  have unsigned : (decimal number).head? ≠ some '+' := by
    intro plus
    exact not_mem_decimal (by decide) (List.mem_of_head? plus)
  simp [parseUnsigned_digits high unsigned, Option.filter_some, fits]

/-- A decimal reads as its number where that is in range. -/
theorem parseInt_decimal (low high : Int) (number : Nat) :
    parseInt low high (decimal number) =
      (some (number : Int)).filter fun number => low ≤ number ∧ number ≤ high := by
  have signless {c : Char} (other : c.isDigit = false) (digits : List Char) :
      decimal number ≠ c :: digits := by
    intro same
    exact not_mem_decimal other (same ▸ List.mem_cons_self)
  rw [parseInt, parseNat_decimal]
  · rfl
  · exact fun digits => signless (by decide) digits
  · exact fun digits => signless (by decide) digits

/-- What is neither a digit nor a plus sign is in no unsigned number. -/
theorem parseUnsigned_eq_none {text : List Char} {c : Char} (high : Nat) (member : c ∈ text)
    (other : c.isDigit = false) (notPlus : c ≠ '+') : parseUnsigned high text = none := by
  by_cases plus : text.head? = some '+'
  · rcases List.head?_eq_some_iff.mp plus with ⟨digits, rfl⟩
    have inDigits : c ∈ digits := by simpa [notPlus] using member
    rw [parseUnsigned_plus, parseNat_eq_none inDigits other, Option.filter_none]
  · rw [parseUnsigned_digits high plus, parseNat_eq_none member other, Option.filter_none]

/-- Read with zero as the default, a numeral keeps its number exactly when that is in
range. -/
theorem parseUnsigned_numeral_iff {text : List Char} {number : Int}
    (numeral : Numeral text number) (high : Nat) :
    ((parseUnsigned high text).getD 0 : Int) = number ↔ 0 ≤ number ∧ number ≤ high := by
  have bounded (value : Nat) :
      (((some value).filter fun value => value ≤ high).getD 0 : Int) = value ↔
        0 ≤ (value : Int) ∧ (value : Int) ≤ high := by
    by_cases fits : value ≤ high
    · simp [Option.filter_some, fits]
    · simp only [Option.filter_some, fits, decide_false, Bool.false_eq_true, if_false,
        Option.getD_none]
      omega
  cases numeral with
  | @plain digits number read =>
      have unsigned : text.head? ≠ some '+' := by
        intro plus
        have digit := isDigit_of_parseNat read (List.mem_of_head? plus)
        exact absurd digit (by decide)
      rw [parseUnsigned_digits high unsigned, read, bounded]
  | @plus digits number read =>
      rw [parseUnsigned_plus, read, bounded]
  | @minus digits number read =>
      rw [parseUnsigned_eq_none high List.mem_cons_self (by decide) (by decide)]
      simp only [Option.getD_none]
      omega

end Keylens.Library
