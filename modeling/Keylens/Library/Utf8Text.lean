import Keylens.Library.Utf8
import Mathlib.Algebra.Order.Ring.Int
import Mathlib.Data.List.Infix

/-!
# Cutting and searching encoded texts

The encoding of a text keeps its structure: the encodings of its prefixes are prefixes
of its own, and the encoding of a text occurs in another only where the text does.
Cutting a text at a number of bytes leaves a text only at the end of a character.
-/

namespace Keylens.Library

/-- How many bytes a text takes. -/
def utf8Size (text : List Char) : Nat :=
  (text.map Char.utf8Size).sum

@[simp] theorem utf8Size_nil : utf8Size [] = 0 := rfl

@[simp] theorem utf8Size_cons (c : Char) (text : List Char) :
    utf8Size (c :: text) = c.utf8Size + utf8Size text := by
  simp [utf8Size]

theorem utf8Size_append (front back : List Char) :
    utf8Size (front ++ back) = utf8Size front + utf8Size back := by
  simp [utf8Size]

theorem utf8Size_replicate (count : Nat) (c : Char) :
    utf8Size (List.replicate count c) = count * c.utf8Size := by
  simp [utf8Size]

theorem utf8Size_le_four_mul_length (text : List Char) : utf8Size text ≤ 4 * text.length := by
  induction text with
  | nil => rfl
  | cons c text ih =>
      have width := c.utf8Size_le_four
      rw [utf8Size_cons, List.length_cons]
      omega

theorem length_add_utf8Size_le (front back : List Char) :
    front.length + utf8Size back ≤ utf8Size (front ++ back) := by
  induction front with
  | nil => exact Nat.le_of_eq (Nat.zero_add _)
  | cons c front ih =>
      have width := c.utf8Size_pos
      rw [List.cons_append, utf8Size_cons, List.length_cons]
      omega

@[simp] theorem utf8Encode_nil : utf8Encode [] = [] := rfl

@[simp] theorem utf8Encode_cons (c : Char) (text : List Char) :
    utf8Encode (c :: text) = String.utf8EncodeChar c ++ utf8Encode text := rfl

theorem utf8Encode_append (front back : List Char) :
    utf8Encode (front ++ back) = utf8Encode front ++ utf8Encode back :=
  List.flatMap_append

@[simp] theorem length_utf8Encode (text : List Char) :
    (utf8Encode text).length = utf8Size text := by
  induction text with
  | nil => rfl
  | cons c text ih => simp [ih]

/-- Decoding succeeds on the encodings of texts only. -/
theorem utf8Decode_eq_some_iff {bytes : List UInt8} {text : List Char} :
    utf8Decode bytes = some text ↔ bytes = utf8Encode text := by
  constructor
  · intro decoded
    rw [utf8Decode, Option.map_eq_some_iff] at decoded
    rcases decoded with ⟨chars, decoded, rfl⟩
    have valid : bytes.toByteArray.utf8Decode?.isSome := by rw [decoded]; rfl
    have encoded := ByteArray.utf8Encode_get_utf8Decode? (h := valid)
    simp only [decoded, Option.get_some] at encoded
    exact (List.toByteArray_inj.mp encoded).symm
  · rintro rfl
    exact utf8Decode_utf8Encode text

/-- The first character of an encoding can be told. -/
theorem utf8EncodeChar_append_inj {c d : Char} {front back : List UInt8}
    (equal : String.utf8EncodeChar c ++ front = String.utf8EncodeChar d ++ back) :
    c = d ∧ front = back := by
  have arrays := congrArg List.toByteArray equal
  rw [List.toByteArray_append, List.toByteArray_append] at arrays
  have decoded := congrArg (fun bytes => bytes.utf8DecodeChar? 0) arrays
  simp only [ByteArray.utf8DecodeChar?_utf8EncodeChar_append, Option.some_inj] at decoded
  cases decoded
  exact ⟨rfl, List.append_cancel_left equal⟩

/-- The encodings of prefixes are the encodings that are prefixes. -/
theorem utf8Encode_prefix_iff {front text : List Char} :
    utf8Encode front <+: utf8Encode text ↔ front <+: text := by
  constructor
  · intro starts
    induction front generalizing text with
    | nil => exact List.nil_prefix
    | cons c front ih =>
        rcases starts with ⟨rest, equal⟩
        cases text with
        | nil =>
            have empty := congrArg List.length equal
            have width := c.utf8Size_pos
            simp at empty
            omega
        | cons d text =>
            rw [utf8Encode_cons, utf8Encode_cons, List.append_assoc] at equal
            rcases utf8EncodeChar_append_inj equal with ⟨rfl, later⟩
            exact List.cons_prefix_cons.mpr ⟨rfl, ih ⟨rest, later⟩⟩
  · rintro ⟨back, rfl⟩
    rw [utf8Encode_append]
    exact List.prefix_append _ _

/-! ## Cutting -/

/-- The characters from the start of a text that fit in a number of bytes. -/
def takeWithin : Nat → List Char → List Char
  | _, [] => []
  | budget, c :: text =>
      if c.utf8Size ≤ budget then c :: takeWithin (budget - c.utf8Size) text else []

/-- The longest prefix of a text that fits in a number of bytes. -/
structure LongestWithin (budget : Nat) (text front : List Char) : Prop where
  isPrefix : front <+: text
  fits : utf8Size front ≤ budget
  longest : ∀ other, other <+: text → utf8Size other ≤ budget → other <+: front

theorem longestWithin_takeWithin (budget : Nat) (text : List Char) :
    LongestWithin budget text (takeWithin budget text) := by
  induction text generalizing budget with
  | nil => exact ⟨List.prefix_rfl, Nat.zero_le _, fun _ isPrefix _ => isPrefix⟩
  | cons c text ih =>
      rw [takeWithin]
      split
      next fits =>
          have rest := ih (budget - c.utf8Size)
          refine ⟨List.cons_prefix_cons.mpr ⟨rfl, rest.isPrefix⟩, ?_, ?_⟩
          · have within := rest.fits
            rw [utf8Size_cons]
            omega
          · intro other isPrefix within
            cases other with
            | nil => exact List.nil_prefix
            | cons d other =>
                rcases List.cons_prefix_cons.mp isPrefix with ⟨rfl, later⟩
                rw [utf8Size_cons] at within
                exact List.cons_prefix_cons.mpr ⟨rfl, rest.longest other later (by omega)⟩
      next full =>
          refine ⟨List.nil_prefix, Nat.zero_le _, ?_⟩
          intro other isPrefix within
          cases other with
          | nil => exact List.nil_prefix
          | cons d other =>
              rcases List.cons_prefix_cons.mp isPrefix with ⟨rfl, _⟩
              rw [utf8Size_cons] at within
              omega

theorem eq_nil_of_utf8Size {text : List Char} (empty : utf8Size text = 0) : text = [] := by
  cases text with
  | nil => rfl
  | cons c text =>
      have width := c.utf8Size_pos
      rw [utf8Size_cons] at empty
      omega

/-- A prefix as large as a longer one is that one. -/
theorem eq_of_prefix_of_utf8Size_le {front longer : List Char} (isPrefix : front <+: longer)
    (large : utf8Size longer ≤ utf8Size front) : front = longer := by
  rcases isPrefix with ⟨rest, rfl⟩
  rw [utf8Size_append] at large
  rw [eq_nil_of_utf8Size (by omega : utf8Size rest = 0), List.append_nil]

theorem utf8Size_le_of_prefix {front longer : List Char} (isPrefix : front <+: longer) :
    utf8Size front ≤ utf8Size longer := by
  rcases isPrefix with ⟨rest, rfl⟩
  rw [utf8Size_append]
  exact Nat.le_add_right ..

namespace LongestWithin

variable {budget : Nat} {text front : List Char}

/-- A prefix that uses up the budget or the text is the longest. -/
theorem of_size (isPrefix : front <+: text) (size : utf8Size front = min budget (utf8Size text)) :
    LongestWithin budget text front where
  isPrefix := isPrefix
  fits := by omega
  longest other isPrefix' fits := by
    have within := utf8Size_le_of_prefix isPrefix'
    rcases List.prefix_or_prefix_of_prefix isPrefix isPrefix' with longer | shorter
    · exact eq_of_prefix_of_utf8Size_le longer (by omega) ▸ List.prefix_rfl
    · exact shorter

/-- Less than a character is lost. -/
theorem budget_lt (longest : LongestWithin budget text front) (exceeds : budget < utf8Size text) :
    budget < utf8Size front + 4 := by
  rcases longest.isPrefix with ⟨rest, rfl⟩
  cases rest with
  | nil =>
      have fits := longest.fits
      rw [List.append_nil] at exceeds
      omega
  | cons c rest =>
      by_contra room
      have width := c.utf8Size_le_four
      have larger := longest.longest (front ++ [c]) ⟨rest, by simp⟩ (by
        rw [utf8Size_append, utf8Size_cons, utf8Size_nil]
        omega)
      have sizes := larger.length_le
      rw [List.length_append, List.length_singleton] at sizes
      omega

end LongestWithin

/-- What is left of an encoding that is cut decodes if the cut is at the end of a
character. -/
theorem utf8Decode_take_eq_some_iff {cut : Nat} {text front : List Char} :
    utf8Decode ((utf8Encode text).take cut) = some front ↔
      front <+: text ∧ utf8Size front = min cut (utf8Size text) := by
  rw [utf8Decode_eq_some_iff]
  constructor
  · intro equal
    have starts : utf8Encode front <+: utf8Encode text := equal ▸ List.take_prefix cut _
    have sizes := congrArg List.length equal
    rw [List.length_take, length_utf8Encode, length_utf8Encode] at sizes
    exact ⟨utf8Encode_prefix_iff.mp starts, sizes.symm⟩
  · rintro ⟨isPrefix, size⟩
    have starts := List.prefix_iff_eq_take.mp (utf8Encode_prefix_iff.mpr isPrefix)
    rw [starts, length_utf8Encode, size, ← length_utf8Encode text, List.take_eq_take_iff]
    omega

theorem utf8Decode_take_isSome_iff {cut : Nat} {text : List Char} :
    (utf8Decode ((utf8Encode text).take cut)).isSome ↔
      utf8Size text ≤ cut ∨ ∃ front, front <+: text ∧ utf8Size front = cut := by
  rw [Option.isSome_iff_exists]
  simp only [utf8Decode_take_eq_some_iff]
  constructor
  · rintro ⟨front, isPrefix, size⟩
    rcases Nat.le_total (utf8Size text) cut with whole | exceeds
    · exact .inl whole
    · exact .inr ⟨front, isPrefix, by omega⟩
  · rintro (whole | ⟨front, isPrefix, size⟩)
    · exact ⟨text, List.prefix_rfl, by omega⟩
    · have within := utf8Size_le_of_prefix isPrefix
      exact ⟨front, isPrefix, by omega⟩

/-! ## Searching -/

/-- The byte of an ASCII character. -/
def asciiByte (c : Char) : UInt8 := UInt8.ofNat c.toNat

theorem asciiByte_toNat {c : Char} (ascii : c.toNat < 0x80) : (asciiByte c).toNat = c.toNat := by
  rw [asciiByte, UInt8.toNat_ofNat']
  exact Nat.mod_eq_of_lt (by omega)

theorem utf8EncodeChar_ascii {c : Char} (ascii : c.toNat < 0x80) :
    String.utf8EncodeChar c = [asciiByte c] := by
  have small : c.val.toNat ≤ 0x7F := by
    change c.val.toNat < 0x80 at ascii
    omega
  rw [String.utf8EncodeChar, if_pos small]
  rfl

/-- Only an ASCII character has a byte below 128. -/
theorem ascii_of_mem_utf8EncodeChar {c : Char} {byte : UInt8}
    (member : byte ∈ String.utf8EncodeChar c) (low : byte.toNat < 0x80) : c.toNat < 0x80 := by
  change c.val.toNat < 0x80
  rw [String.utf8EncodeChar] at member
  split at member
  next small => omega
  next =>
      split at member
      next =>
          simp only [List.mem_cons, List.not_mem_nil, or_false] at member
          rcases member with rfl | rfl <;> simp only [UInt8.toNat_ofNat'] at low <;> omega
      next =>
          split at member
          next =>
              simp only [List.mem_cons, List.not_mem_nil, or_false] at member
              rcases member with rfl | rfl | rfl <;> simp only [UInt8.toNat_ofNat'] at low <;> omega
          next =>
              simp only [List.mem_cons, List.not_mem_nil, or_false] at member
              rcases member with rfl | rfl | rfl | rfl <;>
                simp only [UInt8.toNat_ofNat'] at low <;> omega

theorem asciiByte_mem_utf8Encode_iff {c : Char} (ascii : c.toNat < 0x80) {text : List Char} :
    asciiByte c ∈ utf8Encode text ↔ c ∈ text := by
  rw [utf8Encode, List.mem_flatMap]
  constructor
  · rintro ⟨d, inText, member⟩
    have low := asciiByte_toNat ascii ▸ ascii
    have ascii' := ascii_of_mem_utf8EncodeChar member low
    rw [utf8EncodeChar_ascii ascii', List.mem_singleton] at member
    have codes := congrArg UInt8.toNat member
    rw [asciiByte_toNat ascii, asciiByte_toNat ascii'] at codes
    have same : c = d := by rw [← Char.ofNat_toNat c, codes, Char.ofNat_toNat]
    exact same ▸ inText
  · intro inText
    refine ⟨c, inText, ?_⟩
    rw [utf8EncodeChar_ascii ascii]
    exact List.mem_singleton_self _

/-- The encoding of a text that begins in the encoding of a character begins with it. -/
theorem eq_nil_of_append_utf8EncodeChar {c d : Char} {front after rest : List UInt8}
    (equal : front ++ (String.utf8EncodeChar c ++ after) = String.utf8EncodeChar d ++ rest)
    (inside : front.length < (String.utf8EncodeChar d).length) : front = [] := by
  have nonempty : 0 < (String.utf8EncodeChar c).length := by
    rw [String.length_utf8EncodeChar]
    exact c.utf8Size_pos
  have first := congrArg (fun bytes => bytes[front.length]?) equal
  rw [List.getElem?_append_right le_rfl, Nat.sub_self, List.getElem?_append_left nonempty,
    List.getElem?_append_left inside] at first
  rw [List.getElem?_eq_getElem nonempty, List.getElem?_eq_getElem inside, Option.some_inj]
    at first
  have begins : (String.utf8EncodeChar c)[0].IsUTF8FirstByte :=
    UInt8.isUTF8FirstByte_getElem_utf8EncodeChar.mpr rfl
  rw [first] at begins
  exact List.length_eq_zero_iff.mp (UInt8.isUTF8FirstByte_getElem_utf8EncodeChar.mp begins)

/-- The encoding of a text occurs where the text does. -/
theorem utf8Encode_infix_iff {pattern text : List Char} :
    utf8Encode pattern <:+: utf8Encode text ↔ pattern <:+: text := by
  constructor
  · intro occurs
    cases pattern with
    | nil => exact List.nil_infix
    | cons c pattern =>
        induction text with
        | nil =>
            have short := occurs.length_le
            rw [length_utf8Encode, length_utf8Encode, utf8Size_cons, utf8Size_nil] at short
            have width := c.utf8Size_pos
            omega
        | cons d text ih =>
            rcases occurs with ⟨front, back, equal⟩
            rw [utf8Encode_cons d, List.append_assoc] at equal
            rcases Nat.lt_or_ge front.length (String.utf8EncodeChar d).length with inside | later
            · rw [utf8Encode_cons, List.append_assoc] at equal
              have start := eq_nil_of_append_utf8EncodeChar equal inside
              rw [start, List.nil_append, ← List.append_assoc, ← utf8Encode_cons,
                ← utf8Encode_cons] at equal
              exact (utf8Encode_prefix_iff.mp ⟨back, equal⟩).isInfix
            · have isPrefix : String.utf8EncodeChar d <+: front :=
                List.prefix_of_prefix_length_le ⟨_, equal.symm⟩ (List.prefix_append ..) later
              rcases isPrefix with ⟨front', rfl⟩
              rw [List.append_assoc, List.append_cancel_left_eq, ← List.append_assoc] at equal
              exact List.infix_cons (ih ⟨front', back, equal⟩)
  · rintro ⟨front, back, rfl⟩
    exact ⟨utf8Encode front, utf8Encode back, by simp only [utf8Encode_append]⟩

end Keylens.Library
