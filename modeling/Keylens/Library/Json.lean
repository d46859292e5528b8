import Keylens.Library.Utf8Text
import Mathlib.Data.List.TakeWhile

/-!
# JSON texts of lists of strings

The grammar of a JSON array of strings, a reader and a writer.  Each relation says what
a text begins with and what is left of it after that; the reader finds exactly what the
grammar derives, so that a text stands for one list at most.
-/

namespace Keylens.Library.Json

/-! ## The grammar -/

/-- White space between tokens. -/
def isSpace (c : Char) : Bool :=
  c = ' ' || c = '\t' || c = '\n' || c = '\r'

/-- Some white space, and what is left after it. -/
def Spaces (text rest : List Char) : Prop :=
  ∃ white, (∀ c ∈ white, isSpace c) ∧ text = white ++ rest

/-- A character that stands for itself in a string. -/
def isPlain (c : Char) : Bool :=
  c ≠ '"' && c ≠ '\\' && 0x20 ≤ c.toNat

/-- The character that a letter stands for after a backslash. -/
def shortEscape : Char → Option Char
  | '"' => some '"'
  | '\\' => some '\\'
  | '/' => some '/'
  | 'b' => some (Char.ofNat 0x08)
  | 'f' => some (Char.ofNat 0x0C)
  | 'n' => some '\n'
  | 'r' => some '\r'
  | 't' => some '\t'
  | _ => none

def hexDigit (c : Char) : Option Nat :=
  if '0' ≤ c ∧ c ≤ '9' then some (c.toNat - 0x30)
  else if 'a' ≤ c ∧ c ≤ 'f' then some (c.toNat - 0x61 + 10)
  else if 'A' ≤ c ∧ c ≤ 'F' then some (c.toNat - 0x41 + 10)
  else none

/-- The UTF-16 unit of four digits. -/
def hexUnit (a b c d : Char) : Option Nat := do
  let a ← hexDigit a
  let b ← hexDigit b
  let c ← hexDigit c
  let d ← hexDigit d
  return ((a * 16 + b) * 16 + c) * 16 + d

def isHigh (unit : Nat) : Bool := 0xD800 ≤ unit && unit < 0xDC00

def isLow (unit : Nat) : Bool := 0xDC00 ≤ unit && unit < 0xE000

/-- The character of a surrogate pair. -/
def pairChar (high low : Nat) : Char :=
  Char.ofNat (0x10000 + (high - 0xD800) * 0x400 + (low - 0xDC00))

/-- One character of a string, and what is left after it. -/
inductive Piece : List Char → Char → List Char → Prop where
  | plain {c rest} : isPlain c → Piece (c :: rest) c rest
  | escape {mark c rest} : shortEscape mark = some c → Piece ('\\' :: mark :: rest) c rest
  | unit {a b c d code rest} : hexUnit a b c d = some code → isHigh code = false →
      isLow code = false → Piece ('\\' :: 'u' :: a :: b :: c :: d :: rest) (Char.ofNat code) rest
  /-- A unit that is half of a pair stands for nothing by itself. -/
  | pair {a b c d high a' b' c' d' low rest} : hexUnit a b c d = some high → isHigh high →
      hexUnit a' b' c' d' = some low → isLow low →
      Piece ('\\' :: 'u' :: a :: b :: c :: d :: '\\' :: 'u' :: a' :: b' :: c' :: d' :: rest)
        (pairChar high low) rest

/-- A string after its opening quote. -/
inductive Body : List Char → List Char → List Char → Prop where
  | close {rest} : Body ('"' :: rest) [] rest
  | char {text c later value rest} : Piece text c later → Body later value rest →
      Body text (c :: value) rest

/-- The strings of an array, and its closing bracket. -/
inductive Items : List Char → List (List Char) → List Char → Prop where
  | last {text body value after rest} : Spaces text ('"' :: body) → Body body value after →
      Spaces after (']' :: rest) → Items text [value] rest
  | more {text body value after later values rest} : Spaces text ('"' :: body) →
      Body body value after → Spaces after (',' :: later) → Items later values rest →
      Items text (value :: values) rest

/-- A whole text that is an array of strings. -/
inductive StringArray : List Char → List (List Char) → Prop where
  | empty {text inner after} : Spaces text ('[' :: inner) → Spaces inner (']' :: after) →
      Spaces after [] → StringArray text []
  | items {text inner values after} : Spaces text ('[' :: inner) → Items inner values after →
      Spaces after [] → StringArray text values

/-! ## What the grammar consumes -/

namespace Spaces

variable {text rest : List Char}

theorem refl (text : List Char) : Spaces text text :=
  ⟨[], fun _ member => (List.not_mem_nil member).elim, rfl⟩

theorem length_le (spaces : Spaces text rest) : rest.length ≤ text.length := by
  rcases spaces with ⟨white, _, rfl⟩
  rw [List.length_append]
  exact Nat.le_add_left ..

theorem utf8Size_le (spaces : Spaces text rest) : utf8Size rest ≤ utf8Size text := by
  rcases spaces with ⟨white, _, rfl⟩
  rw [utf8Size_append]
  exact Nat.le_add_left ..

theorem isSuffix (spaces : Spaces text rest) : rest <:+ text := by
  rcases spaces with ⟨white, _, rfl⟩
  exact List.suffix_append ..

theorem tail_isSuffix {c : Char} (spaces : Spaces text (c :: rest)) : rest <:+ text :=
  (List.suffix_cons c rest).trans spaces.isSuffix

end Spaces

theorem utf8Size_of_shortEscape {mark c : Char} (escaped : shortEscape mark = some c) :
    c.utf8Size = 1 := by
  unfold shortEscape at escaped
  split at escaped <;> cases escaped <;> rfl

/-- A character is written in no fewer bytes than it has. -/
theorem Piece.utf8Size_le {text rest : List Char} {c : Char} (piece : Piece text c rest) :
    c.utf8Size + utf8Size rest ≤ utf8Size text := by
  have width := c.utf8Size_le_four
  cases piece with
  | plain => rw [utf8Size_cons]
  | @escape mark _ _ escaped =>
      have two : 2 + utf8Size rest ≤ utf8Size ('\\' :: mark :: rest) :=
        length_add_utf8Size_le ['\\', mark] rest
      rw [utf8Size_of_shortEscape escaped]
      omega
  | @unit a b c d code =>
      have six : 6 + utf8Size rest ≤ utf8Size ('\\' :: 'u' :: a :: b :: c :: d :: rest) :=
        length_add_utf8Size_le ['\\', 'u', a, b, c, d] rest
      omega
  | @pair a b c d high a' b' c' d' low =>
      have digits : 6 + utf8Size ('\\' :: 'u' :: a' :: b' :: c' :: d' :: rest) ≤ utf8Size
          ('\\' :: 'u' :: a :: b :: c :: d :: '\\' :: 'u' :: a' :: b' :: c' :: d' :: rest) :=
        length_add_utf8Size_le ['\\', 'u', a, b, c, d] _
      have six : 6 + utf8Size rest ≤ utf8Size ('\\' :: 'u' :: a' :: b' :: c' :: d' :: rest) :=
        length_add_utf8Size_le ['\\', 'u', a', b', c', d'] rest
      omega

theorem Piece.length_lt {text rest : List Char} {c : Char} (piece : Piece text c rest) :
    rest.length < text.length := by
  cases piece <;> simp only [List.length_cons] <;> omega

theorem Piece.isSuffix {text rest : List Char} {c : Char} (piece : Piece text c rest) :
    rest <:+ text := by
  cases piece with
  | plain => exact List.suffix_append [c] rest
  | @escape mark => exact List.suffix_append ['\\', mark] rest
  | @unit a b c d => exact List.suffix_append ['\\', 'u', a, b, c, d] rest
  | @pair a b c d _ a' b' c' d' =>
      exact List.suffix_append ['\\', 'u', a, b, c, d, '\\', 'u', a', b', c', d'] rest

namespace Body

variable {text value rest : List Char}

/-- A string is written in more bytes than it has. -/
theorem utf8Size_lt (body : Body text value rest) :
    utf8Size value + utf8Size rest < utf8Size text := by
  induction body with
  | close =>
      have quote : '"'.utf8Size = 1 := rfl
      rw [utf8Size_cons, utf8Size_nil, quote]
      omega
  | char piece _ ih =>
      have larger := piece.utf8Size_le
      rw [utf8Size_cons]
      omega

theorem length_lt (body : Body text value rest) : rest.length < text.length := by
  induction body with
  | close => exact Nat.lt_succ_self _
  | char piece _ ih => exact Nat.lt_trans ih piece.length_lt

theorem isSuffix (body : Body text value rest) : rest <:+ text := by
  induction body with
  | close => exact List.suffix_cons ..
  | char piece _ ih => exact ih.trans piece.isSuffix

end Body

namespace Items

variable {text rest : List Char} {values : List (List Char)}

theorem length_lt (items : Items text values rest) : rest.length < text.length := by
  induction items with
  | last spaces body closing =>
      have opened := spaces.length_le
      have closed := closing.length_le
      have consumed := body.length_lt
      rw [List.length_cons] at opened closed
      omega
  | more spaces body separator _ ih =>
      have opened := spaces.length_le
      have separated := separator.length_le
      have consumed := body.length_lt
      rw [List.length_cons] at opened separated
      omega

theorem opens (items : Items text values rest) : ∃ body, Spaces text ('"' :: body) := by
  cases items with
  | last spaces => exact ⟨_, spaces⟩
  | more spaces => exact ⟨_, spaces⟩

theorem bracket_isSuffix (items : Items text values rest) : ']' :: rest <:+ text := by
  induction items with
  | last spaces body closing =>
      have inside := closing.isSuffix.trans body.isSuffix
      exact inside.trans spaces.tail_isSuffix
  | more spaces body separator _ ih =>
      have inside := (ih.trans separator.tail_isSuffix).trans body.isSuffix
      exact inside.trans spaces.tail_isSuffix

/-- Every string is smaller than the text of the array. -/
theorem utf8Size_lt (items : Items text values rest) {value : List Char}
    (member : value ∈ values) : utf8Size value < utf8Size text := by
  induction items with
  | last spaces body _ =>
      cases List.mem_singleton.mp member
      have opened := spaces.utf8Size_le
      have consumed := body.utf8Size_lt
      rw [utf8Size_cons] at opened
      omega
  | more spaces body separator _ ih =>
      have opened := spaces.utf8Size_le
      have separated := separator.utf8Size_le
      have consumed := body.utf8Size_lt
      rw [utf8Size_cons] at opened separated
      rcases List.mem_cons.mp member with rfl | later
      · omega
      · have within := ih later
        omega

end Items

namespace StringArray

variable {text : List Char} {values : List (List Char)}

theorem utf8Size_lt (array : StringArray text values) {value : List Char}
    (member : value ∈ values) : utf8Size value < utf8Size text := by
  cases array with
  | empty => cases member
  | items spaces items _ =>
      have opened := spaces.utf8Size_le
      have inner := items.utf8Size_lt member
      rw [utf8Size_cons] at opened
      omega

/-- Nothing but white space follows the closing bracket. -/
theorem closes (array : StringArray text values) :
    ∃ after, ']' :: after <:+ text ∧ Spaces after [] := by
  cases array with
  | empty spaces closing ended =>
      exact ⟨_, closing.isSuffix.trans spaces.tail_isSuffix, ended⟩
  | items spaces items ended =>
      exact ⟨_, items.bracket_isSuffix.trans spaces.tail_isSuffix, ended⟩

/-- The last character of an array is its bracket or white space. -/
theorem getLast?_eq (array : StringArray text values) {c : Char}
    (last : text.getLast? = some c) : c = ']' ∨ isSpace c := by
  rcases array.closes with ⟨after, ⟨front, rfl⟩, ⟨white, spaces, ended⟩⟩
  rw [List.append_nil] at ended
  subst ended
  rw [List.getLast?_append, List.getLast?_cons] at last
  cases final : after.getLast? with
  | none =>
      rw [final] at last
      exact .inl (by simpa using last.symm)
  | some d =>
      rw [final] at last
      have same : d = c := by simpa using last
      exact .inr (same ▸ spaces d (List.mem_of_getLast? final))

theorem bracket_mem (array : StringArray text values) : ']' ∈ text := by
  rcases array.closes with ⟨after, isSuffix, _⟩
  exact isSuffix.mem (List.mem_cons_self ..)

end StringArray

/-! ## The reader -/

/-- The rest of a text after its leading white space. -/
def skipSpaces (text : List Char) : List Char := text.dropWhile isSpace

theorem spaces_skipSpaces (text : List Char) : Spaces text (skipSpaces text) :=
  ⟨text.takeWhile isSpace, fun _ member => List.mem_takeWhile_imp member,
    List.takeWhile_append_dropWhile.symm⟩

/-- A token ends the white space before it. -/
theorem Spaces.skipSpaces_eq {text rest : List Char} {c : Char} (spaces : Spaces text (c :: rest))
    (token : isSpace c = false) : skipSpaces text = c :: rest := by
  rcases spaces with ⟨white, blank, rfl⟩
  rw [skipSpaces, List.dropWhile_append_of_pos blank, List.dropWhile_cons_of_neg]
  rw [token]
  exact Bool.false_ne_true

theorem spaces_nil_iff {text : List Char} : Spaces text [] ↔ text.all isSpace := by
  rw [List.all_eq_true]
  constructor
  · rintro ⟨white, blank, rfl⟩
    rwa [List.append_nil]
  · exact fun blank => ⟨text, blank, (List.append_nil text).symm⟩

/-- The second half of a surrogate pair. -/
def readLow (high : Nat) : List Char → Option (Char × List Char)
  | '\\' :: 'u' :: a :: b :: c :: d :: rest =>
      match hexUnit a b c d with
      | some low => if isLow low then some (pairChar high low, rest) else none
      | none => none
  | _ => none

def readPiece : List Char → Option (Char × List Char)
  | '\\' :: 'u' :: a :: b :: c :: d :: rest =>
      match hexUnit a b c d with
      | some unit =>
          if isHigh unit then readLow unit rest
          else if isLow unit then none
          else some (Char.ofNat unit, rest)
      | none => none
  | '\\' :: mark :: rest => (shortEscape mark).map fun c => (c, rest)
  | c :: rest => if isPlain c then some (c, rest) else none
  | [] => none

theorem Piece.of_readPiece {text rest : List Char} {c : Char}
    (read : readPiece text = some (c, rest)) : Piece text c rest := by
  unfold readPiece at read
  split at read
  next =>
      split at read
      next unit digits =>
          split at read
          next high =>
              unfold readLow at read
              split at read
              next =>
                  split at read
                  next low digits' =>
                      split at read
                      next isLow =>
                          rcases Prod.mk.inj (Option.some.inj read) with ⟨rfl, rfl⟩
                          exact .pair digits high digits' isLow
                      next => cases read
                  next => cases read
              next => cases read
          next notHigh =>
              split at read
              next => cases read
              next notLow =>
                  rcases Prod.mk.inj (Option.some.inj read) with ⟨rfl, rfl⟩
                  exact .unit digits (Bool.not_eq_true _ ▸ notHigh) (Bool.not_eq_true _ ▸ notLow)
      next => cases read
  next =>
      rcases Option.map_eq_some_iff.mp read with ⟨c, escaped, equal⟩
      cases equal
      exact .escape escaped
  next =>
      split at read
      next plain =>
          cases read
          exact .plain plain
      next => cases read
  next => cases read

theorem Piece.readPiece_eq {text rest : List Char} {c : Char} (piece : Piece text c rest) :
    readPiece text = some (c, rest) := by
  cases piece with
  | plain plain =>
      unfold readPiece
      split
      next equal =>
          cases equal
          exact absurd plain (by decide)
      next equal =>
          cases equal
          exact absurd plain (by decide)
      next equal =>
          cases equal
          exact if_pos plain
      next equal => cases equal
  | escape escaped =>
      unfold readPiece
      split
      next equal =>
          cases equal
          cases escaped
      next equal =>
          cases equal
          rw [escaped]
          rfl
      next notMarked equal =>
          cases equal
          exact (notMarked _ _ rfl rfl).elim
      next equal => cases equal
  | unit digits notHigh notLow => simp [readPiece, digits, notHigh, notLow]
  | pair digits high digits' low => simp [readPiece, readLow, digits, high, digits', low]

/-- Read a string after its opening quote; `fuel` bounds its length. -/
def readBody : Nat → List Char → Option (List Char × List Char)
  | 0, _ => none
  | fuel + 1, text =>
      match text with
      | '"' :: rest => some ([], rest)
      | text => do
          let (c, later) ← readPiece text
          let (value, rest) ← readBody fuel later
          return (c :: value, rest)

theorem Piece.ne_quote {text rest : List Char} {c : Char} (piece : Piece text c rest)
    (after : List Char) : text ≠ '"' :: after := by
  rintro rfl
  cases piece with
  | plain plain => exact absurd plain (by decide)

theorem readBody_succ (fuel : Nat) {text : List Char} (inside : ∀ after, text ≠ '"' :: after) :
    readBody (fuel + 1) text = (readPiece text).bind fun piece =>
      (readBody fuel piece.2).map fun later => (piece.1 :: later.1, later.2) := by
  rw [readBody]
  · cases readPiece text with
    | none => rfl
    | some piece =>
        rcases piece with ⟨c, later⟩
        change (readBody fuel later).bind _ = (readBody fuel later).map _
        cases readBody fuel later <;> rfl
  · exact inside

theorem Body.of_readBody {fuel : Nat} {text value rest : List Char}
    (read : readBody fuel text = some (value, rest)) : Body text value rest := by
  induction fuel generalizing text value with
  | zero => cases read
  | succ fuel ih =>
      by_cases quoted : ∃ after, text = '"' :: after
      · rcases quoted with ⟨after, rfl⟩
        cases read
        exact .close
      · rw [readBody_succ fuel (not_exists.mp quoted)] at read
        rcases Option.bind_eq_some_iff.mp read with ⟨piece, here, later⟩
        rcases Option.map_eq_some_iff.mp later with ⟨tail, there, equal⟩
        cases equal
        exact .char (.of_readPiece here) (ih there)

theorem Body.readBody_eq {fuel : Nat} {text value rest : List Char} (body : Body text value rest)
    (enough : text.length ≤ fuel) : readBody fuel text = some (value, rest) := by
  induction body generalizing fuel with
  | close =>
      cases fuel with
      | zero => cases enough
      | succ fuel => rfl
  | char piece _ ih =>
      have shorter := piece.length_lt
      cases fuel with
      | zero => omega
      | succ fuel =>
          rw [readBody_succ fuel piece.ne_quote, piece.readPiece_eq, Option.bind_some,
            ih (by omega)]
          rfl

/-- Read the strings of an array and its closing bracket; `fuel` bounds their number. -/
def readItems : Nat → List Char → Option (List (List Char) × List Char)
  | 0, _ => none
  | fuel + 1, text =>
      match skipSpaces text with
      | '"' :: body => do
          let (value, after) ← readBody body.length body
          match skipSpaces after with
          | ',' :: later =>
              let (values, rest) ← readItems fuel later
              return (value :: values, rest)
          | ']' :: rest => some ([value], rest)
          | _ => none
      | _ => none

theorem Items.of_readItems {fuel : Nat} {text rest : List Char} {values : List (List Char)}
    (read : readItems fuel text = some (values, rest)) : Items text values rest := by
  induction fuel generalizing text values with
  | zero => cases read
  | succ fuel ih =>
      have opened := spaces_skipSpaces text
      rw [readItems] at read
      split at read
      next body equal =>
          rw [equal] at opened
          rcases Option.bind_eq_some_iff.mp read with ⟨⟨value, after⟩, here, later⟩
          have ended := spaces_skipSpaces after
          dsimp only at later
          split at later
          next equal' =>
              rw [equal'] at ended
              rcases Option.bind_eq_some_iff.mp later with ⟨⟨values', rest'⟩, there, same⟩
              cases same
              exact .more opened (.of_readBody here) ended (ih there)
          next equal' =>
              rw [equal'] at ended
              cases later
              exact .last opened (.of_readBody here) ended
          next => cases later
      next => cases read

theorem Items.readItems_eq {fuel : Nat} {text rest : List Char} {values : List (List Char)}
    (items : Items text values rest) (enough : text.length ≤ fuel) :
    readItems fuel text = some (values, rest) := by
  induction items generalizing fuel with
  | last spaces body closing =>
      cases fuel with
      | zero =>
          have opened := spaces.length_le
          rw [List.length_cons] at opened
          omega
      | succ fuel =>
          have opened := spaces.skipSpaces_eq rfl
          have closed := closing.skipSpaces_eq rfl
          simp [readItems, opened, body.readBody_eq le_rfl, closed]
  | more spaces body separator _ ih =>
      have opened := spaces.length_le
      have consumed := body.length_lt
      have separated := separator.length_le
      rw [List.length_cons] at opened separated
      cases fuel with
      | zero => omega
      | succ fuel =>
          have token := spaces.skipSpaces_eq rfl
          have comma := separator.skipSpaces_eq rfl
          have others := ih (by omega : _ ≤ fuel)
          simp [readItems, token, body.readBody_eq le_rfl, comma, others]

/-- The strings of a text that is an array of strings. -/
def readStrings (text : List Char) : Option (List (List Char)) :=
  match skipSpaces text with
  | '[' :: inner =>
      match skipSpaces inner with
      | ']' :: after => if after.all isSpace then some [] else none
      | _ => do
          let (values, after) ← readItems inner.length inner
          if after.all isSpace then some values else none
  | _ => none

/-- The reader finds exactly what the grammar derives. -/
theorem readStrings_eq_some_iff {text : List Char} {values : List (List Char)} :
    readStrings text = some values ↔ StringArray text values := by
  constructor
  · intro read
    have opened := spaces_skipSpaces text
    rw [readStrings] at read
    split at read
    next inner equal =>
        rw [equal] at opened
        have closing := spaces_skipSpaces inner
        split at read
        next after equal' =>
            rw [equal'] at closing
            split at read
            next blank =>
                cases read
                exact .empty opened closing (spaces_nil_iff.mpr blank)
            next => cases read
        next =>
            rcases Option.bind_eq_some_iff.mp read with ⟨⟨values', after⟩, items, later⟩
            dsimp only at later
            split at later
            next blank =>
                cases later
                exact .items opened (.of_readItems items) (spaces_nil_iff.mpr blank)
            next => cases later
    next => cases read
  · intro array
    cases array with
    | empty spaces closing ended =>
        have opened := spaces.skipSpaces_eq rfl
        have closed := closing.skipSpaces_eq rfl
        have blank := spaces_nil_iff.mp ended
        simp only [readStrings, opened, closed]
        exact if_pos blank
    | items spaces items ended =>
        rcases items.opens with ⟨body, first⟩
        have opened := spaces.skipSpaces_eq rfl
        have quote := first.skipSpaces_eq rfl
        have found := items.readItems_eq le_rfl
        have blank := spaces_nil_iff.mp ended
        simp only [readStrings, opened, quote, found]
        exact if_pos blank

/-! ## The writer -/

def hexChar (digit : Nat) : Char :=
  Char.ofNat (if digit < 10 then 0x30 + digit else 0x61 + (digit - 10))

/-- A character in a string; a control character is given by its number. -/
def writeChar (c : Char) : List Char :=
  if c = '"' ∨ c = '\\' then ['\\', c]
  else if c = '\n' then ['\\', 'n']
  else if c.toNat < 0x20 then
    ['\\', 'u', '0', '0', hexChar (c.toNat / 16), hexChar (c.toNat % 16)]
  else [c]

def writeString (value : List Char) : List Char :=
  '"' :: value.flatMap writeChar ++ ['"']

/-- A JSON text of some strings. -/
def writeStrings (values : List (List Char)) : List Char :=
  '[' :: [','].intercalate (values.map writeString) ++ [']']

theorem hexUnit_control :
    ∀ code < 0x20, hexUnit '0' '0' (hexChar (code / 16)) (hexChar (code % 16)) = some code := by
  decide

theorem piece_writeChar (c : Char) (rest : List Char) : Piece (writeChar c ++ rest) c rest := by
  rw [writeChar]
  split
  next quoted =>
      rcases quoted with rfl | rfl
      · exact .escape rfl
      · exact .escape rfl
  next unquoted =>
      split
      next newline =>
          subst newline
          exact .escape rfl
      next =>
          split
          next control =>
              have high : isHigh c.toNat = false := by
                simp only [isHigh, Bool.and_eq_false_iff, decide_eq_false_iff_not]
                omega
              have low : isLow c.toNat = false := by
                simp only [isLow, Bool.and_eq_false_iff, decide_eq_false_iff_not]
                omega
              have piece : Piece _ _ rest := .unit (hexUnit_control c.toNat control) high low
              rwa [Char.ofNat_toNat] at piece
          next printable =>
              apply Piece.plain
              simp only [isPlain, Bool.and_eq_true, decide_eq_true_eq]
              exact ⟨not_or.mp unquoted, Nat.not_lt.mp printable⟩

theorem body_write (value rest : List Char) :
    Body (value.flatMap writeChar ++ '"' :: rest) value rest := by
  induction value with
  | nil => exact .close
  | cons c value ih =>
      rw [List.flatMap_cons, List.append_assoc]
      exact .char (piece_writeChar c _) ih

theorem items_write (first : List Char) (others : List (List Char)) (rest : List Char) :
    Items ([','].intercalate ((first :: others).map writeString) ++ ']' :: rest)
      (first :: others) rest := by
  induction others generalizing first with
  | nil =>
      have body := body_write first (']' :: rest)
      have text : [','].intercalate ([first].map writeString) ++ ']' :: rest =
          '"' :: (first.flatMap writeChar ++ '"' :: ']' :: rest) := by
        simp [writeString]
      rw [text]
      exact .last (.refl _) body (.refl _)
  | cons second others ih =>
      have body := body_write first
        (',' :: ([','].intercalate ((second :: others).map writeString) ++ ']' :: rest))
      have text : [','].intercalate ((first :: second :: others).map writeString) ++ ']' :: rest =
          '"' :: (first.flatMap writeChar ++ '"' ::
            ',' :: ([','].intercalate ((second :: others).map writeString) ++ ']' :: rest)) := by
        rw [List.map_cons, List.map_cons, List.intercalate_cons_cons]
        simp [writeString]
      rw [text]
      exact .more (.refl _) body (.refl _) (ih second)

/-- The text that is written stands for the strings it was written for. -/
theorem stringArray_writeStrings (values : List (List Char)) :
    StringArray (writeStrings values) values := by
  cases values with
  | nil => exact .empty (.refl _) (.refl _) (.refl _)
  | cons first others =>
      have items := items_write first others []
      exact .items (.refl _) items (.refl _)

end Keylens.Library.Json
