import Keylens.Library.Decimal
import Keylens.Library.Text

/-!
# Lines and words

What is read from a text that was written line by line, or from a line that was
written word by word: the lines and the words it was written from.
-/

namespace Keylens.Library

section Marks

variable {α : Type*} [DecidableEq α] {mark : α} {pieces : List (List α)}

/-- Pieces that each end in a mark are split at the marks. -/
theorem splitOn_ended (free : ∀ piece ∈ pieces, mark ∉ piece) :
    (pieces.flatMap fun piece => piece ++ [mark]).splitOn mark = pieces ++ [[]] := by
  induction pieces with
  | nil => simp
  | cons piece pieces ih =>
      have first := free piece List.mem_cons_self
      have rest := ih fun other member => free other (List.mem_cons_of_mem _ member)
      rw [List.flatMap_cons, List.append_assoc, List.singleton_append,
        List.splitOn_append_cons_self_of_not_mem first, rest, List.cons_append]

omit [DecidableEq α] in
/-- A pattern without the mark occurs in a join exactly when it occurs in a piece. -/
theorem infix_intercalate_iff {pattern : List α} (fresh : mark ∉ pattern)
    (nonempty : pattern ≠ []) :
    pattern <:+: [mark].intercalate pieces ↔ ∃ piece ∈ pieces, pattern <:+: piece := by
  induction pieces with
  | nil => simpa using nonempty
  | cons piece pieces ih =>
      cases pieces with
      | nil => simp
      | cons second rest =>
          rw [List.intercalate_cons_cons, List.append_assoc, List.singleton_append,
            infix_append_cons_iff fresh, ih]
          simp

omit [DecidableEq α] in
theorem mem_intercalate {item : α} (member : item ∈ [mark].intercalate pieces) :
    item = mark ∨ ∃ piece ∈ pieces, item ∈ piece := by
  cases pieces with
  | nil => simp at member
  | cons first rest =>
      simp only [intercalate_cons, List.mem_append, List.mem_flatMap, List.mem_cons] at member
      rcases member with here | ⟨piece, memberPiece, same | inside⟩
      · exact .inr ⟨first, List.mem_cons_self, here⟩
      · exact .inl same
      · exact .inr ⟨piece, List.mem_cons_of_mem _ memberPiece, inside⟩

end Marks

/-! ## Lines -/

section Lines

variable {pieces : List (List Char)}

/-- Lines that end in a line feed are read as they are, but for a carriage return. -/
theorem lines_ended (free : ∀ piece ∈ pieces, '\n' ∉ piece) :
    lines (pieces.flatMap fun piece => piece ++ ['\n']) =
      pieces.map fun piece => if piece.getLast? = some '\r' then piece.dropLast else piece := by
  simp [lines, splitOn_ended free]

theorem lines_flatMap_lf (free : ∀ piece ∈ pieces, '\n' ∉ piece ∧ '\r' ∉ piece) :
    lines (pieces.flatMap fun piece => piece ++ ['\n']) = pieces := by
  rw [lines_ended fun piece member => (free piece member).1, List.map_congr_left, List.map_id]
  intro piece member
  exact if_neg fun last => (free piece member).2 (List.mem_of_getLast? last)

theorem lines_flatMap_crlf (free : ∀ piece ∈ pieces, '\n' ∉ piece) :
    lines (pieces.flatMap fun piece => piece ++ ['\r', '\n']) = pieces := by
  have ended : (pieces.flatMap fun piece => piece ++ ['\r', '\n']) =
      (pieces.map fun piece => piece ++ ['\r']).flatMap fun piece => piece ++ ['\n'] := by
    simp [List.flatMap_map]
  have noFeed : ∀ piece ∈ pieces.map fun piece => piece ++ ['\r'], '\n' ∉ piece := by
    intro piece member
    rcases List.mem_map.mp member with ⟨line, memberLine, rfl⟩
    simp [free line memberLine]
  rw [ended, lines_ended noFeed]
  simp [Function.comp_def]

end Lines

/-! ## Words -/

def isAsciiWhitespace (c : Char) : Bool :=
  c = ' ' || c = '\t' || c = '\n' || c = '\x0c' || c = '\r'

/-- What stands between ASCII white space. -/
def splitAsciiWhitespace (text : List Char) : List (List Char) :=
  (text.splitOnP isAsciiWhitespace).filter fun word => word ≠ []

/-- No white space in a text. -/
def Unspaced (text : List Char) : Prop :=
  ∀ c ∈ text, isWhitespace c = false

instance : DecidablePred Unspaced :=
  List.decidableBAll fun c => isWhitespace c = false

/-- A text that holds something, and no white space. -/
def IsWord (text : List Char) : Prop :=
  text ≠ [] ∧ Unspaced text

instance : DecidablePred IsWord :=
  fun _ => inferInstanceAs (Decidable (_ ∧ _))

section Words

variable {word left right : List Char} {words : List (List Char)} {c : Char}

@[simp] theorem unspaced_nil : Unspaced [] := by
  simp [Unspaced]

@[simp] theorem unspaced_cons :
    Unspaced (c :: word) ↔ isWhitespace c = false ∧ Unspaced word := by
  simp [Unspaced]

@[simp] theorem unspaced_append :
    Unspaced (left ++ right) ↔ Unspaced left ∧ Unspaced right := by
  simp [Unspaced, or_imp, forall_and]

theorem unspaced_intercalate (mark : isWhitespace c = false)
    (each : ∀ piece ∈ words, Unspaced piece) : Unspaced ([c].intercalate words) := by
  intro d member
  rcases mem_intercalate member with rfl | ⟨piece, memberPiece, inside⟩
  · exact mark
  · exact each piece memberPiece d inside

theorem isWhitespace_of_isDigit (digit : c.isDigit) : isWhitespace c = false := by
  have range : 48 ≤ c.toNat ∧ c.toNat ≤ 57 := Char.isDigit_iff_toNat.mp digit
  simp only [isWhitespace, Bool.or_eq_false_iff, Bool.and_eq_false_iff, decide_eq_false_iff_not]
  omega

@[simp] theorem unspaced_decimal (number : Nat) : Unspaced (decimal number) :=
  fun _ member => isWhitespace_of_isDigit (isDigit_of_mem_decimal member)

theorem IsWord.append (isWord : IsWord left) (unspaced : Unspaced right) :
    IsWord (left ++ right) := by
  refine ⟨?_, unspaced_append.mpr ⟨isWord.2, unspaced⟩⟩
  simp [isWord.1]

theorem isWord_decimal (number : Nat) : IsWord (decimal number) :=
  ⟨decimal_ne_nil number, unspaced_decimal number⟩

theorem isWhitespace_of_ascii (ascii : isAsciiWhitespace c) : isWhitespace c := by
  simp only [isAsciiWhitespace, Bool.or_eq_true, decide_eq_true_eq] at ascii
  rcases ascii with (((rfl | rfl) | rfl) | rfl) | rfl <;> decide

theorem Unspaced.ascii_free (unspaced : Unspaced word) (member : c ∈ word) :
    isAsciiWhitespace c = false := by
  rw [← Bool.not_eq_true]
  intro ascii
  exact absurd (isWhitespace_of_ascii ascii) (by simp [unspaced c member])

theorem Unspaced.not_mem (unspaced : Unspaced word) (space : isWhitespace c = true) :
    c ∉ word := by
  intro member
  rw [unspaced c member] at space
  cases space

/-- A word is not trimmed. -/
theorem Unspaced.trim_eq (unspaced : Unspaced word) : trim word = word :=
  trim_eq_self (fun c first => unspaced c (List.mem_of_head? first))
    (fun c last => unspaced c (List.mem_of_getLast? last))

/-- The words of a line are the words it was written from. -/
theorem splitAsciiWhitespace_intercalate (isWord : ∀ word ∈ words, IsWord word) :
    splitAsciiWhitespace ([' '].intercalate words) = words := by
  induction words with
  | nil => rfl
  | cons word words ih =>
      have free : ∀ c ∈ word, isAsciiWhitespace c = false :=
        fun c => (isWord word List.mem_cons_self).2.ascii_free
      have nonempty : word ≠ [] := (isWord word List.mem_cons_self).1
      have rest := ih fun other member => isWord other (List.mem_cons_of_mem _ member)
      cases words with
      | nil => simp [splitAsciiWhitespace, List.splitOnP_eq_singleton free, nonempty]
      | cons second words =>
          rw [splitAsciiWhitespace] at rest
          rw [List.intercalate_cons_cons, List.append_assoc, List.singleton_append,
            splitAsciiWhitespace,
            List.splitOnP_append_cons_of_forall_mem free ' ' (by decide),
            List.filter_cons_of_pos (by simpa using nonempty), rest]

end Words

end Keylens.Library
