import Mathlib.Data.List.DropRight
import Mathlib.Data.List.Infix
import Mathlib.Data.List.Lex
import Mathlib.Data.Nat.Find
import Mathlib.Order.Lattice

/-!
# Splitting texts

First and last occurrences of a delimiter in a list, in the shape in which a
program splits a text at a separator, splits at every occurrence, and splits into
pieces of a fixed length.  Everything is stated for lists over an arbitrary
alphabet; a text is a list of characters.
-/

namespace Keylens.Library

universe u

variable {α : Type u} [DecidableEq α]

/-- The parts before and after the first occurrence of `pattern`. -/
def splitOnce (text pattern : List α) : Option (List α × List α) :=
  text.dropInfix? pattern

/-- Position of the last occurrence of `item`. -/
def rfind (item : α) (text : List α) : Option Nat :=
  (text.reverse.idxOf? item).map fun back => text.length - 1 - back

/-- The parts before and after the last occurrence of `item`. -/
def rsplitOnce (item : α) (text : List α) : Option (List α × List α) :=
  (rfind item text).map fun pos => (text.take pos, text.drop (pos + 1))

theorem splitOnce_eq_some_iff {text pattern before after : List α} :
    splitOnce text pattern = some (before, after) ↔
      text = before ++ pattern ++ after ∧
        ∀ before' after', text = before' ++ pattern ++ after' →
          before.length ≤ before'.length := by
  rw [splitOnce, List.dropInfix?_eq_some_iff]
  constructor
  · rintro ⟨⟨found, split, equal⟩, shortest⟩
    obtain rfl := eq_of_beq equal
    exact ⟨split, fun before' after' split' => shortest before' found after' split' equal⟩
  · rintro ⟨split, shortest⟩
    refine ⟨⟨pattern, split, beq_self_eq_true pattern⟩, ?_⟩
    intro before' found after' split' equal
    obtain rfl := eq_of_beq equal
    exact shortest before' after' split'

theorem splitOnce_eq_none_iff {text pattern : List α} :
    splitOnce text pattern = none ↔ ¬pattern <:+: text := by
  constructor
  · rintro missing ⟨before, after, split⟩
    -- Among all splits, one with the shortest first part is what `splitOnce` finds.
    have exists_split : ∃ size before' after', text = before' ++ pattern ++ after' ∧
        before'.length = size := ⟨_, before, after, split.symm, rfl⟩
    classical
    obtain ⟨first, rest, firstSplit, firstSize⟩ := Nat.find_spec exists_split
    have found : splitOnce text pattern = some (first, rest) := by
      rw [splitOnce_eq_some_iff]
      refine ⟨firstSplit, fun before' after' split' => ?_⟩
      rw [firstSize]
      exact Nat.find_min' exists_split ⟨before', after', split', rfl⟩
    simp [found] at missing
  · intro absent
    cases found : splitOnce text pattern with
    | none => rfl
    | some parts =>
        obtain ⟨split, _⟩ := splitOnce_eq_some_iff.mp found
        exact (absent ⟨parts.1, parts.2, split.symm⟩).elim

theorem infix_of_splitOnce {text pattern : List α} {parts : List α × List α}
    (found : splitOnce text pattern = some parts) : pattern <:+: text :=
  ⟨parts.1, parts.2, (splitOnce_eq_some_iff.mp found).1.symm⟩

/-- The part before the first occurrence does not contain the pattern. -/
theorem splitOnce_before_free {text pattern before after : List α} (nonempty : pattern ≠ [])
    (found : splitOnce text pattern = some (before, after)) : ¬pattern <:+: before := by
  intro occurs
  rcases occurs with ⟨lead, rest, beforeEq⟩
  rcases splitOnce_eq_some_iff.mp found with ⟨split, shortest⟩
  have earlier : before.length ≤ lead.length := by
    apply shortest lead (rest ++ pattern ++ after)
    rw [split, ← beforeEq]
    simp only [List.append_assoc]
  have sizes := congrArg List.length beforeEq
  have patternPos := List.length_pos_of_ne_nil nonempty
  simp only [List.length_append] at sizes
  omega

/-- A pattern no proper suffix of which is also a prefix: its occurrences never
overlap. -/
def Unbordered (pattern : List α) : Prop :=
  ∀ size < pattern.length, 0 < size →
    pattern.drop size ≠ pattern.take (pattern.length - size)

instance (pattern : List α) : Decidable (Unbordered pattern) :=
  inferInstanceAs (Decidable (∀ size < pattern.length, 0 < size →
    pattern.drop size ≠ pattern.take (pattern.length - size)))

/-- An unbordered pattern is found exactly where it was written, provided that
the text before it does not contain it already. -/
theorem splitOnce_append {before pattern : List α} (after : List α)
    (unbordered : Unbordered pattern) (fresh : ¬pattern <:+: before) :
    splitOnce (before ++ pattern ++ after) pattern = some (before, after) := by
  rw [splitOnce_eq_some_iff]
  refine ⟨rfl, fun before' after' split => ?_⟩
  by_contra shorter
  have shorterLt : before'.length < before.length := Nat.lt_of_not_le shorter
  obtain ⟨gap, beforeEq⟩ : ∃ gap, before = before' ++ gap :=
    (List.append_eq_append_iff.mp
      (by simpa [List.append_assoc] using split :
        before ++ (pattern ++ after) = before' ++ (pattern ++ after'))).elim
      (fun ⟨gap, short, _⟩ => absurd (congrArg List.length short)
        (by simp only [List.length_append]; omega))
      fun ⟨gap, long, _⟩ => ⟨gap, long⟩
  subst beforeEq
  have gapPos : 0 < gap.length := by
    simpa [List.length_append] using shorterLt
  have overlap : gap ++ (pattern ++ after) = pattern ++ after' := by
    simpa [List.append_assoc] using split
  by_cases inside : pattern.length ≤ gap.length
  · -- The earlier occurrence lies inside `before`.
    have gapEq : pattern <+: gap :=
      List.prefix_of_prefix_length_le ⟨after', overlap.symm⟩
        (List.prefix_append gap (pattern ++ after)) inside
    obtain ⟨tail, rfl⟩ := gapEq
    exact fresh ⟨before', tail, by simp [List.append_assoc]⟩
  · -- The two occurrences overlap, so the pattern has a border.
    have sizeLt : gap.length < pattern.length := Nat.lt_of_not_le inside
    have dropped : pattern ++ after = pattern.drop gap.length ++ after' := by
      have := congrArg (List.drop gap.length) overlap
      rwa [List.drop_left, List.drop_append_of_le_length (Nat.le_of_lt sizeLt)] at this
    have border := congrArg (List.take (pattern.length - gap.length)) dropped
    rw [List.take_append_of_le_length (Nat.sub_le ..),
      List.take_append_of_le_length (Nat.le_of_eq List.length_drop.symm),
      List.take_of_length_le (Nat.le_of_eq List.length_drop)] at border
    exact unbordered gap.length sizeLt gapPos border.symm

/-- Text in which the pattern cannot begin does not move the split. -/
theorem splitOnce_append_left {lead text rest : List α} {first : α}
    (fresh : first ∉ lead) :
    splitOnce (lead ++ text) (first :: rest) =
      (splitOnce text (first :: rest)).map fun parts => (lead ++ parts.1, parts.2) := by
  induction lead with
  | nil => simp
  | cons item lead ih =>
      obtain ⟨itemNe, leadFresh⟩ := not_or.mp (List.mem_cons.not.mp fresh)
      have unfolded : splitOnce (item :: (lead ++ text)) (first :: rest) =
          (splitOnce (lead ++ text) (first :: rest)).map
            fun parts => (item :: parts.1, parts.2) := by
        cases found : splitOnce (lead ++ text) (first :: rest) with
        | none =>
            simp only [Option.map_none, splitOnce_eq_none_iff] at found ⊢
            rw [List.infix_cons_iff]
            rintro (⟨tail, equal⟩ | inside)
            · exact itemNe (List.cons.inj equal).1
            · exact found inside
        | some parts =>
            obtain ⟨split, shortest⟩ := splitOnce_eq_some_iff.mp found
            refine splitOnce_eq_some_iff.mpr ⟨by simp [split], fun before' after' split' => ?_⟩
            cases before' with
            | nil => exact absurd (List.cons.inj split').1.symm itemNe
            | cons head before' =>
                have tail := shortest before' after' (by simpa using (List.cons.inj split').2)
                simpa using tail
      rw [List.cons_append, unfolded, ih leadFresh, Option.map_map]
      rfl

omit [DecidableEq α] in
/-- A prefix that avoids `item` ends before the first `item`. -/
theorem prefix_of_prefix_append_cons {pattern after : List α} {item : α} (before : List α)
    (fresh : item ∉ pattern) (starts : pattern <+: before ++ item :: after) :
    pattern <+: before := by
  induction pattern generalizing before with
  | nil => exact List.nil_prefix
  | cons head pattern ih =>
      obtain ⟨headNe, patternFresh⟩ := not_or.mp (List.mem_cons.not.mp fresh)
      cases before with
      | nil => exact absurd (List.cons_prefix_cons.mp starts).1.symm headNe
      | cons first before =>
          obtain ⟨headEq, rest⟩ := List.cons_prefix_cons.mp starts
          exact List.cons_prefix_cons.mpr ⟨headEq, ih before patternFresh rest⟩

omit [DecidableEq α] in
/-- A pattern that avoids `item` occurs on one side of it. -/
theorem infix_append_cons_iff {pattern before after : List α} {item : α}
    (fresh : item ∉ pattern) :
    pattern <:+: before ++ item :: after ↔ pattern <:+: before ∨ pattern <:+: after := by
  constructor
  · intro occurs
    induction before with
    | nil =>
        rcases List.infix_cons_iff.mp occurs with starts | later
        · exact .inl (prefix_of_prefix_append_cons [] fresh starts).isInfix
        · exact .inr later
    | cons first before ih =>
        rcases List.infix_cons_iff.mp occurs with starts | later
        · exact .inl (prefix_of_prefix_append_cons (first :: before) fresh starts).isInfix
        · exact (ih later).imp_left fun inside => List.infix_cons inside
  · rintro (left | right)
    · exact left.trans List.infix_append_left
    · exact (right.trans (List.suffix_cons item after).isInfix).trans List.infix_append_right

theorem rfind_append_cons (before : List α) {after : List α} {item : α} (last : item ∉ after) :
    rfind item (before ++ item :: after) = some before.length := by
  have back : (after.reverse ++ item :: before.reverse).idxOf? item = some after.length := by
    rw [List.idxOf?_eq_some_iff]
    refine ⟨by simp, by simp, fun pos bound => ?_⟩
    have inAfter : pos < after.reverse.length := by simpa using bound
    rw [List.getElem_append_left inAfter]
    exact fun equal => last (List.mem_reverse.mp (equal ▸ List.getElem_mem inAfter))
  simp only [rfind, List.reverse_append, List.reverse_cons, List.append_assoc,
    List.singleton_append, back, Option.map_some, List.length_append, List.length_cons]
  congr 1
  omega

theorem rfind_eq_none {item : α} {text : List α} (absent : item ∉ text) :
    rfind item text = none := by
  simp [rfind, List.idxOf?_eq_none_iff.mpr, absent]

theorem rfind_lt {item : α} {text : List α} {pos : Nat} (found : rfind item text = some pos) :
    pos < text.length := by
  rcases Option.map_eq_some_iff.mp found with ⟨back, foundBack, rfl⟩
  rcases List.idxOf?_eq_some_iff.mp foundBack with ⟨inside, _⟩
  rw [List.length_reverse] at inside
  omega

theorem rsplitOnce_append_cons (before : List α) {after : List α} {item : α}
    (last : item ∉ after) : rsplitOnce item (before ++ item :: after) = some (before, after) := by
  rw [rsplitOnce, rfind_append_cons before last]
  simp

omit [DecidableEq α] in
/-- What is in a text is somewhere for the last time. -/
theorem exists_last_of_mem {item : α} {text : List α} (member : item ∈ text) :
    ∃ before after, text = before ++ item :: after ∧ item ∉ after := by
  rcases List.eq_append_cons_of_mem (List.mem_reverse.mpr member) with
    ⟨back, front, reversed, last⟩
  rw [List.reverse_eq_iff, List.reverse_append, List.reverse_cons, List.append_assoc,
    List.singleton_append] at reversed
  exact ⟨front.reverse, back.reverse, reversed, fun inside => last (List.mem_reverse.mp inside)⟩

theorem rsplitOnce_eq_some_iff {item : α} {text before after : List α} :
    rsplitOnce item text = some (before, after) ↔
      text = before ++ item :: after ∧ item ∉ after := by
  constructor
  · intro split
    have member : item ∈ text := by
      by_contra absent
      rw [rsplitOnce, rfind_eq_none absent] at split
      cases split
    rcases exists_last_of_mem member with ⟨front, back, rfl, last⟩
    rw [rsplitOnce_append_cons front last] at split
    cases split
    exact ⟨rfl, last⟩
  · rintro ⟨rfl, last⟩
    exact rsplitOnce_append_cons before last

/-- The part before the last occurrence is shorter than the text. -/
theorem length_lt_of_rsplitOnce {item : α} {text before after : List α}
    (split : rsplitOnce item text = some (before, after)) : before.length < text.length := by
  rcases Option.map_eq_some_iff.mp split with ⟨pos, found, parts⟩
  cases parts
  rw [List.length_take]
  exact Nat.lt_of_le_of_lt (Nat.min_le_left ..) (rfind_lt found)

/-! ## Splitting at every occurrence -/

/-- No piece of a split holds the item it was split at. -/
theorem not_mem_of_mem_splitOn {mark : α} {text piece : List α}
    (member : piece ∈ text.splitOn mark) : mark ∉ piece := by
  induction text generalizing piece with
  | nil =>
      rw [List.splitOn_nil, List.mem_singleton] at member
      simp [member]
  | cons head text ih =>
      rw [List.splitOn_cons_eq_if_modifyHead] at member
      split at member
      next =>
          rcases List.mem_cons.mp member with rfl | later
          · simp
          · exact ih later
      next different =>
          cases pieces : text.splitOn mark with
          | nil => exact absurd pieces (List.splitOn_ne_nil _ _)
          | cons first rest =>
              rw [pieces] at ih member
              rcases List.mem_cons.mp member with rfl | later
              · intro occurs
                rcases List.mem_cons.mp occurs with here | later
                · exact different (by simp [here])
                · exact ih (List.mem_cons_self ..) later
              · exact ih (List.mem_cons_of_mem _ later)

omit [DecidableEq α] in
/-- A join puts the separator before every piece but the first. -/
theorem intercalate_cons (mark : α) (first : List α) (rest : List (List α)) :
    [mark].intercalate (first :: rest) = first ++ rest.flatMap fun piece => mark :: piece := by
  induction rest generalizing first with
  | nil => simp
  | cons second rest ih =>
      rw [List.intercalate_cons_cons, ih]
      simp

omit [DecidableEq α] in
theorem intercalate_append {front : List (List α)} (nonempty : front ≠ []) (mark : α)
    (back : List (List α)) :
    [mark].intercalate (front ++ back) =
      [mark].intercalate front ++ back.flatMap fun piece => mark :: piece := by
  cases front with
  | nil => exact absurd rfl nonempty
  | cons first front => simp [intercalate_cons]

/-! ## Lexicographic order -/

section Order

variable {β : Type u} [LinearOrder β] {first second left right : List β}

/-- What comes after two texts does not matter, unless one begins with the other. -/
theorem append_lt_append (before : first < second) (apart : ¬first <+: second) :
    first ++ left < second ++ right := by
  induction first generalizing second with
  | nil => exact absurd (List.nil_prefix) apart
  | cons head first ih =>
      cases second with
      | nil => exact absurd before (List.not_lt_nil _)
      | cons other second =>
          rw [List.cons_append, List.cons_append, List.cons_lt_cons_iff]
          rcases List.cons_lt_cons_iff.mp before with less | ⟨rfl, later⟩
          · exact .inl less
          · refine .inr ⟨rfl, ih later ?_⟩
            intro isPrefix
            exact apart ((List.prefix_cons_inj head).mpr isPrefix)

/-- Of two texts that go on after a common part, that with the smaller item comes first. -/
theorem append_cons_lt_append_cons (front : List β) {item other : β} (different : item ≠ other) :
    front ++ item :: left < front ++ other :: right ↔ item < other := by
  induction front with
  | nil => simp [List.cons_lt_cons_iff, different]
  | cons head front ih => simpa [List.cons_lt_cons_iff] using ih

end Order

/-! ## Splitting at every so many items -/

/-- Pieces of `size` items, the last one possibly shorter; `fuel` bounds their
number. -/
def chunksUpTo (size : Nat) : Nat → List α → List (List α)
  | 0, _ => []
  | _ + 1, [] => []
  | fuel + 1, item :: items =>
      (item :: items).take size :: chunksUpTo size fuel ((item :: items).drop size)

/-- Pieces of `size` items, the last one possibly shorter. -/
def chunks (size : Nat) (items : List α) : List (List α) :=
  chunksUpTo size items.length items

omit [DecidableEq α] in
theorem flatten_chunksUpTo {size fuel : Nat} (positive : 0 < size) {items : List α}
    (enough : items.length ≤ fuel) : (chunksUpTo size fuel items).flatten = items := by
  induction fuel generalizing items with
  | zero =>
      rw [List.length_eq_zero_iff.mp (Nat.le_zero.mp enough)]
      rfl
  | succ fuel ih =>
      cases items with
      | nil => rfl
      | cons item items =>
          have shorter : ((item :: items).drop size).length ≤ fuel := by
            rw [List.length_drop]
            omega
          rw [chunksUpTo, List.flatten_cons, ih shorter, List.take_append_drop]

omit [DecidableEq α] in
/-- The pieces put together are the list. -/
theorem flatten_chunks {size : Nat} (positive : 0 < size) (items : List α) :
    (chunks size items).flatten = items :=
  flatten_chunksUpTo positive le_rfl

omit [DecidableEq α] in
theorem length_chunksUpTo {size fuel : Nat} (positive : 0 < size) {items : List α}
    (enough : items.length ≤ fuel) :
    (chunksUpTo size fuel items).length = (items.length + (size - 1)) / size := by
  induction fuel generalizing items with
  | zero =>
      rw [List.length_eq_zero_iff.mp (Nat.le_zero.mp enough)]
      exact (Nat.div_eq_of_lt (by simp; omega)).symm
  | succ fuel ih =>
      cases items with
      | nil => exact (Nat.div_eq_of_lt (by simp; omega)).symm
      | cons item items =>
          have shorter : ((item :: items).drop size).length ≤ fuel := by
            rw [List.length_drop, List.length_cons] at *
            omega
          rw [chunksUpTo, List.length_cons, ih shorter, List.length_drop]
          rcases Nat.lt_or_ge size (item :: items).length with longer | within
          · have split : (item :: items).length + (size - 1) =
                (item :: items).length - size + (size - 1) + size := by omega
            rw [split, Nat.add_div_right _ positive]
          · rw [Nat.sub_eq_zero_of_le within, Nat.div_eq_of_lt (by omega : 0 + (size - 1) < size)]
            rw [List.length_cons] at within ⊢
            exact (Nat.div_eq_of_lt_le (by omega) (by omega)).symm

omit [DecidableEq α] in
/-- The last piece may be shorter. -/
theorem length_chunks {size : Nat} (positive : 0 < size) (items : List α) :
    (chunks size items).length = (items.length + (size - 1)) / size :=
  length_chunksUpTo positive (Nat.le_refl _)

/-! ## Texts of characters -/

/-- White space in the sense of Unicode. -/
def isWhitespace (c : Char) : Bool :=
  let code := c.toNat
  (0x09 ≤ code && code ≤ 0x0D) || code = 0x20 || code = 0x85 || code = 0xA0 || code = 0x1680 ||
    (0x2000 ≤ code && code ≤ 0x200A) || code = 0x2028 || code = 0x2029 || code = 0x202F ||
    code = 0x205F || code = 0x3000

/-- A text without white space at its ends. -/
def trim (text : List Char) : List Char :=
  ((text.dropWhile isWhitespace).reverse.dropWhile isWhitespace).reverse

omit [DecidableEq α] in
theorem mem_dropWhile {drops : α → Bool} {text : List α} {item : α} (member : item ∈ text)
    (stays : drops item = false) : item ∈ text.dropWhile drops := by
  induction text with
  | nil => cases member
  | cons head text ih =>
      cases dropped : drops head with
      | false => rwa [List.dropWhile_cons_of_neg (by rw [dropped]; exact Bool.false_ne_true)]
      | true =>
          rw [List.dropWhile_cons_of_pos dropped]
          rcases List.mem_cons.mp member with rfl | later
          · exact Bool.noConfusion (stays.symm.trans dropped)
          · exact ih later

/-- Something other than white space is left by `trim`. -/
theorem mem_trim {text : List Char} {c : Char} (member : c ∈ text)
    (visible : isWhitespace c = false) : c ∈ trim text := by
  have front := List.mem_reverse.mpr (mem_dropWhile member visible)
  exact List.mem_reverse.mpr (mem_dropWhile front visible)

theorem trim_eq_rdropWhile (text : List Char) :
    trim text = (text.dropWhile isWhitespace).rdropWhile isWhitespace := rfl

/-- A text that begins and ends visibly is not trimmed. -/
theorem trim_eq_self {text : List Char} (first : ∀ c, text.head? = some c → isWhitespace c = false)
    (last : ∀ c, text.getLast? = some c → isWhitespace c = false) : trim text = text := by
  have front : text.dropWhile isWhitespace = text := by
    rw [List.dropWhile_eq_self_iff]
    intro nonempty
    rw [first _ (List.head?_eq_getElem? .. ▸ List.getElem?_eq_getElem nonempty)]
    exact Bool.false_ne_true
  rw [trim_eq_rdropWhile, front, List.rdropWhile_eq_self_iff]
  intro nonempty
  rw [last _ (List.getLast?_eq_some_getLast nonempty)]
  exact Bool.false_ne_true

theorem trim_trim (text : List Char) : trim (trim text) = trim text := by
  have isPrefix : trim text <+: text.dropWhile isWhitespace := List.rdropWhile_prefix ..
  have front : (trim text).dropWhile isWhitespace = trim text := by
    rw [List.dropWhile_eq_self_iff]
    intro nonempty
    rw [isPrefix.getElem nonempty]
    exact List.dropWhile_eq_self_iff.mp (List.dropWhile_idempotent ..) _
  rw [trim_eq_rdropWhile, front]
  exact List.rdropWhile_idempotent ..

/-- The lines of a text: each ends in a line feed, which a carriage return may come
before, and what is left after the last one is a line unless it is empty. -/
def lines (text : List Char) : List (List Char) :=
  let pieces := text.splitOn '\n'
  let ended := pieces.dropLast.map fun piece =>
    if piece.getLast? = some '\r' then piece.dropLast else piece
  ended ++ pieces.getLast?.toList.filter fun rest => rest ≠ []

end Keylens.Library
