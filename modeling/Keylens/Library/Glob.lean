import Mathlib.Data.List.Infix

/-!
# Glob patterns

Patterns over an arbitrary alphabet that has signs for any text, any symbol, a class of
symbols, and for taking the next symbol as it is.  A pattern is read as tokens, and the
tokens say which texts it matches.

A word between two signs for any text is a search for the word, unless the word itself
has signs in it.
-/

namespace Keylens.Library.Glob

universe u

/-- The symbols with a meaning. -/
structure Signs (α : Type u) where
  star : α
  any : α
  openClass : α
  closeClass : α
  negate : α
  dash : α
  escape : α
  distinct : [star, any, openClass, closeClass, negate, dash, escape].Nodup

/-- A class of symbols, by ranges with their bounds in either order. -/
structure SymbolClass (α : Type u) where
  negated : Bool
  ranges : List (α × α)
  deriving DecidableEq, Repr

inductive Token (α : Type u) where
  | star
  | any
  | oneOf (symbols : SymbolClass α)
  | literal (symbol : α)
  deriving DecidableEq, Repr

variable {α : Type u}

def SymbolClass.add (symbols : SymbolClass α) (low high : α) : SymbolClass α :=
  { symbols with ranges := symbols.ranges ++ [(low, high)] }

/-! ## Reading a pattern -/

section Reading

variable [DecidableEq α] (signs : Signs α)

mutual

/-- The tokens of a pattern.  An escape with nothing after it stands for itself. -/
def tokens : List α → List (Token α)
  | [] => []
  | symbol :: rest =>
      if symbol = signs.star then .star :: tokens rest
      else if symbol = signs.any then .any :: tokens rest
      else if symbol = signs.openClass then
        match rest with
        | next :: rest' =>
            if next = signs.negate then classTokens { negated := true, ranges := [] } rest'
            else classTokens { negated := false, ranges := [] } (next :: rest')
        | [] => [.oneOf { negated := false, ranges := [] }]
      else if symbol = signs.escape then
        match rest with
        | next :: rest' => .literal next :: tokens rest'
        | [] => [.literal symbol]
      else .literal symbol :: tokens rest

/-- The tokens of what follows the symbols of a class read so far.  A class that is not
closed ends with the pattern. -/
def classTokens (symbols : SymbolClass α) : List α → List (Token α)
  | [] => [.oneOf symbols]
  | [symbol] =>
      if symbol = signs.closeClass then [.oneOf symbols]
      else [.oneOf (symbols.add symbol symbol)]
  | symbol :: next :: rest =>
      if symbol = signs.escape then classTokens (symbols.add next next) rest
      else if symbol = signs.closeClass then .oneOf symbols :: tokens (next :: rest)
      else if next = signs.dash then
        match rest with
        | last :: rest' => classTokens (symbols.add symbol last) rest'
        | [] => classTokens (symbols.add symbol symbol) [next]
      else classTokens (symbols.add symbol symbol) (next :: rest)

end

end Reading

/-! ## Matching -/

section Matching

variable [DecidableEq α] [LE α] [DecidableLE α]

def SymbolClass.accepts (symbols : SymbolClass α) (symbol : α) : Bool :=
  let inside := symbols.ranges.any fun (low, high) =>
    decide (low ≤ symbol ∧ symbol ≤ high ∨ high ≤ symbol ∧ symbol ≤ low)
  inside != symbols.negated

/-- Whether a token that stands for one symbol stands for this one. -/
def Token.accepts : Token α → α → Bool
  | .star, _ | .any, _ => true
  | .oneOf symbols, symbol => symbols.accepts symbol
  | .literal own, symbol => own = symbol

def matchTokens : List (Token α) → List α → Bool
  | [], text => text.isEmpty
  | .star :: rest, text => text.tails.any (matchTokens rest)
  | _ :: _, [] => false
  | token :: rest, symbol :: text => token.accepts symbol && matchTokens rest text

/-- Whether a pattern matches a whole text. -/
def isMatch (signs : Signs α) (pattern text : List α) : Bool :=
  matchTokens (tokens signs pattern) text

theorem matchTokens_star_iff {rest : List (Token α)} {text : List α} :
    matchTokens (.star :: rest) text ↔ ∃ tail, tail <:+ text ∧ matchTokens rest tail := by
  rw [matchTokens, List.any_eq_true]
  simp only [List.mem_tails]

theorem matchTokens_literal_cons (own : α) (rest : List (Token α)) (symbol : α)
    (text : List α) :
    matchTokens (.literal own :: rest) (symbol :: text) =
      (decide (own = symbol) && matchTokens rest text) :=
  rfl

/-- Literals match the start of a text that they spell. -/
theorem matchTokens_literals_iff {word : List α} {rest : List (Token α)} {text : List α} :
    matchTokens (word.map .literal ++ rest) text ↔
      ∃ tail, text = word ++ tail ∧ matchTokens rest tail := by
  induction word generalizing text with
  | nil => simp
  | cons symbol word ih =>
      cases text with
      | nil => simp [matchTokens]
      | cons head text =>
          rw [List.map_cons, List.cons_append, matchTokens_literal_cons, Bool.and_eq_true, ih]
          simp only [decide_eq_true_eq, List.cons_append, List.cons.injEq]
          constructor
          · rintro ⟨rfl, tail, rfl, later⟩
            exact ⟨tail, ⟨rfl, rfl⟩, later⟩
          · rintro ⟨tail, ⟨rfl, rfl⟩, later⟩
            exact ⟨rfl, tail, rfl, later⟩

/-- Literals between stars find the texts with the word in them. -/
theorem matchTokens_infix_iff {word text : List α} :
    matchTokens (.star :: (word.map .literal ++ [.star])) text ↔ word <:+: text := by
  have all (tail : List α) : matchTokens [.star] tail :=
    matchTokens_star_iff.mpr ⟨[], List.nil_suffix, rfl⟩
  rw [matchTokens_star_iff]
  simp only [matchTokens_literals_iff]
  constructor
  · rintro ⟨_, ⟨front, rfl⟩, tail, rfl, _⟩
    exact ⟨front, tail, List.append_assoc ..⟩
  · rintro ⟨front, tail, rfl⟩
    exact ⟨word ++ tail, ⟨front, (List.append_assoc ..).symm⟩, tail, rfl, all tail⟩

/-- Literals after a star find the texts that end in the word. -/
theorem matchTokens_suffix_iff {word text : List α} :
    matchTokens (.star :: word.map .literal) text ↔ word <:+ text := by
  rw [matchTokens_star_iff, ← List.append_nil (word.map Token.literal)]
  simp only [matchTokens_literals_iff]
  constructor
  · rintro ⟨_, isSuffix, tail, rfl, ended⟩
    rw [matchTokens, List.isEmpty_iff] at ended
    rwa [ended, List.append_nil] at isSuffix
  · intro isSuffix
    exact ⟨word, isSuffix, [], (List.append_nil word).symm, rfl⟩

end Matching

/-! ## Words -/

section Words

variable [DecidableEq α] (signs : Signs α)

/-- A word without wildcards. -/
def Bare (word : List α) : Prop :=
  ∀ symbol ∈ word, symbol ≠ signs.star ∧ symbol ≠ signs.any ∧ symbol ≠ signs.openClass

/-- The symbols that a word without wildcards stands for, and whether its last one is an
escape of what comes after it. -/
def unescape : List α → List α × Bool
  | [] => ([], false)
  | [symbol] => if symbol = signs.escape then ([], true) else ([symbol], false)
  | symbol :: next :: rest =>
      if symbol = signs.escape then
        let (word, pending) := unescape rest
        (next :: word, pending)
      else
        let (word, pending) := unescape (next :: rest)
        (symbol :: word, pending)

variable {signs}

omit [DecidableEq α] in
theorem Bare.tail {symbol : α} {word : List α} (bare : Bare signs (symbol :: word)) :
    Bare signs word :=
  fun other member => bare other (List.mem_cons_of_mem _ member)

theorem tokens_star (rest : List α) :
    tokens signs (signs.star :: rest) = .star :: tokens signs rest := by
  rw [tokens.eq_def]
  exact if_pos rfl

theorem tokens_plain {symbol : α} (rest : List α)
    (wild : symbol ≠ signs.star ∧ symbol ≠ signs.any ∧ symbol ≠ signs.openClass)
    (plain : symbol ≠ signs.escape) :
    tokens signs (symbol :: rest) = .literal symbol :: tokens signs rest := by
  rw [tokens.eq_def]
  dsimp only
  rw [if_neg wild.1, if_neg wild.2.1, if_neg wild.2.2, if_neg plain]

theorem tokens_escape (next : α) (rest : List α) :
    tokens signs (signs.escape :: next :: rest) = .literal next :: tokens signs rest := by
  have distinct := signs.distinct
  simp only [List.nodup_cons, List.mem_cons, not_or] at distinct
  have star : signs.escape ≠ signs.star := Ne.symm distinct.1.2.2.2.2.2.1
  have any : signs.escape ≠ signs.any := Ne.symm distinct.2.1.2.2.2.2.1
  have openClass : signs.escape ≠ signs.openClass := Ne.symm distinct.2.2.1.2.2.2.1
  rw [tokens.eq_def]
  dsimp only
  rw [if_neg star, if_neg any, if_neg openClass, if_pos rfl]

/-- A star after a word stands for any text unless the word escapes it. -/
theorem tokens_append_star {word : List α} (bare : Bare signs word) :
    tokens signs (word ++ [signs.star]) = (unescape signs word).1.map .literal ++
      [if (unescape signs word).2 then .literal signs.star else .star] := by
  fun_induction unescape signs word with
  | case1 => exact tokens_star []
  | case2 => exact tokens_escape signs.star []
  | case3 symbol plain =>
      have wild := bare symbol (List.mem_singleton_self _)
      rw [List.singleton_append, tokens_plain _ wild plain, tokens_star]
      rfl
  | case4 next rest word pending equal ih =>
      have later := ih bare.tail.tail
      rw [equal] at later
      rw [List.cons_append, List.cons_append, tokens_escape, later]
      rfl
  | case5 symbol next rest plain word pending equal ih =>
      have wild := bare symbol (List.mem_cons_self ..)
      have later := ih bare.tail
      rw [equal] at later
      rw [List.cons_append, tokens_plain _ wild plain, later]
      rfl

theorem unescape_of_not_mem {word : List α} (plain : signs.escape ∉ word) :
    unescape signs word = (word, false) := by
  fun_induction unescape signs word with
  | case1 => rfl
  | case2 => exact absurd (List.mem_singleton_self _) plain
  | case3 => rfl
  | case4 => exact absurd (List.mem_cons_self ..) plain
  | case5 symbol next rest _ word pending equal ih =>
      have later := ih (fun member => plain (List.mem_cons_of_mem _ member))
      rw [equal] at later
      cases later
      rfl

theorem length_unescape_le (word : List α) :
    (unescape signs word).1.length ≤ word.length := by
  fun_induction unescape signs word with
  | case1 => exact le_rfl
  | case2 => exact Nat.zero_le _
  | case3 => exact le_rfl
  | case4 next rest word pending equal ih =>
      have shorter : word.length ≤ rest.length := by rwa [equal] at ih
      rw [List.length_cons, List.length_cons, List.length_cons]
      omega
  | case5 symbol next rest _ word pending equal ih =>
      rw [equal] at ih
      exact Nat.succ_le_succ ih

/-- An escape stands for nothing itself. -/
theorem length_unescape_lt {word : List α} (escaped : signs.escape ∈ word) :
    (unescape signs word).1.length < word.length := by
  fun_induction unescape signs word with
  | case1 => cases escaped
  | case2 => exact Nat.one_pos
  | case3 symbol plain => exact absurd (List.mem_singleton.mp escaped).symm plain
  | case4 next rest word pending equal ih =>
      have le : (unescape signs rest).1.length ≤ rest.length := length_unescape_le rest
      have shorter : word.length ≤ rest.length := by rwa [equal] at le
      rw [List.length_cons, List.length_cons, List.length_cons]
      omega
  | case5 symbol next rest plain word pending equal ih =>
      rw [equal] at ih
      rcases List.mem_cons.mp escaped with rfl | later
      · exact absurd rfl plain
      · exact Nat.succ_lt_succ (ih later)

end Words

section Search

variable [DecidableEq α] [LE α] [DecidableLE α] {signs : Signs α} {word : List α}

/-- A word without signs between stars matches the texts it occurs in. -/
theorem isMatch_between_stars (bare : Bare signs word) (plain : signs.escape ∉ word)
    (text : List α) :
    isMatch signs (signs.star :: (word ++ [signs.star])) text ↔ word <:+: text := by
  rw [isMatch, tokens_star, tokens_append_star bare, unescape_of_not_mem plain]
  exact matchTokens_infix_iff

/-- A word between stars is a search for the word exactly if there is no escape in it. -/
theorem search_iff (bare : Bare signs word) :
    (∀ text, isMatch signs (signs.star :: (word ++ [signs.star])) text ↔ word <:+: text) ↔
      signs.escape ∉ word := by
  constructor
  · intro finds escaped
    have shorter := length_unescape_lt escaped
    cases pending : (unescape signs word).2 with
    | false =>
        -- What the word stands for is found, and is too short to have the word in it.
        have found := finds (unescape signs word).1
        rw [isMatch, tokens_star, tokens_append_star bare, pending] at found
        have itself := found.mp (matchTokens_infix_iff.mpr List.infix_rfl)
        exact absurd itself.length_le (Nat.not_le.mpr shorter)
    | true =>
        -- What is found ends in a star, which the word itself does not.
        have found := finds word
        rw [isMatch, tokens_star, tokens_append_star bare, pending] at found
        have literals : (unescape signs word).1.map Token.literal ++ [.literal signs.star] =
            ((unescape signs word).1 ++ [signs.star]).map Token.literal := by
          rw [List.map_append]
          rfl
        rw [if_pos rfl, literals, matchTokens_suffix_iff] at found
        have ends := found.mpr List.infix_rfl
        have star := ends.mem (List.mem_append_right _ (List.mem_singleton_self _))
        exact (bare _ star).1 rfl
  · exact isMatch_between_stars bare

end Search

end Keylens.Library.Glob
