import Keylens.Tui.Filter
import Keylens.Library.Glob
import Keylens.Library.Utf8Text

/-!
# Searching for keys

`/` opens the prompt with the pattern in force and Enter sets the pattern: what is typed
goes to the server as it is if it has a wildcard, and between stars otherwise.  A
backslash is no wildcard, and the server takes what follows it literally.
-/

namespace Keylens.Tui

open Keylens.Library Keylens.Connection Keylens.Ui

/-- The signs of a pattern, which the server matches byte by byte. -/
def globSigns : Glob.Signs UInt8 where
  star := asciiByte '*'
  any := asciiByte '?'
  openClass := asciiByte '['
  closeClass := asciiByte ']'
  negate := asciiByte '^'
  dash := asciiByte '-'
  escape := asciiByte '\\'
  distinct := by decide

/-- A term that is put between stars. -/
def IsBare (term : Str) : Prop :=
  term ≠ [] ∧ ∀ c ∈ term, c ≠ '*' ∧ c ≠ '?' ∧ c ≠ '['

theorem isBare_iff {term : Str} :
    IsBare term ↔ term ≠ [] ∧ (term.any fun c => c = '*' || c = '?' || c = '[') = false := by
  simp [IsBare, List.any_eq_false, and_assoc]

instance (term : Str) : Decidable (IsBare term) :=
  decidable_of_iff _ isBare_iff.symm

theorem bare_utf8Encode {term : Str} (bare : IsBare term) :
    Glob.Bare globSigns (utf8Encode term) := by
  intro byte member
  refine ⟨?_, ?_, ?_⟩
  · rintro rfl
    exact (bare.2 '*' ((asciiByte_mem_utf8Encode_iff (by decide)).mp member)).1 rfl
  · rintro rfl
    exact (bare.2 '?' ((asciiByte_mem_utf8Encode_iff (by decide)).mp member)).2.1 rfl
  · rintro rfl
    exact (bare.2 '[' ((asciiByte_mem_utf8Encode_iff (by decide)).mp member)).2.2 rfl

namespace App

theorem searchPattern_bare {typed : Str} (bare : IsBare (trim typed)) :
    searchPattern typed = some ("*".toList ++ trim typed ++ "*".toList) := by
  rcases isBare_iff.mp bare with ⟨nonempty, plain⟩
  rw [searchPattern, if_neg nonempty, plain]
  rfl

theorem searchPattern_wild {pattern : Str} (trimmed : trim pattern = pattern)
    (wild : pattern.any fun c => c = '*' || c = '?' || c = '[') :
    searchPattern pattern = some pattern := by
  have nonempty : pattern ≠ [] := by
    rintro rfl
    cases wild
  rw [searchPattern, trimmed, if_neg nonempty, if_pos wild]

/-- The prompt shows a pattern that sets itself. -/
theorem searchPattern_searchPattern (typed : Str) :
    searchPattern ((searchPattern typed).getD []) = searchPattern typed := by
  by_cases blank : trim typed = []
  · rw [searchPattern.eq_def typed, if_pos blank]
    rfl
  by_cases bare : IsBare (trim typed)
  · rw [searchPattern_bare bare, Option.getD_some]
    apply searchPattern_wild
    · apply trim_eq_self
      · intro c first
        cases first
        rfl
      · intro c last
        rw [List.getLast?_append] at last
        cases last
        rfl
    · rfl
  · have wild : (trim typed).any fun c => c = '*' || c = '?' || c = '[' := by
      rw [isBare_iff, not_and, Bool.not_eq_false] at bare
      exact bare blank
    rw [searchPattern.eq_def typed, if_neg blank, if_pos wild]
    exact searchPattern_wild (trim_trim typed) wild

/-- What Enter makes of the typed text. -/
def search (app : App) (typed : Str) : App :=
  ({ app with searchInput := typed } : App).handleSearchKey { code := .enter }

/-- Opening the prompt and pressing Enter. -/
def searchAgain (app : App) : App :=
  (app.handleKeysViewKey { code := .char '/' }).handleSearchKey { code := .enter }

/-- A bare term finds the keys it occurs in, and a search is repeated by Enter alone. -/
structure SearchesFor (app : App) (typed : Str) : Prop where
  substring : IsBare (trim typed) → ∃ pattern, (app.search typed).pattern = some pattern ∧
    ∀ key : Bytes, Glob.isMatch globSigns (utf8Encode pattern) key ↔
      utf8Encode (trim typed) <:+: key
  again : (app.search typed).searchAgain.pattern = (app.search typed).pattern

/-- A key that is a text is found if the term is a part of it. -/
theorem SearchesFor.text {app : App} {typed : Str} (searches : app.SearchesFor typed)
    (bare : IsBare (trim typed)) :
    ∃ pattern, (app.search typed).pattern = some pattern ∧
      ∀ key : Str, Glob.isMatch globSigns (utf8Encode pattern) (utf8Encode key) ↔
        trim typed <:+: key := by
  rcases searches.substring bare with ⟨pattern, set, finds⟩
  exact ⟨pattern, set, fun key => (finds (utf8Encode key)).trans utf8Encode_infix_iff⟩

theorem pattern_rescan (app : App) : app.rescan.pattern = app.pattern :=
  congrArg Prod.fst app.filter_rescan

theorem pattern_search (app : App) (typed : Str) :
    (app.search typed).pattern = searchPattern typed :=
  pattern_rescan _

theorem pattern_searchAgain (app : App) :
    app.searchAgain.pattern = searchPattern (app.pattern.getD []) :=
  pattern_rescan _

/-- A term is searched for exactly if it is not bare or has no backslash. -/
theorem searchesFor_iff (app : App) (typed : Str) :
    app.SearchesFor typed ↔ (IsBare (trim typed) → '\\' ∉ trim typed) := by
  have again : (app.search typed).searchAgain.pattern = (app.search typed).pattern := by
    rw [pattern_searchAgain, pattern_search, searchPattern_searchPattern]
  have found (bare : IsBare (trim typed)) :
      (∃ pattern, (app.search typed).pattern = some pattern ∧
        ∀ key : Bytes, Glob.isMatch globSigns (utf8Encode pattern) key ↔
          utf8Encode (trim typed) <:+: key) ↔ '\\' ∉ trim typed := by
    have encoded : utf8Encode ("*".toList ++ trim typed ++ "*".toList) =
        globSigns.star :: (utf8Encode (trim typed) ++ [globSigns.star]) := by
      rw [utf8Encode_append, utf8Encode_append]
      rfl
    have literal := Glob.search_iff (bare_utf8Encode bare)
    rw [pattern_search, searchPattern_bare bare]
    simp only [Option.some.injEq, exists_eq_left', encoded]
    rw [literal]
    exact (asciiByte_mem_utf8Encode_iff (by decide)).not
  constructor
  · exact fun searches bare => (found bare).mp (searches.substring bare)
  · exact fun plain => ⟨fun bare => (found bare).mpr (plain bare), again⟩

/-- A key without the backslash is found, and one with it is not. -/
theorem backslash_not_searched_for :
    let app := App.new { vendor := .redis, version := [], mode := [], fields := [] }
      "redis://localhost".toList { channel := .room }
    let pattern := (app.search "a\\b".toList).pattern
    pattern = some "*a\\b*".toList ∧
      Glob.isMatch globSigns (utf8Encode "*a\\b*".toList) (utf8Encode "ab".toList) ∧
      ¬Glob.isMatch globSigns (utf8Encode "*a\\b*".toList) (utf8Encode "a\\b".toList) ∧
      ¬app.SearchesFor "a\\b".toList := by
  intro app pattern
  have set : pattern = some "*a\\b*".toList := by decide +kernel
  have found : Glob.isMatch globSigns (utf8Encode "*a\\b*".toList) (utf8Encode "ab".toList) := by
    decide +kernel
  refine ⟨set, found, by decide +kernel, ?_⟩
  intro searches
  rcases searches.substring (by decide +kernel) with ⟨pattern', set', finds⟩
  cases set.symm.trans set'
  have occurs := (finds (utf8Encode "ab".toList)).mp found
  exact absurd occurs.length_le (by decide +kernel)

end App

end Keylens.Tui
