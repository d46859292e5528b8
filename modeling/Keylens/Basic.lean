import Mathlib.Data.List.Infix

/-!
# Texts

Rust's `str` and `String` are sequences of Unicode scalar values.  The model
keeps the sequence and drops its UTF-8 storage: splitting, prefix tests and
lexicographic order agree on both, and the few places that count bytes ask for
the encoded length of each character.
-/

namespace Keylens

/-- A Rust string. -/
abbrev Str := List Char

end Keylens
