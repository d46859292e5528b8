import Keylens.Basic

/-!
# Kinds of keys
-/

namespace Keylens.Connection

/-- The type of a Redis key, as `TYPE` names it. -/
inductive Kind where
  | string | hash | list | set | zset | stream | none | other
  deriving DecidableEq, Repr

/-- Read the reply of `TYPE`; a module's type is `other`. -/
def Kind.parse (text : Str) : Kind :=
  if text = "string".toList then .string
  else if text = "hash".toList then .hash
  else if text = "list".toList then .list
  else if text = "set".toList then .set
  else if text = "zset".toList then .zset
  else if text = "stream".toList then .stream
  else if text = "none".toList then .none
  else .other

/-- The name of a kind. -/
def Kind.label : Kind → Str
  | .string => "string".toList
  | .hash => "hash".toList
  | .list => "list".toList
  | .set => "set".toList
  | .zset => "zset".toList
  | .stream => "stream".toList
  | .none => "none".toList
  | .other => "other".toList

end Keylens.Connection
