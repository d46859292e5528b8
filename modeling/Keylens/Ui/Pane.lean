import Keylens.Basic

/-!
# Pane loading state
-/

namespace Keylens.Ui

/-- What a pane has to show. -/
inductive PaneState (α : Type) where
  /-- Not requested yet. -/
  | idle
  | loading
  | ready (value : α)
  /-- The server refuses or does not implement the backing command. -/
  | unavailable (why : Str)
  | failed (why : Str)

namespace PaneState

variable {α : Type}

def isIdle : PaneState α → Bool
  | .idle => true
  | _ => false

def isLoading : PaneState α → Bool
  | .loading => true
  | _ => false

/-- The loaded value. -/
def ready? : PaneState α → Option α
  | .ready value => some value
  | _ => none

end PaneState

end Keylens.Ui
