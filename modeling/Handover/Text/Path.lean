import Handover.Text.Split

/-!
# Paths

A path is text with slashes between names. One that starts with a slash is absolute.
-/

namespace Handover.Path

/-- Whether a path is absolute. -/
def isAbsolute (path : String) : Bool :=
  path.toList.head? == some '/'

/-- A path below another. An absolute path stays what it is. -/
def join (base path : String) : String :=
  if isAbsolute path || base.isEmpty then path
  else if base.toList.getLast? == some '/' then base ++ path
  else base ++ "/" ++ path

/-- The names of a path. -/
def names (path : String) : List String :=
  Text.split '/' path

end Handover.Path
