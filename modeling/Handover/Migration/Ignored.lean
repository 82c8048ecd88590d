import Handover.Json.Basic
import Handover.Text.Split

/-!
# Ignored fields

When the answers of two contracts are compared, some fields are left out of the comparison. A
path names them by the last names on the way to them, with dots in between, and the arrays on
the way do not count. So `mint_run_info.token_creator` names that field of every token,
however deep the tokens stand in the answer.
-/

namespace Handover

/-- The names on a path. Dots without a name between them count once. -/
def pathNames (path : String) : List String :=
  (Text.split '.' path).filter fun name => name != ""

namespace Json

mutual

/-- A tree that stands at `trail`, without the fields called `name` right below a place whose
trail starts with `above`. Trails and `above` run from the inside out. -/
def stripAt (name : String) (above trail : List String) : Json → Json
  | .arr xs => .arr (stripItems name above trail xs)
  | .obj fs => .obj (stripFields name above trail fs)
  | v => v

/-- Items without the fields. An item stands at the trail of its array. -/
def stripItems (name : String) (above trail : List String) : List Json → List Json
  | [] => []
  | x :: xs => stripAt name above trail x :: stripItems name above trail xs

/-- Fields without those of the name, and without the fields further inside. -/
def stripFields (name : String) (above trail : List String) :
    List (String × Json) → List (String × Json)
  | [] => []
  | (k, v) :: fs =>
    if k = name && above.isPrefixOf trail then stripFields name above trail fs
    else (k, stripAt name above (k :: trail) v) :: stripFields name above trail fs

end

/-- A tree without the fields that a path names. -/
def strip (v : Json) (path : String) : Json :=
  match (pathNames path).reverse with
  | [] => v
  | name :: above => stripAt name above [] v

/-- A tree without the fields that any of the paths names. -/
def stripAll (v : Json) (paths : List String) : Json :=
  paths.foldl strip v

end Json

end Handover
