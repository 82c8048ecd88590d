import Handover.Json.Writer
import Handover.Text.Hex

/-!
# Writing TOML

The plain entries of a table come first, each on a line of its own, then the tables in it and
the lists of tables under their headings. Entries without a value are left out.
-/

namespace Handover.Toml

/-- Whether a character may stand in a key without quotes. -/
def isBareChar (c : Char) : Bool :=
  c.isAlphanum || c == '-' || c == '_'

/-- A character inside double quotes. -/
def escaped (c : Char) : List Char :=
  if c = '"' then ['\\', '"']
  else if c = '\\' then ['\\', '\\']
  else if c = '\n' then ['\\', 'n']
  else if c = '\r' then ['\\', 'r']
  else if c = '\t' then ['\\', 't']
  else if c.toNat < 32 ∨ c.toNat = 127 then
    ['\\', 'u', '0', '0', Hex.digit (c.toNat / 16), Hex.digit (c.toNat % 16)]
  else [c]

/-- Text in double quotes. -/
def quotedText (s : String) : String :=
  "\"" ++ String.ofList (s.toList.flatMap escaped) ++ "\""

/-- A key, in quotes if it needs them. -/
def keyText (key : String) : String :=
  if !key.isEmpty && key.toList.all isBareChar then key else quotedText key

/-- A double, with the names of what is not finite. -/
def doubleText (x : Binary64) : String :=
  if x.isFinite then String.ofList x.text
  else if x.isUndefined then "nan"
  else if x.isNegative then "-inf" else "inf"

/-- A number. -/
def numberText : Number → String
  | .natural n => toString n
  | .negative below => "-" ++ toString (below.val + 1)
  | .decimal x => doubleText x

/-- Whether a list is written under headings : it is not empty and holds tables only. -/
def isTableList : List Json → Bool
  | [] => false
  | items => items.all fun v => match v with
    | .obj _ => true
    | _ => false

mutual

/-- A value within a line. -/
def inline : Json → String
  | .null => "\"\""
  | .unreadable => "\"\""
  | .bool b => if b then "true" else "false"
  | .num n => numberText n
  | .str s => quotedText s
  | .arr items => "[" ++ ", ".intercalate (inlineItems items) ++ "]"
  | .obj fields => "\x7b " ++ ", ".intercalate (inlineFields fields) ++ " \x7d"

/-- The items of a list within a line. -/
def inlineItems : List Json → List String
  | [] => []
  | v :: vs => inline v :: inlineItems vs

/-- The fields of a table within a line. What is `null` is left out. -/
def inlineFields : List (String × Json) → List String
  | [] => []
  | (_, .null) :: rest => inlineFields rest
  | (key, v) :: rest => (keyText key ++ " = " ++ inline v) :: inlineFields rest

end

/-- The lines of the plain entries of a table. -/
def plainLines : List (String × Json) → List String
  | [] => []
  | (_, .null) :: rest => plainLines rest
  | (_, .obj _) :: rest => plainLines rest
  | (key, .arr items) :: rest =>
    if isTableList items then plainLines rest
    else (keyText key ++ " = " ++ inline (.arr items)) :: plainLines rest
  | (key, v) :: rest => (keyText key ++ " = " ++ inline v) :: plainLines rest

/-- The key of a table inside another one. -/
def below (path key : String) : String :=
  if path.isEmpty then keyText key else path ++ "." ++ keyText key

mutual

/-- The lines of the tables among entries. -/
def tableLines (path : String) : List (String × Json) → List String
  | [] => []
  | (key, v) :: rest => sectionLines (below path key) v ++ tableLines path rest

/-- The lines of a table or list of tables with its headings. -/
def sectionLines (path : String) : Json → List String
  | .obj fields =>
    ["", "[" ++ path ++ "]"] ++ plainLines fields ++ tableLines path fields
  | .arr items => if isTableList items then itemLines path items else []
  | _ => []

/-- The lines of the items of a list of tables. -/
def itemLines (path : String) : List Json → List String
  | [] => []
  | .obj fields :: rest =>
    ["", "[[" ++ path ++ "]]"] ++ plainLines fields ++ tableLines path fields ++
      itemLines path rest
  | _ :: rest => itemLines path rest

end

/-- A document. -/
def write : Json → String
  | .obj fields =>
    let lines := (plainLines fields ++ tableLines "" fields).dropWhile (· == "")
    String.join (lines.map (· ++ "\n"))
  | _ => ""

end Handover.Toml
