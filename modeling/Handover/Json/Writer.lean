import Handover.Json.Basic

/-!
# Writing JSON

`write` puts the compact text of a tree before a given rest, `writePretty` the text with one
entry a line and two blanks of indent a level. Strings escape the quote, the backslash and
the controls below `0x20`, and nothing else.
-/

namespace Handover.Json

/-! ## Strings and numbers -/

/-- The character of a hexadecimal digit, in lower case. -/
def hexDigit (n : Nat) : Char :=
  if n < 10 then Char.ofNat (48 + n) else Char.ofNat (87 + n)

/-- A character as it stands inside a string. -/
def escaped (c : Char) : List Char :=
  if c = '"' then ['\\', '"']
  else if c = '\\' then ['\\', '\\']
  else if c = '\n' then ['\\', 'n']
  else if c = '\r' then ['\\', 'r']
  else if c = '\t' then ['\\', 't']
  else if c.toNat = 8 then ['\\', 'b']
  else if c.toNat = 12 then ['\\', 'f']
  else if c.toNat < 32 then
    ['\\', 'u', '0', '0', hexDigit (c.toNat / 16), hexDigit (c.toNat % 16)]
  else [c]

/-- The inside of a string, before `rest`. -/
def writeChars : List Char → List Char → List Char
  | [], rest => rest
  | c :: cs, rest => escaped c ++ writeChars cs rest

/-- A string in quotes, before `rest`. -/
def writeString (s : String) (rest : List Char) : List Char :=
  '"' :: writeChars s.toList ('"' :: rest)

/-- The text of a number. -/
def numberChars : Number → List Char
  | .natural n => Nat.toDigits 10 n.toNat
  | .negative n => '-' :: Nat.toDigits 10 (n.val + 1)
  | .decimal x => x.text

/-! ## Compact text -/

mutual

/-- The compact text of a tree, before `rest`. -/
def write : Json → List Char → List Char
  | .null, rest => 'n' :: 'u' :: 'l' :: 'l' :: rest
  | .unreadable, rest => 'n' :: 'u' :: 'l' :: 'l' :: rest
  | .bool true, rest => 't' :: 'r' :: 'u' :: 'e' :: rest
  | .bool false, rest => 'f' :: 'a' :: 'l' :: 's' :: 'e' :: rest
  | .num n, rest => numberChars n ++ rest
  | .str s, rest => writeString s rest
  | .arr [], rest => '[' :: ']' :: rest
  | .arr (x :: xs), rest => '[' :: write x (writeItems xs rest)
  | .obj [], rest => '\x7b' :: '\x7d' :: rest
  | .obj ((k, v) :: fs), rest =>
    '\x7b' :: writeString k (':' :: write v (writeFields fs rest))

/-- The items after the first, and the closing bracket. -/
def writeItems : List Json → List Char → List Char
  | [], rest => ']' :: rest
  | x :: xs, rest => ',' :: write x (writeItems xs rest)

/-- The fields after the first, and the closing brace. -/
def writeFields : List (String × Json) → List Char → List Char
  | [], rest => '\x7d' :: rest
  | (k, v) :: fs, rest => ',' :: writeString k (':' :: write v (writeFields fs rest))

end

/-- The compact text of a tree. -/
def compact (v : Json) : String :=
  String.ofList (write v [])

/-! ## Indented text -/

/-- A line break and the indent of a level. -/
def lineBreak (level : Nat) (rest : List Char) : List Char :=
  '\n' :: (List.replicate (2 * level) ' ' ++ rest)

mutual

/-- The indented text of a tree that stands at `level`, before `rest`. -/
def writePretty (level : Nat) : Json → List Char → List Char
  | .arr (x :: xs), rest =>
    '[' :: lineBreak (level + 1) (writePretty (level + 1) x (writePrettyItems level xs rest))
  | .obj ((k, v) :: fs), rest =>
    '\x7b' :: lineBreak (level + 1)
      (writeString k (':' :: ' ' :: writePretty (level + 1) v (writePrettyFields level fs rest)))
  | v, rest => write v rest

/-- The items after the first, each on a line of its own, and the closing bracket. -/
def writePrettyItems (level : Nat) : List Json → List Char → List Char
  | [], rest => lineBreak level (']' :: rest)
  | x :: xs, rest =>
    ',' :: lineBreak (level + 1) (writePretty (level + 1) x (writePrettyItems level xs rest))

/-- The fields after the first, each on a line of its own, and the closing brace. -/
def writePrettyFields (level : Nat) : List (String × Json) → List Char → List Char
  | [], rest => lineBreak level ('\x7d' :: rest)
  | (k, v) :: fs, rest =>
    ',' :: lineBreak (level + 1)
      (writeString k (':' :: ' ' :: writePretty (level + 1) v (writePrettyFields level fs rest)))

end

/-- The indented text of a tree. -/
def pretty (v : Json) : String :=
  String.ofList (writePretty 0 v [])

end Handover.Json
