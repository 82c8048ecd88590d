import Handover.Text.Printable

/-!
# Quoted text

A text in double quotes, with quote and backslash escaped, the common controls by their
letters, and every other character that cannot be shown by its number in braces. Lists of
texts stand in brackets.
-/

namespace Handover.Text

/-- The digits of a number in base sixteen, in lower case. -/
def hexDigits (n : Nat) : List Char :=
  Nat.toDigits 16 n

/-- A character inside a quoted text. -/
def quotedChar (c : Char) : List Char :=
  if c = '"' then ['\\', '"']
  else if c = '\\' then ['\\', '\\']
  else if c = '\n' then ['\\', 'n']
  else if c = '\r' then ['\\', 'r']
  else if c = '\t' then ['\\', 't']
  else if c.toNat = 0 then ['\\', '0']
  else if isSpelled c then ['\\', 'u', '\x7b'] ++ hexDigits c.toNat ++ ['\x7d']
  else [c]

/-- A text in quotes. -/
def quoted (s : String) : String :=
  String.ofList ('"' :: (s.toList.flatMap quotedChar ++ ['"']))

/-- Texts between brackets, with a comma and a blank between two of them. -/
def bracketed (items : List String) : String :=
  "[" ++ ", ".intercalate items ++ "]"

end Handover.Text
