import Handover.Toml.Number

/-!
# Text in TOML

Text stands in quotes, over one line or several. In double quotes there are escapes, in single
quotes everything stands for itself.
-/

namespace Handover.Toml

/-- Whether a character may stand in text : no control other than the tab. -/
def isTextChar (c : Char) : Bool :=
  c == '\t' || (decide (32 ≤ c.toNat) && c.toNat != 127)

/-- The character of a number, which is no half of a surrogate pair. -/
def scalar? (n : Nat) : Option Char :=
  if n < 0xd800 ∨ (0xe000 ≤ n ∧ n < 0x110000) then some (Char.ofNat n) else none

/-- The character of `n` hexadecimal digits, and what follows them. -/
def hexEscape? (n : Nat) (cs : List Char) : Option (Char × List Char) :=
  let ds := cs.take n
  if ds.length = n ∧ ds.all (isDigitOf 16) then
    (scalar? (ofDigits 16 ds)).map fun c => (c, cs.drop n)
  else none

/-- The character of an escape after its backslash, and what follows it. -/
def escape? : List Char → Option (Char × List Char)
  | '"' :: cs => some ('"', cs)
  | '\\' :: cs => some ('\\', cs)
  | 'b' :: cs => some (Char.ofNat 8, cs)
  | 't' :: cs => some ('\t', cs)
  | 'n' :: cs => some ('\n', cs)
  | 'f' :: cs => some (Char.ofNat 12, cs)
  | 'r' :: cs => some ('\r', cs)
  | 'e' :: cs => some (Char.ofNat 27, cs)
  | 'x' :: cs => hexEscape? 2 cs
  | 'u' :: cs => hexEscape? 4 cs
  | 'U' :: cs => hexEscape? 8 cs
  | _ => none

/-- Text with escapes on one line, after its opening quote. -/
def basic? : Nat → List Char → List Char → Option (String × List Char)
  | 0, _, _ => none
  | fuel + 1, acc, cs =>
    match cs with
    | '"' :: cs => some (String.ofList acc.reverse, cs)
    | '\\' :: cs =>
      match escape? cs with
      | some (c, cs) => basic? fuel (c :: acc) cs
      | none => none
    | c :: cs => if isTextChar c then basic? fuel (c :: acc) cs else none
    | [] => none

/-- Text without escapes on one line, after its opening quote. -/
def literal? (acc : List Char) : List Char → Option (String × List Char)
  | '\'' :: cs => some (String.ofList acc.reverse, cs)
  | c :: cs => if isTextChar c then literal? (c :: acc) cs else none
  | [] => none

/-- What follows a line break at the front of a text, if there is one. -/
def afterBreak? : List Char → Option (List Char)
  | '\n' :: cs => some cs
  | '\r' :: '\n' :: cs => some cs
  | _ => none

/-- The text after blanks in a line. -/
def skipBlanks : List Char → List Char
  | ' ' :: cs => skipBlanks cs
  | '\t' :: cs => skipBlanks cs
  | cs => cs

/-- The text after blanks and line breaks. -/
def skipLines : List Char → List Char
  | ' ' :: cs => skipLines cs
  | '\t' :: cs => skipLines cs
  | '\n' :: cs => skipLines cs
  | '\r' :: '\n' :: cs => skipLines cs
  | cs => cs

/-- The end of text over several lines, which may have up to two quotes before its mark. -/
def closing? (quote : Char) (acc : List Char) (cs : List Char) :
    Option (Option (String × List Char)) :=
  let quotes := (cs.takeWhile (· == quote)).length
  if quotes < 3 then none
  else if 5 < quotes then some none
  else
    some (some (String.ofList (List.replicate (quotes - 3) quote ++ acc).reverse,
      cs.drop quotes))

/-- Text over several lines, after its opening mark. A backslash at the end of a line skips to
the next text. -/
def lines? (quote : Char) : Nat → List Char → List Char → Option (String × List Char)
  | 0, _, _ => none
  | fuel + 1, acc, cs =>
    match closing? quote acc cs with
    | some found => found
    | none =>
      match cs with
      | '\\' :: cs =>
        if quote = '"' then
          match escape? cs, afterBreak? (skipBlanks cs) with
          | some (c, cs), _ => lines? quote fuel (c :: acc) cs
          | none, some cs => lines? quote fuel acc (skipLines cs)
          | none, none => none
        else lines? quote fuel ('\\' :: acc) cs
      | '\n' :: cs => lines? quote fuel ('\n' :: acc) cs
      | '\r' :: '\n' :: cs => lines? quote fuel ('\n' :: '\r' :: acc) cs
      | c :: cs => if isTextChar c then lines? quote fuel (c :: acc) cs else none
      | [] => none

/-- Text in quotes over several lines. A line break right after the mark is left out. -/
def block? (quote : Char) (cs : List Char) : Option (String × List Char) :=
  lines? quote (cs.length + 1) [] ((afterBreak? cs).getD cs)

end Handover.Toml
