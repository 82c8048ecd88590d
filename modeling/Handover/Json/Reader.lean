import Handover.Json.Number
import Handover.Text.Utf8

/-!
# Reading JSON

`read` takes one document with blanks around it. The grammar is the strict one : no trailing
commas, no leading zeros, no raw controls in strings. Containers nest to a depth of 127. What
is well formed but denotes no value becomes `unreadable` in the tree : a decimal past the
largest double, a string with half a surrogate pair, an object with such a name, a container
past the depth.

The reader works on the characters and hands on what is left after the value. Its fuel is
taken from the length of the text, which it cannot use up.
-/

namespace Handover.Json

/-! ## Strings -/

/-- One place of a string as written : a character, or an escape of four hexadecimal digits. -/
inductive Piece where
  | char (c : Char)
  | unit (n : Nat)
  deriving DecidableEq, Repr

/-- The value of a hexadecimal digit in either case. -/
def hexValue? (c : Char) : Option Nat :=
  if '0' ≤ c ∧ c ≤ '9' then some (c.toNat - 48)
  else if 'a' ≤ c ∧ c ≤ 'f' then some (c.toNat - 87)
  else if 'A' ≤ c ∧ c ≤ 'F' then some (c.toNat - 55)
  else none

/-- The character that a one-letter escape stands for. -/
def simpleEscape? (c : Char) : Option Char :=
  if c = '"' then some '"'
  else if c = '\\' then some '\\'
  else if c = '/' then some '/'
  else if c = 'n' then some '\n'
  else if c = 'r' then some '\r'
  else if c = 't' then some '\t'
  else if c = 'b' then some (Char.ofNat 8)
  else if c = 'f' then some (Char.ofNat 12)
  else none

/-- The pieces of a string up to its closing quote, latest first, and the text after it. -/
def pieces (acc : List Piece) : List Char → Option (List Piece × List Char)
  | '"' :: rest => some (acc, rest)
  | '\\' :: 'u' :: a :: b :: c :: d :: rest =>
    match hexValue? a, hexValue? b, hexValue? c, hexValue? d with
    | some p, some q, some r, some s =>
      pieces (.unit (((p * 16 + q) * 16 + r) * 16 + s) :: acc) rest
    | _, _, _, _ => none
  | '\\' :: c :: rest =>
    match simpleEscape? c with
    | some e => pieces (.char e :: acc) rest
    | none => none
  | c :: rest => if c.toNat < 32 || c = '\\' then none else pieces (.char c :: acc) rest
  | [] => none

/-- Joins pieces, latest first, into characters. A leading surrogate needs the trailing one
right after it, and a trailing one nothing else. -/
def joined (acc : List Char) : List Piece → Option (List Char)
  | [] => some acc
  | .char c :: ps => joined (c :: acc) ps
  | .unit low :: .unit high :: ps =>
    if 0xdc00 ≤ low ∧ low < 0xe000 then
      if 0xd800 ≤ high ∧ high < 0xdc00 then
        joined (Char.ofNat (0x10000 + (high - 0xd800) * 0x400 + (low - 0xdc00)) :: acc) ps
      else none
    else if 0xd800 ≤ low ∧ low < 0xdc00 then none
    else joined (Char.ofNat low :: acc) (.unit high :: ps)
  | .unit n :: ps =>
    if 0xd800 ≤ n ∧ n < 0xe000 then none else joined (Char.ofNat n :: acc) ps

/-- A string after its opening quote : its value if it has one, and the text after it. -/
def stringBody (cs : List Char) : Option (Option String × List Char) :=
  (pieces [] cs).map fun (ps, rest) => ((joined [] ps).map String.ofList, rest)

/-! ## Numbers -/

/-- The digits at the front of the text, and the rest. -/
def digitRun (cs : List Char) : List Nat × List Char :=
  ((cs.takeWhile Char.isDigit).map fun c => c.toNat - 48, cs.dropWhile Char.isDigit)

/-- The digits after the point, if there is one. -/
def fractionPart : List Char → Option (Option (List Nat) × List Char)
  | '.' :: cs =>
    match digitRun cs with
    | ([], _) => none
    | (ds, rest) => some (some ds, rest)
  | cs => some (none, cs)

/-- The exponent, if there is one, with whether its sign is a minus. -/
def exponentPart (cs : List Char) : Option (Option (Bool × List Nat) × List Char) :=
  let after := fun (minus : Bool) (cs : List Char) =>
    match digitRun cs with
    | ([], _) => none
    | (ds, rest) => some (some (minus, ds), rest)
  match cs with
  | c :: '-' :: cs => if c = 'e' || c = 'E' then after true cs else some (none, c :: '-' :: cs)
  | c :: '+' :: cs => if c = 'e' || c = 'E' then after false cs else some (none, c :: '+' :: cs)
  | c :: cs => if c = 'e' || c = 'E' then after false cs else some (none, c :: cs)
  | [] => some (none, [])

/-- A number after its sign. -/
def numeral (negative : Bool) (cs : List Char) : Option (Numeral × List Char) :=
  match digitRun cs with
  | ([], _) => none
  | (0 :: _ :: _, _) => none
  | (whole, rest) =>
    match fractionPart rest with
    | none => none
    | some (fraction, rest) =>
      match exponentPart rest with
      | none => none
      | some (exponent, rest) => some (⟨negative, whole, fraction, exponent⟩, rest)

/-- A number, and the text after it. -/
def numberText (cs : List Char) : Option (Json × List Char) :=
  let got := match cs with
    | '-' :: cs => numeral true cs
    | cs => numeral false cs
  got.map fun (n, rest) => ((n.number?).elim .unreadable .num, rest)

/-! ## Documents -/

/-- The text after blanks. -/
def skipBlanks : List Char → List Char
  | c :: cs => if c = ' ' || c = '\n' || c = '\t' || c = '\r' then skipBlanks cs else c :: cs
  | [] => []

/-- An array of the items read, latest first. -/
def arrayOf (depth : Nat) (acc : List Json) : Json :=
  if depth = 0 then .unreadable else .arr acc.reverse

/-- An object of the fields read, latest first. A name without a value leaves none. -/
def objectOf (depth : Nat) (acc : List (Option String × Json)) : Json :=
  if depth = 0 then .unreadable
  else
    match acc.reverse.mapM fun (k, v) => k.map (·, v) with
    | some fs => .obj fs
    | none => .unreadable

mutual

/-- A value at the front of the text, with `depth` levels left to open, and the text after. -/
def value : Nat → Nat → List Char → Option (Json × List Char)
  | 0, _, _ => none
  | fuel + 1, depth, cs =>
    match cs with
    | 'n' :: 'u' :: 'l' :: 'l' :: rest => some (.null, rest)
    | 't' :: 'r' :: 'u' :: 'e' :: rest => some (.bool true, rest)
    | 'f' :: 'a' :: 'l' :: 's' :: 'e' :: rest => some (.bool false, rest)
    | '"' :: rest => (stringBody rest).map fun (s, rest) => (s.elim .unreadable .str, rest)
    | '[' :: rest =>
      match skipBlanks rest with
      | ']' :: rest => some (arrayOf depth [], rest)
      | rest => items fuel depth [] rest
    | '\x7b' :: rest =>
      match skipBlanks rest with
      | '\x7d' :: rest => some (objectOf depth [], rest)
      | rest => fields fuel depth [] rest
    | cs => numberText cs

/-- The items of an array from the next one on. -/
def items : Nat → Nat → List Json → List Char → Option (Json × List Char)
  | 0, _, _, _ => none
  | fuel + 1, depth, acc, cs =>
    match value fuel (depth - 1) (skipBlanks cs) with
    | none => none
    | some (v, rest) =>
      match skipBlanks rest with
      | ',' :: rest => items fuel depth (v :: acc) rest
      | ']' :: rest => some (arrayOf depth (v :: acc), rest)
      | _ => none

/-- The fields of an object from the next one on. -/
def fields : Nat → Nat → List (Option String × Json) → List Char → Option (Json × List Char)
  | 0, _, _, _ => none
  | fuel + 1, depth, acc, cs =>
    match skipBlanks cs with
    | '"' :: rest =>
      match stringBody rest with
      | none => none
      | some (k, rest) =>
        match skipBlanks rest with
        | ':' :: rest =>
          match value fuel (depth - 1) (skipBlanks rest) with
          | none => none
          | some (v, rest) =>
            match skipBlanks rest with
            | ',' :: rest => fields fuel depth ((k, v) :: acc) rest
            | '\x7d' :: rest => some (objectOf depth ((k, v) :: acc), rest)
            | _ => none
        | _ => none
    | _ => none

end

/-- Containers may nest this deep. -/
def depthLimit : Nat := 127

/-- The tree of a text that is one document. -/
def readChars (cs : List Char) : Option Json :=
  match value (2 * cs.length + 2) depthLimit (skipBlanks cs) with
  | some (v, rest) => if skipBlanks rest = [] then some v else none
  | none => none

/-- The tree of a text that is one document. -/
def read (text : String) : Option Json :=
  readChars text.toList

/-- Bytes as the characters to read. A gap stands as half a surrogate pair, which makes the
string around it unreadable and is refused outside of strings. -/
def charsOfBytes (bs : Bytes) : List Char :=
  (Utf8.decode bs).flatMap fun c => match c with
    | some c => [c]
    | none => ['\\', 'u', 'd', 'c', '0', '0']

/-- The tree of bytes that are one document. -/
def readBytes (bs : Bytes) : Option Json :=
  readChars (charsOfBytes bs)

end Handover.Json
