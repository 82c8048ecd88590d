import Handover.Toml.Quoted
import Handover.Toml.Table
import Handover.Toml.Time

/-!
# Reading TOML

A document is a sequence of lines : headings, keys with values, comments and blank lines.
`read` gives the tree of its tables. The values of a line are read in full before they are put
under their key, so that what a line may change is decided in one place (`Document`).

Arrays and tables within a line may go over several lines and nest to a depth of eighty.
-/

namespace Handover.Toml

/-! ## Blanks and keys -/

/-- The text after a comment, if there is one. It ends with the line. -/
def skipComment : List Char → Option (List Char)
  | '#' :: cs =>
    let rest := cs.dropWhile fun c => c != '\n' && isTextChar c
    match rest with
    | [] => some []
    | '\n' :: _ => some rest
    | '\r' :: '\n' :: _ => some rest
    | _ => none
  | cs => some cs

/-- The text after blanks, comments and line breaks. -/
def skipSpace : Nat → List Char → Option (List Char)
  | 0, _ => none
  | fuel + 1, cs =>
    match skipComment (skipBlanks cs) with
    | none => none
    | some cs =>
      match afterBreak? cs with
      | some cs => skipSpace fuel cs
      | none => some cs

/-- The text after the end of a line. -/
def endOfLine? (cs : List Char) : Option (List Char) :=
  match skipComment (skipBlanks cs) with
  | some [] => some []
  | some cs => afterBreak? cs
  | none => none

/-- Whether a character may stand in a key without quotes. -/
def isKeyChar (c : Char) : Bool :=
  c.isAlphanum || c == '-' || c == '_'

/-- One name of a key. -/
def name? (cs : List Char) : Option (String × List Char) :=
  match cs with
  | '"' :: rest => basic? (rest.length + 1) [] rest
  | '\'' :: rest => literal? [] rest
  | cs =>
    let name := cs.takeWhile isKeyChar
    if name.isEmpty then none else some (String.ofList name, cs.dropWhile isKeyChar)

/-- The names of a key with dots between them, the last first. -/
def names? : Nat → List String → List Char → Option (List String × List Char)
  | 0, _, _ => none
  | fuel + 1, acc, cs => do
    let (name, rest) ← name? (skipBlanks cs)
    match skipBlanks rest with
    | '.' :: rest => names? fuel (name :: acc) rest
    | rest => some (name :: acc, rest)

/-- A key : the path before its last name, the last name, and the text after it. -/
def key? (cs : List Char) : Option (List String × String × List Char) :=
  match names? (cs.length + 1) [] cs with
  | some (last :: before, rest) => some (before.reverse, last, rest)
  | _ => none

/-! ## Values -/

/-- Whether a character ends a value without quotes. -/
def endsPlain (c : Char) : Bool :=
  c == ' ' || c == '\t' || c == '\n' || c == '\r' || c == '#' || c == ',' || c == ']' ||
    c == '\x7d' || c == '=' || c == '"' || c == '\'' || c == '[' || c == '\x7b'

/-- A value without quotes. A date may be followed by a blank and a time of day. -/
def plainValue? (cs : List Char) : Option (Json × List Char) :=
  let word := cs.takeWhile fun c => !endsPlain c
  let rest := cs.dropWhile fun c => !endsPlain c
  match rest with
  | ' ' :: d :: _ =>
    if date? word == some [] && d.isDigit then
      let time := (rest.drop 1).takeWhile fun c => !endsPlain c
      (plain? (word ++ ' ' :: time)).map fun v =>
        (v, (rest.drop 1).dropWhile fun c => !endsPlain c)
    else (plain? word).map (·, rest)
  | rest => (plain? word).map (·, rest)

/-- Arrays and tables within a line nest this deep. -/
def depthLimit : Nat := 80

mutual

/-- A value, with `depth` levels left to open, and the text after it. -/
def value? : Nat → Nat → List Char → Option (Json × List Char)
  | 0, _, _ => none
  | fuel + 1, depth, cs =>
    match cs with
    | '"' :: '"' :: '"' :: rest => (block? '"' rest).map fun (s, rest) => (.str s, rest)
    | '\'' :: '\'' :: '\'' :: rest => (block? '\'' rest).map fun (s, rest) => (.str s, rest)
    | '"' :: rest => (basic? (rest.length + 1) [] rest).map fun (s, rest) => (.str s, rest)
    | '\'' :: rest => (literal? [] rest).map fun (s, rest) => (.str s, rest)
    | '[' :: rest => if depth = 0 then none else items? fuel (depth - 1) [] rest
    | '\x7b' :: rest => if depth = 0 then none else fields? fuel (depth - 1) [] rest
    | cs => plainValue? cs

/-- The items of an array from the next one on, or its end. -/
def items? : Nat → Nat → List Json → List Char → Option (Json × List Char)
  | 0, _, _, _ => none
  | fuel + 1, depth, acc, cs =>
    match skipSpace (cs.length + 1) cs with
    | some (']' :: rest) => some (.arr acc.reverse, rest)
    | some cs =>
      match value? fuel depth cs with
      | none => none
      | some (v, rest) =>
        match skipSpace (rest.length + 1) rest with
        | some (',' :: rest) => items? fuel depth (v :: acc) rest
        | some (']' :: rest) => some (.arr (v :: acc).reverse, rest)
        | _ => none
    | none => none

/-- The fields of a table within a line from the next one on, or its end. -/
def fields? : Nat → Nat → Entries → List Char → Option (Json × List Char)
  | 0, _, _, _ => none
  | fuel + 1, depth, acc, cs =>
    match skipSpace (cs.length + 1) cs with
    | some ('\x7d' :: rest) => some ((Node.table .defined acc).toJson, rest)
    | some cs =>
      match key? cs with
      | some (path, last, '=' :: rest) =>
        match value? fuel depth (skipBlanks rest) with
        | none => none
        | some (v, rest) =>
          match acc.insert path last v with
          | none => none
          | some acc =>
            match skipSpace (rest.length + 1) rest with
            | some (',' :: rest) => fields? fuel depth acc rest
            | some ('\x7d' :: rest) => some ((Node.table .defined acc).toJson, rest)
            | _ => none
      | _ => none
    | none => none

end

/-! ## Documents -/

/-- The heading that lines belong to. -/
structure Heading where
  path : List String
  key : String
  /-- Whether the heading is in double brackets. -/
  isList : Bool

/-- What has been read : the tables under finished headings, the heading now, and the table
under it. -/
structure Document where
  root : Entries
  heading : Option Heading
  current : Entries

namespace Document

/-- The tables with the present one put in its place. -/
def finish (d : Document) : Option Entries :=
  match d.heading with
  | none => some d.current
  | some h =>
    if h.isList then d.root.append h.path h.key d.current
    else d.root.close h.path h.key d.current

/-- Goes on under a heading. -/
def start (d : Document) (h : Heading) : Option Document := do
  let root ← d.finish
  if h.isList then return ⟨root, some h, []⟩
  else
    let (root, current) ← root.open? h.path h.key
    return ⟨root, some h, current⟩

/-- Takes in a key and its value. -/
def insert (d : Document) (path : List String) (key : String) (v : Json) : Option Document :=
  (d.current.insert path key v).map fun current => { d with current }

end Document

/-- A heading after its opening brackets, and the text after its line. -/
def heading? (isList : Bool) (cs : List Char) : Option (Heading × List Char) := do
  let (path, key, rest) ← key? cs
  let rest ← match isList, rest with
    | true, ']' :: ']' :: rest => endOfLine? rest
    | false, ']' :: rest => endOfLine? rest
    | _, _ => none
  return (⟨path, key, isList⟩, rest)

/-- Takes in the lines of a text. -/
def lines : Nat → Document → List Char → Option Document
  | 0, _, _ => none
  | fuel + 1, d, cs => do
    match ← skipSpace (cs.length + 1) cs with
    | [] => return d
    | '[' :: '[' :: rest =>
      let (heading, rest) ← heading? true rest
      lines fuel (← d.start heading) rest
    | '[' :: rest =>
      let (heading, rest) ← heading? false rest
      lines fuel (← d.start heading) rest
    | cs =>
      match ← key? cs with
      | (path, key, '=' :: rest) =>
        let (v, rest) ← value? (2 * rest.length + 2) depthLimit (skipBlanks rest)
        lines fuel (← d.insert path key v) (← endOfLine? rest)
      | _ => none

/-- The tree of a document. A mark of the byte order in front is left out. -/
def readChars (cs : List Char) : Option Json := do
  let cs := match cs with
    | '\ufeff' :: cs => cs
    | cs => cs
  let d ← lines (cs.length + 1) ⟨[], none, []⟩ cs
  let entries ← d.finish
  return (Node.table .defined entries).toJson

/-- The tree of a document. -/
def read (text : String) : Option Json :=
  readChars text.toList

end Handover.Toml
