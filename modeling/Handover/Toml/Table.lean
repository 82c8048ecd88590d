import Handover.Json.Basic

/-!
# Tables of a TOML document

A document fills a tree of tables. A table comes about in one of three ways, and that decides
what may still be added to it : it has a heading of its own (`defined`), it is on the way of a
heading (`implied`), or it is named by the dots of a key (`dotted`). A table that is only
implied may get its heading later. Dotted keys reach no table that has a heading, and put
nothing into an implied one. Values, also tables within a line, are closed.

Under a heading in double brackets there is a list of tables. Headings below it belong to its
last table.
-/

namespace Handover.Toml

/-- How a table came about. -/
inductive Origin where
  | defined
  | implied
  | dotted
  deriving DecidableEq, Repr

/-- What stands under a key. -/
inductive Node where
  | value (v : Json)
  | table (origin : Origin) (entries : List (String × Node))
  /-- Tables under a heading in double brackets, the last first. -/
  | tables (items : List (List (String × Node)))
  deriving Inhabited

/-- The keys of a table with what stands under them. -/
abbrev Entries := List (String × Node)

namespace Node

mutual

/-- The tree of a node. -/
def toJson : Node → Json
  | value v => v
  | table _ entries => .obj (entriesJson entries)
  | tables items => .arr (itemsJson items).reverse

/-- The fields of a table. -/
def entriesJson : List (String × Node) → List (String × Json)
  | [] => []
  | (k, n) :: rest => (k, toJson n) :: entriesJson rest

/-- The trees of a list of tables, in the order in which it is kept. -/
def itemsJson : List (List (String × Node)) → List Json
  | [] => []
  | entries :: rest => .obj (entriesJson entries) :: itemsJson rest

end

end Node

namespace Entries

/-- Puts a node under a key, in the place of what stood there. -/
def set (key : String) (n : Node) : Entries → Entries
  | [] => [(key, n)]
  | (k, m) :: rest => if k = key then (k, n) :: rest else (k, m) :: set key n rest

/-- Changes the table at the end of a path. Tables on the way that are not there yet come about
as `origin` says. -/
def modify (origin : Origin) (f : Origin → Entries → Option Entries) :
    List String → Origin → Entries → Option Entries
  | [], own, entries => f own entries
  | key :: path, _, entries =>
    match entries.lookup key with
    | none => do
      let inner ← modify origin f path origin []
      return entries.set key (.table origin inner)
    | some (.table own inner) =>
      if origin = .dotted ∧ own = .defined then none
      else do
        let inner ← modify origin f path own inner
        return entries.set key (.table own inner)
    | some (.tables (last :: before)) => do
      let last ← modify origin f path .defined last
      return entries.set key (.tables (last :: before))
    | some (.tables []) => none
    | some (.value _) => none

/-- Puts a value under a key with dots. The table that gets it is the present one, or one that
only dots have named. -/
def insert (entries : Entries) (path : List String) (key : String) (v : Json) :
    Option Entries :=
  let put := fun (own : Origin) (entries : Entries) =>
    if (own == .dotted) == path.isEmpty then none
    else
      match entries.lookup key with
      | some _ => none
      | none => some (entries ++ [(key, .value v)])
  modify .dotted put path .defined entries

/-- The content of an implied table at the end of a heading, taken out of the tree, so that it
can be continued. There may be no other table. -/
def open? (entries : Entries) (path : List String) (key : String) :
    Option (Entries × Entries) := do
  let without ← modify .implied (fun _ es => some (es.filter fun e => e.1 != key)) path .defined
    entries
  let inside ← content path
  return (without, inside)
where
  /-- What stands at the end of the heading. -/
  content (path : List String) : Option Entries :=
    let found := (path ++ [key]).foldl (fun (n : Option Node) k =>
      match n with
      | some (.table _ es) => es.lookup k
      | some (.tables (last :: _)) => last.lookup k
      | _ => none) (some (.table .defined entries))
    match found with
    | none => some []
    | some (.table .implied es) => some es
    | some _ => none

/-- Puts a finished table under its heading. -/
def close (entries : Entries) (path : List String) (key : String) (content : Entries) :
    Option Entries :=
  modify .implied (fun _ es => some (es.set key (.table .defined content))) path .defined entries

/-- Appends a finished table to the list under its heading. -/
def append (entries : Entries) (path : List String) (key : String) (content : Entries) :
    Option Entries :=
  let put := fun (_ : Origin) (es : Entries) =>
    match es.lookup key with
    | none => some (es.set key (.tables [content]))
    | some (.tables items) => some (es.set key (.tables (content :: items)))
    | some _ => none
  modify .implied put path .defined entries

end Entries

end Handover.Toml
