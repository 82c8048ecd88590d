import Handover.Host
import Handover.Text.Path

/-!
# A tree of files

Directories and files, each known by the names on the way to it. Paths are followed name by
name, and every place on the way has to be a directory. Two dots lead back.
-/

namespace Handover

/-- What stands at a place. -/
inductive FileEntry where
  | dir
  | file (content : Bytes)
  deriving DecidableEq, Repr

/-- The places of a tree below its root, and the directory that other paths start from. -/
structure Files where
  entries : List (List String × FileEntry)
  workingDir : List String
  deriving DecidableEq, Repr

namespace Files

/-- What stands at a place. -/
def entry? (fs : Files) (place : List String) : Option FileEntry :=
  if place = [] then some .dir else fs.entries.lookup place

/-- Whether a place is a directory. -/
def isDir (fs : Files) (place : List String) : Bool :=
  fs.entry? place == some .dir

/-- Puts something at a place, over what stood there. -/
def put (fs : Files) (place : List String) (e : FileEntry) : Files :=
  { fs with entries := (place, e) :: fs.entries.filter fun old => old.1 != place }

/-- Whether a name can be given to a file. -/
def isName (name : String) : Bool :=
  decide (name.utf8ByteSize ≤ 255) && !name.toList.contains (Char.ofNat 0)

/-- The place one name further on. -/
def step (fs : Files) (place : List String) (name : String) : Option (List String) :=
  if !fs.isDir place then none
  else if name = "" ∨ name = "." then some place
  else if name = ".." then some place.dropLast
  else if isName name then some (place ++ [name])
  else none

/-- Where a path starts. -/
def origin (fs : Files) (path : String) : List String :=
  if Path.isAbsolute path then [] else fs.workingDir

/-- The place that a path leads to. -/
def resolve (fs : Files) (path : String) : Option (List String) :=
  (Path.names path).foldlM fs.step (fs.origin path)

/-- The content of a file. -/
def read (fs : Files) (path : String) : Option Bytes :=
  match (fs.resolve path).bind fs.entry? with
  | some (.file content) => some content
  | _ => none

/-- Whether a path leads to anything. -/
def isPresent (fs : Files) (path : String) : Bool :=
  ((fs.resolve path).bind fs.entry?).isSome

/-- Whether a path leads to a file. -/
def isFile (fs : Files) (path : String) : Bool :=
  (fs.read path).isSome

/-- The place of names, with the directories that are missing on the way. -/
def makeDirs (fs : Files) (place : List String) : List String → Option (Files × List String)
  | [] => if fs.isDir place then some (fs, place) else none
  | name :: names =>
    match fs.step place name with
    | none => none
    | some next =>
      match fs.entry? next with
      | some .dir => makeDirs fs next names
      | some (.file _) => none
      | none => makeDirs (fs.put next .dir) next names

/-- Puts a file in place, with the directories above it. -/
def write (fs : Files) (path : String) (content : Bytes) : Option Files :=
  let names := (Path.names path).filter fun name => name != "" && name != "."
  match names.getLast? with
  | none => none
  | some name =>
    if name = ".." ∨ !isName name then none
    else
      match fs.makeDirs (fs.origin path) names.dropLast with
      | none => none
      | some (fs, parent) =>
        if fs.isDir (parent ++ [name]) then none
        else some (fs.put (parent ++ [name]) (.file content))

/-- Makes a directory, with the directories above it. -/
def makeDir (fs : Files) (path : String) : Option Files :=
  (fs.makeDirs (fs.origin path) (Path.names path)).map Prod.fst

/-- An empty tree with a directory that other paths start from. -/
def start (workingDir : List String) : Files :=
  let fs : Files := ⟨[], workingDir⟩
  ((fs.makeDirs [] workingDir).map Prod.fst).getD fs

/-- A host that has these files, beside a partner for the service, which is always there. -/
def partner {σ : Type} (p : Partner service σ) : Partner host (Files × σ)
  | .service call, (fs, s) =>
    let (r, s) := p call s
    (r, fs, s)
  | .connect .., (fs, s) => (.ok (), fs, s)
  | .isPresent path, (fs, s) => (fs.isPresent path, fs, s)
  | .isFile path, (fs, s) => (fs.isFile path, fs, s)
  | .read path, (fs, s) => (fs.read path, fs, s)
  | .write path content, (fs, s) =>
    match fs.write path content with
    | some fs => (true, fs, s)
    | none => (false, fs, s)

end Files

end Handover
