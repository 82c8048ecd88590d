import Handover.Json.Wire
import Handover.Json.Writer

/-!
# Stored code

Code on the chain never changes. It is known by the number it got when it was stored and by
the hash of its bytes.
-/

namespace Handover

/-- Code that the chain has. -/
structure CodeArtifact where
  codeId : UInt64
  codeHash : String
  deriving DecidableEq, Repr

namespace CodeArtifact

/-- The number comes first wherever this is written. -/
def toJson (a : CodeArtifact) : Json :=
  .obj [("code_id", .ofUInt64 a.codeId), ("code_hash", .str a.codeHash)]

/-- Reads an artifact. Both fields have to be there. -/
def ofJson? (v : Json) : Option CodeArtifact := do
  let r ← v.record? ["code_id", "code_hash"]
  return ⟨← r.required "code_id" Json.uint64?, ← r.required "code_hash" Json.string?⟩

instance : Wire CodeArtifact := ⟨toJson, ofJson?⟩

/-- The file that keeps an artifact : its indented text and a line break. -/
def fileText (a : CodeArtifact) : String :=
  a.toJson.pretty ++ "\n"

end CodeArtifact

/-- Why a file is no build of a contract, or its manifest no manifest. -/
inductive ArtifactFault where
  | notCompressed
  | notDecompressible
  | notWasm
  | badVersion (text : String)
  deriving DecidableEq, Repr

/-- The wording of a fault. -/
def ArtifactFault.message : ArtifactFault → String
  | notCompressed => "not gzip compressed"
  | notDecompressible => "cannot decompress: corrupt or incomplete data"
  | notWasm => "not a WASM module"
  | badVersion text => "bad package version " ++ text ++ ": not a semantic version"

end Handover
