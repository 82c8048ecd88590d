import Handover.Code.Upload
import Handover.Gzip.Member
import Handover.Host
import Handover.Text.Path
import Handover.Toml.Reader
import Handover.Version

/-!
# The code store

Each contract is uploaded once for each version and type of node. What was stored is recorded
in a file of its own, at `<root>/<contract>/v<version>/<node type>.json`, and a record that is
found saves the upload. A record that cannot be read counts as missing : then the worst that
happens is another upload.
-/

namespace Handover

/-! ## Builds and manifests -/

/-- The bytes that a module starts with. -/
def wasmMagic : Bytes := [0x00, 0x61, 0x73, 0x6d]

/-- Checks that a file is a compressed module. -/
def validateArtifact (path : String) (content : Bytes) : Except Fault Unit :=
  if content.take 2 ≠ Gzip.magic then .error (.invalidArtifact path .notCompressed)
  else
    match Gzip.start? 4 content with
    | none => .error (.invalidArtifact path .notDecompressible)
    | some start =>
      if start = wasmMagic then .ok () else .error (.invalidArtifact path .notWasm)

/-- The compressed bytes of a build, checked. -/
def readArtifact (path : String) : Program Bytes := do
  if !(← (Host.isFile path : Dialogue host Bool)) then throw (.artifactNotFound path)
  match ← (Host.read path : Dialogue host _) with
  | none => throw .io
  | some content =>
    let _ ← validateArtifact path content
    return content

/-- The version that the text of a manifest declares. -/
def manifestVersion (path text : String) : Except Fault Version :=
  let version := fun v => v.inField? "package" (Json.inField? "version" Json.string?)
  match (Toml.read text).bind version with
  | none => .error .toml
  | some text =>
    match Version.ofText? text with
    | some v => .ok v
    | none => .error (.invalidArtifact path (.badVersion text))

/-- The version that a manifest declares. -/
def readManifestVersion (path : String) : Program Version := do
  match (← (Host.read path : Dialogue host _)).bind Utf8.text? with
  | none => throw .io
  | some text => manifestVersion path text

/-! ## Records -/

/-- What one record is for. -/
structure CodeKey where
  contractName : String
  version : Version
  nodeType : String
  deriving DecidableEq

/-- The directory of the records. -/
structure CodeStore where
  root : String
  deriving DecidableEq, Repr

namespace CodeStore

/-- The file of a record. -/
def cachePath (s : CodeStore) (key : CodeKey) : String :=
  Path.join (Path.join (Path.join s.root key.contractName) ("v" ++ key.version.text))
    (key.nodeType ++ ".json")

/-- What was recorded. -/
def cached (s : CodeStore) (key : CodeKey) : Dialogue host (Option CodeArtifact) := do
  let content ← Host.read (s.cachePath key)
  return content.bind fun bs => (Json.readBytes bs).bind CodeArtifact.ofJson?

/-- Records what was stored. -/
def record (s : CodeStore) (key : CodeKey) (artifact : CodeArtifact) : Program Unit := do
  let content := Utf8.encode artifact.fileText
  if ← (Host.write (s.cachePath key) content : Dialogue host Bool) then return ()
  else throw .io

/-- What was recorded, or else a new upload, which is then recorded. -/
def getOrStoreCode (s : CodeStore) (g : GasSettings) (uploader path : String) (key : CodeKey) :
    Program CodeArtifact := do
  match ← (s.cached key : Dialogue host _) with
  | some artifact => return artifact
  | none =>
    let wasm ← readArtifact path
    let artifact ← (storeCode g uploader wasm).onHost
    s.record key artifact
    return artifact

end CodeStore

end Handover
