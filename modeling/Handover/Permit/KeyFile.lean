import Handover.Host
import Handover.Json.Reader
import Handover.Permit.Keys

/-!
# The keystore file

A keystore is read from a file as a whole, and not at all when a name occurs twice.
-/

namespace Handover.KeyStore

/-- The keystore that the bytes of a file hold. -/
def ofBytes (content : Bytes) : Except Fault KeyStore :=
  match (Json.readBytes content).bind accounts? with
  | none => .error .json
  | some accounts => (ofList accounts).mapError Fault.signing

/-- Reads a keystore. -/
def load (path : String) : Program KeyStore := do
  match ← (Host.read path : Dialogue host _) with
  | none => throw .io
  | some content => ofBytes content

end Handover.KeyStore
