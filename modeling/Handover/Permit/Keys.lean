import Handover.Permit.Signing
import Handover.Text.Quoted

/-!
# Keys and the keystore

A key is written down as a name, the address of its account and a hexadecimal secret. The
keystore is a file of such accounts, each name once. A secret has twenty-four to thirty-two
bytes, with zeros in front of a shorter one.
-/

namespace Handover

/-- An account as written in the keystore. -/
structure KeyInfo where
  name : String
  address : String
  /-- The secret, in hexadecimal. -/
  privateKey : String
  deriving DecidableEq, Repr

namespace KeyInfo

/-- The written form of an account, with its secret. -/
def toJson (k : KeyInfo) : Json :=
  .obj [("address", .str k.address), ("name", .str k.name),
    ("private_key", .str k.privateKey)]

/-- Reads an account. The secret is only looked at when the key is used. -/
def ofJson? (v : Json) : Option KeyInfo := do
  let r ← v.record? ["name", "address", "private_key"]
  return ⟨← r.required "name" Json.string?, ← r.required "address" Json.string?,
    ← r.required "private_key" Json.string?⟩

instance : Wire KeyInfo := ⟨toJson, ofJson?⟩

end KeyInfo

/-- An account with its secret at hand. The address does not follow from the secret. -/
structure LocalKey where
  address : String
  secret : Nat
  isScalar : Ecdsa.isScalar secret = true
  deriving DecidableEq

namespace LocalKey

/-- The key of an account in the keystore. -/
def ofInfo (info : KeyInfo) : Except SigningFault LocalKey :=
  match Hex.decode info.privateKey with
  | .error fault => .error (.badHex info.name fault)
  | .ok bs =>
    let secret := Secp256k1.ofBytes bs
    if h : 24 ≤ bs.length ∧ bs.length ≤ 32 ∧ Ecdsa.isScalar secret = true then
      .ok ⟨info.address, secret, h.2.2⟩
    else .error (.badSecret info.name)

/-- The compressed public key. -/
def publicKey (k : LocalKey) : Bytes :=
  (Ecdsa.publicKey k.secret).compressed

/-- The permit for parameters, signed with the key. -/
def sign (k : LocalKey) (params : PermitParams) : Permit :=
  .sign k.secret params

/-- A key as it is shown, without its secret. -/
def text (k : LocalKey) : String :=
  "LocalKey \x7b address: " ++ Text.quoted k.address ++ ", .. \x7d"

end LocalKey

/-- Accounts by name. -/
structure KeyStore where
  accounts : List KeyInfo
  deriving DecidableEq, Repr

namespace KeyStore

/-- No accounts. -/
def empty : KeyStore :=
  ⟨[]⟩

/-- The names of the accounts in order. -/
def names (s : KeyStore) : List String :=
  (s.accounts.map KeyInfo.name).mergeSort fun a b => decide (a ≤ b)

/-- The account of a name. -/
def get (s : KeyStore) (name : String) : Except SigningFault KeyInfo :=
  match s.accounts.find? fun k => k.name == name with
  | some info => .ok info
  | none => .error (.unknownKey name)

/-- Adds an account under a new name. -/
def put (s : KeyStore) (info : KeyInfo) : Except SigningFault KeyStore :=
  if s.accounts.any fun k => k.name == info.name then .error (.duplicateKey info.name)
  else .ok ⟨s.accounts ++ [info]⟩

/-- The keystore of a list of accounts. -/
def ofList (accounts : List KeyInfo) : Except SigningFault KeyStore :=
  accounts.foldlM put empty

/-- The key of a name. -/
def key (s : KeyStore) (name : String) : Except SigningFault LocalKey :=
  (s.get name).bind LocalKey.ofInfo

/-- The accounts of a keystore file. -/
def accounts? (v : Json) : Option (List KeyInfo) :=
  v.inField? "accounts" Wire.ofJson?

end KeyStore

end Handover
