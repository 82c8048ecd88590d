import Handover.Crypto.Ecdsa
import Handover.Permit.Basic

/-!
# Signing and verifying permits

A permit carries a signature of its sign document and the key that verifies it. Verifying
checks the type of the key, the key, the form of the signature, and then the signature of the
document. Which account a key belongs to is not part of it.
-/

namespace Handover

/-- Why a key could not be used, or a permit does not verify. -/
inductive SigningFault where
  | badHex (name : String) (fault : Hex.Fault)
  | badSecret (name : String)
  | unsupportedKeyType (kind : String)
  /-- A public key or signature that is none. -/
  | malformed
  /-- A signature of something else. -/
  | mismatch
  | unknownKey (name : String)
  | duplicateKey (name : String)
  deriving DecidableEq, Repr

/-- The wording of a fault. -/
def SigningFault.message : SigningFault → String
  | badHex name fault => "key " ++ name ++ ": " ++ fault.message
  | badSecret name => "key " ++ name ++ ": signature error"
  | unsupportedKeyType kind => "unsupported public key type " ++ kind
  | malformed => "signature error"
  | mismatch => "permit signature does not match its params"
  | unknownKey name => "no key named " ++ name ++ " in keystore"
  | duplicateKey name => "key " ++ name ++ " already exists"

/-- Checks the signature of a permit against its key. -/
def Permit.verify (p : Permit) : Except SigningFault Unit :=
  if p.signature.pubKey.kind ≠ PubKey.secp256k1 then
    .error (.unsupportedKeyType p.signature.pubKey.kind)
  else
    match Secp256k1.Point.ofBytes? p.signature.pubKey.value,
      Ecdsa.Signature.ofBytes? p.signature.signature with
    | some key, some signature =>
      if Ecdsa.verify key p.params.signDocBytes signature then .ok () else .error .mismatch
    | _, _ => .error .malformed

/-- The permit for parameters, signed with a secret. -/
def Permit.sign (secret : Nat) (params : PermitParams) : Permit where
  params
  signature :=
    { pubKey := ⟨PubKey.secp256k1, (Ecdsa.publicKey secret).compressed⟩
      signature := (Ecdsa.sign secret params.signDocBytes).toBytes }

end Handover
