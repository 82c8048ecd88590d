import Handover.Crypto.Hmac
import Handover.Crypto.Secp256k1

/-!
# Signatures

A secret is a number from `1` to `n - 1`. A signature of a message is a pair of such numbers,
found with a nonce that follows from the secret and the message, so that signing is a
function. Of the two signatures that differ in the sign of `s`, the lower one is made, and
only the lower one is accepted.
-/

namespace Handover.Ecdsa

open Secp256k1

/-- A signature. -/
structure Signature where
  r : Nat
  s : Nat
  deriving DecidableEq, Repr

/-- Whether a number is a scalar other than zero. -/
def isScalar (k : Nat) : Bool :=
  decide (0 < k) && decide (k < n)

/-- The sixty-four bytes of a signature. -/
def Signature.toBytes (sig : Signature) : Bytes :=
  Secp256k1.toBytes sig.r ++ Secp256k1.toBytes sig.s

/-- The signature of sixty-four bytes, if both numbers are in range. -/
def Signature.ofBytes? (bs : Bytes) : Option Signature :=
  if bs.length = 64 then
    let sig : Signature := ⟨Secp256k1.ofBytes (bs.take 32), Secp256k1.ofBytes (bs.drop 32)⟩
    if isScalar sig.r && isScalar sig.s then some sig else none
  else none

/-- The number that is signed for a message. -/
def messageScalar (message : Bytes) : Nat :=
  Secp256k1.ofBytes (Sha256.digest message) % n

/-- Key and value of the generator of nonces. -/
structure NonceState where
  key : Bytes
  value : Bytes

/-- Mixes bytes into the state of the generator. -/
def NonceState.mix (g : NonceState) (byte : UInt8) (extra : Bytes) : NonceState :=
  let key := Hmac.digest g.key (g.value ++ byte :: extra)
  ⟨key, Hmac.digest key g.value⟩

/-- The first nonce in range, within a number of attempts. Each fails with a chance of about
one in `2 ^ 128`. -/
def nonceFrom : Nat → NonceState → Nat
  | 0, _ => 1
  | attempts + 1, g =>
    let value := Hmac.digest g.key g.value
    let k := Secp256k1.ofBytes value
    if isScalar k then k else nonceFrom attempts (NonceState.mix ⟨g.key, value⟩ 0x00 [])

/-- The nonce for a secret and the number that is signed. -/
def nonce (secret : Nat) (z : Nat) : Nat :=
  let seed := Secp256k1.toBytes secret ++ Secp256k1.toBytes z
  let g : NonceState := ⟨List.replicate 32 0x00, List.replicate 32 0x01⟩
  nonceFrom 8 ((g.mix 0x00 seed).mix 0x01 seed)

/-- The multiple of the generator, with the neutral element at the origin. -/
def generate (k : Nat) : Point :=
  (((Projective.ofPoint generator).scale k 256).toPoint?).getD ⟨0, 0⟩

/-- The public key of a secret. -/
def publicKey (secret : Nat) : Point :=
  generate secret

/-- The signature of a message. -/
def sign (secret : Nat) (message : Bytes) : Signature :=
  let z := messageScalar message
  let k := nonce secret z
  let r := (generate k).x % n
  let s := inverse n k * ((z + r * secret) % n) % n
  ⟨r, if n / 2 < s then n - s else s⟩

/-- Whether a signature is one of a message by the holder of a key. -/
def verify (key : Point) (message : Bytes) (sig : Signature) : Bool :=
  if n / 2 < sig.s then false
  else
    let z := messageScalar message
    let w := inverse n sig.s
    let q := ((Projective.ofPoint generator).scale (z * w % n) 256).add
      ((Projective.ofPoint key).scale (sig.r * w % n) 256)
    match q.toPoint? with
    | some q => q.x % n == sig.r
    | none => false

end Handover.Ecdsa
