import Handover.Crypto.Sha256

/-!
# Keyed digests

The keyed digest of a message is the digest of the digest of the message, each time with the
key mixed in. A key longer than a block is digested first.
-/

namespace Handover.Hmac

/-- A key padded to a block and combined with a byte. -/
def keyBlock (byte : UInt8) (key : Bytes) : Bytes :=
  let key := if key.length > 64 then Sha256.digest key else key
  (key ++ List.replicate (64 - key.length) 0).map (· ^^^ byte)

/-- The keyed digest of a message. -/
def digest (key message : Bytes) : Bytes :=
  Sha256.digest (keyBlock 0x5c key ++ Sha256.digest (keyBlock 0x36 key ++ message))

end Handover.Hmac
