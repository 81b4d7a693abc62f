import GeniusNew.Hash.Sha256

/-! # HMAC-SHA-256

The keyed hash as RFC 2104 defines it over SHA-256. What follows depends on it only through
its length.
-/

namespace Hmac

def blockBytes : Nat := 64

/-- The key of one block: a longer key is hashed first. -/
def blockKey (key : List UInt8) : List UInt8 :=
  let short := if key.length > blockBytes then Sha256.digest key else key
  short ++ List.replicate (blockBytes - short.length) 0

/-- `hmac.new(key, message, hashlib.sha256).digest()`. -/
def digest (key message : List UInt8) : List UInt8 :=
  let inner := Sha256.digest ((blockKey key).map (· ^^^ 0x36) ++ message)
  Sha256.digest ((blockKey key).map (· ^^^ 0x5c) ++ inner)

theorem length_digest (key message : List UInt8) : (digest key message).length = 32 :=
  Sha256.length_digest _

end Hmac
