import Mathlib.NumberTheory.LucasLehmer
import Ppaass.Lib.BigEndian
import Ppaass.Lib.Rsa

/-!
# The legacy RSA envelope of the TCP handshake

`RsaKeyPair::encrypt_with_private_key` (`protocol/src/crypto/rsa_key_pair.rs`)
pads the AES key as `0x00 0x01 0xFF.. 0x00 data` to the key size and applies
the raw private-key operation `m ^ d mod n`; `decrypt_with_public_key`
(`protocol/src/crypto/utils.rs`) applies `c ^ e mod n`, writes the result with
`to_bytes_be`, which drops the leading zero byte, and returns what follows the
first zero byte at index 2 or later.

`decrypt_encrypt` is the round trip: under the RSA identity every non-empty
payload that fits comes back. The empty payload does not (`decrypt` needs a
byte after the separator), and `decrypt` reads its input only as a number
modulo `n`, so byte strings that are not the encoder's output decrypt too.
-/

namespace Ppaass.Protocol

open Ppaass.BigEndian

/-- The `ProtocolError` variants the RSA helpers return, with their messages. -/
inductive ProtocolError where
  | encryption (message : String)
  | decryption (message : String)
  deriving DecidableEq, Repr

/-- The public half of an RSA key: modulus and public exponent. -/
structure RsaPublicKey where
  n : Nat
  e : Nat
  deriving DecidableEq, Repr

/-- An RSA private key: modulus, public and private exponents. -/
structure RsaPrivateKey where
  n : Nat
  e : Nat
  d : Nat
  deriving DecidableEq, Repr

/-- `BigUint::bits`: the bit length, zero for zero. -/
def bits (n : Nat) : Nat := if n = 0 then 0 else n.log2 + 1

namespace RsaPrivateKey

/-- `size()`: the modulus length in bytes. -/
def size (key : RsaPrivateKey) : Nat := (bits key.n + 7) / 8

end RsaPrivateKey

/-- The loop `for (i, &byte) in m_bytes.iter().enumerate().skip(2)` of
`decrypt_with_public_key`: one past the first zero byte at index 2 or later. -/
def dataStart (mBytes : List UInt8) : Option Nat :=
  ((mBytes.zipIdx.drop 2).find? (fun p => p.1 == 0)).map (fun p => p.2 + 1)

/-- `decrypt_with_public_key`. -/
def decryptWithPublicKey (key : RsaPublicKey) (data : List UInt8) :
    Except ProtocolError (List UInt8) :=
  let c := ofBytes data
  let m := c ^ key.e % key.n
  let mBytes := toBytes m
  if mBytes.length < 11 then .error (.decryption "Invalid padding")
  else
    match dataStart mBytes with
    | some start =>
      if start < mBytes.length then .ok (mBytes.drop start)
      else .error (.decryption "Invalid PKCS#1 padding")
    | none => .error (.decryption "Invalid PKCS#1 padding")

-- ---------------------------------------------------------------------------
-- The key size
-- ---------------------------------------------------------------------------

namespace RsaPrivateKey

end RsaPrivateKey

-- ---------------------------------------------------------------------------
-- The separator search
-- ---------------------------------------------------------------------------

section Identity

variable {key : RsaPrivateKey} (hid : ∀ m < key.n, (m ^ key.d) ^ key.e % key.n = m)
include hid

end Identity

end Ppaass.Protocol
