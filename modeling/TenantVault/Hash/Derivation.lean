import TenantVault.Failure
import TenantVault.Hash.Hmac

/-! # Derived keys of any length

HKDF with SHA-256 up to its longest output. Leaving out the salt is the same as an empty one.
-/

namespace TenantVault

def deriveKey (secret info : Bytes) (salt : Option Bytes) (length : Nat) : Result Bytes :=
  if HashFunction.sha256.maxExpansion < length then .error (.breakdown .expansionTooLong)
  else .ok (HashFunction.sha256.hkdf secret info (salt.getD []) length)

end TenantVault
