import TenantVault.Cipher.Gcm
import TenantVault.Failure

/-! # Sealed texts

AES-256-GCM with the lengths of key and nonce checked first, in that order. Neither the data nor what the tag
covers besides may be longer than the cipher takes at a time.
-/

namespace TenantVault.Sealed

def checkLengths (key nonce : Bytes) : Result Unit :=
  if key.length ≠ Gcm.keyLength then .error (.argument (.keyLength key.length))
  else if nonce.length ≠ Gcm.nonceLength then .error (.argument (.nonceLength nonce.length))
  else .ok ()

/-- The longest data that the cipher takes. -/
def maxLength : Nat := 2 ^ 31 - 1

def checkSizes (aad data : Bytes) : Result Unit :=
  if maxLength < data.length ∨ maxLength < aad.length then .error (.breakdown .dataTooLong) else .ok ()

def encrypt (key nonce aad plaintext : Bytes) : Result Bytes := do
  checkLengths key nonce
  checkSizes aad plaintext
  return Gcm.encrypt key nonce aad plaintext

def decrypt (key nonce aad sealed : Bytes) : Result Bytes := do
  checkLengths key nonce
  if sealed.length < Gcm.tagLength then throw (.crypto (.ciphertextTooShort sealed.length))
  checkSizes aad sealed
  match Gcm.decrypt? key nonce aad sealed with
  | some plaintext => return plaintext
  | none => throw (.crypto .authentication)

end TenantVault.Sealed
