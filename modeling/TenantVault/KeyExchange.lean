import TenantVault.Cipher.Sealed
import TenantVault.Curve.X25519
import TenantVault.Hash.Hmac

/-! # Ephemeral key exchange

X25519 between a client and a server. The server's secret is drawn anew for each exchange and bound to the
nonce of the request.
-/

namespace TenantVault.KeyExchange

structure Agreement where
  shared : Bytes
  /-- Our own public key. -/
  publicKey : Bytes
  deriving DecidableEq

def lengthDetail : String := BadArgument.exchangeKeyLength.summary

def agree (secret theirs : Bytes) : Result Agreement :=
  if secret.length ≠ X25519.keyLength then .error (.breakdown .rawKeyLength)
  else if theirs.length ≠ X25519.keyLength then .error (.argument (.exchangeKey lengthDetail))
  else match X25519.exchange? secret theirs with
    | some shared => .ok ⟨shared, X25519.publicKey secret⟩
    | none => .error (.argument (.exchangeKey "the point has low order"))

/-- What a request for an exchange has to look like. -/
def checkRequest (theirs nonce : Bytes) : Result Unit :=
  if nonce.length ≠ Gcm.nonceLength then .error (.argument (.nonceLength nonce.length))
  else if theirs.length ≠ X25519.keyLength then .error (.argument .exchangeKeyLength)
  else .ok ()

/-- The number of random octets that an exchange draws. -/
def randomLength : Nat := 32

/-- The server's side once its random octets are there. -/
def respond (random theirs nonce : Bytes) : Result Agreement :=
  agree (HashFunction.sha3_256.hmac random nonce) theirs

/-- The client's side. -/
def clientSecret (secret theirs : Bytes) : Result Bytes :=
  if secret.length ≠ X25519.keyLength then .error (.breakdown .rawKeyLength)
  else if theirs.length ≠ X25519.keyLength then .error (.argument .exchangeKeyLength)
  else match X25519.exchange? secret theirs with
    | some shared => .ok shared
    | none => .error (.breakdown .lowOrderPoint)

end TenantVault.KeyExchange
