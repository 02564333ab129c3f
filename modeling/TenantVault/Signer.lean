import TenantVault.Cbor.Encode
import TenantVault.Curve.Ed25519
import TenantVault.Failure
import TenantVault.Hash.Hmac

/-! # Deterministic signing and derived keys

A signer holds one seed and signs under as many keys as there are pairs of a label and a path. The key
that encrypts the keys of a tenant's settings is never stored: it is derived from a signature, which is
the same whenever it is made.
-/

namespace TenantVault

structure Signer where
  seed : Bytes
  length_seed : seed.length = 32

namespace Signer

def seedLength : Nat := 32

def ofSeed (seed : Bytes) : Result Signer :=
  if h : seed.length = 32 then .ok ⟨seed, h⟩ else .error (.argument (.seedLength seed.length))

/-- What the key for a label and a path is derived from, besides the seed. -/
def info (label : Bytes) (path : List Bytes) : Bytes :=
  Cbor.encode (.list false (.bytes label :: path.map .bytes))

/-- The private key for a label and a path. -/
def privateKey (s : Signer) (label : Bytes) (path : List Bytes) : Bytes :=
  HashFunction.sha256.hkdf s.seed (info label path) [] 32

def sign (s : Signer) (label : Bytes) (path : List Bytes) (message : Bytes) : Bytes :=
  Ed25519.sign (s.privateKey label path) message

def publicKey (s : Signer) (label : Bytes) (path : List Bytes) : Bytes :=
  Ed25519.publicKey (s.privateKey label path)

def settingLabel : Bytes := Bytes.ofText "COSE_Symmetric_Key"

def namespaceLabel : Bytes := Bytes.ofText "COSE_Schnorr_Signing"

def identityLabel : Bytes := Bytes.ofText "COSE_Identity"

def delegationLabel : Bytes := Bytes.ofText "COSE_Delegation"

end Signer

namespace TenantKey

/-- The last part of a tenant, which is its namespace and keys the derivation. -/
def namespacePart (tenant : List Bytes) : Result Bytes :=
  match tenant.getLast? with
  | some ns => .ok ns
  | none => .error (.breakdown .emptyPath)

/-- What the signer signs for the key of one setting. -/
def challenge (ns keyId : Bytes) : Bytes := HashFunction.sha3_256.hmac ns keyId

def ofSignature (ns signature : Bytes) : Bytes := HashFunction.sha3_256.hmac ns signature

@[simp] theorem length_ofSignature (ns signature : Bytes) : (ofSignature ns signature).length = 32 := by
  simp [ofSignature, HashFunction.sha3_256]

/-- The key that a signer yields without further ado. -/
def derive (s : Signer) (label : Bytes) (tenant : List Bytes) (keyId : Bytes) : Result Bytes := do
  let ns ← namespacePart tenant
  return ofSignature ns (s.sign label tenant (challenge ns keyId))

end TenantKey

end TenantVault
