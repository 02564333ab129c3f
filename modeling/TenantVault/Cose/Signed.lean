import TenantVault.Cose.Encrypted
import TenantVault.Curve.Ed25519

/-! # Signed messages

The COSE message with one signature: a tagged list of a protected header, an unprotected header, a
payload and the signature. The signature covers header, outer data and payload through the structure
that `signedPart` writes. Every key of a list is tried in turn when a message is verified.
-/

namespace TenantVault.Cose

/-- EdDSA. -/
def edDsa : Int := -8

structure Signed where
  headerOctets : Bytes
  unprotected : Cbor.Entries
  payload : Bytes
  signature : Bytes

namespace Signed

def mark : UInt8 := 0xD2

def signedPart (m : Signed) (aad : Bytes) : Bytes :=
  Cbor.encode (.list false [.text "Signature1", .bytes m.headerOctets, .bytes aad, .bytes m.payload])

/-- The algorithm that the protected header names; an empty header names none. -/
def algorithm (m : Signed) : Result Cbor.Value :=
  if m.headerOctets.isEmpty then .ok .null
  else match Cbor.decode m.headerOctets with
    | .error fault => .error (.breakdown (.cbor fault))
    | .ok (.map _ entries, _) => .ok ((Cbor.Value.lookup (.int algorithmLabel) entries).getD .null)
    | .ok _ => .error (.breakdown .notRecord)

def toBytes (m : Signed) : Bytes :=
  mark :: Cbor.encode
    (.list false [.bytes m.headerOctets, .map false m.unprotected, .bytes m.payload, .bytes m.signature])

def parse (bs : Bytes) : Result Signed := do
  match ← decodeFirst .token (withoutMark mark bs) with
  | .list false [.bytes headerOctets, .map false unprotected, .bytes payload, .bytes signature] =>
    return { headerOctets, unprotected, payload, signature }
  | .list false [_, _, _, _] => throw (.malformed .token)
  | _ => throw (.malformed .notFourElements)

/-- A message that still lacks its signature. -/
def unsigned (payload : Bytes) (algorithm : Int) (keyId : Option Bytes) : Signed :=
  let keyEntry := match keyId with
    | some id => [(Cbor.Value.int keyIdLabel, Cbor.Value.bytes id)]
    | none => []
  { headerOctets := Cbor.encode (.map false ((.int algorithmLabel, .int algorithm) :: keyEntry))
    unprotected := []
    payload
    signature := [] }

/-- Whether one of the keys verifies a signature; a key of a wrong length is an error when it is reached. -/
def verifiedByAny (message signature : Bytes) : List Bytes → Result Bool
  | [] => .ok false
  | key :: keys =>
    if key.length ≠ Ed25519.keyLength then .error (.breakdown .rawKeyLength)
    else if Ed25519.verify key message signature then .ok true
    else verifiedByAny message signature keys

def verify (bs aad : Bytes) (keys : List Bytes) : Result Signed := do
  let m ← parse bs
  let algorithm ← m.algorithm
  if !algorithm.isInt edDsa then throw (unsupported .signatureAlgorithm algorithm algorithm.inspect)
  if ← verifiedByAny (m.signedPart aad) m.signature keys then return m
  throw (.crypto .tokenSignature)

end Signed

end TenantVault.Cose
