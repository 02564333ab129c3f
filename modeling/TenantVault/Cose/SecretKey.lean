import TenantVault.Cose.Encrypted

/-! # Secret keys

A secret of 32 octets as a COSE key. Symmetric keys hold it under label -1; private keys of the two
elliptic curve types hold it under label -4.
-/

namespace TenantVault.Cose.SecretKey

def secretLength : Nat := 32

def typeLabel : Int := 1

def keyIdLabel : Int := 2

def algorithmLabel : Int := 3

def octetKeyPair : Int := 1

def ellipticCurve : Int := 2

def symmetric : Int := 4

def symmetricLabel : Int := -1

def privateLabel : Int := -4

def wrap (secret : Bytes) (keyId : Option Bytes) : Result Bytes :=
  if secret.length ≠ secretLength then .error (.malformed (.secretLength secret.length))
  else
    let keyEntry := match keyId with
      | some id => [(Cbor.Value.int keyIdLabel, Cbor.Value.bytes id)]
      | none => []
    .ok (Cbor.encode (.map false ([(.int typeLabel, .int symmetric), (.int algorithmLabel, .int aesGcm),
      (.int symmetricLabel, .bytes secret)] ++ keyEntry)))

/-- Where a key of the given type holds its secret. -/
def secretLabel? (type : Cbor.Value) : Option Int :=
  if type.isInt symmetric then some symmetricLabel
  else if type.isInt octetKeyPair || type.isInt ellipticCurve then some privateLabel
  else none

def unwrap (bs : Bytes) (read : Cbor.Decoder := Cbor.decode) : Result Bytes := do
  match ← decodeFirst .key bs read with
  | .map false entries =>
    let type := (Cbor.Value.lookup (.int typeLabel) entries).getD .null
    match secretLabel? type with
    | none => throw (unsupported .keyType type type.inspect)
    | some label =>
      match Cbor.Value.lookup (.int label) entries with
      | none | some .null => throw (.malformed .missingSecret)
      | some (.bytes secret) =>
        if secret.length = secretLength then return secret else throw (.malformed .secret)
      | some _ => throw (.malformed .secret)
  | _ => throw (.malformed .keyNotMap)

end TenantVault.Cose.SecretKey
